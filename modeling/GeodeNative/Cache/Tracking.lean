import GeodeNative.Cache.TrackedSlot

/-!
# Tracked operations on a key

In a region that caches and has no concurrency checks, a client operation tracks the
entry of its key while it waits for the server. It starts with `addTrackerForEntry`,
stores the result with the update count that it got, and the operations that hold a
`RemoveTracking` object release the tracker once more when they return. Notifications
from the server store without a tracker.

`TrackedKey` is the state of one key with all the operations in flight on it, and
`TrackedKey.step` makes one segment call at a time, so that a run is an interleaving of
any number of operations. An operation that was started and has not stored yet is to
leave alone what a notification has stored meanwhile. It does so in every run in which
the key is not bound anew while such an operation waits.
-/

namespace GeodeNative

open AList

/-- The operations that track the entry of their key. -/
inductive OpKind
  | get
  | put
  | putAll
  | create
  deriving DecidableEq, Repr

namespace OpKind

/-- The argument `failIfPresent` that an operation gives to `addTrackerForEntry`. -/
def failIfPresent : OpKind → Bool
  | create => true
  | _ => false

/-- The argument `incUpdateCount` that an operation gives to `addTrackerForEntry`. -/
def incUpdateCount : OpKind → Bool
  | get => false
  | _ => true

/-- Whether an operation holds a `RemoveTracking` object. -/
def removesTracking : OpKind → Bool
  | get | putAll => true
  | put | create => false

end OpKind

/-- An operation that was started on the key. -/
structure TrackedOp where
  kind : OpKind
  updateCount : ℤ
  /-- how many notifications were applied to the key before the tracker was added -/
  startedAt : ℕ
  /-- whether nothing is left to do but the destructor of `RemoveTracking` -/
  leaving : Bool
  deriving DecidableEq, Repr

/-- The state of a key: the segment, the operations started on it, and how many
notifications were applied to it. -/
structure TrackedKey (K V : Type*) where
  segment : MapSegment K V
  ops : AList (fun _ : ℕ => TrackedOp)
  applied : ℕ
  /-- an exception has left the destructor of `RemoveTracking`, which ends the process -/
  terminated : Bool

/-- The segment calls on a key: an operation starts, stores the result of the server, fails
on the server instead, or leaves; or a notification arrives. -/
inductive KeyEvent (V D : Type*)
  | start (op : ℕ) (kind : OpKind)
  | localUpdate (op : ℕ) (newValue : NewValue V) (versionTag : Option VersionTag)
  | remoteFailure (op : ℕ)
  | removeTracking (op : ℕ)
  | notifyPut (newValue : NewValue V) (versionTag : Option VersionTag) (delta : Option D)
  | notifyInvalidate (versionTag : Option VersionTag)
  | notifyRemove (versionTag : Option VersionTag)

namespace TrackedKey

variable {K V D M : Type*} [DecidableEq K] {st : TrackedKey K V} {o : TrackedOp} {key : K}

/-! ## The steps -/

/-- The first step of an operation. It ends at once where `addTrackerForEntry` throws, and
for a `create` that finds a value. -/
def start (st : TrackedKey K V) (key : K) (op : ℕ) (kind : OpKind) : TrackedKey K V :=
  if op ∈ st.ops then
    st
  else
    let added := st.segment.addTrackerForEntry key .null true kind.failIfPresent
      kind.incUpdateCount
    match added.updateCount with
    | none => { st with segment := added.segment }
    | some updateCount =>
      if updateCount < 0 ∧ added.oldValue.isNull = false then
        { st with segment := added.segment }
      else
        { st with
          segment := added.segment
          ops := st.ops.insert op ⟨kind, updateCount, st.applied, false⟩ }

/-- The end of an operation, but for its `RemoveTracking` object. -/
def finish (st : TrackedKey K V) (op : ℕ) (o : TrackedOp) : TrackedKey K V :=
  if o.kind.removesTracking then
    { st with ops := st.ops.insert op { o with leaving := true } }
  else
    { st with ops := st.ops.erase op }

/-- The call that stores the result of an operation. -/
def localCall (region : Region K V D M) (st : TrackedKey K V) (key : K) (o : TrackedOp)
    (newValue : NewValue V) (versionTag : Option VersionTag) : CallResult K V :=
  if o.kind = .create then
    st.segment.create region key newValue.toCacheValue {} o.updateCount 0 versionTag
  else
    st.segment.put region key newValue.toCacheValue {} o.updateCount 0 versionTag none

/-- The storing step of an operation. -/
def localUpdate (region : Region K V D M) (st : TrackedKey K V) (key : K) (op : ℕ)
    (newValue : NewValue V) (versionTag : Option VersionTag) : TrackedKey K V :=
  match st.ops.lookup op with
  | none => st
  | some o =>
    if o.leaving then
      st
    else
      { st with segment := (st.localCall region key o newValue versionTag).segment }.finish op o

/-- The operation fails on the server, or has nothing to store. -/
def remoteFailure (st : TrackedKey K V) (key : K) (op : ℕ) : TrackedKey K V :=
  match st.ops.lookup op with
  | none => st
  | some o =>
    if o.leaving then
      st
    else if o.kind.removesTracking = false ∧ o.updateCount ≥ 0 then
      { st with segment := (st.segment.removeTrackerForEntry key).2 }.finish op o
    else
      st.finish op o

/-- The destructor of `RemoveTracking`. -/
def removeTracking (st : TrackedKey K V) (key : K) (op : ℕ) : TrackedKey K V :=
  match st.ops.lookup op with
  | none => st
  | some o =>
    if o.leaving = false then
      st
    else if o.updateCount ≥ 0 then
      let removed := st.segment.removeTrackerForEntry key
      { st with
        segment := removed.2
        ops := st.ops.erase op
        terminated := !removed.1 }
    else
      { st with ops := st.ops.erase op }

/-- The state after a notification, given whether it was applied. -/
def notify (st : TrackedKey K V) (segment : MapSegment K V) (applies : Bool) : TrackedKey K V :=
  { st with segment, applied := if applies then st.applied + 1 else st.applied }

/-- One segment call; after the end of the process there is none. A remove is applied if the
key was bound, since it unbinds the key even where it throws. -/
def step (region : Region K V D M) (key : K) (st : TrackedKey K V) :
    KeyEvent V D → TrackedKey K V :=
  fun event =>
  if st.terminated then
    st
  else
    match event with
    | .start op kind => st.start key op kind
    | .localUpdate op newValue versionTag => st.localUpdate region key op newValue versionTag
    | .remoteFailure op => st.remoteFailure key op
    | .removeTracking op => st.removeTracking key op
    | .notifyPut newValue versionTag delta =>
      let result := st.segment.put region key newValue.toCacheValue {} (-1) 0 versionTag delta
      st.notify result.segment (result.outcome = .returned .noErr)
    | .notifyInvalidate versionTag =>
      let result := st.segment.invalidate region key {} versionTag
      st.notify result.segment (result.outcome = .returned .noErr)
    | .notifyRemove versionTag =>
      let result := st.segment.remove region key {} (-1) versionTag false
      st.notify result.segment (key ∈ st.segment.map)

/-- A key of an empty segment, with no operation in flight. -/
def initial (numDestroyTrackers : ℤ) (heap : EntryHeap K V) (tombHeap : TombId → TombstoneEntry) :
    TrackedKey K V where
  segment := .empty false numDestroyTrackers heap tombHeap
  ops := ∅
  applied := 0
  terminated := false

/-! ## What tracking is for -/

/-- An operation that tracks the entry and has not stored its result yet. A `create` that
finds an entry without a value goes on untracked, with a negative count. -/
def InFlight (st : TrackedKey K V) (op : ℕ) (o : TrackedOp) : Prop :=
  st.ops.lookup op = some o ∧ o.leaving = false ∧ 0 ≤ o.updateCount

/-- A notification was applied since the operation was started. -/
def Notified (st : TrackedKey K V) (o : TrackedOp) : Prop :=
  o.startedAt < st.applied
  deriving Decidable

/-- A storing step of a notified operation leaves the entry alone and says so. -/
def Protected (region : Region K V D M) (key : K) (st : TrackedKey K V) : KeyEvent V D → Prop
  | .localUpdate op newValue versionTag =>
    st.terminated = false → ∀ o, st.InFlight op o → st.Notified o →
      let result := st.localCall region key o newValue versionTag
      result.outcome = .returned .cacheEntryUpdated ∧
        result.segment.entryAt key = st.segment.entryAt key
  | _ => True

/-- The key is not bound and the step binds it. -/
def BindsAnew (key : K) (st : TrackedKey K V) (event : KeyEvent V D) : Prop :=
  st.segment.entryAt key = none ∧
    match event with
    | .start op _ => op ∉ st.ops
    | .localUpdate op _ _ => ∃ o, st.ops.lookup op = some o ∧ o.leaving = false ∧ o.updateCount < 0
    | .notifyPut _ _ delta => delta = none
    | _ => False

/-- The key is bound anew only while no notified operation waits. -/
def RebindsAlone (key : K) (st : TrackedKey K V) (event : KeyEvent V D) : Prop :=
  st.BindsAnew key event → ∀ op o, st.InFlight op o → ¬ st.Notified o

/-! ## Interleavings -/

/-- The key is free, or bound to an entry that was or was not tracked. -/
def SlotKnown (key : K) (st : TrackedKey K V) : Prop :=
  st.segment.Free key ∨ st.segment.Untracked key ∨ st.segment.Spoiled key

/-- The invariant: while an operation waits, the entry that it tracks is spoiled; once a
notification was applied, which can only be a remove, the key is free. -/
structure Waiting (key : K) (st : TrackedKey K V) : Prop where
  slot : st.SlotKnown key
  started_le : ∀ op o, st.ops.lookup op = some o → o.startedAt ≤ st.applied
  fresh : ∀ op o, st.InFlight op o → ¬ st.Notified o → st.segment.Spoiled key
  notified : ∀ op o, st.InFlight op o → st.Notified o → st.segment.Free key

/-- No operation waits. -/
def Idle (st : TrackedKey K V) : Prop :=
  ∀ op o, ¬ st.InFlight op o

/-- The operations of `st'` are among those of `st`, and those in flight were so before. -/
def Shrinks (st st' : TrackedKey K V) : Prop :=
  ∀ op o', st'.ops.lookup op = some o' → ∃ o, st.ops.lookup op = some o ∧
    o.startedAt = o'.startedAt ∧ (o'.leaving = false → o = o')

section Invariant

variable {st' : TrackedKey K V} {op : ℕ}

section

omit [DecidableEq K]

lemma Shrinks.inFlight (h : Shrinks st st') (ho : st'.InFlight op o) : st.InFlight op o := by
  obtain ⟨hl, hleaving, hcount⟩ := ho
  obtain ⟨_, hl₀, -, heq⟩ := h op o hl
  rw [heq hleaving] at hl₀
  exact ⟨hl₀, hleaving, hcount⟩

lemma shrinks_of_ops_eq (h : st'.ops = st.ops) : Shrinks st st' := fun _ o ho =>
  ⟨o, h ▸ ho, rfl, fun _ => rfl⟩

lemma shrinks_erase (h : st'.ops = st.ops.erase op) : Shrinks st st' := by
  intro op' o ho
  rw [h] at ho
  by_cases hop : op' = op
  · subst hop
    rw [lookup_erase] at ho
    cases ho
  · rw [lookup_erase_ne hop] at ho
    exact ⟨o, ho, rfl, fun _ => rfl⟩

lemma shrinks_finish (ho : st.ops.lookup op = some o)
    (h : st'.ops = st.ops) : Shrinks st (st'.finish op o) := by
  unfold finish
  by_cases hkind : o.kind.removesTracking = true
  · rw [if_pos hkind]
    intro op' o' ho'
    simp only [h] at ho'
    by_cases hop : op' = op
    · subst hop
      rw [lookup_insert] at ho'
      cases ho'
      exact ⟨o, ho, rfl, fun hleaving => by cases hleaving⟩
    · rw [lookup_insert_ne hop] at ho'
      exact ⟨o', ho', rfl, fun _ => rfl⟩
  · rw [if_neg hkind]
    exact shrinks_erase (by rw [h])

@[simp] lemma finish_segment (op : ℕ) (o : TrackedOp) : (st.finish op o).segment = st.segment := by
  unfold finish
  split <;> rfl

@[simp] lemma finish_applied (op : ℕ) (o : TrackedOp) : (st.finish op o).applied = st.applied := by
  unfold finish
  split <;> rfl

end

variable (h : Waiting key st)

include h

/-- While the entry was never tracked, no operation waits. -/
lemma Waiting.idle_of_untracked (hslot : st.segment.Untracked key) : st.Idle := by
  intro op o ho
  by_cases hn : st.Notified o
  · obtain ⟨_, hk, -⟩ := hslot.bound
    cases hk.symm.trans (h.notified op o ho hn).unbound
  · exact hslot.not_spoiled (h.fresh op o ho hn)

/-- While the key is free, only notified operations wait. -/
lemma Waiting.idle_of_free (hslot : st.segment.Free key)
    (hnone : ∀ op o, st.InFlight op o → ¬ st.Notified o) : st.Idle := fun op o ho =>
  hslot.not_spoiled (h.fresh op o ho (hnone op o ho))

/-- A step that only takes operations away keeps the invariant. -/
lemma Waiting.shrink (hops : Shrinks st st')
    (happlied : st'.applied = st.applied) (hsegment : st'.segment = st.segment) :
    Waiting key st' where
  slot := by
    unfold SlotKnown
    rw [hsegment]
    exact h.slot
  started_le := by
    intro op o ho
    obtain ⟨o₀, ho₀, hstart, -⟩ := hops op o ho
    rw [happlied, ← hstart]
    exact h.started_le op o₀ ho₀
  fresh := by
    intro op o ho hn
    rw [hsegment]
    exact h.fresh op o (hops.inFlight ho) (by rwa [Notified, ← happlied])
  notified := by
    intro op o ho _
    rw [hsegment]
    exact h.notified op o (hops.inFlight ho) (by rwa [Notified, ← happlied])

/-- While no operation waits, any change of the slot keeps the invariant. -/
lemma Waiting.of_idle (hidle : st.Idle) (hops : Shrinks st st')
    (happlied : st.applied ≤ st'.applied) (hslot : st'.SlotKnown key) : Waiting key st' where
  slot := hslot
  started_le := by
    intro op o ho
    obtain ⟨o₀, ho₀, hstart, -⟩ := hops op o ho
    exact hstart ▸ (h.started_le op o₀ ho₀).trans happlied
  fresh := fun op o ho => absurd (hops.inFlight ho) (hidle op o)
  notified := fun op o ho => absurd (hops.inFlight ho) (hidle op o)

end Invariant

/-! ### The steps of an operation -/

section Steps

variable {region : Region K V D M} (op : ℕ) {newValue : NewValue V} {versionTag : Option VersionTag}
  {kind : OpKind}

lemma eq_or_lookup_of_lookup_insert {ops : AList (fun _ : ℕ => TrackedOp)} {op op' : ℕ}
    {o' : TrackedOp} (h : (ops.insert op o).lookup op' = some o') :
    o = o' ∨ ops.lookup op' = some o' := by
  by_cases hop : op' = op
  · subst hop
    rw [lookup_insert, Option.some_inj] at h
    exact .inl h
  · rw [lookup_insert_ne hop] at h
    exact .inr h

/-- The operation that starts adds itself to those in flight, if it is tracked at all. -/
lemma start_cases (st : TrackedKey K V) (key : K) (kind : OpKind) :
    let added := st.segment.addTrackerForEntry key .null true kind.failIfPresent
      kind.incUpdateCount
    st.start key op kind = st ∨ st.start key op kind = { st with segment := added.segment } ∨
      ∃ updateCount, added.updateCount = some updateCount ∧ op ∉ st.ops ∧
        st.start key op kind = { st with
          segment := added.segment
          ops := st.ops.insert op ⟨kind, updateCount, st.applied, false⟩ } := by
  intro added
  unfold start
  by_cases hop : op ∈ st.ops
  · exact .inl (if_pos hop)
  · rw [if_neg hop]
    cases hcount : added.updateCount with
    | none => exact .inr (.inl (by simp only [added] at hcount; simp only [hcount]; rfl))
    | some updateCount =>
      simp only [added] at hcount
      simp only [hcount]
      split
      · exact .inr (.inl rfl)
      · exact .inr (.inr ⟨updateCount, rfl, hop, rfl⟩)

/-- A tracked operation that finds the key free is refused. -/
lemma localCall_of_free (hslot : st.segment.Free key) (hcount : 0 ≤ o.updateCount) :
    (st.localCall region key o newValue versionTag).outcome = .returned .cacheEntryUpdated ∧
      (st.localCall region key o newValue versionTag).segment = st.segment := by
  have href : st.segment.Refused key o.updateCount 0 := by
    simp [MapSegment.Refused, hslot.disabled, hcount]
  unfold localCall
  split
  · simp [MapSegment.create, hslot.unbound, MapSegment.putNoEntry_of_refused href]
  · simp [MapSegment.put, hslot.unbound, MapSegment.putNoEntry_of_refused href]

/-- An operation that finds the entry spoiled throws and changes nothing. -/
lemma localCall_of_spoiled (hslot : st.segment.Spoiled key) (o : TrackedOp) :
    (st.localCall region key o newValue versionTag).segment = st.segment := by
  unfold localCall
  split
  · rw [hslot.create]
  · rw [hslot.put]

/-- An untracked operation leaves an entry that was never tracked. -/
lemma localCall_of_untracked (hslot : st.segment.Free key ∨ st.segment.Untracked key)
    (hcount : o.updateCount < 0) :
    (st.localCall region key o newValue versionTag).segment.Untracked key := by
  unfold localCall
  rcases hslot with hslot | hslot <;> split
  · exact hslot.create_untracked hcount
  · exact hslot.put_untracked hcount
  · exact hslot.create hcount
  · exact hslot.put hcount

/-! ### Notifications -/

variable (h : Waiting key st)

include h

/-- An operation that starts spoils the entry. -/
lemma Waiting.start_of_spoiled (hnone : ∀ op o, st.InFlight op o → ¬ st.Notified o)
    (hspoiled : (st.segment.addTrackerForEntry key .null true kind.failIfPresent
      kind.incUpdateCount).segment.Spoiled key) : Waiting key (st.start key op kind) := by
  rcases start_cases op st key kind with hst | hst | ⟨_, -, -, hst⟩
  · rw [hst]
    exact h
  · rw [hst]
    exact ⟨.inr (.inr hspoiled), h.started_le, fun _ _ _ _ => hspoiled,
      fun op' o ho hn => absurd hn (hnone op' o ho)⟩
  · rw [hst]
    -- the new operation starts with the present number of notifications
    refine ⟨.inr (.inr hspoiled), ?_, fun _ _ _ _ => hspoiled, ?_⟩
    · intro op' o ho
      rcases eq_or_lookup_of_lookup_insert ho with rfl | hl
      · exact le_rfl
      · exact h.started_le op' o hl
    · rintro op' o ⟨hl, hleaving⟩ hn
      rcases eq_or_lookup_of_lookup_insert hl with rfl | hl'
      · exact absurd hn (Nat.lt_irrefl _)
      · exact absurd hn (hnone op' o ⟨hl', hleaving⟩)

/-- A `create` that finds an entry goes on untracked or not at all. -/
lemma Waiting.start_of_bound {oldValue : CacheValue V}
    (hadded : st.segment.addTrackerForEntry key .null true kind.failIfPresent
      kind.incUpdateCount = ⟨some (-1), oldValue, st.segment⟩) :
    Waiting key (st.start key op kind) := by
  rcases start_cases op st key kind with hst | hst | ⟨_, hcount, -, hst⟩
  · rw [hst]
    exact h
  · rw [hst, hadded]
    exact h
  · rw [hadded] at hst hcount
    cases hcount
    rw [hst]
    have hflight : ∀ op' o, InFlight { st with
        ops := st.ops.insert op ⟨kind, -1, st.applied, false⟩ } op' o → st.InFlight op' o := by
      rintro op' o ⟨hl, hleaving, hpos⟩
      rcases eq_or_lookup_of_lookup_insert hl with rfl | hl'
      · exact absurd hpos (show ¬ (0 : ℤ) ≤ -1 by decide)
      · exact ⟨hl', hleaving, hpos⟩
    refine ⟨h.slot, ?_, fun op' o ho => h.fresh op' o (hflight op' o ho),
      fun op' o ho => h.notified op' o (hflight op' o ho)⟩
    intro op' o ho
    rcases eq_or_lookup_of_lookup_insert ho with rfl | hl
    · exact le_rfl
    · exact h.started_le op' o hl

/-- A tracker is taken. -/
lemma Waiting.start (kind : OpKind)
    (hnone : st.segment.Free key → ∀ op o, st.InFlight op o → ¬ st.Notified o) :
    Waiting key (st.start key op kind) := by
  rcases h.slot with hfree | huntracked | hspoiled
  · exact h.start_of_spoiled op (hnone hfree) (hfree.addTrackerForEntry _ _)
  · cases hfail : kind.failIfPresent with
    | true =>
      obtain ⟨id, hk, -⟩ := huntracked.bound
      exact h.start_of_bound op
        (by rw [hfail]; exact MapSegment.addTrackerForEntry_of_failIfPresent huntracked.disabled hk)
    | false =>
      refine h.start_of_spoiled op (fun op o ho => ?_) ?_
      · exact absurd ho (h.idle_of_untracked huntracked op o)
      · rw [hfail]
        exact huntracked.addTrackerForEntry _
  · cases hfail : kind.failIfPresent with
    | true =>
      obtain ⟨_, hk, -⟩ := hspoiled.bound
      exact h.start_of_bound op
        (by rw [hfail]; exact MapSegment.addTrackerForEntry_of_failIfPresent hspoiled.disabled hk)
    | false =>
      refine h.start_of_spoiled op
        (fun op o ho hn => (h.notified op o ho hn).not_spoiled hspoiled) ?_
      rw [hfail]
      exact hspoiled.addTrackerForEntry

/-- An update of the map that rebinds nothing under a tracker. -/
lemma Waiting.localUpdate
    (hrebind : st.RebindsAlone key (.localUpdate op newValue versionTag : KeyEvent V D)) :
    Waiting key (st.localUpdate region key op newValue versionTag) := by
  unfold TrackedKey.localUpdate
  cases hl : st.ops.lookup op with
  | none => exact h
  | some o =>
    by_cases hleaving : o.leaving = true
    · simp only [hleaving]
      exact h
    · simp only [hleaving, Bool.false_eq_true, if_false]
      rw [Bool.not_eq_true] at hleaving
      have hops : Shrinks st ({ st with segment :=
          (st.localCall region key o newValue versionTag).segment }.finish op o) :=
        shrinks_finish hl rfl
      by_cases hcount : 0 ≤ o.updateCount
      · refine h.shrink hops (by simp) ?_
        rw [finish_segment]
        by_cases hn : st.Notified o
        · exact (localCall_of_free (h.notified op o ⟨hl, hleaving, hcount⟩ hn) hcount).2
        · exact localCall_of_spoiled (h.fresh op o ⟨hl, hleaving, hcount⟩ hn) o
      · replace hcount : o.updateCount < 0 := Int.not_le.mp hcount
        rcases h.slot with hfree | huntracked | hspoiled
        · have hidle := h.idle_of_free hfree (hrebind ⟨hfree.entryAt_eq, o, hl, hleaving, hcount⟩)
          refine h.of_idle hidle hops (by simp) (.inr (.inl ?_))
          rw [finish_segment]
          exact localCall_of_untracked (.inl hfree) hcount
        · refine h.of_idle (h.idle_of_untracked huntracked) hops (by simp) (.inr (.inl ?_))
          rw [finish_segment]
          exact localCall_of_untracked (.inr huntracked) hcount
        · refine h.shrink hops (by simp) ?_
          rw [finish_segment]
          exact localCall_of_spoiled hspoiled o

lemma Waiting.remoteFailure : Waiting key (st.remoteFailure key op) := by
  unfold TrackedKey.remoteFailure
  cases hl : st.ops.lookup op with
  | none => exact h
  | some o =>
    by_cases hleaving : o.leaving = true
    · simp only [hleaving]
      exact h
    · simp only [hleaving, Bool.false_eq_true, if_false]
      rw [Bool.not_eq_true] at hleaving
      split
      · rename_i hrelease
        refine h.shrink (shrinks_finish hl rfl) (by simp) ?_
        rw [finish_segment]
        by_cases hn : st.Notified o
        · rw [(h.notified op o ⟨hl, hleaving, hrelease.2⟩ hn).removeTrackerForEntry]
        · rw [(h.fresh op o ⟨hl, hleaving, hrelease.2⟩ hn).removeTrackerForEntry]
      · exact h.shrink (shrinks_finish hl rfl) (by simp) (by simp)

/-- A tracker is given back. -/
lemma Waiting.removeTracking : Waiting key (st.removeTracking key op) := by
  unfold TrackedKey.removeTracking
  cases hl : st.ops.lookup op with
  | none => exact h
  | some =>
    dsimp only
    split
    · exact h
    · split
      · rcases h.slot with hfree | huntracked | hspoiled
        · exact h.shrink (shrinks_erase rfl) rfl (by rw [hfree.removeTrackerForEntry])
        · refine h.of_idle (h.idle_of_untracked huntracked) (shrinks_erase rfl) le_rfl ?_
          rcases huntracked.removeTrackerForEntry with hslot | hslot
          · exact .inr (.inl hslot)
          · exact .inl hslot
        · exact h.shrink (shrinks_erase rfl) rfl (by rw [hspoiled.removeTrackerForEntry])
      · exact h.shrink (shrinks_erase rfl) rfl rfl

lemma Waiting.notifyPut (delta : Option D)
    (hrebind : st.RebindsAlone key (.notifyPut newValue versionTag delta)) :
    let result := st.segment.put region key newValue.toCacheValue {} (-1) 0 versionTag delta
    Waiting key (st.notify result.segment (result.outcome = .returned .noErr)) := by
  intro result
  have hle : st.applied ≤ (st.notify result.segment
      (result.outcome = .returned .noErr)).applied := by
    unfold notify
    dsimp only
    split <;> omega
  rcases h.slot with hfree | huntracked | hspoiled
  · cases delta with
    | none =>
      refine h.of_idle (h.idle_of_free hfree (hrebind ⟨hfree.entryAt_eq, rfl⟩))
        (shrinks_of_ops_eq rfl) hle (.inr (.inl ?_))
      exact hfree.put_untracked (by decide)
    | some =>
      have hput : result = ⟨.returned .invalidDelta, {}, st.segment⟩ := hfree.put_delta
      rw [hput]
      exact h.shrink (shrinks_of_ops_eq rfl) rfl rfl
  · refine h.of_idle (h.idle_of_untracked huntracked) (shrinks_of_ops_eq rfl) hle (.inr (.inl ?_))
    exact huntracked.put (by decide)
  · have hput : result = ⟨.badWeakPtr, {}, st.segment⟩ := hspoiled.put
    rw [hput]
    exact h.shrink (shrinks_of_ops_eq rfl) rfl rfl

lemma Waiting.notifyInvalidate :
    let result := st.segment.invalidate region key {} versionTag
    Waiting key (st.notify result.segment (result.outcome = .returned .noErr)) := by
  intro result
  rcases h.slot with hfree | huntracked | hspoiled
  · have hinv : result = ⟨.returned .cacheEntryNotFound, {}, st.segment⟩ := hfree.invalidate
    rw [hinv]
    exact h.shrink (shrinks_of_ops_eq rfl) rfl rfl
  · refine h.of_idle (h.idle_of_untracked huntracked) (shrinks_of_ops_eq rfl) ?_
      (.inr (.inl huntracked.invalidate))
    unfold notify
    dsimp only
    split <;> omega
  · have hinv : result = ⟨.badWeakPtr, {}, st.segment⟩ := hspoiled.invalidate
    rw [hinv]
    exact h.shrink (shrinks_of_ops_eq rfl) rfl rfl

/-- A remove frees the key and notifies every operation that waits. -/
lemma Waiting.notifyRemove :
    Waiting key (st.notify (st.segment.remove region key {} (-1) versionTag false).segment
      (key ∈ st.segment.map)) := by
  have hoff : st.segment.concurrencyChecksEnabled = false := by
    rcases h.slot with hslot | hslot | hslot <;> exact hslot.disabled
  have hfree : (st.segment.remove region key {} (-1) versionTag false).segment.Free key :=
    MapSegment.free_remove hoff
  by_cases hk : key ∈ st.segment.map
  · have happlied : ∀ segment, (st.notify segment (key ∈ st.segment.map)).applied =
        st.applied + 1 := fun segment => by simp [notify, hk]
    refine ⟨.inl hfree, fun op o ho => ?_, fun op o ho hn => ?_, fun _ _ _ _ => hfree⟩
    · rw [happlied]
      exact (h.started_le op o ho).trans (Nat.le_succ _)
    · refine absurd ?_ hn
      rw [Notified, happlied]
      exact Nat.lt_succ_of_le (h.started_le op o ho.1)
  · have hbefore : st.segment.Free key := ⟨hoff, lookup_eq_none.mpr hk⟩
    have happlied : ∀ segment, (st.notify segment (key ∈ st.segment.map)).applied =
        st.applied := fun segment => by simp [notify, hk]
    refine ⟨.inl hfree, fun op o ho => ?_, fun op o ho hn => ?_, fun _ _ _ _ => hfree⟩
    · rw [happlied]
      exact h.started_le op o ho
    · rw [Notified, happlied] at hn
      exact absurd (h.fresh op o ho hn) hbefore.not_spoiled

end Steps

/-! ### Runs -/

section Runs

variable (region : Region K V D M)

/-- Each event at the key. -/
lemma Waiting.step (h : Waiting key st) {event : KeyEvent V D}
    (hrebind : st.RebindsAlone key event) : Waiting key (st.step region key event) := by
  unfold TrackedKey.step
  by_cases hend : st.terminated = true
  · rw [if_pos hend]
    exact h
  · rw [if_neg hend]
    cases event with
    | start op kind =>
      by_cases hop : op ∈ st.ops
      · simpa [TrackedKey.start, hop] using h
      · exact h.start op kind fun hfree => hrebind ⟨hfree.entryAt_eq, hop⟩
    | localUpdate op => exact h.localUpdate op hrebind
    | remoteFailure op => exact h.remoteFailure op
    | removeTracking op => exact h.removeTracking op
    | notifyPut _ _ delta => exact h.notifyPut delta hrebind
    | notifyInvalidate => exact h.notifyInvalidate
    | notifyRemove => exact h.notifyRemove

/-- The invariant implies the stated property. -/
lemma Waiting.protects (h : Waiting key st) (event : KeyEvent V D) :
    st.Protected region key event := by
  cases event with
  | localUpdate op =>
    intro _ o ho hn
    obtain ⟨houtcome, hsegment⟩ := localCall_of_free (h.notified op o ho hn) ho.2.2
    exact ⟨houtcome, by rw [hsegment]⟩
  | _ => trivial

lemma waiting_initial (key : K) {numDestroyTrackers : ℤ} (heap : EntryHeap K V)
    {tombHeap : TombId → TombstoneEntry} :
    Waiting key (initial numDestroyTrackers heap tombHeap) where
  slot := .inl ⟨rfl, rfl⟩
  started_le := by
    intro op o ho
    cases ho
  fresh := by
    rintro op o ⟨hl, -⟩
    cases hl
  notified := by
    rintro _ _ ⟨hl, -⟩
    cases hl

/-- **Tracking protects notified values.** In every interleaving of operations and
notifications on a key that binds the key anew only while no notified operation waits, an
operation that stores its result after a notification was applied is told that the entry was
updated, and leaves the entry as it is. -/
theorem protected_of_rebindsAlone (key : K) (numDestroyTrackers : ℤ) (heap : EntryHeap K V)
    (tombHeap : TombId → TombstoneEntry) (events : List (KeyEvent V D))
    (h : EveryStep (step region key) (RebindsAlone key) (initial numDestroyTrackers heap tombHeap)
      events) :
    EveryStep (step region key) (Protected region key) (initial numDestroyTrackers heap tombHeap)
      events :=
  everyStep_of_invariant (fun _ _ h hrebind => h.step region hrebind)
    (fun _ event h _ => h.protects region event)
    (waiting_initial key heap) h

/-- A region with one key, whose values are numbers. -/
def numberRegion : Region Unit ℕ Unit Unit :=
  ⟨⟨fun _ => none, fun _ _ => 0⟩, false, fun v _ => (v, true), fun _ => none⟩

/-- A `get` that waits while the key is removed is told so when it stores. -/
theorem get_protected_after_remove :
    let start : TrackedKey Unit ℕ := initial 0 (fun _ => .create ()) fun _ => ⟨0, false⟩
    let events : List (KeyEvent ℕ Unit) :=
      [.start 0 .get, .notifyRemove none, .localUpdate 0 (.object 1) none]
    EveryStep (step numberRegion ()) (Protected numberRegion ()) start events ∧
      let st := runFrom (step numberRegion ()) start (events.take 2)
      st.InFlight 0 ⟨.get, 0, 0, false⟩ ∧ st.Notified ⟨.get, 0, 0, false⟩ := by
  intro _ events
  refine ⟨protected_of_rebindsAlone numberRegion () 0 _ _ events ⟨?_, ?_, ?_, trivial⟩,
    ⟨rfl, rfl, Int.le_refl 0⟩, by decide⟩
  · rintro - _ o ⟨hl, -⟩
    cases hl
  · rintro ⟨-, h⟩
    exact h.elim
  · rintro ⟨-, _, hl, -, hneg⟩
    cases hl
    exact absurd hneg (by decide)

/-- A `get` waits, the key is removed and put again by notifications: the new entry has the
update count that the `get` was started with, and the `get` overwrites the notified value. -/
theorem get_overwrites_put_after_remove :
    let start : TrackedKey Unit ℕ := initial 0 (fun _ => .create ()) fun _ => ⟨0, false⟩
    let events : List (KeyEvent ℕ Unit) :=
      [.start 0 .get, .notifyRemove none, .notifyPut (.object 2) none none,
        .localUpdate 0 (.object 1) none]
    ¬ EveryStep (step numberRegion ()) (Protected numberRegion ()) start events ∧
      ((runFrom (step numberRegion ()) start (events.take 3)).segment.entryAt ()).map (·.value) =
        some (.object 2) ∧
      ((runFrom (step numberRegion ()) start events).segment.entryAt ()).map (·.value) =
        some (.object 1) := by
  refine ⟨?_, by decide, by decide⟩
  rintro ⟨-, -, -, hlocal, -⟩
  have houtcome := (hlocal rfl ⟨.get, 0, 0, false⟩ ⟨rfl, rfl, Int.le_refl 0⟩ (by decide)).1
  exact absurd houtcome (by decide)

end Runs

end TrackedKey

end GeodeNative
