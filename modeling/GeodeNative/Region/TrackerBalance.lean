import GeodeNative.Region.LocalRegion

/-!
# The trackers that operations leave

An operation is to leave the tracking number of its key as it found it. Most operations that
take a tracker do not: the tracker builds the entry anew in place, and every later call that
needs a pointer to the entry throws, the release of the tracker included. What keeps the
number is to take no tracker, or to unbind an entry that nobody tracked.
-/

namespace GeodeNative

open MapEntry

/-- An operation of a region on a key. -/
inductive RegionCall (V D : Type*)
  | get (call : LocalRegion.GetCall V)
  | update (action : UpdateAction) (call : UpdateCall V D)
  | putAll (call : LocalRegion.PutAllCall V D)

variable {updateCount : ℤ}

namespace MapSegment

variable {K V D M : Type*} [DecidableEq K]

/-- The tracking number of a key: zero without an entry. -/
def trackingNumber (s : MapSegment K V) (key : K) : ℤ :=
  match s.map.lookup key with
  | none => 0
  | some entry => entry.getTrackingNumber s.heap

def updateNumber (s : MapSegment K V) (key : K) : ℤ :=
  match s.map.lookup key with
  | none => 0
  | some entry => entry.getUpdateCount s.heap

/-- The states of a key that the operations lead to: no entry was ever wrapped. -/
def Known (s : MapSegment K V) (key : K) : Prop :=
  s.Free key ∨ s.Untracked key ∨ s.Spoiled key

section Slots

variable {region : Region K V D M} {s t : MapSegment K V} {k : K} {incUpdateCount : Bool}

lemma Free.trackingNumber (h : s.Free k) : s.trackingNumber k = 0 := by
  simp [MapSegment.trackingNumber, h.unbound]

lemma Untracked.trackingNumber (h : s.Untracked k) : s.trackingNumber k = 0 := by
  obtain ⟨_, hk, hp, -⟩ := h.bound
  simp [MapSegment.trackingNumber, hk, getTrackingNumber, hp.numTrackers_eq]

lemma Spoiled.getEntry (h : s.Spoiled k) : s.getEntry k = none := by
  obtain ⟨_, hk, hptr⟩ := h.getImplPtr
  simp [MapSegment.getEntry, hk, hptr]

lemma Spoiled.put_value (h : s.Spoiled k) (value : CacheValue V) (outs : OutParams V)
    (updateCount : ℤ) (versionTag : Option VersionTag) (delta : Option D) :
    s.put region k value outs updateCount 0 versionTag delta = ⟨.badWeakPtr, outs, s⟩ := by
  obtain ⟨_, hk, hptr⟩ := h.getImplPtr
  simp [MapSegment.put, hk, hptr]

/-! ## Taking a tracker -/

/-- The entry of the key has as many trackers as it can hold. -/
def TrackersFull (s : MapSegment K V) (key : K) : Prop :=
  s.trackingNumber key = 4

/-- The entry of the key has counted as many updates as it can. -/
def UpdatesFull (s : MapSegment K V) (key : K) : Prop :=
  s.updateNumber key = 8

/-- A tracker is taken on a free key, and the entry is spoiled. -/
lemma Free.addTracker (h : s.Free k) {failIfPresent : Bool} :
    let added := s.addTrackerForEntry k .null true failIfPresent incUpdateCount
    (∃ count, added.updateCount = some count ∧ 0 ≤ count) ∧ added.segment.Spoiled k ∧
      added.segment.trackingNumber k = 1 := by
  intro added
  have hspoiled := h.addTrackerForEntry failIfPresent incUpdateCount
  have hadded : added = _ := addTrackerForEntry_of_unbound h.disabled h.unbound .null _ _
  refine ⟨⟨_, by rw [hadded], by split <;> decide⟩, hspoiled, ?_⟩
  rw [hadded]
  simp [MapSegment.trackingNumber, bindNew, getTrackingNumber,
    trackedEntry, MapEntryImpl.placementNew]

lemma Untracked.addTracker (h : s.Untracked k) :
    let added := s.addTrackerForEntry k .null true false incUpdateCount
    (∃ count, added.updateCount = some count ∧ 0 ≤ count) ∧ added.segment.Spoiled k ∧
      added.segment.trackingNumber k = 1 := by
  intro added
  have hspoiled := h.addTrackerForEntry incUpdateCount
  obtain ⟨_, hk, hp, -⟩ := h.bound
  have hadded : added = _ := addTrackerForEntry_of_isPlain h.disabled hk hp .null true _
  refine ⟨⟨_, by rw [hadded], by split <;> decide⟩, hspoiled, ?_⟩
  rw [hadded]
  simp [MapSegment.trackingNumber, MapSegment.setImpl, hk, getTrackingNumber,
    trackedEntry, MapEntryImpl.placementNew]

/-- A tracking number that is not the largest goes up by one. -/
lemma numTrackers_add_one : ∀ n : Fin 5, n ≠ gfTrackMax → ((n + 1 : Fin 5) : ℤ) = (n : ℤ) + 1 := by
  decide

/-- A further tracker throws if there is no room for it; if there is no room for the update, it
throws after it was taken. -/
lemma Spoiled.addTracker (h : s.Spoiled k) :
    let added := s.addTrackerForEntry k .null true false incUpdateCount
    (s.TrackersFull k → added.updateCount = none ∧ added.segment = s) ∧
      (¬ s.TrackersFull k → added.segment.Spoiled k ∧
        added.segment.trackingNumber k = s.trackingNumber k + 1 ∧
        (incUpdateCount = true → s.UpdatesFull k → added.updateCount = none) ∧
        (¬ s.UpdatesFull k → ∃ count, added.updateCount = some count ∧ 0 ≤ count)) := by
  intro added
  have hspoiled : added.segment.Spoiled k := h.addTrackerForEntry
  obtain ⟨id, hk, hweak⟩ := h.bound
  have hadded : added = _ := addTrackerForEntry_of_bound h.disabled hk .null
  have hnumber : s.trackingNumber k = (s.heap id).numTrackers := by
    simp [MapSegment.trackingNumber, hk, getTrackingNumber]
  have hupdates : s.updateNumber k = (s.heap id).updateCount := by
    simp [updateNumber, hk, getUpdateCount]
  have hfull : s.TrackersFull k ↔ (s.heap id).numTrackers = gfTrackMax := by
    rw [TrackersFull, hnumber]
    generalize (s.heap id).numTrackers = n
    revert n
    decide
  have hcount : s.UpdatesFull k ↔ (s.heap id).updateCount = gfUpdateMax := by
    rw [UpdatesFull, hupdates]
    generalize (s.heap id).updateCount = u
    revert u
    decide
  rw [hfull, hcount]
  constructor
  · intro hmax
    rw [hadded]
    simp [trackEntry, MapEntry.addTracker, hmax, hweak]
  · intro hmax
    refine ⟨hspoiled, ?_⟩
    rw [hnumber, ← numTrackers_add_one _ hmax, hadded, trackEntry_of_room hmax]
    cases incUpdateCount with
    | false =>
      simp [MapSegment.trackingNumber, setImpl, hk, getTrackingNumber, MapEntryImpl.placementNew]
    | true =>
      by_cases hlast : (s.heap id).updateCount = gfUpdateMax
      · simp [hlast, MapSegment.trackingNumber, setImpl, hk, getTrackingNumber,
          MapEntryImpl.placementNew]
      · simp [hlast, MapSegment.trackingNumber, setImpl, hk, getTrackingNumber,
          MapEntryImpl.placementNew]

/-- One tracker more, and the entry is spoiled. -/
structure Taken (k : K) (s t : MapSegment K V) : Prop where
  spoiled : t.Spoiled k
  number : t.trackingNumber k = s.trackingNumber k + 1

/-! ## Calls without a tracker -/

/-- The key keeps its tracking number. -/
structure Kept (k : K) (s t : MapSegment K V) : Prop where
  known : t.Known k
  number : t.trackingNumber k = s.trackingNumber k

/-- What two updates keep, both together keep. -/
lemma Kept.trans {u : MapSegment K V} (h : Kept k s t) (h' : Kept k t u) : Kept k s u :=
  ⟨h'.known, h'.number.trans h.number⟩

/-- A key that nobody tracks is free or bound anew. -/
lemma kept_of_zero (hs : s.trackingNumber k = 0) (ht : t.Free k ∨ t.Untracked k) : Kept k s t := by
  rcases ht with ht | ht
  · exact ⟨.inl ht, by rw [ht.trackingNumber, hs]⟩
  · exact ⟨.inr (.inl ht), by rw [ht.trackingNumber, hs]⟩

variable (region) (newValue : NewValue V) (versionTag : Option VersionTag) (h : s.Known k)

include h

lemma Known.disabled : s.concurrencyChecksEnabled = false := by
  rcases h with h | h | h <;> exact h.disabled

/-- What `addTrackerForEntry` does, unless it is to fail on a bound key. -/
lemma Known.addTracker (failIfPresent : Bool)
    (hfail : failIfPresent = true → s.map.lookup k = none) (incUpdateCount : Bool) :
    let added := s.addTrackerForEntry k .null true failIfPresent incUpdateCount
    (s.TrackersFull k → added.updateCount = none ∧ added.segment = s) ∧
      (¬ s.TrackersFull k → Taken k s added.segment ∧
        (incUpdateCount = true → s.UpdatesFull k → added.updateCount = none) ∧
        (¬ s.UpdatesFull k → ∃ count, added.updateCount = some count ∧ 0 ≤ count)) := by
  have hbound : ∀ {entry}, s.map.lookup k = some entry → failIfPresent = false := by
    intro _ hk
    by_contra hne
    rw [hfail (by simpa using hne)] at hk
    cases hk
  rcases h with hfree | huntracked | hspoiled
  · obtain ⟨hcount, hspoiled, hnumber⟩ := hfree.addTracker
    refine ⟨fun hfull => ?_, fun _ => ⟨⟨hspoiled, ?_⟩, fun _ hfull => ?_, fun _ => hcount⟩⟩
    · rw [TrackersFull, hfree.trackingNumber] at hfull
      cases hfull
    · rw [hnumber, hfree.trackingNumber]
      rfl
    · simp [UpdatesFull, updateNumber, hfree.unbound] at hfull
  · obtain ⟨id, hk, hp, -⟩ := huntracked.bound
    obtain rfl := hbound hk
    obtain ⟨hcount, hspoiled, hnumber⟩ := huntracked.addTracker
    refine ⟨fun hfull => ?_, fun _ => ⟨⟨hspoiled, ?_⟩, fun _ hfull => ?_, fun _ => hcount⟩⟩
    · rw [TrackersFull, huntracked.trackingNumber] at hfull
      cases hfull
    · rw [hnumber, huntracked.trackingNumber]
      rfl
    · simp [UpdatesFull, updateNumber, hk, getUpdateCount, hp.updateCount_eq] at hfull
  · obtain ⟨_, hk, -⟩ := hspoiled.bound
    obtain rfl := hbound hk
    obtain ⟨hfull, hroom⟩ := hspoiled.addTracker
    exact ⟨hfull, fun hnot => ⟨⟨(hroom hnot).1, (hroom hnot).2.1⟩, (hroom hnot).2.2⟩⟩

lemma Known.kept : Kept k s s := ⟨h, rfl⟩

/-- An untracked put keeps the number. -/
lemma Known.put (hu : updateCount < 0) (delta : Option D) :
    Kept k s (s.put region k newValue.toCacheValue {} updateCount 0 versionTag delta).segment := by
  rcases h with hfree | huntracked | hspoiled
  · cases delta with
    | none =>
      exact kept_of_zero hfree.trackingNumber (.inr (hfree.put_untracked hu))
    | some =>
      rw [hfree.put_delta]
      exact Known.kept (.inl hfree)
  · exact kept_of_zero huntracked.trackingNumber (.inr (huntracked.put hu))
  · rw [hspoiled.put_value]
    exact Known.kept (.inr (.inr hspoiled))

lemma Known.create (hu : updateCount < 0) :
    Kept k s (s.create region k newValue.toCacheValue {} updateCount 0 versionTag).segment := by
  rcases h with hfree | huntracked | hspoiled
  · exact kept_of_zero hfree.trackingNumber (.inr (hfree.create_untracked hu))
  · exact kept_of_zero huntracked.trackingNumber (.inr (huntracked.create hu))
  · rw [hspoiled.create]
    exact Known.kept (.inr (.inr hspoiled))

lemma Known.invalidate : Kept k s (s.invalidate region k {} versionTag).segment := by
  rcases h with hfree | huntracked | hspoiled
  · rw [hfree.invalidate]
    exact Known.kept (.inl hfree)
  · exact kept_of_zero huntracked.trackingNumber (.inr huntracked.invalidate)
  · rw [hspoiled.invalidate]
    exact Known.kept (.inr (.inr hspoiled))

end Slots

end MapSegment

/-- Whether the local update of an action removes the entry without a look at its value. -/
def UpdateAction.unbinds : UpdateAction → Bool
  | destroy | removeEx => true
  | _ => false

namespace LocalRegion

open MapSegment

variable {K V D M : Type*} [DecidableEq K] {region : Region K V D M} {s : MapSegment K V} {k : K}
  {call : UpdateCall V D} {versionTag : Option VersionTag} {action : UpdateAction}
  {remoteOpDone afterRemote : Bool} {result : RegionResult K V}

lemma releaseAndReturn_untracked (hu : updateCount < 0) (err : RegionErr) :
    releaseAndReturn k updateCount err s = ⟨.returned err, s⟩ :=
  if_neg fun h => by have := h.1; omega

/-! ## Local updates that do not unbind -/

lemma putFullObject_kept (h : s.Known k) (hu : updateCount < 0) :
    Kept k s (putFullObject region k call updateCount versionTag s).segment :=
  h.put region _ _ hu none

/-- A destroy of a key unbinds it. -/
lemma destroyLocal_segment (afterRemote : Bool) (s : MapSegment K V) :
    (destroyLocal region k call updateCount versionTag afterRemote s).segment =
      if call.cachingEnabled then
        (s.remove region k {} updateCount versionTag afterRemote).segment else s := by
  unfold destroyLocal
  split
  · dsimp only
    split <;> rfl
  · rfl

/-- The second attempt with the full object keeps it. -/
lemma afterLocal_kept (hu : updateCount < 0) (hresult : Kept k s result.segment) :
    Kept k s (afterLocal region k call updateCount versionTag result).segment := by
  unfold afterLocal
  split
  · exact hresult
  · exact hresult
  · exact hresult
  · split
    · have hagain : Kept k s
          (putFullObject region k call updateCount versionTag result.segment).segment :=
        hresult.trans (putFullObject_kept hresult.known hu)
      dsimp only
      split <;> exact hagain
    · exact hresult
  · exact hresult

/-! ## What unbinds the key -/

section

variable (h : s.Known k)

include h

lemma invalidateLocal_kept : Kept k s (invalidateLocal region k call versionTag s).segment := by
  unfold invalidateLocal
  split
  · have hinvalidate := h.invalidate region versionTag
    dsimp only
    split <;> exact hinvalidate
  · exact h.kept

/-- A local destroy frees the slot. -/
lemma destroyLocal_free (hcaching : call.cachingEnabled = true) :
    (destroyLocal region k call updateCount versionTag afterRemote s).segment.Free k := by
  rw [destroyLocal_segment, if_pos hcaching]
  exact free_remove h.disabled

lemma destroyLocal_kept (hzero : s.trackingNumber k = 0) :
    Kept k s (destroyLocal region k call updateCount versionTag afterRemote s).segment := by
  by_cases hcaching : call.cachingEnabled = true
  · exact kept_of_zero hzero (.inl (destroyLocal_free h hcaching))
  · rw [destroyLocal_segment, if_neg hcaching]
    exact h.kept

section

variable (hu : updateCount < 0)

include hu

lemma putLocal_kept {isCreate : Bool} :
    Kept k s (putLocal region isCreate k call updateCount versionTag s).segment := by
  unfold putLocal
  split
  · cases isCreate with
    | true => exact h.create region _ _ hu
    | false =>
      have hput := h.put region call.value versionTag hu call.delta
      simp only [Bool.false_eq_true, if_false]
      split
      · unfold refetch
        split
        · exact hput.trans (putFullObject_kept hput.known hu)
        · exact hput
      · exact hput
  · exact h.kept

/-- A remove with a value reads the entry first, so that it does not unbind a spoiled one. -/
lemma removeLocal_kept :
    Kept k s (removeLocal region k call updateCount versionTag afterRemote s).segment := by
  unfold removeLocal
  split
  · cases hfound : s.getEntry k with
    | none => exact h.kept
    | some =>
      have hzero : s.trackingNumber k = 0 := by
        rcases h with hfree | huntracked | hspoiled
        · exact hfree.trackingNumber
        · exact huntracked.trackingNumber
        · rw [hspoiled.getEntry] at hfound
          cases hfound
      have hdestroy : Kept k s
          (destroyLocal region k call updateCount versionTag afterRemote s).segment :=
        destroyLocal_kept h hzero
      dsimp only
      split
      · split
        · exact h.kept
        · exact h.kept
        · exact hdestroy
      · split
        · rw [releaseAndReturn_untracked hu]
          exact h.kept
        · split
          · exact h.kept
          · exact hdestroy
  · rename_i hcaching
    rw [destroyLocal_segment, if_neg hcaching]
    exact h.kept

/-- Every update that does not unbind. -/
lemma localUpdate_kept (haction : action.unbinds = false) :
    Kept k s (localUpdate region action k call updateCount versionTag afterRemote s).segment := by
  cases action with
  | put | create => exact putLocal_kept h hu
  | destroy | removeEx => cases haction
  | remove => exact removeLocal_kept h hu
  | invalidate => exact invalidateLocal_kept h

/-- What the template stores without a tracker keeps the tracking number, unless it unbinds the
key. -/
lemma store_kept (hunbinds : action.unbinds = true → call.cachingEnabled = true →
      call.isNotification = true ∧ call.processedMarker = false) :
    Kept k s (store region action k call updateCount versionTag remoteOpDone s).segment := by
  unfold store
  split
  · rename_i hmarker
    refine afterLocal_kept hu ?_
    by_cases hcaching : call.cachingEnabled = true
    · have haction : action.unbinds = false := by
        by_contra hne
        obtain ⟨hnotification, hno⟩ := hunbinds (by simpa using hne) hcaching
        simp [hnotification, hno] at hmarker
      exact localUpdate_kept h hu haction
    · have hsame :
          (localUpdate region action k call updateCount versionTag remoteOpDone s).segment =
          s := by
        cases action <;>
          simp [localUpdate, putLocal, destroyLocal, removeLocal, invalidateLocal, hcaching]
      rw [hsame]
      exact h.kept
  · split
    · rw [releaseAndReturn_untracked hu]
      exact h.kept
    · exact h.kept

end

lemma destroyLocal_ending_ne :
    (destroyLocal region k call updateCount versionTag afterRemote s).ending
      ≠ .returned (.segment .invalidDelta) := by
  have hremove : (s.remove region k {} updateCount versionTag afterRemote).outcome
      ≠ .returned .invalidDelta := by
    unfold MapSegment.remove
    rw [if_neg (by simp [h.disabled])]
    split
    · simp
    · dsimp only
      split
      · simp
      · split
        · simp
        · split <;> simp
  unfold destroyLocal
  split
  · dsimp only
    split
    · simp
    · cases houtcome : (s.remove region k {} updateCount versionTag afterRemote).outcome with
      | badWeakPtr => simp [RegionEnd.ofOutcome]
      | returned =>
        rw [houtcome] at hremove
        simpa [RegionEnd.ofOutcome] using hremove
  · simp

/-- A destroy, or a remove without a value, frees the key. -/
lemma store_free (haction : action.unbinds = true) (hcaching : call.cachingEnabled = true)
    (hmarker : call.isNotification = false ∨ call.processedMarker = true) :
    (store region action k call updateCount versionTag remoteOpDone s).segment.Free k := by
  have hlocal : localUpdate region action k call updateCount versionTag remoteOpDone s
      = destroyLocal region k call updateCount versionTag remoteOpDone s := by
    cases action with
    | destroy | removeEx => rfl
    | _ => cases haction
  unfold store afterLocal
  rw [if_pos hmarker, hlocal]
  -- only an invalid delta makes the template store again
  split
  · exact destroyLocal_free h hcaching
  · exact destroyLocal_free h hcaching
  · exact destroyLocal_free h hcaching
  · exact absurd ‹_› (destroyLocal_ending_ne h)
  · exact destroyLocal_free h hcaching

end

/-! ## Spoiled entries -/

/-- Every other local update throws at a spoiled entry. -/
lemma localUpdate_spoiled (h : s.Spoiled k) (hcaching : call.cachingEnabled = true)
    (haction : action.unbinds = false) (afterRemote : Bool) :
    localUpdate region action k call updateCount versionTag afterRemote s = ⟨.thrown, s⟩ := by
  cases action with
  | put =>
    simp [localUpdate, putLocal, hcaching, h.put_value, RegionEnd.ofOutcome]
  | create =>
    simp only [localUpdate, putLocal, hcaching]
    rw [h.create]
    rfl
  | destroy | removeEx => cases haction
  | remove => simp [localUpdate, removeLocal, hcaching, h.getEntry]
  | invalidate =>
    simp [localUpdate, invalidateLocal, hcaching, h.invalidate, RegionEnd.ofOutcome]

/-- An update of a spoiled slot throws and changes nothing. -/
lemma store_spoiled (h : s.Spoiled k) (hcaching : call.cachingEnabled = true)
    (hnotification : call.isNotification = false) (haction : action.unbinds = false) :
    (store region action k call updateCount versionTag remoteOpDone s).segment = s := by
  unfold store
  rw [if_pos (.inl hnotification), localUpdate_spoiled h hcaching haction]
  rfl

/-- Once the entry is tracked, the operation leaves it spoiled, unless it unbinds it. -/
lemma send_spoiled (h : s.Spoiled k) (hcaching : call.cachingEnabled = true)
    (hnotification : call.isNotification = false) (action : UpdateAction) (updateCount : ℤ) :
    (action.unbinds = true ∧ (∃ versionTag, call.remote = .succeeds versionTag) →
      (send region action k call updateCount s).segment.Free k) ∧
    (¬ (action.unbinds = true ∧ ∃ versionTag, call.remote = .succeeds versionTag) →
      (send region action k call updateCount s).segment = s) := by
  constructor
  · rintro ⟨haction, versionTag, hremote⟩
    have hsend : remoteUpdate action k call s = .succeeds versionTag := by
      rw [← hremote]
      exact if_neg fun hremove => by rw [hremove.1] at haction; cases haction
    unfold send
    rw [hsend]
    exact store_free (.inr (.inr h)) haction hcaching (.inl hnotification)
  · intro hnot
    unfold send
    split
    · rfl
    · unfold releaseAndReturn
      split
      · simp [h.removeTrackerForEntry]
      · rfl
    · rename_i versionTag hsend
      cases haction : action.unbinds with
      | false => exact store_spoiled h hcaching hnotification haction
      | true =>
        refine absurd ⟨haction, versionTag, ?_⟩ hnot
        rw [← hsend]
        exact (if_neg fun hremove => by rw [hremove.1] at haction; cases haction).symm

/-! ## The operations -/

section Operations

variable {t : MapSegment K V}

section

variable (action : UpdateAction) (key : K) (call : UpdateCall V D) (s : MapSegment K V)

/-- The operation tracks the entry of its key. -/
def Tracks : Prop :=
  checkArgs action call = true ∧ call.destroyPending = false ∧ call.inTransaction = false ∧
    askWriter action key call s = none ∧ call.isLocal = false ∧ call.isNotification = false ∧
    call.cachingEnabled = true

/-- The operation updates the map without a server: it is local, or a notification that the
region may process. -/
def StoresDirectly : Prop :=
  checkArgs action call = true ∧ call.destroyPending = false ∧ call.inTransaction = false ∧
    askWriter action key call s = none ∧ (call.isLocal = true ∨ call.isNotification = true) ∧
    (call.isNotification = false ∨ call.processedMarker = true) ∧ call.cachingEnabled = true

/-- The operation takes a tracker: the entry has room for one, and a create finds none. -/
def Takes : Prop :=
  Tracks action key call s ∧ ¬ s.TrackersFull key ∧ (action = .create → s.map.lookup key = none)

/-- The operation unbinds the key, whatever is tracked. -/
def Unbinds : Prop :=
  action.unbinds = true ∧ (StoresDirectly action key call s ∨
    Tracks action key call s ∧ ¬ s.TrackersFull key ∧ ¬ s.UpdatesFull key ∧
      ∃ versionTag, call.remote = .succeeds versionTag)

end

/-- What an operation does to the tracking number of its key. -/
inductive Effect (k : K) (s t : MapSegment K V) (unbinds takes : Prop) : Prop
  | unbound (hunbinds : unbinds) (h : t.Free k)
  | taken (hunbinds : ¬ unbinds) (htakes : takes) (h : Taken k s t)
  | kept (hunbinds : ¬ unbinds) (htakes : ¬ takes) (h : Kept k s t)

lemma Effect.known {unbinds takes : Prop} (h : Effect k s t unbinds takes) : t.Known k := by
  cases h with
  | unbound _ h => exact .inl h
  | taken _ _ h => exact .inr (.inr h.spoiled)
  | kept _ _ h => exact h.known

/-- The number is kept when nothing is taken and nothing is lost. -/
lemma Effect.number_eq_iff {unbinds takes : Prop} (h : Effect k s t unbinds takes) :
    t.trackingNumber k = s.trackingNumber k ↔
      (unbinds → s.trackingNumber k = 0) ∧ (¬ unbinds → ¬ takes) := by
  cases h with
  | unbound hunbinds h =>
    rw [h.trackingNumber]
    exact ⟨fun heq => ⟨fun _ => heq.symm, fun hnot => absurd hunbinds hnot⟩,
      fun heq => (heq.1 hunbinds).symm⟩
  | taken hunbinds htakes h =>
    have hne : t.trackingNumber k ≠ s.trackingNumber k := by
      rw [h.number]
      omega
    exact ⟨fun heq => absurd heq hne, fun heq => absurd htakes (heq.2 hunbinds)⟩
  | kept hunbinds htakes h =>
    exact ⟨fun _ => ⟨fun hyes => absurd hyes hunbinds, fun _ => htakes⟩, fun _ => h.number⟩

/-- What is sent without a tracker keeps the tracking number, if it does not unbind. -/
lemma send_kept (h : s.Known k) (hu : updateCount < 0)
    (hstays : action.unbinds = false ∨ call.cachingEnabled = false) :
    Kept k s (send region action k call updateCount s).segment := by
  unfold send
  split
  · exact h.kept
  · rw [releaseAndReturn_untracked hu]
    exact h.kept
  · refine store_kept h hu (fun haction hcaching => ?_)
    rw [haction, hcaching] at hstays
    simp at hstays

/-- A create of a bound key fails or goes on without a tracker. -/
lemma trackAndSend_create (h : s.Known k) {id : ObjId} (hk : s.map.lookup k = some (.impl id)) :
    Kept k s (trackAndSend region .create k call (-1) s).segment := by
  unfold trackAndSend
  split
  · rw [decide_eq_true rfl, addTrackerForEntry_of_failIfPresent h.disabled hk]
    dsimp only
    split
    · exact h.kept
    · exact send_kept h (by decide) (.inl rfl)
  · exact send_kept h (by decide) (.inl rfl)

variable (region) in
lemma trackAndSend_effect (h : s.Known k) (hcaching : call.cachingEnabled = true)
    (hnotification : call.isNotification = false) (action : UpdateAction) :
    Effect k s (trackAndSend region action k call (-1) s).segment
      (action.unbinds = true ∧ ¬ s.TrackersFull k ∧ ¬ s.UpdatesFull k ∧
        ∃ versionTag, call.remote = .succeeds versionTag)
      (¬ s.TrackersFull k ∧ (action = .create → s.map.lookup k = none)) := by
  by_cases hcreate : action = .create → s.map.lookup k = none
  · obtain ⟨hfull, hroom⟩ := h.addTracker (decide (action = .create)) (by simpa using hcreate) true
    have hcond : call.cachingEnabled = true ∧ (-1 : ℤ) < 0 ∧
        s.concurrencyChecksEnabled = false := ⟨hcaching, by decide, h.disabled⟩
    unfold trackAndSend
    rw [if_pos hcond]
    dsimp only
    by_cases hmax : s.TrackersFull k
    · refine .kept (fun hyes => hyes.2.1 hmax) (fun hyes => hyes.1 hmax) ?_
      rw [(hfull hmax).1, (hfull hmax).2]
      exact h.kept
    · obtain ⟨htaken, hthrows, hcounts⟩ := hroom hmax
      by_cases hlast : s.UpdatesFull k
      · refine .taken (fun hyes => hyes.2.2.1 hlast) ⟨hmax, hcreate⟩ ?_
        rw [hthrows rfl hlast]
        exact htaken
      · obtain ⟨count, hcount, _⟩ := hcounts hlast
        have hnot : ¬ (count < 0 ∧ (s.addTrackerForEntry k .null true (decide (action = .create))
            true).oldValue.isNull = false) := fun hneg => by have := hneg.1; omega
        rw [hcount]
        dsimp only
        rw [if_neg hnot]
        obtain ⟨hfree, hsame⟩ := send_spoiled htaken.spoiled hcaching hnotification action count
        by_cases hsucceeds : action.unbinds = true ∧
          ∃ versionTag, call.remote = .succeeds versionTag
        · exact .unbound ⟨hsucceeds.1, hmax, hlast, hsucceeds.2⟩ (hfree hsucceeds)
        · refine .taken (fun hyes => hsucceeds ⟨hyes.1, hyes.2.2.2⟩) ⟨hmax, hcreate⟩ ?_
          rw [hsame hsucceeds]
          exact htaken
  · obtain ⟨rfl, hbound⟩ : action = .create ∧ s.map.lookup k ≠ none := by
      simpa using hcreate
    refine .kept (fun hyes => by cases hyes.1) (fun hyes => hcreate hyes.2) ?_
    obtain ⟨id, hk⟩ : ∃ id, s.map.lookup k = some (.impl id) := by
      rcases h with hfree | huntracked | hspoiled
      · exact absurd hfree.unbound hbound
      · exact ⟨_, huntracked.bound.choose_spec.1⟩
      · exact ⟨_, hspoiled.bound.choose_spec.1⟩
    exact trackAndSend_create h hk

/-- By the checks that an update makes, one after the other. -/
lemma updateNoThrow_effect (h : s.Known k) (action : UpdateAction) (call : UpdateCall V D) :
    Effect k s (updateNoThrow region action k call (-1) s).segment (Unbinds action k call s)
      (Takes action k call s) := by
  have hkept : ¬ Tracks action k call s → ¬ StoresDirectly action k call s →
      ∀ {t}, Kept k s t → Effect k s t (Unbinds action k call s) (Takes action k call s) := by
    intro htracks hstores _ ht
    refine .kept ?_ (fun htakes => htracks htakes.1) ht
    rintro ⟨-, hyes | hyes⟩
    · exact hstores hyes
    · exact htracks hyes.1
  unfold updateNoThrow
  by_cases hargs : checkArgs action call = false
  · rw [if_pos hargs]
    exact hkept (by simp [Tracks, hargs]) (by simp [StoresDirectly, hargs]) h.kept
  rw [if_neg hargs]
  by_cases hdestroy : call.destroyPending = true
  · rw [if_pos hdestroy]
    exact hkept (by simp [Tracks, hdestroy]) (by simp [StoresDirectly, hdestroy]) h.kept
  rw [if_neg hdestroy]
  by_cases htx : call.inTransaction = true
  · rw [if_pos htx]
    have hresult : (updateInTransaction action k call s).segment = s := by
      unfold updateInTransaction
      split
      · rfl
      · split <;> rfl
    rw [hresult]
    exact hkept (by simp [Tracks, htx]) (by simp [StoresDirectly, htx]) h.kept
  rw [if_neg htx]
  cases hwriter : askWriter action k call s with
  | some =>
    exact hkept (by simp [Tracks, hwriter]) (by simp [StoresDirectly, hwriter]) h.kept
  | none =>
    simp only [Bool.not_eq_true, Bool.not_eq_false] at hargs hdestroy htx
    by_cases hremote : call.isLocal = false ∧ call.isNotification = false
    · rw [if_pos hremote]
      have hstores : ¬ StoresDirectly action k call s := by
        simp [StoresDirectly, hremote.1, hremote.2]
      by_cases hcaching : call.cachingEnabled = true
      · have htracks : Tracks action k call s :=
          ⟨hargs, hdestroy, htx, hwriter, hremote.1, hremote.2, hcaching⟩
        have heffect := trackAndSend_effect region h hcaching hremote.2 action
        simpa [Unbinds, Takes, hstores, htracks] using heffect
      · refine hkept (by simp [Tracks, hcaching]) hstores ?_
        unfold trackAndSend
        rw [if_neg (by simp [hcaching])]
        exact send_kept h (by decide) (.inr (by simpa using hcaching))
    · rw [if_neg hremote]
      have htracks : ¬ Tracks action k call s := fun htracks =>
        hremote ⟨htracks.2.2.2.2.1, htracks.2.2.2.2.2.1⟩
      have hlocal : call.isLocal = true ∨ call.isNotification = true := by
        by_contra hnot
        exact hremote (by simpa using hnot)
      by_cases hunbinds : Unbinds action k call s
      · obtain ⟨haction, hstores | hyes⟩ := hunbinds
        · exact .unbound ⟨haction, .inl hstores⟩ (store_free h haction
            hstores.2.2.2.2.2.2 hstores.2.2.2.2.2.1)
        · exact absurd hyes.1 htracks
      · refine .kept hunbinds (fun htakes => htracks htakes.1) ?_
        refine store_kept h (by decide) ?_
        intro haction hcaching
        by_contra hnot
        refine hunbinds ⟨haction, .inl ⟨hargs, hdestroy, htx, hwriter, hlocal, ?_, hcaching⟩⟩
        cases hnotification : call.isNotification with
        | false => exact .inl rfl
        | true => exact .inr (by simpa [hnotification] using hnot)

end Operations

/-! ### Get -/

section Get

variable {call : GetCall V} {localValue : CacheValue V}

/-- The lookup of `getNoThrow` finds no value. -/
def Misses (s : MapSegment K V) (key : K) : Prop :=
  ∃ found, s.getEntry key = some found ∧
    ((valueOf found).isNull = true ∨ (valueOf found).isInvalid = true)

def GetTracks (key : K) (call : GetCall V) (s : MapSegment K V) : Prop :=
  call.destroyPending = false ∧ call.inTransaction = false ∧ call.cachingEnabled = true ∧
    Misses s key

/-- What `getNoThrow` fetches changes the segment only where it is stored. -/
lemma fetch_segment (hstore : ∀ value err versionTag,
      (storeGotten region k call updateCount localValue value err versionTag s).segment = s) :
    (fetch region k call updateCount localValue s).segment = s := by
  unfold fetch
  split
  · rfl
  · split
    · split
      · exact hstore _ _ _
      · rfl
      · split
        · exact hstore _ _ _
        · rfl
    · exact hstore _ _ _

/-- The destructor throws at a spoiled entry. -/
lemma removeTracking_spoiled (h : result.segment.Spoiled k)
    (updateCount : ℤ) : (removeTracking k updateCount result).segment = result.segment := by
  unfold removeTracking
  split
  · simp [h.removeTrackerForEntry]
  · rfl

/-- A get takes a tracker when it misses the cache. -/
lemma getNoThrow_effect (h : s.Known k) (call : GetCall V) :
    Effect k s (getNoThrow region k call s).segment False (GetTracks k call s) := by
  have hkept : ¬ GetTracks k call s → ∀ ending : RegionEnd,
      Effect k s (⟨ending, s⟩ : RegionResult K V).segment False (GetTracks k call s) :=
    fun htracks _ => .kept id htracks h.kept
  unfold getNoThrow
  by_cases hdestroy : call.destroyPending = true
  · rw [if_pos hdestroy]
    exact hkept (by simp [GetTracks, hdestroy]) _
  rw [if_neg hdestroy]
  by_cases htx : call.inTransaction = true
  · have htracks : ¬ GetTracks k call s := by simp [GetTracks, htx]
    rw [if_pos htx]
    split
    · exact hkept htracks _
    · split <;> exact hkept htracks _
  rw [if_neg htx]
  by_cases hcaching : call.cachingEnabled = true
  · rw [if_pos hcaching]
    cases hfound : s.getEntry k with
    | none => exact hkept (fun htracks => by simp [GetTracks, Misses, hfound] at htracks) _
    | some found =>
      dsimp only
      by_cases hhit : (valueOf found).isNull = false ∧ (valueOf found).isInvalid = false
      · rw [if_pos hhit]
        refine hkept ?_ _
        rintro ⟨-, -, -, _, hfound', hmiss⟩
        rw [hfound] at hfound'
        cases hfound'
        simp [hhit.1, hhit.2] at hmiss
      · rw [if_neg hhit, if_neg (by simp [h.disabled])]
        have htracks : GetTracks k call s := by
          refine ⟨by simpa using hdestroy, by simpa using htx, hcaching, found, hfound, ?_⟩
          by_contra hnot
          exact hhit (by simpa using hnot)
        -- a key that can be read has no tracker yet
        obtain ⟨⟨count, hcount, -⟩, hspoiled, hnumber⟩ :
            let added := s.addTrackerForEntry k .null true false false
            (∃ count, added.updateCount = some count ∧ 0 ≤ count) ∧ added.segment.Spoiled k ∧
              added.segment.trackingNumber k = s.trackingNumber k + 1 := by
          rcases h with hfree | huntracked | hspoiled
          · rw [hfree.trackingNumber]
            exact hfree.addTracker
          · rw [huntracked.trackingNumber]
            exact huntracked.addTracker
          · rw [hspoiled.getEntry] at hfound
            cases hfound
        rw [hcount]
        refine .taken id htracks ?_
        have hfetch : (fetch region k call count (valueOf found)
            (s.addTrackerForEntry k .null true false false).segment).segment =
              (s.addTrackerForEntry k .null true false false).segment := by
          refine fetch_segment fun value err versionTag => ?_
          unfold storeGotten
          split
          · simp [hspoiled.put_value]
          · rfl
        rw [removeTracking_spoiled (by rw [hfetch]; exact hspoiled), hfetch]
        exact ⟨hspoiled, hnumber⟩
  · rw [if_neg hcaching]
    refine .kept id (by simp [GetTracks, hcaching]) ?_
    rw [fetch_segment fun value err versionTag => by simp [storeGotten, hcaching]]
    exact h.kept

end Get

/-! ### Put all -/

/-- The call tracks the entry of the key, and the entry has room for a tracker. -/
def PutAllTakes (key : K) (call : PutAllCall V D) (s : MapSegment K V) : Prop :=
  call.destroyPending = false ∧ call.inTransaction = false ∧ call.cachingEnabled = true ∧
    call.reached = true ∧ ¬ s.TrackersFull key

/-- A local put throws at a spoiled entry, if it comes to it. -/
lemma updateNoThrow_put_spoiled (h : s.Spoiled k)
    (hlocal : call.isLocal = true) (hnotification : call.isNotification = false) :
    (updateNoThrow region .put k call updateCount s).segment = s := by
  have htx : (updateInTransaction .put k call s).segment = s := by
    simp [updateInTransaction, hlocal]
  have hstore : (store region .put k call updateCount call.versionTag false s).segment = s := by
    by_cases hcaching : call.cachingEnabled = true
    · exact store_spoiled h hcaching hnotification rfl
    · simp [store, hnotification, localUpdate, putLocal, hcaching, afterLocal, callListener]
  unfold updateNoThrow
  split
  · rfl
  · split
    · rfl
    · split
      · exact htx
      · split
        · rfl
        · rw [if_neg (by simp [hlocal])]
          exact hstore

variable (region) in
lemma sendAll_spoiled (h : s.Spoiled k) (call : PutAllCall V D) (updateCount : ℤ) :
    (sendAll region k call updateCount s).segment = s := by
  unfold sendAll
  split
  · exact updateNoThrow_put_spoiled h rfl rfl
  · rfl

lemma putAllNoThrow_effect (h : s.Known k) (call : PutAllCall V D) :
    Effect k s (putAllNoThrow region k call s).segment False (PutAllTakes k call s) := by
  unfold putAllNoThrow
  by_cases hdestroy : call.destroyPending = true
  · rw [if_pos hdestroy]
    exact .kept id (by simp [PutAllTakes, hdestroy]) h.kept
  rw [if_neg hdestroy]
  by_cases htracks : call.inTransaction = false ∧ call.cachingEnabled = true ∧
      s.concurrencyChecksEnabled = false ∧ call.reached = true
  · rw [if_pos htracks]
    obtain ⟨hfull, hroom⟩ := h.addTracker false (by simp) true
    dsimp only
    by_cases hmax : s.TrackersFull k
    · refine .kept id (fun htakes => htakes.2.2.2.2 hmax) ?_
      rw [(hfull hmax).1, (hfull hmax).2]
      exact h.kept
    · obtain ⟨htaken, hthrows, hcounts⟩ := hroom hmax
      refine .taken id ⟨by simpa using hdestroy, htracks.1, htracks.2.1, htracks.2.2.2, hmax⟩ ?_
      by_cases hlast : s.UpdatesFull k
      · rw [hthrows rfl hlast]
        exact htaken
      · obtain ⟨count, hcount, -⟩ := hcounts hlast
        rw [hcount]
        dsimp only
        have hsent := sendAll_spoiled region htaken.spoiled call count
        split
        · rw [removeTracking_spoiled (by rw [hsent]; exact htaken.spoiled), hsent]
          exact htaken
        · rw [hsent]
          exact htaken
  · rw [if_neg htracks]
    refine .kept id (fun htakes => htracks ?_) h.kept
    exact ⟨htakes.2.1, htakes.2.2.1, h.disabled, htakes.2.2.2.1⟩

end LocalRegion

/-! ## The main result -/

/-- A segment, with concurrency checks off, as the operations of the region leave the slot of a
key. -/
structure LocalSlot (K V : Type*) [DecidableEq K] (key : K) where
  segment : MapSegment K V
  known : segment.Known key

namespace RegionCall

variable {K V D M : Type*} [DecidableEq K] (region : Region K V D M) {key : K}

/-- Runs an operation alone. -/
def run (call : RegionCall V D) (s : MapSegment K V) (key : K) : RegionResult K V :=
  match call with
  | .get call => LocalRegion.getNoThrow region key call s
  | .update action call => LocalRegion.updateNoThrow region action key call (-1) s
  | .putAll call => LocalRegion.putAllNoThrow region key call s

def Unbinds (call : RegionCall V D) (s : MapSegment K V) (key : K) : Prop :=
  match call with
  | .update action call => LocalRegion.Unbinds action key call s
  | _ => False

/-- The operation takes a tracker. -/
def Takes (call : RegionCall V D) (s : MapSegment K V) (key : K) : Prop :=
  match call with
  | .get call => LocalRegion.GetTracks key call s
  | .update action call => LocalRegion.Takes action key call s
  | .putAll call => LocalRegion.PutAllTakes key call s

lemma effect {s : MapSegment K V} (h : s.Known key) {call : RegionCall V D} :
    LocalRegion.Effect key s (call.run region s key).segment (call.Unbinds s key)
      (call.Takes s key) := by
  cases call with
  | get call => exact LocalRegion.getNoThrow_effect h call
  | update action call => exact LocalRegion.updateNoThrow_effect h action call
  | putAll call => exact LocalRegion.putAllNoThrow_effect h call

def after (slot : LocalSlot K V key) (call : RegionCall V D) : LocalSlot K V key where
  segment := (call.run region slot.segment key).segment
  known := (effect region slot.known).known

/-- The tracking number of the key is after the operation what it was before. -/
def Balanced (slot : LocalSlot K V key) (call : RegionCall V D) : Prop :=
  (after region slot call).segment.trackingNumber key = slot.segment.trackingNumber key

/-- **Trackers are not released.** An operation leaves the tracking number of its key as it was
exactly if it unbinds an entry without trackers, or unbinds none and takes no tracker. -/
theorem balanced_iff (slot : LocalSlot K V key) (call : RegionCall V D) :
    Balanced region slot call ↔
      (call.Unbinds slot.segment key → slot.segment.trackingNumber key = 0) ∧
        (¬ call.Unbinds slot.segment key → ¬ call.Takes slot.segment key) :=
  (effect region slot.known).number_eq_iff

/-- A put and an invalidate of an unknown key, both accepted by the server, leave a tracker. -/
theorem not_balanced : let region : Region Unit ℕ Unit Unit :=
      ⟨⟨fun _ => none, fun _ _ => 0⟩, false, fun v _ => (v, true), fun _ => none⟩
    let slot : LocalSlot Unit ℕ () :=
      ⟨.empty false 0 (fun _ => .create ()) fun _ => ⟨0, false⟩, .inl ⟨rfl, rfl⟩⟩
    let call (value : NewValue ℕ) : UpdateCall ℕ Unit :=
      { value := value, delta := none, versionTag := none, isLocal := false,
        isNotification := false, invokeCacheWriter := true, isNoCallbacks := false,
        destroyPending := false, inTransaction := false, isLocalRegion := false,
        cachingEnabled := true, processedMarker := true, writer := none,
        remote := .succeeds none, serializedEqualTo := fun _ => none,
        fullObject := (.segment .noErr, .null, none), listener := .segment .noErr }
    ¬ Balanced region slot (.update .put (call (.object 1))) ∧
      ¬ Balanced region slot (.update .invalidate (call .null)) := by
  unfold Balanced
  decide

end RegionCall

end GeodeNative
