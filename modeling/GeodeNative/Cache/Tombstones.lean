import GeodeNative.Library.Runs
import GeodeNative.Cache.SegmentSpec

/-!
# The tombstone list of a segment

With concurrency checks enabled a removed entry stays in the map as a tombstone, and
the segment lists its tombstones so that they can expire or be collected. The list
and the map are two containers, and every operation has to keep them in step.

`TombInv` says that they are. Every operation touches one key: it opens the
invariant at that key (`InvExcept`), changes the entry or the listing of the key, and
closes it again. The one operation that does not is `clear`, which empties the map
and leaves the list; a run keeps the invariant exactly when it clears the segment
only while no tombstone is listed.
-/

namespace GeodeNative

open MapSegment AList

open Function

open MapSegment

/-- A value that a region passes to a segment: no region passes a token other than the
invalid one. -/
inductive NewValue (V : Type*)
  | null
  | invalid
  | object (v : V)
  deriving DecidableEq, Repr

def NewValue.toCacheValue {V : Type*} : NewValue V → CacheValue V
  | null => .null
  | invalid => .invalid
  | object v => .object v

lemma NewValue.toCacheValue_ne_tombstone {V : Type*} (value : NewValue V) :
    value.toCacheValue ≠ .tombstone := by
  cases value <;> simp [toCacheValue]

/-- The calls that a segment with concurrency checks serves. `expire` is the expiry task of
one of the tombstones made so far. -/
inductive SegmentCall (K V D : Type*)
  | create (key : K) (newValue : NewValue V) (updateCount destroyTracker : ℤ)
      (versionTag : Option VersionTag)
  | put (key : K) (newValue : NewValue V) (updateCount destroyTracker : ℤ)
      (versionTag : Option VersionTag) (delta : Option D)
  | invalidate (key : K) (versionTag : Option VersionTag)
  | remove (key : K) (updateCount : ℤ) (versionTag : Option VersionTag) (afterRemote : Bool)
  | clear
  | reapVersions (gcVersions : AList (fun _ : BitVec 16 => ℤ))
  | reapKeys (removedKeys : List K)
  | expire (tomb : TombId)

namespace MapSegment

variable {K V D M : Type*} [DecidableEq K] {s : MapSegment K V} {region : Region K V D M}
  {tomb : TombId} {k : K}

def step (region : Region K V D M) (s : MapSegment K V) : SegmentCall K V D → MapSegment K V
  | .create key newValue updateCount destroyTracker versionTag =>
    (s.create region key newValue.toCacheValue {} updateCount destroyTracker versionTag).segment
  | .put key newValue updateCount destroyTracker versionTag delta =>
    (s.put region key newValue.toCacheValue {} updateCount destroyTracker versionTag delta).segment
  | .invalidate key versionTag => (s.invalidate region key {} versionTag).segment
  | .remove key updateCount versionTag afterRemote =>
    (s.remove region key {} updateCount versionTag afterRemote).segment
  | .clear => s.clear
  | .reapVersions gcVersions => s.reapVersions gcVersions
  | .reapKeys removedKeys => s.reapKeys removedKeys
  | .expire tomb => if tomb < s.nextTomb then s.removeTombEntry tomb else s

/-- The key is bound to a tombstone. -/
def HoldsTombstone (s : MapSegment K V) (k : K) : Prop :=
  ∃ entry, s.entryAt k = some entry ∧ entry.value = .tombstone

/-- The tombstone list is in step with the map: the listed keys are those bound to a
tombstone, and a listed `TombstoneEntry` refers to the entry that its key is bound to. -/
structure Bookkept (s : MapSegment K V) : Prop where
  listed_iff : ∀ k, k ∈ s.tombstones ↔ s.HoldsTombstone k
  refers : ∀ k tomb, s.tombstones.lookup k = some tomb →
    s.map.lookup k = some (.impl (s.tombHeap tomb).entry)

/-- The bookkeeping of a segment with concurrency checks, with what the expiry tasks rest on:
a `TombstoneEntry` that still counts is listed. -/
structure TombInv (s : MapSegment K V) : Prop extends Bookkept s where
  enabled : s.concurrencyChecksEnabled = true
  plain : s.Plain
  listed_lt : ∀ k tomb, s.tombstones.lookup k = some tomb → tomb < s.nextTomb
  valid_listed : ∀ tomb < s.nextTomb, (s.tombHeap tomb).valid = true →
    ∃ k, s.tombstones.lookup k = some tomb

/-- The bookkeeping of all keys but one, which is off the list. -/
structure InvExcept (k : K) (s : MapSegment K V) : Prop where
  enabled : s.concurrencyChecksEnabled = true
  plain : s.Plain
  not_listed : k ∉ s.tombstones
  listed_iff : ∀ k', k' ≠ k → (k' ∈ s.tombstones ↔ s.HoldsTombstone k')
  refers : ∀ k' tomb, s.tombstones.lookup k' = some tomb →
    s.map.lookup k' = some (.impl (s.tombHeap tomb).entry)
  listed_lt : ∀ k' tomb, s.tombstones.lookup k' = some tomb → tomb < s.nextTomb
  valid_listed : ∀ tomb < s.nextTomb, (s.tombHeap tomb).valid = true →
    ∃ k', s.tombstones.lookup k' = some tomb

section Invariant

variable {id : ObjId} {entry : MapEntryImpl K V} {t : MapSegment K V}

/-! ## Opening and closing the invariant at a key -/

lemma holdsTombstone_iff_of_lookup (hk : s.map.lookup k = some (.impl id)) :
    s.HoldsTombstone k ↔ (s.heap id).value = .tombstone := by
  unfold HoldsTombstone
  rw [entryAt_of_lookup hk]
  simp

lemma not_holdsTombstone_of_unbound (hk : s.map.lookup k = none) : ¬ s.HoldsTombstone k := by
  rintro ⟨_, he, -⟩
  rw [entryAt_eq_none_iff.mpr hk] at he
  cases he

lemma holdsTombstone_congr (h : t.entryAt k = s.entryAt k) :
    t.HoldsTombstone k ↔ s.HoldsTombstone k := by
  unfold HoldsTombstone
  rw [h]

/-- A listed tombstone is bound, hence so is every key on the list. -/
lemma InvExcept.ne_of_listed (h : InvExcept k s) {k' : K}
    (hl : s.tombstones.lookup k' = some tomb) : k' ≠ k := by
  rintro rfl
  exact h.not_listed (lookup_isSome.mp (by rw [hl]; rfl))

/-- A key without a tombstone can be left out of the invariant. -/
lemma TombInv.openAt (h : s.TombInv) (hk : ¬ s.HoldsTombstone k) : InvExcept k s where
  __ := h
  not_listed := fun hmem => hk ((h.listed_iff k).mp hmem)
  listed_iff := fun k' _ => h.listed_iff k'

/-! ## The tombstone list -/

lemma lookup_tombstones_eraseTombstone (s : MapSegment K V) (k k' : K) :
    (s.eraseTombstone k).tombstones.lookup k' =
      if k' = k then none else s.tombstones.lookup k' := by
  unfold eraseTombstone
  by_cases hk : k' = k
  · subst hk
    rw [if_pos rfl]
    split
    · assumption
    · simp
  · rw [if_neg hk]
    split
    · rfl
    · simp [lookup_erase_ne hk]

lemma mem_tombstones_eraseTombstone (s : MapSegment K V) (k k' : K) :
    k' ∈ (s.eraseTombstone k).tombstones ↔ k' ≠ k ∧ k' ∈ s.tombstones := by
  rw [← lookup_isSome, ← lookup_isSome, lookup_tombstones_eraseTombstone]
  by_cases hk : k' = k <;> simp [hk]

@[simp] lemma nextTomb_eraseTombstone (s : MapSegment K V) (k : K) :
    (s.eraseTombstone k).nextTomb = s.nextTomb := by
  unfold eraseTombstone
  split <;> rfl

@[simp] lemma entry_tombHeap_eraseTombstone (s : MapSegment K V) (k : K) (tomb : TombId) :
    ((s.eraseTombstone k).tombHeap tomb).entry = (s.tombHeap tomb).entry := by
  unfold eraseTombstone
  split
  · rfl
  · rename_i tomb' _
    by_cases ht : tomb = tomb'
    · subst ht
      simp
    · simp [update_of_ne ht]

/-- Taking a key off the list invalidates its `TombstoneEntry` and no other. -/
lemma valid_of_valid_eraseTombstone (h : ((s.eraseTombstone k).tombHeap tomb).valid = true) :
    (s.tombHeap tomb).valid = true ∧ s.tombstones.lookup k ≠ some tomb := by
  unfold eraseTombstone at h
  split at h
  · rename_i hnone
    exact ⟨h, by rw [hnone]; simp⟩
  · rename_i tomb' hsome
    have hne : tomb ≠ tomb' := by
      rintro rfl
      simp at h
    refine ⟨by simpa [update_of_ne hne] using h, ?_⟩
    rw [hsome]
    intro heq
    exact hne (Option.some.inj heq).symm

/-- The key whose tombstone is unlisted is left out. -/
lemma TombInv.eraseTombstone (h : s.TombInv) (k : K) : InvExcept k (s.eraseTombstone k) where
  enabled := by simpa using h.enabled
  plain := by simpa using h.plain
  not_listed := by simp [mem_tombstones_eraseTombstone]
  listed_iff := by
    intro k' hk
    rw [mem_tombstones_eraseTombstone, holdsTombstone_congr (s.entryAt_eraseTombstone k),
      ← h.listed_iff k']
    simp [hk]
  refers := by
    intro k' tomb hl
    rw [lookup_tombstones_eraseTombstone] at hl
    split at hl
    · cases hl
    · simpa using h.refers k' tomb hl
  listed_lt := by
    intro k' tomb hl
    rw [lookup_tombstones_eraseTombstone] at hl
    split at hl
    · cases hl
    · simpa using h.listed_lt k' tomb hl
  valid_listed := by
    intro tomb hlt hv
    obtain ⟨hv', hne⟩ := valid_of_valid_eraseTombstone hv
    obtain ⟨k', hl⟩ := h.valid_listed tomb (by simpa using hlt) hv'
    refine ⟨k', ?_⟩
    have hk : k' ≠ k := by
      rintro rfl
      exact hne hl
    rw [lookup_tombstones_eraseTombstone, if_neg hk, hl]

section

variable (h : InvExcept k s)

include h

/-- A segment that differs only in the object or the binding of the open key. -/
lemma InvExcept.of_frame (henabled : t.concurrencyChecksEnabled = s.concurrencyChecksEnabled)
    (hplain : t.Plain) (htombs : t.tombstones = s.tombstones) (htombHeap : t.tombHeap = s.tombHeap)
    (hnext : t.nextTomb = s.nextTomb) (hmap : ∀ k', k' ≠ k → t.map.lookup k' = s.map.lookup k')
    (hentry : ∀ k', k' ≠ k → t.entryAt k' = s.entryAt k') : InvExcept k t where
  enabled := henabled.trans h.enabled
  plain := hplain
  not_listed := by rw [htombs]; exact h.not_listed
  listed_iff := by
    intro k' hk
    rw [htombs, h.listed_iff k' hk, holdsTombstone_congr (hentry k' hk)]
  refers := by
    intro k' tomb hl
    rw [htombs] at hl
    rw [hmap k' (h.ne_of_listed hl), htombHeap]
    exact h.refers k' tomb hl
  listed_lt := by
    rw [htombs, hnext]
    exact h.listed_lt
  valid_listed := by
    rw [htombs, hnext, htombHeap]
    exact h.valid_listed

lemma InvExcept.setImpl (hk : s.map.lookup k = some (.impl id))
    (he : entry.IsPlain k) : InvExcept k (s.setImpl id entry) :=
  h.of_frame rfl (plain_setImpl h.plain hk he) rfl rfl rfl (fun _ _ => rfl)
    (fun k' hk' => by rw [entryAt_setImpl h.plain hk, if_neg hk'])

lemma InvExcept.bindNew (he : entry.IsPlain k) : InvExcept k (s.bindNew k entry) :=
  h.of_frame rfl (plain_bindNew h.plain he) rfl rfl rfl
    (fun k' hk' => by simp [MapSegment.bindNew, AList.lookup_insert_ne hk'])
    (fun k' hk' => by rw [entryAt_bindNew h.plain, if_neg hk'])

lemma InvExcept.unbind : InvExcept k (s.unbind k) :=
  h.of_frame rfl (plain_unbind h.plain k) rfl rfl rfl
    (fun k' hk' => by simp [MapSegment.unbind, AList.lookup_erase_ne hk'])
    (fun k' hk' => by rw [entryAt_unbind, if_neg hk'])

/-- Closing at a key that holds no tombstone. -/
lemma InvExcept.close (hk : ¬ s.HoldsTombstone k) : s.TombInv where
  __ := h
  listed_iff := by
    intro k'
    by_cases hk' : k' = k
    · subst hk'
      exact iff_of_false h.not_listed hk
    · exact h.listed_iff k' hk'

/-- Closing at a key that holds a tombstone, by listing it. -/
lemma InvExcept.addTombstone (hk : s.map.lookup k = some (.impl id))
    (ht : (s.heap id).value = .tombstone) : (s.addTombstone id).TombInv := by
  obtain ⟨_, -, heq, hp⟩ := h.plain k _ hk
  cases heq
  have hadd : s.addTombstone id = { s with
      tombstones := s.tombstones.insert k s.nextTomb
      tombHeap := update s.tombHeap s.nextTomb ⟨id, true⟩
      nextTomb := s.nextTomb + 1 } := by
    simp [MapSegment.addTombstone, hp.key_eq]
  have hold : ∀ k', k' ≠ k → (s.addTombstone id).tombstones.lookup k' = s.tombstones.lookup k' := by
    intro k' hk'
    rw [hadd]
    exact lookup_insert_ne hk'
  have hheap : ∀ tomb < s.nextTomb, (s.addTombstone id).tombHeap tomb = s.tombHeap tomb := by
    intro tomb hlt
    rw [hadd]
    exact update_of_ne hlt.ne _ _
  have hnew : (s.addTombstone id).tombstones.lookup k = some s.nextTomb := by
    rw [hadd]
    exact lookup_insert _
  refine ⟨⟨?_, ?_⟩, by simpa using h.enabled, by simpa using h.plain, ?_, ?_⟩
  · intro k'
    rw [holdsTombstone_congr (s.entryAt_addTombstone id), ← lookup_isSome]
    by_cases hk' : k' = k
    · subst hk'
      rw [hnew, holdsTombstone_iff_of_lookup hk]
      simp [ht]
    · rw [hold k' hk', lookup_isSome]
      exact h.listed_iff k' hk'
  · intro k' tomb hl
    by_cases hk' : k' = k
    · subst hk'
      rw [hnew] at hl
      cases hl
      rw [hadd]
      simpa using hk
    · rw [hold k' hk'] at hl
      rw [hheap tomb (h.listed_lt k' tomb hl)]
      simpa using h.refers k' tomb hl
  · intro k' tomb hl
    have hnext : (s.addTombstone id).nextTomb = s.nextTomb + 1 := by rw [hadd]
    rw [hnext]
    by_cases hk' : k' = k
    · subst hk'
      rw [hnew] at hl
      cases hl
      exact Nat.lt_succ_self _
    · rw [hold k' hk'] at hl
      exact Nat.lt_succ_of_lt (h.listed_lt k' tomb hl)
  · intro tomb hlt hv
    rcases Nat.lt_succ_iff_lt_or_eq.mp (by rw [hadd] at hlt; exact hlt) with hlt' | rfl
    · rw [hheap tomb hlt'] at hv
      obtain ⟨k', hl⟩ := h.valid_listed tomb hlt' hv
      exact ⟨k', by rw [hold k' (h.ne_of_listed hl), hl]⟩
    · exact ⟨k, hnew⟩

end

/-! ## What the operations do to the invariant -/

variable (h : s.TombInv)

include h

/-- A free slot is bound to a value. -/
lemma TombInv.bindLive (hk : s.map.lookup k = none) (he : entry.IsPlain k)
    (hv : entry.value ≠ .tombstone) : (s.bindNew k entry).TombInv := by
  have hk' : (s.bindNew k entry).map.lookup k = some (.impl s.nextObj) := by
    simp [bindNew]
  refine ((h.openAt (not_holdsTombstone_of_unbound hk)).bindNew he).close ?_
  rw [holdsTombstone_iff_of_lookup hk']
  simpa [bindNew] using hv

/-- An entry goes with its tombstone. -/
lemma TombInv.removeEntry : (s.removeEntry k).TombInv := by
  refine (h.eraseTombstone k).unbind.close (not_holdsTombstone_of_unbound ?_)
  simp [unbind]

/-- A value replaces a tombstone. -/
lemma TombInv.rebindLive (he : entry.IsPlain k) (hv : entry.value ≠ .tombstone) :
    ((s.removeEntry k).bindNew k entry).TombInv :=
  h.removeEntry.bindLive (by simp [MapSegment.removeEntry, MapSegment.unbind]) he hv

variable (hk : s.map.lookup k = some (.impl id))

include hk

/-- A live entry gets another value. -/
lemma TombInv.write (hlive : (s.heap id).value ≠ .tombstone) (he : entry.IsPlain k)
    (hv : entry.value ≠ .tombstone) : (s.setImpl id entry).TombInv := by
  have hopen : ¬ s.HoldsTombstone k := by
    rw [holdsTombstone_iff_of_lookup hk]
    exact hlive
  have hk' : (s.setImpl id entry).map.lookup k = some (.impl id) := hk
  refine ((h.openAt hopen).setImpl hk he).close ?_
  rw [holdsTombstone_iff_of_lookup hk']
  simpa [setImpl] using hv

lemma TombInv.writeUnlisted (he : entry.IsPlain k) (hv : entry.value ≠ .tombstone) :
    ((s.setImpl id entry).eraseTombstone k).TombInv := by
  have hk' : ((s.eraseTombstone k).setImpl id entry).map.lookup k = some (.impl id) := by
    simpa [setImpl] using hk
  rw [eraseTombstone_setImpl]
  refine ((h.eraseTombstone k).setImpl (by simpa using hk) he).close ?_
  rw [holdsTombstone_iff_of_lookup hk']
  simpa [setImpl] using hv

/-- An entry becomes a tombstone and is listed. -/
lemma TombInv.entomb (he : entry.IsPlain k) (hv : entry.value = .tombstone) :
    (((s.setImpl id entry).eraseTombstone k).addTombstone id).TombInv := by
  rw [eraseTombstone_setImpl]
  refine ((h.eraseTombstone k).setImpl (by simpa using hk) he).addTombstone ?_ ?_
  · simpa [setImpl] using hk
  · simpa [setImpl] using hv

end Invariant

section Steps

variable {outs : OutParams V} {newValue : CacheValue V} {updateCount destroyTracker : ℤ}
  {versionTag : Option VersionTag}

lemma TombInv.not_refused_removeEntry (h : s.TombInv) (k' : K) :
    ¬ (s.removeEntry k').Refused k updateCount destroyTracker :=
  not_refused_of_enabled h.removeEntry.enabled

omit [DecidableEq K] in
/-- A delta on a live value never makes a tombstone. -/
lemma updatedValue_ne_tombstone (region : Region K V D M) (k : K) {entry : MapEntryImpl K V}
    (he : entry.value ≠ .tombstone) (hv : newValue ≠ .tombstone) (delta : Option D) :
    (updatedValue region k entry newValue delta).2 ≠ .tombstone := by
  cases delta with
  | none => exact hv
  | some delta =>
    have hget : entry.getValueI ≠ .tombstone :=
      fun h => he (MapEntryImpl.getValueI_eq_tombstone_iff.mp h)
    unfold updatedValue applyDelta
    split
    · cases ‹some delta = none›
    · split
      · exact he
      · split
        · split <;> simp
        · split
          · simp
          · split <;> simp
        · exact hget

section

variable (h : s.TombInv)

include h

lemma TombInv.put (hv : newValue ≠ .tombstone) (delta : Option D) :
    (s.put region k newValue outs updateCount destroyTracker versionTag delta).segment.TombInv := by
  rcases h.plain.cases k with hk | ⟨id, hk, -, hp⟩
  · cases delta with
    | none =>
      rw [put_of_unbound hk (not_refused_of_enabled h.enabled)]
      exact h.bindLive hk isPlain_storedEntry hv
    | some =>
      simpa [MapSegment.put, hk] using h
  · cases hc : s.checkVersion region id versionTag delta.isSome with
    | error =>
      rw [put_of_conflict hk hp delta hc]
      exact h
    | ok stamp =>
      by_cases ht : (s.heap id).value = .tombstone
      · rw [put_of_tombstone hk hp delta hc ht (h.not_refused_removeEntry k)]
        exact h.rebindLive isPlain_storedEntry hv
      · obtain ⟨err, value, hu⟩ :
            ∃ err value, updatedValue region k (s.heap id) newValue delta = (err, value) :=
          ⟨_, _, rfl⟩
        have hvalue : value ≠ .tombstone := by
          have hne := updatedValue_ne_tombstone region k ht hv delta
          rwa [hu] at hne
        rw [put_of_live hk hp delta hc ht (putForTrackedEntry_untracked hp (.inr h.enabled) hu)]
        by_cases herr : err = .noErr
        · subst herr
          simpa [h.enabled] using h.writeUnlisted hk (hp.update value stamp) hvalue
        · simpa [herr, setValueI] using h.write hk ht (hp.update value _) hvalue

lemma TombInv.create (hv : newValue ≠ .tombstone) :
    (s.create region k newValue outs updateCount destroyTracker versionTag).segment.TombInv := by
  rcases h.plain.cases k with hk | ⟨id, hk, -, hp⟩
  · rw [create_of_unbound hk (not_refused_of_enabled h.enabled)]
    exact h.bindLive hk isPlain_storedEntry hv
  · by_cases hfree : (s.heap id).getValueI = .null ∨ (s.heap id).getValueI = .tombstone
    · cases hc : s.checkVersion region id versionTag false with
      | error =>
        rw [create_of_conflict hk hp hfree hc]
        exact h
      | ok stamp =>
        rcases hfree with hnull | ht
        · rw [create_of_null hk hp hnull hc (putForTrackedEntry_untracked hp (.inr h.enabled) rfl)]
          simpa [h.enabled] using h.writeUnlisted hk (hp.update newValue stamp) hv
        · have ht' := MapEntryImpl.getValueI_eq_tombstone_iff.mp ht
          rw [create_of_tombstone hk hp ht' hc (h.not_refused_removeEntry k)]
          exact h.rebindLive isPlain_storedEntry hv
    · rw [not_or] at hfree
      rw [create_of_value hk hp hfree.1 hfree.2]
      exact h

lemma TombInv.invalidate : (s.invalidate region k outs versionTag).segment.TombInv := by
  rcases h.plain.cases k with hk | ⟨id, hk, -, hp⟩
  · rw [invalidate_of_unbound h.enabled hk]
    exact h.bindLive hk isPlain_storedEntry (by simp [storedEntry])
  · cases hc : s.checkVersion region id versionTag false with
    | error =>
      rw [invalidate_of_conflict hk hc]
      exact h
    | ok =>
      by_cases ht : (s.heap id).value = .tombstone
      · rw [invalidate_of_tombstone hk hp hc ht]
        exact h
      · rw [invalidate_of_live hk hp hc ht]
        exact h.write hk ht (hp.update _ _) (by simp)

lemma TombInv.remove {afterRemote : Bool} :
    (s.remove region k outs updateCount versionTag afterRemote).segment.TombInv := by
  rcases h.plain.cases k with hk | ⟨id, hk, -, hp⟩
  · rw [remove_of_unbound h.enabled hk]
    cases versionTag with
    | none => exact h
    | some =>
      exact ((h.openAt (not_holdsTombstone_of_unbound hk)).bindNew isPlain_storedEntry).addTombstone
        (by simp [bindNew]) (by simp [bindNew, storedEntry])
  · cases hc : s.checkVersion region id versionTag false with
    | error =>
      rw [remove_of_conflict h.enabled hk hp hc]
      exact h
    | ok =>
      rw [remove_of_bound h.enabled hk hp hc]
      exact h.entomb hk (hp.update _ _) rfl

/-- By induction on the keys that the server collected. -/
lemma TombInv.reapKeys {removedKeys : List K} : (s.reapKeys removedKeys).TombInv := by
  induction removedKeys generalizing s with
  | nil => exact h
  | cons _ _ ih => exact ih h.removeEntry

/-- What the expiry of a listed tombstone does: it unbinds the key it is listed under. -/
lemma TombInv.removeTombEntry_of_valid (hlt : tomb < s.nextTomb)
    (hv : (s.tombHeap tomb).valid = true) :
    ∃ k, s.HoldsTombstone k ∧ s.removeTombEntry tomb = s.removeEntry k := by
  obtain ⟨k, hl⟩ := h.valid_listed tomb hlt hv
  have hmem : k ∈ s.tombstones := lookup_isSome.mp (by rw [hl]; rfl)
  have hk := h.refers k tomb hl
  obtain ⟨_, -, heq, hp⟩ := h.plain k _ hk
  cases heq
  refine ⟨k, (h.listed_iff k).mp hmem, ?_⟩
  unfold removeTombEntry MapSegment.removeEntry
  rw [if_pos hv]
  simp only [hp.key_eq, hmem, if_true]

end

lemma removeTombEntry_of_not_valid (hv : ¬ (s.tombHeap tomb).valid = true) :
    s.removeTombEntry tomb = s := by
  unfold removeTombEntry
  rw [if_neg hv]

lemma TombInv.removeTombEntry (h : s.TombInv) (hlt : tomb < s.nextTomb) :
    (s.removeTombEntry tomb).TombInv := by
  by_cases hv : (s.tombHeap tomb).valid = true
  · obtain ⟨_, -, heq⟩ := h.removeTombEntry_of_valid hlt hv
    rw [heq]
    exact h.removeEntry
  · rw [removeTombEntry_of_not_valid hv]
    exact h

end Steps

/-! ## Runs -/

/-- What a segment with concurrency checks promises in every state: its tombstone list is in
step with its map, `isTombstone` does not find it in an illegal state, and no expiry of a
tombstone unbinds a live entry. -/
structure TombstonesInStep (s : MapSegment K V) : Prop where
  bookkept : s.Bookkept
  isTombstone_legal : ∀ k result,
    s.isTombstone k ≠ some (.cacheIllegalStateException, result)
  expiry_keeps_live : ∀ tomb < s.nextTomb, ∀ k entry, s.entryAt k = some entry →
    entry.value ≠ .tombstone → (s.removeTombEntry tomb).entryAt k = some entry

/-- A call other than a `clear`, or a `clear` while no tombstone is listed. -/
def ClearsNoTombstone (s : MapSegment K V) : SegmentCall K V D → Prop
  | .clear => s.tombstones = ∅
  | _ => True

section Runs

variable {c : SegmentCall K V D}

lemma TombInv.isTombstone_ne_illegal (h : s.TombInv) (k : K) (result : Bool) :
    s.isTombstone k ≠ some (.cacheIllegalStateException, result) := by
  have hlisted := h.listed_iff k
  unfold isTombstone
  rcases h.plain.cases k with hk | ⟨id, hk, -, hp⟩
  · simp [hk]
  · rw [holdsTombstone_iff_of_lookup hk, ← MapEntryImpl.getValueI_eq_tombstone_iff] at hlisted
    simp only [hk, getImplPtr_of_isPlain hp]
    cases hv : (s.heap id).getValueI <;> simp [hv] at hlisted <;> simp [hlisted]

/-- The invariant implies the stated property. -/
lemma TombInv.inStep (h : s.TombInv) : s.TombstonesInStep where
  bookkept := h.toBookkept
  isTombstone_legal := h.isTombstone_ne_illegal
  expiry_keeps_live := by
    intro tomb hlt k _ he hlive
    by_cases hv : (s.tombHeap tomb).valid = true
    · obtain ⟨k', ⟨_, he', ht⟩, heq⟩ := h.removeTombEntry_of_valid hlt hv
      have hk : k ≠ k' := by
        rintro rfl
        rw [he] at he'
        cases he'
        exact hlive ht
      rw [heq, entryAt_removeEntry, if_neg hk, he]
    · rw [removeTombEntry_of_not_valid hv, he]

/-- `clear` forgets the entries and keeps the list. -/
lemma TombInv.clear (h : s.TombInv) (hempty : s.tombstones = ∅) : s.clear.TombInv where
  __ := h
  listed_iff := by
    intro k
    change k ∈ s.tombstones ↔ _
    rw [hempty]
    refine iff_of_false (notMem_empty k) (not_holdsTombstone_of_unbound ?_)
    simp [MapSegment.clear]
  refers := by
    intro k tomb hl
    change s.tombstones.lookup k = some tomb at hl
    simp [hempty] at hl
  plain := plain_clear s

/-- Each call of the segment. -/
lemma TombInv.step (h : s.TombInv) (hc : s.ClearsNoTombstone c) : (s.step region c).TombInv := by
  cases c with
  | create _ newValue =>
    exact h.create newValue.toCacheValue_ne_tombstone
  | put _ newValue _ _ _ delta =>
    exact h.put newValue.toCacheValue_ne_tombstone delta
  | invalidate => exact h.invalidate
  | remove => exact h.remove
  | clear => exact h.clear hc
  | reapVersions | reapKeys => exact h.reapKeys
  | expire tomb =>
    by_cases hlt : tomb < s.nextTomb
    · simpa [step, hlt] using h.removeTombEntry hlt
    · simpa [step, hlt] using h

/-- A `clear` that leaves a tombstone on the list breaks the bookkeeping. -/
lemma clearsNoTombstone_of_inStep
    (h : (s.step region c).TombstonesInStep) : s.ClearsNoTombstone c := by
  cases c with
  | clear =>
    by_contra hne
    obtain ⟨k, hk⟩ : ∃ k, k ∈ s.tombstones := by
      by_contra hall
      refine hne (ext (List.eq_nil_iff_forall_not_mem.mpr fun e he => hall ⟨e.1, ?_⟩))
      exact mem_keys.mpr (List.mem_keys_of_mem he)
    obtain ⟨_, he, -⟩ := (h.bookkept.listed_iff k).mp hk
    cases he
  | _ => trivial

lemma tombInv_empty (heap : EntryHeap K V) {tombHeap : TombId → TombstoneEntry}
    {numDestroyTrackers : ℤ} : (empty true numDestroyTrackers heap tombHeap).TombInv where
  listed_iff := fun k => iff_of_false (notMem_empty k) (not_holdsTombstone_of_unbound rfl)
  refers := by
    intro k tomb hl
    cases hl
  enabled := rfl
  plain := by
    intro k _ he
    cases he
  listed_lt := by
    intro _ tomb hl
    cases hl
  valid_listed := by
    intro tomb hlt
    exact absurd hlt (Nat.not_lt_zero tomb)

/-- **Tombstone bookkeeping.** From an empty segment with concurrency checks, the list of
tombstones stays in step with the map along a run, `isTombstone` never finds an illegal state
and no expiry unbinds a live entry, exactly when the run clears the segment only while no
tombstone is listed. -/
theorem tombstonesInStep_iff_clearsNoTombstone (region : Region K V D M) (heap : EntryHeap K V)
    (tombHeap : TombId → TombstoneEntry) (numDestroyTrackers : ℤ)
    (calls : List (SegmentCall K V D)) :
    EveryState (step region) TombstonesInStep (empty true numDestroyTrackers heap tombHeap) calls ↔
      EveryStep (step region) ClearsNoTombstone (empty true numDestroyTrackers heap tombHeap)
        calls :=
  everyState_iff_everyStep (fun _ _ h hc => h.step hc) (fun _ h => h.inStep)
    (fun _ _ _ h => clearsNoTombstone_of_inStep h) (tombInv_empty heap)

/-- A key is removed, the segment cleared and the key put again: the tombstone that `clear`
left on the list is still valid, and its expiry unbinds the new entry. -/
theorem expiry_unbinds_live_entry_after_clear :
    ¬ EveryState (step (K := Unit) (V := Unit) (D := Unit) (M := Unit)
        ⟨⟨fun _ => none, fun _ _ => 0⟩, false, fun v _ => (v, true), fun _ => none⟩)
      TombstonesInStep (empty true 0 (fun _ => .create ()) fun _ => ⟨0, false⟩)
      [.remove () (-1) (some ⟨1, 0, 1, 1, 0⟩) true, .clear,
        .put () (.object ()) (-1) 0 (some ⟨2, 0, 2, 1, 0⟩) none] := by
  intro h
  have hlive := h.last.expiry_keeps_live 0 (by decide) () _ rfl (by decide)
  exact absurd hlive (by decide)

end Runs

end MapSegment

end GeodeNative
