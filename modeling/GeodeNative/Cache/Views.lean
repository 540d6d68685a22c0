import GeodeNative.Cache.EntrySlots
import GeodeNative.Cache.Reaping

/-!
# The views of a segment

Five accessors read a segment: `containsKey` and `getEntry` ask for one key, `getKeys`, `getEntries`
and `getValues` list them all. They differ in what they take for an entry. An entry without a
value, such as the one that holds the place of a tracked key, is a key for two of them and none for
the others; and each throws where an entry cannot be pointed to.

The calls other than those of the trackers bring neither about, as long as the values that are
stored are objects of the application.
-/

namespace GeodeNative

open List Option

namespace MapSegment

open MapEntry CacheValue

variable {K V D M : Type*} [DecidableEq K]

section

variable (s : MapSegment K V)

/-- `MapSegment::containsKey`; `none` where it throws. -/
def containsKey (key : K) : Option Bool :=
  match s.map.lookup key with
  | none => some false
  | some entry => (entry.getImplPtr s.heap).map fun entryImpl =>
      !(s.heap entryImpl).getValueI.isTombstone

/-- The loop over all entries in which each is pointed to; `none` where that throws. -/
def collect {α : Type*} (f : K → MapEntry → Option α) : Option (List α) :=
  if ∀ e ∈ s.map.entries, (e.2.getImplPtr s.heap).isSome then
    some (s.map.entries.filterMap fun e => f e.1 e.2)
  else
    none

/-- What `getEntries` makes of an entry: the key that it holds and its value, which is null if it is
invalid. -/
def regionEntry (entry : MapEntryImpl K V) : Option (Option K × CacheValue V) :=
  match entry.getValueI with
  | .null | .tombstone => none
  | .invalid => some (entry.key, .null)
  | value => some (entry.key, value)

/-- `MapSegment::getEntries`; `none` where it throws. -/
def getEntries : Option (List (Option K × CacheValue V)) :=
  s.collect fun _ entry => regionEntry (s.heap entry.target)

/-- `MapSegment::getValues`. An overflowed value is read from the store. -/
def getValues (region : Region K V D M) : Option (List (CacheValue V)) :=
  s.collect fun key entry =>
    match entry.getValue s.heap with
    | .null | .invalid | .destroyed | .tombstone => none
    | .overflowed => some ((region.getFromDisk key).elim .null .object)
    | value => some value

/-- A key is bound to an entry that is no tombstone. -/
def Holds (key : K) : Prop :=
  ∃ entry, s.map.lookup key = some entry ∧ entry.getValue s.heap ≠ .tombstone

/-- The accessors know the same keys, and there is a value for each of them that is not invalid. -/
structure ViewsAgree (region : Region K V D M) : Prop where
  getEntry : ∀ k, s.containsKey k = some true ↔ ∃ e, s.getEntry k = some (some e)
  getKeys : ∀ k, s.containsKey k = some true ↔ ∃ keys, s.getKeys = some keys ∧ k ∈ keys
  getEntries : ∀ k, s.containsKey k = some true ↔
    ∃ entries, s.getEntries = some entries ∧ some k ∈ entries.map (·.1)
  getValues : ∃ values, s.getValues region = some values ∧ values.length =
    (s.map.entries.filter fun e => s.containsKey e.1 == some true &&
      !(e.2.getValue s.heap).isInvalid).length

/-- Every entry can be pointed to and has a value, and the keys that are held by the entries are the
keys that they are bound to. -/
structure Presentable : Prop where
  pointed : ∀ k entry, s.map.lookup k = some entry → (entry.getImplPtr s.heap).isSome
  valued : ∀ k entry, s.map.lookup k = some entry → entry.getValue s.heap ≠ .null
  keyed : ∀ k, s.Holds k ↔ ∃ k' entry, s.map.lookup k' = some entry ∧
    entry.getValue s.heap ≠ .tombstone ∧ (s.heap entry.target).key = some k

end

section

variable {s : MapSegment K V} {k : K} {entry : MapEntry}

omit [DecidableEq K] in
lemma getImplPtr_eq_target {heap : EntryHeap K V} {id : ObjId}
    (h : entry.getImplPtr heap = some id) : id = entry.target := by
  cases entry with
  | impl id' =>
    dsimp only [getImplPtr] at h
    split at h
    · exact (some.inj h).symm
    · cases h
  | tracked => exact (some.inj h).symm

lemma forall_entries_iff {p : K → MapEntry → Prop} :
    (∀ e ∈ s.map.entries, p e.1 e.2) ↔ ∀ k entry, s.map.lookup k = some entry → p k entry :=
  ⟨fun h k entry hk => h ⟨k, entry⟩ (AList.mem_lookup_iff.mp hk),
    fun h e he => h e.1 e.2 (AList.mem_lookup_iff.mpr he)⟩

/-- The enumeration throws when an entry is broken. -/
lemma collect_isSome_iff {α : Type*} {f : K → MapEntry → Option α} : (s.collect f).isSome ↔
    ∀ k entry, s.map.lookup k = some entry → (entry.getImplPtr s.heap).isSome := by
  unfold collect
  rw [← forall_entries_iff (p := fun _ entry => (entry.getImplPtr s.heap).isSome)]
  split_ifs <;> simp_all

section

variable (h : ∀ k entry, s.map.lookup k = some entry → (entry.getImplPtr s.heap).isSome)

include h

lemma collect_of_pointed {α : Type*} (f : K → MapEntry → Option α) :
    s.collect f = some (s.map.entries.filterMap fun e => f e.1 e.2) := by
  unfold collect
  rw [if_pos (forall_entries_iff.mpr h)]

/-- An entry that can be pointed to is pointed to by its address. -/
lemma getImplPtr_of_pointed (hk : s.map.lookup k = some entry) :
    entry.getImplPtr s.heap = some entry.target := by
  obtain ⟨_, hid⟩ := isSome_iff_exists.mp (h k entry hk)
  rw [hid, getImplPtr_eq_target hid]

lemma containsKey_iff : s.containsKey k = some true ↔ s.Holds k := by
  unfold containsKey Holds
  cases hk : s.map.lookup k with
  | none => simp
  | some =>
    simp [getImplPtr_of_pointed h hk, getValue, MapEntryImpl.getValueI_eq_tombstone_iff]

lemma getEntry_iff : (∃ e, s.getEntry k = some (some e)) ↔ ∃ entry, s.map.lookup k = some entry ∧
    entry.getValue s.heap ≠ .tombstone ∧ entry.getValue s.heap ≠ .null := by
  unfold getEntry
  cases hk : s.map.lookup k with
  | none => simp
  | some entry =>
    cases hv : (s.heap entry.target).getValueI <;>
      simp [getImplPtr_of_pointed h hk, getValue, hv]

lemma getKeys_iff : (∃ keys, s.getKeys = some keys ∧ k ∈ keys) ↔ s.Holds k := by
  unfold getKeys Holds
  rw [if_pos (forall_entries_iff.mpr h)]
  simp [← AList.mem_lookup_iff]

lemma getEntries_iff : (∃ entries, s.getEntries = some entries ∧ some k ∈ entries.map (·.1)) ↔
    ∃ k' entry, s.map.lookup k' = some entry ∧ entry.getValue s.heap ≠ .tombstone ∧
      entry.getValue s.heap ≠ .null ∧ (s.heap entry.target).key = some k := by
  have hview : ∀ entry : MapEntryImpl K V, (∃ e, regionEntry entry = some e ∧ e.1 = some k) ↔
      entry.getValueI ≠ .tombstone ∧ entry.getValueI ≠ .null ∧ entry.key = some k := by
    intro entry
    unfold regionEntry
    cases entry.getValueI <;> simp
  unfold getEntries
  rw [collect_of_pointed h]
  simp only [Option.some.injEq, exists_eq_left', List.mem_map, List.mem_filterMap, Sigma.exists,
    ← AList.mem_lookup_iff, mem_def]
  constructor
  · rintro ⟨e, ⟨k', entry, hk, he⟩, hkey⟩
    exact ⟨k', entry, hk, (hview (s.heap entry.target)).mp ⟨e, he, hkey⟩⟩
  · rintro ⟨k', entry, hk, hshown⟩
    obtain ⟨e, he, hkey⟩ := (hview (s.heap entry.target)).mpr hshown
    exact ⟨e, ⟨k', entry, hk, he⟩, hkey⟩

end

/-- Where every entry has a value, an entry is held exactly when it is shown. -/
lemma and_valued_iff (hvalued : ∀ k entry, s.map.lookup k = some entry →
    entry.getValue s.heap ≠ .null) {k' : K} {p : Prop} :
    (s.map.lookup k' = some entry ∧ entry.getValue s.heap ≠ .tombstone ∧
      entry.getValue s.heap ≠ .null ∧ p) ↔
      s.map.lookup k' = some entry ∧ entry.getValue s.heap ≠ .tombstone ∧ p :=
  and_congr_right fun hk => and_congr_right fun _ => and_iff_right (hvalued k' entry hk)

omit [DecidableEq K] in
lemma getValueI_ne_destroyed (entry : MapEntryImpl K V) : entry.getValueI ≠ .destroyed := by
  unfold MapEntryImpl.getValueI
  split
  · simp
  · assumption

/-- The views agree exactly when every entry can be shown by each of them. -/
theorem viewsAgree_iff_presentable (region : Region K V D M) (s : MapSegment K V) :
    s.ViewsAgree region ↔ s.Presentable := by
  constructor
  · intro h
    obtain ⟨values, hvalues, -⟩ := h.getValues
    have hpointed := collect_isSome_iff.mp (isSome_iff_exists.mpr ⟨values, hvalues⟩)
    have hvalued : ∀ k entry, s.map.lookup k = some entry → entry.getValue s.heap ≠ .null := by
      intro k entry hk hnull
      have hentry := h.getEntry k
      rw [containsKey_iff hpointed, getEntry_iff hpointed] at hentry
      obtain ⟨entry', hk', -, hvalue⟩ := hentry.mp ⟨entry, hk, by simp [hnull]⟩
      obtain rfl : entry = entry' := some.inj (hk.symm.trans hk')
      exact hvalue hnull
    refine ⟨hpointed, hvalued, fun k => ?_⟩
    have hentries := h.getEntries k
    simp only [containsKey_iff hpointed, getEntries_iff hpointed, and_valued_iff hvalued]
      at hentries
    exact hentries
  · rintro ⟨hpointed, hvalued, hkeyed⟩
    refine ⟨fun k => ?_, fun k => ?_, fun k => ?_, _, collect_of_pointed hpointed _, ?_⟩
    · rw [containsKey_iff hpointed, getEntry_iff hpointed]
      exact exists_congr fun entry => and_congr_right fun hk =>
        (and_iff_left (hvalued k entry hk)).symm
    · rw [containsKey_iff hpointed, getKeys_iff hpointed]
    · simp only [containsKey_iff hpointed, getEntries_iff hpointed, and_valued_iff hvalued]
      exact hkeyed k
    · rw [← countP_eq_length_filter, length_filterMap_eq_countP]
      refine countP_congr fun e he => ?_
      have hk : s.map.lookup e.1 = some e.2 := AList.mem_lookup_iff.mpr he
      have hvalue := hvalued e.1 e.2 hk
      have hholds : s.Holds e.1 ↔ e.2.getValue s.heap ≠ .tombstone := by
        simp [Holds, hk]
      have hcontains : (s.containsKey e.1 == some true) = true ↔ _ :=
        beq_iff_eq.trans ((containsKey_iff hpointed).trans hholds)
      have hdestroyed : e.2.getValue s.heap ≠ .destroyed := getValueI_ne_destroyed _
      cases hv : e.2.getValue s.heap <;> simp_all [isInvalid]

/-- A region without members and without an overflow store. -/
def unitRegion : Region Unit Unit Unit Unit :=
  ⟨⟨fun _ => none, fun _ _ => 0⟩, false, fun v _ => (v, true), fun _ => none⟩

/-- The place that is held for a tracked key makes every accessor throw; a destroyed entry that can
be pointed to is a key of the region but no entry of it. -/
theorem not_viewsAgree_placeholder :
    ¬ (((single false .null).clear.addTrackerForEntry () .null true false false).segment.ViewsAgree
      unitRegion) ∧
    (single false .destroyed).containsKey () = some true ∧
      (single false .destroyed).getEntry () = some none := by
  refine ⟨fun h => ?_, rfl, rfl⟩
  obtain ⟨_, hvalues, -⟩ := h.getValues
  cases hvalues

end

/-! ## Calls that keep a segment presentable -/

/-- What a call stores is an object of the application, or comes of a delta. -/
def StoresObject (s : MapSegment K V) : SegmentCall K V D → Prop
  | .create _ newValue .. => ∃ v, newValue = .object v
  | .put key newValue updateCount _ _ delta =>
    s.PutsObject key newValue.toCacheValue updateCount delta
  | _ => True

section

variable {s : MapSegment K V} {k : K} {region : Region K V D M} (hs : s.Orderly)

include hs

/-- In an orderly segment every entry has a value to show. -/
lemma Orderly.presentable : s.Presentable := by
  have hbound : ∀ k e, s.map.lookup k = some e → ∃ id, e = .impl id ∧ (s.heap id).IsPlain k ∧
      (s.heap id).getValueI = (s.heap id).value ∧ (s.heap id).value ≠ .null := by
    intro k e hk
    rcases hs.cases k with ⟨hnone, -⟩ | ⟨id, hk', hp, -, -, hget, hnull⟩
    · cases hk.symm.trans hnone
    · exact ⟨id, some.inj (hk.symm.trans hk'), hp, hget, hnull⟩
  refine ⟨fun k e hk => ?_, fun k e hk => ?_, fun k => ⟨?_, ?_⟩⟩
  · obtain ⟨id, rfl, hp, -⟩ := hbound k e hk
    rw [getImplPtr_of_isPlain hp]
    rfl
  · obtain ⟨id, rfl, -, hget, hnull⟩ := hbound k e hk
    exact fun h => hnull (hget.symm.trans h)
  · rintro ⟨e, hk, hlive⟩
    obtain ⟨id, rfl, hp, -⟩ := hbound k e hk
    exact ⟨k, _, hk, hlive, hp.key_eq⟩
  · rintro ⟨k', e, hk', hlive, hkey⟩
    obtain ⟨id, rfl, hp, -⟩ := hbound k' e hk'
    obtain rfl : k' = k := some.inj (hp.key_eq.symm.trans hkey)
    exact ⟨_, hk', hlive⟩

/-- Also the invalid token that is bound to an unknown key is a value. -/
lemma Orderly.invalidate {versionTag : Option VersionTag} :
    (s.invalidate region k {} versionTag).segment.Orderly := by
  by_cases hbinds : s.concurrencyChecksEnabled = true ∧ s.slot k = none
  · have hk : s.map.lookup k = none := by simpa [slot] using hbinds.2
    rw [invalidate_of_unbound hbinds.1 hk]
    exact (slotEffect_bindNew hs isPlain_storedEntry (fun _ => by simp [storedEntry])
      (by simp [storedEntry])).1.orderly
  · exact (invalidate_slot region versionTag hs hbinds).1.orderly

/-- A remove unbinds its key, or leaves a tombstone for it. -/
lemma Orderly.remove {updateCount : ℤ} {versionTag : Option VersionTag} {afterRemote : Bool} :
    (s.remove region k {} updateCount versionTag afterRemote).segment.Orderly := by
  by_cases hon : s.concurrencyChecksEnabled = true
  · by_cases hbinds : s.slot k = none ∧ versionTag.isSome = true
    · have hk : s.map.lookup k = none := by simpa [slot] using hbinds.1
      rw [remove_of_unbound hon hk, if_pos hbinds.2]
      exact ((slotEffect_bindNew hs isPlain_storedEntry (fun hoff => absurd hon (by simp [hoff]))
        (by simp [storedEntry])).1.addTombstone _).orderly
    · exact (remove_slot region updateCount versionTag hs (fun h => hbinds h.2)
        fun hoff => absurd hon (by simp [hoff])).1.orderly
  · rw [Bool.not_eq_true] at hon
    rcases hs.cases k with ⟨hk, -⟩ | ⟨id, hk, hp, -⟩
    · obtain ⟨_, hremove⟩ := remove_of_unbound_disabled region updateCount versionTag hon hk
      rw [hremove]
      exact ⟨⟨hs.regular.plain, hs.regular.no_tombstone⟩, hs.stored⟩
    · rw [remove_of_disabled region hon hk hp]
      exact (slotEffect_unbind hs k).1.orderly

lemma Orderly.reapKeys {removedKeys : List K} : (s.reapKeys removedKeys).Orderly := by
  induction removedKeys generalizing s with
  | nil => exact hs
  | cons key _ ih => exact ih (slotEffect_removeEntry hs key).orderly

lemma Orderly.removeTombEntry (tomb : TombId) : (s.removeTombEntry tomb).Orderly := by
  unfold MapSegment.removeTombEntry
  split
  · split
    · exact hs
    · split
      · exact (slotEffect_removeEntry hs _).orderly
      · exact hs
  · exact hs

/-- Each call that stores an object. -/
lemma Orderly.step {c : SegmentCall K V D} (hc : s.StoresObject c) : (s.step region c).Orderly := by
  cases c with
  | create =>
    obtain ⟨v, rfl⟩ := hc
    exact (create_stores region _ _ _ hs v).1.orderly
  | put => exact (put_stores region {} _ _ _ hs hc).1.orderly
  | invalidate => exact hs.invalidate
  | remove => exact hs.remove
  | clear =>
    exact ⟨⟨plain_clear s, fun _ k => not_holdsTombstone_of_unbound (by simp [MapSegment.step,
      clear])⟩, fun k id value hslot => by simp [MapSegment.step, clear, slot] at hslot⟩
  | reapVersions | reapKeys => exact hs.reapKeys
  | expire tomb =>
    unfold MapSegment.step
    dsimp only
    split
    · exact hs.removeTombEntry tomb
    · exact hs

end

/-- A segment in which nothing is tracked stays presentable, with and without concurrency
checks, as long as it is given objects to store. -/
theorem presentable_of_storesObject (region : Region K V D M) (concurrencyChecksEnabled : Bool)
    (numDestroyTrackers : ℤ) (heap : EntryHeap K V) (tombHeap : TombId → TombstoneEntry)
    (calls : List (SegmentCall K V D)) :
    let s := empty concurrencyChecksEnabled numDestroyTrackers heap tombHeap
    EveryStep (MapSegment.step region) StoresObject s calls →
      EveryState (MapSegment.step region) Presentable s calls := by
  intro s h
  have hempty : s.Orderly := ⟨⟨fun k e he => (by cases he), fun _ k =>
    not_holdsTombstone_of_unbound rfl⟩, fun k id value hslot => (by cases hslot)⟩
  exact (everyState_of_everyStep (fun s c hs hc => hs.step hc) hempty h).mono
    fun t ht => ht.presentable

end MapSegment

end GeodeNative
