import GeodeNative.Cache.HandedOut

/-!
# Failed calls

An entry operation that fails should leave every key bound as it was. Without concurrency checks
some do not. `remove` unbinds the key before it finds that the entry was updated; `create` and `put`
take a tombstone away before the new entry is refused; a tracked operation gives its tracker back
when it fails as well as when it succeeds, and this builds the entry anew or takes it out of the
map. With or without the checks a delta that is applied in place may fail after it has changed the
object. The theorem says in which states a failed call leaves its traces.
-/

namespace GeodeNative

/-- The entry operations. -/
inductive EntryCall (K V D : Type*)
  | store (call : StoreCall K V D)
  | invalidate (key : K) (versionTag : Option VersionTag)
  | remove (key : K) (updateCount : ℤ) (versionTag : Option VersionTag) (afterRemote : Bool)

namespace MapSegment

open MapEntry MapEntryImpl CacheValue

variable {K V D M : Type*} [DecidableEq K]

/-- Every key is bound as before, and the same tombstones are listed. -/
structure SameEntries (s t : MapSegment K V) : Prop where
  binding : ∀ k, t.binding k = s.binding k
  tombstones : t.tombstones = s.tombstones

section

variable (region : Region K V D M) (s : MapSegment K V)

/-- A call of one of the operations. -/
def call (outs : OutParams V) : EntryCall K V D → CallResult K V
  | .store call => s.store region outs call
  | .invalidate key versionTag => s.invalidate region key outs versionTag
  | .remove key updateCount versionTag afterRemote =>
    s.remove region key outs updateCount versionTag afterRemote

/-- The entry is built anew with the tracker that is given back. -/
def Rebuilds : MapEntry → Prop
  | .impl id => (s.heap id).numTrackers ≠ 0
  | .tracked _ => False

/-- What the tracker takes with it is more than a count. -/
def Spoils (entry : MapEntry) : Prop :=
  s.Drops entry ∨ s.Rebuilds entry ∧
    ¬ ((s.heap entry.target).value = .null ∧ (s.heap entry.target).versionStamp = {})

/-- A delta is applied in place and fails after it has changed the object. -/
def SpoiledBy (value : CacheValue V) (delta : Option D) : Prop :=
  region.cloningEnabled = false ∧ ∃ v d, value = .object v ∧ delta = some d ∧
    (region.fromDelta v d).2 = false ∧ (region.fromDelta v d).1 ≠ v

/-- A tracked operation that finds its entry updated gives back a tracker that spoils it, or a delta
spoils the value of an entry that is not tracked. -/
def SpoilsStored (entry : MapEntry) (updateCount : ℤ) (delta : Option D) : Prop :=
  updateCount ≥ 0 ∧ s.concurrencyChecksEnabled = false ∧ s.Spoils entry ∨
    (updateCount < 0 ∨ s.concurrencyChecksEnabled = true) ∧
      SpoiledBy region (s.heap entry.target).value delta

/-- A call that leaves its traces if it fails: without concurrency checks one that finds a tombstone
or an entry that the tracker spoils, and every `remove`; and a delta of an accepted version that
spoils the value. -/
def Traces : EntryCall K V D → Prop
  | .store (.create key _ updateCount _ _) => s.concurrencyChecksEnabled = false ∧
      ∃ entry, s.map.lookup key = some entry ∧ (entry.getValue s.heap = .tombstone ∨
        entry.getValue s.heap = .null ∧ updateCount ≥ 0 ∧ s.Spoils entry)
  | .store (.put key _ updateCount _ versionTag delta) =>
      ∃ entry, s.map.lookup key = some entry ∧
        (entry.getValue s.heap = .tombstone ∧ s.concurrencyChecksEnabled = false ∨
          entry.getValue s.heap ≠ .tombstone ∧
            (s.checkVersion region entry.target versionTag delta.isSome).toBool = true ∧
            s.SpoilsStored region entry updateCount delta)
  | .invalidate _ _ => False
  | .remove _ _ _ _ => s.concurrencyChecksEnabled = false

end

section

variable {region : Region K V D M} {s : MapSegment K V} {k : K} {entry : MapEntry}
  {err : GfErrType} {newValue : CacheValue V} {updateCount destroyTracker : ℤ}
  {versionTag : Option VersionTag} {stamp : VersionStamp} {delta : Option D} {outs : OutParams V}
  {isSlot : Bool}

/-- Nothing has changed. -/
lemma sameEntries_refl (s : MapSegment K V) : s.SameEntries s := ⟨fun _ => rfl, rfl⟩

/-- A key that was bound and is no more is not bound as before. -/
lemma not_sameEntries_of_unbound {t : MapSegment K V} (hk : s.map.lookup k = some entry)
    (ht : t.map.lookup k = none) : ¬ s.SameEntries t := by
  intro h
  have hbk := h.binding k
  simp [binding, hk, ht] at hbk

/-! ## Giving a tracker back -/

/-- Giving a tracker back touches no other key; the heap is that of the entry's method. -/
lemma removeTracker_frame (hoff : s.concurrencyChecksEnabled = false) (k : K) (entry : MapEntry)
    (entryImpl : ObjId) :
    let t := s.removeTracker k entry entryImpl
    t.tombstones = s.tombstones ∧ (∀ k', k' ≠ k → t.map.lookup k' = s.map.lookup k') ∧
      t.heap = (entry.removeTracker s.heap).heap := by
  have hstore (s : MapSegment K V) (self : MapEntry) :
      (s.storeSelf k self).tombstones = s.tombstones ∧
      (∀ k', k' ≠ k → (s.storeSelf k self).map.lookup k' = s.map.lookup k') ∧
      (s.storeSelf k self).heap = s.heap := by
    cases self with
    | impl => exact ⟨rfl, fun _ _ => rfl, rfl⟩
    | tracked => exact ⟨rfl, fun k' hk' => by simp [storeSelf, bind, hk'], rfl⟩
  obtain ⟨htombs, hlookup, hheap⟩ := hstore
    { s with heap := (entry.removeTracker s.heap).heap } (entry.removeTracker s.heap).self
  dsimp only
  unfold removeTracker
  rw [if_neg (by simp [hoff])]
  dsimp only
  split_ifs
  · exact ⟨htombs, fun k' hk' => by rw [← hlookup k' hk']; simp [unbind, hk'], hheap⟩
  · exact ⟨htombs, fun k' hk' => by rw [← hlookup k' hk']; simp [bind, hk'], hheap⟩
  · exact ⟨htombs, hlookup, hheap⟩

omit [DecidableEq K] in
/-- What the heap loses with a tracker. -/
lemma removeTracker_heap (s : MapSegment K V) (entry : MapEntry) :
    (s.Rebuilds entry → ∃ n u, (entry.removeTracker s.heap).heap =
      Function.update s.heap entry.target (.placementNew n u)) ∧
    (¬ s.Rebuilds entry → (entry.removeTracker s.heap).heap = s.heap) := by
  cases entry with
  | impl id =>
    simp only [MapEntry.removeTracker, Rebuilds, target]
    split_ifs with hzero hone
    · exact ⟨fun h => absurd hzero h, fun _ => rfl⟩
    · exact ⟨fun _ => ⟨_, _, rfl⟩, fun h => absurd hzero h⟩
    · exact ⟨fun _ => ⟨_, _, rfl⟩, fun h => absurd hzero h⟩
  | tracked e =>
    simp only [MapEntry.removeTracker, Rebuilds]
    refine ⟨False.elim, fun _ => ?_⟩
    split_ifs <;> rfl

/-- Giving a tracker back keeps all entries exactly if it does not spoil its own. -/
lemma sameEntries_removeTracker_iff (hoff : s.concurrencyChecksEnabled = false)
    (hk : s.map.lookup k = some entry) :
    s.SameEntries (s.removeTracker k entry entry.target) ↔ ¬ s.Spoils entry := by
  obtain ⟨htombs, hother, hheap⟩ := removeTracker_frame hoff k entry entry.target
  have htarget := removeTracker_target hoff hk
  obtain ⟨hnew, hsame⟩ := removeTracker_heap s entry
  rw [← hheap] at hnew hsame
  generalize s.removeTracker k entry entry.target = t at *
  constructor
  · rintro ⟨hbinding, -⟩ hspoils
    have hbk := hbinding k
    simp only [binding, hk, Option.map_some] at hbk
    obtain ⟨e, he, hprod⟩ := Option.map_eq_some_iff.mp hbk
    simp only [Prod.mk.injEq] at hprod
    rcases hspoils with hdrops | ⟨hrebuilds, hblank⟩
    · exact htarget.mp (by simp [he, hprod.1]) hdrops
    · obtain ⟨n, u, hheap⟩ := hnew hrebuilds
      rw [hheap, hprod.1, Function.update_self] at hprod
      exact hblank ⟨hprod.2.1.symm, hprod.2.2.symm⟩
  · intro hspoils
    have hcontent : ∀ id, (t.heap id).value = (s.heap id).value ∧
        (t.heap id).versionStamp = (s.heap id).versionStamp := by
      intro id
      by_cases hrebuilds : s.Rebuilds entry
      · obtain ⟨n, u, hheap⟩ := hnew hrebuilds
        have hblank := not_not.mp fun h => hspoils (.inr ⟨hrebuilds, h⟩)
        by_cases hid : id = entry.target
        · simp [hheap, hid, hblank, placementNew]
        · simp [hheap, hid]
      · simp [hsame hrebuilds]
    refine ⟨fun k' => ?_, htombs⟩
    simp only [binding, hcontent]
    by_cases hk' : k' = k
    · subst hk'
      obtain ⟨e, he, heq⟩ := Option.map_eq_some_iff.mp (htarget.mpr fun h => hspoils (.inl h))
      simp [he, hk, heq]
    · rw [hother k' hk']

/-! ## Storing -/

/-- Writing a value keeps all entries if it is the old one. -/
lemma sameEntries_setValueI_iff (hk : s.map.lookup k = some entry) (value : CacheValue V) :
    s.SameEntries (s.setValueI entry.target value) ↔ value = (s.heap entry.target).value := by
  constructor
  · intro h
    have hbk := h.binding k
    simpa [binding, setValueI, setImpl, hk] using hbk
  · rintro rfl
    have hself : s.setValueI entry.target (s.heap entry.target).value = s := by
      simp [setValueI, setImpl]
    rw [hself]
    exact sameEntries_refl s

omit [DecidableEq K] in
/-- A delta that fails leaves the value as it was unless it spoils it. -/
lemma updatedValue_failed {entry : MapEntryImpl K V} {value : CacheValue V}
    (h : updatedValue region k entry newValue delta = (err, value)) (herr : err ≠ .noErr) :
    value = entry.value ↔ ¬ SpoiledBy region entry.value delta := by
  cases delta with
  | none => exact absurd (Prod.mk.inj h).1.symm herr
  | some d =>
    cases hv : entry.value with
    | object v =>
      simp only [updatedValue, getValueI, hv, applyDelta] at h
      cases hdelta : region.fromDelta v d with
      | mk v' ok =>
        cases ok with
        | true =>
          simp only [hdelta, Prod.mk.injEq] at h
          exact absurd h.1.symm herr
        | false =>
          simp only [hdelta, Prod.mk.injEq] at h
          cases hclone : region.cloningEnabled <;>
            simp [← h.2, SpoiledBy, hclone, hdelta]
    | overflowed =>
      simp only [updatedValue, getValueI, hv, applyDelta] at h
      refine iff_of_true ?_ (by simp [SpoiledBy])
      split at h
      · exact (Prod.mk.inj h).2.symm
      · split at h
        · exact absurd (Prod.mk.inj h).1.symm herr
        · exact (Prod.mk.inj h).2.symm
    | _ =>
      simp only [updatedValue, getValueI, hv, applyDelta, Prod.mk.injEq] at h
      exact iff_of_true h.2.symm (by simp [SpoiledBy])

/-- How storing into an entry fails: over a tracker that it gives back, or over a delta. -/
lemma putForTrackedEntry_failed (hk : s.map.lookup k = some entry)
    (hres : (putForTrackedEntry region s k newValue entry isSlot entry.target updateCount stamp
      delta).1 = .returned err) (herr : err ≠ .noErr) :
    s.SameEntries (putForTrackedEntry region s k newValue entry isSlot entry.target updateCount
      stamp delta).2 ↔ ¬ s.SpoilsStored region entry updateCount delta := by
  unfold putForTrackedEntry at hres ⊢
  by_cases hu : updateCount < 0 ∨ s.concurrencyChecksEnabled = true
  · have hspoils : s.SpoilsStored region entry updateCount delta ↔
        SpoiledBy region (s.heap entry.target).value delta := by
      refine ⟨?_, fun h => .inr ⟨hu, h⟩⟩
      rintro (⟨hcount, hoff, -⟩ | ⟨-, h⟩)
      · exact absurd hu (by simp [hoff, hcount])
      · exact h
    rw [if_pos hu] at hres ⊢
    cases hv : updatedValue region k (s.heap entry.target) newValue delta with
    | mk err' value =>
      simp only [hv] at hres ⊢
      by_cases herr' : err' = .noErr
      · rw [if_neg (not_not.mpr herr')] at hres
        split at hres
        · cases hres
        · exact absurd (Outcome.returned.inj hres).symm herr
      · rw [if_pos herr', hspoils, ← updatedValue_failed hv herr']
        exact sameEntries_setValueI_iff hk value
  · have hoff : s.concurrencyChecksEnabled = false := by simp_all
    have hspoils : s.SpoilsStored region entry updateCount delta ↔ s.Spoils entry := by
      refine ⟨?_, fun h => .inl ⟨by omega, hoff, h⟩⟩
      rintro (⟨-, -, h⟩ | ⟨h, -⟩)
      · exact h
      · exact absurd h hu
    rw [if_neg hu] at hres ⊢
    split_ifs at hres ⊢
    · exact absurd (Outcome.returned.inj hres).symm herr
    · rw [hspoils]
      exact sameEntries_removeTracker_iff hoff hk

/-- A new entry is only refused without concurrency checks, and then nothing has changed. -/
lemma putNoEntry_failed {versionStamp : Option VersionStamp}
    (h : (s.putNoEntry k newValue updateCount destroyTracker versionTag versionStamp).err ≠
      .noErr) :
    s.concurrencyChecksEnabled = false ∧
      (s.putNoEntry k newValue updateCount destroyTracker versionTag versionStamp).segment = s := by
  unfold putNoEntry at h ⊢
  split_ifs at h ⊢ with hrefused
  · simp only [Bool.and_eq_true, Bool.not_eq_true'] at hrefused
    exact ⟨hrefused.1, rfl⟩
  · exact absurd rfl h

/-- A tombstone is taken away before the new entry is refused. -/
lemma removeEntry_putNoEntry_failed {versionStamp : Option VersionStamp}
    (hk : s.map.lookup k = some entry)
    (h : ((s.removeEntry k).putNoEntry k newValue updateCount destroyTracker versionTag
      versionStamp).err ≠ .noErr) :
    s.concurrencyChecksEnabled = false ∧ ¬ s.SameEntries ((s.removeEntry k).putNoEntry k newValue
      updateCount destroyTracker versionTag versionStamp).segment := by
  obtain ⟨hoff, hsegment⟩ := putNoEntry_failed h
  refine ⟨by simpa [removeEntry, unbind] using hoff, ?_⟩
  rw [hsegment]
  exact not_sameEntries_of_unbound hk (by simp [removeEntry, unbind])

/-! ## The calls -/

/-- What a failed `create` leaves. -/
lemma create_failed (hfail : (s.create region k newValue outs updateCount destroyTracker
      versionTag).outcome = .returned err) (herr : err ≠ .noErr) :
    s.SameEntries (s.create region k newValue outs updateCount destroyTracker versionTag).segment ↔
      ¬ s.Traces region (.store (.create k newValue updateCount destroyTracker versionTag)) := by
  dsimp only [Traces]
  cases hk : s.map.lookup k with
  | none =>
    simp only [create, hk] at hfail ⊢
    rw [(putNoEntry_failed (Outcome.returned.inj hfail ▸ herr)).2]
    simp [sameEntries_refl]
  | some entry =>
    simp only [Option.some.injEq, exists_eq_left']
    rcases create_bound_cases region newValue outs updateCount destroyTracker versionTag hk with
      hthrows | ⟨err', hcheck, -, hsegment⟩ | ⟨stamp, hnull, houtcome, hsegment, -⟩ |
      ⟨stamp, htomb, houtcome, hsegment, -⟩ | ⟨hnull, htomb, -, hsegment⟩
    · rw [hthrows] at hfail
      cases hfail
    · rw [hsegment]
      simp [sameEntries_refl, (checkVersion_error hcheck).1]
    · rw [houtcome] at hfail
      rw [hsegment, putForTrackedEntry_failed hk hfail herr, hnull]
      simp only [SpoilsStored, SpoiledBy, reduceCtorEq, false_and, and_false, exists_false,
        false_or, or_false, true_and]
      tauto
    · rw [houtcome, Outcome.returned.injEq] at hfail
      obtain ⟨hoff, hnot⟩ := removeEntry_putNoEntry_failed hk (hfail ▸ herr)
      rw [hsegment]
      simp [hnot, hoff, htomb]
    · rw [hsegment]
      simp [sameEntries_refl, hnull, htomb]

/-- What a failed `put` leaves. -/
lemma put_failed (hfail : (s.put region k newValue outs updateCount destroyTracker versionTag
      delta).outcome = .returned err) (herr : err ≠ .noErr) :
    s.SameEntries
      (s.put region k newValue outs updateCount destroyTracker versionTag delta).segment ↔
      ¬ s.Traces region (.store (.put k newValue updateCount destroyTracker versionTag delta)) := by
  dsimp only [Traces]
  cases hk : s.map.lookup k with
  | none =>
    simp only [put, hk] at hfail ⊢
    by_cases hdelta : delta.isSome = true
    · rw [if_pos hdelta]
      simp [sameEntries_refl]
    · rw [if_neg hdelta] at hfail ⊢
      dsimp only
      rw [(putNoEntry_failed (Outcome.returned.inj hfail ▸ herr)).2]
      simp [sameEntries_refl]
  | some entry =>
    simp only [Option.some.injEq, exists_eq_left']
    rcases put_bound_cases region newValue outs updateCount destroyTracker versionTag delta hk with
      hthrows | ⟨err', hcheck, -, hsegment⟩ | ⟨stamp, hcheck, ⟨htomb, houtcome, hsegment, -⟩ |
      ⟨htomb, houtcome, hsegment, -⟩⟩
    · rw [hthrows] at hfail
      cases hfail
    · rw [hsegment, hcheck]
      simp [sameEntries_refl, (checkVersion_error hcheck).1, Except.toBool]
    · rw [houtcome, Outcome.returned.injEq] at hfail
      obtain ⟨hoff, hnot⟩ := removeEntry_putNoEntry_failed hk (hfail ▸ herr)
      rw [hsegment]
      simp [hnot, hoff, htomb]
    · rw [houtcome] at hfail
      rw [hsegment, putForTrackedEntry_failed hk hfail herr, hcheck]
      simp [htomb, Except.toBool]

/-- A failed `invalidate` has changed nothing yet. -/
lemma invalidate_failed (hfail : (s.invalidate region k outs versionTag).outcome = .returned err)
    (herr : err ≠ .noErr) (hfound : err ≠ .cacheEntryNotFound) :
    (s.invalidate region k outs versionTag).segment = s := by
  unfold invalidate at hfail ⊢
  cases hk : s.map.lookup k with
  | none =>
    simp only [hk] at hfail ⊢
    by_cases hon : s.concurrencyChecksEnabled = true
    · rw [if_pos hon] at hfail ⊢
      split_ifs at hfail ⊢ with hput
      · exact absurd (Outcome.returned.inj hfail).symm hfound
      · exact (putNoEntry_failed hput).2
    · rw [if_neg hon]
  | some entry =>
    simp only [hk] at hfail ⊢
    split at hfail
    · rfl
    · split at hfail
      · cases hfail
      · split_ifs at hfail
        · exact absurd (Outcome.returned.inj hfail).symm hfound
        all_goals
          split at hfail
          · cases hfail
          · exact absurd (Outcome.returned.inj hfail).symm herr

/-- With concurrency checks a tombstone is stored without an error. -/
lemma putForTrackedEntry_tombstone (hon : s.concurrencyChecksEnabled = true) (entryImpl : ObjId) :
    (putForTrackedEntry region s k .tombstone entry isSlot entryImpl updateCount stamp none).1 =
      .returned .noErr := by
  simp [putForTrackedEntry, hon, updatedValue, setValueI, setStamp, setImpl, incrementUpdateCount]

/-- A removal that fails with concurrency checks has changed nothing yet. -/
lemma removeWhenConcurrencyEnabled_failed {afterRemote : Bool}
    (hon : s.concurrencyChecksEnabled = true)
    (hfail : (s.removeWhenConcurrencyEnabled region k outs updateCount versionTag
      afterRemote).outcome = .returned err) (herr : err ≠ .noErr)
    (hfound : err ≠ .cacheEntryNotFound) :
    (s.removeWhenConcurrencyEnabled region k outs updateCount versionTag afterRemote).segment =
      s := by
  have hnotFound : Outcome.returned (if afterRemote then .noErr else .cacheEntryNotFound) ≠
      .returned err := by
    intro h
    split_ifs at h
    · exact herr (Outcome.returned.inj h).symm
    · exact hfound (Outcome.returned.inj h).symm
  unfold removeWhenConcurrencyEnabled at hfail ⊢
  cases hk : s.map.lookup k with
  | none =>
    simp only [hk] at hfail
    exact absurd hfail hnotFound
  | some entry =>
    simp only [hk] at hfail ⊢
    cases himpl : entry.getImplPtr s.heap with
    | none =>
      simp only [himpl] at hfail
      cases hfail
    | some entryImpl =>
      simp only [himpl] at hfail ⊢
      cases hcheck : s.checkVersion region entryImpl versionTag false with
      | error err => rfl
      | ok stamp =>
        simp only [hcheck, putForTrackedEntry_tombstone hon] at hfail
        by_cases htomb : (s.heap entryImpl).getValueI.isTombstone = true
        · rw [if_pos htomb] at hfail
          exact absurd hfail hnotFound
        · rw [if_neg htomb] at hfail
          exact absurd (Outcome.returned.inj hfail).symm herr

/-- A removal that fails without concurrency checks has unbound the key. -/
lemma remove_failed {afterRemote : Bool}
    (hfail : (s.remove region k outs updateCount versionTag afterRemote).outcome = .returned err)
    (herr : err ≠ .noErr) (hfound : err ≠ .cacheEntryNotFound) :
    s.SameEntries (s.remove region k outs updateCount versionTag afterRemote).segment ↔
      s.concurrencyChecksEnabled = true := by
  unfold remove at hfail ⊢
  by_cases hon : s.concurrencyChecksEnabled = true
  · rw [if_pos hon] at hfail ⊢
    rw [removeWhenConcurrencyEnabled_failed hon hfail herr hfound]
    exact iff_of_true (sameEntries_refl s) hon
  · rw [if_neg hon] at hfail ⊢
    cases hk : s.map.lookup k with
    | none =>
      simp only [hk] at hfail
      exact absurd (Outcome.returned.inj hfail).symm hfound
    | some entry =>
      simp only [hk] at hfail ⊢
      have hgone : ¬ s.SameEntries (s.unbind k) :=
        not_sameEntries_of_unbound hk (by simp [unbind])
      split_ifs at hfail ⊢ with hstale
      · exact iff_of_false hgone hon
      · -- nothing else fails
        split at hfail
        · cases hfail
        · split at hfail <;> exact absurd (Outcome.returned.inj hfail).symm herr

end

/-- A failed call leaves every entry as it was, unless it is one of those that leave their
traces. -/
theorem sameEntries_iff_not_traces (region : Region K V D M) (s : MapSegment K V)
    (outs : OutParams V) (c : EntryCall K V D) {err : GfErrType}
    (hfail : (s.call region outs c).outcome = .returned err) (herr : err ≠ .noErr)
    (hfound : err ≠ .cacheEntryNotFound) :
    s.SameEntries (s.call region outs c).segment ↔ ¬ s.Traces region c := by
  cases c with
  | store c =>
    cases c with
    | create => exact create_failed hfail herr
    | put => exact put_failed hfail herr
  | invalidate key versionTag =>
    dsimp only [call] at hfail ⊢
    rw [invalidate_failed hfail herr hfound]
    exact iff_of_true (sameEntries_refl s) id
  | remove key updateCount versionTag afterRemote =>
    dsimp only [call] at hfail ⊢
    rw [remove_failed hfail herr hfound]
    simp [Traces]

/-- The creation of an entry that exists. -/
theorem sameEntries_iff_not_traces_exists :
    let s := single true (.object ())
    let c : EntryCall Unit Unit Unit := .store (.create () .null 0 0 none)
    (s.call unitRegion {} c).outcome = .returned .cacheEntryExists ∧
      (s.SameEntries (s.call unitRegion {} c).segment ↔ ¬ s.Traces unitRegion c) :=
  ⟨rfl, sameEntries_iff_not_traces _ _ _ _ rfl (by decide) (by decide)⟩

/-- A removal whose entry was updated meanwhile fails, and its key is unbound. -/
theorem not_sameEntries_staleRemove :
    let s := single false (.object ())
    let c : EntryCall Unit Unit Unit := .remove () 1 none false
    (s.call unitRegion {} c).outcome = .returned .cacheEntryUpdated ∧
      ¬ s.SameEntries (s.call unitRegion {} c).segment :=
  ⟨rfl, fun h => by have hbound := h.binding (); cases hbound⟩

end MapSegment

end GeodeNative
