import GeodeNative.Cache.Tombstones

/-!
# The slot of a key without concurrency checks

A key that no operation ever tracked is free or bound to a plain entry. The first
tracker builds the entry anew in place; what is left has no key, no value and no owner,
and every call that asks it for a pointer to itself throws. For each of the three
states of a slot the lemmas below say what each call does to it.
-/

namespace GeodeNative

namespace MapSegment

variable {K V D M : Type*} [DecidableEq K]

/-- The key is not bound. -/
structure Free (s : MapSegment K V) (k : K) : Prop where
  disabled : s.concurrencyChecksEnabled = false
  unbound : s.map.lookup k = none

/-- The key is bound to an entry that was never tracked. -/
structure Untracked (s : MapSegment K V) (k : K) : Prop where
  disabled : s.concurrencyChecksEnabled = false
  bound : ∃ id, s.map.lookup k = some (.impl id) ∧ (s.heap id).IsPlain k ∧
    (s.heap id).value ≠ .tombstone

/-- The key is bound to an entry that was tracked: the object was built anew in place, and
`shared_from_this` throws on it. -/
structure Spoiled (s : MapSegment K V) (k : K) : Prop where
  disabled : s.concurrencyChecksEnabled = false
  bound : ∃ id, s.map.lookup k = some (.impl id) ∧ (s.heap id).weakThis = false

section Slots

variable {region : Region K V D M} {s : MapSegment K V} {k : K} {id : ObjId} {newValue : NewValue V}
  {outs : OutParams V} {updateCount : ℤ} {versionTag : Option VersionTag} {incUpdateCount : Bool}
  {entry : MapEntryImpl K V} {delta : Option D}

section

variable (h : s.Free k)

include h

lemma Free.not_spoiled : ¬ s.Spoiled k := by
  rintro ⟨-, _, hk, -⟩
  rw [h.unbound] at hk
  cases hk

lemma Free.entryAt_eq : s.entryAt k = none := entryAt_eq_none_iff.mpr h.unbound

/-- Tracking a free slot binds it to a spoiled entry. -/
lemma Free.addTrackerForEntry (failIfPresent incUpdateCount : Bool) :
    (s.addTrackerForEntry k .null true failIfPresent incUpdateCount).segment.Spoiled k := by
  rw [addTrackerForEntry_of_unbound h.disabled h.unbound]
  exact ⟨h.disabled, s.nextObj, AList.lookup_insert s.map,
    by simp [bindNew, trackedEntry, MapEntryImpl.placementNew]⟩

end

lemma Untracked.not_spoiled (h : s.Untracked k) : ¬ s.Spoiled k := by
  rintro ⟨-, _, hk, hweak⟩
  obtain ⟨_, hk', hp, -⟩ := h.bound
  rw [hk] at hk'
  cases hk'
  rw [hp.weakThis_eq] at hweak
  cases hweak

/-! ### A free key -/

lemma Free.not_refused (hu : updateCount < 0) : ¬ s.Refused k updateCount 0 := by
  simp [Refused, destroyedSince, hu]

section

variable (h : s.Free k)

include h

lemma Free.bindNew_untracked (he : entry.IsPlain k)
    (hv : entry.value ≠ .tombstone) : (s.bindNew k entry).Untracked k where
  __ := h
  bound := ⟨s.nextObj, AList.lookup_insert s.map, by simpa [bindNew] using he,
    by simpa [bindNew] using hv⟩

/-- A put to a free slot makes an untracked entry. -/
lemma Free.put_untracked (hu : updateCount < 0) :
    (s.put region k newValue.toCacheValue outs updateCount 0 versionTag none).segment.Untracked
      k := by
  rw [put_of_unbound h.unbound (Free.not_refused hu)]
  exact h.bindNew_untracked isPlain_storedEntry newValue.toCacheValue_ne_tombstone

lemma Free.create_untracked (hu : updateCount < 0) :
    (s.create region k newValue.toCacheValue outs updateCount 0 versionTag).segment.Untracked
      k := by
  rw [create_of_unbound h.unbound (Free.not_refused hu)]
  exact h.bindNew_untracked isPlain_storedEntry newValue.toCacheValue_ne_tombstone

lemma Free.put_delta {delta : D} :
    s.put region k newValue.toCacheValue outs updateCount 0 versionTag (some delta) =
      ⟨.returned .invalidDelta, outs, s⟩ := by
  simp [put, h.unbound]

lemma Free.invalidate :
    s.invalidate region k {} versionTag = ⟨.returned .cacheEntryNotFound, {}, s⟩ := by
  simp [MapSegment.invalidate, h.unbound, h.disabled]

lemma Free.removeTrackerForEntry : s.removeTrackerForEntry k = (true, s) := by
  simp [MapSegment.removeTrackerForEntry, h.unbound]

end

/-- After a remove the key is free, whatever it was bound to. -/
lemma free_remove (hoff : s.concurrencyChecksEnabled = false) {afterRemote : Bool} :
    (s.remove region k outs updateCount versionTag afterRemote).segment.Free k := by
  have hunbind : (s.unbind k).Free k := ⟨hoff, AList.lookup_erase k s.map⟩
  unfold remove
  rw [if_neg (by simp [hoff])]
  cases hk : s.map.lookup k with
  | none =>
    by_cases hnum : s.numDestroyTrackers > 0
    · simp only [hnum]
      exact ⟨hoff, hk⟩
    · simp only [hnum]
      exact ⟨hoff, hk⟩
  | some =>
    dsimp only
    split
    · exact hunbind
    · split
      · exact hunbind
      · split <;> exact hunbind

/-! ### A spoiled entry -/

section

variable (h : s.Spoiled k)

include h

/-- `shared_from_this` throws on the entry of a spoiled slot. -/
lemma Spoiled.getImplPtr :
    ∃ id, s.map.lookup k = some (.impl id) ∧ (MapEntry.impl id).getImplPtr s.heap = none := by
  obtain ⟨id, hk, hweak⟩ := h.bound
  exact ⟨id, hk, by simp [MapEntry.getImplPtr, hweak]⟩

/-- Every put to a spoiled slot ends in an exception. -/
lemma Spoiled.put : s.put region k newValue.toCacheValue outs updateCount 0 versionTag delta =
      ⟨.badWeakPtr, outs, s⟩ := by
  obtain ⟨_, hk, hptr⟩ := h.getImplPtr
  simp [MapSegment.put, hk, hptr]

lemma Spoiled.create : s.create region k newValue.toCacheValue outs updateCount 0 versionTag =
      ⟨.badWeakPtr, outs, s⟩ := by
  obtain ⟨_, hk, hptr⟩ := h.getImplPtr
  simp [MapSegment.create, hk, hptr]

lemma Spoiled.invalidate : s.invalidate region k {} versionTag = ⟨.badWeakPtr, {}, s⟩ := by
  obtain ⟨_, hk, hptr⟩ := h.getImplPtr
  simp [MapSegment.invalidate, hk, hptr, checkVersion, h.disabled]

lemma Spoiled.removeTrackerForEntry : s.removeTrackerForEntry k = (false, s) := by
  obtain ⟨_, hk, hptr⟩ := h.getImplPtr
  simp [MapSegment.removeTrackerForEntry, hk, hptr, h.disabled]

end

/-! ### An entry that was never tracked -/

omit [DecidableEq K] in
lemma checkVersion_of_disabled (hoff : s.concurrencyChecksEnabled = false) (deltaCheck : Bool) :
    s.checkVersion region id versionTag deltaCheck = .ok {} := by
  simp [checkVersion, hoff]

section

variable (h : s.Untracked k)

include h

lemma Untracked.setImpl (hk : s.map.lookup k = some (.impl id)) (he : entry.IsPlain k)
    (hv : entry.value ≠ .tombstone) :
    (s.setImpl id entry).Untracked k where
  __ := h
  bound := ⟨id, hk, by simpa [MapSegment.setImpl] using he, by simpa [MapSegment.setImpl] using hv⟩

/-- Storing without a tracker keeps the entry untracked. -/
lemma Untracked.putForTrackedEntry (hk : s.map.lookup k = some (.impl id))
    (hp : (s.heap id).IsPlain k) (ht : (s.heap id).value ≠ .tombstone) (hu : updateCount < 0)
    (delta : Option D) :
    (putForTrackedEntry region s k newValue.toCacheValue (.impl id) true id updateCount {}
      delta).2.Untracked k := by
  obtain ⟨err, value, hv⟩ :
      ∃ err value, updatedValue region k (s.heap id) newValue.toCacheValue delta = (err, value) :=
    ⟨_, _, rfl⟩
  have hvalue := updatedValue_ne_tombstone region k ht newValue.toCacheValue_ne_tombstone delta
  rw [hv] at hvalue
  have hset : (s.setValueI id value).Untracked k := h.setImpl hk (hp.update _ _) hvalue
  rw [putForTrackedEntry_untracked hp (.inl hu) hv]
  simp only [h.disabled]
  split <;> exact hset

/-- A put keeps the slot untracked. -/
lemma Untracked.put (hu : updateCount < 0) :
    (s.put region k newValue.toCacheValue outs updateCount 0 versionTag delta).segment.Untracked
      k := by
  obtain ⟨_, hk, hp, ht⟩ := h.bound
  rw [put_of_live hk hp delta (checkVersion_of_disabled h.disabled _) ht rfl]
  split <;> exact h.putForTrackedEntry hk hp ht hu delta

lemma Untracked.create (hu : updateCount < 0) :
    (s.create region k newValue.toCacheValue outs updateCount 0 versionTag).segment.Untracked
      k := by
  obtain ⟨id, hk, hp, ht⟩ := h.bound
  by_cases hnull : (s.heap id).getValueI = .null
  · rw [create_of_null hk hp hnull (checkVersion_of_disabled h.disabled _) rfl]
    exact h.putForTrackedEntry hk hp ht hu none
  · rw [create_of_value hk hp hnull (mt MapEntryImpl.getValueI_eq_tombstone_iff.mp ht)]
    exact h

lemma Untracked.invalidate : (s.invalidate region k outs versionTag).segment.Untracked k := by
  obtain ⟨_, hk, hp, ht⟩ := h.bound
  rw [invalidate_of_live hk hp (checkVersion_of_disabled h.disabled _) ht]
  exact h.setImpl hk (hp.update _ _) (by simp)

lemma Untracked.removeTrackerForEntry :
    (s.removeTrackerForEntry k).2.Untracked k ∨ (s.removeTrackerForEntry k).2.Free k := by
  obtain ⟨id, hk, hp, _⟩ := h.bound
  have hrel : (s.removeTrackerForEntry k).2 = s.removeTracker k (.impl id) id := by
    simp [MapSegment.removeTrackerForEntry, h.disabled, hk, getImplPtr_of_isPlain hp]
  rw [hrel, removeTracker_of_isPlain h.disabled hp]
  split
  · exact .inr ⟨h.disabled, AList.lookup_erase k s.map⟩
  · exact .inl h

end

/-! ### Adding a tracker -/

/-- A `create` does not track a key that is bound. -/
lemma addTrackerForEntry_of_failIfPresent (hoff : s.concurrencyChecksEnabled = false)
    (hk : s.map.lookup k = some (.impl id)) {addIfAbsent : Bool} :
    s.addTrackerForEntry k .null addIfAbsent true incUpdateCount =
      ⟨some (-1), (s.heap id).getValueI, s⟩ := by
  simp [addTrackerForEntry, hoff, hk, MapEntry.getValue, MapEntry.target]

/-- Tracking an untracked entry spoils its slot. -/
lemma Untracked.addTrackerForEntry (h : s.Untracked k) (incUpdateCount : Bool) :
    (s.addTrackerForEntry k .null true false incUpdateCount).segment.Spoiled k := by
  obtain ⟨id, hk, hp, -⟩ := h.bound
  rw [addTrackerForEntry_of_isPlain h.disabled hk hp]
  exact ⟨h.disabled, id, hk, by simp [MapSegment.setImpl, trackedEntry, MapEntryImpl.placementNew]⟩

/-- A further tracker leaves the entry spoiled, also where it throws for want of a wrapper. -/
lemma Spoiled.addTrackerForEntry (h : s.Spoiled k) :
    (s.addTrackerForEntry k .null true false incUpdateCount).segment.Spoiled k := by
  obtain ⟨id, hk, hweak⟩ := h.bound
  have hnew : ∀ n u, (s.setImpl id (.placementNew n u)).Spoiled k :=
    fun n u => ⟨h.disabled, id, hk, by simp [setImpl, MapEntryImpl.placementNew]⟩
  rw [addTrackerForEntry_of_bound h.disabled hk]
  by_cases hmax : (s.heap id).numTrackers = gfTrackMax
  · simpa [trackEntry, MapEntry.addTracker, hmax, hweak] using h
  · rw [trackEntry_of_room hmax]
    dsimp only
    split
    · exact hnew _ _
    · exact hnew _ _

end Slots

end MapSegment

end GeodeNative
