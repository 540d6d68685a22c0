import GeodeNative.Cache.KeyAccounting

/-!
# The slots of a segment

The queue of recently used entries refers to entry objects, so what a call does to a segment
has to be known with the object that a key is bound to. The *slot* of a key is that object
with its value.

A segment is *orderly* if no bound entry is without a value. From an orderly segment every
operation changes the slot of its key alone, and what it returns tells how; the lemmas below
say so for the values that a cache stores.
-/

namespace GeodeNative

open MapEntry

namespace MapSegment

variable {K V D M : Type*} [DecidableEq K] {id : ObjId} {entry : MapEntryImpl K V}

/-- The object that a key is bound to, with its value. -/
def slot (s : MapSegment K V) (k : K) : Option (ObjId × CacheValue V) :=
  (s.map.lookup k).map fun entry => (entry.target, (s.heap entry.target).value)

/-- Every entry is plain and holds a value or a token other than the destroyed one; without
concurrency checks none is a tombstone. -/
structure Orderly (s : MapSegment K V) : Prop where
  regular : s.Regular
  stored : ∀ k id value, s.slot k = some (id, value) → value ≠ .null ∧ value ≠ .destroyed

/-- `t` is `s` with the slot of at most one key changed. -/
structure SlotEffect (s t : MapSegment K V) (k : K) : Prop where
  orderly : t.Orderly
  enabled : t.concurrencyChecksEnabled = s.concurrencyChecksEnabled
  frame : ∀ k', k' ≠ k → t.slot k' = s.slot k'

/-- Two slots are the same up to the object of the application. -/
def SameKind (a b : Option (ObjId × CacheValue V)) : Prop :=
  a = b ∨ ∃ id v w, a = some (id, .object v) ∧ b = some (id, .object w)

section Slots

variable {s t u : MapSegment K V} {k k' : K} {value : CacheValue V}

lemma slot_of_lookup (hk : s.map.lookup k = some (.impl id)) :
    s.slot k = some (id, (s.heap id).value) := by
  rw [slot, hk]
  rfl

/-- Two effects on one slot are one effect. -/
lemma SlotEffect.trans (h₁ : SlotEffect s t k) (h₂ : SlotEffect t u k) : SlotEffect s u k :=
  ⟨h₂.orderly, h₂.enabled.trans h₁.enabled, fun k' hk' => (h₂.frame k' hk').trans (h₁.frame k' hk')⟩

/-! ## Elementary updates -/

@[simp] lemma slot_eraseTombstone (s : MapSegment K V) (k k' : K) :
    (s.eraseTombstone k).slot k' = s.slot k' := by
  simp [slot]

@[simp] lemma slot_addTombstone (s : MapSegment K V) (id : ObjId) (k' : K) :
    (s.addTombstone id).slot k' = s.slot k' := by
  simp [slot]

lemma SlotEffect.eraseTombstone (h : SlotEffect s t k) (k' : K) :
    SlotEffect s (t.eraseTombstone k') k where
  orderly := ⟨((KeyEffect.refl h.orderly.regular k).eraseTombstone k').regular,
    by simpa using h.orderly.stored⟩
  enabled := by simpa using h.enabled
  frame := by simpa using h.frame

lemma SlotEffect.addTombstone (h : SlotEffect s t k) (id : ObjId) :
    SlotEffect s (t.addTombstone id) k where
  orderly := ⟨((KeyEffect.refl h.orderly.regular k).addTombstone).regular,
    by simpa using h.orderly.stored⟩
  enabled := by simpa using h.enabled
  frame := by simpa using h.frame

variable (hs : s.Orderly)

include hs

/-- A key of an orderly segment is unbound or bound to a plain entry that has a value. -/
lemma Orderly.cases (k : K) : s.map.lookup k = none ∧ s.slot k = none ∨
      ∃ id, s.map.lookup k = some (.impl id) ∧ (s.heap id).IsPlain k ∧ id < s.nextObj ∧
        s.slot k = some (id, (s.heap id).value) ∧
        (s.heap id).getValueI = (s.heap id).value ∧ (s.heap id).value ≠ .null := by
  rcases hs.regular.plain.cases k with hk | ⟨id, hk, hlt, hp⟩
  · exact .inl ⟨hk, by rw [slot, hk]; rfl⟩
  · have hslot := slot_of_lookup hk
    obtain ⟨hnull, hdestroyed⟩ := hs.stored k id _ hslot
    refine .inr ⟨id, hk, hp, hlt, hslot, ?_, hnull⟩
    unfold MapEntryImpl.getValueI
    split
    · exact absurd ‹_› hdestroyed
    · rfl

lemma Orderly.lookup_of_slot (hk : s.slot k = some (id, value)) :
    s.map.lookup k = some (.impl id) ∧ (s.heap id).IsPlain k ∧ id < s.nextObj ∧
      (s.heap id).value = value ∧ (s.heap id).getValueI = value := by
  rcases hs.cases k with ⟨-, hslot⟩ | ⟨_, hk', hp, hlt, hslot, hget, -⟩
  · rw [hslot] at hk
    cases hk
  · rw [hslot] at hk
    obtain ⟨rfl, rfl⟩ := hk
    exact ⟨hk', hp, hlt, rfl, hget⟩

/-- Distinct keys are bound to distinct objects. -/
lemma Orderly.injective {value' : CacheValue V}
    (hk : s.slot k = some (id, value)) (hk' : s.slot k' = some (id, value')) : k = k' :=
  hs.regular.plain.injective (hs.lookup_of_slot hk).1 (hs.lookup_of_slot hk').1

lemma SlotEffect.refl (k : K) : SlotEffect s s k := ⟨hs, rfl, fun _ _ => rfl⟩

/-- What has to be checked of an update that is known to keep the segment regular. -/
lemma KeyEffect.slotEffect (h : KeyEffect s t k) (hframe : ∀ k', k' ≠ k → t.slot k' = s.slot k')
    (hk : ∀ id value, t.slot k = some (id, value) → value ≠ .null ∧ value ≠ .destroyed) :
    SlotEffect s t k := by
  refine ⟨⟨h.regular, ?_⟩, h.enabled, hframe⟩
  intro k' id value hslot
  by_cases hne : k' = k
  · exact hk id value (hne ▸ hslot)
  · exact hs.stored k' id value ((hframe k' hne).symm.trans hslot)

lemma slotEffect_bindNew (he : entry.IsPlain k)
    (hv : s.concurrencyChecksEnabled = false → entry.value ≠ .tombstone)
    (hstored : entry.value ≠ .null ∧ entry.value ≠ .destroyed) :
    SlotEffect s (s.bindNew k entry) k ∧
      (s.bindNew k entry).slot k = some (s.nextObj, entry.value) := by
  have hslot : (s.bindNew k entry).slot k = some (s.nextObj, entry.value) := by
    simp [slot, bindNew, target]
  refine ⟨(keyEffect_bindNew hs.regular he hv).slotEffect hs ?_ ?_, hslot⟩
  · intro k' hne
    rcases hs.cases k' with ⟨hk', hslot'⟩ | ⟨_, hk', -, hlt, hslot', -⟩
    · rw [hslot']
      simp [slot, bindNew, AList.lookup_insert_ne hne, hk']
    · rw [hslot']
      simp [slot, bindNew, AList.lookup_insert_ne hne, hk', target, Function.update_of_ne hlt.ne]
  · intro _ _ h
    rw [hslot, Option.some_inj, Prod.mk.injEq] at h
    exact h.2 ▸ hstored

lemma slotEffect_setImpl (hk : s.map.lookup k = some (.impl id))
    (he : entry.IsPlain k) (hv : s.concurrencyChecksEnabled = false → entry.value ≠ .tombstone)
    (hstored : entry.value ≠ .null ∧ entry.value ≠ .destroyed) :
    SlotEffect s (s.setImpl id entry) k ∧ (s.setImpl id entry).slot k = some (id, entry.value) := by
  have hslot : (s.setImpl id entry).slot k = some (id, entry.value) := by
    simp [slot, setImpl, hk, target]
  refine ⟨(keyEffect_setImpl hs.regular hk he hv).slotEffect hs ?_ ?_, hslot⟩
  · intro k' hne
    rcases hs.cases k' with ⟨hk', hslot'⟩ | ⟨id', hk', -, -, hslot', -⟩
    · rw [hslot']
      simp [slot, setImpl, hk']
    · have hid : id' ≠ id := by
        rintro rfl
        exact hne (hs.regular.plain.injective hk' hk)
      simp [slot, setImpl, hk', target, Function.update_of_ne hid]
  · intro _ _ h
    rw [hslot, Option.some_inj, Prod.mk.injEq] at h
    exact h.2 ▸ hstored

lemma slotEffect_unbind (k : K) : SlotEffect s (s.unbind k) k ∧ (s.unbind k).slot k = none := by
  have hslot : (s.unbind k).slot k = none := by simp [slot, unbind]
  refine ⟨(keyEffect_unbind hs.regular).slotEffect hs ?_ ?_, hslot⟩
  · intro _ hne
    simp [slot, unbind, AList.lookup_erase_ne hne]
  · intro _ _ h
    rw [hslot] at h
    cases h

lemma slotEffect_removeEntry (k : K) : SlotEffect s (s.removeEntry k) k := by
  have herase := (SlotEffect.refl hs k).eraseTombstone k
  exact herase.trans (slotEffect_unbind herase.orderly k).1

/-- An object that is stored under a key that is not bound. -/
lemma slotEffect_stored (v : V) (versionTag : Option VersionTag) (stamp : Option VersionStamp) :
    let t := s.bindNew k (s.storedEntry k (.object v) versionTag stamp)
    SlotEffect s t k ∧ t.slot k = some (s.nextObj, .object v) :=
  slotEffect_bindNew hs isPlain_storedEntry (fun _ => by simp [storedEntry])
    (by simp [storedEntry])

lemma slotEffect_rebind (v : V) (versionTag : Option VersionTag) (stamp : Option VersionStamp) :
    let t := (s.removeEntry k).bindNew k (s.storedEntry k (.object v) versionTag stamp)
    SlotEffect s t k ∧ t.slot k = some (s.nextObj, .object v) := by
  have hremove := slotEffect_removeEntry hs k
  obtain ⟨hbind, hslot⟩ := slotEffect_bindNew hremove.orderly
    (isPlain_storedEntry : (s.storedEntry k (.object v) versionTag stamp).IsPlain k)
    (fun _ => by simp [storedEntry]) (by simp [storedEntry])
  refine ⟨hremove.trans hbind, ?_⟩
  rw [hslot]
  simp [removeEntry, unbind, storedEntry]

end Slots

/-! ## The operations -/

section Operations

variable (region : Region K V D M) {s : MapSegment K V} {k : K} (outs : OutParams V)
  (updateCount destroyTracker : ℤ) (versionTag : Option VersionTag)

lemma getEntry_of_slot (hs : s.Orderly) {v : V} (hk : s.slot k = some (id, .object v)) :
    s.getEntry k = some (some (id, .object v)) := by
  obtain ⟨hlookup, hp, -, -, hget⟩ := hs.lookup_of_slot hk
  simp [getEntry, hlookup, getImplPtr_of_isPlain hp, hget]

/-- A slot is empty for a reader, or it has a value to show. -/
lemma getEntry_cases (hs : s.Orderly) (k : K) : s.getEntry k = some none ∨
      ∃ id value, s.slot k = some (id, value) ∧ value ≠ .tombstone ∧
        s.getEntry k = some (some (id, value)) := by
  rcases hs.cases k with ⟨hk, -⟩ | ⟨id, hk, hp, -, hslot, hget, _⟩
  · exact .inl (by simp [getEntry, hk])
  · by_cases ht : (s.heap id).value = .tombstone
    · exact .inl (by simp [getEntry, hk, getImplPtr_of_isPlain hp, hget, ht])
    · refine .inr ⟨id, _, hslot, ht, ?_⟩
      simp only [getEntry, hk, getImplPtr_of_isPlain hp, hget]

/-- How a call that stores an object ends: the key is bound to a new object, the object of the
key gets the value, or the call fails and leaves the kind of the slot. -/
inductive Stores (s : MapSegment K V) (k : K) (outs : OutParams V) (result : CallResult K V) : Prop
  | bound (v : V) : result.outcome = .returned .noErr → result.outs.oldValue = outs.oldValue →
      result.outs.isUpdate = false → (s.slot k = none ∨ ∃ id, s.slot k = some (id, .tombstone)) →
      result.segment.slot k = some (s.nextObj, .object v) → Stores s k outs result
  | updated (id : ObjId) (old : CacheValue V) (v : V) : result.outcome = .returned .noErr →
      result.outs.oldValue = old → result.outs.isUpdate = true → result.outs.me = some id →
      s.slot k = some (id, old) → old ≠ .tombstone →
      result.segment.slot k = some (id, .object v) → Stores s k outs result
  | failed (err : GfErrType) : err ≠ .noErr → result.outcome = .returned err →
      SameKind (s.slot k) (result.segment.slot k) → Stores s k outs result

/-- With concurrency checks, which a tombstone shows, nothing keeps a key from being bound. -/
lemma not_refused_removeEntry (hs : s.Orderly) (hk : s.map.lookup k = some (.impl id))
    (ht : (s.heap id).value = .tombstone) :
    ¬ (s.removeEntry k).Refused k updateCount destroyTracker := by
  have hon := hs.regular.enabled_of_tombstone hk ht
  exact not_refused_of_enabled ((slotEffect_removeEntry hs k).enabled.trans hon)

/-- By the cases of `create`. -/
lemma create_stores (hs : s.Orderly) (v : V) :
    let result := s.create region k (.object v) {} updateCount destroyTracker versionTag
    SlotEffect s result.segment k ∧ Stores s k {} result ∧ result.outs.isUpdate = false := by
  rcases hs.cases k with ⟨hk, hslot⟩ | ⟨id, hk, hp, -, hslot, hget, hnull⟩
  · by_cases href : s.Refused k updateCount destroyTracker
    · rw [create_of_refused hk href]
      exact ⟨.refl hs k, .failed .cacheEntryUpdated (by decide) rfl (.inl rfl), rfl⟩
    · obtain ⟨heffect, hnew⟩ := slotEffect_stored (k := k) hs v versionTag none
      rw [create_of_unbound hk href]
      exact ⟨heffect, .bound v rfl rfl rfl (.inl hslot) hnew, rfl⟩
  · by_cases ht : (s.heap id).value = .tombstone
    · cases hc : s.checkVersion region id versionTag false with
      | error err =>
        rw [create_of_conflict hk hp (.inr (hget.trans ht)) hc]
        exact ⟨.refl hs k, .failed err (ne_noErr_of_error region hc) rfl (.inl rfl), rfl⟩
      | ok stamp =>
        obtain ⟨heffect, hnew⟩ := slotEffect_rebind hs v versionTag stamp
        rw [create_of_tombstone hk hp ht hc
          (not_refused_removeEntry updateCount destroyTracker hs hk ht)]
        exact ⟨heffect, .bound v rfl rfl rfl (.inr ⟨id, ht ▸ hslot⟩) hnew, rfl⟩
    · rw [create_of_value hk hp (hget ▸ hnull) (hget ▸ ht)]
      exact ⟨.refl hs k, .failed .cacheEntryExists (by decide) rfl (.inl rfl), rfl⟩

variable {newValue : CacheValue V} {delta : Option D}

/-- A put stores an object: it is given one, or a delta that is applied to the entry. -/
def PutsObject (s : MapSegment K V) (key : K) (newValue : CacheValue V) (updateCount : ℤ)
    (delta : Option D) : Prop :=
  (∃ v, newValue = .object v) ∨
    newValue = .null ∧ delta.isSome ∧ ¬ s.Tracked updateCount ∧ ¬ s.HoldsTombstone key

section

omit [DecidableEq K]

/-- What an untracked put stores in an entry that has a value: an object, or, if the delta
fails, something of the kind that was there. -/
lemma updatedValue_cases (hget : entry.getValueI = entry.value) (hnull : entry.value ≠ .null)
    (hnew : (∃ v, newValue = .object v) ∨ delta.isSome) :
    (∃ v, updatedValue region k entry newValue delta = (.noErr, .object v)) ∨
      (∃ value, updatedValue region k entry newValue delta = (.invalidDelta, value) ∧
        (value = entry.value ∨ ∃ v w, entry.value = .object v ∧ value = .object w)) := by
  cases delta with
  | none =>
    obtain ⟨v, rfl⟩ := hnew.resolve_right (by simp)
    exact .inl ⟨v, rfl⟩
  | some delta =>
    unfold updatedValue applyDelta
    rw [hget]
    cases hvalue : entry.value with
    | null => exact absurd hvalue hnull
    | object v =>
      cases hdelta : region.fromDelta v delta with
      | mk v' applied =>
        cases applied with
        | true => exact .inl ⟨v', by simp [hdelta]⟩
        | false =>
          refine .inr ⟨.object (if region.cloningEnabled then v else v'), by simp [hdelta], ?_⟩
          exact .inr ⟨v, _, rfl, rfl⟩
    | overflowed =>
      cases region.getFromDisk k with
      | none => exact .inr ⟨.overflowed, rfl, .inl rfl⟩
      | some v =>
        cases hdelta : region.fromDelta v delta with
        | mk v' applied =>
          cases applied with
          | true => exact .inl ⟨v', by simp [hdelta]⟩
          | false => exact .inr ⟨.overflowed, by simp [hdelta], .inl rfl⟩
    | invalid => exact .inr ⟨.invalid, rfl, .inl rfl⟩
    | destroyed => exact .inr ⟨.destroyed, rfl, .inl rfl⟩
    | tombstone => exact .inr ⟨.tombstone, rfl, .inl rfl⟩

lemma PutsObject.isToken [DecidableEq K]
    (h : s.PutsObject k newValue updateCount delta) : newValue.isToken = false := by
  rcases h with ⟨v, rfl⟩ | ⟨rfl, -⟩ <;> rfl

end

variable (hs : s.Orderly)

include hs

lemma putForTrackedEntry_slot (hk : s.map.lookup k = some (.impl id))
    (hp : (s.heap id).IsPlain k) (hget : (s.heap id).getValueI = (s.heap id).value)
    (hnull : (s.heap id).value ≠ .null) (ht : (s.heap id).value ≠ .tombstone) {updateCount : ℤ}
    (hputs : s.PutsObject k newValue updateCount delta) (stamp : VersionStamp) :
    let res := putForTrackedEntry region s k newValue (.impl id) true id updateCount stamp delta
    SlotEffect s res.2 k ∧
      ((res.1 = .returned .noErr ∧ ∃ v, res.2.slot k = some (id, .object v)) ∨
        (∃ err, err ≠ .noErr ∧ res.1 = .returned err ∧ SameKind (s.slot k) (res.2.slot k))) := by
  have hslot := slot_of_lookup hk
  have hwrite : ∀ (value : CacheValue V) (stamp : VersionStamp),
      value ≠ .tombstone → value ≠ .null ∧ value ≠ .destroyed →
      SlotEffect s (s.setImpl id { s.heap id with value, versionStamp := stamp }) k ∧
        (s.setImpl id { s.heap id with value, versionStamp := stamp }).slot k = some (id, value) :=
    fun value stamp hv hstored =>
      slotEffect_setImpl hs hk (hp.update value stamp) (fun _ => hv) hstored
  by_cases htr : s.Tracked updateCount
  · obtain ⟨hu, hoff⟩ := htr
    rw [putForTrackedEntry_tracked hp hoff hu]
    by_cases hzero : updateCount = 0
    · -- a tracked call does not look at the delta
      obtain ⟨v, rfl⟩ := hputs.resolve_right fun h => h.2.2.1 ⟨hu, hoff⟩
      obtain ⟨heffect, hafter⟩ := hwrite (.object v) (s.heap id).versionStamp (by simp) (by simp)
      have hplain : ((s.setValueI id (.object v)).heap id).IsPlain k := by
        simpa [setValueI, setImpl] using hp.update (.object v) (s.heap id).versionStamp
      have hrelease : (s.setValueI id (.object v)).removeTracker k (.impl id) id =
          s.setValueI id (.object v) := by
        have hoff' : (s.setValueI id (.object v)).concurrencyChecksEnabled = false := hoff
        rw [removeTracker_of_isPlain hoff' hplain]
        simp [setValueI, setImpl, MapEntryImpl.getValueI]
      simp only [if_pos hzero, hrelease]
      exact ⟨heffect, .inl ⟨trivial, v, hafter⟩⟩
    · have hrelease : s.removeTracker k (.impl id) id = s := by
        rw [removeTracker_of_isPlain hoff hp, if_neg]
        simpa [hget] using hnull
      simp only [if_neg hzero, hrelease]
      exact ⟨.refl hs k, .inr ⟨_, by decide, rfl, .inl rfl⟩⟩
  · have hnew : (∃ v, newValue = .object v) ∨ delta.isSome = true := hputs.imp_right fun h => h.2.1
    rcases updatedValue_cases region (k := k) hget hnull hnew with ⟨v, hv⟩ | ⟨value, hv, hkind⟩
    · rw [putForTrackedEntry_untracked hp (not_tracked_iff.mp htr) hv, if_neg (by simp)]
      by_cases hon : s.concurrencyChecksEnabled = true
      · obtain ⟨heffect, hafter⟩ := hwrite (.object v) stamp (by simp) (by simp)
        simp only [if_pos hon]
        exact ⟨heffect.eraseTombstone k, .inl ⟨trivial, v, by simpa using hafter⟩⟩
      · obtain ⟨heffect, hafter⟩ := hwrite (.object v) (s.heap id).versionStamp (by simp) (by simp)
        simp only [if_neg hon]
        exact ⟨heffect, .inl ⟨trivial, v, hafter⟩⟩
    · rw [putForTrackedEntry_untracked hp (not_tracked_iff.mp htr) hv]
      have hstored : value ≠ .tombstone ∧ value ≠ .null ∧ value ≠ .destroyed := by
        rcases hkind with rfl | ⟨v, w, -, rfl⟩
        · exact ⟨ht, hs.stored k id _ hslot⟩
        · simp
      obtain ⟨heffect, hafter⟩ := hwrite value (s.heap id).versionStamp hstored.1 hstored.2
      refine ⟨heffect, .inr ⟨_, by decide, rfl, ?_⟩⟩
      rcases hkind with rfl | ⟨v, w, hold, rfl⟩
      · exact .inl (hslot.trans hafter.symm)
      · exact .inr ⟨id, v, w, hold ▸ hslot, hafter⟩

/-- By the cases of `put`. -/
lemma put_stores (hputs : s.PutsObject k newValue updateCount delta) :
    let result := s.put region k newValue outs updateCount destroyTracker versionTag delta
    SlotEffect s result.segment k ∧ Stores s k outs result := by
  rcases hs.cases k with ⟨hk, hslot⟩ | ⟨id, hk, hp, -, hslot, hget, hnull⟩
  · cases delta with
    | some =>
      rw [put_of_unbound_delta hk]
      exact ⟨.refl hs k, .failed .invalidDelta (by decide) rfl (.inl rfl)⟩
    | none =>
      obtain ⟨v, rfl⟩ := hputs.resolve_right (by simp)
      by_cases href : s.Refused k updateCount destroyTracker
      · rw [put_of_refused hk href]
        exact ⟨.refl hs k, .failed .cacheEntryUpdated (by decide) rfl (.inl rfl)⟩
      · obtain ⟨heffect, hnew⟩ := slotEffect_stored (k := k) hs v versionTag none
        rw [put_of_unbound hk href]
        exact ⟨heffect, .bound v rfl rfl rfl (.inl hslot) hnew⟩
  · cases hc : s.checkVersion region id versionTag delta.isSome with
    | error err =>
      rw [put_of_conflict hk hp delta hc]
      exact ⟨.refl hs k, .failed err (ne_noErr_of_error region hc) rfl (.inl rfl)⟩
    | ok stamp =>
      by_cases ht : (s.heap id).value = .tombstone
      · obtain ⟨v, rfl⟩ := hputs.resolve_right fun h =>
          h.2.2.2 ((holdsTombstone_iff_of_lookup hk).mpr ht)
        obtain ⟨heffect, hnew⟩ := slotEffect_rebind hs v versionTag stamp
        rw [put_of_tombstone hk hp delta hc ht
          (not_refused_removeEntry updateCount destroyTracker hs hk ht)]
        exact ⟨heffect, .bound v rfl rfl rfl (.inr ⟨id, ht ▸ hslot⟩) hnew⟩
      · obtain ⟨heffect, hres⟩ := putForTrackedEntry_slot region hs hk hp hget hnull ht hputs stamp
        rw [put_of_live hk hp delta hc ht rfl]
        rcases hres with ⟨hok, v, hafter⟩ | ⟨err, herr, hfail, hkind⟩
        · simp only [if_pos hok]
          exact ⟨heffect, .updated id _ v hok hget (by simpa [hget] using hnull) rfl hslot ht
            hafter⟩
        · have hne : Outcome.returned err ≠ .returned .noErr := fun h =>
            herr (Outcome.returned.inj h)
          simp only [hfail, if_neg hne]
          exact ⟨heffect, .failed err herr rfl hkind⟩

/-- How an invalidate of a key ends that does not add a token: the entry becomes invalid, or
the call fails and leaves the slot. -/
lemma invalidate_slot (hbinds : ¬ (s.concurrencyChecksEnabled = true ∧ s.slot k = none)) :
    let result := s.invalidate region k {} versionTag
    SlotEffect s result.segment k ∧ result.outs.isTokenAdded = false ∧
      ((∃ id old, s.slot k = some (id, old) ∧ result.outcome = .returned .noErr ∧
          result.outs.oldValue = old ∧ result.outs.me = some id ∧ old ≠ .tombstone ∧
          result.segment.slot k = some (id, .invalid)) ∨
        (∃ err, err ≠ .noErr ∧ result.outcome = .returned err ∧
          result.segment.slot k = s.slot k)) := by
  rcases hs.cases k with ⟨hk, hslot⟩ | ⟨id, hk, hp, -, hslot, hget, hnull⟩
  · have hoff : ¬ s.concurrencyChecksEnabled = true := fun hon => hbinds ⟨hon, hslot⟩
    have hinvalidate : s.invalidate region k {} versionTag =
        ⟨.returned .cacheEntryNotFound, {}, s⟩ := by
      unfold invalidate
      simp only [hk, if_neg hoff]
    rw [hinvalidate]
    exact ⟨.refl hs k, rfl, .inr ⟨_, by decide, rfl, rfl⟩⟩
  · cases hc : s.checkVersion region id versionTag false with
    | error err =>
      rw [invalidate_of_conflict hk hc]
      exact ⟨.refl hs k, rfl, .inr ⟨err, ne_noErr_of_error region hc, rfl, rfl⟩⟩
    | ok stamp =>
      by_cases ht : (s.heap id).value = .tombstone
      · rw [invalidate_of_tombstone hk hp hc ht]
        exact ⟨.refl hs k, rfl, .inr ⟨_, by decide, rfl, rfl⟩⟩
      · obtain ⟨heffect, hafter⟩ := slotEffect_setImpl hs hk
          (hp.update .invalid (if s.concurrencyChecksEnabled then stamp
            else (s.heap id).versionStamp)) (fun _ => by simp) (by simp)
        rw [invalidate_of_live hk hp hc ht, hget]
        refine ⟨heffect, ?_, .inl ⟨id, _, hslot, rfl, ?_, ?_, ht, hafter⟩⟩
        · split <;> rfl
        · split <;> rfl
        · rw [if_neg (by simpa using hnull)]

/-- How a remove ends that leaves no tombstone for an unknown key and does not unbind a value
because of an update: the entry is dropped or becomes a tombstone, or the call reports no old
value and drops a token at most. -/
lemma remove_slot {afterRemote : Bool}
    (hbinds : ¬ (s.concurrencyChecksEnabled = true ∧ s.slot k = none ∧ versionTag.isSome = true))
    (hupdated : s.concurrencyChecksEnabled = false → 0 < updateCount →
      ∀ id v, s.slot k ≠ some (id, .object v)) :
    let result := s.remove region k {} updateCount versionTag afterRemote
    SlotEffect s result.segment k ∧
      ((∃ id old, s.slot k = some (id, old) ∧ result.outcome = .returned .noErr ∧
          result.outs.oldValue = old ∧ old ≠ .null ∧ old ≠ .tombstone ∧
          result.outs.me = some id ∧ result.outs.isEntryFound = true ∧
          (result.segment.slot k = none ∨ result.segment.slot k = some (id, .tombstone))) ∨
        ((∃ err, result.outcome = .returned err ∧
            (err = .noErr → result.outs.oldValue = .null)) ∧
          (result.segment.slot k = s.slot k ∨ result.segment.slot k = none ∧
            ∀ id v, s.slot k ≠ some (id, .object v)))) := by
  by_cases hon : s.concurrencyChecksEnabled = true
  · rcases hs.cases k with ⟨hk, hslot⟩ | ⟨id, hk, hp, -, hslot, hget, hnull⟩
    · have htag : versionTag.isSome = false := by
        simpa using fun htag => hbinds ⟨hon, hslot, htag⟩
      rw [remove_of_unbound hon hk]
      simp only [htag, Bool.false_eq_true, if_false]
      exact ⟨.refl hs k, .inr ⟨⟨_, rfl, fun _ => trivial⟩, .inl trivial⟩⟩
    · cases hc : s.checkVersion region id versionTag false with
      | error err =>
        rw [remove_of_conflict hon hk hp hc]
        exact ⟨.refl hs k, .inr ⟨⟨err, rfl, fun h => absurd h (ne_noErr_of_error region hc)⟩,
          .inl rfl⟩⟩
      | ok stamp =>
        obtain ⟨hwrite, hafter⟩ := slotEffect_setImpl hs hk (hp.update .tombstone stamp)
          (fun hoff => absurd hon (by simp [hoff])) (by simp)
        have heffect := (hwrite.eraseTombstone k).addTombstone id
        rw [remove_of_bound hon hk hp hc]
        refine ⟨heffect, ?_⟩
        by_cases ht : (s.heap id).value = .tombstone
        · refine .inr ⟨⟨_, rfl, fun _ => by simp [ht]⟩, .inl ?_⟩
          rw [hslot, ht]
          simpa using hafter
        · refine .inl ⟨id, _, hslot, by simp [ht], by simp [ht, hget], hnull, ht,
            by simp [hget, hnull], rfl, .inr ?_⟩
          simpa using hafter
  · rw [Bool.not_eq_true] at hon
    rcases hs.cases k with ⟨hk, hslot⟩ | ⟨id, hk, hp, -, hslot, hget, hnull⟩
    · obtain ⟨_, hrem⟩ := remove_of_unbound_disabled region updateCount versionTag hon
        hk
      rw [hrem]
      exact ⟨⟨⟨⟨hs.regular.plain, hs.regular.no_tombstone⟩, hs.stored⟩, rfl, fun _ _ => rfl⟩,
        .inr ⟨⟨_, rfl, by simp⟩, .inl rfl⟩⟩
    · have ht := hs.regular.ne_tombstone hk hon
      obtain ⟨heffect, hafter⟩ := slotEffect_unbind hs k
      rw [remove_of_disabled region hon hk hp, hget]
      refine ⟨heffect, ?_⟩
      by_cases hu : 0 < updateCount
      · refine .inr ⟨⟨_, rfl, by simp [hu]⟩, .inr ⟨hafter, hupdated hon hu⟩⟩
      · refine .inl ⟨id, _, hslot, ?_, ?_, hnull, ht, ?_, ?_, .inl hafter⟩ <;>
          simp only [if_neg hu]

/-- A local destroy of a value succeeds. -/
lemma remove_slot_of_object {v : V} (hk : s.slot k = some (id, .object v)) :
    let result := s.remove region k {} (-1) none false
    SlotEffect s result.segment k ∧ result.outcome = .returned .noErr ∧
      result.outs.oldValue = .object v ∧ result.outs.me = some id ∧
      result.outs.isEntryFound = true ∧
      (result.segment.slot k = none ∨ result.segment.slot k = some (id, .tombstone)) := by
  obtain ⟨hlookup, hp, -, hvalue, hget⟩ := hs.lookup_of_slot hk
  by_cases hon : s.concurrencyChecksEnabled = true
  · have hc : s.checkVersion region id none false = .ok (s.heap id).versionStamp := by
      simp [checkVersion, hon]
    obtain ⟨hwrite, hafter⟩ := slotEffect_setImpl hs hlookup
      (hp.update .tombstone (s.heap id).versionStamp) (fun hoff => absurd hon (by simp [hoff]))
      (by simp)
    rw [remove_of_bound hon hlookup hp hc, hvalue, hget]
    refine ⟨(hwrite.eraseTombstone k).addTombstone id, rfl, rfl, rfl, rfl, .inr ?_⟩
    simpa using hafter
  · rw [Bool.not_eq_true] at hon
    obtain ⟨heffect, hafter⟩ := slotEffect_unbind hs k
    rw [remove_of_disabled region hon hlookup hp, hget]
    exact ⟨heffect, rfl, rfl, rfl, rfl, .inl hafter⟩

end Operations

end MapSegment

end GeodeNative
