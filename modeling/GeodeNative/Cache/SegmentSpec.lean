import GeodeNative.Cache.Segment

/-!
# What the operations of a segment do

An entry is *plain* while no tracker was ever added to it: its key is set, its
address can be taken and its counters are zero. With concurrency checks enabled
every bound entry is plain.

On plain entries every operation is a composition of a few updates of the segment:
a new entry is bound, the object of a bound entry is overwritten, a key is unbound,
a tombstone is listed or taken off the list. The equations below give that
composition for each operation and each state of the key, together with the code
and the flags that the operation returns.
-/

namespace GeodeNative

open Function

open MapEntry MapEntryImpl CacheValue

variable {K V D M : Type*} {entry : MapEntryImpl K V}

/-- An entry of a key as the factory makes it: never tracked, and therefore never
overwritten by a placement `new`. -/
structure MapEntryImpl.IsPlain (entry : MapEntryImpl K V) (key : K) : Prop where
  key_eq : entry.key = some key
  weakThis_eq : entry.weakThis = true
  numTrackers_eq : entry.numTrackers = 0
  updateCount_eq : entry.updateCount = 0

namespace MapEntryImpl

/-- Value and stamp of an entry do not matter for being plain. -/
lemma IsPlain.update {key : K} (h : entry.IsPlain key) (value : CacheValue V)
    (versionStamp : VersionStamp) : IsPlain { entry with value, versionStamp } key :=
  { h with }

@[simp] lemma isTombstone_getValueI_eq (entry : MapEntryImpl K V) :
    entry.getValueI.isTombstone = entry.value.isTombstone := by
  unfold getValueI
  cases entry.value <;> rfl

lemma getValueI_eq_tombstone_iff : entry.getValueI = .tombstone ↔ entry.value = .tombstone := by
  rw [← isTombstone_iff, isTombstone_getValueI_eq, isTombstone_iff]

lemma isTombstone_getValueI (h : entry.value ≠ .tombstone) :
    entry.getValueI.isTombstone = false := by
  rwa [isTombstone_getValueI_eq, isTombstone_eq_false_iff]

end MapEntryImpl

namespace MapSegment

variable [DecidableEq K] {s : MapSegment K V} {versionTag : Option VersionTag}
  {region : Region K V D M} {newValue : CacheValue V} {id : ObjId} {k k' : K} {stamp : VersionStamp}
  {err : GfErrType}

/-- Every bound entry is plain. -/
def Plain (s : MapSegment K V) : Prop :=
  ∀ k e, s.map.lookup k = some e → ∃ id < s.nextObj, e = .impl id ∧ (s.heap id).IsPlain k

/-- The object that a key is bound to. -/
def entryAt (s : MapSegment K V) (key : K) : Option (MapEntryImpl K V) :=
  (s.map.lookup key).map fun e => s.heap e.target

def bindNew (s : MapSegment K V) (key : K) (entry : MapEntryImpl K V) : MapSegment K V :=
  { s with
    heap := Function.update s.heap s.nextObj entry
    nextObj := s.nextObj + 1
    map := s.map.insert key (.impl s.nextObj) }

lemma entryAt_eq_none_iff : s.entryAt k = none ↔ s.map.lookup k = none := by
  unfold entryAt
  simp

lemma entryAt_of_lookup (h : s.map.lookup k = some (.impl id)) :
    s.entryAt k = some (s.heap id) := by
  simp [entryAt, h, target]

/-- A key of a plain segment is unbound or bound to a plain entry. -/
lemma Plain.cases (hs : s.Plain) (k : K) : s.map.lookup k = none ∨
      ∃ id, s.map.lookup k = some (.impl id) ∧ id < s.nextObj ∧ (s.heap id).IsPlain k := by
  cases h : s.map.lookup k with
  | none => exact .inl rfl
  | some e =>
    obtain ⟨id, hlt, rfl, hp⟩ := hs k e h
    exact .inr ⟨id, rfl, hlt, hp⟩

/-- Distinct keys of a plain segment are bound to distinct objects. -/
lemma Plain.injective (hs : s.Plain) (h : s.map.lookup k = some (.impl id))
    (h' : s.map.lookup k' = some (.impl id)) : k = k' := by
  obtain ⟨_, -, he, hp⟩ := hs k _ h
  obtain ⟨_, -, he', hp'⟩ := hs k' _ h'
  cases he
  cases he'
  exact Option.some.inj (hp.key_eq.symm.trans hp'.key_eq)

/-! ## Updates that keep a segment plain, and what they do to the bound objects -/

section

variable (hs : s.Plain)

include hs

lemma plain_bindNew (h : entry.IsPlain k) : (s.bindNew k entry).Plain := by
  intro k' e he
  by_cases hk : k' = k
  · subst hk
    have he' : e = .impl s.nextObj := by simpa [bindNew] using he.symm
    exact ⟨s.nextObj, Nat.lt_succ_self _, he', by simpa [bindNew] using h⟩
  · have he' : s.map.lookup k' = some e := by simpa [bindNew, AList.lookup_insert_ne hk] using he
    obtain ⟨id', hlt, rfl, hp⟩ := hs k' e he'
    refine ⟨id', Nat.lt_succ_of_lt hlt, rfl, ?_⟩
    simpa [bindNew, update_of_ne hlt.ne] using hp

/-- Only the bound key has another entry. -/
lemma entryAt_bindNew (entry : MapEntryImpl K V) (k' : K) :
    (s.bindNew k entry).entryAt k' = if k' = k then some entry else s.entryAt k' := by
  by_cases hk : k' = k
  · subst hk
    simp [entryAt, bindNew, target]
  · rw [if_neg hk]
    rcases hs.cases k' with h | ⟨_, h, hlt, -⟩
    · simp [entryAt, bindNew, AList.lookup_insert_ne hk, h]
    · simp [entryAt, bindNew, AList.lookup_insert_ne hk, h, target, update_of_ne hlt.ne]

lemma plain_setImpl (h : s.map.lookup k = some (.impl id)) (he : entry.IsPlain k) :
    (s.setImpl id entry).Plain := by
  intro k' e' he'
  obtain ⟨id', hlt, rfl, hp⟩ := hs k' e' he'
  refine ⟨id', hlt, rfl, ?_⟩
  by_cases hid : id' = id
  · subst hid
    have hk : k' = k := hs.injective he' h
    subst hk
    simpa [setImpl] using he
  · simpa [setImpl, update_of_ne hid] using hp

lemma entryAt_setImpl (h : s.map.lookup k = some (.impl id)) (entry : MapEntryImpl K V) (k' : K) :
    (s.setImpl id entry).entryAt k' = if k' = k then some entry else s.entryAt k' := by
  by_cases hk : k' = k
  · subst hk
    simp [entryAt, setImpl, h, target]
  · rw [if_neg hk]
    rcases hs.cases k' with h' | ⟨id', h', -, -⟩
    · simp [entryAt, setImpl, h']
    · have hid : id' ≠ id := by
        rintro rfl
        exact hk (hs.injective h' h)
      simp [entryAt, setImpl, h', target, update_of_ne hid]

lemma plain_unbind (k : K) : (s.unbind k).Plain := by
  intro k' e he
  by_cases hk : k' = k
  · subst hk
    simp [unbind] at he
  · exact hs k' e (by simpa [unbind, AList.lookup_erase_ne hk] using he)

end

lemma entryAt_unbind (s : MapSegment K V) (k k' : K) :
    (s.unbind k).entryAt k' = if k' = k then none else s.entryAt k' := by
  by_cases hk : k' = k
  · subst hk
    simp [entryAt, unbind]
  · simp [entryAt, unbind, hk]

lemma plain_clear (s : MapSegment K V) : s.clear.Plain := by
  intro _ _ he
  simp [clear] at he

@[simp] lemma entryAt_clear (s : MapSegment K V) (k : K) : s.clear.entryAt k = none := by
  simp [entryAt, clear]

/-! ## Fields that the tombstone list does not touch -/

section Fields

variable (s : MapSegment K V) (k : K) (id : ObjId)

@[simp] lemma eraseTombstone_map : (s.eraseTombstone k).map = s.map := by
  unfold eraseTombstone
  split <;> rfl

@[simp] lemma eraseTombstone_heap : (s.eraseTombstone k).heap = s.heap := by
  unfold eraseTombstone
  split <;> rfl

@[simp] lemma eraseTombstone_nextObj : (s.eraseTombstone k).nextObj = s.nextObj := by
  unfold eraseTombstone
  split <;> rfl

@[simp] lemma eraseTombstone_concurrencyChecksEnabled :
    (s.eraseTombstone k).concurrencyChecksEnabled = s.concurrencyChecksEnabled := by
  unfold eraseTombstone
  split <;> rfl

@[simp] lemma addTombstone_map : (s.addTombstone id).map = s.map := by
  unfold addTombstone
  split <;> rfl

@[simp] lemma addTombstone_heap : (s.addTombstone id).heap = s.heap := by
  unfold addTombstone
  split <;> rfl

@[simp] lemma addTombstone_nextObj : (s.addTombstone id).nextObj = s.nextObj := by
  unfold addTombstone
  split <;> rfl

@[simp] lemma addTombstone_concurrencyChecksEnabled :
    (s.addTombstone id).concurrencyChecksEnabled = s.concurrencyChecksEnabled := by
  unfold addTombstone
  split <;> rfl

/-- Being plain is about the map and its entries only. -/
lemma plain_congr {s t : MapSegment K V} (hmap : t.map = s.map) (hheap : t.heap = s.heap)
    (hnext : t.nextObj = s.nextObj) : t.Plain ↔ s.Plain := by
  unfold Plain
  rw [hmap, hheap, hnext]

@[simp] lemma plain_eraseTombstone : (s.eraseTombstone k).Plain ↔ s.Plain :=
  plain_congr (s.eraseTombstone_map k) (s.eraseTombstone_heap k) (s.eraseTombstone_nextObj k)

@[simp] lemma plain_addTombstone : (s.addTombstone id).Plain ↔ s.Plain :=
  plain_congr (s.addTombstone_map id) (s.addTombstone_heap id) (s.addTombstone_nextObj id)

@[simp] lemma entryAt_eraseTombstone : (s.eraseTombstone k).entryAt k' = s.entryAt k' := by
  simp [entryAt]

@[simp] lemma entryAt_addTombstone : (s.addTombstone id).entryAt k' = s.entryAt k' := by
  simp [entryAt]

lemma entryAt_removeEntry (k' : K) :
    (s.removeEntry k).entryAt k' = if k' = k then none else s.entryAt k' := by
  unfold removeEntry
  rw [entryAt_unbind, entryAt_eraseTombstone]

end Fields

/-! ## Storing a value in a plain segment -/

section Storing

variable {updateCount destroyTracker : ℤ} {versionStamp : Option VersionStamp}

/-- The object that `putNoEntry` binds the key to. -/
def storedEntry (s : MapSegment K V) (key : K) (value : CacheValue V)
    (versionTag : Option VersionTag) (versionStamp : Option VersionStamp) : MapEntryImpl K V :=
  { (MapEntryImpl.create key : MapEntryImpl K V) with
    value
    versionStamp := if s.concurrencyChecksEnabled then newStamp versionTag versionStamp else {} }

omit [DecidableEq K] in
lemma isPlain_storedEntry : (s.storedEntry k newValue versionTag versionStamp).IsPlain k :=
  ⟨rfl, rfl, rfl, rfl⟩

/-- Whether `putNoEntry` refuses to bind the key. -/
def Refused (s : MapSegment K V) (key : K) (updateCount destroyTracker : ℤ) : Prop :=
  s.concurrencyChecksEnabled = false ∧
    (updateCount ≥ 0 ∨ s.destroyedSince key destroyTracker = true)
  deriving Decidable

/-- With concurrency checks no binding is refused. -/
lemma not_refused_of_enabled (h : s.concurrencyChecksEnabled = true) :
    ¬ s.Refused k updateCount destroyTracker := by
  simp [Refused, h]

/-- A destroyed entry is not created again. -/
lemma putNoEntry_of_refused (h : s.Refused k updateCount destroyTracker) :
    s.putNoEntry k newValue updateCount destroyTracker versionTag versionStamp =
      ⟨.cacheEntryUpdated, none, s⟩ := by
  obtain ⟨hoff, h⟩ := h
  unfold putNoEntry
  rw [if_pos]
  simpa [hoff] using h

lemma putNoEntry_of_not_refused (hk : s.map.lookup k = none)
    (h : ¬ s.Refused k updateCount destroyTracker) :
    s.putNoEntry k newValue updateCount destroyTracker versionTag versionStamp =
      ⟨.noErr, some s.nextObj, s.bindNew k (s.storedEntry k newValue versionTag versionStamp)⟩ := by
  have hcond : ¬ ((!s.concurrencyChecksEnabled &&
      (decide (updateCount ≥ 0) || s.destroyedSince k destroyTracker)) = true) := by
    simpa [Refused] using h
  have hmem : k ∉ s.map := AList.lookup_eq_none.mp hk
  unfold putNoEntry
  rw [if_neg hcond]
  by_cases hon : s.concurrencyChecksEnabled = true <;>
    simp [newMapEntry, setValueI, setStamp, setImpl, emplace, bind, bindNew, storedEntry, hon,
      hmem, MapEntryImpl.create]

lemma incrementUpdateCount_of_isPlain (hp : (s.heap id).IsPlain k) (isSlot : Bool) :
    s.incrementUpdateCount k (.impl id) isSlot = some s := by
  have hentry : MapEntry.incrementUpdateCount s.heap (.impl id) =
      some ⟨s.heap, .impl id, none, 0⟩ := by
    simp [MapEntry.incrementUpdateCount, hp.updateCount_eq, hp.numTrackers_eq, gfUpdateMax]
  unfold incrementUpdateCount
  split
  · rfl
  · rw [hentry]
    rfl

/-- Without trackers, releasing one only drops an entry that has no value. -/
lemma removeTracker_of_isPlain (hoff : s.concurrencyChecksEnabled = false)
    (hp : (s.heap id).IsPlain k) : s.removeTracker k (.impl id) id =
      if (s.heap id).getValueI.isNull then s.unbind k else s := by
  have hentry : MapEntry.removeTracker s.heap (.impl id) = ⟨s.heap, .impl id, false, 0⟩ := by
    simp [MapEntry.removeTracker, hp.numTrackers_eq]
  unfold removeTracker
  rw [if_neg (by simp [hoff]), hentry]
  by_cases hnull : (s.heap id).getValueI.isNull = true
  · rw [if_pos hnull, if_pos ⟨Int.le_refl 0, hnull⟩]
    rfl
  · rw [if_neg hnull, if_neg (fun h => hnull h.2)]
    rfl

/-- Writing an object and taking a key off the tombstone list commute. -/
lemma eraseTombstone_setImpl (s : MapSegment K V) (k : K) (id : ObjId) (entry : MapEntryImpl K V) :
    (s.setImpl id entry).eraseTombstone k = (s.eraseTombstone k).setImpl id entry := by
  cases h : s.tombstones.lookup k <;> simp [eraseTombstone, setImpl, h]

/-- An untracked put on a plain entry: a delta may fail; otherwise the value is stored, and
with concurrency checks the stamp as well. -/
lemma putForTrackedEntry_untracked (hp : (s.heap id).IsPlain k)
    (hu : updateCount < 0 ∨ s.concurrencyChecksEnabled = true) {isSlot : Bool} {delta : Option D}
    {value : CacheValue V} (hv : updatedValue region k (s.heap id) newValue delta = (err, value)) :
    putForTrackedEntry region s k newValue (.impl id) isSlot id updateCount stamp delta =
      if err ≠ .noErr then
        (.returned err, s.setValueI id value)
      else if s.concurrencyChecksEnabled = true then
        (.returned .noErr,
          (s.setImpl id { s.heap id with value, versionStamp := stamp }).eraseTombstone k)
      else
        (.returned .noErr, s.setValueI id value) := by
  unfold putForTrackedEntry
  rw [if_pos hu, hv]
  by_cases herr : err = .noErr
  · subst herr
    have hset : ∀ stamp' : VersionStamp,
        MapEntryImpl.IsPlain { s.heap id with value, versionStamp := stamp' } k := hp.update value
    by_cases hon : s.concurrencyChecksEnabled = true
    · have hon' : (s.setValueI id value).concurrencyChecksEnabled = true := hon
      -- storing a value and then a stamp is one write of the object
      have hwrite : ((s.setValueI id value).eraseTombstone k).setStamp id stamp =
          (s.setImpl id { s.heap id with value, versionStamp := stamp }).eraseTombstone k := by
        unfold setStamp setValueI
        rw [eraseTombstone_setImpl, eraseTombstone_setImpl]
        simp [setImpl]
      simp only [hon, hon', if_true]
      rw [hwrite, incrementUpdateCount_of_isPlain]
      simpa [setImpl] using hset stamp
    · have hon' : ¬ (s.setValueI id value).concurrencyChecksEnabled = true := hon
      simp only [hon, hon']
      rw [incrementUpdateCount_of_isPlain]
      · simp
      · simpa [setValueI, setImpl] using hset (s.heap id).versionStamp
  · simp [herr]

/-- A tracked put on a plain entry succeeds exactly for the count zero. -/
lemma putForTrackedEntry_tracked (hp : (s.heap id).IsPlain k)
    (hoff : s.concurrencyChecksEnabled = false) (hu : 0 ≤ updateCount) (isSlot : Bool)
    (stamp : VersionStamp) (delta : Option D) :
    putForTrackedEntry region s k newValue (.impl id) isSlot id updateCount stamp delta =
      if updateCount = 0 then
        (.returned .noErr, (s.setValueI id newValue).removeTracker k (.impl id) id)
      else
        (.returned .cacheEntryUpdated, s.removeTracker k (.impl id) id) := by
  have hcount : getUpdateCount s.heap (.impl id) = 0 := by
    simp [getUpdateCount, hp.updateCount_eq]
  unfold putForTrackedEntry
  rw [if_neg (by simp [hoff, hu]), hcount]

end Storing

/-! ## Adding a tracker to a plain segment -/

section Tracking

/-- The object that the first tracker of an entry leaves. -/
def trackedEntry (incUpdateCount : Bool) : MapEntryImpl K V :=
  .placementNew 1 (if incUpdateCount then 1 else 0)

/-- A tracker that the class of an entry has room for builds the object anew, without its key and
its value; it throws after that if there is no room for the update. -/
lemma trackEntry_of_room (hmax : (s.heap id).numTrackers ≠ gfTrackMax)
    (newEntry : Option MapEntry) (incUpdateCount : Bool) :
    s.trackEntry k (.impl id) newEntry incUpdateCount =
      let t := fun u => s.setImpl id (.placementNew ((s.heap id).numTrackers + 1) u)
      let u := (s.heap id).updateCount
      if incUpdateCount = true ∧ u = gfUpdateMax then (none, t u)
      else
        let u := if incUpdateCount then u + 1 else u
        (some (u : ℤ), match newEntry with
          | none => t u
          | some entry => (t u).bind k entry) := by
  have hzero : (s.heap id).numTrackers + 1 ≠ 0 := by
    generalize (s.heap id).numTrackers = n at hmax
    revert n
    decide
  cases incUpdateCount with
  | false => cases newEntry <;> simp [trackEntry, MapEntry.addTracker, hmax, storeSelf, setImpl]
  | true =>
    by_cases hfull : (s.heap id).updateCount = gfUpdateMax <;> cases newEntry <;>
      simp [trackEntry, MapEntry.addTracker, hmax, storeSelf, setImpl, hfull, hzero,
        MapEntry.incrementUpdateCount, placementNew]

/-- The entry gets its first tracker. -/
lemma trackEntry_of_isPlain (hp : (s.heap id).IsPlain k) (newEntry : Option MapEntry)
    (incUpdateCount : Bool) : s.trackEntry k (.impl id) newEntry incUpdateCount =
      (some (if incUpdateCount then 1 else 0), match newEntry with
        | none => s.setImpl id (trackedEntry incUpdateCount)
        | some entry => (s.setImpl id (trackedEntry incUpdateCount)).bind k entry) := by
  rw [trackEntry_of_room (by rw [hp.numTrackers_eq]; decide)]
  cases incUpdateCount <;> simp [hp.numTrackers_eq, hp.updateCount_eq, trackedEntry, gfUpdateMax]

variable (hoff : s.concurrencyChecksEnabled = false)

include hoff

/-- An unknown key is bound to a tracked entry that holds its place. -/
lemma addTrackerForEntry_of_unbound
    (hk : s.map.lookup k = none) (oldValue : CacheValue V) (failIfPresent incUpdateCount : Bool) :
    s.addTrackerForEntry k oldValue true failIfPresent incUpdateCount =
      ⟨some (if incUpdateCount then 1 else 0), .null,
        s.bindNew k (trackedEntry incUpdateCount)⟩ := by
  have hp : (((s.newMapEntry k).2.setValueI s.nextObj .destroyed).heap s.nextObj).IsPlain k := by
    simp only [newMapEntry, setValueI, setImpl, update_self]
    exact IsPlain.update ⟨rfl, rfl, rfl, rfl⟩ _ _
  unfold addTrackerForEntry
  rw [if_neg (by simp [hoff]), hk]
  simp only [if_true]
  rw [show (s.newMapEntry k).1 = s.nextObj from rfl, trackEntry_of_isPlain hp]
  simp [newMapEntry, setValueI, setImpl, bind, bindNew]

/-- A bound entry is tracked unless the caller takes its presence as a failure. -/
lemma addTrackerForEntry_of_bound {entry : MapEntry}
    (hk : s.map.lookup k = some entry) (oldValue : CacheValue V)
    {addIfAbsent incUpdateCount : Bool} :
    s.addTrackerForEntry k oldValue addIfAbsent false incUpdateCount =
      ⟨(s.trackEntry k entry none incUpdateCount).1, entry.getValue s.heap,
        (s.trackEntry k entry none incUpdateCount).2⟩ := by
  simp [addTrackerForEntry, hoff, hk]

lemma addTrackerForEntry_of_isPlain (hk : s.map.lookup k = some (.impl id))
    (hp : (s.heap id).IsPlain k) (oldValue : CacheValue V) (addIfAbsent incUpdateCount : Bool) :
    s.addTrackerForEntry k oldValue addIfAbsent false incUpdateCount =
      ⟨some (if incUpdateCount then 1 else 0), (s.heap id).getValueI,
        s.setImpl id (trackedEntry incUpdateCount)⟩ := by
  rw [addTrackerForEntry_of_bound hoff hk, trackEntry_of_isPlain hp]
  rfl

end Tracking

/-! ## The operations on a plain segment -/

section Operations

variable {outs : OutParams V} {updateCount destroyTracker : ℤ}

section

omit [DecidableEq K]

lemma getImplPtr_of_isPlain (hp : (s.heap id).IsPlain k) :
    (impl id).getImplPtr s.heap = some id := by
  simp [getImplPtr, hp.weakThis_eq]

/-- With concurrency checks, the stamp of the entry decides. -/
lemma checkVersion_of_enabled (hon : s.concurrencyChecksEnabled = true) (tag : VersionTag)
    (deltaCheck : Bool) : s.checkVersion region id (some tag) deltaCheck =
      match (s.heap id).versionStamp.checkForConflict region.toMemberListForVersionStamp tag
        deltaCheck with
      | .noErr => .ok (.setVersions tag)
      | err => .error err := by
  unfold checkVersion
  rw [if_pos hon]
  rfl

end

/-- A delta needs an entry. -/
lemma put_of_unbound_delta (hk : s.map.lookup k = none) (delta : D) :
    s.put region k newValue outs updateCount destroyTracker versionTag (some delta) =
      ⟨.returned .invalidDelta, outs, s⟩ := by
  simp [put, hk]

lemma put_of_refused (hk : s.map.lookup k = none) (h : s.Refused k updateCount destroyTracker) :
    s.put region k newValue outs updateCount destroyTracker versionTag none =
      ⟨.returned .cacheEntryUpdated, { outs with isUpdate := false }, s⟩ := by
  simp [put, hk, putNoEntry_of_refused h]

/-- A put to a free slot binds it. -/
lemma put_of_unbound (hk : s.map.lookup k = none) (h : ¬ s.Refused k updateCount destroyTracker) :
    s.put region k newValue outs updateCount destroyTracker versionTag none =
      ⟨.returned .noErr, { outs with isUpdate := false, me := some s.nextObj },
        s.bindNew k (s.storedEntry k newValue versionTag none)⟩ := by
  unfold put
  rw [hk]
  simp [putNoEntry_of_not_refused hk h]

variable {res : Outcome × MapSegment K V}

section

variable (hk : s.map.lookup k = some (.impl id)) (hp : (s.heap id).IsPlain k) (delta : Option D)

include hk hp

/-- A refused version changes nothing. -/
lemma put_of_conflict (hc : s.checkVersion region id versionTag delta.isSome = .error err) :
    s.put region k newValue outs updateCount destroyTracker versionTag delta =
      ⟨.returned err, outs, s⟩ := by
  unfold put
  simp only [hk, getImplPtr_of_isPlain hp, hc]

/-- A put over a tombstone binds a new entry. -/
lemma put_of_tombstone (hc : s.checkVersion region id versionTag delta.isSome = .ok stamp)
    (ht : (s.heap id).value = .tombstone)
    (h : ¬ (s.removeEntry k).Refused k updateCount destroyTracker) :
    s.put region k newValue outs updateCount destroyTracker versionTag delta =
      ⟨.returned .noErr, { outs with isUpdate := false, me := some s.nextObj },
        (s.removeEntry k).bindNew k (s.storedEntry k newValue versionTag stamp)⟩ := by
  have ht' := getValueI_eq_tombstone_iff.mpr ht
  have hk' : (s.removeEntry k).map.lookup k = none := by simp [removeEntry, unbind]
  unfold put
  simp only [hk, getImplPtr_of_isPlain hp, hc, ht', putNoEntry_of_not_refused hk' h]
  simp [removeEntry, unbind, storedEntry]

/-- A put over a live entry writes into it. -/
lemma put_of_live (hc : s.checkVersion region id versionTag delta.isSome = .ok stamp)
    (ht : (s.heap id).value ≠ .tombstone)
    (hres : putForTrackedEntry region s k newValue (.impl id) true id updateCount stamp delta =
      res) :
    s.put region k newValue outs updateCount destroyTracker versionTag delta =
      if res.1 = .returned .noErr then
        ⟨res.1, { outs with
          me := some id
          oldValue := (s.heap id).getValueI
          isUpdate := !(s.heap id).getValueI.isNull }, res.2⟩
      else
        ⟨res.1, outs, res.2⟩ := by
  have ht' := isTombstone_getValueI ht
  subst hres
  unfold put
  simp only [hk, getImplPtr_of_isPlain hp, hc, ht', Bool.false_eq_true, if_false]

end

lemma create_of_refused (hk : s.map.lookup k = none) (h : s.Refused k updateCount destroyTracker) :
    s.create region k newValue outs updateCount destroyTracker versionTag =
      ⟨.returned .cacheEntryUpdated, outs, s⟩ := by
  simp [create, hk, putNoEntry_of_refused h]

lemma create_of_unbound (hk : s.map.lookup k = none)
    (h : ¬ s.Refused k updateCount destroyTracker) :
    s.create region k newValue outs updateCount destroyTracker versionTag =
      ⟨.returned .noErr, { outs with me := some s.nextObj },
        s.bindNew k (s.storedEntry k newValue versionTag none)⟩ := by
  unfold create
  rw [hk]
  simp [putNoEntry_of_not_refused hk h]

section

variable (hk : s.map.lookup k = some (.impl id)) (hp : (s.heap id).IsPlain k)

include hk hp

/-- A create over a value fails. -/
lemma create_of_value
    (hn : (s.heap id).getValueI ≠ .null) (ht : (s.heap id).getValueI ≠ .tombstone) :
    s.create region k newValue outs updateCount destroyTracker versionTag =
      ⟨.returned .cacheEntryExists, { outs with oldValue := (s.heap id).getValueI }, s⟩ := by
  unfold create
  simp only [hk, getImplPtr_of_isPlain hp]

lemma create_of_conflict (hv : (s.heap id).getValueI = .null ∨ (s.heap id).getValueI = .tombstone)
    (hc : s.checkVersion region id versionTag false = .error err) :
    s.create region k newValue outs updateCount destroyTracker versionTag =
      ⟨.returned err, { outs with oldValue := (s.heap id).getValueI }, s⟩ := by
  unfold create
  rcases hv with hv | hv <;> simp only [hk, getImplPtr_of_isPlain hp, hv, hc]

/-- A create over a null value writes into the entry. -/
lemma create_of_null (hn : (s.heap id).getValueI = .null)
    (hc : s.checkVersion region id versionTag false = .ok stamp)
    (hres : putForTrackedEntry region s k newValue (.impl id) true id updateCount stamp none =
      res) :
    s.create region k newValue outs updateCount destroyTracker versionTag =
      ⟨res.1, if res.1 = .returned .noErr then { outs with oldValue := .null, me := some id }
        else { outs with oldValue := .null }, res.2⟩ := by
  subst hres
  unfold create
  simp only [hk, getImplPtr_of_isPlain hp, hn, hc]

/-- A create over a tombstone binds a new entry. -/
lemma create_of_tombstone (ht : (s.heap id).value = .tombstone)
    (hc : s.checkVersion region id versionTag false = .ok stamp)
    (h : ¬ (s.removeEntry k).Refused k updateCount destroyTracker) :
    s.create region k newValue outs updateCount destroyTracker versionTag =
      ⟨.returned .noErr, { outs with oldValue := .null, me := some id },
        (s.removeEntry k).bindNew k (s.storedEntry k newValue versionTag stamp)⟩ := by
  have ht' := getValueI_eq_tombstone_iff.mpr ht
  have hk' : (s.removeEntry k).map.lookup k = none := by simp [removeEntry, unbind]
  unfold create
  simp only [hk, getImplPtr_of_isPlain hp, ht', hc, putNoEntry_of_not_refused hk' h]
  simp [removeEntry, unbind, storedEntry]

end

lemma invalidate_of_unbound (hon : s.concurrencyChecksEnabled = true) (hk : s.map.lookup k = none) :
    s.invalidate region k outs versionTag =
      ⟨.returned .cacheEntryNotFound, { outs with isTokenAdded := true, me := some s.nextObj },
        s.bindNew k (s.storedEntry k .invalid versionTag none)⟩ := by
  have h : ¬ s.Refused k (-1) (-1) := not_refused_of_enabled hon
  unfold invalidate
  simp only [hk, hon, putNoEntry_of_not_refused hk h]
  simp

section

variable (hk : s.map.lookup k = some (.impl id))

include hk

lemma invalidate_of_conflict (hc : s.checkVersion region id versionTag false = .error err) :
    s.invalidate region k outs versionTag =
      ⟨.returned err, { outs with isTokenAdded := false }, s⟩ := by
  unfold invalidate
  simp only [hk, target, hc]

/-- A tombstone is not invalidated. -/
lemma invalidate_of_tombstone (hp : (s.heap id).IsPlain k)
    (hc : s.checkVersion region id versionTag false = .ok stamp)
    (ht : (s.heap id).value = .tombstone) : s.invalidate region k outs versionTag =
      ⟨.returned .cacheEntryNotFound, { outs with isTokenAdded := false, oldValue := .null },
        s⟩ := by
  have ht' := getValueI_eq_tombstone_iff.mpr ht
  unfold invalidate
  simp only [hk, target, hc, getImplPtr_of_isPlain hp, ht', CacheValue.isTombstone, if_true]

/-- Invalidating a live entry stores the invalid token, and the stamp if there is one. -/
lemma invalidate_of_live (hp : (s.heap id).IsPlain k)
    (hc : s.checkVersion region id versionTag false = .ok stamp)
    (ht : (s.heap id).value ≠ .tombstone) : s.invalidate region k outs versionTag =
      ⟨.returned .noErr, if (s.heap id).getValueI.isNull then
          { outs with isTokenAdded := false, oldValue := (s.heap id).getValueI }
        else
          { outs with isTokenAdded := false, oldValue := (s.heap id).getValueI, me := some id },
        s.setImpl id { s.heap id with
          value := .invalid
          versionStamp := if s.concurrencyChecksEnabled then stamp
            else (s.heap id).versionStamp }⟩ := by
  have ht' := isTombstone_getValueI ht
  have hwrite : (if (s.setValueI id .invalid).concurrencyChecksEnabled then
      (s.setValueI id .invalid).setStamp id stamp else s.setValueI id .invalid) =
      s.setImpl id { s.heap id with
        value := .invalid
        versionStamp := if s.concurrencyChecksEnabled then stamp
          else (s.heap id).versionStamp } := by
    by_cases hon : s.concurrencyChecksEnabled = true <;>
      simp [setValueI, setStamp, setImpl, hon]
  unfold invalidate
  simp only [hk, target, hc, getImplPtr_of_isPlain hp, ht', Bool.false_eq_true, if_false, hwrite]
  rw [incrementUpdateCount_of_isPlain (k := k) (by simpa [setImpl] using hp.update _ _)]

end

variable (hon : s.concurrencyChecksEnabled = true)

include hon

/-- A remove of nothing is an error only when it is local. -/
lemma remove_of_unbound (hk : s.map.lookup k = none) (afterRemote : Bool) :
    s.remove region k outs updateCount versionTag afterRemote =
      ⟨.returned (if afterRemote then .noErr else .cacheEntryNotFound),
        { outs with oldValue := .null, isEntryFound := false },
        if versionTag.isSome then
          (s.bindNew k (s.storedEntry k .tombstone versionTag none)).addTombstone s.nextObj
        else s⟩ := by
  have h : ¬ s.Refused k (-1) 0 := not_refused_of_enabled hon
  unfold remove removeWhenConcurrencyEnabled
  simp only [hon, if_true, hk, putNoEntry_of_not_refused hk h]

lemma remove_of_conflict (hk : s.map.lookup k = some (.impl id)) (hp : (s.heap id).IsPlain k)
    (hc : s.checkVersion region id versionTag false = .error err) (afterRemote : Bool) :
    s.remove region k outs updateCount versionTag afterRemote =
      ⟨.returned err, { outs with isEntryFound := true }, s⟩ := by
  unfold remove removeWhenConcurrencyEnabled
  simp only [hon, if_true, hk, getImplPtr_of_isPlain hp, hc]

/-- A removed entry becomes a listed tombstone with the new stamp. -/
lemma remove_of_bound (hk : s.map.lookup k = some (.impl id)) (hp : (s.heap id).IsPlain k)
    (hc : s.checkVersion region id versionTag false = .ok stamp) {afterRemote : Bool} :
    s.remove region k outs updateCount versionTag afterRemote =
      ⟨.returned (if (s.heap id).value.isTombstone ∧ afterRemote = false
          then .cacheEntryNotFound else .noErr),
        { outs with
          isEntryFound := true
          oldValue := if (s.heap id).value.isTombstone then .null else (s.heap id).getValueI
          me := if (s.heap id).getValueI.isNull then outs.me else some id },
        ((s.setImpl id { s.heap id with value := .tombstone, versionStamp := stamp }).eraseTombstone
          k).addTombstone id⟩ := by
  have hput : putForTrackedEntry region s k .tombstone (.impl id) false id updateCount stamp
      none = _ := putForTrackedEntry_untracked hp (.inr hon) rfl
  unfold remove removeWhenConcurrencyEnabled
  simp only [hon, hk, getImplPtr_of_isPlain hp, hc, hput]
  by_cases ht : (s.heap id).value = .tombstone
  · have hget := getValueI_eq_tombstone_iff.mpr ht
    cases afterRemote <;> simp [ht]
  · have hget := isTombstone_getValueI ht
    simp [ht]

end Operations
end MapSegment

end GeodeNative
