import GeodeNative.Cache.Tombstones

/-!
# The entry map of a region

`ConcurrentEntriesMap` spreads the keys of a region over segments by their hash and
keeps the number of keys in a 32-bit counter of its own. It adjusts the counter from
the code and the flags that a segment returns. Every function is the method of the
same name; a segment call that throws leaves the counter alone.
-/

namespace GeodeNative

/-- The state of an entry map with `n` segments, its `m_concurrency`. -/
structure ConcurrentEntriesMap (n : ℕ) (K V : Type*) where
  segments : Fin n → MapSegment K V
  size : BitVec 32

/-- What a call on an entry map returns and leaves. -/
structure MapResult (n : ℕ) (K V : Type*) where
  outcome : Outcome
  outs : OutParams V
  map : ConcurrentEntriesMap n K V

/-- The calls that an entry map serves. -/
inductive MapCall (n : ℕ) (K V D : Type*)
  | create (key : K) (newValue : NewValue V) (updateCount destroyTracker : ℤ)
      (versionTag : Option VersionTag)
  | put (key : K) (newValue : NewValue V) (updateCount destroyTracker : ℤ)
      (versionTag : Option VersionTag) (delta : Option D)
  | invalidate (key : K) (versionTag : Option VersionTag)
  | remove (key : K) (updateCount : ℤ) (versionTag : Option VersionTag) (afterRemote : Bool)
  | clear
  | addTrackerForEntry (key : K) (addIfAbsent failIfPresent incUpdateCount : Bool)
  | removeTrackerForEntry (key : K)
  | reapVersions (gcVersions : AList (fun _ : BitVec 16 => ℤ))
  | reapKeys (removedKeys : List K)
  | expire (segment : Fin n) (tomb : TombId)

namespace ConcurrentEntriesMap

variable {n : ℕ} [NeZero n] {K V D M : Type*} [DecidableEq K]

def segmentIdx (n : ℕ) [NeZero n] (hashcode : K → BitVec 32) (key : K) : Fin n :=
  ⟨(hashcode key).toNat % n, Nat.mod_lt _ (Nat.pos_of_neZero n)⟩

def setSegment (m : ConcurrentEntriesMap n K V) (i : Fin n) (s : MapSegment K V) :
    ConcurrentEntriesMap n K V :=
  { m with segments := Function.update m.segments i s }

variable (region : Region K V D M) (hashcode : K → BitVec 32)

section

variable (m : ConcurrentEntriesMap n K V)

def create (key : K) (newValue : CacheValue V)
    (outs : OutParams V) (updateCount destroyTracker : ℤ) (versionTag : Option VersionTag) :
    MapResult n K V :=
  let i := segmentIdx n hashcode key
  let result := (m.segments i).create region key newValue outs updateCount destroyTracker versionTag
  let m := m.setSegment i result.segment
  if result.outcome = .returned .noErr ∧ result.outs.oldValue.isNull then
    ⟨result.outcome, result.outs, { m with size := m.size + 1 }⟩
  else
    ⟨result.outcome, result.outs, m⟩

def invalidate (key : K) (outs : OutParams V) (versionTag : Option VersionTag) : MapResult n K V :=
  let i := segmentIdx n hashcode key
  let result := (m.segments i).invalidate region key { outs with isTokenAdded := false } versionTag
  let m := m.setSegment i result.segment
  if result.outcome ≠ .badWeakPtr ∧ result.outs.isTokenAdded then
    ⟨result.outcome, result.outs, { m with size := m.size + 1 }⟩
  else
    ⟨result.outcome, result.outs, m⟩

def put (key : K) (newValue : CacheValue V)
    (outs : OutParams V) (updateCount destroyTracker : ℤ) (versionTag : Option VersionTag)
    (delta : Option D) : MapResult n K V :=
  let i := segmentIdx n hashcode key
  let result := (m.segments i).put region key newValue outs updateCount destroyTracker versionTag
    delta
  let m := m.setSegment i result.segment
  if result.outcome = .returned .noErr ∧ !result.outs.isUpdate then
    ⟨result.outcome, result.outs, { m with size := m.size + 1 }⟩
  else
    ⟨result.outcome, result.outs, m⟩

def remove (key : K) (outs : OutParams V) (updateCount : ℤ)
    (versionTag : Option VersionTag) (afterRemote : Bool) : MapResult n K V :=
  let i := segmentIdx n hashcode key
  let result := (m.segments i).remove region key { outs with isEntryFound := true } updateCount
    versionTag afterRemote
  let m := m.setSegment i result.segment
  if result.outcome = .returned .noErr ∧ result.outs.isEntryFound then
    ⟨result.outcome, result.outs, { m with size := m.size - 1 }⟩
  else
    ⟨result.outcome, result.outs, m⟩

def clear : ConcurrentEntriesMap n K V where
  segments i := (m.segments i).clear
  size := 0

/-- `ConcurrentEntriesMap::getKeys`: the keys of all segments; `none` where it throws. -/
def getKeys : Option (List K) :=
  if ∀ i, ((m.segments i).getKeys).isSome then
    some ((List.finRange n).flatMap fun i => ((m.segments i).getKeys).getD [])
  else
    none

def step : MapCall n K V D → ConcurrentEntriesMap n K V
  | .create key newValue updateCount destroyTracker versionTag =>
    (m.create region hashcode key newValue.toCacheValue {} updateCount destroyTracker
      versionTag).map
  | .put key newValue updateCount destroyTracker versionTag delta =>
    (m.put region hashcode key newValue.toCacheValue {} updateCount destroyTracker versionTag
      delta).map
  | .invalidate key versionTag => (m.invalidate region hashcode key {} versionTag).map
  | .remove key updateCount versionTag afterRemote =>
    (m.remove region hashcode key {} updateCount versionTag afterRemote).map
  | .clear => m.clear
  | .addTrackerForEntry key addIfAbsent failIfPresent incUpdateCount =>
    let i := segmentIdx n hashcode key
    m.setSegment i ((m.segments i).addTrackerForEntry key .null addIfAbsent failIfPresent
      incUpdateCount).segment
  | .removeTrackerForEntry key =>
    let i := segmentIdx n hashcode key
    m.setSegment i ((m.segments i).removeTrackerForEntry key).2
  | .reapVersions gcVersions =>
    { m with segments := fun i => (m.segments i).reapVersions gcVersions }
  | .reapKeys removedKeys =>
    { m with segments := fun i => (m.segments i).reapKeys removedKeys }
  | .expire i tomb =>
    if tomb < (m.segments i).nextTomb then
      m.setSegment i ((m.segments i).removeTombEntry tomb)
    else
      m

end

/-- An entry map with nothing in it. -/
def empty (n : ℕ) (concurrencyChecksEnabled : Bool) (heap : EntryHeap K V)
    (tombHeap : TombId → TombstoneEntry) : ConcurrentEntriesMap n K V where
  segments _ := .empty concurrencyChecksEnabled 0 heap tombHeap
  size := 0

end ConcurrentEntriesMap

end GeodeNative
