import Mathlib.Data.List.AList
import GeodeNative.Cache.Entry

/-!
# A segment of a region's entry map

`MapSegment` binds keys to entries. With concurrency checks enabled it compares
version tags and keeps a tombstone for a removed key; with them disabled it tracks
the operations that are in flight on a key instead.

Each function below is one method of `MapSegment` or `TombstoneList`, run under the
segment's lock. A call that throws `std::bad_weak_ptr` leaves the effects it had
before the exception. Hash table sizing, statistics, logging and the scheduling of
the expiry tasks are not modelled: when a tombstone's expiry task runs is up to the
caller of `removeTombEntry`.
-/

namespace GeodeNative

/-- What a segment asks of its region: the members it compares versions by, whether deltas
are applied to a clone, the application's `Delta::fromDelta` (the object after the call, and
whether it returned without an `InvalidDeltaException`) and the overflow store. -/
structure Region (K V D M : Type*) extends MemberListForVersionStamp M where
  cloningEnabled : Bool
  fromDelta : V → D → V × Bool
  getFromDisk : K → Option V

/-- The address of a `TombstoneEntry`. -/
abbrev TombId := ℕ

/-- A listed tombstone: the entry it was made for, and whether its expiry still counts. -/
structure TombstoneEntry where
  entry : ObjId
  valid : Bool
  deriving DecidableEq, Repr

structure MapSegment (K V : Type*) where
  concurrencyChecksEnabled : Bool
  map : AList (fun _ : K => MapEntry)
  heap : EntryHeap K V
  nextObj : ObjId
  /-- the tombstone list, by key -/
  tombstones : AList (fun _ : K => TombId)
  tombHeap : TombId → TombstoneEntry
  nextTomb : TombId
  /-- the number of operations that track destroys, and the keys destroyed meanwhile -/
  numDestroyTrackers : ℤ
  destroyedKeys : AList (fun _ : K => ℤ)

/-- How a call ends. -/
inductive Outcome
  | returned (err : GfErrType)
  | badWeakPtr
  deriving DecidableEq, Repr

/-- The reference parameters of the entry operations. An operation that does not have or
does not touch one leaves it as the caller passed it. -/
structure OutParams (V : Type*) where
  me : Option ObjId := none
  oldValue : CacheValue V := .null
  isUpdate : Bool := false
  isTokenAdded : Bool := false
  isEntryFound : Bool := true
  deriving DecidableEq, Repr

/-- What a call on a segment returns and leaves. -/
structure CallResult (K V : Type*) where
  outcome : Outcome
  outs : OutParams V
  segment : MapSegment K V

namespace MapSegment

variable {K V D M : Type*}

/-! ## Elementary updates -/

/-- Writes the object at an address. -/
def setImpl (s : MapSegment K V) (id : ObjId) (entry : MapEntryImpl K V) : MapSegment K V :=
  { s with heap := Function.update s.heap id entry }

/-- `MapEntryImpl::setValueI`. -/
def setValueI (s : MapSegment K V) (id : ObjId) (value : CacheValue V) : MapSegment K V :=
  s.setImpl id { s.heap id with value }

/-- `getVersionStamp().setVersions(versionStamp)` on the object at an address. -/
def setStamp (s : MapSegment K V) (id : ObjId) (versionStamp : VersionStamp) : MapSegment K V :=
  s.setImpl id { s.heap id with versionStamp }

variable [DecidableEq K]

section

variable (s : MapSegment K V)

/-- Assigns the slot of a key. -/
def bind (key : K) (entry : MapEntry) : MapSegment K V :=
  { s with map := s.map.insert key entry }

/-- `m_map.emplace`: binds a key that is not bound yet. -/
def emplace (key : K) (entry : MapEntry) : MapSegment K V :=
  if key ∈ s.map then s else s.bind key entry

/-- `m_map.erase`. -/
def unbind (key : K) : MapSegment K V :=
  { s with map := s.map.erase key }

/-- The wrapper that the map refers to after a method was called on it; a `MapEntryImpl`
changes on the heap instead. -/
def storeSelf (key : K) : MapEntry → MapSegment K V
  | .impl _ => s
  | .tracked entry => s.bind key (.tracked entry)

/-! ## The tombstone list -/

/-- `TombstoneList::add`: lists a new `TombstoneEntry` under the key of its entry. -/
def addTombstone (id : ObjId) : MapSegment K V :=
  match (s.heap id).key with
  | none => s
  | some key =>
    { s with
      tombstones := s.tombstones.insert key s.nextTomb
      tombHeap := Function.update s.tombHeap s.nextTomb ⟨id, true⟩
      nextTomb := s.nextTomb + 1 }

/-- `TombstoneList::erase`: takes a key off the list and invalidates its `TombstoneEntry`. -/
def eraseTombstone (key : K) : MapSegment K V :=
  match s.tombstones.lookup key with
  | none => s
  | some tomb =>
    { s with
      tombstones := s.tombstones.erase key
      tombHeap := Function.update s.tombHeap tomb { s.tombHeap tomb with valid := false } }

/-- `MapSegment::remove_entry`: unbinds a key and takes it off the tombstone list. -/
def removeEntry (key : K) : MapSegment K V :=
  (s.eraseTombstone key).unbind key

/-- `MapSegment::remove_tomb_entry`, run when a tombstone expires. -/
def removeTombEntry (tomb : TombId) : MapSegment K V :=
  if (s.tombHeap tomb).valid then
    match (s.heap (s.tombHeap tomb).entry).key with
    | none => s
    | some key => if key ∈ s.tombstones then (s.eraseTombstone key).unbind key else s
  else
    s

/-- The listed keys that the collected versions cover. -/
def reapableKeys (gcVersions : AList (fun _ : BitVec 16 => ℤ)) : List K :=
  s.tombstones.keys.filter fun key =>
    match s.tombstones.lookup key with
    | none => false
    | some tomb =>
      let stamp := (s.heap (s.tombHeap tomb).entry).versionStamp
      match gcVersions.lookup stamp.memberId with
      | none => false
      | some version => decide (version ≥ stamp.getRegionVersion.toInt)

/-- `TombstoneList::reap_tombstones` for a set of keys. -/
def reapKeys (removedKeys : List K) : MapSegment K V :=
  removedKeys.foldl removeEntry s

/-- `TombstoneList::reap_tombstones` for the collected versions of each member. -/
def reapVersions (gcVersions : AList (fun _ : BitVec 16 => ℤ)) : MapSegment K V :=
  s.reapKeys (s.reapableKeys gcVersions)

/-- `MapSegment::clear`: the map is emptied, and nothing else. -/
def clear : MapSegment K V :=
  { s with map := ∅ }

/-! ## Trackers -/

/-- `MapSegment::incrementUpdateCount`. The entry is a reference to the key's slot or a
copy of what the slot holds; a wrapper made here reaches the map only through the former,
because `emplace` does not replace what a key is bound to. -/
def incrementUpdateCount (key : K) (entry : MapEntry) (isSlot : Bool) : Option (MapSegment K V) :=
  if s.concurrencyChecksEnabled then
    some s
  else
    match entry.incrementUpdateCount s.heap with
    | none => none
    | some update =>
      let s := { s with heap := update.heap }.storeSelf key update.self
      match update.newEntry with
      | none => some s
      | some newEntry =>
        let s := s.emplace key newEntry
        some (if isSlot then s.bind key newEntry else s)

/-- `MapSegment::removeTrackerForEntry(key, entry, entryImpl)`: a destroyed entry goes with
its last tracker. -/
def removeTracker (key : K) (entry : MapEntry) (entryImpl : ObjId) : MapSegment K V :=
  if s.concurrencyChecksEnabled then
    s
  else
    let removal := entry.removeTracker s.heap
    let s := { s with heap := removal.heap }.storeSelf key removal.self
    if removal.trackers ≤ 0 ∧ (s.heap entryImpl).getValueI.isNull then
      s.unbind key
    else if removal.unwrap then
      s.bind key (.impl entryImpl)
    else
      s

/-- `MapSegment::removeTrackerForEntry(key)`; returns whether it did not throw. -/
def removeTrackerForEntry (key : K) : Bool × MapSegment K V :=
  if s.concurrencyChecksEnabled then
    (true, s)
  else
    match s.map.lookup key with
    | none => (true, s)
    | some entry =>
      match entry.getImplPtr s.heap with
      | none => (false, s)
      | some entryImpl => (true, s.removeTracker key entry entryImpl)

end

/-- What `addTrackerForEntry` returns: the update count to track from, or `none` where it
throws, with the old value and the segment it leaves. -/
structure AddTrackerResult (K V : Type*) where
  updateCount : Option ℤ
  oldValue : CacheValue V
  segment : MapSegment K V

/-- `addTracker` and, if asked for, `incrementUpdateCount`, both called on the entry found,
and the rebinding of the key to the last entry they made. -/
def trackEntry (s : MapSegment K V) (key : K) (entry : MapEntry) (newEntry : Option MapEntry)
    (incUpdateCount : Bool) : Option ℤ × MapSegment K V :=
  match entry.addTracker s.heap with
  | none => (none, s)
  | some added =>
    let s := { s with heap := added.heap }.storeSelf key added.self
    let newEntry := added.newEntry <|> newEntry
    if incUpdateCount then
      match added.self.incrementUpdateCount s.heap with
      | none => (none, s)
      | some counted =>
        let s := { s with heap := counted.heap }.storeSelf key counted.self
        match counted.newEntry <|> newEntry with
        | none => (some counted.count, s)
        | some newEntry => (some counted.count, s.bind key newEntry)
    else
      match newEntry with
      | none => (some added.count, s)
      | some newEntry => (some added.count, s.bind key newEntry)

/-- A new entry of the factory for a key; the key is not bound to it yet. -/
def newMapEntry (s : MapSegment K V) (key : K) : ObjId × MapSegment K V :=
  (s.nextObj, { s.setImpl s.nextObj (.create key) with nextObj := s.nextObj + 1 })

def addTrackerForEntry (s : MapSegment K V) (key : K) (oldValue : CacheValue V)
    (addIfAbsent failIfPresent incUpdateCount : Bool) : AddTrackerResult K V :=
  if s.concurrencyChecksEnabled then
    ⟨some (-1), oldValue, s⟩
  else
    match s.map.lookup key with
    | none =>
      if addIfAbsent then
        -- an entry marked as destroyed holds the place of the key
        let (id, s) := s.newMapEntry key
        let s := s.setValueI id .destroyed
        let (updateCount, s) := s.trackEntry key (.impl id) (some (.impl id)) incUpdateCount
        ⟨updateCount, .null, s⟩
      else
        ⟨some (-1), .null, s⟩
    | some entry =>
      let oldValue := entry.getValue s.heap
      if failIfPresent then
        ⟨some (-1), oldValue, s⟩
      else
        let (updateCount, s) := s.trackEntry key entry none incUpdateCount
        ⟨updateCount, oldValue, s⟩

/-! ## Storing a value -/

/-- What `putNoEntry` returns: the error code, the new entry if there is one, and the segment
it leaves. -/
structure PutNoEntryResult (K V : Type*) where
  err : GfErrType
  newEntry : Option ObjId
  segment : MapSegment K V

section

variable (region : Region K V D M) (s : MapSegment K V) (key : K)

/-- Whether a destroy of the absent key came after the destroy tracker was taken. -/
def destroyedSince (destroyTracker : ℤ) : Bool :=
  decide (destroyTracker > 0 ∧ s.numDestroyTrackers > 0) &&
    match s.destroyedKeys.lookup key with
    | none => false
    | some count => decide (count > destroyTracker)

def newStamp (versionTag : Option VersionTag) (versionStamp : Option VersionStamp) : VersionStamp :=
  match versionTag, versionStamp with
  | some tag, _ => .setVersions tag
  | none, some stamp => stamp
  | none, none => {}

/-- `MapSegment::putNoEntry`: binds a key that is not bound. A tracked operation finds no
entry only if it was removed meanwhile. -/
def putNoEntry (newValue : CacheValue V)
    (updateCount destroyTracker : ℤ) (versionTag : Option VersionTag)
    (versionStamp : Option VersionStamp) : PutNoEntryResult K V :=
  if !s.concurrencyChecksEnabled &&
      (decide (updateCount ≥ 0) || s.destroyedSince key destroyTracker) then
    ⟨.cacheEntryUpdated, none, s⟩
  else
    let (id, s) := s.newMapEntry key
    let s := s.setValueI id newValue
    let s := if s.concurrencyChecksEnabled then s.setStamp id (newStamp versionTag versionStamp)
      else s
    ⟨.noErr, some id, s.emplace key (.impl id)⟩

/-- The effect of a delta on a value: the error code, and the value that the entry holds
afterwards. Without cloning the delta is applied in place, so that a delta that fails half
way leaves its traces in the object. -/
def applyDelta (oldValue : CacheValue V) (delta : D) : GfErrType × CacheValue V :=
  match oldValue with
  | .object v =>
    match region.fromDelta v delta with
    | (v', true) => (.noErr, .object v')
    | (v', false) => (.invalidDelta, .object (if region.cloningEnabled then v else v'))
  | .overflowed =>
    match region.getFromDisk key with
    | none => (.invalidDelta, .overflowed)
    | some v =>
      match region.fromDelta v delta with
      | (v', true) => (.noErr, .object v')
      | (_, false) => (.invalidDelta, .overflowed)
  | value => (.invalidDelta, value)

/-- The value that an untracked put stores: the new value, or the old one with a delta. -/
def updatedValue (entry : MapEntryImpl K V)
    (newValue : CacheValue V) : Option D → GfErrType × CacheValue V
  | none => (.noErr, newValue)
  | some delta =>
    match entry.getValueI with
    -- a destroyed entry reads as null but keeps its token
    | .null => (.invalidDelta, entry.value)
    | oldValue => applyDelta region key oldValue delta

def putForTrackedEntry
    (newValue : CacheValue V) (entry : MapEntry) (isSlot : Bool) (entryImpl : ObjId)
    (updateCount : ℤ) (versionStamp : VersionStamp) (delta : Option D) :
    Outcome × MapSegment K V :=
  if updateCount < 0 ∨ s.concurrencyChecksEnabled then
    let (err, value) := updatedValue region key (s.heap entryImpl) newValue delta
    let s := s.setValueI entryImpl value
    if err ≠ .noErr then
      (.returned err, s)
    else
      let s := if s.concurrencyChecksEnabled then
        (s.eraseTombstone key).setStamp entryImpl versionStamp else s
      match s.incrementUpdateCount key entry isSlot with
      | none => (.badWeakPtr, s)
      | some s => (.returned .noErr, s)
  else if updateCount = entry.getUpdateCount s.heap then
    let s := s.setValueI entryImpl newValue
    (.returned .noErr, s.removeTracker key entry entryImpl)
  else
    -- updated while it was tracked
    (.returned .cacheEntryUpdated, s.removeTracker key entry entryImpl)

/-- The check that every versioned operation begins with: the error of a conflict, or the
stamp to store. With concurrency checks disabled there is no stamp. -/
def checkVersion (id : ObjId)
    (versionTag : Option VersionTag) (deltaCheck : Bool) : Except GfErrType VersionStamp :=
  if s.concurrencyChecksEnabled then
    let versionStamp := (s.heap id).versionStamp
    match versionTag with
    | none => .ok versionStamp
    | some tag =>
      match versionStamp.processVersionTag region.toMemberListForVersionStamp tag deltaCheck with
      | .noErr => .ok (.setVersions tag)
      | err => .error err
  else
    .ok {}

/-! ## The entry operations -/

def create (newValue : CacheValue V)
    (outs : OutParams V) (updateCount destroyTracker : ℤ) (versionTag : Option VersionTag) :
    CallResult K V :=
  match s.map.lookup key with
  | none =>
    let put := s.putNoEntry key newValue updateCount destroyTracker versionTag none
    ⟨.returned put.err, { outs with me := put.newEntry <|> outs.me }, put.segment⟩
  | some entry =>
    match entry.getImplPtr s.heap with
    | none => ⟨.badWeakPtr, outs, s⟩
    | some entryImpl =>
      let oldValue := (s.heap entryImpl).getValueI
      let outs := { outs with oldValue }
      match oldValue with
      | .null =>
        match s.checkVersion region entryImpl versionTag false with
        | .error err => ⟨.returned err, outs, s⟩
        | .ok versionStamp =>
          let put := putForTrackedEntry region s key newValue entry true entryImpl updateCount
            versionStamp none
          let outs := { outs with oldValue := .null }
          ⟨put.1, if put.1 = .returned .noErr then { outs with me := entryImpl } else outs, put.2⟩
      | .tombstone =>
        match s.checkVersion region entryImpl versionTag false with
        | .error err => ⟨.returned err, outs, s⟩
        | .ok versionStamp =>
          let put := (s.removeEntry key).putNoEntry key newValue updateCount destroyTracker
            versionTag versionStamp
          let outs := { outs with me := put.newEntry <|> outs.me, oldValue := .null }
          ⟨.returned put.err, if put.err = .noErr then { outs with me := entryImpl } else outs,
            put.segment⟩
      | _ => ⟨.returned .cacheEntryExists, outs, s⟩

end

def put (region : Region K V D M) (s : MapSegment K V) (key : K) (newValue : CacheValue V)
    (outs : OutParams V) (updateCount destroyTracker : ℤ) (versionTag : Option VersionTag)
    (delta : Option D) : CallResult K V :=
  match s.map.lookup key with
  | none =>
    if delta.isSome then
      ⟨.returned .invalidDelta, outs, s⟩
    else
      let put := s.putNoEntry key newValue updateCount destroyTracker versionTag none
      ⟨.returned put.err, { outs with isUpdate := false, me := put.newEntry <|> outs.me },
        put.segment⟩
  | some entry =>
    match entry.getImplPtr s.heap with
    | none => ⟨.badWeakPtr, outs, s⟩
    | some entryImpl =>
      let meOldValue := (s.heap entryImpl).getValueI
      match s.checkVersion region entryImpl versionTag delta.isSome with
      | .error err => ⟨.returned err, outs, s⟩
      | .ok versionStamp =>
        if meOldValue.isTombstone then
          let put := (s.removeEntry key).putNoEntry key newValue updateCount destroyTracker
            versionTag versionStamp
          ⟨.returned put.err, { outs with isUpdate := false, me := put.newEntry <|> outs.me },
            put.segment⟩
        else
          let put := putForTrackedEntry region s key newValue entry true entryImpl updateCount
            versionStamp delta
          if put.1 = .returned .noErr then
            let outs := { outs with
              me := some entryImpl
              oldValue := meOldValue
              isUpdate := !meOldValue.isNull }
            ⟨put.1, outs, put.2⟩
          else
            ⟨put.1, outs, put.2⟩

section

variable (region : Region K V D M) (s : MapSegment K V) (key : K) (outs : OutParams V)

/-- `MapSegment::invalidate`. A tombstone stays as it is, its stamp included. -/
def invalidate (versionTag : Option VersionTag) : CallResult K V :=
  let outs := { outs with isTokenAdded := false }
  match s.map.lookup key with
  | none =>
    if s.concurrencyChecksEnabled then
      let put := s.putNoEntry key .invalid (-1) (-1) versionTag none
      if put.err = .noErr then
        ⟨.returned .cacheEntryNotFound,
          { outs with isTokenAdded := true, me := put.newEntry <|> outs.me }, put.segment⟩
      else
        ⟨.returned put.err, outs, put.segment⟩
    else
      ⟨.returned .cacheEntryNotFound, outs, s⟩
  | some entry =>
    match s.checkVersion region entry.target versionTag false with
    | .error err => ⟨.returned err, outs, s⟩
    | .ok versionStamp =>
      match entry.getImplPtr s.heap with
      | none => ⟨.badWeakPtr, outs, s⟩
      | some entryImpl =>
        let oldValue := (s.heap entryImpl).getValueI
        if oldValue.isTombstone then
          ⟨.returned .cacheEntryNotFound, { outs with oldValue := .null }, s⟩
        else
          let s := s.setValueI entryImpl .invalid
          let s := if s.concurrencyChecksEnabled then s.setStamp entryImpl versionStamp else s
          let outs := { outs with oldValue }
          match s.incrementUpdateCount key entry false with
          | none => ⟨.badWeakPtr, outs, s⟩
          | some s =>
            ⟨.returned .noErr, if oldValue.isNull then outs else { outs with me := entryImpl }, s⟩

/-- `MapSegment::removeWhenConcurrencyEnabled`: the removed entry becomes a tombstone. -/
def removeWhenConcurrencyEnabled (updateCount : ℤ) (versionTag : Option VersionTag)
    (afterRemote : Bool) : CallResult K V :=
  let notFound : Outcome := .returned (if afterRemote then .noErr else .cacheEntryNotFound)
  match s.map.lookup key with
  | none =>
    -- the tombstone of an unknown entry is there for the versions of later events
    let s := if versionTag.isSome then
        let put := s.putNoEntry key .tombstone (-1) 0 versionTag none
        match put.newEntry with
        | none => put.segment
        | some id => put.segment.addTombstone id
      else s
    ⟨notFound, { outs with oldValue := .null, isEntryFound := false }, s⟩
  | some entry =>
    let outs := { outs with isEntryFound := true }
    match entry.getImplPtr s.heap with
    | none => ⟨.badWeakPtr, outs, s⟩
    | some entryImpl =>
      match s.checkVersion region entryImpl versionTag false with
      | .error err => ⟨.returned err, outs, s⟩
      | .ok versionStamp =>
        let oldValue := (s.heap entryImpl).getValueI
        let outs := { outs with
          oldValue
          me := if oldValue.isNull then outs.me else some entryImpl }
        let put := putForTrackedEntry region s key .tombstone entry false entryImpl updateCount
          versionStamp none
        let s := if put.1 = .returned .noErr then put.2.addTombstone entryImpl else put.2
        if oldValue.isTombstone then
          ⟨notFound, { outs with oldValue := .null }, s⟩
        else
          ⟨put.1, outs, s⟩

def remove
    (updateCount : ℤ) (versionTag : Option VersionTag) (afterRemote : Bool) : CallResult K V :=
  if s.concurrencyChecksEnabled then
    s.removeWhenConcurrencyEnabled region key outs updateCount versionTag afterRemote
  else
    match s.map.lookup key with
    | none =>
      ⟨.returned .cacheEntryNotFound, { outs with oldValue := .null },
        if s.numDestroyTrackers > 0 then
          { s with destroyedKeys := s.destroyedKeys.insert key (s.numDestroyTrackers + 1) }
        else s⟩
    | some entry =>
      -- unbound before anything is checked
      let unbound := s.unbind key
      if updateCount ≥ 0 ∧ updateCount ≠ entry.getUpdateCount s.heap then
        ⟨.returned .cacheEntryUpdated, outs, unbound⟩
      else
        match entry.getImplPtr s.heap with
        | none => ⟨.badWeakPtr, outs, unbound⟩
        | some entryImpl =>
          match (s.heap entryImpl).getValueI with
          | .null | .tombstone => ⟨.returned .noErr, { outs with oldValue := .null }, unbound⟩
          | oldValue => ⟨.returned .noErr, { outs with oldValue, me := entryImpl }, unbound⟩

/-! ## Reading a segment -/

/-- `MapSegment::isTombstone`: the error code and the answer; `none` where it throws. -/
def isTombstone : Option (GfErrType × Bool) :=
  match s.map.lookup key with
  | none => some (.noErr, false)
  | some entry =>
    match entry.getImplPtr s.heap with
    | none => none
    | some entryImpl =>
      match (s.heap entryImpl).getValueI with
      | .null => some (.noErr, false)
      | .tombstone =>
        if key ∈ s.tombstones then some (.noErr, true)
        else some (.cacheIllegalStateException, false)
      | _ =>
        if key ∈ s.tombstones then some (.cacheIllegalStateException, false)
        else some (.noErr, false)

end

/-- `MapSegment::getEntry`: the entry and its value, if the key has a value that is no
tombstone; `none` where it throws. -/
def getEntry (s : MapSegment K V) (key : K) : Option (Option (ObjId × CacheValue V)) :=
  match s.map.lookup key with
  | none => some none
  | some entry =>
    match entry.getImplPtr s.heap with
    | none => none
    | some entryImpl =>
      match (s.heap entryImpl).getValueI with
      | .null | .tombstone => some none
      | value => some (some (entryImpl, value))

/-- `MapSegment::getKeys`: the bound keys that hold no tombstone; `none` where it throws. -/
def getKeys (s : MapSegment K V) : Option (List K) :=
  if ∀ e ∈ s.map.entries, (e.2.getImplPtr s.heap).isSome then
    some ((s.map.entries.filter fun e => !(e.2.getValue s.heap).isTombstone).map (·.1))
  else
    none

/-- A segment with nothing in it. -/
def empty (concurrencyChecksEnabled : Bool) (numDestroyTrackers : ℤ) (heap : EntryHeap K V)
    (tombHeap : TombId → TombstoneEntry) : MapSegment K V where
  concurrencyChecksEnabled
  map := ∅
  heap
  nextObj := 0
  tombstones := ∅
  tombHeap
  nextTomb := 0
  numDestroyTrackers
  destroyedKeys := ∅

end MapSegment

end GeodeNative
