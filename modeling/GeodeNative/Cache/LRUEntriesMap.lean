import GeodeNative.Cache.EntriesMap
import GeodeNative.Cache.LRUQueue

/-!
# The entry map with eviction

`LRUEntriesMap` is a `ConcurrentEntriesMap` that queues its entries by their last use and
evicts the least recently used ones. Eviction destroys an entry locally or writes its value
to disk and leaves the token `overflowed` in its place. The queue, the iterators in the
entries and the counter of entries with a value are adjusted after a segment has done its
part, from what it returned.

Every function is the method of the same name. Its result is `none` where the behaviour of
the code is undefined; a call that throws leaves the effects it had before the exception.
What the disk and the region do is given with the call. The number of bytes that is
reported to the heap eviction controller is not modelled; what the controller does is call
`processLRUCount`.
-/

namespace GeodeNative

/-- What happens to an evicted entry. -/
inductive LRUAction
  | localDestroy
  | overflowToDisk
  deriving DecidableEq, Repr

/-- The attributes of a map that its functions read. -/
structure LRUConfig where
  action : LRUAction
  limit : BitVec 32
  heapLRUEnabled : Bool

/-- How an eviction goes on the side of the region and of the disk. -/
inductive EvictOutcome
  /-- the region is being destroyed, or the thread has a transaction -/
  | refused
  /-- the value cannot be written, or the listener of a local destroy throws -/
  | failed
  | done
  deriving DecidableEq, Repr

/-- What `PersistenceManager::read` does. -/
inductive DiskRead (V : Type*)
  | threw
  | null
  | value (v : V)

/-- The exceptions that leave the map. -/
inductive LRUException
  | badWeakPtr
  | diskFailure
  | fatalInternal
  deriving DecidableEq, Repr

/-- The error codes that the map returns: those of a segment, and those of an eviction. -/
inductive LRUCode
  | ofSegment (err : GfErrType)
  | enoent
  | diskFull
  deriving DecidableEq, Repr

structure LRUEntriesMap (n : ℕ) (K V : Type*) where
  map : ConcurrentEntriesMap n K V
  queue : LRUQueue (Fin n × ObjId)
  validEntries : BitVec 32

/-- What a call returns and leaves. -/
structure LRUResult (n : ℕ) (K V : Type*) where
  outcome : Except LRUException LRUCode
  outs : OutParams V
  map : LRUEntriesMap n K V

/-- What `get` returns and leaves. -/
structure LRUGetResult (n : ℕ) (K V : Type*) where
  found : Except LRUException Bool
  value : CacheValue V
  me : Option ObjId
  map : LRUEntriesMap n K V

/-- The calls that the map serves, with what the disk and the region do meanwhile: `evictions`
gives the outcome of each eviction that the call makes. -/
inductive LRUCall (K V D : Type*)
  | create (key : K) (newValue : NewValue V) (updateCount destroyTracker : ℤ)
      (versionTag : Option VersionTag) (evictions : ℕ → EvictOutcome)
  | put (key : K) (newValue : NewValue V) (updateCount destroyTracker : ℤ)
      (versionTag : Option VersionTag) (delta : Option D) (read : DiskRead V)
      (evictions : ℕ → EvictOutcome)
  | get (key : K) (read : DiskRead V) (evictions : ℕ → EvictOutcome)
  | invalidate (key : K) (versionTag : Option VersionTag) (read : DiskRead V)
  | remove (key : K) (updateCount : ℤ) (versionTag : Option VersionTag) (afterRemote : Bool)
      (read : DiskRead V)
  | clear
  | processLRU (numEntriesToEvict : ℕ) (evictions : ℕ → EvictOutcome)

/-- The old value of an overflowed entry is read from disk. A map that does not overflow has
no persistence manager. -/
def LRUConfig.fetch {V : Type*} (config : LRUConfig) (read : DiskRead V)
    (oldValue : CacheValue V) : Option (Except LRUException (CacheValue V)) :=
  if oldValue.isOverflowed then
    match config.action, read with
    | .localDestroy, _ => none
    | .overflowToDisk, .threw => some (.error .diskFailure)
    | .overflowToDisk, .null => some (.ok .null)
    | .overflowToDisk, .value v => some (.ok (.object v))
  else
    some (.ok oldValue)

namespace LRUEntriesMap

variable {n : ℕ} [NeZero n] {K V D M : Type*} [DecidableEq K]

/-! ## Elementary updates -/

def setSegment (m : LRUEntriesMap n K V) (i : Fin n) (s : MapSegment K V) : LRUEntriesMap n K V :=
  { m with map := m.map.setSegment i s }

/-- Adds to the counter of keys. -/
def addSize (m : LRUEntriesMap n K V) (change : BitVec 32) : LRUEntriesMap n K V :=
  { m with map := { m.map with size := m.map.size + change } }

/-- Adds to the counter of entries with a value. -/
def addValid (m : LRUEntriesMap n K V) (change : BitVec 32) : LRUEntriesMap n K V :=
  { m with validEntries := m.validEntries + change }

def push (m : LRUEntriesMap n K V) (i : Fin n) (id : ObjId) : LRUEntriesMap n K V :=
  { m with queue := m.queue.push (i, id) }

section Updates

omit [NeZero n] [DecidableEq K]

variable (m : LRUEntriesMap n K V) (i : Fin n) (s : MapSegment K V) (id : ObjId)
  (change : BitVec 32)

@[simp] lemma segments_setSegment :
    (m.setSegment i s).map.segments = Function.update m.map.segments i s := rfl

@[simp] lemma queue_setSegment : (m.setSegment i s).queue = m.queue := rfl

@[simp] lemma validEntries_setSegment : (m.setSegment i s).validEntries = m.validEntries := rfl

@[simp] lemma segments_addSize : (m.addSize change).map.segments = m.map.segments := rfl

@[simp] lemma queue_addSize : (m.addSize change).queue = m.queue := rfl

@[simp] lemma validEntries_addSize : (m.addSize change).validEntries = m.validEntries := rfl

@[simp] lemma segments_addValid : (m.addValid change).map.segments = m.map.segments := rfl

@[simp] lemma queue_addValid : (m.addValid change).queue = m.queue := rfl

@[simp] lemma validEntries_addValid :
    (m.addValid change).validEntries = m.validEntries + change := rfl

@[simp] lemma segments_push : (m.push i id).map.segments = m.map.segments := rfl

@[simp] lemma queue_push : (m.push i id).queue = m.queue.push (i, id) := rfl

@[simp] lemma validEntries_push : (m.push i id).validEntries = m.validEntries := rfl

end Updates

variable (config : LRUConfig) (region : Region K V D M) (hashcode : K → BitVec 32)

/-! ## Removing and invalidating -/

section

variable (m : LRUEntriesMap n K V)

def remove (key : K) (outs : OutParams V) (updateCount : ℤ)
    (versionTag : Option VersionTag) (afterRemote : Bool) (read : DiskRead V) :
    Option (LRUResult n K V) :=
  let i := ConcurrentEntriesMap.segmentIdx n hashcode key
  let result := (m.map.segments i).remove region key { outs with isEntryFound := true }
    updateCount versionTag afterRemote
  let m := m.setSegment i result.segment
  match result.outcome with
  | .badWeakPtr => some ⟨.error .badWeakPtr, result.outs, m⟩
  | .returned .noErr =>
    match result.outs.oldValue.isNull, result.outs.me with
    | false, some id =>
      (m.queue.remove (i, id)).bind fun queue =>
        let m := { m with queue }
        let m := if result.outs.isEntryFound then m.addSize (-1) else m
        let m := if result.outs.oldValue.isToken then m else m.addValid (-1)
        (config.fetch read result.outs.oldValue).map fun
          | .error exception => ⟨.error exception, result.outs, m⟩
          | .ok oldValue => ⟨.ok (.ofSegment .noErr), { result.outs with oldValue }, m⟩
    | _, _ => some ⟨.ok (.ofSegment .noErr), result.outs, m⟩
  | .returned err => some ⟨.ok (.ofSegment err), result.outs, m⟩

def invalidate (key : K) (outs : OutParams V)
    (versionTag : Option VersionTag) (read : DiskRead V) : Option (LRUResult n K V) :=
  let i := ConcurrentEntriesMap.segmentIdx n hashcode key
  let result := (m.map.segments i).invalidate region key { outs with isTokenAdded := false }
    versionTag
  let m := m.setSegment i result.segment
  match result.outcome with
  | .badWeakPtr => some ⟨.error .badWeakPtr, result.outs, m⟩
  | .returned .noErr =>
    let m := if result.outs.isTokenAdded then m.addSize 1 else m
    (config.fetch read result.outs.oldValue).bind fun
      | .error exception => some ⟨.error exception, result.outs, m⟩
      | .ok oldValue =>
        let outs := { result.outs with oldValue }
        if result.outs.oldValue.isToken then
          some ⟨.ok (.ofSegment .noErr), outs, m⟩
        else
          -- the entry is dereferenced
          match result.outs.me with
          | none => none
          | some id => (m.queue.remove (i, id)).map fun queue =>
            ⟨.ok (.ofSegment .noErr), outs, { m.addValid (-1) with queue }⟩
  | .returned err =>
    some ⟨.ok (.ofSegment err), result.outs, if result.outs.isTokenAdded then m.addSize 1 else m⟩

/-- `LRUEntriesMap::clear`: the queue and the counter of entries with a value stay. -/
def clear : LRUEntriesMap n K V :=
  { m with map := m.map.clear }

/-! ## Eviction -/

/-- The code of a local destroy that got this outcome from the map. -/
def destroyed (outcome : Except LRUException LRUCode) (evictOutcome : EvictOutcome) :
    Except LRUException Bool :=
  match outcome with
  | .error exception => .error exception
  -- an entry that was updated meanwhile is no error, and one with a higher version is not
  -- reported to the listener
  | .ok (.ofSegment .cacheConcurrentModificationException) => .ok true
  | .ok (.ofSegment .noErr) | .ok (.ofSegment .cacheEntryUpdated) =>
    .ok (decide (evictOutcome = .done))
  | .ok _ => .ok false

/-- `LRULocalDestroyAction::evict`: the region destroys the key of the entry. -/
def localDestroy (entry : Fin n × ObjId) (outcome : EvictOutcome) :
    Option (Except LRUException Bool × LRUEntriesMap n K V) :=
  match outcome, ((m.map.segments entry.1).heap entry.2).key with
  | .refused, _ | _, none => some (.ok false, m)
  | outcome, some key =>
    (m.remove config region hashcode key {} (-1) none false .null).map fun result =>
      (destroyed result.outcome outcome, result.map)

/-- `LRUOverFlowToDiskAction::evict`: the value is written to disk. -/
def overflowToDisk (entry : Fin n × ObjId) (outcome : EvictOutcome) :
    Except LRUException Bool × LRUEntriesMap n K V :=
  let s := m.map.segments entry.1
  if outcome = .refused then
    (.ok false, m)
  else if (s.heap entry.2).getValueI.isNull then
    (.error .fatalInternal, m)
  else if outcome = .failed then
    (.ok false, m)
  else
    (.ok true, m.setSegment entry.1 (s.setValueI entry.2 .overflowed))

/-- `m_action->evict`. -/
def evict (entry : Fin n × ObjId) (outcome : EvictOutcome) :
    Option (Except LRUException Bool × LRUEntriesMap n K V) :=
  match config.action with
  | .localDestroy => m.localDestroy config region hashcode entry outcome
  | .overflowToDisk => some (m.overflowToDisk entry outcome)

def evictionHelper (outcome : EvictOutcome) :
    Option (Except LRUException LRUCode × LRUEntriesMap n K V) :=
  match m.queue.pop with
  | none => some (.ok .enoent, m)
  | some (entry, queue) =>
    let m := { m with queue }
    (m.evict config region hashcode entry outcome).map fun
      | (.error exception, m) => (.error exception, m)
      | (.ok false, m) => (.ok .diskFull, m)
      | (.ok true, m) => (.ok (.ofSegment .noErr),
        if config.action = .overflowToDisk then m.addValid (-1) else m)

def mustEvict : Bool :=
  match config.action with
  | .overflowToDisk => decide (m.validEntries > config.limit)
  | .localDestroy =>
    if config.heapLRUEnabled && config.limit == 0 then false else decide (m.map.size > config.limit)

end

/-- The loop of `processLRU`, with the number of the next eviction. Each round takes an entry
out of the queue, so that it needs one round more than there are entries. -/
def processLRULoop (evictions : ℕ → EvictOutcome) :
    ℕ → ℕ → LRUEntriesMap n K V → Option (Except LRUException LRUCode × LRUEntriesMap n K V)
  | 0, _, m => some (.ok (.ofSegment .noErr), m)
  | rounds + 1, j, m =>
    if m.mustEvict config then
      (m.evictionHelper config region hashcode (evictions j)).bind fun
        | (.ok (.ofSegment .noErr), m) => processLRULoop evictions rounds (j + 1) m
        | (outcome, m) => some (outcome, m)
    else
      some (.ok (.ofSegment .noErr), m)

def processLRU (m : LRUEntriesMap n K V) (evictions : ℕ → EvictOutcome) :
    Option (Except LRUException LRUCode × LRUEntriesMap n K V) :=
  processLRULoop config region hashcode evictions (m.queue.entries.length + 1) 0 m

/-- `LRUEntriesMap::processLRU(numEntriesToEvict)`, with the number of the next eviction. -/
def processLRUCount (evictions : ℕ → EvictOutcome) :
    ℕ → ℕ → LRUEntriesMap n K V → Option (Except LRUException Unit × LRUEntriesMap n K V)
  | 0, _, m => some (.ok (), m)
  | count + 1, j, m =>
    if m.validEntries > 0 ∧ m.map.size > 0 then
      (m.evictionHelper config region hashcode (evictions j)).bind fun
        | (.error exception, m) => some (.error exception, m)
        | (.ok _, m) => processLRUCount evictions count (j + 1) m
    else
      some (.ok (), m)

/-! ## Storing and reading -/

/-- Queues the entry of a key and evicts what is too much; a null entry is dereferenced. -/
def enqueue (m : LRUEntriesMap n K V) (i : Fin n) (key : K) (outs : OutParams V)
    (evictions : ℕ → EvictOutcome) : Option (LRUResult n K V) :=
  match (m.map.segments i).getEntry key with
  | none => some ⟨.error .badWeakPtr, outs, m⟩
  | some none => none
  | some (some (id, _)) =>
    ((m.push i id).processLRU config region hashcode evictions).map fun (outcome, m) =>
      ⟨outcome, { outs with me := some id }, m⟩

def create (m : LRUEntriesMap n K V) (key : K) (newValue : CacheValue V) (outs : OutParams V)
    (updateCount destroyTracker : ℤ) (versionTag : Option VersionTag)
    (evictions : ℕ → EvictOutcome) : Option (LRUResult n K V) :=
  let i := ConcurrentEntriesMap.segmentIdx n hashcode key
  let result := (m.map.segments i).create region key newValue outs updateCount destroyTracker
    versionTag
  let m := m.setSegment i result.segment
  match result.outcome with
  | .badWeakPtr => some ⟨.error .badWeakPtr, result.outs, m⟩
  | .returned .noErr =>
    let m := if newValue.isToken then m else m.addValid 1
    let m := if result.outs.oldValue.isInvalid then m else m.addSize 1
    match (m.map.segments i).getEntry key with
    | some none => some ⟨.ok (.ofSegment .noErr), result.outs, m⟩
    | _ => m.enqueue config region hashcode i key result.outs evictions
  | .returned err => some ⟨.ok (.ofSegment err), result.outs, m⟩

def put (m : LRUEntriesMap n K V) (key : K) (newValue : CacheValue V) (outs : OutParams V)
    (updateCount destroyTracker : ℤ) (versionTag : Option VersionTag) (delta : Option D)
    (read : DiskRead V) (evictions : ℕ → EvictOutcome) : Option (LRUResult n K V) :=
  let i := ConcurrentEntriesMap.segmentIdx n hashcode key
  let result := (m.map.segments i).put region key newValue outs updateCount destroyTracker
    versionTag delta
  let m := m.setSegment i result.segment
  match result.outcome with
  | .badWeakPtr => some ⟨.error .badWeakPtr, result.outs, m⟩
  | .returned .noErr =>
    let isOldValueToken := result.outs.oldValue.isToken
    (config.fetch read result.outs.oldValue).bind fun
      | .error exception => some ⟨.error exception, result.outs, m⟩
      | .ok oldValue =>
        let outs := { result.outs with oldValue }
        let m := if newValue.isToken && !isOldValueToken then m.addValid (-1) else m
        let m := if !newValue.isToken && isOldValueToken then m.addValid 1 else m
        if !result.outs.isUpdate then
          ((m.addSize 1).addValid 1).enqueue config region hashcode i key outs evictions
        else if !newValue.isToken && isOldValueToken then
          m.enqueue config region hashcode i key outs evictions
        else
          (m.processLRU config region hashcode evictions).map fun (outcome, m) =>
            ⟨outcome, outs, m⟩
  | .returned err => some ⟨.ok (.ofSegment err), result.outs, m⟩

def get (m : LRUEntriesMap n K V) (key : K) (read : DiskRead V)
    (evictions : ℕ → EvictOutcome) : Option (LRUGetResult n K V) :=
  let i := ConcurrentEntriesMap.segmentIdx n hashcode key
  match (m.map.segments i).getEntry key with
  | none => some ⟨.error .badWeakPtr, .null, none, m⟩
  | some none => some ⟨.ok false, .null, none, m⟩
  | some (some (id, value)) =>
    if value.isOverflowed then
      (config.fetch read value).bind fun
        -- the exception is caught
        | .error _ => some ⟨.ok false, value, none, m⟩
        | .ok value =>
          let result := (m.map.segments i).put region key value { me := some id } 0 0 none none
          let m := m.setSegment i result.segment
          match result.outcome, result.outs.me with
          | .badWeakPtr, _ => some ⟨.error .badWeakPtr, value, none, m⟩
          | .returned .noErr, some id =>
            (((m.addValid 1).push i id).processLRU config region hashcode evictions).map
              fun (outcome, m) =>
                ⟨outcome.map fun code => decide (code = .ofSegment .noErr), value, some id, m⟩
          | .returned .noErr, none => none
          | .returned _, _ => some ⟨.ok false, value, none, m⟩
    else
      (m.queue.moveToEnd (i, id)).map fun queue => ⟨.ok true, value, some id, { m with queue }⟩

/-! ## Calls -/

def call (m : LRUEntriesMap n K V) : LRUCall K V D → Option (LRUEntriesMap n K V)
  | .create key newValue updateCount destroyTracker versionTag evictions =>
    (m.create config region hashcode key newValue.toCacheValue {} updateCount destroyTracker
      versionTag evictions).map LRUResult.map
  | .put key newValue updateCount destroyTracker versionTag delta read evictions =>
    (m.put config region hashcode key newValue.toCacheValue {} updateCount destroyTracker
      versionTag delta read evictions).map LRUResult.map
  | .get key read evictions =>
    (m.get config region hashcode key read evictions).map LRUGetResult.map
  | .invalidate key versionTag read =>
    (m.invalidate config region hashcode key {} versionTag read).map LRUResult.map
  | .remove key updateCount versionTag afterRemote read =>
    (m.remove config region hashcode key {} updateCount versionTag afterRemote read).map
      LRUResult.map
  | .clear => some m.clear
  | .processLRU numEntriesToEvict evictions =>
    (processLRUCount config region hashcode evictions numEntriesToEvict 0 m).map Prod.snd

/-- A run goes on as long as the behaviour is defined. -/
def step (m : Option (LRUEntriesMap n K V)) (c : LRUCall K V D) : Option (LRUEntriesMap n K V) :=
  m.bind fun m => m.call config region hashcode c

/-- A map with nothing in it. -/
def empty (n : ℕ) (concurrencyChecksEnabled : Bool) (heap : EntryHeap K V)
    (tombHeap : TombId → TombstoneEntry) : LRUEntriesMap n K V where
  map := .empty n concurrencyChecksEnabled heap tombHeap
  queue := .empty
  validEntries := 0

end LRUEntriesMap

end GeodeNative
