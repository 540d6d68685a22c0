import GeodeNative.Cache.TrackedSlot

/-!
# The operations of a region on a key

`LocalRegion::updateNoThrow` is the template behind put, create, destroy, remove and
invalidate: it asks the cache writer, tracks the entry, sends the update to the server, and
stores it in the local map. `getNoThrow` and `putAllNoThrow` track entries as well and release
the trackers in the destructor of a local object.

Each operation is modelled as it acts on the segment of one key. What the application and the
server answer is part of the call, and so are the attributes of the region. Statistics,
listeners' effects, expiry tasks and access times are not modelled.
-/

namespace GeodeNative

/-- The actions of `updateNoThrow`. -/
inductive UpdateAction
  | put
  | create
  | destroy
  | remove
  | removeEx
  | invalidate
  deriving DecidableEq, Repr

/-- Error codes: those of a segment, and those of a region. -/
inductive RegionErr
  | segment (err : GfErrType)
  | illegalArgument
  | regionDestroyed
  | notSup
  | cacheWriterError
  | enoent
  | loaderException
  | other (code : ℤ)
  deriving DecidableEq, Repr

/-- How an operation ends; an exception that leaves a destructor ends the process. -/
inductive RegionEnd
  | returned (err : RegionErr)
  | thrown
  | terminated
  deriving DecidableEq, Repr

/-- What a server answers to an update. -/
inductive RemoteReply
  | succeeds (versionTag : Option VersionTag)
  | fails (err : RegionErr)
  | throws
  deriving DecidableEq, Repr

/-- How a call on the region ends, and the segment it leaves. -/
structure RegionResult (K V : Type*) where
  ending : RegionEnd
  segment : MapSegment K V

/-- A call of `updateNoThrow`: its arguments, the attributes of the region, and the answers it
gets. -/
structure UpdateCall (V D : Type*) where
  value : NewValue V
  delta : Option D
  versionTag : Option VersionTag
  /-- the event flags -/
  isLocal : Bool
  isNotification : Bool
  invokeCacheWriter : Bool
  isNoCallbacks : Bool
  /-- the region -/
  destroyPending : Bool
  inTransaction : Bool
  isLocalRegion : Bool
  cachingEnabled : Bool
  processedMarker : Bool
  /-- the answer of the cache writer, if there is one -/
  writer : Option Bool
  remote : RemoteReply
  /-- whether a value has the serialized form of the argument; `none` where that throws -/
  serializedEqualTo : CacheValue V → Option Bool
  fullObject : RegionErr × NewValue V × Option VersionTag
  listener : RegionErr

def NewValue.isNull {V : Type*} (value : NewValue V) : Bool :=
  value.toCacheValue.isNull

namespace RegionEnd

/-- The end of a segment call. -/
def ofOutcome : Outcome → RegionEnd
  | .returned err => returned (.segment err)
  | .badWeakPtr => thrown

end RegionEnd

namespace LocalRegion

variable {K V D M : Type*} [DecidableEq K]

/-! ## Local updates -/

/-- A put of the whole object after a delta that could not be applied. -/
def putFullObject (region : Region K V D M) (key : K) (call : UpdateCall V D) (updateCount : ℤ)
    (versionTag : Option VersionTag) (s : MapSegment K V) : RegionResult K V :=
  let result := s.put region key call.fullObject.2.1.toCacheValue {} updateCount 0
    (call.fullObject.2.2 <|> versionTag) none
  ⟨.ofOutcome result.outcome, result.segment⟩

/-- The object is asked for, and put if it came. -/
def refetch (region : Region K V D M) (key : K) (call : UpdateCall V D) (updateCount : ℤ)
    (versionTag : Option VersionTag) (s : MapSegment K V) : RegionResult K V :=
  if call.fullObject.1 = .segment .noErr ∧ call.fullObject.2.1.isNull = false then
    putFullObject region key call updateCount versionTag s
  else
    ⟨.returned call.fullObject.1, s⟩

def putLocal (region : Region K V D M) (isCreate : Bool) (key : K) (call : UpdateCall V D)
    (updateCount : ℤ) (versionTag : Option VersionTag) (s : MapSegment K V) :
    RegionResult K V :=
  if call.cachingEnabled then
    if isCreate then
      let result := s.create region key call.value.toCacheValue {} updateCount 0 versionTag
      ⟨.ofOutcome result.outcome, result.segment⟩
    else
      let result := s.put region key call.value.toCacheValue {} updateCount 0 versionTag
        call.delta
      if result.outcome = .returned .invalidDelta then
        refetch region key call updateCount versionTag result.segment
      else
        ⟨.ofOutcome result.outcome, result.segment⟩
  else
    ⟨.returned (.segment .noErr), s⟩

section

variable (region : Region K V D M) (action : UpdateAction) (key : K) (call : UpdateCall V D)
    (updateCount : ℤ) (versionTag : Option VersionTag) (afterRemote : Bool)

/-- `DestroyActions::localUpdate`, and the end of `RemoveActions::localUpdate`. -/
def destroyLocal (s : MapSegment K V) : RegionResult K V :=
  if call.cachingEnabled then
    let result := s.remove region key {} updateCount versionTag afterRemote
    if result.outcome ≠ .badWeakPtr ∧ call.isNotification then
      ⟨.returned (.segment .noErr), result.segment⟩
    else
      ⟨.ofOutcome result.outcome, result.segment⟩
  else
    ⟨.returned (.segment .noErr), s⟩

/-- The value of an entry as `getEntry` gives it: absent entries have none. -/
def valueOf (found : Option (ObjId × CacheValue V)) : CacheValue V :=
  (found.map Prod.snd).getD .null

/-- The release of a tracker in the middle of an operation, which goes on with an error. -/
def releaseAndReturn (err : RegionErr) (s : MapSegment K V) : RegionResult K V :=
  if updateCount ≥ 0 ∧ s.concurrencyChecksEnabled = false then
    let released := s.removeTrackerForEntry key
    ⟨if released.1 then .returned err else .thrown, released.2⟩
  else
    ⟨.returned err, s⟩

/-- `RemoveActions::localUpdate`. The server has answered if the remote operation is done. -/
def removeLocal (s : MapSegment K V) : RegionResult K V :=
  if call.cachingEnabled then
    match s.getEntry key with
    | none => ⟨.thrown, s⟩
    | some found =>
      let valuePtr := valueOf found
      if valuePtr.isNull = false ∧ call.value.isNull = false then
        match call.serializedEqualTo valuePtr with
        | none => ⟨.thrown, s⟩
        | some false => ⟨.returned .enoent, s⟩
        | some true => destroyLocal region key call updateCount versionTag afterRemote s
      else if call.value.isNull ∧ (valuePtr.isInvalid = false ∨ valuePtr.isNull) then
        releaseAndReturn key updateCount
          (if afterRemote ∧ valuePtr.isNull then .segment .noErr else .enoent) s
      else if valuePtr.isNull ∧ call.value.isNull = false ∧ afterRemote = false then
        ⟨.returned .enoent, s⟩
      else
        destroyLocal region key call updateCount versionTag afterRemote s
  else
    destroyLocal region key call updateCount versionTag afterRemote s

def invalidateLocal (s : MapSegment K V) : RegionResult K V :=
  if call.cachingEnabled then
    let result := s.invalidate region key {} versionTag
    match result.outcome with
    | .returned .cacheConcurrentModificationException =>
      ⟨.returned (.segment .noErr), result.segment⟩
    | .returned .cacheEntryNotFound =>
      ⟨.returned (.segment (if call.isNotification then .noErr else .cacheEntryNotFound)),
        result.segment⟩
    | outcome => ⟨.ofOutcome outcome, result.segment⟩
  else
    ⟨.returned (.segment .noErr), s⟩

def localUpdate (s : MapSegment K V) : RegionResult K V :=
  match action with
  | .put => putLocal region false key call updateCount versionTag s
  | .create => putLocal region true key call updateCount versionTag s
  | .destroy => destroyLocal region key call updateCount versionTag afterRemote s
  | .remove => removeLocal region key call updateCount versionTag afterRemote s
  | .removeEx => destroyLocal region key call updateCount versionTag afterRemote s
  | .invalidate => invalidateLocal region key call versionTag s

/-! ## The template -/

def checkArgs : Bool :=
  match action with
  | .put => !call.value.isNull || call.delta.isSome
  | _ => true

/-- `getCallbackOldValue` of each action; returns whether it did not throw. -/
def getCallbackOldValue (s : MapSegment K V) : Bool :=
  if action ≠ .create ∧ call.cachingEnabled then (s.getEntry key).isSome else true

/-- `remoteUpdate` of each action. A remove first compares the value with the local one. -/
def remoteUpdate (s : MapSegment K V) : RemoteReply :=
  if action = .remove ∧ call.cachingEnabled then
    match s.getEntry key with
    | none => .throws
    | some found =>
      let oldValue := valueOf found
      if oldValue.isNull = false ∧ call.value.isNull = false then
        match call.serializedEqualTo oldValue with
        | none => .throws
        | some false => .fails .enoent
        | some true => call.remote
      else if oldValue.isNull ∨ oldValue.isInvalid then
        call.remote
      else
        .fails .enoent
  else
    call.remote

/-- The end of the template: the listener's error is returned. -/
def callListener (err : RegionErr) (s : MapSegment K V) : RegionResult K V :=
  ⟨.returned (if call.isNoCallbacks then err else call.listener), s⟩

/-- What the template makes of a local update. -/
def afterLocal (result : RegionResult K V) : RegionResult K V :=
  match result.ending with
  | .returned (.segment .noErr) => callListener call (.segment .noErr) result.segment
  | .returned (.segment .cacheEntryUpdated) => callListener call (.segment .noErr) result.segment
  | .returned (.segment .cacheConcurrentModificationException) =>
    ⟨.returned (.segment .noErr), result.segment⟩
  | .returned (.segment .invalidDelta) =>
    if call.fullObject.1 = .segment .noErr ∧ call.fullObject.2.1.isNull = false then
      let again := putFullObject region key call updateCount versionTag result.segment
      match again.ending with
      | .returned (.segment .noErr) => callListener call (.segment .noErr) again.segment
      | .returned (.segment .cacheConcurrentModificationException) =>
        ⟨.returned (.segment .noErr), again.segment⟩
      | _ => again
    else
      callListener call call.fullObject.1 result.segment
  | _ => result

/-- The local part of the template. -/
def store (remoteOpDone : Bool) (s : MapSegment K V) : RegionResult K V :=
  if call.isNotification = false ∨ call.processedMarker then
    afterLocal region key call updateCount versionTag
      (localUpdate region action key call updateCount versionTag remoteOpDone s)
  else if getCallbackOldValue action key call s then
    let released := releaseAndReturn key updateCount (.segment .noErr) s
    match released.ending with
    | .returned err => callListener call err released.segment
    | _ => released
  else
    ⟨.thrown, s⟩

end

section

variable (region : Region K V D M) (action : UpdateAction) (key : K) (call : UpdateCall V D)
    (updateCount : ℤ) (s : MapSegment K V)

/-- The remote part of the template, once the entry is tracked. -/
def send : RegionResult K V :=
  match remoteUpdate action key call s with
  | .throws => ⟨.thrown, s⟩
  | .fails err => releaseAndReturn key updateCount err s
  | .succeeds versionTag => store region action key call updateCount versionTag true s

/-- Tracks the entry, if the region caches and the caller does not track it already. -/
def trackAndSend : RegionResult K V :=
  if call.cachingEnabled ∧ updateCount < 0 ∧ s.concurrencyChecksEnabled = false then
    let added := s.addTrackerForEntry key .null true (action = .create) true
    match added.updateCount with
    | none => ⟨.thrown, added.segment⟩
    | some count =>
      if count < 0 ∧ added.oldValue.isNull = false then
        ⟨.returned (.segment .cacheEntryExists), added.segment⟩
      else
        send region action key call count added.segment
  else
    send region action key call updateCount s

/-- In a transaction the update is only sent. -/
def updateInTransaction : RegionResult K V :=
  if call.isLocalRegion ∨ call.isLocal then
    ⟨.returned .notSup, s⟩
  else
    match remoteUpdate action key call s with
    | .throws => ⟨.thrown, s⟩
    | .fails err => ⟨.returned err, s⟩
    | .succeeds _ => ⟨.returned (.segment .noErr), s⟩

/-- The end of an update that the cache writer stops, if it does. -/
def askWriter : Option RegionEnd :=
  if call.invokeCacheWriter then
    match call.writer with
    | none => none
    | some agrees =>
      if getCallbackOldValue action key call s then
        if agrees then none else some (.returned .cacheWriterError)
      else some .thrown
  else
    none

def updateNoThrow : RegionResult K V :=
  if checkArgs action call = false then
    ⟨.returned .illegalArgument, s⟩
  else if call.destroyPending then
    ⟨.returned .regionDestroyed, s⟩
  else if call.inTransaction then
    updateInTransaction action key call s
  else
    match askWriter action key call s with
    | some ending => ⟨ending, s⟩
    | none =>
      if call.isLocal = false ∧ call.isNotification = false then
        trackAndSend region action key call updateCount s
      else
        store region action key call updateCount call.versionTag false s

end

/-! ## Get -/

/-- A call of `getNoThrow`. The reply of the server has an error code, a value and a tag, or it
throws; a loader throws or gives a value. -/
structure GetCall (V : Type*) where
  destroyPending : Bool
  inTransaction : Bool
  isLocalRegion : Bool
  cachingEnabled : Bool
  remote : Option (RegionErr × CacheValue V × Option VersionTag)
  loader : Option (Option (CacheValue V))
  listener : RegionErr

/-- The end of `getNoThrow`: what was found is stored, unless it is a tombstone that hides
nothing. -/
def storeGotten (region : Region K V D M) (key : K) (call : GetCall V) (updateCount : ℤ)
    (localValue value : CacheValue V) (err : RegionErr) (versionTag : Option VersionTag)
    (s : MapSegment K V) : RegionResult K V :=
  if value.isNull = false ∧ call.cachingEnabled ∧
      ¬ (value.isTombstone ∧ (localValue.isNull ∨ localValue.isInvalid)) then
    let result := s.put region key value {} updateCount 0 versionTag none
    match result.outcome with
    | .badWeakPtr => ⟨.thrown, result.segment⟩
    | .returned .cacheConcurrentModificationException =>
      ⟨.returned (.segment .noErr), result.segment⟩
    | .returned _ => ⟨.returned call.listener, result.segment⟩
  else
    ⟨.returned err, s⟩

/-- The part of `getNoThrow` after the entry is tracked. -/
def fetch (region : Region K V D M) (key : K) (call : GetCall V) (updateCount : ℤ)
    (localValue : CacheValue V) (s : MapSegment K V) : RegionResult K V :=
  match call.remote with
  | none => ⟨.thrown, s⟩
  | some (err, value, versionTag) =>
    if value.isNull ∨ value.isInvalid ∨ value.isTombstone then
      match call.loader with
      | none => storeGotten region key call updateCount localValue value err versionTag s
      | some none => ⟨.returned .loaderException, s⟩
      | some (some loaded) =>
        if err = .segment .noErr then
          storeGotten region key call updateCount localValue loaded err versionTag s
        else
          ⟨.returned err, s⟩
    else
      storeGotten region key call updateCount localValue value err versionTag s

/-- The destructor of `RemoveTracking`. -/
def removeTracking (key : K) (updateCount : ℤ) (result : RegionResult K V) : RegionResult K V :=
  if updateCount ≥ 0 ∧ result.segment.concurrencyChecksEnabled = false then
    let released := result.segment.removeTrackerForEntry key
    ⟨if released.1 then result.ending else .terminated, released.2⟩
  else
    result

def getNoThrow (region : Region K V D M) (key : K) (call : GetCall V) (s : MapSegment K V) :
    RegionResult K V :=
  if call.destroyPending then
    ⟨.returned .regionDestroyed, s⟩
  else if call.inTransaction then
    if call.isLocalRegion then ⟨.returned .notSup, s⟩
    else
      match call.remote with
      | none => ⟨.thrown, s⟩
      | some (err, _, _) => ⟨.returned err, s⟩
  else if call.cachingEnabled then
    match s.getEntry key with
    | none => ⟨.thrown, s⟩
    | some found =>
      let localValue := valueOf found
      if localValue.isNull = false ∧ localValue.isInvalid = false then
        ⟨.returned (.segment .noErr), s⟩
      else if s.concurrencyChecksEnabled then
        fetch region key call (-1) localValue s
      else
        let added := s.addTrackerForEntry key .null true false false
        match added.updateCount with
        | none => ⟨.thrown, added.segment⟩
        | some count =>
          removeTracking key count (fetch region key call count localValue added.segment)
  else
    fetch region key call (-1) .null s

/-! ## Put all -/

/-- A call of `putAllNoThrow` as one of its keys sees it. What happens to the other keys
decides whether the key is tracked at all, whether the call is stopped after that, whether the
value of the key is stored, and whether the destructor comes to the key. -/
structure PutAllCall (V D : Type*) where
  destroyPending : Bool
  inTransaction : Bool
  cachingEnabled : Bool
  /-- the loop that tracks the keys comes to the key -/
  reached : Bool
  /-- the cache writer or an exception stops the call before it is sent -/
  stopped : Bool
  remote : RemoteReply
  /-- the local put of the key, if the call comes to it -/
  stored : Option (UpdateCall V D)
  /-- the destructor comes to the key: no key before it ended the process -/
  destructorReaches : Bool
  /-- how the call ends otherwise -/
  ending : RegionEnd

/-- The part of `putAllNoThrow` after the key is tracked; the local put is given the update
count, and is local. -/
def sendAll (region : Region K V D M) (key : K) (call : PutAllCall V D) (updateCount : ℤ)
    (s : MapSegment K V) : RegionResult K V :=
  match call.stopped, call.remote, call.stored with
  | false, .succeeds _, some put =>
    updateNoThrow region .put key
      { put with isLocal := true, isNotification := false, invokeCacheWriter := false }
      updateCount s
  | _, _, _ => ⟨call.ending, s⟩

def putAllNoThrow (region : Region K V D M) (key : K) (call : PutAllCall V D)
    (s : MapSegment K V) : RegionResult K V :=
  if call.destroyPending then
    ⟨.returned .regionDestroyed, s⟩
  else if call.inTransaction = false ∧ call.cachingEnabled ∧
      s.concurrencyChecksEnabled = false ∧ call.reached then
    let added := s.addTrackerForEntry key .null true false true
    match added.updateCount with
    | none => ⟨.thrown, added.segment⟩
    | some count =>
      let sent := sendAll region key call count added.segment
      if call.destructorReaches then removeTracking key count sent
      else ⟨.terminated, sent.segment⟩
  else
    ⟨call.ending, s⟩

end LocalRegion

end GeodeNative
