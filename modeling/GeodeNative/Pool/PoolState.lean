import GeodeNative.Pool.TcrEndpoint

/-!
# The connections of a pool

`ThinClientPoolDM` keeps idle connections in a queue that can be closed, counts its connections
in `m_poolSize`, and leaves one connection to each thread that runs a transaction, in a
thread-local slot that the sticky manager knows about. The functions below are those that move a
connection from one of these places to another, or make or close one; they work on what all
threads share, `PoolState`, and on the slot of the calling thread.

Choosing a server, making a connection, the exchange on the socket and the clock are outcomes that
are given with the call.
-/

namespace GeodeNative

open TcrEndpoint

/-- The attributes of a pool that its connection code reads. -/
structure PoolAttributes where
  minConnections : ℤ
  maxConnections : ℤ
  retryAttempts : ℤ
  threadLocalConnections : Bool
  deriving DecidableEq, Repr

/-- The largest number of connections; the value -1 stands for no limit. -/
def PoolAttributes.limit (attrs : PoolAttributes) : ℤ :=
  max (if attrs.maxConnections = -1 then 0x7fffffff else attrs.maxConnections) attrs.minConnections

/-- What the threads of a pool share: the connection objects, the queue with its front first, its
flag `closed_`, and `m_poolSize`. -/
structure PoolState where
  heap : ConnHeap
  queue : List ConnId
  closed : Bool
  poolSize : ℤ
  deriving DecidableEq, Repr

/-- The thread-local connection of a thread, and whether the sticky manager has the address of the
slot in its list. -/
structure StickySlot where
  conn : Option ConnId
  registered : Bool
  deriving DecidableEq, Repr

/-- An error other than `GF_NOERR`, which is what `handleServerException` returns. -/
abbrev ServerError := { e : PoolErrType // e ≠ .noErr }

namespace PoolState

/-! ## The queue -/

/-- The endpoint object of a connection. -/
def serverOf (s : PoolState) (conn : ConnId) : ServerId := (s.heap.label conn).getD 0

/-- `GF_SAFE_DELETE_CON`: close a connection and delete it. -/
def safeDeleteCon (s : PoolState) (conn : ConnId) : PoolState :=
  { s with heap := (s.heap.access conn).delete conn }

/-- `ThinClientPoolDM::reducePoolSize`. -/
def reducePoolSize (s : PoolState) (num : ℤ) : PoolState :=
  { s with poolSize := s.poolSize - num }

/-- `ConnectionQueue::put`, never with the request to open the queue: a closed queue closes the
connection, and nobody is told. -/
def put (s : PoolState) (conn : ConnId) : PoolState :=
  if s.closed then s.safeDeleteCon conn else { s with queue := conn :: s.queue }

/-- `ConnectionQueue::popNoLock`, which is all of `getNoWait`. -/
def popNoLock (s : PoolState) : Option ConnId × PoolState :=
  if s.closed then (none, s)
  else
    match s.queue.getLast? with
    | none => (none, s)
    | some conn => (some conn, { s with queue := s.queue.dropLast })

/-- The loop of `getFromEP` over the queue; it asks every connection for its endpoint. -/
def scanFor (server : ServerId) : List ConnId → ConnHeap → Option ConnId × ConnHeap
  | [], h => (none, h)
  | conn :: rest, h =>
    if h.label conn = some server then (some conn, h.access conn)
    else scanFor server rest (h.access conn)

/-- `ThinClientPoolDM::getFromEP`. -/
def getFromEP (s : PoolState) (server : ServerId) : Option ConnId × PoolState :=
  match scanFor server s.queue s.heap with
  | (none, h) => (none, { s with heap := h })
  | (some conn, h) => (some conn, { s with heap := h, queue := s.queue.erase conn })

/-- The loop of `removeEPConnections`, which looks at every connection of the queue once, from the
back. The source takes the number of closed connections off `m_poolSize` after the loop, before
it gives up the lock. -/
def removeEPLoop (server : ServerId) : ℕ → PoolState → PoolState
  | 0, s => s
  | size + 1, s =>
    match s.queue.getLast? with
    | none => s
    | some conn =>
      let s' := { s with queue := s.queue.dropLast, heap := s.heap.access conn }
      if s.heap.label conn = some server then
        removeEPLoop server size ((s'.safeDeleteCon conn).reducePoolSize 1)
      else removeEPLoop server size { s' with queue := conn :: s'.queue }

/-- `ThinClientPoolDM::removeEPConnections(TcrEndpoint*)`. -/
def removeEPConnections (s : PoolState) (server : ServerId) : PoolState :=
  removeEPLoop server s.queue.length s

/-- The loop of `ConnectionQueue::close`, from the back of the queue; each connection is followed by
`deleteAction`, which takes one off `m_poolSize`. -/
def closeLoop : ℕ → PoolState → PoolState
  | 0, s => s
  | size + 1, s =>
    match s.queue.getLast? with
    | none => s
    | some conn =>
      closeLoop size
        (({ s with queue := s.queue.dropLast }.safeDeleteCon conn).reducePoolSize 1)

/-- `ConnectionQueue::close`. -/
def close (s : PoolState) : PoolState :=
  closeLoop s.queue.length { s with closed := true }

end PoolState

/-! ## Making connections -/

/-- One turn of the loop in `createPoolConnection`: the server that was selected and how connecting
to it ends. -/
structure Dial where
  server : ServerId
  creation : Creation
  deriving DecidableEq, Repr

/-- How the selection of a server fails in the end. -/
inductive SelectionFailure
  | noAvailableLocators
  | noServer
  deriving DecidableEq, Repr

def SelectionFailure.error : SelectionFailure → PoolErrType
  | noAvailableLocators => .cacheLocatorException
  | noServer => .notCon

/-- What making a pool connection meets: turns that select a server, and the failure of the
selection after the last of them. -/
structure Dials where
  turns : List Dial
  failure : SelectionFailure
  deriving DecidableEq, Repr

/-- `ThinClientBaseDM::isFatalClientError`. -/
def isFatalClientError (error : PoolErrType) : Bool :=
  error = .notAuthorizedException || error = .authenticationRequiredException ||
    error = .authenticationFailedException || error = .cacheLocatorException

/-- What a function that looks for a connection leaves behind. -/
structure Looked where
  error : PoolErrType
  conn : Option ConnId
  excludeServers : List ServerId
  state : PoolState
  deriving DecidableEq, Repr

namespace PoolState

variable (attrs : PoolAttributes)

/-- The loop of `createPoolConnection`. A selected server to which `currentserver` already leads is
answered with that connection. The loop only ends with a connection or by returning, so that the
fatal error it remembers is never returned in place of another one. -/
def connectLoop (currentserver : Option ConnId) (failure : SelectionFailure) :
    List Dial → PoolErrType → List ServerId → PoolState → Looked
  | [], _, excludeServers, s => ⟨failure.error, none, excludeServers, s⟩
  | dial :: turns, error, excludeServers, s =>
    match currentserver.filter fun conn => s.heap.label conn = some dial.server with
    | some conn => ⟨error, some conn, excludeServers, { s with heap := s.heap.access conn }⟩
    | none =>
      match createNewConnection dial.server s.heap dial.creation with
      | (.noErr, conn, h) =>
        ⟨.noErr, conn, excludeServers, { s with heap := h, poolSize := s.poolSize + 1 }⟩
      | (e, _, h) =>
        if isFatalClientError e then
          ⟨e, none, excludeServers.insert dial.server, { s with heap := h }⟩
        else
          connectLoop currentserver failure turns e (excludeServers.insert dial.server)
            { s with heap := h }

/-- `ThinClientPoolDM::createPoolConnection`: at the limit it returns no connection and no error. -/
def createPoolConnection (s : PoolState) (excludeServers : List ServerId)
    (currentserver : Option ConnId) (dials : Dials) : Looked :=
  if s.poolSize ≥ attrs.limit then ⟨.noErr, none, excludeServers, s⟩
  else connectLoop currentserver dials.failure dials.turns .noErr excludeServers s

/-- `ThinClientPoolDM::createPoolConnectionToAEndPoint`. -/
def createPoolConnectionToAEndPoint (s : PoolState) (server : ServerId) (creation : Creation) :
    PoolErrType × Option ConnId × PoolState :=
  if s.poolSize ≥ attrs.limit then (.noErr, none, s)
  else
    match createNewConnection server s.heap creation with
    | (.noErr, conn, h) => (.noErr, conn, { s with heap := h, poolSize := s.poolSize + 1 })
    | (e, _, h) => (e, none, { s with heap := h })

/-- The first loop of `getNoGetLock`: connections to excluded servers are closed. -/
def popExcluding (excludeServers : List ServerId) : ℕ → PoolState → Option ConnId × PoolState
  | 0, s => (none, s)
  | size + 1, s =>
    match s.popNoLock with
    | (none, s') => (none, s')
    | (some conn, s') =>
      if s.serverOf conn ∈ excludeServers then
        popExcluding excludeServers size (((s'.safeDeleteCon conn)).reducePoolSize 1)
      else (some conn, { s' with heap := s'.heap.access conn })

section

variable (s : PoolState) (slot : StickySlot)

/-- `ThinClientPoolDM::getNoGetLock`: the error of the caller is only written when a connection is
to be made. -/
def getNoGetLock (error : PoolErrType) (excludeServers : List ServerId) (dials : Dials) : Looked :=
  match popExcluding excludeServers (s.queue.length + 1) s with
  | (some conn, s') => ⟨error, some conn, excludeServers, s'⟩
  | (none, s') => createPoolConnection attrs s' excludeServers none dials

/-! ## The sticky slot of a thread -/

/-- `ThinClientStickyManager::setStickyConnection`, for a connection. -/
def setStickyConnection (conn : ConnId) : PoolState × StickySlot :=
  ({ s with heap := s.heap.access conn }, if slot.conn = some conn then slot else ⟨some conn, true⟩)

/-- `ThinClientStickyManager::setStickyConnection`, for null. -/
def setStickyNull : StickySlot :=
  { slot with conn := none }

/-- `ThinClientPoolDM::putInQueue`. -/
def putInQueue (conn : ConnId) (isTransaction : Bool) : PoolState × StickySlot :=
  if isTransaction then s.setStickyConnection slot conn else (s.put conn, slot)

/-- `ThinClientStickyManager::releaseThreadLocalConnection`. -/
def releaseThreadLocalConnection : PoolState × StickySlot :=
  match slot.conn with
  | none => (s, slot)
  | some conn =>
    if slot.registered then
      ({ s with heap := s.heap.access conn }.put conn, ⟨none, false⟩)
    else (s, ⟨none, false⟩)

/-- `ThinClientStickyManager::addStickyConnection`: the connection in the slot goes back to the
queue first, whether or not it is the one that is added. -/
def addStickyConnection (conn : ConnId) : PoolState × StickySlot :=
  match slot.conn with
  | none => ({ s with heap := s.heap.access conn }, ⟨some conn, true⟩)
  | some oldConn =>
    if slot.registered then
      let s' := { s with heap := s.heap.access oldConn }.put oldConn
      ({ s' with heap := s'.heap.access conn }, ⟨some conn, true⟩)
    else ({ s with heap := s.heap.access conn }, ⟨some conn, true⟩)

end

end PoolState

end GeodeNative
