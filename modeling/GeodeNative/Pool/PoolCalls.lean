import GeodeNative.Pool.Exchange

/-!
# The calls of a pool, step by step

Several threads make calls of a pool at the same time. A call is cut at the points where another
thread can come in between: where it has decided where to look for a connection, where it waits
for one, and where it holds one. A `Frame` is such a point of a call with the local variables
that are still needed there, and `act` runs a thread from one point to the next.

A request of a transaction that has to move to another server makes a request of its own, so that
the frame of the outer call stays `Pending` below the inner one. The pool is a
`ThinClientPoolDM`: its sticky slots serve transactions only.
-/

namespace GeodeNative

open TcrEndpoint

/-! ## The loop of `sendSyncRequest` -/

/-- The local variables of `sendSyncRequest` that live from one pass of its loop to the next. -/
structure SyncCall where
  request : PoolRequest
  attemptFailover : Bool
  retryAllEPsOnce : Bool
  retry : ℤ
  isAuthRequireExcep : Bool
  isAuthRequireExcepMaxTry : ℤ
  excludeServers : List ServerId
  lastExcludeSize : ℕ
  error : PoolErrType
  deriving DecidableEq, Repr

namespace SyncCall

/-- The variables at the beginning. -/
def start (attrs : PoolAttributes) (request : PoolRequest) (attemptFailover : Bool) : SyncCall where
  request := request
  attemptFailover := attemptFailover
  retryAllEPsOnce := attrs.retryAttempts = -1
  retry := attrs.retryAttempts + 1
  isAuthRequireExcep := false
  isAuthRequireExcepMaxTry := 2
  excludeServers := []
  lastExcludeSize := 0
  error := .notCon

/-- The condition of the loop, with its side effect on `retry`, and the assignments at the top of
the loop. -/
def enter (call : SyncCall) : Option SyncCall :=
  let again := { call with isAuthRequireExcep := false,
                           lastExcludeSize := call.excludeServers.length }
  if call.retryAllEPsOnce then some again
  else if call.retry ≠ 0 ∨ call.isAuthRequireExcep ∧ 0 ≤ call.isAuthRequireExcepMaxTry then
    some { again with retry := call.retry - 1 }
  else none

/-- The error that is returned: `GF_IOERR` is not shown to the caller. -/
def returned (error : PoolErrType) : PoolErrType :=
  if error = .ioErr then .notCon else error

/-- A request that is sent only once is not repeated after a timeout. -/
def givesUp (call : SyncCall) : Bool :=
  call.request.type.setRetry = 0 && call.error = .timeout

/-- The end of a pass: the call returns, or another pass follows. -/
def endPass (call : SyncCall) : PoolErrType ⊕ SyncCall :=
  let cleared :=
    if call.excludeServers.length = call.lastExcludeSize then [] else call.excludeServers
  if call.excludeServers.length = call.lastExcludeSize ∧ call.retryAllEPsOnce then
    .inl (returned call.error)
  else if !call.attemptFailover || call.error = .noErr then .inl (returned call.error)
  else .inr { call with excludeServers := cleared }

end SyncCall

/-! ## Threads -/

/-- A call that waits for a call it has made itself in `doFailover`, or the function outside of
the pool that waits for the whole. -/
inductive Pending
  | failingOver (call : SyncCall) (conn : Option ConnId)
  | resumeFailingOver (conn : ConnId)
  | caller
  deriving DecidableEq, Repr

/-- The point a call has come to. `sticky` says that the look into the queue is the one of
`getStickyConnection`, and `queueErr` is the error variable the look may leave as it is. -/
inductive Frame
  | sync (call : SyncCall)
  | queueing (call : SyncCall) (sticky : Bool) (queueErr : PoolErrType)
  | waiting (call : SyncCall) (sticky : Bool) (queueErr : PoolErrType)
  | holding (call : SyncCall) (conn : ConnId)
  | returned (error : PoolErrType)
  | toServer (server : ServerId) (request : PoolRequest) (maxTry : ℤ)
  | holdingFor (server : ServerId) (request : PoolRequest) (maxTry : ℤ) (conn : ConnId)
      (putConnInPool : Bool)
  | resume (server : ServerId) (transId : ℤ)
  | resumeQueueing (server : ServerId) (transId : ℤ) (error : PoolErrType)
  | resumeWaiting (server : ServerId) (transId : ℤ) (error : PoolErrType)
  | resumed (conn : ConnId)
  | cleaning (availableConns : ℕ) (removelist : List ConnId) (savedConns : ℤ)
  | replacing (removelist : List ConnId) (replaceCount : ℤ) (excludeServers : List ServerId)
  | restoring (limit : ℤ) (excludeServers : List ServerId)
  deriving DecidableEq, Repr

/-- A thread: its sticky slot, and the calls it is in, if any, the innermost one first. -/
structure PoolThread where
  slot : StickySlot
  running : Option (Frame × List Pending)
  deriving DecidableEq, Repr

/-- Where a pass of `sendSyncRequest` looks for a connection: nowhere, because the user has no
credentials or the bucket is known to be slow; at the server of the bucket, with the outcome of
connecting to it; or anywhere. -/
inductive PoolRoute
  | noCredentials
  | bucketTimeout
  | server (server : ServerId) (creation : Creation)
  | anywhere
  deriving DecidableEq, Repr

/-- What one pass of `sendRequestToEP` meets once it has a connection. -/
structure ServerExchange where
  withoutCredentials : Bool
  credentials : Option Credentials
  replyTransId : ℤ
  attempts : ℕ → SendAttempt
  reply : ReplyBody

/-- What makes a thread go on: a new call, or the outcome that the call it is in has come to. -/
inductive PoolAction
  | sendSyncRequest (request : PoolRequest) (attemptFailover : Bool)
  | sendRequestToEP (server : ServerId) (request : PoolRequest)
  | getConnectionToAnEndPoint (server : ServerId) (transId : ℤ)
  | releaseThreadLocalConnection
  | cleanStaleConnections
  | restoreMinConnections
  | close
  | look (route : PoolRoute)
  | dial (dials : Dials) (txDirty : Bool)
  | wake (timedOut : Bool) (txDirty : Bool)
  | exchange (env : Exchange)
  | failoverAnswered (reply : Option ServerError)
  | connect (pooled temporary : Creation)
  | exchangeWithServer (env : ServerExchange)
  | connectTo (connected : Bool) (creation : Creation)
  | setThreadLocalConnection
  | inspect (isRunning candidate queueHosted : Bool)
  | replace (dials : Dials) (hasExpired : Bool)
  | restore (isRunning : Bool) (dials : Dials)

namespace PoolThread

/-- The thread goes on at a point of its innermost call. -/
def goTo (t : PoolThread) (frame : Frame) (below : List Pending) : PoolThread :=
  { t with running := some (frame, below) }

/-- The innermost call returns. -/
def returns (t : PoolThread) (error : PoolErrType) (below : List Pending) : PoolThread :=
  { t with running := if below.isEmpty then none else some (.returned error, below) }

/-- The thread after a pass of `sendSyncRequest`. -/
def afterPass (t : PoolThread) (call : SyncCall) (below : List Pending) : PoolThread :=
  match call.endPass with
  | .inl error => t.returns error below
  | .inr call' => t.goTo (.sync call') below

/-- `sendSyncRequest` has not got a connection. -/
def withoutConnection (t : PoolThread) (call : SyncCall) (queueErr : PoolErrType)
    (below : List Pending) : PoolThread :=
  match queueErr with
  | .clientWaitTimeout | .clientWaitTimeoutRefreshPRMetadata => t.returns queueErr below
  | .noErr => t.returns .allConnectionsInUseException below
  | .ioErr => t.afterPass { call with error := .notCon } below
  | error => t.afterPass { call with error := error } below

end PoolThread

namespace PoolState

variable (attrs : PoolAttributes)

section

variable (s : PoolState) (t : PoolThread) (call : SyncCall) (sticky : Bool) (queueErr : PoolErrType)

/-- The request that `doFailover` sends. -/
def failoverCall (transId : ℤ) : SyncCall :=
  .start attrs ⟨.txFailover, transId, false⟩ true

/-- The beginning of `doFailover`: the connection becomes the one of the thread, and the thread
sends a request of its own. -/
def doFailover (conn : Option ConnId) (transId : ℤ)
    (pending : Pending) (below : List Pending) : PoolState × PoolThread :=
  let inner := some (.sync (failoverCall attrs transId), pending :: below)
  match conn with
  | none => (s, ⟨setStickyNull t.slot, inner⟩)
  | some conn =>
    let set := s.setStickyConnection t.slot conn
    (set.1, ⟨set.2, inner⟩)

/-- `getConnectionFromQueueW` after a look into the queue. For a transaction whose state is dirty,
or that has none, the transaction moves to the server of the connection. -/
def afterQueue (conn : Option ConnId) (txDirty : Bool) (below : List Pending) :
    PoolState × PoolThread :=
  if sticky then
    if queueErr ≠ .noErr then (s, t.withoutConnection call queueErr below)
    else if txDirty then
      s.doFailover attrs t conn call.request.transId (.failingOver call conn) below
    else
      match conn with
      | some conn => (s, t.goTo (.holding call conn) below)
      | none => (s, t.goTo (.queueing call false .noErr) below)
  else
    match conn with
    | some conn => (s, t.goTo (.holding call conn) below)
    | none => (s, t.withoutConnection call queueErr below)

/-- `getStickyConnection`: the connection of the thread, or one from the queue. -/
def lookSticky (below : List Pending) : PoolState × PoolThread :=
  match t.slot.conn with
  | some conn => ({ s with heap := s.heap.access conn }, t.goTo (.holding call conn) below)
  | none => (s, t.goTo (.queueing call true .noErr) below)

/-- A connection to the server of the bucket; without one the look into the queue follows. -/
def lookAt (server : ServerId)
    (creation : Creation) (below : List Pending) : PoolState × PoolThread :=
  match s.getFromEP server with
  | (some conn, s') => (s', t.goTo (.holding call conn) below)
  | (none, s') =>
    match s'.createPoolConnectionToAEndPoint attrs server creation with
    | (_, some conn, s'') => (s'', t.goTo (.holding call conn) below)
    | (.clientWaitTimeout, none, s'') => (s'', t.returns .clientWaitTimeout below)
    | (.clientWaitTimeoutRefreshPRMetadata, none, s'') =>
      (s'', t.returns .clientWaitTimeoutRefreshPRMetadata below)
    | (error, none, s'') => (s'', t.goTo (.queueing call false error) below)

/-- The top of a pass of `sendSyncRequest`, with the first part of `getConnectionFromQueueW`. -/
def look (route : PoolRoute) (below : List Pending) : PoolState × PoolThread :=
  match call.enter with
  | none => (s, t.returns (SyncCall.returned call.error) below)
  | some call =>
    if call.givesUp then (s, t.returns call.error below)
    else if route = .noCredentials then (s, t.returns .notAuthorizedException below)
    else if call.request.forTransaction then s.lookSticky t call below
    else
      match route with
      | .server server creation => s.lookAt attrs t call server creation below
      | .bucketTimeout => (s, t.returns .clientWaitTimeout below)
      | .noCredentials | .anywhere => (s, t.goTo (.queueing call false .noErr) below)

/-- The look into the queue, up to the point where the thread has to wait. -/
def dial (dials : Dials) (txDirty : Bool) (below : List Pending) : PoolState × PoolThread :=
  let looked := s.getNoGetLock attrs queueErr call.excludeServers dials
  let call' := { call with excludeServers := looked.excludeServers }
  if looked.conn = none ∧ s.closed = false then
    (looked.state, t.goTo (.waiting call' sticky looked.error) below)
  else
    looked.state.afterQueue attrs t call' sticky looked.error looked.conn txDirty below

/-- `getLockedFor`: the wait ends with the timeout, with a connection, or with the queue closed. -/
def wake (timedOut txDirty : Bool) (below : List Pending) : PoolState × PoolThread :=
  if timedOut then s.afterQueue attrs t call sticky queueErr none txDirty below
  else
    match s.popNoLock with
    | (some conn, s') => s'.afterQueue attrs t call sticky queueErr (some conn) txDirty below
    | (none, s') =>
      if s.closed then s'.afterQueue attrs t call sticky queueErr none txDirty below else (s', t)

/-- The rest of a pass of `sendSyncRequest`. -/
def finishSync (conn : ConnId) (env : Exchange) (below : List Pending) : PoolState × PoolThread :=
  let x := s.exchange attrs call.request env t.slot conn
  let t' := { t with slot := x.slot }
  if x.isServerException then (x.state, t'.returns x.error below)
  else if x.error = .noErr then
    if env.reply.asksAgain then
      (x.state, t'.goTo (.sync { call with
        error := .noErr
        isAuthRequireExcep := true
        isAuthRequireExcepMaxTry := call.isAuthRequireExcepMaxTry - 1 }) below)
    else (x.state, t'.afterPass { call with error := .noErr } below)
  else
    (x.state, t'.afterPass { call with
      error := x.error
      excludeServers := call.excludeServers.insert (s.serverOf conn) } below)

end

section

variable (s : PoolState) (t : PoolThread) (server : ServerId) (request : PoolRequest) (maxTry : ℤ)

/-- The result of `doFailover`: the error of its request, or the one in the reply to it. -/
def failoverError (error : PoolErrType) (reply : Option ServerError) : PoolErrType :=
  if error = .noErr then reply.elim .noErr Subtype.val else error

/-- What a call does with the result of its `doFailover`. -/
def afterFailover (error : PoolErrType)
    (reply : Option ServerError) (pending : Pending) (below : List Pending) :
    PoolState × PoolThread :=
  match pending with
  | .failingOver call conn =>
    if failoverError error reply = .noErr then
      match conn with
      | some conn => (s, t.goTo (.holding call conn) below)
      | none => (s, t.goTo (.queueing call false .noErr) below)
    else (s, t.withoutConnection call (failoverError error reply) below)
  | .resumeFailingOver conn =>
    if failoverError error reply = .noErr then (s, t.goTo (.resumed conn) below)
    else ({ s with heap := s.heap.access conn }.put conn, t.returns .noErr below)
  | .caller => (s, t)

/-! ## `sendRequestToEP` -/

/-- A connection for `sendRequestToEP`: from the queue, a new one of the pool, or a temporary one
that the pool does not count. -/
def connect (pooled temporary : Creation) (below : List Pending) : PoolState × PoolThread :=
  match s.getFromEP server with
  | (some conn, s') => (s', t.goTo (.holdingFor server request maxTry conn true) below)
  | (none, s') =>
    match s'.createPoolConnectionToAEndPoint attrs server pooled with
    | (_, some conn, s'') => (s'', t.goTo (.holdingFor server request maxTry conn true) below)
    | (_, none, s'') =>
      match createNewConnection server s''.heap temporary with
      | (_, some conn, h) =>
        ({ s'' with heap := h }, t.goTo (.holdingFor server request maxTry conn false) below)
      | (error, none, h) => ({ s'' with heap := h }, t.returns error below)

/-- The request of `sendRequestToEP`, when the user is authenticated. -/
def sendToServer (env : ServerExchange) (x : Exchanging) : Exchanging :=
  match x.error, x.conn with
  | .noErr, some conn =>
    sendOverEndpoint ⟨server, attrs.threadLocalConnections, true, request.type, request.transId⟩
      env.attempts env.replyTransId x.state x.slot conn
  | _, _ => x

/-- What `sendRequestToEP` does with the connection in the end; after a failure it counts it off,
but leaves it to itself. -/
def settle (putConnInPool : Bool) (x : Exchanging) : PoolState :=
  match x.error, x.conn with
  | .noErr, some conn => if putConnInPool then x.state.put conn else x.state.safeDeleteCon conn
  | _, _ => if putConnInPool then x.state.reducePoolSize 1 else x.state

/-- The error of `sendRequestToEP` once an exception in the reply was looked at. -/
def serverError (reply : ReplyBody) (error : PoolErrType) : PoolErrType :=
  match error, reply with
  | .noErr, .exception _ _ e => e
  | e, _ => e

/-- The thread after a pass of `sendRequestToEP`. -/
def afterServer (reply : ReplyBody) (error : PoolErrType) (below : List Pending) : PoolThread :=
  match reply with
  | .exception _ true _ =>
    if 0 ≤ maxTry - 1 ∧ (error = .noErr ∨ error = .cacheServerException ∨
        error = .authenticationRequiredException) then
      t.goTo (.toServer server request (maxTry - 1)) below
    else t.returns error below
  | _ => t.returns error below

/-- The rest of a pass of `sendRequestToEP`. -/
def finishServer (conn : ConnId) (putConnInPool : Bool) (env : ServerExchange)
    (below : List Pending) : PoolState × PoolThread :=
  if env.withoutCredentials then
    let put := s.putInQueue t.slot conn request.forTransaction
    (put.1, { t with slot := put.2 }.returns .notAuthorizedException below)
  else
    let x := sendToServer attrs server request env
      (authenticate attrs env.credentials s t.slot conn)
    let t' := { t with slot := x.slot }
    if x.isServerException then (x.state, t'.returns x.error below)
    else
      (settle putConnInPool x,
        afterServer t' server request maxTry env.reply (serverError env.reply x.error) below)

/-! ## `getConnectionToAnEndPoint` and its caller -/

/-- The first part of `getConnectionToAnEndPoint`. -/
def connectTo (transId : ℤ)
    (connected : Bool) (creation : Creation) (below : List Pending) : PoolState × PoolThread :=
  if connected then
    match s.getFromEP server with
    | (some conn, s') => (s', t.goTo (.resumed conn) below)
    | (none, s') =>
      match s'.createPoolConnectionToAEndPoint attrs server creation with
      | (_, some conn, s'') => (s'', t.goTo (.resumed conn) below)
      | (error, none, s'') => (s'', t.goTo (.resumeQueueing server transId error) below)
  else (s, t.goTo (.resumeQueueing server transId .noErr) below)

/-- The rest of `getConnectionToAnEndPoint`: a connection that was found while the error is set is
deleted without being counted off. -/
def resumeWith (transId : ℤ)
    (error : PoolErrType) (conn : Option ConnId) (below : List Pending) : PoolState × PoolThread :=
  match conn with
  | none => (s, t.returns error below)
  | some conn =>
    if error ≠ .noErr then ({ s with heap := s.heap.delete conn }, t.returns error below)
    else if s.serverOf conn = server then
      ({ s with heap := s.heap.access conn }, t.goTo (.resumed conn) below)
    else
      { s with heap := s.heap.access conn }.doFailover attrs t (some conn) transId
        (.resumeFailingOver conn) below

/-- The look into the queue in `getConnectionToAnEndPoint`. -/
def resumeDial (transId : ℤ)
    (error : PoolErrType) (dials : Dials) (below : List Pending) : PoolState × PoolThread :=
  let looked := s.getNoGetLock attrs error [] dials
  if looked.conn = none ∧ s.closed = false then
    (looked.state, t.goTo (.resumeWaiting server transId looked.error) below)
  else looked.state.resumeWith attrs t server transId looked.error looked.conn below

/-- The wait in `getConnectionToAnEndPoint`. -/
def resumeWake (transId : ℤ)
    (error : PoolErrType) (timedOut : Bool) (below : List Pending) : PoolState × PoolThread :=
  if timedOut then s.resumeWith attrs t server transId error none below
  else
    match s.popNoLock with
    | (some conn, s') => s'.resumeWith attrs t server transId error (some conn) below
    | (none, s') =>
      if s.closed then s'.resumeWith attrs t server transId error none below else (s', t)

end

/-! ## The thread that manages connections -/

section

variable (s : PoolState) (t : PoolThread)

/-- `canItBeDeleted` for a connection that has expired or is idle: where the server hosts a queue
another connection to it has to be idle. -/
def canItBeDeleted (conn : ConnId) (candidate queueHosted : Bool) : Bool × PoolState :=
  if candidate then
    if queueHosted then
      match s.getFromEP (s.serverOf conn) with
      | (some other, s') => (true, s'.put other)
      | (none, s') => (false, s')
    else (true, s)
  else (false, s)

/-- One pass of the first loop of `cleanStaleConnections`. -/
def inspect (availableConns : ℕ) (removelist : List ConnId)
    (savedConns : ℤ) (isRunning candidate queueHosted : Bool) (below : List Pending) :
    PoolState × PoolThread :=
  let replacing := t.goTo (.replacing removelist (attrs.minConnections - savedConns) []) below
  if availableConns = 0 ∨ isRunning = false then (s, replacing)
  else
    match s.popNoLock with
    | (none, s') => (s', replacing)
    | (some conn, s') =>
      match { s' with heap := s'.heap.access conn }.canItBeDeleted conn candidate queueHosted with
      | (true, s'') =>
        (s'', t.goTo (.cleaning (availableConns - 1) (removelist ++ [conn]) savedConns) below)
      | (false, s'') =>
        (s''.put conn, t.goTo (.cleaning (availableConns - 1) removelist (savedConns + 1)) below)

/-- One pass of the second loop of `cleanStaleConnections`. -/
def replace (removelist : List ConnId) (replaceCount : ℤ)
    (excludeServers : List ServerId) (dials : Dials) (hasExpired : Bool) (below : List Pending) :
    PoolState × PoolThread :=
  match removelist with
  | [] => (s, t.returns .noErr below)
  | conn :: rest =>
    if replaceCount ≤ 0 then
      ((s.safeDeleteCon conn).reducePoolSize 1,
        t.goTo (.replacing rest (replaceCount - 1) excludeServers) below)
    else
      let looked := s.createPoolConnection attrs excludeServers (some conn) dials
      let t' := t.goTo (.replacing rest (replaceCount - 1) looked.excludeServers) below
      match looked.conn with
      | some newConn =>
        if newConn = conn then (looked.state.put newConn, t')
        else (((looked.state.put newConn).safeDeleteCon conn).reducePoolSize 1, t')
      | none =>
        if hasExpired then ((looked.state.safeDeleteCon conn).reducePoolSize 1, t')
        else ({ looked.state with heap := looked.state.heap.access conn }.put conn, t')

/-- One pass of the loop of `restoreMinConnections`. -/
def restore (limit : ℤ) (excludeServers : List ServerId)
    (isRunning : Bool) (dials : Dials) (below : List Pending) : PoolState × PoolThread :=
  if s.poolSize < attrs.minConnections ∧ limit ≠ 0 ∧ isRunning then
    let looked := s.createPoolConnection attrs excludeServers none dials
    let t' := t.goTo (.restoring (limit - 1) looked.excludeServers) below
    match looked.conn with
    | some conn => (looked.state.put conn, t')
    | none => (looked.state, t')
  else (s, t.returns .noErr below)

/-! ## The threads together -/

/-- A thread that is in no call begins one; the short calls end at once. -/
def begin : PoolAction → PoolState × PoolThread
  | .sendSyncRequest request attemptFailover =>
    (s, t.goTo (.sync (.start attrs request attemptFailover)) [])
  | .sendRequestToEP server request => (s, t.goTo (.toServer server request 2) [])
  | .getConnectionToAnEndPoint server transId => (s, t.goTo (.resume server transId) [])
  | .releaseThreadLocalConnection =>
    let released := s.releaseThreadLocalConnection t.slot
    (released.1, { t with slot := released.2 })
  | .cleanStaleConnections => (s, t.goTo (.cleaning s.queue.length [] 0) [])
  | .restoreMinConnections => (s, t.goTo (.restoring (2 * attrs.minConnections) []) [])
  | .close => (s.close, t)
  | _ => (s, t)

/-- A thread goes on with the call it is in; an action that does not fit does nothing. -/
def goOn (frame : Frame) (below : List Pending) : PoolAction → PoolState × PoolThread
  | .look route =>
    match frame with
    | .sync call => s.look attrs t call route below
    | _ => (s, t)
  | .dial dials txDirty =>
    match frame with
    | .queueing call sticky queueErr => s.dial attrs t call sticky queueErr dials txDirty below
    | .resumeQueueing server transId error => s.resumeDial attrs t server transId error dials below
    | _ => (s, t)
  | .wake timedOut txDirty =>
    match frame with
    | .waiting call sticky queueErr => s.wake attrs t call sticky queueErr timedOut txDirty below
    | .resumeWaiting server transId error =>
      s.resumeWake attrs t server transId error timedOut below
    | _ => (s, t)
  | .exchange env =>
    match frame with
    | .holding call conn => s.finishSync attrs t call conn env below
    | _ => (s, t)
  | .failoverAnswered reply =>
    match frame, below with
    | .returned error, pending :: below => s.afterFailover t error reply pending below
    | _, _ => (s, t)
  | .connect pooled temporary =>
    match frame with
    | .toServer server request maxTry =>
      s.connect attrs t server request maxTry pooled temporary below
    | _ => (s, t)
  | .exchangeWithServer env =>
    match frame with
    | .holdingFor server request maxTry conn putConnInPool =>
      s.finishServer attrs t server request maxTry conn putConnInPool env below
    | _ => (s, t)
  | .connectTo connected creation =>
    match frame with
    | .resume server transId => s.connectTo attrs t server transId connected creation below
    | _ => (s, t)
  | .setThreadLocalConnection =>
    match frame with
    | .resumed conn =>
      let added := s.addStickyConnection t.slot conn
      (added.1, { t with slot := added.2 }.returns .noErr below)
    | _ => (s, t)
  | .inspect isRunning candidate queueHosted =>
    match frame with
    | .cleaning availableConns removelist savedConns =>
      s.inspect attrs t availableConns removelist savedConns isRunning candidate queueHosted below
    | _ => (s, t)
  | .replace dials hasExpired =>
    match frame with
    | .replacing removelist replaceCount excludeServers =>
      s.replace attrs t removelist replaceCount excludeServers dials hasExpired below
    | _ => (s, t)
  | .restore isRunning dials =>
    match frame with
    | .restoring limit excludeServers =>
      s.restore attrs t limit excludeServers isRunning dials below
    | _ => (s, t)
  | _ => (s, t)

def act (action : PoolAction) : PoolState × PoolThread :=
  match t.running with
  | none => s.begin attrs t action
  | some (frame, below) => s.goOn attrs t frame below action

end

end PoolState

end GeodeNative
