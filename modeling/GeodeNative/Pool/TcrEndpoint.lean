import GeodeNative.Library.CellHeap

/-!
# Sending a request over a connection

`TcrEndpoint::sendRequestConnWithRetry` sends a request over the connection it is given, and
closes, deletes or replaces that connection when the exchange fails. Connections are objects on
the heap, labelled with the server they lead to. A parameter of type `TcrConnection*&` is a
pointer that a function may change, and is part of the state that the functions below pass on; a
parameter of type `TcrConnection*` is a number of which the caller keeps its own copy.

What comes from outside is given with the call, one `SendAttempt` for each pass of the retry loop:
whether the endpoint is found connected, how making a new connection ends, and how the exchange
on the socket ends.
-/

namespace GeodeNative

/-- A pointer to a connection object that is not null. -/
abbrev ConnId := ℕ

/-- A server, by the name of its endpoint. -/
abbrev ServerId := ℕ

/-- The connection objects, each with the server it leads to. -/
abbrev ConnHeap := CellHeap ServerId

/-- The values of `GfErrType` that the connection code uses. -/
inductive PoolErrType
  | noErr
  | notCon
  | ioErr
  | timeout
  | msg
  | clientWaitTimeout
  | clientWaitTimeoutRefreshPRMetadata
  | cacheServerException
  | notAuthorizedException
  | authenticationRequiredException
  | authenticationFailedException
  | cacheLocatorException
  | allConnectionsInUseException
  deriving DecidableEq, Repr

/-- The types of requests the connection code tells apart. -/
inductive MessageType
  | query
  | queryWithParameters
  | putAll
  | putAllWithCallback
  | executeFunction
  | executeRegionFunction
  | executeRegionFunctionSingleHop
  | executeCqWithIr
  | getAll70
  | getAllWithCallback
  | ping
  | userCredential
  | txFailover
  | other
  deriving DecidableEq, Repr

namespace MessageType

/-- The requests that execute a function. -/
def isFunctionExecution : MessageType → Bool
  | executeFunction | executeRegionFunction | executeRegionFunctionSingleHop => true
  | _ => false

/-- `TcrEndpoint::setRetry`: how often the send is repeated. -/
def setRetry : MessageType → ℕ
  | query | queryWithParameters | putAll | putAllWithCallback | executeFunction
  | executeRegionFunction | executeRegionFunctionSingleHop | executeCqWithIr => 0
  | _ => 1

end MessageType

/-- The values of `errno` that `handleIOException` tells apart. -/
inductive Errno
  | connReset
  | pipe
  | notConn
  | again
  | wouldBlock
  | other
  deriving DecidableEq, Repr

/-- How an exchange on the socket ends; after a reply of type `INVALID` and after an I/O
exception the code looks at `errno`. -/
inductive Exchanged
  | replied
  | invalid (errno : Errno)
  | timedOut
  | ioException (errno : Errno)
  | exception
  deriving DecidableEq, Repr

/-- An exchange on the socket: the transaction id it left in the reply object, if the reply was
decoded so far, and how it ended. -/
structure Sent where
  transId : Option ℤ
  ending : Exchanged
  deriving DecidableEq, Repr

/-- The errors with which making a connection fails. -/
inductive ConnectFailure
  | timeout
  | ioErr
  | authenticationFailed
  | authenticationRequired
  | cacheServer
  | msg
  | waitTimeout
  | waitTimeoutRefreshPRMetadata
  deriving DecidableEq, Repr

def ConnectFailure.error : ConnectFailure → PoolErrType
  | timeout => .timeout
  | ioErr => .ioErr
  | authenticationFailed => .authenticationFailedException
  | authenticationRequired => .authenticationRequiredException
  | cacheServer => .cacheServerException
  | msg => .msg
  | waitTimeout => .clientWaitTimeout
  | waitTimeoutRefreshPRMetadata => .clientWaitTimeoutRefreshPRMetadata

lemma ConnectFailure.error_ne_noErr (why : ConnectFailure) : why.error ≠ .noErr := by
  cases why <;> decide

/-- How making a connection ends; it may fail before or after the object was constructed. -/
inductive Creation
  | made
  | failed (constructed : Bool) (why : ConnectFailure)
  deriving DecidableEq, Repr

/-- What one pass of the retry loop meets: `reachable` and `connected` are the readings of
`connected_` before a new connection is made and before the request is sent. -/
structure SendAttempt where
  reachable : Bool
  creation : Creation
  connected : Bool
  sent : Sent
  deriving DecidableEq, Repr

namespace TcrEndpoint

/-- `TcrEndpoint::createNewConnection`: an object whose handshake failed is deleted again, and
the pointer is null then. -/
def createNewConnection (server : ServerId) (h : ConnHeap) :
    Creation → PoolErrType × Option ConnId × ConnHeap
  | .made => (.noErr, some h.fresh, h.alloc server)
  | .failed true why => (why.error, none, (h.alloc server).delete h.fresh)
  | .failed false why => (why.error, none, h)

/-- `TcrEndpoint::closeConnection`; setting the pointer to null is left to the callers, since it
is a copy of theirs in `compareTransactionIds`. -/
def closeConnection (h : ConnHeap) (conn : ConnId) : ConnHeap :=
  (h.access conn).delete conn

/-- `TcrEndpoint::compareTransactionIds`: on a mismatch the connection is deleted through a
pointer passed by value. -/
def compareTransactionIds (reqTransId replyTransId : ℤ) (h : ConnHeap) (conn : ConnId) :
    Bool × ConnHeap :=
  if replyTransId ≠ reqTransId then (false, closeConnection h conn) else (true, h)

/-- The exceptions that the retry loop tells apart. -/
inductive Thrown
  | timeout
  | io
  | other
  deriving DecidableEq, Repr

/-- `TcrConnection::touch`, not done for a ping. -/
def touch (type : MessageType) (h : ConnHeap) (conn : ConnId) : ConnHeap :=
  if type = .ping then h else h.access conn

/-- `TcrEndpoint::sendRequestConn`, with the pointer passed by value. The accesses of
`beforeSendingRequest` and of the exchange itself come first, that of `afterSendingRequest` last. -/
def sendRequestConn (type : MessageType) (reqTransId replyTransId : ℤ) (ending : Exchanged)
    (h : ConnHeap) (conn : ConnId) : Except Thrown PoolErrType × ConnHeap :=
  match ending with
  | .timedOut => (.error .timeout, h.access conn)
  | .ioException _ => (.error .io, h.access conn)
  | .exception => (.error .other, h.access conn)
  | .invalid _ =>
    if type.isFunctionExecution then
      (.ok .noErr, (touch type (h.access conn) conn).access conn)
    else (.ok .ioErr, touch type (h.access conn) conn)
  | .replied =>
    match compareTransactionIds reqTransId replyTransId (touch type (h.access conn) conn) conn with
    | (true, h') => (.ok .noErr, h'.access conn)
    | (false, h') => (.ok .notCon, h')

/-- The variables of the retry loop that other functions change: the heap, the pointer of the
caller, the transaction id in the reply object, and whether `setStickyNull` was called. -/
structure SendState where
  heap : ConnHeap
  conn : Option ConnId
  transId : ℤ
  stickyNull : Bool
  deriving DecidableEq, Repr

/-- What is fixed during a call: the server of the endpoint, the pool's setting
`getThreadLocalConnections`, whether a background thread makes the call, and the request with its
transaction id. -/
structure SendCall where
  server : ServerId
  threadLocalConnections : Bool
  isBgThread : Bool
  type : MessageType
  reqTransId : ℤ
  deriving DecidableEq, Repr

/-- How a pass of the retry loop ends: the loop is left, or its condition is looked at. -/
inductive Pass
  | finished (error : PoolErrType)
  | again (createNewConn : Bool) (error : PoolErrType)
  deriving DecidableEq, Repr

variable (call : SendCall)

/-- `TcrPoolEndPoint::handleIOException`: whatever `errno` is, the connection is deleted and the
pointer of the caller set to null; the send is repeated for two values only. -/
def handleIOException (errno : Errno) (s : SendState) (conn : ConnId) : Pass × SendState :=
  let heap :=
    match errno with
    | .connReset | .pipe | .notConn => s.heap.delete conn
    | .again | .wouldBlock | .other => closeConnection s.heap conn
  let s' := { s with heap := heap, conn := none, stickyNull := s.stickyNull || !call.isBgThread }
  match errno with
  | .again | .wouldBlock => (.again true .ioErr, s')
  | .connReset | .pipe | .notConn | .other => (.finished .ioErr, s')

/-- `TcrPoolEndPoint::closeFailedConnection`: connections of threads are not closed. -/
def closeFailedConnection (s : SendState) (conn : ConnId) : SendState :=
  if call.threadLocalConnections then s
  else { s with heap := closeConnection s.heap conn, conn := none }

/-- The handler for exceptions other than timeouts and I/O exceptions. -/
def handleOtherException (s : SendState) (conn : ConnId) : Pass × SendState :=
  match compareTransactionIds call.reqTransId s.transId s.heap conn with
  | (true, h) => (.finished .msg, { s with heap := closeConnection h conn, conn := none })
  | (false, h) => (.again true .notCon, { s with heap := h })

/-- The value of `errno` that is looked at after an exchange. -/
def errnoOf : Exchanged → Errno
  | .invalid errno | .ioException errno => errno
  | .replied | .timedOut | .exception => .other

/-- The part of a pass that sends the request over a connection. -/
def sendOver (sent : Sent) (s : SendState) (conn : ConnId) : Pass × SendState :=
  let transId := sent.transId.getD s.transId
  match sendRequestConn call.type call.reqTransId transId sent.ending s.heap conn with
  | (.ok .noErr, h) => (.finished .noErr, { s with heap := h, transId := transId })
  | (.ok .ioErr, h) =>
    handleIOException call (errnoOf sent.ending) { s with heap := h, transId := transId } conn
  | (.ok _, h) => (.again true .notCon, { s with heap := h, transId := transId })
  | (.error .timeout, h) =>
    (.again true .timeout, closeFailedConnection call { s with heap := h, transId := transId } conn)
  | (.error .io, h) =>
    handleIOException call (errnoOf sent.ending) { s with heap := h, transId := transId } conn
  | (.error .other, h) => handleOtherException call { s with heap := h, transId := transId } conn

/-- The part of a pass after the connection was looked for; without one nothing is sent, and the
error stays what it was. -/
def sendIfConnected (a : SendAttempt) (error : PoolErrType) (s : SendState) : Pass × SendState :=
  if a.connected then
    match s.conn with
    | none => (.again false error, s)
    | some conn => sendOver call a.sent s conn
  else (.finished .notCon, s)

/-- One pass of the loop in `TcrEndpoint::sendRequestWithRetry`, without a pool of connections in
the endpoint. -/
def attempt (a : SendAttempt) (createNewConn : Bool) (error : PoolErrType) (s : SendState) :
    Pass × SendState :=
  if createNewConn then
    if a.reachable then
      match createNewConnection call.server s.heap a.creation with
      | (.noErr, conn, h) => sendIfConnected call a .noErr { s with heap := h, conn := conn }
      | (e, conn, h) => (.again false e, { s with heap := h, conn := conn })
    else (.finished .notCon, s)
  else sendIfConnected call a error s

/-- The loop of `TcrEndpoint::sendRequestWithRetry`: `retries` passes may follow the pass with
number `sendRetryCount`. -/
def retryLoop (attempts : ℕ → SendAttempt) : (retries sendRetryCount : ℕ) → (createNewConn : Bool) →
    PoolErrType → SendState → PoolErrType × SendState
  | 0, i, createNewConn, error, s =>
    match attempt call (attempts i) createNewConn error s with
    | (.finished e, s') => (e, s')
    | (.again _ e, s') => (e, s')
  | retries + 1, i, createNewConn, error, s =>
    match attempt call (attempts i) createNewConn error s with
    | (.finished e, s') => (e, s')
    | (.again createNewConn' e, s') => retryLoop attempts retries (i + 1) createNewConn' e s'

def sendRequestWithRetry (attempts : ℕ → SendAttempt) (maxSendRetries : ℕ) (s : SendState) :
    PoolErrType × SendState :=
  retryLoop call attempts maxSendRetries 0 false .notCon s

def sendRequestConnWithRetry (attempts : ℕ → SendAttempt) (s : SendState) :
    PoolErrType × SendState :=
  sendRequestWithRetry call attempts call.type.setRetry s

end TcrEndpoint

end GeodeNative
