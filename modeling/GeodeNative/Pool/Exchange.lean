import GeodeNative.Pool.PoolState
import GeodeNative.Pool.TcrEndpoint

/-!
# A request over a pool connection

`ThinClientPoolDM::sendSyncRequest` takes a connection, sends the credentials of the user over it
when the server does not know them, sends the request, and then puts the connection back or gives
it up. `Exchange` is this part of one pass of its loop, from the connection to the connection.

The connection is passed to the endpoint by reference and deleted by the pool afterwards when the
request failed; the pointer that comes back may be one to a connection that was deleted already.
-/

namespace GeodeNative

open TcrEndpoint

/-- The body of a reply as the pool reads it: for an exception, whether it is one of those after
which another server is tried, whether it asks for authentication, and its error code. -/
inductive ReplyBody
  | normal
  | exception (unusable authRequired : Bool) (error : ServerError)
  deriving DecidableEq

/-- The reply is an exception that asks for authentication, and leaves the server usable. -/
def ReplyBody.asksAgain : ReplyBody → Bool
  | .exception false true _ => true
  | _ => false

/-- `ThinClientBaseDM::handleEPError`. -/
def handleEPError (reply : ReplyBody) (error : PoolErrType) : PoolErrType :=
  match error, reply with
  | .noErr, .exception true _ _ => .notCon
  | e, _ => e

lemma handleEPError_of_ne {reply : ReplyBody} {error : PoolErrType} (h : error ≠ .noErr) :
    handleEPError reply error = error := by
  cases error <;> first | rfl | exact absurd rfl h

/-- The reply to a message with credentials. -/
inductive CredentialReply
  | response
  | exception (unusable : Bool) (error : ServerError)
  | unknown
  deriving DecidableEq

/-- The reply to a message with credentials as `handleEPError` sees it. -/
def CredentialReply.body : CredentialReply → ReplyBody
  | .exception unusable error => .exception unusable false error
  | .response | .unknown => .normal

/-- How sending the credentials goes. -/
structure Credentials where
  reqTransId : ℤ
  attempts : ℕ → SendAttempt
  reply : CredentialReply

/-- A request as the pool looks at it; its transaction id is -1 outside of transactions. -/
structure PoolRequest where
  type : MessageType
  transId : ℤ
  isBGThread : Bool
  deriving DecidableEq, Repr

namespace PoolRequest

/-- `TcrMessage::forTransaction`. -/
def forTransaction (request : PoolRequest) : Bool := request.transId ≠ -1

/-- The requests whose failure leaves the sticky slot of the thread alone. -/
def sparesSticky (request : PoolRequest) : Bool :=
  request.isBGThread || request.type = .getAll70 || request.type = .getAllWithCallback ||
    request.type = .executeRegionFunctionSingleHop

end PoolRequest

/-- What one pass of `sendSyncRequest` meets once it has a connection: whether credentials are to
be sent, and how the request goes; `replyTransId` is what the reply object holds before. -/
structure Exchange where
  credentials : Option Credentials
  replyTransId : ℤ
  attempts : ℕ → SendAttempt
  reply : ReplyBody

/-- The variables of the pool's functions that have a connection: the shared state, the slot of the
thread, the pointer, the error, and `isServerException`. -/
structure Exchanging where
  state : PoolState
  slot : StickySlot
  conn : Option ConnId
  error : PoolErrType
  isServerException : Bool
  deriving DecidableEq, Repr

namespace PoolState

section

variable (attrs : PoolAttributes) (server : ServerId) (request : PoolRequest)

/-- Calls `sendRequestConnWithRetry` of the endpoint of a connection. -/
def sendOverEndpoint (call : SendCall) (attempts : ℕ → SendAttempt) (replyTransId : ℤ)
    (s : PoolState) (slot : StickySlot) (conn : ConnId) : Exchanging :=
  let result := sendRequestConnWithRetry call attempts ⟨s.heap, some conn, replyTransId, false⟩
  { state := { s with heap := result.2.heap }
    slot := if result.2.stickyNull then setStickyNull slot else slot
    conn := result.2.conn
    error := result.1
    isServerException := false }

/-- `conn->getEndpointObject()` where the pointer may be null. -/
def accessIfAny (s : PoolState) (conn : Option ConnId) : PoolState :=
  match conn with
  | none => s
  | some conn => { s with heap := s.heap.access conn }

/-- `put` where the pointer may be null. -/
def putIfAny (s : PoolState) (conn : Option ConnId) : PoolState :=
  match conn with
  | none => s
  | some conn => s.put conn

/-- The call of `sendRequestConnWithRetry` in `sendUserCredentials`. -/
def credentialCall (s : PoolState) (conn : ConnId) (cr : Credentials) : SendCall :=
  ⟨s.serverOf conn, attrs.threadLocalConnections, false, .userCredential, cr.reqTransId⟩

/-- The part of `sendUserCredentials` after the message was sent. -/
def readCredentialReply (reply : CredentialReply) (x : Exchanging) : Exchanging :=
  let state := x.state.accessIfAny x.conn
  let error := if x.conn = none then x.error else handleEPError reply.body x.error
  if error = .noErr then
    match reply with
    | .response => { x with state := state, error := .noErr }
    | .exception _ e =>
      { x with state := state.putIfAny x.conn, error := e, isServerException := true }
    | .unknown => { x with state := state.putIfAny x.conn, error := .msg }
  else { x with state := state, error := error }

/-- `ThinClientPoolDM::sendUserCredentials`; the reply object is a new one. -/
def sendUserCredentials (cr : Credentials) (s : PoolState)
    (slot : StickySlot) (conn : ConnId) : Exchanging :=
  readCredentialReply cr.reply
    (sendOverEndpoint (credentialCall attrs s conn cr) cr.attempts (-1)
      { s with heap := s.heap.access conn } slot conn)

/-- The part of a pass that authenticates the user. -/
def authenticate (credentials : Option Credentials) (s : PoolState)
    (slot : StickySlot) (conn : ConnId) : Exchanging :=
  match credentials with
  | none => ⟨s, slot, some conn, .noErr, false⟩
  | some cr => sendUserCredentials attrs cr s slot conn

/-- The call of `sendRequestConnWithRetry` in `sendSyncRequest`. -/
def requestCall : SendCall :=
  ⟨server, attrs.threadLocalConnections, false, request.type, request.transId⟩

/-- The part of a pass that sends the request, when the user is authenticated. -/
def sendRequest (env : Exchange) (x : Exchanging) : Exchanging :=
  match x.error, x.conn with
  | .noErr, some conn =>
    let y := sendOverEndpoint (requestCall attrs server request) env.attempts env.replyTransId
      x.state x.slot conn
    { y with error := handleEPError env.reply y.error }
  | _, _ => x

/-- The connection is put back after a request that was answered. A reply that asks for
authentication makes the pool look at the endpoint of the connection once more. -/
def putBack (reply : ReplyBody) (x : Exchanging) (conn : ConnId) : Exchanging :=
  let put := x.state.putInQueue x.slot conn request.forTransaction
  match reply with
  | .exception _ true _ => { x with state := put.1.accessIfAny (some conn), slot := put.2 }
  | _ => { x with state := put.1, slot := put.2 }

/-- After a request that failed, the idle connections to the server are closed unless it was a
timeout, and one more connection is taken off `m_poolSize`. -/
def afterFailure (error : PoolErrType) (s : PoolState) : PoolState :=
  (if error = .timeout then s else s.removeEPConnections server).reducePoolSize 1

/-- The connection is given up after a request that failed. -/
def giveUp (x : Exchanging) : Exchanging :=
  { x with
    state := match x.conn with
      | none => afterFailure server x.error x.state
      | some conn => (afterFailure server x.error x.state).safeDeleteCon conn
    slot := if request.sparesSticky then x.slot else setStickyNull x.slot }

/-- The part of a pass after the request. -/
def afterRequest (reply : ReplyBody) (x : Exchanging) : Exchanging :=
  if x.isServerException then x
  else
    match x.error, x.conn with
    | .noErr, some conn => putBack request reply x conn
    | _, _ => giveUp server request x

/-- One pass of `ThinClientPoolDM::sendSyncRequest` from the moment it has a connection. -/
def exchange (env : Exchange) (s : PoolState) (slot : StickySlot) (conn : ConnId) : Exchanging :=
  afterRequest (s.serverOf conn) request env.reply
    (sendRequest attrs (s.serverOf conn) request env
      (authenticate attrs env.credentials { s with heap := s.heap.access conn } slot conn))

end

end PoolState

end GeodeNative
