import GeodeNative.Pool.RetryBound

/-!
# Transactions of a thread

`CacheTransactionManagerImpl` keeps the transaction of a thread in thread-local storage, next to
the thread's sticky connection. Whether a transaction has touched a server it infers from that
connection: `commit` returns without sending anything when there is none. Requests that fail
empty the sticky slot, so that this inference is wrong after some histories.

A history is a list of what the thread meets: the calls of the application, and for each step of a
request the shared state it finds and the outcome. `commit_truthful` proves that commit tells the
truth in all histories in which no operation fails after the transaction has reached a server, or
at least leaves its connection in the slot.
-/

namespace GeodeNative

open List Option

open PoolState PoolThread

/-- `TXState`, with the id of the transaction; `sent` is not in the source, and says that an
operation of the transaction was sent to a server. -/
structure Transaction where
  transId : ℕ
  dirty : Bool
  ep : ServerId
  sent : Bool
  deriving DecidableEq, Repr

/-- The type of the reply to a COMMIT message; for a `RESPONSE`, whether its value is a
`TXCommitMessage`. -/
inductive CommitReply
  | response (hasCommit : Bool)
  | commitError
  | exception
  | other
  deriving DecidableEq, Repr

def CommitReply.isResponse : CommitReply → Bool
  | .response _ => true
  | _ => false

/-- How a commit ends; the value of the reply is used without being looked at. -/
inductive CommitOutcome
  | returned
  | threw
  | undefined
  deriving DecidableEq, Repr

/-- A commit that has ended: how, whether an operation of its transaction was sent to a server,
and whether its COMMIT message was answered by `RESPONSE`. -/
structure CommitEnd where
  outcome : CommitOutcome
  sent : Bool
  answered : Bool
  deriving DecidableEq, Repr

/-- What the request in progress is for. -/
inductive Purpose
  | operation
  | commit
  | rollback
  | resume
  deriving DecidableEq, Repr

/-- A thread with its transaction, the suspended transactions, what its request is for, the reply
to it, and the commits that have ended. -/
structure TxThread where
  thread : PoolThread
  tx : Option Transaction
  suspended : List Transaction
  purpose : Purpose
  reply : Option CommitReply
  commits : List CommitEnd

/-- What a thread does: a call of the application, or a step of the request it is in; `answer` is
the type of a reply that is not an exception. -/
inductive TxAction
  | begin (transId : ℕ)
  | operation (type : MessageType) (isBGThread attemptFailover : Bool)
  | suspend
  | resume (transId : ℕ)
  | commit
  | rollback
  | goOn (action : PoolAction) (answer : CommitReply)

/-- The action with the transaction's own `isDirty`. -/
def PoolAction.withDirty (dirty : Bool) : PoolAction → PoolAction
  | .dial dials _ => .dial dials dirty
  | .wake timedOut _ => .wake timedOut dirty
  | action => action

namespace TxThread

section

variable (attrs : PoolAttributes) (x : TxThread) (met : PoolState × PoolAction)
    (answer : CommitReply) (s : PoolState)

/-- A request begins, with the id of the transaction of the thread. -/
def request (purpose : Purpose) (type : MessageType)
    (isBGThread attemptFailover : Bool) : TxThread :=
  let transId := x.tx.elim (-1) fun tx => (tx.transId : ℤ)
  { x with
    thread := x.thread.goTo (.sync (.start attrs ⟨type, transId, isBGThread⟩ attemptFailover))
      [.caller]
    purpose := purpose
    reply := none }

/-- `TXCleaner`: the transaction ends and the sticky connection is released. -/
def cleaned : TxThread :=
  { x with
    thread := ⟨(s.releaseThreadLocalConnection x.thread.slot).2, none⟩
    tx := none }

/-- The end of `CacheTransactionManagerImpl::commit`, with the error its request has returned. -/
def committed (error : PoolErrType) : TxThread :=
  let outcome :=
    if error ≠ .noErr then CommitOutcome.threw
    else
      match x.reply with
      | some (.response true) => .returned
      | some (.response false) => .undefined
      | _ => .threw
  { x.cleaned s with
    commits := ⟨outcome, x.tx.elim false (·.sent), x.reply.elim false (·.isResponse)⟩ ::
      x.commits }

/-- The request has returned to its caller. -/
def finished (error : PoolErrType) (action : PoolAction) : TxThread :=
  let idle := { x with thread := { x.thread with running := none } }
  match x.purpose with
  | .operation => idle
  | .commit => x.committed s error
  | .rollback => x.cleaned s
  | .resume =>
    match action with
    | .setThreadLocalConnection => idle
    | _ => { idle with tx := none }

/-- The thread has got past the look for a connection for a transaction. -/
def pastLook (t : PoolThread) : Bool :=
  match t.running with
  | some (.holding call _, _) => call.request.forTransaction
  | some (.queueing call false _, _) => call.request.forTransaction
  | _ => false

/-- The operation of the transaction is sent in this step. -/
def sendsOperation : Bool :=
  x.purpose = .operation && x.thread.depth = 1 && x.thread.sendsRequest attrs met

/-- The reply to the request, if this step has brought it. -/
def replied : Option CommitReply :=
  match x.thread.running, met.2 with
  | some (.holding call conn, [_]), .exchange env =>
    if x.thread.sendsRequest attrs met ∧
        (met.1.exchange attrs call.request env x.thread.slot conn).error = .noErr then
      some (if env.reply = .normal then answer else .exception)
    else x.reply
  | _, _ => x.reply

/-- The thread after a step of its request, before the caller looks at the result. -/
def advanced : TxThread :=
  let t' := x.thread.next attrs met
  { x with
    thread := t'
    tx := x.tx.map fun tx => { tx with
      dirty := tx.dirty || pastLook t'
      sent := tx.sent || x.sendsOperation attrs met }
    reply := x.replied attrs met answer }

/-- A step of the request that the thread is in. -/
def goOn : TxThread :=
  let x' := x.advanced attrs met answer
  match x'.thread.running with
  | some (.returned error, [_]) => x'.finished met.1 error met.2
  | _ => x'

end

section

variable (attrs : PoolAttributes) (x : TxThread) (s : PoolState)

/-- `CacheTransactionManagerImpl::commit`, up to its request; without a sticky connection nothing
is sent. -/
def commit : TxThread :=
  match x.tx with
  | none => { x with commits := ⟨.threw, false, false⟩ :: x.commits }
  | some tx =>
    match x.thread.slot.conn with
    | none => { x.cleaned s with commits := ⟨.returned, tx.sent, false⟩ :: x.commits }
    | some _ => x.request attrs .commit .other false true

/-- `CacheTransactionManagerImpl::rollback`, up to its request. -/
def rollback : TxThread :=
  match x.tx, x.thread.slot.conn with
  | none, _ => x
  | some _, none => x.cleaned s
  | some _, some _ => x.request attrs .rollback .other false true

/-- `CacheTransactionManagerImpl::suspend`; without a transaction or a sticky connection it
throws. -/
def suspend : TxThread :=
  match x.tx, x.thread.slot.conn with
  | some tx, some conn =>
    { x.cleaned s with suspended := { tx with ep := s.serverOf conn } :: x.suspended }
  | _, _ => x

/-- `CacheTransactionManagerImpl::resume`, up to its request for a connection. -/
def resume (transId : ℕ) : TxThread :=
  match x.tx, x.suspended.find? fun tx => tx.transId = transId with
  | none, some tx =>
    { x with
      thread := x.thread.goTo (.resume tx.ep tx.transId) [.caller]
      tx := some tx
      suspended := x.suspended.erase tx
      purpose := .resume
      reply := none }
  | _, _ => x

/-- What the thread does next; a call of the application is made while no request is running, and
one that throws changes nothing. -/
def step (met : PoolState × TxAction) : TxThread :=
  match x.thread.running, met.2 with
  | none, .begin transId =>
    if x.tx.isSome then x else { x with tx := some ⟨transId, false, 0, false⟩ }
  | none, .operation type isBGThread attemptFailover =>
    x.request attrs .operation type isBGThread attemptFailover
  | none, .suspend => x.suspend met.1
  | none, .resume transId => x.resume transId
  | none, .commit => x.commit attrs met.1
  | none, .rollback => x.rollback attrs met.1
  | some _, .goOn action answer =>
    x.goOn attrs (met.1, action.withDirty (x.tx.elim true (·.dirty))) answer
  | _, _ => x

/-- A thread without a transaction and without a sticky connection. -/
def initial : TxThread := ⟨⟨⟨none, false⟩, none⟩, none, [], .operation, none, []⟩

/-- Commit tells the truth: a commit whose transaction has reached a server, and whose COMMIT
message was not answered by `RESPONSE`, has thrown. -/
def Truthful : Prop :=
  ∀ c ∈ x.commits, c.sent = true → c.answered = false → c.outcome = .threw

/-- An operation that fails does so before its transaction has reached a server, or leaves its
connection in the slot. -/
def Careful (met : PoolState × TxAction) : Prop :=
  ∀ action answer, met.2 = .goOn action answer → x.purpose = .operation →
    ∀ x', x.advanced attrs (met.1, action.withDirty (x.tx.elim true (·.dirty))) answer = x' →
      ∀ error place, x'.thread.running = some (.returned error, [place]) → error ≠ .noErr →
        (∀ tx ∈ x'.tx, tx.sent = false) ∨ x'.thread.slot.conn ≠ none

end

/-! ## The slot during an operation -/

/-- A point of a request of a transaction: where an answer has been received, the connection is in
the slot. -/
def OpPoint (slot : StickySlot) : Frame → Prop
  | .sync call => call.request.forTransaction = true ∧ (call.error = .noErr → slot.conn ≠ none)
  | .queueing call _ _ | .waiting call _ _ | .holding call _ =>
    call.request.forTransaction = true
  | .returned error => error = .noErr → slot.conn ≠ none
  | _ => False

/-- A request of a transaction that waits for its failover. -/
def OpPending : Pending → Prop
  | .failingOver call _ => call.request.forTransaction = true
  | .resumeFailingOver _ | .caller => False

/-- The thread is in a request of a transaction. -/
def InOperation (t : PoolThread) : Prop :=
  ∃ frame inner, t.running = some (frame, inner ++ [.caller]) ∧ OpPoint t.slot frame ∧
    ∀ p ∈ inner, OpPending p

variable {attrs : PoolAttributes} {t t' : PoolThread} {inner : List Pending} {call call' : SyncCall}
  {error queueErr : PoolErrType} {s : PoolState} {conn : Option ConnId} {txDirty sticky : Bool}
  {env : Exchange} {frame : Frame}

lemma endPass_eq (h : call.endPass = .inr call') :
    call'.request = call.request ∧ call'.error = call.error := by
  unfold SyncCall.endPass at h
  dsimp only at h
  split at h
  · cases h
  · split at h
    · cases h
    · obtain rfl := Sum.inr.inj h
      exact ⟨rfl, rfl⟩

section

variable (hinner : ∀ p ∈ inner, OpPending p)

include hinner

/-- The operation goes on at the point. -/
lemma inOperation_goTo (hpoint : OpPoint t.slot frame) :
    InOperation (t.goTo frame (inner ++ [.caller])) :=
  ⟨frame, inner, rfl, hpoint, hinner⟩

/-- The operation returns, without an error only over a connection. -/
lemma inOperation_returns (hslot : error = .noErr → t.slot.conn ≠ none) :
    InOperation (t.returns error (inner ++ [.caller])) :=
  ⟨.returned error, inner, by simp [returns], hslot, hinner⟩

/-- After the search for a connection. -/
lemma inOperation_afterLook (hafter : PoolState.AfterLook t (inner ++ [.caller]) call t')
    (hpoint : OpPoint t.slot (.sync call)) : InOperation t' := by
  have hrequest : ∀ {call'}, call.enter = some call' → call'.request = call.request := by
    intro call' henter
    unfold SyncCall.enter at henter
    split at henter
    · obtain rfl := some.inj henter
      rfl
    · split at henter
      · obtain rfl := some.inj henter
        rfl
      · cases henter
  cases hafter with
  | returned _ herror => exact inOperation_returns hinner fun h => hpoint.2 (herror h)
  | holding call' henter | queueing call' henter =>
    exact inOperation_goTo hinner (show call'.request.forTransaction = true from
      hrequest henter ▸ hpoint.1)

/-- A failed pass returns its error or begins another one. -/
lemma inOperation_passEnd (hend : PoolState.PassEnd t (inner ++ [.caller]) call t')
    (htx : call.request.forTransaction = true) (hne : call.error ≠ .noErr) : InOperation t' := by
  cases hend with
  | returned _ herror => exact inOperation_returns hinner fun h => absurd (herror h) hne
  | again _ hend =>
    obtain ⟨hrequest, herror⟩ := endPass_eq hend
    refine inOperation_goTo hinner ⟨hrequest ▸ htx, fun h => absurd (herror ▸ h) hne⟩

/-- After the wait for a connection. -/
lemma inOperation_afterQueue (hafter : PoolState.AfterQueue attrs t (inner ++ [.caller]) call sticky
      queueErr conn txDirty t') (htx : call.request.forTransaction = true) : InOperation t' := by
  cases hafter with
  | without _ hne _ hend => exact inOperation_passEnd hinner hend htx hne
  | failover =>
    refine ⟨_, .failingOver call conn :: inner, rfl, ⟨htx, fun h => by cases h⟩, ?_⟩
    intro p hp
    obtain rfl | hp := mem_cons.mp hp
    · exact htx
    · exact hinner p hp
  | holding | queueing => exact inOperation_goTo hinner htx

/-- After the reply. -/
lemma inOperation_afterExchange {conn : ConnId}
    (hafter : PoolState.AfterExchange attrs s t (inner ++ [.caller]) call conn env t')
    (htx : call.request.forTransaction = true) : InOperation t' := by
  cases hafter with
  | returned slot _ hslot =>
    exact inOperation_returns (t := { t with slot := slot }) hinner fun h => hslot h htx
  | asked slot _ _ hslot =>
    exact inOperation_goTo (t := { t with slot := slot }) hinner ⟨htx, fun _ => hslot htx⟩
  | failed _ _ _ _ hne _ hend => exact inOperation_passEnd hinner hend htx hne

/-- After the inner call of a failover. -/
lemma inOperation_afterFailover (hafter : PoolState.AfterFailover t (inner ++ [.caller]) call t')
    (htx : call.request.forTransaction = true) : InOperation t' := by
  cases hafter with
  | without _ hne _ hend => exact inOperation_passEnd hinner hend htx hne
  | holding | queueing => exact inOperation_goTo hinner htx

end

/-- A step of a request of a transaction whose caller does not have the result yet. -/
lemma inOperation_next (h : InOperation t)
    (hrunning : ∀ error place, t.running ≠ some (.returned error, [place]))
    (met : PoolState × PoolAction) : InOperation (t.next attrs met) := by
  have hstay := h
  obtain ⟨_, _⟩ := t
  obtain ⟨frame, inner, rfl, hpoint, hinner⟩ := h
  obtain ⟨s, action⟩ := met
  cases frame with
  | sync =>
    cases action with
    | look => exact inOperation_afterLook hinner look_cases hpoint
    | _ => exact hstay
  | queueing call sticky queueErr =>
    cases action with
    | dial dials txDirty =>
      change InOperation (s.dial attrs _ call sticky queueErr dials txDirty _).2
      unfold dial
      dsimp only
      split
      · exact inOperation_goTo hinner hpoint
      · exact inOperation_afterQueue hinner afterQueue_cases hpoint
    | _ => exact hstay
  | waiting call sticky queueErr =>
    cases action with
    | wake timedOut txDirty =>
      change InOperation (s.wake attrs _ call sticky queueErr timedOut txDirty _).2
      unfold wake
      split
      · exact inOperation_afterQueue hinner afterQueue_cases hpoint
      · split
        · exact inOperation_afterQueue hinner afterQueue_cases hpoint
        · split
          · exact inOperation_afterQueue hinner afterQueue_cases hpoint
          · exact hstay
    | _ => exact hstay
  | holding call conn =>
    cases action with
    | exchange =>
      exact inOperation_afterExchange hinner (finishSync_cases s _ _ call conn) hpoint
    | _ => exact hstay
  | returned error =>
    cases action with
    | failoverAnswered reply =>
      cases inner with
      | nil => exact absurd rfl (hrunning error .caller)
      | cons pending =>
        have hpending := hinner pending mem_cons_self
        cases pending with
        | resumeFailingOver | caller => exact absurd hpending id
        | failingOver call conn =>
          exact inOperation_afterFailover (fun p hp => hinner p (mem_cons_of_mem _ hp))
            (afterFailover_cases s _ _ error reply call conn) hpending
    | _ => exact hstay
  | _ => exact absurd hpoint id

/-! ## The caller waits -/

/-- The points of the calls that a transaction makes: requests, and the look for the connection of
a transaction that is resumed. -/
def TxFrame : Frame → Prop
  | .sync _ | .queueing _ _ _ | .waiting _ _ _ | .holding _ _ | .returned _ | .resume _ _
  | .resumeQueueing _ _ _ | .resumeWaiting _ _ _ | .resumed _ => True
  | _ => False

/-- The thread is in a call of its transaction that somebody waits for. -/
def Called (t : PoolThread) : Prop :=
  ∃ frame below, t.running = some (frame, below) ∧ below ≠ [] ∧ TxFrame frame

section Called

variable {below : List Pending}

section

variable (h : below ≠ []) {transId : ℤ} {timedOut : Bool}

include h

lemma called_goTo (hframe : TxFrame frame) : Called (t.goTo frame below) :=
  ⟨frame, below, rfl, h, hframe⟩

lemma called_returns : Called (t.returns error below) :=
  ⟨.returned error, below, by simp [returns, h], h, trivial⟩

lemma called_passEnd (hend : PoolState.PassEnd t below call t') : Called t' := by
  cases hend with
  | returned => exact called_returns h
  | again => exact called_goTo h trivial

lemma called_afterQueue
    (hafter : PoolState.AfterQueue attrs t below call sticky queueErr conn txDirty t') :
    Called t' := by
  cases hafter with
  | without _ _ _ hend => exact called_passEnd h hend
  | failover => exact ⟨_, _, rfl, by simp, trivial⟩
  | holding | queueing => exact called_goTo h trivial

lemma called_wake (ht : Called t) (call : SyncCall) (sticky : Bool) :
    Called (s.wake attrs t call sticky queueErr timedOut txDirty below).2 := by
  unfold wake
  split
  · exact called_afterQueue h afterQueue_cases
  · split
    · exact called_afterQueue h afterQueue_cases
    · split
      · exact called_afterQueue h afterQueue_cases
      · exact ht

lemma called_afterFailover (ht : Called t) (error : PoolErrType) (reply : Option ServerError)
    {pending : Pending} : Called (s.afterFailover t error reply pending below).2 := by
  cases pending with
  | failingOver call conn =>
    have hafter := afterFailover_cases s t below error reply call conn
    generalize (s.afterFailover t error reply (.failingOver call conn) below).2 = t' at hafter
    cases hafter with
    | without _ _ _ hend => exact called_passEnd h hend
    | holding | queueing => exact called_goTo h trivial
  | resumeFailingOver =>
    unfold afterFailover
    dsimp only
    split
    · exact called_goTo h trivial
    · exact called_returns h
  | caller => exact ht

lemma called_resumeWith {server : ServerId} :
    Called (s.resumeWith attrs t server transId error conn below).2 := by
  unfold resumeWith
  cases conn with
  | none => exact called_returns h
  | some =>
    dsimp only
    split
    · exact called_returns h
    · split
      · exact called_goTo h trivial
      · exact ⟨_, _, rfl, by simp, trivial⟩

lemma called_afterLook (hafter : PoolState.AfterLook t below call t') : Called t' := by
  cases hafter with
  | returned => exact called_returns h
  | holding | queueing => exact called_goTo h trivial

lemma called_afterExchange {conn : ConnId}
    (hafter : PoolState.AfterExchange attrs s t below call conn env t') : Called t' := by
  cases hafter with
  | returned => exact called_returns h
  | asked => exact called_goTo h trivial
  | failed _ _ _ _ _ _ hend => exact called_passEnd h hend

lemma called_resumeWake (ht : Called t) (server : ServerId) (error : PoolErrType) :
    Called (s.resumeWake attrs t server transId error timedOut below).2 := by
  unfold resumeWake
  split
  · exact called_resumeWith h
  · split
    · exact called_resumeWith h
    · split
      · exact called_resumeWith h
      · exact ht

lemma called_connectTo (server : ServerId) {connected : Bool} {creation : Creation} :
    Called (s.connectTo attrs t server transId connected creation below).2 := by
  unfold connectTo
  split
  · split
    · exact called_goTo h trivial
    · split <;> exact called_goTo h trivial
  · exact called_goTo h trivial

end

/-- No step but the return leaves the call. -/
lemma called_next (hcalled : Called t)
    (hunanswered : ∀ error place, t.running ≠ some (.returned error, [place]))
    (met : PoolState × PoolAction) : Called (t.next attrs met) := by
  have hstay := hcalled
  obtain ⟨_, _⟩ := t
  obtain ⟨frame, below, rfl, h, hframe⟩ := hcalled
  obtain ⟨s, action⟩ := met
  cases frame with
  | sync =>
    cases action with
    | look => exact called_afterLook h look_cases
    | _ => exact hstay
  | queueing call sticky =>
    cases action with
    | dial =>
      change Called (s.dial attrs _ call sticky _ _ _ _).2
      unfold dial
      dsimp only
      split
      · exact called_goTo h trivial
      · exact called_afterQueue h afterQueue_cases
    | _ => exact hstay
  | waiting call sticky =>
    cases action with
    | wake => exact called_wake h hstay call sticky
    | _ => exact hstay
  | holding =>
    cases action with
    | exchange => exact called_afterExchange h (finishSync_cases s _ _ _ _)
    | _ => exact hstay
  | returned error =>
    cases action with
    | failoverAnswered reply =>
      cases below with
      | nil => exact absurd rfl h
      | cons pending =>
        refine called_afterFailover ?_ hstay error reply
        rintro rfl
        exact hunanswered error pending rfl
    | _ => exact hstay
  | resume server =>
    cases action with
    | connectTo => exact called_connectTo h server
    | _ => exact hstay
  | resumeQueueing server _ error =>
    cases action with
    | dial =>
      change Called (s.resumeDial attrs _ server _ error _ _).2
      unfold resumeDial
      dsimp only
      split
      · exact called_goTo h trivial
      · exact called_resumeWith h
    | _ => exact hstay
  | resumeWaiting server _ error =>
    cases action with
    | wake => exact called_resumeWake h hstay server error
    | _ => exact hstay
  | resumed =>
    cases action with
    | setThreadLocalConnection => exact called_returns h
    | _ => exact hstay
  | _ => exact absurd hframe id

end Called

/-! ## Histories -/

/-- What holds along a careful history: while no request is running, a transaction that has reached
a server has its connection in the slot. -/
structure Kept (x : TxThread) : Prop where
  truthful : x.Truthful
  idle : x.thread.running = none → ∀ tx ∈ x.tx, tx.sent = true → x.thread.slot.conn ≠ none
  operation : x.thread.running ≠ none → x.purpose = .operation → x.tx ≠ none →
    InOperation x.thread
  called : x.thread.running ≠ none → Called x.thread
  unanswered : ∀ error place, x.thread.running ≠ some (.returned error, [place])

variable {x : TxThread}

lemma kept_initial : Kept initial where
  truthful := by simp [Truthful, initial]
  idle := by simp [initial]
  operation := by simp [initial]
  called := by simp [initial]
  unanswered := by simp [initial]

lemma Kept.of_tx_none (h : x.Truthful) (hidle : x.thread.running = none) (htx : x.tx = none) :
    Kept x where
  truthful := h
  idle := by simp [htx]
  operation := by simp [hidle]
  called := by simp [hidle]
  unanswered := by simp [hidle]

/-- A transaction that was cleaned up leaves nothing behind. -/
lemma Kept.cleaned (h : x.Truthful) : Kept (x.cleaned s) where
  truthful := h
  idle := by simp [TxThread.cleaned]
  operation := by simp [TxThread.cleaned]
  called := by simp [TxThread.cleaned]
  unanswered := by simp [TxThread.cleaned]

/-- A request begins a call and answers nothing yet. -/
lemma Kept.request (h : Kept x) {purpose : Purpose} {type : MessageType}
    {isBGThread attemptFailover : Bool} :
    Kept (x.request attrs purpose type isBGThread attemptFailover) where
  __ := h
  idle := by simp [TxThread.request, goTo]
  operation := by
    intro _ _ htx
    obtain ⟨tx, heq⟩ := ne_none_iff_exists'.mp htx
    have heq' : x.tx = some tx := heq
    refine ⟨_, [], rfl, ⟨?_, fun herror => by cases herror⟩, by simp⟩
    rw [heq']
    change (decide ((tx.transId : ℤ) ≠ -1)) = true
    rw [decide_eq_true_iff]
    omega
  called := fun _ => called_goTo (by simp) trivial
  unanswered := by simp [TxThread.request, goTo]

/-- `commit` before its request: a transaction without a connection has not reached a server. -/
lemma Kept.commit (h : Kept x) (hidle : x.thread.running = none) (s : PoolState) :
    Kept (x.commit attrs s) := by
  unfold TxThread.commit
  cases htx : x.tx with
  | none =>
    refine Kept.of_tx_none ?_ hidle rfl
    rintro c hc hsent hanswered
    obtain rfl | hc := mem_cons.mp hc
    · rfl
    · exact h.truthful c hc hsent hanswered
  | some tx =>
    cases hslot : x.thread.slot.conn with
    | some => exact h.request
    | none =>
      refine Kept.of_tx_none ?_ rfl rfl
      rintro c hc hsent hanswered
      obtain rfl | hc := mem_cons.mp hc
      · exact absurd hslot (h.idle hidle tx htx hsent)
      · exact h.truthful c hc hsent hanswered

/-- `commit` after its request throws unless the reply is a `RESPONSE`. -/
lemma Kept.committed (h : x.Truthful) (s : PoolState) (error : PoolErrType) :
    Kept (x.committed s error) := by
  refine Kept.of_tx_none ?_ rfl rfl
  rintro c hc hsent hanswered
  obtain rfl | hc := mem_cons.mp hc
  · dsimp only at hanswered ⊢
    split
    · rfl
    · cases hreply : x.reply with
      | none => rfl
      | some reply =>
        rw [hreply] at hanswered
        cases reply with
        | response => simp [CommitReply.isResponse] at hanswered
        | commitError | exception | other => rfl
  · exact h c hc hsent hanswered

/-- A resumed transaction has its connection in the slot. -/
lemma slot_setThreadLocalConnection {place : Pending}
    (hunanswered : ∀ error place, t.running ≠ some (.returned error, [place]))
    (hreturned : (t.next attrs (s, .setThreadLocalConnection)).running =
      some (.returned error, [place])) :
    (t.next attrs (s, .setThreadLocalConnection)).slot.conn ≠ none := by
  obtain ⟨slot, running⟩ := t
  cases running with
  | none => cases hreturned
  | some running =>
    obtain ⟨frame, _⟩ := running
    cases frame with
    | resumed conn =>
      change (s.addStickyConnection slot conn).2.conn ≠ none
      unfold addStickyConnection
      split
      · simp
      · split <;> simp
    | _ => exact absurd hreturned (hunanswered error place)

/-- The running call keeps it, whatever it meets. -/
lemma Kept.goOn (h : Kept x) (hrunning : x.thread.running ≠ none) (met : PoolState × PoolAction)
    (answer : CommitReply) (hcareful : x.purpose = .operation → ∀ error place,
      (x.advanced attrs met answer).thread.running = some (.returned error, [place]) →
      error ≠ .noErr →
        (∀ tx ∈ (x.advanced attrs met answer).tx, tx.sent = false) ∨
          (x.advanced attrs met answer).thread.slot.conn ≠ none) :
    Kept (x.goOn attrs met answer) := by
  have htx : (x.advanced attrs met answer).tx ≠ none → x.tx ≠ none := by
    intro hne hnone
    simp [TxThread.advanced, hnone] at hne
  have hoperation : x.purpose = .operation → (x.advanced attrs met answer).tx ≠ none →
      InOperation (x.advanced attrs met answer).thread := fun hpurpose hne =>
    inOperation_next (h.operation hrunning hpurpose (htx hne)) h.unanswered met
  have hresumed : ∀ error place,
      (x.advanced attrs met answer).thread.running = some (.returned error, [place]) →
      met.2 = .setThreadLocalConnection →
      (x.advanced attrs met answer).thread.slot.conn ≠ none := by
    intro error place hreturned haction
    obtain ⟨_, _⟩ := met
    subst haction
    exact slot_setThreadLocalConnection h.unanswered hreturned
  have hcalled : Called (x.advanced attrs met answer).thread :=
    called_next (h.called hrunning) h.unanswered met
  have htruthful : (x.advanced attrs met answer).Truthful := h.truthful
  have hpurpose : (x.advanced attrs met answer).purpose = x.purpose := rfl
  unfold TxThread.goOn
  generalize x.advanced attrs met answer = x'
    at hcareful hoperation hresumed hcalled htruthful hpurpose
  dsimp only
  split
  · rename_i error place hreturned
    unfold TxThread.finished
    cases hp : x'.purpose with
    | operation =>
      refine ⟨htruthful, ?_, by simp, by simp, by simp⟩
      intro _ tx htx' hsent
      by_cases herror : error = .noErr
      · obtain ⟨frame, _, hrun, hpoint, -⟩ :=
          hoperation (hpurpose ▸ hp) (ne_none_iff_exists'.mpr ⟨tx, htx'⟩)
        rw [hreturned] at hrun
        obtain ⟨rfl, -⟩ := Prod.mk.inj (some.inj hrun)
        exact hpoint herror
      · obtain hnone | hslot := hcareful (hpurpose ▸ hp) error place hreturned herror
        · rw [hnone tx htx'] at hsent
          cases hsent
        · exact hslot
    | commit => exact Kept.committed htruthful met.1 error
    | rollback => exact Kept.cleaned htruthful
    | resume =>
      cases haction : met.2 with
      | setThreadLocalConnection =>
        refine ⟨htruthful, fun _ tx _ _ => hresumed error place hreturned haction, by simp,
          by simp, by simp⟩
      | _ => exact Kept.of_tx_none htruthful rfl rfl
  · rename_i hgoing
    refine ⟨htruthful, fun hnone => ?_, fun _ hop => hoperation (hpurpose ▸ hop), fun _ => hcalled,
      fun error place => hgoing error place⟩
    obtain ⟨_, _, hrun, -⟩ := hcalled
    rw [hnone] at hrun
    cases hrun

/-- Each action of the thread. -/
lemma Kept.step (h : Kept x) {met : PoolState × TxAction} (hcareful : Careful attrs x met) :
    Kept (x.step attrs met) := by
  obtain ⟨s, action⟩ := met
  unfold TxThread.step
  cases hrunning : x.thread.running with
  | none =>
    cases action with
    | begin =>
      dsimp only
      split
      · exact h
      · refine ⟨h.truthful, ?_, fun hne => absurd hrunning hne, fun hne => absurd hrunning hne,
          h.unanswered⟩
        rintro _ tx ⟨⟩ hsent
        cases hsent
    | operation => exact h.request
    | suspend =>
      dsimp only [TxThread.suspend]
      split
      · exact Kept.of_tx_none h.truthful rfl rfl
      · exact h
    | resume =>
      dsimp only [TxThread.resume]
      split
      · exact ⟨h.truthful, by simp [goTo], by simp,
          fun _ => called_goTo (by simp) trivial, by simp [goTo]⟩
      · exact h
    | commit => exact h.commit hrunning s
    | rollback =>
      dsimp only [TxThread.rollback]
      split
      · exact h
      · exact Kept.cleaned h.truthful
      · exact h.request
    | goOn => exact h
  | some =>
    cases action with
    | goOn action answer =>
      refine h.goOn (by simp [hrunning]) _ answer fun hpurpose error place hreturned herror => ?_
      exact hcareful action answer rfl hpurpose _ rfl error place hreturned herror
    | _ => exact h

/-- In every history in which operations fail carefully, commit tells the truth. -/
theorem commit_truthful (attrs : PoolAttributes) (history : List (PoolState × TxAction))
    (hcareful : EveryStep (step attrs) (Careful attrs) initial history) :
    EveryState (step attrs) Truthful initial history := by
  have hkept : EveryState (step attrs) Kept initial history :=
    everyState_of_everyStep (fun _ _ h hc => h.step hc) kept_initial hcareful
  exact hkept.mono fun _ h => h.truthful

/-- What a thread meets that uses the pool alone; only the steps of requests change what is
shared. -/
def alone (attrs : PoolAttributes) : TxThread → PoolState → List TxAction →
    List (PoolState × TxAction)
  | _, _, [] => []
  | x, s, action :: actions =>
    let s' :=
      match x.thread.running, action with
      | some (frame, below), .goOn a _ =>
        (s.goOn attrs x.thread frame below (a.withDirty (x.tx.elim true (·.dirty)))).1
      | _, _ => s
    (s, action) :: alone attrs (x.step attrs (s, action)) s' actions

/-- An exchange that ends as given, as often as it is tried. -/
def exchangeWith (sent : Sent) : Exchange := ⟨none, -1, fun _ => ⟨true, .made, true, sent⟩, .normal⟩

/-- A transaction with one operation, over a new connection, whose exchange ends as given. -/
def oneOperation (sent : Sent) : List TxAction :=
  [.begin 1, .operation .other false true, .goOn (.look .anywhere) .other,
    .goOn (.dial ⟨[⟨0, .made⟩], .noServer⟩ true) .other,
    .goOn (.exchange (exchangeWith sent)) .other]

/-- An operation that is answered, and a commit whose message is answered by `RESPONSE`. -/
def answeredHistory : List (PoolState × TxAction) :=
  alone (CountedCall.attributesWith 0) initial ⟨.empty, [], false, 0⟩
    (oneOperation ⟨some 1, .replied⟩ ++ [.commit, .goOn (.look .anywhere) .other,
      .goOn (.exchange (exchangeWith ⟨some 1, .replied⟩)) (.response true)])

/-- An operation whose connection breaks after it was sent, with no retry left, and a commit. -/
def brokenHistory : List (PoolState × TxAction) :=
  alone (CountedCall.attributesWith 0) initial ⟨.empty, [], false, 0⟩
    (oneOperation ⟨none, .ioException .connReset⟩ ++ [.goOn (.look .anywhere) .other, .commit])

lemma careful_answeredHistory :
    EveryStep (step (CountedCall.attributesWith 0)) (Careful (CountedCall.attributesWith 0)) initial
      answeredHistory := by
  refine ⟨?_, ?_, ?_, ?_, ?_, ?_, ?_, ?_, trivial⟩
  · rintro _ _ ⟨⟩
  · rintro _ _ ⟨⟩
  · rintro _ _ ⟨⟩ - _ rfl _ _ ⟨⟩
  · rintro _ _ ⟨⟩ - _ rfl _ _ ⟨⟩
  · rintro _ _ ⟨⟩ - _ rfl _ _ - -
    exact .inr (by decide)
  · rintro _ _ ⟨⟩
  · rintro _ _ ⟨⟩ hpurpose
    cases hpurpose
  · rintro _ _ ⟨⟩ hpurpose
    cases hpurpose

theorem commit_truthful_answeredHistory :
    EveryStep (step (CountedCall.attributesWith 0)) (Careful (CountedCall.attributesWith 0)) initial
        answeredHistory ∧
      EveryState (step (CountedCall.attributesWith 0)) Truthful initial answeredHistory :=
  ⟨careful_answeredHistory,
    commit_truthful (CountedCall.attributesWith 0) answeredHistory careful_answeredHistory⟩

/-- The broken connection is taken out of the slot, and the commit that follows returns without
having sent a message. -/
theorem not_truthful_brokenHistory :
    ¬ EveryState (step (CountedCall.attributesWith 0)) Truthful initial brokenHistory := by
  intro h
  have hcommit : (⟨.returned, true, false⟩ : CommitEnd) ∈
      (runFrom (step (CountedCall.attributesWith 0)) initial brokenHistory).commits := by
    decide
  exact absurd (h.last _ hcommit rfl rfl) (by decide)

end TxThread

end GeodeNative
