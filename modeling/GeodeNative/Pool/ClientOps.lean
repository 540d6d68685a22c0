import GeodeNative.Library.Runs
import GeodeNative.Pool.PoolCalls

/-!
# The count of running operations

`sendSyncRequest` raises `m_clientOps` on entry and lowers it again where it returns, but not
everywhere: a call that gives up after a timeout, has no credentials, waited too long for a
connection or gets an exception for its credentials returns without lowering it. Nothing lowers it
either when an exception leaves the call. Calls of other threads, and the one that `doFailover`
makes within a pass, are calls in progress of their own.
-/

namespace GeodeNative

/-- The parts of a pass that an exception can leave: the search for a connection, where
`getBucketServerLocation` refuses a resolver without a routing object, the credentials, which
`getCredentials` of the application is asked for, and the refresh of the metadata after a reply,
where `getRegion` refuses a closed cache. The sending itself catches everything. -/
inductive PassPart
  | search
  | credentials
  | refresh
  deriving DecidableEq

/-- What a pass of `sendSyncRequest` meets: whether the user has credentials, the error and the
excluded servers that `getConnectionFromQueueW` leaves, the server of the connection, the error of
the message with the credentials and whether it is an exception of the server, the error of the
request, whether the reply asks for authentication, and the part that throws an exception when the
pass comes to it. -/
structure PassOutcome where
  hasCredentials : Bool
  queueErr : PoolErrType
  excludeServers : List ServerId
  conn : Option ServerId
  userCredMsgErr : PoolErrType
  isServerException : Bool
  error : PoolErrType
  authRequired : Bool
  thrown : Option PassPart

namespace SyncCall

variable (call : SyncCall) (o : PassOutcome)

/-- The end of a pass: another one follows, or the call returns and has lowered the count. -/
def ends : SyncCall ⊕ Bool :=
  match call.endPass with
  | .inl _ => .inr true
  | .inr call' => .inl call'

/-- The rest of a pass, after the search for a connection. -/
def afterSearch : SyncCall ⊕ Bool :=
  match o.conn with
  | none =>
    if o.queueErr = .noErr then .inr true
    else ends { call with error := if o.queueErr = .ioErr then .notCon else o.queueErr }
  | some server =>
    let error := if o.userCredMsgErr = .noErr then o.error else o.userCredMsgErr
    if o.thrown = some .credentials then .inr false
    else if o.isServerException then .inr false
    else if error = .noErr then
      if o.authRequired then
        .inl { call with
          error
          isAuthRequireExcep := true
          isAuthRequireExcepMaxTry := call.isAuthRequireExcepMaxTry - 1 }
      else if o.thrown = some .refresh then .inr false
      else ends { call with error }
    else ends { call with error, excludeServers := call.excludeServers.insert server }

/-- A pass of the loop: the call goes on, or it ends and has lowered the count or not. -/
def pass : SyncCall ⊕ Bool :=
  match call.enter with
  | none => .inr true
  | some call =>
    if call.givesUp then .inr false
    else if o.hasCredentials = false then .inr false
    else if o.thrown = some .search then .inr false
    else if o.queueErr = .clientWaitTimeout then .inr false
    else if o.queueErr = .clientWaitTimeoutRefreshPRMetadata then .inr false
    else afterSearch { call with excludeServers := o.excludeServers } o

/-- With a connection: the credentials cost an exception, of the application or of the server, or
the request was answered and the refresh of the metadata throws. -/
def LeavesConnected : Prop :=
  o.thrown = some .credentials ∨ o.isServerException = true ∨
    o.userCredMsgErr = .noErr ∧ o.error = .noErr ∧ o.authRequired = false ∧
      o.thrown = some .refresh

/-- The call enters a pass that it leaves without lowering the count. -/
def LeavesUncounted : Prop :=
  ∃ call', call.enter = some call' ∧ (call'.givesUp = true ∨ o.hasCredentials = false ∨
    o.thrown = some .search ∨ o.queueErr = .clientWaitTimeout ∨
    o.queueErr = .clientWaitTimeoutRefreshPRMetadata ∨ o.conn ≠ none ∧ LeavesConnected o)

variable {call o}

/-- What follows the last exchange lowers the count where it returns. -/
lemma ends_ne : call.ends ≠ .inr false := by
  unfold ends
  split <;> simp

lemma afterSearch_eq_uncounted_iff :
    call.afterSearch o = .inr false ↔ o.conn ≠ none ∧ LeavesConnected o := by
  unfold afterSearch LeavesConnected
  cases o.conn with
  | none =>
    dsimp only
    split_ifs <;> simp [ends_ne]
  | some =>
    by_cases hcred : o.userCredMsgErr = .noErr
    · simp only [hcred, if_true]
      split_ifs <;> simp_all [ends_ne]
    · simp only [hcred, if_false]
      split_ifs <;> simp_all [ends_ne]

/-- The exits of a pass that leave the count as it is are those that `LeavesUncounted` lists. -/
lemma pass_eq_uncounted_iff : call.pass o = .inr false ↔ call.LeavesUncounted o := by
  unfold pass LeavesUncounted
  cases henter : call.enter with
  | none => simp
  | some =>
    simp only [Option.some.injEq, exists_eq_left']
    split_ifs <;> simp [afterSearch_eq_uncounted_iff, *]

end SyncCall

/-- The count, and the calls in progress. -/
structure ClientOps where
  clientOps : ℤ := 0
  calls : List SyncCall := []

/-- A call begins, or one that is in progress makes a pass. -/
inductive OpsStep
  | sendSyncRequest (request : PoolRequest) (attemptFailover : Bool)
  | pass (i : ℕ) (o : PassOutcome)

namespace ClientOps

variable (attrs : PoolAttributes)

def step (s : ClientOps) : OpsStep → ClientOps
  | .sendSyncRequest request attemptFailover =>
    ⟨s.clientOps + 1, .start attrs request attemptFailover :: s.calls⟩
  | .pass i o =>
    match s.calls[i]? with
    | none => s
    | some call =>
      match call.pass o with
      | .inl call' => { s with calls := s.calls.set i call' }
      | .inr lowered => ⟨if lowered then s.clientOps - 1 else s.clientOps, s.calls.eraseIdx i⟩

def Counts (s : ClientOps) : Prop := s.clientOps = s.calls.length

/-- No pass is left without lowering the count. -/
def Lowers (s : ClientOps) : OpsStep → Prop
  | .sendSyncRequest _ _ => True
  | .pass i o => ∀ call ∈ s.calls[i]?, ¬ call.LeavesUncounted o

lemma Counts.step_iff {s : ClientOps} (h : s.Counts) (c : OpsStep) :
    (s.step attrs c).Counts ↔ s.Lowers c := by
  unfold Counts at h ⊢
  cases c with
  | sendSyncRequest => exact iff_of_true (by simp [step, h]) trivial
  | pass i o =>
    cases hcall : s.calls[i]? with
    | none => simpa [step, Lowers, hcall] using h
    | some call =>
      have hlt : i < s.calls.length := (List.getElem?_eq_some_iff.mp hcall).1
      have hiff := @SyncCall.pass_eq_uncounted_iff call o
      simp only [step, Lowers, hcall, Option.mem_some_iff, forall_eq', ← hiff]
      cases hpass : call.pass o with
      | inl => simp [h]
      | inr lowered =>
        cases lowered with
        | true | false => simp [h, List.length_eraseIdx, hlt]; omega

/-- The count is the number of calls in progress exactly as long as every pass that ends a call
lowers it. -/
theorem counts_iff_lowers (steps : List OpsStep) :
    EveryState (step attrs) Counts {} steps ↔ EveryStep (step attrs) Lowers {} steps :=
  everyState_iff_everyStep (fun _ c h => (h.step_iff attrs c).mpr) (fun _ h => h)
    (fun _ c h => (h.step_iff attrs c).mp) rfl

/-- A call that waited too long for a connection stays in the count. -/
theorem not_counts_after_waitTimeout : ¬ EveryState (step ⟨1, 5, 1, false⟩) Counts {}
    [.sendSyncRequest ⟨.other, -1, false⟩ true,
      .pass 0 ⟨true, .clientWaitTimeout, [], none, .noErr, false, .noErr, false, none⟩] :=
  fun h => absurd (show (1 : ℤ) = 0 from h.last) (by decide)

end ClientOps

end GeodeNative
