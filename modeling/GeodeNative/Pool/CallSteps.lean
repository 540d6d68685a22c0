import GeodeNative.Pool.PoolCalls

/-!
# What a step of `sendSyncRequest` can do

One inductive predicate for each step of a call lists what may become of the thread, with what is
known in each case. The shared state the step finds is arbitrary. What is proved about all runs
of a call is proved from these lists, and the functions themselves are not looked at again.
-/

namespace GeodeNative

variable {attrs : PoolAttributes} {below : List Pending} {t : PoolThread} {s : PoolState}
  {call : SyncCall} {error : PoolErrType}

open SyncCall

/-- No error is returned only when there was none. -/
lemma SyncCall.error_of_returned (h : returned error = .noErr) : error = .noErr := by
  unfold returned at h
  split at h
  · cases h
  · exact h

namespace PoolState

/-- How a pass ends for the thread: the call returns, or goes to its next pass. -/
inductive PassEnd (t : PoolThread) (below : List Pending) (call : SyncCall) : PoolThread → Prop
  | returned (error : PoolErrType) (herror : error = .noErr → call.error = .noErr) :
      PassEnd t below call (t.returns error below)
  | again (call' : SyncCall) (hend : call.endPass = .inr call') :
      PassEnd t below call (t.goTo (.sync call') below)

/-- A pass returns or begins the next one. -/
lemma afterPass_end (t : PoolThread) (call : SyncCall) :
    PassEnd t below call (t.afterPass call below) := by
  unfold PoolThread.afterPass
  cases hend : call.endPass with
  | inl error =>
    refine .returned error fun hnoErr => ?_
    have hreturned : error = returned call.error := by
      unfold endPass at hend
      dsimp only at hend
      split at hend
      · exact (Sum.inl.inj hend).symm
      · split at hend
        · exact (Sum.inl.inj hend).symm
        · cases hend
    exact error_of_returned (hreturned ▸ hnoErr)
  | inr call' => exact .again call' hend

/-- A pass without a connection ends with an error. -/
lemma withoutConnection_end (t : PoolThread) (call : SyncCall) (queueErr : PoolErrType)
    (below : List Pending) :
    ∃ error, error ≠ .noErr ∧ PassEnd t below { call with error := error }
      (t.withoutConnection call queueErr below) := by
  unfold PoolThread.withoutConnection
  split
  · exact ⟨.clientWaitTimeout, by simp, .returned _ id⟩
  · exact ⟨.clientWaitTimeoutRefreshPRMetadata, by simp, .returned _ id⟩
  · exact ⟨.allConnectionsInUseException, by simp, .returned _ id⟩
  · exact ⟨.notCon, by simp, afterPass_end t _⟩
  · rename_i hne _
    exact ⟨_, hne, afterPass_end t _⟩

/-- What the top of a pass comes to. -/
inductive AfterLook (t : PoolThread) (below : List Pending) (call : SyncCall) : PoolThread → Prop
  | returned (error : PoolErrType) (herror : error = .noErr → call.error = .noErr) :
      AfterLook t below call (t.returns error below)
  | holding (call' : SyncCall) (henter : call.enter = some call') (conn : ConnId) :
      AfterLook t below call (t.goTo (.holding call' conn) below)
  | queueing (call' : SyncCall) (henter : call.enter = some call') (sticky : Bool)
      (error : PoolErrType) (hsticky : sticky = true → call'.request.forTransaction = true)
      (hfree : call'.request.forTransaction = true → t.slot.conn = none) :
      AfterLook t below call (t.goTo (.queueing call' sticky error) below)

lemma lookAt_cases (attrs : PoolAttributes) (s : PoolState) (t : PoolThread)
    (below : List Pending) (call : SyncCall) (server : ServerId) {creation : Creation} :
    (∃ error, error ≠ .noErr ∧
        (s.lookAt attrs t call server creation below).2 = t.returns error below) ∨
      (∃ conn, (s.lookAt attrs t call server creation below).2 =
        t.goTo (.holding call conn) below) ∨
      ∃ error, (s.lookAt attrs t call server creation below).2 =
        t.goTo (.queueing call false error) below := by
  unfold lookAt
  split
  · exact .inr (.inl ⟨_, rfl⟩)
  · split
    · exact .inr (.inl ⟨_, rfl⟩)
    · exact .inl ⟨_, by simp, rfl⟩
    · exact .inl ⟨_, by simp, rfl⟩
    · exact .inr (.inr ⟨_, rfl⟩)

/-- What the search for a connection can end in. -/
lemma look_cases {route : PoolRoute} :
    AfterLook t below call (s.look attrs t call route below).2 := by
  unfold look
  cases henter : call.enter with
  | none => exact .returned _ error_of_returned
  | some call' =>
    dsimp only
    split
    · rename_i hgivesUp
      have htimeout : call'.error = .timeout := by
        simp only [givesUp, Bool.and_eq_true, decide_eq_true_eq] at hgivesUp
        exact hgivesUp.2
      exact .returned _ (by simp [htimeout])
    split
    · exact .returned _ (by simp)
    split
    · rename_i htx
      unfold lookSticky
      cases hslot : t.slot.conn with
      | some conn => exact .holding call' henter conn
      | none => exact .queueing call' henter true _ (fun _ => htx) fun _ => hslot
    · rename_i htx
      cases route with
      | server server =>
        obtain ⟨_, hne, heq⟩ | ⟨_, heq⟩ | ⟨_, heq⟩ := lookAt_cases attrs s t below call' server
        · exact heq ▸ .returned _ fun h => absurd h hne
        · exact heq ▸ .holding call' henter _
        · exact heq ▸ .queueing call' henter false _ (by simp) fun h => absurd h htx
      | bucketTimeout => exact .returned _ (by simp)
      | noCredentials | anywhere =>
        exact .queueing call' henter false _ (by simp) fun h => absurd h htx

/-- What the look into the queue comes to. -/
inductive AfterQueue (attrs : PoolAttributes) (t : PoolThread) (below : List Pending)
    (call : SyncCall) (sticky : Bool) (queueErr : PoolErrType) (conn : Option ConnId)
    (txDirty : Bool) : PoolThread → Prop
  | without (error : PoolErrType) (hne : error ≠ .noErr) (t' : PoolThread)
      (hend : PassEnd t below { call with error := error } t') :
      AfterQueue attrs t below call sticky queueErr conn txDirty t'
  | failover (hsticky : sticky = true) (herror : queueErr = .noErr) (hdirty : txDirty = true)
      (slot : StickySlot) (hslot : slot.conn = conn) :
      AfterQueue attrs t below call sticky queueErr conn txDirty
        ⟨slot, some (.sync (failoverCall attrs call.request.transId),
          .failingOver call conn :: below)⟩
  | holding (c : ConnId) :
      AfterQueue attrs t below call sticky queueErr conn txDirty (t.goTo (.holding call c) below)
  | queueing (hsticky : sticky = true) :
      AfterQueue attrs t below call sticky queueErr conn txDirty
        (t.goTo (.queueing call false .noErr) below)

/-- What the wait for a connection can end in. -/
lemma afterQueue_cases {sticky : Bool} {queueErr : PoolErrType}
    {conn : Option ConnId} {txDirty : Bool} :
    AfterQueue attrs t below call sticky queueErr conn txDirty
      (s.afterQueue attrs t call sticky queueErr conn txDirty below).2 := by
  obtain ⟨error, hne, hwithout⟩ := withoutConnection_end t call queueErr below
  unfold afterQueue
  split
  · rename_i hsticky
    split
    · exact .without error hne _ hwithout
    · rename_i herror
      split
      · rename_i hdirty
        cases conn with
        | none => exact .failover hsticky (not_not.mp herror) hdirty _ rfl
        | some =>
          refine .failover hsticky (not_not.mp herror) hdirty _ ?_
          unfold setStickyConnection
          split
          · assumption
          · rfl
      · cases conn with
        | none => exact .queueing hsticky
        | some c => exact .holding c
  · cases conn with
    | none => exact .without error hne _ hwithout
    | some c => exact .holding c

/-- What the end of a failover comes to for the outer call: its pass ends without a connection, or
goes on. -/
inductive AfterFailover (t : PoolThread) (below : List Pending) (call : SyncCall) :
    PoolThread → Prop
  | without (error : PoolErrType) (hne : error ≠ .noErr) (t' : PoolThread)
      (hend : PassEnd t below { call with error := error } t') : AfterFailover t below call t'
  | holding (c : ConnId) : AfterFailover t below call (t.goTo (.holding call c) below)
  | queueing : AfterFailover t below call (t.goTo (.queueing call false .noErr) below)

/-- What the failover of a transaction can end in. -/
lemma afterFailover_cases (s : PoolState) (t : PoolThread) (below : List Pending)
    (error : PoolErrType) (reply : Option ServerError) (call : SyncCall) (conn : Option ConnId) :
    AfterFailover t below call
      (s.afterFailover t error reply (.failingOver call conn) below).2 := by
  obtain ⟨e, hne, hwithout⟩ := withoutConnection_end t call (failoverError error reply) below
  unfold afterFailover
  generalize failoverError error reply = err at hwithout
  dsimp only
  split
  · cases conn with
    | none => exact .queueing
    | some c => exact .holding c
  · exact .without e hne _ hwithout

variable {excludeServers servers : List ServerId}

/-- Making a connection excludes servers that were not excluded before. -/
lemma connectLoop_excludes (currentserver : Option ConnId) {failure : SelectionFailure}
    {turns : List Dial} (hturns : ∀ dial ∈ turns, dial.server ∈ servers) (error : PoolErrType)
    (hnodup : excludeServers.Nodup) (hsub : excludeServers ⊆ servers) (s : PoolState) :
    (connectLoop currentserver failure turns error excludeServers s).excludeServers.Nodup ∧
      (connectLoop currentserver failure turns error excludeServers s).excludeServers ⊆ servers ∧
      excludeServers.length ≤
        (connectLoop currentserver failure turns error excludeServers s).excludeServers.length := by
  induction turns generalizing error excludeServers s with
  | nil => exact ⟨hnodup, hsub, le_refl _⟩
  | cons dial _ ih =>
    have hinsert : (excludeServers.insert dial.server).Nodup := hnodup.insert
    have hinsub : excludeServers.insert dial.server ⊆ servers := fun x hx =>
      (List.mem_insert_iff.mp hx).elim (fun h => h ▸ hturns dial List.mem_cons_self) (@hsub x)
    have hlen : excludeServers.length ≤ (excludeServers.insert dial.server).length :=
      List.length_le_length_insert
    unfold connectLoop
    split
    · exact ⟨hnodup, hsub, le_refl _⟩
    · split
      · exact ⟨hnodup, hsub, le_refl _⟩
      · split
        · exact ⟨hinsert, hinsub, hlen⟩
        · obtain ⟨h₁, h₂, h₃⟩ := ih (fun d hd => hturns d (List.mem_cons_of_mem _ hd)) _ hinsert
            hinsub _
          exact ⟨h₁, h₂, hlen.trans h₃⟩

/-- The servers that were tried are excluded, each of them once. -/
lemma getNoGetLock_excludes (attrs : PoolAttributes) (s : PoolState) {dials : Dials}
    (hturns : ∀ dial ∈ dials.turns, dial.server ∈ servers) (hnodup : excludeServers.Nodup)
    (hsub : excludeServers ⊆ servers) :
    (s.getNoGetLock attrs error excludeServers dials).excludeServers.Nodup ∧
      (s.getNoGetLock attrs error excludeServers dials).excludeServers ⊆ servers ∧
      excludeServers.length ≤
        (s.getNoGetLock attrs error excludeServers dials).excludeServers.length := by
  unfold getNoGetLock
  split
  · exact ⟨hnodup, hsub, le_refl _⟩
  · unfold createPoolConnection
    split
    · exact ⟨hnodup, hsub, le_refl _⟩
    · exact connectLoop_excludes none hturns .noErr hnodup hsub _

end PoolState

/-! ## The exchange with the server -/

namespace TcrEndpoint

/-- A pass that ends without an error leaves a connection, and an error makes the loop go on. -/
def Pass.Leaves (s : SendState) : Pass → Prop
  | .finished error => error = .noErr → s.conn ≠ none
  | .again _ error => error ≠ .noErr

variable {call : SendCall} {s : SendState}

lemma handleIOException_leaves (errno : Errno) (s : SendState) (conn : ConnId) :
    (handleIOException call errno s conn).1.Leaves (handleIOException call errno s conn).2 := by
  cases errno <;> simp [handleIOException, Pass.Leaves]

/-- A request that was answered leaves its connection in place. -/
lemma sendOver_leaves (sent : Sent) {conn : ConnId} (hconn : s.conn = some conn) :
    (sendOver call sent s conn).1.Leaves (sendOver call sent s conn).2 := by
  unfold sendOver
  dsimp only
  split
  · intro _
    simp [hconn]
  · exact handleIOException_leaves _ _ _
  · simp [Pass.Leaves]
  · simp [Pass.Leaves]
  · exact handleIOException_leaves _ _ _
  · unfold handleOtherException
    split <;> simp [Pass.Leaves]

lemma sendIfConnected_leaves (a : SendAttempt) (h : error = .noErr → s.conn ≠ none) :
    (sendIfConnected call a error s).1.Leaves (sendIfConnected call a error s).2 := by
  unfold sendIfConnected
  split
  · cases hconn : s.conn with
    | none => exact fun herror => h herror hconn
    | some => exact sendOver_leaves a.sent hconn
  · simp [Pass.Leaves]

lemma attempt_leaves (call : SendCall) (a : SendAttempt) (createNewConn : Bool)
    (herror : error ≠ .noErr) (s : SendState) :
    (attempt call a createNewConn error s).1.Leaves (attempt call a createNewConn error s).2 := by
  unfold attempt
  split
  · split
    · cases hcreation : a.creation with
      | made => exact sendIfConnected_leaves a (by simp)
      | failed constructed why =>
        have hne := why.error_ne_noErr
        generalize hwhy : why.error = e at hne
        cases constructed <;> simp only [createNewConnection, hwhy] <;>
          (cases e <;> first | exact absurd rfl hne | simp [Pass.Leaves])
    · simp [Pass.Leaves]
  · exact sendIfConnected_leaves a fun h => absurd h herror

/-- By induction on the attempts. -/
lemma retryLoop_leaves {attempts : ℕ → SendAttempt} (retries i : ℕ) (createNewConn : Bool)
    (herror : error ≠ .noErr) (s : SendState) :
    (retryLoop call attempts retries i createNewConn error s).1 = .noErr →
      (retryLoop call attempts retries i createNewConn error s).2.conn ≠ none := by
  induction retries generalizing i createNewConn error s with
  | zero =>
    have hpass := attempt_leaves call (attempts i) createNewConn herror s
    unfold retryLoop
    generalize attempt call (attempts i) createNewConn error s = result at hpass
    obtain ⟨pass, s'⟩ := result
    cases pass with
    | finished => exact hpass
    | again => exact fun h => absurd h hpass
  | succ _ ih =>
    have hpass := attempt_leaves call (attempts i) createNewConn herror s
    unfold retryLoop
    generalize attempt call (attempts i) createNewConn error s = result at hpass
    obtain ⟨pass, s'⟩ := result
    cases pass with
    | finished => exact hpass
    | again create => exact ih (i + 1) create hpass s'

end TcrEndpoint

namespace PoolState

/-- Without an error there is a connection. -/
def Connected (x : Exchanging) : Prop := x.error = .noErr → x.conn ≠ none

lemma connected_sendOverEndpoint (call : TcrEndpoint.SendCall) (attempts : ℕ → SendAttempt)
    (transId : ℤ) (s : PoolState) (slot : StickySlot) (conn : ConnId) :
    Connected (s.sendOverEndpoint call attempts transId slot conn) :=
  TcrEndpoint.retryLoop_leaves _ 0 false (by simp) _

variable {x : Exchanging} {reply : CredentialReply} {request : PoolRequest} {env : Exchange}
  {slot : StickySlot}

lemma connected_readCredentialReply
    (hx : Connected x) : Connected (readCredentialReply reply x) := by
  have hconn : (if x.conn = none then x.error else handleEPError reply.body x.error) = .noErr →
      x.conn ≠ none := by
    intro herror hnone
    rw [if_pos hnone] at herror
    exact hx herror hnone
  unfold readCredentialReply
  generalize (if x.conn = none then x.error else handleEPError reply.body x.error) = error at hconn
  dsimp only
  split
  · rename_i herror
    cases reply with
    | response => exact fun _ => hconn herror
    | exception _ e => exact fun h => absurd h e.2
    | unknown => simp [Connected]
  · exact fun h => absurd h ‹_›

/-- The credentials travel over the connection of the request. -/
lemma connected_authenticate (credentials : Option Credentials) (s : PoolState) (slot : StickySlot)
    (conn : ConnId) : Connected (authenticate attrs credentials s slot conn) := by
  cases credentials with
  | none => simp [Connected, authenticate]
  | some => exact connected_readCredentialReply (connected_sendOverEndpoint _ _ _ _ _ _)

/-- The request succeeds only over a connection. -/
lemma connected_sendRequest (server : ServerId) (request : PoolRequest) (env : Exchange)
    (hx : Connected x) : Connected (sendRequest attrs server request env x) := by
  unfold sendRequest
  split
  · rename_i conn herror hconn
    have hsent := connected_sendOverEndpoint (requestCall attrs server request) env.attempts
      env.replyTransId x.state x.slot conn
    generalize sendOverEndpoint (requestCall attrs server request) env.attempts env.replyTransId
      x.state x.slot conn = y at hsent
    intro herr
    refine hsent ?_
    by_contra hne
    exact hne (handleEPError_of_ne hne ▸ herr)
  · exact hx

lemma error_afterRequest (server : ServerId) (request : PoolRequest) (reply : ReplyBody)
    (x : Exchanging) : (afterRequest server request reply x).error = x.error := by
  unfold afterRequest
  split
  · rfl
  · split
    · unfold putBack
      split <;> rfl
    · rfl

/-- An exception of the server is an error. -/
def Excepted (x : Exchanging) : Prop := x.isServerException = true → x.error ≠ .noErr

lemma excepted_readCredentialReply
    (hx : x.isServerException = false) : Excepted (readCredentialReply reply x) := by
  unfold readCredentialReply
  generalize (if x.conn = none then x.error else handleEPError reply.body x.error) = error
  dsimp only
  split
  · cases reply with
    | response => simp [Excepted, hx]
    | exception _ e => exact fun _ => e.2
    | unknown => simp [Excepted]
  · simp [Excepted, hx]

lemma excepted_sendRequest (server : ServerId) (credentials : Option Credentials) (s : PoolState)
    (conn : ConnId) : Excepted (sendRequest attrs server request env
      (authenticate attrs credentials s slot conn)) := by
  unfold sendRequest
  split
  · exact fun h => by cases h
  · cases credentials with
    | none => simp [Excepted, authenticate]
    | some => exact excepted_readCredentialReply rfl

lemma isServerException_afterRequest (server : ServerId) (request : PoolRequest)
    (reply : ReplyBody) (x : Exchanging) :
    (afterRequest server request reply x).isServerException = x.isServerException := by
  unfold afterRequest
  split
  · rfl
  · split
    · unfold putBack
      split <;> rfl
    · rfl

/-- An exception of the server is an error of the exchange. -/
lemma exchange_exception
    {conn : ConnId} (hexc : (s.exchange attrs request env slot conn).isServerException = true) :
    (s.exchange attrs request env slot conn).error ≠ .noErr := by
  unfold exchange at hexc ⊢
  rw [isServerException_afterRequest] at hexc
  rw [error_afterRequest]
  exact excepted_sendRequest _ _ _ _ hexc

/-- The connection of a request of a transaction that was answered is in the slot. -/
lemma exchange_slot {conn : ConnId}
    (hexc : (s.exchange attrs request env slot conn).isServerException = false)
    (herror : (s.exchange attrs request env slot conn).error = .noErr)
    (htx : request.forTransaction = true) :
    (s.exchange attrs request env slot conn).slot.conn ≠ none := by
  have hconn : Connected (sendRequest attrs (s.serverOf conn) request env (authenticate attrs
      env.credentials { s with heap := s.heap.access conn } slot conn)) :=
    connected_sendRequest _ _ _ (connected_authenticate _ _ _ _)
  unfold exchange at hexc herror ⊢
  generalize sendRequest attrs (s.serverOf conn) request env (authenticate attrs env.credentials
    { s with heap := s.heap.access conn } slot conn) = x at hconn hexc herror
  rw [error_afterRequest] at herror
  obtain ⟨c, hc⟩ := Option.ne_none_iff_exists'.mp (hconn herror)
  unfold afterRequest at hexc ⊢
  split
  · rename_i h
    simp [h] at hexc
  · rw [herror, hc]
    have hslot : (x.state.setStickyConnection x.slot c).2.conn ≠ none := by
      unfold setStickyConnection
      split <;> simp_all
    change (putBack request env.reply x c).slot.conn ≠ none
    unfold putBack putInQueue
    rw [if_pos htx]
    split <;> exact hslot

/-- What the exchange comes to for the thread. -/
inductive AfterExchange (attrs : PoolAttributes) (s : PoolState) (t : PoolThread)
    (below : List Pending) (call : SyncCall) (conn : ConnId) (env : Exchange) : PoolThread → Prop
  | returned (slot : StickySlot) (error : PoolErrType)
      (hslot : error = .noErr → call.request.forTransaction = true → slot.conn ≠ none) :
      AfterExchange attrs s t below call conn env ({ t with slot := slot }.returns error below)
  | asked (slot : StickySlot) (hasks : env.reply.asksAgain = true)
      (herror : (s.exchange attrs call.request env t.slot conn).error = .noErr)
      (hslot : call.request.forTransaction = true → slot.conn ≠ none) :
      AfterExchange attrs s t below call conn env ({ t with slot := slot }.goTo (.sync { call with
        error := .noErr
        isAuthRequireExcep := true
        isAuthRequireExcepMaxTry := call.isAuthRequireExcepMaxTry - 1 }) below)
  | failed (slot : StickySlot)
      (hexc : (s.exchange attrs call.request env t.slot conn).isServerException = false)
      (herror : (s.exchange attrs call.request env t.slot conn).error ≠ .noErr)
      (error : PoolErrType) (hne : error ≠ .noErr) (t' : PoolThread)
      (hend : PassEnd { t with slot := slot } below { call with
        error := error
        excludeServers := call.excludeServers.insert (s.serverOf conn) } t') :
      AfterExchange attrs s t below call conn env t'

/-- What the reply can end in. -/
lemma finishSync_cases (s : PoolState) (t : PoolThread)
    (below : List Pending) (call : SyncCall) (conn : ConnId) :
    AfterExchange attrs s t below call conn env (s.finishSync attrs t call conn env below).2 := by
  have hslot := @exchange_slot attrs s call.request env t.slot conn
  have hexception := @exchange_exception attrs s call.request env t.slot conn
  unfold finishSync
  dsimp only
  split
  · rename_i hexc
    exact .returned _ _ fun herror => absurd herror (hexception hexc)
  · rename_i hexc
    split
    · rename_i herror
      split
      · rename_i hasks
        exact .asked _ hasks herror (hslot (by simpa using hexc) herror)
      · -- The pass ends without an error, and with it the call.
        have hend : ∀ e, ({ call with error := .noErr } : SyncCall).endPass = e →
            ∃ error, e = .inl error := by
          rintro _ rfl
          unfold endPass
          dsimp only
          split
          · exact ⟨_, rfl⟩
          · simp
        obtain ⟨_, heq⟩ := hend _ rfl
        unfold PoolThread.afterPass
        rw [heq]
        exact .returned _ _ fun _ htx => hslot (by simpa using hexc) herror htx
    · rename_i herror
      exact .failed _ (by simpa using hexc) herror _ herror _ (afterPass_end _ _)

end PoolState

end GeodeNative
