import Mathlib.Data.List.Perm.Subperm
import GeodeNative.Library.Runs
import GeodeNative.Pool.CallSteps

/-!
# How often a request is sent

The loop of `sendSyncRequest` is meant to be left after `retryAttempts + 1` passes, or after every
server was tried once, with a few more passes when the server asks for authentication. Its
condition uses a counter that is decremented as a truth value, a flag that only a `break` respects,
and a budget of its own for authentication; and a transaction that has lost its connection sends a
request inside of a request.

One call is followed from its beginning to its return. The other threads may do anything in
between, so that every step finds a shared state of its own. `Counted` adds to the thread how many
requests each of its nested calls has sent, and how many steps were taken; `bounded_of_tame` bounds
both, and the depth of the nesting, for all calls whose steps are `Tame`.
-/

namespace GeodeNative

variable {attrs : PoolAttributes} {servers : List ServerId} {attemptFailover : Bool}
  {request : PoolRequest}

open PoolState PoolThread SyncCall

/-! ## The passes of a call -/

/-- The number of passes that a call of `sendSyncRequest` is meant to make at most. -/
def PoolAttributes.maxPasses (attrs : PoolAttributes) (n : ℕ) : ℕ :=
  if attrs.retryAttempts = -1 then n + 4 else (attrs.retryAttempts + 1).toNat

namespace SyncCall

/-- The number of passes that can still begin, between two passes. -/
def passesLeft (n : ℕ) (call : SyncCall) : ℕ :=
  if call.retryAllEPsOnce then
    (call.isAuthRequireExcepMaxTry + 1).toNat + (n - call.excludeServers.length) + 1
  else call.retry.toNat

/-- The number of passes that can still begin after the current one. -/
def passesAfter (n : ℕ) (call : SyncCall) : ℕ :=
  if call.retryAllEPsOnce then
    (call.isAuthRequireExcepMaxTry + 1).toNat + (n - call.lastExcludeSize)
  else call.retry.toNat

/-- The variables of a call that do not change their role during a pass. -/
structure Sound (attrs : PoolAttributes) (servers : List ServerId) (call : SyncCall) : Prop where
  mode : call.retryAllEPsOnce = true ↔ attrs.retryAttempts = -1
  budget : call.retryAllEPsOnce = true → -1 ≤ call.isAuthRequireExcepMaxTry
  retry : call.retryAllEPsOnce = false → 0 ≤ call.retry
  nodup : call.excludeServers.Nodup
  excluded : call.excludeServers ⊆ servers

/-- The variables of a call between two passes: a counter that has come to its end is not revived
by a request for authentication. -/
structure Between (attrs : PoolAttributes) (servers : List ServerId) (call : SyncCall) : Prop
    extends Sound attrs servers call where
  auth : call.retryAllEPsOnce = false → call.isAuthRequireExcep = true →
    call.retry ≠ 0 ∨ call.isAuthRequireExcepMaxTry < 0

/-- The variables of a call during a pass. -/
structure During (attrs : PoolAttributes) (servers : List ServerId) (call : SyncCall) : Prop
    extends Sound attrs servers call where
  noAuth : call.isAuthRequireExcep = false
  lastSize : call.lastExcludeSize ≤ call.excludeServers.length

variable {call call' : SyncCall}

/-- A new call has excluded no server. -/
lemma between_start (hR : -1 ≤ attrs.retryAttempts) :
    Between attrs servers (start attrs request attemptFailover) where
  mode := by simp [start]
  budget := by simp [start]
  retry := by simp [start]; omega
  nodup := List.nodup_nil
  excluded := List.nil_subset _
  auth := by simp [start]

lemma passesLeft_start (request : PoolRequest) (attemptFailover : Bool) (n : ℕ) :
    (start attrs request attemptFailover).passesLeft n = attrs.maxPasses n := by
  unfold passesLeft PoolAttributes.maxPasses start
  by_cases h : attrs.retryAttempts = -1
  · simp only [h, decide_true, if_true, List.length_nil]
    omega
  · simp [h]

/-- A pass begins: one pass less is left. -/
lemma Between.enter (h : Between attrs servers call) (henter : call.enter = some call') :
    During attrs servers call' ∧
      call'.passesAfter servers.length + 1 ≤ call.passesLeft servers.length ∧
      call'.request = call.request := by
  unfold SyncCall.enter at henter
  cases hall : call.retryAllEPsOnce with
  | true =>
    simp only [hall, if_true, Option.some.injEq] at henter
    subst henter
    refine ⟨⟨⟨by simpa [hall] using h.mode, by simpa [hall] using h.budget, by simp, h.nodup,
      h.excluded⟩, rfl, le_refl _⟩, ?_, rfl⟩
    simp [passesAfter, passesLeft, hall]
  | false =>
    have hretry := h.retry hall
    have hauth := h.auth hall
    simp only [hall, Bool.false_eq_true, if_false] at henter
    split at henter
    · rename_i hgo
      obtain rfl := Option.some.inj henter
      have hpos : call.retry ≠ 0 := by
        obtain hne | ⟨ha, _⟩ := hgo
        · exact hne
        · exact (hauth ha).resolve_right (by omega)
      refine ⟨⟨⟨by simpa [hall] using h.mode, by simp, fun _ => ?_, h.nodup, h.excluded⟩, rfl,
        le_refl _⟩, ?_, rfl⟩
      · dsimp only
        omega
      · simp only [passesAfter, passesLeft, hall, Bool.false_eq_true, if_false]
        omega
    · cases henter

variable (h : During attrs servers call)

include h

lemma During.setError (error : PoolErrType) : During attrs servers { call with error := error } :=
  ⟨⟨h.mode, h.budget, h.retry, h.nodup, h.excluded⟩, h.noAuth, h.lastSize⟩

/-- A server that failed is excluded. -/
lemma During.exclude {excludeServers : List ServerId} (hnodup : excludeServers.Nodup)
    (hsub : excludeServers ⊆ servers) (hle : call.excludeServers.length ≤ excludeServers.length) :
    During attrs servers { call with excludeServers := excludeServers } :=
  ⟨⟨h.mode, h.budget, h.retry, hnodup, hsub⟩, h.noAuth, h.lastSize.trans hle⟩

/-- A pass ends and another one may follow: this does not raise the number of passes left. -/
lemma During.endPass (hend : call.endPass = .inr call') : Between attrs servers call' ∧
      call'.passesLeft servers.length ≤ call.passesAfter servers.length ∧
      call'.request = call.request ∧ call'.retry = call.retry ∧
      call'.retryAllEPsOnce = call.retryAllEPsOnce ∧ call'.isAuthRequireExcep = false := by
  have hlen : call.excludeServers.length ≤ servers.length :=
    (List.subperm_of_subset h.nodup h.excluded).length_le
  have hlast := h.lastSize
  unfold SyncCall.endPass at hend
  dsimp only at hend
  split at hend
  · cases hend
  · rename_i hgrown
    split at hend
    · cases hend
    · obtain rfl := Sum.inr.inj hend
      have hsound : ∀ ex : List ServerId, ex.Nodup → ex ⊆ servers →
          Between attrs servers { call with excludeServers := ex } := fun ex hn hs =>
        ⟨⟨h.mode, h.budget, h.retry, hn, hs⟩, fun _ ha => by simp [h.noAuth] at ha⟩
      refine ⟨?_, ?_, rfl, rfl, rfl, h.noAuth⟩
      · split
        · exact hsound [] List.nodup_nil (List.nil_subset _)
        · exact hsound _ h.nodup h.excluded
      · unfold passesLeft passesAfter
        cases hall : call.retryAllEPsOnce with
        | true =>
          -- Every server is tried once: the pass has excluded another one.
          rw [hall] at hgrown
          have hne : call.excludeServers.length ≠ call.lastExcludeSize := fun heq =>
            hgrown ⟨heq, rfl⟩
          simp only [if_true, if_neg hne]
          omega
        | false => simp

/-- The server asks for authentication and another pass may follow. -/
lemma During.askAgain (hbudget : call.retryAllEPsOnce = true → 0 ≤ call.isAuthRequireExcepMaxTry)
    (hretry : call.retryAllEPsOnce = false → call.retry ≠ 0 ∨ call.isAuthRequireExcepMaxTry ≤ 0) :
    let again := { call with
      error := .noErr
      isAuthRequireExcep := true
      isAuthRequireExcepMaxTry := call.isAuthRequireExcepMaxTry - 1 }
    Between attrs servers again ∧
      passesLeft servers.length again ≤ call.passesAfter servers.length := by
  have hlast := h.lastSize
  refine ⟨⟨⟨h.mode, fun hall => ?_, h.retry, h.nodup, h.excluded⟩, fun hall _ => ?_⟩, ?_⟩
  · have := hbudget hall
    dsimp only
    omega
  · refine (hretry hall).imp_right fun hle => ?_
    dsimp only
    omega
  · unfold passesLeft passesAfter
    cases hall : call.retryAllEPsOnce with
    | true =>
      have := hbudget hall
      simp only [if_true]
      omega
    | false => simp

end SyncCall

/-! ## A call with its counts -/

/-- A thread in a call of `sendSyncRequest`, with the number of requests that the innermost call
and the calls below it have sent, and the number of steps that were taken. -/
structure CountedCall where
  thread : PoolThread
  sends : List ℕ
  steps : ℕ

namespace PoolThread

/-- The thread goes on with its call in the shared state that it finds. -/
def next (attrs : PoolAttributes) (t : PoolThread) (met : PoolState × PoolAction) : PoolThread :=
  match t.running with
  | none => t
  | some (frame, below) => (met.1.goOn attrs t frame below met.2).2

/-- The step calls `sendRequestConnWithRetry` for the request. -/
def sendsRequest (attrs : PoolAttributes) (t : PoolThread) (met : PoolState × PoolAction) : Bool :=
  match t.running, met.2 with
  | some (.holding _ conn, _), .exchange env =>
    (PoolState.authenticate attrs env.credentials
      { met.1 with heap := met.1.heap.access conn } t.slot conn).error = .noErr
  | _, _ => false

/-- The number of calls that wait for an inner one. -/
def depth (t : PoolThread) : ℕ := t.running.elim 0 fun running => running.2.length

end PoolThread

namespace CountedCall

/-- The innermost call has sent its request once more. -/
def countSend : List ℕ → List ℕ
  | [] => []
  | k :: ks => (k + 1) :: ks

/-- A step of the thread with its counts: an inner call begins with a count of its own, which is
given up when the outer call goes on. -/
def step (attrs : PoolAttributes) (x : CountedCall) (met : PoolState × PoolAction) :
    CountedCall :=
  let t' := x.thread.next attrs met
  let sends := if x.thread.sendsRequest attrs met then countSend x.sends else x.sends
  { thread := t'
    sends :=
      if x.thread.depth < t'.depth then 0 :: sends
      else if t'.depth < x.thread.depth then sends.tail
      else sends
    steps := if t' = x.thread then x.steps else x.steps + 1 }

/-- A call of `sendSyncRequest` that has just begun. -/
def begun (attrs : PoolAttributes) (slot : StickySlot) (request : PoolRequest)
    (attemptFailover : Bool) : CountedCall :=
  ⟨⟨slot, some (.sync (.start attrs request attemptFailover), [])⟩, [0], 0⟩

/-- The number of steps that is enough for a call that makes `passes` passes, and inner calls that
make as many. -/
def maxSteps (passes : ℕ) : ℕ := (2 * passes + 9) * passes + 1

/-- Every call has sent its request no more often than the number of retries, or of servers,
allows; no more than one call waits for an inner one; and the number of steps is bounded, so that
the call returns. -/
structure Bounded (attrs : PoolAttributes) (n : ℕ) (x : CountedCall) : Prop where
  sends : ∀ k ∈ x.sends,
    (k : ℤ) ≤ (if attrs.retryAttempts = -1 then (n : ℤ) + 1 else attrs.retryAttempts + 1) + 3
  depth : x.thread.depth ≤ 1
  steps : x.steps ≤ maxSteps (attrs.maxPasses n)

/-- A transaction moves to another server with a connection to it. -/
def TameQueue (sticky : Bool) (queueErr : PoolErrType) (conn : Option ConnId) (txDirty : Bool) :
    Prop :=
  sticky = true → queueErr = .noErr → txDirty = true → conn ≠ none

/-- The server asks for authentication only while retries are left, or the budget for it; and the
request of a failover is not repeated after an error. -/
structure TameExchange (attrs : PoolAttributes) (servers : List ServerId) (s : PoolState)
    (slot : StickySlot) (below : List Pending) (call : SyncCall) (conn : ConnId)
    (env : Exchange) : Prop where
  server : s.serverOf conn ∈ servers
  asksAgain : (s.exchange attrs call.request env slot conn).error = .noErr →
    env.reply.asksAgain = true →
      if attrs.retryAttempts = -1 then 0 ≤ call.isAuthRequireExcepMaxTry
      else call.retry ≠ 0 ∨ call.isAuthRequireExcepMaxTry ≤ 0
  failover : below ≠ [] →
    (s.exchange attrs call.request env slot conn).isServerException = false →
    (s.exchange attrs call.request env slot conn).error ≠ .noErr →
      attrs.retryAttempts ≠ -1 ∧ call.retry = 0

/-- A step with an outcome that does not keep the call going for ever; the servers are those in
the list. -/
def Tame (attrs : PoolAttributes) (servers : List ServerId) (x : CountedCall)
    (met : PoolState × PoolAction) : Prop :=
  match x.thread.running, met.2 with
  | some (.queueing call sticky queueErr, _), .dial dials txDirty =>
    (∀ dial ∈ dials.turns, dial.server ∈ servers) ∧
      (met.1.closed = true →
        TameQueue sticky (met.1.getNoGetLock attrs queueErr call.excludeServers dials).error
          (met.1.getNoGetLock attrs queueErr call.excludeServers dials).conn txDirty)
  | some (.waiting _ sticky queueErr, _), .wake timedOut txDirty =>
    timedOut = true ∨ met.1.closed = true → TameQueue sticky queueErr none txDirty
  | some (.holding call conn, below), .exchange env =>
    TameExchange attrs servers met.1 x.thread.slot below call conn env
  | _, _ => True

/-! ### The invariant -/

/-- The points of a pass; only a transaction looks for a sticky connection. -/
inductive PassPoint (call : SyncCall) : Frame → Prop
  | queueing (sticky : Bool) (queueErr : PoolErrType)
      (hsticky : sticky = true → call.request.forTransaction = true) :
      PassPoint call (.queueing call sticky queueErr)
  | waiting (sticky : Bool) (queueErr : PoolErrType)
      (hsticky : sticky = true → call.request.forTransaction = true) :
      PassPoint call (.waiting call sticky queueErr)
  | holding (conn : ConnId) : PassPoint call (.holding call conn)

/-- The variables of a call during a pass, and how often it has sent its request before. -/
structure InPass (attrs : PoolAttributes) (servers : List ServerId) (call : SyncCall) (k : ℕ) :
    Prop where
  during : call.During attrs servers
  count : k + 1 + call.passesAfter servers.length ≤ attrs.maxPasses servers.length

/-- The variables of a call between two passes, and how often it has sent its request. -/
structure AtPass (attrs : PoolAttributes) (servers : List ServerId) (call : SyncCall) (k : ℕ) :
    Prop where
  between : call.Between attrs servers
  count : k + call.passesLeft servers.length ≤ attrs.maxPasses servers.length

/-- Where the thread is: the call has returned; it is between two passes or in one; or it is in a
failover, whose call keeps to the connection in the slot. -/
inductive Within (attrs : PoolAttributes) (servers : List ServerId) : PoolThread → List ℕ → Prop
  | ended (slot : StickySlot) (k : ℕ) (hk : k ≤ attrs.maxPasses servers.length) :
      Within attrs servers ⟨slot, none⟩ [k]
  | between (slot : StickySlot) (call : SyncCall) (k : ℕ) (hcall : AtPass attrs servers call k) :
      Within attrs servers ⟨slot, some (.sync call, [])⟩ [k]
  | during (slot : StickySlot) (frame : Frame) (call : SyncCall) (k : ℕ)
      (hframe : PassPoint call frame) (hcall : InPass attrs servers call k) :
      Within attrs servers ⟨slot, some (frame, [])⟩ [k]
  | innerBetween (slot : StickySlot) (call call' : SyncCall) (conn : Option ConnId) (k k' : ℕ)
      (houter : InPass attrs servers call k) (hcall : AtPass attrs servers call' k')
      (htx : call'.request.forTransaction = true)
      (hslot : slot.conn ≠ none ∨ call'.enter = none) :
      Within attrs servers ⟨slot, some (.sync call', [.failingOver call conn])⟩ [k', k]
  | innerHolding (slot : StickySlot) (call call' : SyncCall) (conn : Option ConnId) (c : ConnId)
      (k k' : ℕ) (houter : InPass attrs servers call k) (hcall : InPass attrs servers call' k')
      (htx : call'.request.forTransaction = true) :
      Within attrs servers ⟨slot, some (.holding call' c, [.failingOver call conn])⟩ [k', k]
  | innerReturned (slot : StickySlot) (call : SyncCall) (conn : Option ConnId)
      (error : PoolErrType) (k k' : ℕ) (houter : InPass attrs servers call k)
      (hk' : k' ≤ attrs.maxPasses servers.length) :
      Within attrs servers ⟨slot, some (.returned error, [.failingOver call conn])⟩ [k', k]

variable {x : CountedCall} {met : PoolState × PoolAction}

/-- How far an inner call is from its return. -/
def innerRank (n : ℕ) : Frame → ℕ
  | .sync call => 2 * call.passesLeft n + 2
  | .holding call _ => 2 * call.passesAfter n + 3
  | _ => 1

/-- How far a call is from its return, when its own calls make at most `passes` passes. -/
def outerRank (passes n : ℕ) : Frame → ℕ
  | .sync call => (2 * passes + 9) * call.passesLeft n + 1
  | .holding call _ => (2 * passes + 9) * call.passesAfter n + 2
  | .waiting call sticky _ =>
    (2 * passes + 9) * call.passesAfter n + if sticky then 2 * passes + 7 else 3
  | .queueing call sticky _ =>
    (2 * passes + 9) * call.passesAfter n + if sticky then 2 * passes + 8 else 4
  | _ => 0

/-- How far a thread is from the return of its call. -/
def rank (passes n : ℕ) (t : PoolThread) : ℕ :=
  match t.running with
  | none => 0
  | some (frame, []) => outerRank passes n frame
  | some (frame, .failingOver call _ :: _) =>
    (2 * passes + 9) * call.passesAfter n + 4 + innerRank n frame
  | some (_, .resumeFailingOver _ :: _) | some (_, .caller :: _) => 0

/-- A step keeps the thread within its call, and brings it nearer to its return or leaves it where
it is. -/
def Advances (attrs : PoolAttributes) (servers : List ServerId) (x x' : CountedCall) : Prop :=
  Within attrs servers x'.thread x'.sends ∧
    (x'.thread = x.thread ∨
      rank (attrs.maxPasses servers.length) servers.length x'.thread <
        rank (attrs.maxPasses servers.length) servers.length x.thread)

/-- Every step that meets this advances, whatever the number of steps before. -/
abbrev Goes (attrs : PoolAttributes) (servers : List ServerId) (t : PoolThread) (sends : List ℕ)
    (met : PoolState × PoolAction) : Prop :=
  ∀ steps, Advances attrs servers ⟨t, sends, steps⟩ (step attrs ⟨t, sends, steps⟩ met)

/-- A thread that is nearer to the return of its call than `r` says, at a depth. -/
structure Nearer (attrs : PoolAttributes) (servers : List ServerId) (depth r : ℕ)
    (sends : List ℕ) (t' : PoolThread) : Prop where
  within : Within attrs servers t' sends
  depth : t'.depth = depth
  rank : rank (attrs.maxPasses servers.length) servers.length t' < r

section Steps

variable {t t' : PoolThread} {k k' j r : ℕ} {call call' : SyncCall} {slot : StickySlot}
  {conn : Option ConnId} {sends : List ℕ} {s : PoolState} {c : ConnId} {sticky : Bool}
  {queueErr : PoolErrType}

/-- A rank below a smaller bound is below a larger one. -/
lemma Nearer.mono {d r' : ℕ} (h : Nearer attrs servers d r sends t') (hr : r ≤ r') :
    Nearer attrs servers d r' sends t' :=
  ⟨h.within, h.depth, h.rank.trans_le hr⟩

lemma goes_of_next_eq (h : Within attrs servers t sends) (hnext : t.next attrs met = t)
    (hsend : t.sendsRequest attrs met = false) : Goes attrs servers t sends met := by
  intro _
  refine ⟨?_, .inl hnext⟩
  simpa [step, hnext, hsend] using h

/-- The thread stays in its call, and counts a request if it has sent one. -/
lemma goes_of_nearer (h : Nearer attrs servers t.depth
    (rank (attrs.maxPasses servers.length) servers.length t)
    (if t.sendsRequest attrs met then countSend sends else sends) (t.next attrs met)) :
    Goes attrs servers t sends met := by
  intro _
  refine ⟨?_, .inr h.rank⟩
  simpa [step, h.depth] using h.within

/-- The end of a pass uses up one pass. -/
lemma passEnd_outer (hend : PoolState.PassEnd t [] call t') (hcall : call.During attrs servers)
    (hcount : j + call.passesAfter servers.length ≤ attrs.maxPasses servers.length) :
    Nearer attrs servers 0
      ((2 * attrs.maxPasses servers.length + 9) * call.passesAfter servers.length + 2) [j] t' := by
  cases hend with
  | returned => exact ⟨.ended _ j (by omega), rfl, Nat.succ_pos _⟩
  | again call' hend =>
    obtain ⟨hbetween, hle, -⟩ := hcall.endPass hend
    refine ⟨.between _ call' j ⟨hbetween, by omega⟩, rfl, ?_⟩
    exact Nat.lt_succ_of_le (Nat.add_le_add_right (Nat.mul_le_mul_left _ hle) 1)

/-- A pass of a failover's call ends, for the last time unless the slot holds a connection. -/
lemma passEnd_inner (houter : InPass attrs servers call k)
    (hend : PoolState.PassEnd t [.failingOver call conn] call' t')
    (hcall : call'.During attrs servers)
    (hcount : j + call'.passesAfter servers.length ≤ attrs.maxPasses servers.length)
    (htx : call'.request.forTransaction = true)
    (hlast : call'.retryAllEPsOnce = false ∧ call'.retry = 0) :
    Nearer attrs servers 1
      ((2 * attrs.maxPasses servers.length + 9) * call.passesAfter servers.length + 4 +
        (2 * call'.passesAfter servers.length + 3)) [j, k] t' := by
  cases hend with
  | returned error =>
    refine ⟨.innerReturned _ call conn error k j houter (by omega), rfl, ?_⟩
    change _ + 4 + 1 < _
    omega
  | again call'' hend =>
    obtain ⟨hbetween, _, hrequest, hretry, hall, hauth⟩ := hcall.endPass hend
    have hnone : call''.enter = none := by
      simp [enter, hall.trans hlast.1, hretry.trans hlast.2, hauth]
    refine ⟨.innerBetween _ call call'' conn k j houter ⟨hbetween, by omega⟩ (hrequest ▸ htx)
      (.inr hnone), rfl, ?_⟩
    change _ + 4 + (2 * call''.passesLeft servers.length + 2) < _
    omega

lemma mul_passes {w a b : ℕ} (h : a + 1 ≤ b) : w * a + w ≤ w * b := by
  exact Nat.mul_le_mul_left w h

variable {below : List Pending} {steps : ℕ} {env : Exchange}

/-- A call that is between two passes only looks. -/
lemma goes_of_look (h : Within attrs servers ⟨slot, some (.sync call, below)⟩ sends)
    (hcases : ∀ t', PoolState.AfterLook ⟨slot, some (.sync call, below)⟩ below call t' →
      Nearer attrs servers below.length (rank (attrs.maxPasses servers.length) servers.length
        ⟨slot, some (.sync call, below)⟩) sends t') :
    Goes attrs servers ⟨slot, some (.sync call, below)⟩ sends met := by
  obtain ⟨s, action⟩ := met
  by_cases hlook : ∃ route, action = .look route
  · obtain ⟨_, rfl⟩ := hlook
    exact goes_of_nearer (hcases _ (look_cases (s := s)))
  · refine goes_of_next_eq h ?_ rfl
    cases action <;> first | rfl | exact absurd ⟨_, rfl⟩ hlook

/-- The search of the outer call. -/
lemma goes_between (hcall : AtPass attrs servers call k) :
    Goes attrs servers ⟨slot, some (.sync call, [])⟩ [k] met := by
  have hcount := hcall.count
  refine goes_of_look (.between slot call k hcall) fun t' hafter => ?_
  cases hafter with
  | returned => exact ⟨.ended _ k (by omega), rfl, Nat.succ_pos _⟩
  | holding call' henter conn =>
    obtain ⟨hduring, hless, -⟩ := hcall.between.enter henter
    have hmul := mul_passes (w := 2 * attrs.maxPasses servers.length + 9) hless
    refine ⟨.during _ _ call' k (.holding conn) ⟨hduring, by omega⟩, rfl, ?_⟩
    change _ * call'.passesAfter servers.length + 2 < _ * call.passesLeft servers.length + 1
    omega
  | queueing call' henter sticky error hsticky =>
    obtain ⟨hduring, hless, -⟩ := hcall.between.enter henter
    have hmul := mul_passes (w := 2 * attrs.maxPasses servers.length + 9) hless
    refine ⟨.during _ _ call' k (.queueing sticky error hsticky) ⟨hduring, by omega⟩, rfl, ?_⟩
    change _ * call'.passesAfter servers.length +
      (if sticky then 2 * attrs.maxPasses servers.length + 8 else 4) <
        _ * call.passesLeft servers.length + 1
    split <;> omega

section

variable (houter : InPass attrs servers call k)

include houter

/-- The call of a failover begins a pass: it finds the connection in the slot. -/
lemma goes_innerBetween (hcall : AtPass attrs servers call' k')
    (htx : call'.request.forTransaction = true) (hslot : slot.conn ≠ none ∨ call'.enter = none) :
    Goes attrs servers ⟨slot, some (.sync call', [.failingOver call conn])⟩ [k', k] met := by
  have hcount := hcall.count
  refine goes_of_look (.innerBetween slot call call' conn k k' houter hcall htx hslot)
    fun t' hafter => ?_
  cases hafter with
  | returned error =>
    refine ⟨.innerReturned _ call conn error k k' houter (by omega), rfl, ?_⟩
    change _ + 4 + 1 < _ + 4 + (2 * call'.passesLeft servers.length + 2)
    omega
  | holding call'' henter c =>
    obtain ⟨hduring, _, hrequest⟩ := hcall.between.enter henter
    refine ⟨.innerHolding _ call call'' conn c k k' houter ⟨hduring, by omega⟩
      (hrequest ▸ htx), rfl, ?_⟩
    change _ + 4 + (2 * call''.passesAfter servers.length + 3) <
      _ + 4 + (2 * call'.passesLeft servers.length + 2)
    omega
  | queueing _ henter _ _ _ hfree =>
    obtain ⟨-, -, hrequest⟩ := hcall.between.enter henter
    obtain hne | hnone := hslot
    · exact absurd (hfree (hrequest ▸ htx)) hne
    · rw [hnone] at henter
      cases henter

/-- The outer call goes on with its pass after a failover. -/
lemma afterFailover_outer (hafter : PoolState.AfterFailover t [] call t') :
    Nearer attrs servers 0
      ((2 * attrs.maxPasses servers.length + 9) * call.passesAfter servers.length + 5) [k] t' := by
  have hcount := houter.count
  cases hafter with
  | without error _ _ hend =>
    exact (passEnd_outer hend (houter.during.setError error)
      (show k + call.passesAfter servers.length ≤ _ by omega)).mono
        (Nat.add_le_add_left (by omega) _)
  | holding c =>
    exact ⟨.during _ _ call k (.holding c) houter, rfl, Nat.add_lt_add_left (by omega) _⟩
  | queueing =>
    exact ⟨.during _ _ call k (.queueing false _ (by simp)) houter, rfl, Nat.lt_succ_self _⟩

/-- The outer call ends its pass with the error of the inner one. -/
lemma goes_innerReturned (hk' : k' ≤ attrs.maxPasses servers.length) (error : PoolErrType) :
    Goes attrs servers ⟨slot, some (.returned error, [.failingOver call conn])⟩ [k', k] met := by
  obtain ⟨s, action⟩ := met
  by_cases hanswered : ∃ reply, action = .failoverAnswered reply
  · obtain ⟨reply, rfl⟩ := hanswered
    obtain ⟨hwithin, hdepth, hrank⟩ := afterFailover_outer houter
      (afterFailover_cases s ⟨slot, some (.returned error, [.failingOver call conn])⟩ []
        error reply call conn)
    have hone : depth ⟨slot, some (.returned error, [.failingOver call conn])⟩ = 1 := rfl
    refine fun steps => ⟨?_, .inr hrank⟩
    simpa [step, next, goOn, sendsRequest, hdepth, hone] using hwithin
  · refine goes_of_next_eq (.innerReturned slot call conn error k k' houter hk') ?_ rfl
    cases action <;> first | rfl | exact absurd ⟨_, rfl⟩ hanswered

end

/-- The outer call has looked into the queue, with what counts for `rank` before. -/
lemma afterQueue_goes {frame : Frame} {txDirty : Bool}
    (hcall : InPass attrs servers call k) (hR : -1 ≤ attrs.retryAttempts)
    (hsticky : sticky = true → call.request.forTransaction = true)
    (htame : TameQueue sticky queueErr conn txDirty)
    (hafter : PoolState.AfterQueue attrs ⟨slot, some (frame, [])⟩ [] call sticky queueErr conn
      txDirty (next attrs ⟨slot, some (frame, [])⟩ met))
    (hsend : sendsRequest attrs ⟨slot, some (frame, [])⟩ met = false)
    (hrank : (2 * attrs.maxPasses servers.length + 9) * call.passesAfter servers.length +
        (if sticky then 2 * attrs.maxPasses servers.length + 7 else 3) ≤
      outerRank (attrs.maxPasses servers.length) servers.length frame) :
    Goes attrs servers ⟨slot, some (frame, [])⟩ [k] met := by
  have hcount := hcall.count
  generalize hnext : next attrs ⟨slot, some (frame, [])⟩ met = t' at hafter
  have hpass : Nearer attrs servers 0
      (outerRank (attrs.maxPasses servers.length) servers.length frame) [k] t' →
      Goes attrs servers ⟨slot, some (frame, [])⟩ [k] met := by
    intro hnearer
    refine goes_of_nearer ?_
    rw [hnext, hsend]
    exact hnearer
  cases hafter with
  | without error _ _ hend =>
    refine hpass ((passEnd_outer hend (hcall.during.setError error)
      (show k + call.passesAfter servers.length ≤ _ by omega)).mono ?_)
    change _ * call.passesAfter servers.length + 2 ≤ _
    split at hrank <;> omega
  | holding c =>
    refine hpass ⟨.during _ _ call k (.holding c) hcall, rfl, ?_⟩
    change _ * call.passesAfter servers.length + 2 < _
    split at hrank <;> omega
  | queueing hs =>
    refine hpass ⟨.during _ _ call k (.queueing false _ (by simp)) hcall, rfl, ?_⟩
    change _ * call.passesAfter servers.length + 4 < _
    rw [if_pos hs] at hrank
    omega
  | failover hs herror hdirty slot' hslot =>
    -- The inner call begins with the connection in the slot.
    have hne : slot'.conn ≠ none := by
      rw [hslot]
      exact htame hs herror hdirty
    have hstart : AtPass attrs servers (failoverCall attrs call.request.transId) 0 :=
      ⟨between_start hR, by
        rw [failoverCall, passesLeft_start]
        omega⟩
    refine fun steps => ⟨?_, .inr ?_⟩
    · simp only [step, hnext, hsend]
      exact .innerBetween slot' call _ conn k 0 hcall hstart (hsticky hs) (.inl hne)
    · change rank _ _ (next attrs ⟨slot, some (frame, [])⟩ met) < _
      rw [hnext]
      change _ * call.passesAfter servers.length + 4 +
        (2 * (failoverCall attrs call.request.transId).passesLeft servers.length + 2) < _
      rw [failoverCall, passesLeft_start]
      rw [if_pos hs] at hrank
      exact lt_of_lt_of_le (by omega) hrank

/-- The exchange of a pass, with the call as it is for the next one. -/
lemma TameExchange.during
    (h : TameExchange attrs servers s slot below call c env) (hcall : call.During attrs servers)
    {error : PoolErrType} : SyncCall.During attrs servers { call with
      error := error
      excludeServers := call.excludeServers.insert (s.serverOf c) } := by
  have hsub : call.excludeServers.insert (s.serverOf c) ⊆ servers := fun d hd =>
    (List.mem_insert_iff.mp hd).elim (fun heq => heq ▸ h.server) (@hcall.excluded d)
  exact (hcall.setError error).exclude hcall.nodup.insert hsub List.length_le_length_insert

/-- A reply that asks for authentication begins a pass that is counted. -/
lemma TameExchange.between
    (h : TameExchange attrs servers s slot below call c env) (hcall : call.During attrs servers)
    (herror : (s.exchange attrs call.request env slot c).error = .noErr)
    (hasks : env.reply.asksAgain = true) :
    let again := { call with
      error := .noErr
      isAuthRequireExcep := true
      isAuthRequireExcepMaxTry := call.isAuthRequireExcepMaxTry - 1 }
    SyncCall.Between attrs servers again ∧
      passesLeft servers.length again ≤ call.passesAfter servers.length := by
  have hagain := h.asksAgain herror hasks
  refine hcall.askAgain (fun hall => ?_) (fun hall => ?_)
  · rwa [if_pos (hcall.mode.mp hall)] at hagain
  · have hne : attrs.retryAttempts ≠ -1 := fun heq => by simp [hcall.mode.mpr heq] at hall
    rwa [if_neg hne] at hagain

/-- A call that holds a connection only exchanges messages, and sends its request at most once. -/
lemma goes_of_exchange (h : Within attrs servers ⟨slot, some (.holding call c, below)⟩ (k :: sends))
    (htame : Tame attrs servers ⟨⟨slot, some (.holding call c, below)⟩, k :: sends, steps⟩ met)
    (hcases : ∀ s env j t', TameExchange attrs servers s slot below call c env → j ≤ k + 1 →
      PoolState.AfterExchange attrs s ⟨slot, some (.holding call c, below)⟩ below call c env t' →
      Nearer attrs servers below.length (rank (attrs.maxPasses servers.length) servers.length
        ⟨slot, some (.holding call c, below)⟩) (j :: sends) t') :
    Goes attrs servers ⟨slot, some (.holding call c, below)⟩ (k :: sends) met := by
  obtain ⟨s, action⟩ := met
  by_cases hexchange : ∃ env, action = .exchange env
  · obtain ⟨env, rfl⟩ := hexchange
    refine goes_of_nearer ?_
    split
    · exact hcases s env (k + 1) _ htame (le_refl _) (finishSync_cases ..)
    · exact hcases s env k _ htame (Nat.le_succ k) (finishSync_cases ..)
  · refine goes_of_next_eq h ?_ ?_
    · cases action <;> first | rfl | exact absurd ⟨_, rfl⟩ hexchange
    · cases action <;> first | rfl | exact absurd ⟨_, rfl⟩ hexchange

/-- The outer call sends its request. -/
lemma goes_holding (hcall : InPass attrs servers call k)
    (htame : Tame attrs servers ⟨⟨slot, some (.holding call c, [])⟩, [k], steps⟩ met) :
    Goes attrs servers ⟨slot, some (.holding call c, [])⟩ [k] met := by
  have hcount := hcall.count
  refine goes_of_exchange (.during slot _ call k (.holding c) hcall) htame
    fun s env j t' htame hj hafter => ?_
  cases hafter with
  | returned => exact ⟨.ended _ j (by omega), rfl, Nat.succ_pos _⟩
  | asked _ hasks herror =>
    obtain ⟨hbetween, hle⟩ := htame.between hcall.during herror hasks
    refine ⟨.between _ _ j ⟨hbetween, by omega⟩, rfl, ?_⟩
    exact Nat.lt_succ_of_le (Nat.add_le_add_right (Nat.mul_le_mul_left _ hle) 1)
  | failed _ _ _ _ _ _ hend =>
    have hj' : j + call.passesAfter servers.length ≤ attrs.maxPasses servers.length := by omega
    have hnearer := passEnd_outer hend (htame.during hcall.during) hj'
    exact hnearer

/-- The inner call of a failover sends its request. -/
lemma goes_innerHolding (houter : InPass attrs servers call k)
    (hcall : InPass attrs servers call' k') (htx : call'.request.forTransaction = true)
    (htame : Tame attrs servers
      ⟨⟨slot, some (.holding call' c, [.failingOver call conn])⟩, [k', k], steps⟩ met) :
    Goes attrs servers ⟨slot, some (.holding call' c, [.failingOver call conn])⟩ [k', k] met := by
  have hcount := hcall.count
  refine goes_of_exchange (.innerHolding slot call call' conn c k k' houter hcall htx) htame
    fun s env j t' htame hj hafter => ?_
  cases hafter with
  | returned _ error =>
    refine ⟨.innerReturned _ call conn error k j houter (by omega), rfl, ?_⟩
    change _ + 4 + 1 < _ + 4 + (2 * call'.passesAfter servers.length + 3)
    omega
  | asked _ hasks herror hslot =>
    obtain ⟨hbetween, hle⟩ := htame.between hcall.during herror hasks
    refine ⟨.innerBetween _ call _ conn k j houter ⟨hbetween, by omega⟩ htx
      (.inl (hslot htx)), rfl, ?_⟩
    exact Nat.add_lt_add_left (Nat.lt_succ_of_le (Nat.add_le_add_right
      (Nat.mul_le_mul_left 2 hle) 2)) _
  | failed _ hexc herror _ hne _ hend =>
    have hj' : j + call'.passesAfter servers.length ≤ attrs.maxPasses servers.length := by omega
    obtain ⟨hne, hzero⟩ := htame.failover (by simp) hexc herror
    have hall : call'.retryAllEPsOnce = false := by
      rw [Bool.eq_false_iff]
      exact fun h => hne (hcall.during.mode.mp h)
    have hnearer := passEnd_inner houter hend (htame.during hcall.during) hj' htx ⟨hall, hzero⟩
    exact hnearer

variable (hR : -1 ≤ attrs.retryAttempts)

include hR

/-- The outer call queues for a connection. -/
lemma goes_queueing (hsticky : sticky = true → call.request.forTransaction = true)
    (hcall : InPass attrs servers call k) (htame : Tame attrs servers
      ⟨⟨slot, some (.queueing call sticky queueErr, [])⟩, [k], steps⟩ met) :
    Goes attrs servers ⟨slot, some (.queueing call sticky queueErr, [])⟩ [k] met := by
  obtain ⟨s, action⟩ := met
  by_cases hdial : ∃ dials txDirty, action = .dial dials txDirty
  · obtain ⟨dials, txDirty, rfl⟩ := hdial
    obtain ⟨hturns, hclosed⟩ := htame
    obtain ⟨hnodup, hsub, hlen⟩ := getNoGetLock_excludes attrs s
      hturns hcall.during.nodup hcall.during.excluded
    have hcall' := hcall.during.exclude hnodup hsub hlen
    have hnext : next attrs ⟨slot, some (.queueing call sticky queueErr, [])⟩
        (s, .dial dials txDirty) =
        (s.dial attrs ⟨slot, some (.queueing call sticky queueErr, [])⟩ call sticky queueErr dials
          txDirty []).2 := rfl
    unfold dial at hnext
    dsimp only at hclosed hnext
    generalize s.getNoGetLock attrs queueErr call.excludeServers dials = looked
      at hclosed hcall' hnext
    have hpass : InPass attrs servers { call with excludeServers := looked.excludeServers } k :=
      ⟨hcall', hcall.count⟩
    split at hnext
    · refine goes_of_nearer ?_
      rw [hnext]
      refine ⟨.during _ _ _ k (.waiting sticky _ hsticky) hpass, rfl, ?_⟩
      change _ * call.passesAfter servers.length + _ < _ * call.passesAfter servers.length + _
      cases sticky <;> simp
    · rename_i hfound
      refine afterQueue_goes hpass hR hsticky ?_ (hnext ▸ afterQueue_cases) rfl ?_
      · by_cases hc : s.closed = true
        · exact hclosed hc
        · exact fun _ _ _ hnone => hfound ⟨hnone, by simpa using hc⟩
      · change _ * call.passesAfter servers.length + _ ≤ _ * call.passesAfter servers.length + _
        cases sticky <;> simp
  · refine goes_of_next_eq (.during slot _ call k (.queueing sticky queueErr hsticky) hcall) ?_ rfl
    cases action <;> first | rfl | exact absurd ⟨_, _, rfl⟩ hdial

/-- The outer call waits for a connection. -/
lemma goes_waiting (hsticky : sticky = true → call.request.forTransaction = true)
    (hcall : InPass attrs servers call k) (htame : Tame attrs servers
      ⟨⟨slot, some (.waiting call sticky queueErr, [])⟩, [k], steps⟩ met) :
    Goes attrs servers ⟨slot, some (.waiting call sticky queueErr, [])⟩ [k] met := by
  have hwithin : Within attrs servers ⟨slot, some (.waiting call sticky queueErr, [])⟩ [k] :=
    .during slot _ call k (.waiting sticky queueErr hsticky) hcall
  obtain ⟨s, action⟩ := met
  by_cases hwake : ∃ timedOut txDirty, action = .wake timedOut txDirty
  · obtain ⟨timedOut, txDirty, rfl⟩ := hwake
    have hnext : next attrs ⟨slot, some (.waiting call sticky queueErr, [])⟩
        (s, .wake timedOut txDirty) =
        (s.wake attrs ⟨slot, some (.waiting call sticky queueErr, [])⟩ call sticky queueErr
          timedOut txDirty []).2 := rfl
    have hqueue : ∀ (conn : Option ConnId) (s' : PoolState),
        TameQueue sticky queueErr conn txDirty →
        next attrs ⟨slot, some (.waiting call sticky queueErr, [])⟩
          (s, .wake timedOut txDirty) = (s'.afterQueue attrs
            ⟨slot, some (.waiting call sticky queueErr, [])⟩ call sticky queueErr conn txDirty
            []).2 →
        Goes attrs servers ⟨slot, some (.waiting call sticky queueErr, [])⟩ [k]
          (s, .wake timedOut txDirty) := by
      intro _ _ htame' heq
      exact afterQueue_goes hcall hR hsticky htame' (heq ▸ afterQueue_cases) rfl (le_refl _)
    unfold wake at hnext
    split at hnext
    · rename_i htimedOut
      exact hqueue none s (htame (.inl htimedOut)) hnext
    · split at hnext
      · exact hqueue _ _ (fun _ _ _ => by simp) hnext
      · split at hnext
        · rename_i hclosed
          exact hqueue none _ (htame (.inr hclosed)) hnext
        · exact goes_of_next_eq hwithin hnext rfl
  · refine goes_of_next_eq hwithin ?_ rfl
    cases action <;> first | rfl | exact absurd ⟨_, _, rfl⟩ hwake

/-- A tame step keeps the thread within its call and brings it nearer to its return. -/
lemma advances_of_tame (hwithin : Within attrs servers x.thread x.sends)
    (htame : Tame attrs servers x met) : Advances attrs servers x (step attrs x met) := by
  obtain ⟨_, _, steps⟩ := x
  cases hwithin with
  | ended slot k hk => exact goes_of_next_eq (.ended slot k hk) rfl rfl steps
  | between _ _ _ hcall => exact goes_between hcall steps
  | during _ _ _ _ hframe hcall =>
    cases hframe with
    | queueing _ _ hsticky => exact goes_queueing hR hsticky hcall htame steps
    | waiting _ _ hsticky => exact goes_waiting hR hsticky hcall htame steps
    | holding => exact goes_holding hcall htame steps
  | innerBetween _ _ _ _ _ _ houter hcall htx hslot =>
    exact goes_innerBetween houter hcall htx hslot steps
  | innerHolding _ _ _ _ _ _ _ houter hcall htx =>
    exact goes_innerHolding houter hcall htx htame steps
  | innerReturned _ _ _ error _ _ houter hk' =>
    exact goes_innerReturned houter hk' error steps

end Steps

/-! ### The bounds -/

/-- What holds along a call of tame steps. -/
structure Kept (attrs : PoolAttributes) (servers : List ServerId) (x : CountedCall) : Prop where
  within : Within attrs servers x.thread x.sends
  steps : x.steps + rank (attrs.maxPasses servers.length) servers.length x.thread ≤
    maxSteps (attrs.maxPasses servers.length)

/-- The passes that are meant are within the bound for the requests. -/
lemma maxPasses_le (attrs : PoolAttributes) (hR : -1 ≤ attrs.retryAttempts) (n : ℕ) :
    (attrs.maxPasses n : ℤ) ≤
      (if attrs.retryAttempts = -1 then (n : ℤ) + 1 else attrs.retryAttempts + 1) + 3 := by
  unfold PoolAttributes.maxPasses
  split <;> omega

section

variable (hR : -1 ≤ attrs.retryAttempts)

include hR

/-- A call that begins has sent nothing. -/
lemma kept_begun (slot : StickySlot) :
    Kept attrs servers (begun attrs slot request attemptFailover) where
  within := .between slot _ 0 ⟨between_start hR, by
    rw [passesLeft_start, Nat.zero_add]⟩
  steps := by
    change 0 + ((2 * attrs.maxPasses servers.length + 9) *
      (start attrs request attemptFailover).passesLeft servers.length + 1) ≤ _
    rw [passesLeft_start, Nat.zero_add]
    exact le_refl _

/-- Each point of a call. -/
lemma Kept.step (h : Kept attrs servers x) (htame : Tame attrs servers x met) :
    Kept attrs servers (x.step attrs met) := by
  obtain ⟨hwithin, hprogress⟩ := advances_of_tame hR h.within htame
  refine ⟨hwithin, ?_⟩
  have hsteps := h.steps
  have heq : (x.step attrs met).steps =
      if (x.step attrs met).thread = x.thread then x.steps else x.steps + 1 := rfl
  obtain hsame | hless := hprogress
  · rw [heq, if_pos hsame, hsame]
    exact hsteps
  · rw [heq]
    split <;> omega

/-- The rank bounds the steps, and the passes bound the requests. -/
lemma Kept.bounded (h : Kept attrs servers x) : Bounded attrs servers.length x := by
  have hmax := maxPasses_le attrs hR servers.length
  have hsteps := h.steps
  obtain ⟨_, _⟩ := x
  have hwithin := h.within
  refine ⟨fun k hk => Int.le_trans (Int.ofNat_le.mpr ?_) hmax, ?_, by dsimp only at hsteps ⊢; omega⟩
  · cases hwithin with
    | ended => simp_all
    | between _ _ _ hcall | during _ _ _ _ _ hcall =>
      have := hcall.count
      simp only [List.mem_singleton] at hk
      omega
    | innerBetween slot call call' conn j j' houter hcall htx hslot
    | innerHolding _ _ _ _ _ _ _ houter hcall =>
      have := hcall.count
      have := houter.count
      simp only [List.mem_cons, List.not_mem_nil, or_false] at hk
      omega
    | innerReturned _ _ _ _ _ _ houter =>
      have := houter.count
      simp only [List.mem_cons, List.not_mem_nil, or_false] at hk
      omega
  · cases hwithin <;> simp [depth]

end

/-- A call of `sendSyncRequest` whose steps are tame sends its request no more often than the
number of retries, or of servers, allows, and so do the calls inside of it; it is nested at most
once, and returns after a bounded number of steps. -/
theorem bounded_of_tame (attrs : PoolAttributes) (hR : -1 ≤ attrs.retryAttempts)
    (servers : List ServerId) (slot : StickySlot) (request : PoolRequest) (attemptFailover : Bool)
    (run : List (PoolState × PoolAction))
    (htame : EveryStep (step attrs) (Tame attrs servers)
      (begun attrs slot request attemptFailover) run) :
    EveryState (step attrs) (Bounded attrs servers.length)
      (begun attrs slot request attemptFailover) run := by
  have hkept : EveryState (step attrs) (Kept attrs servers)
      (begun attrs slot request attemptFailover) run :=
    everyState_of_everyStep (fun _ _ h hc => h.step hR hc) (kept_begun hR slot) htame
  exact hkept.mono fun _ h => h.bounded hR

/-- What a thread meets that uses the pool alone. -/
def alone (attrs : PoolAttributes) : PoolState → PoolThread → List PoolAction →
    List (PoolState × PoolAction)
  | _, _, [] => []
  | s, t, action :: actions =>
    (s, action) :: alone attrs (s.act attrs t action).1 (s.act attrs t action).2 actions

/-- The attributes of a pool that differ in the number of retries. -/
def attributesWith (retryAttempts : ℤ) : PoolAttributes := ⟨1, -1, retryAttempts, false⟩

/-- A request that is made in an empty pool. -/
def firstRequest (retryAttempts : ℤ) : CountedCall :=
  begun (attributesWith retryAttempts) ⟨none, false⟩ ⟨.other, -1, false⟩ true

/-- The passes of that request, one for each exchange; a connection is made to the server that is
given with it, unless the queue has one. -/
def passesWith (retryAttempts : ℤ) (exchanges : List (ServerId × Exchange)) :
    List (PoolState × PoolAction) :=
  alone (attributesWith retryAttempts) ⟨.empty, [], false, 0⟩ (firstRequest retryAttempts).thread
    (exchanges.flatMap fun (server, env) =>
      [.look .anywhere, .dial ⟨[⟨server, .made⟩], .noServer⟩ false, .exchange env])

/-- A message is sent, and ends as given. -/
def sending (ending : Sent) : ℕ → SendAttempt := fun _ => ⟨true, .made, true, ending⟩

/-- A request that is answered. -/
def answered (credentials : Option Credentials) (reply : ReplyBody) : Exchange :=
  ⟨credentials, -1, sending ⟨some (-1), .replied⟩, reply⟩

/-- A request whose connection is lost. -/
def lost : Exchange := ⟨none, -1, sending ⟨none, .ioException .other⟩, .normal⟩

/-- The server answers that the user has to authenticate. -/
def asked (credentials : Option Credentials) : Exchange :=
  answered credentials (.exception false true ⟨.authenticationRequiredException, by decide⟩)

/-- The server asks once and then again, whenever the credentials were sent and accepted. -/
def askedAgain (times : ℕ) : List (ServerId × Exchange) :=
  (0, asked none) ::
    List.replicate times (0, asked (some ⟨-1, sending ⟨some (-1), .replied⟩, .response⟩))

/-- The first server is lost, and the second one answers. -/
lemma tame_retried :
    EveryStep (step (attributesWith 1)) (Tame (attributesWith 1) [0, 1]) (firstRequest 1)
      (passesWith 1 [(0, lost), (1, answered none .normal)]) :=
  ⟨trivial, ⟨by simp, fun _ hsticky => by cases hsticky⟩, ⟨by decide, by decide, by simp⟩, trivial,
    ⟨by simp, fun _ hsticky => by cases hsticky⟩, ⟨by decide, by decide, by simp⟩, trivial⟩

/-- A request is sent twice, as its one retry allows. -/
theorem bounded_of_tame_retried :
    EveryStep (step (attributesWith 1)) (Tame (attributesWith 1) [0, 1]) (firstRequest 1)
        (passesWith 1 [(0, lost), (1, answered none .normal)]) ∧
      EveryState (step (attributesWith 1)) (Bounded (attributesWith 1) 2) (firstRequest 1)
        (passesWith 1 [(0, lost), (1, answered none .normal)]) ∧
      (runFrom (step (attributesWith 1)) (firstRequest 1)
        (passesWith 1 [(0, lost), (1, answered none .normal)])).sends = [2] :=
  ⟨tame_retried, bounded_of_tame (attributesWith 1) (by decide) [0, 1] ⟨none, false⟩
    ⟨.other, -1, false⟩ true _ tame_retried, by decide⟩

/-- A server that asks for authentication again and again is sent the request again and again:
with no retries the counter has become negative, which counts as true, and when every server is to
be tried once, the `break` is never reached. -/
theorem not_bounded_askedAgain :
    ¬ EveryState (step (attributesWith 0)) (Bounded (attributesWith 0) 1) (firstRequest 0)
        (passesWith 0 (askedAgain 4)) ∧
      ¬ EveryState (step (attributesWith (-1))) (Bounded (attributesWith (-1)) 1)
        (firstRequest (-1)) (passesWith (-1) (askedAgain 5)) := by
  constructor
  · intro h
    exact absurd (h.last.sends 5 (by decide)) (by decide)
  · intro h
    exact absurd (h.last.sends 6 (by decide)) (by decide)

end CountedCall

end GeodeNative
