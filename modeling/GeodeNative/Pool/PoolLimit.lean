import GeodeNative.Library.Counting
import GeodeNative.Library.Runs
import GeodeNative.Pool.PoolState

/-!
# The limit on the number of connections

`createPoolConnection` and `createPoolConnectionToAEndPoint` compare `m_poolSize` with the limit
before they connect to a server, and count the connection after it is made. Several threads can
pass the test before one of them counts. A thread is cut here between the two, which the atomic
calls of `PoolState` hide; what `sendSyncRequest` and the thread that manages connections do
besides does not raise `m_poolSize`.

The limit holds in runs in which a thread passes the test only if the connections that others are
about to make leave room for one more.
-/

namespace GeodeNative

/-- Where a thread is: outside of the two functions, or past the test of one of them. The server
is the one of the connection that `cleanStaleConnections` wants to replace. -/
inductive ConnectPoint
  | idle
  | connecting (currentserver : Option ServerId)
  | connectingTo
  deriving DecidableEq, Repr

/-- A step of a thread: it calls one of the functions, the selection of a server fails, connecting
to a server has ended, or connections were closed. -/
inductive SizeAction
  | createPoolConnection (currentserver : Option ServerId)
  | createPoolConnectionToAEndPoint
  | selectionFails
  | connect (server : ServerId) (creation : Creation)
  | reducePoolSize (num : ℕ)
  deriving DecidableEq, Repr

/-- The thread calls a function that makes a connection. -/
def SizeAction.Creates : SizeAction → Prop
  | .createPoolConnection _ | .createPoolConnectionToAEndPoint => True
  | _ => False

/-- `m_poolSize` and the threads. -/
structure SizedPool (n : ℕ) where
  poolSize : ℤ
  threads : Fin n → ConnectPoint

namespace SizedPool

variable {n : ℕ} (attrs : PoolAttributes)

def initial (n : ℕ) : SizedPool n := ⟨0, fun _ => .idle⟩

def goTo (p : SizedPool n) (i : Fin n) (point : ConnectPoint) : SizedPool n :=
  { p with threads := Function.update p.threads i point }

/-- The test of the limit. -/
def test (p : SizedPool n) (i : Fin n) (point : ConnectPoint) : SizedPool n :=
  if p.poolSize ≥ attrs.limit then p else p.goTo i point

/-- A connection is counted, and the function returns. -/
def count (p : SizedPool n) (i : Fin n) : SizedPool n :=
  { p with poolSize := p.poolSize + 1 }.goTo i .idle

/-- An action that does not fit where the thread is does nothing. -/
def step (p : SizedPool n) (what : Fin n × SizeAction) : SizedPool n :=
  match p.threads what.1, what.2 with
  | .idle, .createPoolConnection currentserver => p.test attrs what.1 (.connecting currentserver)
  | .idle, .createPoolConnectionToAEndPoint => p.test attrs what.1 .connectingTo
  | .idle, .reducePoolSize num => { p with poolSize := p.poolSize - num }
  | .connecting _, .selectionFails => p.goTo what.1 .idle
  | .connecting currentserver, .connect server creation =>
    if currentserver = some server then p.goTo what.1 .idle
    else
      match creation with
      | .made => p.count what.1
      -- another server is selected, unless the error is fatal
      | .failed _ why => if isFatalClientError why.error then p.goTo what.1 .idle else p
  | .connectingTo, .connect _ .made => p.count what.1
  | .connectingTo, .connect _ (.failed _ _) => p.goTo what.1 .idle
  | _, _ => p

/-- `m_poolSize` does not exceed the larger one of the two attributes. -/
def WithinLimit (p : SizedPool n) : Prop :=
  attrs.maxConnections ≠ -1 → p.poolSize ≤ max attrs.maxConnections attrs.minConnections

/-- The number of threads that are past the test. -/
def connecting (p : SizedPool n) : ℕ :=
  ∑ i, if p.threads i = .idle then 0 else 1

/-- A thread passes the test only if there is room for its connection besides those that others
are about to make. -/
def Reserves (p : SizedPool n) (what : Fin n × SizeAction) : Prop :=
  match what.2 with
  | .createPoolConnection _ | .createPoolConnectionToAEndPoint =>
    p.poolSize < attrs.limit → p.poolSize + p.connecting < attrs.limit
  | _ => True

variable {attrs} {p : SizedPool n} {i : Fin n}

/-- A thread comes to another point. -/
lemma connecting_goTo (p : SizedPool n) (i : Fin n) (point : ConnectPoint) :
    (p.goTo i point).connecting + (if p.threads i = .idle then 0 else 1) =
      p.connecting + if point = .idle then 0 else 1 :=
  sum_update_add (fun t : ConnectPoint => if t = .idle then 0 else 1) p.threads i point

/-- At most all threads are past the test. -/
lemma connecting_le (p : SizedPool n) : p.connecting ≤ n := by
  refine (Finset.sum_le_card_nsmul _ _ 1 fun _ _ => ?_).trans (by simp)
  split <;> decide

/-- The connections and those that are about to be made keep to a bound. -/
def Room (bound : ℤ) (p : SizedPool n) : Prop :=
  p.poolSize + p.connecting ≤ bound

variable {bound : ℤ}

/-- A function returns, and its connection counts or not. -/
lemma Room.returns (h : p.Room bound) (hbusy : p.threads i ≠ .idle) :
    (p.goTo i .idle).Room bound ∧ (p.count i).Room bound := by
  have hcount := connecting_goTo p i .idle
  rw [if_neg hbusy, if_pos rfl] at hcount
  have hsame : (p.count i).connecting = (p.goTo i .idle).connecting := rfl
  have hsize : (p.count i).poolSize = p.poolSize + 1 := rfl
  have hsize' : (p.goTo i .idle).poolSize = p.poolSize := rfl
  unfold Room at h ⊢
  omega

/-- Only the test can bring a pool over a bound. -/
lemma Room.step (h : p.Room bound) {what : Fin n × SizeAction}
    (htest : p.threads what.1 = .idle → what.2.Creates →
      ∀ point, (p.test attrs what.1 point).Room bound) :
    (p.step attrs what).Room bound := by
  obtain ⟨i, action⟩ := what
  unfold SizedPool.step
  dsimp only
  split
  · exact htest ‹_› trivial _
  · exact htest ‹_› trivial _
  · have hle : p.poolSize + p.connecting ≤ bound := h
    show p.poolSize - _ + p.connecting ≤ bound
    omega
  · exact (h.returns (by simp [*])).1
  · split
    · exact (h.returns (by simp [*])).1
    · split
      · exact (h.returns (by simp [*])).2
      · split
        · exact (h.returns (by simp [*])).1
        · exact h
  · exact (h.returns (by simp [*])).2
  · exact (h.returns (by simp [*])).1
  · exact h

/-- A thread that finds room for its connection passes the test. -/
lemma Room.test (h : p.Room attrs.limit) (hidle : p.threads i = .idle) (point : ConnectPoint)
    (hreserves : p.poolSize < attrs.limit → p.poolSize + p.connecting < attrs.limit) :
    (p.test attrs i point).Room attrs.limit := by
  unfold SizedPool.test
  split
  · exact h
  · rename_i hroom
    have hcount := connecting_goTo p i point
    rw [if_pos hidle] at hcount
    unfold Room
    have hsize : (p.goTo i point).poolSize = p.poolSize := rfl
    split at hcount <;> omega

/-! ## The calls of the pool -/

open PoolState TcrEndpoint

variable {s : PoolState} {currentserver : Option ConnId} {server : Option ServerId}

/-- The connection that is to be replaced leads to the same server when another one is made. -/
lemma label_createNewConnection {h : ConnHeap}
    (hcurrent : currentserver.map h.label = server.map some) (dial : ServerId)
    (creation : Creation) : currentserver.map (createNewConnection dial h creation).2.2.label =
      server.map some := by
  cases currentserver with
  | none => exact hcurrent
  | some conn =>
    cases server with
    | none => cases hcurrent
    | some old =>
      have hlabel : h.label conn = some old := Option.some.inj hcurrent
      refine congrArg some ?_
      cases creation with
      | made => exact h.label_alloc hlabel dial
      | failed constructed =>
        cases constructed with
        | false => exact hlabel
        | true => exact h.label_alloc hlabel dial

/-- The loop of `createPoolConnection`, made by one thread without interruption, is a run of its
actions. -/
lemma exists_connectLoop (attrs : PoolAttributes) (failure : SelectionFailure) (turns : List Dial)
    (error : PoolErrType) (excludeServers : List ServerId)
    (hpoint : p.threads i = .connecting server)
    (hcurrent : currentserver.map s.heap.label = server.map some)
    (hsize : s.poolSize = p.poolSize) :
    ∃ actions : List SizeAction, runFrom (step attrs) p (actions.map (i, ·)) =
      { p.goTo i .idle with poolSize :=
          (connectLoop currentserver failure turns error excludeServers s).state.poolSize } := by
  induction turns generalizing error excludeServers s with
  | nil => exact ⟨[.selectionFails], by simp [runFrom, step, hpoint, connectLoop, hsize, goTo]⟩
  | cons dial turns ih =>
    rw [connectLoop]
    cases hfound : currentserver.filter fun conn => s.heap.label conn = some dial.server with
    | some conn =>
      obtain ⟨rfl, hlabel⟩ := Option.filter_eq_some_iff.mp hfound
      have hserver : server = some dial.server := by
        cases server with
        | none => cases hcurrent
        | some old =>
          have hold : s.heap.label conn = some old := Option.some.inj hcurrent
          rw [← hold]
          exact of_decide_eq_true hlabel
      exact ⟨[.connect dial.server dial.creation],
        by simp [runFrom, step, hpoint, hserver, hsize, goTo]⟩
    | none =>
      have hserver : server ≠ some dial.server := by
        rintro rfl
        cases currentserver with
        | none => cases hcurrent
        | some conn =>
          have hlabel : s.heap.label conn = some dial.server := Option.some.inj hcurrent
          simp [Option.filter, hlabel] at hfound
      have hnext := label_createNewConnection hcurrent dial.server dial.creation
      cases hcreation : dial.creation with
      | made =>
        exact ⟨[.connect dial.server .made],
          by simp [runFrom, step, hpoint, hserver, createNewConnection, count, hsize, goTo]⟩
      | failed constructed why =>
        rw [hcreation] at hnext
        have hfailed : createNewConnection dial.server s.heap (.failed constructed why) =
            (why.error, none, (createNewConnection dial.server s.heap
              (.failed constructed why)).2.2) := by cases constructed <;> rfl
        rw [hfailed]
        have hnot := why.error_ne_noErr
        by_cases hfatal : isFatalClientError why.error = true
        · refine ⟨[.connect dial.server (.failed constructed why)], ?_⟩
          simp [runFrom, step, hpoint, hserver, hfatal, hsize, goTo]
        · obtain ⟨actions, hrun⟩ := ih why.error (excludeServers.insert dial.server)
            (s := { s with heap := _ }) hnext hsize
          refine ⟨.connect dial.server (.failed constructed why) :: actions, ?_⟩
          simpa [runFrom, step, hpoint, hserver, hfatal, hnot] using hrun

/-- A call of `createPoolConnection` that no other thread interrupts is a run of the actions of its
thread, and changes `m_poolSize` as they do. -/
theorem exists_createPoolConnection (attrs : PoolAttributes) (excludeServers : List ServerId)
    (dials : Dials) (hidle : p.threads i = .idle)
    (hcurrent : currentserver.map s.heap.label = server.map some)
    (hsize : s.poolSize = p.poolSize) :
    ∃ actions : List SizeAction, runFrom (step attrs) p (actions.map (i, ·)) =
      { p with poolSize :=
          (s.createPoolConnection attrs excludeServers currentserver dials).state.poolSize } := by
  unfold PoolState.createPoolConnection
  split_ifs with hlimit
  · exact ⟨[], by rw [hsize]; rfl⟩
  · obtain ⟨actions, hrun⟩ := exists_connectLoop (p := p.goTo i (.connecting server)) (i := i)
      attrs dials.failure dials.turns .noErr excludeServers (by simp [goTo]) hcurrent hsize
    refine ⟨.createPoolConnection server :: actions, ?_⟩
    have hback : Function.update p.threads i .idle = p.threads := by
      rw [← hidle, Function.update_eq_self]
    have hpass : step attrs p (i, .createPoolConnection server) =
        p.goTo i (.connecting server) := by
      simp [step, hidle, test, ← hsize, hlimit]
    rw [List.map_cons, runFrom, List.foldl_cons, hpass]
    exact hrun.trans (by simp [goTo, hback])

/-- `m_poolSize` keeps to the limit in every run in which the test leaves room for the connections
that are about to be made. -/
theorem withinLimit_of_reserves (attrs : PoolAttributes) (hlimit : 0 ≤ attrs.limit) (n : ℕ)
    (run : List (Fin n × SizeAction))
    (hreserves : EveryStep (step attrs) (Reserves attrs) (initial n) run) :
    EveryState (step attrs) (WithinLimit attrs) (initial n) run := by
  have hinitial : (initial n).Room attrs.limit := by
    simpa [Room, initial, connecting] using hlimit
  have hstep : ∀ (p : SizedPool n) (what : Fin n × SizeAction), p.Room attrs.limit →
      Reserves attrs p what → (p.step attrs what).Room attrs.limit := by
    rintro p ⟨i, action⟩ h hres
    refine h.step fun hidle hcreates point => ?_
    cases action with
    | createPoolConnection | createPoolConnectionToAEndPoint => exact h.test hidle point hres
    | _ => cases hcreates
  have hroom : EveryState (step attrs) (Room attrs.limit) (initial n) run :=
    everyState_of_everyStep hstep hinitial hreserves
  refine hroom.mono fun p h hmax => ?_
  unfold Room PoolAttributes.limit at h
  omega

/-- Two threads make a connection each, one after the other. -/
theorem withinLimit_of_reserves_in_turn :
    EveryState (step ⟨1, 2, 0, false⟩) (WithinLimit ⟨1, 2, 0, false⟩) (initial 2)
      [(0, .createPoolConnection none), (0, .connect 0 .made), (1, .createPoolConnection none),
        (1, .connect 0 .made)] := by
  refine withinLimit_of_reserves ⟨1, 2, 0, false⟩ (by decide) 2 _
    ⟨?_, trivial, ?_, trivial, trivial⟩
  · exact fun _ => by decide
  · exact fun _ => by decide

/-- Two threads pass the test of a pool for one connection before either of them has counted its
own. -/
theorem not_withinLimit_overlapping :
    ¬ EveryState (step ⟨1, 1, 0, false⟩) (WithinLimit ⟨1, 1, 0, false⟩) (initial 2)
      [(0, .createPoolConnection none), (1, .createPoolConnection none), (0, .connect 0 .made),
        (1, .connect 0 .made)] := by
  intro h
  exact absurd (h.last (by decide)) (by decide)

/-- However their calls interleave, `n` threads exceed the limit by less than `n` connections. -/
theorem poolSize_lt_limit_add (attrs : PoolAttributes) (n : ℕ) (run : List (Fin n × SizeAction)) :
    EveryState (step attrs) (fun p => p.poolSize < max attrs.limit 1 + n) (initial n) run := by
  have hstep : ∀ (p : SizedPool n) (what : Fin n × SizeAction),
      p.Room (max attrs.limit 1 + n - 1) →
        (p.step attrs what).Room (max attrs.limit 1 + n - 1) := by
    intro p what h
    refine h.step fun _ _ point => ?_
    unfold test
    split_ifs with hroom
    · exact h
    · -- the size is below the limit, and at most all threads are past the test
      have hle := (p.goTo what.1 point).connecting_le
      have hsize : (p.goTo what.1 point).poolSize = p.poolSize := rfl
      unfold Room
      omega
  have hinitial : (initial n).Room (max attrs.limit 1 + n - 1) := by
    simp only [Room, initial, connecting, if_true, Finset.sum_const_zero]
    omega
  refine (everyState_of_step hstep hinitial).mono fun p h => ?_
  unfold Room at h
  omega

end SizedPool

end GeodeNative
