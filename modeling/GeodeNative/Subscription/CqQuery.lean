import GeodeNative.Library.Runs

/-!
# The life of a continuous query

A `CqQueryImpl` is stopped, running, closing or closed. The functions that execute it hold its
mutex from the test of the state to the change, over the request to the server, and are one step
here. `stop` and `close` test the state and set it under different locks, with a request in
between, and other threads' steps come in. `setCqState` too tests before it takes the lock.

`execute` and `executeWithInitialResults` ask only whether the query is running. A query that was
closed is therefore executed again, and is then running without being in the map of the service.
-/

namespace GeodeNative

/-- `CqState`, without the value that is never taken. -/
inductive CqState
  | stopped
  | running
  | closing
  | closed
  deriving DecidableEq, Repr

/-- Where a thread is in `stop` or `close`: outside of them; before `setCqState`, and in it after
the test; before `isRunning` and before the request of `stop`; before `removeFromCqMap`. -/
inductive CqPoint
  | idle
  | atSet (state : CqState)
  | tested (state : CqState)
  | stopping
  | sending
  | unlisting
  deriving DecidableEq, Repr

/-- What happens to a query. Requests succeed or not. A thread calls `stop` or `close`, or goes on
with its call; the view of the user that the query belongs to may be closed at any time. -/
inductive CqStep
  | execute (success : Bool)
  | executeWithInitialResults (success : Bool)
  | executeEndpoint
  | executeAfterFailover
  | stop (thread : ℕ)
  | close (thread : ℕ)
  | goOn (thread : ℕ) (success : Bool)
  | closeView
  deriving DecidableEq, Repr

/-- A query: its state, whether the service's map has it and whether its view is closed, and the
threads. The last two fields say whether it was ever closed, and whether a request to execute it
was sent after that. -/
structure CqQueryImpl where
  cqState : CqState
  inCqMap : Bool
  viewClosed : Bool
  threads : ℕ → CqPoint
  wasClosed : Bool
  executedClosed : Bool

namespace CqQueryImpl

def initial : CqQueryImpl := ⟨.stopped, true, false, fun _ => .idle, false, false⟩

variable (q : CqQueryImpl)

def isClosed : Bool := q.cqState = .closed || q.viewClosed

/-- A request to execute the query is sent. -/
def request : CqQueryImpl := { q with executedClosed := q.executedClosed || q.wasClosed }

/-- `execute` and `executeWithInitialResults`. -/
def executeCq (success : Bool) : CqQueryImpl :=
  if q.cqState = .running then q
  else if success then { q.request with cqState := .running } else q.request

/-- `execute` on an endpoint and `executeAfterFailover`; how the request ends makes no difference to
the state. -/
def executeAgain : CqQueryImpl := if q.cqState = .running then q.request else q

def set (i : ℕ) (point : CqPoint) : CqQueryImpl :=
  { q with threads := Function.update q.threads i point }

/-- A thread goes on with its call. -/
def goOn (i : ℕ) (success : Bool) : CqQueryImpl :=
  match q.threads i with
  | .idle => q
  | .atSet state => q.set i (if q.isClosed then .idle else .tested state)
  | .tested .closing => { q with cqState := .closing }.set i (.atSet .closed)
  | .tested .closed => { q with cqState := .closed, wasClosed := true }.set i .unlisting
  | .tested state => { q with cqState := state }.set i .idle
  | .stopping => q.set i (if q.cqState = .running then .sending else .idle)
  | .sending => q.set i (if success then .atSet .stopped else .idle)
  | .unlisting => { q with inCqMap := false }.set i .idle

def step : CqStep → CqQueryImpl
  | .execute success | .executeWithInitialResults success => q.executeCq success
  | .executeEndpoint | .executeAfterFailover => q.executeAgain
  | .stop i => if q.threads i = .idle ∧ !q.isClosed then q.set i .stopping else q
  | .close i => if q.threads i = .idle ∧ !q.isClosed then q.set i (.atSet .closing) else q
  | .goOn i success => q.goOn i success
  | .closeView => { q with viewClosed := true }

/-- A query that was closed is not stopped or running, and was not executed since; one that is
running is in the map whenever no call is in progress. -/
def StaysClosed : Prop :=
  (q.wasClosed = true → q.cqState ≠ .stopped ∧ q.cqState ≠ .running ∧ q.executedClosed = false) ∧
    (q.cqState = .running → (∀ i, q.threads i = .idle) → q.inCqMap = true)

/-- A closed query is not executed, and a query is not closed between the test and the change of
another call of `setCqState`. -/
def Allowed : CqStep → Prop
  | .execute _ | .executeWithInitialResults _ => q.cqState ≠ .closed
  | .goOn i _ => ∀ state, q.threads i = .tested state → q.cqState = .closed → state = .closed
  | _ => True

/-- A query that is about to leave the map is closed, in the sense given, and no call sets the
state to running. -/
def SoundPoint (closed : Prop) : CqPoint → Prop
  | .unlisting => closed
  | .atSet state | .tested state => state ≠ .running
  | .idle | .stopping | .sending => True

/-- What holds along every run. -/
structure Traced : Prop where
  unlisted : q.inCqMap = false → q.wasClosed = true
  executed : q.wasClosed = true → q.cqState = .running → q.executedClosed = true
  points : ∀ i, SoundPoint (q.wasClosed = true) (q.threads i)

/-- What holds along a run of allowed steps. -/
structure Kept : Prop extends q.Traced where
  closed : q.wasClosed = true → q.cqState = .closed
  notExecuted : q.executedClosed = false

variable {q}

lemma SoundPoint.mono {closed closed' : Prop} (h : closed → closed') {point : CqPoint}
    (hpoint : SoundPoint closed point) : SoundPoint closed' point := by
  cases point with
  | unlisting => exact h hpoint
  | _ => exact hpoint

lemma forall_soundPoint_set {closed : Prop} {i : ℕ} {point : CqPoint}
    (h : ∀ j, SoundPoint closed (q.threads j)) (hpoint : SoundPoint closed point) (j : ℕ) :
    SoundPoint closed ((q.set i point).threads j) := by
  unfold set
  dsimp only
  rw [Function.update_apply]
  split_ifs
  · exact hpoint
  · exact h j

section

variable (h : q.Traced)

include h

lemma Traced.setState {state : CqState} (hstate : state ≠ .running) :
    Traced { q with cqState := state } :=
  { h with executed := fun _ hrunning => absurd hrunning hstate }

/-- A request to execute a query that was closed is noticed, whichever state it leaves. -/
lemma Traced.request (state : CqState) : Traced { q.request with cqState := state } :=
  { h with executed := fun hclosed _ => Bool.or_eq_true_iff.mpr (.inr hclosed) }

lemma Traced.set (i : ℕ) {point : CqPoint} (hpoint : SoundPoint (q.wasClosed = true) point) :
    (q.set i point).Traced :=
  ⟨h.unlisted, h.executed, forall_soundPoint_set h.points hpoint⟩

/-- One step of a thread inside of a call. -/
lemma Traced.goOn (i : ℕ) (success : Bool) : (q.goOn i success).Traced := by
  have hpoint := h.points i
  unfold CqQueryImpl.goOn
  cases hi : q.threads i with
  | idle => exact h
  | atSet state =>
    rw [hi] at hpoint
    dsimp only
    split_ifs
    · exact h.set i trivial
    · exact h.set i hpoint
  | tested state =>
    rw [hi] at hpoint
    cases state with
    | closing => exact (h.setState hpoint).set i (by simp [SoundPoint])
    | closed =>
      have hclosed : Traced { q with cqState := .closed, wasClosed := true } :=
        ⟨fun _ => rfl, fun _ hrunning => absurd hrunning hpoint,
          fun j => (h.points j).mono fun _ => rfl⟩
      exact hclosed.set i rfl
    | stopped => exact (h.setState hpoint).set i trivial
    | running => exact absurd rfl hpoint
  | stopping =>
    dsimp only
    split_ifs <;> exact h.set i trivial
  | sending =>
    dsimp only
    split_ifs
    · exact h.set i (by simp [SoundPoint])
    · exact h.set i trivial
  | unlisting =>
    rw [hi] at hpoint
    have hremoved : Traced { q with inCqMap := false } := { h with unlisted := fun _ => hpoint }
    exact hremoved.set i trivial

/-- Each step keeps what the threads have seen. -/
lemma Traced.step (what : CqStep) : (q.step what).Traced := by
  cases what with
  | execute success | executeWithInitialResults success =>
    simp only [CqQueryImpl.step, CqQueryImpl.executeCq]
    split_ifs
    · exact h
    · exact h.request .running
    · exact h.request q.cqState
  | executeEndpoint | executeAfterFailover =>
    simp only [CqQueryImpl.step, CqQueryImpl.executeAgain]
    split_ifs
    · exact h.request q.cqState
    · exact h
  | stop i =>
    simp only [CqQueryImpl.step]
    split_ifs
    · exact h.set i trivial
    · exact h
  | close i =>
    simp only [CqQueryImpl.step]
    split_ifs
    · exact h.set i (by simp [SoundPoint])
    · exact h
  | goOn i success => exact h.goOn i success
  | closeView => exact { h with }

end

lemma traced_initial : initial.Traced := by
  constructor <;> simp [initial, SoundPoint]

section

variable (h : q.Kept) {success : Bool}

include h

lemma Kept.staysClosed : q.StaysClosed := by
  refine ⟨fun hclosed => ?_, fun hrunning _ => ?_⟩
  · rw [h.closed hclosed]
    exact ⟨by decide, by decide, h.notExecuted⟩
  · by_contra hmap
    rw [h.closed (h.unlisted (by simpa using hmap))] at hrunning
    cases hrunning

/-- A request of a query that is not closed. -/
lemma Kept.request (hc : q.cqState ≠ .closed) (state : CqState) :
    Kept { q.request with cqState := state } := by
  have hopen : q.wasClosed = false := by
    by_contra hclosed
    exact hc (h.closed (by simpa using hclosed))
  refine ⟨h.toTraced.request state, fun hclosed => ?_, ?_⟩
  · cases hopen.symm.trans hclosed
  · simp [CqQueryImpl.request, h.notExecuted, hopen]

/-- A query that is not closed may be executed. -/
lemma Kept.executeCq (hc : q.cqState ≠ .closed) : (q.executeCq success).Kept := by
  unfold CqQueryImpl.executeCq
  split_ifs
  · exact h
  · exact h.request hc .running
  · exact h.request hc q.cqState

lemma Kept.executeAgain : q.executeAgain.Kept := by
  unfold CqQueryImpl.executeAgain
  split_ifs with hrunning
  · exact h.request (by simp [hrunning]) q.cqState
  · exact h

/-- Only `setCqState` changes the state, and it keeps a closed query closed. -/
lemma Kept.goOn {i : ℕ} (hc : q.Allowed (.goOn i success)) : (q.goOn i success).Kept := by
  refine ⟨h.toTraced.goOn i success, ?_, ?_⟩
  · unfold CqQueryImpl.goOn
    cases hi : q.threads i with
    | tested state =>
      have hopen : q.wasClosed = true → state = .closed := fun hclosed =>
        hc state hi (h.closed hclosed)
      cases state with
      | closed => exact fun _ => rfl
      | _ => exact fun hclosed => (by cases hopen hclosed)
    | _ => exact h.closed
  · unfold CqQueryImpl.goOn
    cases q.threads i with
    | tested state => cases state <;> exact h.notExecuted
    | _ => exact h.notExecuted

/-- Each allowed step. -/
lemma Kept.step {what : CqStep} (hallowed : q.Allowed what) : (q.step what).Kept := by
  cases what with
  | execute | executeWithInitialResults => exact h.executeCq hallowed
  | executeEndpoint | executeAfterFailover => exact h.executeAgain
  | stop | close =>
    refine ⟨h.toTraced.step _, ?_, ?_⟩ <;> simp only [CqQueryImpl.step] <;> split_ifs
    · exact h.closed
    · exact h.closed
    · exact h.notExecuted
    · exact h.notExecuted
  | goOn => exact h.goOn hallowed
  | closeView => exact { h with }

end

lemma kept_initial : initial.Kept :=
  { traced_initial with closed := by simp [initial], notExecuted := rfl }

/-- In every run whose steps are allowed, by any number of threads, a closed query stays closed. -/
theorem staysClosed_of_allowed (run : List CqStep) (hallowed : EveryStep step Allowed initial run) :
    EveryState step StaysClosed initial run :=
  (everyState_of_everyStep (fun _ _ h hc => h.step hc) kept_initial hallowed).mono
    fun _ h => h.staysClosed

/-- A thread closes the query to the end. -/
def closeWhole : List CqStep :=
  [.close 0, .goOn 0 true, .goOn 0 true, .goOn 0 true, .goOn 0 true, .goOn 0 true]

theorem staysClosed_of_allowed_closeWhole :
    EveryState step StaysClosed initial (.execute true :: closeWhole) := by
  refine staysClosed_of_allowed _ ⟨CqState.noConfusion, trivial, ?_, ?_, ?_, ?_, ?_, trivial⟩ <;>
    rintro state hstate hclosed <;> cases hstate <;> cases hclosed

/-- A query that was closed is executed again: it is running, and not in the map. And one that is
closed while `stop` is about to set its state is stopped afterwards. -/
theorem not_staysClosed_execute :
    ¬ EveryState step StaysClosed initial (closeWhole ++ [.execute true]) ∧
      ¬ EveryState step StaysClosed initial ([.execute true, .stop 1, .goOn 1 true, .goOn 1 true,
        .goOn 1 true] ++ closeWhole ++ [.goOn 1 true]) := by
  constructor
  · intro h
    exact absurd (h.last.1 rfl).2.1 (by decide)
  · intro h
    exact absurd (h.last.1 rfl).1 (by decide)

/-- A query that left the map was closed, and runs only if it was executed after that. -/
theorem executedClosed_of_unlisted (run : List CqStep) : EveryState step (fun q =>
    q.inCqMap = false → q.wasClosed = true ∧ (q.cqState = .running → q.executedClosed = true))
      initial run := by
  refine (everyState_of_step (fun q what h => h.step what) traced_initial).mono fun q h hmap => ?_
  have hclosed := h.unlisted hmap
  exact ⟨hclosed, h.executed hclosed⟩

end CqQueryImpl

end GeodeNative
