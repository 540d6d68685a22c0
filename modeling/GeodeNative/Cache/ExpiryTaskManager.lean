import Mathlib.Algebra.Group.Nat.Defs
import Mathlib.Data.List.AList
import GeodeNative.Library.Runs

/-!
# The tasks of the expiry manager

`ExpiryTaskManager` keeps its tasks in `task_map_`, and every task has a timer of its own.  The
calls of the manager hold its mutex, and so each is one step; `on_callback` runs in the manager's
thread and takes the locks one after the other: it reads `cancelled_` without one, calls
`on_expire`, and depending on the result arms the timer again or removes the task.  Other threads
may call the manager in between.

A task that gives up its timer without saying so stays in the map for ever, and a timer that is
armed while `on_expire` runs is forgotten when the task is removed.  `orderly_of_allowed` proves
that in runs without such steps the map holds the tasks whose timers are armed.
-/

namespace GeodeNative

/-- `ExpiryTask`.  `armed` says that a wait of its timer is pending, `ready` counts the waits that
have become ready: their handlers are run without an error.  When a wait becomes ready is left
open. -/
structure ExpiryTask where
  id : ℕ
  interval : ℕ
  cancelled : Bool
  armed : Bool
  ready : ℕ
  deriving DecidableEq, Repr

namespace ExpiryTask

/-- `ExpiryTask::invalid`. -/
def invalid : ℕ := 2 ^ 64 - 1

/-- A task that has not been scheduled. -/
def create : ExpiryTask := ⟨invalid, 0, false, false, 0⟩

def periodic (t : ExpiryTask) : Bool := t.interval ≠ 0

/-- A wait that is pending is given up for the new one. -/
def reset (t : ExpiryTask) : ExpiryTask :=
  if t.cancelled then t else { t with armed := true }

def cancel (t : ExpiryTask) : ExpiryTask :=
  { t with cancelled := true, armed := false }

end ExpiryTask

/-- Where the manager's thread is in `on_callback`. -/
inductive CallbackPoint
  | checked
  | expiring
  | rearming
  | removing
  deriving DecidableEq, Repr

/-- `ExpiryTaskManager`, with all tasks there are and the callback in progress.  `returned` is not
in the source: it holds the ids for which `cancel` has returned. -/
structure ExpiryTaskManager where
  running : Bool
  lastTaskId : ℕ
  taskMap : AList fun _ : ℕ => ℕ
  tasks : ℕ → ExpiryTask
  callback : Option (ℕ × CallbackPoint)
  returned : List ℕ

/-- A call of the manager, by any thread; a wait becomes ready; or a step of the manager's thread,
which runs the handler of a wait. -/
inductive ExpiryStep
  | schedule (task interval : ℕ)
  | reset (taskId : ℕ)
  | cancel (taskId : ℕ)
  | stop
  | fire (task : ℕ)
  | onCallback (task : ℕ)
  | onExpire
  | resetSelf
  | returns (result : Bool)
  | finish
  deriving DecidableEq, Repr

/-- The tasks of the library. -/
inductive ExpiryKind
  | entry
  | region
  | tombstone
  | suspendedTx
  deriving DecidableEq, Repr

/-- What `on_expire` of a task of the library does to its timer, and what it returns.  The flag says
that the entry or region was used since the task was scheduled. -/
def ExpiryKind.onExpire (used : Bool) : ExpiryKind → List ExpiryStep
  | .entry | .region => if used then [.resetSelf, .returns false] else [.returns true]
  | .tombstone => [.returns true]
  | .suspendedTx => [.returns false]

namespace ExpiryTaskManager

/-- A manager that has been started. -/
def started : ExpiryTaskManager := ⟨true, 0, ∅, fun _ => .create, none, []⟩

variable (m : ExpiryTaskManager)

/-- A task changes. -/
def update (task : ℕ) (f : ExpiryTask → ExpiryTask) : ExpiryTaskManager :=
  { m with tasks := Function.update m.tasks task (f (m.tasks task)) }

/-- The id of the next task. -/
def nextId : ℕ := if m.lastTaskId = ExpiryTask.invalid then 0 else m.lastTaskId

/-- An id that is in use resets its own task. -/
def schedule (task interval : ℕ) : ExpiryTaskManager :=
  if m.running = false then m
  else
    let m' := { m with
      lastTaskId := if m.lastTaskId = ExpiryTask.invalid then 0 else m.lastTaskId + 1
      returned := m.returned.filter (· ≠ m.nextId) }.update task fun t =>
        { t with id := m.nextId, interval := interval }
    match m.taskMap.lookup m.nextId with
    | some other => m'.update other .reset
    | none => { m' with taskMap := m.taskMap.insert m.nextId task }.update task .reset

/-- An id that is not in the map is none of the manager's. -/
def reset (taskId : ℕ) : ExpiryTaskManager :=
  match m.taskMap.lookup taskId with
  | none => m
  | some task => m.update task .reset

/-- The task is cancelled and forgotten. -/
def cancel (taskId : ℕ) : ExpiryTaskManager :=
  let m' := { m with returned := taskId :: m.returned, taskMap := m.taskMap.erase taskId }
  match m.taskMap.lookup taskId with
  | none => m'
  | some task => m'.update task .cancel

/-- All tasks are cancelled and forgotten. -/
def cancelAll : ExpiryTaskManager :=
  { m with
    tasks := fun task =>
      if m.taskMap.entries.any (·.2 = task) then (m.tasks task).cancel else m.tasks task
    taskMap := ∅ }

/-- A manager that does not run throws. -/
def stop : ExpiryTaskManager :=
  if m.running = false then m else { m.cancelAll with running := false }

/-- The manager after a step; a step that cannot be taken changes nothing. -/
def step : ExpiryStep → ExpiryTaskManager
  | .schedule task interval => m.schedule task interval
  | .reset taskId => m.reset taskId
  | .cancel taskId => m.cancel taskId
  | .stop => m.stop
  | .fire task =>
    if (m.tasks task).armed then
      m.update task fun t => { t with armed := false, ready := t.ready + 1 }
    else m
  | .onCallback task =>
    if m.callback = none ∧ 0 < (m.tasks task).ready then
      { m.update task fun t => { t with ready := t.ready - 1 } with
        callback := if (m.tasks task).cancelled then none else some (task, .checked) }
    else m
  | .onExpire =>
    match m.callback with
    | some (task, .checked) => { m with callback := some (task, .expiring) }
    | _ => m
  | .resetSelf =>
    match m.callback with
    | some (task, .expiring) => m.update task .reset
    | _ => m
  | .returns result =>
    match m.callback with
    | some (task, .expiring) => { m with
        callback :=
          if result = false then none
          else if (m.tasks task).periodic then some (task, .rearming)
          else some (task, .removing) }
    | _ => m
  | .finish =>
    match m.callback with
    | some (task, .rearming) => { m.update task .reset with callback := none }
    | some (task, .removing) =>
      { m with taskMap := m.taskMap.erase (m.tasks task).id, callback := none }
    | _ => m

/-- No callback is in progress or due. -/
def Quiet : Prop := m.callback = none ∧ ∀ task, (m.tasks task).ready = 0

/-- The task is in the map. -/
def Listed (task : ℕ) : Prop := ∃ taskId, m.taskMap.lookup taskId = some task

/-- When nothing is in progress the map holds the tasks whose timers are armed, and after `stop`
there is none. -/
structure Orderly : Prop where
  listed : m.Quiet → ∀ task, m.Listed task ↔ (m.tasks task).armed = true
  stopped : m.running = false → ∀ task, (m.tasks task).armed = false

/-- No `on_expire` is started after the task was cancelled. -/
def NotAfterCancel (what : ExpiryStep) : Prop :=
  what = .onExpire → ∀ task, m.callback = some (task, .checked) →
    (m.tasks task).id ∉ m.returned

/-- A task is scheduled that is not in the map and was not cancelled, under an id that is not in
use; a task is not cancelled between the test of `cancelled_` and the call of `on_expire`;
`on_expire` returns false only when it has armed the timer; and a task is removed when nobody has
armed its timer in the meantime and no other task was given its id. -/
def Allowed : ExpiryStep → Prop
  | .schedule task _ => m.running = true →
      (m.tasks task).cancelled = false ∧ ¬ m.Listed task ∧ m.taskMap.lookup m.nextId = none
  | .cancel taskId => ∀ task, m.callback = some (task, .checked) → (m.tasks task).id ≠ taskId
  | .returns false => ∀ task, m.callback = some (task, .expiring) →
      (m.tasks task).cancelled = true ∨ (m.tasks task).armed = true ∨ 0 < (m.tasks task).ready
  | .finish => ∀ task, m.callback = some (task, .removing) →
      (m.tasks task).armed = false ∧
        ((m.tasks task).cancelled = true ∨ (m.tasks task).ready = 0) ∧
        ∀ other, m.taskMap.lookup (m.tasks task).id = some other → other = task
  | _ => True

/-! ## A task -/

end ExpiryTaskManager

/-- What holds of a task, given whether it is in the map and whether its callback is in progress:
in the map it is not cancelled and something will happen to it, its timer is armed only there, and
what is due outside is due to a cancelled task. -/
structure ExpiryTask.Sound (listed busy : Prop) (t : ExpiryTask) : Prop where
  live : listed → t.cancelled = false
  due : listed → t.armed = true ∨ 0 < t.ready ∨ busy
  armed : t.armed = true → listed
  pending : 0 < t.ready ∨ busy → listed ∨ t.cancelled = true

namespace ExpiryTask.Sound

variable {listed busy : Prop} {t : ExpiryTask}

/-- A task that is in the map, or was cancelled, is reset. -/
lemma reset (h : t.Sound listed busy) (ht : listed ∨ t.cancelled = true) :
    t.reset.Sound listed busy := by
  unfold ExpiryTask.reset
  split_ifs with hcancelled
  · exact h
  · exact ⟨h.live, fun _ => .inl rfl, fun _ => ht.resolve_right hcancelled, h.pending⟩

/-- The wait becomes ready. -/
lemma fire (h : t.Sound listed busy) (harmed : t.armed = true) :
    { t with armed := false, ready := t.ready + 1 }.Sound listed busy where
  live := h.live
  due := fun _ => .inr (.inl t.ready.succ_pos)
  armed := fun hfalse => absurd hfalse (by simp)
  pending := fun _ => .inl (h.armed harmed)

/-- The handler of a wait is run. -/
lemma start (h : t.Sound listed busy) (hready : 0 < t.ready) {busy' : Prop} (hbusy : busy') :
    { t with ready := t.ready - 1 }.Sound listed busy' where
  live := h.live
  due := fun _ => .inr (.inr hbusy)
  armed := h.armed
  pending := fun _ => h.pending (.inl hready)

/-- The handler of a wait is run for a task that was cancelled. -/
lemma skip (h : t.Sound listed busy) (hcancelled : t.cancelled = true) :
    { t with ready := t.ready - 1 }.Sound listed busy where
  live := h.live
  due := fun hlisted => absurd hcancelled (by simp [h.live hlisted])
  armed := h.armed
  pending := fun _ => .inr hcancelled

/-- The callback ends when another one will follow, unless the task was cancelled. -/
lemma leave (h : t.Sound listed busy)
    (ht : t.cancelled = true ∨ t.armed = true ∨ 0 < t.ready) {busy' : Prop} (hbusy : ¬ busy') :
    t.Sound listed busy' where
  live := h.live
  due := fun hlisted => by
    rcases ht with hcancelled | hdue
    · exact absurd hcancelled (by simp [h.live hlisted])
    · exact hdue.imp_right .inl
  armed := h.armed
  pending := fun hdue => h.pending (.inl (hdue.resolve_right hbusy))

/-- The task is removed when nobody has armed its timer. -/
lemma remove {busy' : Prop} (hbusy : ¬ busy') (harmed : t.armed = false)
    (ht : t.cancelled = true ∨ t.ready = 0) : t.Sound False busy' where
  live := False.elim
  due := False.elim
  armed := fun htrue => absurd htrue (by simp [harmed])
  pending := fun hdue => .inr (ht.resolve_right (Nat.pos_iff_ne_zero.mp (hdue.resolve_right hbusy)))

/-- The task is cancelled. -/
lemma cancel (busy : Prop) (t : ExpiryTask) : t.cancel.Sound False busy where
  live := False.elim
  due := False.elim
  armed := fun htrue => absurd htrue (by simp [ExpiryTask.cancel])
  pending := fun _ => .inr rfl

/-- A task that is not in the map and was not cancelled has nothing to come. -/
lemma idle (h : t.Sound listed busy) (hlisted : ¬ listed) (hcancelled : t.cancelled = false) :
    ¬ busy := by
  intro hbusy
  rcases h.pending (.inr hbusy) with hmap | htrue
  · exact hlisted hmap
  · simp [hcancelled] at htrue

end ExpiryTask.Sound

/-! ## The invariant -/

namespace ExpiryTaskManager

/-- The callback of the task is in progress. -/
def Busy (m : ExpiryTaskManager) (task : ℕ) : Prop := ∃ point, m.callback = some (task, point)

/-- What holds along a run of allowed steps. -/
structure Kept (m : ExpiryTaskManager) : Prop where
  ids : ∀ taskId task, m.taskMap.lookup taskId = some task → (m.tasks task).id = taskId
  sound : ∀ task, (m.tasks task).Sound (m.Listed task) (m.Busy task)
  told : ∀ taskId ∈ m.returned, m.taskMap.lookup taskId = none ∧
    ∀ task, m.callback = some (task, .checked) → (m.tasks task).id ≠ taskId
  stopped : m.running = false → ∀ taskId, m.taskMap.lookup taskId = none

variable {m : ExpiryTaskManager} {task taskId : ℕ} {f : ExpiryTask → ExpiryTask}
  {callback : Option (ℕ × CallbackPoint)}

/-- Between the callbacks the invariant says which timers are armed. -/
lemma Kept.orderly (h : m.Kept) : m.Orderly where
  listed := by
    rintro ⟨hcallback, hready⟩ task
    refine ⟨fun hlisted => ?_, (h.sound task).armed⟩
    rcases (h.sound task).due hlisted with harmed | hdue | ⟨point, hpoint⟩
    · exact harmed
    · simp [hready] at hdue
    · simp [hcallback] at hpoint
  stopped := by
    intro hstopped task
    by_contra harmed
    obtain ⟨taskId, hlookup⟩ := (h.sound task).armed (by simpa using harmed)
    simp [h.stopped hstopped taskId] at hlookup

/-- Nothing is scheduled. -/
lemma kept_started : started.Kept where
  ids := by simp [started]
  sound := fun task => by constructor <;> simp [started, ExpiryTask.create, Busy, Listed]
  told := by simp [started]
  stopped := by simp [started]

@[simp] lemma tasks_update (m : ExpiryTaskManager) (task : ℕ) (f : ExpiryTask → ExpiryTask)
    (other : ℕ) :
    (m.update task f).tasks other = if other = task then f (m.tasks task) else m.tasks other := by
  simp [update, Function.update_apply]

/-- The id of a task is not changed with it. -/
lemma id_update (hid : (f (m.tasks task)).id = (m.tasks task).id) (other : ℕ) :
    ((m.update task f).tasks other).id = (m.tasks other).id := by
  rw [tasks_update]
  split_ifs with hother
  · rw [hid, hother]
  · rfl

/-- A task changes with its callback, and the map stays. -/
lemma Kept.touch (h : m.Kept) (hid : (f (m.tasks task)).id = (m.tasks task).id)
    (hcallback : ∀ other ≠ task, ∀ point,
      callback = some (other, point) ↔ m.callback = some (other, point))
    (hsound : (f (m.tasks task)).Sound (m.Listed task) (∃ point, callback = some (task, point)))
    (hchecked : callback = some (task, .checked) → (m.tasks task).id ∉ m.returned) :
    { m.update task f with callback }.Kept where
  ids := fun taskId other hlookup => (id_update hid other).trans (h.ids taskId other hlookup)
  sound := fun other => by
    change ((m.update task f).tasks other).Sound (m.Listed other)
      (∃ point, callback = some (other, point))
    rw [tasks_update]
    split_ifs with hother
    · rw [hother]
      exact hsound
    · rw [exists_congr (hcallback other hother)]
      exact h.sound other
  told := fun taskId hmem => by
    refine ⟨(h.told taskId hmem).1, fun other hother => ?_⟩
    rw [id_update hid]
    by_cases htask : other = task
    · subst htask
      exact fun heq => hchecked hother (heq ▸ hmem)
    · exact (h.told taskId hmem).2 other ((hcallback other htask _).mp hother)
  stopped := h.stopped

/-- A task that is in the map, or was cancelled, is reset. -/
lemma Kept.rearm (h : m.Kept) (htask : m.Listed task ∨ (m.tasks task).cancelled = true) :
    (m.update task .reset).Kept :=
  h.touch (by unfold ExpiryTask.reset; split_ifs <;> rfl) (fun _ _ _ => Iff.rfl)
    ((h.sound task).reset htask) fun hchecked hmem => (h.told _ hmem).2 task hchecked rfl

/-- The callback of a task goes on or ends; the task stays as it is. -/
lemma Kept.turn {point : CallbackPoint} (h : m.Kept) (hcallback : m.callback = some (task, point))
    (hnext : ∀ other, callback ≠ some (other, .checked))
    (hother : ∀ other ≠ task, ∀ point, callback ≠ some (other, point))
    (hsound : (m.tasks task).Sound (m.Listed task) (∃ point, callback = some (task, point))) :
    { m with callback }.Kept := by
  have hsame : m.update task id = m := by simp [update]
  have hkept := h.touch (f := id) rfl (fun other hne point => ?_) hsound
    (fun hchecked => absurd hchecked (hnext task))
  · rwa [hsame] at hkept
  · rw [hcallback]
    exact iff_of_false (hother other hne point) (by simp [hne.symm])

/-- The callback of a task comes to another point. -/
lemma Kept.goTo {point point' : CallbackPoint} (h : m.Kept)
    (hcallback : m.callback = some (task, point)) (hpoint : point' ≠ .checked) :
    { m with callback := some (task, point') }.Kept := by
  refine h.turn hcallback (by simp [hpoint]) (fun other hne _ => by simp [hne.symm]) ?_
  have hbusy : m.Busy task ↔ ∃ point, some (task, point') = some (task, point) :=
    iff_of_true ⟨point, hcallback⟩ ⟨point', rfl⟩
  rw [← propext hbusy]
  exact h.sound task

/-- The callback of a task ends when another one will follow, unless the task was cancelled. -/
lemma Kept.endCallback {point : CallbackPoint} (h : m.Kept)
    (hcallback : m.callback = some (task, point))
    (htask : (m.tasks task).cancelled = true ∨ (m.tasks task).armed = true ∨
      0 < (m.tasks task).ready) : { m with callback := none }.Kept :=
  h.turn hcallback (by simp) (by simp) ((h.sound task).leave htask (by simp))

/-- A task is in the map under its own id. -/
lemma Kept.listed_iff (h : m.Kept) :
    m.Listed task ↔ m.taskMap.lookup (m.tasks task).id = some task := by
  refine ⟨?_, fun hlookup => ⟨_, hlookup⟩⟩
  rintro ⟨taskId, hlookup⟩
  rwa [h.ids taskId task hlookup]

lemma lookup_insert (tasks : AList fun _ : ℕ => ℕ) (taskId task other : ℕ) :
    (tasks.insert taskId task).lookup other = if other = taskId then some task else
      tasks.lookup other := by
  split_ifs with heq
  · subst heq
    exact AList.lookup_insert _
  · exact AList.lookup_insert_ne heq

lemma lookup_erase (tasks : AList fun _ : ℕ => ℕ) (taskId other : ℕ) :
    (tasks.erase taskId).lookup other = if other = taskId then none else tasks.lookup other := by
  split_ifs with heq
  · subst heq
    exact AList.lookup_erase _ _
  · exact AList.lookup_erase_ne heq

/-- A task is taken out of the map, which has no other task under its id. -/
lemma Kept.drop {returned : List ℕ} (h : m.Kept)
    (hid : (f (m.tasks task)).id = (m.tasks task).id)
    (howner : ∀ other, m.taskMap.lookup (m.tasks task).id = some other → other = task)
    (hcallback : ∀ other ≠ task, ∀ point,
      callback = some (other, point) ↔ m.callback = some (other, point))
    (hsound : (f (m.tasks task)).Sound False (∃ point, callback = some (task, point)))
    (htold : ∀ taskId ∈ returned, taskId ∈ m.returned ∨ taskId = (m.tasks task).id)
    (hchecked : ∀ other, callback = some (other, .checked) → (m.tasks other).id ∉ returned) :
    { m.update task f with
      taskMap := m.taskMap.erase (m.tasks task).id, callback, returned }.Kept where
  ids := fun taskId other hlookup => by
    rw [lookup_erase] at hlookup
    split_ifs at hlookup
    exact (id_update hid other).trans (h.ids taskId other hlookup)
  sound := fun other => by
    change ((m.update task f).tasks other).Sound
      (∃ taskId, (m.taskMap.erase (m.tasks task).id).lookup taskId = some other)
      (∃ point, callback = some (other, point))
    simp only [tasks_update, lookup_erase]
    split_ifs with hother
    · subst hother
      convert hsound using 1
      refine iff_false_intro ?_
      rintro ⟨taskId, hlookup⟩
      split_ifs at hlookup with hne
      exact hne (h.ids taskId other hlookup).symm
    · have hlisted : (∃ taskId, (if taskId = (m.tasks task).id then none
          else m.taskMap.lookup taskId) = some other) ↔ m.Listed other := by
        refine exists_congr fun taskId => ?_
        split_ifs with heq
        · exact iff_of_false (by simp) fun hlookup => hother (howner other (heq ▸ hlookup))
        · exact Iff.rfl
      rw [exists_congr (hcallback other hother), hlisted]
      exact h.sound other
  told := fun taskId hmem => by
    refine ⟨?_, fun other hother => ?_⟩
    · rw [lookup_erase]
      split_ifs with heq
      · rfl
      · exact (h.told taskId ((htold taskId hmem).resolve_right heq)).1
    · rw [id_update hid]
      exact fun heq => hchecked other hother (heq ▸ hmem)
  stopped := fun hstopped taskId => by
    rw [lookup_erase, h.stopped hstopped taskId, ite_self]

/-! ## The steps -/

/-- A new task is put into the map under a new id. -/
lemma Kept.schedule {interval : ℕ} (h : m.Kept)
    (hallowed : m.Allowed (.schedule task interval)) : (m.schedule task interval).Kept := by
  unfold ExpiryTaskManager.schedule
  by_cases hrunning : m.running = false
  · rw [if_pos hrunning]
    exact h
  rw [if_neg hrunning]
  obtain ⟨hcancelled, hlisted, hfree⟩ := hallowed (by simpa using hrunning)
  have hidle := (h.sound task).idle hlisted hcancelled
  simp only [hfree, update, Function.update_self, Function.update_idem, ExpiryTask.reset,
    hcancelled, Bool.false_eq_true, if_false]
  refine ⟨fun taskId other hlookup => ?_, fun other => ?_, fun taskId hmem => ⟨?_, ?_⟩,
    fun hstopped => absurd hstopped hrunning⟩
  · rw [lookup_insert] at hlookup
    split_ifs at hlookup with heq
    · cases hlookup
      simp [heq]
    · have hother : other ≠ task := by
        rintro rfl
        exact hlisted ⟨taskId, hlookup⟩
      simpa [hother] using h.ids taskId other hlookup
  · by_cases hother : other = task
    · subst hother
      have hnow : ∃ taskId, (m.taskMap.insert m.nextId other).lookup taskId = some other :=
        ⟨m.nextId, AList.lookup_insert _⟩
      constructor <;> simp [Listed, hnow]
    · have hsame : (∃ taskId, (m.taskMap.insert m.nextId task).lookup taskId = some other) ↔
          m.Listed other := by
        refine exists_congr fun taskId => ?_
        rw [lookup_insert]
        split_ifs with heq
        · exact iff_of_false (fun htask => hother (Option.some.inj htask).symm)
            fun hlookup => by cases hfree.symm.trans (heq ▸ hlookup)
        · exact Iff.rfl
      simpa [Busy, Listed, hother, hsame] using h.sound other
  · obtain ⟨hmem, hne⟩ := List.mem_filter.mp hmem
    rw [lookup_insert, if_neg (by simpa using hne)]
    exact (h.told taskId hmem).1
  · intro other hother
    have hne : other ≠ task := by
      rintro rfl
      exact hidle ⟨_, hother⟩
    simpa [hne] using (h.told taskId (List.mem_filter.mp hmem).1).2 other hother

/-- A task is cancelled when it is not about to expire. -/
lemma Kept.cancel (h : m.Kept) (hallowed : m.Allowed (.cancel taskId)) :
    (m.cancel taskId).Kept := by
  have hchecked : ∀ other, m.callback = some (other, .checked) →
      (m.tasks other).id ∉ taskId :: m.returned := by
    intro other hother hmem
    rcases List.mem_cons.mp hmem with heq | hmem
    · exact hallowed other hother heq
    · exact (h.told _ hmem).2 other hother rfl
  unfold ExpiryTaskManager.cancel
  cases hlookup : m.taskMap.lookup taskId with
  | none =>
    have hsame : m.taskMap.erase taskId = m.taskMap := by
      refine AList.ext (List.kerase_of_notMem_keys ?_)
      exact fun hmem => AList.lookup_eq_none.mp hlookup hmem
    dsimp only
    rw [hsame]
    refine ⟨h.ids, h.sound, fun taskId' hmem => ⟨?_, fun other hother heq => ?_⟩, h.stopped⟩
    · rcases List.mem_cons.mp hmem with rfl | hmem
      · exact hlookup
      · exact (h.told _ hmem).1
    · exact hchecked other hother (heq ▸ hmem)
  | some task =>
    obtain rfl := h.ids taskId task hlookup
    refine h.drop rfl (fun other hother => ?_) (fun _ _ _ => Iff.rfl)
      (.cancel _ _) (fun _ hmem => (List.mem_cons.mp hmem).symm) hchecked
    exact Option.some.inj (hother.symm.trans hlookup)

/-- All tasks are cancelled. -/
lemma Kept.stop (h : m.Kept) : m.stop.Kept := by
  unfold ExpiryTaskManager.stop cancelAll
  split_ifs
  · exact h
  refine ⟨by simp, fun task => ?_, fun taskId hmem => ⟨by simp, fun other hother => ?_⟩, by simp⟩
  · change ExpiryTask.Sound (∃ taskId, (∅ : AList fun _ : ℕ => ℕ).lookup taskId = some task)
      (m.Busy task) (if _ then _ else _)
    simp only [AList.lookup_empty, reduceCtorEq, exists_false]
    split_ifs with hany
    · exact .cancel (m.Busy task) (m.tasks task)
    · have hlisted : ¬ m.Listed task := by
        rintro ⟨taskId, hlookup⟩
        exact hany (List.any_eq_true.mpr
          ⟨⟨taskId, task⟩, AList.mem_lookup_iff.mp hlookup, decide_eq_true rfl⟩)
      exact eq_false hlisted ▸ h.sound task
  · have hne := (h.told taskId hmem).2 other hother
    dsimp only
    split_ifs <;> exact hne

/-- The handler of a wait is run. -/
lemma Kept.onCallback (h : m.Kept) : (m.step (.onCallback task)).Kept := by
  simp only [ExpiryTaskManager.step]
  split_ifs with hrun hcancelled
  · refine h.touch rfl (by simp [hrun.1]) ?_ (by simp)
    have hbusy : (∃ point, (none : Option (ℕ × CallbackPoint)) = some (task, point)) ↔
        m.Busy task := by simp [Busy, hrun.1]
    rw [propext hbusy]
    exact (h.sound task).skip hcancelled
  · refine h.touch rfl (fun other hne _ => by simp [hrun.1, hne.symm])
      ((h.sound task).start hrun.2 ⟨_, rfl⟩) fun _ hmem => ?_
    -- a task that is due and was not cancelled is in the map, and no cancelled id is
    have hlisted := ((h.sound task).pending (.inl hrun.2)).resolve_right hcancelled
    have hnone := (h.told _ hmem).1
    rw [h.listed_iff.mp hlisted] at hnone
    cases hnone
  · exact h

/-- The callback arms the timer again, or removes the task. -/
lemma Kept.finish (h : m.Kept) (hallowed : m.Allowed .finish) : (m.step .finish).Kept := by
  simp only [ExpiryTaskManager.step]
  split
  · rename_i task hcallback
    have hpending := (h.sound task).pending (.inr ⟨_, hcallback⟩)
    refine (h.rearm hpending).endCallback hcallback ?_
    rw [tasks_update, if_pos rfl, ExpiryTask.reset]
    split_ifs with hcancelled
    · exact .inl hcancelled
    · exact .inr (.inl rfl)
  · rename_i task hcallback
    obtain ⟨harmed, hnothing, howner⟩ := hallowed task hcallback
    have hsame : m.update task id = m := by simp [update]
    have hkept : { m.update task id with
        taskMap := m.taskMap.erase (m.tasks task).id, callback := none }.Kept :=
      h.drop rfl howner (fun other hne point => by simp [hcallback, hne.symm])
        (.remove (by simp) harmed hnothing) (fun _ hmem => .inl hmem) (by simp)
    rwa [hsame] at hkept
  · exact h

lemma Kept.step {what : ExpiryStep} (h : m.Kept) (hallowed : m.Allowed what) :
    (m.step what).Kept := by
  cases what with
  | schedule task interval => exact h.schedule hallowed
  | reset taskId =>
    simp only [ExpiryTaskManager.step, ExpiryTaskManager.reset]
    split
    · exact h
    · rename_i task hlookup
      exact h.rearm (.inl ⟨taskId, hlookup⟩)
  | cancel taskId => exact h.cancel hallowed
  | stop => exact h.stop
  | fire task =>
    simp only [ExpiryTaskManager.step]
    split_ifs with harmed
    · refine Kept.touch (f := fun t => { t with armed := false, ready := t.ready + 1 }) h rfl
        (fun _ _ _ => Iff.rfl) ((h.sound task).fire harmed) fun hchecked hmem => ?_
      exact (h.told _ hmem).2 task hchecked rfl
    · exact h
  | onCallback task => exact h.onCallback
  | onExpire =>
    simp only [ExpiryTaskManager.step]
    split
    · rename_i task hcallback
      exact h.goTo hcallback (by decide)
    · exact h
  | resetSelf =>
    simp only [ExpiryTaskManager.step]
    split
    · rename_i task hcallback
      exact h.rearm ((h.sound task).pending (.inr ⟨_, hcallback⟩))
    · exact h
  | returns result =>
    simp only [ExpiryTaskManager.step]
    split
    · rename_i task hcallback
      cases result with
      | false => exact h.endCallback hcallback (hallowed task hcallback)
      | true =>
        simp only [Bool.true_eq_false, if_false]
        split <;> exact h.goTo hcallback (by decide)
    · exact h
  | finish => exact h.finish hallowed

/-- What `on_expire` does is allowed, for the tasks of entries, regions and tombstones. -/
lemma allowed_onExpire {kind : ExpiryKind} (used : Bool)
    (hcallback : m.callback = some (task, .expiring)) (hkind : kind ≠ .suspendedTx) :
    EveryStep step Allowed m (kind.onExpire used) := by
  have hagain : EveryStep step Allowed m [.resetSelf, .returns false] := by
    refine ⟨trivial, fun other hother => ?_, trivial⟩
    simp only [step, hcallback] at hother ⊢
    obtain rfl : task = other := by simpa [update, hcallback] using hother
    rw [tasks_update, if_pos rfl, ExpiryTask.reset]
    split_ifs with hcancelled
    · exact .inl hcancelled
    · exact .inr (.inl rfl)
  have hdone : EveryStep step Allowed m [.returns true] := ⟨trivial, trivial⟩
  cases kind with
  | entry | region =>
    unfold ExpiryKind.onExpire
    split_ifs
    · exact hagain
    · exact hdone
  | tombstone => exact hdone
  | suspendedTx => exact absurd rfl hkind

/-- The manager keeps its books in every run of allowed steps: the map holds the tasks whose
timers are armed whenever nothing is in progress, no timer is armed after `stop`, and no
`on_expire` is started once `cancel` has returned. -/
theorem orderly_of_allowed (run : List ExpiryStep)
    (hallowed : EveryStep step Allowed started run) :
    EveryState step Orderly started run ∧ EveryStep step NotAfterCancel started run := by
  have hstep : ∀ m what, Kept m → Allowed m what → Kept (m.step what) := fun _ _ h => h.step
  constructor
  · exact (everyState_of_everyStep hstep kept_started hallowed).mono fun _ h => h.orderly
  · refine everyStep_of_invariant hstep (fun m what h _ _ task hchecked hmem => ?_) kept_started
      hallowed
    exact (h.told _ hmem).2 task hchecked rfl

/-- A task is scheduled, expires and is asked whether it is done. -/
def expiring : List ExpiryStep := [.schedule 0 0, .fire 0, .onCallback 0, .onExpire]

/-- An entry that was used gets more time and is then removed, and a periodic task goes on until it
is cancelled. -/
def twoTasks : List ExpiryStep :=
  expiring ++ ExpiryKind.entry.onExpire true ++ [.fire 0, .onCallback 0, .onExpire] ++
    ExpiryKind.entry.onExpire false ++
    [.finish, .schedule 1 5, .fire 1, .onCallback 1, .onExpire, .returns true, .finish, .cancel 1,
      .stop]

/-- Two tasks that end as they should. -/
theorem orderly_of_allowed_twoTasks :
    EveryStep step Allowed started twoTasks ∧ EveryState step Orderly started twoTasks := by
  have hallowed : EveryStep step Allowed started twoTasks := by
    refine ⟨fun _ => ⟨rfl, fun hlisted => ?_, rfl⟩, trivial, trivial, trivial, trivial, ?_, trivial,
      trivial, trivial, trivial, ?_, fun _ => ⟨rfl, fun hlisted => ?_, rfl⟩, trivial, trivial,
      trivial, trivial, ?_, ?_, trivial, trivial⟩
    · obtain ⟨_, hlookup⟩ := hlisted
      cases hlookup
    · rintro task htask
      cases htask
      exact .inr (.inl rfl)
    · rintro task htask
      cases htask
      exact ⟨rfl, .inr rfl, fun other hother => (Option.some.inj hother).symm⟩
    · obtain ⟨_, hlookup⟩ := hlisted
      cases hlookup
    · rintro task htask
      cases htask
    · rintro task htask
      cases htask
  exact ⟨hallowed, (orderly_of_allowed _ hallowed).1⟩

/-- The task of a suspended transaction returns false and stays in the map without a timer; a
timer that is armed while `on_expire` runs outlives the task and even `stop`; and a task that is
cancelled after the test of `cancelled_` still expires. -/
theorem not_orderly_suspendedTx :
    ¬ EveryState step Orderly started (expiring ++ ExpiryKind.suspendedTx.onExpire true) ∧
      ¬ EveryState step Orderly started
        (expiring ++ [.reset 0] ++ ExpiryKind.entry.onExpire false ++ [.finish, .stop]) ∧
      ¬ EveryStep step NotAfterCancel started
        [.schedule 0 0, .fire 0, .onCallback 0, .cancel 0, .onExpire] := by
  refine ⟨fun h => ?_, fun h => ?_, fun h => ?_⟩
  · have hquiet : Quiet (runFrom step started
        (expiring ++ ExpiryKind.suspendedTx.onExpire true)) := by
      refine ⟨rfl, fun task => ?_⟩
      cases task <;> rfl
    exact absurd ((h.last.listed hquiet 0).mp ⟨0, rfl⟩) (by decide)
  · exact absurd (h.last.stopped rfl 0) (by decide)
  · exact h.2.2.2.2.1 rfl 0 rfl (by decide)

end ExpiryTaskManager

end GeodeNative
