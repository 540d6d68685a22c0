import GeodeNative.Library.Runs
import Mathlib.Data.Int.Basic

/-!
# Registrations at an endpoint

`registerDM` with notification opens the connections that are missing, appends the distribution
manager to a list, opens the notification channel for the first registration and counts it;
`unregisterDM` counts down and takes the manager off the list, however often it is in it.

The manager stays in the list if the channel cannot be opened, a second registration of it is lost
with the first one that is taken back, and an endpoint that was active but has lost its connection
reports success without registering.
-/

namespace GeodeNative

/-- What an endpoint keeps about registrations. -/
structure RegisteredDMs (D : Type*) where
  connected : Bool
  isActiveEndpoint : Bool
  numRegionListener : ℤ := 0
  distMgrs : List D := []

/-- A registration, with the errors of creating the connections for operations and the one for
notifications. -/
structure RegisterCall (E D : Type*) where
  isActiveEndpoint : Bool
  distMgr : Option D
  opConnection : ℕ → Option E
  notifyConnection : Option E

inductive RegistrationCall (E D : Type*)
  | registerDM (c : RegisterCall E D)
  | unregisterDM (distMgr : Option D)

namespace RegisteredDMs

variable {E D : Type*} (maxConnections : ℤ) (e : RegisteredDMs D) (c : RegisterCall E D)

/-- How many connections for operations are missing. -/
def missing : ℕ :=
  if maxConnections ≤ 0 ∨ e.isActiveEndpoint then 0
  else if c.isActiveEndpoint then (if e.connected then maxConnections - 1 else maxConnections).toNat
  else if e.connected then 0 else 1

/-- The error of the first of these connections that cannot be created. -/
def opError : Option E := (List.range (e.missing maxConnections c)).findSome? c.opConnection

/-- The endpoint counts as connected once the missing connections are there. -/
def Connects : Prop := maxConnections ≤ 0 ∨ e.connected ∨ 0 < e.missing maxConnections c

instance : Decidable (e.Connects maxConnections c) :=
  inferInstanceAs (Decidable (_ ∨ _ ∨ _))

/-- `registerDM` with notification: its error and the endpoint after it. -/
def registerDM : Option E × RegisteredDMs D :=
  match e.opError maxConnections c with
  | some err => (some err, { e with connected := false, isActiveEndpoint := false })
  | none =>
    let active := if 0 < e.missing maxConnections c then c.isActiveEndpoint else e.isActiveEndpoint
    if e.Connects maxConnections c then
      let distMgrs := e.distMgrs ++ c.distMgr.toList
      match if e.numRegionListener = 0 then c.notifyConnection else none with
      | some err => (some err, ⟨false, false, e.numRegionListener, distMgrs⟩)
      | none => (none, ⟨true, active, e.numRegionListener + 1, distMgrs⟩)
    else (none, { e with isActiveEndpoint := active })

/-- `unregisterDM` with notification. -/
def unregisterDM [DecidableEq D] (distMgr : Option D) : RegisteredDMs D :=
  { e with
    numRegionListener :=
      if 0 < e.numRegionListener then e.numRegionListener - 1 else e.numRegionListener
    distMgrs := e.distMgrs.filter (some · ≠ distMgr) }

end RegisteredDMs

/-- An endpoint, the registrations of each manager that succeeded and were not taken back, the
number that the counter should have, and whether every call that failed left list and counter. -/
structure RegistrationLog (D : Type*) extends RegisteredDMs D where
  registered : D → ℕ := fun _ => 0
  counted : ℤ := 0
  failsClean : Prop := True

namespace RegistrationLog

open RegisteredDMs

variable {E D : Type*} [DecidableEq D] (maxConnections : ℤ)

/-- The record of a registration. -/
def record (s : RegistrationLog D) (distMgr : Option D) :
    Option E × RegisteredDMs D → RegistrationLog D
  | (some _, e) =>
    { s with
      toRegisteredDMs := e
      failsClean := s.failsClean ∧ e.distMgrs = s.distMgrs ∧
        e.numRegionListener = s.numRegionListener }
  | (none, e) =>
    { s with
      toRegisteredDMs := e
      registered := fun d => s.registered d + if some d = distMgr then 1 else 0
      counted := s.counted + 1 }

/-- A call and its record. -/
def step (s : RegistrationLog D) : RegistrationCall E D → RegistrationLog D
  | .registerDM c => s.record c.distMgr (s.registerDM maxConnections c)
  | .unregisterDM distMgr =>
    { s with
      toRegisteredDMs := s.unregisterDM distMgr
      registered := fun d => s.registered d - if some d = distMgr then 1 else 0
      counted := if 0 < s.numRegionListener then s.counted - 1 else s.counted }

/-- Failed calls changed nothing, the counter counts, and the list has the managers that are
registered. -/
structure InStep (s : RegistrationLog D) : Prop where
  failsClean : s.failsClean
  counted : s.numRegionListener = s.counted
  mem_iff : ∀ d, d ∈ s.distMgrs ↔ 0 < s.registered d

/-- A registration that creates its connections ends connected, and opens the notification channel
if it is for a manager; no manager is taken back that is registered twice. -/
def Allowed (s : RegistrationLog D) : RegistrationCall E D → Prop
  | .registerDM c => s.opError maxConnections c = none → s.Connects maxConnections c ∧
      (s.numRegionListener = 0 → c.notifyConnection.isSome → c.distMgr = none)
  | .unregisterDM distMgr => ∀ d ∈ distMgr, s.registered d ≤ 1

variable {maxConnections} {s : RegistrationLog D}

/-- A registration that keeps the records in step is an allowed one, and the other way round. -/
lemma InStep.registerDM_iff (h : s.InStep) (c : RegisterCall E D) :
    (step maxConnections s (.registerDM c)).InStep ↔ s.Allowed maxConnections (.registerDM c) := by
  obtain ⟨hclean, hcounted, hmem⟩ := h
  cases hop : s.opError maxConnections c with
  | some =>
    simp only [step, Allowed, RegisteredDMs.registerDM, hop, reduceCtorEq, false_imp_iff, iff_true]
    exact ⟨⟨hclean, rfl, rfl⟩, hcounted, hmem⟩
  | none =>
    simp only [step, Allowed, RegisteredDMs.registerDM, hop, true_imp_iff]
    by_cases hconnects : s.Connects maxConnections c
    · simp only [hconnects, true_and]
      cases hnotify : if s.numRegionListener = 0 then c.notifyConnection else none with
      | some =>
        obtain ⟨hzero, hsome⟩ := Option.ite_none_right_eq_some.mp hnotify
        simp only [hzero, hsome, Option.isSome_some]
        constructor
        · intro h
          simpa using h.failsClean.2.1
        · intro hnone
          simp only [hnone, Option.toList_none, List.append_nil]
          exact ⟨⟨hclean, rfl, hzero.symm⟩, hzero ▸ hcounted, hmem⟩
      | none =>
        refine iff_of_true ⟨hclean, congrArg (· + 1) hcounted, fun d => ?_⟩ fun hzero hsome => ?_
        · change d ∈ s.distMgrs ++ c.distMgr.toList ↔
            0 < s.registered d + if some d = c.distMgr then 1 else 0
          rw [List.mem_append, hmem, Option.mem_toList, @eq_comm _ c.distMgr]
          split_ifs with heq <;> simp [heq]
        · rw [if_pos hzero] at hnotify
          simp [hnotify] at hsome
    · refine iff_of_false (fun h => ?_) (by simp [hconnects])
      rw [if_neg hconnects] at h
      have hcounter : s.numRegionListener = s.counted + 1 := h.counted
      omega

lemma InStep.unregisterDM_iff (h : s.InStep) (distMgr : Option D) :
    (step (E := E) maxConnections s (.unregisterDM distMgr)).InStep ↔
      s.Allowed (E := E) maxConnections (.unregisterDM distMgr) := by
  obtain ⟨hclean, _, hmem⟩ := h
  constructor
  · rintro ⟨-, -, hmem'⟩ d hd
    have hgone := hmem' d
    simp only [step, unregisterDM, Option.mem_def.mp hd] at hgone
    simp at hgone
    omega
  · intro hallowed
    refine ⟨hclean, ?_, fun d => ?_⟩
    · simp only [step, unregisterDM]
      split <;> omega
    · have hd := hmem d
      simp only [step, unregisterDM, List.mem_filter, hd]
      by_cases heq : some d = distMgr
      · have := hallowed d heq.symm
        simp [heq]
        omega
      · simp [heq]

/-- The records stay in step exactly when every call is allowed. -/
theorem inStep_iff_allowed (maxConnections : ℤ) (connected isActiveEndpoint : Bool)
    (calls : List (RegistrationCall E D)) :
    let s : RegistrationLog D := { connected, isActiveEndpoint }
    EveryState (step maxConnections) InStep s calls ↔
      EveryStep (step maxConnections) (Allowed maxConnections) s calls := by
  have hiff : ∀ (s : RegistrationLog D) (c : RegistrationCall E D), s.InStep →
      ((step maxConnections s c).InStep ↔ s.Allowed maxConnections c) := by
    intro s c h
    cases c with
    | registerDM c => exact h.registerDM_iff c
    | unregisterDM distMgr => exact h.unregisterDM_iff distMgr
  exact everyState_iff_everyStep (fun s c h => (hiff s c h).mpr) (fun s h => h)
    (fun s c h => (hiff s c h).mp) ⟨trivial, rfl, fun d => by simp⟩

/-- The notification channel cannot be opened, and the manager stays in the list. -/
theorem not_inStep_refused :
    ¬ EveryState (step 0) InStep ({ connected := true, isActiveEndpoint := true } :
        RegistrationLog Unit) [.registerDM ⟨false, some (), fun _ => none, some ()⟩] := by
  intro h
  exact absurd h.last.failsClean.2.1 (by decide)

end RegistrationLog

end GeodeNative
