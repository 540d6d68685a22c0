import Mathlib.Data.List.Basic

/-!
# Runs of a deterministic transition system

A system is a function `step : σ → κ → σ` from a state and a call to the next
state. `runFrom` folds it over a list of calls, `EveryState` says that a
predicate holds in every state reached along a run, the first one included, and
`EveryStep` that a relation between a state and a call holds wherever a call is
made along the run.

The rules below are the only place where a run is taken apart: a result about
runs is obtained from what one step does.
-/

namespace GeodeNative

section Runs

variable {σ κ : Type*} (step : σ → κ → σ)

/-- The state after making the calls of a list, one after the other. -/
def runFrom (s : σ) (cs : List κ) : σ :=
  cs.foldl step s

/-- `P` holds in every state reached along the run, the initial one included. -/
def EveryState (P : σ → Prop) : σ → List κ → Prop
  | s, [] => P s
  | s, c :: cs => P s ∧ EveryState P (step s c) cs

/-- `C` relates every call of the run to the state it is made in. -/
def EveryStep (C : σ → κ → Prop) : σ → List κ → Prop
  | _, [] => True
  | s, c :: cs => C s c ∧ EveryStep C (step s c) cs

instance decidableEveryStep (C : σ → κ → Prop) [∀ s c, Decidable (C s c)] :
    ∀ (s : σ) (cs : List κ), Decidable (EveryStep step C s cs)
  | _, [] => .isTrue trivial
  | s, c :: cs =>
    have := decidableEveryStep C (step s c) cs
    inferInstanceAs (Decidable (C s c ∧ EveryStep step C (step s c) cs))

variable {step}

variable {C : σ → κ → Prop} {s : σ} {cs : List κ} {P I : σ → Prop}

lemma everyStep_cons {c : κ} :
    EveryStep step C s (c :: cs) ↔ C s c ∧ EveryStep step C (step s c) cs := Iff.rfl

/-- A predicate that holds in every state of a run holds in its first state. -/
lemma EveryState.head (h : EveryState step P s cs) : P s := by
  cases cs with
  | nil => exact h
  | cons => exact h.1

/-- A predicate that holds in every state of a run holds in its last state. -/
lemma EveryState.last (h : EveryState step P s cs) : P (runFrom step s cs) := by
  induction cs generalizing s with
  | nil => exact h
  | cons _ _ ih => exact ih h.2

/-- A weaker predicate holds in every state as well. -/
lemma EveryState.mono {Q : σ → Prop} (hPQ : ∀ s, P s → Q s)
    (h : EveryState step P s cs) : EveryState step Q s cs := by
  induction cs generalizing s with
  | nil => exact hPQ s h
  | cons _ _ ih => exact ⟨hPQ s h.1, ih h.2⟩

/-- The invariant rule: what holds at first and is kept by every allowed step holds
everywhere along a run of allowed steps. -/
theorem everyState_of_everyStep (hstep : ∀ s c, P s → C s c → P (step s c)) (h₀ : P s)
    (h : EveryStep step C s cs) : EveryState step P s cs := by
  induction cs generalizing s with
  | nil => exact h₀
  | cons c _ ih => exact ⟨h₀, ih (hstep s c h₀ h.1) h.2⟩

/-- The invariant rule for steps that are all allowed. -/
theorem everyState_of_step (hstep : ∀ s c, P s → P (step s c)) (h₀ : P s) :
    EveryState step P s cs := by
  induction cs generalizing s with
  | nil => exact h₀
  | cons c _ ih => exact ⟨h₀, ih (hstep s c h₀)⟩

/-- The step rule: a relation that every allowed step from an invariant state satisfies is
satisfied by every step of a run of allowed steps. -/
theorem everyStep_of_invariant {D : σ → κ → Prop}
    (hstep : ∀ s c, I s → C s c → I (step s c)) (hD : ∀ s c, I s → C s c → D s c) (h₀ : I s)
    (h : EveryStep step C s cs) : EveryStep step D s cs := by
  induction cs generalizing s with
  | nil => trivial
  | cons c _ ih => exact ⟨hD s c h₀ h.1, ih (hstep s c h₀ h.1) h.2⟩

/-- The exact rule: when the allowed calls are the ones that keep an invariant, the invariant
gives the property, and a call that is not allowed breaks the property at once, a run has the
property throughout exactly when all its calls are allowed. -/
theorem everyState_iff_everyStep (hstep : ∀ s c, I s → C s c → I (step s c)) (hP : ∀ s, I s → P s)
    (hC : ∀ s c, I s → P (step s c) → C s c) (h₀ : I s) :
    EveryState step P s cs ↔ EveryStep step C s cs := by
  induction cs generalizing s with
  | nil => exact ⟨fun _ => trivial, fun _ => hP s h₀⟩
  | cons c _ ih =>
    constructor
    · rintro ⟨-, h⟩
      have hc : C s c := hC s c h₀ h.head
      exact ⟨hc, (ih (hstep s c h₀ hc)).mp h⟩
    · rintro ⟨hc, h⟩
      exact ⟨hP s h₀, (ih (hstep s c h₀ hc)).mpr h⟩

end Runs

end GeodeNative
