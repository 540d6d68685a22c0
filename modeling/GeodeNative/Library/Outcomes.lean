import Mathlib.Data.Nat.Notation

/-!
# Pre- and postconditions of stateful computations that may fail

An `EStateM` computation ends with a value or an error, and with a state in either
case. `Meets P m Q E` says that from every state with `P` it ends with a value and a
state related by `Q`, or with an error and a state related by `E`. There is one rule
for each way to build a computation.
-/

namespace GeodeNative

section Outcomes

variable {ε σ α β : Type}

/-- The outcomes of `m` from a state with `P` satisfy `Q`, or `E` where it fails. -/
def Meets (P : σ → Prop) (m : EStateM ε σ α) (Q : α → σ → Prop) (E : ε → σ → Prop) : Prop :=
  ∀ s, P s → match m.run s with
    | .ok a s' => Q a s'
    | .error e s' => E e s'

variable {P P' : σ → Prop} {m : EStateM ε σ α} {Q Q' : α → σ → Prop} {E : ε → σ → Prop} {a : α}
  {e : ε}

lemma Meets.pure (h : ∀ s, P s → Q a s) : Meets P (pure a : EStateM ε σ α) Q E := h

lemma Meets.throw (h : ∀ s, P s → E e s) : Meets P (throw e : EStateM ε σ α) Q E := h

/-- What follows a computation runs from the state that it ends with. -/
lemma run_bind (m : EStateM ε σ α) (f : α → EStateM ε σ β) (s : σ) :
    (m >>= f).run s = match m.run s with
      | .ok a s' => (f a).run s'
      | .error e s' => .error e s' := rfl

variable {f : α → EStateM ε σ β} {s s' : σ}

/-- What follows a step goes on from its state. -/
lemma run_bind_of_ok (h : m.run s = .ok a s') : (m >>= f).run s = (f a).run s' := by
  rw [run_bind, h]

/-- Nothing follows an exception. -/
lemma run_bind_of_error (h : m.run s = .error e s') : (m >>= f).run s = .error e s' := by
  rw [run_bind, h]

/-- Where both return, the first one did. -/
lemma exists_of_run_bind {s'' : σ} {b : β}
    (h : (m >>= f).run s = .ok b s'') : ∃ a s', m.run s = .ok a s' ∧ (f a).run s' = .ok b s'' := by
  cases hrun : m.run s with
  | ok a s' => exact ⟨a, s', rfl, by rwa [run_bind_of_ok hrun] at h⟩
  | error =>
    rw [run_bind_of_error hrun] at h
    cases h

lemma run_get_bind (f : σ → EStateM ε σ α) (s : σ) : (get >>= f).run s = (f s).run s := rfl

/-- What follows a computation starts from what it establishes. -/
lemma Meets.bind {R : β → σ → Prop} (hm : Meets P m Q E)
    (hf : ∀ a, Meets (Q a) (f a) R E) : Meets P (m >>= f) R E := by
  intro s hs
  have hout := hm s hs
  cases h : m.run s with
  | ok a s' =>
    rw [h] at hout
    rw [run_bind_of_ok h]
    exact hf a s' hout
  | error =>
    rw [h] at hout
    rw [run_bind_of_error h]
    exact hout

/-- The rule of consequence. -/
lemma Meets.mono (h : Meets P m Q E) (hP : ∀ s, P' s → P s) (hQ : ∀ a s, Q a s → Q' a s) :
    Meets P' m Q' E := by
  intro s hs
  have hout := h s (hP s hs)
  cases hrun : m.run s with
  | ok a s' =>
    rw [hrun] at hout
    exact hQ a s' hout
  | error =>
    rw [hrun] at hout
    exact hout

/-- A fact about the state before that does not depend on it may be assumed. -/
lemma Meets.assume {c : Prop} (h : c → Meets P m Q E) : Meets (fun s => P s ∧ c) m Q E :=
  fun s hs => h hs.2 s hs.1

/-- A precondition with an unknown. -/
lemma Meets.exists {ι : Type} {P : ι → σ → Prop} (h : ∀ i, Meets (P i) m Q E) :
    Meets (fun s => ∃ i, P i s) m Q E :=
  fun s ⟨i, hs⟩ => h i s hs

/-- A branch meets what both its arms meet. -/
lemma Meets.ite {c : Prop} [Decidable c] {m' : EStateM ε σ α}
    (ht : c → Meets P m Q E) (hf : ¬ c → Meets P m' Q E) : Meets P (if c then m else m') Q E := by
  split
  · exact ht ‹_›
  · exact hf ‹_›

/-- Makes a computation `n` times and lists the values. -/
def times (m : EStateM ε σ α) : ℕ → EStateM ε σ (List α)
  | 0 => pure []
  | n + 1 => do
    let a ← m
    let as ← times m n
    return a :: as

/-- The loop rule: an invariant that counts the turns left. -/
lemma Meets.times {I : ℕ → σ → Prop} (h : ∀ n, Meets (I (n + 1)) m (fun _ => I n) E) (n : ℕ) :
    Meets (I n) (times m n) (fun _ => I 0) E := by
  induction n with
  | zero => exact Meets.pure fun s hs => hs
  | succ n ih => exact (h n).bind fun _ => ih.bind fun _ => Meets.pure fun s hs => hs

end Outcomes

/-! ## Results of `Except` -/

lemma exists_of_bind_pure_eq_ok {ε α β : Type} {x : Except ε α} {f : α → β} {b : β}
    (h : (do let a ← x; return f a) = Except.ok b) : ∃ a, x = .ok a ∧ f a = b := by
  cases x with
  | error => cases h
  | ok a => exact ⟨a, rfl, Except.ok.inj h⟩

end GeodeNative
