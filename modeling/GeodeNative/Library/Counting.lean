import Mathlib.Data.Fintype.BigOperators
import Mathlib.Data.Int.ModEq
import Mathlib.Tactic.Ring
import Mathlib.Tactic.Positivity

/-!
# Counting under updates at one place

How the size of a finite set changes when it changes at one element, how a sum over
a family changes when the family changes at one index, and when a wrapping
counter follows the number it counts.
-/

namespace GeodeNative

open Finset

open Function

/-- Two finite sets that agree off one element differ in size by that element. -/
lemma card_add_ite_of_agree {α : Type*} [DecidableEq α] {A B : Finset α} {a : α}
    (h : ∀ x, x ≠ a → (x ∈ B ↔ x ∈ A)) :
    B.card + (if a ∈ A then 1 else 0) = A.card + (if a ∈ B then 1 else 0) := by
  have herase : B.erase a = A.erase a := by
    ext x
    by_cases hx : x = a
    · simp [hx]
    · simp [h x hx]
  have hcard : ∀ C : Finset α, C.card = (C.erase a).card + (if a ∈ C then 1 else 0) := by
    intro C
    by_cases ha : a ∈ C
    · rw [if_pos ha, card_erase_add_one ha]
    · rw [if_neg ha, erase_eq_of_notMem ha, Nat.add_zero]
  have hA := hcard A
  have hB := hcard B
  rw [herase] at hB
  omega

/-- A sum over a family that changes at one index. -/
lemma sum_update_add {ι σ : Type*} [Fintype ι] [DecidableEq ι] (g : σ → ℕ) (f : ι → σ) (i : ι)
    (x : σ) : (∑ j, g (Function.update f i x j)) + g (f i) = (∑ j, g (f j)) + g x := by
  rw [← add_sum_erase univ (fun j => g (f j)) (mem_univ i),
    ← add_sum_erase univ (fun j => g (update f i x j)) (mem_univ i)]
  have hrest : ∑ j ∈ univ.erase i, g (update f i x j) = ∑ j ∈ univ.erase i, g (f j) := by
    refine sum_congr rfl fun j hj => ?_
    rw [update_of_ne (ne_of_mem_erase hj)]
  simp only [update_self]
  omega

/-- A wrapping counter that is adjusted by less than its range follows the number it counts
exactly when the adjustment is right and the number stays in range. -/
lemma toNat_add_ofInt_eq_iff {w : ℕ} {counter : BitVec w} {total total' : ℕ} {change : ℤ}
    (hcounter : counter.toNat = total) (hsmall : |change - (total' - total)| < 2 ^ w) :
    (counter + BitVec.ofInt w change).toNat = total' ↔
      change = total' - total ∧ total' < 2 ^ w := by
  have hcast : (((counter + BitVec.ofInt w change).toNat : ℕ) : ℤ) = (total + change) % 2 ^ w := by
    rw [BitVec.toNat_add, BitVec.toNat_ofInt, hcounter]
    have hpos : (0 : ℤ) < 2 ^ w := by positivity
    push_cast
    rw [Int.toNat_of_nonneg (Int.emod_nonneg _ hpos.ne')]
    simp
  constructor
  · intro h
    have hlt : total' < 2 ^ w := h ▸ (counter + BitVec.ofInt w change).isLt
    refine ⟨?_, hlt⟩
    rw [h] at hcast
    have hdvd : (2 ^ w : ℤ) ∣ change - (total' - total) := by
      have hmod : (total' : ℤ) ≡ total + change [ZMOD 2 ^ w] := by
        rw [hcast]
        exact Int.mod_modEq _ _
      rw [show change - ((total' : ℤ) - total) = total + change - total' by ring]
      exact hmod.dvd
    have hzero := Int.eq_zero_of_abs_lt_dvd hdvd hsmall
    omega
  · rintro ⟨_, hlt⟩
    have hsum : (total : ℤ) + change = total' := by omega
    rw [hsum, Int.emod_eq_of_lt (by positivity) (by exact_mod_cast hlt)] at hcast
    exact_mod_cast hcast

end GeodeNative
