import Mathlib.Algebra.BigOperators.Group.List.Basic
import Mathlib.Algebra.GroupWithZero.Nat
import Mathlib.Order.Nat

/-!
# Parts of a concatenation

Where each of a list of parts begins once they are put one behind the other.
-/

namespace GeodeNative

open List

section Parts

variable {α : Type*} (parts : List (List α))

/-- Where a part begins in the concatenation. -/
def partStart (parts : List (List α)) (i : ℕ) : ℕ :=
  ((parts.map List.length).take i).sum

@[simp] lemma partStart_zero : partStart parts 0 = 0 := by
  simp [partStart]

@[simp] lemma partStart_cons_succ (part : List α) (parts : List (List α)) (i : ℕ) :
    partStart (part :: parts) (i + 1) = part.length + partStart parts i := by
  simp [partStart]

/-- A part begins behind all bytes of those before it. -/
lemma partStart_eq_length_flatten (i : ℕ) : partStart parts i = (parts.take i).flatten.length := by
  rw [partStart, length_flatten, map_take]

variable {parts : List (List α)} {i : ℕ} {part : List α}

/-- The next part begins where a part ends. -/
lemma partStart_succ (h : parts[i]? = some part) :
    partStart parts (i + 1) = partStart parts i + part.length := by
  rw [partStart_eq_length_flatten, partStart_eq_length_flatten, take_add_one, h,
    flatten_append, length_append]
  simp

/-- Behind the last part is the end. -/
lemma partStart_length : partStart parts parts.length = parts.flatten.length := by
  rw [partStart_eq_length_flatten, take_length]

/-- A part lies between those before it and those behind it. -/
lemma flatten_eq_append (h : parts[i]? = some part) :
    parts.flatten = (parts.take i).flatten ++ part ++ (parts.drop (i + 1)).flatten := by
  obtain ⟨hi, rfl⟩ := List.getElem?_eq_some_iff.mp h
  conv_lhs => rw [← take_append_drop i parts, drop_eq_getElem_cons hi]
  rw [flatten_append, flatten_cons, append_assoc]

/-- Parts of one length begin at its multiples. -/
lemma partStart_of_forall_length {w : ℕ} (h : ∀ part ∈ parts, part.length = w)
    (hi : i ≤ parts.length) : partStart parts i = i * w := by
  have hmap : parts.map length = replicate parts.length w := by
    rw [eq_replicate_iff]
    simpa using h
  rw [partStart, hmap, take_replicate, Nat.min_eq_left hi, sum_replicate_nat]

lemma getElem?_append_singleton_eq_some_iff {l : List α} {x y : α} :
    (l ++ [x])[i]? = some y ↔ l[i]? = some y ∨ i = l.length ∧ y = x := by
  rcases lt_trichotomy i l.length with hlt | rfl | hgt
  · simp [getElem?_append_left hlt, hlt.ne]
  · simp [eq_comm]
  · have hnone : (l ++ [x])[i]? = none := getElem?_eq_none (by simp; omega)
    simp [hnone, getElem?_eq_none hgt.le, hgt.ne']

end Parts

end GeodeNative
