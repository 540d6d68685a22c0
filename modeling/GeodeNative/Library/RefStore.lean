import Mathlib.Data.List.Nodup

/-!
# Objects behind references

A `RefStore` holds the objects that a program shares between several owners. A reference
is a number; an owner keeps a list of references and sees the objects behind them, and
whoever writes through a reference writes for all owners.
-/

namespace GeodeNative

open List Function

/-- The objects that were made so far, by their references. -/
structure RefStore (α : Type*) where
  object : ℕ → α
  /-- the next reference -/
  next : ℕ

namespace RefStore

variable {α : Type*} (h : RefStore α) {c : ℕ}

/-- Writes an object. -/
def set (c : ℕ) (a : α) : RefStore α :=
  { h with object := Function.update h.object c a }

/-- Makes an object; its reference is `next`. -/
def alloc (a : α) : RefStore α where
  object := Function.update h.object h.next a
  next := h.next + 1

/-- What an owner of references sees. -/
def view (refs : List ℕ) : List α :=
  refs.map h.object

/-- The references lead to objects that were made. -/
def Valid (refs : List ℕ) : Prop :=
  ∀ c ∈ refs, c < h.next
  deriving Decidable

@[simp] lemma object_set_self (c : ℕ) (a : α) : (h.set c a).object c = a := update_self ..

/-- Other objects stay as they are. -/
lemma object_set_of_ne {d : ℕ} (hne : d ≠ c) (a : α) : (h.set c a).object d = h.object d :=
  update_of_ne hne ..

@[simp] lemma object_alloc_next (a : α) : (h.alloc a).object h.next = a := update_self ..

/-- Objects that are there already stay. -/
lemma object_alloc_of_lt (hc : c < h.next) (a : α) : (h.alloc a).object c = h.object c :=
  update_of_ne (Nat.ne_of_lt hc) ..

/-- A write is seen only through the reference itself. -/
lemma view_set_of_notMem {refs : List ℕ} (hc : c ∉ refs) (a : α) :
    (h.set c a).view refs = h.view refs :=
  map_congr_left fun _ hd => h.object_set_of_ne (ne_of_mem_of_not_mem hd hc) a

variable {h} in
/-- References do not see a new object. -/
lemma view_alloc {refs : List ℕ} (hrefs : h.Valid refs) (a : α) :
    (h.alloc a).view refs = h.view refs :=
  map_congr_left fun c hc => h.object_alloc_of_lt (hrefs c hc) a

variable {h} in
/-- The new object may be referred to. -/
lemma Valid.alloc {refs : List ℕ} (hrefs : h.Valid refs) (a : α) :
    (h.alloc a).Valid (refs ++ [h.next]) := by
  intro c hc
  rw [mem_append, mem_singleton] at hc
  rcases hc with hc | rfl
  · exact Nat.lt_succ_of_lt (hrefs c hc)
  · exact Nat.lt_succ_self _

variable {h} in
/-- The new reference is none of the old ones. -/
lemma Valid.nodup_append_next {refs : List ℕ} (hrefs : h.Valid refs) (hnodup : refs.Nodup) :
    (refs ++ [h.next]).Nodup := by
  rw [nodup_append]
  refine ⟨hnodup, nodup_singleton _, ?_⟩
  intro c hc _ hd
  rw [mem_singleton.mp hd]
  exact Nat.ne_of_lt (hrefs c hc)

end RefStore

end GeodeNative
