import Mathlib.Data.List.Perm.Lattice
import Mathlib.Data.List.Range

/-!
# Objects that are allocated, used and deleted

A `CellHeap` numbers objects in the order of their allocation, gives each of them a label that
never changes, and remembers every use that was made of one. A pointer is a number: copying it
costs nothing, and nothing happens to the copies when the object is deleted.
-/

namespace GeodeNative

open List

/-- A use of an object: an access through a pointer, or its deletion. -/
inductive CellUse
  | access (c : ℕ)
  | delete (c : ℕ)
  deriving DecidableEq, Repr

/-- Objects with labels in `α`, and what was done to them, the last use first. -/
structure CellHeap (α : Type*) where
  cells : List α
  uses : List CellUse
  deriving DecidableEq, Repr

namespace CellHeap

variable {α : Type*}

/-- The heap before anything was allocated. -/
def empty : CellHeap α := ⟨[], []⟩

/-- The number the next object gets. -/
def fresh (h : CellHeap α) : ℕ := h.cells.length

def label (h : CellHeap α) (c : ℕ) : Option α := h.cells[c]?

/-- Allocate an object: it gets the number `h.fresh`. -/
def alloc (h : CellHeap α) (a : α) : CellHeap α := { h with cells := h.cells ++ [a] }

/-- Use an object through a pointer to it. -/
def access (h : CellHeap α) (c : ℕ) : CellHeap α := { h with uses := .access c :: h.uses }

def delete (h : CellHeap α) (c : ℕ) : CellHeap α := { h with uses := .delete c :: h.uses }

/-! ## What the operations do -/

section

variable (h : CellHeap α)

include h

@[simp] lemma fresh_access (c : ℕ) : (h.access c).fresh = h.fresh := rfl

@[simp] lemma fresh_delete (c : ℕ) : (h.delete c).fresh = h.fresh := rfl

/-- An object keeps its label when another one is allocated. -/
lemma label_alloc {a : α} {c : ℕ} (hc : h.label c = some a) (b : α) :
    (h.alloc b).label c = some a := by
  rw [label, alloc, List.getElem?_append_left (List.getElem?_eq_some_iff.mp hc).1]
  exact hc

@[simp] lemma label_access (c d : ℕ) : (h.access c).label d = h.label d := rfl

/-- A deleted cell keeps its label. -/
@[simp] lemma label_delete (c d : ℕ) : (h.delete c).label d = h.label d := rfl

end

end CellHeap

end GeodeNative
