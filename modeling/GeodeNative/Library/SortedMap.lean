import Mathlib.Data.List.Basic
import Mathlib.Order.Lattice

/-!
# Maps kept as sorted lists

A map is the list of its entries in the order of their keys, the order in which an
iteration sees them. An insertion keeps the entry of a key that is known.
-/

namespace GeodeNative

open List

section SortedMap

variable {K V : Type*} [LinearOrder K] {es : List (K × V)}

/-- Puts an entry into a sorted list, unless its key is known. -/
def insertEntry (k : K) (v : V) : List (K × V) → List (K × V)
  | [] => [(k, v)]
  | e :: es =>
    if k < e.1 then (k, v) :: e :: es
    else if k = e.1 then e :: es
    else e :: insertEntry k v es

/-- What holds of the old entries and the new one holds of all. -/
lemma forall_mem_insertEntry {p : K × V → Prop} {k : K} {v : V}
    (hnew : p (k, v)) (hold : ∀ e ∈ es, p e) : ∀ e ∈ insertEntry k v es, p e := by
  induction es with
  | nil => simpa [insertEntry] using hnew
  | cons e _ ih =>
    have htail := ih fun x hx => hold x (mem_cons_of_mem _ hx)
    have hhead := hold e mem_cons_self
    unfold insertEntry
    split_ifs
    · exact forall_mem_cons.mpr ⟨hnew, hold⟩
    · exact hold
    · exact forall_mem_cons.mpr ⟨hhead, htail⟩

/-- An insertion keeps the entries sorted. -/
lemma pairwise_insertEntry (k : K) (v : V) (h : es.Pairwise fun a b => a.1 < b.1) :
    (insertEntry k v es).Pairwise fun a b => a.1 < b.1 := by
  induction es with
  | nil => simp [insertEntry]
  | cons _ _ ih =>
    obtain ⟨hhead, htail⟩ := pairwise_cons.mp h
    unfold insertEntry
    split_ifs with hlt heq
    · refine pairwise_cons.mpr ⟨?_, h⟩
      intro x hx
      rcases mem_cons.mp hx with rfl | hx
      · exact hlt
      · exact hlt.trans (hhead x hx)
    · exact h
    · refine pairwise_cons.mpr ⟨?_, ih htail⟩
      exact forall_mem_insertEntry (lt_of_le_of_ne (not_lt.mp hlt) (Ne.symm heq)) hhead

/-- A map, as its entries in the order of their keys. -/
structure SortedMap (K V : Type*) [LinearOrder K] where
  entries : List (K × V)
  sorted : entries.Pairwise fun a b => a.1 < b.1

namespace SortedMap

/-- The map without entries. -/
def empty : SortedMap K V :=
  ⟨[], List.Pairwise.nil⟩

/-- The value of a key. -/
def find? (m : SortedMap K V) (k : K) : Option V :=
  m.entries.lookup k

/-- Adds an entry, unless its key is known. -/
def insert (m : SortedMap K V) (k : K) (v : V) : SortedMap K V :=
  ⟨insertEntry k v m.entries, pairwise_insertEntry k v m.sorted⟩

/-- Sets the value of a key that is known. -/
def replace (m : SortedMap K V) (k : K) (v : V) : SortedMap K V where
  entries := m.entries.map fun e => if e.1 = k then (e.1, v) else e
  sorted := by
    refine List.Pairwise.map _ ?_ m.sorted
    intro a b hab
    split_ifs <;> exact hab

@[simp] lemma find?_empty (k : K) : (empty : SortedMap K V).find? k = none := rfl

@[simp] lemma entries_empty : (empty : SortedMap K V).entries = [] := rfl

lemma lookup_cons_eq_ite (e : K × V) (es : List (K × V)) (x : K) :
    (e :: es).lookup x = if x = e.1 then some e.2 else es.lookup x := by
  obtain ⟨k, _⟩ := e
  by_cases hx : x = k
  · simp [hx]
  · have hbeq : (x == k) = false := beq_false_of_ne hx
    simp [lookup_cons, hbeq, hx]

/-- An insertion keeps a value that is there already. -/
lemma lookup_insertEntry (h : es.Pairwise fun a b => a.1 < b.1) (k x : K)
    (v : V) : (insertEntry k v es).lookup x =
      if x = k then some ((es.lookup k).getD v) else es.lookup x := by
  induction es with
  | nil => simp only [insertEntry, lookup_cons_eq_ite, lookup_nil, Option.getD_none]
  | cons e es ih =>
    obtain ⟨hhead, htail⟩ := pairwise_cons.mp h
    unfold insertEntry
    rcases lt_trichotomy k e.1 with hlt | heq | hgt
    · -- a key below the first one is not among the entries
      have hnone : (e :: es).lookup k = none := by
        refine lookup_eq_none_iff.mpr fun y hy => ?_
        rcases mem_cons.mp hy with rfl | hy
        · simpa using hlt.ne
        · simpa using (hlt.trans (hhead y hy)).ne
      rw [if_pos hlt, hnone, lookup_cons_eq_ite, Option.getD_none]
    · rw [if_neg heq.not_lt, if_pos heq]
      by_cases hx : x = k
      · rw [if_pos hx, hx, lookup_cons_eq_ite, if_pos heq, Option.getD_some]
      · rw [if_neg hx]
    · rw [if_neg hgt.not_gt, if_neg hgt.ne', lookup_cons_eq_ite, lookup_cons_eq_ite,
        lookup_cons_eq_ite, if_neg hgt.ne', ih htail]
      by_cases hx : x = k
      · rw [if_pos hx, if_pos hx, if_neg (hx ▸ hgt.ne')]
      · rw [if_neg hx, if_neg hx]

/-- `std::map::emplace` keeps the value of a key that is in the map. -/
lemma find?_insert (m : SortedMap K V) {k x : K} (v : V) :
    (m.insert k v).find? x = if x = k then some ((m.find? k).getD v) else m.find? x :=
  lookup_insertEntry m.sorted k x v

end SortedMap

end SortedMap

end GeodeNative
