import Mathlib.Data.List.Basic

/-!
# Hash maps with an equality of their own

A hash map finds a key by an equality that its user supplies. Nothing forces that
equality to be reflexive: a key that is not equal to itself can be put into the map but
never found there, nor taken out of it by its key.

The map is the list of its nodes. The equality `eq` is supposed to be the real equality on
the *proper* keys and to hold for no improper one; the lemmas say what each operation does
to what a lookup finds.
-/

namespace GeodeNative

open List Option

namespace KeyedList

section Operations

variable {κ α : Type*} (eq : κ → κ → Bool)

/-- What is stored under a key. -/
def find? (l : List (κ × α)) (k : κ) : Option α :=
  (l.find? fun node => eq node.1 k).map Prod.snd

/-- Applies `f` to what every node stores. -/
def adjust (f : κ → α → α) (l : List (κ × α)) : List (κ × α) :=
  l.map fun node => (node.1, f node.1 node.2)

/-- Assigns through the key: the node that is found keeps its own key, and a key that is
not found gets a new node. -/
def assign (l : List (κ × α)) (k : κ) (a : α) : List (κ × α) :=
  if (find? eq l k).isSome then adjust (fun k' b => if eq k' k then a else b) l
  else l ++ [(k, a)]

/-- Removes what is found under a key. -/
def erase (l : List (κ × α)) (k : κ) : List (κ × α) :=
  l.filter fun node => !eq node.1 k

/-- No two nodes have keys that are equal for the map. -/
def Distinct (l : List (κ × α)) : Prop :=
  l.Pairwise fun a b => eq a.1 b.1 = false

end Operations

/-- `eq` is equality on the proper keys and relates nothing to an improper one. -/
def IsEqualityOn {κ : Type*} (eq : κ → κ → Bool) (proper : κ → Prop) : Prop :=
  ∀ a b, eq a b = true ↔ proper a ∧ a = b

variable {κ α : Type*} {eq : κ → κ → Bool} {proper : κ → Prop} {l : List (κ × α)}

@[simp] lemma find?_nil (k : κ) : find? eq ([] : List (κ × α)) k = none := rfl

lemma find?_cons (node : κ × α) (l : List (κ × α)) (k : κ) :
    find? eq (node :: l) k = if eq node.1 k then some node.2 else find? eq l k := by
  by_cases h : eq node.1 k = true
  · simp [find?, h]
  · simp [find?, h]

/-- The first list is searched first. -/
lemma find?_append (l l' : List (κ × α)) (k : κ) :
    find? eq (l ++ l') k = (find? eq l k).or (find? eq l' k) := by
  induction l with
  | nil => rfl
  | cons _ _ ih =>
    rw [cons_append, find?_cons, find?_cons, ih]
    split <;> rfl

section

variable (heq : IsEqualityOn eq proper) {k : κ}

include heq

/-- A key that equals none is not found. -/
lemma find?_of_improper (hk : ¬ proper k) (l : List (κ × α)) : find? eq l k = none := by
  induction l with
  | nil => rfl
  | cons _ _ ih =>
    rw [find?_cons, if_neg, ih]
    intro h
    obtain ⟨hp, rfl⟩ := (heq _ _).mp h
    exact hk hp

/-- In a map with distinct keys the proper nodes are the ones that are found. -/
lemma find?_eq_some (hl : Distinct eq l) {a : α} :
    find? eq l k = some a ↔ proper k ∧ (k, a) ∈ l := by
  induction l with
  | nil => simp
  | cons _ _ ih =>
    obtain ⟨hnode, hl⟩ := pairwise_cons.mp hl
    rw [find?_cons]
    split
    · rename_i h
      obtain ⟨hp, rfl⟩ := (heq _ _).mp h
      constructor
      · intro ha
        cases ha
        exact ⟨hp, mem_cons_self⟩
      · rintro ⟨-, hmem⟩
        rcases mem_cons.mp hmem with hnew | hmem
        · rw [← hnew]
        · have hfalse := hnode _ hmem
          rw [h] at hfalse
          cases hfalse
    · rename_i h
      rw [ih hl]
      refine and_congr_right fun hp => ⟨mem_cons_of_mem _, fun hmem => ?_⟩
      rcases mem_cons.mp hmem with rfl | hmem
      · exact absurd ((heq _ _).mpr ⟨hp, rfl⟩) h
      · exact hmem

/-- Whether a proper key is found depends on the keys only. -/
lemma isSome_find? (hk : proper k)
    (l : List (κ × α)) : (find? eq l k).isSome ↔ k ∈ l.map Prod.fst := by
  induction l with
  | nil => simp
  | cons node _ ih =>
    rw [find?_cons, map_cons, mem_cons, ← ih]
    by_cases h : node.1 = k
    · simp [h, (heq k k).mpr ⟨hk, rfl⟩]
    · have hne : eq node.1 k ≠ true := fun hnk => h ((heq _ _).mp hnk).2
      simp [hne, Ne.symm h]

/-- Adjusting changes what is stored under each key and nothing else. -/
lemma find?_adjust (f : κ → α → α) (l : List (κ × α)) (k : κ) :
    find? eq (adjust f l) k = (find? eq l k).map (f k) := by
  induction l with
  | nil => rfl
  | cons node l ih =>
    have ih' : find? eq (l.map fun node => (node.1, f node.1 node.2)) k
        = (find? eq l k).map (f k) := ih
    rw [adjust, map_cons, find?_cons, find?_cons, ih']
    by_cases h : eq node.1 k = true
    · rw [if_pos h, if_pos h, ((heq _ _).mp h).2]
      rfl
    · rw [if_neg h, if_neg h]

end

/-- Adjusting values leaves the keys. -/
lemma map_fst_adjust (f : κ → α → α) (l : List (κ × α)) :
    (adjust f l).map Prod.fst = l.map Prod.fst := by
  simp [adjust]

/-- Whether keys are distinct depends on the keys alone. -/
lemma distinct_iff_map_fst (l : List (κ × α)) :
    Distinct eq l ↔ (l.map Prod.fst).Pairwise fun a b => eq a b = false := by
  rw [Distinct, pairwise_map]

lemma Distinct.adjust (hl : Distinct eq l) (f : κ → α → α) : Distinct eq (adjust f l) := by
  rw [distinct_iff_map_fst, map_fst_adjust, ← distinct_iff_map_fst]
  exact hl

/-- Erasing keys one after the other keeps the nodes that none of them finds. -/
lemma foldl_erase (ks : List κ) (l : List (κ × α)) :
    ks.foldl (erase eq) l = l.filter fun node => !ks.any fun k => eq node.1 k := by
  induction ks generalizing l with
  | nil => simp
  | cons _ _ ih =>
    rw [List.foldl_cons, ih, erase, List.filter_filter]
    refine filter_congr fun node _ => ?_
    rw [any_cons, Bool.not_or, Bool.and_comm]

lemma Distinct.filter (hl : Distinct eq l) (p : κ × α → Bool) : Distinct eq (l.filter p) :=
  List.Pairwise.filter p hl

variable (heq : IsEqualityOn eq proper)

include heq

/-- Assigning to a proper key changes what is found under it. -/
lemma find?_assign [DecidableEq κ] {k : κ} (hk : proper k) (l : List (κ × α)) (a : α) (k' : κ) :
    find? eq (assign eq l k a) k' = if k' = k then some a else find? eq l k' := by
  have hkk : eq k k = true := (heq k k).mpr ⟨hk, rfl⟩
  have hne : ∀ {b : κ}, b ≠ k → eq b k ≠ true := fun hb h => hb ((heq _ _).mp h).2
  unfold assign
  by_cases hsome : (find? eq l k).isSome = true
  · rw [if_pos hsome, find?_adjust heq]
    by_cases h : k' = k
    · subst h
      obtain ⟨_, hb⟩ := isSome_iff_exists.mp hsome
      rw [hb, map_some, if_pos hkk, if_pos rfl]
    · simp only [if_neg (hne h), if_neg h]
      exact map_id'
  · rw [if_neg hsome, find?_append, find?_cons]
    by_cases h : k' = k
    · subst h
      rw [not_isSome_iff_eq_none.mp hsome, if_pos hkk, if_pos rfl]
      rfl
    · rw [if_neg h, if_neg fun hk' => h ((heq _ _).mp hk').2.symm]
      exact or_none

/-- An assignment adds no key that is there already. -/
lemma Distinct.assign (hl : Distinct eq l) (k : κ) (a : α) : Distinct eq (assign eq l k a) := by
  unfold KeyedList.assign
  split
  · exact hl.adjust _
  · rename_i hnone
    refine pairwise_append.mpr ⟨hl, pairwise_singleton _ _, ?_⟩
    intro node hnode _ hnew
    rw [mem_singleton.mp hnew]
    by_contra h
    obtain ⟨hp, hkey⟩ := (heq _ _).mp (Bool.not_eq_false _ ▸ h)
    have hmem : (node.1, node.2) ∈ l := hnode
    rw [hkey] at hmem hp
    exact hnone (isSome_iff_exists.mpr ⟨_, (find?_eq_some heq hl).mpr ⟨hp, hmem⟩⟩)

/-- Erasing the keys of the nodes that pass a test removes from the found nodes the ones
that pass it. -/
lemma find?_eraseAll (hl : Distinct eq l) (test : κ × α → Bool) (k : κ) :
    find? eq (((l.filter test).map Prod.fst).foldl (erase eq) l) k
      = (find? eq l k).filter fun a => !test (k, a) := by
  have hl' : Distinct eq (((l.filter test).map Prod.fst).foldl (erase eq) l) := by
    rw [foldl_erase]
    exact hl.filter _
  ext a
  rw [find?_eq_some heq hl', filter_eq_some_iff, find?_eq_some heq hl, foldl_erase,
    mem_filter, and_assoc]
  refine and_congr_right fun hp => and_congr_right fun hmem => ?_
  simp only [Bool.not_eq_true', List.any_eq_false, List.mem_map, List.mem_filter]
  constructor
  · intro h
    by_contra htest
    exact h k ⟨(k, a), ⟨hmem, by simpa using htest⟩, rfl⟩ ((heq k k).mpr ⟨hp, rfl⟩)
  · rintro htest k' ⟨⟨k₁, b⟩, ⟨hmem', htest'⟩, rfl⟩ hkk
    obtain ⟨-, rfl⟩ := (heq _ _).mp hkk
    have hfind := (find?_eq_some heq hl).mpr ⟨hp, hmem⟩
    rw [(find?_eq_some heq hl).mpr ⟨hp, hmem'⟩] at hfind
    cases hfind
    rw [htest] at htest'
    cases htest'

end KeyedList

end GeodeNative
