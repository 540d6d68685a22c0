import Mathlib.Data.List.Count
import Mathlib.Data.List.Pairwise

/-!
# Grouping a list by a label

Elements are put one after the other into groups; each group has a head, and two heads with
the same label are the same for the grouping. `Grouped` says what such a collection of
groups must be for a list of elements: the groups have different labels, each holds the
elements with its label, in their order, and every element has a group.
-/

namespace GeodeNative

open List

namespace Grouping

variable {κ η σ : Type*} [DecidableEq σ] (label : η → σ)

/-- Whether there is a group with a label. -/
def HasGroup (groups : List (η × List κ)) (s : σ) : Prop :=
  ∃ group ∈ groups, label group.1 = s

instance (groups : List (η × List κ)) (s : σ) : Decidable (HasGroup label groups s) := by
  unfold HasGroup
  infer_instance

/-- Adds an element at the end of the group with a label. -/
def push (groups : List (η × List κ)) (s : σ) (k : κ) : List (η × List κ) :=
  groups.map fun group => if label group.1 = s then (group.1, group.2 ++ [k]) else group

/-- The groups are those of a list of elements with labels `f`. -/
structure Grouped (f : κ → σ) (ks : List κ) (groups : List (η × List κ)) : Prop where
  distinct : groups.Pairwise fun a b => label a.1 ≠ label b.1
  eq_filter : ∀ group ∈ groups, group.2 = ks.filter fun k => f k = label group.1
  complete : ∀ k ∈ ks, HasGroup label groups (f k)

variable {label} {f : κ → σ} {ks : List κ} {groups : List (η × List κ)} {group : η × List κ} {k : κ}

lemma grouped_nil : Grouped label f [] ([] : List (η × List κ)) where
  distinct := List.Pairwise.nil
  eq_filter := by simp
  complete := by simp

/-- The groups after a push are the old ones, one of them longer. -/
lemma mem_push {s : σ} :
    group ∈ push label groups s k ↔ ∃ old ∈ groups,
      group = if label old.1 = s then (old.1, old.2 ++ [k]) else old := by
  simp only [push, mem_map, eq_comm]

namespace Grouped

variable (h : Grouped label f ks groups)

include h

/-- A new group starts empty: no element has its label yet. -/
lemma append {head : η} (hnew : ¬ HasGroup label groups (label head)) :
    Grouped label f ks (groups ++ [(head, [])]) where
  distinct := by
    refine pairwise_append.mpr ⟨h.distinct, pairwise_singleton _ _, ?_⟩
    intro group hgroup _ hmem heq
    rw [mem_singleton.mp hmem] at heq
    exact hnew ⟨group, hgroup, heq⟩
  eq_filter := by
    intro group hgroup
    rcases mem_append.mp hgroup with hold | hmem
    · exact h.eq_filter group hold
    · rw [mem_singleton.mp hmem]
      refine (filter_eq_nil_iff.mpr fun k hk hlabel => hnew ?_).symm
      rw [← of_decide_eq_true hlabel]
      exact h.complete k hk
  complete := by
    intro k hk
    obtain ⟨group, hgroup, heq⟩ := h.complete k hk
    exact ⟨group, mem_append_left _ hgroup, heq⟩

lemma push (hgroup : HasGroup label groups (f k)) :
    Grouped label f (ks ++ [k]) (push label groups (f k) k) := by
  have hlabel : ∀ group : η × List κ,
      label (if label group.1 = f k then (group.1, group.2 ++ [k]) else group).1
        = label group.1 := by
    intro group
    split <;> rfl
  refine ⟨?_, ?_, ?_⟩
  · refine pairwise_map.mpr (h.distinct.imp fun {a b} hne => ?_)
    rw [hlabel, hlabel]
    exact hne
  · intro _ hmem
    obtain ⟨old, hold, rfl⟩ := mem_push.mp hmem
    rw [hlabel, filter_append, ← h.eq_filter old hold]
    by_cases hk : label old.1 = f k
    · rw [if_pos hk]
      simp [hk]
    · rw [if_neg hk]
      simp [Ne.symm hk]
  · have hkeep : ∀ s, HasGroup label groups s →
        HasGroup label (Grouping.push label groups (f k) k) s := by
      rintro _ ⟨old, hold, rfl⟩
      exact ⟨_, mem_push.mpr ⟨old, hold, rfl⟩, hlabel old⟩
    intro k' hk'
    rcases mem_append.mp hk' with hold | hnew
    · exact hkeep _ (h.complete k' hold)
    · rw [mem_singleton.mp hnew]
      exact hkeep _ hgroup

/-- A group has the keys of its label. -/
lemma mem_group (hgroup : group ∈ groups) : k ∈ group.2 ↔ k ∈ ks ∧ f k = label group.1 := by
  rw [h.eq_filter group hgroup, mem_filter, decide_eq_true_eq]

/-- There is one group for a label. -/
lemma group_unique {a b : η × List κ} (ha : a ∈ groups)
    (hb : b ∈ groups) (hlabel : label a.1 = label b.1) : a = b := by
  have : Std.Symm fun a b : η × List κ => label a.1 ≠ label b.1 := ⟨fun _ _ hab => hab.symm⟩
  by_contra hne
  exact h.distinct.forall ha hb hne hlabel

/-- Each element is in one group only, as often as in the list. -/
lemma exists_group [DecidableEq κ] {k : κ} (hk : k ∈ ks) :
    ∃ group ∈ groups, label group.1 = f k ∧ group.2.count k = ks.count k ∧
      ∀ other ∈ groups, k ∈ other.2 → other = group := by
  obtain ⟨group, hgroup, hlabel⟩ := h.complete k hk
  refine ⟨group, hgroup, hlabel, ?_, ?_⟩
  · rw [h.eq_filter group hgroup]
    exact count_filter (decide_eq_true hlabel.symm)
  · intro _ hother hmem
    refine h.group_unique hother hgroup ?_
    rw [hlabel, ((h.mem_group hother).mp hmem).2]

end Grouped

end Grouping

end GeodeNative
