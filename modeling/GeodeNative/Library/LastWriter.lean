import Mathlib.Data.List.Perm.Basic
import Mathlib.Order.Lattice

/-!
# Registers that keep the greatest event

A register keeps one event. A new event replaces it unless the new event ranks
lower or is blocked by what the register holds. If nothing can block the greatest
event, the register ends with it, in whatever order the events come; if something
can, then some order of the events ends without it.
-/

namespace GeodeNative

open List

section LastWriter

variable {E α : Type*} [LinearOrder α] (rank : E → α) (blocks : E → E → Prop)
  [DecidableRel blocks]

/-- The event that a register keeps after an event comes in. -/
def record (last : Option E) (e : E) : Option E :=
  match last with
  | none => some e
  | some e' => if rank e' ≤ rank e ∧ ¬ blocks e' e then some e else some e'

/-- `g` is the greatest event of a list, and no other event ranks with it. -/
structure IsGreatestEvent (g : E) (es : List E) : Prop where
  mem : g ∈ es
  eq_of_le : ∀ e ∈ es, rank g ≤ rank e → e = g

variable {rank blocks} {g e : E} {es : List E}

@[simp] lemma record_none (e : E) : record rank blocks none e = some e := rfl

/-- A later event is recorded unless the one before blocks it. -/
lemma record_some (e' e : E) : record rank blocks (some e') e =
      if rank e' ≤ rank e ∧ ¬ blocks e' e then some e else some e' := rfl

/-- What a register holds was there before or came in. -/
lemma mem_of_foldl_record {last : Option E}
    (h : es.foldl (record rank blocks) last = some e) : last = some e ∨ e ∈ es := by
  induction es generalizing last with
  | nil => exact .inl h
  | cons e' _ ih =>
    rcases ih h with hstep | hmem
    · have hcases : record rank blocks last e' = some e' ∨ record rank blocks last e' = last := by
        cases last with
        | none => exact .inl rfl
        | some => exact ite_eq_or_eq _ _ _
      rcases hcases with heq | heq <;> rw [heq] at hstep
      · exact .inr (Option.some.inj hstep ▸ mem_cons_self)
      · exact .inl hstep
    · exact .inr (mem_cons_of_mem _ hmem)

/-- A register that holds the greatest event keeps it. -/
lemma foldl_record_of_greatest (h : ∀ e ∈ es, rank g ≤ rank e → e = g) :
    es.foldl (record rank blocks) (some g) = some g := by
  induction es with
  | nil => rfl
  | cons e _ ih =>
    have hstep : record rank blocks (some g) e = some g := by
      rw [record_some]
      split
      · next hle => rw [h e mem_cons_self hle.1]
      · rfl
    rw [foldl_cons, hstep]
    exact ih fun e' he' => h e' (mem_cons_of_mem _ he')

/-- The greatest event replaces whatever does not block it, and stays. -/
lemma foldl_record_of_mem {last : Option E} (hg : IsGreatestEvent rank g es)
    (hlast : ∀ e, last = some e → rank e ≤ rank g ∧ ¬ blocks e g)
    (hblock : ∀ e ∈ es, rank e ≤ rank g ∧ ¬ blocks e g) :
    es.foldl (record rank blocks) last = some g := by
  induction es generalizing last with
  | nil => exact absurd hg.mem not_mem_nil
  | cons e es ih =>
    rw [foldl_cons]
    have hrest : ∀ e' ∈ es, rank g ≤ rank e' → e' = g := fun e' he' =>
      hg.eq_of_le e' (mem_cons_of_mem _ he')
    rcases mem_cons.mp hg.mem with rfl | hmem
    · have hstep : record rank blocks last g = some g := by
        cases last with
        | none => rfl
        | some e' => exact if_pos (hlast e' rfl)
      rw [hstep]
      exact foldl_record_of_greatest hrest
    · refine ih ⟨hmem, hrest⟩ ?_ fun e' he' => hblock e' (mem_cons_of_mem _ he')
      intro e' he'
      have hcame : e' = e ∨ last = some e' := by
        cases last with
        | none => exact .inl (Option.some.inj he').symm
        | some =>
          rw [record_some] at he'
          split at he'
          · exact .inl (Option.some.inj he').symm
          · exact .inr he'
      rcases hcame with rfl | hold
      · exact hblock e' mem_cons_self
      · exact hlast e' hold

/-- An element of a list can be brought to its front. -/
lemma exists_perm_cons_of_mem (h : e ∈ es) : ∃ l, es.Perm (e :: l) := by
  obtain ⟨l₁, l₂, rfl⟩ := append_of_mem h
  exact ⟨l₁ ++ l₂, perm_middle⟩

/-- Convergence: every order of the events ends with the greatest one exactly when none of
the events blocks it. -/
theorem forall_perm_foldl_record_iff (hnodup : es.Nodup) (hg : IsGreatestEvent rank g es)
    (hirrefl : ¬ blocks g g) :
    (∀ l : List E, l.Perm es → l.foldl (record rank blocks) none = some g) ↔
      ∀ e ∈ es, ¬ blocks e g := by
  have hle : ∀ e ∈ es, rank e ≤ rank g := by
    intro e he
    rcases le_total (rank e) (rank g) with hle | hle
    · exact hle
    · rw [hg.eq_of_le e he hle]
  constructor
  · intro h r hr hblock
    -- `r` comes first and the greatest event right after it
    have hne : r ≠ g := by
      rintro rfl
      exact hirrefl hblock
    obtain ⟨l₁, hl₁⟩ := exists_perm_cons_of_mem hr
    obtain ⟨l₂, hl₂⟩ : ∃ l₂, l₁.Perm (g :: l₂) := by
      rcases mem_cons.mp (hl₁.mem_iff.mp hg.mem) with heq | hmem
      · exact absurd heq.symm hne
      · exact exists_perm_cons_of_mem hmem
    have horder : (r :: g :: l₂).Perm es := (hl₁.trans (hl₂.cons r)).symm
    have hrun := h _ horder
    have hskip : record rank blocks (some r) g = some r := if_neg fun hboth => hboth.2 hblock
    rw [foldl_cons, foldl_cons, record_none, hskip] at hrun
    have hnotin : g ∉ l₂ := by
      have hnd := (horder.nodup_iff.mpr hnodup).of_cons
      exact (nodup_cons.mp hnd).1
    rcases mem_of_foldl_record hrun with heq | hmem
    · exact hne (Option.some.inj heq)
    · exact hnotin hmem
  · intro h _ hl
    refine foldl_record_of_mem ⟨hl.mem_iff.mpr hg.mem, ?_⟩ ?_ ?_
    · exact fun e he => hg.eq_of_le e (hl.mem_iff.mp he)
    · rintro e ⟨⟩
    · exact fun e he => ⟨hle e (hl.mem_iff.mp he), h e (hl.mem_iff.mp he)⟩

end LastWriter

end GeodeNative
