import GeodeNative.Library.Outcomes
import GeodeNative.Pdx.SharedTypes

/-!
# What merging does to the merged types

The fields of the local type come first in a new merged type, and the offsets of the merged
type are written into them. They are the offsets of the local type again, but for the fields
of fixed size behind its last field of variable length: these are found from the end, which
in the merged type is behind the fields that were added.
-/

namespace GeodeNative

open List Nat

open PdxFieldType PdxType RefStore

variable {f : PdxFieldType} {h : RefStore PdxFieldType} {t : PdxType} {r : PdxLocalReader}
  {b : BitVec 8}

namespace PdxType

/-! ## Fields with others behind them -/

section Offsets

/-- The offsets of fields, as `generatePositionMap` computes them. -/
def withOffsets (fields : List PdxFieldType) : List PdxFieldType :=
  offsetsFromFront 0 (offsetsFromBack fields).2.2

lemma offsetsFromBack_append {fields rest : List PdxFieldType} :
    ∃ done, (offsetsFromBack (fields ++ rest)).2.2 = done ++ (offsetsFromBack rest).2.2 ∧
      done.map unplaced = fields.map unplaced := by
  induction fields with
  | nil => exact ⟨[], rfl, rfl⟩
  | cons f _ ih =>
    obtain ⟨done, hdone, hunplaced⟩ := ih
    rw [cons_append]
    cases hvar : f.isVariableLengthType with
    | true =>
      rw [offsetsFromBack_cons_variable hvar, hdone]
      exact ⟨_ :: done, rfl, congrArg (f.unplaced :: ·) hunplaced⟩
    | false =>
      rw [offsetsFromBack_cons_fixed hvar, hdone]
      exact ⟨_ :: done, rfl, congrArg (f.unplaced :: ·) hunplaced⟩

/-- What is behind a field of variable length does not matter to the fields before it. -/
lemma offsetsFromBack_append_variable (fields : List PdxFieldType)
    (hf : f.isVariableLengthType = true) (rest : List PdxFieldType) :
    offsetsFromBack (fields ++ f :: rest) = ((offsetsFromBack (fields ++ [f])).1,
      (offsetsFromBack (fields ++ [f])).2.1,
      (offsetsFromBack (fields ++ [f])).2.2 ++ (offsetsFromBack rest).2.2) := by
  induction fields with
  | nil =>
    rw [nil_append, nil_append, offsetsFromBack_cons_variable hf, offsetsFromBack_cons_variable hf]
    rfl
  | cons g fields ih =>
    rw [cons_append, cons_append]
    cases hvar : g.isVariableLengthType with
    | true =>
      rw [offsetsFromBack_cons_variable hvar, offsetsFromBack_cons_variable hvar, ih]
      rfl
    | false =>
      have hprevious : previousOffset ((offsetsFromBack (fields ++ [f])).2.2 ++
          (offsetsFromBack rest).2.2) = previousOffset (offsetsFromBack (fields ++ [f])).2.2 := by
        obtain ⟨done, hdone, -⟩ := offsetsFromBack_append
        rw [hdone, offsetsFromBack_cons_variable hf]
        cases done <;> rfl
      rw [offsetsFromBack_cons_fixed hvar, offsetsFromBack_cons_fixed hvar, ih]
      rw [hprevious]
      rfl

variable {fields : List PdxFieldType}

/-- The pass from the front ends at the first field of variable length. -/
lemma offsetsFromFront_append_of_any
    (h : fields.any isVariableLengthType = true) (p : ℤ) (rest : List PdxFieldType) :
    offsetsFromFront p (fields ++ rest) = offsetsFromFront p fields ++ rest := by
  induction fields generalizing p with
  | nil => cases h
  | cons f _ ih =>
    rw [cons_append, offsetsFromFront, offsetsFromFront]
    by_cases hvar : f.isVariableLengthType = true
    · rw [if_pos hvar, if_pos hvar]
      rfl
    · rw [if_neg hvar, if_neg hvar, ih, cons_append]
      rwa [any_cons, Bool.eq_false_of_not_eq_true hvar] at h

/-- The pass from the front forgets the offsets of fields of fixed size. -/
lemma offsetsFromFront_append_of_none {done : List PdxFieldType}
    (hdone : done.map unplaced = fields.map unplaced) (h : fields.any isVariableLengthType = false)
    (p : ℤ) (rest : List PdxFieldType) :
    ∃ rest', offsetsFromFront p (done ++ rest) = offsetsFromFront p fields ++ rest' := by
  induction fields generalizing done p with
  | nil =>
    exact ⟨_, rfl⟩
  | cons f _ ih =>
    cases done with
    | nil => cases hdone
    | cons g =>
      rw [map_cons, map_cons, cons.injEq] at hdone
      obtain ⟨hgf, hdone⟩ := hdone
      rw [any_cons, Bool.or_eq_false_iff] at h
      have hg : g.isVariableLengthType = false :=
        (congrArg isVariableLengthType hgf).trans h.1
      have hsize : g.unplaced.fixedSize = f.unplaced.fixedSize := congrArg _ hgf
      obtain ⟨rest', hrest'⟩ := ih hdone h.2 (p + f.fixedSize)
      refine ⟨rest', ?_⟩
      have hhead : ({ g with vlOffsetIndex := 0, relativeOffset := p } : PdxFieldType) =
          { f with vlOffsetIndex := 0, relativeOffset := p } := by
        simpa [unplaced] using hgf
      rw [cons_append, offsetsFromFront, offsetsFromFront, if_neg (by simp [hg]),
        if_neg (by simp [h.1]), hhead, show g.fixedSize = f.fixedSize from hsize, hrest']
      rfl

/-- The fields at the front keep their offsets if nothing is added, or no field of fixed size
is behind a field of variable length at their end. -/
lemma withOffsets_append {rest : List PdxFieldType}
    (h : rest = [] ∨ fields.any isVariableLengthType = false ∨
      ∃ front f, fields = front ++ [f] ∧ f.isVariableLengthType = true) :
    ∃ rest', withOffsets (fields ++ rest) = withOffsets fields ++ rest' := by
  rcases h with rfl | hnone | ⟨front, f, rfl, hf⟩
  · exact ⟨[], by rw [append_nil, append_nil]⟩
  · obtain ⟨done, hdone, hunplaced⟩ := offsetsFromBack_append
    have hback := map_unplaced_offsetsFromBack fields
    have hnone' : (offsetsFromBack fields).2.2.any isVariableLengthType = false := by
      have hmap := map_eq_of_map_unplaced isVariableLengthType (fun _ => rfl) hback
      have hany := congrArg (any · id) hmap
      rw [any_map, any_map] at hany
      exact hany.trans hnone
    rw [withOffsets, hdone]
    exact offsetsFromFront_append_of_none (hunplaced.trans hback.symm) hnone' 0 _
  · have hany : (offsetsFromBack (front ++ [f])).2.2.any isVariableLengthType =
        true := by
      obtain ⟨_, hdone, -⟩ := offsetsFromBack_append
      rw [hdone, offsetsFromBack_cons_variable hf, any_append, any_cons, hf,
        Bool.true_or, Bool.or_true]
    refine ⟨(offsetsFromBack rest).2.2, ?_⟩
    rw [withOffsets, append_assoc, singleton_append, offsetsFromBack_append_variable front hf]
    exact offsetsFromFront_append_of_any hany 0 _

/-- A field of fixed size behind one of variable length is found from what comes next. -/
lemma getElem?_withOffsets_trailing (hfields : fields.any isVariableLengthType = true)
    (hf : f.isVariableLengthType = false) (rest : List PdxFieldType) :
    (withOffsets (fields ++ f :: rest))[fields.length]? = some { f with
      vlOffsetIndex := if (offsetsFromBack rest).1 then (offsetsFromBack rest).2.1 else -1
      relativeOffset := -f.fixedSize + previousOffset (offsetsFromBack rest).2.2 } := by
  obtain ⟨done, hdone, hunplaced⟩ := offsetsFromBack_append
  have hany : done.any isVariableLengthType = true := by
    have hmap := map_eq_of_map_unplaced isVariableLengthType (fun _ => rfl) hunplaced
    have hany := congrArg (any · id) hmap
    rw [any_map, any_map] at hany
    exact hany.trans hfields
  have hlength : (offsetsFromFront 0 done).length = fields.length := by
    have hfront := congrArg length (map_unplaced_offsetsFromFront 0 done)
    have hback := congrArg length hunplaced
    rw [length_map, length_map] at hfront hback
    exact hfront.trans hback
  rw [withOffsets, hdone, offsetsFromFront_append_of_any hany, ← hlength,
    List.getElem?_append_right le_rfl, Nat.sub_self, offsetsFromBack_cons_fixed hf]
  rfl

/-- Fields that take up space lead back from the point behind them. -/
lemma previousOffset_offsetsFromBack (h : ∀ f ∈ fields, f.TakesSpace) :
    previousOffset (offsetsFromBack fields).2.2 ≤ 0 ∧
      (fields ≠ [] → (offsetsFromBack fields).1 = false →
        previousOffset (offsetsFromBack fields).2.2 < 0) := by
  induction fields with
  | nil => exact ⟨le_rfl, fun hne => absurd rfl hne⟩
  | cons f fields ih =>
    obtain ⟨_, -⟩ := ih fun g hg => h g (mem_cons_of_mem f hg)
    cases hvar : f.isVariableLengthType with
    | true =>
      rw [offsetsFromBack_cons_variable hvar]
      exact ⟨le_rfl, fun _ hfound => by cases hfound⟩
    | false =>
      have hpos := h f mem_cons_self hvar
      have hneg : -f.fixedSize + previousOffset (offsetsFromBack fields).2.2 < 0 := by omega
      rw [offsetsFromBack_cons_fixed hvar]
      exact ⟨hneg.le, fun _ _ => hneg⟩

end Offsets

/-- A type has all fields of a version that it contains. -/
lemma any_equals_of_isContainsFrom {first second : List PdxFieldType}
    (h : isContainsFrom first second = true) (hf : f ∈ second) : first.any (·.equals f) = true := by
  induction second generalizing first with
  | nil => cases hf
  | cons secondPdt _ ih =>
    rw [isContainsFrom] at h
    cases hfound : first.dropWhile fun firstPdt => !firstPdt.equals secondPdt with
    | nil =>
      rw [hfound] at h
      cases h
    | cons found behind =>
      rw [hfound] at h
      have hsub : ∀ g ∈ found :: behind, g ∈ first := fun g hg =>
        (dropWhile_sublist _).subset (hfound ▸ hg)
      rcases mem_cons.mp hf with rfl | hf
      · have hequals := head?_dropWhile_not (fun firstPdt => !firstPdt.equals f) first
        rw [hfound] at hequals
        exact any_eq_true.mpr ⟨found, hsub found mem_cons_self, by simpa using hequals⟩
      · obtain ⟨g, hg, hequals⟩ := any_eq_true.mp (ih h hf)
        exact any_eq_true.mpr ⟨g, hsub g hg, hequals⟩

lemma mergeFields_added {other : List PdxFieldType} (fields : List PdxFieldType)
    (varLenFields : ℤ) (hother : ∀ f ∈ other, f.TakesSpace) :
    ∃ added, (mergeFields other fields varLenFields).1 = fields ++ added ∧
      (∀ f ∈ added, f.TakesSpace) ∧
      ((offsetsFromBack added).1 = true → (offsetsFromBack added).2.1 = varLenFields) ∧
      (added = [] ↔ ∀ f ∈ other, fields.any (·.equals f) = true) := by
  induction other generalizing fields varLenFields with
  | nil =>
    refine ⟨[], (append_nil _).symm, forall_mem_nil _, fun h => ?_, ?_⟩
    · cases h
    · exact iff_of_true rfl (forall_mem_nil _)
  | cons it rest ih =>
    have hit := hother it mem_cons_self
    have hrest : ∀ f ∈ rest, f.TakesSpace := fun f hf => hother f (mem_cons_of_mem it hf)
    rw [mergeFields]
    by_cases hknown : fields.any fun it2 => it2.equals it
    · obtain ⟨added, hfields, hspace, hindex, hnil⟩ := ih fields varLenFields hrest
      rw [if_pos hknown]
      refine ⟨added, hfields, hspace, hindex, hnil.trans ?_⟩
      rw [forall_mem_cons, and_iff_right hknown]
    · rw [if_neg hknown]
      set newFt : PdxFieldType := {
        fieldName := it.fieldName
        className := it.className
        typeId := it.typeId
        sequenceId := fields.length
        isVariableLengthType := it.isVariableLengthType
        fixedSize := it.fixedSize
        varLenFieldIdx := if it.isVariableLengthType then varLenFields else 0 }
      obtain ⟨added, hfields, hspace, hindex, -⟩ := ih _ _ hrest
      refine ⟨newFt :: added, by rw [hfields, append_assoc]; rfl, ?_, ?_, ?_⟩
      · intro f hf
        rcases mem_cons.mp hf with rfl | hf
        · exact hit
        · exact hspace f hf
      · by_cases hvar : newFt.isVariableLengthType = true
        · rw [offsetsFromBack_cons_variable hvar]
          exact fun _ => if_pos hvar
        · rw [offsetsFromBack_cons_fixed (Bool.eq_false_of_not_eq_true hvar)]
          rw [if_neg hvar] at hindex
          exact hindex
      · exact iff_of_false (cons_ne_nil _ _) fun hall => hknown (hall it mem_cons_self)

end PdxType

namespace SharedType

/-! ## Writing through references -/

section Writing

variable {refs : List ℕ}

/-- The loop from the back writes what `offsetsFromBack` computes, and nothing else. -/
lemma writeFromBack_spec (hnodup : refs.Nodup) :
    (writeFromBack h refs).2 = ((offsetsFromBack (h.view refs)).1,
        (offsetsFromBack (h.view refs)).2.1) ∧
      (writeFromBack h refs).1.view refs = (offsetsFromBack (h.view refs)).2.2 ∧
      (writeFromBack h refs).1.next = h.next ∧
      ∀ c ∉ refs, (writeFromBack h refs).1.object c = h.object c := by
  induction refs with
  | nil => exact ⟨rfl, rfl, rfl, fun c _ => rfl⟩
  | cons tmpft refs ih =>
    obtain ⟨hfresh, hnodup⟩ := nodup_cons.mp hnodup
    obtain ⟨hfound, hview, hnext, hframe⟩ := ih hnodup
    have hobject := hframe tmpft hfresh
    have hset : ∀ f, ((writeFromBack h refs).1.set tmpft f).view (tmpft :: refs) =
        f :: (offsetsFromBack (h.view refs)).2.2 := by
      intro f
      show ((writeFromBack h refs).1.set tmpft f).object tmpft ::
        ((writeFromBack h refs).1.set tmpft f).view refs = _
      rw [object_set_self, view_set_of_notMem _ hfresh, hview]
    have hother : ∀ f, ∀ c ∉ tmpft :: refs,
        ((writeFromBack h refs).1.set tmpft f).object c = h.object c := by
      intro _ c hc
      rw [mem_cons, not_or] at hc
      rw [object_set_of_ne _ hc.1, hframe c hc.2]
    have hcons : h.view (tmpft :: refs) = h.object tmpft :: h.view refs := rfl
    have h₁ : (writeFromBack h refs).2.1 = (offsetsFromBack (h.view refs)).1 :=
      congrArg Prod.fst hfound
    have h₂ : (writeFromBack h refs).2.2 = (offsetsFromBack (h.view refs)).2.1 :=
      congrArg Prod.snd hfound
    rw [hcons, writeFromBack]
    simp only [hobject, hview, h₁, h₂]
    by_cases hvar : (h.object tmpft).isVariableLengthType = true
    · rw [if_pos hvar, offsetsFromBack_cons_variable hvar]
      exact ⟨rfl, hset _, hnext, hother _⟩
    · rw [if_neg hvar, offsetsFromBack_cons_fixed (Bool.eq_false_of_not_eq_true hvar)]
      by_cases hvarlen : (offsetsFromBack (h.view refs)).1 = true
      · rw [if_pos hvarlen, if_pos hvarlen]
        exact ⟨rfl, hset _, hnext, hother _⟩
      · rw [if_neg hvarlen, if_neg hvarlen]
        exact ⟨rfl, hset _, hnext, hother _⟩

/-- The loop from the front writes what `offsetsFromFront` computes, and nothing else. -/
lemma writeFromFront_spec (hnodup : refs.Nodup) (p : ℤ) :
    (writeFromFront h p refs).view refs = offsetsFromFront p (h.view refs) ∧
      ∀ c ∉ refs, (writeFromFront h p refs).object c = h.object c := by
  induction refs generalizing h p with
  | nil => exact ⟨rfl, fun c _ => rfl⟩
  | cons tmpft refs ih =>
    obtain ⟨hfresh, hnodup⟩ := nodup_cons.mp hnodup
    have hcons : ∀ g : RefStore PdxFieldType,
        g.view (tmpft :: refs) = g.object tmpft :: g.view refs := fun g => rfl
    rw [hcons, hcons, writeFromFront, offsetsFromFront]
    by_cases hvar : (h.object tmpft).isVariableLengthType = true
    · simp only [if_pos hvar]
      refine ⟨?_, fun c hc => ?_⟩
      · rw [object_set_self, view_set_of_notMem _ hfresh]
      · exact object_set_of_ne _ (ne_of_not_mem_cons hc) _
    · simp only [if_neg hvar]
      set g := h.set tmpft { h.object tmpft with vlOffsetIndex := 0, relativeOffset := p } with hg
      obtain ⟨hview, hframe⟩ := ih (h := g) hnodup (p + (h.object tmpft).fixedSize)
      refine ⟨?_, fun c hc => ?_⟩
      · rw [hview, hframe tmpft hfresh, object_set_self, view_set_of_notMem _ hfresh]
      · rw [hframe c (not_mem_of_not_mem_cons hc), object_set_of_ne _ (ne_of_not_mem_cons hc)]

/-- `InitializeType` places the fields of a type, and writes nothing else. -/
lemma initializeType_spec {t : SharedType} (hnodup : t.refs.Nodup) :
    (t.initializeType h).view t.refs =
        offsetsFromFront 0 (offsetsFromBack (h.view t.refs)).2.2 ∧
      ∀ c ∉ t.refs, (t.initializeType h).object c = h.object c := by
  obtain ⟨-, hback, -, hframe⟩ := writeFromBack_spec (h := h) hnodup
  obtain ⟨hfront, hframe'⟩ := writeFromFront_spec (h := (writeFromBack h t.refs).1) hnodup 0
  exact ⟨by rw [initializeType, hfront, hback], fun c hc => (hframe' c hc).trans (hframe c hc)⟩

/-- The loop of `mergeVersion` makes the fields that `PdxType.mergeFields` adds, as new
objects. -/
lemma mergeFields_refines {other : List ℕ} (hrefs : h.Valid refs) (hother : h.Valid other)
    (hnodup : refs.Nodup) (varLenFields : ℤ) :
    let (h', refs', varLenFields') := mergeFields h refs varLenFields other
    (h'.view refs', varLenFields') =
        PdxType.mergeFields (h.view other) (h.view refs) varLenFields ∧
      refs'.Nodup ∧ (∃ added, refs' = refs ++ added ∧ ∀ c ∈ added, h.next ≤ c) ∧
      ∀ c < h.next, h'.object c = h.object c := by
  induction other generalizing h refs varLenFields with
  | nil =>
    exact ⟨rfl, hnodup, ⟨[], (append_nil refs).symm, fun c hc => by cases hc⟩, fun c _ => rfl⟩
  | cons it rest ih =>
    have hrest : h.Valid rest := fun c hc => hother c (mem_cons_of_mem it hc)
    have hcons : h.view (it :: rest) = h.object it :: h.view rest := rfl
    have hany : (h.view refs).any (fun it2 => it2.equals (h.object it)) =
        refs.any fun it2 => (h.object it2).equals (h.object it) := by
      rw [RefStore.view, any_map]
      rfl
    rw [mergeFields, hcons, PdxType.mergeFields, hany]
    by_cases hknown : refs.any fun it2 => (h.object it2).equals (h.object it)
    · rw [if_pos hknown, if_pos hknown]
      exact ih hrefs hrest hnodup varLenFields
    · rw [if_neg hknown, if_neg hknown]
      set newFt : PdxFieldType := {
        fieldName := (h.object it).fieldName
        className := (h.object it).className
        typeId := (h.object it).typeId
        sequenceId := refs.length
        isVariableLengthType := (h.object it).isVariableLengthType
        fixedSize := (h.object it).fixedSize
        varLenFieldIdx := if (h.object it).isVariableLengthType then varLenFields else 0 }
        with hnewFt
      have hview : (h.alloc newFt).view (refs ++ [h.next]) = h.view refs ++ [newFt] := by
        show (refs ++ [h.next]).map (h.alloc newFt).object = _
        rw [map_append, map_singleton, object_alloc_next]
        exact congrArg (· ++ [newFt]) (view_alloc hrefs newFt)
      have hvalid : (h.alloc newFt).Valid rest := fun c hc => lt_succ_of_lt (hrest c hc)
      obtain ⟨hrefines, hnodup', ⟨added, hadded, hle⟩, hframe⟩ := ih (h := h.alloc newFt)
        (hrefs.alloc newFt) hvalid (hrefs.nodup_append_next hnodup)
        (if (h.object it).isVariableLengthType then varLenFields + 1 else varLenFields)
      refine ⟨?_, hnodup', ⟨h.next :: added, ?_, ?_⟩, fun c hc => ?_⟩
      · have hlength : (h.view refs).length = refs.length := length_map _
        rw [hrefines, hview, view_alloc hrest, hlength]
      · rw [hadded, append_assoc]
        rfl
      · intro c hc
        rcases mem_cons.mp hc with rfl | hc
        · exact le_rfl
        · exact (le_succ _).trans (hle c hc)
      · rw [hframe c (lt_succ_of_lt hc), object_alloc_of_lt _ hc]

end Writing

/-- `mergeVersion` makes the type that `PdxType.mergeVersion` computes, and changes no field. -/
lemma mergeVersion_refines {t other : SharedType} (ht : h.Valid t.refs)
    (hother : h.Valid other.refs) (htnodup : t.refs.Nodup) (honodup : other.refs.Nodup) :
    (mergeVersion h t other).2.view (mergeVersion h t other).1 =
        (t.view h).mergeVersion (other.view h) ∧
      (mergeVersion h t other).2.refs.Nodup ∧
      ((t.view h).isRemoteTypeContains (other.view h) = false →
        ∃ added, (mergeVersion h t other).2.refs = t.refs ++ added ∧ ∀ c ∈ added, h.next ≤ c) ∧
      ∀ c < h.next, (mergeVersion h t other).1.object c = h.object c := by
  unfold mergeVersion PdxType.mergeVersion
  by_cases hlocal : (t.view h).isLocalTypeContains (other.view h) = true
  · rw [if_pos hlocal, if_pos hlocal]
    exact ⟨rfl, htnodup, fun _ => ⟨[], (append_nil _).symm, forall_mem_nil _⟩, fun c _ => rfl⟩
  · rw [if_neg hlocal, if_neg hlocal]
    by_cases hremote : (t.view h).isRemoteTypeContains (other.view h) = true
    · rw [if_pos hremote, if_pos hremote]
      refine ⟨rfl, honodup, fun hfalse => ?_, fun c _ => rfl⟩
      rw [hremote] at hfalse
      cases hfalse
    · rw [if_neg hremote, if_neg hremote]
      obtain ⟨hrefines, hnodup, hadded, hframe⟩ :=
        mergeFields_refines ht hother htnodup t.members.numberOfVarLenFields
      refine ⟨?_, hnodup, fun _ => hadded, hframe⟩
      exact congrArg (fun m : List PdxFieldType × ℤ => { (t.view h).clone with
        pdxFieldTypes := m.1
        numberOfVarLenFields := m.2
        varLenFieldIdx := if 0 < m.2 then m.2 else (t.view h).clone.varLenFieldIdx }) hrefines

/-! ## Initialized types -/

/-- A type whose fields are its own objects and have its offsets. -/
structure Initialized (h : RefStore PdxFieldType) (t : SharedType) : Prop where
  valid : h.Valid t.refs
  nodup : t.refs.Nodup
  standard : ∀ f ∈ (t.view h).pdxFieldTypes, f.Standard
  placed : (t.view h).Placed

end SharedType

namespace PdxType

/-- A stream that was written for an object of the type. -/
def WellFormedStream (t : PdxType) (s : StreamLayout) : Prop :=
  ∃ (before : List (BitVec 8)) (contents : List (List (BitVec 8))) (r : PdxLocalReader),
    List.Forall₂ PdxFieldType.Holds t.pdxFieldTypes contents ∧
    contents.flatten.length +
      4 * (t.pdxFieldTypes.countP PdxFieldType.isVariableLengthType - 1) < 2 ^ 31 ∧
    PdxLocalReader.openAt (PdxLocalWriter.stream before t (t.parts contents)) before.length t =
      .ok r ∧ s = r.layout

/-- A new version of the type is made whose end is further behind, and the fields at the end of
the type are found from the end. -/
structure Disturbs (t other : PdxType) : Prop where
  missing : ∃ f ∈ other.pdxFieldTypes, t.pdxFieldTypes.any (·.equals f) = false
  notContained : t.isRemoteTypeContains other = false
  notEqual : (t.mergeVersion other).eq other = false
  trailing : ∃ f, t.pdxFieldTypes.getLast? = some f ∧ f.isVariableLengthType = false
  any_variable : t.pdxFieldTypes.any PdxFieldType.isVariableLengthType = true

end PdxType

/-- The lowest byte of an offset is the one that was read last. -/
lemma PdxHelper.emod_of_readInt {buffer front back : List (BitVec 8)}
    (hbuffer : buffer = front ++ b :: back) {position v : ℤ} {size : ℕ}
    (hsize : size = 1 ∨ size = 2 ∨ size = 4) (hposition : position + size = front.length + 1)
    (h : readInt buffer position size = .ok v) : v % 256 = b.toNat := by
  have hbytes : ∀ bytes, bytesAt buffer position size = .ok bytes →
      ∃ init, bytes = init ++ [b] ∧ bytes.length = size := by
    intro bytes hbytes
    unfold bytesAt at hbytes
    split_ifs at hbytes with hin
    obtain rfl := Except.ok.inj hbytes
    refine ⟨front.drop position.toNat, ?_, ?_⟩
    · have hle : position.toNat ≤ front.length := by omega
      have htake : size = (front.drop position.toNat).length + 1 := by
        rw [length_drop]
        omega
      rw [hbuffer, drop_append_of_le_length hle, htake, take_length_add_append]
      rfl
    · rw [length_take, length_drop]
      omega
  have hvalue : ∀ (w : ℕ) (init : List (BitVec 8)), (init ++ [b]).length = size → 8 * size ≤ w →
      ((init ++ [b]).foldl pushByte (0 : BitVec w)).toNat % 256 = b.toNat := by
    intro _ init hlength _
    rw [toNat_foldl_pushByte _ (by omega), natOfBytes_append_singleton]
    omega
  rcases hsize with rfl | rfl | rfl
  · obtain ⟨bytes, hread, rfl⟩ := exists_of_bind_pure_eq_ok h
    obtain ⟨init, rfl, hlength⟩ := hbytes bytes hread
    exact_mod_cast hvalue 8 init hlength le_rfl
  · obtain ⟨bytes, hread, rfl⟩ := exists_of_bind_pure_eq_ok h
    obtain ⟨init, rfl, hlength⟩ := hbytes bytes hread
    exact_mod_cast hvalue 16 init hlength le_rfl
  · obtain ⟨bytes, hread, rfl⟩ := exists_of_bind_pure_eq_ok h
    obtain ⟨init, rfl, hlength⟩ := hbytes bytes hread
    have hmod := hvalue 32 init hlength le_rfl
    rw [BitVec.toInt_eq_toNat_cond]
    split_ifs <;> omega

namespace PdxType

/-- Behind the last entry of the table comes the end of the fields. -/
lemma emod_of_readOffset {parts : List (Bool × List (BitVec 8))} (hopened : r.Opened t parts)
    (hoffset : r.layout.offsetPosition = r.startBuffer + r.serializedLength)
    (hwidth : r.offsetSize = 1 ∨ r.offsetSize = 2 ∨ r.offsetSize = 4) {data : List (BitVec 8)}
    (hdata : (parts.map Prod.snd).flatten = data ++ [b]) {v : ℤ}
    (hread : t.readOffset r.layout t.numberOfVarLenFields = .ok v) : v % 256 = b.toNat := by
  obtain ⟨front, back, _, hbuffer⟩ := hopened.buffer
  have hlength := hopened.serializedLength
  have hsplit : r.layout.buffer = (front ++ data) ++ b :: back := by
    rw [show r.layout.buffer = r.buffer from rfl, hbuffer, hdata]
    simp
  refine PdxHelper.emod_of_readInt hsplit hwidth ?_ hread
  rw [hdata, length_append, length_singleton] at hlength
  rw [length_append, show r.layout.offsetSize = r.offsetSize from rfl]
  omega

variable {front : List PdxFieldType}

/-- The contents of an object whose last field has a size, with another last byte. -/
lemma exists_contents_with_last (hf : f.isVariableLengthType = false) (hspace : f.TakesSpace)
    {contents : List (List (BitVec 8))}
    (hfit : Forall₂ PdxFieldType.Holds (front ++ [f]) contents) (b : BitVec 8) :
    ∃ init last, Forall₂ PdxFieldType.Holds (front ++ [f]) (init ++ [last ++ [b]]) ∧
      init.length = front.length ∧ (last.length : ℤ) + 1 = f.fixedSize ∧
      (init ++ [last ++ [b]]).flatten.length = contents.flatten.length := by
  rw [← forall₂_reverse_iff, reverse_append, reverse_singleton,
    singleton_append, forall₂_cons_left_iff] at hfit
  obtain ⟨c, init, hc, hinit, hcontents⟩ := hfit
  have hsize : (c.length : ℤ) = f.fixedSize := hc hf
  have hpos := hspace hf
  have hlast : c.dropLast.length + 1 = c.length := by
    rw [length_dropLast]
    omega
  refine ⟨init.reverse, c.dropLast, ?_, ?_, by omega, ?_⟩
  · rw [← forall₂_reverse_iff, reverse_append, reverse_append,
      reverse_singleton, reverse_singleton, singleton_append, singleton_append,
      reverse_reverse, forall₂_cons]
    refine ⟨fun _ => ?_, hinit⟩
    rw [length_append, length_singleton, hlast, hsize]
  · rw [length_reverse, ← hinit.length_eq, length_reverse]
  · have hflatten : contents = init.reverse ++ [c] := by
      rw [← reverse_reverse contents, hcontents, reverse_cons]
    rw [hflatten, flatten_append, flatten_append, length_append,
      length_append, flatten_singleton, flatten_singleton, length_append,
      length_singleton, hlast]

/-- A field at the end of a type is not found from behind the end. -/
lemma exists_stream_of_trailing (ht : t.Indexed) (hplaced : t.Placed)
    (hspace : ∀ f ∈ t.pdxFieldTypes, f.TakesSpace) (hfields : t.pdxFieldTypes = front ++ [f])
    (hf : f.isVariableLengthType = false) (hstream : ∃ s, t.WellFormedStream s) {index back : ℤ}
    (hback : back ≤ 0) (hindex : index = t.numberOfVarLenFields ∨ index = -1 ∧ back < 0) :
    ∃ s, t.WellFormedStream s ∧ t.positionOf
        { f with vlOffsetIndex := index, relativeOffset := -f.fixedSize + back } s ≠
      t.positionOf f s := by
  obtain ⟨-, before, contents, -, hfit, _, -, -⟩ := hstream
  have hlast : t.pdxFieldTypes[front.length]? = some f := by
    rw [hfields, getElem?_concat_length]
  have hfspace := hspace f (mem_of_getElem? hlast)
  rw [hfields] at hfit
  -- the byte in front of the table is not the lowest one of the number that is looked for
  obtain ⟨init, last, hfit', hinit, _, hlength⟩ := exists_contents_with_last hf hfspace hfit
    (BitVec.ofInt 8 (contents.flatten.length - back + 1))
  set b := BitVec.ofInt 8 (contents.flatten.length - back + 1) with hb
  rw [← hfields] at hfit'
  obtain ⟨r, hopen, hopened, -⟩ := exists_opened ht before hfit'.length_eq (by rwa [hlength])
  obtain ⟨hoffset, hwidth⟩ : r.layout.offsetPosition = r.startBuffer + r.serializedLength ∧
      (r.offsetSize = 1 ∨ r.offsetSize = 2 ∨ r.offsetSize = 4) := by
    obtain ⟨_, -, rfl⟩ := exists_of_bind_pure_eq_ok hopen
    refine ⟨rfl, ?_⟩
    simp only [PdxLocalReader.create]
    split_ifs <;> simp
  refine ⟨r.layout, ⟨before, _, r, hfit', by rwa [hlength], hopen, rfl⟩, ?_⟩
  have hstart : (partStart (init ++ [last ++ [b]]) front.length : ℤ) =
      contents.flatten.length - f.fixedSize := by
    have hflatten : (init ++ [last ++ [b]]).flatten.length =
        init.flatten.length + (last.length + 1) := by
      rw [flatten_append, length_append, flatten_singleton, length_append, length_singleton]
    rw [partStart_eq_length_flatten, ← hinit, take_left]
    omega
  have hserialized : r.serializedLength = contents.flatten.length := by
    rw [hopened.serializedLength, map_snd_parts hfit'.length_eq, hlength]
  rw [positionOf_of_placed ht hplaced hspace hfit' hopened hlast, hstart, positionOf,
    if_neg (by simp [hf]), fixedLengthFieldPosition, if_neg (by dsimp only; omega)]
  dsimp only
  rcases hindex with rfl | ⟨rfl, _⟩
  · have hnumber := ht.numberOfVarLenFields_eq
    rw [if_neg (by omega)]
    cases hread : t.readOffset r.layout t.numberOfVarLenFields with
    | error => exact fun h => by cases h
    | ok v =>
      intro h
      have hv : v + (-f.fixedSize + back) = contents.flatten.length - f.fixedSize :=
        Except.ok.inj h
      have hdata : ((t.parts (init ++ [last ++ [b]])).map Prod.snd).flatten =
          (init.flatten ++ last) ++ [b] := by
        rw [map_snd_parts hfit'.length_eq, flatten_append, flatten_singleton, append_assoc]
      have hmod := emod_of_readOffset hopened hoffset hwidth hdata hread
      rw [BitVec.toNat_ofInt] at hmod
      omega
  · rw [if_pos rfl]
    intro h
    have hv : r.serializedLength + (-f.fixedSize + back) =
        contents.flatten.length - f.fixedSize := Except.ok.inj h
    omega

end PdxType

namespace SharedType

/-- The positions of the fields of a type are the same in two states of the fields. -/
def SamePositions (h h' : RefStore PdxFieldType) (t : SharedType) : Prop :=
  ∀ (i : ℤ) (s : StreamLayout), (t.view h).WellFormedStream s →
    (t.view h').getFieldPosition i s = (t.view h).getFieldPosition i s

section Effect

variable {t other : SharedType} {h' : RefStore PdxFieldType} {added : List ℕ}

lemma view_eq_of_frame (hvalid : h.Valid t.refs)
    (hframe : ∀ c < h.next, h'.object c = h.object c) : t.view h' = t.view h := by
  have hview : h'.view t.refs = h.view t.refs :=
    map_congr_left fun c hc => hframe c (hvalid c hc)
  rw [view, view, hview]

/-- A type that has its offsets gets them again. -/
lemma object_initializeType_of_placed (hnodup : t.refs.Nodup) (hplaced : (t.view h).Placed)
    (c : ℕ) : (t.initializeType h).object c = h.object c := by
  obtain ⟨hview, hframe⟩ := initializeType_spec (h := h) hnodup
  by_cases hc : c ∈ t.refs
  · have hsame : (t.initializeType h).view t.refs = h.view t.refs := hview.trans hplaced.symm
    exact map_inj_left.mp hsame c hc
  · exact hframe c hc

section

variable (ht : t.Initialized h)

include ht

/-- A new version that does not disturb the local type writes its offsets again. -/
lemma object_initializeType_of_append {m : SharedType} (hrefs : m.refs = t.refs ++ added)
    (hadded : ∀ c ∈ added, h.next ≤ c) (hnodup : m.refs.Nodup)
    (hframe : ∀ c < h.next, h'.object c = h.object c) (hkept : h'.view added = [] ∨
      (h.view t.refs).any isVariableLengthType = false ∨
      ∃ front f, h.view t.refs = front ++ [f] ∧ f.isVariableLengthType = true) {c : ℕ}
    (hc : c < h.next) : (m.initializeType h').object c = h.object c := by
  obtain ⟨hview, hother⟩ := initializeType_spec (h := h') hnodup
  have hsame : h'.view t.refs = h.view t.refs :=
    map_congr_left fun c hc => hframe c (ht.valid c hc)
  have hsplit : ∀ g : RefStore PdxFieldType, g.view m.refs = g.view t.refs ++ g.view added := by
    intro _
    rw [hrefs, RefStore.view, map_append]
    rfl
  by_cases hmem : c ∈ t.refs
  · obtain ⟨_, hrest⟩ := withOffsets_append hkept
    have hplaced : h.view t.refs = withOffsets (h.view t.refs) := ht.placed
    rw [hsplit, hsplit, hsame] at hview
    have heq := hview.trans hrest
    rw [← hplaced] at heq
    have hlength : ((m.initializeType h').view t.refs).length = (h.view t.refs).length := by
      rw [RefStore.view, RefStore.view, length_map, length_map]
    exact map_inj_left.mp (append_inj_left heq hlength) c hmem
  · have hnot : c ∉ m.refs := by
      rw [hrefs, mem_append, not_or]
      exact ⟨hmem, fun hmem => absurd (hadded c hmem) (not_le.mpr hc)⟩
    rw [hother c hnot, hframe c hc]

section

variable (hother : other.Initialized h)

include hother

/-- A new version: its fields are those of the local type and the ones that it lacks. -/
lemma view_added (hlocal : (t.view h).isLocalTypeContains (other.view h) = false)
    (hremote : (t.view h).isRemoteTypeContains (other.view h) = false)
    (hadded : (mergeVersion h t other).2.refs = t.refs ++ added) :
    (∀ f ∈ (mergeVersion h t other).1.view added, f.TakesSpace) ∧
      ((offsetsFromBack ((mergeVersion h t other).1.view added)).1 = true →
        (offsetsFromBack ((mergeVersion h t other).1.view added)).2.1 =
          (t.view h).numberOfVarLenFields) ∧
      ((mergeVersion h t other).1.view added = [] ↔
        ∀ f ∈ (other.view h).pdxFieldTypes, (t.view h).pdxFieldTypes.any (·.equals f) = true) := by
  obtain ⟨hview, -, -, hframe⟩ := mergeVersion_refines ht.valid hother.valid ht.nodup hother.nodup
  obtain ⟨fields, hfields, hspec⟩ := mergeFields_added (t.view h).pdxFieldTypes
    (t.view h).numberOfVarLenFields fun f hf => (hother.standard f hf).takesSpace
  have hmerged : ((t.view h).mergeVersion (other.view h)).pdxFieldTypes =
      (t.view h).pdxFieldTypes ++ fields := by
    rw [PdxType.mergeVersion, hlocal, hremote]
    exact hfields
  have hsame : (mergeVersion h t other).1.view t.refs = (t.view h).pdxFieldTypes :=
    map_congr_left fun c hc => hframe c (ht.valid c hc)
  have hsplit : (mergeVersion h t other).1.view (t.refs ++ added) =
      (t.view h).pdxFieldTypes ++ (mergeVersion h t other).1.view added := by
    rw [← hsame]
    exact map_append
  rw [← hadded] at hsplit
  have heq := (hsplit.symm.trans (congrArg PdxType.pdxFieldTypes hview)).trans hmerged
  rw [append_cancel_left heq]
  exact hspec

/-- Merging that does not disturb the local type changes no field that was there before. -/
lemma object_createMergedType (hnot : ¬ Disturbs (t.view h) (other.view h)) {c : ℕ}
    (hc : c < h.next) : (createMergedType h t other).object c = h.object c := by
  obtain ⟨hview, hnodup, hrefs, hframe⟩ :=
    mergeVersion_refines ht.valid hother.valid ht.nodup hother.nodup
  rw [createMergedType]
  dsimp only
  split_ifs with hlocaleq hremoteeq
  · exact hframe c hc
  · exact hframe c hc
  by_cases hlocal : (t.view h).isLocalTypeContains (other.view h) = true
  · rw [mergeVersion, if_pos hlocal]
    exact object_initializeType_of_placed ht.nodup ht.placed c
  by_cases hremote : (t.view h).isRemoteTypeContains (other.view h) = true
  · rw [mergeVersion, if_neg hlocal, if_pos hremote]
    exact object_initializeType_of_placed hother.nodup hother.placed c
  rw [Bool.not_eq_true] at hlocal hremote
  obtain ⟨_, hadded, hle⟩ := hrefs hremote
  refine object_initializeType_of_append ht hadded hle hnodup hframe ?_ hc
  -- otherwise the local type would be disturbed
  by_contra hkept
  rw [not_or, not_or] at hkept
  obtain ⟨hne, hany, hlast⟩ := hkept
  rw [(view_added ht hother hlocal hremote hadded).2.2] at hne
  obtain ⟨f, hf, hmissing⟩ := not_forall₂.mp hne
  refine hnot ⟨⟨f, hf, Bool.eq_false_of_not_eq_true hmissing⟩, hremote, ?_, ?_,
    Bool.eq_true_of_not_eq_false hany⟩
  · rw [hview, view_eq_of_frame hother.valid hframe] at hremoteeq
    exact Bool.eq_false_of_not_eq_true hremoteeq
  · rcases eq_nil_or_concat' (t.view h).pdxFieldTypes with hnil | ⟨front, g, hfront⟩
    · rw [show h.view t.refs = [] from hnil] at hany
      exact absurd rfl hany
    · refine ⟨g, by rw [hfront, getLast?_concat], Bool.eq_false_of_not_eq_true fun hg => ?_⟩
      exact hlast ⟨front, g, hfront, hg⟩

/-- Merging that disturbs the local type makes its last field lead back from behind the fields
that were added. -/
lemma exists_moved_of_disturbs (hdisturbs : Disturbs (t.view h) (other.view h)) :
    ∃ front last index back, (t.view h).pdxFieldTypes = front ++ [last] ∧
      last.isVariableLengthType = false ∧
      (t.view (createMergedType h t other)).pdxFieldTypes[front.length]? = some { last with
        vlOffsetIndex := index
        relativeOffset := -last.fixedSize + back } ∧
      back ≤ 0 ∧ (index = (t.view h).numberOfVarLenFields ∨ index = -1 ∧ back < 0) := by
  obtain ⟨⟨f, hf, hmissing⟩, hremote, hnotEqual, ⟨last, hlast, hfixed⟩, hany⟩ := hdisturbs
  obtain ⟨hview, hnodup, hrefs, hframe⟩ :=
    mergeVersion_refines ht.valid hother.valid ht.nodup hother.nodup
  have hlocal : (t.view h).isLocalTypeContains (other.view h) = false := by
    rw [← Bool.not_eq_true]
    intro hcontains
    rw [isLocalTypeContains, decide_eq_true_iff] at hcontains
    rw [any_equals_of_isContainsFrom hcontains.2 hf] at hmissing
    cases hmissing
  obtain ⟨added, hadded, _⟩ := hrefs hremote
  obtain ⟨hspace, hindex, hnil⟩ := view_added ht hother hlocal hremote hadded
  set h₁ := (mergeVersion h t other).1
  set m := (mergeVersion h t other).2
  have hne : h₁.view added ≠ [] := by
    intro hempty
    rw [hnil.mp hempty f hf] at hmissing
    cases hmissing
  have hsplit : ∀ g : RefStore PdxFieldType, g.view m.refs = g.view t.refs ++ g.view added := by
    intro _
    rw [hadded]
    exact map_append
  have hcreate : createMergedType h t other = m.initializeType h₁ := by
    have hlocaleq : (m.view h₁).eq (t.view h₁) ≠ true := by
      intro heq
      rw [PdxType.eq, decide_eq_true_iff] at heq
      have hlength : (h₁.view m.refs).length = (h₁.view t.refs).length :=
        Int.ofNat_inj.mp heq.2.2.1
      rw [hsplit, length_append, add_eq_left, length_eq_zero_iff] at hlength
      exact hne hlength
    have hremoteeq : (m.view h₁).eq (other.view h₁) ≠ true := by
      rw [hview, view_eq_of_frame hother.valid hframe, hnotEqual]
      exact Bool.false_ne_true
    exact (if_neg hlocaleq).trans (if_neg hremoteeq)
  obtain ⟨front, hfront⟩ := getLast?_eq_some_iff.mp hlast
  have hsame : h₁.view t.refs = (t.view h).pdxFieldTypes :=
    map_congr_left fun c hc => hframe c (ht.valid c hc)
  have hfrontany : front.any isVariableLengthType = true := by
    rwa [hfront, any_append, any_cons, hfixed, any_nil, Bool.or_false, Bool.or_false] at hany
  have hplaced : (m.initializeType h₁).view m.refs = withOffsets (h₁.view m.refs) :=
    (initializeType_spec hnodup).1
  rw [hsplit, hsplit, hsame, hfront, append_assoc, singleton_append] at hplaced
  have hlength : front.length < ((m.initializeType h₁).view t.refs).length := by
    have hrefs := congrArg length hfront
    rw [length_append] at hrefs
    rw [RefStore.view, length_map, ← length_map h.object]
    exact lt_of_lt_of_eq (lt_succ_self _) hrefs.symm
  obtain ⟨hback, hneg⟩ := previousOffset_offsetsFromBack hspace
  refine ⟨front, last, if (offsetsFromBack (h₁.view added)).1 then
    (offsetsFromBack (h₁.view added)).2.1 else -1, _, hfront, hfixed, ?_, hback, ?_⟩
  · have hmoved := getElem?_withOffsets_trailing hfrontany hfixed (h₁.view added)
    rwa [← hplaced, getElem?_append_left hlength, ← hcreate] at hmoved
  · by_cases hfound : (offsetsFromBack (h₁.view added)).1 = true
    · rw [if_pos hfound]
      exact .inl (hindex hfound)
    · rw [if_neg hfound]
      exact .inr ⟨rfl, hneg hne (Bool.eq_false_of_not_eq_true hfound)⟩

end

end

lemma getFieldPosition_natCast {u : PdxType} {i : ℕ} (hf : u.pdxFieldTypes[i]? = some f)
    (s : StreamLayout) : u.getFieldPosition i s = u.positionOf f s := by
  rw [getFieldPosition, if_neg (by omega), Int.toNat_natCast, hf]

/-- After a local type and another version of it have been merged, the fields of both are found
where they were found before, exactly when merging does not disturb the local type. -/
theorem samePositions_createMergedType_iff (h : RefStore PdxFieldType)
    (localType remoteType : SharedType) (hlocal : localType.Initialized h)
    (hindexed : (localType.view h).Indexed) (hremote : remoteType.Initialized h)
    (hobject : ∃ s, (localType.view h).WellFormedStream s) :
    SamePositions h (createMergedType h localType remoteType) localType ∧
        SamePositions h (createMergedType h localType remoteType) remoteType ↔
      ¬ Disturbs (localType.view h) (remoteType.view h) := by
  constructor
  · rintro ⟨hsame, -⟩ hdisturbs
    obtain ⟨front, last, _, _, hfront, hfixed, hmoved, hback, hindex⟩ :=
      exists_moved_of_disturbs hlocal hremote hdisturbs
    obtain ⟨s, hs, hposition⟩ := exists_stream_of_trailing hindexed hlocal.placed
      (fun g hg => (hlocal.standard g hg).takesSpace) hfront hfixed hobject hback hindex
    have hlast : (localType.view h).pdxFieldTypes[front.length]? = some last := by
      rw [hfront, getElem?_concat_length]
    have heq := hsame front.length s hs
    rw [getFieldPosition_natCast hmoved, getFieldPosition_natCast hlast] at heq
    exact hposition heq
  · intro hnot
    have hframe : ∀ c < h.next, (createMergedType h localType remoteType).object c = h.object c :=
      fun c hc => object_createMergedType hlocal hremote hnot hc
    refine ⟨fun i s _ => ?_, fun i s _ => ?_⟩
    · rw [view_eq_of_frame hlocal.valid hframe]
    · rw [view_eq_of_frame hremote.valid hframe]

end Effect

/-! ## Two versions of a class -/

/-- The fields `text` and `number` of a local type in this order or the other one, and the fields
`number` and `other` of a remote type. -/
def versions (textFirst : Bool) : RefStore PdxFieldType where
  object
    | 0 => { fieldName := "text", className := "string", typeId := .string,
             sequenceId := if textFirst then 0 else 1, isVariableLengthType := true,
             fixedSize := -1, varLenFieldIdx := 0, vlOffsetIndex := -1,
             relativeOffset := if textFirst then 0 else 4 }
    | 1 => { fieldName := "number", className := "int", typeId := .int,
             sequenceId := if textFirst then 1 else 0, isVariableLengthType := false,
             fixedSize := 4, varLenFieldIdx := 0, vlOffsetIndex := if textFirst then -1 else 0,
             relativeOffset := if textFirst then -4 else 0 }
    | 2 => { fieldName := "number", className := "", typeId := .int, sequenceId := 0,
             isVariableLengthType := false, fixedSize := 4, varLenFieldIdx := 0 }
    | _ => { fieldName := "other", className := "", typeId := .string, sequenceId := 1,
             isVariableLengthType := true, fixedSize := -1, varLenFieldIdx := 0,
             vlOffsetIndex := -1, relativeOffset := 4 }
  next := 4

def localVersion (textFirst : Bool) : SharedType where
  members := { PdxType.create "Class" true true with
    numberOfVarLenFields := 1
    isVarLenFieldAdded := true }
  refs := if textFirst then [0, 1] else [1, 0]

def remoteVersion : SharedType where
  members := { PdxType.create "Class" false true with numberOfVarLenFields := 1 }
  refs := [2, 3]

instance (f : PdxFieldType) : Decidable f.Standard :=
  decidable_of_iff ((f.isVariableLengthType = true ↔ f.typeId.getFixedTypeSize = -1) ∧
    f.fixedSize = f.typeId.getFixedTypeSize) ⟨fun h => ⟨h.1, h.2⟩, fun h => ⟨h.1, h.2⟩⟩

lemma indexed_localVersion : ((localVersion false).view (versions false)).Indexed where
  sequenceId_eq i f hf := by
    rcases i with _ | _ | i
    · cases hf; rfl
    · cases hf; rfl
    · cases hf
  varLenFieldIdx_eq i f hf hvar := by
    rcases i with _ | _ | i
    · cases hf; cases hvar
    · cases hf; rfl
    · cases hf
  numberOfVarLenFields_eq := rfl

/-- A text at the end of the local type keeps its place. -/
theorem samePositions_text_last :
    SamePositions (versions false)
        (createMergedType (versions false) (localVersion false) remoteVersion)
        (localVersion false) ∧
      SamePositions (versions false)
        (createMergedType (versions false) (localVersion false) remoteVersion) remoteVersion := by
  refine (samePositions_createMergedType_iff (versions false) (localVersion false) remoteVersion
    ⟨by decide, by decide, by decide, rfl⟩ indexed_localVersion
    ⟨by decide, by decide, by decide, rfl⟩ ?_).mpr ?_
  · exact ⟨_, [], [[0, 0, 0, 7], [87, 0, 1, 65]], _, by decide, by decide, rfl, rfl⟩
  · rintro ⟨-, -, -, ⟨_, hf, hfixed⟩, -⟩
    cases hf
    cases hfixed

/-- A number at the end of the local type is looked for at another place once the local type has
been merged. -/
theorem not_samePositions_number_last : (localVersion true).Initialized (versions true) ∧
    remoteVersion.Initialized (versions true) ∧
    ¬ SamePositions (versions true)
      (createMergedType (versions true) (localVersion true) remoteVersion)
      (localVersion true) := by
  refine ⟨⟨by decide, by decide, by decide, rfl⟩, ⟨by decide, by decide, by decide, rfl⟩, ?_⟩
  intro hsame
  -- the byte in front of the table is read as an offset
  have hposition := hsame 1 _ ⟨[], [[87, 0, 1, 65], [0, 0, 0, 7]], _, by decide, by decide, rfl,
    rfl⟩
  cases hposition

end SharedType

end GeodeNative
