import GeodeNative.Library.Parts
import GeodeNative.Pdx.PdxType

/-!
# What the position map says

`generatePositionMap` describes a field by an index and a relative offset. The index
names a field of variable length further on, whose position a stream has in its table
of offsets; the relative offset leads back from there. A field without such a successor
is counted back from the end, and the fields up to the first one of variable length are
counted from the start.

The main results say where `getFieldPosition` then finds a field: at the sum of the
lengths of the fields before it, provided that the table has these sums.
-/

namespace GeodeNative

open List Option Nat

open PdxFieldType

/-- The bytes that a field may hold: as many as it declares, if its size is fixed. -/
def PdxFieldType.Holds (f : PdxFieldType) (content : List (BitVec 8)) : Prop :=
  f.isVariableLengthType = false → (content.length : ℤ) = f.fixedSize
  deriving Decidable

/-- A field of fixed size takes up space. -/
def PdxFieldType.TakesSpace (f : PdxFieldType) : Prop :=
  f.isVariableLengthType = false → 0 < f.fixedSize
  deriving Decidable

/-- A field without its entry in the position map. -/
def PdxFieldType.unplaced (f : PdxFieldType) : PdxFieldType :=
  { f with vlOffsetIndex := 0, relativeOffset := 0 }

/-- What `Indexed` says about a field. -/
def PdxFieldType.numbering (f : PdxFieldType) : ℕ × Bool × ℤ :=
  (f.sequenceId, f.isVariableLengthType, f.varLenFieldIdx)

namespace FieldCall

def fieldName : FieldCall → String
  | addFixedLengthTypeField fieldName _ _ _ => fieldName
  | addVariableLengthTypeField fieldName _ _ => fieldName

def isVariableLengthType : FieldCall → Bool
  | addFixedLengthTypeField _ _ _ _ => false
  | addVariableLengthTypeField _ _ _ => true

/-- The field that a call adds to a type with so many fields, so many of variable length. -/
def field (sequenceId : ℕ) (varLenFieldIdx : ℤ) : FieldCall → PdxFieldType
  | addFixedLengthTypeField fieldName className typeId size =>
    { fieldName, className, typeId, sequenceId, isVariableLengthType := false,
      fixedSize := size, varLenFieldIdx := 0 }
  | addVariableLengthTypeField fieldName className typeId =>
    { fieldName, className, typeId, sequenceId, isVariableLengthType := true,
      fixedSize := -1, varLenFieldIdx }

def fields : ℕ → ℤ → List FieldCall → List PdxFieldType
  | _, _, [] => []
  | sequenceId, varLenFieldIdx, call :: calls =>
    call.field sequenceId varLenFieldIdx :: fields (sequenceId + 1)
      (varLenFieldIdx + if call.isVariableLengthType then 1 else 0) calls

@[simp] lemma fieldName_field (sequenceId : ℕ) (varLenFieldIdx : ℤ) (call : FieldCall) :
    (call.field sequenceId varLenFieldIdx).fieldName = call.fieldName := by
  cases call <;> rfl

end FieldCall

namespace PdxType

/-! ## The pass from the back -/

variable {f : PdxFieldType} {t u : PdxType} {localPdxType : Option PdxType}
  {fields fields' : List PdxFieldType} {contents : List (List (BitVec 8))}

lemma offsetsFromBack_cons_variable (h : f.isVariableLengthType = true)
    (fields : List PdxFieldType) :
    offsetsFromBack (f :: fields) = (true, f.varLenFieldIdx,
      { f with vlOffsetIndex := f.varLenFieldIdx, relativeOffset := 0 } ::
        (offsetsFromBack fields).2.2) := by
  simp [offsetsFromBack, h]

lemma offsetsFromBack_cons_fixed (h : f.isVariableLengthType = false) (fields : List PdxFieldType) :
    offsetsFromBack (f :: fields) = ((offsetsFromBack fields).1, (offsetsFromBack fields).2.1,
      { f with
        vlOffsetIndex := if (offsetsFromBack fields).1 then (offsetsFromBack fields).2.1 else -1
        relativeOffset := -f.fixedSize + previousOffset (offsetsFromBack fields).2.2 } ::
        (offsetsFromBack fields).2.2) := by
  cases hfound : (offsetsFromBack fields).1 <;> simp [offsetsFromBack, h, hfound]

section Positions

variable {s : StreamLayout} {p : ℤ}

/-- The table of a stream has the positions of the fields of variable length, for contents
that begin at `p`. -/
def TableHolds (t : PdxType) (s : StreamLayout) (p : ℤ) (fields : List PdxFieldType)
    (contents : List (List (BitVec 8))) : Prop :=
  ∀ (i : ℕ) (f : PdxFieldType), fields[i]? = some f → f.isVariableLengthType = true →
    0 ≤ f.varLenFieldIdx ∧ t.readOffset s f.varLenFieldIdx = .ok (p + partStart contents i)

variable {content : List (BitVec 8)}

lemma TableHolds.tail (h : TableHolds t s p (f :: fields) (content :: contents)) :
    TableHolds t s (p + content.length) fields contents := by
  intro i g hg hvar
  have hentry := h (i + 1) g hg hvar
  rw [partStart_cons_succ] at hentry
  push_cast at hentry
  rwa [← add_assoc] at hentry

lemma pdxStreamlen_tail (h : s.pdxStreamlen = p + (content :: contents).flatten.length) :
    s.pdxStreamlen = p + content.length + contents.flatten.length := by
  rw [h, flatten_cons, length_append, cast_add, add_assoc]

/-- The point that the relative offsets of the fields at the front of a list lead back from. -/
structure Anchor (t : PdxType) (s : StreamLayout) (p : ℤ) (fields : List PdxFieldType)
    (a : ℤ) : Prop where
  le : p ≤ a
  previous : previousOffset (offsetsFromBack fields).2.2 = p - a
  found : (offsetsFromBack fields).1 = true →
    0 ≤ (offsetsFromBack fields).2.1 ∧ t.readOffset s (offsetsFromBack fields).2.1 = .ok a
  missing : (offsetsFromBack fields).1 = false → a = s.pdxStreamlen

/-- The position of a field that leads back to a point behind it. -/
lemma positionOf_of_anchor {a : ℤ} (hvar : f.isVariableLengthType = false)
    (hlt : p < a) (hrel : f.relativeOffset = p - a)
    (hindex : f.vlOffsetIndex = -1 ∧ a = s.pdxStreamlen ∨
      0 ≤ f.vlOffsetIndex ∧ t.readOffset s f.vlOffsetIndex = .ok a) :
    t.positionOf f s = .ok p := by
  have hneg : ¬ 0 ≤ f.relativeOffset := by omega
  rw [positionOf, if_neg (by simp [hvar]), fixedLengthFieldPosition, if_neg hneg]
  rcases hindex with ⟨hend, rfl⟩ | ⟨_, hread⟩
  · rw [if_pos hend]
    congr 1
    omega
  · rw [if_neg (by omega), hread, hrel]
    show Except.ok (a + (p - a)) = _
    congr 1
    omega

/-! ## The pass from the front -/

/-- As `TableHolds`, for the fields behind the first one of variable length. -/
def TailTableHolds (t : PdxType) (s : StreamLayout) (p : ℤ) (fields : List PdxFieldType)
    (contents : List (List (BitVec 8))) : Prop :=
  ∀ (i : ℕ) (f : PdxFieldType), fields[i]? = some f → f.isVariableLengthType = true →
    0 < (fields.take i).countP PdxFieldType.isVariableLengthType →
    0 ≤ f.varLenFieldIdx ∧ t.readOffset s f.varLenFieldIdx = .ok (p + partStart contents i)

lemma TailTableHolds.tail_of_fixed (hvar : f.isVariableLengthType = false)
    (h : TailTableHolds t s p (f :: fields) (content :: contents)) :
    TailTableHolds t s (p + content.length) fields contents := by
  intro i g hg hgvar hcount
  have hentry := h (i + 1) g hg hgvar (by simpa [hvar] using hcount)
  rwa [partStart_cons_succ, cast_add, ← add_assoc] at hentry

variable (hfit : Forall₂ PdxFieldType.Holds fields contents)

include hfit

lemma exists_anchor (hlen : s.pdxStreamlen = p + contents.flatten.length)
    (htable : TableHolds t s p fields contents) : ∃ a, Anchor t s p fields a := by
  induction hfit generalizing p with
  | nil =>
    refine ⟨p, le_rfl, ?_, ?_, ?_⟩
    · simp [offsetsFromBack, previousOffset]
    · intro hfound
      simp [offsetsFromBack] at hfound
    · intro _
      simpa using hlen.symm
  | @cons f content fields contents hf _ ih =>
    cases hvar : f.isVariableLengthType with
    | true =>
      -- a field of variable length is itself what the fields before it lead back from
      have hentry := htable 0 f rfl hvar
      refine ⟨p, le_rfl, ?_, ?_, ?_⟩
      · simp [offsetsFromBack_cons_variable hvar, previousOffset]
      · intro _
        simpa [offsetsFromBack_cons_variable hvar] using hentry
      · intro hmissing
        simp [offsetsFromBack_cons_variable hvar] at hmissing
    | false =>
      have hsize := hf hvar
      obtain ⟨a, ha⟩ := ih (pdxStreamlen_tail hlen) htable.tail
      have hle := ha.le
      have hprevious := ha.previous
      refine ⟨a, by omega, ?_, ?_, ?_⟩
      · rw [offsetsFromBack_cons_fixed hvar]
        simp only [previousOffset, head?_cons, map_some, getD_some]
        rw [← previousOffset]
        omega
      · rw [offsetsFromBack_cons_fixed hvar]
        exact ha.found
      · rw [offsetsFromBack_cons_fixed hvar]
        exact ha.missing

/-- The pass from the back places every field, if the table has the positions of all fields
of variable length. -/
lemma positionOf_offsetsFromBack (hspace : ∀ f ∈ fields, f.TakesSpace)
    (hlen : s.pdxStreamlen = p + contents.flatten.length)
    (htable : TableHolds t s p fields contents) (i : ℕ) (f : PdxFieldType)
    (hi : (offsetsFromBack fields).2.2[i]? = some f) :
    t.positionOf f s = .ok (p + partStart contents i) := by
  induction hfit generalizing p i with
  | nil => simp [offsetsFromBack] at hi
  | @cons g content fields contents hg hfit ih =>
    have hspace' : ∀ f ∈ fields, f.TakesSpace := fun f hf => hspace f (mem_cons_of_mem _ hf)
    have hlen' := pdxStreamlen_tail hlen
    have hdone : (offsetsFromBack (g :: fields)).2.2.tail = (offsetsFromBack fields).2.2 := by
      cases hvar : g.isVariableLengthType with
      | true => rw [offsetsFromBack_cons_variable hvar, tail_cons]
      | false => rw [offsetsFromBack_cons_fixed hvar, tail_cons]
    cases i with
    | succ i =>
      have hrest := ih hspace' hlen' htable.tail i (by rw [← hdone, getElem?_tail, hi])
      rw [hrest, partStart_cons_succ, cast_add, add_assoc]
    | zero =>
      rw [partStart_zero]
      cases hvar : g.isVariableLengthType with
      | true =>
        obtain ⟨_, hread⟩ := htable 0 g rfl hvar
        rw [offsetsFromBack_cons_variable hvar, getElem?_cons_zero, some_inj] at hi
        subst hi
        have hne : g.varLenFieldIdx ≠ -1 := by omega
        simpa [positionOf, hvar, variableLengthFieldPosition, hne] using hread
      | false =>
        obtain ⟨a, ha⟩ := exists_anchor hfit hlen' htable.tail
        have hsize := hg hvar
        have hpos := hspace g mem_cons_self hvar
        have hle := ha.le
        rw [offsetsFromBack_cons_fixed hvar, getElem?_cons_zero, some_inj] at hi
        subst hi
        refine positionOf_of_anchor (a := a) hvar (by omega) ?_ ?_
        · show -g.fixedSize + _ = _
          rw [ha.previous]
          omega
        · cases hfound : (offsetsFromBack fields).1 with
          | true => exact .inr (by simpa using ha.found hfound)
          | false => exact .inl ⟨by simp, ha.missing hfound⟩

/-- Both passes together place every field. -/
lemma positionOf_offsetsFromFront (hspace : ∀ f ∈ fields, f.TakesSpace) (hp : 0 ≤ p)
    (hlen : s.pdxStreamlen = p + contents.flatten.length)
    (htable : TailTableHolds t s p fields contents) (i : ℕ) (f : PdxFieldType)
    (hi : (offsetsFromFront p (offsetsFromBack fields).2.2)[i]? = some f) :
    t.positionOf f s = .ok (p + partStart contents i) := by
  induction hfit generalizing p i with
  | nil => simp [offsetsFromBack, offsetsFromFront] at hi
  | @cons g content fields contents hg hfit ih =>
    have hspace' : ∀ f ∈ fields, f.TakesSpace := fun f hf => hspace f (mem_cons_of_mem _ hf)
    have hlen' := pdxStreamlen_tail hlen
    cases hvar : g.isVariableLengthType with
    | true =>
      simp only [offsetsFromBack_cons_variable hvar, offsetsFromFront, if_pos hvar] at hi
      cases i with
      | zero =>
        rw [getElem?_cons_zero, some_inj] at hi
        subst hi
        simp [positionOf, hvar, variableLengthFieldPosition]
      | succ i =>
        -- the first field of variable length ends the pass from the front
        have htail : TableHolds t s (p + content.length) fields contents := by
          intro j g' hg' hgvar
          have hentry := htable (j + 1) g' hg' hgvar (by simp [hvar])
          rwa [partStart_cons_succ, cast_add, ← add_assoc] at hentry
        rw [positionOf_offsetsFromBack hfit hspace' hlen' htail i f hi, partStart_cons_succ,
          cast_add, add_assoc]
    | false =>
      have hsize := hg hvar
      simp only [offsetsFromBack_cons_fixed hvar, offsetsFromFront, hvar, Bool.false_eq_true,
        if_false, ← hsize] at hi
      cases i with
      | zero =>
        rw [getElem?_cons_zero, some_inj] at hi
        subst hi
        simp [positionOf, fixedLengthFieldPosition, hp]
      | succ i =>
        rw [ih hspace' (by omega) hlen' (htable.tail_of_fixed hvar) i hi, partStart_cons_succ,
          cast_add, add_assoc]

end Positions

/-! ## Types whose fields are numbered -/

/-- The fields of a type are numbered in their order, and the fields of variable length in
theirs. -/
structure Indexed (t : PdxType) : Prop where
  sequenceId_eq : ∀ (i : ℕ) (f : PdxFieldType), t.pdxFieldTypes[i]? = some f → f.sequenceId = i
  varLenFieldIdx_eq : ∀ (i : ℕ) (f : PdxFieldType), t.pdxFieldTypes[i]? = some f →
    f.isVariableLengthType = true →
    f.varLenFieldIdx = (t.pdxFieldTypes.take i).countP PdxFieldType.isVariableLengthType
  numberOfVarLenFields_eq :
    t.numberOfVarLenFields = t.pdxFieldTypes.countP PdxFieldType.isVariableLengthType

/-- The map of a type leads from the name of each field to the field. -/
def Named (t : PdxType) : Prop :=
  ∀ (name : String) (i : ℕ), t.fieldNameVsPdxType.find? name = some i ↔
    ∃ f, t.pdxFieldTypes[i]? = some f ∧ f.fieldName = name

/-- A type that fields are being added to. -/
structure Growing (t : PdxType) : Prop extends Indexed t where
  named : t.Named
  varLenFieldIdx : t.isVarLenFieldAdded = true → t.varLenFieldIdx + 1 = t.numberOfVarLenFields
  isVarLenFieldAdded : t.isVarLenFieldAdded = false →
    t.varLenFieldIdx = 0 ∧ t.numberOfVarLenFields = 0

lemma growing_create (className : String) (isLocal expectDomainClass : Bool) :
    (create className isLocal expectDomainClass).Growing where
  sequenceId_eq i f hf := by simp [create] at hf
  varLenFieldIdx_eq i f hf := by simp [create] at hf
  numberOfVarLenFields_eq := rfl
  named := by
    intro _ _
    simp [create]
  varLenFieldIdx h := by simp [create] at h
  isVarLenFieldAdded _ := ⟨rfl, rfl⟩

/-- A type with one more field, which is numbered as the next one. -/
lemma indexed_of_append (ht : t.Indexed) (hfields : u.pdxFieldTypes = t.pdxFieldTypes ++ [f])
    (hseq : f.sequenceId = t.pdxFieldTypes.length)
    (hidx : f.isVariableLengthType = true → f.varLenFieldIdx = t.numberOfVarLenFields)
    (hnumber : u.numberOfVarLenFields =
      t.numberOfVarLenFields + if f.isVariableLengthType then 1 else 0) : u.Indexed := by
  constructor
  · intro i g hg
    rw [hfields, getElem?_append_singleton_eq_some_iff] at hg
    rcases hg with hold | ⟨rfl, rfl⟩
    · exact ht.sequenceId_eq i g hold
    · exact hseq
  · intro i g hg hvar
    rw [hfields, getElem?_append_singleton_eq_some_iff] at hg
    rw [hfields]
    rcases hg with hold | ⟨rfl, rfl⟩
    · have hlt := (List.getElem?_eq_some_iff.mp hold).1
      rw [take_append_of_le_length hlt.le]
      exact ht.varLenFieldIdx_eq i g hold hvar
    · rw [take_left, hidx hvar, ht.numberOfVarLenFields_eq]
  · rw [hnumber, hfields, ht.numberOfVarLenFields_eq]
    cases hvar : f.isVariableLengthType <;> simp [hvar]

lemma named_pushField (ht : t.Named)
    (hnew : t.fieldNameVsPdxType.find? f.fieldName = none) : (t.pushField f).Named := by
  intro name i
  simp only [pushField, SortedMap.find?_insert, hnew, getElem?_append_singleton_eq_some_iff]
  by_cases hname : name = f.fieldName
  · rw [if_pos hname, some_inj]
    constructor
    · rintro rfl
      exact ⟨f, .inr ⟨rfl, rfl⟩, hname.symm⟩
    · rintro ⟨g, hold | ⟨hi, -⟩, hgname⟩
      · -- the name was not known
        have hknown := (ht name i).mpr ⟨g, hold, hgname⟩
        rw [hname, hnew] at hknown
        cases hknown
      · exact hi.symm
  · rw [if_neg hname, ht name i]
    constructor
    · rintro ⟨g, hg, hgname⟩
      exact ⟨g, .inl hg, hgname⟩
    · rintro ⟨g, hold | ⟨-, rfl⟩, hgname⟩
      · exact ⟨g, hold, hgname⟩
      · exact absurd hgname.symm hname

/-! ## Adding fields -/

/-- The names, ids and flags of two types are the same. -/
structure SameHeader (t u : PdxType) : Prop where
  className : u.className = t.className
  geodeTypeId : u.geodeTypeId = t.geodeTypeId
  isLocal : u.isLocal = t.isLocal
  isJavaClass : u.isJavaClass = t.isJavaClass

lemma SameHeader.trans {v : PdxType} (htu : SameHeader t u) (huv : SameHeader u v) :
    SameHeader t v where
  className := huv.className.trans htu.className
  geodeTypeId := huv.geodeTypeId.trans htu.geodeTypeId
  isLocal := huv.isLocal.trans htu.isLocal
  isJavaClass := huv.isJavaClass.trans htu.isJavaClass

/-- A type takes a field with a new name. -/
lemma addField_of_new (ht : t.Growing) {call : FieldCall}
    (hnew : t.fieldNameVsPdxType.find? call.fieldName = none) :
    ∃ u, t.addField call = .ok u ∧ u.Growing ∧ SameHeader t u ∧
      u.pdxFieldTypes = t.pdxFieldTypes ++
        [call.field t.pdxFieldTypes.length t.numberOfVarLenFields] ∧
      u.numberOfVarLenFields =
        t.numberOfVarLenFields + if call.isVariableLengthType then 1 else 0 := by
  cases call with
  | addFixedLengthTypeField fieldName className typeId size =>
    have hadd : t.addField (.addFixedLengthTypeField fieldName className typeId size) =
        .ok (t.pushField (FieldCall.field t.pdxFieldTypes.length t.numberOfVarLenFields
          (.addFixedLengthTypeField fieldName className typeId size))) := by
      rw [FieldCall.fieldName] at hnew
      rw [addField, addFixedLengthTypeField, hnew]
      rfl
    refine ⟨_, hadd, ⟨?_, ?_, ?_, ?_⟩, ⟨rfl, rfl, rfl, rfl⟩, rfl, (add_zero _).symm⟩
    · exact indexed_of_append ht.toIndexed rfl rfl (fun h => by cases h) (add_zero _).symm
    · exact named_pushField ht.named hnew
    · exact ht.varLenFieldIdx
    · exact ht.isVarLenFieldAdded
  | addVariableLengthTypeField fieldName className typeId =>
    -- the index of the next field is the number of fields before it
    have hidx : (if t.isVarLenFieldAdded then t.varLenFieldIdx + 1 else t.varLenFieldIdx) =
        t.numberOfVarLenFields := by
      cases hadded : t.isVarLenFieldAdded with
      | true => simpa using ht.varLenFieldIdx hadded
      | false =>
        obtain ⟨hzero, hnone⟩ := ht.isVarLenFieldAdded hadded
        simp [hzero, hnone]
    have hadd : t.addField (.addVariableLengthTypeField fieldName className typeId) = .ok ({ t with
          varLenFieldIdx := t.numberOfVarLenFields
          numberOfVarLenFields := t.numberOfVarLenFields + 1
          isVarLenFieldAdded := true }.pushField
            (FieldCall.field t.pdxFieldTypes.length t.numberOfVarLenFields
              (.addVariableLengthTypeField fieldName className typeId))) := by
      rw [FieldCall.fieldName] at hnew
      rw [addField, addVariableLengthTypeField, hnew, hidx]
      rfl
    refine ⟨_, hadd, ⟨?_, ?_, ?_, ?_⟩, ⟨rfl, rfl, rfl, rfl⟩, rfl, rfl⟩
    · exact indexed_of_append ht.toIndexed rfl rfl (fun _ => rfl) rfl
    · exact named_pushField ht.named hnew
    · intro _
      rfl
    · intro hadded
      cases hadded

/-- A type takes fields with new names, which are then numbered behind its own. -/
lemma foldlM_addField (ht : t.Growing) (calls : List FieldCall)
    (hnames : (calls.map FieldCall.fieldName).Nodup)
    (hnew : ∀ call ∈ calls, t.fieldNameVsPdxType.find? call.fieldName = none) :
    ∃ u, calls.foldlM addField t = .ok u ∧ u.Growing ∧ SameHeader t u ∧
      u.pdxFieldTypes = t.pdxFieldTypes ++
        FieldCall.fields t.pdxFieldTypes.length t.numberOfVarLenFields calls := by
  induction calls generalizing t with
  | nil => exact ⟨t, rfl, ht, ⟨rfl, rfl, rfl, rfl⟩, by simp [FieldCall.fields]⟩
  | cons call calls ih =>
    obtain ⟨hfresh, hnames⟩ := nodup_cons.mp hnames
    obtain ⟨u, hu, hgrowing, hheader, hfields, hnumber⟩ :=
      addField_of_new ht (hnew call mem_cons_self)
    have hnew' : ∀ c ∈ calls, u.fieldNameVsPdxType.find? c.fieldName = none := by
      intro c hc
      rw [eq_none_iff_forall_ne_some]
      intro i hi
      obtain ⟨f, hf, hname⟩ := (hgrowing.named c.fieldName i).mp hi
      rw [hfields, getElem?_append_singleton_eq_some_iff] at hf
      rcases hf with hold | ⟨-, rfl⟩
      · have hknown := (ht.named c.fieldName i).mpr ⟨f, hold, hname⟩
        rw [hnew c (mem_cons_of_mem _ hc)] at hknown
        cases hknown
      · rw [FieldCall.fieldName_field] at hname
        exact hfresh (hname ▸ mem_map_of_mem hc)
    obtain ⟨v, hv, hvgrowing, hvheader, hvfields⟩ := ih hgrowing hnames hnew'
    refine ⟨v, ?_, hvgrowing, hheader.trans hvheader, ?_⟩
    · rw [foldlM_cons, hu]
      exact hv
    · rw [hvfields, hfields, hnumber, append_assoc, length_append]
      rfl

/-- A type made from nothing by calls with distinct names. -/
lemma foldlM_addField_create {className : String} {isLocal expectDomainClass : Bool}
    {calls : List FieldCall} (hnames : (calls.map FieldCall.fieldName).Nodup) :
    ∃ t, calls.foldlM addField (create className isLocal expectDomainClass) = .ok t ∧
      t.Growing ∧ SameHeader (create className isLocal expectDomainClass) t ∧
      t.pdxFieldTypes = FieldCall.fields 0 0 calls :=
  foldlM_addField (growing_create className isLocal expectDomainClass) calls hnames (fun _ _ => rfl)

/-! ## What the position map leaves alone -/

lemma map_unplaced_offsetsFromBack (fields : List PdxFieldType) :
    (offsetsFromBack fields).2.2.map unplaced = fields.map unplaced := by
  induction fields with
  | nil => rfl
  | cons f _ ih =>
    cases hvar : f.isVariableLengthType with
    | true => simpa [offsetsFromBack_cons_variable hvar, unplaced] using ih
    | false => simpa [offsetsFromBack_cons_fixed hvar, unplaced] using ih

lemma map_unplaced_offsetsFromFront (p : ℤ) (fields : List PdxFieldType) :
    (offsetsFromFront p fields).map unplaced = fields.map unplaced := by
  induction fields generalizing p with
  | nil => rfl
  | cons f _ ih =>
    cases hvar : f.isVariableLengthType with
    | true => simp [offsetsFromFront, hvar, unplaced]
    | false => simpa [offsetsFromFront, hvar, unplaced] using ih _

lemma pdxFieldTypes_initializeType (t : PdxType) (localPdxType : Option PdxType) :
    (t.initializeType localPdxType).pdxFieldTypes =
      offsetsFromFront 0 (offsetsFromBack t.pdxFieldTypes).2.2 := by
  cases localPdxType <;> rfl

/-- The position map changes nothing else of a field. -/
lemma map_unplaced_initializeType (t : PdxType) (localPdxType : Option PdxType) :
    (t.initializeType localPdxType).pdxFieldTypes.map unplaced = t.pdxFieldTypes.map unplaced := by
  rw [pdxFieldTypes_initializeType, map_unplaced_offsetsFromFront, map_unplaced_offsetsFromBack]

@[simp] lemma numberOfVarLenFields_initializeType (t : PdxType) (localPdxType : Option PdxType) :
    (t.initializeType localPdxType).numberOfVarLenFields = t.numberOfVarLenFields := by
  cases localPdxType <;> rfl

/-! ## Fields that differ in their positions only -/

lemma exists_of_map_unplaced (h : fields'.map unplaced = fields.map unplaced) {i : ℕ}
    {g : PdxFieldType} (hg : fields'[i]? = some g) :
    ∃ f, fields[i]? = some f ∧ g.unplaced = f.unplaced := by
  have hi := congrArg (fun l => l[i]?) h
  simp only [getElem?_map, hg] at hi
  cases hf : fields[i]? with
  | none => simp [hf] at hi
  | some f => exact ⟨f, rfl, by simpa [hf] using hi⟩

lemma map_eq_of_map_unplaced {β : Type} (p : PdxFieldType → β)
    (hp : ∀ f : PdxFieldType, p f.unplaced = p f) (h : fields'.map unplaced = fields.map unplaced) :
    fields'.map p = fields.map p := by
  have hmap := congrArg (map p) h
  simpa [Function.comp_def, hp] using hmap

lemma Indexed.of_map_numbering (ht : t.Indexed)
    (h : u.pdxFieldTypes.map numbering = t.pdxFieldTypes.map numbering)
    (hnumber : u.numberOfVarLenFields = t.numberOfVarLenFields) : u.Indexed := by
  have hfield : ∀ (i : ℕ) (g : PdxFieldType), u.pdxFieldTypes[i]? = some g →
      ∃ f, t.pdxFieldTypes[i]? = some f ∧ f.numbering = g.numbering := by
    intro i g hg
    have hi := congrArg (fun l => l[i]?) h
    simp only [getElem?_map, hg] at hi
    simpa using hi.symm
  have hcount : ∀ i, (u.pdxFieldTypes.take i).countP isVariableLengthType =
      (t.pdxFieldTypes.take i).countP isVariableLengthType := by
    intro i
    have htake := congrArg (fun l => (l.take i).countP fun n => n.2.1) h
    simpa [← map_take, Function.comp_def, numbering] using htake
  constructor
  · intro i g hg
    obtain ⟨f, hf, hfg⟩ := hfield i g hg
    rw [← ht.sequenceId_eq i f hf]
    exact (congrArg Prod.fst hfg).symm
  · intro i g hg hvar
    obtain ⟨f, hf, hfg⟩ := hfield i g hg
    have hfvar : f.isVariableLengthType = true := (congrArg (fun n => n.2.1) hfg).trans hvar
    rw [hcount, ← ht.varLenFieldIdx_eq i f hf hfvar]
    exact (congrArg (fun n => n.2.2) hfg).symm
  · have hall := hcount (max u.pdxFieldTypes.length t.pdxFieldTypes.length)
    rw [take_of_length_le (le_max_left _ _), take_of_length_le (le_max_right _ _)] at hall
    rw [hnumber, ht.numberOfVarLenFields_eq, hall]

/-- The passes ignore the entries that they replace. -/
lemma offsetsFromBack_map_unplaced (fields : List PdxFieldType) :
    offsetsFromBack (fields.map unplaced) = offsetsFromBack fields := by
  induction fields with
  | nil => rfl
  | cons f _ ih =>
    cases hvar : f.isVariableLengthType with
    | true =>
      rw [map_cons, offsetsFromBack_cons_variable hvar,
        offsetsFromBack_cons_variable (f := f.unplaced) hvar, ih]
      rfl
    | false =>
      rw [map_cons, offsetsFromBack_cons_fixed hvar,
        offsetsFromBack_cons_fixed (f := f.unplaced) hvar, ih]
      rfl

/-- The entries of a type are those of the position map. -/
def Placed (t : PdxType) : Prop :=
  t.pdxFieldTypes = offsetsFromFront 0 (offsetsFromBack t.pdxFieldTypes).2.2

lemma placed_initializeType : (t.initializeType localPdxType).Placed := by
  rw [Placed, ← offsetsFromBack_map_unplaced, map_unplaced_initializeType,
    offsetsFromBack_map_unplaced, pdxFieldTypes_initializeType]

lemma Indexed.initializeType (h : t.Indexed) : (t.initializeType localPdxType).Indexed :=
  h.of_map_numbering (map_eq_of_map_unplaced numbering (fun _ => rfl)
    (map_unplaced_initializeType t localPdxType))
    (numberOfVarLenFields_initializeType t localPdxType)

lemma forall₂_holds_initializeType :
    Forall₂ PdxFieldType.Holds (t.initializeType localPdxType).pdxFieldTypes contents ↔
      Forall₂ PdxFieldType.Holds t.pdxFieldTypes contents := by
  have hmap : ∀ fields : List PdxFieldType,
      List.Forall₂ PdxFieldType.Holds (fields.map unplaced) contents ↔
        List.Forall₂ PdxFieldType.Holds fields contents := by
    intro _
    rw [forall₂_map_left_iff]
    rfl
  rw [← hmap, map_unplaced_initializeType, hmap]

lemma takesSpace_initializeType (h : ∀ f ∈ t.pdxFieldTypes, f.TakesSpace) :
    ∀ f ∈ (t.initializeType localPdxType).pdxFieldTypes, f.TakesSpace := by
  intro g hg hvar
  obtain ⟨_, hi⟩ := mem_iff_getElem?.mp hg
  obtain ⟨f, hf, hgf⟩ := exists_of_map_unplaced (map_unplaced_initializeType t localPdxType) hi
  have hsize : g.unplaced.fixedSize = f.unplaced.fixedSize := by rw [hgf]
  have hfvar : g.unplaced.isVariableLengthType = f.unplaced.isVariableLengthType := by rw [hgf]
  exact (h f (mem_of_getElem? hf) (hfvar.symm.trans hvar)).trans_eq hsize.symm

end PdxType

end GeodeNative
