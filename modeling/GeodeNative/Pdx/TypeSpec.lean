import GeodeNative.Pdx.Layout
import GeodeNative.Pdx.Readers

/-!
# Types that describe a list of fields

What a type says about the fields of a class: their names and kinds, in their order.
The calls that collect a type, the trip over the wire and the position map all keep this
description, and with it everything that the position of a field depends on.
-/

namespace GeodeNative

open List Option

open PdxFieldType PdxTypes

/-! ## Sizes of kinds -/

variable {kind : PdxFieldTypes}

lemma PdxFieldTypes.declaredSize_eq_some_iff {size : ℤ} :
    kind.declaredSize = some size ↔ kind.getFixedTypeSize = size ∧ size ≠ -1 := by
  cases kind <;> simp [declaredSize, getFixedTypeSize, kPdxBooleanSize,
    kPdxByteSize, kPdxCharSize, kPdxShortSize,
    kPdxIntegerSize, kPdxFloatSize, kPdxLongSize,
    kPdxDoubleSize, kPdxDateSize] <;> omega

lemma PdxFieldTypes.declaredSize_eq_none_iff :
    kind.declaredSize = none ↔ kind.getFixedTypeSize = -1 := by
  cases kind <;> simp [declaredSize, getFixedTypeSize, kPdxBooleanSize,
    kPdxCharSize, kPdxIntegerSize, kPdxLongSize,
    kPdxDateSize]

lemma PdxFieldTypes.getFixedTypeSize_pos
    (h : kind.getFixedTypeSize ≠ -1) : 0 < kind.getFixedTypeSize := by
  cases kind <;> first | decide | exact absurd rfl h

namespace PdxFieldType

/-- What a class knows about a field. -/
def signature (f : PdxFieldType) : String × PdxFieldTypes :=
  (f.fieldName, f.typeId)

/-- The field has the length that its kind calls for. -/
structure Standard (f : PdxFieldType) : Prop where
  isVariableLengthType : f.isVariableLengthType = true ↔ f.typeId.getFixedTypeSize = -1
  fixedSize : f.fixedSize = f.typeId.getFixedTypeSize

/-- Fields are compared by name and type. -/
lemma equals_iff (f g : PdxFieldType) : f.equals g = true ↔ f.signature = g.signature := by
  rw [equals, decide_eq_true_iff, Prod.mk.injEq]
  constructor
  · rintro ⟨hname, hkind⟩
    exact ⟨hname.symm, hkind.symm⟩
  · rintro ⟨hname, hkind⟩
    exact ⟨hname.symm, hkind.symm⟩

variable {f g : PdxFieldType}

lemma Standard.takesSpace (h : f.Standard) : f.TakesSpace := by
  intro hvar
  rw [h.fixedSize]
  apply PdxFieldTypes.getFixedTypeSize_pos
  intro hsize
  rw [h.isVariableLengthType.mpr hsize] at hvar
  cases hvar

lemma Standard.of_unplaced (hf : f.Standard) (h : g.unplaced = f.unplaced) : g.Standard := by
  obtain ⟨hvar, hsize⟩ := hf
  simp only [unplaced, mk.injEq] at h
  obtain ⟨-, -, hkind, -, hgvar, -, hgsize, -⟩ := h
  constructor
  · rw [hgvar, hkind]
    exact hvar
  · rw [hgsize, hkind]
    exact hsize

lemma signature_of_unplaced (h : g.unplaced = f.unplaced) : g.signature = f.signature := by
  simp only [unplaced, mk.injEq] at h
  obtain ⟨hname, -, hkind, -⟩ := h
  rw [signature, signature, hname, hkind]

/-- The wire keeps everything of a field but the name of its class. -/
lemma fromData_toData (h : f.Standard) : fromData f.toData = { f with className := "" } := by
  obtain ⟨hvar, hsize⟩ := h
  by_cases hkind : f.typeId.getFixedTypeSize = -1
  · simp [fromData, toData, hsize, hkind, hvar.mpr hkind]
  · have hfixed : f.isVariableLengthType = false := by
      rwa [← Bool.not_eq_true, hvar]
    simp [fromData, toData, hsize, hkind, hfixed]

end PdxFieldType

section

variable (fieldName : String) (kind : PdxFieldTypes) (sequenceId : ℕ) (varLenFieldIdx : ℤ)

/-- The fields that the calls of the collecting reader and writer add have the length that
their kind calls for. -/
lemma FieldCall.standard_ofKind :
    ((FieldCall.ofKind fieldName kind).field sequenceId varLenFieldIdx).Standard := by
  cases hsize : kind.declaredSize with
  | some =>
    obtain ⟨hfixed, hne⟩ := PdxFieldTypes.declaredSize_eq_some_iff.mp hsize
    constructor <;> simp [ofKind, field, hsize, hfixed, hne]
  | none =>
    have hfixed := PdxFieldTypes.declaredSize_eq_none_iff.mp hsize
    constructor <;> simp [ofKind, field, hsize, hfixed]

lemma FieldCall.signature_ofKind :
    ((FieldCall.ofKind fieldName kind).field sequenceId varLenFieldIdx).signature =
      (fieldName, kind) := by
  cases hsize : kind.declaredSize <;> simp [ofKind, field, hsize, signature]

@[simp] lemma FieldCall.fieldName_ofKind :
    (FieldCall.ofKind fieldName kind).fieldName = fieldName := by
  cases hsize : kind.declaredSize <;> simp [ofKind, FieldCall.fieldName, hsize]

end

namespace PdxType

/-! ## The description of a type -/

/-- A type has these fields, numbered in their order, with the lengths of their kinds. -/
structure Describes (t : PdxType) (fields : List (String × PdxFieldTypes)) : Prop where
  signature : t.pdxFieldTypes.map PdxFieldType.signature = fields
  standard : ∀ f ∈ t.pdxFieldTypes, f.Standard
  indexed : t.Indexed

variable {t : PdxType} {fields : List (String × PdxFieldTypes)} {localPdxType : Option PdxType}
  {i : ℕ} {f : PdxFieldType}

lemma Describes.length_eq (h : t.Describes fields) : t.pdxFieldTypes.length = fields.length := by
  rw [← h.signature, length_map]

lemma Describes.getElem? (h : t.Describes fields)
    (hf : t.pdxFieldTypes[i]? = some f) : fields[i]? = some f.signature := by
  rw [← h.signature, getElem?_map, hf, map_some]

lemma Describes.takesSpace (h : t.Describes fields) : ∀ f ∈ t.pdxFieldTypes, f.TakesSpace :=
  fun f hf => (h.standard f hf).takesSpace

lemma Describes.of_map_unplaced {u : PdxType} (ht : t.Describes fields)
    (h : u.pdxFieldTypes.map unplaced = t.pdxFieldTypes.map unplaced)
    (hnumber : u.numberOfVarLenFields = t.numberOfVarLenFields) : u.Describes fields where
  signature := by
    rw [← ht.signature]
    exact map_eq_of_map_unplaced PdxFieldType.signature (fun _ => rfl) h
  standard := by
    intro _ hg
    obtain ⟨_, hi⟩ := mem_iff_getElem?.mp hg
    obtain ⟨f, hf, hgf⟩ := exists_of_map_unplaced h hi
    exact (ht.standard f (mem_of_getElem? hf)).of_unplaced hgf
  indexed := ht.indexed.of_map_numbering (map_eq_of_map_unplaced numbering (fun _ => rfl) h) hnumber

/-- Placing the fields keeps the description. -/
lemma Describes.initializeType (h : t.Describes fields) :
    (t.initializeType localPdxType).Describes fields :=
  h.of_map_unplaced (map_unplaced_initializeType t localPdxType)
    (numberOfVarLenFields_initializeType t localPdxType)

/-! ## The map of names -/

/-- Names that are known keep their entries. -/
lemma find?_foldr_insert_of_known (names : SortedMap String ℕ) (fs : List PdxFieldType) (k : ℕ)
    (hknown : ∀ f ∈ fs, (names.find? f.fieldName).isSome) (name : String) :
    ((fs.zipIdx k).foldr (fun (f, i) names => names.insert f.fieldName i) names).find? name =
      names.find? name := by
  induction fs generalizing k with
  | nil => rfl
  | cons f _ ih =>
    have hrest := ih (k + 1) fun g hg => hknown g (mem_cons_of_mem _ hg)
    rw [zipIdx_cons, foldr_cons, SortedMap.find?_insert]
    split_ifs with hname
    · obtain ⟨_, hi⟩ := isSome_iff_exists.mp (hknown f mem_cons_self)
      rw [← hname] at hi ⊢
      rw [hrest, hi, getD_some]
    · exact hrest

/-- Distinct names lead to their fields, if no name was known. -/
lemma find?_foldr_insert_empty (fs : List PdxFieldType) (k : ℕ)
    (hnodup : (fs.map fieldName).Nodup) (name : String) (i : ℕ) :
    ((fs.zipIdx k).foldr (fun (f, i) names => names.insert f.fieldName i)
      (.empty : SortedMap String ℕ)).find? name = some i ↔
      ∃ j f, fs[j]? = some f ∧ f.fieldName = name ∧ k + j = i := by
  induction fs generalizing k name i with
  | nil => simp
  | cons f fs ih =>
    obtain ⟨hfresh, hnodup⟩ := nodup_cons.mp hnodup
    have hrest := ih (k + 1) hnodup
    set names := (fs.zipIdx (k + 1)).foldr (fun (f, i) names => names.insert f.fieldName i)
      (.empty : SortedMap String ℕ)
    -- no field behind the first one has its name
    have hother : ∀ (j : ℕ) (g : PdxFieldType), fs[j]? = some g → g.fieldName ≠ f.fieldName := by
      intro j g hg hname
      rw [← hname] at hfresh
      exact hfresh (mem_map_of_mem (mem_of_getElem? hg))
    have hnone : names.find? f.fieldName = none := by
      rw [eq_none_iff_forall_ne_some]
      intro i hi
      obtain ⟨j, g, hg, hname, -⟩ := (hrest f.fieldName i).mp hi
      exact hother j g hg hname
    rw [zipIdx_cons, foldr_cons, SortedMap.find?_insert, hnone, getD_none]
    constructor
    · intro hfind
      by_cases hname : name = f.fieldName
      · rw [if_pos hname, some_inj] at hfind
        exact ⟨0, f, rfl, hname.symm, hfind⟩
      · rw [if_neg hname, hrest] at hfind
        obtain ⟨j, g, hg, hgname, rfl⟩ := hfind
        exact ⟨j + 1, g, hg, hgname, by omega⟩
    · rintro ⟨j, g, hg, rfl, rfl⟩
      cases j with
      | zero =>
        obtain rfl : f = g := by simpa using hg
        rw [if_pos rfl, Nat.add_zero]
      | succ j =>
        rw [if_neg (hother j g hg), hrest]
        exact ⟨j, g, hg, rfl, by omega⟩

lemma fieldNameVsPdxType_initializeType (t : PdxType) (localPdxType : Option PdxType) :
    (t.initializeType localPdxType).fieldNameVsPdxType = t.pdxFieldTypes.zipIdx.foldr
      (fun (f, i) names => names.insert f.fieldName i) t.fieldNameVsPdxType := by
  cases localPdxType <;> rfl

/-- The position map is made once the names are known, or makes them known. -/
lemma named_initializeType
    (h : t.Named ∨ t.fieldNameVsPdxType = .empty ∧ (t.pdxFieldTypes.map fieldName).Nodup) :
    (t.initializeType localPdxType).Named := by
  have hfields := map_unplaced_initializeType t localPdxType
  have hsame : ∀ (name : String) (i : ℕ), (∃ f, t.pdxFieldTypes[i]? = some f ∧ f.fieldName = name) ↔
        ∃ f, (t.initializeType localPdxType).pdxFieldTypes[i]? = some f ∧ f.fieldName = name := by
    intro name i
    constructor
    · rintro ⟨f, hf, hname⟩
      obtain ⟨g, hg, hgf⟩ := exists_of_map_unplaced hfields.symm hf
      have hsig := signature_of_unplaced hgf
      exact ⟨g, hg, (congrArg Prod.fst hsig).symm.trans hname⟩
    · rintro ⟨_, hg, hname⟩
      obtain ⟨f, hf, hgf⟩ := exists_of_map_unplaced hfields hg
      have hsig := signature_of_unplaced hgf
      exact ⟨f, hf, (congrArg Prod.fst hsig).symm.trans hname⟩
  intro _ i
  rw [fieldNameVsPdxType_initializeType, ← hsame]
  rcases h with hnamed | ⟨hempty, hnodup⟩
  · rw [find?_foldr_insert_of_known, hnamed]
    intro f hf
    obtain ⟨j, hj⟩ := mem_iff_getElem?.mp hf
    rw [(hnamed f.fieldName j).mpr ⟨f, hj, rfl⟩]
    rfl
  · rw [hempty, find?_foldr_insert_empty _ _ hnodup]
    constructor
    · rintro ⟨_, f, hf, hname, rfl⟩
      exact ⟨f, by rwa [Nat.zero_add], hname⟩
    · rintro ⟨f, hf, hname⟩
      exact ⟨i, f, hf, hname, Nat.zero_add i⟩

/-! ## Collecting a type -/

variable {name className : String} {isLocal expectDomainClass : Bool}

lemma Named.find?_eq_none (hnamed : t.Named) (h : t.Describes fields)
    (hname : name ∉ fields.map Prod.fst) : t.fieldNameVsPdxType.find? name = none := by
  rw [eq_none_iff_forall_ne_some]
  intro i hi
  obtain ⟨_, hf, rfl⟩ := (hnamed name i).mp hi
  exact hname (mem_map_of_mem (mem_of_getElem? (h.getElem? hf)))

/-- A type that a class has collected: it has these fields so far, each with the class name of
its kind. -/
structure Collects (t : PdxType) (fields : List (String × PdxFieldTypes)) : Prop where
  growing : t.Growing
  describes : t.Describes fields
  className : ∀ f ∈ t.pdxFieldTypes, f.className = f.typeId.fieldClassName

lemma collects_create : (create className isLocal expectDomainClass).Collects [] := by
  have hgrowing := growing_create className isLocal expectDomainClass
  refine ⟨hgrowing, ⟨rfl, ?_, hgrowing.toIndexed⟩, ?_⟩
  · intro f hf
    cases hf
  · intro _ hf
    cases hf

/-- A field with a new name is collected. -/
lemma Collects.addField (h : t.Collects fields) {fieldName : String}
    (hname : fieldName ∉ fields.map Prod.fst) :
    ∃ u, t.addField (.ofKind fieldName kind) = .ok u ∧ SameHeader t u ∧
      u.Collects (fields ++ [(fieldName, kind)]) := by
  have hnew : t.fieldNameVsPdxType.find? (FieldCall.ofKind fieldName kind).fieldName = none := by
    rw [FieldCall.fieldName_ofKind]
    exact h.growing.named.find?_eq_none h.describes hname
  obtain ⟨u, hu, hgrowing, hheader, hfields, -⟩ := addField_of_new h.growing hnew
  refine ⟨u, hu, hheader, hgrowing, ⟨?_, ?_, hgrowing.toIndexed⟩, ?_⟩
  · rw [hfields, map_append, h.describes.signature, map_singleton, FieldCall.signature_ofKind]
  · intro f hf
    rw [hfields, mem_append, mem_singleton] at hf
    rcases hf with hf | rfl
    · exact h.describes.standard f hf
    · exact FieldCall.standard_ofKind fieldName kind _ _
  · intro f hf
    rw [hfields, mem_append, mem_singleton] at hf
    rcases hf with hf | rfl
    · exact h.className f hf
    · cases hsize : kind.declaredSize <;> simp [FieldCall.ofKind, FieldCall.field, hsize]

/-- A type made by collecting fields with distinct names. -/
lemma collects_foldlM (hnodup : (fields.map Prod.fst).Nodup) :
    ∃ t, (fields.map fun f => FieldCall.ofKind f.1 f.2).foldlM PdxType.addField
        (create className isLocal expectDomainClass) = .ok t ∧
      SameHeader (create className isLocal expectDomainClass) t ∧ t.Collects fields := by
  induction fields using reverseRecOn with
  | nil =>
    exact ⟨_, rfl, ⟨rfl, rfl, rfl, rfl⟩, collects_create⟩
  | append_singleton fields f ih =>
    rw [map_append, nodup_append] at hnodup
    obtain ⟨hfront, -, hdisjoint⟩ := hnodup
    obtain ⟨t, ht, hheader, hcollects⟩ := ih hfront
    have hname : f.1 ∉ fields.map Prod.fst := fun hmem =>
      hdisjoint f.1 hmem f.1 (mem_singleton_self _) rfl
    obtain ⟨u, hu, huheader, hucollects⟩ := hcollects.addField hname
    refine ⟨u, ?_, hheader.trans huheader, hucollects⟩
    rw [map_append, foldlM_append, ht]
    show [FieldCall.ofKind f.1 f.2].foldlM PdxType.addField t = .ok u
    rw [foldlM_cons, hu]
    rfl

/-! ## Over the wire -/

/-- The index that a type sends tells how many fields of variable length it has. -/
def Sendable (t : PdxType) : Prop :=
  t.varLenFieldIdx = 0 ∧ t.numberOfVarLenFields = 0 ∨
    t.varLenFieldIdx + 1 = t.numberOfVarLenFields

lemma Growing.sendable (h : t.Growing) : t.Sendable := by
  cases hadded : t.isVarLenFieldAdded with
  | false => exact .inl (h.isVarLenFieldAdded hadded)
  | true => exact .inr (h.varLenFieldIdx hadded)

/-- The receiver of a type counts as many fields of variable length as the sender. -/
lemma Sendable.numberOfVarLenFields_eq (h : t.Sendable) (hindexed : t.Indexed) :
    t.numberOfVarLenFields = if t.varLenFieldIdx ≠ 0 then t.varLenFieldIdx + 1
      else if t.pdxFieldTypes.any isVariableLengthType then 1 else 0 := by
  have hcount := hindexed.numberOfVarLenFields_eq
  rcases h with ⟨hzero, hnone⟩ | hidx
  · have hany : t.pdxFieldTypes.any isVariableLengthType = false := by
      have hzero' : t.pdxFieldTypes.countP isVariableLengthType = 0 := by omega
      simpa [countP_eq_zero] using hzero'
    simp [hzero, hnone, hany]
  · by_cases hzero : t.varLenFieldIdx = 0
    · have hany : t.pdxFieldTypes.any isVariableLengthType = true := by
        have hpos : 0 < t.pdxFieldTypes.countP isVariableLengthType := by omega
        simpa [countP_pos_iff] using hpos
      simp [hany, ← hidx]
    · rw [if_pos hzero, hidx]

/-- A type that is sent describes the same fields. -/
lemma Describes.fromData (h : t.Describes fields) (hsend : t.Sendable) :
    (fromData t.toData localPdxType).Describes fields := by
  have hfields : (t.toData.fields.map PdxFieldType.fromData) =
      t.pdxFieldTypes.map fun f => { f with className := "" } := by
    rw [toData, List.map_map]
    exact map_congr_left fun f hf => PdxFieldType.fromData_toData (h.standard f hf)
  refine Describes.initializeType ?_
  refine ⟨?_, ?_, ?_⟩
  · show (t.toData.fields.map PdxFieldType.fromData).map PdxFieldType.signature = fields
    rw [hfields, List.map_map]
    exact h.signature
  · show ∀ f ∈ t.toData.fields.map PdxFieldType.fromData, f.Standard
    rw [hfields]
    intro _ hg
    obtain ⟨f, hf, rfl⟩ := mem_map.mp hg
    exact ⟨(h.standard f hf).isVariableLengthType, (h.standard f hf).fixedSize⟩
  · refine h.indexed.of_map_numbering ?_ ?_
    · show (t.toData.fields.map PdxFieldType.fromData).map PdxFieldType.numbering = _
      rw [hfields, List.map_map]
      rfl
    · have hany : (t.pdxFieldTypes.map fun f => { f with className := "" }).any
          isVariableLengthType =
          t.pdxFieldTypes.any isVariableLengthType := by
        rw [List.any_map]
        rfl
      rw [hsend.numberOfVarLenFields_eq h.indexed, ← hany, ← hfields]
      rfl

/-! ## Types that are ready for use -/

/-- A type describes fields, has their positions and knows their names. -/
structure Ready (t : PdxType) (fields : List (String × PdxFieldTypes)) : Prop
    extends Describes t fields where
  placed : t.Placed
  named : t.Named

lemma Describes.map_fieldName (h : t.Describes fields) :
    t.pdxFieldTypes.map fieldName = fields.map Prod.fst := by
  rw [← h.signature, List.map_map]
  rfl

lemma Describes.ready_initializeType (h : t.Describes fields) (localPdxType : Option PdxType)
    (hnames : t.Named ∨ t.fieldNameVsPdxType = .empty ∧ (fields.map Prod.fst).Nodup) :
    (t.initializeType localPdxType).Ready fields where
  toDescribes := h.initializeType
  placed := placed_initializeType
  named := named_initializeType (by rwa [h.map_fieldName])

lemma Ready.initializeType (h : t.Ready fields) (localPdxType : Option PdxType) :
    (t.initializeType localPdxType).Ready fields :=
  h.ready_initializeType localPdxType (.inl h.named)

/-- The id and the origin of a type do not matter for its fields. -/
lemma Ready.of_header (h : t.Ready fields) {typeId : ℤ} :
    { t with geodeTypeId := typeId, isLocal := isLocal }.Ready fields :=
  ⟨⟨h.signature, h.standard, ⟨h.indexed.sequenceId_eq, h.indexed.varLenFieldIdx_eq,
    h.indexed.numberOfVarLenFields_eq⟩⟩, h.placed, h.named⟩

lemma Describes.ready_fromData (h : t.Describes fields) (hsend : t.Sendable)
    (hnodup : (fields.map Prod.fst).Nodup) (localPdxType : Option PdxType) :
    (PdxType.fromData t.toData localPdxType).Ready fields where
  toDescribes := h.fromData hsend
  placed := placed_initializeType
  named := by
    refine named_initializeType (.inr ⟨rfl, ?_⟩)
    have hnames : t.toData.fields.map (PdxFieldType.fieldName ∘ PdxFieldType.fromData) =
        fields.map Prod.fst := by
      rw [← h.map_fieldName, toData, List.map_map]
      rfl
    show ((t.toData.fields.map PdxFieldType.fromData).map PdxFieldType.fieldName).Nodup
    rwa [List.map_map, hnames]

variable (h : t.Ready fields)

include h

/-- Each field is found under its name. -/
lemma Ready.getPdxField_eq
    (hf : t.pdxFieldTypes[i]? = some f) : t.getPdxField f.fieldName = some f := by
  rw [getPdxField, (h.named f.fieldName i).mpr ⟨f, hf, rfl⟩]
  exact hf

/-- A field is found at the start of its part. -/
lemma Ready.getNamedFieldPosition {r : PdxLocalReader} {contents : List (List (BitVec 8))}
    (hfit : List.Forall₂ PdxFieldType.Holds t.pdxFieldTypes contents)
    (hr : r.Opened t (t.parts contents)) {f : String × PdxFieldTypes} (hi : fields[i]? = some f) :
    t.getNamedFieldPosition f.1 r.layout = .ok (partStart contents i) := by
  rw [← h.signature, getElem?_map, map_eq_some_iff] at hi
  obtain ⟨g, hg, rfl⟩ := hi
  have hfield : t.getPdxField g.signature.1 = some g := h.getPdxField_eq hg
  rw [PdxType.getNamedFieldPosition, hfield]
  exact positionOf_of_placed h.indexed h.placed h.takesSpace hfit hr hg

end PdxType

end GeodeNative
