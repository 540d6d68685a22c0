import GeodeNative.Library.Outcomes
import GeodeNative.Pdx.TypeSpec

/-!
# Sending a type and receiving it

The number of fields of variable length is not part of the descriptor of a type. The
receiver computes it from the index of the last one, with a case of its own for the
index 0. A type that was built by adding fields has this index; `mergeVersion` stores the
number itself in its place, so that a receiver of a new merged type counts one field too
many and looks for all offsets in the wrong entry of the table.
-/

namespace GeodeNative

open List

open PdxFieldType

namespace PdxFieldType

/-- What a descriptor must keep of a field: its name, kind, size and index among the fields of
variable length. -/
def description (f : PdxFieldType) : String × PdxFieldTypes × ℤ × ℤ :=
  (f.fieldName, f.typeId, f.fixedSize, f.varLenFieldIdx)

/-- A field without the name of its class, which is not sent. -/
def anonymous (f : PdxFieldType) : PdxFieldType :=
  { f with className := "" }

end PdxFieldType

variable {t : PdxType} {call : FieldCall}

namespace PdxType

/-! ## What a descriptor keeps -/

/-- Two types lay out an object in the same way. -/
structure AlikeLayout (t u : PdxType) : Prop where
  className_eq : u.className = t.className
  fields_eq : u.pdxFieldTypes.map PdxFieldType.description =
    t.pdxFieldTypes.map PdxFieldType.description
  number_eq : u.numberOfVarLenFields = t.numberOfVarLenFields
  position_eq : ∀ (i : ℤ) (s : StreamLayout), u.getFieldPosition i s = t.getFieldPosition i s

/-- The type that is received lays out an object as the one that was sent. -/
def RoundTrips (localPdxType : Option PdxType) (t : PdxType) : Prop :=
  AlikeLayout t (fromData t.toData localPdxType)

/-- The number of fields of variable length that the receiver computes. -/
def countedByReceiver (t : PdxType) : ℤ :=
  if t.varLenFieldIdx ≠ 0 then t.varLenFieldIdx + 1
  else if t.pdxFieldTypes.any PdxFieldType.isVariableLengthType then 1 else 0

lemma offsetsFromBack_map_anonymous (fields : List PdxFieldType) :
    offsetsFromBack (fields.map anonymous) =
      ((offsetsFromBack fields).1, (offsetsFromBack fields).2.1,
        (offsetsFromBack fields).2.2.map anonymous) := by
  induction fields with
  | nil => rfl
  | cons f fields ih =>
    have hprev : previousOffset ((offsetsFromBack fields).2.2.map anonymous) =
        previousOffset (offsetsFromBack fields).2.2 := by
      cases (offsetsFromBack fields).2.2 <;> rfl
    cases hvar : f.isVariableLengthType with
    | true =>
      rw [map_cons, offsetsFromBack_cons_variable hvar,
        offsetsFromBack_cons_variable (f := f.anonymous) hvar, ih]
      rfl
    | false =>
      rw [map_cons, offsetsFromBack_cons_fixed hvar,
        offsetsFromBack_cons_fixed (f := f.anonymous) hvar, ih]
      rw [hprev]
      rfl

lemma offsetsFromFront_map_anonymous (p : ℤ) (fields : List PdxFieldType) :
    offsetsFromFront p (fields.map anonymous) = (offsetsFromFront p fields).map anonymous := by
  induction fields generalizing p with
  | nil => rfl
  | cons f _ ih =>
    cases hvar : f.isVariableLengthType with
    | true => simp [offsetsFromFront, hvar, anonymous]
    | false =>
      have hanonymous : f.anonymous.isVariableLengthType = false := hvar
      simp only [map_cons, offsetsFromFront, hvar, hanonymous, Bool.false_eq_true, if_false]
      exact congrArg _ (ih (p + f.fixedSize))

variable {localPdxType : Option PdxType}

section

variable (hstandard : ∀ f ∈ t.pdxFieldTypes, f.Standard)

include hstandard

lemma fromData_fields_toData :
    t.toData.fields.map PdxFieldType.fromData = t.pdxFieldTypes.map PdxFieldType.anonymous := by
  rw [toData, map_map]
  exact map_congr_left fun f hf => PdxFieldType.fromData_toData (hstandard f hf)

/-- The fields that are received are the ones that were sent, but for the names of their
classes. -/
lemma pdxFieldTypes_fromData (hplaced : t.Placed) : (fromData t.toData localPdxType).pdxFieldTypes =
      t.pdxFieldTypes.map PdxFieldType.anonymous := by
  rw [fromData, pdxFieldTypes_initializeType]
  rw [fromData_fields_toData hstandard, offsetsFromBack_map_anonymous,
    offsetsFromFront_map_anonymous, ← hplaced]

/-- A type survives the trip exactly when the receiver counts its fields of variable length as
the sender does. -/
lemma roundTrips_iff (hplaced : t.Placed) :
    t.RoundTrips localPdxType ↔ t.countedByReceiver = t.numberOfVarLenFields := by
  have hnumber : (fromData t.toData localPdxType).numberOfVarLenFields = t.countedByReceiver := by
    rw [fromData, numberOfVarLenFields_initializeType]
    rw [fromData_fields_toData hstandard, any_map]
    rfl
  have hfields : (fromData t.toData localPdxType).pdxFieldTypes =
      t.pdxFieldTypes.map anonymous := pdxFieldTypes_fromData hstandard hplaced
  refine ⟨fun h => hnumber.symm.trans h.number_eq, fun h => ?_⟩
  refine ⟨?_, ?_, hnumber.trans h, fun i s => ?_⟩
  · cases localPdxType <;> rfl
  · rw [hfields, map_map]
    rfl
  · rw [getFieldPosition, getFieldPosition, hfields, getElem?_map]
    cases t.pdxFieldTypes[i.toNat]? with
    | none => rfl
    | some f =>
      rw [Option.map_some]
      have hposition : (fromData t.toData localPdxType).positionOf f.anonymous s =
          t.positionOf f s := by
        simp only [positionOf, variableLengthFieldPosition, fixedLengthFieldPosition, readOffset,
          hnumber.trans h]
        rfl
      dsimp only
      rw [hposition]

end

/-! ## Types that are added to and merged -/

lemma standard_initializeType (h : ∀ f ∈ t.pdxFieldTypes, f.Standard) :
    ∀ f ∈ (t.initializeType localPdxType).pdxFieldTypes, f.Standard := by
  intro _ hg
  obtain ⟨_, hi⟩ := mem_iff_getElem?.mp hg
  obtain ⟨f, hf, hgf⟩ := exists_of_map_unplaced (map_unplaced_initializeType t localPdxType) hi
  exact (h f (mem_of_getElem? hf)).of_unplaced hgf

lemma any_isVariableLengthType_initializeType (t : PdxType) (localPdxType : Option PdxType) :
    (t.initializeType localPdxType).pdxFieldTypes.any isVariableLengthType =
      t.pdxFieldTypes.any isVariableLengthType := by
  have hmap := map_eq_of_map_unplaced isVariableLengthType (fun _ => rfl)
    (map_unplaced_initializeType t localPdxType)
  have hany := congrArg (any · id) hmap
  rwa [any_map, any_map] at hany

lemma countedByReceiver_initializeType (t : PdxType) (localPdxType : Option PdxType) :
    (t.initializeType localPdxType).countedByReceiver = t.countedByReceiver := by
  have hidx : (t.initializeType localPdxType).varLenFieldIdx = t.varLenFieldIdx := by
    cases localPdxType <;> rfl
  rw [countedByReceiver, countedByReceiver, any_isVariableLengthType_initializeType, hidx]

/-- A call that succeeds adds its field. -/
lemma Growing.of_addField {u : PdxType} (ht : t.Growing)
    (h : t.addField call = .ok u) : u.Growing ∧ u.pdxFieldTypes =
      t.pdxFieldTypes ++ [call.field t.pdxFieldTypes.length t.numberOfVarLenFields] := by
  have hnew : t.fieldNameVsPdxType.find? call.fieldName = none := by
    by_contra hknown
    replace hknown := Option.isSome_iff_ne_none.mpr hknown
    cases call with
    | addFixedLengthTypeField fieldName =>
      rw [FieldCall.fieldName] at hknown
      rw [addField, addFixedLengthTypeField, if_pos hknown] at h
      cases h
    | addVariableLengthTypeField fieldName =>
      rw [FieldCall.fieldName] at hknown
      rw [addField, addVariableLengthTypeField, if_pos hknown] at h
      cases h
  obtain ⟨_, hv, hgrowing, -, hfields, -⟩ := addField_of_new ht hnew
  rw [h, Except.ok.injEq] at hv
  subst hv
  exact ⟨hgrowing, hfields⟩

end PdxType

/-- The size that a call gives is the one of its kind. -/
def FieldCall.Sized : FieldCall → Prop
  | addFixedLengthTypeField _ _ typeId size => typeId.getFixedTypeSize = size ∧ size ≠ -1
  | addVariableLengthTypeField _ _ typeId => typeId.getFixedTypeSize = -1

instance : DecidablePred FieldCall.Sized
  | .addFixedLengthTypeField _ _ typeId size =>
    inferInstanceAs (Decidable (typeId.getFixedTypeSize = size ∧ size ≠ -1))
  | .addVariableLengthTypeField _ _ typeId =>
    inferInstanceAs (Decidable (typeId.getFixedTypeSize = -1))

lemma FieldCall.Sized.standard_field (h : call.Sized) (sequenceId : ℕ)
    (varLenFieldIdx : ℤ) : (call.field sequenceId varLenFieldIdx).Standard := by
  cases call with
  | addFixedLengthTypeField =>
    obtain ⟨hsize, hne⟩ := h
    exact ⟨by simp [field, hsize, hne], hsize.symm⟩
  | addVariableLengthTypeField =>
    exact ⟨⟨fun _ => h, fun _ => rfl⟩, h.symm⟩

namespace PdxType

/-- A type that was added to sends the index of its last field of variable length, and its
fields have the lengths of their kinds. -/
lemma growing_of_foldlM {calls : List FieldCall} (hsized : ∀ call ∈ calls, call.Sized)
    {u : PdxType} (ht : t.Growing) (hstandard : ∀ f ∈ t.pdxFieldTypes, f.Standard)
    (h : calls.foldlM addField t = .ok u) : u.Growing ∧ ∀ f ∈ u.pdxFieldTypes, f.Standard := by
  induction calls generalizing t with
  | nil =>
    obtain rfl : t = u := Except.ok.inj h
    exact ⟨ht, hstandard⟩
  | cons call _ ih =>
    rw [foldlM_cons] at h
    cases hadd : t.addField call with
    | error =>
      rw [hadd] at h
      cases h
    | ok =>
      rw [hadd] at h
      obtain ⟨hgrowing, hfields⟩ := ht.of_addField hadd
      refine ih (fun c hc => hsized c (mem_cons_of_mem call hc)) hgrowing ?_ h
      intro f hf
      rw [hfields, mem_append, mem_singleton] at hf
      rcases hf with hf | rfl
      · exact hstandard f hf
      · exact (hsized call mem_cons_self).standard_field _ _

/-- Fields that are equal have the same length. -/
lemma isVariableLengthType_of_equals {f g : PdxFieldType} (hf : f.Standard) (hg : g.Standard)
    (h : f.equals g = true) : f.isVariableLengthType = g.isVariableLengthType := by
  have hkind : f.typeId = g.typeId := congrArg Prod.snd ((f.equals_iff g).mp h)
  rw [Bool.eq_iff_iff, hf.isVariableLengthType, hg.isVariableLengthType, hkind]

lemma mergeFields_spec {other fields : List PdxFieldType} (varLenFields : ℤ)
    (hother : ∀ f ∈ other, f.Standard) (hfields : ∀ f ∈ fields, f.Standard) :
    (∀ f ∈ (mergeFields other fields varLenFields).1, f.Standard) ∧
      (mergeFields other fields varLenFields).1.any isVariableLengthType =
        (fields.any isVariableLengthType || other.any isVariableLengthType) ∧
      (other.any isVariableLengthType = false →
        (mergeFields other fields varLenFields).2 = varLenFields) := by
  induction other generalizing fields varLenFields with
  | nil => exact ⟨hfields, (Bool.or_false _).symm, fun _ => rfl⟩
  | cons it rest ih =>
    have hit := hother it mem_cons_self
    have hrest : ∀ f ∈ rest, f.Standard := fun f hf => hother f (mem_cons_of_mem it hf)
    rw [mergeFields, any_cons]
    by_cases hknown : fields.any fun it2 => it2.equals it
    · -- a field that both versions have
      rw [if_pos hknown]
      obtain ⟨hstandard, hany, hnumber⟩ := ih varLenFields hrest hfields
      refine ⟨hstandard, ?_, fun hnone => hnumber (Bool.or_eq_false_iff.mp hnone).2⟩
      obtain ⟨g, hg, hequals⟩ := any_eq_true.mp hknown
      have hvar := isVariableLengthType_of_equals (hfields g hg) hit hequals
      rw [hany]
      cases hitvar : it.isVariableLengthType with
      | false => rw [Bool.false_or]
      | true =>
        have htrue : fields.any isVariableLengthType = true :=
          any_eq_true.mpr ⟨g, hg, hvar.trans hitvar⟩
        rw [htrue, Bool.true_or, Bool.true_or]
    · rw [if_neg hknown]
      refine (ih _ hrest ?_).imp_right (And.imp ?_ ?_)
      · intro f hf
        rw [mem_append, mem_singleton] at hf
        rcases hf with hf | rfl
        · exact hfields f hf
        · exact ⟨hit.isVariableLengthType, hit.fixedSize⟩
      · intro hany
        rw [hany, any_append, any_cons, any_nil, Bool.or_false, Bool.or_assoc]
      · intro hnumber hnone
        obtain ⟨hitvar, hnone⟩ := Bool.or_eq_false_iff.mp hnone
        rw [hnumber hnone, hitvar]
        rfl

end PdxType

/-! ## Origins of a type -/

/-- Neither version has a field of variable length. -/
def PdxType.NothingToCount (t other : PdxType) : Prop :=
  t.numberOfVarLenFields = 0 ∧ t.pdxFieldTypes.any PdxFieldType.isVariableLengthType = false ∧
    other.pdxFieldTypes.any PdxFieldType.isVariableLengthType = false

/-- How a type that is sent to the server came about. -/
inductive TypeOrigin
  /-- a class added its fields -/
  | added (className : String) (isLocal expectDomainClass : Bool) (calls : List FieldCall)
    (registered : Option PdxType)
  /-- a type was merged with one that was received; `receiver` and `registered` are the local
  types that the registry has when it arrives and when the merged type is initialized -/
  | merged (mine : TypeOrigin) (remote : WireType) (receiver registered : Option PdxType)

namespace TypeOrigin

/-- The type, once it is initialized. -/
def pdxType : TypeOrigin → Except PdxError PdxType
  | added className isLocal expectDomainClass calls registered => do
    let t ← calls.foldlM PdxType.addField (.create className isLocal expectDomainClass)
    return t.initializeType registered
  | merged mine remote receiver registered => do
    let t ← mine.pdxType
    return (t.mergeVersion (.fromData remote receiver)).initializeType registered

/-- Every call gives the size of its kind. -/
def Sized : TypeOrigin → Prop
  | added _ _ _ calls _ => ∀ call ∈ calls, call.Sized
  | merged mine _ _ _ => mine.Sized

/-- `Sized` is decided by looking at the calls. -/
def decideSized : (origin : TypeOrigin) → Decidable origin.Sized
  | added _ _ _ calls _ => inferInstanceAs (Decidable (∀ call ∈ calls, call.Sized))
  | merged mine _ _ _ => mine.decideSized

instance : DecidablePred Sized :=
  decideSized

/-- The type has as many fields of variable length as its index says: it was added to or
received, or is new from two versions without such fields. -/
def Numbered : TypeOrigin → Prop
  | added .. => True
  | merged mine remote receiver _ => ∀ t, mine.pdxType = .ok t →
    if t.isLocalTypeContains (.fromData remote receiver) then mine.Numbered
    else t.isRemoteTypeContains (.fromData remote receiver) = true ∨
      t.NothingToCount (.fromData remote receiver)

end TypeOrigin

namespace PdxType

/-- The number itself, sent in place of the last index, is received rightly only for none. -/
lemma number_received_iff (n : ℤ) (foundVarLenType : Bool) :
    (if (if 0 < n then n else 0) ≠ 0 then (if 0 < n then n else 0) + 1
      else if foundVarLenType = true then 1 else 0) = n ↔ n = 0 ∧ foundVarLenType = false := by
  by_cases hpos : 0 < n
  · rw [if_pos hpos]
    omega
  · rw [if_neg hpos]
    cases foundVarLenType
    · simp [eq_comm]
    · simp
      omega

variable {other : PdxType}

/-- A new merged type is counted rightly only if it has nothing to count. -/
lemma countedByReceiver_mergeVersion_iff (ht : ∀ f ∈ t.pdxFieldTypes, f.Standard)
    (hother : ∀ f ∈ other.pdxFieldTypes, f.Standard) (hlocal : t.isLocalTypeContains other = false)
    (hremote : t.isRemoteTypeContains other = false) :
    (t.mergeVersion other).countedByReceiver = (t.mergeVersion other).numberOfVarLenFields ↔
      t.NothingToCount other := by
  obtain ⟨-, hany, hnumber⟩ := mergeFields_spec t.numberOfVarLenFields hother ht
  rw [mergeVersion, hlocal, hremote]
  refine (number_received_iff _ _).trans ?_
  show (mergeFields other.pdxFieldTypes t.pdxFieldTypes t.numberOfVarLenFields).2 = 0 ∧
    (mergeFields other.pdxFieldTypes t.pdxFieldTypes t.numberOfVarLenFields).1.any _ = false ↔ _
  rw [hany, Bool.or_eq_false_iff]
  refine and_congr_left fun hnone => ?_
  rw [hnumber hnone.2]

end PdxType

namespace TypeOrigin

lemma pdxType_spec {origin : TypeOrigin} (hsized : origin.Sized) (ht : origin.pdxType = .ok t) :
    (∀ f ∈ t.pdxFieldTypes, f.Standard) ∧ t.Placed ∧
      (t.countedByReceiver = t.numberOfVarLenFields ↔ origin.Numbered) := by
  induction origin generalizing t with
  | added className isLocal expectDomainClass =>
    obtain ⟨u, hu, rfl⟩ := exists_of_bind_pure_eq_ok ht
    obtain ⟨hgrowing, hstandard⟩ := PdxType.growing_of_foldlM hsized
      (PdxType.growing_create className isLocal expectDomainClass) (fun f hf => by cases hf) hu
    refine ⟨PdxType.standard_initializeType hstandard, PdxType.placed_initializeType, ?_⟩
    rw [PdxType.countedByReceiver_initializeType, PdxType.numberOfVarLenFields_initializeType]
    exact iff_of_true (hgrowing.sendable.numberOfVarLenFields_eq hgrowing.toIndexed).symm trivial
  | merged mine remote receiver registered ih =>
    obtain ⟨u, hu, rfl⟩ := exists_of_bind_pure_eq_ok ht
    obtain ⟨hstandard, -, hcounted⟩ := ih hsized hu
    have hremote : ∀ f ∈ (PdxType.fromData remote receiver).pdxFieldTypes, f.Standard := by
      refine PdxType.standard_initializeType fun _ hf => ?_
      obtain ⟨_, -, rfl⟩ := mem_map.mp hf
      exact ⟨by simp [PdxFieldType.fromData], rfl⟩
    refine ⟨PdxType.standard_initializeType ?_, PdxType.placed_initializeType, ?_⟩
    · rw [PdxType.mergeVersion]
      split_ifs
      · exact hstandard
      · exact hremote
      · exact (PdxType.mergeFields_spec u.numberOfVarLenFields hremote hstandard).1
    rw [PdxType.countedByReceiver_initializeType, PdxType.numberOfVarLenFields_initializeType]
    have hnumbered : (merged mine remote receiver registered).Numbered ↔
        if u.isLocalTypeContains (.fromData remote receiver) then mine.Numbered
        else u.isRemoteTypeContains (.fromData remote receiver) = true ∨
          u.NothingToCount (.fromData remote receiver) := by
      refine ⟨fun h => h u hu, fun h v hv => ?_⟩
      rw [hu, Except.ok.injEq] at hv
      rwa [← hv]
    rw [hnumbered]
    cases hlocal : u.isLocalTypeContains (.fromData remote receiver) with
    | true =>
      rw [PdxType.mergeVersion, if_pos hlocal]
      exact hcounted
    | false =>
      cases hcontains : u.isRemoteTypeContains (.fromData remote receiver) with
      | true =>
        rw [PdxType.mergeVersion, hlocal, hcontains]
        refine iff_of_true ?_ (.inl rfl)
        -- a received type counts as its receiver does
        simp only [if_true, Bool.false_eq_true, if_false]
        rw [PdxType.fromData, PdxType.countedByReceiver_initializeType,
          PdxType.numberOfVarLenFields_initializeType]
        rfl
      | false =>
        rw [PdxType.countedByReceiver_mergeVersion_iff hstandard hremote hlocal hcontains]
        exact (or_iff_right Bool.false_ne_true).symm

/-- A type is received with the layout that it was sent with exactly when it is not a new merged
type with fields of variable length. -/
theorem roundTrips_iff_numbered (receiver : Option PdxType) (origin : TypeOrigin)
    (hsized : origin.Sized) (t : PdxType) (ht : origin.pdxType = .ok t) :
    t.RoundTrips receiver ↔ origin.Numbered := by
  obtain ⟨hstandard, hplaced, hcounted⟩ := pdxType_spec hsized ht
  rw [PdxType.roundTrips_iff hstandard hplaced, hcounted]

def numberAndText (text : String) : TypeOrigin :=
  .added "Class" true true [.addFixedLengthTypeField "a" "int" .int 4,
    .addVariableLengthTypeField text "string" .string] none

theorem roundTrips_numberAndText : ∃ t, (numberAndText "s").pdxType = .ok t ∧
    t.numberOfVarLenFields = 1 ∧ t.RoundTrips none :=
  ⟨_, rfl, rfl,
    (roundTrips_iff_numbered none (numberAndText "s") (by decide +kernel) _ rfl).mpr trivial⟩

/-- Another version of the class, as it is received. -/
def otherNumberAndText : WireType where
  className := "Class"
  noJavaClass := false
  geodeTypeId := 7
  varLenFieldIdx := 0
  fields := [⟨"a", 0, 0, .int, 0, 0, false⟩, ⟨"t", 1, 0, .string, 4, -1, false⟩]

/-- The receiver of a merged type with two fields of variable length counts three. -/
theorem not_roundTrips_of_merged : ∃ t,
    (merged (numberAndText "s") otherNumberAndText none none).pdxType = .ok t ∧
      t.numberOfVarLenFields = 2 ∧ (PdxType.fromData t.toData none).numberOfVarLenFields = 3 ∧
      ¬ t.RoundTrips none := by
  refine ⟨_, rfl, rfl, by decide +kernel, fun h => ?_⟩
  have hnumber := h.number_eq
  revert hnumber
  decide +kernel

end TypeOrigin

end GeodeNative
