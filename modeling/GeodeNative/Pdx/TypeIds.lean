import GeodeNative.Library.Runs
import GeodeNative.Pdx.TypeSpec

/-!
# The ids of types

`PdxTypeRegistry::getPDXIdForType` gives an id to the type of an instance. It keeps the
ids in a hash map whose keys are types, and asks the server for a new id if the map has
none. Two types are the same key if `operator==` says so, which goes through the fields
in the order of their names, while the layout of an object is in the order in which the
fields were added.
-/

namespace GeodeNative

open FieldCall

open List Option

open PdxType FieldCall

/-! ## Types of a factory -/

/-- The class name that `PdxInstanceFactory` gives to a field of a kind. -/
def PdxFieldTypes.factoryClassName : PdxFieldTypes → String
  | unknown => ""
  | boolean => "bool"
  | byte => "byte"
  | char => "char"
  | short => "short"
  | int => "int"
  | long => "long"
  | float => "float"
  | double => "double"
  | date => "Date"
  | string => "string"
  | object => "Object"
  | booleanArray => "bool[]"
  | charArray => "char[]"
  | byteArray => "byte[]"
  | shortArray => "short[]"
  | intArray => "int32[]"
  | longArray => "int64[]"
  | floatArray => "float[]"
  | doubleArray => "double[]"
  | stringArray => "string[]"
  | objectArray => "Object[]"
  | arrayOfByteArrays => "byte[][]"

lemma PdxFieldTypes.factoryClassName_injective : Function.Injective factoryClassName := by
  intro a b h
  cases a <;> cases b <;> first | rfl | exact absurd h (by decide)

/-- The call that a `write` of a factory makes. -/
def FieldCall.ofFactory (fieldName : String) (kind : PdxFieldTypes) : FieldCall :=
  match kind.declaredSize with
  | some size => .addFixedLengthTypeField fieldName kind.factoryClassName kind size
  | none => .addVariableLengthTypeField fieldName kind.factoryClassName kind

/-- What a `PdxInstanceFactory` was told: the class and the fields that were written. Names
are distinct, since a `write` of a known name throws. -/
structure PdxInstanceFactory where
  className : String
  expectDomainClass : Bool
  fields : List (String × PdxFieldTypes)
  nodup : (fields.map Prod.fst).Nodup
  deriving DecidableEq

namespace PdxInstanceFactory

def pdxType (p : PdxInstanceFactory) : PdxType :=
  match (p.fields.map fun f => FieldCall.ofFactory f.1 f.2).foldlM PdxType.addField
      (PdxType.create p.className false p.expectDomainClass) with
  | .ok t => t.initializeType none
  -- never, the names are distinct
  | .error _ => PdxType.create p.className false p.expectDomainClass

end PdxInstanceFactory

/-! ## The map of ids -/

/-- `std::hash<PdxType>`, with `std::hash<std::string>` as a parameter. -/
def PdxType.hash (strHash : String → BitVec 64) (t : PdxType) : BitVec 64 :=
  t.fieldNameVsPdxType.entries.foldl (fun result entry =>
    match t.pdxFieldTypes[entry.2]? with
    | some pdxPtr => (result ^^^ (strHash pdxPtr.className <<< 1)) ^^^
        (strHash pdxPtr.fieldName <<< 1)
    | none => result) (strHash t.className)

/-- The registry as far as ids of instances go, with what the server was asked for. -/
structure TypeIds where
  /-- `pdxTypeToTypeIdMap_` -/
  pdxTypeToTypeIdMap : List (PdxInstanceFactory × ℤ)
  /-- the types that the server has given ids to, in this order -/
  assigned : List PdxInstanceFactory
  /-- the types that ids were returned for, the last one first -/
  issued : List (PdxInstanceFactory × ℤ)

namespace TypeIds

variable (strHash : String → BitVec 64) (assign : ℕ → ℤ)

def empty : TypeIds :=
  ⟨[], [], []⟩

/-- `find` of the hash map. -/
def find? (s : TypeIds) (nType : PdxInstanceFactory) : Option (PdxInstanceFactory × ℤ) :=
  s.pdxTypeToTypeIdMap.find? fun entry =>
    entry.1.pdxType.hash strHash = nType.pdxType.hash strHash ∧
      entry.1.pdxType.eq nType.pdxType

/-- The server is asked: the id is a new one, and is kept unless the map has the type. -/
def ask (s : TypeIds) (nType : PdxInstanceFactory) : ℤ × TypeIds :=
  let typeId := assign s.assigned.length
  (typeId, { s with
      assigned := s.assigned ++ [nType]
      pdxTypeToTypeIdMap :=
        if (s.find? strHash nType).isSome then s.pdxTypeToTypeIdMap
        else s.pdxTypeToTypeIdMap ++ [(nType, typeId)] })

def getPDXIdForType (s : TypeIds) (nType : PdxInstanceFactory) : ℤ × TypeIds :=
  match s.find? strHash nType with
  | some (_, typeId) => if typeId ≠ 0 then (typeId, s) else s.ask strHash assign nType
  | none => s.ask strHash assign nType

/-- The registry after a call, which notes the id that was returned. -/
def step (s : TypeIds) (nType : PdxInstanceFactory) : TypeIds :=
  let (typeId, s) := s.getPDXIdForType strHash assign nType
  { s with issued := (nType, typeId) :: s.issued }

end TypeIds

/-- What the position of a field depends on. -/
def PdxFieldType.place (f : PdxFieldType) : ℕ × Bool × ℤ × ℤ × ℤ × ℤ :=
  (f.sequenceId, f.isVariableLengthType, f.fixedSize, f.varLenFieldIdx, f.vlOffsetIndex,
    f.relativeOffset)

/-- Every name has the same place in two types, and its position in any stream is the same. -/
def PdxType.SameLayout (t u : PdxType) : Prop :=
  ∀ name, (t.getPdxField name).map PdxFieldType.place =
      (u.getPdxField name).map PdxFieldType.place ∧
    ∀ s : StreamLayout, t.getNamedFieldPosition name s = u.getNamedFieldPosition name s

namespace TypeIds

/-- Types with the same id have the same layout. -/
def IdsTellLayout (s : TypeIds) : Prop :=
  ∀ a ∈ s.issued, ∀ b ∈ s.issued, a.2 = b.2 → a.1.pdxType.SameLayout b.1.pdxType

/-- The type that the map finds for a type, with its id, has the same fields in the same
order. -/
def FindsSameOrder (strHash : String → BitVec 64) (s : TypeIds) (nType : PdxInstanceFactory) :
    Prop :=
  ∀ entry, s.find? strHash nType = some entry → entry.2 ≠ 0 → entry.1.fields = nType.fields

end TypeIds

/-! ## What a factory adds -/

lemma FieldCall.field_ofFactory (fieldName : String) (kind : PdxFieldTypes) (sequenceId : ℕ)
    (varLenFieldIdx : ℤ) : (ofFactory fieldName kind).field sequenceId varLenFieldIdx =
      { (ofKind fieldName kind).field sequenceId varLenFieldIdx with
        className := kind.factoryClassName } := by
  unfold ofFactory ofKind
  cases kind.declaredSize <;> rfl

@[simp] lemma FieldCall.fieldName_ofFactory (fieldName : String) (kind : PdxFieldTypes) :
    (ofFactory fieldName kind).fieldName = fieldName := by
  unfold ofFactory
  cases kind.declaredSize <;> rfl

/-- The fields that the calls of a factory add: their names and kinds in order, each with the
length of its kind and the class name of the factory. -/
lemma FieldCall.fields_ofFactory {fields : List (String × PdxFieldTypes)} (sequenceId : ℕ)
    (varLenFieldIdx : ℤ) :
    (FieldCall.fields sequenceId varLenFieldIdx
        (fields.map fun f => FieldCall.ofFactory f.1 f.2)).map PdxFieldType.signature = fields ∧
      ∀ f ∈ FieldCall.fields sequenceId varLenFieldIdx
          (fields.map fun f => FieldCall.ofFactory f.1 f.2),
        f.Standard ∧ f.className = f.typeId.factoryClassName := by
  induction fields generalizing sequenceId varLenFieldIdx with
  | nil => exact ⟨rfl, by simp [fields]⟩
  | cons f fields ih =>
    obtain ⟨hsignature, hfields⟩ := ih (sequenceId + 1) (varLenFieldIdx +
      if (ofFactory f.1 f.2).isVariableLengthType then 1 else 0)
    have hstandard := standard_ofKind f.1 f.2 sequenceId varLenFieldIdx
    have hsig := signature_ofKind f.1 f.2 sequenceId varLenFieldIdx
    have hkind := congrArg Prod.snd hsig
    refine ⟨?_, ?_⟩
    · rw [map_cons, FieldCall.fields, map_cons, hsignature, FieldCall.field_ofFactory]
      exact congrArg (· :: fields) hsig
    · rw [map_cons, FieldCall.fields, FieldCall.field_ofFactory]
      intro g hg
      rcases mem_cons.mp hg with rfl | hg
      · exact ⟨⟨hstandard.isVariableLengthType, hstandard.fixedSize⟩,
          (congrArg PdxFieldTypes.factoryClassName hkind).symm⟩
      · exact hfields g hg

namespace PdxInstanceFactory

variable {p q : PdxInstanceFactory}

/-- The type of a factory: its fields are a function of what was written. -/
lemma exists_pdxType_eq (p : PdxInstanceFactory) :
    ∃ t : PdxType, p.pdxType = t.initializeType none ∧ t.Growing ∧
      t.className = p.className ∧ t.isJavaClass = p.expectDomainClass ∧
      t.pdxFieldTypes = FieldCall.fields 0 0 (p.fields.map fun f =>
        FieldCall.ofFactory f.1 f.2) := by
  have hnames : ((p.fields.map fun f => ofFactory f.1 f.2).map fieldName).Nodup := by
    simpa [Function.comp_def] using p.nodup
  obtain ⟨t, ht, hgrowing, hheader, hfields⟩ := foldlM_addField_create hnames
  refine ⟨t, ?_, hgrowing, hheader.className, hheader.isJavaClass, hfields⟩
  rw [pdxType, ht]

lemma ready_pdxType (p : PdxInstanceFactory) : p.pdxType.Ready p.fields := by
  obtain ⟨t, ht, hgrowing, -, -, hfields⟩ := p.exists_pdxType_eq
  obtain ⟨hsignature, hstandard⟩ := fields_ofFactory 0 0
  have hdescribes : t.Describes p.fields := by
    refine ⟨?_, ?_, hgrowing.toIndexed⟩
    · rw [hfields, hsignature]
    · rw [hfields]
      exact fun f hf => (hstandard f hf).1
  rw [ht]
  exact hdescribes.ready_initializeType none (.inl hgrowing.named)

lemma className_of_mem {f : PdxFieldType} (hf : f ∈ p.pdxType.pdxFieldTypes) :
    f.className = f.typeId.factoryClassName := by
  obtain ⟨t, ht, -, -, -, hfields⟩ := p.exists_pdxType_eq
  rw [ht] at hf
  obtain ⟨_, hi⟩ := mem_iff_getElem?.mp hf
  obtain ⟨g, hg, hgf⟩ := exists_of_map_unplaced (map_unplaced_initializeType t none) hi
  rw [hfields] at hg
  have hclass := ((fields_ofFactory 0 0).2 g (mem_of_getElem? hg)).2
  have hname : f.unplaced.className = g.unplaced.className := by rw [hgf]
  have hkind : f.unplaced.typeId = g.unplaced.typeId := by rw [hgf]
  exact (hname.trans hclass).trans (congrArg PdxFieldTypes.factoryClassName hkind.symm)

lemma pdxFieldTypes_eq (h : p.fields = q.fields) :
    p.pdxType.pdxFieldTypes = q.pdxType.pdxFieldTypes := by
  obtain ⟨_, ht, -, -, -, htfields⟩ := p.exists_pdxType_eq
  obtain ⟨_, hu, -, -, -, hufields⟩ := q.exists_pdxType_eq
  rw [ht, hu, pdxFieldTypes_initializeType, pdxFieldTypes_initializeType, htfields, hufields, h]

/-- The same fields in the same order give the same layout. -/
lemma sameLayout_of_fields_eq (h : p.fields = q.fields) : p.pdxType.SameLayout q.pdxType := by
  have hfields := pdxFieldTypes_eq h
  have hfind : ∀ name, p.pdxType.fieldNameVsPdxType.find? name =
      q.pdxType.fieldNameVsPdxType.find? name := by
    intro name
    refine ext fun i => ?_
    rw [p.ready_pdxType.named name i, q.ready_pdxType.named name i, hfields]
  have hnumber : p.pdxType.numberOfVarLenFields = q.pdxType.numberOfVarLenFields := by
    rw [p.ready_pdxType.indexed.numberOfVarLenFields_eq,
      q.ready_pdxType.indexed.numberOfVarLenFields_eq, hfields]
  have hget : ∀ name, p.pdxType.getPdxField name = q.pdxType.getPdxField name := by
    intro name
    rw [getPdxField, getPdxField, hfind, hfields]
  have hposition : ∀ (f : PdxFieldType) (s : StreamLayout),
      p.pdxType.positionOf f s = q.pdxType.positionOf f s := by
    intro f s
    simp only [positionOf, variableLengthFieldPosition,
      fixedLengthFieldPosition, readOffset, hnumber]
  intro name
  refine ⟨by rw [hget], ?_⟩
  intro s
  rw [getNamedFieldPosition, getNamedFieldPosition, hget]
  cases q.pdxType.getPdxField name with
  | none => rfl
  | some f => exact hposition f s

end PdxInstanceFactory

/-- Types that `operator==` takes for the same have the same field under a name. -/
lemma PdxType.eq_of_eqFields {t u : PdxType} {these others : List (String × ℕ)}
    (h : eqFields t u these others = true) {name : String} {i j : ℕ} {f g : PdxFieldType}
    (hi : these.lookup name = some i) (hf : t.pdxFieldTypes[i]? = some f)
    (hj : others.lookup name = some j) (hg : u.pdxFieldTypes[j]? = some g) : f.eq g = true := by
  induction these generalizing others with
  | nil => cases hi
  | cons entry _ ih =>
    cases others with
    | nil => cases hj
    | cons =>
      rw [eqFields, Bool.and_eq_true, Bool.and_eq_true, beq_iff_eq] at h
      obtain ⟨⟨hname, hfield⟩, hrest⟩ := h
      rw [SortedMap.lookup_cons_eq_ite] at hi hj
      by_cases heq : name = entry.1
      · rw [if_pos heq, some_inj] at hi
        rw [if_pos (heq.trans hname), some_inj] at hj
        rw [hi, hj, hf, hg] at hfield
        exact hfield
      · rw [if_neg heq] at hi
        rw [if_neg (fun h => heq (h.trans hname.symm))] at hj
        exact ih hrest hi hj

namespace PdxInstanceFactory

variable {p q : PdxInstanceFactory}

/-- Types that are the same key of the map and have the same layout have the same fields in
the same order. -/
lemma fields_eq_of_sameLayout (heq : p.pdxType.eq q.pdxType = true)
    (hlayout : p.pdxType.SameLayout q.pdxType) : p.fields = q.fields := by
  have hp := p.ready_pdxType
  have hq := q.ready_pdxType
  rw [eq, decide_eq_true_iff] at heq
  obtain ⟨-, -, htotal, hfields⟩ := heq
  have hlength : p.fields.length = q.fields.length := by
    rw [getTotalFields, getTotalFields, hp.length_eq, hq.length_eq] at htotal
    omega
  have hfound : ∀ (i : ℕ) (n : String × PdxFieldTypes), p.fields[i]? = some n →
      q.fields[i]? = some n := by
    intro i n hn
    rw [← hp.signature, getElem?_map, map_eq_some_iff] at hn
    obtain ⟨f, hf, rfl⟩ := hn
    have hplace := (hlayout f.fieldName).1
    rw [hp.getPdxField_eq hf] at hplace
    obtain ⟨g, hg, hgplace⟩ := map_eq_some_iff.mp hplace.symm
    obtain ⟨j, hj, hgj⟩ := bind_eq_some_iff.mp hg
    -- the number of a field is its index
    have hindex : j = i := by
      have hsequence : g.sequenceId = f.sequenceId := congrArg Prod.fst hgplace
      rw [hp.indexed.sequenceId_eq i f hf, hq.indexed.sequenceId_eq j g hgj] at hsequence
      exact hsequence
    obtain ⟨g', hg', hname⟩ := (hq.named f.fieldName j).mp hj
    obtain rfl : g = g' := some_inj.mp (hgj.symm.trans hg')
    have hi := (hp.named f.fieldName i).mpr ⟨f, hf, rfl⟩
    have hsame := eq_of_eqFields hfields hi hf hj hgj
    rw [PdxFieldType.eq, decide_eq_true_iff] at hsame
    have hkind : f.typeId = g.typeId := by
      apply PdxFieldTypes.factoryClassName_injective
      rw [← className_of_mem (mem_of_getElem? hf),
        ← className_of_mem (mem_of_getElem? hgj), hsame.1]
    rw [← hindex, hq.toDescribes.getElem? hgj, PdxFieldType.signature, PdxFieldType.signature,
      hname, hkind]
  refine ext_getElem? fun i => ?_
  cases hi : p.fields[i]? with
  | some n => exact (hfound i n hi).symm
  | none =>
    rw [getElem?_eq_none_iff] at hi
    exact (getElem?_eq_none (by omega)).symm

end PdxInstanceFactory

/-! ## Runs -/

namespace TypeIds

variable {strHash : String → BitVec 64} {assign : ℕ → ℤ} {s : TypeIds} {nType : PdxInstanceFactory}

/-- Every id in the map is the one that the server gave to its type, and every id that was
returned is the one of a type with the same fields. -/
structure Consistent (assign : ℕ → ℤ) (s : TypeIds) : Prop where
  pdxTypeToTypeIdMap : ∀ entry ∈ s.pdxTypeToTypeIdMap,
    ∃ i, s.assigned[i]? = some entry.1 ∧ entry.2 = assign i
  issued : ∀ a ∈ s.issued, ∃ i k, s.assigned[i]? = some k ∧ a.2 = assign i ∧
    k.fields = a.1.fields
  /-- every id in the map has been returned for its type -/
  returned : ∀ entry ∈ s.pdxTypeToTypeIdMap, entry ∈ s.issued

/-- What one call does: it returns the id of the type that the map finds, or a new one. -/
lemma step_cases (s : TypeIds) :
    (∃ entry, s.find? strHash nType = some entry ∧ entry.2 ≠ 0 ∧
      s.step strHash assign nType = { s with issued := (nType, entry.2) :: s.issued }) ∨
    ((∀ entry, s.find? strHash nType = some entry → entry.2 = 0) ∧
      s.step strHash assign nType =
        ⟨if (s.find? strHash nType).isSome then s.pdxTypeToTypeIdMap
          else s.pdxTypeToTypeIdMap ++ [(nType, assign s.assigned.length)],
        s.assigned ++ [nType], (nType, assign s.assigned.length) :: s.issued⟩) := by
  unfold step getPDXIdForType
  cases hfind : s.find? strHash nType with
  | none =>
    refine .inr ⟨by simp, ?_⟩
    simp only [ask, hfind]
  | some entry =>
    obtain ⟨k, typeId⟩ := entry
    by_cases hid : typeId ≠ 0
    · refine .inl ⟨(k, typeId), rfl, hid, ?_⟩
      simp only [if_pos hid]
    · refine .inr ⟨?_, ?_⟩
      · intro _ hentry
        obtain rfl := some_inj.mp hentry
        exact not_ne_iff.mp hid
      · simp only [if_neg hid, ask, hfind]

lemma mem_of_find? {entry : PdxInstanceFactory × ℤ} (h : s.find? strHash nType = some entry) :
    entry ∈ s.pdxTypeToTypeIdMap ∧ entry.1.pdxType.eq nType.pdxType = true := by
  refine ⟨mem_of_find?_eq_some h, ?_⟩
  have hfound := find?_some h
  rw [decide_eq_true_iff] at hfound
  exact hfound.2

/-- An index of the types that have ids is one after another type has got one. -/
lemma getElem?_assigned_append {i : ℕ} {k : PdxInstanceFactory} (h : s.assigned[i]? = some k) :
    (s.assigned ++ [nType])[i]? = some k := by
  rw [List.getElem?_append_left (List.getElem?_eq_some_iff.mp h).1, h]

/-- A call that finds a type with the same fields keeps the ids consistent. -/
lemma Consistent.step (h : s.Consistent assign) (hfinds : s.FindsSameOrder strHash nType) :
    (s.step strHash assign nType).Consistent assign := by
  rcases s.step_cases with ⟨entry, hentry, hid, hstep⟩ | ⟨-, hstep⟩
  · rw [hstep]
    refine ⟨h.pdxTypeToTypeIdMap, ?_, ?_⟩
    · intro a ha
      rcases mem_cons.mp ha with rfl | ha
      · obtain ⟨i, hi, hassign⟩ := h.pdxTypeToTypeIdMap entry (mem_of_find? hentry).1
        exact ⟨i, entry.1, hi, hassign, hfinds entry hentry hid⟩
      · exact h.issued a ha
    · intro e he
      exact mem_cons_of_mem _ (h.returned e he)
  · rw [hstep]
    have hnew : (s.assigned ++ [nType])[s.assigned.length]? = some nType := getElem?_concat_length
    -- the map has what it had, and at most the new type with its id
    have hmap : ∀ entry ∈ (if (s.find? strHash nType).isSome then s.pdxTypeToTypeIdMap
        else s.pdxTypeToTypeIdMap ++ [(nType, assign s.assigned.length)]),
        entry ∈ s.pdxTypeToTypeIdMap ∨ entry = (nType, assign s.assigned.length) := by
      intro entry hentry
      split at hentry
      · exact .inl hentry
      · exact (mem_append.mp hentry).imp_right mem_singleton.mp
    refine ⟨?_, ?_, ?_⟩
    · intro entry hentry
      rcases hmap entry hentry with hentry | rfl
      · obtain ⟨i, hi, hassign⟩ := h.pdxTypeToTypeIdMap entry hentry
        exact ⟨i, getElem?_assigned_append hi, hassign⟩
      · exact ⟨s.assigned.length, hnew, rfl⟩
    · intro a ha
      rcases mem_cons.mp ha with rfl | ha
      · exact ⟨s.assigned.length, nType, hnew, rfl, rfl⟩
      · obtain ⟨i, k, hi, hassign, hfields⟩ := h.issued a ha
        exact ⟨i, k, getElem?_assigned_append hi, hassign, hfields⟩
    · intro entry hentry
      rcases hmap entry hentry with hentry | rfl
      · exact mem_cons_of_mem _ (h.returned entry hentry)
      · exact mem_cons_self

/-- Consistent ids tell the layout: the server gives no id twice. -/
lemma Consistent.idsTellLayout (hassign : Function.Injective assign) (h : s.Consistent assign) :
    s.IdsTellLayout := by
  intro a ha b hb hab
  obtain ⟨i, k, hi, hai, hka⟩ := h.issued a ha
  obtain ⟨j, l, hj, hbj, hlb⟩ := h.issued b hb
  obtain rfl : i = j := hassign (hai.symm.trans (hab.trans hbj))
  obtain rfl : k = l := some_inj.mp (hi.symm.trans hj)
  exact PdxInstanceFactory.sameLayout_of_fields_eq (hka.symm.trans hlb)

/-- A call that finds a type with the fields in another order breaks the property at once. -/
lemma findsSameOrder_of_idsTellLayout (h : s.Consistent assign)
    (hids : (s.step strHash assign nType).IdsTellLayout) : s.FindsSameOrder strHash nType := by
  intro entry hentry hid
  obtain ⟨hmem, heq⟩ := mem_of_find? hentry
  rcases s.step_cases with ⟨found, hfound, -, hstep⟩ | ⟨hzero, -⟩
  · obtain rfl : entry = found := some_inj.mp (hentry.symm.trans hfound)
    rw [hstep] at hids
    have hlayout := hids entry (mem_cons_of_mem _ (h.returned entry hmem))
      (nType, entry.2) mem_cons_self rfl
    exact PdxInstanceFactory.fields_eq_of_sameLayout heq hlayout
  · exact absurd (hzero entry hentry) hid

/-- Types with the same id have the same layout throughout a run exactly when no call finds a
type with its fields in another order. -/
theorem idsTellLayout_iff_findsSameOrder (hassign : Function.Injective assign)
    (calls : List PdxInstanceFactory) :
    EveryState (step strHash assign) IdsTellLayout empty calls ↔
      EveryStep (step strHash assign) (FindsSameOrder strHash) empty calls :=
  everyState_iff_everyStep (fun _ _ h hfinds => h.step hfinds) (fun _ h => h.idsTellLayout hassign)
    (fun _ _ h hids => findsSameOrder_of_idsTellLayout h hids) (by constructor <;> simp [empty])

/-- An `int` and a `long` field, in this order. -/
def intThenLong : PdxInstanceFactory :=
  ⟨"Portfolio", true, [("a", .int), ("b", .long)], by decide⟩

/-- The same fields in the other order. -/
def longThenInt : PdxInstanceFactory :=
  ⟨"Portfolio", true, [("b", .long), ("a", .int)], by decide⟩

theorem idsTellLayout_intThenLong :
    EveryState (step (fun s => BitVec.ofNat 64 s.length) fun n => (n : ℤ) + 1) IdsTellLayout empty
      [intThenLong, intThenLong] := by
  refine (idsTellLayout_iff_findsSameOrder ?_ _).mpr ?_
  · intro _ _ h
    simpa using h
  · refine ⟨?_, ?_, trivial⟩
    · intro entry hentry
      cases hentry
    · intro entry hentry _
      obtain rfl : entry = (intThenLong, 1) := by
        rw [← some_inj, ← hentry]
        rfl
      rfl

/-- The two orders get one id. -/
theorem not_idsTellLayout_longThenInt :
    ¬ EveryState (step (fun s => BitVec.ofNat 64 s.length) fun n => (n : ℤ) + 1) IdsTellLayout empty
      [intThenLong, longThenInt] := by
  intro h
  have hlayout := h.last (intThenLong, 1) (by decide) (longThenInt, 1) (by decide) rfl "a"
  exact absurd hlayout.1 (by decide)

end TypeIds

end GeodeNative
