import GeodeNative.Library.Runs
import GeodeNative.Pdx.ReaderSpec
import GeodeNative.Pdx.Streams

/-!
# Reading one object after the other

Objects of one class and one remote type are read with a registry that knows no type at
first. The first object is read by a collecting reader; from then on the registry has
the local type of the class and the remote type, and objects are read by the local or the
remote reader. The results below say when every read returns the value of the field with
its name and kind.
-/

namespace GeodeNative

open List

open PdxHelper PdxLocalReader PdxReaderWithTypeCollector PdxType PdxTypeRegistry

/-! ## The registry -/

variable {p : PdxType}

namespace PdxTypeRegistry

variable (reg : PdxTypeRegistry)

lemma getPdxType_addPdxType (typeId : ℤ) (pdxType : PdxType) (id : ℤ) :
    (reg.addPdxType typeId pdxType).getPdxType id =
      if id = typeId then some ((reg.getPdxType typeId).getD pdxType) else reg.getPdxType id :=
  SortedMap.find?_insert _ _

lemma getLocalPdxType_addLocalPdxType (localType : String) (pdxType : PdxType) (name : String) :
    (reg.addLocalPdxType localType pdxType).getLocalPdxType name =
      if name = localType then some ((reg.getLocalPdxType localType).getD pdxType)
      else reg.getLocalPdxType name :=
  SortedMap.find?_insert _ _

lemma getMergedType_setMergedType (typeId : ℤ) (mergedType : PdxType) (id : ℤ) :
    (reg.setMergedType typeId mergedType).getMergedType id =
      if id = typeId then some ((reg.getMergedType typeId).getD mergedType)
      else reg.getMergedType id :=
  SortedMap.find?_insert _ _

/-- A registered type stays registered. -/
lemma getPdxType_addPdxType_of_some {reg : PdxTypeRegistry} {id : ℤ}
    (h : reg.getPdxType id = some p) (typeId : ℤ) (pdxType : PdxType) :
    (reg.addPdxType typeId pdxType).getPdxType id = some p := by
  rw [getPdxType_addPdxType]
  split_ifs with hid
  · rw [← hid, h, Option.getD_some]
  · exact h

end PdxTypeRegistry

namespace PdxHelper

/-- What `createMergedType` leaves alone, and that there is a merged type afterwards. -/
lemma createMergedType_spec (server : PdxServer) (reg : PdxTypeRegistry)
    (localType remoteType : PdxType) :
    (∀ {id : ℤ} {p : PdxType}, reg.getPdxType id = some p →
      (createMergedType server reg localType remoteType).getPdxType id = some p) ∧
    (createMergedType server reg localType remoteType).localTypeToPdxType =
      reg.localTypeToPdxType ∧
    (createMergedType server reg localType remoteType).pdxIgnoreUnreadFields =
      reg.pdxIgnoreUnreadFields ∧
    ((createMergedType server reg localType remoteType).getMergedType
      remoteType.geodeTypeId).isSome := by
  unfold createMergedType
  simp only
  split_ifs with hlocal hremote
  · refine ⟨fun h => h, rfl, rfl, ?_⟩
    rw [getMergedType_setMergedType, if_pos rfl]
    rfl
  · refine ⟨fun h => h, rfl, rfl, ?_⟩
    rw [getMergedType_setMergedType, if_pos rfl]
    rfl
  all_goals
    refine ⟨fun h => getPdxType_addPdxType_of_some h _ _, rfl, rfl, ?_⟩
    rw [getMergedType_setMergedType]
    split_ifs
    · rfl
    · rw [getMergedType_setMergedType, if_pos rfl]
      rfl

end PdxHelper

/-! ## Types that are the same -/

namespace PdxType

/-- A type from the server equals a collected type only if both have no fields: the class
names of its fields did not come over the wire. -/
lemma pdxFieldTypes_eq_nil_of_eq {t u : PdxType} (ht : t.Named)
    (hclass : ∀ f ∈ t.pdxFieldTypes, f.className = "")
    (hother : ∀ g ∈ u.pdxFieldTypes, g.className ≠ "") (heq : t.eq u = true) :
    t.pdxFieldTypes = [] ∧ u.pdxFieldTypes = [] := by
  rw [eq, decide_eq_true_iff] at heq
  obtain ⟨-, -, htotal, hfields⟩ := heq
  have hnil : t.pdxFieldTypes = [] := by
    cases hfirst : t.pdxFieldTypes[0]? with
    | none => simpa using hfirst
    | some f =>
      have hknown := (ht f.fieldName 0).mpr ⟨f, hfirst, rfl⟩
      rw [SortedMap.find?] at hknown
      exfalso
      cases hentries : t.fieldNameVsPdxType.entries with
      | nil =>
        rw [hentries] at hknown
        cases hknown
      | cons _ entries =>
        rw [hentries] at hfields
        cases hothers : u.fieldNameVsPdxType.entries with
        | nil =>
          rw [hothers] at hfields
          cases hfields
        | cons =>
          rw [hothers, eqFields, Bool.and_eq_true, Bool.and_eq_true] at hfields
          obtain ⟨⟨-, hsame⟩, -⟩ := hfields
          split at hsame
          · rename_i f' g hf' hg
            rw [PdxFieldType.eq, decide_eq_true_iff] at hsame
            apply hother g (mem_of_getElem? hg)
            rw [← hsame.1, hclass f' (mem_of_getElem? hf')]
          · cases hsame
  refine ⟨hnil, ?_⟩
  rw [getTotalFields, getTotalFields, hnil] at htotal
  simpa using htotal.symm

/-- The fields of a type that was sent have no class names. -/
lemma className_of_mem_fromData {t : PdxType} {localPdxType : Option PdxType} {f : PdxFieldType}
    (hf : f ∈ (fromData t.toData localPdxType).pdxFieldTypes) : f.className = "" := by
  obtain ⟨_, hi⟩ := mem_iff_getElem?.mp hf
  obtain ⟨_, hg, hfg⟩ := exists_of_map_unplaced (map_unplaced_initializeType _ localPdxType) hi
  have hmem := mem_of_getElem? hg
  obtain ⟨_, -, rfl⟩ := mem_map.mp hmem
  exact congrArg PdxFieldType.className hfg

lemma length_remoteToLocalFieldMap {t l : PdxType} :
    ∃ map, (t.initializeType (some l)).remoteToLocalFieldMap = some map ∧
      map.length = t.pdxFieldTypes.length :=
  ⟨_, rfl, by rw [length_map]⟩

end PdxType

/-! ## A sequence of objects -/

/-- A type of a class as its senders use it: its fields have distinct names, it counts its
fields of variable length, and it has an id. -/
structure SentType (className : String) (fields : List (String × PdxFieldTypes)) where
  pdxType : PdxType
  nodup : (fields.map Prod.fst).Nodup
  describes : pdxType.Describes fields
  sendable : pdxType.Sendable
  className_eq : pdxType.className = className
  geodeTypeId_range : -2 ^ 31 ≤ pdxType.geodeTypeId ∧ pdxType.geodeTypeId < 2 ^ 31

namespace SentType

/-- The type that `serializePdx` makes for a class that writes these fields. -/
def collect (className : String) (fields : List (String × PdxFieldTypes)) (typeId : ℤ) : PdxType :=
  match (fields.map fun f => FieldCall.ofKind f.1 f.2).foldlM PdxType.addField
      (PdxType.create className true true) with
  | .ok nType => (nType.initializeType none).setTypeId typeId
  -- a name comes twice
  | .error _ => PdxType.create className true true

/-- A class that writes fields with distinct names has a type that senders use. -/
def ofFields (className : String) (fields : List (String × PdxFieldTypes)) (typeId : ℤ)
    (hnodup : (fields.map Prod.fst).Nodup) (hid : -2 ^ 31 ≤ typeId ∧ typeId < 2 ^ 31) :
    SentType className fields :=
  have hcollect : ∃ t : PdxType, collect className fields typeId =
      (t.initializeType none).setTypeId typeId ∧ t.Collects fields ∧ t.className = className := by
    obtain ⟨t, ht, hheader, hcollects⟩ := PdxType.collects_foldlM hnodup
    refine ⟨t, ?_, hcollects, hheader.className⟩
    rw [collect, ht]
  { pdxType := collect className fields typeId
    nodup := hnodup
    describes := by
      obtain ⟨t, ht, hcollects, -⟩ := hcollect
      have hready := hcollects.describes.ready_initializeType none (Or.inl hcollects.growing.named)
      rw [ht]
      exact hready.of_header.toDescribes
    sendable := by
      obtain ⟨t, ht, hcollects, -⟩ := hcollect
      rw [ht]
      exact hcollects.growing.sendable
    className_eq := by
      obtain ⟨t, ht, -, hname⟩ := hcollect
      rw [ht]
      exact hname
    geodeTypeId_range := by
      obtain ⟨t, ht, -⟩ := hcollect
      rw [ht]
      exact hid }

variable {V : Type} {className : String} {fields : List (String × PdxFieldTypes)}

/-- The server has the type under its id, and gives the id to no type with other fields. -/
structure KnownTo (R : SentType className fields) (server : PdxServer) : Prop where
  getPDXTypeById : server.getPDXTypeById R.pdxType.geodeTypeId = some R.pdxType.toData
  getPDXIdForType : ∀ w, server.getPDXIdForType w = R.pdxType.geodeTypeId →
    w.fields.map (fun f => (f.fieldName, f.typeId)) = fields

variable {c : FieldCodec V} (R : SentType className fields) (server : PdxServer)
  (classReads : String → List (String × PdxFieldTypes))

section

variable (reg : PdxTypeRegistry) (sent : List (BitVec 8) × StoredObject c fields)

/-- An object of the type is read from its stream, behind what the buffer has before it. -/
def deserialize : Except PdxError (PdxHelper.PdxObject V) × PdxTypeRegistry :=
  PdxHelper.deserializePdx c server classReads reg
    (PdxLocalWriter.stream sent.1 R.pdxType (R.pdxType.parts sent.2.contents)) sent.1.length

/-- The registry after an object has been read. -/
def step : PdxTypeRegistry :=
  (R.deserialize server classReads reg sent).2

/-- Every read of the class returns the value of the field with its name and kind, and the
default if there is none. -/
def ReadByName : Prop :=
  ∃ preserveData position, (R.deserialize server classReads reg sent).1 =
    .ok ⟨(classReads className).map sent.2.value, preserveData, position⟩

/-- The readers can serve the reads of the class: the collecting reader if the type is new, and
otherwise the remote reader, which needs every field of kind `object` that the class reads. -/
def Readable (_sent : List (BitVec 8) × StoredObject c fields) : Prop :=
  if (reg.getPdxType R.pdxType.geodeTypeId).isNone then
    ∀ f ∈ classReads className, PdxReaderWithTypeCollector.Serves fields f
  else
    ∀ p ∈ (classReads className).zipIdx,
      PdxRemoteReader.Serves fields (classReads className) p.2 p.1 ∧
        (p.1.2 = .object → p.1 ∈ fields)
  deriving Decidable

end

/-- What the registry has learned from the first object. -/
structure Learned (reg : PdxTypeRegistry) : Prop where
  getLocalPdxType : (reg.getLocalPdxType className).isSome
  getPdxType : ∃ p, reg.getPdxType R.pdxType.geodeTypeId = some p ∧ p.className = className ∧
    p.Ready fields ∧
    -- the type is the local one, or has the maps to it
    (p.isLocal = true ∧
        (classReads className).filter (PdxReaderWithTypeCollector.notes fields) = fields ∨
      p.isLocal = false ∧ (reg.getMergedType p.geodeTypeId).isSome ∧
        ∃ q l : PdxType, p = q.initializeType (some l) ∧ q.Describes fields ∧ l.Describes
          ((classReads className).filter (PdxReaderWithTypeCollector.notes fields)))

/-- The stream is opened under the id of its type. -/
lemma exists_deserialize_eq (reg : PdxTypeRegistry)
    (sent : List (BitVec 8) × StoredObject c fields) :
    ∃ len : ℤ, R.deserialize server classReads reg sent =
        deserializeTyped c server classReads reg
          (PdxLocalWriter.stream sent.1 R.pdxType (R.pdxType.parts sent.2.contents))
          (sent.1.length + PdxHelper.PdxHeader) len R.pdxType.geodeTypeId ∧
      ∀ u : PdxType, u.Describes fields → (create
        (PdxLocalWriter.stream sent.1 R.pdxType (R.pdxType.parts sent.2.contents))
        (sent.1.length + PdxHelper.PdxHeader) u len).Opened u (u.parts sent.2.contents) := by
  obtain ⟨len, hlen, htypeId, hopened⟩ := R.describes.received sent.1 R.geodeTypeId_range
    sent.2.length_contents (sent.2.countP_le R.describes)
  refine ⟨len, ?_, hopened⟩
  rw [deserialize, deserializePdx, hlen, htypeId]

variable {R server classReads} {sent : List (BitVec 8) × StoredObject c fields}
  {reg : PdxTypeRegistry} {o : StoredObject c fields} {buffer : List (BitVec 8)}
  {pdxIgnoreUnreadFields : Bool}

section Known

variable {position len : ℤ}

/-- The data that the class does not read is kept under a type that has the maps to the local
one. -/
lemma preserving_of_initializeType {q l : PdxType} (hpq : p = q.initializeType (some l))
    {r : PdxLocalReader} (hr : r.Opened p (p.parts o.contents)) (hp : p.Ready fields)
    (hq : q.Describes fields) (hmerged : (reg.getMergedType p.geodeTypeId).isSome)
    {values : List V} :
    ∃ preserveData position', preserving reg values r = .ok ⟨values, preserveData, position'⟩ := by
  obtain ⟨merged, hmerged⟩ := Option.isSome_iff_exists.mp hmerged
  obtain ⟨_, hmap, hlength⟩ := length_remoteToLocalFieldMap (t := q) (l := l)
  rw [← hpq] at hmap
  have hdata := hr.getPreservedData hp (o.forall₂_holds hp.toDescribes) hmap
    (by rw [hlength, hq.length_eq, o.length_contents]) reg.pdxIgnoreUnreadFields merged
  rw [preserving, hr.pdxType, hmerged, hdata]
  exact ⟨_, _, rfl⟩

/-- The local reader reads the objects of a known type that is the local one. -/
lemma readKnownType_of_isLocal (hr : (create buffer position p len).Opened p (p.parts o.contents))
    (hp : p.Ready fields) (hnodup : (fields.map Prod.fst).Nodup) (hlocal : p.isLocal = true)
    (hreads : classReads p.className = fields) (localType : PdxType) :
    ∃ position', readKnownType c classReads reg buffer position len p localType =
      .ok ⟨(classReads p.className).map o.value, none, position'⟩ := by
  obtain ⟨cursor, hfrom⟩ := hr.fromData hp.toDescribes hnodup fields 0 drop_zero
  set reader := create buffer position p len
  rw [partStart_zero, Nat.cast_zero, add_zero] at hfrom
  refine ⟨{ reader with cursor := cursor }.moveStream.cursor, ?_⟩
  rw [readKnownType, if_pos hlocal, hreads]
  show (fromData c { reader with cursor := reader.startBuffer } fields >>= _) = _
  rw [hfrom]
  rfl

/-- The remote reader reads the objects of a known type that has the maps to the local one. -/
lemma readKnownType_of_initializeType {q l : PdxType} (hpq : p = q.initializeType (some l))
    (hr : (create buffer position p len).Opened p (p.parts o.contents))
    (hp : p.Ready fields) (hq : q.Describes fields) (hnodup : (fields.map Prod.fst).Nodup)
    (hl : l.Describes (classReads p.className)) (hlocal : p.isLocal = false)
    (hmerged : (reg.getMergedType p.geodeTypeId).isSome)
    (hserves : ∀ entry ∈ (classReads p.className).zipIdx,
      PdxRemoteReader.Serves fields (classReads p.className) entry.2 entry.1)
    (localType : PdxType) :
    ∃ preserveData position',
      readKnownType c classReads reg buffer position len p localType =
        .ok ⟨(classReads p.className).map o.value, preserveData, position'⟩ := by
  obtain ⟨map, hmap, hentries⟩ := localToRemoteFieldMap_initializeType hq hl
  rw [← hpq] at hmap
  have hget : (p.getLocalToRemoteMap (some localType)).getD [] = map := by
    rw [getLocalToRemoteMap, hmap]
    rfl
  set reader := create buffer position p len
  obtain ⟨cursor, _, hfrom⟩ := PdxRemoteReader.fromData_of_serves hr hp hnodup hentries
    (fun j f hf => hserves (f, j) (mem_zipIdx_iff_getElem?.mpr hf))
    (classReads p.className) 0 drop_zero (x := reader.startBuffer) (fun _ => by simp)
  obtain ⟨preserveData, position', hpreserving⟩ :=
    preserving_of_initializeType hpq (hr.with_cursor cursor) hp hq hmerged
  refine ⟨preserveData, position', ?_⟩
  rw [readKnownType, if_neg (by rw [hlocal]; decide), hget]
  show (PdxRemoteReader.fromData c ⟨{ reader with cursor := reader.startBuffer }, map, 0⟩
    (classReads p.className) >>= _) = _
  rw [hfrom]
  exact hpreserving

end Known

lemma Learned.readByName (h : R.Learned classReads reg) (hsent : R.Readable classReads reg sent) :
    R.ReadByName server classReads reg sent := by
  obtain ⟨_, hdeserialize, hopened⟩ := exists_deserialize_eq R server classReads reg sent
  obtain ⟨l₀, hl₀⟩ := Option.isSome_iff_exists.mp h.getLocalPdxType
  obtain ⟨p, hp, rfl, hready, hcase⟩ := h.getPdxType
  rw [Readable, hp] at hsent
  -- every field that the class reads has been noted
  have hnoted : (classReads p.className).filter (notes fields) =
      classReads p.className := by
    rw [filter_eq_self]
    intro f hf
    obtain ⟨j, hj⟩ := mem_iff_getElem?.mp hf
    have hobject := (hsent (f, j) (mem_zipIdx_iff_getElem?.mpr hj)).2
    rw [notes, decide_eq_true_iff]
    exact not_or_of_imp hobject
  rw [hnoted] at hcase
  rw [ReadByName, hdeserialize, deserializeTyped, hp]
  simp only [hl₀]
  rcases hcase with ⟨hlocal, hreads⟩ | ⟨hlocal, hmerged, _, _, hpq, hq, hl⟩
  · exact ⟨none, readKnownType_of_isLocal (hopened p hready.toDescribes) hready R.nodup hlocal
      hreads l₀⟩
  · exact readKnownType_of_initializeType hpq (hopened p hready.toDescribes) hready hq R.nodup hl
      hlocal hmerged (fun p hp => (hsent p hp).1) l₀

/-- The registry stays as it is once the types are known. -/
lemma Learned.step_eq (h : R.Learned classReads reg)
    (sent : List (BitVec 8) × StoredObject c fields) : R.step server classReads reg sent = reg := by
  obtain ⟨_, hdeserialize, -⟩ := exists_deserialize_eq R server classReads reg sent
  obtain ⟨_, hl₀⟩ := Option.isSome_iff_exists.mp h.getLocalPdxType
  obtain ⟨_, hp, rfl, -⟩ := h.getPdxType
  rw [step, hdeserialize, deserializeTyped, hp]
  simp only [hl₀]

/-- The type as a receiver has it that knows no local type of the class. -/
def received (R : SentType className fields) : PdxType :=
  PdxType.fromData R.pdxType.toData none

lemma ready_received : R.received.Ready fields := R.describes.ready_fromData R.sendable R.nodup none

lemma className_received : R.received.className = className := R.className_eq

section First

variable {position len : ℤ} {u : PdxType}

/-- The registry after a first object whose type is the collected one. -/
lemma learned_registerAsLocal (hu : u.Collects ((classReads className).filter (notes fields)))
    (hkinds : ∀ f ∈ classReads className, f.2 ≠ .unknown) (heq : R.received.eq u = true) :
    R.Learned classReads (registerAsLocal (.empty pdxIgnoreUnreadFields)
      R.pdxType.geodeTypeId R.received) := by
  have hready := R.ready_received
  have hclass : ∀ g ∈ u.pdxFieldTypes, g.className ≠ "" := by
    intro g hg
    have hmem : g.signature ∈
        (classReads className).filter (notes fields) := by
      rw [← hu.describes.signature]
      exact mem_map_of_mem hg
    have hkind : g.typeId ≠ .unknown := hkinds _ (mem_of_mem_filter hmem)
    rw [hu.className g hg]
    cases htype : g.typeId <;> first | exact absurd htype hkind | decide
  obtain ⟨ht, hunil⟩ := pdxFieldTypes_eq_nil_of_eq hready.named
    (fun f hf => className_of_mem_fromData hf) hclass heq
  have hfields : fields = [] := by
    rw [← hready.signature, ht]
    rfl
  have hnoted : (classReads className).filter (notes fields) = [] := by
    rw [← hu.describes.signature, hunil]
    rfl
  refine ⟨?_, { R.received with isLocal := true }, ?_, R.className_received,
    hready.of_header, .inl ⟨rfl, hnoted.trans hfields.symm⟩⟩
  · show (getLocalPdxType (addLocalPdxType _
      R.received.className _) className).isSome
    rw [getLocalPdxType_addLocalPdxType, if_pos R.className_received.symm]
    rfl
  · show getPdxType (addPdxType _ R.pdxType.geodeTypeId _)
      R.pdxType.geodeTypeId = _
    rw [getPdxType_addPdxType, if_pos rfl]
    rfl

/-- The registry after a first object whose type is not the collected one. -/
lemma registerTypes_empty (hknown : R.KnownTo server)
    (hu : u.Collects ((classReads className).filter (notes fields)))
    (hheader : PdxType.SameHeader (create className true true) u) :
    ∃ l reg, registerTypes server (.empty pdxIgnoreUnreadFields) R.pdxType.geodeTypeId
        R.received u = (R.received.initializeType (some l), reg) ∧
      R.Learned classReads reg ∧ (reg.getMergedType R.pdxType.geodeTypeId).isSome := by
  set l := { (u.initializeType none).setTypeId
    (server.getPDXIdForType (u.initializeType none).toData) with isLocal := true } with hl
  have hlready : l.Ready
      ((classReads className).filter (notes fields)) :=
    (hu.describes.ready_initializeType none (.inl hu.growing.named)).of_header
  set p := R.received.initializeType (some l) with hp
  -- the registry before the types are merged
  set reg := ((((empty pdxIgnoreUnreadFields).addPdxType l.geodeTypeId
    ((u.initializeType none).setTypeId l.geodeTypeId)).addLocalPdxType R.received.className
      l).addPdxType l.geodeTypeId l).addPdxType p.geodeTypeId p with hreg
  have htypes : registerTypes server (.empty pdxIgnoreUnreadFields)
      R.pdxType.geodeTypeId R.received u = (p, createMergedType server reg l p) := by
    have hlocal : ((((empty pdxIgnoreUnreadFields).addPdxType l.geodeTypeId
        ((u.initializeType none).setTypeId l.geodeTypeId)).addLocalPdxType R.received.className
          l).addPdxType l.geodeTypeId l).getLocalPdxType R.received.className = some l := by
      show getLocalPdxType (addLocalPdxType _
        R.received.className l) R.received.className = _
      rw [getLocalPdxType_addLocalPdxType, if_pos rfl]
      rfl
    rw [hreg, hp, ← hlocal]
    rfl
  obtain ⟨hkeeps, hlocals, -, hmerged⟩ := createMergedType_spec server reg l p
  refine ⟨l, _, htypes, ⟨?_, ?_⟩, hmerged⟩
  · rw [getLocalPdxType, hlocals]
    show (getLocalPdxType (addLocalPdxType _
      R.received.className l) className).isSome
    rw [getLocalPdxType_addLocalPdxType, if_pos R.className_received.symm]
    rfl
  · by_cases hid : l.geodeTypeId = R.pdxType.geodeTypeId
    · -- the server has given the id of the stream to the collected type
      have hfields := hknown.getPDXIdForType _ hid
      have hnoted : (classReads className).filter (notes fields) =
          fields := by
        rw [← hu.describes.initializeType.signature, ← hfields, toData, map_map]
        rfl
      have hfirst : ((empty pdxIgnoreUnreadFields).addPdxType l.geodeTypeId
          ((u.initializeType none).setTypeId l.geodeTypeId)).getPdxType R.pdxType.geodeTypeId =
          some ((u.initializeType none).setTypeId l.geodeTypeId) := by
        rw [getPdxType_addPdxType, if_pos hid.symm]
        rfl
      rw [hnoted] at hlready
      refine ⟨(u.initializeType none).setTypeId l.geodeTypeId, hkeeps ?_, hheader.className,
        hlready.of_header, .inl ⟨hheader.isLocal, hnoted⟩⟩
      exact getPdxType_addPdxType_of_some
        (getPdxType_addPdxType_of_some hfirst _ _) _ _
    · refine ⟨p, hkeeps ?_, R.className_received, R.ready_received.initializeType _,
        .inr ⟨rfl, hmerged, R.received, l, rfl, R.ready_received.toDescribes, hlready.toDescribes⟩⟩
      have hid' : p.geodeTypeId ≠ l.geodeTypeId := fun h => hid h.symm
      show reg.getPdxType p.geodeTypeId = some p
      rw [getPdxType_addPdxType, if_pos rfl, getPdxType_addPdxType, if_neg hid']
      show some ((getPdxType (addPdxType _ l.geodeTypeId _)
        p.geodeTypeId).getD p) = _
      rw [getPdxType_addPdxType, if_neg hid']
      rfl

lemma readCollectingType_empty (hknown : R.KnownTo server)
    (hr : (create buffer position R.received len).Opened R.received (R.received.parts o.contents))
    (hnames : ((classReads className).map Prod.fst).Nodup)
    (hkinds : ∀ f ∈ classReads className, f.2 ≠ .unknown)
    (hserves : ∀ f ∈ classReads className, PdxReaderWithTypeCollector.Serves fields f) :
    ∃ preserveData position' reg', readCollectingType c server classReads
        (.empty pdxIgnoreUnreadFields) buffer position len R.pdxType.geodeTypeId R.received =
        (.ok ⟨(classReads className).map o.value, preserveData, position'⟩, reg') ∧
      R.Learned classReads reg' := by
  obtain ⟨u, hfrom, hheader, hu⟩ := fromData_of_serves hr
    R.ready_received R.nodup (classReads className) hserves (by simpa using hnames) collects_create
  unfold readCollectingType
  dsimp only
  set reader := create buffer position R.received len
  set prtc : PdxReaderWithTypeCollector := ⟨{ reader with cursor := reader.startBuffer }, u⟩
  have hrun : fromData c
      ⟨reader, create R.received.className true true⟩ (classReads R.received.className) =
      .ok ((classReads className).map o.value, prtc) := by
    rw [R.className_received]
    exact hfrom
  rw [hrun]
  dsimp only
  by_cases heq : R.received.eq u = true
  · exact ⟨none, prtc.moveStream.cursor, _, if_pos heq, learned_registerAsLocal hu hkinds heq⟩
  · obtain ⟨l, reg, htypes, hlearned, hmerged⟩ := registerTypes_empty hknown hu hheader
    have hready := R.ready_received.initializeType (some l)
    have hr' := (hr.with_cursor reader.startBuffer).with_pdxType R.ready_received.toDescribes
      hready.toDescribes (numberOfVarLenFields_initializeType _ _)
    obtain ⟨preserveData, position', hpreserving⟩ := preserving_of_initializeType rfl
      hr' hready R.ready_received.toDescribes hmerged
    refine ⟨preserveData, position', reg, ?_, hlearned⟩
    rw [if_neg heq, htypes]
    exact Prod.ext hpreserving rfl

end First

/-- The first object, which a registry that knows no type is asked to read. -/
lemma readByName_empty (hknown : R.KnownTo server)
    (hnames : ((classReads className).map Prod.fst).Nodup)
    (hkinds : ∀ f ∈ classReads className, f.2 ≠ .unknown)
    (hsent : R.Readable classReads (.empty pdxIgnoreUnreadFields) sent) :
    R.ReadByName server classReads (.empty pdxIgnoreUnreadFields) sent ∧
      R.Learned classReads (R.step server classReads (.empty pdxIgnoreUnreadFields) sent) := by
  obtain ⟨_, hdeserialize, hopened⟩ :=
    exists_deserialize_eq R server classReads (.empty pdxIgnoreUnreadFields) sent
  obtain ⟨preserveData, position', reg', hread, hlearned⟩ := readCollectingType_empty
    hknown (hopened R.received R.ready_received.toDescribes) hnames hkinds hsent
  have htyped : R.deserialize server classReads (.empty pdxIgnoreUnreadFields) sent =
      (.ok ⟨(classReads className).map sent.2.value, preserveData, position'⟩, reg') := by
    rw [hdeserialize, ← hread, deserializeTyped]
    simp only [PdxTypeRegistry.getPdxType, PdxTypeRegistry.empty, hknown.getPDXTypeById]
    rfl
  rw [ReadByName, step, htyped]
  exact ⟨⟨preserveData, position', rfl⟩, hlearned⟩

/-- Objects of one type are read by name, the first one and all later ones, if the readers can
serve the reads of the class. -/
theorem everyStep_readByName (hknown : R.KnownTo server)
    (hnames : ((classReads className).map Prod.fst).Nodup)
    (hkinds : ∀ f ∈ classReads className, f.2 ≠ .unknown) (pdxIgnoreUnreadFields : Bool)
    (objects : List (List (BitVec 8) × StoredObject c fields))
    (hobjects : EveryStep (R.step server classReads) (R.Readable classReads)
      (.empty pdxIgnoreUnreadFields) objects) :
    EveryStep (R.step server classReads) (R.ReadByName server classReads)
      (.empty pdxIgnoreUnreadFields) objects := by
  have hfirst : ∀ sent : List (BitVec 8) × StoredObject c fields,
      R.Readable classReads (.empty pdxIgnoreUnreadFields) sent → _ := fun sent hsent =>
    readByName_empty hknown hnames hkinds hsent
  -- the registry knows no type, or has learned what the first object had to tell
  refine everyStep_of_invariant
    (I := fun reg => reg = .empty pdxIgnoreUnreadFields ∨ R.Learned classReads reg) ?_ ?_
    (.inl rfl) hobjects
  · rintro reg sent (rfl | hlearned) hsent
    · exact .inr (hfirst sent hsent).2
    · rw [hlearned.step_eq]
      exact .inr hlearned
  · rintro reg sent (rfl | hlearned) hsent
    · exact (hfirst sent hsent).1
    · exact hlearned.readByName hsent

/-! ## An array that the stream lacks -/

/-- Values as bytes: fields of fixed length as they are, others behind a byte with their
length. -/
def rawRead (kind : PdxFieldTypes) (bytes : List (BitVec 8)) :
    Except PdxError (List (BitVec 8) × ℕ) :=
  if kind.getFixedTypeSize = -1 then
    match bytes with
    | [] => .error .outOfBounds
    | n :: rest =>
      if n.toNat ≤ rest.length then .ok (rest.take n.toNat, n.toNat + 1) else .error .outOfBounds
  else if kind.getFixedTypeSize.toNat ≤ bytes.length then
    .ok (bytes.take kind.getFixedTypeSize.toNat, kind.getFixedTypeSize.toNat)
  else
    .error .outOfBounds

lemma rawRead_nil (kind : PdxFieldTypes) (value : List (BitVec 8)) (size : ℕ) :
    rawRead kind [] ≠ .ok (value, size) := by
  intro h
  unfold rawRead at h
  split_ifs at h with hvar hsize
  have hpos := PdxFieldTypes.getFixedTypeSize_pos hvar
  rw [List.length_nil] at hsize
  omega

lemma rawRead_fixed (kind : PdxFieldTypes) (bytes value : List (BitVec 8)) (size : ℕ)
    (h : rawRead kind bytes = .ok (value, size)) (hfixed : kind.getFixedTypeSize ≠ -1) :
    (size : ℤ) = kind.getFixedTypeSize := by
  have hpos := PdxFieldTypes.getFixedTypeSize_pos hfixed
  unfold rawRead at h
  rw [if_neg hfixed] at h
  split_ifs at h with hsize
  rw [Except.ok.injEq, Prod.mk.injEq] at h
  omega

def rawCodec : FieldCodec (List (BitVec 8)) where
  read := rawRead
  missing _ := []
  read_nil := rawRead_nil
  read_fixed := rawRead_fixed

/-- A server that knows one type and gives another id to types with other fields. -/
def serverOf (t : PdxType) : PdxServer where
  getPDXTypeById typeId := if typeId = t.geodeTypeId then some t.toData else none
  getPDXIdForType w :=
    if w.fields.map (fun f => (f.fieldName, f.typeId)) = t.pdxFieldTypes.map PdxFieldType.signature
    then t.geodeTypeId else t.geodeTypeId + 1

lemma knownTo_serverOf {R : SentType className fields} : R.KnownTo (serverOf R.pdxType) := by
  constructor
  · exact if_pos rfl
  · intro w _
    rw [← R.describes.signature]
    by_contra hne
    have hother : (serverOf R.pdxType).getPDXIdForType w = R.pdxType.geodeTypeId + 1 := if_neg hne
    omega

lemma shapeId_bounds : -2 ^ 31 ≤ (7 : ℤ) ∧ (7 : ℤ) < 2 ^ 31 := by decide

def shape : SentType "Shape" [("id", .int), ("name", .string)] :=
  ofFields "Shape" [("id", .int), ("name", .string)] 7 (by decide) shapeId_bounds

def shapeObject : StoredObject rawCodec [("id", .int), ("name", .string)] where
  parts := [([0, 0, 0, 1], [0, 0, 0, 1]), ([2, 97, 98], [97, 98])]
  encodes := .cons (fun _ => rfl) (.cons (fun _ => rfl) .nil)
  length_lt := by decide

/-- A class that reads the fields in another order, with one more in front. -/
theorem everyStep_readByName_shape : EveryStep (shape.step (serverOf shape.pdxType)
        fun _ => [("size", .long), ("name", .string), ("id", .int)])
      (shape.ReadByName (serverOf shape.pdxType)
        fun _ => [("size", .long), ("name", .string), ("id", .int)])
      (.empty false) [([], shapeObject), ([93], shapeObject), ([], shapeObject)] :=
  everyStep_readByName knownTo_serverOf (by decide) (by decide) false _ (by decide)

/-- A class that also reads an array of integers: the first object has the default for it, and
the second one is not read at all. -/
theorem not_everyStep_readByName_array : shape.KnownTo (serverOf shape.pdxType) ∧
    ¬ EveryStep (shape.step (serverOf shape.pdxType)
        fun _ => [("id", .int), ("name", .string), ("points", .intArray)])
      (shape.ReadByName (serverOf shape.pdxType)
        fun _ => [("id", .int), ("name", .string), ("points", .intArray)])
      (.empty false) [([], shapeObject), ([], shapeObject)] := by
  refine ⟨knownTo_serverOf, ?_⟩
  rintro ⟨-, ⟨_, _, hsecond⟩, -⟩
  have herror : (match (shape.deserialize (serverOf shape.pdxType)
      (fun _ => [("id", .int), ("name", .string), ("points", .intArray)])
      (shape.step (serverOf shape.pdxType)
        (fun _ => [("id", .int), ("name", .string), ("points", .intArray)])
        (.empty false) ([], shapeObject)) ([], shapeObject)).1 with
    | .ok _ => false
    | .error e => e = .outOfRange) = true := by decide
  rw [hsecond] at herror
  cases herror

end SentType

end GeodeNative
