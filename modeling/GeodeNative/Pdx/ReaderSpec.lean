import GeodeNative.Pdx.Deserialize
import GeodeNative.Pdx.TypeSpec

/-!
# What the three readers return

For a stream with the fields of a type, a read of a name and a kind should return the
value of the field with this name and kind, and a default if there is none. The results
below say when each reader does so, for one read and for all reads of a class.
-/

namespace GeodeNative

open List Option

open PdxFieldType PdxRemoteReader

variable {V : Type} {c : FieldCodec V}

/-! ## Objects in a stream -/

/-- The bytes stand for a value of a kind, whatever follows them. -/
def FieldCodec.Encodes (c : FieldCodec V) (kind : PdxFieldTypes) (bytes : List (BitVec 8))
    (value : V) : Prop :=
  ∀ rest, c.read kind (bytes ++ rest) = .ok (value, bytes.length)

variable {bytes : List (BitVec 8)} {kind : PdxFieldTypes}
  {fields reads : List (String × PdxFieldTypes)} {f : String × PdxFieldTypes} {r : PdxLocalReader}
  {t : PdxType} {i : ℕ}

lemma FieldCodec.Encodes.length_pos {value : V}
    (h : c.Encodes kind bytes value) : 0 < bytes.length := by
  apply length_pos_of_ne_nil
  rintro rfl
  exact c.read_nil kind value 0 (h [])

lemma FieldCodec.Encodes.length_eq {value : V} (h : c.Encodes kind bytes value)
    (hkind : kind.getFixedTypeSize ≠ -1) : (bytes.length : ℤ) = kind.getFixedTypeSize :=
  c.read_fixed kind _ value _ (h []) hkind

/-- An object with these fields: the bytes and the value of each. -/
structure StoredObject (c : FieldCodec V) (fields : List (String × PdxFieldTypes)) where
  parts : List (List (BitVec 8) × V)
  encodes : List.Forall₂ (fun f part => c.Encodes f.2 part.1 part.2) fields parts
  length_lt : (parts.map Prod.fst).flatten.length +
    4 * (fields.countP (fun f => f.2.getFixedTypeSize = -1) - 1) < 2 ^ 31

namespace StoredObject

variable (o : StoredObject c fields)

/-- The bytes of each field. -/
def contents : List (List (BitVec 8)) :=
  o.parts.map Prod.fst

/-- What a read of a name and a kind should return. -/
def value (f : String × PdxFieldTypes) : V :=
  (o.parts[fields.idxOf f]?.map Prod.snd).getD (c.missing f.2)

lemma length_contents : o.contents.length = fields.length := by
  rw [contents, length_map, o.encodes.length_eq]

lemma value_of_notMem (hf : f ∉ fields) : o.value f = c.missing f.2 := by
  have hnone : o.parts[fields.idxOf f]? = none := by
    rw [getElem?_eq_none]
    rw [idxOf_eq_length hf, o.encodes.length_eq]
  rw [value, hnone]
  rfl

/-- The field with an index: its bytes, which stand for what a read should return. -/
lemma exists_part (hnodup : (fields.map Prod.fst).Nodup) (hi : fields[i]? = some f) :
    ∃ bytes, o.contents[i]? = some bytes ∧ c.Encodes f.2 bytes (o.value f) := by
  obtain ⟨hlt, rfl⟩ := List.getElem?_eq_some_iff.mp hi
  have hidx : fields.idxOf fields[i] = i := (List.Nodup.of_map Prod.fst hnodup).idxOf_getElem i hlt
  have hlt' : i < o.parts.length := o.encodes.length_eq ▸ hlt
  refine ⟨o.parts[i].1, by simp [contents, hlt'], ?_⟩
  rw [value, hidx, getElem?_eq_getElem hlt']
  exact o.encodes.get hlt hlt'

/-- A type with these fields can hold the object. -/
lemma forall₂_holds (ht : t.Describes fields) :
    List.Forall₂ PdxFieldType.Holds t.pdxFieldTypes o.contents := by
  rw [forall₂_iff_get]
  refine ⟨by rw [ht.length_eq, o.length_contents], ?_⟩
  intro i hi _ hvar
  set f := t.pdxFieldTypes.get ⟨i, hi⟩ with hf
  have hstandard := ht.standard f (get_mem _ _)
  have hsignature : fields[i]? = some f.signature := ht.getElem? (by simp [hf])
  obtain ⟨hlt, hget⟩ := List.getElem?_eq_some_iff.mp hsignature
  have hencodes := o.encodes.get hlt (o.encodes.length_eq ▸ hlt)
  rw [get_eq_getElem, hget] at hencodes
  have hkind : f.typeId.getFixedTypeSize ≠ -1 := by
    intro hkind
    rw [hstandard.isVariableLengthType.mpr hkind] at hvar
    cases hvar
  have hlength := hencodes.length_eq hkind
  rw [hstandard.fixedSize]
  simpa [contents, signature] using hlength

lemma countP_le (ht : t.Describes fields) :
    o.contents.flatten.length + 4 * (t.pdxFieldTypes.countP isVariableLengthType - 1) < 2 ^ 31 := by
  have hcount : t.pdxFieldTypes.countP isVariableLengthType =
      fields.countP fun f => f.2.getFixedTypeSize = -1 := by
    rw [← ht.signature, countP_map]
    refine countP_congr ?_
    intro f hf
    rw [(ht.standard f hf).isVariableLengthType]
    exact decide_eq_true_iff.symm
  rw [hcount]
  exact o.length_lt

end StoredObject

/-! ## The local reader -/

lemma getElem?_and_drop_of_drop_eq_cons {α : Type} {as bs : List α} {b : α} {k : ℕ}
    (h : as.drop k = b :: bs) : as[k]? = some b ∧ as.drop (k + 1) = bs := by
  constructor
  · have hhead := congrArg head? h
    rwa [head?_drop] at hhead
  · rw [← drop_drop, h]
    rfl

namespace PdxLocalReader

variable {o : StoredObject c fields}

/-- The value at the position of a field; the cursor then stands behind it. -/
lemma Opened.readField (hr : r.Opened t (t.parts o.contents)) (ht : t.Describes fields)
    (hnodup : (fields.map Prod.fst).Nodup) (hi : fields[i]? = some f) :
    { r with cursor := r.startBuffer + partStart o.contents i }.readField c f.2 =
      .ok (o.value f, { r with cursor := r.startBuffer + partStart o.contents (i + 1) }) := by
  obtain ⟨bytes, hbytes, hencodes⟩ := o.exists_part hnodup hi
  obtain ⟨front, back, _, hbuffer⟩ := hr.buffer
  rw [PdxType.map_snd_parts (ht.length_eq.trans o.length_contents.symm),
    flatten_eq_append hbytes] at hbuffer
  have hcursor : (r.startBuffer + partStart o.contents i).toNat =
      (front ++ (o.contents.take i).flatten).length := by
    rw [partStart_eq_length_flatten, length_append]
    omega
  have hdrop : r.buffer.drop (r.startBuffer + partStart o.contents i).toNat =
      bytes ++ ((o.contents.drop (i + 1)).flatten ++ back) := by
    rw [hcursor, hbuffer]
    simp only [append_assoc]
    rw [← append_assoc front, drop_left]
  have hread : c.read f.2 (r.buffer.drop (r.startBuffer + partStart o.contents i).toNat) =
      .ok (o.value f, bytes.length) := by
    rw [hdrop]
    exact hencodes _
  rw [PdxLocalReader.readField, if_neg (by simp only; omega)]
  show (c.read f.2 (r.buffer.drop (r.startBuffer + partStart o.contents i).toNat) >>= _) = _
  rw [hread, partStart_succ hbytes]
  show Except.ok (o.value f, _) = _
  simp only [Nat.cast_add, add_assoc]

/-- A class that reads the fields of the stream in their order. -/
lemma Opened.fromData (hr : r.Opened t (t.parts o.contents)) (ht : t.Describes fields)
    (hnodup : (fields.map Prod.fst).Nodup) (reads : List (String × PdxFieldTypes)) (k : ℕ)
    (hreads : fields.drop k = reads) :
    ∃ cursor, { r with cursor := r.startBuffer + partStart o.contents k }.fromData c reads =
      .ok (reads.map o.value, { r with cursor := cursor }) := by
  induction reads generalizing k with
  | nil => exact ⟨_, rfl⟩
  | cons _ reads ih =>
    obtain ⟨hk, hrest⟩ := getElem?_and_drop_of_drop_eq_cons hreads
    obtain ⟨cursor, hcursor⟩ := ih (k + 1) hrest
    refine ⟨cursor, ?_⟩
    rw [PdxLocalReader.fromData, hr.readField ht hnodup hk]
    show (PdxLocalReader.fromData c _ reads >>= _) = _
    rw [hcursor]
    rfl

end PdxLocalReader

/-! ## The remote reader -/

/-- The number of elements at the start that two lists share. -/
def commonLength {α : Type} [DecidableEq α] : List α → List α → ℕ
  | a :: as, b :: bs => if a = b then commonLength as bs + 1 else 0
  | _, _ => 0

lemma getElem?_of_lt_commonLength {α : Type} [DecidableEq α] {as bs : List α}
    (hi : i < commonLength as bs) : as[i]? = bs[i]? := by
  induction as generalizing bs i with
  | nil => simp [commonLength] at hi
  | cons _ _ ih =>
    cases bs with
    | nil => simp [commonLength] at hi
    | cons =>
      rw [commonLength] at hi
      split_ifs at hi with hab
      · cases i with
        | zero => simp [hab]
        | succ => simpa using ih (by omega)
      · omega

namespace PdxType

variable {l : PdxType}

/-- The loop counts the fields that both types begin with. -/
lemma sameOrder_eq (ls rs : List PdxFieldType) :
    sameOrder ls rs = commonLength (ls.map signature) (rs.map signature) := by
  induction ls generalizing rs with
  | nil => rfl
  | cons _ _ ih =>
    cases rs with
    | nil => rfl
    | cons =>
      simp only [sameOrder, map_cons, commonLength, ih, equals_iff]

/-- What the map from the reads of a class to the fields of a stream says about a read. -/
inductive MapEntry (fields reads : List (String × PdxFieldTypes)) (j : ℕ)
    (f : String × PdxFieldTypes) : ℤ → Prop
  /-- the field comes next in the stream -/
  | inOrder (hj : j < commonLength reads fields) (hf : fields[j]? = some f) :
      MapEntry fields reads j f (-2)
  /-- the sequence number of the field, as a byte -/
  | found (i : ℕ) (hj : commonLength reads fields ≤ j) (hf : fields[i]? = some f) :
      MapEntry fields reads j f ((i % 2 ^ 8 : ℕ) : ℤ)
  /-- there is no such field -/
  | missing (hj : commonLength reads fields ≤ j) (hf : f ∉ fields) :
      MapEntry fields reads j f (-1)

/-- The map that a type has once the local type is known. -/
lemma localToRemoteFieldMap_initializeType (ht : t.Describes fields) (hl : l.Describes reads) :
    ∃ map, (t.initializeType (some l)).localToRemoteFieldMap = some map ∧
      ∀ (j : ℕ) (f : String × PdxFieldTypes), reads[j]? = some f →
        ∃ choice, map[j]? = some choice ∧ MapEntry fields reads j f choice := by
  have hsame : sameOrder l.pdxFieldTypes t.pdxFieldTypes = commonLength reads fields := by
    rw [sameOrder_eq, hl.signature, ht.signature]
  refine ⟨_, rfl, ?_⟩
  intro j _ hf
  have hfields : (t.initRemoteToLocal (some l)).pdxFieldTypes = t.pdxFieldTypes := rfl
  simp only [hfields, hsame]
  rcases lt_or_ge j (commonLength reads fields) with hj | hj
  · refine ⟨-2, ?_, .inOrder hj ?_⟩
    · rw [getElem?_append_left (by simpa using hj), getElem?_replicate, if_pos hj]
    · rw [← getElem?_of_lt_commonLength hj, hf]
  · rw [getElem?_append_right (by simpa using hj), length_replicate, getElem?_map,
      getElem?_drop, Nat.add_sub_cancel' hj]
    rw [← hl.signature, getElem?_map, map_eq_some_iff] at hf
    obtain ⟨g, hg, rfl⟩ := hf
    rw [hg, map_some]
    cases hfind : t.pdxFieldTypes.find? (fun remotePdxField => g.equals remotePdxField) with
    | none =>
      refine ⟨-1, by simp, .missing hj ?_⟩
      intro hmem
      rw [← ht.signature, List.mem_map] at hmem
      obtain ⟨f', hf', hsig⟩ := hmem
      have hno := find?_eq_none.mp hfind f' hf'
      rw [equals_iff] at hno
      exact hno hsig.symm
    | some f' =>
      have hequals := find?_some hfind
      rw [equals_iff] at hequals
      obtain ⟨i, hi⟩ := mem_iff_getElem?.mp (mem_of_find?_eq_some hfind)
      have hsequence : f'.getSequenceId = i % 2 ^ 8 := by
        rw [getSequenceId, ht.indexed.sequenceId_eq i f' hi]
      have hfound : fields[i]? = some g.signature := by
        rw [hequals]
        exact ht.getElem? hi
      refine ⟨_, rfl, ?_⟩
      show MapEntry fields reads j g.signature (f'.getSequenceId : ℤ)
      rw [hsequence]
      exact .found i hj hfound

lemma Ready.getFieldPosition (ht : t.Ready fields) {o : StoredObject c fields}
    (hr : r.Opened t (t.parts o.contents)) (hi : fields[i]? = some f) :
    t.getFieldPosition i r.layout = .ok (partStart o.contents i) := by
  obtain ⟨_, -⟩ := List.getElem?_eq_some_iff.mp hi
  exact getFieldPosition_of_placed ht.indexed ht.placed ht.takesSpace
    (o.forall₂_holds ht.toDescribes) hr (by rwa [o.length_contents])

end PdxType

namespace PdxRemoteReader

variable {o : StoredObject c fields} {map : List ℤ}

/-- The remote reader is asked for a field that it can serve: one that is missing only where
the method provides for it, and otherwise one that comes next or that a byte can number. -/
def Serves (fields reads : List (String × PdxFieldTypes)) (j : ℕ) (f : String × PdxFieldTypes) :
    Prop :=
  (f ∉ fields → f.2.handlesMissing = true) ∧
    (f ∈ fields → commonLength reads fields ≤ j → fields.idxOf f < 2 ^ 8)
  deriving Decidable

/-- One read. The cursor stands at the next field for as long as the class reads the fields
of the stream in their order, and nothing depends on it afterwards. -/
lemma readField_of_serves (hr : r.Opened t (t.parts o.contents)) (ht : t.Ready fields)
    (hnodup : (fields.map Prod.fst).Nodup) {j : ℕ} {choice : ℤ} (hchoice : map[j]? = some choice)
    (hentry : PdxType.MapEntry fields reads j f choice) (hserves : Serves fields reads j f) {x : ℤ}
    (hx : j ≤ commonLength reads fields → x = r.startBuffer + partStart o.contents j) :
    ∃ x', readField c ⟨{ r with cursor := x }, map, j⟩ f.2 =
        .ok (o.value f, ⟨{ r with cursor := x' }, map, j + 1⟩) ∧
      (j + 1 ≤ commonLength reads fields → x' = r.startBuffer + partStart o.contents (j + 1)) := by
  rw [readField]
  simp only [hchoice]
  cases hentry with
  | inOrder hj hf =>
    refine ⟨_, ?_, fun _ => rfl⟩
    rw [hx hj.le, hr.readField ht.toDescribes hnodup hf]
    rfl
  | missing _ hf =>
    refine ⟨x, ?_, fun h => absurd h (by omega)⟩
    rw [if_neg (by decide), if_pos ⟨rfl, hserves.1 hf⟩, o.value_of_notMem hf]
  | found i hj hf =>
    have hmem : f ∈ fields := mem_of_getElem? hf
    have hidx : fields.idxOf f = i := by
      obtain ⟨hlt, rfl⟩ := List.getElem?_eq_some_iff.mp hf
      exact (List.Nodup.of_map Prod.fst hnodup).idxOf_getElem i hlt
    have hbyte : i % 2 ^ 8 = i := by
      apply Nat.mod_eq_of_lt
      rw [← hidx]
      exact hserves.2 hmem hj
    have hposition : r.pdxType.getFieldPosition ((i % 2 ^ 8 : ℕ) : ℤ) r.layout =
        .ok (partStart o.contents i) := by
      rw [hbyte, hr.pdxType]
      exact ht.getFieldPosition hr hf
    have hread := hr.readField ht.toDescribes hnodup hf
    refine ⟨r.startBuffer, ?_, fun h => absurd h (by omega)⟩
    show (r.pdxType.getFieldPosition _ r.layout >>= _) = _
    rw [hposition]
    show (if f.2.checksPosition ∧ ((partStart o.contents i : ℕ) : ℤ) = -1 then _ else _) = _
    rw [if_neg (by omega)]
    show (PdxLocalReader.readField c { r with
      cursor := r.startBuffer + partStart o.contents i } f.2 >>= _) = _
    rw [hread]
    rfl

/-- By induction on the fields that are read. -/
lemma fromData_of_serves (hr : r.Opened t (t.parts o.contents)) (ht : t.Ready fields)
    (hnodup : (fields.map Prod.fst).Nodup)
    (hmap : ∀ (j : ℕ) (f : String × PdxFieldTypes), reads[j]? = some f →
      ∃ choice, map[j]? = some choice ∧ PdxType.MapEntry fields reads j f choice)
    (hserves : ∀ (j : ℕ) (f : String × PdxFieldTypes), reads[j]? = some f → Serves fields reads j f)
    (rest : List (String × PdxFieldTypes)) (j : ℕ) (hrest : reads.drop j = rest) {x : ℤ}
    (hx : j ≤ commonLength reads fields → x = r.startBuffer + partStart o.contents j) :
    ∃ x' j', fromData c ⟨{ r with cursor := x }, map, j⟩ rest =
      .ok (rest.map o.value, ⟨{ r with cursor := x' }, map, j'⟩) := by
  induction rest generalizing j x with
  | nil => exact ⟨x, j, rfl⟩
  | cons f rest ih =>
    obtain ⟨hj, hrest⟩ := getElem?_and_drop_of_drop_eq_cons hrest
    obtain ⟨_, hchoice, hentry⟩ := hmap j f hj
    obtain ⟨_, hread, hx₁⟩ := readField_of_serves hr ht hnodup hchoice hentry (hserves j f hj) hx
    obtain ⟨x', j', hfrom⟩ := ih (j + 1) hrest hx₁
    refine ⟨x', j', ?_⟩
    rw [fromData, hread]
    show (fromData c _ rest >>= _) = _
    rw [hfrom]
    rfl

end PdxRemoteReader

/-! ## The collecting reader -/

namespace PdxReaderWithTypeCollector

variable {o : StoredObject c fields}

/-- The collecting reader is asked for a field that it can serve: no other kind has the name,
and an array of strings is not the first field of the stream. -/
def Serves (fields : List (String × PdxFieldTypes)) (f : String × PdxFieldTypes) : Prop :=
  (∀ g ∈ fields, g.1 = f.1 → g.2 = f.2) ∧ (f.2 = .stringArray → fields.head? ≠ some f)
  deriving Decidable

/-- Whether the collected type gets a field. -/
def notes (fields : List (String × PdxFieldTypes)) (f : String × PdxFieldTypes) : Bool :=
  f.2 ≠ .object ∨ f ∈ fields

lemma Serves.notMem_map_fst (h : Serves fields f)
    (hf : f ∉ fields) : f.1 ∉ fields.map Prod.fst := by
  intro hmem
  obtain ⟨g, hg, hname⟩ := mem_map.mp hmem
  have hkind := h.1 g hg hname
  obtain rfl : g = f := Prod.ext hname hkind
  exact hf hg

lemma checkType_of_serves (ht : t.Ready fields) (hr : r.pdxType = t) (x : ℤ) (u : PdxType)
    (hserves : Serves fields f) : checkType ⟨{ r with cursor := x }, u⟩ f.1 f.2 = .ok () := by
  subst hr
  unfold checkType
  dsimp only
  by_cases hf : f ∈ fields
  · obtain ⟨_, hi⟩ := mem_iff_getElem?.mp hf
    rw [← ht.signature, getElem?_map, map_eq_some_iff] at hi
    obtain ⟨g, hg, rfl⟩ := hi
    have hfield : r.pdxType.getPdxField g.signature.1 = some g := ht.getPdxField_eq hg
    rw [hfield]
    exact if_neg fun h => h rfl
  · rw [PdxType.getPdxField, ht.named.find?_eq_none ht.toDescribes (hserves.notMem_map_fst hf)]
    rfl

/-- A value is read where its field is, and the cursor goes back to the start. -/
lemma readAt_of_getElem? (hr : r.Opened t (t.parts o.contents)) (ht : t.Ready fields)
    (hnodup : (fields.map Prod.fst).Nodup) (u : PdxType) (hi : fields[i]? = some f) :
    readAt c ⟨{ r with cursor := r.startBuffer }, u⟩ f.2 (partStart o.contents i) =
      .ok (o.value f, ⟨{ r with cursor := r.startBuffer }, u⟩) := by
  obtain ⟨bytes, hbytes, hencodes⟩ := o.exists_part hnodup hi
  have hread := hr.readField ht.toDescribes hnodup hi
  have hsucc := partStart_succ hbytes
  have hsize : f.2.declaredSize.getD
      (r.startBuffer + partStart o.contents (i + 1) - (r.startBuffer + partStart o.contents i)) =
      bytes.length := by
    cases hdeclared : f.2.declaredSize with
    | none =>
      rw [getD_none]
      omega
    | some =>
      obtain ⟨hfixed, _⟩ := PdxFieldTypes.declaredSize_eq_some_iff.mp hdeclared
      rw [getD_some, hencodes.length_eq (by rwa [hfixed]), hfixed]
  show (PdxLocalReader.readField c { r with
    cursor := r.startBuffer + partStart o.contents i } f.2 >>= _) = _
  rw [hread]
  show Except.ok (o.value f, PdxReaderWithTypeCollector.mk { r with
    cursor := r.startBuffer + partStart o.contents (i + 1) +
      -(partStart o.contents i + f.2.declaredSize.getD (r.startBuffer +
        partStart o.contents (i + 1) - (r.startBuffer + partStart o.contents i))) } u) = _
  have hback : r.startBuffer + partStart o.contents (i + 1) +
      -(partStart o.contents i + (bytes.length : ℤ)) = r.startBuffer := by
    omega
  rw [hsize, hback]

/-- Only the first field stands at the start. -/
lemma partStart_pos (hnodup : (fields.map Prod.fst).Nodup)
    (hi : fields[i]? = some f) (hfirst : fields.head? ≠ some f) : 0 < partStart o.contents i := by
  cases i with
  | zero =>
    rw [← head?_eq_getElem?] at hi
    exact absurd hi hfirst
  | succ =>
    obtain ⟨hlt, -⟩ := List.getElem?_eq_some_iff.mp hi
    obtain ⟨_, hbytes, hencodes⟩ :=
      o.exists_part hnodup (getElem?_eq_getElem (Nat.lt_of_succ_lt hlt))
    have hpos := hencodes.length_pos
    rw [partStart_succ hbytes]
    omega

variable (hr : r.Opened t (t.parts o.contents))

include hr

/-- A field that was written is read. -/
lemma readField_of_mem (ht : t.Ready fields) (hnodup : (fields.map Prod.fst).Nodup) {u u' : PdxType}
    (hserves : Serves fields f) (hu : u.addField (.ofKind f.1 f.2) = .ok u') (hf : f ∈ fields) :
    readField c ⟨{ r with cursor := r.startBuffer }, u⟩ f.1 f.2 =
      .ok (o.value f, ⟨{ r with cursor := r.startBuffer }, u'⟩) := by
  obtain ⟨i, hi⟩ := mem_iff_getElem?.mp hf
  have hposition : r.pdxType.getNamedFieldPosition f.1 r.layout = .ok (partStart o.contents i) := by
    rw [hr.pdxType]
    exact ht.getNamedFieldPosition (o.forall₂_holds ht.toDescribes) hr hi
  rw [readField, checkType_of_serves ht hr.pdxType _ u hserves]
  by_cases hobject : f.2 = .object
  · show (if f.2 = .object then
      r.pdxType.getNamedFieldPosition f.1 r.layout >>= fun position => _ else _) = _
    rw [if_pos hobject, hposition]
    -- a position is a natural number, never the `-1` of a missing field
    show (readAt c ⟨{ r with cursor := r.startBuffer }, u⟩ f.2 (partStart o.contents i) >>= _) = _
    rw [readAt_of_getElem? hr ht hnodup u hi]
    show (u.addField (.ofKind f.1 f.2) >>= _) = _
    rw [hu]
    rfl
  · have hpresent : if f.2 = .stringArray then 0 < ((partStart o.contents i : ℕ) : ℤ)
        else ((partStart o.contents i : ℕ) : ℤ) ≠ -1 := by
      split_ifs with hstrings
      · have hpos := partStart_pos hnodup hi (hserves.2 hstrings) (o := o)
        omega
      · omega
    show (if f.2 = .object then _ else u.addField (.ofKind f.1 f.2) >>= _) = _
    rw [if_neg hobject, hu]
    show (r.pdxType.getNamedFieldPosition f.1 r.layout >>= _) = _
    rw [hposition]
    show (if (if f.2 = .stringArray then _ else _) then _ else _) = _
    rw [if_pos hpresent, readAt_of_getElem? hr ht hnodup u' hi]

/-- A field that was not written has its default. -/
lemma readField_of_notMem (ht : t.Ready fields) {u u' : PdxType} (hserves : Serves fields f)
    (hu : u.addField (.ofKind f.1 f.2) = .ok u') (hf : f ∉ fields) (x : ℤ) :
    readField c ⟨{ r with cursor := x }, u⟩ f.1 f.2 =
      .ok (o.value f, ⟨{ r with cursor := x }, if f.2 = .object then u else u'⟩) := by
  have hposition : r.pdxType.getNamedFieldPosition f.1 r.layout = .ok (-1) := by
    rw [hr.pdxType, PdxType.getNamedFieldPosition, PdxType.getPdxField,
      ht.named.find?_eq_none ht.toDescribes (hserves.notMem_map_fst hf)]
    rfl
  rw [readField, checkType_of_serves ht hr.pdxType _ u hserves, o.value_of_notMem hf]
  by_cases hobject : f.2 = .object
  · show (if f.2 = .object then
      r.pdxType.getNamedFieldPosition f.1 r.layout >>= fun position => _ else _) = _
    rw [if_pos hobject, if_pos hobject, hposition]
    rfl
  · show (if f.2 = .object then _ else u.addField (.ofKind f.1 f.2) >>= _) = _
    rw [if_neg hobject, if_neg hobject, hu]
    show (r.pdxType.getNamedFieldPosition f.1 r.layout >>= _) = _
    rw [hposition]
    show (if (if f.2 = .stringArray then (0 : ℤ) < -1 else (-1 : ℤ) ≠ -1) then _ else _) = _
    rw [if_neg (by split_ifs <;> omega)]
    rfl

/-- All reads of a class. The collected type gets the fields that were noted. -/
lemma fromData_of_serves (ht : t.Ready fields)
    (hnodup : (fields.map Prod.fst).Nodup) (reads : List (String × PdxFieldTypes))
    (hserves : ∀ f ∈ reads, Serves fields f) {done : List (String × PdxFieldTypes)} {u : PdxType}
    (hnames : ((done ++ reads).map Prod.fst).Nodup) (hu : u.Collects done) :
    ∃ u', fromData c ⟨{ r with cursor := r.startBuffer }, u⟩ reads =
        .ok (reads.map o.value, ⟨{ r with cursor := r.startBuffer }, u'⟩) ∧
      PdxType.SameHeader u u' ∧ u'.Collects (done ++ reads.filter (notes fields)) := by
  induction reads generalizing done u with
  | nil =>
    refine ⟨u, rfl, ⟨rfl, rfl, rfl, rfl⟩, ?_⟩
    rwa [filter_nil, append_nil]
  | cons f reads ih =>
    have hf := hserves f mem_cons_self
    have hrest : ∀ g ∈ reads, Serves fields g := fun g hg => hserves g (mem_cons_of_mem _ hg)
    have hfresh : f.1 ∉ done.map Prod.fst := by
      rw [map_append] at hnames
      intro hmem
      exact disjoint_of_nodup_append hnames hmem mem_cons_self
    obtain ⟨v, hv, hvheader, hvcollects⟩ := hu.addField hfresh
    by_cases hnoted : notes fields f = true
    · have hread : readField c ⟨{ r with cursor := r.startBuffer }, u⟩ f.1 f.2 =
          .ok (o.value f, ⟨{ r with cursor := r.startBuffer }, v⟩) := by
        by_cases hmem : f ∈ fields
        · exact readField_of_mem hr ht hnodup hf hv hmem
        · have hobject : f.2 ≠ .object := by simpa [notes, hmem] using hnoted
          rw [readField_of_notMem hr ht hf hv hmem, if_neg hobject]
      obtain ⟨u', hfrom, hheader, hcollects⟩ := ih hrest
        (by rwa [append_assoc]) hvcollects
      refine ⟨u', ?_, hvheader.trans hheader, ?_⟩
      · rw [fromData, hread]
        show (fromData c _ reads >>= _) = _
        rw [hfrom]
        rfl
      · rwa [filter_cons_of_pos hnoted, ← singleton_append, ← append_assoc]
    · have hmem : f ∉ fields := by
        intro hmem
        exact hnoted (by simp [notes, hmem])
      have hobject : f.2 = .object := by simpa [notes, hmem] using hnoted
      have hread := readField_of_notMem (o := o) hr ht hf hv hmem r.startBuffer
      rw [if_pos hobject] at hread
      have hnames' : ((done ++ reads).map Prod.fst).Nodup := by
        refine hnames.sublist (List.Sublist.map _ ?_)
        exact List.Sublist.append_left (sublist_cons_self f reads) done
      obtain ⟨u', hfrom, hheader, _⟩ := ih hrest hnames' hu
      refine ⟨u', ?_, hheader, ?_⟩
      · rw [fromData, hread]
        show (fromData c _ reads >>= _) = _
        rw [hfrom]
        rfl
      · rwa [filter_cons_of_neg hnoted]

end PdxReaderWithTypeCollector

end GeodeNative
