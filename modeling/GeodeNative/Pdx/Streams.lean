import GeodeNative.Pdx.Deserialize
import GeodeNative.Pdx.TypeSpec

/-!
# What the receiver of a stream finds

A stream is written under the type of its sender and read under the type that the
receiver got from the server. Both describe the same fields, so the receiver finds the
id of the type in the header, every field at its place, and the bytes of each field when
it keeps them for later.
-/

namespace GeodeNative

open PdxType

open List

variable {fields : List (String × PdxFieldTypes)} {contents : List (List (BitVec 8))}
  {parts : List (Bool × List (BitVec 8))} {t : PdxType}

open PdxHelper

namespace PdxHelper

lemma readInt32_of_append {buffer front back : List (BitVec 8)} {value : ℤ}
    (h : buffer = front ++ lowBytes 4 value ++ back) {position : ℤ}
    (hposition : position = front.length) (hvalue : -2 ^ 31 ≤ value ∧ value < 2 ^ 31) :
    readInt32 buffer position = .ok value := by
  have hlt : (value % 2 ^ 32).toNat < 256 ^ 4 := by omega
  have hnat : ((lowBytes 4 value).foldl pushByte (0 : BitVec 32)).toNat =
      (value % 2 ^ 32).toNat := by
    rw [toNat_foldl_pushByte _ (by rw [length_lowBytes]), lowBytes, natOfBytes_bytesOfNat hlt]
  have hint : ((lowBytes 4 value).foldl pushByte (0 : BitVec 32)).toInt = value := by
    rw [BitVec.toInt_eq_toNat_cond]
    split_ifs <;> omega
  rw [readInt32, bytesAt_of_append h hposition length_lowBytes]
  exact congrArg Except.ok hint

end PdxHelper

/-- What a writer has written is opened by every receiver with as many fields of variable
length, with the id of the type of the writer. -/
theorem PdxLocalWriter.Written.received {before : List (BitVec 8)} {w : PdxLocalWriter}
    (h : Written before t parts w) (ht : t.numberOfVarLenFields = parts.countP Prod.fst)
    (hid : -2 ^ 31 ≤ t.geodeTypeId ∧ t.geodeTypeId < 2 ^ 31)
    (hbound : (parts.map Prod.snd).flatten.length + 4 * (parts.countP Prod.fst - 1) < 2 ^ 31) :
    ∃ len, readInt32 w.endObjectWriting.dataOutput before.length = .ok len ∧
      readInt32 w.endObjectWriting.dataOutput (before.length + 4) =
        .ok t.geodeTypeId ∧
      ∀ u : PdxType, u.numberOfVarLenFields = parts.countP Prod.fst →
        (PdxLocalReader.create w.endObjectWriting.dataOutput
          (before.length + PdxHelper.PdxHeader) u len).Opened u parts := by
  obtain ⟨len, hlen, hlt, -, -⟩ := h.calculateLenWithOffsets ht hbound
  have hdata := h.dataOutput_endObjectWriting hlen
  have hread := h.readInt32_length hlen hlt
  refine ⟨len, hread, ?_, ?_⟩
  · have hsecond : w.endObjectWriting.dataOutput = (before ++ lowBytes 4 len) ++
        lowBytes 4 t.geodeTypeId ++ ((parts.map Prod.snd).flatten ++
          w.offsetBytes (offsetWidth len)) := by
      rw [hdata]
      simp only [append_assoc]
    refine readInt32_of_append hsecond ?_ hid
    rw [length_append]
    rfl
  · intro _ hu
    obtain ⟨_, hr, hopened, -⟩ := h.opened ht hu hbound
    rw [PdxLocalReader.openAt, hread] at hr
    obtain rfl := Except.ok.inj hr
    exact hopened

namespace PdxType

variable {u : PdxType}

/-- Which parts of a stream have variable length depends on the fields only. -/
lemma Describes.parts_eq (ht : t.Describes fields) (hu : u.Describes fields) :
    t.parts contents = u.parts contents := by
  have hvar : ∀ {v : PdxType}, v.Describes fields →
      v.pdxFieldTypes.map PdxFieldType.isVariableLengthType =
        fields.map fun f => decide (f.2.getFixedTypeSize = -1) := by
    intro _ hv
    rw [← hv.signature, map_map]
    refine map_congr_left fun f hf => ?_
    rw [Bool.eq_iff_iff, (hv.standard f hf).isVariableLengthType]
    exact decide_eq_true_iff.symm
  rw [parts, parts, hvar ht, hvar hu]

/-- The stream of an object is opened by every receiver of its type. -/
lemma Describes.received (ht : t.Describes fields) (before : List (BitVec 8))
    (hid : -2 ^ 31 ≤ t.geodeTypeId ∧ t.geodeTypeId < 2 ^ 31)
    (hlength : contents.length = fields.length) (hbound : contents.flatten.length +
      4 * (t.pdxFieldTypes.countP PdxFieldType.isVariableLengthType - 1) < 2 ^ 31) :
    ∃ len, readInt32 (PdxLocalWriter.stream before t (t.parts contents))
        before.length = .ok len ∧
      readInt32 (PdxLocalWriter.stream before t (t.parts contents))
        (before.length + 4) = .ok t.geodeTypeId ∧
      ∀ u : PdxType, u.Describes fields →
        (PdxLocalReader.create (PdxLocalWriter.stream before t (t.parts contents))
          (before.length + PdxHelper.PdxHeader) u len).Opened u (u.parts contents) := by
  have hnumber : ∀ {v : PdxType}, v.Describes fields →
      v.numberOfVarLenFields = (v.parts contents).countP Prod.fst := by
    intro _ hv
    rw [hv.indexed.numberOfVarLenFields_eq, countP_parts (hv.length_eq.trans hlength.symm)]
  have hfit := ht.length_eq.trans hlength.symm
  have hbound' : ((t.parts contents).map Prod.snd).flatten.length +
      4 * ((t.parts contents).countP Prod.fst - 1) < 2 ^ 31 := by
    rwa [map_snd_parts hfit, countP_parts hfit]
  have hwritten := (PdxLocalWriter.written_create before t).writeFields (t.parts contents)
    (by omega)
  obtain ⟨len, hlen, htypeId, hopened⟩ := hwritten.received (hnumber ht) hid hbound'
  refine ⟨len, hlen, htypeId, ?_⟩
  intro u hu
  rw [hu.parts_eq ht]
  exact hopened u (by rw [hnumber hu, hu.parts_eq ht])

end PdxType

/-! ## Kept data -/

namespace PdxLocalReader

variable {r : PdxLocalReader} {bytes : List (BitVec 8)}

section

variable (hr : r.Opened t (t.parts contents)) {i : ℕ}

include hr

lemma Opened.getFieldPosition (ht : t.Ready fields)
    (hfit : Forall₂ PdxFieldType.Holds t.pdxFieldTypes contents) (hi : i < contents.length) :
    r.pdxType.getFieldPosition i r.layout = .ok (partStart contents i) := by
  rw [hr.pdxType]
  exact getFieldPosition_of_placed ht.indexed ht.placed ht.takesSpace hfit hr hi

lemma Opened.nextFieldPosition (ht : t.Ready fields)
    (hfit : Forall₂ PdxFieldType.Holds t.pdxFieldTypes contents) (hi : i < contents.length) :
    r.nextFieldPosition i = .ok (partStart contents (i + 1)) := by
  have htotal : r.pdxType.pdxFieldTypes.length = contents.length := by
    rw [hr.pdxType, hfit.length_eq]
  rw [PdxLocalReader.nextFieldPosition, htotal]
  split_ifs with hlast
  · rw [hr.serializedLength, map_snd_parts hfit.length_eq, hlast, partStart_length]
  · exact_mod_cast hr.getFieldPosition ht hfit (by omega : i + 1 < contents.length)

/-- The bytes at the position of a field are the ones that were written for it. -/
lemma Opened.bytesAt (hlength : t.pdxFieldTypes.length = contents.length)
    (hi : contents[i]? = some bytes) :
    bytesAt r.buffer (r.startBuffer + partStart contents i) bytes.length = .ok bytes := by
  obtain ⟨front, back, hfront, hbuffer⟩ := hr.buffer
  rw [map_snd_parts hlength, flatten_eq_append hi] at hbuffer
  have hsplit : r.buffer = (front ++ (contents.take i).flatten) ++ bytes ++
      ((contents.drop (i + 1)).flatten ++ back) := by
    rw [hbuffer]
    simp only [append_assoc]
  refine bytesAt_of_append hsplit ?_ rfl
  rw [length_append, ← hfront, partStart_eq_length_flatten]
  rfl

end

section

variable (hr : r.Opened t (t.parts contents)) (ht : t.Ready fields)
    (hfit : Forall₂ PdxFieldType.Holds t.pdxFieldTypes contents)

include hr ht hfit

/-- The bytes of a field are the ones that were written for it. -/
lemma Opened.fieldBytes {i : ℕ} (hi : contents[i]? = some bytes) : r.fieldBytes i = .ok bytes := by
  obtain ⟨hlt, -⟩ := List.getElem?_eq_some_iff.mp hi
  have hsucc := partStart_succ hi
  rw [PdxLocalReader.fieldBytes, hr.getFieldPosition ht hfit hlt]
  show (r.nextFieldPosition i >>= _) = _
  rw [hr.nextFieldPosition ht hfit hlt]
  show (if (partStart contents (i + 1) : ℤ) ≤ (partStart contents i : ℤ) then _ else _) = _
  split_ifs with hempty
  · have hnil : bytes = [] := by
      apply eq_nil_of_length_eq_zero
      omega
    rw [hnil]
    rfl
  · have hsize : ((partStart contents (i + 1) : ℤ) - (partStart contents i : ℤ)).toNat =
        bytes.length := by
      omega
    rw [hsize]
    exact hr.bytesAt hfit.length_eq hi

/-- The fields that the loop keeps are those that the local type lacks. -/
lemma Opened.preservedFields (map : List ℤ) (i : ℕ) (hmap : map.length = (contents.drop i).length) :
    r.preservedFields map i = .ok (((map.zip (contents.drop i)).filter
      fun entry => entry.1 = -1 ∨ entry.1 = -2).map Prod.snd) := by
  induction map generalizing i with
  | nil => rfl
  | cons mapped map ih =>
    have hlt : i < contents.length := by
      rw [length_cons, length_drop] at hmap
      omega
    rw [drop_eq_getElem_cons hlt, length_cons, length_cons, Nat.add_right_cancel_iff] at hmap
    rw [PdxLocalReader.preservedFields, drop_eq_getElem_cons hlt, zip_cons_cons]
    by_cases hkept : mapped = -1 ∨ mapped = -2
    · rw [if_pos hkept, hr.fieldBytes ht hfit (getElem?_eq_getElem hlt),
        filter_cons_of_pos (by simpa using hkept)]
      show (r.preservedFields map (i + 1) >>= _) = _
      rw [ih (i + 1) hmap]
      rfl
    · rw [if_neg hkept, ih (i + 1) hmap, filter_cons_of_neg (by simpa using hkept)]

/-- What `getPreservedData` keeps, once there is a merged type. -/
lemma Opened.getPreservedData {map : List ℤ}
    (hmap : t.remoteToLocalFieldMap = some map) (hlength : map.length = contents.length)
    (pdxIgnoreUnreadFields : Bool) (mergedVersion : PdxType) :
    r.getPreservedData pdxIgnoreUnreadFields (some mergedVersion) =
      .ok (if 0 < t.numberOfFieldsExtra ∧ pdxIgnoreUnreadFields = false then
        some ⟨t.geodeTypeId, mergedVersion.geodeTypeId, ((map.zip contents).filter
          fun entry => entry.1 = -1 ∨ entry.1 = -2).map Prod.snd⟩ else none) := by
  have hkept := hr.preservedFields ht hfit map 0 (by rwa [drop_zero])
  rw [PdxLocalReader.getPreservedData, hr.pdxType, hmap]
  split_ifs with hextra
  · show (r.preservedFields map 0 >>= _) = _
    rw [hkept]
    rfl
  · rfl

end

/-- Where the cursor stands does not matter for the place of the fields. -/
lemma Opened.with_cursor (hr : r.Opened t parts)
    (cursor : ℤ) : { r with cursor := cursor }.Opened t parts :=
  { hr with }

lemma Opened.with_pdxType {u : PdxType} (hr : r.Opened t (t.parts contents))
    (ht : t.Describes fields) (hu : u.Describes fields)
    (hnumber : u.numberOfVarLenFields = t.numberOfVarLenFields) :
    { r with pdxType := u }.Opened u (u.parts contents) := by
  rw [hu.parts_eq ht]
  refine ⟨rfl, hr.buffer, hr.serializedLength, ?_⟩
  intro j s hj hs
  have hread := hr.readOffset j s hj hs
  unfold PdxType.readOffset at hread ⊢
  rw [hnumber]
  exact hread

end PdxLocalReader

end GeodeNative
