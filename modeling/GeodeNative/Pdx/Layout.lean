import GeodeNative.Pdx.LocalWriter
import GeodeNative.Pdx.PositionMap

/-!
# Where the fields of a stream are

A stream that `PdxLocalWriter` has written is opened by `PdxLocalReader`, and
`getFieldPosition` finds every field where it was written. The width of the offsets
depends on a length that includes the table of offsets; writer and reader derive the
same width from it.
-/

namespace GeodeNative

open List Nat

variable {before buffer front : List (BitVec 8)} {w : PdxLocalWriter} {t : PdxType} {i : ℕ}

open PdxFieldType PdxHelper

/-! ## Numbers in a buffer -/

namespace PdxHelper

variable {size n : ℕ} {back : List (BitVec 8)}

lemma bytesAt_of_append {bytes : List (BitVec 8)}
    (h : buffer = front ++ bytes ++ back) {position : ℤ} (hposition : position = front.length)
    (hsize : bytes.length = size) : bytesAt buffer position size = .ok bytes := by
  subst h hposition hsize
  rw [bytesAt, if_pos (by simp only [length_append]; omega), Int.toNat_natCast,
    append_assoc, drop_left, take_left]

lemma length_lowBytes {value : ℤ} : (lowBytes size value).length = size := length_bytesOfNat

lemma toInt32_natCast (hn : n < 2 ^ 31) : toInt32 n = n := by
  unfold toInt32
  rw [Int.bmod_eq_of_le] <;> omega

lemma writeInt32_of_append {old : List (BitVec 8)}
    (h : buffer = front ++ old ++ back) (hold : old.length = 4) (value : ℤ) :
    writeInt32 buffer front.length value = front ++ lowBytes 4 value ++ back := by
  subst h
  rw [writeInt32, append_assoc front old, take_left, ← hold, ← append_assoc front,
    ← length_append, drop_left]

/-- An offset is read back from its bytes, whichever width it has. -/
lemma readInt_of_append (h : buffer = front ++ lowBytes size n ++ back) {position : ℤ}
    (hposition : position = front.length) (hwidth : size = 1 ∨ size = 2 ∨ size = 4)
    (hsize : n < 256 ^ size) (hn : n < 2 ^ 31) : readInt buffer position size = .ok n := by
  have hbytes := bytesAt_of_append h hposition length_lowBytes
  have hvalue : ∀ w, 8 * size ≤ w →
      ((lowBytes size n).foldl pushByte (0 : BitVec w)).toNat = n := by
    intro _ _
    have hmod : ((n : ℤ) % 2 ^ 32).toNat = n := by omega
    rw [toNat_foldl_pushByte _ (by rwa [length_lowBytes]), lowBytes, hmod,
      natOfBytes_bytesOfNat hsize]
  rcases hwidth with rfl | rfl | rfl
  · show (bytesAt buffer position 1 >>= _) = _
    rw [hbytes]
    exact congrArg (fun m : ℕ => Except.ok (m : ℤ)) (hvalue 8 le_rfl)
  · show (bytesAt buffer position 2 >>= _) = _
    rw [hbytes]
    exact congrArg (fun m : ℕ => Except.ok (m : ℤ)) (hvalue 16 le_rfl)
  · show (bytesAt buffer position 4 >>= _) = _
    rw [hbytes]
    have htoInt : ((lowBytes 4 n).foldl pushByte (0 : BitVec 32)).toInt = n := by
      rw [BitVec.toInt_eq_toNat_of_lt (by rw [hvalue 32 le_rfl]; omega), hvalue 32 le_rfl]
    exact congrArg Except.ok htoInt

end PdxHelper

/-! ## What the writer leaves -/

/-- The positions of the parts of variable length, for parts that begin at `p`. -/
def variableStarts : ℕ → List (Bool × List (BitVec 8)) → List ℕ
  | _, [] => []
  | p, (isVariableLengthType, content) :: parts =>
    if isVariableLengthType then p :: variableStarts (p + content.length) parts
    else variableStarts (p + content.length) parts

lemma getElem?_variableStarts {parts : List (Bool × List (BitVec 8))}
    {content : List (BitVec 8)} (hi : parts[i]? = some (true, content)) (p : ℕ) :
    (variableStarts p parts)[(parts.take i).countP Prod.fst]? =
      some (p + partStart (parts.map Prod.snd) i) := by
  induction parts generalizing p i with
  | nil => simp at hi
  | cons part _ ih =>
    obtain ⟨isVariableLengthType, bytes⟩ := part
    cases i with
    | zero =>
      obtain ⟨rfl, -⟩ : isVariableLengthType = true ∧ bytes = content := by simpa using hi
      simp [variableStarts]
    | succ =>
      have hrest := ih hi (p + bytes.length)
      cases isVariableLengthType <;>
        simpa [variableStarts, add_assoc] using hrest

lemma length_variableStarts (p : ℕ) (parts : List (Bool × List (BitVec 8))) :
    (variableStarts p parts).length = parts.countP Prod.fst := by
  induction parts generalizing p with
  | nil => rfl
  | cons part _ ih =>
    obtain ⟨isVariableLengthType, _⟩ := part
    cases isVariableLengthType <;> simp [variableStarts, ih]

lemma le_of_mem_variableStarts {p s : ℕ} {parts : List (Bool × List (BitVec 8))}
    (hs : s ∈ variableStarts p parts) : s ≤ p + (parts.map Prod.snd).flatten.length := by
  induction parts generalizing p with
  | nil => simp [variableStarts] at hs
  | cons part parts ih =>
    obtain ⟨isVariableLengthType, bytes⟩ := part
    have hrest : s ∈ variableStarts (p + bytes.length) parts →
        s ≤ p + (((isVariableLengthType, bytes) :: parts).map Prod.snd).flatten.length := by
      intro hs
      have hle := ih hs
      simp only [map_cons, flatten_cons, length_append]
      omega
    cases isVariableLengthType with
    | false => exact hrest hs
    | true =>
      rcases mem_cons.mp hs with rfl | hs
      · exact le_add_right _ _
      · exact hrest hs

lemma variableStarts_append_singleton (p : ℕ) (parts : List (Bool × List (BitVec 8)))
    (isVariableLengthType : Bool) (content : List (BitVec 8)) :
    variableStarts p (parts ++ [(isVariableLengthType, content)]) = variableStarts p parts ++
      if isVariableLengthType then [p + (parts.map Prod.snd).flatten.length] else [] := by
  induction parts generalizing p with
  | nil => cases isVariableLengthType <;> simp [variableStarts]
  | cons part _ ih =>
    obtain ⟨v, _⟩ := part
    cases v <;> simp [variableStarts, ih, add_assoc]

namespace PdxLocalWriter

/-- A writer that has written parts behind what was in the buffer before. -/
structure Written (before : List (BitVec 8)) (t : PdxType) (parts : List (Bool × List (BitVec 8)))
    (w : PdxLocalWriter) : Prop where
  dataOutput : ∃ header : List (BitVec 8), header.length = PdxHelper.PdxHeader ∧
    w.dataOutput = before ++ header ++ (parts.map Prod.snd).flatten
  startPositionOffset : w.startPositionOffset = before.length
  pdxType : w.pdxType = t
  offsets : w.offsets = (variableStarts 0 parts).map Nat.cast

variable {parts : List (Bool × List (BitVec 8))}

lemma written_create (before : List (BitVec 8)) (t : PdxType) :
    Written before t [] (create before t) where
  dataOutput := ⟨replicate PdxHelper.PdxHeader 0, length_replicate, by simp [create]⟩
  startPositionOffset := rfl
  pdxType := rfl
  offsets := rfl

lemma Written.bufferLen_sub (h : Written before t parts w) :
    w.bufferLen - PdxHelper.PdxHeader = (parts.map Prod.snd).flatten.length := by
  obtain ⟨_, hheader, hdata⟩ := h.dataOutput
  rw [bufferLen, h.startPositionOffset, hdata, length_append, length_append, hheader]
  omega

/-- One field extends what is written. -/
lemma Written.writeField (h : Written before t parts w)
    (hlen : (parts.map Prod.snd).flatten.length < 2 ^ 31) (isVariableLengthType : Bool)
    (content : List (BitVec 8)) :
    Written before t (parts ++ [(isVariableLengthType, content)])
      (w.writeField isVariableLengthType content) := by
  obtain ⟨header, hheader, hdata⟩ := h.dataOutput
  have hflatten : ((parts ++ [(isVariableLengthType, content)]).map Prod.snd).flatten =
      (parts.map Prod.snd).flatten ++ content := by
    simp
  refine ⟨⟨header, hheader, ?_⟩, ?_, ?_, ?_⟩
  · rw [hflatten, ← append_assoc, ← hdata]
    cases isVariableLengthType <;> rfl
  · cases isVariableLengthType <;> exact h.startPositionOffset
  · cases isVariableLengthType <;> exact h.pdxType
  · rw [variableStarts_append_singleton]
    cases isVariableLengthType with
    | false => simpa [PdxLocalWriter.writeField, write] using h.offsets
    | true =>
      show w.offsets ++ [toInt32 (w.bufferLen - PdxHelper.PdxHeader)] = _
      rw [h.offsets, h.bufferLen_sub, toInt32_natCast hlen, map_append, zero_add]
      rfl

/-- By induction on the fields. -/
lemma Written.writeFields (h : Written before t [] w) (parts : List (Bool × List (BitVec 8)))
    (hlen : (parts.map Prod.snd).flatten.length < 2 ^ 31) :
    Written before t parts (w.writeFields parts) := by
  induction parts using reverseRecOn with
  | nil => exact h
  | append_singleton parts part ih =>
    have hfront : (parts.map Prod.snd).flatten.length < 2 ^ 31 := by
      simp only [map_append, flatten_append, length_append] at hlen
      omega
    rw [PdxLocalWriter.writeFields, foldl_append]
    exact (ih hfront).writeField hfront part.1 part.2

/-- The width of the offsets in a stream of a length. -/
def offsetWidth (len : ℤ) : ℕ :=
  if len ≤ 0xff then 1 else if len ≤ 0xffff then 2 else 4

lemma offsetWidth_cases (len : ℤ) :
    offsetWidth len = 1 ∨ offsetWidth len = 2 ∨ offsetWidth len = 4 := by
  unfold offsetWidth
  split_ifs <;> simp

/-- The length that the writer puts into the header counts an offset of the width that this
length calls for, and an offset of that width reaches every field. -/
lemma Written.calculateLenWithOffsets (h : Written before t parts w) {n : ℕ}
    (hn : t.numberOfVarLenFields = n)
    (hlen : (parts.map Prod.snd).flatten.length + 4 * (n - 1) < 2 ^ 31) :
    ∃ len : ℕ, w.calculateLenWithOffsets = len ∧ len < 2 ^ 31 ∧
      len = (parts.map Prod.snd).flatten.length + (n - 1) * offsetWidth len ∧
      (parts.map Prod.snd).flatten.length < 256 ^ offsetWidth len := by
  set d := (parts.map Prod.snd).flatten.length with hd
  have htotal : (if 0 < t.numberOfVarLenFields then t.numberOfVarLenFields - 1 else 0) =
      ((n - 1 : ℕ) : ℤ) := by
    rw [hn]
    split_ifs <;> omega
  have hcast : toInt32 ((d : ℤ) + ((n - 1 : ℕ) : ℤ)) = ((d + (n - 1) : ℕ) : ℤ) := by
    rw [← cast_add]
    exact toInt32_natCast (by omega)
  rw [PdxLocalWriter.calculateLenWithOffsets, h.pdxType, htotal, h.bufferLen_sub, ← hd, hcast]
  by_cases hone : d + (n - 1) ≤ 0xff
  · have hwidth : offsetWidth ((d + (n - 1) : ℕ) : ℤ) = 1 := if_pos (by omega)
    rw [if_pos (by omega)]
    exact ⟨d + (n - 1), rfl, by omega, by rw [hwidth]; omega, by rw [hwidth]; omega⟩
  · rw [if_neg (by omega)]
    by_cases htwo : d + (n - 1) + (n - 1) ≤ 0xffff
    · have hwidth : offsetWidth ((d + 2 * (n - 1) : ℕ) : ℤ) = 2 := by
        rw [offsetWidth, if_neg (by omega), if_pos (by omega)]
      rw [if_pos (by omega)]
      exact ⟨d + 2 * (n - 1), by omega, by omega, by rw [hwidth]; omega, by rw [hwidth]; omega⟩
    · have hwidth : offsetWidth ((d + 4 * (n - 1) : ℕ) : ℤ) = 4 := by
        rw [offsetWidth, if_neg (by omega), if_neg (by omega)]
      rw [if_neg (by omega)]
      exact ⟨d + 4 * (n - 1), by omega, by omega, by rw [hwidth]; omega, by rw [hwidth]; omega⟩

/-- The offsets are written in the width of the length. -/
lemma writeOffsets_eq (w : PdxLocalWriter) (len : ℤ) :
    w.writeOffsets len = w.write (w.offsetBytes (offsetWidth len)) := by
  unfold writeOffsets offsetWidth
  split_ifs <;> rfl

lemma Written.dataOutput_endObjectWriting (h : Written before t parts w) {len : ℤ}
    (hlen : w.calculateLenWithOffsets = len) :
    w.endObjectWriting.dataOutput = before ++ lowBytes 4 len ++
      lowBytes 4 t.geodeTypeId ++ (parts.map Prod.snd).flatten ++
      w.offsetBytes (offsetWidth len) := by
  obtain ⟨header, hheader, hdata⟩ := h.dataOutput
  -- the header is overwritten in two halves
  have hsplit : w.dataOutput =
      before ++ header.take 4 ++ (header.drop 4 ++ (parts.map Prod.snd).flatten) := by
    rw [hdata, ← append_assoc, append_assoc before (header.take 4), take_append_drop]
  have hfirst := writeInt32_of_append hsplit (by simp [hheader, PdxHelper.PdxHeader]) len
  have hsecond := writeInt32_of_append (hfirst.trans (append_assoc _ _ _).symm)
    (by simp [hheader, PdxHelper.PdxHeader]) t.geodeTypeId
  rw [length_append, length_lowBytes] at hsecond
  rw [endObjectWriting, writePdxHeader, hlen, h.startPositionOffset, h.pdxType, writeOffsets_eq]
  show _ ++ offsetBytes _ _ = _
  rw [hsecond]
  rfl

end PdxLocalWriter

/-! ## What the reader finds -/

/-- A reader of type `u` whose start is that of the parts in its buffer, and whose table has
the offsets of the parts of variable length. -/
structure PdxLocalReader.Opened (u : PdxType) (parts : List (Bool × List (BitVec 8)))
    (r : PdxLocalReader) : Prop where
  pdxType : r.pdxType = u
  buffer : ∃ front back : List (BitVec 8), (front.length : ℤ) = r.startBuffer ∧
    r.buffer = front ++ (parts.map Prod.snd).flatten ++ back
  serializedLength : r.serializedLength = (parts.map Prod.snd).flatten.length
  readOffset : ∀ (j s : ℕ), 0 < j → (variableStarts 0 parts)[j]? = some s →
    u.readOffset r.layout j = .ok s

namespace PdxLocalWriter

variable {u : PdxType} {parts : List (Bool × List (BitVec 8))} (h : Written before t parts w)

include h

/-- The entry of the table for a part of variable length behind the first one. -/
lemma Written.offsetBytes_split {size : ℕ} {j s : ℕ} (hj : 0 < j)
    (hs : (variableStarts 0 parts)[j]? = some s) :
    ∃ front back : List (BitVec 8),
      front.length = ((variableStarts 0 parts).length - 1 - j) * size ∧
      w.offsetBytes size = front ++ lowBytes size s ++ back := by
  set starts := variableStarts 0 parts with hstarts
  set entries := ((starts.map (Nat.cast : ℕ → ℤ)).drop 1).reverse.map (lowBytes size) with hentries
  obtain ⟨hlt, rfl⟩ := List.getElem?_eq_some_iff.mp hs
  have hlength : entries.length = starts.length - 1 := by simp [hentries]
  have hentry : entries[starts.length - 1 - j]? = some (lowBytes size (starts[j] : ℕ)) := by
    have hindex : starts.length - 1 - 1 - (starts.length - 1 - j) + 1 = j := by omega
    rw [hentries, getElem?_map, getElem?_reverse (by simp; omega), getElem?_drop]
    simp [add_comm 1, hindex, hlt]
  refine ⟨(entries.take (starts.length - 1 - j)).flatten,
    (entries.drop (starts.length - 1 - j + 1)).flatten, ?_, ?_⟩
  · rw [← partStart_eq_length_flatten]
    refine partStart_of_forall_length ?_ (by omega)
    intro _ hpart
    obtain ⟨_, -, rfl⟩ := mem_map.mp hpart
    exact length_lowBytes
  · rw [offsetBytes, h.offsets]
    exact flatten_eq_append hentry

/-- A buffer with the fields and the table behind a front is opened by a reader that starts
behind the front and has as many fields of variable length. -/
lemma Written.opened_of_append
    (hu : u.numberOfVarLenFields = parts.countP Prod.fst) {len : ℕ} (hlt : len < 2 ^ 31)
    (hsum : len = (parts.map Prod.snd).flatten.length +
      (parts.countP Prod.fst - 1) * offsetWidth len)
    (hwidth : (parts.map Prod.snd).flatten.length < 256 ^ offsetWidth len) (hdata : buffer =
      front ++ (parts.map Prod.snd).flatten ++ w.offsetBytes (offsetWidth len)) :
    (PdxLocalReader.create buffer front.length u len).Opened u parts := by
  set body := (parts.map Prod.snd).flatten with hbody
  set r := PdxLocalReader.create buffer front.length u len with hr
  have hserialized : r.serializedLength = body.length := by
    show (if 0 < u.numberOfVarLenFields then
      (len : ℤ) - (u.numberOfVarLenFields - 1) * offsetWidth len else len) = body.length
    rw [hu]
    -- the writer counts one offset less than there are fields of variable length, or none
    rcases Nat.eq_zero_or_pos (parts.countP Prod.fst) with hzero | hpos
    · rw [hzero] at hsum ⊢
      rw [if_neg (by simp)]
      omega
    · have hpred : ((parts.countP Prod.fst : ℕ) : ℤ) - 1 =
          ((parts.countP Prod.fst - 1 : ℕ) : ℤ) := by
        omega
      rw [if_pos (by omega), hpred, ← cast_mul]
      omega
  refine ⟨rfl, ⟨front, w.offsetBytes (offsetWidth len), rfl, hdata⟩, hserialized, ?_⟩
  intro j s hj hs
  obtain ⟨tableFront, back, hfront, htable⟩ := h.offsetBytes_split hj hs
  have hj' := (List.getElem?_eq_some_iff.mp hs).1
  have hle := le_of_mem_variableStarts (mem_of_getElem? hs)
  rw [← hbody, zero_add] at hle
  have hentry : buffer = front ++ body ++ tableFront ++ lowBytes (offsetWidth len) s ++ back := by
    rw [hdata, htable]
    simp only [append_assoc]
  rw [length_variableStarts] at hfront hj'
  refine readInt_of_append hentry ?_ (offsetWidth_cases len) (by omega) (by omega)
  have hposition : r.layout.offsetPosition = front.length + r.serializedLength := rfl
  have hindex : ((parts.countP Prod.fst : ℕ) : ℤ) - j - 1 =
      ((parts.countP Prod.fst - 1 - j : ℕ) : ℤ) := by
    omega
  rw [hposition, hserialized, hu, hindex]
  simp only [length_append, hfront]
  push_cast
  rfl

/-- The length is found in front of the data. -/
lemma Written.readInt32_length {len : ℕ} (hlen : w.calculateLenWithOffsets = len)
    (hlt : len < 2 ^ 31) : readInt32 w.endObjectWriting.dataOutput before.length = .ok len := by
  have hdata := h.dataOutput_endObjectWriting hlen
  simp only [append_assoc] at hdata
  rw [← append_assoc] at hdata
  exact readInt_of_append hdata rfl (by simp) (by omega) hlt

/-- What was written is opened again, by a reader with as many fields of variable length. -/
theorem Written.opened (ht : t.numberOfVarLenFields = parts.countP Prod.fst)
    (hu : u.numberOfVarLenFields = parts.countP Prod.fst)
    (hbound : (parts.map Prod.snd).flatten.length + 4 * (parts.countP Prod.fst - 1) < 2 ^ 31) :
    ∃ r, PdxLocalReader.openAt w.endObjectWriting.dataOutput before.length u = .ok r ∧
      r.Opened u parts ∧ ∃ header : List (BitVec 8), header.length = PdxHelper.PdxHeader ∧
        w.endObjectWriting.dataOutput =
          before ++ header ++ (parts.map Prod.snd).flatten ++ w.offsetBytes r.offsetSize := by
  obtain ⟨len, hlen, hlt, hsum, hwidth⟩ := h.calculateLenWithOffsets ht hbound
  have hdata := h.dataOutput_endObjectWriting hlen
  set header := lowBytes 4 len ++ lowBytes 4 t.geodeTypeId with hheader
  have hheaderLength : header.length = PdxHelper.PdxHeader := by
    rw [hheader, length_append, length_lowBytes, length_lowBytes]
    rfl
  have hsplit : w.endObjectWriting.dataOutput =
      (before ++ header) ++ (parts.map Prod.snd).flatten ++ w.offsetBytes (offsetWidth len) := by
    rw [hdata, hheader]
    simp only [append_assoc]
  have hopened := h.opened_of_append hu hlt hsum hwidth hsplit
  rw [length_append, hheaderLength, cast_add] at hopened
  refine ⟨_, ?_, hopened, header, hheaderLength, hsplit⟩
  rw [PdxLocalReader.openAt, h.readInt32_length hlen hlt]
  rfl

end PdxLocalWriter

/-! ## Every field is found -/

/-- The contents of fields, in the form in which a writer takes them. -/
def PdxType.parts (t : PdxType) (contents : List (List (BitVec 8))) :
    List (Bool × List (BitVec 8)) :=
  (t.pdxFieldTypes.map PdxFieldType.isVariableLengthType).zip contents

namespace PdxType

variable {contents : List (List (BitVec 8))} {r : PdxLocalReader}

section

variable (hlength : t.pdxFieldTypes.length = contents.length)

include hlength

lemma map_snd_parts : (t.parts contents).map Prod.snd = contents := by
  rw [parts, map_snd_zip]
  simp [hlength]

lemma map_fst_parts : (t.parts contents).map Prod.fst =
      t.pdxFieldTypes.map isVariableLengthType := by
  rw [parts, map_fst_zip]
  simp [hlength]

lemma countP_parts : (t.parts contents).countP Prod.fst =
      t.pdxFieldTypes.countP isVariableLengthType := by
  have hmap := congrArg (fun l => l.countP id) (map_fst_parts hlength)
  simpa [countP_map, Function.comp_def] using hmap

end

/-- A reader finds every field of a type with a position map. -/
theorem positionOf_of_placed (ht : t.Indexed) (hplaced : t.Placed)
    (hspace : ∀ f ∈ t.pdxFieldTypes, f.TakesSpace)
    (hfit : Forall₂ PdxFieldType.Holds t.pdxFieldTypes contents)
    (hr : r.Opened t (t.parts contents)) {f : PdxFieldType} (hi : t.pdxFieldTypes[i]? = some f) :
    t.positionOf f r.layout = .ok (partStart contents i) := by
  have hlength := hfit.length_eq
  have hstream : r.layout.pdxStreamlen = 0 + contents.flatten.length := by
    rw [zero_add, ← map_snd_parts hlength]
    exact hr.serializedLength
  have htable : TailTableHolds t r.layout 0 t.pdxFieldTypes contents := by
    intro j g hg hvar hcount
    obtain ⟨_, _⟩ := List.getElem?_eq_some_iff.mp hg
    have hpart : (t.parts contents)[j]? = some (true, contents[j]) := by
      rw [parts, getElem?_zip_eq_some]
      simp [hg, hvar]
    have hstart := getElem?_variableStarts hpart 0
    have hmap := congrArg (fun l => (l.take j).countP id) (map_fst_parts hlength)
    simp only [← map_take, countP_map, Function.comp_def, id] at hmap
    rw [hmap, map_snd_parts hlength, zero_add] at hstart
    rw [ht.varLenFieldIdx_eq j g hg hvar, zero_add]
    exact ⟨Int.natCast_nonneg _, hr.readOffset _ _ hcount hstart⟩
  rw [hplaced] at hi
  have hposition := positionOf_offsetsFromFront hfit hspace le_rfl hstream htable i f hi
  rwa [zero_add] at hposition

/-- As `positionOf_of_placed`, by the index of the field. -/
lemma getFieldPosition_of_placed (ht : t.Indexed) (hplaced : t.Placed)
    (hspace : ∀ f ∈ t.pdxFieldTypes, f.TakesSpace)
    (hfit : Forall₂ PdxFieldType.Holds t.pdxFieldTypes contents)
    (hr : r.Opened t (t.parts contents)) (hi : i < contents.length) :
    t.getFieldPosition i r.layout = .ok (partStart contents i) := by
  have hget := getElem?_eq_getElem (hfit.length_eq ▸ hi)
  rw [getFieldPosition, if_neg (by omega), Int.toNat_natCast, hget]
  exact positionOf_of_placed ht hplaced hspace hfit hr hget

/-- A reader finds the fields of an object where the writer put them: behind what the buffer
held before and a header, one behind the other, with a table of offsets of the width that the
reader expects. -/
def FindsFields (t : PdxType) (before : List (BitVec 8)) (contents : List (List (BitVec 8))) :
    Prop :=
  ∃ (r : PdxLocalReader) (header : List (BitVec 8)),
    PdxLocalReader.openAt (PdxLocalWriter.stream before t (t.parts contents)) before.length t =
      .ok r ∧
    header.length = PdxHelper.PdxHeader ∧
    PdxLocalWriter.stream before t (t.parts contents) = before ++ header ++ contents.flatten ++
      ((PdxLocalWriter.create before t).writeFields (t.parts contents)).offsetBytes r.offsetSize ∧
    ∀ i < contents.length, t.getFieldPosition i r.layout = .ok (partStart contents i)

/-- What was written for a type is opened again. -/
lemma exists_opened (ht : t.Indexed) (before : List (BitVec 8))
    (hlength : t.pdxFieldTypes.length = contents.length) (hbound : contents.flatten.length +
      4 * (t.pdxFieldTypes.countP isVariableLengthType - 1) < 2 ^ 31) :
    ∃ r, PdxLocalReader.openAt (PdxLocalWriter.stream before t (t.parts contents))
        before.length t = .ok r ∧ r.Opened t (t.parts contents) ∧
      ∃ header : List (BitVec 8), header.length = PdxHelper.PdxHeader ∧
        PdxLocalWriter.stream before t (t.parts contents) = before ++ header ++ contents.flatten ++
          ((PdxLocalWriter.create before t).writeFields (t.parts contents)).offsetBytes
            r.offsetSize := by
  have hnumber : t.numberOfVarLenFields = (t.parts contents).countP Prod.fst := by
    rw [ht.numberOfVarLenFields_eq, countP_parts hlength]
  have hbound' : ((t.parts contents).map Prod.snd).flatten.length +
      4 * ((t.parts contents).countP Prod.fst - 1) < 2 ^ 31 := by
    rwa [map_snd_parts hlength, countP_parts hlength]
  have hwritten := (PdxLocalWriter.written_create before t).writeFields (t.parts contents)
    (by omega)
  have hopened := hwritten.opened hnumber hnumber hbound'
  rwa [map_snd_parts hlength] at hopened

/-- A type made by calls with distinct names finds the fields of every object, if its fields of
fixed size take up space. -/
theorem findsFields_of_addField (className : String) (isLocal expectDomainClass : Bool)
    (calls : List FieldCall) (hnames : (calls.map FieldCall.fieldName).Nodup) {t : PdxType}
    (hcalls : calls.foldlM addField (create className isLocal expectDomainClass) = .ok t)
    (hspace : ∀ f ∈ t.pdxFieldTypes, f.TakesSpace) (typeId : ℤ) (localPdxType : Option PdxType)
    (before : List (BitVec 8)) {contents : List (List (BitVec 8))}
    (hfit : List.Forall₂ PdxFieldType.Holds t.pdxFieldTypes contents)
    (hbound : contents.flatten.length +
      4 * (t.pdxFieldTypes.countP PdxFieldType.isVariableLengthType - 1) < 2 ^ 31) :
    ((t.setTypeId typeId).initializeType localPdxType).FindsFields before contents := by
  obtain ⟨t', ht', hgrowing, -, -⟩ := foldlM_addField_create hnames
  obtain rfl : t' = t := by
    rw [hcalls, Except.ok.injEq] at ht'
    exact ht'.symm
  have hindexed : (t'.setTypeId typeId).Indexed :=
    { hgrowing with }
  set u := (t'.setTypeId typeId).initializeType localPdxType
  have hfit' : List.Forall₂ PdxFieldType.Holds u.pdxFieldTypes contents :=
    forall₂_holds_initializeType.mpr hfit
  have hcount : u.pdxFieldTypes.countP isVariableLengthType =
      t'.pdxFieldTypes.countP isVariableLengthType := by
    have hnumber := numberOfVarLenFields_initializeType (t'.setTypeId typeId) localPdxType
    rw [hindexed.initializeType.numberOfVarLenFields_eq,
      hindexed.numberOfVarLenFields_eq] at hnumber
    exact cast_injective hnumber
  obtain ⟨r, hopen, hopened, header, hheader, hdata⟩ :=
    exists_opened hindexed.initializeType before hfit'.length_eq (by rw [hcount]; exact hbound)
  refine ⟨r, header, hopen, hheader, hdata, ?_⟩
  intro _ hi
  exact getFieldPosition_of_placed hindexed.initializeType
    placed_initializeType (takesSpace_initializeType hspace) hfit'
    hopened hi

/-- A class with a field in front, two of variable length and one at the end. -/
theorem findsFields_four_fields :
    ∃ t, [FieldCall.addFixedLengthTypeField "id" "int" .int PdxTypes.kPdxIntegerSize,
        .addVariableLengthTypeField "name" "String" .string,
        .addVariableLengthTypeField "tags" "String[]" .stringArray,
        .addFixedLengthTypeField "flag" "boolean" .boolean PdxTypes.kPdxBooleanSize].foldlM
          addField (create "Order" true true) = .ok t ∧
      ((t.setTypeId 7).initializeType none).FindsFields [93]
        [[0, 0, 0, 1], [87, 0, 1, 65], [1, 87, 0, 0], [1]] := by
  refine ⟨_, rfl, findsFields_of_addField "Order" true true
    [.addFixedLengthTypeField "id" "int" .int PdxTypes.kPdxIntegerSize,
      .addVariableLengthTypeField "name" "String" .string,
      .addVariableLengthTypeField "tags" "String[]" .stringArray,
      .addFixedLengthTypeField "flag" "boolean" .boolean PdxTypes.kPdxBooleanSize]
    (by decide) rfl ?_ 7 none [93] ?_ ?_⟩ <;> decide

/-- A field of no size behind one of variable length is looked for at the start. -/
theorem not_findsFields_empty_field :
    ∃ t, [FieldCall.addVariableLengthTypeField "name" "String" .string,
        .addFixedLengthTypeField "none" "byte" .byte 0].foldlM
          addField (create "Order" true true) = .ok t ∧
      List.Forall₂ PdxFieldType.Holds t.pdxFieldTypes [[69], []] ∧
      ¬ ((t.setTypeId 7).initializeType none).FindsFields [] [[69], []] := by
  refine ⟨_, rfl, by decide, ?_⟩
  rintro ⟨_, _, _, -, -, hfind⟩
  have hposition := hfind 1 (by decide)
  cases hposition

end PdxType

end GeodeNative
