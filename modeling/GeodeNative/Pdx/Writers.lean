import GeodeNative.Library.Outcomes
import GeodeNative.Pdx.TypeSpec

/-!
# The writers of the first and of later objects

The first object of a class is written by `PdxWriterWithTypeCollector`, which collects the type
of the class on the way, and the later ones by `PdxRemoteWriter`. The collector has its own
code for the offsets: it counts the offsets it has recorded where `PdxLocalWriter` counts the
fields of the type, and it computes with `int`s. Both numbers stay equal while the fields are
written (`Alike`), so the three writers leave the same bytes (`serializePdx_agree`).
-/

namespace GeodeNative

open List

open PdxType

/-- A field that `toData` writes, with the bytes of its value. -/
structure FieldWrite where
  fieldName : String
  kind : PdxFieldTypes
  bytes : List (BitVec 8)

/-- Whether the method of `PdxLocalWriter` for a kind begins with `addOffset`. -/
def PdxFieldTypes.addsOffset : PdxFieldTypes → Bool
  | char | boolean | byte | short | int | long | float | double | date => false
  | unknown | string | stringArray | object | booleanArray | charArray | byteArray | shortArray
  | intArray | longArray | floatArray | doubleArray | objectArray | arrayOfByteArrays => true

/-- The field as `PdxLocalWriter` takes it. -/
def FieldWrite.part (f : FieldWrite) : Bool × List (BitVec 8) :=
  (f.kind.addsOffset, f.bytes)

/-! ## The collecting writer -/

-- The writer has the members of a `PdxLocalWriter`; its type is the one that is collected.
namespace PdxWriterWithTypeCollector

open PdxHelper

/-- The constructor with `initialize`. -/
def create (dataOutput : List (BitVec 8)) (domainClassName : String) : PdxLocalWriter :=
  .create dataOutput (.create domainClassName true true)

/-- The bytes since the start of the object, as an `int`: sums of `int`s wrap around. -/
def bufferLen (w : PdxLocalWriter) : ℤ :=
  toInt32 (toInt32 w.dataOutput.length - toInt32 w.startPositionOffset)

def addOffset (w : PdxLocalWriter) : PdxLocalWriter :=
  { w with offsets := w.offsets ++ [toInt32 (bufferLen w - PdxHeader)] }

/-- A `write` of a field: it is added to the type, and `PdxLocalWriter` writes it. -/
def writeField (w : PdxLocalWriter) (f : FieldWrite) : Except PdxError PdxLocalWriter := do
  let pdxType ← w.pdxType.addField (.ofKind f.fieldName f.kind)
  let w := { w with pdxType }
  return if f.kind.addsOffset then (addOffset w).write f.bytes else w.write f.bytes

def calculateLenWithOffsets (w : PdxLocalWriter) : ℤ :=
  let totalOffsets : ℤ := if 0 < w.offsets.length then w.offsets.length - 1 else 0
  let totalLen := toInt32 (toInt32 (bufferLen w - PdxHeader) + totalOffsets)
  if totalLen ≤ 0xff then
    totalLen
  else if totalLen + totalOffsets ≤ 0xffff then
    totalLen + totalOffsets
  else
    totalLen + totalOffsets * 3

/-- `writeOffsets` has the loops of `PdxLocalWriter`. -/
def writeOffsets (w : PdxLocalWriter) (len : ℤ) : PdxLocalWriter :=
  w.writeOffsets len

/-- `PdxLocalWriter::writePdxHeader` with the methods of the collector. -/
def endObjectWriting (w : PdxLocalWriter) : PdxLocalWriter :=
  let len := calculateLenWithOffsets w
  let header := writeInt32 (writeInt32 w.dataOutput w.startPositionOffset len)
    (w.startPositionOffset + 4) w.pdxType.geodeTypeId
  writeOffsets { w with dataOutput := header } len

end PdxWriterWithTypeCollector

/-! ## The remote writer -/

structure PdxRemoteWriter extends PdxLocalWriter where
  preserveData : Option (List (List (BitVec 8)))
  preserveDataIdx : ℕ
  currentDataIdx : ℤ
  remoteTolocalMap : List ℤ

namespace PdxRemoteWriter

/-- The constructors: the one for preserved data takes the map of the merged type, and the
other the local type of the class. -/
def create (dataOutput : List (BitVec 8)) (pdxType : PdxType)
    (preserved : Option (List ℤ × List (List (BitVec 8)))) : PdxRemoteWriter where
  toPdxLocalWriter := .create dataOutput pdxType
  preserveData := preserved.map Prod.snd
  preserveDataIdx := 0
  currentDataIdx := -1
  remoteTolocalMap := (preserved.map Prod.fst).getD []

/-- The loop of `writePreserveData` over the map from the current index on. -/
def preserveLoop (data : List (List (BitVec 8))) :
    List ℤ → PdxRemoteWriter → Except PdxError PdxRemoteWriter
  | [], w => .ok w
  | choice :: rest, w =>
    if choice = -1 ∨ choice = -2 then
      match data[w.preserveDataIdx]? with
      | none => .error .outOfBounds
      | some bytes => preserveLoop data rest { w with
          -- only a field of variable length gets an offset
          toPdxLocalWriter := w.toPdxLocalWriter.writeField (choice = -1) bytes
          preserveDataIdx := w.preserveDataIdx + 1
          currentDataIdx := w.currentDataIdx + 1 }
    else
      .ok w

def writePreserveData (w : PdxRemoteWriter) : Except PdxError PdxRemoteWriter :=
  let w := { w with currentDataIdx := w.currentDataIdx + 1 }
  match w.preserveData with
  | none => .ok w
  | some data => preserveLoop data (w.remoteTolocalMap.drop w.currentDataIdx.toNat) w

def writeField (w : PdxRemoteWriter) (f : FieldWrite) : Except PdxError PdxRemoteWriter := do
  let w ← w.writePreserveData
  return { w with toPdxLocalWriter := w.toPdxLocalWriter.writeField f.kind.addsOffset f.bytes }

def endObjectWriting (w : PdxRemoteWriter) : Except PdxError PdxRemoteWriter := do
  let w ← w.writePreserveData
  return { w with toPdxLocalWriter := w.toPdxLocalWriter.writePdxHeader }

end PdxRemoteWriter

/-- `PdxHelper::serializePdx` of an object that writes these fields, given the local type of its
class, the id that the registry gives to a new type, and what is preserved for the object with
its merged type. It returns the buffer and the local type of the class. -/
def PdxHelper.serializePdx (output : List (BitVec 8)) (className : String) (nTypeId : ℤ)
    (fields : List FieldWrite) (localPdxType : Option PdxType)
    (preserved : Option (PdxType × List ℤ × List (List (BitVec 8)))) :
    Except PdxError (List (BitVec 8) × PdxType) :=
  match localPdxType with
  | none => do
    let ptc ← fields.foldlM PdxWriterWithTypeCollector.writeField
      (PdxWriterWithTypeCollector.create output className)
    let nType := (ptc.pdxType.initializeType none).setTypeId nTypeId
    let ptc := PdxWriterWithTypeCollector.endObjectWriting { ptc with pdxType := nType }
    return (ptc.dataOutput, nType)
  | some localPdxType => do
    let prw ← fields.foldlM PdxRemoteWriter.writeField
      (.create output ((preserved.map Prod.fst).getD localPdxType) (preserved.map Prod.snd))
    let prw ← prw.endObjectWriting
    return (prw.dataOutput, localPdxType)

/-! ## Agreement -/

lemma PdxFieldTypes.addsOffset_eq (kind : PdxFieldTypes) :
    kind.addsOffset = kind.declaredSize.isNone := by
  cases kind <;> rfl

namespace PdxWriterWithTypeCollector

open PdxHelper

/-- A collecting writer and a local writer under a type that have written the same: the
collected type counts the offsets. -/
structure Alike (t : PdxType) (w v : PdxLocalWriter) : Prop where
  dataOutput : w.dataOutput = v.dataOutput
  startPositionOffset : w.startPositionOffset = v.startPositionOffset
  offsets : w.offsets = v.offsets
  numberOfVarLenFields : w.pdxType.numberOfVarLenFields = w.offsets.length
  pdxType : v.pdxType = t

variable {t u : PdxType} {w v w' : PdxLocalWriter} {fields : List FieldWrite}

/-- Wrapping around on the way does not change an `int`. -/
lemma toInt32_bufferLen (w : PdxLocalWriter) :
    toInt32 (bufferLen w - PdxHeader) = toInt32 (w.bufferLen - PdxHeader) := by
  simp [bufferLen, PdxLocalWriter.bufferLen, toInt32]

lemma toInt32_add (z n : ℤ) : toInt32 (toInt32 z + n) = toInt32 (z + n) := by
  simp [toInt32]

lemma Alike.bufferLen_eq (h : Alike t w v) : w.bufferLen = v.bufferLen := by
  rw [PdxLocalWriter.bufferLen, PdxLocalWriter.bufferLen, h.dataOutput, h.startPositionOffset]

lemma numberOfVarLenFields_addField {fieldName : String} {kind : PdxFieldTypes}
    (h : t.addField (.ofKind fieldName kind) = .ok u) :
    u.numberOfVarLenFields = t.numberOfVarLenFields + if kind.addsOffset then 1 else 0 := by
  rw [PdxFieldTypes.addsOffset_eq]
  cases hsize : kind.declaredSize with
  | some =>
    simp only [FieldCall.ofKind, hsize, addField, addFixedLengthTypeField] at h
    split_ifs at h
    cases h
    simp [pushField]
  | none =>
    simp only [FieldCall.ofKind, hsize, addField, addVariableLengthTypeField] at h
    split_ifs at h <;> cases h <;> simp [pushField]

lemma Alike.writeField (h : Alike t w v) {f : FieldWrite}
    (hwrite : writeField w f = .ok w') : Alike t w' (v.writeField f.part.1 f.part.2) := by
  obtain ⟨u, hu, rfl⟩ := exists_of_bind_pure_eq_ok hwrite
  have hnumber := (numberOfVarLenFields_addField hu).trans (congrArg (· + _) h.numberOfVarLenFields)
  have hdata := congrArg (· ++ f.bytes) h.dataOutput
  cases hadds : f.kind.addsOffset with
  | false =>
    rw [FieldWrite.part, hadds]
    rw [hadds] at hnumber
    exact ⟨hdata, h.startPositionOffset, h.offsets, hnumber, h.pdxType⟩
  | true =>
    rw [FieldWrite.part, hadds]
    rw [hadds] at hnumber
    have hoffset := toInt32_bufferLen w
    rw [h.bufferLen_eq] at hoffset
    refine ⟨hdata, h.startPositionOffset, ?_, ?_, h.pdxType⟩
    · exact congrArg₂ (fun offsets offset => offsets ++ [offset]) h.offsets hoffset
    · show u.numberOfVarLenFields = ((w.offsets ++ [_]).length : ℤ)
      rw [hnumber, length_append]
      rfl

lemma Alike.writeFields (h : Alike t w v)
    (hwrite : fields.foldlM PdxWriterWithTypeCollector.writeField w = .ok w') :
    Alike t w' (v.writeFields (fields.map FieldWrite.part)) := by
  induction fields generalizing w v with
  | nil =>
    cases hwrite
    exact h
  | cons f _ ih =>
    rw [foldlM_cons] at hwrite
    cases hf : PdxWriterWithTypeCollector.writeField w f with
    | error =>
      rw [hf] at hwrite
      cases hwrite
    | ok =>
      rw [hf] at hwrite
      exact ih (h.writeField hf) hwrite

/-- The writer fails only where the type does. -/
lemma exists_foldlM_writeField
    (h : (fields.map fun f => FieldCall.ofKind f.fieldName f.kind).foldlM addField
      w.pdxType = .ok u) :
    ∃ w', fields.foldlM writeField w = .ok w' := by
  induction fields generalizing w with
  | nil => exact ⟨w, rfl⟩
  | cons f _ ih =>
    rw [map_cons, foldlM_cons] at h
    rw [foldlM_cons, writeField]
    cases hf : w.pdxType.addField (.ofKind f.fieldName f.kind) with
    | error =>
      rw [hf] at h
      cases h
    | ok =>
      rw [hf] at h
      refine ih (w := if f.kind.addsOffset then _ else _) ?_
      cases f.kind.addsOffset <;> exact h

/-- The same header and the same table of offsets, under the collected type. -/
lemma Alike.endObjectWriting (h : Alike t w v)
    (hnumber : t.numberOfVarLenFields = w.pdxType.numberOfVarLenFields) :
    (endObjectWriting { w with pdxType := t }).dataOutput = v.endObjectWriting.dataOutput := by
  have hlen : calculateLenWithOffsets { w with pdxType := t } = v.calculateLenWithOffsets := by
    have hbuffer : PdxLocalWriter.bufferLen { w with pdxType := t } = v.bufferLen := h.bufferLen_eq
    simp only [calculateLenWithOffsets, PdxLocalWriter.calculateLenWithOffsets, h.pdxType,
      hnumber, h.numberOfVarLenFields, toInt32_bufferLen, toInt32_add, hbuffer, Int.natCast_pos]
  obtain ⟨_, _⟩ := w
  obtain ⟨rfl, rfl, rfl, -, rfl⟩ := h
  rw [PdxLocalWriter.endObjectWriting, PdxLocalWriter.writePdxHeader, ← hlen]
  rfl

end PdxWriterWithTypeCollector

namespace PdxRemoteWriter

/-- Without preserved data the fields are written as by the local writer. -/
lemma exists_foldlM_writeField {w : PdxRemoteWriter} (hnone : w.preserveData = none)
    (fields : List FieldWrite) :
    ∃ w', fields.foldlM writeField w = .ok w' ∧ w'.preserveData = none ∧
      w'.toPdxLocalWriter = w.toPdxLocalWriter.writeFields (fields.map FieldWrite.part) := by
  induction fields generalizing w with
  | nil => exact ⟨w, rfl, hnone, rfl⟩
  | cons f _ ih =>
    have hf : w.writeField f = .ok { w with
        currentDataIdx := w.currentDataIdx + 1
        toPdxLocalWriter := w.toPdxLocalWriter.writeField f.kind.addsOffset f.bytes } := by
      simp only [writeField, writePreserveData, hnone]
      rfl
    rw [foldlM_cons, hf]
    exact ih hnone

end PdxRemoteWriter

namespace PdxHelper

/-- Once an object of a class has been written, the writers of later objects leave the same
bytes for the same fields; it can only fail for a name that is written twice. -/
theorem serializePdx_agree (output : List (BitVec 8)) (className : String) (nTypeId : ℤ)
    (fields : List FieldWrite) :
    ((fields.map FieldWrite.fieldName).Nodup →
      ∃ written, serializePdx output className nTypeId fields none none = .ok written) ∧
    ∀ bytes t, serializePdx output className nTypeId fields none none = .ok (bytes, t) →
      PdxLocalWriter.stream output t (fields.map FieldWrite.part) = bytes ∧
      ∀ laterId, serializePdx output className laterId fields (some t) none = .ok (bytes, t) := by
  constructor
  · intro _
    have hnames : ((fields.map fun f => (f.fieldName, f.kind)).map Prod.fst).Nodup := by
      rwa [map_map]
    obtain ⟨_, hu, -⟩ := collects_foldlM hnames
    rw [map_map] at hu
    obtain ⟨ptc, hptc⟩ := PdxWriterWithTypeCollector.exists_foldlM_writeField
      (w := PdxWriterWithTypeCollector.create output className) hu
    rw [serializePdx, hptc]
    exact ⟨_, rfl⟩
  · intro _ t hfirst
    obtain ⟨ptc, hptc, hwritten⟩ := exists_of_bind_pure_eq_ok hfirst
    obtain ⟨rfl, ht⟩ := Prod.mk.inj hwritten
    rw [ht]
    have hnumber : t.numberOfVarLenFields = ptc.pdxType.numberOfVarLenFields := by
      rw [← ht]
      exact numberOfVarLenFields_initializeType _ _
    have hcreate : PdxWriterWithTypeCollector.Alike t
        (PdxWriterWithTypeCollector.create output className) (.create output t) :=
      ⟨rfl, rfl, rfl, rfl, rfl⟩
    have hstream := (hcreate.writeFields hptc).endObjectWriting hnumber
    rw [hstream]
    refine ⟨rfl, fun laterId => ?_⟩
    obtain ⟨prw, hprw, hnone, hlocal⟩ := PdxRemoteWriter.exists_foldlM_writeField
      (w := .create output t none) rfl fields
    have hend : prw.endObjectWriting = .ok { prw with
        currentDataIdx := prw.currentDataIdx + 1
        toPdxLocalWriter := prw.toPdxLocalWriter.endObjectWriting } := by
      simp only [PdxRemoteWriter.endObjectWriting, PdxRemoteWriter.writePreserveData, hnone]
      rfl
    show (do let prw ← fields.foldlM PdxRemoteWriter.writeField _; _) = _
    dsimp only [Option.map_none, Option.getD_none]
    rw [hprw]
    show (do let prw ← prw.endObjectWriting; _) = _
    rw [hend, hlocal]
    rfl

/-- A number and a text behind three bytes of something else, written twice. -/
theorem serializePdx_agree_numberAndText :
    let fields := [⟨"n", .int, [0, 0, 0, 1]⟩, ⟨"s", .string, [87, 0, 1, 97]⟩]
    ∃ bytes t, serializePdx [1, 2, 3] "C" 7 fields none none = .ok (bytes, t) ∧
      PdxLocalWriter.stream [1, 2, 3] t (fields.map FieldWrite.part) = bytes ∧
      serializePdx [1, 2, 3] "C" 8 fields (some t) none = .ok (bytes, t) := by
  intro fields
  obtain ⟨⟨bytes, t⟩, h⟩ := (serializePdx_agree [1, 2, 3] "C" 7 fields).1 (by decide)
  obtain ⟨hstream, hlater⟩ := (serializePdx_agree [1, 2, 3] "C" 7 fields).2 bytes t h
  exact ⟨bytes, t, h, hstream, hlater 8⟩

end PdxHelper

end GeodeNative
