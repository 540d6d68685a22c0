import GeodeNative.Pdx.PdxType

/-!
# Writing an object and opening what was written

`PdxLocalWriter` puts the fields of an object one behind the other, behind a header of
eight bytes, and a table with the offsets of the fields of variable length behind them.
`PdxLocalReader` finds the table again from the length in the header. Every function is
the method of the same name.

The bytes that a field takes up are given; which bytes a value has is left to the writer
of its kind.
-/

namespace GeodeNative

namespace PdxHelper

/-- The bytes of the header: the length and the id of the type. -/
def PdxHeader : ℕ := 8

/-- `static_cast<int32_t>`. -/
def toInt32 (z : ℤ) : ℤ :=
  z.bmod (2 ^ 32)

def lowBytes (size : ℕ) (value : ℤ) : List (BitVec 8) :=
  bytesOfNat size (value % 2 ^ 32).toNat

def writeInt32 (buffer : List (BitVec 8)) (offsetPosition : ℕ) (value : ℤ) : List (BitVec 8) :=
  buffer.take offsetPosition ++ lowBytes 4 value ++ buffer.drop (offsetPosition + 4)

end PdxHelper

/-! ## The writer -/

structure PdxLocalWriter where
  dataOutput : List (BitVec 8)
  pdxType : PdxType
  startPositionOffset : ℕ
  offsets : List ℤ

namespace PdxLocalWriter

section

variable (w : PdxLocalWriter)

/-- The constructor: the header is left free, its bytes are set by `writePdxHeader`. -/
def create (dataOutput : List (BitVec 8)) (pdxType : PdxType) : PdxLocalWriter where
  dataOutput := dataOutput ++ List.replicate PdxHelper.PdxHeader 0
  pdxType := pdxType
  startPositionOffset := dataOutput.length
  offsets := []

/-- The bytes written since the start of the object. -/
def bufferLen : ℤ :=
  w.dataOutput.length - w.startPositionOffset

def addOffset : PdxLocalWriter :=
  { w with offsets := w.offsets ++ [PdxHelper.toInt32 (w.bufferLen - PdxHelper.PdxHeader)] }

def write (bytes : List (BitVec 8)) : PdxLocalWriter :=
  { w with dataOutput := w.dataOutput ++ bytes }

/-- A `write` of a field: those of variable length begin with `addOffset`. -/
def writeField (isVariableLengthType : Bool) (bytes : List (BitVec 8)) : PdxLocalWriter :=
  if isVariableLengthType then w.addOffset.write bytes else w.write bytes

/-- The fields of an object: whether each has variable length, and its bytes. -/
def writeFields (parts : List (Bool × List (BitVec 8))) : PdxLocalWriter :=
  parts.foldl (fun w part => w.writeField part.1 part.2) w

def calculateLenWithOffsets : ℤ :=
  let totalOffsets :=
    if 0 < w.pdxType.numberOfVarLenFields then w.pdxType.numberOfVarLenFields - 1 else 0
  let totalLen := PdxHelper.toInt32 (w.bufferLen - PdxHelper.PdxHeader + totalOffsets)
  if totalLen ≤ 0xff then
    totalLen
  else if totalLen + totalOffsets ≤ 0xffff then
    totalLen + totalOffsets
  else
    totalLen + totalOffsets * 3

/-- The offsets from the last to the second, each in `size` bytes. -/
def offsetBytes (size : ℕ) : List (BitVec 8) :=
  ((w.offsets.drop 1).reverse.map (PdxHelper.lowBytes size)).flatten

def writeOffsets (len : ℤ) : PdxLocalWriter :=
  if len ≤ 0xff then
    w.write (w.offsetBytes 1)
  else if len ≤ 0xffff then
    w.write (w.offsetBytes 2)
  else
    w.write (w.offsetBytes 4)

def writePdxHeader : PdxLocalWriter :=
  let len := w.calculateLenWithOffsets
  let header := PdxHelper.writeInt32
    (PdxHelper.writeInt32 w.dataOutput w.startPositionOffset len)
    (w.startPositionOffset + 4) w.pdxType.geodeTypeId
  { w with dataOutput := header }.writeOffsets len

def endObjectWriting : PdxLocalWriter :=
  w.writePdxHeader

end

/-- The buffer after an object has been written behind what it had before. -/
def stream (before : List (BitVec 8)) (pdxType : PdxType)
    (parts : List (Bool × List (BitVec 8))) : List (BitVec 8) :=
  ((create before pdxType).writeFields parts).endObjectWriting.dataOutput

end PdxLocalWriter

/-! ## The reader -/

structure PdxLocalReader where
  buffer : List (BitVec 8)
  /-- where `m_dataInput` stands -/
  cursor : ℤ
  pdxType : PdxType
  startBuffer : ℤ
  serializedLengthWithOffsets : ℤ
  serializedLength : ℤ
  offsetSize : ℕ
  offsetsBuffer : ℤ

namespace PdxLocalReader

/-- The constructor with `initialize`. -/
def create (buffer : List (BitVec 8)) (cursor : ℤ) (remoteType : PdxType) (pdxLen : ℤ) :
    PdxLocalReader :=
  let offsetSize : ℕ := if pdxLen ≤ 0xff then 1 else if pdxLen ≤ 0xffff then 2 else 4
  let serializedLength :=
    if 0 < remoteType.numberOfVarLenFields then
      pdxLen - (remoteType.numberOfVarLenFields - 1) * offsetSize
    else
      pdxLen
  { buffer, cursor
    pdxType := remoteType
    startBuffer := cursor
    serializedLengthWithOffsets := pdxLen
    serializedLength, offsetSize
    offsetsBuffer := cursor + serializedLength }

/-- What the reader passes to `getFieldPosition`. -/
def layout (r : PdxLocalReader) : StreamLayout where
  buffer := r.buffer
  offsetPosition := r.offsetsBuffer
  offsetSize := r.offsetSize
  pdxStreamlen := r.serializedLength

/-- The reader of an object at a position of a buffer: the length comes from the header. -/
def openAt (buffer : List (BitVec 8)) (position : ℕ) (pdxType : PdxType) :
    Except PdxError PdxLocalReader := do
  let len ← PdxHelper.readInt32 buffer position
  return create buffer (position + PdxHelper.PdxHeader) pdxType len

end PdxLocalReader

end GeodeNative
