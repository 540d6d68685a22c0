import GeodeNative.Pdx.LocalWriter

/-!
# Reading the fields of an object

A class reads its fields one by one, each by a name and a kind, from one of three
readers. `PdxLocalReader` reads what comes next in the stream. `PdxRemoteReader` looks
up, by the number of the read, where the field is in the type of the stream.
`PdxReaderWithTypeCollector` looks the field up by its name and notes which fields the
class reads.

The source has one method for each kind, `readChar` to `readDate`. Here each reader has
one function with the kind as a parameter; what the methods of a kind do differently is
in a table by kind.
-/

namespace GeodeNative

/-! ## Kinds -/

namespace PdxFieldTypes

/-- The value of the enumeration. -/
def code : PdxFieldTypes → ℤ
  | unknown => -1
  | boolean => 0
  | byte => 1
  | char => 2
  | short => 3
  | int => 4
  | long => 5
  | float => 6
  | double => 7
  | date => 8
  | string => 9
  | object => 10
  | booleanArray => 11
  | charArray => 12
  | byteArray => 13
  | shortArray => 14
  | intArray => 15
  | longArray => 16
  | floatArray => 17
  | doubleArray => 18
  | stringArray => 19
  | objectArray => 20
  | arrayOfByteArrays => 21

/-- The class name that the collecting reader and writer give to a field of a kind. -/
def fieldClassName : PdxFieldTypes → String
  | unknown => ""
  | boolean => "boolean"
  | byte => "byte"
  | char => "char"
  | short => "short"
  | int => "int"
  | long => "long"
  | float => "float"
  | double => "double"
  | date => "Date"
  | string => "String"
  | object => "Serializable"
  | booleanArray => "boolean[]"
  | charArray => "char[]"
  | byteArray => "byte[]"
  | shortArray => "short[]"
  | intArray => "int[]"
  | longArray => "long[]"
  | floatArray => "float[]"
  | doubleArray => "double[]"
  | stringArray => "String[]"
  | objectArray => "Object[]"
  | arrayOfByteArrays => "byte[][]"

/-- The size that the collecting reader and writer declare for a field of a kind, if they add
it as one of fixed length. -/
def declaredSize : PdxFieldTypes → Option ℤ
  | boolean => some PdxTypes.kPdxBooleanSize
  | byte => some PdxTypes.kPdxByteSize
  | char => some PdxTypes.kPdxCharSize
  | short => some PdxTypes.kPdxShortSize
  | int => some PdxTypes.kPdxIntegerSize
  | long => some PdxTypes.kPdxLongSize
  | float => some PdxTypes.kPdxFloatSize
  | double => some PdxTypes.kPdxDoubleSize
  | date => some PdxTypes.kPdxDateSize
  | unknown | string | object | booleanArray | charArray | byteArray | shortArray | intArray
  | longArray | floatArray | doubleArray | stringArray | objectArray | arrayOfByteArrays => none

/-- Whether the method of `PdxRemoteReader` has a case for a field that the stream lacks. -/
def handlesMissing : PdxFieldTypes → Bool
  | charArray | booleanArray | byteArray | shortArray | intArray | longArray | floatArray
  | doubleArray => false
  | _ => true

/-- Whether the method of `PdxRemoteReader` compares the position with `-1`. -/
def checksPosition : PdxFieldTypes → Bool
  | char | date | charArray | booleanArray | objectArray | arrayOfByteArrays => false
  | _ => true

end PdxFieldTypes

/-- `PdxFieldType::toString`. -/
def PdxFieldType.toString (f : PdxFieldType) : String :=
  "PdxFieldName=" ++ f.fieldName ++ " TypeId=" ++ ToString.toString f.typeId.code ++
    " VarLenFieldIdx=" ++ ToString.toString f.varLenFieldIdx ++
    " sequenceid=" ++ ToString.toString f.sequenceId

/-- The call that adds a field of a kind in the collecting reader and writer. -/
def FieldCall.ofKind (fieldName : String) (kind : PdxFieldTypes) : FieldCall :=
  match kind.declaredSize with
  | some size => .addFixedLengthTypeField fieldName kind.fieldClassName kind size
  | none => .addVariableLengthTypeField fieldName kind.fieldClassName kind

/-! ## Values -/

/-- The methods of `DataInput` for the values of each kind, with what a reader returns for a
field that is missing. Each method takes the bytes ahead of the cursor and returns a value
and the number of bytes read. -/
structure FieldCodec (V : Type) where
  read : PdxFieldTypes → List (BitVec 8) → Except PdxError (V × ℕ)
  missing : PdxFieldTypes → V
  /-- every value takes up space -/
  read_nil : ∀ kind value size, read kind [] ≠ .ok (value, size)
  /-- a value of a kind with a fixed size has that size -/
  read_fixed : ∀ kind bytes value size, read kind bytes = .ok (value, size) →
    kind.getFixedTypeSize ≠ -1 → (size : ℤ) = kind.getFixedTypeSize

variable {V : Type}

/-! ## The local reader -/

namespace PdxLocalReader

/-- A `read` method: the value at the cursor. -/
def readField (c : FieldCodec V) (r : PdxLocalReader) (kind : PdxFieldTypes) :
    Except PdxError (V × PdxLocalReader) :=
  if r.cursor < 0 then
    .error .outOfBounds
  else do
    let (value, size) ← c.read kind (r.buffer.drop r.cursor.toNat)
    return (value, { r with cursor := r.cursor + size })

def resettoPdxHead (r : PdxLocalReader) : PdxLocalReader :=
  { r with cursor := r.startBuffer }

def advanceCursor (r : PdxLocalReader) (offset : ℤ) : PdxLocalReader :=
  { r with cursor := r.cursor + offset }

def moveStream (r : PdxLocalReader) : PdxLocalReader :=
  { r with cursor := r.startBuffer + r.serializedLengthWithOffsets }

/-- `fromData` of a class that reads these fields. -/
def fromData (c : FieldCodec V) (r : PdxLocalReader) :
    List (String × PdxFieldTypes) → Except PdxError (List V × PdxLocalReader)
  | [] => .ok ([], r)
  | (_, kind) :: reads => do
    let (value, r) ← r.readField c kind
    let (values, r) ← r.fromData c reads
    return (value :: values, r)

end PdxLocalReader

/-! ## The remote reader -/

structure PdxRemoteReader extends PdxLocalReader where
  /-- `m_localToRemoteMap`, with no entries if there is no map -/
  localToRemoteMap : List ℤ
  currentIndex : ℕ

namespace PdxRemoteReader

def readField (c : FieldCodec V) (r : PdxRemoteReader) (kind : PdxFieldTypes) :
    Except PdxError (V × PdxRemoteReader) :=
  match r.localToRemoteMap[r.currentIndex]? with
  | none => .error .outOfBounds
  | some choice =>
    if choice = -2 then do
      let (value, l) ← r.toPdxLocalReader.readField c kind
      return (value, { r with toPdxLocalReader := l, currentIndex := r.currentIndex + 1 })
    else if choice = -1 ∧ kind.handlesMissing then
      .ok (c.missing kind, { r with currentIndex := r.currentIndex + 1 })
    else do
      let position ← r.pdxType.getFieldPosition choice r.layout
      if kind.checksPosition ∧ position = -1 then
        return (c.missing kind, { r with currentIndex := r.currentIndex + 1 })
      else
        let (value, l) ← (r.resettoPdxHead.advanceCursor position).readField c kind
        return (value, { r with
          toPdxLocalReader := l.resettoPdxHead
          currentIndex := r.currentIndex + 1 })

/-- `fromData` of a class that reads these fields. -/
def fromData (c : FieldCodec V) (r : PdxRemoteReader) :
    List (String × PdxFieldTypes) → Except PdxError (List V × PdxRemoteReader)
  | [] => .ok ([], r)
  | (_, kind) :: reads => do
    let (value, r) ← r.readField c kind
    let (values, r) ← r.fromData c reads
    return (value :: values, r)

end PdxRemoteReader

/-! ## The collecting reader -/

structure PdxReaderWithTypeCollector extends PdxLocalReader where
  newPdxType : PdxType

namespace PdxReaderWithTypeCollector

/-- `checkType`: a field of the name must have the kind. -/
def checkType (r : PdxReaderWithTypeCollector) (fieldName : String) (kind : PdxFieldTypes) :
    Except PdxError Unit :=
  match r.pdxType.getPdxField fieldName with
  | none => .ok ()
  | some pft =>
    if kind ≠ pft.typeId then
      .error (.illegalState ("Expected " ++ kind.fieldClassName ++
        " fieldType field but found field of type " ++ pft.toString))
    else
      .ok ()

/-- The value at a position, after which the cursor is moved back: by the declared size, or by
the number of bytes read. -/
def readAt (c : FieldCodec V) (r : PdxReaderWithTypeCollector) (kind : PdxFieldTypes)
    (position : ℤ) : Except PdxError (V × PdxReaderWithTypeCollector) := do
  let startLoc := r.cursor + position
  let (value, l) ← (r.advanceCursor position).readField c kind
  let size := kind.declaredSize.getD (l.cursor - startLoc)
  return (value, { r with toPdxLocalReader := l.advanceCursor (-(position + size)) })

/-- A `read` method. A field of kind `object` is noted only if the stream has it, and
`readStringArray` takes a field at the start of the stream for a missing one. -/
def readField (c : FieldCodec V) (r : PdxReaderWithTypeCollector) (fieldName : String)
    (kind : PdxFieldTypes) : Except PdxError (V × PdxReaderWithTypeCollector) := do
  r.checkType fieldName kind
  if kind = .object then
    let position ← r.pdxType.getNamedFieldPosition fieldName r.layout
    if position ≠ -1 then
      let (value, r) ← r.readAt c kind position
      let newPdxType ← r.newPdxType.addField (.ofKind fieldName kind)
      return (value, { r with newPdxType })
    else
      return (c.missing kind, r)
  else
    let newPdxType ← r.newPdxType.addField (.ofKind fieldName kind)
    let r := { r with newPdxType }
    let position ← r.pdxType.getNamedFieldPosition fieldName r.layout
    if (if kind = .stringArray then 0 < position else position ≠ -1) then
      r.readAt c kind position
    else
      return (c.missing kind, r)

/-- `fromData` of a class that reads these fields. -/
def fromData (c : FieldCodec V) (r : PdxReaderWithTypeCollector) :
    List (String × PdxFieldTypes) → Except PdxError (List V × PdxReaderWithTypeCollector)
  | [] => .ok ([], r)
  | (fieldName, kind) :: reads => do
    let (value, r) ← r.readField c fieldName kind
    let (values, r) ← r.fromData c reads
    return (value :: values, r)

end PdxReaderWithTypeCollector

end GeodeNative
