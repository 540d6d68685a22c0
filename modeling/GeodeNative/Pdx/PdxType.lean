import GeodeNative.Library.Bytes
import GeodeNative.Library.SortedMap
import Mathlib.Data.String.Basic

/-!
# PDX types

A `PdxType` is the list of the fields that a class writes, with what is needed to find a
field in a serialized object. Every function is the method of the same name.

A field map of the source holds pointers to the fields of the type, and is kept here as
positions in the list of fields. Lengths and positions are unbounded integers; a stream
is below `2 ^ 31` bytes, which keeps every sum of field sizes within `int32_t`.
-/

namespace GeodeNative

/-- Why a PDX operation ends without a result. -/
inductive PdxError
  /-- `IllegalStateException` -/
  | illegalState (message : String)
  /-- `std::out_of_range`, thrown by `std::vector::at` -/
  | outOfRange
  /-- memory outside of the buffer or of an array is read -/
  | outOfBounds
  /-- a `throw` without an exception ends the process -/
  | terminated
  deriving DecidableEq, Repr

/-! ## Fields -/

inductive PdxFieldTypes
  | unknown | boolean | byte | char | short | int | long | float | double | date
  | string | object | booleanArray | charArray | byteArray | shortArray | intArray | longArray
  | floatArray | doubleArray | stringArray | objectArray | arrayOfByteArrays
  deriving DecidableEq, Repr

namespace PdxTypes

def kPdxByteSize : ℤ := 1
def kPdxBooleanSize : ℤ := 1
def kPdxCharSize : ℤ := 2
def kPdxShortSize : ℤ := 2
def kPdxIntegerSize : ℤ := 4
def kPdxFloatSize : ℤ := 4
def kPdxLongSize : ℤ := 8
def kPdxDoubleSize : ℤ := 8
def kPdxDateSize : ℤ := 8

end PdxTypes

/-- `PdxFieldType::getFixedTypeSize`, the table `kFixedTypeSizes`: `-1` for a kind that has no
fixed size. -/
def PdxFieldTypes.getFixedTypeSize : PdxFieldTypes → ℤ
  | .boolean => PdxTypes.kPdxBooleanSize
  | .byte => PdxTypes.kPdxBooleanSize
  | .char => PdxTypes.kPdxCharSize
  | .short => PdxTypes.kPdxCharSize
  | .int => PdxTypes.kPdxIntegerSize
  | .long => PdxTypes.kPdxLongSize
  | .float => PdxTypes.kPdxIntegerSize
  | .double => PdxTypes.kPdxLongSize
  | .date => PdxTypes.kPdxDateSize
  | .unknown | .string | .object | .booleanArray | .charArray | .byteArray | .shortArray
  | .intArray | .longArray | .floatArray | .doubleArray | .stringArray | .objectArray
  | .arrayOfByteArrays => -1

structure PdxFieldType where
  fieldName : String
  className : String
  typeId : PdxFieldTypes
  /-- a `uint32_t` -/
  sequenceId : ℕ
  isVariableLengthType : Bool
  isIdentityField : Bool := false
  fixedSize : ℤ
  varLenFieldIdx : ℤ
  vlOffsetIndex : ℤ := 0
  relativeOffset : ℤ := 0
  deriving DecidableEq, Repr

namespace PdxFieldType

/-- The sequence number is returned as a `uint8_t`. -/
def getSequenceId (f : PdxFieldType) : ℕ :=
  f.sequenceId % 2 ^ 8

/-- `equals`: the same name and kind. -/
def equals (f otherObj : PdxFieldType) : Bool :=
  otherObj.fieldName = f.fieldName ∧ otherObj.typeId = f.typeId

/-- `operator==`: the same class name and field name. -/
def eq (f other : PdxFieldType) : Bool :=
  f.className = other.className ∧ f.fieldName = other.fieldName

end PdxFieldType

/-! ## Types -/

structure PdxType where
  pdxFieldTypes : List PdxFieldType
  className : String
  geodeTypeId : ℤ
  isLocal : Bool
  numberOfVarLenFields : ℤ
  varLenFieldIdx : ℤ
  numberOfFieldsExtra : ℤ
  isVarLenFieldAdded : Bool
  remoteToLocalFieldMap : Option (List ℤ)
  localToRemoteFieldMap : Option (List ℤ)
  /-- `m_fieldNameVsPdxType`, with positions in the list of fields for pointers to them -/
  fieldNameVsPdxType : SortedMap String ℕ
  isJavaClass : Bool

/-- The calls that add a field to a type. -/
inductive FieldCall
  | addFixedLengthTypeField (fieldName className : String) (typeId : PdxFieldTypes) (size : ℤ)
  | addVariableLengthTypeField (fieldName className : String) (typeId : PdxFieldTypes)
  deriving DecidableEq, Repr

namespace PdxType

section

variable (t : PdxType)

def create (pdxDomainClassName : String) (isLocal expectDomainClass : Bool) : PdxType where
  pdxFieldTypes := []
  className := pdxDomainClassName
  geodeTypeId := 0
  isLocal := isLocal
  numberOfVarLenFields := 0
  varLenFieldIdx := 0
  numberOfFieldsExtra := 0
  isVarLenFieldAdded := false
  remoteToLocalFieldMap := none
  localToRemoteFieldMap := none
  fieldNameVsPdxType := .empty
  isJavaClass := expectDomainClass

def setTypeId (typeId : ℤ) : PdxType :=
  { t with geodeTypeId := typeId }

def getTotalFields : ℤ :=
  t.pdxFieldTypes.length

def getPdxField (fieldName : String) : Option PdxFieldType :=
  (t.fieldNameVsPdxType.find? fieldName).bind fun i => t.pdxFieldTypes[i]?

/-- Puts a field at the end of the list and into the map. -/
def pushField (f : PdxFieldType) : PdxType :=
  { t with
    pdxFieldTypes := t.pdxFieldTypes ++ [f]
    fieldNameVsPdxType := t.fieldNameVsPdxType.insert f.fieldName t.pdxFieldTypes.length }

/-- The text of the exception for a name that is known. -/
def alreadyAdded (fieldName : String) : PdxError :=
  .illegalState ("Field: " ++ fieldName ++ " is already added to PdxWriter")

def addFixedLengthTypeField (fieldName className : String)
    (typeId : PdxFieldTypes) (size : ℤ) : Except PdxError PdxType :=
  if (t.fieldNameVsPdxType.find? fieldName).isSome then
    .error (alreadyAdded fieldName)
  else
    .ok (t.pushField
      { fieldName, className, typeId, sequenceId := t.pdxFieldTypes.length,
        isVariableLengthType := false, fixedSize := size, varLenFieldIdx := 0 })

def addVariableLengthTypeField (fieldName className : String)
    (typeId : PdxFieldTypes) : Except PdxError PdxType :=
  if (t.fieldNameVsPdxType.find? fieldName).isSome then
    .error (alreadyAdded fieldName)
  else
    let idx := if t.isVarLenFieldAdded then t.varLenFieldIdx + 1 else t.varLenFieldIdx
    .ok ({ t with
        varLenFieldIdx := idx
        numberOfVarLenFields := t.numberOfVarLenFields + 1
        isVarLenFieldAdded := true }.pushField
      { fieldName, className, typeId, sequenceId := t.pdxFieldTypes.length,
        isVariableLengthType := true, fixedSize := -1, varLenFieldIdx := idx })

def addField : FieldCall → Except PdxError PdxType
  | .addFixedLengthTypeField fieldName className typeId size =>
    t.addFixedLengthTypeField fieldName className typeId size
  | .addVariableLengthTypeField fieldName className typeId =>
    t.addVariableLengthTypeField fieldName className typeId

/-! ## Maps between a type and the local type of its class -/

/-- `initRemoteToLocal`, given the local type that the registry has for the class. -/
def initRemoteToLocal : Option PdxType → PdxType
  | none => { t with numberOfFieldsExtra := 0 }
  | some localPdxType =>
    let found (remotePdxField : PdxFieldType) :=
      localPdxType.pdxFieldTypes.any fun localPdxField => localPdxField.equals remotePdxField
    { t with
      remoteToLocalFieldMap := some (t.pdxFieldTypes.map fun remotePdxField =>
        if found remotePdxField then 1 else if remotePdxField.isVariableLengthType then -1 else -2)
      numberOfFieldsExtra := (t.pdxFieldTypes.filter fun remotePdxField =>
        !found remotePdxField).length }

/-- The number of fields at the start that two lists share. -/
def sameOrder : List PdxFieldType → List PdxFieldType → ℕ
  | l :: ls, r :: rs => if l.equals r then sameOrder ls rs + 1 else 0
  | _, _ => 0

/-- `initLocalToRemote`: `-2` for a field in the same place, `-1` for a field that the type
does not have, and otherwise the sequence number of the field. -/
def initLocalToRemote : Option PdxType → PdxType
  | none => t
  | some localPdxType =>
    let same := sameOrder localPdxType.pdxFieldTypes t.pdxFieldTypes
    { t with
      localToRemoteFieldMap := some (List.replicate same (-2) ++
        (localPdxType.pdxFieldTypes.drop same).map fun localPdxField =>
          match t.pdxFieldTypes.find? fun remotePdxField => localPdxField.equals remotePdxField with
          | some remotePdxField => remotePdxField.getSequenceId
          | none => -1) }

/-- `getLocalToRemoteMap`: the map is made when it is first asked for. -/
def getLocalToRemoteMap (localPdxType : Option PdxType) : Option (List ℤ) :=
  match t.localToRemoteFieldMap with
  | some map => some map
  | none => (t.initLocalToRemote localPdxType).localToRemoteFieldMap

/-! ## The position map -/

/-- The relative offset of `previousField`, the field set last. -/
def previousOffset (done : List PdxFieldType) : ℤ :=
  (done.head?.map PdxFieldType.relativeOffset).getD 0

/-- The loop of `generatePositionMap` from the last field to the first: whether a field of
variable length was found, the index of the last one found, and the fields. -/
def offsetsFromBack : List PdxFieldType → Bool × ℤ × List PdxFieldType
  | [] => (false, 0, [])
  | tmpft :: fields =>
    let (foundVarLen, lastVarLenSeqId, done) := offsetsFromBack fields
    if tmpft.isVariableLengthType then
      (true, tmpft.varLenFieldIdx,
        { tmpft with vlOffsetIndex := tmpft.varLenFieldIdx, relativeOffset := 0 } :: done)
    else if foundVarLen then
      (foundVarLen, lastVarLenSeqId, { tmpft with
          vlOffsetIndex := lastVarLenSeqId
          relativeOffset := -tmpft.fixedSize + previousOffset done } :: done)
    else
      (foundVarLen, lastVarLenSeqId, { tmpft with
          vlOffsetIndex := -1
          relativeOffset := -tmpft.fixedSize + previousOffset done } :: done)

/-- The loop of `generatePositionMap` from the first field to the first of variable length. -/
def offsetsFromFront (prevFixedSizeOffsets : ℤ) : List PdxFieldType → List PdxFieldType
  | [] => []
  | tmpft :: fields =>
    if tmpft.isVariableLengthType then
      { tmpft with vlOffsetIndex := -1, relativeOffset := prevFixedSizeOffsets } :: fields
    else
      { tmpft with vlOffsetIndex := 0, relativeOffset := prevFixedSizeOffsets } ::
        offsetsFromFront (prevFixedSizeOffsets + tmpft.fixedSize) fields

/-- `generatePositionMap`: a name that is not in the map yet is put there, the last field
first. -/
def generatePositionMap : PdxType :=
  { t with
    pdxFieldTypes := offsetsFromFront 0 (offsetsFromBack t.pdxFieldTypes).2.2
    fieldNameVsPdxType := t.pdxFieldTypes.zipIdx.foldr (fun (f, i) names =>
      names.insert f.fieldName i) t.fieldNameVsPdxType }

/-- `InitializeType`, given the local type that the registry has for the class. -/
def initializeType (localPdxType : Option PdxType) : PdxType :=
  ((t.initRemoteToLocal localPdxType).initLocalToRemote localPdxType).generatePositionMap

end

end PdxType

/-! ## Positions in a stream -/

namespace PdxHelper

section

variable (buffer : List (BitVec 8)) (offsetPosition : ℤ)

/-- The bytes of a number at a position of a buffer. -/
def bytesAt (position : ℤ) (size : ℕ) : Except PdxError (List (BitVec 8)) :=
  if 0 ≤ position ∧ position + size ≤ buffer.length then
    .ok ((buffer.drop position.toNat).take size)
  else
    .error .outOfBounds

def readByte : Except PdxError ℤ := do
  let bytes ← bytesAt buffer offsetPosition 1
  return ((bytes.foldl pushByte (0 : BitVec 8)).toNat : ℤ)

def readUInt16 : Except PdxError ℤ := do
  let bytes ← bytesAt buffer offsetPosition 2
  return ((bytes.foldl pushByte (0 : BitVec 16)).toNat : ℤ)

def readInt32 : Except PdxError ℤ := do
  let bytes ← bytesAt buffer offsetPosition 4
  return (bytes.foldl pushByte (0 : BitVec 32)).toInt

/-- The number of a width; only three widths are known. -/
def readInt (size : ℕ) : Except PdxError ℤ :=
  match size with
  | 1 => readByte buffer offsetPosition
  | 2 => readUInt16 buffer offsetPosition
  | 4 => readInt32 buffer offsetPosition
  | _ => .error .terminated

end

end PdxHelper

/-- What locates a field in a stream: the buffer, where its table of offsets begins, the
width of an offset, and the length of the fields. -/
structure StreamLayout where
  buffer : List (BitVec 8)
  offsetPosition : ℤ
  offsetSize : ℕ
  pdxStreamlen : ℤ

namespace PdxType

/-- The entry of the table of offsets with an index; the table is written from the back. -/
def readOffset (t : PdxType) (s : StreamLayout) (offset : ℤ) : Except PdxError ℤ :=
  PdxHelper.readInt s.buffer
    (s.offsetPosition + (t.numberOfVarLenFields - offset - 1) * s.offsetSize) s.offsetSize

def fixedLengthFieldPosition (t : PdxType) (fixLenField : PdxFieldType) (s : StreamLayout) :
    Except PdxError ℤ :=
  if 0 ≤ fixLenField.relativeOffset then
    .ok fixLenField.relativeOffset
  else if fixLenField.vlOffsetIndex = -1 then
    .ok (s.pdxStreamlen + fixLenField.relativeOffset)
  else do
    let offset ← t.readOffset s fixLenField.vlOffsetIndex
    return offset + fixLenField.relativeOffset

def variableLengthFieldPosition (t : PdxType) (varLenField : PdxFieldType) (s : StreamLayout) :
    Except PdxError ℤ :=
  if varLenField.vlOffsetIndex = -1 then
    .ok varLenField.relativeOffset
  else
    t.readOffset s varLenField.vlOffsetIndex

def positionOf (t : PdxType) (pft : PdxFieldType) (s : StreamLayout) : Except PdxError ℤ :=
  if pft.isVariableLengthType then
    t.variableLengthFieldPosition pft s
  else
    t.fixedLengthFieldPosition pft s

/-- `getFieldPosition` with an index. -/
def getFieldPosition (t : PdxType) (fieldIdx : ℤ) (s : StreamLayout) : Except PdxError ℤ :=
  if fieldIdx < 0 then
    .error .outOfRange
  else
    match t.pdxFieldTypes[fieldIdx.toNat]? with
    | none => .error .outOfRange
    | some pft => t.positionOf pft s

/-- `getFieldPosition` with a name: `-1` for a name that the type does not have. -/
def getNamedFieldPosition (t : PdxType) (fieldName : String) (s : StreamLayout) :
    Except PdxError ℤ :=
  match t.getPdxField fieldName with
  | none => .ok (-1)
  | some pft => t.positionOf pft s

/-! ## Equality -/

/-- The loop of `operator==` over the maps of two types. -/
def eqFields (t other : PdxType) : List (String × ℕ) → List (String × ℕ) → Bool
  | [], _ => true
  -- `otherIt` is past the end, which the source does not check
  | _ :: _, [] => false
  | thisEntry :: these, otherEntry :: others =>
    thisEntry.1 == otherEntry.1 &&
      (match t.pdxFieldTypes[thisEntry.2]?, other.pdxFieldTypes[otherEntry.2]? with
        | some f, some g => f.eq g
        | _, _ => false) &&
      eqFields t other these others

def eq (t other : PdxType) : Bool :=
  t.className = other.className ∧ t.isJavaClass = other.isJavaClass ∧
    t.getTotalFields = other.getTotalFields ∧
    eqFields t other t.fieldNameVsPdxType.entries other.fieldNameVsPdxType.entries

end PdxType

/-! ## Types on the wire -/

/-- What `PdxFieldType::toData` writes. -/
structure WireFieldType where
  fieldName : String
  sequenceId : ℕ
  varLenFieldIdx : ℤ
  typeId : PdxFieldTypes
  relativeOffset : ℤ
  vlOffsetIndex : ℤ
  isIdentityField : Bool
  deriving DecidableEq, Repr

/-- What `PdxType::toData` writes. -/
structure WireType where
  className : String
  noJavaClass : Bool
  geodeTypeId : ℤ
  varLenFieldIdx : ℤ
  fields : List WireFieldType
  deriving DecidableEq, Repr

def PdxFieldType.toData (f : PdxFieldType) : WireFieldType where
  fieldName := f.fieldName
  sequenceId := f.sequenceId
  varLenFieldIdx := f.varLenFieldIdx
  typeId := f.typeId
  relativeOffset := f.relativeOffset
  vlOffsetIndex := f.vlOffsetIndex
  isIdentityField := f.isIdentityField

/-- The name of the class of a field is not sent; it stays empty. -/
def PdxFieldType.fromData (w : WireFieldType) : PdxFieldType where
  fieldName := w.fieldName
  className := ""
  typeId := w.typeId
  sequenceId := w.sequenceId
  isVariableLengthType := w.typeId.getFixedTypeSize = -1
  isIdentityField := w.isIdentityField
  fixedSize := w.typeId.getFixedTypeSize
  varLenFieldIdx := w.varLenFieldIdx
  vlOffsetIndex := w.vlOffsetIndex
  relativeOffset := w.relativeOffset

namespace PdxType

def toData (t : PdxType) : WireType where
  className := t.className
  noJavaClass := !t.isJavaClass
  geodeTypeId := t.geodeTypeId
  varLenFieldIdx := t.varLenFieldIdx
  fields := t.pdxFieldTypes.map PdxFieldType.toData

/-- `fromData` of a type made by `CreateDeserializable`, given the local type that the registry
has for the class. -/
def fromData (w : WireType) (localPdxType : Option PdxType) : PdxType :=
  let fields := w.fields.map PdxFieldType.fromData
  let foundVarLenType := fields.any PdxFieldType.isVariableLengthType
  { create w.className false true with
    isJavaClass := !w.noJavaClass
    geodeTypeId := w.geodeTypeId
    varLenFieldIdx := w.varLenFieldIdx
    pdxFieldTypes := fields
    numberOfVarLenFields :=
      if w.varLenFieldIdx ≠ 0 then w.varLenFieldIdx + 1 else if foundVarLenType then 1 else 0
    }.initializeType localPdxType

/-! ## Versions of a type -/

/-- The loop of `isContains`, from the fields of `first` that are left. -/
def isContainsFrom (first second : List PdxFieldType) : Bool :=
  match second with
  | [] => true
  | secondPdt :: rest =>
    match first.dropWhile fun firstPdt => !firstPdt.equals secondPdt with
    | [] => false
    -- the search for the next field starts at the one found
    | found :: behind => isContainsFrom (found :: behind) rest

def isContains (first second : PdxType) : Bool :=
  isContainsFrom first.pdxFieldTypes second.pdxFieldTypes

def isLocalTypeContains (t otherType : PdxType) : Bool :=
  otherType.pdxFieldTypes.length ≤ t.pdxFieldTypes.length ∧ isContains t otherType

def isRemoteTypeContains (t remoteType : PdxType) : Bool :=
  t.pdxFieldTypes.length ≤ remoteType.pdxFieldTypes.length ∧ isContains remoteType t

/-- `clone`: the map of names stays empty. -/
def clone (t : PdxType) : PdxType :=
  { create t.className false true with
    numberOfVarLenFields := t.numberOfVarLenFields
    pdxFieldTypes := t.pdxFieldTypes }

/-- The loop of `mergeVersion` over the fields of the other version: the fields and the number
of fields of variable length. -/
def mergeFields (other : List PdxFieldType) (fields : List PdxFieldType) (varLenFields : ℤ) :
    List PdxFieldType × ℤ :=
  match other with
  | [] => (fields, varLenFields)
  | it :: rest =>
    if fields.any fun it2 => it2.equals it then
      mergeFields rest fields varLenFields
    else
      mergeFields rest
        (fields ++ [{
          fieldName := it.fieldName
          className := it.className
          typeId := it.typeId
          sequenceId := fields.length
          isVariableLengthType := it.isVariableLengthType
          fixedSize := it.fixedSize
          varLenFieldIdx := if it.isVariableLengthType then varLenFields else 0 }])
        (if it.isVariableLengthType then varLenFields + 1 else varLenFields)

def mergeVersion (t otherVersion : PdxType) : PdxType :=
  if t.isLocalTypeContains otherVersion then
    t
  else if t.isRemoteTypeContains otherVersion then
    otherVersion
  else
    let newone := t.clone
    let (fields, varLenFields) :=
      mergeFields otherVersion.pdxFieldTypes newone.pdxFieldTypes newone.numberOfVarLenFields
    { newone with
      pdxFieldTypes := fields
      numberOfVarLenFields := varLenFields
      varLenFieldIdx := if 0 < varLenFields then varLenFields else newone.varLenFieldIdx }

end PdxType

end GeodeNative
