import GeodeNative.Pdx.Readers

/-!
# Reading an object and learning its type

`PdxHelper::deserializePdx` reads an object of a class. Which reader it uses depends on
what the registry of types knows: the type of the stream, fetched from the server by its
id, and the local type of the class, which a first read collects. Where they differ, the
fields that the class does not read are kept for a later write, under a type merged from
both.

Every function is the method of the same name. The registry holds types by value; the
only type that the source changes while the registry has it is written back explicitly.
The expiry of kept data and the statistics are left out.
-/

namespace GeodeNative

/-! ## The registry -/

/-- `PdxTypeRegistry`: the maps that deserialization uses. -/
structure PdxTypeRegistry where
  typeIdToPdxType : SortedMap ℤ PdxType
  remoteTypeIdToMergedPdxType : SortedMap ℤ PdxType
  localTypeToPdxType : SortedMap String PdxType
  pdxIgnoreUnreadFields : Bool

/-- The types that a server knows by their ids, and the ids it gives to types. -/
structure PdxServer where
  getPDXTypeById : ℤ → Option WireType
  getPDXIdForType : WireType → ℤ

namespace PdxTypeRegistry

section

variable (reg : PdxTypeRegistry) (typeId : ℤ)

def empty (pdxIgnoreUnreadFields : Bool) : PdxTypeRegistry :=
  ⟨.empty, .empty, .empty, pdxIgnoreUnreadFields⟩

def addPdxType (pdxType : PdxType) : PdxTypeRegistry :=
  { reg with typeIdToPdxType := reg.typeIdToPdxType.insert typeId pdxType }

def getPdxType : Option PdxType :=
  reg.typeIdToPdxType.find? typeId

def addLocalPdxType (localType : String) (pdxType : PdxType) : PdxTypeRegistry :=
  { reg with localTypeToPdxType := reg.localTypeToPdxType.insert localType pdxType }

def getLocalPdxType (localType : String) : Option PdxType :=
  reg.localTypeToPdxType.find? localType

def setMergedType (remoteTypeId : ℤ) (mergedType : PdxType) : PdxTypeRegistry :=
  { reg with
    remoteTypeIdToMergedPdxType :=
      reg.remoteTypeIdToMergedPdxType.insert remoteTypeId mergedType }

def getMergedType (remoteTypeId : ℤ) : Option PdxType :=
  reg.remoteTypeIdToMergedPdxType.find? remoteTypeId

/-- A type that the registry has under an id has changed. -/
def changePdxType (pdxType : PdxType) : PdxTypeRegistry :=
  { reg with typeIdToPdxType := reg.typeIdToPdxType.replace typeId pdxType }

end

/-- `getPDXIdForType` with the name of the class: the id, and the registry. -/
def getPDXIdForType (reg : PdxTypeRegistry) (server : PdxServer) (type : String)
    (nType : PdxType) (checkIfThere : Bool) : ℤ × PdxTypeRegistry :=
  let known :=
    if checkIfThere then ((reg.getLocalPdxType type).map PdxType.geodeTypeId).getD 0 else 0
  if known ≠ 0 then
    (known, reg)
  else
    let typeId := server.getPDXIdForType nType.toData
    (typeId, reg.addPdxType typeId (nType.setTypeId typeId))

end PdxTypeRegistry

/-! ## Kept data -/

structure PdxRemotePreservedData where
  typeId : ℤ
  mergedTypeId : ℤ
  preservedData : List (List (BitVec 8))
  deriving DecidableEq, Repr

namespace PdxLocalReader

/-- Where a field ends: at the next one, or at the end of the last one. -/
def nextFieldPosition (r : PdxLocalReader) (i : ℕ) : Except PdxError ℤ :=
  if i + 1 = r.pdxType.pdxFieldTypes.length then
    .ok r.serializedLength
  else
    r.pdxType.getFieldPosition (i + 1) r.layout

def fieldBytes (r : PdxLocalReader) (i : ℕ) : Except PdxError (List (BitVec 8)) := do
  let pos ← r.pdxType.getFieldPosition i r.layout
  let nFieldPos ← r.nextFieldPosition i
  if nFieldPos ≤ pos then
    return []
  else
    PdxHelper.bytesAt r.buffer (r.startBuffer + pos) (nFieldPos - pos).toNat

/-- The loop of `getPreservedData` over the map from the field `i` on. -/
def preservedFields (r : PdxLocalReader) : List ℤ → ℕ → Except PdxError (List (List (BitVec 8)))
  | [], _ => .ok []
  | mapped :: rest, i =>
    if mapped = -1 ∨ mapped = -2 then do
      let bytes ← r.fieldBytes i
      let fields ← r.preservedFields rest (i + 1)
      return bytes :: fields
    else
      r.preservedFields rest (i + 1)

def getPreservedData (r : PdxLocalReader) (pdxIgnoreUnreadFields : Bool)
    (mergedVersion : Option PdxType) : Except PdxError (Option PdxRemotePreservedData) :=
  if 0 < r.pdxType.numberOfFieldsExtra ∧ pdxIgnoreUnreadFields = false then
    match mergedVersion with
    -- a null pointer is followed
    | none => .error .outOfBounds
    | some mergedVersion => do
      let preservedData ← r.preservedFields (r.pdxType.remoteToLocalFieldMap.getD []) 0
      return some ⟨r.pdxType.geodeTypeId, mergedVersion.geodeTypeId, preservedData⟩
  else
    .ok none

end PdxLocalReader

/-! ## `PdxHelper` -/

namespace PdxHelper

variable {V : Type}

def createMergedType (server : PdxServer) (reg : PdxTypeRegistry)
    (localType remoteType : PdxType) : PdxTypeRegistry :=
  let mergedVersion := localType.mergeVersion remoteType
  if mergedVersion.eq localType then
    reg.setMergedType remoteType.geodeTypeId localType
  else if mergedVersion.eq remoteType then
    reg.setMergedType remoteType.geodeTypeId remoteType
  else
    let mergedVersion :=
      mergedVersion.initializeType (reg.getLocalPdxType mergedVersion.className)
    let mergedVersion :=
      if mergedVersion.geodeTypeId = 0 then
        mergedVersion.setTypeId (server.getPDXIdForType mergedVersion.toData)
      else
        mergedVersion
    ((reg.addPdxType mergedVersion.geodeTypeId mergedVersion).setMergedType
      remoteType.geodeTypeId mergedVersion).setMergedType mergedVersion.geodeTypeId mergedVersion

/-- An object that has been read: its fields, the data kept for it, and where the stream goes
on. -/
structure PdxObject (V : Type) where
  values : List V
  preserveData : Option PdxRemotePreservedData
  position : ℤ

variable (c : FieldCodec V) (server : PdxServer)
  (classReads : String → List (String × PdxFieldTypes)) (reg : PdxTypeRegistry)
  (buffer : List (BitVec 8)) (position length : ℤ)

/-- The object once its fields have been read: the data that it does not read is kept, and the
stream goes on behind it. -/
def preserving (values : List V) (reader : PdxLocalReader) : Except PdxError (PdxObject V) := do
  let preserveData ← reader.getPreservedData reg.pdxIgnoreUnreadFields
    (reg.getMergedType reader.pdxType.geodeTypeId)
  return ⟨values, preserveData, reader.moveStream.cursor⟩

/-- The type of the stream is known and so is the local type. -/
def readKnownType (pType localType : PdxType) : Except PdxError (PdxObject V) := do
  let reader := PdxLocalReader.create buffer position pType length
  if pType.isLocal then
    let (values, plr) ← reader.fromData c (classReads pType.className)
    return ⟨values, none, plr.moveStream.cursor⟩
  else
    let (values, prr) ← PdxRemoteReader.fromData c
      ⟨reader, (pType.getLocalToRemoteMap (some localType)).getD [], 0⟩
      (classReads pType.className)
    preserving reg values prr.toPdxLocalReader

/-- The type of the stream becomes the local type of its class. If the registry had it under
the id, the registered type changes. -/
def registerAsLocal (typeId : ℤ) (pType : PdxType) : PdxTypeRegistry :=
  let pType := { pType with isLocal := true }
  let reg := if (reg.getPdxType typeId).isSome then reg.changePdxType typeId pType else reg
  (reg.addLocalPdxType pType.className pType).addPdxType pType.geodeTypeId pType

/-- The collected type and the type of the stream are registered, with the type merged from
them: the type of the stream, now with the maps to the local type, and the registry. -/
def registerTypes (typeId : ℤ) (pType localType : PdxType) : PdxType × PdxTypeRegistry :=
  let known := (reg.getPdxType typeId).isSome
  let localType := localType.initializeType (reg.getLocalPdxType localType.className)
  let (id, reg) := reg.getPDXIdForType server pType.className localType true
  let localType := { localType.setTypeId id with isLocal := true }
  let reg := (reg.addLocalPdxType pType.className localType).addPdxType id localType
  let pType := pType.initializeType (reg.getLocalPdxType pType.className)
  let reg := if known then reg.changePdxType typeId pType else reg
  let reg := reg.addPdxType pType.geodeTypeId pType
  (pType, createMergedType server reg localType pType)

/-- The local type is not known: it is collected, and compared with the type of the stream. -/
def readCollectingType (typeId : ℤ) (pType : PdxType) :
    Except PdxError (PdxObject V) × PdxTypeRegistry :=
  let reader := PdxLocalReader.create buffer position pType length
  match PdxReaderWithTypeCollector.fromData c ⟨reader, .create pType.className true true⟩
      (classReads pType.className) with
  | .error e => (.error e, reg)
  | .ok (values, prtc) =>
    if pType.eq prtc.newPdxType then
      (.ok ⟨values, none, prtc.moveStream.cursor⟩, registerAsLocal reg typeId pType)
    else
      let (pType, reg) := registerTypes server reg typeId pType prtc.newPdxType
      (preserving reg values { prtc.toPdxLocalReader with pdxType := pType }, reg)

/-- The local type is known and the type of the stream is new. -/
def readNewType (pType localType : PdxType) : Except PdxError (PdxObject V) × PdxTypeRegistry :=
  let pType := pType.initializeType (reg.getLocalPdxType pType.className)
  let reg := reg.addPdxType pType.geodeTypeId pType
  let reader := PdxLocalReader.create buffer position pType length
  match PdxRemoteReader.fromData c
      ⟨reader, (pType.getLocalToRemoteMap (some localType)).getD [], 0⟩
      (classReads pType.className) with
  | .error e => (.error e, reg)
  | .ok (values, prr) =>
    let reg := createMergedType server reg localType pType
    (preserving reg values prr.toPdxLocalReader, reg)

/-- `deserializePdx` with an id and a length. -/
def deserializeTyped (typeId : ℤ) : Except PdxError (PdxObject V) × PdxTypeRegistry :=
  match reg.getPdxType typeId with
  | some pType =>
    match reg.getLocalPdxType pType.className with
    | some localType =>
      (readKnownType c classReads reg buffer position length pType localType, reg)
    | none => readCollectingType c server classReads reg buffer position length typeId pType
  | none =>
    match server.getPDXTypeById typeId with
    | none => (.error (.illegalState "Failed to understand PdxSerializable Type"), reg)
    | some wire =>
      let pType := PdxType.fromData wire (reg.getLocalPdxType wire.className)
      match reg.getLocalPdxType pType.className with
      | some localType =>
        readNewType c server classReads reg buffer position length pType localType
      | none => readCollectingType c server classReads reg buffer position length typeId pType

/-- `deserializePdx`: the header has the length and the id. -/
def deserializePdx : Except PdxError (PdxObject V) × PdxTypeRegistry :=
  match readInt32 buffer position, readInt32 buffer (position + 4) with
  | .ok len, .ok typeId =>
    deserializeTyped c server classReads reg buffer (position + PdxHeader) len typeId
  | .error e, _ => (.error e, reg)
  | _, .error e => (.error e, reg)

end PdxHelper

end GeodeNative
