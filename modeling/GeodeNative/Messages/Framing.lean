import GeodeNative.Serialization.Appends

/-!
# The writers of the parts of a request

A request starts with a header of 17 bytes: the type of the message, the length of what follows, the
number of parts, the transaction and a byte of flags. The length is not known when the header is
written; `writeMessageLength` goes back and fills it in. Each part is a length, a flag and its
bytes, and the length of a serialised object is filled in afterwards as well.

The security part is added when the request is sent. On a retry the old one is dropped first.
-/

namespace GeodeNative

/-- Code that appends bytes to an output, whatever the output holds. -/
structure Writer where
  run : WriteM Unit
  bytes : List (BitVec 8)
  appends : DataOutput.Appends run bytes

/-- An object as far as the parts of messages show it. -/
structure SerializedObject where
  /-- `SerializationRegistry::serialize` -/
  serialize : Writer
  /-- `SerializationRegistry::serializeWithoutHeader` -/
  serializeWithoutHeader : Writer
  /-- `toDelta`, if the object is a `Delta` -/
  toDelta : Option Writer
  /-- the value, if the object is a `CacheableInt32` -/
  int32Value : Option (BitVec 32)

/-- `CacheableInt32`: its code and the value. -/
def SerializedObject.cacheableInt32 (value : BitVec 32) : SerializedObject where
  serialize :=
    { run := do DataOutput.write 57; DataOutput.writeInt32 value
      bytes := [57] ++ bytesOfNat 4 value.toNat
      appends := (DataOutput.write_appends 57).bind (DataOutput.writeInt32_appends value) }
  serializeWithoutHeader :=
    { run := DataOutput.writeInt32 value
      bytes := bytesOfNat 4 value.toNat
      appends := DataOutput.writeInt32_appends value }
  toDelta := none
  int32Value := some value

/-- A pointer to a `Serializable`. -/
inductive Serializable
  | null
  /-- `CacheableBytes` -/
  | bytes (value : List (BitVec 8))
  | object (object : SerializedObject)

namespace Serializable

def isNull : Serializable → Bool
  | null => true
  | _ => false

def isBytes : Serializable → Bool
  | bytes _ => true
  | _ => false

/-- `CacheableBytes::length`, which has 32 bits. -/
def isEmptyBytes : Serializable → Bool
  | bytes value => BitVec.ofNat 32 value.length == 0
  | _ => false

/-- The elements of an array, one after the other. -/
def writeEach : List (BitVec 8) → WriteM Unit
  | [] => return ()
  | b :: value => do
    DataOutput.write b
    writeEach value

/-- `DataOutput::writeObject` -/
def writeObject : Serializable → WriteM Unit
  | null => DataOutput.write 41
  | bytes value => do
    DataOutput.write 46
    DataOutput.writeArrayLen (BitVec.ofNat 32 value.length)
    writeEach value
  | object o => o.serialize.run

/-- `serializeWithoutHeader` throws for a null pointer. -/
def serializeWithoutHeader : Serializable → WriteM Unit
  | null => throw .nullPointer
  | bytes value => do
    DataOutput.writeArrayLen (BitVec.ofNat 32 value.length)
    writeEach value
  | object o => o.serializeWithoutHeader.run

/-- `toDelta` of an object that is taken for a `Delta`. -/
def toDelta : Serializable → WriteM Unit
  | object ⟨_, _, some delta, _⟩ => delta.run
  | _ => throw .undefined

end Serializable

namespace TcrMessage

open DataOutput

/-! ## Parts of fixed length -/

def writeInterestResultPolicyPart (policy : BitVec 8) : WriteM Unit := do
  writeInt32 3
  write 1
  write 1
  write 37
  write policy

def writeIntPart (intValue : BitVec 32) : WriteM Unit := do
  writeInt32 4
  write 0
  writeInt32 intValue

def writeBytePart (byteValue : BitVec 8) : WriteM Unit := do
  writeInt32 1
  write 0
  write byteValue

def writeByteAndTimeOutPart (byteValue : BitVec 8) (timeout : BitVec 64) : WriteM Unit := do
  writeInt32 5
  write 0
  write byteValue
  writeInt32 (timeout.setWidth 32)

def writeMillisecondsPart (millis : BitVec 64) : WriteM Unit :=
  writeIntPart (millis.setWidth 32)

/-- `EventId::writeIdsData` -/
def writeIdsData (threadId sequenceId : BitVec 64) : WriteM Unit := do
  writeInt32 18
  write 0
  write 3
  writeInt64 threadId
  write 3
  writeInt64 sequenceId

/-! ## Strings -/

/-- `writeBytesOnly` with a length of 32 bits. A negative length stands for more bytes than there
are. -/
def writeBytesOnlySigned (bytes : List (BitVec 8)) (len : BitVec 32) : WriteM Unit := do
  ensureCapacity (len.signExtend 64)
  if len.toInt < 0 then
    throw .undefined
  else
    writeAll (bytes.take len.toNat)

def writeRegionPart (regionName : List (BitVec 8)) : WriteM Unit := do
  let len := BitVec.ofNat 32 regionName.length
  writeInt32 len
  write 0
  writeBytesOnlySigned regionName len

/-- `writeStringPart`. An empty string is written as a number of 16 bits. -/
def writeStringPart (codecvt : Codecvt) (str : List (BitVec 8)) : WriteM Unit := do
  if str ≠ [] then
    match toUtf16 codecvt .char (str.map BitVec.toNat) with
    | none => throw .rangeError
    | some units =>
      let jmutf8 := javaModifiedUtf8 units
      let encodedLen := BitVec.ofNat 32 jmutf8.length
      writeInt32 encodedLen
      ensureCapacity (encodedLen.signExtend 64)
      write 0
      writeBytesOnlySigned jmutf8 encodedLen
  else
    writeInt16 0

/-! ## Objects -/

/-- The loop that moves `n` bytes from `start` to `cursor`. -/
def copyLoop (memory : ℕ → BitVec 8) (cursor start : ℕ) : ℕ → ℕ → BitVec 8
  | 0 => memory
  | n + 1 =>
    let moved := copyLoop memory cursor start n
    Function.update moved (cursor + n) (moved (start + n))

/-- Moves the cursor back by `cut`, and `n` bytes from `cut` bytes behind `cursor` to it. -/
def dropHead (cursor : ℕ) (cut : BitVec 64) (n : ℕ) : WriteM Unit := do
  rewindCursor cut
  modify fun s => { s with memory := copyLoop s.memory cursor (cursor + cut.toNat) n }

/-- `TcrMessage::writeBytesOnly`: an array of bytes without its type and length. -/
def writeBytesOnly (se : Serializable) : WriteM Unit := do
  let s₀ ← get
  se.writeObject
  let s ← get
  let cursor := s₀.offset.toNat
  let code := s.memory (cursor + 1)
  if code = 0xFF then
    rewindCursor 2
  else if 252 < code.toNat then
    if code = 0xFE then
      dropHead cursor 4 (natOfBytes [s.memory (cursor + 2), s.memory (cursor + 3)])
    else
      let val := natOfBytes [s.memory (cursor + 2), s.memory (cursor + 3), s.memory (cursor + 4),
        s.memory (cursor + 5)]
      dropHead cursor 6 (BitVec.ofNat 32 val).toInt.toNat
  else
    dropHead cursor 2 code.toNat

/-- A length that is filled in after the bytes have been written. -/
def writeSized (flag : BitVec 8) (content : WriteM Unit) : WriteM Unit := do
  writeInt32 0
  write flag
  let before ← get
  content
  let after ← get
  let sizeOfSerializedObj := after.offset - before.offset
  rewindCursor (sizeOfSerializedObj + 1 + 4)
  writeInt32 (sizeOfSerializedObj.setWidth 32)
  advanceCursor (sizeOfSerializedObj + 1)

/-- The keys of a `getAll`. -/
def writeKeys (codecvt : Codecvt) (keys : List Serializable) : WriteM Unit := do
  write 52
  writeArrayLen (BitVec.ofNat 32 keys.length)
  write 43
  writeString codecvt .char ("java.lang.Object".toList.map Char.toNat)
  keys.forM Serializable.writeObject

def writeObjectPart (codecvt : Codecvt) (se : Serializable) (isDelta callToData : Bool)
    (getAllKeyList : Option (List Serializable)) : WriteM Unit :=
  if se.isEmptyBytes then do
    writeInt32 0
    write 2
  else if isDelta then
    writeSized 0 se.toDelta
  else if se.isBytes then
    writeSized 0 (writeBytesOnly se)
  else if callToData then
    writeSized 1 se.serializeWithoutHeader
  else
    match getAllKeyList with
    | some keys => writeSized 1 (writeKeys codecvt keys)
    | none => writeSized 1 se.writeObject

/-! ## The header -/

def headerLength : ℕ := 17

/-- The header, with the flags in its last byte. -/
def writeHeaderBytes (msgType numOfParts txId : BitVec 32) (earlyAck : BitVec 8) : WriteM Unit := do
  writeInt32 msgType
  writeInt32 0
  writeInt32 numOfParts
  writeInt32 txId
  write earlyAck

def writeMessageLength : WriteM Unit := do
  let s ← get
  let totalLen := s.offset
  let msgLen := totalLen - BitVec.ofNat 64 headerLength
  rewindCursor (totalLen - 4)
  writeInt32 (msgLen.setWidth 32)
  advanceCursor (totalLen - 8)

/-- `updateHeaderForRetry` sets the retry bit. -/
def updateHeaderForRetry : WriteM Unit := do
  let s ← get
  updateValueAtPos 16 (s.memory 16 ||| 0x4)

/-! ## The security part -/

/-- `m_isSecurityHeaderAdded` and `m_securityHeaderLength` -/
structure SecurityHeader where
  isSecurityHeaderAdded : Bool := false
  securityHeaderLength : BitVec 32 := 0

/-- The first lines of `addSecurityPart`: the part of an earlier attempt goes. -/
def dropSecurityPart (header : SecurityHeader) : WriteM Unit :=
  if header.isSecurityHeaderAdded then do
    rewindCursor (header.securityHeaderLength.signExtend 64)
    writeMessageLength
  else
    return ()

/-- `addSecurityPart`: the ids are the one of the connection and, in one of the two overloads, the
unique id. -/
def addSecurityPart (codecvt : Codecvt) (ids : List (BitVec 64)) (header : SecurityHeader) :
    WriteM SecurityHeader := do
  dropSecurityPart header
  let bytes := ids.flatMap fun id => bytesOfNat 8 id.toNat
  writeObjectPart codecvt (.bytes bytes) false false none
  writeMessageLength
  return ⟨true, 4 + 1 + BitVec.ofNat 32 bytes.length⟩

end TcrMessage

end GeodeNative
