import GeodeNative.Library.Bytes
import GeodeNative.Library.Outcomes

/-!
# Reading from a byte buffer

`DataInput` is a cursor over a buffer. Each function is the method of the same name. The
methods call the virtual `_checkBufferSize` and then read without a check; `DataSource` is
the pair of these two, and the methods are written once over it, so that a class with
another check has the same ones. A method that throws leaves the cursor where it was when
it threw. A byte outside of the buffer has no value: a method that reads one ends with
`outOfBounds`, which no exception of the source corresponds to.

The cursor is kept as its distance from the start of the buffer, modulo `2 ^ 64` as
the pointer arithmetic of the source has it. `readObject` hands over to the
application and is a sequence of the calls below; allocation failures for want of
memory are not modelled.
-/

namespace GeodeNative

/-- Why a method returns no value. -/
inductive ReadError
  /-- `OutOfRangeException` -/
  | outOfRange
  /-- `IllegalStateException` -/
  | illegalState
  /-- `std::bad_array_new_length` -/
  | badArrayNewLength
  /-- `std::range_error`, thrown by a conversion between encodings -/
  | rangeError
  /-- a byte outside of the buffer was read -/
  | outOfBounds
  deriving DecidableEq, Repr

/-- A buffer and a cursor. -/
structure DataInput where
  buffer : List (BitVec 8)
  length_lt : buffer.length < 2 ^ 64
  /-- `buffer_ - bufferHead_` -/
  offset : BitVec 64

abbrev ReadM := EStateM ReadError DataInput

namespace DataInput

def bufferLength (s : DataInput) : BitVec 64 :=
  BitVec.ofNat 64 s.buffer.length

/-! ## The cursor -/

/-- `_checkBufferSize`: the difference is unsigned. -/
def checkBufferSize (size : BitVec 64) : ReadM Unit := do
  let s ← get
  if s.bufferLength - s.offset < size then
    throw .outOfRange

/-- `*(buffer_++)`. -/
def readNoCheck : ReadM (BitVec 8) := do
  let s ← get
  match s.buffer[s.offset.toNat]? with
  | none => throw .outOfBounds
  | some b =>
    set { s with offset := s.offset + 1 }
    return b

/-- `memcpy` from the cursor, which is then advanced. -/
def copyBytes (len : BitVec 64) : ReadM (List (BitVec 8)) := do
  let s ← get
  if s.offset.toNat + len.toNat ≤ s.buffer.length then
    set { s with offset := s.offset + len }
    return (s.buffer.drop s.offset.toNat).take len.toNat
  else
    throw .outOfBounds

def advanceCursor (offset : BitVec 64) : ReadM Unit := do
  let s ← get
  set { s with offset := s.offset + offset }

def rewindCursor (offset : BitVec 64) : ReadM Unit := do
  let s ← get
  set { s with offset := s.offset - offset }

def reset (offset : BitVec 64) : ReadM Unit := do
  let s ← get
  set { s with offset }

/-! ## Code that reads without a check -/

/-- `n` more bytes of a number, the most significant first. -/
def readBigEndian {w : ℕ} : ℕ → BitVec w → ReadM (BitVec w)
  | 0, acc => return acc
  | n + 1, acc => do
    let b ← readNoCheck
    readBigEndian n (pushByte acc b)

def readInt16NoCheck : ReadM (BitVec 16) :=
  readBigEndian 2 0

def byteAt (buffer : List (BitVec 8)) (pos : ℕ) : Except ReadError (BitVec 8) :=
  match buffer[pos]? with
  | none => .error .outOfBounds
  | some b => .ok b

/-- `JavaModifiedUtf8::decodeJavaModifiedUtf8Char`: the code unit, and the position after it.
The high bits of the first byte tell how many bytes follow. -/
def decodeJavaModifiedUtf8Char (buffer : List (BitVec 8)) (pos : ℕ) :
    Except ReadError (BitVec 16 × ℕ) := do
  let b ← byteAt buffer pos
  if b >>> 5 = 6 then
    let x ← byteAt buffer (pos + 1)
    return (((b &&& 0x1F).setWidth 16 <<< 6) ||| (x &&& 0x3F).setWidth 16, pos + 2)
  else if b >>> 5 = 7 then
    let y ← byteAt buffer (pos + 1)
    let x ← byteAt buffer (pos + 2)
    return (((b &&& 0x0F).setWidth 16 <<< 12) ||| ((y &&& 0x3F).setWidth 16 <<< 6) |||
      (x &&& 0x3F).setWidth 16, pos + 3)
  else
    return ((b &&& 0x7F).setWidth 16, pos + 1)

/-- `JavaModifiedUtf8::decode` of the bytes from `pos` to `stop`. A turn of the loop takes a
byte at least, so that their number bounds the turns. -/
def decode (buffer : List (BitVec 8)) : ℕ → ℕ → ℕ → Except ReadError (List (BitVec 16))
  | 0, _, _ => return []
  | turns + 1, pos, stop => do
    if pos < stop then
      let (c, next) ← decodeJavaModifiedUtf8Char buffer pos
      let units ← decode buffer turns next stop
      return c :: units
    else
      return []

/-- The loop of `readJavaModifiedUtf8`, which reads through a pointer of its own. -/
def decodeUtf8 (length : BitVec 16) : ReadM (List (BitVec 16)) := do
  let s ← get
  let start := s.offset.toNat
  match decode s.buffer length.toNat start (start + length.toNat) with
  | .error e => throw e
  | .ok units =>
    advanceCursor (length.setWidth 64)
    return units

/-- The conversion of 16-bit units to the character type of the caller, `none` where it
throws: `to_utf8`, `to_ucs4`, or nothing to do. -/
abbrev Conversion := List (BitVec 16) → Option (List ℕ)

def convert (conversion : Conversion) (units : List (BitVec 16)) : ReadM (List ℕ) :=
  match conversion units with
  | none => throw .rangeError
  | some value => return value

/-! ## Calls -/

/-- The element types of the arrays. -/
inductive ElementType
  | char
  | boolean
  | byte
  | short
  | int
  | long
  | float
  | double
  deriving DecidableEq, Repr

inductive ReadCall
  | read
  | readBoolean
  | readBytesOnly (len : BitVec 64)
  | readBytes
  | readInt16
  | readInt32
  | readInt64
  | readArrayLength
  | readUnsignedVL
  | readFloat
  | readDouble
  | readNativeBool
  | readNativeInt32
  | readUTF (conversion : Conversion)
  | readString (conversion : Conversion)
  | readArray (element : ElementType)
  | readStringArray (conversion : Conversion)
  | readArrayOfByteArrays
  | advanceCursor (offset : BitVec 64)
  | rewindCursor (offset : BitVec 64)
  | reset (offset : BitVec 64)

end DataInput

open DataInput

/-! ## The methods over a virtual check -/

/-- What a method of `DataInput` calls: the virtual check, and code that only touches the
buffer and the cursor. -/
structure DataSource (ε σ : Type) where
  checkBufferSize : BitVec 64 → EStateM ε σ Unit
  input : {α : Type} → ReadM α → EStateM ε σ α

/-- What a call returns. -/
inductive ReadValue
  | nothing
  | bits {w : ℕ} (value : BitVec w)
  | flag (value : Bool)
  | length (value : ℤ)
  | bytes (value : List (BitVec 8))
  | text (value : List ℕ)
  | list (values : List ReadValue)

namespace DataSource

variable {ε σ : Type} (source : DataSource ε σ)

/-! ### Numbers -/

def read : EStateM ε σ (BitVec 8) := do
  source.checkBufferSize 1
  source.input readNoCheck

def readBoolean : EStateM ε σ Bool := do
  source.checkBufferSize 1
  source.input do
    let b ← readNoCheck
    return b == 1

def readInt16 : EStateM ε σ (BitVec 16) := do
  source.checkBufferSize 2
  source.input readInt16NoCheck

def readInt32 : EStateM ε σ (BitVec 32) := do
  source.checkBufferSize 4
  source.input (readBigEndian 4 0)

def readInt64 : EStateM ε σ (BitVec 64) := do
  source.checkBufferSize 8
  source.input (readBigEndian 8 0)

def readFloat : EStateM ε σ (BitVec 32) := do
  source.checkBufferSize 4
  source.readInt32

def readDouble : EStateM ε σ (BitVec 64) := do
  source.checkBufferSize 8
  source.readInt64

def readArrayLength : EStateM ε σ ℤ := do
  let code ← source.read
  if code = 0xFF then
    return -1
  else if code.toNat > 252 then
    if code = 0xFE then
      let val ← source.readInt16
      return val.toNat
    else if code = 0xFD then
      let val ← source.readInt32
      return val.toInt
    else
      source.input (throw .illegalState)
  else
    return code.toNat

/-- The loop of `readUnsignedVL`, with the turns that are left. -/
def unsignedVLLoop : ℕ → ℕ → BitVec 64 → EStateM ε σ (BitVec 64)
  | 0, _, _ => source.input (throw .illegalState)
  | turns + 1, shift, result => do
    let b ← source.read
    let result := result ||| ((b &&& 0x7F).setWidth 64 <<< shift)
    if b &&& 0x80 = 0 then
      return result
    else
      unsignedVLLoop turns (shift + 7) result

/-- `readUnsignedVL`: the shifts below 64 are 0, 7, …, 63. -/
def readUnsignedVL : EStateM ε σ (BitVec 64) :=
  source.unsignedVLLoop 10 0 0

def readNativeBool : EStateM ε σ Bool := do
  let _ ← source.read
  source.readBoolean

def readNativeInt32 : EStateM ε σ (BitVec 32) := do
  let _ ← source.read
  source.readInt32

/-! ### Bytes -/

def readBytesOnly (len : BitVec 64) : EStateM ε σ (List (BitVec 8)) := do
  if len > 0 then
    source.checkBufferSize len
    source.input (copyBytes len)
  else
    return []

def readBytes : EStateM ε σ (List (BitVec 8)) := do
  let length ← source.readArrayLength
  if length > 0 then
    source.checkBufferSize (BitVec.ofInt 64 length)
    source.input (copyBytes (BitVec.ofInt 64 length))
  else
    return []

/-! ### Strings -/

/-- `readJavaModifiedUtf8` into a string of 16-bit units. -/
def readJavaModifiedUtf8 : EStateM ε σ (List (BitVec 16)) := do
  let length ← source.readInt16
  source.checkBufferSize (length.setWidth 64)
  source.input (decodeUtf8 length)

/-- `readUtf16Huge` into a string of 16-bit units: the length counts the units, and is
checked as if it counted bytes. -/
def readUtf16Huge : EStateM ε σ (List (BitVec 16)) := do
  let length ← source.readInt32
  source.checkBufferSize (length.setWidth 64)
  source.input (times readInt16NoCheck length.toNat)

def readAsciiOf (length : BitVec 64) : EStateM ε σ (List ℕ) := do
  source.checkBufferSize length
  source.input (times (do let b ← readNoCheck; return (b &&& 0x7F).toNat) length.toNat)

def readAscii : EStateM ε σ (List ℕ) := do
  let length ← source.readInt16
  source.readAsciiOf (length.setWidth 64)

def readAsciiHuge : EStateM ε σ (List ℕ) := do
  let length ← source.readInt32
  source.readAsciiOf (length.setWidth 64)

def readUTF (conversion : Conversion) : EStateM ε σ (List ℕ) := do
  let units ← source.readJavaModifiedUtf8
  source.input (convert conversion units)

/-- `readString`: the four encodings of a string, by their `DSCode`; any other code is an
empty string. -/
def readString (conversion : Conversion) : EStateM ε σ (List ℕ) := do
  let type ← source.read
  if type = 42 then
    let units ← source.readJavaModifiedUtf8
    source.input (convert conversion units)
  else if type = 89 then
    let units ← source.readUtf16Huge
    source.input (convert conversion units)
  else if type = 87 then
    source.readAscii
  else if type = 88 then
    source.readAsciiHuge
  else
    return []

/-! ### Arrays -/

/-- `readArray`, with the `readObject` of the element type. -/
def readArray {α : Type} (readObject : EStateM ε σ α) : EStateM ε σ (List α) := do
  let arrayLen ← source.readArrayLength
  if arrayLen ≥ 0 then
    times readObject arrayLen.toNat
  else
    return []

def readCharArray := source.readArray source.readInt16
def readBooleanArray := source.readArray source.readBoolean
def readByteArray := source.readArray source.read
def readShortArray := source.readArray source.readInt16
def readIntArray := source.readArray source.readInt32
def readLongArray := source.readArray source.readInt64
def readFloatArray := source.readArray source.readFloat
def readDoubleArray := source.readArray source.readDouble

def readStringArray (conversion : Conversion) : EStateM ε σ (List (List ℕ)) := do
  let arrLen ← source.readArrayLength
  if arrLen > 0 then
    times (source.readString conversion) arrLen.toNat
  else
    return []

def readArrayOfByteArrays : EStateM ε σ (List (List (BitVec 8))) := do
  let arrLen ← source.readArrayLength
  if arrLen = -1 then
    return []
  else if arrLen < 0 then
    source.input (throw .badArrayNewLength)
  else
    times source.readBytes arrLen.toNat

/-- The array methods, by element type. -/
def readElements : ElementType → EStateM ε σ (List ReadValue)
  | .char => do return (← source.readCharArray).map .bits
  | .boolean => do return (← source.readBooleanArray).map .flag
  | .byte => do return (← source.readByteArray).map .bits
  | .short => do return (← source.readShortArray).map .bits
  | .int => do return (← source.readIntArray).map .bits
  | .long => do return (← source.readLongArray).map .bits
  | .float => do return (← source.readFloatArray).map .bits
  | .double => do return (← source.readDoubleArray).map .bits

/-- What a call does and returns. -/
def call : ReadCall → EStateM ε σ ReadValue
  | .read => do return .bits (← source.read)
  | .readBoolean => do return .flag (← source.readBoolean)
  | .readBytesOnly len => do return .bytes (← source.readBytesOnly len)
  | .readBytes => do return .bytes (← source.readBytes)
  | .readInt16 => do return .bits (← source.readInt16)
  | .readInt32 => do return .bits (← source.readInt32)
  | .readInt64 => do return .bits (← source.readInt64)
  | .readArrayLength => do return .length (← source.readArrayLength)
  | .readUnsignedVL => do return .bits (← source.readUnsignedVL)
  | .readFloat => do return .bits (← source.readFloat)
  | .readDouble => do return .bits (← source.readDouble)
  | .readNativeBool => do return .flag (← source.readNativeBool)
  | .readNativeInt32 => do return .bits (← source.readNativeInt32)
  | .readUTF conversion => do return .text (← source.readUTF conversion)
  | .readString conversion => do return .text (← source.readString conversion)
  | .readArray element => do return .list (← source.readElements element)
  | .readStringArray conversion => do
    return .list ((← source.readStringArray conversion).map .text)
  | .readArrayOfByteArrays => do return .list ((← source.readArrayOfByteArrays).map .bytes)
  | .advanceCursor offset => do
    source.input (advanceCursor offset)
    return .nothing
  | .rewindCursor offset => do
    source.input (rewindCursor offset)
    return .nothing
  | .reset offset => do
    source.input (reset offset)
    return .nothing

end DataSource

namespace DataInput

/-- The methods of `DataInput` itself: the check throws. -/
def source : DataSource ReadError DataInput where
  checkBufferSize := checkBufferSize
  input := id

def read : ReadM (BitVec 8) := source.read
def readBoolean : ReadM Bool := source.readBoolean
def readInt16 : ReadM (BitVec 16) := source.readInt16
def readInt32 : ReadM (BitVec 32) := source.readInt32
def readInt64 : ReadM (BitVec 64) := source.readInt64
def readFloat : ReadM (BitVec 32) := source.readFloat
def readDouble : ReadM (BitVec 64) := source.readDouble
def readArrayLength : ReadM ℤ := source.readArrayLength
def readUnsignedVL : ReadM (BitVec 64) := source.readUnsignedVL
def readNativeBool : ReadM Bool := source.readNativeBool
def readNativeInt32 : ReadM (BitVec 32) := source.readNativeInt32
def readBytesOnly (len : BitVec 64) : ReadM (List (BitVec 8)) := source.readBytesOnly len
def readBytes : ReadM (List (BitVec 8)) := source.readBytes
def readJavaModifiedUtf8 : ReadM (List (BitVec 16)) := source.readJavaModifiedUtf8
def readUtf16Huge : ReadM (List (BitVec 16)) := source.readUtf16Huge
def readAscii : ReadM (List ℕ) := source.readAscii
def readAsciiHuge : ReadM (List ℕ) := source.readAsciiHuge
def readUTF (conversion : Conversion) : ReadM (List ℕ) := source.readUTF conversion
def readString (conversion : Conversion) : ReadM (List ℕ) := source.readString conversion
def readArray {α : Type} (readObject : ReadM α) : ReadM (List α) := source.readArray readObject
def readStringArray (conversion : Conversion) : ReadM (List (List ℕ)) :=
  source.readStringArray conversion
def readArrayOfByteArrays : ReadM (List (List (BitVec 8))) := source.readArrayOfByteArrays

/-- What a call does, without the value that it returns. -/
def ReadCall.method (c : ReadCall) : ReadM Unit := discard (source.call c)

def ReadCall.movesCursor : ReadCall → Bool
  | .advanceCursor _ | .rewindCursor _ | .reset _ => true
  | _ => false

def ReadCall.readsString : ReadCall → Bool
  | .readUTF _ | .readString _ | .readStringArray _ => true
  | _ => false

/-- The reader after a call, whether it returned or threw. -/
def step (s : DataInput) (c : ReadCall) : DataInput :=
  match c.method.run s with
  | .ok _ s' => s'
  | .error _ s' => s'

end DataInput

end GeodeNative
