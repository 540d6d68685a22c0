import GeodeNative.Library.Bytes
import GeodeNative.Library.Outcomes
import GeodeNative.Library.Unicode

/-!
# Writing to a byte buffer

`DataOutput` is a cursor over a buffer that grows. Each function is the method of the
same name. A byte is written to the buffer only if the buffer is there and the cursor
inside of it: a method that writes elsewhere ends with `outOfBounds`, which no exception
of the source corresponds to.

The cursor is kept as its distance from `m_bytes`, modulo `2 ^ 64` as the pointer
arithmetic of the source has it, and so are the sizes. What the allocator answers is
part of the state and is chosen anew for each call. `writeObject` hands over to the
object, whose `toData` is a sequence of the calls below.
-/

namespace GeodeNative

/-- Why a method does not return. -/
inductive WriteError
  /-- `OutOfMemoryException` -/
  | outOfMemory
  /-- `NullPointerException` -/
  | nullPointer
  /-- `std::range_error`, thrown by a conversion between encodings -/
  | rangeError
  /-- the loop over the string does not end -/
  | endless
  /-- a byte outside of the buffer was written -/
  | outOfBounds
  /-- an `int32_t` overflowed, or a character behind the end of the string was read -/
  | undefined
  deriving DecidableEq, Repr

/-- The answers of `malloc` and `realloc`. No address space has room for `2 ^ 62` bytes. -/
structure Allocator where
  grants : BitVec 64 → Bool
  grants_lt : ∀ {size : BitVec 64}, grants size = true → size.toNat < 2 ^ 62
  /-- where the buffer lies that is about to be resized -/
  address : BitVec 64

/-- An allocator that grants what an address space has room for. -/
def Allocator.ample : Allocator where
  grants size := decide (size.toNat < 2 ^ 62)
  grants_lt h := of_decide_eq_true h
  address := 0

/-- A buffer and a cursor. -/
structure DataOutput where
  /-- the bytes from `m_bytes` on -/
  memory : ℕ → BitVec 8
  /-- whether `m_bytes` points to a buffer -/
  allocated : Bool
  /-- `m_size` -/
  size : BitVec 64
  /-- `m_buf - m_bytes.get()` -/
  offset : BitVec 64
  haveBigBuffer : Bool
  allocator : Allocator

abbrev WriteM := EStateM WriteError DataOutput

/-- The character types of the strings. -/
inductive CharType
  | char
  | char16
  | char32
  | wchar
  deriving DecidableEq, Repr

namespace DataOutput

def lowWaterMark : BitVec 64 := 8192

def highWaterMark : BitVec 64 := 50 * 1024 * 1024

/-- The bytes before the cursor: `getBuffer` and `getBufferLength`. -/
def written (s : DataOutput) : List (BitVec 8) :=
  (List.range s.offset.toNat).map s.memory

/-! ## The buffer -/

/-- `ensureCapacity`. A `realloc` that fails leaves `m_bytes` null and the cursor where it
was in the lost buffer. -/
def ensureCapacity (size : BitVec 64) : WriteM Unit := do
  let s ← get
  if s.size - s.offset < size then
    let newSize := s.size * 2 + 8192 * (size / 8192)
    let haveBigBuffer := s.haveBigBuffer || decide (highWaterMark ≤ newSize)
    if s.allocator.grants newSize then
      set { s with size := newSize, haveBigBuffer, allocated := true }
    else
      let offset := if s.allocated then s.allocator.address + s.offset else s.offset
      set { s with size := newSize, haveBigBuffer, allocated := false, offset }
      throw .outOfMemory

/-- `*(m_buf++) = value`. -/
def writeNoCheck (value : BitVec 8) : WriteM Unit := do
  let s ← get
  if s.allocated ∧ s.offset < s.size then
    set { s with
      memory := Function.update s.memory s.offset.toNat value
      offset := s.offset + 1 }
  else
    throw .outOfBounds

/-- Bytes one after the other, by `writeNoCheck` or `memcpy`. -/
def writeAll : List (BitVec 8) → WriteM Unit
  | [] => return ()
  | b :: bytes => do
    writeNoCheck b
    writeAll bytes

def advanceCursor (offset : BitVec 64) : WriteM Unit := do
  ensureCapacity offset
  let s ← get
  set { s with offset := s.offset + offset }

def rewindCursor (offset : BitVec 64) : WriteM Unit := do
  let s ← get
  set { s with offset := s.offset - offset }

/-- `reset`: a big buffer is given back for a small one. -/
def reset : WriteM Unit := do
  let s ← get
  if s.haveBigBuffer then
    if s.allocator.grants lowWaterMark then
      set { s with
        allocated := true, size := lowWaterMark, haveBigBuffer := false, offset := 0 }
    else
      let offset := if s.allocated then s.allocator.address + s.offset else s.offset
      set { s with allocated := false, offset }
      throw .outOfMemory
  else
    set { s with offset := 0 }

def updateValueAtPos (offset : BitVec 64) (value : BitVec 8) : WriteM Unit := do
  let s ← get
  if s.allocated ∧ offset < s.size then
    set { s with memory := Function.update s.memory offset.toNat value }
  else
    throw .outOfBounds

/-! ## Numbers -/

def write (value : BitVec 8) : WriteM Unit := do
  ensureCapacity 1
  writeNoCheck value

def writeBoolean (value : Bool) : WriteM Unit :=
  write (if value then 1 else 0)

/-- The bytes of a number, the most significant first. -/
def writeBigEndian (n : ℕ) (value : ℕ) : WriteM Unit := do
  ensureCapacity (BitVec.ofNat 64 n)
  writeAll (bytesOfNat n value)

def writeInt16 (value : BitVec 16) : WriteM Unit :=
  writeBigEndian 2 value.toNat

def writeChar (value : BitVec 16) : WriteM Unit :=
  writeBigEndian 2 value.toNat

def writeInt32 (value : BitVec 32) : WriteM Unit :=
  writeBigEndian 4 value.toNat

def writeInt64 (value : BitVec 64) : WriteM Unit :=
  writeBigEndian 8 value.toNat

/-- `writeFloat`, with the bits of the value. -/
def writeFloat (value : BitVec 32) : WriteM Unit :=
  writeInt32 value

/-- `writeDouble`, with the bits of the value. -/
def writeDouble (value : BitVec 64) : WriteM Unit :=
  writeInt64 value

def writeArrayLen (len : BitVec 32) : WriteM Unit := do
  if len.toInt = -1 then
    write 0xFF
  else if len.toInt ≤ 252 then
    write (len.setWidth 8)
  else if len.toInt ≤ 0xFFFF then
    write 0xFE
    writeInt16 (len.setWidth 16)
  else
    write 0xFD
    writeInt32 len

/-! ## Bytes -/

/-- `writeBytes` from a pointer. The sum `len + 5` is one of `int32_t`. -/
def writeBytes (bytes : Option (ℕ → BitVec 8)) (len : BitVec 32) : WriteM Unit := do
  if 0 ≤ len.toInt then
    if len.toNat + 5 < 2 ^ 31 then
      ensureCapacity (BitVec.ofNat 64 (len.toNat + 5))
      match bytes with
      | none => writeArrayLen 0
      | some bytes =>
        writeArrayLen len
        writeAll ((List.range len.toNat).map bytes)
    else
      throw .undefined
  else
    write 0xFF

/-- `writeBytesOnly`, with the bytes that the pointer and the length stand for. -/
def writeBytesOnly (bytes : List (BitVec 8)) : WriteM Unit := do
  ensureCapacity (BitVec.ofNat 64 bytes.length)
  writeAll bytes

/-! ## Strings

A string is the list of its code units, by their unsigned values. -/

/-- `writeAscii` and `writeAsciiHuge`, after the length: seven bits of each unit. -/
def writeSevenBits : List ℕ → WriteM Unit
  | [] => return ()
  | c :: value => do
    write (BitVec.ofNat 8 c &&& 0x7F)
    writeSevenBits value

def writeAscii (value : List ℕ) : WriteM Unit := do
  let len := min value.length 0xFFFF
  writeInt16 (BitVec.ofNat 16 len)
  writeSevenBits (value.take len)

def writeAsciiHuge (value : List ℕ) : WriteM Unit := do
  let len := min value.length 0xFFFFFFFF
  writeInt32 (BitVec.ofNat 32 len)
  writeSevenBits (value.take len)

/-- `JavaModifiedUtf8::encodedLength`. -/
def encodedLength : List (BitVec 16) → ℕ
  | [] => 0
  | c :: units =>
    encodedLength units +
      if c = 0 then 2 else if c < 0x80 then 1 else if c < 0x800 then 2 else 3

/-- The bytes that `encodeJavaModifiedUtf8` writes. -/
def encodeJavaModifiedUtf8 (c : BitVec 16) : List (BitVec 8) :=
  if c = 0 then
    [0xC0, 0x80]
  else if c < 0x80 then
    [c.setWidth 8]
  else if c < 0x800 then
    [(0xC0 ||| c >>> 6).setWidth 8, (0x80 ||| (c &&& 0x3F)).setWidth 8]
  else
    [(0xE0 ||| c >>> 12).setWidth 8, (0x80 ||| (c >>> 6 &&& 0x3F)).setWidth 8,
      (0x80 ||| (c &&& 0x3F)).setWidth 8]

/-- The loop of `writeJavaModifiedUtf8`, with the distance to `end`. The cursor goes back to
`end` if the last unit went beyond it. -/
def encodeLoop : List (BitVec 16) → ℕ → WriteM Unit
  | _, 0 => return ()
  | [], _ + 1 => throw .undefined
  | c :: units, left + 1 => do
    let bytes := encodeJavaModifiedUtf8 c
    writeAll bytes
    if bytes.length ≤ left + 1 then
      encodeLoop units (left + 1 - bytes.length)
    else
      rewindCursor (BitVec.ofNat 64 (bytes.length - (left + 1)))

/-- `writeJavaModifiedUtf8` of 16-bit units. -/
def writeJavaModifiedUtf8 (units : List (BitVec 16)) : WriteM Unit := do
  if units.length = 0 then
    writeInt16 0
  else
    let encodedLen := min (encodedLength units) 0xFFFF
    writeInt16 (BitVec.ofNat 16 encodedLen)
    ensureCapacity (BitVec.ofNat 64 encodedLen)
    encodeLoop units encodedLen

def utf16Bytes (units : List (BitVec 16)) : List (BitVec 8) :=
  units.flatMap fun c => bytesOfNat 2 c.toNat

/-- `writeUtf16` of 16-bit units. -/
def writeUtf16 (units : List (BitVec 16)) : WriteM Unit := do
  ensureCapacity (BitVec.ofNat 64 (units.length * 2))
  writeAll (utf16Bytes units)

/-- `writeUtf16Huge` of 16-bit units. -/
def writeUtf16Huge (units : List (BitVec 16)) : WriteM Unit := do
  writeInt32 (BitVec.ofNat 32 (min units.length 0xFFFFFFFF))
  writeUtf16 units

section CharTypes

variable (codecvt : Codecvt)

/-- `to_utf16` where the character type is not `char16_t`; `wchar_t` is a `char32_t`. -/
def toUtf16 : CharType → List ℕ → Option (List (BitVec 16))
  | .char, value => codecvt.utf16OfUtf8 value
  | .char16, value => some (value.map (BitVec.ofNat 16))
  | .char32, value => codecvt.utf16OfUcs4 value
  | .wchar, value => codecvt.utf16OfUcs4 value

section

variable (ty : CharType) (value : List ℕ)

/-- The methods that convert a string that is not empty, and write `none` for an empty one. -/
def converting (none : WriteM Unit) (some : List (BitVec 16) → WriteM Unit) : WriteM Unit :=
  if ty ≠ .char16 ∧ value.length = 0 then
    none
  else
    match toUtf16 codecvt ty value with
    | .none => throw .rangeError
    | .some units => some units

/-- `writeJavaModifiedUtf8` of a string. -/
def writeJavaModifiedUtf8String : WriteM Unit :=
  converting codecvt ty value (writeInt16 0) writeJavaModifiedUtf8

/-- `writeUtf16Huge` of a string. The length of an empty string has two bytes, except for
`char16_t`. -/
def writeUtf16HugeString : WriteM Unit :=
  converting codecvt ty value (writeInt16 0) writeUtf16Huge

/-- `writeUtf16` of a string. -/
def writeUtf16String : WriteM Unit :=
  converting codecvt ty value (return ()) writeUtf16

/-- A unit as a number of its type: `char` and `wchar_t` have a sign. -/
def charValue (c : ℕ) : ℤ :=
  match ty with
  | .char => (BitVec.ofNat 8 c).toInt
  | .char16 => c
  | .char32 => c
  | .wchar => (BitVec.ofNat 32 c).toInt

/-- What a unit adds to `utfLen` in the loop of `writeString`. -/
def utfLenOf (c : ℕ) : ℕ :=
  if charValue ty c ≤ 0x7F ∧ 1 ≤ charValue ty c then 0
  else if 0x7FF < charValue ty c then 2
  else 1

end

/-- `utfLen` after the loop of `writeString`. -/
def utfLen (ty : CharType) (value : List ℕ) : ℕ :=
  value.foldl (fun utfLen c => utfLen + utfLenOf ty c) value.length

/-- `writeString`. The index of its loop has 32 bits and does not reach the length of a
longer string. -/
def writeString (ty : CharType) (value : List ℕ) : WriteM Unit := do
  let len := value.length
  if 2 ^ 32 ≤ len then
    throw .endless
  else
    let utfLen := utfLen ty value
    if len < utfLen then
      if 0xFFFF < utfLen then
        write 89
        writeUtf16HugeString codecvt ty value
      else
        write 42
        writeJavaModifiedUtf8String codecvt ty value
    else
      if 0xFFFF < len then
        write 88
        writeAsciiHuge value
      else
        write 87
        writeAscii value

def writeStringPointer (ty : CharType) : Option (List ℕ) → WriteM Unit
  | none => write 69
  | some value => writeString codecvt ty value

def writeUTFPointer (ty : CharType) : Option (List ℕ) → WriteM Unit
  | none => throw .nullPointer
  | some value => writeJavaModifiedUtf8String codecvt ty value

end CharTypes

/-! ## Calls -/

/-- Data of the caller, which lies in memory as well. -/
structure Stored (α : Type) where
  units : List α
  length_lt : units.length < 2 ^ 61

inductive WriteCall
  | write (value : BitVec 8)
  | writeBoolean (value : Bool)
  | writeBytes (bytes : Option (ℕ → BitVec 8)) (len : BitVec 32)
  | writeBytesOnly (bytes : Stored (BitVec 8))
  | writeInt16 (value : BitVec 16)
  | writeChar (value : BitVec 16)
  | writeInt32 (value : BitVec 32)
  | writeInt64 (value : BitVec 64)
  | writeArrayLen (len : BitVec 32)
  | writeFloat (value : BitVec 32)
  | writeDouble (value : BitVec 64)
  | writeString (ty : CharType) (value : Option (Stored ℕ))
  | writeUTF (ty : CharType) (value : Option (Stored ℕ))
  | writeChars (ty : CharType) (value : Stored ℕ)
  /-- the four forms of a string in `CacheableString::toData` -/
  | writeAscii (value : Stored ℕ)
  | writeAsciiHuge (value : Stored ℕ)
  | writeUtf16Huge (ty : CharType) (value : Stored ℕ)
  | advanceCursor (offset : BitVec 64)
  | rewindCursor (offset : BitVec 64)
  | reset
  | updateValueAtPos (offset : BitVec 64) (value : BitVec 8)

def WriteCall.method (codecvt : Codecvt) : WriteCall → WriteM Unit
  | .write value => DataOutput.write value
  | .writeBoolean value => DataOutput.writeBoolean value
  | .writeBytes bytes len => DataOutput.writeBytes bytes len
  | .writeBytesOnly bytes => DataOutput.writeBytesOnly bytes.units
  | .writeInt16 value => DataOutput.writeInt16 value
  | .writeChar value => DataOutput.writeChar value
  | .writeInt32 value => DataOutput.writeInt32 value
  | .writeInt64 value => DataOutput.writeInt64 value
  | .writeArrayLen len => DataOutput.writeArrayLen len
  | .writeFloat value => DataOutput.writeFloat value
  | .writeDouble value => DataOutput.writeDouble value
  | .writeString ty value => writeStringPointer codecvt ty (value.map Stored.units)
  | .writeUTF ty value => writeUTFPointer codecvt ty (value.map Stored.units)
  | .writeChars ty value => writeUtf16String codecvt ty value.units
  | .writeAscii value => DataOutput.writeAscii value.units
  | .writeAsciiHuge value => DataOutput.writeAsciiHuge value.units
  | .writeUtf16Huge ty value => writeUtf16HugeString codecvt ty value.units
  | .advanceCursor offset => DataOutput.advanceCursor offset
  | .rewindCursor offset => DataOutput.rewindCursor offset
  | .reset => DataOutput.reset
  | .updateValueAtPos offset value => DataOutput.updateValueAtPos offset value

end DataOutput

/-! ## The pool of buffers -/

structure BufferDesc where
  memory : ℕ → BitVec 8
  size : BitVec 64

/-- A thread with its pool `TSSDataOutput` and its outputs. `corrupted` says that a byte was
written outside of a buffer, or that the behaviour was undefined. -/
structure OutputThread where
  buffers : List BufferDesc
  outputs : List DataOutput
  corrupted : Bool

/-- What a thread does with outputs, and what the allocator answers. -/
inductive OutputAction
  | construct (allocator : Allocator)
  | call (i : ℕ) (allocator : Allocator) (c : DataOutput.WriteCall)
  | destruct (i : ℕ) (allocator : Allocator)

namespace OutputThread

/-- `checkoutBuffer`: the last buffer of the pool or a new one, `none` if there is no memory.
The contents of a new buffer are arbitrary. -/
def checkoutBuffer (t : OutputThread) (allocator : Allocator) :
    Option (BufferDesc × List BufferDesc) :=
  match t.buffers with
  | desc :: buffers => some (desc, buffers)
  | [] => if allocator.grants 8192 then some (⟨fun _ => 0, 8192⟩, []) else none

def construct (t : OutputThread) (allocator : Allocator) : OutputThread :=
  match t.checkoutBuffer allocator with
  | none => t
  | some (desc, buffers) =>
    { t with
      buffers
      outputs := t.outputs ++ [{
        memory := desc.memory, allocated := true, size := desc.size, offset := 0
        haveBigBuffer := false, allocator }] }

/-- Whether a call that ends so has corrupted the memory. -/
def corrupts : WriteError → Bool
  | .outOfBounds | .undefined => true
  | _ => false

/-- A call of an output, which keeps what was written before an exception. -/
def call (codecvt : Codecvt) (t : OutputThread) (i : ℕ) (allocator : Allocator)
    (c : DataOutput.WriteCall) : OutputThread :=
  match t.outputs[i]? with
  | none => t
  | some o =>
    match (c.method codecvt).run { o with allocator } with
    | .ok _ o' => { t with outputs := t.outputs.set i o' }
    | .error e o' => { t with outputs := t.outputs.set i o', corrupted := corrupts e }

/-- The destructor of `DataOutput`: a buffer goes back to the pool. An exception of `reset`
ends the program. -/
def destruct (t : OutputThread) (i : ℕ) (allocator : Allocator) : OutputThread :=
  match t.outputs[i]? with
  | none => t
  | some o =>
    match DataOutput.reset.run { o with allocator } with
    | .ok _ o' =>
      { t with
        buffers := if o'.allocated then ⟨o'.memory, o'.size⟩ :: t.buffers else t.buffers
        outputs := t.outputs.eraseIdx i }
    | .error _ _ => { t with buffers := [], outputs := [] }

def step (codecvt : Codecvt) (t : OutputThread) (a : OutputAction) : OutputThread :=
  if t.corrupted then
    t
  else
    match a with
    | .construct allocator => t.construct allocator
    | .call i allocator c => t.call codecvt i allocator c
    | .destruct i allocator => t.destruct i allocator

/-- A thread that has done nothing yet. -/
def initial : OutputThread where
  buffers := []
  outputs := []
  corrupted := false

end OutputThread

end GeodeNative
