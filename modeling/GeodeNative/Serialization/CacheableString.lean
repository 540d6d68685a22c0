import Mathlib.Data.Nat.Bitwise
import GeodeNative.Serialization.StringRoundTrip

/-!
# `CacheableString`

A `CacheableString` holds UTF-8 and decides its form when it is made: by the length in
UTF-8 and by whether all of its bytes are ASCII. Modified UTF-8 can be longer than UTF-8,
by a byte for NUL and by two for a character that takes a pair of surrogates, so that a
string of no more than `0xFFFF` bytes can be cut when it is written.
-/

namespace GeodeNative

open List

open DataOutput DataInput

/-- The `DSCode`s of strings. -/
inductive StringCode
  | cacheableString
  | cacheableASCIIString
  | cacheableASCIIStringHuge
  | cacheableStringHuge
  deriving DecidableEq, Repr

def StringCode.code : StringCode → BitVec 8
  | .cacheableString => 42
  | .cacheableASCIIString => 87
  | .cacheableASCIIStringHuge => 88
  | .cacheableStringHuge => 89

/-- A string in UTF-8 and the code of its form. -/
structure CacheableString where
  str : List ℕ
  type : StringCode
  deriving DecidableEq, Repr

namespace CacheableString

def isAscii (str : List ℕ) : Bool :=
  str.all fun c => c &&& 0x80 == 0

/-- The constructor from a string, which `create` calls. -/
def create (str : List ℕ) : CacheableString where
  str := str
  type :=
    if 0xFFFF < str.length then
      if isAscii str then .cacheableASCIIStringHuge else .cacheableStringHuge
    else
      if isAscii str then .cacheableASCIIString else .cacheableString

section Data

variable (codecvt : Codecvt)

def toData (s : CacheableString) : WriteM Unit :=
  match s.type with
  | .cacheableASCIIString => writeAscii s.str
  | .cacheableString => writeJavaModifiedUtf8String codecvt .char s.str
  | .cacheableASCIIStringHuge => writeAsciiHuge s.str
  | .cacheableStringHuge => writeUtf16HugeString codecvt .char s.str

def fromData (s : CacheableString) : ReadM CacheableString := do
  let str ← match s.type with
    | .cacheableASCIIString => readAscii
    | .cacheableString => readJavaModifiedUtf8 >>= convert (conversionTo codecvt .char)
    | .cacheableASCIIStringHuge => readAsciiHuge
    | .cacheableStringHuge => readUtf16Huge >>= convert (conversionTo codecvt .char)
  return { s with str }

end Data

def createDeserializable : CacheableString := ⟨[], .cacheableASCIIString⟩
def createDeserializableHuge : CacheableString := ⟨[], .cacheableASCIIStringHuge⟩
def createUTFDeserializable : CacheableString := ⟨[], .cacheableString⟩
def createUTFDeserializableHuge : CacheableString := ⟨[], .cacheableStringHuge⟩

/-- The factories that `TheTypeMap` has for the codes of strings. -/
def findDataSerializablePrimitive (code : BitVec 8) : Option CacheableString :=
  if code = 87 then some createDeserializable
  else if code = 88 then some createDeserializableHuge
  else if code = 42 then some createUTFDeserializable
  else if code = 89 then some createUTFDeserializableHuge
  else none

/-- `SerializationRegistry::serialize`. -/
def serialize (codecvt : Codecvt) (s : CacheableString) : WriteM Unit := do
  write s.type.code
  toData codecvt s

/-- `SerializationRegistry::deserialize`, for the codes of strings. -/
def deserialize (codecvt : Codecvt) : ReadM CacheableString := do
  let code ← read
  match findDataSerializablePrimitive code with
  | none => throw .illegalState
  | some obj => fromData codecvt obj

/-! ## The forms of a text -/

variable {codecvt : Codecvt} {text : List Char}

section Forms

variable {str : List ℕ} {s : DataOutput}

/-- The code of a string is registered for its own type. -/
lemma findDataSerializablePrimitive_code (type : StringCode) :
    findDataSerializablePrimitive type.code = some ⟨[], type⟩ := by
  cases type <;> rfl

/-- The scan finds every byte that is not ASCII. -/
lemma le_of_isAscii (h : isAscii str = true) (hlt : ∀ c ∈ str, c < 0x100) :
    ∀ c ∈ str, c ≤ 0x7F := by
  intro c hc
  have hbit : (c &&& 0x80 == 0) = true := all_eq_true.mp h c hc
  have hand : c &&& 2 ^ 7 = 0 := by simpa using hbit
  rw [Nat.and_two_pow, Nat.testBit_eq_decide_div_mod_eq] at hand
  have hbyte := hlt c hc
  by_contra hlarge
  rw [decide_eq_true (by omega)] at hand
  cases hand

/-- The bytes after the code of the string of a text. -/
def dataForm (text : List Char) : List (BitVec 8) :=
  match (create (utf8 text)).type with
  | .cacheableASCIIString => asciiForm 2 0xFFFF (utf8 text)
  | .cacheableString => javaModifiedUtf8Form (utf16 text)
  | .cacheableASCIIStringHuge => asciiForm 4 0xFFFFFFFF (utf8 text)
  | .cacheableStringHuge => utf16HugeForm (utf16 text)

/-- What the code of a string says about it. -/
lemma create_type (str : List ℕ) :
    match (create str).type with
    | .cacheableASCIIString => str.length ≤ 0xFFFF ∧ isAscii str = true
    | .cacheableString => str.length ≤ 0xFFFF ∧ isAscii str = false
    | .cacheableASCIIStringHuge => 0xFFFF < str.length ∧ isAscii str = true
    | .cacheableStringHuge => 0xFFFF < str.length ∧ isAscii str = false := by
  by_cases hlong : 0xFFFF < str.length <;> cases hascii : isAscii str <;>
    simp [create, hlong, hascii]
  all_goals omega

lemma length_ne_zero_of_isAscii (h : isAscii str = false) : str.length ≠ 0 := by
  intro hzero
  rw [length_eq_zero_iff.mp hzero] at h
  cases h

/-- The form that the type of the string selects is written. -/
lemma toData_appendsAt (hs : s.Sound) (hlen : (utf8 text).length < 2 ^ 31)
    (h : (create (utf8 text)).type = .cacheableString →
      stringOverrun (utf16 text) = 0 ∨ s.offset.toNat + 0xFFFF + 4 ≤ s.size.toNat) :
    AppendsAt s (toData codecvt (create (utf8 text))) (dataForm text) := by
  have hunits := utf16_length_le_utf8 text
  have htype := create_type (utf8 text)
  unfold toData dataForm
  cases hcode : (create (utf8 text)).type with
  | cacheableASCIIString => exact writeAscii_appends s hs
  | cacheableString =>
    rw [hcode] at htype
    change AppendsAt s (writeJavaModifiedUtf8String codecvt .char (stringOf .char text)) _
    rw [writeJavaModifiedUtf8String,
      converting_stringOf codecvt .char text _ _ (length_ne_zero_of_isAscii htype.2)]
    exact writeJavaModifiedUtf8_appendsAt hs (h hcode)
  | cacheableASCIIStringHuge => exact writeAsciiHuge_appends _ s hs
  | cacheableStringHuge =>
    rw [hcode] at htype
    change AppendsAt s (writeUtf16HugeString codecvt .char (stringOf .char text)) _
    rw [writeUtf16HugeString,
      converting_stringOf codecvt .char text _ _ (length_ne_zero_of_isAscii htype.2)]
    exact writeUtf16Huge_appends (by omega) s hs

lemma serialize_appendsAt (hs : s.Sound) (hlen : (utf8 text).length < 2 ^ 31)
    (h : (create (utf8 text)).type = .cacheableString →
      stringOverrun (utf16 text) = 0 ∨ s.offset.toNat + 0xFFFF + 5 ≤ s.size.toNat) :
    AppendsAt s (serialize codecvt (create (utf8 text)))
      ([(create (utf8 text)).type.code] ++ dataForm text) := by
  refine (write_appends _ s hs).bind fun s' hgrown =>
    toData_appendsAt hgrown.sound hlen fun hcode => ?_
  have hroom := h hcode
  have hoffset := hgrown.offset_eq
  have hsize := hgrown.size_le
  rw [length_singleton] at hoffset
  omega

variable (hlen : (utf8 text).length < 2 ^ 31)

include hlen

/-- The form is read back by the same type. -/
lemma fromData_consumes
    (h : (create (utf8 text)).type = .cacheableString → encodedLength (utf16 text) ≤ 0xFFFF) :
    Consumes (fromData codecvt ⟨[], (create (utf8 text)).type⟩) (dataForm text)
      (create (utf8 text)) := by
  have hunits := utf16_length_le_utf8 text
  have htype := create_type (utf8 text)
  have hconvert := convert_consumes (conversionTo_utf16 codecvt .char text)
  have hbytes : ∀ c ∈ utf8 text, c < 0x100 := fun c hc => @lt_of_mem_stringOf text .char c hc
  have hcreate : create (utf8 text) = ⟨utf8 text, (create (utf8 text)).type⟩ := rfl
  rw [hcreate]
  unfold fromData dataForm
  cases hcode : (create (utf8 text)).type with
  | cacheableASCIIString =>
    rw [hcode] at htype
    exact (readAscii_consumes (le_of_isAscii htype.2 hbytes) htype.1).map
  | cacheableString =>
    have hread := (readJavaModifiedUtf8_consumes (h hcode)).bind hconvert
    rw [append_nil] at hread
    exact hread.map
  | cacheableASCIIStringHuge =>
    rw [hcode] at htype
    exact (readAsciiHuge_consumes (le_of_isAscii htype.2 hbytes) (by omega)).map
  | cacheableStringHuge =>
    have hread := (@readUtf16Huge_consumes (utf16 text) (by omega)).bind hconvert
    rw [append_nil] at hread
    exact hread.map

lemma length_dataForm_lt : (dataForm text).length < 2 ^ 39 := by
  have hunits := utf16_length_le_utf8 text
  unfold dataForm utf16HugeForm javaModifiedUtf8Form asciiForm
  split <;>
    simp only [length_append, length_bytesOfNat, length_utf16Bytes, length_take,
      length_asciiBytes] <;> omega

end Forms

/-! ## The round trip -/

/-- A text that was cut comes back shorter. -/
lemma not_roundTrip_of_cut (hlen : (utf8 text).length < 2 ^ 31)
    (hcode : (create (utf8 text)).type = .cacheableString)
    (hcut : 0xFFFF < encodedLength (utf16 text)) :
    ¬ RoundTrip (serialize codecvt (create (utf8 text))) (deserialize codecvt)
      (create (utf8 text)) := by
  intro h
  have happends : AppendsAt _ (serialize codecvt (create (utf8 text))) _ :=
    serialize_appendsAt sound_roomyOutput hlen fun _ => .inr (by decide)
  have hform : dataForm text = javaModifiedUtf8Form (utf16 text) := by rw [dataForm, hcode]
  obtain ⟨hlt, hread⟩ := h.consumes happends
  obtain ⟨_, hrun, -⟩ := hread ⟨_, hlt, 0⟩ prefix_rfl
  obtain ⟨s₁, hfirst, hbuffer, hoffset⟩ := read_consumes
    ⟨[(create (utf8 text)).type.code] ++ dataForm text, hlt, 0⟩ (prefix_append _ _)
  have hdrop : s₁.buffer.drop s₁.offset.toNat = javaModifiedUtf8Form (utf16 text) := by
    rw [hbuffer, hoffset, ← hform]
    rfl
  rw [deserialize, run_bind_of_ok hfirst, findDataSerializablePrimitive_code, hcode] at hrun
  dsimp only [fromData] at hrun
  cases hstr : (readJavaModifiedUtf8 >>= convert (conversionTo codecvt .char)).run s₁ with
  | error =>
    rw [run_bind_of_error hstr] at hrun
    cases hrun
  | ok str =>
    rw [run_bind_of_ok hstr] at hrun
    obtain ⟨hobj, -⟩ := EStateM.Result.ok.inj hrun
    have hsame : str = stringOf .char text := congrArg CacheableString.str hobj
    rw [hsame] at hstr
    exact readUtf8_of_cut hcut hdrop hstr

/-- A text in a `CacheableString` is read back with exactly the bytes written, unless it is
short, not ASCII, and too long in modified UTF-8. -/
theorem serialize_roundTrip_iff (codecvt : Codecvt) (text : List Char)
    (hlen : (utf8 text).length < 2 ^ 31) :
    RoundTrip (serialize codecvt (create (utf8 text))) (deserialize codecvt) (create (utf8 text)) ↔
      isAscii (utf8 text) = true ∨ 0xFFFF < (utf8 text).length ∨
        encodedLength (utf16 text) ≤ 0xFFFF := by
  have htype := create_type (utf8 text)
  constructor
  · intro h
    by_contra hnot
    rw [not_or, not_or, Nat.not_le] at hnot
    obtain ⟨hascii, _, hcut⟩ := hnot
    have hcode : (create (utf8 text)).type = .cacheableString := by
      rw [create]
      rw [if_neg (by omega), if_neg hascii]
    exact not_roundTrip_of_cut hlen hcode hcut h
  · intro h
    have hfits : (create (utf8 text)).type = .cacheableString →
        encodedLength (utf16 text) ≤ 0xFFFF := by
      intro hcode
      rw [hcode] at htype
      obtain hascii | hlong | hfits := h
      · rw [htype.2] at hascii
        cases hascii
      · omega
      · exact hfits
    have happends : Appends (serialize codecvt (create (utf8 text)))
        ([(create (utf8 text)).type.code] ++ dataForm text) :=
      fun s hs => serialize_appendsAt hs hlen fun hcode =>
        .inl (stringOverrun_eq_zero (hfits hcode))
    have hlt := length_dataForm_lt hlen
    refine RoundTrip.of_appends happends ?_ (read_consumes.bind ?_)
    · rw [length_append, length_singleton]
      omega
    · rw [findDataSerializablePrimitive_code]
      exact fromData_consumes hlen hfits

theorem serialize_roundTrip_smile :
    RoundTrip (serialize Codecvt.strict (create (utf8 (smiles 1)))) (deserialize Codecvt.strict)
      (create (utf8 (smiles 1))) :=
  (serialize_roundTrip_iff Codecvt.strict (smiles 1) (by decide)).mpr (.inr (.inr (by decide)))

lemma utf8_smiles_succ (n : ℕ) :
    utf8 (smiles (n + 1)) = [0xF0, 0x9F, 0x98, 0x80] ++ utf8 (smiles n) := by
  rfl

lemma length_utf8_smiles (n : ℕ) : (utf8 (smiles n)).length = 4 * n := by
  induction n with
  | zero => rfl
  | succ n ih =>
    rw [utf8_smiles_succ, length_append, ih]
    change 4 + 4 * n = _
    omega

theorem serialize_not_roundTrip_smiles :
    ¬ RoundTrip (serialize Codecvt.strict (create (utf8 (smiles 10923))))
      (deserialize Codecvt.strict) (create (utf8 (smiles 10923))) := by
  have hlength := length_utf8_smiles 10923
  have hencoded := encodedLength_smiles 10923
  have hascii : isAscii (utf8 (smiles 10923)) = false := by
    rfl
  refine not_roundTrip_of_cut (by omega) ?_ (by omega)
  rw [create]
  rw [if_neg (by omega)]
  rfl

end CacheableString

end GeodeNative
