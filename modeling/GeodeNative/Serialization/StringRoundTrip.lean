import GeodeNative.Serialization.StringForms

/-!
# Strings through `writeString` and `readString`

A text is written as a string of any character type and read back as one. `writeString`
chooses the form by an estimate of the length in modified UTF-8, `utfLen`. The estimate
is never too small for `char` and `char16_t`. For `char32_t` and `wchar_t` it counts three
bytes for a character that takes a pair of surrogates, which are six: a string between the
two lengths is cut.
-/

namespace GeodeNative

open List

variable {text : List Char} {ty : CharType} {units : List (BitVec 16)} {bytes : List (BitVec 8)}
  {value : List ℕ} {m : WriteM Unit}

open DataOutput DataInput

/-- What is written is read back, from every output with room for it: the value, and with it
exactly the bytes that were written. -/
def RoundTrip {α : Type} (m : WriteM Unit) (r : ReadM α) (a : α) : Prop :=
  ∀ o : DataOutput, o.Sound → o.offset.toNat < 2 ^ 60 →
    (∀ size, size.toNat < 2 ^ 62 → o.allocator.grants size = true) →
    ∃ o' bytes, m.run o = .ok () o' ∧ o'.written = o.written ++ bytes ∧ Consumes r bytes a

/-- What appends some bytes and what consumes them make a round trip. -/
lemma RoundTrip.of_appends {α : Type} {r : ReadM α} {a : α} (hm : Appends m bytes)
    (hlen : bytes.length < 2 ^ 40) (hr : Consumes r bytes a) : RoundTrip m r a := by
  intro o ho _ hgrants
  have hout := hm o ho
  unfold AppendsAt at hout
  cases hrun : m.run o with
  | ok _ o' =>
    rw [hrun] at hout
    exact ⟨o', bytes, rfl, hout.written_eq, hr⟩
  | error =>
    rw [hrun] at hout
    obtain ⟨-, -, size, hrefused, _⟩ := hout
    rw [hgrants size (by omega)] at hrefused
    cases hrefused

/-! ## The estimate -/

section Estimate

variable (codecvt : Codecvt)

def stringOf : CharType → List Char → List ℕ
  | .char, text => utf8 text
  | .char16, text => (utf16 text).map BitVec.toNat
  | .char32, text => ucs4 text
  | .wchar, text => ucs4 text

/-- The conversion that `readString` makes for a character type. -/
def conversionTo (codecvt : Codecvt) : CharType → Conversion
  | .char => codecvt.utf8OfUtf16
  | .char16 => fun units => some (units.map BitVec.toNat)
  | .char32 => codecvt.ucs4OfUtf16
  | .wchar => codecvt.ucs4OfUtf16

/-- A string of whole characters converts to its UTF-16. -/
lemma toUtf16_stringOf (ty : CharType) (text : List Char) :
    toUtf16 codecvt ty (stringOf ty text) = some (utf16 text) := by
  cases ty with
  | char => exact codecvt.utf16OfUtf8_utf8 text
  | char16 =>
    rw [toUtf16, stringOf, map_map]
    congr 1
    exact map_id'' (fun c => by simp) _
  | char32 | wchar => exact codecvt.utf16OfUcs4_ucs4 text

/-- The conversion back gives the string. -/
lemma conversionTo_utf16 (ty : CharType) (text : List Char) :
    conversionTo codecvt ty (utf16 text) = some (stringOf ty text) := by
  cases ty with
  | char => exact codecvt.utf8OfUtf16_utf16 text
  | char16 => rfl
  | char32 | wchar => exact codecvt.ucs4OfUtf16_utf16 text

/-- Different texts are different strings. -/
lemma stringOf_injective (ty : CharType) : Function.Injective (stringOf ty) := by
  cases ty with
  | char => exact utf8_injective
  | char16 =>
    intro _ _ h
    exact utf16_injective (map_injective_iff.mpr (fun _ _ => BitVec.eq_of_toNat_eq) h)
  | char32 | wchar => exact ucs4_injective

/-- A conversion of fewer units than those of a text does not yield the text. -/
lemma conversionTo_take_ne (ty : CharType) (text : List Char) {k : ℕ}
    (hk : k < (utf16 text).length) :
    conversionTo codecvt ty ((utf16 text).take k) ≠ some (stringOf ty text) := by
  intro h
  have hinit : ∃ text', utf16 text' <+: (utf16 text).take k ∧
      stringOf ty text = stringOf ty text' := by
    cases ty with
    | char => exact codecvt.prefix_utf8OfUtf16 h
    | char16 =>
      have hlen := congrArg length (Option.some.inj h)
      rw [stringOf, length_map, length_map, length_take] at hlen
      omega
    | char32 | wchar => exact codecvt.prefix_ucs4OfUtf16 h
  obtain ⟨_, hpre, heq⟩ := hinit
  obtain rfl := stringOf_injective ty heq
  have hle := hpre.length_le
  rw [length_take] at hle
  omega

/-- The loop adds up what each element counts. -/
lemma utfLen_eq (ty : CharType) (value : List ℕ) :
    utfLen ty value = value.length + (value.map (utfLenOf ty)).sum := by
  have hfold : ∀ (l : List ℕ) (n : ℕ),
      l.foldl (fun utfLen c => utfLen + utfLenOf ty c) n = n + (l.map (utfLenOf ty)).sum := by
    intro l
    induction l with
    | nil => intro n; simp
    | cons _ _ ih =>
      intro _
      rw [foldl_cons, ih, map_cons, sum_cons, Nat.add_assoc]
  exact hfold value value.length

variable {c : ℕ} (units : List (BitVec 16))

lemma length_ne_zero_of_lt_utfLen (h : value.length < utfLen ty value) : value.length ≠ 0 := by
  intro hzero
  rw [length_eq_zero_iff.mp hzero] at h
  exact Nat.lt_irrefl 0 h

/-- A string without an excess in the estimate has only ASCII characters other than NUL. -/
lemma utfLenOf_eq_zero (h : ¬ value.length < utfLen ty value) : ∀ c ∈ value, utfLenOf ty c = 0 := by
  rw [utfLen_eq] at h
  have hsum : (value.map (utfLenOf ty)).sum = 0 := by omega
  intro _ hc
  exact List.sum_eq_zero_iff_forall_eq_nat.mp hsum _ (List.mem_map_of_mem hc)

/-- Only the elements of `char` change when they are widened. -/
lemma charValue_of_lt (hty : ty ≠ .char) (hc : c < 0x110000) : charValue ty c = c := by
  cases ty with
  | char => exact absurd rfl hty
  | char16 | char32 => rfl
  | wchar =>
    have hmod : (BitVec.ofNat 32 c).toNat = c := by
      rw [BitVec.toNat_ofNat]
      omega
    rw [charValue, BitVec.toInt_eq_toNat_cond, hmod, if_pos (by omega)]

/-- The units of a text are below the limit of their type. -/
lemma lt_of_mem_stringOf (h : c ∈ stringOf ty text) :
    c < if ty = .char then 0x100 else 0x110000 := by
  cases ty with
  | char =>
    obtain ⟨ch, -, hc⟩ := mem_flatMap.mp h
    obtain ⟨b, -, rfl⟩ := mem_map.mp hc
    exact b.toNat_lt
  | char16 =>
    obtain ⟨u, -, rfl⟩ := mem_map.mp h
    exact u.isLt.trans (by decide)
  | char32 | wchar =>
    obtain ⟨ch, -, rfl⟩ := mem_map.mp h
    have hch := toNat_scalar ch
    rw [if_neg (by decide)]
    omega

/-- A byte of UTF-8 is negative as a `char` if it belongs to a longer sequence. -/
lemma utfLenOf_char (hc : c < 0x100) : utfLenOf .char c = if c ≤ 0x7F ∧ 1 ≤ c then 0 else 1 := by
  have hmod : (BitVec.ofNat 8 c).toNat = c := by
    rw [BitVec.toNat_ofNat]
    omega
  have hvalue : charValue .char c = if c < 0x80 then (c : ℤ) else c - 0x100 := by
    rw [charValue, BitVec.toInt_eq_toNat_cond]
    split_ifs <;> omega
  rw [utfLenOf]
  split_ifs <;> omega

/-- A code point above the basic plane counts three bytes, and takes six. -/
lemma utfLenOf_of_ne_char (hty : ty ≠ .char) (hc : c < 0x110000) :
    utfLenOf ty c = if c ≤ 0x7F ∧ 1 ≤ c then 0 else if 0x7FF < c then 2 else 1 := by
  rw [utfLenOf, charValue_of_lt hty hc]
  have hone : ((c : ℤ) ≤ 0x7F ∧ 1 ≤ (c : ℤ)) ↔ c ≤ 0x7F ∧ 1 ≤ c := by omega
  have htwo : (0x7FF < (c : ℤ)) ↔ 0x7FF < c := by omega
  simp only [hone, htwo]

/-- Units that add nothing to the estimate are ASCII characters other than NUL. -/
lemma ascii_of_utfLenOf (hc : c ∈ stringOf ty text) (h : utfLenOf ty c = 0) : 1 ≤ c ∧ c ≤ 0x7F := by
  have hlt := lt_of_mem_stringOf hc
  by_cases hty : ty = .char
  · subst hty
    rw [utfLenOf_char hlt] at h
    split_ifs at h with hascii
    exact ⟨hascii.2, hascii.1⟩
  · rw [if_neg hty] at hlt
    rw [utfLenOf_of_ne_char hty hlt] at h
    split_ifs at h with hascii
    exact ⟨hascii.2, hascii.1⟩

lemma encodedLength_append (units' : List (BitVec 16)) :
    encodedLength (units ++ units') = encodedLength units + encodedLength units' := by
  induction units with
  | nil => simp [encodedLength]
  | cons _ _ ih => rw [List.cons_append, encodedLength_cons, encodedLength_cons, ih, Nat.add_assoc]

lemma utfLen_append (ty : CharType) (value value' : List ℕ) :
    utfLen ty (value ++ value') = utfLen ty value + utfLen ty value' := by
  rw [utfLen_eq, utfLen_eq, utfLen_eq, length_append, map_append, sum_append]
  omega

lemma utfLen_cons (ty : CharType) (c : ℕ) (value : List ℕ) :
    utfLen ty (c :: value) = 1 + utfLenOf ty c + utfLen ty value := by
  rw [utfLen_eq, utfLen_eq, length_cons, map_cons, sum_cons]
  omega

/-- For 16-bit units the estimate is the length of the encoding. -/
lemma encodedLength_eq_utfLen : encodedLength units = utfLen .char16 (units.map BitVec.toNat) := by
  induction units with
  | nil => rfl
  | cons c =>
    have hlt : c.toNat < 0x110000 := c.isLt.trans (by decide)
    have hzero : c = 0 ↔ c.toNat = 0 := by rw [← BitVec.toNat_inj]; rfl
    have hone : c < 0x80 ↔ c.toNat < 0x80 := Iff.rfl
    have htwo : c < 0x800 ↔ c.toNat < 0x800 := Iff.rfl
    rw [map_cons, utfLen_cons, utfLenOf_of_ne_char (by decide) hlt, encodedLength]
    simp only [hzero, hone, htwo]
    split_ifs <;> omega

lemma length_le_utfLen (ty : CharType) (value : List ℕ) : value.length ≤ utfLen ty value := by
  rw [utfLen_eq]
  exact Nat.le_add_right _ _

/-- A unit takes at most three bytes. -/
lemma encodedLength_le : encodedLength units ≤ 3 * units.length := by
  induction units with
  | nil => exact Nat.le_refl 0
  | cons c =>
    have hlen := length_encodeJavaModifiedUtf8 c
    rw [encodedLength_cons, length_cons]
    omega

/-- The bytes of one unit, by its value. -/
lemma encodedLength_ofNat {v : ℕ} (hv : v < 0x10000) : encodedLength [BitVec.ofNat 16 v] =
      if v = 0 then 2 else if v < 0x80 then 1 else if v < 0x800 then 2 else 3 := by
  have hmod : (BitVec.ofNat 16 v).toNat = v := by
    rw [BitVec.toNat_ofNat]
    omega
  have hlen := encodedLength_eq_utfLen [BitVec.ofNat 16 v]
  rw [map_singleton, utfLen_cons, utfLenOf_of_ne_char (by decide) (by omega)] at hlen
  rw [hlen]
  change 1 + _ + 0 = _
  split_ifs <;> omega

/-- The bytes of a character in UTF-8 are estimated at no less than its encoding. -/
lemma encodedLength_utf16Char_le (c : Char) :
    encodedLength (utf16Char c) ≤ utfLen .char ((String.utf8EncodeChar c).map UInt8.toNat) := by
  have hval : c.val.toNat = c.toNat := rfl
  have hlen := length_le_utfLen .char ((String.utf8EncodeChar c).map UInt8.toNat)
  unfold utf16Char
  unfold String.utf8EncodeChar at hlen ⊢
  simp only [hval] at hlen ⊢
  by_cases hone : c.toNat ≤ 127
  · have hmod : (UInt8.ofNat c.toNat).toNat = c.toNat := by
      rw [UInt8.toNat_ofNat']
      omega
    rw [if_pos (by omega), if_pos hone, map_singleton, encodedLength_ofNat (by omega),
      utfLen_cons, utfLenOf_char (by omega)]
    split_ifs <;> omega
  · rw [if_neg hone] at hlen ⊢
    by_cases htwo : c.toNat ≤ 2047
    · rw [if_pos htwo] at hlen ⊢
      rw [if_pos (by omega), encodedLength_ofNat (by omega)]
      simp only [length_map] at hlen
      split_ifs <;> omega
    · rw [if_neg htwo] at hlen ⊢
      by_cases hthree : c.toNat ≤ 65535
      · rw [if_pos hthree] at hlen ⊢
        rw [if_pos (by omega), encodedLength_ofNat (by omega)]
        simp only [length_map] at hlen
        split_ifs <;> omega
      · -- a pair of surrogates: six bytes, and four negative `char`s
        rw [if_neg hthree, if_neg (by omega)]
        refine (encodedLength_le _).trans ?_
        have hneg : ∀ n, 0x80 ≤ n → n < 0x100 → utfLenOf .char (UInt8.ofNat n).toNat = 1 := by
          intro n _ hlt
          have hmod : (UInt8.ofNat n).toNat = n := by
            rw [UInt8.toNat_ofNat']
            omega
          rw [hmod, utfLenOf_char hlt, if_neg (by omega)]
        simp only [map_cons, utfLen_cons]
        rw [hneg _ (by omega) (by omega), hneg _ (by omega) (by omega)]
        simp only [length_cons, length_nil]
        omega

/-- The estimate for `char` and `char16_t` is not too small. -/
lemma encodedLength_le_utfLen (hty : ty = .char ∨ ty = .char16) :
    encodedLength (utf16 text) ≤ utfLen ty (stringOf ty text) := by
  obtain rfl | rfl := hty
  · induction text with
    | nil => exact Nat.zero_le _
    | cons c _ ih =>
      have hchar := encodedLength_utf16Char_le c
      rw [utf16_cons, encodedLength_append, stringOf, utf8_cons, utfLen_append]
      exact Nat.add_le_add hchar ih
  · exact (encodedLength_eq_utfLen _).le

/-- ASCII characters other than NUL have one byte. -/
lemma encodedLength_of_ascii (h : ∀ c ∈ text, 1 ≤ c.toNat ∧ c.toNat ≤ 0x7F) :
    encodedLength (utf16 text) = text.length := by
  induction text with
  | nil => rfl
  | cons c _ ih =>
    have hc := h c mem_cons_self
    rw [utf16_cons, encodedLength_append, utf16Char, if_pos (by omega),
      encodedLength_ofNat (by omega), if_neg (by omega), if_pos (by omega),
      ih fun d hd => h d (mem_cons_of_mem c hd), length_cons, Nat.add_comm]

end Estimate

/-! ## The forms of a text -/

section Forms

variable (codecvt : Codecvt) (ty : CharType) (text : List Char)

/-- The bytes that `writeString` writes for a text. -/
def stringForm : List (BitVec 8) :=
  if (stringOf ty text).length < utfLen ty (stringOf ty text) then
    if 0xFFFF < utfLen ty (stringOf ty text) then
      [89] ++ utf16HugeForm (utf16 text)
    else
      [42] ++ javaModifiedUtf8Form (utf16 text)
  else
    if 0xFFFF < (stringOf ty text).length then
      [88] ++ asciiForm 4 0xFFFFFFFF (stringOf ty text)
    else
      [87] ++ asciiForm 2 0xFFFF (stringOf ty text)

/-- A character has at most two units. -/
lemma length_utf16_le : (utf16 text).length ≤ 2 * (stringOf ty text).length :=
  length_toUtf16 (toUtf16_stringOf Codecvt.strict ty text)

/-- The conversion of a non-empty text does not fail. -/
lemma converting_stringOf (none : WriteM Unit) (some : List (BitVec 16) → WriteM Unit)
    (hne : (stringOf ty text).length ≠ 0) :
    converting codecvt ty (stringOf ty text) none some = some (utf16 text) := by
  rw [converting, if_neg fun h => hne h.2, toUtf16_stringOf]

variable {codecvt ty text}

/-- Each of the forms that `writeString` chooses from. -/
lemma writeString_appendsAt {s : DataOutput} (hs : s.Sound)
    (hlen : (stringOf ty text).length < 2 ^ 31) (h : utfLen ty (stringOf ty text) ≤ 0xFFFF →
      stringOverrun (utf16 text) = 0 ∨ s.offset.toNat + 0xFFFF + 5 ≤ s.size.toNat) :
    AppendsAt s (writeString codecvt ty (stringOf ty text)) (stringForm ty text) := by
  have hunits := length_utf16_le ty text
  unfold writeString stringForm
  dsimp only
  rw [if_neg (by omega)]
  split_ifs with hutf hhuge hhuge
  · rw [writeUtf16HugeString,
      converting_stringOf codecvt ty text _ _ (length_ne_zero_of_lt_utfLen hutf)]
    exact ((write_appends 89).bind (writeUtf16Huge_appends (by omega))) s hs
  · rw [writeJavaModifiedUtf8String,
      converting_stringOf codecvt ty text _ _ (length_ne_zero_of_lt_utfLen hutf)]
    refine (write_appends 42 s hs).bind fun s' hgrown =>
      writeJavaModifiedUtf8_appendsAt hgrown.sound ?_
    have hoffset := hgrown.offset_eq
    have hsize := hgrown.size_le
    rw [length_singleton] at hoffset
    omega
  · exact ((write_appends 88).bind (writeAsciiHuge_appends _)) s hs
  · exact ((write_appends 87).bind writeAscii_appends) s hs

lemma convert_consumes {conversion : Conversion}
    (h : conversion units = some value) : Consumes (convert conversion units) [] value := by
  rw [convert, h]
  exact Consumes.pure

/-- Each form is read back when its length counts it. -/
lemma readString_stringForm (hlen : (stringOf ty text).length < 2 ^ 31)
    (h : utfLen ty (stringOf ty text) ≤ 0xFFFF → encodedLength (utf16 text) ≤ 0xFFFF) :
    Consumes (readString (conversionTo codecvt ty)) (stringForm ty text) (stringOf ty text) := by
  have hunits := length_utf16_le ty text
  have hconvert := convert_consumes (conversionTo_utf16 codecvt ty text)
  unfold stringForm
  split_ifs with hutf hhuge hhuge
  · refine read_consumes.bind ?_
    have hread := (@readUtf16Huge_consumes (utf16 text) (by omega)).bind hconvert
    rwa [append_nil] at hread
  · refine read_consumes.bind ?_
    have hread := (readJavaModifiedUtf8_consumes (h (by omega))).bind hconvert
    rwa [append_nil] at hread
  · refine read_consumes.bind ?_
    exact readAsciiHuge_consumes
      (fun c hc => (ascii_of_utfLenOf hc (utfLenOf_eq_zero hutf c hc)).2) (by omega)
  · refine read_consumes.bind ?_
    exact readAscii_consumes
      (fun c hc => (ascii_of_utfLenOf hc (utfLenOf_eq_zero hutf c hc)).2) (by omega)

/-- The reader does not return the text from an encoding that was cut at the end of the
buffer. -/
lemma readUtf8_of_cut {s s' : DataInput} (hcut : 0xFFFF < encodedLength (utf16 text))
    (hs : s.buffer.drop s.offset.toNat = javaModifiedUtf8Form (utf16 text)) :
    (readJavaModifiedUtf8 >>= convert (conversionTo codecvt ty)).run s ≠
      .ok (stringOf ty text) s' := by
  intro hrun
  obtain ⟨s₁, hout⟩ | ⟨_, s₁, hk, hunits⟩ := readJavaModifiedUtf8_of_cut hcut hs
  · rw [run_bind_of_error hout] at hrun
    cases hrun
  · rw [run_bind_of_ok hunits] at hrun
    have hne := conversionTo_take_ne codecvt ty text hk
    unfold convert at hrun
    split at hrun
    · cases hrun
    · next value hvalue =>
      obtain ⟨rfl, -⟩ := EStateM.Result.ok.inj hrun
      exact hne hvalue

end Forms

/-! ## The round trip -/

section RoundTrip

variable {codecvt : Codecvt}

lemma stringOverrun_eq_zero (h : encodedLength units ≤ 0xFFFF) : stringOverrun units = 0 := by
  rw [stringOverrun, Nat.min_eq_left h, overrun_encodedLength]

/-- A form is far shorter than the memory. -/
lemma length_stringForm_lt (hlen : (stringOf ty text).length < 2 ^ 31) :
    (stringForm ty text).length < 2 ^ 40 := by
  have hunits := length_utf16_le ty text
  unfold stringForm utf16HugeForm javaModifiedUtf8Form asciiForm
  split_ifs <;>
    simp only [length_append, length_singleton, length_bytesOfNat, length_utf16Bytes,
      length_take, length_asciiBytes] <;> omega

/-- An output with room for every string that is cut. -/
def roomyOutput : DataOutput where
  memory _ := 0
  allocated := true
  size := 2 ^ 20
  offset := 0
  haveBigBuffer := false
  allocator := .ample

lemma sound_roomyOutput : roomyOutput.Sound := ⟨rfl, by decide, by decide, by decide⟩

/-- What a round trip from the roomy output writes and reads. -/
lemma RoundTrip.consumes {α : Type} {r : ReadM α} {a : α} (h : RoundTrip m r a)
    (hm : AppendsAt roomyOutput m bytes) : bytes.length < 2 ^ 64 ∧ Consumes r bytes a := by
  obtain ⟨_, bytes', hrun, hwritten, hread⟩ := h roomyOutput sound_roomyOutput (by decide)
    fun size hsize => decide_eq_true hsize
  rw [AppendsAt, hrun] at hm
  have hsame : bytes' = bytes := append_cancel_left (hwritten.symm.trans hm.written_eq)
  have hoffset := hm.offset_eq
  rw [hsame] at hread
  exact ⟨by omega, hread⟩

/-- A string that is cut is not read back. -/
lemma not_roundTrip_of_cut (hlen : (stringOf ty text).length < 2 ^ 31)
    (hutf : (stringOf ty text).length < utfLen ty (stringOf ty text))
    (hsmall : utfLen ty (stringOf ty text) ≤ 0xFFFF) (hcut : 0xFFFF < encodedLength (utf16 text)) :
    ¬ RoundTrip (writeString codecvt ty (stringOf ty text)) (readString (conversionTo codecvt ty))
      (stringOf ty text) := by
  intro h
  have hform : stringForm ty text = [42] ++ javaModifiedUtf8Form (utf16 text) := by
    rw [stringForm, if_pos hutf, if_neg (by omega)]
  have happends : AppendsAt roomyOutput (writeString codecvt ty (stringOf ty text))
      ([42] ++ javaModifiedUtf8Form (utf16 text)) := by
    rw [← hform]
    exact writeString_appendsAt sound_roomyOutput hlen fun _ => .inr (by decide)
  obtain ⟨hlt, hread⟩ := h.consumes happends
  obtain ⟨_, hrun, -⟩ := hread ⟨_, hlt, 0⟩ prefix_rfl
  obtain ⟨_, hcode, hbuffer, hoffset⟩ := read_consumes
    ⟨[42] ++ javaModifiedUtf8Form (utf16 text), hlt, 0⟩ (prefix_append _ _)
  refine readUtf8_of_cut hcut ?_ ((run_bind_of_ok hcode).symm.trans hrun)
  rw [hbuffer, hoffset]
  rfl

/-- A text written as a string and read back is the same text and takes exactly the bytes
written, except for strings of 32-bit characters that are estimated to fit into modified
UTF-8 and do not. -/
theorem writeString_roundTrip_iff (codecvt : Codecvt) (ty : CharType) (text : List Char)
    (hlen : (stringOf ty text).length < 2 ^ 31) :
    RoundTrip (writeString codecvt ty (stringOf ty text)) (readString (conversionTo codecvt ty))
        (stringOf ty text) ↔
      ty = .char ∨ ty = .char16 ∨
        (utfLen ty (stringOf ty text) ≤ 0xFFFF → encodedLength (utf16 text) ≤ 0xFFFF) := by
  constructor
  · intro h
    by_contra hnot
    rw [not_or, not_or, Classical.not_imp, Nat.not_le] at hnot
    obtain ⟨hchar, hchar16, hsmall, hcut⟩ := hnot
    have hucs4 : stringOf ty text = ucs4 text := by
      cases ty with
      | char => exact absurd rfl hchar
      | char16 => exact absurd rfl hchar16
      | char32 | wchar => rfl
    by_cases hutf : (stringOf ty text).length < utfLen ty (stringOf ty text)
    · exact not_roundTrip_of_cut hlen hutf hsmall hcut h
    · -- ASCII characters take one byte each, so that nothing is cut
      have hascii : ∀ c ∈ text, 1 ≤ c.toNat ∧ c.toNat ≤ 0x7F := by
        intro c hc
        have hmem : c.toNat ∈ stringOf ty text := by
          rw [hucs4]
          exact mem_map_of_mem hc
        exact ascii_of_utfLenOf hmem (utfLenOf_eq_zero hutf _ hmem)
      have hlength : text.length = (stringOf ty text).length := by rw [hucs4, ucs4, length_map]
      have hle := length_le_utfLen ty (stringOf ty text)
      rw [encodedLength_of_ascii hascii] at hcut
      omega
  · intro h
    have hfits : utfLen ty (stringOf ty text) ≤ 0xFFFF → encodedLength (utf16 text) ≤ 0xFFFF := by
      intro hsmall
      obtain hchar | hchar16 | hfits := h
      · exact (encodedLength_le_utfLen (.inl hchar)).trans hsmall
      · exact (encodedLength_le_utfLen (.inr hchar16)).trans hsmall
      · exact hfits hsmall
    have happends : Appends (writeString codecvt ty (stringOf ty text)) (stringForm ty text) :=
      fun s hs => writeString_appendsAt hs hlen fun hsmall =>
        .inl (stringOverrun_eq_zero (hfits hsmall))
    exact RoundTrip.of_appends happends (length_stringForm_lt hlen)
      (readString_stringForm hlen hfits)

/-- Characters above `0xFFFF`, which are estimated at half of their length. -/
def smiles (n : ℕ) : List Char :=
  List.replicate n (Char.ofNat 0x1F600)

theorem writeString_roundTrip_smile :
    RoundTrip (writeString Codecvt.strict .char32 (stringOf .char32 (smiles 1)))
      (readString (conversionTo Codecvt.strict .char32)) (stringOf .char32 (smiles 1)) :=
  (writeString_roundTrip_iff Codecvt.strict .char32 (smiles 1) (by decide)).mpr
    (.inr (.inr fun _ => by decide))

/-- A smile takes six bytes, -/
lemma encodedLength_smiles (n : ℕ) : encodedLength (utf16 (smiles n)) = 6 * n := by
  induction n with
  | zero => rfl
  | succ n ih =>
    rw [smiles, List.replicate_succ, utf16_cons, encodedLength_append, ← smiles, ih]
    change 6 + 6 * n = _
    omega

lemma stringOf_smiles (n : ℕ) : stringOf .char32 (smiles n) = replicate n 0x1F600 := by
  rw [stringOf, ucs4, smiles, map_replicate]
  rfl

/-- and is counted as three. -/
lemma utfLen_smiles (n : ℕ) : utfLen .char32 (replicate n 0x1F600) = 3 * n := by
  induction n with
  | zero => rfl
  | succ n ih =>
    rw [List.replicate_succ, utfLen_cons, ih]
    change 1 + 2 + 3 * n = _
    omega

theorem writeString_not_roundTrip_smiles :
    ¬ RoundTrip (writeString Codecvt.strict .char32 (stringOf .char32 (smiles 10923)))
      (readString (conversionTo Codecvt.strict .char32)) (stringOf .char32 (smiles 10923)) := by
  have hlength : (stringOf .char32 (smiles 10923)).length = 10923 := by
    rw [stringOf_smiles, length_replicate]
  have hutf : utfLen .char32 (stringOf .char32 (smiles 10923)) = 32769 := by
    rw [stringOf_smiles, utfLen_smiles]
  have hencoded := encodedLength_smiles 10923
  exact not_roundTrip_of_cut (by omega) (by omega) (by omega) (by omega)

end RoundTrip

end GeodeNative
