import Mathlib.Data.BitVec

/-!
# Encodings of Unicode text

A text is a list of characters, the Unicode scalar values. Its code units are numbers
in UTF-8 and UTF-32, and 16-bit words in UTF-16. `Codecvt` is a library that converts
between the three: it is right on the encodings of texts, and what it makes of other
units is left open as far as possible.
-/

namespace GeodeNative

open List

/-! ## Code units -/

/-- The code units of a text in UTF-8. -/
def utf8 (text : List Char) : List ℕ :=
  text.flatMap fun c => (String.utf8EncodeChar c).map UInt8.toNat

section

variable (c : Char) (text : List Char)

/-- The code units of a text in UTF-32. -/
def ucs4 : List ℕ :=
  text.map Char.toNat

/-- The code units of a character in UTF-16: a character above `0xFFFF` takes a pair of
surrogates. -/
def utf16Char : List (BitVec 16) :=
  if c.toNat < 0x10000 then
    [BitVec.ofNat 16 c.toNat]
  else
    [BitVec.ofNat 16 (0xD800 + (c.toNat - 0x10000) / 0x400),
      BitVec.ofNat 16 (0xDC00 + (c.toNat - 0x10000) % 0x400)]

/-- The code units of a text in UTF-16. -/
def utf16 : List (BitVec 16) :=
  text.flatMap utf16Char

@[simp] lemma utf8_nil : utf8 [] = [] := rfl

@[simp] lemma ucs4_nil : ucs4 [] = [] := rfl

@[simp] lemma utf16_nil : utf16 [] = [] := rfl

@[simp] lemma utf8_cons :
    utf8 (c :: text) = (String.utf8EncodeChar c).map UInt8.toNat ++ utf8 text := rfl

@[simp] lemma ucs4_cons : ucs4 (c :: text) = c.toNat :: ucs4 text := rfl

@[simp] lemma utf16_cons : utf16 (c :: text) = utf16Char c ++ utf16 text := rfl

/-- Scalar values are the numbers below `0x110000` that are no surrogates. -/
lemma toNat_scalar : c.toNat < 0xD800 ∨ 0xDFFF < c.toNat ∧ c.toNat < 0x110000 := c.valid

lemma utf16Char_length_pos : 0 < (utf16Char c).length := by
  unfold utf16Char
  split <;> simp

/-- A character of UTF-8 takes at least as many units as one of UTF-16. -/
lemma utf16Char_length_le_utf8 : (utf16Char c).length ≤ (String.utf8EncodeChar c).length := by
  have hval : c.val.toNat = c.toNat := rfl
  unfold utf16Char String.utf8EncodeChar
  simp only [hval]
  split <;> split_ifs <;> simp
  all_goals omega

end

/-- No text has more units than bytes. -/
lemma utf16_length_le_utf8 (text : List Char) : (utf16 text).length ≤ (utf8 text).length := by
  induction text with
  | nil => rfl
  | cons c =>
    have hchar := utf16Char_length_le_utf8 c
    rw [utf16_cons, utf8_cons, length_append, length_append, length_map]
    omega

/-- A character has at most two units. -/
lemma utf16_length_le_ucs4 (text : List Char) : (utf16 text).length ≤ 2 * (ucs4 text).length := by
  induction text with
  | nil => rfl
  | cons c =>
    have hchar : (utf16Char c).length ≤ 2 := by
      unfold utf16Char
      split <;> simp
    rw [utf16_cons, ucs4_cons, length_append, length_cons]
    omega

/-! ## Units determine the text -/

/-- The first unit tells whether a pair of surrogates begins, and the units of a character
are not the beginning of those of another one. -/
lemma utf16Char_append_injective {c d : Char} {us vs : List (BitVec 16)}
    (h : utf16Char c ++ us = utf16Char d ++ vs) : c = d ∧ us = vs := by
  have hc := toNat_scalar c
  have hd := toNat_scalar d
  unfold utf16Char at h
  split at h <;> split at h <;>
    simp only [cons_append, cons.injEq, ← BitVec.toNat_inj, BitVec.toNat_ofNat] at h
  · exact ⟨Char.toNat_inj.mp (by omega), h.2⟩
  · omega
  · omega
  · exact ⟨Char.toNat_inj.mp (by omega), h.2.2⟩

/-- Different texts have different units. -/
lemma utf16_injective : Function.Injective utf16 := by
  intro text text' h
  induction text generalizing text' with
  | nil =>
    cases text' with
    | nil => rfl
    | cons d =>
      have hpos := utf16Char_length_pos d
      have hlen := congrArg length h
      rw [utf16_nil, utf16_cons, length_append, length_nil] at hlen
      omega
  | cons c _ ih =>
    cases text' with
    | nil =>
      have hpos := utf16Char_length_pos c
      have hlen := congrArg length h
      rw [utf16_nil, utf16_cons, length_append, length_nil] at hlen
      omega
    | cons =>
      obtain ⟨rfl, hrest⟩ := utf16Char_append_injective h
      rw [ih hrest]

lemma ucs4_injective : Function.Injective ucs4 :=
  map_injective_iff.mpr fun _ _ h => Char.toNat_inj.mp h

/-- Different texts have different bytes. -/
lemma utf8_injective : Function.Injective utf8 := by
  intro text text' h
  have hmap : ∀ l, utf8 l = (l.flatMap String.utf8EncodeChar).map UInt8.toNat := fun l =>
    (map_flatMap ..).symm
  rw [hmap, hmap] at h
  have hbytes := map_injective_iff.mpr (fun _ _ => UInt8.toNat_inj.mp) h
  have hencode : text.utf8Encode = text'.utf8Encode := by rw [utf8Encode, utf8Encode, hbytes]
  have hdecode : some text.toArray = some text'.toArray := by
    rw [← utf8Decode?_utf8Encode, ← utf8Decode?_utf8Encode, hencode]
  exact toArray_inj (Option.some.inj hdecode)

/-! ## Conversions -/

/-- The conversions of a standard library, `none` where one throws. Units that encode no
text may be refused, or the text that they begin with is converted. -/
structure Codecvt where
  utf16OfUtf8 : List ℕ → Option (List (BitVec 16))
  utf16OfUcs4 : List ℕ → Option (List (BitVec 16))
  utf8OfUtf16 : List (BitVec 16) → Option (List ℕ)
  ucs4OfUtf16 : List (BitVec 16) → Option (List ℕ)
  utf16OfUtf8_utf8 : ∀ text, utf16OfUtf8 (utf8 text) = some (utf16 text)
  utf16OfUcs4_ucs4 : ∀ text, utf16OfUcs4 (ucs4 text) = some (utf16 text)
  utf8OfUtf16_utf16 : ∀ text, utf8OfUtf16 (utf16 text) = some (utf8 text)
  ucs4OfUtf16_utf16 : ∀ text, ucs4OfUtf16 (utf16 text) = some (ucs4 text)
  length_utf16OfUtf8 : ∀ {s units}, utf16OfUtf8 s = some units → units.length ≤ s.length
  length_utf16OfUcs4 : ∀ {s units}, utf16OfUcs4 s = some units → units.length ≤ 2 * s.length
  prefix_utf8OfUtf16 : ∀ {units s}, utf8OfUtf16 units = some s →
    ∃ text, utf16 text <+: units ∧ s = utf8 text
  prefix_ucs4OfUtf16 : ∀ {units s}, ucs4OfUtf16 units = some s →
    ∃ text, utf16 text <+: units ∧ s = ucs4 text

section Transcode

variable {α β : Type} {source : List Char → List α} {target : List Char → List β}

open Classical in
/-- The conversion that refuses all units but those of a text. -/
noncomputable def transcode (source : List Char → List α) (target : List Char → List β)
    (s : List α) : Option (List β) :=
  if h : ∃ text, source text = s then some (target h.choose) else none

/-- What encodes a text is transcoded. -/
lemma transcode_source (hinj : Function.Injective source) (text : List Char) :
    transcode source target (source text) = some (target text) := by
  have h : ∃ text', source text' = source text := ⟨text, rfl⟩
  rw [transcode, dif_pos h, hinj h.choose_spec]

/-- What is transcoded encodes a text. -/
lemma exists_of_transcode {s : List α} {s' : List β}
    (h : transcode source target s = some s') : ∃ text, source text = s ∧ s' = target text := by
  unfold transcode at h
  split at h
  · next htext => exact ⟨htext.choose, htext.choose_spec, (Option.some.inj h).symm⟩
  · exact absurd h (by simp)

/-- A library that refuses all units but those of a text. -/
noncomputable def Codecvt.strict : Codecvt where
  utf16OfUtf8 := transcode utf8 utf16
  utf16OfUcs4 := transcode ucs4 utf16
  utf8OfUtf16 := transcode utf16 utf8
  ucs4OfUtf16 := transcode utf16 ucs4
  utf16OfUtf8_utf8 := transcode_source utf8_injective
  utf16OfUcs4_ucs4 := transcode_source ucs4_injective
  utf8OfUtf16_utf16 := transcode_source utf16_injective
  ucs4OfUtf16_utf16 := transcode_source utf16_injective
  length_utf16OfUtf8 h := by
    obtain ⟨text, rfl, rfl⟩ := exists_of_transcode h
    exact utf16_length_le_utf8 text
  length_utf16OfUcs4 h := by
    obtain ⟨text, rfl, rfl⟩ := exists_of_transcode h
    exact utf16_length_le_ucs4 text
  prefix_utf8OfUtf16 h := by
    obtain ⟨text, rfl, rfl⟩ := exists_of_transcode h
    exact ⟨text, List.prefix_rfl, rfl⟩
  prefix_ucs4OfUtf16 h := by
    obtain ⟨text, rfl, rfl⟩ := exists_of_transcode h
    exact ⟨text, List.prefix_rfl, rfl⟩

end Transcode

end GeodeNative
