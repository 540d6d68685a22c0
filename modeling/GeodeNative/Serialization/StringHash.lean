import GeodeNative.Library.Unicode
import Mathlib.Tactic.Ring

/-!
# The hash code of a string

A string key is hashed as `java.lang.String` hashes its UTF-16 code units, also when it is held in
UTF-8.  The loop over UTF-8 takes as many bytes as the first one of a character announces, without
looking for the end of the string, and so it may read beyond the terminating zero.
-/

namespace GeodeNative

open List Nat

/-- A turn over a code unit. The hash is an `int32_t`, which is taken to wrap around. -/
def hashUnit (hash : BitVec 32) (c : BitVec 16) : BitVec 32 :=
  31 * hash + c.setWidth 32

/-- `geode_hash<std::u16string>`. -/
def geodeHashU16 (val : List (BitVec 16)) : BitVec 32 :=
  val.foldl hashUnit 0

/-- The code point of the character that begins with a byte, and how many more it takes of the bytes
that follow; `none` where it reads beyond the terminating zero. -/
def codePoint (it : ℕ) (rest : List ℕ) : Option (ℕ × ℕ) := do
  let next (i : ℕ) : Option ℕ := (rest ++ [0])[i]?
  let cp := 0xff &&& it
  if cp < 0x80 then
    return (cp, 0)
  else if cp >>> 5 = 0x6 then
    return (((cp <<< 6) &&& 0x7ff) + ((← next 0) &&& 0x3f), 1)
  else if cp >>> 4 = 0xe then
    let cp := ((cp <<< 12) &&& 0xffff) + (((0xff &&& (← next 0)) <<< 6) &&& 0xfff)
    return (cp + ((← next 1) &&& 0x3f), 2)
  else if cp >>> 3 = 0x1e then
    let cp := ((cp <<< 18) &&& 0x1fffff) + (((0xff &&& (← next 0)) <<< 12) &&& 0x3ffff)
    let cp := cp + (((0xff &&& (← next 1)) <<< 6) &&& 0xfff)
    return (cp + ((← next 2) &&& 0x3f), 3)
  else
    return (cp, 0)

/-- The code units of a code point are hashed, above `0xffff` a pair of surrogates. -/
def hashCodePoint (hash : BitVec 32) (cp : ℕ) : BitVec 32 :=
  if cp > 0xffff then
    let hash := hashUnit hash (BitVec.ofNat 16 ((cp >>> 10) + (0xD800 - (0x10000 >>> 10))))
    hashUnit hash (BitVec.ofNat 16 ((cp &&& 0x3ff) + 0xdc00))
  else
    31 * hash + BitVec.ofNat 32 cp

/-- The loop of `geode_hash<std::string>`. -/
def geodeHashLoop (hash : BitVec 32) : List ℕ → Option (BitVec 32)
  | [] => some hash
  | it :: rest =>
    match codePoint it rest with
    | none => none
    | some (cp, n) => geodeHashLoop (hashCodePoint hash cp) (rest.drop n)
termination_by val => val.length
decreasing_by
  rw [length_drop, length_cons]
  omega

/-- `geode_hash<std::string>`, over the bytes of a string: `none` if it reads beyond the terminating
zero. -/
def geodeHash (val : List ℕ) : Option (BitVec 32) :=
  geodeHashLoop 0 val

/-- How many more bytes the first byte of a character announces. -/
def announced (it : ℕ) : ℕ :=
  if it % 256 / 32 = 0b110 then 1 else if it % 256 / 16 = 0b1110 then 2
  else if it % 256 / 8 = 0b11110 then 3 else 0

/-- Each character that the loop meets lacks at most its last byte. -/
def Covered : List ℕ → Prop
  | [] => True
  | it :: rest => announced it ≤ rest.length + 1 ∧ Covered (rest.drop (announced it))
termination_by val => val.length
decreasing_by
  rw [length_drop, length_cons]
  omega

/-! ## The two loops agree -/

/-- The sum that is the hash code of code units, before it wraps around. -/
def weightedSum (val : List (BitVec 16)) : ℕ :=
  (val.mapIdx fun i c => c.toNat * 31 ^ (val.length - 1 - i)).sum

/-- Without the wrap-around the loop is the scheme of Horner. -/
lemma foldl_horner (hash : ℕ) (val : List (BitVec 16)) :
    val.foldl (fun hash c => 31 * hash + c.toNat) hash =
      hash * 31 ^ val.length + weightedSum val := by
  induction val generalizing hash with
  | nil => simp [weightedSum]
  | cons c val ih =>
    have hrest : (fun i (c : BitVec 16) => c.toNat * 31 ^ (val.length - (i + 1))) =
        fun i c => c.toNat * 31 ^ (val.length - 1 - i) := by
      simp only [Nat.sub_sub, Nat.add_comm 1]
    rw [foldl_cons, ih]
    simp only [weightedSum, mapIdx_cons, sum_cons, length_cons, Nat.add_sub_cancel, Nat.sub_zero,
      hrest]
    ring

/-- The loop over code units computes the sum, wrapped around. -/
lemma geodeHashU16_eq (val : List (BitVec 16)) :
    geodeHashU16 val = BitVec.ofNat 32 (weightedSum val) := by
  have hunit (hash : ℕ) (c : BitVec 16) : hashUnit (BitVec.ofNat 32 hash) c =
      BitVec.ofNat 32 (31 * hash + c.toNat) := by
    rw [hashUnit, BitVec.ofNat_add, BitVec.ofNat_mul, BitVec.ofNat_toNat]
    rfl
  have hhorner := foldl_horner 0 val
  rw [Nat.zero_mul, Nat.zero_add] at hhorner
  rw [← hhorner]
  exact foldl_hom (BitVec.ofNat 32) hunit

/-- The mask takes a byte from a character that may have been sign-extended. -/
lemma low_byte (it : ℕ) : 0xff &&& it = it % 256 := by
  rw [Nat.and_comm]
  exact and_two_pow_sub_one_eq_mod it 8

/-- A code point is hashed as its code units are. -/
lemma hashCodePoint_toNat (hash : BitVec 32) (c : Char) :
    hashCodePoint hash c.toNat = (utf16Char c).foldl hashUnit hash := by
  unfold hashCodePoint utf16Char
  by_cases h : c.toNat < 0x10000
  · rw [if_neg (by omega), if_pos h, foldl_cons, foldl_nil, hashUnit,
      BitVec.setWidth_ofNat_of_le_of_lt (by decide) h]
  · have hlow : c.toNat &&& 0x3ff = c.toNat % 2 ^ 10 := and_two_pow_sub_one_eq_mod _ 10
    have hhigh : (c.toNat >>> 10) + (0xD800 - (0x10000 >>> 10)) =
        0xD800 + (c.toNat - 0x10000) / 0x400 := by
      rw [shiftRight_eq_div_pow]
      omega
    rw [if_pos (by omega), if_neg h, hhigh, hlow,
      show c.toNat % 2 ^ 10 + 0xdc00 = 0xDC00 + (c.toNat - 0x10000) % 0x400 by omega]
    rfl

/-- The loop takes all bytes of a character. -/
lemma codePoint_utf8EncodeChar (c : Char) (rest : List ℕ) :
    ∃ it more, (String.utf8EncodeChar c).map UInt8.toNat = it :: more ∧
      codePoint it (more ++ rest) = some (c.toNat, more.length) := by
  have hval : c.val.toNat = c.toNat := rfl
  have h6 (x : ℕ) : x &&& 0x3f = x % 64 := and_two_pow_sub_one_eq_mod x 6
  have h11 (x : ℕ) : x &&& 0x7ff = x % 2048 := and_two_pow_sub_one_eq_mod x 11
  have h12 (x : ℕ) : x &&& 0xfff = x % 4096 := and_two_pow_sub_one_eq_mod x 12
  have h16 (x : ℕ) : x &&& 0xffff = x % 65536 := and_two_pow_sub_one_eq_mod x 16
  have h18 (x : ℕ) : x &&& 0x3ffff = x % 262144 := and_two_pow_sub_one_eq_mod x 18
  have h21 (x : ℕ) : x &&& 0x1fffff = x % 2097152 := and_two_pow_sub_one_eq_mod x 21
  have hlt := toNat_scalar c
  unfold String.utf8EncodeChar
  simp only [hval]
  split_ifs <;> refine ⟨_, _, rfl, ?_⟩ <;>
    simp only [codePoint, low_byte, h6, h11, h12, h16, h18, h21, shiftRight_eq_div_pow,
      shiftLeft_eq] <;> simp
  · rw [if_pos (by omega)]
    congr 2
    omega
  · rw [if_neg (by omega), if_pos (by omega)]
    congr 2
    omega
  · rw [if_neg (by omega), if_neg (by omega), if_pos (by omega)]
    congr 2
    omega
  · rw [if_neg (by omega), if_neg (by omega), if_neg (by omega), if_pos (by omega)]
    congr 2
    omega

/-- Over the bytes of a text the loop takes the turns of its code units. -/
lemma geodeHashLoop_utf8 (hash : BitVec 32) (text : List Char) :
    geodeHashLoop hash (utf8 text) = some ((utf16 text).foldl hashUnit hash) := by
  induction text generalizing hash with
  | nil => rw [utf8_nil, geodeHashLoop]; rfl
  | cons c text ih =>
    obtain ⟨it, more, hbytes, hpoint⟩ := codePoint_utf8EncodeChar c (utf8 text)
    rw [utf8_cons, hbytes, cons_append, geodeHashLoop, hpoint, utf16_cons, foldl_append]
    simp only [drop_left, ih, hashCodePoint_toNat]

/-! ## Reading beyond the string -/

/-- A character is decoded unless more bytes than its last one are missing. -/
lemma map_snd_codePoint (it : ℕ) (rest : List ℕ) : (codePoint it rest).map Prod.snd =
    if announced it ≤ rest.length + 1 then some (announced it) else none := by
  unfold codePoint announced
  simp only [low_byte, shiftRight_eq_div_pow]
  rcases rest with _ | ⟨a, _ | ⟨b, _ | ⟨d, rest⟩⟩⟩ <;> simp only [length_nil, length_cons] <;>
    split_ifs <;> first | rfl | omega

/-- The loop stays within the terminating zero if each of its turns does. -/
lemma isSome_geodeHashLoop (hash : BitVec 32) (val : List ℕ) :
    (geodeHashLoop hash val).isSome ↔ Covered val := by
  fun_induction Covered val generalizing hash with
  | case1 => simp [geodeHashLoop]
  | case2 it rest ih =>
    have hsnd := map_snd_codePoint it rest
    rw [geodeHashLoop]
    by_cases h : announced it ≤ rest.length + 1
    · rw [if_pos h, Option.map_eq_some_iff] at hsnd
      obtain ⟨⟨cp, _⟩, hpoint, rfl⟩ := hsnd
      rw [hpoint, and_iff_right h]
      exact ih _
    · rw [if_neg h, Option.map_eq_none_iff] at hsnd
      simp [hsnd, h]

/-- On every text the two loops give the sum of the code units times the powers of 31, wrapped
around.  On any bytes the loop stays within the terminating zero exactly when each character that
it meets lacks at most its last byte. -/
theorem geodeHash_spec (text : List Char) (val : List ℕ) :
    (geodeHash (utf8 text) = some (geodeHashU16 (utf16 text)) ∧
      geodeHashU16 (utf16 text) = BitVec.ofNat 32 (weightedSum (utf16 text))) ∧
    ((geodeHash val).isSome ↔ Covered val) :=
  ⟨⟨geodeHashLoop_utf8 0 text, geodeHashU16_eq _⟩, isSome_geodeHashLoop 0 val⟩

/-- The string has the first byte of a character of three bytes and no more, or two bytes of one
of four. -/
theorem geodeHash_cut : geodeHash [0xE2] = none ∧ geodeHash [0xF0, 0x9F] = none := by
  constructor <;> rw [geodeHash, geodeHashLoop] <;> rfl

end GeodeNative
