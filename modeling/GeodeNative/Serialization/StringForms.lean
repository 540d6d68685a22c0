import Mathlib.Tactic.IntervalCases
import GeodeNative.Serialization.Appends
import GeodeNative.Serialization.DataInput

/-!
# Reading back what was written

`Consumes m bytes a` says that the method `m` of `DataInput` returns `a` wherever `bytes`
come next, and moves the cursor behind them. The numbers and the four forms of a string
are read so. Of modified UTF-8 that was cut, some of the units are missing, or the reader
runs out of the buffer.
-/

namespace GeodeNative

open List BitVec Nat

open DataOutput

namespace DataInput

/-! ## Consuming bytes -/

/-- The bytes come next in the buffer. -/
def Ahead (s : DataInput) (bytes : List (BitVec 8)) : Prop :=
  bytes <+: s.buffer.drop s.offset.toNat

/-- A method returns `a` wherever `bytes` come next, and moves the cursor behind them. -/
def Consumes {α : Type} (m : ReadM α) (bytes : List (BitVec 8)) (a : α) : Prop :=
  ∀ s, Ahead s bytes → ∃ s', m.run s = .ok a s' ∧ s'.buffer = s.buffer ∧
    s'.offset.toNat = s.offset.toNat + bytes.length

section Rules

variable {α β : Type} {m : ReadM α} {bytes bytes' : List (BitVec 8)} {a : α} {s s' : DataInput}
  {size : BitVec 64}

/-- What is ahead fits behind the cursor. -/
lemma Ahead.length_le (h : Ahead s bytes) : bytes.length ≤ s.buffer.length - s.offset.toNat := by
  have hle := List.IsPrefix.length_le h
  rwa [length_drop] at hle

lemma Ahead.left (h : Ahead s (bytes ++ bytes')) : Ahead s bytes := (prefix_append _ _).trans h

/-- What comes next after some of it was consumed. -/
lemma Ahead.right (h : Ahead s (bytes ++ bytes')) (hbuffer : s'.buffer = s.buffer)
    (hoffset : s'.offset.toNat = s.offset.toNat + bytes.length) : Ahead s' bytes' := by
  obtain ⟨rest, hrest⟩ := h
  refine ⟨rest, ?_⟩
  rw [hbuffer, hoffset, ← List.drop_drop, ← hrest, List.append_assoc, List.drop_left]

lemma Consumes.pure : Consumes (pure a) [] a := fun s _ => ⟨s, rfl, rfl, rfl⟩

/-- The bytes of the second method follow those of the first. -/
lemma Consumes.bind {f : α → ReadM β} {b : β} (hm : Consumes m bytes a)
    (hf : Consumes (f a) bytes' b) : Consumes (m >>= f) (bytes ++ bytes') b := by
  intro s hs
  obtain ⟨s', hrun, hbuffer, hoffset⟩ := hm s hs.left
  obtain ⟨s'', hrun', hbuffer', hoffset'⟩ := hf s' (hs.right hbuffer hoffset)
  refine ⟨s'', by rw [run_bind_of_ok hrun, hrun'], hbuffer'.trans hbuffer, ?_⟩
  rw [hoffset', hoffset, length_append, add_assoc]

lemma Consumes.map {f : α → β} (hm : Consumes m bytes a) :
    Consumes (do let x ← m; Pure.pure (f x)) bytes (f a) := by
  have h := hm.bind (f := fun x => Pure.pure (f x)) Consumes.pure
  rwa [append_nil] at h

lemma checkBufferSize_run (hs : Ahead s bytes) (hsize : size.toNat ≤ bytes.length) :
    (checkBufferSize size).run s = .ok () s := by
  have hle := hs.length_le
  have hlt := s.length_lt
  have hcheck : ¬ s.bufferLength - s.offset < size := by
    rw [lt_def, toNat_sub, bufferLength, toNat_ofNat]
    omega
  rw [checkBufferSize, run_get_bind, if_neg hcheck]
  rfl

/-- A check for bytes that are ahead passes. -/
lemma Consumes.checked (hm : Consumes m bytes a) (hsize : size.toNat ≤ bytes.length) :
    Consumes (do checkBufferSize size; m) bytes a := by
  intro s hs
  obtain ⟨s', hrun, h⟩ := hm s hs
  exact ⟨s', by rw [run_bind_of_ok (checkBufferSize_run hs hsize), hrun], h⟩

/-- The loop rule: the values of a list, one after the other. -/
lemma Consumes.times {ι : Type} {f : ι → List (BitVec 8)} (g : ι → α) (xs : List ι)
    (h : ∀ x ∈ xs, Consumes m (f x) (g x)) :
    Consumes (GeodeNative.times m xs.length) (xs.flatMap f) (xs.map g) := by
  induction xs with
  | nil => exact Consumes.pure
  | cons x _ ih =>
    have hrest := ih fun y hy => h y (mem_cons_of_mem x hy)
    exact (h x mem_cons_self).bind (hrest.map (f := fun ys => g x :: ys))

end Rules

/-! ## Numbers -/

/-- One byte is one byte. -/
lemma readNoCheck_consumes (b : BitVec 8) : Consumes readNoCheck [b] b := by
  intro s hs
  have hle := hs.length_le
  have hlt := s.length_lt
  have hbyte : s.buffer[s.offset.toNat]? = some b := by
    obtain ⟨_, hrest⟩ := hs
    rw [← head?_drop, ← hrest]
    rfl
  refine ⟨{ s with offset := s.offset + 1 }, ?_, rfl, ?_⟩
  · rw [readNoCheck, run_get_bind, hbyte]
    rfl
  · rw [length_singleton] at hle ⊢
    exact mod_eq_of_lt (by
      change s.offset.toNat + 1 < 2 ^ 64
      omega)

lemma read_consumes {b : BitVec 8} : Consumes read [b] b :=
  (readNoCheck_consumes b).checked (le_refl 1)

/-- By induction on the bytes, with what is read so far as accumulator. -/
lemma readBigEndian_consumes {w : ℕ} (bytes : List (BitVec 8)) (acc : BitVec w) :
    Consumes (readBigEndian bytes.length acc) bytes (bytes.foldl pushByte acc) := by
  induction bytes generalizing acc with
  | nil => exact Consumes.pure
  | cons b _ ih => exact (readNoCheck_consumes b).bind (ih (pushByte acc b))

/-- A number that fits is read back from its bytes. -/
lemma readBigEndian_bytesOfNat {w n v : ℕ} (hn : 8 * n ≤ w) (hv : v < 256 ^ n) :
    Consumes (readBigEndian n (0 : BitVec w)) (bytesOfNat n v) (BitVec.ofNat w v) := by
  have hread := readBigEndian_consumes (bytesOfNat n v) (0 : BitVec w)
  have hval : (bytesOfNat n v).foldl pushByte (0 : BitVec w) = BitVec.ofNat w v := by
    have hfold := toNat_foldl_pushByte (w := w) (bytesOfNat n v) (by rwa [length_bytesOfNat])
    rw [natOfBytes_bytesOfNat hv] at hfold
    rw [← toNat_inj, hfold, toNat_ofNat, mod_eq_of_lt]
    calc v < 256 ^ n := hv
      _ = 2 ^ (8 * n) := by rw [pow_mul]; norm_num
      _ ≤ 2 ^ w := Nat.pow_le_pow_right (by decide) hn
  rwa [hval, length_bytesOfNat] at hread

lemma readInt16NoCheck_consumes (v : BitVec 16) :
    Consumes readInt16NoCheck (bytesOfNat 2 v.toNat) v := by
  have h := readBigEndian_bytesOfNat (w := 16) (n := 2) (by decide) v.isLt
  rwa [ofNat_toNat] at h

lemma readInt16_consumes {v : ℕ} (hv : v < 2 ^ 16) :
    Consumes readInt16 (bytesOfNat 2 v) (BitVec.ofNat 16 v) :=
  (readBigEndian_bytesOfNat (w := 16) (n := 2) (by decide) hv).checked (by
    rw [length_bytesOfNat]
    decide)

lemma readInt32_consumes {v : ℕ} (hv : v < 2 ^ 32) :
    Consumes readInt32 (bytesOfNat 4 v) (BitVec.ofNat 32 v) :=
  (readBigEndian_bytesOfNat (w := 32) (n := 4) (by decide) hv).checked (by
    rw [length_bytesOfNat]
    decide)

/-! ## ASCII and UTF-16 -/

variable {units : List (BitVec 16)}

section Strings

/-- Seven bits survive the mask. -/
lemma readSevenBits_consumes {c : ℕ} (hc : c ≤ 0x7F) :
    Consumes (do let b ← readNoCheck; return (b &&& 0x7F).toNat)
      [BitVec.ofNat 8 c &&& 0x7F] c := by
  have hread := (readNoCheck_consumes (BitVec.ofNat 8 c &&& 0x7F)).map
    (f := fun b : BitVec 8 => (b &&& 0x7F).toNat)
  have hmask : ∀ n, n ≤ 0x7F → ((BitVec.ofNat 8 n &&& 0x7F) &&& 0x7F).toNat = n := by decide
  rwa [hmask c hc] at hread

variable {value : List ℕ}

/-- ASCII text of the announced length is read back. -/
lemma readAsciiOf_consumes {length : BitVec 64} (hlength : length.toNat = value.length)
    (hvalue : ∀ c ∈ value, c ≤ 0x7F) :
    Consumes (DataInput.source.readAsciiOf length) (asciiBytes value) value := by
  have hloop := Consumes.times id value fun c hc => readSevenBits_consumes (hvalue c hc)
  rw [map_id] at hloop
  refine Consumes.checked ?_ (by rw [hlength, length_asciiBytes])
  rw [hlength, asciiBytes, map_eq_flatMap]
  exact hloop

lemma readAscii_consumes (hvalue : ∀ c ∈ value, c ≤ 0x7F)
    (hlen : value.length ≤ 0xFFFF) : Consumes readAscii (asciiForm 2 0xFFFF value) value := by
  rw [asciiForm, min_eq_left hlen, take_length]
  refine (readInt16_consumes (by omega)).bind (readAsciiOf_consumes ?_ hvalue)
  rw [toNat_setWidth, toNat_ofNat]
  omega

lemma readAsciiHuge_consumes (hvalue : ∀ c ∈ value, c ≤ 0x7F) (hlen : value.length ≤ 0xFFFFFFFF) :
    Consumes readAsciiHuge (asciiForm 4 0xFFFFFFFF value) value := by
  rw [asciiForm, min_eq_left hlen, take_length]
  refine (readInt32_consumes (by omega)).bind (readAsciiOf_consumes ?_ hvalue)
  rw [toNat_setWidth, toNat_ofNat]
  omega

/-- The units are read back when the length fits. -/
lemma readUtf16Huge_consumes (hlen : units.length ≤ 0xFFFFFFFF) :
    Consumes readUtf16Huge (utf16HugeForm units) units := by
  have hmod : (BitVec.ofNat 32 units.length).toNat = units.length := by
    rw [toNat_ofNat]
    omega
  have hloop := Consumes.times id units fun c _ => readInt16NoCheck_consumes c
  rw [map_id] at hloop
  rw [utf16HugeForm, min_eq_left hlen]
  refine (readInt32_consumes (by omega)).bind (Consumes.checked ?_ ?_)
  · rw [hmod]
    exact hloop
  · rw [toNat_setWidth, length_utf16Bytes]
    omega

end Strings

/-! ## Modified UTF-8 -/

section JavaModifiedUtf8

variable {buffer : List (BitVec 8)} {pos : ℕ}

/-- The byte at a position begins the rest of the buffer. -/
lemma byteAt_of_drop {b : BitVec 8} {rest : List (BitVec 8)} (h : buffer.drop pos = b :: rest) :
    byteAt buffer pos = .ok b := by
  have hbyte : buffer[pos]? = some b := by
    rw [← head?_drop, h]
    rfl
  rw [byteAt, hbyte]

lemma byteAt_of_drop_nil (h : buffer.drop pos = []) : byteAt buffer pos = .error .outOfBounds := by
  have hbyte : buffer[pos]? = none := by
    rw [← head?_drop, h]
    rfl
  rw [byteAt, hbyte]

/-! The bits of the bytes of a unit, in the order of `encodeJavaModifiedUtf8`. -/

variable {c : BitVec 16} {bytes : List (BitVec 8)} {turns n stop : ℕ} {s : DataInput}

/-- The first byte of the short form has neither tag. -/
lemma one_byte (hc : c < 0x80) : (c.setWidth 8) >>> 5 ≠ 6 ∧ (c.setWidth 8) >>> 5 ≠ 7 ∧
      (c.setWidth 8 &&& 0x7F).setWidth 16 = c := by
  have hall : ∀ n, n < 0x80 →
      ((BitVec.ofNat 16 n).setWidth 8) >>> 5 ≠ 6 ∧ ((BitVec.ofNat 16 n).setWidth 8) >>> 5 ≠ 7 ∧
        ((BitVec.ofNat 16 n).setWidth 8 &&& 0x7F).setWidth 16 = BitVec.ofNat 16 n := by decide
  have hn := hall c.toNat hc
  rwa [ofNat_toNat] at hn

/-- The tag and the payload of the two-byte form. -/
lemma two_bytes (hc : c < 0x800) : ((0xC0 ||| c >>> 6).setWidth 8 : BitVec 8) >>> 5 = 6 ∧
      ((((0xC0 ||| c >>> 6).setWidth 8 : BitVec 8) &&& 0x1F).setWidth 16 <<< 6) |||
        (((0x80 ||| (c &&& 0x3F)).setWidth 8 : BitVec 8) &&& 0x3F).setWidth 16 = c := by
  have hhigh : ∀ i, 11 ≤ i → c.getLsbD i = false := by
    intro i hi
    refine testBit_lt_two_pow (lt_of_lt_of_le (show c.toNat < 2 ^ 11 from hc) ?_)
    exact Nat.pow_le_pow_right (by decide) hi
  constructor
  · refine eq_of_getLsbD_eq fun i hi => ?_
    interval_cases i <;> simp
    exact hhigh 11 (by decide)
  · refine eq_of_getLsbD_eq fun i hi => ?_
    interval_cases i <;> simp
    all_goals exact hhigh _ (by decide)

/-- The tag and the payload of the three-byte form. -/
lemma three_bytes (c : BitVec 16) : ((0xE0 ||| c >>> 12).setWidth 8 : BitVec 8) >>> 5 = 7 ∧
      ((((0xE0 ||| c >>> 12).setWidth 8 : BitVec 8) &&& 0x0F).setWidth 16 <<< 12) |||
        ((((0x80 ||| (c >>> 6 &&& 0x3F)).setWidth 8 : BitVec 8) &&& 0x3F).setWidth 16 <<< 6) |||
        (((0x80 ||| (c &&& 0x3F)).setWidth 8 : BitVec 8) &&& 0x3F).setWidth 16 = c := by
  constructor <;>
  · refine eq_of_getLsbD_eq fun i hi => ?_
    interval_cases i <;> simp

/-- The first byte of a unit tells how many follow, and the unit is in their bits. -/
inductive UnitBytes (c : BitVec 16) : List (BitVec 8) → Prop
  | one (b : BitVec 8) (h6 : b >>> 5 ≠ 6) (h7 : b >>> 5 ≠ 7)
    (hc : (b &&& 0x7F).setWidth 16 = c) : UnitBytes c [b]
  | two (b x : BitVec 8) (h6 : b >>> 5 = 6)
    (hc : ((b &&& 0x1F).setWidth 16 <<< 6) ||| (x &&& 0x3F).setWidth 16 = c) : UnitBytes c [b, x]
  | three (b y x : BitVec 8) (h7 : b >>> 5 = 7)
    (hc : ((b &&& 0x0F).setWidth 16 <<< 12) ||| ((y &&& 0x3F).setWidth 16 <<< 6) |||
      (x &&& 0x3F).setWidth 16 = c) : UnitBytes c [b, y, x]

/-- Each form of a unit carries the unit. -/
lemma unitBytes_encode (c : BitVec 16) : UnitBytes c (encodeJavaModifiedUtf8 c) := by
  unfold encodeJavaModifiedUtf8
  split_ifs with hzero hone htwo
  · subst hzero
    exact .two _ _ (by decide) (by decide)
  · obtain ⟨h6, h7, hc⟩ := one_byte hone
    exact .one _ h6 h7 hc
  · obtain ⟨h6, hc⟩ := two_bytes htwo
    exact .two _ _ h6 hc
  · obtain ⟨h7, hc⟩ := three_bytes c
    exact .three _ _ _ h7 hc

/-- The decoder gives back the unit and ends behind its bytes. -/
lemma decodeJavaModifiedUtf8Char_of_startsWith
    (hbytes : UnitBytes c bytes) (h : bytes <+: buffer.drop pos) :
    decodeJavaModifiedUtf8Char buffer pos = .ok (c, pos + bytes.length) := by
  obtain ⟨rest, hrest⟩ := h
  cases hbytes with
  | one _ h6 h7 hc =>
    rw [decodeJavaModifiedUtf8Char, byteAt_of_drop hrest.symm]
    simp only [bind, Except.bind, h6, h7, hc]
    rfl
  | two _ x h6 hc =>
    have hnext : buffer.drop (pos + 1) = x :: rest := by rw [← drop_drop, ← hrest]; rfl
    rw [decodeJavaModifiedUtf8Char, byteAt_of_drop hrest.symm, byteAt_of_drop hnext]
    simp only [bind, Except.bind, h6, hc]
    rfl
  | three _ y x h7 hc =>
    have hnext : buffer.drop (pos + 1) = y :: x :: rest := by rw [← drop_drop, ← hrest]; rfl
    have hlast : buffer.drop (pos + 2) = x :: rest := by rw [← drop_drop, ← hrest]; rfl
    rw [decodeJavaModifiedUtf8Char, byteAt_of_drop hrest.symm, byteAt_of_drop hnext,
      byteAt_of_drop hlast]
    simp only [bind, Except.bind, h7, hc]
    rfl

/-- Where the buffer ends inside of a unit, a byte behind its end is read. -/
lemma decodeJavaModifiedUtf8Char_of_cut (hbytes : UnitBytes c bytes) (hpos : 0 < n)
    (hlt : n < bytes.length) (h : buffer.drop pos = bytes.take n) :
    decodeJavaModifiedUtf8Char buffer pos = .error .outOfBounds := by
  cases hbytes with
  | one =>
    rw [length_singleton] at hlt
    omega
  | two _ _ h6 =>
    obtain rfl : n = 1 := by
      simp only [length_cons, length_nil] at hlt
      omega
    have hnext : buffer.drop (pos + 1) = [] := by rw [← drop_drop, h]; rfl
    rw [decodeJavaModifiedUtf8Char, byteAt_of_drop h, byteAt_of_drop_nil hnext]
    simp only [bind, Except.bind, h6, if_true]
  | three _ y _ h7 =>
    obtain rfl | rfl : n = 1 ∨ n = 2 := by
      simp only [length_cons, length_nil] at hlt
      omega
    · have hnext : buffer.drop (pos + 1) = [] := by rw [← drop_drop, h]; rfl
      rw [decodeJavaModifiedUtf8Char, byteAt_of_drop h, byteAt_of_drop_nil hnext]
      simp only [bind, Except.bind, h7]
      rfl
    · have hnext : buffer.drop (pos + 1) = [y] := by rw [← drop_drop, h]; rfl
      have hlast : buffer.drop (pos + 2) = [] := by rw [← drop_drop, h]; rfl
      rw [decodeJavaModifiedUtf8Char, byteAt_of_drop h, byteAt_of_drop hnext,
        byteAt_of_drop_nil hlast]
      simp only [bind, Except.bind, h7]
      rfl

/-- One turn of the decoder's loop. -/
lemma decode_turn (h : pos < stop) : decode buffer (turns + 1) pos stop =
      match decodeJavaModifiedUtf8Char buffer pos with
      | .error e => .error e
      | .ok (c, next) => (decode buffer turns next stop).map (c :: ·) := by
  rw [decode, if_pos h]
  cases decodeJavaModifiedUtf8Char buffer pos with
  | error | ok => rfl

lemma decode_eq_nil (h : stop ≤ pos) : decode buffer turns pos stop = .ok [] := by
  cases turns with
  | zero => rfl
  | succ =>
    rw [decode, if_neg (by omega)]
    rfl

/-- By induction on the units, each of which ends a turn. -/
lemma decode_of_startsWith (hturns : encodedLength units ≤ turns)
    (h : javaModifiedUtf8 units <+: buffer.drop pos) :
    decode buffer turns pos (pos + encodedLength units) = .ok units := by
  induction units generalizing turns pos with
  | nil => exact decode_eq_nil (le_refl _)
  | cons c units ih =>
    have hlen := length_encodeJavaModifiedUtf8 c
    rw [javaModifiedUtf8_cons] at h
    rw [encodedLength_cons] at hturns ⊢
    obtain ⟨rest, hrest⟩ := h
    obtain ⟨turns, rfl⟩ : ∃ t, turns = t + 1 := ⟨turns - 1, by omega⟩
    rw [decode_turn (by omega), decodeJavaModifiedUtf8Char_of_startsWith (unitBytes_encode c)
      ⟨javaModifiedUtf8 units ++ rest, by rw [← hrest, List.append_assoc]⟩]
    dsimp only
    rw [← add_assoc, ih (by omega) ⟨rest, ?_⟩]
    · rfl
    · rw [← List.drop_drop, ← hrest, List.append_assoc, List.drop_left]

/-- From an encoding that was cut at the end of the buffer, fewer units are decoded, or a byte
behind its end is read. -/
lemma decode_of_cut (turns : ℕ) {left : ℕ} (hturns : left ≤ turns)
    (hleft : left < encodedLength units)
    (h : buffer.drop pos = (javaModifiedUtf8 units).take left) :
    decode buffer turns pos (pos + left) = .error .outOfBounds ∨
      ∃ k, k < units.length ∧ decode buffer turns pos (pos + left) = .ok (units.take k) := by
  induction units generalizing turns pos left with
  | nil => exact absurd hleft (not_lt_zero _)
  | cons c units ih =>
    have hlen := length_encodeJavaModifiedUtf8 c
    rw [javaModifiedUtf8_cons, take_append] at h
    rw [encodedLength_cons] at hleft
    by_cases hzero : left = 0
    · refine .inr ⟨0, by simp, ?_⟩
      rw [hzero]
      exact decode_eq_nil (le_refl _)
    · obtain ⟨turns, rfl⟩ : ∃ t, turns = t + 1 := ⟨turns - 1, by omega⟩
      rw [decode_turn (by omega)]
      by_cases hfits : (encodeJavaModifiedUtf8 c).length ≤ left
      · rw [take_of_length_le hfits] at h
        rw [decodeJavaModifiedUtf8Char_of_startsWith (unitBytes_encode c) ⟨_, h.symm⟩]
        dsimp only
        have hdrop : buffer.drop (pos + (encodeJavaModifiedUtf8 c).length) =
            (javaModifiedUtf8 units).take (left - (encodeJavaModifiedUtf8 c).length) := by
          rw [← drop_drop, h, drop_left]
        have hstop : pos + left = pos + (encodeJavaModifiedUtf8 c).length +
            (left - (encodeJavaModifiedUtf8 c).length) := by omega
        rw [hstop]
        obtain hout | ⟨k, _, hok⟩ := ih turns (by omega) (by omega) hdrop
        · rw [hout]
          exact .inl rfl
        · rw [hok]
          exact .inr ⟨k + 1, by rw [length_cons]; omega, rfl⟩
      · have hnone : left - (encodeJavaModifiedUtf8 c).length = 0 := by omega
        rw [hnone, take_zero, append_nil] at h
        rw [decodeJavaModifiedUtf8Char_of_cut (unitBytes_encode c) (by omega) (by omega) h]
        exact .inl rfl

/-- The length, wide enough for the check. -/
lemma toNat_setWidth_length (hn : n ≤ 0xFFFF) : ((BitVec.ofNat 16 n).setWidth 64).toNat = n := by
  rw [toNat_setWidth, toNat_ofNat]
  omega

/-- After the length, `readJavaModifiedUtf8` decodes so many bytes and skips them. -/
lemma readJavaModifiedUtf8_run (hn : n ≤ 0xFFFF)
    (hs : Ahead s (bytesOfNat 2 n ++ bytes)) (hlen : bytes.length = n) :
    ∃ s₁, s₁.buffer = s.buffer ∧ s₁.offset.toNat = s.offset.toNat + 2 ∧
      readJavaModifiedUtf8.run s =
        match decode s₁.buffer n s₁.offset.toNat (s₁.offset.toNat + n) with
        | .error e => .error e s₁
        | .ok units => .ok units { s₁ with offset := s₁.offset + BitVec.ofNat 64 n } := by
  obtain ⟨s₁, hrun, hbuffer, hoffset⟩ := readInt16_consumes (v := n) (by omega) s hs.left
  rw [length_bytesOfNat] at hoffset
  refine ⟨s₁, hbuffer, hoffset, ?_⟩
  have hahead : Ahead s₁ bytes := hs.right hbuffer (by rw [length_bytesOfNat, hoffset])
  have hcheck : (checkBufferSize ((BitVec.ofNat 16 n).setWidth 64)).run s₁ = .ok () s₁ :=
    checkBufferSize_run hahead (by rw [toNat_setWidth_length hn, hlen])
  have hmod : (BitVec.ofNat 16 n).toNat = n := by
    rw [toNat_ofNat]
    omega
  have hwidth : (BitVec.ofNat 16 n).setWidth 64 = BitVec.ofNat 64 n := by
    rw [← toNat_inj, toNat_setWidth_length hn, toNat_ofNat]
    omega
  change (do
    let length ← readInt16
    checkBufferSize (length.setWidth 64)
    decodeUtf8 length).run s = _
  rw [run_bind_of_ok hrun, run_bind_of_ok hcheck, decodeUtf8, run_get_bind, hmod, hwidth]
  dsimp only
  cases decode s₁.buffer n s₁.offset.toNat (s₁.offset.toNat + n) with
  | error | ok => rfl

/-- A text that the 16-bit length can count is read back. -/
lemma readJavaModifiedUtf8_consumes (hlen : encodedLength units ≤ 0xFFFF) :
    Consumes readJavaModifiedUtf8 (javaModifiedUtf8Form units) units := by
  intro s hs
  rw [javaModifiedUtf8Form, min_eq_left hlen,
    take_of_length_le (by rw [length_javaModifiedUtf8])] at hs ⊢
  obtain ⟨s₁, hbuffer, hoffset, hrun⟩ :=
    readJavaModifiedUtf8_run hlen hs (length_javaModifiedUtf8 units)
  have hahead : Ahead s₁ (javaModifiedUtf8 units) :=
    hs.right hbuffer (by rw [length_bytesOfNat, hoffset])
  rw [decode_of_startsWith (le_refl _) hahead] at hrun
  refine ⟨_, hrun, hbuffer, ?_⟩
  have hle := hs.length_le
  have hlt := s.length_lt
  rw [length_append, length_bytesOfNat, length_javaModifiedUtf8] at hle ⊢
  change (s₁.offset + BitVec.ofNat 64 (encodedLength units)).toNat = _
  rw [toNat_add, toNat_ofNat]
  omega

/-- A string whose encoding was cut at the end of the buffer is not read back: units are
missing, or a byte behind the end of the buffer is read. -/
lemma readJavaModifiedUtf8_of_cut (hlen : 0xFFFF < encodedLength units)
    (hs : s.buffer.drop s.offset.toNat = javaModifiedUtf8Form units) :
    (∃ s', readJavaModifiedUtf8.run s = .error .outOfBounds s') ∨
      ∃ k s', k < units.length ∧ readJavaModifiedUtf8.run s = .ok (units.take k) s' := by
  rw [javaModifiedUtf8Form, min_eq_right hlen.le] at hs
  have htake : ((javaModifiedUtf8 units).take 0xFFFF).length = 0xFFFF := by
    rw [length_take, length_javaModifiedUtf8]
    omega
  obtain ⟨s₁, hbuffer, hoffset, hrun⟩ := readJavaModifiedUtf8_run (le_refl 0xFFFF)
    ⟨[], by rw [append_nil, hs]⟩ htake
  have hdrop : s₁.buffer.drop s₁.offset.toNat = (javaModifiedUtf8 units).take 0xFFFF := by
    rw [hbuffer, hoffset, ← drop_drop, hs, drop_left' length_bytesOfNat]
  obtain hout | ⟨k, hk, hok⟩ := decode_of_cut 0xFFFF (le_refl _) hlen hdrop
  · rw [hout] at hrun
    exact .inl ⟨_, hrun⟩
  · rw [hok] at hrun
    exact .inr ⟨k, _, hk, hrun⟩

end JavaModifiedUtf8

end DataInput

/-! ## The codec as such -/

namespace JavaModifiedUtf8

open DataInput

variable (units : List (BitVec 16))

/-- `JavaModifiedUtf8::encode`, onto the end of a string. -/
def encode (jmutf8 : List (BitVec 8)) (c : BitVec 16) : List (BitVec 8) :=
  if c = 0 then
    jmutf8 ++ [0xC0] ++ [0x80]
  else if c < 0x80 then
    jmutf8 ++ [c.setWidth 8]
  else if c < 0x800 then
    jmutf8 ++ [(0xC0 ||| c >>> 6).setWidth 8] ++ [(0x80 ||| (c &&& 0x3F)).setWidth 8]
  else
    jmutf8 ++ [(0xE0 ||| c >>> 12).setWidth 8] ++ [(0x80 ||| (c >>> 6 &&& 0x3F)).setWidth 8] ++
      [(0x80 ||| (c &&& 0x3F)).setWidth 8]

def fromString : List (BitVec 8) :=
  units.foldl encode []

/-- `JavaModifiedUtf8::decode`. The length is one of `uint16_t`. -/
def decode (buf : List (BitVec 8)) (len : BitVec 16) : Except ReadError (List (BitVec 16)) :=
  DataInput.decode buf len.toNat 0 len.toNat

lemma encode_eq (jmutf8 : List (BitVec 8)) (c : BitVec 16) :
    encode jmutf8 c = jmutf8 ++ encodeJavaModifiedUtf8 c := by
  unfold encode encodeJavaModifiedUtf8
  split_ifs <;> simp

/-- The loop of the encoder appends unit after unit. -/
lemma foldl_encode (jmutf8 : List (BitVec 8)) :
    units.foldl encode jmutf8 = jmutf8 ++ javaModifiedUtf8 units := by
  induction units generalizing jmutf8 with
  | nil => simp [javaModifiedUtf8]
  | cons _ _ ih => rw [foldl_cons, ih, encode_eq, javaModifiedUtf8_cons, List.append_assoc]

/-- Of the bytes of a unit, all but an only one have their highest bit, and that is not zero. -/
lemma zero_notMem_encode (c : BitVec 16) : 0 ∉ encodeJavaModifiedUtf8 c := by
  have hhigh : ∀ b : BitVec 8, b.getLsbD 7 = true → 0 ≠ b := by
    rintro b hb rfl
    cases hb
  unfold encodeJavaModifiedUtf8
  split_ifs with hzero hone htwo
  · decide
  · rw [mem_singleton]
    intro h
    have hc := (one_byte hone).2.2
    rw [← h] at hc
    exact hzero hc.symm
  · rw [mem_pair]
    exact fun h => h.elim (hhigh _ (by simp)) (hhigh _ (by simp))
  · rw [mem_cons, mem_pair]
    exact fun h => h.elim (hhigh _ (by simp)) fun h =>
      h.elim (hhigh _ (by simp)) (hhigh _ (by simp))

/-- Units are decoded from their encoding if its length is one of `uint16_t`; the length is
the one computed ahead, no byte is zero, and `DataOutput` writes the same bytes. -/
theorem codec :
    (encodedLength units ≤ 0xFFFF →
      decode (fromString units) (BitVec.ofNat 16 (fromString units).length) = .ok units) ∧
    (fromString units).length = encodedLength units ∧ 0 ∉ fromString units ∧
    (encodedLength units ≤ 0xFFFF → Appends (writeJavaModifiedUtf8 units)
      (bytesOfNat 2 (fromString units).length ++ fromString units)) := by
  have heq : fromString units = javaModifiedUtf8 units := foldl_encode units []
  rw [heq, length_javaModifiedUtf8]
  refine ⟨fun hlen => ?_, rfl, ?_, fun hlen s hs => ?_⟩
  · have hmod : (BitVec.ofNat 16 (encodedLength units)).toNat = encodedLength units := by
      rw [BitVec.toNat_ofNat]
      omega
    have h : DataInput.decode (javaModifiedUtf8 units) _ 0 _ = _ :=
      decode_of_startsWith (Nat.le_refl _) (prefix_refl _)
    rwa [Nat.zero_add, ← hmod] at h
  · rw [javaModifiedUtf8, mem_flatMap]
    exact fun ⟨c, _, hc⟩ => zero_notMem_encode c hc
  · have h : AppendsAt s (writeJavaModifiedUtf8 units) _ := writeJavaModifiedUtf8_appendsAt hs
      (Or.inl (by rw [stringOverrun, Nat.min_eq_left hlen, overrun_encodedLength]))
    rwa [javaModifiedUtf8Form, Nat.min_eq_left hlen, take_of_length_le (by simp)] at h

/-- A string of `2 ^ 16` characters is decoded as the empty one. -/
theorem not_decode_long : let units : List (BitVec 16) := List.replicate (2 ^ 16) 0x61
    decode (fromString units) (BitVec.ofNat 16 (fromString units).length) ≠ .ok units := by
  have hlen : ∀ n, encodedLength (List.replicate n 0x61) = n := by
    intro n
    induction n with
    | zero => rfl
    | succ _ ih => rw [List.replicate_succ, encodedLength, ih]; rfl
  dsimp only
  rw [show fromString _ = _ from foldl_encode _ [], nil_append, length_javaModifiedUtf8, hlen]
  intro h
  injection h with h
  have hnil := congrArg List.length h
  rw [length_replicate] at hnil
  cases hnil

end JavaModifiedUtf8

end GeodeNative
