import GeodeNative.Library.Runs
import GeodeNative.Serialization.ReaderRules

/-!
# Memory safety of `DataInput`

A method that begins with its cursor inside the buffer stays inside, with two
exceptions: the length of a UTF-16 string counts units and is checked as if it counted
bytes, and the decoder of modified UTF-8 reads the bytes that the first byte of a
character announces, also where they lie behind the end of the string. `Fits` says for
each call what its buffer and cursor must be like so that it reads no byte outside of
the buffer.
-/

namespace GeodeNative

open List BitVec Nat

namespace DataInput

variable {buffer : List (BitVec 8)} {s : DataInput} {pos n w : ℕ} {α : Type} {m : ReadM α}
  {Q : α → ℕ → Prop} {size : BitVec 64} {e : ReadError}

/-! ## Positions -/

/-- The cursor is at a position of the buffer, its end included. -/
structure At (buffer : List (BitVec 8)) (pos : ℕ) (s : DataInput) : Prop where
  buffer_eq : s.buffer = buffer
  offset_eq : s.offset.toNat = pos
  le : pos ≤ buffer.length

/-- The cursor is somewhere in the buffer. -/
def Within (buffer : List (BitVec 8)) (s : DataInput) : Prop :=
  ∃ pos, At buffer pos s

/-- A method threw an exception: it has read no byte outside, and the cursor is in the
buffer. -/
def Threw (buffer : List (BitVec 8)) (e : ReadError) (s : DataInput) : Prop :=
  e ≠ .outOfBounds ∧ Within buffer s

/-- From a position in the buffer a method returns a value and a position related by `Q`, or
it throws an exception. -/
def ReadsTo {α : Type} (buffer : List (BitVec 8)) (pos : ℕ) (m : ReadM α) (Q : α → ℕ → Prop) :
    Prop :=
  Meets (At buffer pos) m (fun a s => ∃ pos', At buffer pos' s ∧ Q a pos') (Threw buffer)

section Rules

variable {β : Type} {R : α → ℕ → Prop}

lemma At.within (h : At buffer pos s) : Within buffer s := ⟨pos, h⟩

lemma ReadsTo.pure {a : α} (h : Q a pos) : ReadsTo buffer pos (pure a) Q :=
  Meets.pure fun _ hs => ⟨pos, hs, h⟩

lemma ReadsTo.throw (h : e ≠ .outOfBounds) : ReadsTo buffer pos (throw e : ReadM α) Q :=
  Meets.throw fun _ hs => ⟨h, hs.within⟩

/-- The sequencing rule of the pre- and postconditions. -/
lemma ReadsTo.bind {f : α → ReadM β} {R : β → ℕ → Prop} (hm : ReadsTo buffer pos m Q)
    (hf : ∀ a pos', Q a pos' → ReadsTo buffer pos' (f a) R) : ReadsTo buffer pos (m >>= f) R :=
  Meets.bind hm fun a => Meets.exists fun pos' => Meets.assume fun hq => hf a pos' hq

lemma ReadsTo.get_bind {f : DataInput → ReadM α}
    (h : ∀ s, At buffer pos s → ReadsTo buffer pos (f s) Q) : ReadsTo buffer pos (get >>= f) Q :=
  fun s hs => h s hs s hs

lemma ReadsTo.set {t : DataInput} {pos' : ℕ} {Q : Unit → ℕ → Prop} (ht : At buffer pos' t)
    (hQ : Q () pos') : ReadsTo buffer pos (set t) Q :=
  fun _ _ => ⟨pos', ht, hQ⟩

/-- The rule of consequence. -/
lemma ReadsTo.mono (h : ReadsTo buffer pos m Q) (hQR : ∀ a pos', Q a pos' → R a pos') :
    ReadsTo buffer pos m R :=
  Meets.mono h (fun _ hs => hs) fun a _ ⟨pos', hs, hq⟩ => ⟨pos', hs, hQR a pos' hq⟩

/-- The loop rule, with the position and the turns left in the invariant. -/
lemma ReadsTo.times {I : ℕ → ℕ → Prop}
    (h : ∀ n pos, I (n + 1) pos → ReadsTo buffer pos m fun _ pos' => I n pos')
    (hI : I n pos) : ReadsTo buffer pos (times m n) fun _ pos' => I 0 pos' := by
  have hloop := Meets.times (m := m) (E := Threw buffer)
    (I := fun n s => ∃ pos, At buffer pos s ∧ I n pos)
    (fun n => Meets.exists fun pos => Meets.assume fun hpos => h n pos hpos) n
  exact Meets.mono hloop (fun s hs => ⟨pos, hs, hI⟩) fun _ _ hs => hs

end Rules

/-! ## The cursor -/

section Cursor

variable {len : BitVec 64}

/-- The unsigned subtraction of the check compares as the lengths do. -/
lemma At.lt_iff (hs : At buffer pos s) (size : BitVec 64) :
    s.bufferLength - s.offset < size ↔ buffer.length < pos + size.toNat := by
  obtain ⟨rfl, rfl, _⟩ := hs
  have hlt := s.length_lt
  rw [lt_def, toNat_sub, bufferLength, toNat_ofNat]
  omega

/-- Moving the cursor within the buffer does not wrap around. -/
lemma At.add (hs : At buffer pos s) {n : BitVec 64} (h : pos + n.toNat ≤ buffer.length) :
    At buffer (pos + n.toNat) { s with offset := s.offset + n } := by
  obtain ⟨rfl, rfl, _⟩ := hs
  have hlt := s.length_lt
  refine ⟨rfl, ?_, h⟩
  rw [toNat_add]
  omega

/-- The check passes exactly when so many bytes are left. -/
lemma checkBufferSize_readsTo :
    ReadsTo buffer pos (checkBufferSize size) fun _ pos' =>
      pos' = pos ∧ pos + size.toNat ≤ buffer.length := by
  refine ReadsTo.get_bind fun s hs => Meets.ite (fun _ => ReadsTo.throw (by decide)) fun hlong => ?_
  rw [hs.lt_iff size] at hlong
  exact ReadsTo.pure ⟨rfl, by omega⟩

/-- A byte that is there is read, and the cursor moves behind it. -/
lemma readNoCheck_readsTo (h : pos + 1 ≤ buffer.length) :
    ReadsTo buffer pos readNoCheck fun b pos' => pos' = pos + 1 ∧ buffer[pos]? = some b := by
  refine .get_bind fun s hs => ?_
  obtain ⟨b, hb⟩ : ∃ b, buffer[pos]? = some b := ⟨_, getElem?_eq_getElem h⟩
  have hbyte : s.buffer[s.offset.toNat]? = some b := by rw [hs.buffer_eq, hs.offset_eq, hb]
  rw [hbyte]
  exact (ReadsTo.set (hs.add (n := 1) h) rfl).bind fun _ _ hpos => ReadsTo.pure ⟨hpos, hb⟩

/-- The bytes that are there are copied. -/
lemma copyBytes_readsTo (h : pos + len.toNat ≤ buffer.length) :
    ReadsTo buffer pos (copyBytes len) fun _ pos' => pos' = pos + len.toNat := by
  refine .get_bind fun s hs => .ite (fun _ => ?_) fun hshort => ?_
  · exact (ReadsTo.set (hs.add h) rfl).bind fun _ _ hpos => ReadsTo.pure hpos
  · rw [hs.buffer_eq, hs.offset_eq] at hshort
    exact absurd h hshort

lemma advanceCursor_readsTo (h : pos + len.toNat ≤ buffer.length) :
    ReadsTo buffer pos (advanceCursor len) fun _ pos' => pos' = pos + len.toNat :=
  .get_bind fun _ hs => .set (hs.add h) rfl

end Cursor

/-! ## Numbers -/

def numberAt (buffer : List (BitVec 8)) (pos n : ℕ) : ℕ :=
  natOfBytes ((buffer.drop pos).take n)

/-- The bytes of a number are read from the highest on. -/
lemma readBigEndian_readsTo (acc : BitVec w) (h : pos + n ≤ buffer.length) :
    ReadsTo buffer pos (readBigEndian n acc) fun v pos' =>
      pos' = pos + n ∧ v = ((buffer.drop pos).take n).foldl pushByte acc := by
  induction n generalizing pos acc with
  | zero => exact .pure ⟨rfl, by simp⟩
  | succ _ ih =>
    refine (readNoCheck_readsTo (by omega)).bind ?_
    rintro b pos' ⟨rfl, hb⟩
    refine (ih (pushByte acc b) (by omega)).mono ?_
    rintro _ _ ⟨rfl, rfl⟩
    refine ⟨by omega, ?_⟩
    have hdrop : buffer.drop pos = b :: buffer.drop (pos + 1) := by
      rw [drop_eq_getElem?_toList_append, hb]
      rfl
    rw [hdrop, take_succ_cons, foldl_cons]

/-- A number that is wide enough for its bytes is read as it stands in the buffer. -/
lemma readBigEndian_zero_readsTo (hw : 8 * n ≤ w) (h : pos + n ≤ buffer.length) :
    ReadsTo buffer pos (readBigEndian n (0 : BitVec w)) fun v pos' =>
      pos' = pos + n ∧ v.toNat = numberAt buffer pos n := by
  refine (readBigEndian_readsTo 0 h).mono ?_
  rintro _ _ ⟨hpos, rfl⟩
  refine ⟨hpos, toNat_foldl_pushByte _ ?_⟩
  rw [length_take]
  omega

/-- After the check, what is checked for is there. -/
lemma checked_readsTo (h : pos + size.toNat ≤ buffer.length → ReadsTo buffer pos m Q) :
    ReadsTo buffer pos (do checkBufferSize size; m) Q := by
  refine checkBufferSize_readsTo.bind ?_
  rintro - _ ⟨rfl, hle⟩
  exact h hle

lemma read_readsTo :
    ReadsTo buffer pos read fun b pos' => pos' = pos + 1 ∧ b.toNat = numberAt buffer pos 1 := by
  refine checked_readsTo fun hle => (readNoCheck_readsTo hle).mono ?_
  rintro b _ ⟨rfl, hb⟩
  have hdrop : buffer.drop pos = b :: buffer.drop (pos + 1) := by
    rw [drop_eq_getElem?_toList_append, hb]
    rfl
  exact ⟨rfl, by simp [numberAt, hdrop, natOfBytes]⟩

lemma readInt16NoCheck_readsTo (h : pos + 2 ≤ buffer.length) :
    ReadsTo buffer pos readInt16NoCheck fun v pos' =>
      pos' = pos + 2 ∧ v.toNat = numberAt buffer pos 2 :=
  readBigEndian_zero_readsTo (by decide) h

lemma readInt16_readsTo :
    ReadsTo buffer pos readInt16 fun v pos' =>
      pos' = pos + 2 ∧ v.toNat = numberAt buffer pos 2 :=
  checked_readsTo fun hle => readInt16NoCheck_readsTo hle

lemma readInt32_readsTo :
    ReadsTo buffer pos readInt32 fun v pos' =>
      pos' = pos + 4 ∧ v.toNat = numberAt buffer pos 4 :=
  checked_readsTo fun hle => readBigEndian_zero_readsTo (by decide) hle

/-- The length of an array as it stands in the buffer, and the position behind it. -/
def arrayLengthAt (buffer : List (BitVec 8)) (pos : ℕ) : ℤ × ℕ :=
  let code := numberAt buffer pos 1
  if code = 0xFF then
    (-1, pos + 1)
  else if code = 0xFE then
    (numberAt buffer (pos + 1) 2, pos + 3)
  else if code = 0xFD then
    ((BitVec.ofNat 32 (numberAt buffer (pos + 1) 4)).toInt, pos + 5)
  else
    (code, pos + 1)

/-- The length and the cursor are those that the code of the length announces. -/
lemma readArrayLength_readsTo :
    ReadsTo buffer pos readArrayLength fun length pos' =>
      (length, pos') = arrayLengthAt buffer pos := by
  refine read_readsTo.bind ?_
  rintro _ pos' ⟨rfl, hcode⟩
  refine .ite (fun hff => ?_) fun hff =>
    .ite (fun _ => .ite (fun hfe => ?_) fun hfe => .ite (fun hfd => ?_) fun _ => ?_)
      fun hsmall => ?_
  · have hone : numberAt buffer pos 1 = 255 := hcode.symm.trans (congrArg BitVec.toNat hff)
    exact .pure (by simp [arrayLengthAt, hone])
  · have hone : numberAt buffer pos 1 = 254 := hcode.symm.trans (congrArg BitVec.toNat hfe)
    refine readInt16_readsTo.bind ?_
    rintro val pos' ⟨rfl, hval⟩
    exact .pure (by simp [arrayLengthAt, hone, hval])
  · have hone : numberAt buffer pos 1 = 253 := hcode.symm.trans (congrArg BitVec.toNat hfd)
    refine readInt32_readsTo.bind ?_
    rintro _ _ ⟨rfl, hval⟩
    exact .pure (by simp [arrayLengthAt, hone, ← hval])
  · exact ReadsTo.throw (by decide)
  · have hle : numberAt buffer pos 1 ≤ 252 := by omega
    have hne : numberAt buffer pos 1 ≠ 255 ∧ numberAt buffer pos 1 ≠ 254 ∧
        numberAt buffer pos 1 ≠ 253 := by omega
    exact .pure (by simp [arrayLengthAt, hne, hcode])

/-! ## Methods that are safe wherever the cursor is in the buffer -/

/-- Wherever it begins in the buffer, a method stays in the buffer or throws. -/
def Safe {α : Type} (m : ReadM α) : Prop :=
  ∀ buffer pos, ReadsTo buffer pos m fun _ _ => True

section Safe

variable {β : Type}

lemma ReadsTo.safe {Q : List (BitVec 8) → ℕ → α → ℕ → Prop}
    (h : ∀ buffer pos, ReadsTo buffer pos m (Q buffer pos)) : Safe m := fun buffer pos =>
  (h buffer pos).mono fun _ _ _ => trivial

/-- Safe methods compose, since every position is safe. -/
lemma Safe.bind {f : α → ReadM β} (hm : Safe m) (hf : ∀ a, Safe (f a)) : Safe (m >>= f) :=
  fun buffer pos => (hm buffer pos).bind fun a pos' _ => hf a buffer pos'

lemma safe_pure {a : α} : Safe (pure a : ReadM α) := fun _ _ => .pure trivial

/-- Every exception but the read behind the buffer is allowed. -/
lemma safe_throw (h : e ≠ .outOfBounds) : Safe (throw e : ReadM α) := fun _ _ =>
  .throw h

/-- The methods that check for the bytes they read are safe. -/
lemma safeRules : ReaderRules source source fun _ _ m => Safe m where
  pure _ := safe_pure
  bind := Safe.bind
  throw := safe_throw
  check _ := .safe fun _ _ => checkBufferSize_readsTo
  read := .safe fun _ _ => read_readsTo
  readBoolean _ _ := checked_readsTo fun hle =>
    (readNoCheck_readsTo hle).bind fun _ _ _ => .pure trivial
  number k hk _ _ := checked_readsTo fun hle =>
    (readBigEndian_readsTo 0 (by rwa [toNat_ofNat, Nat.mod_eq_of_lt hk] at hle)).mono
      fun _ _ _ => trivial
  copyBytes _ _ _ := checked_readsTo fun hle => (copyBytes_readsTo hle).mono fun _ _ _ => trivial

end Safe

/-! ## Strings -/

/-- The bytes that a character takes, as its first byte announces. -/
def utf8Length (b : BitVec 8) : ℕ :=
  if b >>> 5 = 6 then 2 else if b >>> 5 = 7 then 3 else 1

/-- Where the last character ends that begins before `stop`. -/
def utf8End (buffer : List (BitVec 8)) : ℕ → ℕ → ℕ → ℕ
  | 0, pos, _ => pos
  | turns + 1, pos, stop =>
    if pos < stop then utf8End buffer turns (pos + utf8Length (buffer.getD pos 0)) stop else pos

/-- A modified UTF-8 string whose length is at `pos` and whose bytes are all in the buffer
ends with a character that is in the buffer. -/
def Utf8Fits (buffer : List (BitVec 8)) (pos : ℕ) : Prop :=
  let length := numberAt buffer pos 2
  pos + 2 + length ≤ buffer.length →
    utf8End buffer length (pos + 2) (pos + 2 + length) ≤ buffer.length

/-- A UTF-16 string whose length is at `pos` has its units in the buffer, if there are as many
bytes as units. -/
def Utf16Fits (buffer : List (BitVec 8)) (pos : ℕ) : Prop :=
  let length := numberAt buffer pos 4
  pos + 4 + length ≤ buffer.length → pos + 4 + 2 * length ≤ buffer.length

/-- What a string whose code is at `pos` must be like. -/
def StringFits (buffer : List (BitVec 8)) (pos : ℕ) : Prop :=
  (numberAt buffer pos 1 = 42 → Utf8Fits buffer (pos + 1)) ∧
    (numberAt buffer pos 1 = 89 → Utf16Fits buffer (pos + 1))

/-- The position behind a string whose code is at `pos`. -/
def stringEnd (buffer : List (BitVec 8)) (pos : ℕ) : ℕ :=
  let code := numberAt buffer pos 1
  if code = 42 then pos + 3 + numberAt buffer (pos + 1) 2
  else if code = 89 then pos + 5 + 2 * numberAt buffer (pos + 1) 4
  else if code = 87 then pos + 3 + numberAt buffer (pos + 1) 2
  else if code = 88 then pos + 5 + numberAt buffer (pos + 1) 4
  else pos + 1

/-- What `n` strings, one behind the other, must be like. -/
def StringsFit (buffer : List (BitVec 8)) : ℕ → ℕ → Prop
  | 0, _ => True
  | n + 1, pos => StringFits buffer pos ∧ StringsFit buffer n (stringEnd buffer pos)

section Strings

variable {conversion : Conversion}

lemma le_utf8End {turns stop : ℕ} : pos ≤ utf8End buffer turns pos stop := by
  induction turns generalizing pos with
  | zero => exact le_rfl
  | succ _ ih =>
    rw [utf8End]
    split
    · exact (le_add_right _ _).trans ih
    · exact le_rfl

/-- A character whose bytes are there is decoded. -/
lemma decodeChar_of_le (h : pos + utf8Length (buffer.getD pos 0) ≤ buffer.length) :
    ∃ c, decodeJavaModifiedUtf8Char buffer pos = .ok (c, pos + utf8Length (buffer.getD pos 0)) := by
  have hbyte : ∀ i, i < buffer.length → byteAt buffer i = .ok (buffer.getD i 0) := by
    intro _ hi
    simp [byteAt, hi]
  have hpos : 0 < utf8Length (buffer.getD pos 0) := by
    unfold utf8Length
    split
    · decide
    · split <;> decide
  generalize hb : buffer.getD pos 0 = b at h hpos
  unfold decodeJavaModifiedUtf8Char
  rw [hbyte pos (by omega), hb]
  by_cases h6 : b >>> 5 = 6
  · have hlen : utf8Length b = 2 := if_pos h6
    rw [hlen] at h ⊢
    simp only [bind, Except.bind, if_pos h6, hbyte (pos + 1) (by omega)]
    exact ⟨_, rfl⟩
  · by_cases h7 : b >>> 5 = 7
    · have hlen : utf8Length b = 3 := (if_neg h6).trans (if_pos h7)
      rw [hlen] at h ⊢
      simp only [bind, Except.bind, if_neg h6, if_pos h7, hbyte (pos + 1) (by omega),
        hbyte (pos + 2) (by omega)]
      exact ⟨_, rfl⟩
    · have hlen : utf8Length b = 1 := (if_neg h6).trans (if_neg h7)
      rw [hlen]
      simp only [bind, Except.bind, if_neg h6, if_neg h7]
      exact ⟨_, rfl⟩

/-- The decoder reads up to the end of the last character. -/
lemma decode_of_le {turns stop : ℕ} (h : utf8End buffer turns pos stop ≤ buffer.length) :
    ∃ units, decode buffer turns pos stop = .ok units := by
  induction turns generalizing pos with
  | zero => exact ⟨[], rfl⟩
  | succ _ ih =>
    rw [decode]
    rw [utf8End] at h
    by_cases hlt : pos < stop
    · rw [if_pos hlt] at h ⊢
      obtain ⟨_, hc⟩ := decodeChar_of_le (le_utf8End.trans h)
      obtain ⟨_, hunits⟩ := ih h
      rw [hc]
      simp only [bind, Except.bind, hunits]
      exact ⟨_, rfl⟩
    · rw [if_neg hlt]
      exact ⟨[], rfl⟩

/-- The cursor moves by the length in the stream, not by what was decoded. -/
lemma readJavaModifiedUtf8_readsTo (hfits : Utf8Fits buffer pos) :
    ReadsTo buffer pos readJavaModifiedUtf8 fun _ pos' =>
      pos' = pos + 2 + numberAt buffer pos 2 := by
  refine readInt16_readsTo.bind ?_
  rintro length _ ⟨rfl, hlength⟩
  have hwide : (length.setWidth 64).toNat = numberAt buffer pos 2 := by
    rw [toNat_setWidth, ← hlength]
    exact mod_eq_of_lt (length.isLt.trans (by decide))
  refine checked_readsTo fun hle => ?_
  rw [hwide] at hle
  obtain ⟨_, hunits⟩ := decode_of_le (hfits hle)
  refine .get_bind fun s hs => ?_
  rw [hs.buffer_eq, hs.offset_eq, hlength]
  dsimp only
  rw [hunits]
  have hadvance := advanceCursor_readsTo (by rwa [hwide])
  rw [hwide] at hadvance
  exact hadvance.bind fun _ _ hpos => .pure hpos

lemma toNat_setWidth_of_le {v : BitVec w} (hw : w ≤ 64) : (v.setWidth 64).toNat = v.toNat := by
  rw [toNat_setWidth]
  exact Nat.mod_eq_of_lt (v.isLt.trans_le (Nat.pow_le_pow_right (by decide) hw))

/-- Reading `n` items of one size without a check needs them all in the buffer. -/
lemma times_readsTo {k : ℕ}
    (hm : ∀ pos, pos + k ≤ buffer.length → ReadsTo buffer pos m fun _ pos' => pos' = pos + k)
    (h : pos + k * n ≤ buffer.length) :
    ReadsTo buffer pos (times m n) fun _ pos' => pos' = pos + k * n := by
  refine (ReadsTo.times (I := fun left p => p + k * left = pos + k * n) ?_ rfl).mono
    fun _ _ hpos => by simpa using hpos
  intro _ p hp
  rw [Nat.mul_succ] at hp
  refine (hm p (by omega)).mono ?_
  rintro - p' rfl
  omega

/-- A UTF-16 string takes two bytes for each unit of its length. -/
lemma readUtf16Huge_readsTo (hfits : Utf16Fits buffer pos) :
    ReadsTo buffer pos readUtf16Huge fun _ pos' =>
      pos' = pos + 4 + 2 * numberAt buffer pos 4 := by
  refine readInt32_readsTo.bind ?_
  rintro _ _ ⟨rfl, hlength⟩
  refine checked_readsTo fun hle => ?_
  rw [toNat_setWidth_of_le (by decide), hlength] at hle
  rw [hlength]
  exact times_readsTo (fun p hp => (readInt16NoCheck_readsTo hp).mono fun _ _ h => h.1) (hfits hle)

/-- An ASCII string takes as many bytes as it checks for. -/
lemma readAsciiOf_readsTo (length : BitVec 64) :
    ReadsTo buffer pos (source.readAsciiOf length) fun _ pos' => pos' = pos + length.toNat := by
  refine checked_readsTo fun hle => ?_
  refine (times_readsTo (k := 1) (fun p hp => ?_) (by simpa using hle)).mono fun _ _ h => by
    simpa using h
  exact (readNoCheck_readsTo hp).bind fun _ _ h => .pure h.1

/-- The conversion reads nothing. -/
lemma convert_readsTo {units : List (BitVec 16)} :
    ReadsTo buffer pos (convert conversion units) fun _ pos' => pos' = pos := by
  unfold convert
  split
  · exact .throw (by decide)
  · exact .pure rfl

lemma readUTF_readsTo (hfits : Utf8Fits buffer pos) :
    ReadsTo buffer pos (readUTF conversion) fun _ pos' =>
      pos' = pos + 2 + numberAt buffer pos 2 := by
  refine (readJavaModifiedUtf8_readsTo hfits).bind ?_
  rintro units pos' rfl
  exact convert_readsTo

/-- A string that fits ends where its form ends. -/
lemma readString_readsTo (hfits : StringFits buffer pos) :
    ReadsTo buffer pos (readString conversion) fun _ pos' => pos' = stringEnd buffer pos := by
  refine read_readsTo.bind ?_
  rintro type pos' ⟨rfl, htype⟩
  have hcode : ∀ v : BitVec 8, type = v ↔ numberAt buffer pos 1 = v.toNat := by
    intro _
    rw [← htype, toNat_inj]
  refine .ite (fun h42 => ?_) fun h42 => .ite (fun h89 => ?_) fun h89 =>
    .ite (fun h87 => ?_) fun h87 => .ite (fun h88 => ?_) fun h88 => ?_
  · rw [hcode] at h42
    refine (readUTF_readsTo (hfits.1 h42)).mono ?_
    rintro - pos' rfl
    simp [stringEnd, h42]
  · rw [hcode] at h89
    refine (readUtf16Huge_readsTo (hfits.2 h89)).bind fun units pos' hpos => ?_
    subst hpos
    refine convert_readsTo.mono ?_
    rintro - pos' rfl
    simp [stringEnd, h89]
  · rw [hcode] at h87
    refine readInt16_readsTo.bind ?_
    rintro _ _ ⟨rfl, hlength⟩
    refine (readAsciiOf_readsTo _).mono ?_
    rintro - pos' rfl
    simp [stringEnd, h87, ← hlength]
    omega
  · rw [hcode] at h88
    refine readInt32_readsTo.bind ?_
    rintro _ _ ⟨rfl, hlength⟩
    refine (readAsciiOf_readsTo _).mono ?_
    rintro - pos' rfl
    simp [stringEnd, h88, ← hlength]
    omega
  · have hne : numberAt buffer pos 1 ≠ 42 ∧ numberAt buffer pos 1 ≠ 89 ∧
        numberAt buffer pos 1 ≠ 87 ∧ numberAt buffer pos 1 ≠ 88 :=
      ⟨mt (hcode 42).mpr h42, mt (hcode 89).mpr h89, mt (hcode 87).mpr h87, mt (hcode 88).mpr h88⟩
    exact ReadsTo.pure (by simp [stringEnd, hne])

/-- Each string of an array fits at the end of the one before it. -/
lemma readStringArray_readsTo
    (hfits : StringsFit buffer (arrayLengthAt buffer pos).1.toNat (arrayLengthAt buffer pos).2) :
    ReadsTo buffer pos (readStringArray conversion) fun _ _ => True := by
  refine readArrayLength_readsTo.bind ?_
  intro _ _ hlen
  refine Meets.ite (fun _ => ?_) fun _ => ReadsTo.pure trivial
  rw [← hlen] at hfits
  refine (ReadsTo.times (I := StringsFit buffer) (fun n p hp => ?_) hfits).mono fun _ _ _ => trivial
  refine (readString_readsTo hp.1).mono ?_
  rintro - p' rfl
  exact hp.2

end Strings

/-! ## Longer buffers -/

/-- A method that throws for want of bytes. -/
def Scarce (e : ReadError) : Prop :=
  e = .outOfRange ∨ e = .outOfBounds

/-- On a buffer that goes on behind the end a method ends in the same way, unless it throws for
want of bytes. -/
def Continues {α : Type} (m : ReadM α) : Prop :=
  ∀ buffer s t, Within buffer s → buffer <+: t.buffer → t.offset = s.offset →
    match m.run s with
    | .ok a u => Within buffer u ∧ m.run t = .ok a { t with offset := u.offset }
    | .error e u => Scarce e ∨ m.run t = .error e { t with offset := u.offset }

section Continues

variable {β : Type} {buffer' : List (BitVec 8)}

/-- The second reader finds what the first one finds; the first one can only miss a byte. -/
def Finds (x y : Except ReadError α) : Prop :=
  match x with
  | .ok a => y = .ok a
  | .error e => e = .outOfBounds

/-- What is found is used in the same way. -/
lemma Finds.bind {x y : Except ReadError α} {f g : α → Except ReadError β} (h : Finds x y)
    (hf : ∀ a, Finds (f a) (g a)) : Finds (x >>= f) (y >>= g) := by
  cases x with
  | ok a =>
    obtain rfl : y = .ok a := h
    exact hf a
  | error => exact h

/-- A byte is found in a longer buffer as well. -/
lemma finds_byteAt (h : buffer <+: buffer') : Finds (byteAt buffer pos) (byteAt buffer' pos) := by
  unfold byteAt
  cases hb : buffer[pos]? with
  | none => exact rfl
  | some b =>
    have hb' : buffer'[pos]? = some b := by
      rw [List.getElem?_eq_some_iff] at hb ⊢
      exact ⟨hb.1.trans_le h.length_le, (h.getElem hb.1).symm.trans hb.2⟩
    rw [hb']
    exact rfl

/-- So is a character. -/
lemma finds_decodeChar (h : buffer <+: buffer') (pos : ℕ) :
    Finds (decodeJavaModifiedUtf8Char buffer pos) (decodeJavaModifiedUtf8Char buffer' pos) := by
  refine (finds_byteAt h).bind fun b => ?_
  split
  · exact (finds_byteAt h).bind fun x => rfl
  · split
    · exact (finds_byteAt h).bind fun y => (finds_byteAt h).bind fun x => rfl
    · exact rfl

/-- So are the units of a string. -/
lemma finds_decode (h : buffer <+: buffer') (turns pos stop : ℕ) :
    Finds (decode buffer turns pos stop) (decode buffer' turns pos stop) := by
  induction turns generalizing pos with
  | zero => exact rfl
  | succ _ ih =>
    rw [decode, decode]
    split
    · exact (finds_decodeChar h pos).bind fun res => (ih res.2).bind fun units => rfl
    · exact rfl

lemma continues_pure {a : α} : Continues (pure a : ReadM α) := fun _ _ _ hs _ hoffset =>
  ⟨hs, by rw [← hoffset]; rfl⟩

lemma continues_throw : Continues (throw e : ReadM α) := fun _ _ _ _ _ hoffset =>
  .inr (by rw [← hoffset]; rfl)

/-- What follows goes on from the same position in both buffers. -/
lemma Continues.bind {f : α → ReadM β} (hm : Continues m) (hf : ∀ a, Continues (f a)) :
    Continues (m >>= f) := by
  intro buffer s t hs hbuffer hoffset
  have hout := hm buffer s t hs hbuffer hoffset
  cases hrun : m.run s with
  | ok a u =>
    rw [hrun] at hout
    have hnext := hf a buffer u { t with offset := u.offset } hout.1 hbuffer rfl
    rw [run_bind_of_ok hrun, run_bind_of_ok hout.2]
    exact hnext
  | error =>
    rw [hrun] at hout
    rw [run_bind_of_error hrun]
    exact hout.imp_right run_bind_of_error

/-- A check that passes also passes in a longer buffer. -/
lemma continues_checkBufferSize : Continues (checkBufferSize size) := by
  rintro buffer s t ⟨pos, hs⟩ hbuffer hoffset
  have ht : At t.buffer pos t :=
    ⟨rfl, hoffset ▸ hs.offset_eq, hs.le.trans hbuffer.length_le⟩
  have hcheck := hs.lt_iff size
  have hcheck' := ht.lt_iff size
  have hle := hbuffer.length_le
  unfold checkBufferSize
  rw [run_get_bind, run_get_bind]
  by_cases hshort : s.bufferLength - s.offset < size
  · rw [if_pos hshort]
    exact .inl (.inl rfl)
  · rw [if_neg hshort, if_neg fun h => hshort (hcheck.mpr ((hcheck'.mp h).trans_le' hle))]
    exact ⟨⟨pos, hs⟩, by rw [← hoffset]; rfl⟩

/-- A byte that is in the buffer is at the same place in a longer one. -/
lemma continues_readNoCheck : Continues readNoCheck := by
  rintro _ s t ⟨_, rfl, rfl, hle⟩ hbuffer hoffset
  unfold readNoCheck
  rw [run_get_bind, run_get_bind, hoffset]
  cases hb : s.buffer[s.offset.toNat]? with
  | none => exact .inl (.inr rfl)
  | some b =>
    obtain ⟨hlt, hget⟩ := List.getElem?_eq_some_iff.mp hb
    have hb' : t.buffer[s.offset.toNat]? = some b := by
      rw [List.getElem?_eq_getElem (hlt.trans_le hbuffer.length_le), ← hbuffer.getElem hlt, hget]
    rw [hb']
    exact ⟨⟨_, At.add ⟨rfl, rfl, hle⟩ (n := 1) hlt⟩, rfl⟩

/-- By induction on the bytes of the number. -/
lemma continues_readBigEndian (acc : BitVec w) : Continues (readBigEndian n acc) := by
  induction n generalizing acc with
  | zero => exact continues_pure
  | succ _ ih => exact continues_readNoCheck.bind fun _ => ih _

lemma continues_copyBytes {len : BitVec 64} : Continues (copyBytes len) := by
  rintro _ s t ⟨_, rfl, rfl, hle⟩ ⟨more, hbuffer⟩ hoffset
  unfold copyBytes
  rw [run_get_bind, run_get_bind, hoffset]
  by_cases hlen : s.offset.toNat + len.toNat ≤ s.buffer.length
  · have hlen' : s.offset.toNat + len.toNat ≤ t.buffer.length := by
      rw [← hbuffer, length_append]
      omega
    have htake : (t.buffer.drop s.offset.toNat).take len.toNat =
        (s.buffer.drop s.offset.toNat).take len.toNat := by
      rw [← hbuffer, drop_append_of_le_length (by omega),
        take_append_of_le_length (by rw [length_drop]; omega)]
    rw [if_pos hlen, if_pos hlen', htake]
    exact ⟨⟨_, At.add ⟨rfl, rfl, hle⟩ hlen⟩, rfl⟩
  · rw [if_neg hlen]
    exact .inl (.inr rfl)

/-- The decoder stays in the bytes that were checked, or misses one. -/
lemma continues_checked_decodeUtf8 (length : BitVec 16) :
    Continues (do checkBufferSize (length.setWidth 64); decodeUtf8 length) := by
  intro buffer s t hs hbuffer hoffset
  have hcheck : Continues (checkBufferSize (length.setWidth 64)) := continues_checkBufferSize
  have hout := hcheck buffer s t hs hbuffer hoffset
  obtain ⟨pos, hs⟩ := hs
  have hreads : ReadsTo buffer pos (checkBufferSize (length.setWidth 64)) _ :=
    checkBufferSize_readsTo
  have hread := hreads s hs
  cases hrun : (checkBufferSize (length.setWidth 64)).run s with
  | error =>
    rw [hrun] at hout
    rw [run_bind_of_error hrun]
    exact hout.imp_right run_bind_of_error
  | ok _ u =>
    rw [hrun] at hout hread
    obtain ⟨pos', hu, hpos, hle⟩ := hread
    rw [hpos] at hu
    rw [run_bind_of_ok hrun, run_bind_of_ok hout.2]
    unfold decodeUtf8
    rw [run_get_bind, run_get_bind]
    have hfinds := finds_decode hbuffer length.toNat pos (pos + length.toNat)
    dsimp only
    rw [hu.offset_eq, hu.buffer_eq]
    cases hdecode : decode buffer length.toNat pos (pos + length.toNat) with
    | error =>
      rw [hdecode] at hfinds
      exact .inl (.inr hfinds)
    | ok units =>
      rw [hdecode] at hfinds
      rw [show decode t.buffer length.toNat pos (pos + length.toNat) = .ok units from hfinds]
      exact ⟨⟨_, hu.add hle⟩, rfl⟩

lemma continues_convert {conversion : Conversion} {units : List (BitVec 16)} :
    Continues (convert conversion units) := by
  unfold convert
  split
  · exact continues_throw
  · exact continues_pure

/-- The checked methods end in the same way on a longer buffer. -/
lemma continuesRules : ReaderRules source source fun _ _ m => Continues m where
  pure _ := continues_pure
  bind := Continues.bind
  throw _ := continues_throw
  check _ := continues_checkBufferSize
  read := continues_checkBufferSize.bind fun _ => continues_readNoCheck
  readBoolean := continues_checkBufferSize.bind fun _ =>
    continues_readNoCheck.bind fun _ => continues_pure
  number _ _ := continues_checkBufferSize.bind fun _ => continues_readBigEndian 0
  copyBytes _ := continues_checkBufferSize.bind fun _ => continues_copyBytes

lemma Continues.ite {c : Prop} [Decidable c] {m' : ReadM α} (hm : Continues m)
    (hm' : Continues m') : Continues (if c then m else m') := by
  split_ifs
  · exact hm
  · exact hm'

lemma Continues.times (hm : Continues m) (count : ℕ) : Continues (times m count) :=
  continuesRules.times (m := m) hm count

lemma continues_readUTF {conversion : Conversion} : Continues (readUTF conversion) :=
  (continuesRules.readInt16.bind fun length => continues_checked_decodeUtf8 length).bind fun _ =>
    continues_convert

lemma continues_readAsciiOf (length : BitVec 64) : Continues (source.readAsciiOf length) :=
  continues_checkBufferSize.bind fun _ =>
    (continues_readNoCheck.bind fun _ => continues_pure).times _

/-- Every form of a string, since each begins with a check. -/
lemma continues_readString {conversion : Conversion} : Continues (readString conversion) :=
  continuesRules.read.bind fun _ => continues_readUTF.ite <| .ite
    ((continuesRules.readInt32.bind fun _ => continues_checkBufferSize.bind fun _ =>
      (continues_readBigEndian 0).times _).bind fun _ => continues_convert) <|
    .ite (continuesRules.readInt16.bind fun _ => continues_readAsciiOf _) <|
    .ite (continuesRules.readInt32.bind fun _ => continues_readAsciiOf _) continues_pure

/-- Every call that reads ends in the same way on a longer buffer, unless bytes are wanting. -/
lemma continues_method {c : ReadCall} (hc : c.movesCursor = false) : Continues c.method := by
  suffices hcall : Continues (source.call c) from hcall.bind fun _ => continues_pure
  cases hstring : c.readsString with
  | false => exact continuesRules.call hc hstring
  | true =>
    cases c with
    | readUTF => exact continues_readUTF.bind fun _ => continues_pure
    | readString => exact continues_readString.bind fun _ => continues_pure
    | readStringArray =>
      exact (continuesRules.readArrayLength.bind fun _ =>
        (continues_readString.times _).ite continues_pure).bind fun _ => continues_pure
    | _ => cases hstring

end Continues

/-! ## Runs -/

section Runs

variable {c : ReadCall}

/-- A call reads no byte outside of the buffer: it returns with its cursor in the buffer, or it
throws. If more bytes behind the buffer could make a difference, then it throws
`OutOfRangeException`. -/
def ReadsInside (s : DataInput) (c : ReadCall) : Prop :=
  match c.method.run s with
  | .ok _ s' => c.movesCursor = true ∨ s'.offset.toNat ≤ s.buffer.length
  | .error e _ => e ≠ .outOfBounds ∧ (e = .outOfRange ∨
      ∀ t : DataInput, s.buffer <+: t.buffer → t.offset = s.offset →
        ∃ u, c.method.run t = .error e u)

/-- What the buffer and the cursor must be like before a call: the cursor of a reading call is
in the buffer, and the strings that it reads fit. -/
def Fits (s : DataInput) : ReadCall → Prop
  | .advanceCursor _ | .rewindCursor _ | .reset _ => True
  | .readUTF _ =>
    s.offset.toNat ≤ s.buffer.length ∧ Utf8Fits s.buffer s.offset.toNat
  | .readString _ =>
    s.offset.toNat ≤ s.buffer.length ∧ StringFits s.buffer s.offset.toNat
  | .readStringArray _ =>
    s.offset.toNat ≤ s.buffer.length ∧
      let (length, start) := arrayLengthAt s.buffer s.offset.toNat
      StringsFit s.buffer length.toNat start
  | _ => s.offset.toNat ≤ s.buffer.length

/-- A cursor in the buffer is at its offset. -/
lemma at_offset (h : s.offset.toNat ≤ s.buffer.length) : At s.buffer s.offset.toNat s :=
  ⟨rfl, rfl, h⟩

/-- A method that stays in the buffer reads inside. -/
lemma readsInside_of_readsTo (h : s.offset.toNat ≤ s.buffer.length) {Q : Unit → ℕ → Prop}
    (hc : ReadsTo s.buffer s.offset.toNat c.method Q) (hreads : c.movesCursor = false) :
    ReadsInside s c := by
  have hout := hc s (at_offset h)
  have hmore := continues_method hreads s.buffer s
  unfold ReadsInside
  split
  · next hrun =>
    rw [hrun] at hout
    obtain ⟨_, hat, -⟩ := hout
    exact .inr (hat.offset_eq ▸ hat.le)
  · next hrun =>
    rw [hrun] at hout
    refine ⟨hout.1, or_iff_not_imp_left.mpr fun hne t hbuffer hoffset => ?_⟩
    have hsame := hmore t (at_offset h).within hbuffer hoffset
    rw [hrun] at hsame
    exact ⟨_, hsame.resolve_left (not_or_intro hne hout.1)⟩

/-- A call that makes a value of what a method returns, and drops it. -/
lemma ReadsTo.discard {β : Type} {f : α → β} (h : ReadsTo buffer pos m Q) :
    ReadsTo buffer pos (discard (do return f (← m))) fun _ _ => True :=
  (h.bind fun _ _ _ => .pure trivial).bind fun _ _ (_ : True) => .pure trivial

/-- A call of a reader whose strings fit reads inside. -/
lemma readsInside_of_fits (h : Fits s c) : ReadsInside s c := by
  cases hmoves : c.movesCursor with
  | true =>
    cases c with
    | advanceCursor | rewindCursor | reset => exact .inl rfl
    | _ => cases hmoves
  | false =>
    cases hstring : c.readsString with
    | true =>
      cases c with
      | readUTF => exact readsInside_of_readsTo h.1 (readUTF_readsTo h.2).discard rfl
      | readString => exact readsInside_of_readsTo h.1 (readString_readsTo h.2).discard rfl
      | readStringArray =>
        exact readsInside_of_readsTo h.1 (readStringArray_readsTo h.2).discard rfl
      | _ => cases hstring
    | false =>
      have hsafe : Safe c.method := (safeRules.call hmoves hstring).bind fun _ => safe_pure
      have hoffset : s.offset.toNat ≤ s.buffer.length := by
        cases c with
        | readUTF | readString | readStringArray => cases hstring
        | advanceCursor | rewindCursor | reset => cases hmoves
        | _ => exact h
      exact readsInside_of_readsTo hoffset (hsafe _ _) hmoves

/-- **Memory safety.** In every sequence of calls, each of which begins with its cursor in
the buffer if it reads and finds strings that fit, no call reads a byte outside of the
buffer: each throws, or returns with its cursor in the buffer. -/
theorem readsInside_of_everyStep_fits (s : DataInput) (calls : List ReadCall)
    (h : EveryStep step Fits s calls) : EveryStep step ReadsInside s calls :=
  everyStep_of_invariant (I := fun _ => True) (fun _ _ _ _ => trivial)
    (fun _ _ _ hfits => readsInside_of_fits hfits) trivial h

/-- The string `A`, read into 16-bit units, which need no conversion. -/
theorem readString_reads_inside :
    EveryStep step ReadsInside ⟨[42, 0, 1, 65], by decide, 0⟩
      [.readString fun units => some (units.map BitVec.toNat)] := by
  refine readsInside_of_everyStep_fits _ _ ⟨⟨by decide, fun _ => ?_, fun h => ?_⟩, trivial⟩
  · unfold Utf8Fits
    decide
  · exact absurd h (by decide)

/-- Three readers that leave the buffer: a UTF-16 string of one unit with one byte left, a
modified UTF-8 string that ends with the first byte of a character of three, and a read after
the cursor was moved behind the end. -/
theorem reads_outside :
    (¬ EveryStep step ReadsInside ⟨[89, 0, 0, 0, 1, 0], by decide, 0⟩
        [.readString fun units => some (units.map BitVec.toNat)]) ∧
      (¬ EveryStep step ReadsInside ⟨[42, 0, 1, 0xE0], by decide, 0⟩
        [.readString fun units => some (units.map BitVec.toNat)]) ∧
      ¬ EveryStep step ReadsInside ⟨[], by decide, 0⟩ [.advanceCursor 1, .read] := by
  refine ⟨fun h => ?_, fun h => ?_, fun h => ?_⟩
  · exact absurd rfl h.1.1
  · exact absurd rfl h.1.1
  · exact absurd rfl h.2.1.1

end Runs

end DataInput

end GeodeNative
