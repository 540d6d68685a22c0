import GeodeNative.Serialization.DataOutput

/-!
# What the methods of `DataOutput` append

An output is sound if its cursor is in its buffer. From a sound output each method
appends the bytes of its argument and leaves a sound output, or the allocator refuses
less than three times the bytes that would have been there then.

The exception is modified UTF-8: the encoding is cut after `0xFFFF` bytes, and the unit
at the cut is written as a whole before the cursor goes back. The capacity that was
asked for does not cover the bytes of this unit behind the cut, its `overrun`.
-/

namespace GeodeNative

open List BitVec Nat

namespace DataOutput

variable {s s' : DataOutput} {units : List (BitVec 16)} {bytes : List (BitVec 8)} {n : ℕ}

/-! ## Appending -/

/-- The cursor is in the buffer, its end included. -/
structure Sound (s : DataOutput) : Prop where
  allocated : s.allocated = true
  low_le : 8192 ≤ s.size.toNat
  size_lt : s.size.toNat < 2 ^ 62
  offset_le : s.offset.toNat ≤ s.size.toNat

structure Grown (s s' : DataOutput) (bytes : List (BitVec 8)) : Prop where
  sound : Sound s'
  allocator_eq : s'.allocator = s.allocator
  size_le : s.size.toNat ≤ s'.size.toNat
  written_eq : s'.written = s.written ++ bytes

/-- The allocator refuses less than `3 * n` bytes. -/
def Refuses (s : DataOutput) (n : ℕ) : Prop :=
  ∃ size, s.allocator.grants size = false ∧ size.toNat < 3 * n

/-- From the output `s` a method appends `bytes`, or there is no memory. -/
def AppendsAt (s : DataOutput) (m : WriteM Unit) (bytes : List (BitVec 8)) : Prop :=
  match m.run s with
  | .ok _ s' => Grown s s' bytes
  | .error e s' =>
    e = .outOfMemory ∧ s'.allocated = false ∧ s.Refuses (s.offset.toNat + bytes.length)

/-- From every sound output a method appends `bytes`, or there is no memory. -/
def Appends (m : WriteM Unit) (bytes : List (BitVec 8)) : Prop :=
  ∀ s, Sound s → AppendsAt s m bytes

section Rules

variable {s'' : DataOutput} {m : WriteM Unit} {f : Unit → WriteM Unit} {bytes' : List (BitVec 8)}

@[simp] lemma length_written (s : DataOutput) : s.written.length = s.offset.toNat := by
  simp [written]

lemma Grown.offset_eq (h : Grown s s' bytes) : s'.offset.toNat = s.offset.toNat + bytes.length := by
  have hlen := congrArg length h.written_eq
  rwa [length_append, length_written, length_written] at hlen

lemma Grown.refl (h : Sound s) : Grown s s [] := ⟨h, rfl, le_refl _, by simp⟩

/-- Appended bytes follow each other. -/
lemma Grown.trans (h : Grown s s' bytes) (h' : Grown s' s'' bytes') :
    Grown s s'' (bytes ++ bytes') where
  __ := h'
  allocator_eq := h'.allocator_eq.trans h.allocator_eq
  size_le := h.size_le.trans h'.size_le
  written_eq := by rw [h'.written_eq, h.written_eq, List.append_assoc]

/-- An allocator that refuses some bytes refuses more. -/
lemma Refuses.mono {n' : ℕ} (h : s.Refuses n) (hle : n ≤ n') : s.Refuses n' :=
  h.imp fun _ hsize => ⟨hsize.1, by omega⟩

/-- A method that ends well appends what it has written. -/
lemma AppendsAt.of_run (hrun : m.run s = .ok () s') (h : Grown s s' bytes) :
    AppendsAt s m bytes := by
  rw [AppendsAt, hrun]
  exact h

lemma AppendsAt.pure (h : Sound s) : AppendsAt s (pure ()) [] := .refl h

lemma Appends.pure : Appends (pure ()) [] := fun _ h => .pure h

/-- The sequencing rule: the second method begins behind the first's bytes. -/
lemma AppendsAt.bind (hm : AppendsAt s m bytes)
    (hf : ∀ s', Grown s s' bytes → AppendsAt s' (f ()) bytes') :
    AppendsAt s (m >>= f) (bytes ++ bytes') := by
  unfold AppendsAt at hm ⊢
  cases h : m.run s with
  | error =>
    rw [h] at hm
    rw [run_bind_of_error h]
    exact ⟨hm.1, hm.2.1, hm.2.2.mono (by simp)⟩
  | ok a s' =>
    rw [h] at hm
    rw [run_bind_of_ok h]
    have hnext := hf s' hm
    unfold AppendsAt at hnext
    cases h' : (f a).run s' with
    | ok =>
      rw [h'] at hnext
      exact hm.trans hnext
    | error =>
      rw [h'] at hnext
      obtain ⟨he, hnull, size, hsize, hlt⟩ := hnext
      rw [hm.allocator_eq] at hsize
      rw [hm.offset_eq] at hlt
      refine ⟨he, hnull, size, hsize, ?_⟩
      rw [length_append]
      omega

/-- The sequencing rule for methods that append from every state. -/
lemma Appends.bind (hm : Appends m bytes) (hf : Appends (f ()) bytes') :
    Appends (m >>= f) (bytes ++ bytes') :=
  fun s hs => (hm s hs).bind fun s' hgrown => hf s' hgrown.sound

end Rules

/-! ## The buffer -/

section Buffer

variable {size : BitVec 64}

/-- The buffer grows only when its rest is too small. -/
lemma run_ensureCapacity (s : DataOutput) (size : BitVec 64) : (ensureCapacity size).run s =
      if s.size - s.offset < size then
        if s.allocator.grants (s.size * 2 + 8192 * (size / 8192)) then
          .ok () { s with
            size := s.size * 2 + 8192 * (size / 8192)
            haveBigBuffer := s.haveBigBuffer ||
              decide (highWaterMark ≤ s.size * 2 + 8192 * (size / 8192))
            allocated := true }
        else
          .error .outOfMemory { s with
            size := s.size * 2 + 8192 * (size / 8192)
            haveBigBuffer := s.haveBigBuffer ||
              decide (highWaterMark ≤ s.size * 2 + 8192 * (size / 8192))
            allocated := false
            offset := if s.allocated then s.allocator.address + s.offset else s.offset }
      else
        .ok () s := by
  rw [ensureCapacity, run_get_bind]
  by_cases hfull : s.size - s.offset < size
  · rw [if_pos hfull, if_pos hfull]
    by_cases hgrants : s.allocator.grants (s.size * 2 + 8192 * (size / 8192)) = true
    · simp only [hgrants]
      rfl
    · simp only [hgrants]
      rfl
  · rw [if_neg hfull, if_neg hfull]
    rfl

/-- Writing at the cursor extends what is written by one byte. -/
lemma map_range_succ_update (memory : ℕ → BitVec 8) (n : ℕ) (b : BitVec 8) :
    (range (n + 1)).map (Function.update memory n b) = (range n).map memory ++ [b] := by
  rw [range_succ, map_append, map_singleton, Function.update_self]
  congr 1
  refine map_congr_left fun i hi => Function.update_of_ne ?_ _ _
  exact Nat.ne_of_lt (List.mem_range.mp hi)

variable (hs : Sound s)

include hs

/-- In a sound output the unsigned subtraction does not wrap. -/
lemma Sound.lt_iff (size : BitVec 64) :
    s.size - s.offset < size ↔ s.size.toNat < s.offset.toNat + size.toNat := by
  have hle := hs.offset_le
  rw [lt_def, toNat_sub]
  omega

section

variable (hsize : size.toNat < 2 ^ 63)

include hsize

/-- The size after growing, which does not overflow. -/
lemma Sound.toNat_newSize :
    (s.size * 2 + 8192 * (size / 8192)).toNat = s.size.toNat * 2 + 8192 * (size.toNat / 8192) := by
  have hlt := hs.size_lt
  have hmul : (8192 * (size / 8192)).toNat = 8192 * (size.toNat / 8192) := by
    exact mod_eq_of_lt (by
      change 8192 * (size.toNat / 8192) < 2 ^ 64
      omega)
  have hdouble : (s.size * 2).toNat = s.size.toNat * 2 := by
    exact mod_eq_of_lt (by
      change s.size.toNat * 2 < 2 ^ 64
      omega)
  rw [toNat_add, hmul, hdouble]
  exact mod_eq_of_lt (by omega)

/-- What `ensureCapacity` promises: the room that was asked for. -/
lemma ensureCapacity_cases :
    (∃ s', (ensureCapacity size).run s = .ok () s' ∧ Grown s s' [] ∧
      s.offset.toNat + size.toNat ≤ s'.size.toNat) ∨
    ∃ s', (ensureCapacity size).run s = .error .outOfMemory s' ∧ s'.allocated = false ∧
      s.Refuses (s.offset.toNat + size.toNat) := by
  have hshort := hs.lt_iff size
  have hnew := hs.toNat_newSize hsize
  have hoffset := hs.offset_le
  have hlow := hs.low_le
  rw [run_ensureCapacity]
  by_cases hfull : s.size - s.offset < size
  · have hfull' := hshort.mp hfull
    rw [if_pos hfull]
    by_cases hgrants : s.allocator.grants (s.size * 2 + 8192 * (size / 8192)) = true
    · rw [if_pos hgrants]
      refine .inl ⟨_, rfl, ⟨⟨rfl, ?_, s.allocator.grants_lt hgrants, ?_⟩, rfl, ?_, ?_⟩, ?_⟩
      all_goals first | (dsimp only; omega) | simp [written]
    · rw [if_neg hgrants]
      exact .inr ⟨_, rfl, rfl, _, eq_false_of_ne_true hgrants, by omega⟩
  · rw [if_neg hfull]
    exact .inl ⟨s, rfl, .refl hs, by rw [hshort] at hfull; omega⟩

/-- A method that asks for capacity first may rely on the room. -/
lemma AppendsAt.ensureCapacity_bind {m : Unit → WriteM Unit} (hle : size.toNat ≤ bytes.length)
    (h : ∀ s', Grown s s' [] → s'.offset.toNat + size.toNat ≤ s'.size.toNat →
      AppendsAt s' (m ()) bytes) :
    AppendsAt s (ensureCapacity size >>= m) bytes := by
  obtain ⟨s', hrun, hgrown, _⟩ | ⟨s', hrun, hnull, hrefuses⟩ := ensureCapacity_cases hs hsize
  · have hoffset : s'.offset.toNat = s.offset.toNat := hgrown.offset_eq
    have hnext := h s' hgrown (by omega)
    unfold AppendsAt at hnext ⊢
    rw [run_bind_of_ok hrun]
    split at hnext
    · exact hgrown.trans hnext
    · obtain ⟨he, hnull, size, hsize, _⟩ := hnext
      rw [hgrown.allocator_eq] at hsize
      exact ⟨he, hnull, size, hsize, by omega⟩
  · unfold AppendsAt
    rw [run_bind_of_error hrun]
    exact ⟨rfl, hnull, hrefuses.mono (by omega)⟩

end

/-- With room for it, a byte is written and the size is kept. -/
lemma writeNoCheck_run {b : BitVec 8} (hroom : s.offset.toNat < s.size.toNat) :
    ∃ s', (writeNoCheck b).run s = .ok () s' ∧ Grown s s' [b] ∧ s'.size = s.size := by
  have hlt := hs.size_lt
  have hin : s.allocated = true ∧ s.offset < s.size := ⟨hs.allocated, hroom⟩
  have hnext : (s.offset + 1).toNat = s.offset.toNat + 1 := by
    exact mod_eq_of_lt (by
      change s.offset.toNat + 1 < 2 ^ 64
      omega)
  refine ⟨{ s with memory := Function.update s.memory s.offset.toNat b, offset := s.offset + 1 },
    ?_, ⟨⟨hs.allocated, hs.low_le, hlt, ?_⟩, rfl, le_refl _, ?_⟩, rfl⟩
  · rw [writeNoCheck, run_get_bind, if_pos hin]
    rfl
  · dsimp only
    omega
  · simp only [written]
    rw [hnext, map_range_succ_update]

/-- Where there is room, bytes are written without fail. -/
lemma writeAll_run (bytes : List (BitVec 8))
    (hroom : s.offset.toNat + bytes.length ≤ s.size.toNat) :
    ∃ s', (writeAll bytes).run s = .ok () s' ∧ Grown s s' bytes ∧ s'.size = s.size := by
  induction bytes generalizing s with
  | nil => exact ⟨s, rfl, .refl hs, rfl⟩
  | cons _ _ ih =>
    rw [length_cons] at hroom
    obtain ⟨_, hrun, hgrown, hsize⟩ := writeNoCheck_run hs (by omega)
    have hoffset := hgrown.offset_eq
    rw [length_singleton] at hoffset
    obtain ⟨s'', hrest, hgrown', hsize'⟩ := ih hgrown.sound (by rw [hsize]; omega)
    exact ⟨s'', by rw [writeAll, run_bind_of_ok hrun, hrest], hgrown.trans hgrown',
      hsize'.trans hsize⟩

/-- With room for all of them, the bytes are written. -/
lemma writeAll_appendsAt
    (hroom : s.offset.toNat + bytes.length ≤ s.size.toNat) : AppendsAt s (writeAll bytes)
    bytes := by
  obtain ⟨_, hrun, hgrown, -⟩ := writeAll_run hs bytes hroom
  exact .of_run hrun hgrown

end Buffer

/-! ## Numbers and bytes -/

/-- `write` makes room for its byte. -/
lemma write_appends (value : BitVec 8) : Appends (write value) [value] := by
  intro _ hs
  refine .ensureCapacity_bind hs (by decide) (le_refl 1) fun s' hgrown hroom => ?_
  obtain ⟨_, hrun, hgrown, -⟩ := writeNoCheck_run (b := value) hgrown.sound hroom
  exact .of_run hrun hgrown

/-- A number makes room for all its bytes at once. -/
lemma writeBigEndian_appends (hn : n < 2 ^ 63) (value : ℕ) :
    Appends (writeBigEndian n value) (bytesOfNat n value) := fun s hs => by
  have hmod : (BitVec.ofNat 64 n).toNat = n := by
    exact mod_eq_of_lt (by omega)
  refine .ensureCapacity_bind hs (by omega) (by rw [hmod, length_bytesOfNat]) ?_
  intro _ hgrown _
  exact writeAll_appendsAt hgrown.sound (by rwa [length_bytesOfNat, ← hmod])

lemma writeInt16_appends (value : BitVec 16) :
    Appends (writeInt16 value) (bytesOfNat 2 value.toNat) :=
  writeBigEndian_appends (by decide) _

lemma writeInt32_appends (value : BitVec 32) :
    Appends (writeInt32 value) (bytesOfNat 4 value.toNat) :=
  writeBigEndian_appends (by decide) _

lemma writeInt64_appends {value : BitVec 64} :
    Appends (writeInt64 value) (bytesOfNat 8 value.toNat) :=
  writeBigEndian_appends (by decide) _

def arrayLenBytes (len : BitVec 32) : List (BitVec 8) :=
  if len.toInt = -1 then [0xFF]
  else if len.toInt ≤ 252 then [len.setWidth 8]
  else if len.toInt ≤ 0xFFFF then [0xFE] ++ bytesOfNat 2 (len.setWidth 16).toNat
  else [0xFD] ++ bytesOfNat 4 len.toNat

/-- A length takes at most five bytes. -/
lemma length_arrayLenBytes_le (len : BitVec 32) : (arrayLenBytes len).length ≤ 5 := by
  unfold arrayLenBytes
  split_ifs <;> simp

/-- Each of the four forms of a length. -/
lemma writeArrayLen_appends {len : BitVec 32} : Appends (writeArrayLen len) (arrayLenBytes len)
    := by
  unfold writeArrayLen arrayLenBytes
  split_ifs
  · exact write_appends _
  · exact write_appends _
  · exact (write_appends _).bind (writeInt16_appends _)
  · exact (write_appends _).bind (writeInt32_appends _)

/-- Bytes are appended as they are. -/
lemma writeBytesOnly_appends (hlen : bytes.length < 2 ^ 63) :
    Appends (writeBytesOnly bytes) bytes := fun s hs => by
  have hmod : (BitVec.ofNat 64 bytes.length).toNat = bytes.length := by
    exact mod_eq_of_lt (by omega)
  refine .ensureCapacity_bind hs (by omega) (by omega) fun s' hgrown hroom => ?_
  exact writeAll_appendsAt hgrown.sound (by omega)

/-! ## Modified UTF-8 -/

/-- The whole encoding of a string. -/
def javaModifiedUtf8 (units : List (BitVec 16)) : List (BitVec 8) :=
  units.flatMap encodeJavaModifiedUtf8

@[simp] lemma javaModifiedUtf8_cons (c : BitVec 16) (units : List (BitVec 16)) :
    javaModifiedUtf8 (c :: units) = encodeJavaModifiedUtf8 c ++ javaModifiedUtf8 units := rfl

/-- The length that is computed ahead is the one of the encoding. -/
@[simp] lemma length_javaModifiedUtf8 (units : List (BitVec 16)) :
    (javaModifiedUtf8 units).length = encodedLength units := by
  induction units with
  | nil => rfl
  | cons =>
    rw [javaModifiedUtf8_cons, encodedLength, encodeJavaModifiedUtf8]
    split_ifs <;> simp <;> omega

lemma encodedLength_cons (c : BitVec 16) (units : List (BitVec 16)) :
    encodedLength (c :: units) = (encodeJavaModifiedUtf8 c).length + encodedLength units := by
  rw [← length_javaModifiedUtf8, javaModifiedUtf8_cons, length_append, length_javaModifiedUtf8]

/-- A unit takes one to three bytes. -/
lemma length_encodeJavaModifiedUtf8 (c : BitVec 16) :
    1 ≤ (encodeJavaModifiedUtf8 c).length ∧ (encodeJavaModifiedUtf8 c).length ≤ 3 := by
  unfold encodeJavaModifiedUtf8
  split_ifs <;> simp

/-- How many bytes the loop writes behind its end. -/
def overrun : List (BitVec 16) → ℕ → ℕ
  | _, 0 => 0
  | [], _ + 1 => 0
  | c :: units, left + 1 =>
    if (encodeJavaModifiedUtf8 c).length ≤ left + 1 then
      overrun units (left + 1 - (encodeJavaModifiedUtf8 c).length)
    else
      (encodeJavaModifiedUtf8 c).length - (left + 1)

/-- At most two bytes of the last unit are behind the limit. -/
lemma overrun_le (units : List (BitVec 16)) (left : ℕ) : overrun units left ≤ 2 := by
  induction units generalizing left with
  | nil => cases left <;> simp [overrun]
  | cons c _ ih =>
    cases left with
    | zero => simp [overrun]
    | succ =>
      have hlen := length_encodeJavaModifiedUtf8 c
      rw [overrun]
      split
      · exact ih _
      · omega

/-- An encoding that is not cut has no unit behind its end. -/
lemma overrun_encodedLength (units : List (BitVec 16)) : overrun units (encodedLength units)
    = 0 := by
  induction units with
  | nil => rfl
  | cons c units ih =>
    have hpos := length_encodeJavaModifiedUtf8 c
    rw [encodedLength_cons]
    obtain ⟨left, hleft⟩ : ∃ left, (encodeJavaModifiedUtf8 c).length + encodedLength units =
        left + 1 :=
      ⟨_, (succ_pred_eq_of_pos (by omega)).symm⟩
    rw [hleft, overrun, if_pos (by omega), ← hleft, Nat.add_sub_cancel_left, ih]

/-- Rewinding drops the last bytes. -/
lemma rewindCursor_run (hgrown : Grown s s' bytes) (hn : n ≤ bytes.length) :
    ∃ s'', (rewindCursor (BitVec.ofNat 64 n)).run s' = .ok () s'' ∧
      Grown s s'' (bytes.take (bytes.length - n)) := by
  have hoffset := hgrown.offset_eq
  have hle := hgrown.sound.offset_le
  have hlt := hgrown.sound.size_lt
  have hback : (s'.offset - BitVec.ofNat 64 n).toNat = s.offset.toNat + (bytes.length - n) := by
    rw [toNat_sub, toNat_ofNat]
    omega
  refine ⟨{ s' with offset := s'.offset - BitVec.ofNat 64 n }, rfl,
    ⟨hgrown.sound.allocated, hgrown.sound.low_le, hlt, ?_⟩, hgrown.allocator_eq, hgrown.size_le, ?_⟩
  · dsimp only
    omega
  · have htake : s'.written.take (s.offset.toNat + (bytes.length - n)) =
        s.written ++ bytes.take (bytes.length - n) := by
      rw [hgrown.written_eq, ← length_written, take_length_add_append]
    rw [← htake, written, written, hback, ← map_take, take_range]
    congr 2
    omega

/-- The loop writes the encoding up to its end, if there is room for the last unit. -/
lemma encodeLoop_appendsAt (hs : Sound s) {left : ℕ} (hleft : left ≤ encodedLength units)
    (hroom : s.offset.toNat + left + overrun units left ≤ s.size.toNat) :
    AppendsAt s (encodeLoop units left) ((javaModifiedUtf8 units).take left) := by
  induction units generalizing s left with
  | nil =>
    obtain rfl : left = 0 := le_zero.mp hleft
    exact .pure hs
  | cons c _ ih =>
    cases left with
    | zero => exact .pure hs
    | succ left =>
      rw [encodedLength_cons] at hleft
      rw [overrun] at hroom
      rw [encodeLoop, javaModifiedUtf8_cons, take_append]
      by_cases hfits : (encodeJavaModifiedUtf8 c).length ≤ left + 1
      · rw [if_pos hfits] at hroom
        rw [take_of_length_le hfits]
        refine (writeAll_appendsAt hs (by omega)).bind fun s' hgrown => ?_
        have hoffset := hgrown.offset_eq
        have hsize := hgrown.size_le
        rw [if_pos hfits]
        exact ih hgrown.sound (by omega) (by omega)
      · rw [if_neg hfits] at hroom
        have hover : left + 1 - (encodeJavaModifiedUtf8 c).length = 0 := by omega
        rw [hover, take_zero, append_nil]
        obtain ⟨_, hrun, hwrite, -⟩ := writeAll_run hs (encodeJavaModifiedUtf8 c) (by omega)
        obtain ⟨_, hback, hgrown⟩ := rewindCursor_run hwrite
          (n := (encodeJavaModifiedUtf8 c).length - (left + 1)) (by omega)
        have hcut : (encodeJavaModifiedUtf8 c).length -
            ((encodeJavaModifiedUtf8 c).length - (left + 1)) = left + 1 := by omega
        rw [hcut] at hgrown
        exact .of_run (by rw [run_bind_of_ok hrun, if_neg hfits, hback]) hgrown

/-- The bytes of a string: the length of the encoding, cut at `0xFFFF`, and so much of it. -/
def javaModifiedUtf8Form (units : List (BitVec 16)) : List (BitVec 8) :=
  bytesOfNat 2 (min (encodedLength units) 0xFFFF) ++
    (javaModifiedUtf8 units).take (min (encodedLength units) 0xFFFF)

/-- How many bytes behind its end the encoding of a string reaches. -/
def stringOverrun (units : List (BitVec 16)) : ℕ :=
  overrun units (min (encodedLength units) 0xFFFF)

/-- A string is appended if the cut is between two units, or if there is room for the whole
unit. -/
lemma writeJavaModifiedUtf8_appendsAt (hs : Sound s)
    (h : stringOverrun units = 0 ∨ s.offset.toNat + 0xFFFF + 4 ≤ s.size.toNat) :
    AppendsAt s (writeJavaModifiedUtf8 units) (javaModifiedUtf8Form units) := by
  unfold writeJavaModifiedUtf8 javaModifiedUtf8Form
  by_cases hempty : units.length = 0
  · obtain rfl := length_eq_zero_iff.mp hempty
    exact writeInt16_appends 0 s hs
  · rw [if_neg hempty]
    have hover := overrun_le units (min (encodedLength units) 0xFFFF)
    have hlen : ((javaModifiedUtf8 units).take (min (encodedLength units) 0xFFFF)).length =
        min (encodedLength units) 0xFFFF := by
      rw [length_take, length_javaModifiedUtf8]
      omega
    have hcode : (BitVec.ofNat 16 (min (encodedLength units) 0xFFFF)).toNat =
        min (encodedLength units) 0xFFFF := by
      rw [toNat_ofNat]
      omega
    have hsize : (BitVec.ofNat 64 (min (encodedLength units) 0xFFFF)).toNat =
        min (encodedLength units) 0xFFFF := by
      rw [toNat_ofNat]
      omega
    have hlength := writeInt16_appends (BitVec.ofNat 16 (min (encodedLength units) 0xFFFF)) s hs
    rw [hcode] at hlength
    refine hlength.bind fun s₁ hgrown => ?_
    have hoffset₁ := hgrown.offset_eq
    have hsize₁ := hgrown.size_le
    rw [length_bytesOfNat] at hoffset₁
    refine .ensureCapacity_bind hgrown.sound (by omega) (by omega) fun s₂ hgrown₂ hroom => ?_
    have hoffset₂ := hgrown₂.offset_eq
    have hsize₂ := hgrown₂.size_le
    rw [length_nil] at hoffset₂
    unfold stringOverrun at h
    exact encodeLoop_appendsAt hgrown₂.sound (min_le_left _ _) (by omega)

/-! ## ASCII and UTF-16 -/

section Strings

variable {value : List ℕ}

/-- The bytes of the units of an ASCII string. -/
def asciiBytes (value : List ℕ) : List (BitVec 8) :=
  value.map fun c => BitVec.ofNat 8 c &&& 0x7F

@[simp] lemma length_asciiBytes (value : List ℕ) : (asciiBytes value).length = value.length :=
  length_map _

/-- Each character is cut to its lowest seven bits. -/
lemma writeSevenBits_appends (value : List ℕ) : Appends (writeSevenBits value) (asciiBytes value)
    := by
  induction value with
  | nil => exact .pure
  | cons _ _ ih => exact (write_appends _).bind ih

/-- The bytes of an ASCII string: its length in `n` bytes, cut at `limit`, and so much of it. -/
def asciiForm (n limit : ℕ) (value : List ℕ) : List (BitVec 8) :=
  bytesOfNat n (min value.length limit) ++ asciiBytes (value.take (min value.length limit))

/-- The text is cut to what a 16-bit length can count. -/
lemma writeAscii_appends : Appends (writeAscii value) (asciiForm 2 0xFFFF value) := by
  have hlen : (BitVec.ofNat 16 (min value.length 0xFFFF)).toNat = min value.length 0xFFFF := by
    rw [toNat_ofNat]
    omega
  have hlength := writeInt16_appends (BitVec.ofNat 16 (min value.length 0xFFFF))
  rw [hlen] at hlength
  exact hlength.bind (writeSevenBits_appends _)

/-- The text is cut to what a 32-bit length can count. -/
lemma writeAsciiHuge_appends (value : List ℕ) :
    Appends (writeAsciiHuge value) (asciiForm 4 0xFFFFFFFF value) := by
  have hlen : (BitVec.ofNat 32 (min value.length 0xFFFFFFFF)).toNat =
      min value.length 0xFFFFFFFF := by
    rw [toNat_ofNat]
    omega
  have hlength := writeInt32_appends (BitVec.ofNat 32 (min value.length 0xFFFFFFFF))
  rw [hlen] at hlength
  exact hlength.bind (writeSevenBits_appends _)

@[simp] lemma length_utf16Bytes (units : List (BitVec 16)) :
    (utf16Bytes units).length = units.length * 2 := by
  induction units with
  | nil => rfl
  | cons c units =>
    have hcons : utf16Bytes (c :: units) = bytesOfNat 2 c.toNat ++ utf16Bytes units := rfl
    rw [hcons, length_append, length_bytesOfNat, length_cons]
    omega

/-- Each unit is written from its high byte on. -/
lemma writeUtf16_appends (hlen : units.length < 2 ^ 62) :
    Appends (writeUtf16 units) (utf16Bytes units) := fun s hs => by
  have hmod : (BitVec.ofNat 64 (units.length * 2)).toNat = units.length * 2 := by
    rw [toNat_ofNat]
    omega
  refine .ensureCapacity_bind hs (by omega) ?_ fun s' hgrown hroom => ?_
  · rw [hmod, length_utf16Bytes]
  · exact writeAll_appendsAt hgrown.sound (by rw [length_utf16Bytes]; omega)

/-- The bytes of a string in UTF-16: its length, cut at `0xFFFFFFFF`, and all of its units. -/
def utf16HugeForm (units : List (BitVec 16)) : List (BitVec 8) :=
  bytesOfNat 4 (min units.length 0xFFFFFFFF) ++ utf16Bytes units

/-- The length counts units, not bytes. -/
lemma writeUtf16Huge_appends (hlen : units.length < 2 ^ 62) :
    Appends (writeUtf16Huge units) (utf16HugeForm units) := by
  have hmod : (BitVec.ofNat 32 (min units.length 0xFFFFFFFF)).toNat =
      min units.length 0xFFFFFFFF := by
    rw [toNat_ofNat]
    omega
  have hlength := writeInt32_appends (BitVec.ofNat 32 (min units.length 0xFFFFFFFF))
  rw [hmod] at hlength
  exact hlength.bind (writeUtf16_appends hlen)

/-- A converted string lies in memory, too. -/
lemma length_toUtf16 {codecvt : Codecvt} {ty : CharType}
    (h : toUtf16 codecvt ty value = some units) : units.length ≤ 2 * value.length := by
  cases ty with
  | char =>
    have hle := codecvt.length_utf16OfUtf8 h
    omega
  | char16 =>
    obtain rfl := Option.some.inj h
    rw [length_map]
    omega
  | char32 | wchar => exact codecvt.length_utf16OfUcs4 h

end Strings

end DataOutput

end GeodeNative
