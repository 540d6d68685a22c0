import GeodeNative.Serialization.StringRoundTrip

/-!
# Byte arrays one after another

A byte array is its length, in one, three or five bytes, and then its bytes.  It is written
with `writeArrayLen` and `writeBytesOnly`, or with `writeBytes`.  A length is read from its code
whatever follows, so that no code begins another.  `writeBytes` asks for `len + 5` bytes, a sum
of `int32_t`, which the five greatest lengths overflow.
-/

namespace GeodeNative

open DataOutput DataInput

/-- A byte array that may be absent, of a length that `int32_t` holds. -/
structure NullableBytes where
  bytes : Option (List (BitVec 8))
  length_lt : ∀ b ∈ bytes, b.length < 2 ^ 31

namespace NullableBytes

variable {a : NullableBytes} {arrays : List NullableBytes} {len len' : BitVec 32} {n : BitVec 64}
  {bytes bytes' : List (BitVec 8)} {m : WriteM Unit} {f : Unit → WriteM Unit}

/-- The length that is written, `-1` for an absent array. -/
def length (a : NullableBytes) : BitVec 32 :=
  a.bytes.elim (-1) fun b => BitVec.ofNat 32 b.length

/-- With `writeArrayLen` and `writeBytesOnly`. -/
def writeInParts (a : NullableBytes) : WriteM Unit := do
  writeArrayLen a.length
  a.bytes.elim (pure ()) writeBytesOnly

/-- With `writeBytes`. -/
def writeWhole (a : NullableBytes) : WriteM Unit :=
  writeBytes (a.bytes.map fun b i => b.getD i 0) a.length

/-- With `readArrayLength` and `readBytesOnly`. -/
def readInParts : ReadM (Option (List (BitVec 8))) := do
  let length ← readArrayLength
  if length < 0 then
    return none
  else
    let bytes ← readBytesOnly (BitVec.ofInt 64 length)
    return some bytes

/-- With `readBytes`, which gives out the length too: it tells an absent array from an empty
one. -/
def readWhole : ReadM (Option (List (BitVec 8))) := do
  let length ← readArrayLength
  if length > 0 then
    checkBufferSize (BitVec.ofInt 64 length)
    let bytes ← copyBytes (BitVec.ofInt 64 length)
    return some bytes
  else
    return if length < 0 then none else some []

/-- The bytes that stand for an array. -/
def frame (a : NullableBytes) : List (BitVec 8) :=
  arrayLenBytes a.length ++ a.bytes.getD []

/-- A method appends `bytes` to every sound output that has memory for them. -/
def Frames (m : WriteM Unit) (bytes : List (BitVec 8)) : Prop :=
  ∀ o : DataOutput, o.Sound → ¬ o.Refuses (o.offset.toNat + bytes.length + 5) →
    ∃ o', m.run o = .ok () o' ∧ Grown o o' bytes

/-- Every array is written as its frame, all of them as their frames one after another, and
from these the arrays are read back, which takes all of the bytes. -/
structure ReadBack (write : NullableBytes → WriteM Unit) (read : ReadM (Option (List (BitVec 8))))
    (arrays : List NullableBytes) : Prop where
  each : ∀ a ∈ arrays, Frames (write a) a.frame
  all : Frames (arrays.forM write) (arrays.flatMap frame)
  reads : Consumes (times read arrays.length) (arrays.flatMap frame) (arrays.map (·.bytes))

/-- Arrays are read back as they were written, either way, and no code of a length begins
another. -/
structure Framed (arrays : List NullableBytes) : Prop where
  inParts : ReadBack writeInParts readInParts arrays
  whole : ReadBack writeWhole readWhole arrays
  prefixFree : ∀ len len' : BitVec 32, -1 ≤ len.toInt → -1 ≤ len'.toInt →
    arrayLenBytes len <+: arrayLenBytes len' → len = len'

/-! ## The code of a length -/

/-- A byte alone may be what is read. -/
lemma read_bind_consumes {b : BitVec 8} {β : Type} {f : BitVec 8 → ReadM β} {v : β}
    (h : Consumes (f b) [] v) : Consumes (read >>= f) [b] v := by
  have hbind := read_consumes.bind h
  rwa [List.append_nil] at hbind

/-- A length is read back from its code, whatever follows. -/
lemma readArrayLength_consumes (hlen : -1 ≤ len.toInt) :
    Consumes readArrayLength (arrayLenBytes len) len.toInt := by
  have hnat := BitVec.toInt_eq_toNat_cond len
  have hlt := len.isLt
  unfold arrayLenBytes readArrayLength DataSource.readArrayLength
  split_ifs with hnull hone hthree
  · rw [hnull]
    exact read_bind_consumes Consumes.pure
  · have hbyte : (len.setWidth 8).toNat = len.toNat := by
      rw [BitVec.toNat_setWidth]
      omega
    have hcode : len.setWidth 8 ≠ 0xFF := fun h => by
      rw [h] at hbyte
      simp at hbyte
      omega
    refine read_bind_consumes ?_
    rw [if_neg hcode, if_neg (by omega), hbyte, show len.toInt = len.toNat by omega]
    exact Consumes.pure
  · have hshort : (len.setWidth 16).toNat = len.toNat := by
      rw [BitVec.toNat_setWidth]
      omega
    have h := (readInt16_consumes (len.setWidth 16).isLt).map (f := fun v => (v.toNat : ℤ))
    rw [BitVec.ofNat_toNat, BitVec.setWidth_eq, hshort, show (len.toNat : ℤ) = len.toInt by omega]
      at h
    rw [hshort]
    exact read_consumes.bind h
  · have h := (readInt32_consumes len.isLt).map (f := BitVec.toInt)
    rw [BitVec.ofNat_toNat, BitVec.setWidth_eq] at h
    exact read_consumes.bind h

/-- Of two codes of which one begins the other, one length is read. -/
lemma eq_of_arrayLenBytes_begins (hlen : -1 ≤ len.toInt) (hlen' : -1 ≤ len'.toInt)
    (h : arrayLenBytes len <+: arrayLenBytes len') : len = len' := by
  have hle := length_arrayLenBytes_le len'
  let input : DataInput := ⟨arrayLenBytes len', by omega, 0⟩
  obtain ⟨s, hrun, -⟩ := readArrayLength_consumes hlen input h
  obtain ⟨s', hrun', -⟩ := readArrayLength_consumes hlen' input List.prefix_rfl
  rw [hrun] at hrun'
  injection hrun' with hlength
  exact BitVec.eq_of_toInt_eq hlength

/-! ## Reading -/

/-- The length of an array that is there is a number of `int32_t`. -/
lemma toInt_length (h : a.bytes = some bytes) :
    a.length.toInt = bytes.length ∧ bytes.length < 2 ^ 31 := by
  have hlt := a.length_lt bytes h
  rw [length, h]
  dsimp only [Option.elim]
  rw [BitVec.toInt_eq_toNat_cond, BitVec.toNat_ofNat]
  omega

/-- It is converted to `size_t` without a loss. -/
lemma toNat_ofInt_length (hlt : bytes.length < 2 ^ 31) :
    (BitVec.ofInt 64 bytes.length).toNat = bytes.length := by
  rw [BitVec.ofInt_natCast, BitVec.toNat_ofNat]
  exact Nat.mod_eq_of_lt (by omega)

/-- Bytes that are in the buffer are copied. -/
lemma copyBytes_consumes (hn : n.toNat = bytes.length) (hpos : 0 < bytes.length) :
    Consumes (copyBytes n) bytes bytes := by
  intro s hs
  have hle := hs.length_le
  have hlt := s.length_lt
  have htake : (s.buffer.drop s.offset.toNat).take n.toNat = bytes := by
    rw [hn]
    exact (List.prefix_iff_eq_take.mp hs).symm
  refine ⟨{ s with offset := s.offset + n }, ?_, rfl, ?_⟩
  · rw [copyBytes, run_get_bind, if_pos (by omega), htake]
    rfl
  · rw [BitVec.toNat_add, hn]
    exact Nat.mod_eq_of_lt (by omega)

/-- An array is read from its frame, if it is by what follows the length. -/
lemma consumes_frame {read : ℤ → ReadM (Option (List (BitVec 8)))} (hnone : read (-1) = pure none)
    (hsome : ∀ bytes : List (BitVec 8), bytes.length < 2 ^ 31 →
      Consumes (read bytes.length) bytes (some bytes)) :
    Consumes (readArrayLength >>= read) a.frame a.bytes := by
  cases h : a.bytes with
  | none =>
    have hlen : a.length = -1 := by rw [length, h]; rfl
    rw [frame, hlen, h]
    exact (readArrayLength_consumes (by decide)).bind (hnone ▸ Consumes.pure)
  | some bytes =>
    obtain ⟨hint, hlt⟩ := toInt_length h
    rw [frame, h]
    exact (readArrayLength_consumes (by omega)).bind (hint ▸ hsome bytes hlt)

/-- An array is read in parts from its frame. -/
lemma readInParts_consumes : Consumes readInParts a.frame a.bytes :=
  consumes_frame rfl fun bytes hlt => by
    have hn := toNat_ofInt_length hlt
    rw [if_neg (by omega)]
    refine Consumes.map (f := some) ?_
    unfold readBytesOnly DataSource.readBytesOnly
    split_ifs with hpos
    · rw [gt_iff_lt, BitVec.lt_def, hn] at hpos
      exact (copyBytes_consumes hn hpos).checked (Nat.le_of_eq hn)
    · rw [gt_iff_lt, BitVec.lt_def, hn] at hpos
      obtain rfl := List.length_eq_zero_iff.mp (Nat.eq_zero_of_not_pos hpos)
      exact Consumes.pure

/-- An array is read with `readBytes` from its frame. -/
lemma readWhole_consumes : Consumes readWhole a.frame a.bytes :=
  consumes_frame rfl fun bytes hlt => by
    have hn := toNat_ofInt_length hlt
    by_cases hpos : 0 < bytes.length
    · rw [if_pos (by omega)]
      exact ((copyBytes_consumes hn hpos).map (f := some)).checked (Nat.le_of_eq hn)
    · obtain rfl := List.length_eq_zero_iff.mp (Nat.eq_zero_of_not_pos hpos)
      exact Consumes.pure

/-! ## Writing -/

/-- What is refused after some bytes was refused for all of them. -/
lemma refuses_of_grown {o o' : DataOutput} {n : ℕ} (hgrown : Grown o o' bytes)
    (h : o'.Refuses (o'.offset.toNat + n + 5)) :
    o.Refuses (o.offset.toNat + (bytes.length + n) + 5) := by
  obtain ⟨size, hsize, hlt⟩ := h
  rw [hgrown.allocator_eq] at hsize
  rw [hgrown.offset_eq] at hlt
  exact ⟨size, hsize, by omega⟩

/-- Two methods one after another append their bytes one after another. -/
lemma Frames.bind (hm : Frames m bytes) (hf : Frames (f ()) bytes') :
    Frames (m >>= f) (bytes ++ bytes') := by
  intro o ho hroom
  rw [List.length_append] at hroom
  obtain ⟨o', hrun, hgrown⟩ := hm o ho fun h => hroom (h.mono (by omega))
  obtain ⟨o'', hrun', hgrown'⟩ := hf o' hgrown.sound fun h =>
    hroom (refuses_of_grown hgrown h)
  exact ⟨o'', by rw [run_bind_of_ok hrun, hrun'], hgrown.trans hgrown'⟩

/-- Bytes are appended where there is memory for them and five more. -/
lemma run_of_appendsAt {o : DataOutput} (h : AppendsAt o m bytes)
    (hroom : ¬ o.Refuses (o.offset.toNat + bytes.length + 5)) :
    ∃ o', m.run o = .ok () o' ∧ Grown o o' bytes := by
  unfold AppendsAt at h
  cases hrun : m.run o with
  | ok u o' =>
    rw [hrun] at h
    exact ⟨o', rfl, h⟩
  | error e o' =>
    rw [hrun] at h
    exact absurd (h.2.2.mono (by omega)) hroom

/-- An array that is written in parts is its frame. -/
lemma writeInParts_frames : Frames a.writeInParts a.frame := by
  intro o ho
  refine run_of_appendsAt (writeArrayLen_appends.bind ?_ o ho)
  cases h : a.bytes with
  | none => exact Appends.pure
  | some bytes => exact writeBytesOnly_appends ((toInt_length h).2.trans (by decide))

/-- Arrays are written as their frames one after another, if each one is. -/
lemma forM_frames {write : NullableBytes → WriteM Unit}
    (h : ∀ a ∈ arrays, Frames (write a) a.frame) :
    Frames (arrays.forM write) (arrays.flatMap frame) := by
  induction arrays with
  | nil => exact fun o ho _ => ⟨o, rfl, Grown.refl ho⟩
  | cons a arrays ih =>
    exact (h a List.mem_cons_self).bind (ih fun b hb => h b (List.mem_cons_of_mem _ hb))

/-- From the frames of single arrays to those of a sequence. -/
lemma readBack_of_frames {write : NullableBytes → WriteM Unit}
    {read : ReadM (Option (List (BitVec 8)))} (hwrite : ∀ a ∈ arrays, Frames (write a) a.frame)
    (hread : ∀ a : NullableBytes, Consumes read a.frame a.bytes) : ReadBack write read arrays where
  each := hwrite
  all := forM_frames hwrite
  reads := Consumes.times _ arrays fun a _ => hread a

/-- `writeBytes` writes the frame of an array if the sum for the capacity is defined. -/
lemma writeWhole_frames (hlen : a.length.toInt + 5 < 2 ^ 31) : Frames a.writeWhole a.frame := by
  intro o ho hroom
  cases h : a.bytes with
  | none =>
    have hneg : a.length = -1 := by rw [length, h]; rfl
    rw [frame, hneg, h] at hroom ⊢
    rw [writeWhole, hneg]
    exact run_of_appendsAt (write_appends _ o ho) hroom
  | some bytes =>
    obtain ⟨hint, hlt⟩ := toInt_length h
    have hnat := BitVec.toInt_eq_toNat_cond a.length
    have hle := length_arrayLenBytes_le a.length
    have hbytes : (List.range a.length.toNat).map (fun i => bytes.getD i 0) = bytes := by
      rw [show a.length.toNat = bytes.length by omega]
      exact List.ext_getElem (by simp) fun i hi hi' => by simp [hi']
    rw [frame, h, Option.getD_some] at hroom ⊢
    unfold writeWhole writeBytes
    rw [if_pos (by omega), if_pos (by omega), h]
    dsimp only [Option.map]
    rw [hbytes]
    -- the capacity is asked for at once, and covers the length and the bytes
    have hsize : (BitVec.ofNat 64 (a.length.toNat + 5)).toNat = bytes.length + 5 := by
      rw [BitVec.toNat_ofNat]
      omega
    have hless : (BitVec.ofNat 64 (a.length.toNat + 5)).toNat < 2 ^ 63 := by omega
    obtain ⟨o', hrun, hgrown, hcap⟩ | ⟨o', -, -, hrefuses⟩ :=
      ensureCapacity_cases ho hless
    · have hrest : AppendsAt o' (do writeArrayLen a.length; writeAll bytes)
          (arrayLenBytes a.length ++ bytes) :=
        (writeArrayLen_appends o' hgrown.sound).bind fun o'' hlength =>
          writeAll_appendsAt hlength.sound (by
            have hoffset := hlength.offset_eq
            have hoffset' : o'.offset.toNat = o.offset.toNat := hgrown.offset_eq
            have hsize' := hlength.size_le
            omega)
      obtain ⟨o'', hrun', hgrown'⟩ := run_of_appendsAt hrest fun h =>
        hroom ((refuses_of_grown hgrown h).mono (by simp))
      exact ⟨o'', by rw [run_bind_of_ok hrun, hrun'], hgrown.trans hgrown'⟩
    · rw [List.length_append] at hroom
      exact absurd (hrefuses.mono (by omega)) hroom

/-- The sum of the length and five is one of `int32_t`, or `writeBytes` is undefined. -/
lemma writeWhole_frames_iff : Frames a.writeWhole a.frame ↔ a.length.toInt + 5 < 2 ^ 31 := by
  refine ⟨fun h => ?_, writeWhole_frames⟩
  by_contra hover
  have hle := length_arrayLenBytes_le a.length
  have hlt : (a.bytes.getD []).length < 2 ^ 31 := by
    cases h : a.bytes with
    | none => decide
    | some bytes => exact (toInt_length h).2
  obtain ⟨o, hrun, -⟩ := h roomyOutput sound_roomyOutput fun ⟨size, hsize, hless⟩ => by
    have hzero : roomyOutput.offset.toNat = 0 := rfl
    rw [frame, List.length_append] at hless
    exact of_decide_eq_false hsize (by omega)
  have hnat := BitVec.toInt_eq_toNat_cond a.length
  unfold writeWhole writeBytes at hrun
  rw [if_pos (by omega), if_neg (by omega)] at hrun
  cases hrun

/-- Arrays are read back as they were written exactly if `writeBytes` can add five to the
length of each. -/
theorem framed_arrays_iff (arrays : List NullableBytes) :
    Framed arrays ↔ ∀ a ∈ arrays, a.length.toInt + 5 < 2 ^ 31 := by
  constructor
  · exact fun h a ha => writeWhole_frames_iff.mp (h.whole.each a ha)
  · intro h
    exact ⟨readBack_of_frames (fun _ _ => writeInParts_frames) fun _ => readInParts_consumes,
      readBack_of_frames (fun a ha => writeWhole_frames_iff.mpr (h a ha))
        fun _ => readWhole_consumes, fun _ _ => eq_of_arrayLenBytes_begins⟩

/-- The shortest array for which the sum overflows. -/
def longArray : NullableBytes where
  bytes := some (List.replicate (2 ^ 31 - 5) 0)
  length_lt := by
    rintro b ⟨rfl⟩
    rw [List.length_replicate]
    decide

/-- An array of `2 ^ 31 - 5` bytes is written by an undefined sum. -/
theorem not_framed_longArray : ¬ Framed [longArray] := fun h => by
  have hlen := writeWhole_frames_iff.mp (h.whole.each longArray List.mem_cons_self)
  rw [(toInt_length (show longArray.bytes = some _ from rfl)).1, List.length_replicate] at hlen
  omega

end NullableBytes

end GeodeNative
