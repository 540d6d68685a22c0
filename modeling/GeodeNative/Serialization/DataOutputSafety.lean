import GeodeNative.Library.Runs
import GeodeNative.Serialization.Appends

/-!
# Memory safety of `DataOutput`

A thread takes outputs from its pool of buffers, writes to them and gives them back.
Every byte is written inside of the buffer, except where the cursor was moved out of it,
where the sums of sizes overflow, where an output is used after there was no memory for
it, and where modified UTF-8 is cut inside of a unit: the capacity that `ensureCapacity`
was asked for then lacks the last bytes of the unit.
-/

namespace GeodeNative

open List BitVec

open Codecvt DataOutput

variable {codecvt : Codecvt} {units : List (BitVec 16)}

namespace DataOutput

variable {s : DataOutput}

/-! ## Safe methods -/

/-- An output whose buffer was not lost is sound. -/
def Tidy (s : DataOutput) : Prop :=
  s.allocated = true → Sound s

/-- From the output `s` a method writes no byte outside of the buffer. -/
def SafeAt (s : DataOutput) (m : WriteM Unit) : Prop :=
  match m.run s with
  | .ok _ s' => Tidy s'
  | .error e s' => OutputThread.corrupts e = false ∧ Tidy s'

section Rules

variable {m : WriteM Unit} {f : Unit → WriteM Unit} {bytes : List (BitVec 8)}

/-- What only appends is safe. -/
lemma AppendsAt.safeAt (h : AppendsAt s m bytes) : SafeAt s m := by
  unfold AppendsAt at h
  unfold SafeAt
  cases hrun : m.run s with
  | ok =>
    rw [hrun] at h
    exact fun _ => h.sound
  | error =>
    rw [hrun] at h
    obtain ⟨rfl, hnull, -⟩ := h
    exact ⟨rfl, fun hallocated => by rw [hnull] at hallocated; cases hallocated⟩

lemma SafeAt.of_run {t : DataOutput} (hrun : m.run s = .ok () t) (h : Tidy t) : SafeAt s m := by
  rw [SafeAt, hrun]
  exact h

lemma SafeAt.throw (hs : Sound s) {e : WriteError} (he : OutputThread.corrupts e = false) :
    SafeAt s (throw e) :=
  ⟨he, fun _ => hs⟩

/-- What is safe after the appended bytes is safe. -/
lemma AppendsAt.safeAt_bind (hm : AppendsAt s m bytes)
    (hf : ∀ s', Grown s s' bytes → SafeAt s' (f ())) : SafeAt s (m >>= f) := by
  have hsafe := hm.safeAt
  unfold AppendsAt at hm
  unfold SafeAt at hsafe ⊢
  cases hrun : m.run s with
  | ok _ s' =>
    rw [hrun] at hm
    rw [run_bind_of_ok hrun]
    exact hf s' hm
  | error =>
    rw [hrun] at hsafe
    rw [run_bind_of_error hrun]
    exact hsafe

/-- After `ensureCapacity` there is room, or it has thrown. -/
lemma SafeAt.ensureCapacity_bind (hs : Sound s) {size : BitVec 64} (hsize : size.toNat < 2 ^ 63)
    (h : ∀ s', Grown s s' [] → s'.offset.toNat + size.toNat ≤ s'.size.toNat → SafeAt s' (f ())) :
    SafeAt s (ensureCapacity size >>= f) := by
  obtain ⟨s', hrun, hgrown, _⟩ | ⟨s', hrun, hnull, -⟩ := ensureCapacity_cases hs hsize
  · have hoffset : s'.offset.toNat = s.offset.toNat := hgrown.offset_eq
    rw [SafeAt, run_bind_of_ok hrun]
    exact h s' hgrown (by omega)
  · rw [SafeAt, run_bind_of_error hrun]
    exact ⟨rfl, fun hallocated => by rw [hnull] at hallocated; cases hallocated⟩

end Rules

/-! ## The cursor and bytes -/

section Cursor

variable {offset : BitVec 64}

/-- The cursor is moved only after room was made. -/
lemma advanceCursor_safeAt (hs : Sound s) (hlt : offset.toNat < 2 ^ 63) :
    SafeAt s (advanceCursor offset) := by
  refine SafeAt.ensureCapacity_bind hs hlt fun s' hgrown hroom => ?_
  have hsize := hgrown.sound.size_lt
  refine SafeAt.of_run (t := { s' with offset := s'.offset + offset }) rfl fun _ =>
    ⟨hgrown.sound.allocated, hgrown.sound.low_le, hsize, ?_⟩
  change (s'.offset + offset).toNat ≤ s'.size.toNat
  rw [toNat_add]
  omega

/-- A cursor that is moved back no further than it went stays in the buffer. -/
lemma rewindCursor_safeAt (hs : Sound s)
    (hle : offset.toNat ≤ s.offset.toNat) : SafeAt s (rewindCursor offset) := by
  have hsize := hs.size_lt
  have hin := hs.offset_le
  refine SafeAt.of_run (t := { s with offset := s.offset - offset }) rfl fun _ =>
    ⟨hs.allocated, hs.low_le, hsize, ?_⟩
  change (s.offset - offset).toNat ≤ s.size.toNat
  rw [toNat_sub]
  omega

/-- A reset output is sound, whether or not its buffer was lost before. -/
lemma reset_safeAt (hs : Tidy s) : SafeAt s reset := by
  have hrun : reset.run s = if s.haveBigBuffer then
        if s.allocator.grants lowWaterMark then
          .ok () { s with
            allocated := true, size := lowWaterMark, haveBigBuffer := false, offset := 0 }
        else
          .error .outOfMemory { s with
            allocated := false
            offset := if s.allocated then s.allocator.address + s.offset else s.offset }
      else
        .ok () { s with offset := 0 } := by
    rw [reset, run_get_bind]
    split
    · split <;> rfl
    · rfl
  rw [SafeAt, hrun]
  by_cases hbig : s.haveBigBuffer = true
  · rw [if_pos hbig]
    by_cases hgrants : s.allocator.grants lowWaterMark = true
    · rw [if_pos hgrants]
      have hlow : 8192 ≤ lowWaterMark.toNat ∧ lowWaterMark.toNat < 2 ^ 62 := by decide
      exact fun _ => ⟨rfl, hlow.1, hlow.2, Nat.zero_le _⟩
    · rw [if_neg hgrants]
      exact ⟨rfl, fun hallocated => by cases hallocated⟩
  · rw [if_neg hbig]
    exact fun hallocated => ⟨hallocated, (hs hallocated).low_le, (hs hallocated).size_lt,
      Nat.zero_le _⟩

/-- A position below the size is in the buffer. -/
lemma updateValueAtPos_safeAt (hs : Sound s) (value : BitVec 8)
    (hlt : offset < s.size) : SafeAt s (updateValueAtPos offset value) := by
  refine SafeAt.of_run (t := { s with memory := Function.update s.memory offset.toNat value })
    ?_ fun _ => { hs with }
  rw [updateValueAtPos, run_get_bind, if_pos ⟨hs.allocated, hlt⟩]
  rfl

/-- The capacity that `writeBytes` asks for covers the length and the bytes. -/
lemma writeBytes_safeAt (hs : Sound s) (bytes : Option (ℕ → BitVec 8)) {len : BitVec 32}
    (hlen : len.toInt + 5 < 2 ^ 31) : SafeAt s (writeBytes bytes len) := by
  unfold writeBytes
  by_cases hneg : 0 ≤ len.toInt
  · have hnat : len.toInt = len.toNat := toInt_eq_toNat_of_msb (by
      rw [msb_eq_toInt]
      simpa using hneg)
    have hmod : (BitVec.ofNat 64 (len.toNat + 5)).toNat = len.toNat + 5 := by
      rw [toNat_ofNat]
      omega
    rw [if_pos hneg, if_pos (by omega)]
    refine SafeAt.ensureCapacity_bind hs (by omega) fun s₁ hgrown hroom => ?_
    cases bytes with
    | none => exact (writeArrayLen_appends s₁ hgrown.sound).safeAt
    | some =>
      refine (writeArrayLen_appends s₁ hgrown.sound).safeAt_bind fun s₂ hgrown₂ => ?_
      have hoffset := hgrown₂.offset_eq
      have hsize := hgrown₂.size_le
      have hfive := length_arrayLenBytes_le len
      refine (writeAll_appendsAt hgrown₂.sound ?_).safeAt
      rw [length_map, length_range]
      omega
  · rw [if_neg hneg]
    exact (write_appends _ s hs).safeAt

end Cursor

/-! ## Cutting inside of a unit -/

/-- Bytes without room are written behind the buffer. -/
lemma writeAll_outOfBounds (hs : Sound s) (bytes : List (BitVec 8))
    (h : s.size.toNat < s.offset.toNat + bytes.length) :
    ∃ s', (writeAll bytes).run s = .error .outOfBounds s' := by
  have hle := hs.offset_le
  induction bytes generalizing s with
  | nil =>
    rw [length_nil] at h
    omega
  | cons b _ ih =>
    rw [length_cons] at h
    by_cases hfull : s.offset.toNat < s.size.toNat
    · obtain ⟨_, hrun, hgrown, hsize⟩ := writeNoCheck_run hs hfull
      have hoffset := hgrown.offset_eq
      rw [length_singleton] at hoffset
      obtain ⟨s'', hrest⟩ := ih hgrown.sound (by rw [hsize]; omega) hgrown.sound.offset_le
      exact ⟨s'', by rw [writeAll, run_bind_of_ok hrun, hrest]⟩
    · refine ⟨s, ?_⟩
      have hout : (writeNoCheck b).run s = .error .outOfBounds s := by
        rw [writeNoCheck, run_get_bind, if_neg fun hin => hfull hin.2]
        rfl
      rw [writeAll, run_bind_of_error hout]

/-- Without room for the bytes behind the cut, the loop writes outside of the buffer. -/
lemma encodeLoop_outOfBounds (hs : Sound s) {left : ℕ}
    (hroom : s.offset.toNat + left ≤ s.size.toNat)
    (h : s.size.toNat < s.offset.toNat + left + overrun units left) :
    ∃ s', (encodeLoop units left).run s = .error .outOfBounds s' := by
  induction units generalizing s left with
  | nil => cases left <;> simp only [overrun] at h <;> omega
  | cons c _ ih =>
    cases left with
    | zero =>
      simp only [overrun] at h
      omega
    | succ left =>
      rw [overrun] at h
      rw [encodeLoop]
      by_cases hfits : (encodeJavaModifiedUtf8 c).length ≤ left + 1
      · rw [if_pos hfits] at h
        obtain ⟨s', hrun, hgrown, hsize⟩ := writeAll_run hs (encodeJavaModifiedUtf8 c) (by omega)
        have hoffset := hgrown.offset_eq
        rw [run_bind_of_ok hrun, if_pos hfits]
        exact ih hgrown.sound (by rw [hsize]; omega) (by rw [hsize]; omega)
      · rw [if_neg hfits] at h
        obtain ⟨s', hrun⟩ := writeAll_outOfBounds hs (encodeJavaModifiedUtf8 c) (by omega)
        exact ⟨s', by rw [run_bind_of_error hrun]⟩

/-! ## Strings -/

section Strings

variable {ty : CharType} {value : List ℕ} (hs : Sound s)

include hs

/-- A failed conversion throws before anything is written. -/
lemma converting_safeAt {none : WriteM Unit} {some : List (BitVec 16) → WriteM Unit}
    (hnone : SafeAt s none)
    (hsome : ∀ units, toUtf16 codecvt ty value = .some units → SafeAt s (some units)) :
    SafeAt s (converting codecvt ty value none some) := by
  unfold converting
  split
  · exact hnone
  · split
    · exact SafeAt.throw hs rfl
    · next units hunits => exact hsome units hunits

/-- The string is not cut inside of a unit, where it is written in modified UTF-8. -/
def CutsBetween (codecvt : Codecvt) (ty : CharType) (value : List ℕ) : Prop :=
  ∀ units, toUtf16 codecvt ty value = some units → stringOverrun units = 0

/-- A text that is cut between two units stays in its room. -/
lemma writeJavaModifiedUtf8String_safeAt (h : CutsBetween codecvt ty value) :
    SafeAt s (writeJavaModifiedUtf8String codecvt ty value) :=
  converting_safeAt hs (writeInt16_appends 0 s hs).safeAt fun units hunits =>
    (writeJavaModifiedUtf8_appendsAt hs (.inl (h units hunits))).safeAt

variable (hlt : value.length < 2 ^ 61)

include hlt

lemma writeUtf16HugeString_safeAt : SafeAt s (writeUtf16HugeString codecvt ty value) :=
  converting_safeAt hs (writeInt16_appends 0 s hs).safeAt fun units hunits => by
    have hlen := length_toUtf16 hunits
    exact (writeUtf16Huge_appends (by omega) s hs).safeAt

/-- `writeString` chooses modified UTF-8. -/
def WritesUtf8 (ty : CharType) (value : List ℕ) : Prop :=
  value.length < utfLen ty value ∧ utfLen ty value ≤ 0xFFFF

/-- Only the UTF-8 form can leave its room. -/
lemma writeString_safeAt (h : WritesUtf8 ty value → CutsBetween codecvt ty value) :
    SafeAt s (writeString codecvt ty value) := by
  unfold writeString
  dsimp only
  split_ifs with hendless hutf hhuge hhuge
  · exact SafeAt.throw hs rfl
  · exact (write_appends 89 s hs).safeAt_bind fun s' hgrown =>
      writeUtf16HugeString_safeAt hgrown.sound hlt
  · exact (write_appends 42 s hs).safeAt_bind fun s' hgrown =>
      writeJavaModifiedUtf8String_safeAt hgrown.sound (h ⟨hutf, by omega⟩)
  · exact ((write_appends 88).bind (writeAsciiHuge_appends value) s hs).safeAt
  · exact ((write_appends 87).bind writeAscii_appends s hs).safeAt

end Strings

/-! ## Calls -/

/-- What a call needs of its output: the buffer is there, the cursor stays in the buffer, the
sums of sizes do not overflow, and modified UTF-8 is not cut inside of a unit. -/
def WriteCall.Regular (codecvt : Codecvt) (s : DataOutput) : WriteCall → Prop
  | .writeBytes _ len => s.allocated = true ∧ len.toInt + 5 < 2 ^ 31
  | .writeString ty value => s.allocated = true ∧
    ∀ v ∈ value, WritesUtf8 ty v.units → CutsBetween codecvt ty v.units
  | .writeUTF ty value => s.allocated = true ∧ ∀ v ∈ value, CutsBetween codecvt ty v.units
  | .advanceCursor offset => s.allocated = true ∧ offset.toNat < 2 ^ 63
  | .rewindCursor offset => s.allocated = true ∧ offset ≤ s.offset
  | .updateValueAtPos offset _ => s.allocated = true ∧ offset < s.size
  | .reset => True
  | _ => s.allocated = true

/-- A regular call writes no byte outside of the buffer. -/
lemma WriteCall.Regular.safeAt {c : WriteCall} (hs : Tidy s)
    (h : c.Regular codecvt s) : SafeAt s (c.method codecvt) := by
  cases c with
  | write value => exact (write_appends value s (hs h)).safeAt
  | writeBoolean => exact (write_appends _ s (hs h)).safeAt
  | writeBytes bytes => exact writeBytes_safeAt (hs h.1) bytes h.2
  | writeBytesOnly bytes =>
    have hlt := bytes.length_lt
    exact (writeBytesOnly_appends (by omega) s (hs h)).safeAt
  | writeInt16 value | writeChar value => exact (writeInt16_appends value s (hs h)).safeAt
  | writeInt32 value | writeFloat value => exact (writeInt32_appends value s (hs h)).safeAt
  | writeInt64 | writeDouble => exact (writeInt64_appends s (hs h)).safeAt
  | writeArrayLen => exact (writeArrayLen_appends s (hs h)).safeAt
  | writeString _ value =>
    cases value with
    | none => exact (write_appends 69 s (hs h.1)).safeAt
    | some v => exact writeString_safeAt (hs h.1) v.length_lt (h.2 v rfl)
  | writeUTF _ value =>
    cases value with
    | none => exact SafeAt.throw (hs h.1) rfl
    | some v => exact writeJavaModifiedUtf8String_safeAt (hs h.1) (h.2 v rfl)
  | writeChars _ value =>
    refine converting_safeAt (hs h) (AppendsAt.pure (hs h)).safeAt fun units hunits => ?_
    have hlen := length_toUtf16 hunits
    have hlt := value.length_lt
    exact (writeUtf16_appends (by omega) s (hs h)).safeAt
  | writeAscii => exact (writeAscii_appends s (hs h)).safeAt
  | writeAsciiHuge => exact (writeAsciiHuge_appends _ s (hs h)).safeAt
  | writeUtf16Huge _ value => exact writeUtf16HugeString_safeAt (hs h) value.length_lt
  | advanceCursor => exact advanceCursor_safeAt (hs h.1) h.2
  | rewindCursor => exact rewindCursor_safeAt (hs h.1) h.2
  | reset => exact reset_safeAt hs
  | updateValueAtPos _ value => exact updateValueAtPos_safeAt (hs h.1) value h.2

end DataOutput

/-! ## Threads -/

namespace OutputThread

/-- What holds of a thread whose calls were regular. -/
structure Intact (t : OutputThread) : Prop where
  corrupted_eq : t.corrupted = false
  tidy : ∀ o ∈ t.outputs, DataOutput.Tidy o
  size_mem : ∀ desc ∈ t.buffers, 8192 ≤ desc.size.toNat ∧ desc.size.toNat < 2 ^ 62

def Regular (codecvt : Codecvt) (t : OutputThread) : OutputAction → Prop
  | .call i _ c => ∀ o ∈ t.outputs[i]?, c.Regular codecvt o
  | _ => True

variable {o : DataOutput} {c : DataOutput.WriteCall} {allocator : Allocator} {t : OutputThread}

lemma tidy_withAllocator (h : o.Tidy) (allocator : Allocator) :
    DataOutput.Tidy { o with allocator } := fun hallocated =>
  ⟨hallocated, (h hallocated).low_le, (h hallocated).size_lt, (h hallocated).offset_le⟩

section

variable (ht : Intact t)

include ht

/-- A pooled buffer is at least as large as a new one. -/
lemma Intact.checkoutBuffer {desc : BufferDesc}
    {buffers : List BufferDesc} (h : t.checkoutBuffer allocator = some (desc, buffers)) :
    (8192 ≤ desc.size.toNat ∧ desc.size.toNat < 2 ^ 62) ∧ buffers ⊆ t.buffers := by
  unfold OutputThread.checkoutBuffer at h
  split at h
  · next first rest hbuffers =>
    obtain ⟨rfl, rfl⟩ := Prod.mk.inj (Option.some.inj h)
    refine ⟨ht.size_mem _ ?_, ?_⟩
    · rw [hbuffers]
      exact mem_cons_self
    · rw [hbuffers]
      exact subset_cons_self _ _
  · split at h
    · obtain ⟨rfl, rfl⟩ := Prod.mk.inj (Option.some.inj h)
      exact ⟨by decide, nil_subset _⟩
    · cases h

/-- A new output is over a buffer of the pool or a new one. -/
lemma Intact.construct : Intact (t.construct allocator) := by
  unfold OutputThread.construct
  split
  · exact ht
  · next desc buffers hout =>
    obtain ⟨hsize, hsub⟩ := ht.checkoutBuffer hout
    refine ⟨ht.corrupted_eq, fun o ho => ?_, fun d hd => ht.size_mem d (hsub hd)⟩
    obtain hold | hnew := mem_append.mp ho
    · exact ht.tidy o hold
    · obtain rfl := mem_singleton.mp hnew
      exact fun _ => ⟨rfl, hsize.1, hsize.2, Nat.zero_le _⟩

/-- What a call leaves of its output goes back to its place. -/
lemma Intact.set (i : ℕ) (ho : o.Tidy) : Intact { t with outputs := t.outputs.set i o } where
  __ := ht
  tidy o' ho' := by
    obtain hold | rfl := mem_or_eq_of_mem_set ho'
    · exact ht.tidy o' hold
    · exact ho

/-- A regular call keeps the buffer, or throws. -/
lemma Intact.call {i : ℕ}
    (h : ∀ o ∈ t.outputs[i]?, c.Regular codecvt o) : Intact (t.call codecvt i allocator c) := by
  unfold OutputThread.call
  cases ho : t.outputs[i]? with
  | none => exact ht
  | some o =>
    have htidy := tidy_withAllocator (ht.tidy o (mem_of_getElem? ho)) allocator
    have hregular : c.Regular codecvt { o with allocator } := by
      have hold := h o ho
      cases c <;> exact hold
    have hsafe := hregular.safeAt htidy
    unfold DataOutput.SafeAt at hsafe
    dsimp only
    cases hrun : (c.method codecvt).run { o with allocator } with
    | ok =>
      rw [hrun] at hsafe
      exact ht.set i hsafe
    | error =>
      rw [hrun] at hsafe
      exact ⟨hsafe.1, (ht.set i hsafe.2).tidy, ht.size_mem⟩

/-- A buffer that is given back is kept in the pool or freed. -/
lemma Intact.destruct (i : ℕ) : Intact (t.destruct i allocator) := by
  unfold OutputThread.destruct
  cases ho : t.outputs[i]? with
  | none => exact ht
  | some o =>
    have hsafe := reset_safeAt (tidy_withAllocator (ht.tidy o (mem_of_getElem? ho)) allocator)
    unfold DataOutput.SafeAt at hsafe
    dsimp only
    cases hrun : reset.run { o with allocator } with
    | ok =>
      rw [hrun] at hsafe
      refine ⟨ht.corrupted_eq, fun o'' ho'' => ht.tidy o'' (mem_of_mem_eraseIdx ho''), ?_⟩
      dsimp only
      split
      · next hallocated =>
        intro d hd
        obtain rfl | hold := mem_cons.mp hd
        · exact ⟨(hsafe hallocated).low_le, (hsafe hallocated).size_lt⟩
        · exact ht.size_mem d hold
      · exact ht.size_mem
    | error => exact ⟨ht.corrupted_eq, by simp, by simp⟩

/-- Each action of the thread. -/
lemma Intact.step {a : OutputAction} (h : Regular codecvt t a) : Intact (t.step codecvt a) := by
  unfold OutputThread.step
  rw [ht.corrupted_eq]
  cases a with
  | construct => exact ht.construct
  | call => exact ht.call h
  | destruct i => exact ht.destruct i

end

/-- In every run whose calls are regular all bytes are written inside of the buffers. -/
theorem not_corrupted_of_regular (codecvt : Codecvt) (actions : List OutputAction)
    (h : EveryStep (step codecvt) (Regular codecvt) initial actions) :
    EveryState (step codecvt) (fun t => t.corrupted = false) initial actions := by
  have hinitial : Intact initial := ⟨rfl, by simp [initial], by simp [initial]⟩
  exact (everyState_of_everyStep (fun t a ht ha => ht.step ha) hinitial h).mono
    fun t ht => ht.corrupted_eq

/-- Characters of one, two and three bytes. -/
def threeWidths : DataOutput.Stored ℕ := ⟨[0x61, 0xE9, 0x20AC], by decide⟩

/-- A number is written near the end of the buffer, then a string that makes the buffer
grow; the output is given back. -/
def grownOutput : List OutputAction :=
  [.construct .ample, .call 0 .ample (.advanceCursor 8186), .call 0 .ample (.writeInt32 7),
    .call 0 .ample (.writeUTF .char16 (some threeWidths)), .destruct 0 .ample]

theorem not_corrupted_of_regular_grownOutput :
    EveryState (step Codecvt.strict) (fun t => t.corrupted = false) initial grownOutput := by
  refine not_corrupted_of_regular Codecvt.strict grownOutput
    ⟨trivial, ?_, ?_, ?_, trivial, trivial⟩
  · rintro _ ⟨⟩
    exact ⟨rfl, by decide⟩
  · rintro _ ⟨⟩
    rfl
  · intro o ho
    have hallocated := congrArg (Option.map DataOutput.allocated) ho
    refine ⟨Option.some.inj (hallocated.symm.trans (by decide +kernel : _ = some true)), ?_⟩
    rintro _ ⟨⟩ units ⟨⟩
    rfl

/-- Two letters and characters of three bytes: the cut at `0xFFFF` leaves two bytes of a
character behind it. -/
def cutString : DataOutput.Stored ℕ where
  units := 0x61 :: 0x61 :: List.replicate 21845 0x800
  length_lt := by
    rw [List.length_cons, List.length_cons, List.length_replicate]
    decide

/-- A string is written where its length just fits into the buffer. -/
def writtenNearEnd (value : DataOutput.Stored ℕ) : List OutputAction :=
  [.construct .ample, .call 0 .ample (.advanceCursor 8190),
    .call 0 .ample (.writeUTF .char16 (some value))]

lemma encodedLength_replicate (n : ℕ) : encodedLength (replicate n 0x800) = 3 * n := by
  induction n with
  | zero => rfl
  | succ _ ih =>
    rw [List.replicate_succ, encodedLength, ih]
    rfl

/-- One byte of a character is before the cut. -/
lemma overrun_replicate (k n : ℕ) : overrun (replicate (k + n + 1) 0x800) (3 * k + 1) = 2 := by
  induction k with
  | zero =>
    rfl
  | succ k ih =>
    have hlen : (encodeJavaModifiedUtf8 0x800).length = 3 := rfl
    rw [show k + 1 + n + 1 = (k + n + 1) + 1 by omega, List.replicate_succ,
      show 3 * (k + 1) + 1 = (3 * k + 3) + 1 by omega, overrun, hlen,
      if_pos (by omega), show 3 * k + 3 + 1 - 3 = 3 * k + 1 by omega, ih]

lemma overrun_letter (units : List (BitVec 16)) {left : ℕ} :
    overrun (0x61 :: units) (left + 1) = overrun units left := by
  have hlen : (encodeJavaModifiedUtf8 0x61).length = 1 := rfl
  rw [overrun, hlen, if_pos (by omega), Nat.add_sub_cancel]

/-- The output after the call that moves the cursor. -/
def nearEnd : DataOutput where
  memory _ := 0
  allocated := true
  size := 8192
  offset := 8190
  haveBigBuffer := false
  allocator := .ample

/-- The buffer grows to 73728 bytes for the length of the cut encoding, which is one byte
short of the unit at the cut. -/
lemma writeJavaModifiedUtf8_nearEnd (hencoded : 0xFFFF ≤ encodedLength units)
    (hover : overrun units 0xFFFF = 2) :
    ∃ o, (writeJavaModifiedUtf8 units).run nearEnd = .error .outOfBounds o := by
  obtain ⟨o₁, hlength, _, hsize₁, hoffset₁, hallocator⟩ :
      ∃ o, (writeInt16 (BitVec.ofNat 16 0xFFFF)).run nearEnd = .ok () o ∧ o.allocated = true ∧
        o.size = 8192 ∧ o.offset = 8192 ∧ o.allocator = .ample :=
    ⟨_, rfl, rfl, rfl, rfl, rfl⟩
  obtain ⟨o₂, hgrow, hallocated₂, hsize₂, hoffset₂⟩ :
      ∃ o, (ensureCapacity (BitVec.ofNat 64 0xFFFF)).run o₁ = .ok () o ∧ o.allocated = true ∧
        o.size = 73728 ∧ o.offset = 8192 := by
    rw [run_ensureCapacity, hsize₁, hoffset₁, hallocator]
    exact ⟨_, rfl, rfl, rfl, rfl⟩
  have hsize : o₂.size.toNat = 73728 := by rw [hsize₂]; rfl
  have hoffset : o₂.offset.toNat = 8192 := by rw [hoffset₂]; rfl
  obtain ⟨o, hloop⟩ : ∃ o, (encodeLoop units 0xFFFF).run o₂ = .error .outOfBounds o :=
    encodeLoop_outOfBounds ⟨hallocated₂, by omega, by omega, by omega⟩ (by omega) (by omega)
  have hne : units.length ≠ 0 := by
    intro hempty
    obtain rfl := length_eq_zero_iff.mp hempty
    cases hencoded
  refine ⟨o, ?_⟩
  rw [writeJavaModifiedUtf8, if_neg hne, Nat.min_eq_right hencoded]
  rw [run_bind_of_ok hlength, run_bind_of_ok hgrow, hloop]

/-- The last unit of the text goes behind the room made for it. -/
lemma writeUTF_cutString :
    ∃ o, (writeUTFPointer strict .char16 (some cutString.units)).run nearEnd =
      .error .outOfBounds o := by
  have hencoded : encodedLength (0x61 :: 0x61 :: replicate 21845 0x800) = 65537 := by
    rw [encodedLength, encodedLength, encodedLength_replicate]
    rfl
  have hover : overrun (0x61 :: 0x61 :: replicate 21845 0x800) 0xFFFF = 2 :=
    (overrun_letter _).trans ((overrun_letter _).trans (overrun_replicate 21844 0))
  have hunits : toUtf16 strict .char16 cutString.units =
      some (0x61 :: 0x61 :: replicate 21845 0x800) := by
    rw [toUtf16, cutString, map_cons, map_cons, map_replicate]
    rfl
  rw [writeUTFPointer, writeJavaModifiedUtf8String, converting, if_neg (by simp), hunits]
  exact writeJavaModifiedUtf8_nearEnd (by omega) hover

/-- A write behind the buffer corrupts the memory of the thread. -/
lemma corrupted_writtenNearEnd {value : DataOutput.Stored ℕ}
    (hrun : (writeUTFPointer strict .char16 (some value.units)).run nearEnd =
      .error .outOfBounds o) :
    (runFrom (step strict) initial (writtenNearEnd value)).corrupted = true := by
  have hafter : runFrom (step strict) initial (writtenNearEnd value) =
      (⟨[], [nearEnd], false⟩ : OutputThread).call strict 0 .ample
        (.writeUTF .char16 (some value)) := rfl
  have hout : ((DataOutput.WriteCall.writeUTF .char16 (some value)).method strict).run
      { nearEnd with allocator := .ample } = .error .outOfBounds o := hrun
  rw [hafter, call, getElem?_cons_zero]
  dsimp only
  rw [hout]
  rfl

theorem corrupted_writtenNearEnd_cutString :
    ¬ EveryState (step Codecvt.strict) (fun t => t.corrupted = false) initial
      (writtenNearEnd cutString) := by
  intro h
  obtain ⟨_, hrun⟩ := writeUTF_cutString
  have hlast : (runFrom (step strict) initial (writtenNearEnd cutString)).corrupted = false :=
    h.last
  rw [corrupted_writtenNearEnd hrun] at hlast
  cases hlast

end OutputThread

end GeodeNative
