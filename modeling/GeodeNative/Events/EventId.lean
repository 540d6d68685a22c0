import GeodeNative.Messages.PartSpec
import GeodeNative.Serialization.DataInputSafety
import GeodeNative.Serialization.StringRoundTrip

/-!
# Event ids

An `EventId` is sent as its membership id, which is a byte array, and an array that holds the
thread id and the sequence id, each behind a code for its width. `fromData` copies the
membership id into `clientId_`, which has 512 bytes, without a look at the length: a longer one
is written over what follows. The length of the second array is read and not used: the codes
alone decide how far the ids are read, behind the end of the array if it is shorter.
-/

namespace GeodeNative

open DataOutput DataInput

/-- The fields of an event id, with the bytes of `clientId_` that are in use. -/
structure EventId where
  clientId : List (BitVec 8)
  threadId : BitVec 64
  sequenceId : BitVec 64
  bucketId : BitVec 32
  breadcrumbCounter : BitVec 8

namespace EventId

def toData (e : EventId) : WriteM Unit := do
  writeBytes (some fun i => e.clientId.getD i 0) (BitVec.ofNat 32 e.clientId.length)
  writeArrayLen 18
  write 3
  writeInt64 e.threadId
  write 3
  writeInt64 e.sequenceId
  writeInt32 e.bucketId
  write e.breadcrumbCounter

/-- `readBytesOnly` into `clientId_`. To write behind the array is out of bounds, as to read
outside of the buffer is. -/
def readClientId (clientIdLength : ℤ) : ReadM (List (BitVec 8)) := do
  let clientId ← readBytesOnly (BitVec.ofInt 64 clientIdLength)
  if clientId.length ≤ 512 then
    return clientId
  else
    throw .outOfBounds

/-- A number of the width that the code tells; of another code, zero. -/
def getEventIdData (numberCode : BitVec 8) : ReadM (BitVec 64) :=
  if numberCode = 0 then do
    let v ← read
    return v.signExtend 64
  else if numberCode = 1 then do
    let v ← readInt16
    return v.signExtend 64
  else if numberCode = 2 then do
    let v ← readInt32
    return v.signExtend 64
  else if numberCode = 3 then
    readInt64
  else
    return 0

/-- The membership id, and the length of the array behind it. -/
def readHead : ReadM (List (BitVec 8) × ℤ) := do
  let clientIdLength ← readArrayLength
  let clientId ← readClientId clientIdLength
  return (clientId, ← readArrayLength)

/-- The thread id and the sequence id. -/
def readIds : ReadM (BitVec 64 × BitVec 64) := do
  let threadId ← getEventIdData (← read)
  let sequenceId ← getEventIdData (← read)
  return (threadId, sequenceId)

/-- What follows the ids. -/
def readTail (head : List (BitVec 8) × ℤ) (ids : BitVec 64 × BitVec 64) : ReadM EventId := do
  let bucketId ← readInt32
  let breadcrumbCounter ← read
  return ⟨head.1, ids.1, ids.2, bucketId, breadcrumbCounter⟩

def fromData : ReadM EventId := do
  let head ← readHead
  let ids ← readIds
  readTail head ids

/-- No byte outside of the buffer is read and none behind `clientId_` is written, and unless an
exception is thrown the ids end in their array. -/
def InBounds (s : DataInput) : Prop :=
  (∀ s', fromData.run s ≠ .error .outOfBounds s') ∧
    ∀ e s', fromData.run s = .ok e s' → ∀ head s₁ ids s₂, readHead.run s = .ok head s₁ →
      readIds.run s₁ = .ok ids s₂ → s₂.offset.toNat ≤ s₁.offset.toNat + head.2

/-- How many bytes a code and its number take. -/
def idSize (numberCode : BitVec 8) : ℕ :=
  if numberCode = 0 then 2 else if numberCode = 1 then 3 else if numberCode = 2 then 5
  else if numberCode = 3 then 9 else 1

/-- How many bytes the ids at a position take, by their codes. -/
def idsSize (buffer : List (BitVec 8)) (pos : ℕ) : ℕ :=
  let first := idSize (BitVec.ofNat 8 (numberAt buffer pos 1))
  first + idSize (BitVec.ofNat 8 (numberAt buffer (pos + first) 1))

/-- The length of a membership id as the `size_t` that is copied. -/
def clientIdSize (buffer : List (BitVec 8)) (pos : ℕ) : ℕ :=
  (BitVec.ofInt 64 (arrayLengthAt buffer pos).1).toNat

/-- The position behind the membership id. -/
def clientIdEnd (buffer : List (BitVec 8)) (pos : ℕ) : ℕ :=
  (arrayLengthAt buffer pos).2 + clientIdSize buffer pos

/-- What the bytes at the cursor must be like: a membership id that is there has at most 512 bytes,
and if everything is there, then the array behind it is as long as the codes in it say. -/
def Fits (s : DataInput) : Prop :=
  let idEnd := clientIdEnd s.buffer s.offset.toNat
  let array := arrayLengthAt s.buffer idEnd
  (idEnd ≤ s.buffer.length → clientIdSize s.buffer s.offset.toNat ≤ 512) ∧
    (array.2 + idsSize s.buffer array.2 + 5 ≤ s.buffer.length →
      idsSize s.buffer array.2 ≤ array.1)

def bytes (e : EventId) : List (BitVec 8) :=
  arrayLenBytes (BitVec.ofNat 32 e.clientId.length) ++ (e.clientId ++ (arrayLenBytes 18 ++
    ([3] ++ (bytesOfNat 8 e.threadId.toNat ++ ([3] ++ (bytesOfNat 8 e.sequenceId.toNat ++
      (bytesOfNat 4 e.bucketId.toNat ++ [e.breadcrumbCounter])))))))

variable {s s' : DataInput} {e : EventId} {n : ℕ}

/-! ## Bounds -/

/-- The check and the copy of `readBytesOnly`, for a cursor in the buffer. -/
lemma run_readBytesOnly (len : BitVec 64) (hs : s.offset.toNat ≤ s.buffer.length) :
    (readBytesOnly len).run s = if s.offset.toNat + len.toNat ≤ s.buffer.length then
      .ok ((s.buffer.drop s.offset.toNat).take len.toNat) { s with offset := s.offset + len }
    else .error .outOfRange s := by
  have hcheck := (at_offset hs).lt_iff len
  change (if len > 0 then do checkBufferSize len; copyBytes len else pure []).run s = _
  unfold checkBufferSize copyBytes
  by_cases hlen : len > 0
  · rw [if_pos hlen, run_bind, run_get_bind]
    by_cases hle : s.offset.toNat + len.toNat ≤ s.buffer.length
    · rw [if_neg (fun h => absurd (hcheck.mp h) (by omega)), if_pos hle]
      change EStateM.run (get >>= _) s = _
      rw [run_get_bind, if_pos hle]
      rfl
    · rw [if_pos (hcheck.mpr (by omega)), if_neg hle]
      rfl
  · obtain rfl : len = 0 := by
      rw [gt_iff_lt, BitVec.lt_def] at hlen
      exact BitVec.eq_of_toNat_eq (by simpa using hlen)
    rw [if_neg hlen, if_pos (by simpa using hs)]
    simp

/-- From a position a method returns, with a value and a position related by `Q`. -/
def Returns {α : Type} (buffer : List (BitVec 8)) (pos : ℕ) (m : ReadM α) (Q : α → ℕ → Prop) :
    Prop :=
  Meets (At buffer pos) m (fun a s => ∃ pos', At buffer pos' s ∧ Q a pos') fun _ _ => False

section Returns

variable {buffer : List (BitVec 8)} {pos w : ℕ} {α β : Type} {m : ReadM α} {Q : α → ℕ → Prop}
  {size : BitVec 64}

lemma Returns.pure {a : α} (h : Q a pos) : Returns buffer pos (pure a) Q :=
  Meets.pure fun _ hs => ⟨pos, hs, h⟩

/-- The sequencing rule for methods that do not throw. -/
lemma Returns.bind {f : α → ReadM β} {R : β → ℕ → Prop} (hm : Returns buffer pos m Q)
    (hf : ∀ a pos', Q a pos' → Returns buffer pos' (f a) R) : Returns buffer pos (m >>= f) R :=
  Meets.bind hm fun a => Meets.exists fun pos' => Meets.assume fun hq => hf a pos' hq

/-- A method that returns does so with what it reads. -/
lemma Returns.of_readsTo {R : α → ℕ → Prop} (h : Returns buffer pos m R)
    (hread : ReadsTo buffer pos m Q) : Returns buffer pos m Q := by
  intro s hs
  have hout := hread s hs
  have hok := h s hs
  cases hrun : m.run s with
  | ok =>
    rw [hrun] at hout
    exact hout
  | error =>
    rw [hrun] at hok
    exact hok.elim

/-- The run of a method that returns. -/
lemma Returns.exists_run (h : Returns buffer pos m Q)
    (hs : At buffer pos s) : ∃ a s' pos', m.run s = .ok a s' ∧ At buffer pos' s' ∧ Q a pos' := by
  have hout := h s hs
  cases hrun : m.run s with
  | ok a s' =>
    rw [hrun] at hout
    obtain ⟨pos', hat, hq⟩ := hout
    exact ⟨a, s', pos', rfl, hat, hq⟩
  | error =>
    rw [hrun] at hout
    exact hout.elim

/-- Where the cursor is after a method that returned. -/
lemma at_of_run {a : α} (h : ReadsTo buffer pos m Q)
    (hs : At buffer pos s) (hrun : m.run s = .ok a s') : ∃ pos', At buffer pos' s' ∧ Q a pos' := by
  have hout := h s hs
  rwa [hrun] at hout

/-- A method that returns stays in the buffer. -/
lemma Returns.readsTo (h : Returns buffer pos m Q) :
    ReadsTo buffer pos m Q := by
  intro s hs
  have hout := h s hs
  cases hrun : m.run s with
  | ok => rwa [hrun] at hout
  | error => rw [hrun] at hout; exact hout.elim

lemma readNoCheck_returns (h : pos + 1 ≤ buffer.length) :
    Returns buffer pos readNoCheck fun _ pos' => pos' = pos + 1 := by
  intro s hs
  have hbyte : s.buffer[s.offset.toNat]? = some (buffer.get ⟨pos, h⟩) := by
    rw [hs.buffer_eq, hs.offset_eq]
    exact List.getElem?_eq_getElem h
  rw [readNoCheck, run_get_bind, hbyte]
  exact ⟨pos + 1, hs.add (n := 1) h, rfl⟩

/-- A number is read if its bytes are there. -/
lemma readBigEndian_returns {n : ℕ} {acc : BitVec w} (h : pos + n ≤ buffer.length) :
    Returns buffer pos (readBigEndian n acc) fun _ pos' => pos' = pos + n := by
  induction n generalizing pos acc with
  | zero => exact .pure rfl
  | succ n ih =>
    refine (readNoCheck_returns (by omega)).bind ?_
    rintro b _ rfl
    have hrest : Returns buffer (pos + 1) (readBigEndian n (pushByte acc b)) _ := ih (by omega)
    rwa [Nat.add_assoc, Nat.add_comm 1] at hrest

/-- With so many bytes left the check passes. -/
lemma checked_returns (hsize : pos + size.toNat ≤ buffer.length) (hm : Returns buffer pos m Q) :
    Returns buffer pos (do checkBufferSize size; m) Q := by
  intro s hs
  have hcheck : ¬ s.bufferLength - s.offset < size := fun h =>
    absurd ((hs.lt_iff size).mp h) (by omega)
  have hrun : (checkBufferSize size).run s = .ok () s := by
    rw [checkBufferSize, run_get_bind, if_neg hcheck]
    rfl
  rw [run_bind_of_ok hrun]
  exact hm s hs

lemma readInt16_returns (h : pos + 2 ≤ buffer.length) :
    Returns buffer pos readInt16 fun _ pos' => pos' = pos + 2 :=
  checked_returns h (readBigEndian_returns h)

lemma readInt32_returns (h : pos + 4 ≤ buffer.length) :
    Returns buffer pos readInt32 fun _ pos' => pos' = pos + 4 :=
  checked_returns h (readBigEndian_returns h)

lemma readInt64_returns (h : pos + 8 ≤ buffer.length) :
    Returns buffer pos readInt64 fun _ pos' => pos' = pos + 8 :=
  checked_returns h (readBigEndian_returns h)

lemma read_returns (h : pos + 1 ≤ buffer.length) :
    Returns buffer pos read fun b pos' => pos' = pos + 1 ∧ b.toNat = numberAt buffer pos 1 :=
  (checked_returns h (readNoCheck_returns h)).of_readsTo read_readsTo

/-- The length of an array is read if its bytes are there. -/
lemma readArrayLength_returns (h : (arrayLengthAt buffer pos).2 ≤ buffer.length) :
    Returns buffer pos readArrayLength fun length pos' =>
      (length, pos') = arrayLengthAt buffer pos := by
  have hcode : pos + 1 ≤ buffer.length := by
    unfold arrayLengthAt at h
    dsimp only at h
    split_ifs at h <;> dsimp only at h <;> omega
  suffices Returns buffer pos readArrayLength fun _ _ => True from
    this.of_readsTo readArrayLength_readsTo
  refine (read_returns hcode).bind ?_
  rintro code _ ⟨rfl, hcode⟩
  unfold arrayLengthAt at h
  rw [← hcode] at h
  split_ifs with hff hbig hfe hfd
  · exact .pure trivial
  · rw [hfe] at h
    exact (readInt16_returns h).bind fun _ _ _ => .pure trivial
  · rw [hfd] at h
    exact (readInt32_returns h).bind fun _ _ _ => .pure trivial
  · -- above 252 there is no other code
    have hlt := code.isLt
    have hne (k : BitVec 8) (hk : ¬ code = k) : code.toNat ≠ k.toNat := fun he =>
      hk (BitVec.eq_of_toNat_eq he)
    have hne₁ : code.toNat ≠ 255 := hne 0xFF hff
    have hne₂ : code.toNat ≠ 254 := hne 0xFE hfe
    have hne₃ : code.toNat ≠ 253 := hne 0xFD hfd
    omega
  · exact .pure trivial

/-- The code tells how far a number goes. -/
lemma getEventIdData_readsTo (numberCode : BitVec 8) :
    ReadsTo buffer (pos + 1) (getEventIdData numberCode) fun _ pos' =>
      pos' = pos + idSize numberCode := by
  unfold getEventIdData idSize
  split_ifs
  · exact read_readsTo.bind fun _ _ h => .pure h.1
  · exact readInt16_readsTo.bind fun _ _ h => .pure h.1
  · exact readInt32_readsTo.bind fun _ _ h => .pure h.1
  · exact checked_readsTo fun hle =>
      (readBigEndian_zero_readsTo (by decide) hle).mono fun _ _ h => h.1
  · exact .pure rfl

/-- The code of an id announces how many bytes it takes. -/
lemma getEventIdData_returns {numberCode : BitVec 8} (h : pos + idSize numberCode ≤ buffer.length) :
    Returns buffer (pos + 1) (getEventIdData numberCode) fun _ pos' =>
      pos' = pos + idSize numberCode := by
  suffices Returns buffer (pos + 1) (getEventIdData numberCode) fun _ _ => True from
    this.of_readsTo (getEventIdData_readsTo numberCode)
  unfold idSize at h
  unfold getEventIdData
  split_ifs at h ⊢
  · exact (read_returns h).bind fun _ _ _ => .pure trivial
  · exact (readInt16_returns h).bind fun _ _ _ => .pure trivial
  · exact (readInt32_returns h).bind fun _ _ _ => .pure trivial
  · exact (readInt64_returns h).of_readsTo (safeRules.readInt64 _ _)
  · exact .pure trivial

/-- The code that was read is the one in the buffer. -/
lemma ofNat_code {code : BitVec 8} {n : ℕ} (h : code.toNat = n) : BitVec.ofNat 8 n = code := by
  rw [← h, BitVec.ofNat_toNat, BitVec.setWidth_eq]

/-- The codes tell how far the ids go. -/
lemma readIds_readsTo :
    ReadsTo buffer pos readIds fun _ pos' => pos' = pos + idsSize buffer pos := by
  refine read_readsTo.bind ?_
  rintro _ _ ⟨rfl, hfirst⟩
  refine (getEventIdData_readsTo _).bind ?_
  rintro _ _ rfl
  refine read_readsTo.bind ?_
  rintro _ _ ⟨rfl, hsecond⟩
  refine (getEventIdData_readsTo _).bind ?_
  rintro _ _ rfl
  refine .pure ?_
  simp only [idsSize, ofNat_code hfirst, ofNat_code hsecond, Nat.add_assoc]

/-- The ids are read if there are as many bytes as their codes say. -/
lemma readIds_returns (h : pos + idsSize buffer pos ≤ buffer.length) :
    Returns buffer pos readIds fun _ pos' => pos' = pos + idsSize buffer pos := by
  have hpos (code : BitVec 8) : 1 ≤ idSize code := by
    unfold idSize
    split_ifs <;> omega
  have hfirst := hpos (BitVec.ofNat 8 (numberAt buffer pos 1))
  have hsecond := hpos (BitVec.ofNat 8
    (numberAt buffer (pos + idSize (BitVec.ofNat 8 (numberAt buffer pos 1))) 1))
  suffices Returns buffer pos readIds fun _ _ => True from this.of_readsTo readIds_readsTo
  unfold idsSize at h
  dsimp only at h
  refine (read_returns (by omega)).bind ?_
  rintro code _ ⟨rfl, hcode⟩
  rw [ofNat_code hcode] at h hfirst hsecond
  refine (getEventIdData_returns (by omega)).bind ?_
  rintro _ _ rfl
  refine (read_returns (by omega)).bind ?_
  rintro code' _ ⟨rfl, hcode'⟩
  rw [ofNat_code hcode'] at h
  exact (getEventIdData_returns (by omega)).bind fun _ _ _ => .pure trivial

/-- The bucket and the breadcrumb counter. -/
lemma readTail_readsTo (head : List (BitVec 8) × ℤ) (ids : BitVec 64 × BitVec 64) :
    ReadsTo buffer pos (readTail head ids) fun _ pos' => pos' = pos + 5 := by
  refine readInt32_readsTo.bind ?_
  rintro _ _ ⟨rfl, -⟩
  exact read_readsTo.bind fun _ _ h => .pure h.1

lemma readTail_returns (head : List (BitVec 8) × ℤ) (ids : BitVec 64 × BitVec 64)
    (h : pos + 5 ≤ buffer.length) :
    Returns buffer pos (readTail head ids) fun _ pos' => pos' = pos + 5 := by
  refine (readInt32_returns (by omega)).bind ?_
  rintro _ _ rfl
  exact (read_returns h).bind fun _ _ h => .pure h.1

end Returns

section Head

variable {buffer : List (BitVec 8)} {pos : ℕ}

/-- What copying a membership id comes to: it is not all there, it is too long, or it is copied. -/
lemma run_readClientId {n : ℤ} {size : ℕ} (hsize : (BitVec.ofInt 64 n).toNat = size)
    (hs : At buffer pos s) :
    (buffer.length < pos + size → (readClientId n).run s = .error .outOfRange s) ∧
    (pos + size ≤ buffer.length → 512 < size →
      ∃ s', (readClientId n).run s = .error .outOfBounds s') ∧
    (pos + size ≤ buffer.length → size ≤ 512 →
      ∃ clientId s', (readClientId n).run s = .ok clientId s' ∧ At buffer (pos + size) s') := by
  subst hsize
  obtain ⟨rfl, rfl, hle⟩ := hs
  rw [readClientId, run_bind, run_readBytesOnly _ hle]
  refine ⟨fun h => by rw [if_neg (by omega)], fun h hlong => ?_, fun h hfits => ?_⟩
  · rw [if_pos h]
    dsimp only
    rw [if_neg (by rw [List.length_take, List.length_drop]; omega)]
    exact ⟨_, rfl⟩
  · rw [if_pos h]
    dsimp only
    rw [if_pos (by rw [List.length_take]; omega)]
    exact ⟨_, _, rfl, (at_offset hle).add h⟩

/-- A membership id that is not all there is refused. -/
lemma readHead_of_lt (h : buffer.length < clientIdEnd buffer pos) :
    ReadsTo buffer pos readHead fun _ _ => False := by
  refine readArrayLength_readsTo.bind fun length pos' heq => ?_
  obtain ⟨rfl, rfl⟩ := Prod.ext_iff.mp heq
  refine ReadsTo.bind (Q := fun _ _ => False) (fun s hs => ?_) fun _ _ h => h.elim
  rw [(run_readClientId rfl hs).1 h]
  exact ⟨by decide, _, hs⟩

/-- One that is there and too long is written behind `clientId_`. -/
lemma readHead_of_long (hle : clientIdEnd buffer pos ≤ buffer.length)
    (hlong : 512 < clientIdSize buffer pos) (hs : At buffer pos s) :
    ∃ s', readHead.run s = .error .outOfBounds s' := by
  obtain ⟨length, t, pos', hrun, ht, heq⟩ :=
    (readArrayLength_returns (le_trans (Nat.le_add_right _ _) hle)).exists_run hs
  obtain ⟨rfl, rfl⟩ := Prod.ext_iff.mp heq
  obtain ⟨s', hclient⟩ := (run_readClientId rfl ht).2.1 hle hlong
  exact ⟨s', by rw [readHead, run_bind_of_ok hrun, run_bind_of_error hclient]⟩

/-- One that fits is read. -/
lemma readClientId_returns (hle : clientIdEnd buffer pos ≤ buffer.length)
    (hfits : clientIdSize buffer pos ≤ 512) :
    Returns buffer (arrayLengthAt buffer pos).2 (readClientId (arrayLengthAt buffer pos).1)
      fun _ pos' => pos' = clientIdEnd buffer pos := by
  intro s hs
  obtain ⟨_, _, hrun, hat⟩ := (run_readClientId rfl hs).2.2 hle hfits
  rw [hrun]
  exact ⟨_, hat, rfl⟩

/-- Behind a membership id that fits comes the length of the array. -/
lemma readHead_readsTo (hle : clientIdEnd buffer pos ≤ buffer.length)
    (hfits : clientIdSize buffer pos ≤ 512) :
    ReadsTo buffer pos readHead fun head pos' =>
      (head.2, pos') = arrayLengthAt buffer (clientIdEnd buffer pos) := by
  refine readArrayLength_readsTo.bind fun length pos' heq => ?_
  obtain ⟨rfl, rfl⟩ := Prod.ext_iff.mp heq
  refine (readClientId_returns hle hfits).readsTo.bind ?_
  rintro _ _ rfl
  exact readArrayLength_readsTo.bind fun _ _ h => .pure h

/-- A member id that fits its array is read. -/
lemma readHead_returns (hle : clientIdEnd buffer pos ≤ buffer.length)
    (hfits : clientIdSize buffer pos ≤ 512)
    (hlength : (arrayLengthAt buffer (clientIdEnd buffer pos)).2 ≤ buffer.length) :
    Returns buffer pos readHead fun head pos' =>
      (head.2, pos') = arrayLengthAt buffer (clientIdEnd buffer pos) := by
  have hfirst : (arrayLengthAt buffer pos).2 ≤ buffer.length := le_trans (Nat.le_add_right _ _) hle
  refine (readArrayLength_returns hfirst).bind fun length pos' heq => ?_
  obtain ⟨rfl, rfl⟩ := Prod.ext_iff.mp heq
  refine (readClientId_returns hle hfits).bind ?_
  rintro _ _ rfl
  exact (readArrayLength_returns hlength).bind fun _ _ h => .pure h

end Head

/-- A length takes one byte at least. -/
lemma lt_arrayLengthAt (buffer : List (BitVec 8)) (pos : ℕ) :
    pos < (arrayLengthAt buffer pos).2 := by
  unfold arrayLengthAt
  dsimp only
  split_ifs <;> dsimp only <;> omega

/-- Decoding stays in bounds exactly if the two lengths fit. -/
lemma inBounds_iff (hs : s.offset.toNat ≤ s.buffer.length) : InBounds s ↔ Fits s := by
  have hat := at_offset hs
  unfold InBounds Fits
  dsimp only
  by_cases hle : clientIdEnd s.buffer s.offset.toNat ≤ s.buffer.length
  · by_cases hfits : clientIdSize s.buffer s.offset.toNat ≤ 512
    · have hhead := readHead_readsTo hle hfits
      have hreturns := readHead_returns hle hfits
      generalize arrayLengthAt s.buffer (clientIdEnd s.buffer s.offset.toNat) = array
        at hhead hreturns ⊢
      obtain ⟨length, start⟩ := array
      have hsafe : ReadsTo s.buffer s.offset.toNat fromData fun _ _ => True :=
        hhead.bind fun _ _ _ => readIds_readsTo.bind fun _ _ _ =>
          (readTail_readsTo _ _).mono fun _ _ _ => trivial
      refine and_congr (iff_of_true (fun s' hrun => ?_) fun _ => hfits) ⟨fun h hall => ?_,
        fun h e s' hrun head s₁ ids s₂ hrun₁ hrun₂ => ?_⟩
      · have hout := hsafe s hat
        rw [hrun] at hout
        exact hout.1 rfl
      · -- everything is there, so that the call returns
        dsimp only at hall hreturns
        obtain ⟨head, s₁, _, hrun₁, hat₁, heq⟩ := (hreturns (by omega)).exists_run hat
        obtain ⟨hlength, rfl⟩ := Prod.mk.inj heq
        obtain ⟨ids, s₂, _, hrun₂, hat₂, rfl⟩ := (readIds_returns (by omega)).exists_run hat₁
        obtain ⟨e, s', _, hrun₃, -, -⟩ :=
          (readTail_returns head ids hall).exists_run hat₂
        have hids := h e s' (by rw [fromData, run_bind_of_ok hrun₁, run_bind_of_ok hrun₂, hrun₃])
          head s₁ ids s₂ hrun₁ hrun₂
        rw [hat₁.offset_eq, hat₂.offset_eq, hlength] at hids
        dsimp only
        omega
      · obtain ⟨_, hat₁, heq⟩ := at_of_run hhead hat hrun₁
        obtain ⟨hlength, rfl⟩ := Prod.mk.inj heq
        obtain ⟨_, hat₂, rfl⟩ := at_of_run readIds_readsTo hat₁ hrun₂
        rw [fromData, run_bind_of_ok hrun₁, run_bind_of_ok hrun₂] at hrun
        obtain ⟨_, hat₃, rfl⟩ := at_of_run (readTail_readsTo head ids) hat₂ hrun
        have hids := h hat₃.le
        rw [hat₁.offset_eq, hat₂.offset_eq, hlength]
        dsimp only at hids
        omega
    · obtain ⟨s', hrun⟩ := readHead_of_long hle (by omega) hat
      exact iff_of_false (fun h => h.1 s' (run_bind_of_error hrun)) fun h => hfits (h.1 hle)
  · have hnot : ReadsTo s.buffer s.offset.toNat fromData fun _ _ => False :=
      (readHead_of_lt (by omega)).bind fun _ _ h => h.elim
    have hnext := lt_arrayLengthAt s.buffer (clientIdEnd s.buffer s.offset.toNat)
    refine iff_of_true ⟨fun s' hrun => ?_, fun e s' hrun => ?_⟩
      ⟨fun h => absurd h hle, fun h => by omega⟩
    · have hout := hnot s hat
      rw [hrun] at hout
      exact absurd rfl hout.1
    · obtain ⟨_, -, hfalse⟩ := at_of_run hnot hat hrun
      exact hfalse.elim

/-! ## Round trip -/

/-- A length that was written is read back. -/
lemma readArrayLength_consumes (hn : n ≤ 0xFFFF) :
    Consumes readArrayLength (arrayLenBytes (BitVec.ofNat 32 n)) n := by
  unfold readArrayLength DataSource.readArrayLength
  obtain ⟨_, hbytes⟩ | ⟨_, _, hbytes⟩ | ⟨_, _⟩ := TcrMessage.arrayLenBytes_cases (n := n) (by omega)
  · have hcode : (BitVec.ofNat 8 n).toNat = n := Nat.mod_eq_of_lt (by omega)
    have hne : BitVec.ofNat 8 n ≠ 0xFF := fun h => by
      have hnat : n = 255 := hcode.symm.trans (congrArg BitVec.toNat h)
      omega
    rw [hbytes, ← List.append_nil [_]]
    refine read_consumes.bind ?_
    rw [if_neg hne, if_neg (by omega), hcode]
    exact Consumes.pure
  · have h := (readInt16_consumes (v := n) (by omega)).map (f := fun v => (v.toNat : ℤ))
    rw [BitVec.toNat_ofNat, Nat.mod_eq_of_lt (by omega)] at h
    rw [hbytes]
    exact read_consumes.bind h
  · omega

/-- A membership id that fits is read back. -/
lemma readClientId_consumes {clientId : List (BitVec 8)} (h : clientId.length ≤ 512) :
    Consumes (readClientId clientId.length) clientId clientId := by
  intro s hs
  have hle := hs.length_le
  have hlt := s.length_lt
  by_cases hnil : clientId = []
  · subst hnil
    exact ⟨s, rfl, rfl, rfl⟩
  · have hpos := List.length_pos_iff.mpr hnil
    have hlen : (BitVec.ofInt 64 clientId.length).toNat = clientId.length := by
      rw [BitVec.ofInt_natCast, BitVec.toNat_ofNat]
      omega
    refine ⟨{ s with offset := s.offset + BitVec.ofInt 64 clientId.length }, ?_, rfl, ?_⟩
    · rw [readClientId, run_bind, run_readBytesOnly _ (by omega), hlen, if_pos (by omega),
        ← List.prefix_iff_eq_take.mp hs]
      dsimp only
      rw [if_pos h]
      rfl
    · rw [BitVec.toNat_add, hlen]
      exact Nat.mod_eq_of_lt (by omega)

lemma getEventIdData_consumes (v : BitVec 64) :
    Consumes (getEventIdData 3) (bytesOfNat 8 v.toNat) v := by
  have h := readBigEndian_bytesOfNat (w := 64) (n := 8) (by decide) v.isLt
  rw [BitVec.ofNat_toNat, BitVec.setWidth_eq] at h
  exact h.checked (by simp)

/-- What is read from the bytes of an event id. -/
lemma fromData_consumes (h : e.clientId.length ≤ 512) : Consumes fromData e.bytes e := by
  unfold fromData readHead readIds
  simp only [bind_assoc, pure_bind]
  have hbucket := readInt32_consumes e.bucketId.isLt
  rw [BitVec.ofNat_toNat, BitVec.setWidth_eq] at hbucket
  exact (readArrayLength_consumes (by omega)).bind <| (readClientId_consumes h).bind <|
    (readArrayLength_consumes (n := 18) (by omega)).bind <| read_consumes.bind <|
    (getEventIdData_consumes _).bind <| read_consumes.bind <|
    (getEventIdData_consumes _).bind <| hbucket.bind <| read_consumes.map

/-- The length of the id, and 24 bytes behind it. -/
lemma length_bytes (e : EventId) : e.bytes.length =
    (arrayLenBytes (BitVec.ofNat 32 e.clientId.length)).length + (e.clientId.length + 24) := by
  simp [bytes]
  rfl

/-- What is written are the bytes of the event id. -/
lemma toData_appends (h : e.clientId.length ≤ 512) : Appends e.toData e.bytes := by
  intro o ho
  have hnat : (BitVec.ofNat 32 e.clientId.length).toNat = e.clientId.length :=
    Nat.mod_eq_of_lt (by omega)
  have hint : (BitVec.ofNat 32 e.clientId.length).toInt = e.clientId.length := by
    rw [BitVec.toInt_eq_toNat_cond, hnat, if_pos (by omega)]
  have hall : (List.range e.clientId.length).map (fun i => e.clientId.getD i 0) = e.clientId :=
    List.ext_getElem (by simp) fun i hi hi' => by simp [hi']
  unfold toData writeBytes
  rw [hnat, if_pos (by omega), if_pos (by omega)]
  simp only [bind_assoc, hall]
  have hsize : (BitVec.ofNat 64 (e.clientId.length + 5)).toNat = e.clientId.length + 5 :=
    Nat.mod_eq_of_lt (by omega)
  have hlength := e.length_bytes
  refine AppendsAt.ensureCapacity_bind ho (by omega) (by omega) fun o₁ hgrown hroom => ?_
  refine (writeArrayLen_appends o₁ hgrown.sound).bind fun o₂ hlen => ?_
  have hoffset := hlen.offset_eq
  have hsize' := hlen.size_le
  have hle := length_arrayLenBytes_le (BitVec.ofNat 32 e.clientId.length)
  refine (writeAll_appendsAt hlen.sound (by omega)).bind fun o₃ hclient => ?_
  exact (writeArrayLen_appends.bind <| (write_appends 3).bind <| writeInt64_appends.bind <|
    (write_appends 3).bind <| writeInt64_appends.bind <| (writeInt32_appends _).bind <|
    write_appends _) o₃ hclient.sound

/-- Decoding stays in bounds exactly if no membership id that is there is longer than
`clientId_`, and the array of the ids is as long as their codes say; and an event id with a
membership id that fits is read back as it was written. -/
theorem fromData_spec (s : DataInput) (e : EventId) :
    (s.offset.toNat ≤ s.buffer.length → (InBounds s ↔ Fits s)) ∧
      (e.clientId.length ≤ 512 → RoundTrip e.toData fromData e) := by
  refine ⟨inBounds_iff, fun h => ?_⟩
  have hlength := e.length_bytes
  have hle := length_arrayLenBytes_le (BitVec.ofNat 32 e.clientId.length)
  exact RoundTrip.of_appends (toData_appends h) (by omega) (fromData_consumes h)

lemma length_longId_lt : (arrayLenBytes 513 ++ List.replicate 513 0).length < 2 ^ 64 := by
  rw [List.length_append, List.length_replicate]
  decide

/-- A membership id of 513 bytes. -/
def longId : DataInput := ⟨arrayLenBytes 513 ++ List.replicate 513 0, length_longId_lt, 0⟩

/-- An empty membership id, and an array of no bytes in front of the ids 1 and 2. -/
def shortArray : DataInput := ⟨[0, 0, 0, 1, 0, 2, 0, 0, 0, 3, 4], by decide, 0⟩

/-- A membership id is written behind `clientId_`, and ids are read behind their array. -/
theorem not_inBounds_longId : ¬ InBounds longId ∧ ¬ InBounds shortArray := by
  refine ⟨fun h => ?_, fun h => ?_⟩
  · obtain ⟨s', hrun, hbuffer, hoffset⟩ :=
      readArrayLength_consumes (n := 513) (by decide) longId (List.prefix_append _ _)
    obtain ⟨pos, hat, heq⟩ := at_of_run readArrayLength_readsTo (at_offset (Nat.zero_le _)) hrun
    have hfits := ((inBounds_iff (Nat.zero_le _)).mp h).1
    rw [clientIdEnd, clientIdSize, ← heq, ← hat.offset_eq, hoffset] at hfits
    refine absurd (hfits ?_) (by decide)
    rw [longId, List.length_append, List.length_replicate]
    decide
  · have hfits := ((inBounds_iff (Nat.zero_le _)).mp h).2
    revert hfits
    decide

end EventId

end GeodeNative
