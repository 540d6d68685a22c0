import Mathlib.Algebra.BigOperators.Group.List.Basic
import GeodeNative.Library.Bytes

/-!
# Framed parts

A part is a length in four bytes, a flag and as many bytes as the length says. A sequence of
parts is read from its bytes part by part; `takeParts_eq_some_iff` says that the bytes have to be
the encodings of the parts one behind the other, with nothing left.
-/

namespace GeodeNative

open List BitVec Nat

structure FramedPart where
  flag : BitVec 8
  payload : List (BitVec 8)
  deriving DecidableEq, Repr

open FramedPart

variable {parts : List FramedPart} {part : FramedPart}

namespace FramedPart

def encode (part : FramedPart) : List (BitVec 8) :=
  bytesOfNat 4 part.payload.length ++ part.flag :: part.payload

/-- A part has a header of five bytes. -/
@[simp] lemma length_encode (part : FramedPart) : part.encode.length = part.payload.length + 5 := by
  simp [encode]
  omega

/-- The bytes of parts one behind the other. -/
def encodeAll (parts : List FramedPart) : List (BitVec 8) :=
  parts.flatMap encode

@[simp] lemma encodeAll_nil : encodeAll [] = [] := rfl

@[simp] lemma encodeAll_cons (part : FramedPart) (parts : List FramedPart) :
    encodeAll (part :: parts) = part.encode ++ encodeAll parts := rfl

@[simp] lemma encodeAll_append (parts parts' : List FramedPart) :
    encodeAll (parts ++ parts') = encodeAll parts ++ encodeAll parts' :=
  flatMap_append

/-- Each part takes five bytes or more. -/
lemma length_mul_le (parts : List FramedPart) : parts.length * 5 ≤ (encodeAll parts).length := by
  induction parts with
  | nil => simp
  | cons =>
    rw [encodeAll_cons, length_append, length_encode, length_cons]
    omega

/-- A part is no longer than all parts together. -/
lemma length_encode_le (h : part ∈ parts) : part.encode.length ≤ (encodeAll parts).length := by
  obtain ⟨_, _, rfl⟩ := append_of_mem h
  rw [encodeAll_append, encodeAll_cons, length_append, length_append]
  omega

end FramedPart

variable {bytes : List (BitVec 8)}

/-- The low bytes of a number are those of its remainder. -/
lemma bytesOfNat_mod {n v : ℕ} : bytesOfNat n (v % 256 ^ n) = bytesOfNat n v := by
  induction n generalizing v with
  | zero => rfl
  | succ n ih =>
    have hbyte : BitVec.ofNat 8 (v % 256 ^ (n + 1)) = BitVec.ofNat 8 v := by
      apply eq_of_toNat_eq
      rw [pow_succ']
      exact mod_mul_right_mod _ _ _
    rw [bytesOfNat, bytesOfNat, pow_succ', mod_mul_right_div_self, ih, ← pow_succ', hbyte]

/-- Bytes are the bytes of the number that they stand for. -/
lemma bytesOfNat_natOfBytes (bs : List (BitVec 8)) : bytesOfNat bs.length (natOfBytes bs) = bs := by
  induction bs using reverseRecOn with
  | nil => rfl
  | append_singleton bs b ih =>
    have hdiv : (natOfBytes bs * 256 + b.toNat) / 256 = natOfBytes bs := by omega
    have hbyte : BitVec.ofNat 8 (natOfBytes bs * 256 + b.toNat) = b := by
      apply eq_of_toNat_eq
      rw [toNat_ofNat]
      omega
    rw [natOfBytes_append_singleton, length_append, length_singleton, bytesOfNat, hdiv, ih, hbyte]

/-- The signed number that four bytes stand for. -/
def signedOfBytes (bytes : List (BitVec 8)) : ℤ :=
  (BitVec.ofNat 32 (natOfBytes bytes)).toInt

/-- Four bytes are read as a signed number. -/
lemma signedOfBytes_bytesOfNat (v : ℕ) :
    signedOfBytes (bytesOfNat 4 v) = (BitVec.ofNat 32 v).toInt := by
  rw [signedOfBytes, ← bytesOfNat_mod, natOfBytes_bytesOfNat (Nat.mod_lt _ (by decide))]
  congr 1
  apply eq_of_toNat_eq
  exact mod_mod _ _

/-- A signed number of 32 bits is the number itself exactly below `2 ^ 31`. -/
lemma toInt_ofNat_eq_iff (v : ℕ) : (BitVec.ofNat 32 v).toInt = v ↔ v < 2 ^ 31 := by
  rw [toInt_eq_toNat_cond, toNat_ofNat]
  split <;> omega

/-- A length that is not negative is read as it was written. -/
lemma signedOfBytes_nonneg (hlength : bytes.length = 4) (h : 0 ≤ signedOfBytes bytes) :
    signedOfBytes bytes = natOfBytes bytes ∧ natOfBytes bytes < 2 ^ 31 := by
  have hlt := natOfBytes_lt bytes
  rw [hlength] at hlt
  rw [signedOfBytes, toInt_eq_toNat_cond, toNat_ofNat] at h ⊢
  split at h <;> omega

/-- Reads the first part. -/
def takePart (bytes : List (BitVec 8)) : Option (FramedPart × List (BitVec 8)) :=
  match bytes.drop 4 with
  | [] => none
  | flag :: rest =>
    let len := signedOfBytes (bytes.take 4)
    if 0 ≤ len ∧ len ≤ rest.length then
      some (⟨flag, rest.take len.toNat⟩, rest.drop len.toNat)
    else
      none

/-- Reads as many parts as asked for, with nothing left. -/
def takeParts : ℕ → List (BitVec 8) → Option (List FramedPart)
  | 0, [] => some []
  | 0, _ :: _ => none
  | n + 1, bytes =>
    match takePart bytes with
    | none => none
    | some (part, rest) => (takeParts n rest).map (part :: ·)

/-- A part is read back in front of whatever follows. -/
lemma takePart_encode_append (h : part.payload.length < 2 ^ 31)
    (rest : List (BitVec 8)) : takePart (part.encode ++ rest) = some (part, rest) := by
  have hdrop : (part.encode ++ rest).drop 4 = part.flag :: (part.payload ++ rest) := by
    rfl
  have htake : (part.encode ++ rest).take 4 = bytesOfNat 4 part.payload.length := by
    rw [encode, List.append_assoc, List.take_left' length_bytesOfNat]
  have hlen : signedOfBytes (bytesOfNat 4 part.payload.length) = part.payload.length := by
    rw [signedOfBytes_bytesOfNat]
    exact (toInt_ofNat_eq_iff _).mpr h
  rw [takePart, hdrop, htake]
  dsimp only
  rw [hlen, if_pos ⟨by omega, by rw [length_append]; omega⟩, Int.toNat_natCast,
    take_left' rfl, drop_left' rfl]

/-- What is read as a part is the encoding of one. -/
lemma eq_encode_append_of_takePart {rest : List (BitVec 8)}
    (h : takePart bytes = some (part, rest)) :
    bytes = part.encode ++ rest ∧ part.payload.length < 2 ^ 31 := by
  unfold takePart at h
  split at h
  · cases h
  · rename_i flag tail hdrop
    have hlength : (bytes.take 4).length = 4 := by
      have hlen := congrArg length hdrop
      rw [length_drop, length_cons] at hlen
      rw [length_take]
      omega
    dsimp only at h
    split at h
    · rename_i hlen
      cases h
      obtain ⟨heq, hlt⟩ := signedOfBytes_nonneg hlength hlen.1
      have hle : natOfBytes (bytes.take 4) ≤ tail.length := by
        omega
      have hpayload : (tail.take (signedOfBytes (bytes.take 4)).toNat).length =
          natOfBytes (bytes.take 4) := by
        rw [heq, Int.toNat_natCast, length_take, min_eq_left hle]
      refine ⟨?_, by rw [hpayload]; exact hlt⟩
      have hbytes := bytesOfNat_natOfBytes (bytes.take 4)
      rw [hlength] at hbytes
      rw [encode, hpayload, hbytes, List.append_assoc, List.cons_append,
        take_append_drop, ← hdrop, take_append_drop]
    · cases h

/-- Parts are read from bytes exactly when the bytes are their encodings. -/
theorem takeParts_eq_some_iff {n : ℕ} : takeParts n bytes = some parts ↔
      parts.length = n ∧ bytes = encodeAll parts ∧
        ∀ part ∈ parts, part.payload.length < 2 ^ 31 := by
  induction n generalizing bytes parts with
  | zero =>
    cases bytes with
    | nil =>
      rw [length_eq_zero_iff]
      constructor
      · rintro ⟨⟩
        exact ⟨rfl, rfl, nofun⟩
      · rintro ⟨rfl, -, -⟩
        rfl
    | cons =>
      refine ⟨nofun, ?_⟩
      rintro ⟨hlength, hbytes, -⟩
      rw [length_eq_zero_iff.mp hlength] at hbytes
      cases hbytes
  | succ _ ih =>
    constructor
    · intro h
      rw [takeParts] at h
      cases hpart : takePart bytes with
      | none =>
        rw [hpart] at h
        cases h
      | some =>
        rw [hpart] at h
        obtain ⟨_, hparts, rfl⟩ := Option.map_eq_some_iff.mp h
        obtain ⟨hlength, hrest, hshort⟩ := ih.mp hparts
        obtain ⟨hbytes, hlt⟩ := eq_encode_append_of_takePart hpart
        refine ⟨by rw [length_cons, hlength], ?_, forall_mem_cons.mpr ⟨hlt, hshort⟩⟩
        rw [encodeAll_cons, ← hrest]
        exact hbytes
    · rintro ⟨hlength, rfl, hshort⟩
      cases parts with
      | nil => cases hlength
      | cons =>
        obtain ⟨hlt, hshort'⟩ := forall_mem_cons.mp hshort
        rw [takeParts, encodeAll_cons, takePart_encode_append hlt]
        dsimp only
        rw [ih.mpr ⟨succ.inj hlength, rfl, hshort'⟩]
        rfl

end GeodeNative
