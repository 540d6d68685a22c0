import Mathlib.Data.BitVec
import Mathlib.Tactic.Ring

/-!
# Big-endian numbers

The number that a list of bytes stands for, the bytes of a number, and the loop that
shifts the bytes read so far and puts the next one below them.
-/

namespace GeodeNative

open List Nat

section Bytes

variable (bs : List (BitVec 8))

/-- The number that bytes stand for, the most significant first. -/
def natOfBytes (bs : List (BitVec 8)) : ℕ :=
  bs.foldl (fun acc b => acc * 256 + b.toNat) 0

/-- The `n` low bytes of a number, the most significant first. -/
def bytesOfNat : ℕ → ℕ → List (BitVec 8)
  | 0, _ => []
  | n + 1, v => bytesOfNat n (v / 256) ++ [BitVec.ofNat 8 v]

@[simp] lemma natOfBytes_nil : natOfBytes [] = 0 := rfl

/-- A byte more shifts the number by eight bits. -/
@[simp] lemma natOfBytes_append_singleton (b : BitVec 8) :
    natOfBytes (bs ++ [b]) = natOfBytes bs * 256 + b.toNat := by
  simp [natOfBytes]

@[simp] lemma length_bytesOfNat {n v : ℕ} : (bytesOfNat n v).length = n := by
  induction n generalizing v with
  | zero => rfl
  | succ _ ih => simp [bytesOfNat, ih]

/-- A number that fits is read back from its bytes. -/
lemma natOfBytes_bytesOfNat {n v : ℕ} (h : v < 256 ^ n) : natOfBytes (bytesOfNat n v) = v := by
  induction n generalizing v with
  | zero =>
    rw [pow_zero, lt_one_iff] at h
    rw [h]
    rfl
  | succ n ih =>
    have hdiv : v / 256 < 256 ^ n := by
      rw [div_lt_iff_lt_mul (by decide)]
      rwa [pow_succ] at h
    rw [bytesOfNat, natOfBytes_append_singleton, ih hdiv, BitVec.toNat_ofNat]
    omega

/-- A number of `n` bytes is below `256 ^ n`. -/
lemma natOfBytes_lt : natOfBytes bs < 256 ^ bs.length := by
  induction bs using reverseRecOn with
  | nil => simp
  | append_singleton =>
    rw [natOfBytes_append_singleton, length_append, length_singleton, pow_succ]
    omega

/-- One turn of the loop that reads a number byte by byte. -/
def pushByte {w : ℕ} (acc : BitVec w) (b : BitVec 8) : BitVec w :=
  (acc <<< 8) ||| b.setWidth w

/-- Shifting in a byte loses nothing while there is room. -/
lemma toNat_pushByte {w : ℕ} {acc : BitVec w} (hw : 8 ≤ w) (h : acc.toNat * 256 < 2 ^ w)
    (b : BitVec 8) : (pushByte acc b).toNat = acc.toNat * 256 + b.toNat := by
  have hb : b.toNat < 2 ^ w := b.isLt.trans_le (Nat.pow_le_pow_right (by decide) hw)
  have hshift : acc.toNat <<< 8 = acc.toNat * 256 := shiftLeft_eq _ _
  unfold pushByte
  rw [BitVec.toNat_or, BitVec.toNat_shiftLeft, BitVec.toNat_setWidth, mod_eq_of_lt hb, hshift,
    mod_eq_of_lt h, ← hshift, ← shiftLeft_add_eq_or_of_lt b.isLt]

/-- The loop reads the number that the bytes stand for, if it is wide enough. -/
lemma toNat_foldl_pushByte {w : ℕ} (h : 8 * bs.length ≤ w) :
    (bs.foldl pushByte (0 : BitVec w)).toNat = natOfBytes bs := by
  induction bs using reverseRecOn with
  | nil => simp
  | append_singleton bs _ ih =>
    rw [length_append, length_singleton] at h
    have hacc := ih (by omega)
    have hlt : natOfBytes bs * 256 < 2 ^ w := by
      calc natOfBytes bs * 256 < 256 ^ bs.length * 256 :=
            mul_lt_mul_of_pos_right (natOfBytes_lt bs) (by decide)
        _ = 2 ^ (8 * (bs.length + 1)) := by rw [← pow_succ, pow_mul]; norm_num
        _ ≤ 2 ^ w := Nat.pow_le_pow_right (by decide) h
    rw [foldl_append, foldl_cons, foldl_nil, toNat_pushByte (by omega) (by rwa [hacc]),
      hacc, natOfBytes_append_singleton]

end Bytes

end GeodeNative
