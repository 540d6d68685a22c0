import Mathlib.Data.List.Infix
import Mathlib.Data.Int.Order.Basic
import Mathlib.Order.Basic
import Mathlib.Data.Sign.Defs
import Mathlib.Algebra.Group.Int.Defs
import Mathlib.Algebra.Group.Nat.Defs

/-!
# The order of members

Versions of equal number are told apart by the members that made them.  `compareTo` orders two
members by their ports, addresses and unique tags or view ids; the member list identifies a member
by a text, its hash key, in which the name of the distributed system takes part as well.  The loop
over the address is bounded by the length of the first one alone, members without an address are
equal if their ports are, and what `std::string::compare` returns is narrowed to 16 bits.

Texts are lists of bytes.
-/

namespace GeodeNative

/-- What a `ClientProxyMembershipID` holds of a member. -/
structure ClientProxyMembershipID where
  hostAddr : List (BitVec 8)
  hostPort : BitVec 32
  dsName : List (BitVec 8)
  uniqueTag : List (BitVec 8)
  vmViewId : BitVec 32
  deriving DecidableEq

/-- What a `const char*` keeps of a text. -/
def cString (text : List (BitVec 8)) : List (BitVec 8) := text.takeWhile (· ≠ 0)

/-- The digits of a number, `std::to_string`. -/
def decimalText (n : ℕ) : List (BitVec 8) :=
  (Nat.toDigits 10 n).map fun digit => BitVec.ofNat 8 digit.toNat

/-- What `std::string::compare` returns for a text that begins one which is longer by a number, as
an `int`. -/
def lessBy (n : ℕ) : ℤ := max (-2 ^ 31) (-n)

/-- What it returns for the longer one. -/
def moreBy (n : ℕ) : ℤ := min (2 ^ 31 - 1) n

/-- `std::string::compare`: the difference of the first bytes that differ, or else that of the
lengths. -/
def stringCompare : List (BitVec 8) → List (BitVec 8) → ℤ
  | [], ys => lessBy ys.length
  | xs, [] => moreBy xs.length
  | x :: xs, y :: ys => if x = y then stringCompare xs ys else x.toNat - y.toNat

/-- Compares two numbers. -/
def compareNumbers (x y : ℕ) : ℤ :=
  if x < y then -1 else if x > y then 1 else 0

/-- The loop over the bytes of the first address; `none` where it reads past the second. -/
def compareAddresses : List (BitVec 8) → List (BitVec 8) → Option ℤ
  | [], _ => some 0
  | _ :: _, [] => none
  | x :: xs, y :: ys =>
    if x = y then compareAddresses xs ys else some (compareNumbers x.toNat y.toNat)

namespace ClientProxyMembershipID

/-- `ClientProxyMembershipID::readEssentialData`, from what is read of the input: members of the
loner kind have a unique tag, others a view id, which `std::stoi` may refuse. -/
def readEssentialData (hostAddress : List (BitVec 8)) (hostPort : BitVec 32) (vmKind : BitVec 8)
    (text dsName : List (BitVec 8)) (stoi : List (BitVec 8) → Option (BitVec 32)) :
    Option ClientProxyMembershipID :=
  if vmKind = 13 then some ⟨hostAddress, hostPort, cString dsName, cString text, 0⟩
  else (stoi text).map fun vmViewId => ⟨hostAddress, hostPort, cString dsName, [], vmViewId⟩

section

variable (a b c : ClientProxyMembershipID)

/-- The hash key that `initObjectVars` makes, with colons between the parts. -/
def hashKey : List (BitVec 8) :=
  a.hostAddr.flatMap (fun byte => 58 :: decimalText byte.toNat) ++
    58 :: decimalText a.hostPort.toNat ++ 58 :: a.dsName ++
    58 :: if a.uniqueTag ≠ [] then a.uniqueTag else 58 :: decimalText a.vmViewId.toNat

/-- The comparison of unique tags or view ids, narrowed to an `int16_t`. -/
def compareTags : ℤ :=
  if a.uniqueTag = [] ∧ b.uniqueTag = [] then compareNumbers a.vmViewId.toNat b.vmViewId.toNat
  else if a.uniqueTag = [] then -1
  else if b.uniqueTag = [] then 1
  else (stringCompare a.uniqueTag b.uniqueTag).bmod (2 ^ 16)

/-- `ClientProxyMembershipID::compareTo`; `none` where it reads past an address. -/
def compareTo : Option ℤ :=
  if a.hostPort ≠ b.hostPort then some (compareNumbers a.hostPort.toNat b.hostPort.toNat)
  else if a.hostAddr = [] ∧ b.hostAddr = [] then some 0
  else if a.hostAddr = [] then some (-1)
  else if b.hostAddr = [] then some 1
  else (compareAddresses a.hostAddr b.hostAddr).map fun i => if i = 0 then compareTags a b else i

/-- The comparison of two members is defined both ways, antisymmetric and zero exactly for equal
hash keys. -/
def Lawful : Prop :=
  ∃ i j, a.compareTo b = some i ∧ b.compareTo a = some j ∧ i.sign = -j.sign ∧
    (i = 0 ↔ a.hashKey = b.hashKey)

/-- The comparisons of three members are transitive, where they are defined. -/
def Transitive : Prop :=
  ∀ i j k, a.compareTo b = some i → b.compareTo c = some j → a.compareTo c = some k →
    i ≤ 0 → j ≤ 0 → k ≤ 0

/-- The address of the second member ends within that of the first. -/
def Overruns : Prop :=
  a.hostPort = b.hostPort ∧ b.hostAddr ≠ [] ∧ b.hostAddr <+: a.hostAddr ∧ b.hostAddr ≠ a.hostAddr

/-- Members of the same port and address. -/
def SameHost : Prop :=
  a.hostPort = b.hostPort ∧ a.hostAddr = b.hostAddr ∧ a.hostAddr ≠ []

/-- The tag of the first member begins the tag of the second, which is longer by a number with a
property. -/
def TagLonger (P : ℕ → Prop) : Prop :=
  a.uniqueTag ≠ [] ∧ ∃ more, more ≠ [] ∧ b.uniqueTag = a.uniqueTag ++ more ∧ P more.length

/-- A difference of lengths that 16 bits turn round in one direction only. -/
def Crossed (n : ℕ) : Prop := 2 ^ 31 ≤ n ∨ n % 2 ^ 16 = 2 ^ 15

/-- A difference of lengths that is zero in 16 bits. -/
def Folded (n : ℕ) : Prop := n < 2 ^ 31 ∧ 2 ^ 16 ∣ n

/-- The same tag, or without one the same view id, or tags whose lengths differ by a number that is
zero in 16 bits. -/
def TagsAlike : Prop :=
  a.uniqueTag = b.uniqueTag ∧ (a.uniqueTag = [] → a.vmViewId = b.vmViewId) ∨
    TagLonger a b Folded ∨ TagLonger b a Folded

/-- Members that the order does not tell apart: of the same port, both without an address, or of the
same address and with tags that are alike. -/
def Alike : Prop :=
  a.hostPort = b.hostPort ∧ (a.hostAddr = [] ∧ b.hostAddr = [] ∨ SameHost a b ∧ TagsAlike a b)

/-- Neither address ends within the other, no tag of the same host is longer by a number that is
crossed, and members have the same hash key exactly if they are alike. -/
structure Ordered : Prop where
  overrun : ¬ Overruns a b ∧ ¬ Overruns b a
  crossed : SameHost a b → ¬ TagLonger a b Crossed ∧ ¬ TagLonger b a Crossed
  identified : a.hashKey = b.hashKey ↔ Alike a b

/-- Neither address ends within the other, and no tag is longer than one that begins it by so much
that 16 bits change the sign. -/
structure Plain : Prop where
  overrun : ¬ Overruns a b ∧ ¬ Overruns b a
  short : ¬ TagLonger a b (2 ^ 15 ≤ ·) ∧ ¬ TagLonger b a (2 ^ 15 ≤ ·)

end

/-! ## Texts -/

section

variable {xs ys zs : List (BitVec 8)} {i j : ℤ}

/-- Two texts are equal, one begins the other, or they differ in a byte. -/
lemma stringCompare_cases (xs ys : List (BitVec 8)) :
    xs = ys ∧ stringCompare xs ys = 0 ∧ stringCompare ys xs = 0 ∨
    (∃ more, more ≠ [] ∧ ys = xs ++ more ∧ stringCompare xs ys = lessBy more.length ∧
      stringCompare ys xs = moreBy more.length) ∨
    (∃ more, more ≠ [] ∧ xs = ys ++ more ∧ stringCompare ys xs = lessBy more.length ∧
      stringCompare xs ys = moreBy more.length) ∨
    ¬ xs <+: ys ∧ ¬ ys <+: xs ∧ stringCompare xs ys = -stringCompare ys xs ∧
      stringCompare xs ys ≠ 0 ∧ (stringCompare xs ys).natAbs < 256 := by
  induction xs generalizing ys with
  | nil =>
    cases ys with
    | nil => exact .inl ⟨rfl, by decide, by decide⟩
    | cons y ys => exact .inr (.inl ⟨y :: ys, by simp, rfl, rfl, rfl⟩)
  | cons x xs ih =>
    cases ys with
    | nil => exact .inr (.inr (.inl ⟨x :: xs, by simp, rfl, rfl, rfl⟩))
    | cons y ys =>
      by_cases hxy : x = y
      · subst hxy
        have heq (us vs : List (BitVec 8)) :
            stringCompare (x :: us) (x :: vs) = stringCompare us vs := if_pos rfl
        simpa [heq] using ih ys
      · have hne : x.toNat ≠ y.toNat := fun h => hxy (BitVec.eq_of_toNat_eq h)
        have hx := x.isLt
        have hy := y.isLt
        have hxs : stringCompare (x :: xs) (y :: ys) = x.toNat - y.toNat := if_neg hxy
        have hys : stringCompare (y :: ys) (x :: xs) = y.toNat - x.toNat := if_neg (Ne.symm hxy)
        refine .inr (.inr (.inr ⟨fun h => hxy ?_, fun h => hxy ?_, ?_, ?_, ?_⟩))
        · exact (List.cons_prefix_cons.mp h).1
        · exact (List.cons_prefix_cons.mp h).1.symm
        all_goals
          rw [hxs]
          omega

/-- The order of texts is transitive. -/
lemma stringCompare_trans (h : stringCompare xs ys ≤ 0) (h' : stringCompare ys zs ≤ 0) :
    stringCompare xs zs ≤ 0 := by
  have hmore (n : ℕ) : 0 < moreBy (n + 1) := by
    unfold moreBy
    omega
  induction xs generalizing ys zs with
  | nil =>
    have hless : stringCompare [] zs = lessBy zs.length := rfl
    rw [hless, lessBy]
    omega
  | cons x xs ih =>
    cases ys with
    | nil => exact absurd h (hmore xs.length).not_ge
    | cons y ys =>
      cases zs with
      | nil => exact absurd h' (hmore ys.length).not_ge
      | cons z zs =>
        unfold stringCompare at h h' ⊢
        by_cases hxy : x = y
        · subst hxy
          rw [if_pos rfl] at h
          split_ifs at h' ⊢ with hxz
          · exact ih h h'
          · exact h'
        · rw [if_neg hxy] at h
          have hne : x.toNat ≠ y.toNat := fun heq => hxy (BitVec.eq_of_toNat_eq heq)
          have hle : y.toNat ≤ z.toNat := by
            split_ifs at h' with hyz
            · rw [hyz]
            · omega
          rw [if_neg fun hxz => by rw [hxz] at hne h; omega]
          omega

/-! ## Addresses -/

/-- The comparison of numbers is turned round with them. -/
lemma compareNumbers_swap (x y : ℕ) : compareNumbers y x = -compareNumbers x y := by
  unfold compareNumbers
  split_ifs <;> omega

/-- Numbers that differ compare as one or minus one. -/
lemma compareNumbers_of_ne {x y : ℕ} (h : x ≠ y) :
    compareNumbers x y = 1 ∧ y < x ∨ compareNumbers x y = -1 ∧ x < y := by
  unfold compareNumbers
  split_ifs <;> omega

/-- The loop reads past an address that ends within the first one. -/
lemma compareAddresses_eq_none_iff : compareAddresses xs ys = none ↔ ys <+: xs ∧ ys ≠ xs := by
  induction xs generalizing ys with
  | nil => simp [compareAddresses]
  | cons x xs ih =>
    cases ys with
    | nil => simp [compareAddresses]
    | cons y ys =>
      by_cases hxy : x = y
      · simp [compareAddresses, hxy, ih]
      · simp [compareAddresses, hxy, Ne.symm hxy]

/-- It finds no difference to an address that the first one begins. -/
lemma compareAddresses_eq_zero_iff : compareAddresses xs ys = some 0 ↔ xs <+: ys := by
  induction xs generalizing ys with
  | nil => simp [compareAddresses]
  | cons x xs ih =>
    cases ys with
    | nil => simp [compareAddresses]
    | cons y ys =>
      by_cases hxy : x = y
      · simp [compareAddresses, hxy, ih]
      · have hne : x.toNat ≠ y.toNat := fun heq => hxy (BitVec.eq_of_toNat_eq heq)
        rcases compareNumbers_of_ne hne with ⟨h, -⟩ | ⟨h, -⟩ <;>
          simp [compareAddresses, hxy, h]

/-- A difference is found from either side. -/
lemma compareAddresses_swap (h : compareAddresses xs ys = some i) (hi : i ≠ 0) :
    (i = 1 ∨ i = -1) ∧ compareAddresses ys xs = some (-i) := by
  induction xs generalizing ys with
  | nil => exact absurd (Option.some.inj h).symm hi
  | cons x xs ih =>
    cases ys with
    | nil => cases h
    | cons y ys =>
      by_cases hxy : x = y
      · subst hxy
        simp only [compareAddresses, if_true] at h ⊢
        exact ih h
      · have hne : x.toNat ≠ y.toNat := fun heq => hxy (BitVec.eq_of_toNat_eq heq)
        simp only [compareAddresses, hxy, if_false, Option.some.injEq] at h
        rw [compareAddresses, if_neg (Ne.symm hxy), compareNumbers_swap x.toNat, h]
        refine ⟨?_, rfl⟩
        rcases compareNumbers_of_ne hne with ⟨hone, -⟩ | ⟨hone, -⟩ <;> omega

/-- A smaller address is smaller than every address that the other is not greater than. -/
lemma compareAddresses_trans (h : compareAddresses xs ys = some (-1))
    (h' : compareAddresses ys zs = some j) (hj : j ≤ 0) :
    compareAddresses xs zs = some (-1) := by
  induction xs generalizing ys zs with
  | nil => cases h
  | cons x xs ih =>
    cases ys with
    | nil => cases h
    | cons y ys =>
      cases zs with
      | nil => cases h'
      | cons z zs =>
        unfold compareAddresses at h h' ⊢
        by_cases hxy : x = y
        · subst hxy
          rw [if_pos rfl] at h
          split_ifs at h' ⊢ with hxz
          · exact ih h h'
          · -- the first difference is that of the second and the third
            have hne : x.toNat ≠ z.toNat := fun heq => hxz (BitVec.eq_of_toNat_eq heq)
            rw [Option.some.injEq] at h' ⊢
            rcases compareNumbers_of_ne hne with ⟨hone, -⟩ | ⟨hone, -⟩ <;> omega
        · rw [if_neg hxy, Option.some.injEq] at h
          have hlt : x.toNat < y.toNat := by
            unfold compareNumbers at h
            split_ifs at h
            assumption
          have hle : y.toNat ≤ z.toNat := by
            split_ifs at h' with hyz
            · rw [hyz]
            · rw [Option.some.injEq] at h'
              unfold compareNumbers at h'
              split_ifs at h'
              all_goals omega
          have hlt' : x.toNat < z.toNat := lt_of_lt_of_le hlt hle
          rw [if_neg fun hxz => by rw [hxz] at hlt'; omega, compareNumbers, if_pos hlt']

end

/-! ## Tags -/

section

variable {a b : ClientProxyMembershipID} {n : ℕ} {P : ℕ → Prop} {more : List (BitVec 8)}

/-- The difference for a shorter text, narrowed to 16 bits. -/
lemma bmod_lessBy (n : ℕ) : (lessBy n).bmod (2 ^ 16) =
    if 2 ^ 31 ≤ n then 0 else if n % 2 ^ 16 ≤ 2 ^ 15 then -((n % 2 ^ 16 : ℕ) : ℤ)
    else 2 ^ 16 - ((n % 2 ^ 16 : ℕ) : ℤ) := by
  unfold lessBy Int.bmod
  dsimp only
  split_ifs <;> omega

/-- The difference for a longer text, narrowed to 16 bits. -/
lemma bmod_moreBy (n : ℕ) : (moreBy n).bmod (2 ^ 16) =
    if 2 ^ 31 ≤ n then -1 else if n % 2 ^ 16 < 2 ^ 15 then ((n % 2 ^ 16 : ℕ) : ℤ)
    else ((n % 2 ^ 16 : ℕ) : ℤ) - 2 ^ 16 := by
  unfold moreBy Int.bmod
  dsimp only
  split_ifs <;> omega

/-- Opposite signs, as inequalities. -/
lemma sign_eq_neg_sign_iff (x y : ℤ) :
    x.sign = -y.sign ↔ (0 < x ↔ y < 0) ∧ (x < 0 ↔ 0 < y) := by
  rcases lt_trichotomy x 0 with hx | rfl | hx <;> rcases lt_trichotomy y 0 with hy | rfl | hy <;>
    simp [Int.sign_eq_one_of_pos, Int.sign_eq_neg_one_of_neg, *] <;> omega

/-- The sign of a difference of lengths is turned round in 16 bits unless it is crossed. -/
lemma sign_lessBy_iff (hn : 0 < n) :
    ((lessBy n).bmod (2 ^ 16)).sign = -((moreBy n).bmod (2 ^ 16)).sign ↔ ¬ Crossed n := by
  rw [sign_eq_neg_sign_iff, bmod_lessBy, bmod_moreBy, Crossed]
  split_ifs <;> omega

/-- A difference of lengths that is not crossed is zero in 16 bits if it is folded. -/
lemma bmod_eq_zero_iff (hn : ¬ Crossed n) :
    ((lessBy n).bmod (2 ^ 16) = 0 ↔ Folded n) ∧ ((moreBy n).bmod (2 ^ 16) = 0 ↔ Folded n) := by
  rw [bmod_lessBy, bmod_moreBy, Folded, Nat.dvd_iff_mod_eq_zero]
  unfold Crossed at hn
  split_ifs <;> omega

/-- What a longer tag is longer by. -/
lemma tagLonger_iff (hne : a.uniqueTag ≠ []) (hmore : more ≠ [])
    (h : b.uniqueTag = a.uniqueTag ++ more) :
    (TagLonger a b P ↔ P more.length) ∧ ¬ TagLonger b a P := by
  refine ⟨⟨?_, fun hP => ⟨hne, more, hmore, h, hP⟩⟩, ?_⟩
  · rintro ⟨-, more', -, h', hP⟩
    rw [h, List.append_cancel_left_eq] at h'
    exact h' ▸ hP
  · rintro ⟨-, more', -, h', -⟩
    rw [h, List.append_assoc, List.self_eq_append_right, List.append_eq_nil_iff] at h'
    exact hmore h'.1

/-- A tag that does not begin the other, or is the other, has no longer one. -/
lemma not_tagLonger (h : a.uniqueTag = b.uniqueTag ∨ ¬ a.uniqueTag <+: b.uniqueTag) :
    ¬ TagLonger a b P := by
  rintro ⟨-, more, hmore, heq, -⟩
  rcases h with h | h
  · rw [h, List.self_eq_append_right] at heq
    exact hmore heq
  · exact h (heq ▸ List.prefix_append _ _)

/-- A tag that is missing has no longer one and is none. -/
lemma not_tagLonger_of_nil (h : a.uniqueTag = [] ∨ b.uniqueTag = []) : ¬ TagLonger a b P := by
  rintro ⟨hne, more, hmore, heq, -⟩
  rcases h with h | h
  · exact hne h
  · exact hmore (List.append_eq_nil_iff.mp (heq ▸ h)).2

/-- The comparison of tags can be turned round unless a difference of lengths is crossed, and then
it is zero if they are alike. -/
lemma compareTags_spec (a b : ClientProxyMembershipID) :
    ((compareTags a b).sign = -(compareTags b a).sign ↔
      ¬ TagLonger a b Crossed ∧ ¬ TagLonger b a Crossed) ∧
    (¬ TagLonger a b Crossed → ¬ TagLonger b a Crossed →
      (compareTags a b = 0 ↔ TagsAlike a b)) := by
  by_cases hnil : a.uniqueTag = [] ∨ b.uniqueTag = []
  · -- view ids, or one member without a tag
    have hab (P : ℕ → Prop) : ¬ TagLonger a b P := not_tagLonger_of_nil hnil
    have hba (P : ℕ → Prop) : ¬ TagLonger b a P := not_tagLonger_of_nil hnil.symm
    simp only [hab, hba, not_false_eq_true, and_self, iff_true, true_imp_iff, TagsAlike, or_false]
    by_cases ha : a.uniqueTag = []
    · by_cases hb : b.uniqueTag = []
      · have hswap := compareNumbers_swap a.vmViewId.toNat b.vmViewId.toNat
        simp only [compareTags, ha, hb, and_self, if_true, hswap, Int.sign_neg, neg_neg, true_and,
          true_imp_iff]
        rw [← BitVec.toNat_inj]
        unfold compareNumbers
        split_ifs <;> simp <;> omega
      · simp [compareTags, ha, hb, Ne.symm hb]
    · simp [compareTags, ha, hnil.resolve_left ha]
  · push Not at hnil
    obtain ⟨ha, hb⟩ := hnil
    have hcompare : compareTags a b = (stringCompare a.uniqueTag b.uniqueTag).bmod (2 ^ 16) := by
      simp [compareTags, ha, hb]
    have hcompare' : compareTags b a = (stringCompare b.uniqueTag a.uniqueTag).bmod (2 ^ 16) := by
      simp [compareTags, ha, hb]
    rw [hcompare, hcompare', TagsAlike]
    rcases stringCompare_cases a.uniqueTag b.uniqueTag with ⟨heq, hzero, hzero'⟩ |
      ⟨more, hmore, heq, hless, hlonger⟩ | ⟨more, hmore, heq, hless, hlonger⟩ |
      ⟨hab, hba, hneg, hne, hlt⟩
    · have hnot (P : ℕ → Prop) : ¬ TagLonger a b P := not_tagLonger (.inl heq)
      have hnot' (P : ℕ → Prop) : ¬ TagLonger b a P := not_tagLonger (.inl heq.symm)
      rw [hzero, hzero']
      simp [hnot, hnot', heq, hb]
    · have hpos := List.length_pos_of_ne_nil hmore
      have hne : a.uniqueTag ≠ b.uniqueTag := fun h => hmore (by simpa [← h] using heq)
      rw [hless, hlonger, sign_lessBy_iff hpos]
      simp only [tagLonger_iff ha hmore heq, not_false_eq_true, and_true, or_false, hne, false_and,
        false_or, true_imp_iff, true_and]
      exact fun h => (bmod_eq_zero_iff h).1
    · have hpos := List.length_pos_of_ne_nil hmore
      have hne : a.uniqueTag ≠ b.uniqueTag := fun h => hmore (by simpa [h] using heq)
      have hsign := sign_lessBy_iff hpos
      rw [hless, hlonger]
      simp only [tagLonger_iff hb hmore heq, not_false_eq_true, true_and, hne, false_and,
        false_or, true_imp_iff, ← hsign]
      exact ⟨by omega, fun h => (bmod_eq_zero_iff (hsign.mp h)).2⟩
    · have hnot (P : ℕ → Prop) : ¬ TagLonger a b P := not_tagLonger (.inr hab)
      have hnot' (P : ℕ → Prop) : ¬ TagLonger b a P := not_tagLonger (.inr hba)
      have hne' : a.uniqueTag ≠ b.uniqueTag := fun h => hab (h ▸ List.prefix_rfl)
      -- a difference of bytes fits into 16 bits
      have hfits (d : ℤ) (hd : d.natAbs < 256) : d.bmod (2 ^ 16) = d := by
        unfold Int.bmod
        dsimp only
        split_ifs <;> omega
      rw [hfits _ hlt, hfits _ (by omega), hneg]
      simp only [hnot, hnot', hne', Int.sign_neg, not_false_eq_true, and_self, false_and, or_self,
        true_imp_iff, iff_false, true_and]
      exact fun h => hne (hneg.trans h)

end

/-! ## Members -/

section

variable {a b c : ClientProxyMembershipID} {i j k : ℤ}

/-- A comparison is undefined where it reads past an address. -/
lemma compareTo_eq_none_iff : a.compareTo b = none ↔ Overruns a b := by
  unfold compareTo Overruns
  by_cases hport : a.hostPort = b.hostPort
  · by_cases ha : a.hostAddr = []
    · by_cases hb : b.hostAddr = [] <;> simp [hport, ha, hb]
    · by_cases hb : b.hostAddr = []
      · simp [hport, ha, hb]
      · simp [hport, ha, hb, compareAddresses_eq_none_iff]
  · simp [hport]

/-- Members of one host are compared by their tags. -/
lemma compareTo_of_sameHost (h : SameHost a b) : a.compareTo b = some (compareTags a b) := by
  obtain ⟨hport, haddr, hne⟩ := h
  have hzero := compareAddresses_eq_zero_iff.mpr (List.prefix_refl b.hostAddr)
  simp [compareTo, hport, haddr, haddr ▸ hne, hzero]

/-- Two members whose addresses do not end within each other have the same host, neither has an
address, or their ports or addresses tell them apart. -/
lemma compareTo_cases (hab : ¬ Overruns a b) (hba : ¬ Overruns b a) :
    SameHost a b ∧ a.compareTo b = some (compareTags a b) ∧ b.compareTo a = some (compareTags b a) ∨
      a.hostPort = b.hostPort ∧ a.hostAddr = [] ∧ b.hostAddr = [] ∧ a.compareTo b = some 0 ∧
        b.compareTo a = some 0 ∨
      ¬ SameHost a b ∧ ¬ (a.hostPort = b.hostPort ∧ a.hostAddr = [] ∧ b.hostAddr = []) ∧
        ∃ i, (i = 1 ∨ i = -1) ∧ a.compareTo b = some i ∧ b.compareTo a = some (-i) := by
  by_cases hport : a.hostPort = b.hostPort
  · by_cases ha : a.hostAddr = []
    · by_cases hb : b.hostAddr = [] <;> simp [compareTo, SameHost, hport, ha, hb]
    · by_cases hb : b.hostAddr = []
      · simp [compareTo, SameHost, hport, ha, hb]
      · cases hcmp : compareAddresses a.hostAddr b.hostAddr with
        | none => exact absurd ⟨hport, hb, compareAddresses_eq_none_iff.mp hcmp⟩ hab
        | some i =>
          by_cases hi : i = 0
          · subst hi
            have hpre := compareAddresses_eq_zero_iff.mp hcmp
            have hsame : SameHost a b := by
              refine ⟨hport, ?_, ha⟩
              by_contra hne
              exact hba ⟨hport.symm, ha, hpre, hne⟩
            exact .inl ⟨hsame, compareTo_of_sameHost hsame,
              compareTo_of_sameHost ⟨hport.symm, hsame.2.1.symm, hb⟩⟩
          · obtain ⟨hone, hswap⟩ := compareAddresses_swap hcmp hi
            have hne : a.hostAddr ≠ b.hostAddr := by
              intro hsame
              rw [hsame, compareAddresses_eq_zero_iff.mpr (List.prefix_refl _)] at hcmp
              exact hi (Option.some.inj hcmp).symm
            refine Or.inr (Or.inr ⟨fun h => hne h.2.1, fun h => ha h.2.1, i, hone, ?_, ?_⟩) <;>
              simp [compareTo, hport, ha, hb, hcmp, hswap, hi]
  · have hne : a.hostPort.toNat ≠ b.hostPort.toNat := fun h => hport (BitVec.eq_of_toNat_eq h)
    have hone : compareNumbers a.hostPort.toNat b.hostPort.toNat = 1 ∨
        compareNumbers a.hostPort.toNat b.hostPort.toNat = -1 :=
      (compareNumbers_of_ne hne).imp And.left And.left
    refine Or.inr (Or.inr ⟨fun h => hport h.1, fun h => hport h.1, _, hone, ?_, ?_⟩)
    · simp [compareTo, hport]
    · simp [compareTo, Ne.symm hport, compareNumbers_swap a.hostPort.toNat]

/-- Where both comparisons are defined, the law is about their values. -/
lemma lawful_iff_of_compareTo (hab : a.compareTo b = some i) (hba : b.compareTo a = some j) :
    Lawful a b ↔ i.sign = -j.sign ∧ (i = 0 ↔ a.hashKey = b.hashKey) := by
  simp [Lawful, hab, hba]

/-- Two members are compared lawfully exactly if they are ordered. -/
lemma lawful_iff_ordered : Lawful a b ↔ Ordered a b := by
  by_cases hover : ¬ Overruns a b ∧ ¬ Overruns b a
  · rcases compareTo_cases hover.1 hover.2 with ⟨hhost, hab, hba⟩ | ⟨hport, ha, hb, hab, hba⟩ |
      ⟨hhost, hempty, i, hone, hab, hba⟩
    · obtain ⟨hsign, hzero⟩ := compareTags_spec a b
      have halike : Alike a b ↔ TagsAlike a b :=
        ⟨fun h => (h.2.resolve_left fun hnil => hhost.2.2 hnil.1).2,
          fun h => ⟨hhost.1, .inr ⟨hhost, h⟩⟩⟩
      rw [lawful_iff_of_compareTo hab hba, hsign]
      constructor
      · rintro ⟨hcrossed, hident⟩
        exact ⟨hover, fun _ => hcrossed,
          by rw [halike, ← hzero hcrossed.1 hcrossed.2, hident]⟩
      · rintro ⟨-, hcrossed, hident⟩
        obtain ⟨hab', hba'⟩ := hcrossed hhost
        exact ⟨⟨hab', hba'⟩, by rw [hzero hab' hba', hident, halike]⟩
    · have halike : Alike a b := ⟨hport, .inl ⟨ha, hb⟩⟩
      rw [lawful_iff_of_compareTo hab hba]
      constructor
      · rintro ⟨-, hident⟩
        exact ⟨hover, fun hhost => absurd ha hhost.2.2, iff_of_true (hident.mp rfl) halike⟩
      · rintro ⟨-, -, hident⟩
        exact ⟨rfl, iff_of_true rfl (hident.mpr halike)⟩
    · -- neither alike nor equal
      have halike : ¬ Alike a b := fun h =>
        h.2.elim (fun hnil => hempty ⟨h.1, hnil⟩) fun hsame => hhost hsame.1
      have hne : i ≠ 0 := by omega
      rw [lawful_iff_of_compareTo hab hba]
      constructor
      · rintro ⟨-, hident⟩
        exact ⟨hover, fun hsame => absurd hsame hhost,
          iff_of_false (fun hkey => hne (hident.mpr hkey)) halike⟩
      · rintro ⟨-, -, hident⟩
        exact ⟨by simp, iff_of_false hne fun hkey => halike (hident.mp hkey)⟩
  · refine iff_of_false ?_ fun h => hover h.overrun
    rintro ⟨i, j, hab, hba, -⟩
    exact hover ⟨fun h => by simp [compareTo_eq_none_iff.mpr h] at hab,
      fun h => by simp [compareTo_eq_none_iff.mpr h] at hba⟩

/-- Without long tags the comparison of texts keeps its sign. -/
lemma compareTags_le_zero_iff (h : Plain a b) (ha : a.uniqueTag ≠ []) (hb : b.uniqueTag ≠ []) :
    compareTags a b ≤ 0 ↔ stringCompare a.uniqueTag b.uniqueTag ≤ 0 := by
  have hcompare : compareTags a b = (stringCompare a.uniqueTag b.uniqueTag).bmod (2 ^ 16) := by
    simp [compareTags, ha, hb]
  have hfits : -2 ^ 15 < stringCompare a.uniqueTag b.uniqueTag ∧
      stringCompare a.uniqueTag b.uniqueTag < 2 ^ 15 := by
    rcases stringCompare_cases a.uniqueTag b.uniqueTag with ⟨-, hzero, -⟩ |
      ⟨more, hmore, heq, hless, -⟩ | ⟨more, hmore, heq, -, hlonger⟩ | ⟨-, -, -, -, hlt⟩
    · omega
    · have hshort := mt (tagLonger_iff ha hmore heq).1.mpr h.short.1
      rw [hless, lessBy]
      omega
    · have hshort := mt (tagLonger_iff hb hmore heq).1.mpr h.short.2
      rw [hlonger, moreBy]
      omega
    · omega
  have hbmod : (stringCompare a.uniqueTag b.uniqueTag).bmod (2 ^ 16) =
      stringCompare a.uniqueTag b.uniqueTag := by
    unfold Int.bmod
    dsimp only
    split_ifs <;> omega
  rw [hcompare, hbmod]

/-- The comparison of tags is transitive. -/
lemma compareTags_trans (hab : Plain a b) (hbc : Plain b c) (hac : Plain a c)
    (h : compareTags a b ≤ 0) (h' : compareTags b c ≤ 0) : compareTags a c ≤ 0 := by
  by_cases ha : a.uniqueTag = []
  · by_cases hc : c.uniqueTag = []
    · -- then the second has no tag either, and the view ids decide
      have hb : b.uniqueTag = [] := by
        by_contra hb
        simp [compareTags, hb, hc] at h'
      simp only [compareTags, ha, hb, hc, and_self, if_true, compareNumbers] at h h' ⊢
      split_ifs at h h' ⊢ <;> omega
    · simp [compareTags, ha, hc]
  · have hb : b.uniqueTag ≠ [] := fun hb => by simp [compareTags, ha, hb] at h
    have hc : c.uniqueTag ≠ [] := fun hc => by simp [compareTags, hb, hc] at h'
    rw [compareTags_le_zero_iff hab ha hb] at h
    rw [compareTags_le_zero_iff hbc hb hc] at h'
    rw [compareTags_le_zero_iff hac ha hc]
    exact stringCompare_trans h h'

/-- A comparison that is not positive is between ports in their order. -/
lemma hostPort_le_of_compareTo (h : a.compareTo b = some i) (hi : i ≤ 0) :
    a.hostPort.toNat ≤ b.hostPort.toNat := by
  by_contra hlt
  have hne : a.hostPort ≠ b.hostPort := fun heq => hlt (heq ▸ le_rfl)
  rw [compareTo, if_pos hne, Option.some.injEq, compareNumbers, if_neg (by omega),
    if_pos (by omega)] at h
  omega

/-- Of members that are told apart by their ports or addresses, the smaller one is smaller than
whatever the other is not greater than. -/
lemma compareTo_trans (hab : a.compareTo b = some (-1)) (hhost : ¬ SameHost a b)
    (hba : ¬ Overruns b a) (hbc : b.compareTo c = some j) (hj : j ≤ 0) :
    a.compareTo c = some (-1) := by
  have hle := hostPort_le_of_compareTo hab (by decide)
  have hle' := hostPort_le_of_compareTo hbc hj
  by_cases hports : a.hostPort = b.hostPort ∧ b.hostPort = c.hostPort
  · obtain ⟨hport, hport'⟩ := hports
    simp only [compareTo, hport, hport', ne_eq, not_true_eq_false, if_false] at hab hbc ⊢
    by_cases ha : a.hostAddr = []
    · have hb : b.hostAddr ≠ [] := fun hb => by simp [ha, hb] at hab
      have hc : c.hostAddr ≠ [] := fun hc => by
        simp only [hb, hc, false_and, if_false, if_true, Option.some.injEq] at hbc
        omega
      simp [ha, hc]
    · have hb : b.hostAddr ≠ [] := fun hb => by simp [ha, hb] at hab
      have hc : c.hostAddr ≠ [] := fun hc => by
        simp only [hb, hc, false_and, if_false, if_true, Option.some.injEq] at hbc
        omega
      simp only [ha, hb, hc, if_false, and_self, Option.map_eq_some_iff] at hab hbc ⊢
      obtain ⟨x, hx, htag⟩ := hab
      obtain ⟨y, hy, htag'⟩ := hbc
      -- equal addresses would be those of one host
      have hne : x ≠ 0 := by
        rintro rfl
        have hpre := compareAddresses_eq_zero_iff.mp hx
        exact hba ⟨hport.symm, ha, hpre, fun heq => hhost ⟨hport, heq, ha⟩⟩
      rw [if_neg hne] at htag
      have hyle : y ≤ 0 := by
        split_ifs at htag' <;> omega
      exact ⟨-1, compareAddresses_trans (htag ▸ hx) hy hyle, rfl⟩
  · have hlt : a.hostPort.toNat < c.hostPort.toNat := by
      refine lt_of_le_of_ne (hle.trans hle') fun heq => hports ⟨?_, ?_⟩ <;>
        apply BitVec.eq_of_toNat_eq <;> omega
    have hne : a.hostPort ≠ c.hostPort := fun heq => absurd hlt (heq ▸ lt_irrefl _)
    rw [compareTo, if_pos hne, compareNumbers, if_pos hlt]

/-- Members of one port and address compare alike with a third that is not of their host. -/
lemma compareTo_congr (hport : a.hostPort = b.hostPort) (haddr : a.hostAddr = b.hostAddr)
    (hhost : ¬ SameHost b c) (hcb : ¬ Overruns c b) : a.compareTo c = b.compareTo c := by
  unfold compareTo
  rw [hport, haddr]
  by_cases hsame : b.hostPort = c.hostPort
  · by_cases hb : b.hostAddr = []
    · simp [hb]
    · have hne : compareAddresses b.hostAddr c.hostAddr ≠ some 0 := by
        intro hzero
        have hpre := compareAddresses_eq_zero_iff.mp hzero
        exact hcb ⟨hsame.symm, hb, hpre, fun heq => hhost ⟨hsame, heq, hb⟩⟩
      cases hcmp : compareAddresses b.hostAddr c.hostAddr with
      | none => rfl
      | some x =>
        have hx : x ≠ 0 := fun h => hne (by rw [hcmp, h])
        simp [hx]
  · simp [hsame]

/-- The comparison of three members is transitive if their addresses do not end within each other
and the tags are not long. -/
lemma transitive_of_plain (hab : Plain a b) (hbc : Plain b c) (hac : Plain a c) :
    Transitive a b c := by
  intro i j k hi hj hk hile hjle
  rcases compareTo_cases hab.overrun.1 hab.overrun.2 with ⟨hhost, hab', -⟩ |
    ⟨hport, ha, hb, -, -⟩ | ⟨hhost, -, x, hone, hab', -⟩
  · by_cases hhost' : SameHost b c
    · have hhost'' : SameHost a c :=
        ⟨hhost.1.trans hhost'.1, hhost.2.1.trans hhost'.2.1, hhost.2.2⟩
      rw [compareTo_of_sameHost hhost, Option.some.injEq] at hi
      rw [compareTo_of_sameHost hhost', Option.some.injEq] at hj
      rw [compareTo_of_sameHost hhost'', Option.some.injEq] at hk
      rw [← hk]
      exact compareTags_trans hab hbc hac (hi ▸ hile) (hj ▸ hjle)
    · rw [compareTo_congr hhost.1 hhost.2.1 hhost' hbc.overrun.2, hj, Option.some.injEq] at hk
      exact hk ▸ hjle
  · rw [compareTo_congr hport (ha.trans hb.symm) (fun h => h.2.2 hb) hbc.overrun.2, hj,
      Option.some.injEq] at hk
    exact hk ▸ hjle
  · rw [hi, Option.some.injEq] at hab'
    obtain rfl : i = -1 := by omega
    rw [compareTo_trans hi hhost hab.overrun.2 hj hjle, Option.some.injEq] at hk
    omega

end

end ClientProxyMembershipID

end GeodeNative
