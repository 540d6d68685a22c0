import Mathlib.Data.Nat.Bitwise

/-!
# Version tags and version stamps

A server event carries a `VersionTag`; a cached entry carries the `VersionStamp`
of the last event applied to it. An event is applied to an entry only when
`VersionStamp.checkForConflict` finds that the tag is not older than the stamp.

The stamp stores the entry version in three bytes and the region version in six,
so what is read back from it is not always what the tag held. Fields are bit
vectors of the widths the source declares, and the comparisons are made on
integers, as the source makes them on 64-bit ones.
-/

namespace GeodeNative

open BitVec Nat

/-- The error codes that the entry map returns. -/
inductive GfErrType
  | noErr
  | cacheIllegalStateException
  | cacheConcurrentModificationException
  | cacheEntryNotFound
  | cacheEntryExists
  | cacheEntryUpdated
  | invalidDelta
  deriving DecidableEq, Repr

/-- The version information of a server event. -/
structure VersionTag where
  entryVersion : BitVec 32
  regionVersionHighBytes : BitVec 16
  regionVersionLowBytes : BitVec 32
  internalMemId : BitVec 16
  previousMemId : BitVec 16
  deriving DecidableEq, Repr

/-- The version information of a cached entry. -/
structure VersionStamp where
  memberId : BitVec 16 := 0
  entryVersionHighByte : BitVec 8 := 0
  entryVersionLowBytes : BitVec 16 := 0
  regionVersionHighBytes : BitVec 16 := 0
  regionVersionLowBytes : BitVec 32 := 0
  deriving DecidableEq, Repr

/-- The distributed members known to the cache, and the order it compares them in. -/
structure MemberListForVersionStamp (M : Type*) where
  getDSMember : BitVec 16 → Option M
  compareTo : M → M → ℤ

namespace VersionStamp

/-- The stamp left by an event with the tag `tag`. -/
def setVersions (tag : VersionTag) : VersionStamp where
  memberId := tag.internalMemId
  entryVersionHighByte := ((tag.entryVersion &&& 0xff0000) >>> 16).setWidth 8
  entryVersionLowBytes := (tag.entryVersion &&& 0xffff).setWidth 16
  regionVersionHighBytes := tag.regionVersionHighBytes
  regionVersionLowBytes := tag.regionVersionLowBytes

def getEntryVersion (stamp : VersionStamp) : BitVec 32 :=
  (stamp.entryVersionHighByte.setWidth 32 <<< 16) ||| stamp.entryVersionLowBytes.setWidth 32

def getRegionVersion (stamp : VersionStamp) : BitVec 64 :=
  (stamp.regionVersionHighBytes.setWidth 64 <<< 32) ||| stamp.regionVersionLowBytes.setWidth 64

/-- The stamp of an entry that no versioned event has touched. -/
def IsUnset (stamp : VersionStamp) : Prop :=
  stamp.getEntryVersion = 0 ∧ stamp.getRegionVersion = 0 ∧ stamp.memberId = 0
  deriving Decidable

end VersionStamp

/-- A tag in which nothing is set. -/
def VersionTag.IsUnset (tag : VersionTag) : Prop :=
  tag.entryVersion = 0 ∧ tag.regionVersionHighBytes = 0 ∧ tag.regionVersionLowBytes = 0 ∧
    tag.internalMemId = 0
  deriving Decidable

/-- Stamp and tag version after the check for a wrapped version counter: of two versions more
than `0x10000` apart, the smaller one is taken to have wrapped. -/
def rolloverVersions (stampVersion tagVersion : ℤ) : ℤ × ℤ :=
  if stampVersion ≠ 0 ∧
      (0x10000 < tagVersion - stampVersion ∨ tagVersion - stampVersion < -0x10000) then
    if tagVersion - stampVersion < 0 then
      (stampVersion, tagVersion + 0x100000000)
    else
      (stampVersion + 0x100000000, tagVersion)
  else
    (stampVersion, tagVersion)

namespace VersionStamp

variable {M : Type*} (members : MemberListForVersionStamp M)

/-- A delta applies only to the version it was computed from: the tag must be the next
version, and its previous changer the member in the stamp. -/
def checkForDeltaConflict (stamp : VersionStamp) (stampVersion tagVersion : ℤ)
    (tag : VersionTag) : GfErrType :=
  if tagVersion ≠ stampVersion + 1 then
    .invalidDelta
  else
    match members.getDSMember stamp.memberId, members.getDSMember tag.previousMemId with
    | some stampID, some tagID =>
      if members.compareTo tagID stampID ≠ 0 then .invalidDelta else .noErr
    | _, _ => .invalidDelta

/-- Whether an event with the tag `tag` may be applied to an entry with this stamp. -/
def checkForConflict (stamp : VersionStamp) (tag : VersionTag) (deltaCheck : Bool) : GfErrType :=
  if stamp.IsUnset then
    .noErr
  else if tag.IsUnset then
    .noErr
  else
    let versions := rolloverVersions stamp.getEntryVersion.toNat tag.entryVersion.toNat
    let stampVersion := versions.1
    let tagVersion := versions.2
    let deltaErr :=
      if deltaCheck then checkForDeltaConflict members stamp stampVersion tagVersion tag
      else .noErr
    if deltaErr ≠ .noErr then
      deltaErr
    else if stampVersion = 0 ∨ stampVersion < tagVersion then
      .noErr
    else if stampVersion > tagVersion then
      .cacheConcurrentModificationException
    else
      match members.getDSMember stamp.memberId, members.getDSMember tag.internalMemId with
      | some stampID, some tagID =>
        -- equal members mean a local operation that meets its own event
        if members.compareTo stampID tagID ≤ 0 then .noErr
        else .cacheConcurrentModificationException
      | _, _ => .cacheIllegalStateException

/-- The check of a tag against a stamp; a null tag is an illegal state. -/
def processVersionTag (stamp : VersionStamp) (tag : Option VersionTag) (deltaCheck : Bool) :
    GfErrType :=
  match tag with
  | none => .cacheIllegalStateException
  | some tag => checkForConflict members stamp tag deltaCheck

/-! ## What a stamp keeps of a tag -/

@[simp] lemma memberId_setVersions (tag : VersionTag) :
    (setVersions tag).memberId = tag.internalMemId := rfl

/-- A stamp's entry version is its high byte followed by its low bytes. -/
lemma toNat_getEntryVersion (stamp : VersionStamp) : stamp.getEntryVersion.toNat =
      stamp.entryVersionHighByte.toNat * 2 ^ 16 + stamp.entryVersionLowBytes.toNat := by
  have hlow : stamp.entryVersionLowBytes.toNat < 2 ^ 16 := stamp.entryVersionLowBytes.isLt
  have hor := shiftLeft_add_eq_or_of_lt hlow stamp.entryVersionHighByte.toNat
  rw [Nat.shiftLeft_eq] at hor
  rw [hor, getEntryVersion]
  simp only [BitVec.toNat_or, BitVec.toNat_shiftLeft, BitVec.toNat_setWidth, Nat.shiftLeft_eq]
  congr 1 <;> omega

/-- The entry version read back from a stamp is the low 24 bits of the tag's. -/
lemma toNat_getEntryVersion_setVersions (tag : VersionTag) :
    (setVersions tag).getEntryVersion.toNat = tag.entryVersion.toNat % 2 ^ 24 := by
  have hhigh : (setVersions tag).entryVersionHighByte.toNat =
      tag.entryVersion.toNat / 2 ^ 16 % 2 ^ 8 := by
    simp only [setVersions, toNat_setWidth, toNat_ushiftRight, toNat_and, shiftRight_and_distrib]
    have hmask : (0xff0000 : BitVec 32).toNat >>> 16 = 2 ^ 8 - 1 := by decide
    rw [hmask, and_two_pow_sub_one_eq_mod, shiftRight_eq_div_pow, mod_mod]
  have hlow : (setVersions tag).entryVersionLowBytes.toNat = tag.entryVersion.toNat % 2 ^ 16 := by
    simp only [setVersions, toNat_setWidth, toNat_and]
    have hmask : (0xffff : BitVec 32).toNat = 2 ^ 16 - 1 := by decide
    rw [hmask, and_two_pow_sub_one_eq_mod, mod_mod]
  rw [toNat_getEntryVersion, hhigh, hlow]
  omega

/-! ## Versions that roll over -/

/-- Of two versions at most `0x10000` apart on the circle of three bytes, the later one stays the
later one. -/
lemma rolloverVersions_lt {s t k : ℕ} (hs : 1 ≤ s ∧ s < 2 ^ 24) (hk : 1 ≤ k ∧ k ≤ 0x10000)
    (ht : t = (s + k) % 2 ^ 24) (ht₀ : t ≠ 0) :
    (rolloverVersions s t).1 < (rolloverVersions s t).2 ∧ (rolloverVersions t s).1 ≠ 0 ∧
      (rolloverVersions t s).2 < (rolloverVersions t s).1 ∧
      (k = 1 → (rolloverVersions s t).2 = (rolloverVersions s t).1 + 1) := by
  unfold rolloverVersions
  split_ifs <;> omega

/-- The member that made the change before the tag's is the one in the stamp. -/
def FollowsMember (stamp : VersionStamp) (tag : VersionTag) : Prop :=
  ∃ stampID tagID, members.getDSMember stamp.memberId = some stampID ∧
    members.getDSMember tag.previousMemId = some tagID ∧ members.compareTo tagID stampID = 0

/-- A later version is accepted and an earlier one rejected, also where the three bytes have wrapped
in between; a delta is accepted over the version it was computed from. -/
theorem checkForConflict_across_rollover (stamp stamp' : VersionStamp) (tag tag' : VersionTag)
    {s t k : ℕ} (hs : 1 ≤ s ∧ s < 2 ^ 24) (hk : 1 ≤ k ∧ k ≤ 0x10000) (ht : t = (s + k) % 2 ^ 24)
    (ht₀ : t ≠ 0) (hstamp : stamp.getEntryVersion.toNat = s) (htag : tag.entryVersion.toNat = t)
    (hstamp' : stamp'.getEntryVersion.toNat = t) (htag' : tag'.entryVersion.toNat = s) :
    checkForConflict members stamp tag false = .noErr ∧
      checkForConflict members stamp' tag' false = .cacheConcurrentModificationException ∧
      (k = 1 → stamp.FollowsMember members tag →
        checkForConflict members stamp tag true = .noErr ∧
        checkForConflict members stamp' tag' true = .invalidDelta) := by
  obtain ⟨_, _⟩ := rolloverVersions_lt hs hk ht ht₀
  have hset : ¬ stamp.IsUnset := fun h => by simp [h.1] at hstamp; omega
  have hset' : ¬ stamp'.IsUnset := fun h => by simp [h.1] at hstamp'; omega
  have htagged : ¬ tag.IsUnset := fun h => by simp [h.1] at htag; omega
  have htagged' : ¬ tag'.IsUnset := fun h => by simp [h.1] at htag'; omega
  simp only [checkForConflict, checkForDeltaConflict, if_neg hset, if_neg hset', if_neg htagged,
    if_neg htagged', hstamp, htag, hstamp', htag']
  refine ⟨by grind, by grind, ?_⟩
  rintro _ ⟨_, _⟩
  constructor <;> grind

theorem checkForConflict_across_rollover_wrapped :
    let last : VersionStamp := { entryVersionHighByte := 0xff, entryVersionLowBytes := 0xffff }
    let first : VersionStamp := { entryVersionLowBytes := 1 }
    let second : VersionStamp := { entryVersionLowBytes := 2 }
    let members : MemberListForVersionStamp Unit := ⟨fun _ => some (), fun _ _ => 0⟩
    (last.checkForConflict members ⟨1, 0, 0, 1, 1⟩ false = .noErr ∧
      first.checkForConflict members ⟨0xffffff, 0, 0, 1, 1⟩ false =
        .cacheConcurrentModificationException) ∧
    first.checkForConflict members ⟨2, 0, 0, 1, 1⟩ true = .noErr ∧
      second.checkForConflict members ⟨1, 0, 0, 1, 1⟩ true = .invalidDelta :=
  have hwrapped := checkForConflict_across_rollover _ _ _ ⟨1, 0, 0, 1, 1⟩ ⟨0xffffff, 0, 0, 1, 1⟩
    (s := 2 ^ 24 - 1) (t := 1) (k := 2) (by decide) (by decide) (by decide) (by decide) rfl rfl rfl
    rfl
  have hdelta := checkForConflict_across_rollover _ _ _ ⟨2, 0, 0, 1, 1⟩ ⟨1, 0, 0, 1, 1⟩
    (s := 1) (t := 2) (k := 1) (by decide) (by decide) (by decide) (by decide) rfl rfl rfl rfl
  ⟨⟨hwrapped.1, hwrapped.2.1⟩, hdelta.2.2 rfl ⟨(), (), rfl, rfl, rfl⟩⟩

end VersionStamp

end GeodeNative
