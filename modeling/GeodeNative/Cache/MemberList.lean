import GeodeNative.Library.Runs
import Mathlib.Algebra.Group.Nat.Defs

/-!
# The ids of members

A version stamp holds a member as a number of 16 bits. `MemberListForVersionStamp` gives the
numbers out: it counts the members it has seen with 32 bits, and two tables lead from a number to
its member and from the hash key of a member to its number.

As long as the counter fits the number, members and numbers correspond. The member after the
65535th gets the number 0, which is also that of a stamp in which nothing is set, and whose member
is not found.
-/

namespace GeodeNative

open List Function

/-- The tables of `MemberListForVersionStamp`. -/
structure MemberTables (H M : Type*) where
  members1 : BitVec 32 → Option M := fun _ => none
  members2 : H → Option (BitVec 16) := fun _ => none
  memberCounter : BitVec 32 := 0

/-- The tables, and the members that were added with the ids they got. -/
structure MemberLog (H M : Type*) extends MemberTables H M where
  added : List (M × BitVec 16) := []

namespace MemberTables

variable {H M : Type*} [DecidableEq H] (hashKey : M → H)

def add (l : MemberTables H M) (member : M) : BitVec 16 × MemberTables H M :=
  match l.members2 (hashKey member) with
  | some id => (id, l)
  | none =>
    let memberCounter := l.memberCounter + 1
    (memberCounter.setWidth 16,
      { members1 := Function.update l.members1 memberCounter (some member)
        members2 := Function.update l.members2 (hashKey member) (some (memberCounter.setWidth 16))
        memberCounter })

def getDSMember (l : MemberTables H M) (memberId : BitVec 16) : Option M :=
  l.members1 (memberId.setWidth 32)

end MemberTables

namespace MemberLog

open MemberTables

variable {H M : Type*} [DecidableEq H] (hashKey : M → H)

def step (st : MemberLog H M) (member : M) : MemberLog H M :=
  { (st.add hashKey member).2 with added := (member, (st.add hashKey member).1) :: st.added }

/-- No member has the id 0, an id leads to a member with the hash key of the one that got it, and
ids are equal exactly when hash keys are. -/
def Faithful (st : MemberLog H M) : Prop :=
  ∀ p ∈ st.added, p.2 ≠ 0 ∧ (∃ m, st.getDSMember p.2 = some m ∧ hashKey m = hashKey p.1) ∧
    ∀ q ∈ st.added, p.2 = q.2 ↔ hashKey p.1 = hashKey q.1

/-- A member that is not known yet is not one too many. -/
def Room (st : MemberLog H M) (member : M) : Prop :=
  st.members2 (hashKey member) = none → st.memberCounter.toNat + 1 < 2 ^ 16

/-- The ids of the second table are those that were counted, and lead back through the first. -/
structure Inv (st : MemberLog H M) : Prop where
  counter_lt : st.memberCounter.toNat < 2 ^ 16
  counted : ∀ {h id}, st.members2 h = some id → id ≠ 0 ∧ id.toNat ≤ st.memberCounter.toNat ∧
    ∃ m, st.getDSMember id = some m ∧ hashKey m = h
  added : ∀ p ∈ st.added, st.members2 (hashKey p.1) = some p.2

variable {hashKey} {st : MemberLog H M} {member : M}

omit [DecidableEq H] in
lemma Inv.faithful (h : Inv hashKey st) : Faithful hashKey st := by
  intro p hp
  obtain ⟨hne, -, m, hm, hkey⟩ := h.counted (h.added p hp)
  refine ⟨hne, ⟨m, hm, hkey⟩, fun q hq => ⟨fun hid => ?_, fun hkeys => ?_⟩⟩
  · obtain ⟨-, -, _, hm', hkey'⟩ := h.counted (h.added q hq)
    rw [← hid, hm] at hm'
    cases hm'
    exact hkey.symm.trans hkey'
  · have hp' := h.added p hp
    rw [hkeys, h.added q hq] at hp'
    exact (Option.some.inj hp').symm

lemma Inv.step (h : Inv hashKey st) (hroom : Room hashKey st member) :
    Inv hashKey (step hashKey st member) := by
  cases hknown : st.members2 (hashKey member) with
  | some id =>
    have hadd : st.add hashKey member = (id, st.toMemberTables) := by rw [add, hknown]
    rw [MemberLog.step, hadd]
    refine ⟨h.counter_lt, h.counted, forall_mem_cons.mpr ⟨hknown, h.added⟩⟩
  | none =>
    have hlt := hroom hknown
    have hcounter : (st.memberCounter + 1).toNat = st.memberCounter.toNat + 1 := by bv_omega
    have hid : ((st.memberCounter + 1).setWidth 16).toNat = st.memberCounter.toNat + 1 := by
      rw [BitVec.toNat_setWidth, hcounter, Nat.mod_eq_of_lt hlt]
    have hback : ((st.memberCounter + 1).setWidth 16).setWidth 32 = st.memberCounter + 1 := by
      bv_omega
    simp only [MemberLog.step, add, hknown]
    refine ⟨by rw [hcounter]; exact hlt, fun {key id} hkey => ?_, ?_⟩
    · dsimp only [getDSMember] at hkey ⊢
      by_cases hnew : key = hashKey member
      · subst hnew
        rw [update_self, Option.some.injEq] at hkey
        subst hkey
        exact ⟨by bv_omega, by omega, member, by rw [hback, update_self], rfl⟩
      · rw [update_of_ne hnew] at hkey
        obtain ⟨hne, _, m, _, hkey'⟩ := h.counted hkey
        have hold : id.setWidth 32 ≠ st.memberCounter + 1 := by bv_omega
        exact ⟨hne, by omega, m, by rwa [update_of_ne hold], hkey'⟩
    · refine forall_mem_cons.mpr ⟨update_self .., fun p hp => ?_⟩
      have hne : hashKey p.1 ≠ hashKey member := fun heq => by
        have hp' := h.added p hp
        rw [heq, hknown] at hp'
        cases hp'
      exact (update_of_ne hne ..).trans (h.added p hp)

/-- Adding the members of a list keeps the ids faithful exactly when there is room for each of
them. -/
theorem faithful_iff_room (hashKey : M → H) (members : List M) :
    EveryState (step hashKey) (Faithful hashKey) {} members ↔
      EveryStep (step hashKey) (Room hashKey) {} members := by
  refine everyState_iff_everyStep (I := Inv hashKey) (fun st m h hroom => h.step hroom)
    (fun st h => h.faithful) (fun st m h hfaithful hnone => ?_) ⟨Nat.zero_lt_succ _, nofun, nofun⟩
  -- the member after the last one that can be counted has the id 0
  by_contra hfull
  have hcounter : st.memberCounter = 0xffff := by
    have := h.counter_lt
    bv_omega
  have hzero : (st.add hashKey m).1 = 0 := by rw [add, hnone, hcounter]; rfl
  exact (hfaithful _ mem_cons_self).1 hzero

/-- Members that are all different are counted. -/
lemma members_range (n : ℕ) : let st := runFrom (step id) ({} : MemberLog ℕ ℕ) (range n)
    st.memberCounter = BitVec.ofNat 32 n ∧ ∀ k ≥ n, st.members2 k = none := by
  induction n with
  | zero => exact ⟨rfl, fun k _ => rfl⟩
  | succ n ih =>
    obtain ⟨hcounter, hnone⟩ := ih
    have hsucc : runFrom (step id) ({} : MemberLog ℕ ℕ) (range (n + 1)) =
        step id (runFrom (step id) {} (range n)) n := by
      simp [runFrom, range_succ]
    simp only [hsucc, step, add, id, hnone n (Nat.le_refl n), hcounter]
    exact ⟨(BitVec.ofNat_add ..).symm, fun k hk =>
      (update_of_ne (by omega) ..).trans (hnone k (by omega))⟩

lemma id_range (n : ℕ) : ((runFrom (step id) ({} : MemberLog ℕ ℕ) (range n)).add id n).1 =
    (BitVec.ofNat 32 n + 1).setWidth 16 := by
  obtain ⟨hcounter, hnone⟩ := members_range n
  simp only [add, id, hnone n (Nat.le_refl n), hcounter]

/-- After 65535 members the next one gets the id 0. -/
theorem not_faithful_range :
    ((runFrom (step id) ({} : MemberLog ℕ ℕ) (List.range 0xffff)).add id 0xffff).1 = 0 :=
  (id_range 0xffff).trans (by decide)

/-- A member that is added again gets its id again, also when the counter does not fit ids. -/
theorem add_added (hashKey : M → H) (members : List M) : EveryState (step hashKey)
    (fun st => ∀ p ∈ st.added, (st.add hashKey p.1).1 = p.2) {} members := by
  refine (everyState_of_step (P := fun st => ∀ p ∈ st.added, st.members2 (hashKey p.1) = some p.2)
    (fun st member h => ?_) (by simp)).mono fun st h p hp => by rw [add, h p hp]
  cases hmember : st.members2 (hashKey member) <;> simp only [step, add, hmember] <;>
    grind [update_apply]

end MemberLog

end GeodeNative
