import Mathlib.Data.List.MinMax
import Mathlib.Data.Prod.Lex
import GeodeNative.Library.LastWriter
import GeodeNative.Cache.SegmentSpec

/-!
# Convergence of versioned events

Server events for a key reach a client in any order. Each carries a version tag, and
the client applies it only if the tag is not older than the stamp of its entry, so
that clients which received the same events in different orders should end with the
same entry.

The entry of a key behaves as a register that keeps the greatest event, with one
exception: an invalidate that meets a tombstone is dropped without a trace, although
its tag is newer. The events of a key converge exactly when this cannot happen to
the greatest one.
-/

namespace GeodeNative

open List Option

variable {V M : Type*}

open VersionStamp

/-- What a server event does to its key. -/
inductive EventKind (V : Type*)
  | put (value : V)
  | remove
  | invalidate
  deriving DecidableEq, Repr

namespace EventKind

/-- Whether an event removes its key. -/
def isRemove : EventKind V → Bool
  | remove => true
  | _ => false

/-- Whether an event invalidates its key. -/
def isInvalidate : EventKind V → Bool
  | invalidate => true
  | _ => false

end EventKind

structure ServerEvent (V : Type*) where
  kind : EventKind V
  tag : VersionTag
  deriving DecidableEq, Repr

namespace ServerEvent

/-- The value that an event leaves in the entry of its key. -/
def value (e : ServerEvent V) : CacheValue V :=
  match e.kind with
  | .put value => .object value
  | .remove => .tombstone
  | .invalidate => .invalid

/-- What a client observes of a key after an event: a removed key as none. -/
def observed (e : ServerEvent V) : Option (CacheValue V) :=
  if e.value.isTombstone then none else some e.value

/-- An invalidate is dropped where the entry is the tombstone of a remove. -/
def Blocks (e' e : ServerEvent V) : Prop :=
  e'.kind.isRemove = true ∧ e.kind.isInvalidate = true

instance : DecidableRel (Blocks : ServerEvent V → ServerEvent V → Prop) :=
  fun _ _ => inferInstanceAs (Decidable (_ ∧ _))

lemma not_blocks_self (e : ServerEvent V) : ¬ e.Blocks e := by
  rintro ⟨hrem, hinv⟩
  cases hkind : e.kind <;> simp [hkind, EventKind.isRemove, EventKind.isInvalidate] at hrem hinv

lemma value_eq_tombstone_iff (e : ServerEvent V) :
    e.value = .tombstone ↔ e.kind.isRemove = true := by
  unfold value EventKind.isRemove
  cases e.kind <;> simp

end ServerEvent

/-! ## The order of the tags -/

section Order

variable [LinearOrder M] (members : MemberListForVersionStamp M)

/-- Tags are ordered by entry version and, within a version, by member. -/
def VersionTag.rank (tag : VersionTag) : ℕ ×ₗ WithBot M :=
  toLex (tag.entryVersion.toNat, match members.getDSMember tag.internalMemId with
    | none => ⊥
    | some m => m)

/-- Events whose tags a client can compare: the versions fit a stamp and are close to each
other, the members are registered and ordered by `compareTo`, and no two events have the same
version and member. -/
structure ComparableEvents {V : Type*} (es : List (ServerEvent V)) : Prop where
  version_pos : ∀ e ∈ es, 1 ≤ e.tag.entryVersion.toNat
  version_le : ∀ e ∈ es, e.tag.entryVersion.toNat ≤ 2 ^ 24 - 1
  close : ∀ e ∈ es, ∀ e' ∈ es, e.tag.entryVersion.toNat ≤ e'.tag.entryVersion.toNat + 0x10000
  registered : ∀ e ∈ es, (members.getDSMember e.tag.internalMemId).isSome = true
  ordered : ∀ m m', members.compareTo m m' ≤ 0 ↔ m ≤ m'
  distinct : es.Pairwise fun e e' =>
    (e.tag.entryVersion, members.getDSMember e.tag.internalMemId) ≠
      (e'.tag.entryVersion, members.getDSMember e'.tag.internalMemId)

/-- Versions that are close to each other are compared as they are. -/
lemma rolloverVersions_of_close {a b : ℕ} (hab : a ≤ b + 0x10000) (hba : b ≤ a + 0x10000) :
    rolloverVersions a b = ((a : ℤ), (b : ℤ)) := by
  unfold rolloverVersions
  rw [if_neg]
  omega

/-- The check of one event's tag against the stamp of another compares their ranks. -/
lemma checkForConflict_eq_noErr_iff {es : List (ServerEvent V)}
    (hes : ComparableEvents members es) {e' e : ServerEvent V} (he' : e' ∈ es) (he : e ∈ es) :
    (setVersions e'.tag).checkForConflict members e.tag false = .noErr ↔
      e'.tag.rank members ≤ e.tag.rank members := by
  have hpos' := hes.version_pos e' he'
  have hpos := hes.version_pos e he
  have hstamp : (setVersions e'.tag).getEntryVersion.toNat = e'.tag.entryVersion.toNat := by
    have hle := hes.version_le e' he'
    rw [toNat_getEntryVersion_setVersions, Nat.mod_eq_of_lt (by omega)]
  have hset' : ¬ (setVersions e'.tag).IsUnset := by
    rintro ⟨hzero, -, -⟩
    rw [hzero] at hstamp
    simp at hstamp
    omega
  have hset : ¬ e.tag.IsUnset := by
    rintro ⟨hzero, -⟩
    rw [hzero] at hpos
    simp at hpos
  obtain ⟨m', hm'⟩ := isSome_iff_exists.mp (hes.registered e' he')
  obtain ⟨m, hm⟩ := isSome_iff_exists.mp (hes.registered e he)
  unfold checkForConflict
  rw [if_neg hset', if_neg hset, hstamp,
    rolloverVersions_of_close (hes.close e' he' e he) (hes.close e he e' he')]
  simp only [VersionTag.rank, Prod.Lex.toLex_le_toLex, memberId_setVersions, hm, hm',
    WithBot.coe_le_coe, ← hes.ordered]
  rcases lt_trichotomy e'.tag.entryVersion.toNat e.tag.entryVersion.toNat with hlt | heq | hgt
  · simp [hlt]
  · have hne : ¬ e.tag.entryVersion.toNat = 0 := by omega
    by_cases hcmp : members.compareTo m' m ≤ 0 <;> simp [heq, hne]
  · have hne : ¬ e'.tag.entryVersion.toNat = 0 := by omega
    have hnlt : ¬ e'.tag.entryVersion.toNat < e.tag.entryVersion.toNat := by omega
    simp [hne, hgt, hgt.ne']

namespace ComparableEvents

variable {V : Type*} {es : List (ServerEvent V)} (hes : ComparableEvents members es)
include hes

lemma nodup : es.Nodup := hes.distinct.imp fun h heq => h (by rw [heq])

/-- Events of the same version and member are the same event. -/
lemma eq_of_version_eq_of_member_eq {e e' : ServerEvent V} (he : e ∈ es) (he' : e' ∈ es)
    (hversion : e.tag.entryVersion.toNat = e'.tag.entryVersion.toNat)
    (hmember : members.getDSMember e.tag.internalMemId =
      members.getDSMember e'.tag.internalMemId) : e = e' := by
  by_contra hne
  have hsymm : Std.Symm fun e e' : ServerEvent V =>
      (e.tag.entryVersion, members.getDSMember e.tag.internalMemId) ≠
        (e'.tag.entryVersion, members.getDSMember e'.tag.internalMemId) :=
    ⟨fun _ _ h => h.symm⟩
  exact hes.distinct.forall he he' hne (Prod.ext (BitVec.eq_of_toNat_eq hversion) hmember)

lemma eq_of_rank_eq {e e' : ServerEvent V} (he : e ∈ es) (he' : e' ∈ es)
    (hrank : e.tag.rank members = e'.tag.rank members) : e = e' := by
  obtain ⟨hversion, hmember⟩ := Prod.ext_iff.mp (toLex_inj.mp hrank)
  refine eq_of_version_eq_of_member_eq members hes he he' hversion ?_
  obtain ⟨_, hm⟩ := isSome_iff_exists.mp (hes.registered e he)
  obtain ⟨_, hm'⟩ := isSome_iff_exists.mp (hes.registered e' he')
  simp only [hm, hm', WithBot.coe_inj] at hmember
  rw [hm, hm', hmember]

/-- The stamps of two events differ. -/
lemma eq_of_setVersions_eq {e e' : ServerEvent V} (he : e ∈ es) (he' : e' ∈ es)
    (hstamp : setVersions e.tag = .setVersions e'.tag) : e = e' := by
  have hle := hes.version_le e he
  have hle' := hes.version_le e' he'
  have hversion := congrArg (fun stamp => stamp.getEntryVersion.toNat) hstamp
  simp only [toNat_getEntryVersion_setVersions] at hversion
  have hmember : e.tag.internalMemId = e'.tag.internalMemId := congrArg memberId hstamp
  exact eq_of_version_eq_of_member_eq members hes he he' (by omega) (by rw [hmember])

end ComparableEvents

end Order

namespace MapSegment

variable {K D : Type*} [DecidableEq K] {region : Region K V D M} {s : MapSegment K V} {key : K}
  {last : Option (ServerEvent V)}

/-- Applies an event as the notification handlers do: without a tracker, and a remove as one
that has happened on the server. -/
def applyEvent (region : Region K V D M) (key : K) (s : MapSegment K V) (e : ServerEvent V) :
    MapSegment K V :=
  match e.kind with
  | .put value => (s.put region key (.object value) {} (-1) 0 (some e.tag) none).segment
  | .remove => (s.remove region key {} (-1) (some e.tag) true).segment
  | .invalidate => (s.invalidate region key {} (some e.tag)).segment

/-- What a client observes of a key: nothing if the key is absent or removed, otherwise its
value. -/
def observe (s : MapSegment K V) (key : K) : Option (CacheValue V) :=
  (s.entryAt key).bind fun entry => if entry.value.isTombstone then none else some entry.value

def stampAt (s : MapSegment K V) (key : K) : Option VersionStamp :=
  (s.entryAt key).map (·.versionStamp)

/-! ## One event -/

def recordedEntry (key : K) (e : ServerEvent V) : MapEntryImpl K V :=
  { (MapEntryImpl.create key : MapEntryImpl K V) with
    value := e.value
    versionStamp := .setVersions e.tag }

/-- The key has the entry that the event `last` left, or none. -/
structure Keeps (s : MapSegment K V) (key : K) (last : Option (ServerEvent V)) : Prop where
  enabled : s.concurrencyChecksEnabled = true
  none_of_none : last = none → s.map.lookup key = none
  entry_of_some : ∀ e, last = some e →
    ∃ id, s.map.lookup key = some (.impl id) ∧ s.heap id = recordedEntry key e

section OneEvent

variable {e : ServerEvent V} {id : ObjId}

omit [DecidableEq K] in
lemma isPlain_recordedEntry : (recordedEntry key e).IsPlain key := ⟨rfl, rfl, rfl, rfl⟩

lemma keeps_bindNew (h : s.concurrencyChecksEnabled = true) :
    (s.bindNew key (recordedEntry key e)).Keeps key (some e) := by
  refine ⟨h, by simp, ?_⟩
  rintro _ ⟨⟩
  exact ⟨s.nextObj, by simp [bindNew], by simp [bindNew]⟩

lemma Keeps.eraseTombstone (h : s.Keeps key last) {k : K} : (s.eraseTombstone k).Keeps key last :=
  ⟨by simpa using h.enabled, by simpa using h.none_of_none, by simpa using h.entry_of_some⟩

lemma Keeps.addTombstone (h : s.Keeps key last) : (s.addTombstone id).Keeps key last :=
  ⟨by simpa using h.enabled, by simpa using h.none_of_none, by simpa using h.entry_of_some⟩

section

variable (h : s.concurrencyChecksEnabled = true)

include h

/-- The first event of a key is stored, whatever it is. -/
lemma keeps_applyEvent_of_unbound
    (hk : s.map.lookup key = none) : (s.applyEvent region key e).Keeps key (some e) := by
  have hstored : s.storedEntry key e.value (some e.tag) none = recordedEntry key e := by
    simp [storedEntry, recordedEntry, h, newStamp]
  have hnew : (s.bindNew key (s.storedEntry key e.value (some e.tag) none)).Keeps key (some e) := by
    rw [hstored]
    exact keeps_bindNew h
  unfold applyEvent
  cases hkind : e.kind with
  | put value =>
    rw [ServerEvent.value, hkind] at hnew
    simpa only [put_of_unbound hk (not_refused_of_enabled h)] using hnew
  | remove =>
    rw [ServerEvent.value, hkind] at hnew
    simpa [remove_of_unbound h hk] using hnew.addTombstone
  | invalidate =>
    rw [ServerEvent.value, hkind] at hnew
    simpa only [invalidate_of_unbound h hk] using hnew

/-- An event whose tag conflicts with the stamp changes nothing. -/
lemma applyEvent_of_conflict
    (hk : s.map.lookup key = some (.impl id)) (hp : (s.heap id).IsPlain key) {err : GfErrType}
    (hc : s.checkVersion region id (some e.tag) false = .error err) :
    s.applyEvent region key e = s := by
  unfold applyEvent
  cases e.kind with
  | put => simp only [put_of_conflict hk hp none hc]
  | remove => simp only [remove_of_conflict h hk hp hc]
  | invalidate => simp only [invalidate_of_conflict hk hc]

/-- A newer event is stored, unless it is an invalidate that meets a tombstone. -/
lemma keeps_applyEvent_of_ok (hk : s.map.lookup key = some (.impl id)) {e' : ServerEvent V}
    (he' : s.heap id = recordedEntry key e') (hb : ¬ e'.Blocks e)
    (hc : s.checkVersion region id (some e.tag) false = .ok (.setVersions e.tag)) :
    (s.applyEvent region key e).Keeps key (some e) := by
  have hp : (s.heap id).IsPlain key := he' ▸ isPlain_recordedEntry
  have hwrite : { s.heap id with value := e.value, versionStamp := .setVersions e.tag } =
      recordedEntry key e := by
    rw [he']
    rfl
  have hset : (s.setImpl id (recordedEntry key e)).Keeps key (some e) := by
    refine ⟨h, by simp, ?_⟩
    rintro _ ⟨⟩
    exact ⟨id, hk, by simp [setImpl]⟩
  rw [← hwrite] at hset
  unfold applyEvent
  cases hkind : e.kind with
  | put value =>
    rw [ServerEvent.value, hkind] at hset
    by_cases ht : (s.heap id).value = .tombstone
    · have hon : (s.removeEntry key).concurrencyChecksEnabled = true := by
        simpa [removeEntry, unbind] using h
      have hstored : s.storedEntry key (.object value) (some e.tag) (some (.setVersions e.tag)) =
          recordedEntry key e := by
        simp [storedEntry, recordedEntry, h, newStamp, ServerEvent.value, hkind]
      simp only [put_of_tombstone hk hp none hc ht (not_refused_of_enabled hon), hstored]
      exact keeps_bindNew hon
    · have hput : putForTrackedEntry region s key (.object value) (.impl id) true id (-1)
          (.setVersions e.tag) none = _ :=
        putForTrackedEntry_untracked hp (.inr h) rfl
      simpa [put_of_live hk hp none hc ht hput, h] using hset.eraseTombstone
  | remove =>
    rw [ServerEvent.value, hkind] at hset
    simp only [remove_of_bound h hk hp hc]
    exact hset.eraseTombstone.addTombstone
  | invalidate =>
    rw [ServerEvent.value, hkind] at hset
    have ht : (s.heap id).value ≠ .tombstone := by
      intro ht
      rw [he'] at ht
      have hrem := e'.value_eq_tombstone_iff.mp ht
      exact hb ⟨hrem, by rw [hkind]; rfl⟩
    simp only [invalidate_of_live hk hp hc ht, h]
    exact hset

end

/-- An event that is blocked changes nothing. -/
lemma applyEvent_of_blocked (hk : s.map.lookup key = some (.impl id)) {e' : ServerEvent V}
    (he' : s.heap id = recordedEntry key e') (hb : e'.Blocks e)
    (hc : s.checkVersion region id (some e.tag) false = .ok (.setVersions e.tag)) :
    s.applyEvent region key e = s := by
  have hp : (s.heap id).IsPlain key := he' ▸ isPlain_recordedEntry
  have ht : (s.heap id).value = .tombstone := by
    rw [he']
    exact e'.value_eq_tombstone_iff.mpr hb.1
  have hinv := hb.2
  unfold applyEvent
  cases hkind : e.kind with
  | put | remove => simp [hkind, EventKind.isInvalidate] at hinv
  | invalidate => simp only [invalidate_of_tombstone hk hp hc ht]

/-- An event is recorded as a register records it. -/
lemma Keeps.applyEvent [LinearOrder M] (h : s.Keeps key last) (hlast : ∀ e', last = some e' →
      ((setVersions e'.tag).checkForConflict region.toMemberListForVersionStamp e.tag
        false = .noErr ↔ e'.tag.rank region.toMemberListForVersionStamp ≤
          e.tag.rank region.toMemberListForVersionStamp)) :
    (s.applyEvent region key e).Keeps key
      (record (fun e : ServerEvent V => e.tag.rank region.toMemberListForVersionStamp)
        ServerEvent.Blocks last e) := by
  cases last with
  | none => exact keeps_applyEvent_of_unbound h.enabled (h.none_of_none rfl)
  | some e' =>
    obtain ⟨id, hk, he'⟩ := h.entry_of_some e' rfl
    have hp : (s.heap id).IsPlain key := he' ▸ isPlain_recordedEntry
    have hrank := hlast e' rfl
    have hstamp : (s.heap id).versionStamp = .setVersions e'.tag := by rw [he']; rfl
    have hcheck : s.checkVersion region id (some e.tag) false = _ :=
      checkVersion_of_enabled h.enabled e.tag false
    rw [hstamp] at hcheck
    rw [record_some]
    by_cases hok : (setVersions e'.tag).checkForConflict
        region.toMemberListForVersionStamp e.tag false = .noErr
    · rw [hok] at hcheck
      by_cases hb : e'.Blocks e
      · rw [if_neg (fun hboth => hboth.2 hb), applyEvent_of_blocked hk he' hb hcheck]
        exact h
      · rw [if_pos ⟨hrank.mp hok, hb⟩]
        exact keeps_applyEvent_of_ok h.enabled hk he' hb hcheck
    · obtain ⟨err, herr⟩ : ∃ err, s.checkVersion region id (some e.tag) false = .error err := by
        rw [hcheck]
        split
        · contradiction
        · exact ⟨_, rfl⟩
      rw [if_neg (fun hboth => hok (hrank.mpr hboth.1)),
        applyEvent_of_conflict h.enabled hk hp herr]
      exact h

end OneEvent

/-! ## All orders -/

section Orders

variable [LinearOrder M] {es : List (ServerEvent V)}

def eventRank (region : Region K V D M) (e : ServerEvent V) : ℕ ×ₗ WithBot M :=
  e.tag.rank region.toMemberListForVersionStamp

lemma Keeps.foldl (hes : ComparableEvents region.toMemberListForVersionStamp es)
    (h : s.Keeps key last) (hlast : ∀ e, last = some e → e ∈ es)
    {l : List (ServerEvent V)} (hl : l ⊆ es) :
    (l.foldl (MapSegment.applyEvent region key) s).Keeps key
      (l.foldl (record (eventRank region) ServerEvent.Blocks) last) := by
  induction l generalizing s last with
  | nil => exact h
  | cons e _ ih =>
    have he : e ∈ es := hl mem_cons_self
    refine ih (h.applyEvent fun e' he' => ?_) ?_ fun x hx => hl (mem_cons_of_mem _ hx)
    · exact checkForConflict_eq_noErr_iff _ hes (hlast e' he') he
    · intro e' he'
      cases last with
      | none =>
        cases he'
        exact he
      | some =>
        rw [record_some] at he'
        split at he'
        · cases he'
          exact he
        · exact hlast e' he'

/-- What a client observes and the stamp it holds are those of the event it keeps. -/
lemma Keeps.observe_eq {e : ServerEvent V} (h : s.Keeps key (some e)) :
    s.observe key = e.observed ∧ s.stampAt key = some (.setVersions e.tag) := by
  obtain ⟨_, hk, he⟩ := h.entry_of_some e rfl
  have hentry : s.entryAt key = some (recordedEntry key e) := by
    rw [entryAt_of_lookup hk, he]
  unfold observe stampAt
  rw [hentry]
  exact ⟨rfl, rfl⟩

/-- `g` is the event with the greatest version and member. -/
def IsNewest (region : Region K V D M) (es : List (ServerEvent V)) (g : ServerEvent V) : Prop :=
  g ∈ es ∧ ∀ e ∈ es, eventRank region e ≤ eventRank region g

/-- In every two orders of the events a client ends with the same observation and the same
stamp, and they are those of the newest event. -/
def Converges (region : Region K V D M) (s : MapSegment K V) (key : K)
    (es : List (ServerEvent V)) : Prop :=
  ∀ l₁ l₂ : List (ServerEvent V), l₁.Perm es → l₂.Perm es →
    let s₁ := l₁.foldl (applyEvent region key) s
    let s₂ := l₂.foldl (applyEvent region key) s
    (s₁.observe key = s₂.observe key ∧ s₁.stampAt key = s₂.stampAt key) ∧
      ∀ g, IsNewest region es g →
        s₁.observe key = g.observed ∧ s₁.stampAt key = some (.setVersions g.tag)

/-- **Convergence.** From a segment without the key, the events of a key converge exactly when
the newest one is not an invalidate, or no event is a remove. -/
theorem converges_iff_newest_not_blocked (region : Region K V D M) (s : MapSegment K V) (key : K)
    (es : List (ServerEvent V)) (hon : s.concurrencyChecksEnabled = true)
    (hk : s.map.lookup key = none) (hes : ComparableEvents region.toMemberListForVersionStamp es) :
    Converges region s key es ↔
      ∀ g, IsNewest region es g → g.kind.isInvalidate = true →
        ∀ e ∈ es, ¬ e.kind.isRemove = true := by
  have hrun : ∀ l : List (ServerEvent V), l.Perm es → (l.foldl (applyEvent region key) s).Keeps key
        (l.foldl (record (eventRank region) ServerEvent.Blocks) none) := fun l hl =>
    Keeps.foldl hes ⟨hon, fun _ => hk, by simp⟩ (by simp) fun e he => hl.mem_iff.mp he
  have horders : ∀ g, IsNewest region es g → ((∀ l : List (ServerEvent V), l.Perm es →
        l.foldl (record (eventRank region) ServerEvent.Blocks) none = some g) ↔
          ∀ e ∈ es, ¬ e.Blocks g) := fun g hg =>
    forall_perm_foldl_record_iff (hes.nodup _) ⟨hg.1, fun e he hle =>
      hes.eq_of_rank_eq _ he hg.1 (le_antisymm (hg.2 e he) hle)⟩ g.not_blocks_self
  constructor
  · intro hconv g hg hinv e he hrem
    refine (horders g hg).mp ?_ e he ⟨hrem, hinv⟩
    intro l hl
    obtain ⟨-, hstamp⟩ := (hconv l l hl hl).2 g hg
    cases hlast : l.foldl (record (eventRank region) ServerEvent.Blocks) none with
    | none =>
      have hnone := (hrun l hl).none_of_none hlast
      rw [stampAt, entryAt_eq_none_iff.mpr hnone] at hstamp
      cases hstamp
    | some e' =>
      have hmem : e' ∈ es := hl.mem_iff.mp ((mem_of_foldl_record hlast).resolve_left (by simp))
      have hkeeps := hrun l hl
      rw [hlast] at hkeeps
      rw [hkeeps.observe_eq.2] at hstamp
      rw [hes.eq_of_setVersions_eq _ hmem hg.1 (some.inj hstamp)]
  · intro hcond l₁ l₂ hl₁ hl₂
    have hends : ∀ g, IsNewest region es g → ∀ l : List (ServerEvent V), l.Perm es →
        (l.foldl (applyEvent region key) s).observe key = g.observed ∧
          (l.foldl (applyEvent region key) s).stampAt key = some (.setVersions g.tag) := by
      intro g hg l hl
      have hlast := (horders g hg).mpr (fun e he hb => hcond g hg hb.2 e he hb.1) l hl
      have hkeeps := hrun l hl
      rw [hlast] at hkeeps
      exact hkeeps.observe_eq
    refine ⟨?_, fun g hg => hends g hg l₁ hl₁⟩
    cases hmax : es.argmax (eventRank region) with
    | none =>
      have hnil : es = [] := argmax_eq_none.mp hmax
      subst hnil
      rw [perm_nil.mp hl₁, perm_nil.mp hl₂]
      exact ⟨rfl, rfl⟩
    | some g =>
      have hg : IsNewest region es g := ⟨argmax_mem hmax, fun e he => le_of_mem_argmax he hmax⟩
      obtain ⟨hobs₁, hstamp₁⟩ := hends g hg l₁ hl₁
      obtain ⟨hobs₂, hstamp₂⟩ := hends g hg l₂ hl₂
      exact ⟨hobs₁.trans hobs₂.symm, hstamp₁.trans hstamp₂.symm⟩

/-- A cache that knows the members 0 to 3, and values and keys that carry nothing. -/
def fourMembers : Region Unit Unit Unit ℕ where
  getDSMember id := if id < 4 then some id.toNat else none
  compareTo m m' := m - m'
  cloningEnabled := false
  fromDelta v _ := (v, true)
  getFromDisk _ := none

def memberOneEvent (kind : EventKind Unit) (version : BitVec 32) : ServerEvent Unit :=
  ⟨kind, ⟨version, 0, version, 1, 0⟩⟩

theorem converges_remove_put :
    Converges fourMembers (empty true 0 (fun _ => .create ()) fun _ => ⟨0, false⟩) ()
      [memberOneEvent .remove 1, memberOneEvent (.put ()) 2] := by
  refine (converges_iff_newest_not_blocked _ _ _ _ rfl rfl ?_).mpr ?_
  · exact ⟨by decide, by decide, by decide, by decide,
      fun m m' => by simp only [fourMembers]; omega, by decide⟩
  · rintro g ⟨hg, -⟩ hinv
    have hnone : ∀ e ∈ [memberOneEvent .remove 1, memberOneEvent (.put ()) 2],
        ¬ e.kind.isInvalidate = true := by decide
    exact absurd hinv (hnone g hg)

/-- A remove and a newer invalidate of one member end in different stamps, depending on which
comes first. -/
theorem remove_invalidate_not_converge :
    ComparableEvents fourMembers.toMemberListForVersionStamp
        [memberOneEvent .remove 1, memberOneEvent .invalidate 2] ∧
      ¬ Converges fourMembers (empty true 0 (fun _ => .create ()) fun _ => ⟨0, false⟩) ()
        [memberOneEvent .remove 1, memberOneEvent .invalidate 2] := by
  refine ⟨⟨by decide, by decide, by decide, by decide,
    fun m m' => by simp only [fourMembers]; omega, by decide⟩, fun hconv => ?_⟩
  have hstamp := (hconv _ _ (List.Perm.refl _) (List.Perm.swap _ _ [])).1.2
  exact absurd hstamp (by decide)

end Orders

end MapSegment

end GeodeNative
