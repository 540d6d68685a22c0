import GeodeNative.Library.Counting
import GeodeNative.Cache.Tombstones

/-!
# What a call does to its key and what it reports

The counter of an entry map is adjusted from what a segment returns, not from what it
did, and some calls return one thing and do another. A call changes at most one key
of a segment (`KeyEffect`), and `Accounting` relates what it does to that key to the
adjustment that follows from its results: either the two agree, or the call is one of
those that the predicates `PutMiscounts`, `CreateMiscounts` and so on describe from the
state it is made in.
-/

namespace GeodeNative

open MapEntry AList

open List

open MapEntryImpl

namespace MapSegment

variable {K V D M : Type*} [DecidableEq K] {s t : MapSegment K V} {entry : MapEntryImpl K V}
  {id : ObjId} {k : K}

/-! ## The keys of a segment -/

/-- Whether `getKeys` lists a key: it is bound, and not to a tombstone. -/
def isLive (s : MapSegment K V) (k : K) : Bool :=
  (s.entryAt k).any fun entry => !entry.value.isTombstone

/-- The keys that `getKeys` lists. -/
def liveKeys (s : MapSegment K V) : Finset K :=
  s.map.keys.toFinset.filter fun k => s.isLive k = true

@[simp] lemma mem_liveKeys : k ∈ s.liveKeys ↔ s.isLive k = true := by
  unfold liveKeys
  rw [Finset.mem_filter, mem_toFinset, ← AList.mem_keys, ← AList.lookup_isSome]
  refine and_iff_right_of_imp fun h => ?_
  unfold isLive entryAt at h
  cases hk : s.map.lookup k with
  | none => simp [hk] at h
  | some => rfl

lemma isLive_of_unbound (hk : s.entryAt k = none) : s.isLive k = false := by
  simp [isLive, hk]

lemma isLive_of_entryAt (hk : s.entryAt k = some entry) :
    s.isLive k = !entry.value.isTombstone := by
  simp [isLive, hk]

lemma isLive_congr (h : t.entryAt k = s.entryAt k) : t.isLive k = s.isLive k := by
  unfold isLive
  rw [h]

/-- A plain segment lists its live keys, each once. -/
lemma getKeys_of_plain (hs : s.Plain) :
    ∃ keys, s.getKeys = some keys ∧ keys.length = s.liveKeys.card := by
  have hlookup : ∀ e ∈ s.map.entries, s.map.lookup e.1 = some e.2 := fun e he =>
    mem_lookup_iff.mpr he
  have hptr : ∀ e ∈ s.map.entries, (e.2.getImplPtr s.heap).isSome := by
    intro e he
    obtain ⟨_, -, heq, hp⟩ := hs e.1 e.2 (hlookup e he)
    rw [heq, getImplPtr_of_isPlain hp]
    rfl
  refine ⟨_, if_pos hptr, ?_⟩
  have hnodup : ((s.map.entries.filter fun e => !(e.2.getValue s.heap).isTombstone).map
      (·.1)).Nodup :=
    s.map.keys_nodup.sublist (filter_sublist.map _)
  rw [← toFinset_card_of_nodup hnodup]
  congr 1
  ext k
  rw [mem_toFinset, mem_map]
  constructor
  · rintro ⟨e, he, rfl⟩
    obtain ⟨hmem, hval⟩ := mem_filter.mp he
    simpa [isLive, entryAt, hlookup e hmem, getValue] using hval
  · intro h
    cases hk : s.map.lookup k with
    | none => simp [isLive, entryAt, hk] at h
    | some e =>
      refine ⟨⟨k, e⟩, mem_filter.mpr ⟨mem_lookup_iff.mp hk, ?_⟩, rfl⟩
      simpa [isLive, entryAt, hk, getValue] using h

/-- The number of live keys changes with the one key that changes. -/
lemma card_liveKeys_of_frame (h : ∀ k', k' ≠ k → t.entryAt k' = s.entryAt k') :
    t.liveKeys.card + (s.isLive k).toNat = s.liveKeys.card + (t.isLive k).toNat := by
  have hagree : ∀ k', k' ≠ k → (k' ∈ t.liveKeys ↔ k' ∈ s.liveKeys) := by
    intro k' hk'
    rw [mem_liveKeys, mem_liveKeys, isLive_congr (h k' hk')]
  have hcard := card_add_ite_of_agree hagree
  cases hs : s.isLive k <;> cases ht : t.isLive k <;> simpa [hs, ht] using hcard

/-! ## Calls that change one key -/

/-- Every entry is plain, and without concurrency checks none is a tombstone. -/
structure Regular (s : MapSegment K V) : Prop where
  plain : s.Plain
  no_tombstone : s.concurrencyChecksEnabled = false → ∀ k, ¬ s.HoldsTombstone k

/-- `t` is `s` with the entry of at most one key changed. -/
structure KeyEffect (s t : MapSegment K V) (k : K) : Prop where
  regular : t.Regular
  enabled : t.concurrencyChecksEnabled = s.concurrencyChecksEnabled
  frame : ∀ k', k' ≠ k → t.entryAt k' = s.entryAt k'

section Effects

variable {u : MapSegment K V}

/-- Two effects on one key are one effect. -/
lemma KeyEffect.trans (h₁ : KeyEffect s t k) (h₂ : KeyEffect t u k) : KeyEffect s u k :=
  ⟨h₂.regular, h₂.enabled.trans h₁.enabled, fun k' hk' => (h₂.frame k' hk').trans (h₁.frame k' hk')⟩

lemma KeyEffect.eraseTombstone (h : KeyEffect s t k) (k' : K) :
    KeyEffect s (t.eraseTombstone k') k where
  regular := ⟨by simpa using h.regular.plain, fun hoff k'' => by
    rw [holdsTombstone_congr (t.entryAt_eraseTombstone k')]
    exact h.regular.no_tombstone (by simpa using hoff) k''⟩
  enabled := by simpa using h.enabled
  frame := by simpa using h.frame

lemma KeyEffect.addTombstone (h : KeyEffect s t k) : KeyEffect s (t.addTombstone id) k where
  regular := ⟨by simpa using h.regular.plain, fun hoff k'' => by
    rw [holdsTombstone_congr (t.entryAt_addTombstone id)]
    exact h.regular.no_tombstone (by simpa using hoff) k''⟩
  enabled := by simpa using h.enabled
  frame := by simpa using h.frame

variable (hs : s.Regular)

include hs

lemma KeyEffect.refl (k : K) : KeyEffect s s k := ⟨hs, rfl, fun _ _ => rfl⟩

/-- An update of one key that keeps the segment plain, and stores a tombstone only with
concurrency checks. -/
lemma KeyEffect.of_entryAt {stored : Option (MapEntryImpl K V)} (hplain : t.Plain)
    (henabled : t.concurrencyChecksEnabled = s.concurrencyChecksEnabled)
    (hentry : ∀ k', t.entryAt k' = if k' = k then stored else s.entryAt k')
    (hv : s.concurrencyChecksEnabled = false → ∀ entry ∈ stored, entry.value ≠ .tombstone) :
    KeyEffect s t k := by
  have hframe : ∀ k', k' ≠ k → t.entryAt k' = s.entryAt k' := fun k' hk' => by
    rw [hentry, if_neg hk']
  refine ⟨⟨hplain, fun hoff k' => ?_⟩, henabled, hframe⟩
  rw [henabled] at hoff
  by_cases hk' : k' = k
  · rintro ⟨entry, he, ht⟩
    rw [hentry, if_pos hk'] at he
    exact hv hoff entry he ht
  · rw [holdsTombstone_congr (hframe k' hk')]
    exact hs.no_tombstone hoff k'

lemma keyEffect_bindNew (he : entry.IsPlain k)
    (hv : s.concurrencyChecksEnabled = false → entry.value ≠ .tombstone) :
    KeyEffect s (s.bindNew k entry) k :=
  .of_entryAt hs (plain_bindNew hs.plain he) rfl (entryAt_bindNew hs.plain entry)
    (by simpa using hv)

lemma keyEffect_setImpl (hk : s.map.lookup k = some (.impl id))
    (he : entry.IsPlain k) (hv : s.concurrencyChecksEnabled = false → entry.value ≠ .tombstone) :
    KeyEffect s (s.setImpl id entry) k :=
  .of_entryAt hs (plain_setImpl hs.plain hk he) rfl (entryAt_setImpl hs.plain hk entry)
    (by simpa using hv)

lemma keyEffect_unbind : KeyEffect s (s.unbind k) k :=
  .of_entryAt hs (plain_unbind hs.plain k) rfl (s.entryAt_unbind k) (by simp)

/-- Removing an entry concerns its key only. -/
lemma keyEffect_removeEntry (k : K) : KeyEffect s (s.removeEntry k) k := by
  have herase := (KeyEffect.refl hs k).eraseTombstone k
  exact herase.trans (keyEffect_unbind herase.regular)

lemma Regular.ne_tombstone (hk : s.map.lookup k = some (.impl id))
    (hoff : s.concurrencyChecksEnabled = false) : (s.heap id).value ≠ .tombstone := fun ht =>
  hs.no_tombstone hoff k ((holdsTombstone_iff_of_lookup hk).mpr ht)

/-- With a regular segment a tombstone means that concurrency checks are enabled. -/
lemma Regular.enabled_of_tombstone (hk : s.map.lookup k = some (.impl id))
    (ht : (s.heap id).value = .tombstone) : s.concurrencyChecksEnabled = true := by
  by_contra hoff
  exact hs.ne_tombstone hk (by simpa using hoff) ht

end Effects

/-! ## What a call does to its key and what it reports -/

/-- How the adjustment `change` of the counter relates to what a call did to its key, which
was live before the call if `before` holds and is live after it if `after` holds: the call is
one of those that are miscounted, or it adds, keeps or drops the key and says so. -/
inductive Accounting (miscounts binds : Prop) (before after : Bool) (change : ℤ) : Prop
  | miscounted : miscounts → change ≠ after.toNat - before.toNat → Accounting _ _ _ _ _
  | added : ¬ miscounts → binds → before = false → after = true → change = 1 →
      Accounting _ _ _ _ _
  | kept : ¬ miscounts → ¬ binds → after = before → change = 0 → Accounting _ _ _ _ _
  | dropped : ¬ miscounts → ¬ binds → before = true → after = false → change = -1 →
      Accounting _ _ _ _ _

namespace Accounting

variable {miscounts binds : Prop} {after : Bool} {change : ℤ}

/-- A call on a live key that is not counted as a removal: it is miscounted unless the key stays
and nothing is counted. -/
lemma of_live (hbinds : ¬ binds) (hchange : 0 ≤ change)
    (hmis : miscounts ↔ ¬ (after = true ∧ change = 0)) :
    Accounting miscounts binds true after change := by
  by_cases hkept : after = true ∧ change = 0
  · exact .kept (fun h => hmis.mp h hkept) hbinds hkept.1 hkept.2
  · refine .miscounted (hmis.mpr hkept) ?_
    cases after <;> simp at hkept ⊢ <;> omega

end Accounting

/-- A call changes one key, and `change` accounts for what it does to that key. -/
def Accounted (s t : MapSegment K V) (k : K) (miscounts binds : Prop) (change : ℤ) : Prop :=
  KeyEffect s t k ∧ Accounting miscounts binds (s.isLive k) (t.isLive k) change

/-- The version tag of a call does not conflict with the stamp of the entry. -/
def Accepts (region : Region K V D M) (s : MapSegment K V) (entry : MapEntryImpl K V)
    (versionTag : Option VersionTag) (deltaCheck : Bool) : Prop :=
  s.concurrencyChecksEnabled = true → ∀ tag, versionTag = some tag →
    entry.versionStamp.checkForConflict region.toMemberListForVersionStamp tag deltaCheck = .noErr

section Calls

variable (region : Region K V D M) {versionTag : Option VersionTag} {deltaCheck afterRemote : Bool}
  {stamp : VersionStamp} {updateCount destroyTracker : ℤ} {newValue : NewValue V} {delta : Option D}
  {err : GfErrType}

/-! ### Updating a live entry -/

/-- A call with the count of a tracker, where trackers count. -/
def Tracked (s : MapSegment K V) (updateCount : ℤ) : Prop :=
  0 ≤ updateCount ∧ s.concurrencyChecksEnabled = false

section

omit [DecidableEq K]

lemma accepts_of_ok (hc : s.checkVersion region id versionTag deltaCheck = .ok stamp) :
    s.Accepts region (s.heap id) versionTag deltaCheck := by
  rintro hon tag rfl
  rw [checkVersion_of_enabled hon] at hc
  by_contra hne
  split at hc
  · contradiction
  · cases hc

lemma not_accepts_of_error (hc : s.checkVersion region id versionTag deltaCheck = .error err) :
    ¬ s.Accepts region (s.heap id) versionTag deltaCheck := by
  intro hacc
  by_cases hon : s.concurrencyChecksEnabled = true
  · cases versionTag with
    | none => simp [checkVersion, hon] at hc
    | some tag =>
      rw [checkVersion_of_enabled hon, hacc hon tag rfl] at hc
      cases hc
  · simp [checkVersion, hon] at hc

/-- A refused version is an error. -/
lemma ne_noErr_of_error
    (hc : s.checkVersion region id versionTag deltaCheck = .error err) : err ≠ .noErr := by
  rintro rfl
  by_cases hon : s.concurrencyChecksEnabled = true
  · cases versionTag with
    | none => simp [checkVersion, hon] at hc
    | some tag =>
      rw [checkVersion_of_enabled hon] at hc
      generalize (s.heap id).versionStamp.checkForConflict _ tag deltaCheck = err at hc
      cases err <;> cases hc
  · simp [checkVersion, hon] at hc

lemma not_tracked_iff :
    ¬ s.Tracked updateCount ↔ updateCount < 0 ∨ s.concurrencyChecksEnabled = true := by
  unfold Tracked
  rw [not_and_or, not_le, Bool.not_eq_false]

end

section

variable (hs : s.Regular)

include hs

/-- The object of a bound entry is overwritten by one that is no tombstone. -/
lemma setImpl_effect (hk : s.map.lookup k = some (.impl id))
    (he : entry.IsPlain k) (hv : entry.value ≠ .tombstone) :
    KeyEffect s (s.setImpl id entry) k ∧ (s.setImpl id entry).isLive k = true := by
  have hentry : (s.setImpl id entry).entryAt k = some entry := by
    rw [entryAt_setImpl hs.plain hk, if_pos rfl]
  refine ⟨keyEffect_setImpl hs hk he fun _ => hv, ?_⟩
  simp [isLive_of_entryAt hentry, hv]

/-- A tracker that is not there is released: an entry without a value is dropped. -/
lemma removeTracker_effect (hoff : s.concurrencyChecksEnabled = false)
    (hk : s.map.lookup k = some (.impl id)) (hp : (s.heap id).IsPlain k) :
    KeyEffect s (s.removeTracker k (.impl id) id) k ∧
      ((s.removeTracker k (.impl id) id).isLive k = false ↔ (s.heap id).getValueI = .null) := by
  have hlive := hs.ne_tombstone hk hoff
  rw [removeTracker_of_isPlain hoff hp]
  by_cases hnull : (s.heap id).getValueI = .null
  · rw [if_pos (CacheValue.isNull_iff.mpr hnull)]
    refine ⟨keyEffect_unbind hs, iff_of_true (isLive_of_unbound ?_) hnull⟩
    rw [entryAt_unbind, if_pos rfl]
  · rw [if_neg (by simpa using hnull)]
    refine ⟨.refl hs k, iff_of_false ?_ hnull⟩
    simp [isLive_of_entryAt (entryAt_of_lookup hk), hlive]

/-- What `putForTrackedEntry` does to a live entry: a tracked call that leaves a null value
drops the entry; every other call leaves it live. -/
lemma putForTrackedEntry_effect (hk : s.map.lookup k = some (.impl id))
    (hp : (s.heap id).IsPlain k) (ht : (s.heap id).value ≠ .tombstone) :
    let res := putForTrackedEntry region s k newValue.toCacheValue (.impl id) true id updateCount
      stamp delta
    KeyEffect s res.2 k ∧
      (res.2.isLive k = false ↔ s.Tracked updateCount ∧
        (updateCount = 0 ∧ newValue = .null ∨ updateCount ≠ 0 ∧ (s.heap id).getValueI = .null)) ∧
      (res.1 = .returned .noErr ↔ s.Tracked updateCount ∧ updateCount = 0 ∨
        ¬ s.Tracked updateCount ∧
          (updatedValue region k (s.heap id) newValue.toCacheValue delta).1 = .noErr) := by
  by_cases htr : s.Tracked updateCount
  · obtain ⟨hu, hoff⟩ := htr
    rw [putForTrackedEntry_tracked hp hoff hu]
    by_cases hzero : updateCount = 0
    · have hset : KeyEffect s (s.setValueI id newValue.toCacheValue) k :=
        (setImpl_effect hs hk (hp.update newValue.toCacheValue _)
          newValue.toCacheValue_ne_tombstone).1
      have hk' : (s.setValueI id newValue.toCacheValue).map.lookup k = some (.impl id) := hk
      have hobj : (s.setValueI id newValue.toCacheValue).heap id =
          { s.heap id with value := newValue.toCacheValue } := by
        simp [setValueI, setImpl]
      obtain ⟨hrel, hdead⟩ := removeTracker_effect hset.regular (hset.enabled.trans hoff) hk'
        (by rw [hobj]; exact hp.update _ _)
      have hnull : ((s.setValueI id newValue.toCacheValue).heap id).getValueI = .null ↔
          newValue = .null := by
        rw [hobj]
        cases newValue <;> simp [getValueI, NewValue.toCacheValue]
      simp only [if_pos hzero]
      refine ⟨hset.trans hrel, hdead.trans ?_, ?_⟩
      · rw [hnull]
        simp [Tracked, hoff, hzero]
      · simp [Tracked, hoff, hzero]
    · obtain ⟨hrel, hdead⟩ := removeTracker_effect hs hoff hk hp
      simp only [if_neg hzero]
      refine ⟨hrel, hdead.trans ?_, ?_⟩
      · simp [Tracked, hu, hoff, hzero]
      · simp [Tracked, hu, hoff, hzero]
  · obtain ⟨err, value, hv⟩ :
        ∃ err value, updatedValue region k (s.heap id) newValue.toCacheValue delta = (err, value) :=
      ⟨_, _, rfl⟩
    have hvalue : value ≠ .tombstone := by
      have hne := updatedValue_ne_tombstone region k ht newValue.toCacheValue_ne_tombstone delta
      rwa [hv] at hne
    rw [putForTrackedEntry_untracked hp (not_tracked_iff.mp htr) hv, hv]
    obtain ⟨hset, hlive⟩ := setImpl_effect hs hk (hp.update value stamp) hvalue
    obtain ⟨hset', hlive'⟩ := setImpl_effect hs hk (hp.update value (s.heap id).versionStamp) hvalue
    by_cases herr : err = .noErr
    · by_cases hon : s.concurrencyChecksEnabled = true
      · have hlive'' := (isLive_congr (entryAt_eraseTombstone _ k)).trans hlive
        simp only [herr, hon]
        exact ⟨hset.eraseTombstone k, by simp [htr, hlive''], by simp [htr]⟩
      · simp only [herr, hon]
        exact ⟨hset', by simp [htr, hlive', setValueI], by simp [htr]⟩
    · simp only [herr, ne_eq]
      exact ⟨hset', by simp [htr, hlive', setValueI], by simp [htr, herr]⟩

/-- The key is bound to a new entry that is no tombstone. -/
lemma bindNew_effect (he : entry.IsPlain k) (hv : entry.value ≠ .tombstone) :
    KeyEffect s (s.bindNew k entry) k ∧ (s.bindNew k entry).isLive k = true := by
  have hentry : (s.bindNew k entry).entryAt k = some entry := by
    rw [entryAt_bindNew hs.plain, if_pos rfl]
  refine ⟨keyEffect_bindNew hs he fun _ => hv, ?_⟩
  simp [isLive_of_entryAt hentry, hv]

section

variable {miscounts binds : Prop} {change : ℤ} (hmis : ¬ miscounts)

include hmis

lemma accounted_refl (hbinds : ¬ binds) (hchange : change = 0) :
    Accounted s s k miscounts binds change :=
  ⟨.refl hs k, .kept hmis hbinds rfl hchange⟩

variable (hbinds : binds) (hchange : change = 1) (hv : entry.value ≠ .tombstone)
  (he : entry.IsPlain k)

include hbinds hchange hv he

/-- A new entry is counted. -/
lemma accounted_bindNew (hentry : s.entryAt k = none) :
    Accounted s (s.bindNew k entry) k miscounts binds change := by
  obtain ⟨heff, hlive⟩ := bindNew_effect hs he hv
  exact ⟨heff, .added hmis hbinds (isLive_of_unbound hentry) hlive hchange⟩

/-- A tombstone is replaced by a new entry that is none. -/
lemma accounted_rebind (hk : s.map.lookup k = some (.impl id))
    (ht : (s.heap id).value = .tombstone) :
    Accounted s ((s.removeEntry k).bindNew k entry) k miscounts binds change := by
  have hremove := keyEffect_removeEntry hs k
  obtain ⟨hbind, hlive⟩ := bindNew_effect hremove.regular he hv
  have hdead : s.isLive k = false := by simp [isLive_of_entryAt (entryAt_of_lookup hk), ht]
  exact ⟨hremove.trans hbind, .added hmis hbinds hdead hlive hchange⟩

end

end

/-! ### Put -/

/-- Puts whose effect on the number of keys is misreported: an untracked put on an entry
without a value, which is counted as a new key; a tracked put on such an entry, or one that
stores a null value, which drops the entry. -/
def PutMiscounts (s : MapSegment K V) (key : K) (newValue : NewValue V) (updateCount : ℤ)
    (versionTag : Option VersionTag) (delta : Option D) : Prop :=
  ∃ entry, s.entryAt key = some entry ∧ entry.value ≠ .tombstone ∧
    s.Accepts region entry versionTag delta.isSome ∧
    (¬ s.Tracked updateCount ∧ entry.getValueI = .null ∧ delta = none ∨
      s.Tracked updateCount ∧
        (entry.getValueI = .null ∨ updateCount = 0 ∧ newValue = .null))

/-- Puts that add a key: one that is not bound, or that is bound to a tombstone. -/
def PutBinds (s : MapSegment K V) (key : K) (updateCount destroyTracker : ℤ)
    (versionTag : Option VersionTag) (delta : Option D) : Prop :=
  s.entryAt key = none ∧ delta = none ∧ ¬ s.Refused key updateCount destroyTracker ∨
    ∃ entry, s.entryAt key = some entry ∧ entry.value = .tombstone ∧
      s.Accepts region entry versionTag delta.isSome

/-- The adjustment of the counter after a put. -/
def putChange (result : CallResult K V) : ℤ :=
  if result.outcome = .returned .noErr ∧ !result.outs.isUpdate then 1 else 0

/-- What the condition of a miscounted put says about a bound key. -/
lemma putMiscounts_iff_of_entryAt (hentry : s.entryAt k = some entry) :
    PutMiscounts region s k newValue updateCount versionTag delta ↔
      entry.value ≠ .tombstone ∧ s.Accepts region entry versionTag delta.isSome ∧
        (¬ s.Tracked updateCount ∧ entry.getValueI = .null ∧ delta = none ∨
          s.Tracked updateCount ∧
            (entry.getValueI = .null ∨ updateCount = 0 ∧ newValue = .null)) := by
  unfold PutMiscounts
  rw [hentry]
  simp

lemma putBinds_iff_of_entryAt (hentry : s.entryAt k = some entry) :
    PutBinds region s k updateCount destroyTracker versionTag delta ↔
      entry.value = .tombstone ∧ s.Accepts region entry versionTag delta.isSome := by
  unfold PutBinds
  rw [hentry]
  simp

/-! ### Create -/

/-- Creates whose effect on the number of keys is misreported: those on an entry without a
value, which are counted as a new key or drop the entry. -/
def CreateMiscounts (s : MapSegment K V) (key : K) (versionTag : Option VersionTag) : Prop :=
  ∃ entry, s.entryAt key = some entry ∧ entry.getValueI = .null ∧
    s.Accepts region entry versionTag false

def CreateBinds (s : MapSegment K V) (key : K) (updateCount destroyTracker : ℤ)
    (versionTag : Option VersionTag) : Prop :=
  s.entryAt key = none ∧ ¬ s.Refused key updateCount destroyTracker ∨
    ∃ entry, s.entryAt key = some entry ∧ entry.value = .tombstone ∧
      s.Accepts region entry versionTag false

/-- The adjustment of the counter after a create. -/
def createChange (result : CallResult K V) : ℤ :=
  if result.outcome = .returned .noErr ∧ result.outs.oldValue.isNull then 1 else 0

/-! ### Invalidate -/

/-- Invalidates that add a key: with concurrency checks an unknown key is bound. -/
def InvalidateBinds (s : MapSegment K V) (key : K) : Prop :=
  s.concurrencyChecksEnabled = true ∧ s.entryAt key = none

/-- The adjustment of the counter after an invalidate. -/
def invalidateChange (result : CallResult K V) : ℤ :=
  if result.outcome ≠ .badWeakPtr ∧ result.outs.isTokenAdded then 1 else 0

/-! ### Remove -/

/-- Removes whose effect on the number of keys is misreported: with concurrency checks, one of
a tombstone after it succeeded on the server; without them, one with the count of a tracker,
which unbinds the key and returns an error. -/
def RemoveMiscounts (s : MapSegment K V) (key : K) (updateCount : ℤ)
    (versionTag : Option VersionTag) (afterRemote : Bool) : Prop :=
  ∃ entry, s.entryAt key = some entry ∧
    (s.concurrencyChecksEnabled = true ∧ afterRemote = true ∧ entry.value = .tombstone ∧
        s.Accepts region entry versionTag false ∨
      s.concurrencyChecksEnabled = false ∧ 0 < updateCount)

/-- The adjustment of the counter after a remove. -/
def removeChange (result : CallResult K V) : ℤ :=
  if result.outcome = .returned .noErr ∧ result.outs.isEntryFound then -1 else 0

/-- Without concurrency checks the remove of an unknown key is noted for the destroy trackers. -/
lemma remove_of_unbound_disabled (updateCount : ℤ) (versionTag : Option VersionTag)
    (hoff : s.concurrencyChecksEnabled = false) (hk : s.map.lookup k = none) :
    ∃ destroyedKeys, s.remove region k {} updateCount versionTag afterRemote =
      ⟨.returned .cacheEntryNotFound, {}, { s with destroyedKeys }⟩ := by
  unfold remove
  rw [if_neg (by simp [hoff])]
  simp only [hk]
  by_cases hnum : s.numDestroyTrackers > 0
  · exact ⟨_, by rw [if_pos hnum]⟩
  · exact ⟨s.destroyedKeys, by rw [if_neg hnum]⟩

/-- Without concurrency checks a bound key is unbound in any case. -/
lemma remove_of_disabled (hoff : s.concurrencyChecksEnabled = false)
    (hk : s.map.lookup k = some (.impl id)) (hp : (s.heap id).IsPlain k) :
    s.remove region k {} updateCount versionTag afterRemote =
      ⟨.returned (if 0 < updateCount then .cacheEntryUpdated else .noErr),
        if 0 < updateCount then {}
        else match (s.heap id).getValueI with
          | .null | .tombstone => {}
          | oldValue => { oldValue, me := some id },
        s.unbind k⟩ := by
  have hcount : getUpdateCount s.heap (.impl id) = 0 := by
    simp [getUpdateCount, hp.updateCount_eq]
  have hiff : updateCount ≥ 0 ∧ updateCount ≠ 0 ↔ 0 < updateCount := by omega
  unfold remove
  simp only [hoff, Bool.false_eq_true, if_false, hk, hcount, hiff, getImplPtr_of_isPlain hp]
  by_cases hu : 0 < updateCount
  · simp only [hu, if_true]
  · simp only [hu]
    cases (s.heap id).getValueI <;> rfl

variable (hs : s.Regular)

include hs

/-- The accounting of a put on a live entry, from what the update of the entry does. -/
lemma put_accounting_of_live (hk : s.map.lookup k = some (.impl id)) (hp : (s.heap id).IsPlain k)
    (delta : Option D) (hc : s.checkVersion region id versionTag delta.isSome = .ok stamp)
    (ht : (s.heap id).value ≠ .tombstone) :
    let result := s.put region k newValue.toCacheValue {} updateCount destroyTracker versionTag
      delta
    Accounted s result.segment k (PutMiscounts region s k newValue updateCount versionTag delta)
      (PutBinds region s k updateCount destroyTracker versionTag delta) (putChange result) := by
  have hentry := entryAt_of_lookup hk
  have hacc := accepts_of_ok region hc
  have hbinds : ¬ PutBinds region s k updateCount destroyTracker versionTag delta := by
    rw [putBinds_iff_of_entryAt region hentry]
    exact fun h => ht h.1
  obtain ⟨heff, hdead, hok⟩ := putForTrackedEntry_effect region hs hk hp ht
  have hput : s.put region k newValue.toCacheValue {} updateCount destroyTracker versionTag delta =
      _ := put_of_live hk hp delta hc ht rfl
  generalize putForTrackedEntry region s k newValue.toCacheValue (.impl id) true id updateCount
    stamp delta = res at heff hdead hok hput
  generalize s.put region k newValue.toCacheValue {} updateCount destroyTracker versionTag delta =
    result at hput
  have hsegment : result.segment = res.2 := by
    rw [hput]
    split <;> rfl
  -- the put is counted if it succeeds on an entry without a value
  have hchange : putChange result =
      if res.1 = .returned .noErr ∧ (s.heap id).getValueI.isNull then 1 else 0 := by
    rw [hput, putChange]
    split
    · simp only [Bool.not_not]
    · rename_i hres
      simp only [hres, false_and]
  -- without a value a put succeeds only without a delta
  have hupdated : (s.heap id).getValueI = .null →
      ((updatedValue region k (s.heap id) newValue.toCacheValue delta).1 = .noErr ↔
        delta = none) := by
    intro hnull
    cases delta with
    | none => exact iff_of_true rfl rfl
    | some => simp [updatedValue, hnull]
  have hbefore : s.isLive k = true := by simp [isLive_of_entryAt hentry, ht]
  intro _
  rw [Accounted, hbefore, hsegment, hchange]
  refine ⟨heff, .of_live hbinds (by split <;> decide) ?_⟩
  rw [putMiscounts_iff_of_entryAt region hentry]
  grind [CacheValue.isNull_iff]

/-- By the cases of `put`: unbound, conflict, tombstone, live. -/
lemma put_accounting (newValue : NewValue V) (updateCount destroyTracker : ℤ) (delta : Option D) :
    let result := s.put region k newValue.toCacheValue {} updateCount destroyTracker versionTag
      delta
    Accounted s result.segment k (PutMiscounts region s k newValue updateCount versionTag delta)
      (PutBinds region s k updateCount destroyTracker versionTag delta) (putChange result) := by
  rcases hs.plain.cases k with hk | ⟨id, hk, -, hp⟩
  · have hentry := entryAt_eq_none_iff.mpr hk
    have hmis : ¬ PutMiscounts region s k newValue updateCount versionTag delta := by
      simp [PutMiscounts, hentry]
    cases delta with
    | some =>
      rw [put_of_unbound_delta hk]
      exact accounted_refl hs hmis (by simp [PutBinds, hentry]) (by simp [putChange])
    | none =>
      by_cases href : s.Refused k updateCount destroyTracker
      · rw [put_of_refused hk href]
        exact accounted_refl hs hmis (by simp [PutBinds, hentry, href]) (by simp [putChange])
      · rw [put_of_unbound hk href]
        exact accounted_bindNew hs hmis (by simp [PutBinds, hentry, href]) (by simp [putChange])
          newValue.toCacheValue_ne_tombstone isPlain_storedEntry hentry
  · have hentry := entryAt_of_lookup hk
    cases hc : s.checkVersion region id versionTag delta.isSome with
    | error =>
      have hacc := not_accepts_of_error region hc
      rw [put_of_conflict hk hp delta hc]
      refine accounted_refl hs ?_ ?_ ?_
      · rw [putMiscounts_iff_of_entryAt region hentry]
        exact fun h => hacc h.2.1
      · rw [putBinds_iff_of_entryAt region hentry]
        exact fun h => hacc h.2
      · simp [putChange, ne_noErr_of_error region hc]
    | ok =>
      have hacc := accepts_of_ok region hc
      by_cases ht : (s.heap id).value = .tombstone
      · have hon := hs.enabled_of_tombstone hk ht
        have href : ¬ (s.removeEntry k).Refused k updateCount destroyTracker :=
          not_refused_of_enabled ((keyEffect_removeEntry hs k).enabled.trans hon)
        rw [put_of_tombstone hk hp delta hc ht href]
        refine accounted_rebind hs ?_ ((putBinds_iff_of_entryAt region hentry).mpr ⟨ht, hacc⟩)
          (by simp [putChange]) newValue.toCacheValue_ne_tombstone isPlain_storedEntry hk ht
        rw [putMiscounts_iff_of_entryAt region hentry]
        exact fun h => h.1 ht
      · exact put_accounting_of_live region hs hk hp delta hc ht

/-- A create on an entry without a value is always miscounted. -/
lemma create_accounting_of_null (hk : s.map.lookup k = some (.impl id)) (hp : (s.heap id).IsPlain k)
    (hc : s.checkVersion region id versionTag false = .ok stamp)
    (hnull : (s.heap id).getValueI = .null) :
    let result := s.create region k newValue.toCacheValue {} updateCount destroyTracker versionTag
    KeyEffect s result.segment k ∧
      createChange result ≠ (result.segment.isLive k).toNat - (s.isLive k).toNat := by
  have hentry := entryAt_of_lookup hk
  have ht : (s.heap id).value ≠ .tombstone := by
    intro ht
    rw [getValueI_eq_tombstone_iff.mpr ht] at hnull
    cases hnull
  have hbefore : s.isLive k = true := by simp [isLive_of_entryAt hentry, ht]
  obtain ⟨heff, hdead, hok⟩ := putForTrackedEntry_effect region hs hk hp ht
  rw [create_of_null hk hp hnull hc rfl]
  generalize putForTrackedEntry region s k newValue.toCacheValue (.impl id) true id updateCount
    stamp none = res at heff hdead hok
  refine ⟨heff, ?_⟩
  by_cases hres : res.1 = .returned .noErr
  · rw [hbefore]
    cases res.2.isLive k <;> simp [createChange, hres]
  · have hgone : res.2.isLive k = false := by
      rw [hdead]
      by_cases htr : s.Tracked updateCount
      · exact ⟨htr, .inr ⟨fun hz => hres (hok.mpr (.inl ⟨htr, hz⟩)), hnull⟩⟩
      · exact absurd (hok.mpr (.inr ⟨htr, rfl⟩)) hres
    rw [hbefore]
    simp [createChange, hres, hgone]

/-- By the cases of `create`. -/
lemma create_accounting (newValue : NewValue V) (updateCount destroyTracker : ℤ) :
    let result := s.create region k newValue.toCacheValue {} updateCount destroyTracker versionTag
    Accounted s result.segment k (CreateMiscounts region s k versionTag)
      (CreateBinds region s k updateCount destroyTracker versionTag) (createChange result) := by
  rcases hs.plain.cases k with hk | ⟨id, hk, -, hp⟩
  · have hentry := entryAt_eq_none_iff.mpr hk
    have hmis : ¬ CreateMiscounts region s k versionTag := by simp [CreateMiscounts, hentry]
    by_cases href : s.Refused k updateCount destroyTracker
    · rw [create_of_refused hk href]
      exact accounted_refl hs hmis (by simp [CreateBinds, hentry, href]) (by simp [createChange])
    · rw [create_of_unbound hk href]
      exact accounted_bindNew hs hmis (by simp [CreateBinds, hentry, href]) (by simp [createChange])
        newValue.toCacheValue_ne_tombstone isPlain_storedEntry hentry
  · have hentry := entryAt_of_lookup hk
    have hmis : CreateMiscounts region s k versionTag ↔ (s.heap id).getValueI = .null ∧
        s.Accepts region (s.heap id) versionTag false := by
      simp [CreateMiscounts, hentry]
    have hbinds : CreateBinds region s k updateCount destroyTracker versionTag ↔
        (s.heap id).value = .tombstone ∧ s.Accepts region (s.heap id) versionTag false := by
      simp [CreateBinds, hentry]
    by_cases hfree : (s.heap id).getValueI = .null ∨ (s.heap id).getValueI = .tombstone
    · cases hc : s.checkVersion region id versionTag false with
      | error =>
        have hacc := not_accepts_of_error region hc
        rw [create_of_conflict hk hp hfree hc]
        exact accounted_refl hs (fun h => hacc (hmis.mp h).2) (fun h => hacc (hbinds.mp h).2)
          (by simp [createChange, ne_noErr_of_error region hc])
      | ok =>
        have hacc := accepts_of_ok region hc
        rcases hfree with hnull | ht
        · obtain ⟨heff, hne⟩ := create_accounting_of_null region hs hk hp hc hnull
          exact ⟨heff, .miscounted (hmis.mpr ⟨hnull, hacc⟩) hne⟩
        · have hnull : (s.heap id).getValueI ≠ .null := by simp [ht]
          rw [getValueI_eq_tombstone_iff] at ht
          have href : ¬ (s.removeEntry k).Refused k updateCount destroyTracker :=
            not_refused_of_enabled
              ((keyEffect_removeEntry hs k).enabled.trans (hs.enabled_of_tombstone hk ht))
          rw [create_of_tombstone hk hp ht hc href]
          exact accounted_rebind hs (fun h => hnull (hmis.mp h).1) (hbinds.mpr ⟨ht, hacc⟩)
            (by simp [createChange]) newValue.toCacheValue_ne_tombstone isPlain_storedEntry hk ht
    · rw [not_or] at hfree
      rw [create_of_value hk hp hfree.1 hfree.2]
      refine accounted_refl hs (fun h => hfree.1 (hmis.mp h).1) (fun h => hfree.2 ?_)
        (by simp [createChange])
      exact getValueI_eq_tombstone_iff.mpr (hbinds.mp h).1

lemma invalidate_accounting :
    let result := s.invalidate region k {} versionTag
    Accounted s result.segment k False (s.InvalidateBinds k) (invalidateChange result) := by
  rcases hs.plain.cases k with hk | ⟨id, hk, -, hp⟩
  · have hentry := entryAt_eq_none_iff.mpr hk
    by_cases hon : s.concurrencyChecksEnabled = true
    · rw [invalidate_of_unbound hon hk]
      exact accounted_bindNew hs not_false ⟨hon, hentry⟩ (by simp [invalidateChange])
        (by simp [storedEntry]) isPlain_storedEntry hentry
    · have hinv : s.invalidate region k {} versionTag = ⟨.returned .cacheEntryNotFound, {}, s⟩ := by
        simp [invalidate, hk, hon]
      rw [hinv]
      exact accounted_refl hs not_false (fun h => hon h.1) (by simp [invalidateChange])
  · have hentry := entryAt_of_lookup hk
    have hbinds : ¬ s.InvalidateBinds k := by simp [InvalidateBinds, hentry]
    cases hc : s.checkVersion region id versionTag false with
    | error =>
      rw [invalidate_of_conflict hk hc]
      exact accounted_refl hs not_false hbinds (by simp [invalidateChange])
    | ok stamp =>
      by_cases ht : (s.heap id).value = .tombstone
      · rw [invalidate_of_tombstone hk hp hc ht]
        exact accounted_refl hs not_false hbinds (by simp [invalidateChange])
      · rw [invalidate_of_live hk hp hc ht]
        obtain ⟨heff, hlive⟩ := setImpl_effect hs hk (hp.update .invalid
          (if s.concurrencyChecksEnabled then stamp else (s.heap id).versionStamp)) (by simp)
        refine ⟨heff, .kept not_false hbinds (by simp [hlive, isLive_of_entryAt hentry, ht]) ?_⟩
        unfold invalidateChange
        split <;> simp

/-- By the cases of `remove`. -/
lemma remove_accounting (updateCount : ℤ) (afterRemote : Bool) :
    let result := s.remove region k {} updateCount versionTag afterRemote
    Accounted s result.segment k
      (RemoveMiscounts region s k updateCount versionTag afterRemote) False
      (removeChange result) := by
  by_cases hon : s.concurrencyChecksEnabled = true
  · rcases hs.plain.cases k with hk | ⟨id, hk, -, hp⟩
    · have hentry := entryAt_eq_none_iff.mpr hk
      have hmis : ¬ RemoveMiscounts region s k updateCount versionTag afterRemote := by
        simp [RemoveMiscounts, hentry]
      rw [remove_of_unbound hon hk]
      cases versionTag with
      | none => exact accounted_refl hs hmis not_false (by simp [removeChange])
      | some tag =>
        have hplain : (s.storedEntry k .tombstone (some tag) none).IsPlain k := isPlain_storedEntry
        have hbind := keyEffect_bindNew hs hplain fun hoff => absurd hon (by simp [hoff])
        have hafter : (s.bindNew k (s.storedEntry k .tombstone (some tag) none)).entryAt k =
            some (s.storedEntry k .tombstone (some tag) none) := by
          rw [entryAt_bindNew hs.plain, if_pos rfl]
        refine ⟨hbind.addTombstone, .kept hmis not_false ?_ (by simp [removeChange])⟩
        simp only [Option.isSome_some, if_true]
        rw [isLive_congr (entryAt_addTombstone _ _), isLive_of_entryAt hafter,
          isLive_of_unbound hentry]
        rfl
    · have hentry := entryAt_of_lookup hk
      have hmis : RemoveMiscounts region s k updateCount versionTag afterRemote ↔
          afterRemote = true ∧ (s.heap id).value = .tombstone ∧
            s.Accepts region (s.heap id) versionTag false := by
        simp [RemoveMiscounts, hentry, hon]
      cases hc : s.checkVersion region id versionTag false with
      | error =>
        rw [remove_of_conflict hon hk hp hc]
        exact accounted_refl hs (fun h => not_accepts_of_error region hc (hmis.mp h).2.2) not_false
          (by simp [removeChange, ne_noErr_of_error region hc])
      | ok stamp =>
        rw [remove_of_bound hon hk hp hc]
        have hset := keyEffect_setImpl hs hk (hp.update .tombstone stamp) fun hoff =>
          absurd hon (by simp [hoff])
        have hafter : (((s.setImpl id { s.heap id with
            value := .tombstone, versionStamp := stamp }).eraseTombstone k).addTombstone id).isLive
              k = false := by
          rw [isLive_congr (entryAt_addTombstone _ _), isLive_congr (entryAt_eraseTombstone _ _),
            isLive, entryAt_setImpl hs.plain hk, if_pos rfl]
          rfl
        refine ⟨(hset.eraseTombstone k).addTombstone, ?_⟩
        by_cases ht : (s.heap id).value = .tombstone
        · have hbefore : s.isLive k = false := by simp [isLive_of_entryAt hentry, ht]
          cases afterRemote with
          | true =>
            refine .miscounted (hmis.mpr ⟨rfl, ht, accepts_of_ok region hc⟩) ?_
            simp [hbefore, removeChange]
          | false =>
            exact .kept (by simp [hmis]) not_false (hafter.trans hbefore.symm)
              (by simp [removeChange, ht])
        · exact .dropped (fun h => ht (hmis.mp h).2.1) not_false
            (by simp [isLive_of_entryAt hentry, ht]) hafter (by simp [removeChange, ht])
  · rw [Bool.not_eq_true] at hon
    rcases hs.plain.cases k with hk | ⟨id, hk, -, hp⟩
    · have hentry := entryAt_eq_none_iff.mpr hk
      have hmis : ¬ RemoveMiscounts region s k updateCount versionTag afterRemote := by
        simp [RemoveMiscounts, hentry]
      obtain ⟨_, hrem⟩ := remove_of_unbound_disabled region updateCount versionTag hon
        hk
      rw [hrem]
      exact ⟨⟨⟨hs.plain, hs.no_tombstone⟩, rfl, fun _ _ => rfl⟩,
        .kept hmis not_false rfl (by simp [removeChange])⟩
    · have hentry := entryAt_of_lookup hk
      have ht := hs.ne_tombstone hk hon
      have hbefore : s.isLive k = true := by simp [isLive_of_entryAt hentry, ht]
      have hafter : (s.unbind k).isLive k = false :=
        isLive_of_unbound (by rw [entryAt_unbind, if_pos rfl])
      have hmis : RemoveMiscounts region s k updateCount versionTag afterRemote ↔
          0 < updateCount := by
        simp [RemoveMiscounts, hentry, hon]
      rw [remove_of_disabled region hon hk hp]
      refine ⟨keyEffect_unbind hs, ?_⟩
      by_cases hu : 0 < updateCount
      · refine .miscounted (hmis.mpr hu) ?_
        simp [removeChange, hu, hbefore, hafter]
      · refine .dropped (fun h => hu (hmis.mp h)) not_false hbefore hafter ?_
        simp only [removeChange, if_neg hu]
        cases (s.heap id).getValueI <;> simp

end Calls

/-! ## Trackers, reaping and expiry -/

/-- Tracker additions that take effect. They leave an entry that `getKeys` fails on. -/
def Tracks (s : MapSegment K V) (key : K) (addIfAbsent failIfPresent : Bool) : Prop :=
  s.concurrencyChecksEnabled = false ∧
    if s.entryAt key = none then addIfAbsent = true else failIfPresent = false

/-- A broken entry breaks the enumeration of the keys. -/
lemma getKeys_of_bad {e : MapEntry} (hk : s.map.lookup k = some e)
    (hbad : e.getImplPtr s.heap = none) : s.getKeys = none := by
  refine if_neg fun hall => ?_
  have hsome := hall ⟨k, e⟩ (mem_lookup_iff.mp hk)
  simp [hbad] at hsome

lemma addTrackerForEntry_of_not_tracks {addIfAbsent failIfPresent : Bool}
    (htracks : ¬ s.Tracks k addIfAbsent failIfPresent) (oldValue : CacheValue V)
    (incUpdateCount : Bool) :
    (s.addTrackerForEntry k oldValue addIfAbsent failIfPresent incUpdateCount).segment = s := by
  unfold addTrackerForEntry
  by_cases hoff : s.concurrencyChecksEnabled = true
  · rw [if_pos hoff]
  · rw [if_neg hoff]
    have hcond : ¬ (if s.entryAt k = none then addIfAbsent = true else failIfPresent = false) :=
      fun h => htracks ⟨by simpa using hoff, h⟩
    cases hk : s.map.lookup k with
    | none =>
      rw [if_pos (entryAt_eq_none_iff.mpr hk)] at hcond
      simp only [hcond, Bool.false_eq_true, if_false]
    | some =>
      rw [if_neg (by simp [entryAt, hk])] at hcond
      simp only [hcond, if_true]

/-- Tracker removals that drop a key: those on an entry without a value. -/
def ReleaseDrops (s : MapSegment K V) (key : K) : Prop :=
  s.concurrencyChecksEnabled = false ∧ ∃ entry, s.entryAt key = some entry ∧ entry.getValueI = .null

section

variable (hs : s.Regular)

include hs

lemma addTrackerForEntry_of_tracks {addIfAbsent failIfPresent : Bool}
    (htracks : s.Tracks k addIfAbsent failIfPresent) (oldValue : CacheValue V)
    {incUpdateCount : Bool} :
    (s.addTrackerForEntry k oldValue addIfAbsent failIfPresent incUpdateCount).segment.getKeys =
      none := by
  obtain ⟨hoff, hcond⟩ := htracks
  rcases hs.plain.cases k with hk | ⟨_, hk, -, hp⟩
  · rw [if_pos (entryAt_eq_none_iff.mpr hk)] at hcond
    rw [hcond, addTrackerForEntry_of_unbound hoff hk]
    refine getKeys_of_bad (lookup_insert s.map) ?_
    simp [getImplPtr, bindNew, trackedEntry, placementNew]
  · rw [if_neg (by simp [entryAt_of_lookup hk])] at hcond
    rw [hcond, addTrackerForEntry_of_isPlain hoff hk hp]
    refine getKeys_of_bad hk ?_
    simp [getImplPtr, setImpl, trackedEntry, placementNew]

/-- A release drops an entry without a value and does not count it. -/
lemma removeTrackerForEntry_accounting :
    Accounted s (s.removeTrackerForEntry k).2 k (s.ReleaseDrops k) False 0 := by
  by_cases hon : s.concurrencyChecksEnabled = true
  · have hrel : s.removeTrackerForEntry k = (true, s) := by simp [removeTrackerForEntry, hon]
    rw [hrel]
    exact accounted_refl hs (by simp [ReleaseDrops, hon]) not_false rfl
  · rw [Bool.not_eq_true] at hon
    rcases hs.plain.cases k with hk | ⟨id, hk, -, hp⟩
    · have hrel : s.removeTrackerForEntry k = (true, s) := by
        simp [removeTrackerForEntry, hk]
      rw [hrel]
      exact accounted_refl hs (by simp [ReleaseDrops, entryAt_eq_none_iff.mpr hk]) not_false rfl
    · have hentry := entryAt_of_lookup hk
      have hrel : (s.removeTrackerForEntry k).2 = s.removeTracker k (.impl id) id := by
        simp [removeTrackerForEntry, hon, hk, getImplPtr_of_isPlain hp]
      have hdrops : s.ReleaseDrops k ↔ (s.heap id).getValueI = .null := by
        simp [ReleaseDrops, hon, hentry]
      have hbefore : s.isLive k = true := by
        simp [isLive_of_entryAt hentry, hs.ne_tombstone hk hon]
      obtain ⟨heff, hdead⟩ := removeTracker_effect hs hon hk hp
      rw [Accounted, hrel, hbefore]
      refine ⟨heff, .of_live not_false le_rfl ?_⟩
      rw [hdrops, ← hdead]
      simp

/-- Reaping keeps the segment regular and leaves the keys that it is not given. -/
lemma reapKeys_effect {removedKeys : List K} : (s.reapKeys removedKeys).Regular ∧
      ∀ k, (s.reapKeys removedKeys).isLive k = (s.isLive k && decide (k ∉ removedKeys)) := by
  unfold reapKeys
  induction removedKeys generalizing s with
  | nil => exact ⟨hs, fun k => by simp⟩
  | cons key _ ih =>
    have heff := keyEffect_removeEntry hs key
    obtain ⟨hreg, hlive⟩ := ih heff.regular
    refine ⟨hreg, fun k => ?_⟩
    rw [foldl_cons, hlive k]
    by_cases hk : k = key
    · have hgone : (s.removeEntry key).isLive k = false :=
        isLive_of_unbound (by rw [entryAt_removeEntry, if_pos hk])
      rw [hgone]
      simp [hk]
    · simp [isLive_congr (heff.frame k hk), hk]

/-- Reaping drops a live key or none. -/
lemma card_liveKeys_reapKeys_lt_iff (removedKeys : List K) :
    (s.reapKeys removedKeys).liveKeys.card < s.liveKeys.card ↔
      ∃ k ∈ removedKeys, s.isLive k = true := by
  have hmem : ∀ k, k ∈ (s.reapKeys removedKeys).liveKeys ↔ k ∈ s.liveKeys ∧ k ∉ removedKeys := by
    intro k
    rw [mem_liveKeys, (reapKeys_effect hs).2]
    simp
  constructor
  · intro hlt
    by_contra hnone
    push Not at hnone
    refine hlt.ne (congrArg Finset.card (Finset.ext fun k => ?_))
    rw [hmem]
    exact and_iff_left_of_imp fun hk hin => hnone k hin (mem_liveKeys.mp hk)
  · rintro ⟨k, hin, hk⟩
    refine Finset.card_lt_card ⟨fun x hx => ((hmem x).mp hx).1, fun hsub => ?_⟩
    exact ((hmem k).mp (hsub (mem_liveKeys.mpr hk))).2 hin

end

/-- The keys that the expiry of a tombstone unbinds. -/
def expiredKeys (s : MapSegment K V) (tomb : TombId) : List K :=
  if tomb < s.nextTomb ∧ (s.tombHeap tomb).valid then
    ((s.heap (s.tombHeap tomb).entry).key.filter (· ∈ s.tombstones)).toList
  else
    []

/-- The expiry of a tombstone reaps its key. -/
lemma removeTombEntry_eq_reapKeys {tomb : TombId} (hlt : tomb < s.nextTomb) :
    s.removeTombEntry tomb = s.reapKeys (s.expiredKeys tomb) := by
  unfold removeTombEntry expiredKeys
  by_cases hv : (s.tombHeap tomb).valid = true
  · rw [if_pos hv, if_pos ⟨hlt, hv⟩]
    cases hkey : (s.heap (s.tombHeap tomb).entry).key with
    | none => rfl
    | some key =>
      by_cases hmem : key ∈ s.tombstones
      · simp [Option.filter_some, hmem, reapKeys, removeEntry]
      · simp [Option.filter_some, hmem, reapKeys]
  · rw [if_neg hv, if_neg fun h => hv h.2]
    rfl

end MapSegment

end GeodeNative
