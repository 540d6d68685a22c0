import Mathlib.Algebra.BigOperators.Fin
import GeodeNative.Cache.EntriesMap
import GeodeNative.Cache.KeyAccounting

/-!
# The size of an entry map

`Drifts` lists the calls after which the counter of an entry map no longer is the number
of keys that `getKeys` returns: those that a segment misreports, and an addition to a
full counter. Along a run from an empty map the counter is exact exactly when the run
makes none of these calls.
-/

namespace GeodeNative

open MapSegment

namespace ConcurrentEntriesMap

variable {n : ℕ} [NeZero n] {K V D M : Type*} [DecidableEq K] {m m' : ConcurrentEntriesMap n K V}
  {i : Fin n}

/-! ## The number of keys -/

/-- The size is the number of keys that `getKeys` returns; where it throws there is none. -/
def SizeExact (m : ConcurrentEntriesMap n K V) : Prop :=
  ∃ keys, m.getKeys = some keys ∧ m.size.toNat = keys.length

/-- The number of live keys of all segments. -/
def total (m : ConcurrentEntriesMap n K V) : ℕ :=
  ∑ i, (m.segments i).liveKeys.card

/-- Every segment is regular and the counter is the number of live keys. -/
structure Counted (m : ConcurrentEntriesMap n K V) : Prop where
  regular : ∀ i, (m.segments i).Regular
  size_eq : m.size.toNat = m.total

section Keys

omit [NeZero n]

lemma getKeys_of_regular (hm : ∀ i, (m.segments i).Regular) :
    ∃ keys, m.getKeys = some keys ∧ keys.length = m.total := by
  choose keys hkeys hlength using fun i => getKeys_of_plain (hm i).plain
  refine ⟨_, if_pos fun i => by rw [hkeys i]; rfl, ?_⟩
  rw [List.length_flatMap]
  refine congrArg List.sum (List.map_congr_left fun i _ => ?_)
  rw [hkeys i, ← hlength i]
  rfl

/-- The size is exact when the counter is the number of keys. -/
lemma sizeExact_iff (hm : ∀ i, (m.segments i).Regular) : m.SizeExact ↔ m.size.toNat = m.total := by
  obtain ⟨_, hkeys, hlength⟩ := getKeys_of_regular hm
  simp [SizeExact, hkeys, hlength]

omit [DecidableEq K] in
/-- Keys that cannot be enumerated are not counted. -/
lemma not_sizeExact_of_getKeys (h : (m.segments i).getKeys = none) : ¬ m.SizeExact := by
  rintro ⟨_, hkeys, -⟩
  have hnone : m.getKeys = none := if_neg fun hall => by simpa [h] using hall i
  rw [hnone] at hkeys
  cases hkeys

end Keys

/-! ## One call -/

/-- What a call from a counted map to `m'` amounts to, given whether it is one that drifts:
if it is not the map stays counted and grows by one key at most, if it is the size is off. -/
structure Follows (m m' : ConcurrentEntriesMap n K V) (drifts : Prop) : Prop where
  counted : ¬ drifts → m'.Counted
  growth : ¬ drifts → m'.total ≤ m.total + 1
  off : drifts → ¬ m'.SizeExact

/-- The map after a call on one segment and an adjustment of the counter. -/
def adjust (m : ConcurrentEntriesMap n K V) (i : Fin n) (t : MapSegment K V) (change : ℤ) :
    ConcurrentEntriesMap n K V :=
  { m.setSegment i t with size := m.size + BitVec.ofInt 32 change }

section Calls

omit [NeZero n]

variable {t : MapSegment K V} {k : K}

lemma regular_setSegment (hm : ∀ i, (m.segments i).Regular) (ht : t.Regular) (j : Fin n) :
    ((m.setSegment i t).segments j).Regular := by
  by_cases hj : j = i
  · subst hj
    simpa [setSegment] using ht
  · simpa [setSegment, hj] using hm j

/-- The step rule for the calls on one key: the counter follows unless the call is one of the
miscounted ones or the counter is full. -/
lemma Counted.adjust (hm : m.Counted) {miscounts binds : Prop} {change : ℤ}
    (hcall : MapSegment.Accounted (m.segments i) t k miscounts binds change)
    (hchange : |change| ≤ 1) :
    Follows m (m.adjust i t change) (miscounts ∨ binds ∧ m.size = BitVec.allOnes 32) := by
  obtain ⟨heff, hacc⟩ := hcall
  have hreg : ∀ j, ((m.adjust i t change).segments j).Regular :=
    regular_setSegment hm.regular heff.regular
  have htotal : (m.adjust i t change).total + ((m.segments i).isLive k).toNat =
      m.total + (t.isLive k).toNat := by
    have hsum := sum_update_add (fun s : MapSegment K V => s.liveKeys.card) m.segments i t
    have hcard := card_liveKeys_of_frame heff.frame
    have hadjust : (m.adjust i t change).total =
        ∑ j, (Function.update m.segments i t j).liveKeys.card := rfl
    rw [hadjust, total]
    omega
  have hbefore := ((m.segments i).isLive k).toNat_le
  have hafter := (t.isLive k).toNat_le
  have hexact : (m.adjust i t change).size.toNat = (m.adjust i t change).total ↔
      change = (m.adjust i t change).total - m.total ∧ (m.adjust i t change).total < 2 ^ 32 :=
    toNat_add_ofInt_eq_iff hm.size_eq (by rw [abs_lt]; rw [abs_le] at hchange; omega)
  have hfull : m.size = BitVec.allOnes 32 ↔ m.total = 2 ^ 32 - 1 := by
    rw [← hm.size_eq, ← BitVec.toNat_inj, BitVec.toNat_allOnes]
  have hrange : m.total < 2 ^ 32 := hm.size_eq ▸ m.size.isLt
  have hiff : (m.adjust i t change).size.toNat = (m.adjust i t change).total ↔
      ¬ (miscounts ∨ binds ∧ m.size = BitVec.allOnes 32) := by
    refine hexact.trans ?_
    rw [hfull]
    rcases hacc with ⟨hmis, hne⟩ | ⟨hmis, hbinds, hb, ha, hc⟩ | ⟨hmis, hbinds, ha, hc⟩ |
      ⟨hmis, hbinds, hb, ha, hc⟩
    · simp only [hmis, true_or, not_true_eq_false, iff_false]
      omega
    · rw [ha, hb, Bool.toNat_true, Bool.toNat_false] at htotal
      simp only [hmis, hbinds, true_and, false_or]
      omega
    · rw [ha] at htotal
      simp only [hmis, hbinds, false_and, or_self, not_false_eq_true, iff_true]
      omega
    · rw [ha, hb, Bool.toNat_true, Bool.toNat_false] at htotal
      simp only [hmis, hbinds, false_and, or_self, not_false_eq_true, iff_true]
      omega
  refine ⟨fun h => ⟨hreg, hiff.mpr h⟩, fun _ => by omega, fun h hex => ?_⟩
  exact hiff.mp ((sizeExact_iff hreg).mp hex) h

/-- The step rule for reaping: it never touches the counter. -/
lemma Counted.reap (hm : m.Counted) {removedKeys : Fin n → List K} :
    Follows m { m with segments := fun i => (m.segments i).reapKeys (removedKeys i) }
      (∃ i, ∃ k ∈ removedKeys i, (m.segments i).isLive k = true) := by
  have hreg : ∀ i, ((m.segments i).reapKeys (removedKeys i)).Regular := fun i =>
    (reapKeys_effect (hm.regular i)).1
  have hle : ∀ i ∈ Finset.univ, ((m.segments i).reapKeys (removedKeys i)).liveKeys.card ≤
      (m.segments i).liveKeys.card := fun i _ => by
    refine Finset.card_le_card fun k hk => ?_
    rw [mem_liveKeys, (reapKeys_effect (hm.regular i)).2, Bool.and_eq_true] at hk
    exact mem_liveKeys.mpr hk.1
  refine ⟨fun h => ⟨hreg, hm.size_eq.trans ?_⟩, fun _ => ?_, fun h hex => ?_⟩
  · refine Finset.sum_congr rfl fun i hi => ((hle i hi).eq_of_not_lt fun hlt => h ⟨i, ?_⟩).symm
    exact (card_liveKeys_reapKeys_lt_iff (hm.regular i) _).mp hlt
  · exact (Finset.sum_le_sum hle).trans (Nat.le_succ _)
  · obtain ⟨i, hlive⟩ := h
    have hlt : ∑ i, ((m.segments i).reapKeys (removedKeys i)).liveKeys.card < m.total :=
      Finset.sum_lt_sum hle ⟨i, Finset.mem_univ i,
        (card_liveKeys_reapKeys_lt_iff (hm.regular i) _).mpr hlive⟩
    have hsize : m.size.toNat = ∑ i, ((m.segments i).reapKeys (removedKeys i)).liveKeys.card :=
      (sizeExact_iff hreg).mp hex
    exact hlt.ne (hsize.symm.trans hm.size_eq)

end Calls

/-! ## Runs -/

/-- The calls after which the size is no longer the number of keys. -/
def Drifts (region : Region K V D M) (hashcode : K → BitVec 32) (m : ConcurrentEntriesMap n K V) :
    MapCall n K V D → Prop
  | .create key _ updateCount destroyTracker versionTag =>
    let s := m.segments (segmentIdx n hashcode key)
    s.CreateMiscounts region key versionTag ∨
      s.CreateBinds region key updateCount destroyTracker versionTag ∧ m.size = BitVec.allOnes 32
  | .put key newValue updateCount destroyTracker versionTag delta =>
    let s := m.segments (segmentIdx n hashcode key)
    s.PutMiscounts region key newValue updateCount versionTag delta ∨
      s.PutBinds region key updateCount destroyTracker versionTag delta ∧
        m.size = BitVec.allOnes 32
  | .invalidate key _ =>
    (m.segments (segmentIdx n hashcode key)).InvalidateBinds key ∧ m.size = BitVec.allOnes 32
  | .remove key updateCount versionTag afterRemote =>
    (m.segments (segmentIdx n hashcode key)).RemoveMiscounts region key updateCount versionTag
      afterRemote
  | .clear => False
  | .addTrackerForEntry key addIfAbsent failIfPresent _ =>
    (m.segments (segmentIdx n hashcode key)).Tracks key addIfAbsent failIfPresent
  | .removeTrackerForEntry key => (m.segments (segmentIdx n hashcode key)).ReleaseDrops key
  | .reapVersions gcVersions =>
    ∃ i, ∃ key ∈ (m.segments i).reapableKeys gcVersions, (m.segments i).isLive key = true
  | .reapKeys removedKeys => ∃ i, ∃ key ∈ removedKeys, (m.segments i).isLive key = true
  | .expire i tomb => ∃ key ∈ (m.segments i).expiredKeys tomb, (m.segments i).isLive key = true

section Runs

variable (region : Region K V D M) (hashcode : K → BitVec 32)

omit [NeZero n] [DecidableEq K] in
lemma adjust_zero (i : Fin n) (s : MapSegment K V) : m.adjust i s 0 = m.setSegment i s := by
  simp [adjust, setSegment]

section

omit [NeZero n]

/-- Reaping in one segment is reaping nothing in the others. -/
lemma setSegment_reapKeys (i : Fin n) (removedKeys : List K) :
    m.setSegment i ((m.segments i).reapKeys removedKeys) =
      { m with
        segments := fun j => (m.segments j).reapKeys (if j = i then removedKeys else []) } := by
  unfold setSegment
  congr 1
  ext1 j
  by_cases hj : j = i
  · subst hj
    simp
  · simp [hj, reapKeys]

lemma follows_self (hm : m.Counted) : Follows m m False :=
  ⟨fun _ => hm, fun _ => Nat.le_succ _, False.elim⟩

lemma Follows.congr {p q : Prop} (h : Follows m m' p) (hpq : p ↔ q) : Follows m m' q :=
  propext hpq ▸ h

/-- `clear` resets the counter with the segments. -/
lemma follows_clear (m : ConcurrentEntriesMap n K V) : Follows m m.clear False := by
  have hreg : ∀ i, (m.segments i).clear.Regular := fun i =>
    ⟨plain_clear _, fun _ k => not_holdsTombstone_of_unbound rfl⟩
  have htotal : m.clear.total = 0 := by
    refine Finset.sum_eq_zero fun i _ => Finset.card_eq_zero.mpr ?_
    ext k
    simp [ConcurrentEntriesMap.clear, isLive_of_unbound]
  exact ⟨fun _ => ⟨hreg, htotal.symm⟩, fun _ => by omega, False.elim⟩

lemma counted_empty {concurrencyChecksEnabled : Bool} (heap : EntryHeap K V)
    {tombHeap : TombId → TombstoneEntry} :
    (empty n concurrencyChecksEnabled heap tombHeap).Counted where
  regular i := ⟨fun k e he => (by cases he), fun _ k =>
    MapSegment.not_holdsTombstone_of_unbound rfl⟩
  size_eq := by
    symm
    refine Finset.sum_eq_zero fun i _ => Finset.card_eq_zero.mpr ?_
    ext k
    simp [empty, MapSegment.isLive, MapSegment.entryAt, MapSegment.empty]

end

section

variable {key : K} {newValue : CacheValue V} {outs : OutParams V} {updateCount destroyTracker : ℤ}
  {versionTag : Option VersionTag}

lemma create_map :
    let i := segmentIdx n hashcode key
    let result := (m.segments i).create region key newValue outs updateCount destroyTracker
      versionTag
    (m.create region hashcode key newValue outs updateCount destroyTracker versionTag).map =
      m.adjust i result.segment (createChange result) := by
  unfold create createChange
  dsimp only
  split <;> simp [adjust, setSegment]

lemma put_map {delta : Option D} :
    let i := segmentIdx n hashcode key
    let result := (m.segments i).put region key newValue outs updateCount destroyTracker versionTag
      delta
    (m.put region hashcode key newValue outs updateCount destroyTracker versionTag delta).map =
      m.adjust i result.segment (putChange result) := by
  unfold put putChange
  dsimp only
  split <;> simp [adjust, setSegment]

lemma invalidate_map :
    let i := segmentIdx n hashcode key
    let result := (m.segments i).invalidate region key { outs with isTokenAdded := false }
      versionTag
    (m.invalidate region hashcode key outs versionTag).map =
      m.adjust i result.segment (invalidateChange result) := by
  unfold invalidate invalidateChange
  dsimp only
  split <;> simp [adjust, setSegment]

lemma remove_map {afterRemote : Bool} :
    let i := segmentIdx n hashcode key
    let result := (m.segments i).remove region key { outs with isEntryFound := true } updateCount
      versionTag afterRemote
    (m.remove region hashcode key outs updateCount versionTag afterRemote).map =
      m.adjust i result.segment (removeChange result) := by
  unfold remove removeChange
  dsimp only
  split <;> simp [adjust, setSegment, BitVec.sub_eq_add_neg]

end

/-- A call that does not drift keeps the map counted; one that does makes its size wrong at
once. -/
lemma Counted.step (hm : m.Counted) (c : MapCall n K V D) :
    Follows m (m.step region hashcode c) (m.Drifts region hashcode c) := by
  cases c with
  | create =>
    rw [ConcurrentEntriesMap.step, create_map]
    refine hm.adjust (create_accounting region (hm.regular _) _ _ _) ?_
    unfold createChange
    split <;> simp
  | put =>
    rw [ConcurrentEntriesMap.step, put_map]
    refine hm.adjust (put_accounting region (hm.regular _) _ _ _ _) ?_
    unfold putChange
    split <;> simp
  | invalidate =>
    rw [ConcurrentEntriesMap.step, invalidate_map]
    refine (hm.adjust (invalidate_accounting region (hm.regular _)) ?_).congr
      (or_iff_right not_false)
    unfold invalidateChange
    split <;> simp
  | remove =>
    rw [ConcurrentEntriesMap.step, remove_map]
    refine (hm.adjust (remove_accounting region (hm.regular _) _ _) ?_).congr ?_
    · unfold removeChange
      split <;> simp
    · simp [Drifts]
  | clear => exact follows_clear m
  | addTrackerForEntry key addIfAbsent failIfPresent incUpdateCount =>
    by_cases htracks : (m.segments (segmentIdx n hashcode key)).Tracks key addIfAbsent failIfPresent
    · refine ⟨fun h => absurd htracks h, fun h => absurd htracks h, fun _ => ?_⟩
      refine not_sizeExact_of_getKeys (i := segmentIdx n hashcode key) ?_
      simpa [ConcurrentEntriesMap.step, setSegment] using
        addTrackerForEntry_of_tracks (hm.regular _) htracks .null
    · have hstep : m.step region hashcode
          (.addTrackerForEntry key addIfAbsent failIfPresent incUpdateCount) = m := by
        rw [ConcurrentEntriesMap.step, addTrackerForEntry_of_not_tracks htracks]
        simp [setSegment]
      rw [hstep]
      exact (follows_self hm).congr (iff_of_false not_false htracks)
  | removeTrackerForEntry key =>
    have h := hm.adjust (removeTrackerForEntry_accounting (k := key)
      (hm.regular (segmentIdx n hashcode key))) (by simp)
    rw [adjust_zero] at h
    exact h.congr (or_iff_left fun hfull => hfull.1)
  | reapVersions | reapKeys => exact hm.reap
  | expire i tomb =>
    by_cases hlt : tomb < (m.segments i).nextTomb
    · rw [ConcurrentEntriesMap.step, if_pos hlt, removeTombEntry_eq_reapKeys hlt,
        setSegment_reapKeys]
      refine hm.reap.congr ⟨?_, fun ⟨key, hkey, hlive⟩ => ⟨i, key, by simpa using hkey, hlive⟩⟩
      rintro ⟨j, key, hkey, hlive⟩
      by_cases hj : j = i
      · subst hj
        exact ⟨key, by simpa using hkey, hlive⟩
      · simp [hj] at hkey
    · rw [ConcurrentEntriesMap.step, if_neg hlt]
      refine (follows_self hm).congr (iff_of_false not_false ?_)
      simp [Drifts, expiredKeys, hlt]

/-- The counter is at zero and is decremented. -/
def Underflows (m : ConcurrentEntriesMap n K V) (c : MapCall n K V D) : Prop :=
  m.size = 0 ∧ (m.step region hashcode c).size = 0 - 1

/-- A counter that is right does not fall below zero. -/
lemma Counted.not_underflows (hm : m.Counted) {c : MapCall n K V D}
    (hc : ¬ m.Drifts region hashcode c) : ¬ m.Underflows region hashcode c := by
  rintro ⟨hzero, hwrap⟩
  have hstep := hm.step region hashcode c
  have hsize := (hstep.counted hc).size_eq
  have hgrowth := hstep.growth hc
  rw [← hm.size_eq, ← hsize, hzero, hwrap] at hgrowth
  exact absurd hgrowth (by decide)

/-- **Map size.** From an empty entry map, the size is the number of keys that `getKeys`
returns in every state of a run and the counter never underflows, exactly when the run makes
no call that drifts. -/
theorem sizeExact_iff_no_drift (concurrencyChecksEnabled : Bool) (heap : EntryHeap K V)
    (tombHeap : TombId → TombstoneEntry) (calls : List (MapCall n K V D)) :
    let m := empty n concurrencyChecksEnabled heap tombHeap
    EveryState (step region hashcode) SizeExact m calls ∧
        EveryStep (step region hashcode) (fun m c => ¬ m.Underflows region hashcode c) m calls ↔
      EveryStep (step region hashcode) (fun m c => ¬ m.Drifts region hashcode c) m calls := by
  intro m
  have hm : m.Counted := counted_empty heap
  have hiff : EveryState (step region hashcode) SizeExact m calls ↔
      EveryStep (step region hashcode) (fun m c => ¬ m.Drifts region hashcode c) m calls :=
    everyState_iff_everyStep (fun m c h hc => (h.step region hashcode c).counted hc)
      (fun m h => (sizeExact_iff h.regular).mpr h.size_eq)
      (fun m c h hex hdrift => (h.step region hashcode c).off hdrift hex) hm
  refine ⟨fun h => hiff.mp h.1, fun h => ⟨hiff.mpr h, ?_⟩⟩
  exact everyStep_of_invariant (fun m c h hc => (h.step region hashcode c).counted hc)
    (fun m c h hc => h.not_underflows region hashcode hc) hm h

/-- A put into an empty map of one segment is counted. -/
theorem size_exact_after_put :
    let region : Region Unit Unit Unit Unit :=
      ⟨⟨fun _ => none, fun _ _ => 0⟩, false, fun v _ => (v, true), fun _ => none⟩
    let m : ConcurrentEntriesMap 1 Unit Unit := empty 1 true (fun _ => .create ()) fun _ =>
      ⟨0, false⟩
    let calls := [MapCall.put () (.object ()) (-1) 0 (some ⟨1, 0, 1, 1, 0⟩) none]
    EveryState (step region fun _ => 0) SizeExact m calls ∧
      EveryStep (step region fun _ => 0) (fun m c => ¬ m.Underflows region (fun _ => 0) c) m
        calls := by
  intro region _ calls
  refine (sizeExact_iff_no_drift region (fun _ => 0) true _ _ calls).mpr ⟨?_, trivial⟩
  rintro (⟨entry, hentry, -⟩ | ⟨-, hfull⟩)
  · cases hentry
  · exact absurd hfull (by decide)

/-- A key is removed twice after the server removed it: the second remove finds the tombstone
of the first and takes it off the counter, which goes from zero to its greatest value. -/
theorem size_wraps_on_second_remove :
    let calls : List (MapCall 1 Unit Unit Unit) :=
      [.remove () (-1) (some ⟨1, 0, 1, 1, 0⟩) true, .remove () (-1) (some ⟨2, 0, 2, 1, 0⟩) true]
    let m := runFrom (step (M := Unit) ⟨⟨fun _ => none, fun _ _ => 0⟩, false,
      fun v _ => (v, true), fun _ => none⟩ fun _ => 0)
      (empty 1 true (fun _ => .create ()) fun _ => ⟨0, false⟩) calls
    m.getKeys = some [] ∧ m.size = 4294967295 ∧ ¬ m.SizeExact := by
  intro _ m
  have hkeys : m.getKeys = some [] := by decide
  have hsize : m.size = 4294967295 := by decide
  refine ⟨hkeys, hsize, ?_⟩
  rintro ⟨_, hk, hlen⟩
  rw [hkeys, Option.some_inj] at hk
  rw [← hk] at hlen
  exact absurd hlen (by decide)

end Runs

end ConcurrentEntriesMap

end GeodeNative
