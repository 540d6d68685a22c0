import GeodeNative.Cache.Views

/-!
# The entry that is handed out

`create` and `put` hand their caller the entry that they stored into. It is the one that the key is
bound to afterwards but for two cases. A created entry that replaces a tombstone is bound to its
key while the caller gets the tombstone's; and the tracker that a tracked operation gives back may
take the entry out of the map.
-/

namespace GeodeNative

inductive StoreCall (K V D : Type*)
  | create (key : K) (newValue : CacheValue V) (updateCount destroyTracker : ℤ)
      (versionTag : Option VersionTag)
  | put (key : K) (newValue : CacheValue V) (updateCount destroyTracker : ℤ)
      (versionTag : Option VersionTag) (delta : Option D)

def StoreCall.key {K V D : Type*} : StoreCall K V D → K
  | .create key .. | .put key .. => key

namespace MapSegment

open MapEntry MapEntryImpl CacheValue

variable {K V D M : Type*} [DecidableEq K]

section

variable (s : MapSegment K V)

def store (region : Region K V D M) (outs : OutParams V) : StoreCall K V D → CallResult K V
  | .create key newValue updateCount destroyTracker versionTag =>
    s.create region key newValue outs updateCount destroyTracker versionTag
  | .put key newValue updateCount destroyTracker versionTag delta =>
    s.put region key newValue outs updateCount destroyTracker versionTag delta

/-- The entry goes with the tracker: it was the last one, and the entry has no value, or has none
any more once it is built anew. -/
def Drops : MapEntry → Prop
  | .impl id => (s.heap id).numTrackers = 1 ∨
      (s.heap id).numTrackers = 0 ∧ (s.heap id).getValueI = .null
  | .tracked e => e.trackingNumber ≤ 1 ∧ (s.heap e.entry).getValueI = .null

/-- A tracked operation stores the value and then drops the entry. -/
def DropsStored (entry : MapEntry) (newValue : CacheValue V) (updateCount : ℤ) : Prop :=
  s.concurrencyChecksEnabled = false ∧ updateCount ≥ 0 ∧
    (s.setValueI entry.target newValue).Drops entry

/-- The entry that a call hands out is not the one its key is bound to: a created entry replaces a
tombstone, or the tracker that is given back takes the entry with it. -/
def Misses : StoreCall K V D → Prop
  | .create key newValue updateCount _ _ => ∃ entry, s.map.lookup key = some entry ∧
      (entry.getValue s.heap = .tombstone ∨ entry.getValue s.heap = .null ∧
        s.DropsStored entry newValue updateCount)
  | .put key newValue updateCount _ _ _ => ∃ entry, s.map.lookup key = some entry ∧
      entry.getValue s.heap ≠ .tombstone ∧ s.DropsStored entry newValue updateCount

end

section

variable {region : Region K V D M} {s : MapSegment K V} {k : K} {entry : MapEntry}
  {newValue : CacheValue V} {updateCount destroyTracker : ℤ} {versionTag : Option VersionTag}
  {stamp : VersionStamp} {delta : Option D} {outs : OutParams V} {isSlot : Bool}

/-- Giving a tracker back leaves the key bound to the object it was bound to, or not at all. -/
lemma removeTracker_target (hoff : s.concurrencyChecksEnabled = false)
    (hk : s.map.lookup k = some entry) :
    ((s.removeTracker k entry entry.target).map.lookup k).map target = some entry.target ↔
      ¬ s.Drops entry := by
  unfold removeTracker
  rw [if_neg (by simp [hoff])]
  cases entry with
  | impl id =>
    by_cases hzero : (s.heap id).numTrackers = 0
    · by_cases hnull : (s.heap id).getValueI = .null <;>
        simp [MapEntry.removeTracker, target, Drops, storeSelf, hzero, hnull, hk, unbind]
    · by_cases hone : (s.heap id).numTrackers = 1
      · simp [MapEntry.removeTracker, target, Drops, storeSelf, hone, unbind, placementNew,
          getValueI]
      · have hleft : ¬ ((s.heap id).numTrackers - 1 : Fin 5) = 0 := by omega
        simp [MapEntry.removeTracker, target, Drops, storeSelf, hzero, hone, hk, hleft]
  | tracked =>
    simp only [MapEntry.removeTracker, Drops]
    split_ifs <;> simp_all [storeSelf, bind, unbind, target, isNull_iff] <;> omega

/-- Counting an update leaves the key bound to its object. -/
lemma incrementUpdateCount_target {t : MapSegment K V} (hk : s.map.lookup k = some entry)
    (h : s.incrementUpdateCount k entry isSlot = some t) :
    (t.map.lookup k).map target = some entry.target := by
  have hmem : k ∈ s.map := AList.lookup_isSome.mp (by simp [hk])
  by_cases hon : s.concurrencyChecksEnabled = true
  · rw [incrementUpdateCount, if_pos hon] at h
    cases h
    simp [hk]
  · rw [incrementUpdateCount, if_neg hon] at h
    cases entry with
    | impl id =>
      simp only [MapEntry.incrementUpdateCount] at h
      split_ifs at h <;> cases h <;> cases isSlot <;>
        simp [storeSelf, emplace, bind, hmem, hk, target]
    | tracked e =>
      simp only [MapEntry.incrementUpdateCount] at h
      cases h
      simp [storeSelf, bind, target]

/-- Storing into an entry leaves its key bound to it unless the entry is dropped. -/
lemma putForTrackedEntry_target (hk : s.map.lookup k = some entry)
    (hres : (putForTrackedEntry region s k newValue entry isSlot entry.target updateCount stamp
      delta).1 = .returned .noErr) :
    ((putForTrackedEntry region s k newValue entry isSlot entry.target updateCount stamp
      delta).2.map.lookup k).map target = some entry.target ↔
      ¬ s.DropsStored entry newValue updateCount := by
  unfold putForTrackedEntry at hres ⊢
  by_cases hu : updateCount < 0 ∨ s.concurrencyChecksEnabled = true
  · have hnot : ¬ s.DropsStored entry newValue updateCount := by
      rintro ⟨hoff, hcount, -⟩
      rcases hu with hu | hu
      · omega
      · rw [hoff] at hu
        cases hu
    rw [if_pos hu] at hres ⊢
    dsimp only at hres ⊢
    split_ifs at hres ⊢ with herr
    · exact absurd (Outcome.returned.inj hres) herr
    all_goals
      split at hres
      · cases hres
      · next heq =>
        refine iff_of_true (incrementUpdateCount_target ?_ heq) hnot
        simpa [setStamp, setValueI, setImpl, eraseTombstone_map] using hk
  · have hoff : s.concurrencyChecksEnabled = false := by simp_all
    have htarget := removeTracker_target (s := s.setValueI entry.target newValue) hoff hk
    rw [if_neg hu] at hres ⊢
    split_ifs at hres ⊢
    · rw [htarget]
      exact not_congr ⟨fun h => ⟨hoff, by omega, h⟩, fun h => h.2.2⟩
    · cases hres

/-- A key that is not bound gets the next object. -/
lemma putNoEntry_target {versionStamp : Option VersionStamp} (hk : s.map.lookup k = none)
    (h : (s.putNoEntry k newValue updateCount destroyTracker versionTag versionStamp).err =
      .noErr) :
    let put := s.putNoEntry k newValue updateCount destroyTracker versionTag versionStamp
    put.newEntry = some s.nextObj ∧ put.segment.map.lookup k = some (.impl s.nextObj) := by
  by_cases hrefused : s.Refused k updateCount destroyTracker
  · simp [putNoEntry_of_refused hrefused] at h
  · simp [putNoEntry_of_not_refused hk hrefused, bindNew]

omit [DecidableEq K] in
/-- A conflict of versions is an error, and there is none without concurrency checks. -/
lemma checkVersion_error {id : ObjId} {deltaCheck : Bool} {err : GfErrType}
    (h : s.checkVersion region id versionTag deltaCheck = .error err) :
    s.concurrencyChecksEnabled = true ∧ err ≠ .noErr := by
  unfold checkVersion at h
  split_ifs at h with hon
  refine ⟨hon, ?_⟩
  cases versionTag with
  | none => cases h
  | some tag =>
    dsimp only at h
    split at h
    · cases h
    · next hne =>
      cases h
      exact hne

/-- How `create` ends for a key that is bound: it throws, it finds a conflict, it stores into an
entry without a value, it replaces a tombstone, or the entry exists. -/
lemma create_bound_cases (region : Region K V D M) (newValue : CacheValue V) (outs : OutParams V)
    (updateCount destroyTracker : ℤ) (versionTag : Option VersionTag)
    (hk : s.map.lookup k = some entry) :
    let res := s.create region k newValue outs updateCount destroyTracker versionTag
    res.outcome = .badWeakPtr ∨
      (∃ err, s.checkVersion region entry.target versionTag false = .error err ∧
        res.outcome = .returned err ∧ res.segment = s) ∨
      (∃ stamp, entry.getValue s.heap = .null ∧
        let put := putForTrackedEntry region s k newValue entry true entry.target updateCount
          stamp none
        res.outcome = put.1 ∧ res.segment = put.2 ∧
          (put.1 = .returned .noErr → res.outs.me = some entry.target)) ∨
      (∃ stamp, entry.getValue s.heap = .tombstone ∧
        let put := (s.removeEntry k).putNoEntry k newValue updateCount destroyTracker versionTag
          stamp
        res.outcome = .returned put.err ∧ res.segment = put.segment ∧
          (put.err = .noErr → res.outs.me = some entry.target)) ∨
      entry.getValue s.heap ≠ .null ∧ entry.getValue s.heap ≠ .tombstone ∧
        res.outcome = .returned .cacheEntryExists ∧ res.segment = s := by
  dsimp only [getValue]
  unfold create
  rw [hk]
  dsimp only
  cases himpl : entry.getImplPtr s.heap with
  | none => exact .inl rfl
  | some entryImpl =>
    obtain rfl := getImplPtr_eq_target himpl
    dsimp only
    cases hold : (s.heap entry.target).getValueI with
    | null =>
      cases hcheck : s.checkVersion region entry.target versionTag false with
      | error err => exact .inr (.inl ⟨err, rfl, rfl, rfl⟩)
      | ok stamp => exact .inr (.inr (.inl ⟨stamp, rfl, rfl, rfl, fun h => by simp [h]⟩))
    | tombstone =>
      cases hcheck : s.checkVersion region entry.target versionTag false with
      | error err => exact .inr (.inl ⟨err, rfl, rfl, rfl⟩)
      | ok stamp =>
        exact .inr (.inr (.inr (.inl ⟨some stamp, rfl, rfl, rfl, fun h => by simp [h]⟩)))
    | _ => exact .inr (.inr (.inr (.inr ⟨by simp, by simp, rfl, rfl⟩)))

/-- How `put` ends for a key that is bound: it throws, it finds a conflict, it replaces a tombstone,
or it stores into the entry. -/
lemma put_bound_cases (region : Region K V D M) (newValue : CacheValue V) (outs : OutParams V)
    (updateCount destroyTracker : ℤ) (versionTag : Option VersionTag) (delta : Option D)
    (hk : s.map.lookup k = some entry) :
    let res := s.put region k newValue outs updateCount destroyTracker versionTag delta
    res.outcome = .badWeakPtr ∨
      (∃ err, s.checkVersion region entry.target versionTag delta.isSome = .error err ∧
        res.outcome = .returned err ∧ res.segment = s) ∨
      ∃ stamp, s.checkVersion region entry.target versionTag delta.isSome = .ok stamp ∧
        (entry.getValue s.heap = .tombstone ∧
            (let put := (s.removeEntry k).putNoEntry k newValue updateCount destroyTracker
              versionTag (some stamp)
            res.outcome = .returned put.err ∧ res.segment = put.segment ∧
              res.outs.me = (put.newEntry <|> outs.me)) ∨
          entry.getValue s.heap ≠ .tombstone ∧
            (let put := putForTrackedEntry region s k newValue entry true entry.target updateCount
              stamp delta
            res.outcome = put.1 ∧ res.segment = put.2 ∧
              (put.1 = .returned .noErr → res.outs.me = some entry.target))) := by
  dsimp only [getValue]
  unfold put
  rw [hk]
  dsimp only
  cases himpl : entry.getImplPtr s.heap with
  | none => exact .inl rfl
  | some entryImpl =>
    obtain rfl := getImplPtr_eq_target himpl
    dsimp only
    cases hcheck : s.checkVersion region entry.target versionTag delta.isSome with
    | error err => exact .inr (.inl ⟨err, rfl, rfl, rfl⟩)
    | ok stamp =>
      refine .inr (.inr ⟨stamp, rfl, ?_⟩)
      dsimp only
      by_cases htomb : (s.heap entry.target).getValueI = .tombstone
      · rw [if_pos (isTombstone_iff.mpr htomb)]
        exact .inl ⟨htomb, rfl, rfl, rfl⟩
      · rw [if_neg (mt isTombstone_iff.mp htomb)]
        refine .inr ⟨htomb, ?_⟩
        split_ifs with hput
        · exact ⟨rfl, rfl, fun _ => rfl⟩
        · exact ⟨rfl, rfl, fun h => absurd h hput⟩

/-- A tombstone that is replaced leaves the key bound to a new object. -/
lemma removeEntry_putNoEntry_target {versionStamp : Option VersionStamp}
    (h : ((s.removeEntry k).putNoEntry k newValue updateCount destroyTracker versionTag
      versionStamp).err = .noErr) :
    let put := (s.removeEntry k).putNoEntry k newValue updateCount destroyTracker versionTag
      versionStamp
    put.newEntry = some s.nextObj ∧ put.segment.map.lookup k = some (.impl s.nextObj) := by
  have hgone : (s.removeEntry k).map.lookup k = none := by simp [removeEntry, unbind]
  have hnext : (s.removeEntry k).nextObj = s.nextObj := by simp [removeEntry, unbind]
  simpa [hnext] using putNoEntry_target hgone h

/-- What a successful `create` hands out. -/
lemma create_me_bound_iff (hok : (s.create region k newValue outs updateCount destroyTracker
      versionTag).outcome = .returned .noErr)
    (hmade : ∀ entry, s.map.lookup k = some entry → entry.target < s.nextObj) :
    let res := s.create region k newValue outs updateCount destroyTracker versionTag
    (res.segment.map.lookup k).map target = res.outs.me ↔
      ¬ s.Misses (.create k newValue updateCount destroyTracker versionTag : StoreCall K V D) := by
  dsimp only [Misses]
  cases hk : s.map.lookup k with
  | none =>
    simp only [create, hk] at hok ⊢
    obtain ⟨hnew, hbound⟩ := putNoEntry_target hk (Outcome.returned.inj hok)
    simp [hnew, hbound, target]
  | some entry =>
    simp only [Option.some.injEq, exists_eq_left']
    rcases create_bound_cases region newValue outs updateCount destroyTracker versionTag hk with
      hthrows | ⟨err, hcheck, herr, -⟩ | ⟨stamp, hnull, houtcome, hsegment, hme⟩ |
      ⟨stamp, htomb, houtcome, hsegment, hme⟩ | ⟨-, -, hexists, -⟩
    · rw [hthrows] at hok
      cases hok
    · rw [herr] at hok
      exact absurd (Outcome.returned.inj hok) (checkVersion_error hcheck).2
    · rw [houtcome] at hok
      rw [hsegment, hme hok, putForTrackedEntry_target hk hok]
      simp [hnull]
    · -- the caller gets the tombstone's object, and the key a new one
      rw [houtcome, Outcome.returned.injEq] at hok
      rw [hsegment, hme hok, (removeEntry_putNoEntry_target hok).2]
      simp only [htomb, Option.map_some, target, Option.some.injEq, true_or, not_true, iff_false]
      exact (hmade entry hk).ne'
    · rw [hexists] at hok
      cases hok

/-- What a successful `put` hands out. -/
lemma put_me_bound_iff (hok : (s.put region k newValue outs updateCount destroyTracker versionTag
      delta).outcome = .returned .noErr) :
    let res := s.put region k newValue outs updateCount destroyTracker versionTag delta
    (res.segment.map.lookup k).map target = res.outs.me ↔
      ¬ s.Misses (.put k newValue updateCount destroyTracker versionTag delta) := by
  dsimp only [Misses]
  cases hk : s.map.lookup k with
  | none =>
    simp only [put, hk] at hok ⊢
    by_cases hdelta : delta.isSome = true
    · rw [if_pos hdelta] at hok
      cases hok
    · rw [if_neg hdelta] at hok ⊢
      obtain ⟨hnew, hbound⟩ := putNoEntry_target hk (Outcome.returned.inj hok)
      simp [hnew, hbound, target]
  | some entry =>
    simp only [Option.some.injEq, exists_eq_left']
    rcases put_bound_cases region newValue outs updateCount destroyTracker versionTag delta hk with
      hthrows | ⟨err, hcheck, herr, -⟩ | ⟨stamp, -, ⟨htomb, houtcome, hsegment, hme⟩ |
      ⟨htomb, houtcome, hsegment, hme⟩⟩
    · rw [hthrows] at hok
      cases hok
    · rw [herr] at hok
      exact absurd (Outcome.returned.inj hok) (checkVersion_error hcheck).2
    · rw [houtcome, Outcome.returned.injEq] at hok
      obtain ⟨hnew, hbound⟩ := removeEntry_putNoEntry_target hok
      rw [hsegment, hme, hbound, hnew]
      simp [htomb, target]
    · rw [houtcome] at hok
      rw [hsegment, hme hok, putForTrackedEntry_target hk hok]
      simp [htomb]

end

/-- A call that succeeds hands out the entry that its key is bound to, unless it is one of those
that miss it. An object in the map is one that was made before. -/
theorem me_bound_iff_not_misses (region : Region K V D M) (s : MapSegment K V) (outs : OutParams V)
    (c : StoreCall K V D) (hok : (s.store region outs c).outcome = .returned .noErr)
    (hmade : ∀ entry, s.map.lookup c.key = some entry → entry.target < s.nextObj) :
    ((s.store region outs c).segment.map.lookup c.key).map target =
      (s.store region outs c).outs.me ↔ ¬ s.Misses c := by
  cases c with
  | create => exact create_me_bound_iff hok hmade
  | put => exact put_me_bound_iff hok

theorem me_bound_iff_not_misses_put :
    let s := single true (.object ())
    let c : StoreCall Unit Unit Unit := .put () .null 0 0 none none
    (s.store unitRegion {} c).outcome = .returned .noErr ∧
      (((s.store unitRegion {} c).segment.map.lookup ()).map target =
        (s.store unitRegion {} c).outs.me ↔ ¬ s.Misses c) := by
  refine ⟨rfl, me_bound_iff_not_misses _ _ _ (.put () .null 0 0 none none) rfl ?_⟩
  intro _ hentry
  cases hentry
  decide

/-- A key that is created over its tombstone is bound to a new object, and the caller gets the
tombstone's. -/
theorem not_me_bound_overTombstone :
    let res := (single true .tombstone).store unitRegion {} (.create () (.object ()) (-1) 0 none)
    res.outcome = .returned .noErr ∧ (res.segment.map.lookup ()).map target = some 1 ∧
      res.outs.me = some 0 :=
  ⟨rfl, rfl, rfl⟩

end MapSegment

end GeodeNative
