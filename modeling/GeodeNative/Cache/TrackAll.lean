import GeodeNative.Cache.Reaping

/-!
# Tracking all entries

`addTrackerForAllEntries` adds a tracker to every entry of a segment and reports the update count
of each. The loop hands one variable to all calls of `addTracker`, which set it only where an entry
has to be replaced by a wrapper. The variable is not reset, so that every entry after the first such
one is replaced by a wrapper of an earlier entry. An entry that is counted in place loses its value,
as under `addTrackerForEntry`.
-/

namespace GeodeNative

open MapEntry

/-- The state of the loop in `MapSegment::addTrackerForAllEntries`: `newEntry` is the variable that
all iterations share, `updateCounterMap` the pairs that are reported. -/
structure TrackAll (K V : Type*) where
  segment : MapSegment K V
  newEntry : Option MapEntry
  updateCounterMap : List (Option K × ℤ)

variable {K V : Type*} [DecidableEq K]

namespace TrackAll

/-- One iteration; `none` where `addTracker` throws. -/
def next (st : TrackAll K V) (kv : Σ _ : K, MapEntry) : Option (TrackAll K V) :=
  (kv.2.addTracker st.segment.heap).map fun added =>
    let key := (st.segment.heap kv.2.target).key
    let newEntry := added.newEntry <|> st.newEntry
    let segment := { st.segment with heap := added.heap }.storeSelf kv.1 added.self
    { segment := newEntry.elim segment (segment.bind kv.1)
      newEntry
      updateCounterMap := if key ∈ st.updateCounterMap.map (·.1) then st.updateCounterMap
        else st.updateCounterMap ++ [(key, added.count)] }

end TrackAll

namespace MapSegment

/-- `MapSegment::addTrackerForAllEntries`; `none` where it throws. -/
def addTrackerForAllEntries (s : MapSegment K V) : Option (TrackAll K V) :=
  if s.concurrencyChecksEnabled then some ⟨s, none, []⟩
  else s.map.entries.foldlM TrackAll.next ⟨s, none, []⟩

/-- The key of an entry is bound to the same object, whose value and stamp are kept, with one more
tracker and the same number of updates. -/
def CountedAt (s t : MapSegment K V) (kv : Σ _ : K, MapEntry) : Prop :=
  ∃ entry, t.map.lookup kv.1 = some entry ∧ entry.target = kv.2.target ∧
    (t.heap kv.2.target).value = (s.heap kv.2.target).value ∧
    (t.heap kv.2.target).versionStamp = (s.heap kv.2.target).versionStamp ∧
    entry.getTrackingNumber t.heap = kv.2.getTrackingNumber s.heap + 1 ∧
    entry.getUpdateCount t.heap = kv.2.getUpdateCount s.heap

/-- The pairs to be reported for some entries. -/
def counters (heap : EntryHeap K V) (kvs : List (Σ _ : K, MapEntry)) : List (Option K × ℤ) :=
  kvs.map fun kv => (some kv.1, kv.2.getUpdateCount heap)

/-- Every entry is counted, and reported once. -/
def AllCounted (s : MapSegment K V) : Prop :=
  ∃ t, s.addTrackerForAllEntries = some t ∧
    (∀ kv ∈ s.map.entries, s.CountedAt t.segment kv) ∧
    t.updateCounterMap = counters s.heap s.map.entries

end MapSegment

/-- The entry is to be replaced by a wrapper. -/
def MapEntry.Overflows (heap : EntryHeap K V) : MapEntry → Prop
  | .impl id => (heap id).numTrackers = gfTrackMax
  | .tracked _ => False

/-- The entry loses nothing where it is counted in place. -/
def MapEntry.Survives (heap : EntryHeap K V) : MapEntry → Prop
  | .impl id => (heap id).value = .null ∧ (heap id).versionStamp = {}
  | .tracked _ => True

/-- The entries hold their keys, none that is counted in place loses anything, and those that are
replaced come last and can be pointed to.  The flag says whether one was replaced before. -/
def MapSegment.Trackable (heap : EntryHeap K V) : Bool → List (Σ _ : K, MapEntry) → Prop
  | _, [] => True
  | replaced, kv :: kvs => (heap kv.2.target).key = some kv.1 ∧
      (kv.2.Overflows heap ∧ (heap kv.2.target).weakThis = true ∧ Trackable heap true kvs ∨
        ¬ kv.2.Overflows heap ∧ replaced = false ∧ kv.2.Survives heap ∧ Trackable heap false kvs)

namespace TrackAll

open MapSegment

variable {st st' t : TrackAll K V} {kv : Σ _ : K, MapEntry} {kvs : List (Σ _ : K, MapEntry)}

/-- An iteration throws exactly where a wrapper cannot be made. -/
lemma next_eq_none_iff : st.next kv = none ↔
    kv.2.Overflows st.segment.heap ∧ (st.segment.heap kv.2.target).weakThis = false := by
  obtain ⟨k, entry⟩ := kv
  cases entry with
  | impl id =>
    by_cases hmax : (st.segment.heap id).numTrackers = gfTrackMax
    · cases hweak : (st.segment.heap id).weakThis <;>
        simp [next, addTracker, Overflows, target, hmax, hweak]
    · simp [next, addTracker, Overflows, target, hmax]
  | tracked => simp [next, addTracker, Overflows]

/-- What an iteration changes: the key's binding, the object of its entry, and the report. -/
lemma next_spec (h : st.next kv = some st') :
    let s := st.segment
    (∀ k, k ≠ kv.1 → st'.segment.map.lookup k = s.map.lookup k) ∧
      (∀ id, id ≠ kv.2.target → st'.segment.heap id = s.heap id) ∧
      st'.updateCounterMap = (if (s.heap kv.2.target).key ∈ st.updateCounterMap.map (·.1) then
        st.updateCounterMap else
        st.updateCounterMap ++ [((s.heap kv.2.target).key, kv.2.getUpdateCount s.heap)]) ∧
      (kv.2.Overflows s.heap → (s.heap kv.2.target).weakThis = true ∧ s.CountedAt st'.segment kv ∧
        ∃ w, st'.newEntry = some w ∧ w.target = kv.2.target) ∧
      (¬ kv.2.Overflows s.heap → st'.newEntry = st.newEntry ∧
        (st.newEntry = none → s.map.lookup kv.1 = some kv.2 →
          (s.CountedAt st'.segment kv ↔ kv.2.Survives s.heap)) ∧
        ∀ w, st.newEntry = some w → st'.segment.map.lookup kv.1 = some w) := by
  obtain ⟨k, entry⟩ := kv
  cases entry with
  | impl id =>
    by_cases hmax : (st.segment.heap id).numTrackers = gfTrackMax
    · by_cases hweak : (st.segment.heap id).weakThis = true
      · simp [next, addTracker, hmax, hweak, target] at h
        subst h
        simp +contextual [storeSelf, MapSegment.bind, target, Overflows, hmax, hweak,
          getUpdateCount, AList.lookup_insert_ne, CountedAt, getTrackingNumber]
      · simp [next, addTracker, hmax, hweak] at h
    · have hsucc : ∀ n : Fin 5, n ≠ gfTrackMax → ((n + 1 : Fin 5) : ℤ) = n + 1 := by decide
      simp [next, addTracker, hmax, target] at h
      subst h
      cases st.newEntry <;> simp +contextual [storeSelf, MapSegment.bind, target, Overflows, hmax,
        getUpdateCount, AList.lookup_insert_ne, CountedAt, getTrackingNumber, Survives]
      simp only [MapEntryImpl.placementNew, hsucc _ hmax, and_true]
      exact fun _ => ⟨fun h => ⟨h.1.symm, h.2.symm⟩, fun h => ⟨h.1.symm, h.2.symm⟩⟩
  | tracked e =>
    simp [next, addTracker, target] at h
    subst h
    cases st.newEntry <;> simp +contextual [storeSelf, MapSegment.bind, target, Overflows,
      getUpdateCount, AList.lookup_insert_ne, CountedAt, getTrackingNumber, Survives]

/-- The loop touches the keys and objects of its entries, and reports each at most once. -/
lemma foldlM_frame (h : kvs.foldlM next st = some t) :
    (∀ k, (∀ kv ∈ kvs, k ≠ kv.1) → t.segment.map.lookup k = st.segment.map.lookup k) ∧
      (∀ id, (∀ kv ∈ kvs, id ≠ kv.2.target) → t.segment.heap id = st.segment.heap id) ∧
      ∃ added, t.updateCounterMap = st.updateCounterMap ++ added ∧ added.length ≤ kvs.length := by
  induction kvs generalizing st with
  | nil =>
    cases h
    simp
  | cons kv kvs ih =>
    obtain ⟨st', hnext, hrest⟩ := Option.bind_eq_some_iff.mp h
    obtain ⟨hlookup, hheap, hcount, -⟩ := next_spec hnext
    obtain ⟨hlookup', hheap', added, hadded, hlen⟩ := ih hrest
    refine ⟨fun k hk => ?_, fun id hid => ?_, ?_⟩
    · rw [hlookup' k fun kv' h => hk kv' (List.mem_cons_of_mem _ h), hlookup k (hk kv (by simp))]
    · rw [hheap' id fun kv' h => hid kv' (List.mem_cons_of_mem _ h), hheap id (hid kv (by simp))]
    split_ifs at hcount
    · exact ⟨added, by rw [hadded, hcount], by simp; omega⟩
    · exact ⟨[_] ++ added, by rw [hadded, hcount, List.append_assoc], by simpa using hlen⟩

omit [DecidableEq K] in
/-- Whether an entry is trackable is a matter of its own object. -/
lemma trackable_congr {heap heap' : EntryHeap K V} {replaced : Bool}
    (h : ∀ kv ∈ kvs, heap' kv.2.target = heap kv.2.target) :
    Trackable heap' replaced kvs ↔ Trackable heap replaced kvs := by
  induction kvs generalizing replaced with
  | nil => rfl
  | cons kv kvs ih =>
    obtain ⟨hkv, hkvs⟩ := List.forall_mem_cons.mp h
    obtain ⟨k, entry⟩ := kv
    cases entry <;> simp_all [Trackable, Overflows, Survives, target]

omit [DecidableEq K] in
/-- The counts of an entry are a matter of its own object. -/
lemma getCounts_congr {heap heap' : EntryHeap K V} {entry : MapEntry}
    (h : heap' entry.target = heap entry.target) :
    entry.getTrackingNumber heap' = entry.getTrackingNumber heap ∧
      entry.getUpdateCount heap' = entry.getUpdateCount heap := by
  cases entry <;> simp_all [getTrackingNumber, getUpdateCount, target]

/-- Whether an entry is counted is a matter of its key and its object. -/
lemma countedAt_congr {s s' t t' : MapSegment K V}
    (hs : s'.heap kv.2.target = s.heap kv.2.target) (ht : t'.heap kv.2.target = t.heap kv.2.target)
    (hlookup : t'.map.lookup kv.1 = t.map.lookup kv.1) :
    s'.CountedAt t' kv ↔ s.CountedAt t kv := by
  unfold CountedAt
  rw [hs, ht, hlookup, (getCounts_congr hs).1, (getCounts_congr hs).2]
  refine exists_congr fun entry => and_congr_right fun _ => and_congr_right fun htarget => ?_
  rw [(getCounts_congr (htarget ▸ ht)).1, (getCounts_congr (htarget ▸ ht)).2]

/-- The loop counts the entries that are left exactly when they are trackable. -/
lemma foldlM_counted_iff (st : TrackAll K V) (hkeys : (kvs.map (·.1)).Nodup)
    (htargets : kvs.Pairwise fun kv kv' => kv.2.target ≠ kv'.2.target)
    (hlookup : ∀ kv ∈ kvs, st.segment.map.lookup kv.1 = some kv.2)
    (hnew : ∀ w, st.newEntry = some w → ∀ kv ∈ kvs, w.target ≠ kv.2.target)
    (hcounters : ∀ kv ∈ kvs, some kv.1 ∉ st.updateCounterMap.map (·.1)) :
    (∃ t, kvs.foldlM next st = some t ∧ (∀ kv ∈ kvs, st.segment.CountedAt t.segment kv) ∧
      t.updateCounterMap = st.updateCounterMap ++ counters st.segment.heap kvs) ↔
      Trackable st.segment.heap st.newEntry.isSome kvs := by
  induction kvs generalizing st with
  | nil => simp [Trackable, counters]
  | cons kv kvs ih =>
    obtain ⟨hkey, hkeys⟩ := List.nodup_cons.mp hkeys
    obtain ⟨htarget, htargets⟩ := List.pairwise_cons.mp htargets
    rw [List.foldlM_cons]
    cases hnext : st.next kv with
    | none =>
      have hthrows := next_eq_none_iff.mp hnext
      simp [Trackable, hthrows]
    | some st' =>
      obtain ⟨hbinding, hheap, hcount, hover, hplace⟩ := next_spec hnext
      simp only [Option.bind_eq_bind, Option.bind_some, Trackable]
      by_cases hown : (st.segment.heap kv.2.target).key = some kv.1
      · have hcount' : st'.updateCounterMap =
            st.updateCounterMap ++ [(some kv.1, kv.2.getUpdateCount st.segment.heap)] := by
          rw [hcount, hown, if_neg (hcounters kv (by simp))]
        have hne : ∀ kv' ∈ kvs, kv'.1 ≠ kv.1 := fun kv' h heq =>
          hkey (List.mem_map.mpr ⟨kv', h, heq⟩)
        have hheap' : ∀ kv' ∈ kvs, st'.segment.heap kv'.2.target = st.segment.heap kv'.2.target :=
          fun kv' h => hheap _ (htarget kv' h).symm
        have hlookup' : ∀ kv' ∈ kvs, st'.segment.map.lookup kv'.1 = some kv'.2 := fun kv' h =>
          (hbinding _ (hne kv' h)).trans (hlookup kv' (List.mem_cons_of_mem _ h))
        have hnew' : ∀ w, st'.newEntry = some w → ∀ kv' ∈ kvs, w.target ≠ kv'.2.target := by
          intro w hw kv' h
          by_cases hfull : kv.2.Overflows st.segment.heap
          · obtain ⟨-, -, w', hw', htarget'⟩ := hover hfull
            rw [hw, Option.some.injEq] at hw'
            rw [hw', htarget']
            exact htarget kv' h
          · exact hnew w ((hplace hfull).1 ▸ hw) kv' (List.mem_cons_of_mem _ h)
        have hcounters' : ∀ kv' ∈ kvs, some kv'.1 ∉ st'.updateCounterMap.map (·.1) := by
          intro kv' h
          rw [hcount', List.map_append, List.mem_append, not_or]
          exact ⟨hcounters kv' (List.mem_cons_of_mem _ h), by simpa using hne kv' h⟩
        have ih' := ih st' hkeys htargets hlookup' hnew' hcounters'
        have hrest : counters st'.segment.heap kvs = counters st.segment.heap kvs :=
          List.map_congr_left fun kv' h => by rw [(getCounts_congr (hheap' kv' h)).2]
        have hsplit : ∀ t, kvs.foldlM next st' = some t →
            ((∀ kv' ∈ kv :: kvs, st.segment.CountedAt t.segment kv') ↔
              st.segment.CountedAt st'.segment kv ∧
                ∀ kv' ∈ kvs, st'.segment.CountedAt t.segment kv') := by
          intro t ht
          obtain ⟨hlookup', hheap'', -⟩ := foldlM_frame ht
          rw [List.forall_mem_cons, countedAt_congr rfl (hheap'' _ htarget)
            (hlookup' _ fun kv' h => (hne kv' h).symm)]
          refine and_congr_right fun _ => forall₂_congr fun kv' h => ?_
          exact countedAt_congr (hheap' kv' h).symm rfl rfl
        rw [trackable_congr hheap', hrest] at ih'
        have hcounted : st.segment.CountedAt st'.segment kv ↔ kv.2.Overflows st.segment.heap ∨
            st.newEntry = none ∧ kv.2.Survives st.segment.heap := by
          by_cases hfull : kv.2.Overflows st.segment.heap
          · exact iff_of_true (hover hfull).2.1 (.inl hfull)
          · obtain ⟨-, hfirst, hlater⟩ := hplace hfull
            cases hw : st.newEntry with
            | none => simp [hfirst hw (hlookup kv (by simp)), hfull]
            | some w =>
              -- the key is bound to a wrapper of another entry
              refine iff_of_false ?_ (by simp [hfull])
              rintro ⟨entry, hentry, htarget', -⟩
              rw [hlater w hw, Option.some.injEq] at hentry
              exact hnew w hw kv (by simp) (hentry ▸ htarget')
        have hpairs : ∀ t : TrackAll K V, t.updateCounterMap =
            st.updateCounterMap ++ counters st.segment.heap (kv :: kvs) ↔
            t.updateCounterMap = st'.updateCounterMap ++ counters st.segment.heap kvs := by
          simp [hcount', counters]
        trans st.segment.CountedAt st'.segment kv ∧
          Trackable st.segment.heap st'.newEntry.isSome kvs
        · rw [← ih']
          constructor
          · rintro ⟨t, ht, hall, hreport⟩
            obtain ⟨hfirst, hrest⟩ := (hsplit t ht).mp hall
            exact ⟨hfirst, t, ht, hrest, (hpairs t).mp hreport⟩
          · rintro ⟨hfirst, t, ht, hrest, hreport⟩
            exact ⟨t, ht, (hsplit t ht).mpr ⟨hfirst, hrest⟩, (hpairs t).mpr hreport⟩
        · rw [hcounted]
          by_cases hfull : kv.2.Overflows st.segment.heap
          · obtain ⟨hweak, -, w, hw, -⟩ := hover hfull
            simp [hfull, hweak, hw, hown]
          · have hsame := (hplace hfull).1
            cases hw : st.newEntry <;> simp [hfull, hsame, hw, hown]
      · refine iff_of_false ?_ fun h => hown h.1
        rintro ⟨t, ht, -, hpairs⟩
        obtain ⟨-, -, added, hadded, hlen⟩ := foldlM_frame ht
        rw [hadded, hcount] at hpairs
        split_ifs at hpairs
        · have hlen' := congrArg List.length hpairs
          simp [counters] at hlen'
          omega
        · simp [counters, hown] at hpairs

end TrackAll

namespace MapSegment

/-- All entries are counted exactly when they are trackable in the order of the map; with
concurrency checks there are no trackers. -/
theorem allCounted_iff_trackable (s : MapSegment K V)
    (htargets : s.map.entries.Pairwise fun kv kv' => kv.2.target ≠ kv'.2.target) :
    s.AllCounted ↔ (s.concurrencyChecksEnabled = true → s.map.entries = []) ∧
      Trackable s.heap false s.map.entries := by
  unfold AllCounted addTrackerForAllEntries
  by_cases hon : s.concurrencyChecksEnabled = true
  · cases hentries : s.map.entries <;> simp [hon, counters, Trackable]
  · have hloop := TrackAll.foldlM_counted_iff ⟨s, none, []⟩ s.map.nodupKeys htargets
      (fun kv h => AList.mem_lookup_iff.mpr h) (by simp) (by simp)
    simpa [hon] using hloop

/-- An entry without a value is counted. -/
theorem allCounted_iff_trackable_blank : (single false .null).AllCounted :=
  (allCounted_iff_trackable _ (by simp [single, bindNew, empty])).mpr
    ⟨fun h => absurd h (by decide), by simp [single, bindNew, empty, Trackable, Overflows, Survives,
      gfTrackMax, MapEntryImpl.create]⟩

/-- Two tracked entries, of which the first has as many trackers as its class can hold. -/
def twoTracked : MapSegment Bool Unit :=
  { empty false 0 (fun id => { (.create (id == 1) : MapEntryImpl Bool Unit) with
      value := .object ()
      numTrackers := if id = 0 then gfTrackMax else 0 }) fun _ => ⟨0, false⟩ with
    map := ((∅ : AList fun _ : Bool => MapEntry).insert true (.tracked ⟨1, 5, 0⟩)).insert false
      (.impl 0) }

/-- The second entry is replaced by the wrapper of the first; and a value is lost where a tracker is
counted in place. -/
theorem not_allCounted_twoTracked :
    ¬ twoTracked.AllCounted ∧ ¬ (single false (.object ())).AllCounted := by
  constructor
  · rintro ⟨t, ht, hcounted, -⟩
    cases ht
    obtain ⟨entry, hlookup, htarget, -⟩ := hcounted ⟨true, .tracked ⟨1, 5, 0⟩⟩ (by decide)
    cases hlookup
    exact absurd htarget (by decide)
  · rintro ⟨t, ht, hcounted, -⟩
    cases ht
    obtain ⟨entry, hlookup, -, hvalue, -⟩ := hcounted ⟨(), .impl 0⟩ (by decide)
    exact absurd hvalue (by decide)

end MapSegment

end GeodeNative
