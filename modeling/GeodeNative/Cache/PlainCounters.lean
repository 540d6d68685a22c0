import GeodeNative.Cache.TrackedSlot
import GeodeNative.Cache.Views

/-!
# Tracker counters as plain counters

What an entry's tracking number and update count are for can be said with two numbers that are
counted up and down. The entry keeps them in its class, and each change of the class builds the
object anew, after which no pointer to the entry can be had. The numbers agree as long as no call
needs one: trackers are added, four at most, and nothing else is done to a tracked key.
-/

namespace GeodeNative

/-- The counters of a key as they are meant. -/
structure PlainCounters where
  trackers : ℕ := 0
  updates : ℕ := 0
  deriving DecidableEq

/-- The calls that move the counters of a key. -/
inductive CounterCall (V D : Type*)
  | addTracker (incUpdateCount : Bool)
  | removeTracker
  | put (newValue : NewValue V) (delta : Option D)
  | invalidate

/-- The counters after a call: updates count while there are trackers, and are forgotten with the
last one. -/
def PlainCounters.step {V D : Type*} (c : PlainCounters) : CounterCall V D → PlainCounters
  | .addTracker incUpdateCount => ⟨c.trackers + 1, c.updates + incUpdateCount.toNat⟩
  | .removeTracker => if c.trackers ≤ 1 then {} else { c with trackers := c.trackers - 1 }
  | .put _ _ | .invalidate => if c.trackers = 0 then c else { c with updates := c.updates + 1 }

namespace MapSegment

open MapEntry

variable {K V D M : Type*} [DecidableEq K] (region : Region K V D M) (k : K)

/-- The segment after a call; the updates are untracked ones. -/
def counterStep (s : MapSegment K V) : CounterCall V D → MapSegment K V
  | .addTracker incUpdateCount => (s.addTrackerForEntry k .null true false incUpdateCount).segment
  | .removeTracker => (s.removeTrackerForEntry k).2
  | .put newValue delta => (s.put region k newValue.toCacheValue {} (-1) 0 none delta).segment
  | .invalidate => (s.invalidate region k {} none).segment

/-- Segment and plain counters side by side. -/
def bothStep (st : MapSegment K V × PlainCounters) (c : CounterCall V D) :
    MapSegment K V × PlainCounters :=
  (st.1.counterStep region k c, st.2.step c)

/-- The key is bound to an entry with these counters. -/
def Counts (st : MapSegment K V × PlainCounters) : Prop :=
  ∃ entry, st.1.map.lookup k = some entry ∧
    entry.getTrackingNumber st.1.heap = st.2.trackers ∧
    entry.getUpdateCount st.1.heap = st.2.updates

/-- The calls after which the counters agree: a tracker is added within the ranges of the entry's
class, and anything else is done to a key that is not tracked. -/
def CountsOn (st : MapSegment K V × PlainCounters) : CounterCall V D → Prop
  | .addTracker incUpdateCount => st.2.trackers < 4 ∧ (incUpdateCount = true → st.2.updates < 8)
  | .removeTracker => st.2.trackers = 0 ∧
      ∀ entry, st.1.map.lookup k = some entry → entry.getValue st.1.heap ≠ .null
  | .put _ _ | .invalidate => st.2.trackers = 0

/-- The key is not tracked, or bound to an object that was built anew with its counters. -/
def Counted (st : MapSegment K V × PlainCounters) : Prop :=
  st.1.Untracked k ∧ st.2 = {} ∨
    st.1.concurrencyChecksEnabled = false ∧ ∃ id n u, st.1.map.lookup k = some (.impl id) ∧
      st.1.heap id = .placementNew n u ∧ n ≠ 0 ∧ st.2 = ⟨n.val, u.val⟩

variable {region k} {st : MapSegment K V × PlainCounters} {incUpdateCount : Bool}

lemma Counted.counts (h : Counted k st) : Counts k st := by
  rcases h with ⟨⟨-, id, hk, hp, -⟩, hzero⟩ | ⟨-, id, _, _, hk, hheap, -, hcounts⟩
  · exact ⟨_, hk, by simp [getTrackingNumber, hp.numTrackers_eq, hzero],
      by simp [getUpdateCount, hp.updateCount_eq, hzero]⟩
  · exact ⟨_, hk, by simp [getTrackingNumber, hheap, hcounts, MapEntryImpl.placementNew],
      by simp [getUpdateCount, hheap, hcounts, MapEntryImpl.placementNew]⟩

/-- A further tracker within the ranges builds the object anew once more. -/
lemma addTrackerForEntry_of_rebuilt {s : MapSegment K V} {id : ObjId} {n : Fin 5} {u : Fin 9}
    (hoff : s.concurrencyChecksEnabled = false) (hk : s.map.lookup k = some (.impl id))
    (hheap : s.heap id = .placementNew n u) (hn : n < 4) (hu : incUpdateCount = true → u < 8) :
    (s.addTrackerForEntry k .null true false incUpdateCount).segment =
      s.setImpl id (.placementNew (n + 1) (if incUpdateCount then u + 1 else u)) := by
  have hfull : ¬ (incUpdateCount = true ∧ u = gfUpdateMax) := fun h => Fin.ne_of_lt (hu h.1) h.2
  rw [addTrackerForEntry_of_bound hoff hk,
    trackEntry_of_room (by rw [hheap]; exact Fin.ne_of_lt hn), hheap]
  exact congrArg Prod.snd (if_neg hfull)

lemma Counted.addTracker (h : Counted k st)
    (hc : CountsOn k st (.addTracker incUpdateCount : CounterCall V D)) :
    Counted k (bothStep region k st (.addTracker incUpdateCount)) := by
  refine .inr ?_
  rcases h with ⟨⟨hoff, id, hk, hp, -⟩, hzero⟩ | ⟨hoff, id, n, u, hk, hheap, _, hcounts⟩
  · simp only [bothStep, counterStep, addTrackerForEntry_of_isPlain hoff hk hp]
    refine ⟨hoff, id, 1, if incUpdateCount then 1 else 0, hk, by simp [setImpl, trackedEntry],
      by simp, ?_⟩
    cases incUpdateCount <;> simp [PlainCounters.step, hzero]
  · simp only [CountsOn, hcounts] at hc
    have hlt : n < 4 := hc.1
    have hu : incUpdateCount = true → u < 8 := hc.2
    have hn' : (n + 1).val = n.val + 1 := by omega
    have hu' : incUpdateCount = true → (u + 1).val = u.val + 1 := fun h => by
      have hlt' := hu h
      omega
    simp only [bothStep, counterStep, addTrackerForEntry_of_rebuilt hoff hk hheap hlt hu]
    refine ⟨hoff, id, n + 1, if incUpdateCount then u + 1 else u, hk, by simp [setImpl],
      by omega, ?_⟩
    cases incUpdateCount <;> simp_all [PlainCounters.step]

lemma Counted.untracked (h : Counted k st) (hzero : st.2.trackers = 0) :
    st.1.Untracked k ∧ st.2 = {} := by
  rcases h with h | ⟨-, _, _, _, -, -, hn, hcounts⟩
  · exact h
  · rw [hcounts] at hzero
    exact absurd (Fin.ext hzero) hn

lemma Counted.step (h : Counted k st) {c : CounterCall V D} (hc : CountsOn k st c) :
    Counted k (bothStep region k st c) := by
  cases c with
  | addTracker => exact h.addTracker hc
  | removeTracker =>
    obtain ⟨hs, hcounts⟩ := h.untracked hc.1
    obtain ⟨id, hk, hp, -⟩ := hs.bound
    have hvalue : (st.1.heap id).getValueI ≠ .null := hc.2 _ hk
    have hsame : (st.1.removeTrackerForEntry k).2 = st.1 := by
      simp [removeTrackerForEntry, hk, getImplPtr_of_isPlain hp,
        removeTracker_of_isPlain hs.disabled hp, hvalue]
    exact .inl ⟨by simpa [bothStep, counterStep, hsame] using hs,
      by simp [bothStep, PlainCounters.step, hcounts]⟩
  | put =>
    obtain ⟨hs, hcounts⟩ := h.untracked hc
    exact .inl ⟨hs.put (by simp), by simp [bothStep, PlainCounters.step, hcounts]⟩
  | invalidate =>
    obtain ⟨hs, hcounts⟩ := h.untracked hc
    exact .inl ⟨hs.invalidate, by simp [bothStep, PlainCounters.step, hcounts]⟩

/-- Without concurrency checks, the counters of a key that is bound and not tracked agree with the
plain ones along every run of calls that meet the condition. -/
theorem counts_of_countsOn (region : Region K V D M) (k : K) (s : MapSegment K V)
    (calls : List (CounterCall V D)) (hs : s.Untracked k)
    (hcalls : EveryStep (bothStep region k) (CountsOn k) (s, {}) calls) :
    EveryState (bothStep region k) (Counts k) (s, {}) calls := by
  refine (everyState_of_everyStep (P := Counted k) (fun st c h hc => h.step hc) (.inl ⟨hs, rfl⟩)
    hcalls).mono fun st h => h.counts

theorem counts_of_countsOn_twoTrackers :
    Counts () (runFrom (bothStep unitRegion ()) (single false (.object ()), {})
      [.invalidate, .addTracker false, .addTracker true]) := by
  refine (counts_of_countsOn unitRegion () (single false (.object ())) _
    ⟨rfl, 0, rfl, ⟨rfl, rfl, rfl, rfl⟩, by decide⟩ ?_).last
  exact ⟨rfl, ⟨by decide, by decide⟩, ⟨by decide, by decide⟩, trivial⟩

/-- A tracker that was added is not taken away again. -/
theorem not_counts_addRemove :
    ¬ Counts () (runFrom (bothStep unitRegion ()) (single false (.object ()), {})
      [.addTracker false, .removeTracker]) := by
  rintro ⟨_, hk, htrackers, -⟩
  cases hk
  exact absurd htrackers (by decide)

end MapSegment

end GeodeNative
