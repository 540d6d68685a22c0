import GeodeNative.Cache.EntrySlots
import GeodeNative.Cache.LRUEntriesMap

/-!
# The queue is in step with the map

`WellFormed` says that the queue holds exactly the bound entries that have a value, each
once, that every bound entry knows its place in the queue, and that the counter of entries
with a value is right.

Several calls break this: `clear` leaves the queue and the counter as they are, an eviction
that fails has already taken its entry off the queue, a lookup of an invalid entry gives it
the iterator of the last entry of the queue, and entries that are made invalid or as a
tombstone never get an iterator. `Allowed` names what a call must not do, in the state it is
made in. In a run of allowed calls every state is well formed.

The invariant behind this is about the slots of the whole map. A call changes one slot and
at most one entry of the queue: it keeps the kind of the slot, adds a value or drops one.
-/

namespace GeodeNative

open List Option Function

open CacheValue ConcurrentEntriesMap MapSegment

namespace LRUEntriesMap

variable {n : ℕ} {K V D M : Type*} [DecidableEq K] {slot : Option (ObjId × CacheValue V)}
  {t : MapSegment K V} {i : Fin n} {id : ObjId} {k : K}

/-! ## Well-formed maps -/

/-- The entries that keys are bound to, with their values. -/
def boundEntries (m : LRUEntriesMap n K V) : List ((Fin n × ObjId) × CacheValue V) :=
  (List.finRange n).flatMap fun i => (m.map.segments i).map.entries.map fun e =>
    ((i, e.2.target), ((m.map.segments i).heap e.2.target).value)

/-- The bound entries whose value is not a token. -/
def liveEntries (m : LRUEntriesMap n K V) : List (Fin n × ObjId) :=
  (m.boundEntries.filter fun e => !e.2.isToken).map Prod.fst

/-- The queue, the iterators of the entries and the counter agree with the map. -/
structure WellFormed (m : LRUEntriesMap n K V) : Prop where
  queue_perm : m.queue.entries.Perm m.liveEntries
  nodup : m.queue.entries.Nodup
  iterators : ∀ e ∈ m.boundEntries,
    m.queue.iterator e.1 = .atEnd ∧ e.1 ∉ m.queue.entries ∨
      ∃ id, m.queue.iterator e.1 = .node id ∧ (id, e.1) ∈ m.queue.container.nodes
  validEntries_eq : m.validEntries.toNat = m.liveEntries.length

/-- A run has reached a state, and it is well formed. -/
def ReachesWellFormed (m : Option (LRUEntriesMap n K V)) : Prop :=
  ∃ m', m = some m' ∧ m'.WellFormed

omit [DecidableEq K] in
lemma ReachesWellFormed.of_map {m : Option (LRUEntriesMap n K V)} {β : Type*}
    {f : LRUEntriesMap n K V → β} {b : β} (h : ReachesWellFormed m) (hf : m.map f = some b) :
    ∃ m', m'.WellFormed ∧ f m' = b := by
  obtain ⟨m', rfl, hm'⟩ := h
  exact ⟨m', hm', some_inj.mp hf⟩

/-- An eviction takes its entry out of the map or writes it to disk. -/
def Evicts (config : LRUConfig) (outcome : EvictOutcome) : Prop :=
  outcome ≠ .refused ∧ (config.action = .overflowToDisk → outcome ≠ .failed)

/-! ## Slots of the map -/

/-- The slot of a key in a segment. -/
def slotAt (m : LRUEntriesMap n K V) (p : Fin n × K) : Option (ObjId × CacheValue V) :=
  (m.map.segments p.1).slot p.2

/-- `m'` has the slots of `m` with one of them replaced. -/
structure Changes (m m' : LRUEntriesMap n K V) (p : Fin n × K)
    (slot : Option (ObjId × CacheValue V)) : Prop where
  orderly : ∀ i, (m'.map.segments i).Orderly
  slotAt_eq : m'.slotAt = Function.update m.slotAt p slot

section Changes

variable {m m' : LRUEntriesMap n K V} {p : Fin n × K}

/-- A call on one segment changes the slot of its key. -/
lemma changes_setSegment (h : ∀ i, (m.map.segments i).Orderly)
    (heffect : MapSegment.SlotEffect (m.map.segments i) t k) :
    Changes m (m.setSegment i t) (i, k) (t.slot k) := by
  refine ⟨?_, ?_⟩
  · intro j
    by_cases hj : j = i
    · subst hj
      simpa [ConcurrentEntriesMap.setSegment] using heffect.orderly
    · simpa [ConcurrentEntriesMap.setSegment, hj] using h j
  · funext ⟨j, k'⟩
    by_cases hj : j = i
    · subst hj
      by_cases hk : k' = k
      · subst hk
        simp [slotAt]
      · rw [update_of_ne (by simp [hk])]
        simpa [slotAt, ConcurrentEntriesMap.setSegment] using heffect.frame k' hk
    · simp [slotAt, hj]

/-- Slots are in the segments. -/
lemma Changes.congr (h : Changes m m' p slot) {m'' : LRUEntriesMap n K V}
    (hsegments : m''.map.segments = m'.map.segments) : Changes m m'' p slot := by
  refine ⟨fun i => ?_, ?_⟩
  · rw [hsegments]
    exact h.orderly i
  · rw [← h.slotAt_eq]
    unfold slotAt
    rw [hsegments]

lemma Changes.slotAt_self (h : Changes m m' (i, k) slot) : m'.slotAt (i, k) = slot := by
  rw [h.slotAt_eq, update_self]

lemma Changes.slotAt_of_ne (h : Changes m m' (i, k) slot) (hp : p ≠ (i, k)) :
    m'.slotAt p = m.slotAt p := by
  rw [h.slotAt_eq, update_of_ne hp]

/-- Distinct keys of a segment have distinct objects. -/
lemma eq_of_slotAt (h : ∀ i, (m.map.segments i).Orderly) {k' : K} {value value' : CacheValue V}
    (hk : m.slotAt (i, k) = some (id, value)) (hk' : m.slotAt (i, k') = some (id, value')) :
    k = k' :=
  (h i).injective hk hk'

end Changes

variable [NeZero n]

/-- What a call must not do.
* A `create` or `put` stores an object; the counter is not at its greatest value, and the
  value that a `put` replaces on disk can be read.
* A `get` does not find an invalid entry, and what it reads from disk is not null.
* With concurrency checks an `invalidate` or a versioned `remove` finds its key bound; without
  them a `remove` that has lost its key to an update does not find a value.
* A `clear` finds no values.
* Evictions do not fail. -/
def Allowed (config : LRUConfig) (hashcode : K → BitVec 32) (m : LRUEntriesMap n K V) :
    LRUCall K V D → Prop
  | .create _ newValue _ _ _ evictions =>
    (∃ v, newValue = .object v) ∧ m.validEntries ≠ BitVec.allOnes 32 ∧
      ∀ j, Evicts config (evictions j)
  | .put key newValue updateCount _ _ delta read evictions =>
    let s := m.map.segments (ConcurrentEntriesMap.segmentIdx n hashcode key)
    s.PutsObject key newValue.toCacheValue updateCount delta ∧
      ((∃ id, s.slot key = some (id, .overflowed)) → read ≠ .threw) ∧
      m.validEntries ≠ BitVec.allOnes 32 ∧ ∀ j, Evicts config (evictions j)
  | .get key read evictions =>
    let s := m.map.segments (ConcurrentEntriesMap.segmentIdx n hashcode key)
    (∀ id, s.slot key ≠ some (id, .invalid)) ∧
      ((∃ id, s.slot key = some (id, .overflowed)) → read ≠ .null ∧
        m.validEntries ≠ BitVec.allOnes 32 ∧ ∀ j, Evicts config (evictions j))
  | .invalidate key _ _ =>
    let s := m.map.segments (ConcurrentEntriesMap.segmentIdx n hashcode key)
    ¬ (s.concurrencyChecksEnabled = true ∧ s.slot key = none)
  | .remove key updateCount versionTag _ _ =>
    let s := m.map.segments (ConcurrentEntriesMap.segmentIdx n hashcode key)
    ¬ (s.concurrencyChecksEnabled = true ∧ s.slot key = none ∧ versionTag.isSome = true) ∧
      (s.concurrencyChecksEnabled = false → 0 < updateCount →
        ∀ id v, s.slot key ≠ some (id, .object v))
  | .clear => m.liveEntries = []
  | .processLRU _ evictions => ∀ j, Evicts config (evictions j)

/-- What a call must not do, in a run that has not become undefined. -/
def AllowedIn (config : LRUConfig) (hashcode : K → BitVec 32) (m : Option (LRUEntriesMap n K V))
    (c : LRUCall K V D) : Prop :=
  ∀ m', m = some m' → m'.Allowed config hashcode c

/-! ## The invariant -/

/-- What every allowed call keeps. -/
structure Inv (config : LRUConfig) (hashcode : K → BitVec 32) (m : LRUEntriesMap n K V) : Prop where
  orderly : ∀ i, (m.map.segments i).Orderly
  home : ∀ i k, m.slotAt (i, k) ≠ none → i = ConcurrentEntriesMap.segmentIdx n hashcode k
  resident : config.action = .localDestroy → ∀ p id, m.slotAt p ≠ some (id, .overflowed)
  owned : m.queue.Owned
  mem_iff : ∀ i id, (i, id) ∈ m.queue.entries ↔ ∃ k v, m.slotAt (i, k) = some (id, .object v)
  atEnd : ∀ i k id value, m.slotAt (i, k) = some (id, value) → (∀ v, value ≠ .object v) →
    m.queue.iterator (i, id) = .atEnd
  validEntries_eq : m.validEntries.toNat = m.queue.entries.length

section Invariant

variable {config : LRUConfig} {hashcode : K → BitVec 32} {m m' : LRUEntriesMap n K V} {v : V}

/-- A key of the home segment gets a slot that is not on a disk that there is not. -/
structure Admissible (config : LRUConfig) (hashcode : K → BitVec 32) (p : Fin n × K)
    (slot : Option (ObjId × CacheValue V)) : Prop where
  home : p.1 = ConcurrentEntriesMap.segmentIdx n hashcode p.2
  resident : config.action = .localDestroy → ∀ id, slot ≠ some (id, .overflowed)

section

variable (h : m.Inv config hashcode) (hc : Changes m m' (i, k) slot)
    (hslot : Admissible config hashcode (i, k) slot)

include h hc hslot

lemma Inv.home_of_changes (j : Fin n) (k' : K)
    (hne : m'.slotAt (j, k') ≠ none) : j = segmentIdx n hashcode k' := by
  by_cases hp : (j, k') = (i, k)
  · cases hp
    exact hslot.home
  · rw [hc.slotAt_of_ne hp] at hne
    exact h.home j k' hne

lemma Inv.resident_of_changes (haction : config.action = .localDestroy)
    (p : Fin n × K) (id : ObjId) : m'.slotAt p ≠ some (id, .overflowed) := by
  by_cases hp : p = (i, k)
  · rw [hp, hc.slotAt_self]
    exact hslot.resident haction id
  · rw [hc.slotAt_of_ne hp]
    exact h.resident haction p id

/-- A slot is replaced by one of the same kind, or a token is dropped. -/
lemma Inv.keep (hqueue : m'.queue = m.queue) (hvalid : m'.validEntries = m.validEntries)
    (hobject : ∀ id, (∃ v, slot = some (id, .object v)) ↔
      ∃ v, m.slotAt (i, k) = some (id, .object v))
    (htoken : ∀ id value, slot = some (id, value) → (∀ v, value ≠ .object v) →
      m.queue.iterator (i, id) = .atEnd) : m'.Inv config hashcode where
  __ := hc
  home := h.home_of_changes hc hslot
  resident := h.resident_of_changes hc hslot
  owned := hqueue ▸ h.owned
  mem_iff := by
    intro j id
    rw [hqueue, h.mem_iff]
    refine exists_congr fun k' => ?_
    by_cases hp : (j, k') = (i, k)
    · rw [hp, hc.slotAt_self]
      exact (hobject id).symm
    · rw [hc.slotAt_of_ne hp]
  atEnd := by
    intro j k' id value hslot' hvalue
    rw [hqueue]
    by_cases hp : (j, k') = (i, k)
    · cases hp
      rw [hc.slotAt_self] at hslot'
      exact htoken id value hslot' hvalue
    · rw [hc.slotAt_of_ne hp] at hslot'
      exact h.atEnd j k' id value hslot' hvalue
  validEntries_eq := by rw [hvalid, hqueue, h.validEntries_eq]

end

variable {q : LRUQueue (Fin n × ObjId)} {outcome : EvictOutcome} {evictions : ℕ → EvictOutcome}

/-! ## What the invariant says -/

section

omit [NeZero n]

lemma mem_boundEntries (h : ∀ i, (m.map.segments i).Orderly) {value : CacheValue V} :
    ((i, id), value) ∈ m.boundEntries ↔ ∃ k, m.slotAt (i, k) = some (id, value) := by
  simp only [boundEntries, List.mem_flatMap, List.mem_finRange, true_and, List.mem_map,
    Prod.mk.injEq]
  constructor
  · rintro ⟨j, e, he, ⟨rfl, rfl⟩, rfl⟩
    refine ⟨e.1, ?_⟩
    have hlookup : (m.map.segments j).map.lookup e.1 = some e.2 := AList.mem_lookup_iff.mpr he
    rw [slotAt, slot, hlookup]
    rfl
  · rintro ⟨k, hslot⟩
    obtain ⟨hlookup, -, -, hvalue, -⟩ := (h i).lookup_of_slot hslot
    exact ⟨i, ⟨k, .impl id⟩, AList.mem_lookup_iff.mp hlookup, ⟨rfl, rfl⟩, hvalue⟩

lemma nodup_boundEntries (h : ∀ i, (m.map.segments i).Orderly) :
    (m.boundEntries.map Prod.fst).Nodup := by
  rw [boundEntries, map_flatMap, nodup_flatMap]
  refine ⟨?_, ?_⟩
  · intro i _
    rw [List.map_map]
    refine List.Nodup.map_on ?_ (AList.nodupKeys _).nodup
    intro e he e' he' heq
    have hlookup := fun {e : Sigma fun _ : K => MapEntry} he =>
      (AList.mem_lookup_iff (s := (m.map.segments i).map) (a := e.1) (b := e.2)).mpr he
    obtain ⟨id, -, hid, -⟩ := (h i).regular.plain e.1 e.2 (hlookup he)
    obtain ⟨id', -, hid', -⟩ := (h i).regular.plain e'.1 e'.2 (hlookup he')
    have htarget : e.2.target = e'.2.target := congrArg Prod.snd heq
    rw [hid, hid'] at htarget
    obtain rfl : id = id' := htarget
    have hkey : e.1 = e'.1 := (h i).regular.plain.injective (hid ▸ hlookup he) (hid' ▸ hlookup he')
    exact Sigma.ext hkey (heq_of_eq (hid.trans hid'.symm))
  · refine (nodup_finRange n).imp ?_
    intro _ _ hij _ hx hx'
    simp only [List.mem_map] at hx hx'
    obtain ⟨-, ⟨_, -, rfl⟩, rfl⟩ := hx
    obtain ⟨-, ⟨_, -, rfl⟩, heq⟩ := hx'
    exact hij (congrArg Prod.fst heq).symm

/-- What is left in a slot is a token of its entry. -/
lemma token_of_after {token : CacheValue V} (hafter : slot = none ∨ slot = some (id, token))
    (htoken : ∀ v, token ≠ .object v) (id' : ObjId) (value : CacheValue V)
    (hvalue : slot = some (id', value)) : id' = id ∧ ∀ v, value ≠ .object v := by
  rcases hafter with rfl | rfl
  · cases hvalue
  · cases hvalue
    exact ⟨rfl, htoken⟩

/-- A key that is bound to a new object had no value. -/
lemma not_object_of_bound (hbefore : (m.map.segments i).slot k = none ∨
    ∃ id, (m.map.segments i).slot k = some (id, .tombstone)) (id : ObjId) (v : V) :
    m.slotAt (i, k) ≠ some (id, .object v) := by
  rcases hbefore with hnone | ⟨_, htomb⟩
  · simp [slotAt, hnone]
  · simp [slotAt, htomb]

end

lemma inv_of_unbound (hmap : ∀ i, (m.map.segments i).map = ∅) (howned : m.queue.Owned)
    (hqueue : m.queue.entries = []) (hvalid : m.validEntries.toNat = m.queue.entries.length) :
    m.Inv config hashcode := by
  have hlookup : ∀ i k, (m.map.segments i).map.lookup k = none := by simp [hmap]
  have hslot : ∀ p, m.slotAt p = none := by simp [slotAt, slot, hlookup]
  refine ⟨fun i => ⟨⟨fun k e he => ?_, fun _ k => not_holdsTombstone_of_unbound (hlookup i k)⟩,
    fun k id value hk => ?_⟩, by simp [hslot], by simp [hslot], howned, by simp [hqueue, hslot],
    by simp [hslot], hvalid⟩
  · rw [hlookup] at he
    cases he
  · cases (hslot (i, k)).symm.trans hk

section

variable (h : m.Inv config hashcode)

include h

/-- A slot gets a value and its entry is pushed. -/
lemma Inv.add (hc : Changes m m' (i, k) (some (id, .object v))) (hi : i = segmentIdx n hashcode k)
    (hold : ∀ id v, m.slotAt (i, k) ≠ some (id, .object v))
    (hqueue : m'.queue = m.queue.push (i, id)) (hvalid : m'.validEntries = m.validEntries + 1)
    (hfull : m.validEntries ≠ BitVec.allOnes 32) : m'.Inv config hashcode := by
  have hslot : Admissible config hashcode (i, k) (some (id, object v)) := ⟨hi, by simp⟩
  have hself := hc.slotAt_self
  -- the entry was not queued, since another key would share it
  have hother : ∀ k' value, k' ≠ k → m.slotAt (i, k') ≠ some (id, value) := by
    intro k' value hk' hslot'
    rw [← hc.slotAt_of_ne (by simp [hk'])] at hslot'
    exact hk' (eq_of_slotAt hc.orderly hslot' hself)
  have hnew : (i, id) ∉ m.queue.entries := by
    rw [h.mem_iff]
    rintro ⟨k', w, hslot'⟩
    by_cases hk' : k' = k
    · exact hold id w (hk' ▸ hslot')
    · exact hother k' _ hk' hslot'
  refine ⟨hc.orderly, h.home_of_changes hc hslot, h.resident_of_changes hc hslot, ?_, ?_, ?_, ?_⟩
  · rw [hqueue]
    exact h.owned.push hnew
  · intro j id'
    rw [hqueue, LRUQueue.entries_push, mem_append, mem_singleton, h.mem_iff]
    constructor
    · rintro (⟨k', w, hslot'⟩ | heq)
      · have hp : (j, k') ≠ (i, k) := fun hp => hold id' w (hp ▸ hslot')
        exact ⟨k', w, (hc.slotAt_of_ne hp).trans hslot'⟩
      · cases heq
        exact ⟨k, v, hself⟩
    · rintro ⟨k', w, hslot'⟩
      by_cases hp : (j, k') = (i, k)
      · cases hp
        cases hself.symm.trans hslot'
        exact .inr rfl
      · exact .inl ⟨k', w, (hc.slotAt_of_ne hp).symm.trans hslot'⟩
  · intro j k' id' value hslot' hvalue
    have hp : (j, k') ≠ (i, k) := by
      rintro ⟨⟩
      cases hself.symm.trans hslot'
      exact hvalue v rfl
    rw [hc.slotAt_of_ne hp] at hslot'
    have hne : (j, id') ≠ (i, id) := by
      rintro ⟨⟩
      exact hother k' value (by simpa using hp) hslot'
    rw [hqueue, LRUQueue.iterator_push, update_of_ne hne]
    exact h.atEnd j k' id' value hslot' hvalue
  · have hlt : m.validEntries.toNat + 1 < 2 ^ 32 := by
      have hne : m.validEntries.toNat ≠ 2 ^ 32 - 1 := by
        exact fun heq => hfull (BitVec.toNat_inj.mp heq)
      omega
    rw [hvalid, hqueue, LRUQueue.entries_push, length_append, ← h.validEntries_eq]
    exact Nat.mod_eq_of_lt hlt

/-- A slot loses its value and its entry leaves the queue. -/
lemma Inv.drop (hc : Changes m m' (i, k) slot) (hslot : Admissible config hashcode (i, k) slot)
    (hold : m.slotAt (i, k) = some (id, .object v))
    (hnew : ∀ id' value, slot = some (id', value) → id' = id ∧ ∀ v, value ≠ .object v)
    (hqueue : m.queue.Drops (i, id) m'.queue)
    (hvalid : m'.validEntries = m.validEntries + (-1)) : m'.Inv config hashcode := by
  have hself := hc.slotAt_self
  have hmem : (i, id) ∈ m.queue.entries := (h.mem_iff i id).mpr ⟨k, v, hold⟩
  refine ⟨hc.orderly, h.home_of_changes hc hslot, h.resident_of_changes hc hslot, hqueue.owned,
    ?_, ?_, ?_⟩
  · intro j id'
    rw [hqueue.mem_iff h.owned, h.mem_iff]
    constructor
    · rintro ⟨hne, k', w, hslot'⟩
      have hp : (j, k') ≠ (i, k) := by
        rintro ⟨⟩
        cases hold.symm.trans hslot'
        exact hne rfl
      exact ⟨k', w, (hc.slotAt_of_ne hp).trans hslot'⟩
    · rintro ⟨k', w, hslot'⟩
      have hp : (j, k') ≠ (i, k) := by
        rintro ⟨⟩
        exact (hnew _ _ (hself.symm.trans hslot')).2 w rfl
      rw [hc.slotAt_of_ne hp] at hslot'
      refine ⟨?_, k', w, hslot'⟩
      rintro ⟨⟩
      exact hp (by rw [eq_of_slotAt h.orderly hslot' hold])
  · intro j k' id' value hslot' hvalue
    rw [hqueue.iterator_eq]
    by_cases heq : (j, id') = (i, id)
    · rw [heq, update_self]
    · rw [update_of_ne heq]
      have hp : (j, k') ≠ (i, k) := by
        rintro ⟨⟩
        exact heq (by rw [(hnew _ _ (hself.symm.trans hslot')).1])
      rw [hc.slotAt_of_ne hp] at hslot'
      exact h.atEnd j k' id' value hslot' hvalue
  · have hlength := hqueue.length_add_one hmem
    have hone : (-1 : BitVec 32).toNat = 2 ^ 32 - 1 := by decide
    rw [← h.validEntries_eq] at hlength
    rw [hvalid, BitVec.toNat_add]
    omega

/-- The order of the queue does not matter. -/
lemma Inv.reorder (howned : q.Owned) (hentries : ∀ e, e ∈ q.entries ↔ e ∈ m.queue.entries)
    (hlength : q.entries.length = m.queue.entries.length)
    (hiterator : q.iterator = m.queue.iterator) : Inv config hashcode { m with queue := q } where
  __ := h
  owned := howned
  mem_iff i id := (hentries (i, id)).trans (h.mem_iff i id)
  atEnd i k id value hslot hvalue := by
    rw [hiterator]
    exact h.atEnd i k id value hslot hvalue
  validEntries_eq := h.validEntries_eq.trans hlength.symm

/-- The counter of keys does not matter. -/
lemma Inv.addSize (change : BitVec 32) : (m.addSize change).Inv config hashcode :=
  { h with }

/-- The bound entries whose value is not a token are those that hold an object. -/
lemma Inv.mem_liveEntries :
    (i, id) ∈ m.liveEntries ↔ ∃ k v, m.slotAt (i, k) = some (id, .object v) := by
  simp only [liveEntries, List.mem_map, List.mem_filter, Prod.exists]
  constructor
  · rintro ⟨j, id', value, ⟨hmem, hvalue⟩, heq⟩
    cases heq
    obtain ⟨k, hslot⟩ := (mem_boundEntries h.orderly).mp hmem
    have hnull := ((h.orderly _).stored k _ value hslot).1
    cases value with
    | object v => exact ⟨k, v, hslot⟩
    | null => exact absurd rfl hnull
    | invalid | destroyed | overflowed | tombstone => cases hvalue
  · rintro ⟨k, _, hslot⟩
    exact ⟨i, id, _, ⟨(mem_boundEntries h.orderly).mpr ⟨k, hslot⟩, rfl⟩, rfl⟩

/-- The invariant implies the stated property. -/
lemma Inv.wellFormed : m.WellFormed := by
  have hnodup : m.liveEntries.Nodup := (nodup_boundEntries h.orderly).sublist (filter_sublist.map _)
  have hperm : m.queue.entries.Perm m.liveEntries := by
    rw [perm_ext_iff_of_nodup h.owned.nodup hnodup]
    rintro ⟨i, id⟩
    rw [h.mem_iff, h.mem_liveEntries]
  refine ⟨hperm, h.owned.nodup, ?_, h.validEntries_eq.trans hperm.length_eq⟩
  rintro ⟨⟨i, id⟩, value⟩ hmem
  obtain ⟨k, hslot⟩ := (mem_boundEntries h.orderly).mp hmem
  obtain ⟨v, rfl⟩ | hvalue := exists_or_forall_not fun v => value = .object v
  · exact .inr (h.owned.exists_node ((h.mem_iff i id).mpr ⟨k, v, hslot⟩))
  · refine .inl ⟨h.atEnd i k id value hslot hvalue, ?_⟩
    rw [h.mem_iff]
    rintro ⟨_, v, hslot'⟩
    obtain rfl := eq_of_slotAt h.orderly hslot hslot'
    cases hslot.symm.trans hslot'
    exact hvalue v rfl

end

/-! ## Eviction -/

variable (region : Region K V D M)

section

variable (h : m.Inv config hashcode)

include h

/-- A value that was popped is destroyed. -/
lemma Inv.localDestroy (hslot : m.slotAt (i, k) = some (id, .object v))
    (hdrops : m.queue.Drops (i, id) q) (hout : outcome ≠ .refused) :
    ∃ done m', LRUEntriesMap.localDestroy config region hashcode { m with queue := q } (i, id)
        outcome = some (.ok done, m') ∧ m'.Inv config hashcode ∧ m'.queue = q := by
  obtain ⟨-, hp, -, -, -⟩ := (h.orderly i).lookup_of_slot hslot
  have hi : i = segmentIdx n hashcode k := h.home i k (by rw [hslot]; simp)
  have hpopped : q.iterator (i, id) = .atEnd := by
    rw [hdrops.iterator_eq, update_self]
  obtain ⟨heffect, hok, hold, hme, hfound, hafter⟩ :=
    remove_slot_of_object region (h.orderly i) hslot
  generalize hresult : (m.map.segments i).remove region k {} (-1) none false = result at *
  obtain ⟨outs, hremove⟩ : ∃ outs, LRUEntriesMap.remove config region hashcode
      { m with queue := q } k {} (-1) none false .null = some ⟨.ok (.ofSegment .noErr), outs,
        (({ m with queue := q }.setSegment i result.segment).addSize (-1)).addValid (-1)⟩ := by
    simp only [LRUEntriesMap.remove, ← hi, hresult, hok, hold, hme, hfound, isNull,
      setSegment, LRUQueue.remove_of_atEnd hpopped]
    exact ⟨_, rfl⟩
  refine ⟨decide (outcome = .done),
    (({ m with queue := q }.setSegment i result.segment).addSize (-1)).addValid (-1), ?_, ?_,
    by simp⟩
  · unfold LRUEntriesMap.localDestroy
    cases outcome with
    | refused => exact absurd rfl hout
    | failed | done => simp only [hp.key_eq, hremove]; rfl
  · refine h.drop ((changes_setSegment h.orderly heffect).congr (by simp)) ⟨hi, ?_⟩ hslot
      (token_of_after hafter (by simp)) (by simpa using hdrops) (by simp)
    rcases hafter with hafter | hafter <;> simp [hafter]

/-- A value that was popped is written to disk. -/
lemma Inv.overflowToDisk (hslot : m.slotAt (i, k) = some (id, .object v))
    (hdrops : m.queue.Drops (i, id) q) (haction : config.action = .overflowToDisk) :
    ∃ m', LRUEntriesMap.overflowToDisk { m with queue := q } (i, id) .done = (.ok true, m') ∧
      (m'.addValid (-1)).Inv config hashcode ∧ m'.queue = q := by
  obtain ⟨hlookup, hp, -, -, hget⟩ := (h.orderly i).lookup_of_slot hslot
  have hi : i = segmentIdx n hashcode k := h.home i k (by rw [hslot]; simp)
  obtain ⟨heffect, hafter⟩ := slotEffect_setImpl (h.orderly i) hlookup
    (hp.update .overflowed ((m.map.segments i).heap id).versionStamp) (fun _ => by simp) (by simp)
  refine ⟨{ m with queue := q }.setSegment i ((m.map.segments i).setValueI id .overflowed), ?_, ?_,
    rfl⟩
  · simp [LRUEntriesMap.overflowToDisk, hget]
  · have hchanges := changes_setSegment h.orderly heffect
    rw [hafter] at hchanges
    refine h.drop (hchanges.congr (by simp [setValueI])) ⟨hi, ?_⟩ hslot
      (token_of_after (.inr rfl) nofun) (by simpa using hdrops) (by simp)
    intro hlocal
    rw [haction] at hlocal
    cases hlocal

/-- One eviction. -/
lemma Inv.evictionHelper (hout : Evicts config outcome) :
    ∃ code m', m.evictionHelper config region hashcode outcome = some (.ok code, m') ∧
      m'.Inv config hashcode ∧
      (code = .enoent ∨ m'.queue.entries.length + 1 = m.queue.entries.length) := by
  unfold LRUEntriesMap.evictionHelper
  cases hentries : m.queue.entries with
  | nil => exact ⟨.enoent, m, by simp [LRUQueue.pop, hentries], h, .inl rfl⟩
  | cons e =>
    obtain ⟨i, id⟩ := e
    obtain ⟨_, hpop, hdrops⟩ := h.owned.pop hentries
    have hmem : (i, id) ∈ m.queue.entries := by rw [hentries]; exact mem_cons_self
    obtain ⟨_, _, hslot⟩ := (h.mem_iff i id).mp hmem
    have hlength := hdrops.length_add_one hmem
    rw [hentries] at hlength
    rw [hpop]
    simp only [evict]
    cases haction : config.action with
    | localDestroy =>
      obtain ⟨done, m', hdestroy, hinv, hqueue⟩ := h.localDestroy region hslot hdrops hout.1
      rw [hdestroy]
      cases done with
      | false | true => exact ⟨_, m', rfl, hinv, .inr (by rw [hqueue]; exact hlength)⟩
    | overflowToDisk =>
      have hdone : outcome = .done := by
        have hrefused := hout.1
        have hfailed := hout.2 haction
        cases outcome <;> simp_all
      obtain ⟨m', hwrite, hinv, hqueue⟩ := h.overflowToDisk hslot hdrops haction
      rw [hdone, hwrite]
      exact ⟨.ofSegment .noErr, m'.addValid (-1), rfl, hinv,
        .inr (by rw [queue_addValid, hqueue]; exact hlength)⟩

variable (hout : ∀ j, Evicts config (evictions j))

include hout

/-- By induction on the rounds. -/
lemma Inv.processLRULoop (rounds j : ℕ) :
    ∃ code m', LRUEntriesMap.processLRULoop config region hashcode evictions rounds j m =
      some (.ok code, m') ∧ m'.Inv config hashcode := by
  induction rounds generalizing j m with
  | zero => exact ⟨.ofSegment .noErr, m, rfl, h⟩
  | succ _ ih =>
    rw [LRUEntriesMap.processLRULoop]
    split
    · obtain ⟨code, m', heq, hinv, -⟩ := h.evictionHelper region (hout j)
      rw [heq, bind_some]
      by_cases hcode : code = .ofSegment .noErr
      · subst hcode
        exact ih hinv (j + 1)
      · refine ⟨code, m', ?_, hinv⟩
        split
        · rename_i heq'
          simp only [Prod.mk.injEq, Except.ok.injEq] at heq'
          exact absurd heq'.1 hcode
        · rename_i heq'
          rw [heq']
    · exact ⟨.ofSegment .noErr, m, rfl, h⟩

lemma Inv.processLRU :
    ∃ code m', m.processLRU config region hashcode evictions = some (.ok code, m') ∧
      m'.Inv config hashcode :=
  h.processLRULoop region hout _ _

lemma Inv.processLRUCount {count j : ℕ} :
    ∃ m', LRUEntriesMap.processLRUCount config region hashcode evictions count j m =
      some (.ok (), m') ∧ m'.Inv config hashcode := by
  induction count generalizing j m with
  | zero => exact ⟨m, rfl, h⟩
  | succ _ ih =>
    rw [LRUEntriesMap.processLRUCount]
    split
    · obtain ⟨_, _, heq, hinv, -⟩ := h.evictionHelper region (hout j)
      rw [heq]
      exact ih hinv
    · exact ⟨m, rfl, h⟩

end

/-! ## Calls -/

section

variable (h : m.Inv config hashcode)

include h

/-- A call that leaves the kind of the slot. -/
lemma Inv.keep_of_sameKind (hi : i = segmentIdx n hashcode k) (hc : Changes m m' (i, k) slot)
    (hkind : MapSegment.SameKind (m.slotAt (i, k)) slot) (hqueue : m'.queue = m.queue)
    (hvalid : m'.validEntries = m.validEntries) : m'.Inv config hashcode := by
  rcases hkind with heq | ⟨id, _, w, hold, hnew⟩
  · refine h.keep hc ⟨hi, ?_⟩ hqueue hvalid ?_ ?_
    · rw [← heq]
      exact fun hlocal => h.resident hlocal (i, k)
    · intro id
      rw [heq]
    · rw [← heq]
      exact fun id value hslot => h.atEnd i k id value hslot
  · refine h.keep hc ⟨hi, by simp [hnew]⟩ hqueue hvalid ?_ ?_
    · rw [hold, hnew]
      simp
    · rintro id' value hslot hvalue
      cases hnew.symm.trans hslot
      exact absurd rfl (hvalue w)

/-- A call on a segment that fails and leaves the kind of its slot. -/
lemma Inv.setSegment (heffect : MapSegment.SlotEffect
      (m.map.segments (segmentIdx n hashcode k)) t k)
    (hkind : MapSegment.SameKind (m.slotAt (segmentIdx n hashcode k, k)) (t.slot k)) :
    (m.setSegment (segmentIdx n hashcode k) t).Inv config hashcode :=
  h.keep_of_sameKind rfl (changes_setSegment h.orderly heffect) hkind rfl rfl

/-- The entry of a key that got a value is queued. -/
lemma Inv.enqueue (hc : Changes m m' (i, k) (some (id, .object v)))
    (hi : i = segmentIdx n hashcode k)
    (hold : ∀ id v, m.slotAt (i, k) ≠ some (id, .object v)) (hqueue : m'.queue = m.queue)
    (hvalid : m'.validEntries = m.validEntries + 1) (hfull : m.validEntries ≠ BitVec.allOnes 32)
    (outs : OutParams V) (hout : ∀ j, Evicts config (evictions j)) :
    ∃ result, m'.enqueue config region hashcode i k outs evictions = some result ∧
      result.map.Inv config hashcode := by
  have hget : (m'.map.segments i).getEntry k = some (some (id, .object v)) :=
    getEntry_of_slot (hc.orderly i) hc.slotAt_self
  have hpush : (m'.push i id).Inv config hashcode :=
    h.add (hc.congr (by simp)) hi hold (by simp [hqueue]) (by simp [hvalid]) hfull
  obtain ⟨code, m'', heq, hinv⟩ := hpush.processLRU region hout
  refine ⟨⟨.ok code, { outs with me := some id }, m''⟩, ?_, hinv⟩
  simp only [LRUEntriesMap.enqueue, hget, heq, map_some]

end

section

variable (h : m.Inv config hashcode) {versionTag : Option VersionTag}
  {updateCount destroyTracker : ℤ} {old : CacheValue V} {read : DiskRead V}

include h

lemma Inv.create (v : V) (hfull : m.validEntries ≠ BitVec.allOnes 32)
    (hout : ∀ j, Evicts config (evictions j)) :
    ∃ result, m.create config region hashcode k (.object v) {} updateCount destroyTracker
        versionTag evictions = some result ∧ result.map.Inv config hashcode := by
  obtain ⟨heffect, hstores, hupdate⟩ := create_stores region (k := k) updateCount
    destroyTracker versionTag (h.orderly (segmentIdx n hashcode k)) v
  generalize hi : segmentIdx n hashcode k = i at heffect hstores hupdate
  generalize hresult : (m.map.segments i).create region k (.object v) {} updateCount
    destroyTracker versionTag = result at heffect hstores hupdate
  cases hstores with
  | bound w hok hold _ hbefore hafter =>
    have hchanges : Changes m (((m.setSegment i result.segment).addValid 1).addSize 1) (i, k)
        (some ((m.map.segments i).nextObj, .object w)) :=
      hafter ▸ (changes_setSegment h.orderly heffect).congr (by simp)
    have hget : (((m.setSegment i result.segment).addValid 1).addSize 1 |>.map.segments i).getEntry
        k = some (some ((m.map.segments i).nextObj, .object w)) :=
      getEntry_of_slot (hchanges.orderly i) hchanges.slotAt_self
    obtain ⟨result', heq, hinv⟩ := h.enqueue region hchanges hi.symm
      (not_object_of_bound hbefore) (by simp) (by simp) hfull result.outs hout
    refine ⟨result', ?_, hinv⟩
    have hinvalid : result.outs.oldValue.isInvalid = false := by rw [hold]; rfl
    simp only [LRUEntriesMap.create, hi, hresult, hok, isToken, Bool.false_eq_true,
      if_false, hinvalid, hget, heq]
  | updated _ _ _ _ _ hupdated => rw [hupdate] at hupdated; cases hupdated
  | failed _ _ hfail hkind =>
    subst hi
    simp only [LRUEntriesMap.create, hresult, hfail]
    exact ⟨_, rfl, h.setSegment heffect hkind⟩

/-- Only a map that overflows has values on disk. -/
lemma Inv.action_eq (hslot : m.slotAt (i, k) = some (id, .overflowed)) :
    config.action = .overflowToDisk := by
  cases haction : config.action with
  | localDestroy => exact absurd hslot (h.resident haction _ _)
  | overflowToDisk => rfl

/-- What is read from disk for a slot, where reading it does not throw. -/
lemma Inv.fetch (hslot : m.slotAt (i, k) = some (id, old)) (read : DiskRead V) :
    (old = .overflowed ∧ config.action = .overflowToDisk ∧ read = .threw ∧
        config.fetch read old = some (.error .diskFailure)) ∨
      ∃ value, config.fetch read old = some (.ok value) := by
  by_cases hover : old = .overflowed
  · subst hover
    have haction := h.action_eq hslot
    cases read with
    | threw => exact .inl ⟨rfl, haction, rfl, by simp [LRUConfig.fetch, haction, isOverflowed]⟩
    | null => exact .inr ⟨.null, by simp [LRUConfig.fetch, haction, isOverflowed]⟩
    | value v => exact .inr ⟨.object v, by simp [LRUConfig.fetch, haction, isOverflowed]⟩
  · refine .inr ⟨old, ?_⟩
    have hfalse : old.isOverflowed = false := by
      cases old <;> first | rfl | exact absurd rfl hover
    simp [LRUConfig.fetch, hfalse]

/-- A slot that holds no object is a token. -/
lemma Inv.isToken (hslot : m.slotAt (i, k) = some (id, old)) (hobject : ∀ v, old ≠ .object v) :
    old.isToken = true := by
  have hnull := ((h.orderly i).stored k id old hslot).1
  cases old with
  | null => exact absurd rfl hnull
  | object v => exact absurd rfl (hobject v)
  | invalid | destroyed | overflowed | tombstone => rfl

/-- A put moves the entry or adds it to the queue. -/
lemma Inv.put {newValue : CacheValue V} {delta : Option D}
    (hputs : (m.map.segments (segmentIdx n hashcode k)).PutsObject k newValue updateCount delta)
    (hread : (∃ id, (m.map.segments (segmentIdx n hashcode k)).slot k =
      some (id, .overflowed)) → read ≠ .threw)
    (hfull : m.validEntries ≠ BitVec.allOnes 32) (hout : ∀ j, Evicts config (evictions j)) :
    ∃ result, m.put config region hashcode k newValue {} updateCount destroyTracker versionTag
        delta read evictions = some result ∧ result.map.Inv config hashcode := by
  have htoken := hputs.isToken
  obtain ⟨heffect, hstores⟩ := put_stores region {} updateCount destroyTracker versionTag
    (h.orderly (segmentIdx n hashcode k)) hputs
  generalize hi : segmentIdx n hashcode k = i at heffect hstores hread
  generalize hresult : (m.map.segments i).put region k newValue {} updateCount destroyTracker
    versionTag delta = result at heffect hstores
  cases hstores with
  | bound w hok hold hupdate hbefore hafter =>
    have hchanges : Changes m (((m.setSegment i result.segment).addSize 1).addValid 1) (i, k)
        (some ((m.map.segments i).nextObj, .object w)) :=
      hafter ▸ (changes_setSegment h.orderly heffect).congr (by simp)
    have hold' : result.outs.oldValue = .null := hold
    have hold'' : result.outs.oldValue.isToken = false := by rw [hold']; rfl
    have hfetch : config.fetch read result.outs.oldValue = some (.ok .null) := by rw [hold']; rfl
    simp only [LRUEntriesMap.put, hi, hresult, hok, hfetch, hold'', htoken, hupdate]
    exact h.enqueue region hchanges hi.symm (not_object_of_bound hbefore) (by simp) (by simp)
      hfull _ hout
  | updated id old w hok hold hupdate _ hbefore _ hafter =>
    have hslot : m.slotAt (i, k) = some (id, old) := hbefore
    obtain ⟨hread', -, hthrew, -⟩ | ⟨value, hfetch⟩ := h.fetch hslot read
    · exact absurd hthrew (hread ⟨id, hread' ▸ hbefore⟩)
    obtain ⟨v, rfl⟩ | hobject := exists_or_forall_not fun v => old = .object v
    · -- a value replaces a value
      have hkept : (m.setSegment i result.segment).Inv config hashcode :=
        h.keep_of_sameKind hi.symm (changes_setSegment h.orderly heffect)
          (.inr ⟨id, v, w, hslot, hafter⟩) (by simp) (by simp)
      obtain ⟨_, _, heq, hinv⟩ := hkept.processLRU region hout
      have hold' : result.outs.oldValue.isToken = false := by rw [hold]; rfl
      rw [← hold] at hfetch
      simp only [LRUEntriesMap.put, hi, hresult, hok, hold', hfetch, htoken,
        hupdate, Bool.and_false, Bool.false_and,
        Bool.false_eq_true, if_false, heq]
      exact ⟨_, rfl, hinv⟩
    · -- a value replaces a token
      have hold' := h.isToken hslot hobject
      have hchanges : Changes m ((m.setSegment i result.segment).addValid 1) (i, k)
          (some (id, .object w)) :=
        hafter ▸ (changes_setSegment h.orderly heffect).congr (by simp)
      have hempty : ∀ id v, m.slotAt (i, k) ≠ some (id, .object v) := by simp [hslot, hobject]
      rw [← hold] at hfetch hold'
      simp only [LRUEntriesMap.put, hi, hresult, hok, hold', hfetch, htoken, hupdate]
      exact h.enqueue region hchanges hi.symm hempty (by simp) (by simp) hfull _ hout
  | failed _ _ hfail hkind =>
    subst hi
    simp only [LRUEntriesMap.put, hresult, hfail]
    exact ⟨_, rfl, h.setSegment heffect hkind⟩

/-- A get reads an entry back that was overflowed. -/
lemma Inv.get
    (hinvalid : ∀ id, (m.map.segments (segmentIdx n hashcode k)).slot k ≠ some (id, .invalid))
    (hover : (∃ id, (m.map.segments (segmentIdx n hashcode k)).slot k =
      some (id, .overflowed)) → read ≠ .null ∧ m.validEntries ≠ BitVec.allOnes 32 ∧
        ∀ j, Evicts config (evictions j)) :
    ∃ result, m.get config region hashcode k read evictions = some result ∧
      result.map.Inv config hashcode := by
  generalize hi : segmentIdx n hashcode k = i at hinvalid hover
  rcases getEntry_cases (h.orderly i) k with hget | ⟨id, value, hslot, htomb, hget⟩
  · exact ⟨⟨.ok false, .null, none, m⟩, by simp only [LRUEntriesMap.get, hi, hget], h⟩
  · obtain ⟨hnull, hdestroyed⟩ := (h.orderly i).stored k id value hslot
    cases value with
    | null => exact absurd rfl hnull
    | destroyed => exact absurd rfl hdestroyed
    | tombstone => exact absurd rfl htomb
    | invalid => exact absurd hslot (hinvalid id)
    | object v =>
      have hmem : (i, id) ∈ m.queue.entries := (h.mem_iff i id).mpr ⟨k, v, hslot⟩
      obtain ⟨_, hmove, howned, hperm, hiterator⟩ := h.owned.moveToEnd hmem
      simp only [LRUEntriesMap.get, hi, hget, hmove]
      exact ⟨_, rfl, h.reorder howned (fun e => hperm.mem_iff) hperm.length_eq hiterator⟩
    | overflowed =>
      obtain ⟨hread, hfull, hout⟩ := hover ⟨id, hslot⟩
      have haction := h.action_eq hslot
      cases read with
      | null => exact absurd rfl hread
      | threw =>
        simp only [LRUEntriesMap.get, hi, hget, LRUConfig.fetch, haction]
        exact ⟨_, rfl, h⟩
      | value v =>
        have hputs : (m.map.segments i).PutsObject k (.object v) 0 (none : Option D) :=
          .inl ⟨v, rfl⟩
        obtain ⟨heffect, hstores⟩ := put_stores region { me := some id } 0 0 none
          (h.orderly i) hputs
        simp only [LRUEntriesMap.get, hi, hget, LRUConfig.fetch, isOverflowed, if_true,
          haction, bind_some]
        generalize (m.map.segments i).put region k (.object v) { me := some id } 0 0 none none =
          result at heffect hstores
        cases hstores with
        | bound _ _ _ _ hbefore =>
          rcases hbefore with hnone | ⟨_, htomb'⟩
          · cases hnone.symm.trans hslot
          · cases htomb'.symm.trans hslot
        | updated id' _ w hok _ _ hme _ _ hafter =>
          have hchanges : Changes m (((m.setSegment i result.segment).addValid 1).push i id')
              (i, k) (some (id', .object w)) :=
            hafter ▸ (changes_setSegment h.orderly heffect).congr (by simp)
          have hempty : ∀ id v, m.slotAt (i, k) ≠ some (id, .object v) := by simp [slotAt, hslot]
          have hinv := h.add hchanges hi.symm hempty (by simp) (by simp) hfull
          obtain ⟨_, _, heq, hinv'⟩ := hinv.processLRU region hout
          simp only [hok, hme, heq]
          exact ⟨_, rfl, hinv'⟩
        | failed err herr hfail hkind =>
          subst hi
          refine ⟨⟨.ok false, .object v, none, m.setSegment _ result.segment⟩, ?_,
            h.setSegment heffect hkind⟩
          simp only [hfail]
          cases err <;> first | exact absurd rfl herr | rfl

lemma Inv.invalidate (read : DiskRead V) (hbinds : ¬ ((m.map.segments (segmentIdx n hashcode
      k)).concurrencyChecksEnabled = true ∧
        (m.map.segments (segmentIdx n hashcode k)).slot k = none)) :
    ∃ result, m.invalidate config region hashcode k {} versionTag read = some result ∧
      result.map.Inv config hashcode := by
  obtain ⟨heffect, hadded, hcases⟩ := invalidate_slot region versionTag
    (h.orderly (segmentIdx n hashcode k)) hbinds
  generalize hi : segmentIdx n hashcode k = i at heffect hadded hcases
  generalize hresult : (m.map.segments i).invalidate region k {} versionTag = result at *
  rcases hcases with ⟨id, old, hbefore, hok, hold, hme, _, hafter⟩ | ⟨_, _, hfail, hsame⟩
  · have hslot : m.slotAt (i, k) = some (id, old) := hbefore
    have hchanges := changes_setSegment h.orderly heffect
    rw [hafter] at hchanges
    have hadmissible : Admissible config hashcode (i, k)
        (some (id, (CacheValue.invalid : CacheValue V))) :=
      ⟨hi.symm, by simp⟩
    obtain ⟨v, rfl⟩ | hobject := exists_or_forall_not fun v => old = .object v
    · have hmem : (i, id) ∈ m.queue.entries := (h.mem_iff i id).mpr ⟨k, v, hslot⟩
      obtain ⟨_, hremove, hdrops⟩ := h.owned.remove hmem
      simp only [LRUEntriesMap.invalidate, hi, hresult, hok, hadded, hold, hme,
        Bool.false_eq_true, if_false, queue_setSegment, hremove]
      exact ⟨_, rfl, h.drop (hchanges.congr (by simp)) hadmissible hslot
        (token_of_after (.inr rfl) nofun) hdrops (by simp)⟩
    · have hold' : result.outs.oldValue.isToken = true := by
        rw [hold]
        exact h.isToken hslot hobject
      have hkept : (m.setSegment i result.segment).Inv config hashcode := by
        refine h.keep hchanges hadmissible (by simp) (by simp) ?_ ?_
        · rw [hslot]
          simp [hobject]
        · rintro id' value hvalue -
          cases hvalue
          exact h.atEnd i k id old hslot hobject
      rcases h.fetch hslot read with ⟨-, -, -, hfetch⟩ | ⟨_, hfetch⟩ <;>
      · rw [← hold] at hfetch
        simp only [LRUEntriesMap.invalidate, hi, hresult, hok, hadded, hfetch, hold']
        exact ⟨_, rfl, hkept⟩
  · subst hi
    simp only [LRUEntriesMap.invalidate, hresult, hfail, hadded]
    exact ⟨_, rfl, h.setSegment heffect (.inl hsame.symm)⟩

lemma Inv.remove {afterRemote : Bool} (read : DiskRead V)
    (hallowed : m.Allowed (D := D) config hashcode
      (.remove k updateCount versionTag afterRemote read)) :
    ∃ result, m.remove config region hashcode k {} updateCount versionTag afterRemote read =
        some result ∧ result.map.Inv config hashcode := by
  obtain ⟨hbinds, hupdated⟩ := hallowed
  obtain ⟨heffect, hcases⟩ := remove_slot region updateCount versionTag
    (h.orderly (segmentIdx n hashcode k)) hbinds hupdated
  generalize hi : segmentIdx n hashcode k = i at heffect hcases
  generalize hresult : (m.map.segments i).remove region k {} updateCount versionTag afterRemote =
    result at *
  have hchanges := changes_setSegment h.orderly heffect
  rcases hcases with ⟨id, old, hbefore, hok, hold, hnull, htomb, hme, hfound, hafter⟩ |
    ⟨⟨err, hcode, hquiet⟩, hafter⟩
  · have hslot : m.slotAt (i, k) = some (id, old) := hbefore
    have hnull' : result.outs.oldValue.isNull = false := by simpa [hold] using hnull
    have hadmissible : Admissible config hashcode (i, k) (result.segment.slot k) := by
      refine ⟨hi.symm, fun _ id' => ?_⟩
      rcases hafter with hafter | hafter <;> simp [hafter]
    have htoken := token_of_after hafter (by simp)
    obtain ⟨v, rfl⟩ | hobject := exists_or_forall_not fun v => old = .object v
    · have hmem : (i, id) ∈ m.queue.entries := (h.mem_iff i id).mpr ⟨k, v, hslot⟩
      obtain ⟨q, hremove, hdrops⟩ := h.owned.remove hmem
      have hinv : (({ m.setSegment i result.segment with queue := q }.addSize (-1)).addValid
          (-1)).Inv config hashcode :=
        h.drop (hchanges.congr (by simp)) hadmissible hslot htoken (by simpa using hdrops) (by simp)
      have hold' : result.outs.oldValue.isToken = false := by rw [hold]; rfl
      have hfetch : config.fetch read result.outs.oldValue = some (.ok (.object v)) := by
        rw [hold]
        rfl
      simp only [LRUEntriesMap.remove, hi, hresult, hok, hnull', hme, queue_setSegment, hremove,
        hfound, hold', hfetch]
      exact ⟨_, rfl, hinv⟩
    · have hold' : result.outs.oldValue.isToken = true := by
        rw [hold]
        exact h.isToken hslot hobject
      have hkept : ((m.setSegment i result.segment).addSize (-1)).Inv config hashcode := by
        refine Inv.addSize (h.keep hchanges hadmissible (by simp) (by simp) ?_ ?_) _
        · rw [hslot]
          rcases hafter with hafter | hafter <;> simp [hafter, hobject]
        · intro id' value hvalue _
          rw [(htoken id' value hvalue).1]
          exact h.atEnd i k id old hslot hobject
      have hremove := LRUQueue.remove_of_atEnd (h.atEnd i k id old hslot hobject)
      rcases h.fetch hslot read with ⟨-, -, -, hfetch⟩ | ⟨value, hfetch⟩ <;>
      · rw [← hold] at hfetch
        simp only [LRUEntriesMap.remove, hi, hresult, hok, hnull', hme, queue_setSegment, hremove,
          hfound, hold', hfetch]
        exact ⟨_, rfl, hkept⟩
  · have hkept : (m.setSegment i result.segment).Inv config hashcode := by
      rcases hafter with hsame | ⟨hnone, hobject⟩
      · exact h.keep_of_sameKind hi.symm hchanges (.inl hsame.symm) (by simp) (by simp)
      · refine h.keep hchanges ⟨hi.symm, by simp [hnone]⟩ (by simp) (by simp) ?_ ?_
        · intro id'
          rw [hnone]
          simpa [slotAt] using hobject id'
        · intro _ _ hvalue
          rw [hnone] at hvalue
          cases hvalue
    by_cases herr : err = .noErr
    · subst herr
      have hnull : result.outs.oldValue.isNull = true := by rw [hquiet rfl]; rfl
      simp only [LRUEntriesMap.remove, hi, hresult, hcode, hnull]
      exact ⟨_, rfl, hkept⟩
    · simp only [LRUEntriesMap.remove, hi, hresult, hcode]
      exact ⟨_, rfl, hkept⟩

lemma Inv.clear (hempty : m.liveEntries = []) : m.clear.Inv config hashcode := by
  have hperm := h.wellFormed.queue_perm
  rw [hempty] at hperm
  exact inv_of_unbound (fun _ => rfl) h.owned hperm.eq_nil h.validEntries_eq

/-! ## Runs -/

omit h in
lemma exists_map_inv {α : Type*} {x : Option α} {f : α → LRUEntriesMap n K V}
    (hx : ∃ a, x = some a ∧ (f a).Inv config hashcode) :
    ∃ m', x.map f = some m' ∧ m'.Inv config hashcode := by
  obtain ⟨a, rfl, hinv⟩ := hx
  exact ⟨f a, rfl, hinv⟩

/-- An allowed call is defined and keeps the invariant. -/
lemma Inv.call {c : LRUCall K V D} (hallowed : m.Allowed config hashcode c) :
    ∃ m', m.call config region hashcode c = some m' ∧ m'.Inv config hashcode := by
  cases c with
  | create =>
    obtain ⟨⟨v, rfl⟩, hfull, hout⟩ := hallowed
    exact exists_map_inv (h.create region v hfull hout)
  | put =>
    obtain ⟨hputs, hread, hfull, hout⟩ := hallowed
    exact exists_map_inv (h.put region hputs hread hfull hout)
  | get => exact exists_map_inv (h.get region hallowed.1 hallowed.2)
  | invalidate _ _ read => exact exists_map_inv (h.invalidate region read hallowed)
  | remove _ _ _ _ read => exact exists_map_inv (h.remove region read hallowed)
  | clear => exact ⟨m.clear, rfl, h.clear hallowed⟩
  | processLRU =>
    obtain ⟨m', heq, hinv⟩ := h.processLRUCount region hallowed
    exact exists_map_inv ⟨_, heq, hinv⟩

end

/-- **The queue is in step with the map.** From an empty map, in every run of allowed calls
the behaviour is defined and every state is well formed. -/
theorem wellFormed_of_allowed (config : LRUConfig) (hashcode : K → BitVec 32)
    (concurrencyChecksEnabled : Bool) (heap : EntryHeap K V) (tombHeap : TombId → TombstoneEntry)
    (calls : List (LRUCall K V D))
    (hallowed : EveryStep (step config region hashcode) (AllowedIn config hashcode)
      (some (empty n concurrencyChecksEnabled heap tombHeap)) calls) :
    EveryState (step config region hashcode) ReachesWellFormed
      (some (empty n concurrencyChecksEnabled heap tombHeap)) calls := by
  have hrun : EveryState (step config region hashcode)
      (fun m => ∃ m', m = some m' ∧ m'.Inv config hashcode)
      (some (empty n concurrencyChecksEnabled heap tombHeap)) calls := by
    refine everyState_of_everyStep ?_
      ⟨_, rfl, inv_of_unbound (fun _ => rfl) LRUQueue.owned_empty rfl rfl⟩ hallowed
    rintro s c ⟨m, rfl, hinv⟩ hc
    exact hinv.call region (hc m rfl)
  exact hrun.mono fun _ ⟨m, hm, hinv⟩ => ⟨m, hm, hinv.wellFormed⟩

end Invariant

/-! ## Runs that are and are not allowed -/

/-- A region that is never asked. -/
def plainRegion (K V : Type*) : Region K V Unit Unit :=
  ⟨⟨fun _ => none, fun _ _ => 0⟩, false, fun v _ => (v, true), fun _ => none⟩

/-- An empty map of one segment with two keys and without concurrency checks. -/
def twoKeys : LRUEntriesMap 1 Bool Unit :=
  empty 1 false (fun _ => .create false) fun _ => ⟨0, false⟩

/-- A put of a key whose evictions all go like this. -/
def putKey (key : Bool) (eviction : EvictOutcome) : LRUCall Bool Unit Unit :=
  .put key (.object ()) (-1) 0 none none .null fun _ => eviction

theorem wellFormed_after_overflow : let config : LRUConfig := ⟨.overflowToDisk, 0, false⟩
    EveryState (step config (plainRegion Bool Unit) fun _ => 0) ReachesWellFormed (some twoKeys)
      [putKey false .done, .get false (.value ()) fun _ => .done] := by
  intro config
  refine wellFormed_of_allowed (plainRegion Bool Unit) config (fun _ => 0) false _ _ _ ⟨?_, ?_,
    trivial⟩
  · rintro m hm
    obtain rfl : twoKeys = m := some_inj.mp hm
    refine ⟨.inl ⟨(), rfl⟩, ?_, by decide, fun _ => ⟨nofun, fun _ => nofun⟩⟩
    rintro ⟨id, hid⟩
    cases hid
  · rintro m hm
    have hslot : (runFrom (step config (plainRegion Bool Unit) fun _ => 0) (some twoKeys)
        [putKey false .done]).map (fun m => (m.slotAt (0, false), m.validEntries)) =
        some (some (0, .overflowed), 0) := by decide
    change (runFrom (step config (plainRegion Bool Unit) fun _ => 0) (some twoKeys)
      [putKey false .done]) = some m at hm
    rw [hm, map_some, some_inj, Prod.mk.injEq] at hslot
    refine ⟨?_, fun _ => ⟨by simp, ?_, fun _ => ⟨nofun, fun _ => nofun⟩⟩⟩
    · intro _ hinvalid
      exact absurd (hslot.1.symm.trans hinvalid) (by simp)
    · rw [hslot.2]
      decide

/-- A map that was cleared still has its queue; an eviction that fails leaves a value that is
not queued; a lookup gives an invalid entry the place of another entry. -/
theorem not_wellFormed_runs : let config : LRUConfig := ⟨.localDestroy, 10, false⟩
    let small : LRUConfig := ⟨.overflowToDisk, 0, false⟩
    ¬ EveryState (step config (plainRegion Bool Unit) fun _ => 0) ReachesWellFormed (some twoKeys)
        [putKey false .done, .clear] ∧
      ¬ EveryState (step small (plainRegion Bool Unit) fun _ => 0) ReachesWellFormed (some twoKeys)
        [putKey false .failed] ∧
      ¬ EveryState (step config (plainRegion Bool Unit) fun _ => 0) ReachesWellFormed (some twoKeys)
        [putKey false .done, putKey true .done, .invalidate false none .null,
          .get false .null fun _ => .done] := by
  refine ⟨?_, ?_, ?_⟩
  · intro h
    obtain ⟨m, hwf, hstate⟩ := h.last.of_map
      (f := fun m => (m.validEntries.toNat, m.liveEntries)) (b := (1, [])) (by decide)
    rw [Prod.mk.injEq] at hstate
    have hvalid := hwf.validEntries_eq
    rw [hstate.1, hstate.2] at hvalid
    cases hvalid
  · intro h
    obtain ⟨m, hwf, hstate⟩ := h.last.of_map
      (f := fun m => (m.queue.entries, m.liveEntries)) (b := ([], [(0, 0)])) (by decide)
    rw [Prod.mk.injEq] at hstate
    have hperm := hwf.queue_perm
    rw [hstate.1, hstate.2] at hperm
    exact absurd hperm.length_eq (by decide)
  · intro h
    obtain ⟨m, hwf, hstate⟩ := h.last.of_map
      (f := fun m => (m.boundEntries.map Prod.fst, m.queue.iterator (0, 0),
        m.queue.container.nodes))
      (b := ([(0, 1), (0, 0)], .node 1, [(1, (0, 1))])) (by decide)
    rw [Prod.mk.injEq, Prod.mk.injEq] at hstate
    obtain ⟨hbound, hiterator, hnodes⟩ := hstate
    obtain ⟨e, he, heq⟩ : ∃ e ∈ m.boundEntries, e.1 = (0, 0) := by
      rw [← List.mem_map, hbound]
      decide
    rcases hwf.iterators e he with ⟨hend, -⟩ | ⟨_, _, hmem⟩
    · rw [heq, hiterator] at hend
      cases hend
    · rw [heq, hnodes] at hmem
      simp at hmem

end LRUEntriesMap

end GeodeNative
