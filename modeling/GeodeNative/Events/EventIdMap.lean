import GeodeNative.Library.Bytes
import GeodeNative.Library.KeyedList

/-!
# The map of event ids

A client that is subscribed to several servers may be notified of one event more than once.
`EventIdMap` remembers, for every source of events, the sequence id of the last event it
accepted, together with a flag that says whether that event was acknowledged to the servers
and a deadline after which the source may be forgotten.

An event source is a member of the distributed system and one of its threads. The class
`EventSource` stores both as one array of bytes, and no array at all when the membership id
is empty; its `operator==` never holds for a source without an array. The clock is read by
the operations, so that its readings are given with the call.
-/

namespace GeodeNative

open List Option

/-- The membership id and the thread id that an event carries. -/
structure SourceId where
  memId : List (BitVec 8)
  thrId : BitVec 64
  deriving DecidableEq

/-- An `EventSource`: the bytes of both ids, or the null pointer. -/
structure EventSource where
  srcId : Option (List (BitVec 8))
  deriving DecidableEq

open EventSource

namespace EventSource

/-- The bytes of a thread id as they lie in memory. -/
def thrIdBytes (thrId : BitVec 64) : List (BitVec 8) :=
  (bytesOfNat 8 thrId.toNat).reverse

/-- The constructor: an empty membership id leaves the source as `init` made it. -/
def make (id : SourceId) : EventSource :=
  if id.memId.length ≤ 0 then ⟨none⟩
  else ⟨some (id.memId ++ thrIdBytes id.thrId)⟩

/-- The comparison `operator==`. -/
def equals (source rhs : EventSource) : Bool :=
  match source.srcId, rhs.srcId with
  | some bytes, some bytes' => bytes.length == bytes'.length && bytes == bytes'
  | _, _ => false

/-- The specialisation of `std::hash`: the hash of the bytes as a string, which is empty for
the null pointer. -/
def hash (strHash : List (BitVec 8) → BitVec 64) (source : EventSource) : BitVec 64 :=
  strHash (source.srcId.getD [])

/-- How the hash map compares two keys: their hashes first. -/
def sameKey (strHash : List (BitVec 8) → BitVec 64) (source rhs : EventSource) : Bool :=
  source.hash strHash == rhs.hash strHash && source.equals rhs

def Proper (source : EventSource) : Prop :=
  source.srcId ≠ none

/-- A source with an empty member id equals no source, not even itself. -/
lemma equals_iff {source rhs : EventSource} :
    source.equals rhs = true ↔ source.Proper ∧ source = rhs := by
  obtain ⟨_ | _⟩ := source
  · simp [equals, Proper]
  · obtain ⟨_ | _⟩ := rhs
    · simp [equals]
    · simp only [equals, Bool.and_eq_true, beq_iff_eq, mk.injEq, some.injEq]
      exact ⟨fun h => ⟨nofun, h.2⟩, fun h => ⟨congrArg _ h.2, h.2⟩⟩

/-- The hash makes no difference: sources that are equal have the same bytes. -/
lemma isEqualityOn_sameKey {strHash : List (BitVec 8) → BitVec 64} :
    KeyedList.IsEqualityOn (sameKey strHash) Proper := by
  intro _ _
  rw [sameKey, Bool.and_eq_true, equals_iff]
  constructor
  · exact And.right
  · rintro ⟨hp, rfl⟩
    exact ⟨beq_self_eq_true _, hp, rfl⟩

lemma proper_make {id : SourceId} : (make id).Proper ↔ id.memId ≠ [] := by
  unfold make Proper
  split
  · rename_i h
    simp [length_eq_zero_iff.mp (Nat.le_zero.mp h)]
  · rename_i h
    simp only [ne_eq, reduceCtorEq, not_false_eq_true, true_iff]
    rintro h'
    exact h (by rw [h']; rfl)

/-- Different threads have different bytes. -/
lemma thrIdBytes_injective : Function.Injective thrIdBytes := by
  intro a b h
  have hbytes : bytesOfNat 8 a.toNat = bytesOfNat 8 b.toNat := reverse_injective h
  apply BitVec.eq_of_toNat_eq
  rw [← natOfBytes_bytesOfNat (n := 8) (v := a.toNat) a.isLt,
    ← natOfBytes_bytesOfNat (n := 8) (v := b.toNat) b.isLt, hbytes]

/-- A proper source tells both ids: the thread id has a fixed width. -/
lemma make_inj {a b : SourceId} (ha : a.memId ≠ []) (h : make a = make b) : a = b := by
  have hb : b.memId ≠ [] := proper_make.mp (h ▸ proper_make.mpr ha)
  have hlen : ∀ id : SourceId, id.memId ≠ [] → ¬ id.memId.length ≤ 0 := fun id hid hle =>
    hid (length_eq_zero_iff.mp (Nat.le_zero.mp hle))
  rw [make, make, if_neg (hlen a ha), if_neg (hlen b hb)] at h
  have hbytes := some.inj (congrArg srcId h)
  have hthr : (thrIdBytes a.thrId).length = (thrIdBytes b.thrId).length := by
    simp [thrIdBytes]
  obtain ⟨hmem, hthr⟩ := append_inj' hbytes hthr
  exact congrArg₂ SourceId.mk hmem (thrIdBytes_injective hthr)

end EventSource

structure EventSequence where
  seqNum : ℤ
  acked : Bool
  deadline : ℤ
  deriving DecidableEq

namespace EventSequence

/-- The constructor; `now` is the reading of the clock in `init`. -/
def make (seqNum now : ℤ) : EventSequence :=
  ⟨seqNum, false, now⟩

/-- Moves the deadline to `ageSecs` from now. -/
def touch (value : EventSequence) (ageSecs now : ℤ) : EventSequence :=
  { value with deadline := now + ageSecs }

def setAcked (value : EventSequence) (acked : Bool) : EventSequence :=
  { value with acked := acked }

/-- The comparison `operator<=`. -/
def le (value rhs : EventSequence) : Bool :=
  value.seqNum ≤ rhs.seqNum

end EventSequence

/-- The map, with the time after which a source may be forgotten and the hash function of
the standard library. -/
structure EventIdMap where
  strHash : List (BitVec 8) → BitVec 64
  expiry : ℤ
  map : List (EventSource × EventSequence)

namespace EventIdMap

section

variable (m : EventIdMap) (key : EventSource)

/-- `m_map.find`. -/
def find? : Option EventSequence :=
  KeyedList.find? (EventSource.sameKey m.strHash) m.map key

/-- `m_map[key] = value`. -/
def assign (value : EventSequence) : EventIdMap :=
  { m with map := KeyedList.assign (EventSource.sameKey m.strHash) m.map key value }

/-- Changes the sequences of the map. -/
def adjust (f : EventSource → EventSequence → EventSequence) : EventIdMap :=
  { m with map := KeyedList.adjust f m.map }

/-- Changes the sequence that a key finds. -/
def modify (f : EventSequence → EventSequence) : EventIdMap :=
  m.adjust fun key' value => if EventSource.sameKey m.strHash key' key then f value else value

/-- Records an event and says whether it was accepted. -/
def put (value : EventSequence) (onlynew : Bool) (now : ℤ) : Bool × EventIdMap :=
  let value := value.touch m.expiry now
  match m.find? key with
  | some entry =>
    if onlynew && value.le entry then (false, m) else (true, m.assign key value)
  | none => (true, m.assign key value)

/-- Moves the deadline of a source and says whether it was found. -/
def touch (now : ℤ) : Bool × EventIdMap :=
  match m.find? key with
  | some _ => (true, m.modify key fun value => value.touch m.expiry now)
  | none => (false, m)

/-- Collects the entries that are not acknowledged and sets their flags. -/
def getUnAcked : List (EventSource × EventSequence) × EventIdMap :=
  ((m.map.filter fun entry => !entry.2.acked).map fun entry => (entry.1, entry.2.setAcked true),
    m.adjust fun _ value => value.setAcked true)

/-- The body of the loop of `clearAckedFlags`. -/
def clearAckedFlag : EventIdMap :=
  match m.find? key with
  | some _ => m.modify key fun value => value.setAcked false
  | none => m

/-- Clears the flags of the sources in a list. -/
def clearAckedFlags (entries : List EventSource) : EventIdMap :=
  entries.foldl clearAckedFlag m

/-- Whether an entry has expired; `now` is the reading of the clock for that entry. -/
def expires (onlyacked : Bool) (now : EventSource → ℤ) (entry : EventSource × EventSequence) :
    Bool :=
  !(onlyacked && !entry.2.acked) && entry.2.deadline < now entry.1

/-- Collects the entries whose deadline has passed, then erases them by their keys. -/
def expire (onlyacked : Bool) (now : EventSource → ℤ) : EventIdMap :=
  { m with
    map := ((m.map.filter (expires onlyacked now)).map Prod.fst).foldl
      (KeyedList.erase (EventSource.sameKey m.strHash)) m.map }

/-! ## What each operation does to a lookup -/

/-- No two sources in the map are equal. -/
def Distinct : Prop :=
  KeyedList.Distinct (EventSource.sameKey m.strHash) m.map

end

section Lookup

variable {m : EventIdMap} {key : EventSource} {value : EventSequence}

section

variable (hm : m.Distinct)

include hm

lemma find?_eq_some : m.find? key = some value ↔ key.Proper ∧ (key, value) ∈ m.map :=
  KeyedList.find?_eq_some isEqualityOn_sameKey hm

lemma Distinct.assign (key : EventSource) (value : EventSequence) : (m.assign key value).Distinct :=
  KeyedList.Distinct.assign isEqualityOn_sameKey hm _ _

lemma Distinct.adjust (f : EventSource → EventSequence → EventSequence) : (m.adjust f).Distinct :=
  KeyedList.Distinct.adjust hm f

lemma Distinct.modify (key : EventSource) (f : EventSequence → EventSequence) :
    (m.modify key f).Distinct :=
  hm.adjust _

/-- Touching an entry adds no key. -/
lemma Distinct.touch (key : EventSource) (now : ℤ) : (m.touch key now).2.Distinct := by
  unfold EventIdMap.touch
  split
  · exact hm.modify _ _
  · exact hm

lemma Distinct.getUnAcked : m.getUnAcked.2.Distinct := hm.adjust _

/-- Every entry that was not acknowledged is handed out. -/
lemma mem_getUnAcked (h : m.find? key = some value)
    (hacked : value.acked = false) : key ∈ m.getUnAcked.1.map Prod.fst := by
  have hmem := ((find?_eq_some hm).mp h).2
  simp only [EventIdMap.getUnAcked, List.map_map, List.mem_map, List.mem_filter]
  exact ⟨_, ⟨hmem, by simp [hacked]⟩, rfl⟩

lemma Distinct.clearAckedFlag (key : EventSource) : (m.clearAckedFlag key).Distinct := by
  unfold EventIdMap.clearAckedFlag
  split
  · exact hm.modify _ _
  · exact hm

lemma Distinct.clearAckedFlags (entries : List EventSource) :
    (m.clearAckedFlags entries).Distinct := by
  induction entries generalizing m with
  | nil => exact hm
  | cons key _ ih => exact ih (hm.clearAckedFlag key)

/-- An entry is found after the sweep when it does not expire. -/
lemma find?_expire (onlyacked : Bool) (now : EventSource → ℤ) (key : EventSource) :
    (m.expire onlyacked now).find? key
      = (m.find? key).filter fun value => !expires onlyacked now (key, value) :=
  KeyedList.find?_eraseAll isEqualityOn_sameKey hm _ _

/-- The sweep only removes entries. -/
lemma Distinct.expire (onlyacked : Bool) (now : EventSource → ℤ) :
    (m.expire onlyacked now).Distinct := by
  unfold EventIdMap.Distinct EventIdMap.expire
  rw [KeyedList.foldl_erase]
  exact hm.filter _

end

lemma isSome_find? (hkey : key.Proper) : (m.find? key).isSome ↔ key ∈ m.map.map Prod.fst :=
  KeyedList.isSome_find? isEqualityOn_sameKey hkey _

lemma find?_assign (hkey : key.Proper) (value : EventSequence) (key' : EventSource) :
    (m.assign key value).find? key' = if key' = key then some value else m.find? key' :=
  KeyedList.find?_assign isEqualityOn_sameKey hkey _ _ _

/-- Every entry that is found has been adjusted. -/
lemma find?_adjust (f : EventSource → EventSequence → EventSequence) (key : EventSource) :
    (m.adjust f).find? key = (m.find? key).map (f key) :=
  KeyedList.find?_adjust isEqualityOn_sameKey f m.map key

lemma find?_modify (f : EventSequence → EventSequence) (key' : EventSource) :
    (m.modify key f).find? key'
      = (m.find? key').map fun value => if key' = key then f value else value := by
  rw [modify, find?_adjust]
  refine map_congr fun value hvalue => ?_
  by_cases hkey : key' = key
  · -- a key that is found is proper, hence equal to itself
    have hproper : key'.Proper := by
      by_contra himproper
      rw [find?, KeyedList.find?_of_improper isEqualityOn_sameKey himproper] at hvalue
      cases hvalue
    rw [if_pos hkey, if_pos ((isEqualityOn_sameKey _ _).mpr ⟨hproper, hkey⟩)]
  · rw [if_neg hkey, if_neg fun hsame => hkey ((isEqualityOn_sameKey _ _).mp hsame).2]

/-- An event is refused exactly when only new events are wanted and the source has one that
is as new. -/
lemma put_fst (value : EventSequence) (onlynew : Bool) (now : ℤ) : (m.put key value onlynew now).1
      = !(onlynew && (m.find? key).any fun entry => decide (value.seqNum ≤ entry.seqNum)) := by
  unfold put
  cases hfind : m.find? key with
  | none => simp
  | some entry =>
    cases honly : onlynew <;>
      by_cases hle : value.seqNum ≤ entry.seqNum <;>
        simp [EventSequence.le, EventSequence.touch, hle]

/-- `put` changes the map exactly when it says so. -/
lemma put_snd (value : EventSequence) (onlynew : Bool) (now : ℤ) : (m.put key value onlynew now).2
      = if (m.put key value onlynew now).1 then m.assign key (value.touch m.expiry now)
        else m := by
  unfold put
  cases hfind : m.find? key with
  | none => rfl
  | some =>
    simp only
    split <;> rfl

/-- Changing a sequence only if it is found is no different: there is none to change. -/
lemma find?_map_of_none (hnone : m.find? key = none) (f : EventSequence → EventSequence)
    (key' : EventSource) :
    (m.find? key').map (fun value => if key' = key then f value else value) = m.find? key' := by
  by_cases hkey : key' = key
  · rw [hkey, hnone]
    rfl
  · simp only [if_neg hkey]
    exact map_id'

/-- Only the touched entry has a new deadline. -/
lemma find?_touch (now : ℤ) (key' : EventSource) :
    (m.touch key now).2.find? key' = (m.find? key').map fun value =>
      if key' = key then value.touch m.expiry now else value := by
  unfold touch
  cases hfind : m.find? key with
  | none => exact (find?_map_of_none hfind _ _).symm
  | some => exact find?_modify _ _

/-- Every entry counts as acknowledged afterwards. -/
lemma find?_getUnAcked (key : EventSource) :
    m.getUnAcked.2.find? key = (m.find? key).map fun value => value.setAcked true :=
  find?_adjust _ _

lemma find?_clearAckedFlag (m : EventIdMap) (key key' : EventSource) :
    (m.clearAckedFlag key).find? key'
      = (m.find? key').map fun value => if key' = key then value.setAcked false else value := by
  unfold clearAckedFlag
  cases hfind : m.find? key with
  | none => exact (find?_map_of_none hfind _ _).symm
  | some => exact find?_modify _ _

/-- By induction on the failed entries. -/
lemma find?_clearAckedFlags (entries : List EventSource) (m : EventIdMap) (key : EventSource) :
    (m.clearAckedFlags entries).find? key
      = (m.find? key).map fun value => if key ∈ entries then value.setAcked false else value := by
  induction entries generalizing m with
  | nil => simp [clearAckedFlags]
  | cons key' _ ih =>
    rw [clearAckedFlags, foldl_cons, ← clearAckedFlags, ih, find?_clearAckedFlag, Option.map_map]
    refine map_congr fun value _ => ?_
    by_cases hkey : key = key'
    · simp [hkey, EventSequence.setAcked]
    · simp [hkey]

end Lookup

end EventIdMap

end GeodeNative
