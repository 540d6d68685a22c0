import GeodeNative.Events.EventIdMap
import GeodeNative.Library.Runs

/-!
# Which events pass the duplicate filter

The map of event ids is followed over any sequence of its operations, together with what the
client is told by it: the sequence ids that were accepted for each source since the source
was last expired, and the sources that the client still owes the servers an acknowledgement
for. A source is owed when an event of it is accepted, no longer owed once `getUnAcked`
reports it, and owed again when the acknowledgement fails and its flag is cleared.

The filter is right when it accepts exactly the events that are newer than all the accepted
ones, reports every source that is owed, and expires no source that is not acknowledged. It
is right in every run in which all sources have a membership id and no event is forced in
that is older than an accepted one.
-/

namespace GeodeNative

open EventIdMap EventSource

/-- The map, and what it has told its client. -/
structure EventFilter where
  map : EventIdMap
  /-- the events accepted for the sources that have not been expired since -/
  accepted : List (SourceId × ℤ)
  /-- the sources whose acknowledgement is due -/
  owed : List SourceId

/-- The operations of the map. The clock readings are part of the call; `expire` reads the
clock once for every entry it looks at. -/
inductive EventCall
  | put (id : SourceId) (seqNum : ℤ) (onlynew : Bool) (now : ℤ)
  | touch (id : SourceId) (now : ℤ)
  | getUnAcked
  | clearAckedFlags (ids : List SourceId)
  | expire (onlyacked : Bool) (now : EventSource → ℤ)

namespace EventFilter

/-- The filter of a new client. -/
def empty (strHash : List (BitVec 8) → BitVec 64) (expiry : ℤ) : EventFilter :=
  ⟨⟨strHash, expiry, []⟩, [], []⟩

/-- What `put` does with an event that has just been read. -/
def offer (s : EventFilter) (id : SourceId) (seqNum : ℤ) (onlynew : Bool) (now : ℤ) :
    Bool × EventIdMap :=
  s.map.put (EventSource.make id) (EventSequence.make seqNum now) onlynew now

/-- Whether the map has an entry for a source. -/
def Holds (m : EventIdMap) (id : SourceId) : Prop :=
  EventSource.make id ∈ m.map.map Prod.fst
  deriving Decidable

/-- Each call of the map. -/
def step (s : EventFilter) : EventCall → EventFilter
  | .put id seqNum onlynew now =>
    let result := s.offer id seqNum onlynew now
    if result.1 then ⟨result.2, (id, seqNum) :: s.accepted, id :: s.owed⟩
    else { s with map := result.2 }
  | .touch id now => { s with map := (s.map.touch (EventSource.make id) now).2 }
  | .getUnAcked =>
    { s with
      map := s.map.getUnAcked.2
      owed := s.owed.filter fun id => EventSource.make id ∉ s.map.getUnAcked.1.map Prod.fst }
  | .clearAckedFlags ids =>
    { s with
      map := s.map.clearAckedFlags (ids.map EventSource.make)
      owed := ids.filter (fun id => id ∈ s.accepted.map Prod.fst) ++ s.owed }
  | .expire onlyacked now =>
    let map := s.map.expire onlyacked now
    ⟨map, s.accepted.filter fun event => Holds map event.1, s.owed.filter fun id => Holds map id⟩

/-- An accepted event is stored with a new deadline; a refused one changes nothing. -/
lemma step_put (s : EventFilter) (id : SourceId) (seqNum : ℤ) (onlynew : Bool) (now : ℤ) :
    s.step (.put id seqNum onlynew now)
      = if (s.offer id seqNum onlynew now).1 then
          ⟨s.map.assign (make id)
            ((EventSequence.make seqNum now).touch s.map.expiry now),
            (id, seqNum) :: s.accepted, id :: s.owed⟩
        else s := by
  have hmap : (s.offer id seqNum onlynew now).2 = _ := put_snd _ _ _
  simp only [step]
  rw [hmap]
  by_cases haccepted : (s.offer id seqNum onlynew now).1 = true
  · have hput := haccepted
    rw [offer] at hput
    rw [if_pos haccepted, if_pos haccepted, if_pos hput]
  · have hput := haccepted
    rw [offer] at hput
    rw [if_neg haccepted, if_neg haccepted, if_neg hput]

/-- What a client relies on when it makes a call. -/
def Right (s : EventFilter) : EventCall → Prop
  | .put id seqNum true now =>
    (s.offer id seqNum true now).1 = true ↔ ∀ event ∈ s.accepted, event.1 = id → event.2 < seqNum
  | .getUnAcked => ∀ id ∈ s.owed, EventSource.make id ∈ s.map.getUnAcked.1.map Prod.fst
  | .expire true now =>
    ∀ entry ∈ s.map.map, entry.2.acked = false → entry ∈ (s.map.expire true now).map
  | _ => True

instance (s : EventFilter) (c : EventCall) : Decidable (s.Right c) := by
  unfold Right
  split <;> infer_instance

/-- Events come from a source with a membership id, and none is forced in that is older than
an accepted one. -/
def Newer (s : EventFilter) : EventCall → Prop
  | .put id seqNum onlynew _ =>
    id.memId ≠ [] ∧
      (onlynew = false → ∀ event ∈ s.accepted, event.1 = id → event.2 ≤ seqNum)
  | _ => True

instance (s : EventFilter) (c : EventCall) : Decidable (s.Newer c) := by
  unfold Newer
  split <;> infer_instance

/-! ## The invariant -/

/-- What the map has stored for a source tells what was accepted of it: the newest event, and
that it is not acknowledged if it is owed. -/
structure Recorded (s : EventFilter) (id : SourceId) (value : EventSequence) : Prop where
  mem : (id, value.seqNum) ∈ s.accepted
  le : ∀ n, (id, n) ∈ s.accepted → n ≤ value.seqNum
  unacked : id ∈ s.owed → value.acked = false

/-- The map and what it has told agree. -/
structure Agrees (s : EventFilter) : Prop where
  distinct : s.map.Distinct
  accepted_memId : ∀ event ∈ s.accepted, event.1.memId ≠ []
  owed_accepted : ∀ id ∈ s.owed, id ∈ s.accepted.map Prod.fst
  found : ∀ id value, s.map.find? (EventSource.make id) = some value → s.Recorded id value
  missing : ∀ id, s.map.find? (EventSource.make id) = none → id ∉ s.accepted.map Prod.fst

/-- The empty map has seen no event. -/
lemma agrees_empty {strHash : List (BitVec 8) → BitVec 64} (expiry : ℤ) :
    (empty strHash expiry).Agrees where
  distinct := List.Pairwise.nil
  accepted_memId := by simp [empty]
  owed_accepted := by simp [empty]
  found := by simp [empty, find?]
  missing := by simp [empty]

namespace Agrees

variable {s : EventFilter}

section

variable (hs : s.Agrees) {id : SourceId} {onlynew : Bool}

include hs

/-- A source that is owed is in the map, unacknowledged. -/
lemma find?_of_owed (hid : id ∈ s.owed) :
    ∃ value, s.map.find? (make id) = some value ∧ value.acked = false := by
  cases hfind : s.map.find? (make id) with
  | none => exact absurd (hs.owed_accepted id hid) (hs.missing id hfind)
  | some value => exact ⟨value, rfl, (hs.found id value hfind).unacked hid⟩

/-- Only the newest accepted event matters. -/
lemma offer_onlynew (id : SourceId) {seqNum now : ℤ} : (s.offer id seqNum true now).1 = true
      ↔ ∀ event ∈ s.accepted, event.1 = id → event.2 < seqNum := by
  rw [offer, put_fst]
  cases hfind : s.map.find? (make id) with
  | none =>
    refine ⟨fun _ event hevent hid => ?_, fun _ => rfl⟩
    exact absurd (List.mem_map.mpr ⟨event, hevent, hid⟩) (hs.missing id hfind)
  | some value =>
    have hrecorded := hs.found id value hfind
    simp only [Bool.true_and, Option.any_some, Bool.not_eq_true', decide_eq_false_iff_not, not_le]
    constructor
    · rintro hlt ⟨id', n⟩ hevent rfl
      exact lt_of_le_of_lt (hrecorded.le n hevent) hlt
    · intro hall
      exact hall _ hrecorded.mem rfl

/-- An unacknowledged entry does not expire, and no other key erases it. -/
lemma expire_unacked (now : EventSource → ℤ) :
    ∀ entry ∈ s.map.map, entry.2.acked = false → entry ∈ (s.map.expire true now).map := by
  rintro ⟨key, value⟩ hentry hacked
  rw [expire, KeyedList.foldl_erase]
  refine List.mem_filter.mpr ⟨hentry, ?_⟩
  simp only [Bool.not_eq_true', List.any_eq_false, List.mem_map, List.mem_filter]
  rintro _ ⟨⟨key', value'⟩, ⟨hentry', hexpires⟩, rfl⟩ hsame
  obtain ⟨hproper, rfl⟩ := (isEqualityOn_sameKey _ _).mp hsame
  have hfind := (find?_eq_some hs.distinct).mpr ⟨hproper, hentry⟩
  rw [(find?_eq_some hs.distinct).mpr ⟨hproper, hentry'⟩] at hfind
  cases hfind
  simp only at hacked
  simp [expires, hacked] at hexpires

lemma right (c : EventCall) : s.Right c := by
  cases c with
  | put id _ onlynew =>
    cases onlynew with
    | false => trivial
    | true => exact hs.offer_onlynew id
  | touch | clearAckedFlags => trivial
  | getUnAcked =>
    intro _ hid
    obtain ⟨_, hfind, hacked⟩ := hs.find?_of_owed hid
    exact mem_getUnAcked hs.distinct hfind hacked
  | expire onlyacked now =>
    cases onlyacked with
    | false => trivial
    | true => exact hs.expire_unacked now

/-- An event that is accepted is the newest of its source. -/
lemma le_of_offer {seqNum now : ℤ} (hnewer : s.Newer (.put id seqNum onlynew now))
    (haccepted : (s.offer id seqNum onlynew now).1 = true) :
    ∀ event ∈ s.accepted, event.1 = id → event.2 ≤ seqNum := by
  cases onlynew with
  | false => exact hnewer.2 rfl
  | true =>
    intro event hevent hid
    exact le_of_lt ((hs.offer_onlynew id).mp haccepted event hevent hid)

/-- Recording an event that is the newest of its source keeps the agreement. -/
lemma assign (hid : id.memId ≠ []) {value : EventSequence} (hacked : value.acked = false)
    (hle : ∀ event ∈ s.accepted, event.1 = id → event.2 ≤ value.seqNum) :
    Agrees ⟨s.map.assign (make id) value, (id, value.seqNum) :: s.accepted, id :: s.owed⟩ := by
  have hfind : ∀ id', (s.map.assign (make id) value).find? (make id')
      = if id' = id then some value else s.map.find? (make id') := by
    intro id'
    have hmake : make id' = make id ↔ id' = id := ⟨fun h => (make_inj hid h.symm).symm, congrArg _⟩
    rw [find?_assign (proper_make.mpr hid)]
    simp only [hmake]
  refine ⟨hs.distinct.assign _ _, ?_, ?_, ?_, ?_⟩
  · exact List.forall_mem_cons.mpr ⟨hid, hs.accepted_memId⟩
  · refine List.forall_mem_cons.mpr ⟨List.mem_cons_self, fun id' hid' => ?_⟩
    exact List.mem_cons_of_mem _ (hs.owed_accepted id' hid')
  · intro id' value' hvalue
    rw [hfind] at hvalue
    by_cases hsame : id' = id
    · subst hsame
      rw [if_pos rfl] at hvalue
      cases hvalue
      refine ⟨List.mem_cons_self, fun n hn => ?_, fun _ => hacked⟩
      rcases List.mem_cons.mp hn with h | h
      · cases h
        exact le_rfl
      · exact hle _ h rfl
    · rw [if_neg hsame] at hvalue
      obtain ⟨hmem, hle', hunacked⟩ := hs.found id' value' hvalue
      refine ⟨List.mem_cons_of_mem _ hmem, fun n hn => ?_, fun howed => ?_⟩
      · rcases List.mem_cons.mp hn with h | h
        · cases h
          exact absurd rfl hsame
        · exact hle' n h
      · exact hunacked ((List.mem_cons.mp howed).resolve_left hsame)
  · intro id' hnone
    rw [hfind] at hnone
    by_cases hsame : id' = id
    · rw [if_pos hsame] at hnone
      cases hnone
    · rw [if_neg hsame] at hnone
      rw [List.map_cons, List.mem_cons, not_or]
      exact ⟨hsame, hs.missing id' hnone⟩

/-- A sequence number is recorded when it is newer. -/
lemma put {seqNum now : ℤ} (hnewer : s.Newer (.put id seqNum onlynew now)) :
    (s.step (.put id seqNum onlynew now)).Agrees := by
  rw [step_put]
  by_cases haccepted : (s.offer id seqNum onlynew now).1 = true
  · rw [if_pos haccepted]
    exact hs.assign hnewer.1 rfl (hs.le_of_offer hnewer haccepted)
  · rw [if_neg haccepted]
    exact hs

/-- Operations that change the map entry by entry, and neither a sequence id nor an
acknowledgement that is due, keep the agreement. -/
lemma of_map {t : EventFilter} {f : SourceId → EventSequence → EventSequence}
    (hdistinct : t.map.Distinct) (haccepted : t.accepted = s.accepted)
    (hfind : ∀ id, t.map.find? (make id) = (s.map.find? (make id)).map (f id))
    (hseqNum : ∀ id value, (f id value).seqNum = value.seqNum)
    (howed : ∀ id ∈ t.owed, id ∈ s.accepted.map Prod.fst)
    (hacked : ∀ id ∈ t.owed, ∀ value, s.map.find? (make id) = some value →
      (f id value).acked = false) : t.Agrees where
  distinct := hdistinct
  accepted_memId := haccepted ▸ hs.accepted_memId
  owed_accepted := haccepted ▸ howed
  found := by
    intro id _ hvalue
    rw [hfind] at hvalue
    obtain ⟨old, hold, rfl⟩ := Option.map_eq_some_iff.mp hvalue
    obtain ⟨hmem, hle, -⟩ := hs.found id old hold
    rw [← hseqNum id old] at hmem hle
    exact ⟨haccepted ▸ hmem, haccepted ▸ hle, fun hid => hacked id hid old hold⟩
  missing := by
    intro id hnone
    rw [hfind, Option.map_eq_none_iff] at hnone
    exact haccepted ▸ hs.missing id hnone

lemma touch (id : SourceId) (now : ℤ) : (s.step (.touch id now)).Agrees := by
  refine hs.of_map (hs.distinct.touch _ _) rfl (fun id' => find?_touch _ _) ?_ hs.owed_accepted ?_
  · intro id' value
    split <;> rfl
  · intro id' hid' value hvalue
    have hunacked := (hs.found id' value hvalue).unacked hid'
    split <;> exact hunacked

lemma getUnAcked : (s.step .getUnAcked).Agrees := by
  -- all that was owed is reported, so that nothing is owed afterwards
  have hnone : ∀ id ∈ (s.step .getUnAcked).owed, False := by
    intro id hid
    obtain ⟨howed, hnot⟩ := List.mem_filter.mp hid
    exact of_decide_eq_true hnot (hs.right .getUnAcked id howed)
  refine hs.of_map hs.distinct.getUnAcked rfl (fun id => find?_getUnAcked _) (fun _ _ => rfl) ?_ ?_
  · intro id hid
    exact (hnone id hid).elim
  · intro id hid
    exact (hnone id hid).elim

lemma clearAckedFlags (ids : List SourceId) : (s.step (.clearAckedFlags ids)).Agrees := by
  refine hs.of_map (hs.distinct.clearAckedFlags _) rfl
    (fun id => find?_clearAckedFlags _ _ _) ?_ ?_ ?_
  · intro id value
    split <;> rfl
  · intro id hid
    rcases List.mem_append.mp hid with h | h
    · exact of_decide_eq_true (List.mem_filter.mp h).2
    · exact hs.owed_accepted id h
  · intro id hid value hvalue
    split
    · rfl
    · rename_i hnot
      rcases List.mem_append.mp hid with h | h
      · exact absurd (List.mem_map_of_mem (List.mem_filter.mp h).1) hnot
      · exact (hs.found id value hvalue).unacked h

/-- What expires is forgotten on both sides. -/
lemma expire {onlyacked : Bool} (now : EventSource → ℤ) :
    (s.step (.expire onlyacked now)).Agrees := by
  have hfind := find?_expire hs.distinct onlyacked now
  -- for the sources of the accepted events, being in the map is being found there
  have hholds : ∀ id : SourceId, id.memId ≠ [] → (Holds (s.map.expire onlyacked now) id
        ↔ ((s.map.expire onlyacked now).find? (make id)).isSome) := fun id hid =>
    (isSome_find? (proper_make.mpr hid)).symm
  refine ⟨hs.distinct.expire _ _, ?_, ?_, ?_, ?_⟩
  · intro event hevent
    exact hs.accepted_memId event (List.mem_filter.mp hevent).1
  · intro id hid
    obtain ⟨howed, hkept⟩ := List.mem_filter.mp hid
    obtain ⟨event, hevent, rfl⟩ := List.mem_map.mp (hs.owed_accepted id howed)
    exact List.mem_map.mpr ⟨event, List.mem_filter.mpr ⟨hevent, hkept⟩, rfl⟩
  · intro id value hvalue
    have hsome : ((s.map.expire onlyacked now).find? (make id)).isSome :=
      Option.isSome_of_mem hvalue
    change (s.map.expire onlyacked now).find? (make id) = some value at hvalue
    rw [hfind, Option.filter_eq_some_iff] at hvalue
    obtain ⟨hmem, hle, hunacked⟩ := hs.found id value hvalue.1
    have hkept := (hholds id (hs.accepted_memId _ hmem)).mpr hsome
    refine ⟨List.mem_filter.mpr ⟨hmem, decide_eq_true hkept⟩, ?_, ?_⟩
    · intro n hn
      exact hle n (List.mem_filter.mp hn).1
    · intro hid
      exact hunacked (List.mem_filter.mp hid).1
  · intro _ hnone hid
    obtain ⟨event, hevent, rfl⟩ := List.mem_map.mp hid
    obtain ⟨hmem, hkept⟩ := List.mem_filter.mp hevent
    have hsome := (hholds _ (hs.accepted_memId _ hmem)).mp (of_decide_eq_true hkept)
    change (s.map.expire onlyacked now).find? (make event.1) = none at hnone
    rw [hnone] at hsome
    cases hsome

lemma step {c : EventCall} (hc : s.Newer c) : (s.step c).Agrees := by
  cases c with
  | put => exact hs.put hc
  | touch id now => exact hs.touch id now
  | getUnAcked => exact hs.getUnAcked
  | clearAckedFlags ids => exact hs.clearAckedFlags ids
  | expire _ now => exact hs.expire now

end

end Agrees

/-! ## Runs of the filter -/

/-- The filter is right in every run whose events come from sources with a membership id and
are not forced in behind newer ones. -/
theorem everyStep_right (strHash : List (BitVec 8) → BitVec 64) (expiry : ℤ)
    (calls : List EventCall) (h : EveryStep step Newer (empty strHash expiry) calls) :
    EveryStep step Right (empty strHash expiry) calls :=
  everyStep_of_invariant (fun _ _ hs hc => Agrees.step hs hc)
    (fun _ c hs _ => Agrees.right hs c) (agrees_empty expiry) h

/-- A failover: an event arrives twice, its acknowledgement fails, and it is reported again
before it expires. -/
def failover : List EventCall :=
  [.put ⟨[7], 1⟩ 5 true 0, .put ⟨[7], 1⟩ 5 true 1, .put ⟨[7], 1⟩ 6 false 1, .touch ⟨[7], 1⟩ 2,
    .getUnAcked, .clearAckedFlags [⟨[7], 1⟩], .expire true fun _ => 100, .getUnAcked,
    .expire true fun _ => 100, .put ⟨[7], 1⟩ 5 true 101]

theorem everyStep_right_failover : EveryStep step Newer (empty (fun _ => 0) 10) failover ∧
      EveryStep step Right (empty (fun _ => 0) 10) failover :=
  ⟨by decide, everyStep_right (fun _ => 0) 10 failover (by decide)⟩

/-- A source without a membership id is not even equal to itself: its event is accepted
again, and its failed acknowledgement is forgotten. A source with one passes an event that
lies between a forced one and a newer one. -/
theorem not_everyStep_right : ¬ EveryStep step Right (empty (fun _ => 0) 10)
        [.put ⟨[], 1⟩ 5 true 0, .put ⟨[], 1⟩ 5 true 1] ∧
      ¬ EveryStep step Right (empty (fun _ => 0) 10)
        [.put ⟨[], 1⟩ 5 true 0, .getUnAcked, .clearAckedFlags [⟨[], 1⟩], .getUnAcked] ∧
      ¬ EveryStep step Right (empty (fun _ => 0) 10)
        [.put ⟨[7], 1⟩ 5 true 0, .put ⟨[7], 1⟩ 3 false 1, .put ⟨[7], 1⟩ 4 true 2] := by
  decide

end EventFilter

end GeodeNative
