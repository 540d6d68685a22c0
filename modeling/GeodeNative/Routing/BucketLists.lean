import Mathlib.Data.List.TakeWhile
import GeodeNative.Library.Runs
import GeodeNative.Routing.ClientMetadata

/-!
# The lists of bucket locations

`updateBucketServerLocations` replaces the list of a bucket by the locations that a server sent,
primaries first, and `removeBucketServerLocation` takes a server that failed off every list. If the
pool has a server group, a loop over the groups of a location decides how often it is pushed: an
empty name pushes it without ending the loop. A location that is in a list twice survives the
removal of its server.
-/

namespace GeodeNative

/-- A location with the server groups that were sent for it. -/
structure GroupedLocation extends BucketServerLocation where
  serverGroups : Option (List String)

/-- The list of a bucket, and what was supplied for it of servers that were not removed since. -/
structure BucketList where
  locations : List GroupedLocation := []
  supplied : List GroupedLocation := []

/-- The lists of all buckets, and the server that the last call removed. -/
structure BucketLists where
  buckets : List BucketList
  removed : Option ServerLocation := none

/-- The calls of `updateBucketServerLocations`, which shuffles what it stores, and of
`removeBucketServerLocation`. -/
inductive MetadataCall
  | update (bucketId : ℕ) (locations : List GroupedLocation)
      (shuffle : List GroupedLocation → List GroupedLocation) (perm : ∀ l, (shuffle l).Perm l)
  | remove (serverLocation : ServerLocation)

namespace BucketLists

variable (serverGroup : String)

/-- How often the loop over the groups pushes a location. -/
def groupPushes : List String → ℕ
  | [] => 0
  | cs :: groups =>
    if cs.isEmpty then groupPushes groups + 1
    else if cs = serverGroup then 1 else groupPushes groups

/-- How often a location is pushed: once as well if no group pushes it. -/
def pushes (location : GroupedLocation) : ℕ :=
  if serverGroup.isEmpty then 1
  else match location.serverGroups with
    | none | some [] => 0
    | some groups => max 1 (groupPushes serverGroup groups)

def pushed (locations : List GroupedLocation) : List GroupedLocation :=
  locations.flatMap fun location => List.replicate (pushes serverGroup location) location

/-- A call: an update of a bucket that is out of range throws, and a removal erases the first match
in every list. -/
def step (s : BucketLists) : MetadataCall → BucketLists
  | .update bucketId locations shuffle _ =>
    if bucketId < s.buckets.length then
      { buckets := s.buckets.set bucketId
          ⟨shuffle ((pushed serverGroup locations).filter (·.isPrimary)) ++
            shuffle ((pushed serverGroup locations).filter (!·.isPrimary)), locations⟩ }
    else s
  | .remove serverLocation =>
    { buckets := s.buckets.map fun b => ⟨b.locations.eraseP (·.toServerLocation = serverLocation),
        b.supplied.filter (·.toServerLocation ≠ serverLocation)⟩
      removed := some serverLocation }

def Eligible (location : GroupedLocation) : Prop :=
  serverGroup.isEmpty ∨
    ∃ groups ∈ location.serverGroups, ∃ cs ∈ groups, cs.isEmpty ∨ cs = serverGroup

/-- No server is in the list twice, primaries come first, the eligible locations that were supplied
are in it, and the server that was just removed is not. -/
structure CleanList (removed : Option ServerLocation) (b : BucketList) : Prop where
  nodup : (b.locations.map (·.toServerLocation)).Nodup
  primaries : b.locations.Pairwise fun l l' => l'.isPrimary → l.isPrimary
  eligible : ∀ l ∈ b.supplied, Eligible serverGroup l → l ∈ b.locations
  removed : ∀ serverLocation ∈ removed, serverLocation ∉ b.locations.map (·.toServerLocation)

def Clean (s : BucketLists) : Prop := ∀ b ∈ s.buckets, CleanList serverGroup s.removed b

/-- Without a group of the pool every location is stored, otherwise those that name groups. -/
def isStored (location : GroupedLocation) : Bool :=
  serverGroup.isEmpty || location.serverGroups.any (! ·.isEmpty)

/-- Before the pool's group there is no empty name, and without it there are no two. -/
def OneGroup (groups : List String) : Prop :=
  if serverGroup ∈ groups then "" ∉ groups.takeWhile (· ≠ serverGroup)
  else groups.count "" ≤ 1

/-- No two stored locations are of one server, and the groups of a location do not push it
twice. -/
def PushedOnce (s : BucketLists) : MetadataCall → Prop
  | .update bucketId locations _ _ => bucketId < s.buckets.length →
      ((locations.filter (isStored serverGroup)).map (·.toServerLocation)).Nodup ∧
      (serverGroup ≠ "" → ∀ l ∈ locations, ∀ groups ∈ l.serverGroups, OneGroup serverGroup groups)
  | .remove _ => True

variable {serverGroup} {s : BucketLists} {locations : List GroupedLocation}

lemma mem_pushed {l : GroupedLocation} (hmem : l ∈ locations) (h : Eligible serverGroup l) :
    l ∈ pushed serverGroup locations := by
  refine List.mem_flatMap.mpr ⟨l, hmem, List.mem_replicate.mpr ⟨?_, rfl⟩⟩
  unfold pushes
  split_ifs with hempty
  · exact Nat.one_ne_zero
  · obtain ⟨groups, hgroups, _, hcs, -⟩ := h.resolve_left hempty
    rw [Option.mem_def.mp hgroups]
    cases groups with
    | nil => cases hcs
    | cons => exact Nat.ne_of_gt (Nat.le_max_left ..)

/-- A loop that pushes every element some times pushes no value twice exactly when no element
is pushed twice and those that are pushed have different values. -/
lemma nodup_flatMap_replicate_iff {α β : Type} (count : α → ℕ) (f : α → β) (l : List α) :
    (l.flatMap fun a => List.replicate (count a) (f a)).Nodup ↔
      ((l.filter (count · ≠ 0)).map f).Nodup ∧ ∀ a ∈ l, count a ≤ 1 := by
  induction l with
  | nil => simp
  | cons a l ih =>
    have hmem (b : β) : b ∈ l.flatMap (fun a => List.replicate (count a) (f a)) ↔
        b ∈ (l.filter (count · ≠ 0)).map f := by
      simp only [List.mem_flatMap, List.mem_replicate, List.mem_map, List.mem_filter,
        decide_eq_true_eq, and_assoc, eq_comm (a := b)]
    rw [List.flatMap_cons, List.forall_mem_cons]
    match hcount : count a with
    | 0 =>
      rw [List.filter_cons_of_neg (by simp [hcount]), List.replicate_zero, List.nil_append, ih]
      simp
    | 1 =>
      rw [List.filter_cons_of_pos (by simp [hcount]), List.replicate_one, List.singleton_append,
        List.map_cons, List.nodup_cons, List.nodup_cons, ih, hmem]
      simp [and_assoc]
    | n + 2 =>
      refine iff_of_false (fun h => ?_) fun h => absurd h.2.1 (by omega)
      exact absurd (List.nodup_append.mp h).1 (by simp [List.replicate_succ])

lemma pushes_ne_zero_iff (l : GroupedLocation) :
    pushes serverGroup l ≠ 0 ↔ isStored serverGroup l = true := by
  unfold pushes isStored
  by_cases hempty : serverGroup.isEmpty
  · simp [hempty]
  · rw [if_neg hempty]
    cases l.serverGroups with
    | none => simp [hempty]
    | some groups =>
      cases groups with
      | nil => simp [hempty]
      | cons => simp [hempty]

/-- The loop over the groups pushes for the empty names before the pool's group, and for
the pool's group. -/
lemma groupPushes_eq (hne : serverGroup ≠ "") (groups : List String) :
    groupPushes serverGroup groups = (groups.takeWhile (· ≠ serverGroup)).count "" +
      if serverGroup ∈ groups then 1 else 0 := by
  induction groups with
  | nil => rfl
  | cons cs groups ih =>
    unfold groupPushes
    by_cases hcs : cs = serverGroup
    · simp [hcs, hne]
    · by_cases hempty : cs = ""
      · subst hempty
        rw [if_pos (by simp), ih, List.takeWhile_cons_of_pos (by simpa using hcs),
          List.count_cons_self]
        simp [hne, Nat.add_right_comm]
      · simp [hcs, hempty, ih, Ne.symm hcs]

lemma groupPushes_le_one_iff (hne : serverGroup ≠ "") (groups : List String) :
    groupPushes serverGroup groups ≤ 1 ↔ OneGroup serverGroup groups := by
  rw [groupPushes_eq hne, OneGroup]
  split_ifs with hmem
  · rw [← List.count_eq_zero]
    omega
  · rw [List.takeWhile_eq_self_iff.mpr fun cs hcs => by
      simpa using ne_of_mem_of_not_mem hcs hmem]
    rfl

lemma pushes_le_one_iff (l : GroupedLocation) : pushes serverGroup l ≤ 1 ↔
    (serverGroup ≠ "" → ∀ groups ∈ l.serverGroups, OneGroup serverGroup groups) := by
  unfold pushes
  by_cases hempty : serverGroup = ""
  · simp [hempty]
  · rw [if_neg (by simpa using hempty)]
    cases l.serverGroups with
    | none => simp
    | some groups =>
      cases groups with
      | nil => simp [OneGroup]
      | cons cs groups =>
        simp only [Nat.max_le, Nat.le_refl, true_and, groupPushes_le_one_iff hempty]
        simp [hempty]

/-- No server is pushed twice exactly when the locations and their groups are such. -/
lemma nodup_pushed_iff : ((pushed serverGroup locations).map (·.toServerLocation)).Nodup ↔
    ((locations.filter (isStored serverGroup)).map (·.toServerLocation)).Nodup ∧
      (serverGroup ≠ "" → ∀ l ∈ locations, ∀ groups ∈ l.serverGroups,
        OneGroup serverGroup groups) := by
  have hstored : locations.filter (pushes serverGroup · ≠ 0) =
      locations.filter (isStored serverGroup) :=
    List.filter_congr fun l _ => by rw [Bool.eq_iff_iff, decide_eq_true_iff, pushes_ne_zero_iff]
  simp only [pushed, List.map_flatMap, List.map_replicate]
  rw [nodup_flatMap_replicate_iff, hstored]
  simp only [pushes_le_one_iff]
  exact and_congr_right fun _ => ⟨fun h hne l hl => h l hl hne, fun h l hl hne => h hne l hl⟩

/-- The list that an update stores is clean exactly when nothing was pushed twice. -/
lemma cleanList_shuffled {shuffle : List GroupedLocation → List GroupedLocation}
    (perm : ∀ l, (shuffle l).Perm l) :
    let l := pushed serverGroup locations
    CleanList serverGroup none
        ⟨shuffle (l.filter (·.isPrimary)) ++ shuffle (l.filter (!·.isPrimary)), locations⟩ ↔
      (l.map (·.toServerLocation)).Nodup := by
  intro l
  have hperm : (shuffle (l.filter (·.isPrimary)) ++ shuffle (l.filter (!·.isPrimary))).Perm l :=
    ((perm _).append (perm _)).trans (List.filter_append_perm _ l)
  refine ⟨fun h => (hperm.map _).nodup_iff.mp h.nodup, fun h => ⟨(hperm.map _).nodup_iff.mpr h, ?_,
    fun _ hmem heligible => hperm.mem_iff.mpr (mem_pushed hmem heligible), nofun⟩⟩
  have hfirst : ∀ a ∈ shuffle (l.filter (·.isPrimary)), a.isPrimary = true := fun a ha =>
    (List.mem_filter.mp ((perm _).mem_iff.mp ha)).2
  have hlast : ∀ a ∈ shuffle (l.filter (!·.isPrimary)), ¬ a.isPrimary = true := fun a ha => by
    simpa using (List.mem_filter.mp ((perm _).mem_iff.mp ha)).2
  refine List.pairwise_append.mpr ⟨?_, ?_, fun a ha _ _ _ => hfirst a ha⟩
  · exact List.pairwise_of_forall_mem_list fun a ha _ _ _ => hfirst a ha
  · exact List.pairwise_of_forall_mem_list fun _ _ a ha hprimary => absurd hprimary (hlast a ha)

lemma Clean.step (h : Clean serverGroup s) {c : MetadataCall} (hc : PushedOnce serverGroup s c) :
    Clean serverGroup (step serverGroup s c) := by
  cases c with
  | update bucketId _ _ perm =>
    by_cases hin : bucketId < s.buckets.length
    · simp only [BucketLists.step, if_pos hin]
      intro b hb
      obtain hb | rfl := List.mem_or_eq_of_mem_set hb
      · obtain ⟨hnodup, hprimaries, heligible, -⟩ := h b hb
        exact ⟨hnodup, hprimaries, heligible, nofun⟩
      · exact (cleanList_shuffled perm).mpr (nodup_pushed_iff.mpr (hc hin))
    · simpa only [BucketLists.step, if_neg hin] using h
  | remove serverLocation =>
    refine List.forall_mem_map.mpr fun b hb => ?_
    obtain ⟨hnodup, hprimaries, heligible, -⟩ := h b hb
    refine ⟨hnodup.sublist (List.eraseP_sublist.map _), hprimaries.sublist List.eraseP_sublist,
      fun l hl hle => ?_, fun gone hgone => ?_⟩
    · obtain ⟨hl, hne⟩ := List.mem_filter.mp hl
      exact (List.mem_eraseP_of_neg (by simpa using hne)).mpr (heligible l hl hle)
    · -- erasing the first match is enough in a list without duplicates
      obtain rfl : serverLocation = gone := Option.some_inj.mp hgone
      have herase : (b.locations.eraseP (·.toServerLocation = serverLocation)).map
          (·.toServerLocation) = (b.locations.map (·.toServerLocation)).erase serverLocation := by
        simp only [List.erase_eq_eraseP, List.eraseP_map, Function.comp_def, beq_eq_decide, eq_comm]
      rw [herase]
      exact hnodup.not_mem_erase

/-- From empty lists, every list stays clean exactly when no update pushes a server twice. -/
theorem clean_iff_pushedOnce (serverGroup : String) (totalNumBuckets : ℕ)
    (calls : List MetadataCall) :
    let s : BucketLists := ⟨List.replicate totalNumBuckets {}, none⟩
    EveryState (step serverGroup) (Clean serverGroup) s calls ↔
      EveryStep (step serverGroup) (PushedOnce serverGroup) s calls := by
  refine everyState_iff_everyStep (fun s c h hc => h.step hc) (fun s h => h) (fun s c _ h => ?_)
    fun b hb => ?_
  · cases c with
    | update _ _ _ perm =>
      intro hin
      simp only [step, if_pos hin] at h
      exact nodup_pushed_iff.mp ((cleanList_shuffled perm).mp (h _ (List.mem_set hin _)))
    | remove => trivial
  · obtain rfl := (List.mem_replicate.mp hb).2
    exact ⟨List.nodup_nil, .nil, nofun, nofun⟩

/-- A location with two empty group names is pushed twice, and one is left when its server is
removed. -/
theorem not_clean_two_groups :
    let location : GroupedLocation := ⟨⟨⟨"host", 40404⟩, true, 0⟩, some ["", ""]⟩
    ¬ EveryState (step "group") (Clean "group") ⟨[{}], none⟩
      [.update 0 [location] id fun _ => .rfl, .remove ⟨"host", 40404⟩] := by
  intro location h
  exact (h.last ⟨[location], []⟩ (List.mem_singleton.mpr rfl)).removed _ rfl (by decide)

end BucketLists

end GeodeNative
