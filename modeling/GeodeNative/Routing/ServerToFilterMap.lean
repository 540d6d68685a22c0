import Mathlib.Algebra.Group.Int.Defs
import Mathlib.Algebra.Group.Nat.Defs
import GeodeNative.Library.Grouping
import GeodeNative.Routing.ClientMetadata

/-!
# Grouping the keys of a bulk operation by server

`getServerToFilterMap` splits the keys of a bulk operation over the servers that have their
buckets. A loop puts each key into the list of the server that was chosen for its bucket;
the first key whose bucket has no valid location makes the whole function return null.

Reading a null routing object, or dividing by a number of buckets that is zero, is undefined
behaviour and the outcome `none`. A random choice is made once for each bucket, so that the
choices are given as a function of the bucket.

The result is always a partition of the keys by the chosen servers. What the choice is
when the primary is asked for, but unknown, is the first secondary: the exact condition
under which keys go to their primaries says so.
-/

namespace GeodeNative

open List Option

open ClientMetadata

/-- What the client knows about the keys of a region: their hash codes and, if there is one,
the partition resolver with the routing object it gives for each key. -/
structure KeyRouting (κ : Type*) where
  hashcode : κ → BitVec 32
  partitionResolver : Option (κ → Option κ)

/-- The keys for each server, under the location that was first chosen for it. -/
abbrev ServerMap (κ : Type*) := List (BucketServerLocation × List κ)

/-- A bulk operation that is to be routed. -/
structure BulkRequest (κ : Type*) where
  region : KeyRouting κ
  metadata : ClientMetadata
  isPrimary : Bool
  /-- the random choice for each bucket -/
  random : ℕ → ℕ

namespace BulkRequest

variable {κ : Type*} {request : BulkRequest κ} {keys : List κ}

/-- The key whose hash code is used. -/
def resolveKey (request : BulkRequest κ) (key : κ) : Option κ :=
  match request.region.partitionResolver with
  | none => some key
  | some getRoutingObject => getRoutingObject key

/-- The bucket of a key, if its computation is defined. -/
def bucketId (request : BulkRequest κ) (key : κ) : Option ℕ :=
  match request.resolveKey key with
  | none => none
  | some resolveKey =>
    let hashcode := (request.region.hashcode resolveKey).toInt
    let total := request.metadata.totalNumBuckets
    if total = 0 ∨ (total = -1 ∧ hashcode = -2 ^ 31) then none
    else some (hashcode.tmod total).natAbs

/-- The variables of the loop. -/
structure LoopState (κ : Type*) where
  serverToFilterMap : ServerMap κ
  buckets : List (ℕ × BucketServerLocation)

/-- The locations by which a map of servers tells them apart. -/
def server (location : BucketServerLocation) : Option ServerLocation :=
  some location.toServerLocation

/-- The body of the loop: `none` is undefined behaviour, `some (.ok none)` the return of
null. -/
def route (request : BulkRequest κ) (s : LoopState κ) (key : κ) :
    Option (Except IllegalStateException (Option (LoopState κ))) :=
  match request.bucketId key with
  | none => none
  | some bucketId =>
    match s.buckets.lookup bucketId with
    | some location =>
      -- a server that is missing here would get a null list
      if Grouping.HasGroup server s.serverToFilterMap (server location) then
        some (.ok (some { s with
          serverToFilterMap :=
            Grouping.push server s.serverToFilterMap (server location) key }))
      else none
    | none =>
      match request.metadata.getServerLocation bucketId request.isPrimary
          (request.random bucketId) none (-1) with
      | .error e => some (.error e)
      | .ok (none, _) => some (.ok none)
      | .ok (some location, _) =>
        if location.isValid then
          let serverToFilterMap :=
            if Grouping.HasGroup server s.serverToFilterMap (server location) then
              s.serverToFilterMap
            else s.serverToFilterMap ++ [(location, [])]
          some (.ok (some
            ⟨Grouping.push server serverToFilterMap (server location) key,
              (bucketId, location) :: s.buckets⟩))
        else some (.ok none)

/-- The loop over the keys. -/
def routeAll (request : BulkRequest κ) :
    LoopState κ → List κ → Option (Except IllegalStateException (Option (LoopState κ)))
  | s, [] => some (.ok (some s))
  | s, key :: keys =>
    match request.route s key with
    | some (.ok (some s)) => routeAll request s keys
    | outcome => outcome

/-- Spreads keys that have no server over the servers of the map. -/
def distribute (keysWhichLeft : List κ) (serverToFilterMap : ServerMap κ) : ServerMap κ :=
  let perServer := keysWhichLeft.length / serverToFilterMap.length + 1
  serverToFilterMap.zipIdx.map fun (node, i) =>
    (node.1, node.2 ++ (keysWhichLeft.drop (i * perServer)).take perServer)

/-- What is returned after the loop. -/
def finish (keysWhichLeft : List κ) (serverToFilterMap : ServerMap κ) : Option (ServerMap κ) :=
  if keysWhichLeft.isEmpty = false ∧ serverToFilterMap.isEmpty = false then
    some (distribute keysWhichLeft serverToFilterMap)
  else if serverToFilterMap.isEmpty then none
  else some serverToFilterMap

/-- The function, for a region whose metadata is cached. Nothing is ever put into
`keysWhichLeft`. -/
def getServerToFilterMap (request : BulkRequest κ) (keys : List κ) :
    Option (Except IllegalStateException (Option (ServerMap κ))) :=
  match request.routeAll ⟨[], []⟩ keys with
  | none => none
  | some (.error e) => some (.error e)
  | some (.ok none) => some (.ok none)
  | some (.ok (some s)) => some (.ok (finish [] s.serverToFilterMap))

/-! ## What a routing should be -/

/-- A server that may get a key: the primary's location, or a known location of its bucket;
any server if the bucket has none. -/
def MayServe (request : BulkRequest κ) (key : κ) (location : BucketServerLocation) : Prop :=
  match request.bucketId key with
  | none => False
  | some bucketId =>
    match request.metadata.adviseServerLocations bucketId,
      request.metadata.advisePrimaryServerLocation bucketId with
    | .ok locations, .ok primary =>
      locations = [] ∨
        if request.isPrimary then primary.bind server = server location
        else server location ∈ locations.map server
    | _, _ => False

instance (request : BulkRequest κ) (key : κ) (location : BucketServerLocation) :
    Decidable (request.MayServe key location) := by
  unfold MayServe
  split
  · infer_instance
  · split <;> infer_instance

/-- The map is a partition of the keys over servers that may get them. -/
def Routes [DecidableEq κ] (request : BulkRequest κ) (keys : List κ) (map : ServerMap κ) : Prop :=
  map.Pairwise (fun a b => server a.1 ≠ server b.1) ∧
    (∀ node ∈ map, ∀ key ∈ node.2, key ∈ keys) ∧
    ∀ key ∈ keys, ∃ node ∈ map, node.2.count key = keys.count key ∧
      (∀ other ∈ map, key ∈ other.2 → other = node) ∧ request.MayServe key node.1
  deriving Decidable

/-- The function returns null or such a partition. -/
def IsRouted [DecidableEq κ] (request : BulkRequest κ) (keys : List κ) : Prop :=
  match request.getServerToFilterMap keys with
  | some (.ok none) => True
  | some (.ok (some map)) => request.Routes keys map
  | _ => False

instance [DecidableEq κ] (request : BulkRequest κ) (keys : List κ) :
    Decidable (request.IsRouted keys) := by
  unfold IsRouted
  split <;> infer_instance

/-! ## The condition -/

/-- The region has buckets, and the routing object of a key is not null. -/
def Routable (request : BulkRequest κ) (key : κ) : Prop :=
  0 < request.metadata.totalNumBuckets ∧ (request.resolveKey key).isSome

/-- The valid location that is chosen for a key. -/
def location (request : BulkRequest κ) (key : κ) : Option BucketServerLocation :=
  (request.bucketId key).bind fun bucketId =>
    request.metadata.chosen request.isPrimary (request.random bucketId) bucketId

/-- The keys are routable up to the first one without a valid location. -/
def Reaches (request : BulkRequest κ) : List κ → Prop
  | [] => True
  | key :: keys =>
    request.Routable key ∧ ((request.location key).isSome → request.Reaches keys)

/-- The first known location of a key's bucket is that of its primary. -/
def FirstIsPrimary (request : BulkRequest κ) (key : κ) : Prop :=
  ∀ bucketId ∈ request.bucketId key,
    ((request.metadata.locations bucketId).find? fun location => location.isPrimary).bind server
      = (request.metadata.locations bucketId).head?.bind server

/-- When the primary is asked for and every key has a location, the first known locations are
those of the primaries. -/
def AtPrimary (request : BulkRequest κ) (keys : List κ) : Prop :=
  request.isPrimary = true → (∀ key ∈ keys, (request.location key).isSome) →
    ∀ key ∈ keys, request.FirstIsPrimary key

/-! ## The loop -/

section Loop

variable {key : κ}

lemma bucketId_of_routable (h : request.Routable key) :
    ∃ bucketId, request.bucketId key = some bucketId ∧
      bucketId < request.metadata.totalNumBuckets.toNat := by
  obtain ⟨_, hsome⟩ := h
  obtain ⟨resolveKey, hresolve⟩ := isSome_iff_exists.mp hsome
  have hne : ¬ (request.metadata.totalNumBuckets = 0 ∨ (request.metadata.totalNumBuckets = -1 ∧
        (request.region.hashcode resolveKey).toInt = -2 ^ 31)) := by omega
  refine ⟨_, by simp only [bucketId, hresolve, if_neg hne]; rfl, ?_⟩
  rw [Int.natAbs_tmod]
  have hlt := Nat.mod_lt (request.region.hashcode resolveKey).toInt.natAbs
    (show 0 < request.metadata.totalNumBuckets.natAbs by omega)
  omega

variable {s : LoopState κ} {location : BucketServerLocation}

/-- The function stops with an error, or nothing is defined, at a key that is not routable;
`buckets` is empty when there are no buckets. -/
lemma route_of_not_routable (h : ¬ request.Routable key)
    (hbuckets : request.metadata.totalNumBuckets ≤ 0 → s.buckets = []) :
    ∀ outcome, request.route s key ≠ some (.ok outcome) := by
  unfold route
  cases hbucket : request.bucketId key with
  | none => nofun
  | some bucketId =>
    have hresolve : (request.resolveKey key).isSome := by
      unfold BulkRequest.bucketId at hbucket
      cases hkey : request.resolveKey key with
      | none =>
        rw [hkey] at hbucket
        cases hbucket
      | some => rfl
    have htotal : request.metadata.totalNumBuckets ≤ 0 := by
      by_contra hpos
      exact h ⟨by omega, hresolve⟩
    simp only [hbuckets htotal, getServerLocation_of_le htotal]
    nofun

/-- Two keys with the same bucket have the same location. -/
lemma location_eq {bucketId : ℕ} (h : request.bucketId key = some bucketId) :
    request.location key
      = request.metadata.chosen request.isPrimary (request.random bucketId) bucketId := by
  rw [location, h]
  rfl

/-- The chosen location may serve a key, unless it should be the primary and is not. -/
lemma mayServe_iff {chosen : BucketServerLocation}
    (hchosen : request.location key = some chosen) (hserver : server location = server chosen) :
    request.MayServe key location ↔ (request.isPrimary = true → request.FirstIsPrimary key) := by
  unfold MayServe FirstIsPrimary
  cases hbucket : request.bucketId key with
  | none =>
    rw [BulkRequest.location, hbucket] at hchosen
    cases hchosen
  | some bucketId =>
    rw [location_eq hbucket] at hchosen
    have hmem := mem_locations_of_chosen hchosen
    have hne : request.metadata.locations bucketId ≠ [] := ne_nil_of_mem hmem
    have hlt := lt_of_mem_locations hmem
    simp only [advisePrimaryServerLocation, adviseServerLocations_eq hlt, mem_def, some.injEq,
      forall_eq', hne, hserver]
    cases hprimary : request.isPrimary with
    | false => simpa using ⟨chosen, hmem, rfl⟩
    | true =>
      rw [hprimary] at hchosen
      have hhead : (request.metadata.locations bucketId).head? = some chosen :=
        (Option.filter_eq_some_iff.mp hchosen).1
      rw [hhead]
      simp

/-- What the loop has done with the keys before. -/
structure Routed (request : BulkRequest κ) (keys : List κ) (s : LoopState κ) : Prop where
  grouped : Grouping.Grouped server (fun key => (request.location key).bind server)
    keys s.serverToFilterMap
  located : ∀ key ∈ keys, (request.location key).isSome
  buckets : ∀ bucketId location, s.buckets.lookup bucketId = some location →
    ∃ key ∈ keys, request.bucketId key = some bucketId ∧ request.location key = some location

lemma routed_nil : request.Routed [] (⟨[], []⟩ : LoopState κ) where
  grouped := Grouping.grouped_nil
  located := by simp
  buckets := by simp

section

variable (h : request.Routed keys s)

include h

/-- A key with a location is added to the list of its server. -/
lemma Routed.push (hlocation : request.location key = some location)
    {map : ServerMap κ} {buckets : List (ℕ × BucketServerLocation)}
    (hgrouped : Grouping.Grouped server
      (fun key => (request.location key).bind server) keys map)
    (hgroup : Grouping.HasGroup server map (server location))
    (hbuckets : ∀ bucketId location', buckets.lookup bucketId = some location' →
      s.buckets.lookup bucketId = some location' ∨
        (request.bucketId key = some bucketId ∧ location' = location)) :
    request.Routed (keys ++ [key])
      ⟨Grouping.push server map (server location) key, buckets⟩ where
  grouped := by
    have hserver : (request.location key).bind server = server location := by
      rw [hlocation]
      rfl
    rw [← hserver] at hgroup ⊢
    exact hgrouped.push (f := fun key => (request.location key).bind server) hgroup
  located := by
    intro key' hkey'
    rcases mem_append.mp hkey' with hold | hnew
    · exact h.located key' hold
    · rw [mem_singleton.mp hnew, hlocation]
      rfl
  buckets := by
    intro bucketId location' hlookup
    rcases hbuckets bucketId location' hlookup with hold | ⟨hbucket, rfl⟩
    · obtain ⟨key', hkey', hfound⟩ := h.buckets bucketId location' hold
      exact ⟨key', mem_append_left _ hkey', hfound⟩
    · exact ⟨key, mem_append_right _ mem_cons_self, hbucket, hlocation⟩

/-- The loop goes on exactly when the key has a location. -/
lemma Routed.route (hkey : request.Routable key) :
    (request.location key = none ∧ request.route s key = some (.ok none)) ∨
      ((request.location key).isSome ∧ ∃ s', request.route s key = some (.ok (some s')) ∧
        request.Routed (keys ++ [key]) s') := by
  obtain ⟨bucketId, hbucket, hlt⟩ := bucketId_of_routable hkey
  unfold BulkRequest.route
  simp only [hbucket]
  cases hlookup : s.buckets.lookup bucketId with
  | some location =>
    -- the bucket was seen before: its server has a list
    obtain ⟨key', hkey', hbucket', hlocation'⟩ := h.buckets bucketId location hlookup
    have hlocation : request.location key = some location := by
      rw [location_eq hbucket, ← location_eq hbucket', hlocation']
    have hgroup : Grouping.HasGroup server s.serverToFilterMap (server location) := by
      have hcomplete := h.grouped.complete key' hkey'
      rw [hlocation'] at hcomplete
      exact hcomplete
    refine .inr ⟨by rw [hlocation]; rfl, ?_⟩
    simp only [if_pos hgroup]
    exact ⟨_, rfl, h.push hlocation h.grouped hgroup fun _ _ => .inl⟩
  | none =>
    obtain ⟨location?, _, hget, hchosen⟩ := getServerLocation_eq hlt
      request.isPrimary (request.random bucketId) (-1)
    simp only [hget]
    rw [← location_eq hbucket] at hchosen
    cases location? with
    | none => exact .inl ⟨hchosen, rfl⟩
    | some location =>
      by_cases hvalid : location.isValid = true
      · have hlocation : request.location key = some location := by
          rw [hchosen, filter_some, if_pos hvalid]
        refine .inr ⟨by rw [hlocation]; rfl, ?_⟩
        simp only [if_pos hvalid]
        have hbuckets : ∀ bucketId' location',
            ((bucketId, location) :: s.buckets).lookup bucketId' = some location' →
              s.buckets.lookup bucketId' = some location' ∨
                (request.bucketId key = some bucketId' ∧ location' = location) := by
          intro bucketId' _ hlookup'
          rw [lookup_cons] at hlookup'
          by_cases heq : bucketId' = bucketId
          · subst heq
            simp only [BEq.rfl] at hlookup'
            cases hlookup'
            exact .inr ⟨hbucket, rfl⟩
          · simp only [beq_eq_false_iff_ne.mpr heq] at hlookup'
            exact .inl hlookup'
        by_cases hgroup : Grouping.HasGroup server s.serverToFilterMap (server location)
        · simp only [if_pos hgroup]
          exact ⟨_, rfl, h.push hlocation h.grouped hgroup hbuckets⟩
        · simp only [if_neg hgroup]
          refine ⟨_, rfl, h.push hlocation (h.grouped.append hgroup) ?_ hbuckets⟩
          exact ⟨_, mem_append_right _ mem_cons_self, rfl⟩
      · refine .inl ⟨?_, by simp only [if_neg hvalid]⟩
        rw [hchosen, filter_some, if_neg hvalid]

/-- Without buckets nothing has been located. -/
lemma Routed.buckets_eq_nil (htotal : request.metadata.totalNumBuckets ≤ 0) : s.buckets = [] := by
  cases hbuckets : s.buckets with
  | nil => rfl
  | cons node buckets =>
    have hlookup : s.buckets.lookup node.1 = some node.2 := by
      rw [hbuckets, lookup_cons]
      simp only [BEq.rfl]
    obtain ⟨_, -, hbucket, hlocation⟩ := h.buckets node.1 node.2 hlookup
    rw [location_eq hbucket] at hlocation
    have hlt := lt_of_mem_locations (mem_locations_of_chosen hlocation)
    rw [Int.toNat_eq_zero.mpr htotal] at hlt
    exact absurd hlt (Nat.not_lt_zero _)

end

/-- The whole loop: it ends well exactly when the keys are routable up to the first one
without a location, and returns null if there is one. -/
lemma Routed.routeAll {done : List κ} (h : request.Routed done s) (keys : List κ) :
    (¬ request.Reaches keys ∧ ∀ outcome, request.routeAll s keys ≠ some (.ok outcome)) ∨
      (request.Reaches keys ∧ (∃ key ∈ keys, request.location key = none) ∧
        request.routeAll s keys = some (.ok none)) ∨
      (request.Reaches keys ∧ ∃ s', request.routeAll s keys = some (.ok (some s')) ∧
        request.Routed (done ++ keys) s') := by
  induction keys generalizing s done with
  | nil => exact .inr (.inr ⟨trivial, s, rfl, by rwa [append_nil]⟩)
  | cons key keys ih =>
    by_cases hkey : request.Routable key
    · rcases h.route hkey with ⟨hnone, hroute⟩ | ⟨hsome, s', hroute, hrouted⟩
      · refine .inr (.inl ⟨⟨hkey, ?_⟩, ⟨key, mem_cons_self, hnone⟩, ?_⟩)
        · rw [hnone]
          nofun
        · simp only [BulkRequest.routeAll, hroute]
      · have hstep : request.routeAll s (key :: keys) = request.routeAll s' keys := by
          simp only [BulkRequest.routeAll, hroute]
        have hreaches : request.Reaches (key :: keys) ↔ request.Reaches keys :=
          ⟨fun hr => hr.2 hsome, fun hr => ⟨hkey, fun _ => hr⟩⟩
        rw [hstep, hreaches]
        rcases ih hrouted with hbad | ⟨hr, ⟨key', hkey', hnone⟩, hnull⟩ | ⟨hr, s'', hall, hrouted'⟩
        · exact .inl hbad
        · exact .inr (.inl ⟨hr, ⟨key', mem_cons_of_mem _ hkey', hnone⟩, hnull⟩)
        · rw [append_assoc] at hrouted'
          exact .inr (.inr ⟨hr, s'', hall, hrouted'⟩)
    · refine .inl ⟨fun hr => hkey hr.1, fun outcome => ?_⟩
      have hroute := route_of_not_routable hkey h.buckets_eq_nil
      simp only [BulkRequest.routeAll]
      cases hs : request.route s key with
      | none => nofun
      | some result =>
        cases result with
        | error => nofun
        | ok outcome' => exact absurd hs (hroute outcome')

end Loop

/-! ## The routing -/

section Routing

variable [DecidableEq κ]

/-- The groups of the loop are a routing of the keys exactly when primaries are where they
should be. -/
lemma Routed.routes_iff {s : LoopState κ} (h : request.Routed keys s) :
    request.Routes keys s.serverToFilterMap ↔ request.AtPrimary keys := by
  have hserve : ∀ key ∈ keys, ∀ location : BucketServerLocation,
      server location = (request.location key).bind server → (request.MayServe key location ↔
          (request.isPrimary = true → request.FirstIsPrimary key)) := by
    intro key hkey _ hserver
    obtain ⟨_, hchosen⟩ := isSome_iff_exists.mp (h.located key hkey)
    rw [hchosen] at hserver
    exact mayServe_iff hchosen hserver
  constructor
  · rintro ⟨-, -, heach⟩ hprimary - key hkey
    obtain ⟨node, hnode, -, honly, hmay⟩ := heach key hkey
    obtain ⟨group, hmem, hlabel, hcount, -⟩ := h.grouped.exists_group hkey
    have hin : key ∈ group.2 := by
      rw [← count_pos_iff, hcount, count_pos_iff]
      exact hkey
    rw [honly group hmem hin] at hlabel
    exact (hserve key hkey node.1 hlabel).mp hmay hprimary
  · intro hat
    refine ⟨h.grouped.distinct, fun node hnode key hkey => ?_, fun key hkey => ?_⟩
    · exact ((h.grouped.mem_group hnode).mp hkey).1
    · obtain ⟨node, hnode, hlabel, hcount, honly⟩ := h.grouped.exists_group hkey
      refine ⟨node, hnode, hcount, honly, ?_⟩
      exact (hserve key hkey node.1 hlabel).mpr fun hprimary =>
        hat hprimary h.located key hkey

/-- The function returns null or a partition of the keys over the right servers exactly when
the keys are routable and primaries, if asked for, are known. -/
theorem isRouted_iff (request : BulkRequest κ) (keys : List κ) :
    request.IsRouted keys ↔ request.Reaches keys ∧ request.AtPrimary keys := by
  unfold IsRouted getServerToFilterMap
  rcases routed_nil.routeAll keys with ⟨hnot, hbad⟩ | ⟨hr, ⟨key, hkey, hnone⟩, hnull⟩ |
    ⟨hr, s, hall, hrouted⟩
  · -- undefined behaviour or an exception
    refine iff_of_false ?_ fun h => hnot h.1
    cases hs : request.routeAll ⟨[], []⟩ keys with
    | none => exact id
    | some result =>
      cases result with
      | error => exact id
      | ok outcome => exact absurd hs (hbad outcome)
  · -- a key without a location: null
    simp only [hnull, true_iff]
    refine ⟨hr, fun _ hall => ?_⟩
    have hsome := hall key hkey
    rw [hnone] at hsome
    cases hsome
  · rw [nil_append] at hrouted
    simp only [hall, hr, true_and]
    unfold finish
    cases hmap : s.serverToFilterMap with
    | nil =>
      -- no servers, hence no keys
      simp only [isEmpty_nil, reduceCtorEq, and_false, if_false, if_true, true_iff]
      intro _ _ key hkey
      obtain ⟨_, hgroup, -⟩ := hrouted.grouped.complete key hkey
      rw [hmap] at hgroup
      cases hgroup
    | cons =>
      simp only [isEmpty_cons, reduceCtorEq]
      rw [← hmap]
      exact hrouted.routes_iff

/-- A region with one bucket, of which only a secondary is known. -/
def secondaryOnly : ClientMetadata :=
  ⟨1, [[⟨⟨"host", 40404⟩, false, 1⟩]], rfl⟩

/-- The primary is asked for and the key is sent to a secondary; a null routing object is
dereferenced. -/
theorem not_isRouted :
    ¬ (⟨⟨fun _ => 5, none⟩, secondaryOnly, true, fun _ => 0⟩ : BulkRequest ℕ).IsRouted [7] ∧
      ¬ (⟨⟨fun _ => 5, some fun _ => none⟩, secondaryOnly, false, fun _ => 0⟩ :
        BulkRequest ℕ).IsRouted [7] := by
  decide

end Routing

end BulkRequest

/-! ## The bucket of a single key

The resolver of a region is called with an event. `getBucketServerLocation` puts the value and
the callback argument of the operation into it, `getServerToFilterMap` leaves both null, so that
a resolver that reads them may answer differently. A bucket is a remainder of a hash code, and
the two functions take it by different numbers for a fixed partition; what they agree on is said
over the hash codes and these numbers. -/

/-- What a partition resolver is told about an operation. -/
structure EntryEvent (κ α : Type*) where
  key : κ
  value : Option α
  callbackArgument : Option α

/-- A partition resolver: the routing object for an event and, for the resolver of fixed
partitions, the name of the partition. -/
inductive PartitionResolver (κ α : Type*)
  | custom (getRoutingObject : EntryEvent κ α → Option κ)
  | fixed (getRoutingObject : EntryEvent κ α → Option κ)
    (getPartitionName : EntryEvent κ α → String)

/-- The routing object for an event, which may be null. -/
def PartitionResolver.getRoutingObject {κ α : Type*} :
    PartitionResolver κ α → EntryEvent κ α → Option κ
  | .custom getRoutingObject | .fixed getRoutingObject _ => getRoutingObject

/-- A region whose operations are to be routed: the hash codes of its keys, its resolver, and
the metadata with the number of buckets and the first bucket of each fixed partition. -/
structure FixedRegion (κ α : Type*) where
  hashcode : κ → BitVec 32
  resolver : Option (PartitionResolver κ α)
  metadata : ClientMetadata
  fpaMap : String → Option (ℤ × ℤ)
  /-- the number of buckets is an `int` -/
  natAbs_total_le : metadata.totalNumBuckets.natAbs ≤ 2 ^ 31

/-- What a function does about the bucket of a key. -/
inductive BucketUse
  | bucket (bucketId : ℤ)
  /-- it returns without a location -/
  | givesUp
  | throws (e : IllegalStateException)
  /-- it dereferences null, divides by zero or overflows -/
  | undefined
  deriving DecidableEq

namespace FixedRegion

variable {κ α : Type*} (region : FixedRegion κ α)

/-- The key whose hash code is used for an event. -/
def resolveKey (event : EntryEvent κ α) : Option κ :=
  match region.resolver with
  | none => some event.key
  | some resolver => resolver.getRoutingObject event

/-- The remainder of a hash code is not defined. -/
def Undivided (hashcode : BitVec 32) (n : ℤ) : Prop :=
  n = 0 ∨ (n = -1 ∧ hashcode.toInt = -2 ^ 31)
deriving Decidable

/-- The value of `std::abs(hashcode % n)`, unless it is undefined. -/
def absMod (hashcode : BitVec 32) (n : ℤ) : Option ℕ :=
  if Undivided hashcode n then none else some (hashcode.toInt.tmod n).natAbs

/-- `assignFixedBucketId`, and what its caller makes of the result. -/
def assignFixedBucketId (partitionName : String) (resolvekey : κ) : BucketUse :=
  match region.fpaMap partitionName with
  | none => .givesUp
  | some (numBuckets, start) =>
    match absMod (region.hashcode resolvekey) numBuckets with
    | none => .undefined
    | some bucketId =>
      if 2 ^ 31 ≤ bucketId + start then .undefined
      else if bucketId + start = -1 then .givesUp
      else .bucket (bucketId + start)

/-- The bucket that `getBucketServerLocation` asks the metadata for. -/
def singleBucket (event : EntryEvent κ α) : BucketUse :=
  match region.resolveKey event with
  | none => .throws ⟨"The RoutingObject returned by PartitionResolver is null."⟩
  | some resolvekey =>
    match region.resolver with
    | some (.fixed _ getPartitionName) =>
      region.assignFixedBucketId (getPartitionName event) resolvekey
    | _ =>
      if 0 < region.metadata.totalNumBuckets then
        .bucket ((region.hashcode resolvekey).toInt.tmod
          region.metadata.totalNumBuckets).natAbs
      else .bucket 0

/-- The event for which `getServerToFilterMap` asks the resolver. -/
def bulkEvent (key : κ) : EntryEvent κ α :=
  ⟨key, none, none⟩

/-- A bulk operation in the region. -/
def toBulkRequest (isPrimary : Bool) (random : ℕ → ℕ) : BulkRequest κ where
  region :=
    { hashcode := region.hashcode
      partitionResolver :=
        region.resolver.map fun resolver key => resolver.getRoutingObject (bulkEvent key) }
  metadata := region.metadata
  isPrimary := isPrimary
  random := random

/-- The bucket that `getServerToFilterMap` asks the metadata for; it depends neither on which
location is asked for nor on the random choices. -/
def bulkBucket (key : κ) : BucketUse :=
  match (region.toBulkRequest true fun _ => 0).bucketId key with
  | none => .undefined
  | some bucketId => .bucket bucketId

/-- A function refuses a key: it throws or returns, or the metadata throws for the bucket. -/
def Refuses : BucketUse → Prop
  | .bucket bucketId => bucketId < 0 ∨ region.metadata.totalNumBuckets ≤ bucketId
  | .givesUp | .throws _ => True
  | .undefined => False

/-- Both functions use the same bucket for the key of an operation, and both refuse where a
routing object is null or there are no buckets. -/
def BucketsAgree (event : EntryEvent κ α) : Prop :=
  if region.resolveKey event = none ∨ region.resolveKey (bulkEvent event.key) = none ∨
      region.metadata.totalNumBuckets = 0 then
    region.Refuses (region.singleBucket event) ∧ region.Refuses (region.bulkBucket event.key)
  else ∃ bucketId, region.singleBucket event = .bucket bucketId ∧
    region.bulkBucket event.key = .bucket bucketId

/-- What the hash codes of the routing object `resolvekey` for the operation and of the object
`bulkKey` for its key alone have to satisfy. Without fixed partitions they are equal up to the
sign and a multiple of the number of buckets; a fixed partition starts at the difference of the
remainder by the number of all buckets and that by its own. -/
def Congruent (event : EntryEvent κ α) (resolvekey bulkKey : κ) : Prop :=
  let total := region.metadata.totalNumBuckets
  let hashcode := (region.hashcode resolvekey).toInt
  let bulkHashcode := (region.hashcode bulkKey).toInt
  match region.resolver with
  | some (.fixed _ getPartitionName) =>
    ∃ numBuckets start, region.fpaMap (getPartitionName event) = some (numBuckets, start) ∧
      ¬ Undivided (region.hashcode resolvekey) numBuckets ∧
      start = (bulkHashcode.natAbs % total.natAbs : ℕ) - (hashcode.natAbs % numBuckets.natAbs : ℕ)
  | _ =>
    if 0 < total then total ∣ (hashcode.natAbs : ℤ) - bulkHashcode.natAbs
    else total ∣ bulkHashcode

/-- The key alone has a routing object, a remainder of its hash code by the number of buckets
is defined, and the routing object for the operation has a congruent hash code. Where that
routing object is null there is no bucket at all: the number of buckets is negative. -/
def Resolved (event : EntryEvent κ α) : Prop :=
  ∃ bulkKey, region.resolveKey (bulkEvent event.key) = some bulkKey ∧
    ¬ Undivided (region.hashcode bulkKey) region.metadata.totalNumBuckets ∧
    match region.resolveKey event with
    | none => region.metadata.totalNumBuckets < 0
    | some resolvekey => region.Congruent event resolvekey bulkKey

variable {region} {event : EntryEvent κ α} {resolvekey bulkKey key : κ}

/-- The routing object of a bulk operation is that of the event with nulls. -/
lemma resolveKey_toBulkRequest (isPrimary : Bool) (random : ℕ → ℕ) (key : κ) :
    (region.toBulkRequest isPrimary random).resolveKey key =
      region.resolveKey (bulkEvent key) := by
  unfold BulkRequest.resolveKey resolveKey toBulkRequest
  cases region.resolver <;> rfl

/-- Bulk routing takes the remainder of the hash code by the number of buckets. -/
lemma bulkBucket_eq (hkey : region.resolveKey (bulkEvent key) = some bulkKey) :
    region.bulkBucket key =
      match absMod (region.hashcode bulkKey) region.metadata.totalNumBuckets with
      | none => .undefined
      | some bucketId => .bucket bucketId := by
  rw [bulkBucket, BulkRequest.bucketId, resolveKey_toBulkRequest, hkey]
  rfl

/-- A null routing object is read by bulk routing. -/
lemma bulkBucket_eq_undefined (hkey : region.resolveKey (bulkEvent key) = none) :
    region.bulkBucket key = .undefined := by
  rw [bulkBucket, BulkRequest.bucketId, resolveKey_toBulkRequest, hkey]

/-- The remainders of two hash codes by a number are equal up to the sign exactly when it
divides the difference of their absolute values. -/
lemma natAbs_tmod_eq_iff (a b n : ℤ) :
    (a.tmod n).natAbs = (b.tmod n).natAbs ↔ n ∣ (a.natAbs : ℤ) - b.natAbs := by
  rw [Int.natAbs_tmod, Int.natAbs_tmod, ← Int.natCast_inj, Int.natCast_emod, Int.natCast_emod,
    Int.emod_eq_emod_iff_emod_sub_eq_zero, ← Int.dvd_iff_emod_eq_zero, Int.natAbs_dvd]

/-- The bucket of a fixed partition is a given one that is in the range of the type exactly when
the partition starts at the difference. -/
lemma assignFixedBucketId_eq_bucket_iff {partitionName : String} {bucketId : ℕ}
    (hbucket : bucketId < 2 ^ 31) :
    region.assignFixedBucketId partitionName resolvekey = .bucket bucketId ↔
      ∃ numBuckets start, region.fpaMap partitionName = some (numBuckets, start) ∧
        ¬ Undivided (region.hashcode resolvekey) numBuckets ∧
        start = bucketId -
          ((region.hashcode resolvekey).toInt.natAbs % numBuckets.natAbs : ℕ) := by
  unfold assignFixedBucketId
  cases region.fpaMap partitionName with
  | none => simp
  | some attList =>
    obtain ⟨numBuckets, start⟩ := attList
    have hone : ∀ P : ℤ → ℤ → Prop,
        (∃ n m, some (numBuckets, start) = some (n, m) ∧ P n m) ↔ P numBuckets start := by simp
    rw [hone]
    by_cases hmod : Undivided (region.hashcode resolvekey) numBuckets
    · simp [absMod, hmod]
    · simp only [absMod, hmod, if_false, not_false_eq_true, true_and, Int.natAbs_tmod]
      split_ifs with hover hminus <;> simp only [false_iff, BucketUse.bucket.injEq]
      all_goals omega

/-- A remainder by the number of buckets is less than that number. -/
lemma natAbs_tmod_lt (hashcode : BitVec 32) (n : ℤ) (hmod : ¬ Undivided hashcode n) :
    (hashcode.toInt.tmod n).natAbs < n.natAbs := by
  rw [Int.natAbs_tmod]
  exact Nat.mod_lt _ (Int.natAbs_pos.mpr fun h => hmod (.inl h))

/-- What single-key routing makes of a routing object is the bucket of bulk routing exactly when
the hash codes are congruent. -/
lemma singleBucket_eq_iff (hkey : region.resolveKey event = some resolvekey)
    (hmod : ¬ Undivided (region.hashcode bulkKey) region.metadata.totalNumBuckets) :
    region.singleBucket event = .bucket
        ((region.hashcode bulkKey).toInt.tmod region.metadata.totalNumBuckets).natAbs ↔
      region.Congruent event resolvekey bulkKey := by
  have hashed : (if 0 < region.metadata.totalNumBuckets then
        BucketUse.bucket ((region.hashcode resolvekey).toInt.tmod
          region.metadata.totalNumBuckets).natAbs
      else .bucket 0) = .bucket
        ((region.hashcode bulkKey).toInt.tmod region.metadata.totalNumBuckets).natAbs ↔
      if 0 < region.metadata.totalNumBuckets then
        region.metadata.totalNumBuckets ∣ ((region.hashcode resolvekey).toInt.natAbs : ℤ) -
          (region.hashcode bulkKey).toInt.natAbs
      else region.metadata.totalNumBuckets ∣ (region.hashcode bulkKey).toInt := by
    split_ifs with hpos
    · rw [BucketUse.bucket.injEq, Int.natCast_inj, natAbs_tmod_eq_iff]
    · rw [BucketUse.bucket.injEq, Int.dvd_iff_tmod_eq_zero]
      omega
  unfold singleBucket Congruent
  simp only [hkey]
  cases region.resolver with
  | none => exact hashed
  | some resolver =>
    cases resolver with
    | custom => exact hashed
    | fixed getRoutingObject getPartitionName =>
      rw [← Int.natAbs_tmod]
      exact assignFixedBucketId_eq_bucket_iff
        (lt_of_lt_of_le (natAbs_tmod_lt _ _ hmod) region.natAbs_total_le)

/-- Single-key and bulk routing agree about the key of an operation exactly when the routing
objects of both have congruent hash codes. -/
theorem bucketsAgree_iff_resolved (region : FixedRegion κ α) (event : EntryEvent κ α) :
    region.BucketsAgree event ↔ region.Resolved event := by
  unfold BucketsAgree Resolved
  cases hbulk : region.resolveKey (bulkEvent event.key) with
  | none => simp [bulkBucket_eq_undefined hbulk, Refuses]
  | some bulkKey =>
    by_cases hmod : Undivided (region.hashcode bulkKey) region.metadata.totalNumBuckets
    · -- bulk routing divides by zero, or overflows
      have hundefined : region.bulkBucket event.key = .undefined := by
        rw [bulkBucket_eq hbulk, absMod, if_pos hmod]
      simp [hundefined, Refuses, hmod]
    · have hbucket : region.bulkBucket event.key = .bucket
          ((region.hashcode bulkKey).toInt.tmod region.metadata.totalNumBuckets).natAbs := by
        rw [bulkBucket_eq hbulk, absMod, if_neg hmod]
      have htotal : region.metadata.totalNumBuckets ≠ 0 := fun h => hmod (.inl h)
      cases hkey : region.resolveKey event with
      | none =>
        have hthrows : region.singleBucket event =
            .throws ⟨"The RoutingObject returned by PartitionResolver is null."⟩ := by
          rw [singleBucket, hkey]
        have hlt := natAbs_tmod_lt _ _ hmod
        simp only [true_or, if_true, hthrows, hbucket, Refuses, true_and, some.injEq,
          exists_eq_left', hmod, not_false_eq_true]
        omega
      | some resolvekey =>
        simp [htotal, hbucket, hmod, ← singleBucket_eq_iff hkey hmod]

/-- Two buckets that differ are no agreement, where the metadata has that of bulk routing. -/
lemma not_bucketsAgree_of_ne {s b : ℤ} (hsingle : region.singleBucket event = .bucket s)
    (hbulk : region.bulkBucket event.key = .bucket b) (hne : s ≠ b)
    (hrange : 0 ≤ b ∧ b < region.metadata.totalNumBuckets) : ¬ region.BucketsAgree event := by
  unfold BucketsAgree
  rw [hsingle, hbulk]
  split_ifs
  · rintro ⟨-, hless | hmore⟩ <;> omega
  · rintro ⟨bucketId, h, h'⟩
    exact hne (BucketUse.bucket.inj (h.trans h'.symm))

/-- Reading through null is no refusal. -/
lemma not_bucketsAgree_of_undefined (hbulk : region.bulkBucket event.key = .undefined) :
    ¬ region.BucketsAgree event := by
  unfold BucketsAgree
  rw [hbulk]
  split_ifs
  · exact And.right
  · rintro ⟨bucketId, -, h⟩
    cases h

/-- Two buckets that no location is known of. -/
def twoBuckets : ClientMetadata :=
  ⟨2, [[], []], rfl⟩

lemma natAbs_total_twoBuckets_le : twoBuckets.totalNumBuckets.natAbs ≤ 2 ^ 31 := by
  decide

/-- A region with two buckets and a resolver; its fixed partition is the second bucket. -/
def resolvedBy (resolver : PartitionResolver ℕ ℕ) : FixedRegion ℕ ℕ :=
  ⟨fun key => key, some resolver, twoBuckets, fun _ => some (1, 1), natAbs_total_twoBuckets_le⟩

/-- A key of a fixed partition whose bucket is not that of its hash code, a resolver that reads
the value, and a resolver without a routing object: bulk routing reads through null. -/
theorem not_bucketsAgree :
    ¬ (resolvedBy (.fixed (fun event => some event.key) fun _ => "")).BucketsAgree
        ⟨2, none, none⟩ ∧
      ¬ (resolvedBy (.custom fun event => some (event.value.getD event.key))).BucketsAgree
        ⟨2, some 5, none⟩ ∧
      ¬ (resolvedBy (.custom fun _ => none)).BucketsAgree ⟨2, none, none⟩ := by
  refine ⟨not_bucketsAgree_of_ne (s := 1) (b := 0) ?_ ?_ ?_ ?_,
    not_bucketsAgree_of_ne (s := 1) (b := 0) ?_ ?_ ?_ ?_,
    not_bucketsAgree_of_undefined ?_⟩ <;> decide

end FixedRegion

end GeodeNative
