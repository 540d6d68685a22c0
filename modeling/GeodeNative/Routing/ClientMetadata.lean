import Mathlib.Data.Int.Basic
import Mathlib.Data.List.Basic

/-!
# The metadata of a partitioned region

A client that knows where the buckets of a partitioned region are stored sends a request for
a key straight to the server that has its bucket. `ClientMetadata` holds, for every bucket,
the known locations; the first one is the primary when the primary is known.

The constructor makes one empty list per bucket, and later updates replace these lists. A
server may announce any number of buckets, also none, so that the number is an integer; the
lists are then as many as it says, or none.
-/

namespace GeodeNative

/-- Where a server is. Maps of locations compare nothing else. -/
structure ServerLocation where
  serverName : String
  port : ℤ
  deriving DecidableEq

/-- A server as the location of a bucket. -/
structure BucketServerLocation extends ServerLocation where
  isPrimary : Bool
  version : BitVec 8
  deriving DecidableEq

/-- Whether the location names a server. -/
def ServerLocation.isValid (location : ServerLocation) : Bool :=
  !location.serverName.isEmpty && 0 ≤ location.port

/-- The exception that the metadata throws, with its message. -/
structure IllegalStateException where
  message : String
  deriving DecidableEq

/-- The locations of the buckets of a region. -/
structure ClientMetadata where
  totalNumBuckets : ℤ
  bucketServerLocationsList : List (List BucketServerLocation)
  length_eq : bucketServerLocationsList.length = totalNumBuckets.toNat

namespace ClientMetadata

section

variable (m : ClientMetadata) (bucketId : ℕ)

/-- Throws when the bucket id is out of range. -/
def checkBucketId : Except IllegalStateException Unit :=
  if m.bucketServerLocationsList.length ≤ bucketId then
    .error ⟨"ClientMetadata::getServerLocation(): BucketId out of range."⟩
  else .ok ()

/-- The known locations of a bucket; empty for a bucket that is out of range. -/
def locations : List BucketServerLocation :=
  m.bucketServerLocationsList.getD bucketId []

/-- The version that `getServerLocation` hands back with the first location. -/
def versionOf (first : BucketServerLocation) (version : BitVec 8) : BitVec 8 :=
  if first.isValid then if first.isPrimary then first.version else version else first.version

/-- Chooses a location of a bucket: the first one, or one at random. Both results are
reference parameters, so that an empty bucket leaves them as they are. -/
def getServerLocation (tryPrimary : Bool) (random : ℕ)
    (serverLocation : Option BucketServerLocation) (version : BitVec 8) :
    Except IllegalStateException (Option BucketServerLocation × BitVec 8) :=
  match m.checkBucketId bucketId with
  | .error e => .error e
  | .ok () =>
    match m.locations bucketId with
    | [] => .ok (serverLocation, version)
    | first :: rest =>
      if tryPrimary then .ok (some first, versionOf first version)
      else
        .ok ((first :: rest)[random % (first :: rest).length]?, versionOf first version)

/-- All the known locations of a bucket. -/
def adviseServerLocations : Except IllegalStateException (List BucketServerLocation) :=
  match m.checkBucketId bucketId with
  | .error e => .error e
  | .ok () => .ok (m.locations bucketId)

/-- The known primary of a bucket. -/
def advisePrimaryServerLocation : Except IllegalStateException (Option BucketServerLocation) :=
  match m.adviseServerLocations bucketId with
  | .error e => .error e
  | .ok locations => .ok (locations.find? fun location => location.isPrimary)

/-! ## What is chosen -/

/-- The location that is chosen for a bucket, if it is a valid one. -/
def chosen (tryPrimary : Bool) (random bucketId : ℕ) : Option BucketServerLocation :=
  (if tryPrimary then (m.locations bucketId).head?
    else (m.locations bucketId)[random % (m.locations bucketId).length]?).filter
      fun location => location.isValid

end

variable {m : ClientMetadata} {bucketId : ℕ}

section

variable (h : bucketId < m.totalNumBuckets.toNat)

include h

lemma checkBucketId_of_lt : m.checkBucketId bucketId = .ok () := by
  rw [checkBucketId, if_neg]
  rw [m.length_eq]
  exact Nat.not_le.mpr h

/-- What `getServerLocation` chooses when it is given no location. -/
lemma getServerLocation_eq (tryPrimary : Bool) (random : ℕ) (version : BitVec 8) :
    ∃ location version',
      m.getServerLocation bucketId tryPrimary random none version = .ok (location, version') ∧
        m.chosen tryPrimary random bucketId
          = location.filter fun location => location.isValid := by
  rw [getServerLocation, checkBucketId_of_lt h, chosen]
  cases hlocations : m.locations bucketId with
  | nil => exact ⟨none, version, rfl, by cases tryPrimary <;> rfl⟩
  | cons first =>
    cases tryPrimary with
    | true => exact ⟨some first, versionOf first version, rfl, rfl⟩
    | false => exact ⟨_, versionOf first version, rfl, rfl⟩

lemma adviseServerLocations_eq : m.adviseServerLocations bucketId = .ok (m.locations bucketId) := by
  rw [adviseServerLocations, checkBucketId_of_lt h]

end

/-- Without buckets no bucket is in range. -/
lemma getServerLocation_of_le (h : m.totalNumBuckets ≤ 0) (tryPrimary : Bool) (random : ℕ)
    (serverLocation : Option BucketServerLocation) (version : BitVec 8) :
    m.getServerLocation bucketId tryPrimary random serverLocation version
      = .error ⟨"ClientMetadata::getServerLocation(): BucketId out of range."⟩ := by
  have hlength : m.bucketServerLocationsList.length ≤ bucketId := by
    rw [m.length_eq, Int.toNat_eq_zero.mpr h]
    exact Nat.zero_le _
  rw [getServerLocation, checkBucketId, if_pos hlength]

variable {location : BucketServerLocation} {random : ℕ}

/-- A chosen location is a known one. -/
lemma mem_locations_of_chosen {tryPrimary : Bool}
    (h : m.chosen tryPrimary random bucketId = some location) :
    location ∈ m.locations bucketId := by
  have hsome := (Option.filter_eq_some_iff.mp h).1
  cases tryPrimary with
  | true => exact List.mem_of_mem_head? hsome
  | false => exact List.mem_of_getElem? hsome

/-- A bucket with a known location is in range. -/
lemma lt_of_mem_locations
    (h : location ∈ m.locations bucketId) : bucketId < m.totalNumBuckets.toNat := by
  by_contra hle
  rw [← m.length_eq, Nat.not_lt] at hle
  rw [locations, List.getD_eq_getElem?_getD, List.getElem?_eq_none hle] at h
  cases h

end ClientMetadata

end GeodeNative
