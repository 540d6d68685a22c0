import GeodeNative.Cache.Version

/-!
# Map entries and their tracking counters

An entry of a region's map is an object of class `MapEntryImpl`, or a
`TrackedMapEntry` wrapped around one. Objects are shared by pointer, so they live
in a heap and are named by their address.

A `MapEntryImpl` does not store its tracking number and update count. They are
parameters of the object's class `MapEntryT<TBase, N, U>`, and a counter changes by
a placement `new` of an object of another such class over the old one. The
constructor used for it, `MapEntryImpl(bool)`, initialises no member explicitly:
the comment on it says that it "will avoid initializing *any* data", but the
members `m_value` and `m_key` are `std::shared_ptr`s and the base
`std::enable_shared_from_this` holds a `std::weak_ptr`, and members and bases that a
constructor does not name are default-constructed. So the new object has a null
value, a null key and an empty weak pointer to itself, and from then on
`shared_from_this()`, which `getImplPtr()` calls, throws `std::bad_weak_ptr`.
-/

namespace GeodeNative

/-- What the value pointer of an entry can hold: nothing, one of the four tokens of
`CacheableToken`, or an object of the application. -/
inductive CacheValue (V : Type*)
  | null
  | invalid
  | destroyed
  | overflowed
  | tombstone
  | object (v : V)
  deriving DecidableEq, Repr

namespace CacheValue

variable {V : Type*}

/-- Whether a pointer is null. -/
def isNull : CacheValue V → Bool
  | null => true
  | _ => false

/-- `CacheableToken::isTombstone`. -/
def isTombstone : CacheValue V → Bool
  | tombstone => true
  | _ => false

/-- `CacheableToken::isInvalid`. -/
def isInvalid : CacheValue V → Bool
  | invalid => true
  | _ => false

/-- `CacheableToken::isOverflowed`. -/
def isOverflowed : CacheValue V → Bool
  | overflowed => true
  | _ => false

/-- `CacheableToken::isToken`. -/
def isToken : CacheValue V → Bool
  | invalid | destroyed | overflowed | tombstone => true
  | null | object _ => false

variable {value : CacheValue V}

@[simp] lemma isNull_iff : value.isNull = true ↔ value = .null := by
  cases value <;> simp [isNull]

@[simp] lemma isTombstone_iff : value.isTombstone = true ↔ value = .tombstone := by
  cases value <;> simp [isTombstone]

@[simp] lemma isNull_eq_false_iff : value.isNull = false ↔ value ≠ .null := by
  cases value <;> simp [isNull]

@[simp] lemma isTombstone_eq_false_iff : value.isTombstone = false ↔ value ≠ .tombstone := by
  cases value <;> simp [isTombstone]

end CacheValue

/-- Numerals of the counters below. -/
instance neZeroTrackers : NeZero 5 := ⟨by decide⟩

instance neZeroUpdates : NeZero 9 := ⟨by decide⟩

/-- The largest tracking number that an entry's class can hold, `GF_TRACK_MAX`. -/
def gfTrackMax : Fin 5 := 4

/-- The largest update count that an entry's class can hold, `GF_UPDATE_MAX`. -/
def gfUpdateMax : Fin 9 := 8

/-- The address of a `MapEntryImpl`. -/
abbrev ObjId := ℕ

/-- An object of class `MapEntryT<TBase, numTrackers, updateCount>`. -/
structure MapEntryImpl (K V : Type*) where
  key : Option K
  value : CacheValue V
  versionStamp : VersionStamp
  /-- whether the weak pointer of `enable_shared_from_this` points to the object -/
  weakThis : Bool
  numTrackers : Fin 5
  updateCount : Fin 9
  deriving DecidableEq, Repr

/-- The map entries of a segment, by address. -/
abbrev EntryHeap (K V : Type*) := ObjId → MapEntryImpl K V

namespace MapEntryImpl

variable {K V : Type*}

/-- A new object of class `MapEntryT<TBase, 0, 0>`, as the entry factory makes it. -/
def create (key : K) : MapEntryImpl K V where
  key := some key
  value := .null
  versionStamp := {}
  weakThis := true
  numTrackers := 0
  updateCount := 0

/-- The object that a placement `new` of class `MapEntryT<TBase, n, u>` leaves, whatever was
there before. -/
def placementNew (n : Fin 5) (u : Fin 9) : MapEntryImpl K V where
  key := none
  value := .null
  versionStamp := {}
  weakThis := false
  numTrackers := n
  updateCount := u

/-- The value of an entry; a destroyed entry has none. -/
def getValueI (entry : MapEntryImpl K V) : CacheValue V :=
  match entry.value with
  | .destroyed => .null
  | value => value

end MapEntryImpl

/-- A wrapper that holds the counters of an entry once they leave the small ranges. -/
structure TrackedMapEntry where
  entry : ObjId
  trackingNumber : ℤ
  updateCount : ℤ
  deriving DecidableEq, Repr

/-- What a key of the map is bound to. A wrapper is referred to by the map alone and is held
by value. -/
inductive MapEntry
  | impl (id : ObjId)
  | tracked (entry : TrackedMapEntry)
  deriving DecidableEq, Repr

/-- The effect of a counter method called on `self`: the heap and the entry itself
afterwards, the entry to rebind the key to if the method made one, and the count it returns. -/
structure CounterUpdate (K V : Type*) where
  heap : EntryHeap K V
  self : MapEntry
  newEntry : Option MapEntry
  count : ℤ

/-- The effect of `removeTracker`: the heap and the entry itself afterwards, whether the
wrapper is to be replaced by the entry it wraps, and the trackers left. -/
structure TrackerRemoval (K V : Type*) where
  heap : EntryHeap K V
  self : MapEntry
  unwrap : Bool
  trackers : ℤ

namespace MapEntry

variable {K V : Type*}

section

variable (heap : EntryHeap K V)

/-- The address of the `MapEntryImpl` behind an entry. -/
def target : MapEntry → ObjId
  | impl id => id
  | tracked entry => entry.entry

/-- A pointer to the `MapEntryImpl`; `none` where `shared_from_this` throws. -/
def getImplPtr : MapEntry → Option ObjId
  | impl id => if (heap id).weakThis then some id else none
  | tracked entry => some entry.entry

def getValue (entry : MapEntry) : CacheValue V :=
  (heap entry.target).getValueI

def getTrackingNumber : MapEntry → ℤ
  | impl id => (heap id).numTrackers
  | tracked entry => entry.trackingNumber

/-- The number of updates of an entry since it is tracked. -/
def getUpdateCount : MapEntry → ℤ
  | impl id => (heap id).updateCount
  | tracked entry => entry.updateCount

/-- Adds a tracker; `none` where `shared_from_this` throws. -/
def addTracker : MapEntry → Option (CounterUpdate K V)
  | impl id =>
    let entry := heap id
    if entry.numTrackers = gfTrackMax then
      if entry.weakThis then
        some ⟨heap, impl id, some (tracked ⟨id, gfTrackMax + 1, entry.updateCount⟩),
          entry.updateCount⟩
      else
        none
    else
      some ⟨Function.update heap id (.placementNew (entry.numTrackers + 1) entry.updateCount),
        impl id, none, entry.updateCount⟩
  | tracked entry =>
    some ⟨heap, tracked { entry with trackingNumber := entry.trackingNumber + 1 }, none,
      entry.updateCount⟩

/-- Removes a tracker; the last one takes the update count with it. -/
def removeTracker : MapEntry → TrackerRemoval K V
  | impl id =>
    let entry := heap id
    if entry.numTrackers = 0 then
      ⟨heap, impl id, false, 0⟩
    else if entry.numTrackers = 1 then
      ⟨Function.update heap id (.placementNew 0 0), impl id, false, 0⟩
    else
      ⟨Function.update heap id (.placementNew (entry.numTrackers - 1) entry.updateCount),
        impl id, false, (entry.numTrackers - 1 : Fin 5)⟩
  | tracked entry =>
    let trackers := if entry.trackingNumber > 0 then entry.trackingNumber - 1
      else entry.trackingNumber
    if trackers = 0 then
      ⟨heap, tracked { entry with trackingNumber := 0, updateCount := 0 }, true, 0⟩
    else
      ⟨heap, tracked { entry with trackingNumber := trackers }, false, trackers⟩

/-- Counts an update; `none` where `shared_from_this` throws. An entry that nobody tracks is
not counted for. -/
def incrementUpdateCount : MapEntry → Option (CounterUpdate K V)
  | impl id =>
    let entry := heap id
    if entry.updateCount = gfUpdateMax then
      if entry.weakThis then
        some ⟨heap, impl id, some (tracked ⟨id, entry.numTrackers, gfUpdateMax + 1⟩),
          gfUpdateMax + 1⟩
      else
        none
    else if entry.numTrackers = 0 then
      some ⟨heap, impl id, none, entry.updateCount⟩
    else
      some ⟨Function.update heap id (.placementNew entry.numTrackers (entry.updateCount + 1)),
        impl id, none, (entry.updateCount + 1 : Fin 9)⟩
  | tracked entry =>
    some ⟨heap, tracked { entry with updateCount := entry.updateCount + 1 }, none,
      entry.updateCount + 1⟩

end

end MapEntry

end GeodeNative
