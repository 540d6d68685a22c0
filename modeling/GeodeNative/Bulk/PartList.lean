import GeodeNative.Library.Behaviour
import Mathlib.Data.Int.Basic

/-!
# Versioned object part lists of bulk updates

A reply to `putAll` or `removeAll` comes in chunks, and each chunk holds a list of object parts:
it may have keys, it may have objects, and it may have version tags, one after the other.
`VersionedCacheableObjectPartList` reads such a list into vectors; a pointer that the constructor
does not set is null.

The content of a chunk is modelled after it was decoded. The list that the handlers of both
replies construct for a chunk has no vector for keys: keys in a chunk are read through a null
pointer, and an object has no key under which it could be stored, so that the local cache is
never asked. Only the tags of a chunk ever get into the list of the request.
-/

namespace GeodeNative

open Behaviour

/-- One object of a list: an exception, or a value; the server may say that it does not know
the key. -/
inductive ObjectPart (ν : Type)
  | exception (message : String)
  | value (notFound : Bool) (value : ν)

/-- What a chunk holds. -/
structure PartListData (κ ν τ : Type) where
  keys : Option (List κ)
  objects : Option (List (ObjectPart ν))
  tags : Option (List (Option τ))
  regionIsVersioned : Bool

/-- The exceptions that reading a list throws. -/
inductive PartListException
  | fatalInternal (message : String)
  | outOfRange
  deriving DecidableEq

/-- The members of a list that bulk updates use. -/
structure PartList (κ τ : Type) where
  tempKeys : Option (List κ)
  versionTags : List (Option τ)
  hasKeys : Bool
  hasTags : Bool
  regionIsVersioned : Bool

namespace PartList

variable {κ ν τ : Type}

section

variable (list : PartList κ τ)

/-- The constructor for a chunk of a reply, and for the list of a request that may take several
hops: there are no vectors. -/
def ofRegion : PartList κ τ := ⟨none, [], false, false, false⟩

/-- The constructor for the keys of a server. -/
def ofKeys (keys : List κ) : PartList κ τ := ⟨some keys, [], false, false, false⟩

/-- Appends the keys and the tags of another list. -/
def addAll (list other : PartList κ τ) : PartList κ τ :=
  { list with
    tempKeys :=
      match other.tempKeys, list.tempKeys with
      | none, keys => keys
      | some keys, none => some keys
      | some keys, some old => some (old ++ keys)
    hasKeys := list.hasKeys || other.tempKeys.isSome
    regionIsVersioned := list.regionIsVersioned || other.regionIsVersioned
    versionTags := list.versionTags ++ other.versionTags
    hasTags := list.hasTags || decide (0 < other.versionTags.length) }

/-- The number of keys or, without keys, of tags. -/
def size : ℤ :=
  if list.hasKeys then (list.tempKeys.getD []).length
  else if list.hasTags then list.versionTags.length
  else -1

/-- Adds keys that have no tags. -/
def addAllKeys (keySet : List κ) : PartList κ τ :=
  if list.hasKeys then { list with tempKeys := list.tempKeys.map (· ++ keySet) }
  else { list with hasKeys := true, tempKeys := some keySet }

def setVersionedTagptr (versionTags : List (Option τ)) : PartList κ τ :=
  { list with versionTags := versionTags, hasTags := decide (0 < versionTags.length) }

end

/-! ## Reading a chunk -/

section

variable (data : PartListData κ ν τ)

/-- The first part: keys go to `m_tempKeys`, which is null. -/
def readKeys : Behaviour PartListException Unit :=
  match data.keys with
  | some (_ :: _) => .undefined
  | some [] => .returns ()
  | none =>
    if data.objects.isSome then
      .throws (.fatalInternal
        "VersionedCacheableObjectPartList: hasObjects is true and m_keys is also nullptr")
    else .returns ()

/-- The loops over the objects, where the key of each is asked for first, and after the tags once
more over as many keys as there are tags: with no keys, the first turn throws. -/
def keyAt (len : ℕ) : Behaviour PartListException Unit :=
  match data.objects, len with
  | some _, _ + 1 => .throws .outOfRange
  | _, _ => .returns ()

/-- Reads a chunk into a list of the first constructor. Without tags there would be a null tag to
assign for each object, but there are no objects then. -/
def fromData : Behaviour PartListException (PartList κ τ) := do
  readKeys data
  keyAt data (data.objects.getD []).length
  keyAt data (data.tags.getD []).length
  return ⟨none, data.tags.getD [], data.keys.isSome, data.tags.isSome, data.regionIsVersioned⟩

/-- The handlers of both replies: a chunk is read into a list of its own, which is added to the
list of the request. -/
def handleChunk (list : PartList κ τ) : Behaviour PartListException (PartList κ τ) := do
  let vcObjPart ← fromData data
  return list.addAll vcObjPart

end

/-- Handles the chunks of a reply. After an exception no more chunks are handled; `none` is
undefined behaviour. -/
def handleChunks : PartList κ τ → List (PartListData κ ν τ) → Option (PartList κ τ)
  | list, [] => some list
  | list, data :: chunks =>
    match handleChunk data list with
    | .returns list => handleChunks list chunks
    | .throws _ => some list
    | .undefined => none

/-- A chunk without keys is read to its end: it has no objects, or the flags for keys and objects
and neither objects nor tags. -/
def IsRead (data : PartListData κ ν τ) : Bool :=
  data.objects.isNone || data.keys.isSome && (data.objects.getD []).isEmpty &&
    (data.tags.getD []).isEmpty

/-- No chunk that is handled has a key. -/
def Keyless : List (PartListData κ ν τ) → Prop
  | [] => True
  | data :: chunks => data.keys.getD [] = [] ∧ (IsRead data = true → Keyless chunks)

/-- The tags of the chunks that are handled. -/
def tagsOf : List (PartListData κ ν τ) → List (Option τ)
  | [] => []
  | data :: chunks => if IsRead data then data.tags.getD [] ++ tagsOf chunks else []

instance decidableKeyless : ∀ chunks : List (PartListData κ ν τ), Decidable (Keyless chunks)
  | [] => .isTrue trivial
  | data :: chunks =>
    have := decidableKeyless chunks
    have : Decidable (data.keys.getD [] = []) :=
      decidable_of_iff ((data.keys.getD []).isEmpty = true) List.isEmpty_iff
    inferInstanceAs (Decidable (_ ∧ (_ → _)))

variable {list : PartList κ τ} {data : PartListData κ ν τ}

/-- A chunk with keys is undefined behaviour. -/
lemma fromData_of_keys (hkeys : data.keys.getD [] ≠ []) : fromData data = .undefined := by
  have hread : readKeys data = .undefined := by
    unfold readKeys
    cases hdata : data.keys with
    | none => simp [hdata] at hkeys
    | some keys =>
      cases keys with
      | nil => simp [hdata] at hkeys
      | cons => rfl
  rw [fromData, hread, undefined_bind]

/-- A chunk without keys brings its tags, or makes an exception. -/
lemma fromData_of_nil (hkeys : data.keys.getD [] = []) :
    (IsRead data = true ∧ ∃ part : PartList κ τ, fromData data = .returns part ∧
        part.tempKeys = none ∧ part.versionTags = data.tags.getD []) ∨
      IsRead data = false ∧ ∃ e, fromData data = .throws e := by
  obtain ⟨keys, objects, tags, regionIsVersioned⟩ := data
  cases objects with
  | none =>
    cases keys with
    | none => exact .inl ⟨rfl, _, rfl, rfl, rfl⟩
    | some keys =>
      obtain rfl : keys = [] := hkeys
      exact .inl ⟨rfl, _, rfl, rfl, rfl⟩
  | some objects =>
    cases keys with
    | none => exact .inr ⟨rfl, _, rfl⟩
    | some keys =>
      obtain rfl : keys = [] := hkeys
      cases objects with
      | cons => exact .inr ⟨rfl, _, rfl⟩
      | nil =>
        cases tags with
        | none => exact .inl ⟨rfl, _, rfl, rfl, rfl⟩
        | some tags =>
          cases tags with
          | nil => exact .inl ⟨rfl, _, rfl, rfl, rfl⟩
          | cons => exact .inr ⟨rfl, _, rfl⟩

/-- What the handlers do with a reply: keys are undefined behaviour, and otherwise the tags
are appended to the list of the request. -/
lemma handleChunks_eq (chunks : List (PartListData κ ν τ)) (list : PartList κ τ) :
    (¬ Keyless chunks ∧ list.handleChunks chunks = none) ∨
      (Keyless chunks ∧ ∃ list', list.handleChunks chunks = some list' ∧
        list'.tempKeys = list.tempKeys ∧ list'.hasKeys = list.hasKeys ∧
        list'.versionTags = list.versionTags ++ tagsOf chunks) := by
  induction chunks generalizing list with
  | nil => exact .inr ⟨trivial, list, rfl, rfl, rfl, (List.append_nil _).symm⟩
  | cons data chunks ih =>
    by_cases hkeys : data.keys.getD [] = []
    · rcases fromData_of_nil hkeys with ⟨hread, part, hpart, hnull, htags⟩ | ⟨hread, _, hthrow⟩
      · have hstep : list.handleChunks (data :: chunks)
            = (list.addAll part).handleChunks chunks := by
          simp only [handleChunks, handleChunk, hpart, returns_bind, pure_eq]
        have hadd : (list.addAll part).tempKeys = list.tempKeys ∧
            (list.addAll part).hasKeys = list.hasKeys ∧
            (list.addAll part).versionTags = list.versionTags ++ data.tags.getD [] := by
          simp [addAll, hnull, htags]
        have hkeyless : Keyless (data :: chunks) ↔ Keyless chunks :=
          ⟨fun h => h.2 hread, fun h => ⟨hkeys, fun _ => h⟩⟩
        rw [hstep, hkeyless]
        rcases ih (list.addAll part) with hbad | ⟨hk, list', hlist, htemp, hhas, hall⟩
        · exact .inl hbad
        · refine .inr ⟨hk, list', hlist, htemp.trans hadd.1, hhas.trans hadd.2.1, ?_⟩
          rw [hall, hadd.2.2, tagsOf, if_pos hread, List.append_assoc]
      · refine .inr ⟨⟨hkeys, fun h => absurd h (by simp [hread])⟩, list, ?_, rfl, rfl, ?_⟩
        · simp only [handleChunks, handleChunk, hthrow, throws_bind]
        · rw [tagsOf, hread]
          exact (List.append_nil _).symm
    · refine .inl ⟨fun h => hkeys h.1, ?_⟩
      simp only [handleChunks, handleChunk, fromData_of_keys hkeys, undefined_bind]

end PartList

end GeodeNative
