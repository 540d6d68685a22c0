import GeodeNative.Bulk.SingleHop
import Mathlib.Data.List.Infix
import Mathlib.Data.List.Nodup

/-!
# Which version tag a key gets

When a bulk operation has succeeded, the local region applies it to the local cache: it puts,
or removes, each key with the version tag that the server sent for it. The keys and the tags
come in two vectors that are filled apart from each other, and the loop reads both with one
index.

What the server means by a tag is not on the wire: a chunk covers some of the keys of a
request, in the order in which the request named them, and has a tag for each of them or no
tags at all. The keys that each chunk covers are therefore part of the model, though no code
reads them.

Tags stay with their keys if no reply that counts has tags, or if every server that succeeded at
once was sent its keys in the order of its vector of keys and tagged all of them. For replies
with tags that are all different there is no other way.
-/

namespace GeodeNative

open Option

variable {κ ν τ : Type}

/-! ## What the servers sent -/

/-- A chunk of a reply with the keys that it covers. -/
abbrev Covering (κ ν τ : Type) := List κ × PartListData κ ν τ

namespace Covering

/-- A chunk of a reply to `putAll` or `removeAll` has no objects, and a tag for each of its keys or
no tags at all. -/
def Answers (c : Covering κ ν τ) : Prop :=
  c.2.objects.isNone = true ∧ ∀ tags ∈ c.2.tags, tags.length = c.1.length
  deriving Decidable

/-- The tags that a chunk has for the keys that it covers; null where there is none. -/
def sentTags (c : Covering κ ν τ) : List (κ × Option τ) :=
  match c.2.tags with
  | some tags => c.1.zip tags
  | none => c.1.map fun key => (key, none)

/-- The keys of a chunk that has tags. -/
def taggedKeys (c : Covering κ ν τ) : List κ := if c.2.tags.isSome then c.1 else []

/-- The tags of a chunk. -/
def tags (c : Covering κ ν τ) : List (Option τ) := c.2.tags.getD []

end Covering

open Covering

/-- The keys that the chunks of a reply cover are the given ones, and each chunk answers for its
keys. -/
structure Covers (keys : List κ) (covers : List (List κ)) (chunks : List (PartListData κ ν τ)) :
    Prop where
  perm : covers.flatten.Perm keys
  length_eq : covers.length = chunks.length
  answers : ∀ c ∈ covers.zip chunks, Answers c

/-- The way that the operation takes to the servers, with the keys that the chunks cover. -/
inductive Route (κ ν τ : Type)
  | singleHop (request : SingleHop κ ν τ)
      (firstCovers retryCovers : SubRequest κ ν τ → List (List κ))
  | multiHop (op : BulkOp) (keys : List κ) (attempt : Attempt κ ν τ) (covers : List (List κ))

/-- The replies that count cover the keys they were asked for. Only `putAll` with single hop sends
the keys in another order, that of a hash map, than the one in which the loop reads them. -/
def Route.Answered : Route κ ν τ → Prop
  | .singleHop request firstCovers retryCovers => ∀ part ∈ request.parts,
    (part.Succeeded → Covers part.keys (firstCovers part) part.first.chunks ∧
      (request.op = .removeAll → (firstCovers part).flatten = part.keys)) ∧
    (¬ part.Succeeded → part.retry.outcome.err = .noErr →
      Covers part.keys (retryCovers part) part.retry.chunks)
  | .multiHop _ keys attempt covers => attempt.outcome.err = .noErr →
    Covers keys covers attempt.chunks ∧ covers.flatten = keys

/-- A bulk operation on a local region. -/
structure BulkUpdate (κ ν τ : Type) where
  route : Route κ ν τ
  cachingEnabled : Bool
  /-- the member that the first operation with single hop sets for good -/
  isPRSingleHopEnabled : Bool
  /-- whether the local operation for the key at an index ends the loop with an error -/
  localErr : ℕ → Bool
  answered : route.Answered

/-- The tag that the loop reads at an index: it stays null if there are no tags, and reading
beyond the last tag is undefined. -/
def tagAt (tags : List (Option τ)) (index : ℕ) : Option (Option τ) :=
  if 0 < tags.length then tags[index]? else some none

/-- `removeAll` passes over a key without a tag. -/
def BulkOp.skips (op : BulkOp) (tag : Option τ) : Bool :=
  match op with
  | .putAll => false
  | .removeAll => tag.isNone

/-- The loop over the keys: what is passed to the local operations. -/
def applyAll (op : BulkOp) (tags : List (Option τ)) (localErr : ℕ → Bool) :
    ℕ → List κ → Option (List (κ × Option τ))
  | _, [] => some []
  | index, key :: keys =>
    match tagAt tags index with
    | none => none
    | some versionTag =>
      if op.skips versionTag then applyAll op tags localErr (index + 1) keys
      else if localErr index then some [(key, versionTag)]
      else (applyAll op tags localErr (index + 1) keys).map ((key, versionTag) :: ·)

namespace BulkUpdate

variable [DecidableEq κ]

/-- The remote part of the operation: its error, the list of keys and versions, and the keys
that are read if the list's own are not. -/
def remote (update : BulkUpdate κ ν τ) :
    Behaviour BulkException (BulkErrType × PartList κ τ) :=
  match update.route with
  | .singleHop request _ _ => do
    let returned ← request.singleHopNoThrow_remote
    return (returned.1, returned.2.succeededKeysAndVersions)
  | .multiHop _ _ attempt _ =>
    match (PartList.ofRegion : PartList κ τ).handleChunks attempt.chunks with
    | none => .undefined
    | some list => .returns (attempt.outcome.err, list)

section

omit [DecidableEq κ]

def op (update : BulkUpdate κ ν τ) : BulkOp :=
  match update.route with
  | .singleHop request _ _ => request.op
  | .multiHop op _ _ _ => op

/-- The keys of the loop: those of the list once an operation went with single hop, and the
user's otherwise. -/
def localKeys (update : BulkUpdate κ ν τ) (list : PartList κ τ) : Option (List κ) :=
  match update.route with
  | .singleHop _ _ _ => list.tempKeys
  | .multiHop _ keys _ _ => if update.isPRSingleHopEnabled then list.tempKeys else some keys

end

/-- `putAllNoThrow` and `removeAllNoThrow`: the keys and tags of the local operations. -/
def noThrow (update : BulkUpdate κ ν τ) : Behaviour BulkException (List (κ × Option τ)) := do
  let returned ← update.remote
  if returned.1 = .noErr ∧ update.cachingEnabled = true then
    let keys ← Behaviour.deref (update.localKeys returned.2)
    Behaviour.deref (applyAll update.op returned.2.versionTags update.localErr 0 keys)
  else return []

/-- The tags that the servers sent with the replies that count. -/
def sent (update : BulkUpdate κ ν τ) : List (κ × Option τ) :=
  match update.route with
  | .singleHop request firstCovers retryCovers =>
    request.parts.flatMap fun part =>
      if part.Succeeded then ((firstCovers part).zip part.first.chunks).flatMap sentTags
      else ((retryCovers part).zip part.retry.chunks).flatMap sentTags
  | .multiHop _ _ attempt covers => (covers.zip attempt.chunks).flatMap sentTags

/-- Every tag that is passed is one that was sent for its key. -/
def TagsStay [DecidableEq τ] (update : BulkUpdate κ ν τ) : Prop :=
  match update.noThrow with
  | .returns passed => ∀ entry ∈ passed, entry ∈ update.sent
  | _ => False

instance [DecidableEq τ] (update : BulkUpdate κ ν τ) : Decidable update.TagsStay := by
  unfold TagsStay
  split <;> infer_instance

end BulkUpdate

/-! ## Keys and tags of covering chunks -/

namespace Covering

variable {c : Covering κ ν τ} {chunks : List (Covering κ ν τ)} {key : κ}

lemma length_taggedKeys (h : c.Answers) : c.taggedKeys.length = c.tags.length := by
  cases htags : c.2.tags with
  | none => simp [taggedKeys, tags, htags]
  | some => simp [taggedKeys, tags, htags, h.2 _ htags]

lemma length_flatMap_taggedKeys (h : ∀ c ∈ chunks, Answers c) :
    (chunks.flatMap taggedKeys).length = (chunks.flatMap tags).length := by
  simp only [List.length_flatMap]
  exact congrArg List.sum (List.map_congr_left fun c hc => length_taggedKeys (h c hc))

/-- The tags of a chunk are those of its keys, one by one. -/
lemma zip_flatMap_taggedKeys (h : ∀ c ∈ chunks, Answers c) :
    (chunks.flatMap taggedKeys).zip (chunks.flatMap tags) =
      chunks.flatMap fun c => c.taggedKeys.zip c.tags := by
  induction chunks with
  | nil => rfl
  | cons c chunks ih =>
    obtain ⟨hc, hrest⟩ := List.forall_mem_cons.mp h
    simp only [List.flatMap_cons]
    rw [List.zip_append (length_taggedKeys hc), ih hrest]

/-- A tag that is not null was sent for a key exactly if it stands beside the key. -/
lemma mem_sentTags_of_mem_zip {x : κ × Option τ} (hx : x ∈ c.taggedKeys.zip c.tags) :
    x ∈ c.sentTags := by
  unfold taggedKeys tags at hx
  unfold sentTags
  cases htags : c.2.tags with
  | none => simp [htags] at hx
  | some => simpa [htags] using hx

lemma mem_zip_of_mem_sentTags {tag : τ} (hx : (key, some tag) ∈ c.sentTags) :
    (key, some tag) ∈ c.taggedKeys.zip c.tags := by
  unfold sentTags at hx
  unfold taggedKeys tags
  cases htags : c.2.tags with
  | none => simp [htags] at hx
  | some => simpa [htags] using hx

/-- Without any tags, null was sent for every key. -/
lemma mem_sentTags_of_untagged (h : ∀ c ∈ chunks, Answers c) (hnone : ∀ c ∈ chunks, c.tags = [])
    (hkey : key ∈ chunks.flatMap Prod.fst) : (key, none) ∈ chunks.flatMap sentTags := by
  obtain ⟨c, hc, hmem⟩ := List.mem_flatMap.mp hkey
  refine List.mem_flatMap.mpr ⟨c, hc, ?_⟩
  unfold sentTags
  cases htags : c.2.tags with
  | none => simpa using hmem
  | some tags =>
    have hnil : tags = [] := by simpa [Covering.tags, htags] using hnone c hc
    have hlength := (h c hc).2 tags htags
    rw [hnil] at hlength
    rw [List.eq_nil_of_length_eq_zero hlength.symm] at hmem
    cases hmem

lemma sublist_taggedKeys (c : Covering κ ν τ) : c.taggedKeys.Sublist c.1 := by
  unfold taggedKeys
  split
  · exact .refl _
  · exact List.nil_sublist _

lemma sublist_flatMap_taggedKeys (chunks : List (Covering κ ν τ)) :
    (chunks.flatMap taggedKeys).Sublist (chunks.flatMap Prod.fst) := by
  induction chunks with
  | nil => exact .refl _
  | cons c _ ih => exact (sublist_taggedKeys c).append ih

/-- All keys are tagged exactly if every chunk that covers one has tags. -/
lemma flatMap_taggedKeys_eq_iff :
    chunks.flatMap taggedKeys = chunks.flatMap Prod.fst ↔
      ∀ c ∈ chunks, c.1 ≠ [] → c.2.tags.isSome = true := by
  induction chunks with
  | nil => simp
  | cons c chunks ih =>
    have hc : c.taggedKeys = c.1 ↔ (c.1 ≠ [] → c.2.tags.isSome = true) := by
      unfold taggedKeys
      cases c.2.tags.isSome with
      | true => simp
      | false => simp [eq_comm (a := [])]
    rw [List.forall_mem_cons, ← hc, ← ih, List.flatMap_cons, List.flatMap_cons]
    refine ⟨fun h => ?_, fun h => by rw [h.1, h.2]⟩
    have hlength := congrArg List.length h
    simp only [List.length_append] at hlength
    have hhead := (sublist_taggedKeys c).length_le
    have htail := (sublist_flatMap_taggedKeys chunks).length_le
    exact List.append_inj h (by omega)

end Covering

/-- Blocks that together start with longer blocks of their own elements are equal to these. -/
lemma eq_of_flatMap_beginning {α ι : Type} {blocks : List ι} {f g : ι → List α} {rest : List α}
    (hlength : ∀ b ∈ blocks, (g b).length ≤ (f b).length) (hsubset : ∀ b ∈ blocks, g b ⊆ f b)
    (hnodup : (blocks.flatMap f).Nodup) (hrest : ∀ a ∈ rest, a ∉ blocks.flatMap f)
    (h : blocks.flatMap f <+: blocks.flatMap g ++ rest) : ∀ b ∈ blocks, g b = f b := by
  induction blocks with
  | nil => simp
  | cons b blocks ih =>
    simp only [List.flatMap_cons, List.forall_mem_cons, List.append_assoc] at *
    obtain ⟨-, hnodup', hdisjoint⟩ := List.nodup_append'.mp hnodup
    -- the first block of `g` is a prefix of that of `f`, and what follows is in neither
    have hbegins : g b <+: f b := List.prefix_of_prefix_length_le (List.prefix_append _ _)
      ((List.prefix_append _ _).trans h) hlength.1
    obtain ⟨more, hmore⟩ := hbegins
    rw [← hmore, List.append_assoc, List.prefix_append_right_inj] at h
    have hnil : more = [] := by
      cases more with
      | nil => rfl
      | cons a more =>
        have hleft : a ∈ f b := by rw [← hmore]; simp
        have hright : a ∈ blocks.flatMap g ++ rest := h.subset (by simp)
        rcases List.mem_append.mp hright with hmem | hmem
        · obtain ⟨b', hb', ha⟩ := List.mem_flatMap.mp hmem
          exact absurd (List.mem_flatMap.mpr ⟨b', hb', hsubset.2 b' hb' ha⟩) (hdisjoint hleft)
        · exact absurd (List.mem_append_left _ hleft) (hrest a hmem)
    rw [hnil, List.append_nil] at hmore
    rw [hnil, List.nil_append] at h
    exact ⟨hmore, ih hlength.2 hsubset.2 hnodup'
      (fun a ha hmem => hrest a ha (List.mem_append_right _ hmem)) h⟩

/-! ## The loop -/

/-- At every key that the loop gets to there is a tag, and it was sent for that key unless it is
passed over. The first key has the index `start`. -/
def Aligned (op : BulkOp) (localErr : ℕ → Bool) (sent : List (κ × Option τ))
    (tags : List (Option τ)) (start : ℕ) (keys : List κ) : Prop :=
  ∀ index key, keys[index]? = some key →
    (∀ j < index, localErr (start + j) = true →
      ∃ tag, tagAt tags (start + j) = some tag ∧ op.skips tag = true) →
      ∃ tag, tagAt tags (start + index) = some tag ∧ (op.skips tag = true ∨ (key, tag) ∈ sent)

section Loop

variable {op : BulkOp} {localErr : ℕ → Bool} {sent : List (κ × Option τ)}
  {tags : List (Option τ)} {start : ℕ} {key : κ} {keys : List κ}

/-- The first key has its tag, and the loop goes on unless its local operation fails. -/
lemma aligned_cons : Aligned op localErr sent tags start (key :: keys) ↔
      ∃ tag, tagAt tags start = some tag ∧ (op.skips tag = true ∨ (key, tag) ∈ sent) ∧
        ((localErr start = true → op.skips tag = true) →
          Aligned op localErr sent tags (start + 1) keys) := by
  -- the index in the tail is one less
  have hshift : ∀ j, start + 1 + j = start + (j + 1) := fun j => by omega
  constructor
  · intro hall
    obtain ⟨tag, htag, hsent⟩ := hall 0 key rfl (by simp)
    refine ⟨tag, htag, hsent, fun hgoes index key' hkey' hreach => ?_⟩
    rw [hshift]
    refine hall (index + 1) key' hkey' fun j hj herr => ?_
    cases j with
    | zero => exact ⟨tag, htag, hgoes herr⟩
    | succ j =>
      rw [← hshift] at herr ⊢
      exact hreach j (by omega) herr
  · rintro ⟨tag, htag, hsent, hrest⟩ index key' hkey' hreach
    cases index with
    | zero =>
      cases hkey'
      exact ⟨tag, htag, hsent⟩
    | succ index =>
      have hgoes : localErr start = true → op.skips tag = true := by
        intro herr
        obtain ⟨_, htag', hskips⟩ := hreach 0 (by omega) herr
        rw [Nat.add_zero, htag] at htag'
        cases htag'
        exact hskips
      have hnext := hrest hgoes index key' hkey' fun j hj => by
        rw [hshift]
        exact hreach (j + 1) (by omega)
      rwa [hshift] at hnext

/-- The loop passes only tags that were sent when the keys and the tags are aligned. -/
lemma applyAll_iff :
    (∃ passed, applyAll op tags localErr start keys = some passed ∧
      ∀ entry ∈ passed, entry ∈ sent) ↔ Aligned op localErr sent tags start keys := by
  induction keys generalizing start with
  | nil => simp [applyAll, Aligned]
  | cons _ keys ih =>
    rw [aligned_cons, applyAll]
    cases htag : tagAt tags start with
    | none => simp
    | some versionTag =>
      simp only [some.injEq, exists_eq_left']
      by_cases hskip : op.skips versionTag = true
      · simp only [hskip, true_or, true_and, forall_const]
        exact ih
      · by_cases herr : localErr start = true
        · simp [hskip, herr]
        · simp only [hskip, herr, Bool.false_eq_true, if_false, false_or, forall_const]
          rw [← ih]
          cases applyAll op tags localErr (start + 1) keys with
          | none => simp
          | some =>
            simp only [map_some, some.injEq, exists_eq_left', List.forall_mem_cons]

/-- What the loop passes was sent for its key if the keys are the first ones that were tagged. -/
lemma aligned_of_beginning {chunks : List (Covering κ ν τ)} (h : ∀ c ∈ chunks, Answers c)
    (hbegins : keys <+: chunks.flatMap taggedKeys) (hsent : chunks.flatMap sentTags ⊆ sent) :
    Aligned op localErr sent (chunks.flatMap Covering.tags) 0 keys := by
  intro index key hkey _
  have hindex : (chunks.flatMap taggedKeys)[index]? = some key := by
    obtain ⟨hlt, rfl⟩ := List.getElem?_eq_some_iff.mp hkey
    exact List.prefix_iff_getElem?.mp hbegins index hlt
  have hlt := (List.getElem?_eq_some_iff.mp hindex).1
  rw [length_flatMap_taggedKeys h] at hlt
  have htag := List.getElem?_eq_getElem hlt
  refine ⟨(chunks.flatMap Covering.tags)[index], ?_, .inr (hsent ?_)⟩
  · rw [tagAt, if_pos (by omega), Nat.zero_add, htag]
  · have hmem := List.mem_of_getElem? (List.getElem?_zip_eq_some (z := (key, _)) |>.mpr
        ⟨hindex, htag⟩)
    rw [zip_flatMap_taggedKeys h] at hmem
    obtain ⟨c, hc, hx⟩ := List.mem_flatMap.mp hmem
    exact List.mem_flatMap.mpr ⟨c, hc, mem_sentTags_of_mem_zip hx⟩

/-- Without any tags null is passed, or nothing. -/
lemma aligned_of_untagged (hsent : ∀ key ∈ keys, (key, none) ∈ sent) :
    Aligned op localErr sent [] 0 keys :=
  fun _ key hkey _ => ⟨none, rfl, .inr (hsent key (List.mem_of_getElem? hkey))⟩

/-- If no local operation fails and the tags are all different, then the keys have to be the first
ones that were tagged. -/
lemma prefix_of_aligned {chunks : List (Covering κ ν τ)} (h : ∀ c ∈ chunks, Answers c)
    (hlocal : ∀ index, localErr index = false) (hne : chunks.flatMap Covering.tags ≠ [])
    (hnodup : (chunks.flatMap Covering.tags).Nodup) (hnull : none ∉ chunks.flatMap Covering.tags)
    (hsent : sent ⊆ chunks.flatMap sentTags)
    (haligned : Aligned op localErr sent (chunks.flatMap Covering.tags) 0 keys) :
    keys <+: chunks.flatMap taggedKeys := by
  refine List.prefix_iff_getElem?.mpr fun index hlt => ?_
  obtain ⟨tag, htag, hor⟩ := haligned index _ (List.getElem?_eq_getElem hlt) (by simp [hlocal])
  rw [tagAt, if_pos (List.length_pos_iff.mpr hne), Nat.zero_add] at htag
  cases tag with
  | none => exact absurd (List.mem_of_getElem? htag) hnull
  | some tag =>
    have hskips : op.skips (some tag) = false := by cases op <;> rfl
    have hmem := hsent (hor.resolve_left (by simp [hskips]))
    obtain ⟨c, hc, hx⟩ := List.mem_flatMap.mp hmem
    have hzip : (keys[index], some tag) ∈
        (chunks.flatMap taggedKeys).zip (chunks.flatMap Covering.tags) := by
      rw [zip_flatMap_taggedKeys h]
      exact List.mem_flatMap.mpr ⟨c, hc, mem_zip_of_mem_sentTags hx⟩
    obtain ⟨j, hj⟩ := List.mem_iff_getElem?.mp hzip
    obtain ⟨hkey, htag'⟩ := List.getElem?_zip_eq_some.mp hj
    obtain rfl : index = j :=
      (List.getElem?_inj (List.getElem?_eq_some_iff.mp htag).1 hnodup).mp (htag.trans htag'.symm)
    exact hkey

end Loop

/-! ## The operations -/

/-- No chunk has tags. -/
def Untagged (chunks : List (PartListData κ ν τ)) : Prop :=
  ∀ data ∈ chunks, data.tags.getD [] = []

/-- Every chunk that covers a key has tags. -/
def AllTagged (covers : List (List κ)) (chunks : List (PartListData κ ν τ)) : Prop :=
  ∀ c ∈ covers.zip chunks, c.1 ≠ [] → c.2.tags.isSome = true

section Replies

variable {data : PartListData κ ν τ} {chunks : List (PartListData κ ν τ)} {keys : List κ}
  {covers : List (List κ)}

lemma Covers.objects_eq (h : Covers keys covers chunks) : ∀ data ∈ chunks, data.objects = none := by
  intro data hdata
  rw [← List.map_snd_zip h.length_eq.ge] at hdata
  obtain ⟨c, hc, rfl⟩ := List.mem_map.mp hdata
  exact Option.isNone_iff_eq_none.mp (h.answers c hc).1

lemma Covers.flatMap_fst (h : Covers keys covers chunks) :
    (covers.zip chunks).flatMap Prod.fst = covers.flatten := by
  rw [List.flatMap_def, List.map_fst_zip h.length_eq.le]

lemma Covers.tags_eq_nil_iff (h : Covers keys covers chunks) :
    (covers.zip chunks).flatMap Covering.tags = [] ↔ Untagged chunks := by
  rw [List.flatMap_eq_nil_iff, Untagged]
  nth_rewrite 2 [← List.map_snd_zip h.length_eq.ge]
  exact (List.forall_mem_map (P := fun data : PartListData κ ν τ => data.tags.getD [] = [])).symm

/-- The tags of a reply that was read are those of its chunks. -/
lemma Covers.tagsOf_eq (h : Covers keys covers chunks) (hkeyless : PartList.Keyless chunks) :
    PartList.tagsOf chunks = (covers.zip chunks).flatMap Covering.tags := by
  have hall : PartList.tagsOf chunks = chunks.flatMap fun data => data.tags.getD [] := by
    have hobjects := h.objects_eq
    clear h
    induction chunks with
    | nil => rfl
    | cons data chunks ih =>
      obtain ⟨hdata, hrest⟩ := List.forall_mem_cons.mp hobjects
      have hread : PartList.IsRead data = true := by simp [PartList.IsRead, hdata]
      rw [PartList.tagsOf, if_pos hread, List.flatMap_cons, ih (hkeyless.2 hread) hrest]
  rw [hall, List.flatMap_def, List.flatMap_def]
  nth_rewrite 1 [← List.map_snd_zip h.length_eq.ge]
  rw [List.map_map]
  rfl

end Replies

/-- The chunks that count, those of the servers that succeeded at once first. -/
def SingleHop.covered (request : SingleHop κ ν τ)
    (firstCovers retryCovers : SubRequest κ ν τ → List (List κ)) : List (Covering κ ν τ) :=
  ((request.parts.filter fun part => part.Succeeded).flatMap fun part =>
      (firstCovers part).zip part.first.chunks) ++
    (request.parts.filter fun part => ¬ part.Succeeded).flatMap fun part =>
      (retryCovers part).zip part.retry.chunks

/-- No reply that counts has tags. -/
def SingleHop.AllUntagged (request : SingleHop κ ν τ) : Prop :=
  ∀ part ∈ request.parts,
    Untagged (if part.Succeeded then part.first.chunks else part.retry.chunks)

/-- The servers that succeeded at once were sent their keys in the order of their vectors of keys,
and tagged all of them. -/
def SingleHop.TaggedInOrder (request : SingleHop κ ν τ)
    (firstCovers : SubRequest κ ν τ → List (List κ)) : Prop :=
  ∀ part ∈ request.parts, part.Succeeded →
    AllTagged (firstCovers part) part.first.chunks ∧ (firstCovers part).flatten = part.keys

namespace BulkUpdate

/-- No reply that is read has keys and, if the operation is applied, the loop has keys to read and
either no reply that counts has tags, or all keys that it reads were tagged, in their order. -/
def WellTagged (update : BulkUpdate κ ν τ) : Prop :=
  match update.route with
  | .singleHop request firstCovers _ =>
    (∀ part ∈ request.parts, part.Readable) ∧
      ((∀ part ∈ request.parts, part.Complete) → update.cachingEnabled = true →
        request.AllUntagged ∨ request.TaggedInOrder firstCovers)
  | .multiHop _ _ attempt covers =>
    PartList.Keyless attempt.chunks ∧
      (attempt.outcome.err = .noErr → update.cachingEnabled = true →
        update.isPRSingleHopEnabled = false ∧
          (Untagged attempt.chunks ∨ AllTagged covers attempt.chunks))

/-- No local operation fails, no key is there twice, and the tags that were sent are all different
and none of them is null. -/
def Distinct (update : BulkUpdate κ ν τ) : Prop :=
  (∀ index, update.localErr index = false) ∧
    match update.route with
    | .singleHop request firstCovers retryCovers =>
      (request.parts.flatMap fun part => part.keys).Nodup ∧
        ((request.covered firstCovers retryCovers).flatMap Covering.tags).Nodup ∧
        none ∉ (request.covered firstCovers retryCovers).flatMap Covering.tags
    | .multiHop _ _ attempt covers =>
      ((covers.zip attempt.chunks).flatMap Covering.tags).Nodup ∧
        none ∉ (covers.zip attempt.chunks).flatMap Covering.tags

section MultiHop

variable {op : BulkOp} {localErr : ℕ → Bool} {covers : List (List κ)}
  {chunks : List (PartListData κ ν τ)} (h : Covers covers.flatten covers chunks)

include h

/-- The tags of a reply over several hops stay with their keys if no chunk has tags or every chunk
that covers a key has. -/
lemma aligned_multiHop (htags : Untagged chunks ∨ AllTagged covers chunks) :
    Aligned op localErr ((covers.zip chunks).flatMap sentTags)
      ((covers.zip chunks).flatMap Covering.tags) 0 covers.flatten := by
  rw [← h.flatMap_fst]
  rcases htags with huntagged | htagged
  · have hnone : ∀ c ∈ covers.zip chunks, Covering.tags c = [] := fun c hc =>
      huntagged c.2 (List.of_mem_zip hc).2
    rw [List.flatMap_eq_nil_iff.mpr hnone]
    exact aligned_of_untagged fun key => mem_sentTags_of_untagged h.answers hnone
  · refine aligned_of_beginning h.answers ?_ (List.Subset.refl _)
    rw [flatMap_taggedKeys_eq_iff.mpr htagged]

/-- Otherwise they do not, if they are all different. -/
lemma tagged_of_aligned_multiHop (hlocal : ∀ index, localErr index = false)
    (hnodup : ((covers.zip chunks).flatMap Covering.tags).Nodup)
    (hnull : none ∉ (covers.zip chunks).flatMap Covering.tags)
    (haligned : Aligned op localErr ((covers.zip chunks).flatMap sentTags)
      ((covers.zip chunks).flatMap Covering.tags) 0 covers.flatten) :
    Untagged chunks ∨ AllTagged covers chunks := by
  by_cases hnil : (covers.zip chunks).flatMap Covering.tags = []
  · exact .inl (h.tags_eq_nil_iff.mp hnil)
  · have hbegins := prefix_of_aligned h.answers hlocal hnil hnodup hnull (List.Subset.refl _)
      haligned
    rw [← h.flatMap_fst] at hbegins
    exact .inr (flatMap_taggedKeys_eq_iff.mp
      ((sublist_flatMap_taggedKeys _).antisymm hbegins.sublist))

end MultiHop

section SingleHop

variable {request : SingleHop κ ν τ} {firstCovers retryCovers : SubRequest κ ν τ → List (List κ)}
  (hanswered : (Route.singleHop request firstCovers retryCovers).Answered)

include hanswered

/-- All the keys that the loop reads are covered. -/
lemma firstKeys_subset_covered :
    SingleHop.firstKeys request.parts ⊆
      (request.covered firstCovers retryCovers).flatMap Prod.fst := by
  intro key hkey
  obtain ⟨part, hpart, hmem⟩ := List.mem_flatMap.mp hkey
  obtain ⟨hparts, hsucceeded⟩ := List.mem_filter.mp hpart
  have hcovers := ((hanswered part hparts).1 (by simpa using hsucceeded)).1
  rw [SingleHop.covered, List.flatMap_append, List.flatMap_assoc]
  refine List.mem_append_left _ (List.mem_flatMap.mpr ⟨part, hpart, ?_⟩)
  rw [hcovers.flatMap_fst]
  exact hcovers.perm.mem_iff.mpr hmem

/-- The keys of the loop are the first ones that were tagged if all servers that succeeded at once
tagged their keys, in order. -/
lemma firstKeys_begin (htagged : request.TaggedInOrder firstCovers) :
    SingleHop.firstKeys request.parts <+:
      (request.covered firstCovers retryCovers).flatMap taggedKeys := by
  have hfirst : SingleHop.firstKeys request.parts =
      (request.parts.filter fun part => part.Succeeded).flatMap fun part =>
        ((firstCovers part).zip part.first.chunks).flatMap taggedKeys := by
    refine congrArg List.flatten (List.map_congr_left fun part hpart => ?_)
    obtain ⟨hmem, hsucceeded⟩ := List.mem_filter.mp hpart
    obtain ⟨hall, horder⟩ := htagged part hmem (by simpa using hsucceeded)
    have hcovers := ((hanswered part hmem).1 (by simpa using hsucceeded)).1
    rw [flatMap_taggedKeys_eq_iff.mpr hall, hcovers.flatMap_fst, horder]
  rw [hfirst, SingleHop.covered, List.flatMap_append, List.flatMap_assoc]
  exact List.prefix_append _ _

variable (hcomplete : ∀ part ∈ request.parts, part.Complete)

include hcomplete

/-- A part that did not succeed at once succeeded by its retry. -/
lemma covers_of_retried {part : SubRequest κ ν τ} (hpart : part ∈ request.parts)
    (hnot : ¬ part.Succeeded) :
    (part.Retried ∧ part.retry.outcome.err = .noErr) ∧
      Covers part.keys (retryCovers part) part.retry.chunks := by
  have hretry := (hcomplete part hpart).resolve_left hnot
  exact ⟨hretry, (hanswered part hpart).2 hnot hretry.2⟩

lemma answers_covered : ∀ c ∈ request.covered firstCovers retryCovers, Answers c := by
  intro c hc
  simp only [SingleHop.covered, List.mem_append, List.mem_flatMap, List.mem_filter,
    decide_eq_true_eq] at hc
  rcases hc with ⟨part, ⟨hpart, hsucceeded⟩, hmem⟩ | ⟨part, ⟨hpart, hnot⟩, hmem⟩
  · exact ((hanswered part hpart).1 hsucceeded).1.answers c hmem
  · exact (covers_of_retried hanswered hcomplete hpart hnot).2.answers c hmem

/-- The vector of tags has the tags of the chunks that count. -/
lemma tags_covered (hreadable : ∀ part ∈ request.parts, part.Readable) :
    SingleHop.firstTags request.parts ++ SingleHop.retryTags request.parts =
      (request.covered firstCovers retryCovers).flatMap Covering.tags := by
  have hfilter : (request.parts.filter fun part =>
      part.Retried ∧ part.retry.outcome.err = .noErr) =
      request.parts.filter fun part => ¬ part.Succeeded := by
    refine List.filter_congr fun part hpart => decide_eq_decide.mpr ⟨fun h hs => h.1.1 hs, ?_⟩
    exact fun h => (covers_of_retried hanswered hcomplete hpart h).1
  rw [SingleHop.firstTags, SingleHop.retryTags, hfilter, SingleHop.covered, List.flatMap_append,
    List.flatMap_assoc, List.flatMap_assoc]
  congr 1
  · refine congrArg List.flatten (List.map_congr_left fun part hpart => ?_)
    obtain ⟨hmem, hsucceeded⟩ := List.mem_filter.mp hpart
    exact ((hanswered part hmem).1 (by simpa using hsucceeded)).1.tagsOf_eq (hreadable part hmem).1
  · refine congrArg List.flatten (List.map_congr_left fun part hpart => ?_)
    obtain ⟨hmem, hnot⟩ := List.mem_filter.mp hpart
    obtain ⟨hretry, hcovers⟩ :=
      covers_of_retried hanswered hcomplete hmem (by simpa using hnot)
    exact hcovers.tagsOf_eq ((hreadable part hmem).2 hretry.1)

/-- And only then, if the keys are distinct. -/
lemma tagged_of_beginning (hnodup : (request.parts.flatMap fun part => part.keys).Nodup)
    (hbegins : SingleHop.firstKeys request.parts <+:
      (request.covered firstCovers retryCovers).flatMap taggedKeys) :
    request.TaggedInOrder firstCovers := by
  have hsplit := ((List.filter_append_perm (fun part : SubRequest κ ν τ =>
    decide part.Succeeded) request.parts).flatMap_right fun part => part.keys).nodup_iff.mpr hnodup
  rw [List.flatMap_append] at hsplit
  obtain ⟨hfirst, -, hdisjoint⟩ := List.nodup_append'.mp hsplit
  rw [SingleHop.covered, List.flatMap_append, List.flatMap_assoc, List.flatMap_assoc] at hbegins
  have hcovers {part : SubRequest κ ν τ}
      (hpart : part ∈ request.parts.filter fun part => part.Succeeded) :
      Covers part.keys (firstCovers part) part.first.chunks := by
    obtain ⟨hmem, hsucceeded⟩ := List.mem_filter.mp hpart
    exact ((hanswered part hmem).1 (by simpa using hsucceeded)).1
  have hsublist {part : SubRequest κ ν τ}
      (hpart : part ∈ request.parts.filter fun part => part.Succeeded) :
      (((firstCovers part).zip part.first.chunks).flatMap taggedKeys).Sublist
        (firstCovers part).flatten := by
    rw [← (hcovers hpart).flatMap_fst]
    exact sublist_flatMap_taggedKeys _
  have heq := eq_of_flatMap_beginning (f := fun part : SubRequest κ ν τ => part.keys)
    (fun part hpart => (hcovers hpart).perm.length_eq ▸ (hsublist hpart).length_le)
    (fun part hpart => List.Subset.trans (hsublist hpart).subset (hcovers hpart).perm.subset) hfirst
    (fun key hkey hmem => ?_) hbegins
  · intro part hpart hsucceeded
    have hmem : part ∈ request.parts.filter fun part => part.Succeeded :=
      List.mem_filter.mpr ⟨hpart, by simpa using hsucceeded⟩
    have hall := (hsublist hmem).eq_of_length (by
      rw [heq part hmem, (hcovers hmem).perm.length_eq])
    refine ⟨flatMap_taggedKeys_eq_iff.mp ?_, hall.symm.trans (heq part hmem)⟩
    rw [hall, (hcovers hmem).flatMap_fst]
  · -- a key of a retried part is not one of a part that succeeded at once
    obtain ⟨part, hpart, hkey⟩ := List.mem_flatMap.mp hkey
    obtain ⟨hmem', hnot⟩ := List.mem_filter.mp hpart
    have hretry := (covers_of_retried hanswered hcomplete hmem' (by simpa using hnot)).2
    have hkeys := (sublist_flatMap_taggedKeys _).subset hkey
    rw [hretry.flatMap_fst] at hkeys
    refine hdisjoint hmem (List.mem_flatMap.mpr ⟨part, ?_, hretry.perm.subset hkeys⟩)
    simpa using hpart

/-- There are no tags exactly if no chunk that counts has one. -/
lemma tags_covered_eq_nil_iff :
    (request.covered firstCovers retryCovers).flatMap Covering.tags = [] ↔
      request.AllUntagged := by
  rw [SingleHop.covered, List.flatMap_append, List.append_eq_nil_iff, List.flatMap_assoc,
    List.flatMap_assoc, List.flatMap_eq_nil_iff, List.flatMap_eq_nil_iff]
  simp only [List.mem_filter, decide_eq_true_eq, and_imp]
  constructor
  · rintro ⟨hfirst, hretry⟩ part hpart
    split
    · next hs => exact ((hanswered part hpart).1 hs).1.tags_eq_nil_iff.mp (hfirst part hpart hs)
    · next hs =>
      exact (covers_of_retried hanswered hcomplete hpart hs).2.tags_eq_nil_iff.mp
        (hretry part hpart hs)
  · intro huntagged
    refine ⟨fun part hpart hs => ?_, fun part hpart hs => ?_⟩
    · have := huntagged part hpart
      rw [if_pos hs] at this
      exact ((hanswered part hpart).1 hs).1.tags_eq_nil_iff.mpr this
    · have := huntagged part hpart
      rw [if_neg hs] at this
      exact (covers_of_retried hanswered hcomplete hpart hs).2.tags_eq_nil_iff.mpr this

variable {localErr : ℕ → Bool} {sent : List (κ × Option τ)}
  (hreadable : ∀ part ∈ request.parts, part.Readable)
  (hsent : ∀ x, x ∈ sent ↔ x ∈ (request.covered firstCovers retryCovers).flatMap sentTags)

include hreadable hsent

/-- The tags of an operation with single hop stay with their keys if no reply that counts has tags
or the keys of the servers that succeeded at once were all tagged in their order. -/
lemma aligned_singleHop (h : request.AllUntagged ∨ request.TaggedInOrder firstCovers) :
    Aligned request.op localErr sent
      (SingleHop.firstTags request.parts ++ SingleHop.retryTags request.parts) 0
      (SingleHop.firstKeys request.parts) := by
  have hanswers := answers_covered hanswered hcomplete
  have hnil := tags_covered_eq_nil_iff hanswered hcomplete
  rw [tags_covered hanswered hcomplete hreadable]
  rcases h with huntagged | htagged
  · rw [hnil.mpr huntagged]
    refine aligned_of_untagged fun key hkey => (hsent _).mpr ?_
    exact mem_sentTags_of_untagged hanswers (List.flatMap_eq_nil_iff.mp (hnil.mpr huntagged))
      (firstKeys_subset_covered hanswered hkey)
  · exact aligned_of_beginning hanswers (firstKeys_begin hanswered htagged) fun x => (hsent x).mpr

/-- Otherwise they do not, if they are all different. -/
lemma tagged_of_aligned_singleHop (hlocal : ∀ index, localErr index = false)
    (hkeys : (request.parts.flatMap fun part => part.keys).Nodup)
    (hnodup : ((request.covered firstCovers retryCovers).flatMap Covering.tags).Nodup)
    (hnull : none ∉ (request.covered firstCovers retryCovers).flatMap Covering.tags)
    (h : Aligned request.op localErr sent
      (SingleHop.firstTags request.parts ++ SingleHop.retryTags request.parts) 0
      (SingleHop.firstKeys request.parts)) :
    request.AllUntagged ∨ request.TaggedInOrder firstCovers := by
  rw [tags_covered hanswered hcomplete hreadable] at h
  by_cases hempty : (request.covered firstCovers retryCovers).flatMap Covering.tags = []
  · exact .inl ((tags_covered_eq_nil_iff hanswered hcomplete).mp hempty)
  · exact .inr (tagged_of_beginning hanswered hcomplete hkeys
      (prefix_of_aligned (answers_covered hanswered hcomplete) hlocal hempty hnodup hnull
        (fun x => (hsent x).mp) h))

end SingleHop

variable [DecidableEq κ] {update : BulkUpdate κ ν τ}

/-- What is passed once the remote part has returned. -/
lemma tagsStay_of_remote [DecidableEq τ] {err : BulkErrType}
    {list : PartList κ τ} (hremote : update.remote = .returns (err, list)) :
    update.TagsStay ↔ (err = .noErr → update.cachingEnabled = true →
      ∃ keys, update.localKeys list = some keys ∧
        Aligned update.op update.localErr update.sent list.versionTags 0 keys) := by
  unfold TagsStay noThrow
  rw [hremote, Behaviour.returns_bind]
  by_cases hcond : err = .noErr ∧ update.cachingEnabled = true
  · simp only [hcond]
    cases hkeys : update.localKeys list with
    | none => simp
    | some keys =>
      simp only [Behaviour.deref_some, Behaviour.returns_bind, some.injEq, exists_eq_left']
      rw [← applyAll_iff]
      cases happly : applyAll update.op list.versionTags update.localErr 0 keys with
      | none | some => simp
  · rw [if_neg hcond]
    refine iff_of_true (by simp) fun herr hcaching => absurd ⟨herr, hcaching⟩ hcond

/-- With single hop the loop reads the keys of the servers that succeeded at once, and behind their
tags those of the retries. -/
lemma tagsStay_singleHop [DecidableEq τ] {request : SingleHop κ ν τ}
    {firstCovers retryCovers : SubRequest κ ν τ → List (List κ)}
    (hroute : update.route = .singleHop request firstCovers retryCovers) :
    update.TagsStay ↔ (∀ part ∈ request.parts, part.Readable) ∧
      ((∀ part ∈ request.parts, part.Complete) → update.cachingEnabled = true →
        Aligned request.op update.localErr update.sent
          (SingleHop.firstTags request.parts ++ SingleHop.retryTags request.parts) 0
          (SingleHop.firstKeys request.parts)) := by
  have hop : update.op = request.op := by rw [op, hroute]
  rcases request.singleHopNoThrow_remote_eq with ⟨⟨part, hpart, hnot⟩, hundefined⟩ |
    ⟨hreadable, err, result, hreturns, htemp, htags, herr⟩
  · refine iff_of_false ?_ fun h => hnot (h.1 part hpart)
    simp [TagsStay, noThrow, remote, hroute, hundefined]
  · have hremote : update.remote = .returns (err, result.succeededKeysAndVersions) := by
      simp [remote, hroute, hreturns]
    have hkeys : update.localKeys result.succeededKeysAndVersions
        = some (SingleHop.firstKeys request.parts) := by
      simp only [localKeys, hroute]
      exact htemp
    rw [tagsStay_of_remote hremote, hkeys, herr, htags, hop]
    simp only [some.injEq, exists_eq_left']
    exact ⟨fun h => ⟨hreadable, h⟩, fun h => h.2⟩

/-- Otherwise it reads the user's keys, unless an operation with single hop came before. -/
lemma tagsStay_multiHop [DecidableEq τ] {op : BulkOp} {keys : List κ} {attempt : Attempt κ ν τ}
    {covers : List (List κ)} (hroute : update.route = .multiHop op keys attempt covers) :
    update.TagsStay ↔ PartList.Keyless attempt.chunks ∧
      (attempt.outcome.err = .noErr → update.cachingEnabled = true →
        update.isPRSingleHopEnabled = false ∧
          Aligned op update.localErr update.sent (PartList.tagsOf attempt.chunks) 0 keys) := by
  have hop : update.op = op := by rw [BulkUpdate.op, hroute]
  rcases PartList.handleChunks_eq attempt.chunks (PartList.ofRegion : PartList κ τ) with
    ⟨hnot, hnone⟩ | ⟨hkeyless, list, hlist, htemp, -, htags⟩
  · refine iff_of_false ?_ fun h => hnot h.1
    simp [TagsStay, noThrow, remote, hroute, hnone]
  · have hremote : update.remote = .returns (attempt.outcome.err, list) := by
      simp only [remote, hroute, hlist]
    have hkeys : update.localKeys list
        = if update.isPRSingleHopEnabled then none else some keys := by
      simp only [localKeys, hroute, htemp]
      rfl
    rw [tagsStay_of_remote hremote, hkeys, hop, htags]
    cases update.isPRSingleHopEnabled with
    | true => simp [hkeyless]
    | false =>
      simp only [Bool.false_eq_true, if_false, some.injEq, exists_eq_left', true_and, hkeyless]
      rfl

/-- A chunk that has tags, or none, and nothing else. -/
def tagChunk (tags : Option (List (Option ℕ))) : PartListData ℕ Unit ℕ :=
  ⟨none, none, tags, true⟩

/-- A part that succeeds at once with a reply of one chunk. -/
def onePart (key : ℕ) (keys : List ℕ) (tags : Option (List (Option ℕ))) :
    SubRequest ℕ Unit ℕ where
  keys := key :: keys
  first := ⟨.success, [tagChunk tags]⟩
  retry := ⟨.success, []⟩
  keys_ne_nil := List.cons_ne_nil _ _
  first_subset := fun _ => id
  retry_subset := fun _ => id

/-- `putAll` sends a map of the keys, whose order is not that of the vector of keys: the
server answers for the second key first. -/
def otherOrder : BulkUpdate ℕ Unit ℕ where
  route := .singleHop ⟨.putAll, [onePart 1 [2] (some [some 20, some 10])]⟩ (fun _ => [[2, 1]])
    fun _ => []
  cachingEnabled := true
  isPRSingleHopEnabled := false
  localErr := fun _ => false
  answered := by
    intro part hpart
    rw [List.mem_singleton.mp hpart]
    exact ⟨fun _ => ⟨⟨by decide, rfl, by decide⟩, by decide⟩, fun h => absurd rfl h⟩

/-- The first of two servers sends no tags. -/
def firstUntagged : BulkUpdate ℕ Unit ℕ where
  route := .singleHop ⟨.removeAll, [onePart 1 [] none, onePart 2 [] (some [some 20])]⟩
    (fun part => [part.keys]) fun _ => []
  cachingEnabled := true
  isPRSingleHopEnabled := false
  localErr := fun _ => false
  answered := by
    intro part hpart
    rcases List.mem_pair.mp hpart with rfl | rfl
    · exact ⟨fun _ => ⟨⟨by decide, rfl, by decide⟩, fun _ => rfl⟩, fun h => absurd rfl h⟩
    · exact ⟨fun _ => ⟨⟨by decide, rfl, by decide⟩, fun _ => rfl⟩, fun h => absurd rfl h⟩

/-- After an operation with single hop, one that takes several hops reads a null vector. -/
def hopsAfterSingleHop : BulkUpdate ℕ Unit ℕ where
  route := .multiHop .putAll [1] ⟨.success, [tagChunk (some [some 10])]⟩ [[1]]
  cachingEnabled := true
  isPRSingleHopEnabled := true
  localErr := fun _ => false
  answered := fun _ => ⟨⟨by decide, rfl, by decide⟩, rfl⟩

end BulkUpdate

end GeodeNative
