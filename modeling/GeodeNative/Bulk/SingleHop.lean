import GeodeNative.Bulk.PartList

/-!
# Bulk operations that go straight to the servers

With single hop enabled, `putAll` and `removeAll` split the user's keys over the servers that
have their buckets. A worker sends each part to its server; the results are collected in a
`PutAllPartialResult`, and the parts whose server failed are sent once more, by the way that
may take several hops.

A worker's list is made with the vector of its keys itself, not with a copy. The member
`m_papException` of a worker is never set, so that the value recorded for a part with a
partial result is the null pointer. The entries of the maps by server are visited in the
order of the parts; since a part is either in the map of results or retried, any order of the
two hash maps is the order of some list of parts.
-/

namespace GeodeNative

open List

variable {κ ν τ : Type}

open PartList

/-- The two bulk operations. -/
inductive BulkOp
  | putAll
  | removeAll
  deriving DecidableEq

/-- The error codes that matter here. -/
inductive BulkErrType
  | noErr
  | putAllPartialResult
  | other (code : ℤ)
  deriving DecidableEq

/-- How a request to a server ends: with success, with an exception that reports a partial
result, or with another error. -/
inductive RequestOutcome (κ : Type)
  | success
  | partialResult (acknowledged : List κ)
  | failure (code : ℤ)

/-- The outcome of a request, and the chunks that were handled of its reply. -/
structure Attempt (κ ν τ : Type) where
  outcome : RequestOutcome κ
  chunks : List (PartListData κ ν τ)

namespace RequestOutcome

def err : RequestOutcome κ → BulkErrType
  | success => .noErr
  | partialResult _ => .putAllPartialResult
  | failure code => .other code

/-- Which of the keys sent were acknowledged. -/
def acknowledged (keys : List κ) : RequestOutcome κ → List κ
  | success => keys
  | partialResult acknowledged => acknowledged
  | failure _ => []

end RequestOutcome

/-- The part of an operation that goes to one server: its keys, the first attempt, and the
retry that follows if the first one fails. -/
structure SubRequest (κ ν τ : Type) where
  keys : List κ
  first : Attempt κ ν τ
  retry : Attempt κ ν τ
  keys_ne_nil : keys ≠ []
  first_subset : ∀ key ∈ first.outcome.acknowledged keys, key ∈ keys
  retry_subset : ∀ key ∈ retry.outcome.acknowledged keys, key ∈ keys

/-- An operation with the parts into which its keys are split. A vector of keys that are to be
removed may have a key twice. -/
structure SingleHop (κ ν τ : Type) where
  op : BulkOp
  parts : List (SubRequest κ ν τ)

/-- What is collected: the keys that succeeded, and the first one that failed. -/
structure PutAllPartialResult (κ τ : Type) where
  succeededKeysAndVersions : PartList κ τ
  firstFailedKey : Option κ

open PutAllPartialResult

/-- The exceptions of the two operations. -/
inductive BulkException
  | illegalState (message : String)
  | outOfRange
  deriving DecidableEq

namespace PutAllPartialResult

def empty : PutAllPartialResult κ τ :=
  ⟨PartList.ofKeys [], none⟩

def addKeysAndVersions (result : PutAllPartialResult κ τ) (keysAndVersion : PartList κ τ) :
    PutAllPartialResult κ τ :=
  { result with
    succeededKeysAndVersions := result.succeededKeysAndVersions.addAll keysAndVersion }

/-- Keeps the first failed key. -/
def saveFailedKey (result : PutAllPartialResult κ τ) (key : Option κ) :
    PutAllPartialResult κ τ :=
  match result.firstFailedKey with
  | some _ => result
  | none => { result with firstFailedKey := key }

def consolidate (result other : PutAllPartialResult κ τ) : PutAllPartialResult κ τ :=
  (result.addKeysAndVersions other.succeededKeysAndVersions).saveFailedKey other.firstFailedKey

def addKeys (result : PutAllPartialResult κ τ) (keys : List κ) :
    Behaviour BulkException (PutAllPartialResult κ τ) :=
  if 0 < result.succeededKeysAndVersions.versionTags.length then
    .throws (.illegalState
      "attempt to store versionless keys when there are already versioned results")
  else
    .returns { result with
      succeededKeysAndVersions := result.succeededKeysAndVersions.addAllKeys keys }

/-- The keys that are reported as succeeded. -/
def succeededKeys (result : PutAllPartialResult κ τ) : List κ :=
  result.succeededKeysAndVersions.tempKeys.getD []

end PutAllPartialResult

/-- A worker after it has run. -/
structure BulkWork (κ ν τ : Type) where
  part : SubRequest κ ν τ
  err : BulkErrType
  list : PartList κ τ
  papException : Option (PutAllPartialResult κ τ)

/-- What the map of results has for a server. -/
inductive ResultValue (κ τ : Type)
  | list (list : PartList κ τ)
  | exception (result : Option (PutAllPartialResult κ τ))

namespace BulkWork

/-- Runs a worker: the chunks of the reply are added to a list that starts with the keys of
the server; its tags are then set to its own tags. -/
def execute (part : SubRequest κ ν τ) : Option (BulkWork κ ν τ) :=
  ((PartList.ofKeys part.keys).handleChunks part.first.chunks).map fun list =>
    ⟨part, part.first.outcome.err, list.setVersionedTagptr list.versionTags, none⟩

/-- The entry in the map of results. -/
def value (worker : BulkWork κ ν τ) : Option (ResultValue κ τ) :=
  match worker.err with
  | .noErr => some (.list worker.list)
  | .putAllPartialResult => some (.exception worker.papException)
  | .other _ => none

/-- The keys of the server in the map of locations, which share the worker's vector. -/
def locationKeys (worker : BulkWork κ ν τ) : List κ :=
  worker.list.tempKeys.getD []

end BulkWork

namespace SingleHop

variable [DecidableEq κ]

def userKeys (request : SingleHop κ ν τ) : List κ :=
  request.parts.flatMap fun part => part.keys

def executeAll : List (SubRequest κ ν τ) → Option (List (BulkWork κ ν τ))
  | [] => some []
  | part :: parts =>
    match BulkWork.execute part, executeAll parts with
    | some worker, some workers => some (worker :: workers)
    | _, _ => none

def failedServers (workers : List (BulkWork κ ν τ)) : List (BulkWork κ ν τ) :=
  workers.filter fun worker => worker.err ≠ .noErr

/-- Gathers keys when the partial result has none; the servers looked for are the failed
ones. -/
def gatherKeys (result : PutAllPartialResult κ τ) (workers : List (BulkWork κ ν τ)) :
    Behaviour BulkException (PutAllPartialResult κ τ) :=
  if (failedServers workers).isEmpty then .returns result
  else if result.succeededKeysAndVersions.size = 0 then
    result.addKeys ((failedServers workers).flatMap BulkWork.locationKeys)
  else .returns result

/-- The keys that are sent again: a map of the user's entries, or the vector itself. -/
def retryKeys (request : SingleHop κ ν τ) (failedKeys : List κ) : List κ :=
  match request.op with
  | .putAll => (failedKeys.filter fun key => key ∈ request.userKeys).eraseDups
  | .removeAll => failedKeys

/-- The key that is saved as failed: the first one of a map, or of a vector. -/
def firstKey (op : BulkOp) (keys : List κ) : Behaviour BulkException κ :=
  match op, keys with
  | _, key :: _ => .returns key
  | .putAll, [] => .undefined
  | .removeAll, [] => .throws .outOfRange

/-- The variables of the last loop. -/
structure RetryState (κ τ : Type) where
  result : PutAllPartialResult κ τ
  error : BulkErrType
  oneSubMapRetryFailed : Bool

/-- Retries one failed server, unless it reported a partial result. -/
def retryOne (request : SingleHop κ ν τ) (s : RetryState κ τ) (worker : BulkWork κ ν τ) :
    Behaviour BulkException (RetryState κ τ) :=
  match worker.err with
  | .putAllPartialResult =>
    .returns { s with error := .putAllPartialResult, oneSubMapRetryFailed := true }
  | _ =>
    match (PartList.ofRegion : PartList κ τ).handleChunks worker.part.retry.chunks with
    | none => .undefined
    | some vcopList =>
      match worker.part.retry.outcome with
      | .success => .returns { s with result := s.result.addKeysAndVersions vcopList }
      | .partialResult _ =>
        .returns { s with error := .putAllPartialResult, oneSubMapRetryFailed := true }
      | .failure code => do
        let key ← firstKey request.op (request.retryKeys worker.locationKeys)
        return ⟨s.result.saveFailedKey (some key), .other code, true⟩

/-- The loop over the failed servers. -/
def retryAll (request : SingleHop κ ν τ) :
    RetryState κ τ → List (BulkWork κ ν τ) → Behaviour BulkException (RetryState κ τ)
  | s, [] => .returns s
  | s, worker :: workers => do
    let next ← request.retryOne s worker
    retryAll request next workers

/-- Adds one entry of the map of results; a null pointer is neither of the two types. -/
def collectOne (result : PutAllPartialResult κ τ) (worker : BulkWork κ ν τ) :
    PutAllPartialResult κ τ :=
  match worker.value with
  | some (.list list) => result.addKeysAndVersions list
  | some (.exception (some other)) => result.consolidate other
  | some (.exception none) => result
  | none => result

/-- What is returned: the error of a failed retry, and the succeeded keys with their
versions. -/
def RetryState.returned (s : RetryState κ τ) : BulkErrType × PutAllPartialResult κ τ :=
  (if s.oneSubMapRetryFailed then s.error else .noErr, s.result)

/-- `singleHopPutAllNoThrow_remote` and `singleHopRemoveAllNoThrow_remote`, for a location map
that was found. -/
def singleHopNoThrow_remote (request : SingleHop κ ν τ) :
    Behaviour BulkException (BulkErrType × PutAllPartialResult κ τ) :=
  match executeAll request.parts with
  | none => .undefined
  | some workers => do
    let gathered ← gatherKeys (workers.foldl collectOne .empty) workers
    let s ← request.retryAll ⟨gathered, .noErr, false⟩ (failedServers workers)
    return s.returned

/-! ## What each part contributes -/

end SingleHop

namespace SubRequest

/-- The first attempt failed, so that there is a retry. -/
def Retried (part : SubRequest κ ν τ) : Prop :=
  part.first.outcome.err ≠ .noErr ∧ part.first.outcome.err ≠ .putAllPartialResult
  deriving Decidable

/-- The server answered the first attempt with success. -/
def Succeeded (part : SubRequest κ ν τ) : Prop :=
  part.first.outcome.err = .noErr
  deriving Decidable

/-- All keys were acknowledged, at the first attempt or by the retry. -/
def Complete (part : SubRequest κ ν τ) : Prop :=
  part.Succeeded ∨ (part.Retried ∧ part.retry.outcome.err = .noErr)
  deriving Decidable

/-- The replies to the part have no keys. -/
def Readable (part : SubRequest κ ν τ) : Prop :=
  PartList.Keyless part.first.chunks ∧ (part.Retried → PartList.Keyless part.retry.chunks)
  deriving Decidable

end SubRequest

namespace BulkWork

/-- A worker has run its part: its list has the keys of the part and the tags of the
reply. -/
structure Ran (part : SubRequest κ ν τ) (worker : BulkWork κ ν τ) : Prop where
  part_eq : worker.part = part
  err_eq : worker.err = part.first.outcome.err
  papException_eq : worker.papException = none
  tempKeys_eq : worker.list.tempKeys = some part.keys
  versionTags_eq : worker.list.versionTags = PartList.tagsOf part.first.chunks

lemma execute_eq (part : SubRequest κ ν τ) :
    (¬ PartList.Keyless part.first.chunks ∧ execute part = none) ∨
      (PartList.Keyless part.first.chunks ∧ ∃ worker, execute part = some worker ∧
        Ran part worker) := by
  rcases handleChunks_eq part.first.chunks (ofKeys part.keys) with
    ⟨hnot, hnone⟩ | ⟨hkeyless, list, hlist, htemp, -, htags⟩
  · exact .inl ⟨hnot, by rw [execute, hnone]; rfl⟩
  · exact .inr ⟨hkeyless, _, by rw [execute, hlist]; rfl, ⟨rfl, rfl, rfl, htemp, htags⟩⟩

end BulkWork

namespace SingleHop

lemma executeAll_eq (parts : List (SubRequest κ ν τ)) :
    ((∃ part ∈ parts, ¬ PartList.Keyless part.first.chunks) ∧ executeAll parts = none) ∨
      ((∀ part ∈ parts, PartList.Keyless part.first.chunks) ∧
        ∃ workers, executeAll parts = some workers ∧ Forall₂ BulkWork.Ran parts workers) := by
  induction parts with
  | nil => exact .inr ⟨by simp, [], rfl, .nil⟩
  | cons part _ ih =>
    rcases BulkWork.execute_eq part with ⟨hnot, hnone⟩ | ⟨hkeyless, worker, hworker, hran⟩
    · exact .inl ⟨⟨part, mem_cons_self, hnot⟩, by simp only [executeAll, hnone]⟩
    · rcases ih with ⟨⟨bad, hbad, hnot⟩, hnone⟩ | ⟨hall, workers, hworkers, hforall⟩
      · refine .inl ⟨⟨bad, mem_cons_of_mem _ hbad, hnot⟩, ?_⟩
        simp only [executeAll, hworker, hnone]
      · refine .inr ⟨forall_mem_cons.mpr ⟨hkeyless, hall⟩, worker :: workers, ?_,
          .cons hran hforall⟩
        simp only [executeAll, hworker, hworkers]

/-! ## The results that are collected -/

/-- The keys of the servers that succeeded at once. -/
def firstKeys (parts : List (SubRequest κ ν τ)) : List κ :=
  (parts.filter fun part => part.Succeeded).flatMap fun part => part.keys

/-- The tags that these servers sent. -/
def firstTags (parts : List (SubRequest κ ν τ)) : List (Option τ) :=
  (parts.filter fun part => part.Succeeded).flatMap fun part =>
    PartList.tagsOf part.first.chunks

/-- The tags of the servers that succeeded when they were retried. -/
def retryTags (parts : List (SubRequest κ ν τ)) : List (Option τ) :=
  (parts.filter fun part => part.Retried ∧ part.retry.outcome.err = .noErr).flatMap fun part =>
    PartList.tagsOf part.retry.chunks

variable {part : SubRequest κ ν τ} {worker : BulkWork κ ν τ} {parts : List (SubRequest κ ν τ)}
  {workers : List (BulkWork κ ν τ)} (request : SingleHop κ ν τ)

/-- One entry of the map of results: the keys and tags of a server that succeeded. -/
lemma collectOne_eq (h : BulkWork.Ran part worker) (result : PutAllPartialResult κ τ) :
    collectOne result worker
      = if part.Succeeded then result.addKeysAndVersions worker.list else result := by
  unfold collectOne BulkWork.value
  rw [h.err_eq, h.papException_eq]
  by_cases hsucceeded : part.Succeeded
  · have herr : part.first.outcome.err = .noErr := hsucceeded
    rw [if_pos hsucceeded, herr]
  · rw [if_neg hsucceeded]
    cases herr : part.first.outcome.err with
    | noErr => exact absurd herr hsucceeded
    | putAllPartialResult | other => rfl

/-! ## The retries -/

lemma retryKeys_ne_nil [DecidableEq κ] (request : SingleHop κ ν τ)
    (hpart : part ∈ request.parts) : request.retryKeys part.keys ≠ [] := by
  obtain ⟨key, hkey⟩ := exists_mem_of_ne_nil _ part.keys_ne_nil
  unfold retryKeys
  cases request.op with
  | removeAll => exact part.keys_ne_nil
  | putAll =>
    refine ne_nil_of_mem (a := key) ?_
    rw [mem_eraseDups, mem_filter]
    exact ⟨hkey, decide_eq_true (mem_flatMap.mpr ⟨part, hpart, hkey⟩)⟩

/-- What retrying the failed ones of some parts does: a successful retry adds its tags, but no
keys, and a part that was not acknowledged leaves an error. -/
structure Retries (parts : List (SubRequest κ ν τ)) (s s' : RetryState κ τ) : Prop where
  tempKeys_eq : s'.result.succeededKeysAndVersions.tempKeys
    = s.result.succeededKeysAndVersions.tempKeys
  versionTags_eq : s'.result.succeededKeysAndVersions.versionTags
    = s.result.succeededKeysAndVersions.versionTags ++ retryTags parts
  of_complete : (∀ part ∈ parts, part.Complete) →
    s'.oneSubMapRetryFailed = s.oneSubMapRetryFailed
  of_incomplete : (∃ part ∈ parts, ¬ part.Complete) ∨
      (s.error ≠ .noErr ∧ s.oneSubMapRetryFailed = true) →
    s'.error ≠ .noErr ∧ s'.oneSubMapRetryFailed = true

/-- A part that succeeded at once is not retried. -/
lemma Retries.cons_of_succeeded
    {s s' : RetryState κ τ} (hsucceeded : part.Succeeded) (h : Retries parts s s') :
    Retries (part :: parts) s s' where
  __ := h
  versionTags_eq := by
    have hnot : ¬ part.Retried := fun hretried => hretried.1 hsucceeded
    rw [h.versionTags_eq]
    simp [retryTags, hnot]
  of_complete := fun hall => h.of_complete fun part' hpart' =>
    hall part' (mem_cons_of_mem _ hpart')
  of_incomplete := by
    rintro (⟨part', hpart', hincomplete⟩ | hs)
    · rcases mem_cons.mp hpart' with rfl | htail
      · exact absurd (.inl hsucceeded) hincomplete
      · exact h.of_incomplete (.inl ⟨part', htail, hincomplete⟩)
    · exact h.of_incomplete (.inr hs)

lemma Retries.cons
    {s s' s'' : RetryState κ τ} (hone : Retries [part] s s') (h : Retries parts s' s'') :
    Retries (part :: parts) s s'' where
  tempKeys_eq := h.tempKeys_eq.trans hone.tempKeys_eq
  versionTags_eq := by
    rw [h.versionTags_eq, hone.versionTags_eq]
    by_cases hretry : part.Retried ∧ part.retry.outcome.err = .noErr
    · simp [retryTags, hretry]
    · simp [retryTags, hretry]
  of_complete := by
    intro hall
    rw [h.of_complete fun part' hpart' => hall part' (mem_cons_of_mem _ hpart'),
      hone.of_complete fun part' hpart' => hall part' (by
        rw [mem_singleton.mp hpart']
        exact mem_cons_self)]
  of_incomplete := by
    rintro (⟨part', hpart', hincomplete⟩ | hs)
    · rcases mem_cons.mp hpart' with rfl | htail
      · exact h.of_incomplete (.inr (hone.of_incomplete (.inl ⟨part', mem_cons_self, hincomplete⟩)))
      · exact h.of_incomplete (.inl ⟨part', htail, hincomplete⟩)
    · exact h.of_incomplete (.inr (hone.of_incomplete (.inr hs)))

/-- A part that was not acknowledged, without changes to the succeeded keys. -/
lemma retries_of_incomplete {s s' : RetryState κ τ} (hincomplete : ¬ part.Complete)
    (hlist : s'.result.succeededKeysAndVersions = s.result.succeededKeysAndVersions)
    (herror : s'.error ≠ .noErr) (hflag : s'.oneSubMapRetryFailed = true) :
    Retries [part] s s' where
  tempKeys_eq := by rw [hlist]
  versionTags_eq := by
    have hnot : ¬ (part.Retried ∧ part.retry.outcome.err = .noErr) := fun hretry =>
      hincomplete (.inr hretry)
    rw [hlist]
    simp [retryTags, hnot]
  of_complete := fun hall => absurd (hall part mem_cons_self) hincomplete
  of_incomplete := fun _ => ⟨herror, hflag⟩

variable [DecidableEq κ]

/-- What one retry does: a server with a partial result is passed over, and a reply with keys
is undefined behaviour. -/
lemma retryOne_eq (hpart : part ∈ request.parts) (h : BulkWork.Ran part worker)
    (hfailed : ¬ part.Succeeded) (s : RetryState κ τ) :
    ((part.Retried ∧ ¬ PartList.Keyless part.retry.chunks) ∧
        request.retryOne s worker = .undefined) ∨
      ((part.Retried → PartList.Keyless part.retry.chunks) ∧ ∃ s',
        request.retryOne s worker = .returns s' ∧ Retries [part] s s') := by
  have herr : part.first.outcome.err ≠ .noErr := hfailed
  unfold retryOne
  rw [h.err_eq, h.part_eq]
  cases hfirst : part.first.outcome.err with
  | noErr => exact absurd hfirst herr
  | putAllPartialResult =>
    have hnot : ¬ part.Retried := fun hretried => hretried.2 hfirst
    have hincomplete : ¬ part.Complete := fun hc => hc.elim hfailed fun hr => hnot hr.1
    exact .inr ⟨fun hr => absurd hr hnot, _, rfl,
      retries_of_incomplete hincomplete rfl (by simp) rfl⟩
  | other =>
    have hretried : part.Retried := ⟨by simp [hfirst], by simp [hfirst]⟩
    rcases handleChunks_eq part.retry.chunks ofRegion with
      ⟨hnot, hnone⟩ | ⟨hkeyless, list, hlist, htemp, -, htags⟩
    · exact .inl ⟨⟨hretried, hnot⟩, by simp only [hnone]⟩
    · refine .inr ⟨fun _ => hkeyless, ?_⟩
      simp only [hlist]
      cases hretry : part.retry.outcome with
      | success =>
        have hok : part.retry.outcome.err = .noErr := by rw [hretry]; rfl
        have hcomplete : part.Complete := .inr ⟨hretried, hok⟩
        refine ⟨_, rfl, ⟨?_, ?_, fun _ => rfl, ?_⟩⟩
        · simp only [addKeysAndVersions, addAll]
          rw [htemp]
          rfl
        · simp only [addKeysAndVersions, addAll, htags]
          simp [retryTags, hretried, hok, ofRegion]
        · rintro (⟨part', hpart', hincomplete⟩ | hs)
          · rw [mem_singleton.mp hpart'] at hincomplete
            exact absurd hcomplete hincomplete
          · exact hs
      | partialResult =>
        have hbad : part.retry.outcome.err ≠ .noErr := by simp [hretry, RequestOutcome.err]
        have hincomplete : ¬ part.Complete := fun hc => hc.elim hfailed fun hr => hbad hr.2
        exact ⟨_, rfl, retries_of_incomplete hincomplete rfl (by simp) rfl⟩
      | failure code' =>
        have hbad : part.retry.outcome.err ≠ .noErr := by simp [hretry, RequestOutcome.err]
        have hincomplete : ¬ part.Complete := fun hc => hc.elim hfailed fun hr => hbad hr.2
        obtain ⟨key, _, hkeys⟩ := exists_cons_of_ne_nil (request.retryKeys_ne_nil hpart)
        have hsaved : (s.result.saveFailedKey (some key)).succeededKeysAndVersions
            = s.result.succeededKeysAndVersions := by
          unfold saveFailedKey
          split <;> rfl
        rw [BulkWork.locationKeys, h.tempKeys_eq, Option.getD_some, hkeys]
        exact ⟨⟨s.result.saveFailedKey (some key), .other code', true⟩, rfl,
          retries_of_incomplete hincomplete hsaved (by simp) rfl⟩

section

variable (h : Forall₂ BulkWork.Ran parts workers)

include h

omit [DecidableEq κ] in
/-- The keys and tags of all the servers that succeeded. -/
lemma foldl_collectOne (result : PutAllPartialResult κ τ)
    (keys : List κ) (hkeys : result.succeededKeysAndVersions.tempKeys = some keys) :
    (workers.foldl collectOne result).succeededKeysAndVersions.tempKeys
        = some (keys ++ firstKeys parts) ∧
      (workers.foldl collectOne result).succeededKeysAndVersions.versionTags
        = result.succeededKeysAndVersions.versionTags ++ firstTags parts ∧
      ((∀ part ∈ parts, ¬ part.Succeeded) → workers.foldl collectOne result = result) ∧
      ((∃ part ∈ parts, part.Succeeded) ∨ result.succeededKeysAndVersions.hasKeys = true →
        (workers.foldl collectOne result).succeededKeysAndVersions.hasKeys = true) := by
  induction h generalizing result keys with
  | nil => simpa [firstKeys, firstTags] using hkeys
  | @cons part worker parts workers hran _ ih =>
    rw [foldl_cons, collectOne_eq hran]
    by_cases hsucceeded : part.Succeeded
    · rw [if_pos hsucceeded]
      have hadd : (result.addKeysAndVersions worker.list).succeededKeysAndVersions.tempKeys
          = some (keys ++ part.keys) := by
        simp only [addKeysAndVersions, addAll, hran.tempKeys_eq, hkeys]
      obtain ⟨htemp, htags, -, hhas⟩ := ih _ _ hadd
      have hhas' : (result.addKeysAndVersions worker.list).succeededKeysAndVersions.hasKeys
          = true := by
        simp [addKeysAndVersions, addAll, hran.tempKeys_eq]
      refine ⟨?_, ?_, ?_, fun _ => hhas (.inr hhas')⟩
      · rw [htemp]
        simp [firstKeys, hsucceeded]
      · rw [htags]
        simp [firstTags, hsucceeded, addKeysAndVersions, addAll, hran.versionTags_eq]
      · intro hnone
        exact absurd hsucceeded (hnone part mem_cons_self)
    · rw [if_neg hsucceeded]
      obtain ⟨htemp, htags, hsame, hhas⟩ := ih result keys hkeys
      refine ⟨?_, ?_, ?_, ?_⟩
      · rw [htemp]
        simp [firstKeys, hsucceeded]
      · rw [htags]
        simp [firstTags, hsucceeded]
      · intro hnone
        exact hsame fun part' hpart' => hnone part' (mem_cons_of_mem _ hpart')
      · rintro (⟨part', hpart', hsucceeded'⟩ | hresult)
        · rcases mem_cons.mp hpart' with rfl | htail
          · exact absurd hsucceeded' hsucceeded
          · exact hhas (.inl ⟨part', htail, hsucceeded'⟩)
        · exact hhas (.inr hresult)

omit [DecidableEq κ] in
/-- Keys are never gathered: the size is that of a list with keys, or it is `-1`. -/
lemma gatherKeys_eq :
    gatherKeys (workers.foldl collectOne .empty) workers
      = .returns (workers.foldl collectOne .empty) := by
  obtain ⟨htemp, -, hsame, hhas⟩ := foldl_collectOne h .empty [] rfl
  have hsize : (workers.foldl collectOne .empty).succeededKeysAndVersions.size ≠ 0 := by
    by_cases hsome : ∃ part ∈ parts, part.Succeeded
    · obtain ⟨part, hpart, hsucceeded⟩ := hsome
      have hmem : ∀ key ∈ part.keys, key ∈ firstKeys parts := fun key hkey =>
        mem_flatMap.mpr ⟨part, mem_filter.mpr ⟨hpart, by simpa using hsucceeded⟩, hkey⟩
      have hne : firstKeys parts ≠ [] := by
        obtain ⟨key, hkey⟩ := exists_mem_of_ne_nil _ part.keys_ne_nil
        exact ne_nil_of_mem (hmem key hkey)
      rw [size, if_pos (hhas (.inl ⟨part, hpart, hsucceeded⟩)), htemp]
      simpa using hne
    · rw [hsame fun part hpart hsucceeded => hsome ⟨part, hpart, hsucceeded⟩]
      simp [empty, ofKeys, size]
  unfold gatherKeys
  split <;> rfl

lemma retryAll_eq (hparts : ∀ part ∈ parts, part ∈ request.parts) (s : RetryState κ τ) :
    ((∃ part ∈ parts, part.Retried ∧ ¬ PartList.Keyless part.retry.chunks) ∧
        request.retryAll s (failedServers workers) = .undefined) ∨
      ((∀ part ∈ parts, part.Retried → PartList.Keyless part.retry.chunks) ∧ ∃ s',
        request.retryAll s (failedServers workers) = .returns s' ∧ Retries parts s s') := by
  induction h generalizing s with
  | nil => exact .inr ⟨by simp, s, rfl, ⟨rfl, by simp [retryTags], fun _ => rfl, by simp⟩⟩
  | @cons part worker parts workers hran _ ih =>
    obtain ⟨hpart, hparts⟩ := forall_mem_cons.mp hparts
    by_cases hsucceeded : part.Succeeded
    · have hnot : ¬ part.Retried := fun hretried => hretried.1 hsucceeded
      have hskip : failedServers (worker :: workers) = failedServers workers := by
        refine filter_cons_of_neg ?_
        rw [hran.err_eq, show part.first.outcome.err = .noErr from hsucceeded]
        decide
      rw [hskip]
      rcases ih hparts s with ⟨⟨bad, hbad, hretry⟩, hundefined⟩ | ⟨hall, s', hs', hretries⟩
      · exact .inl ⟨⟨bad, mem_cons_of_mem _ hbad, hretry⟩, hundefined⟩
      · exact .inr ⟨forall_mem_cons.mpr ⟨fun hr => absurd hr hnot, hall⟩, s', hs',
          hretries.cons_of_succeeded hsucceeded⟩
    · have htake : failedServers (worker :: workers) = worker :: failedServers workers := by
        refine filter_cons_of_pos (decide_eq_true ?_)
        rw [hran.err_eq]
        exact hsucceeded
      rw [htake, retryAll]
      rcases request.retryOne_eq hpart hran hsucceeded s with
        ⟨hretry, hundefined⟩ | ⟨hkeyless, s', hs', hone⟩
      · exact .inl ⟨⟨part, mem_cons_self, hretry⟩, by rw [hundefined]; rfl⟩
      · rw [hs']
        rcases ih hparts s' with ⟨⟨bad, hbad, hretry⟩, hundefined⟩ | ⟨hall, s'', hs'', hretries⟩
        · exact .inl ⟨⟨bad, mem_cons_of_mem _ hbad, hretry⟩, hundefined⟩
        · exact .inr ⟨forall_mem_cons.mpr ⟨hkeyless, hall⟩, s'', hs'', hone.cons hretries⟩

end

/-! ## The whole operation -/

/-- The operation is undefined if a reply that is read has keys. Otherwise it returns the keys
of the servers that succeeded at once, their tags and then those of the retries, and no error
exactly when every part was acknowledged. -/
theorem singleHopNoThrow_remote_eq :
    ((∃ part ∈ request.parts, ¬ part.Readable) ∧
        request.singleHopNoThrow_remote = .undefined) ∨
      ((∀ part ∈ request.parts, part.Readable) ∧ ∃ err result,
        request.singleHopNoThrow_remote = .returns (err, result) ∧
        result.succeededKeysAndVersions.tempKeys = some (firstKeys request.parts) ∧
        result.succeededKeysAndVersions.versionTags
          = firstTags request.parts ++ retryTags request.parts ∧
        (err = .noErr ↔ ∀ part ∈ request.parts, part.Complete)) := by
  unfold singleHopNoThrow_remote
  rcases executeAll_eq request.parts with ⟨⟨part, hpart, hnot⟩, hnone⟩ |
    ⟨hfirst, workers, hworkers, hforall⟩
  · exact .inl ⟨⟨part, hpart, fun hreadable => hnot hreadable.1⟩, by simp only [hnone]⟩
  · obtain ⟨htemp, htags, -, -⟩ := foldl_collectOne hforall .empty [] rfl
    simp only [hworkers, gatherKeys_eq hforall, Behaviour.returns_bind]
    rcases request.retryAll_eq hforall (fun _ => id)
        ⟨workers.foldl collectOne .empty, .noErr, false⟩ with
      ⟨⟨part, hpart, hretried, hnot⟩, hundefined⟩ | ⟨hretry, s, hs, hretries⟩
    · exact .inl ⟨⟨part, hpart, fun hreadable => hnot (hreadable.2 hretried)⟩, by
        rw [hundefined]; rfl⟩
    · refine .inr ⟨fun part hpart => ⟨hfirst part hpart, hretry part hpart⟩,
        s.returned.1, s.returned.2, by rw [hs]; rfl, ?_, ?_, ?_⟩
      · exact hretries.tempKeys_eq.trans htemp
      · refine hretries.versionTags_eq.trans ?_
        rw [htags]
        rfl
      · by_cases hall : ∀ part ∈ request.parts, part.Complete
        · have hflag := hretries.of_complete hall
          exact iff_of_true (by rw [RetryState.returned, hflag]; rfl) hall
        · refine iff_of_false ?_ hall
          push Not at hall
          obtain ⟨herror, hflag⟩ := hretries.of_incomplete (.inl hall)
          rw [RetryState.returned, hflag]
          exact herror

end SingleHop

end GeodeNative
