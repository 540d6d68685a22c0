import GeodeNative.Bulk.SingleHop
import Mathlib.Data.List.Nodup
import Mathlib.Data.List.Pairwise

/-!
# Which keys a partial result reports

After a bulk operation that did not succeed as a whole, the partial result should list the
keys that were acknowledged, each once, and an operation should only be reported as a success
when all its keys were acknowledged.

The second is always so. For the first, the keys of a server that succeeded at once are
listed, as often as they were sent to it; those that a server acknowledged with a partial
result, or when it was retried, are not. The exact condition says that there are none of these.
-/

namespace GeodeNative

open List

namespace SubRequest

variable {κ ν τ : Type} {part : SubRequest κ ν τ}

/-- The keys of a part that were acknowledged, at the first attempt or by the retry. -/
def acknowledged (part : SubRequest κ ν τ) : List κ :=
  match part.first.outcome with
  | .failure _ => part.retry.outcome.acknowledged part.keys
  | outcome => outcome.acknowledged part.keys

lemma acknowledged_subset (part : SubRequest κ ν τ) :
    ∀ key ∈ part.acknowledged, key ∈ part.keys := by
  intro key hkey
  have hfirst := part.first_subset key
  unfold acknowledged at hkey
  cases houtcome : part.first.outcome with
  | failure =>
    rw [houtcome] at hkey
    exact part.retry_subset key hkey
  | success | partialResult =>
    rw [houtcome] at hkey hfirst
    exact hfirst hkey

lemma Succeeded.acknowledged_eq (h : part.Succeeded) : part.acknowledged = part.keys := by
  unfold SubRequest.acknowledged
  cases houtcome : part.first.outcome with
  | success => rfl
  | partialResult | failure =>
    rw [Succeeded, houtcome] at h
    cases h

lemma Complete.acknowledged_eq (h : part.Complete) : part.acknowledged = part.keys := by
  rcases h with hsucceeded | ⟨hretried, hretry⟩
  · exact hsucceeded.acknowledged_eq
  · unfold SubRequest.acknowledged
    cases houtcome : part.first.outcome with
    | success => exact absurd (by rw [houtcome]; rfl) hretried.1
    | partialResult => exact absurd (by rw [houtcome]; rfl) hretried.2
    | failure code =>
      cases hout : part.retry.outcome with
      | success => rfl
      | partialResult | failure =>
        rw [hout] at hretry
        cases hretry

end SubRequest

namespace SingleHop

variable {κ ν τ : Type} (request : SingleHop κ ν τ)

/-- All the keys that were acknowledged. -/
def acknowledged (request : SingleHop κ ν τ) : List κ :=
  request.parts.flatMap fun part => part.acknowledged

/-- A key that was acknowledged by a partial result or by a retry is also in a part whose server
succeeded at once: as long as the user's keys are distinct, there is no such key. -/
def OnlyAtOnce (request : SingleHop κ ν τ) : Prop :=
  ∀ part ∈ request.parts, ¬ part.Succeeded → ∀ key ∈ part.acknowledged,
    ∃ other ∈ request.parts, other.Succeeded ∧ key ∈ other.keys

/-- No key is twice in the parts whose servers succeeded at once. -/
def DistinctAtOnce (request : SingleHop κ ν τ) : Prop :=
  ((request.parts.filter fun part => part.Succeeded).flatMap fun part => part.keys).Nodup

lemma mem_firstKeys {request : SingleHop κ ν τ} {key : κ} :
    key ∈ firstKeys request.parts ↔ ∃ part ∈ request.parts, part.Succeeded ∧ key ∈ part.keys := by
  simp [firstKeys, and_assoc]

/-- The keys of the servers that succeeded at once are acknowledged; they are all of them if
no others were. -/
lemma firstKeys_iff :
    ((∀ key ∈ firstKeys request.parts, key ∈ request.acknowledged) ∧
        ∀ key ∈ request.acknowledged, key ∈ firstKeys request.parts) ↔ request.OnlyAtOnce := by
  constructor
  · rintro ⟨-, hback⟩ part hpart - key hkey
    exact mem_firstKeys.mp (hback key (mem_flatMap.mpr ⟨part, hpart, hkey⟩))
  · intro hall
    constructor
    · intro key hkey
      obtain ⟨part, hpart, hsucceeded, hmem⟩ := mem_firstKeys.mp hkey
      exact mem_flatMap.mpr ⟨part, hpart, by rwa [hsucceeded.acknowledged_eq]⟩
    · intro key hkey
      obtain ⟨part, hpart, hmem⟩ := mem_flatMap.mp hkey
      refine mem_firstKeys.mpr ?_
      by_cases hsucceeded : part.Succeeded
      · exact ⟨part, hpart, hsucceeded, part.acknowledged_subset key hmem⟩
      · exact hall part hpart hsucceeded key hmem

variable [DecidableEq κ]

/-- Success means that every key was acknowledged, and otherwise the succeeded keys are the
acknowledged ones, each once. -/
def IsExact (request : SingleHop κ ν τ) : Prop :=
  match request.singleHopNoThrow_remote with
  | .returns (.noErr, _) => ∀ key ∈ request.userKeys, key ∈ request.acknowledged
  | .returns (_, result) =>
    result.succeededKeys.Nodup ∧
      (∀ key ∈ result.succeededKeys, key ∈ request.acknowledged) ∧
      ∀ key ∈ request.acknowledged, key ∈ result.succeededKeys
  | _ => False

instance (request : SingleHop κ ν τ) : Decidable request.IsExact := by
  unfold IsExact
  split <;> infer_instance

/-- The result is exact when no reply that is read has keys and, unless all keys were
acknowledged, only servers that succeeded at once acknowledged any, and no key twice. -/
theorem isExact_iff (request : SingleHop κ ν τ) :
    request.IsExact ↔ (∀ part ∈ request.parts, part.Readable) ∧
      ((∀ part ∈ request.parts, part.Complete) ∨
        request.DistinctAtOnce ∧ request.OnlyAtOnce) := by
  unfold IsExact
  rcases request.singleHopNoThrow_remote_eq with ⟨⟨part, hpart, hnot⟩, hundefined⟩ |
    ⟨hreadable, err, result, hreturns, htemp, -, herr⟩
  · simp only [hundefined, false_iff]
    exact fun h => hnot (h.1 part hpart)
  · have hkeys : result.succeededKeys = firstKeys request.parts := by
      rw [PutAllPartialResult.succeededKeys, htemp]
      rfl
    simp only [hreturns]
    by_cases hall : ∀ part ∈ request.parts, part.Complete
    · rw [herr.mpr hall]
      refine iff_of_true (fun key hkey => ?_) ⟨hreadable, .inl hall⟩
      obtain ⟨part, hpart, _⟩ := mem_flatMap.mp hkey
      exact mem_flatMap.mpr ⟨part, hpart, by rwa [(hall part hpart).acknowledged_eq]⟩
    · have hne : err ≠ .noErr := fun h => hall (herr.mp h)
      have hiff : ((firstKeys request.parts).Nodup ∧
          (∀ key ∈ firstKeys request.parts, key ∈ request.acknowledged) ∧
          ∀ key ∈ request.acknowledged, key ∈ firstKeys request.parts) ↔
          (∀ part ∈ request.parts, part.Readable) ∧ ((∀ part ∈ request.parts, part.Complete) ∨
              request.DistinctAtOnce ∧ request.OnlyAtOnce) := by
        rw [request.firstKeys_iff]
        exact ⟨fun h => ⟨hreadable, .inr h⟩, fun h => h.2.resolve_left hall⟩
      rw [← hkeys] at hiff
      cases err with
      | noErr => exact absurd rfl hne
      | putAllPartialResult | other => exact hiff

/-- Two servers, of which one fails, is retried with success and acknowledges its keys, while
the other one fails twice. -/
def retriedAndFailed : SingleHop ℕ Unit Unit where
  op := .putAll
  parts :=
    [⟨[1], ⟨.failure 1, []⟩, ⟨.success, []⟩, by decide, by simp [RequestOutcome.acknowledged],
        by simp [RequestOutcome.acknowledged]⟩,
      ⟨[2], ⟨.failure 1, []⟩, ⟨.failure 1, []⟩, by decide, by simp [RequestOutcome.acknowledged],
        by simp [RequestOutcome.acknowledged]⟩]

/-- A server that acknowledges one of its two keys. -/
def partlyAcknowledged : SingleHop ℕ Unit Unit where
  op := .removeAll
  parts :=
    [⟨[1, 2], ⟨.partialResult [1], []⟩, ⟨.success, []⟩, by decide,
      by simp [RequestOutcome.acknowledged], by simp [RequestOutcome.acknowledged]⟩]

/-- In both cases acknowledged keys are missing from the succeeded ones. -/
theorem not_isExact : ¬ retriedAndFailed.IsExact ∧ ¬ partlyAcknowledged.IsExact := by
  decide

end SingleHop

end GeodeNative
