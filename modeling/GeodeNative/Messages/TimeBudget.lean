import Mathlib.Data.Int.Basic

/-!
# The time that a request may take

After a request was sent, what is left of its timeout is the time to wait for the header of the
reply. Both ways of sending compute the time spent as the start minus the end, so it is never
positive: the wait grows by the time that the sending took, and a timeout that has passed is not
noticed.
-/

namespace GeodeNative

/-- `DEFAULT_READ_TIMEOUT` in microseconds. -/
def defaultReadTimeout : ℤ := 15000000

/-- What follows the sending of a request. -/
inductive AfterSend
  | timeoutException
  /-- the header is waited for, for that many microseconds -/
  | waits (headerTimeout : ℤ)
  deriving DecidableEq

/-- The times of a request: readings of a clock with so many ticks a microsecond, before and after
the sending, and the timeout of the reply in microseconds. -/
structure RequestTimes where
  ticks : ℤ
  start : ℤ
  sent : ℤ
  receiveTimeout : ℤ
  ticks_pos : 0 < ticks
  start_le : start ≤ sent
  special : receiveTimeout ≠ defaultReadTimeout

namespace RequestTimes

variable (r : RequestTimes)

/-- The difference of the readings that both functions take. -/
def timeSpent : ℤ := r.start - r.sent

/-- `calculateHeaderTimeout`, and the same in `readMessage`, with retries. -/
def calculateHeaderTimeout (receiveTimeout : ℤ) : ℤ :=
  if receiveTimeout = defaultReadTimeout then receiveTimeout * 12 else receiveTimeout

/-- `sendRequest` after the bytes were sent. -/
def sendRequest : AfterSend :=
  if r.receiveTimeout * r.ticks ≤ r.timeSpent then .timeoutException
  else .waits (calculateHeaderTimeout (r.receiveTimeout - r.timeSpent.tdiv r.ticks))

/-- `sendWithTimeouts` after the bytes were sent: it throws or returns the time spent. -/
def sendWithTimeouts : Option ℤ :=
  if r.receiveTimeout * r.ticks ≤ r.timeSpent then none else some (r.timeSpent.tdiv r.ticks)

/-- `sendRequestForChunkedResponse` after the bytes were sent, for a reply that has a result. -/
def sendRequestForChunkedResponse : AfterSend :=
  match r.sendWithTimeouts with
  | none => .timeoutException
  | some timeSpent => .waits (calculateHeaderTimeout (r.receiveTimeout - timeSpent))

/-- How long the sending took, in ticks. -/
def duration : ℤ := r.sent - r.start

/-- A timeout that has passed is noticed, what is left of it is waited for, and sending and waiting
take no longer than the timeout and the sending. -/
def WithinBudget : AfterSend → Prop
  | .timeoutException => r.receiveTimeout * r.ticks ≤ r.duration
  | .waits headerTimeout => r.duration < r.receiveTimeout * r.ticks ∧
      headerTimeout * r.ticks = r.receiveTimeout * r.ticks - r.duration ∧
      r.duration + headerTimeout * r.ticks ≤ max (r.receiveTimeout * r.ticks) r.duration

variable {r}

/-- Both ways of sending keep to the budget exactly when sending took no time, or the timeout was
negative and longer ago. -/
theorem withinBudget_iff (r : RequestTimes) :
    r.WithinBudget r.sendRequest ∧ r.WithinBudget r.sendRequestForChunkedResponse ↔
      r.duration = 0 ∨ r.receiveTimeout * r.ticks ≤ -r.duration := by
  have hpos := r.ticks_pos
  have hspent : r.timeSpent = -r.duration := by rw [timeSpent, duration]; omega
  have hnonneg : 0 ≤ r.duration := Int.sub_nonneg_of_le r.start_le
  have hsame : r.sendRequestForChunkedResponse = r.sendRequest := by
    unfold sendRequestForChunkedResponse sendWithTimeouts sendRequest
    split_ifs <;> rfl
  rw [hsame, and_self, sendRequest, hspent]
  split_ifs with hthrows
  · exact iff_of_true (by simp only [WithinBudget]; omega) (Or.inr hthrows)
  · by_cases hzero : r.duration = 0
    · refine iff_of_true ?_ (Or.inl hzero)
      have hleft : calculateHeaderTimeout (r.receiveTimeout - (-r.duration).tdiv r.ticks) =
          r.receiveTimeout := by
        simp [calculateHeaderTimeout, r.special, hzero]
      rw [hleft, WithinBudget]
      omega
    · -- the header is waited for at least as long as the timeout, which is too long
      refine iff_of_false (fun h => ?_) (by omega)
      have hquot : (-r.duration).tdiv r.ticks ≤ 0 := by
        rw [Int.neg_tdiv]
        have := Int.tdiv_nonneg hnonneg (Int.le_of_lt hpos)
        omega
      have hle : r.receiveTimeout ≤
          calculateHeaderTimeout (r.receiveTimeout - (-r.duration).tdiv r.ticks) := by
        unfold calculateHeaderTimeout defaultReadTimeout
        split_ifs <;> omega
      have hmul := Int.mul_le_mul_of_nonneg_right hle (Int.le_of_lt hpos)
      have hexact := h.2.1
      omega

/-- Sending takes 3 seconds of a timeout of 2: instead of throwing, the header is waited for 5
seconds. -/
theorem not_withinBudget_late :
    let r : RequestTimes := ⟨1, 0, 3000000, 2000000, by decide, by decide, by decide⟩
    r.sendRequest = .waits 5000000 ∧ ¬ r.WithinBudget r.sendRequest :=
  ⟨by decide, fun h => absurd h.1 (by decide)⟩

end RequestTimes

end GeodeNative
