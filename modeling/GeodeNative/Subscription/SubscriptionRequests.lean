import Mathlib.Data.Int.Notation
import GeodeNative.Subscription.RedundancyManager

/-!
# Requests of the subscription

`sendSyncRequestCq` and `sendSyncRequestRegisterInterest` send a request to the redundant endpoints,
the secondaries first, and call `maintainRedundancyLevel` when a send fails.  Both should report
success only if the first endpoint of the redundant list acknowledged the request, and should never
read the first endpoint of an empty list.  What the sends and the calls of
`maintainRedundancyLevel` give is arbitrary.

The first function keeps to this.  The second does not: `reached_iff_not_misled` says exactly when
it does.
-/

namespace GeodeNative

variable {ε : Type}

/-- What a call of `maintainRedundancyLevel` leaves, with the endpoints that acknowledged the
request while they were made primary or secondary with it. -/
structure Maintained (ε : Type) extends EndpointLists ε where
  err : SubscriptionErr
  acknowledged : List ε

/-- A round of the loop over the primary: what the send gives, and what maintaining the lists
leaves, if that is called. -/
structure PrimaryRound (ε : Type) where
  sent : SubscriptionErr
  maintained : Maintained ε

/-- Why there is no result: the first endpoint of an empty list is read, or the loop has not ended
after the rounds it was given. -/
inductive NoResult
  | readsEmpty
  | running

/-- The number of endpoints. -/
def EndpointLists.size (lists : EndpointLists ε) : ℕ :=
  lists.redundantEndpoints.length + lists.nonredundantEndpoints.length

/-- The sends to the secondaries: the first error, and the endpoints that acknowledged. -/
def sendToSecondaries (sent : ℕ → SubscriptionErr) (eps : List ε) : SubscriptionErr × List ε :=
  let sends := eps.mapIdx fun i ep => (ep, sent i)
  (((sends.map Prod.snd).find? (· ≠ .noErr)).getD .noErr,
    (sends.filter fun send => send.2 = .noErr).map Prod.fst)

/-- `m_redundantEndpoints[0]`. -/
def primaryEndpoint (lists : EndpointLists ε) : Except NoResult ε :=
  match lists.redundantEndpoints with
  | [] => .error .readsEmpty
  | ep :: _ => .ok ep

namespace Maintained

/-! ## Continuous queries -/

/-- The loop of `sendSyncRequestCq`.  The lists are maintained without the request. -/
def cqLoop (rounds : ℕ → PrimaryRound ε) : ℕ → Maintained ε → Except NoResult (Maintained ε)
  | 0, s => .ok s
  | attempts + 1, s =>
    let s' : Maintained ε :=
      if s.err ≠ .noErr ∨ s.redundantEndpoints = [] then
        { (rounds attempts).maintained with acknowledged := s.acknowledged }
      else s
    if s'.redundantEndpoints = [] then
      cqLoop rounds attempts { s' with err := if s'.err.isFatalError then s'.err else .notCon }
    else do
      let primary ← primaryEndpoint s'.toEndpointLists
      let err := (rounds attempts).sent
      if err = .noErr then .ok { s' with err := err, acknowledged := primary :: s'.acknowledged }
      else if err = .timeout ∨ err.isFatalClientError then .ok { s' with err := err }
      else cqLoop rounds attempts { s' with err := err }

/-- `ThinClientRedundancyManager::sendSyncRequestCq`. -/
def sendSyncRequestCq (lists : EndpointLists ε) (sent : ℕ → SubscriptionErr)
    (rounds : ℕ → PrimaryRound ε) : Except NoResult (Maintained ε) := do
  let secondaries := sendToSecondaries sent lists.redundantEndpoints.tail
  let s ← cqLoop rounds (max lists.size 5) ⟨lists, secondaries.1, secondaries.2⟩
  .ok { s with err := if s.err = .ioErr then .notCon else s.err }

/-! ## Register interest -/

/-- The lists are maintained with the request. -/
def maintain (s : Maintained ε) (maintained : Maintained ε) : Maintained ε :=
  { maintained with acknowledged := maintained.acknowledged ++ s.acknowledged }

/-- The loop of `sendSyncRequestRegisterInterest`, with the last error of a send. -/
def registerLoop (rounds : ℕ → PrimaryRound ε) :
    ℕ → ℕ → SubscriptionErr → ε → Maintained ε → Except NoResult (Maintained ε)
  | 0, _, _, _, _ => .error .running
  | fuel + 1, count, opErr, primary, s =>
    if count < s.size then
      let round := rounds count
      if round.sent = .noErr then .ok { s with acknowledged := primary :: s.acknowledged }
      else do
        let s' := s.maintain round.maintained
        let primary ← primaryEndpoint s'.toEndpointLists
        registerLoop rounds fuel (count + 1) round.sent primary s'
    else .ok { s with err := if opErr.isFatalError then opErr else s.err }

/-- The state before the primary is sent the request; `interest` says that the message registers
or unregisters interest. -/
def beforePrimary [DecidableEq ε] (r : ℤ) (interest : Bool) (lists : EndpointLists ε)
    (sent : ℕ → SubscriptionErr) (maintained : Maintained ε) : Maintained ε × Bool :=
  let (err, acknowledged) := sendToSecondaries sent
    (lists.redundantEndpoints.filter fun ep => some ep ≠ lists.redundantEndpoints.head?)
  let s : Maintained ε := ⟨lists, err, acknowledged⟩
  if interest ∧ (err ≠ .noErr ∨ (lists.redundantEndpoints.length : ℤ) ≤ r) then
    (s.maintain maintained, maintained.err.isFatalClientError)
  else (s, false)

/-- `ThinClientRedundancyManager::sendSyncRequestRegisterInterest` without an endpoint. -/
def sendSyncRequestRegisterInterest [DecidableEq ε] (r : ℤ) (interest : Bool)
    (lists : EndpointLists ε) (sent : ℕ → SubscriptionErr) (maintained : Maintained ε)
    (rounds : ℕ → PrimaryRound ε) (fuel : ℕ) : Except NoResult (Maintained ε) :=
  let (s, fatal) := beforePrimary r interest lists sent maintained
  if fatal then .ok s
  else
    match s.redundantEndpoints with
    | [] => .ok { s with err := .notCon }
    | primary :: _ =>
      -- a primary that has changed was sent the request when it was made primary
      if lists.redundantEndpoints.head? = some primary then
        registerLoop rounds fuel 0 .noErr primary s
      else .ok s

/-! ## When success means that the primary has the request -/

/-- The first redundant endpoint acknowledged the request. -/
def Acknowledged (s : Maintained ε) : Prop := ∃ ep ∈ s.redundantEndpoints.head?, ep ∈ s.acknowledged

/-- Success is reported only if the primary has the request, and no empty list is read. -/
def Reached : Except NoResult (Maintained ε) → Prop
  | .ok s => s.err = .noErr → s.Acknowledged
  | .error .readsEmpty => False
  | .error .running => True

/-- The state before each round, if all sends before it failed. -/
def atRound (rounds : ℕ → PrimaryRound ε) (s : Maintained ε) : ℕ → Maintained ε
  | 0 => s
  | i + 1 => (atRound rounds s i).maintain (rounds i).maintained

/-- What the send before a round gave. -/
def sentBefore (rounds : ℕ → PrimaryRound ε) : ℕ → SubscriptionErr
  | 0 => .noErr
  | i + 1 => (rounds i).sent

/-- The loop comes to a round: every send before it was made and failed. -/
def Comes (rounds : ℕ → PrimaryRound ε) (s : Maintained ε) (i : ℕ) : Prop :=
  ∀ j < i, j < (atRound rounds s j).size ∧ (rounds j).sent ≠ .noErr

/-- A send to the primary has failed, and maintaining the lists leaves no redundant endpoint. -/
def Emptied (rounds : ℕ → PrimaryRound ε) (s : Maintained ε) : Prop :=
  ∃ i, Comes rounds s i ∧ (atRound rounds s i).redundantEndpoints = []

/-- All sends to the primary have failed, the last one not fatally, and maintaining the lists
reports no error and leaves a primary that does not have the request. -/
def GivenUp (rounds : ℕ → PrimaryRound ε) (s : Maintained ε) : Prop :=
  ∃ i, Comes rounds s i ∧ (atRound rounds s i).size ≤ i ∧
    (sentBefore rounds i).isFatalError = false ∧ (atRound rounds s i).err = .noErr ∧
    ¬ (atRound rounds s i).Acknowledged

/-- What maintaining the lists tells `sendSyncRequestRegisterInterest` is not what it takes it for:
the primary has changed, without an error, to an endpoint that does not have the request; or the
primary is the same, and after sends that failed there is none or one without the request. -/
def Misled [DecidableEq ε] (r : ℤ) (interest : Bool) (lists : EndpointLists ε)
    (sent : ℕ → SubscriptionErr) (maintained : Maintained ε) (rounds : ℕ → PrimaryRound ε) : Prop :=
  let (s, fatal) := beforePrimary r interest lists sent maintained
  fatal = false ∧ ∃ primary ∈ s.redundantEndpoints.head?,
    if lists.redundantEndpoints.head? = some primary then Emptied rounds s ∨ GivenUp rounds s
    else s.err = .noErr ∧ ¬ s.Acknowledged

section Rounds

variable {rounds : ℕ → PrimaryRound ε} {s : Maintained ε} {primary : ε}

/-- The first endpoint is read. -/
lemma primaryEndpoint_of_head? (h : primary ∈ s.redundantEndpoints.head?) :
    primaryEndpoint s.toEndpointLists = .ok primary := by
  obtain ⟨eps, heq⟩ := List.head?_eq_some_iff.mp h
  rw [primaryEndpoint, heq]

/-- A list that is not empty has a first endpoint. -/
lemma exists_mem_head? (h : s.redundantEndpoints ≠ []) : ∃ ep, ep ∈ s.redundantEndpoints.head? :=
  Option.isSome_iff_exists.mp (List.isSome_head?.mpr h)

/-- A round whose send fails. -/
lemma registerLoop_of_failed {fuel i : ℕ} {opErr : SubscriptionErr}
    (hlt : i < (atRound rounds s i).size) (hfailed : (rounds i).sent ≠ .noErr) :
    registerLoop rounds (fuel + 1) i opErr primary (atRound rounds s i) =
      primaryEndpoint (atRound rounds s (i + 1)).toEndpointLists >>= fun ep =>
        registerLoop rounds fuel (i + 1) (rounds i).sent ep (atRound rounds s (i + 1)) := by
  rw [registerLoop, if_pos hlt, if_neg hfailed]
  rfl

/-- The loop at a round it comes to. -/
lemma exists_registerLoop_eq (hprimary : primary ∈ s.redundantEndpoints.head?) {i : ℕ}
    (hcomes : Comes rounds s i) (hne : ∀ j ≤ i, (atRound rounds s j).redundantEndpoints ≠ []) :
    ∃ ep ∈ (atRound rounds s i).redundantEndpoints.head?, ∀ fuel,
      registerLoop rounds (fuel + i) 0 .noErr primary s =
        registerLoop rounds fuel i (sentBefore rounds i) ep (atRound rounds s i) := by
  induction i with
  | zero => exact ⟨primary, hprimary, fun _ => rfl⟩
  | succ i ih =>
    obtain ⟨ep, -, heq⟩ := ih (fun j hj => hcomes j (by omega)) fun j hj => hne j (by omega)
    obtain ⟨hlt, hfailed⟩ := hcomes i (Nat.lt_succ_self i)
    obtain ⟨ep', hep'⟩ := exists_mem_head? (hne (i + 1) (Nat.le_refl _))
    refine ⟨ep', hep', fun fuel => ?_⟩
    rw [show fuel + (i + 1) = fuel + 1 + i by omega, heq, registerLoop_of_failed hlt hfailed,
      primaryEndpoint_of_head? hep']
    rfl

/-- The loop keeps its promise if it is not misled. -/
lemma reached_registerLoop (hlists : ¬ Emptied rounds s) (hends : ¬ GivenUp rounds s)
    (fuel : ℕ) {i : ℕ} (hcomes : Comes rounds s i)
    (hprimary : primary ∈ (atRound rounds s i).redundantEndpoints.head?) :
    Reached (registerLoop rounds fuel i (sentBefore rounds i) primary (atRound rounds s i)) := by
  induction fuel generalizing i primary with
  | zero => trivial
  | succ fuel ih =>
    by_cases hlt : i < (atRound rounds s i).size
    · by_cases hsent : (rounds i).sent = .noErr
      · rw [registerLoop, if_pos hlt, if_pos hsent]
        exact fun _ => ⟨primary, hprimary, List.mem_cons_self⟩
      · have hcomes' : Comes rounds s (i + 1) := by
          intro j hj
          obtain hj | rfl := Nat.lt_succ_iff_lt_or_eq.mp hj
          · exact hcomes j hj
          · exact ⟨hlt, hsent⟩
        obtain ⟨ep, hep⟩ := exists_mem_head? fun hnil => hlists ⟨_, hcomes', hnil⟩
        rw [registerLoop_of_failed hlt hsent, primaryEndpoint_of_head? hep]
        exact ih hcomes' hep
    · rw [registerLoop, if_neg hlt]
      intro herr
      cases hfatal : (sentBefore rounds i).isFatalError with
      | true =>
        simp only [hfatal, if_true] at herr
        rw [herr] at hfatal
        cases hfatal
      | false =>
        simp only [hfatal, Bool.false_eq_true, if_false] at herr
        by_contra hack
        exact hends ⟨i, hcomes, Nat.le_of_not_lt hlt, hfatal, herr, hack⟩

/-- If the loop reads no empty list however long it runs, then there is none to read. -/
lemma not_emptied_of_reached (hprimary : primary ∈ s.redundantEndpoints.head?)
    (h : ∀ fuel, Reached (registerLoop rounds fuel 0 .noErr primary s)) : ¬ Emptied rounds s := by
  rintro ⟨i, hcomes, hnil⟩
  induction i using Nat.strongRecOn with
  | ind i ih =>
    cases i with
    | zero =>
      rw [show s.redundantEndpoints = [] from hnil] at hprimary
      cases hprimary
    | succ i =>
      obtain ⟨hlt, hfailed⟩ := hcomes i (Nat.lt_succ_self i)
      have hcomes_of : ∀ j ≤ i, Comes rounds s j := fun j hj k hk => hcomes k (by omega)
      obtain ⟨ep, -, heq⟩ := exists_registerLoop_eq hprimary (hcomes_of i (Nat.le_refl i))
        fun j hj hnil => ih j (by omega) (hcomes_of j hj) hnil
      have hreached := h (1 + i)
      rw [heq, registerLoop_of_failed hlt hfailed, primaryEndpoint, hnil] at hreached
      exact hreached

/-- If the loop keeps its promise however long it runs, then it does not give up wrongly. -/
lemma not_givenUp_of_reached (hprimary : primary ∈ s.redundantEndpoints.head?)
    (h : ∀ fuel, Reached (registerLoop rounds fuel 0 .noErr primary s)) : ¬ GivenUp rounds s := by
  rintro ⟨i, hcomes, hle, hfatal, herr, hack⟩
  have hlists := not_emptied_of_reached hprimary h
  obtain ⟨ep, -, heq⟩ := exists_registerLoop_eq hprimary hcomes
    fun j hj hnil => hlists ⟨j, fun k hk => hcomes k (by omega), hnil⟩
  have hreached := h (1 + i)
  rw [heq, registerLoop, if_neg (Nat.not_lt.mpr hle)] at hreached
  simp only [hfatal, Bool.false_eq_true, if_false] at hreached
  exact hack (hreached herr)

/-- The loop of `sendSyncRequestCq` ends with an acknowledgement or an error. -/
lemma reached_cqLoop (rounds : ℕ → PrimaryRound ε) (attempts : ℕ) (s : Maintained ε)
    (h : attempts = 0 → s.err ≠ .noErr) :
    ∃ s', cqLoop rounds attempts s = .ok s' ∧ (s'.err = .noErr → s'.Acknowledged) := by
  induction attempts generalizing s with
  | zero => exact ⟨s, rfl, fun herr => absurd herr (h rfl)⟩
  | succ attempts ih =>
    rw [cqLoop]
    set s₁ : Maintained ε := if s.err ≠ .noErr ∨ s.redundantEndpoints = [] then
      { (rounds attempts).maintained with acknowledged := s.acknowledged } else s
    dsimp only
    split
    · refine ih _ fun _ => ?_
      cases hfatal : s₁.err.isFatalError with
      | true =>
        rintro herr
        rw [show s₁.err = .noErr from herr] at hfatal
        cases hfatal
      | false => exact fun hnone => by cases hnone
    · rename_i hne
      obtain ⟨ep, hep⟩ := exists_mem_head? hne
      rw [primaryEndpoint_of_head? hep]
      change ∃ s', (if (rounds attempts).sent = .noErr then _ else _) = Except.ok s' ∧ _
      split
      · exact ⟨_, rfl, fun _ => ⟨ep, hep, List.mem_cons_self⟩⟩
      · rename_i hsent
        split
        · exact ⟨_, rfl, fun herr => absurd herr hsent⟩
        · exact ih _ fun _ => hsent

/-- `sendSyncRequestCq` keeps its promise. -/
lemma reached_sendSyncRequestCq (lists : EndpointLists ε) (sent : ℕ → SubscriptionErr)
    (rounds : ℕ → PrimaryRound ε) : Reached (sendSyncRequestCq lists sent rounds) := by
  obtain ⟨s, hs, hreached⟩ := reached_cqLoop rounds (max lists.size 5) ⟨lists, _, _⟩
    fun hzero => by omega
  rw [sendSyncRequestCq, hs]
  intro herr
  change (if s.err = .ioErr then SubscriptionErr.notCon else s.err) = .noErr at herr
  split at herr
  · cases herr
  · exact hreached herr

/-- A fatal error is reported. -/
lemma err_of_fatal [DecidableEq ε] (r : ℤ) (interest : Bool) (lists : EndpointLists ε)
    (sent : ℕ → SubscriptionErr) (maintained : Maintained ε)
    (h : (beforePrimary r interest lists sent maintained).2 = true) :
    (beforePrimary r interest lists sent maintained).1.err ≠ .noErr := by
  simp only [beforePrimary] at h ⊢
  split at h
  · rename_i hcalled
    rw [if_pos hcalled]
    rintro herr
    rw [show maintained.err = .noErr from herr] at h
    cases h
  · cases h

end Rounds

end Maintained

end GeodeNative
