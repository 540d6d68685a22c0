import Mathlib.Data.List.Nodup
import Mathlib.Data.List.Perm.Basic
import GeodeNative.Library.Runs
import GeodeNative.Subscription.RedundancyManager

/-!
# The lists of the redundancy manager

After every call of `maintainRedundancyLevel` the two lists have no duplicates and are disjoint,
the redundant list has one endpoint more than the redundancy level if that is satisfied and at most
as many otherwise, and its first endpoint is the one that was made primary last.

Both scans are followed endpoint by endpoint: `Known` says what the variables are once there is a
primary, `Undecided` what they are while there is none.  `Arranged` says what the lists are then
built from.
-/

namespace GeodeNative

/-! ## Removing and moving endpoints -/

section Lists

variable {ε : Type} [DecidableEq ε] {dest src : List ε}

@[simp] lemma removeEndpointsInOrder_nil (dest : List ε) :
    removeEndpointsInOrder dest [] = dest := by
  cases dest <;> rfl

/-- A sublist is removed and nothing else. -/
lemma removeEndpointsInOrder_perm (h : src.Sublist dest) :
    (removeEndpointsInOrder dest src ++ src).Perm dest := by
  induction dest generalizing src with
  | nil =>
    rw [List.sublist_nil.mp h]
    exact .refl _
  | cons ep dest ih =>
    cases src with
    | nil => simp
    | cons first src =>
      rw [removeEndpointsInOrder]
      split
      · rename_i heq
        subst heq
        exact List.perm_middle.trans ((ih (List.cons_sublist_cons.mp h)).cons ep)
      · rename_i hne
        exact (ih (h.of_cons_of_ne (Ne.symm hne))).cons ep

/-- What both lists begin with is removed. -/
lemma removeEndpointsInOrder_append (front dest src : List ε) :
    removeEndpointsInOrder (front ++ dest) (front ++ src) = removeEndpointsInOrder dest src := by
  induction front with
  | nil => rfl
  | cons ep front ih =>
    rw [List.cons_append, List.cons_append, removeEndpointsInOrder, if_pos rfl, ih]

lemma removeEndpointsInOrder_self (dest : List ε) : removeEndpointsInOrder dest dest = [] := by
  simpa using removeEndpointsInOrder_append dest [] []

/-- An endpoint that is not to be removed stays. -/
lemma removeEndpointsInOrder_cons {ep : ε} (h : ep ∉ src) :
    removeEndpointsInOrder (ep :: dest) src = ep :: removeEndpointsInOrder dest src := by
  cases src with
  | nil => simp
  | cons first src => rw [removeEndpointsInOrder, if_neg (List.ne_of_not_mem_cons h)]

omit [DecidableEq ε] in
@[simp] lemma moveLastToFront_concat (eps : List ε) (ep : ε) :
    moveLastToFront (eps ++ [ep]) = ep :: eps := by
  simp [moveLastToFront]

/-- The endpoints that are dropped and added change places. -/
lemma perm_of_removeEndpointsInOrder {red eps failed added red' : List ε}
    (hfailed : failed.Sublist red) (hadded : added.Sublist eps)
    (h : red'.Perm (removeEndpointsInOrder red failed ++ added)) :
    (red' ++ (removeEndpointsInOrder eps added ++ failed)).Perm (red ++ eps) := by
  refine List.perm_iff_count.mpr fun ep => ?_
  have hred := h.count_eq ep
  have hfailed := (removeEndpointsInOrder_perm hfailed).count_eq ep
  have hadded := (removeEndpointsInOrder_perm hadded).count_eq ep
  simp only [List.count_append] at hred hfailed hadded ⊢
  omega

end Lists

namespace RedundancyScan

variable {ε : Type} {r n : ℕ} {answers : EndpointAnswers ε} {redundant eps : List ε}
  {t : RedundancyScan ε}

/-! ## What the scans leave -/

/-- There is a primary, and it is the redundant endpoint `p` of before.  Those before it were
dropped, and some of those behind it; the others and the new ones are the secondaries. -/
structure Known (r : ℕ) (redundant eps : List ε) (t : RedundancyScan ε) : Prop where
  isPrimaryConnected : t.isPrimaryConnected = true
  isPrimaryAtBack : t.isPrimaryAtBack = false
  convertedPrimary : t.convertedPrimary = none
  sublist : t.tempRedundantEndpoints.Sublist eps
  isRedundancySatisfied : t.isRedundancySatisfied = decide (t.secondaryCount = r)
  count_le : t.secondaryCount ≤ r
  primary : ∃ front p rest failed, redundant = front ++ p :: rest ∧ failed.Sublist rest ∧
    t.tempNonredundantEndpoints = front ++ failed ∧
    t.secondaryCount + failed.length = rest.length + t.tempRedundantEndpoints.length ∧
    (t.promoted = some p ∨ front = [] ∧ t.promoted = none)

/-- All redundant endpoints were dropped, and the new ones are not enough. -/
structure Undecided (r : ℕ) (redundant eps : List ε) (t : RedundancyScan ε) : Prop where
  isPrimaryConnected : t.isPrimaryConnected = false
  isPrimaryAtBack : t.isPrimaryAtBack = false
  convertedPrimary : t.convertedPrimary = none
  sublist : t.tempRedundantEndpoints.Sublist eps
  isRedundancySatisfied : t.isRedundancySatisfied = false
  length_le : t.tempRedundantEndpoints.length ≤ r
  dropped_eq : t.tempNonredundantEndpoints = redundant

/-- The rule for a property of the endpoints that were passed. -/
lemma scan_rule (visit : RedundancyScan ε → ε → RedundancyScan ε)
    (P : List ε → RedundancyScan ε → Prop)
    (hpass : ∀ {done ep t}, P done t → t.isRedundancySatisfied = true → P (done ++ [ep]) t)
    (hvisit : ∀ {done ep t}, P done t → t.isRedundancySatisfied = false →
      P (done ++ [ep]) (visit t ep))
    (eps : List ε) (h : P [] t) : P eps (scan visit eps t) := by
  suffices hgen : ∀ done, P done t → P (done ++ eps) (scan visit eps t) from hgen [] h
  clear h
  induction eps generalizing t with
  | nil =>
    intro done h
    rwa [List.append_nil]
  | cons ep eps ih =>
    intro done h
    rw [List.append_cons, scan]
    split
    · rename_i hsat
      have hstop : scan visit eps t = t := by
        cases eps with
        | nil => rfl
        | cons ep eps => rw [scan, if_pos hsat]
      rw [← hstop]
      exact ih _ (hpass h hsat)
    · rename_i hunsat
      exact ih _ (hvisit h (Bool.eq_false_iff.mpr hunsat))

/-! ## The scan of the redundant endpoints -/

/-- With a primary, another redundant endpoint is a secondary or dropped. -/
lemma Known.visitRedundant (h : Known r redundant [] t) (hlt : redundant.length ≤ r)
    (ep : ε) : Known r (redundant ++ [ep]) [] (t.visitRedundant r answers ep) := by
  obtain ⟨front, p, rest, failed, rfl, hfailed, hdropped, hcount, hp⟩ := h.primary
  have hnil := List.sublist_nil.mp h.sublist
  rw [List.length_append, List.length_cons] at hlt
  rw [RedundancyScan.visitRedundant, if_pos h.isPrimaryConnected]
  split
  · refine ⟨h.1, h.2, h.3, h.4, rfl, ?_, front, p, rest ++ [ep], failed, by simp,
      hfailed.trans (List.sublist_append_left _ _), hdropped, ?_, hp⟩
    all_goals simp only [List.length_append, List.length_singleton, hnil, List.length_nil] at *
    all_goals omega
  · refine ⟨h.1, h.2, h.3, h.4, h.5, h.6, front, p, rest ++ [ep], failed ++ [ep], by simp,
      hfailed.append (.refl _), ?_, ?_, hp⟩
    · simp [drop, hdropped]
    · simp only [drop, List.length_append, List.length_singleton]
      omega

/-- Without a primary, a redundant endpoint becomes the primary or is dropped. -/
lemma Undecided.visitRedundant (h : Undecided r redundant [] t) (hcount : t.secondaryCount = 0)
    (hr : 0 < r) (ep : ε) :
    Known r (redundant ++ [ep]) [] (t.visitRedundant r answers ep) ∨
      Undecided r (redundant ++ [ep]) [] (t.visitRedundant r answers ep) ∧
        (t.visitRedundant r answers ep).secondaryCount = 0 := by
  rw [RedundancyScan.visitRedundant, if_neg (by simp [h.isPrimaryConnected])]
  split
  · refine Or.inl ⟨rfl, h.2, h.3, h.4, ?_, ?_, redundant, ep, [], [], rfl, .slnil, ?_, ?_,
      Or.inl rfl⟩
    · simp [h.isRedundancySatisfied, hcount, Nat.ne_of_lt hr]
    · simp [hcount]
    · simp [h.dropped_eq]
    · simp [hcount, List.sublist_nil.mp h.sublist]
  · exact Or.inr ⟨⟨h.1, h.2, h.3, h.4, h.5, h.6, by simp [drop, h.dropped_eq]⟩, hcount⟩

/-- The scan finds a primary, or drops every endpoint. -/
lemma scanRedundant_spec (answers : EndpointAnswers ε) (h : redundant.length ≤ r + 1) :
    Known r redundant [] (scanRedundant r answers redundant) ∨
      Undecided r redundant [] (scanRedundant r answers redundant) ∧
        (scanRedundant r answers redundant).secondaryCount = 0 := by
  cases redundant with
  | nil => exact Or.inr ⟨⟨rfl, rfl, rfl, .slnil, rfl, Nat.zero_le _, rfl⟩, rfl⟩
  | cons ep eps =>
    refine scan_rule _ (fun done t => done.length ≤ r →
      Known r (ep :: done) [] t ∨ Undecided r (ep :: done) [] t ∧ t.secondaryCount = 0)
      ?_ ?_ eps (fun _ => ?_) (Nat.le_of_succ_le_succ h)
    · -- the level is satisfied only by the last endpoint
      intro done ep' t ht hsat hlength
      rw [List.length_append, List.length_singleton] at hlength
      obtain hknown | ⟨hundecided, -⟩ := ht (by omega)
      · obtain ⟨front, p, rest, failed, hred, -, -, hcount, -⟩ := hknown.primary
        have hred := congrArg List.length hred
        rw [hknown.isRedundancySatisfied, decide_eq_true_iff] at hsat
        simp only [List.length_append, List.length_cons, List.sublist_nil.mp hknown.sublist,
          List.length_nil] at hred hcount
        omega
      · rw [hundecided.isRedundancySatisfied] at hsat
        cases hsat
    · intro done ep' t ht _ hlength
      rw [List.length_append, List.length_singleton] at hlength
      obtain hknown | ⟨hundecided, hcount⟩ := ht (by omega)
      · exact Or.inl (hknown.visitRedundant hlength ep')
      · exact hundecided.visitRedundant hcount (by omega) ep'
    · rw [visitFirst]
      split
      · refine Or.inl ⟨rfl, rfl, rfl, .slnil, ?_, Nat.zero_le _, [], ep, [], [], rfl, .slnil, rfl,
          rfl, Or.inr ⟨rfl, rfl⟩⟩
        simp [eq_comm]
      · exact Or.inr ⟨⟨rfl, rfl, rfl, .slnil, rfl, Nat.zero_le _, rfl⟩, rfl⟩

/-! ## Making a new secondary primary -/

/-- What is left of the new endpoints, with the new primary among them. -/
lemma convert_spec (answers : EndpointAnswers ε) (skip : ε → Bool) (eps skipped : List ε) :
    (convert answers skip eps skipped).1.Sublist (eps.reverse ++ skipped) ∧
      ∀ p, (convert answers skip eps skipped).2 = some p →
        p ∈ (convert answers skip eps skipped).1 := by
  induction eps generalizing skipped with
  | nil => exact ⟨.refl _, fun _ hp => by cases hp⟩
  | cons ep eps ih =>
    rw [convert, List.reverse_cons, List.append_assoc, List.singleton_append]
    split
    · exact ih (ep :: skipped)
    · split
      · refine ⟨by simp, fun p hp => ?_⟩
        cases hp
        simp
      · obtain ⟨hsub, hmem⟩ := ih skipped
        exact ⟨hsub.trans ((List.Sublist.refl _).append (List.sublist_cons_self _ _)), hmem⟩

/-- When none is skipped, the new primary is the last one that is left. -/
lemma convert_all (answers : EndpointAnswers ε) (eps : List ε) :
    convert answers (fun _ => false) eps [] = ([], none) ∨
      ∃ others p, convert answers (fun _ => false) eps [] = (others ++ [p], some p) := by
  induction eps with
  | nil => exact Or.inl rfl
  | cons ep eps ih =>
    rw [convert, if_neg (by simp)]
    split
    · exact Or.inr ⟨eps.reverse, ep, by simp⟩
    · exact ih

/-! ## The new lists -/

variable [DecidableEq ε]

/-- What the new lists are made of: the redundant one of the endpoints that were not dropped and
those that were added, as many as the redundancy level allows, with the primary in front. -/
structure Arranged (r : ℕ) (redundant eps : List ε) (t : RedundancyScan ε) : Prop where
  dropped : t.tempNonredundantEndpoints.Sublist redundant
  added : t.tempRedundantEndpoints.Sublist eps
  perm : (t.redundantEndpoints redundant).Perm
    (removeEndpointsInOrder redundant t.tempNonredundantEndpoints ++ t.tempRedundantEndpoints)
  satisfied : t.isRedundancySatisfied = true → (t.redundantEndpoints redundant).length = r + 1
  unsatisfied : t.isRedundancySatisfied = false → (t.redundantEndpoints redundant).length ≤ r
  connected : t.isPrimaryConnected = true → ∃ p, (t.redundantEndpoints redundant).head? = some p ∧
    (t.promoted = some p ∨ t.promoted = none ∧ redundant.head? = some p)
  disconnected : t.isPrimaryConnected = false → t.redundantEndpoints redundant = []

/-- The primary is one of the redundant endpoints of before. -/
lemma Known.arranged (h : Known r redundant eps t) (hnodup : redundant.Nodup) :
    Arranged r redundant eps t := by
  obtain ⟨front, p, rest, failed, rfl, hfailed, hdropped, hcount, hp⟩ := h.primary
  have hremoved : removeEndpointsInOrder (front ++ p :: rest) (front ++ failed) =
      p :: removeEndpointsInOrder rest failed := by
    rw [removeEndpointsInOrder_append, removeEndpointsInOrder_cons]
    exact fun hmem => (List.nodup_cons.mp (List.nodup_append.mp hnodup).2.1).1 (hfailed.subset hmem)
  have hlist : t.redundantEndpoints (front ++ p :: rest) =
      p :: removeEndpointsInOrder rest failed ++ t.tempRedundantEndpoints := by
    simp [redundantEndpoints, h.isPrimaryAtBack, h.convertedPrimary, hdropped, hremoved]
  have hlength : (t.redundantEndpoints (front ++ p :: rest)).length = t.secondaryCount + 1 := by
    have hperm := (removeEndpointsInOrder_perm hfailed).length_eq
    rw [List.length_append] at hperm
    rw [hlist, List.length_append, List.length_cons]
    omega
  have hle := h.count_le
  refine ⟨hdropped ▸ (List.Sublist.refl _).append (hfailed.cons p), h.sublist, ?_, fun hsat => ?_,
    fun hunsat => ?_, fun _ => ⟨p, by rw [hlist]; rfl, ?_⟩, fun hc => ?_⟩
  · rw [hlist, hdropped, hremoved]
  · rw [h.isRedundancySatisfied, decide_eq_true_iff] at hsat
    rw [hlength, hsat]
  · rw [h.isRedundancySatisfied, decide_eq_false_iff_not] at hunsat
    omega
  · refine hp.imp_right fun ⟨hfront, hnone⟩ => ⟨hnone, ?_⟩
    rw [hfront]
    rfl
  · rw [h.isPrimaryConnected] at hc
    cases hc

/-- The primary is one of the new endpoints. -/
lemma arranged_of_new (p : ε) (others : List ε) (hdropped : t.tempNonredundantEndpoints = redundant)
    (hadded : t.tempRedundantEndpoints.Sublist eps)
    (hlist : t.redundantEndpoints redundant = p :: others)
    (hperm : (p :: others).Perm t.tempRedundantEndpoints) (hconnected : t.isPrimaryConnected = true)
    (hpromoted : t.promoted = some p)
    (hsat : t.isRedundancySatisfied = true → t.tempRedundantEndpoints.length = r + 1)
    (hunsat : t.isRedundancySatisfied = false → t.tempRedundantEndpoints.length ≤ r) :
    Arranged r redundant eps t := by
  refine ⟨hdropped ▸ .refl _, hadded, ?_, fun h => ?_, fun h => ?_,
    fun _ => ⟨p, by rw [hlist]; rfl, Or.inl hpromoted⟩, fun h => ?_⟩
  · rw [hlist, hdropped, removeEndpointsInOrder_self]
    exact hperm
  · rw [hlist, hperm.length_eq, hsat h]
  · rw [hlist, hperm.length_eq]
    exact hunsat h
  · rw [hconnected] at h
    cases h

/-! ## The scan of the other endpoints -/

/-- With a primary, another endpoint becomes a secondary or is left out. -/
lemma Known.visitNonredundant (h : Known r redundant eps t)
    (hunsat : t.isRedundancySatisfied = false) (init : Bool) (last : Option ε) (ep : ε) :
    Known r redundant (eps ++ [ep]) (t.visitNonredundant r answers init last ep) := by
  have hskip := h.sublist.trans (List.sublist_append_left eps [ep])
  rw [h.isRedundancySatisfied, decide_eq_false_iff_not] at hunsat
  have hle := h.count_le
  rw [RedundancyScan.visitNonredundant, if_neg (by simp [h.isPrimaryConnected])]
  split
  · obtain ⟨front, p, rest, failed, hred, hfailed, hdropped, hcount, hp⟩ := h.primary
    refine ⟨h.1, h.2, h.3, h.sublist.append (.refl _), ?_, ?_, front, p, rest, failed, hred,
      hfailed, hdropped, ?_, hp⟩
    · simp [h.isPrimaryConnected]
    · exact Nat.lt_of_le_of_ne hle hunsat
    · simp only [List.length_append, List.length_singleton]
      omega
  · exact ⟨h.1, h.2, h.3, hskip, h.5, h.6, h.primary⟩

/-- Without a primary the new endpoints become secondaries until there are enough, and then one of
them the primary. -/
lemma Undecided.visitNonredundant (h : Undecided r redundant eps t)
    (hcount : t.secondaryCount = t.tempRedundantEndpoints.length) (init : Bool) (last : Option ε)
    (ep : ε) :
    (Undecided r redundant (eps ++ [ep]) (t.visitNonredundant r answers init last ep) ∧
      (t.visitNonredundant r answers init last ep).secondaryCount =
        (t.visitNonredundant r answers init last ep).tempRedundantEndpoints.length) ∨
    (t.visitNonredundant r answers init last ep).isRedundancySatisfied = true ∧
      Arranged r redundant (eps ++ [ep]) (t.visitNonredundant r answers init last ep) := by
  have hskip := h.sublist.trans (List.sublist_append_left eps [ep])
  have hadd := h.sublist.append (.refl [ep])
  rw [RedundancyScan.visitNonredundant]
  split
  · rename_i hfull
    split
    · exact Or.inl ⟨⟨h.1, h.2, h.3, hskip, h.5, h.6, h.7⟩, hcount⟩
    · split
      · refine Or.inr ⟨rfl, arranged_of_new ep t.tempRedundantEndpoints h.dropped_eq
           hadd ?_ ?_ rfl rfl ?_ fun hunsat => by cases hunsat⟩
        · simp [redundantEndpoints, h.convertedPrimary, h.dropped_eq, removeEndpointsInOrder_self]
        · exact (List.perm_append_singleton ep _).symm
        · simp [← hcount, hfull.2]
      · exact Or.inl ⟨⟨h.1, h.2, h.3, hskip, h.5, h.6, h.7⟩, hcount⟩
  · rename_i hroom
    split
    · refine Or.inl ⟨⟨h.1, h.2, h.3, hadd, ?_, ?_, h.7⟩, ?_⟩
      · simp [h.isPrimaryConnected]
      · have hne : ¬ t.secondaryCount = r := fun heq => hroom ⟨h.isPrimaryConnected, heq⟩
        have hle := h.length_le
        rw [List.length_append, List.length_singleton]
        omega
      · simp [hcount]
    · exact Or.inl ⟨⟨h.1, h.2, h.3, hskip, h.5, h.6, h.7⟩, hcount⟩

/-- One of the new secondaries is made primary, or all of them are given up. -/
lemma Undecided.convertLast (h : Undecided r redundant eps t) :
    Arranged r redundant eps (t.convertLast answers) := by
  have hsub := (convert_spec answers (fun _ => false) t.tempRedundantEndpoints.reverse
    []).1
  rw [List.append_nil, List.reverse_reverse] at hsub
  have hle := Nat.le_trans hsub.length_le h.length_le
  have hunsat : ¬ (t.convertLast answers).isRedundancySatisfied = true := by
    simp [RedundancyScan.convertLast, h.isRedundancySatisfied]
  obtain heq | ⟨others, p, heq⟩ := convert_all answers t.tempRedundantEndpoints.reverse
  · have hlist : (t.convertLast answers).redundantEndpoints redundant = [] := by
      simp [redundantEndpoints, RedundancyScan.convertLast, heq, h.dropped_eq, h.convertedPrimary,
        removeEndpointsInOrder_self]
    refine ⟨h.dropped_eq ▸ .refl _, hsub.trans h.sublist, ?_, fun hsat => absurd hsat hunsat,
      fun _ => ?_, fun hc => ?_, fun _ => hlist⟩
    · rw [hlist]
      simp [RedundancyScan.convertLast, heq, h.dropped_eq, removeEndpointsInOrder_self]
    · rw [hlist]
      exact Nat.zero_le _
    · simp [RedundancyScan.convertLast, heq] at hc
  · refine arranged_of_new p others h.dropped_eq (hsub.trans h.sublist) ?_ ?_ ?_
      ?_ (fun hsat => absurd hsat hunsat) fun _ => hle
    · simp [redundantEndpoints, RedundancyScan.convertLast, heq, h.dropped_eq, h.convertedPrimary,
        removeEndpointsInOrder_self]
    · simp only [RedundancyScan.convertLast, heq]
      exact (List.perm_append_singleton p others).symm
    · simp [RedundancyScan.convertLast, heq]
    · simp [RedundancyScan.convertLast, heq]

/-- When servers with a queue are preferred, one of them is made primary, or the others are left. -/
lemma Undecided.convertOldHA (h : Undecided r redundant eps t) (answers : EndpointAnswers ε) :
    Undecided r redundant eps (t.convertOldHA answers) ∨
      (t.convertOldHA answers).isPrimaryConnected = true ∧
        Arranged r redundant eps (t.convertOldHA answers) := by
  have hspec := convert_spec answers (fun ep => t.tempRedundantEndpoints.any
    answers.isRedundantServer && !answers.isRedundantServer ep) t.tempRedundantEndpoints.reverse []
  rw [List.append_nil, List.reverse_reverse] at hspec
  obtain ⟨hsub, hmem⟩ := hspec
  cases hfound : (t.convertOldHA answers).convertedPrimary with
  | none =>
    exact Or.inl ⟨congrArg Option.isSome hfound, h.isPrimaryAtBack, hfound, hsub.trans h.sublist,
      h.isRedundancySatisfied, Nat.le_trans hsub.length_le h.length_le, h.dropped_eq⟩
  | some p =>
    have hconnected : (t.convertOldHA answers).isPrimaryConnected = true :=
      congrArg Option.isSome hfound
    have hdropped : (t.convertOldHA answers).tempNonredundantEndpoints = redundant := h.dropped_eq
    have hunsat : (t.convertOldHA answers).isRedundancySatisfied = false := h.isRedundancySatisfied
    refine Or.inr ⟨hconnected, arranged_of_new p
      ((t.convertOldHA answers).tempRedundantEndpoints.erase p) hdropped
      (hsub.trans h.sublist) ?_ (List.perm_cons_erase (hmem p hfound)).symm hconnected hfound
      (fun hsat => ?_) fun _ => Nat.le_trans hsub.length_le h.length_le⟩
    · simp [redundantEndpoints, hfound, hconnected, moveEndpointToLast, hdropped,
        removeEndpointsInOrder_self]
    · rw [hunsat] at hsat
      cases hsat

/-- Step 2 is taken only while no primary is known. -/
lemma Undecided.convertSecondary (h : Undecided r redundant eps t) (init : Bool) :
    Arranged r redundant eps (t.convertSecondary answers init) := by
  rw [RedundancyScan.convertSecondary, h.isRedundancySatisfied, h.isPrimaryConnected]
  cases init with
  | false =>
    simp only [Bool.or_self, Bool.false_eq_true, if_false, h.isPrimaryConnected]
    exact h.convertLast
  | true =>
    simp only [Bool.or_self, Bool.false_eq_true, if_false, if_true]
    obtain hnext | ⟨hconnected, harranged⟩ := h.convertOldHA answers
    · rw [if_neg (by simp [hnext.isPrimaryConnected])]
      exact hnext.convertLast
    · rw [if_pos hconnected]
      exact harranged

omit [DecidableEq ε] in
/-- Step 2 is not taken when there is a primary. -/
lemma convertSecondary_of_decided
    (h : t.isRedundancySatisfied = true ∨ t.isPrimaryConnected = true) (init : Bool) :
    t.convertSecondary answers init = t := by
  rw [convertSecondary, if_pos (by simpa using h)]

end RedundancyScan

/-! ## Runs -/

namespace ThinClientRedundancyManager

open RedundancyScan

variable {ε : Type} [DecidableEq ε] {r : ℕ} {m : ThinClientRedundancyManager ε}
  {call : MaintainCall ε}

/-- Whatever the endpoints answer, the new lists are in order. -/
lemma arranged_rearrange (call : MaintainCall ε) (hlength : m.redundantEndpoints.length ≤ r + 1)
    (hnodup : m.redundantEndpoints.Nodup) :
    Arranged r m.redundantEndpoints (m.rearrange r call).2 (m.rearrange r call).1 := by
  dsimp only [rearrange]
  set eps := m.candidates call (scanRedundant r call.answers m.redundantEndpoints)
  obtain hknown | ⟨hundecided, hcount⟩ := scanRedundant_spec call.answers hlength
  · have h := scan_rule (visitNonredundant r call.answers call.init eps.getLast?)
      (Known r m.redundantEndpoints)
      (fun h _ => { h with sublist := h.sublist.trans (List.sublist_append_left _ _) })
      (fun h hunsat => h.visitNonredundant hunsat _ _ _) eps hknown
    rw [convertSecondary_of_decided (Or.inr h.isPrimaryConnected)]
    exact h.arranged hnodup
  · have h := scan_rule (visitNonredundant r call.answers call.init eps.getLast?)
      (fun done t => (Undecided r m.redundantEndpoints done t ∧
        t.secondaryCount = t.tempRedundantEndpoints.length) ∨ t.isRedundancySatisfied = true ∧
        Arranged r m.redundantEndpoints done t) ?_ ?_ eps
      (Or.inl ⟨hundecided, by rw [hcount, List.sublist_nil.mp hundecided.sublist]; rfl⟩)
    · obtain ⟨hundecided, -⟩ | ⟨hsat, harranged⟩ := h
      · exact hundecided.convertSecondary call.init
      · rw [convertSecondary_of_decided (Or.inl hsat)]
        exact harranged
    · rintro done ep t (⟨h, -⟩ | ⟨-, h⟩) hsat
      · rw [h.isRedundancySatisfied] at hsat
        cases hsat
      · exact Or.inr ⟨hsat, { h with added := h.added.trans (List.sublist_append_left _ _) }⟩
    · rintro done ep t (⟨h, hcount⟩ | ⟨hsat, -⟩) hunsat
      · exact h.visitNonredundant hcount _ _ _
      · rw [hsat] at hunsat
        cases hunsat

/-- The documented postconditions: no duplicates within the lists or between them, the size of the
redundant list, and that its first endpoint is the primary. -/
structure Documented (r : ℕ) (m : ThinClientRedundancyManager ε) : Prop where
  nodup_redundant : m.redundantEndpoints.Nodup
  nodup_nonredundant : m.nonredundantEndpoints.Nodup
  disjoint : m.redundantEndpoints.Disjoint m.nonredundantEndpoints
  satisfied : m.isRedundancySatisfied = true → m.redundantEndpoints.length = r + 1
  unsatisfied : m.isRedundancySatisfied = false → m.redundantEndpoints.length ≤ r
  connected : m.isPrimaryConnected = true →
    ∃ p, m.redundantEndpoints.head? = some p ∧ m.lastPrimary = some p

/-- The servers that are selected are distinct and not among the redundant ones. -/
def Selects (m : ThinClientRedundancyManager ε) (call : MaintainCall ε) : Prop :=
  ∀ servers ∈ call.selectServers, servers.Nodup ∧ m.redundantEndpoints.Disjoint servers

/-- The invariant: a list without a primary is empty. -/
structure Kept (r : ℕ) (m : ThinClientRedundancyManager ε) : Prop extends Documented r m where
  disconnected : m.isPrimaryConnected = false → m.redundantEndpoints = []

/-- A call of `maintainRedundancyLevel`. -/
def maintain (r : ℕ) (m : ThinClientRedundancyManager ε) (call : MaintainCall ε) :
    ThinClientRedundancyManager ε :=
  (m.maintainRedundancyLevel r call).1

omit [DecidableEq ε] in
/-- The endpoints that may be added are distinct, and not redundant. -/
lemma Kept.nodup_candidates (h : Kept r m) (hselects : m.Selects call) (t : RedundancyScan ε) :
    (m.redundantEndpoints ++ m.candidates call t).Nodup := by
  have hold := List.nodup_append'.mpr ⟨h.nodup_redundant, h.nodup_nonredundant, h.disjoint⟩
  rw [candidates]
  split
  · exact hold
  · cases hservers : call.selectServers with
    | none => exact hold
    | some servers =>
      obtain ⟨hnodup, hdisjoint⟩ := hselects servers hservers
      exact List.nodup_append'.mpr ⟨h.nodup_redundant, hnodup, hdisjoint⟩

/-- A call of `maintainRedundancyLevel` keeps the invariant. -/
lemma Kept.maintain (h : Kept r m) (hselects : m.Selects call) : Kept r (m.maintain r call) := by
  have hlength : m.redundantEndpoints.length ≤ r + 1 := by
    cases hsat : m.isRedundancySatisfied with
    | true => exact Nat.le_of_eq (h.satisfied hsat)
    | false => exact Nat.le_succ_of_le (h.unsatisfied hsat)
  have harranged := arranged_rearrange call hlength h.nodup_redundant
  have hperm := perm_of_removeEndpointsInOrder harranged.dropped harranged.added harranged.perm
  obtain ⟨hred, hnon, hdisjoint⟩ :=
    List.nodup_append'.mp (hperm.nodup_iff.mpr (h.nodup_candidates hselects _))
  refine ⟨⟨hred, hnon, hdisjoint, harranged.satisfied, harranged.unsatisfied, fun hconnected => ?_⟩,
    harranged.disconnected⟩
  obtain ⟨p, hhead, hp⟩ := harranged.connected hconnected
  refine ⟨p, hhead, ?_⟩
  change ((m.rearrange r call).1.promoted <|> m.lastPrimary) = some p
  obtain hpromoted | ⟨hnone, hfirst⟩ := hp
  · rw [hpromoted]
    rfl
  · -- the primary of before is still the primary
    rw [hnone]
    cases hbefore : m.isPrimaryConnected with
    | true =>
      obtain ⟨p', hhead', hlast⟩ := h.connected hbefore
      rw [hfirst] at hhead'
      rw [hhead']
      exact hlast
    | false =>
      rw [h.disconnected hbefore] at hfirst
      cases hfirst

/-- A manager that was just initialized. -/
def initial (endpoints : List ε) : ThinClientRedundancyManager ε :=
  ⟨⟨[], endpoints⟩, none, false, false⟩

/-- After every call of `maintainRedundancyLevel` the lists are as documented. -/
theorem everyState_documented (r : ℕ) (endpoints : List ε) (hnodup : endpoints.Nodup)
    (calls : List (MaintainCall ε))
    (hselects : EveryStep (maintain r) Selects (initial endpoints) calls) :
    EveryState (maintain r) (Documented r) (initial endpoints) calls := by
  have hinitial : Kept r (initial endpoints) :=
    ⟨⟨List.nodup_nil, hnodup, List.disjoint_nil_left _, fun hsat => (by cases hsat),
      fun _ => Nat.zero_le _, fun hconnected => (by cases hconnected)⟩, fun _ => rfl⟩
  exact (everyState_of_everyStep (fun _ _ h hselects => h.maintain hselects) hinitial
    hselects).mono fun _ h => h.toDocumented

/-- Endpoints that answer everything, apart from those that have failed. -/
def answersExcept (failed : List ℕ) : EndpointAnswers ℕ where
  connected ep := ep ∉ failed
  sendMakePrimaryMesg ep := ep ∉ failed
  makePrimary ep := if ep ∈ failed then .ioErr else .noErr
  makeSecondary ep := if ep ∈ failed then .ioErr else .noErr
  isRedundantServer _ := false

/-- A client starts and then loses its primary. -/
theorem everyState_documented_failover :
    EveryState (maintain 1) (Documented 1) (initial [1, 2, 3])
      [⟨true, some [], answersExcept []⟩, ⟨false, some [4], answersExcept [3]⟩] :=
  everyState_documented 1 [1, 2, 3] (by decide) _
    ⟨fun _ h => by cases h; exact ⟨List.nodup_nil, List.disjoint_nil_left _⟩,
      fun _ h => by cases h; exact ⟨by decide, show List.Disjoint [3, 1] [4] by simp⟩, trivial⟩

end ThinClientRedundancyManager

end GeodeNative
