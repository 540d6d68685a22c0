import Mathlib.Algebra.Group.Nat.Defs
import Mathlib.Data.List.Nodup
import GeodeNative.Library.Runs

/-!
# The registry of transactions

`CacheTransactionManagerImpl` lists the ids of all transactions in `m_TXs`.  The state of a
transaction is in the thread-local slot of the thread that works on it, or in `m_suspendedTXs`; it
is moved between them in several steps, with other threads' steps in between.  A state is known by
its id here, which is all that the registry looks at.

A transaction is lost when it is resumed without a connection to its server, which neither puts it
back nor takes it off the list, and when a listener begins or resumes it during a commit, which
empties the slot once more at its end.  The task for the expiry of a suspended transaction holds a
reference to the id in its state, which may be deleted by then.  `accounted_of_allowed` proves that
in runs without these, and without ids that are given twice, every transaction is in one place
whenever no call is in progress.
-/

namespace GeodeNative

/-- Where a thread is in the calls of the manager: outside of them; in `begin` before `addTx`; in
`suspend` before `addSuspendedTx`, and before the slot is emptied; in one of the functions that
resume, before `removeSuspendedTx`, with the state that was found, and before the connection is
known; in `commit` or `rollback` before `TXCleaner::clean` takes the id off the list, and before it
empties the slot.  `commit` cleans twice when it succeeds. -/
inductive TxPoint
  | idle
  | beginning
  | suspending
  | leaving
  | resuming (id : ℕ)
  | taken (id : ℕ)
  | connecting
  | cleaning (twice : Bool)
  | cleaned (id : ℕ) (twice : Bool)
  deriving DecidableEq, Repr

/-- A thread, with the state in its slot and the transactions whose changes its commits apply, the
innermost first.  The listeners that are called then may call the manager. -/
structure TxSlot where
  current : Option ℕ
  point : TxPoint
  applying : List ℕ
  deriving DecidableEq, Repr

/-- What a thread does: it calls a function of the manager, runs the task for the expiry of a
transaction, ends the changes of a commit, or goes on with its call.  The functions that resume
differ in what they report; the one that waits looks into the map again and again. -/
inductive TxStep
  | begin
  | suspend (hasConnection : Bool)
  | resume (id : ℕ)
  | expire (id : ℕ)
  | finish (twice : Bool)
  | applied
  | goOn
  | look (giveUp : Bool)
  | connected (success : Bool)
  deriving DecidableEq, Repr

/-- `TXId::m_transactionId`, `m_TXs`, the keys of `m_suspendedTXs`, the states that are not deleted,
whether a deleted one was read, and the threads. -/
structure TransactionRegistry where
  transactionId : ℕ
  txs : List ℕ
  suspended : List ℕ
  states : List ℕ
  dangling : Bool
  threads : ℕ → TxSlot

namespace TransactionRegistry

/-- No transaction has begun since the counter had this value. -/
def initial (transactionId : ℕ) : TransactionRegistry :=
  ⟨transactionId, [], [], [], false, fun _ => ⟨none, .idle, []⟩⟩

variable (r : TransactionRegistry)

/-- A thread goes on to a slot. -/
def set (i : ℕ) (t : TxSlot) : TransactionRegistry :=
  { r with threads := Function.update r.threads i t }

/-- The id that `TXId::TXId` takes. -/
def nextId : ℕ := if r.transactionId = 2 ^ 31 - 1 then 1 else r.transactionId + 1

/-- `begin`: a state with a new id. -/
def newState : TransactionRegistry :=
  { r with transactionId := r.nextId, states := r.nextId :: r.states }

def addTx (id : ℕ) : TransactionRegistry := { r with txs := r.txs ++ [id] }

def removeTx (id : ℕ) : TransactionRegistry := { r with txs := r.txs.filter (· ≠ id) }

def addSuspendedTx (id : ℕ) : TransactionRegistry :=
  { r with suspended := r.suspended.insert id }

def removeSuspendedTx (id : ℕ) : TransactionRegistry :=
  { r with suspended := r.suspended.filter (· ≠ id) }

/-- The end of `~TXCleaner`. -/
def deleteState (id : ℕ) : TransactionRegistry := { r with states := r.states.filter (· ≠ id) }

/-- A step that does not fit where the thread is does nothing; so does a call that throws at
once. -/
def step (what : ℕ × TxStep) : TransactionRegistry :=
  let i := what.1
  let t := r.threads i
  match t.point, what.2, t.current with
  | .idle, .begin, none => r.newState.set i { t with current := r.nextId, point := .beginning }
  | .beginning, .goOn, some id => (r.addTx id).set i { t with point := .idle }
  | .idle, .suspend true, some _ => r.set i { t with point := .suspending }
  | .suspending, .goOn, some id => (r.addSuspendedTx id).set i { t with point := .leaving }
  | .leaving, .goOn, _ => r.set i { t with current := none, point := .idle }
  | .idle, .resume id, none => r.set i { t with point := .resuming id }
  | .idle, .expire id, none =>
    if id ∈ r.states then r.set i { t with point := .resuming id } else { r with dangling := true }
  | .resuming id, .look giveUp, _ =>
    if id ∈ r.suspended then (r.removeSuspendedTx id).set i { t with point := .taken id }
    else r.set i { t with point := if giveUp then .idle else .resuming id }
  | .taken id, .goOn, _ => r.set i { t with current := some id, point := .connecting }
  | .connecting, .connected success, current =>
    r.set i { t with current := if success then current else none, point := .idle }
  | .idle, .finish twice, some _ => r.set i { t with point := .cleaning twice }
  | .cleaning twice, .goOn, some id => (r.removeTx id).set i { t with point := .cleaned id twice }
  | .cleaned id true, .goOn, _ =>
    r.set i { t with current := none, point := .idle, applying := id :: t.applying }
  | .cleaned id false, .goOn, _ =>
    (r.deleteState id).set i { t with current := none, point := .idle }
  | .idle, .applied, _ =>
    match t.applying with
    | [] => r
    | id :: applying => (r.removeTx id).set i { t with point := .cleaned id false, applying }
  | _, _, _ => r

/-- The thread is in no call of the manager. -/
def Outside (t : TxSlot) : Prop := t.point = .idle ∧ t.applying = []

/-- No deleted state is read; and whenever no call is in progress, every id on the list is that of
one transaction, which is in the slot of one thread or in the map. -/
def Accounted : Prop :=
  r.dangling = false ∧ ((∀ i, Outside (r.threads i)) → r.txs.Nodup ∧ ∀ id ∈ r.txs,
    id ∈ r.states ∧
      ((∃ i, (r.threads i).current = some id ∧ id ∉ r.suspended ∧
        ∀ j, (r.threads j).current = some id → j = i) ∨
      id ∈ r.suspended ∧ ∀ i, (r.threads i).current ≠ some id))

/-- A transaction gets an id that no transaction has; the task for the expiry finds the state of its
transaction; there is a connection for a transaction that is resumed; and the listeners that a
commit calls leave no transaction in the slot. -/
def Allowed (what : ℕ × TxStep) : Prop :=
  match what.2 with
  | .begin => r.nextId ∉ r.states
  | .expire id => id ∈ r.states
  | .connected success => (r.threads what.1).point = .connecting → success = true
  | .applied => (r.threads what.1).current = none
  | _ => True

/-! ## What a thread has to itself -/

/-- The transaction that a thread works on. -/
def owned (t : TxSlot) : Option ℕ :=
  match t.point with
  | .idle | .beginning | .suspending | .connecting | .cleaning _ => t.current
  | .taken id => some id
  | .leaving | .resuming _ | .cleaned _ _ => none

/-- The transactions that are off the list and that a thread will delete. -/
def finishing (t : TxSlot) : List ℕ :=
  match t.point with
  | .cleaned id _ => id :: t.applying
  | _ => t.applying

/-- The transactions that a thread has to itself. -/
def held (t : TxSlot) : List ℕ := (owned t).toList ++ finishing t

/-- What holds along a run of allowed steps. -/
structure Kept : Prop where
  nodup_held : ∀ i, (held (r.threads i)).Nodup
  unique : ∀ i j, ∀ id ∈ held (r.threads i), id ∈ held (r.threads j) → i = j
  apart : ∀ i, ∀ id ∈ held (r.threads i), id ∉ r.suspended ∧ id ∈ r.states
  suspended_states : ∀ id ∈ r.suspended, id ∈ r.states
  listed : ∀ id ∈ r.txs, (∃ i, owned (r.threads i) = some id) ∨ id ∈ r.suspended
  nodup : r.txs.Nodup
  fresh : ∀ i id, (r.threads i).point = .beginning → (r.threads i).current = some id → id ∉ r.txs
  empty : ∀ i id, (r.threads i).point = .resuming id → (r.threads i).current = none
  dangling_eq : r.dangling = false

variable {r} {i : ℕ} {t : TxSlot} {id : ℕ}

@[simp] lemma threads_set (i : ℕ) (t : TxSlot) (j : ℕ) :
    (r.set i t).threads j = if j = i then t else r.threads j := by
  simp [set, Function.update_apply]

/-- The transaction that a thread works on is one that it has. -/
lemma mem_held_of_owned (h : owned t = some id) : id ∈ held t := by
  simp [held, h]

/-- The transactions on the list have their states. -/
lemma Kept.states_of_mem_txs (h : r.Kept) (hid : id ∈ r.txs) : id ∈ r.states := by
  rcases h.listed id hid with ⟨i, hi⟩ | hmem
  · exact (h.apart i id (mem_held_of_owned hi)).2
  · exact h.suspended_states id hmem

/-- Between the calls the invariant says that every transaction is in one place. -/
lemma Kept.accounted (h : r.Kept) : r.Accounted := by
  refine ⟨h.dangling_eq, fun houtside => ⟨h.nodup, fun id hid => ⟨h.states_of_mem_txs hid, ?_⟩⟩⟩
  have howned : ∀ i, owned (r.threads i) = (r.threads i).current := by
    intro i
    simp [owned, (houtside i).1]
  have hlisted := h.listed id hid
  simp only [howned] at hlisted
  by_cases hmem : id ∈ r.suspended
  · refine .inr ⟨hmem, fun i hi => ?_⟩
    exact (h.apart i id (mem_held_of_owned ((howned i).trans hi))).1 hmem
  · obtain ⟨i, hi⟩ := hlisted.resolve_right hmem
    refine .inl ⟨i, hi, hmem, fun j hj => ?_⟩
    exact h.unique j i id (mem_held_of_owned ((howned j).trans hj))
      (mem_held_of_owned ((howned i).trans hi))

/-! ## The steps -/

/-- A thread goes on with what it has, and ids that it does not work on go off the list. -/
lemma Kept.move {txs : List ℕ} (h : r.Kept) (hsub : txs.Sublist r.txs)
    (hheld : held t = held (r.threads i))
    (howned : ∀ id ∈ txs, owned (r.threads i) = some id → owned t = some id)
    (hpoint : t.point ≠ .beginning) (hempty : ∀ id, t.point = .resuming id → t.current = none) :
    ({ r with txs }.set i t).Kept := by
  have hsame : ∀ j, held (({ r with txs }.set i t).threads j) = held (r.threads j) := by
    intro j
    rw [threads_set]
    split_ifs with hj
    · rw [hheld, hj]
    · rfl
  refine ⟨fun j => hsame j ▸ h.nodup_held j, fun j k => ?_, fun j => hsame j ▸ h.apart j,
    h.suspended_states, fun id hid => ?_, h.nodup.sublist hsub, fun j => ?_, fun j => ?_,
    h.dangling_eq⟩
  · rw [hsame, hsame]
    exact h.unique j k
  · refine (h.listed id (hsub.subset hid)).imp_left ?_
    rintro ⟨j, hj⟩
    refine ⟨j, ?_⟩
    rw [threads_set]
    split_ifs with heq
    · exact howned id hid (heq ▸ hj)
    · exact hj
  · rw [threads_set]
    split_ifs
    · exact fun _ hbeginning => absurd hbeginning hpoint
    · exact fun id hbeginning hid hmem => h.fresh j id hbeginning hid (hsub.subset hmem)
  · rw [threads_set]
    split_ifs
    · exact hempty
    · exact h.empty j

/-- A thread takes a transaction that no other thread has: a new one, or a suspended one. -/
lemma Kept.take {transactionId : ℕ} {suspended states : List ℕ} (h : r.Kept)
    (hnot : ∀ j, id ∉ held (r.threads j)) (hheld : held t = id :: held (r.threads i))
    (hsuspended : ∀ x, x ∈ suspended ↔ x ∈ r.suspended ∧ x ≠ id)
    (hstates : ∀ x, x ∈ states ↔ x ∈ r.states ∨ x = id) (howned : owned t = some id)
    (hnone : owned (r.threads i) = none)
    (hfresh : t.point = .beginning → id ∉ r.txs ∧ t.current = some id)
    (hempty : ∀ id, t.point ≠ .resuming id) :
    ({ r with transactionId, suspended, states }.set i t).Kept := by
  refine ⟨fun j => ?_, fun j k x => ?_, fun j x => ?_, fun x hx => ?_, fun x hx => ?_, h.nodup,
    fun j x => ?_, fun j x => ?_, h.dangling_eq⟩
  · rw [threads_set]
    split_ifs with hj
    · rw [hheld]
      exact List.nodup_cons.mpr ⟨hnot i, h.nodup_held i⟩
    · exact h.nodup_held j
  · simp only [threads_set]
    split_ifs with hj hk hk
    · exact fun _ _ => hj.trans hk.symm
    · rw [hheld, List.mem_cons]
      rintro (rfl | hx) hx'
      · exact absurd hx' (hnot k)
      · exact hj.trans (h.unique i k x hx hx')
    · rw [hheld, List.mem_cons]
      rintro hx (rfl | hx')
      · exact absurd hx (hnot j)
      · exact (h.unique j i x hx hx').trans hk.symm
    · exact h.unique j k x
  · change x ∈ _ → x ∉ suspended ∧ x ∈ states
    rw [threads_set, hsuspended, hstates]
    split_ifs with hj
    · rw [hheld, List.mem_cons]
      rintro (rfl | hx)
      · exact ⟨fun hmem => hmem.2 rfl, .inr rfl⟩
      · exact ⟨fun hmem => (h.apart i x hx).1 hmem.1, .inl (h.apart i x hx).2⟩
    · exact fun hx => ⟨fun hmem => (h.apart j x hx).1 hmem.1, .inl (h.apart j x hx).2⟩
  · exact (hstates x).mpr (.inl (h.suspended_states x ((hsuspended x).mp hx).1))
  · by_cases hxid : x = id
    · exact .inl ⟨i, by rw [threads_set, if_pos rfl, howned, hxid]⟩
    · refine (h.listed x hx).imp ?_ fun hmem => (hsuspended x).mpr ⟨hmem, hxid⟩
      rintro ⟨j, hj⟩
      refine ⟨j, ?_⟩
      rw [threads_set, if_neg fun heq => ?_]
      · exact hj
      · rw [heq, hnone] at hj
        cases hj
  · rw [threads_set]
    split_ifs
    · intro hbeginning hx
      obtain ⟨hnew, hcurrent⟩ := hfresh hbeginning
      rw [hcurrent] at hx
      exact Option.some.inj hx ▸ hnew
    · exact h.fresh j x
  · rw [threads_set]
    split_ifs
    · exact fun hresuming => absurd hresuming (hempty x)
    · exact h.empty j x

/-- A thread gives up a transaction: to the map of suspended ones, or for good. -/
lemma Kept.give {suspended states : List ℕ} (h : r.Kept) (id : ℕ)
    (hheld : held (r.threads i) = id :: held t)
    (hsuspended : ∀ x ∈ r.suspended, x ∈ suspended)
    (hin : ∀ x ∈ suspended, x ∈ r.suspended ∨ x = id)
    (hstates : ∀ x ∈ r.states, x ≠ id ∨ id ∈ suspended → x ∈ states)
    (howned : ∀ x, owned (r.threads i) = some x → x ∈ suspended)
    (hpoint : t.point ≠ .beginning) (hempty : ∀ id, t.point ≠ .resuming id) :
    ({ r with suspended, states }.set i t).Kept := by
  have hnodup := h.nodup_held i
  rw [hheld, List.nodup_cons] at hnodup
  have hid : id ∈ held (r.threads i) := hheld ▸ List.mem_cons_self
  have hmem : ∀ x ∈ held t, x ∈ held (r.threads i) := fun x hx =>
    hheld ▸ List.mem_cons_of_mem _ hx
  have hapart : ∀ j, ∀ x ∈ held (r.threads j), x ≠ id → x ∉ suspended ∧ x ∈ states := by
    intro j x hx hne
    obtain ⟨hnot, hstate⟩ := h.apart j x hx
    exact ⟨fun hsus => (hin x hsus).elim hnot hne, hstates x hstate (.inl hne)⟩
  refine ⟨fun j => ?_, fun j k x => ?_, fun j x => ?_, fun x hx => ?_, fun x hx => ?_, h.nodup,
    fun j x => ?_, fun j x => ?_, h.dangling_eq⟩
  · rw [threads_set]
    split_ifs with hj
    · exact hnodup.2
    · exact h.nodup_held j
  · simp only [threads_set]
    split_ifs with hj hk hk
    · exact fun _ _ => hj.trans hk.symm
    · exact fun hx hx' => hj.trans (h.unique i k x (hmem x hx) hx')
    · exact fun hx hx' => (h.unique j i x hx (hmem x hx')).trans hk.symm
    · exact h.unique j k x
  · rw [threads_set]
    split_ifs with hj
    · exact fun hx => hapart i x (hmem x hx) fun heq => hnodup.1 (heq ▸ hx)
    · exact fun hx => hapart j x hx fun heq => hj (h.unique j i id (heq ▸ hx) hid)
  · rcases hin x hx with hold | rfl
    · refine hstates x (h.suspended_states x hold) (.inl fun heq => ?_)
      exact (h.apart i id hid).1 (heq ▸ hold)
    · exact hstates x (h.apart i x hid).2 (.inr hx)
  · rcases h.listed x hx with ⟨j, hj⟩ | hold
    · by_cases heq : j = i
      · exact .inr (howned x (heq ▸ hj))
      · exact .inl ⟨j, by rw [threads_set, if_neg heq, hj]⟩
    · exact .inr (hsuspended x hold)
  · rw [threads_set]
    split_ifs
    · exact fun hbeginning => absurd hbeginning hpoint
    · exact h.fresh j x
  · rw [threads_set]
    split_ifs
    · exact fun hresuming => absurd hresuming (hempty x)
    · exact h.empty j x

/-- A transaction that has begun comes on the list. -/
lemma Kept.addTx (h : r.Kept) (howned : owned (r.threads i) = some id) (hid : id ∉ r.txs)
    (hbeginning : ∀ j, (r.threads j).point = .beginning → j ≠ i) : (r.addTx id).Kept := by
  refine ⟨h.nodup_held, h.unique, h.apart, h.suspended_states, fun x hx => ?_, ?_,
    fun j x hj hx hmem => ?_, h.empty, h.dangling_eq⟩
  · rcases List.mem_append.mp hx with hx | hx
    · exact h.listed x hx
    · exact .inl ⟨i, List.mem_singleton.mp hx ▸ howned⟩
  · exact List.nodup_append.mpr ⟨h.nodup, List.nodup_singleton id, by
      rintro x hx y hy rfl
      exact hid (List.mem_singleton.mp hy ▸ hx)⟩
  · rcases List.mem_append.mp hmem with hmem | hmem
    · exact h.fresh j x hj hx hmem
    · -- no other thread has the transaction
      have hother : owned (r.threads j) = some id := by
        rw [owned, show (r.threads j).point = .beginning from hj, ← List.mem_singleton.mp hmem]
        exact hx
      exact hbeginning j hj
        (h.unique j i id (mem_held_of_owned hother) (mem_held_of_owned howned))

/-- Every allowed step keeps the invariant. -/
lemma Kept.step {what : ℕ × TxStep} (h : r.Kept) (hallowed : r.Allowed what) :
    (r.step what).Kept := by
  obtain ⟨i, what⟩ := what
  have hmove {t : TxSlot} (hheld : held t = held (r.threads i))
      (howned : owned t = owned (r.threads i)) (hpoint : t.point ≠ .beginning)
      (hempty : ∀ id, t.point = .resuming id → t.current = none) : (r.set i t).Kept :=
    h.move (List.Sublist.refl _) hheld (fun _ _ hid => howned.trans hid) hpoint hempty
  unfold TransactionRegistry.step
  dsimp only
  split
  case h_1 hpoint hcurrent =>
    -- a new id is that of no state, and so nobody has it
    have hnew : r.nextId ∉ r.states := hallowed
    refine h.take (fun j hj => hnew (h.apart j _ hj).2) ?_ (fun x => ?_) (fun x => ?_) rfl ?_ ?_ ?_
    · simp [held, owned, finishing, hpoint, hcurrent]
    · exact ⟨fun hx => ⟨hx, fun heq => hnew (heq ▸ h.suspended_states x hx)⟩, And.left⟩
    · rw [List.mem_cons, or_comm]
    · simp [owned, hpoint, hcurrent]
    · exact fun _ => ⟨fun hmem => hnew (h.states_of_mem_txs hmem), rfl⟩
    · exact fun _ hresuming => by cases hresuming
  case h_2 id hpoint hcurrent =>
    have howned : owned (r.threads i) = some id := by simp [owned, hpoint, hcurrent]
    have hidle : (r.set i { r.threads i with point := .idle }).Kept :=
      hmove (by simp [held, owned, finishing, hpoint]) (by simp [owned, hpoint]) (by simp) (by simp)
    refine hidle.addTx (i := i) ?_ (h.fresh i id hpoint hcurrent) fun j hj heq => ?_
    · simp [owned, hcurrent]
    · rw [heq, threads_set, if_pos rfl] at hj
      cases hj
  case h_3 hpoint hcurrent =>
    exact hmove (by simp [held, owned, finishing, hpoint]) (by simp [owned, hpoint]) (by simp)
      (by simp)
  case h_4 id hpoint hcurrent =>
    have howned : owned (r.threads i) = some id := by simp [owned, hpoint, hcurrent]
    refine h.give id (by simp [held, owned, finishing, hpoint, hcurrent])
      (fun x hx => List.mem_insert_of_mem hx) (fun x hx => (List.mem_insert_iff.mp hx).symm)
      (fun x hx _ => hx) (fun x hx => ?_) (by simp) (by simp)
    rw [howned] at hx
    exact Option.some.inj hx ▸ List.mem_insert_self
  case h_5 hpoint =>
    exact hmove (by simp [held, owned, finishing, hpoint]) (by simp [owned, hpoint]) (by simp)
      (by simp)
  case h_6 id hpoint hcurrent =>
    exact hmove (by simp [held, owned, finishing, hpoint, hcurrent])
      (by simp [owned, hpoint, hcurrent]) (by simp) (fun _ _ => hcurrent)
  case h_7 id hpoint hcurrent =>
    rw [if_pos (show id ∈ r.states from hallowed)]
    exact hmove (by simp [held, owned, finishing, hpoint, hcurrent])
      (by simp [owned, hpoint, hcurrent]) (by simp) (fun _ _ => hcurrent)
  case h_8 id giveUp hpoint =>
    have hcurrent := h.empty i id hpoint
    split_ifs with hmem hgive
    · refine h.take (fun j hj => (h.apart j _ hj).1 hmem) ?_ (fun x => by simp) (fun x => ?_) rfl
        ?_ ?_ ?_
      · simp [held, owned, finishing, hpoint]
      · exact ⟨.inl, fun hx => hx.elim (·) fun heq => heq ▸ h.suspended_states id hmem⟩
      · simp [owned, hpoint]
      · exact fun hbeginning => by cases hbeginning
      · exact fun _ hresuming => by cases hresuming
    · exact hmove (by simp [held, owned, finishing, hpoint, hcurrent])
        (by simp [owned, hpoint, hcurrent]) (by simp) (by simp)
    · exact hmove (by simp [held, owned, finishing, hpoint]) (by simp [owned, hpoint]) (by simp)
        (fun _ _ => hcurrent)
  case h_9 id hpoint =>
    exact hmove (by simp [held, owned, finishing, hpoint]) (by simp [owned, hpoint]) (by simp)
      (by simp)
  case h_10 success hpoint =>
    obtain rfl : success = true := hallowed hpoint
    exact hmove (by simp [held, owned, finishing, hpoint]) (by simp [owned, hpoint]) (by simp)
      (by simp)
  case h_11 twice hpoint hcurrent =>
    exact hmove (by simp [held, owned, finishing, hpoint]) (by simp [owned, hpoint]) (by simp)
      (by simp)
  case h_12 twice id hpoint hcurrent =>
    refine h.move List.filter_sublist ?_ (fun x hx howned => ?_) (by simp) (by simp)
    · simp [held, owned, finishing, hpoint, hcurrent]
    · simp_all [owned]
  case h_13 id hpoint =>
    exact hmove (by simp [held, owned, finishing, hpoint]) (by simp [owned, hpoint]) (by simp)
      (by simp)
  case h_14 id hpoint =>
    have hheld : id ∈ held (r.threads i) := by simp [held, finishing, hpoint]
    refine h.give id (by simp [held, owned, finishing, hpoint]) (fun x hx => hx)
      (fun x hx => .inl hx) (fun x hx hne => ?_) (by simp [owned, hpoint]) (by simp) (by simp)
    have hne : x ≠ id := hne.resolve_right (h.apart i id hheld).1
    simp [hx, hne]
  case h_15 hpoint =>
    have hcurrent : (r.threads i).current = none := hallowed
    split
    · exact h
    · next id applying happlying =>
      refine h.move List.filter_sublist ?_ (fun x hx howned => ?_) (by simp) (by simp)
      · simp [held, owned, finishing, hpoint, hcurrent, happlying]
      · simp [owned, hpoint, hcurrent] at howned
  case h_16 => exact h

/-- Nothing has begun. -/
lemma kept_initial (transactionId : ℕ) : (initial transactionId).Kept := by
  constructor <;> simp [initial, held, owned, finishing]

/-- A thread begins a transaction and suspends it, and another one resumes it; the flag says
whether there is a connection to its server. -/
def handedOver (success : Bool) : List (ℕ × TxStep) :=
  [(0, .begin), (0, .goOn), (0, .suspend true), (0, .goOn), (1, .resume 1), (1, .look true),
    (0, .goOn), (1, .goOn), (1, .connected success)]

/-- A listener begins a transaction while a commit applies its changes. -/
def begunInCommit : List (ℕ × TxStep) :=
  [(0, .begin), (0, .goOn), (0, .finish true), (0, .goOn), (0, .goOn), (0, .begin), (0, .goOn),
    (0, .applied), (0, .goOn)]

/-- The task for the expiry begins to run when another thread has resumed the transaction, and goes
on when that one has rolled it back. -/
def expiredLate : List (ℕ × TxStep) :=
  handedOver true ++ [(1, .finish false), (1, .goOn), (1, .goOn), (2, .expire 1)]

/-- On the list, but with no thread and not suspended. -/
def Lost (id : ℕ) : Prop :=
  (∀ i, Outside (r.threads i)) ∧ id ∈ r.txs ∧ id ∉ r.suspended ∧
    ∀ i, (r.threads i).current ≠ some id

/-- A transaction that is lost is in no place. -/
lemma not_accounted_of_lost {run : List (ℕ × TxStep)} {s : TransactionRegistry} (id : ℕ)
    (h : (runFrom TransactionRegistry.step s run).Lost id) :
    ¬ EveryState TransactionRegistry.step Accounted s run := by
  intro haccounted
  obtain ⟨houtside, hmem, hnot, hnone⟩ := h
  rcases ((haccounted.last.2 houtside).2 id hmem).2 with ⟨i, hi, -⟩ | ⟨hsuspended, -⟩
  · exact hnone i hi
  · exact hnot hsuspended

end TransactionRegistry

end GeodeNative
