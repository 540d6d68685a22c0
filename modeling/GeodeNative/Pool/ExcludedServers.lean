import GeodeNative.Pool.PoolState

/-!
# Servers that a search for a connection excludes

A request that failed at a server is sent again, and `getConnectionFromQueue` is told which servers
to leave out. Its search of the queue closes the connections to these servers. When it has to wait
for a connection it calls `getLockedFor` of `ConnectionQueue`, whose test of a connection is a
member of that class which refuses none: `ThinClientPoolDM::exclude` has other parameters and is
never called. Excluded servers are respected exactly if a caller that finds the queue without a
usable connection, and makes none, is not met by a connection to one of them.
-/

namespace GeodeNative

open List

/-- What another thread does to the queue while the caller waits: it puts back a connection that
leads to a server, takes one, or closes the queue. -/
inductive OtherThread
  | putBack (server : ServerId)
  | take
  | close
  deriving DecidableEq

namespace OtherThread

/-- The step on the pool. A connection that another thread held is one the caller has not seen: it
gets its number here. -/
def onPool (s : PoolState) : OtherThread → PoolState
  | putBack server => { s with heap := s.heap.alloc server }.put s.heap.fresh
  | take => s.popNoLock.2
  | close => s.close

/-- The step on the servers of the queued connections, front first; a closed queue is `none`. -/
def onServers : Option (List ServerId) → OtherThread → Option (List ServerId)
  | none, _ => none
  | some servers, putBack server => some (server :: servers)
  | some servers, take => some servers.dropLast
  | some _, close => none

/-- The server to which the oldest connection leads in the first of the waits that leaves one in
the queue, unless the queue was closed before. -/
def firstPutBack : List (List OtherThread) → Option (List ServerId) → Option ServerId
  | [], _ => none
  | others :: waits, servers =>
    match others.foldl onServers servers with
    | none => none
    | some servers' =>
      match servers'.getLast? with
      | none => firstPutBack waits (some servers')
      | some server => some server

end OtherThread

namespace Dial

/-- No turn makes a connection, unless it comes after a fatal error. -/
def AllFail : List Dial → Prop
  | [] => True
  | dial :: turns =>
    match dial.creation with
    | .made => False
    | .failed _ why => isFatalClientError why.error ∨ AllFail turns

/-- The excluded servers, and those of the turns up to a fatal error. -/
def tried : List Dial → List ServerId → List ServerId
  | [], excludeServers => excludeServers
  | dial :: turns, excludeServers =>
    match dial.creation with
    | .made => excludeServers
    | .failed _ why =>
      if isFatalClientError why.error then excludeServers.insert dial.server
      else tried turns (excludeServers.insert dial.server)

end Dial

open OtherThread

namespace PoolState

/-- `ConnectionQueue::exclude`. -/
def exclude (_conn : ConnId) (_excludeList : List ServerId) : Bool := false

/-- `ConnectionQueue::getLockedFor`: each wait comes with what the other threads do to the queue
until this one has the lock again, and the time is up after the last of them. -/
def getLockedFor (excludeList : List ServerId) :
    List (List OtherThread) → PoolState → Option ConnId × PoolState
  | [], s => (none, s)
  | others :: waits, s =>
    match (others.foldl onPool s).popNoLock with
    | (none, s') => if s'.closed then (none, s') else getLockedFor excludeList waits s'
    | (some conn, s') =>
      if exclude conn excludeList then
        getLockedFor excludeList waits ((s'.safeDeleteCon conn).reducePoolSize 1)
      else (some conn, s')

/-- The connections that a search took off the end of the queue lead to excluded servers, and each
of them was closed, deleted and taken off `m_poolSize` once; one that it found stays open. -/
structure Closed (s : PoolState) (excludeServers : List ServerId) (removed : List ConnId)
    (found : Option ConnId) (s' : PoolState) : Prop where
  queue : s.queue = s'.queue ++ found.toList ++ removed
  excluded : ∀ conn ∈ removed, s.serverOf conn ∈ excludeServers
  poolSize : s'.poolSize = s.poolSize - removed.length
  heap : s'.heap = ⟨s.heap.cells, found.toList.map .access ++
    removed.flatMap (fun conn => [.delete conn, .access conn]) ++ s.heap.uses⟩

section

variable (attrs : PoolAttributes) (s : PoolState) (error : PoolErrType)
  (excludeServers : List ServerId) (dials : Dials) (waits : List (List OtherThread))

/-- The search of the queue, as `getNoGetLock` starts it. -/
def search : Option ConnId × PoolState := popExcluding excludeServers (s.queue.length + 1) s

/-- `ThinClientPoolDM::getUntil`, which is all of `getConnectionFromQueue` but for statistics. -/
def getUntil : Looked :=
  let looked := s.getNoGetLock attrs error excludeServers dials
  if looked.conn = none ∧ s.closed = false then
    let got := getLockedFor looked.excludeServers waits looked.state
    { looked with conn := got.1, state := got.2 }
  else looked

/-- The connection was made for the caller. -/
def Created : Prop :=
  (s.search excludeServers).1 = none ∧ (s.getNoGetLock attrs error excludeServers dials).conn ≠ none

/-- A connection from the queue leads to no excluded server, and the ones that were removed from the
queue are closed. -/
def RespectsExcluded : Prop :=
  (∀ conn, ¬ s.Created attrs error excludeServers dials →
    (s.getUntil attrs error excludeServers dials waits).conn = some conn →
      (s.getUntil attrs error excludeServers dials waits).state.serverOf conn ∉
        (s.getUntil attrs error excludeServers dials waits).excludeServers) ∧
    ∃ removed,
      s.Closed excludeServers removed (s.search excludeServers).1 (s.search excludeServers).2

/-- Without the queued connections, all of them to excluded servers, the pool is at its limit. -/
def AtLimit : Prop := attrs.limit ≤ s.poolSize - s.queue.length
  deriving Decidable

/-- The caller will have to wait: the queue is open, all its connections lead to excluded servers,
and none can be made, at the limit or because every server that is tried fails. -/
def MustWait : Prop :=
  s.closed = false ∧ (∀ conn ∈ s.queue, s.serverOf conn ∈ excludeServers) ∧
    (s.AtLimit attrs ∨ Dial.AllFail dials.turns)

/-- The servers that are excluded when the caller waits. -/
def excludedBy : List ServerId :=
  if s.AtLimit attrs then excludeServers else Dial.tried dials.turns excludeServers

/-- The first connection that the other threads leave to a caller who waits does not lead to one of
the servers that are excluded then. -/
def MetByUsable : Prop :=
  ∀ server ∈ firstPutBack waits (some []), server ∉ s.excludedBy attrs excludeServers dials

end

/-! ## The search -/

/-- Nothing is taken from a closed or an empty queue, and otherwise the oldest connection. -/
lemma popNoLock_cases (s : PoolState) : (s.closed = true ∨ s.queue = []) ∧ s.popNoLock = (none, s) ∨
    s.closed = false ∧
      ∃ queue conn, s.queue = queue ++ [conn] ∧ s.popNoLock = (some conn, { s with queue }) := by
  unfold popNoLock
  split_ifs with hclosed
  · exact .inl ⟨.inl hclosed, rfl⟩
  · cases hlast : s.queue.getLast? with
    | none => exact .inl ⟨.inr (getLast?_eq_none_iff.mp hlast), rfl⟩
    | some conn =>
      exact .inr ⟨by simpa using hclosed, _, conn, (dropLast_append_getLast? conn hlast).symm, rfl⟩

/-- What the search removes is closed, and what it finds is not excluded. -/
lemma popExcluding_spec (excludeServers : List ServerId) (size : ℕ) (s : PoolState) :
    ∃ removed found s', popExcluding excludeServers size s = (found, s') ∧
      s.Closed excludeServers removed found s' ∧ s'.closed = s.closed ∧
        ∀ conn ∈ found, s.closed = false ∧ s.serverOf conn ∉ excludeServers := by
  induction size generalizing s with
  | zero => exact ⟨[], none, s, rfl, ⟨by simp, by simp, by simp, rfl⟩, rfl, by simp⟩
  | succ _ ih =>
    unfold popExcluding
    obtain ⟨-, hpop⟩ | ⟨hclosed, queue, conn, hqueue, hpop⟩ := s.popNoLock_cases
    · rw [hpop]
      exact ⟨[], none, s, rfl, ⟨by simp, by simp, by simp, rfl⟩, rfl, by simp⟩
    · rw [hpop]
      dsimp only
      split_ifs with hexcl
      · -- the servers of connections do not depend on the queue or on what was deleted
        obtain ⟨removed, found, s', heq, hspec, hsame, hfound⟩ :=
          ih (({ s with queue }.safeDeleteCon conn).reducePoolSize 1)
        refine ⟨removed ++ [conn], found, s', heq, ⟨?_, fun c hc => ?_, ?_, ?_⟩, hsame, hfound⟩
        · rw [hqueue, show queue = _ from hspec.queue, append_assoc]
        · obtain hc | hc := mem_append.mp hc
          · exact hspec.excluded c hc
          · exact mem_singleton.mp hc ▸ hexcl
        · simp only [hspec.poolSize, reducePoolSize, safeDeleteCon, length_append,
            length_singleton]
          omega
        · simp [hspec.heap, reducePoolSize, safeDeleteCon, CellHeap.access, CellHeap.delete]
      · exact ⟨[], some conn, _, rfl, ⟨by simpa using hqueue, by simp, by simp, rfl⟩, rfl,
          by simp [hclosed, hexcl]⟩

/-- A search of an open queue that finds nothing has emptied it. -/
lemma queue_eq_nil_of_popExcluding {excludeServers : List ServerId} {size : ℕ} {s s' : PoolState}
    (hclosed : s.closed = false) (hsize : s.queue.length < size)
    (h : popExcluding excludeServers size s = (none, s')) : s'.queue = [] := by
  induction size generalizing s with
  | zero => exact absurd hsize (Nat.not_lt_zero _)
  | succ _ ih =>
    unfold popExcluding at h
    obtain ⟨hnone, hpop⟩ | ⟨-, queue, conn, hqueue, hpop⟩ := s.popNoLock_cases
    · rw [hpop] at h
      cases h
      exact hnone.resolve_left (by simp [hclosed])
    · rw [hpop] at h
      dsimp only at h
      split_ifs at h
      · rw [hqueue, length_append, length_singleton] at hsize
        exact ih (s := ({ s with queue }.safeDeleteCon conn).reducePoolSize 1) hclosed
          (Nat.lt_of_succ_lt_succ hsize) h
      · cases h

/-! ## Making a connection -/

/-- `createPoolConnection` leaves the queue alone; below the limit it makes no connection exactly if
all turns fail, and has then excluded the servers it tried. -/
lemma connectLoop_spec (failure : SelectionFailure) (turns : List Dial) (error : PoolErrType)
    (excludeServers : List ServerId) (s : PoolState) :
    let looked := connectLoop none failure turns error excludeServers s
    looked.state.queue = s.queue ∧ looked.state.closed = s.closed ∧
      (looked.conn = none ↔ Dial.AllFail turns) ∧
      looked.excludeServers = Dial.tried turns excludeServers := by
  induction turns generalizing error excludeServers s with
  | nil => simp [connectLoop, Dial.AllFail, Dial.tried]
  | cons dial _ ih =>
    obtain ⟨server, creation⟩ := dial
    cases creation with
    | made => simp [connectLoop, TcrEndpoint.createNewConnection, Dial.AllFail, Dial.tried]
    | failed constructed why =>
      obtain ⟨h, hcreate⟩ : ∃ h, TcrEndpoint.createNewConnection server s.heap
          (.failed constructed why) = (why.error, none, h) := by
        cases constructed with
        | true | false => exact ⟨_, rfl⟩
      simp only [connectLoop, Option.filter_none, Dial.AllFail, Dial.tried, hcreate]
      split
      · next heq => exact absurd (congrArg Prod.fst heq) why.error_ne_noErr
      · next heq =>
        cases heq
        split_ifs with hfatal
        · simp [hfatal]
        · simpa [hfatal] using ih why.error (excludeServers.insert server) { s with heap := h }

/-- What `getNoGetLock` does to an open queue: it returns without a connection exactly if the caller
must wait, with an empty queue then, and the excluded servers are those that were tried. -/
lemma getNoGetLock_conn_eq_none_iff (attrs : PoolAttributes) (s : PoolState) (error : PoolErrType)
    (excludeServers : List ServerId) (dials : Dials) (hclosed : s.closed = false) :
    let looked := s.getNoGetLock attrs error excludeServers dials
    (looked.conn = none ↔ s.MustWait attrs excludeServers dials) ∧
      (looked.conn = none → looked.state.queue = [] ∧ looked.state.closed = false ∧
        looked.excludeServers = s.excludedBy attrs excludeServers dials) := by
  obtain ⟨removed, found, s', heq, hspec, hsame, hfound⟩ :=
    popExcluding_spec excludeServers (s.queue.length + 1) s
  cases found with
  | some conn =>
    have hmem : conn ∈ s.queue := by simp [hspec.queue]
    have hnot : ¬ s.MustWait attrs excludeServers dials := fun h =>
      (hfound conn rfl).2 (h.2.1 conn hmem)
    simp [getNoGetLock, heq, hnot]
  | none =>
    have hempty : s'.queue = [] :=
      queue_eq_nil_of_popExcluding hclosed (Nat.lt_succ_self _) heq
    have hremoved : s.queue = removed := by simpa [hempty] using hspec.queue
    have hexcluded : ∀ conn ∈ s.queue, s.serverOf conn ∈ excludeServers :=
      fun conn hconn => hspec.excluded conn (hremoved ▸ hconn)
    have hlimit : s'.poolSize ≥ attrs.limit ↔ s.AtLimit attrs := by
      rw [AtLimit, hspec.poolSize, ← hremoved]
    simp only [getNoGetLock, heq, createPoolConnection, MustWait, hclosed, true_and]
    split_ifs with hat <;> rw [hlimit] at hat
    · exact ⟨iff_of_true rfl ⟨hexcluded, .inl hat⟩,
        fun _ => ⟨hempty, hsame.trans hclosed, (if_pos hat).symm⟩⟩
    · obtain ⟨hqueue, hopen, hconn, htried⟩ :=
        connectLoop_spec dials.failure dials.turns .noErr excludeServers s'
      refine ⟨hconn.trans ⟨fun h => ⟨hexcluded, .inr h⟩, fun h => h.2.resolve_left hat⟩,
        fun _ => ?_⟩
      exact ⟨hqueue.trans hempty, (hopen.trans hsame).trans hclosed,
        htried.trans (if_neg hat).symm⟩

/-! ## The wait -/

/-- The queue is closed, or open with connections that lead to the given servers. -/
def LeadsTo (s : PoolState) : Option (List ServerId) → Prop
  | none => s.closed = true
  | some servers => s.closed = false ∧ s.queue.map s.heap.label = servers.map some

/-- Closing leaves the queue closed. -/
lemma closed_closeLoop {size : ℕ} {s : PoolState} (h : s.closed = true) :
    (closeLoop size s).closed = true := by
  induction size generalizing s with
  | zero => exact h
  | succ _ ih =>
    unfold closeLoop
    split
    · exact h
    · exact ih h

/-- A step of another thread does to the servers of the queue what it does to the queue. -/
lemma LeadsTo.step {s : PoolState} {servers : Option (List ServerId)} (h : s.LeadsTo servers)
    (other : OtherThread) : (onPool s other).LeadsTo (onServers servers other) := by
  cases servers with
  | none =>
    have hclosed : s.closed = true := h
    cases other with
    | putBack => simp [onPool, onServers, put, hclosed, LeadsTo, safeDeleteCon]
    | take => simp [onPool, onServers, popNoLock, hclosed, LeadsTo]
    | close => exact closed_closeLoop rfl
  | some servers =>
    obtain ⟨hclosed, hqueue⟩ := h
    cases other with
    | putBack server =>
      have hlabel (conn : ConnId) (hconn : conn ∈ s.queue) :
          (s.heap.alloc server).label conn = s.heap.label conn := by
        have hsome : s.heap.label conn ∈ s.queue.map s.heap.label := mem_map_of_mem hconn
        rw [hqueue] at hsome
        obtain ⟨_, -, hl⟩ := mem_map.mp hsome
        exact getElem?_append_left (List.getElem?_eq_some_iff.mp hl.symm).1
      refine ⟨by simp [onPool, put, hclosed], ?_⟩
      simp only [onPool, put, hclosed, Bool.false_eq_true, if_false, map_cons,
        map_congr_left hlabel, hqueue]
      simp [CellHeap.label, CellHeap.alloc, CellHeap.fresh]
    | take =>
      obtain ⟨hnone, hpop⟩ | ⟨-, queue, conn, hq, hpop⟩ := s.popNoLock_cases
      · have hempty := hnone.resolve_left (by simp [hclosed])
        have hservers : servers = [] := by simpa [hempty] using hqueue.symm
        simpa [onPool, hpop, onServers, LeadsTo, hclosed, hservers] using hempty
      · refine ⟨by simp [onPool, hpop, hclosed], ?_⟩
        rw [hq] at hqueue
        have hservers := congrArg dropLast hqueue
        rw [map_append, map_singleton, dropLast_concat, ← map_dropLast] at hservers
        simpa only [onPool, hpop] using hservers
    | close => exact closed_closeLoop rfl

/-- And so do all the steps of a wait. -/
lemma LeadsTo.foldl {s : PoolState} {servers : Option (List ServerId)} (h : s.LeadsTo servers)
    (others : List OtherThread) :
    (others.foldl onPool s).LeadsTo (others.foldl onServers servers) := by
  induction others generalizing s servers with
  | nil => exact h
  | cons other _ ih => exact ih (h.step other)

/-- The wait returns the first connection that the other threads leave. -/
lemma getLockedFor_eq (excludeList : List ServerId) (waits : List (List OtherThread))
    {s : PoolState} {servers : Option (List ServerId)} (h : s.LeadsTo servers) :
    (getLockedFor excludeList waits s).1.map (getLockedFor excludeList waits s).2.serverOf =
      firstPutBack waits servers := by
  induction waits generalizing s servers with
  | nil => rfl
  | cons others _ ih =>
    have hafter := h.foldl others
    simp only [getLockedFor, firstPutBack]
    generalize others.foldl onPool s = t at hafter
    generalize others.foldl onServers servers = servers' at hafter
    cases servers' with
    | none =>
      have hclosed : t.closed = true := hafter
      simp [popNoLock, hclosed]
    | some servers' =>
      obtain ⟨hopen, hqueue⟩ := hafter
      obtain ⟨hnone, hpop⟩ | ⟨-, queue, conn, hq, hpop⟩ := t.popNoLock_cases
      · have hempty := hnone.resolve_left (by simp [hopen])
        have hservers : servers' = [] := by simpa [hempty] using hqueue.symm
        simp only [hpop, hopen, hservers, getLast?_nil]
        exact ih ⟨hopen, by rw [hempty]; rfl⟩
      · rw [hq, map_append, map_singleton] at hqueue
        obtain ⟨front, last, rfl, -, hlast⟩ := append_eq_map_iff.mp hqueue
        obtain ⟨server, rfl, hlabel⟩ := map_eq_singleton_iff.mp hlast
        simp [hpop, exclude, serverOf, ← hlabel]

/-- Excluded servers are respected exactly when a caller that has to wait is not met by a connection
to one of them. -/
theorem respectsExcluded_iff_metByUsable (attrs : PoolAttributes) (s : PoolState)
    (error : PoolErrType) (excludeServers : List ServerId) (dials : Dials)
    (waits : List (List OtherThread)) :
    s.RespectsExcluded attrs error excludeServers dials waits ↔
      (s.MustWait attrs excludeServers dials →
        s.MetByUsable attrs excludeServers dials waits) := by
  obtain ⟨removed, found, s', heq, hspec, -, hfound⟩ :=
    popExcluding_spec excludeServers (s.queue.length + 1) s
  have hsearch : s.search excludeServers = (found, s') := heq
  rw [RespectsExcluded, and_iff_left ⟨removed, hsearch ▸ hspec⟩, getUntil]
  by_cases hwait : (s.getNoGetLock attrs error excludeServers dials).conn = none ∧ s.closed = false
  · obtain ⟨hmust, hlooked⟩ :=
      s.getNoGetLock_conn_eq_none_iff attrs error excludeServers dials hwait.2
    obtain ⟨hqueue, hopen, hexcluded⟩ := hlooked hwait.1
    have hcreated : ¬ s.Created attrs error excludeServers dials := fun h => h.2 hwait.1
    have hleads : (s.getNoGetLock attrs error excludeServers dials).state.LeadsTo (some []) :=
      ⟨hopen, by rw [hqueue]; rfl⟩
    have hgot := getLockedFor_eq (s.excludedBy attrs excludeServers dials) waits hleads
    simp only [hwait, hcreated, not_false_eq_true, true_imp_iff, hmust.mp hwait.1, MetByUsable,
      ← hgot, hexcluded, Option.mem_def, Option.map_eq_some_iff, forall_exists_index, and_imp,
      forall_apply_eq_imp_iff₂, and_self, if_true]
  · rw [if_neg hwait]
    refine iff_of_true (fun conn hcreated hconn => ?_) fun hmust => absurd ⟨?_, hmust.1⟩ hwait
    · rw [Created, hsearch] at hcreated
      cases found with
      | none => exact absurd (by simp [hconn]) (not_and.mp hcreated rfl)
      | some c =>
        simp only [getNoGetLock, heq, Option.some.injEq] at hconn ⊢
        subst hconn
        rw [serverOf, hspec.heap]
        exact (hfound c rfl).2
    · exact (s.getNoGetLock_conn_eq_none_iff attrs error excludeServers dials hmust.1).1.mpr hmust

/-- At the limit of the pool the caller waits, and is given the connection to the excluded server 7
that another thread puts back. -/
theorem not_respectsExcluded_waiting :
    ¬ (⟨⟨[7], []⟩, [], false, 1⟩ : PoolState).RespectsExcluded ⟨0, 1, -1, false⟩ .noErr [7]
      ⟨[], .noServer⟩ [[.putBack 7]] := by
  rintro ⟨hconn, -⟩
  exact hconn 1 (fun h => h.2 (by decide)) (by decide) (by decide)

end PoolState

end GeodeNative
