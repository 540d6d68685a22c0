import GeodeNative.Library.NodeList

/-!
# The queue of recently used entries

`LRUQueue` is a `std::list` of entries. The place of an entry in the list is an iterator
that is kept in the entry itself (`LRUEntryProperties`), and the queue believes what it
finds there. An entry that was never queued has an iterator that was never set.

Where the code uses an iterator that refers to no node of the list its behaviour is
undefined, and the functions below return `none`. `splice` with the end iterator is
undefined by the standard too; the common implementation does nothing then, which is what
is modelled.

While every queued entry has the iterator of its own node (`Owned`), the queue is a list
without duplicates, and its operations are those of such a list.
-/

namespace GeodeNative

open List Function

open NodeList

/-- What the iterator of an entry refers to. -/
inductive ListIterator
  /-- a default-constructed iterator, which refers to nothing -/
  | singular
  | atEnd
  | node (id : ℕ)
  deriving DecidableEq, Repr

/-- The queue, with the iterators that the entries keep. -/
structure LRUQueue (α : Type*) where
  container : NodeList α
  iterator : α → ListIterator

namespace LRUQueue

variable {α : Type*}

/-- The queue before any entry was pushed. -/
def empty : LRUQueue α :=
  ⟨.empty, fun _ => .singular⟩

/-- The queued entries, the least recently used one first. -/
def entries (q : LRUQueue α) : List α :=
  q.container.values

/-- `--end` of the list. -/
def lastIterator (l : NodeList α) : ListIterator :=
  match l.last? with
  | some id => .node id
  | none => .atEnd

variable [DecidableEq α]

def push (q : LRUQueue α) (entry : α) : LRUQueue α where
  container := q.container.pushBack entry
  iterator := Function.update q.iterator entry (lastIterator (q.container.pushBack entry))

/-- `LRUQueue::pop`: the first entry, if there is one. -/
def pop (q : LRUQueue α) : Option (α × LRUQueue α) :=
  match q.entries with
  | [] => none
  | entry :: _ => some (entry, ⟨q.container.popFront, Function.update q.iterator entry .atEnd⟩)

def remove (q : LRUQueue α) (entry : α) : Option (LRUQueue α) :=
  match q.iterator entry with
  | .atEnd => some q
  | .singular => none
  | .node id =>
    if q.container.Contains id then
      some ⟨q.container.erase id, Function.update q.iterator entry .atEnd⟩
    else
      none

def moveToEnd (q : LRUQueue α) (entry : α) : Option (LRUQueue α) :=
  match q.iterator entry with
  | .atEnd => some ⟨q.container, Function.update q.iterator entry (lastIterator q.container)⟩
  | .singular => none
  | .node id =>
    if q.container.Contains id then
      some ⟨q.container.moveToEnd id,
        Function.update q.iterator entry (lastIterator (q.container.moveToEnd id))⟩
    else
      none

/-! ## Queues whose entries have their own nodes -/

/-- Every queued entry has the iterator of its own node. -/
def Owned (q : LRUQueue α) : Prop :=
  ∀ p ∈ q.container.nodes, q.iterator p.2 = .node p.1

variable {q q' : LRUQueue α} {entry : α}

section

omit [DecidableEq α]

lemma owned_empty : (empty : LRUQueue α).Owned := by
  intro _ hp
  cases hp

lemma Owned.nodup (h : q.Owned) : q.entries.Nodup := by
  refine q.container.nodup.of_map.map_on ?_
  intro p hp p' hp' heq
  have hnode : ListIterator.node p.1 = .node p'.1 := by
    rw [← h p hp, ← h p' hp', heq]
  exact inj_on_of_nodup_map q.container.nodup hp hp' (ListIterator.node.inj hnode)

lemma Owned.exists_node (h : q.Owned) (hentry : entry ∈ q.entries) :
    ∃ id, q.iterator entry = .node id ∧ (id, entry) ∈ q.container.nodes := by
  obtain ⟨id, hid⟩ := mem_values.mp hentry
  exact ⟨id, h _ hid, hid⟩

end

lemma entries_push : (q.push entry).entries = q.entries ++ [entry] := values_pushBack

lemma iterator_push :
    (q.push entry).iterator = update q.iterator entry (.node q.container.next) := by
  simp only [push, lastIterator, last?_pushBack]

/-- An entry that is not queued gets a node of its own. -/
lemma Owned.push (h : q.Owned) (hentry : entry ∉ q.entries) : (q.push entry).Owned := by
  intro p hp
  rw [iterator_push]
  rcases mem_append.mp hp with hmem | hnew
  · have hne : p.2 ≠ entry := fun heq => hentry (heq ▸ mem_values.mpr ⟨p.1, hmem⟩)
    rw [update_of_ne hne]
    exact h p hmem
  · rw [mem_singleton.mp hnew, update_self]

/-- What taking an entry out of the queue leaves. -/
structure Drops (q : LRUQueue α) (entry : α) (q' : LRUQueue α) : Prop where
  owned : q'.Owned
  entries_eq : q'.entries = q.entries.erase entry
  iterator_eq : q'.iterator = Function.update q.iterator entry .atEnd

lemma Drops.mem_iff (h : q.Drops entry q') (howned : q.Owned) {other : α} :
    other ∈ q'.entries ↔ other ≠ entry ∧ other ∈ q.entries := by
  rw [h.entries_eq, howned.nodup.mem_erase_iff]

lemma Drops.length_add_one (h : q.Drops entry q') (hentry : entry ∈ q.entries) :
    q'.entries.length + 1 = q.entries.length := by
  rw [h.entries_eq, length_erase_add_one hentry]

/-- Dropping a node drops its entry. -/
lemma Owned.drops (h : q.Owned) {id : ℕ} (hid : (id, entry) ∈ q.container.nodes) :
    q.Drops entry ⟨q.container.erase id, update q.iterator entry .atEnd⟩ := by
  refine ⟨?_, values_erase h.nodup hid, rfl⟩
  intro p hp
  have hmem := mem_of_mem_filter hp
  have hne : p.2 ≠ entry := by
    rintro rfl
    have hnode : ListIterator.node p.1 = .node id := by rw [← h p hmem, ← h _ hid]
    have hother := of_mem_filter hp
    rw [decide_eq_true_iff] at hother
    exact hother (ListIterator.node.inj hnode)
  change update q.iterator entry .atEnd p.2 = _
  rw [update_of_ne hne]
  exact h p hmem

lemma Owned.remove (h : q.Owned) (hentry : entry ∈ q.entries) :
    ∃ q', q.remove entry = some q' ∧ q.Drops entry q' := by
  obtain ⟨_, hiter, hid⟩ := h.exists_node hentry
  refine ⟨_, ?_, h.drops hid⟩
  simp only [LRUQueue.remove, hiter, if_pos (contains_of_mem hid)]

/-- `remove` of an entry that knows that it is not queued. -/
lemma remove_of_atEnd (h : q.iterator entry = .atEnd) : q.remove entry = some q := by
  simp only [LRUQueue.remove, h]

lemma Owned.pop (h : q.Owned) {rest : List α} (hentries : q.entries = entry :: rest) :
    ∃ q', q.pop = some (entry, q') ∧ q.Drops entry q' := by
  obtain ⟨id, tail, hnodes⟩ : ∃ id tail, q.container.nodes = (id, entry) :: tail := by
    unfold entries values at hentries
    cases hnodes : q.container.nodes with
    | nil => rw [hnodes] at hentries; cases hentries
    | cons p tail =>
      rw [hnodes, map_cons, cons.injEq] at hentries
      exact ⟨p.1, tail, by rw [← hentries.1]⟩
  have hid : (id, entry) ∈ q.container.nodes := by rw [hnodes]; exact mem_cons_self
  have hpop : q.container.popFront.nodes = (q.container.erase id).nodes := by
    have hnodup := q.container.nodup
    rw [hnodes, map_cons, nodup_cons] at hnodup
    change q.container.nodes.tail = q.container.nodes.filter fun p => p.1 ≠ id
    rw [hnodes, tail_cons, filter_cons_of_neg (by simp), filter_eq_self.mpr]
    intro p hp
    rw [decide_eq_true_iff]
    intro hname
    exact hnodup.1 (mem_map.mpr ⟨p, hp, hname⟩)
  have hdrops := h.drops hid
  refine ⟨⟨q.container.popFront, update q.iterator entry .atEnd⟩, ?_, ?_, ?_, rfl⟩
  · simp only [LRUQueue.pop, hentries]
  · intro p hp
    rw [hpop] at hp
    exact hdrops.owned p hp
  · rw [← hdrops.entries_eq]
    exact congrArg (map Prod.snd) hpop

/-- `move_to_end` of a queued entry changes the order alone. -/
lemma Owned.moveToEnd (h : q.Owned) (hentry : entry ∈ q.entries) :
    ∃ q', q.moveToEnd entry = some q' ∧ q'.Owned ∧ q'.entries.Perm q.entries ∧
      q'.iterator = q.iterator := by
  obtain ⟨id, hiter, hid⟩ := h.exists_node hentry
  have hiterator : update q.iterator entry
      (lastIterator (q.container.moveToEnd id)) = q.iterator := by
    simp only [lastIterator, last?_moveToEnd hid]
    rw [← hiter, update_eq_self]
  have hperm : (q.container.moveToEnd id).values.Perm q.entries := by
    rw [values_moveToEnd h.nodup hid]
    exact (perm_append_singleton _ _).trans (perm_cons_erase hentry).symm
  refine ⟨⟨q.container.moveToEnd id, q.iterator⟩, ?_, ?_, hperm, rfl⟩
  · simp only [LRUQueue.moveToEnd, hiter, if_pos (contains_of_mem hid), hiterator]
  · intro p hp
    change p ∈ (q.container.moveToEnd id).nodes at hp
    rw [nodes_moveToEnd hid] at hp
    rcases mem_append.mp hp with hp | hp
    · exact h p (mem_of_mem_filter hp)
    · rw [mem_singleton.mp hp]
      exact hiter

end LRUQueue

end GeodeNative
