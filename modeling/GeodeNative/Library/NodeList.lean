import Mathlib.Data.List.Nodup

/-!
# Lists with stable nodes

A linked list whose nodes can be named from outside: a node keeps its name while other
nodes come and go, and while it moves within the list. Names are numbers that are given
out once, so a name that is not in the list belongs to a node that was erased, or to none.
-/

namespace GeodeNative

open List

/-- A list of nodes, each with its name and what it holds. -/
structure NodeList (α : Type*) where
  nodes : List (ℕ × α)
  /-- the name of the next node -/
  next : ℕ
  nodup : (nodes.map Prod.fst).Nodup
  lt_next : ∀ node ∈ nodes, node.1 < next

namespace NodeList

variable {α : Type*}

def empty : NodeList α :=
  ⟨[], 0, List.nodup_nil, by simp⟩

/-- What the nodes hold, in their order. -/
def values (l : NodeList α) : List α :=
  l.nodes.map Prod.snd

def Contains (l : NodeList α) (node : ℕ) : Prop :=
  node ∈ l.nodes.map Prod.fst
  deriving Decidable

/-- Adds a node with the name `l.next` at the end. -/
def pushBack (l : NodeList α) (a : α) : NodeList α where
  nodes := l.nodes ++ [(l.next, a)]
  next := l.next + 1
  nodup := by
    rw [List.map_append, List.map_singleton]
    refine List.nodup_append.mpr ⟨l.nodup, List.nodup_singleton _, ?_⟩
    intro x hx y hy
    obtain ⟨node, hnode, rfl⟩ := List.mem_map.mp hx
    rw [List.mem_singleton.mp hy]
    exact Nat.ne_of_lt (l.lt_next node hnode)
  lt_next := by
    intro node hnode
    rcases List.mem_append.mp hnode with h | h
    · exact Nat.lt_succ_of_lt (l.lt_next node h)
    · rw [List.mem_singleton.mp h]
      exact Nat.lt_succ_self _

/-- Drops the first node. -/
def popFront (l : NodeList α) : NodeList α where
  nodes := l.nodes.tail
  next := l.next
  nodup := by
    rw [List.map_tail]
    exact l.nodup.sublist (List.tail_sublist _)
  lt_next node h := l.lt_next node (List.mem_of_mem_tail h)

def erase (l : NodeList α) (node : ℕ) : NodeList α where
  nodes := l.nodes.filter fun p => p.1 ≠ node
  next := l.next
  nodup := l.nodup.sublist (List.filter_sublist.map _)
  lt_next p h := l.lt_next p (List.mem_of_mem_filter h)

def moveToEnd (l : NodeList α) (node : ℕ) : NodeList α where
  nodes := (l.erase node).nodes ++ (l.nodes.find? fun p => p.1 = node).toList
  next := l.next
  nodup := by
    rw [List.map_append]
    refine List.nodup_append.mpr ⟨(l.erase node).nodup, ?_, ?_⟩
    · cases l.nodes.find? fun p => p.1 = node <;> simp
    · intro x hx y hy
      obtain ⟨p, hp, rfl⟩ := List.mem_map.mp hx
      obtain ⟨q, hq, rfl⟩ := List.mem_map.mp hy
      have hnode := List.find?_some (Option.mem_toList.mp hq)
      have hother := List.of_mem_filter hp
      rw [decide_eq_true_iff] at hnode hother
      rwa [hnode]
  lt_next p h := by
    rcases List.mem_append.mp h with h | h
    · exact (l.erase node).lt_next p h
    · exact l.lt_next p (List.mem_of_find?_eq_some (Option.mem_toList.mp h))

def last? (l : NodeList α) : Option ℕ :=
  l.nodes.getLast?.map Prod.fst

variable {l : NodeList α} {node : ℕ} {a : α}

/-- A node has one value. -/
lemma eq_of_mem {b : α} (ha : (node, a) ∈ l.nodes) (hb : (node, b) ∈ l.nodes) : a = b :=
  congrArg Prod.snd (inj_on_of_nodup_map l.nodup ha hb rfl)

lemma contains_of_mem (h : (node, a) ∈ l.nodes) : l.Contains node := mem_map.mpr ⟨(node, a), h, rfl⟩

lemma mem_values : a ∈ l.values ↔ ∃ node, (node, a) ∈ l.nodes := by
  simp [values]

@[simp] lemma values_pushBack : (l.pushBack a).values = l.values ++ [a] := by
  simp [values, pushBack]

/-- The new node is the last one. -/
lemma last?_pushBack : (l.pushBack a).last? = some l.next := by
  simp [last?, pushBack]

section

variable (h : (node, a) ∈ l.nodes)

include h

/-- A node of the list is found. -/
lemma find?_eq_some : (l.nodes.find? fun p => p.1 = node) = some (node, a) := by
  cases hfind : l.nodes.find? fun p => p.1 = node with
  | none =>
    have hne := find?_eq_none.mp hfind (node, a) h
    simp at hne
  | some p =>
    obtain ⟨node', _⟩ := p
    obtain rfl : node' = node := by simpa using find?_some hfind
    rw [eq_of_mem (mem_of_find?_eq_some hfind) h]

/-- The node is taken out and put at the end. -/
lemma nodes_moveToEnd : (l.moveToEnd node).nodes = (l.erase node).nodes ++ [(node, a)] := by
  change (l.erase node).nodes ++ (l.nodes.find? fun p => p.1 = node).toList = _
  rw [find?_eq_some h]
  rfl

lemma last?_moveToEnd : (l.moveToEnd node).last? = some node := by
  rw [last?, nodes_moveToEnd h]
  simp

end

/-- If no two nodes hold the same, dropping a node drops what it holds. -/
lemma values_erase [DecidableEq α] (hvalues : l.values.Nodup) (h : (node, a) ∈ l.nodes) :
    (l.erase node).values = l.values.erase a := by
  rw [hvalues.erase_eq_filter, values, values, filter_map]
  refine congrArg _ (filter_congr fun p hp => ?_)
  have hiff : p.1 = node ↔ p.2 = a := by
    constructor
    · rintro rfl
      exact eq_of_mem hp h
    · rintro rfl
      exact congrArg Prod.fst (inj_on_of_nodup_map hvalues hp h rfl)
  rw [Bool.eq_iff_iff]
  simp [hiff]

/-- So is its value. -/
lemma values_moveToEnd [DecidableEq α] (hvalues : l.values.Nodup) (h : (node, a) ∈ l.nodes) :
    (l.moveToEnd node).values = l.values.erase a ++ [a] := by
  rw [← values_erase hvalues h, values, nodes_moveToEnd h]
  simp [values]

end NodeList

end GeodeNative
