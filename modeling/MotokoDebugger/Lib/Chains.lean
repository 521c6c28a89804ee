import Mathlib.Data.List.Nodup
import Mathlib.Tactic.Common

/-!
# Chains

Lists whose nodes are linked by indices. What an index leads to is a value and the next index, if
there is a node at the index.

* `Chain next start nodes`: the nodes from `start` on, each with its value.
* `Chain.unique`, `Chain.nodup`: there is one list behind a start, and it does not meet itself.
* `Chain.congr`: a chain only depends on its own nodes.
-/

namespace Chains

variable {α : Type} {next next' : Nat → Option (α × Option Nat)} {start : Option Nat}
  {nodes nodes' : List (Nat × α)}

/-- The nodes from `start` on, with their values. -/
def Chain (next : Nat → Option (α × Option Nat)) : Option Nat → List (Nat × α) → Prop
  | start, [] => start = none
  | start, node :: nodes =>
    start = some node.1 ∧ ∃ rest, next node.1 = some (node.2, rest) ∧ Chain next rest nodes

lemma chain_none : Chain next none nodes ↔ nodes = [] := by
  cases nodes with
  | nil => simp [Chain]
  | cons node nodes => simp [Chain]

/-- The first node of a chain. -/
lemma Chain.inv {i : Nat} (h : Chain next (some i) nodes) :
    ∃ a rest nodes', nodes = (i, a) :: nodes' ∧ next i = some (a, rest) ∧
      Chain next rest nodes' := by
  cases nodes with
  | nil => simp [Chain] at h
  | cons node nodes =>
    obtain ⟨hstart, rest, hnext, hrest⟩ := h
    obtain rfl := Option.some.inj hstart
    exact ⟨node.2, rest, nodes, rfl, hnext, hrest⟩

lemma Chain.cons {i : Nat} {a : α} {rest : Option Nat} (hnext : next i = some (a, rest))
    (h : Chain next rest nodes) : Chain next (some i) ((i, a) :: nodes) :=
  ⟨rfl, rest, hnext, h⟩

/-- A chain only depends on what its own nodes lead to. -/
lemma Chain.congr (h : Chain next start nodes)
    (hsame : ∀ i ∈ nodes.map Prod.fst, next' i = next i) : Chain next' start nodes := by
  induction nodes generalizing start with
  | nil => exact h
  | cons node nodes ih =>
    obtain ⟨hstart, rest, hnext, hrest⟩ := h
    refine ⟨hstart, rest, ?_, ih hrest fun i hi => hsame i (List.mem_cons_of_mem _ hi)⟩
    rw [hsame node.1 List.mem_cons_self, hnext]

/-- Every node of a chain leads somewhere. -/
lemma Chain.next_ne_none (h : Chain next start nodes) {i : Nat} (hi : i ∈ nodes.map Prod.fst) :
    next i ≠ none := by
  induction nodes generalizing start with
  | nil => cases hi
  | cons node nodes ih =>
    obtain ⟨_, rest, hnext, hrest⟩ := h
    obtain rfl | hi := List.mem_cons.1 hi
    · rw [hnext]
      exact Option.some_ne_none _
    · exact ih hrest hi

lemma Chain.unique (h : Chain next start nodes) (h' : Chain next start nodes') :
    nodes = nodes' := by
  induction nodes generalizing start nodes' with
  | nil =>
    obtain rfl : start = none := h
    exact (chain_none.1 h').symm
  | cons node nodes ih =>
    obtain ⟨rfl, rest, hnext, hrest⟩ := h
    obtain ⟨a, rest', nodes', rfl, hnext', hrest'⟩ := h'.inv
    rw [hnext] at hnext'
    obtain ⟨ha, rfl⟩ := Prod.mk.inj (Option.some.inj hnext')
    rw [ih hrest hrest', ← ha]

/-- The end of a chain is a chain. -/
lemma Chain.drop {before : List (Nat × α)} {node : Nat × α}
    (h : Chain next start (before ++ node :: nodes)) : Chain next (some node.1) (node :: nodes) := by
  induction before generalizing start with
  | nil =>
    obtain ⟨_, rest, hnext, hrest⟩ := h
    exact ⟨rfl, rest, hnext, hrest⟩
  | cons _ before ih =>
    obtain ⟨_, rest, _, hrest⟩ := h
    exact ih hrest

lemma Chain.nodup (h : Chain next start nodes) : (nodes.map Prod.fst).Nodup := by
  induction nodes generalizing start with
  | nil => exact List.nodup_nil
  | cons node nodes ih =>
    have hchain := h
    obtain ⟨rfl, rest, hnext, hrest⟩ := h
    refine List.nodup_cons.2 ⟨fun hmem => ?_, ih hrest⟩
    -- the same node further on would have the same list behind it
    obtain ⟨node', hnode', heq⟩ := List.mem_map.1 hmem
    obtain ⟨before, after, rfl⟩ := List.append_of_mem hnode'
    have hlater := hrest.drop
    rw [heq] at hlater
    have hlen := congrArg List.length (hchain.unique hlater)
    simp only [List.length_cons, List.length_append] at hlen
    omega

end Chains
