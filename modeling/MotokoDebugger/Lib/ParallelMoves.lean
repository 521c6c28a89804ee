import Mathlib.Logic.Function.Basic
import Mathlib.Tactic.Common

/-!
# Parallel moves

Moves between the keys of a map, each from a source to a destination.

* `assign`: assignments of values, one after the other.
* `sequential`, `parallel`: moves one after the other, and moves that all read before the first one
  writes.
* `sequential_eq_parallel`: they are the same if no move reads what an earlier one has written.
-/

namespace ParallelMoves

variable {κ α : Type} [DecidableEq κ]

/-- Assigns the values, one after the other. -/
def assign (f : κ → α) : List (κ × α) → κ → α
  | [] => f
  | (key, value) :: rest => assign (Function.update f key value) rest

/-- Moves one after the other: each reads what the earlier ones have left. -/
def sequential (f : κ → α) : List (κ × κ) → κ → α
  | [] => f
  | (dst, src) :: rest => sequential (Function.update f dst (f src)) rest

/-- Moves that all read before the first one writes. -/
def parallel (f : κ → α) (moves : List (κ × κ)) : κ → α :=
  assign f (moves.map fun move => (move.1, f move.2))

/-- No move reads what an earlier one has written. -/
def ReadsFirst : List (κ × κ) → Prop
  | [] => True
  | (dst, _) :: rest => (∀ move ∈ rest, move.2 ≠ dst) ∧ ReadsFirst rest

variable {f : κ → α}

lemma assign_of_not_mem {values : List (κ × α)} {key : κ} (h : key ∉ values.map Prod.fst) :
    assign f values key = f key := by
  induction values generalizing f with
  | nil => rfl
  | cons entry values ih =>
    simp only [List.map_cons, List.mem_cons, not_or] at h
    rw [assign, ih h.2, Function.update_of_ne h.1]

lemma assign_of_mem {values : List (κ × α)} {entry : κ × α}
    (hnodup : (values.map Prod.fst).Nodup) (h : entry ∈ values) :
    assign f values entry.1 = entry.2 := by
  induction values generalizing f with
  | nil => simp at h
  | cons head values ih =>
    rw [List.map_cons, List.nodup_cons] at hnodup
    rw [assign]
    obtain rfl | htail := List.mem_cons.1 h
    · rw [assign_of_not_mem hnodup.1, Function.update_self]
    · exact ih hnodup.2 htail

omit [DecidableEq κ] in
/-- Sources and destinations, position by position. -/
lemma readsFirst_zip {dsts srcs : List κ}
    (h : ∀ (i j : Nat) (dst src : κ), i < j → dsts[i]? = some dst → srcs[j]? = some src → src ≠ dst) :
    ReadsFirst (dsts.zip srcs) := by
  induction dsts generalizing srcs with
  | nil => exact trivial
  | cons dst dsts ih =>
    cases srcs with
    | nil => exact trivial
    | cons src srcs =>
      refine ⟨fun move hmove => ?_, ih fun i j dst' src' hlt hdst hsrc => ?_⟩
      · obtain ⟨j, hj⟩ := List.getElem?_of_mem (List.of_mem_zip hmove).2
        exact h 0 (j + 1) dst move.2 (Nat.succ_pos j) rfl hj
      · exact h (i + 1) (j + 1) dst' src' (Nat.succ_lt_succ hlt) hdst hsrc

theorem sequential_eq_parallel {moves : List (κ × κ)} (h : ReadsFirst moves) :
    sequential f moves = parallel f moves := by
  induction moves generalizing f with
  | nil => rfl
  | cons move moves ih =>
    obtain ⟨dst, src⟩ := move
    have hreads : moves.map (fun move => (move.1, Function.update f dst (f src) move.2)) =
        moves.map fun move => (move.1, f move.2) := by
      apply List.map_congr_left
      intro move hmove
      rw [Function.update_of_ne (h.1 move hmove)]
    show sequential (Function.update f dst (f src)) moves = _
    rw [ih h.2, parallel, hreads]
    rfl

end ParallelMoves
