import MotokoDebugger.Executor.Stack
import MotokoDebugger.Lib.Runs

/-!
# The limit of the value stack

Runs of the operations of `executor/stack/values.rs` from a new stack. `extend_by` compares the
new cells with the space that is left strictly, so that no call fills the last cell.
-/

namespace MotokoDebugger

open Runs

namespace ValueStack

/-- `ValueStack::new`; `none` where an assertion fails. -/
def new (initialLen maximumLen : Nat) : Option ValueStack :=
  if 0 < initialLen ∧ initialLen ≤ maximumLen then some ⟨[], maximumLen⟩ else none

/-- `ValueStack::empty`. -/
def empty : ValueStack := ⟨[], 0⟩

/-- `ValueStack::reset`. -/
def reset (stack : ValueStack) : ValueStack := { stack with values := [] }

/-- What a call of `extend_by` returns, and the stack it leaves. -/
def extended (stack : ValueStack) (additional : Nat) : Except TrapCode Unit × ValueStack :=
  match stack.extendBy additional with
  | .ok stack' => (.ok (), stack')
  | .error code => (.error code, stack)

end ValueStack

/-- The operations on the value stack. `write` is an access through `as_slice_mut` or through the
registers of a frame. -/
inductive StackOp where
  | extendBy (additional : Nat)
  | allocCallFrame (func : CompiledFunc)
  | drop (amount : Nat)
  | truncate (newLen : Nat)
  | drain (fromOffset toOffset : Nat)
  | write (idx : Nat) (value : UntypedVal)
  | reset
deriving Repr, DecidableEq

/-- The stack after an operation. A trapped allocation leaves it as it is; `none` is a panic. -/
def StackOp.apply (op : StackOp) (stack : ValueStack) : Option ValueStack :=
  match op with
  | .extendBy additional => some (stack.extended additional).2
  | .allocCallFrame func =>
    match stack.allocCallFrame func with
    | .ok (stack', _) => some stack'
    | .error _ => some stack
  | .drop amount => if amount ≤ stack.values.length then some (stack.drop amount) else none
  | .truncate newLen =>
    if newLen ≤ stack.values.length then some (stack.truncate newLen) else none
  | .drain fromOffset toOffset =>
    if fromOffset ≤ toOffset ∧ toOffset ≤ stack.values.length then
      some (stack.drain fromOffset toOffset)
    else none
  | .write idx value => some { stack with values := stack.values.set idx value }
  | .reset => some stack.reset

/-- One operation that does not panic. -/
def StackStep (stack stack' : ValueStack) : Prop := ∃ op : StackOp, op.apply stack = some stack'

namespace ValueStack

/-- The stacks that runs from a new or an empty stack reach. -/
def Reached (stack : ValueStack) : Prop :=
  ∃ start n, ((∃ initialLen maximumLen, new initialLen maximumLen = some start) ∨ start = empty) ∧
    Steps StackStep n start stack

/-- `extend_by` at the limit: it succeeds where the cells fit below the maximum, and then adds
them on top; it overflows and leaves the stack alone where they do not. -/
def LimitExact (stack : ValueStack) (additional : Nat) : Prop :=
  if stack.values.length + additional ≤ stack.maxLen then
    ∃ cells : List UntypedVal, cells.length = additional ∧
      stack.extended additional = (.ok (), { stack with values := stack.values ++ cells })
  else stack.extended additional = (.error .stackOverflow, stack)

/-! ## The height stays below the maximum -/

/-- The height of the stack is at most the maximum, so `max_len - len` does not underflow. -/
def Bounded (stack : ValueStack) : Prop := stack.values.length ≤ stack.maxLen

lemma length_newFrame (func : CompiledFunc) : (newFrame func).length = func.lenRegisters := by
  simp only [newFrame, List.length_append, List.length_take, List.length_replicate]
  omega

lemma extended_eq (stack : ValueStack) (additional : Nat) :
    stack.extended additional =
      if additional ≥ stack.maxLen - stack.values.length then (.error .stackOverflow, stack)
      else (.ok (), { stack with values := stack.values ++ List.replicate additional 0 }) := by
  unfold extended extendBy
  by_cases hlimit : additional ≥ stack.maxLen - stack.values.length
  · simp [hlimit]
  · simp [hlimit]

lemma Bounded.extended {stack : ValueStack} (h : stack.Bounded) (additional : Nat) :
    (stack.extended additional).2.Bounded := by
  rw [extended_eq]
  split
  · exact h
  · show (stack.values ++ List.replicate additional 0).length ≤ stack.maxLen
    rw [List.length_append, List.length_replicate]
    omega

lemma Bounded.allocCallFrame {stack stack' : ValueStack} {func : CompiledFunc}
    {offsets : StackOffsets} (hok : stack.allocCallFrame func = .ok (stack', offsets)) :
    stack'.Bounded := by
  unfold ValueStack.allocCallFrame at hok
  split at hok
  · cases hok
  · cases hok
    show (stack.values ++ newFrame func).length ≤ stack.maxLen
    rw [List.length_append, length_newFrame]
    omega

/-- No operation raises the height above the maximum. -/
lemma Bounded.apply {op : StackOp} {stack stack' : ValueStack} (h : stack.Bounded)
    (happly : op.apply stack = some stack') : stack'.Bounded := by
  have hlen : stack.values.length ≤ stack.maxLen := h
  cases op with
  | extendBy additional =>
    cases happly
    exact h.extended additional
  | allocCallFrame func =>
    cases hok : stack.allocCallFrame func with
    | error code =>
      simp only [StackOp.apply, hok, Option.some.injEq] at happly
      rwa [← happly]
    | ok frame =>
      simp only [StackOp.apply, hok, Option.some.injEq] at happly
      rw [← happly]
      exact Bounded.allocCallFrame hok
  | drop amount =>
    simp only [StackOp.apply, Option.ite_none_right_eq_some, Option.some.injEq] at happly
    rw [← happly.2]
    show (stack.values.take _).length ≤ stack.maxLen
    rw [List.length_take]
    omega
  | truncate newLen =>
    simp only [StackOp.apply, Option.ite_none_right_eq_some, Option.some.injEq] at happly
    rw [← happly.2]
    show (stack.values.take _).length ≤ stack.maxLen
    rw [List.length_take]
    omega
  | drain fromOffset toOffset =>
    simp only [StackOp.apply, Option.ite_none_right_eq_some, Option.some.injEq] at happly
    rw [← happly.2]
    show (stack.values.take _ ++ stack.values.drop _).length ≤ stack.maxLen
    rw [List.length_append, List.length_take, List.length_drop]
    omega
  | write idx value =>
    cases happly
    show (stack.values.set idx value).length ≤ stack.maxLen
    rw [List.length_set]
    exact hlen
  | reset =>
    cases happly
    exact Nat.zero_le _

lemma Reached.bounded {stack : ValueStack} (h : stack.Reached) : stack.Bounded := by
  obtain ⟨start, n, hstart, hrun⟩ := h
  have hempty : start.values = [] := by
    rcases hstart with ⟨initialLen, maximumLen, hnew⟩ | rfl
    · simp only [new, Option.ite_none_right_eq_some, Option.some.injEq] at hnew
      rw [← hnew.2]
    · rfl
  refine hrun.invariant (fun _ _ ⟨_, happly⟩ hbounded => hbounded.apply happly) ?_
  show start.values.length ≤ start.maxLen
  rw [hempty]
  exact Nat.zero_le _

/-! ## The last cell -/

/-- Below the maximum `extend_by` is exact except where the new cells end right at it. -/
lemma Bounded.limitExact_iff {stack : ValueStack} (h : stack.Bounded) (additional : Nat) :
    stack.LimitExact additional ↔ stack.values.length + additional ≠ stack.maxLen := by
  have hlen : stack.values.length ≤ stack.maxLen := h
  unfold LimitExact
  rw [extended_eq]
  rcases Nat.lt_trichotomy (stack.values.length + additional) stack.maxLen with hlt | heq | hgt
  · rw [if_pos (by omega), if_neg (by omega)]
    -- the cells that `extend_by` adds
    exact iff_of_true ⟨List.replicate additional 0, List.length_replicate .., rfl⟩ (by omega)
  · rw [if_pos (by omega), if_pos (by omega)]
    refine iff_of_false ?_ (by omega)
    intro hexact
    obtain ⟨cells, -, hok⟩ := hexact
    cases hok
  · rw [if_neg (by omega), if_pos (by omega)]
    exact iff_of_true rfl (by omega)

/-- In every run the height stays below the maximum, and `extend_by` is exact except for the calls
that would fill the last cell. -/
theorem limit_exact_iff_not_full (stack : ValueStack) (h : stack.Reached) :
    stack.values.length ≤ stack.maxLen ∧
      ∀ additional, stack.LimitExact additional ↔
        stack.values.length + additional ≠ stack.maxLen :=
  ⟨h.bounded, h.bounded.limitExact_iff⟩

/-- A new stack with room for one cell. -/
lemma reached_one_cell : Reached ⟨[], 1⟩ :=
  ⟨_, 0, .inl ⟨1, 1, rfl⟩, .refl _⟩

lemma reached_empty : Reached empty := ⟨_, 0, .inr rfl, .refl _⟩

theorem limit_exact_iff_not_full_reached :
    ([] : List UntypedVal).length ≤ 1 ∧
      ∀ additional, LimitExact ⟨[], 1⟩ additional ↔ 0 + additional ≠ 1 :=
  limit_exact_iff_not_full ⟨[], 1⟩ reached_one_cell

/-- The only cell of a stack cannot be allocated, nor can no cell of an empty one. -/
theorem last_cell_overflows :
    Reached ⟨[], 1⟩ ∧ ¬ LimitExact ⟨[], 1⟩ 1 ∧ Reached empty ∧ ¬ LimitExact empty 0 := by
  have hone := (reached_one_cell.bounded.limitExact_iff 1).not.mpr (by simp)
  have hempty := (reached_empty.bounded.limitExact_iff 0).not.mpr (by simp [empty])
  exact ⟨reached_one_cell, hone, reached_empty, hempty⟩

end ValueStack

end MotokoDebugger
