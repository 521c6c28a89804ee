import MotokoDebugger.Core.Untyped

/-!
# Registers, register spans and branch offsets of the register bytecode

* `Reg`: a signed 16-bit register index; negative registers are function-local constants.
* `RegSpan`, `BoundedRegSpan`: consecutive registers.
* `Comparator`, `ComparatorAndOffset`: the operands of the fallback conditional branch.
-/

namespace MotokoDebugger

/-- A register of a frame, relative to its base offset. -/
abbrev Reg := Int16

/-- `Reg::next_n`, which wraps. -/
def Reg.nextN (reg : Reg) (n : Nat) : Reg := reg + Int16.ofNat n

@[simp] lemma Reg.nextN_zero (reg : Reg) : reg.nextN 0 = reg := by
  simp [Reg.nextN]

/-- `Reg::next`. -/
def Reg.next (reg : Reg) : Reg := reg.nextN 1

/-- Consecutive registers, given by the first one. -/
structure RegSpan where
  head : Reg
deriving Repr, DecidableEq, Inhabited

/-- The registers of `RegSpan::iter`; `none` where the Rust code panics on an overflowing index. -/
def RegSpan.iter (span : RegSpan) (len : Nat) : Option (List Reg) :=
  if span.head.toInt + len ≤ 32767 then some ((List.range len).map span.head.nextN) else none

/-- A register span together with its length. -/
structure BoundedRegSpan where
  span : RegSpan
  len : Nat
deriving Repr, DecidableEq, Inhabited

/-- `BoundedRegSpan::iter`. -/
def BoundedRegSpan.iter (span : BoundedRegSpan) : Option (List Reg) := span.span.iter span.len

/-- `RegSpan::has_overlapping_copies`: copying front to back would overwrite a value before it is
read. -/
def RegSpan.hasOverlappingCopies (results values : RegSpan) (len : Nat) : Bool :=
  if len ≤ 1 then false
  else if values.head ≥ results.head then false
  else decide (values.head.nextN (len - 1) ≥ results.head)

/-- The offset of a branch, in instruction words. -/
abbrev BranchOffset := Int32

/-- The 16-bit offset of the fused branches. -/
abbrev BranchOffset16 := Int16

/-- `BranchOffset::from(BranchOffset16)`. -/
def BranchOffset16.toBranchOffset (offset : BranchOffset16) : BranchOffset := offset.toInt32

/-! ## Comparators -/

/-- The comparators of the fused conditional branches. -/
inductive Comparator where
  | int (op : IntComparison)
  | bits (op : BitTest)
  | float (op : FloatComparison)
deriving Repr, DecidableEq

/-- The meaning of a comparator, as `execute_branch_binop` applies it. -/
def Comparator.eval (float : FloatOps) (cmp : Comparator) (lhs rhs : UntypedVal) : Bool :=
  match cmp with
  | .int op => op.eval lhs rhs
  | .bits op => op.eval lhs rhs
  | .float op => float.compare op lhs rhs

/-- The comparators in the order of `for_each_comparator!`; the position is the encoding. -/
def Comparator.all : List Comparator :=
  [.int .i32Eq, .int .i32Ne, .int .i32LtS, .int .i32LtU, .int .i32LeS, .int .i32LeU,
   .int .i32GtS, .int .i32GtU, .int .i32GeS, .int .i32GeU,
   .bits .i32And, .bits .i32Or, .bits .i32Xor, .bits .i32AndEqz, .bits .i32OrEqz, .bits .i32XorEqz,
   .int .i64Eq, .int .i64Ne, .int .i64LtS, .int .i64LtU, .int .i64LeS, .int .i64LeU,
   .int .i64GtS, .int .i64GtU, .int .i64GeS, .int .i64GeU,
   .float .f32Eq, .float .f32Ne, .float .f32Lt, .float .f32Le, .float .f32Gt, .float .f32Ge,
   .float .f64Eq, .float .f64Ne, .float .f64Lt, .float .f64Le, .float .f64Gt, .float .f64Ge]

/-- A comparator and a branch offset packed in one cell. -/
structure ComparatorAndOffset where
  cmp : Comparator
  offset : BranchOffset
deriving DecidableEq

/-- `ComparatorAndOffset::from_untyped`. -/
def ComparatorAndOffset.fromUntyped (value : UntypedVal) : Option ComparatorAndOffset := do
  let cmp ← Comparator.all[(value >>> 32).toNat]?
  return ⟨cmp, Int32.ofBitVec value.toI32⟩

/-- `Instruction::BranchCmp*Imm`: the comparators that have a form with a 16-bit immediate. -/
inductive ImmComparator where
  | int (op : IntComparison)
  | bits (op : BitTest)
deriving Repr, DecidableEq

def ImmComparator.eval (cmp : ImmComparator) (lhs rhs : UntypedVal) : Bool :=
  match cmp with
  | .int op => op.eval lhs rhs
  | .bits op => op.eval lhs rhs

def ImmComparator.immType : ImmComparator → ImmType
  | .int op => op.immType
  | .bits _ => .i32

end MotokoDebugger
