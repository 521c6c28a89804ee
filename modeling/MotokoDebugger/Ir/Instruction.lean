import MotokoDebugger.Ir.Registers

/-!
# Instructions of the register bytecode

The 499 instruction words of `ir/src/for_each_op.rs`. Words that differ only in an operator share
a constructor that takes the operator; words that differ only in whether an operand is a register
or an immediate share one that takes an operand type. Every word carries the `instr_offset` of the
Wasm operator it was translated from.
-/

namespace MotokoDebugger

/-! ## Operators with immediate forms -/

/-- Binary operators on registers. -/
inductive BinaryOp where
  | arith (op : ArithOp)
  | sub (op : SubOp)
  | shift (op : ShiftOp)
  | compare (op : IntComparison)
  | float (op : FloatBinaryOp)
  | floatCompare (op : FloatComparison)
deriving Repr, DecidableEq

def BinaryOp.eval (float : FloatOps) (op : BinaryOp) (lhs rhs : UntypedVal) : UntypedVal :=
  match op with
  | .arith op => op.eval lhs rhs
  | .sub op => op.eval lhs rhs
  | .shift op => op.eval lhs rhs
  | .compare op => .ofBool (op.eval lhs rhs)
  | .float op => float.binary op lhs rhs
  | .floatCompare op => .ofBool (float.compare op lhs rhs)

/-- The operators of `impl_binary_imm16!` and `impl_comparison_imm16!`. -/
inductive BinaryImm16Op where
  | arith (op : ArithOp)
  | compare (op : IntComparison)
deriving Repr, DecidableEq

def BinaryImm16Op.eval (op : BinaryImm16Op) (lhs : UntypedVal) (rhs : Const16) : UntypedVal :=
  match op with
  | .arith op => op.eval lhs (rhs.toUntyped op.immType)
  | .compare op => .ofBool (op.eval lhs (rhs.toUntyped op.immType))

/-- The operators of `impl_binary_imm16_lhs!`. -/
inductive BinaryImm16LhsOp where
  | sub (op : SubOp)
  | shift (op : ShiftOp)
deriving Repr, DecidableEq

def BinaryImm16LhsOp.eval (op : BinaryImm16LhsOp) (lhs : Const16) (rhs : UntypedVal) :
    UntypedVal :=
  match op with
  | .sub op => op.eval (lhs.toUntyped op.immType) rhs
  | .shift op => op.eval (lhs.toUntyped op.immType) rhs

/-- Unary operators that cannot trap. -/
inductive UnaryOp where
  | int (op : IntUnaryOp)
  | float (op : FloatUnaryOp)
deriving Repr, DecidableEq

def UnaryOp.eval (float : FloatOps) (op : UnaryOp) (value : UntypedVal) : UntypedVal :=
  match op with
  | .int op => op.eval value
  | .float op => float.unary op value

/-- The operators of `F32CopysignImm` and `F64CopysignImm`. -/
inductive CopysignOp where
  | f32
  | f64
deriving Repr, DecidableEq

/-- Copysign with the constant `1.0` or `-1.0`. -/
def CopysignOp.eval (float : FloatOps) (op : CopysignOp) (lhs : UntypedVal) (isPositive : Bool) :
    UntypedVal :=
  match op with
  | .f32 => float.binary .f32Copysign lhs (if isPositive then 0x3F800000 else 0xBF800000)
  | .f64 => float.binary .f64Copysign lhs
      (if isPositive then 0x3FF0000000000000 else 0xBFF0000000000000)

/-- The store operators with a form for an immediate value. -/
inductive StoreImmOp where
  | i32Store | i64Store | i32Store8 | i32Store16 | i64Store8 | i64Store16 | i64Store32
deriving Repr, DecidableEq

def StoreImmOp.toStoreOp : StoreImmOp → StoreOp
  | .i32Store => .i32Store
  | .i64Store => .i64Store
  | .i32Store8 => .i32Store8
  | .i32Store16 => .i32Store16
  | .i64Store8 => .i64Store8
  | .i64Store16 => .i64Store16
  | .i64Store32 => .i64Store32

/-- The stored value; an 8-bit immediate is the low byte of its word. -/
def StoreImmOp.value (op : StoreImmOp) (value : Const16) : UntypedVal :=
  match op with
  | .i32Store | .i64Store32 => value.toUntyped .i32
  | .i64Store => value.toUntyped .i64
  | .i32Store8 | .i64Store8 => (value.truncate 8).zeroExtend 64
  | .i32Store16 | .i64Store16 => value.zeroExtend 64

/-- A 32-bit operand of a bulk operation: a register or a 16-bit immediate. -/
inductive Operand where
  | reg (reg : Reg)
  | imm (value : Const16)
deriving Repr, DecidableEq

/-- The value operand of `memory.fill`: a register or a byte. -/
inductive ByteOperand where
  | reg (reg : Reg)
  | imm (value : Byte)
deriving Repr, DecidableEq

/-- The `delta` of `memory.grow`: a register or a 32-bit immediate. -/
inductive DeltaOperand where
  | reg (reg : Reg)
  | imm (value : BitVec 32)
deriving Repr, DecidableEq

/-- The index of a `table.get` or `table.set`: a register or a 32-bit immediate. -/
abbrev IndexOperand := DeltaOperand

/-! ## Instruction words -/

/-- The operands and the kind of an instruction word. -/
inductive Op where
  | trap (trapCode : TrapCode)
  | consumeFuel (blockFuel : Nat)
  -- returns
  | return_
  | returnReg (value : Reg)
  | returnReg2 (value0 value1 : Reg)
  | returnReg3 (value0 value1 value2 : Reg)
  | returnImm32 (value : AnyConst32)
  | returnI64Imm32 (value : AnyConst32)
  | returnF64Imm32 (value : AnyConst32)
  | returnSpan (values : BoundedRegSpan)
  | returnMany (value0 value1 value2 : Reg)
  | returnNez (condition : Reg)
  | returnNezReg (condition value : Reg)
  | returnNezReg2 (condition value0 value1 : Reg)
  | returnNezImm32 (condition : Reg) (value : AnyConst32)
  | returnNezI64Imm32 (condition : Reg) (value : AnyConst32)
  | returnNezF64Imm32 (condition : Reg) (value : AnyConst32)
  | returnNezSpan (condition : Reg) (values : BoundedRegSpan)
  | returnNezMany (condition value0 value1 : Reg)
  -- branches
  | branch (offset : BranchOffset)
  | branchTable0 (index : Reg) (lenTargets : Nat)
  | branchTable1 (index : Reg) (lenTargets : Nat)
  | branchTable2 (index : Reg) (lenTargets : Nat)
  | branchTable3 (index : Reg) (lenTargets : Nat)
  | branchTableSpan (index : Reg) (lenTargets : Nat)
  | branchTableMany (index : Reg) (lenTargets : Nat)
  | branchCmpFallback (lhs rhs params : Reg)
  | branchCmp (cmp : Comparator) (lhs rhs : Reg) (offset : BranchOffset16)
  | branchCmpImm (cmp : ImmComparator) (lhs : Reg) (rhs : Const16) (offset : BranchOffset16)
  -- copies
  | copy (result value : Reg)
  | copy2 (results : RegSpan) (value0 value1 : Reg)
  | copyImm32 (result : Reg) (value : AnyConst32)
  | copyI64Imm32 (result : Reg) (value : AnyConst32)
  | copyF64Imm32 (result : Reg) (value : AnyConst32)
  | copySpan (results values : RegSpan) (len : Nat)
  | copySpanNonOverlapping (results values : RegSpan) (len : Nat)
  | copyMany (results : RegSpan) (value0 value1 : Reg)
  | copyManyNonOverlapping (results : RegSpan) (value0 value1 : Reg)
  -- calls
  | returnCallInternal0 (func : Nat)
  | returnCallInternal (func : Nat)
  | returnCallImported0 (func : Nat)
  | returnCallImported (func : Nat)
  | returnCallIndirect0 (funcType : Nat)
  | returnCallIndirect0Imm16 (funcType : Nat)
  | returnCallIndirect (funcType : Nat)
  | returnCallIndirectImm16 (funcType : Nat)
  | callInternal0 (results : RegSpan) (func : Nat)
  | callInternal (results : RegSpan) (func : Nat)
  | callImported0 (results : RegSpan) (func : Nat)
  | callImported (results : RegSpan) (func : Nat)
  | callIndirect0 (results : RegSpan) (funcType : Nat)
  | callIndirect0Imm16 (results : RegSpan) (funcType : Nat)
  | callIndirect (results : RegSpan) (funcType : Nat)
  | callIndirectImm16 (results : RegSpan) (funcType : Nat)
  -- select
  | select (result lhs : Reg)
  | selectImm32Rhs (result lhs : Reg)
  | selectImm32Lhs (result : Reg) (lhs : AnyConst32)
  | selectImm32 (result : Reg) (lhs : AnyConst32)
  | selectI64Imm32Rhs (result lhs : Reg)
  | selectI64Imm32Lhs (result : Reg) (lhs : AnyConst32)
  | selectI64Imm32 (result : Reg) (lhs : AnyConst32)
  | selectF64Imm32Rhs (result lhs : Reg)
  | selectF64Imm32Lhs (result : Reg) (lhs : AnyConst32)
  | selectF64Imm32 (result : Reg) (lhs : AnyConst32)
  -- references and globals
  | refFunc (result : Reg) (func : Nat)
  | globalGet (result : Reg) (global : Nat)
  | globalSet (input : Reg) (global : Nat)
  | globalSetI32Imm16 (input : Const16) (global : Nat)
  | globalSetI64Imm16 (input : Const16) (global : Nat)
  -- loads and stores
  | load (op : LoadOp) (result : Reg) (memory : Nat)
  | loadAt (op : LoadOp) (result : Reg) (address : BitVec 32)
  | loadOffset16 (op : LoadOp) (result ptr : Reg) (offset : Const16)
  | store (op : StoreOp) (ptr : Reg) (memory : Nat)
  | storeImm (op : StoreImmOp) (ptr : Reg) (memory : Nat)
  | storeOffset16 (op : StoreOp) (ptr : Reg) (offset : Const16) (value : Reg)
  | storeOffset16Imm (op : StoreImmOp) (ptr : Reg) (offset : Const16) (value : Const16)
  | storeAt (op : StoreOp) (value : Reg) (address : BitVec 32)
  | storeAtImm (op : StoreImmOp) (value : Const16) (address : BitVec 32)
  -- numeric operators
  | unary (op : UnaryOp) (result input : Reg)
  | tryUnary (op : TruncOp) (result input : Reg)
  | binary (op : BinaryOp) (result lhs rhs : Reg)
  | tryBinary (op : DivRemOp) (result lhs rhs : Reg)
  | binaryImm16 (op : BinaryImm16Op) (result lhs : Reg) (rhs : Const16)
  | binaryImm16Lhs (op : BinaryImm16LhsOp) (result : Reg) (lhs : Const16) (rhs : Reg)
  | shiftBy (op : ShiftOp) (result lhs : Reg) (rhs : Const16)
  | divremImm16Rhs (op : DivRemOp) (result lhs : Reg) (rhs : Const16)
  | tryBinaryImm16Lhs (op : DivRemOp) (result : Reg) (lhs : Const16) (rhs : Reg)
  | copysignImm (op : CopysignOp) (result lhs : Reg) (rhsIsPositive : Bool)
  -- tables
  | tableGet (result : Reg) (index : IndexOperand)
  | tableSize (result : Reg) (table : Nat)
  | tableSet (index : IndexOperand) (value : Reg)
  | tableCopy (dst src len : Operand)
  | tableInit (dst src len : Operand)
  | tableFill (dst len : Operand) (value : Reg)
  | tableGrow (result : Reg) (delta : Operand) (value : Reg)
  | elemDrop (index : Nat)
  -- memories
  | dataDrop (index : Nat)
  | memorySize (result : Reg) (memory : Nat)
  | memoryGrow (result : Reg) (delta : DeltaOperand)
  | memoryCopy (dst src len : Operand)
  | memoryFill (dst : Operand) (value : ByteOperand) (len : Operand)
  | memoryInit (dst src len : Operand)
  -- parameter words, which are never executed
  | tableIndex (index : Nat)
  | memoryIndex (index : Nat)
  | dataIndex (index : Nat)
  | elemIndex (index : Nat)
  | const32 (value : AnyConst32)
  | i64Const32 (value : AnyConst32)
  | f64Const32 (value : AnyConst32)
  | branchTableTarget (results : RegSpan) (offset : BranchOffset)
  | branchTableTargetNonOverlapping (results : RegSpan) (offset : BranchOffset)
  | imm16AndImm32 (imm16 : Const16) (imm32 : AnyConst32)
  | registerAndImm32 (reg : Reg) (imm : AnyConst32)
  | registerSpan (span : BoundedRegSpan)
  | register (reg : Reg)
  | register2 (reg0 reg1 : Reg)
  | register3 (reg0 reg1 reg2 : Reg)
  | registerList (reg0 reg1 reg2 : Reg)
  | callIndirectParams (index : Reg) (table : Nat)
  | callIndirectParamsImm16 (index : Const16) (table : Nat)
deriving Repr, DecidableEq

/-- An instruction word: its operation and the offset of the Wasm operator it came from. -/
structure Instruction where
  instrOffset : Nat
  op : Op
deriving Repr, DecidableEq

/-- Is the operation one of the seventeen return instructions? -/
def Op.isReturn : Op → Bool
  | .return_ | .returnReg _ | .returnReg2 .. | .returnReg3 .. | .returnImm32 _
  | .returnI64Imm32 _ | .returnF64Imm32 _ | .returnSpan _ | .returnMany ..
  | .returnNez _ | .returnNezReg .. | .returnNezReg2 .. | .returnNezImm32 ..
  | .returnNezI64Imm32 .. | .returnNezF64Imm32 .. | .returnNezSpan .. | .returnNezMany .. => true
  | _ => false

/-- The condition register of a conditional return. -/
def Op.returnCondition : Op → Option Reg
  | .returnNez condition | .returnNezReg condition _ | .returnNezReg2 condition _ _
  | .returnNezImm32 condition _ | .returnNezI64Imm32 condition _
  | .returnNezF64Imm32 condition _ | .returnNezSpan condition _
  | .returnNezMany condition _ _ => some condition
  | _ => none

end MotokoDebugger
