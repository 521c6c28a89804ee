import MotokoDebugger.Core.Numerics
import MotokoDebugger.Translator.Accesses
import MotokoDebugger.Translator.Comparator

/-!
# Translation of the integer operators

`translate_binary`, `translate_binary_commutative`, `translate_shift`, `translate_divrem` and
`translate_select` of `translator/mod.rs`, and the visitors of `translator/visit.rs` that call them
for `i32` and `i64`. A method that the source instantiates with constructors of instructions takes
those constructors.
-/

namespace MotokoDebugger

/-! ## Immediates -/

namespace Const16

/-- `u16::try_from` of a `u64`. -/
def ofU64 (value : BitVec 64) : Option Const16 :=
  if value.toNat < 2 ^ 16 then some (value.truncate 16) else none

/-- `Const16::<T>::try_from`. -/
def ofImm : (ty : ImmType) → BitVec ty.bits → Option Const16
  | .i32 => ofI32
  | .u32 => ofU32
  | .i64 => ofI64
  | .u64 => ofU64

/-- `ShiftAmount::<i32>::new`. -/
def shiftAmount32 (value : BitVec 32) : Option Const16 :=
  let value := (value.srem 32).truncate 16
  if value = 0 then none else some value

/-- `ShiftAmount::<i64>::new`. -/
def shiftAmount64 (value : BitVec 64) : Option Const16 :=
  let value := (value.srem 64).truncate 16
  if value = 0 then none else some value

end Const16

/-! ## Constants -/

namespace UntypedVal

/-- A 32-bit value is the extension of its lower half. -/
lemma ofI32_eq (bits : BitVec 32) : ofI32 bits = ofI32 (ofI32 bits).toI32 := by rw [toI32_ofI32]

lemma ofBool_eq (value : Bool) : ofBool value = ofI32 (ofBool value).toI32 := by
  cases value <;> rfl

end UntypedVal

/-! ## Constant evaluation -/

/-- The Wasm type of the values of a type. -/
def ImmType.valType : ImmType → ValType
  | .i32 | .u32 => .i32
  | .i64 | .u64 => .i64

def IntType.valType : IntType → ValType
  | .i32 => .i32
  | .i64 => .i64

lemma ArithOp.eval_upper {op : ArithOp} (h : op.immType.valType = .i32) (lhs rhs : UntypedVal) :
    op.eval lhs rhs = .ofI32 (op.eval lhs rhs).toI32 := by
  cases op with
  | i32Add | i32Mul | i32And | i32Or | i32Xor => exact UntypedVal.ofI32_eq _
  | i32AndEqz | i32OrEqz | i32XorEqz => exact UntypedVal.ofBool_eq _
  | i64Add | i64Mul | i64And | i64Or | i64Xor => cases h

lemma SubOp.eval_upper {op : SubOp} (h : op.immType.valType = .i32) (lhs rhs : UntypedVal) :
    op.eval lhs rhs = .ofI32 (op.eval lhs rhs).toI32 := by
  cases op with
  | i32Sub => exact UntypedVal.ofI32_eq _
  | i64Sub => cases h

lemma ShiftOp.eval_upper {op : ShiftOp} (h : op.immType.valType = .i32) (lhs rhs : UntypedVal) :
    op.eval lhs rhs = .ofI32 (op.eval lhs rhs).toI32 := by
  cases op with
  | i32Shl | i32ShrU | i32ShrS | i32Rotl | i32Rotr => exact UntypedVal.ofI32_eq _
  | i64Shl | i64ShrU | i64ShrS | i64Rotl | i64Rotr => cases h

lemma DivRemOp.eval_upper {op : DivRemOp} (h : op.immType.valType = .i32)
    {lhs rhs value : UntypedVal} (heval : op.eval lhs rhs = .ok value) :
    value = .ofI32 value.toI32 := by
  have hmap : ∀ {x : Except TrapCode (BitVec 32)}, x.map UntypedVal.ofI32 = .ok value →
      value = .ofI32 value.toI32 := by
    intro x hx
    cases x with
    | error => cases hx
    | ok bits =>
      rw [← Except.ok.inj hx]
      exact UntypedVal.ofI32_eq bits
  cases op with
  | i32DivS | i32DivU | i32RemS | i32RemU => exact hmap heval
  | i64DivS | i64DivU | i64RemS | i64RemU => cases h

namespace Translator.TypedVal

/-- `TypedVal::from` of an `i32`. -/
def ofI32 (value : BitVec 32) : TypedVal :=
  ⟨.i32, .ofI32 value, fun _ => UntypedVal.ofI32_eq value⟩

/-- `TypedVal::from` of a `bool`. -/
def ofBool (value : Bool) : TypedVal :=
  ⟨.i32, .ofBool value, fun _ => UntypedVal.ofBool_eq value⟩

/-- `TypedVal::from` of an `i64`. -/
def ofI64 (value : BitVec 64) : TypedVal := ⟨.i64, value, fun h => by simp at h⟩

/-- The type of an operator is no float type. -/
lemma valType_of_upper {ty : ImmType} (h : ty.valType = .i32 ∨ ty.valType = .f32) :
    ty.valType = .i32 := by
  cases ty <;> simp_all [ImmType.valType]

/-- `TypedVal::i32_add` and its siblings: forwards to the operator on cells. -/
def arith (op : ArithOp) (lhs rhs : TypedVal) : TypedVal where
  ty := op.immType.valType
  value := op.eval lhs.value rhs.value
  upper h := op.eval_upper (valType_of_upper h) _ _

def sub (op : SubOp) (lhs rhs : TypedVal) : TypedVal where
  ty := op.immType.valType
  value := op.eval lhs.value rhs.value
  upper h := op.eval_upper (valType_of_upper h) _ _

def shift (op : ShiftOp) (lhs rhs : TypedVal) : TypedVal where
  ty := op.immType.valType
  value := op.eval lhs.value rhs.value
  upper h := op.eval_upper (valType_of_upper h) _ _

def compare (op : IntComparison) (lhs rhs : TypedVal) : TypedVal :=
  .ofBool (op.eval lhs.value rhs.value)

def divrem (op : DivRemOp) (lhs rhs : TypedVal) : Except TrapCode TypedVal :=
  match h : op.eval lhs.value rhs.value with
  | .ok value => .ok ⟨op.immType.valType, value, fun hty => op.eval_upper (valType_of_upper hty) h⟩
  | .error trapCode => .error trapCode

end Translator.TypedVal

namespace Translator

/-- `pop3`. -/
def ValueStack.pop3 {σ : Type} (stash : MultiStash σ) (stack : ValueStack σ) :
    Except Failure (TypedProvider × TypedProvider × TypedProvider × ValueStack σ) := do
  let (v1, v2, stack) ← stack.pop2 stash
  let (v0, stack) ← stack.pop stash
  return (v0, v1, v2, stack)

/-! ## Instructions with two operands -/

namespace FuncTranslator

variable {σ : Type} (stash : MultiStash σ) (translator : FuncTranslator σ)

/-- `push_binary_instr`. -/
def pushBinaryInstr (lhs rhs : Reg) (makeInstr : Reg → Reg → Reg → Op) :
    Except Failure (FuncTranslator σ) := do
  let (result, stack) ← translator.stack.pushDynamic
  (translator.withStack stack).pushFueledInstr (makeInstr result lhs rhs) (·.base)

/-- `try_push_binary_instr_imm16`: `none` where the immediate does not fit. -/
def tryPushBinaryInstrImm16 (ty : ImmType) (lhs : Reg) (rhs : BitVec ty.bits)
    (makeInstrImm16 : Reg → Reg → Const16 → Except Failure Op) :
    Except Failure (Option (FuncTranslator σ)) :=
  match Const16.ofImm ty rhs with
  | some rhs => do
    let (result, stack) ← translator.stack.pushDynamic
    return some (← (translator.withStack stack).pushFueledInstr
      (← makeInstrImm16 result lhs rhs) (·.base))
  | none => .ok none

/-- `try_push_binary_instr_imm16_rev`. -/
def tryPushBinaryInstrImm16Rev (ty : ImmType) (lhs : BitVec ty.bits) (rhs : Reg)
    (makeInstrImm16 : Reg → Const16 → Reg → Op) : Except Failure (Option (FuncTranslator σ)) :=
  match Const16.ofImm ty lhs with
  | some lhs => do
    let (result, stack) ← translator.stack.pushDynamic
    return some (← (translator.withStack stack).pushFueledInstr
      (makeInstrImm16 result lhs rhs) (·.base))
  | none => .ok none

/-- `push_binary_consteval`. -/
def pushBinaryConsteval (lhs rhs : TypedVal) (consteval : TypedVal → TypedVal → TypedVal) :
    Except Failure (FuncTranslator σ) := do
  return translator.withStack (← translator.stack.pushConst (consteval lhs rhs))

/-- `push_binary_instr_imm`. -/
def pushBinaryInstrImm (lhs : Reg) (rhs : UntypedVal) (makeInstr : Reg → Reg → Reg → Op) :
    Except Failure (FuncTranslator σ) := do
  let (result, stack) ← translator.stack.pushDynamic
  let (rhs, stack) ← stack.allocConst rhs
  (translator.withStack stack).pushFueledInstr (makeInstr result lhs rhs) (·.base)

/-- `push_binary_instr_imm_rev`. -/
def pushBinaryInstrImmRev (lhs : UntypedVal) (rhs : Reg) (makeInstr : Reg → Reg → Reg → Op) :
    Except Failure (FuncTranslator σ) := do
  let (result, stack) ← translator.stack.pushDynamic
  let (lhs, stack) ← stack.allocConst lhs
  (translator.withStack stack).pushFueledInstr (makeInstr result lhs rhs) (·.base)

/-! ### Custom optimizations

A custom optimization returns `none` where it does not apply; the source returns `false` then. -/

/-- `push_const` as an optimization that applies. -/
def optConst (value : TypedVal) : Except Failure (Option (FuncTranslator σ)) := do
  return some (translator.withStack (← translator.stack.pushConst value))

/-- `push_register` as an optimization that applies. -/
def optRegister (reg : Reg) : Except Failure (Option (FuncTranslator σ)) := do
  return some (translator.withStack (← translator.stack.pushRegister stash reg))

end FuncTranslator

/-- A custom optimization for two registers. -/
abbrev RegOpt (σ : Type) :=
  FuncTranslator σ → Reg → Reg → Except Failure (Option (FuncTranslator σ))

/-- A custom optimization for a register and an immediate, whatever their order. -/
abbrev ImmOpt (σ : Type) (ty : ImmType) :=
  FuncTranslator σ → Reg → BitVec ty.bits → Except Failure (Option (FuncTranslator σ))

/-- `no_custom_opt`. -/
def noCustomOpt {σ : Type} {Rhs : Type} (_ : FuncTranslator σ) (_ : Reg) (_ : Rhs) :
    Except Failure (Option (FuncTranslator σ)) := .ok none

/-- An attempt that may not apply, with what is done otherwise. -/
def orElse {α : Type} (attempt : Except Failure (Option α)) (otherwise : Except Failure α) :
    Except Failure α := do
  match ← attempt with
  | some done => return done
  | none => otherwise

/-! ## The kinds of operators -/

namespace FuncTranslator

variable {σ : Type} (stash : MultiStash σ) (translator : FuncTranslator σ) (ty : ImmType)

/-- `translate_binary`. -/
def translateBinary (makeInstr : Reg → Reg → Reg → Op)
    (makeInstrImm16 : Reg → Reg → Const16 → Except Failure Op)
    (makeInstrImm16Rev : Reg → Const16 → Reg → Op) (consteval : TypedVal → TypedVal → TypedVal)
    (makeInstrOpt : RegOpt σ) (makeInstrRegImmOpt makeInstrImmRegOpt : ImmOpt σ ty) :
    Except Failure (FuncTranslator σ) :=
  if translator.reachable then do
    let (lhs, rhs, stack) ← translator.stack.pop2 stash
    let translator := translator.withStack stack
    match lhs, rhs with
    | .register lhs, .register rhs =>
      orElse (makeInstrOpt translator lhs rhs) (translator.pushBinaryInstr lhs rhs makeInstr)
    | .register lhs, .const rhs =>
      orElse (makeInstrRegImmOpt translator lhs (rhs.value.truncate _))
        (orElse (translator.tryPushBinaryInstrImm16 ty lhs (rhs.value.truncate _) makeInstrImm16)
          (translator.pushBinaryInstrImm lhs rhs.value makeInstr))
    | .const lhs, .register rhs =>
      orElse (makeInstrImmRegOpt translator rhs (lhs.value.truncate _))
        (orElse
          (translator.tryPushBinaryInstrImm16Rev ty (lhs.value.truncate _) rhs makeInstrImm16Rev)
          (translator.pushBinaryInstrImmRev lhs.value rhs makeInstr))
    | .const lhs, .const rhs => translator.pushBinaryConsteval lhs rhs consteval
  else .ok translator

/-- `translate_binary_commutative`. -/
def translateBinaryCommutative (makeInstr : Reg → Reg → Reg → Op)
    (makeInstrImm16 : Reg → Reg → Const16 → Op) (consteval : TypedVal → TypedVal → TypedVal)
    (makeInstrOpt : RegOpt σ) (makeInstrImmOpt : ImmOpt σ ty) : Except Failure (FuncTranslator σ) :=
  if translator.reachable then do
    let (lhs, rhs, stack) ← translator.stack.pop2 stash
    let translator := translator.withStack stack
    match lhs, rhs with
    | .register lhs, .register rhs =>
      orElse (makeInstrOpt translator lhs rhs) (translator.pushBinaryInstr lhs rhs makeInstr)
    | .register reg, .const imm | .const imm, .register reg =>
      orElse (makeInstrImmOpt translator reg (imm.value.truncate _))
        (orElse (translator.tryPushBinaryInstrImm16 ty reg (imm.value.truncate _)
            fun result lhs rhs => .ok (makeInstrImm16 result lhs rhs))
          (translator.pushBinaryInstrImm reg imm.value makeInstr))
    | .const lhs, .const rhs => translator.pushBinaryConsteval lhs rhs consteval
  else .ok translator

/-- `translate_shift`; `shiftAmount` is `into_shift_amount`. -/
def translateShift (shiftAmount : BitVec ty.bits → Option Const16)
    (makeInstr : Reg → Reg → Reg → Op) (makeInstrBy : Reg → Reg → Const16 → Op)
    (makeInstrImm16 : Reg → Const16 → Reg → Op) (consteval : TypedVal → TypedVal → TypedVal)
    (makeInstrImmRegOpt : ImmOpt σ ty) : Except Failure (FuncTranslator σ) :=
  if translator.reachable then do
    let (lhs, rhs, stack) ← translator.stack.pop2 stash
    let translator := translator.withStack stack
    match lhs, rhs with
    | .register lhs, .register rhs => translator.pushBinaryInstr lhs rhs makeInstr
    | .register lhs, .const rhs =>
      match shiftAmount (rhs.value.truncate _) with
      | none => do return translator.withStack (← translator.stack.pushRegister stash lhs)
      | some rhs => do
        let (result, stack) ← translator.stack.pushDynamic
        (translator.withStack stack).pushFueledInstr (makeInstrBy result lhs rhs) (·.base)
    | .const lhs, .register rhs =>
      orElse (makeInstrImmRegOpt translator rhs (lhs.value.truncate _))
        (if (lhs.value.truncate _ : BitVec ty.bits) = 0 then do
          return translator.withStack (← translator.stack.pushConst lhs)
        else
          orElse
            (translator.tryPushBinaryInstrImm16Rev ty (lhs.value.truncate _) rhs makeInstrImm16)
            (translator.pushBinaryInstrImmRev lhs.value rhs makeInstr))
    | .const lhs, .const rhs => translator.pushBinaryConsteval lhs rhs consteval
  else .ok translator

/-- `translate_divrem`. A `NonZeroT` is a `T` that is not zero. -/
def translateDivrem (makeInstr : Reg → Reg → Reg → Op) (makeInstrImm16 : Reg → Reg → Const16 → Op)
    (makeInstrImm16Rev : Reg → Const16 → Reg → Op)
    (consteval : TypedVal → TypedVal → Except TrapCode TypedVal) (makeInstrOpt : RegOpt σ)
    (makeInstrRegImmOpt : ImmOpt σ ty) : Except Failure (FuncTranslator σ) :=
  if translator.reachable then do
    let (lhs, rhs, stack) ← translator.stack.pop2 stash
    let translator := translator.withStack stack
    match lhs, rhs with
    | .register lhs, .register rhs =>
      orElse (makeInstrOpt translator lhs rhs) (translator.pushBinaryInstr lhs rhs makeInstr)
    | .register lhs, .const rhs =>
      if (rhs.value.truncate _ : BitVec ty.bits) = 0 then
        translator.translateTrap .integerDivisionByZero
      else
        orElse (makeInstrRegImmOpt translator lhs (rhs.value.truncate _))
          (orElse (translator.tryPushBinaryInstrImm16 ty lhs (rhs.value.truncate _)
              fun result lhs rhs => .ok (makeInstrImm16 result lhs rhs))
            (translator.pushBinaryInstrImm lhs rhs.value makeInstr))
    | .const lhs, .register rhs =>
      orElse (translator.tryPushBinaryInstrImm16Rev ty (lhs.value.truncate _) rhs makeInstrImm16Rev)
        (translator.pushBinaryInstrImmRev lhs.value rhs makeInstr)
    | .const lhs, .const rhs =>
      match consteval lhs rhs with
      | .ok result => do return translator.withStack (← translator.stack.pushConst result)
      | .error trapCode => translator.translateTrap trapCode
  else .ok translator

/-! ## Comparisons -/

/-- Pushes the constant where the two operands are the same register. -/
def constIfSame (value : TypedVal) : RegOpt σ := fun translator lhs rhs =>
  if lhs = rhs then translator.optConst value else .ok none

/-- Pushes a register operand where the two are the same. -/
def registerIfSame : RegOpt σ := fun translator lhs rhs =>
  if lhs = rhs then translator.optRegister stash lhs else .ok none

/-- Pushes the constant `value` where the immediate is `imm`. -/
def constIf {ty : ImmType} (imm : BitVec ty.bits) (value : TypedVal) : ImmOpt σ ty :=
  fun translator _ rhs => if rhs = imm then translator.optConst value else .ok none

/-- Pushes the register operand where the immediate is `imm`. -/
def registerIf {ty : ImmType} (imm : BitVec ty.bits) : ImmOpt σ ty :=
  fun translator reg rhs => if rhs = imm then translator.optRegister stash reg else .ok none

/-- The visitors of `eq` and `ne`. -/
def visitEquality (op : IntComparison) (same : Bool) : Except Failure (FuncTranslator σ) :=
  translator.translateBinaryCommutative stash op.immType (.binary (.compare op))
    (.binaryImm16 (.compare op)) (.compare op) (constIfSame (.ofBool same)) noCustomOpt

def visitI32Eq := translator.visitEquality stash .i32Eq true
def visitI32Ne := translator.visitEquality stash .i32Ne false
def visitI64Eq := translator.visitEquality stash .i64Eq true
def visitI64Ne := translator.visitEquality stash .i64Ne false

/-- The visitors of the orders: `swapped` is `op` with its operands swapped, and `value` its result
on equal operands, for the immediate `rhs` on the right and for the immediate `lhs` on the left. -/
def visitOrder (op swapped : IntComparison) (value : Bool) (rhs lhs : BitVec op.immType.bits) :
    Except Failure (FuncTranslator σ) :=
  translator.translateBinary stash op.immType (.binary (.compare op))
    (fun result lhs rhs => .ok (.binaryImm16 (.compare op) result lhs rhs))
    (fun result lhs rhs => .binaryImm16 (.compare swapped) result rhs lhs) (.compare op)
    (constIfSame (.ofBool value)) (constIf rhs (.ofBool value)) (constIf lhs (.ofBool value))

def visitI32LtS := translator.visitOrder stash .i32LtS .i32GtS false (.intMin 32) (.intMax 32)
def visitI32LtU := translator.visitOrder stash .i32LtU .i32GtU false 0 (.allOnes 32)
def visitI32GtS := translator.visitOrder stash .i32GtS .i32LtS false (.intMax 32) (.intMin 32)
def visitI32GtU := translator.visitOrder stash .i32GtU .i32LtU false (.allOnes 32) 0
def visitI32LeS := translator.visitOrder stash .i32LeS .i32GeS true (.intMax 32) (.intMin 32)
def visitI32LeU := translator.visitOrder stash .i32LeU .i32GeU true (.allOnes 32) 0
def visitI32GeS := translator.visitOrder stash .i32GeS .i32LeS true (.intMin 32) (.intMax 32)
def visitI32GeU := translator.visitOrder stash .i32GeU .i32LeU true 0 (.allOnes 32)
def visitI64LtS := translator.visitOrder stash .i64LtS .i64GtS false (.intMin 64) (.intMax 64)
def visitI64LtU := translator.visitOrder stash .i64LtU .i64GtU false 0 (.allOnes 64)
def visitI64GtS := translator.visitOrder stash .i64GtS .i64LtS false (.intMax 64) (.intMin 64)
def visitI64GtU := translator.visitOrder stash .i64GtU .i64LtU false (.allOnes 64) 0
def visitI64LeS := translator.visitOrder stash .i64LeS .i64GeS true (.intMax 64) (.intMin 64)
def visitI64LeU := translator.visitOrder stash .i64LeU .i64GeU true (.allOnes 64) 0
def visitI64GeS := translator.visitOrder stash .i64GeS .i64LeS true (.intMin 64) (.intMax 64)
def visitI64GeU := translator.visitOrder stash .i64GeU .i64LeU true 0 (.allOnes 64)

/-! ## Arithmetic -/

/-- The visitors of the commutative operators on integers. -/
def visitArith (op : ArithOp) (makeInstrOpt : RegOpt σ) (makeInstrImmOpt : ImmOpt σ op.immType) :
    Except Failure (FuncTranslator σ) :=
  translator.translateBinaryCommutative stash op.immType (.binary (.arith op))
    (.binaryImm16 (.arith op)) (.arith op) makeInstrOpt makeInstrImmOpt

def visitI32Add := translator.visitArith stash .i32Add noCustomOpt (registerIf stash 0)

def visitI32Mul := translator.visitArith stash .i32Mul noCustomOpt fun this reg value =>
  if value = 0 then this.optConst (.ofI32 0)
  else if value = 1 then this.optRegister stash reg
  else .ok none

def visitI32And :=
  translator.visitArith stash .i32And (registerIfSame stash) fun this reg value =>
    if value = -1 then this.optRegister stash reg
    else if value = 0 then this.optConst (.ofI32 0)
    else .ok none

def visitI32Or :=
  translator.visitArith stash .i32Or (registerIfSame stash) fun this reg value =>
    if value = -1 then this.optConst (.ofI32 (-1))
    else if value = 0 then this.optRegister stash reg
    else .ok none

def visitI32Xor :=
  translator.visitArith stash .i32Xor (constIfSame (.ofI32 0)) (registerIf stash 0)

def visitI64Add := translator.visitArith stash .i64Add noCustomOpt (registerIf stash 0)

def visitI64Mul := translator.visitArith stash .i64Mul noCustomOpt fun this reg value =>
  if value = 0 then this.optConst (.ofI64 0)
  else if value = 1 then this.optRegister stash reg
  else .ok none

def visitI64And :=
  translator.visitArith stash .i64And (registerIfSame stash) fun this reg value =>
    if value = -1 then this.optRegister stash reg
    else if value = 0 then this.optConst (.ofI64 0)
    else .ok none

def visitI64Or :=
  translator.visitArith stash .i64Or (registerIfSame stash) fun this reg value =>
    if value = -1 then this.optConst (.ofI64 (-1))
    else if value = 0 then this.optRegister stash reg
    else .ok none

def visitI64Xor :=
  translator.visitArith stash .i64Xor (constIfSame (.ofI64 0)) (registerIf stash 0)

/-- The visitors of `sub`: a constant on the right is negated and added. -/
def visitSub (op : SubOp) (add : ArithOp) (zero : TypedVal) : Except Failure (FuncTranslator σ) :=
  translator.translateBinary stash op.immType (.binary (.sub op)) (fun _ _ _ => .error .panic)
    (.binaryImm16Lhs (.sub op)) (.sub op) (constIfSame zero)
    (fun this lhs rhs =>
      if rhs = 0 then this.optRegister stash lhs
      else do
        match ← this.tryPushBinaryInstrImm16 op.immType lhs (-rhs)
          fun result lhs rhs => .ok (.binaryImm16 (.arith add) result lhs rhs) with
        | some this => return some this
        | none =>
          return some (← this.pushBinaryInstrImm lhs (.ofInt (-rhs)) (.binary (.arith add))))
    noCustomOpt

def visitI32Sub := translator.visitSub stash .i32Sub .i32Add (.ofI32 0)
def visitI64Sub := translator.visitSub stash .i64Sub .i64Add (.ofI64 0)

/-! ## Shifts -/

/-- The visitors of the shifts and rotations. -/
def visitShift (op : ShiftOp) (shiftAmount : BitVec op.immType.bits → Option Const16)
    (makeInstrImmRegOpt : ImmOpt σ op.immType) : Except Failure (FuncTranslator σ) :=
  translator.translateShift stash op.immType shiftAmount (.binary (.shift op)) (.shiftBy op)
    (.binaryImm16Lhs (.shift op)) (.shift op) makeInstrImmRegOpt

def visitI32Shl := translator.visitShift stash .i32Shl Const16.shiftAmount32 noCustomOpt
def visitI32ShrS :=
  translator.visitShift stash .i32ShrS Const16.shiftAmount32 (constIf (-1) (.ofI32 (-1)))
def visitI32ShrU := translator.visitShift stash .i32ShrU Const16.shiftAmount32 noCustomOpt
def visitI32Rotl :=
  translator.visitShift stash .i32Rotl Const16.shiftAmount32 (constIf (-1) (.ofI32 (-1)))
def visitI32Rotr :=
  translator.visitShift stash .i32Rotr Const16.shiftAmount32 (constIf (-1) (.ofI32 (-1)))
def visitI64Shl := translator.visitShift stash .i64Shl Const16.shiftAmount64 noCustomOpt
def visitI64ShrS :=
  translator.visitShift stash .i64ShrS Const16.shiftAmount64 (constIf (-1) (.ofI64 (-1)))
def visitI64ShrU := translator.visitShift stash .i64ShrU Const16.shiftAmount64 noCustomOpt
def visitI64Rotl :=
  translator.visitShift stash .i64Rotl Const16.shiftAmount64 (constIf (-1) (.ofI64 (-1)))
def visitI64Rotr :=
  translator.visitShift stash .i64Rotr Const16.shiftAmount64 (constIf (-1) (.ofI64 (-1)))

/-! ## Divisions -/

/-- The visitors of the divisions and remainders. -/
def visitDivrem (op : DivRemOp) (makeInstrRegImmOpt : ImmOpt σ op.immType) :
    Except Failure (FuncTranslator σ) :=
  translator.translateDivrem stash op.immType (.tryBinary op) (.divremImm16Rhs op)
    (.tryBinaryImm16Lhs op) (TypedVal.divrem op) noCustomOpt makeInstrRegImmOpt

def visitI32DivS := translator.visitDivrem stash .i32DivS (registerIf stash 1)
def visitI32DivU := translator.visitDivrem stash .i32DivU (registerIf stash 1)
def visitI32RemS := translator.visitDivrem stash .i32RemS fun this _ rhs =>
  if rhs = 1 ∨ rhs = -1 then this.optConst (.ofI32 0) else .ok none
def visitI32RemU := translator.visitDivrem stash .i32RemU (constIf 1 (.ofI32 0))
def visitI64DivS := translator.visitDivrem stash .i64DivS (registerIf stash 1)
def visitI64DivU := translator.visitDivrem stash .i64DivU (registerIf stash 1)
def visitI64RemS := translator.visitDivrem stash .i64RemS fun this _ rhs =>
  if rhs = 1 ∨ rhs = -1 then this.optConst (.ofI64 0) else .ok none
def visitI64RemU := translator.visitDivrem stash .i64RemU (constIf 1 (.ofI64 0))

/-- The visitor of each operator that returns an integer. -/
def visitBinop : IntType → IntBinop → Except Failure (FuncTranslator σ)
  | .i32, .add => translator.visitI32Add stash
  | .i32, .sub => translator.visitI32Sub stash
  | .i32, .mul => translator.visitI32Mul stash
  | .i32, .divS => translator.visitI32DivS stash
  | .i32, .divU => translator.visitI32DivU stash
  | .i32, .remS => translator.visitI32RemS stash
  | .i32, .remU => translator.visitI32RemU stash
  | .i32, .and => translator.visitI32And stash
  | .i32, .or => translator.visitI32Or stash
  | .i32, .xor => translator.visitI32Xor stash
  | .i32, .shl => translator.visitI32Shl stash
  | .i32, .shrS => translator.visitI32ShrS stash
  | .i32, .shrU => translator.visitI32ShrU stash
  | .i32, .rotl => translator.visitI32Rotl stash
  | .i32, .rotr => translator.visitI32Rotr stash
  | .i64, .add => translator.visitI64Add stash
  | .i64, .sub => translator.visitI64Sub stash
  | .i64, .mul => translator.visitI64Mul stash
  | .i64, .divS => translator.visitI64DivS stash
  | .i64, .divU => translator.visitI64DivU stash
  | .i64, .remS => translator.visitI64RemS stash
  | .i64, .remU => translator.visitI64RemU stash
  | .i64, .and => translator.visitI64And stash
  | .i64, .or => translator.visitI64Or stash
  | .i64, .xor => translator.visitI64Xor stash
  | .i64, .shl => translator.visitI64Shl stash
  | .i64, .shrS => translator.visitI64ShrS stash
  | .i64, .shrU => translator.visitI64ShrU stash
  | .i64, .rotl => translator.visitI64Rotl stash
  | .i64, .rotr => translator.visitI64Rotr stash

/-- The visitor of each comparison. -/
def visitRelop : IntType → IntRelop → Except Failure (FuncTranslator σ)
  | .i32, .eq => translator.visitI32Eq stash
  | .i32, .ne => translator.visitI32Ne stash
  | .i32, .ltS => translator.visitI32LtS stash
  | .i32, .ltU => translator.visitI32LtU stash
  | .i32, .gtS => translator.visitI32GtS stash
  | .i32, .gtU => translator.visitI32GtU stash
  | .i32, .leS => translator.visitI32LeS stash
  | .i32, .leU => translator.visitI32LeU stash
  | .i32, .geS => translator.visitI32GeS stash
  | .i32, .geU => translator.visitI32GeU stash
  | .i64, .eq => translator.visitI64Eq stash
  | .i64, .ne => translator.visitI64Ne stash
  | .i64, .ltS => translator.visitI64LtS stash
  | .i64, .ltU => translator.visitI64LtU stash
  | .i64, .gtS => translator.visitI64GtS stash
  | .i64, .gtU => translator.visitI64GtU stash
  | .i64, .leS => translator.visitI64LeS stash
  | .i64, .leU => translator.visitI64LeU stash
  | .i64, .geS => translator.visitI64GeS stash
  | .i64, .geU => translator.visitI64GeU stash

/-! ## Selections -/

/-- The operand that a constant condition selects. -/
def pushSelected (float : FloatOps) (selected : TypedProvider) :
    Except Failure (FuncTranslator σ) :=
  match selected with
  | .register reg =>
    match translator.stack.regAlloc.registerSpace reg with
    | .dynamic | .preserve => do
      let (result, stack) ← translator.stack.pushDynamic
      let (_, encoder, consts) ← translator.encoder.encodeCopy float translator.visitPos
        stack.consts result selected translator.fuelInfo
      return { translator with encoder, stack := { stack with consts } }
    | .local | .const => do
      return translator.withStack (← translator.stack.pushProvider stash selected)
  | .const _ => do return translator.withStack (← translator.stack.pushProvider stash selected)

/-- The two words of a selection. -/
def pushSelect (instr param : Op) : Except Failure (FuncTranslator σ) := do
  let translator ← translator.pushFueledInstr instr (·.base)
  translator.appendInstr param

/-- `translate_select_regs`. -/
def translateSelectRegs (result condition lhs rhs : Reg) : Except Failure (FuncTranslator σ) :=
  translator.pushSelect (.select result lhs) (.register2 condition rhs)

/-- `translate_select_32`. -/
def translateSelect32 (result condition : Reg) (lhs rhs : TypedProvider) :
    Except Failure (FuncTranslator σ) :=
  match lhs, rhs with
  | .register _, .register _ => .error .panic
  | .register lhs, .const rhs =>
    translator.pushSelect (.selectImm32Rhs result lhs) (.registerAndImm32 condition rhs.value.toI32)
  | .const lhs, .register rhs =>
    translator.pushSelect (.selectImm32Lhs result lhs.value.toI32) (.register2 condition rhs)
  | .const lhs, .const rhs =>
    translator.pushSelect (.selectImm32 result lhs.value.toI32)
      (.registerAndImm32 condition rhs.value.toI32)

/-- A constant that does not fit in 32 bits takes a register. -/
def provider32 (const32 : UntypedVal → Option AnyConst32) (stack : ValueStack σ) :
    TypedProvider → Except Failure (Provider AnyConst32 × ValueStack σ)
  | .register reg => .ok (.register reg, stack)
  | .const value =>
    match const32 value.value with
    | some value => .ok (.const value, stack)
    | none => do
      let (reg, stack) ← stack.allocConst value.value
      return (.register reg, stack)

/-- `translate_select_i64` and `translate_select_f64`, with `Const32::try_from` of the type. -/
def translateSelect64 (const32 : UntypedVal → Option AnyConst32) (makeRhs : Reg → Reg → Op)
    (makeLhs makeBoth : Reg → AnyConst32 → Op) (result condition : Reg) (lhs rhs : TypedProvider) :
    Except Failure (FuncTranslator σ) := do
  let (lhs, stack) ← provider32 const32 translator.stack lhs
  let (rhs, stack) ← provider32 const32 stack rhs
  let translator := translator.withStack stack
  match lhs, rhs with
  | .register lhs, .register rhs => translator.translateSelectRegs result condition lhs rhs
  | .register lhs, .const rhs =>
    translator.pushSelect (makeRhs result lhs) (.registerAndImm32 condition rhs)
  | .const lhs, .register rhs =>
    translator.pushSelect (makeLhs result lhs) (.register2 condition rhs)
  | .const lhs, .const rhs =>
    translator.pushSelect (makeBoth result lhs) (.registerAndImm32 condition rhs)

def translateSelectI64 := translator.translateSelect64 AnyConst32.ofI64
  Op.selectI64Imm32Rhs Op.selectI64Imm32Lhs Op.selectI64Imm32

def translateSelectF64 (float : FloatOps) := translator.translateSelect64 (AnyConst32.ofF64 float)
  Op.selectF64Imm32Rhs Op.selectF64Imm32Lhs Op.selectF64Imm32

/-- `translate_select_reftype`. -/
def translateSelectReftype (result condition : Reg) (lhs rhs : TypedProvider) :
    Except Failure (FuncTranslator σ) := do
  let (lhs, stack) ← translator.stack.provider2reg lhs
  let (rhs, stack) ← stack.provider2reg rhs
  (translator.withStack stack).translateSelectRegs result condition lhs rhs

/-- The type of a constant operand. -/
def inferType : TypedProvider → TypedProvider → Option ValType
  | .register _, .register _ => none
  | .register _, .const rhs => some rhs.ty
  | .const lhs, _ => some lhs.ty

/-- The instructions for a selection with a constant operand, by its type. -/
def translateSelectOf (float : FloatOps) :
    Option ValType → Reg → Reg → TypedProvider → TypedProvider → Except Failure (FuncTranslator σ)
  | some .i32 | some .f32 => translator.translateSelect32
  | some .i64 => translator.translateSelectI64
  | some .f64 => translator.translateSelectF64 float
  | some .funcRef | some .externRef => translator.translateSelectReftype
  | none => fun _ _ _ _ => .error .panic

/-- `translate_select`; the type hint is that of a typed `select`. -/
def translateSelect (float : FloatOps) (typeHint : Option ValType) :
    Except Failure (FuncTranslator σ) :=
  if translator.reachable then do
    let (lhs, rhs, condition, stack) ← translator.stack.pop3 stash
    let translator := translator.withStack stack
    match condition with
    | .const condition =>
      translator.pushSelected stash float (if condition.value.toI32 ≠ 0 then lhs else rhs)
    | .register condition =>
      if lhs = rhs then return translator.withStack (← translator.stack.pushProvider stash lhs)
      match lhs, rhs with
      | .register lhs, .register rhs => do
        let (result, stack) ← translator.stack.pushDynamic
        (translator.withStack stack).translateSelectRegs result condition lhs rhs
      | lhs, rhs =>
        if typeHint ≠ none ∧ typeHint ≠ inferType lhs rhs then .error .panic
        else do
          let (result, stack) ← translator.stack.pushDynamic
          (translator.withStack stack).translateSelectOf float (inferType lhs rhs) result condition
            lhs rhs
  else .ok translator

/-- `visit_select`. -/
def visitSelect (float : FloatOps) := translator.translateSelect stash float none

/-- `visit_typed_select`. -/
def visitTypedSelect (float : FloatOps) (ty : ValType) :=
  translator.translateSelect stash float (some ty)

end FuncTranslator

end Translator

end MotokoDebugger
