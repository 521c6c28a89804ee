import MotokoDebugger.Translator.Branches
import MotokoDebugger.Translator.Operators

/-!
# Translation of the operators with one operand

`translate_unary`, `translate_reinterpret` and `translate_i64_extend_i32_u` of `translator/mod.rs`,
and the visitors of `translator/visit.rs` for integers that call them, with those of `eqz`.
-/

namespace MotokoDebugger

/-- The type of the result. -/
def IntUnaryOp.resultType : IntUnaryOp → ValType
  | .i32Clz | .i32Ctz | .i32Popcnt | .i32WrapI64 | .i32Extend8S | .i32Extend16S => .i32
  | .i64Clz | .i64Ctz | .i64Popcnt | .i64Extend8S | .i64Extend16S | .i64Extend32S => .i64

lemma IntUnaryOp.eval_upper {op : IntUnaryOp} (h : op.resultType = .i32 ∨ op.resultType = .f32)
    (value : UntypedVal) : op.eval value = .ofI32 (op.eval value).toI32 := by
  cases op with
  | i32Clz | i32Ctz | i32Popcnt | i32WrapI64 | i32Extend8S | i32Extend16S =>
    exact UntypedVal.ofI32_eq _
  | _ => simp [resultType] at h

namespace Translator

namespace TypedVal

/-- `TypedVal::i32_clz` and its siblings. `i64_extend_i32_s` takes the lower half of its operand, as
`i64_extend32_s` does. -/
def unary (op : IntUnaryOp) (value : TypedVal) : TypedVal where
  ty := op.resultType
  value := op.eval value.value
  upper h := op.eval_upper h value.value

/-- `TypedVal::reinterpret`. The types have the same width in valid code, so that the upper half of
a 32-bit value is zero already. -/
def reinterpret (ty : ValType) (value : TypedVal) : TypedVal where
  ty := ty
  value := if ty = .i32 ∨ ty = .f32 then .ofI32 value.value.toI32 else value.value
  upper h := by
    rw [if_pos h]
    exact UntypedVal.ofI32_eq _

end TypedVal

namespace FuncTranslator

variable {σ : Type} (stash : MultiStash σ) (translator : FuncTranslator σ)

/-- `translate_unary`. -/
def translateUnary (makeInstr : Reg → Reg → Op) (consteval : TypedVal → TypedVal) :
    Except Failure (FuncTranslator σ) :=
  if translator.reachable then do
    let (input, stack) ← translator.stack.pop stash
    match input with
    | .register input =>
      let (result, stack) ← stack.pushDynamic
      (translator.withStack stack).pushFueledInstr (makeInstr result input) (·.base)
    | .const input => return translator.withStack (← stack.pushConst (consteval input))
  else .ok translator

/-- `translate_reinterpret` and `translate_i64_extend_i32_u`: a register is left as it is. -/
def translateReinterpret (consteval : TypedVal → TypedVal) : Except Failure (FuncTranslator σ) :=
  if translator.reachable then do
    match ← translator.stack.peek with
    | .register _ => return translator
    | .const _ =>
      let (input, stack) ← translator.stack.pop stash
      match input with
      | .const input => return translator.withStack (← stack.pushConst (consteval input))
      | .register _ => throw .panic
  else .ok translator

def visitUnary (op : IntUnaryOp) :=
  translator.translateUnary stash (.unary (.int op)) (TypedVal.unary op)

def visitI32Clz := translator.visitUnary stash .i32Clz
def visitI32Ctz := translator.visitUnary stash .i32Ctz
def visitI32Popcnt := translator.visitUnary stash .i32Popcnt
def visitI64Clz := translator.visitUnary stash .i64Clz
def visitI64Ctz := translator.visitUnary stash .i64Ctz
def visitI64Popcnt := translator.visitUnary stash .i64Popcnt
def visitI32WrapI64 := translator.visitUnary stash .i32WrapI64
def visitI64ExtendI32S := translator.visitUnary stash .i64Extend32S
def visitI64ExtendI32U :=
  translator.translateReinterpret stash fun value =>
    .ofI64 (UntypedVal.ofI32 value.value.toI32)
def visitI32ReinterpretF32 := translator.translateReinterpret stash (TypedVal.reinterpret .i32)
def visitI64ReinterpretF64 := translator.translateReinterpret stash (TypedVal.reinterpret .i64)
def visitF32ReinterpretI32 := translator.translateReinterpret stash (TypedVal.reinterpret .f32)
def visitF64ReinterpretI64 := translator.translateReinterpret stash (TypedVal.reinterpret .f64)
def visitI32Extend8S := translator.visitUnary stash .i32Extend8S
def visitI32Extend16S := translator.visitUnary stash .i32Extend16S
def visitI64Extend8S := translator.visitUnary stash .i64Extend8S
def visitI64Extend16S := translator.visitUnary stash .i64Extend16S
def visitI64Extend32S := translator.visitUnary stash .i64Extend32S

/-! ## Comparisons with zero -/

/-- `visit_i32_eqz`: fused with the instruction in front of it, or a comparison with zero. -/
def visitI32Eqz : Except Failure (FuncTranslator σ) :=
  if translator.reachable then do
    let input ← translator.stack.peek
    match ← translator.encoder.fuseI32Eqz translator.stack.regAlloc.registerSpace input with
    | some encoder => return { translator with encoder }
    | none =>
      let stack ← translator.stack.pushConst (.ofI32 0)
      (translator.withStack stack).visitI32Eq stash
  else .ok translator

/-- `visit_i64_eqz`. -/
def visitI64Eqz : Except Failure (FuncTranslator σ) :=
  if translator.reachable then do
    let stack ← translator.stack.pushConst (.ofI64 0)
    (translator.withStack stack).visitI64Eq stash
  else .ok translator

end FuncTranslator

end Translator

end MotokoDebugger
