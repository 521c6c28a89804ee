import MotokoDebugger.Translator.Branches
import MotokoDebugger.Translator.Operators

/-!
# Translation of accesses to locals

`encode_local_set` of `translator/instr_encoder.rs`, and the visitors of `local.get`, `local.set`
and `local.tee`. `notify_preserved_register` is left out: it only spares work in the
defragmentation.
-/

namespace MotokoDebugger.Translator

open RegisterAlloc

namespace InstrEncoder

variable (float : FloatOps) (enc : InstrEncoder) (instrOffset : Nat) (consts : FuncLocalConsts)
  («local» : Reg) (value : TypedProvider) (preserved : Option Reg) (fuelInfo : FuelInfo)

/-- The copy of the old value in `fallback_case` of `encode_local_set`. -/
def copyPreserved : Except Failure InstrEncoder :=
  match preserved with
  | some preserved => do
    return (← enc.pushFueled ⟨instrOffset, .copy preserved «local»⟩ fuelInfo).2
  | none => .ok enc

/-- `fallback_case` of `encode_local_set`: copies. -/
def copyLocalSet : Except Failure (InstrEncoder × FuncLocalConsts) := do
  let enc ← enc.copyPreserved instrOffset «local» preserved fuelInfo
  let (_, enc, consts) ← enc.encodeCopy float instrOffset consts «local» value fuelInfo
  return (enc, consts)

/-- The last instruction has at least four words, or reads the register that the local is preserved
in: no copy to that register goes in front of it. -/
def keepsLast (lastInstr : Nat) : Except Failure Bool :=
  match preserved with
  | none => .ok false
  | some preserved => do
    let next ← enc.nextInstr
    return 4 ≤ next - lastInstr || (enc.instrs.drop lastInstr).any (·.op.Uses preserved)

/-- `encode_local_set`. -/
def encodeLocalSet (lenResults : Op → Nat) (space : Reg → RegisterSpace) :
    Except Failure (InstrEncoder × FuncLocalConsts) :=
  let fallback := enc.copyLocalSet float instrOffset consts «local» value preserved fuelInfo
  match value, enc.lastInstr with
  | .register returned, some lastInstr =>
    if space returned = .local ∨ space returned = .preserve then fallback
    else do
      if ← enc.keepsLast preserved lastInstr then fallback
      else
        match ← enc.relinkLocalSet lenResults instrOffset «local» returned preserved fuelInfo with
        | some enc => return (enc, consts)
        | none => fallback
  | _, _ => fallback

end InstrEncoder

namespace FuncTranslator

variable {σ : Type} (stash : MultiStash σ) (float : FloatOps) (lenResults : Op → Nat)
  (translator : FuncTranslator σ) (localIndex : UInt32)

/-- `visit_local_get`. -/
def visitLocalGet : Except Failure (FuncTranslator σ) :=
  if translator.reachable then do
    let (_, stack) ← translator.stack.pushLocal localIndex
    return translator.withStack stack
  else .ok translator

/-- `visit_local_set`. -/
def visitLocalSet : Except Failure (FuncTranslator σ) :=
  if translator.reachable then do
    let stack ← translator.stack.gcPreservations stash
    let (value, stack) ← stack.pop stash
    if localIndex.toNat < 2 ^ 15 then
      let «local» := Int16.ofNat localIndex.toNat
      if value = .register «local» then return translator.withStack stack
      let (preserved, stack) ← stack.preserveLocals stash localIndex.toNat
      let (encoder, consts) ← translator.encoder.encodeLocalSet float translator.visitPos
        stack.consts «local» value preserved translator.fuelInfo lenResults
        stack.regAlloc.registerSpace
      return { translator with encoder, stack := { stack with consts } }
    else throw (.error .registerOutOfBounds)
  else .ok translator

/-- `visit_local_tee`. -/
def visitLocalTee : Except Failure (FuncTranslator σ) :=
  if translator.reachable then do
    let input ← translator.stack.peek
    let translator ← translator.visitLocalSet stash float lenResults localIndex
    match input with
    | .register _ =>
      let (_, stack) ← translator.stack.pushLocal localIndex
      return translator.withStack stack
    | .const value => return translator.withStack (← translator.stack.pushConst value)
  else .ok translator

/-- `visit_i32_const` and its siblings. -/
def visitConst (value : TypedVal) : Except Failure (FuncTranslator σ) :=
  if translator.reachable then do
    return translator.withStack (← translator.stack.pushConst value)
  else .ok translator

/-- `visit_drop`. -/
def visitDrop : Except Failure (FuncTranslator σ) :=
  if translator.reachable then do
    return translator.withStack (← translator.stack.drop stash)
  else .ok translator

end FuncTranslator

end MotokoDebugger.Translator
