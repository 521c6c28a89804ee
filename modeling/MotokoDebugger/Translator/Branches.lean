import MotokoDebugger.Translator.Comparator
import MotokoDebugger.Translator.InstrEncoder
import MotokoDebugger.Translator.RegisterAlloc
import MotokoDebugger.Translator.VisitRegs

/-!
# Encoding of branches

The part of `translator/instr_encoder.rs` that encodes branches, and what it does to instructions
after their emission.

* `encodeBranchEqz`, `encodeBranchNez`: a conditional branch, fused with a comparison in front of it.
* `fuseI32Eqz`, `relinkLocalSet`, `defragRegisters`: instructions that are replaced or moved.
* `updateBranchOffsets`: the offsets to labels that were pinned after their branches.
-/

namespace MotokoDebugger

/-- `BranchOffset16::try_from`. -/
def BranchOffset16.tryFrom (offset : BranchOffset) : Option BranchOffset16 :=
  if -2 ^ 15 ≤ offset.toInt ∧ offset.toInt < 2 ^ 15 then some (Int16.ofInt offset.toInt) else none

namespace Translator

namespace InstrEncoder

variable (enc : InstrEncoder)

/-! ## Labels -/

/-- `new_label`. -/
def newLabel : Nat × InstrEncoder :=
  let (label, labels) := enc.labels.newLabel
  (label, { enc with labels })

/-- `pin_label`. -/
def pinLabel (label : Nat) : Except Failure InstrEncoder := do
  let labels ← enc.labels.pinLabel label (← enc.nextInstr)
  return { enc with labels }

/-- `pin_label_if_unpinned`. -/
def pinLabelIfUnpinned (label : Nat) : Except Failure InstrEncoder := do
  let labels ← enc.labels.tryPinLabel label (← enc.nextInstr)
  return { enc with labels }

/-- `try_resolve_label_for`. -/
def tryResolveLabelFor (label instr : Nat) : Except Failure (BranchOffset × InstrEncoder) := do
  let (offset, labels) ← enc.labels.tryResolveLabel label instr
  return (offset, { enc with labels })

/-- `try_resolve_label`. -/
def tryResolveLabel (label : Nat) : Except Failure (BranchOffset × InstrEncoder) := do
  enc.tryResolveLabelFor label (← enc.nextInstr)

/-! ## Replaced instructions -/

/-- `InstrSequence::push_before`. -/
def pushBefore (instr : Nat) (instruction : Instruction) : Except Failure (Nat × InstrEncoder) :=
  if instr + 1 < 2 ^ 32 then
    .ok (instr + 1, { enc with instrs := enc.instrs.insertIdx instr instruction })
  else .error .panic

/-- The part of `encode_local_set` that writes the result of the last instruction to the local, with
the copy that preserves its old value in front of it. `none` where the encoder emits a copy
instead. -/
def relinkLocalSet (lenResults : Op → Nat) (instrOffset : Nat) («local» value : Reg)
    (preserved : Option Reg) (fuelInfo : FuelInfo) : Except Failure (Option InstrEncoder) := do
  match enc.lastInstr with
  | none => return none
  | some lastInstr =>
    match enc.instrs[lastInstr]? with
    | none => throw .panic
    | some last =>
      match last.op.relinkResult lenResults «local» value with
      | none => return none
      | some op =>
        let enc := { enc with instrs := enc.instrs.set lastInstr ⟨last.instrOffset, op⟩ }
        match preserved with
        | none => return some enc
        | some preserved =>
          let enc ← enc.bumpFuelConsumption fuelInfo (·.base)
          let (shifted, enc) ← enc.pushBefore lastInstr ⟨instrOffset, .copy preserved «local»⟩
          return some { enc with lastInstr := some shifted }

/-- The operators that `fuse_i32_eqz` replaces. -/
def fuseEqz : ArithOp → Option ArithOp
  | .i32And => some .i32AndEqz
  | .i32Or => some .i32OrEqz
  | .i32Xor => some .i32XorEqz
  | _ => none

/-- The instruction that computes `i32.eqz` of the result of an instruction. -/
def fuseEqzOp : Op → Option Op
  | .binary (.arith op) result lhs rhs =>
    (fuseEqz op).map fun op => .binary (.arith op) result lhs rhs
  | .binaryImm16 (.arith op) result lhs rhs =>
    (fuseEqz op).map fun op => .binaryImm16 (.arith op) result lhs rhs
  | _ => none

variable (space : Reg → RegisterSpace)

/-- `fuse_i32_eqz`, where `input` is the top of the stack. `none` if it could not fuse. -/
def fuseI32Eqz (input : TypedProvider) : Except Failure (Option InstrEncoder) := do
  match input, enc.lastInstr with
  | .register input, some lastInstr =>
    match enc.instrs[lastInstr]? with
    | none => throw .panic
    | some last =>
      match fuseEqzOp last.op, last.op.resultReg with
      | some fused, some result =>
        if space result = .local then return none
        if result ≠ input then return none
        return some { enc with instrs := enc.instrs.set lastInstr ⟨last.instrOffset, fused⟩ }
      | _, _ => return none
  | _, _ => return none

/-- The renaming of `defrag_registers` by `defragRegister`, from the first preservation on. -/
def defragRegisters (defragRegister : Reg → Reg) (notifiedPreservation : Option Nat) :
    InstrEncoder :=
  match notifiedPreservation with
  | none => enc
  | some preserved =>
    { enc with
      instrs := enc.instrs.mapIdx fun i instr =>
        if i < preserved then instr
        else ⟨instr.instrOffset, instr.op.visitInputRegisters defragRegister⟩ }

/-! ## Conditional branches -/

/-- `make_branch_cmp_fallback`. -/
def makeBranchCmpFallback (instrOffset : Nat) (consts : FuncLocalConsts) (cmp : Comparator)
    (lhs rhs : Reg) (offset : BranchOffset) : Except Failure (Instruction × FuncLocalConsts) := do
  let (params, consts) ← consts.alloc (ComparatorAndOffset.asU64 ⟨cmp, offset⟩)
  return (⟨instrOffset, .branchCmpFallback lhs rhs params⟩, consts)

/-- The end of `try_fuse_branch_cmp`: a 16-bit form where the offset fits, a fallback otherwise. -/
def branchCmp (instrOffset : Nat) (consts : FuncLocalConsts) (cmp : Comparator) (lhs rhs : Reg)
    (offset : BranchOffset) : Except Failure (Instruction × FuncLocalConsts) :=
  match BranchOffset16.tryFrom offset with
  | some offset => .ok (⟨instrOffset, .branchCmp cmp lhs rhs offset⟩, consts)
  | none => makeBranchCmpFallback instrOffset consts cmp lhs rhs offset

/-- The same with an immediate of the type, which takes the register of a constant in a fallback. -/
def branchCmpImm (instrOffset : Nat) (consts : FuncLocalConsts) (ty : ImmType)
    (cmp : ImmComparator) (lhs : Reg) (rhs : Const16) (offset : BranchOffset) :
    Except Failure (Instruction × FuncLocalConsts) :=
  match BranchOffset16.tryFrom offset with
  | some offset => .ok (⟨instrOffset, .branchCmpImm cmp lhs rhs offset⟩, consts)
  | none => do
    let (rhs, consts) ← consts.alloc (rhs.toUntyped ty)
    makeBranchCmpFallback instrOffset consts cmp.toComparator lhs rhs offset

/-- `try_fuse_branch_cmp_for_instr` and the functions that it calls. The branch takes the place of
the comparison, unless its result is a local or another register than the condition. -/
def tryFuseBranchCmpForInstr (consts : FuncLocalConsts) (lastInstr : Nat) (last : Instruction)
    (condition : Reg) (label : Nat) (cmp : Comparator) :
    Except Failure (Option (Instruction × InstrEncoder × FuncLocalConsts)) := do
  match last.op with
  | .binary op result lhs rhs =>
    if op.comparator = none ∨ space result = .local ∨ result ≠ condition then return none
    let (offset, enc) ← enc.tryResolveLabelFor label lastInstr
    let (fused, consts) ← branchCmp last.instrOffset consts cmp lhs rhs offset
    return some (fused, enc, consts)
  | .binaryImm16 op result lhs rhs =>
    if op.comparator = none ∨ space result = .local ∨ result ≠ condition then return none
    match cmp.branchCmpInstrImm op.immType with
    | none => throw .panic
    | some cmp =>
      let (offset, enc) ← enc.tryResolveLabelFor label lastInstr
      let (fused, consts) ← branchCmpImm last.instrOffset consts op.immType cmp lhs rhs offset
      return some (fused, enc, consts)
  | _ => return none

/-- `encode_branch_eqz_unopt` and `encode_branch_nez_unopt`: the condition is compared with zero. -/
def encodeBranchUnopt (cmp : IntComparison) (instrOffset : Nat) (consts : FuncLocalConsts)
    (condition : Reg) (label : Nat) : Except Failure (InstrEncoder × FuncLocalConsts) := do
  let (offset, enc) ← enc.tryResolveLabel label
  let (instr, consts) ← branchCmpImm instrOffset consts .i32 (.int cmp) condition 0 offset
  let (_, enc) ← enc.pushInstr instr
  return (enc, consts)

/-- A conditional branch, where `branchOn` is the comparator of the fused branch for that of the
comparison, and `unopt` the comparison with zero. -/
def encodeBranchCond (branchOn : Comparator → Option Comparator) (unopt : IntComparison)
    (instrOffset : Nat) (consts : FuncLocalConsts) (condition : Reg) (label : Nat) :
    Except Failure (InstrEncoder × FuncLocalConsts) := do
  match enc.lastInstr with
  | none => enc.encodeBranchUnopt unopt instrOffset consts condition label
  | some lastInstr =>
    match enc.instrs[lastInstr]? with
    | none => throw .panic
    | some last =>
      match (Comparator.fromCmpInstruction last.op).bind branchOn with
      | none => enc.encodeBranchUnopt unopt instrOffset consts condition label
      | some cmp =>
        match ← enc.tryFuseBranchCmpForInstr space consts lastInstr last condition label cmp with
        | some (fused, enc, consts) =>
          return ({ enc with instrs := enc.instrs.set lastInstr fused }, consts)
        | none => enc.encodeBranchUnopt unopt instrOffset consts condition label

/-- `encode_branch_eqz`. -/
def encodeBranchEqz (instrOffset : Nat) (consts : FuncLocalConsts) (condition : Reg)
    (label : Nat) : Except Failure (InstrEncoder × FuncLocalConsts) :=
  enc.encodeBranchCond space Comparator.negate .i32Eq instrOffset consts condition label

/-- `encode_branch_nez`. -/
def encodeBranchNez (instrOffset : Nat) (consts : FuncLocalConsts) (condition : Reg)
    (label : Nat) : Except Failure (InstrEncoder × FuncLocalConsts) :=
  enc.encodeBranchCond space some .i32Ne instrOffset consts condition label

end InstrEncoder

/-! ## Offsets of pinned labels -/

/-- The assertions of `BranchOffset::init` and `BranchOffset16::init`. -/
def assertInit (offset : Int) (newOffset : BranchOffset) : Except Failure Unit :=
  if newOffset.toInt ≠ 0 ∧ offset = 0 then .ok () else .error .panic

/-- `update_branch_offset`. -/
def updateBranchOffset (consts : FuncLocalConsts) (instr : Instruction)
    (newOffset : BranchOffset) : Except Failure (Instruction × FuncLocalConsts) := do
  match instr.op with
  | .branch offset =>
    assertInit offset.toInt newOffset
    return (⟨instr.instrOffset, .branch newOffset⟩, consts)
  | .branchTableTarget results offset =>
    assertInit offset.toInt newOffset
    return (⟨instr.instrOffset, .branchTableTarget results newOffset⟩, consts)
  | .branchTableTargetNonOverlapping results offset =>
    assertInit offset.toInt newOffset
    return (⟨instr.instrOffset, .branchTableTargetNonOverlapping results newOffset⟩, consts)
  | .branchCmp cmp lhs rhs offset =>
    assertInit offset.toInt newOffset
    InstrEncoder.branchCmp instr.instrOffset consts cmp lhs rhs newOffset
  | .branchCmpImm cmp lhs rhs offset =>
    assertInit offset.toInt newOffset
    InstrEncoder.branchCmpImm instr.instrOffset consts cmp.immType cmp lhs rhs newOffset
  | _ => throw .panic

/-- The loop of `update_branch_offsets`. -/
def updateUsers (labels : LabelRegistry) (consts : FuncLocalConsts) :
    List LabelUser → List Instruction → Except Failure (List Instruction × FuncLocalConsts)
  | [], instrs => .ok (instrs, consts)
  | user :: users, instrs => do
    let offset ← labels.resolveUser user
    match instrs[user.user]? with
    | none => throw .panic
    | some instr =>
      let (instr, consts) ← updateBranchOffset consts instr offset
      updateUsers labels consts users (instrs.set user.user instr)

/-- `update_branch_offsets`. -/
def InstrEncoder.updateBranchOffsets (enc : InstrEncoder) (consts : FuncLocalConsts) :
    Except Failure (InstrEncoder × FuncLocalConsts) := do
  let (instrs, consts) ← updateUsers enc.labels consts enc.labels.users enc.instrs
  return ({ enc with instrs }, consts)

end Translator

end MotokoDebugger
