import MotokoDebugger.Executor.Call

/-!
# Returns

`executor/instrs/return_.rs`. A return writes its values to the result registers of the caller,
or to the bottom of the value stack where the root frame returns.
-/

namespace MotokoDebugger

variable {T : Type}

/-- `ControlFlow<(), ()>`: `break` where the root frame has returned. -/
inductive ControlFlow where
  | continue_
  | break_
deriving Repr, DecidableEq

/-- The cells the results of the topmost frame go to: those of its caller, which end where the
topmost frame starts. -/
structure ResultCells where
  first : Nat
  base : Nat
  stop : Nat
deriving Repr, DecidableEq

/-- The result cells of the topmost frame and the registers in them. The root frame has no caller:
its results go to the bottom of the value stack. -/
def ResultCells.ofCalls (calls : CallStack) : Option (ResultCells × RegSpan) :=
  match calls.frames with
  | [] => none
  | [callee] => some (⟨0, 0, callee.offsets.frame⟩, ⟨0⟩)
  | callee :: caller :: _ =>
    some (⟨caller.offsets.frame, caller.offsets.base, callee.offsets.frame⟩, callee.results)

/-- The cell of a result register; `none` outside of the caller's frame. -/
def ResultCells.index (cells : ResultCells) (reg : Reg) : Option Nat :=
  let i := (cells.base : Int) + reg.toInt
  if (cells.first : Int) ≤ i ∧ i < cells.stop then some i.toNat else none

/-- Writes results to their cells. -/
def ResultCells.write (cells : ResultCells) :
    List (Reg × UntypedVal) → List UntypedVal → Option (List UntypedVal)
  | [], values => some values
  | (reg, value) :: results, values =>
    match cells.index reg with
    | some i => cells.write results (values.set i value)
    | none => none

namespace Executor

open StateExcept

/-- `Executor::return_impl`. -/
def returnImpl : ExecM T ControlFlow := do
  let (returned, poppedInstance, calls) ← unwrap (← get).stack.calls.pop
  modifyCalls fun _ => calls
  let values := (← get).stack.values
  if values.values.length < returned.offsets.frame then
    throw .panic
  setValues (values.truncate returned.offsets.frame)
  match poppedInstance.bind fun _ => calls.instance_ with
  | some newInstance => updateCache newInstance
  | none => pure ()
  match calls.peek with
  | some caller =>
    initCallFrame caller
    return .continue_
  | none => return .break_

/-- `Executor::return_caller_results`. -/
def returnCallerResults : ExecM T (ResultCells × RegSpan) := do
  unwrap (ResultCells.ofCalls (← get).stack.calls)

/-- Writes `values` to the registers `results` of the caller. The cells that are read belong to
the returning frame, so reading all of them first makes no difference. -/
def setResults (cells : ResultCells) (results : List Reg) (values : List UntypedVal) :
    ExecM T Unit := do
  let stack := (← get).stack.values
  let values ← assume (cells.write (results.zip values) stack.values)
  setValues { stack with values }

/-- `Executor::execute_return_value`. -/
def executeReturnValue (value : LocalM T UntypedVal) : ExecM T ControlFlow := do
  let (cells, results) ← returnCallerResults
  let value ← stepLocal value
  setResults cells [results.head] [value]
  returnImpl

/-- `execute_return_reg_n_impl` and `execute_return_span`. -/
def executeReturnRegs (regs : List Reg) : ExecM T ControlFlow := do
  let (cells, results) ← returnCallerResults
  let results ← unwrap (results.iter regs.length)
  let values ← stepLocal (regs.mapM getRegister)
  setResults cells results values
  returnImpl

def executeReturnSpan (values : BoundedRegSpan) : ExecM T ControlFlow := do
  let regs ← unwrap values.iter
  executeReturnRegs regs

/-- `Executor::copy_many_return_values`: the register list at `ip` follows `values`. -/
def copyManyReturnValues (env : Engine T) (ip : InstructionPtr) (values : List Reg) :
    ExecM T Unit := do
  let (cells, results) ← returnCallerResults
  let (regs, _) ← stepLocal (registerListAt env ip)
  let regs := values ++ regs
  let values ← stepLocal (regs.mapM getRegister)
  setResults cells ((List.range regs.length).map results.head.nextN) values

/-- `Executor::execute_return_many`: the instruction pointer moves before anything else. -/
def executeReturnMany (env : Engine T) (values : List Reg) : ExecM T ControlFlow := do
  stepLocal nextInstr
  copyManyReturnValues env (← get).ip values
  returnImpl

/-- `Executor::execute_return_nez_impl`. -/
def executeReturnNezImpl (condition : Reg) (f : ExecM T ControlFlow) : ExecM T ControlFlow := do
  let condition ← stepLocal (getRegister condition)
  if condition.toBool then f
  else
    stepLocal nextInstr
    return .continue_

/-- `Executor::execute_return_nez_many`. -/
def executeReturnNezMany (env : Engine T) (condition : Reg) (values : List Reg) :
    ExecM T ControlFlow := do
  let condition ← stepLocal (getRegister condition)
  stepLocal nextInstr
  if condition.toBool then
    copyManyReturnValues env (← get).ip values
    returnImpl
  else
    stepLocal do
      let ip ← skipRegisterList env (← get).ip
      modify fun s => { s with ip }
    return .continue_

/-- `Executor::execute_branch_table_many`. Where the chosen target is a `Return`, the values are
already copied to the results of the caller and the `Return` is executed next. -/
def executeBranchTableMany (env : Engine T) (index : Reg) (lenTargets : Nat) : ExecM T Unit := do
  let offset ← stepLocal (fetchBranchTableOffset index lenTargets)
  stepLocal nextInstr
  let ipList := (← get).ip
  stepLocal do
    let ip ← skipRegisterList env ipList
    modify fun s => { s with ip := ip.add (offset - 1) }
  match ← stepLocal do getInstr env (← get).ip with
  | .branchTableTarget results offset =>
    stepLocal do
      let _ ← executeCopyManyImpl env ipList results []
      executeBranch offset
  | .branchTableTargetNonOverlapping results offset =>
    stepLocal do
      let _ ← executeCopyManyNonOverlappingImpl env ipList results []
      executeBranch offset
  | .return_ => copyManyReturnValues env ipList []
  | _ => throw .undefined

/-! ## The return instructions -/

/-- The effect of a return instruction; the methods `execute_return*` by instruction. -/
def executeReturn (env : Engine T) (op : Op) : ExecM T ControlFlow :=
  match op with
  | .return_ => returnImpl
  | .returnReg value => executeReturnValue (getRegister value)
  | .returnReg2 value0 value1 => executeReturnRegs [value0, value1]
  | .returnReg3 value0 value1 value2 => executeReturnRegs [value0, value1, value2]
  | .returnImm32 value => executeReturnValue (pure (.ofI32 value))
  | .returnI64Imm32 value => executeReturnValue (pure value.toI64)
  | .returnF64Imm32 value => executeReturnValue (pure (env.float.f64OfConst32 value))
  | .returnSpan values => executeReturnSpan values
  | .returnMany value0 value1 value2 => executeReturnMany env [value0, value1, value2]
  | .returnNez condition => executeReturnNezImpl condition returnImpl
  | .returnNezReg condition value =>
    executeReturnNezImpl condition (executeReturnValue (getRegister value))
  | .returnNezReg2 condition value0 value1 =>
    executeReturnNezImpl condition (executeReturnRegs [value0, value1])
  | .returnNezImm32 condition value =>
    executeReturnNezImpl condition (executeReturnValue (pure (.ofI32 value)))
  | .returnNezI64Imm32 condition value =>
    executeReturnNezImpl condition (executeReturnValue (pure value.toI64))
  | .returnNezF64Imm32 condition value =>
    executeReturnNezImpl condition (executeReturnValue (pure (env.float.f64OfConst32 value)))
  | .returnNezSpan condition values => executeReturnNezImpl condition (executeReturnSpan values)
  | .returnNezMany condition value0 value1 => executeReturnNezMany env condition [value0, value1]
  | _ => throw .undefined

end Executor

end MotokoDebugger
