import MotokoDebugger.Executor.Instrs
import MotokoDebugger.Lib.Runs

/-!
# The plain engine

`Executor::execute` and `EngineExecutor::execute_root_func`: a call of a function from outside
without a debugger. The loop takes a bound on the number of instructions and returns `none` where
it does not suffice.
-/

namespace MotokoDebugger

namespace Executor

open StateExcept Runs

variable {T : Type}

/-- `Executor::execute`. -/
def execute (env : Engine T) : Nat → ExecM T (Option Unit)
  | 0 => return none
  | fuel + 1 => do
    match ← executeOne env with
    | .continue_ => execute env fuel
    | .break_ => return some ()

/-- The beginning of `execute_root_func`: reserves the result cells and pushes the frame of a
compiled function. -/
def enterRootFunc (env : Engine T) (wasmFunc : WasmFuncEntity) (lenResults : Nat)
    (params : List UntypedVal) : ExecM T Unit := do
  let values ← liftTrap ((← get).stack.values.extendBy lenResults)
  setValues values
  let (values, offsets) ← liftTrap (values.allocCallFrame (env.codeMap wasmFunc.body))
  let values ← assume (values.initParams offsets params)
  setValues values
  let frame : CallFrame :=
    { func := wasmFunc.body, instrPtr := ⟨wasmFunc.body, 0⟩, offsets, results := ⟨0⟩ }
  pushFrame frame (some wasmFunc.inst)

/-- `CachedInstance::new` and `Executor::new`. -/
def newExecutor : ExecM T Unit := do
  let inst ← unwrap (← get).stack.calls.instance_
  updateCache inst
  let frame ← unwrap (← get).stack.calls.peek
  initCallFrame frame

/-- The lowest cells of the value stack, where the results of the root function are. -/
def rootResults (lenResults : Nat) : ExecM T (List UntypedVal) := do
  unwrap (slice? (← get).stack.values.values 0 lenResults)

/-- `EngineExecutor::execute_root_func`. -/
def executeRootFunc (env : Engine T) (func : Nat) (params : List UntypedVal) (lenResults : Nat)
    (fuel : Nat) : ExecM T (Option (List UntypedVal)) := do
  modify fun m => { m with stack := m.stack.reset }
  match ← unwrap (← get).store.funcs[func]? with
  | .wasm wasmFunc =>
    enterRootFunc env wasmFunc lenResults params
    invokeCallHook env .callingWasm
    newExecutor
    match ← execute env fuel with
    | none => return none
    | some _ =>
      invokeCallHook env .returningFromWasm
      return some (← rootResults lenResults)
  | .host hostFunc =>
    let maxInout := max hostFunc.lenParams hostFunc.lenResults
    let buffer := (← get).stack.values.values.length
    let values ← liftTrap ((← get).stack.values.extendBy maxInout)
    setValues { values with
      values := overwrite values.values buffer (params.take maxInout) }
    dispatchHostFunc env hostFunc none
    return some (← rootResults lenResults)

end Executor

end MotokoDebugger
