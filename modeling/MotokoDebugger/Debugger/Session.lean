import MotokoDebugger.Executor.Instrs
import MotokoDebugger.Debugger.Breakpoints

/-!
# The debugger

`debugger/src/debugger.rs` and `Executor::execute_step`: the state of `MainDebugger`, the callbacks
the executor makes into it, and its requests. The loops of the requests take a bound on the number
of steps and return `none` where it does not suffice.

* `Session`, `executeStep`: the state and one step of the executor under the debugger.
* `step`, `process`, `run`, `runStep`, `instantiate`: the requests.
-/

namespace MotokoDebugger

open StateExcept Executor

variable {T : Type}

/-! ## The state of the debugger -/

/-- A typed value, by its bits. -/
structure Val where
  ty : ValType
  bits : UntypedVal
deriving Repr, DecidableEq

/-- `InstanceWithName`, with the exported functions of the instance. The names of the locals are
listed for each function, with their indices. -/
structure InstanceWithName where
  inner : Nat
  importFuncLen : Nat
  funcNames : List (Nat × String)
  localNames : List (Nat × List (Nat × String)) := []
  exportedFuncs : List (String × Nat)
deriving Repr, DecidableEq

/-- The executor the debugger keeps. A stale one was made before the module was last
instantiated: its pointers refer to an engine and a store that are gone. -/
inductive ExecutorStatus where
  | absent
  | live
  | stale
deriving Repr, DecidableEq

/-- The state of `MainDebugger` and of the static stack and store it works on. The registers of
`machine` belong to the executor and mean nothing without one. The invoked functions are listed
with the last one first. -/
structure Session (T : Type) where
  machine : Machine T
  executor : ExecutorStatus
  inst : Option InstanceWithName
  startFnIdx : Option Nat
  runFunc : Option Nat
  invokedFuncIndex : List Nat
  breakpoints : Breakpoints
  isInterrupted : Bool

/-- A computation of the debugger. -/
abbrev DbgM (T : Type) := EStateM Stop (Session T)

/-- The executor, the stack and the store as a part of the session. -/
def Session.machine_ : Part (Session T) (Machine T) where
  get := machine
  put := fun machine s => { s with machine }

/-- Runs a step of the executor. -/
def onMachine {α : Type} (x : ExecM T α) : DbgM T α := zoom Session.machine_ x

/-- An `anyhow` error. -/
def bail {σ α : Type} (text : String) : EStateM Stop σ α := throw (.fault (.message text))

namespace Debugger

/-- `MainDebugger::executor`. -/
def requireExecutor : DbgM T Unit := do
  match (← get).executor with
  | .live => pure ()
  | .absent => bail "No execution context"
  | .stale => throw .undefined

/-- `MainDebugger::get_func_name_by_idx`. -/
def funcNameByIdx (s : Session T) (funcIdx : Nat) : Option String :=
  s.inst.bind fun inst => inst.funcNames.lookup funcIdx

/-! ## The callbacks of the executor -/

/-- A 32-bit signed index cast to `u32`. -/
def asU32 (index : Int) : Nat := (index % 2 ^ 32).toNat

/-- The index of the function in a slot of a table: the index of its entity in the store. -/
def tableFuncIdx (store : Store T) (table : Nat) (index : Nat) : Option Nat := do
  let table ← store.tables[table]?
  let funcref ← table.elements[index]?
  FuncRef.func funcref

/-- The end of `invoke_func`: records the function and looks its name up in the breakpoints. -/
def recordFunc (funcIdx : Nat) : DbgM T Signal := do
  modify fun s => { s with invokedFuncIndex := funcIdx :: s.invokedFuncIndex }
  let s ← get
  match funcNameByIdx s funcIdx with
  | some name => return if s.breakpoints.shouldBreakFunc name then .breakpoint else .next
  | none => return .next

/-- `Interceptor::invoke_func`. -/
def invokeFunc (funcIdx : Int) (table : Option Nat) : DbgM T Signal := do
  match table with
  | none => recordFunc (asU32 funcIdx)
  | some table =>
    let funcIdx ← unwrap (tableFuncIdx (← get).machine.store table (asU32 funcIdx))
    recordFunc funcIdx

/-- `Interceptor::pop_frame`. -/
def popFrame : DbgM T Unit :=
  modify fun s => { s with invokedFuncIndex := s.invokedFuncIndex.tail }

/-- `Interceptor::execute_inst`: stops once, at the first instruction of the main file. -/
def executeInst (instrOffset : Nat) : DbgM T Signal := do
  let s ← get
  if s.isInterrupted ∧ instrOffset ∈ s.breakpoints.instInFile0 then
    set { s with isInterrupted := false }
    return .breakpoint
  else return .next

/-- `Interceptor::get_import_func_len`. -/
def getImportFuncLen : DbgM T Nat := do return (← unwrap (← get).inst).importFuncLen

/-! ## One step -/

/-- The callback for the function that was called, if one is reported. -/
def reportCall (report : InstrReport) : DbgM T Signal := do
  if report.callIdx ≠ -1 then
    match report.tableIdx with
    | some tableIdx =>
      let table ← onMachine (stepLocal (getTable tableIdx))
      invokeFunc report.callIdx (some table)
    | none => invokeFunc report.callIdx none
  else return .next

/-- The signal of a step: the end wins, then a breakpoint. -/
def combineSignals (signalInst signalCall result : Signal) : Signal :=
  match signalInst, signalCall, result with
  | _, _, .end_ => .end_
  | .breakpoint, _, .next => .breakpoint
  | _, .breakpoint, .next => .breakpoint
  | _, _, other => other

/-- `Executor::execute_step`. -/
def executeStep (env : Engine T) : DbgM T Signal := do
  requireExecutor
  let instr ← onMachine (fetch env)
  let signalInst ← executeInst instr.instrOffset
  let importFuncLen ← getImportFuncLen
  let report ← onMachine (executeInstr env importFuncLen instr.op)
  let signalCall ← reportCall report
  if report.isPopFrame then
    popFrame
  return combineSignals signalInst signalCall report.signal

/-! ## Results -/

/-- `RunResult`. -/
inductive RunResult where
  | finish (results : List Val)
  | breakpoint
  | next
deriving Repr, DecidableEq

/-- `MainDebugger::get_finish_result`: the lowest cells of the value stack. -/
def getFinishResult (env : Engine T) : DbgM T (List Val) := do
  let s ← get
  let some func := s.runFunc | bail "No Run Func"
  let func ← unwrap s.machine.store.funcs[func]?
  let types := (env.funcType func.tyDedup).results
  let cells ← unwrap (slice? s.machine.stack.values.values 0 types.length)
  return List.zipWith Val.mk types cells

/-! ## Requests -/

/-- Runs steps while `continues` holds of the frame depth, until one signals something. -/
def stepWhile (env : Engine T) (continues : Nat → Bool) : Nat → DbgM T (Option RunResult)
  | 0 => return none
  | fuel + 1 => do
    if continues (← get).machine.stack.calls.frames.length then
      match ← executeStep env with
      | .next => stepWhile env continues fuel
      | .breakpoint => return some .breakpoint
      | .end_ => return some (.finish (← getFinishResult env))
    else return some .next

/-- `StepStyle`. -/
inductive StepStyle where
  | instIn
  | instOver
  | out
deriving Repr, DecidableEq

/-- `MainDebugger::step`. The first step of `Out` is made whatever it signals. -/
def step (env : Engine T) (style : StepStyle) (fuel : Nat) : DbgM T (Option RunResult) := do
  requireExecutor
  let initialFrameDepth := (← get).machine.stack.calls.frames.length
  match style with
  | .instIn =>
    match ← executeStep env with
    | .next => return some .next
    | .breakpoint => return some .breakpoint
    | .end_ => return some (.finish (← getFinishResult env))
  | .instOver =>
    match ← executeStep env with
    | .next => stepWhile env (fun depth => decide (initialFrameDepth < depth)) fuel
    | .breakpoint => return some .breakpoint
    | .end_ => return some (.finish (← getFinishResult env))
  | .out =>
    let _ ← executeStep env
    stepWhile env (fun depth => decide (initialFrameDepth ≤ depth)) fuel

/-- `MainDebugger::process`. -/
def process (env : Engine T) (fuel : Nat) : DbgM T (Option RunResult) := do
  requireExecutor
  stepWhile env (fun _ => true) fuel

/-- `str::parse::<u32>`. -/
def parseU32 (text : String) : Option Nat :=
  let digits := match text.toList with
    | '+' :: digits => digits
    | digits => digits
  if digits ≠ [] ∧ digits.all Char.isDigit then
    let value := digits.foldl (fun value digit => 10 * value + (digit.toNat - '0'.toNat)) 0
    if value < 2 ^ 32 then some value else none
  else none

/-- `MainDebugger::lookup_func_by_index`. -/
def lookupFuncByIndex (s : Session T) (index : Nat) : Option Nat := do
  let inst ← s.inst
  let entity ← s.machine.store.instances[inst.inner]?
  entity.funcs[index]?

/-- `MainDebugger::lookup_func_by_name`: the exports first, then the name section, whose index is
expected to be that of a function. -/
def lookupFuncByName (name : String) : DbgM T (Option Nat) := do
  let s ← get
  match s.inst with
  | none => return none
  | some inst =>
    match inst.exportedFuncs.lookup name with
    | some func => return some func
    | none =>
      match inst.funcNames.find? (·.2 = name) with
      | none => return none
      | some (index, _) => return some (← unwrap (lookupFuncByIndex s index))

/-- The function a `run` or `run_step` request names; without a name it is the start function. -/
def lookupFunc (name : Option String) : DbgM T (Option Nat) := do
  let s ← get
  match name with
  | none => return s.startFnIdx.bind (lookupFuncByIndex s)
  | some name =>
    match parseU32 name with
    | some index => return lookupFuncByIndex s index
    | none => lookupFuncByName name

/-- The error for a name that no function has. -/
def noFunctionFound (name : Option String) : String :=
  "No function " ++ name.getD "start" ++ " found"

/-- `Func::verify_and_prepare_inputs`. -/
def verifyInputs {σ : Type} (types : List ValType) (params : List Val) : EStateM Stop σ Unit :=
  if types.length ≠ params.length then bail "encountered an incorrect number of parameters"
  else if types ≠ params.map (·.ty) then bail "encountered incorrect function parameter type"
  else pure ()

/-- The part of `execute_func` that works on the stacks as they stand: builds the frame of the
function and makes a new executor for it. -/
def prepareFunc (env : Engine T) (wasmFunc : WasmFuncEntity) (lenResults : Nat)
    (params : List UntypedVal) : ExecM T Unit := do
  let values ← liftTrap ((← get).stack.values.extendBy lenResults)
  setValues values
  let (values, offsets) ← liftTrap (values.allocCallFrame (env.codeMap wasmFunc.body))
  let values ← assume (values.initParams offsets params)
  setValues values
  let frame : CallFrame :=
    { func := wasmFunc.body, instrPtr := ⟨wasmFunc.body, 0⟩, offsets, results := ⟨0⟩ }
  pushFrame frame (some wasmFunc.inst)
  let inst ← unwrap (← get).stack.calls.instance_
  updateCache inst
  let frame ← unwrap (← get).stack.calls.peek
  initCallFrame frame

/-- `MainDebugger::execute_func`. -/
def executeFunc (env : Engine T) (func : Nat) (params : List Val) : DbgM T Unit := do
  let entity ← unwrap (← get).machine.store.funcs[func]?
  let funcType := env.funcType entity.tyDedup
  verifyInputs funcType.params params
  match entity with
  | .wasm wasmFunc =>
    onMachine (prepareFunc env wasmFunc funcType.results.length (params.map (·.bits)))
    let importFuncLen ← getImportFuncLen
    modify fun s => { s with
      executor := .live
      invokedFuncIndex := (wasmFunc.body + importFuncLen) :: s.invokedFuncIndex }
  | .host _ => bail "not support host"

/-- `MainDebugger::run_step`. -/
def runStep (env : Engine T) (name : Option String) (args : List Val) : DbgM T Unit := do
  let some func ← lookupFunc name | bail (noFunctionFound name)
  modify fun s => { s with runFunc := some func }
  executeFunc env func args

/-- `MainDebugger::run`. -/
def run (env : Engine T) (name : Option String) (args : List Val) (fuel : Nat) :
    DbgM T (Option RunResult) := do
  modify fun s => { s with isInterrupted := true }
  let some func ← lookupFunc name | bail (noFunctionFound name)
  modify fun s => { s with runFunc := some func }
  executeFunc env func args
  process env fuel

/-- What instantiating the main module anew yields: a store, an empty stack and the instance. -/
structure Launch (T : Type) where
  store : Store T
  limits : Stack
  inst : InstanceWithName
  instInFile0 : List Nat

/-- `MainDebugger::instantiate`: replaces the static stack and store in place. The executor, the
function that runs and the list of invoked functions are left as they are. -/
def instantiate (launch : Launch T) : DbgM T Unit := do
  modify fun s => { s with
    machine := { s.machine with stack := launch.limits.reset, store := launch.store }
    executor := if s.executor = .absent then .absent else .stale
    inst := some launch.inst
    breakpoints := { s.breakpoints with instInFile0 := launch.instInFile0 } }

/-- The launch of a module without imports whose first instance is its own. -/
def Launch.ofStore (store : Store T) : Launch T where
  store := store
  limits := ⟨⟨[], 1024⟩, ⟨[], [], 16⟩⟩
  inst := { inner := 0, importFuncLen := 0, funcNames := [], exportedFuncs := [] }
  instInFile0 := []

/-- A new debugger after its first `instantiate`. -/
def launched (launch : Launch T) : Session T where
  machine :=
    { sp := default
      ip := default
      cache := default
      stack := launch.limits.reset
      store := launch.store }
  executor := .absent
  inst := some launch.inst
  startFnIdx := none
  runFunc := none
  invokedFuncIndex := []
  breakpoints := { instInFile0 := launch.instInFile0 }
  isInterrupted := true

end Debugger

end MotokoDebugger
