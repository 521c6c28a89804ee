import MotokoDebugger.Executor.Local

/-!
# Calls

`executor/instrs/call.rs`: nested calls and tail calls of compiled functions and host functions,
direct, imported and through a table.
-/

namespace MotokoDebugger

variable {T : Type}

/-- `CallKind`. -/
inductive CallKind where
  | nested
  | tail
deriving Repr, DecidableEq

/-- `CallContext`: the kind of a call and whether parameter words follow it. -/
structure CallContext where
  kind : CallKind
  hasParams : Bool
deriving Repr, DecidableEq

namespace CallContext

def returnCall0 : CallContext := ⟨.tail, false⟩
def returnCall : CallContext := ⟨.tail, true⟩
def nestedCall0 : CallContext := ⟨.nested, false⟩
def nestedCall : CallContext := ⟨.nested, true⟩

end CallContext

namespace Executor

open StateExcept

/-! ## Parts of the machine -/

def modifyCalls (f : CallStack → CallStack) : ExecM T Unit :=
  modify fun m => { m with stack := { m.stack with calls := f m.stack.calls } }

def setValues (values : ValueStack) : ExecM T Unit :=
  modify fun m => { m with stack := { m.stack with values } }

/-- `CachedInstance::update`. -/
def updateCache (inst : Nat) : ExecM T Unit := do
  let cache ← unwrap (CachedInstance.load (← get).store inst)
  modify fun m => { m with cache }

/-- `Executor::init_call_frame`. -/
def initCallFrame (frame : CallFrame) : ExecM T Unit :=
  modify fun m => { m with sp := frame.offsets, ip := frame.instrPtr }

/-- `Executor::caller_results`: where the topmost frame leaves its results. -/
def callerResults : ExecM T RegSpan := do
  return (← unwrap (← get).stack.calls.peek).results

/-- `Executor::update_instr_ptr_at`: also saves the pointer in the topmost frame. -/
def updateInstrPtrAt (offset : Nat) : ExecM T Unit := do
  modify fun m => { m with ip := m.ip.add offset }
  let _ ← unwrap (← get).stack.calls.peek
  let ip := (← get).ip
  modifyCalls fun calls => calls.updateInstrPtr ip

/-- `Executor::copy_call_params`: reads the parameters of a call and leaves the instruction
pointer on the last parameter word. -/
def copyCallParams (env : Engine T) : LocalM T (List UntypedVal) := do
  nextInstr
  let (regs, ip) ← registerListAt env (← get).ip
  modify fun s => { s with ip }
  regs.mapM getRegister

/-! ## Compiled functions -/

/-- `Executor::dispatch_compiled_func`. -/
def dispatchCompiledFunc (env : Engine T) (c : CallContext) (results : RegSpan)
    (func : EngineFunc) : ExecM T CallFrame := do
  let _ ← unwrap (← get).stack.calls.peek
  let (values, offsets) ←
    liftTrap ((← get).stack.values.allocCallFrame (env.codeMap func))
  setValues values
  if c.hasParams then
    let params ← stepLocal (copyCallParams env)
    let values ← assume ((← get).stack.values.initParams offsets params)
    setValues values
  return { func, instrPtr := ⟨func, 0⟩, offsets, results }

/-- `Stack::merge_call_frames` on the machine. -/
def mergeCallFrames (called : CallFrame) : ExecM T (CallFrame × Option Nat) := do
  let (stack, called, inst) ← unwrap ((← get).stack.mergeCallFrames called)
  modify fun m => { m with stack }
  return (called, inst)

/-- `CallStack::push` on the machine. -/
def pushFrame (called : CallFrame) (inst : Option Nat) : ExecM T Unit := do
  let calls ← liftTrap ((← get).stack.calls.push called inst)
  modifyCalls fun _ => calls

/-- `Executor::prepare_compiled_func_call`. The frame is pushed last, after `sp` and `ip` have
moved into the callee. -/
def prepareCompiledFuncCall (env : Engine T) (c : CallContext) (results : RegSpan)
    (func : EngineFunc) (inst : Option Nat) : ExecM T Unit := do
  let called ← dispatchCompiledFunc env c results func
  match c.kind with
  | .nested =>
    updateInstrPtrAt 1
    initCallFrame called
    pushFrame called inst
  | .tail =>
    let (called, callerInst) ← mergeCallFrames called
    initCallFrame called
    pushFrame called (inst <|> callerInst)

/-- `execute_call_internal` and `execute_call_internal_0`. -/
def executeCallInternal (env : Engine T) (c : CallContext) (results : RegSpan)
    (func : EngineFunc) : ExecM T Unit :=
  prepareCompiledFuncCall env c results func none

/-- `execute_return_call_internal_impl`. -/
def executeReturnCallInternal (env : Engine T) (c : CallContext) (func : EngineFunc) :
    ExecM T Unit := do
  let results ← callerResults
  prepareCompiledFuncCall env c results func none

/-! ## Host functions -/

/-- `Store::invoke_call_hook`. -/
def invokeCallHook (env : Engine T) (callType : CallHook) : ExecM T Unit := do
  match env.callHook with
  | none => pure ()
  | some callHook =>
    let (result, data) := callHook callType (← get).store.data
    modify fun m => { m with store := { m.store with data } }
    match result with
    | .ok _ => pure ()
    | .error error => throw (.fault error)

/-- `dispatch_host_func`: the topmost cells are the buffer for parameters and results; they are
dropped when the host function fails. -/
def dispatchHostFunc (env : Engine T) (hostFunc : HostFuncEntity) (inst : Option Nat) :
    ExecM T Unit := do
  let maxInout := max hostFunc.lenParams hostFunc.lenResults
  let m ← get
  let buffer := m.stack.values.top maxInout
  let (result, store) :=
    env.hostCall hostFunc.func inst (buffer.take hostFunc.lenParams) m.store
  modify fun m => { m with store }
  match result with
  | .error error =>
    setValues (m.stack.values.drop maxInout)
    throw (.fault error)
  | .ok results =>
    let values := (m.stack.values.drop maxInout).values
      ++ overwrite buffer 0 (results.take hostFunc.lenResults)
    setValues { m.stack.values with values }

/-- Turns the error of a host function called from Wasm into a resumable one. -/
def resumable (func : Nat) (results : RegSpan) (x : ExecM T Unit) : ExecM T Unit := fun m =>
  match x m with
  | .error (.fault error) m' =>
    if m'.stack.calls.frames.isEmpty then .error (.fault error) m'
    else .error (.fault (.resumableHost error func results.head.toInt)) m'
  | result => result

/-- The call frame of the caller of a host function: a tail call pops it. -/
def hostCaller (kind : CallKind) : ExecM T Unit := do
  match kind with
  | .nested =>
    let _ ← unwrap (← get).stack.calls.peek
  | .tail =>
    let (_, _, calls) ← unwrap (← get).stack.calls.pop
    modifyCalls fun _ => calls

/-- `Executor::execute_host_func`. -/
def executeHostFunc (env : Engine T) (c : CallContext) (results : RegSpan) (func : Nat)
    (hostFunc : HostFuncEntity) : ExecM T Unit := do
  let maxInout := max hostFunc.lenParams hostFunc.lenResults
  let inst ← unwrap (← get).stack.calls.instance_
  hostCaller c.kind
  let buffer := (← get).stack.values.values.length
  let values ← liftTrap ((← get).stack.values.extendBy maxInout)
  setValues values
  if c.hasParams then
    let params ← stepLocal (copyCallParams env)
    let values ← assume ((← get).stack.values.initParams ⟨buffer, buffer⟩ params)
    setValues values
  if c.kind = .nested then
    updateInstrPtrAt 1
  resumable func results (dispatchHostFunc env hostFunc (some inst))
  updateCache inst
  let results ← unwrap (results.iter hostFunc.lenResults)
  let returned := (← get).stack.values.top maxInout
  setValues ((← get).stack.values.drop maxInout)
  stepLocal (setRegisters results returned)

/-! ## Imported and indirect calls -/

/-- `Executor::execute_call_imported_impl`; `func` is a handle of the store. -/
def executeCallImportedImpl (env : Engine T) (c : CallContext) (results : RegSpan)
    (func : Nat) : ExecM T Unit := do
  match ← unwrap (← get).store.funcs[func]? with
  | .wasm wasmFunc =>
    prepareCompiledFuncCall env c results wasmFunc.body (some wasmFunc.inst)
    updateCache wasmFunc.inst
  | .host hostFunc =>
    invokeCallHook env .callingHost
    executeHostFunc env c results func hostFunc
    invokeCallHook env .returningFromHost

/-- `execute_call_imported` and `execute_call_imported_0`. -/
def executeCallImported (env : Engine T) (c : CallContext) (results : RegSpan) (func : Nat) :
    ExecM T Unit := do
  let func ← stepLocal (getFunc func)
  executeCallImportedImpl env c results func

/-- `execute_return_call_imported_impl`. -/
def executeReturnCallImported (env : Engine T) (c : CallContext) (func : Nat) :
    ExecM T Unit := do
  let func ← stepLocal (getFunc func)
  let results ← callerResults
  executeCallImportedImpl env c results func

/-- `pull_call_indirect_params`: the table index and the table; moves onto the parameter word. -/
def pullCallIndirectParams (env : Engine T) : LocalM T (Nat × Nat) := do
  nextInstr
  match ← getInstr env (← get).ip with
  | .callIndirectParams index table => return (← getRegisterU32 index, table)
  | _ => throw .undefined

/-- `pull_call_indirect_params_imm16`. -/
def pullCallIndirectParamsImm16 (env : Engine T) : LocalM T (Nat × Nat) := do
  nextInstr
  match ← getInstr env (← get).ip with
  | .callIndirectParamsImm16 index table => return (index.toU32, table)
  | _ => throw .undefined

/-- The function an indirect call goes to. -/
def resolveIndirect (funcType index table : Nat) : LocalM T Nat := do
  let table ← getTable table
  let table ← resolve (·.tables) table
  let some funcref := table.elements[index]? | throw (.trap .tableOutOfBounds)
  let some func := FuncRef.func funcref | throw (.trap .indirectCallToNull)
  let entity ← resolve (·.funcs) func
  let expectedSignature ← getFuncTypeDedup funcType
  if entity.tyDedup ≠ expectedSignature then
    throw (.trap .badSignature)
  return func

/-- `Executor::execute_call_indirect_impl`. -/
def executeCallIndirectImpl (env : Engine T) (c : CallContext) (results : RegSpan)
    (funcType index table : Nat) : ExecM T Unit := do
  let func ← stepLocal (resolveIndirect funcType index table)
  executeCallImportedImpl env c results func

/-- `execute_call_indirect` and its variants: returns the table index and the table. -/
def executeCallIndirect (env : Engine T) (c : CallContext)
    (pullParams : Engine T → LocalM T (Nat × Nat)) (results : RegSpan) (funcType : Nat) :
    ExecM T (Nat × Nat) := do
  let (index, table) ← stepLocal (pullParams env)
  executeCallIndirectImpl env c results funcType index table
  return (index, table)

/-- `execute_return_call_indirect` and its variants. -/
def executeReturnCallIndirect (env : Engine T) (c : CallContext)
    (pullParams : Engine T → LocalM T (Nat × Nat)) (funcType : Nat) : ExecM T Unit := do
  let (index, table) ← stepLocal (pullParams env)
  let results ← callerResults
  executeCallIndirectImpl env c results funcType index table

end Executor

end MotokoDebugger
