import MotokoDebugger.Debugger.Session
import MotokoDebugger.Executor.FrameRegisters

/-!
# Resumable calls

`execute_func_resumable` and `resume_func` (`engine/executor/mod.rs`) with
`ResumableInvocation::resume` (`engine/resumable.rs`): a call from outside that stops where a host
function fails, and goes on with values of the caller's in the place of its results. The stack of
an invocation is that of the machine.

* `callResumably`: a resumable call and the resumptions after it.
* `callDirectly`: the call in which the host functions return these values themselves.
-/

namespace MotokoDebugger

open StateExcept Runs

variable {T : Type} {α : Type}

/-! ## Function types -/

/-- `FuncError`: what a check of values against a function type fails with. -/
inductive FuncError where
  | mismatchingResultType
  | mismatchingResultLen
deriving Repr, DecidableEq

def FuncError.message : FuncError → String
  | .mismatchingResultType => "encountered incorrect function result type"
  | .mismatchingResultLen => "encountered an incorrect number of results"

/-- `FuncType::match_results`. -/
def FuncType.matchResults (ty : FuncType) (results : List ValType) (checkType : Bool) :
    Except FuncError Unit :=
  if ty.results.length ≠ results.length then .error .mismatchingResultLen
  else if checkType ∧ ty.results ≠ results then .error .mismatchingResultType
  else .ok ()

namespace Executor

/-! ## Resumable calls -/

/-- `ResumableInvocation`. -/
structure ResumableInvocation where
  func : Nat
  hostFunc : Nat
  hostError : Error
  callerResults : RegSpan
deriving Repr, DecidableEq

/-- `ResumableCall`. -/
inductive ResumableCall where
  | finished (results : List UntypedVal)
  | resumable (invocation : ResumableInvocation)
deriving Repr, DecidableEq

/-- What a resumable call of `func` makes of the outcome of its execution. -/
def resumableCall (func : Nat) (x : ExecM T (Option (List UntypedVal))) :
    ExecM T (Option ResumableCall) := fun m =>
  match x m with
  | .ok results m' => .ok (results.map .finished) m'
  | .error (.fault (.resumableHost hostError hostFunc callerResults)) m' =>
    .ok (some (.resumable ⟨func, hostFunc, hostError, ⟨Int16.ofInt callerResults⟩⟩)) m'
  | .error stop m' => .error stop m'

/-- `EngineInner::execute_func_resumable`. -/
def executeFuncResumable (env : Engine T) (func : Nat) (params : List UntypedVal)
    (lenResults : Nat) (fuel : Nat) : ExecM T (Option ResumableCall) :=
  resumableCall func (executeRootFunc env func params lenResults fuel)

/-- The beginning of `EngineExecutor::resume_func`: `params` are put where the results of the host
function belong, and a new executor goes on in the topmost frame. -/
def continueWith (callerResults : RegSpan) (params : List UntypedVal) : ExecM T Unit := do
  let caller ← unwrap (← get).stack.calls.peek
  modify fun m => { m with sp := caller.offsets }
  let results ← unwrap (callerResults.iter params.length)
  stepLocal (setRegisters results params)
  newExecutor

/-- `EngineExecutor::resume_func`. -/
def resumeFunc (env : Engine T) (callerResults : RegSpan) (params : List UntypedVal)
    (lenResults : Nat) (fuel : Nat) : ExecM T (Option (List UntypedVal)) := do
  continueWith callerResults params
  match ← execute env fuel with
  | none => return none
  | some _ => return some (← rootResults lenResults)

/-- A check of values against the type of a function of the store. -/
def matchResultsOf (env : Engine T) (func : Nat) (results : List Val) (checkType : Bool) :
    ExecM T Unit := do
  let entity ← unwrap (← get).store.funcs[func]?
  match (env.funcType entity.tyDedup).matchResults (results.map (·.ty)) checkType with
  | .ok _ => pure ()
  | .error error => throw (.fault (.message error.message))

/-- `ResumableInvocation::resume`. -/
def ResumableInvocation.resume (env : Engine T) (invocation : ResumableInvocation)
    (inputs outputs : List Val) (fuel : Nat) : ExecM T (Option ResumableCall) := do
  matchResultsOf env invocation.hostFunc inputs true
  matchResultsOf env invocation.func outputs false
  resumableCall invocation.func
    (resumeFunc env invocation.callerResults (inputs.map (·.bits)) outputs.length fuel)

/-- Resumes a call with one list of values after the other, until it has finished. -/
def resumeAll (env : Engine T) (outputs : List Val) (fuel : Nat) :
    ResumableCall → List (List Val) → ExecM T (Option ResumableCall)
  | .resumable invocation, inputs :: answers => do
    match ← invocation.resume env inputs outputs fuel with
    | none => return none
    | some call => resumeAll env outputs fuel call answers
  | call, _ => return some call

/-- A resumable call that is resumed with `answers`. -/
def callResumably (env : Engine T) (func : Nat) (params : List UntypedVal) (outputs : List Val)
    (answers : List (List Val)) (fuel : Nat) : ExecM T (Option ResumableCall) := do
  match ← executeFuncResumable env func params outputs.length fuel with
  | none => return none
  | some call => resumeAll env outputs fuel call answers

/-! ## Direct calls -/

/-- The engine whose host functions return `values` where those of `env` fail. -/
def answering (env : Engine T) (values : List UntypedVal) : Engine T :=
  { env with hostCall := fun trampoline inst params store =>
      match env.hostCall trampoline inst params store with
      | (.error _, store) => (.ok values, store)
      | (.ok results, store) => (.ok results, store) }

/-- Has the iteration failed with an error after which the call can be resumed? -/
def failsResumably (env : Engine T) (m : Machine T) : Bool :=
  match executeOne env m with
  | .error (.fault (.resumableHost _ _ _)) _ => true
  | _ => false

/-- An iteration of the loop in which the host function that would fail returns the first of the
answers instead. -/
def executeAnswered (env : Engine T) (answers : List (List Val)) :
    ExecM T (ControlFlow × List (List Val)) := fun m =>
  match failsResumably env m, answers with
  | true, answer :: answers =>
    ((·, answers) <$> executeOne (answering env (answer.map (·.bits)))) m
  | _, _ => ((·, answers) <$> executeOne env) m

/-- The loop in which the host functions that would fail return the answers, one after the other. -/
def executeDirectly (env : Engine T) : Nat → List (List Val) → ExecM T (Option Unit)
  | 0, _ => return none
  | fuel + 1, answers => do
    match ← executeAnswered env answers with
    | (.continue_, answers) => executeDirectly env fuel answers
    | (.break_, _) => return some ()

/-- A call of a compiled function from outside, up to the first iteration of the loop. -/
def startWasmFunc (env : Engine T) (wasmFunc : WasmFuncEntity) (lenResults : Nat)
    (params : List UntypedVal) : ExecM T Unit := do
  enterRootFunc env wasmFunc lenResults params
  invokeCallHook env .callingWasm
  newExecutor

/-- `EngineExecutor::execute_root_func` with another loop. -/
def executeRootWith (env : Engine T) (loop : ExecM T (Option Unit)) (func : Nat)
    (params : List UntypedVal) (lenResults : Nat) : ExecM T (Option (List UntypedVal)) := do
  modify fun m => { m with stack := m.stack.reset }
  match ← unwrap (← get).store.funcs[func]? with
  | .wasm wasmFunc =>
    startWasmFunc env wasmFunc lenResults params
    match ← loop with
    | none => return none
    | some _ =>
      invokeCallHook env .returningFromWasm
      return some (← rootResults lenResults)
  | .host hostFunc =>
    let maxInout := max hostFunc.lenParams hostFunc.lenResults
    let buffer := (← get).stack.values.values.length
    let values ← liftTrap ((← get).stack.values.extendBy maxInout)
    setValues { values with
      values := overwrite values.values buffer (params.take maxInout) }
    dispatchHostFunc env hostFunc none
    return some (← rootResults lenResults)

/-- A call in which the host functions that would fail return `answers`. -/
def callDirectly (env : Engine T) (func : Nat) (params : List UntypedVal) (lenResults : Nat)
    (answers : List (List Val)) (fuel : Nat) : ExecM T (Option (List UntypedVal)) :=
  executeRootWith env (executeDirectly env fuel answers) func params lenResults

lemma executeRootFunc_eq (env : Engine T) (func : Nat) (params : List UntypedVal)
    (lenResults : Nat) (fuel : Nat) :
    executeRootFunc env func params lenResults fuel =
      executeRootWith env (execute env fuel) func params lenResults := by
  unfold executeRootFunc executeRootWith
  refine bind_congr fun _ => bind_congr fun m => bind_congr fun entity => ?_
  cases entity with
  | wasm wasmFunc =>
    have hassoc : ∀ rest : Unit → ExecM T (Option (List UntypedVal)),
        startWasmFunc env wasmFunc lenResults params >>= rest = (do
          enterRootFunc env wasmFunc lenResults params
          invokeCallHook env .callingWasm
          newExecutor >>= rest) := by
      intro rest
      simp only [startWasmFunc, bind_assoc]
    exact (hassoc _).symm
  | host hostFunc => rfl

end Executor

end MotokoDebugger
