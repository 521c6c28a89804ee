import MotokoDebugger.Executor.Instrs

/-!
# Call sites

The sixteen call instructions differ in how they name their callee, in whether parameter words
follow and in whether they are tail calls. `CallSite` says so as data.

* `CallSite.resolve`: finds the callee; moves the instruction pointer at most.
* `executeCallee`: enters a compiled function or runs a host function.
* `executeOp_callSite`, `executeInstr_callSite`: both interpreters run a call instruction as the
  one after the other. `executeOp_other` and `executeOp_return` are the remaining instructions.
-/

namespace MotokoDebugger

open StateExcept Executor

variable {T : Type}

/-! ## Call instructions as data -/

/-- How a call instruction names its callee. -/
inductive CallTarget where
  | internal (func : EngineFunc)
  | imported (func : Nat)
  | indirect (funcType : Nat) (imm16 : Bool)
deriving Repr, DecidableEq

/-- A call instruction. A tail call has no result registers of its own. -/
structure CallSite where
  results : Option RegSpan
  hasParams : Bool
  target : CallTarget
deriving Repr, DecidableEq

/-- The context of a call site. -/
def CallSite.context (site : CallSite) : CallContext where
  kind := if site.results.isSome then .nested else .tail
  hasParams := site.hasParams

/-- The call site of a call instruction. -/
def Op.callSite : Op → Option CallSite
  | .returnCallInternal0 func => some ⟨none, false, .internal func⟩
  | .returnCallInternal func => some ⟨none, true, .internal func⟩
  | .returnCallImported0 func => some ⟨none, false, .imported func⟩
  | .returnCallImported func => some ⟨none, true, .imported func⟩
  | .returnCallIndirect0 funcType => some ⟨none, false, .indirect funcType false⟩
  | .returnCallIndirect0Imm16 funcType => some ⟨none, false, .indirect funcType true⟩
  | .returnCallIndirect funcType => some ⟨none, true, .indirect funcType false⟩
  | .returnCallIndirectImm16 funcType => some ⟨none, true, .indirect funcType true⟩
  | .callInternal0 results func => some ⟨some results, false, .internal func⟩
  | .callInternal results func => some ⟨some results, true, .internal func⟩
  | .callImported0 results func => some ⟨some results, false, .imported func⟩
  | .callImported results func => some ⟨some results, true, .imported func⟩
  | .callIndirect0 results funcType => some ⟨some results, false, .indirect funcType false⟩
  | .callIndirect0Imm16 results funcType => some ⟨some results, false, .indirect funcType true⟩
  | .callIndirect results funcType => some ⟨some results, true, .indirect funcType false⟩
  | .callIndirectImm16 results funcType => some ⟨some results, true, .indirect funcType true⟩
  | _ => none

/-- What the debugger is told about a call: nothing about tail calls and imported functions. -/
def CallSite.report (importFuncLen : Nat) (site : CallSite) (pulled : Option (Nat × Nat)) :
    InstrReport :=
  match site.results, site.target, pulled with
  | some _, .internal func, _ => { callIdx := internalCallIdx importFuncLen func }
  | some _, .indirect .., some (index, table) =>
    { callIdx := clampI32 index, tableIdx := some table }
  | _, _, _ => {}

/-- A call signals neither a breakpoint nor the end. -/
lemma CallSite.report_signal (importFuncLen : Nat) (site : CallSite)
    (pulled : Option (Nat × Nat)) : (site.report importFuncLen pulled).signal = .next := by
  unfold CallSite.report
  split <;> rfl

/-- What a call goes to. -/
inductive Callee where
  | compiled (body : EngineFunc) (inst : Option Nat)
  | host (func : Nat) (entity : HostFuncEntity)
deriving Repr, DecidableEq

/-- The callee a handle of the store stands for. -/
def FuncEntity.callee (func : Nat) : FuncEntity → Callee
  | .wasm entity => .compiled entity.body (some entity.inst)
  | .host entity => .host func entity

namespace Executor

/-! ## Finding the callee -/

/-- The parameter word of an indirect call. -/
def pullParams (imm16 : Bool) (env : Engine T) : LocalM T (Nat × Nat) :=
  if imm16 then pullCallIndirectParamsImm16 env else pullCallIndirectParams env

/-- The callee of a handle. -/
def resolveFunc (func : Nat) : ExecM T Callee := do
  return (← unwrap (← get).store.funcs[func]?).callee func

/-- The result registers of a call. -/
def resultRegs (site : CallSite) : ExecM T RegSpan :=
  match site.results with
  | some results => pure results
  | none => callerResults

/-- The result registers, the callee and the parameter word of a call. -/
def resolveSite (env : Engine T) (site : CallSite) :
    ExecM T (RegSpan × Callee × Option (Nat × Nat)) :=
  match site.target with
  | .internal func => do
    return (← resultRegs site, .compiled func none, none)
  | .imported func => do
    let func ← stepLocal (getFunc func)
    let results ← resultRegs site
    return (results, ← resolveFunc func, none)
  | .indirect funcType imm16 => do
    let (index, table) ← stepLocal (pullParams imm16 env)
    let results ← resultRegs site
    let func ← stepLocal (resolveIndirect funcType index table)
    return (results, ← resolveFunc func, some (index, table))

/-- Switches to the instance of a callee that comes with one. -/
def switchInstance (inst : Option Nat) : ExecM T Unit :=
  match inst with
  | some inst => updateCache inst
  | none => pure ()

/-- Enters a compiled function or runs a host function. -/
def executeCallee (env : Engine T) (c : CallContext) (results : RegSpan) :
    Callee → ExecM T Unit
  | .compiled body inst => do
    prepareCompiledFuncCall env c results body inst
    switchInstance inst
  | .host func entity => do
    invokeCallHook env .callingHost
    executeHostFunc env c results func entity
    invokeCallHook env .returningFromHost

/-- A call instruction. -/
def executeSite (env : Engine T) (site : CallSite) : ExecM T (Option (Nat × Nat)) := do
  let (results, callee, pulled) ← resolveSite env site
  executeCallee env site.context results callee
  return pulled

/-! ## The instructions by class -/

lemma executeCallImportedImpl_eq (env : Engine T) (c : CallContext) (results : RegSpan)
    (func : Nat) :
    executeCallImportedImpl env c results func =
      resolveFunc func >>= executeCallee env c results := by
  simp only [executeCallImportedImpl, resolveFunc, bind_assoc, pure_bind]
  refine bind_congr fun m => bind_congr fun entity => ?_
  cases entity <;> rfl

/-- An instruction that neither calls nor returns. -/
def executeOther (env : Engine T) (op : Op) : ExecM T Unit :=
  match op with
  | .branchTableMany index lenTargets => executeBranchTableMany env index lenTargets
  | op => stepLocal (executeLocal env op)

/-- The two matches have the same arms for the instructions that neither call nor return. -/
theorem executeInstrLocal_eq (env : Engine T) (op : Op) :
    executeInstrLocal env op = executeLocal env op := by
  cases op <;> rfl

/-! The interpreters are matches on some hundred constructors: they are evaluated at each of them,
which needs none of their equations. -/

lemma isReturn_of_callSite {op : Op} {site : CallSite} (h : op.callSite = some site) :
    op.isReturn = false := by
  cases op <;> first | rfl | cases h

lemma callSite_of_isReturn {op : Op} (h : op.isReturn) : op.callSite = none := by
  cases op <;> first | rfl | cases h

theorem executeOp_callSite {env : Engine T} {op : Op} {site : CallSite}
    (h : op.callSite = some site) :
    executeOp env op = do
      let _ ← executeSite env site
      return .continue_ := by
  cases op <;> cases h <;> unfold executeOp <;>
    simp [continuing, executeSite, resolveSite, resultRegs, executeCallee,
      switchInstance, CallSite.context, pullParams, executeReturnCallInternal,
      executeCallInternal, executeReturnCallImported, executeCallImported,
      executeReturnCallIndirect, executeCallIndirect, executeCallIndirectImpl,
      executeCallImportedImpl_eq, CallContext.returnCall0, CallContext.returnCall,
      CallContext.nestedCall0, CallContext.nestedCall, Functor.discard, map_const]

theorem executeInstr_callSite {env : Engine T} {importFuncLen : Nat} {op : Op} {site : CallSite}
    (h : op.callSite = some site) :
    executeInstr env importFuncLen op = do
      let pulled ← executeSite env site
      return site.report importFuncLen pulled := by
  cases op <;> cases h <;> unfold executeInstr <;>
    simp [nextSignal, executeSite, resolveSite, resultRegs, executeCallee,
      switchInstance, CallSite.context, CallSite.report, pullParams, executeReturnCallInternal,
      executeCallInternal, executeReturnCallImported, executeCallImported,
      executeReturnCallIndirect, executeCallIndirect, executeCallIndirectImpl,
      executeCallImportedImpl_eq, CallContext.returnCall0, CallContext.returnCall,
      CallContext.nestedCall0, CallContext.nestedCall]

theorem executeOp_return {env : Engine T} {op : Op} (h : op.isReturn) :
    executeOp env op = executeReturn env op := by
  cases op <;> first | rfl | cases h

theorem executeInstr_return {env : Engine T} {importFuncLen : Nat} {op : Op} (h : op.isReturn) :
    executeInstr env importFuncLen op = forwardReturnDbg (executeReturn env op) := by
  cases op <;> first | rfl | cases h

theorem executeOp_other {env : Engine T} {op : Op} (hcall : op.callSite = none)
    (hreturn : op.isReturn = false) :
    executeOp env op = continuing (executeOther env op) := by
  cases op <;> first | rfl | (cases hcall; done) | cases hreturn

theorem executeInstr_other {env : Engine T} {importFuncLen : Nat} {op : Op}
    (hcall : op.callSite = none) (hreturn : op.isReturn = false) :
    executeInstr env importFuncLen op = nextSignal (executeOther env op) := by
  cases op <;> first | rfl | (cases hcall; done) | cases hreturn

end Executor

end MotokoDebugger
