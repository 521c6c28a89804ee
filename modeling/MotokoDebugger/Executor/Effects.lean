import MotokoDebugger.Executor.CallSite

/-!
# Instructions that keep the call stack

`keepsCalls_executeOther`: an instruction that neither calls nor returns leaves the call stack as
it is. The second half lists steps that raise no error of the source.
-/

namespace MotokoDebugger

namespace Executor

open StateExcept

variable {T : Type} {α : Type}

/-! ## Steps that keep the call stack -/

/-- No outcome changes the call stack. -/
abbrev KeepsCalls (x : ExecM T α) : Prop := Keeps (fun m => m.stack.calls) x

lemma keepsCalls_stepLocal (x : LocalM T α) : KeepsCalls (stepLocal x) :=
  Keeps.zoom (fun _ _ => rfl) x

lemma keepsCalls_setValues (values : ValueStack) : KeepsCalls (setValues values : ExecM T Unit) :=
  Keeps.modify fun _ => rfl

lemma keepsCalls_updateCache (inst : Nat) : KeepsCalls (updateCache inst : ExecM T Unit) :=
  Keeps.get.bind fun _ => (readOnly_unwrap _).keeps.bind fun _ => Keeps.modify fun _ => rfl

lemma readOnly_returnCallerResults :
    ReadOnly (returnCallerResults : ExecM T (ResultCells × RegSpan)) :=
  ReadOnly.get.bind fun _ => readOnly_unwrap _

lemma keepsCalls_setResults (cells : ResultCells) (results : List Reg)
    (values : List UntypedVal) :
    KeepsCalls (setResults cells results values : ExecM T Unit) :=
  Keeps.get.bind fun _ => (readOnly_assume _).keeps.bind fun _ => keepsCalls_setValues _

lemma keepsCalls_copyManyReturnValues (env : Engine T) (ip : InstructionPtr)
    (values : List Reg) : KeepsCalls (copyManyReturnValues env ip values) := by
  refine readOnly_returnCallerResults.keeps.bind fun cells => ?_
  refine (keepsCalls_stepLocal _).bind fun regs => ?_
  refine (keepsCalls_stepLocal _).bind fun vals => ?_
  exact keepsCalls_setResults _ _ _

lemma keepsCalls_executeBranchTableMany (env : Engine T) (index : Reg) (lenTargets : Nat) :
    KeepsCalls (executeBranchTableMany env index lenTargets) := by
  refine (keepsCalls_stepLocal _).bind fun offset => ?_
  refine (keepsCalls_stepLocal _).bind fun _ => ?_
  refine Keeps.get.bind fun m => ?_
  refine (keepsCalls_stepLocal _).bind fun _ => ?_
  refine (keepsCalls_stepLocal _).bind fun target => ?_
  split
  · exact keepsCalls_stepLocal _
  · exact keepsCalls_stepLocal _
  · exact keepsCalls_copyManyReturnValues _ _ _
  · exact Keeps.throw _

/-- An instruction that neither calls nor returns leaves the call stack as it is. -/
theorem keepsCalls_executeOther (env : Engine T) (op : Op) :
    KeepsCalls (executeOther env op) := by
  unfold executeOther
  split
  · exact keepsCalls_executeBranchTableMany _ _ _
  · exact keepsCalls_stepLocal _

/-! ## Parts that raise no error of the source -/

lemma noFault_stepLocal {x : LocalM T α} (hx : NoFault Stop.IsFault x) :
    NoFault Stop.IsFault (stepLocal x) := hx.zoom

lemma noFault_getRegister (reg : Reg) :
    NoFault Stop.IsFault (getRegister reg : LocalM T UntypedVal) :=
  NoFault.get.bind fun _ => noFault_assume _

lemma noFault_nextInstr : NoFault Stop.IsFault (nextInstr : LocalM T Unit) := NoFault.modify _

lemma noFault_updateCache (inst : Nat) :
    NoFault Stop.IsFault (updateCache inst : ExecM T Unit) :=
  NoFault.get.bind fun _ => (noFault_unwrap _).bind fun _ => NoFault.modify _

end Executor

end MotokoDebugger
