import MotokoDebugger.Executor.Atomic
import MotokoDebugger.Executor.ReturnParts

/-!
# Handles of functions

No instruction changes the functions of the store, so a handle stays valid in a run as long as host
functions do not take functions away.

* `HostsKeepFuncs`: the host functions of an engine keep the functions there are.
* `FuncsKept`: the functions of one machine are functions of another one.
* `kept_executeOp`: one iteration of the interpreter keeps them.
-/

namespace MotokoDebugger

variable {T : Type} {α β : Type}

/-- The functions of the first store are functions of the second one, under the same handles. -/
def Store.FuncsKept (store store' : Store T) : Prop :=
  ∀ (func : Nat) (entity : FuncEntity),
    store.funcs[func]? = some entity → store'.funcs[func]? = some entity

namespace Executor

open StateExcept

/-- Host functions work on the store through an interface that cannot remove or replace its
functions. -/
def HostsKeepFuncs (env : Engine T) : Prop :=
  ∀ trampoline inst params store,
    Store.FuncsKept store (env.hostCall trampoline inst params store).2

/-- A machine with the functions of another one. -/
def FuncsKept (m m' : Machine T) : Prop := Store.FuncsKept m.store m'.store

lemma FuncsKept.refl (m : Machine T) : FuncsKept m m := fun _ _ h => h

lemma FuncsKept.trans {m m' m'' : Machine T} (h : FuncsKept m m') (h' : FuncsKept m' m'') :
    FuncsKept m m'' := fun func entity hfunc => h' func entity (h func entity hfunc)

lemma FuncsKept.of_store {m m' : Machine T} (h : m'.store = m.store) : FuncsKept m m' := by
  intro func entity hfunc
  rwa [h]

/-! ## Steps that keep the store -/

/-- No outcome changes the store. -/
abbrev KeepsStore (x : ExecM T α) : Prop := Keeps (fun m => m.store) x

lemma kept_of_keepsStore {x : ExecM T α} (hx : KeepsStore x) : Moves FuncsKept x :=
  Moves.mono hx fun _ _ => FuncsKept.of_store

lemma kept_of_readOnly {x : ExecM T α} (hx : ReadOnly x) : Moves FuncsKept x :=
  kept_of_keepsStore hx.keeps

lemma kept_bind {x : ExecM T α} {f : α → ExecM T β} (hx : Moves FuncsKept x)
    (hf : ∀ a, Moves FuncsKept (f a)) : Moves FuncsKept (x >>= f) :=
  Moves.bind (R := FuncsKept) (fun _ _ _ h h' => h.trans h') hx hf

lemma kept_stepLocal {x : LocalM T α} (hx : KeepsFuncs x) : Moves FuncsKept (stepLocal x) := by
  have hput : ∀ (m : Machine T) (l : Local T), l.store.funcs = m.toLocal.store.funcs →
      FuncsKept m (m.withLocal l) := by
    intro m l h func entity hfunc
    rw [Machine.withLocal_store, h]
    exact hfunc
  intro m
  cases h : x m.toLocal with
  | ok a l =>
    rw [show stepLocal x m = .ok a (m.withLocal l) from zoom_ok h]
    exact hput m l (hx.of_ok h)
  | error stop l =>
    rw [show stepLocal x m = .error stop (m.withLocal l) from zoom_error h]
    exact hput m l (hx.of_error h)

lemma keepsStore_setValues (values : ValueStack) :
    KeepsStore (setValues values : ExecM T Unit) := Keeps.modify fun _ => rfl

lemma keepsStore_updateCache (inst : Nat) : KeepsStore (updateCache inst : ExecM T Unit) :=
  Keeps.get.bind fun _ => (readOnly_unwrap _).keeps.bind fun _ => Keeps.modify fun _ => rfl

lemma keepsStore_updateInstrPtrAt (offset : Nat) :
    KeepsStore (updateInstrPtrAt offset : ExecM T Unit) := by
  refine Keeps.bind (Keeps.modify fun _ => rfl) fun _ => Keeps.get.bind fun _ => ?_
  refine (readOnly_unwrap _).keeps.bind fun _ => Keeps.get.bind fun _ => ?_
  exact Keeps.modify fun _ => rfl

/-! ## Calls -/

lemma kept_passParams (env : Engine T) (hasParams : Bool) (offsets : StackOffsets) :
    Moves FuncsKept (passParams env hasParams offsets) :=
  kept_of_keepsStore ((keeps_context_passParams env hasParams offsets).comp Prod.snd)

lemma kept_invokeCallHook (env : Engine T) (callType : CallHook) :
    Moves FuncsKept (invokeCallHook env callType) := by
  unfold invokeCallHook
  split
  · exact Moves.pure FuncsKept.refl _
  · refine kept_bind (Moves.get FuncsKept.refl) fun m => kept_bind ?_ fun _ => ?_
    · exact Moves.modify fun _ _ _ h => h
    · split
      · exact Moves.pure FuncsKept.refl _
      · exact Moves.throw FuncsKept.refl _

lemma kept_dispatchHostFunc {env : Engine T} (hhosts : HostsKeepFuncs env)
    (hostFunc : HostFuncEntity) (inst : Option Nat) :
    Moves FuncsKept (dispatchHostFunc env hostFunc inst) := by
  intro m
  have hkept := hhosts hostFunc.func inst ((m.stack.values.top
    (max hostFunc.lenParams hostFunc.lenResults)).take hostFunc.lenParams) m.store
  rcases hcall : env.hostCall hostFunc.func inst ((m.stack.values.top
    (max hostFunc.lenParams hostFunc.lenResults)).take hostFunc.lenParams) m.store with
    ⟨result, store⟩
  rw [hcall] at hkept
  simp only [dispatchHostFunc, get_bind, hcall, modify_bind]
  cases result <;> exact hkept

/-- A resumable error is raised in the state of the error it wraps. -/
lemma finalState_resumable {func : Nat} {results : RegSpan} {x : ExecM T Unit} (m : Machine T) :
    finalState (resumable func results x m) = finalState (x m) := by
  unfold resumable
  rcases x m with ⟨u, m'⟩ | ⟨stop, m'⟩
  · rfl
  · cases stop with
    | fault error =>
      dsimp only
      split <;> rfl
    | panic => rfl
    | undefined => rfl

lemma kept_resumable (func : Nat) (results : RegSpan) {x : ExecM T Unit}
    (hx : Moves FuncsKept x) : Moves FuncsKept (resumable func results x) := by
  intro m
  rw [finalState_resumable]
  exact hx m

lemma kept_runHostFunc {env : Engine T} (hhosts : HostsKeepFuncs env) (c : CallContext)
    (results : RegSpan) (func : Nat) (hostFunc : HostFuncEntity) (inst : Nat) :
    Moves FuncsKept (runHostFunc env c results func hostFunc inst) := by
  have hget : Moves FuncsKept (get : ExecM T (Machine T)) := Moves.get FuncsKept.refl
  have hend : Moves FuncsKept (do
      resumable func results (dispatchHostFunc env hostFunc (some inst))
      updateCache inst
      let results ← unwrap (results.iter hostFunc.lenResults)
      let returned := (← get).stack.values.top (max hostFunc.lenParams hostFunc.lenResults)
      setValues ((← get).stack.values.drop (max hostFunc.lenParams hostFunc.lenResults))
      stepLocal (setRegisters results returned) : ExecM T Unit) := by
    refine kept_bind (kept_resumable _ _ (kept_dispatchHostFunc hhosts _ _)) fun _ => ?_
    refine kept_bind (kept_of_keepsStore (keepsStore_updateCache _)) fun _ => ?_
    refine kept_bind (kept_of_readOnly (readOnly_unwrap _)) fun regs => ?_
    refine kept_bind hget fun _ => kept_bind hget fun _ => ?_
    refine kept_bind (kept_of_keepsStore (keepsStore_setValues _)) fun _ => ?_
    exact kept_stepLocal (writes_setRegisters _ _).funcs
  refine kept_bind hget fun m => kept_bind hget fun _ => ?_
  refine kept_bind (kept_of_readOnly (readOnly_liftTrap _)) fun values => ?_
  refine kept_bind (kept_of_keepsStore (keepsStore_setValues _)) fun _ => ?_
  refine kept_bind (kept_passParams _ _ _) fun _ => ?_
  dsimp only
  split
  · exact kept_bind (kept_of_keepsStore (keepsStore_updateInstrPtrAt 1)) fun _ => hend
  · exact hend

/-- A call keeps the functions of the store. -/
lemma kept_executeCallee {env : Engine T} (hhosts : HostsKeepFuncs env) {c : CallContext}
    {results : RegSpan} {callee : Callee} {m m' : Machine T} {u : Unit}
    (h : executeCallee env c results callee m = .ok u m') : FuncsKept m m' := by
  cases callee with
  | compiled body inst => exact FuncsKept.of_store (executeCallee_compiled_context h).1
  | host func entity =>
    have hcaller : KeepsStore (hostCaller c.kind : ExecM T Unit) := by
      unfold hostCaller
      split
      · exact Keeps.get.bind fun _ => (readOnly_unwrap _).keeps.bind fun _ => Keeps.pure _
      · refine Keeps.get.bind fun _ => (readOnly_unwrap _).keeps.bind fun _ => ?_
        exact Keeps.modify fun _ => rfl
    have hkept : Moves FuncsKept (executeCallee env c results (.host func entity)) := by
      refine kept_bind (kept_invokeCallHook _ _) fun _ => kept_bind ?_ fun _ =>
        kept_invokeCallHook _ _
      rw [executeHostFunc_eq]
      refine kept_bind (Moves.get FuncsKept.refl) fun m => ?_
      refine kept_bind (kept_of_readOnly (readOnly_unwrap _)) fun inst => ?_
      exact kept_bind (kept_of_keepsStore hcaller) fun _ => kept_runHostFunc hhosts _ _ _ _ _
    simpa [h] using hkept m

/-! ## Returns -/

lemma kept_returnImpl {m m' : Machine T} {flow : ControlFlow}
    (h : returnImpl m = .ok flow m') : m'.store = m.store := by
  obtain ⟨returned, popped, calls, cache, -, -, -, hresume⟩ := returnImpl_eq_ok.mp h
  have hstore := congrArg (fun r => r.2.store) hresume
  simp only [resumeCaller] at hstore
  rw [← hstore]
  split <;> rfl

lemma keeps_still_nextInstr : Keeps Local.still (nextInstr : LocalM T Unit) :=
  Keeps.modify fun _ => rfl

lemma keeps_still_returnedValues (env : Engine T) (op : Op) :
    Keeps Local.still (returnedValues env op) := by
  have hread : ∀ regs : List Reg,
      Keeps Local.still (regs.mapM getRegister : LocalM T (List UntypedVal)) :=
    fun regs => (ReadOnly.mapM readOnly_getRegister regs).keeps
  have hlist : ∀ regs : List Reg,
      Keeps Local.still (do nextInstr; listedValues env (← get).ip regs) :=
    fun regs => keeps_still_nextInstr.bind fun _ => Keeps.get.bind fun _ =>
      (readOnly_listedValues _ _ _).keeps
  unfold returnedValues
  split
  all_goals first
    | exact Keeps.pure _
    | exact hread _
    | exact hlist _
    | exact (readOnly_unwrap _).keeps.bind fun _ => hread _

lemma keeps_still_skipReturn (env : Engine T) (op : Op) :
    Keeps Local.still (skipReturn env op) := by
  have hskip : ∀ ip, ReadOnly (skipRegisterList env ip) :=
    fun ip => (readOnly_assume _).bind fun _ => ReadOnly.pure _
  unfold skipReturn
  split
  · refine (readOnly_getRegister _).keeps.bind fun _ => keeps_still_nextInstr.bind fun _ => ?_
    exact Keeps.get.bind fun _ => (hskip _).keeps.bind fun _ => Keeps.modify fun _ => rfl
  · refine (ReadOnly.mapM readOnly_getRegister _).keeps.bind fun _ => ?_
    exact keeps_still_nextInstr

/-- A return instruction keeps the store. -/
lemma store_executeReturn {env : Engine T} {op : Op} {m m' : Machine T} {flow : ControlFlow}
    (hop : op.isReturn) (h : executeReturn env op m = .ok flow m') : m'.store = m.store := by
  cases hnow : returnsNow op m.toLocal with
  | true =>
    obtain ⟨values, m₁, hvalues, hfinish⟩ := (executeReturn_eq_ok hop hnow).mp h
    obtain ⟨cells, results, regs, written, -, -, -, hret⟩ := finishReturn_eq_ok.mp hfinish
    have hstill := (keeps_still_stepLocal (keeps_still_returnedValues env op)).of_ok hvalues
    rw [kept_returnImpl hret]
    exact congrArg (fun s => s.2.2.2) hstill
  | false =>
    obtain ⟨hskip, -⟩ := (executeReturn_skip hop hnow).mp h
    have hstill := (keeps_still_stepLocal (keeps_still_skipReturn env op)).of_ok hskip
    exact congrArg (fun s => s.2.2.2) hstill

/-! ## One iteration -/

lemma kept_executeBranchTableMany (env : Engine T) (index : Reg) (lenTargets : Nat) :
    Moves FuncsKept (executeBranchTableMany env index lenTargets) := by
  have hskip : ∀ ip, Writes (skipRegisterList env ip) :=
    fun ip => (Writes.assume _).bind fun _ => Writes.pure _
  refine kept_bind (kept_stepLocal (writes_fetchBranchTableOffset _ _).funcs) fun offset => ?_
  refine kept_bind (kept_stepLocal writes_nextInstr.funcs) fun _ => ?_
  refine kept_bind (Moves.get FuncsKept.refl) fun m => kept_bind (kept_stepLocal ?_) fun _ => ?_
  · exact (hskip _).funcs.bind fun _ => Keeps.modify fun _ => rfl
  refine kept_bind (kept_stepLocal (Writes.get.bind fun _ => writes_getInstr _).funcs) ?_
  intro target
  split
  · refine kept_stepLocal (Writes.bind (writes_executeCopyManyImpl _ _ _) fun _ => ?_).funcs
    exact writes_branchTo _
  · refine kept_stepLocal (Writes.bind ?_ fun _ => writes_branchTo _).funcs
    exact writes_executeCopyManyNonOverlappingImpl _ _ _
  · refine kept_bind (kept_of_readOnly readOnly_returnCallerResults) fun cells => ?_
    refine kept_bind (kept_stepLocal (writes_registerListAt _).funcs) fun regs => ?_
    refine kept_bind (kept_stepLocal (writes_getRegisters _).funcs) fun values => ?_
    refine kept_bind (Moves.get FuncsKept.refl) fun m => ?_
    refine kept_bind (kept_of_readOnly (readOnly_assume _)) fun written => ?_
    exact kept_of_keepsStore (keepsStore_setValues _)
  · exact Moves.throw FuncsKept.refl _

/-- One iteration of the interpreter keeps the functions of the store. -/
theorem kept_executeOp {env : Engine T} (hhosts : HostsKeepFuncs env) {op : Op}
    {m m' : Machine T} {flow : ControlFlow} (h : executeOp env op m = .ok flow m') :
    FuncsKept m m' := by
  cases hcall : op.callSite with
  | some site =>
    rw [executeOp_callSite hcall] at h
    obtain ⟨pulled, m₁, hsite, hflow⟩ := bind_eq_ok.mp h
    cases hflow
    obtain ⟨results, target, m₂, hresolve, hcallee⟩ := executeSite_eq_ok.mp hsite
    have hstill := (keeps_still_resolveSite env site).of_ok hresolve
    have hstore : FuncsKept m m₂ := FuncsKept.of_store (congrArg (fun s => s.2.2.2) hstill)
    exact hstore.trans (kept_executeCallee hhosts hcallee)
  | none =>
    cases hreturn : op.isReturn with
    | true =>
      rw [executeOp_return hreturn] at h
      exact FuncsKept.of_store (store_executeReturn hreturn h)
    | false =>
      rw [executeOp_other hcall hreturn] at h
      obtain ⟨_, m₁, hother, hflow⟩ := bind_eq_ok.mp h
      cases hflow
      have hkept : Moves FuncsKept (executeOther env op) := by
        unfold executeOther
        split
        · exact kept_executeBranchTableMany _ _ _
        · exact kept_stepLocal (keepsFuncs_executeLocal _ _)
      simpa [hother] using hkept m

end Executor

end MotokoDebugger
