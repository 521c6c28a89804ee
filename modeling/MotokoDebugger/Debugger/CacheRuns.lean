import MotokoDebugger.Debugger.Entry
import MotokoDebugger.Debugger.Mirror
import MotokoDebugger.Executor.Coherence

/-!
# The cached instance over runs

* `aligned_fault`, `current_fault`: what an iteration that fails leaves of the call stack and of
  the cache.
* `Reached`: the states of the executor under the plain engine and under the debugger, with the
  instances that the frames belong to.
* `coherent_of_reached`: the cache is that of the topmost frame, in every state of every run that
  does not come back to a frame of another instance from a tail call of a host function, and that
  goes on after an error only where a failed host function has left the cached memory as it was.
-/

namespace MotokoDebugger

variable {T : Type}

namespace CallStack

/-- The marks of the frames, the instances and the limit of the number of frames. -/
def outline (calls : CallStack) : (List Bool × List Nat) × Nat :=
  (calls.marks, calls.recursionLimit)

lemma outline_updateInstrPtr (calls : CallStack) (ip : InstructionPtr) :
    (calls.updateInstrPtr ip).outline = calls.outline := by
  rw [outline, outline, marks_updateInstrPtr, updateInstrPtr_recursionLimit]

lemma length_of_outline {calls calls' : CallStack} (h : calls'.outline = calls.outline) :
    calls'.frames.length = calls.frames.length := by
  have hlen := congrArg (fun o => o.1.1.length) h
  simpa [outline, marks] using hlen

end CallStack

lemma Aligned.of_outline {calls calls' : CallStack} {owners : List Nat} (h : Aligned calls owners)
    (hout : calls'.outline = calls.outline) : Aligned calls' owners :=
  h.of_marks (congrArg Prod.fst hout)

namespace Executor

open StateExcept

variable {env : Engine T}

/-! ## Iterations that fail -/

/-- The owners of the frames that an iteration leaves from `m` to `m'`. -/
def ownersLeft (m m' : Machine T) (owners : List Nat) : List Nat :=
  owners.drop (m.stack.calls.frames.length - m'.stack.calls.frames.length)

/-- A host function that fails after a tail call leaves the frames of the caller, with or without
the topmost one. -/
lemma hostTailCall_fault {hasParams : Bool} {results : RegSpan} {func : Nat}
    {entity : HostFuncEntity} {m m' : Machine T} {stop : Stop}
    (h : executeCallee env ⟨.tail, hasParams⟩ results (.host func entity) m = .error stop m')
    (hstop : stop.IsFault) :
    m'.stack.calls = m.stack.calls ∨ ∃ frame popped calls,
      m.stack.calls.pop = some (frame, popped, calls) ∧
        m'.stack.calls.outline = calls.outline := by
  rcases bind_eq_error.mp h with h | ⟨_, m₁, hhook, h⟩
  · exact .inl ((keepsCalls_invokeCallHook _ _).of_error h)
  have hcalls := (keepsCalls_invokeCallHook _ _).of_ok hhook
  have hrun : ∀ {m₂ m₃ : Machine T} {inst : Nat} {r : EStateM.Result Stop (Machine T) Unit},
      hostCaller .tail m₁ = .ok () m₂ →
      runHostFunc env ⟨.tail, hasParams⟩ results func entity inst m₂ = r → finalState r = m₃ →
      ∃ frame popped calls, m.stack.calls.pop = some (frame, popped, calls) ∧
        m₃.stack.calls.outline = calls.outline := by
    rintro m₂ _ inst _ hcaller rfl rfl
    obtain ⟨frame, popped, calls, hpop, rfl⟩ := hostCaller_eq_ok hcaller
    rw [hcalls] at hpop
    refine ⟨frame, popped, calls, hpop, ?_⟩
    exact keeps_calls_runHostFunc CallStack.outline_updateInstrPtr _ _ _ _ _ _ _
  rcases bind_eq_error.mp h with h | ⟨_, m₂, hhost, h⟩
  · rw [executeHostFunc_eq] at h
    rcases bind_eq_error.mp h with h | ⟨_, _, hget, h⟩
    · cases h
    cases hget
    rcases bind_eq_error.mp h with h | ⟨inst, _, hunwrap, h⟩
    · exact absurd hstop (noFault_unwrap _ _ _ _ h)
    obtain ⟨-, rfl⟩ := unwrap_eq_ok.mp hunwrap
    rcases bind_eq_error.mp h with h | ⟨_, m₃, hcaller, h⟩
    · exact absurd hstop (noFault_hostCaller _ _ _ _ h)
    · exact .inr (hrun hcaller h rfl)
  · rw [executeHostFunc_eq] at hhost
    simp only [bind_eq_ok, get_apply, unwrap_eq_ok, EStateM.Result.ok.injEq] at hhost
    obtain ⟨_, _, ⟨rfl, rfl⟩, inst, _, ⟨-, rfl⟩, _, m₃, hcaller, hhost⟩ := hhost
    obtain ⟨frame, popped, calls, hpop, hout⟩ := hrun hcaller hhost rfl
    refine .inr ⟨frame, popped, calls, hpop, ?_⟩
    rw [(keepsCalls_invokeCallHook _ _).of_error h]
    exact hout

/-- An iteration that fails keeps the frames and their instances, but for a tail call of a host
function, which may have popped its caller. -/
theorem outline_fault {m m' : Machine T} {stop : Stop} (hlimit : InLimit m)
    (h : executeOne env m = .error stop m') (hstop : stop.IsFault) :
    m'.stack.calls.outline = m.stack.calls.outline ∨ TailCallsHost env m ∧
      ∃ frame popped calls, m.stack.calls.pop = some (frame, popped, calls) ∧
        m'.stack.calls.outline = calls.outline := by
  rcases executeOne_fault h hstop with hstill | ⟨op, hother⟩ |
    ⟨instr, site, target, results, m₁, hinstr, hsite, htarget, hstill, hcallee⟩
  · exact .inl (congrArg (fun s => s.2.2.1.calls.outline) hstill)
  · rw [(keepsCalls_executeOther _ _).of_error hother]
    exact .inl rfl
  · have hcalls : m₁.stack.calls = m.stack.calls := congrArg (fun s => s.2.2.1.calls) hstill
    rw [← hcalls]
    cases hresults : site.results with
    | some regs =>
      have hcontext : site.context = ⟨.nested, site.hasParams⟩ := by
        simp [CallSite.context, hresults]
      rw [hcontext] at hcallee
      exact .inl (executeCallee_nested_fault CallStack.outline_updateInstrPtr _ _ _ _ _ _ _
        hcallee hstop)
    | none =>
      have hcontext : site.context = ⟨.tail, site.hasParams⟩ := by
        simp [CallSite.context, hresults]
      rw [hcontext] at hcallee
      cases target with
      | compiled body inst =>
        have hroom : m₁.stack.calls.frames.length ≤ m₁.stack.calls.recursionLimit := by
          rw [hcalls, ← CallStack.length_funcs]
          exact hlimit
        rw [executeCallee_tail_fault hroom hcallee hstop]
        exact .inl rfl
      | host func entity =>
        rcases hostTailCall_fault hcallee hstop with hkept | hpopped
        · rw [hkept]
          exact .inl rfl
        · exact .inr ⟨⟨instr, site, func, entity, hinstr, hsite, hresults, htarget⟩, hpopped⟩

/-- The frames that a failed iteration leaves are aligned. -/
theorem aligned_fault {m m' : Machine T} {stop : Stop} {owners : List Nat} (hlimit : InLimit m)
    (haligned : Aligned m.stack.calls owners) (h : executeOne env m = .error stop m')
    (hstop : stop.IsFault) :
    Aligned m'.stack.calls (ownersLeft m m' owners) ∧
      (ownersLeft m m' owners = owners ∨
        TailCallsHost env m ∧ ownersLeft m m' owners = owners.tail) := by
  rcases outline_fault hlimit h hstop with hout | ⟨htail, frame, popped, calls, hpop, hout⟩
  · have hleft : ownersLeft m m' owners = owners := by
      rw [ownersLeft, CallStack.length_of_outline hout, Nat.sub_self, List.drop_zero]
    rw [hleft]
    exact ⟨haligned.of_outline hout, .inl rfl⟩
  · obtain ⟨owner, rest, rfl, hrest, -⟩ := aligned_pop haligned hpop
    have hleft : ownersLeft m m' (owner :: rest) = rest := by
      obtain ⟨hframes, -⟩ := CallStack.pop_eq_some hpop
      have hone : m.stack.calls.frames.length - m'.stack.calls.frames.length = 1 := by
        rw [CallStack.length_of_outline hout, hframes, List.length_cons]
        omega
      rw [ownersLeft, hone, List.drop_one, List.tail_cons]
    rw [hleft]
    exact ⟨hrest.of_outline hout, .inr ⟨htail, rfl⟩⟩

/-- A failed iteration leaves the call stack within its limit. -/
lemma inLimit_fault {m m' : Machine T} {stop : Stop} (hlimit : InLimit m)
    (h : executeOne env m = .error stop m') (hstop : stop.IsFault) : InLimit m' := by
  have hmove : ∀ {calls : CallStack}, calls.frames.length ≤ calls.recursionLimit →
      m'.stack.calls.outline = calls.outline → InLimit m' := by
    intro calls hroom hout
    have hlen := CallStack.length_of_outline hout
    have hrec : m'.stack.calls.recursionLimit = calls.recursionLimit := congrArg Prod.snd hout
    simp only [InLimit, skeleton, funcs, CallStack.length_funcs]
    omega
  have hroom : m.stack.calls.frames.length ≤ m.stack.calls.recursionLimit := by
    simpa [InLimit, skeleton, funcs, CallStack.length_funcs] using hlimit
  rcases outline_fault hlimit h hstop with hout | ⟨-, frame, popped, calls, hpop, hout⟩
  · exact hmove hroom hout
  · obtain ⟨hframes, hrec, -⟩ := CallStack.pop_eq_some hpop
    rw [hframes, List.length_cons] at hroom
    exact hmove (by omega) hout

/-- A host function that the next instruction calls and that fails leaves the memory and the
global that are cached. -/
def FailsClean (env : Engine T) (m : Machine T) : Prop :=
  ∀ instr site func entity, env.instrAt m.ip = some instr → instr.op.callSite = some site →
    callee env site m = some (.host func entity) →
    ∀ params data error store, env.hostCall entity.func (some m.cache.inst) params
      { m.store with data } = (.error error, store) →
      CachedInstance.load store m.cache.inst = CachedInstance.load m.store m.cache.inst

/-- A failed iteration leaves a fresh cache. -/
lemma fresh_fault {m m' : Machine T} {stop : Stop} {owner : Nat}
    (hinst : m.stack.calls.instance_ = some owner) (hfresh : Fresh owner m)
    (hclean : FailsClean env m) (h : executeOne env m = .error stop m') (hstop : stop.IsFault) :
    Fresh owner m' := by
  rcases executeOne_fault h hstop with hstill | ⟨op, hother⟩ |
    ⟨instr, site, target, results, m₁, hinstr, hsite, htarget, hstill, hcallee⟩
  · exact hfresh.of_view (view_of_still hstill)
  · exact (fresh_executeOther env op owner).of_error hfresh hother hstop
  · have hfresh₁ : Fresh owner m₁ := hfresh.of_view (view_of_still hstill)
    cases target with
    | compiled body inst =>
      rcases bind_eq_error.mp hcallee with hcallee | ⟨_, m₂, -, hswitch⟩
      · exact hfresh₁.of_view ((keeps_view_prepareCompiledFuncCall _ _ _ _ _).of_error hcallee)
      · cases inst with
        | none => cases hswitch
        | some inst => exact absurd hstop (noFault_updateCache _ _ _ _ hswitch)
    | host func entity =>
      have hcalls : m₁.stack.calls = m.stack.calls := congrArg (fun s => s.2.2.1.calls) hstill
      have hstore : m₁.store = m.store := congrArg (fun s => s.2.2.2) hstill
      have howner : m.cache.inst = owner := (load_eq_some.mp hfresh).1
      rw [← hcalls] at hinst
      refine fresh_hostCall_fault hinst hfresh₁ ?_ hcallee hstop
      rw [hstore, ← howner]
      exact hclean instr site func entity hinstr hsite htarget

/-- A failed iteration leaves the cache of the topmost frame, but for a tail call of a host
function from another instance and for a host function that has changed the cached memory. -/
theorem current_fault {m m' : Machine T} {stop : Stop} {owners : List Nat} (hlimit : InLimit m)
    (haligned : Aligned m.stack.calls owners) (hcurrent : Current owners m)
    (hcond : ¬ (TailCallsHost env m ∧ OnOtherInstance m)) (hclean : FailsClean env m)
    (h : executeOne env m = .error stop m') (hstop : stop.IsFault) :
    Current (ownersLeft m m' owners) m' := by
  have hfresh : ∀ owner, owners.head? = some owner → Fresh owner m' := fun owner howner =>
    fresh_fault (haligned.instance_.trans howner) (hcurrent owner howner) hclean h hstop
  rcases (aligned_fault hlimit haligned h hstop).2 with hleft | ⟨htail, hleft⟩
  · rw [hleft]
    exact hfresh
  · rw [hleft]
    intro next hnext
    match howners : owners with
    | [] | [_] => simp at hnext
    | owner :: other :: rest =>
      obtain rfl : other = next := by
        simpa using hnext
      have hsame : other = owner := by
        by_contra hne
        exact hcond ⟨htail, (onOtherInstance_iff haligned).mpr hne⟩
      rw [hsame]
      exact hfresh owner rfl

end Executor

namespace Debugger

open StateExcept Executor Runs

variable {env : Engine T} {goes fails : Machine T → Prop}

/-! ## Runs -/

/-- A state of the stacks and the store, the instances that the frames belong to, and whether an
executor runs them.

The stacks start out empty. Functions are started on them, with an executor for the topmost frame.
The plain loop makes iterations where `goes` holds; it has no executor any more after one that
fails. The debugger makes steps where `goes` holds and keeps its executor after one that fails,
where `fails` holds. Whatever happens outside keeps the call stack. -/
inductive Reached (env : Engine T) (goes fails : Machine T → Prop) :
    Machine T → List Nat → Bool → Prop where
  | fresh {m : Machine T} (hframes : m.stack.calls.frames = [])
    (hinstances : m.stack.calls.instances = []) : Reached env goes fails m [] false
  | outside {m m' : Machine T} {owners : List Nat} {live : Bool}
    (h : Reached env goes fails m owners live) (hcalls : m'.stack.calls = m.stack.calls) :
    Reached env goes fails m' owners false
  | entered {m m' : Machine T} {owners : List Nat} {live : Bool} {func : WasmFuncEntity}
    {lenResults : Nat} {params : List UntypedVal} (h : Reached env goes fails m owners live)
    (henter : enterRootFunc env func lenResults params m = .ok () m') :
    Reached env goes fails m' (func.inst :: owners) false
  | refused {m m' : Machine T} {owners : List Nat} {live : Bool} {func : WasmFuncEntity}
    {lenResults : Nat} {params : List UntypedVal} {stop : Stop}
    (h : Reached env goes fails m owners live)
    (henter : enterRootFunc env func lenResults params m = .error stop m') :
    Reached env goes fails m' owners live
  | created {m m' : Machine T} {owners : List Nat} {live : Bool}
    (h : Reached env goes fails m owners live) (hnew : newExecutor m = .ok () m') :
    Reached env goes fails m' owners true
  | iterated {m m' : Machine T} {owners : List Nat} {flow : ControlFlow}
    (h : Reached env goes fails m owners true) (hgoes : goes m)
    (hone : executeOne env m = .ok flow m') :
    Reached env goes fails m' (ownersOfStep env m owners) true
  | failed {m m' : Machine T} {owners : List Nat} {stop : Stop}
    (h : Reached env goes fails m owners true) (hone : executeOne env m = .error stop m')
    (hstop : stop.IsFault) : Reached env goes fails m' (ownersLeft m m' owners) false
  | stepped {s s' : Session T} {owners : List Nat} {sig : Signal}
    (h : Reached env goes fails s.machine owners true) (hgoes : goes s.machine)
    (hstep : executeStep env s = .ok sig s') :
    Reached env goes fails s'.machine (ownersOfStep env s.machine owners) true
  | stepFailed {s s' : Session T} {owners : List Nat} {stop : Stop}
    (h : Reached env goes fails s.machine owners true) (hfails : fails s.machine)
    (hstep : executeStep env s = .error stop s') (hstop : stop.IsFault) :
    Reached env goes fails s'.machine (ownersLeft s.machine s'.machine owners) true

/-- The call stack is aligned and within its limit, and an executor has the cache of the topmost
frame. -/
structure InStep (m : Machine T) (owners : List Nat) (live : Bool) : Prop where
  aligned : Aligned m.stack.calls owners
  inLimit : InLimit m
  current : live = true → Current owners m

lemma inLimit_of_calls {m m' : Machine T} (h : InLimit m)
    (hcalls : m'.stack.calls = m.stack.calls) : InLimit m' := by
  rwa [InLimit, skeleton_of_calls hcalls]

lemma inLimit_enterRootFunc {func : WasmFuncEntity} {lenResults : Nat} {params : List UntypedVal}
    {m m' : Machine T} (hlimit : InLimit m)
    (h : enterRootFunc env func lenResults params m = .ok () m') : InLimit m' := by
  simp only [enterRootFunc, bind_eq_ok, get_apply, EStateM.Result.ok.injEq, liftTrap_eq_ok,
    setValues_apply, assume_eq_ok, pushFrame_eq_ok] at h
  obtain ⟨_, _, ⟨rfl, rfl⟩, values, _, ⟨-, rfl⟩, _, _, ⟨-, rfl⟩, ⟨allocated, offsets⟩, _, ⟨-, rfl⟩,
    filled, _, ⟨-, rfl⟩, _, _, ⟨-, rfl⟩, calls, hpush, rfl⟩ := h
  obtain ⟨hroom, hrec, changed, hframes⟩ := CallStack.push_eq_ok hpush
  simp only [InLimit, skeleton, funcs, CallStack.length_funcs] at hlimit ⊢
  rw [hframes, hrec, List.length_cons]
  dsimp only at hroom ⊢
  omega

/-- What a function that cannot be started leaves alone. -/
def kept (m : Machine T) := (m.stack.calls, view m)

lemma keeps_kept_setValues (values : ValueStack) : Keeps kept (setValues values : ExecM T Unit) :=
  Keeps.modify fun _ => rfl

lemma enterRootFunc_refused {func : WasmFuncEntity} {lenResults : Nat} {params : List UntypedVal}
    {m m' : Machine T} {stop : Stop}
    (h : enterRootFunc env func lenResults params m = .error stop m') : kept m' = kept m := by
  have hpush : ∀ (frame : CallFrame) (inst : Option Nat),
      FaultKeeps (fun _ => True) kept (pushFrame frame inst : ExecM T Unit) := by
    intro frame inst m stop m' h _
    obtain ⟨code, -, -, rfl⟩ := pushFrame_eq_error.mp h
    rfl
  have henter : FaultKeeps (fun _ => True) kept (enterRootFunc env func lenResults params) := by
    refine FaultKeeps.after Keeps.get fun _ => FaultKeeps.bind_readOnly (readOnly_liftTrap _) ?_
    intro values
    refine FaultKeeps.after (keeps_kept_setValues _) fun _ => ?_
    refine FaultKeeps.bind_readOnly (readOnly_liftTrap _) fun ⟨allocated, offsets⟩ => ?_
    refine FaultKeeps.bind_readOnly (readOnly_assume _) fun filled => ?_
    exact FaultKeeps.after (keeps_kept_setValues _) fun _ => hpush _ _
  exact henter m stop m' h trivial

/-- A new executor has the cache of the topmost frame. -/
lemma current_newExecutor {m m' : Machine T} {owners : List Nat}
    (haligned : Aligned m.stack.calls owners) (h : newExecutor m = .ok () m') :
    m'.stack.calls = m.stack.calls ∧ Current owners m' := by
  obtain ⟨_, _, hget, h⟩ := bind_eq_ok.mp h
  cases hget
  obtain ⟨inst, _, hunwrap, h⟩ := bind_eq_ok.mp h
  obtain ⟨hinst, rfl⟩ := unwrap_eq_ok.mp hunwrap
  obtain ⟨_, m₁, hupdate, h⟩ := bind_eq_ok.mp h
  have hcalls := (keepsCalls_updateCache _).of_ok hupdate
  have hfresh := fresh_of_updateCache hupdate
  obtain ⟨_, _, hget, h⟩ := bind_eq_ok.mp h
  cases hget
  obtain ⟨frame, _, hframe, h⟩ := bind_eq_ok.mp h
  obtain ⟨-, rfl⟩ := unwrap_eq_ok.mp hframe
  cases h
  refine ⟨hcalls, fun owner howner => ?_⟩
  rw [haligned.instance_, howner] at hinst
  obtain rfl := Option.some.inj hinst
  exact hfresh

/-- A return without a frame changes no owner. -/
lemma ownersOfStep_nil {m : Machine T} {instr : Instruction} (hinstr : env.instrAt m.ip = some instr)
    (hreturn : instr.op.isReturn) : ownersOfStep env m [] = [] := by
  simp [ownersOfStep, hinstr, callSite_of_isReturn hreturn]

/-- The steps that leave the cache of the topmost frame. -/
def KeepsCache (env : Engine T) (m : Machine T) : Prop := ¬ (TailCallsHost env m ∧ OnOtherInstance m)

/-- The steps that do so also where they fail. -/
def FaultKeepsCache (env : Engine T) (m : Machine T) : Prop := KeepsCache env m ∧ FailsClean env m

/-- Every step of a run keeps the executor in step with the call stack. -/
theorem Reached.inStep {m : Machine T} {owners : List Nat} {live : Bool}
    (h : Reached env (KeepsCache env) (FaultKeepsCache env) m owners live) : InStep m owners live := by
  induction h with
  | fresh hframes hinstances =>
    refine ⟨⟨by rw [hframes]; rfl, by rw [hinstances]; rfl⟩, ?_, fun h => by cases h⟩
    simp [InLimit, skeleton, funcs, CallStack.funcs, hframes]
  | outside h hcalls ih =>
    refine ⟨?_, inLimit_of_calls ih.inLimit hcalls, fun h => by cases h⟩
    rw [hcalls]
    exact ih.aligned
  | entered h henter ih =>
    exact ⟨aligned_enterRootFunc ih.aligned henter, inLimit_enterRootFunc ih.inLimit henter,
      fun h => by cases h⟩
  | refused h henter ih =>
    obtain ⟨hcalls, hview⟩ := Prod.mk.inj (enterRootFunc_refused henter)
    refine ⟨?_, inLimit_of_calls ih.inLimit hcalls, fun hlive => (ih.current hlive).of_view hview⟩
    rw [hcalls]
    exact ih.aligned
  | created h hnew ih =>
    obtain ⟨hcalls, hcurrent⟩ := current_newExecutor ih.aligned hnew
    refine ⟨?_, inLimit_of_calls ih.inLimit hcalls, fun _ => hcurrent⟩
    rw [hcalls]
    exact ih.aligned
  | iterated h hgoes hone ih =>
    exact ⟨aligned_executeOne ih.aligned hone, inLimit_executeOne ih.inLimit hone,
      fun _ => current_executeOne ih.aligned (ih.current rfl) hgoes hone⟩
  | failed h hone hstop ih =>
    exact ⟨(aligned_fault ih.inLimit ih.aligned hone hstop).1, inLimit_fault ih.inLimit hone hstop,
      fun h => by cases h⟩
  | @stepped s s' owners sig h hgoes hstep ih =>
    rcases executeStep_moves hstep with ⟨flow, hone⟩ | ⟨hsame, hframes, instr, hinstr, hreturn⟩
    · exact ⟨aligned_executeOne ih.aligned hone, inLimit_executeOne ih.inLimit hone,
        fun _ => current_executeOne ih.aligned (ih.current rfl) hgoes hone⟩
    · have hnil : owners = [] := by
        have hlen := ih.aligned.length
        rw [hframes] at hlen
        exact List.length_eq_zero_iff.mp hlen.symm
      subst hnil
      rw [ownersOfStep_nil hinstr hreturn, hsame]
      exact ih
  | @stepFailed s s' owners stop h hfails hstep hstop ih =>
    rcases executeStep_fails hstep hstop with rfl | hone
    · rw [ownersLeft, Nat.sub_self, List.drop_zero]
      exact ih
    · exact ⟨(aligned_fault ih.inLimit ih.aligned hone hstop).1,
        inLimit_fault ih.inLimit hone hstop, fun _ => current_fault ih.inLimit ih.aligned
          (ih.current rfl) hfails.1 hfails.2 hone hstop⟩

/-- In every state of every run whose steps neither come back to a frame of another instance from
a tail call of a host function nor go on after a host function that fails and leaves another memory
than the cached one, the cache is that of the topmost frame. -/
theorem coherent_of_reached {m : Machine T} {owners : List Nat} {owner : Nat}
    (h : Reached env (KeepsCache env) (FaultKeepsCache env) m owners true) (howner : owners.head? = some owner) :
    Coherent m.store m.cache owner :=
  coherent_iff_load.mpr (h.inStep.current rfl owner howner)

/-- The condition on a step that returns is exact. -/
theorem current_iff_keepsCache {m m' : Machine T} {owners : List Nat} {flow : ControlFlow}
    (h : Reached env (KeepsCache env) (FaultKeepsCache env) m owners true)
    (hone : executeOne env m = .ok flow m') :
    Current (ownersOfStep env m owners) m' ↔ KeepsCache env m := by
  obtain ⟨haligned, -, hcurrent⟩ := h.inStep
  constructor
  · intro hnext hcond
    exact not_current_executeOne haligned hcond hone hnext
  · intro hgoes
    exact current_executeOne haligned (hcurrent rfl) hgoes hone

/-! ## The runs of the two interpreters -/

/-- A call of `execute_root_func` is reached when its loop starts. -/
theorem reached_root {m m₁ m₂ m₃ : Machine T} {func : WasmFuncEntity} {lenResults : Nat}
    {params : List UntypedVal}
    (henter : enterRootFunc env func lenResults params { m with stack := m.stack.reset } =
      .ok () m₁)
    (hhook : invokeCallHook env .callingWasm m₁ = .ok () m₂)
    (hnew : newExecutor m₂ = .ok () m₃) : Reached env goes fails m₃ [func.inst] true := by
  have hfresh : Reached env goes fails { m with stack := m.stack.reset } [] false :=
    .fresh rfl rfl
  exact .created (.outside (.entered hfresh henter)
    ((keepsCalls_invokeCallHook _ _).of_ok hhook)) hnew

/-- The iterations of the plain loop are steps of a run. -/
theorem reached_steps {n : Nat} {m m' : Machine T} {owners : List Nat}
    (h : Reached env goes fails m owners true)
    (hsteps : Steps (fun m m' => goes m ∧ Continues env m m') n m m') :
    ∃ owners', Reached env goes fails m' owners' true := by
  induction hsteps generalizing owners with
  | refl m => exact ⟨owners, h⟩
  | head hstep _ ih => exact ih (.iterated h hstep.1 hstep.2)

/-- A function that the debugger starts is reached. -/
theorem reached_executeFunc {s s' : Session T} {owners : List Nat} {live : Bool} {func : Nat}
    {params : List Val} (h : Reached env goes fails s.machine owners live)
    (hexec : executeFunc env func params s = .ok () s') :
    ∃ owner, Reached env goes fails s'.machine (owner :: owners) true := by
  obtain ⟨wasmFunc, inst, m, -, -, -, hprepare, rfl⟩ := executeFunc_eq_ok.mp hexec
  rw [prepareFunc_eq] at hprepare
  obtain ⟨_, m₁, henter, hnew⟩ := bind_eq_ok.mp hprepare
  exact ⟨wasmFunc.inst, .created (.entered h henter) hnew⟩

/-! ## A cache of another instance -/

/-- A function that calls one of another instance, which makes a tail call of a host function. -/
def hostTailEngine : Engine Unit :=
  Engine.ofCode [⟨[⟨1, .callImported0 ⟨0⟩ 0⟩, ⟨2, .return_⟩], [], 0⟩,
    ⟨[⟨4, .returnCallImported0 0⟩], [], 0⟩] [⟨[], []⟩]

/-- Two instances, each with a memory of its own. -/
def hostTailMachine : Machine Unit where
  sp := default
  ip := default
  cache := default
  stack := ⟨⟨[], 64⟩, ⟨[], [], 4⟩⟩
  store :=
    { Store.ofFuncs [.wasm ⟨0, 0, 0⟩, .wasm ⟨0, 1, 1⟩, .host ⟨0, 0, 0, 0⟩] with
      memories := [⟨[], 0, none, none⟩, ⟨[7], 1, none, none⟩]
      instances := [⟨[0], [1], [], [0], [], [], []⟩, ⟨[0], [2], [], [1], [], [], []⟩] }

/-- The states of the run: at the call, at the tail call, and back in the first function. -/
def hostTailState : Nat → Machine Unit
  | 0 => finalState ((do
      enterRootFunc hostTailEngine ⟨0, 0, 0⟩ 0 []
      newExecutor : ExecM Unit Unit) hostTailMachine)
  | n + 1 => finalState (executeOne hostTailEngine (hostTailState n))

lemma reached_hostTailState {goes fails : Machine Unit → Prop} :
    Reached hostTailEngine goes fails (hostTailState 0) [0] true := by
  have hfresh : Reached hostTailEngine goes fails hostTailMachine [] false := .fresh rfl rfl
  have henter : enterRootFunc hostTailEngine ⟨0, 0, 0⟩ 0 [] hostTailMachine = .ok () _ :=
    eq_ok_of_returned rfl
  exact .created (.entered hfresh henter) (eq_ok_of_returned rfl)

/-- The first function goes on with the memory of the second instance. -/
theorem tailCalled_host_leaves_cache :
    ¬ ∀ m owners owner, Reached hostTailEngine (fun _ => True) (fun _ => True) m owners true →
      owners.head? = some owner → Coherent m.store m.cache owner := by
  intro hall
  have hcalled : Reached hostTailEngine (fun _ => True) (fun _ => True) (hostTailState 1) [1, 0]
      true :=
    .iterated reached_hostTailState trivial (eq_ok_of_returned rfl)
  have hback : Reached hostTailEngine (fun _ => True) (fun _ => True) (hostTailState 2) [0] true :=
    .iterated hcalled trivial (eq_ok_of_returned rfl)
  have hinst : (hostTailState 2).cache.inst = 0 := (hall _ _ 0 hback rfl).inst
  exact absurd hinst (by decide)

/-- The second instance's memory is cached while its function runs. -/
theorem coherent_of_reached_hostTail :
    Coherent (hostTailState 1).store (hostTailState 1).cache 1 := by
  have hgoes : KeepsCache hostTailEngine (hostTailState 0) := by
    rintro ⟨-, frame, caller, frames, hframes, -⟩
    have hlen : 1 = frames.length + 2 := congrArg List.length hframes
    omega
  have hcalled : Reached hostTailEngine (KeepsCache hostTailEngine)
      (FaultKeepsCache hostTailEngine) (hostTailState 1) [1, 0] true :=
    .iterated reached_hostTailState hgoes (eq_ok_of_returned (a := .continue_) rfl)
  exact coherent_of_reached hcalled rfl

end Debugger

end MotokoDebugger
