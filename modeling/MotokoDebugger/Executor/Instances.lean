import Mathlib.Data.List.Destutter
import MotokoDebugger.Executor.Loop

/-!
# The instances of the frames

The call stack lists an instance only where it changes from one frame to the next.

* `Aligned`: the instances and the marks of the frames, by the instances the frames belong to.
* `aligned_push_some`, `aligned_push_none`, `aligned_pop`: pushing and popping a frame.
* `ownersOfStep`: the instances the frames belong to after an iteration of the plain loop.
* `instances_of_owned`: the call stack is aligned in every state of every run.
-/

namespace MotokoDebugger

/-! ## Lists of owners -/

/-- One entry for each maximal run of equal neighbours. -/
def instanceRuns (owners : List Nat) : List Nat := owners.destutter (· ≠ ·)

/-- Which owners differ from the next one, or have none. -/
def changes : List Nat → List Bool
  | [] => []
  | owner :: owners => decide (owners.head? ≠ some owner) :: changes owners

lemma instanceRuns_cons (owner : Nat) (owners : List Nat) :
    instanceRuns (owner :: owners) =
      if owners.head? = some owner then instanceRuns owners else owner :: instanceRuns owners := by
  cases owners with
  | nil => rfl
  | cons next owners =>
    rw [instanceRuns, instanceRuns, List.destutter_cons_cons, List.destutter_cons',
      List.head?_cons]
    by_cases h : owner = next
    · subst h
      simp
    · rw [if_pos h, if_neg (fun heq => h (Option.some.inj heq).symm)]

/-- The first run is that of the first owner. -/
lemma head?_instanceRuns (owners : List Nat) : (instanceRuns owners).head? = owners.head? := by
  cases owners with
  | nil => rfl
  | cons owner owners =>
    induction owners generalizing owner with
    | nil => rfl
    | cons next owners ih =>
      rw [instanceRuns_cons]
      by_cases h : (next :: owners).head? = some owner
      · rw [if_pos h, ih next, h, List.head?_cons]
      · rw [if_neg h]
        rfl

lemma length_changes (owners : List Nat) : (changes owners).length = owners.length := by
  induction owners with
  | nil => rfl
  | cons owner owners ih => simp [changes, ih]

/-! ## The call stack -/

/-- The frames of the call stack belong to `owners`: a frame is marked where the one below belongs
to another instance, and the instances are those of the maximal runs. -/
structure Aligned (calls : CallStack) (owners : List Nat) : Prop where
  marks : calls.frames.map (·.changedInstance) = changes owners
  instances : calls.instances = instanceRuns owners

namespace CallStack

/-- What alignment observes of the call stack. -/
def marks (calls : CallStack) : List Bool × List Nat :=
  (calls.frames.map (·.changedInstance), calls.instances)

lemma marks_updateInstrPtr (calls : CallStack) (ip : InstructionPtr) :
    (calls.updateInstrPtr ip).marks = calls.marks := by
  unfold updateInstrPtr
  split
  · rfl
  · rename_i heq
    simp [marks, heq]

end CallStack

section Aligned

variable {calls calls' : CallStack} {owners : List Nat} {call frame : CallFrame}

lemma Aligned.of_marks (h : Aligned calls owners) (hmarks : calls'.marks = calls.marks) :
    Aligned calls' owners := by
  obtain ⟨hframes, hinstances⟩ := Prod.mk.inj hmarks
  exact ⟨hframes.trans h.marks, hinstances.trans h.instances⟩

lemma Aligned.length (h : Aligned calls owners) : calls.frames.length = owners.length := by
  have hlen := congrArg List.length h.marks
  rwa [List.length_map, length_changes] at hlen

/-- The topmost instance is that of the topmost frame. -/
lemma Aligned.instance_ (h : Aligned calls owners) : calls.instance_ = owners.head? := by
  rw [CallStack.instance_, h.instances, head?_instanceRuns]

lemma Aligned.ne_nil (h : Aligned calls owners) (hframes : calls.frames ≠ []) :
    ∃ owner rest, owners = owner :: rest := by
  cases owners with
  | nil =>
    have hlen := h.length
    exact absurd (List.length_eq_zero_iff.mp hlen) hframes
  | cons owner rest => exact ⟨owner, rest, rfl⟩

/-- Pushing a frame of a given instance. -/
lemma aligned_push_some {inst : Nat} (h : Aligned calls owners)
    (hpush : calls.push call (some inst) = .ok calls') : Aligned calls' (inst :: owners) := by
  have hhead : calls.instances.head? = owners.head? := h.instance_
  unfold CallStack.push at hpush
  split at hpush
  · cases hpush
  · simp only [CallStack.pushInstance, hhead] at hpush
    by_cases hsame : owners.head? = some inst
    · rw [if_pos hsame] at hpush
      cases hpush
      refine ⟨?_, ?_⟩
      · simp [changes, hsame, h.marks]
      · rw [instanceRuns_cons, if_pos hsame]
        exact h.instances
    · rw [if_neg hsame] at hpush
      cases hpush
      refine ⟨?_, ?_⟩
      · simp [changes, hsame, h.marks]
      · rw [instanceRuns_cons, if_neg hsame, h.instances]

/-- Pushing a frame of the instance of the topmost one. -/
lemma aligned_push_none {owner : Nat} (h : Aligned calls owners)
    (howner : owners.head? = some owner) (hcall : call.changedInstance = false)
    (hpush : calls.push call none = .ok calls') : Aligned calls' (owner :: owners) := by
  unfold CallStack.push at hpush
  split at hpush
  · cases hpush
  · cases hpush
    refine ⟨?_, ?_⟩
    · simp [changes, howner, hcall, h.marks]
    · rw [instanceRuns_cons, if_pos howner]
      exact h.instances

/-- Popping a frame: it comes with its instance where the frame below belongs to another one. -/
lemma aligned_pop {popped : Option Nat} (h : Aligned calls owners)
    (hpop : calls.pop = some (frame, popped, calls')) :
    ∃ owner rest, owners = owner :: rest ∧ Aligned calls' rest ∧
      popped = if rest.head? = some owner then none else some owner := by
  obtain ⟨hframes, -, hchanged, hsame⟩ := CallStack.pop_eq_some hpop
  obtain ⟨owner, rest, rfl⟩ := h.ne_nil (by rw [hframes]; exact List.cons_ne_nil _ _)
  have hmarks := h.marks
  rw [hframes, List.map_cons, changes, List.cons.injEq] at hmarks
  obtain ⟨hmark, hmarks⟩ := hmarks
  have hinstances := h.instances
  rw [instanceRuns_cons] at hinstances
  refine ⟨owner, rest, rfl, ?_⟩
  by_cases hhead : rest.head? = some owner
  · rw [if_pos hhead] at hinstances ⊢
    obtain ⟨hpopped, hrest⟩ := hsame (by rw [hmark]; simpa using hhead)
    exact ⟨⟨hmarks, hrest.trans hinstances⟩, hpopped⟩
  · rw [if_neg hhead] at hinstances ⊢
    obtain ⟨hpopped, hrest⟩ := hchanged (by rw [hmark]; simpa using hhead)
    rw [hinstances] at hpopped hrest
    exact ⟨⟨hmarks, hrest⟩, hpopped⟩

end Aligned

namespace Executor

open StateExcept

variable {T : Type} {env : Engine T}

/-! ## Calls -/

/-- The owners of the frames after a call: a callee without an instance belongs to that of its
caller. -/
def ownersAfter (kind : CallKind) (callee : Callee) (owners : List Nat) : List Nat :=
  match kind, callee with
  | .nested, .compiled _ inst => (inst <|> owners.head?).toList ++ owners
  | .tail, .compiled _ inst => (inst <|> owners.head?).toList ++ owners.tail
  | .nested, .host .. => owners
  | .tail, .host .. => owners.tail

lemma aligned_nestedCall {hasParams : Bool} {results : RegSpan} {func : EngineFunc}
    {inst : Option Nat} {m m' : Machine T} {u : Unit} {owners : List Nat}
    (h : Aligned m.stack.calls owners)
    (hcall : prepareCompiledFuncCall env ⟨.nested, hasParams⟩ results func inst m = .ok u m') :
    Aligned m'.stack.calls ((inst <|> owners.head?).toList ++ owners) := by
  obtain ⟨called, m₁, calls, hdispatch, hpeek, hpush, rfl⟩ := nestedCall_eq_ok.mp hcall
  have hcalls := (keepsCalls_dispatchCompiledFunc _ _ _ _).of_ok hdispatch
  obtain ⟨-, values, offsets, -, -, rfl⟩ := dispatchCompiledFunc_eq_ok.mp hdispatch
  rw [hcalls] at hpeek hpush
  have hsaved := h.of_marks (CallStack.marks_updateInstrPtr m.stack.calls (m₁.ip.add 1))
  cases inst with
  | some inst => exact aligned_push_some hsaved hpush
  | none =>
    have hframes : m.stack.calls.frames ≠ [] := by
      intro hnil
      rw [CallStack.peek, hnil] at hpeek
      cases hpeek
    obtain ⟨owner, rest, rfl⟩ := h.ne_nil hframes
    exact aligned_push_none hsaved rfl rfl hpush

/-- A tail call replaces the owner of the topmost frame. -/
lemma aligned_tailCall {hasParams : Bool} {results : RegSpan} {func : EngineFunc}
    {inst : Option Nat} {m m' : Machine T} {u : Unit} {owners : List Nat}
    (h : Aligned m.stack.calls owners)
    (hcall : prepareCompiledFuncCall env ⟨.tail, hasParams⟩ results func inst m = .ok u m') :
    Aligned m'.stack.calls ((inst <|> owners.head?).toList ++ owners.tail) := by
  obtain ⟨called, m₁, stack, called', callerInst, calls, hdispatch, hmerge, hpush, rfl⟩ :=
    tailCall_eq_ok.mp hcall
  have hcalls := (keepsCalls_dispatchCompiledFunc _ _ _ _).of_ok hdispatch
  obtain ⟨-, values, offsets, -, -, rfl⟩ := dispatchCompiledFunc_eq_ok.mp hdispatch
  obtain ⟨caller, rest, hpop, rfl, rfl⟩ := mergeCallFrames_eq_some hmerge
  rw [hcalls] at hpop
  obtain ⟨owner, rest', rfl, hrest, hcaller⟩ := aligned_pop h hpop
  cases inst with
  | some inst => exact aligned_push_some hrest hpush
  | none =>
    -- the popped frame hands its instance on where it was the only one of its run
    by_cases hhead : rest'.head? = some owner
    · rw [if_pos hhead] at hcaller
      subst hcaller
      exact aligned_push_none hrest hhead rfl hpush
    · rw [if_neg hhead] at hcaller
      subst hcaller
      exact aligned_push_some hrest hpush

lemma aligned_hostCall {c : CallContext} {results : RegSpan} {func : Nat}
    {entity : HostFuncEntity} {m m' : Machine T} {u : Unit} {owners : List Nat}
    (h : Aligned m.stack.calls owners)
    (hcall : executeCallee env c results (.host func entity) m = .ok u m') :
    Aligned m'.stack.calls (ownersAfter c.kind (.host func entity) owners) := by
  obtain ⟨_, m₁, hhook, hcall⟩ := bind_eq_ok.mp hcall
  obtain ⟨_, m₂, hhost, hhook'⟩ := bind_eq_ok.mp hcall
  rw [executeHostFunc_eq] at hhost
  simp only [bind_eq_ok, get_apply, unwrap_eq_ok, EStateM.Result.ok.injEq] at hhost
  obtain ⟨_, _, ⟨rfl, rfl⟩, inst, _, ⟨-, rfl⟩, _, m₃, hcaller, hrun⟩ := hhost
  have h₁ : Aligned m₁.stack.calls owners := by
    rw [(keepsCalls_invokeCallHook _ _).of_ok hhook]
    exact h
  have h₃ : Aligned m₃.stack.calls (ownersAfter c.kind (.host func entity) owners) := by
    obtain ⟨kind, hasParams⟩ := c
    cases kind with
    | nested =>
      have heq : m₁ = m₃ := hostCaller_eq_ok hcaller
      subst heq
      exact h₁
    | tail =>
      obtain ⟨caller, popped, calls, hpop, rfl⟩ := hostCaller_eq_ok hcaller
      obtain ⟨owner, rest, rfl, hrest, -⟩ := aligned_pop h₁ hpop
      exact hrest
  rw [(keepsCalls_invokeCallHook _ _).of_ok hhook']
  exact h₃.of_marks
    ((keeps_calls_runHostFunc CallStack.marks_updateInstrPtr _ _ _ _ _ _).of_ok hrun)

theorem aligned_executeCallee {c : CallContext} {results : RegSpan} {callee : Callee}
    {m m' : Machine T} {u : Unit} {owners : List Nat} (h : Aligned m.stack.calls owners)
    (hcall : executeCallee env c results callee m = .ok u m') :
    Aligned m'.stack.calls (ownersAfter c.kind callee owners) := by
  cases callee with
  | host func entity => exact aligned_hostCall h hcall
  | compiled body inst =>
    obtain ⟨_, m₁, hcall, hswitch⟩ := bind_eq_ok.mp hcall
    rw [(keepsCalls_switchInstance inst).of_ok hswitch]
    obtain ⟨kind, hasParams⟩ := c
    cases kind with
    | nested => exact aligned_nestedCall h hcall
    | tail => exact aligned_tailCall h hcall

/-! ## Returns -/

lemma aligned_returnImpl {m m' : Machine T} {flow : ControlFlow} {owners : List Nat}
    (h : Aligned m.stack.calls owners) (hreturn : returnImpl m = .ok flow m') :
    Aligned m'.stack.calls owners.tail := by
  obtain ⟨returned, popped, calls, cache, hpop, -, -, hresume⟩ := returnImpl_eq_ok.mp hreturn
  obtain ⟨owner, rest, rfl, hrest, -⟩ := aligned_pop h hpop
  have hstack := congrArg (fun r => r.2.stack.calls) hresume
  simp only [resumeCaller_stack] at hstack
  rwa [← hstack]

lemma aligned_executeReturn {op : Op} {m m' : Machine T} {flow : ControlFlow}
    {owners : List Nat} (h : Aligned m.stack.calls owners) (hop : op.isReturn)
    (hreturn : executeReturn env op m = .ok flow m') :
    Aligned m'.stack.calls (if returnsNow op m.toLocal then owners.tail else owners) := by
  cases hnow : returnsNow op m.toLocal with
  | false =>
    obtain ⟨hcalls, -⟩ := executeReturn_skip_calls hop hnow hreturn
    rw [hcalls]
    exact h
  | true =>
    obtain ⟨values, m₁, hvalues, hfinish⟩ := (executeReturn_eq_ok hop hnow).mp hreturn
    obtain ⟨cells, results, regs, written, -, -, -, hret⟩ := finishReturn_eq_ok.mp hfinish
    refine aligned_returnImpl (m := m₁.withCells written) ?_ hret
    rw [show (m₁.withCells written).stack.calls = m₁.stack.calls from rfl,
      keepsCalls_returnedValues hvalues]
    exact h

/-! ## Runs -/

/-- The owners of the frames after an iteration of the plain loop. -/
def ownersOfStep (env : Engine T) (m : Machine T) (owners : List Nat) : List Nat :=
  match env.instrAt m.ip with
  | none => owners
  | some instr =>
    match instr.op.callSite with
    | some site =>
      match callee env site m with
      | some target => ownersAfter site.context.kind target owners
      | none => owners
    | none => if instr.op.isReturn && returnsNow instr.op m.toLocal then owners.tail else owners

/-- An iteration keeps the call stack aligned. -/
theorem aligned_executeOne {m m' : Machine T} {flow : ControlFlow} {owners : List Nat}
    (h : Aligned m.stack.calls owners) (hone : executeOne env m = .ok flow m') :
    Aligned m'.stack.calls (ownersOfStep env m owners) := by
  obtain ⟨instr, hinstr, hexec⟩ := executeOne_eq_ok.mp hone
  simp only [ownersOfStep, hinstr]
  cases hcall : instr.op.callSite with
  | some site =>
    rw [executeOp_callSite hcall] at hexec
    obtain ⟨pulled, m₂, hsite, hpure⟩ := bind_eq_ok.mp hexec
    cases hpure
    obtain ⟨results, target, m₁, hresolve, hcallee⟩ := executeSite_eq_ok.mp hsite
    have htarget : callee env site m = some target := by
      simp [callee, resolved, hresolve]
    have hcalls := congrArg (fun s => s.2.2.1.calls) ((keeps_still_resolveSite _ _).of_ok hresolve)
    simp only [htarget]
    refine aligned_executeCallee ?_ hcallee
    rw [show m₁.stack.calls = m.stack.calls from hcalls]
    exact h
  | none =>
    cases hreturn : instr.op.isReturn with
    | true =>
      rw [executeOp_return hreturn] at hexec
      exact aligned_executeReturn h hreturn hexec
    | false =>
      rw [executeOp_other hcall hreturn] at hexec
      obtain ⟨_, _, hother, hpure⟩ := bind_eq_ok.mp hexec
      cases hpure
      have hcalls := (keepsCalls_executeOther _ _).of_ok hother
      dsimp only at hcalls ⊢
      rw [hcalls]
      exact h

/-- A machine of a run, and the instances that its frames belong to: the run starts with no frame,
functions are started from outside, and the plain loop makes iterations. -/
inductive Owned (env : Engine T) : Machine T → List Nat → Prop where
  | fresh {m : Machine T} (hframes : m.stack.calls.frames = [])
    (hinstances : m.stack.calls.instances = []) : Owned env m []
  | started {m m₁ m' : Machine T} {owners : List Nat} {func : WasmFuncEntity} {lenResults : Nat}
    {params : List UntypedVal} (h : Owned env m owners)
    (henter : enterRootFunc env func lenResults params m = .ok () m₁)
    (hready : m'.stack.calls = m₁.stack.calls) : Owned env m' (func.inst :: owners)
  | iterated {m m' : Machine T} {owners : List Nat} {flow : ControlFlow} (h : Owned env m owners)
    (hone : executeOne env m = .ok flow m') : Owned env m' (ownersOfStep env m owners)

lemma aligned_enterRootFunc {func : WasmFuncEntity} {lenResults : Nat} {params : List UntypedVal}
    {m m' : Machine T} {u : Unit} {owners : List Nat} (h : Aligned m.stack.calls owners)
    (henter : enterRootFunc env func lenResults params m = .ok u m') :
    Aligned m'.stack.calls (func.inst :: owners) := by
  simp only [enterRootFunc, bind_eq_ok, get_apply, EStateM.Result.ok.injEq, liftTrap_eq_ok,
    setValues_apply, assume_eq_ok, pushFrame_eq_ok] at henter
  obtain ⟨_, _, ⟨rfl, rfl⟩, values, _, ⟨-, rfl⟩, _, _, ⟨-, rfl⟩, ⟨allocated, offsets⟩, _, ⟨-, rfl⟩,
    filled, _, ⟨-, rfl⟩, _, _, ⟨-, rfl⟩, calls, hpush, rfl⟩ := henter
  exact aligned_push_some h hpush

theorem Owned.aligned {m : Machine T} {owners : List Nat} (h : Owned env m owners) :
    Aligned m.stack.calls owners := by
  induction h with
  | fresh hframes hinstances => exact ⟨by rw [hframes]; rfl, by rw [hinstances]; rfl⟩
  | started h henter hready ih =>
    rw [hready]
    exact aligned_enterRootFunc ih henter
  | iterated h hone ih => exact aligned_executeOne ih hone

end Executor

end MotokoDebugger
