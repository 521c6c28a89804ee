import MotokoDebugger.Executor.Effects

/-!
# Calls

What the two halves of a call do, and what a whole call does to the functions of the frames.

* `dispatchCompiledFunc_eq_ok`, `nestedCall_eq_ok`, `tailCall_eq_ok`: calls of compiled functions.
* `nestedCall_funcs`, `tailCall_funcs`: a nested call of a compiled function adds its function, a tail call
  replaces the topmost one; a host function adds none.
-/

namespace MotokoDebugger

namespace Executor

open StateExcept

variable {T : Type} {α : Type}

/-! ## The parts of a call -/

/-- Reads the parameters of a call and writes them behind the constants of the new frame. -/
def passParams (env : Engine T) (hasParams : Bool) (offsets : StackOffsets) : ExecM T Unit :=
  if hasParams then do
    let params ← stepLocal (copyCallParams env)
    let values ← assume ((← get).stack.values.initParams offsets params)
    setValues values
  else pure ()

/-- The frame of a call. -/
def calledFrame (func : EngineFunc) (offsets : StackOffsets) (results : RegSpan) : CallFrame where
  func := func
  instrPtr := ⟨func, 0⟩
  offsets := offsets
  results := results

lemma dispatchCompiledFunc_eq (env : Engine T) (c : CallContext) (results : RegSpan)
    (func : EngineFunc) :
    dispatchCompiledFunc env c results func = do
      let _ ← unwrap (← get).stack.calls.peek
      let (values, offsets) ← liftTrap ((← get).stack.values.allocCallFrame (env.codeMap func))
      setValues values
      passParams env c.hasParams offsets
      return calledFrame func offsets results := by
  unfold dispatchCompiledFunc passParams calledFrame
  cases c.hasParams <;> simp

/-- The part of `execute_host_func` behind the treatment of the caller's frame. -/
def runHostFunc (env : Engine T) (c : CallContext) (results : RegSpan) (func : Nat)
    (hostFunc : HostFuncEntity) (inst : Nat) : ExecM T Unit := do
  let maxInout := max hostFunc.lenParams hostFunc.lenResults
  let buffer := (← get).stack.values.values.length
  let values ← liftTrap ((← get).stack.values.extendBy maxInout)
  setValues values
  passParams env c.hasParams ⟨buffer, buffer⟩
  if c.kind = .nested then
    updateInstrPtrAt 1
  resumable func results (dispatchHostFunc env hostFunc (some inst))
  updateCache inst
  let results ← unwrap (results.iter hostFunc.lenResults)
  let returned := (← get).stack.values.top maxInout
  setValues ((← get).stack.values.drop maxInout)
  stepLocal (setRegisters results returned)

lemma executeHostFunc_eq (env : Engine T) (c : CallContext) (results : RegSpan) (func : Nat)
    (hostFunc : HostFuncEntity) :
    executeHostFunc env c results func hostFunc = (do
      let inst ← unwrap (← get).stack.calls.instance_
      hostCaller c.kind
      runHostFunc env c results func hostFunc inst) := by
  unfold executeHostFunc runHostFunc passParams
  cases c.hasParams <;> cases c.kind <;> simp

lemma setValues_apply (values : ValueStack) (m : Machine T) :
    setValues values m = .ok () { m with stack := ⟨values, m.stack.calls⟩ } := rfl

/-! ## What a call does to the functions of the frames -/

/-- The functions of the frames, the topmost first. -/
def funcs (m : Machine T) : List EngineFunc := m.stack.calls.funcs

/-- The functions of the frames and the limit of their number. -/
def skeleton (m : Machine T) : List EngineFunc × Nat := (funcs m, m.stack.calls.recursionLimit)

lemma skeleton_of_calls {m m' : Machine T} (h : m'.stack.calls = m.stack.calls) :
    skeleton m' = skeleton m := by
  simp [skeleton, funcs, h]

lemma keepsCalls_passParams (env : Engine T) (hasParams : Bool) (offsets : StackOffsets) :
    KeepsCalls (passParams env hasParams offsets) := by
  unfold passParams
  split
  · refine (keepsCalls_stepLocal _).bind fun params => Keeps.get.bind fun m₁ => ?_
    exact (readOnly_assume _).keeps.bind fun values => keepsCalls_setValues _
  · exact Keeps.pure _

lemma keepsCalls_dispatchCompiledFunc (env : Engine T) (c : CallContext) (results : RegSpan)
    (func : EngineFunc) : KeepsCalls (dispatchCompiledFunc env c results func) := by
  rw [dispatchCompiledFunc_eq]
  refine Keeps.get.bind fun m => (readOnly_unwrap _).keeps.bind fun _ => Keeps.get.bind fun _ => ?_
  refine (readOnly_liftTrap _).keeps.bind fun ⟨values, offsets⟩ => ?_
  refine (keepsCalls_setValues _).bind fun _ => ?_
  exact (keepsCalls_passParams _ _ _).bind fun _ => Keeps.pure _

/-- What `dispatch_compiled_func` does where it does not fail. -/
lemma dispatchCompiledFunc_eq_ok {env : Engine T} {c : CallContext} {results : RegSpan}
    {func : EngineFunc} {m m₁ : Machine T} {called : CallFrame} :
    dispatchCompiledFunc env c results func m = .ok called m₁ ↔
      m.stack.calls.peek.isSome ∧ ∃ values offsets,
        m.stack.values.allocCallFrame (env.codeMap func) = .ok (values, offsets) ∧
        passParams env c.hasParams offsets { m with stack := ⟨values, m.stack.calls⟩ } =
          .ok () m₁ ∧
        calledFrame func offsets results = called := by
  rw [dispatchCompiledFunc_eq]
  simp only [bind_eq_ok, get_apply, unwrap_eq_ok, liftTrap_eq_ok, setValues_apply, pure_apply,
    EStateM.Result.ok.injEq, Option.isSome_iff_exists]
  constructor
  · rintro ⟨_, _, ⟨rfl, rfl⟩, frame, _, ⟨hpeek, rfl⟩, _, _, ⟨rfl, rfl⟩, ⟨values, offsets⟩, _,
      ⟨halloc, rfl⟩, _, _, ⟨-, rfl⟩, _, _, hparams, rfl, rfl⟩
    exact ⟨⟨frame, hpeek⟩, values, offsets, halloc, hparams, rfl⟩
  · rintro ⟨⟨frame, hpeek⟩, values, offsets, halloc, hparams, rfl⟩
    exact ⟨m, m, ⟨rfl, rfl⟩, frame, m, ⟨hpeek, rfl⟩, m, m, ⟨rfl, rfl⟩, (values, offsets), m,
      ⟨halloc, rfl⟩, (), _, ⟨trivial, rfl⟩, (), m₁, hparams, rfl, rfl⟩

/-- Saving the instruction pointer in the topmost frame keeps all else of the call stack. -/
lemma keeps_updateInstrPtrAt {γ : Type} {g : CallStack → γ}
    (hg : ∀ calls ip, g (calls.updateInstrPtr ip) = g calls) (offset : Nat) :
    Keeps (fun m => g m.stack.calls) (updateInstrPtrAt offset : ExecM T Unit) := by
  refine Keeps.bind (Keeps.modify fun _ => rfl) fun _ => Keeps.get.bind fun _ => ?_
  refine (readOnly_unwrap _).keeps.bind fun _ => Keeps.get.bind fun m => ?_
  exact Keeps.modify fun m => hg _ _

lemma skeleton_updateInstrPtr (calls : CallStack) (ip : InstructionPtr) :
    ((calls.updateInstrPtr ip).funcs, (calls.updateInstrPtr ip).recursionLimit) =
      (calls.funcs, calls.recursionLimit) := by
  simp

lemma pushFrame_eq_ok {called : CallFrame} {inst : Option Nat} {m m' : Machine T} {u : Unit} :
    pushFrame called inst m = .ok u m' ↔
      ∃ calls, m.stack.calls.push called inst = .ok calls ∧
        { m with stack := ⟨m.stack.values, calls⟩ } = m' := by
  simp [pushFrame, modifyCalls, bind_eq_ok]

lemma pushFrame_eq_error {called : CallFrame} {inst : Option Nat} {m m' : Machine T}
    {stop : Stop} :
    pushFrame called inst m = .error stop m' ↔
      ∃ code, m.stack.calls.push called inst = .error code ∧ stop = .trap code ∧ m = m' := by
  simp [pushFrame, modifyCalls, bind_eq_error]

lemma faultKeeps_pushFrame (called : CallFrame) (inst : Option Nat) :
    FaultKeeps Stop.IsFault id (pushFrame called inst : ExecM T Unit) := by
  intro m stop m' h _
  obtain ⟨code, -, -, rfl⟩ := pushFrame_eq_error.mp h
  rfl

/-! ## Calls of compiled functions -/

/-- What a nested call of a compiled function does where it does not fail. -/
lemma nestedCall_eq_ok {env : Engine T} {hasParams : Bool} {results : RegSpan}
    {func : EngineFunc} {inst : Option Nat} {m m' : Machine T} {u : Unit} :
    prepareCompiledFuncCall env ⟨.nested, hasParams⟩ results func inst m = .ok u m' ↔
      ∃ called m₁ calls, dispatchCompiledFunc env ⟨.nested, hasParams⟩ results func m =
          .ok called m₁ ∧
        m₁.stack.calls.peek.isSome ∧
        (m₁.stack.calls.updateInstrPtr (m₁.ip.add 1)).push called inst = .ok calls ∧
        { m₁ with sp := called.offsets, ip := called.instrPtr, stack := ⟨m₁.stack.values, calls⟩ } =
          m' := by
  simp [prepareCompiledFuncCall, updateInstrPtrAt, initCallFrame, bind_eq_ok, pushFrame_eq_ok,
    modifyCalls, Option.isSome_iff_exists]

/-- What a tail call of a compiled function does where it does not fail. -/
lemma tailCall_eq_ok {env : Engine T} {hasParams : Bool} {results : RegSpan}
    {func : EngineFunc} {inst : Option Nat} {m m' : Machine T} {u : Unit} :
    prepareCompiledFuncCall env ⟨.tail, hasParams⟩ results func inst m = .ok u m' ↔
      ∃ called m₁ stack called' callerInst calls,
        dispatchCompiledFunc env ⟨.tail, hasParams⟩ results func m = .ok called m₁ ∧
        m₁.stack.mergeCallFrames called = some (stack, called', callerInst) ∧
        stack.calls.push called' (inst <|> callerInst) = .ok calls ∧
        { m₁ with sp := called'.offsets, ip := called'.instrPtr, stack := ⟨stack.values, calls⟩ } =
          m' := by
  simp [prepareCompiledFuncCall, mergeCallFrames, initCallFrame, bind_eq_ok, pushFrame_eq_ok]

/-- A nested call that fails keeps the call stack, up to the instruction pointer of the caller. -/
lemma nestedCall_faultKeeps {γ : Type} {g : CallStack → γ}
    (hg : ∀ calls ip, g (calls.updateInstrPtr ip) = g calls) (env : Engine T) (hasParams : Bool)
    (results : RegSpan) (func : EngineFunc) (inst : Option Nat) :
    FaultKeeps Stop.IsFault (fun m => g m.stack.calls)
      (prepareCompiledFuncCall env ⟨.nested, hasParams⟩ results func inst) := by
  refine FaultKeeps.after ((keepsCalls_dispatchCompiledFunc _ _ _ _).comp g) fun called => ?_
  refine FaultKeeps.after (keeps_updateInstrPtrAt hg 1) fun _ => ?_
  refine FaultKeeps.after (Keeps.modify fun _ => rfl) fun _ => ?_
  exact (faultKeeps_pushFrame _ _).observe

/-- A nested call adds the function it enters. -/
lemma nestedCall_funcs {env : Engine T} {hasParams : Bool} {results : RegSpan}
    {func : EngineFunc} {inst : Option Nat} {m m' : Machine T} {u : Unit}
    (h : prepareCompiledFuncCall env ⟨.nested, hasParams⟩ results func inst m = .ok u m') :
    funcs m' = func :: funcs m ∧
      m'.stack.calls.recursionLimit = m.stack.calls.recursionLimit ∧
      m.stack.calls.frames.length ≠ m.stack.calls.recursionLimit := by
  obtain ⟨called, m₁, calls, hdispatch, -, hpush, rfl⟩ := nestedCall_eq_ok.mp h
  have hcalls := (keepsCalls_dispatchCompiledFunc _ _ _ _).of_ok hdispatch
  obtain ⟨-, values, offsets, -, -, rfl⟩ := dispatchCompiledFunc_eq_ok.mp hdispatch
  obtain ⟨hroom, hlimit, changed, hframes⟩ := CallStack.push_eq_ok hpush
  have hfuncs : (m₁.stack.calls.updateInstrPtr (m₁.ip.add 1)).funcs = m.stack.calls.funcs := by
    rw [CallStack.updateInstrPtr_funcs, hcalls]
  refine ⟨?_, ?_, ?_⟩
  · rw [funcs, funcs, ← hfuncs]
    simp [CallStack.funcs, hframes, calledFrame]
  · simp [hlimit, hcalls]
  · rw [← CallStack.length_funcs, hfuncs, CallStack.length_funcs] at hroom
    simpa [hcalls] using hroom

/-- The frames that `merge_call_frames` leaves. -/
lemma mergeCallFrames_eq_some {stack stack' : Stack} {called called' : CallFrame}
    {inst : Option Nat} (h : stack.mergeCallFrames called = some (stack', called', inst)) :
    ∃ caller calls, stack.calls.pop = some (caller, inst, calls) ∧
      stack' = ⟨stack.values.drain caller.offsets.frame called.offsets.frame, calls⟩ ∧
      called' = { called with
        offsets := called.offsets.moveDown (called.offsets.frame - caller.offsets.frame) } := by
  simp only [Stack.mergeCallFrames, Option.bind_eq_bind, Option.bind_eq_some_iff, Option.pure_def,
    Option.some.injEq, Prod.mk.injEq] at h
  obtain ⟨⟨caller, inst', calls⟩, hpop, rfl, rfl, rfl⟩ := h
  exact ⟨caller, calls, hpop, rfl, rfl⟩

/-- A tail call replaces the topmost function. -/
lemma tailCall_funcs {env : Engine T} {hasParams : Bool} {results : RegSpan}
    {func : EngineFunc} {inst : Option Nat} {m m' : Machine T} {u : Unit}
    (h : prepareCompiledFuncCall env ⟨.tail, hasParams⟩ results func inst m = .ok u m') :
    funcs m' = func :: (funcs m).tail ∧ funcs m ≠ [] ∧
      m'.stack.calls.recursionLimit = m.stack.calls.recursionLimit := by
  obtain ⟨called, m₁, stack, called', callerInst, calls, hdispatch, hmerge, hpush, rfl⟩ :=
    tailCall_eq_ok.mp h
  have hcalls := (keepsCalls_dispatchCompiledFunc _ _ _ _).of_ok hdispatch
  obtain ⟨-, values, offsets, -, -, rfl⟩ := dispatchCompiledFunc_eq_ok.mp hdispatch
  obtain ⟨caller, rest, hpop, rfl, rfl⟩ := mergeCallFrames_eq_some hmerge
  obtain ⟨-, hlimit, changed, hframes⟩ := CallStack.push_eq_ok hpush
  obtain ⟨hpopped, hlimit', -, -⟩ := CallStack.pop_eq_some hpop
  dsimp only at hcalls hlimit hframes
  rw [hcalls] at hpopped hlimit'
  refine ⟨?_, ?_, ?_⟩
  · simp [funcs, CallStack.funcs, hframes, hpopped, calledFrame]
  · simp [funcs, CallStack.funcs, hpopped]
  · rw [hlimit, hlimit']

/-- A tail call of a compiled function fails before it has allocated the frame, or not at all: its
caller is popped before its frame is pushed. -/
lemma tailCall_fault {env : Engine T} {hasParams : Bool} {results : RegSpan} {func : EngineFunc}
    {inst : Option Nat} {m m' : Machine T} {stop : Stop}
    (hlimit : m.stack.calls.frames.length ≤ m.stack.calls.recursionLimit)
    (h : prepareCompiledFuncCall env ⟨.tail, hasParams⟩ results func inst m = .error stop m')
    (hstop : stop.IsFault) :
    dispatchCompiledFunc env ⟨.tail, hasParams⟩ results func m = .error stop m' := by
  rcases bind_eq_error.mp h with h | ⟨called, m₁, hdispatch, h⟩
  · exact h
  have hcalls := (keepsCalls_dispatchCompiledFunc _ _ _ _).of_ok hdispatch
  rcases bind_eq_error.mp h with h | ⟨⟨called', callerInst⟩, m₂, hmerge, h⟩
  · have hno : NoFault Stop.IsFault (mergeCallFrames called : ExecM T _) :=
      NoFault.get.bind fun _ => (noFault_unwrap _).bind fun _ =>
        (NoFault.modify _).bind fun _ => NoFault.pure _
    exact absurd hstop (hno _ _ _ h)
  rcases bind_eq_error.mp h with h | ⟨_, m₃, hinit, h⟩
  · cases h
  obtain ⟨code, hpush, -, -⟩ := pushFrame_eq_error.mp h
  have hfull := CallStack.push_eq_error hpush
  cases hinit
  simp only [mergeCallFrames, bind_eq_ok, get_apply, unwrap_eq_ok, modify_apply, pure_apply,
    EStateM.Result.ok.injEq] at hmerge
  obtain ⟨_, _, ⟨rfl, rfl⟩, ⟨stack, _, _⟩, _, ⟨hmerge, rfl⟩, _, _, ⟨-, rfl⟩, -, rfl⟩ := hmerge
  obtain ⟨caller, rest, hpop, rfl, -⟩ := mergeCallFrames_eq_some hmerge
  obtain ⟨hframes, hlimit', -, -⟩ := CallStack.pop_eq_some hpop
  rw [hcalls] at hframes hlimit'
  dsimp only at hfull
  rw [hframes, List.length_cons] at hlimit
  omega

/-- A tail call that fails has popped no frame, unless the call stack was over its limit. -/
lemma tailCall_fault_funcs {env : Engine T} {hasParams : Bool} {results : RegSpan}
    {func : EngineFunc} {inst : Option Nat} {m m' : Machine T} {stop : Stop}
    (hlimit : m.stack.calls.frames.length ≤ m.stack.calls.recursionLimit)
    (h : prepareCompiledFuncCall env ⟨.tail, hasParams⟩ results func inst m = .error stop m')
    (hstop : stop.IsFault) : m'.stack.calls = m.stack.calls :=
  (keepsCalls_dispatchCompiledFunc _ _ _ _).of_error (tailCall_fault hlimit h hstop)

/-- A nested call of a compiled function fails before it has allocated the frame, unless the call
stack is full. -/
lemma nestedCall_fault {env : Engine T} {hasParams : Bool} {results : RegSpan} {func : EngineFunc}
    {inst : Option Nat} {m m' : Machine T} {stop : Stop}
    (hroom : m.stack.calls.frames.length ≠ m.stack.calls.recursionLimit)
    (h : prepareCompiledFuncCall env ⟨.nested, hasParams⟩ results func inst m = .error stop m')
    (hstop : stop.IsFault) :
    dispatchCompiledFunc env ⟨.nested, hasParams⟩ results func m = .error stop m' := by
  rcases bind_eq_error.mp h with h | ⟨called, m₁, hdispatch, h⟩
  · exact h
  have hcalls := (keepsCalls_dispatchCompiledFunc _ _ _ _).of_ok hdispatch
  rcases bind_eq_error.mp h with h | ⟨_, m₂, hsave, h⟩
  · have hno : NoFault Stop.IsFault (updateInstrPtrAt 1 : ExecM T Unit) :=
      (NoFault.modify _).bind fun _ => NoFault.get.bind fun _ => (noFault_unwrap _).bind fun _ =>
        NoFault.get.bind fun _ => NoFault.modify _
    exact absurd hstop (hno _ _ _ h)
  have hkeep := (keeps_updateInstrPtrAt (g := fun calls => (calls.funcs, calls.recursionLimit))
    skeleton_updateInstrPtr 1).of_ok hsave
  obtain ⟨hfuncs, hlimit⟩ := Prod.mk.inj hkeep
  rcases bind_eq_error.mp h with h | ⟨_, m₃, hinit, h⟩
  · cases h
  obtain ⟨code, hpush, -, -⟩ := pushFrame_eq_error.mp h
  have hfull := CallStack.push_eq_error hpush
  cases hinit
  dsimp only at hfull
  rw [← CallStack.length_funcs, hfuncs, hlimit, hcalls, CallStack.length_funcs] at hfull
  exact absurd hfull hroom

/-! ## Calls of host functions -/

lemma keepsCalls_invokeCallHook (env : Engine T) (callType : CallHook) :
    KeepsCalls (invokeCallHook env callType) := by
  unfold invokeCallHook
  split
  · exact Keeps.pure _
  · refine Keeps.get.bind fun m => ?_
    dsimp only
    refine Keeps.bind (Keeps.modify fun _ => rfl) fun _ => ?_
    split
    · exact Keeps.pure _
    · exact Keeps.throw _

lemma keepsCalls_dispatchHostFunc (env : Engine T) (hostFunc : HostFuncEntity)
    (inst : Option Nat) : KeepsCalls (dispatchHostFunc env hostFunc inst) := by
  refine Keeps.get.bind fun m => ?_
  dsimp only
  refine Keeps.bind (Keeps.modify fun _ => rfl) fun _ => ?_
  split
  · exact (keepsCalls_setValues _).bind fun _ => Keeps.throw _
  · exact keepsCalls_setValues _

lemma keeps_resumable {γ : Type} {f : Machine T → γ} {func : Nat} {results : RegSpan}
    {x : ExecM T Unit} (hx : Keeps f x) : Keeps f (resumable func results x) := by
  intro m
  have h := hx m
  unfold resumable
  split
  · rename_i hres
    rw [hres] at h
    split <;> exact h
  · exact h

/-- Running a host function keeps the call stack, up to the instruction pointer of the caller. -/
lemma keeps_calls_runHostFunc {γ : Type} {g : CallStack → γ}
    (hg : ∀ calls ip, g (calls.updateInstrPtr ip) = g calls) (env : Engine T) (c : CallContext)
    (results : RegSpan) (func : Nat) (hostFunc : HostFuncEntity) (inst : Nat) :
    Keeps (fun m => g m.stack.calls) (runHostFunc env c results func hostFunc inst) := by
  have hkeeps : ∀ {α : Type} {x : ExecM T α}, KeepsCalls x → Keeps (fun m => g m.stack.calls) x :=
    fun hx => hx.comp g
  have hend : Keeps (fun m => g m.stack.calls) (do
      resumable func results (dispatchHostFunc env hostFunc (some inst))
      updateCache inst
      let results ← unwrap (results.iter hostFunc.lenResults)
      let returned := (← get).stack.values.top (max hostFunc.lenParams hostFunc.lenResults)
      setValues ((← get).stack.values.drop (max hostFunc.lenParams hostFunc.lenResults))
      stepLocal (setRegisters results returned) : ExecM T Unit) := by
    refine (keeps_resumable (hkeeps (keepsCalls_dispatchHostFunc _ _ _))).bind fun _ => ?_
    refine (hkeeps (keepsCalls_updateCache _)).bind fun _ => (readOnly_unwrap _).keeps.bind ?_
    refine fun results => Keeps.get.bind fun _ => Keeps.get.bind fun _ => ?_
    exact (hkeeps (keepsCalls_setValues _)).bind fun _ => hkeeps (keepsCalls_stepLocal _)
  refine Keeps.get.bind fun _ => Keeps.get.bind fun m => (readOnly_liftTrap _).keeps.bind ?_
  refine fun values => (hkeeps (keepsCalls_setValues _)).bind fun _ => ?_
  refine (hkeeps (keepsCalls_passParams _ _ _)).bind fun _ => ?_
  dsimp only
  split
  · exact (keeps_updateInstrPtrAt hg 1).bind fun _ => hend
  · exact hend

/-- Running a host function keeps the functions of the frames. -/
lemma keeps_runHostFunc (env : Engine T) (c : CallContext) (results : RegSpan) (func : Nat)
    (hostFunc : HostFuncEntity) (inst : Nat) :
    Keeps skeleton (runHostFunc env c results func hostFunc inst) :=
  keeps_calls_runHostFunc (g := fun calls => (calls.funcs, calls.recursionLimit))
    skeleton_updateInstrPtr env c results func hostFunc inst

/-- The treatment of the caller of a host function: a tail call pops it. -/
lemma hostCaller_eq_ok {kind : CallKind} {m m' : Machine T} {u : Unit}
    (h : hostCaller kind m = .ok u m') :
    match kind with
    | .nested => m = m'
    | .tail => ∃ caller popped calls, m.stack.calls.pop = some (caller, popped, calls) ∧
        m' = { m with stack := ⟨m.stack.values, calls⟩ } := by
  cases kind with
  | nested =>
    simp only [hostCaller, bind_eq_ok, get_apply, unwrap_eq_ok, pure_apply,
      EStateM.Result.ok.injEq] at h
    obtain ⟨_, _, ⟨rfl, rfl⟩, _, _, ⟨-, rfl⟩, -, rfl⟩ := h
    rfl
  | tail =>
    simp only [hostCaller, bind_eq_ok, get_apply, unwrap_eq_ok, modifyCalls, modify_apply,
      EStateM.Result.ok.injEq] at h
    obtain ⟨_, _, ⟨rfl, rfl⟩, ⟨caller, popped, calls⟩, _, ⟨hpop, rfl⟩, -, rfl⟩ := h
    exact ⟨caller, popped, calls, hpop, rfl⟩

lemma noFault_hostCaller (kind : CallKind) :
    NoFault Stop.IsFault (hostCaller kind : ExecM T Unit) := by
  cases kind with
  | nested => exact NoFault.get.bind fun _ => (noFault_unwrap _).bind fun _ => NoFault.pure _
  | tail => exact NoFault.get.bind fun _ => (noFault_unwrap _).bind fun _ => NoFault.modify _

/-- The caller of a host function: a tail call pops it. -/
lemma hostCaller_calls {kind : CallKind} {m m' : Machine T} {u : Unit}
    (h : hostCaller kind m = .ok u m') :
    skeleton m' = match kind with
      | .nested => skeleton m
      | .tail => ((funcs m).tail, m.stack.calls.recursionLimit) := by
  cases kind with
  | nested =>
    have heq : m = m' := hostCaller_eq_ok h
    exact congrArg skeleton heq.symm
  | tail =>
    obtain ⟨caller, popped, calls, hpop, rfl⟩ := hostCaller_eq_ok h
    obtain ⟨hframes, hlimit, -, -⟩ := CallStack.pop_eq_some hpop
    simp [skeleton, funcs, CallStack.funcs, hframes, hlimit]

/-! ## A whole call -/

/-- The functions of the frames after a call. -/
def funcsAfter (kind : CallKind) (callee : Callee) (funcs : List EngineFunc) :
    List EngineFunc :=
  match kind, callee with
  | .nested, .compiled body _ => body :: funcs
  | .tail, .compiled body _ => body :: funcs.tail
  | .nested, .host .. => funcs
  | .tail, .host .. => funcs.tail

lemma keepsCalls_switchInstance (inst : Option Nat) :
    KeepsCalls (switchInstance inst : ExecM T Unit) := by
  cases inst with
  | none => exact Keeps.pure _
  | some inst => exact keepsCalls_updateCache inst

/-- A call that succeeds. -/
theorem executeCallee_skeleton {env : Engine T} {c : CallContext} {results : RegSpan}
    {callee : Callee} {m m' : Machine T} {u : Unit}
    (h : executeCallee env c results callee m = .ok u m') :
    skeleton m' = (funcsAfter c.kind callee (funcs m), m.stack.calls.recursionLimit) := by
  obtain ⟨kind, hasParams⟩ := c
  cases callee with
  | compiled body inst =>
    obtain ⟨_, m₁, hcall, hswitch⟩ := bind_eq_ok.mp h
    have hcalls := skeleton_of_calls ((keepsCalls_switchInstance inst).of_ok hswitch)
    rw [hcalls, skeleton]
    cases kind with
    | nested =>
      obtain ⟨hfuncs, hlimit, -⟩ := nestedCall_funcs hcall
      rw [hfuncs, hlimit, funcsAfter]
    | tail =>
      obtain ⟨hfuncs, -, hlimit⟩ := tailCall_funcs hcall
      rw [hfuncs, hlimit, funcsAfter]
  | host func entity =>
    obtain ⟨_, m₁, hhook, h⟩ := bind_eq_ok.mp h
    obtain ⟨_, m₂, hhost, hhook'⟩ := bind_eq_ok.mp h
    rw [executeHostFunc_eq] at hhost
    simp only [bind_eq_ok, get_apply, unwrap_eq_ok, EStateM.Result.ok.injEq] at hhost
    obtain ⟨_, _, ⟨rfl, rfl⟩, inst, _, ⟨-, rfl⟩, _, m₃, hcaller, hrun⟩ := hhost
    have h₁ := skeleton_of_calls ((keepsCalls_invokeCallHook _ _).of_ok hhook)
    have h₂ := (keeps_runHostFunc _ _ _ _ _ _).of_ok hrun
    have h₃ := skeleton_of_calls ((keepsCalls_invokeCallHook _ _).of_ok hhook')
    have hcallee := hostCaller_calls hcaller
    rw [h₃, h₂, hcallee]
    cases kind with
    | nested => rw [h₁]; rfl
    | tail =>
      obtain ⟨hfuncs, hlimit⟩ := Prod.mk.inj h₁
      rw [hfuncs, hlimit, funcsAfter]

/-- A nested call that fails keeps the call stack, up to the instruction pointer of the caller. -/
theorem executeCallee_nested_fault {γ : Type} {g : CallStack → γ}
    (hg : ∀ calls ip, g (calls.updateInstrPtr ip) = g calls) (env : Engine T) (hasParams : Bool)
    (results : RegSpan) (callee : Callee) :
    FaultKeeps Stop.IsFault (fun m => g m.stack.calls)
      (executeCallee env ⟨.nested, hasParams⟩ results callee) := by
  cases callee with
  | compiled body inst =>
    refine (nestedCall_faultKeeps hg _ _ _ _ _).bind_noFault fun _ => ?_
    cases inst with
    | none => exact NoFault.pure _
    | some inst => exact noFault_updateCache inst
  | host func entity =>
    have hhook : ∀ callType, Keeps (fun m => g m.stack.calls) (invokeCallHook env callType) :=
      fun _ => (keepsCalls_invokeCallHook _ _).comp g
    refine Keeps.faultKeeps ((hhook _).bind fun _ => Keeps.bind ?_ fun _ => hhook _)
    rw [executeHostFunc_eq]
    refine Keeps.get.bind fun m => (readOnly_unwrap _).keeps.bind fun inst => Keeps.bind ?_ ?_
    · exact Keeps.get.bind fun m => (readOnly_unwrap _).keeps.bind fun _ => Keeps.pure _
    · exact fun _ => keeps_calls_runHostFunc hg _ _ _ _ _ _

/-- A tail call of a compiled function that fails keeps the call stack. -/
theorem executeCallee_tail_fault {env : Engine T} {hasParams : Bool} {results : RegSpan}
    {body : EngineFunc} {inst : Option Nat} {m m' : Machine T} {stop : Stop}
    (hlimit : m.stack.calls.frames.length ≤ m.stack.calls.recursionLimit)
    (h : executeCallee env ⟨.tail, hasParams⟩ results (.compiled body inst) m = .error stop m')
    (hstop : stop.IsFault) : m'.stack.calls = m.stack.calls := by
  rcases bind_eq_error.mp h with h | ⟨_, m₁, -, h⟩
  · exact tailCall_fault_funcs hlimit h hstop
  · cases inst with
    | none => cases h
    | some inst => exact absurd hstop (noFault_updateCache inst _ _ _ h)

/-- The call stack is within its limit. -/
def InLimit (m : Machine T) : Prop := (skeleton m).1.length ≤ (skeleton m).2

/-- A call that succeeds leaves the call stack within its limit. -/
theorem executeCallee_inLimit {env : Engine T} {c : CallContext} {results : RegSpan}
    {callee : Callee} {m m' : Machine T} {u : Unit} (hlimit : InLimit m)
    (h : executeCallee env c results callee m = .ok u m') : InLimit m' := by
  have hskeleton := executeCallee_skeleton h
  obtain ⟨kind, hasParams⟩ := c
  simp only [InLimit, hskeleton]
  simp only [InLimit, skeleton] at hlimit
  cases callee with
  | compiled body inst =>
    obtain ⟨_, m₁, hcall, -⟩ := bind_eq_ok.mp h
    cases kind with
    | nested =>
      obtain ⟨-, -, hroom⟩ := nestedCall_funcs hcall
      rw [← CallStack.length_funcs] at hroom
      simp only [funcsAfter, List.length_cons, funcs] at hlimit ⊢
      omega
    | tail =>
      obtain ⟨-, hne, -⟩ := tailCall_funcs hcall
      have hpos := List.length_pos_iff.mpr hne
      simp only [funcsAfter, List.length_cons, List.length_tail]
      omega
  | host func entity =>
    cases kind with
    | nested => exact hlimit
    | tail =>
      simp only [funcsAfter, List.length_tail]
      omega

/-! ## Finding the callee -/

lemma readOnly_getEntity (space : InstanceEntity → List Nat) (index : Nat) :
    ReadOnly (getEntity space index : LocalM T Nat) :=
  ReadOnly.get.bind fun _ => (readOnly_assume _).bind fun _ => readOnly_assume _

lemma readOnly_resolve {E : Type} (arena : Store T → List E) (index : Nat) :
    ReadOnly (resolve arena index : LocalM T E) :=
  ReadOnly.get.bind fun _ => readOnly_unwrap _

lemma readOnly_resolveIndirect (funcType index table : Nat) :
    ReadOnly (resolveIndirect funcType index table : LocalM T Nat) := by
  refine (readOnly_getEntity _ _).bind fun table => (readOnly_resolve _ _).bind fun table => ?_
  split
  · split
    · refine (readOnly_resolve _ _).bind fun entity => (readOnly_getEntity _ _).bind fun sig => ?_
      dsimp only
      split
      · exact (ReadOnly.throw _).bind fun _ => ReadOnly.pure _
      · exact ReadOnly.pure _
    · exact ReadOnly.throw _
  · exact ReadOnly.throw _

/-- Reading the parameter word of an indirect call moves the instruction pointer only. -/
lemma keeps_still_pullParams (imm16 : Bool) (env : Engine T) :
    Keeps Local.still (pullParams imm16 env) := by
  unfold pullParams
  split
  · refine Keeps.bind (Keeps.modify fun _ => rfl) fun _ => Keeps.get.bind fun l => ?_
    refine (readOnly_getInstr _ _).keeps.bind fun op => ?_
    split
    · exact Keeps.pure _
    · exact Keeps.throw _
  · refine Keeps.bind (Keeps.modify fun _ => rfl) fun _ => Keeps.get.bind fun l => ?_
    refine (readOnly_getInstr _ _).keeps.bind fun op => ?_
    split
    · exact (readOnly_getRegisterU32 _).keeps.bind fun _ => Keeps.pure _
    · exact Keeps.throw _

lemma readOnly_resultRegs (site : CallSite) : ReadOnly (resultRegs site : ExecM T RegSpan) := by
  unfold resultRegs
  split
  · exact ReadOnly.pure _
  · exact ReadOnly.get.bind fun _ => (readOnly_unwrap _).bind fun _ => ReadOnly.pure _

lemma readOnly_resolveFunc (func : Nat) : ReadOnly (resolveFunc func : ExecM T Callee) :=
  ReadOnly.get.bind fun _ => (readOnly_unwrap _).bind fun _ => ReadOnly.pure _

/-- Finding the callee moves the instruction pointer only, also where it fails. -/
theorem keeps_still_resolveSite (env : Engine T) (site : CallSite) :
    Keeps Machine.still (resolveSite env site) := by
  have hlocal : ∀ {x : LocalM T Nat}, ReadOnly x → Keeps Machine.still (stepLocal x) :=
    fun hx => keeps_still_stepLocal hx.keeps
  unfold resolveSite
  split
  · exact (readOnly_resultRegs _).keeps.bind fun _ => Keeps.pure _
  · refine (hlocal (readOnly_getEntity _ _)).bind fun func => ?_
    refine (readOnly_resultRegs _).keeps.bind fun results => ?_
    exact (readOnly_resolveFunc _).keeps.bind fun _ => Keeps.pure _
  · refine (keeps_still_stepLocal (keeps_still_pullParams _ _)).bind fun pulled => ?_
    refine (readOnly_resultRegs _).keeps.bind fun results => ?_
    refine (hlocal (readOnly_resolveIndirect _ _ _)).bind fun func => ?_
    exact (readOnly_resolveFunc _).keeps.bind fun _ => Keeps.pure _

/-- What can come out of a search for a callee, by the way the call names it. -/
structure ResolvedAs (site : CallSite) (callee : Callee) (pulled : Option (Nat × Nat)) : Prop where
  internal : ∀ func, site.target = .internal func → callee = .compiled func none ∧ pulled = none
  imported : ∀ func, site.target = .imported func →
    pulled = none ∧ ∀ body, callee ≠ .compiled body none
  indirect : ∀ funcType imm16, site.target = .indirect funcType imm16 →
    pulled.isSome ∧ ∀ body, callee ≠ .compiled body none

lemma resolveSite_shape {env : Engine T} {site : CallSite} {m m' : Machine T}
    {results : RegSpan} {target : Callee} {pulled : Option (Nat × Nat)}
    (h : resolveSite env site m = .ok (results, target, pulled) m') :
    ResolvedAs site target pulled := by
  have hcallee : ∀ (entity : FuncEntity) (func : Nat) (body : EngineFunc),
      entity.callee func ≠ .compiled body none := by
    intro entity func body
    cases entity <;> simp [FuncEntity.callee]
  obtain ⟨siteResults, hasParams, target'⟩ := site
  cases target' with
  | internal func =>
    simp only [resolveSite, bind_eq_ok, pure_apply, EStateM.Result.ok.injEq, Prod.mk.injEq] at h
    obtain ⟨_, _, -, ⟨-, rfl, rfl⟩, -⟩ := h
    exact ⟨by simp, by simp, by simp⟩
  | imported func =>
    simp only [resolveSite, resolveFunc, bind_eq_ok, get_apply, unwrap_eq_ok, pure_apply,
      EStateM.Result.ok.injEq, Prod.mk.injEq] at h
    obtain ⟨_, _, -, _, _, -, _, _, ⟨_, _, -, entity, _, -, rfl, -⟩, ⟨-, rfl, rfl⟩, -⟩ := h
    exact ⟨by simp, fun _ _ => ⟨rfl, hcallee entity _⟩, by simp⟩
  | indirect funcType imm16 =>
    simp only [resolveSite, resolveFunc, bind_eq_ok, get_apply, unwrap_eq_ok, pure_apply,
      EStateM.Result.ok.injEq, Prod.mk.injEq] at h
    obtain ⟨_, _, -, _, _, -, _, _, -, _, _, ⟨_, _, -, entity, _, -, rfl, -⟩, ⟨-, rfl, rfl⟩, -⟩ := h
    exact ⟨by simp, by simp, fun _ _ _ => ⟨rfl, hcallee entity _⟩⟩

/-- A tail call needs a frame to replace. -/
lemma resolveSite_tail {env : Engine T} {site : CallSite} {m m' : Machine T}
    {r : RegSpan × Callee × Option (Nat × Nat)} (h : resolveSite env site m = .ok r m')
    (htail : site.results = none) : funcs m ≠ [] := by
  have hresults : ∀ {m₁ m₂ : Machine T} {results : RegSpan},
      resultRegs site m₁ = .ok results m₂ → funcs m₁ ≠ [] := by
    intro m₁ m₂ results h
    simp only [resultRegs, htail, callerResults, bind_eq_ok, get_apply, unwrap_eq_ok,
      EStateM.Result.ok.injEq] at h
    obtain ⟨_, _, ⟨rfl, rfl⟩, frame, _, ⟨hpeek, -⟩, -⟩ := h
    rw [CallStack.peek] at hpeek
    rw [funcs, ne_eq, CallStack.funcs_eq_nil]
    intro hnil
    rw [hnil] at hpeek
    cases hpeek
  have hlocal : ∀ {α : Type} {x : LocalM T α} {m₁ m₂ : Machine T} {a : α},
      stepLocal x m₁ = .ok a m₂ → funcs m₂ = funcs m₁ :=
    fun h => congrArg CallStack.funcs ((keepsCalls_stepLocal _).of_ok h)
  cases htarget : site.target with
  | internal func =>
    simp only [resolveSite, htarget, bind_eq_ok] at h
    obtain ⟨_, _, h, -⟩ := h
    exact hresults h
  | imported func =>
    simp only [resolveSite, htarget, bind_eq_ok] at h
    obtain ⟨_, _, hfunc, _, _, h, -⟩ := h
    rw [← hlocal hfunc]
    exact hresults h
  | indirect funcType imm16 =>
    simp only [resolveSite, htarget, bind_eq_ok] at h
    obtain ⟨_, _, hpull, _, _, h, -⟩ := h
    rw [← hlocal hpull]
    exact hresults h

lemma skeleton_of_still {m m' : Machine T} (h : m'.still = m.still) : skeleton m' = skeleton m :=
  skeleton_of_calls (congrArg (fun s => s.2.2.1.calls) h)

/-! ## A call instruction -/

/-- The result registers, the callee and the parameter word that a call instruction finds. -/
def resolved (env : Engine T) (site : CallSite) (m : Machine T) :
    Option (RegSpan × Callee × Option (Nat × Nat)) :=
  match resolveSite env site m with
  | .ok r _ => some r
  | .error .. => none

/-- The callee a call instruction finds. -/
def callee (env : Engine T) (site : CallSite) (m : Machine T) : Option Callee :=
  (resolved env site m).map (·.2.1)

/-- A call instruction that succeeds has found its callee and entered or run it. -/
theorem executeSite_eq_ok {env : Engine T} {site : CallSite} {m m' : Machine T}
    {pulled : Option (Nat × Nat)} :
    executeSite env site m = .ok pulled m' ↔
      ∃ results target m₁, resolveSite env site m = .ok (results, target, pulled) m₁ ∧
        executeCallee env site.context results target m₁ = .ok () m' := by
  simp only [executeSite, bind_eq_ok]
  constructor
  · rintro ⟨⟨results, target, pulled'⟩, m₁, hresolve, _, m₂, hcall, hpure⟩
    cases hpure
    exact ⟨results, target, m₁, hresolve, hcall⟩
  · rintro ⟨results, target, m₁, hresolve, hcall⟩
    exact ⟨(results, target, pulled), m₁, hresolve, (), m', hcall, rfl⟩

theorem executeSite_skeleton {env : Engine T} {site : CallSite} {m m₁ m' : Machine T}
    {results : RegSpan} {target : Callee} {pulled : Option (Nat × Nat)}
    (hresolve : resolveSite env site m = .ok (results, target, pulled) m₁)
    (hcall : executeCallee env site.context results target m₁ = .ok () m') :
    skeleton m' = (funcsAfter site.context.kind target (funcs m),
      m.stack.calls.recursionLimit) := by
  have hstill := skeleton_of_still ((keeps_still_resolveSite _ _).of_ok hresolve)
  obtain ⟨hfuncs, hlimit⟩ := Prod.mk.inj hstill
  rw [executeCallee_skeleton hcall, hfuncs, hlimit]

/-- A call instruction that fails keeps the functions of the frames, except for a tail call of a
host function. -/
theorem executeSite_fault {env : Engine T} {site : CallSite} {m m' : Machine T} {stop : Stop}
    (hlimit : InLimit m)
    (hhost : site.results = none → ∀ func entity, callee env site m ≠ some (.host func entity))
    (h : executeSite env site m = .error stop m') (hstop : stop.IsFault) :
    skeleton m' = skeleton m := by
  rcases bind_eq_error.mp h with h | ⟨⟨results, target, pulled'⟩, m₁, hresolve, h⟩
  · exact skeleton_of_still ((keeps_still_resolveSite _ _).of_error h)
  have hstill := (keeps_still_resolveSite _ _).of_ok hresolve
  have hcallee : callee env site m = some target := by
    simp [callee, resolved, hresolve]
  rcases bind_eq_error.mp h with h | ⟨_, m₂, -, h⟩
  · obtain ⟨results', hasParams, calltarget⟩ := site
    cases results' with
    | some results' =>
      have hkeep := executeCallee_nested_fault (g := fun calls => (calls.funcs, calls.recursionLimit))
        skeleton_updateInstrPtr _ _ _ _ _ _ _ h hstop
      exact Eq.trans hkeep (skeleton_of_still hstill)
    | none =>
      cases target with
      | host func entity => exact absurd hcallee (hhost rfl func entity)
      | compiled body inst =>
        have hcalls := congrArg (fun s => s.2.2.1.calls) hstill
        have hlimit' : m₁.stack.calls.frames.length ≤ m₁.stack.calls.recursionLimit := by
          rw [show m₁.stack.calls = m.stack.calls from hcalls, ← CallStack.length_funcs]
          exact hlimit
        have hcalls' := executeCallee_tail_fault hlimit' h hstop
        exact (skeleton_of_calls hcalls').trans (skeleton_of_still hstill)
  · cases h

/-! ## Entering a compiled function keeps the store -/

lemma keeps_still_copyCallParams (env : Engine T) : Keeps Local.still (copyCallParams env) := by
  refine Keeps.bind (Keeps.modify fun _ => rfl) fun _ => Keeps.get.bind fun l => ?_
  refine (readOnly_registerListAt _ _).keeps.bind fun regs => ?_
  refine Keeps.bind (Keeps.modify fun _ => rfl) fun _ => ?_
  exact (ReadOnly.mapM readOnly_getRegister _).keeps

/-- The store and the cached instance. -/
def context (m : Machine T) := (m.cache, m.store)

lemma keeps_context_passParams (env : Engine T) (hasParams : Bool) (offsets : StackOffsets) :
    Keeps context (passParams env hasParams offsets) := by
  have hstill : ∀ m : Machine T, context m = (m.still.2.1, m.still.2.2.2) := fun _ => rfl
  unfold passParams
  split
  · refine Keeps.bind ?_ fun params => Keeps.get.bind fun m => ?_
    · exact (keeps_still_stepLocal (keeps_still_copyCallParams env)).comp
        fun still => (still.2.1, still.2.2.2)
    · exact (readOnly_assume _).keeps.bind fun values => Keeps.modify fun _ => rfl
  · exact Keeps.pure _

lemma keeps_context_dispatchCompiledFunc (env : Engine T) (c : CallContext) (results : RegSpan)
    (func : EngineFunc) : Keeps context (dispatchCompiledFunc env c results func) := by
  rw [dispatchCompiledFunc_eq]
  refine Keeps.get.bind fun m => (readOnly_unwrap _).keeps.bind fun _ => Keeps.get.bind fun _ => ?_
  refine (readOnly_liftTrap _).keeps.bind fun ⟨values, offsets⟩ => ?_
  refine Keeps.bind (Keeps.modify fun _ => rfl) fun _ => ?_
  exact (keeps_context_passParams _ _ _).bind fun _ => Keeps.pure _

/-- Entering a compiled function keeps the store and switches to its instance. -/
theorem executeCallee_compiled_context {env : Engine T} {c : CallContext} {results : RegSpan}
    {body : EngineFunc} {inst : Option Nat} {m m' : Machine T} {u : Unit}
    (h : executeCallee env c results (.compiled body inst) m = .ok u m') :
    m'.store = m.store ∧ m'.cache.inst = inst.getD m.cache.inst := by
  obtain ⟨kind, hasParams⟩ := c
  obtain ⟨_, m₁, hcall, hswitch⟩ := bind_eq_ok.mp h
  have hcontext : context m₁ = context m := by
    cases kind with
    | nested =>
      obtain ⟨called, m₂, calls, hdispatch, -, -, rfl⟩ := nestedCall_eq_ok.mp hcall
      have hkeep := (keeps_context_dispatchCompiledFunc _ _ _ _).of_ok hdispatch
      exact hkeep
    | tail =>
      obtain ⟨called, m₂, stack, called', callerInst, calls, hdispatch, -, -, rfl⟩ :=
        tailCall_eq_ok.mp hcall
      have hkeep := (keeps_context_dispatchCompiledFunc _ _ _ _).of_ok hdispatch
      exact hkeep
  obtain ⟨hcache, hstore⟩ := Prod.mk.inj hcontext
  cases inst with
  | none =>
    cases hswitch
    exact ⟨hstore, by rw [hcache]; rfl⟩
  | some inst =>
    simp only [switchInstance, updateCache, bind_eq_ok, get_apply, unwrap_eq_ok, modify_apply,
      EStateM.Result.ok.injEq] at hswitch
    obtain ⟨_, _, ⟨rfl, rfl⟩, cache, _, ⟨hload, rfl⟩, -, rfl⟩ := hswitch
    refine ⟨hstore, ?_⟩
    simp only [CachedInstance.load, Option.bind_eq_bind, Option.bind_eq_some_iff, Option.pure_def,
      Option.some.injEq] at hload
    obtain ⟨entity, -, memory, -, global, -, rfl⟩ := hload
    rfl

end Executor

end MotokoDebugger
