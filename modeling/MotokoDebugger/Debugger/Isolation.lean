import MotokoDebugger.Debugger.FailedRuns
import MotokoDebugger.Debugger.Refinement
import MotokoDebugger.Executor.StackLimits

/-!
# Runs one after the other

`execute_root_func` resets the stacks before it starts a function. `MainDebugger::execute_func` does
not, and `instantiate` leaves the list of invoked functions as it is.

* `Isolated`: a function starts as on a fresh stack, and runs as under the plain engine.
* `NothingLeft`: the stacks and the list of invoked functions are empty.
* `isolated_iff`: a function that starts on a fresh stack is isolated iff nothing is left.
* `paused_run_not_isolated`: a run that is started while another one is paused is not.
-/

namespace MotokoDebugger

namespace Debugger

open StateExcept Executor Runs

variable {T : Type} {env : Engine T}

/-! ## Fresh stacks -/

/-- The debugger with a fresh stack. -/
def withFreshStack (s : Session T) : Session T :=
  { s with
    machine := { s.machine with stack := s.machine.stack.reset }
    invokedFuncIndex := [] }

/-- Nothing is left of earlier runs. -/
structure NothingLeft (s : Session T) : Prop where
  values : s.machine.stack.values.values = []
  frames : s.machine.stack.calls.frames = []
  instances : s.machine.stack.calls.instances = []
  invoked : s.invokedFuncIndex = []

lemma withFreshStack_eq {s : Session T} (h : NothingLeft s) : withFreshStack s = s := by
  obtain ⟨⟨sp, ip, cache, ⟨⟨values, maxLen⟩, ⟨frames, instances, limit⟩⟩, store⟩, executor, inst,
    startFnIdx, runFunc, invoked, breakpoints, isInterrupted⟩ := s
  obtain ⟨rfl, rfl, rfl, rfl⟩ := h
  rfl

/-! ## The frame of the function -/

/-- The frame of the function has room for the parameters. -/
def FitsFrame (func : CompiledFunc) (params : List UntypedVal) : Prop :=
  min func.consts.length func.lenRegisters + params.length ≤ func.lenRegisters

/-- Where the parameters of a function fit into its frame does not depend on the stack. -/
lemma initParams_eq_some {stack allocated values : ValueStack} {func : CompiledFunc}
    {offsets : StackOffsets} {params : List UntypedVal}
    (halloc : stack.allocCallFrame func = .ok (allocated, offsets)) :
    allocated.initParams offsets params = some values ↔
      FitsFrame func params ∧
        ⟨overwrite (stack.values ++ ValueStack.newFrame func)
          (stack.values.length + min func.consts.length func.lenRegisters) params, stack.maxLen⟩ =
          values := by
  unfold ValueStack.allocCallFrame at halloc
  split at halloc
  · cases halloc
  cases halloc
  have hlen : (stack.values ++ ValueStack.newFrame func).length =
      stack.values.length + func.lenRegisters := by
    rw [List.length_append, ValueStack.length_newFrame]
  have hstart : min (stack.values.length + func.consts.length)
      (stack.values.length + func.lenRegisters) =
      stack.values.length + min func.consts.length func.lenRegisters := by omega
  have hroom : stack.values.length + min func.consts.length func.lenRegisters + params.length ≤
      stack.values.length + func.lenRegisters ↔ FitsFrame func params := by
    unfold FitsFrame
    omega
  unfold ValueStack.initParams
  dsimp only
  rw [hlen, hstart, Option.ite_some_none_eq_some, hroom]

/-- The cells of a function with its parameters are as many as without them. -/
lemma length_initParams {stack allocated values : ValueStack} {func : CompiledFunc}
    {offsets : StackOffsets} {params : List UntypedVal}
    (halloc : stack.allocCallFrame func = .ok (allocated, offsets))
    (h : allocated.initParams offsets params = some values) :
    values.values.length = stack.values.length + func.lenRegisters := by
  obtain ⟨hfits, rfl⟩ := (initParams_eq_some halloc).mp h
  have hlen : (stack.values ++ ValueStack.newFrame func).length =
      stack.values.length + func.lenRegisters := by
    rw [List.length_append, ValueStack.length_newFrame]
  have hroom : stack.values.length + min func.consts.length func.lenRegisters + params.length ≤
      (stack.values ++ ValueStack.newFrame func).length := by
    unfold FitsFrame at hfits
    omega
  exact (length_overwrite hroom).trans hlen

lemma getElem?_overwrite {α : Type} {xs ys : List α} {start i : Nat}
    (hroom : start + ys.length ≤ xs.length) (hi : i < ys.length) :
    (overwrite xs start ys)[start + i]? = ys[i]? := by
  have hstart : (xs.take start).length = start := by
    rw [List.length_take]
    omega
  unfold overwrite
  rw [List.append_assoc, List.getElem?_append_right (by omega), hstart, Nat.add_sub_cancel_left,
    List.getElem?_append_left hi]

/-- The parameters are the first registers of the function. -/
lemma getElem?_initParams {stack allocated values : ValueStack} {func : CompiledFunc}
    {offsets : StackOffsets} {params : List UntypedVal}
    (halloc : stack.allocCallFrame func = .ok (allocated, offsets))
    (h : allocated.initParams offsets params = some values) {i : Nat} (hi : i < params.length) :
    values.values[offsets.base + i]? = params[i]? := by
  obtain ⟨hfits, rfl⟩ := (initParams_eq_some halloc).mp h
  have hlen : (stack.values ++ ValueStack.newFrame func).length =
      stack.values.length + func.lenRegisters := by
    rw [List.length_append, ValueStack.length_newFrame]
  have hbase : offsets.base = stack.values.length + func.consts.length := by
    unfold ValueStack.allocCallFrame at halloc
    split at halloc
    · cases halloc
    · cases halloc
      rfl
  unfold FitsFrame at hfits
  have hconsts : min func.consts.length func.lenRegisters = func.consts.length := by omega
  rw [hbase, hconsts]
  exact getElem?_overwrite (by omega) hi

/-- A frame that comes onto a call stack as onto an empty one comes onto an empty one. -/
lemma push_as_first {calls calls' : CallStack} {call call' : CallFrame} {inst : Nat}
    (h : calls.push call (some inst) = .ok calls')
    (h' : CallStack.push ⟨[], [], calls.recursionLimit⟩ call' (some inst) = .ok calls') :
    calls.frames = [] ∧ calls.instances = [] := by
  obtain ⟨frames, instances, limit⟩ := calls
  simp only [CallStack.push, CallStack.pushInstance, List.head?_nil, reduceCtorEq, if_false] at h h'
  split at h'
  · cases h'
  cases h'
  split at h
  · cases h
  split at h
  · simp at h
  · simp_all

/-- A call of the function overflows the stacks: the cells for its results, its frame, or the
frames are too many. -/
def Overflows (env : Engine T) (wasmFunc : WasmFuncEntity) (lenResults : Nat)
    (params : List UntypedVal) (stack : Stack) : Prop :=
  stack.values.maxLen - stack.values.values.length ≤ lenResults ∨
    stack.values.maxLen - (stack.values.values.length + lenResults) ≤
      (env.codeMap wasmFunc.body).lenRegisters ∨
    FitsFrame (env.codeMap wasmFunc.body) params ∧
      stack.calls.frames.length = stack.calls.recursionLimit

/-- A call that overflows fresh stacks overflows all. -/
lemma Overflows.of_reset {wasmFunc : WasmFuncEntity} {lenResults : Nat}
    {params : List UntypedVal} {stack : Stack}
    (hlimit : stack.calls.frames.length ≤ stack.calls.recursionLimit)
    (h : Overflows env wasmFunc lenResults params stack.reset) :
    Overflows env wasmFunc lenResults params stack := by
  rcases h with hresults | hframe | ⟨hfits, hframes⟩
  · have hresults' : stack.values.maxLen - 0 ≤ lenResults := hresults
    left
    omega
  · have hframe' : stack.values.maxLen - (0 + lenResults) ≤
        (env.codeMap wasmFunc.body).lenRegisters := hframe
    right
    left
    omega
  · have hframes' : 0 = stack.calls.recursionLimit := hframes
    exact .inr (.inr ⟨hfits, by omega⟩)

section Prepare

variable {wasmFunc : WasmFuncEntity} {lenResults : Nat} {params : List UntypedVal}
  {m m' : Machine T}

lemma extendBy_eq_error {stack : ValueStack} {additional : Nat} {code : TrapCode} :
    stack.extendBy additional = .error code ↔
      code = .stackOverflow ∧ stack.maxLen - stack.values.length ≤ additional := by
  unfold ValueStack.extendBy
  split
  · simp [*, eq_comm]
  · simp_all

lemma extendBy_eq_ok {stack stack' : ValueStack} {additional : Nat} :
    stack.extendBy additional = .ok stack' ↔
      ¬stack.maxLen - stack.values.length ≤ additional ∧
        ⟨stack.values ++ List.replicate additional 0, stack.maxLen⟩ = stack' := by
  unfold ValueStack.extendBy
  split
  · simp_all
  · simp_all

lemma allocCallFrame_eq_error {stack : ValueStack} {func : CompiledFunc} {code : TrapCode} :
    stack.allocCallFrame func = .error code ↔
      code = .stackOverflow ∧ stack.maxLen - stack.values.length ≤ func.lenRegisters := by
  unfold ValueStack.allocCallFrame
  split
  · simp [*, eq_comm]
  · simp_all

lemma allocCallFrame_eq_ok {stack : ValueStack} {func : CompiledFunc}
    (h : ¬stack.maxLen - stack.values.length ≤ func.lenRegisters) :
    stack.allocCallFrame func =
      .ok (⟨stack.values ++ ValueStack.newFrame func, stack.maxLen⟩,
        ⟨stack.values.length, stack.values.length + func.consts.length⟩) := if_neg h

/-- The cells below the frame of the function. -/
def reserved (stack : ValueStack) (lenResults : Nat) : ValueStack :=
  ⟨stack.values ++ List.replicate lenResults 0, stack.maxLen⟩

lemma length_reserved (stack : ValueStack) (lenResults : Nat) :
    (reserved stack lenResults).values.length = stack.values.length + lenResults := by
  simp [reserved]

/-- A start that overflows the stacks is a trap. -/
lemma prepareFunc_of_overflows (h : Overflows env wasmFunc lenResults params m.stack) :
    ∃ m', prepareFunc env wasmFunc lenResults params m = .error (.trap .stackOverflow) m' := by
  unfold prepareFunc
  rw [get_bind]
  by_cases hresults : m.stack.values.maxLen - m.stack.values.values.length ≤ lenResults
  · have htrap := extendBy_eq_error.mpr ⟨rfl, hresults⟩
    exact ⟨m, bind_error (liftTrap_eq_error.mpr ⟨_, htrap, rfl, rfl⟩)⟩
  have hreserved := extendBy_eq_ok.mpr ⟨hresults, (rfl : _ = reserved m.stack.values lenResults)⟩
  rw [bind_ok (liftTrap_eq_ok.mpr ⟨hreserved, rfl⟩), bind_ok (setValues_apply _ _)]
  by_cases hframe : (reserved m.stack.values lenResults).maxLen -
      (reserved m.stack.values lenResults).values.length ≤
        (env.codeMap wasmFunc.body).lenRegisters
  · have htrap := allocCallFrame_eq_error.mpr ⟨rfl, hframe⟩
    exact ⟨_, bind_error (liftTrap_eq_error.mpr ⟨_, htrap, rfl, rfl⟩)⟩
  have halloc := allocCallFrame_eq_ok hframe
  rw [length_reserved] at hframe
  obtain ⟨hfits, hframes⟩ := (h.resolve_left hresults).resolve_left hframe
  rw [bind_ok (liftTrap_eq_ok.mpr ⟨halloc, rfl⟩)]
  dsimp only
  rw [bind_ok (assume_eq_ok.mpr ⟨(initParams_eq_some halloc).mpr ⟨hfits, rfl⟩, rfl⟩),
    bind_ok (setValues_apply _ _)]
  exact ⟨_, bind_error (pushFrame_eq_error.mpr ⟨_, if_pos hframes, rfl, rfl⟩)⟩

/-- A start that traps overflows the stacks. -/
lemma overflows_of_trap {code : TrapCode}
    (h : prepareFunc env wasmFunc lenResults params m = .error (.trap code) m') :
    code = .stackOverflow ∧ Overflows env wasmFunc lenResults params m.stack := by
  unfold prepareFunc at h
  rw [get_bind] at h
  rcases bind_eq_error.mp h with hfail | ⟨stack, _, hok, h⟩
  · obtain ⟨_, hfail, hcode, -⟩ := liftTrap_eq_error.mp hfail
    cases hcode
    obtain ⟨hcode, hresults⟩ := extendBy_eq_error.mp hfail
    exact ⟨hcode, .inl hresults⟩
  obtain ⟨hreserved, rfl⟩ := liftTrap_eq_ok.mp hok
  obtain rfl : reserved m.stack.values lenResults = stack := (extendBy_eq_ok.mp hreserved).2
  rw [bind_ok (setValues_apply _ _)] at h
  rcases bind_eq_error.mp h with hfail | ⟨⟨allocated, offsets⟩, _, hok, h⟩
  · obtain ⟨_, hfail, hcode, -⟩ := liftTrap_eq_error.mp hfail
    cases hcode
    obtain ⟨hcode, hframe⟩ := allocCallFrame_eq_error.mp hfail
    rw [length_reserved] at hframe
    exact ⟨hcode, .inr (.inl hframe)⟩
  obtain ⟨halloc, rfl⟩ := liftTrap_eq_ok.mp hok
  rcases bind_eq_error.mp h with hfail | ⟨values, _, hok, h⟩
  · cases hparams : allocated.initParams offsets params with
    | none =>
      rw [hparams] at hfail
      cases hfail
    | some values =>
      rw [hparams] at hfail
      cases hfail
  obtain ⟨hparams, rfl⟩ := assume_eq_ok.mp hok
  obtain ⟨hfits, -⟩ := (initParams_eq_some halloc).mp hparams
  rw [bind_ok (setValues_apply _ _)] at h
  rcases bind_eq_error.mp h with hfail | ⟨_, _, hok, h⟩
  · obtain ⟨_, hfail, hcode, -⟩ := pushFrame_eq_error.mp hfail
    cases hcode
    have hframes := CallStack.push_eq_error hfail
    unfold CallStack.push at hfail
    rw [if_pos hframes] at hfail
    cases hfail
    exact ⟨rfl, .inr (.inr ⟨hfits, hframes⟩)⟩
  have hexecutor : newExecutor _ = .error (.trap code) m' := h
  exact absurd ⟨_, rfl⟩ (noFault_newExecutor _ _ _ hexecutor)

/-- The traps of a start are overflows of the stacks. -/
lemma prepareFunc_trap_iff {code : TrapCode} :
    (∃ m', prepareFunc env wasmFunc lenResults params m = .error (.trap code) m') ↔
      code = .stackOverflow ∧ Overflows env wasmFunc lenResults params m.stack := by
  constructor
  · rintro ⟨m', h⟩
    exact overflows_of_trap h
  · rintro ⟨rfl, h⟩
    exact prepareFunc_of_overflows h

/-- A start on the stacks as they are does what it does on fresh ones iff they are empty. -/
lemma prepareFunc_fresh_iff
    (hfresh : prepareFunc env wasmFunc lenResults params { m with stack := m.stack.reset } =
      .ok () m') :
    prepareFunc env wasmFunc lenResults params m = .ok () m' ↔
      m.stack.values.values = [] ∧ m.stack.calls.frames = [] ∧ m.stack.calls.instances = [] := by
  constructor
  · intro h
    obtain ⟨_, _, _, values₀, calls₀, _, _, _, hreserved₀, halloc₀, hparams₀, hpush₀, -, -, -,
      rfl⟩ := prepareFunc_eq_ok.mp hfresh
    obtain ⟨_, _, _, values, calls, _, _, _, hreserved, halloc, hparams, hpush, -, -, -, heq⟩ :=
      prepareFunc_eq_ok.mp h
    have hvalues : values = values₀ := congrArg (fun m => m.stack.values) heq
    have hcalls : calls = calls₀ := congrArg (fun m => m.stack.calls) heq
    subst hvalues hcalls
    obtain ⟨hframes, hinstances⟩ := push_as_first hpush hpush₀
    have hlen := length_initParams halloc hparams
    have hlen₀ := length_initParams halloc₀ hparams₀
    obtain ⟨-, rfl⟩ := extendBy_eq_ok.mp hreserved
    obtain ⟨-, rfl⟩ := extendBy_eq_ok.mp hreserved₀
    simp only [List.length_append, List.length_replicate] at hlen hlen₀
    have hnone : m.stack.reset.values.values.length = 0 := rfl
    exact ⟨List.eq_nil_of_length_eq_zero (by omega), hframes, hinstances⟩
  · rintro ⟨hvalues, hframes, hinstances⟩
    have hstack : m.stack.reset = m.stack := by
      obtain ⟨_, _, _, ⟨⟨values, maxLen⟩, ⟨frames, instances, limit⟩⟩, _⟩ := m
      obtain rfl : values = [] := hvalues
      obtain rfl : frames = [] := hframes
      obtain rfl : instances = [] := hinstances
      rfl
    rwa [hstack] at hfresh

end Prepare

/-! ## The plain engine -/

/-- The plain engine starts the function on fresh stacks. -/
lemma executeRootFunc_eq (hhook : env.callHook = none) {func : Nat} {wasmFunc : WasmFuncEntity}
    {m : Machine T} (hfunc : m.store.funcs[func]? = some (.wasm wasmFunc))
    (params : List UntypedVal) (lenResults fuel : Nat) :
    executeRootFunc env func params lenResults fuel m =
      (do
        prepareFunc env wasmFunc lenResults params
        plainRun env lenResults fuel) { m with stack := m.stack.reset } := by
  have hcall : ∀ callType, invokeCallHook env callType = (pure () : ExecM T Unit) := by
    intro callType
    simp [invokeCallHook, hhook]
  simp only [executeRootFunc, modify_bind, get_bind, hfunc, unwrap, pure_bind, hcall,
    prepareFunc_eq, bind_assoc, plainRun]
  -- the two matches on the end of the loop are one up to their names
  all_goals rfl

/-! ## Isolated runs -/

/-- The run that begins in `s₁` is that of the function alone: the stacks and the list of invoked
functions have it only, its parameters are the arguments, and the requests come to what
`execute_root_func` comes to on the machine `m₀`. -/
structure RunsAlone (env : Engine T) (func : Nat) (wasmFunc : WasmFuncEntity) (args : List Val)
    (m₀ : Machine T) (s₁ : Session T) : Prop where
  frames : funcs s₁.machine = [wasmFunc.body]
  invoked : ∃ inst, s₁.inst = some inst ∧
    s₁.invokedFuncIndex = [wasmFunc.body + inst.importFuncLen]
  params : ∀ i bits, (args.map (·.bits))[i]? = some bits →
    s₁.machine.stack.values.values[s₁.machine.sp.base + i]? = some bits
  root : ∀ fuel, executeRootFunc env func (args.map (·.bits))
      (env.funcType wasmFunc.ty).results.length fuel m₀ =
    plainRun env (env.funcType wasmFunc.ty).results.length fuel s₁.machine
  refines : ∀ n s', Steps (Drives env) n s₁ s' →
    Refines env s₁.machine (env.funcType wasmFunc.ty).results s'

/-- The function starts as on a fresh stack, and runs alone. -/
structure Isolated (env : Engine T) (func : Nat) (wasmFunc : WasmFuncEntity) (args : List Val)
    (s : Session T) : Prop where
  starts : ∀ s₁, executeFunc env func args (withFreshStack s) = .ok () s₁ →
    executeFunc env func args s = .ok () s₁ ∧ RunsAlone env func wasmFunc args s.machine s₁
  traps : ∀ code s₁, executeFunc env func args (withFreshStack s) = .error (.trap code) s₁ →
    (∃ s₂, executeFunc env func args s = .error (.trap code) s₂) ∧
      ∀ fuel, ∃ m, executeRootFunc env func (args.map (·.bits))
        (env.funcType wasmFunc.ty).results.length fuel s.machine = .error (.trap code) m

lemma not_verifyInputs_trap {σ : Type} {types : List ValType} {params : List Val} {s s' : σ}
    {code : TrapCode} : verifyInputs types params s ≠ .error (.trap code) s' := by
  unfold verifyInputs
  split
  · rintro ⟨⟩
  split
  · rintro ⟨⟩
  · rintro ⟨⟩

section Isolated

variable {func : Nat} {wasmFunc : WasmFuncEntity} {args : List Val} {s : Session T}

/-- The end of a start. -/
def recordStart (wasmFunc : WasmFuncEntity) : DbgM T Unit := do
  let importFuncLen ← getImportFuncLen
  modify fun s => { s with
    executor := .live
    invokedFuncIndex := (wasmFunc.body + importFuncLen) :: s.invokedFuncIndex }

/-- What `execute_func` does with a Wasm function. -/
def startWasmFunc (env : Engine T) (wasmFunc : WasmFuncEntity) (args : List Val) : DbgM T Unit := do
  let funcType := env.funcType wasmFunc.ty
  verifyInputs funcType.params args
  onMachine (prepareFunc env wasmFunc funcType.results.length (args.map (·.bits)))
  recordStart wasmFunc

lemma noFault_recordStart (wasmFunc : WasmFuncEntity) :
    NoFault Stop.IsFault (recordStart wasmFunc : DbgM T Unit) := by
  have hlen : NoFault Stop.IsFault (getImportFuncLen : DbgM T Nat) :=
    NoFault.get.bind fun _ => (noFault_unwrap _).bind fun _ => NoFault.pure _
  exact hlen.bind fun _ => NoFault.modify _

lemma executeFunc_wasm (hfunc : s.machine.store.funcs[func]? = some (.wasm wasmFunc)) :
    executeFunc env func args s = startWasmFunc env wasmFunc args s := by
  have hget : unwrap s.machine.store.funcs[func]? s = .ok (.wasm wasmFunc) s := by
    rw [hfunc]
    rfl
  rw [executeFunc, get_bind, bind_ok hget]
  rfl

/-- A start traps where its arguments are accepted and it overflows the stacks. -/
lemma executeFunc_trap_iff (hfunc : s.machine.store.funcs[func]? = some (.wasm wasmFunc))
    {code : TrapCode} :
    (∃ s', executeFunc env func args s = .error (.trap code) s') ↔
      (env.funcType wasmFunc.ty).params = args.map (·.ty) ∧ code = .stackOverflow ∧
        Overflows env wasmFunc (env.funcType wasmFunc.ty).results.length (args.map (·.bits))
          s.machine.stack := by
  rw [executeFunc_wasm hfunc, ← prepareFunc_trap_iff, startWasmFunc]
  constructor
  · rintro ⟨s', h⟩
    rcases bind_eq_error.mp h with hrefused | ⟨_, _, hverify, h⟩
    · exact absurd hrefused not_verifyInputs_trap
    obtain ⟨htypes, rfl⟩ := verifyInputs_eq_ok.mp hverify
    rcases bind_eq_error.mp h with hprepare | ⟨_, _, _, hrecord⟩
    · obtain ⟨m', hprepare, -⟩ := zoom_eq_error.mp hprepare
      exact ⟨htypes, m', hprepare⟩
    · exact absurd ⟨_, rfl⟩ (noFault_recordStart wasmFunc _ _ _ hrecord)
  · rintro ⟨htypes, m', hprepare⟩
    have hverify : verifyInputs (env.funcType wasmFunc.ty).params args s = .ok () s :=
      verifyInputs_eq_ok.mpr ⟨htypes, rfl⟩
    rw [bind_ok hverify]
    exact ⟨{ s with machine := m' }, bind_error (zoom_error hprepare)⟩

/-- A start on fresh stacks goes on as the plain engine does. -/
lemma runsAlone_of_fresh (hhosts : HostsKeepFuncs env) (hhook : env.callHook = none)
    (hfunc : s.machine.store.funcs[func]? = some (.wasm wasmFunc))
    (hrunFunc : s.runFunc = some func) {s₁ : Session T}
    (hstart : executeFunc env func args (withFreshStack s) = .ok () s₁)
    (hreads : ∀ m, Running env s₁.machine m → ReadsSlot env m) :
    RunsAlone env func wasmFunc args s.machine s₁ := by
  have hrefines : ∀ n s', Steps (Drives env) n s₁ s' →
      Refines env s₁.machine (env.funcType wasmFunc.ty).results s' := fun n s' hdrives =>
    @requests_refine_execute _ _ (withFreshStack s) _ _ _ _ _ _ hhosts hfunc hrunFunc hstart hreads
      hdrives
  obtain ⟨wasmFunc', inst, m, hfunc', hinst, -, hprepare, rfl⟩ := executeFunc_eq_ok.mp hstart
  obtain rfl : wasmFunc = wasmFunc' := by
    have hsame := hfunc.symm.trans hfunc'
    cases hsame
    rfl
  have hfuncs : funcs m = [wasmFunc.body] := congrArg Prod.fst (prepareFunc_skeleton hprepare).1
  refine ⟨hfuncs, ⟨inst, hinst, rfl⟩, ?_, ?_, hrefines⟩
  · intro i bits hbits
    obtain ⟨hi, -⟩ := List.getElem?_eq_some_iff.mp hbits
    obtain ⟨_, _, offsets, _, _, _, _, frame, -, halloc, hparams, hpush, -, -, hpeek, rfl⟩ :=
      prepareFunc_eq_ok.mp hprepare
    obtain ⟨-, -, changed, hframes⟩ := CallStack.push_eq_ok hpush
    obtain rfl : { rootFrame wasmFunc offsets with changedInstance := changed } = frame := by
      rw [CallStack.peek, hframes] at hpeek
      exact Option.some.inj hpeek
    exact (getElem?_initParams halloc hparams hi).trans hbits
  · intro fuel
    rw [executeRootFunc_eq hhook hfunc]
    exact bind_ok hprepare

/-- A function that is started as on a fresh stack finds nothing left. -/
lemma nothingLeft_of_starts {s₁ : Session T}
    (hfresh : executeFunc env func args (withFreshStack s) = .ok () s₁)
    (hstart : executeFunc env func args s = .ok () s₁) : NothingLeft s := by
  obtain ⟨wasmFunc, inst, m, hfunc, hinst, -, hprepare, rfl⟩ := executeFunc_eq_ok.mp hfresh
  obtain ⟨wasmFunc', inst', m', hfunc', hinst', -, hprepare', heq⟩ := executeFunc_eq_ok.mp hstart
  obtain rfl : wasmFunc = wasmFunc' := by
    have hsame := hfunc.symm.trans hfunc'
    cases hsame
    rfl
  obtain rfl : m' = m := congrArg Session.machine heq
  have hinvoked : (wasmFunc.body + inst'.importFuncLen) :: s.invokedFuncIndex =
      [wasmFunc.body + inst.importFuncLen] := congrArg Session.invokedFuncIndex heq
  obtain ⟨hvalues, hframes, hinstances⟩ := (prepareFunc_fresh_iff hprepare).mp hprepare'
  exact ⟨hvalues, hframes, hinstances, (List.cons.inj hinvoked).2⟩

/-- A function that traps on fresh stacks traps on all, and under the plain engine. -/
lemma traps_of_fresh (hhook : env.callHook = none)
    (hfunc : s.machine.store.funcs[func]? = some (.wasm wasmFunc)) (hlimit : InLimit s.machine)
    {code : TrapCode} {s₁ : Session T}
    (htrap : executeFunc env func args (withFreshStack s) = .error (.trap code) s₁) :
    (∃ s₂, executeFunc env func args s = .error (.trap code) s₂) ∧
      ∀ fuel, ∃ m, executeRootFunc env func (args.map (·.bits))
        (env.funcType wasmFunc.ty).results.length fuel s.machine = .error (.trap code) m := by
  have hfunc' : (withFreshStack s).machine.store.funcs[func]? = some (.wasm wasmFunc) := hfunc
  obtain ⟨htypes, rfl, hoverflows⟩ := (executeFunc_trap_iff hfunc').mp ⟨s₁, htrap⟩
  have hframes : s.machine.stack.calls.frames.length ≤ s.machine.stack.calls.recursionLimit := by
    simpa [InLimit, skeleton, funcs] using hlimit
  refine ⟨(executeFunc_trap_iff hfunc).mpr ⟨htypes, rfl, hoverflows.of_reset hframes⟩, ?_⟩
  intro fuel
  obtain ⟨m, hprepare⟩ := @prepareFunc_of_overflows _ env wasmFunc _ _
    { s.machine with stack := s.machine.stack.reset } hoverflows
  rw [executeRootFunc_eq hhook hfunc]
  exact ⟨m, bind_error hprepare⟩

/-- A function that starts on a fresh stack is isolated iff nothing is left of earlier runs; one
that traps there traps on every stack. The plain run may not make the debugger read an empty slot
of a table. -/
theorem isolated_iff (hhosts : HostsKeepFuncs env) (hhook : env.callHook = none)
    (hfunc : s.machine.store.funcs[func]? = some (.wasm wasmFunc)) (hlimit : InLimit s.machine)
    (request : StartRequest)
    (hreads : ∀ s₁, executeFunc env func args (withFreshStack (request.marked (some func) s)) =
      .ok () s₁ → ∀ m, Running env s₁.machine m → ReadsSlot env m) :
    Isolated env func wasmFunc args (request.marked (some func) s) ↔
      ((∃ s₁, executeFunc env func args (withFreshStack (request.marked (some func) s)) =
        .ok () s₁) → NothingLeft s) := by
  have hmachine : (request.marked (some func) s).machine = s.machine := by
    cases request <;> rfl
  have hrunFunc : (request.marked (some func) s).runFunc = some func := by
    cases request <;> rfl
  have hleft : NothingLeft (request.marked (some func) s) ↔ NothingLeft s := by
    cases request <;> exact ⟨fun h => ⟨h.1, h.2, h.3, h.4⟩, fun h => ⟨h.1, h.2, h.3, h.4⟩⟩
  rw [← hmachine] at hfunc hlimit
  rw [← hleft]
  constructor
  · rintro hisolated ⟨s₁, hfresh⟩
    exact nothingLeft_of_starts hfresh (hisolated.starts s₁ hfresh).1
  · intro hnothing
    refine ⟨fun s₁ hfresh => ⟨?_, ?_⟩, fun code s₁ => traps_of_fresh hhook hfunc hlimit⟩
    · have hstart := hfresh
      rwa [withFreshStack_eq (hnothing ⟨s₁, hfresh⟩)] at hstart
    · exact runsAlone_of_fresh hhosts hhook hfunc hrunFunc hfresh (hreads s₁ hfresh)

/-- What a request does after the start: a `run` goes on. -/
def StartRequest.goOn (env : Engine T) (fuel : Nat) : StartRequest → DbgM T Unit
  | .run => do let _ ← Debugger.process env fuel
  | .runStep => pure ()

/-- A request for a function that there is starts it in the marked session. -/
theorem perform_of_found {name : Option String} (hfound : lookupFunc name s = .ok (some func) s)
    (fuel : Nat) (request : StartRequest) :
    request.perform env fuel name args s =
      (do
        executeFunc env func args
        request.goOn env fuel) (request.marked (some func) s) := by
  cases request with
  | run =>
    rw [StartRequest.perform, Debugger.run]
    simp only [bind_assoc]
    rw [modify_bind, bind_ok (lookupFunc_marked true hfound)]
    simp only [bind_assoc, modify_bind]
    rfl
  | runStep =>
    rw [StartRequest.perform, runStep, bind_ok hfound]
    show executeFunc env func args (StartRequest.runStep.marked (some func) s) = _
    cases hstart : executeFunc env func args (StartRequest.runStep.marked (some func) s) with
    | ok _ s' => exact (bind_ok hstart).symm
    | error stop s' => exact (bind_error hstart).symm

end Isolated

/-! ## Concrete runs -/

/-- The debugger before its first run. -/
def beforeRuns : Session Unit :=
  launched (Launch.ofStore (Store.ofFuncs [.wasm ⟨0, 0, 0⟩, .wasm ⟨1, 1, 0⟩]))

lemma mem_of_instrAt {ip : InstructionPtr} {instr : Instruction}
    (h : env.instrAt ip = some instr) : instr ∈ (env.codeMap ip.func).instrs := by
  unfold Engine.instrAt Engine.wordsAt at h
  split at h
  · exact List.mem_of_mem_drop (List.mem_of_head? h)
  · cases h

/-- The code calls nothing. -/
lemma readsSlot_returnEngine (m : Machine Unit) : ReadsSlot returnEngine m := by
  intro instr site results target index table m' hinstr hsite
  have hops : ∀ func, ∀ instr ∈ (returnEngine.codeMap func).instrs, instr.op.callSite = none := by
    intro func
    match func with
    | 0 => decide
    | 1 => decide
    | func + 2 => exact fun _ h => by cases h
  rw [hops _ _ (mem_of_instrAt hinstr)] at hsite
  cases hsite

theorem isolated_iff_beforeRuns :
    Isolated returnEngine 0 ⟨0, 0, 0⟩ [⟨.i32, 7⟩]
        (StartRequest.runStep.marked (some 0) beforeRuns) ↔
      ((∃ s₁, executeFunc returnEngine 0 [⟨.i32, 7⟩]
        (withFreshStack (StartRequest.runStep.marked (some 0) beforeRuns)) = .ok () s₁) →
          NothingLeft beforeRuns) :=
  isolated_iff (fun _ _ _ _ _ _ h => h) rfl rfl (Nat.zero_le _) .runStep
    fun _ _ m _ => readsSlot_returnEngine m

/-- A run that is started while one is paused: the stacks have both. -/
theorem paused_run_not_isolated :
    ∃ s, runStep returnEngine (some "0") [⟨.i32, 7⟩] beforeRuns = .ok () s ∧
      ¬ Isolated returnEngine 0 ⟨0, 0, 0⟩ [⟨.i32, 7⟩] (StartRequest.runStep.marked (some 0) s) := by
  refine ⟨returnSession "0", eq_ok_of_returned rfl, fun hisolated => ?_⟩
  have hfresh := eq_ok_of_returned (r := executeFunc returnEngine 0 [⟨.i32, 7⟩]
    (withFreshStack (StartRequest.runStep.marked (some 0) (returnSession "0")))) (a := ()) rfl
  have hinvoked := congrArg (fun r => (finalState r).invokedFuncIndex)
    (hisolated.starts _ hfresh).1
  exact absurd hinvoked (by decide +kernel)

end Debugger

end MotokoDebugger
