import MotokoDebugger.Executor.CallSite
import MotokoDebugger.Executor.CodeMap
import MotokoDebugger.Executor.Root

/-!
# Runs with lazy compilation

The executor asks the code map for a compiled function before it calls it. Where the function is not
compiled yet the code map compiles it then, and takes fuel for that.

* `LazyMachine`: a machine with the entities of its functions. A compiled one has the code that the
  engine has for it.
* `getCode`: `CodeMap::get` on one thread.
* `lazyOne`, `lazyExecute`, `lazyRootFunc`: an iteration of the plain loop, the loop, and
  `execute_root_func`.
* `lazyRootFunc_eager`: where all functions are compiled they are those of the eager engine.
-/

namespace MotokoDebugger

open StateExcept Runs

variable {T : Type} {α : Type}

/-- The translation of the functions. -/
abbrev Translate := EngineFunc → UncompiledFuncEntity → Except Error Unit

/-- A machine with the entities of its functions. -/
structure LazyMachine (T : Type) where
  machine : Machine T
  entities : EngineFunc → CodeMap.FuncEntity Unit

/-- A step of the executor that may compile functions. -/
abbrev LazyM (T : Type) := EStateM Stop (LazyMachine T)

/-- The machine as a part of the state. -/
def LazyMachine.machine_ : Part (LazyMachine T) (Machine T) where
  get := machine
  put := fun machine s => { s with machine }

/-- Runs a step that compiles nothing. -/
def onEager (x : ExecM T α) : LazyM T α := zoom LazyMachine.machine_ x

/-- All functions are compiled. -/
def LazyMachine.eager (machine : Machine T) : LazyMachine T := ⟨machine, fun _ => .compiled ()⟩

namespace Executor

/-! ## The code map -/

/-- The errors of the code map as those of the executor. -/
def codeError : CodeMap.GetError Error → Stop
  | .outOfFuel => .trap .outOfFuel
  | .translation error => .fault error
  | .lazyCompilationFailed => .fault (.message
      "lazy function compilation encountered a Wasm validation or translation error")
  | .panic => .panic

def setEntity (func : EngineFunc) (entity : CodeMap.FuncEntity Unit) : LazyM T Unit :=
  modify fun s => { s with entities := Function.update s.entities func entity }

/-- The end of `CodeMap::compile`. -/
def finishCompilation (func : EngineFunc) (compiled : Except (CodeMap.GetError Error) Unit) :
    LazyM T Unit := do
  match compiled with
  | .ok _ => setEntity func (.compiled ())
  | .error error =>
    setEntity func .failedToCompile
    throw (codeError error)

/-- `CodeMap::get` with the fuel of the store. There is one thread, on which no function is seen
while it compiles. -/
def getCode (translate : Translate) (func : EngineFunc) : LazyM T Unit := do
  match (← get).entities func with
  | .compiled _ => pure ()
  | .uncompiled entity =>
    let fuel := (← get).machine.store.fuel
    let (compiled, left) := CodeMap.compile (translate func) (some fuel) entity
    onEager (modify fun m => { m with store := { m.store with fuel := left.getD fuel } })
    finishCompilation func compiled
  | .failedToCompile => throw (codeError .lazyCompilationFailed)
  | .compiling => throw .undefined
  | .uninit => throw .panic

/-! ## The plain engine -/

variable (env : Engine T) (translate : Translate)

/-- `prepare_compiled_func_call` begins with the code of the callee. -/
def lazyCallee (c : CallContext) (results : RegSpan) : Callee → LazyM T Unit
  | .compiled body inst => do
    getCode translate body
    onEager (executeCallee env c results (.compiled body inst))
  | callee => onEager (executeCallee env c results callee)

/-- A call instruction. -/
def lazySite (site : CallSite) : LazyM T Unit := do
  let (results, callee, _) ← onEager (resolveSite env site)
  lazyCallee env translate site.context results callee

/-- One iteration of `Executor::execute`. -/
def lazyOne : LazyM T ControlFlow := do
  let instr ← onEager (fetch env)
  match instr.op.callSite with
  | some site =>
    lazySite env translate site
    return .continue_
  | none => onEager (executeOp env instr.op)

/-- `Executor::execute`. -/
def lazyExecute : Nat → LazyM T (Option Unit)
  | 0 => return none
  | fuel + 1 => do
    match ← lazyOne env translate with
    | .continue_ => lazyExecute fuel
    | .break_ => return some ()

/-- The beginning of `execute_root_func`: resets the stacks and reserves the result cells. -/
def reserveResults (lenResults : Nat) : ExecM T Unit := do
  modify fun m => { m with stack := m.stack.reset }
  let values ← liftTrap ((← get).stack.values.extendBy lenResults)
  setValues values

/-- The frame of the root function. -/
def pushRootFrame (wasmFunc : WasmFuncEntity) (params : List UntypedVal) : ExecM T Unit := do
  let (values, offsets) ←
    liftTrap ((← get).stack.values.allocCallFrame (env.codeMap wasmFunc.body))
  let values ← assume (values.initParams offsets params)
  setValues values
  let frame : CallFrame :=
    { func := wasmFunc.body, instrPtr := ⟨wasmFunc.body, 0⟩, offsets, results := ⟨0⟩ }
  pushFrame frame (some wasmFunc.inst)

/-- `execute_root_func` up to the loop, for a Wasm function. -/
def lazyEnter (wasmFunc : WasmFuncEntity) (params : List UntypedVal) (lenResults : Nat) :
    LazyM T Unit := do
  onEager (reserveResults lenResults)
  getCode translate wasmFunc.body
  onEager (pushRootFrame env wasmFunc params)
  onEager (invokeCallHook env .callingWasm)
  onEager newExecutor

/-- `execute_root_func` behind the loop. -/
def leaveRoot (lenResults : Nat) : Option Unit → ExecM T (Option (List UntypedVal))
  | none => return none
  | some _ => do
    invokeCallHook env .returningFromWasm
    return some (← rootResults lenResults)

/-- `EngineExecutor::execute_root_func`. A host function has no code. -/
def lazyRootFunc (func : Nat) (params : List UntypedVal) (lenResults : Nat) (fuel : Nat) :
    LazyM T (Option (List UntypedVal)) := do
  match (← get).machine.store.funcs[func]? with
  | some (.wasm wasmFunc) =>
    lazyEnter env translate wasmFunc params lenResults
    let ended ← lazyExecute env translate fuel
    onEager (leaveRoot env lenResults ended)
  | _ => onEager (executeRootFunc env func params lenResults fuel)

/-! ## One thread's part in the protocol of the code map -/

variable {env translate}

/-- The steps of a call of `CodeMap::get` that runs alone. -/
def Advances (translate : UncompiledFuncEntity → Except Error Unit)
    (s s' : CodeMap.FuncEntity Unit × CodeMap.Get Error Unit) : Prop :=
  CodeMap.advance translate s.1 s.2 = some s'

section Advances

variable {translate : UncompiledFuncEntity → Except Error Unit} {fuel : Option Fuel}

/-- A call for a function that is compiled. -/
lemma advances_compiled (code : Unit) :
    Steps (Advances translate) 1 (.compiled code, ⟨fuel, .start⟩)
      (.compiled code, ⟨fuel, .done (.ok code)⟩) := by
  refine .one ?_
  rfl

/-- A call for a function without a body has to wait. -/
lemma advances_wait {entity : CodeMap.FuncEntity Unit}
    (h : entity = .uninit ∨ entity = .failedToCompile) :
    Steps (Advances translate) 2 (entity, ⟨fuel, .start⟩) (entity, ⟨fuel, .wait⟩) := by
  have hstart : Advances translate (entity, ⟨fuel, .start⟩) (entity, ⟨fuel, .compileOrWait⟩) := by
    rcases h with rfl | rfl <;> rfl
  have hwait : Advances translate (entity, ⟨fuel, .compileOrWait⟩) (entity, ⟨fuel, .wait⟩) := by
    rcases h with rfl | rfl <;> rfl
  exact .head hstart (.one hwait)

/-- A call for a function with a body compiles it. -/
lemma advances_compile {body : UncompiledFuncEntity} {left : Option Fuel}
    {compiled : Except (CodeMap.GetError Error) Unit}
    (h : CodeMap.compile translate fuel body = (compiled, left)) :
    Steps (Advances translate) 3 (.uncompiled body, ⟨fuel, .start⟩)
      (.compiling, ⟨left, .finish compiled⟩) := by
  have hstart : Advances translate (.uncompiled body, ⟨fuel, .start⟩)
      (.uncompiled body, ⟨fuel, .compileOrWait⟩) := rfl
  have htake : Advances translate (.uncompiled body, ⟨fuel, .compileOrWait⟩)
      (.compiling, ⟨fuel, .compile body⟩) := rfl
  have hcompile : Advances translate (.compiling, ⟨fuel, .compile body⟩)
      (.compiling, ⟨left, .finish compiled⟩) := by
    simp only [Advances, CodeMap.advance, h]
  exact .head hstart (.head htake (.one hcompile))

/-- A compilation with fuel leaves some. -/
lemma compile_left (fuel : Fuel) (body : UncompiledFuncEntity) :
    ∃ left, (CodeMap.compile translate (some fuel) body).2 = some left := by
  unfold CodeMap.compile
  dsimp only
  split
  all_goals exact ⟨_, rfl⟩

end Advances

/-- `getCode` does what the steps of the call lead to: the entity, the fuel and the result. -/
theorem getCode_steps {func : EngineFunc} {s : LazyMachine T}
    (h : s.entities func ≠ .compiling) :
    ∃ n entity fuel result,
      Steps (Advances (translate func)) n (s.entities func, ⟨some s.machine.store.fuel, .start⟩)
        (entity, ⟨some fuel, .done result⟩) ∧
      getCode translate func s =
        let s' : LazyMachine T := ⟨{ s.machine with store := { s.machine.store with fuel } },
          Function.update s.entities func entity⟩
        match result with
        | .ok _ => .ok () s'
        | .error error => .error (codeError error) s' := by
  obtain ⟨machine, entities⟩ := s
  dsimp only at h ⊢
  have hsame : ∀ entity, entities func = entity →
      Function.update entities func entity = entities := by
    intro entity heq
    rw [← heq, Function.update_eq_self]
  cases hentity : entities func with
  | uninit =>
    refine ⟨3, .uninit, machine.store.fuel, .error .panic, ?_, ?_⟩
    · exact (advances_wait (.inl rfl)).tail rfl
    · simp [getCode, get_bind, hentity, hsame _ hentity, codeError]
  | uncompiled body =>
    obtain ⟨compiled, left, hcompile⟩ :
        ∃ compiled left, CodeMap.compile (translate func) (some machine.store.fuel) body =
          (compiled, some left) := by
      obtain ⟨left, hleft⟩ := compile_left machine.store.fuel body
      exact ⟨_, left, Prod.ext rfl hleft⟩
    have hsteps := advances_compile hcompile
    cases compiled with
    | ok code =>
      refine ⟨4, .compiled code, left, .ok code, hsteps.tail rfl, ?_⟩
      simp only [getCode, get_bind, hentity, hcompile]
      rfl
    | error error =>
      refine ⟨4, .failedToCompile, left, .error error, hsteps.tail rfl, ?_⟩
      simp only [getCode, get_bind, hentity, hcompile]
      rfl
  | compiling => exact absurd hentity h
  | failedToCompile =>
    refine ⟨3, .failedToCompile, machine.store.fuel, .error .lazyCompilationFailed, ?_, ?_⟩
    · exact (advances_wait (.inr rfl)).tail rfl
    · simp [getCode, get_bind, hentity, hsame _ hentity]
  | compiled code =>
    refine ⟨1, .compiled code, machine.store.fuel, .ok code, advances_compiled code, ?_⟩
    simp [getCode, get_bind, hentity, hsame _ hentity]

/-! ## Eager compilation -/

/-- Where all functions are compiled, `y` does what `x` does. -/
def DoesAs (y : LazyM T α) (x : ExecM T α) : Prop :=
  ∀ m, y (.eager m) = mapState LazyMachine.eager (x m)

lemma DoesAs.pure (a : α) : DoesAs (pure a : LazyM T α) (pure a) := fun _ => rfl

lemma doesAs_onEager (x : ExecM T α) : DoesAs (onEager x) x := by
  intro m
  cases h : x m with
  | ok a m' => exact zoom_ok h
  | error stop m' => exact zoom_error h

lemma DoesAs.bind {β : Type} {y : LazyM T α} {x : ExecM T α} {f : α → LazyM T β}
    {g : α → ExecM T β} (hx : DoesAs y x) (hf : ∀ a, DoesAs (f a) (g a)) :
    DoesAs (y >>= f) (x >>= g) := by
  intro m
  have hy := hx m
  cases h : x m with
  | ok a m' =>
    rw [h] at hy
    rw [bind_ok h, bind_ok hy]
    exact hf a m'
  | error stop m' =>
    rw [h] at hy
    rw [bind_error h, bind_error hy]
    rfl

/-- The code of a compiled function is there. -/
lemma DoesAs.getCode {y : LazyM T α} {x : ExecM T α} (h : DoesAs y x) (func : EngineFunc) :
    DoesAs (do getCode translate func; y) x := fun m => h m

lemma doesAs_lazyOne : DoesAs (lazyOne env translate) (executeOne env) := by
  refine (doesAs_onEager _).bind fun instr => ?_
  split
  · rename_i site hsite
    rw [executeOp_callSite hsite]
    simp only [lazySite, executeSite, bind_assoc, pure_bind]
    refine (doesAs_onEager _).bind fun resolved => ?_
    obtain ⟨results, callee, pulled⟩ := resolved
    refine DoesAs.bind ?_ fun _ => DoesAs.pure _
    cases callee with
    | compiled body inst => exact (doesAs_onEager _).getCode body
    | host func entity => exact doesAs_onEager _
  · exact doesAs_onEager _

lemma doesAs_lazyExecute (fuel : Nat) :
    DoesAs (lazyExecute env translate fuel) (execute env fuel) := by
  induction fuel with
  | zero => exact DoesAs.pure _
  | succ fuel ih =>
    refine doesAs_lazyOne.bind fun flow => ?_
    cases flow with
    | continue_ => exact ih
    | break_ => exact DoesAs.pure _

/-- Where all functions are compiled, the plain engine is the eager one. -/
theorem lazyRootFunc_eager (func : Nat) (params : List UntypedVal) (lenResults fuel : Nat) :
    DoesAs (lazyRootFunc env translate func params lenResults fuel)
      (executeRootFunc env func params lenResults fuel) := by
  intro m
  rw [lazyRootFunc, get_bind]
  cases hfunc : m.store.funcs[func]? with
  | none =>
    rw [show (LazyMachine.eager m).machine.store.funcs[func]? = none from hfunc]
    exact doesAs_onEager _ m
  | some entity =>
    rw [show (LazyMachine.eager m).machine.store.funcs[func]? = some entity from hfunc]
    cases entity with
    | host hostFunc => exact doesAs_onEager _ m
    | wasm wasmFunc =>
      have hroot : executeRootFunc env func params lenResults fuel m = (do
          reserveResults lenResults
          pushRootFrame env wasmFunc params
          invokeCallHook env .callingWasm
          newExecutor
          let ended ← execute env fuel
          leaveRoot env lenResults ended) m := by
        simp only [executeRootFunc, reserveResults, enterRootFunc, pushRootFrame, bind_assoc,
          modify_bind, get_bind, hfunc, unwrap, pure_bind]
        rfl
      rw [hroot]
      dsimp only
      simp only [lazyEnter, bind_assoc]
      refine DoesAs.bind (doesAs_onEager _) (fun _ => DoesAs.getCode ?_ _) m
      refine (doesAs_onEager _).bind fun _ => (doesAs_onEager _).bind fun _ => ?_
      refine (doesAs_onEager _).bind fun _ => (doesAs_lazyExecute fuel).bind fun ended => ?_
      exact doesAs_onEager _

end Executor

end MotokoDebugger
