import MotokoDebugger.Debugger.Stepping
import MotokoDebugger.Executor.Root

/-!
# Starting a run

`MainDebugger::execute_func` repeats the beginning of `execute_root_func`, without its reset of the
stacks.

* `executeFunc_eq_ok`: what it does where it does not fail.
* `prepareFunc_eq_ok`: it pushes one frame onto the call stack as it stands.
-/

namespace MotokoDebugger

namespace Debugger

open StateExcept Executor

variable {T : Type} {env : Engine T}

/-! ## Looking functions up -/

lemma commutes_unwrap {E : Stop → Prop} {g : Session T → Session T} {α : Type} (a : Option α) :
    CommutesUpTo E g (unwrap a : DbgM T α) := by
  cases a with
  | none => exact CommutesUpTo.throw _
  | some a => exact CommutesUpTo.pure a

/-- The lookup by a name depends on the main instance only. -/
lemma commutes_lookupFuncByName {g : Session T → Session T} (hinst : ∀ s, (g s).inst = s.inst)
    (hindex : ∀ s, lookupFuncByIndex (g s) = lookupFuncByIndex s) (name : String) :
    CommutesUpTo (fun _ => False) g (lookupFuncByName name) := by
  refine CommutesUpTo.get_bind (fun s => ?_) fun s => by rw [hinst, hindex]
  split
  · exact .pure _
  split
  · exact .pure _
  split
  · exact .pure _
  · exact (commutes_unwrap _).bind fun _ => .pure _

lemma readOnly_lookupFuncByName (name : String) :
    ReadOnly (lookupFuncByName name : DbgM T (Option Nat)) := by
  refine ReadOnly.get.bind fun s => ?_
  split
  · exact ReadOnly.pure _
  split
  · exact ReadOnly.pure _
  split
  · exact ReadOnly.pure _
  · exact (readOnly_unwrap _).bind fun _ => ReadOnly.pure _

/-! ## Entering a function -/

/-- The two copies of the code agree, up to the reset. -/
lemma prepareFunc_eq (wasmFunc : WasmFuncEntity) (lenResults : Nat) (params : List UntypedVal) :
    prepareFunc env wasmFunc lenResults params =
      enterRootFunc env wasmFunc lenResults params >>= fun _ => newExecutor := by
  simp [prepareFunc, enterRootFunc, newExecutor]

lemma verifyInputs_eq_ok {types : List ValType} {params : List Val} {s s' : Session T} {u : Unit} :
    verifyInputs types params s = .ok u s' ↔ types = params.map (·.ty) ∧ s = s' := by
  unfold verifyInputs
  by_cases hlen : types.length = params.length
  · by_cases htypes : types = params.map (·.ty) <;> simp [hlen, htypes, bail]
  · have htypes : types ≠ params.map (·.ty) := fun h => hlen (by rw [h, List.length_map])
    simp [hlen, htypes, bail]

/-- What `execute_func` does where it does not fail. -/
theorem executeFunc_eq_ok {func : Nat} {params : List Val} {s s' : Session T} {u : Unit} :
    executeFunc env func params s = .ok u s' ↔
      ∃ wasmFunc inst m, s.machine.store.funcs[func]? = some (.wasm wasmFunc) ∧
        s.inst = some inst ∧ (env.funcType wasmFunc.ty).params = params.map (·.ty) ∧
        prepareFunc env wasmFunc (env.funcType wasmFunc.ty).results.length (params.map (·.bits))
          s.machine = .ok () m ∧
        { s with
          machine := m
          executor := .live
          invokedFuncIndex := (wasmFunc.body + inst.importFuncLen) :: s.invokedFuncIndex } = s' := by
  cases hentity : s.machine.store.funcs[func]? with
  | none => simp [executeFunc, bind_eq_ok, hentity]
  | some entity =>
    cases entity with
    | host entity =>
      simp [executeFunc, bind_eq_ok, hentity, bail, verifyInputs_eq_ok]
    | wasm wasmFunc =>
      simp [executeFunc, bind_eq_ok, hentity, onMachine_eq_ok, getImportFuncLen_eq_ok,
        verifyInputs_eq_ok, FuncEntity.tyDedup]
      constructor
      · rintro ⟨htypes, _, m, hprepare, inst, hinst, rfl⟩
        exact ⟨inst, hinst, htypes, m, hprepare, rfl⟩
      · rintro ⟨inst, hinst, htypes, m, hprepare, rfl⟩
        exact ⟨htypes, (), m, hprepare, inst, hinst, rfl⟩

/-- The frame of a function that is started from outside. -/
def rootFrame (wasmFunc : WasmFuncEntity) (offsets : StackOffsets) : CallFrame where
  func := wasmFunc.body
  instrPtr := ⟨wasmFunc.body, 0⟩
  offsets := offsets
  results := ⟨0⟩

/-- What `prepareFunc` does where it does not fail. -/
theorem prepareFunc_eq_ok {wasmFunc : WasmFuncEntity} {lenResults : Nat}
    {params : List UntypedVal} {m m' : Machine T} {u : Unit} :
    prepareFunc env wasmFunc lenResults params m = .ok u m' ↔
      ∃ reserved allocated offsets values calls inst cache frame,
        m.stack.values.extendBy lenResults = .ok reserved ∧
        reserved.allocCallFrame (env.codeMap wasmFunc.body) = .ok (allocated, offsets) ∧
        allocated.initParams offsets params = some values ∧
        m.stack.calls.push (rootFrame wasmFunc offsets) (some wasmFunc.inst) = .ok calls ∧
        calls.instance_ = some inst ∧ CachedInstance.load m.store inst = some cache ∧
        calls.peek = some frame ∧
        { m with sp := frame.offsets, ip := frame.instrPtr, cache, stack := ⟨values, calls⟩ } =
          m' := by
  simp [prepareFunc, setValues_apply, pushFrame_eq_ok, bind_eq_ok, updateCache, initCallFrame,
    rootFrame]

/-- A started function gets a frame on top of the ones there are. -/
lemma prepareFunc_skeleton {wasmFunc : WasmFuncEntity} {lenResults : Nat}
    {params : List UntypedVal} {m m' : Machine T} {u : Unit}
    (h : prepareFunc env wasmFunc lenResults params m = .ok u m') :
    skeleton m' = (wasmFunc.body :: funcs m, m.stack.calls.recursionLimit) ∧
      m.stack.calls.frames.length ≠ m.stack.calls.recursionLimit := by
  obtain ⟨reserved, allocated, offsets, values, calls, inst, cache, frame, -, -, -, hpush, -, -, -,
    rfl⟩ := prepareFunc_eq_ok.mp h
  obtain ⟨hroom, hlimit, changed, hframes⟩ := CallStack.push_eq_ok hpush
  refine ⟨?_, hroom⟩
  simp [skeleton, funcs, CallStack.funcs, hframes, hlimit, rootFrame]

end Debugger

end MotokoDebugger
