import MotokoDebugger.Executor.Effects

/-!
# Return instructions

The seventeen return instructions do the same three things: they read values, write them to the
results of the caller and pop the frame. A conditional one does so where its register is not zero.

* `returnImpl_eq_ok`: what popping the frame does.
* `executeReturn_eq_ok`: a return instruction that returns is `returnedValues`, then `finishReturn`.
* `executeReturn_skip`: one that does not return is `skipReturn`.
* `popsFrame_executeReturn`: the call stack after a return.
-/

namespace MotokoDebugger

namespace Executor

open StateExcept

variable {T : Type} {α : Type}

/-! ## Returns -/

/-- A return that is taken: it pops a frame, and breaks the loop at the last one. -/
structure PopsFrame (m : Machine T) (flow : ControlFlow) (m' : Machine T) : Prop where
  frames : m.stack.calls.frames.tail = m'.stack.calls.frames
  running : m.stack.calls.frames ≠ []
  limit : m'.stack.calls.recursionLimit = m.stack.calls.recursionLimit
  flow : flow = .break_ ↔ m'.stack.calls.frames = []

lemma PopsFrame.of_calls_eq {m₀ m m' : Machine T} {flow : ControlFlow}
    (hcalls : m.stack.calls = m₀.stack.calls) (h : PopsFrame m flow m') :
    PopsFrame m₀ flow m' := by
  obtain ⟨h1, h2, h3, h4⟩ := h
  rw [hcalls] at h1 h2 h3
  exact ⟨h1, h2, h3, h4⟩

/-- The cached instance after a return: reloaded where the frame had changed the instance. -/
def cacheAfterReturn (m : Machine T) (popped : Option Nat) (calls : CallStack) :
    Option CachedInstance :=
  match popped.bind fun _ => calls.instance_ with
  | some inst => CachedInstance.load m.store inst
  | none => some m.cache

/-- Where the executor goes on after a return: at the caller, or nowhere. -/
def resumeCaller (m : Machine T) : ControlFlow × Machine T :=
  match m.stack.calls.peek with
  | some caller => (.continue_, { m with sp := caller.offsets, ip := caller.instrPtr })
  | none => (.break_, m)

/-- What `return_impl` does where it does not panic. -/
theorem returnImpl_eq_ok {m m' : Machine T} {flow : ControlFlow} :
    returnImpl m = .ok flow m' ↔
      ∃ returned popped calls cache, m.stack.calls.pop = some (returned, popped, calls) ∧
        returned.offsets.frame ≤ m.stack.values.values.length ∧
        cacheAfterReturn m popped calls = some cache ∧
        resumeCaller { m with
          cache, stack := ⟨m.stack.values.truncate returned.offsets.frame, calls⟩ } =
          (flow, m') := by
  rcases hpop : m.stack.calls.pop with _ | ⟨returned, popped, calls⟩
  · simp [returnImpl, bind_eq_ok, hpop]
  by_cases hlen : m.stack.values.values.length < returned.offsets.frame
  · have : ¬ returned.offsets.frame ≤ m.stack.values.values.length := by omega
    simp [returnImpl, bind_eq_ok, hpop, hlen, this, modifyCalls]
  rw [Nat.not_lt] at hlen
  have hlen' : ¬ m.stack.values.values.length < returned.offsets.frame := by omega
  rcases hinst : popped.bind fun _ => calls.instance_ with _ | inst
  · cases hpeek : calls.peek <;>
      simp [returnImpl, bind_eq_ok, map_eq_ok, hpop, hlen, hlen', modifyCalls, setValues, cacheAfterReturn,
        hinst, hpeek, resumeCaller, initCallFrame]
  · cases hcache : CachedInstance.load m.store inst <;> cases hpeek : calls.peek <;>
      simp [returnImpl, bind_eq_ok, map_eq_ok, hpop, hlen, hlen', modifyCalls, setValues, cacheAfterReturn,
        hinst, hpeek, resumeCaller, initCallFrame, updateCache, hcache]

lemma resumeCaller_stack (m : Machine T) : (resumeCaller m).2.stack = m.stack := by
  unfold resumeCaller
  split <;> rfl

lemma resumeCaller_flow (m : Machine T) :
    (resumeCaller m).1 = .break_ ↔ m.stack.calls.frames = [] := by
  unfold resumeCaller CallStack.peek
  cases m.stack.calls.frames <;> simp

lemma popsFrame_returnImpl : Returns PopsFrame (returnImpl : ExecM T ControlFlow) := by
  intro m flow m' h
  obtain ⟨returned, popped, calls, cache, hpop, -, -, hresume⟩ := returnImpl_eq_ok.mp h
  obtain ⟨hframes, hlimit, -, -⟩ := CallStack.pop_eq_some hpop
  have hstack := congrArg (fun r => r.2.stack.calls) hresume
  have hflow := congrArg (fun r => r.1) hresume
  simp only [resumeCaller_stack] at hstack hflow
  refine ⟨?_, ?_, ?_, ?_⟩
  · rw [hframes, ← hstack, List.tail_cons]
  · rw [hframes]
    exact List.cons_ne_nil _ _
  · rw [← hstack, hlimit]
  · rw [← hflow, resumeCaller_flow, ← hstack]

/-! ## The parts of a return instruction -/

/-- The values of a register list that follows some registers. -/
def listedValues (env : Engine T) (ip : InstructionPtr) (values : List Reg) :
    LocalM T (List UntypedVal) := do
  let (regs, _) ← registerListAt env ip
  (values ++ regs).mapM getRegister

/-- The values a return instruction hands over. Those with a register list move the instruction
pointer onto it. -/
def returnedValues (env : Engine T) (op : Op) : LocalM T (List UntypedVal) :=
  match op with
  | .returnReg value | .returnNezReg _ value => [value].mapM getRegister
  | .returnReg2 value0 value1 | .returnNezReg2 _ value0 value1 => [value0, value1].mapM getRegister
  | .returnReg3 value0 value1 value2 => [value0, value1, value2].mapM getRegister
  | .returnImm32 value | .returnNezImm32 _ value => pure [.ofI32 value]
  | .returnI64Imm32 value | .returnNezI64Imm32 _ value => pure [value.toI64]
  | .returnF64Imm32 value | .returnNezF64Imm32 _ value => pure [env.float.f64OfConst32 value]
  | .returnSpan values | .returnNezSpan _ values => do (← unwrap values.iter).mapM getRegister
  | .returnMany value0 value1 value2 => do
    nextInstr
    listedValues env (← get).ip [value0, value1, value2]
  | .returnNezMany _ value0 value1 => do
    nextInstr
    listedValues env (← get).ip [value0, value1]
  | _ => pure []

/-- The result registers of `len` values. The forms with a fixed number of two or three values and
the span form check that the registers exist. -/
def resultRegisters (op : Op) (results : RegSpan) (len : Nat) : Option (List Reg) :=
  match op with
  | .returnReg2 .. | .returnNezReg2 .. | .returnReg3 .. | .returnSpan _ | .returnNezSpan .. =>
    results.iter len
  | _ => some ((List.range len).map results.head.nextN)

/-- The end of a return: writes the values to the results of the caller and pops the frame. -/
def finishReturn (op : Op) (values : List UntypedVal) : ExecM T ControlFlow := do
  let (cells, results) ← returnCallerResults
  let results ← unwrap (resultRegisters op results values.length)
  setResults cells results values
  returnImpl

/-- A conditional return that is not taken. -/
def skipReturn (env : Engine T) (op : Op) : LocalM T Unit :=
  match op with
  | .returnNezMany condition _ _ => do
    let _ ← getRegister condition
    nextInstr
    let ip ← skipRegisterList env (← get).ip
    modify fun s => { s with ip }
  | op => do
    let _ ← op.returnCondition.toList.mapM getRegister
    nextInstr

/-- Does a return instruction return? A conditional one does where its register is not zero. -/
def returnsNow (op : Op) (l : Local T) : Bool :=
  match op.returnCondition with
  | some condition => (l.read condition).any UntypedVal.toBool
  | none => op.isReturn

/-! ## A return instruction is its parts -/

lemma stepLocal_nextInstr (m : Machine T) :
    stepLocal nextInstr m = .ok () { m with ip := m.ip.add 1 } :=
  stepLocal_of_ip rfl

section Parts

variable {env : Engine T} {op : Op} {m m' : Machine T} {flow : ControlFlow}

lemma returnCallerResults_eq_ok {r : ResultCells × RegSpan} :
    returnCallerResults m = .ok r m' ↔ ResultCells.ofCalls m.stack.calls = some r ∧ m = m' := by
  simp [returnCallerResults, bind_eq_ok, and_comm]

lemma setResults_eq_ok {cells : ResultCells} {regs : List Reg} {values : List UntypedVal}
    {u : Unit} :
    setResults cells regs values m = .ok u m' ↔
      ∃ written, cells.write (regs.zip values) m.stack.values.values = some written ∧
        m.withCells written = m' := by
  simp [setResults, setValues, bind_eq_ok, Machine.withCells]

/-- What the end of a return does where it does not fail. -/
lemma finishReturn_eq_ok {values : List UntypedVal} :
    finishReturn op values m = .ok flow m' ↔
      ∃ cells results regs written,
        ResultCells.ofCalls m.stack.calls = some (cells, results) ∧
        resultRegisters op results values.length = some regs ∧
        cells.write (regs.zip values) m.stack.values.values = some written ∧
        returnImpl (m.withCells written) = .ok flow m' := by
  simp [finishReturn, returnCallerResults_eq_ok, setResults_eq_ok, bind_eq_ok]

/-- A return of values that are read without moving the instruction pointer. -/
lemma stepLocal_finishReturn {xs : LocalM T (List UntypedVal)} (hxs : ReadOnly xs) :
    (∃ values m₁, stepLocal xs m = .ok values m₁ ∧ finishReturn op values m₁ = .ok flow m') ↔
      ∃ values, xs m.toLocal = .ok values m.toLocal ∧ finishReturn op values m = .ok flow m' := by
  simp [stepLocal_eq_ok_of_readOnly hxs]

lemma executeReturnValue_eq_ok {x : LocalM T UntypedVal} (hx : ReadOnly x)
    (hop : ∀ results, resultRegisters op results 1 = some [results.head]) :
    executeReturnValue x m = .ok flow m' ↔
      ∃ values m₁, stepLocal ((fun value => [value]) <$> x) m = .ok values m₁ ∧
        finishReturn op values m₁ = .ok flow m' := by
  rw [stepLocal_finishReturn (hx.map _)]
  simp only [executeReturnValue, bind_eq_ok, returnCallerResults_eq_ok, setResults_eq_ok,
    stepLocal_eq_ok_of_readOnly hx, map_eq_ok, finishReturn_eq_ok]
  constructor
  · rintro ⟨⟨cells, results⟩, _, ⟨hcells, rfl⟩, value, _, ⟨hvalue, rfl⟩, _, _,
      ⟨written, hwrite, rfl⟩, hret⟩
    exact ⟨[value], ⟨value, rfl, hvalue⟩, cells, results, _, written, hcells, hop results, hwrite,
      hret⟩
  · rintro ⟨_, ⟨value, rfl, hvalue⟩, cells, results, regs, written, hcells, hregs, hwrite, hret⟩
    obtain rfl : [results.head] = regs := by
      simpa [hop] using hregs
    exact ⟨(cells, results), m, ⟨hcells, rfl⟩, value, m, ⟨hvalue, rfl⟩, (), _,
      ⟨written, hwrite, rfl⟩, hret⟩

lemma executeReturnRegs_eq_ok {regs : List Reg}
    (hop : ∀ results, resultRegisters op results regs.length = results.iter regs.length) :
    executeReturnRegs regs m = .ok flow m' ↔
      ∃ values m₁, stepLocal (regs.mapM getRegister) m = .ok values m₁ ∧
        finishReturn op values m₁ = .ok flow m' := by
  have hread : ReadOnly (regs.mapM getRegister : LocalM T _) :=
    ReadOnly.mapM readOnly_getRegister regs
  rw [stepLocal_finishReturn hread]
  simp only [executeReturnRegs, bind_eq_ok, returnCallerResults_eq_ok, setResults_eq_ok,
    stepLocal_eq_ok_of_readOnly hread, finishReturn_eq_ok, unwrap_eq_ok]
  constructor
  · rintro ⟨⟨cells, results⟩, _, ⟨hcells, rfl⟩, resultRegs, _, ⟨hregs, rfl⟩, values, _,
      ⟨hvalues, rfl⟩, _, _, ⟨written, hwrite, rfl⟩, hret⟩
    refine ⟨values, hvalues, cells, results, resultRegs, written, hcells, ?_, hwrite, hret⟩
    rw [mapM_length hvalues, hop, hregs]
  · rintro ⟨values, hvalues, cells, results, resultRegs, written, hcells, hregs, hwrite, hret⟩
    rw [mapM_length hvalues, hop] at hregs
    exact ⟨(cells, results), m, ⟨hcells, rfl⟩, resultRegs, m, ⟨hregs, rfl⟩, values, m,
      ⟨hvalues, rfl⟩, (), _, ⟨written, hwrite, rfl⟩, hret⟩

lemma readOnly_listedValues (env : Engine T) (ip : InstructionPtr) (values : List Reg) :
    ReadOnly (listedValues env ip values) :=
  (readOnly_registerListAt env ip).bind fun _ => ReadOnly.mapM readOnly_getRegister _

/-- What `copy_many_return_values` does where it does not fail. -/
lemma copyManyReturnValues_eq_ok {ip : InstructionPtr} {regs : List Reg} {u : Unit} :
    copyManyReturnValues env ip regs m = .ok u m' ↔
      ∃ values cells results written,
        listedValues env ip regs m.toLocal = .ok values m.toLocal ∧
        ResultCells.ofCalls m.stack.calls = some (cells, results) ∧
        cells.write (((List.range values.length).map results.head.nextN).zip values)
          m.stack.values.values = some written ∧
        m.withCells written = m' := by
  have hlist := readOnly_registerListAt env ip
  have hread : ∀ regs : List Reg, ReadOnly (regs.mapM getRegister : LocalM T _) :=
    ReadOnly.mapM readOnly_getRegister
  simp only [copyManyReturnValues, listedValues, bind_eq_ok, returnCallerResults_eq_ok,
    setResults_eq_ok, stepLocal_eq_ok_of_readOnly hlist, stepLocal_eq_ok_of_readOnly (hread _)]
  constructor
  · rintro ⟨⟨cells, results⟩, _, ⟨hcells, rfl⟩, ⟨listed, ip'⟩, _, ⟨hlisted, rfl⟩, values, _,
      ⟨hvalues, rfl⟩, written, hwrite, rfl⟩
    rw [← mapM_length hvalues] at hwrite
    exact ⟨values, cells, results, written, ⟨(listed, ip'), _, hlisted, hvalues⟩, hcells, hwrite,
      rfl⟩
  · rintro ⟨values, cells, results, written, ⟨⟨listed, ip'⟩, l, hlisted, hvalues⟩, hcells, hwrite,
      rfl⟩
    obtain rfl := hlist.of_ok hlisted
    rw [mapM_length hvalues] at hwrite
    exact ⟨(cells, results), m, ⟨hcells, rfl⟩, (listed, ip'), m, ⟨hlisted, rfl⟩, values, m,
      ⟨hvalues, rfl⟩, written, hwrite, rfl⟩

/-- The values of the register list behind the instruction pointer, which moves onto it. -/
lemma stepLocal_listedValues {regs : List Reg} {values : List UntypedVal} :
    stepLocal (do nextInstr; listedValues env (← get).ip regs) m = .ok values m' ↔
      listedValues env (m.ip.add 1) regs { m.toLocal with ip := m.ip.add 1 } =
          .ok values { m.toLocal with ip := m.ip.add 1 } ∧
        { m with ip := m.ip.add 1 } = m' := by
  have hlisted := readOnly_listedValues env (m.ip.add 1) regs
  rw [stepLocal_eq_ok]
  constructor
  · rintro ⟨l, h, rfl⟩
    have hl := hlisted.of_ok (show listedValues env (m.ip.add 1) regs
      { m.toLocal with ip := m.ip.add 1 } = .ok values l from h)
    subst hl
    exact ⟨h, (m.withLocal_ip _).symm⟩
  · rintro ⟨h, rfl⟩
    exact ⟨_, h, m.withLocal_ip _⟩

/-- A return of values in a register list: the instruction pointer is on the list before anything
else happens. -/
lemma returnMany_eq_ok {regs : List Reg}
    (hop : ∀ results len,
      resultRegisters op results len = some ((List.range len).map results.head.nextN)) :
    (do
      stepLocal nextInstr
      copyManyReturnValues env (← get).ip regs
      returnImpl : ExecM T ControlFlow) m = .ok flow m' ↔
    ∃ values m₁,
      stepLocal (do nextInstr; listedValues env (← get).ip regs) m = .ok values m₁ ∧
        finishReturn op values m₁ = .ok flow m' := by
  rw [bind_ok (stepLocal_nextInstr m), get_bind]
  simp only [bind_eq_ok, copyManyReturnValues_eq_ok, stepLocal_listedValues, finishReturn_eq_ok,
    hop]
  constructor
  · rintro ⟨_, _, ⟨values, cells, results, written, hvalues, hcells, hwrite, rfl⟩, hret⟩
    exact ⟨values, _, ⟨hvalues, rfl⟩, cells, results, _, written, hcells, rfl, hwrite, hret⟩
  · rintro ⟨values, _, ⟨hvalues, rfl⟩, cells, results, _, written, hcells, hregs, hwrite, hret⟩
    obtain rfl := Option.some.inj hregs
    exact ⟨(), _, ⟨values, cells, results, written, hvalues, hcells, hwrite, rfl⟩, hret⟩

/-- A conditional return that is taken. -/
lemma executeReturnNezImpl_eq_ok {condition : Reg} {f : ExecM T ControlFlow}
    (hnow : (m.toLocal.read condition).any UntypedVal.toBool = true) :
    executeReturnNezImpl condition f m = .ok flow m' ↔ f m = .ok flow m' := by
  obtain ⟨value, hvalue, htrue⟩ := Option.any_eq_true _ _ |>.mp hnow
  have hget : stepLocal (getRegister condition) m = .ok value m :=
    (stepLocal_eq_ok_of_readOnly (readOnly_getRegister condition)).mpr
      ⟨getRegister_eq_ok.mpr ⟨hvalue, rfl⟩, rfl⟩
  simp only [executeReturnNezImpl, bind_ok hget, htrue, if_true]

lemma executeReturnNezMany_eq_ok {condition : Reg} {regs : List Reg}
    (hnow : (m.toLocal.read condition).any UntypedVal.toBool = true) :
    executeReturnNezMany env condition regs m = .ok flow m' ↔
      (do
        stepLocal nextInstr
        copyManyReturnValues env (← get).ip regs
        returnImpl : ExecM T ControlFlow) m = .ok flow m' := by
  obtain ⟨value, hvalue, htrue⟩ := Option.any_eq_true _ _ |>.mp hnow
  have hget : stepLocal (getRegister condition) m = .ok value m :=
    (stepLocal_eq_ok_of_readOnly (readOnly_getRegister condition)).mpr
      ⟨getRegister_eq_ok.mpr ⟨hvalue, rfl⟩, rfl⟩
  simp only [executeReturnNezMany, bind_ok hget, htrue, if_true]

lemma executeReturnNezImpl_skip {condition : Reg} {f : ExecM T ControlFlow}
    (hnow : (m.toLocal.read condition).any UntypedVal.toBool = false) :
    executeReturnNezImpl condition f m = .ok flow m' ↔
      stepLocal (do let _ ← [condition].mapM getRegister; nextInstr) m = .ok () m' ∧
        flow = .continue_ := by
  cases hread : m.toLocal.read condition with
  | none =>
    simp [executeReturnNezImpl, bind_eq_ok, stepLocal_eq_ok, getRegister_eq_ok, hread]
  | some value =>
    have hfalse : value.toBool = false := by
      simpa [hread] using hnow
    have hget : stepLocal (getRegister condition) m = .ok value m :=
      (stepLocal_eq_ok_of_readOnly (readOnly_getRegister condition)).mpr
        ⟨getRegister_eq_ok.mpr ⟨hread, rfl⟩, rfl⟩
    have hskip : stepLocal (do let _ ← [condition].mapM getRegister; nextInstr) m =
        .ok () { m with ip := m.ip.add 1 } := by
      refine stepLocal_of_ip ?_
      simp [bind_eq_ok, getRegister_eq_ok, hread, nextInstr, nextInstrAt_apply]
    rw [hskip, executeReturnNezImpl, bind_ok hget, hfalse, if_neg Bool.false_ne_true,
      bind_ok (stepLocal_nextInstr m)]
    simp [and_comm, eq_comm]

lemma executeReturnNezMany_skip {condition : Reg} {regs : List Reg}
    (hnow : (m.toLocal.read condition).any UntypedVal.toBool = false) :
    executeReturnNezMany env condition regs m = .ok flow m' ↔
      stepLocal (do
        let _ ← getRegister condition
        nextInstr
        let ip ← skipRegisterList env (← get).ip
        modify fun s => { s with ip }) m = .ok () m' ∧ flow = .continue_ := by
  cases hread : m.toLocal.read condition with
  | none =>
    simp [executeReturnNezMany, bind_eq_ok, stepLocal_eq_ok, getRegister_eq_ok, hread]
  | some value =>
    have hfalse : value.toBool = false := by
      simpa [hread] using hnow
    have hget : stepLocal (getRegister condition) m = .ok value m :=
      (stepLocal_eq_ok_of_readOnly (readOnly_getRegister condition)).mpr
        ⟨getRegister_eq_ok.mpr ⟨hread, rfl⟩, rfl⟩
    rw [executeReturnNezMany, bind_ok hget, bind_ok (stepLocal_nextInstr m), hfalse,
      if_neg Bool.false_ne_true]
    simp [bind_eq_ok, map_eq_ok, stepLocal_eq_ok, getRegister_eq_ok, hread, skipRegisterList,
      nextInstr, nextInstrAt_apply]
    exact ⟨fun ⟨h, h'⟩ => ⟨h', h.symm⟩, fun ⟨h', h⟩ => ⟨h.symm, h'⟩⟩

lemma executeReturnSpan_eq_ok {span : BoundedRegSpan}
    (hop : ∀ results len, resultRegisters op results len = results.iter len) :
    executeReturnSpan span m = .ok flow m' ↔
      ∃ values m₁, stepLocal (do (← unwrap span.iter).mapM getRegister) m = .ok values m₁ ∧
        finishReturn op values m₁ = .ok flow m' := by
  have hread : ∀ regs : List Reg, ReadOnly (regs.mapM getRegister : LocalM T _) :=
    ReadOnly.mapM readOnly_getRegister
  cases hregs : span.iter with
  | none => simp [executeReturnSpan, bind_eq_ok, hregs, stepLocal_eq_ok]
  | some regs =>
    have hspan : executeReturnSpan span m = executeReturnRegs regs m := by
      rw [executeReturnSpan, hregs]
      rfl
    rw [hspan]
    exact executeReturnRegs_eq_ok fun results => hop results _

/-- Returning no values is `return_impl`. -/
lemma returnImpl_eq_finishReturn
    (hop : ∀ results, resultRegisters op results 0 = some []) :
    returnImpl m = .ok flow m' ↔
      ∃ values m₁, stepLocal (pure [] : LocalM T (List UntypedVal)) m = .ok values m₁ ∧
        finishReturn op values m₁ = .ok flow m' := by
  rw [stepLocal_finishReturn (ReadOnly.pure _)]
  constructor
  · intro hret
    obtain ⟨returned, popped, calls, cache, hpop, -, -, -⟩ := returnImpl_eq_ok.mp hret
    obtain ⟨hframes, -, -, -⟩ := CallStack.pop_eq_some hpop
    have hcells : ∃ cells results,
        ResultCells.ofCalls m.stack.calls = some (cells, results) := by
      unfold ResultCells.ofCalls
      rw [hframes]
      cases calls.frames <;> simp
    obtain ⟨cells, results, hcells⟩ := hcells
    exact ⟨[], rfl, finishReturn_eq_ok.mpr
      ⟨cells, results, [], m.stack.values.values, hcells, hop results, rfl, hret⟩⟩
  · rintro ⟨values, hvalues, hfinish⟩
    obtain rfl : [] = values := by
      simpa using hvalues
    obtain ⟨cells, results, regs, written, -, hregs, hwrite, hret⟩ := finishReturn_eq_ok.mp hfinish
    obtain rfl : [] = regs := by
      simpa [hop] using hregs
    obtain rfl : m.stack.values.values = written := by
      simpa [ResultCells.write] using hwrite
    exact hret

end Parts

/-- A return instruction that returns reads its values, writes them to the results of the caller
and pops the frame. -/
theorem executeReturn_eq_ok {env : Engine T} {op : Op} {m m' : Machine T} {flow : ControlFlow}
    (hop : op.isReturn) (hnow : returnsNow op m.toLocal = true) :
    executeReturn env op m = .ok flow m' ↔
      ∃ values m₁, stepLocal (returnedValues env op) m = .ok values m₁ ∧
        finishReturn op values m₁ = .ok flow m' := by
  have hsingle : ∀ reg : Reg, [reg].mapM getRegister =
      ((fun value => [value]) <$> getRegister reg : LocalM T _) := fun reg => by simp
  have hpure : ∀ value : UntypedVal, ReadOnly (pure value : LocalM T _) := fun _ => ReadOnly.pure _
  have hone : ∀ results : RegSpan, (List.range 1).map results.head.nextN = [results.head] :=
    fun _ => by simp
  cases op <;> try contradiction
  case return_ => exact returnImpl_eq_finishReturn fun _ => rfl
  case returnReg value =>
    simp only [returnedValues, hsingle]
    exact executeReturnValue_eq_ok (readOnly_getRegister value) fun _ => congrArg some (hone _)
  case returnReg2 value0 value1 => exact executeReturnRegs_eq_ok fun _ => rfl
  case returnReg3 value0 value1 value2 => exact executeReturnRegs_eq_ok fun _ => rfl
  case returnImm32 value =>
    exact executeReturnValue_eq_ok (hpure _) fun _ => congrArg some (hone _)
  case returnI64Imm32 value =>
    exact executeReturnValue_eq_ok (hpure _) fun _ => congrArg some (hone _)
  case returnF64Imm32 value =>
    exact executeReturnValue_eq_ok (hpure _) fun _ => congrArg some (hone _)
  case returnSpan values => exact executeReturnSpan_eq_ok fun _ _ => rfl
  case returnMany value0 value1 value2 => exact returnMany_eq_ok fun _ _ => rfl
  -- the conditional forms run the unconditional ones
  case returnNez condition =>
    exact (executeReturnNezImpl_eq_ok hnow).trans (returnImpl_eq_finishReturn fun _ => rfl)
  case returnNezReg condition value =>
    simp only [returnedValues, hsingle]
    exact (executeReturnNezImpl_eq_ok hnow).trans
      (executeReturnValue_eq_ok (readOnly_getRegister value) fun _ => congrArg some (hone _))
  case returnNezReg2 condition value0 value1 =>
    exact (executeReturnNezImpl_eq_ok hnow).trans (executeReturnRegs_eq_ok fun _ => rfl)
  case returnNezImm32 condition value =>
    exact (executeReturnNezImpl_eq_ok hnow).trans
      (executeReturnValue_eq_ok (hpure _) fun _ => congrArg some (hone _))
  case returnNezI64Imm32 condition value =>
    exact (executeReturnNezImpl_eq_ok hnow).trans
      (executeReturnValue_eq_ok (hpure _) fun _ => congrArg some (hone _))
  case returnNezF64Imm32 condition value =>
    exact (executeReturnNezImpl_eq_ok hnow).trans
      (executeReturnValue_eq_ok (hpure _) fun _ => congrArg some (hone _))
  case returnNezSpan condition values =>
    exact (executeReturnNezImpl_eq_ok hnow).trans (executeReturnSpan_eq_ok fun _ _ => rfl)
  case returnNezMany condition value0 value1 =>
    exact (executeReturnNezMany_eq_ok hnow).trans (returnMany_eq_ok fun _ _ => rfl)

/-- A conditional return that is not taken goes on behind its words. -/
theorem executeReturn_skip {env : Engine T} {op : Op} {m m' : Machine T} {flow : ControlFlow}
    (hop : op.isReturn) (hnow : returnsNow op m.toLocal = false) :
    executeReturn env op m = .ok flow m' ↔
      stepLocal (skipReturn env op) m = .ok () m' ∧ flow = .continue_ := by
  cases op <;> try contradiction
  case returnNezMany condition value0 value1 => exact executeReturnNezMany_skip hnow
  all_goals exact executeReturnNezImpl_skip hnow

/-! ## The call stack after a return -/

lemma keepsCalls_returnedValues {env : Engine T} {op : Op} {m m' : Machine T}
    {values : List UntypedVal} (h : stepLocal (returnedValues env op) m = .ok values m') :
    m'.stack.calls = m.stack.calls :=
  (keepsCalls_stepLocal _).of_ok h

lemma popsFrame_finishReturn (op : Op) (values : List UntypedVal) :
    Returns PopsFrame (finishReturn op values : ExecM T ControlFlow) := by
  intro m flow m' h
  obtain ⟨cells, results, regs, written, -, -, -, hret⟩ := finishReturn_eq_ok.mp h
  exact PopsFrame.of_calls_eq (m := m.withCells written) rfl (popsFrame_returnImpl _ _ _ hret)

/-- A return that is taken pops a frame. -/
theorem popsFrame_executeReturn {env : Engine T} {op : Op} {m m' : Machine T}
    {flow : ControlFlow} (hop : op.isReturn) (hnow : returnsNow op m.toLocal = true)
    (h : executeReturn env op m = .ok flow m') : PopsFrame m flow m' := by
  obtain ⟨values, m₁, hvalues, hfinish⟩ := (executeReturn_eq_ok hop hnow).mp h
  exact (popsFrame_finishReturn _ _ _ _ _ hfinish).of_calls_eq (keepsCalls_returnedValues hvalues)

/-- A return that is not taken leaves the call stack as it is and goes on. -/
theorem executeReturn_skip_calls {env : Engine T} {op : Op} {m m' : Machine T}
    {flow : ControlFlow} (hop : op.isReturn) (hnow : returnsNow op m.toLocal = false)
    (h : executeReturn env op m = .ok flow m') :
    m'.stack.calls = m.stack.calls ∧ flow = .continue_ := by
  obtain ⟨hskip, hflow⟩ := (executeReturn_skip hop hnow).mp h
  exact ⟨(keepsCalls_stepLocal _).of_ok hskip, hflow⟩

/-! ## Returns raise no error of the source -/

section NoFault

variable {env : Engine T}

lemma noFault_returnImpl : NoFault Stop.IsFault (returnImpl : ExecM T ControlFlow) := by
  have hresume : ∀ calls : CallStack, NoFault Stop.IsFault
      (match calls.peek with
        | some caller => do
          initCallFrame caller
          return ControlFlow.continue_
        | none => return ControlFlow.break_ : ExecM T ControlFlow) := by
    intro calls
    split
    · exact (NoFault.modify _).bind fun _ => NoFault.pure _
    · exact NoFault.pure _
  refine NoFault.get.bind fun m => (noFault_unwrap _).bind fun ⟨returned, popped, calls⟩ => ?_
  refine (NoFault.modify _).bind fun _ => NoFault.get.bind fun m₁ => ?_
  dsimp only
  split
  · exact NoFault.throw_bind not_isFault_panic
  · refine (NoFault.modify _).bind fun _ => ?_
    split
    · exact (noFault_updateCache _).bind fun _ => hresume calls
    · exact hresume calls

lemma noFault_returnCallerResults :
    NoFault Stop.IsFault (returnCallerResults : ExecM T (ResultCells × RegSpan)) :=
  NoFault.get.bind fun _ => noFault_unwrap _

lemma noFault_setResults (cells : ResultCells) (regs : List Reg) (values : List UntypedVal) :
    NoFault Stop.IsFault (setResults cells regs values : ExecM T Unit) :=
  NoFault.get.bind fun _ => (noFault_assume _).bind fun _ => NoFault.modify _

lemma noFault_executeReturnValue {value : LocalM T UntypedVal}
    (hvalue : NoFault Stop.IsFault value) :
    NoFault Stop.IsFault (executeReturnValue value) := by
  refine noFault_returnCallerResults.bind fun cells => ?_
  refine (noFault_stepLocal hvalue).bind fun value => ?_
  exact (noFault_setResults _ _ _).bind fun _ => noFault_returnImpl

lemma noFault_executeReturnRegs (regs : List Reg) :
    NoFault Stop.IsFault (executeReturnRegs regs : ExecM T ControlFlow) := by
  refine noFault_returnCallerResults.bind fun cells => (noFault_unwrap _).bind fun results => ?_
  refine (noFault_stepLocal (NoFault.mapM noFault_getRegister _)).bind fun values => ?_
  exact (noFault_setResults _ _ _).bind fun _ => noFault_returnImpl

lemma noFault_executeReturnSpan (span : BoundedRegSpan) :
    NoFault Stop.IsFault (executeReturnSpan span : ExecM T ControlFlow) :=
  (noFault_unwrap _).bind noFault_executeReturnRegs

lemma noFault_copyManyReturnValues (ip : InstructionPtr) (values : List Reg) :
    NoFault Stop.IsFault (copyManyReturnValues env ip values) := by
  refine noFault_returnCallerResults.bind fun cells => ?_
  refine (noFault_stepLocal ((noFault_assume _).bind fun _ => NoFault.pure _)).bind fun regs => ?_
  refine (noFault_stepLocal (NoFault.mapM noFault_getRegister _)).bind fun values => ?_
  exact noFault_setResults _ _ _

lemma noFault_executeReturnMany (values : List Reg) :
    NoFault Stop.IsFault (executeReturnMany env values) := by
  refine (noFault_stepLocal noFault_nextInstr).bind fun _ => NoFault.get.bind fun m => ?_
  exact (noFault_copyManyReturnValues _ _).bind fun _ => noFault_returnImpl

lemma noFault_executeReturnNezImpl (condition : Reg) {f : ExecM T ControlFlow}
    (hf : NoFault Stop.IsFault f) :
    NoFault Stop.IsFault (executeReturnNezImpl condition f) := by
  refine (noFault_stepLocal (noFault_getRegister _)).bind fun value => ?_
  split
  · exact hf
  · exact (noFault_stepLocal noFault_nextInstr).bind fun _ => NoFault.pure _

lemma noFault_executeReturnNezMany (condition : Reg) (values : List Reg) :
    NoFault Stop.IsFault (executeReturnNezMany env condition values) := by
  refine (noFault_stepLocal (noFault_getRegister _)).bind fun value => ?_
  refine (noFault_stepLocal noFault_nextInstr).bind fun _ => ?_
  split
  · refine NoFault.get.bind fun m => (noFault_copyManyReturnValues _ _).bind fun _ => ?_
    exact noFault_returnImpl
  · refine (noFault_stepLocal ?_).bind fun _ => NoFault.pure _
    refine NoFault.get.bind fun l => NoFault.bind ?_ fun ip => NoFault.modify _
    exact (noFault_assume _).bind fun _ => NoFault.pure _

/-- No return instruction raises an error of the source. -/
theorem noFault_executeReturn (op : Op) : NoFault Stop.IsFault (executeReturn env op) := by
  have hpure : ∀ value : UntypedVal,
      NoFault Stop.IsFault (executeReturnValue (pure value : LocalM T _)) :=
    fun _ => noFault_executeReturnValue (NoFault.pure _)
  have hreg : ∀ reg : Reg,
      NoFault Stop.IsFault (executeReturnValue (getRegister reg : LocalM T _)) :=
    fun reg => noFault_executeReturnValue (noFault_getRegister reg)
  unfold executeReturn
  split
  · exact noFault_returnImpl
  · exact hreg _
  · exact noFault_executeReturnRegs _
  · exact noFault_executeReturnRegs _
  · exact hpure _
  · exact hpure _
  · exact hpure _
  · exact noFault_executeReturnSpan _
  · exact noFault_executeReturnMany _
  · exact noFault_executeReturnNezImpl _ noFault_returnImpl
  · exact noFault_executeReturnNezImpl _ (hreg _)
  · exact noFault_executeReturnNezImpl _ (noFault_executeReturnRegs _)
  · exact noFault_executeReturnNezImpl _ (hpure _)
  · exact noFault_executeReturnNezImpl _ (hpure _)
  · exact noFault_executeReturnNezImpl _ (hpure _)
  · exact noFault_executeReturnNezImpl _ (noFault_executeReturnSpan _)
  · exact noFault_executeReturnNezMany _ _
  · exact NoFault.throw not_isFault_undefined

end NoFault

/-! ## A return under the debugger -/

/-- A return instruction under the debugger, once the call stack is empty. -/
lemma forwardReturnDbg_empty {x : ExecM T ControlFlow} {m : Machine T}
    (hempty : m.stack.calls.frames = []) :
    forwardReturnDbg x m = .ok { signal := .end_, isPopFrame := true } m := by
  rw [forwardReturnDbg, get_bind, hempty]
  rfl

/-- The report of a return instruction. -/
def returnReport (flow : ControlFlow) : InstrReport where
  signal := if flow = .break_ then .end_ else .next
  isPopFrame := true

/-- A return instruction under the debugger, while a frame is left. -/
lemma forwardReturnDbg_eq_ok {x : ExecM T ControlFlow} {m m' : Machine T} {report : InstrReport}
    (hframes : m.stack.calls.frames ≠ []) :
    forwardReturnDbg x m = .ok report m' ↔
      ∃ flow, x m = .ok flow m' ∧ returnReport flow = report := by
  have hne : m.stack.calls.frames.isEmpty = false := by
    simpa using hframes
  rw [forwardReturnDbg, get_bind, hne]
  cases hx : x m with
  | error stop m₁ => simp [bind_eq_ok, hx]
  | ok flow m₁ => cases flow <;> simp [bind_eq_ok, hx, returnReport, and_comm]

lemma forwardReturnDbg_eq_error {x : ExecM T ControlFlow} {m m' : Machine T} {stop : Stop} :
    forwardReturnDbg x m = .error stop m' ↔
      m.stack.calls.frames ≠ [] ∧ x m = .error stop m' := by
  by_cases hframes : m.stack.calls.frames = []
  · simp [forwardReturnDbg_empty hframes, hframes]
  · have hne : m.stack.calls.frames.isEmpty = false := by
      simpa using hframes
    rw [forwardReturnDbg, get_bind, hne]
    cases hx : x m with
    | error stop m₁ => simp [bind_eq_error, hx, hframes]
    | ok flow m₁ => cases flow <;> simp [bind_eq_error, hx]

end Executor

end MotokoDebugger
