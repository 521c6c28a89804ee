import MotokoDebugger.Debugger.Entry
import MotokoDebugger.Debugger.Mirror

/-!
# The list of invoked functions

`MainDebugger` keeps the indices of the functions on the call stack in a list of its own, which the
callbacks of the executor update.

* `Agrees`: the list has an entry for each frame of the call stack.
* `Tracks`: the steps whose callbacks follow what the step does to the call stack.
* `agrees_of_run`: a run of such steps keeps the agreement.
* `untaken_return_pops_entry`: a step that does not.
-/

namespace MotokoDebugger

namespace Debugger

open StateExcept Executor Runs

variable {T : Type}

/-- The indices that the frames of the call stack call for: functions that are not imported come
after the imported ones. -/
def frameIndices (s : Session T) (inst : InstanceWithName) : List Nat :=
  (funcs s.machine).map (· + inst.importFuncLen)

/-- The list of invoked functions agrees with the call stack. -/
def Agrees (s : Session T) : Prop :=
  ∀ inst, s.inst = some inst → s.invokedFuncIndex = frameIndices s inst

/-- A step that the debugger survives: it returns or raises an error of the source. -/
inductive Stepped (env : Engine T) (s s' : Session T) : Prop where
  | returned (sig : Signal) (h : executeStep env s = .ok sig s')
  | failed (error : Error) (h : executeStep env s = .error (.fault error) s')

/-- The calls whose callback does to the list what the call does to the call stack. A tail call
and a call of an imported function report nothing; the entry for an indirect call is read from the
table again after the call. -/
def TracksCall (importFuncLen : Nat) (m : Machine T) (site : CallSite) :
    RegSpan × Callee × Option (Nat × Nat) → Prop
  | (_, .compiled body inst, pulled) =>
    match site.results, inst, pulled with
    | none, _, _ => (funcs m).head? = some body
    | some _, none, _ => body < 2 ^ 31 ∧ body + importFuncLen < 2 ^ 32 - 1
    | some _, some _, none => False
    | some _, some inst, some (index, table) =>
      tableSlot m.store inst table (asU32 (clampI32 index)) = some (body + importFuncLen)
  | (_, .host .., pulled) => site.results.isSome ∧ pulled = none

/-- The states from which the callbacks of a step follow the call stack: a conditional return is
taken, and a call is one of `TracksCall`. -/
structure Tracks (env : Engine T) (s : Session T) : Prop where
  taken : ∀ instr, env.instrAt s.machine.ip = some instr → instr.op.isReturn →
    s.machine.stack.calls.frames ≠ [] → returnsNow instr.op s.machine.toLocal = true
  calls : ∀ instr inst site r, env.instrAt s.machine.ip = some instr → s.inst = some inst →
    instr.op.callSite = some site → resolved env site s.machine = some r →
    TracksCall inst.importFuncLen s.machine site r

/-! ## The effect of a step on the list -/

section Step

variable {env : Engine T} {s s' : Session T} {inst : InstanceWithName}

/-- The callback for an internal call gets the index of the function where the 32-bit arithmetic of
the report does not wrap. -/
lemma reportedIdx_internal (m : Machine T) (importFuncLen func : Nat) :
    reportedIdx m { callIdx := internalCallIdx importFuncLen func } =
        some (some (func + importFuncLen)) ↔
      func < 2 ^ 31 ∧ func + importFuncLen < 2 ^ 32 - 1 := by
  have hcast : ∀ x : Int, x.bmod (2 ^ 32) = -1 ↔ x % 2 ^ 32 = 2 ^ 32 - 1 := by
    intro x
    simp only [Int.bmod]
    split <;> omega
  have hu32 : ∀ x : Int, asU32 (x.bmod (2 ^ 32)) = (x % 2 ^ 32).toNat := by
    intro x
    simp only [asU32, Int.bmod]
    split <;> omega
  simp only [reportedIdx, internalCallIdx, hcast, hu32, clampI32]
  by_cases hfunc : func < 2 ^ 31
  · simp only [hfunc, if_true, true_and]
    split <;> simp only [Option.some.injEq, reduceCtorEq, false_iff] <;> omega
  · simp only [hfunc, if_false, false_and, iff_false]
    split
    · simp
    · simp only [Option.some.injEq]
      omega

/-- What one callback adds to a list. -/
lemma toList_append_eq_cons {idx : Option Nat} {l : List Nat} {i : Nat} :
    idx.toList ++ l = i :: l ↔ idx = some i := by
  cases idx with
  | none =>
    simp only [Option.toList_none, List.nil_append, reduceCtorEq, iff_false]
    intro h
    have := congrArg List.length h
    simp at this
  | some j => simp

lemma toList_append_eq_self {idx : Option Nat} {l : List Nat} :
    idx.toList ++ l = l ↔ idx = none := by
  cases idx with
  | none => simp
  | some j =>
    simp only [Option.toList_some, List.singleton_append, reduceCtorEq, iff_false]
    intro h
    have := congrArg List.length h
    simp at this

/-- A call leaves the list and the call stack in agreement iff `TracksCall` holds of it. -/
lemma tracksCall_iff {site : CallSite} {m m' : Machine T} {n : Nat}
    {pulled : Option (Nat × Nat)} {idx : Option Nat} (hexec : executeSite env site m = .ok pulled m')
    (hidx : reportedIdx m' (site.report n pulled) = some idx) :
    idx.toList ++ (funcs m).map (· + n) = (funcs m').map (· + n) ↔
      ∀ r, resolved env site m = some r → TracksCall n m site r := by
  obtain ⟨results, target, m₁, hresolve, hcall⟩ := executeSite_eq_ok.mp hexec
  have hresolved : resolved env site m = some (results, target, pulled) := by
    simp [resolved, hresolve]
  have hshape := resolveSite_shape hresolve
  have hfuncs := congrArg Prod.fst (executeSite_skeleton hresolve hcall)
  change funcs m' = _ at hfuncs
  simp only [hresolved, Option.some.injEq, forall_eq', hfuncs]
  obtain ⟨siteResults, hasParams, callTarget⟩ := site
  cases siteResults with
  | none =>
    -- a tail call reports nothing
    obtain rfl : none = idx := Option.some.inj hidx
    have hframe := resolveSite_tail hresolve rfl
    obtain ⟨top, rest, htop⟩ := List.exists_cons_of_ne_nil hframe
    cases target with
    | compiled body inst =>
      simp only [CallSite.context, Option.isSome_none, funcsAfter, TracksCall, htop]
      simp
    | host func entity =>
      simp only [CallSite.context, Option.isSome_none, funcsAfter, TracksCall, htop]
      simp
  | some results' =>
    cases callTarget with
    | internal func =>
      obtain ⟨rfl, rfl⟩ := hshape.internal func rfl
      simp only [CallSite.context, Option.isSome_some, if_true, funcsAfter, TracksCall,
        List.map_cons, toList_append_eq_cons]
      have hreport : reportedIdx m' { callIdx := internalCallIdx n func } = some idx := hidx
      rw [← reportedIdx_internal m' n func, hreport, Option.some.injEq]
    | imported func =>
      obtain ⟨rfl, hinst⟩ := hshape.imported func rfl
      obtain rfl : none = idx := Option.some.inj hidx
      cases target with
      | compiled body inst =>
        cases inst with
        | none => exact absurd rfl (hinst body)
        | some inst =>
          simp [CallSite.context, funcsAfter, TracksCall]
      | host func entity => simp [CallSite.context, funcsAfter, TracksCall]
    | indirect funcType imm16 =>
      obtain ⟨hpulled, hinst⟩ := hshape.indirect funcType imm16 rfl
      obtain ⟨⟨index, table⟩, rfl⟩ := Option.isSome_iff_exists.mp hpulled
      have hclamp : clampI32 index ≠ -1 := by
        unfold clampI32
        split <;> omega
      have hslot : (tableSlot m'.store m'.cache.inst table (asU32 (clampI32 index))).map some =
          some idx := by
        simpa [CallSite.report, reportedIdx, hclamp] using hidx
      cases target with
      | compiled body inst =>
        cases inst with
        | none => exact absurd rfl (hinst body)
        | some inst =>
          obtain ⟨hstore, hcache⟩ := executeCallee_compiled_context hcall
          have hstill := (keeps_still_resolveSite _ _).of_ok hresolve
          have hstore' : m₁.store = m.store := congrArg (fun s => s.2.2.2) hstill
          rw [hstore, hcache, hstore', Option.getD_some] at hslot
          simp only [CallSite.context, Option.isSome_some, if_true, funcsAfter, TracksCall,
            List.map_cons, toList_append_eq_cons]
          obtain ⟨func, hfunc, rfl⟩ := Option.map_eq_some_iff.mp hslot
          simp [hfunc]
      | host func entity =>
        obtain ⟨func, -, rfl⟩ := Option.map_eq_some_iff.mp hslot
        simp only [CallSite.context, Option.isSome_some, if_true, funcsAfter, TracksCall,
          toList_append_eq_self]
        simp

lemma tracks_iff {instr : Instruction} (hinstr : env.instrAt s.machine.ip = some instr)
    (hinst : s.inst = some inst) :
    Tracks env s ↔
      (instr.op.isReturn → s.machine.stack.calls.frames ≠ [] →
        returnsNow instr.op s.machine.toLocal = true) ∧
      ∀ site, instr.op.callSite = some site → ∀ r, resolved env site s.machine = some r →
        TracksCall inst.importFuncLen s.machine site r := by
  constructor
  · intro h
    exact ⟨h.taken instr hinstr, fun site hsite r hr => h.calls instr inst site r hinstr hinst hsite hr⟩
  · rintro ⟨htaken, hcalls⟩
    refine ⟨?_, ?_⟩
    · intro instr' hinstr'
      obtain rfl := Option.some.inj (hinstr.symm.trans hinstr')
      exact htaken
    · intro instr' inst' site r hinstr' hinst'
      obtain rfl := Option.some.inj (hinstr.symm.trans hinstr')
      obtain rfl := Option.some.inj (hinst.symm.trans hinst')
      exact fun hsite hr => hcalls site hsite r hr

/-- After a step that returns, the list agrees with the call stack iff the callbacks of the step
follow the call stack. -/
theorem agrees_iff_tracks {sig : Signal} (hagree : Agrees s)
    (h : executeStep env s = .ok sig s') : Agrees s' ↔ Tracks env s := by
  obtain ⟨-, instr, inst, report, m, idx, hinstr, hinst, hexec, hidx, -, rfl⟩ :=
    executeStep_eq_ok.mp h
  have hinvoked : s.invokedFuncIndex = (funcs s.machine).map (· + inst.importFuncLen) :=
    hagree inst hinst
  have hagree' : Agrees (afterStep s instr.instrOffset m report idx) ↔
      (if report.isPopFrame then (idx.toList ++ s.invokedFuncIndex).tail
        else idx.toList ++ s.invokedFuncIndex) = (funcs m).map (· + inst.importFuncLen) := by
    simp only [Agrees, afterStep_inst, hinst, Option.some.injEq, forall_eq', afterStep_invoked,
      frameIndices, afterStep_machine]
  rw [hagree', tracks_iff hinstr hinst, hinvoked]
  cases hcall : instr.op.callSite with
  | some site =>
    rw [executeInstr_callSite hcall] at hexec
    obtain ⟨pulled, m₁, hsite, hreport⟩ := bind_eq_ok.mp hexec
    cases hreport
    have hpop : (site.report inst.importFuncLen pulled).isPopFrame = false := by
      unfold CallSite.report
      split <;> rfl
    rw [hpop, if_neg Bool.false_ne_true, tracksCall_iff hsite hidx]
    simp [isReturn_of_callSite hcall]
  | none =>
    cases hreturn : instr.op.isReturn with
    | false =>
      rw [executeInstr_other hcall hreturn] at hexec
      obtain ⟨_, m₁, hother, hreport⟩ := bind_eq_ok.mp hexec
      cases hreport
      obtain rfl : none = idx := Option.some.inj hidx
      have hfuncs : funcs m = funcs s.machine :=
        congrArg CallStack.funcs ((keepsCalls_executeOther _ _).of_ok hother)
      simp [hfuncs]
    | true =>
      rw [executeInstr_return hreturn] at hexec
      by_cases hframes : s.machine.stack.calls.frames = []
      · -- nothing is left to return from, and nothing to pop
        rw [forwardReturnDbg_empty hframes] at hexec
        cases hexec
        obtain rfl : none = idx := Option.some.inj hidx
        have hfuncs : funcs s.machine = [] := CallStack.funcs_eq_nil.mpr hframes
        simp [hframes, hfuncs]
      · obtain ⟨flow, hflow, rfl⟩ := (forwardReturnDbg_eq_ok hframes).mp hexec
        obtain rfl : none = idx := Option.some.inj hidx
        have hne : funcs s.machine ≠ [] := fun hnil => hframes (CallStack.funcs_eq_nil.mp hnil)
        obtain ⟨top, rest, htop⟩ := List.exists_cons_of_ne_nil hne
        cases hnow : returnsNow instr.op s.machine.toLocal with
        | true =>
          have hpops := (popsFrame_executeReturn hreturn hnow hflow).frames
          have hfuncs : funcs m = (funcs s.machine).tail := by
            simp [funcs, CallStack.funcs, ← hpops]
          simp [returnReport, hfuncs, htop]
        | false =>
          obtain ⟨hcalls, -⟩ := executeReturn_skip_calls hreturn hnow hflow
          have hfuncs : funcs m = funcs s.machine := by
            simp [funcs, hcalls]
          simp [returnReport, hfuncs, htop, hframes]

/-- A step that fails keeps the agreement if its callbacks follow the call stack. -/
lemma agrees_of_failed {error : Error} (hagree : Agrees s) (hlimit : InLimit s.machine)
    (htracks : Tracks env s) (h : executeStep env s = .error (.fault error) s') :
    Agrees s' ∧ skeleton s'.machine = skeleton s.machine := by
  have hfault : Stop.IsFault (.fault error) := ⟨error, rfl⟩
  rcases executeStep_fault h hfault with
    ⟨-, rfl⟩ | ⟨-, instr, inst, m, hinstr, hinst, hexec, rfl⟩
  · exact ⟨hagree, rfl⟩
  have hskeleton : skeleton m = skeleton s.machine := by
    obtain ⟨-, hcalls⟩ := (tracks_iff hinstr hinst).mp htracks
    cases hcall : instr.op.callSite with
    | some site =>
      rw [executeInstr_callSite hcall] at hexec
      rcases bind_eq_error.mp hexec with hsite | ⟨_, _, -, hpure⟩
      · refine executeSite_fault hlimit ?_ hsite hfault
        intro htail func entity hcallee
        obtain ⟨⟨results, target, pulled⟩, hresolved, rfl⟩ := Option.map_eq_some_iff.mp hcallee
        have htracked := hcalls site hcall _ hresolved
        rw [TracksCall, htail] at htracked
        exact absurd htracked.1 (by simp)
      · cases hpure
    | none =>
      cases hreturn : instr.op.isReturn with
      | true =>
        rw [executeInstr_return hreturn, forwardReturnDbg_eq_error] at hexec
        exact absurd hfault (noFault_executeReturn _ _ _ _ hexec.2)
      | false =>
        rw [executeInstr_other hcall hreturn] at hexec
        rcases bind_eq_error.mp hexec with hother | ⟨_, _, -, hpure⟩
        · exact skeleton_of_calls ((keepsCalls_executeOther _ _).of_error hother)
        · cases hpure
  refine ⟨?_, hskeleton⟩
  obtain ⟨isInterrupted, heq⟩ := afterInst_eq s instr.instrOffset
  have hfuncs : funcs m = funcs s.machine := congrArg Prod.fst hskeleton
  intro inst' hinst'
  rw [heq] at hinst' ⊢
  show s.invokedFuncIndex = (funcs m).map (· + inst'.importFuncLen)
  rw [hfuncs]
  exact hagree inst' hinst'

end Step

/-! ## Runs -/

/-- A step of a run: a new function is started, or the executor makes a step the debugger
survives. -/
inductive RunStep (env : Engine T) (s s' : Session T) : Prop where
  | started (func : Nat) (params : List Val) (h : executeFunc env func params s = .ok () s')
  | stepped (htracks : Tracks env s) (h : Stepped env s s')

/-- The agreement, and the limit of the call stack it rests on. -/
structure AgreesInLimit (s : Session T) : Prop where
  agrees : Agrees s
  inLimit : InLimit s.machine

lemma AgreesInLimit.runStep {env : Engine T} {s s' : Session T} (h : AgreesInLimit s)
    (hstep : RunStep env s s') : AgreesInLimit s' := by
  obtain ⟨hagree, hlimit⟩ := h
  cases hstep with
  | started func params h =>
    obtain ⟨wasmFunc, inst, m, -, hinst, -, hprepare, rfl⟩ := executeFunc_eq_ok.mp h
    obtain ⟨hskeleton, hroom⟩ := prepareFunc_skeleton hprepare
    have hfuncs : funcs m = wasmFunc.body :: funcs s.machine := congrArg Prod.fst hskeleton
    refine ⟨?_, ?_⟩
    · intro inst' hinst'
      obtain rfl := Option.some.inj (hinst.symm.trans hinst')
      show (wasmFunc.body + inst.importFuncLen) :: s.invokedFuncIndex = (funcs m).map _
      rw [hfuncs, hagree inst hinst]
      rfl
    · show (skeleton m).1.length ≤ (skeleton m).2
      rw [hskeleton]
      simp only [InLimit, skeleton, funcs, CallStack.length_funcs, List.length_cons] at hlimit ⊢
      omega
  | stepped htracks h =>
    cases h with
    | returned sig h => exact ⟨(agrees_iff_tracks hagree h).mpr htracks, inLimit_of_returned hlimit h⟩
    | failed error h =>
      obtain ⟨hagree', hskeleton⟩ := agrees_of_failed hagree hlimit htracks h
      exact ⟨hagree', by rwa [InLimit, hskeleton]⟩

/-- In a run from an empty call stack whose callbacks follow the call stack at every step, the
list of invoked functions agrees with the call stack in every state. -/
theorem agrees_of_run {env : Engine T} {n : Nat} {s₀ s : Session T}
    (hframes : s₀.machine.stack.calls.frames = []) (hinvoked : s₀.invokedFuncIndex = [])
    (hrun : Steps (RunStep env) n s₀ s) : Agrees s := by
  have hfuncs : funcs s₀.machine = [] := CallStack.funcs_eq_nil.mpr hframes
  have h₀ : AgreesInLimit s₀ :=
    ⟨fun inst _ => by simp [frameIndices, hfuncs, hinvoked], by simp [InLimit, skeleton, hfuncs]⟩
  exact (hrun.invariant (I := AgreesInLimit) (fun _ _ hstep h => h.runStep hstep) h₀).agrees

/-- A function that calls another one without parameters. -/
def callEngine : Engine Unit :=
  Engine.ofCode [⟨[⟨1, .callInternal0 ⟨0⟩ 1⟩, ⟨2, .return_⟩], [], 1⟩, ⟨[⟨4, .return_⟩], [], 0⟩]
    [⟨[], []⟩, ⟨[], []⟩]

/-- The debugger before and after the start of the first function, in the function it calls, and
back. -/
def callSession : Nat → Session Unit
  | 0 => launched (Launch.ofStore (Store.ofFuncs [.wasm ⟨0, 0, 0⟩, .wasm ⟨1, 1, 0⟩]))
  | 1 => finalState (executeFunc callEngine 0 [] (callSession 0))
  | n + 2 => finalState (executeStep callEngine (callSession (n + 1)))

/-- The start of a run, a call and the return from it. -/
theorem agrees_of_run_callEngine :
    Agrees (callSession 3) ∧ (callSession 3).invokedFuncIndex = [0] := by
  have hstart : RunStep callEngine (callSession 0) (callSession 1) :=
    .started 0 [] (eq_ok_of_returned rfl)
  have hcall : RunStep callEngine (callSession 1) (callSession 2) := by
    refine .stepped ⟨?_, ?_⟩ (.returned .next (eq_ok_of_returned rfl))
    · rintro instr ⟨⟩ ⟨⟩
    · rintro instr inst site r ⟨⟩ ⟨⟩ ⟨⟩ ⟨⟩
      exact ⟨by decide, by decide⟩
  have hreturn : RunStep callEngine (callSession 2) (callSession 3) := by
    refine .stepped ⟨?_, ?_⟩ (.returned .next (eq_ok_of_returned rfl))
    · rintro instr ⟨⟩ - -
      rfl
    · rintro instr inst site r ⟨⟩ - ⟨⟩
  have hrun := Steps.head hstart (.head hcall (.one hreturn))
  exact ⟨agrees_of_run rfl rfl hrun, rfl⟩

/-- A function that returns at once if its parameter is not zero. -/
def untakenReturnEngine : Engine Unit :=
  Engine.ofCode [⟨[⟨1, .returnNez 0⟩, ⟨2, .return_⟩], [], 1⟩] [⟨[.i32], []⟩]

/-- A conditional return that is not taken pops the entry of a function that still runs. -/
theorem untaken_return_pops_entry :
    ∃ s s', executeFunc untakenReturnEngine 0 [⟨.i32, 0⟩]
        (launched (Launch.ofStore (Store.ofFuncs [.wasm ⟨0, 0, 0⟩]))) = .ok () s ∧
      executeStep untakenReturnEngine s = .ok .next s' ∧ ¬ Agrees s' :=
  ⟨_, _, rfl, rfl, fun h => absurd (h _ rfl) (by decide)⟩

end Debugger

end MotokoDebugger
