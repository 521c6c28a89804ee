import MotokoDebugger.Debugger.Stepping
import MotokoDebugger.Executor.Loop

/-!
# A step of the debugger is an iteration of the plain loop

* `executeInstr_eq_ok`, `executeInstr_eq_error`: the two interpreters do the same to the machine.
* `executeStep_executeOne`: so a step that returns is an iteration of the plain loop.
* `ReadsSlot`: the callback for an indirect call finds a function in the table.
* `mirrors_iff_readsSlot`: that is all that keeps a step from being one.
-/

namespace MotokoDebugger

namespace Executor

open StateExcept Runs

variable {T : Type} {env : Engine T}

/-- The signal that reports how an iteration ends. -/
def signalOf : ControlFlow → Signal
  | .continue_ => .next
  | .break_ => .end_

/-- What the debugger is told about an instruction that returns. -/
def reportOf (importFuncLen : Nat) (op : Op) (flow : ControlFlow) (pulled : Option (Nat × Nat)) :
    InstrReport :=
  match op.callSite with
  | some site => site.report importFuncLen pulled
  | none => if op.isReturn then returnReport flow else {}

/-- The parameter word of an indirect call, as the machine has it before the call. -/
def pulledWord (env : Engine T) (op : Op) (m : Machine T) : Option (Nat × Nat) :=
  op.callSite.bind fun site => (resolved env site m).bind (·.2.2)

lemma reportOf_signal (importFuncLen : Nat) (op : Op) (flow : ControlFlow)
    (pulled : Option (Nat × Nat)) (hflow : flow = .break_ → op.isReturn) :
    (reportOf importFuncLen op flow pulled).signal = signalOf flow := by
  unfold reportOf
  cases hcall : op.callSite with
  | some site =>
    cases flow with
    | continue_ => exact CallSite.report_signal _ _ _
    | break_ =>
      rw [isReturn_of_callSite hcall] at hflow
      cases hflow rfl
  | none =>
    cases hreturn : op.isReturn with
    | true => cases flow <;> rfl
    | false =>
      cases flow with
      | continue_ => rfl
      | break_ =>
        rw [hreturn] at hflow
        cases hflow rfl

/-- Only a return breaks the loop. -/
lemma isReturn_of_break {op : Op} {m m' : Machine T}
    (h : executeOp env op m = .ok .break_ m') : op.isReturn := by
  cases hcall : op.callSite with
  | some site =>
    rw [executeOp_callSite hcall] at h
    obtain ⟨_, _, -, hflow⟩ := bind_eq_ok.mp h
    cases hflow
  | none =>
    cases hreturn : op.isReturn with
    | true => rfl
    | false =>
      rw [executeOp_other hcall hreturn] at h
      obtain ⟨_, _, -, hflow⟩ := bind_eq_ok.mp h
      cases hflow

/-- An instruction under the debugger that returns does what it does in the plain loop. -/
theorem executeInstr_eq_ok {importFuncLen : Nat} {op : Op} {m m' : Machine T}
    {report : InstrReport} (hframes : op.isReturn → m.stack.calls.frames ≠ []) :
    executeInstr env importFuncLen op m = .ok report m' ↔
      ∃ flow, executeOp env op m = .ok flow m' ∧
        reportOf importFuncLen op flow (pulledWord env op m) = report := by
  cases hcall : op.callSite with
  | some site =>
    rw [executeInstr_callSite hcall, executeOp_callSite hcall]
    have hpulled : ∀ pulled, executeSite env site m = .ok pulled m' →
        pulledWord env op m = pulled := by
      intro pulled hsite
      obtain ⟨results, target, m₁, hresolve, -⟩ := executeSite_eq_ok.mp hsite
      simp [pulledWord, hcall, resolved, hresolve]
    simp only [bind_eq_ok, pure_apply, EStateM.Result.ok.injEq, reportOf, hcall]
    constructor
    · rintro ⟨pulled, _, hsite, rfl, rfl⟩
      exact ⟨.continue_, ⟨pulled, _, hsite, rfl, rfl⟩, by rw [hpulled _ hsite]⟩
    · rintro ⟨flow, ⟨pulled, _, hsite, -, rfl⟩, rfl⟩
      exact ⟨pulled, _, hsite, by rw [hpulled _ hsite], rfl⟩
  | none =>
    cases hreturn : op.isReturn with
    | true =>
      rw [executeInstr_return hreturn, executeOp_return hreturn,
        forwardReturnDbg_eq_ok (hframes hreturn)]
      simp [reportOf, hcall, hreturn]
    | false =>
      rw [executeInstr_other hcall hreturn, executeOp_other hcall hreturn]
      simp [nextSignal, continuing, map_eq_ok, reportOf, hcall, hreturn, and_comm]

/-- An instruction under the debugger that stops does what it does in the plain loop. -/
theorem executeInstr_eq_error {importFuncLen : Nat} {op : Op} {m m' : Machine T} {stop : Stop}
    (hframes : op.isReturn → m.stack.calls.frames ≠ []) :
    executeInstr env importFuncLen op m = .error stop m' ↔
      executeOp env op m = .error stop m' := by
  cases hcall : op.callSite with
  | some site =>
    rw [executeInstr_callSite hcall, executeOp_callSite hcall]
    simp [map_eq_error]
  | none =>
    cases hreturn : op.isReturn with
    | true =>
      rw [executeInstr_return hreturn, executeOp_return hreturn, forwardReturnDbg_eq_error]
      simp [hframes hreturn]
    | false =>
      rw [executeInstr_other hcall hreturn, executeOp_other hcall hreturn]
      simp [nextSignal, continuing, map_eq_error]

end Executor

namespace Debugger

open StateExcept Executor Runs

variable {T : Type} {env : Engine T}

/-! ## Steps that return -/

/-- A machine that the loop comes to has a frame where it is to return. -/
lemma frames_of_ready {m : Machine T} {instr : Instruction} (h : Ready env m)
    (hinstr : env.instrAt m.ip = some instr) (hreturn : instr.op.isReturn) :
    m.stack.calls.frames ≠ [] := by
  rcases h with hframes | hstuck
  · exact hframes
  · rcases hstuck.2 instr hinstr with hparam | ⟨site, hsite, -⟩
    · rw [isReturn_of_isParam hparam] at hreturn
      cases hreturn
    · rw [isReturn_of_callSite hsite] at hreturn
      cases hreturn

lemma combineSignals_eq_end {sigInst sigCall sig : Signal} (hinst : sigInst ≠ .end_)
    (hcall : sigCall ≠ .end_) : combineSignals sigInst sigCall sig = .end_ ↔ sig = .end_ := by
  cases sigInst <;> cases sigCall <;> cases sig <;> simp_all [combineSignals]

lemma instSignal_ne_end (s : Session T) (instrOffset : Nat) :
    instSignal s instrOffset ≠ .end_ := by
  unfold instSignal
  split <;> simp

lemma callSignal_ne_end (s : Session T) (idx : Option Nat) : callSignal s idx ≠ .end_ := by
  unfold callSignal
  split
  · simp
  · split
    · split <;> simp
    · simp

/-- A step that returns is an iteration of the plain loop, or a return without a frame, which does
nothing to the machine. -/
lemma executeStep_moves {s s' : Session T} {sig : Signal} (h : executeStep env s = .ok sig s') :
    (∃ flow, executeOne env s.machine = .ok flow s'.machine) ∨
      s'.machine = s.machine ∧ s.machine.stack.calls.frames = [] ∧
        ∃ instr, env.instrAt s.machine.ip = some instr ∧ instr.op.isReturn := by
  obtain ⟨-, instr, inst, report, m, idx, hinstr, -, hexec, -, -, rfl⟩ := executeStep_eq_ok.mp h
  rw [afterStep_machine]
  by_cases hempty : instr.op.isReturn ∧ s.machine.stack.calls.frames = []
  · right
    obtain ⟨hreturn, hframes⟩ := hempty
    rw [executeInstr_return hreturn, forwardReturnDbg_empty hframes] at hexec
    cases hexec
    exact ⟨rfl, hframes, instr, hinstr, hreturn⟩
  · left
    obtain ⟨flow, hop, -⟩ := (executeInstr_eq_ok (not_and.mp hempty)).mp hexec
    exact ⟨flow, executeOne_eq_ok.mpr ⟨instr, hinstr, hop⟩⟩

/-- A step that returns leaves the call stack within its limit. -/
lemma inLimit_of_returned {s s' : Session T} {sig : Signal} (hlimit : InLimit s.machine)
    (h : executeStep env s = .ok sig s') : InLimit s'.machine := by
  rcases executeStep_moves h with ⟨flow, hone⟩ | ⟨hsame, -⟩
  · exact inLimit_executeOne hlimit hone
  · rw [hsame]
    exact hlimit

/-- A step that fails with an error of the source is an iteration that does, or there is no
executor. -/
lemma executeStep_fails {s s' : Session T} {stop : Stop} (h : executeStep env s = .error stop s')
    (hstop : stop.IsFault) : s' = s ∨ executeOne env s.machine = .error stop s'.machine := by
  rcases executeStep_fault h hstop with ⟨-, rfl⟩ | ⟨-, instr, inst, m, hinstr, -, hexec, rfl⟩
  · exact .inl rfl
  right
  have hframes : instr.op.isReturn → s.machine.stack.calls.frames ≠ [] := by
    intro hreturn
    rw [executeInstr_return hreturn, forwardReturnDbg_eq_error] at hexec
    exact hexec.1
  have hfetch : fetch env s.machine = .ok instr s.machine := by
    simp [fetch, get_bind, hinstr, assume]
  rw [executeOne, bind_ok hfetch]
  exact (executeInstr_eq_error hframes).mp hexec

/-- A step that returns is an iteration of the plain loop, and signals the end where it breaks
the loop. -/
theorem executeStep_executeOne {s s' : Session T} {sig : Signal} (hready : Ready env s.machine)
    (h : executeStep env s = .ok sig s') :
    ∃ flow, executeOne env s.machine = .ok flow s'.machine ∧ (sig = .end_ ↔ flow = .break_) := by
  obtain ⟨-, instr, inst, report, m, idx, hinstr, -, hexec, -, rfl, rfl⟩ := executeStep_eq_ok.mp h
  have hframes := frames_of_ready hready hinstr
  obtain ⟨flow, hop, rfl⟩ := (executeInstr_eq_ok hframes).mp hexec
  refine ⟨flow, ?_, ?_⟩
  · rw [afterStep_machine]
    exact executeOne_eq_ok.mpr ⟨instr, hinstr, hop⟩
  · rw [combineSignals_eq_end (instSignal_ne_end s _) (callSignal_ne_end s _), reportOf_signal]
    · cases flow <;> simp [signalOf]
    · rintro rfl
      exact isReturn_of_break hop

/-- A step that returns has started from a frame. -/
lemma frames_of_executeStep {s s' : Session T} {sig : Signal} (hready : Ready env s.machine)
    (h : executeStep env s = .ok sig s') : s.machine.stack.calls.frames ≠ [] := by
  obtain ⟨flow, hone, -⟩ := executeStep_executeOne hready h
  rcases hready with hframes | hstuck
  · exact hframes
  · exact absurd hone (hstuck.executeOne _ _)

/-- A step that signals the end leaves no frame. -/
lemma frames_of_end {s s' : Session T} (hready : Ready env s.machine)
    (h : executeStep env s = .ok .end_ s') : s'.machine.stack.calls.frames = [] := by
  obtain ⟨flow, hone, hflow⟩ := executeStep_executeOne hready h
  rw [hflow.mp rfl] at hone
  obtain ⟨instr, hends⟩ := endsAt_of_break hone
  exact hends.frames

/-! ## Steps that stop -/

/-- The slot of the table that the callback for an indirect call from `m` to `m'` reads: that of
the callee's instance, or of the caller's after a host function. -/
def slotRead (m m' : Machine T) (target : Callee) (table index : Nat) : Option Nat :=
  match target with
  | .compiled _ inst =>
    tableSlot m.store (inst.getD m.cache.inst) table (asU32 (clampI32 index))
  | .host .. => tableSlot m'.store m'.cache.inst table (asU32 (clampI32 index))

/-- If the instruction is an indirect call that succeeds, then the slot that is read for the
callback has a function. -/
def ReadsSlot (env : Engine T) (m : Machine T) : Prop :=
  ∀ instr site results target index table m', env.instrAt m.ip = some instr →
    instr.op.callSite = some site → site.results.isSome →
    resolved env site m = some (results, target, some (index, table)) →
    executeOne env m = .ok .continue_ m' → (slotRead m m' target table index).isSome

/-- A step of the debugger does what an iteration of the plain loop does. -/
structure Mirrors (env : Engine T) (s : Session T) : Prop where
  returns : ∀ flow m', executeOne env s.machine = .ok flow m' →
    ∃ sig s', executeStep env s = .ok sig s' ∧ s'.machine = m' ∧ (sig = .end_ ↔ flow = .break_)
  stops : ∀ stop m', executeOne env s.machine = .error stop m' →
    ∃ s', executeStep env s = .error stop s' ∧ s'.machine = m'

/-- The callback reads its slot from the store and the instance there are after the call. -/
lemma slotRead_eq {site : CallSite} {m m₁ m' : Machine T} {results : RegSpan} {target : Callee}
    {pulled : Option (Nat × Nat)}
    (hresolve : resolveSite env site m = .ok (results, target, pulled) m₁)
    (hcall : executeCallee env site.context results target m₁ = .ok () m') (table index : Nat) :
    slotRead m m' target table index =
      tableSlot m'.store m'.cache.inst table (asU32 (clampI32 index)) := by
  cases target with
  | host func entity => rfl
  | compiled body inst =>
    obtain ⟨hstore, hinst⟩ := executeCallee_compiled_context hcall
    have hstill := (keeps_still_resolveSite env site).of_ok hresolve
    have hstore' : m₁.store = m.store := congrArg (fun s => s.2.2.2) hstill
    have hcache' : m₁.cache = m.cache := congrArg (fun s => s.2.1) hstill
    rw [slotRead, hstore, hinst, hstore', hcache']

/-- The callback for a call fails only where it reads an empty slot. -/
lemma reportedIdx_site {site : CallSite} {importFuncLen : Nat} {m m₁ m' : Machine T}
    {results : RegSpan} {target : Callee} {pulled : Option (Nat × Nat)}
    (hresolve : resolveSite env site m = .ok (results, target, pulled) m₁)
    (hcall : executeCallee env site.context results target m₁ = .ok () m') :
    reportedIdx m' (site.report importFuncLen pulled) = none ↔
      site.results.isSome ∧ ∃ index table, pulled = some (index, table) ∧
        slotRead m m' target table index = none := by
  have hshape := resolveSite_shape hresolve
  simp only [slotRead_eq hresolve hcall]
  obtain ⟨siteResults, hasParams, siteTarget⟩ := site
  cases siteResults with
  | none => simp [CallSite.report, reportedIdx]
  | some siteResults =>
    cases siteTarget with
    | internal func =>
      obtain ⟨-, rfl⟩ := hshape.internal func rfl
      by_cases hidx : internalCallIdx importFuncLen func = -1 <;>
        simp [CallSite.report, reportedIdx, hidx]
    | imported func =>
      obtain ⟨rfl, -⟩ := hshape.imported func rfl
      simp [CallSite.report, reportedIdx]
    | indirect funcType imm16 =>
      obtain ⟨hpulled, -⟩ := hshape.indirect funcType imm16 rfl
      obtain ⟨⟨index, table⟩, rfl⟩ := Option.isSome_iff_exists.mp hpulled
      have hidx : clampI32 index ≠ -1 := by
        unfold clampI32
        split <;> omega
      simp [CallSite.report, reportedIdx, hidx]

/-- The callback for a step of the plain loop. -/
lemma reportedIdx_reportOf (importFuncLen : Nat) {op : Op} {m m' : Machine T}
    {flow : ControlFlow} (hop : executeOp env op m = .ok flow m') :
    reportedIdx m' (reportOf importFuncLen op flow (pulledWord env op m)) = none ↔
      ∃ site results target index table, op.callSite = some site ∧ site.results.isSome ∧
        resolved env site m = some (results, target, some (index, table)) ∧
        flow = .continue_ ∧ slotRead m m' target table index = none := by
  cases hcall : op.callSite with
  | none =>
    have hreport : (reportOf importFuncLen op flow (pulledWord env op m)).callIdx = -1 := by
      unfold reportOf
      rw [hcall]
      dsimp only
      split <;> rfl
    simp [reportedIdx, hreport]
  | some site =>
    rw [executeOp_callSite hcall] at hop
    obtain ⟨pulled, _, hsite, hflow⟩ := bind_eq_ok.mp hop
    cases hflow
    obtain ⟨results, target, m₁, hresolve, hcallee⟩ := executeSite_eq_ok.mp hsite
    have hresolved : resolved env site m = some (results, target, pulled) := by
      simp [resolved, hresolve]
    simp only [reportOf, hcall, pulledWord, hresolved, Option.bind_some,
      reportedIdx_site hresolve hcallee]
    constructor
    · rintro ⟨hnested, index, table, rfl, hslot⟩
      exact ⟨site, results, target, index, table, rfl, hnested, hresolved, trivial, hslot⟩
    · rintro ⟨_, _, _, index, table, hsite', hnested, hresolved', -, hslot⟩
      obtain rfl := Option.some.inj hsite'
      rw [hresolved] at hresolved'
      obtain ⟨rfl, rfl, rfl⟩ := by simpa using hresolved'
      exact ⟨hnested, index, table, rfl, hslot⟩

/-- A step is an iteration of the plain loop iff its callback does not read an empty slot. -/
theorem mirrors_iff_readsSlot {s : Session T} {inst : InstanceWithName}
    (hlive : s.executor = .live) (hinst : s.inst = some inst) (hready : Ready env s.machine) :
    Mirrors env s ↔ ReadsSlot env s.machine := by
  constructor
  · rintro ⟨hreturns, -⟩ instr site results target index table m' hinstr hcall hnested hresolved hone
    obtain ⟨sig, s', hstep, rfl, -⟩ := hreturns _ _ hone
    obtain ⟨-, instr', inst', report, m', idx, hinstr', -, hexec, hidx, -, rfl⟩ :=
      executeStep_eq_ok.mp hstep
    rw [afterStep_machine] at hone ⊢
    obtain rfl := Option.some.inj (hinstr.symm.trans hinstr')
    obtain ⟨flow, hop, rfl⟩ := (executeInstr_eq_ok (frames_of_ready hready hinstr)).mp hexec
    rw [Option.isSome_iff_ne_none]
    intro hslot
    obtain ⟨instr'', hinstr'', hop'⟩ := executeOne_eq_ok.mp hone
    obtain rfl := Option.some.inj (hinstr.symm.trans hinstr'')
    rw [hop] at hop'
    cases hop'
    have hnone := (reportedIdx_reportOf inst'.importFuncLen hop).mpr
      ⟨site, results, target, index, table, hcall, hnested, hresolved, rfl, hslot⟩
    rw [hnone] at hidx
    cases hidx
  · intro hreads
    refine ⟨?_, ?_⟩
    · intro flow m' hone
      obtain ⟨instr, hinstr, hop⟩ := executeOne_eq_ok.mp hone
      have hexec : executeInstr env inst.importFuncLen instr.op s.machine =
          .ok (reportOf inst.importFuncLen instr.op flow (pulledWord env instr.op s.machine)) m' :=
        (executeInstr_eq_ok (frames_of_ready hready hinstr)).mpr ⟨flow, hop, rfl⟩
      cases hidx : reportedIdx m'
          (reportOf inst.importFuncLen instr.op flow (pulledWord env instr.op s.machine)) with
      | none =>
        obtain ⟨site, results, target, index, table, hcall, hnested, hresolved, rfl, hslot⟩ :=
          (reportedIdx_reportOf inst.importFuncLen hop).mp hidx
        have hsome := hreads instr site results target index table m' hinstr hcall hnested hresolved
          hone
        rw [hslot] at hsome
        cases hsome
      | some idx =>
        have hstep := executeStep_eq_ok.mpr
          ⟨hlive, instr, inst, _, m', idx, hinstr, hinst, hexec, hidx, rfl, rfl⟩
        refine ⟨_, _, hstep, afterStep_machine _ _ _ _ _, ?_⟩
        obtain ⟨flow', hone', hend⟩ := executeStep_executeOne hready hstep
        rw [afterStep_machine, hone] at hone'
        cases hone'
        exact hend
    · intro stop m' hone
      cases hinstr : env.instrAt s.machine.ip with
      | none =>
        simp only [executeOne, fetch, bind_assoc, get_bind, hinstr, assume] at hone
        cases hone
        exact ⟨s, executeStep_of_no_instr hlive hinstr, rfl⟩
      | some instr =>
        have hop := executeOne_eq_error hinstr hone
        have hexec : executeInstr env inst.importFuncLen instr.op s.machine = .error stop m' :=
          (executeInstr_eq_error (frames_of_ready hready hinstr)).mpr hop
        exact ⟨_, executeStep_of_error hlive hinst hinstr hexec, rfl⟩

/-- A step that stops is an iteration of the plain loop that does. -/
lemma Mirrors.executeOne_eq_error {s s' : Session T} {stop : Stop} (h : Mirrors env s)
    (hstep : executeStep env s = .error stop s') :
    executeOne env s.machine = .error stop s'.machine := by
  cases hone : executeOne env s.machine with
  | ok flow m' =>
    obtain ⟨sig, s'', hstep', -⟩ := h.returns flow m' hone
    rw [hstep] at hstep'
    cases hstep'
  | error stop' m' =>
    obtain ⟨s'', hstep', rfl⟩ := h.stops stop' m' hone
    rw [hstep] at hstep'
    cases hstep'
    rfl

end Debugger

end MotokoDebugger
