import MotokoDebugger.Debugger.Reports
import MotokoDebugger.Debugger.ShadowStack

/-!
# Where breakpoints stop a run

* `Registered`: the instruction ahead is one, or enters a function, that a breakpoint is registered
  for.
* `BreaksAsRegistered`: `process` stops at those, and elsewhere at the entry of the main file only.
* `signals_iff_clear`: the steps that signal a breakpoint as they should.
* `breaks_iff_clear`: the runs that do.
-/

namespace MotokoDebugger

namespace Debugger

open StateExcept Executor Runs

variable {T : Type} {env : Engine T}

/-! ## What is registered -/

/-- The indices that a callee has in the main module. The compiled functions come after the imported
ones. -/
def HasIndex (s : Session T) (inst : InstanceWithName) : Callee → Nat → Prop
  | .compiled body _, index => index = body + inst.importFuncLen
  | .host func _, index => ∃ entity, s.machine.store.instances[inst.inner]? = some entity ∧
      entity.funcs[index]? = some func

/-- The instruction ahead enters a function with the name of a registered breakpoint. -/
def EntersRegistered (env : Engine T) (s : Session T) : Prop :=
  ∃ instr inst site target index name, env.instrAt s.machine.ip = some instr ∧
    s.inst = some inst ∧ instr.op.callSite = some site ∧
    callee env site s.machine = some target ∧ HasIndex s inst target index ∧
    inst.funcNames.lookup index = some name ∧ name ∈ s.breakpoints.functionMap

/-- The offset of the instruction ahead is that of a registered breakpoint. -/
def AtRegistered (env : Engine T) (s : Session T) : Prop :=
  ∃ instr, env.instrAt s.machine.ip = some instr ∧ instr.instrOffset ∈ s.breakpoints.instMap

/-- A registered breakpoint is reached. -/
def Registered (env : Engine T) (s : Session T) : Prop :=
  EntersRegistered env s ∨ AtRegistered env s

/-- The entry of the main file is reached, for the first time in the run. -/
def AtEntry (env : Engine T) (s : Session T) : Prop :=
  ∃ instr, env.instrAt s.machine.ip = some instr ∧ entryBreaks s instr.instrOffset = true

/-- Steps after which `process` goes on. -/
abbrev ProcessSteps (env : Engine T) : Nat → Session T → Session T → Prop :=
  Steps (GoesOn env fun _ => true)

/-- `process` stops at a breakpoint exactly where a registered one is reached; besides, it may stop
at the entry of the main file. -/
structure BreaksAsRegistered (env : Engine T) (s : Session T) : Prop where
  sound : ∀ fuel s', process env fuel s = .ok (some .breakpoint) s' →
    ∃ n s₁, n < fuel ∧ ProcessSteps env n s s₁ ∧ executeStep env s₁ = .ok .breakpoint s' ∧
      (Registered env s₁ ∨ AtEntry env s₁)
  complete : ∀ n s₁ sig s', ProcessSteps env n s s₁ → executeStep env s₁ = .ok sig s' →
    Registered env s₁ → ∀ fuel, n < fuel → process env fuel s = .ok (some .breakpoint) s'

/-! ## What the callback is told -/

/-- The function whose index the callback for a call gets, if it gets one. -/
def heardIdx (env : Engine T) (s : Session T) : Option Nat := do
  let instr ← env.instrAt s.machine.ip
  let inst ← s.inst
  let site ← instr.op.callSite
  let (_, _, pulled) ← resolved env site s.machine
  (← reportedIdx (finalState (executeSite env site s.machine))
    (site.report inst.importFuncLen pulled))

/-- The callback finds the name of a registered breakpoint in that of the function it is told. -/
def HearsRegistered (env : Engine T) (s : Session T) : Prop :=
  ∃ index name, heardIdx env s = some index ∧ funcNameByIdx s index = some name ∧
    s.breakpoints.shouldBreakFunc name = true

/-- The instruction ahead returns from the root function, or stands behind such a return. -/
def EndsRun (env : Engine T) (s : Session T) : Prop :=
  ∃ instr, env.instrAt s.machine.ip = some instr ∧ instr.op.isReturn = true ∧
    (s.machine.stack.calls.frames = [] ∨
      returnsNow instr.op s.machine.toLocal = true ∧ s.machine.stack.calls.frames.tail = [])

/-- The callbacks say what is registered: the offset of the instruction is not registered and the
function heard is hit iff the function entered is registered; or a hit of either kind, or the entry
of the main file, stops a run that goes on. -/
def Clear (env : Engine T) (s : Session T) : Prop :=
  (AtEntry env s ∧ (AtRegistered env s → ¬EndsRun env s)) ∨
    (AtRegistered env s ∧ HearsRegistered env s) ∨
    (¬AtRegistered env s ∧ (HearsRegistered env s ↔ EntersRegistered env s))

/-- A step signals a breakpoint as it should. -/
def SignalsRight (env : Engine T) (s : Session T) (sig : Signal) : Prop :=
  (sig = .breakpoint → Registered env s ∨ AtEntry env s) ∧ (Registered env s → sig = .breakpoint)

/-! ## One step -/

section Step

variable {s s' : Session T} {instr : Instruction} {inst : InstanceWithName}
  {report : InstrReport} {m : Machine T} {idx : Option Nat}

/-- A call instruction is no return. -/
lemma not_endsRun_of_callSite {site : CallSite} (hinstr : env.instrAt s.machine.ip = some instr)
    (hcall : instr.op.callSite = some site) : ¬EndsRun env s := by
  rintro ⟨instr', hinstr', hreturn, -⟩
  cases hinstr.symm.trans hinstr'
  rw [isReturn_of_callSite hcall] at hreturn
  cases hreturn

/-- The callback for the call is the one that the step makes. -/
lemma heardIdx_eq (hinstr : env.instrAt s.machine.ip = some instr) (hinst : s.inst = some inst)
    (hexec : executeInstr env inst.importFuncLen instr.op s.machine = .ok report m)
    (hidx : reportedIdx m report = some idx) : heardIdx env s = idx := by
  unfold heardIdx
  rw [hinstr, hinst]
  cases hcall : instr.op.callSite with
  | some site =>
    rw [executeInstr_callSite hcall] at hexec
    obtain ⟨pulled, m₁, hsite, hreport⟩ := bind_eq_ok.mp hexec
    cases hreport
    obtain ⟨results, target, m₂, hresolve, -⟩ := executeSite_eq_ok.mp hsite
    have hresolved : resolved env site s.machine = some (results, target, pulled) := by
      simp [resolved, hresolve]
    simp [hcall, hresolved, hsite, hidx]
  | none =>
    have hquiet : report.callIdx = -1 := by
      cases hreturn : instr.op.isReturn with
      | false =>
        rw [executeInstr_other hcall hreturn] at hexec
        obtain ⟨_, _, -, hreport⟩ := bind_eq_ok.mp hexec
        cases hreport
        rfl
      | true =>
        rw [executeInstr_return hreturn] at hexec
        by_cases hframes : s.machine.stack.calls.frames = []
        · rw [forwardReturnDbg_empty hframes] at hexec
          cases hexec
          rfl
        · obtain ⟨flow, -, rfl⟩ := (forwardReturnDbg_eq_ok hframes).mp hexec
          rfl
    rw [reportedIdx, if_pos hquiet] at hidx
    simpa [hcall] using Option.some.inj hidx

/-- The signal of the instruction is the end of the run, or none. -/
lemma signal_of_instr (hinstr : env.instrAt s.machine.ip = some instr)
    (hexec : executeInstr env inst.importFuncLen instr.op s.machine = .ok report m) :
    (report.signal = .end_ ∧ EndsRun env s) ∨ (report.signal = .next ∧ ¬EndsRun env s) := by
  have hends : EndsRun env s ↔ instr.op.isReturn = true ∧ (s.machine.stack.calls.frames = [] ∨
      returnsNow instr.op s.machine.toLocal = true ∧ s.machine.stack.calls.frames.tail = []) := by
    constructor
    · rintro ⟨instr', hinstr', h⟩
      cases hinstr.symm.trans hinstr'
      exact h
    · exact fun h => ⟨instr, hinstr, h⟩
  cases hreturn : instr.op.isReturn with
  | false =>
    have hnot : ¬EndsRun env s := by simp [hends, hreturn]
    refine .inr ⟨?_, hnot⟩
    cases hcall : instr.op.callSite with
    | some site =>
      rw [executeInstr_callSite hcall] at hexec
      obtain ⟨pulled, _, -, hreport⟩ := bind_eq_ok.mp hexec
      cases hreport
      exact site.report_signal _ _
    | none =>
      rw [executeInstr_other hcall hreturn] at hexec
      obtain ⟨_, _, -, hreport⟩ := bind_eq_ok.mp hexec
      cases hreport
      rfl
  | true =>
    rw [executeInstr_return hreturn] at hexec
    by_cases hframes : s.machine.stack.calls.frames = []
    · rw [forwardReturnDbg_empty hframes] at hexec
      cases hexec
      exact .inl ⟨rfl, hends.mpr ⟨hreturn, .inl hframes⟩⟩
    · obtain ⟨flow, hflow, rfl⟩ := (forwardReturnDbg_eq_ok hframes).mp hexec
      cases hnow : returnsNow instr.op s.machine.toLocal with
      | false =>
        have hcontinue := (executeReturn_skip_calls hreturn hnow hflow).2
        rw [hcontinue]
        exact .inr ⟨rfl, by simp [hends, hframes, hnow]⟩
      | true =>
        have hpops := popsFrame_executeReturn hreturn hnow hflow
        have hlast : EndsRun env s ↔ flow = .break_ := by
          rw [hends, hpops.flow, ← hpops.frames]
          simp [hreturn, hframes, hnow]
        cases flow with
        | break_ => exact .inl ⟨rfl, hlast.mpr rfl⟩
        | continue_ => exact .inr ⟨rfl, fun h => by cases hlast.mp h⟩

/-- When a step signals a breakpoint. -/
lemma signal_eq_breakpoint_iff {sig : Signal} (hstep : executeStep env s = .ok sig s') :
    sig = .breakpoint ↔ ¬EndsRun env s ∧ (AtEntry env s ∨ HearsRegistered env s) := by
  obtain ⟨-, instr, inst, report, m, idx, hinstr, hinst, hexec, hidx, hsig, -⟩ :=
    executeStep_eq_ok.mp hstep
  have hentry : AtEntry env s ↔ entryBreaks s instr.instrOffset = true := by
    constructor
    · rintro ⟨instr', hinstr', h⟩
      cases hinstr.symm.trans hinstr'
      exact h
    · exact fun h => ⟨instr, hinstr, h⟩
  have hhears : HearsRegistered env s ↔ callSignal s idx = .breakpoint := by
    rw [HearsRegistered, heardIdx_eq hinstr hinst hexec hidx]
    cases idx with
    | none => simp [callSignal]
    | some index =>
      cases hname : funcNameByIdx s index with
      | none => simp [callSignal, hname]
      | some name => simp [callSignal, hname]
  rw [hentry, hhears, ← hsig]
  rcases signal_of_instr hinstr hexec with ⟨hend, hends⟩ | ⟨hnext, hends⟩
  · have hsignal : combineSignals (instSignal s instr.instrOffset) (callSignal s idx)
        report.signal = .end_ :=
      (combineSignals_eq_end (instSignal_ne_end s _) (callSignal_ne_end s _)).mpr hend
    rw [hsignal]
    simp [hends]
  · rw [combineSignals_eq_breakpoint (instSignal_ne_end s _) (callSignal_ne_end s _) hnext,
      instSignal_eq_breakpoint]
    simp [hends]

/-- A return enters no function, and none is heard. -/
lemma call_of_entersRegistered (h : EntersRegistered env s) : ¬EndsRun env s := by
  obtain ⟨instr, _, site, _, _, _, hinstr, -, hcall, -⟩ := h
  exact not_endsRun_of_callSite hinstr hcall

lemma call_of_hearsRegistered (h : HearsRegistered env s) : ¬EndsRun env s := by
  obtain ⟨index, name, hheard, -⟩ := h
  unfold heardIdx at hheard
  simp only [Option.bind_eq_bind, Option.bind_eq_some_iff] at hheard
  obtain ⟨instr, hinstr, _, -, site, hcall, -⟩ := hheard
  exact not_endsRun_of_callSite hinstr hcall

/-- A step signals a breakpoint as it should iff its callbacks say what is registered. -/
theorem signals_iff_clear {sig : Signal} (hstep : executeStep env s = .ok sig s') :
    SignalsRight env s sig ↔ Clear env s := by
  have hsig := signal_eq_breakpoint_iff hstep
  unfold SignalsRight Clear Registered
  rw [hsig]
  by_cases hends : EndsRun env s
  · -- a return neither enters a function nor is one heard
    have henters : ¬EntersRegistered env s := fun h => call_of_entersRegistered h hends
    have hhears : ¬HearsRegistered env s := fun h => call_of_hearsRegistered h hends
    by_cases hat : AtRegistered env s <;> simp [hends, henters, hhears, hat]
  · by_cases hentry : AtEntry env s
    · simp [hends, hentry]
    · by_cases hat : AtRegistered env s
      · simp [hends, hentry, hat]
      · simp [hends, hentry, hat, iff_def]

end Step

/-! ## Runs -/

section Runs

variable {s s₁ s' : Session T} {n : Nat}

lemma goesOn_deterministic {continues : Nat → Bool} (a b c : Session T)
    (hb : GoesOn env continues a b) (hc : GoesOn env continues a c) : b = c := by
  have heq := hb.2.symm.trans hc.2
  cases heq
  rfl

/-- A loop goes on behind the steps it has made. -/
lemma stepWhile_of_steps (h : ProcessSteps env n s s₁) (k : Nat) :
    stepWhile env (fun _ => true) (n + k) s = stepWhile env (fun _ => true) k s₁ := by
  induction h with
  | refl => rw [Nat.zero_add]
  | head hstep _ ih =>
    rw [Nat.add_right_comm, stepWhile_succ, if_pos rfl, bind_ok hstep.2, ← ih]
    rfl

/-- A run that makes a step has an executor. -/
lemma live_of_steps {sig : Signal} (h : ProcessSteps env n s s₁)
    (hstep : executeStep env s₁ = .ok sig s') : s.executor = .live := by
  cases h with
  | refl => exact (executeStep_keeps hstep).1
  | head hfirst _ => exact (executeStep_keeps hfirst.2).1

/-- Where `process` stops at a breakpoint. -/
theorem process_breakpoint_iff {fuel : Nat} :
    process env fuel s = .ok (some .breakpoint) s' ↔
      ∃ n s₁, n < fuel ∧ ProcessSteps env n s s₁ ∧ executeStep env s₁ = .ok .breakpoint s' := by
  constructor
  · intro h
    obtain ⟨_, _, hrequire, hloop⟩ := bind_eq_ok.mp h
    obtain ⟨-, rfl⟩ := requireExecutor_eq_ok.mp hrequire
    have hloops := loops_stepWhile env (fun _ => true) fuel s
    rw [hloop] at hloops
    cases hloops with
    | breakpoint hfuel hsteps hstep => exact ⟨_, _, hfuel, hsteps, hstep⟩
  · rintro ⟨n, s₁, hfuel, hsteps, hstep⟩
    have hlive := live_of_steps hsteps hstep
    obtain ⟨k, rfl⟩ : ∃ k, fuel = n + (k + 1) := ⟨fuel - n - 1, by omega⟩
    have hrequire : requireExecutor s = .ok () s := requireExecutor_eq_ok.mpr ⟨hlive, rfl⟩
    rw [process, bind_ok hrequire, stepWhile_of_steps hsteps, stepWhile_succ, if_pos rfl,
      bind_ok hstep]
    rfl

/-- No run goes on behind a step that signals a breakpoint. -/
lemma stop_unique {sig : Signal} {n' : Nat} {s₂ s₃ : Session T} (hsteps : ProcessSteps env n s s₁)
    (hstep : executeStep env s₁ = .ok sig s') (hle : n' ≤ n) (hsteps' : ProcessSteps env n' s s₂)
    (hstop : executeStep env s₂ = .ok .breakpoint s₃) : sig = .breakpoint ∧ s₂ = s₁ := by
  obtain ⟨k, rfl⟩ : ∃ k, n = n' + k := ⟨n - n', by omega⟩
  cases hsteps'.comparable goesOn_deterministic hsteps with
  | refl =>
    rw [hstop] at hstep
    cases hstep
    exact ⟨rfl, rfl⟩
  | head hnext _ => cases hstop.symm.trans hnext.2

/-- In a run that stops as registered every step signals a breakpoint as it should. -/
lemma signalsRight_of_breaks {sig : Signal} (h : BreaksAsRegistered env s)
    (hsteps : ProcessSteps env n s s₁) (hstep : executeStep env s₁ = .ok sig s') :
    SignalsRight env s₁ sig := by
  constructor
  · intro hsig
    rw [hsig] at hstep
    have hstops : process env (n + 1) s = .ok (some .breakpoint) s' :=
      process_breakpoint_iff.mpr ⟨n, s₁, n.lt_succ_self, hsteps, hstep⟩
    obtain ⟨n', s₂, hlt, hsteps', hstop, hright⟩ := h.sound _ _ hstops
    have hsame := (stop_unique hsteps hstep (Nat.le_of_lt_succ hlt) hsteps' hstop).2
    rw [← hsame]
    exact hright
  · intro hregistered
    have hstops := h.complete n s₁ sig s' hsteps hstep hregistered (n + 1) n.lt_succ_self
    obtain ⟨n', s₂, hlt, hsteps', hstop⟩ := process_breakpoint_iff.mp hstops
    exact (stop_unique hsteps hstep (Nat.le_of_lt_succ hlt) hsteps' hstop).1

/-- `process` stops as registered if and only if at each step it makes the callbacks say what is
registered. -/
theorem breaks_iff_clear (env : Engine T) (s : Session T) :
    BreaksAsRegistered env s ↔
      ∀ n s₁ sig s', ProcessSteps env n s s₁ → executeStep env s₁ = .ok sig s' → Clear env s₁ := by
  constructor
  · intro h n s₁ sig s' hsteps hstep
    exact (signals_iff_clear hstep).mp (signalsRight_of_breaks h hsteps hstep)
  · intro hclear
    constructor
    · intro fuel s' hstops
      obtain ⟨n, s₁, hlt, hsteps, hstep⟩ := process_breakpoint_iff.mp hstops
      have hright := (signals_iff_clear hstep).mpr (hclear n s₁ _ s' hsteps hstep)
      exact ⟨n, s₁, hlt, hsteps, hstep, hright.1 rfl⟩
    · intro n s₁ sig s' hsteps hstep hregistered fuel hlt
      have hright := (signals_iff_clear hstep).mpr (hclear n s₁ sig s' hsteps hstep)
      rw [hright.2 hregistered] at hstep
      exact process_breakpoint_iff.mpr ⟨n, s₁, hlt, hsteps, hstep⟩

end Runs

/-! ## A breakpoint whose name is a part of that of a function -/

/-- The first function of two, before it calls the second. -/
def getterSession (breakpoints : Breakpoints) : Session Unit :=
  let launch := Launch.ofStore (Store.ofFuncs [.wasm ⟨0, 0, 0⟩, .wasm ⟨1, 1, 0⟩])
  let launched := launched { launch with
    inst := { launch.inst with funcNames := [(0, "main"), (1, "get2")] } }
  finalState (executeFunc callEngine 0 [] { launched with breakpoints })

/-- A breakpoint for `get` stops the run at `get2`, and one for the offset of the first
instruction does not stop it. -/
theorem part_of_name_stops :
    (∃ s', process callEngine 1 (getterSession { functionMap := ["get"] }) =
        .ok (some .breakpoint) s') ∧
      ¬BreaksAsRegistered callEngine (getterSession { functionMap := ["get"] }) ∧
      (∃ s', process callEngine 1 (getterSession { instMap := [1] }) = .ok none s') ∧
      ¬BreaksAsRegistered callEngine (getterSession { instMap := [1] }) := by
  have hhears : HearsRegistered callEngine (getterSession { functionMap := ["get"] }) :=
    ⟨1, "get2", rfl, rfl, by decide +kernel⟩
  have hpart : ∃ s', executeStep callEngine (getterSession { functionMap := ["get"] }) =
      .ok .breakpoint s' := by
    obtain ⟨sig, s', hstep⟩ : ∃ sig s', executeStep callEngine
        (getterSession { functionMap := ["get"] }) = .ok sig s' :=
      ⟨_, _, eq_ok_of_returned rfl⟩
    have hsig := (signal_eq_breakpoint_iff hstep).mpr ⟨call_of_hearsRegistered hhears, .inr hhears⟩
    exact ⟨s', hsig ▸ hstep⟩
  have hoffset : ∃ s', executeStep callEngine (getterSession { instMap := [1] }) =
      .ok .next s' := ⟨_, eq_ok_of_returned rfl⟩
  obtain ⟨s', hpart⟩ := hpart
  obtain ⟨s'', hoffset⟩ := hoffset
  refine ⟨⟨s', ?_⟩, ?_, ⟨_, eq_ok_of_returned rfl⟩, ?_⟩
  · exact process_breakpoint_iff.mpr ⟨0, _, Nat.one_pos, .refl _, hpart⟩
  · intro h
    rcases (signalsRight_of_breaks h (.refl _) hpart).1 rfl with (henters | hat) | hentry
    · obtain ⟨instr, inst, site, target, index, name, -, hinst, -, -, -, hname, hmem⟩ := henters
      cases hinst
      have hget : name = "get" := List.mem_singleton.mp hmem
      rw [hget] at hname
      obtain ⟨before, after, hnames, -⟩ := List.lookup_eq_some_iff.mp hname
      have hmem : (index, "get") ∈ [(0, "main"), (1, "get2")] := by
        rw [show [(0, "main"), (1, "get2")] = before ++ (index, "get") :: after from hnames]
        simp
      simp at hmem
    · obtain ⟨instr, -, hmem⟩ := hat
      cases hmem
    · obtain ⟨instr, hinstr, hbreaks⟩ := hentry
      cases hinstr
      cases hbreaks
  · intro h
    have hregistered : Registered callEngine (getterSession { instMap := [1] }) :=
      .inr ⟨_, rfl, List.mem_singleton_self _⟩
    have hsignal := (signalsRight_of_breaks h (.refl _) hoffset).2 hregistered
    cases hsignal

end Debugger

end MotokoDebugger
