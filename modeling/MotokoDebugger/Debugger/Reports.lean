import MotokoDebugger.Debugger.Finish

/-!
# What a step request reports

* `Makes`: what a single step amounts to, in terms of the plain loop and of the breakpoints.
* `Reports`: what the user is promised of a request: it goes on until the root function returns, a
  breakpoint is signalled, or the depth of the frames is the one that the style asks for.
* `stepsAsPromised_iff`: when `step` keeps that promise.
-/

namespace MotokoDebugger

namespace Debugger

open StateExcept Executor Runs

variable {T : Type} {env : Engine T}

/-! ## One step -/

/-- The step ahead signals a breakpoint: at the entry of the main file, or at the function that it
calls. -/
def HitsBreakpoint (env : Engine T) (s : Session T) : Prop :=
  ∃ instr inst report m idx, env.instrAt s.machine.ip = some instr ∧ s.inst = some inst ∧
    executeInstr env inst.importFuncLen instr.op s.machine = .ok report m ∧
    reportedIdx m report = some idx ∧
    (entryBreaks s instr.instrOffset = true ∨ callSignal s idx = .breakpoint)

/-- What a step amounts to. -/
inductive Event where
  | returned
  | breakpoint
  | quiet
deriving Repr, DecidableEq

/-- A step from `s` to `s'`: the root function returns, or else a breakpoint is signalled, or
neither. -/
inductive Makes (env : Engine T) (s s' : Session T) : Event → Prop where
  | returned {sig : Signal} (hstep : executeStep env s = .ok sig s')
    (hroot : executeOne env s.machine = .ok .break_ s'.machine) : Makes env s s' .returned
  | breakpoint {sig : Signal} (hstep : executeStep env s = .ok sig s')
    (hroot : executeOne env s.machine = .ok .continue_ s'.machine)
    (hhit : HitsBreakpoint env s) : Makes env s s' .breakpoint
  | quiet {sig : Signal} (hstep : executeStep env s = .ok sig s')
    (hroot : executeOne env s.machine = .ok .continue_ s'.machine)
    (hhit : ¬ HitsBreakpoint env s) : Makes env s s' .quiet

/-- The signal of a step. -/
def Event.signal : Event → Signal
  | .returned => .end_
  | .breakpoint => .breakpoint
  | .quiet => .next

lemma combineSignals_eq_breakpoint {sigInst sigCall sig : Signal} (hinst : sigInst ≠ .end_)
    (hcall : sigCall ≠ .end_) (hsig : sig = .next) :
    combineSignals sigInst sigCall sig = .breakpoint ↔
      sigInst = .breakpoint ∨ sigCall = .breakpoint := by
  subst hsig
  cases sigInst <;> cases sigCall <;> simp_all [combineSignals]

lemma instSignal_eq_breakpoint {s : Session T} {instrOffset : Nat} :
    instSignal s instrOffset = .breakpoint ↔ entryBreaks s instrOffset = true := by
  unfold instSignal
  split <;> simp_all

/-- The signal of an instruction is that of the plain loop. -/
lemma signal_of_executeInstr {s s' : Session T} {instr : Instruction} {inst : InstanceWithName}
    {report : InstrReport} {flow : ControlFlow} (hready : Ready env s.machine)
    (hinstr : env.instrAt s.machine.ip = some instr)
    (hexec : executeInstr env inst.importFuncLen instr.op s.machine = .ok report s'.machine)
    (hone : executeOne env s.machine = .ok flow s'.machine) : report.signal = signalOf flow := by
  obtain ⟨flow', hop, hreport⟩ := (executeInstr_eq_ok (frames_of_ready hready hinstr)).mp hexec
  have hone' : executeOne env s.machine = .ok flow' s'.machine :=
    executeOne_eq_ok.mpr ⟨instr, hinstr, hop⟩
  have hflow : flow' = flow := by
    rw [hone] at hone'
    cases hone'
    rfl
  rw [← hreport, ← hflow]
  exact reportOf_signal _ _ _ _ fun hbreak => isReturn_of_break (hbreak ▸ hop)

/-- A step that goes on signals a breakpoint iff it hits one. -/
lemma signal_breakpoint_iff {s s' : Session T} {sig : Signal} (hready : Ready env s.machine)
    (hstep : executeStep env s = .ok sig s')
    (hone : executeOne env s.machine = .ok .continue_ s'.machine) :
    sig = .breakpoint ↔ HitsBreakpoint env s := by
  obtain ⟨-, instr, inst, report, m, idx, hinstr, hinst, hexec, hidx, hsig, hs⟩ :=
    executeStep_eq_ok.mp hstep
  have hm : s'.machine = m := by rw [← hs, afterStep_machine]
  have hreport : report.signal = .next :=
    signal_of_executeInstr hready hinstr (hm.symm ▸ hexec) hone
  have hcombined : sig = .breakpoint ↔
      entryBreaks s instr.instrOffset = true ∨ callSignal s idx = .breakpoint := by
    rw [← hsig, ← instSignal_eq_breakpoint]
    exact combineSignals_eq_breakpoint (instSignal_ne_end s _) (callSignal_ne_end s _) hreport
  rw [hcombined]
  constructor
  · intro hhit
    exact ⟨instr, inst, report, m, idx, hinstr, hinst, hexec, hidx, hhit⟩
  · rintro ⟨instr', inst', report', m', idx', hinstr', hinst', hexec', hidx', hhit⟩
    -- the instruction and what it reports are determined by the state
    cases hinstr.symm.trans hinstr'
    cases hinst.symm.trans hinst'
    cases hexec.symm.trans hexec'
    cases hidx.symm.trans hidx'
    exact hhit

/-- The signal of a step says what the step amounts to. -/
theorem makes_iff {s s' : Session T} {event : Event} (hready : Ready env s.machine) :
    Makes env s s' event ↔ executeStep env s = .ok event.signal s' := by
  constructor
  · intro h
    have hone := fun sig (hstep : executeStep env s = .ok sig s') =>
      executeStep_executeOne hready hstep
    cases h with
    | @returned sig hstep hroot =>
      obtain ⟨flow, hflow, hend⟩ := hone sig hstep
      rw [hroot] at hflow
      cases hflow
      rw [hstep, hend.mpr rfl]
      rfl
    | breakpoint hstep hroot hhit =>
      rw [hstep, (signal_breakpoint_iff hready hstep hroot).mpr hhit]
      rfl
    | @quiet sig hstep hroot hhit =>
      obtain ⟨flow, hflow, hend⟩ := hone sig hstep
      rw [hroot] at hflow
      cases hflow
      have hbreakpoint := mt (signal_breakpoint_iff hready hstep hroot).mp hhit
      rw [hstep]
      cases sig with
      | next => rfl
      | breakpoint => exact absurd rfl hbreakpoint
      | end_ => cases hend.mp rfl
  · intro hstep
    obtain ⟨flow, hroot, hend⟩ := executeStep_executeOne hready hstep
    have hiff := fun hcontinue => signal_breakpoint_iff hready hstep hcontinue
    cases event with
    | returned =>
      rw [hend.mp rfl] at hroot
      exact .returned hstep hroot
    | breakpoint =>
      cases flow with
      | break_ => cases hend.mpr rfl
      | continue_ => exact .breakpoint hstep hroot ((hiff hroot).mp rfl)
    | quiet =>
      cases flow with
      | break_ => cases hend.mpr rfl
      | continue_ => exact .quiet hstep hroot (mt (hiff hroot).mpr nofun)

/-- A program is ready after a step in which the root function has not returned. -/
lemma Makes.ready {s s' : Session T} {event : Event} (hready : Ready env s.machine)
    (h : Makes env s s' event) (hevent : event ≠ .returned) : Ready env s'.machine := by
  cases h with
  | returned => exact absurd rfl hevent
  | breakpoint _ hroot => exact ready_of_continues hready hroot
  | quiet _ hroot => exact ready_of_continues hready hroot

/-- There is one outcome of a step. -/
lemma Makes.unique {s s₁ s₂ : Session T} {event₁ event₂ : Event} (hready : Ready env s.machine)
    (h₁ : Makes env s s₁ event₁) (h₂ : Makes env s s₂ event₂) : event₁ = event₂ ∧ s₁ = s₂ := by
  rw [makes_iff hready] at h₁ h₂
  have heq := h₁.symm.trans h₂
  injection heq with hsignal hstate
  refine ⟨?_, hstate⟩
  cases event₁ <;> cases event₂ <;> first | rfl | cases hsignal

/-! ## The promise -/

/-- `frame_depth`. -/
def frameDepth (s : Session T) : Nat := s.machine.stack.calls.frames.length

/-- The depth at which a request made at depth `depth` stops. -/
def StepStyle.stopsAt (depth : Nat) : StepStyle → Session T → Prop
  | .instIn, _ => True
  | .instOver, s => frameDepth s ≤ depth
  | .out, s => frameDepth s < depth

/-- What a request reports, and the state it leaves, after one instruction and `n` further ones. -/
inductive Reports (env : Engine T) (style : StepStyle) (depth : Nat) :
    Nat → Session T → RunResult → Session T → Prop where
  | finish {s s' : Session T} {results : List Val} : Makes env s s' .returned →
      getFinishResult env s' = .ok results s' →
      Reports env style depth 0 s (.finish results) s'
  | breakpoint {s s' : Session T} : Makes env s s' .breakpoint →
      Reports env style depth 0 s .breakpoint s'
  | next {s s' : Session T} : Makes env s s' .quiet → style.stopsAt depth s' →
      Reports env style depth 0 s .next s'
  | later {n : Nat} {s s₁ s' : Session T} {r : RunResult} : Makes env s s₁ .quiet →
      ¬ style.stopsAt depth s₁ → Reports env style depth n s₁ r s' →
      Reports env style depth (n + 1) s r s'

/-- `step` reports what the request is promised to report and leaves that state, and it takes no
more instructions to do so. -/
structure StepsAsPromised (env : Engine T) (style : StepStyle) (s : Session T) : Prop where
  sound : ∀ fuel r s', Debugger.step env style fuel s = .ok (some r) s' →
    ∃ n, Reports env style (frameDepth s) n s r s'
  complete : ∀ n r s', Reports env style (frameDepth s) n s r s' →
    Debugger.step env style (n + 1) s = .ok (some r) s'

/-! ## The loop -/

/-- The answer to the signal of a step: `rest` where it goes on. -/
def answer (env : Engine T) (rest : DbgM T (Option RunResult)) :
    Signal → DbgM T (Option RunResult)
  | .next => rest
  | .breakpoint => return some .breakpoint
  | .end_ => reportFinish env

/-- What a step and the answer to its signal come to. -/
lemma answer_eq_ok {rest : DbgM T (Option RunResult)} {s s' : Session T} {r : RunResult}
    (hready : Ready env s.machine) :
    (executeStep env >>= answer env rest) s = .ok (some r) s' ↔
      (∃ results, Makes env s s' .returned ∧ getFinishResult env s' = .ok results s' ∧
          r = .finish results) ∨
        (Makes env s s' .breakpoint ∧ r = .breakpoint) ∨
        ∃ s₁, Makes env s s₁ .quiet ∧ rest s₁ = .ok (some r) s' := by
  simp only [makes_iff hready]
  cases hstep : executeStep env s with
  | error stop s₁ => simp [bind_error hstep]
  | ok sig s₁ =>
    rw [bind_ok hstep]
    cases sig with
    | next => simp [answer, Event.signal]
    | breakpoint => simp [answer, Event.signal, eq_comm, and_comm]
    | end_ =>
      simp only [answer, Event.signal]
      rcases @reportFinish_cases T env s₁ with ⟨results, hresults, h⟩ | ⟨stop, hresults, h⟩
      · rw [h]
        constructor
        · intro heq
          cases heq
          exact .inl ⟨results, rfl, hresults, rfl⟩
        · rintro (⟨results', heq, hresults', rfl⟩ | ⟨heq, -⟩ | ⟨_, heq, -⟩) <;> cases heq
          rw [hresults] at hresults'
          cases hresults'
          rfl
      · rw [h]
        constructor
        · nofun
        · rintro (⟨results', heq, hresults', -⟩ | ⟨heq, -⟩ | ⟨_, heq, -⟩) <;> cases heq
          rw [hresults] at hresults'
          cases hresults'

lemma stepWhile_succ (continues : Nat → Bool) (fuel : Nat) (s : Session T) :
    stepWhile env continues (fuel + 1) s =
      if continues (frameDepth s) then
        (executeStep env >>= answer env (stepWhile env continues fuel)) s
      else .ok (some .next) s := by
  rw [stepWhile, get_bind]
  unfold frameDepth
  split <;> rfl

section Loop

variable {style : StepStyle} {depth : Nat} {continues : Nat → Bool}

/-- The loop stops where the style does. -/
def Guards (continues : Nat → Bool) (style : StepStyle) (depth : Nat) (T : Type) : Prop :=
  ∀ s : Session T, continues (frameDepth s) = true ↔ ¬ style.stopsAt depth s

lemma stepWhile_sound (hguard : Guards continues style depth T) {fuel : Nat} {s s' : Session T}
    {r : RunResult} (hready : Ready env s.machine)
    (h : stepWhile env continues fuel s = .ok (some r) s') :
    (style.stopsAt depth s ∧ r = .next ∧ s' = s) ∨
      ¬ style.stopsAt depth s ∧ ∃ n, Reports env style depth n s r s' := by
  induction fuel generalizing s with
  | zero => cases h
  | succ fuel ih =>
    rw [stepWhile_succ] at h
    by_cases hstops : style.stopsAt depth s
    · have hfalse : ¬ continues (frameDepth s) = true := fun htrue => (hguard s).mp htrue hstops
      rw [if_neg hfalse] at h
      cases h
      exact .inl ⟨hstops, rfl, rfl⟩
    · right
      refine ⟨hstops, ?_⟩
      rw [if_pos ((hguard s).mpr hstops), answer_eq_ok hready] at h
      rcases h with ⟨results, hmakes, hresults, rfl⟩ | ⟨hmakes, rfl⟩ | ⟨s₁, hmakes, hrest⟩
      · exact ⟨0, .finish hmakes hresults⟩
      · exact ⟨0, .breakpoint hmakes⟩
      · rcases ih (hmakes.ready hready nofun) hrest with ⟨hat, rfl, rfl⟩ | ⟨hnot, n, hreports⟩
        · exact ⟨0, .next hmakes hat⟩
        · exact ⟨n + 1, .later hmakes hnot hreports⟩

/-- A loop that starts where the style stops. -/
lemma stepWhile_at (hguard : Guards continues style depth T) (fuel : Nat) {s : Session T}
    (hstops : style.stopsAt depth s) :
    stepWhile env continues (fuel + 1) s = .ok (some .next) s := by
  have hfalse : ¬ continues (frameDepth s) = true := fun htrue => (hguard s).mp htrue hstops
  rw [stepWhile_succ, if_neg hfalse]

lemma stepWhile_complete (hguard : Guards continues style depth T) {n : Nat} {s s' : Session T}
    {r : RunResult} (hready : Ready env s.machine) (hnot : ¬ style.stopsAt depth s)
    (h : Reports env style depth n s r s') :
    stepWhile env continues (n + 2) s = .ok (some r) s' := by
  induction h with
  | finish hmakes hresults =>
    rw [stepWhile_succ, if_pos ((hguard _).mpr hnot), answer_eq_ok hready]
    exact .inl ⟨_, hmakes, hresults, rfl⟩
  | breakpoint hmakes =>
    rw [stepWhile_succ, if_pos ((hguard _).mpr hnot), answer_eq_ok hready]
    exact .inr (.inl ⟨hmakes, rfl⟩)
  | next hmakes hstops =>
    rw [stepWhile_succ, if_pos ((hguard _).mpr hnot), answer_eq_ok hready]
    exact .inr (.inr ⟨_, hmakes, stepWhile_at hguard 0 hstops⟩)
  | @later n s s₁ s' r hmakes hstops _ ih =>
    rw [stepWhile_succ, if_pos ((hguard _).mpr hnot), answer_eq_ok hready]
    exact .inr (.inr ⟨_, hmakes, ih (hmakes.ready hready nofun) hstops⟩)

/-- One step, then the loop. -/
lemma promised_of_answer (hguard : Guards continues style depth T) {s : Session T}
    (hready : Ready env s.machine) :
    (∀ fuel r s', (executeStep env >>= answer env (stepWhile env continues fuel)) s =
        .ok (some r) s' → ∃ n, Reports env style depth n s r s') ∧
      ∀ n r s', Reports env style depth n s r s' →
        (executeStep env >>= answer env (stepWhile env continues (n + 1))) s = .ok (some r) s' := by
  constructor
  · intro fuel r s' h
    rw [answer_eq_ok hready] at h
    rcases h with ⟨results, hmakes, hresults, rfl⟩ | ⟨hmakes, rfl⟩ | ⟨s₁, hmakes, hrest⟩
    · exact ⟨0, .finish hmakes hresults⟩
    · exact ⟨0, .breakpoint hmakes⟩
    · rcases stepWhile_sound hguard (hmakes.ready hready nofun) hrest with
        ⟨hat, rfl, rfl⟩ | ⟨hnot, n, hreports⟩
      · exact ⟨0, .next hmakes hat⟩
      · exact ⟨n + 1, .later hmakes hnot hreports⟩
  · intro n r s' h
    rw [answer_eq_ok hready]
    cases h with
    | finish hmakes hresults => exact .inl ⟨_, hmakes, hresults, rfl⟩
    | breakpoint hmakes => exact .inr (.inl ⟨hmakes, rfl⟩)
    | next hmakes hstops => exact .inr (.inr ⟨_, hmakes, stepWhile_at hguard 0 hstops⟩)
    | later hmakes hnot hreports =>
      exact .inr (.inr ⟨_, hmakes,
        stepWhile_complete hguard (hmakes.ready hready nofun) hnot hreports⟩)

end Loop

/-! ## A breakpoint is a change -/

/-- Only a call is reported with an index, and it pops no frame. -/
lemma isPopFrame_of_callIdx {importFuncLen : Nat} {op : Op} {flow : ControlFlow}
    {pulled : Option (Nat × Nat)} (h : (reportOf importFuncLen op flow pulled).callIdx ≠ -1) :
    (reportOf importFuncLen op flow pulled).isPopFrame = false := by
  unfold reportOf at h ⊢
  cases hcall : op.callSite with
  | some site =>
    simp only [CallSite.report]
    split <;> rfl
  | none =>
    rw [hcall] at h
    dsimp only at h
    split at h <;> exact absurd rfl h

lemma afterStep_isInterrupted (s : Session T) (instrOffset : Nat) (m : Machine T)
    (report : InstrReport) (idx : Option Nat) :
    (afterStep s instrOffset m report idx).isInterrupted =
      (s.isInterrupted && !entryBreaks s instrOffset) := by
  have hafter : (afterInst s instrOffset).isInterrupted =
      (s.isInterrupted && !entryBreaks s instrOffset) := by
    unfold afterInst
    split <;> simp_all
  rw [← hafter]
  unfold afterStep afterCall
  cases idx <;> cases report.isPopFrame <;> rfl

/-- A step that signals a breakpoint leaves another state: the breakpoint at the entry is used up,
or the function called is listed. -/
lemma Makes.ne_of_breakpoint {s s' : Session T} (hready : Ready env s.machine)
    (h : Makes env s s' .breakpoint) : s' ≠ s := by
  intro heq
  cases h with
  | breakpoint hstep hroot hhit =>
    obtain ⟨-, instr, inst, report, m, idx, hinstr, hinst, hexec, hidx, -, hs⟩ :=
      executeStep_eq_ok.mp hstep
    obtain ⟨instr', inst', report', m', idx', hinstr', hinst', hexec', hidx', hhit⟩ := hhit
    cases hinstr.symm.trans hinstr'
    cases hinst.symm.trans hinst'
    cases hexec.symm.trans hexec'
    cases hidx.symm.trans hidx'
    rw [heq] at hs
    rcases hhit with hentry | hcall
    · have hflag := afterStep_isInterrupted s instr.instrOffset m report idx
      have hset : s.isInterrupted = true := by
        unfold entryBreaks at hentry
        exact (Bool.and_eq_true_iff.mp hentry).1
      rw [hs, hentry, hset] at hflag
      cases hflag
    · cases idx with
      | none => cases hcall
      | some func =>
        obtain ⟨flow, -, hreport⟩ := (executeInstr_eq_ok (frames_of_ready hready hinstr)).mp hexec
        have hcallIdx : report.callIdx ≠ -1 := by
          intro hnone
          rw [reportedIdx, if_pos hnone] at hidx
          cases hidx
        have hpop : report.isPopFrame = false := by
          rw [← hreport] at hcallIdx ⊢
          exact isPopFrame_of_callIdx hcallIdx
        have hlisted := afterStep_invoked s instr.instrOffset m report (some func)
        rw [hs, hpop] at hlisted
        have hlen := congrArg List.length hlisted
        simp at hlen

/-! ## The request -/

section Step

variable {s : Session T}

lemma step_instIn (hlive : s.executor = .live) (fuel : Nat) :
    Debugger.step env .instIn fuel s =
      (executeStep env >>= answer env (pure (some .next))) s := by
  have hrequire : requireExecutor s = .ok () s := requireExecutor_eq_ok.mpr ⟨hlive, rfl⟩
  rw [Debugger.step, bind_ok hrequire, get_bind]
  rfl

lemma step_instOver (hlive : s.executor = .live) (fuel : Nat) :
    Debugger.step env .instOver fuel s =
      (executeStep env >>= answer env
        (stepWhile env (fun depth => decide (frameDepth s < depth)) fuel)) s := by
  have hrequire : requireExecutor s = .ok () s := requireExecutor_eq_ok.mpr ⟨hlive, rfl⟩
  rw [Debugger.step, bind_ok hrequire, get_bind]
  rfl

lemma step_out (hlive : s.executor = .live) (fuel : Nat) :
    Debugger.step env .out fuel s =
      (executeStep env >>= fun _ =>
        stepWhile env (fun depth => decide (frameDepth s ≤ depth)) fuel) s := by
  have hrequire : requireExecutor s = .ok () s := requireExecutor_eq_ok.mpr ⟨hlive, rfl⟩
  rw [Debugger.step, bind_ok hrequire, get_bind]
  rfl

lemma guards_instOver (depth : Nat) :
    Guards (fun frames => decide (depth < frames)) .instOver depth T := by
  intro s
  show decide _ = true ↔ ¬ frameDepth s ≤ depth
  rw [decide_eq_true_iff]
  omega

lemma guards_out (depth : Nat) :
    Guards (fun frames => decide (depth ≤ frames)) .out depth T := by
  intro s
  show decide _ = true ↔ ¬ frameDepth s < depth
  rw [decide_eq_true_iff]
  omega

lemma promised_instIn (hlive : s.executor = .live) (hready : Ready env s.machine) :
    StepsAsPromised env .instIn s := by
  constructor
  · intro fuel r s' h
    rw [step_instIn hlive, answer_eq_ok hready] at h
    rcases h with ⟨results, hmakes, hresults, rfl⟩ | ⟨hmakes, rfl⟩ | ⟨s₁, hmakes, hrest⟩
    · exact ⟨0, .finish hmakes hresults⟩
    · exact ⟨0, .breakpoint hmakes⟩
    · cases hrest
      exact ⟨0, .next hmakes trivial⟩
  · intro n r s' h
    rw [step_instIn hlive, answer_eq_ok hready]
    cases h with
    | finish hmakes hresults => exact .inl ⟨_, hmakes, hresults, rfl⟩
    | breakpoint hmakes => exact .inr (.inl ⟨hmakes, rfl⟩)
    | next hmakes => exact .inr (.inr ⟨_, hmakes, rfl⟩)
    | later _ hnot => exact absurd trivial hnot

lemma promised_instOver (hlive : s.executor = .live) (hready : Ready env s.machine) :
    StepsAsPromised env .instOver s := by
  obtain ⟨hsound, hcomplete⟩ := promised_of_answer (guards_instOver (frameDepth s)) hready
  constructor
  · intro fuel r s' h
    rw [step_instOver hlive] at h
    exact hsound fuel r s' h
  · intro n r s' h
    rw [step_instOver hlive]
    exact hcomplete n r s' h

/-- Where the first step is quiet, `Out` answers its signal like the other styles. -/
lemma promised_out (hlive : s.executor = .live) (hready : Ready env s.machine)
    (hquiet : ∀ event s', Makes env s s' event → event = .quiet) :
    StepsAsPromised env .out s := by
  obtain ⟨hsound, hcomplete⟩ := promised_of_answer (guards_out (frameDepth s)) hready
  have hanswer : ∀ fuel, Debugger.step env .out fuel s = (executeStep env >>= answer env
      (stepWhile env (fun depth => decide (frameDepth s ≤ depth)) fuel)) s := by
    intro fuel
    rw [step_out hlive]
    cases hstep : executeStep env s with
    | error stop s₁ => rw [bind_error hstep, bind_error hstep]
    | ok sig s₁ =>
      have hnext : sig = .next := by
        cases sig with
        | next => rfl
        | breakpoint => cases hquiet .breakpoint s₁ ((makes_iff hready).mpr hstep)
        | end_ => cases hquiet .returned s₁ ((makes_iff hready).mpr hstep)
      rw [bind_ok hstep, bind_ok hstep, hnext]
      rfl
  constructor
  · intro fuel r s' h
    rw [hanswer] at h
    exact hsound fuel r s' h
  · intro n r s' h
    rw [hanswer]
    exact hcomplete n r s' h

/-- `Out` makes a further step after one that signals a breakpoint, or stops as if there was
none. -/
lemma not_promised_of_breakpoint {s₁ : Session T} (hlive : s.executor = .live)
    (hready : Ready env s.machine) (h : Makes env s s₁ .breakpoint) :
    ¬ StepsAsPromised env .out s := by
  intro hpromise
  have hstep := (makes_iff hready).mp h
  have hone := hpromise.complete 0 _ _ (.breakpoint h)
  rw [step_out hlive, bind_ok hstep, stepWhile_succ] at hone
  split at hone
  · rw [answer_eq_ok (h.ready hready nofun)] at hone
    rcases hone with ⟨_, _, _, hr⟩ | ⟨hagain, -⟩ | ⟨_, _, hrest⟩
    · cases hr
    · exact hagain.ne_of_breakpoint (h.ready hready nofun) rfl
    · cases hrest
  · cases hone

/-- `Out` says nothing of a root function that returns in the first step. -/
lemma not_promised_of_returned {s₁ : Session T} (hlive : s.executor = .live)
    (hframes : s.machine.stack.calls.frames ≠ []) (h : Makes env s s₁ .returned) :
    ¬ StepsAsPromised env .out s := by
  intro hpromise
  have hready : Ready env s.machine := .inl hframes
  have hstep := (makes_iff hready).mp h
  -- no frame is left, so the depth is below that of the request
  have hstops : StepStyle.out.stopsAt (frameDepth s) s₁ := by
    show s₁.machine.stack.calls.frames.length < frameDepth s
    rw [frames_of_end hready hstep]
    exact List.length_pos_iff.mpr hframes
  have hnext : Debugger.step env .out 1 s = .ok (some .next) s₁ := by
    rw [step_out hlive, bind_ok hstep]
    exact stepWhile_at (guards_out _) 0 hstops
  obtain ⟨n, hreports⟩ := hpromise.sound _ _ _ hnext
  cases hreports with
  | next hmakes => cases (hmakes.unique hready h).1
  | later hmakes => cases (hmakes.unique hready h).1

end Step

/-! ## Main result -/

/-- A request for a step keeps its promise unless it is an `Out` whose first step, if it succeeds,
returns from the root function or signals a breakpoint. -/
theorem stepsAsPromised_iff {s : Session T} (hlive : s.executor = .live)
    (hframes : s.machine.stack.calls.frames ≠ []) (style : StepStyle) :
    StepsAsPromised env style s ↔
      (style = .out → ∀ event s', Makes env s s' event → event = .quiet) := by
  have hready : Ready env s.machine := .inl hframes
  cases style with
  | instIn => exact iff_of_true (promised_instIn hlive hready) nofun
  | instOver => exact iff_of_true (promised_instOver hlive hready) nofun
  | out =>
    constructor
    · intro hpromise _ event s' hmakes
      cases event with
      | quiet => rfl
      | breakpoint => exact absurd hpromise (not_promised_of_breakpoint hlive hready hmakes)
      | returned => exact absurd hpromise (not_promised_of_returned hlive hframes hmakes)
    · intro hquiet
      exact promised_out hlive hready (hquiet rfl)

/-- A step into the return of the root function. -/
theorem stepsAsPromised_iff_returnReg :
    StepsAsPromised returnEngine .instIn (returnSession "0") ↔
      (StepStyle.instIn = .out → ∀ event s', Makes returnEngine (returnSession "0") s' event →
        event = .quiet) :=
  stepsAsPromised_iff rfl (by decide) .instIn

/-- An `Out` from the return of the root function reports `Next`, not its results. -/
theorem out_swallows_finish :
    returned (Debugger.step returnEngine .instIn 1 (returnSession "0")) =
        some (some (.finish [⟨.i32, 7⟩])) ∧
      returned (Debugger.step returnEngine .out 1 (returnSession "0")) = some (some .next) ∧
      ¬ StepsAsPromised returnEngine .out (returnSession "0") := by
  refine ⟨rfl, rfl, fun hpromise => ?_⟩
  have hframes : (returnSession "0").machine.stack.calls.frames ≠ [] := by decide
  have hmakes : Makes returnEngine (returnSession "0")
      (finalState (executeStep returnEngine (returnSession "0"))) .returned :=
    (makes_iff (.inl hframes)).mpr (eq_ok_of_returned rfl)
  exact not_promised_of_returned rfl hframes hmakes hpromise

end Debugger

end MotokoDebugger
