import MotokoDebugger.Debugger.Reports
import MotokoDebugger.Debugger.ShadowStack

/-!
# Stepping through the source

`debugger/src/commands/thread.rs`: the `thread` command and the line information it goes by.

* `ThreadCommand.run`: the command, with a bound on the number of steps it makes.
* `run_goesOn`: the next step of a command is made where the last one has ended.
* `overAtBreakpoints_iff`: the commands that are over once a step reports a breakpoint.
-/

namespace MotokoDebugger

namespace Debugger

open StateExcept Executor Runs

variable {T : Type}

/-! ## The command -/

/-- `ColumnType`. -/
inductive ColumnType where
  | leftEdge
  | column (column : Nat)
deriving Repr, DecidableEq

/-- `LineInfo`. -/
structure LineInfo where
  filepath : String
  line : Option Nat
  column : ColumnType
deriving Repr, DecidableEq

/-- What the command uses of `CommandContext`: `find_line_info` of the source map, and
`display_source`, which yields the text of its error where it fails. -/
structure CommandContext where
  findLineInfo : Nat → Option LineInfo
  displaySource : LineInfo → Option String

/-- `MainDebugger::selected_instr_offset`. -/
def selectedInstrOffset (env : Engine T) : DbgM T Nat := do
  requireExecutor
  let instr ← onMachine (fetch env)
  return instr.instrOffset

/-- `next_line_info`. -/
def nextLineInfo (env : Engine T) (context : CommandContext) : DbgM T (Option LineInfo) := do
  return context.findLineInfo (← selectedInstrOffset env)

/-- The end of a command that moves through the source. -/
def displayNext (env : Engine T) (context : CommandContext) : DbgM T Unit := do
  match ← nextLineInfo env context with
  | some lineInfo =>
    match context.displaySource lineInfo with
    | some text => bail text
    | none => return
  | none => return

/-- The options of `ThreadCommand` that make steps. -/
inductive ThreadOpts where
  | stepIn
  | stepOver
  | stepOut
  | stepInstIn
  | stepInstOver
deriving Repr, DecidableEq

/-- `StepStyle` of an option. -/
def ThreadOpts.style : ThreadOpts → StepStyle
  | .stepIn | .stepInstIn => .instIn
  | .stepOver | .stepInstOver => .instOver
  | .stepOut => .out

/-- Does the option step until the line changes? -/
def ThreadOpts.byLine : ThreadOpts → Bool
  | .stepIn | .stepOver => true
  | _ => false

/-- How a command stands. `goesOn`: it is about to make another step. `starved`: a step has taken
more instructions than it was allowed to. -/
inductive ThreadResult where
  | goesOn
  | starved
  | processFinish (results : List Val)
  | stopped (last : RunResult)
deriving Repr, DecidableEq

/-- The line of a command that starts where there is no line information. -/
def noLine : LineInfo := ⟨"", none, .leftEdge⟩

/-- Is the command still on the line it started on? Without line information it is. -/
def onLine (start : LineInfo) : Option LineInfo → Bool
  | some lineInfo =>
    decide (start.filepath = lineInfo.filepath) && decide (start.line = lineInfo.line)
  | none => true

/-- What a command does after a step that has not ended the program. -/
def afterThreadStep (env : Engine T) (context : CommandContext) (opts : ThreadOpts)
    (start : LineInfo) (ret : RunResult) : DbgM T ThreadResult := do
  if opts.byLine then
    -- the loop looks at the line only, not at what the step has reported
    if onLine start (← nextLineInfo env context) then
      return .goesOn
    else
      displayNext env context
      return .stopped ret
  else if opts = .stepOut then
    displayNext env context
    return .stopped ret
  else
    return .stopped ret

/-- A step of a command that has started at the line `start`. -/
def threadStep (env : Engine T) (context : CommandContext) (fuel : Nat) (opts : ThreadOpts)
    (start : LineInfo) : DbgM T ThreadResult := do
  match ← Debugger.step env opts.style fuel with
  | none => return .starved
  | some (.finish results) => return .processFinish results
  | some ret => afterThreadStep env context opts start ret

/-- The loop of a command, for a number of steps at most. -/
def threadSteps (env : Engine T) (context : CommandContext) (fuel : Nat) (opts : ThreadOpts)
    (start : LineInfo) : Nat → DbgM T ThreadResult
  | 0 => return .goesOn
  | steps + 1 => do
    match ← threadStep env context fuel opts start with
    | .goesOn => threadSteps env context fuel opts start steps
    | result => return result

/-- `ThreadCommand::run`, for the options that make steps. -/
def ThreadCommand.run (env : Engine T) (context : CommandContext) (fuel : Nat) (opts : ThreadOpts)
    (steps : Nat) : DbgM T ThreadResult := do
  if opts.byLine then
    let start := (← nextLineInfo env context).getD noLine
    threadSteps env context fuel opts start steps
  else threadSteps env context fuel opts noLine steps

variable {env : Engine T} {context : CommandContext} {fuel : Nat} {opts : ThreadOpts}

/-! ## Line information -/

/-- The line information for the instruction that is next. -/
def lineAt (env : Engine T) (context : CommandContext) (s : Session T) : Option LineInfo :=
  (env.instrAt s.machine.ip).bind fun instr => context.findLineInfo instr.instrOffset

lemma selectedInstrOffset_eq_ok {s s' : Session T} {offset : Nat} :
    selectedInstrOffset env s = .ok offset s' ↔ s.executor = .live ∧ s = s' ∧
      ∃ instr, env.instrAt s.machine.ip = some instr ∧ instr.instrOffset = offset := by
  simp only [selectedInstrOffset, bind_eq_ok, requireExecutor_eq_ok, onMachine_eq_ok, fetch_eq_ok,
    pure_apply, EStateM.Result.ok.injEq]
  constructor
  · rintro ⟨_, _, ⟨hlive, rfl⟩, instr, _, ⟨_, ⟨hinstr, rfl⟩, rfl⟩, rfl, rfl⟩
    exact ⟨hlive, rfl, instr, hinstr, rfl⟩
  · rintro ⟨hlive, rfl, instr, hinstr, rfl⟩
    exact ⟨(), s, ⟨hlive, rfl⟩, instr, s, ⟨s.machine, ⟨hinstr, rfl⟩, rfl⟩, rfl, rfl⟩

lemma nextLineInfo_eq_ok {s s' : Session T} {lineInfo : Option LineInfo} :
    nextLineInfo env context s = .ok lineInfo s' ↔ s.executor = .live ∧ s = s' ∧
      (env.instrAt s.machine.ip).isSome ∧ lineAt env context s = lineInfo := by
  simp only [nextLineInfo, bind_eq_ok, selectedInstrOffset_eq_ok, pure_apply,
    EStateM.Result.ok.injEq, lineAt]
  constructor
  · rintro ⟨_, _, ⟨hlive, rfl, instr, hinstr, rfl⟩, rfl, rfl⟩
    exact ⟨hlive, rfl, by rw [hinstr]; rfl, by rw [hinstr]; rfl⟩
  · rintro ⟨hlive, rfl, hsome, rfl⟩
    obtain ⟨instr, hinstr⟩ := Option.isSome_iff_exists.mp hsome
    exact ⟨instr.instrOffset, s, ⟨hlive, rfl, instr, hinstr, rfl⟩, by rw [hinstr]; rfl, rfl⟩

/-! ## Steps of a command -/

/-- A loop of steps ends with an executor. -/
lemma executor_of_stepWhile {continues : Nat → Bool} {s s' : Session T} {r : Option RunResult}
    (hlive : s.executor = .live) (hrun : stepWhile env continues fuel s = .ok r s') :
    s'.executor = .live := by
  have hsteps : ∀ {n : Nat} {s₁ : Session T}, Steps (GoesOn env continues) n s s₁ →
      s₁.executor = .live := fun hsteps =>
    hsteps.invariant (I := fun s => s.executor = .live)
      (fun _ _ hstep _ => (executeStep_keeps hstep.2).2.1) hlive
  have hloops := loops_stepWhile env continues fuel s
  rw [hrun] at hloops
  cases hloops with
  | starved h => exact hsteps h
  | left _ h => exact hsteps h
  | breakpoint _ _ hstep => exact (executeStep_keeps hstep).2.1
  | finished _ _ hstep => exact (executeStep_keeps hstep).2.1

/-- A first step ends with an executor, if what follows it does. -/
lemma executor_of_answer {rest : DbgM T (Option RunResult)} {s s' : Session T}
    {r : Option RunResult}
    (hrest : ∀ s₁, s₁.executor = .live → rest s₁ = .ok r s' → s'.executor = .live)
    (hrun : (executeStep env >>= answer env rest) s = .ok r s') : s'.executor = .live := by
  obtain ⟨sig, s₁, hstep, hrun⟩ := bind_eq_ok.mp hrun
  have hlive₁ := (executeStep_keeps hstep).2.1
  cases sig with
  | next => exact hrest s₁ hlive₁ hrun
  | breakpoint =>
    cases hrun
    exact hlive₁
  | end_ =>
    rcases @reportFinish_cases T env s₁ with ⟨_, _, h⟩ | ⟨_, _, h⟩ <;>
      rw [answer, h] at hrun <;> cases hrun
    exact hlive₁

/-- A step ends with an executor. -/
lemma executor_of_step {style : StepStyle} {s s' : Session T} {r : Option RunResult}
    (h : Debugger.step env style fuel s = .ok r s') : s'.executor = .live := by
  have hperform : (Request.step style).perform env fuel s = .ok r s' := h
  have hlive : s.executor = .live := live_of_perform hperform
  cases style with
  | instIn =>
    rw [step_instIn hlive] at h
    apply executor_of_answer _ h
    intro s₁ hlive₁ hrest
    cases hrest
    exact hlive₁
  | instOver =>
    rw [step_instOver hlive] at h
    apply executor_of_answer _ h
    intro s₁ hlive₁ hrest
    exact executor_of_stepWhile hlive₁ hrest
  | out =>
    rw [step_out hlive] at h
    obtain ⟨sig, s₁, hstep, hrun⟩ := bind_eq_ok.mp h
    exact executor_of_stepWhile (executeStep_keeps hstep).2.1 hrun

/-- The next step of a command is made where the ones before it have ended. -/
lemma threadSteps_goesOn {start : LineInfo} {n : Nat} {s s₁ : Session T}
    (h : threadSteps env context fuel opts start n s = .ok .goesOn s₁) (steps : Nat) :
    threadSteps env context fuel opts start (n + steps) s =
      threadSteps env context fuel opts start steps s₁ := by
  induction n generalizing s with
  | zero =>
    cases h
    rw [Nat.zero_add]
  | succ n ih =>
    rw [Nat.succ_add, threadSteps]
    rw [threadSteps] at h
    obtain ⟨result, s₂, hstep, h⟩ := bind_eq_ok.mp h
    rw [bind_ok hstep]
    cases result with
    | goesOn => exact ih h
    | starved => cases h
    | processFinish results => cases h
    | stopped last => cases h

lemma threadSteps_one {start : LineInfo} {s s' : Session T} :
    threadSteps env context fuel opts start 1 s = .ok .goesOn s' ↔
      threadStep env context fuel opts start s = .ok .goesOn s' := by
  rw [threadSteps, bind_eq_ok]
  constructor
  · rintro ⟨result, s₁, hstep, h⟩
    cases result with
    | goesOn =>
      cases h
      exact hstep
    | starved => cases h
    | processFinish results => cases h
    | stopped last => cases h
  · intro hstep
    exact ⟨.goesOn, s', hstep, rfl⟩

/-- The line on which a command starts. -/
def startLine (env : Engine T) (context : CommandContext) (opts : ThreadOpts) (s : Session T) :
    LineInfo :=
  if opts.byLine then (lineAt env context s).getD noLine else noLine

/-- A command that comes to make a step is its loop from the line it starts on. -/
lemma run_eq {n : Nat} {s s₁ : Session T}
    (h : ThreadCommand.run env context fuel opts n s = .ok .goesOn s₁) (steps : Nat) :
    ThreadCommand.run env context fuel opts steps s =
      threadSteps env context fuel opts (startLine env context opts s) steps s := by
  unfold ThreadCommand.run startLine at *
  by_cases hline : opts.byLine = true
  · rw [if_pos hline] at h ⊢
    rw [if_pos hline]
    obtain ⟨lineInfo, s₂, hnext, -⟩ := bind_eq_ok.mp h
    obtain ⟨-, rfl, -, rfl⟩ := nextLineInfo_eq_ok.mp hnext
    rw [bind_ok hnext]
  · rw [if_neg hline, if_neg hline]

/-- What a command does after the steps that have not ended it. -/
theorem run_goesOn {n : Nat} {s s₁ : Session T}
    (h : ThreadCommand.run env context fuel opts n s = .ok .goesOn s₁) (steps : Nat) :
    ThreadCommand.run env context fuel opts (n + steps) s =
      threadSteps env context fuel opts (startLine env context opts s) steps s₁ := by
  rw [run_eq h (n + steps)]
  exact threadSteps_goesOn ((run_eq h n).symm.trans h) steps

/-- The command goes on after a step that reports a breakpoint iff it goes by lines and is still on
its line. -/
lemma threadStep_breakpoint {start : LineInfo} {s s₂ s' : Session T}
    (hstep : Debugger.step env opts.style fuel s = .ok (some .breakpoint) s₂) :
    threadStep env context fuel opts start s = .ok .goesOn s' ↔
      opts.byLine = true ∧ s' = s₂ ∧ (env.instrAt s₂.machine.ip).isSome ∧
        onLine start (lineAt env context s₂) = true := by
  have hlive : s₂.executor = .live := executor_of_step hstep
  have hdisplay : ∀ {s₁ s' : Session T}, (do
      displayNext env context
      return .stopped .breakpoint : DbgM T ThreadResult) s₁ ≠ .ok .goesOn s' := by
    intro s₁ s' h
    obtain ⟨_, _, -, h⟩ := bind_eq_ok.mp h
    cases h
  rw [threadStep, bind_ok hstep]
  dsimp only [afterThreadStep]
  by_cases hline : opts.byLine = true
  · simp only [hline, if_true, bind_eq_ok, nextLineInfo_eq_ok, true_and]
    constructor
    · rintro ⟨lineInfo, _, ⟨-, rfl, hsome, rfl⟩, h⟩
      by_cases hon : onLine start (lineAt env context s₂) = true
      · rw [if_pos hon] at h
        cases h
        exact ⟨rfl, hsome, hon⟩
      · rw [if_neg hon] at h
        exact absurd h hdisplay
    · rintro ⟨rfl, hsome, hon⟩
      exact ⟨_, s', ⟨hlive, rfl, hsome, rfl⟩, by rw [if_pos hon]; rfl⟩
  · rw [if_neg hline]
    refine iff_of_false (fun h => ?_) fun h => hline h.1
    by_cases hout : opts = .stepOut
    · rw [if_pos hout] at h
      exact hdisplay h
    · rw [if_neg hout] at h
      cases h

/-! ## Main result -/

/-- The instruction that is next, if there is one, has line information, for another line than
`start`. -/
def LeavesLine (env : Engine T) (context : CommandContext) (start : LineInfo) (s : Session T) :
    Prop :=
  ∀ instr, env.instrAt s.machine.ip = some instr →
    ∃ lineInfo, context.findLineInfo instr.instrOffset = some lineInfo ∧
      (start.filepath ≠ lineInfo.filepath ∨ start.line ≠ lineInfo.line)

lemma leavesLine_iff {start : LineInfo} {s : Session T} :
    LeavesLine env context start s ↔
      ¬ ((env.instrAt s.machine.ip).isSome ∧ onLine start (lineAt env context s) = true) := by
  cases hinstr : env.instrAt s.machine.ip with
  | none => simp [LeavesLine, hinstr]
  | some instr =>
    cases hline : context.findLineInfo instr.instrOffset with
    | none => simp [LeavesLine, lineAt, hinstr, hline, onLine]
    | some lineInfo =>
      simp only [LeavesLine, lineAt, hinstr, Option.bind_some, hline, onLine, Option.some.injEq,
        forall_eq', exists_eq_left', Option.isSome_some, true_and, Bool.and_eq_true,
        decide_eq_true_eq]
      tauto

/-- The command is over once a step has reported a breakpoint: when it comes to make a step, and
that step reports one, it does not make another one. -/
def OverAtBreakpoints (env : Engine T) (context : CommandContext) (fuel : Nat) (opts : ThreadOpts)
    (s : Session T) : Prop :=
  ∀ n s₁ s₂, ThreadCommand.run env context fuel opts n s = .ok .goesOn s₁ →
    Debugger.step env opts.style fuel s₁ = .ok (some .breakpoint) s₂ →
    ∀ s', ThreadCommand.run env context fuel opts (n + 1) s ≠ .ok .goesOn s'

/-- A command is over at every breakpoint if and only if, where it steps by lines, each breakpoint
that a step of it reports is on another line than the one it has started on. -/
theorem overAtBreakpoints_iff {s : Session T} :
    OverAtBreakpoints env context fuel opts s ↔
      (opts.byLine = true → ∀ n s₁ s₂,
        ThreadCommand.run env context fuel opts n s = .ok .goesOn s₁ →
        Debugger.step env opts.style fuel s₁ = .ok (some .breakpoint) s₂ →
        LeavesLine env context (startLine env context opts s) s₂) := by
  have hnext : ∀ {n s₁ s₂}, ThreadCommand.run env context fuel opts n s = .ok .goesOn s₁ →
      Debugger.step env opts.style fuel s₁ = .ok (some .breakpoint) s₂ → ∀ s',
      ThreadCommand.run env context fuel opts (n + 1) s = .ok .goesOn s' ↔
        opts.byLine = true ∧ s' = s₂ ∧ (env.instrAt s₂.machine.ip).isSome ∧
          onLine (startLine env context opts s) (lineAt env context s₂) = true := by
    intro n s₁ s₂ hrun hstep s'
    rw [run_goesOn hrun, threadSteps_one]
    exact threadStep_breakpoint hstep
  constructor
  · intro hover hline n s₁ s₂ hrun hstep
    apply leavesLine_iff.mpr
    rintro ⟨hsome, hon⟩
    exact hover n s₁ s₂ hrun hstep s₂ ((hnext hrun hstep s₂).mpr ⟨hline, rfl, hsome, hon⟩)
  · intro hleaves n s₁ s₂ hrun hstep s' hagain
    obtain ⟨hline, -, hsome, hon⟩ := (hnext hrun hstep s').mp hagain
    exact leavesLine_iff.mp (hleaves hline n s₁ s₂ hrun hstep) ⟨hsome, hon⟩

/-- The debugger at the call of a function with a breakpoint. -/
def breakpointSession : Session Unit :=
  { callSession 1 with
    inst := some { inner := 0, importFuncLen := 0, funcNames := [(1, "f")], exportedFuncs := [] }
    runFunc := some 0
    breakpoints := { functionMap := ["f"] } }

/-- A source map without any line information. -/
def noLines : CommandContext := ⟨fun _ => none, fun _ => none⟩

/-- Without line information `thread step-in` runs through the breakpoint at the function, to the
end of the program. -/
theorem stepIn_passes_breakpoint :
    returned (Debugger.step callEngine .instIn 0 breakpointSession) = some (some .breakpoint) ∧
      returned (ThreadCommand.run callEngine noLines 0 .stepIn 3 breakpointSession) =
        some (.processFinish []) ∧
      ¬ OverAtBreakpoints callEngine noLines 0 .stepIn breakpointSession := by
  refine ⟨rfl, rfl, fun hover => ?_⟩
  have hstart : ThreadCommand.run callEngine noLines 0 .stepIn 0 breakpointSession =
      .ok .goesOn breakpointSession := rfl
  exact hover 0 _ _ hstart (eq_ok_of_returned rfl) _ (eq_ok_of_returned rfl)

end Debugger

end MotokoDebugger
