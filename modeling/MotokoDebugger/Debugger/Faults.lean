import MotokoDebugger.Debugger.CacheRuns
import MotokoDebugger.Debugger.Requests
import MotokoDebugger.Executor.InPlace

/-!
# Requests after a fault

The debugger keeps its executor after a step that fails: the next request goes on where the failed
instruction has left it.

* `Stopped`: the next step fails, and leaves everything as it is.
* `unmoved_after_fault`: after an instruction that fails in place, no request moves the program.
* `exited_program_moves_on`: after a host function that fails, the next one does.
-/

namespace MotokoDebugger

namespace Debugger

open StateExcept Executor Runs

variable {T : Type} {env : Engine T} {goes fails : Machine T → Prop}

/-- The call stack is within its limit in every state of every run. -/
lemma Reached.inLimit {m : Machine T} {owners : List Nat} {live : Bool}
    (h : Reached env goes fails m owners live) : InLimit m := by
  induction h with
  | fresh hframes hinstances => simp [InLimit, skeleton, funcs, CallStack.funcs, hframes]
  | outside _ hcalls ih => exact inLimit_of_calls ih hcalls
  | entered _ henter ih => exact inLimit_enterRootFunc ih henter
  | refused _ henter ih =>
    exact inLimit_of_calls ih (Prod.mk.inj (enterRootFunc_refused henter)).1
  | created _ hnew ih =>
    have hcalls : KeepsCalls (newExecutor : ExecM T Unit) := by
      refine Keeps.get.bind fun _ => (readOnly_unwrap _).keeps.bind fun _ => ?_
      refine (keepsCalls_updateCache _).bind fun _ => Keeps.get.bind fun _ => ?_
      exact (readOnly_unwrap _).keeps.bind fun _ => Keeps.modify fun _ => rfl
    exact inLimit_of_calls ih (hcalls.of_ok hnew)
  | iterated _ _ hone ih => exact inLimit_executeOne ih hone
  | failed _ hone hstop ih => exact inLimit_fault ih hone hstop
  | stepped _ _ hstep ih => exact inLimit_of_returned ih hstep
  | stepFailed _ _ hstep hstop ih =>
    rcases executeStep_fails hstep hstop with rfl | hone
    · exact ih
    · exact inLimit_fault ih hone hstop

/-! ## Stopped programs -/

/-- Whatever the breakpoints are, the next step fails with `stop` and leaves everything as it is
but the one-shot breakpoint. -/
def Stopped (env : Engine T) (stop : Stop) (s : Session T) : Prop :=
  ∀ breakpoints isInterrupted, ∃ isInterrupted',
    executeStep env { s with breakpoints, isInterrupted } =
      .error stop { s with breakpoints, isInterrupted := isInterrupted' }

/-- Neither the breakpoints nor the one-shot breakpoint matter. -/
lemma Stopped.edited {stop : Stop} {s : Session T} (h : Stopped env stop s)
    (breakpoints : Breakpoints) (isInterrupted : Bool) :
    Stopped env stop { s with breakpoints, isInterrupted } := h

lemma executeStep_absent {s : Session T} (habsent : s.executor = .absent) :
    executeStep env s = .error (.fault (.message "No execution context")) s := by
  simp only [executeStep, requireExecutor, bind_assoc, get_bind, habsent, bail]
  rfl

/-- A fault that leaves the machine as it was stops the program. -/
theorem stopped_of_fault {s s₁ : Session T} {stop : Stop} (hlimit : InLimit s.machine)
    (hplace : FailsInPlace env s.machine) (hstep : executeStep env s = .error stop s₁)
    (hstop : stop.IsFault) : Stopped env stop s₁ ∧ s₁.machine = s.machine := by
  rcases executeStep_fault hstep hstop with
    ⟨habsent, rfl⟩ | ⟨hlive, instr, inst, m, hinstr, hinst, hexec, rfl⟩
  · refine ⟨fun breakpoints isInterrupted => ⟨isInterrupted, ?_⟩, rfl⟩
    rw [executeStep_absent habsent] at hstep
    cases hstep
    exact executeStep_absent habsent
  · obtain rfl : m = s.machine := inPlace_executeInstr hlimit hplace hinstr stop m hexec hstop
    obtain ⟨b, hafter⟩ := afterInst_eq s instr.instrOffset
    rw [hafter]
    refine ⟨fun breakpoints isInterrupted => ?_, rfl⟩
    obtain ⟨b', hafter'⟩ := afterInst_eq { s with breakpoints, isInterrupted } instr.instrOffset
    have hagain := executeStep_of_error (s := { s with breakpoints, isInterrupted }) hlive hinst
      hinstr hexec
    rw [hafter'] at hagain
    exact ⟨b', hagain⟩

/-- A request of a stopped program fails as its step does. -/
lemma Stopped.perform {stop : Stop} {s : Session T} (h : Stopped env stop s) (req : Request)
    {fuel : Nat} (hfuel : 0 < fuel) :
    ∃ isInterrupted, req.perform env fuel s = .error stop { s with isInterrupted } := by
  obtain ⟨b, hstep⟩ : ∃ b, executeStep env s = .error stop { s with isInterrupted := b } :=
    h s.breakpoints s.isInterrupted
  refine ⟨b, ?_⟩
  cases hrequire : requireExecutor s with
  | error e s' =>
    have hfails : executeStep env s = .error e s' := by
      rw [executeStep, bind_error hrequire]
    rw [hfails] at hstep
    cases hstep
    cases req with
    | step style => exact bind_error hrequire
    | process => exact bind_error hrequire
  | ok u s' =>
    obtain ⟨-, rfl⟩ := requireExecutor_eq_ok.mp hrequire
    cases req with
    | step style =>
      rw [Request.perform, step, bind_ok hrequire, get_bind]
      cases style <;> exact bind_error hstep
    | process =>
      obtain ⟨fuel, rfl⟩ := Nat.exists_eq_succ_of_ne_zero hfuel.ne'
      rw [Request.perform, process, bind_ok hrequire, stepWhile, get_bind, if_pos rfl]
      exact bind_error hstep

/-- The user edits the breakpoints, or makes a request, whatever it comes to. -/
inductive Asked (env : Engine T) (s s' : Session T) : Prop where
  | edited (breakpoints : Breakpoints) (h : s' = { s with breakpoints })
  | requested (req : Request) (fuel : Nat) (hfuel : 0 < fuel)
    (h : finalState (req.perform env fuel s) = s')

lemma Stopped.asked {stop : Stop} {s s' : Session T} (h : Stopped env stop s)
    (hasked : Asked env s s') : Stopped env stop s' ∧ s'.machine = s.machine := by
  cases hasked with
  | edited breakpoints heq =>
    subst heq
    exact ⟨h.edited breakpoints s.isInterrupted, rfl⟩
  | requested req fuel hfuel heq =>
    obtain ⟨b, hperform⟩ := h.perform req hfuel
    rw [hperform] at heq
    subst heq
    exact ⟨h.edited s.breakpoints b, rfl⟩

/-- In every run: once an instruction that fails in place has failed, no request changes the
stacks or the store any more, and every one fails as that instruction has. -/
theorem unmoved_after_fault {s s₁ s₂ : Session T} {owners : List Nat} {stop : Stop} {n : Nat}
    (h : Reached env goes fails s.machine owners true) (hplace : FailsInPlace env s.machine)
    (hstep : executeStep env s = .error stop s₁) (hstop : stop.IsFault)
    (hlater : Steps (Asked env) n s₁ s₂) :
    s₂.machine = s₁.machine ∧ ∀ (req : Request) fuel, 0 < fuel →
      ∃ s₃, req.perform env fuel s₂ = .error stop s₃ ∧ s₃.machine = s₁.machine := by
  obtain ⟨hstopped, -⟩ := stopped_of_fault h.inLimit hplace hstep hstop
  have hinv : Stopped env stop s₂ ∧ s₂.machine = s₁.machine := by
    refine hlater.invariant (I := fun s => Stopped env stop s ∧ s.machine = s₁.machine) ?_
      ⟨hstopped, rfl⟩
    rintro a b hasked ⟨hstopped, hmachine⟩
    obtain ⟨hnext, hsame⟩ := hstopped.asked hasked
    exact ⟨hnext, hsame.trans hmachine⟩
  refine ⟨hinv.2, fun req fuel hfuel => ?_⟩
  obtain ⟨b, hperform⟩ := hinv.1.perform req hfuel
  exact ⟨_, hperform, hinv.2⟩

/-- A function that traps. -/
def trapEngine : Engine Unit :=
  Engine.ofCode [⟨[⟨1, .trap .unreachableCodeReached⟩], [], 0⟩] [⟨[], []⟩]

/-- The debugger before and after the start of the function, and after each request. -/
def trapSession : Nat → Session Unit
  | 0 => launched (Launch.ofStore (Store.ofFuncs [.wasm ⟨0, 0, 0⟩]))
  | 1 => finalState (executeFunc trapEngine 0 [] (trapSession 0))
  | n + 2 => finalState (Request.perform trapEngine 1 .process (trapSession (n + 1)))

/-- The function traps again and again. -/
theorem unmoved_after_trap : (trapSession 3).machine = (trapSession 2).machine := by
  have hfresh : Reached trapEngine (fun _ => True) (fun _ => True) (trapSession 0).machine [] false :=
    .fresh rfl rfl
  have hexec : executeFunc trapEngine 0 [] (trapSession 0) = .ok () (trapSession 1) :=
    eq_ok_of_returned rfl
  obtain ⟨owner, hstarted⟩ := reached_executeFunc hfresh hexec
  have hplace : FailsInPlace trapEngine (trapSession 1).machine := by
    rintro instr ⟨⟩
    exact trivial
  have hfault : executeStep trapEngine (trapSession 1) =
      .error (.trap .unreachableCodeReached) (trapSession 2) := rfl
  have hasked : Asked trapEngine (trapSession 2) (trapSession 3) :=
    .requested .process 1 Nat.one_pos rfl
  exact (unmoved_after_fault hstarted hplace hfault ⟨_, rfl⟩ (.one hasked)).1

/-- A function that calls a host function and goes on. The host function exits the program, as
`proc_exit` does: it fails. -/
def exitEngine : Engine Unit :=
  { Engine.ofCode [⟨[⟨1, .callImported0 ⟨0⟩ 0⟩, ⟨2, .copyImm32 0 7⟩, ⟨3, .return_⟩], [], 1⟩]
      [⟨[], []⟩] with
    hostCall := fun _ _ _ store => (.error (.i32ExitStatus 0), store) }

/-- The debugger before and after the start of the function, after the call, and after each
request. -/
def exitSession : Nat → Session Unit
  | 0 => launched (Launch.ofStore
      { Store.ofFuncs [.wasm ⟨0, 0, 0⟩, .host ⟨0, 0, 0, 0⟩] with
        instances := [⟨[], [1], [], [], [], [], []⟩] })
  | 1 => finalState (executeFunc exitEngine 0 [] (exitSession 0))
  | 2 => finalState (executeStep exitEngine (exitSession 1))
  | n + 3 => finalState (Request.perform exitEngine 1 (.step .instIn) (exitSession (n + 2)))

/-- After its exit the program goes on behind the call. -/
theorem exited_program_moves_on :
    ¬ ∀ (s s₁ s₂ : Session Unit) (owners : List Nat) (stop : Stop) (n : Nat),
      Reached exitEngine (fun _ => True) (fun _ => True) s.machine owners true →
      executeStep exitEngine s = .error stop s₁ → stop.IsFault →
      Steps (Asked exitEngine) n s₁ s₂ → s₂.machine.stack = s₁.machine.stack := by
  intro hall
  have hfresh : Reached exitEngine (fun _ => True) (fun _ => True) (exitSession 0).machine [] false :=
    .fresh rfl rfl
  have hexec : executeFunc exitEngine 0 [] (exitSession 0) = .ok () (exitSession 1) :=
    eq_ok_of_returned rfl
  obtain ⟨owner, hstarted⟩ := reached_executeFunc hfresh hexec
  have hfault : executeStep exitEngine (exitSession 1) =
      .error (.fault (.resumableHost (.i32ExitStatus 0) 1 0)) (exitSession 2) := rfl
  have hasked : Asked exitEngine (exitSession 2) (exitSession 3) :=
    .requested (.step .instIn) 1 Nat.one_pos rfl
  have hsame := hall _ _ _ _ _ 1 hstarted hfault ⟨_, rfl⟩ (.one hasked)
  exact absurd hsame (by decide)

end Debugger

end MotokoDebugger
