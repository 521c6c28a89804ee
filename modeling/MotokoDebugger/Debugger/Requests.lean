import MotokoDebugger.Debugger.Mirror

/-!
# Requests

A request of the user is a loop of steps. This module says once what a request can come to.

* `Loops`: the outcomes of `stepWhile`.
* `Performs`: the outcomes of any request of a program that is running.
* `Served`: what may happen between two requests, and a request.
-/

namespace MotokoDebugger

namespace Debugger

open StateExcept Executor Runs

variable {T : Type}

/-- A request that lets the program run. -/
inductive Request where
  | step (style : StepStyle)
  | process
deriving Repr, DecidableEq

/-- Makes a request, with a bound on the number of steps it may take. -/
def Request.perform (env : Engine T) (fuel : Nat) : Request → DbgM T (Option RunResult)
  | .step style => Debugger.step env style fuel
  | .process => Debugger.process env fuel

variable {env : Engine T}

/-! ## Parts of a request -/

lemma readOnly_getFinishResult (env : Engine T) : ReadOnly (getFinishResult env) := by
  refine ReadOnly.get.bind fun s => ?_
  split
  · refine (readOnly_unwrap _).bind fun func => ?_
    exact (readOnly_unwrap _).bind fun cells => ReadOnly.pure _
  · exact ReadOnly.throw _

/-- A step that goes on, while the depth of the frames permits it. -/
def GoesOn (env : Engine T) (continues : Nat → Bool) (s s' : Session T) : Prop :=
  continues s.machine.stack.calls.frames.length = true ∧ executeStep env s = .ok .next s'

/-- A step that does not end the run. -/
def Goes (env : Engine T) (s s' : Session T) : Prop :=
  ∃ sig, sig ≠ .end_ ∧ executeStep env s = .ok sig s'

lemma GoesOn.goes {continues : Nat → Bool} {s s' : Session T} (h : GoesOn env continues s s') :
    Goes env s s' := ⟨.next, nofun, h.2⟩

/-- What `stepWhile` comes to: `n` steps go on, then the depth forbids the next one, or it signals
something else, or it fails. -/
inductive Loops (env : Engine T) (continues : Nat → Bool) (fuel : Nat) (s : Session T) :
    EStateM.Result Stop (Session T) (Option RunResult) → Prop where
  | starved {s' : Session T} (hsteps : Steps (GoesOn env continues) fuel s s') :
    Loops env continues fuel s (.ok none s')
  | left {n : Nat} {s' : Session T} (hfuel : n < fuel)
    (hsteps : Steps (GoesOn env continues) n s s')
    (hdepth : continues s'.machine.stack.calls.frames.length = false) :
    Loops env continues fuel s (.ok (some .next) s')
  | breakpoint {n : Nat} {s₁ s' : Session T} (hfuel : n < fuel)
    (hsteps : Steps (GoesOn env continues) n s s₁)
    (hstep : executeStep env s₁ = .ok .breakpoint s') :
    Loops env continues fuel s (.ok (some .breakpoint) s')
  | finished {n : Nat} {s₁ s' : Session T} {results : List Val} (hfuel : n < fuel)
    (hsteps : Steps (GoesOn env continues) n s s₁)
    (hstep : executeStep env s₁ = .ok .end_ s')
    (hresults : getFinishResult env s' = .ok results s') :
    Loops env continues fuel s (.ok (some (.finish results)) s')
  | failed {n : Nat} {s₁ s' : Session T} {stop : Stop} (hfuel : n < fuel)
    (hsteps : Steps (GoesOn env continues) n s s₁)
    (hstep : executeStep env s₁ = .error stop s') :
    Loops env continues fuel s (.error stop s')
  | unfinished {n : Nat} {s₁ s' : Session T} {stop : Stop} (hfuel : n < fuel)
    (hsteps : Steps (GoesOn env continues) n s s₁)
    (hstep : executeStep env s₁ = .ok .end_ s')
    (hresults : getFinishResult env s' = .error stop s') :
    Loops env continues fuel s (.error stop s')

/-- A loop after a step that goes on. -/
lemma Loops.after {continues : Nat → Bool} {fuel : Nat} {s s' : Session T}
    {r : EStateM.Result Stop (Session T) (Option RunResult)} (hstep : GoesOn env continues s s')
    (h : Loops env continues fuel s' r) : Loops env continues (fuel + 1) s r := by
  cases h with
  | starved hsteps => exact .starved (.head hstep hsteps)
  | left hfuel hsteps hdepth => exact .left (by omega) (.head hstep hsteps) hdepth
  | breakpoint hfuel hsteps h => exact .breakpoint (by omega) (.head hstep hsteps) h
  | finished hfuel hsteps h hresults =>
    exact .finished (by omega) (.head hstep hsteps) h hresults
  | failed hfuel hsteps h => exact .failed (by omega) (.head hstep hsteps) h
  | unfinished hfuel hsteps h hresults =>
    exact .unfinished (by omega) (.head hstep hsteps) h hresults

/-- The end of a request whose last step has signalled the end. -/
def reportFinish (env : Engine T) : DbgM T (Option RunResult) := do
  return some (.finish (← getFinishResult env))

lemma reportFinish_cases (s : Session T) :
    (∃ results, getFinishResult env s = .ok results s ∧
        reportFinish env s = .ok (some (.finish results)) s) ∨
      ∃ stop, getFinishResult env s = .error stop s ∧ reportFinish env s = .error stop s := by
  cases h : getFinishResult env s with
  | ok results s' =>
    obtain rfl := (readOnly_getFinishResult env).of_ok h
    exact .inl ⟨results, rfl, bind_ok h⟩
  | error stop s' =>
    obtain rfl := (readOnly_getFinishResult env).of_error h
    exact .inr ⟨stop, rfl, bind_error h⟩

/-- The loop of a request. -/
theorem loops_stepWhile (env : Engine T) (continues : Nat → Bool) (fuel : Nat) (s : Session T) :
    Loops env continues fuel s (stepWhile env continues fuel s) := by
  induction fuel generalizing s with
  | zero => exact .starved (.refl s)
  | succ fuel ih =>
    rw [stepWhile, get_bind]
    cases hdepth : continues s.machine.stack.calls.frames.length with
    | false =>
      rw [if_neg Bool.false_ne_true]
      exact .left (by omega) (.refl s) hdepth
    | true =>
      rw [if_pos rfl]
      cases hstep : executeStep env s with
      | error stop s' =>
        rw [bind_error hstep]
        exact .failed (by omega) (.refl s) hstep
      | ok sig s' =>
        rw [bind_ok hstep]
        cases sig with
        | next => exact (ih s').after ⟨hdepth, hstep⟩
        | breakpoint => exact .breakpoint (by omega) (.refl s) hstep
        | end_ =>
          rcases reportFinish_cases s' with ⟨results, hresults, h⟩ | ⟨stop, hresults, h⟩
          · rw [reportFinish] at h
            dsimp only
            rw [h]
            exact .finished (by omega) (.refl s) hstep hresults
          · rw [reportFinish] at h
            dsimp only
            rw [h]
            exact .unfinished (by omega) (.refl s) hstep hresults

/-! ## A request -/

/-- What a request of a running program comes to. The first step of `Out` may end the run without
the request saying so. -/
inductive Performs (env : Engine T) (fuel : Nat) (s : Session T) :
    EStateM.Result Stop (Session T) (Option RunResult) → Prop where
  | starved {n : Nat} {s' : Session T} (hfuel : fuel ≤ n) (hsteps : Steps (Goes env) n s s') :
    Performs env fuel s (.ok none s')
  | stopped {n : Nat} {s' : Session T} {r : RunResult} (hr : ∀ results, r ≠ .finish results)
    (hsteps : Steps (Goes env) (n + 1) s s') : Performs env fuel s (.ok (some r) s')
  | finished {n : Nat} {s₁ s' : Session T} {results : List Val} (hsteps : Steps (Goes env) n s s₁)
    (hstep : executeStep env s₁ = .ok .end_ s')
    (hresults : getFinishResult env s' = .ok results s') :
    Performs env fuel s (.ok (some (.finish results)) s')
  | swallowed {s' : Session T} {r : Option RunResult} (hr : r = some .next ∨ fuel = 0 ∧ r = none)
    (hstep : executeStep env s = .ok .end_ s') : Performs env fuel s (.ok r s')
  | failed {n : Nat} {s₁ s' : Session T} {stop : Stop} (hsteps : Steps (Goes env) n s s₁)
    (hstep : executeStep env s₁ = .error stop s') : Performs env fuel s (.error stop s')
  | unfinished {n : Nat} {s₁ s' : Session T} {stop : Stop} (hsteps : Steps (Goes env) n s s₁)
    (hstep : executeStep env s₁ = .ok .end_ s')
    (hresults : getFinishResult env s' = .error stop s') :
    Performs env fuel s (.error stop s')

lemma Steps.goes {continues : Nat → Bool} {n : Nat} {s s' : Session T}
    (h : Steps (GoesOn env continues) n s s') : Steps (Goes env) n s s' :=
  h.mono fun _ _ => GoesOn.goes

/-- A request whose first step went on and whose loop makes the rest. -/
lemma Loops.performs {continues : Nat → Bool} {fuel : Nat} {s s' : Session T}
    {r : EStateM.Result Stop (Session T) (Option RunResult)} (hstep : Goes env s s')
    (h : Loops env continues fuel s' r) : Performs env fuel s r := by
  cases h with
  | starved hsteps => exact .starved (by omega) (.head hstep (Steps.goes hsteps))
  | left hfuel hsteps hdepth => exact .stopped nofun (.head hstep (Steps.goes hsteps))
  | @breakpoint n s₁ s' hfuel hsteps h =>
    exact .stopped nofun (.head hstep ((Steps.goes hsteps).tail ⟨.breakpoint, nofun, h⟩))
  | finished hfuel hsteps h hresults => exact .finished (.head hstep (Steps.goes hsteps)) h hresults
  | failed hfuel hsteps h => exact .failed (.head hstep (Steps.goes hsteps)) h
  | unfinished hfuel hsteps h hresults =>
    exact .unfinished (.head hstep (Steps.goes hsteps)) h hresults

/-- The first step of a request whose end the request reports. -/
lemma performs_reportFinish {fuel : Nat} {s s' : Session T}
    (hstep : executeStep env s = .ok .end_ s') : Performs env fuel s (reportFinish env s') := by
  rcases reportFinish_cases s' with ⟨results, hresults, h⟩ | ⟨stop, hresults, h⟩
  · rw [h]
    exact .finished (.refl s) hstep hresults
  · rw [h]
    exact .unfinished (.refl s) hstep hresults

/-- What a request comes to while the program is running. -/
theorem performs {s : Session T} (hlive : s.executor = .live) (hready : Ready env s.machine)
    (fuel : Nat) (req : Request) :
    Performs env fuel s (req.perform env fuel s) := by
  have hrequire : requireExecutor s = .ok () s := requireExecutor_eq_ok.mpr ⟨hlive, rfl⟩
  cases req with
  | process =>
    rw [Request.perform, process, bind_ok hrequire]
    have hloop := loops_stepWhile env (fun _ => true) fuel s
    generalize stepWhile env (fun _ => true) fuel s = r at hloop
    cases hloop with
    | starved hsteps => exact .starved (Nat.le_refl _) (Steps.goes hsteps)
    | left hfuel hsteps hdepth => cases hdepth
    | breakpoint hfuel hsteps h =>
      exact .stopped nofun ((Steps.goes hsteps).tail ⟨.breakpoint, nofun, h⟩)
    | finished hfuel hsteps h hresults => exact .finished (Steps.goes hsteps) h hresults
    | failed hfuel hsteps h => exact .failed (Steps.goes hsteps) h
    | unfinished hfuel hsteps h hresults => exact .unfinished (Steps.goes hsteps) h hresults
  | step style =>
    rw [Request.perform, step, bind_ok hrequire, get_bind]
    cases hstep : executeStep env s with
    | error stop s' =>
      cases style <;>
      · dsimp only
        rw [bind_error hstep]
        exact .failed (.refl s) hstep
    | ok sig s' =>
      cases style with
      | instIn =>
        dsimp only
        rw [bind_ok hstep]
        cases sig with
        | next => exact .stopped nofun (.one ⟨.next, nofun, hstep⟩)
        | breakpoint => exact .stopped nofun (.one ⟨.breakpoint, nofun, hstep⟩)
        | end_ => exact performs_reportFinish hstep
      | instOver =>
        dsimp only
        rw [bind_ok hstep]
        cases sig with
        | next => exact (loops_stepWhile env _ fuel s').performs ⟨.next, nofun, hstep⟩
        | breakpoint => exact .stopped nofun (.one ⟨.breakpoint, nofun, hstep⟩)
        | end_ => exact performs_reportFinish hstep
      | out =>
        dsimp only
        rw [bind_ok hstep]
        cases sig with
        | next => exact (loops_stepWhile env _ fuel s').performs ⟨.next, nofun, hstep⟩
        | breakpoint => exact (loops_stepWhile env _ fuel s').performs ⟨.breakpoint, nofun, hstep⟩
        | end_ =>
          -- no frame is left, and there was one: the loop makes no step
          have hpos := List.length_pos_iff.mpr (frames_of_executeStep hready hstep)
          have hdepth : ¬ s.machine.stack.calls.frames.length ≤
              s'.machine.stack.calls.frames.length := by
            rw [frames_of_end hready hstep, List.length_nil]
            omega
          cases fuel with
          | zero => exact .swallowed (.inr ⟨rfl, rfl⟩) hstep
          | succ fuel =>
            rw [stepWhile, get_bind, decide_eq_false hdepth, if_neg Bool.false_ne_true]
            exact .swallowed (.inl rfl) hstep

/-- A request that returns has an executor. -/
lemma live_of_perform {s s' : Session T} {req : Request} {fuel : Nat} {r : Option RunResult}
    (h : req.perform env fuel s = .ok r s') : s.executor = .live := by
  cases req with
  | process =>
    obtain ⟨_, _, hrequire, -⟩ := bind_eq_ok.mp h
    exact (requireExecutor_eq_ok.mp hrequire).1
  | step style =>
    obtain ⟨_, _, hrequire, -⟩ := bind_eq_ok.mp h
    exact (requireExecutor_eq_ok.mp hrequire).1

/-- The steps of a running program come to ready machines only. -/
lemma ready_of_goes {n : Nat} {s s' : Session T} (h : Ready env s.machine)
    (hsteps : Steps (Goes env) n s s') : Ready env s'.machine := by
  refine hsteps.invariant (I := fun s => Ready env s.machine) ?_ h
  rintro a b ⟨sig, hsig, hstep⟩ hready
  obtain ⟨flow, hone, hflow⟩ := executeStep_executeOne hready hstep
  cases flow with
  | continue_ => exact ready_of_continues hready hone
  | break_ => exact absurd (hflow.mpr rfl) hsig

/-! ## Between requests -/

/-- The user edits the breakpoints, or makes a request that returns. -/
inductive Served (env : Engine T) (s s' : Session T) : Prop where
  | edited (breakpoints : Breakpoints) (isInterrupted : Bool)
    (h : s' = { s with breakpoints, isInterrupted })
  | requested (req : Request) (fuel : Nat) (hfuel : 0 < fuel) (r : RunResult)
    (h : req.perform env fuel s = .ok (some r) s')

end Debugger

end MotokoDebugger
