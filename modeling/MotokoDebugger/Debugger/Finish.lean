import MotokoDebugger.Debugger.Requests

/-!
# After the end of a run

A run that has ended is only marked by where the instruction pointer stands.

* `AtEnd`: no frame is left and the instruction pointer is on a return instruction.
* `perform_atEnd`: there every request reports the end again and changes nothing of the machine.
* `absorbing_iff`: a run that has finished is there iff its last return has no register list.
-/

namespace MotokoDebugger

namespace Debugger

open StateExcept Executor Runs

variable {T : Type} {env : Engine T}

/-- What the callbacks of a step may change after the end of a run. -/
structure SameEnd (s s' : Session T) : Prop where
  machine : s'.machine = s.machine
  executor : s'.executor = s.executor
  inst : s'.inst = s.inst
  runFunc : s'.runFunc = s.runFunc

lemma SameEnd.trans {s s' s'' : Session T} (h : SameEnd s s') (h' : SameEnd s' s'') :
    SameEnd s s'' :=
  ⟨h'.machine.trans h.machine, h'.executor.trans h.executor, h'.inst.trans h.inst,
    h'.runFunc.trans h.runFunc⟩

/-- The results are read from the machine by the type of the function that was run. -/
lemma getFinishResult_congr {s s' : Session T} {results : List Val} (h : SameEnd s s')
    (hresults : getFinishResult env s = .ok results s) :
    getFinishResult env s' = .ok results s' := by
  obtain ⟨hmachine, -, -, hrunFunc⟩ := h
  rw [getFinishResult, get_bind] at hresults ⊢
  rw [hmachine, hrunFunc]
  cases hfunc : s.runFunc with
  | none =>
    rw [hfunc] at hresults
    cases hresults
  | some func =>
    simp only [hfunc, bind_eq_ok, unwrap_eq_ok, pure_apply, EStateM.Result.ok.injEq] at hresults ⊢
    obtain ⟨entity, _, ⟨hentity, rfl⟩, cells, _, ⟨hcells, rfl⟩, rfl, -⟩ := hresults
    exact ⟨entity, s', ⟨hentity, rfl⟩, cells, s', ⟨hcells, rfl⟩, rfl, rfl⟩

/-! ## At a return instruction -/

/-- The run has ended and its return instruction would be executed again. -/
structure AtEnd (env : Engine T) (s : Session T) : Prop where
  live : s.executor = .live
  inst : ∃ inst, s.inst = some inst
  frames : s.machine.stack.calls.frames = []
  returns : ∃ instr, env.instrAt s.machine.ip = some instr ∧ instr.op.isReturn

lemma AtEnd.of_sameEnd {s s' : Session T} (h : AtEnd env s) (hsame : SameEnd s s') :
    AtEnd env s' := by
  obtain ⟨hmachine, hexecutor, hinst, -⟩ := hsame
  exact ⟨hexecutor.trans h.live, hinst ▸ h.inst, hmachine ▸ h.frames, hmachine ▸ h.returns⟩

/-- Every step signals the end again. -/
lemma executeStep_atEnd {s : Session T} (h : AtEnd env s) :
    ∃ s', executeStep env s = .ok .end_ s' ∧ SameEnd s s' := by
  obtain ⟨hlive, ⟨inst, hinst⟩, hframes, instr, hinstr, hreturn⟩ := h
  have hexec : executeInstr env inst.importFuncLen instr.op s.machine =
      .ok { signal := .end_, isPopFrame := true } s.machine := by
    rw [executeInstr_return hreturn, forwardReturnDbg_empty hframes]
  refine ⟨_, executeStep_eq_ok.mpr
    ⟨hlive, instr, inst, _, _, none, hinstr, hinst, hexec, rfl, ?_, rfl⟩, ?_⟩
  · exact (combineSignals_eq_end (instSignal_ne_end s _) (callSignal_ne_end s none)).mpr rfl
  · obtain ⟨isInterrupted, heq⟩ := afterInst_eq s instr.instrOffset
    simp only [afterStep, afterCall, heq]
    exact ⟨rfl, rfl, rfl, rfl⟩

lemma stepWhile_atEnd (continues : Nat → Bool) {fuel : Nat} {s : Session T} {results : List Val}
    (h : AtEnd env s) (hresults : getFinishResult env s = .ok results s)
    (hcontinues : continues 0 = true) (hfuel : 0 < fuel) :
    ∃ s', stepWhile env continues fuel s = .ok (some (.finish results)) s' ∧ SameEnd s s' := by
  obtain ⟨fuel, rfl⟩ := Nat.exists_eq_succ_of_ne_zero (Nat.pos_iff_ne_zero.mp hfuel)
  obtain ⟨s', hstep, hsame⟩ := executeStep_atEnd h
  have hdepth : continues s.machine.stack.calls.frames.length = true := by
    rwa [h.frames]
  refine ⟨s', ?_, hsame⟩
  rw [stepWhile, get_bind, if_pos hdepth, bind_ok hstep]
  exact bind_ok (getFinishResult_congr hsame hresults)

/-- Every request reports the end again. -/
theorem perform_atEnd {fuel : Nat} {s : Session T} {results : List Val} (h : AtEnd env s)
    (hresults : getFinishResult env s = .ok results s) (hfuel : 0 < fuel) (req : Request) :
    ∃ s', req.perform env fuel s = .ok (some (.finish results)) s' ∧ SameEnd s s' := by
  have hrequire : requireExecutor s = .ok () s := requireExecutor_eq_ok.mpr ⟨h.live, rfl⟩
  obtain ⟨s', hstep, hsame⟩ := executeStep_atEnd h
  have hresults' := getFinishResult_congr hsame hresults
  cases req with
  | process =>
    rw [Request.perform, process, bind_ok hrequire]
    exact stepWhile_atEnd _ h hresults rfl hfuel
  | step style =>
    rw [Request.perform, step, bind_ok hrequire, get_bind]
    cases style with
    | instIn => exact ⟨s', (bind_ok hstep).trans (bind_ok hresults'), hsame⟩
    | instOver => exact ⟨s', (bind_ok hstep).trans (bind_ok hresults'), hsame⟩
    | out =>
      -- the first step passes over the end; the second one reports it
      have hdepth : decide (s.machine.stack.calls.frames.length ≤ 0) = true := by
        rw [h.frames]
        rfl
      obtain ⟨s'', hloop, hsame'⟩ :=
        stepWhile_atEnd (fun depth => decide (s.machine.stack.calls.frames.length ≤ depth))
          (h.of_sameEnd hsame) hresults' hdepth hfuel
      exact ⟨s'', (bind_ok hstep).trans hloop, hsame.trans hsame'⟩

/-! ## Every later request -/

/-- Every later request reports the same results and leaves the machine as it is. -/
def Absorbing (env : Engine T) (results : List Val) (s : Session T) : Prop :=
  ∀ n s', Steps (Served env) n s s' → ∀ req fuel, 0 < fuel →
    ∃ s'', Request.perform env fuel req s' = .ok (some (.finish results)) s'' ∧
      s''.machine = s.machine

lemma AtEnd.absorbing {s : Session T} {results : List Val} (h : AtEnd env s)
    (hresults : getFinishResult env s = .ok results s) : Absorbing env results s := by
  intro n s' hsteps req fuel hfuel
  have hsame : SameEnd s s' := by
    refine hsteps.invariant (I := fun s' => SameEnd s s') ?_ ⟨rfl, rfl, rfl, rfl⟩
    intro a b hserved hsame
    cases hserved with
    | edited breakpoints isInterrupted hb =>
      subst hb
      exact ⟨hsame.machine, hsame.executor, hsame.inst, hsame.runFunc⟩
    | requested req fuel hfuel r hperform =>
      obtain ⟨b', hb', hsame'⟩ :=
        perform_atEnd (h.of_sameEnd hsame) (getFinishResult_congr hsame hresults) hfuel req
      rw [hperform] at hb'
      cases hb'
      exact hsame.trans hsame'
  obtain ⟨s'', hperform, hsame'⟩ :=
    perform_atEnd (h.of_sameEnd hsame) (getFinishResult_congr hsame hresults) hfuel req
  exact ⟨s'', hperform, (hsame.trans hsame').machine⟩

/-- On a register list there is no next step. -/
lemma not_absorbing {s : Session T} {results : List Val} {inst : InstanceWithName}
    {word : Instruction} (hlive : s.executor = .live) (hinst : s.inst = some inst)
    (hword : env.instrAt s.machine.ip = some word) (hparam : word.op.isParam) :
    ¬ Absorbing env results s := by
  intro habsorbing
  obtain ⟨s', hperform, -⟩ := habsorbing 0 s (.refl s) (.step .instIn) 1 Nat.one_pos
  have hrequire : requireExecutor s = .ok () s := requireExecutor_eq_ok.mpr ⟨hlive, rfl⟩
  have hstep := executeStep_of_error hlive hinst hword
    (executeInstr_param inst.importFuncLen hparam s.machine)
  rw [Request.perform, step, bind_ok hrequire, get_bind] at hperform
  dsimp only at hperform
  rw [bind_error hstep] at hperform
  cases hperform

/-- The root function of a run has returned with `instr` in the last step before `s'`. -/
def EndedBy (env : Engine T) (s : Session T) (instr : Instruction) (s' : Session T) : Prop :=
  ∃ n s₁, Steps (Goes env) n s s₁ ∧ executeStep env s₁ = .ok .end_ s' ∧
    EndsAt env instr s₁.machine s'.machine

/-- A request of a running program that reports the end: every later request does so too, iff the
return that ended the run has no register list. -/
theorem absorbing_iff {s s' : Session T} {req : Request} {fuel : Nat} {results : List Val}
    (hframes : s.machine.stack.calls.frames ≠ [])
    (h : req.perform env fuel s = .ok (some (.finish results)) s') :
    ∃ instr, EndedBy env s instr s' ∧
      (Absorbing env results s' ↔ instr.op.returnsList = false) := by
  have hperforms : Performs env fuel s (req.perform env fuel s) :=
    performs (live_of_perform h) (.inl hframes) fuel req
  rw [h] at hperforms
  cases hperforms with
  | stopped hr => exact absurd rfl (hr results)
  | swallowed hr => simp at hr
  | @finished n s₁ s' results hsteps hstep hresults =>
    have hready : Ready env s₁.machine := ready_of_goes (.inl hframes) hsteps
    obtain ⟨flow, hone, hflow⟩ := executeStep_executeOne hready hstep
    rw [hflow.mp rfl] at hone
    obtain ⟨instr, hends⟩ := endsAt_of_break hone
    obtain ⟨-, hlive, hinst, -⟩ := executeStep_keeps hstep
    obtain ⟨-, -, inst, -, -, -, -, hsome, -⟩ := executeStep_eq_ok.mp hstep
    refine ⟨instr, ⟨n, s₁, hsteps, hstep, hends⟩, ?_⟩
    have hip := hends.ip
    cases hlist : instr.op.returnsList with
    | false =>
      rw [hlist, if_neg Bool.false_ne_true] at hip
      have hend : AtEnd env s' := by
        refine ⟨hlive, ⟨inst, hinst.trans hsome⟩, hends.frames, instr, ?_, hends.isReturn⟩
        rw [hip]
        exact hends.at_
      simpa using hend.absorbing hresults
    | true =>
      rw [hlist, if_pos rfl] at hip
      obtain ⟨word, hword, hparam⟩ := hip
      simpa using not_absorbing hlive (hinst.trans hsome) hword hparam

/-- Code whose first function returns its parameter once, and whose second function returns it four
times. -/
def returnEngine : Engine Unit :=
  Engine.ofCode
    [⟨[⟨1, .returnReg 0⟩], [], 1⟩, ⟨[⟨1, .returnMany 0 0 0⟩, ⟨1, .register 0⟩], [], 1⟩]
    [⟨[.i32], [.i32]⟩, ⟨[.i32], [.i32, .i32, .i32, .i32]⟩]

/-- The debugger after `run_step` of a function of that code. -/
def returnSession (name : String) : Session Unit :=
  finalState (runStep returnEngine (some name) [⟨.i32, 7⟩]
    (launched (Launch.ofStore (Store.ofFuncs [.wasm ⟨0, 0, 0⟩, .wasm ⟨1, 1, 0⟩]))))

/-- The debugger after the request that reports the end. -/
def finishedSession (name : String) : Session Unit :=
  finalState (Request.perform returnEngine 1 .process (returnSession name))

theorem absorbing_iff_returnReg :
    ∃ instr, EndedBy returnEngine (returnSession "0") instr (finishedSession "0") ∧
      (Absorbing returnEngine [⟨.i32, 7⟩] (finishedSession "0") ↔
        instr.op.returnsList = false) :=
  absorbing_iff (s := returnSession "0") (by decide) (eq_ok_of_returned rfl)

/-- After a return of four values the next request runs into the register list. -/
theorem finish_returnMany_not_absorbing :
    Request.perform returnEngine 1 .process (returnSession "1") =
        .ok (some (.finish [⟨.i32, 7⟩, ⟨.i32, 7⟩, ⟨.i32, 7⟩, ⟨.i32, 7⟩])) (finishedSession "1") ∧
      ¬ Absorbing returnEngine [⟨.i32, 7⟩, ⟨.i32, 7⟩, ⟨.i32, 7⟩, ⟨.i32, 7⟩]
        (finishedSession "1") :=
  ⟨eq_ok_of_returned rfl, not_absorbing rfl rfl rfl rfl⟩

end Debugger

end MotokoDebugger
