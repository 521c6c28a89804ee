import MotokoDebugger.Engine.Resumptions

/-!
# Resumed runs

* `OnCourse`: the state that the resumed and the direct call have in common.
* `resumed_iff_direct`: where every failure is answerable, the two calls end alike, and no failure
  leaves anything on the value stack.
* `tail_called_host`: after a tail call of a host function only the resumed call ends.
-/

namespace MotokoDebugger

namespace Executor

open StateExcept Runs

variable {T : Type} {env : Engine T}

/-! ## Whole runs -/

/-- Every failure of a host function that an answer is left for is answerable, in the run from `m`
on. -/
def AllAnswerable (env : Engine T) (m : Machine T) (answers : List (List Val)) : Prop :=
  ∀ (n : Nat) (m' : Machine T) (answer : List Val) (rest : List (List Val)),
    Steps (DirectStep env) n (m, answers) (m', answer :: rest) → failsResumably env m' = true →
    Answerable env m' answer

/-- Where the two calls are in the same state. -/
structure OnCourse (env : Engine T) (func : Nat) (outputs : List Val) (m : Machine T)
    (answers : List (List Val)) : Prop where
  framed : Framed m ∨ Astray env m
  outputs : Outputs env func outputs m
  answerable : AllAnswerable env m answers

/-- An iteration of the direct call is one of the loop, with the answer or without it. -/
lemma continues_of_directStep {m m' : Machine T} {answers rest : List (List Val)}
    (h : DirectStep env (m, answers) (m', rest)) :
    Continues env m m' ∨ ∃ answer, Continues (answering env answer) m m' := by
  unfold DirectStep executeAnswered at h
  dsimp only at h
  split at h
  · obtain ⟨flow, hpair, hone⟩ := map_eq_ok.mp h
    cases hpair
    exact .inr ⟨_, hone⟩
  · obtain ⟨flow, hpair, hone⟩ := map_eq_ok.mp h
    cases hpair
    exact .inl hone

lemma hostsKeepFuncs_answering (hhosts : HostsKeepFuncs env) (answer : List UntypedVal) :
    HostsKeepFuncs (answering env answer) := by
  intro trampoline inst params store
  have hkept := hhosts trampoline inst params store
  rcases hcall : env.hostCall trampoline inst params store with ⟨result, store'⟩
  rw [hcall] at hkept
  cases result <;> simpa only [answering, hcall] using hkept

lemma OnCourse.step {func : Nat} {outputs : List Val} {m m' : Machine T}
    {answers rest : List (List Val)} (hhosts : HostsKeepFuncs env)
    (h : OnCourse env func outputs m answers) (hstep : DirectStep env (m, answers) (m', rest)) :
    OnCourse env func outputs m' rest := by
  have hrun : AllAnswerable env m' rest :=
    fun n m'' answer left hsteps => h.answerable (n + 1) m'' answer left (.head hstep hsteps)
  rcases continues_of_directStep hstep with hone | ⟨answer, hone⟩
  · exact ⟨framed_or_astray h.framed hone, h.outputs.of_kept (kept_executeOne hhosts hone), hrun⟩
  · exact ⟨@framed_or_astray T (answering env answer) m m' h.framed hone,
      h.outputs.of_kept (kept_executeOne (hostsKeepFuncs_answering hhosts answer) hone), hrun⟩

/-- A nested call is not astray. -/
lemma framed_of_nestedHostCall {m : Machine T} {func : Nat} {hostFunc : HostFuncEntity}
    (h : Framed m ∨ Astray env m) (hcall : NestedHostCall env m func hostFunc) : Framed m := by
  rcases h with hframed | hastray
  · exact hframed
  obtain ⟨instr, site, hinstr, hsite, hnested, -⟩ := hcall
  rcases hastray instr hinstr with hparam | ⟨site', hsite', htail⟩
  · rw [callSite_of_isParam hparam] at hsite
    cases hsite
  · obtain rfl : site = site' := Option.some.inj (hsite.symm.trans hsite')
    rw [htail] at hnested
    cases hnested

theorem firstIteration {func : Nat} {outputs : List Val} {m : Machine T}
    {answers : List (List Val)} (hown : OwnErrors env) (hsilent : SilentReturns env)
    (hhosts : HostsKeepFuncs env) (h : OnCourse env func outputs m answers) :
    FirstIteration env func outputs m answers := by
  by_cases hcontinue : ∃ m', executeOne env m = .ok .continue_ m'
  · obtain ⟨m', hone⟩ := hcontinue
    exact firstIteration_continue answers hone
  have hlast : ∀ m', executeOne env m ≠ .ok .continue_ m' := fun m' hone => hcontinue ⟨m', hone⟩
  cases answers with
  | nil => exact firstIteration_last hlast fun _ => rfl
  | cons answer rest =>
    cases hfails : failsResumably env m with
    | false => exact firstIteration_last hlast (by simp [hfails])
    | true =>
      have hanswerable := h.answerable 0 m answer rest (.refl _) hfails
      obtain ⟨handle, hostFunc, hcall, -⟩ := hanswerable
      exact firstIteration_answered hown hsilent hhosts (framed_of_nestedHostCall h.framed hcall)
        h.outputs hfails (h.answerable 0 m answer rest (.refl _) hfails)

lemma not_ended_directRest_zero {func : Nat} {outputs : List Val} {m : Machine T}
    {answers : List (List Val)} : ¬ Ended (directRest env func outputs answers 0 m) :=
  Bool.false_ne_true

lemma not_ended_resumedRest_zero {func : Nat} {outputs : List Val} {m : Machine T}
    {answers : List (List Val)} {segment : Nat} :
    ¬ Ended (resumedRest env func outputs answers segment 0 m) :=
  Bool.false_ne_true

/-- The resumed call ends as the direct one does. -/
theorem resumedRest_of_directRest {func : Nat} {outputs : List Val} {n : Nat}
    (hown : OwnErrors env) (hsilent : SilentReturns env) (hhosts : HostsKeepFuncs env)
    {m : Machine T} {answers : List (List Val)} (h : OnCourse env func outputs m answers)
    (hended : Ended (directRest env func outputs answers n m)) :
    ∀ segment fuel, n ≤ segment → n ≤ fuel → resumedRest env func outputs answers segment fuel m =
      directRest env func outputs answers n m := by
  induction n generalizing m answers with
  | zero => exact absurd hended not_ended_directRest_zero
  | succ n ih =>
    intro segment fuel hsegment hfuel
    obtain ⟨fuel, rfl⟩ : ∃ k, fuel = k + 1 := ⟨fuel - 1, by omega⟩
    cases firstIteration hown hsilent hhosts h with
    | plain m' hone hdirect hresumed =>
      rw [hdirect] at hended
      rw [hdirect, hresumed]
      exact ih (h.step hhosts hone) hended segment fuel (by omega) (by omega)
    | answered m' answer rest hanswers hone hdirect hresumed =>
      rw [hdirect] at hended
      rw [hdirect, hresumed]
      exact ih (h.step hhosts hone) hended segment segment (by omega) (by omega)
    | last hsame => exact hsame segment fuel n
    | stuck hdirect hresumed => exact absurd hended (hdirect n)

/-- The direct call ends as the resumed one does. -/
theorem directRest_of_resumedRest {func : Nat} {outputs : List Val} {segment fuel : Nat}
    (hown : OwnErrors env) (hsilent : SilentReturns env) (hhosts : HostsKeepFuncs env)
    {m : Machine T} {answers : List (List Val)} (h : OnCourse env func outputs m answers)
    (hended : Ended (resumedRest env func outputs answers segment fuel m)) :
    ∃ n, directRest env func outputs answers n m =
      resumedRest env func outputs answers segment fuel m := by
  -- every segment consumes an answer, and within a segment every iteration consumes fuel
  induction answers generalizing m fuel with
  | nil =>
    induction fuel generalizing m with
    | zero => exact absurd hended not_ended_resumedRest_zero
    | succ fuel ih =>
      cases firstIteration hown hsilent hhosts h with
      | plain m' hone hdirect hresumed =>
        rw [hresumed] at hended
        obtain ⟨n, hn⟩ := ih (h.step hhosts hone) hended
        exact ⟨n + 1, by rw [hdirect, hresumed, hn]⟩
      | answered m' answer rest hanswers => cases hanswers
      | last hsame => exact ⟨1, (hsame segment fuel 0).symm⟩
      | stuck hdirect hresumed => exact absurd hended (hresumed segment fuel)
  | cons answer rest ihAnswers =>
    induction fuel generalizing m with
    | zero => exact absurd hended not_ended_resumedRest_zero
    | succ fuel ih =>
      cases firstIteration hown hsilent hhosts h with
      | plain m' hone hdirect hresumed =>
        rw [hresumed] at hended
        obtain ⟨n, hn⟩ := ih (h.step hhosts hone) hended
        exact ⟨n + 1, by rw [hdirect, hresumed, hn]⟩
      | answered m' answer' rest' hanswers hone hdirect hresumed =>
        cases hanswers
        rw [hresumed] at hended
        obtain ⟨n, hn⟩ := ihAnswers (h.step hhosts hone) hended
        exact ⟨n + 1, by rw [hdirect, hresumed, hn]⟩
      | last hsame => exact ⟨1, (hsame segment fuel 0).symm⟩
      | stuck hdirect hresumed => exact absurd hended (hresumed segment fuel)

/-! ## Calls from outside -/

lemma not_resumable_startWasmFunc (hown : OwnErrors env) (wasmFunc : WasmFuncEntity)
    (lenResults : Nat) (params : List UntypedVal) :
    NoFault IsResumable (startWasmFunc env wasmFunc lenResults params) := by
  refine NoFault.bind ?_ fun _ => NoFault.bind ?_ fun _ =>
    not_resumable_of_noFault noFault_newExecutor
  · refine NoFault.get.bind fun _ => (not_resumable_liftTrap _).bind fun values => ?_
    refine (NoFault.modify _).bind fun _ => (not_resumable_liftTrap _).bind fun frame => ?_
    refine (not_resumable_of_noFault (noFault_assume _)).bind fun _ => ?_
    refine (NoFault.modify _).bind fun _ => NoFault.get.bind fun _ => (not_resumable_liftTrap _).bind fun _ => ?_
    exact NoFault.modify _
  · intro m stop m' h
    exact not_isResumable_hook hown h

lemma not_resumable_dispatchHostFunc (hown : OwnErrors env) (hostFunc : HostFuncEntity)
    (inst : Option Nat) : NoFault IsResumable (dispatchHostFunc env hostFunc inst) := by
  intro m stop m' h
  rcases hcall : env.hostCall hostFunc.func inst ((m.stack.values.top
    (max hostFunc.lenParams hostFunc.lenResults)).take hostFunc.lenParams) m.store with
    ⟨result, store⟩
  simp only [dispatchHostFunc, get_bind, hcall, modify_bind] at h
  cases result with
  | ok values => cases h
  | error error =>
    cases h
    rintro ⟨hostError, func, head, heq⟩
    have herror := Stop.fault.inj heq
    exact hown.hostCall _ _ _ _ error (by rw [hcall]) _ _ _ herror

/-- A call from outside runs a loop, or none. -/
lemma executeRootWith_cases (hown : OwnErrors env) (hsilent : SilentReturns env) (func : Nat)
    (params : List UntypedVal) (lenResults : Nat) (m : Machine T) :
    (∃ m₀, Starts env func params lenResults m m₀ ∧
      ∀ loop, executeRootWith env loop func params lenResults m = finishing lenResults loop m₀) ∨
    ∃ result, (∀ loop, executeRootWith env loop func params lenResults m = result) ∧
      ∀ stop m', result = .error stop m' → ¬ IsResumable stop := by
  cases hentity : m.store.funcs[func]? with
  | none =>
    refine .inr ⟨.error .panic { m with stack := m.stack.reset }, fun loop => ?_, ?_⟩
    · simp only [executeRootWith, modify_bind, get_bind, hentity, unwrap]
      rfl
    · intro stop m' h
      cases h
      exact fun hstop => not_isFault_panic (isFault_of_isResumable hstop)
  | some entity =>
    cases entity with
    | wasm wasmFunc =>
      cases hstart : startWasmFunc env wasmFunc lenResults params
        { m with stack := m.stack.reset } with
      | ok u m₀ =>
        refine .inl ⟨m₀, ⟨wasmFunc, hentity, hstart⟩, fun loop => ?_⟩
        have hreturn : (invokeCallHook env .returningFromWasm : ExecM T Unit) = pure () :=
          funext fun m => invokeCallHook_silent hsilent (.inr rfl) m
        simp only [executeRootWith, modify_bind, get_bind, hentity, unwrap, pure_bind,
          bind_ok hstart, hreturn]
        rfl
      | error stop m₁ =>
        refine .inr ⟨.error stop m₁, fun loop => ?_, ?_⟩
        · simp only [executeRootWith, modify_bind, get_bind, hentity, unwrap, pure_bind,
            bind_error hstart]
        · intro stop' m' h
          cases h
          exact not_resumable_startWasmFunc hown _ _ _ _ _ _ hstart
    | host hostFunc =>
      refine .inr ⟨executeRootWith env (pure none) func params lenResults m, fun loop => ?_, ?_⟩
      · simp only [executeRootWith, modify_bind, get_bind, hentity, unwrap, pure_bind]
      · intro stop m' h
        simp only [executeRootWith, modify_bind, get_bind, hentity, unwrap, pure_bind] at h
        refine (NoFault.bind (not_resumable_liftTrap _) fun values =>
          (NoFault.modify _).bind fun _ => ?_) _ _ _ h
        refine (not_resumable_dispatchHostFunc hown _ _).bind fun _ => ?_
        exact (not_resumable_of_noFault (noFault_rootResults _)).bind fun _ => NoFault.pure _

lemma callResumably_eq (env : Engine T) (func : Nat) (params : List UntypedVal)
    (outputs : List Val) (answers : List (List Val)) (fuel : Nat) :
    callResumably env func params outputs answers fuel =
      resumableCall func (executeRootWith env (execute env fuel) func params outputs.length) >>=
        afterSegment env outputs answers fuel := by
  rw [← executeRootFunc_eq]
  refine bind_congr fun call => ?_
  cases call <;> rfl

/-- A call that runs no loop has nothing to resume. -/
lemma afterSegment_root {func segment : Nat} {outputs : List Val} {answers : List (List Val)}
    {x y : ExecM T (Option (List UntypedVal))} {m : Machine T}
    {root : EStateM.Result Stop (Machine T) (Option (List UntypedVal))} (hx : x m = root)
    (hy : y m = root) (hstop : ∀ stop m', root = .error stop m' → ¬ IsResumable stop) :
    (resumableCall func x >>= afterSegment env outputs answers segment) m =
      resumableCall func y m := by
  cases root with
  | ok results m' =>
    have hfinished : ∀ {z : ExecM T (Option (List UntypedVal))}, z m = .ok results m' →
        resumableCall func z m = .ok (results.map .finished) m' := by
      intro z hz
      simp only [resumableCall, hz]
    rw [bind_ok (hfinished hx), hfinished hy]
    cases results with
    | none => rfl
    | some results =>
      show resumeAll env outputs segment (.finished results) answers m' = _
      rw [resumeAll_finished]
      rfl
  | error stop m' =>
    have hnot := hstop stop m' rfl
    rw [bind_error (resumableCall_error hx hnot), resumableCall_error hy hnot]

/-- Where the loop of a call starts, the pointer to the frame is at the frame of its function. -/
lemma framed_of_starts {func lenResults : Nat} {params : List UntypedVal} {m m₀ : Machine T}
    (h : Starts env func params lenResults m m₀) : Framed m₀ := by
  obtain ⟨wasmFunc, -, hstart⟩ := h
  obtain ⟨_, m₁, -, hstart⟩ := bind_eq_ok.mp hstart
  obtain ⟨_, m₂, -, hnew⟩ := bind_eq_ok.mp hstart
  obtain ⟨inst, cache, frame, -, -, hpeek, rfl⟩ := newExecutor_eq_ok.mp hnew
  exact framed_iff.mpr ⟨frame, hpeek, rfl⟩

lemma kept_of_starts {func lenResults : Nat} {params : List UntypedVal} {m m₀ : Machine T}
    (h : Starts env func params lenResults m m₀) : FuncsKept m m₀ := by
  obtain ⟨wasmFunc, -, hstart⟩ := h
  have hset : ∀ values : ValueStack, KeepsStore (setValues values : ExecM T Unit) :=
    fun _ => Keeps.modify fun _ => rfl
  have henter : KeepsStore (enterRootFunc env wasmFunc lenResults params) := by
    refine Keeps.get.bind fun _ => (readOnly_liftTrap _).keeps.bind fun values => ?_
    refine (hset _).bind fun _ => (readOnly_liftTrap _).keeps.bind fun frame => ?_
    refine (readOnly_assume _).keeps.bind fun _ => (hset _).bind fun _ => ?_
    refine Keeps.get.bind fun _ => (readOnly_liftTrap _).keeps.bind fun _ => ?_
    exact Keeps.modify fun _ => rfl
  have hnew : KeepsStore (newExecutor : ExecM T Unit) :=
    Keeps.get.bind fun _ => (readOnly_unwrap _).keeps.bind fun _ =>
      (keepsStore_updateCache _).bind fun _ => Keeps.get.bind fun _ =>
        (readOnly_unwrap _).keeps.bind fun _ => Keeps.modify fun _ => rfl
  have hall : Moves FuncsKept (startWasmFunc env wasmFunc lenResults params) :=
    kept_bind (kept_of_keepsStore henter) fun _ => kept_bind (kept_invokeCallHook env _) fun _ =>
      kept_of_keepsStore hnew
  have hkept := hall { m with stack := m.stack.reset }
  rw [hstart] at hkept
  exact hkept

/-- Where every failing host function is called by a nested call and answered with values of its
type, and the hook does nothing at returns, the resumed call ends as the direct one: with the same
results, errors, stacks and store. No failure leaves anything on the value stack. -/
theorem resumed_iff_direct {func : Nat} {params : List UntypedVal} {outputs : List Val}
    {answers : List (List Val)} {m : Machine T} (hown : OwnErrors env)
    (hhosts : HostsKeepFuncs env) (houtputs : Outputs env func outputs m)
    (hsilent : SilentReturns env)
    (hanswerable : ∀ m₀, Starts env func params outputs.length m m₀ →
      AllAnswerable env m₀ answers) :
    (∀ result, Ended result →
      ((∃ fuel, callResumably env func params outputs answers fuel m = result) ↔
        ∃ fuel, resumableCall func
          (callDirectly env func params outputs.length answers fuel) m = result)) ∧
    ∀ m₀, Starts env func params outputs.length m m₀ →
      ∀ (n : Nat) (m' : Machine T) (answer : List Val) (rest : List (List Val)),
        Steps (DirectStep env) n (m₀, answers) (m', answer :: rest) →
        ∀ stop m₁, executeOne env m' = .error stop m₁ → IsResumable stop →
          m₁.stack.values = m'.stack.values := by
  have hcourse : ∀ m₀, Starts env func params outputs.length m m₀ →
      OnCourse env func outputs m₀ answers := fun m₀ hstarts =>
    ⟨.inl (framed_of_starts hstarts), houtputs.of_kept (kept_of_starts hstarts),
      hanswerable m₀ hstarts⟩
  constructor
  · intro result hended
    rcases executeRootWith_cases hown hsilent func params outputs.length m with
      ⟨m₀, hstarts, hloop⟩ | ⟨root, hroot, hstop⟩
    · have hresumed : ∀ fuel, callResumably env func params outputs answers fuel m =
          resumedRest env func outputs answers fuel fuel m₀ := fun fuel => by
        rw [callResumably_eq]
        exact bind_of_eq (resumableCall_congr (hloop _)) _
      have hdirect : ∀ fuel, resumableCall func
          (callDirectly env func params outputs.length answers fuel) m =
          directRest env func outputs answers fuel m₀ := fun fuel =>
        resumableCall_congr (hloop _)
      constructor
      · rintro ⟨fuel, rfl⟩
        rw [hresumed] at hended
        obtain ⟨n, hn⟩ := directRest_of_resumedRest hown hsilent hhosts (hcourse m₀ hstarts) hended
        exact ⟨n, by rw [hdirect, hn, hresumed]⟩
      · rintro ⟨fuel, rfl⟩
        rw [hdirect] at hended
        have hsame := resumedRest_of_directRest hown hsilent hhosts (hcourse m₀ hstarts) hended
        exact ⟨fuel, by rw [hresumed, hdirect, hsame fuel fuel le_rfl le_rfl]⟩
    · have hsame : ∀ fuel fuel', callResumably env func params outputs answers fuel m =
          resumableCall func (callDirectly env func params outputs.length answers fuel') m := by
        intro fuel fuel'
        rw [callResumably_eq]
        exact afterSegment_root (hroot _) (hroot _) hstop
      constructor
      · rintro ⟨fuel, rfl⟩
        exact ⟨fuel, (hsame fuel fuel).symm⟩
      · rintro ⟨fuel, rfl⟩
        exact ⟨fuel, hsame fuel fuel⟩
  · intro m₀ hstarts n m' answer rest hsteps stop m₁ hfail hresumable
    have hthere : OnCourse env func outputs m' (answer :: rest) :=
      hsteps.invariant
        (I := fun s : Machine T × List (List Val) => OnCourse env func outputs s.1 s.2)
        (fun _ _ hstep h => h.step hhosts hstep) (hcourse m₀ hstarts)
    have hfails := failsResumably_iff.mpr ⟨stop, m₁, hfail, hresumable⟩
    obtain ⟨handle, hostFunc, hcall, -⟩ := hthere.answerable 0 m' answer rest (.refl _) hfails
    obtain ⟨results, hfailed⟩ := failed_nested hown hsilent
      (framed_of_nestedHostCall hthere.framed hcall) hcall hfail hresumable
    exact hfailed.values

/-- An engine whose one host function returns an `i32` and fails whenever it is called. -/
def failingEngine (code : List CompiledFunc) : Engine Unit :=
  { Engine.ofCode code [⟨[], [.i32]⟩] with
    hostCall := fun _ _ _ store => (.error (.i32ExitStatus 100), store) }

lemma ownErrors_failingEngine (code : List CompiledFunc) : OwnErrors (failingEngine code) := by
  refine ⟨?_, ?_⟩
  · rintro trampoline inst params store error ⟨⟩ hostError func head h
    cases h
  · intro hook hhook
    cases hhook

lemma silentReturns_failingEngine (code : List CompiledFunc) :
    SilentReturns (failingEngine code) := by
  intro hook hhook
  cases hhook

/-- The machine before the call. The host function has the handle 0. -/
def failingMachine (bodies : List EngineFunc) : Machine Unit where
  sp := ⟨0, 0⟩
  ip := ⟨0, 0⟩
  cache := default
  stack := ⟨⟨[], 16⟩, ⟨[], [], 4⟩⟩
  store := .ofFuncs (.host ⟨0, 1, 0, 0⟩ :: bodies.map fun body => .wasm ⟨0, body, 0⟩)

/-- A function that calls the host function and returns its result. -/
def nestedEngine : Engine Unit :=
  failingEngine [⟨[⟨1, .callImported0 ⟨0⟩ 0⟩, ⟨2, .returnReg 0⟩], [], 1⟩]

/-- A host function that fails takes an answer. -/
lemma answers_taken {m m' : Machine T} {answer : List Val} {rest left : List (List Val)}
    (hfails : failsResumably env m = true)
    (h : DirectStep env (m, answer :: rest) (m', left)) : left = rest := by
  have hstep : executeAnswered env (answer :: rest) m = .ok (.continue_, left) m' := h
  rw [executeAnswered_of_fails _ _ hfails] at hstep
  obtain ⟨flow, hpair, -⟩ := map_eq_ok.mp hstep
  cases hpair
  rfl

/-- Answers are taken, not added. -/
lemma answers_nil {n : Nat} {m m' : Machine T} {rest : List (List Val)}
    (h : Steps (DirectStep env) n (m, []) (m', rest)) : rest = [] := by
  have hkeep : ∀ s s' : Machine T × List (List Val),
      DirectStep env s s' → s.2 = [] → s'.2 = [] := by
    rintro ⟨m, answers⟩ ⟨m', rest⟩ hstep rfl
    have hstep' : executeAnswered env [] m = .ok (.continue_, rest) m' := hstep
    rw [executeAnswered_of_not fun _ => rfl] at hstep'
    obtain ⟨flow, hpair, -⟩ := map_eq_ok.mp hstep'
    cases hpair
    rfl
  exact h.invariant (I := fun s : Machine T × List (List Val) => s.2 = []) hkeep rfl

/-- The function returns the answer to its host function. -/
theorem resumed_iff_direct_nested :
    ∃ fuel m', resumableCall 1 (callDirectly nestedEngine 1 [] 1 [[⟨.i32, 42⟩]] fuel)
      (failingMachine [0]) = .ok (some (.finished [42])) m' := by
  have hhosts : HostsKeepFuncs nestedEngine := fun _ _ _ _ _ _ h => h
  have houtputs : Outputs nestedEngine 1 [⟨.i32, 0⟩] (failingMachine [0]) := ⟨_, rfl, rfl⟩
  have hanswerable : ∀ m₀, Starts nestedEngine 1 [] 1 (failingMachine [0]) m₀ →
      AllAnswerable nestedEngine m₀ [[⟨.i32, 42⟩]] := by
    rintro m₀ ⟨wasmFunc, hfunc, hstart⟩ n m' answer rest hsteps -
    cases hfunc
    obtain rfl := congrArg finalState hstart
    cases hsteps with
    | refl => exact ⟨0, ⟨0, 1, 0, 0⟩, ⟨_, _, rfl, rfl, rfl, rfl⟩, rfl, rfl⟩
    | @head n _ s _ hstep hsteps =>
      obtain ⟨m₁, left⟩ := s
      obtain rfl := answers_taken (by decide +kernel) hstep
      exact absurd (answers_nil hsteps) (List.cons_ne_nil _ _)
  have hreturned : returned (callResumably nestedEngine 1 [] [⟨.i32, 0⟩] [[⟨.i32, 42⟩]] 2
      (failingMachine [0])) = some (some (.finished [42])) := by decide +kernel
  obtain ⟨m', hresumed⟩ : ∃ m', callResumably nestedEngine 1 [] [⟨.i32, 0⟩] [[⟨.i32, 42⟩]] 2
      (failingMachine [0]) = .ok (some (.finished [42])) m' := ⟨_, eq_ok_of_returned hreturned⟩
  have hiff := (resumed_iff_direct (ownErrors_failingEngine _) hhosts houtputs
    (silentReturns_failingEngine _) hanswerable).1 (.ok (some (.finished [42])) m') rfl
  obtain ⟨fuel, hdirect⟩ := hiff.mp ⟨2, hresumed⟩
  exact ⟨fuel, m', hdirect⟩

/-- More fuel changes nothing once the loop has come to an end. -/
lemma executeDirectly_more {k n : Nat} {answers : List (List Val)} {m : Machine T}
    {result : EStateM.Result Stop (Machine T) (Option Unit)}
    (h : executeDirectly env k answers m = result) (hended : ∀ m', result ≠ .ok none m') :
    executeDirectly env (k + n) answers m = result := by
  induction k generalizing answers m with
  | zero => exact absurd h.symm (hended m)
  | succ k ih =>
    rw [Nat.add_right_comm]
    cases hone : executeAnswered env answers m with
    | ok pair m' =>
      obtain ⟨flow, rest⟩ := pair
      rw [executeDirectly, bind_ok hone] at h ⊢
      cases flow with
      | continue_ => exact ih h
      | break_ => exact h
    | error stop m' =>
      rw [executeDirectly, bind_error hone] at h ⊢
      exact h

/-- A direct call that fails does not return with any other amount of fuel. -/
lemma callDirectly_fails {func lenResults k : Nat} {params results : List UntypedVal}
    {answers : List (List Val)} {m m' : Machine T} (hown : OwnErrors env)
    (hsilent : SilentReturns env)
    (hfails : returned (callDirectly env func params lenResults answers k m) = none) (fuel : Nat) :
    callDirectly env func params lenResults answers fuel m ≠ .ok (some results) m' := by
  intro h
  rcases executeRootWith_cases hown hsilent func params lenResults m with
    ⟨m₀, -, hloop⟩ | ⟨root, hroot, -⟩
  · rw [callDirectly, hloop] at h hfails
    obtain ⟨ended, m₁, hend, hfinish⟩ := bind_eq_ok.mp h
    have hended : ended = some () := by
      cases ended with
      | none => cases hfinish
      | some u => rfl
    subst hended
    -- the loop ends in the same way with the fuel of both calls
    have hmore : executeDirectly env (fuel + k) answers m₀ = .ok (some ()) m₁ :=
      executeDirectly_more hend (by simp)
    have hsame : executeDirectly env k answers m₀ = .ok none (finalState (executeDirectly env k
        answers m₀)) ∨ executeDirectly env k answers m₀ = .ok (some ()) m₁ := by
      cases hk : executeDirectly env k answers m₀ with
      | error stop m₂ =>
        have hk' := executeDirectly_more (n := fuel) hk (by simp)
        rw [Nat.add_comm, hmore] at hk'
        cases hk'
      | ok ended m₂ =>
        cases ended with
        | none => exact .inl rfl
        | some u =>
          have hk' := executeDirectly_more (n := fuel) hk (by simp)
          rw [Nat.add_comm, hmore] at hk'
          exact .inr hk'.symm
    rcases hsame with hk | hk
    · rw [finishing, bind_ok hk] at hfails
      cases hfails
    · have hreturns : finishing lenResults (executeDirectly env k answers) m₀ =
          .ok (some results) m' := (finishing_congr (hk.trans hend.symm)).trans h
      rw [hreturns] at hfails
      cases hfails
  · rw [callDirectly, hroot] at h hfails
    rw [h] at hfails
    cases hfails

/-- A function that calls another one, which ends with a tail call of the host function. -/
def tailEngine : Engine Unit :=
  failingEngine [⟨[⟨1, .returnCallImported0 0⟩], [], 1⟩,
    ⟨[⟨2, .callInternal0 ⟨0⟩ 0⟩, ⟨3, .returnReg 0⟩], [], 1⟩]

/-- The resumed call returns the answer. Where the host function returns it, the tail call is run
again in the frame of the caller, and the call fails. -/
theorem tail_called_host :
    (∃ fuel m', callResumably tailEngine 2 [] [⟨.i32, 0⟩] [[⟨.i32, 42⟩]] fuel
      (failingMachine [0, 1]) = .ok (some (.finished [42])) m') ∧
    ∀ fuel results m', callDirectly tailEngine 2 [] 1 [[⟨.i32, 42⟩]] fuel (failingMachine [0, 1]) ≠
      .ok (some results) m' := by
  have hresumed : returned (callResumably tailEngine 2 [] [⟨.i32, 0⟩] [[⟨.i32, 42⟩]] 2
      (failingMachine [0, 1])) = some (some (.finished [42])) := by decide +kernel
  have hfails : returned (callDirectly tailEngine 2 [] 1 [[⟨.i32, 42⟩]] 3
      (failingMachine [0, 1])) = none := by decide +kernel
  exact ⟨⟨2, _, eq_ok_of_returned hresumed⟩, fun fuel results m' =>
    callDirectly_fails (ownErrors_failingEngine _) (silentReturns_failingEngine _) hfails fuel⟩

end Executor

end MotokoDebugger
