import MotokoDebugger.Engine.HostFailures

/-!
# Resumptions

The two calls that are compared, an iteration at a time: the call whose host functions fail and are
answered by resumptions, and the one in which they return the answers themselves.

* `DirectStep`: an iteration of the direct call.
* `Answerable`: the host function is called by a nested call, and the answer has its type.
* `resume_eq`: a resumption with an answer of the right type passes its checks.
* `FirstIteration`: both calls go on in one state, end in one state, or do not end.
-/

namespace MotokoDebugger

namespace Executor

open StateExcept Runs

variable {T : Type} {α : Type} {env : Engine T}

/-! ## The runs -/

/-- An iteration of the direct call after which the loop goes on, with the answers left. -/
def DirectStep (env : Engine T) (s s' : Machine T × List (List Val)) : Prop :=
  executeAnswered env s.2 s.1 = .ok (.continue_, s'.2) s'.1

/-- `m₀` is where the loop of a call of a compiled function starts. -/
def Starts (env : Engine T) (func : Nat) (params : List UntypedVal) (lenResults : Nat)
    (m m₀ : Machine T) : Prop :=
  ∃ wasmFunc, m.store.funcs[func]? = some (.wasm wasmFunc) ∧
    startWasmFunc env wasmFunc lenResults params { m with stack := m.stack.reset } = .ok () m₀

/-- The instruction is a nested call of a host function, and the answer has the number and the types
of its results. -/
def Answerable (env : Engine T) (m : Machine T) (answer : List Val) : Prop :=
  ∃ func hostFunc, NestedHostCall env m func hostFunc ∧
    answer.length = hostFunc.lenResults ∧
    answer.map (·.ty) = (env.funcType hostFunc.ty).results

/-- The outcome is a value or an error of the source: no panic, no undefined behaviour and no lack
of fuel. -/
def Ended : EStateM.Result Stop (Machine T) (Option α) → Prop
  | .ok result _ => result.isSome
  | .error stop _ => stop.IsFault

/-! ## The rest of a call -/

/-- The results of the root function, once its loop has ended. -/
def finishing (lenResults : Nat) (loop : ExecM T (Option Unit)) :
    ExecM T (Option (List UntypedVal)) := do
  match ← loop with
  | none => return none
  | some _ => return some (← rootResults lenResults)

/-- The rest of a direct call from an iteration of its loop on. -/
def directRest (env : Engine T) (func : Nat) (outputs : List Val) (answers : List (List Val))
    (fuel : Nat) : ExecM T (Option ResumableCall) :=
  resumableCall func (finishing outputs.length (executeDirectly env fuel answers))

/-- The resumptions after a segment of a resumable call. -/
def afterSegment (env : Engine T) (outputs : List Val) (answers : List (List Val)) (segment : Nat) :
    Option ResumableCall → ExecM T (Option ResumableCall)
  | none => pure none
  | some call => resumeAll env outputs segment call answers

/-- The rest of a resumable call: `fuel` is what is left of that of the first segment, the others
have `segment` each. -/
def resumedRest (env : Engine T) (func : Nat) (outputs : List Val) (answers : List (List Val))
    (segment fuel : Nat) : ExecM T (Option ResumableCall) :=
  resumableCall func (finishing outputs.length (execute env fuel)) >>=
    afterSegment env outputs answers segment

lemma resumableCall_congr {func : Nat} {x y : ExecM T (Option (List UntypedVal))}
    {m m' : Machine T} (h : x m = y m') : resumableCall func x m = resumableCall func y m' := by
  unfold resumableCall
  rw [h]

lemma finishing_congr {lenResults : Nat} {x y : ExecM T (Option Unit)} {m m' : Machine T}
    (h : x m = y m') : finishing lenResults x m = finishing lenResults y m' :=
  bind_of_eq h _

/-! ## The checks of a resumption -/

lemma resolveFunc_host {handle func : Nat} {entity : HostFuncEntity} {m m' : Machine T}
    (h : resolveFunc handle m = .ok (.host func entity) m') :
    m'.store.funcs[func]? = some (.host entity) := by
  simp only [resolveFunc, bind_eq_ok, get_apply, unwrap_eq_ok, pure_apply,
    EStateM.Result.ok.injEq] at h
  obtain ⟨_, _, ⟨rfl, rfl⟩, found, _, ⟨hfound, rfl⟩, hcallee, rfl⟩ := h
  cases found with
  | wasm wasmFunc => cases hcallee
  | host hostFunc =>
    cases hcallee
    exact hfound

/-- A host function that a call finds is the one under its handle. -/
lemma host_of_callee {site : CallSite} {func : Nat} {entity : HostFuncEntity} {m : Machine T}
    (h : callee env site m = some (.host func entity)) :
    m.store.funcs[func]? = some (.host entity) := by
  obtain ⟨results, pulled, m₁, hresolve⟩ := resolveSite_of_callee h
  have hstill := (keeps_still_resolveSite _ _).of_ok hresolve
  have hstore : m₁.store = m.store := congrArg (fun s => s.2.2.2) hstill
  rw [← hstore]
  cases htarget : site.target with
  | internal func' =>
    simp only [resolveSite, htarget, bind_eq_ok, pure_apply, EStateM.Result.ok.injEq,
      Prod.mk.injEq, reduceCtorEq, false_and, and_false, exists_false] at hresolve
  | imported func' =>
    simp only [resolveSite, htarget, bind_eq_ok, pure_apply, EStateM.Result.ok.injEq,
      Prod.mk.injEq] at hresolve
    obtain ⟨_, _, -, _, _, -, _, _, hfunc, ⟨-, rfl, -⟩, rfl⟩ := hresolve
    exact resolveFunc_host hfunc
  | indirect funcType imm16 =>
    simp only [resolveSite, htarget, bind_eq_ok, pure_apply, EStateM.Result.ok.injEq,
      Prod.mk.injEq] at hresolve
    obtain ⟨_, _, -, _, _, -, _, _, -, _, _, hfunc, ⟨-, rfl, -⟩, rfl⟩ := hresolve
    exact resolveFunc_host hfunc

lemma matchResults_typed {ty : FuncType} {results : List ValType} (h : results = ty.results)
    (checkType : Bool) : ty.matchResults results checkType = .ok () := by
  subst h
  simp [FuncType.matchResults]

lemma matchResults_untyped {ty : FuncType} {results : List ValType}
    (h : results.length = ty.results.length) : ty.matchResults results false = .ok () := by
  simp [FuncType.matchResults, h]

lemma matchResultsOf_ok {func : Nat} {entity : FuncEntity} {results : List Val} {checkType : Bool}
    {m : Machine T} (hentity : m.store.funcs[func]? = some entity)
    (hmatch : (env.funcType entity.tyDedup).matchResults (results.map (·.ty)) checkType = .ok ()) :
    matchResultsOf env func results checkType m = .ok () m := by
  rw [matchResultsOf, get_bind, bind_ok (unwrap_eq_ok.mpr ⟨hentity, rfl⟩), hmatch]
  rfl

/-- What the calls of a resumable call are made for: its root function and its outputs. -/
structure Outputs (env : Engine T) (func : Nat) (outputs : List Val) (m : Machine T) : Prop where
  typed : ∃ entity, m.store.funcs[func]? = some entity ∧
    outputs.length = (env.funcType entity.tyDedup).results.length

lemma Outputs.of_kept {func : Nat} {outputs : List Val} {m m' : Machine T}
    (h : Outputs env func outputs m) (hkept : FuncsKept m m') : Outputs env func outputs m' := by
  obtain ⟨entity, hentity, hlen⟩ := h.typed
  exact ⟨entity, hkept func entity hentity, hlen⟩

/-- A resumption with an answer of the right type goes on with it. -/
lemma resume_eq {func handle fuel : Nat} {hostFunc : HostFuncEntity} {hostError : Error}
    {results : RegSpan} {answer outputs : List Val} {m : Machine T}
    (hhost : m.store.funcs[handle]? = some (.host hostFunc))
    (htypes : answer.map (·.ty) = (env.funcType hostFunc.ty).results)
    (houtputs : Outputs env func outputs m) :
    ResumableInvocation.resume env ⟨func, handle, hostError, results⟩ answer outputs fuel m =
      resumableCall func (resumeFunc env results (answer.map (·.bits)) outputs.length fuel) m := by
  obtain ⟨entity, hentity, hlen⟩ := houtputs.typed
  have hinputs : matchResultsOf env handle answer true m = .ok () m :=
    matchResultsOf_ok hhost (matchResults_typed htypes true)
  have houts : matchResultsOf env func outputs false m = .ok () m :=
    matchResultsOf_ok hentity (matchResults_untyped (by rw [List.length_map, hlen]))
  rw [ResumableInvocation.resume, bind_ok hinputs, bind_ok houts]

/-! ## The first iteration -/

lemma failsResumably_iff {m : Machine T} :
    failsResumably env m = true ↔
      ∃ stop m', executeOne env m = .error stop m' ∧ IsResumable stop := by
  unfold failsResumably
  constructor
  · intro h
    split at h
    · rename_i hone
      exact ⟨_, _, hone, _, _, _, rfl⟩
    · cases h
  · rintro ⟨stop, m', hone, hostError, func, head, rfl⟩
    rw [hone]

/-- The iteration is not one that an answer replaces. -/
lemma executeAnswered_of_not {m : Machine T} {answers : List (List Val)}
    (h : failsResumably env m = true → answers = []) :
    executeAnswered env answers m = ((·, answers) <$> executeOne env) m := by
  unfold executeAnswered
  split
  · rename_i hfails
    cases h hfails
  · rfl

lemma executeAnswered_of_fails {m : Machine T} (answer : List Val) (answers : List (List Val))
    (h : failsResumably env m = true) :
    executeAnswered env (answer :: answers) m =
      ((·, answers) <$> executeOne (answering env (answer.map (·.bits)))) m := by
  unfold executeAnswered
  rw [h]

/-- What the first iteration does to the rest of the two calls. -/
inductive FirstIteration (env : Engine T) (func : Nat) (outputs : List Val) (m : Machine T)
    (answers : List (List Val)) : Prop where
  /-- It goes on in both. -/
  | plain (m' : Machine T) (hone : DirectStep env (m, answers) (m', answers))
      (hdirect : ∀ fuel, directRest env func outputs answers (fuel + 1) m =
        directRest env func outputs answers fuel m')
      (hresumed : ∀ segment fuel, resumedRest env func outputs answers segment (fuel + 1) m =
        resumedRest env func outputs answers segment fuel m')
  /-- It is the last one of a segment, which is answered. -/
  | answered (m' : Machine T) (answer : List Val) (rest : List (List Val))
      (hanswers : answers = answer :: rest) (hone : DirectStep env (m, answers) (m', rest))
      (hdirect : ∀ fuel, directRest env func outputs answers (fuel + 1) m =
        directRest env func outputs rest fuel m')
      (hresumed : ∀ segment fuel, resumedRest env func outputs answers segment (fuel + 1) m =
        resumedRest env func outputs rest segment segment m')
  /-- It is the last one of both. -/
  | last (hsame : ∀ segment fuel fuel',
      resumedRest env func outputs answers segment (fuel + 1) m =
        directRest env func outputs answers (fuel' + 1) m)
  /-- Neither of the two comes to an end. -/
  | stuck (hdirect : ∀ fuel, ¬ Ended (directRest env func outputs answers (fuel + 1) m))
      (hresumed : ∀ segment fuel,
        ¬ Ended (resumedRest env func outputs answers segment (fuel + 1) m))

lemma executeDirectly_step {m m' : Machine T} {answers rest : List (List Val)} (fuel : Nat)
    (h : DirectStep env (m, answers) (m', rest)) :
    executeDirectly env (fuel + 1) answers m = executeDirectly env fuel rest m' := by
  rw [executeDirectly, bind_ok h]

/-- An iteration after which both loops go on. -/
lemma firstIteration_continue {func : Nat} {outputs : List Val} {m m' : Machine T}
    (answers : List (List Val)) (hone : executeOne env m = .ok .continue_ m') :
    FirstIteration env func outputs m answers := by
  have hfails : failsResumably env m = true → answers = [] := by
    intro h
    obtain ⟨stop, m₁, hfail, -⟩ := failsResumably_iff.mp h
    rw [hone] at hfail
    cases hfail
  have hstep : DirectStep env (m, answers) (m', answers) := by
    show executeAnswered env answers m = _
    rw [executeAnswered_of_not hfails]
    exact map_eq_ok.mpr ⟨_, rfl, hone⟩
  refine .plain m' hstep (fun fuel => ?_) fun segment fuel => ?_
  · exact resumableCall_congr (finishing_congr (executeDirectly_step fuel hstep))
  · have hexec : execute env (fuel + 1) m = execute env fuel m' := by
      rw [execute, bind_ok hone]
    exact bind_of_eq (resumableCall_congr (finishing_congr hexec)) _

lemma resumableCall_resumable {func : Nat} {x : ExecM T (Option (List UntypedVal))}
    {m m' : Machine T} {invocation : ResumableInvocation}
    (h : resumableCall func x m = .ok (some (.resumable invocation)) m') :
    ∃ stop, x m = .error stop m' ∧ IsResumable stop := by
  unfold resumableCall at h
  split at h
  · rename_i results m₁ hx
    cases results <;> cases h
  · rename_i hx
    cases h
    exact ⟨_, hx, _, _, _, rfl⟩
  · cases h

lemma resumableCall_error {func : Nat} {x : ExecM T (Option (List UntypedVal))} {m m' : Machine T}
    {stop : Stop} (h : x m = .error stop m') (hstop : ¬ IsResumable stop) :
    resumableCall func x m = .error stop m' := by
  unfold resumableCall
  rw [h]
  cases stop with
  | fault error =>
    cases error with
    | resumableHost hostError func head => exact absurd ⟨_, _, _, rfl⟩ hstop
    | _ => rfl
  | panic => rfl
  | undefined => rfl

lemma noFault_rootResults (lenResults : Nat) :
    NoFault Stop.IsFault (rootResults lenResults : ExecM T _) :=
  NoFault.get.bind fun _ => noFault_unwrap _

lemma resumeAll_finished (outputs : List Val) (segment : Nat) (results : List UntypedVal)
    (answers : List (List Val)) :
    resumeAll env outputs segment (.finished results) answers =
      pure (some (.finished results)) := by
  cases answers <;> rfl

/-- An iteration that is the last one of both loops. -/
lemma firstIteration_last {func : Nat} {outputs : List Val} {m : Machine T}
    {answers : List (List Val)} (hlast : ∀ m', executeOne env m ≠ .ok .continue_ m')
    (hnot : failsResumably env m = true → answers = []) :
    FirstIteration env func outputs m answers := by
  have hsame : ∀ fuel fuel',
      execute env (fuel + 1) m = executeDirectly env (fuel' + 1) answers m := by
    intro fuel fuel'
    cases hone : executeOne env m with
    | ok flow m' =>
      cases flow with
      | continue_ => exact absurd hone (hlast m')
      | break_ =>
        have hanswered : executeAnswered env answers m = .ok (.break_, answers) m' := by
          rw [executeAnswered_of_not hnot]
          exact map_eq_ok.mpr ⟨_, rfl, hone⟩
        rw [execute, executeDirectly, bind_ok hone, bind_ok hanswered]
    | error stop m' =>
      have hanswered : executeAnswered env answers m = .error stop m' := by
        rw [executeAnswered_of_not hnot]
        exact map_eq_error.mpr hone
      rw [execute, executeDirectly, bind_error hone, bind_error hanswered]
  refine .last fun segment fuel fuel' => ?_
  have hrest : resumableCall func (finishing outputs.length (execute env (fuel + 1))) m =
      directRest env func outputs answers (fuel' + 1) m :=
    resumableCall_congr (finishing_congr (hsame fuel fuel'))
  cases hdirect : directRest env func outputs answers (fuel' + 1) m with
  | error stop m' =>
    rw [hdirect] at hrest
    rw [resumedRest, bind_error hrest]
  | ok call m' =>
    rw [hdirect] at hrest
    rw [resumedRest, bind_ok hrest]
    cases call with
    | none => rfl
    | some call =>
      cases call with
      | finished results =>
        show resumeAll env outputs segment (.finished results) answers m' = _
        rw [resumeAll_finished]
        rfl
      | resumable invocation =>
        -- then the iteration has failed, and there is no answer
        obtain ⟨stop, hfail, hstop⟩ := resumableCall_resumable hrest
        have hnil : answers = [] := by
          rcases bind_eq_error.mp hfail with hexec | ⟨result, m₁, -, hfinish⟩
          · obtain ⟨n, hn, m₁, hsteps, hone⟩ := execute_eq_error.mp hexec
            cases hsteps with
            | refl => exact hnot (failsResumably_iff.mpr ⟨stop, m', hone, hstop⟩)
            | head hone' _ => exact absurd hone' (hlast _)
          · cases result with
            | none => cases hfinish
            | some u =>
              rcases bind_eq_error.mp hfinish with hfinish | ⟨_, _, -, hpure⟩
              · exact absurd (isFault_of_isResumable hstop) (noFault_rootResults _ _ _ _ hfinish)
              · cases hpure
        subst hnil
        rfl

/-- An iteration whose host function fails, where the failure is answerable. -/
lemma firstIteration_answered {func : Nat} {outputs : List Val} {m : Machine T} {answer : List Val}
    {rest : List (List Val)} (hown : OwnErrors env) (hsilent : SilentReturns env)
    (hhosts : HostsKeepFuncs env) (hframed : Framed m) (houtputs : Outputs env func outputs m)
    (hfails : failsResumably env m = true) (hanswerable : Answerable env m answer) :
    FirstIteration env func outputs m (answer :: rest) := by
  obtain ⟨stop, m₁, hfail, hstop⟩ := failsResumably_iff.mp hfails
  obtain ⟨handle, hostFunc, hcall, hlen, htypes⟩ := hanswerable
  obtain ⟨results, hfailed⟩ := failed_nested hown hsilent hframed hcall hfail hstop
  obtain ⟨error, rfl⟩ := hfailed.stop
  obtain ⟨-, site, -, -, -, hcallee⟩ := hcall
  have hkept := hfailed.funcs hhosts
  have hlen' : (answer.map (·.bits)).length = hostFunc.lenResults := by rw [List.length_map, hlen]
  -- the first segment ends with the failure, and the resumption is accepted
  have hsegment : ∀ fuel, resumableCall func (finishing outputs.length (execute env (fuel + 1))) m =
      .ok (some (.resumable ⟨func, handle, error, results⟩)) m₁ := by
    intro fuel
    have hexec : finishing outputs.length (execute env (fuel + 1)) m =
        .error (.fault (.resumableHost error handle results.head.toInt)) m₁ :=
      bind_error (bind_error hfail)
    simp only [resumableCall, hexec, Int16.ofInt_toInt]
  have hresume : ∀ segment fuel,
      resumedRest env func outputs (answer :: rest) segment (fuel + 1) m = (resumableCall func
        (resumeFunc env results (answer.map (·.bits)) outputs.length segment) >>=
        afterSegment env outputs rest segment) m₁ := by
    intro segment fuel
    have haccepted : ResumableInvocation.resume env ⟨func, handle, error, results⟩ answer outputs
        segment m₁ = resumableCall func
          (resumeFunc env results (answer.map (·.bits)) outputs.length segment) m₁ :=
      resume_eq (hkept _ _ (host_of_callee hcallee)) htypes (houtputs.of_kept hkept)
    rw [resumedRest, bind_ok (hsegment fuel)]
    exact bind_of_eq haccepted (afterSegment env outputs rest segment)
  cases hcontinue : continueWith results (answer.map (·.bits)) m₁ with
  | ok u m₂ =>
    have hone := (hfailed.answered _ hlen' .continue_ m₂).mpr ⟨rfl, hcontinue⟩
    have hstep : DirectStep env (m, answer :: rest) (m₂, rest) := by
      show executeAnswered env (answer :: rest) m = _
      rw [executeAnswered_of_fails _ _ hfails]
      exact map_eq_ok.mpr ⟨_, rfl, hone⟩
    refine .answered m₂ answer rest rfl hstep (fun fuel => ?_) fun segment fuel => ?_
    · exact resumableCall_congr (finishing_congr (executeDirectly_step fuel hstep))
    · rw [hresume]
      exact bind_of_eq (resumableCall_congr (bind_ok hcontinue)) _
  | error stop' m₂ =>
    have hnot := noFault_continueWith _ _ _ _ _ hcontinue
    refine .stuck (fun fuel hended => ?_) fun segment fuel hended => ?_
    · cases hone : executeOne (answering env (answer.map (·.bits))) m with
      | ok flow m' =>
        obtain ⟨-, hcontinue'⟩ := (hfailed.answered _ hlen' flow m').mp hone
        rw [hcontinue] at hcontinue'
        cases hcontinue'
      | error stop m' =>
        have hstop := hfailed.noFault _ stop m' hone
        have hanswered : executeAnswered env (answer :: rest) m = .error stop m' := by
          rw [executeAnswered_of_fails _ _ hfails]
          exact map_eq_error.mpr hone
        have hloop : finishing outputs.length (executeDirectly env (fuel + 1) (answer :: rest)) m =
            .error stop m' := bind_error (bind_error hanswered)
        have hnot' : ¬ IsResumable stop := fun h => hstop (isFault_of_isResumable h)
        rw [directRest, resumableCall_error hloop hnot'] at hended
        exact hstop hended
    · have hsegment' : resumeFunc env results (answer.map (·.bits)) outputs.length segment m₁ =
          .error stop' m₂ := bind_error hcontinue
      have hnot' : ¬ IsResumable stop' := fun h => hnot (isFault_of_isResumable h)
      rw [hresume, bind_error (resumableCall_error hsegment' hnot')] at hended
      exact hnot hended

end Executor

end MotokoDebugger
