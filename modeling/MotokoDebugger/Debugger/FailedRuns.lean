import MotokoDebugger.Debugger.Entry
import MotokoDebugger.Debugger.Finish

/-!
# Requests that fail to start a function

`run` and `run_step` record what they are about to do before they check that they can.

* `Refused`: the requests that fail before they get to the stacks.
* `perform_of_refused`: the session such a request leaves.
* `failed_start_keeps_iff`: when that is the session it was made in.
-/

namespace MotokoDebugger

namespace Debugger

open StateExcept Executor

variable {T : Type} {env : Engine T}

/-- A request that starts a function. -/
inductive StartRequest where
  | run
  | runStep
deriving Repr, DecidableEq

/-- Makes a request; a `run` goes on for a bounded number of steps. -/
def StartRequest.perform (env : Engine T) (fuel : Nat) (name : Option String) (args : List Val) :
    StartRequest → DbgM T Unit
  | .run => do let _ ← Debugger.run env name args fuel
  | .runStep => Debugger.runStep env name args

/-- A request for the function `found` that fails before it gets to the stacks: there is no such
function, it takes other arguments, or it is a host function. -/
inductive Refused (env : Engine T) (s : Session T) (name : Option String) (args : List Val) :
    Option Nat → Prop where
  | noFunction : lookupFunc name s = .ok none s → Refused env s name args none
  | arguments {func : Nat} {entity : FuncEntity} : lookupFunc name s = .ok (some func) s →
      s.machine.store.funcs[func]? = some entity →
      (env.funcType entity.tyDedup).params ≠ args.map (·.ty) → Refused env s name args (some func)
  | host {func : Nat} {entity : HostFuncEntity} : lookupFunc name s = .ok (some func) s →
      s.machine.store.funcs[func]? = some (.host entity) → Refused env s name args (some func)

/-! ## The lookup -/

/-- The lookup does not depend on the interrupt. -/
lemma commutes_lookupFunc (isInterrupted : Bool) (name : Option String) :
    CommutesUpTo (fun _ => False) (fun s : Session T => { s with isInterrupted })
      (lookupFunc name) := by
  refine CommutesUpTo.get_bind (fun s => ?_) fun _ => rfl
  split
  · exact .pure _
  split
  · exact .pure _
  · exact @commutes_lookupFuncByName T (fun s => { s with isInterrupted }) (fun _ => rfl)
      (fun _ => rfl) _

lemma lookupFunc_marked {s : Session T} {name : Option String} {found : Option Nat}
    (isInterrupted : Bool) (h : lookupFunc name s = .ok found s) :
    lookupFunc name { s with isInterrupted } = .ok found { s with isInterrupted } := by
  have hmove := (commutes_lookupFunc isInterrupted name).eq (s := s) fun _ _ _ => id
  rw [h] at hmove
  exact hmove

/-! ## The refusal -/

lemma verifyInputs_refused {σ : Type} {types : List ValType} {params : List Val}
    (h : types ≠ params.map (·.ty)) (s : σ) :
    ∃ text, verifyInputs types params s = .error (.fault (.message text)) s := by
  unfold verifyInputs
  by_cases hlen : types.length = params.length
  · exact ⟨_, by simp [hlen, h, bail]; rfl⟩
  · exact ⟨_, by simp [hlen, bail]; rfl⟩

/-- `execute_func` of a function that takes other arguments. -/
lemma executeFunc_of_arguments {s : Session T} {args : List Val} {func : Nat}
    {entity : FuncEntity} (hentity : s.machine.store.funcs[func]? = some entity)
    (hne : (env.funcType entity.tyDedup).params ≠ args.map (·.ty)) :
    ∃ text, executeFunc env func args s = .error (.fault (.message text)) s := by
  have hget : unwrap s.machine.store.funcs[func]? s = .ok entity s := by
    rw [hentity]
    rfl
  obtain ⟨text, htext⟩ := verifyInputs_refused hne s
  exact ⟨text, by rw [executeFunc, get_bind, bind_ok hget, bind_error htext]⟩

/-- `execute_func` of a host function. -/
lemma executeFunc_of_host {s : Session T} {args : List Val} {func : Nat} {entity : HostFuncEntity}
    (hentity : s.machine.store.funcs[func]? = some (.host entity)) :
    ∃ text, executeFunc env func args s = .error (.fault (.message text)) s := by
  by_cases htypes : (env.funcType (FuncEntity.host entity).tyDedup).params = args.map (·.ty)
  · have hget : unwrap s.machine.store.funcs[func]? s = .ok (.host entity) s := by
      rw [hentity]
      rfl
    have hverify : verifyInputs (env.funcType (FuncEntity.host entity).tyDedup).params args s =
        .ok () s := verifyInputs_eq_ok.mpr ⟨htypes, rfl⟩
    exact ⟨_, by rw [executeFunc, get_bind, bind_ok hget, bind_ok hverify]; rfl⟩
  · exact executeFunc_of_arguments hentity htypes

/-- `execute_func` checks the function before it touches anything. -/
lemma executeFunc_refused {s s' : Session T} {name : Option String} {args : List Val} {func : Nat}
    (h : Refused env s name args (some func)) (hs : s'.machine = s.machine) :
    ∃ text, executeFunc env func args s' = .error (.fault (.message text)) s' := by
  cases h with
  | arguments _ hentity hne => exact executeFunc_of_arguments (hs ▸ hentity) hne
  | host _ hentity => exact executeFunc_of_host (hs ▸ hentity)

lemma Refused.lookup {s : Session T} {name : Option String} {args : List Val} {found : Option Nat}
    (h : Refused env s name args found) : lookupFunc name s = .ok found s := by
  cases h with
  | noFunction hlookup => exact hlookup
  | arguments hlookup => exact hlookup
  | host hlookup => exact hlookup

/-- What a request has recorded by the time it is refused. -/
def StartRequest.marked (request : StartRequest) (found : Option Nat) (s : Session T) : Session T :=
  let s := match request with
    | .run => { s with isInterrupted := true }
    | .runStep => s
  match found with
  | some func => { s with runFunc := some func }
  | none => s

/-- `run_step` of a function that it refuses. -/
lemma runStep_of_refused {s : Session T} {name : Option String} {args : List Val}
    {found : Option Nat} (h : Refused env s name args found) :
    ∃ text, runStep env name args s =
      .error (.fault (.message text)) (StartRequest.runStep.marked found s) := by
  rw [runStep, bind_ok h.lookup]
  cases found with
  | none => exact ⟨noFunctionFound name, rfl⟩
  | some func =>
    have hmachine : (StartRequest.runStep.marked (some func) s).machine = s.machine := rfl
    obtain ⟨text, htext⟩ := executeFunc_refused h hmachine
    exact ⟨text, htext⟩

/-- `run` of a function that it refuses: it has asked for a stop at the main file as well. -/
lemma run_of_refused {s : Session T} {name : Option String} {args : List Val}
    {found : Option Nat} (h : Refused env s name args found) (fuel : Nat) :
    ∃ text, Debugger.run env name args fuel s =
      .error (.fault (.message text)) (StartRequest.run.marked found s) := by
  rw [Debugger.run, modify_bind, bind_ok (lookupFunc_marked true h.lookup)]
  cases found with
  | none => exact ⟨noFunctionFound name, rfl⟩
  | some func =>
    have hmachine : (StartRequest.run.marked (some func) s).machine = s.machine := rfl
    obtain ⟨text, htext⟩ := executeFunc_refused h hmachine
    have hrest : (executeFunc env func args >>= fun _ => Debugger.process env fuel)
        (StartRequest.run.marked (some func) s) =
        .error (.fault (.message text)) (StartRequest.run.marked (some func) s) :=
      bind_error htext
    exact ⟨text, hrest⟩

/-- The session a refused request leaves. -/
theorem perform_of_refused {s : Session T} {name : Option String} {args : List Val}
    {found : Option Nat} (h : Refused env s name args found) (fuel : Nat)
    (request : StartRequest) :
    ∃ text, request.perform env fuel name args s =
      .error (.fault (.message text)) (request.marked found s) := by
  cases request with
  | runStep => exact runStep_of_refused h
  | run =>
    obtain ⟨text, htext⟩ := run_of_refused h fuel
    exact ⟨text, bind_error htext⟩

/-! ## Main result -/

lemma marked_eq_iff {s : Session T} {found : Option Nat} {request : StartRequest} :
    request.marked found s = s ↔
      (request = .run → s.isInterrupted = true) ∧ ∀ func, found = some func →
        s.runFunc = some func := by
  obtain ⟨machine, executor, inst, startFnIdx, runFunc, invoked, breakpoints, isInterrupted⟩ := s
  cases request <;> cases found <;> simp [StartRequest.marked, eq_comm, and_comm]

/-- A refused request fails and leaves the session as it was if and only if the session has
recorded before what the request records. -/
theorem failed_start_keeps_iff {s : Session T} {name : Option String} {args : List Val}
    {found : Option Nat} (h : Refused env s name args found) (fuel : Nat)
    (request : StartRequest) :
    (∃ text, request.perform env fuel name args s = .error (.fault (.message text)) s) ↔
      (request = .run → s.isInterrupted = true) ∧ ∀ func, found = some func →
        s.runFunc = some func := by
  obtain ⟨text, htext⟩ := perform_of_refused h fuel request
  rw [htext, ← marked_eq_iff]
  constructor
  · rintro ⟨_, heq⟩
    injection heq
  · intro heq
    exact ⟨text, by rw [heq]⟩

/-- The paused function asked for again, without its argument. -/
theorem failed_start_keeps_iff_sameFunc :
    (∃ text, StartRequest.runStep.perform returnEngine 0 (some "0") [] (returnSession "0") =
        .error (.fault (.message text)) (returnSession "0")) ↔
      (StartRequest.runStep = .run → (returnSession "0").isInterrupted = true) ∧
        ∀ func, some 0 = some func → (returnSession "0").runFunc = some func :=
  failed_start_keeps_iff
    (@Refused.arguments _ _ _ _ _ 0 (.wasm ⟨0, 0, 0⟩) rfl rfl (by decide)) 0 .runStep

/-- A refused `run_step` of another function: the paused one does not end any more. -/
theorem refused_run_breaks_paused :
    returned (Request.perform returnEngine 1 .process (returnSession "0")) =
        some (some (.finish [⟨.i32, 7⟩])) ∧
      (∃ s', runStep returnEngine (some "1") [] (returnSession "0") =
          .error (.fault (.message "encountered an incorrect number of parameters")) s' ∧
        s'.runFunc ≠ (returnSession "0").runFunc ∧
        ∃ s'', Request.perform returnEngine 1 .process s' = .error .panic s'') :=
  ⟨rfl, _, rfl, by decide, _, rfl⟩

end Debugger

end MotokoDebugger
