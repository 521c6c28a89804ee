import MotokoDebugger.Engine.Resumable
import MotokoDebugger.Executor.InPlace

/-!
# Failing host functions

What a nested call of a host function leaves where the host function fails, and what a resumption
makes of it.

* `EnteredHost`: the state in which the host function is called, and `Failed` that with the one its
  failure leaves.
* `failed_nested`: every such failure of an iteration has them.
* `leave_iff_continueWith`: the resumed execution goes on in the state in which the iteration would have
  ended, had the host function returned.
-/

namespace MotokoDebugger

namespace Executor

open StateExcept

variable {T : Type} {α : Type} {env : Engine T}

/-! ## The errors of the embedder -/

/-- `ErrorKind::ResumableHost` is private to the engine: neither host functions nor hooks return
it. -/
structure OwnErrors (env : Engine T) : Prop where
  hostCall : ∀ (trampoline : Nat) (inst : Option Nat) (params : List UntypedVal) (store : Store T)
    (error : Error), (env.hostCall trampoline inst params store).1 = .error error →
    ∀ hostError func head, error ≠ .resumableHost hostError func head
  callHook : ∀ hook, env.callHook = some hook → ∀ (callType : CallHook) (data : T) (error : Error),
    (hook callType data).1 = .error error →
    ∀ hostError func head, error ≠ .resumableHost hostError func head

/-- The hook does nothing where a function returns. -/
def SilentReturns (env : Engine T) : Prop :=
  ∀ hook, env.callHook = some hook → ∀ (callType : CallHook) (data : T),
    callType = .returningFromHost ∨ callType = .returningFromWasm →
    hook callType data = (.ok (), data)

/-- An error after which the call can be resumed. -/
def IsResumable (stop : Stop) : Prop :=
  ∃ hostError func head, stop = .fault (.resumableHost hostError func head)

lemma isFault_of_isResumable {stop : Stop} (h : IsResumable stop) : stop.IsFault := by
  obtain ⟨hostError, func, head, rfl⟩ := h
  exact ⟨_, rfl⟩

lemma not_isResumable_trap (code : TrapCode) : ¬ IsResumable (.trap code) := by
  rintro ⟨hostError, func, head, h⟩
  cases h

lemma not_isResumable_hook (hown : OwnErrors env) {callType : CallHook} {m m' : Machine T}
    {stop : Stop} (h : invokeCallHook env callType m = .error stop m') : ¬ IsResumable stop := by
  cases hhook : env.callHook with
  | none =>
    simp only [invokeCallHook, hhook] at h
    cases h
  | some hook =>
    rcases hresult : hook callType m.store.data with ⟨result, data⟩
    simp only [invokeCallHook, hhook, get_bind, hresult, modify_bind] at h
    cases result with
    | ok u => cases h
    | error error =>
      cases h
      rintro ⟨hostError, func, head, heq⟩
      have herror := Stop.fault.inj heq
      exact hown.callHook hook hhook callType m.store.data error (by rw [hresult]) _ _ _ herror

/-- A silent hook leaves the machine as it is. -/
lemma invokeCallHook_silent (hsilent : SilentReturns env) {callType : CallHook}
    (hreturn : callType = .returningFromHost ∨ callType = .returningFromWasm) (m : Machine T) :
    invokeCallHook env callType m = .ok () m := by
  cases hhook : env.callHook with
  | none =>
    simp only [invokeCallHook, hhook]
    rfl
  | some hook =>
    have hquiet := hsilent hook hhook callType m.store.data hreturn
    simp only [invokeCallHook, hhook, get_bind, hquiet, modify_bind]
    rfl

/-! ## The two halves of a nested call -/

/-- A nested call of a host function up to the call itself: the buffer is on the value stack and
the topmost frame will go on behind the call. -/
def enterHostFunc (env : Engine T) (hasParams : Bool) (hostFunc : HostFuncEntity) :
    ExecM T Unit := do
  let buffer := (← get).stack.values.values.length
  let values ← liftTrap
    ((← get).stack.values.extendBy (max hostFunc.lenParams hostFunc.lenResults))
  setValues values
  passParams env hasParams ⟨buffer, buffer⟩
  updateInstrPtrAt 1

/-- A call of a host function from its return on: the results leave the buffer. -/
def leaveHostFunc (results : RegSpan) (hostFunc : HostFuncEntity) (inst : Nat) :
    ExecM T Unit := do
  updateCache inst
  let results ← unwrap (results.iter hostFunc.lenResults)
  let returned := (← get).stack.values.top (max hostFunc.lenParams hostFunc.lenResults)
  setValues ((← get).stack.values.drop (max hostFunc.lenParams hostFunc.lenResults))
  stepLocal (setRegisters results returned)

lemma runHostFunc_nested (env : Engine T) (hasParams : Bool) (results : RegSpan) (func : Nat)
    (hostFunc : HostFuncEntity) (inst : Nat) :
    runHostFunc env ⟨.nested, hasParams⟩ results func hostFunc inst = (do
      enterHostFunc env hasParams hostFunc
      resumable func results (dispatchHostFunc env hostFunc (some inst))
      leaveHostFunc results hostFunc inst) := by
  simp [runHostFunc, enterHostFunc, leaveHostFunc]

/-- What a machine is like when a host function is called from `m`. -/
structure EnteredHost (hostFunc : HostFuncEntity) (m m' : Machine T) : Prop where
  places : places m' = places m
  store : m'.store = m.store
  instances : m'.stack.calls.instances = m.stack.calls.instances
  saved : ∃ frame, m'.stack.calls.peek = some frame ∧ frame.instrPtr = m'.ip
  values : m'.stack.values.drop (max hostFunc.lenParams hostFunc.lenResults) = m.stack.values
  room : max hostFunc.lenParams hostFunc.lenResults ≤ m'.stack.values.values.length

/-- The buffer is above the cells there were. -/
lemma drop_extendBy {stack values : ValueStack} {n : Nat} (h : stack.extendBy n = .ok values) :
    values.drop n = stack ∧ values.values.length = stack.values.length + n := by
  unfold ValueStack.extendBy at h
  split at h
  · cases h
  cases h
  obtain ⟨cells, maxLen⟩ := stack
  simp [ValueStack.drop]

/-- Writing parameters into the buffer leaves the cells below it. -/
lemma drop_initParams {stack values written : ValueStack} {n : Nat} {params : List UntypedVal}
    (hextend : stack.extendBy n = .ok values)
    (hinit : values.initParams ⟨stack.values.length, stack.values.length⟩ params = some written) :
    written.drop n = stack ∧ written.values.length = stack.values.length + n := by
  obtain ⟨hdrop, hlength⟩ := drop_extendBy hextend
  have hmin : min stack.values.length values.values.length = stack.values.length := by omega
  simp only [ValueStack.initParams, hmin, Option.ite_none_right_eq_some, Option.some.injEq] at hinit
  obtain ⟨hroom, rfl⟩ := hinit
  have hwritten := length_overwrite hroom
  refine ⟨Eq.trans ?_ hdrop, hwritten.trans hlength⟩
  simp only [ValueStack.drop, ValueStack.mk.injEq, and_true]
  rw [hwritten, hlength, Nat.add_sub_cancel, overwrite, List.append_assoc,
    List.take_append_of_le_length (by rw [List.length_take]; omega), List.take_take, Nat.min_self]

lemma stack_passParams {hasParams : Bool} {n : Nat} {stack : ValueStack} {m m' : Machine T}
    {u : Unit} (hextend : stack.extendBy n = .ok m.stack.values)
    (h : passParams env hasParams ⟨stack.values.length, stack.values.length⟩ m = .ok u m') :
    m'.stack.values.drop n = stack ∧ m'.stack.values.values.length = stack.values.length + n := by
  cases hasParams with
  | false =>
    cases h
    exact drop_extendBy hextend
  | true =>
    simp only [passParams, if_true, bind_eq_ok, get_apply, assume_eq_ok, setValues_apply,
      EStateM.Result.ok.injEq] at h
    obtain ⟨params, m₁, hparams, _, _, ⟨rfl, rfl⟩, values, _, ⟨hinit, rfl⟩, -, rfl⟩ := h
    have hstill := (keeps_still_stepLocal (keeps_still_copyCallParams env)).of_ok hparams
    have hvalues : m₁.stack.values = m.stack.values := congrArg (fun s => s.2.2.1.values) hstill
    rw [← hvalues] at hextend
    exact drop_initParams hextend hinit

lemma instances_updateInstrPtr (calls : CallStack) (ip : InstructionPtr) :
    (calls.updateInstrPtr ip).instances = calls.instances := by
  unfold CallStack.updateInstrPtr
  split <;> rfl

/-- The instruction pointer is saved in the topmost frame. -/
lemma saved_updateInstrPtrAt {offset : Nat} {m m' : Machine T} {u : Unit}
    (h : updateInstrPtrAt offset m = .ok u m') :
    m'.stack.values = m.stack.values ∧
      ∃ frame, m'.stack.calls.peek = some frame ∧ frame.instrPtr = m'.ip := by
  simp only [updateInstrPtrAt, modifyCalls, bind_eq_ok, modify_apply, get_apply, unwrap_eq_ok,
    EStateM.Result.ok.injEq] at h
  obtain ⟨_, _, ⟨-, rfl⟩, _, _, ⟨rfl, rfl⟩, frame, _, ⟨hpeek, rfl⟩, _, _, ⟨rfl, rfl⟩, -, rfl⟩ := h
  refine ⟨rfl, { frame with instrPtr := m.ip.add offset }, ?_, rfl⟩
  obtain ⟨frames, hframes⟩ := List.head?_eq_some_iff.mp hpeek
  dsimp only at hframes
  simp only [CallStack.updateInstrPtr, hframes]
  rfl

/-- Up to the call of the host function nothing is lost. -/
lemma enteredHost {hasParams : Bool} {hostFunc : HostFuncEntity} {m m' : Machine T} {u : Unit}
    (h : enterHostFunc env hasParams hostFunc m = .ok u m') : EnteredHost hostFunc m m' := by
  simp only [enterHostFunc, bind_eq_ok, get_apply, liftTrap_eq_ok, setValues_apply,
    EStateM.Result.ok.injEq] at h
  obtain ⟨_, _, ⟨rfl, rfl⟩, _, _, ⟨rfl, rfl⟩, values, _, ⟨hextend, rfl⟩, _, _, ⟨-, rfl⟩, _, m₁,
    hparams, hupdate⟩ := h
  have hcalls := (keepsCalls_passParams _ _ _).of_ok hparams
  have hinstances := (keeps_updateInstrPtrAt instances_updateInstrPtr 1).of_ok hupdate
  have hcontext := (keeps_context_passParams _ _ _).of_ok hparams
  have hstore := (keepsStore_updateInstrPtrAt 1).of_ok hupdate
  obtain ⟨hvalues, hlength⟩ := stack_passParams hextend hparams
  obtain ⟨hsame, hsaved⟩ := saved_updateInstrPtrAt hupdate
  rw [← hsame] at hvalues hlength
  refine ⟨?_, ?_, ?_, hsaved, hvalues, by omega⟩
  · rw [(keepsPlaces_updateInstrPtrAt 1).of_ok hupdate, (keepsPlaces_passParams _ _).of_ok hparams]
    rfl
  · rw [hstore]
    exact congrArg Prod.snd hcontext
  · rw [hinstances, hcalls]

/-! ## The failure and its repair -/

/-- What the failure of a host function called in `m` leaves: its store, and no buffer. -/
def afterFailure (hostFunc : HostFuncEntity) (store : Store T) (m : Machine T) : Machine T :=
  { m with
    store
    stack := ⟨m.stack.values.drop (max hostFunc.lenParams hostFunc.lenResults), m.stack.calls⟩ }

/-- What its return leaves: its store, and the results in the buffer. -/
def afterReturn (hostFunc : HostFuncEntity) (results : List UntypedVal) (store : Store T)
    (m : Machine T) : Machine T :=
  let maxInout := max hostFunc.lenParams hostFunc.lenResults
  let values := (m.stack.values.drop maxInout).values ++
    overwrite (m.stack.values.top maxInout) 0 (results.take hostFunc.lenResults)
  { m with store, stack := ⟨{ m.stack.values with values }, m.stack.calls⟩ }

/-- What the failure of a host function leaves: the buffer is dropped. -/
lemma failedDispatch {results : RegSpan} {func inst : Nat} {hostFunc : HostFuncEntity}
    {m m' : Machine T} {stop : Stop} (hown : OwnErrors env)
    (h : resumable func results (dispatchHostFunc env hostFunc (some inst)) m = .error stop m')
    (hstop : IsResumable stop) :
    ∃ error store, env.hostCall hostFunc.func (some inst)
        ((m.stack.values.top (max hostFunc.lenParams hostFunc.lenResults)).take hostFunc.lenParams)
        m.store = (.error error, store) ∧
      stop = .fault (.resumableHost error func results.head.toInt) ∧
      m' = afterFailure hostFunc store m := by
  rcases hcall : env.hostCall hostFunc.func (some inst)
    ((m.stack.values.top (max hostFunc.lenParams hostFunc.lenResults)).take hostFunc.lenParams)
    m.store with ⟨result, store⟩
  cases result with
  | ok values =>
    have hok : ∃ m₁, dispatchHostFunc env hostFunc (some inst) m = .ok () m₁ := by
      simp only [dispatchHostFunc, get_bind, hcall, modify_bind]
      exact ⟨_, rfl⟩
    obtain ⟨m₁, hok⟩ := hok
    simp only [resumable, hok] at h
    cases h
  | error error =>
    have hfail : dispatchHostFunc env hostFunc (some inst) m =
        .error (.fault error) (afterFailure hostFunc store m) := by
      simp only [dispatchHostFunc, get_bind, hcall, modify_bind]
      rfl
    simp only [resumable, hfail] at h
    split at h
    · cases h
      obtain ⟨hostError, func', head, heq⟩ := hstop
      have herror := Stop.fault.inj heq
      exact absurd herror (hown.hostCall _ _ _ _ error (by rw [hcall]) _ _ _)
    · cases h
      exact ⟨error, store, rfl, rfl, rfl⟩

/-- The host function returns the answer instead. -/
lemma answeredDispatch {results : RegSpan} {func inst : Nat} {hostFunc : HostFuncEntity}
    {m : Machine T} {error : Error} {store : Store T} {answer : List UntypedVal}
    (hcall : env.hostCall hostFunc.func (some inst)
      ((m.stack.values.top (max hostFunc.lenParams hostFunc.lenResults)).take hostFunc.lenParams)
      m.store = (.error error, store)) :
    resumable func results (dispatchHostFunc (answering env answer) hostFunc (some inst)) m =
      .ok () (afterReturn hostFunc answer store m) := by
  have hanswer : (answering env answer).hostCall hostFunc.func (some inst)
      ((m.stack.values.top (max hostFunc.lenParams hostFunc.lenResults)).take hostFunc.lenParams)
      m.store = (.ok answer, store) := by
    simp only [answering, hcall]
  simp only [resumable, dispatchHostFunc, get_bind, hanswer, modify_bind]
  rfl

/-! ## Registers written before and after the change of the cache -/

lemma setRegisters_withCache (regs : List Reg) (values : List UntypedVal) (m : Machine T)
    (cache : CachedInstance) :
    stepLocal (setRegisters regs values) { m with cache } =
      mapState (fun m => { m with cache }) (stepLocal (setRegisters regs values) m) := by
  have hset : ∀ (reg : Reg) (value : UntypedVal), CommutesUpTo (fun _ : Stop => False)
      (fun l : Local T => { l with cache }) (setRegister reg value) := by
    intro reg value
    rw [setRegister_eq]
    refine CommutesUpTo.get_bind (fun l => ?_) fun _ => rfl
    cases l.index reg with
    | none => exact CommutesUpTo.throw _
    | some i => exact CommutesUpTo.modify fun _ => rfl
  have hlocal : CommutesUpTo (fun _ : Stop => False) (fun l : Local T => { l with cache })
      (setRegisters regs values) := CommutesUpTo.forM (fun _ => hset _ _) _
  have hmachine : CommutesUpTo (fun _ : Stop => False) (fun m : Machine T => { m with cache })
      (stepLocal (setRegisters regs values)) := hlocal.zoom (fun _ => rfl) fun _ _ => rfl
  exact hmachine.eq fun _ _ _ => id

lemma setRegisters_withCache_ok {regs : List Reg} {values : List UntypedVal} {m m' : Machine T}
    {cache : CachedInstance} {u : Unit} :
    stepLocal (setRegisters regs values) { m with cache } = .ok u m' ↔
      ∃ m₁, stepLocal (setRegisters regs values) m = .ok u m₁ ∧ m' = { m₁ with cache } := by
  rw [setRegisters_withCache]
  cases stepLocal (setRegisters regs values) m with
  | ok u' m₁ => simp [eq_comm]
  | error stop m₁ => simp

/-- Values beyond the registers are not written. -/
lemma setRegisters_append {regs : List Reg} {values : List UntypedVal} (rest : List UntypedVal)
    (h : regs.length = values.length) :
    (setRegisters regs (values ++ rest) : LocalM T Unit) = setRegisters regs values := by
  have hzip : (regs ++ []).zip (values ++ rest) = regs.zip values ++ [].zip rest :=
    List.zip_append h
  rw [List.append_nil, List.zip_nil_left, List.append_nil] at hzip
  rw [setRegisters, hzip, setRegisters]

lemma length_iter {span : RegSpan} {len : Nat} {regs : List Reg} (h : span.iter len = some regs) :
    regs.length = len := by
  unfold RegSpan.iter at h
  split at h
  · cases h
    simp
  · cases h

lemma leaveHostFunc_eq_ok {results : RegSpan} {inst : Nat} {hostFunc : HostFuncEntity}
    {m m' : Machine T} {u : Unit} :
    leaveHostFunc results hostFunc inst m = .ok u m' ↔
      ∃ cache regs, CachedInstance.load m.store inst = some cache ∧
        results.iter hostFunc.lenResults = some regs ∧
        stepLocal (setRegisters regs
          (m.stack.values.top (max hostFunc.lenParams hostFunc.lenResults))) { m with
            cache, stack := ⟨m.stack.values.drop (max hostFunc.lenParams hostFunc.lenResults),
              m.stack.calls⟩ } = .ok u m' := by
  simp only [leaveHostFunc, updateCache, bind_eq_ok, get_apply, unwrap_eq_ok, modify_apply,
    setValues_apply, EStateM.Result.ok.injEq]
  constructor
  · rintro ⟨_, _, ⟨_, _, ⟨rfl, rfl⟩, cache, _, ⟨hload, rfl⟩, -, rfl⟩, regs, _, ⟨hregs, rfl⟩, _, _,
      ⟨rfl, rfl⟩, _, _, ⟨rfl, rfl⟩, _, _, ⟨-, rfl⟩, hset⟩
    exact ⟨cache, regs, hload, hregs, hset⟩
  · rintro ⟨cache, regs, hload, hregs, hset⟩
    exact ⟨(), _, ⟨_, _, ⟨rfl, rfl⟩, cache, _, ⟨hload, rfl⟩, trivial, rfl⟩, regs, _, ⟨hregs, rfl⟩,
      _, _, ⟨rfl, rfl⟩, _, _, ⟨rfl, rfl⟩, (), _, ⟨trivial, rfl⟩, hset⟩

lemma newExecutor_eq_ok {m m' : Machine T} {u : Unit} :
    newExecutor m = .ok u m' ↔
      ∃ inst cache frame, m.stack.calls.instance_ = some inst ∧
        CachedInstance.load m.store inst = some cache ∧ m.stack.calls.peek = some frame ∧
        m' = { m with cache, sp := frame.offsets, ip := frame.instrPtr } := by
  simp only [newExecutor, updateCache, initCallFrame, bind_eq_ok, get_apply, unwrap_eq_ok,
    modify_apply, EStateM.Result.ok.injEq]
  constructor
  · rintro ⟨_, _, ⟨rfl, rfl⟩, inst, _, ⟨hinst, rfl⟩, _, _, ⟨_, _, ⟨rfl, rfl⟩, cache, _,
      ⟨hload, rfl⟩, -, rfl⟩, _, _, ⟨rfl, rfl⟩, frame, _, ⟨hpeek, rfl⟩, -, rfl⟩
    exact ⟨inst, cache, frame, hinst, hload, hpeek, rfl⟩
  · rintro ⟨inst, cache, frame, hinst, hload, hpeek, rfl⟩
    exact ⟨_, _, ⟨rfl, rfl⟩, inst, _, ⟨hinst, rfl⟩, (), _, ⟨_, _, ⟨rfl, rfl⟩, cache, _,
      ⟨hload, rfl⟩, trivial, rfl⟩, _, _, ⟨rfl, rfl⟩, frame, _, ⟨hpeek, rfl⟩, trivial, rfl⟩

lemma continueWith_eq_ok {results : RegSpan} {answer : List UntypedVal} {m m' : Machine T}
    {u : Unit} :
    continueWith results answer m = .ok u m' ↔
      ∃ caller regs m₁, m.stack.calls.peek = some caller ∧
        results.iter answer.length = some regs ∧
        stepLocal (setRegisters regs answer) { m with sp := caller.offsets } = .ok () m₁ ∧
        newExecutor m₁ = .ok u m' := by
  simp only [continueWith, bind_eq_ok, get_apply, unwrap_eq_ok, modify_apply,
    EStateM.Result.ok.injEq]
  constructor
  · rintro ⟨_, _, ⟨rfl, rfl⟩, caller, _, ⟨hpeek, rfl⟩, _, _, ⟨-, rfl⟩, regs, _, ⟨hregs, rfl⟩, _, m₁,
      hset, hnew⟩
    exact ⟨caller, regs, m₁, hpeek, hregs, hset, hnew⟩
  · rintro ⟨caller, regs, m₁, hpeek, hregs, hset, hnew⟩
    exact ⟨_, _, ⟨rfl, rfl⟩, caller, _, ⟨hpeek, rfl⟩, (), _, ⟨trivial, rfl⟩, regs, _, ⟨hregs, rfl⟩,
      (), m₁, hset, hnew⟩

/-- Writing registers changes nothing but cells. -/
lemma setRegisters_rest {regs : List Reg} {values : List UntypedVal} {m m' : Machine T} {u : Unit}
    (h : stepLocal (setRegisters regs values) m = .ok u m') :
    m'.sp = m.sp ∧ m'.ip = m.ip ∧ m'.store = m.store ∧ m'.stack.calls = m.stack.calls := by
  have hone : ∀ (reg : Reg) (value : UntypedVal),
      Keeps (fun l : Local T => (l.ip, l.store)) (setRegister reg value) := by
    intro reg value
    rw [setRegister_eq]
    exact Keeps.get.bind fun _ => (readOnly_assume _).keeps.bind fun _ => Keeps.modify fun _ => rfl
  have hlocal : Keeps (fun l : Local T => (l.ip, l.store)) (setRegisters regs values) :=
    Keeps.forM (fun _ => hone _ _) _
  obtain ⟨l, hset, rfl⟩ := stepLocal_eq_ok.mp h
  obtain ⟨hip, hstore⟩ := Prod.mk.inj (hlocal.of_ok hset)
  exact ⟨rfl, hip, hstore, rfl⟩

/-- The cells of the buffer once the host function has returned. -/
lemma top_answered {stack : ValueStack} {n : Nat} {answer : List UntypedVal}
    (hroom : n ≤ stack.values.length) (hlen : answer.length ≤ n) :
    let returned : ValueStack :=
      { stack with values := (stack.drop n).values ++ overwrite (stack.top n) 0 answer }
    returned.top n = answer ++ (stack.top n).drop answer.length ∧
      returned.drop n = stack.drop n := by
  have hbuffer : (stack.top n).length = n := by
    rw [ValueStack.top, List.length_drop]
    omega
  have hwritten : (overwrite (stack.top n) 0 answer).length = n := by
    rw [length_overwrite (by omega), hbuffer]
  have hbelow : ((stack.drop n).values ++ overwrite (stack.top n) 0 answer).length - n =
      (stack.drop n).values.length := by
    rw [List.length_append, hwritten]
    omega
  intro returned
  constructor
  · rw [ValueStack.top, hbelow, List.drop_left]
    simp [overwrite]
  · rw [ValueStack.drop, hbelow, List.take_left]
    rfl

/-- The results leave the buffer for the registers, and the instance of the caller is loaded. -/
lemma leave_afterReturn {results : RegSpan} {inst : Nat} {hostFunc : HostFuncEntity}
    {answer : List UntypedVal} {m m' : Machine T} {u : Unit} {store : Store T}
    (hroom : max hostFunc.lenParams hostFunc.lenResults ≤ m.stack.values.values.length)
    (hlen : answer.length = hostFunc.lenResults) :
    leaveHostFunc results hostFunc inst (afterReturn hostFunc answer store m) = .ok u m' ↔
      ∃ cache regs m₁, CachedInstance.load store inst = some cache ∧
        results.iter hostFunc.lenResults = some regs ∧
        stepLocal (setRegisters regs answer) (afterFailure hostFunc store m) = .ok u m₁ ∧
        m' = { m₁ with cache } := by
  have hle : answer.length ≤ max hostFunc.lenParams hostFunc.lenResults := by omega
  obtain ⟨htop, hdrop⟩ := top_answered hroom hle
  have hwithCache := fun (regs : List Reg) (cache : CachedInstance) =>
    @setRegisters_withCache_ok T regs answer (afterFailure hostFunc store m) m' cache u
  rw [leaveHostFunc_eq_ok]
  simp only [afterReturn, List.take_of_length_le hlen.le, htop, hdrop]
  constructor
  · rintro ⟨cache, regs, hload, hregs, hset⟩
    rw [setRegisters_append _ ((length_iter hregs).trans hlen.symm)] at hset
    obtain ⟨m₁, hset, hm'⟩ := (hwithCache regs cache).mp hset
    exact ⟨cache, regs, m₁, hload, hregs, hset, hm'⟩
  · rintro ⟨cache, regs, m₁, hload, hregs, hset, hm'⟩
    refine ⟨cache, regs, hload, hregs, ?_⟩
    rw [setRegisters_append _ ((length_iter hregs).trans hlen.symm)]
    exact (hwithCache regs cache).mpr ⟨m₁, hset, hm'⟩

/-- A resumption puts the results into the registers, and loads the instance of the caller. -/
lemma continueWith_afterFailure {results : RegSpan} {inst : Nat} {answer : List UntypedVal}
    {m m' : Machine T} {u : Unit} (hframed : Framed m)
    (hinst : m.stack.calls.instance_ = some inst)
    (hsaved : ∃ frame, m.stack.calls.peek = some frame ∧ frame.instrPtr = m.ip) :
    continueWith results answer m = .ok u m' ↔
      ∃ cache regs m₁, CachedInstance.load m.store inst = some cache ∧
        results.iter answer.length = some regs ∧
        stepLocal (setRegisters regs answer) m = .ok u m₁ ∧ m' = { m₁ with cache } := by
  obtain ⟨frame, hpeek, hip⟩ := hsaved
  obtain ⟨frame', hpeek', hsp⟩ := framed_iff.mp hframed
  obtain rfl : frame = frame' := Option.some.inj (hpeek.symm.trans hpeek')
  have hsame : { m with sp := frame.offsets } = m := by rw [← hsp]
  have hrest : ∀ {m₁ : Machine T} (cache : CachedInstance), m₁.sp = m.sp → m₁.ip = m.ip →
      ({ m₁ with cache, sp := frame.offsets, ip := frame.instrPtr } : Machine T) =
        { m₁ with cache } := by
    intro m₁ cache hsp₁ hip₁
    rw [← hsp, hip, ← hsp₁, ← hip₁]
  rw [continueWith_eq_ok]
  constructor
  · rintro ⟨caller, regs, m₁, hcaller, hregs, hset, hnew⟩
    obtain rfl : frame = caller := Option.some.inj (hpeek.symm.trans hcaller)
    rw [hsame] at hset
    obtain ⟨hsp₁, hip₁, hstore, hcalls⟩ := setRegisters_rest hset
    obtain ⟨inst', cache, frame', hinst', hload, hframe', rfl⟩ := newExecutor_eq_ok.mp hnew
    rw [hcalls] at hinst' hframe'
    obtain rfl : inst = inst' := Option.some.inj (hinst.symm.trans hinst')
    obtain rfl : frame = frame' := Option.some.inj (hpeek.symm.trans hframe')
    rw [hstore] at hload
    exact ⟨cache, regs, m₁, hload, hregs, hset, hrest cache hsp₁ hip₁⟩
  · rintro ⟨cache, regs, m₁, hload, hregs, hset, rfl⟩
    obtain ⟨hsp₁, hip₁, hstore, hcalls⟩ := setRegisters_rest hset
    refine ⟨frame, regs, m₁, hpeek, hregs, by rw [hsame]; exact hset, ?_⟩
    refine newExecutor_eq_ok.mpr ⟨inst, cache, frame, ?_, ?_, ?_, (hrest cache hsp₁ hip₁).symm⟩
    · rw [hcalls]
      exact hinst
    · rw [hstore]
      exact hload
    · rw [hcalls]
      exact hpeek

/-- Where the host function has returned `answer`, the call ends in the state in which a resumption
with `answer` goes on. -/
theorem leave_iff_continueWith {results : RegSpan} {inst : Nat} {hostFunc : HostFuncEntity}
    {answer : List UntypedVal} {m m' : Machine T} {u : Unit} {store : Store T}
    (hframed : Framed m) (hinst : m.stack.calls.instance_ = some inst)
    (hsaved : ∃ frame, m.stack.calls.peek = some frame ∧ frame.instrPtr = m.ip)
    (hroom : max hostFunc.lenParams hostFunc.lenResults ≤ m.stack.values.values.length)
    (hlen : answer.length = hostFunc.lenResults) :
    leaveHostFunc results hostFunc inst (afterReturn hostFunc answer store m) = .ok u m' ↔
      continueWith results answer (afterFailure hostFunc store m) = .ok u m' := by
  have hframed' : Framed (afterFailure hostFunc store m) := hframed.of_places rfl
  rw [leave_afterReturn hroom hlen, continueWith_afterFailure hframed' hinst hsaved, hlen]
  rfl

/-! ## What raises no error after which a call can be resumed -/

lemma noFault_setRegisters (regs : List Reg) (values : List UntypedVal) :
    NoFault Stop.IsFault (stepLocal (setRegisters regs values) : ExecM T Unit) := by
  refine noFault_stepLocal (NoFault.forM (fun pair => ?_) _)
  exact NoFault.get.bind fun _ => (noFault_assume _).bind fun _ => NoFault.modify _

lemma noFault_leaveHostFunc (results : RegSpan) (hostFunc : HostFuncEntity) (inst : Nat) :
    NoFault Stop.IsFault (leaveHostFunc results hostFunc inst : ExecM T Unit) :=
  (noFault_updateCache _).bind fun _ => (noFault_unwrap _).bind fun _ => NoFault.get.bind fun _ =>
    NoFault.get.bind fun _ => (NoFault.modify _).bind fun _ => noFault_setRegisters _ _

lemma noFault_continueWith (results : RegSpan) (params : List UntypedVal) :
    NoFault Stop.IsFault (continueWith results params : ExecM T Unit) :=
  NoFault.get.bind fun _ => (noFault_unwrap _).bind fun _ => (NoFault.modify _).bind fun _ =>
    (noFault_unwrap _).bind fun _ => (noFault_setRegisters _ _).bind fun _ => noFault_newExecutor

lemma not_resumable_of_noFault {x : ExecM T α} (hx : NoFault Stop.IsFault x) :
    NoFault IsResumable x := fun _ _ _ h hstop => hx _ _ _ h (isFault_of_isResumable hstop)

lemma not_resumable_liftTrap {β : Type} (x : Except TrapCode β) :
    NoFault IsResumable (liftTrap x : ExecM T β) := by
  intro m stop m' h
  obtain ⟨code, -, rfl, -⟩ := liftTrap_eq_error.mp h
  exact not_isResumable_trap code

lemma not_resumable_enterHostFunc (hasParams : Bool) (hostFunc : HostFuncEntity) :
    NoFault IsResumable (enterHostFunc env hasParams hostFunc) := by
  refine NoFault.get.bind fun m => NoFault.get.bind fun _ => ?_
  refine (not_resumable_liftTrap _).bind fun values => (NoFault.modify _).bind fun _ => ?_
  refine (not_resumable_of_noFault (noFault_passParams _ _)).bind fun _ => ?_
  refine (NoFault.modify _).bind fun _ => NoFault.get.bind fun _ => ?_
  exact (not_resumable_of_noFault (noFault_unwrap _)).bind fun _ => NoFault.get.bind fun _ =>
    NoFault.modify _

/-! ## The iteration that fails -/

/-- The instruction is a nested call of a host function. -/
def NestedHostCall (env : Engine T) (m : Machine T) (func : Nat) (hostFunc : HostFuncEntity) :
    Prop :=
  ∃ instr site, env.instrAt m.ip = some instr ∧ instr.op.callSite = some site ∧
    site.results.isSome ∧ callee env site m = some (.host func hostFunc)

/-- Where a host function fails, what is left of the call, and what becomes of it with an answer. -/
structure Failed (env : Engine T) (func : Nat) (hostFunc : HostFuncEntity) (m m₁ : Machine T)
    (stop : Stop) (results : RegSpan) : Prop where
  stop : ∃ error, stop = .fault (.resumableHost error func results.head.toInt)
  values : m₁.stack.values = m.stack.values
  funcs : HostsKeepFuncs env → FuncsKept m m₁
  answered : ∀ answer : List UntypedVal, answer.length = hostFunc.lenResults →
    ∀ flow m', executeOne (answering env answer) m = .ok flow m' ↔
      flow = .continue_ ∧ continueWith results answer m₁ = .ok () m'
  noFault : ∀ answer stop' m', executeOne (answering env answer) m = .error stop' m' →
    ¬ stop'.IsFault

/-- A nested call of a host function, taken apart where its host function fails. -/
lemma failedCallee {hasParams : Bool} {results : RegSpan} {func : Nat} {hostFunc : HostFuncEntity}
    {m m₁ : Machine T} {stop : Stop} (hown : OwnErrors env) (hsilent : SilentReturns env)
    (h : executeCallee env ⟨.nested, hasParams⟩ results (.host func hostFunc) m = .error stop m₁)
    (hstop : IsResumable stop) :
    ∃ m₂ inst m₃ error store, invokeCallHook env .callingHost m = .ok () m₂ ∧
      m₂.stack.calls.instance_ = some inst ∧
      hostCaller .nested m₂ = .ok () m₂ ∧
      enterHostFunc env hasParams hostFunc m₂ = .ok () m₃ ∧
      env.hostCall hostFunc.func (some inst)
        ((m₃.stack.values.top (max hostFunc.lenParams hostFunc.lenResults)).take
          hostFunc.lenParams) m₃.store = (.error error, store) ∧
      stop = .fault (.resumableHost error func results.head.toInt) ∧
      m₁ = afterFailure hostFunc store m₃ := by
  have hfault := isFault_of_isResumable hstop
  rcases bind_eq_error.mp h with hhook | ⟨_, m₂, hhook, h⟩
  · exact absurd hstop (not_isResumable_hook hown hhook)
  rcases bind_eq_error.mp h with hhost | ⟨_, m₄, -, hreturn⟩
  swap
  · rw [invokeCallHook_silent hsilent (.inl rfl)] at hreturn
    cases hreturn
  rw [executeHostFunc_eq, get_bind] at hhost
  rcases bind_eq_error.mp hhost with hfail | ⟨inst, m₃, hinst, hhost⟩
  · exact absurd hfault (noFault_unwrap _ _ _ _ hfail)
  obtain ⟨hinst', rfl⟩ := unwrap_eq_ok.mp hinst
  rcases bind_eq_error.mp hhost with hfail | ⟨_, m₃, hcaller, hhost⟩
  · exact absurd hfault (noFault_hostCaller _ _ _ _ hfail)
  have hsame : m₂ = m₃ := hostCaller_eq_ok hcaller
  subst hsame
  rw [runHostFunc_nested] at hhost
  rcases bind_eq_error.mp hhost with hfail | ⟨_, m₃, henter, hhost⟩
  · exact absurd hstop (not_resumable_enterHostFunc _ _ _ _ _ hfail)
  rcases bind_eq_error.mp hhost with hdispatch | ⟨_, m₄, -, hleave⟩
  swap
  · exact absurd hfault (noFault_leaveHostFunc _ _ _ _ _ _ hleave)
  obtain ⟨error, store, hcall, rfl, rfl⟩ := failedDispatch hown hdispatch hstop
  exact ⟨m₂, inst, m₃, error, store, hhook, hinst', hcaller, henter, hcall, rfl, rfl⟩

/-- The same call where the host function returns the answer instead. -/
lemma answeredCallee {hasParams : Bool} {results : RegSpan} {func inst : Nat}
    {hostFunc : HostFuncEntity} {m m₂ m₃ : Machine T} {error : Error} {store : Store T}
    (hsilent : SilentReturns env) (hhook : invokeCallHook env .callingHost m = .ok () m₂)
    (hinst : m₂.stack.calls.instance_ = some inst) (hcaller : hostCaller .nested m₂ = .ok () m₂)
    (henter : enterHostFunc env hasParams hostFunc m₂ = .ok () m₃)
    (hcall : env.hostCall hostFunc.func (some inst)
      ((m₃.stack.values.top (max hostFunc.lenParams hostFunc.lenResults)).take hostFunc.lenParams)
      m₃.store = (.error error, store)) (answer : List UntypedVal) :
    executeCallee (answering env answer) ⟨.nested, hasParams⟩ results (.host func hostFunc) m =
      leaveHostFunc results hostFunc inst (afterReturn hostFunc answer store m₃) := by
  have hreturn : (invokeCallHook (answering env answer) .returningFromHost : ExecM T Unit) =
      pure () := funext fun m => invokeCallHook_silent hsilent (.inl rfl) m
  have hhook' : invokeCallHook (answering env answer) .callingHost m = .ok () m₂ := hhook
  have henter' : enterHostFunc (answering env answer) hasParams hostFunc m₂ = .ok () m₃ := henter
  rw [executeCallee, bind_ok hhook', hreturn, bind_pure_unit, executeHostFunc_eq, get_bind,
    bind_ok (unwrap_eq_ok.mpr ⟨hinst, rfl⟩), bind_ok hcaller, runHostFunc_nested, bind_ok henter',
    bind_ok (answeredDispatch hcall)]

lemma resolveSite_of_callee {site : CallSite} {target : Callee} {m : Machine T}
    (h : callee env site m = some target) :
    ∃ results pulled m₁, resolveSite env site m = .ok (results, target, pulled) m₁ := by
  cases hresolve : resolveSite env site m with
  | ok r m₁ =>
    simp only [callee, resolved, hresolve, Option.map_some, Option.some.injEq] at h
    exact ⟨r.1, r.2.2, m₁, by rw [← h]⟩
  | error stop m₁ =>
    simp only [callee, resolved, hresolve] at h
    cases h

lemma keeps_invokeCallHook (callType : CallHook) :
    Keeps (fun m : Machine T => (m.sp, m.stack)) (invokeCallHook env callType) := by
  unfold invokeCallHook
  split
  · exact Keeps.pure _
  · refine Keeps.get.bind fun m => Keeps.bind (Keeps.modify fun _ => rfl) fun _ => ?_
    split
    · exact Keeps.pure _
    · exact Keeps.throw _

/-- A nested call of a host function that fails leaves the value stack as it was, and a resumption
goes on where the call would have ended. -/
theorem failed_nested {func : Nat} {hostFunc : HostFuncEntity} {m m₁ : Machine T} {stop : Stop}
    (hown : OwnErrors env) (hsilent : SilentReturns env) (hframed : Framed m)
    (hcall : NestedHostCall env m func hostFunc) (hfail : executeOne env m = .error stop m₁)
    (hstop : IsResumable stop) : ∃ results, Failed env func hostFunc m m₁ stop results := by
  obtain ⟨instr, ⟨siteResults, hasParams, target⟩, hinstr, hsite, hnested, hcallee⟩ := hcall
  obtain ⟨siteResults, rfl⟩ := Option.isSome_iff_exists.mp hnested
  obtain ⟨results, pulled, m₀, hresolve⟩ := resolveSite_of_callee hcallee
  have hexec := executeOne_eq_error hinstr hfail
  rw [executeOp_callSite hsite, executeSite] at hexec
  rcases bind_eq_error.mp hexec with hexec | ⟨_, _, -, hpure⟩
  swap
  · cases hpure
  rw [bind_ok hresolve] at hexec
  rcases bind_eq_error.mp hexec with hexec | ⟨_, _, -, hpure⟩
  swap
  · cases hpure
  obtain ⟨m₂, inst, m₃, error, store, hhook, hinst, hcaller, henter, hcall, rfl, rfl⟩ :=
    failedCallee hown hsilent hexec hstop
  have hentered := enteredHost henter
  have hstill := (keeps_still_resolveSite _ _).of_ok hresolve
  have hstack := (keeps_invokeCallHook _).of_ok hhook
  have hanswered : ∀ answer, executeOne (answering env answer) m =
      (leaveHostFunc results hostFunc inst >>= fun _ => pure .continue_)
        (afterReturn hostFunc answer store m₃) := by
    intro answer
    have hfetch : fetch (answering env answer) m = .ok instr m := by
      have hinstr' : (answering env answer).instrAt m.ip = some instr := hinstr
      simp [fetch, get_bind, hinstr', assume]
    have hresolve' : resolveSite (answering env answer) ⟨some siteResults, hasParams, target⟩ m =
        .ok (results, .host func hostFunc, pulled) m₀ := hresolve
    rw [executeOne, bind_ok hfetch, executeOp_callSite hsite, executeSite, bind_assoc,
      bind_ok hresolve']
    dsimp only
    rw [bind_assoc]
    exact bind_of_eq (answeredCallee hsilent hhook hinst hcaller henter hcall answer) _
  have hsp : m₂.sp = m.sp ∧ m₂.stack = m.stack := by
    obtain ⟨hsp, hstack⟩ := Prod.mk.inj hstack
    exact ⟨hsp.trans (congrArg (fun s => s.1) hstill),
      hstack.trans (congrArg (fun s => s.2.2.1) hstill)⟩
  have hvalues : m₃.stack.values.drop (max hostFunc.lenParams hostFunc.lenResults) =
      m.stack.values := by rw [hentered.values, hsp.2]
  have hplaces : places m₃ = places m := by
    rw [hentered.places, places, places, hsp.1, hsp.2]
  have hinst' : m₃.stack.calls.instance_ = some inst := by
    rw [← hinst, CallStack.instance_, hentered.instances, CallStack.instance_]
  refine ⟨results, ⟨error, rfl⟩, hvalues, fun hhosts => ?_, fun answer hlen flow m' => ?_,
    fun answer stop' m' h => ?_⟩
  · have hstore : FuncsKept m m₀ := FuncsKept.of_store (congrArg (fun s => s.2.2.2) hstill)
    have hkept : FuncsKept m₀ m₂ := by simpa [hhook] using kept_invokeCallHook env .callingHost m₀
    have hcalled := hhosts hostFunc.func (some inst) ((m₃.stack.values.top
      (max hostFunc.lenParams hostFunc.lenResults)).take hostFunc.lenParams) m₃.store
    rw [hcall] at hcalled
    exact (hstore.trans hkept).trans ((FuncsKept.of_store hentered.store).trans hcalled)
  · rw [hanswered, bind_eq_ok]
    constructor
    · rintro ⟨u, m₄, hleave, hflow⟩
      cases hflow
      exact ⟨rfl, (leave_iff_continueWith (hframed.of_places hplaces) hinst' hentered.saved
        hentered.room hlen).mp hleave⟩
    · rintro ⟨rfl, hcontinue⟩
      exact ⟨(), m', (leave_iff_continueWith (hframed.of_places hplaces) hinst' hentered.saved
        hentered.room hlen).mpr hcontinue, rfl⟩
  · rw [hanswered] at h
    rcases bind_eq_error.mp h with hleave | ⟨_, _, -, hpure⟩
    · exact noFault_leaveHostFunc _ _ _ _ _ _ hleave
    · cases hpure

end Executor

end MotokoDebugger
