import MotokoDebugger.Executor.Handles
import MotokoDebugger.Executor.Root

/-!
# Runs of the plain loop

`Continues` is an iteration of `Executor::execute` after which the loop goes on.

* `execute_eq_ok`, `execute_eq_error`: what the loop returns is what its last iteration returns.
* `Ready`: a machine with a frame, or one that a tail call of a host function has left without.
* `ready_of_continues`: every machine the loop comes to is ready; a ready one without a frame has
  no next iteration.
* `endsAt_of_break`: where the instruction pointer is once the root function has returned.
-/

namespace MotokoDebugger

/-- Parameter words, which are never executed. -/
def Op.isParam : Op → Bool
  | .tableIndex _ | .memoryIndex _ | .dataIndex _ | .elemIndex _ | .const32 _ | .i64Const32 _
  | .f64Const32 _ | .branchTableTarget .. | .branchTableTargetNonOverlapping ..
  | .imm16AndImm32 .. | .registerAndImm32 .. | .registerSpan _ | .register _ | .register2 ..
  | .register3 .. | .registerList .. | .callIndirectParams .. | .callIndirectParamsImm16 .. => true
  | _ => false

/-- Does a return instruction have a register list behind it? -/
def Op.returnsList : Op → Bool
  | .returnMany .. | .returnNezMany .. => true
  | _ => false

namespace Executor

open StateExcept Runs

variable {T : Type} {env : Engine T}

/-! ## The executor -/

/-- Making an executor does not raise an error of the source. -/
lemma noFault_newExecutor : NoFault Stop.IsFault (newExecutor : ExecM T Unit) :=
  NoFault.get.bind fun _ => (noFault_unwrap _).bind fun _ => (noFault_updateCache _).bind fun _ =>
    NoFault.get.bind fun _ => (noFault_unwrap _).bind fun _ => NoFault.modify _

/-! ## Parameter words -/

lemma callSite_of_isParam {op : Op} (h : op.isParam) : op.callSite = none := by
  cases op <;> first | rfl | cases h

lemma isReturn_of_isParam {op : Op} (h : op.isParam) : op.isReturn = false := by
  cases op <;> first | rfl | cases h

lemma executeOther_param {op : Op} (h : op.isParam) (m : Machine T) :
    executeOther env op m = .error .undefined m := by
  have hthrow : stepLocal (throw .undefined : LocalM T Unit) m = .error .undefined m :=
    stepLocal_eq_error.mpr ⟨m.toLocal, rfl, m.withLocal_toLocal⟩
  cases op <;> first | exact hthrow | cases h

/-- A parameter word cannot be executed. -/
lemma executeOp_param {op : Op} (h : op.isParam) (m : Machine T) :
    executeOp env op m = .error .undefined m := by
  rw [executeOp_other (callSite_of_isParam h) (isReturn_of_isParam h)]
  exact bind_error (executeOther_param h m)

lemma executeInstr_param (importFuncLen : Nat) {op : Op} (h : op.isParam) (m : Machine T) :
    executeInstr env importFuncLen op m = .error .undefined m := by
  rw [executeInstr_other (callSite_of_isParam h) (isReturn_of_isParam h)]
  exact bind_error (executeOther_param h m)

/-- The instruction pointer is on a parameter word. -/
def OnParam (env : Engine T) (ip : InstructionPtr) : Prop :=
  ∀ instr, env.instrAt ip = some instr → instr.op.isParam

/-! ## The iterations of the loop -/

/-- An iteration after which the loop goes on. -/
def Continues (env : Engine T) (m m' : Machine T) : Prop := executeOne env m = .ok .continue_ m'

lemma executeOne_eq_ok {m m' : Machine T} {flow : ControlFlow} :
    executeOne env m = .ok flow m' ↔
      ∃ instr, env.instrAt m.ip = some instr ∧ executeOp env instr.op m = .ok flow m' := by
  simp only [executeOne, fetch, bind_eq_ok, get_apply, assume_eq_ok, EStateM.Result.ok.injEq]
  constructor
  · rintro ⟨instr, _, ⟨_, _, ⟨rfl, rfl⟩, hinstr, rfl⟩, hexec⟩
    exact ⟨instr, hinstr, hexec⟩
  · rintro ⟨instr, hinstr, hexec⟩
    exact ⟨instr, m, ⟨m, m, ⟨rfl, rfl⟩, hinstr, rfl⟩, hexec⟩

lemma executeOne_eq_error {m m' : Machine T} {stop : Stop} {instr : Instruction}
    (hinstr : env.instrAt m.ip = some instr) (h : executeOne env m = .error stop m') :
    executeOp env instr.op m = .error stop m' := by
  have hfetch : fetch env m = .ok instr m := by
    simp [fetch, get_bind, hinstr, assume]
  rwa [executeOne, bind_ok hfetch] at h

/-- An iteration that raises an error of the source: the callee is not found, entering or running
it fails, or an instruction does that neither calls nor returns. -/
theorem executeOne_fault {m m' : Machine T} {stop : Stop} (h : executeOne env m = .error stop m')
    (hstop : stop.IsFault) :
    m'.still = m.still ∨ (∃ op, executeOther env op m = .error stop m') ∨
      ∃ instr site target results m₁, env.instrAt m.ip = some instr ∧
        instr.op.callSite = some site ∧ callee env site m = some target ∧ m₁.still = m.still ∧
        executeCallee env site.context results target m₁ = .error stop m' := by
  cases hinstr : env.instrAt m.ip with
  | none =>
    have hfetch : fetch env m = .error .undefined m := by
      simp [fetch, get_bind, hinstr, assume]
    rw [executeOne, bind_error hfetch] at h
    cases h
    exact absurd hstop not_isFault_undefined
  | some instr =>
    have hexec := executeOne_eq_error hinstr h
    cases hcall : instr.op.callSite with
    | some site =>
      rw [executeOp_callSite hcall] at hexec
      rcases bind_eq_error.mp hexec with hsite | ⟨_, _, -, hpure⟩
      · rcases bind_eq_error.mp hsite with hfail | ⟨⟨results, target, pulled⟩, m₁, hresolve, hsite⟩
        · exact .inl ((keeps_still_resolveSite _ _).of_error hfail)
        have htarget : callee env site m = some target := by
          simp [callee, resolved, hresolve]
        rcases bind_eq_error.mp hsite with hcallee | ⟨_, _, -, hpure⟩
        · exact .inr (.inr ⟨instr, site, target, results, m₁, rfl, hcall, htarget,
            (keeps_still_resolveSite _ _).of_ok hresolve, hcallee⟩)
        · cases hpure
      · cases hpure
    | none =>
      cases hreturn : instr.op.isReturn with
      | true =>
        rw [executeOp_return hreturn] at hexec
        exact absurd hstop (noFault_executeReturn _ _ _ _ hexec)
      | false =>
        rw [executeOp_other hcall hreturn] at hexec
        rcases bind_eq_error.mp hexec with hother | ⟨_, _, -, hpure⟩
        · exact .inr (.inl ⟨instr.op, hother⟩)
        · cases hpure

/-- An iteration that succeeds leaves the call stack within its limit. -/
theorem inLimit_executeOne {m m' : Machine T} {flow : ControlFlow} (hlimit : InLimit m)
    (h : executeOne env m = .ok flow m') : InLimit m' := by
  obtain ⟨instr, -, hexec⟩ := executeOne_eq_ok.mp h
  cases hcall : instr.op.callSite with
  | some site =>
    rw [executeOp_callSite hcall] at hexec
    obtain ⟨pulled, _, hsite, hpure⟩ := bind_eq_ok.mp hexec
    cases hpure
    obtain ⟨results, target, m₁, hresolve, hcallee⟩ := executeSite_eq_ok.mp hsite
    refine executeCallee_inLimit ?_ hcallee
    have hstill := skeleton_of_still ((keeps_still_resolveSite _ _).of_ok hresolve)
    rwa [InLimit, hstill]
  | none =>
    cases hreturn : instr.op.isReturn with
    | false =>
      rw [executeOp_other hcall hreturn] at hexec
      obtain ⟨_, _, hother, hpure⟩ := bind_eq_ok.mp hexec
      cases hpure
      have hskeleton := skeleton_of_calls ((keepsCalls_executeOther _ _).of_ok hother)
      rwa [InLimit, hskeleton]
    | true =>
      rw [executeOp_return hreturn] at hexec
      cases hnow : returnsNow instr.op m.toLocal with
      | true =>
        have hpops := popsFrame_executeReturn hreturn hnow hexec
        simp only [InLimit, skeleton, funcs, CallStack.length_funcs, hpops.limit,
          ← hpops.frames, List.length_tail] at hlimit ⊢
        omega
      | false =>
        obtain ⟨hcalls, -⟩ := executeReturn_skip_calls hreturn hnow hexec
        rwa [InLimit, skeleton_of_calls hcalls]

/-- The loop returns iff its last iteration breaks it. -/
theorem execute_eq_ok {fuel : Nat} {m m' : Machine T} :
    execute env fuel m = .ok (some ()) m' ↔
      ∃ n < fuel, ∃ m₁, Steps (Continues env) n m m₁ ∧ executeOne env m₁ = .ok .break_ m' := by
  induction fuel generalizing m with
  | zero => simp [execute]
  | succ fuel ih =>
    rw [execute, bind_eq_ok]
    constructor
    · rintro ⟨flow, m₁, hone, h⟩
      cases flow with
      | continue_ =>
        obtain ⟨n, hn, m₂, hsteps, hbreak⟩ := ih.mp h
        exact ⟨n + 1, by omega, m₂, Steps.head hone hsteps, hbreak⟩
      | break_ =>
        cases h
        exact ⟨0, by omega, m, Steps.refl m, hone⟩
    · rintro ⟨n, hn, m₂, hsteps, hbreak⟩
      cases hsteps with
      | refl => exact ⟨.break_, m', hbreak, rfl⟩
      | @head k _ m₁ _ hone hrest =>
        exact ⟨.continue_, m₁, hone, ih.mpr ⟨k, by omega, m₂, hrest, hbreak⟩⟩

/-- The loop stops iff its last iteration does. -/
theorem execute_eq_error {fuel : Nat} {m m' : Machine T} {stop : Stop} :
    execute env fuel m = .error stop m' ↔
      ∃ n < fuel, ∃ m₁, Steps (Continues env) n m m₁ ∧ executeOne env m₁ = .error stop m' := by
  induction fuel generalizing m with
  | zero => simp [execute]
  | succ fuel ih =>
    rw [execute, bind_eq_error]
    constructor
    · rintro (hone | ⟨flow, m₁, hone, h⟩)
      · exact ⟨0, by omega, m, Steps.refl m, hone⟩
      · cases flow with
        | continue_ =>
          obtain ⟨n, hn, m₂, hsteps, hstop⟩ := ih.mp h
          exact ⟨n + 1, by omega, m₂, Steps.head hone hsteps, hstop⟩
        | break_ => cases h
    · rintro ⟨n, hn, m₂, hsteps, hstop⟩
      cases hsteps with
      | refl => exact .inl hstop
      | @head k _ m₁ _ hone hrest =>
        exact .inr ⟨.continue_, m₁, hone, ih.mpr ⟨k, by omega, m₂, hrest, hstop⟩⟩

/-- The loop runs out of fuel iff that many iterations go on. -/
theorem execute_eq_none {fuel : Nat} {m m' : Machine T} :
    execute env fuel m = .ok none m' ↔ Steps (Continues env) fuel m m' := by
  induction fuel generalizing m with
  | zero =>
    constructor
    · intro h
      cases h
      exact Steps.refl _
    · intro h
      cases h
      rfl
  | succ fuel ih =>
    rw [execute, bind_eq_ok]
    constructor
    · rintro ⟨flow, m₁, hone, h⟩
      cases flow with
      | continue_ => exact Steps.head hone (ih.mp h)
      | break_ => cases h
    · intro h
      cases h with
      | head hone hrest => exact ⟨.continue_, _, hone, ih.mpr hrest⟩

/-- An iteration keeps the functions of the store. -/
lemma kept_executeOne (hhosts : HostsKeepFuncs env) {m m' : Machine T} {flow : ControlFlow}
    (h : executeOne env m = .ok flow m') : FuncsKept m m' := by
  obtain ⟨instr, -, hexec⟩ := executeOne_eq_ok.mp h
  exact kept_executeOp hhosts hexec

lemma kept_steps (hhosts : HostsKeepFuncs env) {n : Nat} {m m' : Machine T}
    (h : Steps (Continues env) n m m') : FuncsKept m m' := by
  induction h with
  | refl m => exact FuncsKept.refl m
  | head hone _ ih => exact (kept_executeOne hhosts hone).trans ih

/-! ## Machines without a frame -/

/-- No frame is left, and the instruction pointer is on a tail call or on its last parameter
word. -/
def Stuck (env : Engine T) (m : Machine T) : Prop :=
  m.stack.calls.frames = [] ∧ ∀ instr, env.instrAt m.ip = some instr →
    instr.op.isParam ∨ ∃ site, instr.op.callSite = some site ∧ site.results = none

/-- A machine that the loop comes to. -/
def Ready (env : Engine T) (m : Machine T) : Prop := m.stack.calls.frames ≠ [] ∨ Stuck env m

/-- A tail call needs a frame. -/
lemma executeSite_tail_frames {site : CallSite} {m m' : Machine T} {pulled : Option (Nat × Nat)}
    (htail : site.results = none) (h : executeSite env site m = .ok pulled m') :
    m.stack.calls.frames ≠ [] := by
  obtain ⟨results, target, m₁, hresolve, -⟩ := executeSite_eq_ok.mp h
  intro hnil
  exact resolveSite_tail hresolve htail (CallStack.funcs_eq_nil.mpr hnil)

/-- A stuck machine has no next iteration. -/
theorem Stuck.executeOne {m : Machine T} (h : Stuck env m) (flow : ControlFlow) (m' : Machine T) :
    executeOne env m ≠ .ok flow m' := by
  intro hone
  obtain ⟨instr, hinstr, hexec⟩ := executeOne_eq_ok.mp hone
  rcases h.2 instr hinstr with hparam | ⟨site, hsite, htail⟩
  · rw [executeOp_param hparam] at hexec
    cases hexec
  · rw [executeOp_callSite hsite] at hexec
    obtain ⟨pulled, m₁, hexec, -⟩ := bind_eq_ok.mp hexec
    exact executeSite_tail_frames htail hexec h.1

/-- Nor does the debugger find one. -/
theorem Stuck.executeInstr {m : Machine T} (h : Stuck env m) {instr : Instruction}
    (hinstr : env.instrAt m.ip = some instr) (importFuncLen : Nat) (report : InstrReport)
    (m' : Machine T) : executeInstr env importFuncLen instr.op m ≠ .ok report m' := by
  intro hexec
  rcases h.2 instr hinstr with hparam | ⟨site, hsite, htail⟩
  · rw [executeInstr_param _ hparam] at hexec
    cases hexec
  · rw [executeInstr_callSite hsite] at hexec
    obtain ⟨pulled, m₁, hexec, -⟩ := bind_eq_ok.mp hexec
    exact executeSite_tail_frames htail hexec h.1

/-- The first word of a register list. -/
lemma registerList_first {words : List Instruction} {regs : List Reg} {len : Nat}
    (h : registerList words = some (regs, len)) :
    ∃ word, words.head? = some word ∧ word.op.isParam := by
  cases words with
  | nil => cases h
  | cons word words =>
    obtain ⟨instrOffset, op⟩ := word
    refine ⟨_, rfl, ?_⟩
    cases op <;> first | rfl | cases h

/-- The last word of a register list. -/
lemma registerList_finalizer {words : List Instruction} {regs : List Reg} {len : Nat}
    (h : registerList words = some (regs, len)) :
    ∃ word, words[len]? = some word ∧ word.op.isParam := by
  induction words generalizing regs len with
  | nil => cases h
  | cons word words ih =>
    obtain ⟨instrOffset, op⟩ := word
    cases op <;> try cases h
    case registerList =>
      simp only [registerList, Option.map_eq_some_iff, Prod.exists, Prod.mk.injEq] at h
      obtain ⟨regs', len', hlist, -, rfl⟩ := h
      obtain ⟨word, hword, hparam⟩ := ih hlist
      exact ⟨word, by simpa using hword, hparam⟩
    all_goals exact ⟨_, rfl, rfl⟩

lemma instrAt_add {ip : InstructionPtr} {words : List Instruction} (len : Nat)
    (h : env.wordsAt ip = some words) : env.instrAt (ip.add len) = words[len]? := by
  simp only [Engine.wordsAt] at h
  split at h
  · obtain rfl := Option.some.inj h
    have hpos : 0 ≤ ip.pc + len := by omega
    simp only [Engine.instrAt, Engine.wordsAt, InstructionPtr.add, InstructionPtr.offset, hpos,
      if_true, Option.bind_some]
    rw [List.head?_drop, List.getElem?_drop]
    congr 1
    omega
  · cases h

/-- Reading a register list ends on a parameter word. -/
lemma registerListAt_onParam {ip ip' : InstructionPtr} {regs : List Reg} {l l' : Local T}
    (h : registerListAt env ip l = .ok (regs, ip') l') : OnParam env ip' := by
  simp only [registerListAt, bind_eq_ok, assume_eq_ok, Option.bind_eq_some_iff, pure_apply,
    EStateM.Result.ok.injEq, Prod.mk.injEq] at h
  obtain ⟨⟨regs', len⟩, _, ⟨⟨words, hwords, hlist⟩, rfl⟩, ⟨rfl, rfl⟩, rfl⟩ := h
  obtain ⟨word, hword, hparam⟩ := registerList_finalizer hlist
  intro instr hinstr
  rw [instrAt_add len hwords, hword] at hinstr
  obtain rfl := Option.some.inj hinstr
  exact hparam

/-! ## Tail calls of host functions -/

/-- No outcome moves the instruction pointer. -/
abbrev KeepsIp {α : Type} (x : ExecM T α) : Prop := Keeps (fun m => m.ip) x

lemma keepsIp_setValues (values : ValueStack) : KeepsIp (setValues values : ExecM T Unit) :=
  Keeps.modify fun _ => rfl

lemma keepsIp_invokeCallHook (callType : CallHook) : KeepsIp (invokeCallHook env callType) := by
  unfold invokeCallHook
  split
  · exact Keeps.pure _
  · refine Keeps.get.bind fun m => Keeps.bind (Keeps.modify fun _ => rfl) fun _ => ?_
    split
    · exact Keeps.pure _
    · exact Keeps.throw _

lemma keepsIp_hostCaller (kind : CallKind) : KeepsIp (hostCaller kind : ExecM T Unit) := by
  unfold hostCaller
  split
  · exact Keeps.get.bind fun _ => (readOnly_unwrap _).keeps.bind fun _ => Keeps.pure _
  · refine Keeps.get.bind fun _ => (readOnly_unwrap _).keeps.bind fun _ => ?_
    exact Keeps.modify fun _ => rfl

lemma keepsIp_dispatchHostFunc (hostFunc : HostFuncEntity) (inst : Option Nat) :
    KeepsIp (dispatchHostFunc env hostFunc inst) := by
  refine Keeps.get.bind fun m => Keeps.bind (Keeps.modify fun _ => rfl) fun _ => ?_
  split
  · exact (keepsIp_setValues _).bind fun _ => Keeps.throw _
  · exact keepsIp_setValues _

lemma keepsIp_resumable (func : Nat) (results : RegSpan) {x : ExecM T Unit} (hx : KeepsIp x) :
    KeepsIp (resumable func results x) := by
  intro m
  have hfinal : finalState (resumable func results x m) = finalState (x m) := finalState_resumable m
  rw [hfinal]
  exact hx m

lemma keepsIp_setRegisters (regs : List Reg) (values : List UntypedVal) :
    KeepsIp (stepLocal (setRegisters regs values) : ExecM T Unit) := by
  have hlocal : Keeps Local.ip (setRegisters regs values : LocalM T Unit) :=
    keeps_ip_setRegisters _ _
  intro m
  cases h : setRegisters regs values m.toLocal with
  | ok a l =>
    rw [show stepLocal (setRegisters regs values) m = .ok a (m.withLocal l) from zoom_ok h]
    exact hlocal.of_ok h
  | error stop l =>
    rw [show stepLocal (setRegisters regs values) m = .error stop (m.withLocal l) from
      zoom_error h]
    exact hlocal.of_error h

/-- The parameters of a call leave the instruction pointer on their last word. -/
lemma passParams_ip {hasParams : Bool} {offsets : StackOffsets} {m m' : Machine T} {u : Unit}
    (h : passParams env hasParams offsets m = .ok u m') :
    hasParams = false ∧ m'.ip = m.ip ∨ OnParam env m'.ip := by
  cases hasParams with
  | false =>
    cases h
    exact .inl ⟨rfl, rfl⟩
  | true =>
    right
    simp only [passParams, if_true, bind_eq_ok, stepLocal_eq_ok, copyCallParams, get_apply,
      modify_apply, EStateM.Result.ok.injEq, setValues_apply, assume_eq_ok] at h
    obtain ⟨params, _, ⟨l, ⟨_, _, -, _, _, ⟨rfl, rfl⟩, ⟨regs, ip⟩, _, hlist, _, _, ⟨-, rfl⟩,
      hread⟩, rfl⟩, _, _, ⟨rfl, rfl⟩, values, _, ⟨-, rfl⟩, -, rfl⟩ := h
    have hkeep := (ReadOnly.mapM readOnly_getRegister _).of_ok hread
    rw [hkeep]
    exact registerListAt_onParam hlist

/-- A tail call of a host function does not move on: the instruction pointer stays on the call or
on its last parameter word. -/
lemma tailHost_ip {hasParams : Bool} {results : RegSpan} {func : Nat} {entity : HostFuncEntity}
    {m m' : Machine T} {u : Unit}
    (h : executeCallee env ⟨.tail, hasParams⟩ results (.host func entity) m = .ok u m') :
    hasParams = false ∧ m'.ip = m.ip ∨ OnParam env m'.ip := by
  obtain ⟨_, m₁, hhook, h⟩ := bind_eq_ok.mp h
  obtain ⟨_, m₂, hhost, hhook'⟩ := bind_eq_ok.mp h
  rw [executeHostFunc_eq] at hhost
  simp only [bind_eq_ok, get_apply, unwrap_eq_ok, EStateM.Result.ok.injEq] at hhost
  obtain ⟨_, _, ⟨rfl, rfl⟩, inst, _, ⟨-, rfl⟩, _, m₃, hcaller, hrun⟩ := hhost
  have h₁ := (keepsIp_invokeCallHook _).of_ok hhook
  have h₃ := (keepsIp_hostCaller _).of_ok hcaller
  have h₄ := (keepsIp_invokeCallHook _).of_ok hhook'
  simp only [runHostFunc, bind_eq_ok, get_apply, liftTrap_eq_ok, setValues_apply,
    EStateM.Result.ok.injEq, reduceCtorEq, if_false, unwrap_eq_ok] at hrun
  obtain ⟨_, _, ⟨rfl, rfl⟩, _, _, ⟨rfl, rfl⟩, values, _, ⟨-, rfl⟩, _, _, ⟨-, rfl⟩, _, m₅, hparams,
    hend⟩ := hrun
  have hpass := passParams_ip hparams
  obtain ⟨_, m₆, hdispatch, _, m₇, hcache, regs, _, ⟨-, rfl⟩, _, _, ⟨rfl, rfl⟩, _, _, ⟨rfl, rfl⟩,
    _, _, ⟨-, rfl⟩, hset⟩ := hend
  have h₆ := (keepsIp_resumable _ _ (keepsIp_dispatchHostFunc _ _)).of_ok hdispatch
  have h₇ : m₇.ip = m₆.ip := by
    refine Keeps.of_ok (f := fun m => m.ip) ?_ hcache
    exact Keeps.get.bind fun _ => (readOnly_unwrap _).keeps.bind fun _ => Keeps.modify fun _ => rfl
  have h₈ := (keepsIp_setRegisters _ _).of_ok hset
  have hip : m'.ip = m₅.ip := by
    rw [h₄, h₈]
    exact h₇.trans h₆
  rw [hip]
  rcases hpass with ⟨hno, hsame⟩ | hparam
  · exact .inl ⟨hno, hsame.trans (h₃.trans h₁)⟩
  · exact .inr hparam

/-- The parameter word of an indirect call. -/
lemma pullParams_onParam {imm16 : Bool} {l l' : Local T} {pulled : Nat × Nat}
    (h : pullParams imm16 env l = .ok pulled l') : OnParam env l'.ip := by
  cases imm16 with
  | true =>
    simp only [pullParams, if_true, pullCallIndirectParamsImm16, nextInstr, nextInstrAt, bind_eq_ok,
      modify_apply, get_apply, getInstr, assume_eq_ok, EStateM.Result.ok.injEq,
      Option.map_eq_some_iff] at h
    obtain ⟨_, _, ⟨-, rfl⟩, _, _, ⟨rfl, rfl⟩, op, _, ⟨⟨word, hword, hop⟩, rfl⟩, h⟩ := h
    intro instr hinstr
    split at h
    · cases h
      rw [hword] at hinstr
      obtain rfl := Option.some.inj hinstr
      rw [hop]
      rfl
    · cases h
  | false =>
    simp only [pullParams, Bool.false_eq_true, if_false, pullCallIndirectParams, nextInstr,
      nextInstrAt, bind_eq_ok, modify_apply, get_apply, getInstr, assume_eq_ok,
      EStateM.Result.ok.injEq, Option.map_eq_some_iff] at h
    obtain ⟨_, _, ⟨-, rfl⟩, _, _, ⟨rfl, rfl⟩, op, _, ⟨⟨word, hword, hop⟩, rfl⟩, h⟩ := h
    intro instr hinstr
    split at h
    · obtain ⟨index, l₁, hread, hpure⟩ := bind_eq_ok.mp h
      cases hpure
      obtain rfl := (readOnly_getRegisterU32 _).of_ok hread
      rw [hword] at hinstr
      obtain rfl := Option.some.inj hinstr
      rw [hop]
      rfl
    · cases h

/-- Finding an imported or an indirect callee: the instruction pointer is on the call or on its
parameter word. -/
lemma resolveSite_ip {site : CallSite} {m m' : Machine T}
    {r : RegSpan × Callee × Option (Nat × Nat)} (h : resolveSite env site m = .ok r m') :
    m'.ip = m.ip ∨ OnParam env m'.ip := by
  cases htarget : site.target with
  | internal func =>
    simp only [resolveSite, htarget] at h
    obtain ⟨results, m₁, hresults, hpure⟩ := bind_eq_ok.mp h
    cases hpure
    rw [(readOnly_resultRegs site).of_ok hresults]
    exact .inl rfl
  | imported func =>
    simp only [resolveSite, htarget] at h
    obtain ⟨handle, m₁, hhandle, h⟩ := bind_eq_ok.mp h
    obtain ⟨results, m₂, hresults, h⟩ := bind_eq_ok.mp h
    obtain ⟨callee, m₃, hcallee, hpure⟩ := bind_eq_ok.mp h
    cases hpure
    obtain ⟨-, rfl⟩ := (stepLocal_eq_ok_of_readOnly (readOnly_getEntity _ _)).mp hhandle
    rw [(readOnly_resolveFunc _).of_ok hcallee, (readOnly_resultRegs site).of_ok hresults]
    exact .inl rfl
  | indirect funcType imm16 =>
    simp only [resolveSite, htarget] at h
    obtain ⟨⟨index, table⟩, m₁, hpull, h⟩ := bind_eq_ok.mp h
    obtain ⟨results, m₂, hresults, h⟩ := bind_eq_ok.mp h
    obtain ⟨handle, m₃, hhandle, h⟩ := bind_eq_ok.mp h
    obtain ⟨callee, m₄, hcallee, hpure⟩ := bind_eq_ok.mp h
    cases hpure
    obtain ⟨-, rfl⟩ := (stepLocal_eq_ok_of_readOnly (readOnly_resolveIndirect _ _ _)).mp hhandle
    rw [(readOnly_resolveFunc _).of_ok hcallee, (readOnly_resultRegs site).of_ok hresults]
    obtain ⟨l, hpull', rfl⟩ := stepLocal_eq_ok.mp hpull
    exact .inr (pullParams_onParam hpull')

/-- The loop comes to ready machines only. -/
theorem ready_of_continues {m m' : Machine T} (h : Ready env m) (hone : Continues env m m') :
    Ready env m' := by
  rcases h with hframes | hstuck
  swap
  · exact absurd hone (hstuck.executeOne _ _)
  obtain ⟨instr, hinstr, hexec⟩ := executeOne_eq_ok.mp hone
  by_cases hframes' : m'.stack.calls.frames = []
  swap
  · exact .inl hframes'
  cases hcall : instr.op.callSite with
  | none =>
    exfalso
    cases hreturn : instr.op.isReturn with
    | false =>
      rw [executeOp_other hcall hreturn] at hexec
      obtain ⟨_, m₁, hother, hflow⟩ := bind_eq_ok.mp hexec
      cases hflow
      have hcalls := (keepsCalls_executeOther _ _).of_ok hother
      exact hframes (by rw [← hcalls]; exact hframes')
    | true =>
      rw [executeOp_return hreturn] at hexec
      cases hnow : returnsNow instr.op m.toLocal with
      | true =>
        have hpops := popsFrame_executeReturn hreturn hnow hexec
        have hflow := hpops.flow.mpr hframes'
        cases hflow
      | false =>
        obtain ⟨hcalls, -⟩ := executeReturn_skip_calls hreturn hnow hexec
        exact hframes (by rw [← hcalls]; exact hframes')
  | some site =>
    -- the frames are gone: a tail call of a host function has popped the last one
    right
    rw [executeOp_callSite hcall] at hexec
    obtain ⟨pulled, m₁, hsite, hflow⟩ := bind_eq_ok.mp hexec
    cases hflow
    obtain ⟨results, target, m₁, hresolve, hcallee⟩ := executeSite_eq_ok.mp hsite
    have hafter := congrArg Prod.fst (executeSite_skeleton hresolve hcallee)
    have hnil : (skeleton m').1 = [] := CallStack.funcs_eq_nil.mpr hframes'
    rw [hnil] at hafter
    obtain ⟨siteResults, hasParams, siteTarget⟩ := site
    cases siteResults with
    | some siteResults =>
      cases target with
      | compiled body inst => cases hafter
      | host func entity => exact absurd (CallStack.funcs_eq_nil.mp hafter.symm) hframes
    | none =>
      cases target with
      | compiled body inst => cases hafter
      | host func entity =>
        refine ⟨hframes', fun instr' hinstr' => ?_⟩
        rcases tailHost_ip hcallee with ⟨-, hip⟩ | hparam
        · rcases resolveSite_ip hresolve with hip' | hparam'
          · rw [hip, hip', hinstr] at hinstr'
            obtain rfl := Option.some.inj hinstr'
            exact .inr ⟨_, hcall, rfl⟩
          · rw [hip] at hinstr'
            exact .inl (hparam' instr' hinstr')
        · exact .inl (hparam instr' hinstr')

lemma ready_of_steps {n : Nat} {m m' : Machine T} (h : Ready env m)
    (hsteps : Steps (Continues env) n m m') : Ready env m' :=
  hsteps.invariant (fun _ _ hone h => ready_of_continues h hone) h

/-! ## The end of a run -/

/-- Reading the returned values: those in a register list move the instruction pointer onto it. -/
lemma returnedValues_ip {op : Op} {m m' : Machine T} {values : List UntypedVal}
    (h : stepLocal (returnedValues env op) m = .ok values m') :
    if op.returnsList then ∃ word, env.instrAt m'.ip = some word ∧ word.op.isParam
    else m'.ip = m.ip := by
  have hlist : ∀ regs : List Reg,
      stepLocal (do nextInstr; listedValues env (← get).ip regs) m = .ok values m' →
      ∃ word, env.instrAt m'.ip = some word ∧ word.op.isParam := by
    intro regs h
    obtain ⟨hvalues, rfl⟩ := stepLocal_listedValues.mp h
    simp only [listedValues, registerListAt, bind_eq_ok, assume_eq_ok,
      Option.bind_eq_some_iff] at hvalues
    obtain ⟨_, _, ⟨⟨regs', len⟩, _, ⟨⟨words, hwords, hregs⟩, -⟩, -⟩, -⟩ := hvalues
    obtain ⟨word, hword, hparam⟩ := registerList_first hregs
    exact ⟨word, by simpa [Engine.instrAt, hwords] using hword, hparam⟩
  cases hop : op.returnsList with
  | true =>
    rw [if_pos rfl]
    cases op <;> try contradiction
    case returnMany => exact hlist _ h
    case returnNezMany => exact hlist _ h
  | false =>
    rw [if_neg Bool.false_ne_true]
    have hregs : ∀ regs : List Reg, ReadOnly (regs.mapM getRegister : LocalM T _) :=
      ReadOnly.mapM readOnly_getRegister
    have hread : ReadOnly (returnedValues env op) := by
      unfold returnedValues
      split
      all_goals first
        | exact hregs _
        | exact ReadOnly.pure _
        | exact (readOnly_unwrap _).bind fun _ => hregs _
        | cases hop
    obtain ⟨-, rfl⟩ := (stepLocal_eq_ok_of_readOnly hread).mp h
    rfl

/-- Where the machine is once the root function has returned: the instruction pointer is still on
the return instruction, or on its register list. -/
structure EndsAt (env : Engine T) (instr : Instruction) (m m' : Machine T) : Prop where
  at_ : env.instrAt m.ip = some instr
  isReturn : instr.op.isReturn
  frames : m'.stack.calls.frames = []
  ip : if instr.op.returnsList then ∃ word, env.instrAt m'.ip = some word ∧ word.op.isParam
    else m'.ip = m.ip

/-- The last iteration of the loop is a return of the root function. -/
theorem endsAt_of_break {m m' : Machine T} (h : executeOne env m = .ok .break_ m') :
    ∃ instr, EndsAt env instr m m' := by
  obtain ⟨instr, hinstr, hexec⟩ := executeOne_eq_ok.mp h
  cases hcall : instr.op.callSite with
  | some site =>
    rw [executeOp_callSite hcall] at hexec
    obtain ⟨_, _, -, hflow⟩ := bind_eq_ok.mp hexec
    cases hflow
  | none =>
    cases hreturn : instr.op.isReturn with
    | false =>
      rw [executeOp_other hcall hreturn] at hexec
      obtain ⟨_, _, -, hflow⟩ := bind_eq_ok.mp hexec
      cases hflow
    | true =>
      rw [executeOp_return hreturn] at hexec
      cases hnow : returnsNow instr.op m.toLocal with
      | false =>
        obtain ⟨-, hflow⟩ := executeReturn_skip_calls hreturn hnow hexec
        cases hflow
      | true =>
        have hpops := popsFrame_executeReturn hreturn hnow hexec
        have hframes := hpops.flow.mp rfl
        obtain ⟨values, m₁, hvalues, hfinish⟩ := (executeReturn_eq_ok hreturn hnow).mp hexec
        have hip := returnedValues_ip hvalues
        obtain ⟨cells, results, regs, written, -, -, -, hret⟩ := finishReturn_eq_ok.mp hfinish
        obtain ⟨returned, popped, calls, cache, -, -, -, hresume⟩ := returnImpl_eq_ok.mp hret
        have hsame : m'.ip = m₁.ip := by
          unfold resumeCaller at hresume
          split at hresume
          · cases hresume
          · cases hresume
            rfl
        exact ⟨instr, hinstr, hreturn, hframes, by rwa [hsame]⟩

end Executor

end MotokoDebugger
