import MotokoDebugger.Debugger.Session
import MotokoDebugger.Executor.CallParts
import MotokoDebugger.Executor.ReturnParts

/-!
# One step of the debugger

* `executeStep_eq_ok`: a step that returns is one instruction, then the callbacks it reports.
* `executeStep_fault`: an error of the source comes from the instruction alone.
-/

namespace MotokoDebugger

namespace Debugger

open StateExcept Executor

variable {T : Type}

lemma onMachine_eq_ok {α : Type} {x : ExecM T α} {s s' : Session T} {a : α} :
    onMachine x s = .ok a s' ↔ ∃ m, x s.machine = .ok a m ∧ { s with machine := m } = s' :=
  zoom_eq_ok

lemma onMachine_eq_error {α : Type} {x : ExecM T α} {s s' : Session T} {stop : Stop} :
    onMachine x s = .error stop s' ↔
      ∃ m, x s.machine = .error stop m ∧ { s with machine := m } = s' :=
  zoom_eq_error

/-! ## The callbacks -/

/-- Does the one-shot breakpoint at the entry of the main file stop at this instruction? -/
def entryBreaks (s : Session T) (instrOffset : Nat) : Bool :=
  s.isInterrupted && decide (instrOffset ∈ s.breakpoints.instInFile0)

/-- The session after `execute_inst`. -/
def afterInst (s : Session T) (instrOffset : Nat) : Session T :=
  if entryBreaks s instrOffset then { s with isInterrupted := false } else s

/-- The signal of `execute_inst`. -/
def instSignal (s : Session T) (instrOffset : Nat) : Signal :=
  if entryBreaks s instrOffset then .breakpoint else .next

lemma executeInst_apply (s : Session T) (instrOffset : Nat) :
    executeInst instrOffset s = .ok (instSignal s instrOffset) (afterInst s instrOffset) := by
  unfold executeInst afterInst instSignal entryBreaks
  rw [get_bind]
  by_cases h : s.isInterrupted = true ∧ instrOffset ∈ s.breakpoints.instInFile0
  · simp only [h.1, h.2]
    rfl
  · simp [h]

lemma afterInst_machine (s : Session T) (instrOffset : Nat) :
    (afterInst s instrOffset).machine = s.machine := by
  unfold afterInst
  split <;> rfl

/-- What the debugger and the user may change without touching the executor and the list of
invoked functions. -/
lemma afterInst_eq (s : Session T) (instrOffset : Nat) :
    ∃ isInterrupted, afterInst s instrOffset = { s with isInterrupted } := by
  unfold afterInst
  split
  · exact ⟨false, rfl⟩
  · exact ⟨s.isInterrupted, rfl⟩

/-- The function in a slot of a table of an instance, as the callback reads it. -/
def tableSlot (store : Store T) (inst tableIdx index : Nat) : Option Nat := do
  let entity ← store.instances[inst]?
  let table ← entity.tables[tableIdx]?
  tableFuncIdx store table index

/-- The index `invoke_func` records, `some none` where no call is reported. `none` where the
callback panics or reads outside of the instance. -/
def reportedIdx (m : Machine T) (report : InstrReport) : Option (Option Nat) :=
  if report.callIdx = -1 then some none
  else
    match report.tableIdx with
    | none => some (some (asU32 report.callIdx))
    | some tableIdx => (tableSlot m.store m.cache.inst tableIdx (asU32 report.callIdx)).map some

/-- The session after the callback for a call. -/
def afterCall (s : Session T) : Option Nat → Session T
  | none => s
  | some func => { s with invokedFuncIndex := func :: s.invokedFuncIndex }

/-- The signal of the callback for a call. -/
def callSignal (s : Session T) : Option Nat → Signal
  | none => .next
  | some func =>
    match funcNameByIdx s func with
    | some name => if s.breakpoints.shouldBreakFunc name then .breakpoint else .next
    | none => .next

lemma recordFunc_apply (s : Session T) (func : Nat) :
    recordFunc func s = .ok (callSignal s (some func)) (afterCall s (some func)) := by
  have hname : funcNameByIdx (afterCall s (some func)) func = funcNameByIdx s func := rfl
  rw [recordFunc, modify_bind, get_bind]
  show (match funcNameByIdx (afterCall s (some func)) func with
    | some name => pure (if s.breakpoints.shouldBreakFunc name then .breakpoint else .next)
    | none => pure .next : DbgM T Signal) (afterCall s (some func)) = _
  rw [hname, callSignal]
  cases funcNameByIdx s func <;> rfl

lemma invokeFunc_none (s : Session T) (callIdx : Int) :
    invokeFunc callIdx none s =
      .ok (callSignal s (some (asU32 callIdx))) (afterCall s (some (asU32 callIdx))) :=
  recordFunc_apply s _

lemma invokeFunc_some_eq_ok {s s' : Session T} {callIdx : Int} {table : Nat} {sig : Signal} :
    invokeFunc callIdx (some table) s = .ok sig s' ↔
      ∃ func, tableFuncIdx s.machine.store table (asU32 callIdx) = some func ∧
        callSignal s (some func) = sig ∧ afterCall s (some func) = s' := by
  simp [invokeFunc, bind_eq_ok, recordFunc_apply]

lemma getTable_eq_ok {l l' : Local T} {tableIdx table : Nat} :
    getTable tableIdx l = .ok table l' ↔
      (∃ entity, l.store.instances[l.cache.inst]? = some entity ∧
        entity.tables[tableIdx]? = some table) ∧ l = l' := by
  simp only [getTable, getEntity, bind_eq_ok, get_apply, assume_eq_ok, EStateM.Result.ok.injEq]
  constructor
  · rintro ⟨_, _, ⟨rfl, rfl⟩, entity, _, ⟨hentity, rfl⟩, htable, rfl⟩
    exact ⟨⟨entity, hentity, htable⟩, rfl⟩
  · rintro ⟨⟨entity, hentity, htable⟩, rfl⟩
    exact ⟨l, l, ⟨rfl, rfl⟩, entity, l, ⟨hentity, rfl⟩, htable, rfl⟩

/-- The callback for a call records one function at most and changes nothing else. -/
theorem reportCall_eq_ok {report : InstrReport} {s s' : Session T} {sig : Signal} :
    reportCall report s = .ok sig s' ↔
      ∃ idx, reportedIdx s.machine report = some idx ∧ callSignal s idx = sig ∧
        afterCall s idx = s' := by
  by_cases hcall : report.callIdx = -1
  · simp [reportCall, reportedIdx, hcall, callSignal, afterCall]
  cases htable : report.tableIdx with
  | none => simp [reportCall, reportedIdx, hcall, htable, invokeFunc_none]
  | some tableIdx =>
    simp only [reportCall, reportedIdx, hcall, htable, ne_eq, not_false_eq_true, if_true, if_false,
      bind_eq_ok, onMachine_eq_ok, stepLocal_eq_ok, getTable_eq_ok, invokeFunc_some_eq_ok,
      tableSlot, Option.map_eq_some_iff, Option.bind_eq_bind, Option.bind_eq_some_iff]
    constructor
    · rintro ⟨table, _, ⟨_, ⟨_, ⟨⟨entity, hentity, htable⟩, rfl⟩, rfl⟩, rfl⟩, func, hfunc, rfl, rfl⟩
      rw [Machine.withLocal_toLocal] at hfunc ⊢
      exact ⟨some func, ⟨func, ⟨entity, hentity, table, htable, hfunc⟩, rfl⟩, rfl, rfl⟩
    · rintro ⟨_, ⟨func, ⟨entity, hentity, table, htable, hfunc⟩, rfl⟩, rfl, rfl⟩
      refine ⟨table, s, ⟨s.machine, ⟨_, ⟨⟨entity, hentity, htable⟩, rfl⟩, ?_⟩, rfl⟩, func, hfunc,
        rfl, rfl⟩
      exact Machine.withLocal_toLocal _

/-! ## The step -/

lemma requireExecutor_eq_ok {s s' : Session T} {u : Unit} :
    requireExecutor s = .ok u s' ↔ s.executor = .live ∧ s = s' := by
  cases h : s.executor <;> simp [requireExecutor, bind_eq_ok, h, bail]

lemma fetch_eq_ok {env : Engine T} {m m' : Machine T} {instr : Instruction} :
    fetch env m = .ok instr m' ↔ env.instrAt m.ip = some instr ∧ m = m' := by
  simp [fetch, bind_eq_ok, and_comm]

lemma getImportFuncLen_eq_ok {s s' : Session T} {len : Nat} :
    getImportFuncLen s = .ok len s' ↔
      (∃ inst, s.inst = some inst ∧ inst.importFuncLen = len) ∧ s = s' := by
  cases h : s.inst <;> simp [getImportFuncLen, bind_eq_ok, map_eq_ok, h, and_comm]

/-- The signal of a callback depends on the instance and the breakpoints only. -/
lemma callSignal_afterInst (s : Session T) (instrOffset : Nat) (m : Machine T)
    (idx : Option Nat) :
    callSignal { afterInst s instrOffset with machine := m } idx = callSignal s idx := by
  obtain ⟨isInterrupted, h⟩ := afterInst_eq s instrOffset
  rw [h]
  cases idx <;> rfl

/-- The session after the callbacks of a step whose instruction left the machine `m`. -/
def afterStep (s : Session T) (instrOffset : Nat) (m : Machine T) (report : InstrReport)
    (idx : Option Nat) : Session T :=
  let s := afterCall { afterInst s instrOffset with machine := m } idx
  if report.isPopFrame then { s with invokedFuncIndex := s.invokedFuncIndex.tail } else s

lemma afterStep_machine (s : Session T) (instrOffset : Nat) (m : Machine T)
    (report : InstrReport) (idx : Option Nat) :
    (afterStep s instrOffset m report idx).machine = m := by
  unfold afterStep afterCall
  cases idx <;> cases report.isPopFrame <;> rfl

lemma afterStep_inst (s : Session T) (instrOffset : Nat) (m : Machine T) (report : InstrReport)
    (idx : Option Nat) : (afterStep s instrOffset m report idx).inst = s.inst := by
  obtain ⟨isInterrupted, h⟩ := afterInst_eq s instrOffset
  simp only [afterStep, afterCall, h]
  cases idx <;> cases report.isPopFrame <;> rfl

lemma afterStep_executor (s : Session T) (instrOffset : Nat) (m : Machine T)
    (report : InstrReport) (idx : Option Nat) :
    (afterStep s instrOffset m report idx).executor = s.executor := by
  obtain ⟨isInterrupted, h⟩ := afterInst_eq s instrOffset
  simp only [afterStep, afterCall, h]
  cases idx <;> cases report.isPopFrame <;> rfl

lemma afterStep_runFunc (s : Session T) (instrOffset : Nat) (m : Machine T)
    (report : InstrReport) (idx : Option Nat) :
    (afterStep s instrOffset m report idx).runFunc = s.runFunc := by
  obtain ⟨isInterrupted, h⟩ := afterInst_eq s instrOffset
  simp only [afterStep, afterCall, h]
  cases idx <;> cases report.isPopFrame <;> rfl

lemma afterStep_invoked (s : Session T) (instrOffset : Nat) (m : Machine T)
    (report : InstrReport) (idx : Option Nat) :
    (afterStep s instrOffset m report idx).invokedFuncIndex =
      if report.isPopFrame then (idx.toList ++ s.invokedFuncIndex).tail
      else idx.toList ++ s.invokedFuncIndex := by
  obtain ⟨isInterrupted, h⟩ := afterInst_eq s instrOffset
  simp only [afterStep, afterCall, h]
  cases idx <;> cases report.isPopFrame <;> rfl

/-- A step that returns. -/
theorem executeStep_eq_ok {env : Engine T} {s s' : Session T} {sig : Signal} :
    executeStep env s = .ok sig s' ↔
      s.executor = .live ∧ ∃ instr inst report m idx,
        env.instrAt s.machine.ip = some instr ∧ s.inst = some inst ∧
        executeInstr env inst.importFuncLen instr.op s.machine = .ok report m ∧
        reportedIdx m report = some idx ∧
        combineSignals (instSignal s instr.instrOffset) (callSignal s idx) report.signal = sig ∧
        afterStep s instr.instrOffset m report idx = s' := by
  have hinst : ∀ instrOffset, (afterInst s instrOffset).inst = s.inst := by
    intro instrOffset
    obtain ⟨isInterrupted, h⟩ := afterInst_eq s instrOffset
    rw [h]
  have hmachine : ({ s with machine := s.machine } : Session T) = s := rfl
  have hpop : ∀ (report : InstrReport) (s₁ : Session T) (signal : Signal),
      (do
        if report.isPopFrame then
          popFrame
        return signal : DbgM T Signal) s₁ = .ok signal
        (if report.isPopFrame then
          { s₁ with invokedFuncIndex := s₁.invokedFuncIndex.tail } else s₁) := by
    intro report s₁ signal
    cases report.isPopFrame <;> rfl
  simp only [executeStep, bind_eq_ok, requireExecutor_eq_ok, onMachine_eq_ok, fetch_eq_ok,
    executeInst_apply, getImportFuncLen_eq_ok, reportCall_eq_ok]
  constructor
  · rintro ⟨_, _, ⟨hlive, rfl⟩, instr, _, ⟨_, ⟨hinstr, rfl⟩, rfl⟩, _, _, heq, len, _,
      ⟨⟨inst, hsome, rfl⟩, rfl⟩, report, _, ⟨m, hexec, rfl⟩, _, _, ⟨idx, hidx, rfl, rfl⟩, h⟩
    cases heq
    rw [hmachine] at *
    simp only [hpop] at h
    cases h
    rw [afterInst_machine] at hexec
    rw [hinst] at hsome
    exact ⟨hlive, instr, inst, report, m, idx, hinstr, hsome, hexec, hidx,
      by rw [callSignal_afterInst], rfl⟩
  · rintro ⟨hlive, instr, inst, report, m, idx, hinstr, hsome, hexec, hidx, rfl, rfl⟩
    refine ⟨(), s, ⟨hlive, rfl⟩, instr, s, ⟨s.machine, ⟨hinstr, rfl⟩, rfl⟩, _, _, rfl,
      inst.importFuncLen, _, ⟨⟨inst, by rw [hinst, hsome], rfl⟩, rfl⟩, report, _,
      ⟨m, by rwa [afterInst_machine], rfl⟩, _, _, ⟨idx, hidx, rfl, rfl⟩, ?_⟩
    rw [hpop, callSignal_afterInst]
    rfl

/-- What no step touches. -/
lemma executeStep_keeps {env : Engine T} {s s' : Session T} {sig : Signal}
    (h : executeStep env s = .ok sig s') :
    s.executor = .live ∧ s'.executor = .live ∧ s'.inst = s.inst ∧ s'.runFunc = s.runFunc := by
  obtain ⟨hlive, instr, inst, report, m, idx, -, -, -, -, -, rfl⟩ := executeStep_eq_ok.mp h
  exact ⟨hlive, (afterStep_executor _ _ _ _ _).trans hlive, afterStep_inst _ _ _ _ _,
    afterStep_runFunc _ _ _ _ _⟩

lemma noFault_reportCall (report : InstrReport) :
    NoFault Stop.IsFault (reportCall report : DbgM T Signal) := by
  have hrecord : ∀ func, NoFault Stop.IsFault (recordFunc func : DbgM T Signal) := by
    intro func s stop s' h
    rw [recordFunc_apply] at h
    cases h
  unfold reportCall
  split
  · split
    · refine NoFault.bind (NoFault.zoom (noFault_stepLocal ?_)) fun table => ?_
      · exact NoFault.get.bind fun _ => (noFault_assume _).bind fun _ => noFault_assume _
      · exact NoFault.get.bind fun _ => (noFault_unwrap _).bind hrecord
    · exact hrecord _
  · exact NoFault.pure _

lemma reportCall_eq_error {report : InstrReport} {s s' : Session T} {stop : Stop}
    (h : reportCall report s = .error stop s') : reportedIdx s.machine report = none := by
  by_contra hidx
  obtain ⟨idx, hidx⟩ := Option.ne_none_iff_exists'.mp hidx
  have hok : reportCall report s = .ok (callSignal s idx) (afterCall s idx) :=
    reportCall_eq_ok.mpr ⟨idx, hidx, rfl, rfl⟩
  rw [hok] at h
  cases h

/-- A step whose instruction stops. -/
lemma executeStep_of_error {env : Engine T} {s : Session T} {inst : InstanceWithName}
    {instr : Instruction} {stop : Stop} {m : Machine T} (hlive : s.executor = .live)
    (hinst : s.inst = some inst) (hinstr : env.instrAt s.machine.ip = some instr)
    (hexec : executeInstr env inst.importFuncLen instr.op s.machine = .error stop m) :
    executeStep env s = .error stop { afterInst s instr.instrOffset with machine := m } := by
  have hrequire : requireExecutor s = .ok () s := requireExecutor_eq_ok.mpr ⟨hlive, rfl⟩
  have hfetch : onMachine (fetch env) s = .ok instr s :=
    onMachine_eq_ok.mpr ⟨s.machine, fetch_eq_ok.mpr ⟨hinstr, rfl⟩, rfl⟩
  have hinst' : (afterInst s instr.instrOffset).inst = some inst := by
    obtain ⟨isInterrupted, heq⟩ := afterInst_eq s instr.instrOffset
    rw [heq, hinst]
  have hlen : getImportFuncLen (afterInst s instr.instrOffset) =
      .ok inst.importFuncLen (afterInst s instr.instrOffset) :=
    getImportFuncLen_eq_ok.mpr ⟨⟨inst, hinst', rfl⟩, rfl⟩
  have hmachine : onMachine (executeInstr env inst.importFuncLen instr.op)
      (afterInst s instr.instrOffset) =
      .error stop { afterInst s instr.instrOffset with machine := m } :=
    onMachine_eq_error.mpr ⟨m, by rwa [afterInst_machine], rfl⟩
  rw [executeStep, bind_ok hrequire, bind_ok hfetch, bind_ok (executeInst_apply _ _), bind_ok hlen,
    bind_error hmachine]

/-- A step outside of the code. -/
lemma executeStep_of_no_instr {env : Engine T} {s : Session T} (hlive : s.executor = .live)
    (hinstr : env.instrAt s.machine.ip = none) : executeStep env s = .error .undefined s := by
  have hrequire : requireExecutor s = .ok () s := requireExecutor_eq_ok.mpr ⟨hlive, rfl⟩
  have hfetch : onMachine (fetch env) s = .error .undefined s := by
    refine onMachine_eq_error.mpr ⟨s.machine, ?_, rfl⟩
    simp [fetch, get_bind, hinstr, assume]
  rw [executeStep, bind_ok hrequire, bind_error hfetch]

/-- A step of a live executor that stops: there is no instruction, the instruction stops, or the
callback for the call it made does. -/
theorem executeStep_eq_error {env : Engine T} {s s' : Session T} {stop : Stop}
    {inst : InstanceWithName} (hlive : s.executor = .live) (hinst : s.inst = some inst)
    (h : executeStep env s = .error stop s') :
    (env.instrAt s.machine.ip = none ∧ stop = .undefined) ∨
      ∃ instr, env.instrAt s.machine.ip = some instr ∧
        ((∃ m, executeInstr env inst.importFuncLen instr.op s.machine = .error stop m ∧
            s' = { afterInst s instr.instrOffset with machine := m }) ∨
          ∃ report m, executeInstr env inst.importFuncLen instr.op s.machine = .ok report m ∧
            reportedIdx m report = none ∧ ¬ stop.IsFault) := by
  have hexec : ∀ instrOffset, (afterInst s instrOffset).inst = some inst := by
    intro instrOffset
    obtain ⟨isInterrupted, heq⟩ := afterInst_eq s instrOffset
    rw [heq, hinst]
  have hlen : ∀ instrOffset, getImportFuncLen (afterInst s instrOffset) =
      .ok inst.importFuncLen (afterInst s instrOffset) :=
    fun instrOffset => getImportFuncLen_eq_ok.mpr ⟨⟨inst, hexec instrOffset, rfl⟩, rfl⟩
  have hrequire : requireExecutor s = .ok () s := requireExecutor_eq_ok.mpr ⟨hlive, rfl⟩
  rw [executeStep, bind_ok hrequire] at h
  cases hinstr : env.instrAt s.machine.ip with
  | none =>
    left
    rcases bind_eq_error.mp h with h | ⟨instr, _, h, -⟩
    · obtain ⟨m, hfetch, rfl⟩ := onMachine_eq_error.mp h
      simp only [fetch, get_bind, hinstr, assume, throw_apply, EStateM.Result.error.injEq] at hfetch
      exact ⟨rfl, hfetch.1.symm⟩
    · obtain ⟨m, hfetch, -⟩ := onMachine_eq_ok.mp h
      rw [(fetch_eq_ok.mp hfetch).1] at hinstr
      cases hinstr
  | some instr =>
    right
    refine ⟨instr, rfl, ?_⟩
    have hfetch : onMachine (fetch env) s = .ok instr s :=
      onMachine_eq_ok.mpr ⟨s.machine, fetch_eq_ok.mpr ⟨hinstr, rfl⟩, rfl⟩
    rw [bind_ok hfetch, bind_ok (executeInst_apply _ _), bind_ok (hlen _)] at h
    rcases bind_eq_error.mp h with h | ⟨report, s₁, hreport, h⟩
    · left
      obtain ⟨m, hm, rfl⟩ := onMachine_eq_error.mp h
      rw [afterInst_machine] at hm
      exact ⟨m, hm, rfl⟩
    · right
      obtain ⟨m, hm, rfl⟩ := onMachine_eq_ok.mp hreport
      rw [afterInst_machine] at hm
      rcases bind_eq_error.mp h with h | ⟨signal, s₂, -, h⟩
      · exact ⟨report, m, hm, reportCall_eq_error h, noFault_reportCall _ _ _ _ h⟩
      · cases hpop : report.isPopFrame <;> simp [hpop, popFrame, map_eq_error] at h

/-- A step that raises an error of the source: no executor, or the instruction raises it. -/
theorem executeStep_fault {env : Engine T} {s s' : Session T} {stop : Stop}
    (h : executeStep env s = .error stop s') (hstop : stop.IsFault) :
    (s.executor = .absent ∧ s' = s) ∨
      s.executor = .live ∧ ∃ instr inst m,
        env.instrAt s.machine.ip = some instr ∧ s.inst = some inst ∧
        executeInstr env inst.importFuncLen instr.op s.machine = .error stop m ∧
        s' = { afterInst s instr.instrOffset with machine := m } := by
  cases hexec : s.executor with
  | absent =>
    left
    simp only [executeStep, requireExecutor, bind_assoc, get_bind, hexec, bail] at h
    cases h
    exact ⟨rfl, rfl⟩
  | stale =>
    simp only [executeStep, requireExecutor, bind_assoc, get_bind, hexec] at h
    cases h
    exact absurd hstop not_isFault_undefined
  | live =>
    right
    cases hinst : s.inst with
    | some inst =>
      rcases executeStep_eq_error hexec hinst h with
        ⟨-, rfl⟩ | ⟨instr, hinstr, ⟨m, hm, hs⟩ | ⟨report, m, -, -, hno⟩⟩
      · exact absurd hstop not_isFault_undefined
      · exact ⟨rfl, instr, inst, m, hinstr, rfl, hm, hs⟩
      · exact absurd hstop hno
    | none =>
      -- without an instance the callback for the imports panics
      have hrequire : requireExecutor s = .ok () s := requireExecutor_eq_ok.mpr ⟨hexec, rfl⟩
      rw [executeStep, bind_ok hrequire] at h
      rcases bind_eq_error.mp h with h | ⟨instr, s₁, hfetch, h⟩
      · have hfetch : NoFault Stop.IsFault (fetch env) :=
          NoFault.get.bind fun _ => noFault_assume _
        exact absurd hstop (hfetch.zoom _ _ _ h)
      · obtain ⟨m, hm, rfl⟩ := onMachine_eq_ok.mp hfetch
        obtain ⟨-, rfl⟩ := fetch_eq_ok.mp hm
        rw [bind_ok (executeInst_apply _ _)] at h
        rcases bind_eq_error.mp h with h | ⟨len, s₂, hlen, -⟩
        · have hlen : NoFault Stop.IsFault (getImportFuncLen : DbgM T Nat) :=
            NoFault.get.bind fun _ => (noFault_unwrap _).bind fun _ => NoFault.pure _
          exact absurd hstop (hlen _ _ _ h)
        · obtain ⟨⟨inst, hsome, -⟩, -⟩ := getImportFuncLen_eq_ok.mp hlen
          obtain ⟨isInterrupted, heq⟩ := afterInst_eq s instr.instrOffset
          rw [show ({ s with machine := s.machine } : Session T) = s from rfl, heq] at hsome
          rw [hinst] at hsome
          cases hsome

end Debugger

end MotokoDebugger
