import MotokoDebugger.Executor.Atomic
import MotokoDebugger.Executor.ReturnParts

/-!
# Faults that leave the machine as it was

* `LocalInPlace`, `SiteInPlace`, `FailsInPlace`: the instructions that move nothing where they fail.
* `inPlace_executeLocal`, `inPlace_executeSite`: they do not, by the kind of instruction.
* `inPlace_executeInstr`: they do not.
-/

namespace MotokoDebugger

namespace Executor

open StateExcept

variable {T : Type} {α : Type} {env : Engine T}

/-! ## Instructions that neither call nor return -/

/-- The instruction word behind the one at `ip`. -/
def nextWord (env : Engine T) (ip : InstructionPtr) : Option Op :=
  (env.instrAt (ip.add 1)).map (·.op)

/-- The instructions that neither call nor return and that leave the state as it was where they
fail: all of them, but for accesses at a constant address of a memory that is not the default one,
and growths under a limiter. -/
def LocalInPlace (env : Engine T) (ip : InstructionPtr) : Op → Prop
  | .loadAt .. | .storeAt .. | .storeAtImm .. =>
    ∀ memory, nextWord env ip ≠ some (.memoryIndex memory)
  | .tableGrow .. | .memoryGrow .. => env.limiter = none
  | _ => True

/-- An optional memory word that is not there. -/
lemma inPlace_fetchOptionalMemory {l : Local T} {f : Nat → LocalM T α}
    (hword : ∀ memory, nextWord env l.ip ≠ some (.memoryIndex memory))
    (hf : FaultKeepsAt Stop.IsFault l (f 0)) :
    FaultKeepsAt Stop.IsFault l (fetchOptionalMemory env >>= f) := by
  rw [fetchOptionalMemory, bind_assoc]
  refine FaultKeepsAt.after (readOnly_fetchParam 1) fun word hfetch => ?_
  split
  · rename_i memory
    simp only [fetchParam, getInstr, get_bind, assume_eq_ok] at hfetch
    exact absurd hfetch.1 (hword memory)
  · rw [pure_bind]
    exact hf

lemma inPlace_executeLoadAt {l : Local T} {result : Reg} {address : BitVec 32} {op : LoadOp}
    (hword : ∀ memory, nextWord env l.ip ≠ some (.memoryIndex memory)) :
    FaultKeepsAt Stop.IsFault l (executeLoadAt env result address op) := by
  refine inPlace_fetchOptionalMemory hword (FaultKeepsAt.after (readOnly_fetchMemory _) ?_)
  intro memory _
  refine FaultKeepsAt.bind_noFault ?_ fun _ => noFault_nextInstr
  exact (atomic_executeLoadExtend _ _ _ _ _).faultKeeps.keepsAt l

lemma inPlace_executeStoreAt {l : Local T} {address : BitVec 32} {value : LocalM T UntypedVal}
    {op : StoreOp} (hvalue : ReadOnly value)
    (hword : ∀ memory, nextWord env l.ip ≠ some (.memoryIndex memory)) :
    FaultKeepsAt Stop.IsFault l (executeStoreAt env address value op) := by
  refine inPlace_fetchOptionalMemory hword (FaultKeepsAt.after hvalue fun value _ => ?_)
  refine FaultKeepsAt.after (readOnly_fetchMemory _) fun memory _ => ?_
  refine FaultKeepsAt.bind_noFault ?_ fun _ => noFault_nextInstr
  exact (atomic_executeStoreWrap _ _ _ _ _).faultKeeps.keepsAt l

/-- The errors of a growth that are traps. -/
def EntityGrowError.IsTrap (error : EntityGrowError) : Prop := ∃ code, error = .trapCode code

lemma not_isTrap_invalidGrow : ¬ EntityGrowError.IsTrap .invalidGrow := by
  rintro ⟨code, h⟩
  cases h

lemma not_isTrap_panic : ¬ EntityGrowError.IsTrap .panic := by
  rintro ⟨code, h⟩
  cases h

/-- Without a limiter there is nobody to notify. -/
lemma faultKeeps_notifyLimiter {E : Type} (notify : ResourceLimiter T → T → T)
    (error : EntityGrowError) : FaultKeeps EntityGrowError.IsTrap id
      (notifyLimiter none notify error : GrowM E T α) := ReadOnly.faultKeeps (ReadOnly.throw _)

lemma noFault_notifyLimiter {E : Type} (notify : ResourceLimiter T → T → T) :
    NoFault EntityGrowError.IsTrap
      (notifyLimiter none notify .invalidGrow : GrowM E T α) :=
  NoFault.throw not_isTrap_invalidGrow

/-- Without a limiter a memory that traps for want of fuel is as it was, and so is the fuel. -/
lemma faultKeeps_growMemory (additional : Nat) : FaultKeeps EntityGrowError.IsTrap id
    (MemoryEntity.grow none additional : GrowM MemoryEntity T Nat) := by
  unfold MemoryEntity.grow
  refine FaultKeeps.bind_readOnly ReadOnly.get fun s => ?_
  dsimp only
  split
  · exact ReadOnly.faultKeeps (ReadOnly.pure _)
  split
  · exact (NoFault.throw_bind not_isTrap_invalidGrow).faultKeeps
  refine FaultKeeps.bind_readOnly (ReadOnly.pure _) fun _ => ?_
  split
  · exact faultKeeps_notifyLimiter _ _
  split
  · exact faultKeeps_notifyLimiter _ _
  refine FaultKeeps.bind_readOnly ReadOnly.get fun s₁ => ?_
  split
  · exact faultKeeps_notifyLimiter _ _
  -- the fuel has been paid: what follows does not trap
  refine NoFault.faultKeeps ((NoFault.modify _).bind fun _ => ?_)
  split
  · exact NoFault.throw not_isTrap_panic
  · exact (NoFault.modify _).bind fun _ => NoFault.pure _

/-- Without a limiter the growth of a table does not trap. -/
lemma noFault_growTable (delta : Nat) (init : UntypedVal) : NoFault EntityGrowError.IsTrap
    (TableEntity.growUntyped none delta init : GrowM TableEntity T Nat) := by
  have hgrow : ∀ (entity : TableEntity) (size : Nat), NoFault EntityGrowError.IsTrap (do
      modify fun s => { s with entity }
      return size : GrowM TableEntity T Nat) :=
    fun _ _ => (NoFault.modify _).bind fun _ => NoFault.pure _
  unfold TableEntity.growUntyped
  refine NoFault.get.bind fun s => (NoFault.pure ()).bind fun _ => ?_
  dsimp only
  split
  · exact noFault_notifyLimiter _
  split
  · exact noFault_notifyLimiter _
  refine NoFault.get.bind fun s₁ => ?_
  split
  · exact NoFault.throw_bind not_isTrap_invalidGrow
  · exact (NoFault.modify _).bind fun _ => hgrow _ _
  · exact (NoFault.pure ()).bind fun _ => hgrow _ _

/-- A growth operation leaves the state as it was where its trap does so. -/
lemma faultKeeps_growOp {E : Type} {entity : E} {grow : GrowM E T Nat} {put : E → LocalM T Unit}
    {onSuccess : LocalM T Unit} (hgrow : FaultKeeps EntityGrowError.IsTrap id grow)
    (hput : ∀ entity, Writes (put entity)) (honSuccess : Writes onSuccess) :
    FaultKeeps Stop.IsFault id (growOp entity grow put onSuccess) := by
  intro l stop l' h hstop
  rw [growOp, get_bind] at h
  cases hgrown : grow ⟨entity, l.store.fuel, l.store.data⟩ with
  | ok value s =>
    rw [hgrown] at h
    -- no error of the source is raised once the entity has grown
    have hrest : ∀ store : Store T → Store T, NoFault Stop.IsFault (do
        modifyStore store
        onSuccess
        return BitVec.ofNat 32 value : LocalM T (BitVec 32)) := fun _ =>
      (NoFault.modify _).bind fun _ => honSuccess.noFault.bind fun _ => NoFault.pure _
    exact absurd hstop ((hput s.entity).noFault.bind (fun _ => hrest _) _ _ _ h)
  | error error s =>
    rw [hgrown] at h
    rcases bind_eq_error.mp h with h | ⟨_, l₁, hstore, h⟩
    · cases h
    cases error with
    | invalidGrow => cases h
    | trapCode code =>
      cases h
      cases hstore
      obtain rfl : s = _ := hgrow _ _ _ hgrown ⟨code, rfl⟩
      rfl
    | panic =>
      cases h
      exact absurd hstop not_isFault_panic

lemma faultKeeps_executeTableGrow (hlimiter : env.limiter = none) (result : Reg) (delta : Operand)
    (value : Reg) : FaultKeeps Stop.IsFault id (executeTableGrow env result delta value) := by
  unfold executeTableGrow
  refine FaultKeeps.bind_readOnly (readOnly_operand _) fun delta => ?_
  refine FaultKeeps.bind_readOnly (readOnly_fetchTableIndex 1) fun tableIndex => ?_
  split
  · exact ((writes_executeTableSizeImpl _ _).bind fun _ => writes_nextInstrAt 2).noFault.faultKeeps
  · refine FaultKeeps.bind_readOnly (readOnly_getEntity _ _) fun table => ?_
    refine FaultKeeps.bind_readOnly (readOnly_getRegister _) fun value => ?_
    refine FaultKeeps.bind_readOnly (readOnly_resolve _ _) fun entity => ?_
    refine FaultKeeps.bind_noFault ?_ fun _ => (writes_result _ _ 2).noFault
    rw [hlimiter]
    exact faultKeeps_growOp (noFault_growTable _ _).faultKeeps (writes_setTable _) (Writes.pure _)

lemma faultKeeps_executeMemoryGrow (hlimiter : env.limiter = none) (result : Reg)
    (delta : DeltaOperand) : FaultKeeps Stop.IsFault id (executeMemoryGrow env result delta) := by
  unfold executeMemoryGrow
  refine FaultKeeps.bind_readOnly (readOnly_deltaOperand _) fun delta => ?_
  refine FaultKeeps.bind_readOnly (readOnly_fetchMemoryIndex 1) fun memory => ?_
  split
  · exact ((writes_executeMemorySizeImpl _ _).bind fun _ => writes_nextInstrAt 2).noFault.faultKeeps
  · refine FaultKeeps.bind_readOnly (readOnly_getEntity _ _) fun memory => ?_
    refine FaultKeeps.bind_readOnly (readOnly_resolve _ _) fun entity => ?_
    refine FaultKeeps.bind_noFault ?_ fun _ => (writes_result _ _ 2).noFault
    rw [hlimiter]
    exact faultKeeps_growOp (faultKeeps_growMemory _) (writes_setMemory _) writes_updateMemory

/-- An instruction that neither calls nor returns, on the local state. -/
theorem inPlace_executeLocal {op : Op} {l : Local T} (hop : LocalInPlace env l.ip op) :
    FaultKeepsAt Stop.IsFault l (executeLocal env op) := by
  cases hchecks : checksFirst op with
  | true => exact (atomic_executeLocal hchecks).faultKeeps.keepsAt l
  | false =>
    cases op <;> try contradiction
    case loadAt => exact inPlace_executeLoadAt hop
    case storeAt => exact inPlace_executeStoreAt (readOnly_getRegister _) hop
    case storeAtImm => exact inPlace_executeStoreAt (ReadOnly.pure _) hop
    case tableGrow => exact (faultKeeps_executeTableGrow hop _ _ _).keepsAt l
    case memoryGrow => exact (faultKeeps_executeMemoryGrow hop _ _).keepsAt l

lemma noFault_executeBranchTableMany (index : Reg) (lenTargets : Nat) :
    NoFault Stop.IsFault (executeBranchTableMany env index lenTargets) := by
  have hlocal : ∀ {α : Type} {x : LocalM T α}, Writes x → NoFault Stop.IsFault (stepLocal x) :=
    fun hx => noFault_stepLocal hx.noFault
  have hskip : ∀ ip, Writes (skipRegisterList env ip) :=
    fun ip => (Writes.assume _).bind fun _ => Writes.pure _
  refine (hlocal (writes_fetchBranchTableOffset _ _)).bind fun offset => ?_
  refine (hlocal writes_nextInstr).bind fun _ => NoFault.get.bind fun m => ?_
  refine (hlocal ((hskip _).bind fun _ => ?_)).bind fun _ => ?_
  · exact Writes.modify fun _ => rfl
  refine (hlocal (Writes.get.bind fun _ => writes_getInstr _)).bind fun target => ?_
  split
  · exact hlocal ((writes_executeCopyManyImpl _ _ _).bind fun _ => writes_branchTo _)
  · exact hlocal ((writes_executeCopyManyNonOverlappingImpl _ _ _).bind fun _ => writes_branchTo _)
  · exact noFault_copyManyReturnValues _ _
  · exact NoFault.throw not_isFault_undefined

/-- An instruction that neither calls nor returns. -/
theorem inPlace_executeOther {op : Op} {m : Machine T} (hop : LocalInPlace env m.ip op) :
    FaultKeepsAt Stop.IsFault m (executeOther env op) := by
  unfold executeOther
  split
  · exact (noFault_executeBranchTableMany _ _).faultKeeps.keepsAt m
  · intro stop m' h hstop
    obtain ⟨l, hexec, rfl⟩ := stepLocal_eq_error.mp h
    rw [inPlace_executeLocal (l := m.toLocal) hop stop l hexec hstop, Machine.withLocal_toLocal]

/-! ## Calls -/

/-- The callees that a call instruction enters or refuses as a whole: it finds out that a compiled
function has no room before it moves, or not at all; a host function has no room on the value
stack. -/
def CallInPlace (env : Engine T) (m : Machine T) (nested : Bool) : Callee → Prop
  | .compiled .. => nested = true → m.stack.calls.frames.length ≠ m.stack.calls.recursionLimit
  | .host _ entity => nested = true ∧ env.callHook = none ∧
    max entity.lenParams entity.lenResults ≥
      m.stack.values.maxLen - m.stack.values.values.length

/-- A call instruction that leaves the machine as it was where it fails: the word that names its
callee is its own one, and the callee is entered or refused as a whole. -/
def SiteInPlace (env : Engine T) (m : Machine T) (site : CallSite) : Prop :=
  (∀ funcType imm16, site.target ≠ .indirect funcType imm16) ∧
    ∀ target, callee env site m = some target → CallInPlace env m site.results.isSome target

lemma readOnly_getFunc (func : Nat) : ReadOnly (getFunc func : LocalM T Nat) :=
  readOnly_getEntity _ _

lemma readOnly_stepLocal {x : LocalM T α} (hx : ReadOnly x) : ReadOnly (stepLocal x) := by
  intro m
  cases h : stepLocal x m with
  | ok a m' =>
    exact ((stepLocal_eq_ok_of_readOnly hx).mp h).2.symm
  | error stop m' =>
    obtain ⟨l, hfail, rfl⟩ := stepLocal_eq_error.mp h
    rw [hx.of_error hfail]
    exact m.withLocal_toLocal

/-- A direct call finds its callee without moving the instruction pointer. -/
lemma readOnly_resolveSite {site : CallSite}
    (hdirect : ∀ funcType imm16, site.target ≠ .indirect funcType imm16) :
    ReadOnly (resolveSite env site) := by
  unfold resolveSite
  split
  · exact (readOnly_resultRegs _).bind fun _ => ReadOnly.pure _
  · refine (readOnly_stepLocal (readOnly_getFunc _)).bind fun func => ?_
    refine (readOnly_resultRegs _).bind fun results => ?_
    exact (readOnly_resolveFunc _).bind fun _ => ReadOnly.pure _
  · rename_i funcType imm16 htarget
    exact absurd htarget (hdirect funcType imm16)

lemma noFault_passParams (hasParams : Bool) (offsets : StackOffsets) :
    NoFault Stop.IsFault (passParams env hasParams offsets) := by
  unfold passParams
  split
  · refine (noFault_stepLocal ?_).bind fun params => NoFault.get.bind fun m => ?_
    · refine noFault_nextInstr.bind fun _ => NoFault.get.bind fun l => ?_
      refine ((noFault_assume _).bind fun _ => NoFault.pure _).bind fun regs => ?_
      exact (NoFault.modify _).bind fun _ => NoFault.mapM noFault_getRegister _
    · exact (noFault_assume _).bind fun _ => NoFault.modify _
  · exact NoFault.pure _

/-- The frame of a compiled function is allocated before anything moves. -/
lemma faultKeeps_dispatchCompiledFunc (c : CallContext) (results : RegSpan) (func : EngineFunc) :
    FaultKeeps Stop.IsFault id (dispatchCompiledFunc env c results func) := by
  rw [dispatchCompiledFunc_eq]
  refine FaultKeeps.bind_readOnly ReadOnly.get fun m => ?_
  refine FaultKeeps.bind_readOnly (readOnly_unwrap _) fun _ => ?_
  refine FaultKeeps.bind_readOnly ReadOnly.get fun m => ?_
  refine FaultKeeps.bind_noFault (readOnly_liftTrap _).faultKeeps fun ⟨values, offsets⟩ => ?_
  refine (NoFault.modify _).bind fun _ => (noFault_passParams _ _).bind fun _ => ?_
  exact NoFault.pure _

/-- Entering a compiled function, where the call stack is within its limit. -/
lemma inPlace_prepareCompiledFuncCall {c : CallContext} {results : RegSpan} {func : EngineFunc}
    {inst : Option Nat} {m : Machine T}
    (hlimit : m.stack.calls.frames.length ≤ m.stack.calls.recursionLimit)
    (hroom : c.kind = .nested → m.stack.calls.frames.length ≠ m.stack.calls.recursionLimit) :
    FaultKeepsAt Stop.IsFault m (prepareCompiledFuncCall env c results func inst) := by
  intro stop m' h hstop
  have hdispatch : dispatchCompiledFunc env c results func m = .error stop m' := by
    obtain ⟨kind, hasParams⟩ := c
    cases kind with
    | nested => exact nestedCall_fault (hroom rfl) h hstop
    | tail => exact tailCall_fault hlimit h hstop
  exact faultKeeps_dispatchCompiledFunc _ _ _ _ _ _ hdispatch hstop

/-- Running a host function that has no room on the value stack. -/
lemma inPlace_executeHostFunc {hasParams : Bool} {results : RegSpan} {func : Nat}
    {entity : HostFuncEntity} {m : Machine T}
    (hfull : max entity.lenParams entity.lenResults ≥
      m.stack.values.maxLen - m.stack.values.values.length) :
    FaultKeepsAt Stop.IsFault m (executeHostFunc env ⟨.nested, hasParams⟩ results func entity) := by
  have hcaller : ReadOnly (hostCaller .nested : ExecM T Unit) :=
    ReadOnly.get.bind fun _ => (readOnly_unwrap _).bind fun _ => ReadOnly.pure _
  rw [executeHostFunc_eq]
  refine FaultKeepsAt.after ReadOnly.get fun m₁ _ => ?_
  refine FaultKeepsAt.after (readOnly_unwrap _) fun inst _ => ?_
  refine FaultKeepsAt.after hcaller fun _ _ => ?_
  refine FaultKeepsAt.after ReadOnly.get fun m₂ hm₂ => ?_
  refine FaultKeepsAt.after ReadOnly.get fun m₃ hm₃ => ?_
  cases hm₃
  refine FaultKeepsAt.after (readOnly_liftTrap _) fun values hvalues => ?_
  -- the buffer does not fit: there is no state in which the call goes on
  rw [liftTrap_eq_ok, ValueStack.extendBy, if_pos hfull] at hvalues
  cases hvalues.1

/-- Entering a compiled function or running a host function. -/
lemma inPlace_executeCallee {c : CallContext} {results : RegSpan} {target : Callee} {m : Machine T}
    (hlimit : m.stack.calls.frames.length ≤ m.stack.calls.recursionLimit)
    (hcall : CallInPlace env m (decide (c.kind = .nested)) target) :
    FaultKeepsAt Stop.IsFault m (executeCallee env c results target) := by
  cases target with
  | compiled body inst =>
    refine FaultKeepsAt.bind_noFault ?_ fun _ => ?_
    · exact inPlace_prepareCompiledFuncCall hlimit fun hkind => hcall (decide_eq_true hkind)
    · cases inst with
      | none => exact NoFault.pure _
      | some inst => exact noFault_updateCache inst
  | host func entity =>
    obtain ⟨hkind, hhook, hfull⟩ := hcall
    obtain ⟨kind, hasParams⟩ := c
    obtain rfl : kind = .nested := of_decide_eq_true hkind
    have hnohook : ∀ callType, invokeCallHook env callType = (pure () : ExecM T Unit) := by
      intro callType
      simp [invokeCallHook, hhook]
    rw [executeCallee, hnohook, pure_bind, hnohook]
    exact (inPlace_executeHostFunc hfull).bind_noFault fun _ => NoFault.pure _

/-- A call instruction. -/
theorem inPlace_executeSite {site : CallSite} {m : Machine T} (hlimit : InLimit m)
    (hsite : SiteInPlace env m site) : FaultKeepsAt Stop.IsFault m (executeSite env site) := by
  obtain ⟨hdirect, hcallee⟩ := hsite
  refine FaultKeepsAt.after (readOnly_resolveSite hdirect) ?_
  rintro ⟨results, target, pulled⟩ hresolve
  have htarget : callee env site m = some target := by
    simp [callee, resolved, hresolve]
  refine FaultKeepsAt.bind_noFault ?_ fun _ => NoFault.pure _
  refine inPlace_executeCallee ?_ ?_
  · simpa [InLimit, skeleton, funcs, CallStack.length_funcs] using hlimit
  · have hkind : decide (site.context.kind = .nested) = site.results.isSome := by
      cases hresults : site.results <;> simp [CallSite.context, hresults]
    rw [hkind]
    exact hcallee target htarget

/-! ## All instructions -/

/-- The next instruction, if it fails, leaves the machine as it was. -/
def FailsInPlace (env : Engine T) (m : Machine T) : Prop :=
  ∀ instr, env.instrAt m.ip = some instr →
    match instr.op.callSite with
    | some site => SiteInPlace env m site
    | none => LocalInPlace env m.ip instr.op

theorem inPlace_executeInstr {importFuncLen : Nat} {instr : Instruction} {m : Machine T}
    (hlimit : InLimit m) (hplace : FailsInPlace env m) (hinstr : env.instrAt m.ip = some instr) :
    FaultKeepsAt Stop.IsFault m (executeInstr env importFuncLen instr.op) := by
  have hplace := hplace instr hinstr
  cases hcall : instr.op.callSite with
  | some site =>
    rw [hcall] at hplace
    rw [executeInstr_callSite hcall]
    exact (inPlace_executeSite hlimit hplace).bind_noFault fun _ => NoFault.pure _
  | none =>
    rw [hcall] at hplace
    cases hreturn : instr.op.isReturn with
    | true =>
      rw [executeInstr_return hreturn]
      intro stop m' h hstop
      rw [forwardReturnDbg_eq_error] at h
      exact absurd hstop (noFault_executeReturn _ _ _ _ h.2)
    | false =>
      rw [executeInstr_other hcall hreturn]
      exact (inPlace_executeOther hplace).bind_noFault fun _ => NoFault.pure _

end Executor

end MotokoDebugger
