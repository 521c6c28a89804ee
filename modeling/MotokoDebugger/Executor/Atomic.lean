import MotokoDebugger.Executor.CallParts

/-!
# Faults of local instructions

Most instructions that neither call nor return check everything before they change anything.

* `Writes x`: `x` raises no error of the source and keeps the functions of the store.
* `Atomic x`: an error of the source that `x` raises has changed nothing.
* `atomic_executeLocal`: every such instruction is atomic but those that move the instruction
  pointer first, and those that grow a table or a memory.
-/

namespace MotokoDebugger

namespace Executor

open StateExcept

variable {T : Type} {α β : Type}

/-- No outcome changes the functions of the store. -/
abbrev KeepsFuncs (x : LocalM T α) : Prop := Keeps (fun l => l.store.funcs) x

/-- A step that cannot fail with an error of the source. -/
structure Writes (x : LocalM T α) : Prop where
  noFault : NoFault Stop.IsFault x
  funcs : KeepsFuncs x

/-- A step whose errors of the source leave the local state as it was. -/
structure Atomic (x : LocalM T α) : Prop where
  faultKeeps : FaultKeeps Stop.IsFault id x
  funcs : KeepsFuncs x

/-! ## Rules -/

namespace Writes

lemma pure (a : α) : Writes (pure a : LocalM T α) := ⟨NoFault.pure a, Keeps.pure a⟩

lemma undefined : Writes (throw .undefined : LocalM T α) :=
  ⟨NoFault.throw not_isFault_undefined, Keeps.throw _⟩

lemma get : Writes (get : LocalM T (Local T)) := ⟨NoFault.get, Keeps.get⟩

lemma modify {f : Local T → Local T} (h : ∀ l, (f l).store.funcs = l.store.funcs) :
    Writes (modify f : LocalM T Unit) := ⟨NoFault.modify f, Keeps.modify h⟩

lemma bind {x : LocalM T α} {f : α → LocalM T β} (hx : Writes x) (hf : ∀ a, Writes (f a)) :
    Writes (x >>= f) :=
  ⟨hx.noFault.bind fun a => (hf a).noFault, hx.funcs.bind fun a => (hf a).funcs⟩

lemma map {x : LocalM T α} (hx : Writes x) (f : α → β) : Writes (f <$> x) := by
  rw [map_eq_pure_bind]
  exact hx.bind fun _ => pure _

lemma ite {c : Prop} [Decidable c] {x y : LocalM T α} (hx : Writes x) (hy : Writes y) :
    Writes (if c then x else y) := by
  split
  · exact hx
  · exact hy

lemma mapM {f : α → LocalM T β} (hf : ∀ a, Writes (f a)) (l : List α) : Writes (l.mapM f) := by
  induction l with
  | nil => exact pure _
  | cons a l ih =>
    rw [List.mapM_cons]
    exact (hf a).bind fun _ => ih.bind fun _ => pure _

lemma forM {f : α → LocalM T Unit} (hf : ∀ a, Writes (f a)) (l : List α) : Writes (l.forM f) := by
  induction l with
  | nil => exact pure _
  | cons a l ih => exact (hf a).bind fun _ => ih

lemma unwrap (x : Option α) : Writes (unwrap x : LocalM T α) :=
  ⟨noFault_unwrap x, (readOnly_unwrap x).keeps⟩

lemma assume (x : Option α) : Writes (assume x : LocalM T α) :=
  ⟨noFault_assume x, (readOnly_assume x).keeps⟩

lemma atomic {x : LocalM T α} (hx : Writes x) : Atomic x := ⟨hx.noFault.faultKeeps, hx.funcs⟩

end Writes

namespace Atomic

lemma ofReadOnly {x : LocalM T α} (hx : ReadOnly x) : Atomic x := ⟨hx.faultKeeps, hx.keeps⟩

/-- Checks before an atomic step. -/
lemma after {x : LocalM T α} {f : α → LocalM T β} (hx : ReadOnly x) (hf : ∀ a, Atomic (f a)) :
    Atomic (x >>= f) :=
  ⟨FaultKeeps.bind_readOnly hx fun a => (hf a).faultKeeps,
    hx.keeps.bind fun a => (hf a).funcs⟩

/-- Changes behind an atomic step. -/
lemma before {x : LocalM T α} {f : α → LocalM T β} (hx : Atomic x) (hf : ∀ a, Writes (f a)) :
    Atomic (x >>= f) :=
  ⟨hx.faultKeeps.bind_noFault fun a => (hf a).noFault, hx.funcs.bind fun a => (hf a).funcs⟩

lemma ite {c : Prop} [Decidable c] {x y : LocalM T α} (hx : Atomic x) (hy : Atomic y) :
    Atomic (if c then x else y) := by
  split
  · exact hx
  · exact hy

end Atomic

/-! ## Registers and instruction words -/

section Local

variable {env : Engine T}

lemma writes_getRegister (reg : Reg) : Writes (getRegister reg : LocalM T UntypedVal) :=
  Writes.get.bind fun _ => Writes.assume _

lemma writes_setRegister (reg : Reg) (value : UntypedVal) :
    Writes (setRegister reg value : LocalM T Unit) := by
  rw [setRegister_eq]
  exact Writes.get.bind fun _ => (Writes.assume _).bind fun _ => Writes.modify fun _ => rfl

lemma writes_nextInstrAt (skip : Nat) : Writes (nextInstrAt skip : LocalM T Unit) :=
  Writes.modify fun _ => rfl

lemma writes_nextInstr : Writes (nextInstr : LocalM T Unit) := writes_nextInstrAt 1

/-- The end of most instructions: one result, then the next instruction. -/
lemma writes_result (reg : Reg) (value : UntypedVal) (skip : Nat) :
    Writes (do setRegister reg value; nextInstrAt skip : LocalM T Unit) :=
  (writes_setRegister reg value).bind fun _ => writes_nextInstrAt skip

lemma writes_getInstr (ip : InstructionPtr) : Writes (getInstr env ip) := Writes.assume _

lemma writes_fetchParam (offset : Nat) : Writes (fetchParam env offset) :=
  Writes.get.bind fun _ => writes_getInstr _

lemma writes_getEntity (space : InstanceEntity → List Nat) (index : Nat) :
    Writes (getEntity space index : LocalM T Nat) :=
  Writes.get.bind fun _ => (Writes.assume _).bind fun _ => Writes.assume _

lemma writes_resolve (arena : Store T → List α) (index : Nat) :
    Writes (resolve arena index : LocalM T α) := Writes.get.bind fun _ => Writes.unwrap _

lemma writes_modifyStore {f : Store T → Store T} (h : ∀ store, (f store).funcs = store.funcs) :
    Writes (modifyStore f : LocalM T Unit) := Writes.modify fun l => h l.store

lemma writes_spanRegs (span : RegSpan) (len : Nat) :
    Writes (spanRegs span len : LocalM T (List Reg)) := Writes.unwrap _

lemma writes_setRegisters (regs : List Reg) (values : List UntypedVal) :
    Writes (setRegisters regs values : LocalM T Unit) :=
  Writes.forM (fun _ => writes_setRegister _ _) _

lemma writes_copyRegisters (results values : List Reg) :
    Writes (copyRegisters results values : LocalM T Unit) :=
  Writes.forM (fun _ => (writes_getRegister _).bind fun _ => writes_setRegister _ _) _

lemma writes_registerListAt (ip : InstructionPtr) : Writes (registerListAt env ip) :=
  (Writes.assume _).bind fun _ => Writes.pure _

lemma writes_getRegisters (regs : List Reg) :
    Writes (regs.mapM getRegister : LocalM T (List UntypedVal)) :=
  Writes.mapM writes_getRegister regs

/-! ## Numeric operators -/

lemma writes_executeUnary (result input : Reg) (op : UntypedVal → UntypedVal) :
    Writes (executeUnary result input op : LocalM T Unit) :=
  (writes_getRegister _).bind fun _ => writes_result _ _ 1

lemma atomic_tryExecuteUnary (result input : Reg)
    (op : UntypedVal → Except TrapCode UntypedVal) :
    Atomic (tryExecuteUnary result input op : LocalM T Unit) := by
  refine Atomic.after (readOnly_getRegister _) fun _ => ?_
  exact (Atomic.ofReadOnly (readOnly_liftTrap _)).before fun _ => writes_result _ _ 1

lemma writes_executeBinary (result lhs rhs : Reg)
    (op : UntypedVal → UntypedVal → UntypedVal) :
    Writes (executeBinary result lhs rhs op : LocalM T Unit) :=
  (writes_getRegister _).bind fun _ => (writes_getRegister _).bind fun _ => writes_result _ _ 1

lemma atomic_tryExecuteBinary (result lhs rhs : Reg)
    (op : UntypedVal → UntypedVal → Except TrapCode UntypedVal) :
    Atomic (tryExecuteBinary result lhs rhs op : LocalM T Unit) := by
  refine Atomic.after (readOnly_getRegister _) fun _ => ?_
  refine Atomic.after (readOnly_getRegister _) fun _ => ?_
  exact (Atomic.ofReadOnly (readOnly_liftTrap _)).before fun _ => writes_result _ _ 1

lemma atomic_executeTrap (trapCode : TrapCode) : Atomic (executeTrap trapCode : LocalM T Unit) :=
  Atomic.ofReadOnly (ReadOnly.throw _)

lemma writes_setFuel (fuel : Fuel) : Writes (setFuel fuel : LocalM T Unit) :=
  writes_modifyStore fun _ => rfl

lemma atomic_executeConsumeFuel (blockFuel : Nat) :
    Atomic (executeConsumeFuel blockFuel : LocalM T Unit) := by
  refine Atomic.after ReadOnly.get fun l => ?_
  refine (Atomic.ofReadOnly (readOnly_liftTrap _)).before fun fuel => ?_
  exact (writes_setFuel fuel).bind fun _ => writes_nextInstr

lemma writes_executeRefFunc (result : Reg) (funcIndex : Nat) :
    Writes (executeRefFunc result funcIndex : LocalM T Unit) :=
  (writes_getEntity _ _).bind fun _ => writes_result _ _ 1

/-! ## Copies and selects -/

lemma writes_executeCopy (result value : Reg) : Writes (executeCopy result value : LocalM T Unit) :=
  (writes_getRegister _).bind fun _ => writes_result _ _ 1

lemma writes_executeCopy2 (results : RegSpan) (value0 value1 : Reg) :
    Writes (executeCopy2 results value0 value1 : LocalM T Unit) := by
  refine (writes_getRegister _).bind fun _ => (writes_getRegister _).bind fun _ => ?_
  exact (writes_setRegister _ _).bind fun _ => writes_result _ _ 1

lemma writes_executeCopySpanImpl (results values : RegSpan) (len : Nat) :
    Writes (executeCopySpanImpl results values len : LocalM T Unit) := by
  refine (writes_spanRegs _ _).bind fun _ => (writes_spanRegs _ _).bind fun _ => ?_
  exact (writes_getRegisters _).bind fun _ => writes_setRegisters _ _

lemma writes_executeCopySpanNonOverlappingImpl (results values : RegSpan) (len : Nat) :
    Writes (executeCopySpanNonOverlappingImpl results values len : LocalM T Unit) := by
  refine (writes_spanRegs _ _).bind fun _ => (writes_spanRegs _ _).bind fun _ => ?_
  exact writes_copyRegisters _ _

lemma writes_executeCopyManyImpl (ip : InstructionPtr) (results : RegSpan) (values : List Reg) :
    Writes (executeCopyManyImpl env ip results values) := by
  refine (writes_registerListAt _).bind fun _ => (writes_getRegisters _).bind fun _ => ?_
  refine (writes_spanRegs _ _).bind fun _ => (writes_setRegisters _ _).bind fun _ => ?_
  exact Writes.pure _

lemma writes_executeCopyManyNonOverlappingImpl (ip : InstructionPtr) (results : RegSpan)
    (values : List Reg) : Writes (executeCopyManyNonOverlappingImpl env ip results values) :=
  (writes_registerListAt _).bind fun _ => (writes_copyRegisters _ _).bind fun _ => Writes.pure _

lemma writes_executeCopyMany (results : RegSpan) (value0 value1 : Reg)
    {copy : Engine T → InstructionPtr → RegSpan → List Reg → LocalM T InstructionPtr}
    (hcopy : ∀ ip results values, Writes (copy env ip results values)) :
    Writes (executeCopyMany env results value0 value1 copy) := by
  refine writes_nextInstr.bind fun _ => Writes.get.bind fun _ => (hcopy _ _ _).bind fun ip => ?_
  refine Writes.bind ?_ fun _ => writes_nextInstr
  exact Writes.modify fun _ => rfl

lemma writes_executeSelectImpl (result condition : Reg) {lhs rhs : LocalM T UntypedVal}
    (hlhs : Writes lhs) (hrhs : Writes rhs) :
    Writes (executeSelectImpl result condition lhs rhs) := by
  refine (writes_getRegister _).bind fun condition => ?_
  exact Writes.ite (hlhs.bind fun _ => writes_result _ _ 2) (hrhs.bind fun _ => writes_result _ _ 2)

lemma writes_executeSelectRhsReg (result : Reg) {lhs : LocalM T UntypedVal} (hlhs : Writes lhs) :
    Writes (executeSelectRhsReg env result lhs) := by
  refine Writes.bind ?_ fun _ => writes_executeSelectImpl _ _ hlhs (writes_getRegister _)
  refine (writes_fetchParam 1).bind fun word => ?_
  split
  · exact Writes.pure _
  · exact Writes.undefined

lemma writes_fetchRegisterAndImm32 : Writes (fetchRegisterAndImm32 env) := by
  refine (writes_fetchParam 1).bind fun word => ?_
  split
  · exact Writes.pure _
  · exact Writes.undefined

lemma writes_executeSelectRhsImm (result : Reg) {lhs : LocalM T UntypedVal} (hlhs : Writes lhs)
    (rhsOf : AnyConst32 → UntypedVal) : Writes (executeSelectRhsImm env result lhs rhsOf) :=
  writes_fetchRegisterAndImm32.bind fun _ => writes_executeSelectImpl _ _ hlhs (Writes.pure _)

/-! ## Branches -/

lemma writes_branchTo (offset : Int) : Writes (branchTo offset : LocalM T Unit) :=
  Writes.modify fun _ => rfl

lemma writes_getRegisterU32 (reg : Reg) : Writes (getRegisterU32 reg : LocalM T Nat) :=
  (writes_getRegister reg).bind fun _ => Writes.pure _

lemma writes_fetchBranchTableOffset (index : Reg) (lenTargets : Nat) :
    Writes (fetchBranchTableOffset index lenTargets : LocalM T Nat) :=
  (writes_getRegisterU32 _).bind fun _ => Writes.pure _

lemma writes_executeBranchTable0 (index : Reg) (lenTargets : Nat) :
    Writes (executeBranchTable0 index lenTargets : LocalM T Unit) :=
  (writes_fetchBranchTableOffset _ _).bind fun _ => writes_nextInstrAt _

lemma writes_branchTableResult (value : UntypedVal) : Writes (branchTableResult env value) := by
  refine Writes.get.bind fun l => (writes_getInstr _).bind fun target => ?_
  split
  · exact (writes_setRegister _ _).bind fun _ => writes_branchTo _
  · exact Writes.pure _

lemma writes_executeBranchTable1 (index : Reg) (lenTargets : Nat) :
    Writes (executeBranchTable1 env index lenTargets) := by
  refine (writes_fetchBranchTableOffset _ _).bind fun offset => writes_nextInstr.bind fun _ => ?_
  refine Writes.get.bind fun l => (writes_getInstr _).bind fun word => ?_
  have hjump : ∀ value : UntypedVal,
      Writes (nextInstrAt offset >>= fun _ => branchTableResult env value) :=
    fun value => (writes_nextInstrAt _).bind fun _ => writes_branchTableResult value
  dsimp only
  split
  · exact (writes_getRegister _).bind hjump
  · exact (Writes.pure _).bind hjump
  · exact (Writes.pure _).bind hjump
  · exact (Writes.pure _).bind hjump
  · exact Writes.undefined.bind hjump

lemma writes_branchTableTarget (regs : List Reg) : Writes (branchTableTarget env regs) := by
  refine Writes.get.bind fun l => (writes_getInstr _).bind fun target => ?_
  split
  · refine (writes_getRegisters _).bind fun _ => (writes_spanRegs _ _).bind fun _ => ?_
    exact (writes_setRegisters _ _).bind fun _ => writes_branchTo _
  · exact Writes.pure _

lemma writes_executeBranchTable2 (index : Reg) (lenTargets : Nat) :
    Writes (executeBranchTable2 env index lenTargets) := by
  refine (writes_fetchBranchTableOffset _ _).bind fun offset => writes_nextInstr.bind fun _ => ?_
  refine Writes.get.bind fun l => (writes_getInstr _).bind fun word => ?_
  split
  · exact (writes_nextInstrAt _).bind fun _ => writes_branchTableTarget _
  · exact Writes.undefined

lemma writes_executeBranchTable3 (index : Reg) (lenTargets : Nat) :
    Writes (executeBranchTable3 env index lenTargets) := by
  refine (writes_fetchBranchTableOffset _ _).bind fun offset => writes_nextInstr.bind fun _ => ?_
  refine Writes.get.bind fun l => (writes_getInstr _).bind fun word => ?_
  split
  · exact (writes_nextInstrAt _).bind fun _ => writes_branchTableTarget _
  · exact Writes.undefined

lemma writes_executeBranchTableSpan (index : Reg) (lenTargets : Nat) :
    Writes (executeBranchTableSpan env index lenTargets) := by
  refine (writes_fetchBranchTableOffset _ _).bind fun offset => writes_nextInstr.bind fun _ => ?_
  refine Writes.get.bind fun l => (writes_getInstr _).bind fun word => ?_
  split
  · refine (writes_nextInstrAt _).bind fun _ => Writes.get.bind fun l => ?_
    refine (writes_getInstr _).bind fun target => ?_
    split
    · exact (writes_executeCopySpanImpl _ _ _).bind fun _ => writes_branchTo _
    · exact (writes_executeCopySpanNonOverlappingImpl _ _ _).bind fun _ => writes_branchTo _
    · exact Writes.pure _
  · exact Writes.undefined

lemma writes_executeBranchBinop (lhs rhs : Reg) (offset : Int)
    (f : UntypedVal → UntypedVal → Bool) :
    Writes (executeBranchBinop lhs rhs offset f : LocalM T Unit) := by
  refine (writes_getRegister _).bind fun _ => (writes_getRegister _).bind fun _ => ?_
  exact Writes.ite (writes_branchTo _) writes_nextInstr

lemma writes_executeBranchBinopImm (lhs : Reg) (rhs : UntypedVal) (offset : Int)
    (f : UntypedVal → UntypedVal → Bool) :
    Writes (executeBranchBinopImm lhs rhs offset f : LocalM T Unit) :=
  (writes_getRegister _).bind fun _ => Writes.ite (writes_branchTo _) writes_nextInstr

lemma writes_executeBranchCmpFallback (lhs rhs params : Reg) :
    Writes (executeBranchCmpFallback env lhs rhs params) := by
  refine (writes_getRegister _).bind fun _ => (Writes.unwrap _).bind fun _ => ?_
  exact writes_executeBranchBinop _ _ _ _

/-! ## Globals -/

lemma writes_globalCell (global : Nat) : Writes (globalCell global : LocalM T Nat) := by
  unfold globalCell
  split
  · exact Writes.get.bind fun _ => Writes.assume _
  · exact writes_getEntity _ _

lemma writes_executeGlobalGet (result : Reg) (global : Nat) :
    Writes (executeGlobalGet result global : LocalM T Unit) := by
  refine (writes_globalCell _).bind fun _ => (writes_resolve _ _).bind fun _ => ?_
  exact writes_result _ _ 1

lemma writes_executeGlobalSetImpl (global : Nat) (newValue : UntypedVal) :
    Writes (executeGlobalSetImpl global newValue : LocalM T Unit) := by
  refine (writes_globalCell _).bind fun _ => (writes_resolve _ _).bind fun _ => ?_
  refine Writes.bind ?_ fun _ => writes_nextInstr
  exact writes_modifyStore fun _ => rfl

/-! ## Loads and stores -/

lemma readOnly_fetchParam (offset : Nat) : ReadOnly (fetchParam env offset) :=
  ReadOnly.get.bind fun _ => readOnly_getInstr _ _

lemma readOnly_fetchRegisterAndImm32 : ReadOnly (fetchRegisterAndImm32 env) := by
  refine (readOnly_fetchParam 1).bind fun word => ?_
  split
  · exact ReadOnly.pure _
  · exact ReadOnly.throw _

lemma readOnly_fetchDefaultMemory :
    ReadOnly (fetchDefaultMemory : LocalM T (Option (Nat × MemoryEntity))) := by
  refine ReadOnly.get.bind fun l => ?_
  split
  · exact ReadOnly.pure _
  · refine ReadOnly.get.bind fun _ => (readOnly_assume _).bind fun memory => ?_
    split
    · exact ReadOnly.pure _
    · exact ReadOnly.throw _

lemma readOnly_fetchMemory (memory : Nat) :
    ReadOnly (fetchMemory memory : LocalM T (Option (Nat × MemoryEntity))) := by
  unfold fetchMemory
  split
  · exact readOnly_fetchDefaultMemory
  · refine (readOnly_getEntity _ _).bind fun memory => ?_
    exact (readOnly_resolve _ _).bind fun _ => ReadOnly.pure _

lemma atomic_executeLoadExtend (memory : Option (Nat × MemoryEntity)) (result : Reg)
    (address : UntypedVal) (offset : BitVec 32) (op : LoadOp) :
    Atomic (executeLoadExtend memory result address offset op : LocalM T Unit) :=
  (Atomic.ofReadOnly (readOnly_liftTrap _)).before fun _ => writes_setRegister _ _

lemma atomic_executeLoad (result : Reg) (memory : Nat) (op : LoadOp) :
    Atomic (executeLoad env result memory op) := by
  refine Atomic.after readOnly_fetchRegisterAndImm32 fun _ => ?_
  refine Atomic.after (readOnly_getRegister _) fun address => ?_
  refine Atomic.after (readOnly_fetchMemory _) fun memory => ?_
  exact (atomic_executeLoadExtend _ _ _ _ _).before fun _ => writes_nextInstrAt 2

lemma atomic_executeLoadOffset16 (result ptr : Reg) (offset : Const16) (op : LoadOp) :
    Atomic (executeLoadOffset16 result ptr offset op : LocalM T Unit) := by
  refine Atomic.after (readOnly_getRegister _) fun address => ?_
  refine Atomic.after readOnly_fetchDefaultMemory fun memory => ?_
  exact (atomic_executeLoadExtend _ _ _ _ _).before fun _ => writes_nextInstr

lemma writes_setMemory (index : Nat) (memory : MemoryEntity) :
    Writes (setMemory index memory : LocalM T Unit) := writes_modifyStore fun _ => rfl

lemma atomic_executeStoreWrap (memory : Option (Nat × MemoryEntity)) (address : UntypedVal)
    (offset : BitVec 32) (value : UntypedVal) (op : StoreOp) :
    Atomic (executeStoreWrap memory address offset value op : LocalM T Unit) := by
  refine (Atomic.ofReadOnly (readOnly_liftTrap _)).before fun bytes => ?_
  split
  · exact Writes.pure _
  · exact writes_setMemory _ _

lemma atomic_executeStore (ptr : Reg) (memory : Nat) (op : StoreOp) :
    Atomic (executeStore env ptr memory op) := by
  refine Atomic.after readOnly_fetchRegisterAndImm32 fun _ => ?_
  refine Atomic.after (readOnly_getRegister _) fun address => ?_
  refine Atomic.after (readOnly_getRegister _) fun value => ?_
  refine Atomic.after (readOnly_fetchMemory _) fun memory => ?_
  exact (atomic_executeStoreWrap _ _ _ _ _).before fun _ => writes_nextInstrAt 2

lemma atomic_executeStoreImm (ptr : Reg) (memory : Nat) (op : StoreImmOp) :
    Atomic (executeStoreImm env ptr memory op) := by
  have hfetch : ReadOnly (fetchValueAndOffsetImm env) := by
    refine (readOnly_fetchParam 1).bind fun word => ?_
    split
    · exact ReadOnly.pure _
    · exact ReadOnly.throw _
  refine Atomic.after hfetch fun _ => ?_
  refine Atomic.after (readOnly_getRegister _) fun address => ?_
  refine Atomic.after (readOnly_fetchMemory _) fun memory => ?_
  exact (atomic_executeStoreWrap _ _ _ _ _).before fun _ => writes_nextInstrAt 2

lemma atomic_executeStoreOffset16 (ptr : Reg) (offset : Const16) {value : LocalM T UntypedVal}
    (hvalue : ReadOnly value) (op : StoreOp) :
    Atomic (executeStoreOffset16 ptr offset value op) := by
  refine Atomic.after (readOnly_getRegister _) fun address => Atomic.after hvalue fun value => ?_
  refine Atomic.after readOnly_fetchDefaultMemory fun memory => ?_
  exact (atomic_executeStoreWrap _ _ _ _ _).before fun _ => writes_nextInstr

/-! ## Tables -/

lemma readOnly_operand (op : Operand) : ReadOnly (operand op : LocalM T Nat) := by
  unfold operand
  split
  · exact readOnly_getRegisterU32 _
  · exact ReadOnly.pure _

lemma readOnly_byteOperand (op : ByteOperand) : ReadOnly (byteOperand op : LocalM T Byte) := by
  unfold byteOperand
  split
  · exact (readOnly_getRegister _).bind fun _ => ReadOnly.pure _
  · exact ReadOnly.pure _

lemma readOnly_deltaOperand (op : DeltaOperand) :
    ReadOnly (deltaOperand op : LocalM T Nat) := by
  unfold deltaOperand
  split
  · exact readOnly_getRegisterU32 _
  · exact ReadOnly.pure _

lemma readOnly_fetchTableIndex (offset : Nat) : ReadOnly (fetchTableIndex env offset) := by
  refine (readOnly_fetchParam _).bind fun word => ?_
  split
  · exact ReadOnly.pure _
  · exact ReadOnly.throw _

lemma readOnly_fetchElementSegmentIndex (offset : Nat) :
    ReadOnly (fetchElementSegmentIndex env offset) := by
  refine (readOnly_fetchParam _).bind fun word => ?_
  split
  · exact ReadOnly.pure _
  · exact ReadOnly.throw _

lemma readOnly_fetchMemoryIndex (offset : Nat) : ReadOnly (fetchMemoryIndex env offset) := by
  refine (readOnly_fetchParam _).bind fun word => ?_
  split
  · exact ReadOnly.pure _
  · exact ReadOnly.throw _

lemma readOnly_fetchDataSegmentIndex (offset : Nat) :
    ReadOnly (fetchDataSegmentIndex env offset) := by
  refine (readOnly_fetchParam _).bind fun word => ?_
  split
  · exact ReadOnly.pure _
  · exact ReadOnly.throw _

lemma writes_setTable (index : Nat) (table : TableEntity) :
    Writes (setTable index table : LocalM T Unit) := writes_modifyStore fun _ => rfl

lemma atomic_executeTableGet (result : Reg) (index : IndexOperand) :
    Atomic (executeTableGet env result index) := by
  refine Atomic.after (readOnly_deltaOperand _) fun index => ?_
  refine Atomic.after (readOnly_fetchTableIndex 1) fun tableIndex => ?_
  refine Atomic.after (readOnly_getEntity _ _) fun table => ?_
  refine Atomic.after (readOnly_resolve _ _) fun table => ?_
  split
  · exact (writes_result _ _ 2).atomic
  · exact Atomic.ofReadOnly (ReadOnly.throw _)

lemma writes_executeTableSizeImpl (result : Reg) (tableIndex : Nat) :
    Writes (executeTableSizeImpl result tableIndex : LocalM T Unit) := by
  refine (writes_getEntity _ _).bind fun table => (writes_resolve _ _).bind fun table => ?_
  exact writes_setRegister _ _

lemma atomic_executeTableSet (index : IndexOperand) (value : Reg) :
    Atomic (executeTableSet env index value) := by
  refine Atomic.after (readOnly_deltaOperand _) fun index => ?_
  refine Atomic.after (readOnly_fetchTableIndex 1) fun tableIndex => ?_
  refine Atomic.after (readOnly_getEntity _ _) fun table => ?_
  refine Atomic.after (readOnly_getRegister _) fun value => ?_
  refine Atomic.after (readOnly_resolve _ _) fun entity => ?_
  refine (Atomic.ofReadOnly (readOnly_liftTrap _)).before fun entity => ?_
  exact (writes_setTable _ _).bind fun _ => writes_nextInstrAt 2

lemma atomic_tableOp (table : Nat)
    (op : TableEntity → Fuel → Except TrapCode (TableEntity × Fuel)) :
    Atomic (tableOp table op : LocalM T Unit) := by
  refine Atomic.after (readOnly_resolve _ _) fun entity => Atomic.after ReadOnly.get fun l => ?_
  refine (Atomic.ofReadOnly (readOnly_liftTrap _)).before fun _ => ?_
  exact (writes_setTable _ _).bind fun _ => writes_setFuel _

lemma atomic_executeTableCopy (dst src len : Operand) :
    Atomic (executeTableCopy env dst src len) := by
  refine Atomic.after (readOnly_operand _) fun dst => ?_
  refine Atomic.after (readOnly_operand _) fun src => ?_
  refine Atomic.after (readOnly_operand _) fun len => ?_
  refine Atomic.after (readOnly_fetchTableIndex 1) fun dstTableIndex => ?_
  refine Atomic.after (readOnly_fetchTableIndex 2) fun srcTableIndex => ?_
  dsimp only
  split
  · refine Atomic.after (readOnly_getEntity _ _) fun table => ?_
    exact (atomic_tableOp _ _).before fun _ => writes_nextInstrAt 3
  · refine Atomic.after (readOnly_getEntity _ _) fun dstTable => ?_
    refine Atomic.after (readOnly_getEntity _ _) fun srcTable => ?_
    split
    · exact Atomic.after (ReadOnly.throw _) fun _ => Atomic.after (readOnly_resolve _ _) fun _ =>
        (atomic_tableOp _ _).before fun _ => writes_nextInstrAt 3
    · refine Atomic.after (readOnly_resolve _ _) fun srcEntity => ?_
      exact (atomic_tableOp _ _).before fun _ => writes_nextInstrAt 3

lemma atomic_executeTableInit (dst src len : Operand) :
    Atomic (executeTableInit env dst src len) := by
  refine Atomic.after (readOnly_operand _) fun dst => ?_
  refine Atomic.after (readOnly_operand _) fun src => ?_
  refine Atomic.after (readOnly_operand _) fun len => ?_
  refine Atomic.after (readOnly_fetchTableIndex 1) fun tableIndex => ?_
  refine Atomic.after (readOnly_fetchElementSegmentIndex 2) fun elementIndex => ?_
  refine Atomic.after (readOnly_getEntity _ _) fun table => ?_
  refine Atomic.after (readOnly_getEntity _ _) fun element => ?_
  refine Atomic.after (readOnly_resolve _ _) fun element => ?_
  exact (atomic_tableOp _ _).before fun _ => writes_nextInstrAt 3

lemma atomic_executeTableFill (dst len : Operand) (value : Reg) :
    Atomic (executeTableFill env dst len value) := by
  refine Atomic.after (readOnly_operand _) fun dst => ?_
  refine Atomic.after (readOnly_operand _) fun len => ?_
  refine Atomic.after (readOnly_fetchTableIndex 1) fun tableIndex => ?_
  refine Atomic.after (readOnly_getRegister _) fun value => ?_
  refine Atomic.after (readOnly_getEntity _ _) fun table => ?_
  exact (atomic_tableOp _ _).before fun _ => writes_nextInstrAt 2

lemma writes_executeElementDrop (segmentIndex : Nat) :
    Writes (executeElementDrop segmentIndex : LocalM T Unit) := by
  refine (writes_getEntity _ _).bind fun segment => (writes_resolve _ _).bind fun entity => ?_
  refine Writes.bind ?_ fun _ => writes_nextInstr
  exact writes_modifyStore fun _ => rfl

/-! ## Memories -/

lemma writes_executeDataDrop (segmentIndex : Nat) :
    Writes (executeDataDrop segmentIndex : LocalM T Unit) := by
  refine (writes_getEntity _ _).bind fun segment => (writes_resolve _ _).bind fun entity => ?_
  refine Writes.bind ?_ fun _ => writes_nextInstr
  exact writes_modifyStore fun _ => rfl

lemma writes_executeMemorySizeImpl (result : Reg) (memory : Nat) :
    Writes (executeMemorySizeImpl result memory : LocalM T Unit) := by
  refine (writes_getEntity _ _).bind fun memory => (writes_resolve _ _).bind fun memory => ?_
  exact writes_setRegister _ _

lemma readOnly_bytesAt (bytes : List Byte) (start len : Nat) :
    ReadOnly (bytesAt bytes start len : LocalM T (List Byte)) := by
  unfold bytesAt
  split
  · exact ReadOnly.pure _
  · exact ReadOnly.throw _

lemma atomic_writeBytes (memory : Nat) (entity : MemoryEntity) (dst : Nat) (bytes : List Byte) :
    Atomic (writeBytes memory entity dst bytes : LocalM T Unit) := by
  refine Atomic.after ReadOnly.get fun l => ?_
  refine (Atomic.ofReadOnly (readOnly_liftTrap _)).before fun fuel => ?_
  exact (writes_setFuel _).bind fun _ => writes_setMemory _ _

/-- The end of a bulk memory operation: both ranges are checked, then the bytes are written. -/
lemma atomic_checkAndWrite (memory : Nat) (entity : MemoryEntity) (dst len skip : Nat)
    (source : LocalM T (List Byte)) (hsource : ReadOnly source) :
    Atomic (do
      let bytes ← source
      let _ ← bytesAt entity.bytes dst len
      writeBytes memory entity dst bytes
      nextInstrAt skip) := by
  refine Atomic.after hsource fun bytes => Atomic.after (readOnly_bytesAt _ _ _) fun _ => ?_
  exact (atomic_writeBytes _ _ _ _).before fun _ => writes_nextInstrAt _

lemma atomic_executeMemoryCopy (dst src len : Operand) :
    Atomic (executeMemoryCopy env dst src len) := by
  refine Atomic.after (readOnly_operand _) fun dst => ?_
  refine Atomic.after (readOnly_operand _) fun src => ?_
  refine Atomic.after (readOnly_operand _) fun len => ?_
  refine Atomic.after (readOnly_fetchMemoryIndex 1) fun dstMemory => ?_
  refine Atomic.after (readOnly_fetchMemoryIndex 2) fun srcMemory => ?_
  have hend : ∀ (memory : Nat) (srcEntity dstEntity : MemoryEntity), Atomic (do
      let srcBytes ← bytesAt srcEntity.bytes src len
      let _ ← bytesAt dstEntity.bytes dst len
      writeBytes memory dstEntity dst srcBytes
      nextInstrAt 3 : LocalM T Unit) :=
    fun memory _ _ => atomic_checkAndWrite memory _ dst len 3 _ (readOnly_bytesAt _ _ _)
  split
  · refine Atomic.after (readOnly_getEntity _ _) fun memory => ?_
    exact Atomic.after (readOnly_resolve _ _) fun entity => hend _ _ _
  · refine Atomic.after (readOnly_getEntity _ _) fun srcMemory => ?_
    refine Atomic.after (readOnly_getEntity _ _) fun dstMemory => ?_
    dsimp only
    split
    · exact Atomic.after (ReadOnly.throw _) fun _ => Atomic.after (readOnly_resolve _ _) fun _ =>
        Atomic.after (readOnly_resolve _ _) fun _ => hend _ _ _
    · refine Atomic.after (readOnly_resolve _ _) fun srcEntity => ?_
      exact Atomic.after (readOnly_resolve _ _) fun dstEntity => hend _ _ _

lemma atomic_executeMemoryFill (dst : Operand) (value : ByteOperand) (len : Operand) :
    Atomic (executeMemoryFill env dst value len) := by
  refine Atomic.after (readOnly_operand _) fun dst => ?_
  refine Atomic.after (readOnly_byteOperand _) fun value => ?_
  refine Atomic.after (readOnly_operand _) fun len => ?_
  refine Atomic.after (readOnly_fetchMemoryIndex 1) fun memory => ?_
  refine Atomic.after (readOnly_getEntity _ _) fun memory => ?_
  refine Atomic.after (readOnly_resolve _ _) fun entity => ?_
  exact atomic_checkAndWrite memory entity dst len 2 (pure (List.replicate len value))
    (ReadOnly.pure _)

lemma atomic_executeMemoryInit (dst src len : Operand) :
    Atomic (executeMemoryInit env dst src len) := by
  refine Atomic.after (readOnly_operand _) fun dst => ?_
  refine Atomic.after (readOnly_operand _) fun src => ?_
  refine Atomic.after (readOnly_operand _) fun len => ?_
  refine Atomic.after (readOnly_fetchMemoryIndex 1) fun memory => ?_
  refine Atomic.after (readOnly_fetchDataSegmentIndex 2) fun data => ?_
  refine Atomic.after (readOnly_getEntity _ _) fun memory => ?_
  refine Atomic.after (readOnly_getEntity _ _) fun data => ?_
  refine Atomic.after (readOnly_resolve _ _) fun data => ?_
  refine Atomic.after (readOnly_resolve _ _) fun entity => ?_
  refine Atomic.after (readOnly_bytesAt _ _ _) fun _ => ?_
  refine Atomic.after (readOnly_bytesAt _ _ _) fun srcBytes => ?_
  exact (atomic_writeBytes _ _ _ _).before fun _ => writes_nextInstrAt _

/-! ## The instructions that change something first -/

lemma writes_fetchOptionalMemory : Writes (fetchOptionalMemory env) := by
  refine (writes_fetchParam 1).bind fun word => ?_
  split
  · exact writes_nextInstr.bind fun _ => Writes.pure _
  · exact Writes.pure _

lemma keepsFuncs_executeLoadAt (result : Reg) (address : BitVec 32) (op : LoadOp) :
    KeepsFuncs (executeLoadAt env result address op) := by
  refine writes_fetchOptionalMemory.funcs.bind fun memory => ?_
  refine (readOnly_fetchMemory _).keeps.bind fun memory => ?_
  exact (atomic_executeLoadExtend _ _ _ _ _).funcs.bind fun _ => writes_nextInstr.funcs

lemma keepsFuncs_executeStoreAt (address : BitVec 32) {value : LocalM T UntypedVal}
    (hvalue : ReadOnly value) (op : StoreOp) :
    KeepsFuncs (executeStoreAt env address value op) := by
  refine writes_fetchOptionalMemory.funcs.bind fun memory => hvalue.keeps.bind fun value => ?_
  refine (readOnly_fetchMemory _).keeps.bind fun memory => ?_
  exact (atomic_executeStoreWrap _ _ _ _ _).funcs.bind fun _ => writes_nextInstr.funcs

lemma keepsFuncs_growOp {E : Type} (entity : E) (grow : GrowM E T Nat) {put : E → LocalM T Unit}
    {onSuccess : LocalM T Unit} (hput : ∀ entity, Writes (put entity))
    (honSuccess : Writes onSuccess) : KeepsFuncs (growOp entity grow put onSuccess) := by
  refine Keeps.get.bind fun l => ?_
  have hstate : ∀ fuel data, KeepsFuncs
      (modifyStore fun store => { store with fuel, data } : LocalM T Unit) :=
    fun fuel data => Keeps.modify fun _ => rfl
  dsimp only
  split
  · refine (hput _).funcs.bind fun _ => (hstate _ _).bind fun _ => ?_
    exact honSuccess.funcs.bind fun _ => Keeps.pure _
  · refine (hstate _ _).bind fun _ => ?_
    split
    · exact Keeps.pure _
    · exact Keeps.throw _
    · exact Keeps.throw _

lemma writes_updateMemory : Writes (updateMemory : LocalM T Unit) := by
  refine Writes.get.bind fun l => (Writes.assume _).bind fun _ => (Writes.unwrap _).bind fun _ => ?_
  exact Writes.modify fun _ => rfl

lemma keepsFuncs_executeTableGrow (result : Reg) (delta : Operand) (value : Reg) :
    KeepsFuncs (executeTableGrow env result delta value) := by
  refine (readOnly_operand _).keeps.bind fun delta => ?_
  refine (readOnly_fetchTableIndex 1).keeps.bind fun tableIndex => ?_
  split
  · exact ((writes_executeTableSizeImpl _ _).bind fun _ => writes_nextInstrAt 2).funcs
  · refine (readOnly_getEntity _ _).keeps.bind fun table => ?_
    refine (readOnly_getRegister _).keeps.bind fun value => ?_
    refine (readOnly_resolve _ _).keeps.bind fun entity => Keeps.bind ?_ fun _ => ?_
    · exact keepsFuncs_growOp _ _ (writes_setTable _) (Writes.pure _)
    · exact (writes_result _ _ 2).funcs

lemma keepsFuncs_executeMemoryGrow (result : Reg) (delta : DeltaOperand) :
    KeepsFuncs (executeMemoryGrow env result delta) := by
  refine (readOnly_deltaOperand _).keeps.bind fun delta => ?_
  refine (readOnly_fetchMemoryIndex 1).keeps.bind fun memory => ?_
  split
  · exact ((writes_executeMemorySizeImpl _ _).bind fun _ => writes_nextInstrAt 2).funcs
  · refine (readOnly_getEntity _ _).keeps.bind fun memory => ?_
    refine (readOnly_resolve _ _).keeps.bind fun entity => Keeps.bind ?_ fun _ => ?_
    · exact keepsFuncs_growOp _ _ (writes_setMemory _) writes_updateMemory
    · exact (writes_result _ _ 2).funcs

end Local

/-! ## All of them -/

/-- Does an instruction check everything before it changes anything? Those with an optional memory
word move onto it first; those that grow an entity consume fuel and ask the limiter first. -/
def checksFirst : Op → Bool
  | .loadAt .. | .storeAt .. | .storeAtImm .. | .tableGrow .. | .memoryGrow .. => false
  | _ => true

/-- An instruction that checks first changes nothing where it fails. -/
theorem atomic_executeLocal {env : Engine T} {op : Op} (hop : checksFirst op = true) :
    Atomic (executeLocal env op) := by
  have hreg := fun reg => writes_getRegister (T := T) reg
  have hpure := fun value : UntypedVal => Writes.pure (T := T) value
  unfold executeLocal
  split
  · exact atomic_executeTrap _
  · exact atomic_executeConsumeFuel _
  · exact (writes_branchTo _).atomic
  · exact (writes_executeBranchTable0 _ _).atomic
  · exact (writes_executeBranchTable1 _ _).atomic
  · exact (writes_executeBranchTable2 _ _).atomic
  · exact (writes_executeBranchTable3 _ _).atomic
  · exact (writes_executeBranchTableSpan _ _).atomic
  · exact (writes_executeBranchCmpFallback _ _ _).atomic
  · exact (writes_executeBranchBinop _ _ _ _).atomic
  · exact (writes_executeBranchBinopImm _ _ _ _).atomic
  · exact (writes_executeCopy _ _).atomic
  · exact (writes_executeCopy2 _ _ _).atomic
  · exact (writes_result _ _ 1).atomic
  · exact (writes_result _ _ 1).atomic
  · exact (writes_result _ _ 1).atomic
  · exact ((writes_executeCopySpanImpl _ _ _).bind fun _ => writes_nextInstr).atomic
  · exact ((writes_executeCopySpanNonOverlappingImpl _ _ _).bind fun _ => writes_nextInstr).atomic
  · exact (writes_executeCopyMany _ _ _ writes_executeCopyManyImpl).atomic
  · exact (writes_executeCopyMany _ _ _ writes_executeCopyManyNonOverlappingImpl).atomic
  · exact (writes_executeSelectRhsReg _ (hreg _)).atomic
  · exact (writes_executeSelectRhsImm _ (hreg _) _).atomic
  · exact (writes_executeSelectRhsReg _ (hpure _)).atomic
  · exact (writes_executeSelectRhsImm _ (hpure _) _).atomic
  · exact (writes_executeSelectRhsImm _ (hreg _) _).atomic
  · exact (writes_executeSelectRhsReg _ (hpure _)).atomic
  · exact (writes_executeSelectRhsImm _ (hpure _) _).atomic
  · exact (writes_executeSelectRhsImm _ (hreg _) _).atomic
  · exact (writes_executeSelectRhsReg _ (hpure _)).atomic
  · exact (writes_executeSelectRhsImm _ (hpure _) _).atomic
  · exact (writes_executeRefFunc _ _).atomic
  · exact (writes_executeGlobalGet _ _).atomic
  · exact ((writes_getRegister _).bind fun _ => writes_executeGlobalSetImpl _ _).atomic
  · exact (writes_executeGlobalSetImpl _ _).atomic
  · exact (writes_executeGlobalSetImpl _ _).atomic
  · exact atomic_executeLoad _ _ _
  · cases hop
  · exact atomic_executeLoadOffset16 _ _ _ _
  · exact atomic_executeStore _ _ _
  · exact atomic_executeStoreImm _ _ _
  · exact atomic_executeStoreOffset16 _ _ (readOnly_getRegister _) _
  · exact atomic_executeStoreOffset16 _ _ (ReadOnly.pure _) _
  · cases hop
  · cases hop
  · exact (writes_executeUnary _ _ _).atomic
  · exact atomic_tryExecuteUnary _ _ _
  · exact (writes_executeBinary _ _ _ _).atomic
  · exact atomic_tryExecuteBinary _ _ _ _
  · exact (writes_executeUnary _ _ _).atomic
  · exact (writes_executeUnary _ _ _).atomic
  · exact (writes_executeUnary _ _ _).atomic
  · exact atomic_tryExecuteUnary _ _ _
  · exact atomic_tryExecuteUnary _ _ _
  · exact (writes_executeUnary _ _ _).atomic
  · exact atomic_executeTableGet _ _
  · exact ((writes_executeTableSizeImpl _ _).bind fun _ => writes_nextInstr).atomic
  · exact atomic_executeTableSet _ _
  · exact atomic_executeTableCopy _ _ _
  · exact atomic_executeTableInit _ _ _
  · exact atomic_executeTableFill _ _ _
  · cases hop
  · exact (writes_executeElementDrop _).atomic
  · exact (writes_executeDataDrop _).atomic
  · exact ((writes_executeMemorySizeImpl _ _).bind fun _ => writes_nextInstr).atomic
  · cases hop
  · exact atomic_executeMemoryCopy _ _ _
  · exact atomic_executeMemoryFill _ _ _
  · exact atomic_executeMemoryInit _ _ _
  · exact Writes.undefined.atomic

/-- No instruction that neither calls nor returns changes the functions of the store. -/
theorem keepsFuncs_executeLocal (env : Engine T) (op : Op) : KeepsFuncs (executeLocal env op) := by
  cases hop : checksFirst op with
  | true => exact (atomic_executeLocal hop).funcs
  | false =>
    cases op <;> try contradiction
    case loadAt => exact keepsFuncs_executeLoadAt _ _ _
    case storeAt => exact keepsFuncs_executeStoreAt _ (readOnly_getRegister _) _
    case storeAtImm => exact keepsFuncs_executeStoreAt _ (ReadOnly.pure _) _
    case tableGrow => exact keepsFuncs_executeTableGrow _ _ _
    case memoryGrow => exact keepsFuncs_executeMemoryGrow _ _

end Executor

end MotokoDebugger
