import MotokoDebugger.Executor.State

/-!
# Instructions that neither call nor return

The `execute_*` methods of `executor/instrs/` that work on the topmost frame, the cached instance
and the store only. A method that the source instantiates with an operator takes that operator.

* Registers, instruction words, entities of the cached instance.
* Copies, selects, branches, numeric operators.
* Globals, loads and stores, tables, memories.
-/

namespace MotokoDebugger

variable {T : Type}

/-! ## Instruction words -/

/-- The instruction words from `ip` on; `none` in front of the code. -/
def Engine.wordsAt (env : Engine T) (ip : InstructionPtr) : Option (List Instruction) :=
  if 0 ≤ ip.pc then some ((env.codeMap ip.func).instrs.drop ip.pc.toNat) else none

/-- `InstructionPtr::get`; `none` outside of the code. -/
def Engine.instrAt (env : Engine T) (ip : InstructionPtr) : Option Instruction :=
  (env.wordsAt ip).bind List.head?

/-- The registers of a register list and its number of `RegisterList` words; `none` without a
finalizer. -/
def registerList : List Instruction → Option (List Reg × Nat)
  | ⟨_, .registerList reg0 reg1 reg2⟩ :: words =>
    (registerList words).map fun (regs, len) => (reg0 :: reg1 :: reg2 :: regs, len + 1)
  | ⟨_, .register reg⟩ :: _ => some ([reg], 0)
  | ⟨_, .register2 reg0 reg1⟩ :: _ => some ([reg0, reg1], 0)
  | ⟨_, .register3 reg0 reg1 reg2⟩ :: _ => some ([reg0, reg1, reg2], 0)
  | _ => none

/-- The number of `RegisterList` words in front of the finalizer. -/
def registerListLen : List Instruction → Option Nat
  | ⟨_, .registerList ..⟩ :: words => (registerListLen words).map (· + 1)
  | _ :: _ => some 0
  | [] => none

/-! ## Registers -/

namespace Local

/-- The cell of a register; `none` outside of the frame. -/
def index (s : Local T) (reg : Reg) : Option Nat :=
  let i := (s.base : Int) + reg.toInt
  if 0 ≤ i ∧ i.toNat < s.cells.length then some i.toNat else none

/-- `FrameRegisters::get`. -/
def read (s : Local T) (reg : Reg) : Option UntypedVal := (s.index reg).bind (s.cells[·]?)

/-- `FrameRegisters::set`. -/
def write (s : Local T) (reg : Reg) (value : UntypedVal) : Option (Local T) :=
  (s.index reg).map fun i => { s with cells := s.cells.set i value }

end Local

namespace Executor

open StateExcept

/-- The instruction word at `ip`. -/
def getInstr (env : Engine T) (ip : InstructionPtr) : LocalM T Op :=
  assume ((env.instrAt ip).map (·.op))

/-- `Executor::get_register`. -/
def getRegister (reg : Reg) : LocalM T UntypedVal := do assume ((← get).read reg)

/-- `Executor::get_register_as::<u32>`. -/
def getRegisterU32 (reg : Reg) : LocalM T Nat := do return (← getRegister reg).toI32.toNat

/-- `Executor::set_register`. -/
def setRegister (reg : Reg) (value : UntypedVal) : LocalM T Unit := do
  let s ← assume ((← get).write reg value)
  set s

/-- `Executor::next_instr_at`. -/
def nextInstrAt (skip : Nat) : LocalM T Unit := modify fun s => { s with ip := s.ip.add skip }

/-- `Executor::next_instr`. -/
def nextInstr : LocalM T Unit := nextInstrAt 1

/-- `Executor::invalid_instruction_word`. -/
def invalidInstructionWord : LocalM T Unit := throw .undefined

/-- `Executor::execute_trap`. -/
def executeTrap (trapCode : TrapCode) : LocalM T Unit := throw (.trap trapCode)

/-- The registers of a span. -/
def spanRegs (span : RegSpan) (len : Nat) : LocalM T (List Reg) := unwrap (span.iter len)

lemma readOnly_getInstr (env : Engine T) (ip : InstructionPtr) : ReadOnly (getInstr env ip) :=
  readOnly_assume _

lemma readOnly_getRegister (reg : Reg) : ReadOnly (getRegister reg : LocalM T UntypedVal) :=
  ReadOnly.get.bind fun _ => readOnly_assume _

lemma getRegister_eq_ok {reg : Reg} {s s' : Local T} {value : UntypedVal} :
    getRegister reg s = .ok value s' ↔ s.read reg = some value ∧ s = s' := by
  simp [getRegister, bind_eq_ok, and_comm]

/-- A register is written as a cell. -/
lemma setRegister_eq (reg : Reg) (value : UntypedVal) :
    setRegister reg value = (do
      let i ← assume ((← get).index reg)
      modify fun l => { l with cells := l.cells.set i value } : LocalM T Unit) := by
  funext l
  simp only [setRegister, get_bind, Local.write]
  cases l.index reg <;> rfl

lemma keeps_ip_setRegister (reg : Reg) (value : UntypedVal) :
    Keeps Local.ip (setRegister reg value : LocalM T Unit) := by
  rw [setRegister_eq]
  exact Keeps.get.bind fun _ => (readOnly_assume _).keeps.bind fun _ => Keeps.modify fun _ => rfl

lemma readOnly_getRegisterU32 (reg : Reg) : ReadOnly (getRegisterU32 reg : LocalM T Nat) :=
  (readOnly_getRegister reg).bind fun _ => ReadOnly.pure _

lemma nextInstrAt_apply (skip : Nat) (s : Local T) :
    nextInstrAt skip s = .ok () { s with ip := s.ip.add skip } := rfl

/-! ## Entities of the cached instance -/

/-- The entity at `index` of an index space of the cached instance. -/
def getEntity (space : InstanceEntity → List Nat) (index : Nat) : LocalM T Nat := do
  let s ← get
  let entity ← assume s.store.instances[s.cache.inst]?
  assume (space entity)[index]?

def getFunc (index : Nat) : LocalM T Nat := getEntity (·.funcs) index
def getFuncTypeDedup (index : Nat) : LocalM T Nat := getEntity (·.funcTypes) index
def getMemory (index : Nat) : LocalM T Nat := getEntity (·.memories) index
def getTable (index : Nat) : LocalM T Nat := getEntity (·.tables) index
def getGlobal (index : Nat) : LocalM T Nat := getEntity (·.globals) index
def getDataSegment (index : Nat) : LocalM T Nat := getEntity (·.dataSegments) index
def getElementSegment (index : Nat) : LocalM T Nat := getEntity (·.elemSegments) index

/-- Resolves a handle in an arena of the store. -/
def resolve {E : Type} (arena : Store T → List E) (index : Nat) : LocalM T E := do
  unwrap (arena (← get).store)[index]?

/-- Changes the store. -/
def modifyStore (f : Store T → Store T) : LocalM T Unit :=
  modify fun s => { s with store := f s.store }

def setMemory (index : Nat) (memory : MemoryEntity) : LocalM T Unit :=
  modifyStore fun store => { store with memories := store.memories.set index memory }

def setTable (index : Nat) (table : TableEntity) : LocalM T Unit :=
  modifyStore fun store => { store with tables := store.tables.set index table }

def setFuel (fuel : Fuel) : LocalM T Unit := modifyStore fun store => { store with fuel }

/-- `Executor::execute_consume_fuel`. -/
def executeConsumeFuel (blockFuel : Nat) : LocalM T Unit := do
  let fuel ← liftTrap ((← get).store.fuel.consumeFuelUnchecked blockFuel)
  setFuel fuel
  nextInstr

/-- `Executor::execute_ref_func`. -/
def executeRefFunc (result : Reg) (funcIndex : Nat) : LocalM T Unit := do
  let func ← getFunc funcIndex
  setRegister result (FuncRef.toUntyped func)
  nextInstr

/-! ## Numeric operators -/

def executeUnary (result input : Reg) (op : UntypedVal → UntypedVal) : LocalM T Unit := do
  let value ← getRegister input
  setRegister result (op value)
  nextInstr

def tryExecuteUnary (result input : Reg) (op : UntypedVal → Except TrapCode UntypedVal) :
    LocalM T Unit := do
  let value ← getRegister input
  let value ← liftTrap (op value)
  setRegister result value
  nextInstr

def executeBinary (result lhs rhs : Reg) (op : UntypedVal → UntypedVal → UntypedVal) :
    LocalM T Unit := do
  let lhs ← getRegister lhs
  let rhs ← getRegister rhs
  setRegister result (op lhs rhs)
  nextInstr

def tryExecuteBinary (result lhs rhs : Reg)
    (op : UntypedVal → UntypedVal → Except TrapCode UntypedVal) : LocalM T Unit := do
  let lhs ← getRegister lhs
  let rhs ← getRegister rhs
  let value ← liftTrap (op lhs rhs)
  setRegister result value
  nextInstr

/-! ## Copies -/

/-- `Executor::execute_copy_impl` with an immediate. -/
def executeCopyImm (result : Reg) (value : UntypedVal) : LocalM T Unit := do
  setRegister result value
  nextInstr

def executeCopy (result value : Reg) : LocalM T Unit := do
  let value ← getRegister value
  setRegister result value
  nextInstr

def executeCopy2 (results : RegSpan) (value0 value1 : Reg) : LocalM T Unit := do
  let tmp ← getRegister value1
  let value ← getRegister value0
  setRegister results.head value
  setRegister results.head.next tmp
  nextInstr

/-- Writes `values` to `regs` one after the other. -/
def setRegisters (regs : List Reg) (values : List UntypedVal) : LocalM T Unit :=
  (regs.zip values).forM fun (result, value) => setRegister result value

/-- Copies `values` to `results` one after the other. -/
def copyRegisters (results values : List Reg) : LocalM T Unit :=
  (results.zip values).forM fun (result, value) => do
    let value ← getRegister value
    setRegister result value

def executeCopySpanImpl (results values : RegSpan) (len : Nat) : LocalM T Unit := do
  let results ← spanRegs results len
  let values ← spanRegs values len
  let tmp ← values.mapM getRegister
  setRegisters results tmp

def executeCopySpanNonOverlappingImpl (results values : RegSpan) (len : Nat) :
    LocalM T Unit := do
  let results ← spanRegs results len
  let values ← spanRegs values len
  copyRegisters results values

/-- The registers of the list at `ip` and the position of its finalizer. -/
def registerListAt (env : Engine T) (ip : InstructionPtr) :
    LocalM T (List Reg × InstructionPtr) := do
  let (regs, len) ← assume ((env.wordsAt ip).bind registerList)
  return (regs, ip.add len)

lemma keeps_ip_setRegisters (regs : List Reg) (values : List UntypedVal) :
    Keeps Local.ip (setRegisters regs values : LocalM T Unit) :=
  Keeps.forM (fun _ => keeps_ip_setRegister _ _) _

lemma readOnly_registerListAt (env : Engine T) (ip : InstructionPtr) :
    ReadOnly (registerListAt env ip) :=
  (readOnly_assume _).bind fun _ => ReadOnly.pure _

def executeCopyManyImpl (env : Engine T) (ip : InstructionPtr) (results : RegSpan)
    (values : List Reg) : LocalM T InstructionPtr := do
  let (regs, ip) ← registerListAt env ip
  let tmp ← (values ++ regs).mapM getRegister
  let results ← spanRegs results tmp.length
  setRegisters results tmp
  return ip

def executeCopyManyNonOverlappingImpl (env : Engine T) (ip : InstructionPtr)
    (results : RegSpan) (values : List Reg) : LocalM T InstructionPtr := do
  let (regs, ip) ← registerListAt env ip
  let values := values ++ regs
  copyRegisters ((List.range values.length).map results.head.nextN) values
  return ip

/-- Advances `ip` onto the register list of the instruction and runs a copy of it. -/
def executeCopyMany (env : Engine T) (results : RegSpan) (value0 value1 : Reg)
    (copy : Engine T → InstructionPtr → RegSpan → List Reg → LocalM T InstructionPtr) :
    LocalM T Unit := do
  nextInstr
  let ip ← copy env (← get).ip results [value0, value1]
  modify fun s => { s with ip }
  nextInstr

/-! ## Select -/

/-- The parameter word behind the instruction. -/
def fetchParam (env : Engine T) (offset : Nat) : LocalM T Op := do
  getInstr env ((← get).ip.add offset)

def fetchRegister2 (env : Engine T) : LocalM T (Reg × Reg) := do
  match ← fetchParam env 1 with
  | .register2 reg0 reg1 => return (reg0, reg1)
  | _ => throw .undefined

/-- `fetch_register_and_imm32`, `fetch_ptr_and_offset` and `fetch_value_and_offset`. -/
def fetchRegisterAndImm32 (env : Engine T) : LocalM T (Reg × AnyConst32) := do
  match ← fetchParam env 1 with
  | .registerAndImm32 reg imm => return (reg, imm)
  | _ => throw .undefined

def executeSelectImpl (result condition : Reg) (lhs rhs : LocalM T UntypedVal) :
    LocalM T Unit := do
  let condition ← getRegister condition
  let selected ← if condition.toBool then lhs else rhs
  setRegister result selected
  nextInstrAt 2

/-- `execute_select` and its `_lhs` forms: the right operand is a register. -/
def executeSelectRhsReg (env : Engine T) (result : Reg) (lhs : LocalM T UntypedVal) :
    LocalM T Unit := do
  let (condition, rhs) ← fetchRegister2 env
  executeSelectImpl result condition lhs (getRegister rhs)

/-- The `_rhs` forms and those with two immediates: the right operand is an immediate. -/
def executeSelectRhsImm (env : Engine T) (result : Reg) (lhs : LocalM T UntypedVal)
    (rhsOf : AnyConst32 → UntypedVal) : LocalM T Unit := do
  let (condition, rhs) ← fetchRegisterAndImm32 env
  executeSelectImpl result condition lhs (pure (rhsOf rhs))

/-! ## Branches -/

/-- `Executor::branch_to` and `Executor::branch_to16`. -/
def branchTo (offset : Int) : LocalM T Unit := modify fun s => { s with ip := s.ip.offset offset }

def executeBranch (offset : BranchOffset) : LocalM T Unit := branchTo offset.toInt

def fetchBranchTableOffset (index : Reg) (lenTargets : Nat) : LocalM T Nat := do
  let index ← getRegisterU32 index
  return min index (lenTargets - 1) + 1

def executeBranchTable0 (index : Reg) (lenTargets : Nat) : LocalM T Unit := do
  let offset ← fetchBranchTableOffset index lenTargets
  nextInstrAt offset

/-- The end of `execute_branch_table_1`: copies the value to the result of the chosen target and
branches. -/
def branchTableResult (env : Engine T) (value : UntypedVal) : LocalM T Unit := do
  match ← getInstr env (← get).ip with
  | .branchTableTarget results offset =>
    setRegister results.head value
    executeBranch offset
  | _ => pure ()

def executeBranchTable1 (env : Engine T) (index : Reg) (lenTargets : Nat) : LocalM T Unit := do
  let offset ← fetchBranchTableOffset index lenTargets
  nextInstr
  let value ← match ← getInstr env (← get).ip with
    | .register reg => getRegister reg
    | .const32 value => pure (.ofI32 value)
    | .i64Const32 value => pure value.toI64
    | .f64Const32 value => pure (env.float.f64OfConst32 value)
    | _ => throw .undefined
  nextInstrAt offset
  branchTableResult env value

/-- The end of `execute_branch_table_2` and `execute_branch_table_3`: copies the registers to the
results of the chosen target and branches. -/
def branchTableTarget (env : Engine T) (regs : List Reg) : LocalM T Unit := do
  match ← getInstr env (← get).ip with
  | .branchTableTarget results offset =>
    let values ← regs.mapM getRegister
    let results ← spanRegs results regs.length
    setRegisters results values
    executeBranch offset
  | _ => pure ()

def executeBranchTable2 (env : Engine T) (index : Reg) (lenTargets : Nat) : LocalM T Unit := do
  let offset ← fetchBranchTableOffset index lenTargets
  nextInstr
  let .register2 reg0 reg1 ← getInstr env (← get).ip | throw .undefined
  nextInstrAt offset
  branchTableTarget env [reg0, reg1]

def executeBranchTable3 (env : Engine T) (index : Reg) (lenTargets : Nat) : LocalM T Unit := do
  let offset ← fetchBranchTableOffset index lenTargets
  nextInstr
  let .register3 reg0 reg1 reg2 ← getInstr env (← get).ip | throw .undefined
  nextInstrAt offset
  branchTableTarget env [reg0, reg1, reg2]

def executeBranchTableSpan (env : Engine T) (index : Reg) (lenTargets : Nat) :
    LocalM T Unit := do
  let offset ← fetchBranchTableOffset index lenTargets
  nextInstr
  let .registerSpan values ← getInstr env (← get).ip | throw .undefined
  nextInstrAt offset
  match ← getInstr env (← get).ip with
  | .branchTableTarget results offset =>
    executeCopySpanImpl results values.span values.len
    executeBranch offset
  | .branchTableTargetNonOverlapping results offset =>
    executeCopySpanNonOverlappingImpl results values.span values.len
    executeBranch offset
  | _ => pure ()

/-- `skip_register_list`: the position behind the register list at `ip`. -/
def skipRegisterList (env : Engine T) (ip : InstructionPtr) : LocalM T InstructionPtr := do
  let len ← assume ((env.wordsAt ip).bind registerListLen)
  return ip.add (len + 1)

def executeBranchBinop (lhs rhs : Reg) (offset : Int) (f : UntypedVal → UntypedVal → Bool) :
    LocalM T Unit := do
  let lhs ← getRegister lhs
  let rhs ← getRegister rhs
  if f lhs rhs then branchTo offset else nextInstr

def executeBranchBinopImm (lhs : Reg) (rhs : UntypedVal) (offset : Int)
    (f : UntypedVal → UntypedVal → Bool) : LocalM T Unit := do
  let lhs ← getRegister lhs
  if f lhs rhs then branchTo offset else nextInstr

def executeBranchCmpFallback (env : Engine T) (lhs rhs params : Reg) : LocalM T Unit := do
  let params ← getRegister params
  let params ← unwrap (ComparatorAndOffset.fromUntyped params)
  executeBranchBinop lhs rhs params.offset.toInt (params.cmp.eval env.float)

/-! ## Globals -/

/-- The cell a global index refers to: index 0 goes through the cached pointer. -/
def globalCell (global : Nat) : LocalM T Nat :=
  match global with
  | 0 => do assume (← get).cache.global
  | global => getGlobal global

def executeGlobalGet (result : Reg) (global : Nat) : LocalM T Unit := do
  let cell ← globalCell global
  let value ← resolve (·.globals) cell
  setRegister result value
  nextInstr

def executeGlobalSetImpl (global : Nat) (newValue : UntypedVal) : LocalM T Unit := do
  let cell ← globalCell global
  let _ ← resolve (·.globals) cell
  modifyStore fun store => { store with globals := store.globals.set cell newValue }
  nextInstr

def executeGlobalSet (global : Nat) (input : Reg) : LocalM T Unit := do
  let input ← getRegister input
  executeGlobalSetImpl global input

/-! ## Loads and stores -/

/-- The memory a default access goes to: the cached one. The cached slice must still be the whole
memory, otherwise its pointer may dangle. `none` is the empty slice of an instance without
memories. -/
def fetchDefaultMemory : LocalM T (Option (Nat × MemoryEntity)) := do
  match (← get).cache.memory with
  | none => return none
  | some cached =>
    let memory ← assume (← get).store.memories[cached.memory]?
    if memory.bytes.length = cached.len then
      return some (cached.memory, memory)
    else throw .undefined

/-- `fetch_memory_bytes` and `fetch_memory_bytes_mut`. -/
def fetchMemory (memory : Nat) : LocalM T (Option (Nat × MemoryEntity)) :=
  match memory with
  | 0 => fetchDefaultMemory
  | index => do
    let memory ← getMemory index
    return some (memory, ← resolve (·.memories) memory)

/-- The bytes of a fetched memory. -/
def bytesOf (memory : Option (Nat × MemoryEntity)) : List Byte :=
  match memory with
  | none => []
  | some (_, memory) => memory.bytes

/-- `execute_load_extend` and `execute_load_extend_mem0`. -/
def executeLoadExtend (memory : Option (Nat × MemoryEntity)) (result : Reg)
    (address : UntypedVal) (offset : BitVec 32) (op : LoadOp) : LocalM T Unit := do
  let loadedValue ← liftTrap (op.eval (bytesOf memory) address offset)
  setRegister result loadedValue

def executeLoad (env : Engine T) (result : Reg) (memory : Nat) (op : LoadOp) :
    LocalM T Unit := do
  let (ptr, offset) ← fetchRegisterAndImm32 env
  let address ← getRegister ptr
  executeLoadExtend (← fetchMemory memory) result address offset op
  nextInstrAt 2

/-- `fetch_optional_memory`: advances onto a `MemoryIndex` word, if there is one. -/
def fetchOptionalMemory (env : Engine T) : LocalM T Nat := do
  match ← fetchParam env 1 with
  | .memoryIndex index =>
    nextInstr
    return index
  | _ => return 0

def executeLoadAt (env : Engine T) (result : Reg) (address : BitVec 32) (op : LoadOp) :
    LocalM T Unit := do
  let memory ← fetchOptionalMemory env
  executeLoadExtend (← fetchMemory memory) result 0 address op
  nextInstr

def executeLoadOffset16 (result ptr : Reg) (offset : Const16) (op : LoadOp) :
    LocalM T Unit := do
  let address ← getRegister ptr
  executeLoadExtend (← fetchDefaultMemory) result address (offset.zeroExtend 32) op
  nextInstr

/-- `execute_store_wrap` and `execute_store_wrap_mem0`. -/
def executeStoreWrap (memory : Option (Nat × MemoryEntity)) (address : UntypedVal)
    (offset : BitVec 32) (value : UntypedVal) (op : StoreOp) : LocalM T Unit := do
  let bytes ← liftTrap (op.eval (bytesOf memory) address offset value)
  match memory with
  | none => pure ()
  | some (index, memory) => setMemory index { memory with bytes }

def executeStore (env : Engine T) (ptr : Reg) (memory : Nat) (op : StoreOp) :
    LocalM T Unit := do
  let (value, offset) ← fetchRegisterAndImm32 env
  let address ← getRegister ptr
  let value ← getRegister value
  executeStoreWrap (← fetchMemory memory) address offset value op
  nextInstrAt 2

def fetchValueAndOffsetImm (env : Engine T) : LocalM T (Const16 × AnyConst32) := do
  match ← fetchParam env 1 with
  | .imm16AndImm32 imm16 imm32 => return (imm16, imm32)
  | _ => throw .undefined

def executeStoreImm (env : Engine T) (ptr : Reg) (memory : Nat) (op : StoreImmOp) :
    LocalM T Unit := do
  let (value, offset) ← fetchValueAndOffsetImm env
  let address ← getRegister ptr
  executeStoreWrap (← fetchMemory memory) address offset (op.value value) op.toStoreOp
  nextInstrAt 2

/-- `execute_store_offset16` and `execute_store_offset16_imm16`. -/
def executeStoreOffset16 (ptr : Reg) (offset : Const16) (value : LocalM T UntypedVal)
    (op : StoreOp) : LocalM T Unit := do
  let address ← getRegister ptr
  let value ← value
  executeStoreWrap (← fetchDefaultMemory) address (offset.zeroExtend 32) value op
  nextInstr

/-- `execute_store_at` and `execute_store_at_imm16`. -/
def executeStoreAt (env : Engine T) (address : BitVec 32) (value : LocalM T UntypedVal)
    (op : StoreOp) : LocalM T Unit := do
  let memory ← fetchOptionalMemory env
  let value ← value
  executeStoreWrap (← fetchMemory memory) 0 address value op
  nextInstr

/-! ## Operands of bulk operations -/

def operand : Operand → LocalM T Nat
  | .reg reg => getRegisterU32 reg
  | .imm value => pure value.toU32

def byteOperand : ByteOperand → LocalM T Byte
  | .reg reg => do return (← getRegister reg).truncate 8
  | .imm value => pure value

def deltaOperand : DeltaOperand → LocalM T Nat
  | .reg reg => getRegisterU32 reg
  | .imm value => pure value.toNat

def fetchTableIndex (env : Engine T) (offset : Nat) : LocalM T Nat := do
  match ← fetchParam env offset with
  | .tableIndex index => return index
  | _ => throw .undefined

def fetchElementSegmentIndex (env : Engine T) (offset : Nat) : LocalM T Nat := do
  match ← fetchParam env offset with
  | .elemIndex index => return index
  | _ => throw .undefined

def fetchMemoryIndex (env : Engine T) (offset : Nat) : LocalM T Nat := do
  match ← fetchParam env offset with
  | .memoryIndex index => return index
  | _ => throw .undefined

def fetchDataSegmentIndex (env : Engine T) (offset : Nat) : LocalM T Nat := do
  match ← fetchParam env offset with
  | .dataIndex index => return index
  | _ => throw .undefined

/-! ## Tables -/

def executeTableGet (env : Engine T) (result : Reg) (index : IndexOperand) :
    LocalM T Unit := do
  let index ← deltaOperand index
  let tableIndex ← fetchTableIndex env 1
  let table ← getTable tableIndex
  let table ← resolve (·.tables) table
  let some value := table.elements[index]? | throw (.trap .tableOutOfBounds)
  setRegister result value
  nextInstrAt 2

def executeTableSizeImpl (result : Reg) (tableIndex : Nat) : LocalM T Unit := do
  let table ← getTable tableIndex
  let table ← resolve (·.tables) table
  setRegister result (BitVec.ofNat 64 table.size)

def executeTableSize (result : Reg) (tableIndex : Nat) : LocalM T Unit := do
  executeTableSizeImpl result tableIndex
  nextInstr

def executeTableSet (env : Engine T) (index : IndexOperand) (value : Reg) :
    LocalM T Unit := do
  let index ← deltaOperand index
  let tableIndex ← fetchTableIndex env 1
  let table ← getTable tableIndex
  let value ← getRegister value
  let entity ← resolve (·.tables) table
  let entity ← liftTrap (entity.setUntyped index value)
  setTable table entity
  nextInstrAt 2

/-- A table operation that can trap and that consumes fuel. -/
def tableOp (table : Nat) (op : TableEntity → Fuel → Except TrapCode (TableEntity × Fuel)) :
    LocalM T Unit := do
  let entity ← resolve (·.tables) table
  let (entity, fuel) ← liftTrap (op entity (← get).store.fuel)
  setTable table entity
  setFuel fuel

def executeTableCopy (env : Engine T) (dst src len : Operand) : LocalM T Unit := do
  let dst ← operand dst
  let src ← operand src
  let len ← operand len
  let dstTableIndex ← fetchTableIndex env 1
  let srcTableIndex ← fetchTableIndex env 2
  if dstTableIndex = srcTableIndex then
    let table ← getTable dstTableIndex
    tableOp table fun entity fuel => entity.copyWithin dst src len fuel
  else
    let dstTable ← getTable dstTableIndex
    let srcTable ← getTable srcTableIndex
    -- `Arena::get_pair_mut` finds no pair where both handles are the same
    if dstTable = srcTable then
      throw .panic
    let srcEntity ← resolve (·.tables) srcTable
    tableOp dstTable fun entity fuel => entity.copy dst srcEntity src len fuel
  nextInstrAt 3

def executeTableInit (env : Engine T) (dst src len : Operand) : LocalM T Unit := do
  let dst ← operand dst
  let src ← operand src
  let len ← operand len
  let tableIndex ← fetchTableIndex env 1
  let elementIndex ← fetchElementSegmentIndex env 2
  let table ← getTable tableIndex
  let element ← getElementSegment elementIndex
  let element ← resolve (·.elems) element
  tableOp table fun entity fuel => entity.init element dst src len fuel
  nextInstrAt 3

def executeTableFill (env : Engine T) (dst len : Operand) (value : Reg) : LocalM T Unit := do
  let dst ← operand dst
  let len ← operand len
  let tableIndex ← fetchTableIndex env 1
  let value ← getRegister value
  let table ← getTable tableIndex
  tableOp table fun entity fuel => entity.fillUntyped dst value len fuel
  nextInstrAt 2

/-- Runs a growth on an entity and writes entity, fuel and host state back, also when it fails.
The value is the one the instruction returns to the program. -/
def growOp {E : Type} (entity : E) (grow : GrowM E T Nat) (put : E → LocalM T Unit)
    (onSuccess : LocalM T Unit) : LocalM T (BitVec 32) := do
  let store := (← get).store
  match grow ⟨entity, store.fuel, store.data⟩ with
  | .ok value s =>
    put s.entity
    modifyStore fun store => { store with fuel := s.fuel, data := s.data }
    onSuccess
    return BitVec.ofNat 32 value
  | .error error s =>
    modifyStore fun store => { store with fuel := s.fuel, data := s.data }
    match error with
    | .invalidGrow => return EntityGrowError.errorCode
    | .trapCode code => throw (.trap code)
    | .panic => throw .panic

def executeTableGrow (env : Engine T) (result : Reg) (delta : Operand) (value : Reg) :
    LocalM T Unit := do
  let delta ← operand delta
  let tableIndex ← fetchTableIndex env 1
  if delta = 0 then
    executeTableSizeImpl result tableIndex
    nextInstrAt 2
  else
    let table ← getTable tableIndex
    let value ← getRegister value
    let entity ← resolve (·.tables) table
    let returnValue ←
      growOp entity (TableEntity.growUntyped env.limiter delta value) (setTable table) (pure ())
    setRegister result (.ofI32 returnValue)
    nextInstrAt 2

def executeElementDrop (segmentIndex : Nat) : LocalM T Unit := do
  let segment ← getElementSegment segmentIndex
  let entity ← resolve (·.elems) segment
  modifyStore fun store =>
    { store with elems := store.elems.set segment { entity with items := [] } }
  nextInstr

/-! ## Memories -/

def executeDataDrop (segmentIndex : Nat) : LocalM T Unit := do
  let segment ← getDataSegment segmentIndex
  let _ ← resolve (·.datas) segment
  modifyStore fun store => { store with datas := store.datas.set segment [] }
  nextInstr

def executeMemorySizeImpl (result : Reg) (memory : Nat) : LocalM T Unit := do
  let memory ← getMemory memory
  let memory ← resolve (·.memories) memory
  setRegister result (BitVec.ofNat 64 memory.currentPages)

def executeMemorySize (result : Reg) (memory : Nat) : LocalM T Unit := do
  executeMemorySizeImpl result memory
  nextInstr

end Executor

/-! ## The cached instance -/

/-- `CachedMemory::new` of the default memory of an instance; the outer `none` is the panic of a
handle that the store does not have. -/
def CachedInstance.loadMemory (store : Store T) (entity : InstanceEntity) :
    Option (Option CachedMemory) :=
  match entity.memories.head? with
  | none => some none
  | some memory => store.memories[memory]?.map fun entity => some ⟨memory, entity.bytes.length⟩

/-- `CachedGlobal::new` of the first global of an instance. -/
def CachedInstance.loadGlobal (store : Store T) (entity : InstanceEntity) :
    Option (Option Nat) :=
  match entity.globals.head? with
  | none => some none
  | some global => store.globals[global]?.map fun _ => some global

/-- `CachedInstance::load_caches`, used by `new` and `update`. -/
def CachedInstance.load (store : Store T) (inst : Nat) : Option CachedInstance := do
  let entity ← store.instances[inst]?
  let memory ← loadMemory store entity
  let global ← loadGlobal store entity
  return ⟨inst, memory, global⟩

namespace Executor

open StateExcept

/-- `CachedInstance::update_memory`. -/
def updateMemory : LocalM T Unit := do
  let s ← get
  let entity ← assume s.store.instances[s.cache.inst]?
  let memory ← unwrap (CachedInstance.loadMemory s.store entity)
  modify fun s => { s with cache := { s.cache with memory } }

def executeMemoryGrow (env : Engine T) (result : Reg) (delta : DeltaOperand) :
    LocalM T Unit := do
  let delta ← deltaOperand delta
  let memory ← fetchMemoryIndex env 1
  if delta = 0 then
    executeMemorySizeImpl result memory
    nextInstrAt 2
  else
    let memory ← getMemory memory
    let entity ← resolve (·.memories) memory
    let returnValue ←
      growOp entity (MemoryEntity.grow env.limiter delta) (setMemory memory) updateMemory
    setRegister result (.ofI32 returnValue)
    nextInstrAt 2

/-- The end of a bulk memory operation: pays for `len` bytes and writes `bytes` at `dst`. -/
def writeBytes (memory : Nat) (entity : MemoryEntity) (dst : Nat) (bytes : List Byte) :
    LocalM T Unit := do
  let fuel ← liftTrap ((← get).store.fuel.consumeFuelIf (·.fuelForBytes bytes.length))
  setFuel fuel
  setMemory memory { entity with bytes := overwrite entity.bytes dst bytes }

/-- The bytes `start..start + len`, or the trap of an access out of bounds. -/
def bytesAt (bytes : List Byte) (start len : Nat) : LocalM T (List Byte) :=
  match slice? bytes start len with
  | some bytes => pure bytes
  | none => throw (.trap .memoryOutOfBounds)

def executeMemoryCopy (env : Engine T) (dst src len : Operand) : LocalM T Unit := do
  let dst ← operand dst
  let src ← operand src
  let len ← operand len
  let dstMemory ← fetchMemoryIndex env 1
  let srcMemory ← fetchMemoryIndex env 2
  if srcMemory = dstMemory then
    let memory ← getMemory srcMemory
    let entity ← resolve (·.memories) memory
    let srcBytes ← bytesAt entity.bytes src len
    let _ ← bytesAt entity.bytes dst len
    writeBytes memory entity dst srcBytes
    nextInstrAt 3
  else
    let srcMemory ← getMemory srcMemory
    let dstMemory ← getMemory dstMemory
    -- `Arena::get_pair_mut` finds no pair where both handles are the same
    if srcMemory = dstMemory then
      throw .panic
    let srcEntity ← resolve (·.memories) srcMemory
    let dstEntity ← resolve (·.memories) dstMemory
    let srcBytes ← bytesAt srcEntity.bytes src len
    let _ ← bytesAt dstEntity.bytes dst len
    writeBytes dstMemory dstEntity dst srcBytes
    nextInstrAt 3

def executeMemoryFill (env : Engine T) (dst : Operand) (value : ByteOperand) (len : Operand) :
    LocalM T Unit := do
  let dst ← operand dst
  let value ← byteOperand value
  let len ← operand len
  let memory ← fetchMemoryIndex env 1
  let memory ← getMemory memory
  let entity ← resolve (·.memories) memory
  let _ ← bytesAt entity.bytes dst len
  writeBytes memory entity dst (List.replicate len value)
  nextInstrAt 2

def executeMemoryInit (env : Engine T) (dst src len : Operand) : LocalM T Unit := do
  let dst ← operand dst
  let src ← operand src
  let len ← operand len
  let memory ← fetchMemoryIndex env 1
  let data ← fetchDataSegmentIndex env 2
  let memory ← getMemory memory
  let data ← getDataSegment data
  let data ← resolve (·.datas) data
  let entity ← resolve (·.memories) memory
  let _ ← bytesAt entity.bytes dst len
  let srcBytes ← bytesAt data src len
  writeBytes memory entity dst srcBytes
  nextInstrAt 3

end Executor

end MotokoDebugger
