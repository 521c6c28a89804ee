import MotokoDebugger.Executor.Return

/-!
# The two interpreter loops

`executor/instrs.rs` has the interpreter twice. `Executor::execute` runs until the root function
returns; `Executor::execute_instr` runs one instruction for the debugger and reports what it was.

* `executeLocal`, `executeOne`: the arms of `Executor::execute`.
* `executeInstrLocal`, `executeInstr`: the arms of `Executor::execute_instr`.
-/

namespace MotokoDebugger

namespace Executor

open StateExcept

variable {T : Type}

/-! ## The plain loop -/

/-- The arms of `Executor::execute` that neither call nor return. -/
def executeLocal (env : Engine T) (op : Op) : LocalM T Unit :=
  match op with
  | .trap trapCode => executeTrap trapCode
  | .consumeFuel blockFuel => executeConsumeFuel blockFuel
  | .branch offset => executeBranch offset
  | .branchTable0 index lenTargets => executeBranchTable0 index lenTargets
  | .branchTable1 index lenTargets => executeBranchTable1 env index lenTargets
  | .branchTable2 index lenTargets => executeBranchTable2 env index lenTargets
  | .branchTable3 index lenTargets => executeBranchTable3 env index lenTargets
  | .branchTableSpan index lenTargets => executeBranchTableSpan env index lenTargets
  | .branchCmpFallback lhs rhs params => executeBranchCmpFallback env lhs rhs params
  | .branchCmp cmp lhs rhs offset => executeBranchBinop lhs rhs offset.toInt (cmp.eval env.float)
  | .branchCmpImm cmp lhs rhs offset =>
    executeBranchBinopImm lhs (rhs.toUntyped cmp.immType) offset.toInt cmp.eval
  | .copy result value => executeCopy result value
  | .copy2 results value0 value1 => executeCopy2 results value0 value1
  | .copyImm32 result value => executeCopyImm result (.ofI32 value)
  | .copyI64Imm32 result value => executeCopyImm result value.toI64
  | .copyF64Imm32 result value => executeCopyImm result (env.float.f64OfConst32 value)
  | .copySpan results values len => do
    executeCopySpanImpl results values len
    nextInstr
  | .copySpanNonOverlapping results values len => do
    executeCopySpanNonOverlappingImpl results values len
    nextInstr
  | .copyMany results value0 value1 =>
    executeCopyMany env results value0 value1 executeCopyManyImpl
  | .copyManyNonOverlapping results value0 value1 =>
    executeCopyMany env results value0 value1 executeCopyManyNonOverlappingImpl
  | .select result lhs => executeSelectRhsReg env result (getRegister lhs)
  | .selectImm32Rhs result lhs => executeSelectRhsImm env result (getRegister lhs) .ofI32
  | .selectImm32Lhs result lhs => executeSelectRhsReg env result (pure (.ofI32 lhs))
  | .selectImm32 result lhs => executeSelectRhsImm env result (pure (.ofI32 lhs)) .ofI32
  | .selectI64Imm32Rhs result lhs =>
    executeSelectRhsImm env result (getRegister lhs) AnyConst32.toI64
  | .selectI64Imm32Lhs result lhs => executeSelectRhsReg env result (pure lhs.toI64)
  | .selectI64Imm32 result lhs =>
    executeSelectRhsImm env result (pure lhs.toI64) AnyConst32.toI64
  | .selectF64Imm32Rhs result lhs =>
    executeSelectRhsImm env result (getRegister lhs) env.float.f64OfConst32
  | .selectF64Imm32Lhs result lhs =>
    executeSelectRhsReg env result (pure (env.float.f64OfConst32 lhs))
  | .selectF64Imm32 result lhs =>
    executeSelectRhsImm env result (pure (env.float.f64OfConst32 lhs)) env.float.f64OfConst32
  | .refFunc result func => executeRefFunc result func
  | .globalGet result global => executeGlobalGet result global
  | .globalSet input global => executeGlobalSet global input
  | .globalSetI32Imm16 input global => executeGlobalSetImpl global (input.toUntyped .i32)
  | .globalSetI64Imm16 input global => executeGlobalSetImpl global (input.toUntyped .i64)
  | .load op result memory => executeLoad env result memory op
  | .loadAt op result address => executeLoadAt env result address op
  | .loadOffset16 op result ptr offset => executeLoadOffset16 result ptr offset op
  | .store op ptr memory => executeStore env ptr memory op
  | .storeImm op ptr memory => executeStoreImm env ptr memory op
  | .storeOffset16 op ptr offset value => executeStoreOffset16 ptr offset (getRegister value) op
  | .storeOffset16Imm op ptr offset value =>
    executeStoreOffset16 ptr offset (pure (op.value value)) op.toStoreOp
  | .storeAt op value address => executeStoreAt env address (getRegister value) op
  | .storeAtImm op value address =>
    executeStoreAt env address (pure (op.value value)) op.toStoreOp
  | .unary op result input => executeUnary result input (op.eval env.float)
  | .tryUnary op result input => tryExecuteUnary result input (env.float.trunc op)
  | .binary op result lhs rhs => executeBinary result lhs rhs (op.eval env.float)
  | .tryBinary op result lhs rhs => tryExecuteBinary result lhs rhs op.eval
  | .binaryImm16 op result lhs rhs => executeUnary result lhs (op.eval · rhs)
  | .binaryImm16Lhs op result lhs rhs => executeUnary result rhs (op.eval lhs ·)
  | .shiftBy op result lhs rhs => executeUnary result lhs (op.eval · (rhs.toUntyped op.immType))
  | .divremImm16Rhs op result lhs rhs =>
    tryExecuteUnary result lhs (op.evalNonZero · (rhs.toUntyped op.immType))
  | .tryBinaryImm16Lhs op result lhs rhs =>
    tryExecuteUnary result rhs (op.eval (lhs.toUntyped op.immType) ·)
  | .copysignImm op result lhs rhsIsPositive =>
    executeUnary result lhs (op.eval env.float · rhsIsPositive)
  | .tableGet result index => executeTableGet env result index
  | .tableSize result table => executeTableSize result table
  | .tableSet index value => executeTableSet env index value
  | .tableCopy dst src len => executeTableCopy env dst src len
  | .tableInit dst src len => executeTableInit env dst src len
  | .tableFill dst len value => executeTableFill env dst len value
  | .tableGrow result delta value => executeTableGrow env result delta value
  | .elemDrop index => executeElementDrop index
  | .dataDrop index => executeDataDrop index
  | .memorySize result memory => executeMemorySize result memory
  | .memoryGrow result delta => executeMemoryGrow env result delta
  | .memoryCopy dst src len => executeMemoryCopy env dst src len
  | .memoryFill dst value len => executeMemoryFill env dst value len
  | .memoryInit dst src len => executeMemoryInit env dst src len
  | _ => invalidInstructionWord

/-- Runs an instruction that is not a return: the loop goes on. -/
def continuing (x : ExecM T Unit) : ExecM T ControlFlow := do
  x
  return .continue_

/-- One iteration of `Executor::execute`; `forward_return!` leaves the loop on `break`. -/
def executeOp (env : Engine T) (op : Op) : ExecM T ControlFlow :=
  match op with
  | .returnCallInternal0 func => continuing (executeReturnCallInternal env .returnCall0 func)
  | .returnCallInternal func => continuing (executeReturnCallInternal env .returnCall func)
  | .returnCallImported0 func => continuing (executeReturnCallImported env .returnCall0 func)
  | .returnCallImported func => continuing (executeReturnCallImported env .returnCall func)
  | .returnCallIndirect0 funcType => continuing do
    executeReturnCallIndirect env .returnCall0 pullCallIndirectParams funcType
  | .returnCallIndirect0Imm16 funcType => continuing do
    executeReturnCallIndirect env .returnCall0 pullCallIndirectParamsImm16 funcType
  | .returnCallIndirect funcType => continuing do
    executeReturnCallIndirect env .returnCall pullCallIndirectParams funcType
  | .returnCallIndirectImm16 funcType => continuing do
    executeReturnCallIndirect env .returnCall pullCallIndirectParamsImm16 funcType
  | .callInternal0 results func => continuing (executeCallInternal env .nestedCall0 results func)
  | .callInternal results func => continuing (executeCallInternal env .nestedCall results func)
  | .callImported0 results func => continuing (executeCallImported env .nestedCall0 results func)
  | .callImported results func => continuing (executeCallImported env .nestedCall results func)
  | .callIndirect0 results funcType => continuing do
    discard (executeCallIndirect env .nestedCall0 pullCallIndirectParams results funcType)
  | .callIndirect0Imm16 results funcType => continuing do
    discard (executeCallIndirect env .nestedCall0 pullCallIndirectParamsImm16 results funcType)
  | .callIndirect results funcType => continuing do
    discard (executeCallIndirect env .nestedCall pullCallIndirectParams results funcType)
  | .callIndirectImm16 results funcType => continuing do
    discard (executeCallIndirect env .nestedCall pullCallIndirectParamsImm16 results funcType)
  | .branchTableMany index lenTargets => continuing (executeBranchTableMany env index lenTargets)
  | op =>
    if op.isReturn then executeReturn env op else continuing (stepLocal (executeLocal env op))

/-- The instruction at the instruction pointer. -/
def fetch (env : Engine T) : ExecM T Instruction := do
  assume (env.instrAt (← get).ip)

/-- One iteration of `Executor::execute`, with the fetch. -/
def executeOne (env : Engine T) : ExecM T ControlFlow := do
  let instr ← fetch env
  executeOp env instr.op

/-! ## The debugger's step -/

/-- `Signal`. -/
inductive Signal where
  | next
  | breakpoint
  | end_
deriving Repr, DecidableEq

/-- What `execute_instr` reports through its result and its `&mut` parameters. -/
structure InstrReport where
  signal : Signal := .next
  isPopFrame : Bool := false
  callIdx : Int := -1
  tableIdx : Option Nat := none
deriving Repr, DecidableEq

/-- `u32::try_into::<i32>().unwrap_or_default()`. -/
def clampI32 (index : Nat) : Int := if index < 2 ^ 31 then index else 0

/-- `call_idx` of an internal call: the sum is a 32-bit one. -/
def internalCallIdx (importFuncLen func : Nat) : Int :=
  Int.bmod (clampI32 func + importFuncLen) (2 ^ 32)

/-- The arms of `Executor::execute_instr` that neither call nor return. -/
def executeInstrLocal (env : Engine T) (op : Op) : LocalM T Unit :=
  match op with
  | .trap trapCode => executeTrap trapCode
  | .consumeFuel blockFuel => executeConsumeFuel blockFuel
  | .branch offset => executeBranch offset
  | .branchTable0 index lenTargets => executeBranchTable0 index lenTargets
  | .branchTable1 index lenTargets => executeBranchTable1 env index lenTargets
  | .branchTable2 index lenTargets => executeBranchTable2 env index lenTargets
  | .branchTable3 index lenTargets => executeBranchTable3 env index lenTargets
  | .branchTableSpan index lenTargets => executeBranchTableSpan env index lenTargets
  | .branchCmpFallback lhs rhs params => executeBranchCmpFallback env lhs rhs params
  | .branchCmp cmp lhs rhs offset => executeBranchBinop lhs rhs offset.toInt (cmp.eval env.float)
  | .branchCmpImm cmp lhs rhs offset =>
    executeBranchBinopImm lhs (rhs.toUntyped cmp.immType) offset.toInt cmp.eval
  | .copy result value => executeCopy result value
  | .copy2 results value0 value1 => executeCopy2 results value0 value1
  | .copyImm32 result value => executeCopyImm result (.ofI32 value)
  | .copyI64Imm32 result value => executeCopyImm result value.toI64
  | .copyF64Imm32 result value => executeCopyImm result (env.float.f64OfConst32 value)
  | .copySpan results values len => do
    executeCopySpanImpl results values len
    nextInstr
  | .copySpanNonOverlapping results values len => do
    executeCopySpanNonOverlappingImpl results values len
    nextInstr
  | .copyMany results value0 value1 =>
    executeCopyMany env results value0 value1 executeCopyManyImpl
  | .copyManyNonOverlapping results value0 value1 =>
    executeCopyMany env results value0 value1 executeCopyManyNonOverlappingImpl
  | .select result lhs => executeSelectRhsReg env result (getRegister lhs)
  | .selectImm32Rhs result lhs => executeSelectRhsImm env result (getRegister lhs) .ofI32
  | .selectImm32Lhs result lhs => executeSelectRhsReg env result (pure (.ofI32 lhs))
  | .selectImm32 result lhs => executeSelectRhsImm env result (pure (.ofI32 lhs)) .ofI32
  | .selectI64Imm32Rhs result lhs =>
    executeSelectRhsImm env result (getRegister lhs) AnyConst32.toI64
  | .selectI64Imm32Lhs result lhs => executeSelectRhsReg env result (pure lhs.toI64)
  | .selectI64Imm32 result lhs =>
    executeSelectRhsImm env result (pure lhs.toI64) AnyConst32.toI64
  | .selectF64Imm32Rhs result lhs =>
    executeSelectRhsImm env result (getRegister lhs) env.float.f64OfConst32
  | .selectF64Imm32Lhs result lhs =>
    executeSelectRhsReg env result (pure (env.float.f64OfConst32 lhs))
  | .selectF64Imm32 result lhs =>
    executeSelectRhsImm env result (pure (env.float.f64OfConst32 lhs)) env.float.f64OfConst32
  | .refFunc result func => executeRefFunc result func
  | .globalGet result global => executeGlobalGet result global
  | .globalSet input global => executeGlobalSet global input
  | .globalSetI32Imm16 input global => executeGlobalSetImpl global (input.toUntyped .i32)
  | .globalSetI64Imm16 input global => executeGlobalSetImpl global (input.toUntyped .i64)
  | .load op result memory => executeLoad env result memory op
  | .loadAt op result address => executeLoadAt env result address op
  | .loadOffset16 op result ptr offset => executeLoadOffset16 result ptr offset op
  | .store op ptr memory => executeStore env ptr memory op
  | .storeImm op ptr memory => executeStoreImm env ptr memory op
  | .storeOffset16 op ptr offset value => executeStoreOffset16 ptr offset (getRegister value) op
  | .storeOffset16Imm op ptr offset value =>
    executeStoreOffset16 ptr offset (pure (op.value value)) op.toStoreOp
  | .storeAt op value address => executeStoreAt env address (getRegister value) op
  | .storeAtImm op value address =>
    executeStoreAt env address (pure (op.value value)) op.toStoreOp
  | .unary op result input => executeUnary result input (op.eval env.float)
  | .tryUnary op result input => tryExecuteUnary result input (env.float.trunc op)
  | .binary op result lhs rhs => executeBinary result lhs rhs (op.eval env.float)
  | .tryBinary op result lhs rhs => tryExecuteBinary result lhs rhs op.eval
  | .binaryImm16 op result lhs rhs => executeUnary result lhs (op.eval · rhs)
  | .binaryImm16Lhs op result lhs rhs => executeUnary result rhs (op.eval lhs ·)
  | .shiftBy op result lhs rhs => executeUnary result lhs (op.eval · (rhs.toUntyped op.immType))
  | .divremImm16Rhs op result lhs rhs =>
    tryExecuteUnary result lhs (op.evalNonZero · (rhs.toUntyped op.immType))
  | .tryBinaryImm16Lhs op result lhs rhs =>
    tryExecuteUnary result rhs (op.eval (lhs.toUntyped op.immType) ·)
  | .copysignImm op result lhs rhsIsPositive =>
    executeUnary result lhs (op.eval env.float · rhsIsPositive)
  | .tableGet result index => executeTableGet env result index
  | .tableSize result table => executeTableSize result table
  | .tableSet index value => executeTableSet env index value
  | .tableCopy dst src len => executeTableCopy env dst src len
  | .tableInit dst src len => executeTableInit env dst src len
  | .tableFill dst len value => executeTableFill env dst len value
  | .tableGrow result delta value => executeTableGrow env result delta value
  | .elemDrop index => executeElementDrop index
  | .dataDrop index => executeDataDrop index
  | .memorySize result memory => executeMemorySize result memory
  | .memoryGrow result delta => executeMemoryGrow env result delta
  | .memoryCopy dst src len => executeMemoryCopy env dst src len
  | .memoryFill dst value len => executeMemoryFill env dst value len
  | .memoryInit dst src len => executeMemoryInit env dst src len
  | _ => invalidInstructionWord

/-- Runs an instruction that reports nothing but `Signal::Next`. -/
def nextSignal (x : ExecM T Unit) : ExecM T InstrReport := do
  x
  return {}

/-- `forward_return_dbg!`: a return always reports a popped frame, and does nothing once the call
stack is empty. -/
def forwardReturnDbg (x : ExecM T ControlFlow) : ExecM T InstrReport := do
  if (← get).stack.calls.frames.isEmpty then
    return { signal := .end_, isPopFrame := true }
  match ← x with
  | .break_ => return { signal := .end_, isPopFrame := true }
  | .continue_ => return { isPopFrame := true }

/-- `Executor::execute_instr`. -/
def executeInstr (env : Engine T) (importFuncLen : Nat) (op : Op) : ExecM T InstrReport :=
  match op with
  | .returnCallInternal0 func => nextSignal (executeReturnCallInternal env .returnCall0 func)
  | .returnCallInternal func => nextSignal (executeReturnCallInternal env .returnCall func)
  | .returnCallImported0 func => nextSignal (executeReturnCallImported env .returnCall0 func)
  | .returnCallImported func => nextSignal (executeReturnCallImported env .returnCall func)
  | .returnCallIndirect0 funcType =>
    nextSignal (executeReturnCallIndirect env .returnCall0 pullCallIndirectParams funcType)
  | .returnCallIndirect0Imm16 funcType =>
    nextSignal (executeReturnCallIndirect env .returnCall0 pullCallIndirectParamsImm16 funcType)
  | .returnCallIndirect funcType =>
    nextSignal (executeReturnCallIndirect env .returnCall pullCallIndirectParams funcType)
  | .returnCallIndirectImm16 funcType =>
    nextSignal (executeReturnCallIndirect env .returnCall pullCallIndirectParamsImm16 funcType)
  | .callInternal0 results func => do
    executeCallInternal env .nestedCall0 results func
    return { callIdx := internalCallIdx importFuncLen func }
  | .callInternal results func => do
    executeCallInternal env .nestedCall results func
    return { callIdx := internalCallIdx importFuncLen func }
  | .callImported0 results func => nextSignal (executeCallImported env .nestedCall0 results func)
  | .callImported results func => nextSignal (executeCallImported env .nestedCall results func)
  | .callIndirect0 results funcType => do
    let (index, table) ←
      executeCallIndirect env .nestedCall0 pullCallIndirectParams results funcType
    return { callIdx := clampI32 index, tableIdx := some table }
  | .callIndirect0Imm16 results funcType => do
    let (index, table) ←
      executeCallIndirect env .nestedCall0 pullCallIndirectParamsImm16 results funcType
    return { callIdx := clampI32 index, tableIdx := some table }
  | .callIndirect results funcType => do
    let (index, table) ←
      executeCallIndirect env .nestedCall pullCallIndirectParams results funcType
    return { callIdx := clampI32 index, tableIdx := some table }
  | .callIndirectImm16 results funcType => do
    let (index, table) ←
      executeCallIndirect env .nestedCall pullCallIndirectParamsImm16 results funcType
    return { callIdx := clampI32 index, tableIdx := some table }
  | .branchTableMany index lenTargets => nextSignal (executeBranchTableMany env index lenTargets)
  | op =>
    if op.isReturn then forwardReturnDbg (executeReturn env op)
    else nextSignal (stepLocal (executeInstrLocal env op))

end Executor

end MotokoDebugger
