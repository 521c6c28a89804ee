import MotokoDebugger.Ir.Instruction

/-!
# Visitors of registers

`ir/src/visit_regs.rs` as the translator uses it.

* `Op.relinkResult`: `translator/relink_result.rs`, which gives the result of an instruction another
  register.
* `Op.visitInputRegisters`: `translator/visit_register.rs`, which applies a function to the inputs.
-/

namespace MotokoDebugger

namespace Op

/-- The register that `visit_result_reg` visits. -/
def resultReg : Op → Option Reg
  | .copy result _ | .copyImm32 result _ | .copyI64Imm32 result _ | .copyF64Imm32 result _
  | .select result _ | .selectImm32Rhs result _ | .selectImm32Lhs result _ | .selectImm32 result _
  | .selectI64Imm32Rhs result _ | .selectI64Imm32Lhs result _ | .selectI64Imm32 result _
  | .selectF64Imm32Rhs result _ | .selectF64Imm32Lhs result _ | .selectF64Imm32 result _
  | .refFunc result _ | .globalGet result _
  | .load _ result _ | .loadAt _ result _ | .loadOffset16 _ result _ _
  | .unary _ result _ | .tryUnary _ result _ | .binary _ result _ _ | .tryBinary _ result _ _
  | .binaryImm16 _ result _ _ | .binaryImm16Lhs _ result _ _ | .shiftBy _ result _ _
  | .divremImm16Rhs _ result _ _ | .tryBinaryImm16Lhs _ result _ _ | .copysignImm _ result _ _
  | .tableGet result _ | .tableSize result _ | .tableGrow result _ _
  | .memorySize result _ | .memoryGrow result _ => some result
  | _ => none

/-- The results of a call that returns. -/
def callResults : Op → Option RegSpan
  | .callInternal0 results _ | .callInternal results _ | .callImported0 results _
  | .callImported results _ | .callIndirect0 results _ | .callIndirect0Imm16 results _
  | .callIndirect results _ | .callIndirectImm16 results _ => some results
  | _ => none

/-- The instruction with another result. -/
def setResult (reg : Reg) : Op → Op
  | .copy _ value => .copy reg value
  | .copyImm32 _ value => .copyImm32 reg value
  | .copyI64Imm32 _ value => .copyI64Imm32 reg value
  | .copyF64Imm32 _ value => .copyF64Imm32 reg value
  | .select _ lhs => .select reg lhs
  | .selectImm32Rhs _ lhs => .selectImm32Rhs reg lhs
  | .selectImm32Lhs _ lhs => .selectImm32Lhs reg lhs
  | .selectImm32 _ lhs => .selectImm32 reg lhs
  | .selectI64Imm32Rhs _ lhs => .selectI64Imm32Rhs reg lhs
  | .selectI64Imm32Lhs _ lhs => .selectI64Imm32Lhs reg lhs
  | .selectI64Imm32 _ lhs => .selectI64Imm32 reg lhs
  | .selectF64Imm32Rhs _ lhs => .selectF64Imm32Rhs reg lhs
  | .selectF64Imm32Lhs _ lhs => .selectF64Imm32Lhs reg lhs
  | .selectF64Imm32 _ lhs => .selectF64Imm32 reg lhs
  | .refFunc _ func => .refFunc reg func
  | .globalGet _ global => .globalGet reg global
  | .load op _ memory => .load op reg memory
  | .loadAt op _ address => .loadAt op reg address
  | .loadOffset16 op _ ptr offset => .loadOffset16 op reg ptr offset
  | .unary op _ input => .unary op reg input
  | .tryUnary op _ input => .tryUnary op reg input
  | .binary op _ lhs rhs => .binary op reg lhs rhs
  | .tryBinary op _ lhs rhs => .tryBinary op reg lhs rhs
  | .binaryImm16 op _ lhs rhs => .binaryImm16 op reg lhs rhs
  | .binaryImm16Lhs op _ lhs rhs => .binaryImm16Lhs op reg lhs rhs
  | .shiftBy op _ lhs rhs => .shiftBy op reg lhs rhs
  | .divremImm16Rhs op _ lhs rhs => .divremImm16Rhs op reg lhs rhs
  | .tryBinaryImm16Lhs op _ lhs rhs => .tryBinaryImm16Lhs op reg lhs rhs
  | .copysignImm op _ lhs rhsIsPositive => .copysignImm op reg lhs rhsIsPositive
  | .tableGet _ index => .tableGet reg index
  | .tableSize _ table => .tableSize reg table
  | .tableGrow _ delta value => .tableGrow reg delta value
  | .memorySize _ memory => .memorySize reg memory
  | .memoryGrow _ delta => .memoryGrow reg delta
  | .callInternal0 _ func => .callInternal0 ⟨reg⟩ func
  | .callInternal _ func => .callInternal ⟨reg⟩ func
  | .callImported0 _ func => .callImported0 ⟨reg⟩ func
  | .callImported _ func => .callImported ⟨reg⟩ func
  | .callIndirect0 _ funcType => .callIndirect0 ⟨reg⟩ funcType
  | .callIndirect0Imm16 _ funcType => .callIndirect0Imm16 ⟨reg⟩ funcType
  | .callIndirect _ funcType => .callIndirect ⟨reg⟩ funcType
  | .callIndirectImm16 _ funcType => .callIndirectImm16 ⟨reg⟩ funcType
  | op => op

/-- `relink_result`. Calls are relinked if their function has one result; `lenResults` looks that up
in the module. -/
def relinkResult (lenResults : Op → Nat) (newResult oldResult : Reg) (op : Op) : Option Op :=
  match op.callResults, op.resultReg with
  | some results, _ =>
    if lenResults op = 1 ∧ results.head = oldResult then some (op.setResult newResult) else none
  | none, some result => if result = oldResult then some (op.setResult newResult) else none
  | none, none => none

end Op

/-! ## Input registers -/

def RegSpan.mapHead (f : Reg → Reg) (span : RegSpan) : RegSpan := ⟨f span.head⟩

def BoundedRegSpan.mapHead (f : Reg → Reg) (span : BoundedRegSpan) : BoundedRegSpan :=
  ⟨span.span.mapHead f, span.len⟩

def Operand.mapReg (f : Reg → Reg) : Operand → Operand
  | .reg input => .reg (f input)
  | .imm value => .imm value

def ByteOperand.mapReg (f : Reg → Reg) : ByteOperand → ByteOperand
  | .reg input => .reg (f input)
  | .imm value => .imm value

def DeltaOperand.mapReg (f : Reg → Reg) : DeltaOperand → DeltaOperand
  | .reg input => .reg (f input)
  | .imm value => .imm value

/-- `visit_input_registers`. Copies are visited together with their results, which may be preserved
registers. -/
def Op.visitInputRegisters (f : Reg → Reg) : Op → Op
  | .returnReg value => .returnReg (f value)
  | .returnReg2 value0 value1 => .returnReg2 (f value0) (f value1)
  | .returnReg3 value0 value1 value2 => .returnReg3 (f value0) (f value1) (f value2)
  | .returnSpan values => .returnSpan (values.mapHead f)
  | .returnMany value0 value1 value2 => .returnMany (f value0) (f value1) (f value2)
  | .returnNez condition => .returnNez (f condition)
  | .returnNezReg condition value => .returnNezReg (f condition) (f value)
  | .returnNezReg2 condition value0 value1 => .returnNezReg2 (f condition) (f value0) (f value1)
  | .returnNezImm32 condition value => .returnNezImm32 (f condition) value
  | .returnNezI64Imm32 condition value => .returnNezI64Imm32 (f condition) value
  | .returnNezF64Imm32 condition value => .returnNezF64Imm32 (f condition) value
  | .returnNezSpan condition values => .returnNezSpan (f condition) (values.mapHead f)
  | .returnNezMany condition value0 value1 => .returnNezMany (f condition) (f value0) (f value1)
  | .branchTable0 index lenTargets => .branchTable0 (f index) lenTargets
  | .branchTable1 index lenTargets => .branchTable1 (f index) lenTargets
  | .branchTable2 index lenTargets => .branchTable2 (f index) lenTargets
  | .branchTable3 index lenTargets => .branchTable3 (f index) lenTargets
  | .branchTableSpan index lenTargets => .branchTableSpan (f index) lenTargets
  | .branchTableMany index lenTargets => .branchTableMany (f index) lenTargets
  | .branchCmpFallback lhs rhs params => .branchCmpFallback (f lhs) (f rhs) (f params)
  | .branchCmp cmp lhs rhs offset => .branchCmp cmp (f lhs) (f rhs) offset
  | .branchCmpImm cmp lhs rhs offset => .branchCmpImm cmp (f lhs) rhs offset
  | .copy result value => .copy (f result) (f value)
  | .copy2 results value0 value1 => .copy2 (results.mapHead f) (f value0) (f value1)
  | .copySpan results values len => .copySpan (results.mapHead f) (values.mapHead f) len
  | .copySpanNonOverlapping results values len =>
    .copySpanNonOverlapping (results.mapHead f) (values.mapHead f) len
  | .copyMany results value0 value1 => .copyMany (results.mapHead f) (f value0) (f value1)
  | .copyManyNonOverlapping results value0 value1 =>
    .copyManyNonOverlapping (results.mapHead f) (f value0) (f value1)
  | .select result lhs => .select result (f lhs)
  | .selectImm32Rhs result lhs => .selectImm32Rhs result (f lhs)
  | .selectI64Imm32Rhs result lhs => .selectI64Imm32Rhs result (f lhs)
  | .selectF64Imm32Rhs result lhs => .selectF64Imm32Rhs result (f lhs)
  | .globalSet input global => .globalSet (f input) global
  | .loadOffset16 op result ptr offset => .loadOffset16 op result (f ptr) offset
  | .store op ptr memory => .store op (f ptr) memory
  | .storeImm op ptr memory => .storeImm op (f ptr) memory
  | .storeOffset16 op ptr offset value => .storeOffset16 op (f ptr) offset (f value)
  | .storeOffset16Imm op ptr offset value => .storeOffset16Imm op (f ptr) offset value
  | .storeAt op value address => .storeAt op (f value) address
  | .unary op result input => .unary op result (f input)
  | .tryUnary op result input => .tryUnary op result (f input)
  | .binary op result lhs rhs => .binary op result (f lhs) (f rhs)
  | .tryBinary op result lhs rhs => .tryBinary op result (f lhs) (f rhs)
  | .binaryImm16 op result lhs rhs => .binaryImm16 op result (f lhs) rhs
  | .binaryImm16Lhs op result lhs rhs => .binaryImm16Lhs op result lhs (f rhs)
  | .shiftBy op result lhs rhs => .shiftBy op result (f lhs) rhs
  | .divremImm16Rhs op result lhs rhs => .divremImm16Rhs op result (f lhs) rhs
  | .tryBinaryImm16Lhs op result lhs rhs => .tryBinaryImm16Lhs op result lhs (f rhs)
  | .copysignImm op result lhs rhsIsPositive => .copysignImm op result (f lhs) rhsIsPositive
  | .tableGet result index => .tableGet result (index.mapReg f)
  | .tableSet index value => .tableSet (index.mapReg f) (f value)
  | .tableCopy dst src len => .tableCopy (dst.mapReg f) (src.mapReg f) (len.mapReg f)
  | .tableInit dst src len => .tableInit (dst.mapReg f) (src.mapReg f) (len.mapReg f)
  | .tableFill dst len value => .tableFill (dst.mapReg f) (len.mapReg f) (f value)
  | .tableGrow result delta value => .tableGrow result (delta.mapReg f) (f value)
  | .memoryGrow result delta => .memoryGrow result (delta.mapReg f)
  | .memoryCopy dst src len => .memoryCopy (dst.mapReg f) (src.mapReg f) (len.mapReg f)
  | .memoryFill dst value len => .memoryFill (dst.mapReg f) (value.mapReg f) (len.mapReg f)
  | .memoryInit dst src len => .memoryInit (dst.mapReg f) (src.mapReg f) (len.mapReg f)
  | .branchTableTarget results offset => .branchTableTarget (results.mapHead f) offset
  | .branchTableTargetNonOverlapping results offset =>
    .branchTableTargetNonOverlapping (results.mapHead f) offset
  | .registerAndImm32 reg imm => .registerAndImm32 (f reg) imm
  | .registerSpan span => .registerSpan (span.mapHead f)
  | .register reg => .register (f reg)
  | .register2 reg0 reg1 => .register2 (f reg0) (f reg1)
  | .register3 reg0 reg1 reg2 => .register3 (f reg0) (f reg1) (f reg2)
  | .registerList reg0 reg1 reg2 => .registerList (f reg0) (f reg1) (f reg2)
  | .callIndirectParams index table => .callIndirectParams (f index) table
  | op => op

/-- `visit_input_registers` visits the register: with another one in its place the instruction is
another one. -/
def Op.Uses (op : Op) (reg : Reg) : Prop :=
  op.visitInputRegisters (fun input => if input = reg then reg + 1 else input) ≠ op

instance (op : Op) (reg : Reg) : Decidable (op.Uses reg) := inferInstanceAs (Decidable (_ ≠ _))

end MotokoDebugger
