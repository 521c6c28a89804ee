import MotokoDebugger.Ir.Instruction

/-!
# Comparators of the translator

`translator/comparator.rs`, and the packing of a comparator with a branch offset in
`ir/src/primitive.rs`.

* `Comparator.fromCmpInstruction`, `Comparator.negate`, `Comparator.branchCmpInstrImm`: the tables
  that take a comparison to a conditional branch.
* `fromCmpInstruction_binary`, `eval_negate`: what the tables preserve.
* `ComparatorAndOffset.fromUntyped_asU64`: what is left of a packed pair.
-/

namespace MotokoDebugger

/-! ## Tables -/

/-- The operators of `ComparatorExt::from_cmp_instruction` that are no comparisons. -/
def ArithOp.bitTest : ArithOp → Option BitTest
  | .i32And => some .i32And
  | .i32Or => some .i32Or
  | .i32Xor => some .i32Xor
  | .i32AndEqz => some .i32AndEqz
  | .i32OrEqz => some .i32OrEqz
  | .i32XorEqz => some .i32XorEqz
  | .i32Add | .i32Mul | .i64Add | .i64Mul | .i64And | .i64Or | .i64Xor => none

def ImmComparator.toComparator : ImmComparator → Comparator
  | .int op => .int op
  | .bits op => .bits op

def BinaryOp.comparator : BinaryOp → Option Comparator
  | .compare op => some (.int op)
  | .arith op => op.bitTest.map .bits
  | .floatCompare op => some (.float op)
  | .sub _ | .shift _ | .float _ => none

def BinaryImm16Op.comparator : BinaryImm16Op → Option Comparator
  | .compare op => some (.int op)
  | .arith op => op.bitTest.map .bits

/-- The type of the immediate of a comparison. -/
def BinaryImm16Op.immType : BinaryImm16Op → ImmType
  | .compare op => op.immType
  | .arith op => op.immType

/-- `Comparator::from_cmp_instruction`. -/
def Comparator.fromCmpInstruction : Op → Option Comparator
  | .binary op _ _ _ => op.comparator
  | .binaryImm16 op _ _ _ => op.comparator
  | _ => none

/-- `Comparator::from_cmp_branch_instruction`. -/
def Comparator.fromCmpBranchInstruction : Op → Option Comparator
  | .branchCmp cmp _ _ _ => some cmp
  | .branchCmpImm cmp _ _ _ => some cmp.toComparator
  | _ => none

def IntComparison.negate : IntComparison → IntComparison
  | .i32Eq => .i32Ne
  | .i32Ne => .i32Eq
  | .i32LtS => .i32GeS
  | .i32LtU => .i32GeU
  | .i32LeS => .i32GtS
  | .i32LeU => .i32GtU
  | .i32GtS => .i32LeS
  | .i32GtU => .i32LeU
  | .i32GeS => .i32LtS
  | .i32GeU => .i32LtU
  | .i64Eq => .i64Ne
  | .i64Ne => .i64Eq
  | .i64LtS => .i64GeS
  | .i64LtU => .i64GeU
  | .i64LeS => .i64GtS
  | .i64LeU => .i64GtU
  | .i64GtS => .i64LeS
  | .i64GtU => .i64LeU
  | .i64GeS => .i64LtS
  | .i64GeU => .i64LtU

def BitTest.negate : BitTest → BitTest
  | .i32And => .i32AndEqz
  | .i32Or => .i32OrEqz
  | .i32Xor => .i32XorEqz
  | .i32AndEqz => .i32And
  | .i32OrEqz => .i32Or
  | .i32XorEqz => .i32Xor

/-- `Comparator::negate`. The orders of floating point values have no negation, as NaN is
unordered. -/
def Comparator.negate : Comparator → Option Comparator
  | .int op => some (.int op.negate)
  | .bits op => some (.bits op.negate)
  | .float .f32Eq => some (.float .f32Ne)
  | .float .f32Ne => some (.float .f32Eq)
  | .float .f64Eq => some (.float .f64Ne)
  | .float .f64Ne => some (.float .f64Eq)
  | .float _ => none

/-- `ComparatorExtImm::branch_cmp_instr_imm` for an immediate of the type. -/
def Comparator.branchCmpInstrImm (ty : ImmType) : Comparator → Option ImmComparator
  | .int op => if op.immType = ty then some (.int op) else none
  | .bits op => if ty = .i32 then some (.bits op) else none
  | .float _ => none

/-! ## What the tables preserve -/

open UntypedVal

@[simp] lemma toI32_ofI32 (value : BitVec 32) : (ofI32 value).toI32 = value := by
  simp [ofI32, toI32]

/-- A condition is the value of a comparison, tested against zero. -/
@[simp] lemma toI32_ofBool (b : Bool) : (ofBool b).toI32 = 0#32 ↔ b = false := by
  cases b <;> decide

/-- The result of an operator in the table is zero where its comparator does not hold. -/
lemma bitTest_eval {op : ArithOp} {test : BitTest} (h : op.bitTest = some test)
    (lhs rhs : UntypedVal) : (op.eval lhs rhs).toI32 = 0 ↔ test.eval lhs rhs = false := by
  cases op <;> simp only [ArithOp.bitTest, Option.some.injEq, reduceCtorEq] at h <;> subst h <;>
    simp [ArithOp.eval, BitTest.eval, lift32]

/-- A comparison writes zero iff its comparator does not hold. -/
lemma fromCmpInstruction_binary {op : BinaryOp} {cmp : Comparator} (h : op.comparator = some cmp)
    (float : FloatOps) (lhs rhs : UntypedVal) :
    (op.eval float lhs rhs).toI32 = 0 ↔ cmp.eval float lhs rhs = false := by
  cases op with
  | arith op =>
    obtain ⟨test, htest, rfl⟩ := Option.map_eq_some_iff.1 h
    exact bitTest_eval htest lhs rhs
  | compare op =>
    obtain rfl := Option.some.inj h
    exact toI32_ofBool _
  | floatCompare op =>
    obtain rfl := Option.some.inj h
    exact toI32_ofBool _
  | sub op => simp [BinaryOp.comparator] at h
  | shift op => simp [BinaryOp.comparator] at h
  | float op => simp [BinaryOp.comparator] at h

/-- The same with an immediate operand. -/
lemma fromCmpInstruction_imm {op : BinaryImm16Op} {cmp : Comparator}
    (h : op.comparator = some cmp) (float : FloatOps) (lhs : UntypedVal) (rhs : Const16) :
    (op.eval lhs rhs).toI32 = 0 ↔ cmp.eval float lhs (rhs.toUntyped op.immType) = false := by
  cases op with
  | arith op =>
    obtain ⟨test, htest, rfl⟩ := Option.map_eq_some_iff.1 h
    exact bitTest_eval htest lhs _
  | compare op =>
    obtain rfl := Option.some.inj h
    exact toI32_ofBool _

/-- On floating point values `!=` is the negation of `==`, also for NaN. -/
structure FloatOps.NeIsNotEq (float : FloatOps) : Prop where
  f32 (lhs rhs : UntypedVal) : float.compare .f32Ne lhs rhs = !float.compare .f32Eq lhs rhs
  f64 (lhs rhs : UntypedVal) : float.compare .f64Ne lhs rhs = !float.compare .f64Eq lhs rhs

lemma IntComparison.eval_negate (op : IntComparison) (lhs rhs : UntypedVal) :
    op.negate.eval lhs rhs = !op.eval lhs rhs := by
  cases op <;> simp [IntComparison.negate, IntComparison.eval, BitVec.sle_eq_not_slt,
    BitVec.ule_eq_not_ult]

lemma BitTest.eval_negate (test : BitTest) (lhs rhs : UntypedVal) :
    test.negate.eval lhs rhs = !test.eval lhs rhs := by
  cases test <;> simp [BitTest.negate, BitTest.eval]

lemma Comparator.eval_negate {cmp negated : Comparator} (h : cmp.negate = some negated)
    {float : FloatOps} (hfloat : float.NeIsNotEq) (lhs rhs : UntypedVal) :
    negated.eval float lhs rhs = !cmp.eval float lhs rhs := by
  cases cmp with
  | int op =>
    obtain rfl := Option.some.inj h
    exact op.eval_negate lhs rhs
  | bits test =>
    obtain rfl := Option.some.inj h
    exact test.eval_negate lhs rhs
  | float op =>
    cases op <;> simp only [Comparator.negate, Option.some.injEq, reduceCtorEq] at h <;> subst h <;>
      simp [Comparator.eval, hfloat.f32, hfloat.f64]

lemma IntComparison.immType_negate (op : IntComparison) : op.negate.immType = op.immType := by
  cases op <;> rfl

lemma ArithOp.immType_of_bitTest {op : ArithOp} {test : BitTest} (h : op.bitTest = some test) :
    op.immType = .i32 := by
  cases op <;> first | rfl | simp [ArithOp.bitTest] at h

/-! ## Packed comparators and offsets -/

/-- `ComparatorAndOffset::as_u64`: the conjunction of the shifted comparator with the sign-extended
offset. -/
def ComparatorAndOffset.asU64 (params : ComparatorAndOffset) : UntypedVal :=
  let hi : BitVec 64 := BitVec.ofNat 64 (Comparator.all.idxOf params.cmp)
  let lo : BitVec 64 := params.offset.toBitVec.signExtend 64
  hi <<< 32 &&& lo

lemma Comparator.getElem_idxOf (cmp : Comparator) : Comparator.all[Comparator.all.idxOf cmp]? = some cmp := by
  cases cmp with
  | int op => cases op <;> rfl
  | bits op => cases op <;> rfl
  | float op => cases op <;> rfl

lemma Comparator.idxOf_lt (cmp : Comparator) : Comparator.all.idxOf cmp < 38 :=
  (List.getElem?_eq_some_iff.1 cmp.getElem_idxOf).1

/-- An offset that is not negative wipes out the comparator, every other one its own bits. -/
lemma ComparatorAndOffset.asU64_eq (params : ComparatorAndOffset) :
    params.asU64 = if params.offset.toInt < 0 then
      BitVec.ofNat 64 (Comparator.all.idxOf params.cmp) <<< 32 else 0 := by
  have hmsb : params.offset.toBitVec.msb = decide (params.offset.toInt < 0) := by
    rw [BitVec.msb_eq_toInt]
    rfl
  apply BitVec.eq_of_getLsbD_eq
  intro i hi
  rw [asU64, BitVec.getLsbD_and, BitVec.getLsbD_signExtend, BitVec.getLsbD_shiftLeft, hmsb]
  by_cases hneg : params.offset.toInt < 0
  · rw [if_pos hneg, BitVec.getLsbD_shiftLeft]
    by_cases hlow : i < 32 <;> simp [hlow, hneg, hi]
  · rw [if_neg hneg]
    by_cases hlow : i < 32 <;> simp [hlow, hneg]

/-- Unpacking loses every offset, and the comparator unless the offset is negative. -/
lemma ComparatorAndOffset.fromUntyped_asU64 (params : ComparatorAndOffset) :
    fromUntyped params.asU64 =
      some ⟨if params.offset.toInt < 0 then params.cmp else .int .i32Eq, 0⟩ := by
  rw [asU64_eq]
  split
  case isTrue =>
    have hlt := params.cmp.idxOf_lt
    have hindex : (BitVec.ofNat 64 (Comparator.all.idxOf params.cmp) <<< 32 >>> 32).toNat =
        Comparator.all.idxOf params.cmp := by
      rw [BitVec.toNat_ushiftRight, BitVec.toNat_shiftLeft, BitVec.toNat_ofNat]
      omega
    have hlow : toI32 (BitVec.ofNat 64 (Comparator.all.idxOf params.cmp) <<< 32) = 0 := by
      apply BitVec.eq_of_toNat_eq
      show (BitVec.setWidth 32 _).toNat = 0
      rw [BitVec.toNat_setWidth, BitVec.toNat_shiftLeft, BitVec.toNat_ofNat]
      omega
    rw [fromUntyped, hindex, params.cmp.getElem_idxOf, hlow]
    rfl
  case isFalse => rfl

/-- A packed pair is read back iff it is the comparator `I32Eq` with the offset 0. -/
lemma ComparatorAndOffset.fromUntyped_asU64_iff (params : ComparatorAndOffset) :
    fromUntyped params.asU64 = some params ↔ params = ⟨.int .i32Eq, 0⟩ := by
  rw [fromUntyped_asU64, Option.some.injEq]
  constructor
  · intro h
    have hoffset : params.offset = 0 := by rw [← h]
    rw [hoffset] at h
    exact h.symm
  · intro h
    rw [h]
    rfl

end MotokoDebugger
