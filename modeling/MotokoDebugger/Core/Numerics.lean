import MotokoDebugger.Core.Untyped
import Mathlib.Algebra.Group.Nat.Defs
import Mathlib.Tactic.Common

/-!
# The integer operators of Wasm

The binary integer operators at any width, by the signed and unsigned values of their operands.

* `IntBinop`, `IntRelop`: the operators that return an integer, and the comparisons.
* `IntType`: the two integer types, with the cells of their values.
* `IntBinop.eval_divS`, `IntRelop.eval_ltS` and so on: the operations on bit vectors that these are.
* `ArithOp.eval_ofInt` and so on: the operators on cells compute them.
-/

namespace MotokoDebugger

/-! ## Operators by their values -/

/-- The binary operators that return an integer. -/
inductive IntBinop where
  | add | sub | mul | divS | divU | remS | remU | and | or | xor | shl | shrS | shrU | rotl | rotr
deriving Repr, DecidableEq

/-- The comparisons. -/
inductive IntRelop where
  | eq | ne | ltS | ltU | gtS | gtU | leS | leU | geS | geU
deriving Repr, DecidableEq

/-- The result of a binary operator. Arithmetic is modulo the width, as are the amounts of shifts;
a quotient is rounded towards zero. -/
def IntBinop.eval {w : Nat} (op : IntBinop) (a b : BitVec w) : Except TrapCode (BitVec w) :=
  match op with
  | .add => .ok (.ofInt w (a.toInt + b.toInt))
  | .sub => .ok (.ofInt w (a.toInt - b.toInt))
  | .mul => .ok (.ofInt w (a.toInt * b.toInt))
  | .divS =>
    if b.toInt = 0 then .error .integerDivisionByZero
    else if a.toInt.tdiv b.toInt = 2 ^ (w - 1) then .error .integerOverflow
    else .ok (.ofInt w (a.toInt.tdiv b.toInt))
  | .divU =>
    if b.toNat = 0 then .error .integerDivisionByZero else .ok (.ofNat w (a.toNat / b.toNat))
  | .remS =>
    if b.toInt = 0 then .error .integerDivisionByZero else .ok (.ofInt w (a.toInt.tmod b.toInt))
  | .remU =>
    if b.toNat = 0 then .error .integerDivisionByZero else .ok (.ofNat w (a.toNat % b.toNat))
  | .and => .ok (a &&& b)
  | .or => .ok (a ||| b)
  | .xor => .ok (a ^^^ b)
  | .shl => .ok (.ofNat w (a.toNat * 2 ^ (b.toNat % w)))
  | .shrS => .ok (.ofInt w (a.toInt / 2 ^ (b.toNat % w)))
  | .shrU => .ok (.ofNat w (a.toNat / 2 ^ (b.toNat % w)))
  | .rotl => .ok (a.rotateLeft (b.toNat % w))
  | .rotr => .ok (a.rotateRight (b.toNat % w))

/-- The result of a comparison. -/
def IntRelop.eval {w : Nat} (op : IntRelop) (a b : BitVec w) : Bool :=
  match op with
  | .eq => a = b
  | .ne => a ≠ b
  | .ltS => a.toInt < b.toInt
  | .ltU => a.toNat < b.toNat
  | .gtS => a.toInt > b.toInt
  | .gtU => a.toNat > b.toNat
  | .leS => a.toInt ≤ b.toInt
  | .leU => a.toNat ≤ b.toNat
  | .geS => a.toInt ≥ b.toInt
  | .geU => a.toNat ≥ b.toNat

/-! ## The operations on bit vectors -/

section BitVec

variable {w : Nat} (a b : BitVec w)

namespace IntBinop

@[simp] lemma eval_add : add.eval a b = .ok (a + b) := by
  rw [eval, BitVec.ofInt_add, BitVec.ofInt_toInt, BitVec.ofInt_toInt]

@[simp] lemma eval_mul : mul.eval a b = .ok (a * b) := by
  rw [eval, BitVec.ofInt_mul, BitVec.ofInt_toInt, BitVec.ofInt_toInt]

@[simp] lemma eval_sub : sub.eval a b = .ok (a - b) := by
  rw [eval, Int.sub_eq_add_neg, BitVec.ofInt_add, BitVec.ofInt_neg, BitVec.ofInt_toInt,
    BitVec.ofInt_toInt, BitVec.sub_eq_add_neg]

@[simp] lemma eval_and : and.eval a b = .ok (a &&& b) := rfl
@[simp] lemma eval_or : or.eval a b = .ok (a ||| b) := rfl
@[simp] lemma eval_xor : xor.eval a b = .ok (a ^^^ b) := rfl

@[simp] lemma eval_shl : shl.eval a b = .ok (a <<< (b.toNat % w)) := by
  have h : BitVec.ofNat w (a.toNat * 2 ^ (b.toNat % w)) = a <<< (b.toNat % w) := by
    apply BitVec.eq_of_toNat_eq
    rw [BitVec.toNat_ofNat, BitVec.toNat_shiftLeft, Nat.shiftLeft_eq]
  rw [eval, h]

@[simp] lemma eval_shrU : shrU.eval a b = .ok (a >>> (b.toNat % w)) := by
  have h : BitVec.ofNat w (a.toNat / 2 ^ (b.toNat % w)) = a >>> (b.toNat % w) := by
    apply BitVec.eq_of_toNat_eq
    have hlt : a.toNat / 2 ^ (b.toNat % w) < 2 ^ w :=
      Nat.lt_of_le_of_lt (Nat.div_le_self _ _) a.isLt
    rw [BitVec.toNat_ofNat, Nat.mod_eq_of_lt hlt, BitVec.toNat_ushiftRight,
      Nat.shiftRight_eq_div_pow]
  rw [eval, h]

@[simp] lemma eval_shrS : shrS.eval a b = .ok (a.sshiftRight (b.toNat % w)) := by
  have h : BitVec.ofInt w (a.toInt / 2 ^ (b.toNat % w)) = a.sshiftRight (b.toNat % w) := by
    rw [← BitVec.ofInt_toInt (x := a.sshiftRight (b.toNat % w)), BitVec.toInt_sshiftRight,
      Int.shiftRight_eq_div_pow]
    push_cast
    rfl
  rw [eval, h]

lemma toNat_eq_zero {b : BitVec w} : b.toNat = 0 ↔ b = 0 := by
  rw [BitVec.toNat_eq]
  rfl

lemma toInt_eq_zero {b : BitVec w} : b.toInt = 0 ↔ b = 0 := by
  rw [← BitVec.toInt_inj]
  simp

@[simp] lemma eval_divU : divU.eval a b = MotokoDebugger.divU a b := by
  have hdiv : BitVec.ofNat w (a.toNat / b.toNat) = a / b := by
    apply BitVec.eq_of_toNat_eq
    have hlt : a.toNat / b.toNat < 2 ^ w := Nat.lt_of_le_of_lt (Nat.div_le_self _ _) a.isLt
    rw [BitVec.toNat_ofNat, Nat.mod_eq_of_lt hlt, BitVec.toNat_udiv]
  simp only [eval, MotokoDebugger.divU, toNat_eq_zero, hdiv]

@[simp] lemma eval_remU : remU.eval a b = MotokoDebugger.remU a b := by
  have hmod : BitVec.ofNat w (a.toNat % b.toNat) = a % b := by
    apply BitVec.eq_of_toNat_eq
    have hlt : a.toNat % b.toNat < 2 ^ w := Nat.lt_of_le_of_lt (Nat.mod_le _ _) a.isLt
    rw [BitVec.toNat_ofNat, Nat.mod_eq_of_lt hlt, BitVec.toNat_umod]
  simp only [eval, MotokoDebugger.remU, toNat_eq_zero, hmod]

/-- The only quotient that overflows is that of the least value by `-1`. -/
lemma tdiv_eq_iff {a b : BitVec w} (h : b ≠ 0) :
    a.toInt.tdiv b.toInt = 2 ^ (w - 1) ↔ a.sdivOverflow b = true := by
  have hw : 0 < w := by
    apply Nat.pos_of_ne_zero
    rintro rfl
    exact h (BitVec.of_length_zero)
  have hoverflow : a.sdivOverflow b = true ↔ a = BitVec.intMin w ∧ b = -1#w := by
    rw [BitVec.sdivOverflow_eq, ← BitVec.neg_one_eq_allOnes]
    simp [hw]
  rw [hoverflow]
  by_cases hmin : a = BitVec.intMin w ∧ b = -1#w
  · obtain ⟨rfl, rfl⟩ := hmin
    have hneg : (-1#w).toInt = -1 := by
      rw [BitVec.neg_one_eq_allOnes, BitVec.toInt_allOnes, if_pos hw]
    simp [hneg, BitVec.toInt_intMin_of_pos hw]
  · have hdiv := BitVec.toInt_sdiv_of_ne_or_ne a b (by
      rwa [not_and_or] at hmin)
    have hlt : (a.sdiv b).toInt < 2 ^ (w - 1) := BitVec.toInt_lt
    rw [← hdiv]
    simp only [hmin, iff_false]
    omega

@[simp] lemma eval_divS : divS.eval a b = MotokoDebugger.divS a b := by
  have hdiv : BitVec.ofInt w (a.toInt.tdiv b.toInt) = a.sdiv b := by
    apply BitVec.eq_of_toInt_eq
    rw [BitVec.toInt_ofInt, BitVec.toInt_sdiv]
  by_cases h : b = 0
  · simp only [eval, MotokoDebugger.divS, toInt_eq_zero, h, if_true]
  · simp only [eval, MotokoDebugger.divS, toInt_eq_zero, h, if_false, tdiv_eq_iff h, hdiv]

@[simp] lemma eval_remS : remS.eval a b = MotokoDebugger.remS a b := by
  have hmod : BitVec.ofInt w (a.toInt.tmod b.toInt) = a.srem b := by
    rw [← BitVec.toInt_srem, BitVec.ofInt_toInt]
  simp only [eval, MotokoDebugger.remS, toInt_eq_zero, hmod]

@[simp] lemma eval_rotl : rotl.eval a b = .ok (a.rotateLeft b.toNat) := by
  rw [eval, BitVec.rotateLeft_mod_eq_rotateLeft]

@[simp] lemma eval_rotr : rotr.eval a b = .ok (a.rotateRight b.toNat) := by
  rw [eval, BitVec.rotateRight_mod_eq_rotateRight]

end IntBinop

namespace IntRelop

@[simp] lemma eval_eq : eq.eval a b = decide (a = b) := rfl
@[simp] lemma eval_ne : ne.eval a b = decide (a ≠ b) := rfl
@[simp] lemma eval_ltS : ltS.eval a b = a.slt b := rfl
@[simp] lemma eval_ltU : ltU.eval a b = a.ult b := rfl
@[simp] lemma eval_gtS : gtS.eval a b = b.slt a := rfl
@[simp] lemma eval_gtU : gtU.eval a b = b.ult a := rfl
@[simp] lemma eval_leS : leS.eval a b = a.sle b := rfl
@[simp] lemma eval_leU : leU.eval a b = a.ule b := rfl
@[simp] lemma eval_geS : geS.eval a b = b.sle a := rfl
@[simp] lemma eval_geU : geU.eval a b = b.ule a := rfl

end IntRelop

end BitVec

/-! ## Bounds -/

namespace IntRelop

variable {w : Nat}

lemma eq_comm (a b : BitVec w) : eq.eval b a = eq.eval a b := by
  simp only [eval, Eq.comm]

lemma ne_comm (a b : BitVec w) : ne.eval b a = ne.eval a b := by
  simp only [eval, ne_eq, Eq.comm]

lemma eq_self (a : BitVec w) : eq.eval a a = true := decide_eq_true rfl

lemma ne_self (a : BitVec w) : ne.eval a a = false := decide_eq_false fun h => h rfl

/-- A comparison that has the same result for equal operands, for `rhs` on the right and for `lhs`
on the left. -/
structure Bounds (relop : IntRelop) (value : Bool) (rhs lhs : BitVec w) : Prop where
  self : ∀ a : BitVec w, relop.eval a a = value
  right : ∀ a, relop.eval a rhs = value
  left : ∀ b, relop.eval lhs b = value

namespace Bounds

variable {relop relop' : IntRelop} {value : Bool} {rhs lhs : BitVec w}

lemma swap (h : relop.Bounds value rhs lhs) (hswap : ∀ a b : BitVec w,
    relop'.eval a b = relop.eval b a) : relop'.Bounds value lhs rhs :=
  ⟨fun a => (hswap a a).trans (h.self a), fun a => (hswap a lhs).trans (h.left a),
    fun b => (hswap rhs b).trans (h.right b)⟩

lemma not (h : relop.Bounds value rhs lhs) (hnot : ∀ a b : BitVec w,
    relop'.eval a b = !relop.eval a b) : relop'.Bounds (!value) rhs lhs :=
  ⟨fun a => by rw [hnot, h.self], fun a => by rw [hnot, h.right], fun b => by rw [hnot, h.left]⟩

end Bounds

/-- No value is below the least one, and none above the greatest. -/
lemma bounds_ltS (hw : 0 < w) : ltS.Bounds false (.intMin w) (.intMax w) := by
  refine ⟨fun a => ?_, fun a => ?_, fun b => ?_⟩
  · simp [eval]
  · have hle := a.le_toInt
    simp only [eval, decide_eq_false_iff_not, BitVec.toInt_intMin_of_pos hw]
    omega
  · have hle : b.toInt ≤ 2 ^ (w - 1) - 1 := BitVec.toInt_le
    simp only [eval, decide_eq_false_iff_not, BitVec.toInt_intMax]
    omega

lemma bounds_ltU : ltU.Bounds false (0 : BitVec w) (.allOnes w) := by
  refine ⟨fun a => ?_, fun a => ?_, fun b => ?_⟩
  · simp [eval]
  · simp [eval]
  · have hlt := b.isLt
    simp only [eval, decide_eq_false_iff_not, BitVec.toNat_allOnes]
    omega

lemma bounds_gtS (hw : 0 < w) : gtS.Bounds false (.intMax w) (.intMin w) :=
  (bounds_ltS hw).swap fun _ _ => rfl

lemma bounds_gtU : gtU.Bounds false (.allOnes w) (0 : BitVec w) := bounds_ltU.swap fun _ _ => rfl

lemma bounds_leS (hw : 0 < w) : leS.Bounds true (.intMax w) (.intMin w) :=
  (bounds_gtS hw).not fun a b => by simp only [eval, ← decide_not, Int.not_lt, gt_iff_lt]

lemma bounds_leU : leU.Bounds true (.allOnes w) (0 : BitVec w) :=
  bounds_gtU.not fun a b => by simp only [eval, ← decide_not, Nat.not_lt, gt_iff_lt]

lemma bounds_geS (hw : 0 < w) : geS.Bounds true (.intMin w) (.intMax w) :=
  (bounds_ltS hw).not fun a b => by simp only [eval, ← decide_not, Int.not_lt, ge_iff_le]

lemma bounds_geU : geU.Bounds true (0 : BitVec w) (.allOnes w) :=
  bounds_ltU.not fun a b => by simp only [eval, ← decide_not, Nat.not_lt, ge_iff_le]

end IntRelop

/-! ## Neutral and absorbing operands -/

namespace IntBinop

variable {w : Nat} (a b : BitVec w)

lemma add_zero : add.eval a 0 = .ok a := by simp

lemma sub_zero : sub.eval a 0 = .ok a := by simp

lemma sub_self : sub.eval a a = .ok 0 := by simp

lemma add_neg : add.eval a (-b) = sub.eval a b := by
  rw [eval_add, eval_sub, BitVec.sub_eq_add_neg]

lemma mul_zero : mul.eval a 0 = .ok 0 := by simp

lemma mul_one : mul.eval a 1 = .ok a := by simp

lemma and_zero : and.eval a 0 = .ok 0 := by simp

lemma and_negOne : and.eval a (-1) = .ok a := by simp [BitVec.neg_one_eq_allOnes]

lemma and_self : and.eval a a = .ok a := by simp

lemma or_zero : or.eval a 0 = .ok a := by simp

lemma or_negOne : or.eval a (-1) = .ok (-1) := by simp [BitVec.neg_one_eq_allOnes]

lemma or_self : or.eval a a = .ok a := by simp

lemma xor_zero : xor.eval a 0 = .ok a := by simp

lemma xor_self : xor.eval a a = .ok 0 := by simp

/-- The operators that return the same with their operands swapped. -/
lemma eval_comm {op : IntBinop}
    (hop : op = .add ∨ op = .mul ∨ op = .and ∨ op = .or ∨ op = .xor) :
    op.eval b a = op.eval a b := by
  rcases hop with rfl | rfl | rfl | rfl | rfl
  · rw [eval_add, eval_add, BitVec.add_comm]
  · rw [eval_mul, eval_mul, BitVec.mul_comm]
  · rw [eval_and, eval_and, BitVec.and_comm]
  · rw [eval_or, eval_or, BitVec.or_comm]
  · rw [eval_xor, eval_xor, BitVec.xor_comm]

section One

variable {a} (hw : 1 < w)
include hw

lemma toInt_negOne : (-1 : BitVec w).toInt = -1 := by
  have hneg : (-1 : BitVec w) = .allOnes w := BitVec.neg_one_eq_allOnes
  rw [hneg, BitVec.toInt_allOnes, if_pos (by omega)]

lemma divS_one : divS.eval a 1 = .ok a := by
  have hlt : a.toInt < 2 ^ (w - 1) := BitVec.toInt_lt
  have hone : (1 : BitVec w).toInt = 1 := BitVec.toInt_one hw
  rw [eval, hone, Int.tdiv_one, if_neg (by omega), if_neg (by omega), BitVec.ofInt_toInt]

lemma divU_one : divU.eval a 1 = .ok a := by
  have hone : (1 : BitVec w).toNat = 1 := BitVec.toNat_one (by omega)
  rw [eval, hone, Nat.div_one, if_neg (by omega), BitVec.ofNat_toNat, BitVec.setWidth_eq]

lemma remU_one : remU.eval a 1 = .ok 0 := by
  have hone : (1 : BitVec w).toNat = 1 := BitVec.toNat_one (by omega)
  rw [eval, hone, Nat.mod_one, if_neg (by omega)]
  rfl

lemma remS_one : remS.eval a 1 = .ok 0 := by
  have hone : (1 : BitVec w).toInt = 1 := BitVec.toInt_one hw
  rw [eval, hone, Int.tmod_one, if_neg (by omega)]
  rfl

lemma remS_negOne : remS.eval a (-1) = .ok 0 := by
  rw [eval, toInt_negOne hw, Int.tmod_neg, Int.tmod_one, if_neg (by omega)]
  rfl

end One

end IntBinop

/-! ## Cells -/

/-- The integer types. -/
inductive IntType where
  | i32 | i64
deriving Repr, DecidableEq

/-- The width of the values of the type. -/
def IntType.bits : IntType → Nat
  | .i32 => 32
  | .i64 => 64

/-- The width of the values of the type. -/
def ImmType.bits : ImmType → Nat
  | .i32 | .u32 => 32
  | .i64 | .u64 => 64

namespace UntypedVal

/-- `UntypedVal::from` of an integer: the bits above it are zero. -/
def ofInt {w : Nat} (value : BitVec w) : UntypedVal := value.zeroExtend 64

lemma truncate_ofInt {T : ImmType} (a : BitVec T.bits) : (ofInt a).truncate T.bits = a := by
  have hle : T.bits ≤ 64 := by cases T <;> decide
  show (a.setWidth 64).setWidth T.bits = a
  rw [BitVec.setWidth_setWidth_of_le _ hle, BitVec.setWidth_eq]

lemma ofInt_inj {T : ImmType} {a b : BitVec T.bits} (h : ofInt a = ofInt b) : a = b := by
  rw [← truncate_ofInt a, h, truncate_ofInt]

end UntypedVal

open UntypedVal

/-- The comparison that the operator on cells is. -/
def IntComparison.relop : IntComparison → IntRelop
  | .i32Eq | .i64Eq => .eq
  | .i32Ne | .i64Ne => .ne
  | .i32LtS | .i64LtS => .ltS
  | .i32LtU | .i64LtU => .ltU
  | .i32GtS | .i64GtS => .gtS
  | .i32GtU | .i64GtU => .gtU
  | .i32LeS | .i64LeS => .leS
  | .i32LeU | .i64LeU => .leU
  | .i32GeS | .i64GeS => .geS
  | .i32GeU | .i64GeU => .geU

/-- The binary operator that the operator on cells is; the fused bit tests are none. -/
def ArithOp.binop : ArithOp → Option IntBinop
  | .i32Add | .i64Add => some .add
  | .i32Mul | .i64Mul => some .mul
  | .i32And | .i64And => some .and
  | .i32Or | .i64Or => some .or
  | .i32Xor | .i64Xor => some .xor
  | .i32AndEqz | .i32OrEqz | .i32XorEqz => none

def ShiftOp.binop : ShiftOp → IntBinop
  | .i32Shl | .i64Shl => .shl
  | .i32ShrU | .i64ShrU => .shrU
  | .i32ShrS | .i64ShrS => .shrS
  | .i32Rotl | .i64Rotl => .rotl
  | .i32Rotr | .i64Rotr => .rotr

def DivRemOp.binop : DivRemOp → IntBinop
  | .i32DivS | .i64DivS => .divS
  | .i32DivU | .i64DivU => .divU
  | .i32RemS | .i64RemS => .remS
  | .i32RemU | .i64RemU => .remU

/-! ### The operators on cells -/

lemma truncate_64 (x : UntypedVal) : x.truncate 64 = x := BitVec.setWidth_eq x

lemma map_ofInt_64 (x : Except TrapCode UntypedVal) : x.map ofInt = x := by
  cases x with
  | ok value => exact congrArg Except.ok (BitVec.setWidth_eq value)
  | error => rfl

lemma IntComparison.eval_ofInt (op : IntComparison) (a b : BitVec op.immType.bits) :
    op.eval (ofInt a) (ofInt b) = op.relop.eval a b := by
  have heval : ∀ x y : UntypedVal, op.eval x y =
      op.relop.eval (x.truncate op.immType.bits) (y.truncate op.immType.bits) := by
    intro x y
    cases op with
    | i32Eq | i32Ne | i32LtS | i32LtU | i32GtS | i32GtU | i32LeS | i32LeU | i32GeS | i32GeU => rfl
    | i64Eq | i64Ne | i64LtS | i64LtU | i64GtS | i64GtU | i64LeS | i64LeU | i64GeS | i64GeU =>
      show _ = IntRelop.eval _ (x.truncate 64) (y.truncate 64)
      rw [truncate_64, truncate_64]
      rfl
  rw [heval, truncate_ofInt, truncate_ofInt]

lemma ArithOp.eval_ofInt {op : ArithOp} {binop : IntBinop} (h : op.binop = some binop)
    (a b : BitVec op.immType.bits) :
    (binop.eval a b).map ofInt = .ok (op.eval (ofInt a) (ofInt b)) := by
  have heval : ∀ x y : UntypedVal, (binop.eval (x.truncate op.immType.bits)
      (y.truncate op.immType.bits)).map ofInt = .ok (op.eval x y) := by
    intro x y
    cases op with
    | i32Add | i32Mul | i32And | i32Or | i32Xor =>
      obtain rfl := Option.some.inj h
      simp only [IntBinop.eval_add, IntBinop.eval_mul, IntBinop.eval_and, IntBinop.eval_or,
        IntBinop.eval_xor]
      rfl
    | i64Add | i64Mul | i64And | i64Or | i64Xor =>
      obtain rfl := Option.some.inj h
      show (IntBinop.eval _ (x.truncate 64) (y.truncate 64)).map ofInt = _
      rw [truncate_64, truncate_64, map_ofInt_64]
      simp only [IntBinop.eval_add, IntBinop.eval_mul, IntBinop.eval_and, IntBinop.eval_or,
        IntBinop.eval_xor]
      rfl
    | i32AndEqz | i32OrEqz | i32XorEqz => cases h
  rw [← heval, truncate_ofInt, truncate_ofInt]

lemma SubOp.eval_ofInt (op : SubOp) (a b : BitVec op.immType.bits) :
    (IntBinop.sub.eval a b).map ofInt = .ok (op.eval (ofInt a) (ofInt b)) := by
  have heval : ∀ x y : UntypedVal, (IntBinop.sub.eval (x.truncate op.immType.bits)
      (y.truncate op.immType.bits)).map ofInt = .ok (op.eval x y) := by
    intro x y
    rw [IntBinop.eval_sub]
    cases op with
    | i32Sub => rfl
    | i64Sub =>
      show (Except.ok (x.truncate 64 - y.truncate 64)).map ofInt = _
      rw [truncate_64, truncate_64, map_ofInt_64]
      rfl
  rw [← heval, truncate_ofInt, truncate_ofInt]

lemma ShiftOp.eval_ofInt (op : ShiftOp) (a b : BitVec op.immType.bits) :
    (op.binop.eval a b).map ofInt = .ok (op.eval (ofInt a) (ofInt b)) := by
  have heval : ∀ x y : UntypedVal, (op.binop.eval (x.truncate op.immType.bits)
      (y.truncate op.immType.bits)).map ofInt = .ok (op.eval x y) := by
    intro x y
    cases op with
    | i32Shl | i32ShrU | i32ShrS | i32Rotl | i32Rotr =>
      simp only [ShiftOp.binop, IntBinop.eval_shl, IntBinop.eval_shrU, IntBinop.eval_shrS,
        IntBinop.eval_rotl, IntBinop.eval_rotr]
      rfl
    | i64Shl | i64ShrU | i64ShrS =>
      show (IntBinop.eval _ (x.truncate 64) (y.truncate 64)).map ofInt = _
      rw [truncate_64, truncate_64, map_ofInt_64]
      simp only [ShiftOp.binop, IntBinop.eval_shl, IntBinop.eval_shrU, IntBinop.eval_shrS]
      rfl
    | i64Rotl =>
      show (IntBinop.eval _ (x.truncate 64) (y.truncate 64)).map ofInt = _
      rw [truncate_64, truncate_64, map_ofInt_64]
      have hmod : y.toNat % 2 ^ 32 % 64 = y.toNat % 64 := by omega
      simp only [ShiftOp.binop, IntBinop.eval_rotl, ShiftOp.eval, BitVec.rotateLeft, hmod]
    | i64Rotr =>
      show (IntBinop.eval _ (x.truncate 64) (y.truncate 64)).map ofInt = _
      rw [truncate_64, truncate_64, map_ofInt_64]
      have hmod : y.toNat % 2 ^ 32 % 64 = y.toNat % 64 := by omega
      simp only [ShiftOp.binop, IntBinop.eval_rotr, ShiftOp.eval, BitVec.rotateRight, hmod]
  rw [← heval, truncate_ofInt, truncate_ofInt]

lemma DivRemOp.eval_ofInt (op : DivRemOp) (a b : BitVec op.immType.bits) :
    (op.binop.eval a b).map ofInt = op.eval (ofInt a) (ofInt b) := by
  have heval : ∀ x y : UntypedVal, (op.binop.eval (x.truncate op.immType.bits)
      (y.truncate op.immType.bits)).map ofInt = op.eval x y := by
    intro x y
    cases op with
    | i32DivS | i32DivU | i32RemS | i32RemU =>
      simp only [DivRemOp.binop, IntBinop.eval_divS, IntBinop.eval_divU, IntBinop.eval_remS,
        IntBinop.eval_remU]
      rfl
    | i64DivS | i64DivU | i64RemS | i64RemU =>
      show (IntBinop.eval _ (x.truncate 64) (y.truncate 64)).map ofInt = _
      rw [truncate_64, truncate_64, map_ofInt_64]
      simp only [DivRemOp.binop, IntBinop.eval_divS, IntBinop.eval_divU, IntBinop.eval_remS,
        IntBinop.eval_remU]
      rfl
  rw [← heval, truncate_ofInt, truncate_ofInt]

/-- A division by zero traps. -/
lemma DivRemOp.binop_zero {w : Nat} (op : DivRemOp) (a : BitVec w) :
    op.binop.eval a 0 = .error .integerDivisionByZero := by
  cases op <;> simp [DivRemOp.binop, IntBinop.eval]

/-- The operator with a non-zero immediate, save for a remainder by `-1`. -/
lemma DivRemOp.evalNonZero_eq {op : DivRemOp} {x y : UntypedVal}
    (hy : y.truncate op.immType.bits ≠ 0)
    (hneg : op.binop = .remS → y.truncate op.immType.bits ≠ -1) :
    op.evalNonZero x y = op.eval x y := by
  have hoverflow : ∀ {w : Nat} {a b : BitVec w}, b ≠ -1 → a.sdivOverflow b = false := by
    intro w a b hb
    have hne : b ≠ -1#w := hb
    rw [BitVec.sdivOverflow_eq, ← BitVec.neg_one_eq_allOnes]
    simp [hne]
  cases op with
  | i32DivS =>
    have hy' : y.toI32 ≠ 0 := hy
    rw [evalNonZero, eval, divS, if_neg hy', evalNonZero.checked]
    split
    · rfl
    · rfl
  | i64DivS =>
    have hy' : y ≠ 0 := truncate_64 y ▸ hy
    rw [evalNonZero, eval, divS, if_neg hy', evalNonZero.checked]
  | i32DivU =>
    have hy' : y.toI32 ≠ 0 := hy
    rw [evalNonZero, eval, divU, if_neg hy']
    rfl
  | i32RemU =>
    have hy' : y.toI32 ≠ 0 := hy
    rw [evalNonZero, eval, remU, if_neg hy']
    rfl
  | i64DivU =>
    have hy' : y ≠ 0 := truncate_64 y ▸ hy
    rw [evalNonZero, eval, divU, if_neg hy']
  | i64RemU =>
    have hy' : y ≠ 0 := truncate_64 y ▸ hy
    rw [evalNonZero, eval, remU, if_neg hy']
  | i32RemS =>
    -- `checked_rem` would fail where the quotient overflows
    have hy' : y.toI32 ≠ 0 := hy
    have hneg' : y.toI32 ≠ -1 := hneg rfl
    rw [evalNonZero, eval, remS, if_neg hy', evalNonZero.checked, hoverflow hneg']
    rfl
  | i64RemS =>
    have hy' : y ≠ 0 := truncate_64 y ▸ hy
    have hneg' : y ≠ -1 := truncate_64 y ▸ hneg rfl
    rw [evalNonZero, eval, remS, if_neg hy', evalNonZero.checked, hoverflow hneg']
    rfl

/-! ## Amounts of shifts -/

section Shifts

variable {w n : Nat}

/-- Only the amount modulo the width counts. -/
lemma ShiftOp.eval_congr {op : ShiftOp} {a b b' : BitVec w} (h : b.toNat % w = b'.toNat % w) :
    op.binop.eval a b = op.binop.eval a b' := by
  cases op <;> simp only [ShiftOp.binop, IntBinop.eval, h]

lemma ShiftOp.eval_noAmount {op : ShiftOp} {a b : BitVec w} (h : b.toNat % w = 0) :
    op.binop.eval a b = .ok a := by
  have hzero : a >>> w = 0 := BitVec.ushiftRight_eq_zero (Nat.le_refl w)
  cases op <;> simp [ShiftOp.binop, IntBinop.eval, h, BitVec.rotateLeft, BitVec.rotateRight,
    BitVec.rotateLeftAux, BitVec.rotateRightAux, hzero]

lemma ShiftOp.eval_zero (op : ShiftOp) (b : BitVec w) : op.binop.eval 0 b = .ok 0 := by
  cases op <;> simp [ShiftOp.binop, IntBinop.eval, BitVec.rotateLeft, BitVec.rotateRight,
    BitVec.rotateLeftAux, BitVec.rotateRightAux]

/-- The operators that keep the value of all ones. -/
lemma ShiftOp.eval_allOnes {op : ShiftOp}
    (hop : op.binop = .shrS ∨ op.binop = .rotl ∨ op.binop = .rotr) (b : BitVec w) :
    op.binop.eval (.allOnes w) b = .ok (.allOnes w) := by
  rcases hop with hop | hop | hop
  · have hbits : (BitVec.allOnes w).sshiftRight (b.toNat % w) = .allOnes w := by
      ext i hi
      have hw : 0 < w := by omega
      rw [BitVec.getElem_sshiftRight]
      simp [BitVec.msb_allOnes hw]
    rw [hop, IntBinop.eval_shrS, hbits]
  · have hbits : (BitVec.allOnes w).rotateLeft b.toNat = .allOnes w := by
      ext i hi
      rw [BitVec.getElem_rotateLeft]
      simp
    rw [hop, IntBinop.eval_rotl, hbits]
  · have hbits : (BitVec.allOnes w).rotateRight b.toNat = .allOnes w := by
      ext i hi
      rw [BitVec.getElem_rotateRight]
      simp
    rw [hop, IntBinop.eval_rotr, hbits]

/-- The remainder of a division towards zero is congruent to its dividend. -/
lemma toNat_srem {m : BitVec w} (b : BitVec w) (hm : m.toInt = n) (hdvd : n ∣ 2 ^ w) :
    (b.srem m).toNat % n = b.toNat % n := by
  have hcongr : ∀ x : BitVec w, x.toInt % n = (x.toNat : Int) % n := by
    intro x
    have hdvd' : (n : Int) ∣ (2 ^ w : Nat) := Int.natCast_dvd_natCast.2 hdvd
    rw [BitVec.toInt_eq_toNat_bmod, ← Int.emod_emod_of_dvd _ hdvd', Int.bmod_emod,
      Int.emod_emod_of_dvd _ hdvd']
  have htmod : (b.srem m).toInt % n = b.toInt % n := by
    rw [BitVec.toInt_srem, hm, Int.tmod_def, Int.sub_mul_emod_self_left]
  rw [hcongr, hcongr] at htmod
  omega

/-- A value of 16 bits is the extension of its lower bits. -/
lemma signExtend_truncate {v : BitVec w} (hw : 16 ≤ w) (hlow : -32768 ≤ v.toInt)
    (hhigh : v.toInt < 32768) : (v.truncate 16).signExtend w = v := by
  have hdvd : 2 ^ 16 ∣ 2 ^ w := Nat.pow_dvd_pow 2 hw
  have hmod : v.toInt.bmod (2 ^ 16) = v.toInt := by
    apply Int.bmod_eq_of_le
    · exact hlow
    · exact hhigh
  apply BitVec.eq_of_toInt_eq
  rw [BitVec.toInt_signExtend_of_le hw]
  show (v.setWidth 16).toInt = _
  rw [BitVec.toInt_setWidth, ← Int.bmod_bmod_of_dvd hdvd, ← BitVec.toInt_eq_toNat_bmod, hmod]

end Shifts

end MotokoDebugger
