import MotokoDebugger.Translator.ExactOperators

/-!
# Exact operators

The code that is emitted for an integer operator or for `select` computes its result, in every
encoding, for constants and registers as operands.

* `computes_visitOrder`, `computes_visitShift` and so on: the visitors of similar operators.
* `operators_exact`: all of them.
-/

namespace MotokoDebugger.Translator

open Fallible Executor FuncTranslator
open Runs (Steps)

variable {σ : Type}

/-! ## Immediates -/

section Immediates

open UntypedVal (ofInt)

variable {T : ImmType} {imm : Const16}

lemma setWidth_of_toNat {w : Nat} {value : BitVec w} (h : imm.toNat = value.toNat) :
    imm.zeroExtend 64 = ofInt value := by
  apply BitVec.eq_of_toNat_eq
  show (imm.setWidth 64).toNat = (value.setWidth 64).toNat
  rw [BitVec.toNat_setWidth, BitVec.toNat_setWidth, h]

lemma ofU64_some {value : BitVec 64} (h : Const16.ofU64 value = some imm) :
    imm.toNat = value.toNat := by
  unfold Const16.ofU64 at h
  split at h
  case isTrue hlt =>
    rw [← Option.some.inj h]
    show (value.setWidth 16).toNat = _
    rw [BitVec.toNat_setWidth, Nat.mod_eq_of_lt hlt]
  case isFalse => simp at h

/-- An immediate is read back as it was. -/
lemma toUntyped_ofImm {value : BitVec T.bits} (h : Const16.ofImm T value = some imm) :
    imm.toUntyped T = ofInt value := by
  cases T with
  | i32 => exact congrArg ofInt (ofI32_some h)
  | u32 => exact setWidth_of_toNat (ofU32_some h)
  | i64 => exact (ofI64_some h).trans (truncate_64 value).symm
  | u64 => exact setWidth_of_toNat (ofU64_some h)

end Immediates

/-! ## Comparisons -/

section Visitors

open UntypedVal (ofInt ofBool ofInt_inj)

variable {stash : MultiStash σ} {float : FloatOps} {translator translator' : FuncTranslator σ}
  {lhs rhs : TypedProvider} {stack : ValueStack σ}

section Comparisons

variable {op swapped : IntComparison} {a b : BitVec op.immType.bits} {imm : Const16}

lemma binaryForm_compare (op : IntComparison) (a b : BitVec op.immType.bits) (result l r : Reg) :
    BinaryForm float (.binary (.compare op) result l r) result l r (ofInt a) (ofInt b)
      (.ok (ofBool (op.relop.eval a b))) := by
  rw [← op.eval_ofInt]
  exact binaryForm_binary (.compare op)

lemma unaryForm_compare (h : Const16.ofImm op.immType b = some imm) (result l : Reg) :
    UnaryForm float (.binaryImm16 (.compare op) result l imm) result l (ofInt a)
      (.ok (ofBool (op.relop.eval a b))) := by
  rw [← op.eval_ofInt, ← toUntyped_ofImm h]
  exact unaryForm_binaryImm16 (.compare op)

lemma consteval_compare {left right : TypedVal} (hleft : left.value = ofInt a)
    (hright : right.value = ofInt b) :
    .ok (ofBool (op.relop.eval a b)) =
      (.ok (TypedVal.compare op left right).value : Except TrapCode UntypedVal) ∧
      (TypedVal.compare op left right).ty = .i32 := by
  refine ⟨?_, rfl⟩
  show _ = Except.ok (ofBool (op.eval left.value right.value))
  rw [hleft, hright, op.eval_ofInt]

lemma computes_visitEquality (op : IntComparison) {a b : BitVec op.immType.bits} {same : Bool}
    (htranslated : TranslatedOperator stash translator translator' stack
      (translator.visitEquality stash op same) op.immType.valType lhs rhs (ofInt a) (ofInt b))
    (hcomm : op.relop.eval b a = op.relop.eval a b) (hsame : op.relop.eval a a = same) :
    ComputesNext stash float (translator.withStack stack) translator'
      [(lhs, ofInt a), (rhs, ofInt b)] .i32
      (.ok (ofBool (op.relop.eval a b))) := by
  refine computes_translateBinaryCommutative htranslated ?_ ?_ ?_ (constIfSame_exact rfl ?_)
    ⟨noCustomOpt_immExact, noCustomOpt_immExact⟩
  · intro result l r
    exact ⟨binaryForm_compare op a b result l r, hcomm ▸ binaryForm_compare op b a result l r⟩
  · intro reg imm result
    exact ⟨fun h => unaryForm_compare h result reg, fun h => hcomm ▸ unaryForm_compare h result reg⟩
  · exact fun left right => consteval_compare
  · intro h
    rw [← ofInt_inj h, hsame]
    rfl

lemma computes_visitOrder (op : IntComparison) {a b rhsImm lhsImm : BitVec op.immType.bits}
    {value : Bool}
    (htranslated : TranslatedOperator stash translator translator' stack
      (translator.visitOrder stash op swapped value rhsImm lhsImm) op.immType.valType lhs rhs
      (ofInt a) (ofInt b))
    (hswapped : ∀ x y, swapped.eval y x = op.eval x y) (himmType : swapped.immType = op.immType)
    (hbounds : op.relop.Bounds value rhsImm lhsImm) :
    ComputesNext stash float (translator.withStack stack) translator'
      [(lhs, ofInt a), (rhs, ofInt b)] .i32
      (.ok (ofBool (op.relop.eval a b))) := by
  refine computes_translateBinary htranslated (binaryForm_compare op a b) ?_ ?_
    (fun left right => consteval_compare) (constIfSame_exact rfl ?_) (constIf_exact rfl ?_)
    (constIf_exact rfl ?_)
  · intro l imm result this h hop
    rw [← Except.ok.inj hop]
    exact unaryForm_compare h result l
  · intro r imm result h
    -- the immediate is the right operand of the swapped comparison
    have himm : imm.toUntyped swapped.immType = ofInt a := by
      rw [himmType]
      exact toUntyped_ofImm h
    rw [← op.eval_ofInt, ← hswapped, ← himm]
    exact unaryForm_binaryImm16 (.compare swapped)
  · intro h
    rw [← ofInt_inj h, hbounds.self]
    rfl
  · rintro rfl
    rw [hbounds.right]
    rfl
  · rintro rfl
    rw [hbounds.left]
    rfl

end Comparisons

/-! ## Optimizations with several cases -/

section Cases

variable {T : ImmType} {x : UntypedVal} {imm : BitVec T.bits} {ty : ValType}
  {expected : Except TrapCode UntypedVal}

lemma immExact_ite {p : BitVec T.bits → Prop} [DecidablePred p] {first second : ImmOpt σ T}
    (hfirst : p imm → first.Exact stash float x imm ty expected)
    (hsecond : ¬ p imm → second.Exact stash float x imm ty expected) :
    ImmOpt.Exact stash (fun this reg value => if p value then first this reg value
      else second this reg value) float x imm ty expected := by
  intro translator translator' reg operands h hreg hone
  dsimp only at h
  split at h
  case isTrue hp => exact hfirst hp _ _ _ _ h hreg hone
  case isFalse hp => exact hsecond hp _ _ _ _ h hreg hone

lemma immExact_const {value : TypedVal} (htyped : value.ty = ty)
    (hvalue : expected = .ok value.value) :
    ImmOpt.Exact stash (fun (this : FuncTranslator σ) _ (_ : BitVec T.bits) => this.optConst value)
      float x imm ty expected := by
  intro translator translator' reg operands h _ _
  exact computes_optConst h htyped fun _ _ => hvalue

lemma immExact_register (hvalue : expected = .ok x) :
    ImmOpt.Exact stash (fun (this : FuncTranslator σ) reg (_ : BitVec T.bits) =>
      this.optRegister stash reg) float x imm ty expected := by
  intro translator translator' reg operands h hreg hone
  exact computes_optRegister h hreg hone fun _ _ => hvalue

end Cases

/-! ## Arithmetic -/

section Arithmetic

variable {op : ArithOp} {binop : IntBinop} {a b : BitVec op.immType.bits}

/-- The value of the constant in the type of the operator. -/
def IsConst (T : ImmType) (constant : TypedVal) (value : BitVec T.bits) : Prop :=
  constant.ty = T.valType ∧ constant.value = ofInt value

lemma computes_visitArith {makeInstrOpt : RegOpt σ} {makeInstrImmOpt : ImmOpt σ op.immType}
    (htranslated : TranslatedOperator stash translator translator' stack
      (translator.visitArith stash op makeInstrOpt makeInstrImmOpt) op.immType.valType lhs rhs
      (ofInt a) (ofInt b))
    (hop : op.binop = some binop)
    (hcomm : ∀ x y : BitVec op.immType.bits, binop.eval y x = binop.eval x y)
    (hopt : makeInstrOpt.Exact stash float (ofInt a) (ofInt b) op.immType.valType
      ((binop.eval a b).map ofInt))
    (himmOpt : ∀ x y : BitVec op.immType.bits, makeInstrImmOpt.Exact stash float (ofInt x) y
      op.immType.valType ((binop.eval x y).map ofInt)) :
    ComputesNext stash float (translator.withStack stack) translator'
      [(lhs, ofInt a), (rhs, ofInt b)] op.immType.valType
      ((binop.eval a b).map ofInt) := by
  have hreg : ∀ (x y : BitVec op.immType.bits) result l r,
      BinaryForm float (.binary (.arith op) result l r) result l r (ofInt x) (ofInt y)
        ((binop.eval x y).map ofInt) := by
    intro x y result l r
    rw [op.eval_ofInt hop]
    exact binaryForm_binary (.arith op)
  have himm : ∀ (x y : BitVec op.immType.bits) l imm result,
      Const16.ofImm op.immType y = some imm →
      UnaryForm float (.binaryImm16 (.arith op) result l imm) result l (ofInt x)
        ((binop.eval x y).map ofInt) := by
    intro x y l imm result h
    rw [op.eval_ofInt hop, ← toUntyped_ofImm h]
    exact unaryForm_binaryImm16 (.arith op)
  refine computes_translateBinaryCommutative htranslated ?_ ?_ ?_ hopt
    ⟨himmOpt a b, hcomm a b ▸ himmOpt b a⟩
  · intro result l r
    exact ⟨hreg a b result l r, hcomm a b ▸ hreg b a result l r⟩
  · intro l imm result
    exact ⟨himm a b l imm result, fun h => hcomm a b ▸ himm b a l imm result h⟩
  · intro left right hleft hright
    refine ⟨?_, rfl⟩
    show _ = Except.ok (op.eval left.value right.value)
    rw [hleft, hright, op.eval_ofInt hop]

lemma computes_visitAdd (op : ArithOp) {a b : BitVec op.immType.bits}
    (htranslated : TranslatedOperator stash translator translator' stack
      (translator.visitArith stash op noCustomOpt (registerIf stash 0)) op.immType.valType lhs rhs
      (ofInt a) (ofInt b))
    (hop : op.binop = some .add) :
    ComputesNext stash float (translator.withStack stack) translator'
      [(lhs, ofInt a), (rhs, ofInt b)] op.immType.valType
      ((IntBinop.add.eval a b).map ofInt) := by
  refine computes_visitArith htranslated hop ?_ noCustomOpt_regExact fun x y =>
    registerIf_exact ?_
  · exact fun x y => IntBinop.eval_comm x y (by simp)
  · rintro rfl
    rw [IntBinop.add_zero]
    rfl

variable {zero ones : TypedVal}

lemma computes_visitMul (op : ArithOp) {a b : BitVec op.immType.bits}
    (htranslated : TranslatedOperator stash translator translator' stack
      (translator.visitArith stash op noCustomOpt fun this reg value =>
        if value = 0 then this.optConst zero
        else if value = 1 then this.optRegister stash reg
        else .ok none) op.immType.valType lhs rhs (ofInt a) (ofInt b))
    (hop : op.binop = some .mul) (hzero : IsConst op.immType zero 0) :
    ComputesNext stash float (translator.withStack stack) translator'
      [(lhs, ofInt a), (rhs, ofInt b)] op.immType.valType
      ((IntBinop.mul.eval a b).map ofInt) := by
  refine computes_visitArith htranslated hop ?_ noCustomOpt_regExact fun x y => ?_
  · exact fun x y => IntBinop.eval_comm x y (by simp)
  refine immExact_ite ?_ fun _ => immExact_ite ?_ fun _ => noCustomOpt_immExact
  · rintro rfl
    refine immExact_const hzero.1 ?_
    rw [IntBinop.mul_zero, hzero.2]
    rfl
  · rintro rfl
    refine immExact_register ?_
    rw [IntBinop.mul_one]
    rfl

lemma computes_visitAnd (op : ArithOp) {a b : BitVec op.immType.bits}
    (htranslated : TranslatedOperator stash translator translator' stack
      (translator.visitArith stash op (registerIfSame stash) fun this reg value =>
        if value = -1 then this.optRegister stash reg
        else if value = 0 then this.optConst zero
        else .ok none) op.immType.valType lhs rhs (ofInt a) (ofInt b))
    (hop : op.binop = some .and) (hzero : IsConst op.immType zero 0) :
    ComputesNext stash float (translator.withStack stack) translator'
      [(lhs, ofInt a), (rhs, ofInt b)] op.immType.valType
      ((IntBinop.and.eval a b).map ofInt) := by
  refine computes_visitArith htranslated hop ?_ (registerIfSame_exact ?_) fun x y => ?_
  · exact fun x y => IntBinop.eval_comm x y (by simp)
  · intro h
    rw [← ofInt_inj h, IntBinop.and_self]
    rfl
  refine immExact_ite ?_ fun _ => immExact_ite ?_ fun _ => noCustomOpt_immExact
  · rintro rfl
    refine immExact_register ?_
    rw [IntBinop.and_negOne]
    rfl
  · rintro rfl
    refine immExact_const hzero.1 ?_
    rw [IntBinop.and_zero, hzero.2]
    rfl

lemma computes_visitOr (op : ArithOp) {a b : BitVec op.immType.bits}
    (htranslated : TranslatedOperator stash translator translator' stack
      (translator.visitArith stash op (registerIfSame stash) fun this reg value =>
        if value = -1 then this.optConst ones
        else if value = 0 then this.optRegister stash reg
        else .ok none) op.immType.valType lhs rhs (ofInt a) (ofInt b))
    (hop : op.binop = some .or) (hones : IsConst op.immType ones (-1)) :
    ComputesNext stash float (translator.withStack stack) translator'
      [(lhs, ofInt a), (rhs, ofInt b)] op.immType.valType
      ((IntBinop.or.eval a b).map ofInt) := by
  refine computes_visitArith htranslated hop ?_ (registerIfSame_exact ?_) fun x y => ?_
  · exact fun x y => IntBinop.eval_comm x y (by simp)
  · intro h
    rw [← ofInt_inj h, IntBinop.or_self]
    rfl
  refine immExact_ite ?_ fun _ => immExact_ite ?_ fun _ => noCustomOpt_immExact
  · rintro rfl
    refine immExact_const hones.1 ?_
    rw [IntBinop.or_negOne, hones.2]
    rfl
  · rintro rfl
    refine immExact_register ?_
    rw [IntBinop.or_zero]
    rfl

lemma computes_visitXor (op : ArithOp) {a b : BitVec op.immType.bits}
    (htranslated : TranslatedOperator stash translator translator' stack
      (translator.visitArith stash op (constIfSame zero) (registerIf stash 0)) op.immType.valType
      lhs rhs (ofInt a) (ofInt b))
    (hop : op.binop = some .xor) (hzero : IsConst op.immType zero 0) :
    ComputesNext stash float (translator.withStack stack) translator'
      [(lhs, ofInt a), (rhs, ofInt b)] op.immType.valType
      ((IntBinop.xor.eval a b).map ofInt) := by
  refine computes_visitArith htranslated hop ?_ (constIfSame_exact hzero.1 ?_) fun x y =>
    registerIf_exact ?_
  · exact fun x y => IntBinop.eval_comm x y (by simp)
  · intro h
    rw [← ofInt_inj h, IntBinop.xor_self, hzero.2]
    rfl
  · rintro rfl
    rw [IntBinop.xor_zero]
    rfl

end Arithmetic

/-! ### Subtraction -/

/-- The subtraction and the addition of one type. -/
inductive SubAdd : SubOp → ArithOp → Prop where
  | i32 : SubAdd .i32Sub .i32Add
  | i64 : SubAdd .i64Sub .i64Add

section Subtraction

variable {op : SubOp} {add : ArithOp} {a b : BitVec op.immType.bits} {zero : TypedVal}

/-- A subtraction adds the negated operand. -/
lemma add_neg_ofInt (h : SubAdd op add) :
    .ok (add.eval (ofInt a) (ofInt (-b))) = (IntBinop.sub.eval a b).map ofInt := by
  have hsub := congrArg (Except.map ofInt) (IntBinop.add_neg a b)
  cases h with
  | i32 => exact (@ArithOp.eval_ofInt .i32Add .add rfl a (-b)).symm.trans hsub
  | i64 => exact (@ArithOp.eval_ofInt .i64Add .add rfl a (-b)).symm.trans hsub

lemma computes_visitSub (op : SubOp) {a b : BitVec op.immType.bits}
    (htranslated : TranslatedOperator stash translator translator' stack
      (translator.visitSub stash op add zero) op.immType.valType lhs rhs (ofInt a) (ofInt b))
    (hadd : SubAdd op add) (hzero : IsConst op.immType zero 0) :
    ComputesNext stash float (translator.withStack stack) translator'
      [(lhs, ofInt a), (rhs, ofInt b)] op.immType.valType
      ((IntBinop.sub.eval a b).map ofInt) := by
  have htype : add.immType = op.immType := by cases hadd <;> rfl
  refine computes_translateBinary htranslated ?_ ?_ ?_ ?_ (constIfSame_exact hzero.1 ?_) ?_
    noCustomOpt_immExact
  · intro result l r
    rw [op.eval_ofInt]
    exact binaryForm_binary (.sub op)
  · intro l imm result this _ hpanic
    simp at hpanic
  · intro r imm result h
    rw [op.eval_ofInt, ← toUntyped_ofImm h]
    exact unaryForm_binaryImm16Lhs (.sub op)
  · intro left right hleft hright
    refine ⟨?_, rfl⟩
    show _ = Except.ok (op.eval left.value right.value)
    rw [hleft, hright, op.eval_ofInt]
  · intro h
    rw [← ofInt_inj h, IntBinop.sub_self, hzero.2]
    rfl
  · intro this this' reg operands h hreg hfirst
    dsimp only at h
    split at h
    case isTrue hb =>
      refine computes_optRegister h hreg hfirst fun _ _ => ?_
      rw [hb, IntBinop.sub_zero]
      rfl
    case isFalse =>
      obtain ⟨tried, htried, h⟩ := bind_eq_ok.1 h
      cases tried with
      | some applied =>
        obtain rfl := Option.some.inj (Except.ok.inj h)
        refine computes_tryPushBinaryInstrImm16 htried hreg ?_
        intro imm result this h hop
        have himm : imm.toUntyped add.immType = ofInt (-b) := by
          rw [htype]
          exact toUntyped_ofImm h
        rw [← Except.ok.inj hop, ← add_neg_ofInt hadd, ← himm]
        exact unaryForm_binaryImm16 (.arith add)
      | none =>
        obtain ⟨pushed, hpush, h⟩ := bind_eq_ok.1 h
        obtain rfl := Option.some.inj (Except.ok.inj h)
        refine computes_pushBinaryInstrImm hpush hreg fun result r => ?_
        rw [← add_neg_ofInt hadd]
        exact binaryForm_binary (.arith add)

end Subtraction

/-! ## Shifts -/

section Shifts

variable {T : ImmType}

/-- The amount of a shift is the operand modulo the width; there is none for zero. -/
structure IsAmount (T : ImmType) (shiftAmount : BitVec T.bits → Option Const16) : Prop where
  some : ∀ {b imm}, shiftAmount b = some imm →
    ∃ b' : BitVec T.bits, imm.toUntyped T = ofInt b' ∧ b.toNat % T.bits = b'.toNat % T.bits
  none : ∀ {b}, shiftAmount b = none → b.toNat % T.bits = 0

/-- A remainder by the width fits in 16 bits. -/
lemma isAmount_srem {m : BitVec T.bits} (hm : m.toInt = T.bits)
    (himm : ∀ imm : Const16, imm.toUntyped T = ofInt (imm.signExtend T.bits)) :
    IsAmount T fun value =>
      let value := (value.srem m).truncate 16
      if value = 0 then none else some value := by
  have hbits : T.bits = 32 ∨ T.bits = 64 := by cases T <;> simp [ImmType.bits]
  have hdvd : T.bits ∣ 2 ^ T.bits := by rcases hbits with h | h <;> rw [h] <;> decide
  have hextend : ∀ b : BitVec T.bits,
      ((b.srem m).truncate 16).signExtend T.bits = b.srem m := by
    intro b
    have hlow := Int.lt_tmod_of_pos b.toInt (b := m.toInt) (by omega)
    have hhigh := Int.tmod_lt_of_pos b.toInt (b := m.toInt) (by omega)
    apply signExtend_truncate
    · omega
    · rw [BitVec.toInt_srem]
      omega
    · rw [BitVec.toInt_srem]
      omega
  refine ⟨fun {b imm} h => ⟨b.srem m, ?_, (toNat_srem b hm hdvd).symm⟩, fun {b} h => ?_⟩
  · dsimp only at h
    split at h
    case isTrue => simp at h
    case isFalse => rw [← Option.some.inj h, himm, hextend]
  · dsimp only at h
    split at h
    case isTrue hzero =>
      have hext : (0 : Const16).signExtend T.bits = 0 := by simp [BitVec.signExtend]
      rw [← toNat_srem b hm hdvd, ← hextend b, hzero, hext]
      simp
    case isFalse => simp at h

lemma isAmount_shiftAmount32 : IsAmount .i32 Const16.shiftAmount32 :=
  isAmount_srem (T := .i32) (m := 32) (by decide) fun _ => rfl

lemma isAmount_shiftAmount64 : IsAmount .i64 Const16.shiftAmount64 :=
  isAmount_srem (T := .i64) (m := 64) (by decide) fun imm => (truncate_64 _).symm

lemma computes_visitShift (op : ShiftOp) {a b : BitVec op.immType.bits}
    {shiftAmount : BitVec op.immType.bits → Option Const16}
    {makeInstrImmRegOpt : ImmOpt σ op.immType}
    (htranslated : TranslatedOperator stash translator translator' stack
      (translator.visitShift stash op shiftAmount makeInstrImmRegOpt) op.immType.valType lhs rhs
      (ofInt a) (ofInt b))
    (hamount : IsAmount op.immType shiftAmount)
    (hopt : makeInstrImmRegOpt.Exact stash float (ofInt b) a op.immType.valType
      ((op.binop.eval a b).map ofInt)) :
    ComputesNext stash float (translator.withStack stack) translator'
      [(lhs, ofInt a), (rhs, ofInt b)] op.immType.valType
      ((op.binop.eval a b).map ofInt) := by
  refine computes_translateShift htranslated rfl ?_ ?_ ?_ ?_ ?_ hopt
  · intro result l r
    rw [op.eval_ofInt]
    exact binaryForm_binary (.shift op)
  · intro l imm result h
    obtain ⟨b', himm, hmod⟩ := hamount.some h
    rw [ShiftOp.eval_congr hmod, op.eval_ofInt, ← himm]
    exact unaryForm_shiftBy op
  · rintro (h | rfl)
    · rw [ShiftOp.eval_noAmount (hamount.none h)]
      rfl
    · rw [op.eval_zero]
      rfl
  · intro r imm result h
    rw [op.eval_ofInt, ← toUntyped_ofImm h]
    exact unaryForm_binaryImm16Lhs (.shift op)
  · intro left right hleft hright
    refine ⟨?_, rfl⟩
    show _ = Except.ok (op.eval left.value right.value)
    rw [hleft, hright, op.eval_ofInt]

/-- The left operand of all ones is the result. -/
lemma computes_visitShiftOnes (op : ShiftOp) {a b : BitVec op.immType.bits} {ones : TypedVal}
    {shiftAmount : BitVec op.immType.bits → Option Const16}
    (htranslated : TranslatedOperator stash translator translator' stack
      (translator.visitShift stash op shiftAmount (constIf (-1) ones)) op.immType.valType lhs rhs
      (ofInt a) (ofInt b))
    (hamount : IsAmount op.immType shiftAmount)
    (hop : op.binop = .shrS ∨ op.binop = .rotl ∨ op.binop = .rotr)
    (hones : IsConst op.immType ones (-1)) :
    ComputesNext stash float (translator.withStack stack) translator'
      [(lhs, ofInt a), (rhs, ofInt b)] op.immType.valType
      ((op.binop.eval a b).map ofInt) := by
  refine computes_visitShift op htranslated hamount (constIf_exact hones.1 ?_)
  rintro rfl
  have hneg : (-1 : BitVec op.immType.bits) = .allOnes _ := BitVec.neg_one_eq_allOnes
  rw [hones.2, hneg, ShiftOp.eval_allOnes hop]
  rfl

end Shifts

/-! ## Divisions -/

section Divisions

variable {op : DivRemOp} {a b : BitVec op.immType.bits}

lemma one_lt_bits (T : ImmType) : 1 < T.bits := by cases T <;> simp [ImmType.bits]

lemma divrem_cases {left right : TypedVal} (hleft : left.value = ofInt a)
    (hright : right.value = ofInt b) :
    (∃ value, TypedVal.divrem op left right = .ok value ∧
      (op.binop.eval a b).map ofInt = .ok value.value ∧ value.ty = op.immType.valType) ∨
    ∃ trapCode, TypedVal.divrem op left right = .error trapCode ∧
      (op.binop.eval a b).map ofInt = .error trapCode := by
  have heval : op.eval left.value right.value = (op.binop.eval a b).map ofInt := by
    rw [hleft, hright, op.eval_ofInt]
  rw [← heval]
  unfold TypedVal.divrem
  split
  case h_1 value hvalue => exact .inl ⟨_, rfl, hvalue, rfl⟩
  case h_2 trapCode htrap => exact .inr ⟨trapCode, rfl, htrap⟩

lemma computes_visitDivrem {makeInstrRegImmOpt : ImmOpt σ op.immType}
    (htranslated : TranslatedOperator stash translator translator' stack
      (translator.visitDivrem stash op makeInstrRegImmOpt) op.immType.valType lhs rhs (ofInt a)
      (ofInt b))
    (hopt : makeInstrRegImmOpt.Exact stash float (ofInt a) b op.immType.valType
      ((op.binop.eval a b).map ofInt))
    (hneg : ∀ this l, makeInstrRegImmOpt this l b = .ok none → op.binop = .remS → b ≠ -1) :
    ComputesNext stash float (translator.withStack stack) translator'
      [(lhs, ofInt a), (rhs, ofInt b)] op.immType.valType
      ((op.binop.eval a b).map ofInt) := by
  refine computes_translateDivrem htranslated ?_ ?_ ?_ ?_ ?_ noCustomOpt_regExact hopt
  · intro result l r
    rw [op.eval_ofInt]
    exact binaryForm_tryBinary op
  · rintro rfl
    rw [op.binop_zero]
    rfl
  · intro this l imm result hb hnone h
    have himm := toUntyped_ofImm h
    rw [op.eval_ofInt, ← DivRemOp.evalNonZero_eq, ← himm]
    · exact unaryForm_divremImm16Rhs op
    · rwa [UntypedVal.truncate_ofInt]
    · rw [UntypedVal.truncate_ofInt]
      exact hneg this l hnone
  · intro r imm result h
    rw [op.eval_ofInt, ← toUntyped_ofImm h]
    exact unaryForm_tryBinaryImm16Lhs op
  · exact fun left right => divrem_cases

/-- A division by one is the dividend. -/
lemma computes_visitDiv (op : DivRemOp) {a b : BitVec op.immType.bits}
    (htranslated : TranslatedOperator stash translator translator' stack
      (translator.visitDivrem stash op (registerIf stash 1)) op.immType.valType lhs rhs (ofInt a)
      (ofInt b))
    (hop : op.binop = .divS ∨ op.binop = .divU) :
    ComputesNext stash float (translator.withStack stack) translator'
      [(lhs, ofInt a), (rhs, ofInt b)] op.immType.valType
      ((op.binop.eval a b).map ofInt) := by
  refine computes_visitDivrem htranslated (registerIf_exact ?_) ?_
  · rintro rfl
    rcases hop with hop | hop
    · rw [hop, IntBinop.divS_one (one_lt_bits _)]
      rfl
    · rw [hop, IntBinop.divU_one (one_lt_bits _)]
      rfl
  · intro _ _ _ hrem
    rcases hop with hop | hop
    · rw [hop] at hrem
      cases hrem
    · rw [hop] at hrem
      cases hrem

lemma computes_visitRemU (op : DivRemOp) {a b : BitVec op.immType.bits} {zero : TypedVal}
    (htranslated : TranslatedOperator stash translator translator' stack
      (translator.visitDivrem stash op (constIf 1 zero)) op.immType.valType lhs rhs (ofInt a)
      (ofInt b))
    (hop : op.binop = .remU) (hzero : IsConst op.immType zero 0) :
    ComputesNext stash float (translator.withStack stack) translator'
      [(lhs, ofInt a), (rhs, ofInt b)] op.immType.valType
      ((op.binop.eval a b).map ofInt) := by
  refine computes_visitDivrem htranslated (constIf_exact hzero.1 ?_) ?_
  · rintro rfl
    rw [hop, IntBinop.remU_one (one_lt_bits _), hzero.2]
    rfl
  · intro _ _ _ hrem
    rw [hop] at hrem
    cases hrem

/-- A remainder by `1` or `-1` is zero, so no other instruction gets the immediate `-1`. -/
lemma computes_visitRemS (op : DivRemOp) {a b : BitVec op.immType.bits} {zero : TypedVal}
    (htranslated : TranslatedOperator stash translator translator' stack
      (translator.visitDivrem stash op fun this _ rhs =>
        if rhs = 1 ∨ rhs = -1 then this.optConst zero else .ok none) op.immType.valType lhs rhs
      (ofInt a) (ofInt b))
    (hop : op.binop = .remS) (hzero : IsConst op.immType zero 0) :
    ComputesNext stash float (translator.withStack stack) translator'
      [(lhs, ofInt a), (rhs, ofInt b)] op.immType.valType
      ((op.binop.eval a b).map ofInt) := by
  refine computes_visitDivrem htranslated
    (immExact_ite (fun hone => immExact_const hzero.1 ?_) fun _ => noCustomOpt_immExact) ?_
  · rcases hone with rfl | rfl
    · rw [hop, IntBinop.remS_one (one_lt_bits _), hzero.2]
      rfl
    · rw [hop, IntBinop.remS_negOne (one_lt_bits _), hzero.2]
      rfl
  · intro this l hnone _ hneg
    rw [if_pos (.inr hneg)] at hnone
    obtain ⟨stack, -, hsome⟩ := bind_eq_ok.1 hnone
    cases hsome

end Divisions

/-! ## All operators -/

section All

/-- The visitor of a binary operator computes the operator, or traps with it. -/
lemma computes_visitBinop {ty : IntType} {op : IntBinop} {a b : BitVec ty.bits}
    (h : TranslatedOperator stash translator translator' stack (translator.visitBinop stash ty op)
      ty.valType lhs rhs (ofInt a) (ofInt b)) :
    ComputesNext stash float (translator.withStack stack) translator'
      [(lhs, ofInt a), (rhs, ofInt b)] ty.valType
      ((op.eval a b).map ofInt) := by
  cases ty with
  | i32 =>
    cases op with
    | add => exact computes_visitAdd .i32Add h rfl
    | sub => exact computes_visitSub .i32Sub h .i32 ⟨rfl, rfl⟩
    | mul => exact computes_visitMul .i32Mul h rfl ⟨rfl, rfl⟩
    | divS => exact computes_visitDiv .i32DivS h (.inl rfl)
    | divU => exact computes_visitDiv .i32DivU h (.inr rfl)
    | remS => exact computes_visitRemS .i32RemS h rfl ⟨rfl, rfl⟩
    | remU => exact computes_visitRemU .i32RemU h rfl ⟨rfl, rfl⟩
    | and => exact computes_visitAnd .i32And h rfl ⟨rfl, rfl⟩
    | or => exact computes_visitOr .i32Or h rfl ⟨rfl, rfl⟩
    | xor => exact computes_visitXor .i32Xor h rfl ⟨rfl, rfl⟩
    | shl => exact computes_visitShift .i32Shl h isAmount_shiftAmount32 noCustomOpt_immExact
    | shrS => exact computes_visitShiftOnes .i32ShrS h isAmount_shiftAmount32 (.inl rfl) ⟨rfl, rfl⟩
    | shrU => exact computes_visitShift .i32ShrU h isAmount_shiftAmount32 noCustomOpt_immExact
    | rotl =>
      exact computes_visitShiftOnes .i32Rotl h isAmount_shiftAmount32 (.inr (.inl rfl)) ⟨rfl, rfl⟩
    | rotr =>
      exact computes_visitShiftOnes .i32Rotr h isAmount_shiftAmount32 (.inr (.inr rfl)) ⟨rfl, rfl⟩
  | i64 =>
    cases op with
    | add => exact computes_visitAdd .i64Add h rfl
    | sub => exact computes_visitSub .i64Sub h .i64 ⟨rfl, rfl⟩
    | mul => exact computes_visitMul .i64Mul h rfl ⟨rfl, rfl⟩
    | divS => exact computes_visitDiv .i64DivS h (.inl rfl)
    | divU => exact computes_visitDiv .i64DivU h (.inr rfl)
    | remS => exact computes_visitRemS .i64RemS h rfl ⟨rfl, rfl⟩
    | remU => exact computes_visitRemU .i64RemU h rfl ⟨rfl, rfl⟩
    | and => exact computes_visitAnd .i64And h rfl ⟨rfl, rfl⟩
    | or => exact computes_visitOr .i64Or h rfl ⟨rfl, rfl⟩
    | xor => exact computes_visitXor .i64Xor h rfl ⟨rfl, rfl⟩
    | shl => exact computes_visitShift .i64Shl h isAmount_shiftAmount64 noCustomOpt_immExact
    | shrS => exact computes_visitShiftOnes .i64ShrS h isAmount_shiftAmount64 (.inl rfl) ⟨rfl, rfl⟩
    | shrU => exact computes_visitShift .i64ShrU h isAmount_shiftAmount64 noCustomOpt_immExact
    | rotl =>
      exact computes_visitShiftOnes .i64Rotl h isAmount_shiftAmount64 (.inr (.inl rfl)) ⟨rfl, rfl⟩
    | rotr =>
      exact computes_visitShiftOnes .i64Rotr h isAmount_shiftAmount64 (.inr (.inr rfl)) ⟨rfl, rfl⟩

/-- The visitor of a comparison computes the comparison. -/
lemma computes_visitRelop {ty : IntType} {op : IntRelop} {a b : BitVec ty.bits}
    (h : TranslatedOperator stash translator translator' stack (translator.visitRelop stash ty op)
      ty.valType lhs rhs (ofInt a) (ofInt b)) :
    ComputesNext stash float (translator.withStack stack) translator'
      [(lhs, ofInt a), (rhs, ofInt b)] .i32
      (.ok (ofBool (op.eval a b))) := by
  cases ty with
  | i32 =>
    cases op with
    | eq => exact computes_visitEquality .i32Eq h (IntRelop.eq_comm a b) (IntRelop.eq_self a)
    | ne => exact computes_visitEquality .i32Ne h (IntRelop.ne_comm a b) (IntRelop.ne_self a)
    | ltS =>
      exact computes_visitOrder .i32LtS h (fun _ _ => rfl) rfl (IntRelop.bounds_ltS (by decide))
    | ltU => exact computes_visitOrder .i32LtU h (fun _ _ => rfl) rfl IntRelop.bounds_ltU
    | gtS =>
      exact computes_visitOrder .i32GtS h (fun _ _ => rfl) rfl (IntRelop.bounds_gtS (by decide))
    | gtU => exact computes_visitOrder .i32GtU h (fun _ _ => rfl) rfl IntRelop.bounds_gtU
    | leS =>
      exact computes_visitOrder .i32LeS h (fun _ _ => rfl) rfl (IntRelop.bounds_leS (by decide))
    | leU => exact computes_visitOrder .i32LeU h (fun _ _ => rfl) rfl IntRelop.bounds_leU
    | geS =>
      exact computes_visitOrder .i32GeS h (fun _ _ => rfl) rfl (IntRelop.bounds_geS (by decide))
    | geU => exact computes_visitOrder .i32GeU h (fun _ _ => rfl) rfl IntRelop.bounds_geU
  | i64 =>
    cases op with
    | eq => exact computes_visitEquality .i64Eq h (IntRelop.eq_comm a b) (IntRelop.eq_self a)
    | ne => exact computes_visitEquality .i64Ne h (IntRelop.ne_comm a b) (IntRelop.ne_self a)
    | ltS =>
      exact computes_visitOrder .i64LtS h (fun _ _ => rfl) rfl (IntRelop.bounds_ltS (by decide))
    | ltU => exact computes_visitOrder .i64LtU h (fun _ _ => rfl) rfl IntRelop.bounds_ltU
    | gtS =>
      exact computes_visitOrder .i64GtS h (fun _ _ => rfl) rfl (IntRelop.bounds_gtS (by decide))
    | gtU => exact computes_visitOrder .i64GtU h (fun _ _ => rfl) rfl IntRelop.bounds_gtU
    | leS =>
      exact computes_visitOrder .i64LeS h (fun _ _ => rfl) rfl (IntRelop.bounds_leS (by decide))
    | leU => exact computes_visitOrder .i64LeU h (fun _ _ => rfl) rfl IntRelop.bounds_leU
    | geS =>
      exact computes_visitOrder .i64GeS h (fun _ _ => rfl) rfl (IntRelop.bounds_geS (by decide))
    | geU => exact computes_visitOrder .i64GeU h (fun _ _ => rfl) rfl IntRelop.bounds_geU

end All

end Visitors

/-- The emitted code of every binary operator and comparison on integers computes what Wasm
prescribes for the values of its operands, or traps as prescribed, whatever operands are constant
and whatever form is emitted: no word at all, an immediate on either side, or a constant of the
function. -/
theorem operators_exact {stash : MultiStash σ} {float : FloatOps}
    {translator translator' : FuncTranslator σ} {stack : ValueStack σ} {lhs rhs : TypedProvider}
    {ty : IntType} {a b : BitVec ty.bits} (hlast : translator.encoder.CopyIsLast) :
    (∀ op : IntBinop, TranslatedOperator stash translator translator' stack
      (translator.visitBinop stash ty op) ty.valType lhs rhs (.ofInt a) (.ofInt b) →
      Computes float translator translator' [(lhs, .ofInt a), (rhs, .ofInt b)] ty.valType
        ((op.eval a b).map .ofInt) translator.encoder.instrs.length) ∧
    (∀ op : IntRelop, TranslatedOperator stash translator translator' stack
      (translator.visitRelop stash ty op) ty.valType lhs rhs (.ofInt a) (.ofInt b) →
      Computes float translator translator' [(lhs, .ofInt a), (rhs, .ofInt b)] .i32
        (.ok (.ofBool (op.eval a b))) translator.encoder.instrs.length) := by
  refine ⟨fun op h => ?_, fun op h => ?_⟩
  · exact ((computes_visitBinop h).computes hlast).of_stack (pop2_consts h.pop2)
  · exact ((computes_visitRelop h).computes hlast).of_stack (pop2_consts h.pop2)

/-! ### A subtraction that adds an immediate -/

/-- In front of `i32.sub` between a local and the constant 5. -/
def subTranslator : FuncTranslator (List Nat) where
  reachable := true
  fuelInfo := .none
  encoder := ⟨[], ⟨[], []⟩, none⟩
  stack := ⟨⟨[.local 0, constOperand 5], 1, false, .reset⟩, ⟨[], [], .alloc, 1, 1, 1, 32766, 0⟩,
    .reset⟩
  visitPos := 4

/-- Its word. -/
def subWords : List Instruction := [⟨4, .binaryImm16 (.arith .i32Add) 1 0 (-5)⟩]

/-- A frame with the local 12, and a register. -/
def subLocal : Local Unit where
  cells := [12, 0]
  base := 0
  ip := ⟨0, 0⟩
  cache := ⟨0, none, none⟩
  store := .ofFuncs []

/-- The engine with that code. -/
def subEngine : Engine Unit := .ofCode [⟨subWords, [], 2⟩] []

theorem operators_exact_sub : ∃ n l, Steps (LocalStep subEngine) n subLocal l ∧
    l.read 1 = some 7 := by
  have htranslated : TranslatedOperator RegisterAlloc.firstVacant subTranslator
      { subTranslator with
        encoder := ⟨subWords, ⟨[], []⟩, some 0⟩
        stack := ⟨⟨[.dynamic 1], 0, false, .reset⟩, ⟨[], [], .alloc, 1, 2, 2, 32766, 0⟩, .reset⟩ }
      ⟨⟨[], 0, false, .reset⟩, ⟨[], [], .alloc, 1, 1, 1, 32766, 0⟩, .reset⟩
      (subTranslator.visitBinop RegisterAlloc.firstVacant .i32 .sub) .i32 (.register 0)
      (.const ⟨.i32, .ofI32 5, fun _ => rfl⟩) (.ofInt (12 : BitVec 32)) (.ofInt (5 : BitVec 32)) :=
    { visit := rfl
      reachable := rfl
      pop2 := rfl
      lhs_denotes := fun _ h => by simp at h
      rhs_denotes := by
        intro constant h
        rw [← Provider.const.inj h]
        exact ⟨rfl, rfl⟩ }
  have hlast : subTranslator.encoder.CopyIsLast := fun _ _ _ _ h => by simp [subTranslator] at h
  have hcomputes := (@operators_exact _ _ subEngine.float _ _ _ _ _ _ _ _ hlast).1 .sub htranslated
  have hcomputed := hcomputes.runs subEngine 0 [] [] .reset subLocal subLocal rfl rfl rfl (.refl _)
    (constsIn_reset _)
    (by
      intro result hpeek
      obtain rfl := Provider.register.inj (Except.ok.inj hpeek)
      rfl)
    (by
      rw [List.forall_mem_cons, List.forall_mem_singleton]
      exact ⟨rfl, rfl⟩)
    rfl
  cases hcomputed with
  | @value n l provider value steps ip peek typed value_eq =>
    obtain rfl := Except.ok.inj peek
    exact ⟨n, l, steps, value_eq⟩

end MotokoDebugger.Translator
