import MotokoDebugger.Executor.Copies
import MotokoDebugger.Translator.Branches

/-!
# Words of conditional branches

* `BranchCond`: the condition of a conditional branch.
* `Branches`: a word branches on the condition by an offset, in the 16-bit form or as a fallback.
* `branches_execute`: the frames from which such a word goes where it should.
-/

namespace MotokoDebugger.Translator

open Index16 Fallible Executor StateExcept

variable {T : Type}

/-- The condition of a conditional branch. -/
inductive BranchCond where
  | regs (cmp : Comparator) (lhs rhs : Reg)
  | imm (cmp : ImmComparator) (lhs : Reg) (rhs : Const16)
deriving Repr, DecidableEq

namespace BranchCond

def comparator : BranchCond → Comparator
  | .regs cmp _ _ => cmp
  | .imm cmp _ _ => cmp.toComparator

def lhs : BranchCond → Reg
  | .regs _ lhs _ => lhs
  | .imm _ lhs _ => lhs

/-- The 16-bit form. -/
def op (offset : BranchOffset16) : BranchCond → Op
  | .regs cmp lhs rhs => .branchCmp cmp lhs rhs offset
  | .imm cmp lhs rhs => .branchCmpImm cmp lhs rhs offset

/-- The operands, where the registers are `f`. -/
def operands (f : Reg → Option UntypedVal) : BranchCond → Option (UntypedVal × UntypedVal)
  | .regs _ lhs rhs => (f lhs).bind fun lhs => (f rhs).map fun rhs => (lhs, rhs)
  | .imm cmp lhs rhs => (f lhs).map fun lhs => (lhs, rhs.toUntyped cmp.immType)

/-- The register holds the right operand. -/
def RhsIn (consts : FuncLocalConsts) (reg : Reg) : BranchCond → Prop
  | .regs _ _ rhs => reg = rhs
  | .imm cmp _ rhs => consts.get reg = some (rhs.toUntyped cmp.immType)

end BranchCond

/-- A word that branches on the condition by the offset. -/
def Branches (consts : FuncLocalConsts) (cond : BranchCond) (offset : BranchOffset) (op : Op) :
    Prop :=
  match BranchOffset16.tryFrom offset with
  | some offset => op = cond.op offset
  | none => ∃ rhs params, op = .branchCmpFallback cond.lhs rhs params ∧
      consts.get params = some (ComparatorAndOffset.asU64 ⟨cond.comparator, offset⟩) ∧
      cond.RhsIn consts rhs

/-! ## What the encoder emits -/

lemma tryFrom_eq_some {offset : BranchOffset} {offset16 : BranchOffset16}
    (h : BranchOffset16.tryFrom offset = some offset16) : offset16.toInt = offset.toInt := by
  unfold BranchOffset16.tryFrom at h
  split at h
  case isFalse => simp at h
  case isTrue hfits =>
    rw [← Option.some.inj h]
    exact Int16.toInt_ofInt_of_le hfits.1 hfits.2

lemma tryFrom_isSome {offset : BranchOffset} : (BranchOffset16.tryFrom offset).isSome ↔
    -2 ^ 15 ≤ offset.toInt ∧ offset.toInt < 2 ^ 15 := by
  unfold BranchOffset16.tryFrom
  split
  case isTrue hfits => simpa using hfits
  case isFalse hfits => simpa using hfits

lemma makeBranchCmpFallback_ok {instrOffset : Nat} {consts consts' : FuncLocalConsts}
    {cmp : Comparator} {lhs rhs : Reg} {offset : BranchOffset} {word : Instruction}
    (h : InstrEncoder.makeBranchCmpFallback instrOffset consts cmp lhs rhs offset =
      .ok (word, consts')) :
    consts.Extends consts' ∧ ∃ params, word.op = .branchCmpFallback lhs rhs params ∧
      consts'.get params = some (ComparatorAndOffset.asU64 ⟨cmp, offset⟩) := by
  obtain ⟨⟨params, consts₁⟩, halloc, h⟩ := bind_eq_ok.1 h
  obtain ⟨rfl, rfl⟩ := Prod.mk.inj (Except.ok.inj h)
  obtain ⟨hext, hget, _⟩ := FuncLocalConsts.alloc_ok halloc
  exact ⟨hext, params, rfl, hget⟩

lemma branchCmp_ok {instrOffset : Nat} {consts consts' : FuncLocalConsts} {cmp : Comparator}
    {lhs rhs : Reg} {offset : BranchOffset} {word : Instruction}
    (h : InstrEncoder.branchCmp instrOffset consts cmp lhs rhs offset = .ok (word, consts')) :
    consts.Extends consts' ∧ Branches consts' (.regs cmp lhs rhs) offset word.op := by
  unfold InstrEncoder.branchCmp at h
  cases hfits : BranchOffset16.tryFrom offset with
  | some offset16 =>
    rw [hfits] at h
    rw [Branches, hfits]
    obtain ⟨rfl, rfl⟩ := Prod.mk.inj (Except.ok.inj h)
    exact ⟨.refl consts, rfl⟩
  | none =>
    rw [hfits] at h
    rw [Branches, hfits]
    obtain ⟨hext, params, hop, hget⟩ := makeBranchCmpFallback_ok h
    exact ⟨hext, rhs, params, hop, hget, rfl⟩

lemma branchCmpImm_ok {instrOffset : Nat} {consts consts' : FuncLocalConsts}
    {cmp : ImmComparator} {lhs : Reg} {rhs : Const16} {offset : BranchOffset} {word : Instruction}
    (h : InstrEncoder.branchCmpImm instrOffset consts cmp.immType cmp lhs rhs offset =
      .ok (word, consts')) :
    consts.Extends consts' ∧ Branches consts' (.imm cmp lhs rhs) offset word.op := by
  unfold InstrEncoder.branchCmpImm at h
  cases hfits : BranchOffset16.tryFrom offset with
  | some offset16 =>
    rw [hfits] at h
    rw [Branches, hfits]
    obtain ⟨rfl, rfl⟩ := Prod.mk.inj (Except.ok.inj h)
    exact ⟨.refl consts, rfl⟩
  | none =>
    rw [hfits] at h
    rw [Branches, hfits]
    obtain ⟨⟨reg, consts₁⟩, halloc, h⟩ := bind_eq_ok.1 h
    obtain ⟨hext₁, hreg, _⟩ := FuncLocalConsts.alloc_ok halloc
    obtain ⟨hext, params, hop, hget⟩ := makeBranchCmpFallback_ok h
    exact ⟨hext₁.trans hext, reg, params, hop, hget, hext _ _ hreg⟩

/-- The fix-up of a conditional branch. -/
lemma updateBranchOffset_cond {consts consts' : FuncLocalConsts} {cond : BranchCond}
    {instr word : Instruction} {offset : BranchOffset} (hop : instr.op = cond.op 0)
    (h : updateBranchOffset consts instr offset = .ok (word, consts')) :
    consts.Extends consts' ∧ Branches consts' cond offset word.op := by
  unfold updateBranchOffset at h
  rw [hop] at h
  cases cond with
  | regs cmp lhs rhs =>
    obtain ⟨_, _, h⟩ := bind_eq_ok.1 h
    exact branchCmp_ok h
  | imm cmp lhs rhs =>
    obtain ⟨_, _, h⟩ := bind_eq_ok.1 h
    exact branchCmpImm_ok h

/-! ## Where the words go -/

variable {env : Engine T} {l : Local T}

lemma branchTo_or_next (taken : Bool) (offset : Int) :
    (if taken then branchTo offset else nextInstr) l =
      .ok () { l with ip := l.ip.offset (if taken then offset else 1) } := by
  cases taken <;> rfl

lemma executeBranchBinop_eq {lhs rhs : Reg} {a b : UntypedVal} (offset : Int)
    (f : UntypedVal → UntypedVal → Bool) (hlhs : l.read lhs = some a)
    (hrhs : l.read rhs = some b) :
    executeBranchBinop lhs rhs offset f l =
      .ok () { l with ip := l.ip.offset (if f a b then offset else 1) } := by
  have hget : getRegister lhs l = .ok a l := getRegister_eq_ok.2 ⟨hlhs, rfl⟩
  have hget' : getRegister rhs l = .ok b l := getRegister_eq_ok.2 ⟨hrhs, rfl⟩
  rw [executeBranchBinop, bind_ok hget, bind_ok hget']
  exact branchTo_or_next _ offset

/-- The 16-bit form branches iff its condition holds. -/
lemma execute_cond {cond : BranchCond} {a b : UntypedVal} (offset : BranchOffset16)
    (h : cond.operands l.read = some (a, b)) :
    executeLocal env (cond.op offset) l = .ok () { l with
      ip := l.ip.offset (if cond.comparator.eval env.float a b then offset.toInt else 1) } := by
  cases cond with
  | regs cmp lhs rhs =>
    obtain ⟨a', ha, h⟩ := Option.bind_eq_some_iff.1 h
    obtain ⟨b', hb, h⟩ := Option.map_eq_some_iff.1 h
    obtain ⟨rfl, rfl⟩ := Prod.mk.inj h
    exact executeBranchBinop_eq _ _ ha hb
  | imm cmp lhs rhs =>
    obtain ⟨a', ha, h⟩ := Option.map_eq_some_iff.1 h
    obtain ⟨rfl, rfl⟩ := Prod.mk.inj h
    have hget : getRegister lhs l = .ok a' l := getRegister_eq_ok.2 ⟨ha, rfl⟩
    have heval : cmp.eval = cmp.toComparator.eval env.float := by
      cases cmp <;> rfl
    show executeBranchBinopImm lhs _ offset.toInt cmp.eval l = _
    rw [executeBranchBinopImm, bind_ok hget, heval]
    exact branchTo_or_next _ _

/-- The fallback branches to itself, on the condition if the offset is negative and on the equality
of the lower halves of the operands otherwise. -/
lemma execute_fallback {cond : BranchCond} {rhs params : Reg} {a b : UntypedVal}
    {offset : BranchOffset} (h : cond.operands l.read = some (a, b)) (hrhs : l.read rhs = some b)
    (hparams : l.read params = some (ComparatorAndOffset.asU64 ⟨cond.comparator, offset⟩)) :
    executeLocal env (.branchCmpFallback cond.lhs rhs params) l = .ok () { l with
      ip := l.ip.offset (if (if offset.toInt < 0 then cond.comparator else .int .i32Eq).eval
        env.float a b then 0 else 1) } := by
  have hget : getRegister params l = .ok _ l := getRegister_eq_ok.2 ⟨hparams, rfl⟩
  have hlhs : l.read cond.lhs = some a := by
    cases cond with
    | regs cmp lhs rhs =>
      obtain ⟨a', ha, h⟩ := Option.bind_eq_some_iff.1 h
      obtain ⟨b', hb, h⟩ := Option.map_eq_some_iff.1 h
      rw [← (Prod.mk.inj h).1]
      exact ha
    | imm cmp lhs rhs =>
      obtain ⟨a', ha, h⟩ := Option.map_eq_some_iff.1 h
      rw [← (Prod.mk.inj h).1]
      exact ha
  show executeBranchCmpFallback env cond.lhs rhs params l = _
  rw [executeBranchCmpFallback, bind_ok hget, ComparatorAndOffset.fromUntyped_asU64]
  exact executeBranchBinop_eq 0 _ hlhs hrhs

/-- The offset fits in 16 bits, or the word is not to branch and does not: a fallback decides
whether to branch by the condition if the offset is negative, and otherwise by the equality of the
lower halves of the operands. -/
def GoesRight (taken : Bool) (offset : BranchOffset) (a b : UntypedVal) : Prop :=
  (BranchOffset16.tryFrom offset).isSome ∨
    taken = false ∧ (offset.toInt < 0 ∨ a.toI32 ≠ b.toI32)

/-- A conditional branch only moves the instruction pointer. It goes where it should iff its offset
fits in 16 bits, or a fallback happens not to branch. -/
lemma branches_execute {consts pool : FuncLocalConsts} {cond : BranchCond} {offset : BranchOffset}
    {op : Op} {a b : UntypedVal} (h : Branches consts cond offset op) (hpool : consts.Extends pool)
    (hconsts : ConstsIn pool l) (hoperands : cond.operands l.read = some (a, b)) :
    ∃ delta : Int, executeLocal env op l = .ok () { l with ip := l.ip.offset delta } ∧
      (delta = (if cond.comparator.eval env.float a b then offset.toInt else 1) ↔
        GoesRight (cond.comparator.eval env.float a b) offset a b) := by
  unfold GoesRight
  cases hfits : BranchOffset16.tryFrom offset with
  | some offset16 =>
    rw [Branches, hfits] at h
    rw [h, execute_cond offset16 hoperands, tryFrom_eq_some hfits]
    exact ⟨_, rfl, fun _ => .inl rfl, fun _ => rfl⟩
  | none =>
    rw [Branches, hfits] at h
    obtain ⟨rhs, params, rfl, hparams, hrhs⟩ := h
    have hparams' : l.read params = _ := hconsts _ _ (hpool _ _ hparams)
    have hrhs' : l.read rhs = some b := by
      cases cond with
      | regs cmp lhs rhs' =>
        obtain ⟨a', ha, hb⟩ := Option.bind_eq_some_iff.1 hoperands
        obtain ⟨b', hb, heq⟩ := Option.map_eq_some_iff.1 hb
        rw [← (Prod.mk.inj heq).2, hrhs]
        exact hb
      | imm cmp lhs rhs' =>
        obtain ⟨a', ha, heq⟩ := Option.map_eq_some_iff.1 hoperands
        rw [← (Prod.mk.inj heq).2]
        exact hconsts _ _ (hpool _ _ hrhs)
    have hwide : ¬ (-2 ^ 15 ≤ offset.toInt ∧ offset.toInt < 2 ^ 15) := by
      rw [← tryFrom_isSome, hfits]
      simp
    refine ⟨_, execute_fallback hoperands hrhs' hparams', ?_⟩
    have heq32 : (Comparator.int .i32Eq).eval env.float a b = decide (a.toI32 = b.toI32) := rfl
    -- the offset is neither that of the branch to itself nor that of the next instruction
    by_cases hneg : offset.toInt < 0
    · rw [if_pos hneg]
      cases cond.comparator.eval env.float a b <;> simp [hneg]
      omega
    · rw [if_neg hneg, heq32]
      cases cond.comparator.eval env.float a b <;> by_cases hlow : a.toI32 = b.toI32 <;>
        simp [hneg, hlow] <;> omega

end MotokoDebugger.Translator
