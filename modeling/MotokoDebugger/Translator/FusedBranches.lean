import MotokoDebugger.Translator.BranchWords

/-!
# Fused comparisons and branches

A conditional branch that takes the place of a comparison, against the comparison with a branch on
its result behind it.

* `compare_ok`: what the comparison leaves.
* `tryFuse_ok`: the condition of the fused branch.
* `fusions_agree_iff`: where the fused instructions do what the unfused ones do.
-/

namespace MotokoDebugger.Translator

open Fallible Executor

variable {T : Type}

/-- The operands of a comparison, where the registers are `f`. -/
def cmpOperands (f : Reg → Option UntypedVal) : Op → Option (UntypedVal × UntypedVal)
  | .binary _ _ lhs rhs => (f lhs).bind fun lhs => (f rhs).map fun rhs => (lhs, rhs)
  | .binaryImm16 op _ lhs rhs => (f lhs).map fun lhs => (lhs, rhs.toUntyped op.immType)
  | _ => none

/-- The comparator of the fused branch for that of the comparison. -/
def branchOn : (eqz : Bool) → Comparator → Option Comparator
  | true => Comparator.negate
  | false => some

/-- Is the branch on the result of a comparison taken? -/
def branchTaken (eqz : Bool) (condition : UntypedVal) : Bool :=
  if eqz then condition.toI32 = 0 else condition.toI32 ≠ 0

/-! ## The comparison -/

section
variable {env : Engine T} {l l₁ : Local T}

lemma compare_ok {op : Op} {cmp : Comparator} {condition : Reg}
    (hcmp : Comparator.fromCmpInstruction op = some cmp) (hresult : op.resultReg = some condition)
    (h : executeLocal env op l = .ok () l₁) :
    ∃ a b value, cmpOperands l.read op = some (a, b) ∧
      (value.toI32 = 0 ↔ cmp.eval env.float a b = false) ∧
      l.Moved l₁ (Function.update l.read condition (some value)) := by
  cases op with
  | binary op result lhs rhs =>
    obtain rfl := Option.some.inj hresult
    obtain ⟨a, l₂, hlhs, h⟩ := StateExcept.bind_eq_ok.1 h
    obtain ⟨ha, rfl⟩ := getRegister_eq_ok.1 hlhs
    obtain ⟨b, l₂, hrhs, h⟩ := StateExcept.bind_eq_ok.1 h
    obtain ⟨hb, rfl⟩ := getRegister_eq_ok.1 hrhs
    obtain ⟨_, l₂, hset, h⟩ := StateExcept.bind_eq_ok.1 h
    obtain rfl := (EStateM.Result.ok.inj h).2
    refine ⟨a, b, op.eval env.float a b, ?_, fromCmpInstruction_binary hcmp env.float a b,
      (setRegister_ok hset).2.2.setIp _⟩
    rw [cmpOperands, ha, hb]
    rfl
  | binaryImm16 op result lhs rhs =>
    obtain rfl := Option.some.inj hresult
    obtain ⟨a, l₂, hlhs, h⟩ := StateExcept.bind_eq_ok.1 h
    obtain ⟨ha, rfl⟩ := getRegister_eq_ok.1 hlhs
    obtain ⟨_, l₂, hset, h⟩ := StateExcept.bind_eq_ok.1 h
    obtain rfl := (EStateM.Result.ok.inj h).2
    refine ⟨a, rhs.toUntyped op.immType, op.eval a rhs, ?_,
      fromCmpInstruction_imm hcmp env.float a rhs, (setRegister_ok hset).2.2.setIp _⟩
    rw [cmpOperands, ha]
    rfl
  | _ => simp [Comparator.fromCmpInstruction] at hcmp

/-- The comparator of the fused branch decides as the branch on the result does. -/
lemma branchOn_eval {eqz : Bool} {cmp fused : Comparator} (h : branchOn eqz cmp = some fused)
    (hfloat : env.float.NeIsNotEq) {a b value : UntypedVal}
    (hvalue : value.toI32 = 0 ↔ cmp.eval env.float a b = false) :
    fused.eval env.float a b = branchTaken eqz value := by
  have hfused : fused.eval env.float a b = (cmp.eval env.float a b ^^ eqz) := by
    cases eqz with
    | true => rw [Comparator.eval_negate h hfloat, Bool.xor_true]
    | false =>
      obtain rfl := Option.some.inj h
      rw [Bool.xor_false]
  rw [hfused]
  cases heval : cmp.eval env.float a b <;> rw [heval] at hvalue <;> cases eqz <;>
    simp [branchTaken] at hvalue ⊢ <;> exact hvalue

end

/-! ## The fused branch -/

lemma tryResolveLabelFor_ok {enc enc' : InstrEncoder} {label instr : Nat} {offset : BranchOffset}
    (h : enc.tryResolveLabelFor label instr = .ok (offset, enc')) :
    (∃ target, enc.labels.labels[label]? = some (.pinned target) ∧
      fromSrcToDst instr target = .ok offset ∧ enc' = enc) ∨
    (enc.labels.labels[label]? = some .unpinned ∧ offset = .uninit ∧
      enc' = { enc with labels.users := enc.labels.users ++ [⟨label, instr⟩] }) := by
  obtain ⟨⟨offset', labels⟩, hresolve, h⟩ := bind_eq_ok.1 h
  obtain ⟨rfl, rfl⟩ := Prod.mk.inj (Except.ok.inj h)
  unfold LabelRegistry.tryResolveLabel at hresolve
  split at hresolve
  case h_1 target hlabel =>
    obtain ⟨offset, hoffset, hresolve⟩ := bind_eq_ok.1 hresolve
    obtain ⟨rfl, rfl⟩ := Prod.mk.inj (Except.ok.inj hresolve)
    exact .inl ⟨target, hlabel, hoffset, rfl⟩
  case h_2 hlabel =>
    obtain ⟨rfl, rfl⟩ := Prod.mk.inj (Except.ok.inj hresolve)
    exact .inr ⟨hlabel, rfl, rfl⟩
  case h_3 => simp at hresolve

lemma tryResolveLabel_ok {enc : InstrEncoder} {label : Nat} {result : BranchOffset × InstrEncoder}
    (h : enc.tryResolveLabel label = .ok result) :
    enc.tryResolveLabelFor label enc.instrs.length = .ok result := by
  obtain ⟨next, hnext, h⟩ := bind_eq_ok.1 h
  rw [← nextInstr_ok hnext]
  exact h

/-- Only the labels change. -/
lemma tryResolveLabelFor_labels {enc enc' : InstrEncoder} {label instr : Nat}
    {offset : BranchOffset} (h : enc.tryResolveLabelFor label instr = .ok (offset, enc')) :
    enc' = { enc with labels := enc'.labels } := by
  obtain ⟨_, _, _, rfl⟩ | ⟨_, _, rfl⟩ := tryResolveLabelFor_ok h <;> rfl

/-- Every comparator that a fused branch can have has a form for the immediate of the comparison. -/
lemma branchCmpInstrImm_ok {eqz : Bool} {op : BinaryImm16Op} {cmp fused : Comparator}
    (hcmp : op.comparator = some cmp) (hfused : branchOn eqz cmp = some fused) :
    ∃ imm : ImmComparator, fused.branchCmpInstrImm op.immType = some imm ∧
      imm.toComparator = fused ∧ imm.immType = op.immType := by
  cases op with
  | compare op =>
    obtain rfl := Option.some.inj hcmp
    cases eqz with
    | true =>
      obtain rfl := Option.some.inj hfused
      have hty : op.negate.immType = BinaryImm16Op.immType (.compare op) := op.immType_negate
      exact ⟨.int op.negate, if_pos hty, rfl, hty⟩
    | false =>
      obtain rfl := Option.some.inj hfused
      exact ⟨.int op, if_pos rfl, rfl, rfl⟩
  | arith op =>
    obtain ⟨test, htest, rfl⟩ := Option.map_eq_some_iff.1 hcmp
    have hty : BinaryImm16Op.immType (.arith op) = .i32 := ArithOp.immType_of_bitTest htest
    rw [hty]
    cases eqz with
    | true =>
      obtain rfl := Option.some.inj hfused
      exact ⟨.bits test.negate, rfl, rfl, rfl⟩
    | false =>
      obtain rfl := Option.some.inj hfused
      exact ⟨.bits test, rfl, rfl, rfl⟩

/-- The condition of a branch that takes the place of a comparison whose result is the condition, and
no local. `none` if the branch is not fused. -/
def fusedCond (space : Reg → RegisterSpace) (eqz : Bool) (condition : Reg) (op : Op) :
    Option BranchCond := do
  let cmp ← (Comparator.fromCmpInstruction op).bind (branchOn eqz)
  if op.resultReg ≠ some condition ∨ space condition = .local then none
  match op with
  | .binary _ _ lhs rhs => return .regs cmp lhs rhs
  | .binaryImm16 op _ lhs rhs => return .imm (← cmp.branchCmpInstrImm op.immType) lhs rhs
  | _ => none

lemma fusedCond_ok {space : Reg → RegisterSpace} {eqz : Bool} {condition : Reg} {op : Op}
    {cmp fused : Comparator} (hcmp : Comparator.fromCmpInstruction op = some cmp)
    (hfused : branchOn eqz cmp = some fused) (hresult : op.resultReg = some condition)
    (hspace : space condition ≠ .local) :
    ∃ cond, fusedCond space eqz condition op = some cond ∧ cond.comparator = fused ∧
      ∀ f, cond.operands f = cmpOperands f op := by
  have hkept : ¬ (op.resultReg ≠ some condition ∨ space condition = .local) := by
    simp [hresult, hspace]
  rw [fusedCond, hcmp, Option.bind_some, hfused, Option.bind_eq_bind, Option.bind_some,
    if_neg hkept]
  cases op with
  | binary op result lhs rhs => exact ⟨.regs fused lhs rhs, rfl, rfl, fun _ => rfl⟩
  | binaryImm16 op result lhs rhs =>
    obtain ⟨imm, himm, hto, hty⟩ := branchCmpInstrImm_ok hcmp hfused
    refine ⟨.imm imm lhs rhs, by simp [himm], hto, fun f => ?_⟩
    rw [BranchCond.operands, cmpOperands, hty]
  | _ => simp [Comparator.fromCmpInstruction] at hcmp

/-- What `try_fuse_branch_cmp_for_instr` returns. -/
lemma tryFuse_ok {enc : InstrEncoder} {space : Reg → RegisterSpace} {consts : FuncLocalConsts}
    {k label : Nat} {last : Instruction} {condition : Reg} {eqz : Bool} {cmp fused : Comparator}
    {result : Option (Instruction × InstrEncoder × FuncLocalConsts)}
    (hcmp : Comparator.fromCmpInstruction last.op = some cmp) (hfused : branchOn eqz cmp = some fused)
    (h : enc.tryFuseBranchCmpForInstr space consts k last condition label fused = .ok result) :
    fusedCond space eqz condition last.op = none ∧ result = none ∨
    ∃ cond word enc' consts' offset, fusedCond space eqz condition last.op = some cond ∧
      result = some (word, enc', consts') ∧ enc.tryResolveLabelFor label k = .ok (offset, enc') ∧
      consts.Extends consts' ∧ Branches consts' cond offset word.op := by
  have hcond : (Comparator.fromCmpInstruction last.op).bind (branchOn eqz) = some fused := by
    rw [hcmp, Option.bind_some, hfused]
  unfold InstrEncoder.tryFuseBranchCmpForInstr at h
  rw [fusedCond, hcond, Option.bind_eq_bind, Option.bind_some]
  cases hop : last.op with
  | binary op reg lhs rhs =>
    rw [hop] at h hcmp
    have hcomparator : op.comparator = some cmp := hcmp
    dsimp only at h
    by_cases hkept : reg = condition ∧ space condition ≠ .local
    · obtain ⟨rfl, hspace⟩ := hkept
      rw [if_neg (by simp [hcomparator, hspace])] at h
      obtain ⟨⟨offset, enc'⟩, hresolve, h⟩ := bind_eq_ok.1 h
      obtain ⟨⟨word, consts'⟩, hword, h⟩ := bind_eq_ok.1 h
      obtain ⟨hext, hbranches⟩ := branchCmp_ok hword
      exact .inr ⟨.regs fused lhs rhs, word, enc', consts', offset, by simp [Op.resultReg, hspace],
        (Except.ok.inj h).symm, hresolve, hext, hbranches⟩
    · have hother : some reg ≠ some condition ∨ space condition = .local := by
        simpa [Classical.or_iff_not_imp_left] using hkept
      have hlocal : op.comparator = none ∨ space reg = .local ∨ reg ≠ condition := by
        by_cases hreg : reg = condition
        · exact .inr (.inl (by simpa [hreg] using hkept))
        · exact .inr (.inr hreg)
      rw [if_pos hlocal] at h
      exact .inl ⟨if_pos hother, (Except.ok.inj h).symm⟩
  | binaryImm16 op reg lhs rhs =>
    rw [hop] at h hcmp
    have hcomparator : op.comparator = some cmp := hcmp
    obtain ⟨imm, himm, hto, hty⟩ := branchCmpInstrImm_ok hcomparator hfused
    dsimp only at h
    by_cases hkept : reg = condition ∧ space condition ≠ .local
    · obtain ⟨rfl, hspace⟩ := hkept
      rw [if_neg (by simp [hcomparator, hspace]), himm] at h
      dsimp only at h
      obtain ⟨⟨offset, enc'⟩, hresolve, h⟩ := bind_eq_ok.1 h
      rw [← hty] at h
      obtain ⟨⟨word, consts'⟩, hword, h⟩ := bind_eq_ok.1 h
      obtain ⟨hext, hbranches⟩ := branchCmpImm_ok hword
      exact .inr ⟨.imm imm lhs rhs, word, enc', consts', offset,
        by simp [Op.resultReg, hspace, himm], (Except.ok.inj h).symm, hresolve, hext, hbranches⟩
    · have hother : some reg ≠ some condition ∨ space condition = .local := by
        simpa [Classical.or_iff_not_imp_left] using hkept
      have hlocal : op.comparator = none ∨ space reg = .local ∨ reg ≠ condition := by
        by_cases hreg : reg = condition
        · exact .inr (.inl (by simpa [hreg] using hkept))
        · exact .inr (.inr hreg)
      rw [if_pos hlocal] at h
      exact .inl ⟨if_pos hother, (Except.ok.inj h).symm⟩
  | _ =>
    rw [hop] at hcmp
    simp [Comparator.fromCmpInstruction] at hcmp

/-- The branch at `user` to the label, with the offset that the label has in the end: its target was
known at once, or is filled in later. -/
inductive Resolved (enc : InstrEncoder) (consts : FuncLocalConsts) (label user : Nat)
    (offset : BranchOffset) (op : Op) (pool : FuncLocalConsts) : Prop where
  | pinned (target : Nat) (word : Instruction)
      (label_eq : enc.labels.labels[label]? = some (.pinned target))
      (offset_eq : fromSrcToDst user target = .ok offset)
      (word_eq : enc.instrs[user]? = some word) (op_eq : op = word.op)
      (pool_ext : consts.Extends pool)
  | later (word final : Instruction) (consts' consts'' : FuncLocalConsts)
      (label_eq : enc.labels.labels[label]? = some .unpinned)
      (word_eq : enc.instrs[user]? = some word)
      (update_eq : updateBranchOffset consts' word offset = .ok (final, consts''))
      (op_eq : op = final.op) (pool_ext : consts''.Extends pool)

/-- The word that a resolved branch ends up as. -/
lemma resolved_branches {enc enc₁ : InstrEncoder} {consts pool : FuncLocalConsts} {label k : Nat}
    {fused : Instruction} {offset final : BranchOffset} {cond : BranchCond} {op : Op}
    (hk : k < enc.instrs.length) (hresolve : enc.tryResolveLabelFor label k = .ok (offset, enc₁))
    (hbranches : Branches consts cond offset fused.op)
    (h : Resolved { enc₁ with instrs := enc.instrs.set k fused } consts label k final op pool) :
    ∃ consts', consts'.Extends pool ∧ Branches consts' cond final op := by
  obtain ⟨target, hlabel, hoffset, rfl⟩ | ⟨hlabel, rfl, rfl⟩ := tryResolveLabelFor_ok hresolve
  · cases h with
    | pinned target' word hlabel' hoffset' hword hop hpool =>
      obtain rfl : target = target' := by simpa [hlabel] using hlabel'
      obtain rfl := Except.ok.inj (hoffset.symm.trans hoffset')
      obtain rfl : fused = word := by simpa [List.getElem?_set_self hk] using hword
      exact ⟨consts, hpool, hop ▸ hbranches⟩
    | later word final consts' consts'' hlabel' => simp [hlabel] at hlabel'
  · cases h with
    | pinned target' word hlabel' => simp [hlabel] at hlabel'
    | later word final consts' consts'' hlabel' hword hupdate hop hpool =>
      obtain rfl : fused = word := by simpa [List.getElem?_set_self hk] using hword
      -- the offset 0 of a label that is not pinned fits
      obtain ⟨hext, hfinal⟩ := updateBranchOffset_cond hbranches hupdate
      exact ⟨consts'', hpool, hop ▸ hfinal⟩

/-- `encode_branch_eqz` or `encode_branch_nez`. -/
def encodeBranch (enc : InstrEncoder) (space : Reg → RegisterSpace) (eqz : Bool)
    (instrOffset : Nat) (consts : FuncLocalConsts) (condition : Reg) (label : Nat) :
    Except Failure (InstrEncoder × FuncLocalConsts) :=
  match eqz with
  | true => enc.encodeBranchEqz space instrOffset consts condition label
  | false => enc.encodeBranchNez space instrOffset consts condition label

lemma encodeBranch_eq (enc : InstrEncoder) (space : Reg → RegisterSpace) (eqz : Bool)
    (instrOffset : Nat) (consts : FuncLocalConsts) (condition : Reg) (label : Nat) :
    encodeBranch enc space eqz instrOffset consts condition label =
      enc.encodeBranchCond space (branchOn eqz) (if eqz then .i32Eq else .i32Ne) instrOffset consts
        condition label := by
  cases eqz <;> rfl

/-- The condition compared with zero. -/
def zeroCond (eqz : Bool) (condition : Reg) : BranchCond :=
  .imm (.int (if eqz then .i32Eq else .i32Ne)) condition 0

/-- The position and the condition of the branch that `encodeBranch` emits. -/
def emittedCond (enc : InstrEncoder) (space : Reg → RegisterSpace) (eqz : Bool) (condition : Reg) :
    Nat × BranchCond :=
  let fused := do
    let k ← enc.lastInstr
    let last ← enc.instrs[k]?
    return (k, ← fusedCond space eqz condition last.op)
  fused.getD (enc.instrs.length, zeroCond eqz condition)

lemma encodeBranchUnopt_ok {enc enc' : InstrEncoder} {eqz : Bool} {instrOffset label : Nat}
    {consts consts' : FuncLocalConsts} {condition : Reg}
    (h : enc.encodeBranchUnopt (if eqz then .i32Eq else .i32Ne) instrOffset consts condition label =
      .ok (enc', consts')) :
    ∃ word enc₁ offset, enc.tryResolveLabelFor label enc.instrs.length = .ok (offset, enc₁) ∧
      enc' = { enc₁ with
        instrs := enc.instrs ++ [word]
        lastInstr := some enc.instrs.length } ∧
      consts.Extends consts' ∧ Branches consts' (zeroCond eqz condition) offset word.op := by
  obtain ⟨⟨offset, enc₁⟩, hresolve, h⟩ := bind_eq_ok.1 h
  obtain ⟨⟨word, consts₁⟩, hword, h⟩ := bind_eq_ok.1 h
  obtain ⟨⟨_, enc₂⟩, hpush, h⟩ := bind_eq_ok.1 h
  obtain ⟨rfl, rfl⟩ := Prod.mk.inj (Except.ok.inj h)
  obtain ⟨rfl, -⟩ := pushInstr_ok hpush
  have hty : ImmType.i32 = (ImmComparator.int (if eqz then .i32Eq else .i32Ne)).immType := by
    cases eqz <;> rfl
  rw [hty] at hword
  obtain ⟨hext, hbranches⟩ := branchCmpImm_ok hword
  have hresolve' := tryResolveLabel_ok hresolve
  refine ⟨word, enc₁, offset, hresolve', ?_, hext, hbranches⟩
  rw [tryResolveLabelFor_labels hresolve']

/-- A conditional branch behind the last instruction is fused with it or not. -/
lemma encodeBranch_last {enc enc' : InstrEncoder} {space : Reg → RegisterSpace} {eqz : Bool}
    {instrOffset k label : Nat} {consts consts' : FuncLocalConsts} {condition : Reg}
    {last : Instruction} (hlast : enc.lastInstr = some k) (hword : enc.instrs[k]? = some last)
    (h : encodeBranch enc space eqz instrOffset consts condition label = .ok (enc', consts')) :
    fusedCond space eqz condition last.op = none ∧
      enc.encodeBranchUnopt (if eqz then .i32Eq else .i32Ne) instrOffset consts condition label =
        .ok (enc', consts') ∨
    ∃ cond word enc₁ offset, fusedCond space eqz condition last.op = some cond ∧
      enc.tryResolveLabelFor label k = .ok (offset, enc₁) ∧ consts.Extends consts' ∧
      Branches consts' cond offset word.op ∧ enc' = { enc₁ with instrs := enc.instrs.set k word } := by
  rw [encodeBranch_eq, InstrEncoder.encodeBranchCond, hlast] at h
  dsimp only at h
  rw [hword] at h
  dsimp only at h
  cases hcmp : (Comparator.fromCmpInstruction last.op).bind (branchOn eqz) with
  | none =>
    rw [hcmp] at h
    refine .inl ⟨?_, h⟩
    rw [fusedCond, hcmp]
    rfl
  | some fused =>
    rw [hcmp] at h
    obtain ⟨cmp, hcmp, hfused⟩ := Option.bind_eq_some_iff.1 hcmp
    obtain ⟨result, hfuse, h⟩ := bind_eq_ok.1 h
    obtain ⟨hcond, rfl⟩ | ⟨cond, word, enc₁, consts₁, offset, hcond, rfl, hresolve, hext,
      hbranches⟩ := tryFuse_ok hcmp hfused hfuse
    · exact .inl ⟨hcond, h⟩
    · obtain ⟨rfl, rfl⟩ := Prod.mk.inj (Except.ok.inj h)
      refine .inr ⟨cond, word, enc₁, offset, hcond, hresolve, hext, hbranches, ?_⟩
      rw [tryResolveLabelFor_labels hresolve]

/-- A conditional branch is pushed, or takes the place of the last instruction. -/
lemma encodeBranch_ok {enc enc' : InstrEncoder} {space : Reg → RegisterSpace} {eqz : Bool}
    {instrOffset label : Nat} {consts consts' : FuncLocalConsts} {condition : Reg}
    (h : encodeBranch enc space eqz instrOffset consts condition label = .ok (enc', consts')) :
    ∃ k cond word enc₁ offset, emittedCond enc space eqz condition = (k, cond) ∧
      enc.tryResolveLabelFor label k = .ok (offset, enc₁) ∧ consts.Extends consts' ∧
      Branches consts' cond offset word.op ∧
      (k = enc.instrs.length ∧
        enc' = { enc₁ with instrs := enc.instrs ++ [word], lastInstr := some k } ∨
      enc.lastInstr = some k ∧
        (∃ last, enc.instrs[k]? = some last ∧ fusedCond space eqz condition last.op = some cond) ∧
        enc' = { enc₁ with instrs := enc.instrs.set k word }) := by
  unfold emittedCond
  cases hlast : enc.lastInstr with
  | none =>
    rw [encodeBranch_eq, InstrEncoder.encodeBranchCond, hlast] at h
    obtain ⟨word, enc₁, offset, hresolve, rfl, hext, hbranches⟩ := encodeBranchUnopt_ok h
    exact ⟨_, _, word, enc₁, offset, rfl, hresolve, hext, hbranches, .inl ⟨rfl, rfl⟩⟩
  | some k =>
    cases hword : enc.instrs[k]? with
    | none =>
      rw [encodeBranch_eq, InstrEncoder.encodeBranchCond, hlast] at h
      dsimp only at h
      rw [hword] at h
      simp at h
    | some last =>
      obtain ⟨hcond, h⟩ | ⟨cond, word, enc₁, offset, hcond, hresolve, hext, hbranches, rfl⟩ :=
        encodeBranch_last hlast hword h
      · obtain ⟨word, enc₁, offset, hresolve, rfl, hext, hbranches⟩ := encodeBranchUnopt_ok h
        exact ⟨_, _, word, enc₁, offset, by simp [hword, hcond], hresolve, hext, hbranches,
          .inl ⟨rfl, rfl⟩⟩
      · exact ⟨k, cond, word, enc₁, offset, by simp [hword, hcond], hresolve, hext, hbranches,
          .inr ⟨rfl, ⟨last, hword, hcond⟩, rfl⟩⟩

/-- The fused branch takes the place of the comparison. -/
lemma encodeBranch_fused {enc enc' : InstrEncoder} {space : Reg → RegisterSpace} {eqz : Bool}
    {instrOffset k label : Nat} {consts consts' : FuncLocalConsts} {condition : Reg}
    {word : Instruction} {cmp fused : Comparator} (hlast : enc.lastInstr = some k)
    (hword : enc.instrs[k]? = some word) (hcmp : Comparator.fromCmpInstruction word.op = some cmp)
    (hfused : branchOn eqz cmp = some fused) (hresult : word.op.resultReg = some condition)
    (hspace : space condition ≠ .local)
    (h : encodeBranch enc space eqz instrOffset consts condition label = .ok (enc', consts')) :
    ∃ fusedWord enc₁ offset cond, enc.tryResolveLabelFor label k = .ok (offset, enc₁) ∧
      enc' = { enc₁ with instrs := enc.instrs.set k fusedWord } ∧ consts.Extends consts' ∧
      Branches consts' cond offset fusedWord.op ∧ cond.comparator = fused ∧
      ∀ f, cond.operands f = cmpOperands f word.op := by
  obtain ⟨cond, hcond, hcomparator, hoperands⟩ := fusedCond_ok hcmp hfused hresult hspace
  obtain ⟨k', cond', fusedWord, enc₁, offset, hemitted, hresolve, hext, hbranches, h⟩ :=
    encodeBranch_ok h
  have hemitted' : emittedCond enc space eqz condition = (k, cond) := by
    unfold emittedCond
    rw [hlast]
    simp [hword, hcond]
  obtain ⟨rfl, rfl⟩ := Prod.mk.inj (hemitted'.symm.trans hemitted)
  obtain ⟨hk, -⟩ | ⟨-, -, rfl⟩ := h
  · have hlt := (List.getElem?_eq_some_iff.1 hword).1
    omega
  · exact ⟨fusedWord, enc₁, offset, cond, hresolve, rfl, hext, hbranches, hcomparator, hoperands⟩

/-! ## `i32.eqz` of a bit operation -/

section
variable {env : Engine T} {l l₁ : Local T}

lemma fuseEqz_eval {op fused : ArithOp} (h : InstrEncoder.fuseEqz op = some fused)
    (lhs rhs : UntypedVal) :
    fused.eval lhs rhs = .ofBool (decide ((op.eval lhs rhs).toI32 = 0)) := by
  cases op <;> simp only [InstrEncoder.fuseEqz, Option.some.injEq, reduceCtorEq] at h <;> subst h <;>
    simp [ArithOp.eval, UntypedVal.lift32]

/-- Writing a register once more. -/
lemma setRegister_again {reg : Reg} {value : UntypedVal} (value' : UntypedVal)
    (h : setRegister reg value l = .ok () l₁) :
    ∃ l₂, setRegister reg value' l = .ok () l₂ ∧ l₁.read reg = some value ∧
      l₁.write reg value' = some l₂ := by
  obtain ⟨hthere, _, hmoved⟩ := setRegister_ok h
  obtain ⟨i, hi⟩ := Option.isSome_iff_exists.1 (Local.read_isSome.1 hthere)
  have hwrite : ∀ v, l.write reg v = some { l with cells := l.cells.set i v } := by
    intro v
    rw [Local.write, hi]
    rfl
  have hset : ∀ v, setRegister reg v l = .ok () { l with cells := l.cells.set i v } := by
    intro v
    show (assume (l.write reg v) >>= fun s => set s) l = _
    rw [hwrite]
    rfl
  obtain rfl : { l with cells := l.cells.set i value } = l₁ :=
    (EStateM.Result.ok.inj ((hset value).symm.trans h)).2
  have hindex : ({ l with cells := l.cells.set i value } : Local T).index reg = some i := by
    rw [← hi]
    simp only [Local.index, List.length_set]
  refine ⟨_, hset value', by rw [hmoved.read, Function.update_self], ?_⟩
  rw [Local.write, hindex]
  show some { l with cells := (l.cells.set i value).set i value' } = _
  rw [List.set_set]

/-- An instruction that ends with a write, and one that ends with another write to the same
register. -/
lemma nextInstr_again {reg : Reg} {value : UntypedVal} (value' : UntypedVal)
    (h : (setRegister reg value >>= fun _ => nextInstr) l = .ok () l₁) :
    ∃ l₂, (setRegister reg value' >>= fun _ => nextInstr) l = .ok () l₂ ∧
      l₁.read reg = some value ∧ l₁.write reg value' = some l₂ := by
  obtain ⟨_, l', hset, hnext⟩ := StateExcept.bind_eq_ok.1 h
  obtain rfl := (EStateM.Result.ok.inj hnext).2
  obtain ⟨l₂, hset', hread, hwrite⟩ := setRegister_again value' hset
  refine ⟨{ l₂ with ip := l₂.ip.add 1 }, ?_, hread, ?_⟩
  · rw [StateExcept.bind_ok hset']
    rfl
  · obtain ⟨i, hi, rfl⟩ := Option.map_eq_some_iff.1 hwrite
    show Option.map _ (l'.index reg) = _
    rw [hi]
    rfl

/-- The fused instruction leaves what `i32.eqz` of the result of the other one would leave. -/
lemma fuseEqzOp_ok {op fused : Op} {result : Reg} (hfused : InstrEncoder.fuseEqzOp op = some fused)
    (hresult : op.resultReg = some result) (h : executeLocal env op l = .ok () l₁) :
    ∃ value l₂, l₁.read result = some value ∧
      l₁.write result (.ofBool (decide (value.toI32 = 0))) = some l₂ ∧
      executeLocal env fused l = .ok () l₂ := by
  unfold InstrEncoder.fuseEqzOp at hfused
  split at hfused
  case h_1 op result' lhs rhs =>
    obtain rfl := Option.some.inj hresult
    obtain ⟨op', hop, rfl⟩ := Option.map_eq_some_iff.1 hfused
    obtain ⟨a, l₂, hlhs, h⟩ := StateExcept.bind_eq_ok.1 h
    obtain ⟨ha, rfl⟩ := getRegister_eq_ok.1 hlhs
    obtain ⟨b, l₂, hrhs, h⟩ := StateExcept.bind_eq_ok.1 h
    obtain ⟨hb, rfl⟩ := getRegister_eq_ok.1 hrhs
    obtain ⟨l₂, hnext, hread, hwrite⟩ := nextInstr_again (op'.eval a b) h
    rw [fuseEqz_eval hop] at hwrite
    refine ⟨_, l₂, hread, hwrite, ?_⟩
    show executeBinary result' lhs rhs op'.eval l = _
    rw [executeBinary, StateExcept.bind_ok hlhs, StateExcept.bind_ok hrhs]
    exact hnext
  case h_2 op result' lhs rhs =>
    obtain rfl := Option.some.inj hresult
    obtain ⟨op', hop, rfl⟩ := Option.map_eq_some_iff.1 hfused
    have hty : op'.immType = op.immType := by
      cases op <;> simp only [InstrEncoder.fuseEqz, Option.some.injEq, reduceCtorEq] at hop <;>
        subst hop <;> rfl
    obtain ⟨a, l₂, hlhs, h⟩ := StateExcept.bind_eq_ok.1 h
    obtain ⟨ha, rfl⟩ := getRegister_eq_ok.1 hlhs
    obtain ⟨l₂, hnext, hread, hwrite⟩ := nextInstr_again (op'.eval a (rhs.toUntyped op.immType)) h
    rw [fuseEqz_eval hop] at hwrite
    refine ⟨_, l₂, hread, hwrite, ?_⟩
    show executeUnary result' lhs (fun value => op'.eval value (rhs.toUntyped op'.immType)) l = _
    rw [executeUnary, StateExcept.bind_ok hlhs, hty]
    exact hnext
  case h_3 => simp at hfused

lemma fuseI32Eqz_ok {enc enc' : InstrEncoder} {space : Reg → RegisterSpace} {k : Nat}
    {word : Instruction} {input : Reg} (h : enc.fuseI32Eqz space (.register input) = .ok (some enc'))
    (hlast : enc.lastInstr = some k) (hword : enc.instrs[k]? = some word) :
    ∃ fused, InstrEncoder.fuseEqzOp word.op = some fused ∧ word.op.resultReg = some input ∧
      space input ≠ .local ∧
      enc' = { enc with instrs := enc.instrs.set k ⟨word.instrOffset, fused⟩ } := by
  unfold InstrEncoder.fuseI32Eqz at h
  rw [hlast] at h
  dsimp only at h
  rw [hword] at h
  dsimp only at h
  split at h
  case h_1 fused result hfused hresult =>
    split at h
    case isTrue => simp [pure, Except.pure] at h
    case isFalse hspace =>
      split at h
      case isTrue => simp [pure, Except.pure] at h
      case isFalse heq =>
        obtain rfl : result = input := Classical.not_not.1 heq
        refine ⟨fused, hfused, hresult, hspace, ?_⟩
        rw [hlast]
        exact (Option.some.inj (Except.ok.inj h)).symm
  case h_2 => simp [pure, Except.pure] at h

end

/-! ## Fused instructions against the unfused ones -/

/-- The branch is in place of a comparison that would lead to `l₁`. It goes on where a branch on the
result would go, and all registers but that of the result are as the comparison leaves them. -/
def AgreesWithPair (env : Engine T) (op : Op) (condition : Reg) (l l₁ : Local T) (taken : Bool)
    (offset : BranchOffset) : Prop :=
  ∃ l', executeLocal env op l = .ok () l' ∧
    l'.ip = l.ip.offset (if taken then offset.toInt else 1) ∧
    (∀ reg, reg ≠ condition → l'.read reg = l₁.read reg) ∧ l'.base = l₁.base ∧
    l'.cells.length = l₁.cells.length ∧ l'.cache = l₁.cache ∧ l'.store = l₁.store

/-- `i32.eqz` fused with a bit operation always agrees with the pair. A conditional branch fused with
a comparison agrees iff its offset fits in 16 bits or its fallback happens not to branch. -/
theorem fusions_agree_iff {env : Engine T} (hfloat : env.float.NeIsNotEq) :
    (∀ {enc enc' : InstrEncoder} {space : Reg → RegisterSpace} {k : Nat} {word : Instruction}
      {input : Reg} {l l₁ : Local T}, enc.fuseI32Eqz space (.register input) = .ok (some enc') →
      enc.lastInstr = some k → enc.instrs[k]? = some word →
      executeLocal env word.op l = .ok () l₁ →
      ∃ fused value l₂, enc' = { enc with instrs := enc.instrs.set k fused } ∧
        space input ≠ .local ∧ l₁.read input = some value ∧
        l₁.write input (.ofBool (decide (value.toI32 = 0))) = some l₂ ∧
        executeLocal env fused.op l = .ok () l₂) ∧
    ∀ {enc enc' : InstrEncoder} {space : Reg → RegisterSpace} {eqz : Bool}
      {instrOffset k label : Nat} {consts consts' pool : FuncLocalConsts} {condition : Reg}
      {word : Instruction} {cmp fused : Comparator} {offset : BranchOffset} {op : Op}
      {l l₁ : Local T} {a b value : UntypedVal}, enc.lastInstr = some k →
      enc.instrs[k]? = some word → Comparator.fromCmpInstruction word.op = some cmp →
      branchOn eqz cmp = some fused → word.op.resultReg = some condition →
      space condition ≠ .local →
      encodeBranch enc space eqz instrOffset consts condition label = .ok (enc', consts') →
      Resolved enc' consts' label k offset op pool → ConstsIn pool l →
      executeLocal env word.op l = .ok () l₁ → cmpOperands l.read word.op = some (a, b) →
      l₁.read condition = some value →
      (AgreesWithPair env op condition l l₁ (branchTaken eqz value) offset ↔
        GoesRight (branchTaken eqz value) offset a b) := by
  refine ⟨?_, ?_⟩
  · intro enc enc' space k word input l l₁ h hlast hword hexec
    obtain ⟨fused, hfused, hresult, hspace, rfl⟩ := fuseI32Eqz_ok h hlast hword
    obtain ⟨value, l₂, hread, hwrite, hexec'⟩ := fuseEqzOp_ok hfused hresult hexec
    exact ⟨⟨word.instrOffset, fused⟩, value, l₂, rfl, hspace, hread, hwrite, hexec'⟩
  · intro enc enc' space eqz instrOffset k label consts consts' pool condition word cmp fused offset
      op l l₁ a b value hlast hword hcmp hfused hresult hspace h hresolved hconsts hexec hab hvalue
    obtain ⟨a', b', value', hab', hiff, hmoved⟩ := compare_ok hcmp hresult hexec
    obtain ⟨rfl, rfl⟩ := Prod.mk.inj (Option.some.inj (hab.symm.trans hab'))
    rw [hmoved.read, Function.update_self] at hvalue
    obtain rfl := Option.some.inj hvalue
    obtain ⟨fusedWord, enc₁, offset₀, cond, hresolve, rfl, _, hbranches, hcomparator, hoperands⟩ :=
      encodeBranch_fused hlast hword hcmp hfused hresult hspace h
    have hk := (List.getElem?_eq_some_iff.1 hword).1
    obtain ⟨consts'', hpool, hbranches⟩ := resolved_branches hk hresolve hbranches hresolved
    obtain ⟨delta, hrun, hiff'⟩ :=
      branches_execute hbranches hpool hconsts ((hoperands l.read).trans hab)
    rw [hcomparator, branchOn_eval hfused hfloat hiff] at hiff'
    rw [← hiff']
    constructor
    · rintro ⟨l', hrun', hip, _⟩
      obtain rfl := (EStateM.Result.ok.inj (hrun.symm.trans hrun')).2
      have hpc : l.ip.pc + delta = l.ip.pc + _ := congrArg InstructionPtr.pc hip
      omega
    · intro hdelta
      refine ⟨_, hrun, by rw [hdelta], fun reg hreg => ?_, hmoved.base.symm, hmoved.length.symm,
        hmoved.cache.symm, hmoved.store.symm⟩
      rw [hmoved.read, Function.update_of_ne hreg]
      rfl

/-- An engine without code that compares floating point values by their bits. -/
def fusionEngine : Engine Unit :=
  { Engine.ofCode [] [] with
    float := { (Engine.ofCode (T := Unit) [] []).float with
      compare := fun op lhs rhs =>
        match op with
        | .f32Eq | .f64Eq => lhs = rhs
        | .f32Ne | .f64Ne => lhs ≠ rhs
        | _ => false } }

/-- Register 2 is to hold whether register 0 is less than register 1. -/
def fusionEncoder : InstrEncoder :=
  ⟨[⟨3, .binary (.compare .i32LtS) 2 0 1⟩], ⟨[.unpinned], []⟩, some 0⟩

/-- The branch to the label in place of the comparison. -/
def fusedEncoder : InstrEncoder :=
  ⟨[⟨3, .branchCmp (.int .i32LtS) 0 1 0⟩], ⟨[.unpinned], [⟨0, 0⟩]⟩, some 0⟩

/-- A frame with a constant in front of its registers 1, 2 and 0. -/
def fusionLocal : Local Unit := ⟨[0, 1, 2, 0], 1, ⟨0, 0⟩, ⟨0, none, none⟩, Store.ofFuncs []⟩

/-- The pool with the packed branch that is further than 16 bits. -/
def farConsts : FuncLocalConsts where
  const2idx := [(0, -1)]
  idx2const := [0]
  nextIdx := -2
  next_eq := FuncLocalConsts.singleton_next 0
  entries := FuncLocalConsts.singleton_entries 0

lemma fusionEngine_float : fusionEngine.float.NeIsNotEq := ⟨fun _ _ => by simp [fusionEngine],
  fun _ _ => by simp [fusionEngine]⟩

lemma constsIn_far {l : Local Unit} (h : l.read (-1) = some 0) : ConstsIn farConsts l :=
  constsIn_singleton rfl h

lemma far_constsIn : ConstsIn farConsts fusionLocal := constsIn_far rfl

/-- The state behind the comparison. -/
def comparedLocal : Local Unit := { fusionLocal with cells := [0, 1, 2, 1], ip := ⟨0, 1⟩ }

lemma encodeBranch_fusionEncoder :
    encodeBranch fusionEncoder (fun _ => .dynamic) false 3 .reset 2 0 = .ok (fusedEncoder, .reset) :=
  rfl

/-- The label is 9 words further on. -/
theorem fusions_agree_iff_less :
    AgreesWithPair fusionEngine (.branchCmp (.int .i32LtS) 0 1 9) 2 fusionLocal comparedLocal
      (branchTaken false 1) 9 ↔ GoesRight (branchTaken false 1) 9 1 2 := by
  have hresolved : Resolved fusedEncoder .reset 0 0 9 (.branchCmp (.int .i32LtS) 0 1 9) farConsts :=
    .later ⟨3, .branchCmp (.int .i32LtS) 0 1 0⟩ ⟨3, .branchCmp (.int .i32LtS) 0 1 9⟩ farConsts
      farConsts rfl rfl rfl rfl (.refl farConsts)
  have hlast : fusionEncoder.lastInstr = some 0 := rfl
  have hword : fusionEncoder.instrs[0]? = some ⟨3, .binary (.compare .i32LtS) 2 0 1⟩ := rfl
  have hcompared : executeLocal fusionEngine (.binary (.compare .i32LtS) 2 0 1) fusionLocal =
      .ok () comparedLocal := rfl
  exact (fusions_agree_iff fusionEngine_float).2 hlast hword rfl rfl rfl (by decide)
    encodeBranch_fusionEncoder hresolved far_constsIn hcompared rfl rfl

/-- The same branch does not agree with the pair where the label is 40000 words further on: it does
not branch, as the fallback compares the operands for equality. -/
theorem far_branch_differs :
    encodeBranch fusionEncoder (fun _ => .dynamic) false 3 .reset 2 0 = .ok (fusedEncoder, .reset) ∧
    updateBranchOffset .reset ⟨3, .branchCmp (.int .i32LtS) 0 1 0⟩ 40000 =
      .ok (⟨3, .branchCmpFallback 0 1 (-1)⟩, farConsts) ∧
    ConstsIn farConsts fusionLocal ∧
    executeLocal fusionEngine (.binary (.compare .i32LtS) 2 0 1) fusionLocal =
      .ok () comparedLocal ∧
    branchTaken false 1 = true ∧
    executeLocal fusionEngine (.branchCmpFallback 0 1 (-1)) fusionLocal =
      .ok () { fusionLocal with ip := ⟨0, 1⟩ } ∧
    ¬ AgreesWithPair fusionEngine (.branchCmpFallback 0 1 (-1)) 2 fusionLocal comparedLocal
      (branchTaken false 1) 40000 := by
  refine ⟨rfl, rfl, far_constsIn, rfl, rfl, rfl, ?_⟩
  rintro ⟨l', hrun, hip, _⟩
  obtain rfl : { fusionLocal with ip := ⟨0, 1⟩ } = l' := (EStateM.Result.ok.inj hrun).2
  exact absurd hip (by decide)

end MotokoDebugger.Translator
