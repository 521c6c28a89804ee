import MotokoDebugger.Executor.Operators
import MotokoDebugger.Translator.ExactAccesses
import MotokoDebugger.Translator.VisitRegs

/-!
# Straight-line code

What the instructions of straight-line code do to the registers of a frame, one after the other.

* `Op.compute`, `Op.computeSelect`: the value that an instruction computes.
* `effect`, `effects`: what instructions do to the registers.
* `runsTo_of_effects`: the executor does that.
-/

namespace MotokoDebugger

open StateExcept Executor
open Runs (Steps)

/-! ## Values -/

namespace Op

variable (float : FloatOps) (f : Reg → Option UntypedVal)

/-- The value that an instruction of one word gives its result register, or its trap. `none` where
an operand is missing, and for all other instructions. -/
def compute : Op → Option (Except TrapCode UntypedVal)
  | .copy _ value => (f value).map .ok
  | .copyImm32 _ value => some (.ok (.ofI32 value))
  | .copyI64Imm32 _ value => some (.ok value.toI64)
  | .copyF64Imm32 _ value => some (.ok (float.f64OfConst32 value))
  | .unary op _ input => (f input).map fun value => .ok (op.eval float value)
  | .tryUnary op _ input => (f input).map (float.trunc op)
  | .binary op _ lhs rhs =>
    (f lhs).bind fun lhs => (f rhs).map fun rhs => .ok (op.eval float lhs rhs)
  | .tryBinary op _ lhs rhs => (f lhs).bind fun lhs => (f rhs).map (op.eval lhs)
  | .binaryImm16 op _ lhs rhs => (f lhs).map fun lhs => .ok (op.eval lhs rhs)
  | .binaryImm16Lhs op _ lhs rhs => (f rhs).map fun rhs => .ok (op.eval lhs rhs)
  | .shiftBy op _ lhs rhs => (f lhs).map fun lhs => .ok (op.eval lhs (rhs.toUntyped op.immType))
  | .divremImm16Rhs op _ lhs rhs =>
    (f lhs).map fun lhs => op.evalNonZero lhs (rhs.toUntyped op.immType)
  | .tryBinaryImm16Lhs op _ lhs rhs => (f rhs).map (op.eval (lhs.toUntyped op.immType))
  | .copysignImm op _ lhs rhsIsPositive =>
    (f lhs).map fun lhs => .ok (op.eval float lhs rhsIsPositive)
  | _ => none

/-- The operand that the condition selects. -/
def selected (condition : Reg) (lhs rhs : Option UntypedVal) :
    Option (Except TrapCode UntypedVal) :=
  (f condition).bind fun condition => (if condition.toBool then lhs else rhs).map .ok

/-- A selection with the right operand in a register. -/
def selectedReg (lhs : Option UntypedVal) : Op → Option (Except TrapCode UntypedVal)
  | .register2 condition rhs => selected f condition lhs (f rhs)
  | _ => none

/-- A selection with an immediate on the right. -/
def selectedImm (lhs : Option UntypedVal) (ofImm : AnyConst32 → UntypedVal) :
    Op → Option (Except TrapCode UntypedVal)
  | .registerAndImm32 condition rhs => selected f condition lhs (some (ofImm rhs))
  | _ => none

/-- The value that a selection gives its result register, where `param` is its second word. -/
def computeSelect (op param : Op) : Option (Except TrapCode UntypedVal) :=
  match op with
  | .select _ lhs => selectedReg f (f lhs) param
  | .selectImm32Rhs _ lhs => selectedImm f (f lhs) .ofI32 param
  | .selectImm32Lhs _ lhs => selectedReg f (some (.ofI32 lhs)) param
  | .selectImm32 _ lhs => selectedImm f (some (.ofI32 lhs)) .ofI32 param
  | .selectI64Imm32Rhs _ lhs => selectedImm f (f lhs) AnyConst32.toI64 param
  | .selectI64Imm32Lhs _ lhs => selectedReg f (some lhs.toI64) param
  | .selectI64Imm32 _ lhs => selectedImm f (some lhs.toI64) AnyConst32.toI64 param
  | .selectF64Imm32Rhs _ lhs => selectedImm f (f lhs) float.f64OfConst32 param
  | .selectF64Imm32Lhs _ lhs => selectedReg f (some (float.f64OfConst32 lhs)) param
  | .selectF64Imm32 _ lhs =>
    selectedImm f (some (float.f64OfConst32 lhs)) float.f64OfConst32 param
  | _ => none

/-- What the instruction computes from the registers, with its parameter word. -/
def computeWith (op : Op) : List Op → Option (Except TrapCode UntypedVal)
  | [] => op.compute float f
  | [param] => op.computeSelect float f param
  | _ => none

end Op

section Evaluates

variable {T : Type} {env : Engine T} {l : Local T} {result : Reg}
  {expected : Except TrapCode UntypedVal} {op param : Op} {params : List Op}

lemma evaluates_compute (h : op.compute env.float l.read = some expected)
    (hresult : op.resultReg = some result) (hthere : (l.read result).isSome) :
    Evaluates expected result (l.ip.add 1) l (executeLocal env op l) := by
  cases op with
  | copy r value =>
    obtain rfl := Option.some.inj hresult
    obtain ⟨x, hx, rfl⟩ := Option.map_eq_some_iff.1 h
    exact evaluates_executeCopy hthere hx
  | copyImm32 r value | copyI64Imm32 r value | copyF64Imm32 r value =>
    obtain rfl := Option.some.inj hresult
    obtain rfl := Option.some.inj h
    exact evaluates_setRegister _ hthere 1
  | unary op r input =>
    obtain rfl := Option.some.inj hresult
    obtain ⟨x, hx, rfl⟩ := Option.map_eq_some_iff.1 h
    exact evaluates_executeUnary (op.eval env.float) hthere hx
  | tryUnary op r input =>
    obtain rfl := Option.some.inj hresult
    obtain ⟨x, hx, rfl⟩ := Option.map_eq_some_iff.1 h
    exact evaluates_tryExecuteUnary (env.float.trunc op) hthere hx
  | binary op r lhs rhs =>
    obtain rfl := Option.some.inj hresult
    obtain ⟨x, hx, h⟩ := Option.bind_eq_some_iff.1 h
    obtain ⟨y, hy, rfl⟩ := Option.map_eq_some_iff.1 h
    exact evaluates_executeBinary (op.eval env.float) hthere hx hy
  | tryBinary op r lhs rhs =>
    obtain rfl := Option.some.inj hresult
    obtain ⟨x, hx, h⟩ := Option.bind_eq_some_iff.1 h
    obtain ⟨y, hy, rfl⟩ := Option.map_eq_some_iff.1 h
    exact evaluates_tryExecuteBinary op.eval hthere hx hy
  | binaryImm16 op r lhs imm =>
    obtain rfl := Option.some.inj hresult
    obtain ⟨x, hx, rfl⟩ := Option.map_eq_some_iff.1 h
    exact evaluates_executeUnary (op.eval · imm) hthere hx
  | binaryImm16Lhs op r imm rhs =>
    obtain rfl := Option.some.inj hresult
    obtain ⟨x, hx, rfl⟩ := Option.map_eq_some_iff.1 h
    exact evaluates_executeUnary (op.eval imm ·) hthere hx
  | shiftBy op r lhs imm =>
    obtain rfl := Option.some.inj hresult
    obtain ⟨x, hx, rfl⟩ := Option.map_eq_some_iff.1 h
    exact evaluates_executeUnary (op.eval · (imm.toUntyped op.immType)) hthere hx
  | divremImm16Rhs op r lhs imm =>
    obtain rfl := Option.some.inj hresult
    obtain ⟨x, hx, rfl⟩ := Option.map_eq_some_iff.1 h
    exact evaluates_tryExecuteUnary (op.evalNonZero · (imm.toUntyped op.immType)) hthere hx
  | tryBinaryImm16Lhs op r imm rhs =>
    obtain rfl := Option.some.inj hresult
    obtain ⟨x, hx, rfl⟩ := Option.map_eq_some_iff.1 h
    exact evaluates_tryExecuteUnary (op.eval (imm.toUntyped op.immType) ·) hthere hx
  | copysignImm op r lhs rhsIsPositive =>
    obtain rfl := Option.some.inj hresult
    obtain ⟨x, hx, rfl⟩ := Option.map_eq_some_iff.1 h
    exact evaluates_executeUnary (op.eval env.float · rhsIsPositive) hthere hx
  | _ => cases h

lemma evaluates_selected {condition : Reg} {lhs rhs : Option UntypedVal}
    {left right : LocalM T UntypedVal} (h : Op.selected l.read condition lhs rhs = some expected)
    (hthere : (l.read result).isSome) (hleft : ∀ x, lhs = some x → left l = .ok x l)
    (hright : ∀ x, rhs = some x → right l = .ok x l) :
    Evaluates expected result (l.ip.add 2) l (executeSelectImpl result condition left right l) := by
  obtain ⟨c, hc, h⟩ := Option.bind_eq_some_iff.1 h
  obtain ⟨x, hx, rfl⟩ := Option.map_eq_some_iff.1 h
  have hget : getRegister condition l = .ok c l := getRegister_eq_ok.2 ⟨hc, rfl⟩
  rw [executeSelectImpl, bind_ok hget]
  cases hselect : c.toBool with
  | true =>
    rw [hselect] at hx
    rw [if_pos rfl, bind_ok (hleft x hx)]
    exact evaluates_setRegister x hthere 2
  | false =>
    rw [hselect] at hx
    rw [if_neg Bool.false_ne_true, bind_ok (hright x hx)]
    exact evaluates_setRegister x hthere 2

lemma getRegister_of_read {reg : Reg} (x : UntypedVal) (h : l.read reg = some x) :
    getRegister reg l = .ok x l := getRegister_eq_ok.2 ⟨h, rfl⟩

lemma pure_of_some {value : UntypedVal} (x : UntypedVal) (h : some value = some x) :
    (pure value : LocalM T UntypedVal) l = .ok x l := by
  rw [← Option.some.inj h]
  rfl

lemma evaluates_selectedReg {lhs : Option UntypedVal} {left : LocalM T UntypedVal}
    {instrOffset : Nat} (h : Op.selectedReg l.read lhs param = some expected)
    (hthere : (l.read result).isSome)
    (hparam : env.instrAt (l.ip.add 1) = some ⟨instrOffset, param⟩)
    (hleft : ∀ x, lhs = some x → left l = .ok x l) :
    Evaluates expected result (l.ip.add 2) l (executeSelectRhsReg env result left l) := by
  cases param with
  | register2 condition rhs =>
    have hfetch : fetchRegister2 env l = .ok (condition, rhs) l := by
      rw [fetchRegister2, bind_ok (fetchParam_ok hparam)]
      rfl
    rw [executeSelectRhsReg, bind_ok hfetch]
    exact evaluates_selected h hthere hleft getRegister_of_read
  | _ => cases h

lemma evaluates_selectedImm {lhs : Option UntypedVal} {left : LocalM T UntypedVal}
    {ofImm : AnyConst32 → UntypedVal} {instrOffset : Nat}
    (h : Op.selectedImm l.read lhs ofImm param = some expected) (hthere : (l.read result).isSome)
    (hparam : env.instrAt (l.ip.add 1) = some ⟨instrOffset, param⟩)
    (hleft : ∀ x, lhs = some x → left l = .ok x l) :
    Evaluates expected result (l.ip.add 2) l (executeSelectRhsImm env result left ofImm l) := by
  cases param with
  | registerAndImm32 condition rhs =>
    rw [executeSelectRhsImm, bind_ok (fetchRegisterAndImm32_ok hparam)]
    exact evaluates_selected h hthere hleft pure_of_some
  | _ => cases h

lemma evaluates_computeSelect {instrOffset : Nat}
    (h : op.computeSelect env.float l.read param = some expected)
    (hresult : op.resultReg = some result) (hthere : (l.read result).isSome)
    (hparam : env.instrAt (l.ip.add 1) = some ⟨instrOffset, param⟩) :
    Evaluates expected result (l.ip.add 2) l (executeLocal env op l) := by
  cases op with
  | select r lhs =>
    obtain rfl := Option.some.inj hresult
    exact evaluates_selectedReg h hthere hparam getRegister_of_read
  | selectImm32Lhs r lhs | selectI64Imm32Lhs r lhs | selectF64Imm32Lhs r lhs =>
    obtain rfl := Option.some.inj hresult
    exact evaluates_selectedReg h hthere hparam pure_of_some
  | selectImm32Rhs r lhs | selectI64Imm32Rhs r lhs | selectF64Imm32Rhs r lhs =>
    obtain rfl := Option.some.inj hresult
    exact evaluates_selectedImm h hthere hparam getRegister_of_read
  | selectImm32 r lhs | selectI64Imm32 r lhs | selectF64Imm32 r lhs =>
    obtain rfl := Option.some.inj hresult
    exact evaluates_selectedImm h hthere hparam pure_of_some
  | _ => cases h

lemma evaluates_computeWith (h : op.computeWith env.float l.read params = some expected)
    (hresult : op.resultReg = some result) (hthere : (l.read result).isSome)
    (hparams : ∀ param, params = [param] →
      ∃ instrOffset, env.instrAt (l.ip.add 1) = some ⟨instrOffset, param⟩) :
    Evaluates expected result (l.ip.add (params.length + 1)) l (executeLocal env op l) := by
  match params with
  | [] => exact evaluates_compute h hresult hthere
  | [param] =>
    obtain ⟨instrOffset, hparam⟩ := hparams param rfl
    exact evaluates_computeSelect h hresult hthere hparam
  | _ :: _ :: _ => cases h

end Evaluates

/-! ## Inputs -/

section Inputs

variable {float : FloatOps} {f f' : Reg → Option UntypedVal} {op param : Op} {params : List Op}
  {reg result : Reg}

/-- An instruction reads the registers that the visitor visits, and no others. -/
lemma compute_congr (h : ∀ reg, op.Uses reg → f reg = f' reg) :
    op.compute float f = op.compute float f' := by
  cases op with
  | copy r value =>
    have hvalue := h value (by simp [Op.Uses, Op.visitInputRegisters])
    simp only [Op.compute, hvalue]
  | unary op r input | tryUnary op r input | binaryImm16 op r input imm | shiftBy op r input imm
  | divremImm16Rhs op r input imm | copysignImm op r input rhsIsPositive
  | binaryImm16Lhs op r imm input | tryBinaryImm16Lhs op r imm input =>
    have hinput := h input (by simp [Op.Uses, Op.visitInputRegisters])
    simp only [Op.compute, hinput]
  | binary op r lhs rhs | tryBinary op r lhs rhs =>
    have hlhs := h lhs (by simp [Op.Uses, Op.visitInputRegisters])
    have hrhs := h rhs (by simp [Op.Uses, Op.visitInputRegisters])
    simp only [Op.compute, hlhs, hrhs]
  | _ => rfl

lemma computeSelect_congr (h : ∀ reg, op.Uses reg ∨ param.Uses reg → f reg = f' reg) :
    op.computeSelect float f param = op.computeSelect float f' param := by
  have hreg : ∀ {lhs lhs'}, lhs = lhs' →
      Op.selectedReg f lhs param = Op.selectedReg f' lhs' param := by
    rintro lhs _ rfl
    cases param with
    | register2 condition rhs =>
      have hcondition := h condition (.inr (by simp [Op.Uses, Op.visitInputRegisters]))
      have hrhs := h rhs (.inr (by simp [Op.Uses, Op.visitInputRegisters]))
      simp only [Op.selectedReg, Op.selected, hcondition, hrhs]
    | _ => rfl
  have himm : ∀ {lhs lhs' ofImm}, lhs = lhs' →
      Op.selectedImm f lhs ofImm param = Op.selectedImm f' lhs' ofImm param := by
    rintro lhs _ ofImm rfl
    cases param with
    | registerAndImm32 condition rhs =>
      have hcondition := h condition (.inr (by simp [Op.Uses, Op.visitInputRegisters]))
      simp only [Op.selectedImm, Op.selected, hcondition]
    | _ => rfl
  cases op with
  | select r lhs => exact hreg (h lhs (.inl (by simp [Op.Uses, Op.visitInputRegisters])))
  | selectImm32Rhs r lhs | selectI64Imm32Rhs r lhs | selectF64Imm32Rhs r lhs =>
    exact himm (h lhs (.inl (by simp [Op.Uses, Op.visitInputRegisters])))
  | selectImm32Lhs | selectI64Imm32Lhs | selectF64Imm32Lhs => exact hreg rfl
  | selectImm32 | selectI64Imm32 | selectF64Imm32 => exact himm rfl
  | _ => rfl

lemma computeWith_congr (h : ∀ word ∈ op :: params, ∀ reg, word.Uses reg → f reg = f' reg) :
    op.computeWith float f params = op.computeWith float f' params := by
  match params with
  | [] => exact compute_congr (h op (by simp))
  | [param] =>
    refine computeSelect_congr fun reg huses => ?_
    obtain huses | huses := huses
    · exact h op (by simp) reg huses
    · exact h param (by simp) reg huses
  | _ :: _ :: _ => rfl

/-! ### Other result registers -/

/-- The value does not depend on the register that it is written to. -/
lemma computeWith_setResult (op : Op) (reg : Reg) (params : List Op) :
    (op.setResult reg).computeWith float f params = op.computeWith float f params := by
  match params with
  | [] => cases op <;> rfl
  | [param] => cases op <;> rfl
  | _ :: _ :: _ => rfl

lemma resultReg_setResult (h : op.resultReg = some result) (reg : Reg) :
    (op.setResult reg).resultReg = some reg := by
  cases op <;> first | rfl | cases h

lemma callResults_of_resultReg (h : op.resultReg = some result) : op.callResults = none := by
  cases op <;> first | rfl | cases h

end Inputs

/-! ## Instructions -/

namespace Translator

/-- The registers of a frame. -/
abbrev RegFile := Reg → Option UntypedVal

/-- What an instruction does to the registers, with its parameter words behind it. `none` where a
register is missing, and for all but copies, selections, operators and traps. -/
def effect (float : FloatOps) (f : RegFile) : List Instruction → Option (Except TrapCode RegFile)
  | [⟨_, .trap trapCode⟩] => some (.error trapCode)
  | [⟨_, .copy2 results value0 value1⟩] =>
    if (f results.head).isSome ∧ (f results.head.next).isSome ∧ (f value0).isSome ∧
        (f value1).isSome then
      some (.ok (Function.update (Function.update f results.head (f value0)) results.head.next
        (f value1)))
    else none
  | instr :: params =>
    instr.op.resultReg.bind fun result =>
      if (f result).isSome then
        (instr.op.computeWith float f (params.map Instruction.op)).map fun computed =>
          computed.map fun value => Function.update f result (some value)
      else none
  | [] => none

/-- What instructions do to the registers, one after the other, up to a trap. -/
def effects (float : FloatOps) (f : RegFile) :
    List (List Instruction) → Option (Except TrapCode RegFile)
  | [] => some (.ok f)
  | words :: chunks =>
    match effect float f words with
    | some (.ok f) => effects float f chunks
    | some (.error trapCode) => some (.error trapCode)
    | none => none

section Effects

variable {float : FloatOps} {f f' : RegFile} {op : Op} {params words : List Instruction}
  {result : Reg} {chunks chunks' : List (List Instruction)} {trapCode : TrapCode}
  {outcome : Except TrapCode RegFile}

/-- An instruction with a result register writes nothing else. -/
lemma effect_of_resultReg {instrOffset : Nat} (h : op.resultReg = some result) :
    effect float f (⟨instrOffset, op⟩ :: params) =
      if (f result).isSome then
        (op.computeWith float f (params.map Instruction.op)).map fun computed =>
          computed.map fun value => Function.update f result (some value)
      else none := by
  unfold effect
  split
  case h_1 heq =>
    obtain ⟨⟨-, rfl⟩, -⟩ := by simpa using heq
    cases h
  case h_2 heq =>
    obtain ⟨⟨-, rfl⟩, -⟩ := by simpa using heq
    cases h
  case h_3 heq =>
    obtain ⟨rfl, rfl⟩ := List.cons.inj heq
    rw [h]
    rfl
  case h_4 heq => cases heq

lemma effects_cons_ok (h : effect float f words = some (.ok f')) :
    effects float f (words :: chunks) = effects float f' chunks := by
  rw [effects, h]

lemma effects_cons_error (h : effect float f words = some (.error trapCode)) :
    effects float f (words :: chunks) = some (.error trapCode) := by
  rw [effects, h]

/-- The first instruction leads to the others, or traps. -/
lemma effects_cons_cases (h : effects float f (words :: chunks) = some outcome) :
    (∃ f', effect float f words = some (.ok f') ∧ effects float f' chunks = some outcome) ∨
      ∃ trapCode, effect float f words = some (.error trapCode) ∧ outcome = .error trapCode := by
  rw [effects] at h
  split at h
  case h_1 f₁ hwords => exact .inl ⟨f₁, hwords, h⟩
  case h_2 trapCode hwords => exact .inr ⟨trapCode, hwords, (Option.some.inj h).symm⟩
  case h_3 => cases h

lemma effects_append_ok (h : effects float f chunks = some (.ok f')) :
    effects float f (chunks ++ chunks') = effects float f' chunks' := by
  induction chunks generalizing f with
  | nil =>
    obtain rfl := Except.ok.inj (Option.some.inj h)
    rfl
  | cons words chunks ih =>
    obtain ⟨f₁, hwords, hrest⟩ | ⟨_, _, htrap⟩ := effects_cons_cases h
    · rw [List.cons_append, effects_cons_ok hwords]
      exact ih hrest
    · cases htrap

lemma effects_append_error (h : effects float f chunks = some (.error trapCode)) :
    effects float f (chunks ++ chunks') = some (.error trapCode) := by
  induction chunks generalizing f with
  | nil => cases h
  | cons words chunks ih =>
    obtain ⟨f₁, hwords, hrest⟩ | ⟨_, hwords, htrap⟩ := effects_cons_cases h
    · rw [List.cons_append, effects_cons_ok hwords]
      exact ih hrest
    · rw [List.cons_append, effects_cons_error hwords, htrap]

/-- The outcome is that of the second part, or the first part traps. -/
lemma effects_append_cases (h : effects float f (chunks ++ chunks') = some outcome) :
    (∃ trapCode, effects float f chunks = some (.error trapCode) ∧ outcome = .error trapCode) ∨
      ∃ f', effects float f chunks = some (.ok f') ∧
        effects float f' chunks' = some outcome := by
  induction chunks generalizing f with
  | nil => exact .inr ⟨f, rfl, h⟩
  | cons words chunks ih =>
    obtain ⟨f₁, hwords, hrest⟩ | ⟨trapCode, hwords, htrap⟩ := effects_cons_cases h
    · rw [effects_cons_ok hwords]
      exact ih hrest
    · exact .inl ⟨trapCode, effects_cons_error hwords, htrap⟩

/-- No register gets lost. -/
lemma effect_isSome {reg : Reg} (h : effect float f words = some (.ok f'))
    (hreg : (f reg).isSome) : (f' reg).isSome := by
  unfold effect at h
  split at h
  case h_1 => cases h
  case h_2 =>
    split at h
    case isTrue hthere =>
      obtain rfl := Except.ok.inj (Option.some.inj h)
      obtain ⟨x0, hx0⟩ := Option.isSome_iff_exists.1 hthere.2.2.1
      obtain ⟨x1, hx1⟩ := Option.isSome_iff_exists.1 hthere.2.2.2
      rw [hx0, hx1]
      exact isSome_update (isSome_update hreg)
    case isFalse => cases h
  case h_3 =>
    obtain ⟨result, -, h⟩ := Option.bind_eq_some_iff.1 h
    split at h
    case isTrue =>
      obtain ⟨computed, -, h⟩ := Option.map_eq_some_iff.1 h
      cases computed with
      | ok value =>
        obtain rfl := Except.ok.inj h
        exact isSome_update hreg
      | error => cases h
    case isFalse => cases h
  case h_4 => cases h

lemma effects_isSome {reg : Reg} (h : effects float f chunks = some (.ok f'))
    (hreg : (f reg).isSome) : (f' reg).isSome := by
  induction chunks generalizing f with
  | nil =>
    obtain rfl := Except.ok.inj (Option.some.inj h)
    exact hreg
  | cons words chunks ih =>
    obtain ⟨f₁, hwords, hrest⟩ | ⟨_, _, htrap⟩ := effects_cons_cases h
    · exact ih hrest (effect_isSome hwords hreg)
    · cases htrap

end Effects

/-! ## Runs -/

/-- From `l` on, the next `len` words lead to the registers, with nothing else changed but the
instruction pointer, or one of them traps. -/
inductive RunsTo {T : Type} (env : Engine T) (len : Nat) (l : Local T) :
    Except TrapCode RegFile → Prop where
  | done {n : Nat} {l' : Local T} {f : RegFile} (steps : Steps (LocalStep env) n l l')
    (ip : l'.ip = l.ip.add len) (moved : l.Moved l' f) : RunsTo env len l (.ok f)
  | trapped {n : Nat} {l₁ l₂ : Local T} {instr : Instruction} {trapCode : TrapCode}
    (steps : Steps (LocalStep env) n l l₁) (moved : l.Moved l₁ l₁.read)
    (instrAt : env.instrAt l₁.ip = some instr)
    (exec : executeLocal env instr.op l₁ = .error (.trap trapCode) l₂)
    (same : l₂.still = l₁.still) : RunsTo env len l (.error trapCode)

section Runs

variable {T : Type} {env : Engine T} {l l₁ : Local T} {f : RegFile}
  {outcome : Except TrapCode RegFile} {words : List Instruction}
  {chunks : List (List Instruction)}

/-- Steps and then the rest. -/
lemma RunsTo.after {n k len : Nat} (hsteps : Steps (LocalStep env) n l l₁)
    (hip : l₁.ip = l.ip.add k) (hmoved : l.Moved l₁ l₁.read) (h : RunsTo env len l₁ outcome) :
    RunsTo env (k + len) l outcome := by
  cases h with
  | done steps ip moved =>
    refine .done (hsteps.trans steps) ?_ (hmoved.trans moved)
    rw [ip, hip]
    show InstructionPtr.mk _ (l.ip.pc + k + len) = InstructionPtr.mk _ (l.ip.pc + (k + len : Nat))
    rw [Int.add_assoc, Int.natCast_add]
    rfl
  | trapped steps moved instrAt exec same =>
    exact .trapped (hsteps.trans steps) (hmoved.trans moved) instrAt exec same

lemma runsTo_effect (h : effect env.float l.read words = some outcome)
    (hwords : ∀ n word, words[n]? = some word → env.instrAt (l.ip.add n) = some word) :
    RunsTo env words.length l outcome := by
  have hfirst : ∀ instr, words[0]? = some instr → env.instrAt l.ip = some instr := by
    intro instr hinstr
    rw [← add_zero_ip l.ip]
    exact hwords 0 instr hinstr
  unfold effect at h
  split at h
  case h_1 =>
    rw [← Option.some.inj h]
    exact .trapped (Steps.refl l) (.refl l) (hfirst _ rfl) rfl rfl
  case h_2 instrOffset results value0 value1 =>
    split at h
    case isTrue hthere =>
      rw [← Option.some.inj h]
      obtain ⟨l', hexec, hip, hmoved⟩ := @copyStep_copy2 T l env results value0 value1
        (by simpa using ⟨hthere.1, hthere.2.1⟩) (by simpa using hthere.2.2)
      exact .done (Steps.one ⟨_, hfirst _ rfl, hexec⟩) hip hmoved
    case isFalse => cases h
  case h_3 instr params _ _ =>
    obtain ⟨result, hresult, h⟩ := Option.bind_eq_some_iff.1 h
    split at h
    case isTrue hthere =>
      obtain ⟨computed, hcompute, h⟩ := Option.map_eq_some_iff.1 h
      have hparams : ∀ param, params.map Instruction.op = [param] →
          ∃ instrOffset, env.instrAt (l.ip.add 1) = some ⟨instrOffset, param⟩ := by
        intro param hparam
        obtain ⟨word, rfl, rfl⟩ := List.map_eq_singleton_iff.1 hparam
        exact ⟨word.instrOffset, hwords 1 word rfl⟩
      have hevaluates := evaluates_computeWith hcompute hresult hthere hparams
      generalize hexec : executeLocal env instr.op l = r at hevaluates
      cases hevaluates with
      | value expected_eq ip moved =>
        rw [expected_eq] at h
        rw [← h]
        rw [List.length_map] at ip
        exact .done (Steps.one ⟨instr, hfirst instr rfl, hexec⟩) ip moved
      | trap expected_eq same =>
        rw [expected_eq] at h
        rw [← h]
        exact .trapped (Steps.refl l) (.refl l) (hfirst instr rfl) hexec same
    case isFalse => cases h
  case h_4 => cases h

/-- Where the code continues with the words, the executor does what they do. -/
lemma runsTo_effects {before later : List Instruction}
    (h : effects env.float l.read chunks = some outcome)
    (hcode : (env.codeMap l.ip.func).instrs = before ++ (chunks.flatten ++ later))
    (hpc : l.ip.pc = before.length) : RunsTo env chunks.flatten.length l outcome := by
  induction chunks generalizing l before with
  | nil =>
    rw [← Option.some.inj h]
    exact .done (Steps.refl l) (add_zero_ip l.ip).symm (.refl l)
  | cons words chunks ih =>
    rw [List.flatten_cons, List.append_assoc] at hcode
    have hwords : ∀ n word, words[n]? = some word → env.instrAt (l.ip.add n) = some word := by
      intro n word hword
      have hlength := (List.getElem?_eq_some_iff.1 hword).1
      rw [instrAt_of_code hcode hpc, List.getElem?_append_left hlength]
      exact hword
    rw [List.flatten_cons, List.length_append]
    obtain ⟨f₁, hfirst, hrest⟩ | ⟨trapCode, hfirst, rfl⟩ := effects_cons_cases h
    · cases runsTo_effect hfirst hwords with
      | done steps ip moved =>
        refine .after steps ip (moved.read ▸ moved) (@ih _ (before ++ words) ?_ ?_ ?_)
        · rw [moved.read]
          exact hrest
        · rw [ip, List.append_assoc]
          exact hcode
        · rw [ip, List.length_append, Int.natCast_add, ← hpc]
          rfl
    · cases runsTo_effect hfirst hwords with
      | trapped steps moved instrAt exec same => exact .trapped steps moved instrAt exec same

end Runs

end Translator

end MotokoDebugger
