import MotokoDebugger.Translator.Defragment
import MotokoDebugger.Translator.Operators
import MotokoDebugger.Translator.StraightLine

/-!
# What the code of an operator computes

* `Computes`: what the translation of an operator does to the words, and what the words do.
* `RegOpt.Exact`, `ImmOpt.Exact`: custom optimizations that push the result.
* `computes_translateBinary` and so on: the kinds of operators, by what their instructions compute.
-/

namespace MotokoDebugger.Translator

open Fallible Executor
open Runs (Steps)

variable {σ : Type}

/-! ## What the words compute -/

/-- Run from `l`, the words at the instruction pointer compute `expected` from the registers of
`l₁`. The operand on top of the stack has the value then, and nothing else is changed; or the words
trap. -/
inductive Computed {T : Type} (env : Engine T) (words : List Instruction) (stack : ValueStack σ)
    (ty : ValType) (l l₁ : Local T) : Except TrapCode UntypedVal → Prop where
  | value {n : Nat} {l₂ : Local T} {provider : TypedProvider} {value : UntypedVal}
    (steps : Steps (LocalStep env) n l l₂) (ip : l₂.ip = l.ip.add words.length)
    (peek : stack.peek = .ok provider)
    (typed : ∀ constant, provider = .const constant → constant.ty = ty)
    (value_eq : provider.valueIn l₂.read = some value) (moved : l₁.Moved l₂ l₂.read)
    (others : ∀ reg, provider ≠ .register reg → l₂.read reg = l₁.read reg) :
    Computed env words stack ty l l₁ (.ok value)
  | trap {instr : Instruction} {l₂ : Local T} {trapCode : TrapCode}
    (instr_eq : env.instrAt l.ip = some instr)
    (exec : executeLocal env instr.op l = .error (.trap trapCode) l₂) (same : l₂.still = l.still) :
    Computed env words stack ty l l₁ (.error trapCode)

/-- The words of `translator` from `start` on, at most a copy, are replaced by words that also
compute `expected`, of the type `ty`, in a frame where the operands have their values. The words
before stay as they are, but for the fuel of their block. The function may grow and get more
constants before it runs. -/
structure Computes (float : FloatOps) (translator translator' : FuncTranslator σ)
    (operands : List (TypedProvider × UntypedVal)) (ty : ValType)
    (expected : Except TrapCode UntypedVal) (start : Nat) : Prop where
  start_le : start ≤ translator.encoder.instrs.length
  start_le' : start ≤ translator'.encoder.instrs.length
  unchanged : (translator'.encoder.instrs.take start).map unfueled =
    (translator.encoder.instrs.take start).map unfueled
  old : translator.encoder.instrs.drop start = [] ∨ ∃ instrOffset result value,
    translator.encoder.instrs.drop start = [⟨instrOffset, .copy result value⟩]
  copyIsLast : translator'.encoder.CopyIsLast
  consts : translator.stack.consts.Extends translator'.stack.consts
  runs : ∀ {T : Type} (env : Engine T) (func : EngineFunc) (before later : List Instruction)
    (pool : FuncLocalConsts) (l l₁ : Local T), env.float = float →
    (env.codeMap func).instrs = before ++ (translator'.encoder.instrs.drop start ++ later) →
    l.ip = ⟨func, before.length⟩ → translator'.stack.consts.Extends pool → ConstsIn pool l →
    (∀ result, translator'.stack.peek = .ok (.register result) → (l.read result).isSome) →
    (∀ operand ∈ operands, operand.1.valueIn l₁.read = some operand.2) →
    ((translator.encoder.instrs.drop start).forM fun instr => executeLocal env instr.op) l =
      .ok () l₁ →
    Computed env (translator'.encoder.instrs.drop start) translator'.stack ty l l₁ expected

/-- A translation that starts with other operands, but the same constants. -/
lemma Computes.of_stack {float : FloatOps} {translator translator' : FuncTranslator σ}
    {operands : List (TypedProvider × UntypedVal)} {ty : ValType}
    {expected : Except TrapCode UntypedVal} {stack : ValueStack σ} {start : Nat}
    (h : Computes float (translator.withStack stack) translator' operands ty expected start)
    (hconsts : stack.consts = translator.stack.consts) :
    Computes float translator translator' operands ty expected start :=
  ⟨h.start_le, h.start_le', h.unchanged, h.old, h.copyIsLast, hconsts ▸ h.consts, h.runs⟩

/-! ## Pushing and popping -/

section Stack

variable {stash : MultiStash σ} {stack stack' : ValueStack σ} {provider : TypedProvider}

lemma pop_consts (h : stack.pop stash = .ok (provider, stack')) : stack'.consts = stack.consts := by
  unfold ValueStack.pop at h
  obtain ⟨⟨entry, providers⟩, -, h⟩ := bind_eq_ok.1 h
  obtain ⟨⟨popped, alloc⟩, -, h⟩ := bind_eq_ok.1 h
  rw [← (Prod.mk.inj (Except.ok.inj h)).2]

lemma pop2_consts {lhs rhs : TypedProvider} (h : stack.pop2 stash = .ok (lhs, rhs, stack')) :
    stack'.consts = stack.consts := by
  unfold ValueStack.pop2 at h
  obtain ⟨⟨second, stack₁⟩, hsecond, h⟩ := bind_eq_ok.1 h
  obtain ⟨⟨first, stack₂⟩, hfirst, h⟩ := bind_eq_ok.1 h
  rw [← (Prod.mk.inj (Prod.mk.inj (Except.ok.inj h)).2).2]
  exact (pop_consts hfirst).trans (pop_consts hsecond)

lemma push_providers {stack stack' : ProviderStack} {entry : TaggedProvider}
    (h : stack.push entry = .ok stack') : stack'.providers = stack.providers ++ [entry] := by
  cases entry with
  | «local» reg =>
    unfold ProviderStack.push at h
    cases huse : stack.useLocals with
    | false =>
      rw [huse] at h
      rw [← Except.ok.inj h]
    | true =>
      rw [huse] at h
      obtain ⟨locals, -, h⟩ := bind_eq_ok.1 h
      rw [← Except.ok.inj h]
  | _ => rw [← Except.ok.inj h]

lemma pushEntry_ok {entry : TaggedProvider} (h : stack.pushEntry entry = .ok stack') :
    stack'.peek = .ok entry.toTyped ∧ stack'.consts = stack.consts := by
  obtain ⟨providers, hpush, h⟩ := bind_eq_ok.1 h
  rw [← Except.ok.inj h]
  refine ⟨?_, rfl⟩
  rw [ValueStack.peek, ProviderStack.peek, push_providers hpush, List.getLast?_append]
  rfl

lemma pushConst_ok {value : TypedVal} (h : stack.pushConst value = .ok stack') :
    stack'.peek = .ok (.const value) ∧ stack'.consts = stack.consts := pushEntry_ok h

/-- The register is on top of the stack, whatever its space. -/
lemma pushRegister_ok {reg : Reg} (h : stack.pushRegister stash reg = .ok stack') :
    stack'.peek = .ok (.register reg) ∧ stack'.consts = stack.consts := by
  unfold ValueStack.pushRegister at h
  split at h
  case h_1 =>
    obtain ⟨⟨next, alloc⟩, -, h⟩ := bind_eq_ok.1 h
    exact pushEntry_ok h
  case h_2 =>
    obtain ⟨alloc, -, h⟩ := bind_eq_ok.1 h
    exact pushEntry_ok h
  case h_3 => exact pushEntry_ok h
  case h_4 => exact pushEntry_ok h

lemma pushDynamic_ok {result : Reg} (h : stack.pushDynamic = .ok (result, stack')) :
    stack'.peek = .ok (.register result) ∧ stack'.consts = stack.consts := by
  refine ⟨pushDynamic_peek h, ?_⟩
  unfold ValueStack.pushDynamic at h
  obtain ⟨⟨reg, alloc⟩, -, h⟩ := bind_eq_ok.1 h
  obtain ⟨pushed, hpush, h⟩ := bind_eq_ok.1 h
  rw [← (Prod.mk.inj (Except.ok.inj h)).2]
  exact (pushEntry_ok hpush).2

lemma allocConst_extends {value : UntypedVal} {reg : Reg}
    (h : stack.allocConst value = .ok (reg, stack')) :
    stack' = { stack with consts := stack'.consts } ∧ stack.consts.Extends stack'.consts ∧
      stack'.consts.get reg = some value := by
  have hget := allocConst_ok h
  unfold ValueStack.allocConst at h
  obtain ⟨⟨reg', consts⟩, halloc, h⟩ := bind_eq_ok.1 h
  rw [← (Prod.mk.inj (Except.ok.inj h)).2] at hget ⊢
  exact ⟨rfl, (FuncLocalConsts.alloc_ok halloc).1, hget⟩

end Stack

/-! ## At most one instruction -/

/-- A dynamic register is pushed, and constants of the function are allocated for its
instruction. -/
structure PushesDynamic (stack : ValueStack σ) (result : Reg) (stack' : ValueStack σ) : Prop where
  push : ∃ pushed, stack.pushDynamic = .ok (result, pushed) ∧
    stack' = { pushed with consts := stack'.consts } ∧ pushed.consts.Extends stack'.consts

/-- The first operand that is a register. -/
def firstRegister (operands : List (TypedProvider × UntypedVal)) : Option Reg :=
  operands.findSome? fun operand => TypedProvider.registerIndex operand.1

/-- What an operator without an instruction puts on the emulated stack: a constant, or one of its
operands. A dynamic register is that of the first operand, so that it is the next one again. -/
inductive PushesOperand (stash : MultiStash σ) (operands : List (TypedProvider × UntypedVal))
    (stack stack' : ValueStack σ) : TypedProvider → Prop where
  | const {value : TypedVal} (push : stack.pushConst value = .ok stack') :
    PushesOperand stash operands stack stack' (.const value)
  | register {reg : Reg} (push : stack.pushRegister stash reg = .ok stack')
    (first : stack.regAlloc.registerSpace reg = .dynamic → firstRegister operands = some reg) :
    PushesOperand stash operands stack stack' (.register reg)

/-- The last instruction of `translator'` was added, with its parameter words. -/
structure EmittedLast (translator translator' : FuncTranslator σ) (op : Op) (params : List Op) :
    Prop extends Emitted translator translator' (op :: params) where
  lastInstr : translator'.encoder.lastInstr = some translator.encoder.instrs.length
  plain : ∀ word ∈ op :: params, ∀ blockFuel, word ≠ .consumeFuel blockFuel

/-- What the translation of an operator adds. The value that it leaves on the emulated stack is
`expected`, of the type `ty`, where the operands have their values; or the code traps. -/
inductive ComputesNext (stash : MultiStash σ) (float : FloatOps)
    (translator translator' : FuncTranslator σ) (operands : List (TypedProvider × UntypedVal))
    (ty : ValType) (expected : Except TrapCode UntypedVal) : Prop where
  /-- Nothing. -/
  | pushed {provider : TypedProvider} {stack : ValueStack σ}
    (pushes : PushesOperand stash operands translator.stack stack provider)
    (translator_eq : translator' = translator.withStack stack)
    (typed : ∀ constant, provider = .const constant → constant.ty = ty)
    (computes : ∀ f : RegFile, (∀ operand ∈ operands, operand.1.valueIn f = some operand.2) →
      ∃ value, expected = .ok value ∧ provider.valueIn f = some value)
  /-- An instruction that writes the value to a new register. -/
  | executed {op : Op} {params : List Op} {result : Reg}
    (emitted : EmittedLast translator translator' op params)
    (pushes : PushesDynamic translator.stack result translator'.stack)
    (reachable : translator'.reachable = translator.reachable)
    (result_eq : op.resultReg = some result) (not_copy : ∀ reg value, op ≠ .copy reg value)
    (computes : ∀ f : RegFile,
      (∀ reg value, translator'.stack.consts.get reg = some value → f reg = some value) →
      (∀ operand ∈ operands, operand.1.valueIn f = some operand.2) →
      op.computeWith float f params = some expected)
  /-- A trap. The code behind it is not translated. -/
  | trapped {trapCode : TrapCode} (emitted : EmittedLast translator translator' (.trap trapCode) [])
    (stack_eq : translator'.stack = translator.stack)
    (reachable : translator'.reachable = false) (expected_eq : expected = .error trapCode)

section Computes

variable {stash : MultiStash σ} {float : FloatOps} {translator translator' : FuncTranslator σ}
  {stack stack' : ValueStack σ} {provider : TypedProvider}
  {operands : List (TypedProvider × UntypedVal)} {ty : ValType}
  {expected : Except TrapCode UntypedVal}

lemma PushesDynamic.of_push {result : Reg} (h : stack.pushDynamic = .ok (result, stack')) :
    PushesDynamic stack result stack' := ⟨_, h, rfl, .refl _⟩

lemma PushesDynamic.alloc {result : Reg} {stack'' : ValueStack σ}
    (h : PushesDynamic stack result stack')
    (hstack : stack'' = { stack' with consts := stack''.consts })
    (hconsts : stack'.consts.Extends stack''.consts) : PushesDynamic stack result stack'' := by
  obtain ⟨pushed, hpush, hstack', hconsts'⟩ := h.push
  refine ⟨pushed, hpush, ?_, hconsts'.trans hconsts⟩
  rw [hstack, hstack']

lemma PushesDynamic.peek {result : Reg} (h : PushesDynamic stack result stack') :
    stack'.peek = .ok (.register result) := by
  obtain ⟨pushed, hpush, hstack, -⟩ := h.push
  rw [hstack]
  exact (pushDynamic_ok hpush).1

lemma PushesDynamic.consts {result : Reg} (h : PushesDynamic stack result stack') :
    stack.consts.Extends stack'.consts := by
  obtain ⟨pushed, hpush, -, hconsts⟩ := h.push
  exact (pushDynamic_ok hpush).2 ▸ hconsts

lemma PushesOperand.of_provider (h : stack.pushProvider stash provider = .ok stack')
    (hfirst : ∀ reg, provider = .register reg →
      stack.regAlloc.registerSpace reg = .dynamic → firstRegister operands = some reg) :
    PushesOperand stash operands stack stack' provider := by
  cases provider with
  | register reg => exact .register h (hfirst reg rfl)
  | const value => exact .const h

lemma PushesOperand.peek (h : PushesOperand stash operands stack stack' provider) :
    stack'.peek = .ok provider := by
  cases h with
  | const push => exact (pushConst_ok push).1
  | register push => exact (pushRegister_ok push).1

lemma PushesOperand.consts (h : PushesOperand stash operands stack stack' provider) :
    stack'.consts = stack.consts := by
  cases h with
  | const push => exact (pushConst_ok push).2
  | register push => exact (pushRegister_ok push).2

lemma EmittedLast.length_le {op : Op} {params : List Op}
    (h : EmittedLast translator translator' op params) :
    translator.encoder.instrs.length ≤ translator'.encoder.instrs.length ∧
      (translator'.encoder.instrs.take translator.encoder.instrs.length).map unfueled =
        translator.encoder.instrs.map unfueled := by
  obtain ⟨pre, hpre, hinstrs⟩ := h.words
  have hlen : pre.length = translator.encoder.instrs.length := by
    have hlength := congrArg List.length hpre
    rwa [List.length_map, List.length_map] at hlength
  refine ⟨?_, ?_⟩
  · rw [hinstrs, ← hlen, List.length_append]
    omega
  · rw [hinstrs, ← hlen, List.take_left, hpre]

/-- An instruction that is no copy is not merged with copies. -/
lemma EmittedLast.copyIsLast {op : Op} {params : List Op}
    (h : EmittedLast translator translator' op params) (hop : ∀ reg value, op ≠ .copy reg value) :
    translator'.encoder.CopyIsLast := by
  intro last instrOffset result value hlast hword
  obtain ⟨pre, hpre, hinstrs⟩ := h.words
  have hlen : pre.length = translator.encoder.instrs.length := by
    have hlength := congrArg List.length hpre
    rwa [List.length_map, List.length_map] at hlength
  obtain rfl := Option.some.inj (h.lastInstr.symm.trans hlast)
  rw [hinstrs, ← hlen, List.getElem?_append_right (Nat.le_refl _), Nat.sub_self] at hword
  have hcopy := congrArg Instruction.op (Option.some.inj hword)
  exact absurd hcopy (hop result value)

/-- The words of the operator do so in the executor. -/
lemma ComputesNext.computes
    (h : ComputesNext stash float translator translator' operands ty expected)
    (hlast : translator.encoder.CopyIsLast) :
    Computes float translator translator' operands ty expected
      translator.encoder.instrs.length := by
  cases h with
  | pushed pushes translator_eq typed computes =>
    rw [translator_eq]
    refine ⟨Nat.le_refl _, Nat.le_refl _, rfl, .inl List.drop_length, hlast,
      pushes.consts ▸ .refl _, ?_⟩
    intro T env func before later pool l l₁ _ _ hip _ _ _ hoperands hold
    rw [List.drop_length] at hold
    obtain rfl : l = l₁ := (EStateM.Result.ok.inj hold).2
    obtain ⟨value, rfl, hvalue⟩ := computes l.read hoperands
    refine .value (Steps.refl l) ?_ pushes.peek typed hvalue (.refl l) fun _ _ => rfl
    show l.ip = ⟨l.ip.func, l.ip.pc + (translator.encoder.instrs.drop _).length⟩
    rw [List.drop_length]
    show l.ip = ⟨l.ip.func, l.ip.pc + 0⟩
    rw [Int.add_zero]
  | @executed op params result emitted pushes reachable result_eq not_copy computes =>
    refine ⟨Nat.le_refl _, emitted.length_le.1, ?_, .inl List.drop_length,
      emitted.copyIsLast not_copy, pushes.consts, ?_⟩
    · rw [emitted.length_le.2, List.take_length]
    intro T env func before later pool l l₁ hfloat hcode hip hpool hin hthere hoperands hold
    rw [List.drop_length] at hold
    obtain rfl : l = l₁ := (EStateM.Result.ok.inj hold).2
    rw [emitted.drop] at hcode ⊢
    have hat := fun n => instrAt_of_code (n := n) (by rw [hip]; exact hcode) (by rw [hip])
    have hfirst : env.instrAt l.ip = some ⟨translator.visitPos, op⟩ := by
      rw [← add_zero_ip l.ip, hat 0]
      rfl
    have hparams : ∀ param, params = [param] →
        ∃ instrOffset, env.instrAt (l.ip.add 1) = some ⟨instrOffset, param⟩ := by
      rintro param rfl
      exact ⟨translator.visitPos, hat 1⟩
    have hcompute := computes l.read (fun reg value hget => hin reg value (hpool reg value hget))
      hoperands
    have hevaluates := evaluates_computeWith (hfloat ▸ hcompute) result_eq
      (hthere result pushes.peek) hparams
    generalize hexec : executeLocal env op l = r at hevaluates
    cases hevaluates with
    | @value l₂ value expected_eq ip moved =>
      rw [expected_eq]
      refine .value (Steps.one ⟨_, hfirst, hexec⟩) ?_ pushes.peek (fun _ h => by simp at h) ?_
        (moved.read ▸ moved) ?_
      · rw [ip, List.length_map, List.length_cons]
      · show l₂.read result = _
        rw [moved.read, Function.update_self]
      · intro reg hreg
        have hne : reg ≠ result := fun h => hreg (by rw [h])
        rw [moved.read, Function.update_of_ne hne]
    | trap expected_eq same =>
      rw [expected_eq]
      exact .trap hfirst hexec same
  | @trapped trapCode emitted stack_eq reachable expected_eq =>
    refine ⟨Nat.le_refl _, emitted.length_le.1, ?_, .inl List.drop_length,
      emitted.copyIsLast (fun _ _ h => by simp at h), stack_eq ▸ .refl _, ?_⟩
    · rw [emitted.length_le.2, List.take_length]
    intro T env func before later pool l l₁ _ hcode hip _ _ _ _ hold
    rw [List.drop_length] at hold
    obtain rfl : l = l₁ := (EStateM.Result.ok.inj hold).2
    rw [emitted.drop] at hcode
    have hfirst : env.instrAt l.ip = some ⟨translator.visitPos, .trap trapCode⟩ := by
      rw [← add_zero_ip l.ip, instrAt_of_code (by rw [hip]; exact hcode) (by rw [hip])]
      rfl
    rw [expected_eq]
    exact .trap hfirst rfl rfl

end Computes

/-! ## Instructions with one and with two registers -/

/-- The instruction computes `expected` from a register with the value `x`. -/
structure UnaryForm (float : FloatOps) (op : Op) (result input : Reg) (x : UntypedVal)
    (expected : Except TrapCode UntypedVal) : Prop where
  result_eq : op.resultReg = some result
  not_copy : ∀ reg value, op ≠ .copy reg value
  computes : ∀ f : RegFile, f input = some x → op.compute float f = some expected

/-- The instruction computes `expected` from registers with the values `x` and `y`. -/
structure BinaryForm (float : FloatOps) (op : Op) (result lhs rhs : Reg) (x y : UntypedVal)
    (expected : Except TrapCode UntypedVal) : Prop where
  result_eq : op.resultReg = some result
  not_copy : ∀ reg value, op ≠ .copy reg value
  computes : ∀ f : RegFile, f lhs = some x → f rhs = some y → op.compute float f = some expected

section Forms

variable {float : FloatOps} {result lhs rhs : Reg} {x y : UntypedVal} {imm : Const16}

lemma unaryForm_binaryImm16 (op : BinaryImm16Op) :
    UnaryForm float (.binaryImm16 op result lhs imm) result lhs x (.ok (op.eval x imm)) :=
  ⟨rfl, fun _ _ h => by simp at h, fun _ h => by simp [Op.compute, h]⟩

lemma unaryForm_binaryImm16Lhs (op : BinaryImm16LhsOp) :
    UnaryForm float (.binaryImm16Lhs op result imm rhs) result rhs y (.ok (op.eval imm y)) :=
  ⟨rfl, fun _ _ h => by simp at h, fun _ h => by simp [Op.compute, h]⟩

lemma unaryForm_shiftBy (op : ShiftOp) :
    UnaryForm float (.shiftBy op result lhs imm) result lhs x
      (.ok (op.eval x (imm.toUntyped op.immType))) :=
  ⟨rfl, fun _ _ h => by simp at h, fun _ h => by simp [Op.compute, h]⟩

lemma unaryForm_divremImm16Rhs (op : DivRemOp) :
    UnaryForm float (.divremImm16Rhs op result lhs imm) result lhs x
      (op.evalNonZero x (imm.toUntyped op.immType)) :=
  ⟨rfl, fun _ _ h => by simp at h, fun _ h => by simp [Op.compute, h]⟩

lemma unaryForm_tryBinaryImm16Lhs (op : DivRemOp) :
    UnaryForm float (.tryBinaryImm16Lhs op result imm rhs) result rhs y
      (op.eval (imm.toUntyped op.immType) y) :=
  ⟨rfl, fun _ _ h => by simp at h, fun _ h => by simp [Op.compute, h]⟩

lemma binaryForm_binary (op : BinaryOp) :
    BinaryForm float (.binary op result lhs rhs) result lhs rhs x y (.ok (op.eval float x y)) :=
  ⟨rfl, fun _ _ h => by simp at h, fun _ hlhs hrhs => by simp [Op.compute, hlhs, hrhs]⟩

lemma binaryForm_tryBinary (op : DivRemOp) :
    BinaryForm float (.tryBinary op result lhs rhs) result lhs rhs x y (op.eval x y) :=
  ⟨rfl, fun _ _ h => by simp at h, fun _ hlhs hrhs => by simp [Op.compute, hlhs, hrhs]⟩

end Forms

/-! ### Emitting them -/

section Push

variable {stash : MultiStash σ} {float : FloatOps} {translator translator' : FuncTranslator σ}
  {operands : List (TypedProvider × UntypedVal)} {ty : ValType} {T : ImmType}
  {expected : Except TrapCode UntypedVal} {lhs rhs : Reg} {x y : UntypedVal}

lemma pushFueledInstr_last {op : Op} {f : FuelCosts → Nat}
    (h : translator.pushFueledInstr op f = .ok translator')
    (hop : ∀ blockFuel, op ≠ .consumeFuel blockFuel) :
    EmittedLast translator translator' op [] := by
  obtain ⟨hemitted, -⟩ := pushFueledInstr_ok h
  refine ⟨hemitted, ?_, by simpa using hop⟩
  unfold FuncTranslator.pushFueledInstr at h
  obtain ⟨encoder, hbump, h⟩ := bind_eq_ok.1 h
  obtain ⟨⟨instr, encoder'⟩, hpush, h⟩ := bind_eq_ok.1 h
  obtain ⟨rfl, -⟩ := pushInstr_ok hpush
  have hlen := congrArg List.length (bumpFuelConsumption_ok hbump)
  rw [List.length_map, List.length_map] at hlen
  rw [← Except.ok.inj h, ← hlen]

lemma EmittedLast.of_stack {stack : ValueStack σ} {op : Op} {params : List Op}
    (h : EmittedLast (translator.withStack stack) translator' op params) :
    EmittedLast translator translator' op params :=
  ⟨h.toEmitted.of_stack, h.lastInstr, h.plain⟩

/-- An instruction with a result is not the fuel of a block. -/
lemma not_consumeFuel {op : Op} {result : Reg} (h : op.resultReg = some result) (blockFuel : Nat) :
    op ≠ .consumeFuel blockFuel := by
  rintro rfl
  cases h

/-- The single word of an instruction whose result register is on top of the stack. -/
lemma computes_pushFueledInstr {op : Op} {result : Reg} {stack : ValueStack σ}
    (h : (translator.withStack stack).pushFueledInstr op (·.base) = .ok translator')
    (hpushes : PushesDynamic translator.stack result stack) (hresult : op.resultReg = some result)
    (hop : ∀ reg value, op ≠ .copy reg value)
    (hcomputes : ∀ f : RegFile,
      (∀ reg value, stack.consts.get reg = some value → f reg = some value) →
      (∀ operand ∈ operands, operand.1.valueIn f = some operand.2) →
      op.compute float f = some expected) :
    ComputesNext stash float translator translator' operands ty expected := by
  obtain ⟨-, hstack, hreachable⟩ := pushFueledInstr_ok h
  have hstack' : translator'.stack = stack := hstack
  have hemitted := pushFueledInstr_last h (not_consumeFuel hresult)
  exact .executed hemitted.of_stack (hstack' ▸ hpushes) hreachable hresult hop (hstack' ▸ hcomputes)

lemma computes_pushBinaryInstr {makeInstr : Reg → Reg → Reg → Op}
    (h : translator.pushBinaryInstr lhs rhs makeInstr = .ok translator')
    (hlhs : (.register lhs, x) ∈ operands) (hrhs : (.register rhs, y) ∈ operands)
    (hform : ∀ result, BinaryForm float (makeInstr result lhs rhs) result lhs rhs x y expected) :
    ComputesNext stash float translator translator' operands ty expected := by
  obtain ⟨⟨result, stack⟩, hdynamic, h⟩ := bind_eq_ok.1 h
  refine computes_pushFueledInstr h (.of_push hdynamic) (hform result).result_eq
    (hform result).not_copy fun f _ hoperands => ?_
  exact (hform result).computes f (hoperands _ hlhs) (hoperands _ hrhs)

lemma computes_pushBinaryInstrImm {makeInstr : Reg → Reg → Reg → Op}
    (h : translator.pushBinaryInstrImm lhs y makeInstr = .ok translator')
    (hlhs : (.register lhs, x) ∈ operands)
    (hform : ∀ result rhs,
      BinaryForm float (makeInstr result lhs rhs) result lhs rhs x y expected) :
    ComputesNext stash float translator translator' operands ty expected := by
  obtain ⟨⟨result, stack⟩, hdynamic, h⟩ := bind_eq_ok.1 h
  obtain ⟨⟨rhs, stack'⟩, halloc, h⟩ := bind_eq_ok.1 h
  obtain ⟨hstack, hext, hget⟩ := allocConst_extends halloc
  refine computes_pushFueledInstr h (.alloc (.of_push hdynamic) hstack hext)
    (hform result rhs).result_eq (hform result rhs).not_copy fun f hin hoperands => ?_
  exact (hform result rhs).computes f (hoperands _ hlhs) (hin rhs y hget)

lemma computes_pushBinaryInstrImmRev {makeInstr : Reg → Reg → Reg → Op}
    (h : translator.pushBinaryInstrImmRev x rhs makeInstr = .ok translator')
    (hrhs : (.register rhs, y) ∈ operands)
    (hform : ∀ result lhs,
      BinaryForm float (makeInstr result lhs rhs) result lhs rhs x y expected) :
    ComputesNext stash float translator translator' operands ty expected := by
  obtain ⟨⟨result, stack⟩, hdynamic, h⟩ := bind_eq_ok.1 h
  obtain ⟨⟨lhs, stack'⟩, halloc, h⟩ := bind_eq_ok.1 h
  obtain ⟨hstack, hext, hget⟩ := allocConst_extends halloc
  refine computes_pushFueledInstr h (.alloc (.of_push hdynamic) hstack hext)
    (hform result lhs).result_eq (hform result lhs).not_copy fun f hin hoperands => ?_
  exact (hform result lhs).computes f (hin lhs x hget) (hoperands _ hrhs)

lemma computes_tryPushBinaryInstrImm16 {imm : BitVec T.bits}
    {makeInstr : Reg → Reg → Const16 → Except Failure Op}
    (h : translator.tryPushBinaryInstrImm16 T lhs imm makeInstr = .ok (some translator'))
    (hlhs : (.register lhs, x) ∈ operands)
    (hform : ∀ imm16 result op, Const16.ofImm T imm = some imm16 →
      makeInstr result lhs imm16 = .ok op → UnaryForm float op result lhs x expected) :
    ComputesNext stash float translator translator' operands ty expected := by
  unfold FuncTranslator.tryPushBinaryInstrImm16 at h
  split at h
  case h_1 imm16 himm =>
    obtain ⟨⟨result, stack⟩, hdynamic, h⟩ := bind_eq_ok.1 h
    obtain ⟨op, hop, h⟩ := bind_eq_ok.1 h
    obtain ⟨done, hpush, h⟩ := bind_eq_ok.1 h
    obtain rfl := Option.some.inj (Except.ok.inj h)
    have hunary := hform imm16 result op himm hop
    refine computes_pushFueledInstr hpush (.of_push hdynamic) hunary.result_eq hunary.not_copy ?_
    exact fun f _ hoperands => hunary.computes f (hoperands _ hlhs)
  case h_2 => simp at h

lemma computes_tryPushBinaryInstrImm16Rev {imm : BitVec T.bits}
    {makeInstr : Reg → Const16 → Reg → Op}
    (h : translator.tryPushBinaryInstrImm16Rev T imm rhs makeInstr = .ok (some translator'))
    (hrhs : (.register rhs, y) ∈ operands)
    (hform : ∀ imm16 result, Const16.ofImm T imm = some imm16 →
      UnaryForm float (makeInstr result imm16 rhs) result rhs y expected) :
    ComputesNext stash float translator translator' operands ty expected := by
  unfold FuncTranslator.tryPushBinaryInstrImm16Rev at h
  split at h
  case h_1 imm16 himm =>
    obtain ⟨⟨result, stack⟩, hdynamic, h⟩ := bind_eq_ok.1 h
    obtain ⟨done, hpush, h⟩ := bind_eq_ok.1 h
    obtain rfl := Option.some.inj (Except.ok.inj h)
    have hunary := hform imm16 result himm
    refine computes_pushFueledInstr hpush (.of_push hdynamic) hunary.result_eq hunary.not_copy ?_
    exact fun f _ hoperands => hunary.computes f (hoperands _ hrhs)
  case h_2 => simp at h

end Push

/-! ## Custom optimizations -/

/-- Where the optimization applies, the result is pushed for registers with the values `x` and
`y`. -/
def RegOpt.Exact (stash : MultiStash σ) (opt : RegOpt σ) (float : FloatOps) (x y : UntypedVal)
    (ty : ValType) (expected : Except TrapCode UntypedVal) : Prop :=
  ∀ (translator translator' : FuncTranslator σ) (lhs rhs : Reg),
    opt translator lhs rhs = .ok (some translator') →
    ComputesNext stash float translator translator' [(.register lhs, x), (.register rhs, y)] ty
      expected

/-- The same for a register with the value `x` and the immediate, whatever the operands are. -/
def ImmOpt.Exact {T : ImmType} (stash : MultiStash σ) (opt : ImmOpt σ T) (float : FloatOps)
    (x : UntypedVal) (imm : BitVec T.bits) (ty : ValType) (expected : Except TrapCode UntypedVal) :
    Prop :=
  ∀ (translator translator' : FuncTranslator σ) (reg : Reg)
    (operands : List (TypedProvider × UntypedVal)),
    opt translator reg imm = .ok (some translator') → (.register reg, x) ∈ operands →
    firstRegister operands = some reg →
    ComputesNext stash float translator translator' operands ty expected

section Optimizations

variable {stash : MultiStash σ} {float : FloatOps} {translator translator' : FuncTranslator σ}
  {operands : List (TypedProvider × UntypedVal)} {ty : ValType} {T : ImmType}
  {expected : Except TrapCode UntypedVal} {x y : UntypedVal} {value : TypedVal}
  {imm imm' : BitVec T.bits}

lemma orElse_ok {α : Type} {attempt : Except Failure (Option α)} {otherwise : Except Failure α}
    {done : α} (h : orElse attempt otherwise = .ok done) :
    attempt = .ok (some done) ∨ attempt = .ok none ∧ otherwise = .ok done := by
  obtain ⟨tried, htried, h⟩ := bind_eq_ok.1 h
  cases tried with
  | some applied =>
    rw [← Except.ok.inj h]
    exact .inl htried
  | none => exact .inr ⟨htried, h⟩

/-- What is expected holds wherever the operands have their values. -/
def Expects (operands : List (TypedProvider × UntypedVal)) (p : Prop) : Prop :=
  ∀ f : RegFile, (∀ operand ∈ operands, operand.1.valueIn f = some operand.2) → p

lemma computes_pushConst {stack : ValueStack σ} (h : translator.stack.pushConst value = .ok stack)
    (htyped : value.ty = ty) (hvalue : Expects operands (expected = .ok value.value)) :
    ComputesNext stash float translator (translator.withStack stack) operands ty expected := by
  refine .pushed (.const h) rfl ?_ fun f hoperands => ⟨_, hvalue f hoperands, rfl⟩
  intro constant hconstant
  rw [← Provider.const.inj hconstant]
  exact htyped

lemma computes_pushRegister {stack : ValueStack σ} {reg : Reg}
    (h : translator.stack.pushRegister stash reg = .ok stack)
    (hreg : (.register reg, x) ∈ operands) (hfirst : firstRegister operands = some reg)
    (hvalue : Expects operands (expected = .ok x)) :
    ComputesNext stash float translator (translator.withStack stack) operands ty expected := by
  refine .pushed (.register h fun _ => hfirst) rfl (fun _ h => by simp at h) fun f hoperands => ?_
  exact ⟨x, hvalue f hoperands, hoperands _ hreg⟩

lemma computes_optConst (h : translator.optConst value = .ok (some translator'))
    (htyped : value.ty = ty) (hvalue : Expects operands (expected = .ok value.value)) :
    ComputesNext stash float translator translator' operands ty expected := by
  obtain ⟨stack, hpush, h⟩ := bind_eq_ok.1 h
  obtain rfl := Option.some.inj (Except.ok.inj h)
  exact computes_pushConst hpush htyped hvalue

lemma computes_optRegister {reg : Reg}
    (h : translator.optRegister stash reg = .ok (some translator'))
    (hreg : (.register reg, x) ∈ operands) (hfirst : firstRegister operands = some reg)
    (hvalue : Expects operands (expected = .ok x)) :
    ComputesNext stash float translator translator' operands ty expected := by
  obtain ⟨stack, hpush, h⟩ := bind_eq_ok.1 h
  obtain rfl := Option.some.inj (Except.ok.inj h)
  exact computes_pushRegister hpush hreg hfirst hvalue

/-- The same register has one value. -/
lemma eq_of_same {reg : Reg} {p : Prop} (h : x = y → p) :
    Expects [(.register reg, x), (.register reg, y)] p := by
  intro f hoperands
  have hx : f reg = some x := hoperands (.register reg, x) (by simp)
  have hy : f reg = some y := hoperands (.register reg, y) (by simp)
  exact h (Option.some.inj (hx.symm.trans hy))

lemma noCustomOpt_regExact : RegOpt.Exact stash (noCustomOpt : RegOpt σ) float x y ty expected := by
  intro translator translator' lhs rhs h
  cases h

lemma noCustomOpt_immExact :
    ImmOpt.Exact stash (noCustomOpt : ImmOpt σ T) float x imm ty expected := by
  intro translator translator' reg operands h
  cases h

lemma constIfSame_exact (htyped : value.ty = ty) (hsame : x = y → expected = .ok value.value) :
    RegOpt.Exact stash (FuncTranslator.constIfSame value : RegOpt σ) float x y ty expected := by
  intro translator translator' lhs rhs h
  unfold FuncTranslator.constIfSame at h
  split at h
  case isTrue heq =>
    subst heq
    exact computes_optConst h htyped (eq_of_same hsame)
  case isFalse => simp at h

lemma registerIfSame_exact (hsame : x = y → expected = .ok x) :
    RegOpt.Exact stash (FuncTranslator.registerIfSame stash) float x y ty expected := by
  intro translator translator' lhs rhs h
  unfold FuncTranslator.registerIfSame at h
  split at h
  case isTrue heq =>
    subst heq
    exact computes_optRegister h (by simp) rfl (eq_of_same hsame)
  case isFalse => simp at h

lemma constIf_exact (htyped : value.ty = ty) (heq : imm = imm' → expected = .ok value.value) :
    ImmOpt.Exact stash (FuncTranslator.constIf imm' value : ImmOpt σ T) float x imm ty
      expected := by
  intro translator translator' reg operands h _ _
  unfold FuncTranslator.constIf at h
  split at h
  case isTrue himm => exact computes_optConst h htyped fun _ _ => heq himm
  case isFalse => simp at h

lemma registerIf_exact (heq : imm = imm' → expected = .ok x) :
    ImmOpt.Exact stash (FuncTranslator.registerIf stash imm') float x imm ty expected := by
  intro translator translator' reg operands h hreg hfirst
  unfold FuncTranslator.registerIf at h
  split at h
  case isTrue himm => exact computes_optRegister h hreg hfirst fun _ _ => heq himm
  case isFalse => simp at h

end Optimizations

/-! ## The kinds of operators -/

/-- A constant operand has the type and the value. -/
def TypedProvider.Denotes (provider : TypedProvider) (ty : ValType) (value : UntypedVal) : Prop :=
  ∀ constant, provider = .const constant → constant.ty = ty ∧ constant.value = value

/-- An operator has been translated. Its operands were `lhs` and `rhs`, of the type `ty` and with
the values `x` and `y`, and left `stack`. -/
structure TranslatedOperator (stash : MultiStash σ) (translator translator' : FuncTranslator σ)
    (stack : ValueStack σ) (visited : Except Failure (FuncTranslator σ)) (ty : ValType)
    (lhs rhs : TypedProvider) (x y : UntypedVal) : Prop where
  visit : visited = .ok translator'
  reachable : translator.reachable = true
  pop2 : translator.stack.pop2 stash = .ok (lhs, rhs, stack)
  lhs_denotes : lhs.Denotes ty x
  rhs_denotes : rhs.Denotes ty y

section Kinds

open UntypedVal (ofInt truncate_ofInt)

variable {stash : MultiStash σ} {float : FloatOps} {translator translator' : FuncTranslator σ}
  {stack : ValueStack σ} {lhs rhs : TypedProvider} {ty : ValType} {T : ImmType}
  {expected : Except TrapCode UntypedVal} {a b : BitVec T.bits}
  {makeInstr : Reg → Reg → Reg → Op} {makeInstrImm16Rev : Reg → Const16 → Reg → Op}
  {consteval : TypedVal → TypedVal → TypedVal} {makeInstrOpt : RegOpt σ}
  {makeInstrRegImmOpt makeInstrImmRegOpt : ImmOpt σ T}

/-- The constants of both operands are evaluated. -/
lemma computes_pushBinaryConsteval {operands : List (TypedProvider × UntypedVal)}
    {left right : TypedVal}
    (h : translator.pushBinaryConsteval left right consteval = .ok translator')
    (hconst : expected = .ok (consteval left right).value ∧ (consteval left right).ty = ty) :
    ComputesNext stash float translator translator' operands ty expected := by
  obtain ⟨stack, hpush, h⟩ := bind_eq_ok.1 h
  obtain rfl := Except.ok.inj h
  exact computes_pushConst hpush hconst.2 fun _ _ => hconst.1

lemma computes_translateBinary {makeInstrImm16 : Reg → Reg → Const16 → Except Failure Op}
    (htranslated : TranslatedOperator stash translator translator' stack
      (translator.translateBinary stash T makeInstr makeInstrImm16 makeInstrImm16Rev consteval
        makeInstrOpt makeInstrRegImmOpt makeInstrImmRegOpt)
      T.valType lhs rhs (ofInt a) (ofInt b))
    (hreg : ∀ result l r,
      BinaryForm float (makeInstr result l r) result l r (ofInt a) (ofInt b) expected)
    (himm : ∀ l imm result op, Const16.ofImm T b = some imm → makeInstrImm16 result l imm = .ok op →
      UnaryForm float op result l (ofInt a) expected)
    (hrev : ∀ r imm result, Const16.ofImm T a = some imm →
      UnaryForm float (makeInstrImm16Rev result imm r) result r (ofInt b) expected)
    (hconst : ∀ left right, left.value = ofInt a → right.value = ofInt b →
      expected = .ok (consteval left right).value ∧ (consteval left right).ty = ty)
    (hopt : makeInstrOpt.Exact stash float (ofInt a) (ofInt b) ty expected)
    (hregImm : makeInstrRegImmOpt.Exact stash float (ofInt a) b ty expected)
    (himmReg : makeInstrImmRegOpt.Exact stash float (ofInt b) a ty expected) :
    ComputesNext stash float (translator.withStack stack) translator'
      [(lhs, ofInt a), (rhs, ofInt b)] ty expected := by
  obtain ⟨h, hreachable, hpop, hlhs, hrhs⟩ := htranslated
  unfold FuncTranslator.translateBinary at h
  rw [if_pos hreachable, hpop, ok_bind] at h
  cases lhs with
  | register l =>
    cases rhs with
    | register r =>
      obtain h | ⟨-, h⟩ := orElse_ok h
      · exact hopt _ _ l r h
      · exact computes_pushBinaryInstr h (by simp) (by simp) fun result => hreg result l r
    | const c =>
      obtain ⟨-, hc⟩ := hrhs c rfl
      change orElse _ (orElse _ _) = _ at h
      rw [hc, truncate_ofInt] at h
      obtain h | ⟨-, h⟩ := orElse_ok h
      · exact hregImm _ _ l _ h (by simp) rfl
      obtain h | ⟨-, h⟩ := orElse_ok h
      · exact computes_tryPushBinaryInstrImm16 h (by simp) fun imm result op => himm l imm result op
      · exact computes_pushBinaryInstrImm h (by simp) fun result r => hreg result l r
  | const c =>
    obtain ⟨-, hc⟩ := hlhs c rfl
    cases rhs with
    | register r =>
      change orElse _ (orElse _ _) = _ at h
      rw [hc, truncate_ofInt] at h
      obtain h | ⟨-, h⟩ := orElse_ok h
      · exact himmReg _ _ r _ h (by simp) rfl
      obtain h | ⟨-, h⟩ := orElse_ok h
      · exact computes_tryPushBinaryInstrImm16Rev h (by simp) fun imm result => hrev r imm result
      · exact computes_pushBinaryInstrImmRev h (by simp) fun result l => hreg result l r
    | const d =>
      obtain ⟨-, hd⟩ := hrhs d rfl
      exact computes_pushBinaryConsteval h (hconst c d hc hd)

/-- An operator with its operands in either order. -/
lemma computes_translateBinaryCommutative {makeInstrImm16 : Reg → Reg → Const16 → Op}
    {makeInstrImmOpt : ImmOpt σ T}
    (htranslated : TranslatedOperator stash translator translator' stack
      (translator.translateBinaryCommutative stash T makeInstr makeInstrImm16 consteval
        makeInstrOpt makeInstrImmOpt)
      T.valType lhs rhs (ofInt a) (ofInt b))
    (hreg : ∀ result l r,
      BinaryForm float (makeInstr result l r) result l r (ofInt a) (ofInt b) expected ∧
        BinaryForm float (makeInstr result l r) result l r (ofInt b) (ofInt a) expected)
    (himm : ∀ reg imm result,
      (Const16.ofImm T b = some imm →
        UnaryForm float (makeInstrImm16 result reg imm) result reg (ofInt a) expected) ∧
      (Const16.ofImm T a = some imm →
        UnaryForm float (makeInstrImm16 result reg imm) result reg (ofInt b) expected))
    (hconst : ∀ left right, left.value = ofInt a → right.value = ofInt b →
      expected = .ok (consteval left right).value ∧ (consteval left right).ty = ty)
    (hopt : makeInstrOpt.Exact stash float (ofInt a) (ofInt b) ty expected)
    (himmOpt : makeInstrImmOpt.Exact stash float (ofInt a) b ty expected ∧
      makeInstrImmOpt.Exact stash float (ofInt b) a ty expected) :
    ComputesNext stash float (translator.withStack stack) translator'
      [(lhs, ofInt a), (rhs, ofInt b)] ty expected := by
  obtain ⟨h, hreachable, hpop, hlhs, hrhs⟩ := htranslated
  unfold FuncTranslator.translateBinaryCommutative at h
  rw [if_pos hreachable, hpop, ok_bind] at h
  cases lhs with
  | register l =>
    cases rhs with
    | register r =>
      obtain h | ⟨-, h⟩ := orElse_ok h
      · exact hopt _ _ l r h
      · exact computes_pushBinaryInstr h (by simp) (by simp) fun result => (hreg result l r).1
    | const c =>
      obtain ⟨-, hc⟩ := hrhs c rfl
      change orElse _ (orElse _ _) = _ at h
      rw [hc, truncate_ofInt] at h
      obtain h | ⟨-, h⟩ := orElse_ok h
      · exact himmOpt.1 _ _ l _ h (by simp) rfl
      obtain h | ⟨-, h⟩ := orElse_ok h
      · refine computes_tryPushBinaryInstrImm16 (x := ofInt a) h (by simp) ?_
        rintro imm result op himm' hop
        rw [← Except.ok.inj hop]
        exact (himm l imm result).1 himm'
      · exact computes_pushBinaryInstrImm h (by simp) fun result r => (hreg result l r).1
  | const c =>
    obtain ⟨-, hc⟩ := hlhs c rfl
    cases rhs with
    | register r =>
      change orElse _ (orElse _ _) = _ at h
      rw [hc, truncate_ofInt] at h
      obtain h | ⟨-, h⟩ := orElse_ok h
      · exact himmOpt.2 _ _ r _ h (by simp) rfl
      obtain h | ⟨-, h⟩ := orElse_ok h
      · refine computes_tryPushBinaryInstrImm16 (x := ofInt b) h (by simp) ?_
        rintro imm result op himm' hop
        rw [← Except.ok.inj hop]
        exact (himm r imm result).2 himm'
      · exact computes_pushBinaryInstrImm h (by simp) fun result l => (hreg result r l).2
    | const d =>
      obtain ⟨-, hd⟩ := hrhs d rfl
      exact computes_pushBinaryConsteval h (hconst c d hc hd)

lemma computes_translateShift {shiftAmount : BitVec T.bits → Option Const16}
    {makeInstrBy : Reg → Reg → Const16 → Op}
    (htranslated : TranslatedOperator stash translator translator' stack
      (translator.translateShift stash T shiftAmount makeInstr makeInstrBy makeInstrImm16Rev
        consteval makeInstrImmRegOpt)
      T.valType lhs rhs (ofInt a) (ofInt b)) (hty : T.valType = ty)
    (hreg : ∀ result l r,
      BinaryForm float (makeInstr result l r) result l r (ofInt a) (ofInt b) expected)
    (hby : ∀ l imm result, shiftAmount b = some imm →
      UnaryForm float (makeInstrBy result l imm) result l (ofInt a) expected)
    (hnone : shiftAmount b = none ∨ a = 0 → expected = .ok (ofInt a))
    (hrev : ∀ r imm result, Const16.ofImm T a = some imm →
      UnaryForm float (makeInstrImm16Rev result imm r) result r (ofInt b) expected)
    (hconst : ∀ left right, left.value = ofInt a → right.value = ofInt b →
      expected = .ok (consteval left right).value ∧ (consteval left right).ty = ty)
    (himmReg : makeInstrImmRegOpt.Exact stash float (ofInt b) a ty expected) :
    ComputesNext stash float (translator.withStack stack) translator'
      [(lhs, ofInt a), (rhs, ofInt b)] ty expected := by
  obtain ⟨h, hreachable, hpop, hlhs, hrhs⟩ := htranslated
  unfold FuncTranslator.translateShift at h
  rw [if_pos hreachable, hpop, ok_bind] at h
  cases lhs with
  | register l =>
    cases rhs with
    | register r =>
      exact computes_pushBinaryInstr h (by simp) (by simp) fun result => hreg result l r
    | const c =>
      obtain ⟨-, hc⟩ := hrhs c rfl
      dsimp only at h
      rw [hc, truncate_ofInt] at h
      split at h
      case h_1 hamount =>
        obtain ⟨pushed, hpush, h⟩ := bind_eq_ok.1 h
        obtain rfl := Except.ok.inj h
        exact computes_pushRegister hpush (x := ofInt a) (by simp) rfl
          fun _ _ => hnone (.inl hamount)
      case h_2 imm hamount =>
        obtain ⟨⟨result, pushed⟩, hdynamic, h⟩ := bind_eq_ok.1 h
        have hunary := hby l imm result hamount
        refine computes_pushFueledInstr h (.of_push hdynamic) hunary.result_eq hunary.not_copy ?_
        exact fun f _ hoperands => hunary.computes f (hoperands (.register l, ofInt a) (by simp))
  | const c =>
    obtain ⟨hcty, hc⟩ := hlhs c rfl
    cases rhs with
    | register r =>
      change orElse _ (if _ then _ else _) = _ at h
      rw [hc, truncate_ofInt] at h
      obtain h | ⟨-, h⟩ := orElse_ok h
      · exact himmReg _ _ r _ h (by simp) rfl
      split at h
      case isTrue hzero =>
        obtain ⟨pushed, hpush, h⟩ := bind_eq_ok.1 h
        obtain rfl := Except.ok.inj h
        exact computes_pushConst hpush (hcty.trans hty)
          fun _ _ => by rw [hc]; exact hnone (.inr hzero)
      case isFalse =>
        obtain h | ⟨-, h⟩ := orElse_ok h
        · exact computes_tryPushBinaryInstrImm16Rev h (by simp) fun imm result => hrev r imm result
        · exact computes_pushBinaryInstrImmRev h (by simp) fun result l => hreg result l r
    | const d =>
      obtain ⟨-, hd⟩ := hrhs d rfl
      exact computes_pushBinaryConsteval h (hconst c d hc hd)

/-- A trap, with whatever on the stack. -/
lemma computes_translateTrap {operands : List (TypedProvider × UntypedVal)} {trapCode : TrapCode}
    (h : translator.translateTrap trapCode = .ok translator')
    (hreachable : translator.reachable = true) (hexpected : expected = .error trapCode) :
    ComputesNext stash float translator translator' operands ty expected := by
  obtain ⟨hemitted, hstack, hunreachable⟩ := translateTrap_ok hreachable h
  unfold FuncTranslator.translateTrap at h
  rw [if_pos hreachable] at h
  obtain ⟨pushed, hpush, h⟩ := bind_eq_ok.1 h
  obtain rfl := Except.ok.inj h
  have hlast := pushFueledInstr_last hpush (by simp)
  exact .trapped ⟨hemitted, hlast.lastInstr, hlast.plain⟩ hstack hunreachable hexpected

lemma computes_translateDivrem {makeInstrImm16 : Reg → Reg → Const16 → Op}
    {consteval : TypedVal → TypedVal → Except TrapCode TypedVal}
    (htranslated : TranslatedOperator stash translator translator' stack
      (translator.translateDivrem stash T makeInstr makeInstrImm16 makeInstrImm16Rev consteval
        makeInstrOpt makeInstrRegImmOpt)
      T.valType lhs rhs (ofInt a) (ofInt b))
    (hreg : ∀ result l r,
      BinaryForm float (makeInstr result l r) result l r (ofInt a) (ofInt b) expected)
    (hzero : b = 0 → expected = .error .integerDivisionByZero)
    (himm : ∀ this l imm result, b ≠ 0 → makeInstrRegImmOpt this l b = .ok none →
      Const16.ofImm T b = some imm →
      UnaryForm float (makeInstrImm16 result l imm) result l (ofInt a) expected)
    (hrev : ∀ r imm result, Const16.ofImm T a = some imm →
      UnaryForm float (makeInstrImm16Rev result imm r) result r (ofInt b) expected)
    (hconst : ∀ left right, left.value = ofInt a → right.value = ofInt b →
      (∃ value, consteval left right = .ok value ∧ expected = .ok value.value ∧ value.ty = ty) ∨
        ∃ trapCode, consteval left right = .error trapCode ∧ expected = .error trapCode)
    (hopt : makeInstrOpt.Exact stash float (ofInt a) (ofInt b) ty expected)
    (hregImm : makeInstrRegImmOpt.Exact stash float (ofInt a) b ty expected) :
    ComputesNext stash float (translator.withStack stack) translator'
      [(lhs, ofInt a), (rhs, ofInt b)] ty expected := by
  obtain ⟨h, hreachable, hpop, hlhs, hrhs⟩ := htranslated
  unfold FuncTranslator.translateDivrem at h
  rw [if_pos hreachable, hpop, ok_bind] at h
  cases lhs with
  | register l =>
    cases rhs with
    | register r =>
      obtain h | ⟨-, h⟩ := orElse_ok h
      · exact hopt _ _ l r h
      · exact computes_pushBinaryInstr h (by simp) (by simp) fun result => hreg result l r
    | const c =>
      obtain ⟨-, hc⟩ := hrhs c rfl
      change (if _ then _ else orElse _ (orElse _ _)) = _ at h
      rw [hc, truncate_ofInt] at h
      split at h
      case isTrue hb => exact computes_translateTrap h hreachable (hzero hb)
      case isFalse hb =>
        obtain h | ⟨hnone, h⟩ := orElse_ok h
        · exact hregImm _ _ l _ h (by simp) rfl
        obtain h | ⟨-, h⟩ := orElse_ok h
        · refine computes_tryPushBinaryInstrImm16 (x := ofInt a) h (by simp) ?_
          rintro imm result op himm' hop
          rw [← Except.ok.inj hop]
          exact himm _ l imm result hb hnone himm'
        · exact computes_pushBinaryInstrImm h (by simp) fun result r => hreg result l r
  | const c =>
    obtain ⟨-, hc⟩ := hlhs c rfl
    cases rhs with
    | register r =>
      change orElse _ _ = _ at h
      rw [hc, truncate_ofInt] at h
      obtain h | ⟨-, h⟩ := orElse_ok h
      · exact computes_tryPushBinaryInstrImm16Rev h (by simp) fun imm result => hrev r imm result
      · exact computes_pushBinaryInstrImmRev h (by simp) fun result l => hreg result l r
    | const d =>
      obtain ⟨-, hd⟩ := hrhs d rfl
      obtain ⟨value, heval, hexpected, htyped⟩ | ⟨trapCode, heval, hexpected⟩ := hconst c d hc hd
      · dsimp only at h
        rw [heval] at h
        obtain ⟨pushed, hpush, h⟩ := bind_eq_ok.1 h
        obtain rfl := Except.ok.inj h
        exact computes_pushConst hpush htyped fun _ _ => hexpected
      · dsimp only at h
        rw [heval] at h
        exact computes_translateTrap h hreachable hexpected

end Kinds

end MotokoDebugger.Translator
