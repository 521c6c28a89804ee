import MotokoDebugger.Translator.BlockLocals
import MotokoDebugger.Translator.EmissionRuns
import MotokoDebugger.Translator.UnaryOperators

/-!
# The operators of a basic block

What the translation of each operator does to the state of the stack machine in the registers.

* `FuncTranslator.visit`: the visitor of each operator.
* `Operates`: an operator that takes operands from the stack and yields a result.
* `translates_unop`: operators with one operand, and casts, which have no code.
* `translates_eqz`: comparisons with zero, fused with the instruction in front or not.
-/

namespace MotokoDebugger.Translator

open Fallible Index16 RegisterAlloc StackMachine

variable {σ : Type}

/-! ## Visitors -/

namespace FuncTranslator

variable (stash : MultiStash σ) (float : FloatOps) (lenResults : Op → Nat)
  (translator : FuncTranslator σ)

/-- The visitor of each operator with one operand. -/
def visitUnop : Unop → Except Failure (FuncTranslator σ)
  | .i32Clz => translator.visitI32Clz stash
  | .i32Ctz => translator.visitI32Ctz stash
  | .i32Popcnt => translator.visitI32Popcnt stash
  | .i64Clz => translator.visitI64Clz stash
  | .i64Ctz => translator.visitI64Ctz stash
  | .i64Popcnt => translator.visitI64Popcnt stash
  | .i32WrapI64 => translator.visitI32WrapI64 stash
  | .i64ExtendI32S => translator.visitI64ExtendI32S stash
  | .i64ExtendI32U => translator.visitI64ExtendI32U stash
  | .i32ReinterpretF32 => translator.visitI32ReinterpretF32 stash
  | .i64ReinterpretF64 => translator.visitI64ReinterpretF64 stash
  | .f32ReinterpretI32 => translator.visitF32ReinterpretI32 stash
  | .f64ReinterpretI64 => translator.visitF64ReinterpretI64 stash
  | .i32Extend8S => translator.visitI32Extend8S stash
  | .i32Extend16S => translator.visitI32Extend16S stash
  | .i64Extend8S => translator.visitI64Extend8S stash
  | .i64Extend16S => translator.visitI64Extend16S stash
  | .i64Extend32S => translator.visitI64Extend32S stash

/-- The visitor of `eqz` for each type. -/
def visitEqz : IntType → Except Failure (FuncTranslator σ)
  | .i32 => translator.visitI32Eqz stash
  | .i64 => translator.visitI64Eqz stash

/-- The visitor of each operator. -/
def visit : Operator → Except Failure (FuncTranslator σ)
  | .const value => translator.visitConst value.typed
  | .localGet localIndex => translator.visitLocalGet localIndex
  | .localSet localIndex => translator.visitLocalSet stash float lenResults localIndex
  | .localTee localIndex => translator.visitLocalTee stash float lenResults localIndex
  | .drop => translator.visitDrop stash
  | .select none => translator.visitSelect stash float
  | .select (some ty) => translator.visitTypedSelect stash float ty
  | .unop op => translator.visitUnop stash op
  | .eqz ty => translator.visitEqz stash ty
  | .binop ty op => translator.visitBinop stash ty op
  | .relop ty op => translator.visitRelop stash ty op

/-- `translate_operators`, for operators with their positions. -/
def visitAll (translator : FuncTranslator σ) :
    List (Nat × Operator) → Except Failure (FuncTranslator σ)
  | [] => .ok translator
  | (pos, op) :: ops => do
    visitAll (← { translator with visitPos := pos }.visit stash float lenResults op) ops

end FuncTranslator

/-! ## Operands and results -/

namespace Block

/-- The translation takes the operands off the stack, and yields what the operator computes. -/
structure Operates (stash : MultiStash σ) (float : FloatOps)
    (translator translator' : FuncTranslator σ) (op : Operator) (inputs : List ValType)
    (output : ValType) : Prop where
  operates : ∃ providers stack, translator.stack.popN stash inputs.length = .ok (providers, stack) ∧
    ∀ values : List Value, values.map Value.ty = inputs →
      (∀ operand ∈ providers.zip values, operand.1.Denotes operand.2.ty operand.2.cell) →
      ∃ computed : Except TrapCode Value,
        (∀ state : State, op.exec (state.pushes values) = some (computed.map state.push)) ∧
        (∀ value, computed = .ok value → value.ty = output) ∧
        Yields stash float (translator.withStack stack) translator' (providers.zip values) output
          computed

section Operates

variable {stash : MultiStash σ} {float : FloatOps} {block : Block σ}
  {translator translator' : FuncTranslator σ} {operands : List (TypedProvider × Value)}
  {op : Operator} {inputs types : List ValType} {output ty : ValType}
  {computed : Except TrapCode Value} {outcome : Except TrapCode State}

lemma Yields.grows {slots : σ → List Nat} (hlawful : stash.Lawful slots)
    (h : Yields stash float translator translator' operands ty computed)
    (htyped : translator.stack.Typed types) : translator.stack.Grows translator'.stack ∧
      (translator'.reachable = true → translator'.stack.Typed (ty :: types)) := by
  have hdynamic : ∀ {result stack'}, PushesDynamic translator.stack result stack' →
      translator.stack.Grows stack' ∧ stack'.Typed (ty :: types) := by
    intro result stack' hpush
    obtain ⟨pushed, hpush, hstack, hconsts⟩ := hpush.push
    have hpushes := ValueStack.pushes_dynamic hpush
    have htyped' : pushed.Typed (ty :: types) := htyped.push hpushes ValueStack.hasType_register
    rw [hstack]
    exact ⟨hpushes.grows.alloc_consts hconsts, htyped'.congr rfl⟩
  cases h with
  | computes computes =>
    cases computes with
    | @pushed provider stack pushes translator_eq typed computes =>
      rw [translator_eq]
      have hpushes : ∃ entry, translator.stack.Pushes stack entry ∧ entry.toTyped = provider := by
        cases pushes with
        | const push => exact ⟨_, ValueStack.pushes_const push, rfl⟩
        | register push => exact ⟨_, ValueStack.pushes_register hlawful push, toTyped_entry _ _⟩
      obtain ⟨entry, hpushes, rfl⟩ := hpushes
      exact ⟨hpushes.grows, fun _ => htyped.push hpushes typed⟩
    | executed emitted pushes reachable result_eq not_copy computes =>
      exact ⟨(hdynamic pushes).1, fun _ => (hdynamic pushes).2⟩
    | trapped emitted stack_eq reachable expected_eq =>
      rw [stack_eq, reachable]
      exact ⟨.refl _, fun h => (by cases h)⟩
  | copies copies mem =>
    obtain ⟨result, pushed, instr, encoder, consts, hpush, hencode, rfl⟩ := copies.copy
    have hpushes : PushesDynamic translator.stack result { pushed with consts } :=
      ⟨pushed, hpush, rfl, encodeCopy_extends hencode⟩
    exact ⟨(hdynamic hpushes).1, fun _ => (hdynamic hpushes).2⟩

/-- Values for constants of the types. -/
lemma exists_values {providers : List TypedProvider}
    (h : List.Forall₂ TypedProvider.HasType providers inputs) :
    ∃ values : List Value, values.map Value.ty = inputs ∧
      ∀ operand ∈ providers.zip values, operand.1.Denotes operand.2.ty operand.2.cell := by
  induction h with
  | nil => exact ⟨[], rfl, fun _ h => (by cases h)⟩
  | @cons provider ty providers inputs hty _ ih =>
    obtain ⟨values, rfl, hvalues⟩ := ih
    refine ⟨valueOf ty provider :: values, ?_, List.forall_mem_cons.2 ⟨?_, hvalues⟩⟩
    · rw [List.map_cons, ty_valueOf]
    · dsimp only
      rw [ty_valueOf]
      exact (denotes_valueOf hty).1

/-- What the operator does is what its translation leaves. -/
lemma Operates.translates (hlawful : stash.Lawful block.slots)
    (h : Operates stash block.float translator translator' op inputs output) :
    block.Translates translator translator' op (inputs.reverse ++ types) (output :: types) := by
  obtain ⟨providers, stack, hpop, hyields⟩ := h.operates
  have hgrows : translator.stack.Typed (inputs.reverse ++ types) →
      stack.Grows translator'.stack ∧
        (translator'.reachable = true → translator'.stack.Typed (output :: types)) := by
    intro htyped
    obtain ⟨hproviders, hstack⟩ := typed_popN htyped hpop
    obtain ⟨values, hvalues, hdenotes⟩ := exists_values hproviders
    obtain ⟨computed, -, -, hyields⟩ := hyields values hvalues hdenotes
    exact hyields.grows hlawful hstack
  refine ⟨fun htyped => ?_, fun {outcome} htracks hfits => ?_⟩
  · obtain ⟨hgrows, htyped'⟩ := hgrows htyped
    exact ⟨(grows_popN hlawful hpop).trans hgrows, htyped'⟩
  · have hfits' := hfits.of_grows (hgrows htracks.typed).1
    obtain ⟨values, popped, hvalues, -, rfl, hpopped⟩ := htracks.popN hlawful hpop hfits'
    rw [List.append_nil] at hpopped
    obtain ⟨computed, hexec, hty, hyields⟩ := hyields values hvalues hpopped.denotes
    refine ⟨_, ?_, hpopped.yields hlawful hyields hty hfits⟩
    cases popped with
    | ok state => exact hexec state
    | error trapCode => rfl

end Operates

/-! ### Operators on integers -/

section Integers

variable {stash : MultiStash σ} {float : FloatOps} {block : Block σ}
  {translator translator' : FuncTranslator σ} {stack stack' : ValueStack σ}
  {provider lhs rhs condition : TypedProvider} {T : IntType} {op : IntBinop} {rel : IntRelop}

lemma popN_one (h : stack.pop stash = .ok (provider, stack')) :
    stack.popN stash 1 = .ok ([provider], stack') := by
  rw [ValueStack.popN, h]
  rfl

lemma popN_two (h : stack.pop2 stash = .ok (lhs, rhs, stack')) :
    stack.popN stash 2 = .ok ([lhs, rhs], stack') := by
  obtain ⟨⟨second, stack₁⟩, hsecond, h⟩ := bind_eq_ok.1 h
  obtain ⟨⟨first, stack₂⟩, hfirst, h⟩ := bind_eq_ok.1 h
  obtain ⟨rfl, rfl, rfl⟩ := by simpa using Except.ok.inj h
  rw [ValueStack.popN, hsecond, ok_bind]
  dsimp only
  rw [popN_one hfirst]
  rfl

lemma popN_three (h : stack.pop3 stash = .ok (lhs, rhs, condition, stack')) :
    stack.popN stash 3 = .ok ([lhs, rhs, condition], stack') := by
  obtain ⟨⟨second, third, stack₁⟩, hpop2, h⟩ := bind_eq_ok.1 h
  obtain ⟨⟨first, stack₂⟩, hfirst, h⟩ := bind_eq_ok.1 h
  obtain ⟨rfl, rfl, rfl, rfl⟩ := by simpa using Except.ok.inj h
  obtain ⟨⟨third', stack₃⟩, hthird, hpop2⟩ := bind_eq_ok.1 hpop2
  obtain ⟨⟨second', stack₄⟩, hsecond, hpop2⟩ := bind_eq_ok.1 hpop2
  obtain ⟨rfl, rfl, rfl⟩ := by simpa using Except.ok.inj hpop2
  rw [ValueStack.popN, hthird, ok_bind]
  dsimp only
  rw [ValueStack.popN, hsecond, ok_bind]
  dsimp only
  rw [popN_one hfirst]
  rfl

/-- The operands of an operator on two integers. -/
lemma visitBinop_pops (stash : MultiStash σ) (translator : FuncTranslator σ) (T : IntType)
    (op : IntBinop) : ∃ k, translator.visitBinop stash T op =
      if translator.reachable then translator.stack.pop2 stash >>= k else .ok translator := by
  cases T <;> cases op <;> exact ⟨_, rfl⟩

lemma visitRelop_pops (stash : MultiStash σ) (translator : FuncTranslator σ) (T : IntType)
    (op : IntRelop) : ∃ k, translator.visitRelop stash T op =
      if translator.reachable then translator.stack.pop2 stash >>= k else .ok translator := by
  cases T <;> cases op <;> exact ⟨_, rfl⟩

/-- Two values of the type. -/
lemma eq_two_ints {values : List Value} (h : values.map Value.ty = [T.valType, T.valType]) :
    ∃ a b, values = [.ofInt T a, .ofInt T b] := by
  obtain ⟨x, rest, rfl, hx, hrest⟩ := map_eq_cons h
  obtain ⟨y, rest, rfl, hy, hrest⟩ := map_eq_cons hrest
  obtain rfl := List.map_eq_nil_iff.1 hrest
  obtain ⟨a, rfl⟩ := Value.eq_ofInt hx
  obtain ⟨b, rfl⟩ := Value.eq_ofInt hy
  exact ⟨a, b, rfl⟩

/-- An operator on two integers, from what its code computes. -/
lemma operates_ints {op : Operator} {output : ValType} {visited : Except Failure (FuncTranslator σ)}
    (hreachable : translator.reachable = true) (h : visited = .ok translator')
    (hpops : ∃ k, visited =
      if translator.reachable then translator.stack.pop2 stash >>= k else .ok translator)
    (hcomputes : ∀ {stack lhs rhs} {a b : BitVec T.bits},
      TranslatedOperator stash translator translator' stack visited T.valType lhs rhs (.ofInt a)
        (.ofInt b) →
      ∃ computed : Except TrapCode Value,
        (∀ state : State, op.exec (state.pushes [.ofInt T a, .ofInt T b]) =
          some (computed.map state.push)) ∧
        (∀ value, computed = .ok value → value.ty = output) ∧
        ComputesNext stash float (translator.withStack stack) translator'
          [(lhs, .ofInt a), (rhs, .ofInt b)] output (computed.map Value.cell)) :
    Operates stash float translator translator' op [T.valType, T.valType] output := by
  obtain ⟨k, hpops⟩ := hpops
  have hvisit := h
  rw [hpops, if_pos hreachable] at hvisit
  obtain ⟨⟨lhs, rhs, stack⟩, hpop, -⟩ := bind_eq_ok.1 hvisit
  refine ⟨_, stack, popN_two hpop, fun values hvalues hdenotes => ?_⟩
  obtain ⟨a, b, rfl⟩ := eq_two_ints hvalues
  have hlhs := hdenotes (lhs, .ofInt T a) (by simp)
  have hrhs := hdenotes (rhs, .ofInt T b) (by simp)
  simp only [Value.ty_ofInt, Value.cell_ofInt] at hlhs hrhs
  obtain ⟨computed, hexec, hty, hcomputes⟩ := hcomputes ⟨h, hreachable, hpop, hlhs, hrhs⟩
  have hoperands : cells ([lhs, rhs].zip [.ofInt T a, .ofInt T b]) =
      [(lhs, .ofInt a), (rhs, .ofInt b)] := by simp [cells]
  exact ⟨computed, hexec, hty, .computes (hoperands ▸ hcomputes)⟩

lemma operates_binop (hreachable : translator.reachable = true)
    (h : translator.visitBinop stash T op = .ok translator') :
    Operates stash float translator translator' (.binop T op) [T.valType, T.valType]
      T.valType := by
  refine operates_ints hreachable h (visitBinop_pops stash translator T op) ?_
  intro stack lhs rhs a b htranslated
  have hcomputes : ComputesNext stash float (translator.withStack stack) translator'
      [(lhs, .ofInt a), (rhs, .ofInt b)] T.valType ((op.eval a b).map .ofInt) :=
    computes_visitBinop htranslated
  refine ⟨(op.eval a b).map (Value.ofInt T), fun state => ?_, fun value hvalue => ?_, ?_⟩
  · show (Value.toInt T (.ofInt T a)).bind _ = _
    rw [Value.toInt_ofInt, Option.bind_some, Value.toInt_ofInt, Option.map_some]
    cases op.eval a b <;> rfl
  · cases hbits : op.eval a b with
    | ok bits =>
      rw [hbits] at hvalue
      rw [← Except.ok.inj hvalue]
      exact Value.ty_ofInt bits
    | error trapCode =>
      rw [hbits] at hvalue
      cases hvalue
  · have hcells : ((op.eval a b).map (Value.ofInt T)).map Value.cell =
        (op.eval a b).map .ofInt := by
      cases op.eval a b with
      | ok bits => exact congrArg Except.ok (Value.cell_ofInt bits)
      | error trapCode => rfl
    rw [hcells]
    exact hcomputes

lemma operates_relop (hreachable : translator.reachable = true)
    (h : translator.visitRelop stash T rel = .ok translator') :
    Operates stash float translator translator' (.relop T rel) [T.valType, T.valType] .i32 := by
  refine operates_ints hreachable h (visitRelop_pops stash translator T rel) ?_
  intro stack lhs rhs a b htranslated
  have hcomputes : ComputesNext stash float (translator.withStack stack) translator'
      [(lhs, .ofInt a), (rhs, .ofInt b)] .i32 (.ok (.ofBool (rel.eval a b))) :=
    computes_visitRelop htranslated
  refine ⟨.ok (.ofBool (rel.eval a b)), fun state => ?_, fun value hvalue => ?_, ?_⟩
  · show (Value.toInt T (.ofInt T a)).bind _ = _
    rw [Value.toInt_ofInt, Option.bind_some, Value.toInt_ofInt, Option.map_some]
    rfl
  · rw [← Except.ok.inj hvalue]
    rfl
  · show ComputesNext stash float _ translator' _ .i32 (.ok (Value.ofBool (rel.eval a b)).cell)
    rw [Value.cell_ofBool]
    exact hcomputes

/-- A selection, with the type or without it. -/
lemma operates_select {hint : Option ValType} {ty : ValType}
    (hreachable : translator.reachable = true)
    (h : translator.translateSelect stash float hint = .ok translator') :
    Operates stash float translator translator' (.select hint) [ty, ty, .i32] ty := by
  have hvisit := h
  rw [FuncTranslator.translateSelect, if_pos hreachable] at hvisit
  obtain ⟨⟨lhs, rhs, condition, stack⟩, hpop, -⟩ := bind_eq_ok.1 hvisit
  refine ⟨_, stack, popN_three hpop, fun values hvalues hdenotes => ?_⟩
  obtain ⟨x, rest, rfl, hx, hrest⟩ := map_eq_cons hvalues
  obtain ⟨y, rest, rfl, hy, hrest⟩ := map_eq_cons hrest
  obtain ⟨z, rest, rfl, hz, hrest⟩ := map_eq_cons hrest
  obtain rfl := List.map_eq_nil_iff.1 hrest
  obtain ⟨c, rfl⟩ : ∃ c : BitVec 32, z = .i32 c := Value.eq_ofInt (T := .i32) hz
  have hlhs := hdenotes (lhs, x) (by simp)
  have hrhs := hdenotes (rhs, y) (by simp)
  have hcondition : condition.Denotes .i32 (.ofInt c) := hdenotes (condition, .i32 c) (by simp)
  simp only [hx, hy] at hlhs hrhs
  have hselected := translateSelect_cases ⟨h, hreachable, hpop, hlhs, hrhs, hcondition⟩
  refine ⟨.ok (if c ≠ 0 then x else y), fun state => rfl, fun value hvalue => ?_, ?_⟩
  · rw [← Except.ok.inj hvalue]
    split
    · exact hx
    · exact hy
  · obtain hcomputes | hcopies := hselected
    · refine .computes ?_
      have hcell : (if c ≠ 0 then x else y).cell = if c ≠ 0 then x.cell else y.cell := by
        split <;> rfl
      show ComputesNext stash float _ translator' _ ty (.ok (if c ≠ 0 then x else y).cell)
      rw [hcell]
      exact hcomputes
    · refine .copies hcopies ?_
      by_cases hzero : c ≠ 0
      · simp only [if_pos hzero]
        exact List.mem_cons_self
      · simp only [if_neg hzero]
        exact List.mem_cons_of_mem _ List.mem_cons_self

end Integers

/-! ### Operators with one operand -/

/-- The operator of the instruction. `none` for those that have no instruction. -/
def intOf : Unop → Option IntUnaryOp
  | .i32Clz => some .i32Clz
  | .i32Ctz => some .i32Ctz
  | .i32Popcnt => some .i32Popcnt
  | .i64Clz => some .i64Clz
  | .i64Ctz => some .i64Ctz
  | .i64Popcnt => some .i64Popcnt
  | .i32WrapI64 => some .i32WrapI64
  | .i64ExtendI32S => some .i64Extend32S
  | .i32Extend8S => some .i32Extend8S
  | .i32Extend16S => some .i32Extend16S
  | .i64Extend8S => some .i64Extend8S
  | .i64Extend16S => some .i64Extend16S
  | .i64Extend32S => some .i64Extend32S
  | .i64ExtendI32U | .i32ReinterpretF32 | .i64ReinterpretF64 | .f32ReinterpretI32
  | .f64ReinterpretI64 => none

section Unary

variable {stash : MultiStash σ} {float : FloatOps} {block : Block σ}
  {translator translator' : FuncTranslator σ} {stack stack' : ValueStack σ}
  {provider : TypedProvider} {op : Unop} {int : IntUnaryOp} {value result : Value}
  {types : List ValType}

lemma truncate_ofI32 {w : Nat} (bits : BitVec 32) (h : w ≤ 32) :
    (UntypedVal.ofI32 bits).truncate w = bits.truncate w := by
  show (bits.setWidth 64).setWidth w = bits.setWidth w
  exact BitVec.setWidth_setWidth_of_le bits (by omega)

lemma toI32_ofI32 (bits : BitVec 32) : (UntypedVal.ofI32 bits).toI32 = bits :=
  (truncate_ofI32 bits (Nat.le_refl 32)).trans (BitVec.setWidth_eq bits)

/-- The instruction computes what the operator does. -/
lemma eval_intOf (hop : intOf op = some int) (h : op.eval value = some result) :
    result.cell = int.eval value.cell ∧ int.resultType = op.output := by
  have hlow8 := fun bits : BitVec 32 => truncate_ofI32 (w := 8) bits (by omega)
  have hlow16 := fun bits : BitVec 32 => truncate_ofI32 (w := 16) bits (by omega)
  cases op <;> cases hop <;> cases value <;> cases h <;> refine ⟨?_, rfl⟩
  -- the clauses on 32 bits read the lower half of the cell
  all_goals
    simp only [Value.cell, IntUnaryOp.eval, toI32_ofI32, hlow8, hlow16]
    try rfl
  show BitVec.signExtend 64 _ = (UntypedVal.ofI32 _).toI32.signExtend 64
  rw [toI32_ofI32]

lemma operates_unop (hop : intOf op = some int) (hreachable : translator.reachable = true)
    (h : translator.visitUnop stash op = .ok translator') :
    Operates stash float translator translator' (.unop op) [op.input] op.output := by
  have hvisit : translator.visitUnop stash op = translator.visitUnary stash int := by
    cases op <;> cases hop <;> rfl
  rw [hvisit, FuncTranslator.visitUnary, FuncTranslator.translateUnary, if_pos hreachable] at h
  obtain ⟨⟨input, stack⟩, hpop, h⟩ := bind_eq_ok.1 h
  refine ⟨_, stack, popN_one hpop, fun values hvalues hdenotes => ?_⟩
  obtain ⟨x, rest, rfl, hx, hrest⟩ := map_eq_cons hvalues
  obtain rfl := List.map_eq_nil_iff.1 hrest
  obtain ⟨result, heval, hresult⟩ := Unop.eval_of_ty hx
  obtain ⟨hcell, htype⟩ := eval_intOf hop heval
  refine ⟨.ok result, fun state => ?_, fun value hvalue => ?_, .computes ?_⟩
  · show (op.eval x).map _ = _
    rw [heval]
    rfl
  · rw [← Except.ok.inj hvalue]
    exact hresult
  · show ComputesNext stash float _ translator' [(input, x.cell)] op.output (.ok result.cell)
    rw [hcell]
    cases input with
    | register input =>
      obtain ⟨⟨reg, pushed⟩, hdynamic, h⟩ := bind_eq_ok.1 h
      refine computes_pushFueledInstr h (.of_push hdynamic) rfl (fun _ _ h => by cases h) ?_
      intro f _ hoperands
      have hinput : f input = some x.cell := hoperands (.register input, x.cell) List.mem_cons_self
      show (f input).map _ = _
      rw [hinput]
      rfl
    | const constant =>
      obtain ⟨pushed, hpush, h⟩ := bind_eq_ok.1 h
      obtain rfl := Except.ok.inj h
      obtain ⟨-, hvalue⟩ := hdenotes (.const constant, x) List.mem_cons_self constant rfl
      refine computes_pushConst hpush htype fun _ _ => ?_
      rw [← hvalue]
      rfl

/-- The others leave the cell as it is. -/
lemma visitUnop_cast (stash : MultiStash σ) (hop : intOf op = none) :
    ∃ consteval : TypedVal → TypedVal,
      (∀ translator : FuncTranslator σ, translator.visitUnop stash op =
        translator.translateReinterpret stash consteval) ∧
      ∀ {value result : Value}, op.eval value = some result → result.cell = value.cell ∧
        ∀ constant, constant.value = value.cell →
          (consteval constant).ty = op.output ∧ (consteval constant).value = value.cell := by
  cases op <;> cases hop
  all_goals
    refine ⟨_, fun translator => rfl, fun {value result} heval => ?_⟩
    cases value <;> cases heval
    refine ⟨rfl, fun constant hvalue => ⟨rfl, ?_⟩⟩
    simp [TypedVal.reinterpret, TypedVal.ofI64, hvalue, Value.cell]

/-- The register stays on the stack, with the type of the result. -/
lemma translates_cast {input : Reg} (hcast : ∀ {value result : Value},
      op.eval value = some result → result.cell = value.cell)
    (hpeek : translator.stack.peek = .ok (.register input)) :
    block.Translates translator translator (.unop op) (op.input :: types)
      (op.output :: types) := by
  have htyped' : translator.stack.Typed (op.input :: types) →
      translator.stack.Typed (op.output :: types) := by
    intro htyped
    obtain ⟨rest, top, hproviders, -, hrest⟩ := htyped.top
    have htop : top.toTyped = .register input := by
      rw [ValueStack.peek, ProviderStack.peek, hproviders, List.getLast?_append] at hpeek
      exact Except.ok.inj hpeek
    refine ⟨htyped.wellFormed, ?_⟩
    rw [hproviders, List.reverse_concat]
    exact .cons (htop ▸ ValueStack.hasType_register) hrest
  refine ⟨fun htyped => ⟨.refl _, fun _ => htyped' htyped⟩, fun {outcome} htracks _ => ?_⟩
  obtain ⟨chunks, hchunks, hagrees⟩ := htracks.agrees
  cases hagrees with
  | @error trapCode effects_eq held =>
    exact ⟨_, rfl, .tracks (.of_nil htracks.reachable htracks.fits htracks.lenLocals
      (htyped' htracks.typed) htracks.laid hchunks (.error effects_eq held))⟩
  | @ok f state effects_eq consts represents typed held =>
    obtain ⟨locals, values⟩ := state
    obtain ⟨value, rest, rfl, hty, hrest⟩ := map_eq_cons typed.stack
    obtain ⟨result, heval, hresult⟩ := Unop.eval_of_ty hty
    refine ⟨.ok ⟨locals, result :: rest⟩, congrArg (Option.map _) heval, .tracks
      (.of_nil htracks.reachable htracks.fits htracks.lenLocals (htyped' htracks.typed)
        htracks.laid hchunks (.ok effects_eq consts ⟨represents.locals, ?_⟩ ⟨typed.locals, ?_⟩
          held))⟩
    · obtain ⟨entry, entries, hentry, hentries, heq⟩ :=
        List.forall₂_cons_right_iff.1 represents.entries
      rw [heq]
      refine .cons ?_ hentries
      rw [hcast heval]
      exact hentry
    · rw [List.map_cons, hresult, hrest]

lemma translates_unop (hlawful : stash.Lawful block.slots)
    (hreachable : translator.reachable = true)
    (h : translator.visitUnop stash op = .ok translator') :
    block.Translates translator translator' (.unop op) (op.input :: types)
      (op.output :: types) := by
  cases hop : intOf op with
  | some int => exact (operates_unop hop hreachable h).translates hlawful
  | none =>
    obtain ⟨consteval, hvisit, hcast⟩ := visitUnop_cast stash hop
    rw [hvisit, FuncTranslator.translateReinterpret, if_pos hreachable] at h
    obtain ⟨input, hpeek, h⟩ := bind_eq_ok.1 h
    cases input with
    | register input =>
      obtain rfl := Except.ok.inj h
      exact translates_cast (fun heval => (hcast heval).1) hpeek
    | const constant =>
      obtain ⟨⟨provider, stack⟩, hpop, h⟩ := bind_eq_ok.1 h
      cases provider with
      | register reg => cases h
      | const constant =>
        obtain ⟨pushed, hpush, h⟩ := bind_eq_ok.1 h
        obtain rfl := Except.ok.inj h
        have hoperates : Operates stash block.float translator (translator.withStack pushed)
            (.unop op) [op.input] op.output := by
          refine ⟨_, stack, popN_one hpop, fun values hvalues hdenotes => ?_⟩
          obtain ⟨x, rest, rfl, hx, hrest⟩ := map_eq_cons hvalues
          obtain rfl := List.map_eq_nil_iff.1 hrest
          obtain ⟨result, heval, hresult⟩ := Unop.eval_of_ty hx
          obtain ⟨-, hvalue⟩ := hdenotes (.const constant, x) List.mem_cons_self constant rfl
          obtain ⟨hcell, hconst⟩ := hcast heval
          obtain ⟨hty, hconsteval⟩ := hconst constant hvalue
          refine ⟨.ok result, fun state => ?_, fun value hvalue => ?_, .computes ?_⟩
          · show (op.eval x).map _ = _
            rw [heval]
            rfl
          · rw [← Except.ok.inj hvalue]
            exact hresult
          · refine computes_pushConst hpush hty fun _ _ => ?_
            show Except.ok result.cell = _
            rw [hconsteval, hcell]
        exact hoperates.translates hlawful

end Unary

/-! ### Comparisons with zero -/

section Eqz

variable {stash : MultiStash σ} {float : FloatOps} {block : Block σ}
  {translator translator' : FuncTranslator σ} {stack : ValueStack σ} {encoder : InstrEncoder}
  {types : List ValType} {T : IntType} {op fused : Op} {params : List Op}
  {words : List Instruction} {init : List (List Instruction)} {instrOffset : Nat} {reg : Reg}
  {f f₀ : RegFile} {computed : Except TrapCode UntypedVal} {outcome : Except TrapCode State}

/-- A comparison with the constant. -/
lemma exec_eqz (T : IntType) (state : State) :
    (Operator.relop T .eq).exec (state.push (.ofInt T 0)) = (Operator.eqz T).exec state := by
  obtain ⟨locals, stack⟩ := state
  cases stack with
  | nil => rfl
  | cons value stack =>
    show (value.toInt T).bind _ = (value.toInt T).map _
    rw [Value.toInt_ofInt]
    cases value.toInt T <;> rfl

lemma translates_compareZero
    (hpush : translator.stack.pushConst (Value.ofInt T 0).typed = .ok stack)
    (h : block.Translates (translator.withStack stack) translator' (.relop T .eq)
      (T.valType :: T.valType :: types) (.i32 :: types)) :
    block.Translates translator translator' (.eqz T) (T.valType :: types) (.i32 :: types) := by
  have hpushes := ValueStack.pushes_const hpush
  have hty : (Value.ofInt T 0).ty = T.valType := Value.ty_ofInt _
  have hpushed : translator.stack.Typed (T.valType :: types) →
      stack.Typed (T.valType :: T.valType :: types) := by
    refine fun htyped => htyped.push hpushes fun constant heq => ?_
    rw [← Provider.const.inj heq]
    exact hty
  refine ⟨fun htyped => ?_, fun {outcome} htracks hfits => ?_⟩
  · obtain ⟨hgrows, htyped'⟩ := h.grows (hpushed htyped)
    exact ⟨hpushes.grows.trans hgrows, htyped'⟩
  · have hfits' := hfits.of_grows (h.grows (hpushed htracks.typed)).1
    have htracks' : block.Tracks (translator.withStack stack) []
        ((Value.ofInt T 0).ty :: T.valType :: types)
        (outcome.map fun state => state.push (.ofInt T 0)) :=
      htracks.pushConst hpush rfl rfl hfits'
    rw [hty] at htracks'
    obtain ⟨outcome', hresume, hfollows⟩ := h.follows htracks' hfits
    refine ⟨outcome', ?_, hfollows⟩
    rw [← hresume]
    cases outcome with
    | ok state => exact (exec_eqz T state).symm
    | error trapCode => rfl

/-- The fused instruction computes `i32.eqz` of the value of the other one, which does not trap. -/
lemma computeWith_fuseEqz (hfused : InstrEncoder.fuseEqzOp op = some fused)
    (h : op.computeWith float f params = some computed) :
    params = [] ∧ ∃ x, computed = .ok x ∧
      fused.compute float f = some (.ok (.ofBool (decide (x.toI32 = 0)))) := by
  unfold InstrEncoder.fuseEqzOp at hfused
  split at hfused
  case h_1 arith result lhs rhs =>
    obtain ⟨fusedArith, harith, rfl⟩ := Option.map_eq_some_iff.1 hfused
    obtain - | ⟨param, params⟩ := params
    · obtain ⟨a, ha, h⟩ := Option.bind_eq_some_iff.1 h
      obtain ⟨b, hb, rfl⟩ := Option.map_eq_some_iff.1 h
      refine ⟨rfl, _, rfl, ?_⟩
      show (f lhs).bind _ = _
      rw [ha, Option.bind_some, hb, Option.map_some]
      exact congrArg (some ∘ Except.ok) (fuseEqz_eval harith a b)
    · cases params <;> cases h
  case h_2 arith result lhs rhs =>
    obtain ⟨fusedArith, harith, rfl⟩ := Option.map_eq_some_iff.1 hfused
    have hty : fusedArith.immType = arith.immType := by
      cases arith <;> cases harith <;> rfl
    obtain - | ⟨param, params⟩ := params
    · obtain ⟨a, ha, rfl⟩ := Option.map_eq_some_iff.1 h
      refine ⟨rfl, _, rfl, ?_⟩
      show (f lhs).map _ = _
      rw [ha, Option.map_some]
      show some (Except.ok (fusedArith.eval a (rhs.toUntyped fusedArith.immType))) = _
      rw [hty, fuseEqz_eval harith]
      rfl
    · cases params <;> cases h
  case h_3 => cases hfused

lemma resultReg_fuseEqz (hfused : InstrEncoder.fuseEqzOp op = some fused)
    (hresult : op.resultReg = some reg) : fused.resultReg = some reg := by
  unfold InstrEncoder.fuseEqzOp at hfused
  split at hfused
  case h_1 | h_2 =>
    obtain ⟨fusedArith, -, rfl⟩ := Option.map_eq_some_iff.1 hfused
    exact hresult
  case h_3 => cases hfused

/-- The value in the register is replaced by what `i32.eqz` makes of it. -/
lemma effects_fuseEqz (hfused : InstrEncoder.fuseEqzOp op = some fused)
    (hresult : op.resultReg = some reg) (hresult' : fused.resultReg = some reg) :
    (∀ f, effects float f₀ (init ++ [⟨instrOffset, op⟩ :: words]) = some (.ok f) →
      ∃ x, f reg = some x ∧ effects float f₀ (init ++ [⟨instrOffset, fused⟩ :: words]) =
        some (.ok (Function.update f reg (some (.ofBool (decide (x.toI32 = 0))))))) ∧
    ∀ trapCode, effects float f₀ (init ++ [⟨instrOffset, op⟩ :: words]) = some (.error trapCode) →
      effects float f₀ (init ++ [⟨instrOffset, fused⟩ :: words]) = some (.error trapCode) := by
  have hlast : ∀ f₁ outcome, effects float f₁ [⟨instrOffset, op⟩ :: words] = some outcome →
      ∃ x, outcome = .ok (Function.update f₁ reg (some x)) ∧
        effects float f₁ [⟨instrOffset, fused⟩ :: words] =
          some (.ok (Function.update f₁ reg (some (.ofBool (decide (x.toI32 = 0)))))) := by
    intro f₁ outcome h
    have heffect : effect float f₁ (⟨instrOffset, op⟩ :: words) = some outcome := by
      obtain ⟨f₂, hword, hend⟩ | ⟨trapCode, hword, rfl⟩ := effects_cons_cases h
      · rw [hword, ← Option.some.inj hend]
      · exact hword
    have hresult : (Instruction.mk instrOffset op).op.resultReg = some reg := hresult
    have hresult' : (Instruction.mk instrOffset fused).op.resultReg = some reg := hresult'
    obtain ⟨hthere, computed, hcompute, rfl⟩ := effect_computed hresult heffect
    obtain ⟨hwords, x, rfl, hvalue⟩ := computeWith_fuseEqz hfused hcompute
    obtain rfl := List.map_eq_nil_iff.1 hwords
    exact ⟨x, rfl, effects_cons_ok (effect_compute hresult' hthere hvalue)⟩
  refine ⟨fun f h => ?_, fun trapCode h => ?_⟩
  · obtain ⟨_, -, hcases⟩ | ⟨f₁, hinit, h⟩ := effects_append_cases h
    · cases hcases
    obtain ⟨x, heq, hfuse⟩ := hlast f₁ _ h
    obtain rfl := Except.ok.inj heq
    refine ⟨x, Function.update_self _ _ _, ?_⟩
    rw [effects_append_ok hinit, hfuse, Function.update_idem]
  · obtain ⟨_, hinit, hcases⟩ | ⟨f₁, hinit, h⟩ := effects_append_cases h
    · rw [Except.error.inj hcases]
      exact effects_append_error hinit
    · obtain ⟨x, heq, -⟩ := hlast f₁ _ h
      cases heq

/-- The register on top of the stack, which is no local, is that of no other entry. -/
lemma Tracks.top_alone {rest : List TaggedProvider} {top : TaggedProvider}
    (h : block.Tracks translator [] types outcome)
    (hproviders : translator.stack.providers.providers = rest ++ [top])
    (htop : top.toTyped = .register reg)
    (hspace : translator.stack.regAlloc.registerSpace reg ≠ .local)
    (hlt : reg.toInt < block.top) :
    (translator.stack.regAlloc.lenLocals.toNat : Int) ≤ reg.toInt ∧
      ∀ entry ∈ rest, entry.toTyped ≠ .register reg := by
  have hmem : top ∈ translator.stack.providers.providers := by
    rw [hproviders]
    exact List.mem_append_right _ List.mem_cons_self
  have hmin := h.fits.min
  have hapart := block.apart
  obtain ⟨-, hpos, hlocal⟩ | ⟨rfl, hle, -⟩ | ⟨-, hpreserved⟩ := h.laid.entry_cases hmem htop
  · exact absurd (h.laid.space_local hpos hlocal) hspace
  swap
  · omega
  refine ⟨hle, fun entry hentry hreg => ?_⟩
  have hmem' : entry ∈ translator.stack.providers.providers := by
    rw [hproviders]
    exact List.mem_append_left _ hentry
  obtain ⟨-, -, hlocal⟩ | ⟨rfl, -, -⟩ | ⟨-, hpreserved⟩ := h.laid.entry_cases hmem' hreg
  · omega
  · -- an earlier dynamic entry has a smaller register
    obtain ⟨before, after, rfl⟩ := List.append_of_mem hentry
    have hearlier := h.laid.aligned before reg (after ++ [.dynamic reg]) (by simp [hproviders])
    have hplace := h.laid.aligned _ reg [] hproviders
    rw [List.countP_append, List.countP_cons_of_pos rfl] at hplace
    omega
  · omega

/-- The value of the entry on top. -/
lemma represents_top {stack : ValueStack σ} {rest : List TaggedProvider} {top : TaggedProvider}
    {locals values : List Value} {value : Value}
    (h : stack.Represents f ⟨locals, value :: values⟩)
    (hproviders : stack.providers.providers = rest ++ [top])
    (htop : top.toTyped = .register reg) : f reg = some value.cell := by
  have hentries := h.entries
  rw [hproviders, List.reverse_concat] at hentries
  obtain ⟨hvalue, -⟩ := List.forall₂_cons.1 hentries
  rw [htop] at hvalue
  exact hvalue

/-- Another value on top, where no local and no other entry has its register. -/
lemma represents_replaceTop {stack : ValueStack σ} {rest : List TaggedProvider}
    {top : TaggedProvider} {locals values : List Value} {value value' : Value}
    (h : stack.Represents f ⟨locals, value :: values⟩)
    (hproviders : stack.providers.providers = rest ++ [top])
    (htop : top.toTyped = .register reg) (halone : ∀ entry ∈ rest, entry.toTyped ≠ .register reg)
    (hlocals : ∀ i < locals.length, Int16.ofNat i ≠ reg) :
    stack.Represents (Function.update f reg (some value'.cell)) ⟨locals, value' :: values⟩ := by
  have hentries := h.entries
  rw [hproviders, List.reverse_concat] at hentries
  obtain ⟨-, hrest⟩ := List.forall₂_cons.1 hentries
  have hbelow : ValueStack.Represents
      { stack with providers := { stack.providers with providers := rest } } f ⟨locals, values⟩ :=
    ⟨h.locals, hrest⟩
  refine ValueStack.Represents.concat (hbelow.of_agree (fun i hi => ?_) fun entry hentry r hr => ?_)
    hproviders ?_
  · exact Function.update_of_ne (hlocals i hi) _ _
  · refine Function.update_of_ne (fun heq => halone entry hentry ?_) _ _
    rw [hr, heq]
  · rw [htop]
    exact Function.update_self _ _ _

/-- What the encoder does where it fuses. -/
lemma fuseI32Eqz_cases {enc : InstrEncoder} {space : Reg → RegisterSpace} {input : TypedProvider}
    (h : enc.fuseI32Eqz space input = .ok (some encoder)) :
    ∃ k instrOffset op reg fused, enc.lastInstr = some k ∧
      enc.instrs[k]? = some ⟨instrOffset, op⟩ ∧ input = .register reg ∧
      InstrEncoder.fuseEqzOp op = some fused ∧ op.resultReg = some reg ∧ space reg ≠ .local ∧
      encoder = { enc with instrs := enc.instrs.set k ⟨instrOffset, fused⟩ } := by
  obtain ⟨k, ⟨instrOffset, op⟩, -, hlast, hword, -⟩ := fuseI32Eqz_replaces h
  cases input with
  | const value => cases h
  | register reg =>
    obtain ⟨fused, hfused, hresult, hspace, henc⟩ := fuseI32Eqz_ok h hlast hword
    exact ⟨k, instrOffset, op, reg, fused, hlast, hword, rfl, hfused, hresult, hspace, henc⟩

lemma translates_fuseEqz {input : TypedProvider} (hpeek : translator.stack.peek = .ok input)
    (h : translator.encoder.fuseI32Eqz translator.stack.regAlloc.registerSpace input =
      .ok (some encoder)) :
    block.Translates translator { translator with encoder } (.eqz .i32) (.i32 :: types)
      (.i32 :: types) := by
  refine ⟨fun htyped => ⟨.refl _, fun _ => htyped⟩, fun {outcome} htracks _ => ?_⟩
  obtain ⟨k, instrOffset, op, reg, fused, hlast, hword, rfl, hfused, hresult, hspace, henc⟩ :=
    fuseI32Eqz_cases h
  obtain ⟨rest, top, hproviders, -, -⟩ := htracks.typed.top
  have htop : top.toTyped = .register reg := by
    rw [ValueStack.peek, ProviderStack.peek, hproviders, List.getLast?_append] at hpeek
    exact Except.ok.inj hpeek
  obtain ⟨chunks, hchunks, hagrees⟩ := htracks.agrees
  have hopen : ¬ op.Sealed := fun hsealed => by
    rw [hsealed.1] at hresult
    cases hresult
  obtain ⟨init, words, rfl, rfl, -⟩ := hchunks.last_eq hlast hword hopen
  have hresult' : (Instruction.mk instrOffset fused).op.resultReg = some reg :=
    resultReg_fuseEqz hfused hresult
  have hlt : reg.toInt < block.top := by
    have hbelow := hchunks.below _ (List.mem_append_right _ List.mem_cons_self)
    refine (hbelow reg hresult).resolve_left ?_
    rintro ⟨value, rfl⟩
    cases hfused
  obtain ⟨hle, halone⟩ := htracks.top_alone hproviders htop hspace hlt
  have hnew := hchunks.setLast rfl (not_consumeFuel hresult') (resultBelow_of_lt hresult' hlt)
  rw [← henc] at hnew
  obtain ⟨hok, herror⟩ := effects_fuseEqz hfused hresult hresult'
  cases hagrees with
  | error effects_eq held =>
    exact ⟨_, rfl, .tracks (.of_nil htracks.reachable htracks.fits htracks.lenLocals htracks.typed
      htracks.laid hnew (.error (herror _ effects_eq) held))⟩
  | @ok f state effects_eq consts represents typed held =>
    obtain ⟨locals, values⟩ := state
    obtain ⟨value, values, rfl, hty, hvalues⟩ := map_eq_cons typed.stack
    obtain ⟨bits, rfl⟩ : ∃ bits : BitVec 32, value = .i32 bits := Value.eq_ofInt (T := .i32) hty
    obtain ⟨x, hx, heffects⟩ := hok f effects_eq
    have hcell : x = (Value.i32 bits).cell := by
      have hvalue := represents_top represents hproviders htop
      exact Option.some.inj (hx.symm.trans hvalue)
    have hbool : UntypedVal.ofBool (decide (x.toI32 = 0)) =
        (Value.ofBool (IntRelop.eq.eval bits 0)).cell := by
      rw [hcell, Value.cell_ofBool]
      show UntypedVal.ofBool (decide ((UntypedVal.ofI32 bits).toI32 = 0)) = _
      rw [toI32_ofI32]
      rfl
    rw [hbool] at heffects
    refine ⟨_, rfl, .tracks (.of_nil htracks.reachable htracks.fits htracks.lenLocals htracks.typed
      htracks.laid hnew (.ok heffects (consts.update (by omega) _) ?_ ⟨typed.locals, ?_⟩
        (by simp [cells])))⟩
    · refine represents_replaceTop represents hproviders htop halone fun i hi heq => ?_
      rw [← List.length_map (f := Value.ty), typed.locals] at hi
      have hint := toInt_local htracks hi
      have hlen := htracks.lenLocals
      rw [heq] at hint
      omega
    · show (Value.ofBool _).ty :: values.map Value.ty = _
      rw [hvalues]
      rfl

lemma translates_eqz (hlawful : stash.Lawful block.slots)
    (hreachable : translator.reachable = true)
    (h : translator.visitEqz stash T = .ok translator') :
    block.Translates translator translator' (.eqz T) (T.valType :: types) (.i32 :: types) := by
  have hcompare : ∀ {stack}, translator.stack.pushConst (Value.ofInt T 0).typed = .ok stack →
      (translator.withStack stack).visitRelop stash T .eq = .ok translator' →
      block.Translates translator translator' (.eqz T) (T.valType :: types) (.i32 :: types) := by
    intro stack hpush h
    have hreachable' : (translator.withStack stack).reachable = true := hreachable
    exact translates_compareZero hpush ((operates_relop hreachable' h).translates hlawful)
  cases T with
  | i32 =>
    have h : translator.visitI32Eqz stash = .ok translator' := h
    rw [FuncTranslator.visitI32Eqz, if_pos hreachable] at h
    obtain ⟨input, hpeek, h⟩ := bind_eq_ok.1 h
    obtain ⟨fused, hfuse, h⟩ := bind_eq_ok.1 h
    cases fused with
    | some encoder =>
      obtain rfl := Except.ok.inj h
      exact translates_fuseEqz hpeek hfuse
    | none =>
      obtain ⟨stack, hpush, h⟩ := bind_eq_ok.1 h
      exact hcompare hpush h
  | i64 =>
    have h : translator.visitI64Eqz stash = .ok translator' := h
    rw [FuncTranslator.visitI64Eqz, if_pos hreachable] at h
    obtain ⟨stack, hpush, h⟩ := bind_eq_ok.1 h
    exact hcompare hpush h

end Eqz

end Block

end MotokoDebugger.Translator
