import MotokoDebugger.Translator.ExactVisitors

/-!
# Exact selections

The code that is emitted for `select` yields the operand that the condition selects, in every
encoding: for constant conditions, equal operands, and immediates of each type.

* `Reads`: an operand of an instruction word has the value of an operand of the stack.
* `computes_translateSelect`: the code by kinds of operands.
* `select_exact`: the visitors.
-/

namespace MotokoDebugger.Translator

open Fallible Executor FuncTranslator
open Runs (Steps)

variable {σ : Type}

/-! ## Operands -/

/-- The value of an operand of an instruction word. -/
def Provider.valueWith (ofImm : AnyConst32 → UntypedVal) (f : Reg → Option UntypedVal) :
    Provider AnyConst32 → Option UntypedVal
  | .register reg => f reg
  | .const imm => some (ofImm imm)

/-- Where the constants are in their registers, the word's operand has the value of the stack's. -/
def Reads (consts : FuncLocalConsts) (ofImm : AnyConst32 → UntypedVal) (provider : TypedProvider)
    (operand : Provider AnyConst32) : Prop :=
  ∀ (f : RegFile) (x : UntypedVal),
    (∀ reg value, consts.get reg = some value → f reg = some value) →
    provider.valueIn f = some x → operand.valueWith ofImm f = some x

section Operands

variable {float : FloatOps} {stack stack' : ValueStack σ} {provider : TypedProvider}
  {consts consts' : FuncLocalConsts} {ofImm : AnyConst32 → UntypedVal}
  {operand : Provider AnyConst32}

lemma Reads.mono (h : Reads consts ofImm provider operand) (hext : consts.Extends consts') :
    Reads consts' ofImm provider operand :=
  fun f x hin => h f x fun reg value hget => hin reg value (hext reg value hget)

lemma provider2reg_ok (ofImm : AnyConst32 → UntypedVal) {reg : Reg}
    (h : stack.provider2reg provider = .ok (reg, stack')) :
    stack' = { stack with consts := stack'.consts } ∧ stack.consts.Extends stack'.consts ∧
      Reads stack'.consts ofImm provider (.register reg) := by
  cases provider with
  | register value =>
    obtain ⟨rfl, rfl⟩ := Prod.mk.inj (Except.ok.inj h)
    exact ⟨rfl, .refl _, fun _ _ _ hvalue => hvalue⟩
  | const value =>
    obtain ⟨hstack, hext, hget⟩ := allocConst_extends h
    refine ⟨hstack, hext, fun f x hin hvalue => ?_⟩
    rw [← Option.some.inj hvalue]
    exact hin reg value.value hget

lemma provider32_ok {const32 : UntypedVal → Option AnyConst32}
    (hconst32 : ∀ {value imm}, const32 value = some imm → ofImm imm = value)
    (h : provider32 const32 stack provider = .ok (operand, stack')) :
    stack' = { stack with consts := stack'.consts } ∧ stack.consts.Extends stack'.consts ∧
      Reads stack'.consts ofImm provider operand := by
  cases provider with
  | register reg =>
    obtain ⟨rfl, rfl⟩ := Prod.mk.inj (Except.ok.inj h)
    exact ⟨rfl, .refl _, fun _ _ _ hvalue => hvalue⟩
  | const value =>
    unfold provider32 at h
    dsimp only at h
    split at h
    case h_1 imm himm =>
      obtain ⟨rfl, rfl⟩ := Prod.mk.inj (Except.ok.inj h)
      refine ⟨rfl, .refl _, fun f x _ hvalue => ?_⟩
      rw [← hvalue]
      exact congrArg some (hconst32 himm)
    case h_2 =>
      obtain ⟨⟨reg, stack₁⟩, halloc, h⟩ := bind_eq_ok.1 h
      obtain ⟨rfl, rfl⟩ := Prod.mk.inj (Except.ok.inj h)
      exact @provider2reg_ok σ stack _ (.const value) ofImm _ halloc

/-- A constant of 32 bits is an immediate of the word. -/
lemma reads_const32 {value : TypedVal} (h : value.ty = .i32 ∨ value.ty = .f32) :
    Reads consts .ofI32 (.const value) (.const value.value.toI32) := by
  intro f x _ hvalue
  rw [← hvalue]
  exact congrArg some (value.upper h).symm

lemma reads_register {reg : Reg} : Reads consts ofImm (.register reg) (.register reg) :=
  fun _ _ _ hvalue => hvalue

end Operands

/-! ## The two words -/

section Words

variable {stash : MultiStash σ} {float : FloatOps} {translator translator' : FuncTranslator σ}
  {stack : ValueStack σ} {ty : ValType} {result condition : Reg}
  {lhs rhs : TypedProvider} {x y c : UntypedVal}

/-- The two words select between the operands. -/
structure SelectWords (float : FloatOps) (result condition : Reg)
    (ofImm : AnyConst32 → UntypedVal) (left right : Provider AnyConst32) (instr param : Op) :
    Prop where
  result_eq : instr.resultReg = some result
  not_copy : ∀ reg value, instr ≠ .copy reg value
  plain : ∀ blockFuel, param ≠ .consumeFuel blockFuel
  computes : ∀ f : RegFile, instr.computeSelect float f param =
    Op.selected f condition (left.valueWith ofImm f) (right.valueWith ofImm f)

lemma computes_pushSelect {ofImm : AnyConst32 → UntypedVal} {left right : Provider AnyConst32}
    {instr param : Op} (h : (translator.withStack stack).pushSelect instr param = .ok translator')
    (hwords : SelectWords float result condition ofImm left right instr param)
    (hpush : PushesDynamic translator.stack result stack)
    (hleft : Reads stack.consts ofImm lhs left) (hright : Reads stack.consts ofImm rhs right) :
    ComputesNext stash float translator translator'
      [(lhs, x), (rhs, y), (.register condition, c)] ty (.ok (if c.toBool then x else y)) := by
  obtain ⟨first, hword, h⟩ := bind_eq_ok.1 h
  obtain ⟨hfirst, hstack, hreachable⟩ := pushFueledInstr_ok hword
  have hlast := pushFueledInstr_last hword (not_consumeFuel hwords.result_eq)
  obtain ⟨hemitted, hstack'⟩ := appendInstr_emitted hfirst h
  have hsame : translator'.stack = stack := hstack'.trans hstack
  have hkept : translator'.encoder.lastInstr = first.encoder.lastInstr ∧
      translator'.reachable = first.reachable := by
    obtain ⟨⟨next, encoder⟩, happend, h⟩ := bind_eq_ok.1 h
    obtain ⟨rfl, -⟩ := appendInstr_ok happend
    rw [← Except.ok.inj h]
    exact ⟨rfl, rfl⟩
  have hplain : ∀ word ∈ [instr, param], ∀ blockFuel, word ≠ .consumeFuel blockFuel := by
    rw [List.forall_mem_cons, List.forall_mem_singleton]
    exact ⟨not_consumeFuel hwords.result_eq, hwords.plain⟩
  refine .executed ⟨hemitted.of_stack, hkept.1.trans hlast.lastInstr, hplain⟩ (hsame ▸ hpush)
    (hkept.2.trans hreachable) hwords.result_eq hwords.not_copy ?_
  rw [hsame]
  intro f hin hoperands
  have hx := hleft f x hin (hoperands (lhs, x) (by simp))
  have hy := hright f y hin (hoperands (rhs, y) (by simp))
  have hc : f condition = some c := hoperands (.register condition, c) (by simp)
  show instr.computeSelect float f param = _
  rw [hwords.computes, hx, hy, Op.selected, hc]
  cases hselect : c.toBool with
  | true => simp [hselect]
  | false => simp [hselect]

end Words

/-! ## The types of selections -/

section Types

variable {stash : MultiStash σ} {float : FloatOps} {translator translator' : FuncTranslator σ}
  {stack : ValueStack σ} {ty : ValType} {result condition : Reg} {lhs rhs : TypedProvider}
  {x y c : UntypedVal}

lemma selectWords_regs {ofImm : AnyConst32 → UntypedVal} {lhs rhs : Reg} :
    SelectWords float result condition ofImm (.register lhs) (.register rhs) (.select result lhs)
      (.register2 condition rhs) :=
  ⟨rfl, fun _ _ h => by simp at h, fun _ h => by simp at h, fun _ => rfl⟩

lemma computes_translateSelectRegs (ofImm : AnyConst32 → UntypedVal) {left right : Reg}
    (h : (translator.withStack stack).translateSelectRegs result condition left right =
      .ok translator')
    (hpush : PushesDynamic translator.stack result stack)
    (hleft : Reads stack.consts ofImm lhs (.register left))
    (hright : Reads stack.consts ofImm rhs (.register right)) :
    ComputesNext stash float translator translator'
      [(lhs, x), (rhs, y), (.register condition, c)] ty (.ok (if c.toBool then x else y)) :=
  computes_pushSelect h selectWords_regs hpush hleft hright

/-- The instructions of one type with immediates. -/
structure SelectInstrs (float : FloatOps) (ofImm : AnyConst32 → UntypedVal)
    (makeRhs : Reg → Reg → Op) (makeLhs makeBoth : Reg → AnyConst32 → Op) : Prop where
  rhs : ∀ {result condition lhs rhs}, SelectWords float result condition ofImm (.register lhs)
    (.const rhs) (makeRhs result lhs) (.registerAndImm32 condition rhs)
  lhs : ∀ {result condition lhs rhs}, SelectWords float result condition ofImm (.const lhs)
    (.register rhs) (makeLhs result lhs) (.register2 condition rhs)
  both : ∀ {result condition lhs rhs}, SelectWords float result condition ofImm (.const lhs)
    (.const rhs) (makeBoth result lhs) (.registerAndImm32 condition rhs)

lemma selectInstrs_32 : SelectInstrs float .ofI32 Op.selectImm32Rhs Op.selectImm32Lhs
    Op.selectImm32 where
  rhs := ⟨rfl, fun _ _ h => by simp at h, fun _ h => by simp at h, fun _ => rfl⟩
  lhs := ⟨rfl, fun _ _ h => by simp at h, fun _ h => by simp at h, fun _ => rfl⟩
  both := ⟨rfl, fun _ _ h => by simp at h, fun _ h => by simp at h, fun _ => rfl⟩

lemma selectInstrs_i64 : SelectInstrs float AnyConst32.toI64 Op.selectI64Imm32Rhs
    Op.selectI64Imm32Lhs Op.selectI64Imm32 where
  rhs := ⟨rfl, fun _ _ h => by simp at h, fun _ h => by simp at h, fun _ => rfl⟩
  lhs := ⟨rfl, fun _ _ h => by simp at h, fun _ h => by simp at h, fun _ => rfl⟩
  both := ⟨rfl, fun _ _ h => by simp at h, fun _ h => by simp at h, fun _ => rfl⟩

lemma selectInstrs_f64 : SelectInstrs float float.f64OfConst32 Op.selectF64Imm32Rhs
    Op.selectF64Imm32Lhs Op.selectF64Imm32 where
  rhs := ⟨rfl, fun _ _ h => by simp at h, fun _ h => by simp at h, fun _ => rfl⟩
  lhs := ⟨rfl, fun _ _ h => by simp at h, fun _ h => by simp at h, fun _ => rfl⟩
  both := ⟨rfl, fun _ _ h => by simp at h, fun _ h => by simp at h, fun _ => rfl⟩

lemma computes_translateSelect32
    (h : (translator.withStack stack).translateSelect32 result condition lhs rhs = .ok translator')
    (hlhs : ∀ constant, lhs = .const constant → constant.ty = .i32 ∨ constant.ty = .f32)
    (hrhs : ∀ constant, rhs = .const constant → constant.ty = .i32 ∨ constant.ty = .f32)
    (hpush : PushesDynamic translator.stack result stack) :
    ComputesNext stash float translator translator'
      [(lhs, x), (rhs, y), (.register condition, c)] ty (.ok (if c.toBool then x else y)) := by
  cases lhs with
  | register l =>
    cases rhs with
    | register r => simp [translateSelect32] at h
    | const r =>
      exact computes_pushSelect h selectInstrs_32.rhs hpush reads_register
        (reads_const32 (hrhs r rfl))
  | const l =>
    cases rhs with
    | register r =>
      exact computes_pushSelect h selectInstrs_32.lhs hpush (reads_const32 (hlhs l rfl))
        reads_register
    | const r =>
      exact computes_pushSelect h selectInstrs_32.both hpush (reads_const32 (hlhs l rfl))
        (reads_const32 (hrhs r rfl))

/-- An immediate that does not fit stands in a register. -/
lemma computes_translateSelect64 {const32 : UntypedVal → Option AnyConst32}
    {ofImm : AnyConst32 → UntypedVal} {makeRhs : Reg → Reg → Op}
    {makeLhs makeBoth : Reg → AnyConst32 → Op}
    (h : (translator.withStack stack).translateSelect64 const32 makeRhs makeLhs makeBoth result
      condition lhs rhs = .ok translator')
    (hconst32 : ∀ {value imm}, const32 value = some imm → ofImm imm = value)
    (hinstrs : SelectInstrs float ofImm makeRhs makeLhs makeBoth)
    (hpush : PushesDynamic translator.stack result stack) :
    ComputesNext stash float translator translator'
      [(lhs, x), (rhs, y), (.register condition, c)] ty (.ok (if c.toBool then x else y)) := by
  obtain ⟨⟨left, stack₁⟩, hleft, h⟩ := bind_eq_ok.1 h
  obtain ⟨⟨right, stack₂⟩, hright, h⟩ := bind_eq_ok.1 h
  obtain ⟨hstack₁, hext₁, hreads₁⟩ := provider32_ok hconst32 hleft
  obtain ⟨hstack₂, hext₂, hreads₂⟩ := provider32_ok hconst32 hright
  have hpush' := (hpush.alloc hstack₁ hext₁).alloc hstack₂ hext₂
  have hreads := hreads₁.mono hext₂
  cases left with
  | register l =>
    cases right with
    | register r => exact computes_translateSelectRegs ofImm h hpush' hreads hreads₂
    | const r => exact computes_pushSelect h hinstrs.rhs hpush' hreads hreads₂
  | const l =>
    cases right with
    | register r => exact computes_pushSelect h hinstrs.lhs hpush' hreads hreads₂
    | const r => exact computes_pushSelect h hinstrs.both hpush' hreads hreads₂

lemma computes_translateSelectReftype
    (h : (translator.withStack stack).translateSelectReftype result condition lhs rhs =
      .ok translator')
    (hpush : PushesDynamic translator.stack result stack) :
    ComputesNext stash float translator translator'
      [(lhs, x), (rhs, y), (.register condition, c)] ty (.ok (if c.toBool then x else y)) := by
  obtain ⟨⟨left, stack₁⟩, hleft, h⟩ := bind_eq_ok.1 h
  obtain ⟨⟨right, stack₂⟩, hright, h⟩ := bind_eq_ok.1 h
  obtain ⟨hstack₁, hext₁, hreads₁⟩ := provider2reg_ok AnyConst32.toI64 hleft
  obtain ⟨hstack₂, hext₂, hreads₂⟩ := provider2reg_ok AnyConst32.toI64 hright
  exact computes_translateSelectRegs AnyConst32.toI64 h
    ((hpush.alloc hstack₁ hext₁).alloc hstack₂ hext₂) (hreads₁.mono hext₂) hreads₂

end Types

/-! ## All selections -/

section Select

variable {stash : MultiStash σ} {float : FloatOps} {translator translator' : FuncTranslator σ}
  {stack : ValueStack σ} {operands : List (TypedProvider × UntypedVal)} {ty : ValType}
  {lhs rhs condition provider : TypedProvider} {x y : UntypedVal} {c : BitVec 32}

/-- A copy leads to no register that was not there. -/
lemma isSome_of_copies {T : Type} {env : Engine T} {words : List Instruction} {l l₁ : Local T}
    (hwords : words = [] ∨ ∃ instrOffset result value, words = [⟨instrOffset, .copy result value⟩])
    (h : (words.forM fun instr => executeLocal env instr.op) l = .ok () l₁) {reg : Reg}
    (hreg : (l₁.read reg).isSome) : (l.read reg).isSome := by
  obtain rfl | ⟨instrOffset, result, value, rfl⟩ := hwords
  · obtain rfl : l = l₁ := (EStateM.Result.ok.inj h).2
    exact hreg
  · obtain ⟨_, l₂, hcopy, h⟩ := StateExcept.bind_eq_ok.1 h
    obtain rfl : l₂ = l₁ := (EStateM.Result.ok.inj h).2
    obtain ⟨hresult, hvalue⟩ := executeCopy_ok hcopy
    obtain ⟨v, hv⟩ := Option.isSome_iff_exists.1 hvalue
    obtain ⟨l', hset, -, hmoved⟩ := setRegister_moved v hresult
    have hget : getRegister value l = .ok v l := getRegister_eq_ok.2 ⟨hv, rfl⟩
    have hexec : executeCopy result value l = .ok () { l' with ip := l'.ip.add 1 } := by
      rw [executeCopy, StateExcept.bind_ok hget, StateExcept.bind_ok hset]
      rfl
    obtain rfl := (EStateM.Result.ok.inj (hexec.symm.trans hcopy)).2
    have hread : l'.read reg = _ := congrFun hmoved.read reg
    by_cases heq : reg = result
    · rw [heq]
      exact hresult
    · rw [Function.update_of_ne heq] at hread
      rw [← hread]
      exact hreg

/-- A copy of an operand to the register on top of the stack. -/
lemma computes_encoded {encoder : InstrEncoder} {result : Reg} {start : Nat}
    (hencodes : Encodes float translator.encoder encoder stack.consts [result] [provider] start)
    (hpush : PushesDynamic translator.stack result stack) (hmem : (provider, x) ∈ operands) :
    Computes float translator { translator with encoder, stack } operands ty (.ok x) start := by
  refine ⟨hencodes.start_le, hencodes.start_le', hencodes.unchanged, hencodes.old,
    hencodes.copyIsLast, hpush.consts, ?_⟩
  intro T env func before later pool l l₁ hfloat hcode hip hpool hin hthere hoperands hold
  have hx := hoperands (provider, x) hmem
  have hin' : ConstsIn stack.consts l := fun reg value hget =>
    hin reg value (hpool reg value hget)
  have hvalue : (provider.valueIn l.read).isSome := by
    cases provider with
    | register reg =>
      have hthere : l₁.read reg = some x := hx
      exact isSome_of_copies hencodes.old hold (by rw [hthere]; rfl)
    | const => rfl
  obtain ⟨n, l₂, hsteps, hip', hmoved⟩ := hencodes.runs env func before later l l₁ hfloat hcode hip
    hin' (by simpa using hthere result hpush.peek) (by simpa using hvalue) hold
  have hread : l₂.read = Function.update l₁.read result (some x) := by
    rw [hmoved.read, ← hx]
    rfl
  refine .value hsteps hip' hpush.peek (fun _ h => by simp at h) ?_ ?_ ?_
  · show l₂.read result = _
    rw [hread, Function.update_self]
  · rw [hmoved.read]
    exact hmoved
  · intro reg hreg
    have hne : reg ≠ result := fun h => hreg (by rw [h])
    rw [hread, Function.update_of_ne hne]

lemma computes_pushProvider (h : translator.stack.pushProvider stash provider = .ok stack)
    (hdenotes : provider.Denotes ty x) (hmem : (provider, x) ∈ operands)
    (hfirst : ∀ reg, provider = .register reg →
      translator.stack.regAlloc.registerSpace reg = .dynamic → firstRegister operands = some reg) :
    ComputesNext stash float translator (translator.withStack stack) operands ty (.ok x) :=
  .pushed (.of_provider h hfirst) rfl (fun constant hconstant => (hdenotes constant hconstant).1)
    fun _ hoperands => ⟨x, rfl, hoperands _ hmem⟩

lemma pushDynamic_eq {result : Reg} {stack' : ValueStack σ}
    (h : stack.pushDynamic = .ok (result, stack')) : result = stack.regAlloc.nextDynamic := by
  obtain ⟨⟨reg, alloc⟩, hpush, h⟩ := bind_eq_ok.1 h
  obtain ⟨pushed, -, h⟩ := bind_eq_ok.1 h
  unfold RegisterAlloc.pushDynamic at hpush
  obtain ⟨_, -, hpush⟩ := bind_eq_ok.1 hpush
  split at hpush
  case isTrue => simp at hpush
  case isFalse =>
    rw [← (Prod.mk.inj (Except.ok.inj h)).1]
    exact (Prod.mk.inj (Except.ok.inj hpush)).1.symm

lemma pop3_consts (h : translator.stack.pop3 stash = .ok (lhs, rhs, condition, stack)) :
    stack.consts = translator.stack.consts := by
  obtain ⟨⟨second, third, stack₁⟩, hpop2, h⟩ := bind_eq_ok.1 h
  obtain ⟨⟨first, stack₂⟩, hpop, h⟩ := bind_eq_ok.1 h
  simp only [Except.ok.injEq, Prod.mk.injEq, pure, Except.pure] at h
  rw [← h.2.2.2]
  exact (pop_consts hpop).trans (pop2_consts hpop2)

/-- The provider is copied to a new dynamic register. -/
structure CopiesNext (float : FloatOps) (translator translator' : FuncTranslator σ)
    (provider : TypedProvider) : Prop where
  copy : ∃ result pushed instr encoder consts,
    translator.stack.pushDynamic = .ok (result, pushed) ∧
    translator.encoder.encodeCopy float translator.visitPos pushed.consts result provider
      translator.fuelInfo = .ok (instr, encoder, consts) ∧
    translator' = { translator with encoder, stack := { pushed with consts } }

lemma CopiesNext.computes (h : CopiesNext float translator translator' provider)
    (hlast : translator.encoder.CopyIsLast) (hmem : (provider, x) ∈ operands)
    (hpos : 0 ≤ translator.stack.regAlloc.nextDynamic.toInt)
    (htop : translator.stack.regAlloc.nextDynamic.toInt ≤ 32766) :
    ∃ start, Computes float translator translator' operands ty (.ok x) start := by
  obtain ⟨result, pushed, instr, encoder, consts, hdynamic, hencode, rfl⟩ := h.copy
  have hresult : result = translator.stack.regAlloc.nextDynamic := pushDynamic_eq hdynamic
  obtain ⟨hext, start, hencodes⟩ :=
    encodeCopy_encodes hlast (hresult ▸ hpos) (hresult ▸ htop) hencode
  exact ⟨start, computes_encoded hencodes (.alloc (.of_push hdynamic) rfl hext) hmem⟩

/-- A register that may be handed out again is copied. -/
lemma pushSelected_cases
    (h : (translator.withStack stack).pushSelected stash float provider = .ok translator')
    (hdenotes : provider.Denotes ty x) (hmem : (provider, x) ∈ operands) :
    ComputesNext stash float (translator.withStack stack) translator' operands ty (.ok x) ∨
      CopiesNext float (translator.withStack stack) translator' provider := by
  cases provider with
  | const value =>
    obtain ⟨pushed, hpush, h⟩ := bind_eq_ok.1 h
    obtain rfl := Except.ok.inj h
    exact .inl (computes_pushProvider hpush hdenotes hmem fun _ h => by simp at h)
  | register reg =>
    unfold pushSelected at h
    dsimp only at h
    split at h
    case h_3 hspace | h_4 hspace =>
      obtain ⟨pushed, hpush, h⟩ := bind_eq_ok.1 h
      obtain rfl := Except.ok.inj h
      refine .inl (computes_pushProvider hpush hdenotes hmem fun reg' heq hdynamic => ?_)
      rw [← Provider.register.inj heq, hspace] at hdynamic
      cases hdynamic
    case h_1 | h_2 =>
      obtain ⟨⟨result, pushed⟩, hdynamic, h⟩ := bind_eq_ok.1 h
      obtain ⟨⟨instr, encoder, consts⟩, hencode, h⟩ := bind_eq_ok.1 h
      obtain rfl := Except.ok.inj h
      exact .inr ⟨result, pushed, instr, encoder, consts, hdynamic, hencode, rfl⟩

/-- A selection has been translated. Its operands were `lhs`, `rhs` and the condition, with the
values `x`, `y` and `c`, and left `stack`. -/
structure TranslatedSelect (stash : MultiStash σ) (translator translator' : FuncTranslator σ)
    (stack : ValueStack σ) (visited : Except Failure (FuncTranslator σ)) (ty : ValType)
    (lhs rhs condition : TypedProvider) (x y : UntypedVal) (c : BitVec 32) : Prop where
  visit : visited = .ok translator'
  reachable : translator.reachable = true
  pop3 : translator.stack.pop3 stash = .ok (lhs, rhs, condition, stack)
  lhs_denotes : lhs.Denotes ty x
  rhs_denotes : rhs.Denotes ty y
  condition_denotes : condition.Denotes .i32 (.ofInt c)

lemma toBool_ofInt (c : BitVec 32) : (UntypedVal.ofInt c).toBool = decide (c ≠ 0) := by
  have hzero : UntypedVal.ofInt c = 0 ↔ c = 0 := by
    refine ⟨fun h => UntypedVal.ofInt_inj (T := .i32) (h.trans rfl), ?_⟩
    rintro rfl
    rfl
  unfold UntypedVal.toBool
  rw [decide_eq_decide, ne_eq, hzero]

/-- Both constants have the type of the selection. -/
lemma computes_translateSelectOf {result condition : Reg} {c : UntypedVal}
    (h : (translator.withStack stack).translateSelectOf float (inferType lhs rhs) result condition
      lhs rhs = .ok translator')
    (hlhs : lhs.Denotes ty x) (hrhs : rhs.Denotes ty y)
    (hpush : PushesDynamic translator.stack result stack) :
    ComputesNext stash float translator translator'
      [(lhs, x), (rhs, y), (.register condition, c)] ty (.ok (if c.toBool then x else y)) := by
  have hinfer : inferType lhs rhs = none ∨ inferType lhs rhs = some ty := by
    cases lhs with
    | const l => exact .inr (congrArg some (hlhs l rfl).1)
    | register l =>
      cases rhs with
      | const r => exact .inr (congrArg some (hrhs r rfl).1)
      | register r => exact .inl rfl
  obtain hnone | hsome := hinfer
  · rw [hnone] at h
    cases h
  · rw [hsome] at h
    have h32 : ty = .i32 ∨ ty = .f32 → ComputesNext stash float translator translator'
        [(lhs, x), (rhs, y), (.register condition, c)] ty (.ok (if c.toBool then x else y)) := by
      intro hty
      have h' : (translator.withStack stack).translateSelect32 result condition lhs rhs =
          .ok translator' := by
        rcases hty with rfl | rfl
        · exact h
        · exact h
      refine computes_translateSelect32 h' ?_ ?_ hpush
      · exact fun constant heq => (hlhs constant heq).1 ▸ hty
      · exact fun constant heq => (hrhs constant heq).1 ▸ hty
    cases ty with
    | i32 => exact h32 (.inl rfl)
    | f32 => exact h32 (.inr rfl)
    | i64 => exact computes_translateSelect64 h ofI64_toI64 selectInstrs_i64 hpush
    | f64 => exact computes_translateSelect64 h ofF64_eq selectInstrs_f64 hpush
    | funcRef => exact computes_translateSelectReftype h hpush
    | externRef => exact computes_translateSelectReftype h hpush

lemma translateSelect_cases {typeHint : Option ValType}
    (htranslated : TranslatedSelect stash translator translator' stack
      (translator.translateSelect stash float typeHint) ty lhs rhs condition x y c) :
    ComputesNext stash float (translator.withStack stack) translator'
      [(lhs, x), (rhs, y), (condition, .ofInt c)] ty (.ok (if c ≠ 0 then x else y)) ∨
    CopiesNext float (translator.withStack stack) translator' (if c ≠ 0 then lhs else rhs) := by
  obtain ⟨h, hreachable, hpop, hlhs, hrhs, hcondition⟩ := htranslated
  unfold translateSelect at h
  rw [if_pos hreachable, hpop, ok_bind] at h
  cases condition with
  | const constant =>
    have hc : constant.value.toI32 = c := by
      rw [(hcondition constant rfl).2]
      exact UntypedVal.truncate_ofInt (T := .i32) c
    dsimp only at h
    rw [hc] at h
    by_cases hzero : c ≠ 0
    · rw [if_pos hzero] at h ⊢
      rw [if_pos hzero]
      exact pushSelected_cases h hlhs (by simp)
    · rw [if_neg hzero] at h ⊢
      rw [if_neg hzero]
      exact pushSelected_cases h hrhs (by simp)
  | register condition =>
    left
    have hexpected : (if c ≠ 0 then x else y) = if (UntypedVal.ofInt c).toBool then x else y := by
      simp only [toBool_ofInt, decide_eq_true_eq]
    dsimp only at h
    split at h
    case isTrue heq =>
      obtain ⟨pushed, hpush, h⟩ := bind_eq_ok.1 h
      obtain rfl := Except.ok.inj h
      refine .pushed (.of_provider hpush fun reg hreg _ => ?_) rfl
        (fun constant hconstant => (hlhs constant hconstant).1) fun f hoperands => ?_
      · rw [hreg]
        rfl
      have hx : TypedProvider.valueIn f lhs = some x := hoperands (lhs, x) (by simp)
      have hy : TypedProvider.valueIn f rhs = some y := hoperands (rhs, y) (by simp)
      rw [← heq, hx] at hy
      refine ⟨x, ?_, hx⟩
      rw [← Option.some.inj hy, ite_self]
    case isFalse hne =>
      rw [hexpected]
      split at h
      case h_1 l r =>
        obtain ⟨⟨result, pushed⟩, hpush, h⟩ := bind_eq_ok.1 h
        exact computes_translateSelectRegs AnyConst32.toI64 h (.of_push hpush) reads_register
          reads_register
      case h_2 =>
        split at h
        case isTrue => simp at h
        case isFalse =>
          obtain ⟨⟨result, pushed⟩, hpush, h⟩ := bind_eq_ok.1 h
          exact computes_translateSelectOf h hlhs hrhs (.of_push hpush)

lemma computes_translateSelect {typeHint : Option ValType}
    (htranslated : TranslatedSelect stash translator translator' stack
      (translator.translateSelect stash float typeHint) ty lhs rhs condition x y c)
    (hlast : translator.encoder.CopyIsLast) (hpos : 0 ≤ stack.regAlloc.nextDynamic.toInt)
    (htop : stack.regAlloc.nextDynamic.toInt ≤ 32766) :
    ∃ start, Computes float translator translator'
      [(lhs, x), (rhs, y), (condition, .ofInt c)] ty (.ok (if c ≠ 0 then x else y)) start := by
  have hconsts := pop3_consts htranslated.pop3
  obtain hnext | hcopies := translateSelect_cases htranslated
  · exact ⟨_, (hnext.computes hlast).of_stack hconsts⟩
  · have hmem : (if c ≠ 0 then lhs else rhs, if c ≠ 0 then x else y) ∈
        [(lhs, x), (rhs, y), (condition, UntypedVal.ofInt c)] := by
      by_cases hzero : c ≠ 0
      · rw [if_pos hzero, if_pos hzero]
        simp
      · rw [if_neg hzero, if_neg hzero]
        simp
    obtain ⟨start, hcomputes⟩ := hcopies.computes hlast hmem hpos htop
    exact ⟨start, hcomputes.of_stack hconsts⟩

end Select

/-- The emitted code of `select` and of `select` with a type yields the first operand where the
condition is not zero, and the second where it is, whatever is constant. -/
theorem select_exact {stash : MultiStash σ} {float : FloatOps}
    {translator translator' : FuncTranslator σ} {stack : ValueStack σ} {ty : ValType}
    {lhs rhs condition : TypedProvider} {x y : UntypedVal} {c : BitVec 32}
    (hlast : translator.encoder.CopyIsLast) (hpos : 0 ≤ stack.regAlloc.nextDynamic.toInt)
    (htop : stack.regAlloc.nextDynamic.toInt ≤ 32766) :
    (TranslatedSelect stash translator translator' stack (translator.visitSelect stash float) ty lhs
      rhs condition x y c →
      ∃ start, Computes float translator translator'
        [(lhs, x), (rhs, y), (condition, .ofInt c)] ty (.ok (if c ≠ 0 then x else y)) start) ∧
    (TranslatedSelect stash translator translator' stack
      (translator.visitTypedSelect stash float ty) ty lhs rhs condition x y c →
      ∃ start, Computes float translator translator'
        [(lhs, x), (rhs, y), (condition, .ofInt c)] ty (.ok (if c ≠ 0 then x else y)) start) :=
  ⟨fun h => computes_translateSelect h hlast hpos htop,
    fun h => computes_translateSelect h hlast hpos htop⟩

/-! ### A constant of 64 bits -/

/-- In front of a `select` between a constant that is no immediate and a local. -/
def selectTranslator : FuncTranslator (List Nat) where
  reachable := true
  fuelInfo := .none
  encoder := ⟨[], ⟨[], []⟩, none⟩
  stack := ⟨⟨[.constValue ⟨.i64, 0x10000000000, fun h => by simp at h⟩, .local 0, .local 1], 2,
    false, .reset⟩, ⟨[], [], .alloc, 2, 2, 2, 32766, 0⟩, .reset⟩
  visitPos := 9

/-- Its words. -/
def selectWords : List Instruction := [⟨9, .select 2 (-1)⟩, ⟨9, .register2 1 0⟩]

/-- A frame with that constant, the locals 7 and 1, and a register. -/
def selectLocal : Local Unit where
  cells := [0x10000000000, 7, 1, 0]
  base := 1
  ip := ⟨0, 0⟩
  cache := ⟨0, none, none⟩
  store := .ofFuncs []

/-- The pool with that constant. -/
def selectConsts : FuncLocalConsts where
  const2idx := [(0x10000000000, -1)]
  idx2const := [0x10000000000]
  nextIdx := -2
  next_eq := FuncLocalConsts.singleton_next 0x10000000000
  entries := FuncLocalConsts.singleton_entries 0x10000000000

lemma select_constsIn : ConstsIn selectConsts selectLocal := constsIn_singleton rfl rfl

/-- The engine with that code. -/
def selectEngine : Engine Unit := .ofCode [⟨selectWords, [], 4⟩] []

theorem select_exact_const : ∃ n l, Steps (LocalStep selectEngine) n selectLocal l ∧
    l.read 2 = some (0x10000000000) := by
  have htranslated : TranslatedSelect RegisterAlloc.firstVacant selectTranslator
      { selectTranslator with
        encoder := ⟨selectWords, ⟨[], []⟩, some 0⟩
        stack := ⟨⟨[.dynamic 2], 0, false, .reset⟩, ⟨[], [], .alloc, 2, 3, 3, 32766, 0⟩,
          selectConsts⟩ }
      ⟨⟨[], 0, false, .reset⟩, ⟨[], [], .alloc, 2, 2, 2, 32766, 0⟩, .reset⟩
      (selectTranslator.visitSelect RegisterAlloc.firstVacant selectEngine.float) .i64
      (.const ⟨.i64, 0x10000000000, fun h => by simp at h⟩) (.register 0) (.register 1)
      (0x10000000000) 7 1 :=
    { visit := rfl
      reachable := rfl
      pop3 := rfl
      lhs_denotes := by
        intro constant h
        rw [← Provider.const.inj h]
        exact ⟨rfl, rfl⟩
      rhs_denotes := fun _ h => by simp at h
      condition_denotes := fun _ h => by simp at h }
  have hlast : selectTranslator.encoder.CopyIsLast :=
    fun _ _ _ _ h => by simp [selectTranslator] at h
  obtain ⟨start, hcomputes⟩ := (select_exact hlast (by decide) (by decide)).1 htranslated
  obtain rfl : start = 0 := Nat.le_zero.1 hcomputes.start_le
  have hcomputed := hcomputes.runs selectEngine 0 [] [] selectConsts selectLocal selectLocal rfl rfl
    rfl (.refl _) select_constsIn
    (by
      intro result hpeek
      obtain rfl := Provider.register.inj (Except.ok.inj hpeek)
      rfl)
    (by
      rw [List.forall_mem_cons, List.forall_mem_cons, List.forall_mem_singleton]
      exact ⟨rfl, rfl, rfl⟩)
    rfl
  cases hcomputed with
  | @value n l provider value steps ip peek typed value_eq =>
    obtain rfl := Except.ok.inj peek
    exact ⟨n, l, steps, value_eq⟩

end MotokoDebugger.Translator
