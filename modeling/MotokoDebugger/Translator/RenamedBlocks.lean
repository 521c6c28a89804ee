import MotokoDebugger.Translator.BasicBlocks

/-!
# Basic blocks after defragmentation

`defrag_registers` applies a function to the inputs of the instructions, and to the results of
copies. Where it keeps apart the registers that there are, the instructions do the same as before.

* `Places`: what the function has to fulfil; `Renamed`: registers in their new places.
* `computeWith_visit`: an instruction computes the same from them.
* `effects_renamed`: instructions lead to the same registers in their new places.
-/

namespace MotokoDebugger

open Executor

/-! ## Values -/

section Values

variable {float : FloatOps} {f f' : Reg → Option UntypedVal} {op param : Op} {params : List Op}
  {lhs lhs' rhs rhs' : Option UntypedVal} {computed : Except TrapCode UntypedVal} {result : Reg}

/-- What is computed from some registers is computed with more of them. -/
lemma compute_mono (h : ∀ reg x, f reg = some x → f' reg = some x)
    (hcompute : op.compute float f = some computed) : op.compute float f' = some computed := by
  cases op with
  | copyImm32 r value | copyI64Imm32 r value | copyF64Imm32 r value => exact hcompute
  | copy r input | unary op r input | tryUnary op r input | binaryImm16 op r input imm
  | shiftBy op r input imm | divremImm16Rhs op r input imm | copysignImm op r input rhsIsPositive
  | binaryImm16Lhs op r imm input | tryBinaryImm16Lhs op r imm input =>
    obtain ⟨x, hx, hvalue⟩ := Option.map_eq_some_iff.1 hcompute
    exact Option.map_eq_some_iff.2 ⟨x, h input x hx, hvalue⟩
  | binary op r lhs rhs | tryBinary op r lhs rhs =>
    obtain ⟨x, hx, hcompute⟩ := Option.bind_eq_some_iff.1 hcompute
    obtain ⟨y, hy, hvalue⟩ := Option.map_eq_some_iff.1 hcompute
    exact Option.bind_eq_some_iff.2
      ⟨x, h lhs x hx, Option.map_eq_some_iff.2 ⟨y, h rhs y hy, hvalue⟩⟩
  | _ => cases hcompute

lemma selected_mono (h : ∀ reg x, f reg = some x → f' reg = some x) {condition : Reg}
    (hlhs : ∀ x, lhs = some x → lhs' = some x) (hrhs : ∀ x, rhs = some x → rhs' = some x)
    (hcompute : Op.selected f condition lhs rhs = some computed) :
    Op.selected f' condition lhs' rhs' = some computed := by
  obtain ⟨c, hc, hcompute⟩ := Option.bind_eq_some_iff.1 hcompute
  obtain ⟨x, hx, hvalue⟩ := Option.map_eq_some_iff.1 hcompute
  refine Option.bind_eq_some_iff.2 ⟨c, h condition c hc, Option.map_eq_some_iff.2 ⟨x, ?_, hvalue⟩⟩
  split at hx
  case isTrue htrue =>
    rw [if_pos htrue]
    exact hlhs x hx
  case isFalse hfalse =>
    rw [if_neg hfalse]
    exact hrhs x hx

lemma computeSelect_mono (h : ∀ reg x, f reg = some x → f' reg = some x)
    (hcompute : op.computeSelect float f param = some computed) :
    op.computeSelect float f' param = some computed := by
  have hreg : ∀ {lhs lhs'}, (∀ x, lhs = some x → lhs' = some x) →
      Op.selectedReg f lhs param = some computed →
      Op.selectedReg f' lhs' param = some computed := by
    intro lhs lhs' hlhs hcompute
    cases param with
    | register2 condition rhs => exact selected_mono h hlhs (h rhs) hcompute
    | _ => cases hcompute
  have himm : ∀ {lhs lhs' ofImm}, (∀ x, lhs = some x → lhs' = some x) →
      Op.selectedImm f lhs ofImm param = some computed →
      Op.selectedImm f' lhs' ofImm param = some computed := by
    intro lhs lhs' ofImm hlhs hcompute
    cases param with
    | registerAndImm32 condition rhs => exact selected_mono h hlhs (fun _ hx => hx) hcompute
    | _ => cases hcompute
  cases op with
  | select r lhs => exact hreg (h lhs) hcompute
  | selectImm32Rhs r lhs | selectI64Imm32Rhs r lhs | selectF64Imm32Rhs r lhs =>
    exact himm (h lhs) hcompute
  | selectImm32Lhs | selectI64Imm32Lhs | selectF64Imm32Lhs => exact hreg (fun _ hx => hx) hcompute
  | selectImm32 | selectI64Imm32 | selectF64Imm32 => exact himm (fun _ hx => hx) hcompute
  | _ => cases hcompute

lemma computeWith_mono (h : ∀ reg x, f reg = some x → f' reg = some x)
    (hcompute : op.computeWith float f params = some computed) :
    op.computeWith float f' params = some computed := by
  match params with
  | [] => exact compute_mono h hcompute
  | [param] => exact computeSelect_mono h hcompute
  | _ :: _ :: _ => cases hcompute

/-- All the registers that an instruction computes its value from are visited. -/
lemma computeWith_visit (ρ : Reg → Reg) (op : Op) (params : List Op) :
    (op.visitInputRegisters ρ).computeWith float f (params.map (Op.visitInputRegisters ρ)) =
      op.computeWith float (fun reg => f (ρ reg)) params := by
  match params with
  | [] => cases op <;> rfl
  | [param] =>
    have hreg : ∀ lhs, Op.selectedReg f lhs (param.visitInputRegisters ρ) =
        Op.selectedReg (fun reg => f (ρ reg)) lhs param := by
      intro lhs
      cases param <;> rfl
    have himm : ∀ lhs ofImm, Op.selectedImm f lhs ofImm (param.visitInputRegisters ρ) =
        Op.selectedImm (fun reg => f (ρ reg)) lhs ofImm param := by
      intro lhs ofImm
      cases param <;> rfl
    cases op with
    | select | selectImm32Lhs | selectI64Imm32Lhs | selectF64Imm32Lhs => exact hreg _
    | selectImm32Rhs | selectI64Imm32Rhs | selectF64Imm32Rhs | selectImm32 | selectI64Imm32
    | selectF64Imm32 => exact himm _ _
    | _ => rfl
  | _ :: _ :: _ => rfl

/-- Of the results, only those of copies are visited. -/
lemma resultReg_visit (ρ : Reg → Reg) (h : op.resultReg = some result) :
    (∃ value, op = .copy result value) ∧
        (op.visitInputRegisters ρ).resultReg = some (ρ result) ∨
      (op.visitInputRegisters ρ).resultReg = some result := by
  cases op with
  | copy r value =>
    obtain rfl := Option.some.inj h
    exact .inl ⟨⟨value, rfl⟩, rfl⟩
  | _ => exact .inr h

end Values

namespace Translator

/-! ## Registers -/

/-- The function keeps the registers apart, and those next to each other next to each other. It
keeps the registers below `top`. -/
structure Places (ρ : Reg → Reg) (top : Int) (known : Reg → Prop) : Prop where
  fixed : ∀ reg : Reg, reg.toInt < top → ρ reg = reg
  apart : ∀ reg reg', known reg → known reg' → ρ reg = ρ reg' → reg = reg'
  next : ∀ reg : Reg, known reg → known reg.next → (ρ reg).next = ρ reg.next

/-- The registers that there are, in their places. -/
structure Renamed (ρ : Reg → Reg) (known : Reg → Prop) (f g : RegFile) : Prop where
  known : ∀ reg, (f reg).isSome → known reg
  regs : ∀ reg x, f reg = some x → g (ρ reg) = some x

/-- The same behind a trap, where there are none. -/
inductive RenamedTo (ρ : Reg → Reg) (known : Reg → Prop) :
    Except TrapCode RegFile → Except TrapCode RegFile → Prop where
  | ok {f g : RegFile} (renamed : Renamed ρ known f g) : RenamedTo ρ known (.ok f) (.ok g)
  | error (trapCode : TrapCode) : RenamedTo ρ known (.error trapCode) (.error trapCode)

/-- The word that `defrag_registers` replaces a word by. -/
def renamed (ρ : Reg → Reg) (word : Instruction) : Instruction :=
  ⟨word.instrOffset, word.op.visitInputRegisters ρ⟩

section Renamed

variable {float : FloatOps} {ρ : Reg → Reg} {top : Int} {known : Reg → Prop} {f g : RegFile}
  {words : List Instruction} {chunks : List (List Instruction)} {reg : Reg}
  {outcome : Except TrapCode RegFile}

lemma Renamed.isSome (h : Renamed ρ known f g) (hthere : (f reg).isSome) :
    (g (ρ reg)).isSome := by
  obtain ⟨x, hx⟩ := Option.isSome_iff_exists.1 hthere
  rw [h.regs reg x hx]
  rfl

lemma Renamed.update (h : Renamed ρ known f g) (hplaces : Places ρ top known)
    (hthere : (f reg).isSome) (value : UntypedVal) :
    Renamed ρ known (Function.update f reg (some value))
      (Function.update g (ρ reg) (some value)) := by
  refine ⟨fun reg' hreg' => ?_, fun reg' x hx => ?_⟩
  · by_cases heq : reg' = reg
    · rw [heq]
      exact h.known reg hthere
    · rw [Function.update_of_ne heq] at hreg'
      exact h.known reg' hreg'
  · by_cases heq : reg' = reg
    · rw [heq, Function.update_self] at hx ⊢
      exact hx
    · rw [Function.update_of_ne heq] at hx
      -- another register is in another place
      have hne : ρ reg' ≠ ρ reg := fun hsame => heq (hplaces.apart reg' reg
        (h.known reg' (by rw [hx]; rfl)) (h.known reg hthere) hsame)
      rw [Function.update_of_ne hne]
      exact h.regs reg' x hx

lemma effect_renamed (hplaces : Places ρ top known) (h : Renamed ρ known f g)
    (hbelow : ResultBelow top words) (heffect : effect float f words = some outcome) :
    ∃ outcome', effect float g (words.map (renamed ρ)) = some outcome' ∧
      RenamedTo ρ known outcome outcome' := by
  unfold effect at heffect
  split at heffect
  case h_1 instrOffset trapCode =>
    rw [← Option.some.inj heffect]
    exact ⟨_, rfl, .error trapCode⟩
  case h_2 instrOffset results value0 value1 =>
    split at heffect
    case isFalse => cases heffect
    case isTrue hthere =>
      obtain ⟨hhead, hnext, hvalue0, hvalue1⟩ := hthere
      obtain ⟨x0, hx0⟩ := Option.isSome_iff_exists.1 hvalue0
      obtain ⟨x1, hx1⟩ := Option.isSome_iff_exists.1 hvalue1
      have hplace : (ρ results.head).next = ρ results.head.next :=
        hplaces.next _ (h.known _ hhead) (h.known _ hnext)
      have hthere' : (g (ρ results.head)).isSome ∧ (g (ρ results.head).next).isSome ∧
          (g (ρ value0)).isSome ∧ (g (ρ value1)).isSome :=
        ⟨h.isSome hhead, hplace ▸ h.isSome hnext, h.isSome hvalue0, h.isSome hvalue1⟩
      refine ⟨_, if_pos hthere', ?_⟩
      rw [← Option.some.inj heffect]
      refine .ok ?_
      show Renamed ρ known _ (Function.update (Function.update g (ρ results.head) (g (ρ value0)))
        (ρ results.head).next (g (ρ value1)))
      rw [hx0, hx1, h.regs value0 x0 hx0, h.regs value1 x1 hx1, hplace]
      exact (h.update hplaces hhead x0).update hplaces (isSome_update hnext) x1
  case h_3 word params _ _ =>
    obtain ⟨result, hresult, heffect⟩ := Option.bind_eq_some_iff.1 heffect
    split at heffect
    case isFalse => cases heffect
    case isTrue hthere =>
      obtain ⟨computed, hcompute, rfl⟩ := Option.map_eq_some_iff.1 heffect
      have hplace : (renamed ρ word).op.resultReg = some (ρ result) := by
        obtain ⟨-, hvisit⟩ | hvisit := resultReg_visit ρ hresult
        · exact hvisit
        · obtain ⟨value, hcopy⟩ | hlt := hbelow result hresult
          · show (word.op.visitInputRegisters ρ).resultReg = _
            rw [hcopy]
            rfl
          · rw [hplaces.fixed result hlt]
            exact hvisit
      have hparams : (params.map (renamed ρ)).map Instruction.op =
          (params.map Instruction.op).map (Op.visitInputRegisters ρ) := by
        rw [List.map_map, List.map_map]
        rfl
      have hcompute' : (renamed ρ word).op.computeWith float g
          ((params.map (renamed ρ)).map Instruction.op) = some computed := by
        rw [hparams]
        exact (computeWith_visit ρ word.op _).trans (computeWith_mono h.regs hcompute)
      cases computed with
      | ok value =>
        exact ⟨_, effect_compute hplace (h.isSome hthere) hcompute',
          .ok (h.update hplaces hthere value)⟩
      | error trapCode =>
        exact ⟨_, effect_compute_error hplace (h.isSome hthere) hcompute', .error trapCode⟩
  case h_4 => cases heffect

lemma effects_renamed (hplaces : Places ρ top known) (h : Renamed ρ known f g)
    (hbelow : ∀ words ∈ chunks, ResultBelow top words)
    (heffects : effects float f chunks = some outcome) :
    ∃ outcome', effects float g (chunks.map (List.map (renamed ρ))) = some outcome' ∧
      RenamedTo ρ known outcome outcome' := by
  induction chunks generalizing f g with
  | nil =>
    rw [← Option.some.inj heffects]
    exact ⟨_, rfl, .ok h⟩
  | cons words chunks ih =>
    obtain ⟨hfirst, hrest⟩ := List.forall_mem_cons.1 hbelow
    obtain ⟨f₁, hwords, heffects⟩ | ⟨trapCode, hwords, rfl⟩ := effects_cons_cases heffects
    · obtain ⟨outcome₁, hwords', hrenamed⟩ := effect_renamed hplaces h hfirst hwords
      cases hrenamed with
      | ok renamed =>
        rw [List.map_cons, effects_cons_ok hwords']
        exact ih renamed hrest heffects
    · obtain ⟨outcome₁, hwords', hrenamed⟩ := effect_renamed hplaces h hfirst hwords
      cases hrenamed with
      | error =>
        rw [List.map_cons, effects_cons_error hwords']
        exact ⟨_, rfl, .error trapCode⟩

end Renamed

end Translator

end MotokoDebugger
