import MotokoDebugger.Translator.SimultaneousCopies
import MotokoDebugger.Translator.ValueStack

/-!
# The function translator

The parts of `FuncTranslator` (`translator/mod.rs`) that the operators without control flow work on.

* `FuncTranslator`, `pushFueledInstr`, `appendInstr`, `translateTrap`.
* `Emitted`: the words that a translation has added.
-/

namespace MotokoDebugger

/-- `FuelCosts::load`. -/
def FuelCosts.load (costs : FuelCosts) : Nat := costs.base

/-- `FuelCosts::store`. -/
def FuelCosts.store (costs : FuelCosts) : Nat := costs.base

namespace Translator

open Fallible

/-- `FuncTranslator`. `fuelInfo` is that of the innermost block, `visitPos` the position of the
operator under translation. -/
structure FuncTranslator (σ : Type) where
  reachable : Bool
  fuelInfo : FuelInfo
  encoder : InstrEncoder
  stack : ValueStack σ
  visitPos : Nat

namespace FuncTranslator

variable {σ : Type} (translator : FuncTranslator σ)

/-- The translator after its operands have changed. -/
def withStack (stack : ValueStack σ) : FuncTranslator σ := { translator with stack }

/-- `push_fueled_instr`. -/
def pushFueledInstr (op : Op) (f : FuelCosts → Nat) : Except Failure (FuncTranslator σ) := do
  let encoder ← translator.encoder.bumpFuelConsumption translator.fuelInfo f
  let (_, encoder) ← encoder.pushInstr ⟨translator.visitPos, op⟩
  return { translator with encoder }

/-- `append_instr` of the encoder. -/
def appendInstr (op : Op) : Except Failure (FuncTranslator σ) := do
  let (_, encoder) ← translator.encoder.appendInstr ⟨translator.visitPos, op⟩
  return { translator with encoder }

/-- `translate_trap`. -/
def translateTrap (trapCode : TrapCode) : Except Failure (FuncTranslator σ) :=
  if translator.reachable then do
    let translator ← translator.pushFueledInstr (.trap trapCode) (·.base)
    return { translator with reachable := false }
  else .ok translator

end FuncTranslator

/-! ## Emitted words -/

variable {σ : Type} {translator translator' translator'' : FuncTranslator σ} {op : Op}

/-- `translator'` has added the words `ops` behind those of `translator`. The words before stay as they
are, but for the fuel of their block. -/
structure Emitted (translator translator' : FuncTranslator σ) (ops : List Op) : Prop where
  words : ∃ pre, pre.map unfueled = translator.encoder.instrs.map unfueled ∧
    translator'.encoder.instrs = pre ++ ops.map (Instruction.mk translator.visitPos)
  fuelInfo : translator'.fuelInfo = translator.fuelInfo
  visitPos : translator'.visitPos = translator.visitPos

lemma Emitted.drop {ops : List Op} (h : Emitted translator translator' ops) :
    translator'.encoder.instrs.drop translator.encoder.instrs.length =
      ops.map (Instruction.mk translator.visitPos) := by
  obtain ⟨pre, hpre, hinstrs⟩ := h.words
  have hlen := congrArg List.length hpre
  rw [List.length_map, List.length_map] at hlen
  rw [hinstrs, ← hlen, List.drop_left]

lemma pushFueledInstr_ok {f : FuelCosts → Nat}
    (h : translator.pushFueledInstr op f = .ok translator') :
    Emitted translator translator' [op] ∧ translator'.stack = translator.stack ∧
      translator'.reachable = translator.reachable := by
  unfold FuncTranslator.pushFueledInstr at h
  obtain ⟨encoder, hbump, h⟩ := bind_eq_ok.1 h
  obtain ⟨⟨instr, encoder'⟩, hpush, h⟩ := bind_eq_ok.1 h
  obtain ⟨rfl, -⟩ := pushInstr_ok hpush
  rw [← Except.ok.inj h]
  exact ⟨⟨⟨encoder.instrs, bumpFuelConsumption_ok hbump, rfl⟩, rfl, rfl⟩, rfl, rfl⟩

lemma appendInstr_emitted {param : Op} (h : Emitted translator translator' [op])
    (happend : translator'.appendInstr param = .ok translator'') :
    Emitted translator translator'' [op, param] ∧ translator''.stack = translator'.stack := by
  unfold FuncTranslator.appendInstr at happend
  obtain ⟨⟨instr, encoder⟩, hpush, happend⟩ := bind_eq_ok.1 happend
  obtain ⟨rfl, -⟩ := appendInstr_ok hpush
  rw [← Except.ok.inj happend]
  obtain ⟨pre, hpre, hinstrs⟩ := h.words
  refine ⟨⟨⟨pre, hpre, ?_⟩, h.fuelInfo, h.visitPos⟩, rfl⟩
  show translator'.encoder.instrs ++ [Instruction.mk translator'.visitPos param] = _
  rw [hinstrs, h.visitPos, List.append_assoc]
  rfl

/-- A translation that starts with other operands emits the same words. -/
lemma Emitted.of_stack {stack : ValueStack σ} {ops : List Op}
    (h : Emitted (translator.withStack stack) translator' ops) : Emitted translator translator' ops :=
  ⟨h.words, h.fuelInfo, h.visitPos⟩

lemma translateTrap_ok {trapCode : TrapCode} (hreachable : translator.reachable = true)
    (h : translator.translateTrap trapCode = .ok translator') :
    Emitted translator translator' [.trap trapCode] ∧ translator'.stack = translator.stack ∧
      translator'.reachable = false := by
  unfold FuncTranslator.translateTrap at h
  rw [if_pos hreachable] at h
  obtain ⟨pushed, hpush, h⟩ := bind_eq_ok.1 h
  obtain ⟨⟨hwords, hfuel, hpos⟩, hstack, -⟩ := pushFueledInstr_ok hpush
  rw [← Except.ok.inj h]
  exact ⟨⟨hwords, hfuel, hpos⟩, hstack, rfl⟩

end Translator

end MotokoDebugger
