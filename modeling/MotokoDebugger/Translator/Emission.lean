import MotokoDebugger.Translator.Copies
import MotokoDebugger.Translator.FusedBranches

/-!
# Emission of branches

What the translator does with its encoder while it translates a function, in any order, together
with a record of the branches that it emits.

* `Op.isBranch`, `Op.Sealed`: the words with an offset, and those that nothing replaces or moves.
* `Emission`: the encoder, the branches emitted so far, and the words in front of each pinned label.
* `Emits`: an operation of the translator on the encoder.
-/

namespace MotokoDebugger

namespace Op

/-- The words with the offset to a label. -/
def isBranch : Op → Bool
  | .branch _ | .branchCmp _ _ _ _ | .branchCmpImm _ _ _ _ | .branchCmpFallback _ _ _
  | .branchTableTarget _ _ | .branchTableTargetNonOverlapping _ _ => true
  | _ => false

/-- An instruction without a result, which nothing replaces or moves later on. -/
def Sealed (op : Op) : Prop := op.resultReg = none ∧ op.callResults = none

lemma isBranch_setResult (op : Op) (reg : Reg) : (op.setResult reg).isBranch = op.isBranch := by
  cases op <;> rfl

lemma sealed_of_isBranch {op : Op} (h : op.isBranch = true) : op.Sealed := by
  cases op <;> simp only [Op.isBranch, reduceCtorEq] at h <;> exact ⟨rfl, rfl⟩

end Op

namespace Translator

open Fallible

/-- What a branch does before it goes to its label. -/
inductive BranchKind where
  | always
  | cond (cond : BranchCond)
  | target (results : RegSpan)
  | targetNonOverlapping (results : RegSpan)
deriving Repr, DecidableEq

/-- The word of a branch by the offset. -/
def BranchKind.Word (consts : FuncLocalConsts) (offset : BranchOffset) (op : Op) :
    BranchKind → Prop
  | .always => op = .branch offset
  | .cond condition => Branches consts condition offset op
  | .target results => op = .branchTableTarget results offset
  | .targetNonOverlapping results => op = .branchTableTargetNonOverlapping results offset

/-- An emitted branch. -/
structure Branch where
  label : Nat
  kind : BranchKind
deriving Repr, DecidableEq

/-- The encoder during a translation. `branches` has the branches emitted so far by their positions,
`pins` the words in front of each pinned label. -/
structure Emission where
  enc : InstrEncoder
  consts : FuncLocalConsts
  branches : Nat → Option Branch
  pins : Nat → Option (List Instruction)

namespace Emission

/-- The start of a translation. -/
def start : Emission := ⟨.reset, .reset, fun _ => none, fun _ => none⟩

/-- The last instruction is none that is replaced or moved. -/
def LastSealed (emission : Emission) : Prop :=
  ∀ k word, emission.enc.lastInstr = some k → emission.enc.instrs[k]? = some word → word.op.Sealed

/-- A branch of the kind to the label at `k` has been emitted. -/
def emit (emission : Emission) (enc : InstrEncoder) (consts : FuncLocalConsts) (k label : Nat)
    (kind : BranchKind) : Emission :=
  { emission with
    enc
    consts
    branches := Function.update emission.branches k (some ⟨label, kind⟩) }

/-- The label has been pinned, unless it was before. -/
def pin (emission : Emission) (enc : InstrEncoder) (label : Nat) : Emission :=
  { emission with
    enc
    pins := if emission.enc.labels.labels[label]? = some .unpinned then
      Function.update emission.pins label (some emission.enc.instrs) else emission.pins }

end Emission

/-- An operation of the translator on the encoder, with the words and registers that it picks left
open. -/
inductive Emits (emission : Emission) : Emission → Prop where
  | push {word : Instruction} {instr : Nat} {enc : InstrEncoder} (other : word.op.isBranch = false)
      (eq : emission.enc.pushInstr word = .ok (instr, enc)) : Emits emission { emission with enc }
  | append {word : Instruction} {instr : Nat} {enc : InstrEncoder}
      (other : word.op.isBranch = false)
      (eq : emission.enc.appendInstr word = .ok (instr, enc)) : Emits emission { emission with enc }
  | bumpFuel {fuelInfo : FuelInfo} {f : FuelCosts → Nat} {enc : InstrEncoder}
      (eq : emission.enc.bumpFuelConsumption fuelInfo f = .ok enc) :
      Emits emission { emission with enc }
  | alloc {value : UntypedVal} {reg : Reg} {consts : FuncLocalConsts}
      (eq : emission.consts.alloc value = .ok (reg, consts)) : Emits emission { emission with consts }
  | mergeCopy {result : Reg} {value : TypedProvider} {instr : Nat} {enc : InstrEncoder}
      (eq : emission.enc.mergeCopyInstrs result value = .ok (some (instr, enc))) :
      Emits emission { emission with enc }
  | fuseEqz {space : Reg → RegisterSpace} {input : TypedProvider} {enc : InstrEncoder}
      (eq : emission.enc.fuseI32Eqz space input = .ok (some enc)) :
      Emits emission { emission with enc }
  | relink {lenResults : Op → Nat} {instrOffset : Nat} {«local» value : Reg}
      {preserved : Option Reg} {fuelInfo : FuelInfo} {enc : InstrEncoder}
      (eq : emission.enc.relinkLocalSet lenResults instrOffset «local» value preserved fuelInfo =
        .ok (some enc)) : Emits emission { emission with enc }
  | newLabel : Emits emission { emission with enc := emission.enc.newLabel.2 }
  | resetLast : Emits emission { emission with enc := emission.enc.resetLastInstr }
  -- At the end of a block the translator pins first and then resets the last instruction, which is
  -- the same: a pin does not read it. Elsewhere it pins behind a branch, a return or a trap.
  | pin {label : Nat} {enc : InstrEncoder} (last : emission.LastSealed)
      (eq : emission.enc.pinLabelIfUnpinned label = .ok enc) : Emits emission (emission.pin enc label)
  | branch {label instrOffset instr : Nat} {offset : BranchOffset} {fuelInfo : FuelInfo}
      {enc enc' : InstrEncoder} (resolve : emission.enc.tryResolveLabel label = .ok (offset, enc))
      (eq : enc.pushFueled ⟨instrOffset, .branch offset⟩ fuelInfo = .ok (instr, enc')) :
      Emits emission (emission.emit enc' emission.consts instr label .always)
  | branchCond {space : Reg → RegisterSpace} {eqz : Bool} {instrOffset k label : Nat}
      {condition : Reg} {cond : BranchCond} {enc : InstrEncoder} {consts : FuncLocalConsts}
      (eq : encodeBranch emission.enc space eqz instrOffset emission.consts condition label =
        .ok (enc, consts))
      (cond_eq : emittedCond emission.enc space eqz condition = (k, cond)) :
      Emits emission (emission.emit enc consts k label (.cond cond))
  -- the targets of a table are behind the table, or a return that is a target
  | target {label instrOffset instr : Nat} {kind : BranchKind} {op : Op} {offset : BranchOffset}
      {enc enc' : InstrEncoder} (last : emission.LastSealed) (uncond : ∀ cond, kind ≠ .cond cond)
      (resolve : emission.enc.tryResolveLabel label = .ok (offset, enc))
      (word : kind.Word emission.consts offset op)
      (eq : enc.appendInstr ⟨instrOffset, op⟩ = .ok (instr, enc')) :
      Emits emission (emission.emit enc' emission.consts instr label kind)

/-! ## Words that differ in the fuel of their block -/

section
variable {word word' : Instruction}

lemma op_of_unfueled (h : unfueled word' = unfueled word) :
    word'.op = word.op ∨ ∃ fuel fuel', word.op = .consumeFuel fuel ∧ word'.op = .consumeFuel fuel' := by
  unfold unfueled at h
  split at h
  case h_1 fuel' hop' =>
    split at h
    case h_1 fuel hop => exact .inr ⟨fuel, fuel', hop, hop'⟩
    case h_2 hop => exact absurd (congrArg (·.op) h).symm (hop 0)
  case h_2 hop' =>
    split at h
    case h_1 => exact absurd (congrArg (·.op) h) (hop' 0)
    case h_2 => exact .inl (congrArg (·.op) h)

lemma isBranch_of_unfueled (h : unfueled word' = unfueled word) :
    word'.op.isBranch = word.op.isBranch := by
  obtain hop | ⟨fuel, fuel', hop, hop'⟩ := op_of_unfueled h
  · rw [hop]
  · rw [hop, hop']
    rfl

lemma sealed_of_unfueled (h : unfueled word' = unfueled word) (hsealed : word.op.Sealed) :
    word'.op.Sealed := by
  obtain hop | ⟨fuel, fuel', hop, hop'⟩ := op_of_unfueled h
  · rwa [hop]
  · rw [hop']
    exact ⟨rfl, rfl⟩

lemma op_of_isBranch (h : unfueled word' = unfueled word) (hbranch : word.op.isBranch = true) :
    word'.op = word.op := by
  obtain hop | ⟨fuel, fuel', hop, hop'⟩ := op_of_unfueled h
  · exact hop
  · rw [hop] at hbranch
    simp [Op.isBranch] at hbranch

/-- The words in front of `k` are there up to the fuel of their blocks. -/
lemma word_of_take {words words' : List Instruction} {i k : Nat}
    (htake : (words'.take k).map unfueled = (words.take k).map unfueled) (hi : i < k)
    (hword : words[i]? = some word) :
    ∃ word', words'[i]? = some word' ∧ unfueled word' = unfueled word := by
  have h := congrArg (·[i]?) htake
  simp only [List.getElem?_map, List.getElem?_take, hi, if_true, hword, Option.map_some] at h
  exact Option.map_eq_some_iff.1 h

end

/-! ## Words of branches -/

section
variable {consts consts' : FuncLocalConsts} {cond : BranchCond} {kind : BranchKind}
  {offset : BranchOffset} {op : Op}

lemma Branches.extends (h : Branches consts cond offset op) (hext : consts.Extends consts') :
    Branches consts' cond offset op := by
  unfold Branches at h ⊢
  split at h
  case h_1 => exact h
  case h_2 =>
    obtain ⟨rhs, params, hop, hparams, hrhs⟩ := h
    refine ⟨rhs, params, hop, hext _ _ hparams, ?_⟩
    cases cond with
    | regs cmp lhs rhs' => exact hrhs
    | imm cmp lhs rhs' => exact hext _ _ hrhs

lemma BranchKind.Word.extends (h : kind.Word consts offset op) (hext : consts.Extends consts') :
    kind.Word consts' offset op := by
  cases kind with
  | cond branchCond => exact Branches.extends h hext
  | _ => exact h

lemma Branches.op_cases (h : Branches consts cond offset op) :
    (∃ offset, op = cond.op offset) ∨ ∃ lhs rhs params, op = .branchCmpFallback lhs rhs params := by
  unfold Branches at h
  split at h
  case h_1 => exact .inl ⟨_, h⟩
  case h_2 =>
    obtain ⟨rhs, params, hop, _⟩ := h
    exact .inr ⟨_, rhs, params, hop⟩

lemma BranchKind.Word.isBranch (h : kind.Word consts offset op) : op.isBranch = true := by
  cases kind with
  | cond branchCond =>
    obtain ⟨offset', rfl⟩ | ⟨lhs, rhs, params, rfl⟩ := Branches.op_cases h
    · cases branchCond <;> rfl
    · rfl
  | _ => rw [h]; rfl

lemma BranchKind.Word.sealed (h : kind.Word consts offset op) : op.Sealed := by
  cases kind with
  | cond branchCond =>
    obtain ⟨offset', rfl⟩ | ⟨lhs, rhs, params, rfl⟩ := Branches.op_cases h
    · cases branchCond <;> exact ⟨rfl, rfl⟩
    · exact ⟨rfl, rfl⟩
  | _ => rw [h]; exact ⟨rfl, rfl⟩

end

end Translator

end MotokoDebugger
