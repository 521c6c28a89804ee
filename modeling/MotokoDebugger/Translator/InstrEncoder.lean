import MotokoDebugger.Lib.Fallible
import MotokoDebugger.Translator.Providers

/-!
# The instruction encoder

`translator/instr_encoder.rs` and `translator/labels.rs`: the instruction words of a function under
translation, and the labels that its branches go to.

* `LabelRegistry`: labels with the instructions that they are pinned to, and the branches to labels
  that were not pinned yet.
* `InstrEncoder`: the words encoded so far and the position of the last instruction; the words behind
  it are its parameters.
-/

namespace MotokoDebugger

/-- `BranchOffset::uninit`. -/
def BranchOffset.uninit : BranchOffset := 0

namespace Translator

/-! ## Labels -/

/-- `Label`. -/
inductive Label where
  | pinned (instr : Nat)
  | unpinned
deriving Repr, DecidableEq

/-- `LabelUser`. -/
structure LabelUser where
  label : Nat
  user : Nat
deriving Repr, DecidableEq

/-- `LabelRegistry`. -/
structure LabelRegistry where
  labels : List Label
  users : List LabelUser
deriving Repr, DecidableEq

/-- `BranchOffset::from_src_to_dst`. -/
def fromSrcToDst (src dst : Nat) : Except Failure BranchOffset :=
  let offset := (dst : Int) - src
  if -2 ^ 31 ≤ offset ∧ offset < 2 ^ 31 then .ok (Int32.ofInt offset)
  else .error (.error .branchOffsetOutOfBounds)

namespace LabelRegistry

variable (registry : LabelRegistry)

/-- `new_label`. -/
def newLabel : Nat × LabelRegistry :=
  (registry.labels.length, { registry with labels := registry.labels ++ [.unpinned] })

/-- `pin_label`. The only caller panics where the label is pinned already. -/
def pinLabel (label instr : Nat) : Except Failure LabelRegistry :=
  match registry.labels[label]? with
  | some .unpinned => .ok { registry with labels := registry.labels.set label (.pinned instr) }
  | _ => .error .panic

/-- `try_pin_label`. -/
def tryPinLabel (label instr : Nat) : Except Failure LabelRegistry :=
  match registry.labels[label]? with
  | some .unpinned => .ok { registry with labels := registry.labels.set label (.pinned instr) }
  | some (.pinned _) => .ok registry
  | none => .error .panic

/-- `try_resolve_label`. The offset to a label that is not pinned is filled in later. -/
def tryResolveLabel (label user : Nat) : Except Failure (BranchOffset × LabelRegistry) :=
  match registry.labels[label]? with
  | some (.pinned target) => do return (← fromSrcToDst user target, registry)
  | some .unpinned =>
    .ok (.uninit, { registry with users := registry.users ++ [⟨label, user⟩] })
  | none => .error .panic

/-- An element of `resolved_users`. -/
def resolveUser (user : LabelUser) : Except Failure BranchOffset :=
  match registry.labels[user.label]? with
  | some (.pinned target) => fromSrcToDst user.user target
  | _ => .error .panic

end LabelRegistry

/-! ## The encoder -/

/-- `InstrEncoder`. -/
structure InstrEncoder where
  instrs : List Instruction
  labels : LabelRegistry
  lastInstr : Option Nat
deriving Repr, DecidableEq

/-- `FuelInfo`: the costs and the position of the `ConsumeFuel` of the block. -/
inductive FuelInfo where
  | none
  | some (costs : FuelCosts) (instr : Nat)
deriving Repr, DecidableEq

namespace InstrEncoder

variable (enc : InstrEncoder)

/-- `reset`. -/
def reset : InstrEncoder := ⟨[], ⟨[], []⟩, none⟩

/-- `reset_last_instr`. -/
def resetLastInstr : InstrEncoder := { enc with lastInstr := none }

/-- `InstrSequence::next_instr`. -/
def nextInstr : Except Failure Nat :=
  if enc.instrs.length < 2 ^ 32 then .ok enc.instrs.length else .error .panic

/-- `append_instr`. -/
def appendInstr (instr : Instruction) : Except Failure (Nat × InstrEncoder) := do
  let next ← enc.nextInstr
  return (next, { enc with instrs := enc.instrs ++ [instr] })

/-- `push_instr`. -/
def pushInstr (instr : Instruction) : Except Failure (Nat × InstrEncoder) := do
  let (last, enc) ← enc.appendInstr instr
  return (last, { enc with lastInstr := some last })

/-- `bump_fuel_consumption`. -/
def bumpFuelConsumption (fuelInfo : FuelInfo) (f : FuelCosts → Nat) :
    Except Failure InstrEncoder :=
  match fuelInfo with
  | .none => .ok enc
  | .some costs instr =>
    match enc.instrs[instr]? with
    | some ⟨instrOffset, .consumeFuel blockFuel⟩ =>
      if blockFuel + f costs < 2 ^ 32 then
        .ok { enc with
          instrs := enc.instrs.set instr ⟨instrOffset, .consumeFuel (blockFuel + f costs)⟩ }
      else .error (.error .blockFuelOutOfBounds)
    | _ => .error .panic

end InstrEncoder

/-! ## What the encoder appends -/

open Fallible

/-- The word without the fuel that a block consumes. -/
def unfueled (instr : Instruction) : Instruction :=
  match instr.op with
  | .consumeFuel _ => ⟨instr.instrOffset, .consumeFuel 0⟩
  | _ => instr

/-- Paying for an instruction changes only the fuel of a block. -/
lemma bumpFuelConsumption_ok {enc enc' : InstrEncoder} {fuelInfo : FuelInfo} {f : FuelCosts → Nat}
    (h : enc.bumpFuelConsumption fuelInfo f = .ok enc') :
    enc'.instrs.map unfueled = enc.instrs.map unfueled := by
  unfold InstrEncoder.bumpFuelConsumption at h
  split at h
  case h_1 => rw [← Except.ok.inj h]
  case h_2 costs instr =>
    split at h
    case h_1 instrOffset blockFuel hword =>
      split at h
      case isFalse => simp at h
      case isTrue =>
        rw [← Except.ok.inj h]
        show (enc.instrs.set instr _).map unfueled = _
        have hmap : (enc.instrs.map unfueled)[instr]? =
            some (unfueled ⟨instrOffset, .consumeFuel (blockFuel + f costs)⟩) := by
          rw [List.getElem?_map, hword]
          rfl
        obtain ⟨hlt, heq⟩ := List.getElem?_eq_some_iff.1 hmap
        rw [List.map_set, ← heq, List.set_getElem_self]
    case h_2 => simp at h

lemma bumpFuelConsumption_instrs {enc enc' : InstrEncoder} {fuelInfo : FuelInfo}
    {f : FuelCosts → Nat} (h : enc.bumpFuelConsumption fuelInfo f = .ok enc') :
    enc' = { enc with instrs := enc'.instrs } := by
  unfold InstrEncoder.bumpFuelConsumption at h
  split at h
  case h_1 => rw [← Except.ok.inj h]
  case h_2 =>
    split at h
    case h_1 =>
      split at h
      case isFalse => simp at h
      case isTrue => rw [← Except.ok.inj h]
    case h_2 => simp at h

lemma nextInstr_ok {enc : InstrEncoder} {next : Nat} (h : enc.nextInstr = .ok next) :
    next = enc.instrs.length := by
  unfold InstrEncoder.nextInstr at h
  split at h
  case isTrue => exact (Except.ok.inj h).symm
  case isFalse => simp at h

lemma appendInstr_ok {enc enc' : InstrEncoder} {word : Instruction} {instr : Nat}
    (h : enc.appendInstr word = .ok (instr, enc')) :
    enc' = { enc with instrs := enc.instrs ++ [word] } ∧ instr = enc.instrs.length := by
  unfold InstrEncoder.appendInstr at h
  obtain ⟨next, hnext, h⟩ := bind_eq_ok.1 h
  obtain ⟨rfl, rfl⟩ := Prod.mk.inj (Except.ok.inj h)
  exact ⟨rfl, nextInstr_ok hnext⟩

lemma pushInstr_ok {enc enc' : InstrEncoder} {word : Instruction} {instr : Nat}
    (h : enc.pushInstr word = .ok (instr, enc')) :
    enc' = { enc with instrs := enc.instrs ++ [word], lastInstr := some enc.instrs.length } ∧
      instr = enc.instrs.length := by
  unfold InstrEncoder.pushInstr at h
  obtain ⟨⟨last, enc₁⟩, happend, h⟩ := bind_eq_ok.1 h
  obtain ⟨rfl, rfl⟩ := appendInstr_ok happend
  obtain ⟨rfl, rfl⟩ := Prod.mk.inj (Except.ok.inj h)
  exact ⟨rfl, rfl⟩

end Translator

end MotokoDebugger
