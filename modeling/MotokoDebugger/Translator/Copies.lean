import MotokoDebugger.Translator.InstrEncoder

/-!
# Encoding of copies

The part of `translator/instr_encoder.rs` that encodes copies of providers to consecutive registers.

* `mergeCopyInstrs`: a copy next to the last copy is merged with it.
* `encodeCopy`: a single copy.
* `encodeCopies`: the choice between single copies, pairs, spans and lists of registers.
-/

namespace MotokoDebugger.Translator

/-- `FromProviders::register_index`. -/
def TypedProvider.registerIndex : TypedProvider → Option Reg
  | .register reg => some reg
  | .const _ => none

/-- The loop of `BoundedRegSpan::from_providers`: the last of the registers, which follow each
other. -/
def lastConsecutive (prev : Reg) : List TypedProvider → Option Reg
  | [] => some prev
  | next :: rest => do
    let next ← TypedProvider.registerIndex next
    if next.toInt - prev.toInt = 1 then lastConsecutive next rest else none

/-- `BoundedRegSpan::from_providers`. -/
def BoundedRegSpan.fromProviders : List TypedProvider → Option BoundedRegSpan
  | [] => none
  | first :: rest => do
    let first ← TypedProvider.registerIndex first
    let last ← lastConsecutive first rest
    if last.toInt + 1 < 2 ^ 15 then
      return ⟨⟨first⟩, ((last.toInt + 1 - first.toInt) % 2 ^ 16).toNat⟩
    else none

/-- `Const32::<i64>::try_from`. -/
def AnyConst32.ofI64 (value : UntypedVal) : Option AnyConst32 :=
  if value.toI32.signExtend 64 = value then some value.toI32 else none

/-- `Const32::<f64>::try_from`. -/
def AnyConst32.ofF64 (float : FloatOps) (value : UntypedVal) : Option AnyConst32 :=
  let truncated := (float.unary .f32DemoteF64 value).toI32
  if float.f64OfConst32 truncated = value then some truncated else none

/-- `Instruction::copy2_ext`. -/
def copy2Ext (instrOffset : Nat) (results : RegSpan) (value0 value1 : Reg) :
    Except Failure Instruction :=
  if results.head ≥ results.head.nextN 2 then .error .panic
  else .ok ⟨instrOffset, .copy2 results value0 value1⟩

lemma copy2Ext_ok {instrOffset : Nat} {results : RegSpan} {value0 value1 : Reg}
    {word : Instruction} (h : copy2Ext instrOffset results value0 value1 = .ok word) :
    word = ⟨instrOffset, .copy2 results value0 value1⟩ := by
  unfold copy2Ext at h
  split at h
  case isTrue => simp at h
  case isFalse => exact (Except.ok.inj h).symm

namespace InstrEncoder

/-- `merge_copy_instrs`. -/
def mergeCopyInstrs (enc : InstrEncoder) (result : Reg) (value : TypedProvider) :
    Except Failure (Option (Nat × InstrEncoder)) :=
  match value, enc.lastInstr with
  | .register value, some lastInstr =>
    match enc.instrs[lastInstr]? with
    | none => .error .panic
    | some ⟨instrOffset, .copy lastResult lastValue⟩ =>
      if result = lastResult.next ∨ result = lastResult.prev then do
        -- the value of the first copy is passed on where the second one reads its result
        let value := if value = lastResult then lastValue else value
        let (mergedResult, value0, value1) :=
          if lastResult < result then (lastResult, lastValue, value)
          else (result, value, lastValue)
        let mergedCopy ← copy2Ext instrOffset ⟨mergedResult⟩ value0 value1
        return some (lastInstr, { enc with instrs := enc.instrs.set lastInstr mergedCopy })
      else .ok none
    | some _ => .ok none
  | _, _ => .ok none

variable (float : FloatOps) (instrOffset : Nat)

/-- `copy_imm` of `encode_copy`: the constant takes a register. -/
def copyImm (consts : FuncLocalConsts) (result : Reg) (value : UntypedVal) :
    Except Failure (Instruction × FuncLocalConsts) := do
  let (cref, consts) ← consts.alloc value
  return (⟨instrOffset, .copy result cref⟩, consts)

/-- The instruction of `encode_copy` for a constant. -/
def copyConst (consts : FuncLocalConsts) (result : Reg) (value : TypedVal) :
    Except Failure (Instruction × FuncLocalConsts) :=
  match value.ty with
  | .i32 | .f32 => .ok (⟨instrOffset, .copyImm32 result value.value.toI32⟩, consts)
  | .i64 =>
    match AnyConst32.ofI64 value.value with
    | some value => .ok (⟨instrOffset, .copyI64Imm32 result value⟩, consts)
    | none => copyImm instrOffset consts result value.value
  | .f64 =>
    match AnyConst32.ofF64 float value.value with
    | some value => .ok (⟨instrOffset, .copyF64Imm32 result value⟩, consts)
    | none => copyImm instrOffset consts result value.value
  | .funcRef | .externRef => copyImm instrOffset consts result value.value

/-- The end of `encode_copy` and of the other single instructions: pays for the instruction and
pushes it. -/
def pushFueled (enc : InstrEncoder) (instr : Instruction) (fuelInfo : FuelInfo) :
    Except Failure (Nat × InstrEncoder) := do
  let enc ← enc.bumpFuelConsumption fuelInfo (·.base)
  enc.pushInstr instr

/-- `encode_copy`. -/
def encodeCopy (enc : InstrEncoder) (consts : FuncLocalConsts) (result : Reg)
    (value : TypedProvider) (fuelInfo : FuelInfo) :
    Except Failure (Option Nat × InstrEncoder × FuncLocalConsts) := do
  match ← enc.mergeCopyInstrs result value with
  | some (merged, enc) => return (some merged, enc, consts)
  | none =>
    match value with
    | .register value =>
      if result = value then return (none, enc, consts)
      let (instr, enc) ← enc.pushFueled ⟨instrOffset, .copy result value⟩ fuelInfo
      return (some instr, enc, consts)
    | .const value =>
      let (instr, consts) ← copyConst float instrOffset consts result value
      let (instr, enc) ← enc.pushFueled instr fuelInfo
      return (some instr, enc, consts)

/-- `has_overlapping_copy_spans`; the iterators panic on an overflowing index. -/
def hasOverlappingCopySpans (results values : RegSpan) (len : Nat) : Except Failure Bool :=
  match results.iter len, values.iter len with
  | some _, some _ => .ok (results.hasOverlappingCopies values len)
  | _, _ => .error .panic

/-- `has_overlapping_copies`. -/
def hasOverlappingCopies (results : BoundedRegSpan) (values : List TypedProvider) :
    Except Failure Bool :=
  if results.len = 0 then .ok false
  else
    match results.iter with
    | none => .error .panic
    | some regs =>
      .ok ((regs.zip values).any fun (result, value) =>
        match value with
        | .register value => results.span.head ≤ value && value < result
        | .const _ => false)

/-- `encode_register_list`. -/
def encodeRegisterList (enc : InstrEncoder) (consts : FuncLocalConsts) :
    List TypedProvider → Except Failure (InstrEncoder × FuncLocalConsts)
  | [] => .ok (enc, consts)
  | [v0] => do
    let (reg0, consts) ← consts.provider2reg v0
    let (_, enc) ← enc.appendInstr ⟨instrOffset, .register reg0⟩
    return (enc, consts)
  | [v0, v1] => do
    let (reg0, consts) ← consts.provider2reg v0
    let (reg1, consts) ← consts.provider2reg v1
    let (_, enc) ← enc.appendInstr ⟨instrOffset, .register2 reg0 reg1⟩
    return (enc, consts)
  | [v0, v1, v2] => do
    let (reg0, consts) ← consts.provider2reg v0
    let (reg1, consts) ← consts.provider2reg v1
    let (reg2, consts) ← consts.provider2reg v2
    let (_, enc) ← enc.appendInstr ⟨instrOffset, .register3 reg0 reg1 reg2⟩
    return (enc, consts)
  | v0 :: v1 :: v2 :: rest => do
    let (reg0, consts) ← consts.provider2reg v0
    let (reg1, consts) ← consts.provider2reg v1
    let (reg2, consts) ← consts.provider2reg v2
    let (_, enc) ← enc.appendInstr ⟨instrOffset, .registerList reg0 reg1 reg2⟩
    encodeRegisterList enc consts rest

/-- The copies of at least three values in `encode_copies`. -/
def encodeCopyMany (enc : InstrEncoder) (consts : FuncLocalConsts) (results : BoundedRegSpan)
    (v0 v1 : TypedProvider) (rest : List TypedProvider) (fuelInfo : FuelInfo) :
    Except Failure (Option Nat × InstrEncoder × FuncLocalConsts) := do
  let enc ← enc.bumpFuelConsumption fuelInfo (·.base)
  let enc ← enc.bumpFuelConsumption fuelInfo (·.fuelForCopies (rest.length + 3))
  match BoundedRegSpan.fromProviders (v0 :: v1 :: rest) with
  | some values =>
    let op := match ← hasOverlappingCopySpans results.span values.span values.len with
      | true => Op.copySpan results.span values.span values.len
      | false => Op.copySpanNonOverlapping results.span values.span values.len
    let (instr, enc) ← enc.pushInstr ⟨instrOffset, op⟩
    return (some instr, enc, consts)
  | none =>
    let overlapping ← hasOverlappingCopies results (v0 :: v1 :: rest)
    let (reg0, consts) ← consts.provider2reg v0
    let (reg1, consts) ← consts.provider2reg v1
    let op := match overlapping with
      | true => Op.copyMany results.span reg0 reg1
      | false => Op.copyManyNonOverlapping results.span reg0 reg1
    let (instr, enc) ← enc.pushInstr ⟨instrOffset, op⟩
    let (enc, consts) ← enc.encodeRegisterList instrOffset consts rest
    return (some instr, enc, consts)

/-- `encode_copies`. -/
def encodeCopies (enc : InstrEncoder) (consts : FuncLocalConsts) (results : BoundedRegSpan)
    (values : List TypedProvider) (fuelInfo : FuelInfo) :
    Except Failure (Option Nat × InstrEncoder × FuncLocalConsts) :=
  if results.len ≠ values.length then .error .panic
  else
    match values with
    | [] => .ok (none, enc, consts)
    | v0 :: rest =>
      let result := results.span.head
      if v0 = .register result then
        encodeCopies enc consts ⟨⟨result.next⟩, results.len - 1⟩ rest fuelInfo
      else
        match rest with
        | [] => enc.encodeCopy float instrOffset consts result v0 fuelInfo
        | [v1] => do
          if v1 = .register result.next then
            enc.encodeCopy float instrOffset consts result v0 fuelInfo
          else
            let (reg0, consts) ← consts.provider2reg v0
            let (reg1, consts) ← consts.provider2reg v1
            let enc ← enc.bumpFuelConsumption fuelInfo (·.base)
            let (instr, enc) ← enc.pushInstr (← copy2Ext instrOffset results.span reg0 reg1)
            return (some instr, enc, consts)
        | v1 :: v2 :: rest => encodeCopyMany instrOffset enc consts results v0 v1 (v2 :: rest) fuelInfo

end InstrEncoder

end MotokoDebugger.Translator
