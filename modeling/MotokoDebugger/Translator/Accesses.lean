import MotokoDebugger.Translator.FuncTranslator

/-!
# Translation of loads and stores

`translate_load`, `translate_istore_wrap` and `translate_fstore` of `translator/mod.rs` and the visitors
of `translator/visit.rs` that call them. A method that the source instantiates with constructors of
instructions takes those constructors.
-/

namespace MotokoDebugger

/-! ## Immediates -/

namespace Const16

/-- `i16::try_from` of an `i32`, as the bits of the immediate. -/
def ofI32 (value : BitVec 32) : Option Const16 :=
  if (value.truncate 16).signExtend 32 = value then some (value.truncate 16) else none

/-- `i16::try_from` of an `i64`. -/
def ofI64 (value : BitVec 64) : Option Const16 :=
  if (value.truncate 16).signExtend 64 = value then some (value.truncate 16) else none

/-- `u16::try_from` of a `u32`. -/
def ofU32 (value : BitVec 32) : Option Const16 :=
  if value.toNat < 2 ^ 16 then some (value.truncate 16) else none

/-- `AnyConst16::from` of an `i8`. -/
def ofI8 (value : BitVec 8) : Const16 := value.zeroExtend 16

end Const16

namespace Translator

/-- `MemArg` of `wasmparser`: the fields that the translation reads. -/
structure MemArg where
  memory : Nat
  offset : Nat
deriving Repr, DecidableEq

namespace FuncTranslator

variable {σ : Type} (stash : MultiStash σ) (translator : FuncTranslator σ) (memarg : MemArg)

/-- `decode_memarg`. -/
def decodeMemarg : Except Failure (Nat × BitVec 32) :=
  if memarg.offset < 2 ^ 32 then .ok (memarg.memory, BitVec.ofNat 32 memarg.offset)
  else .error .panic

/-- `FuncTranslator::effective_address`. -/
def effectiveAddress (ptr offset : BitVec 32) : Option (BitVec 32) :=
  if ptr.toNat + offset.toNat < 2 ^ 32 then some (ptr + offset) else none

/-- The word with the index of the memory, behind an access to a memory that is not the default. -/
def appendMemory (memory : Nat) : Except Failure (FuncTranslator σ) :=
  if memory = 0 then .ok translator else translator.appendInstr (.memoryIndex memory)

/-! ### Loads -/

/-- `translate_load`. -/
def translateLoad (makeInstr : Reg → Nat → Op) (makeInstrOffset16 : Reg → Reg → Const16 → Op)
    (makeInstrAt : Reg → BitVec 32 → Op) : Except Failure (FuncTranslator σ) :=
  if translator.reachable then do
    let (memory, offset) ← decodeMemarg memarg
    let (ptr, stack) ← translator.stack.pop stash
    match ptr with
    | .const ptr =>
      match effectiveAddress ptr.value.toI32 offset with
      | none => (translator.withStack stack).translateTrap .memoryOutOfBounds
      | some address => do
        let (result, stack) ← stack.pushDynamic
        let translator ←
          (translator.withStack stack).pushFueledInstr (makeInstrAt result address) FuelCosts.load
        translator.appendMemory memory
    | .register ptr => do
      let (result, stack) ← stack.pushDynamic
      match if memory = 0 then Const16.ofU32 offset else none with
      | some offset =>
        (translator.withStack stack).pushFueledInstr (makeInstrOffset16 result ptr offset)
          FuelCosts.load
      | none => do
        let translator ←
          (translator.withStack stack).pushFueledInstr (makeInstr result memory) FuelCosts.load
        translator.appendInstr (.registerAndImm32 ptr offset)
  else .ok translator

/-- The visitor of a load operator. -/
def visitI32Load := translateLoad stash translator memarg
  (Op.load .i32Load) (Op.loadOffset16 .i32Load) (Op.loadAt .i32Load)
def visitI64Load := translateLoad stash translator memarg
  (Op.load .i64Load) (Op.loadOffset16 .i64Load) (Op.loadAt .i64Load)
def visitF32Load := translateLoad stash translator memarg
  (Op.load .f32Load) (Op.loadOffset16 .f32Load) (Op.loadAt .f32Load)
def visitF64Load := translateLoad stash translator memarg
  (Op.load .f64Load) (Op.loadOffset16 .f64Load) (Op.loadAt .f64Load)
def visitI32Load8S := translateLoad stash translator memarg
  (Op.load .i32Load8S) (Op.loadOffset16 .i32Load8S) (Op.loadAt .i32Load8S)
def visitI32Load8U := translateLoad stash translator memarg
  (Op.load .i32Load8U) (Op.loadOffset16 .i32Load8U) (Op.loadAt .i32Load8U)
def visitI32Load16S := translateLoad stash translator memarg
  (Op.load .i32Load16S) (Op.loadOffset16 .i32Load16S) (Op.loadAt .i32Load16S)
def visitI32Load16U := translateLoad stash translator memarg
  (Op.load .i32Load16U) (Op.loadOffset16 .i32Load16U) (Op.loadAt .i32Load16U)
def visitI64Load8S := translateLoad stash translator memarg
  (Op.load .i64Load8S) (Op.loadOffset16 .i64Load8S) (Op.loadAt .i64Load8S)
def visitI64Load8U := translateLoad stash translator memarg
  (Op.load .i64Load8U) (Op.loadOffset16 .i64Load8U) (Op.loadAt .i64Load8U)
def visitI64Load16S := translateLoad stash translator memarg
  (Op.load .i64Load16S) (Op.loadOffset16 .i64Load16S) (Op.loadAt .i64Load16S)
def visitI64Load16U := translateLoad stash translator memarg
  (Op.load .i64Load16U) (Op.loadOffset16 .i64Load16U) (Op.loadAt .i64Load16U)
def visitI64Load32S := translateLoad stash translator memarg
  (Op.load .i64Load32S) (Op.loadOffset16 .i64Load32S) (Op.loadAt .i64Load32S)
def visitI64Load32U := translateLoad stash translator memarg
  (Op.load .i64Load32U) (Op.loadOffset16 .i64Load32U) (Op.loadAt .i64Load32U)

/-- The visitor of each load operator. -/
def visitLoad : LoadOp → Except Failure (FuncTranslator σ)
  | .i32Load => visitI32Load stash translator memarg
  | .i64Load => visitI64Load stash translator memarg
  | .f32Load => visitF32Load stash translator memarg
  | .f64Load => visitF64Load stash translator memarg
  | .i32Load8S => visitI32Load8S stash translator memarg
  | .i32Load8U => visitI32Load8U stash translator memarg
  | .i32Load16S => visitI32Load16S stash translator memarg
  | .i32Load16U => visitI32Load16U stash translator memarg
  | .i64Load8S => visitI64Load8S stash translator memarg
  | .i64Load8U => visitI64Load8U stash translator memarg
  | .i64Load16S => visitI64Load16S stash translator memarg
  | .i64Load16U => visitI64Load16U stash translator memarg
  | .i64Load32S => visitI64Load32S stash translator memarg
  | .i64Load32U => visitI64Load32U stash translator memarg

/-! ### Integer stores

`field` is `Field::try_from(Src::from(value).wrap())`: the immediate of a stored constant. -/

section Integer

variable (field : TypedVal → Option Const16)

/-- `translate_istore_wrap_at`. -/
def translateIstoreWrapAt (memory : Nat) (ptr offset : BitVec 32) (value : TypedProvider)
    (makeInstrAt : Reg → BitVec 32 → Op) (makeInstrAtImm : Const16 → BitVec 32 → Op) :
    Except Failure (FuncTranslator σ) :=
  match effectiveAddress ptr offset with
  | none => translator.translateTrap .memoryOutOfBounds
  | some address =>
    match value with
    | .register value => do
      let translator ← translator.pushFueledInstr (makeInstrAt value address) FuelCosts.store
      translator.appendMemory memory
    | .const value =>
      match field value with
      | some value => do
        let translator ← translator.pushFueledInstr (makeInstrAtImm value address) FuelCosts.store
        translator.appendMemory memory
      | none => do
        let (value, stack) ← translator.stack.allocConst value.value
        let translator ←
          (translator.withStack stack).pushFueledInstr (makeInstrAt value address) FuelCosts.store
        translator.appendMemory memory

/-- `translate_istore_wrap_mem0`, where the offset fits in 16 bits. -/
def translateIstoreWrapMem0 (ptr : Reg) (offset16 : Const16) (value : TypedProvider)
    (makeInstrOffset16 : Reg → Const16 → Reg → Op)
    (makeInstrOffset16Imm : Reg → Const16 → Const16 → Op) : Except Failure (FuncTranslator σ) :=
  match value with
  | .register value =>
    translator.pushFueledInstr (makeInstrOffset16 ptr offset16 value) FuelCosts.store
  | .const value =>
    match field value with
    | some value =>
      translator.pushFueledInstr (makeInstrOffset16Imm ptr offset16 value) FuelCosts.store
    | none => do
      let (value, stack) ← translator.stack.allocConst value.value
      (translator.withStack stack).pushFueledInstr (makeInstrOffset16 ptr offset16 value)
        FuelCosts.store

/-- The end of `translate_istore_wrap`: the value and the offset are in a word of their own. -/
def translateIstoreWrapParam (ptr : Reg) (memory : Nat) (offset : BitVec 32) (value : TypedProvider)
    (makeInstr makeInstrImm : Reg → Nat → Op) : Except Failure (FuncTranslator σ) :=
  match value with
  | .register value => do
    let translator ← translator.pushFueledInstr (makeInstr ptr memory) FuelCosts.store
    translator.appendInstr (.registerAndImm32 value offset)
  | .const value =>
    match field value with
    | some value => do
      let translator ← translator.pushFueledInstr (makeInstrImm ptr memory) FuelCosts.store
      translator.appendInstr (.imm16AndImm32 value offset)
    | none => do
      let (value, stack) ← translator.stack.allocConst value.value
      let translator ←
        (translator.withStack stack).pushFueledInstr (makeInstr ptr memory) FuelCosts.store
      translator.appendInstr (.registerAndImm32 value offset)

/-- `translate_istore_wrap`; `translate_istore` calls it with a `field` that does not wrap. -/
def translateIstoreWrap (makeInstr makeInstrImm : Reg → Nat → Op)
    (makeInstrOffset16 : Reg → Const16 → Reg → Op)
    (makeInstrOffset16Imm : Reg → Const16 → Const16 → Op) (makeInstrAt : Reg → BitVec 32 → Op)
    (makeInstrAtImm : Const16 → BitVec 32 → Op) : Except Failure (FuncTranslator σ) :=
  if translator.reachable then do
    let (memory, offset) ← decodeMemarg memarg
    let (ptr, value, stack) ← translator.stack.pop2 stash
    match ptr with
    | .const ptr =>
      (translator.withStack stack).translateIstoreWrapAt field memory ptr.value.toI32 offset value
        makeInstrAt makeInstrAtImm
    | .register ptr =>
      match if memory = 0 then Const16.ofU32 offset else none with
      | some offset16 =>
        (translator.withStack stack).translateIstoreWrapMem0 field ptr offset16 value
          makeInstrOffset16 makeInstrOffset16Imm
      | none =>
        (translator.withStack stack).translateIstoreWrapParam field ptr memory offset value
          makeInstr makeInstrImm
  else .ok translator

end Integer

/-- The immediate of `i32.store`. -/
def i32Field (value : TypedVal) : Option Const16 := Const16.ofI32 value.value.toI32

/-- The immediate of `i64.store`. -/
def i64Field (value : TypedVal) : Option Const16 := Const16.ofI64 value.value

/-- The immediate of `i32.store8` and `i64.store8`: any wrapped value fits. -/
def wrap8Field (value : TypedVal) : Option Const16 :=
  some (Const16.ofI8 (value.value.truncate 8))

/-- The immediate of `i32.store16` and `i64.store16`. -/
def wrap16Field (value : TypedVal) : Option Const16 := some (value.value.truncate 16)

/-- The immediate of `i64.store32`. -/
def wrap32Field (value : TypedVal) : Option Const16 := Const16.ofI32 value.value.toI32

/-- The visitor of an integer store operator. -/
def visitI32Store := translateIstoreWrap stash translator memarg i32Field (Op.store .i32Store)
  (Op.storeImm .i32Store) (Op.storeOffset16 .i32Store) (Op.storeOffset16Imm .i32Store)
  (Op.storeAt .i32Store) (Op.storeAtImm .i32Store)
def visitI64Store := translateIstoreWrap stash translator memarg i64Field (Op.store .i64Store)
  (Op.storeImm .i64Store) (Op.storeOffset16 .i64Store) (Op.storeOffset16Imm .i64Store)
  (Op.storeAt .i64Store) (Op.storeAtImm .i64Store)
def visitI32Store8 := translateIstoreWrap stash translator memarg wrap8Field (Op.store .i32Store8)
  (Op.storeImm .i32Store8) (Op.storeOffset16 .i32Store8) (Op.storeOffset16Imm .i32Store8)
  (Op.storeAt .i32Store8) (Op.storeAtImm .i32Store8)
def visitI32Store16 := translateIstoreWrap stash translator memarg wrap16Field
  (Op.store .i32Store16) (Op.storeImm .i32Store16) (Op.storeOffset16 .i32Store16)
  (Op.storeOffset16Imm .i32Store16) (Op.storeAt .i32Store16) (Op.storeAtImm .i32Store16)
def visitI64Store8 := translateIstoreWrap stash translator memarg wrap8Field (Op.store .i64Store8)
  (Op.storeImm .i64Store8) (Op.storeOffset16 .i64Store8) (Op.storeOffset16Imm .i64Store8)
  (Op.storeAt .i64Store8) (Op.storeAtImm .i64Store8)
def visitI64Store16 := translateIstoreWrap stash translator memarg wrap16Field
  (Op.store .i64Store16) (Op.storeImm .i64Store16) (Op.storeOffset16 .i64Store16)
  (Op.storeOffset16Imm .i64Store16) (Op.storeAt .i64Store16) (Op.storeAtImm .i64Store16)
def visitI64Store32 := translateIstoreWrap stash translator memarg wrap32Field
  (Op.store .i64Store32) (Op.storeImm .i64Store32) (Op.storeOffset16 .i64Store32)
  (Op.storeOffset16Imm .i64Store32) (Op.storeAt .i64Store32) (Op.storeAtImm .i64Store32)

/-! ### Float stores -/

/-- `translate_fstore_at`. -/
def translateFstoreAt (memory : Nat) (ptr offset : BitVec 32) (value : TypedProvider)
    (makeInstrAt : Reg → BitVec 32 → Op) : Except Failure (FuncTranslator σ) :=
  match effectiveAddress ptr offset with
  | none => translator.translateTrap .memoryOutOfBounds
  | some address => do
    let (value, stack) ← translator.stack.provider2reg value
    let translator ←
      (translator.withStack stack).pushFueledInstr (makeInstrAt value address) FuelCosts.store
    translator.appendMemory memory

/-- `translate_fstore`. -/
def translateFstore (makeInstr : Reg → Nat → Op) (makeInstrOffset16 : Reg → Const16 → Reg → Op)
    (makeInstrAt : Reg → BitVec 32 → Op) : Except Failure (FuncTranslator σ) :=
  if translator.reachable then do
    let (memory, offset) ← decodeMemarg memarg
    let (ptr, value, stack) ← translator.stack.pop2 stash
    match ptr with
    | .const ptr =>
      (translator.withStack stack).translateFstoreAt memory ptr.value.toI32 offset value makeInstrAt
    | .register ptr => do
      let (value, stack) ← stack.provider2reg value
      match if memory = 0 then Const16.ofU32 offset else none with
      | some offset =>
        (translator.withStack stack).pushFueledInstr (makeInstrOffset16 ptr offset value)
          FuelCosts.store
      | none => do
        let translator ←
          (translator.withStack stack).pushFueledInstr (makeInstr ptr memory) FuelCosts.store
        translator.appendInstr (.registerAndImm32 value offset)
  else .ok translator

/-- The visitor of a float store operator. -/
def visitF32Store := translateFstore stash translator memarg
  (Op.store .f32Store) (Op.storeOffset16 .f32Store) (Op.storeAt .f32Store)
def visitF64Store := translateFstore stash translator memarg
  (Op.store .f64Store) (Op.storeOffset16 .f64Store) (Op.storeAt .f64Store)

/-- The visitor of each store operator. -/
def visitStore : StoreOp → Except Failure (FuncTranslator σ)
  | .i32Store => visitI32Store stash translator memarg
  | .i64Store => visitI64Store stash translator memarg
  | .f32Store => visitF32Store stash translator memarg
  | .f64Store => visitF64Store stash translator memarg
  | .i32Store8 => visitI32Store8 stash translator memarg
  | .i32Store16 => visitI32Store16 stash translator memarg
  | .i64Store8 => visitI64Store8 stash translator memarg
  | .i64Store16 => visitI64Store16 stash translator memarg
  | .i64Store32 => visitI64Store32 stash translator memarg

end FuncTranslator

end Translator

end MotokoDebugger
