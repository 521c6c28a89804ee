import MotokoDebugger.Debugger.Session

/-!
# Values on the Motoko heap

`debugger/src/heap.rs`: how the debugger shows a value that is a pointer into the heap, by the tag
of the object it points to. The recursion takes a bound on its depth and stops as `starved` where
it does not suffice.

* `Tagged`, `HeapM`: the tags, and computations on the executor and the store.
* `displayLocalInHeap`, `displayWasmVal`: an object of the heap, and an element of an array.
* `displayValtypeWithValue`: a local of the function that is executed.
-/

namespace MotokoDebugger

open StateExcept Executor

variable {T : Type}

/-! ## Texts -/

/-- The derived `Debug` of `TrapCode`. -/
def TrapCode.debug : TrapCode → String
  | .unreachableCodeReached => "UnreachableCodeReached"
  | .memoryOutOfBounds => "MemoryOutOfBounds"
  | .tableOutOfBounds => "TableOutOfBounds"
  | .indirectCallToNull => "IndirectCallToNull"
  | .integerDivisionByZero => "IntegerDivisionByZero"
  | .integerOverflow => "IntegerOverflow"
  | .badConversionToInteger => "BadConversionToInteger"
  | .stackOverflow => "StackOverflow"
  | .badSignature => "BadSignature"
  | .outOfFuel => "OutOfFuel"
  | .growthOperationLimited => "GrowthOperationLimited"

namespace ValType

/-- The derived `Debug` of `ValType`. -/
def debug : ValType → String
  | .i32 => "I32"
  | .i64 => "I64"
  | .f32 => "F32"
  | .f64 => "F64"
  | .funcRef => "FuncRef"
  | .externRef => "ExternRef"

/-- `ValType::is_num`. -/
def isNum : ValType → Bool
  | .i32 | .i64 | .f32 | .f64 => true
  | .funcRef | .externRef => false

/-- `ValType::is_float`. -/
def isFloat : ValType → Bool
  | .f32 | .f64 => true
  | _ => false

end ValType

/-- The derived `Debug` of `UntypedVal`. -/
def UntypedVal.debug (value : UntypedVal) : String :=
  "UntypedVal \x7b bits: " ++ toString value.toNat ++ " \x7d"

/-- The texts of the numbers `f32` and `f64`, with `{:?}` and `{}`, and those of references. -/
structure Texts where
  debugF32 : BitVec 32 → String
  displayF32 : BitVec 32 → String
  debugF64 : BitVec 64 → String
  displayF64 : BitVec 64 → String
  debugRef : ValType → UntypedVal → String

/-- `f32::is_nan`: the exponent is full and the mantissa is not empty. -/
def isNanF32 (bits : BitVec 32) : Bool := decide (0x7f800000 < bits.toNat % 2 ^ 31)

/-- `f64::is_nan`. -/
def isNanF64 (bits : BitVec 64) : Bool := decide (0x7ff0000000000000 < bits.toNat % 2 ^ 63)

/-- A number as `{:X}`. -/
def hexUpper (n : Nat) : String := String.ofList ((Nat.toDigits 16 n).map Char.toUpper)

namespace Texts

/-- `Debug` of `F32`. -/
def f32 (texts : Texts) (bits : BitVec 32) : String :=
  if isNanF32 bits then "nan:0x" ++ hexUpper bits.toNat else texts.debugF32 bits

/-- `Debug` of `F64`. -/
def f64 (texts : Texts) (bits : BitVec 64) : String :=
  if isNanF64 bits then "nan:0x" ++ hexUpper bits.toNat else texts.debugF64 bits

/-- The derived `Debug` of `Val`. -/
def val (texts : Texts) (value : Val) : String :=
  match value.ty with
  | .i32 => "I32(" ++ toString value.bits.toI32.toInt ++ ")"
  | .i64 => "I64(" ++ toString value.bits.toInt ++ ")"
  | .f32 => "F32(" ++ texts.f32 value.bits.toI32 ++ ")"
  | .f64 => "F64(" ++ texts.f64 value.bits ++ ")"
  | ty => texts.debugRef ty value.bits

end Texts

/-! ## Tags -/

/-- `Tagged`. -/
inductive Tagged where
  | object
  | arrayT
  | arrayVarT
  | arrayTuple
  | arrayShared
  | bits64Signed
  | bits64Unsigned
  | bits64Float
  | mutBox
  | closure
  | some
  | variant
  | blobBlob
  | blobText
  | blobPrincipal
  | blobActor
  | indirection
  | bigInt
  | concat
  | region
  | bits32Signed
  | bits32Unsigned
  | bits32Float
  | null
  | oneWordFiller
  | freeSpace
  | arraySliceMinimum
  | coercionFailure
  | stableSeen
deriving Repr, DecidableEq

namespace Tagged

/-- `Tagged::from_u64`. -/
def fromU64 (value : Nat) : Except String Tagged :=
  match value with
  | 1 => .ok object
  | 3 => .ok arrayT
  | 5 => .ok arrayVarT
  | 7 => .ok arrayTuple
  | 9 => .ok arrayShared
  | 11 => .ok bits64Signed
  | 13 => .ok bits64Unsigned
  | 15 => .ok bits64Float
  | 17 => .ok mutBox
  | 19 => .ok closure
  | 21 => .ok some
  | 23 => .ok variant
  | 25 => .ok blobBlob
  | 27 => .ok blobText
  | 29 => .ok blobPrincipal
  | 31 => .ok blobActor
  | 33 => .ok indirection
  | 35 => .ok bigInt
  | 37 => .ok concat
  | 39 => .ok region
  | 41 => .ok bits32Signed
  | 43 => .ok bits32Unsigned
  | 45 => .ok bits32Float
  | 47 => .ok null
  | 49 => .ok oneWordFiller
  | 51 => .ok freeSpace
  | 52 => .ok arraySliceMinimum
  | 0xfffffffe => .ok coercionFailure
  | 0xffffffff => .ok stableSeen
  | _ => .error ("Unknown tag value: " ++ toString value)

/-- The derived `Debug`. -/
def debug : Tagged → String
  | object => "Object"
  | arrayT => "ArrayT"
  | arrayVarT => "ArrayVarT"
  | arrayTuple => "ArrayTuple"
  | arrayShared => "ArrayShared"
  | bits64Signed => "Bits64Signed"
  | bits64Unsigned => "Bits64Unsigned"
  | bits64Float => "Bits64Float"
  | mutBox => "MutBox"
  | closure => "Closure"
  | some => "Some"
  | variant => "Variant"
  | blobBlob => "BlobBlob"
  | blobText => "BlobText"
  | blobPrincipal => "BlobPrincipal"
  | blobActor => "BlobActor"
  | indirection => "Indirection"
  | bigInt => "BigInt"
  | concat => "Concat"
  | region => "Region"
  | bits32Signed => "Bits32Signed"
  | bits32Unsigned => "Bits32Unsigned"
  | bits32Float => "Bits32Float"
  | null => "Null"
  | oneWordFiller => "OneWordFiller"
  | freeSpace => "FreeSpace"
  | arraySliceMinimum => "ArraySliceMinimum"
  | coercionFailure => "CoercionFailure"
  | stableSeen => "StableSeen"

end Tagged

def TAG_OFFSET : BitVec 32 := 1
def DATA_OFFSET : BitVec 32 := 4
def ARRAY_VAR_T_DATA_OFFSET : BitVec 32 := 8

/-! ## Reading the heap -/

/-- Why a display does not return: it stops like a step of the executor, or it has descended as
far as it was allowed to. -/
inductive HeapStop where
  | stopped (stop : Stop)
  | starved
deriving Repr, DecidableEq

/-- A computation on the executor and the store that the display borrows. -/
abbrev HeapM (T : Type) := EStateM HeapStop (Local T)

/-- What the display uses beside the executor: `Func::call` for one result, with the store it
leaves, and the texts. -/
structure HeapEnv (T : Type) where
  call : (func : Nat) → List Val → Val → Store T → Except String Val × Store T
  texts : Texts

/-- The functions of the program that convert big integers, if it has them. -/
structure BigintFuncs where
  toFloat64 : Option Nat
  toWord64Wrap : Option Nat
  toWord32Wrap : Option Nat
deriving Repr, DecidableEq

/-- The call of a display without such functions. -/
def BigintFuncs.none : BigintFuncs := ⟨.none, .none, .none⟩

namespace HeapM

/-- An `anyhow` error. -/
def error {α : Type} (text : String) : HeapM T α := throw (.stopped (.fault (.message text)))

/-- A panic. -/
def panic {α : Type} : HeapM T α := throw (.stopped .panic)

/-- A step on the executor. -/
def ofLocal {α : Type} (x : LocalM T α) : HeapM T α := fun l =>
  match x l with
  | .ok a l' => .ok a l'
  | .error stop l' => .error (.stopped stop) l'

/-- What a `match` does that answers an error of `x` with a text. -/
def orText (x : HeapM T String) (text : String) : HeapM T String := fun l =>
  match x l with
  | .error (.stopped (.fault _)) l' => .ok text l'
  | result => result

end HeapM

namespace Debugger

/-- The bytes of the default memory. -/
def fetchMemoryBytes : HeapM T (List Byte) := do
  return bytesOf (← HeapM.ofLocal (fetchMemory 0))

/-- `load_i32_from_heap` and its siblings. -/
def loadWith (op : LoadOp) (memory : List Byte) (address : UntypedVal) (offset : BitVec 32) :
    HeapM T UntypedVal :=
  match op.eval memory address offset with
  | .ok value => pure value
  | .error code => HeapM.error code.debug

/-- The load operator for the values of a type. -/
def heapLoadOp : ValType → Option LoadOp
  | .i32 => some .i32Load
  | .i64 => some .i64Load
  | .f32 => some .f32Load
  | .f64 => some .f64Load
  | _ => none

/-- `load_from_heap`. -/
def loadFromHeap (memory : List Byte) (address : UntypedVal) (offset : BitVec 32)
    (valType : ValType) : HeapM T UntypedVal :=
  match heapLoadOp valType with
  | some op => loadWith op memory address offset
  | none => HeapM.error ("Unsupported heap type: " ++ valType.debug)

/-- `get_heap_type_size`; `none` is a panic. -/
def getHeapTypeSize : ValType → Option Nat
  | .i32 => some 4
  | .i64 => some 8
  | .f32 => some 4
  | .f64 => some 8
  | _ => none

/-! ## The handlers -/

section Handlers

variable (env : HeapEnv T)

/-- The text of the result of a call. -/
def callText (func : Nat) (inputs : List Val) (output : Val) : HeapM T String := fun l =>
  match env.call func inputs output l.store with
  | (.ok result, store) => .ok (env.texts.val result) { l with store }
  | (.error text, store) => .error (.stopped (.fault (.message text))) { l with store }

/-- `handle_bigint`. A function that is missing is expected to be there. -/
def handleBigint (address : UntypedVal) (valType : ValType) (funcs : BigintFuncs) :
    HeapM T String :=
  match valType with
  | .f64 =>
    match funcs.toFloat64 with
    | some func => callText env func [⟨.f64, address⟩] ⟨.f64, 0⟩
    | none => HeapM.panic
  | .i32 =>
    match funcs.toWord32Wrap with
    | some func =>
      callText env func [⟨.i32, .ofI32 address.toI32⟩, ⟨.i32, 2097319⟩] ⟨.i32, 0⟩
    | none => HeapM.panic
  | .i64 =>
    match funcs.toWord64Wrap with
    | some func => callText env func [⟨.i64, address⟩] ⟨.i64, 0⟩
    | none => HeapM.panic
  | _ => HeapM.error ("Unsupported value type: " ++ valType.debug)

/-- `handle_mut_box`. -/
def handleMutBox (memory : List Byte) (address : UntypedVal) : HeapM T String := do
  let len ← loadWith .i32Load memory address (TAG_OFFSET + DATA_OFFSET)
  return len.debug

/-- `handle_f64`. -/
def handleF64 (memory : List Byte) (address : UntypedVal) : HeapM T String := do
  let loadedValue ← loadWith .f64Load memory address (TAG_OFFSET + DATA_OFFSET)
  return env.texts.debugF64 loadedValue

/-- `handle_f32`. -/
def handleF32 (memory : List Byte) (address : UntypedVal) : HeapM T String := do
  let loadedValue ← loadWith .f32Load memory address (TAG_OFFSET + DATA_OFFSET)
  return env.texts.debugF32 loadedValue.toI32

/-- `handle_variant`. -/
def handleVariant (memory : List Byte) (address : UntypedVal) : HeapM T String := do
  let variantTag ← loadWith .i32Load memory address (TAG_OFFSET + DATA_OFFSET)
  return "variant tag: " ++ variantTag.debug ++ ", value not supported yet"

/-- The loop of `handle_blob_text` from the byte `i` on: each byte is cast to a character. -/
def blobChars (memory : List Byte) (address : UntypedVal) (i : Nat) : Nat → HeapM T String
  | 0 => return ""
  | count + 1 => do
    let offset := TAG_OFFSET + ARRAY_VAR_T_DATA_OFFSET + BitVec.ofNat 32 i
    let loadedChar ← loadWith .i32Load8U memory address offset
    let rest ← blobChars memory address (i + 1) count
    return String.singleton (Char.ofNat (loadedChar.toNat % 256)) ++ rest

/-- `handle_blob_text`. -/
def handleBlobText (memory : List Byte) (address : UntypedVal) : HeapM T String := do
  let len ← loadWith .i32Load memory address (TAG_OFFSET + DATA_OFFSET)
  blobChars memory address 0 len.toNat

/-- `handle_concat`, with the display of the texts. -/
def handleConcat (display : UntypedVal → ValType → BigintFuncs → HeapM T String)
    (memory : List Byte) (address : UntypedVal) : HeapM T String := do
  let _hashTab ← loadWith .i32Load memory address (TAG_OFFSET + DATA_OFFSET)
  let text1 ← loadWith .i32Load memory address (TAG_OFFSET + ARRAY_VAR_T_DATA_OFFSET)
  let text2 ← loadWith .i32Load memory address (TAG_OFFSET + ARRAY_VAR_T_DATA_OFFSET + 4)
  let text1Str ← display text1 .i32 .none
  let text2Str ← display text2 .i32 .none
  return text1Str ++ text2Str

/-- `display_wasm_val`, with the display of a pointer. An error of that display is answered with
the bits as a float. -/
def displayWasmVal (display : UntypedVal → ValType → BigintFuncs → HeapM T String)
    (val : UntypedVal) (valType : ValType) (isFloat : Bool) (funcs : BigintFuncs) :
    HeapM T String :=
  if val &&& 1 = 0 ∧ isFloat = false then
    let val : UntypedVal := val >>> 1
    match valType with
    | .i32 => pure (toString val.toI32.toInt)
    | .i64 => pure (toString val.toInt)
    | .f32 => pure (env.texts.displayF32 val.toI32)
    | .f64 => pure (env.texts.displayF64 val)
    | _ => HeapM.panic
  else (display val valType funcs).orText (env.texts.displayF64 val)

/-- The loop of `handle_array_var_t` from the element `i` on. -/
def arrayElements (display : UntypedVal → ValType → BigintFuncs → HeapM T String)
    (memory : List Byte) (address : UntypedVal) (valType : ValType) (funcs : BigintFuncs)
    (i : Nat) : Nat → HeapM T String
  | 0 => return ""
  | count + 1 => do
    match getHeapTypeSize valType with
    | none => HeapM.panic
    | some size =>
      let offset := TAG_OFFSET + ARRAY_VAR_T_DATA_OFFSET + BitVec.ofNat 32 (i * size)
      let loadedValue ← loadFromHeap memory address offset valType
      let text ← displayWasmVal env display loadedValue valType valType.isFloat funcs
      let rest ← arrayElements display memory address valType funcs (i + 1) count
      return text ++ ", " ++ rest

/-- `handle_array_var_t`. -/
def handleArrayVarT (display : UntypedVal → ValType → BigintFuncs → HeapM T String)
    (memory : List Byte) (address : UntypedVal) (valType : ValType) (funcs : BigintFuncs) :
    HeapM T String := do
  let len ← loadWith .i32Load memory address (TAG_OFFSET + DATA_OFFSET)
  let elements ← arrayElements env display memory address valType funcs 0 len.toI32.toNat
  return "[" ++ elements ++ "]"

/-! ## The display -/

/-- The handler for a tag. -/
def handleTagged (display : UntypedVal → ValType → BigintFuncs → HeapM T String)
    (memory : List Byte) (address : UntypedVal) (valType : ValType) (funcs : BigintFuncs) :
    Tagged → HeapM T String
  | .arrayVarT | .arrayT => handleArrayVarT env display memory address valType funcs
  | .mutBox => handleMutBox memory address
  | .bigInt => handleBigint env address valType funcs
  | .bits64Float => handleF64 env memory address
  | .bits32Float => handleF32 env memory address
  | .blobText => handleBlobText memory address
  | .concat => handleConcat display memory address
  | .variant => handleVariant memory address
  | tagged => return "HeapAddress: " ++ toString address.toNat ++ ", tagged: " ++ tagged.debug ++
      ", " ++ valType.debug

/-- `display_local_in_heap`, for objects nested at most as deep as the first argument says. -/
def displayLocalInHeap : Nat → UntypedVal → ValType → BigintFuncs → HeapM T String
  | 0, _, _, _ => throw .starved
  | depth + 1, address, valType, funcs => do
    let memory ← fetchMemoryBytes
    let loadedValue ← loadWith .i32Load memory address TAG_OFFSET
    match Tagged.fromU64 loadedValue.toNat with
    | .error text => HeapM.error text
    | .ok tagged =>
      handleTagged env (displayLocalInHeap depth) memory address valType funcs tagged

end Handlers

/-! ## Locals -/

/-- `MainDebugger::display_val_in_stack`. -/
def displayValInStack (texts : Texts) (ty : ValType) (value : UntypedVal) (shr : Nat) : String :=
  let dividedValue := value >>> shr
  match ty with
  | .i32 => texts.val ⟨.i32, dividedValue⟩
  | .i64 => texts.val ⟨.i64, dividedValue⟩
  | .f32 => texts.val ⟨.f32, value⟩
  | .f64 => texts.val ⟨.f64, value⟩
  | ty => "Unsupported type " ++ ty.debug

/-- The answer of the debugger to what a display comes to; `none` where it was starved. -/
def answerDisplay (x : HeapM T String) (text : String) : DbgM T (Option String) := fun s =>
  match x s.machine.toLocal with
  | .ok shown l => .ok (some shown) { s with machine := s.machine.withLocal l }
  | .error (.stopped (.fault _)) l => .ok (some text) { s with machine := s.machine.withLocal l }
  | .error (.stopped stop) l => .error stop { s with machine := s.machine.withLocal l }
  | .error .starved l => .ok none { s with machine := s.machine.withLocal l }

/-- The functions that the display of a pointer is given. -/
def lookupBigintFuncs : DbgM T BigintFuncs := do
  let toFloat64 ← lookupFuncByName "bigint_to_float64"
  let toWord64Wrap ← lookupFuncByName "bigint_to_word64_wrap"
  let toWord32Wrap ← lookupFuncByName "bigint_to_word32_trap_with"
  return ⟨toFloat64, toWord64Wrap, toWord32Wrap⟩

/-- `MainDebugger::display_valtype_with_value`. A value with a set lowest bit is taken for a
pointer, whatever its type. -/
def displayValtypeWithValue (env : HeapEnv T) (depth : Nat) (ty : ValType) (value : UntypedVal) :
    DbgM T (Option String) := do
  if value &&& 1 = 0 then
    return some (displayValInStack env.texts ty value 1)
  else if ty.isNum then
    requireExecutor
    let funcs ← lookupBigintFuncs
    answerDisplay (displayLocalInHeap env depth value ty funcs)
      (displayValInStack env.texts ty value 0)
  else
    return some ("Unsupported type " ++ ty.debug)

end Debugger

end MotokoDebugger
