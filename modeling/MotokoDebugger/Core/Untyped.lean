import MotokoDebugger.Core.Trap

/-!
# Untyped values and the Wasm operators on them

A cell of the value stack is 64 bits wide and carries no type (`core/src/untyped.rs`). The integer
operators are defined on bit vectors; floating point arithmetic is a parameter (`FloatOps`).

* `UntypedVal`, its conversions, and the operator enumerations with their meaning.
* `LoadOp`, `StoreOp`: the memory accesses, on little-endian bytes.
-/

namespace MotokoDebugger

/-- A 64-bit cell of the value stack. -/
abbrev UntypedVal := BitVec 64

/-- A byte of a linear memory. -/
abbrev Byte := BitVec 8

namespace UntypedVal

/-- `i32::from(UntypedVal)`, also used for `u32`: the low 32 bits. -/
def toI32 (value : UntypedVal) : BitVec 32 := value.truncate 32

/-- `UntypedVal::from(i32)` and `UntypedVal::from(u32)`: the upper half is zero. -/
def ofI32 (value : BitVec 32) : UntypedVal := value.zeroExtend 64

/-- `UntypedVal::from(bool)`. -/
def ofBool (value : Bool) : UntypedVal := if value then 1 else 0

/-- `bool::from(UntypedVal)`: any non-zero cell is true. -/
def toBool (value : UntypedVal) : Bool := value ≠ 0

/-- `execute_binary` at `i32`. -/
def lift32 (op : BitVec 32 → BitVec 32 → BitVec 32) (lhs rhs : UntypedVal) : UntypedVal :=
  ofI32 (op lhs.toI32 rhs.toI32)

end UntypedVal

open UntypedVal

/-! ## Immediates -/

/-- The Rust type a 16-bit immediate is converted to. -/
inductive ImmType where
  | i32
  | u32
  | i64
  | u64
deriving Repr, DecidableEq

/-- A 16-bit immediate `Const16<T>`, as the bits of its `AnyConst16`. -/
abbrev Const16 := BitVec 16

/-- A 32-bit immediate, as the bits of its `AnyConst32`. -/
abbrev AnyConst32 := BitVec 32

/-- `UntypedVal::from(T::from(Const16<T>))`. -/
def Const16.toUntyped (ty : ImmType) (value : Const16) : UntypedVal :=
  match ty with
  | .i32 => ofI32 (value.signExtend 32)
  | .u32 => value.zeroExtend 64
  | .i64 => value.signExtend 64
  | .u64 => value.zeroExtend 64

/-- `u32::from(Const16<u32>)`. -/
def Const16.toU32 (value : Const16) : Nat := value.toNat

/-- `UntypedVal::from(i64::from(Const32<i64>))`. -/
def AnyConst32.toI64 (value : AnyConst32) : UntypedVal := value.signExtend 64

/-! ## Integer operators -/

/-- The unary integer operators. -/
inductive IntUnaryOp where
  | i32Clz | i32Ctz | i32Popcnt
  | i64Clz | i64Ctz | i64Popcnt
  | i32WrapI64 | i32Extend8S | i32Extend16S
  | i64Extend8S | i64Extend16S | i64Extend32S
deriving Repr, DecidableEq

def IntUnaryOp.eval (op : IntUnaryOp) (value : UntypedVal) : UntypedVal :=
  match op with
  | .i32Clz => ofI32 value.toI32.clz
  | .i32Ctz => ofI32 value.toI32.ctz
  | .i32Popcnt => ofI32 value.toI32.cpop
  | .i64Clz => value.clz
  | .i64Ctz => value.ctz
  | .i64Popcnt => value.cpop
  | .i32WrapI64 => ofI32 value.toI32
  | .i32Extend8S => ofI32 ((value.truncate 8).signExtend 32)
  | .i32Extend16S => ofI32 ((value.truncate 16).signExtend 32)
  | .i64Extend8S => (value.truncate 8).signExtend 64
  | .i64Extend16S => (value.truncate 16).signExtend 64
  | .i64Extend32S => (value.truncate 32).signExtend 64

/-- The binary integer operators whose immediate form has the immediate on the right. -/
inductive ArithOp where
  | i32Add | i32Mul | i32And | i32AndEqz | i32Or | i32OrEqz | i32Xor | i32XorEqz
  | i64Add | i64Mul | i64And | i64Or | i64Xor
deriving Repr, DecidableEq

def ArithOp.eval (op : ArithOp) (lhs rhs : UntypedVal) : UntypedVal :=
  match op with
  | .i32Add => lift32 (· + ·) lhs rhs
  | .i32Mul => lift32 (· * ·) lhs rhs
  | .i32And => lift32 (· &&& ·) lhs rhs
  | .i32AndEqz => ofBool ((lhs.toI32 &&& rhs.toI32) = 0)
  | .i32Or => lift32 (· ||| ·) lhs rhs
  | .i32OrEqz => ofBool ((lhs.toI32 ||| rhs.toI32) = 0)
  | .i32Xor => lift32 (· ^^^ ·) lhs rhs
  | .i32XorEqz => ofBool ((lhs.toI32 ^^^ rhs.toI32) = 0)
  | .i64Add => lhs + rhs
  | .i64Mul => lhs * rhs
  | .i64And => lhs &&& rhs
  | .i64Or => lhs ||| rhs
  | .i64Xor => lhs ^^^ rhs

def ArithOp.immType : ArithOp → ImmType
  | .i32Add | .i32Mul | .i32And | .i32AndEqz | .i32Or | .i32OrEqz | .i32Xor | .i32XorEqz => .i32
  | .i64Add | .i64Mul | .i64And | .i64Or | .i64Xor => .i64

/-- The subtractions; their immediate form has the immediate on the left. -/
inductive SubOp where
  | i32Sub | i64Sub
deriving Repr, DecidableEq

def SubOp.eval (op : SubOp) (lhs rhs : UntypedVal) : UntypedVal :=
  match op with
  | .i32Sub => lift32 (· - ·) lhs rhs
  | .i64Sub => lhs - rhs

def SubOp.immType : SubOp → ImmType
  | .i32Sub => .i32
  | .i64Sub => .i64

/-- The shift and rotate operators. -/
inductive ShiftOp where
  | i32Shl | i32ShrU | i32ShrS | i32Rotl | i32Rotr
  | i64Shl | i64ShrU | i64ShrS | i64Rotl | i64Rotr
deriving Repr, DecidableEq

/-- The shift amount is taken modulo the bit width of the operator. -/
def ShiftOp.eval (op : ShiftOp) (lhs rhs : UntypedVal) : UntypedVal :=
  match op with
  | .i32Shl => ofI32 (lhs.toI32 <<< (rhs.toI32.toNat % 32))
  | .i32ShrU => ofI32 (lhs.toI32 >>> (rhs.toI32.toNat % 32))
  | .i32ShrS => ofI32 (lhs.toI32.sshiftRight (rhs.toI32.toNat % 32))
  | .i32Rotl => ofI32 (lhs.toI32.rotateLeft rhs.toI32.toNat)
  | .i32Rotr => ofI32 (lhs.toI32.rotateRight rhs.toI32.toNat)
  | .i64Shl => lhs <<< (rhs.toNat % 64)
  | .i64ShrU => lhs >>> (rhs.toNat % 64)
  | .i64ShrS => lhs.sshiftRight (rhs.toNat % 64)
  | .i64Rotl => lhs.rotateLeft (rhs.toNat % 2 ^ 32)
  | .i64Rotr => lhs.rotateRight (rhs.toNat % 2 ^ 32)

def ShiftOp.immType : ShiftOp → ImmType
  | .i32Shl | .i32ShrU | .i32ShrS | .i32Rotl | .i32Rotr => .i32
  | .i64Shl | .i64ShrU | .i64ShrS | .i64Rotl | .i64Rotr => .i64

/-- The division and remainder operators, which can trap. -/
inductive DivRemOp where
  | i32DivS | i32DivU | i32RemS | i32RemU
  | i64DivS | i64DivU | i64RemS | i64RemU
deriving Repr, DecidableEq

/-- `Integer::div` for a signed type: the quotient of the least value by `-1` overflows. -/
def divS {w : Nat} (lhs rhs : BitVec w) : Except TrapCode (BitVec w) :=
  if rhs = 0 then .error .integerDivisionByZero
  else if lhs.sdivOverflow rhs then .error .integerOverflow
  else .ok (lhs.sdiv rhs)

/-- `Integer::div` for an unsigned type. -/
def divU {w : Nat} (lhs rhs : BitVec w) : Except TrapCode (BitVec w) :=
  if rhs = 0 then .error .integerDivisionByZero else .ok (lhs / rhs)

/-- `Integer::rem` for a signed type (`wrapping_rem`). -/
def remS {w : Nat} (lhs rhs : BitVec w) : Except TrapCode (BitVec w) :=
  if rhs = 0 then .error .integerDivisionByZero else .ok (lhs.srem rhs)

/-- `Integer::rem` for an unsigned type. -/
def remU {w : Nat} (lhs rhs : BitVec w) : Except TrapCode (BitVec w) :=
  if rhs = 0 then .error .integerDivisionByZero else .ok (lhs % rhs)

def DivRemOp.eval (op : DivRemOp) (lhs rhs : UntypedVal) : Except TrapCode UntypedVal :=
  match op with
  | .i32DivS => (divS lhs.toI32 rhs.toI32).map ofI32
  | .i32DivU => (divU lhs.toI32 rhs.toI32).map ofI32
  | .i32RemS => (remS lhs.toI32 rhs.toI32).map ofI32
  | .i32RemU => (remU lhs.toI32 rhs.toI32).map ofI32
  | .i64DivS => divS lhs rhs
  | .i64DivU => divU lhs rhs
  | .i64RemS => remS lhs rhs
  | .i64RemU => remU lhs rhs

def DivRemOp.immType : DivRemOp → ImmType
  | .i32DivS | .i32RemS => .i32
  | .i32DivU | .i32RemU => .u32
  | .i64DivS | .i64RemS => .i64
  | .i64DivU | .i64RemU => .u64

/-- `DivRemExt`: the operators with a non-zero immediate divisor. `checked_div` and `checked_rem`
both fail where the quotient overflows. -/
def DivRemOp.evalNonZero (op : DivRemOp) (lhs rhs : UntypedVal) : Except TrapCode UntypedVal :=
  match op with
  | .i32DivS => checked (lhs.toI32.sdivOverflow rhs.toI32) (ofI32 (lhs.toI32.sdiv rhs.toI32))
  | .i32RemS => checked (lhs.toI32.sdivOverflow rhs.toI32) (ofI32 (lhs.toI32.srem rhs.toI32))
  | .i32DivU => .ok (ofI32 (lhs.toI32 / rhs.toI32))
  | .i32RemU => .ok (ofI32 (lhs.toI32 % rhs.toI32))
  | .i64DivS => checked (lhs.sdivOverflow rhs) (lhs.sdiv rhs)
  | .i64RemS => checked (lhs.sdivOverflow rhs) (lhs.srem rhs)
  | .i64DivU => .ok (lhs / rhs)
  | .i64RemU => .ok (lhs % rhs)
where
  checked (overflow : Bool) (result : UntypedVal) : Except TrapCode UntypedVal :=
    if overflow then .error .integerOverflow else .ok result

/-! ## Comparisons -/

/-- The binary integer comparison operators. -/
inductive IntComparison where
  | i32Eq | i32Ne | i32LtS | i32LtU | i32LeS | i32LeU | i32GtS | i32GtU | i32GeS | i32GeU
  | i64Eq | i64Ne | i64LtS | i64LtU | i64LeS | i64LeU | i64GtS | i64GtU | i64GeS | i64GeU
deriving Repr, DecidableEq

def IntComparison.eval (op : IntComparison) (lhs rhs : UntypedVal) : Bool :=
  match op with
  | .i32Eq => lhs.toI32 = rhs.toI32
  | .i32Ne => lhs.toI32 ≠ rhs.toI32
  | .i32LtS => lhs.toI32.slt rhs.toI32
  | .i32LtU => lhs.toI32.ult rhs.toI32
  | .i32LeS => lhs.toI32.sle rhs.toI32
  | .i32LeU => lhs.toI32.ule rhs.toI32
  | .i32GtS => rhs.toI32.slt lhs.toI32
  | .i32GtU => rhs.toI32.ult lhs.toI32
  | .i32GeS => rhs.toI32.sle lhs.toI32
  | .i32GeU => rhs.toI32.ule lhs.toI32
  | .i64Eq => lhs = rhs
  | .i64Ne => lhs ≠ rhs
  | .i64LtS => lhs.slt rhs
  | .i64LtU => lhs.ult rhs
  | .i64LeS => lhs.sle rhs
  | .i64LeU => lhs.ule rhs
  | .i64GtS => rhs.slt lhs
  | .i64GtU => rhs.ult lhs
  | .i64GeS => rhs.sle lhs
  | .i64GeU => rhs.ule lhs

def IntComparison.immType : IntComparison → ImmType
  | .i32Eq | .i32Ne | .i32LtS | .i32LeS | .i32GtS | .i32GeS => .i32
  | .i32LtU | .i32LeU | .i32GtU | .i32GeU => .u32
  | .i64Eq | .i64Ne | .i64LtS | .i64LeS | .i64GtS | .i64GeS => .i64
  | .i64LtU | .i64LeU | .i64GtU | .i64GeU => .u64

/-- The fused bit tests `cmp_i32_and` and its siblings of `executor/instrs/branch.rs`. -/
inductive BitTest where
  | i32And | i32Or | i32Xor | i32AndEqz | i32OrEqz | i32XorEqz
deriving Repr, DecidableEq

def BitTest.eval (op : BitTest) (lhs rhs : UntypedVal) : Bool :=
  match op with
  | .i32And => lhs.toI32 &&& rhs.toI32 ≠ 0
  | .i32Or => lhs.toI32 ||| rhs.toI32 ≠ 0
  | .i32Xor => lhs.toI32 ^^^ rhs.toI32 ≠ 0
  | .i32AndEqz => lhs.toI32 &&& rhs.toI32 = 0
  | .i32OrEqz => lhs.toI32 ||| rhs.toI32 = 0
  | .i32XorEqz => lhs.toI32 ^^^ rhs.toI32 = 0

/-- The floating point comparison operators. -/
inductive FloatComparison where
  | f32Eq | f32Ne | f32Lt | f32Le | f32Gt | f32Ge
  | f64Eq | f64Ne | f64Lt | f64Le | f64Gt | f64Ge
deriving Repr, DecidableEq

/-! ## Floating point -/

/-- The unary floating point operators and conversions that cannot trap. -/
inductive FloatUnaryOp where
  | f32Abs | f32Neg | f32Ceil | f32Floor | f32Trunc | f32Nearest | f32Sqrt
  | f64Abs | f64Neg | f64Ceil | f64Floor | f64Trunc | f64Nearest | f64Sqrt
  | i32TruncSatF32S | i32TruncSatF32U | i32TruncSatF64S | i32TruncSatF64U
  | i64TruncSatF32S | i64TruncSatF32U | i64TruncSatF64S | i64TruncSatF64U
  | f32DemoteF64 | f64PromoteF32
  | f32ConvertI32S | f32ConvertI32U | f32ConvertI64S | f32ConvertI64U
  | f64ConvertI32S | f64ConvertI32U | f64ConvertI64S | f64ConvertI64U
deriving Repr, DecidableEq

/-- The float to integer conversions that trap on NaN and on values out of range. -/
inductive TruncOp where
  | i32TruncF32S | i32TruncF32U | i32TruncF64S | i32TruncF64U
  | i64TruncF32S | i64TruncF32U | i64TruncF64S | i64TruncF64U
deriving Repr, DecidableEq

/-- The binary floating point operators. -/
inductive FloatBinaryOp where
  | f32Add | f32Sub | f32Mul | f32Div | f32Min | f32Max | f32Copysign
  | f64Add | f64Sub | f64Mul | f64Div | f64Min | f64Max | f64Copysign
deriving Repr, DecidableEq

/-- The floating point arithmetic of the host, on the bits of its values. -/
structure FloatOps where
  unary : FloatUnaryOp → UntypedVal → UntypedVal
  trunc : TruncOp → UntypedVal → Except TrapCode UntypedVal
  binary : FloatBinaryOp → UntypedVal → UntypedVal → UntypedVal
  compare : FloatComparison → UntypedVal → UntypedVal → Bool

/-- `UntypedVal::from(f64::from(Const32<f64>))`. -/
def FloatOps.f64OfConst32 (float : FloatOps) (value : AnyConst32) : UntypedVal :=
  float.unary .f64PromoteF32 (ofI32 value)

/-! ## Memory accesses -/

/-- The little-endian value of a byte list. -/
def fromLeBytes : List Byte → Nat
  | [] => 0
  | byte :: bytes => byte.toNat + 256 * fromLeBytes bytes

/-- The `n` little-endian bytes of a value. -/
def toLeBytes : Nat → Nat → List Byte
  | 0, _ => []
  | n + 1, value => BitVec.ofNat 8 value :: toLeBytes n (value / 256)

/-- `effective_address`: the address sum must fit in 32 bits. -/
def effectiveAddress (address offset : BitVec 32) : Except TrapCode Nat :=
  if address.toNat + offset.toNat < 2 ^ 32 then .ok (address.toNat + offset.toNat)
  else .error .memoryOutOfBounds

/-- `LoadInto::load_into`: the `n` bytes at `address`. -/
def loadInto (memory : List Byte) (address n : Nat) : Except TrapCode (List Byte) :=
  if address + n ≤ memory.length then .ok ((memory.drop address).take n)
  else .error .memoryOutOfBounds

/-- `StoreFrom::store_from`: overwrites the bytes at `address`. -/
def storeFrom (memory : List Byte) (address : Nat) (bytes : List Byte) :
    Except TrapCode (List Byte) :=
  if address + bytes.length ≤ memory.length then
    .ok (memory.take address ++ bytes ++ memory.drop (address + bytes.length))
  else .error .memoryOutOfBounds

/-- The load operators. -/
inductive LoadOp where
  | i32Load | i64Load | f32Load | f64Load
  | i32Load8S | i32Load8U | i32Load16S | i32Load16U
  | i64Load8S | i64Load8U | i64Load16S | i64Load16U | i64Load32S | i64Load32U
deriving Repr, DecidableEq

/-- The number of bytes a load operator reads. -/
def LoadOp.width : LoadOp → Nat
  | .i32Load8S | .i32Load8U | .i64Load8S | .i64Load8U => 1
  | .i32Load16S | .i32Load16U | .i64Load16S | .i64Load16U => 2
  | .i32Load | .f32Load | .i64Load32S | .i64Load32U => 4
  | .i64Load | .f64Load => 8

/-- `ExtendInto` from the loaded integer to the result type. -/
def LoadOp.extend (op : LoadOp) (raw : Nat) : UntypedVal :=
  match op with
  | .i32Load8S => ofI32 ((BitVec.ofNat 8 raw).signExtend 32)
  | .i32Load16S => ofI32 ((BitVec.ofNat 16 raw).signExtend 32)
  | .i64Load8S => (BitVec.ofNat 8 raw).signExtend 64
  | .i64Load16S => (BitVec.ofNat 16 raw).signExtend 64
  | .i64Load32S => (BitVec.ofNat 32 raw).signExtend 64
  | _ => BitVec.ofNat 64 raw

/-- `UntypedVal::load_extend`. -/
def LoadOp.eval (op : LoadOp) (memory : List Byte) (address : UntypedVal) (offset : BitVec 32) :
    Except TrapCode UntypedVal := do
  let address ← effectiveAddress address.toI32 offset
  let buffer ← loadInto memory address op.width
  return op.extend (fromLeBytes buffer)

/-- The store operators. -/
inductive StoreOp where
  | i32Store | i32Store8 | i32Store16
  | i64Store | i64Store8 | i64Store16 | i64Store32
  | f32Store | f64Store
deriving Repr, DecidableEq

/-- The number of bytes a store operator writes. -/
def StoreOp.width : StoreOp → Nat
  | .i32Store8 | .i64Store8 => 1
  | .i32Store16 | .i64Store16 => 2
  | .i32Store | .i64Store32 | .f32Store => 4
  | .i64Store | .f64Store => 8

/-- `UntypedVal::store_wrap`. -/
def StoreOp.eval (op : StoreOp) (memory : List Byte) (address : UntypedVal) (offset : BitVec 32)
    (value : UntypedVal) : Except TrapCode (List Byte) := do
  let address ← effectiveAddress address.toI32 offset
  storeFrom memory address (toLeBytes op.width value.toNat)

end MotokoDebugger
