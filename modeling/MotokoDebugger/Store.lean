import MotokoDebugger.Ir.Instruction

/-!
# The store

The entities a Wasm execution works on (`wasmi/src/store.rs`, `memory/`, `table/`, `func/`).
Handles are positions in the arenas of the one store.

* `Fuel`, `MemoryEntity`, `TableEntity`, the segments, `FuncEntity`, `InstanceEntity`, `Store`.
* `ResourceLimiter`: the embedder's limiter, which acts on the host state `T` only.
* Growth of memories and tables, and the bulk operations on tables.
-/

namespace MotokoDebugger

/-! ## Fuel -/

/-- `FuelCosts`; the two rates are positive. -/
structure FuelCosts where
  base : Nat
  copiesPerFuel : Nat
  bytesPerFuel : Nat
deriving Repr, DecidableEq

def FuelCosts.fuelForCopies (costs : FuelCosts) (lenCopies : Nat) : Nat :=
  lenCopies / costs.copiesPerFuel

def FuelCosts.fuelForBytes (costs : FuelCosts) (lenBytes : Nat) : Nat :=
  lenBytes / costs.bytesPerFuel

/-- The remaining fuel of a store and the costs of its engine. -/
structure Fuel where
  remaining : Nat
  enabled : Bool
  costs : FuelCosts
deriving Repr, DecidableEq

/-- `FuelError`. -/
inductive FuelError where
  | fuelMeteringDisabled
  | outOfFuel
deriving Repr, DecidableEq

/-- `Fuel::consume_fuel_unchecked`: takes fuel whether or not metering is enabled. -/
def Fuel.consumeFuelUnchecked (fuel : Fuel) (delta : Nat) : Except TrapCode Fuel :=
  if delta ≤ fuel.remaining then .ok { fuel with remaining := fuel.remaining - delta }
  else .error .outOfFuel

/-- `Fuel::consume_fuel`. -/
def Fuel.consumeFuel (fuel : Fuel) (f : FuelCosts → Nat) : Except FuelError Fuel :=
  if fuel.enabled then
    match fuel.consumeFuelUnchecked (f fuel.costs) with
    | .ok fuel => .ok fuel
    | .error _ => .error .outOfFuel
  else .error .fuelMeteringDisabled

/-- `Fuel::consume_fuel_if`. -/
def Fuel.consumeFuelIf (fuel : Fuel) (f : FuelCosts → Nat) : Except TrapCode Fuel :=
  match fuel.consumeFuel f with
  | .ok fuel => .ok fuel
  | .error .fuelMeteringDisabled => .ok fuel
  | .error .outOfFuel => .error .outOfFuel

/-! ## Growth -/

/-- The embedder's limiter. A refused request is `ok false`, a limiter error is `error`. -/
structure ResourceLimiter (T : Type) where
  memoryGrowing : (current desired : Nat) → (maximum : Option Nat) → T → Except Unit Bool × T
  tableGrowing : (current desired : Nat) → (maximum : Option Nat) → T → Except Unit Bool × T
  memoryGrowFailed : T → T
  tableGrowFailed : (maximum current delta : Nat) → T → T

/-- `EntityGrowError`, and the panics of `ByteBuffer::grow`. -/
inductive EntityGrowError where
  | trapCode (code : TrapCode)
  | invalidGrow
  | panic
deriving Repr, DecidableEq

/-- `EntityGrowError::ERROR_CODE`. -/
def EntityGrowError.errorCode : BitVec 32 := BitVec.allOnes 32

/-- What a growth works on: the entity, the fuel of the store and the state of the host. -/
structure Growing (E T : Type) where
  entity : E
  fuel : Fuel
  data : T

/-- A growth operation. -/
abbrev GrowM (E T : Type) := EStateM EntityGrowError (Growing E T)

/-- Asks the limiter, which gets first look at the request. -/
def askLimiter {E T : Type} (limiter : Option (ResourceLimiter T))
    (ask : ResourceLimiter T → T → Except Unit Bool × T) : GrowM E T Unit := do
  if let some limiter := limiter then
    let (answer, data) := ask limiter (← get).data
    modify fun s => { s with data }
    match answer with
    | .ok true => pure ()
    | .ok false => throw .invalidGrow
    | .error _ => throw (.trapCode .growthOperationLimited)

/-- Tells the limiter that a growth it permitted has failed, then fails. -/
def notifyLimiter {E T α : Type} (limiter : Option (ResourceLimiter T))
    (notify : ResourceLimiter T → T → T) (error : EntityGrowError) : GrowM E T α := do
  if let some limiter := limiter then
    modify fun s => { s with data := notify limiter s.data }
  throw error

/-! ## Linear memories -/

/-- `Bytes::per_page`. -/
def bytesPerPage : Nat := 65536

/-- `Pages::max`. -/
def maxPages : Nat := 65536

/-- `Pages::checked_add`. -/
def pagesCheckedAdd (pages additional : Nat) : Option Nat :=
  if pages + additional ≤ maxPages then some (pages + additional) else none

/-- A linear memory. A memory over a static buffer has the capacity of that buffer. -/
structure MemoryEntity where
  bytes : List Byte
  currentPages : Nat
  maximumPages : Option Nat
  staticCapacity : Option Nat
deriving Repr, DecidableEq

/-- `ByteBuffer::grow`; `none` is a panic. -/
def MemoryEntity.growBytes (memory : MemoryEntity) (newSize : Nat) : Option (List Byte) :=
  if newSize < memory.bytes.length then none
  else
    let bytes := memory.bytes ++ List.replicate (newSize - memory.bytes.length) 0
    match memory.staticCapacity with
    | none => some bytes
    | some capacity => if capacity < newSize then none else some bytes

/-- `MemoryEntity::grow`. -/
def MemoryEntity.grow {T : Type} (limiter : Option (ResourceLimiter T)) (additional : Nat) :
    GrowM MemoryEntity T Nat := do
  let memory := (← get).entity
  if additional = 0 then
    return memory.currentPages
  if maxPages < additional then
    throw .invalidGrow
  let maximumPages := memory.maximumPages.getD maxPages
  let desiredPages := pagesCheckedAdd memory.currentPages additional
  askLimiter limiter fun limiter => limiter.memoryGrowing (memory.currentPages * bytesPerPage)
    (desiredPages.getD maxPages * bytesPerPage) (some (maximumPages * bytesPerPage))
  match desiredPages with
  | none => notifyLimiter limiter (·.memoryGrowFailed) .invalidGrow
  | some newPages =>
    if maximumPages < newPages then
      notifyLimiter limiter (·.memoryGrowFailed) .invalidGrow
    else
      match (← get).fuel.consumeFuelIf (·.fuelForBytes (additional * bytesPerPage)) with
      | .error _ => notifyLimiter limiter (·.memoryGrowFailed) (.trapCode .outOfFuel)
      | .ok fuel =>
        modify fun s => { s with fuel }
        match memory.growBytes (newPages * bytesPerPage) with
        | none => throw .panic
        | some bytes =>
          modify fun s => { s with entity := { memory with bytes, currentPages := newPages } }
          return memory.currentPages

/-! ## Tables and segments -/

/-- `ValType`. -/
inductive ValType where
  | i32 | i64 | f32 | f64 | funcRef | externRef
deriving Repr, DecidableEq

/-- A table. -/
structure TableEntity where
  element : ValType
  maximum : Option Nat
  elements : List UntypedVal
deriving Repr, DecidableEq

/-- `u32::MAX`. -/
def u32Max : Nat := 2 ^ 32 - 1

/-- `TableEntity::size`. -/
def TableEntity.size (table : TableEntity) : Nat := table.elements.length % 2 ^ 32

/-- `TableEntity::grow_untyped`. -/
def TableEntity.growUntyped {T : Type} (limiter : Option (ResourceLimiter T)) (delta : Nat)
    (init : UntypedVal) : GrowM TableEntity T Nat := do
  let table := (← get).entity
  let current := table.size
  let desired := if current + delta ≤ u32Max then some (current + delta) else none
  askLimiter limiter fun limiter =>
    limiter.tableGrowing current (desired.getD u32Max) table.maximum
  let maximum := table.maximum.getD u32Max
  let notify (limiter : ResourceLimiter T) := limiter.tableGrowFailed maximum current delta
  match desired with
  | none => notifyLimiter limiter notify .invalidGrow
  | some desired =>
    if maximum < desired then
      notifyLimiter limiter notify .invalidGrow
    else
      match (← get).fuel.consumeFuel (·.fuelForCopies delta) with
      | .error .outOfFuel => notifyLimiter limiter notify .invalidGrow
      | .ok fuel => modify fun s => { s with fuel }
      | .error .fuelMeteringDisabled => pure ()
      let elements := table.elements.take desired
        ++ List.replicate (desired - table.elements.length) init
      modify fun s => { s with entity := { table with elements } }
      return current

/-- An element segment. -/
structure ElementSegmentEntity where
  ty : ValType
  items : List UntypedVal
deriving Repr, DecidableEq

/-- The items `xs[start..][..len]`, if they exist. -/
def slice? {α : Type} (xs : List α) (start len : Nat) : Option (List α) :=
  if start + len ≤ xs.length then some ((xs.drop start).take len) else none

/-- `copy_from_slice` into `xs[start..]`. -/
def overwrite {α : Type} (xs : List α) (start : Nat) (ys : List α) : List α :=
  xs.take start ++ ys ++ xs.drop (start + ys.length)

lemma slice?_eq_some {α : Type} {xs ys : List α} {start len : Nat} :
    slice? xs start len = some ys ↔ start + len ≤ xs.length ∧ (xs.drop start).take len = ys := by
  unfold slice?
  split
  · simp [*]
  · simp [*]

lemma length_of_slice? {α : Type} {xs ys : List α} {start len : Nat} (h : slice? xs start len = some ys) :
    ys.length = len := by
  obtain ⟨hlen, rfl⟩ := slice?_eq_some.mp h
  rw [List.length_take, List.length_drop]
  omega

lemma length_overwrite {α : Type} {xs ys : List α} {start : Nat}
    (h : start + ys.length ≤ xs.length) : (overwrite xs start ys).length = xs.length := by
  unfold overwrite
  rw [List.length_append, List.length_append, List.length_take, List.length_drop]
  omega

/-- `TableEntity::set_untyped`. -/
def TableEntity.setUntyped (table : TableEntity) (index : Nat) (value : UntypedVal) :
    Except TrapCode TableEntity :=
  if index < table.elements.length then
    .ok { table with elements := table.elements.set index value }
  else .error .tableOutOfBounds

/-- `TableEntity::init`. -/
def TableEntity.init (table : TableEntity) (element : ElementSegmentEntity)
    (dstIndex srcIndex len : Nat) (fuel : Fuel) : Except TrapCode (TableEntity × Fuel) := do
  if table.element ≠ element.ty then
    throw .badSignature
  let some _ := slice? table.elements dstIndex len | throw .tableOutOfBounds
  let some srcItems := slice? element.items srcIndex len | throw .tableOutOfBounds
  if len = 0 then
    return (table, fuel)
  let fuel ← fuel.consumeFuelIf (·.fuelForCopies len)
  return ({ table with elements := overwrite table.elements dstIndex srcItems }, fuel)

/-- `TableEntity::copy`. -/
def TableEntity.copy (dstTable : TableEntity) (dstIndex : Nat) (srcTable : TableEntity)
    (srcIndex len : Nat) (fuel : Fuel) : Except TrapCode (TableEntity × Fuel) := do
  let some _ := slice? dstTable.elements dstIndex len | throw .tableOutOfBounds
  let some srcItems := slice? srcTable.elements srcIndex len | throw .tableOutOfBounds
  let fuel ← fuel.consumeFuelIf (·.fuelForCopies len)
  return ({ dstTable with elements := overwrite dstTable.elements dstIndex srcItems }, fuel)

/-- `TableEntity::copy_within`. -/
def TableEntity.copyWithin (table : TableEntity) (dstIndex srcIndex len : Nat) (fuel : Fuel) :
    Except TrapCode (TableEntity × Fuel) := do
  if u32Max < max dstIndex srcIndex + len ∨ table.size < max dstIndex srcIndex + len then
    throw .tableOutOfBounds
  let fuel ← fuel.consumeFuelIf (·.fuelForCopies len)
  let srcItems := (table.elements.drop srcIndex).take len
  return ({ table with elements := overwrite table.elements dstIndex srcItems }, fuel)

/-- `TableEntity::fill_untyped`. -/
def TableEntity.fillUntyped (table : TableEntity) (dst : Nat) (value : UntypedVal) (len : Nat)
    (fuel : Fuel) : Except TrapCode (TableEntity × Fuel) := do
  let some _ := slice? table.elements dst len | throw .tableOutOfBounds
  let fuel ← fuel.consumeFuelIf (·.fuelForCopies len)
  let elements := overwrite table.elements dst (List.replicate len value)
  return ({ table with elements }, fuel)

/-! ## Functions and instances -/

/-- A compiled function of the engine's code map. -/
abbrev EngineFunc := Nat

/-- A Wasm function of a store. -/
structure WasmFuncEntity where
  ty : Nat
  body : EngineFunc
  inst : Nat
deriving Repr, DecidableEq

/-- A host function of a store; `func` is its trampoline. -/
structure HostFuncEntity where
  lenParams : Nat
  lenResults : Nat
  ty : Nat
  func : Nat
deriving Repr, DecidableEq

inductive FuncEntity where
  | wasm (func : WasmFuncEntity)
  | host (func : HostFuncEntity)
deriving Repr, DecidableEq

/-- `FuncEntity::ty_dedup`. -/
def FuncEntity.tyDedup : FuncEntity → Nat
  | .wasm func => func.ty
  | .host func => func.ty

/-- The index spaces of an instance, as handles into the store. -/
structure InstanceEntity where
  funcTypes : List Nat
  funcs : List Nat
  tables : List Nat
  memories : List Nat
  globals : List Nat
  dataSegments : List Nat
  elemSegments : List Nat
deriving Repr, DecidableEq

/-! ## Function references -/

namespace FuncRef

/-- The bits of a non-null `FuncRef`: the store index, which is never zero, and the entity. -/
def toUntyped (func : Nat) : UntypedVal := BitVec.ofNat 64 (1 + 2 ^ 32 * func)

/-- `FuncRef::from(UntypedVal)`: zero is the null reference. -/
def func (value : UntypedVal) : Option Nat :=
  if value = 0 then none else some (value.toNat / 2 ^ 32)

end FuncRef

/-! ## The store -/

/-- The store: its arenas, its fuel and the state `T` of the host. -/
structure Store (T : Type) where
  funcs : List FuncEntity
  memories : List MemoryEntity
  tables : List TableEntity
  globals : List UntypedVal
  instances : List InstanceEntity
  datas : List (List Byte)
  elems : List ElementSegmentEntity
  fuel : Fuel
  data : T

/-- A store with one instance of a module that has functions only; functions have the type of
their position. -/
def Store.ofFuncs (funcs : List FuncEntity) : Store Unit where
  funcs := funcs
  memories := []
  tables := []
  globals := []
  instances := [{
    funcTypes := List.range funcs.length
    funcs := List.range funcs.length
    tables := []
    memories := []
    globals := []
    dataSegments := []
    elemSegments := [] }]
  datas := []
  elems := []
  fuel := { remaining := 0, enabled := false, costs := ⟨1, 64, 64⟩ }
  data := ()

end MotokoDebugger
