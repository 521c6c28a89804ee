import MotokoDebugger.Executor.State

/-!
# Module headers

`module/import.rs`, `module/builder.rs`, `module/init_expr.rs` and the types of external values.

* `TableType`, `MemoryType`, `GlobalType`, `ExternType`, `Extern`: external values and their types.
* `ConstExpr` and its evaluation.
* `ModuleHeaderBuilder`, `ModuleHeader`: what a module consists of but for code, data and custom
  sections. The imports are kept by their kinds.
-/

namespace MotokoDebugger

/-! ## Types of external values -/

/-- `TableType`. -/
structure TableType where
  element : ValType
  minimum : Nat
  maximum : Option Nat
deriving Repr, DecidableEq

/-- `MemoryType`. -/
structure MemoryType where
  initialPages : Nat
  maximumPages : Option Nat
deriving Repr, DecidableEq

/-- `GlobalType`. -/
structure GlobalType where
  content : ValType
  isMut : Bool
deriving Repr, DecidableEq

/-- Is a maximum as strict as the other one? -/
def maximumFits : Option Nat → Option Nat → Bool
  | _, none => true
  | some maximum, some other => decide (maximum ≤ other)
  | none, some _ => false

/-- `TableType::is_subtype_of`. -/
def TableType.isSubtypeOf (ty other : TableType) : Bool :=
  decide (ty.element = other.element) && decide (other.minimum ≤ ty.minimum)
    && maximumFits ty.maximum other.maximum

/-- `MemoryType::is_subtype_of`. -/
def MemoryType.isSubtypeOf (ty other : MemoryType) : Bool :=
  decide (other.initialPages ≤ ty.initialPages) && maximumFits ty.maximumPages other.maximumPages

/-- `TableEntity::dynamic_ty`. -/
def TableEntity.dynamicTy (table : TableEntity) : TableType :=
  ⟨table.element, table.size, table.maximum⟩

/-- `MemoryEntity::dynamic_ty`. -/
def MemoryEntity.dynamicTy (memory : MemoryEntity) : MemoryType :=
  ⟨memory.currentPages, memory.maximumPages⟩

/-- `ExternType`. -/
inductive ExternType where
  | func (ty : FuncType)
  | table (ty : TableType)
  | memory (ty : MemoryType)
  | global (ty : GlobalType)
deriving Repr, DecidableEq

/-- `Extern`, by the handle in the store. -/
inductive Extern where
  | func (func : Nat)
  | table (table : Nat)
  | memory (memory : Nat)
  | global (global : Nat)
deriving Repr, DecidableEq

/-- What an import or an external value is. -/
inductive ExternKind where
  | func
  | table
  | memory
  | global
deriving Repr, DecidableEq

def ExternType.kind : ExternType → ExternKind
  | .func _ => .func
  | .table _ => .table
  | .memory _ => .memory
  | .global _ => .global

def Extern.kind : Extern → ExternKind
  | .func _ => .func
  | .table _ => .table
  | .memory _ => .memory
  | .global _ => .global

def Extern.handle : Extern → Nat
  | .func handle | .table handle | .memory handle | .global handle => handle

/-! ## The imports of a module -/

/-- `ImportName`. -/
structure ImportName where
  module_ : String
  field : String
deriving Repr, DecidableEq

/-- `ExternTypeIdx`: a function import names its type by index. -/
inductive ExternTypeIdx where
  | func (funcTypeIdx : Nat)
  | table (ty : TableType)
  | memory (ty : MemoryType)
  | global (ty : GlobalType)
deriving Repr, DecidableEq

/-- `Import`: an entry of the import section. -/
structure Import where
  name : ImportName
  kind : ExternTypeIdx
deriving Repr, DecidableEq

/-- `ImportType`: an import with its resolved type. -/
structure ImportType where
  name : ImportName
  ty : ExternType
deriving Repr, DecidableEq

/-- `Imported`. -/
inductive Imported where
  | func (name : ImportName)
  | table (name : ImportName)
  | memory (name : ImportName)
  | global (name : ImportName)
deriving Repr, DecidableEq

/-- `ModuleImports`. -/
structure ModuleImports where
  items : List Imported
  lenFuncs : Nat
  lenGlobals : Nat
  lenMemories : Nat
  lenTables : Nat
deriving Repr, DecidableEq

/-- `ModuleImportsBuilder`. -/
structure ModuleImportsBuilder where
  funcs : List ImportName := []
  tables : List ImportName := []
  memories : List ImportName := []
  globals : List ImportName := []
deriving Repr, DecidableEq

/-- `ModuleImportsBuilder::finish`. -/
def ModuleImportsBuilder.finish (imports : ModuleImportsBuilder) : ModuleImports where
  items := imports.funcs.map .func ++ imports.tables.map .table ++ imports.memories.map .memory
    ++ imports.globals.map .global
  lenFuncs := imports.funcs.length
  lenGlobals := imports.globals.length
  lenMemories := imports.memories.length
  lenTables := imports.tables.length

/-- `ConstExpr`, with the operators of its root. -/
inductive ConstExpr where
  | const (value : UntypedVal)
  | global (globalIndex : Nat)
  | funcRef (functionIndex : Nat)
  | expr (op : UntypedVal → UntypedVal → UntypedVal) (lhs rhs : ConstExpr)

/-- `ConstExpr::eval`. -/
def ConstExpr.eval (getGlobal getFunc : Nat → Option UntypedVal) : ConstExpr → Option UntypedVal
  | .const value => some value
  | .global globalIndex => getGlobal globalIndex
  | .funcRef functionIndex => getFunc functionIndex
  | .expr op lhs rhs => do
    let lhs ← lhs.eval getGlobal getFunc
    let rhs ← rhs.eval getGlobal getFunc
    return op lhs rhs

/-- `ExternIdx`. -/
inductive ExternIdx where
  | func (index : Nat)
  | table (index : Nat)
  | memory (index : Nat)
  | global (index : Nat)
deriving Repr, DecidableEq

/-- `ElementSegmentKind`. -/
inductive ElementSegmentKind where
  | passive
  | active (tableIndex : Nat) (offset : ConstExpr)
  | declared

/-- `ElementSegment` of a module. -/
structure ElementSegment where
  kind : ElementSegmentKind
  ty : ValType
  items : List ConstExpr

/-- `EngineFuncSpan`: functions of the code map in a row. -/
structure EngineFuncSpan where
  start : EngineFunc
  stop : EngineFunc
deriving Repr, DecidableEq

namespace EngineFuncSpan

/-- `EngineFuncSpan::len`. -/
def len (span : EngineFuncSpan) : Nat := span.stop - span.start

/-- `EngineFuncSpan::get`. -/
def get (span : EngineFuncSpan) (n : Nat) : Option EngineFunc :=
  if span.len ≤ n then none else some (span.start + n)

/-- What `EngineFuncSpan::iter` yields. -/
def toList (span : EngineFuncSpan) : List EngineFunc := List.range' span.start span.len

end EngineFuncSpan

/-- `ModuleHeaderBuilder`. Function types are those of the registry of the engine. -/
structure ModuleHeaderBuilder where
  funcTypes : List Nat := []
  imports : ModuleImportsBuilder := {}
  funcs : List Nat := []
  tables : List TableType := []
  memories : List MemoryType := []
  globals : List GlobalType := []
  globalsInit : List ConstExpr := []
  exports : List (String × ExternIdx) := []
  start : Option Nat := none
  engineFuncs : EngineFuncSpan := ⟨0, 0⟩
  elementSegments : List ElementSegment := []

/-- `ModuleHeader`. -/
structure ModuleHeader where
  funcTypes : List Nat
  imports : ModuleImports
  funcs : List Nat
  tables : List TableType
  memories : List MemoryType
  globals : List GlobalType
  globalsInit : List ConstExpr
  exports : List (String × ExternIdx)
  start : Option Nat
  engineFuncs : EngineFuncSpan
  elementSegments : List ElementSegment

namespace ModuleHeaderBuilder

/-- `ModuleHeaderBuilder::finish`. -/
def finish (builder : ModuleHeaderBuilder) : ModuleHeader :=
  { builder with imports := builder.imports.finish }

/-- The body of the loop of `ModuleHeaderBuilder::push_imports`; `none` is a panic. -/
def pushImport (builder : ModuleHeaderBuilder) (item : Import) : Option ModuleHeaderBuilder :=
  let imports := builder.imports
  match item.kind with
  | .func funcTypeIdx => do
    let funcType ← builder.funcTypes[funcTypeIdx]?
    return { builder with
      imports := { imports with funcs := imports.funcs ++ [item.name] }
      funcs := builder.funcs ++ [funcType] }
  | .table ty => some { builder with
      imports := { imports with tables := imports.tables ++ [item.name] }
      tables := builder.tables ++ [ty] }
  | .memory ty => some { builder with
      imports := { imports with memories := imports.memories ++ [item.name] }
      memories := builder.memories ++ [ty] }
  | .global ty => some { builder with
      imports := { imports with globals := imports.globals ++ [item.name] }
      globals := builder.globals ++ [ty] }

/-- `ModuleHeaderBuilder::push_imports`. -/
def pushImports (builder : ModuleHeaderBuilder) : List Import → Option ModuleHeaderBuilder
  | [] => some builder
  | item :: imports => do
    let builder ← builder.pushImport item
    builder.pushImports imports

end ModuleHeaderBuilder

end MotokoDebugger
