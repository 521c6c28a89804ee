import MotokoDebugger.Module.Header

/-!
# Payloads of the binary parser

What the `wasmparser` crate hands to the module parser, and the conversions of it in `module/`
(`utils.rs`, `import.rs`, `export.rs`, `global.rs`, `element.rs`, `init_expr.rs`).

* `Wasmparser.Payload`: the payloads of a module; `Wasmparser.Section`: the items of a section.
* `fromWasmparser` of the types, `ConstExpr.new`: the conversions, where `none` is a panic.
-/

namespace MotokoDebugger

/-! ## The parser's types -/

namespace Wasmparser

/-- An error of the parser or the validator. -/
structure ParserError where
  message : String
  offset : Nat
deriving Repr, DecidableEq

/-- A section that is read item by item. -/
structure Section (A : Type) where
  count : Nat
  items : List (Except ParserError A)

inductive ValType where
  | i32 | i64 | f32 | f64 | v128 | funcRef | externRef
deriving Repr, DecidableEq

structure FuncType where
  params : List ValType
  results : List ValType
deriving Repr, DecidableEq

structure TableType where
  elementType : ValType
  initial : Nat
  maximum : Option Nat
deriving Repr, DecidableEq

structure MemoryType where
  memory64 : Bool
  shared : Bool
  initial : Nat
  maximum : Option Nat
deriving Repr, DecidableEq

structure GlobalType where
  contentType : ValType
  isMut : Bool
deriving Repr, DecidableEq

inductive TypeRef where
  | func (funcTypeIdx : Nat)
  | table (ty : TableType)
  | memory (ty : MemoryType)
  | global (ty : GlobalType)
  | tag (funcTypeIdx : Nat)
deriving Repr, DecidableEq

structure Import where
  module_ : String
  name : String
  ty : TypeRef
deriving Repr, DecidableEq

/-- The operators a constant expression is made of, and any other. -/
inductive Operator where
  | i32Const (value : BitVec 32)
  | i64Const (value : BitVec 64)
  | f32Const (bits : BitVec 32)
  | f64Const (bits : BitVec 64)
  | globalGet (globalIndex : Nat)
  | refNull (ty : ValType)
  | refFunc (functionIndex : Nat)
  | i32Add | i32Sub | i32Mul
  | i64Add | i64Sub | i64Mul
  | «end»
  | other (opcode : Nat)
deriving Repr, DecidableEq

/-- A constant expression, by what is read from it. -/
abbrev ConstExpr := List (Except ParserError Operator)

structure Global where
  ty : GlobalType
  initExpr : ConstExpr

inductive ExternalKind where
  | func | table | memory | global | tag
deriving Repr, DecidableEq

structure Export where
  name : String
  kind : ExternalKind
  index : Nat
deriving Repr, DecidableEq

inductive ElementKind where
  | passive
  | active (tableIndex : Nat) (offsetExpr : ConstExpr)
  | declared

inductive ElementItems where
  | functions (items : List (Except ParserError Nat))
  | expressions (items : List (Except ParserError ConstExpr))

structure Element where
  kind : ElementKind
  items : ElementItems
  ty : ValType

inductive DataKind where
  | passive
  | active (memoryIndex : Nat) (offsetExpr : ConstExpr)

structure Data where
  kind : DataKind
  data : List Byte

/-- A function body and its position in the binary. -/
structure FunctionBody where
  originalPosition : Nat
  bytes : List Byte
deriving Repr, DecidableEq

structure Naming where
  index : Nat
  name : String
deriving Repr, DecidableEq

structure IndirectNaming where
  index : Nat
  names : List (Except ParserError Naming)

/-- The subsections of a name section. -/
inductive Name where
  | function (names : List (Except ParserError Naming))
  | global (names : List (Except ParserError Naming))
  | local_ (names : List (Except ParserError IndirectNaming))
  | other

/-- A custom section; `names` is what its data reads as a name section. -/
structure CustomSection where
  name : String
  data : List Byte
  names : List (Except ParserError Name)

inductive Encoding where
  | module_ | component
deriving Repr, DecidableEq

/-- A range of positions in the binary. -/
structure Range where
  start : Nat
  stop : Nat
deriving Repr, DecidableEq

/-- A payload; `other` stands for tag and unknown sections and for the parts of components. -/
inductive Payload where
  | version (num : Nat) (encoding : Encoding) (range : Range)
  | typeSection (sec : Section FuncType)
  | importSection (sec : Section Import)
  | functionSection (sec : Section Nat)
  | tableSection (sec : Section TableType)
  | memorySection (sec : Section MemoryType)
  | globalSection (sec : Section Global)
  | exportSection (sec : Section Export)
  | startSection (func : Nat) (range : Range)
  | elementSection (sec : Section Element)
  | dataCountSection (count : Nat) (range : Range)
  | codeSectionStart (count : Nat) (range : Range) (size : Nat)
  | codeSectionEntry (funcBody : FunctionBody)
  | dataSection (sec : Section Data)
  | customSection (reader : CustomSection)
  | other (id : Nat)
  | «end» (offset : Nat)

/-- What the parser makes of a buffer. -/
inductive Chunk where
  | needMoreData (hint : Nat)
  | parsed (consumed : Nat) (payload : Payload)

end Wasmparser

/-! ## Conversions -/

/-- `WasmiValueType::from`. -/
def ValType.fromWasmparser : Wasmparser.ValType → Option ValType
  | .i32 => some .i32
  | .i64 => some .i64
  | .f32 => some .f32
  | .f64 => some .f64
  | .v128 => none
  | .funcRef => some .funcRef
  | .externRef => some .externRef

/-- `FuncTypeInner::MAX_LEN_PARAMS` and `FuncTypeInner::MAX_LEN_RESULTS`. -/
def maxLenParamsResults : Nat := 1000

/-- `FuncType::from_wasmparser`. -/
def FuncType.fromWasmparser (funcType : Wasmparser.FuncType) : Option FuncType := do
  let params ← funcType.params.mapM ValType.fromWasmparser
  let results ← funcType.results.mapM ValType.fromWasmparser
  if params.length ≤ maxLenParamsResults ∧ results.length ≤ maxLenParamsResults then
    some ⟨params, results⟩
  else none

/-- `TableType::from_wasmparser`. -/
def TableType.fromWasmparser (tableType : Wasmparser.TableType) : Option TableType := do
  let element ← ValType.fromWasmparser tableType.elementType
  match tableType.maximum with
  | some maximum =>
    if tableType.initial ≤ maximum then some ⟨element, tableType.initial, some maximum⟩ else none
  | none => some ⟨element, tableType.initial, none⟩

/-- `MemoryType::from_wasmparser`. -/
def MemoryType.fromWasmparser (memoryType : Wasmparser.MemoryType) : Option MemoryType :=
  if memoryType.memory64 || memoryType.shared then none
  else if maxPages < memoryType.initial then none
  else
    match memoryType.maximum with
    | some maximum => if maxPages < maximum then none else some ⟨memoryType.initial, some maximum⟩
    | none => some ⟨memoryType.initial, none⟩

/-- `GlobalType::from_wasmparser`. -/
def GlobalType.fromWasmparser (globalType : Wasmparser.GlobalType) : Option GlobalType := do
  let content ← ValType.fromWasmparser globalType.contentType
  return ⟨content, globalType.isMut⟩

/-- `Import::from`. -/
def Import.fromWasmparser (item : Wasmparser.Import) : Option Import := do
  let kind ← match item.ty with
    | .func ty => some (.func ty)
    | .table ty => (TableType.fromWasmparser ty).map .table
    | .memory ty => (MemoryType.fromWasmparser ty).map .memory
    | .global ty => (GlobalType.fromWasmparser ty).map .global
    | .tag _ => none
  return ⟨⟨item.module_, item.name⟩, kind⟩

/-- `ExternIdx::new`. -/
def ExternIdx.new (kind : Wasmparser.ExternalKind) (index : Nat) : Option ExternIdx :=
  match kind with
  | .func => some (.func index)
  | .table => some (.table index)
  | .memory => some (.memory index)
  | .global => some (.global index)
  | .tag => none

namespace ConstExpr

/-- `expr_op`, on a stack whose top comes first. -/
def exprOp (stack : List ConstExpr) (op : UntypedVal → UntypedVal → UntypedVal) :
    Option (List ConstExpr) :=
  match stack with
  | rhs :: lhs :: stack => some (.expr op lhs rhs :: stack)
  | _ => none

/-- The effect of an operator on the stack; `End` is not one. -/
def pushOperator (stack : List ConstExpr) : Wasmparser.Operator → Option (List ConstExpr)
  | .i32Const value => some (.const (UntypedVal.ofI32 value) :: stack)
  | .i64Const value => some (.const value :: stack)
  | .f32Const bits => some (.const (UntypedVal.ofI32 bits) :: stack)
  | .f64Const bits => some (.const bits :: stack)
  | .globalGet globalIndex => some (.global globalIndex :: stack)
  | .refNull .funcRef => some (.const 0 :: stack)
  | .refNull .externRef => some (.const 0 :: stack)
  | .refNull _ => none
  | .refFunc functionIndex => some (.funcRef functionIndex :: stack)
  | .i32Add => exprOp stack (ArithOp.eval .i32Add)
  | .i32Sub => exprOp stack (SubOp.eval .i32Sub)
  | .i32Mul => exprOp stack (ArithOp.eval .i32Mul)
  | .i64Add => exprOp stack (ArithOp.eval .i64Add)
  | .i64Sub => exprOp stack (SubOp.eval .i64Sub)
  | .i64Mul => exprOp stack (ArithOp.eval .i64Mul)
  | .end => none
  | .other _ => none

/-- The loop of `ConstExpr::new`: it ends with the expression, which must end the operators and
be alone on the stack. -/
def newLoop (stack : List ConstExpr) : Wasmparser.ConstExpr → Option ConstExpr
  | [] => none
  | .error _ :: _ => none
  | .ok .end :: rest =>
    match rest, stack with
    | [], [op] => some op
    | _, _ => none
  | .ok operator :: rest => do
    let stack ← pushOperator stack operator
    newLoop stack rest

/-- `ConstExpr::new`. -/
def new (expr : Wasmparser.ConstExpr) : Option ConstExpr := newLoop [] expr

end ConstExpr

/-- `Global::from`. -/
def globalFromWasmparser (global : Wasmparser.Global) : Option (GlobalType × ConstExpr) := do
  let globalType ← GlobalType.fromWasmparser global.ty
  let initExpr ← ConstExpr.new global.initExpr
  return (globalType, initExpr)

/-- `ElementSegmentKind::from`. -/
def ElementSegmentKind.fromWasmparser : Wasmparser.ElementKind → Option ElementSegmentKind
  | .passive => some .passive
  | .active tableIndex offsetExpr => (ConstExpr.new offsetExpr).map (.active tableIndex)
  | .declared => some .declared

/-- The items of an element segment; an item that does not parse is a panic. -/
def elementItems {A : Type} (convert : A → Option ConstExpr)
    (items : List (Except Wasmparser.ParserError A)) : Option (List ConstExpr) :=
  items.mapM fun item =>
    match item with
    | .ok item => convert item
    | .error _ => none

/-- `ElementSegment::from`. -/
def ElementSegment.fromWasmparser (element : Wasmparser.Element) : Option ElementSegment := do
  if element.ty ≠ .funcRef ∧ element.ty ≠ .externRef then
    none
  let kind ← ElementSegmentKind.fromWasmparser element.kind
  let ty ← ValType.fromWasmparser element.ty
  let items ← match element.items with
    | .functions items => elementItems (fun func => some (.funcRef func)) items
    | .expressions items => elementItems ConstExpr.new items
  return ⟨kind, ty, items⟩

end MotokoDebugger
