import MotokoDebugger.Module.Wasmparser

/-!
# The module parser

`module/parser.rs` with `parser/buffered.rs` and `parser/streaming.rs`.

* `LoadEnv`: the configuration, the binary parser and validator of `wasmparser`, and the function
  translator. `LoadM`: a step of the module parser.
* `processTypes` to `processInvalidPayload`: what is done with a payload.
* `headerPayload`, `codePayload`, `dataPayload`: the bodies of the three loops of both parsers.
* `parseBuffered`, `parseStreaming`: both parsers.
-/

namespace MotokoDebugger

open Wasmparser (Payload Chunk ParserError)

/-! ## Configuration and errors -/

/-- `EnforcedLimitsError`. -/
inductive EnforcedLimitsError where
  | tooManyGlobals (limit : Nat)
  | tooManyTables (limit : Nat)
  | tooManyFunctions (limit : Nat)
  | tooManyMemories (limit : Nat)
  | tooManyElementSegments (limit : Nat)
  | tooManyDataSegments (limit : Nat)
  | tooManyParameters (limit : Nat)
  | tooManyResults (limit : Nat)
  | minAvgBytesPerFunction (limit avg : Nat)
deriving Repr, DecidableEq

/-- `AvgBytesPerFunctionLimit`. -/
structure AvgBytesPerFunctionLimit where
  reqFuncsBytes : Nat
  minAvgBytesPerFunction : Nat
deriving Repr, DecidableEq

/-- `EnforcedLimits`. -/
structure EnforcedLimits where
  maxGlobals : Option Nat := none
  maxFunctions : Option Nat := none
  maxTables : Option Nat := none
  maxElementSegments : Option Nat := none
  maxMemories : Option Nat := none
  maxDataSegments : Option Nat := none
  maxParams : Option Nat := none
  maxResults : Option Nat := none
  minAvgBytesPerFunction : Option AvgBytesPerFunctionLimit := none
deriving Repr, DecidableEq

/-- The part of `Config` a module is parsed with. -/
structure LoadConfig where
  ignoreCustomSections : Bool := false
  enforcedLimits : EnforcedLimits := {}
deriving Repr, DecidableEq

/-- The errors of the module parser. -/
inductive LoadError where
  | wasm (error : ParserError)
  | limits (error : EnforcedLimitsError)
  | translation (text : String)
deriving Repr, DecidableEq

/-- Why a load stops: an error or a panic. -/
inductive LoadStop where
  | error (error : LoadError)
  | panic
deriving Repr, DecidableEq

/-- The tables of the engine that a load writes: the function types, and the code map, where
`none` is an uninitialized function. -/
structure LoadEngine (C : Type) where
  funcTypes : List FuncType
  codeMap : List (Option C)

/-- What a load uses and never changes. `P` and `V` are the states of the binary parser and of the
validator, `F` a function that is to be validated and `C` a translated function. `validate` is the
method of the validator for a payload. -/
structure LoadEnv (P V F C : Type) where
  config : LoadConfig
  newParser : P
  parse : P → List Byte → (eof : Bool) → Except ParserError (Chunk × P)
  newValidator : V
  validate : V → Payload → Except ParserError V
  codeSectionEntry : V → Wasmparser.FunctionBody → Except ParserError (F × V)
  translate : LoadEngine C → (func offset : Nat) → List Byte → ModuleHeader → Option F →
    (codeSectionBaseOffset : Option Nat) → Except LoadStop C

/-- `ModuleParser`, but for the binary parser and the end of the stream. -/
structure Loader (V C : Type) where
  engine : LoadEngine C
  validator : Option V
  engineFuncs : Nat

/-- A step of the module parser. -/
abbrev LoadM (V C : Type) := StateT (Loader V C) (Except LoadStop)

/-- A run of loops of the module parser; `none` is one that its fuel does not suffice for. -/
abbrev LoopM (V C : Type) := StateT (Loader V C) (ExceptT LoadStop Option)

variable {P V F C : Type}

/-- The fuel does not suffice. -/
def unfinished {A : Type} : LoopM V C A := fun _ => (none : Option _)

/-- A step in a loop. -/
def LoadM.once {A : Type} (x : LoadM V C A) : LoopM V C A := fun loader => some (x loader)

/-- A conversion or an assertion of the source. -/
def orPanic {A : Type} : Option A → Except LoadStop A
  | some a => .ok a
  | none => .error .panic

/-- An item of a section, converted. -/
def convertItem {A B : Type} (convert : A → Option B) :
    Except ParserError A → Except LoadStop B
  | .ok item => orPanic (convert item)
  | .error error => .error (.error (.wasm error))

/-- Checks a number against a limit. -/
def checkLimit (limit : Option Nat) (error : Nat → EnforcedLimitsError) (count : Nat) :
    Except LoadStop Unit :=
  match limit with
  | none => .ok ()
  | some limit => if limit < count then .error (.error (.limits (error limit))) else .ok ()

/-! ## Custom sections -/

/-- `NameSectionInner`. -/
structure NameSectionInner where
  functions : Nat → Option String := fun _ => none
  locals : Nat → Option (List (Nat × String)) := fun _ => none
  globals : Nat → Option String := fun _ => none
  localsDep : Nat → Option (List (Nat × String)) := fun _ => none

/-- `CustomSectionsBuilder` and `CustomSections`: the lengths of name and data of each section, and
all names and data in a row. -/
structure CustomSections where
  items : List (Nat × Nat) := []
  namesAndData : List Byte := []
  nameInner : NameSectionInner := {}

/-- The bytes of a string. -/
def stringBytes (text : String) : List Byte := text.toUTF8.data.toList.map UInt8.toBitVec

/-- `CustomSectionsInner::push`. -/
def CustomSections.push (sections : CustomSections) (name : String) (data : List Byte) :
    CustomSections :=
  { sections with
    items := sections.items ++ [((stringBytes name).length, data.length)]
    namesAndData := sections.namesAndData ++ stringBytes name ++ data }

/-- `collect_nameing`. -/
def collectNaming (naming : List (Except ParserError Wasmparser.Naming))
    (results : Nat → Option String) : Nat → Option String :=
  naming.foldl (fun results item =>
    match item with
    | .ok naming => Function.update results naming.index (some naming.name)
    | .error _ => results) results

/-- The names of the locals of a function in `collect_indrect_nameing`. -/
def collectLocals (names : List (Except ParserError Wasmparser.Naming)) : List (Nat × String) :=
  names.foldl (fun all item =>
    match item with
    | .ok naming =>
      if naming.name ∈ all.map (·.2) ∨ naming.name.startsWith "$" then all
      else all ++ [(naming.index, naming.name)]
    | .error _ => all) []

/-- `collect_indrect_nameing`: the entries are numbered in their order. -/
def collectIndirectNaming (naming : List (Except ParserError Wasmparser.IndirectNaming))
    (results : Nat → Option (List (Nat × String))) (funcImports : Nat) :
    Nat → Option (List (Nat × String)) :=
  naming.zipIdx.foldl (fun results (item, funcIndex) =>
    let all :=
      match item with
      | .ok funcNaming => collectLocals funcNaming.names
      | .error _ => []
    Function.update results ((funcIndex + funcImports) % 2 ^ 32) (some all)) results

/-- The loop over the subsections of a name section in `process_custom_section`. -/
def collectNames (names : List (Except ParserError Wasmparser.Name)) (funcImports : Nat) :
    NameSectionInner :=
  names.foldl (fun inner name =>
    match name with
    | .ok (.function naming) => { inner with functions := collectNaming naming inner.functions }
    | .ok (.global naming) => { inner with globals := collectNaming naming inner.globals }
    | .ok (.local_ naming) =>
      { inner with locals := collectIndirectNaming naming inner.locals funcImports }
    | .ok .other | .error _ => inner) {}

/-- `ModuleParser::process_custom_section`. -/
def processCustomSection (config : LoadConfig) (sections : CustomSections)
    (header : Option ModuleHeader) (reader : Wasmparser.CustomSection) : CustomSections :=
  if config.ignoreCustomSections then sections
  else if reader.name = "name" then
    let funcImports :=
      match header with
      | some header => header.imports.lenFuncs
      | none => 0
    { sections with nameInner := collectNames reader.names funcImports }
  else sections.push reader.name reader.data

/-! ## The header under construction -/

namespace ModuleHeaderBuilder

/-- `push_func_types`: the types are registered with the engine. -/
def pushFuncTypes (header : ModuleHeaderBuilder) (funcTypes : List (Except LoadStop FuncType)) :
    LoadM V C ModuleHeaderBuilder := do
  if header.funcTypes ≠ [] then
    throw .panic
  funcTypes.foldlM (fun header funcType => do
    let funcType ← liftM funcType
    let loader ← get
    let registered := loader.engine.funcTypes
    match registered.findIdx? (· = funcType) with
    | some dedup => return { header with funcTypes := header.funcTypes ++ [dedup] }
    | none =>
      set { loader with engine.funcTypes := registered ++ [funcType] }
      return { header with funcTypes := header.funcTypes ++ [registered.length] }) header

/-- The loop of `push_imports` over items that may be errors. -/
def tryPushImports (header : ModuleHeaderBuilder) (imports : List (Except LoadStop Import)) :
    Except LoadStop ModuleHeaderBuilder :=
  imports.foldlM (fun header item => do
    let item ← item
    orPanic (header.pushImport item)) header

/-- `push_funcs`: the functions are allocated in the code map. -/
def pushFuncs (header : ModuleHeaderBuilder) (funcs : List (Except LoadStop Nat)) :
    LoadM V C ModuleHeaderBuilder := do
  if header.funcs.length ≠ header.imports.funcs.length then
    throw .panic
  let loader ← get
  let codeMap := loader.engine.codeMap
  set { loader with engine.codeMap := codeMap ++ List.replicate funcs.length none }
  let header := { header with engineFuncs := ⟨codeMap.length, codeMap.length + funcs.length⟩ }
  funcs.foldlM (fun header func => do
    let funcTypeIdx ← liftM func
    let funcType ← liftM (orPanic header.funcTypes[funcTypeIdx]?)
    return { header with funcs := header.funcs ++ [funcType] }) header

/-- `push_tables`. -/
def pushTables (header : ModuleHeaderBuilder) (tables : List (Except LoadStop TableType)) :
    Except LoadStop ModuleHeaderBuilder := do
  if header.tables.length ≠ header.imports.tables.length then
    throw .panic
  let tables ← tables.mapM id
  return { header with tables := header.tables ++ tables }

/-- `push_memories`. -/
def pushMemories (header : ModuleHeaderBuilder) (memories : List (Except LoadStop MemoryType)) :
    Except LoadStop ModuleHeaderBuilder := do
  if header.memories.length ≠ header.imports.memories.length then
    throw .panic
  let memories ← memories.mapM id
  return { header with memories := header.memories ++ memories }

/-- `push_globals`. -/
def pushGlobals (header : ModuleHeaderBuilder)
    (globals : List (Except LoadStop (GlobalType × ConstExpr))) :
    Except LoadStop ModuleHeaderBuilder := do
  if header.globals.length ≠ header.imports.globals.length then
    throw .panic
  let globals ← globals.mapM id
  return { header with
    globals := header.globals ++ globals.map (·.1)
    globalsInit := header.globalsInit ++ globals.map (·.2) }

/-- `push_exports`: an export replaces an earlier one of its name. -/
def pushExports (header : ModuleHeaderBuilder)
    (exports : List (Except LoadStop (String × ExternIdx))) :
    Except LoadStop ModuleHeaderBuilder := do
  if header.exports ≠ [] then
    throw .panic
  let exports ← exports.mapM id
  return { header with exports := exports.foldl (fun exports entry =>
    exports.filter (fun old => old.1 ≠ entry.1) ++ [entry]) [] }

/-- `set_start`. -/
def setStart (header : ModuleHeaderBuilder) (start : Nat) :
    Except LoadStop ModuleHeaderBuilder :=
  match header.start with
  | some _ => .error .panic
  | none => .ok { header with start := some start }

/-- `push_element_segments`. -/
def pushElementSegments (header : ModuleHeaderBuilder)
    (elements : List (Except LoadStop ElementSegment)) :
    Except LoadStop ModuleHeaderBuilder := do
  if header.elementSegments.length ≠ 0 then
    throw .panic
  let elementSegments ← elements.mapM id
  return { header with elementSegments }

end ModuleHeaderBuilder

/-! ## Data segments and the module -/

/-- `DataSegment` of a module. -/
inductive DataSegment where
  | active (memoryIndex : Nat) (offset : ConstExpr) (len : Nat)
  | passive (bytes : List Byte)

/-- `DataSegmentsBuilder`: the segments, the bytes of the active ones, and the capacity that was
reserved. -/
structure DataSegmentsBuilder where
  segments : List DataSegment := []
  bytes : List Byte := []
  capacity : Nat := 0

namespace DataSegmentsBuilder

/-- `DataSegmentsBuilder::reserve`. -/
def reserve (builder : DataSegmentsBuilder) (count : Nat) : Except LoadStop DataSegmentsBuilder :=
  if builder.capacity ≠ 0 then .error .panic else .ok { builder with capacity := count }

/-- `DataSegmentsBuilder::push_data_segment`. -/
def pushDataSegment (builder : DataSegmentsBuilder) (segment : Wasmparser.Data) :
    Except LoadStop DataSegmentsBuilder :=
  match segment.kind with
  | .passive => .ok { builder with segments := builder.segments ++ [.passive segment.data] }
  | .active memoryIndex offsetExpr => do
    let offset ← orPanic (ConstExpr.new offsetExpr)
    if u32Max < segment.data.length then
      throw .panic
    return { builder with
      bytes := builder.bytes ++ segment.data
      segments := builder.segments ++ [.active memoryIndex offset segment.data.length] }

end DataSegmentsBuilder

/-- `ModuleBuilder`. -/
structure ModuleBuilder where
  header : ModuleHeader
  dataSegments : DataSegmentsBuilder
  customSections : CustomSections

/-- `Module`. -/
structure Module where
  header : ModuleHeader
  segments : List DataSegment
  segmentBytes : List Byte
  customSections : CustomSections

/-- `ModuleBuilder::finish`. -/
def ModuleBuilder.finish (builder : ModuleBuilder) : Module where
  header := builder.header
  segments := builder.dataSegments.segments
  segmentBytes := builder.dataSegments.bytes
  customSections := builder.customSections

/-! ## Processing payloads -/

namespace LoadEnv

/-- Validates a payload, if there is a validator. -/
def validated (env : LoadEnv P V F C) (payload : Payload) : LoadM V C Unit := do
  if let some validator := (← get).validator then
    match env.validate validator payload with
    | .ok validator => modify fun loader => { loader with validator := some validator }
    | .error error => throw (.error (.wasm error))

/-- `ModuleParser::process_types`. -/
def processTypes (env : LoadEnv P V F C) (sec : Wasmparser.Section Wasmparser.FuncType)
    (header : ModuleHeaderBuilder) : LoadM V C ModuleHeaderBuilder := do
  env.validated (.typeSection sec)
  let limits := env.config.enforcedLimits
  header.pushFuncTypes (sec.items.map fun result =>
    match result with
    | .error error => .error (.error (.wasm error))
    | .ok ty => do
      checkLimit limits.maxParams .tooManyParameters ty.params.length
      checkLimit limits.maxResults .tooManyResults ty.results.length
      orPanic (FuncType.fromWasmparser ty))

/-- `ModuleParser::process_imports`. -/
def processImports (env : LoadEnv P V F C) (sec : Wasmparser.Section Wasmparser.Import)
    (header : ModuleHeaderBuilder) : LoadM V C ModuleHeaderBuilder := do
  env.validated (.importSection sec)
  liftM (header.tryPushImports (sec.items.map (convertItem Import.fromWasmparser)))

/-- `ModuleParser::process_functions`. -/
def processFunctions (env : LoadEnv P V F C) (sec : Wasmparser.Section Nat)
    (header : ModuleHeaderBuilder) : LoadM V C ModuleHeaderBuilder := do
  liftM (checkLimit env.config.enforcedLimits.maxFunctions .tooManyFunctions sec.count)
  env.validated (.functionSection sec)
  header.pushFuncs (sec.items.map (convertItem some))

/-- `ModuleParser::process_tables`. -/
def processTables (env : LoadEnv P V F C) (sec : Wasmparser.Section Wasmparser.TableType)
    (header : ModuleHeaderBuilder) : LoadM V C ModuleHeaderBuilder := do
  liftM (checkLimit env.config.enforcedLimits.maxTables .tooManyTables sec.count)
  env.validated (.tableSection sec)
  liftM (header.pushTables (sec.items.map (convertItem TableType.fromWasmparser)))

/-- `ModuleParser::process_memories`. -/
def processMemories (env : LoadEnv P V F C) (sec : Wasmparser.Section Wasmparser.MemoryType)
    (header : ModuleHeaderBuilder) : LoadM V C ModuleHeaderBuilder := do
  liftM (checkLimit env.config.enforcedLimits.maxMemories .tooManyMemories sec.count)
  env.validated (.memorySection sec)
  liftM (header.pushMemories (sec.items.map (convertItem MemoryType.fromWasmparser)))

/-- `ModuleParser::process_globals`. -/
def processGlobals (env : LoadEnv P V F C) (sec : Wasmparser.Section Wasmparser.Global)
    (header : ModuleHeaderBuilder) : LoadM V C ModuleHeaderBuilder := do
  liftM (checkLimit env.config.enforcedLimits.maxGlobals .tooManyGlobals sec.count)
  env.validated (.globalSection sec)
  liftM (header.pushGlobals (sec.items.map (convertItem globalFromWasmparser)))

/-- `ModuleParser::process_exports`. -/
def processExports (env : LoadEnv P V F C) (sec : Wasmparser.Section Wasmparser.Export)
    (header : ModuleHeaderBuilder) : LoadM V C ModuleHeaderBuilder := do
  env.validated (.exportSection sec)
  liftM (header.pushExports (sec.items.map (convertItem fun item =>
    (ExternIdx.new item.kind item.index).map fun idx => (item.name, idx))))

/-- `ModuleParser::process_start`. -/
def processStart (env : LoadEnv P V F C) (func : Nat) (range : Wasmparser.Range)
    (header : ModuleHeaderBuilder) : LoadM V C ModuleHeaderBuilder := do
  env.validated (.startSection func range)
  liftM (header.setStart func)

/-- `ModuleParser::process_element`. -/
def processElement (env : LoadEnv P V F C) (sec : Wasmparser.Section Wasmparser.Element)
    (header : ModuleHeaderBuilder) : LoadM V C ModuleHeaderBuilder := do
  liftM (checkLimit env.config.enforcedLimits.maxElementSegments .tooManyElementSegments sec.count)
  env.validated (.elementSection sec)
  liftM (header.pushElementSegments
    (sec.items.map (convertItem ElementSegment.fromWasmparser)))

/-- `ModuleParser::process_data_count`. -/
def processDataCount (env : LoadEnv P V F C) (count : Nat) (range : Wasmparser.Range) :
    LoadM V C Unit := do
  liftM (checkLimit env.config.enforcedLimits.maxDataSegments .tooManyDataSegments count)
  env.validated (.dataCountSection count range)

/-- `ModuleParser::process_code_start`. The division panics for a count of zero. -/
def processCodeStart (env : LoadEnv P V F C) (count : Nat) (range : Wasmparser.Range)
    (size : Nat) : LoadM V C Unit := do
  liftM (checkLimit env.config.enforcedLimits.maxFunctions .tooManyFunctions count)
  if let some limit := env.config.enforcedLimits.minAvgBytesPerFunction then
    if limit.reqFuncsBytes ≤ size then
      if count = 0 then
        throw .panic
      let avg := size / count
      if avg < limit.minAvgBytesPerFunction then
        throw (.error (.limits (.minAvgBytesPerFunction limit.minAvgBytesPerFunction avg)))
  env.validated (.codeSectionStart count range size)

/-- `ModuleParser::next_func`. -/
def nextFunc (header : ModuleHeader) : LoadM V C (Nat × EngineFunc) := do
  let loader ← get
  let index := loader.engineFuncs
  let engineFunc ← liftM (orPanic (header.engineFuncs.get index))
  set { loader with engineFuncs := index + 1 }
  return (index + header.imports.lenFuncs, engineFunc)

/-- `Engine::init_func`: the function must not be initialized. -/
def initFunc (engineFunc : EngineFunc) (entity : C) : LoadM V C Unit := do
  let loader ← get
  match loader.engine.codeMap[engineFunc]? with
  | some none =>
    set { loader with engine.codeMap := loader.engine.codeMap.set engineFunc (some entity) }
  | _ => throw .panic

/-- `ModuleParser::process_code_entry`. -/
def processCodeEntry (env : LoadEnv P V F C) (funcBody : Wasmparser.FunctionBody)
    (bytes : List Byte) (header : ModuleHeader) (codeSectionBaseOffset : Option Nat) :
    LoadM V C Unit := do
  let (func, engineFunc) ← nextFunc header
  let offset := funcBody.originalPosition
  let loader ← get
  let funcToValidate ← match loader.validator with
    | none => pure none
    | some validator =>
      match env.codeSectionEntry validator funcBody with
      | .ok (funcToValidate, validator) => do
        set { loader with validator := some validator }
        pure (some funcToValidate)
      | .error error => throw (.error (.wasm error))
  let entity ← liftM (env.translate (← get).engine func offset bytes header funcToValidate
    codeSectionBaseOffset)
  initFunc engineFunc entity

/-- `ModuleParser::process_data`. -/
def processData (env : LoadEnv P V F C) (sec : Wasmparser.Section Wasmparser.Data)
    (builder : ModuleBuilder) : LoadM V C ModuleBuilder := do
  liftM (checkLimit env.config.enforcedLimits.maxDataSegments .tooManyDataSegments sec.count)
  env.validated (.dataSection sec)
  let dataSegments ← liftM (builder.dataSegments.reserve sec.count)
  let dataSegments ← liftM (sec.items.foldlM (fun (segments : DataSegmentsBuilder) segment =>
    match segment with
    | .ok segment => segments.pushDataSegment segment
    | .error error => .error (.error (.wasm error))) dataSegments)
  return { builder with dataSegments }

/-- `ModuleParser::process_invalid_payload`. -/
def processInvalidPayload (env : LoadEnv P V F C) (payload : Payload) : LoadM V C Unit := do
  env.validated payload
  throw .panic

/-! ## The bodies of the loops -/

/-- How the body of a loop ends: with the next round, which consumes the payload, or with a break
that has consumed it or has not. -/
inductive Flow (S : Type) where
  | next (state : S)
  | stop (state : S) (consumed : Bool)

/-- What the header loops work on. -/
structure HeaderState where
  header : ModuleHeaderBuilder := {}
  customSections : CustomSections := {}
  codeSectionBaseOffset : Option Nat := none

/-- The body of `parse_buffered_header` and `parse_streaming_header`. -/
def headerPayload (env : LoadEnv P V F C) (s : HeaderState) (payload : Payload)
    (_bytes : List Byte) : LoadM V C (Flow HeaderState) := do
  let push (process : ModuleHeaderBuilder → LoadM V C ModuleHeaderBuilder) := do
    let header ← process s.header
    return .next { s with header }
  match payload with
  | .version _ _ _ =>
    env.validated payload
    return .next s
  | .typeSection sec => push (env.processTypes sec)
  | .importSection sec => push (env.processImports sec)
  | .functionSection sec => push (env.processFunctions sec)
  | .tableSection sec => push (env.processTables sec)
  | .memorySection sec => push (env.processMemories sec)
  | .globalSection sec => push (env.processGlobals sec)
  | .exportSection sec => push (env.processExports sec)
  | .startSection func range => push (env.processStart func range)
  | .elementSection sec => push (env.processElement sec)
  | .dataCountSection count range =>
    env.processDataCount count range
    return .next s
  | .codeSectionStart count range size =>
    env.processCodeStart count range size
    return .stop { s with codeSectionBaseOffset := some range.start } true
  | .dataSection _ => return .stop s false
  | .end _ => return .stop s false
  | .customSection reader =>
    let customSections := processCustomSection env.config s.customSections none reader
    return .next { s with customSections }
  | unexpected =>
    env.processInvalidPayload unexpected
    return .next s

/-- The body of `parse_buffered_code` and `parse_streaming_code`. -/
def codePayload (env : LoadEnv P V F C) (header : ModuleHeader)
    (codeSectionBaseOffset : Option Nat) (_s : Unit) (payload : Payload) (bytes : List Byte) :
    LoadM V C (Flow Unit) := do
  match payload with
  | .codeSectionEntry funcBody =>
    let start := bytes.length - funcBody.bytes.length
    env.processCodeEntry funcBody (bytes.drop start) header codeSectionBaseOffset
    return .next ()
  | _ => return .stop () false

/-- The body of `parse_buffered_data` and `parse_streaming_data`. -/
def dataPayload (env : LoadEnv P V F C) (builder : ModuleBuilder) (payload : Payload)
    (_bytes : List Byte) : LoadM V C (Flow ModuleBuilder) := do
  match payload with
  | .dataSection sec =>
    let builder ← env.processData sec builder
    return .next builder
  | .end _ =>
    env.validated payload
    return .stop builder true
  | .customSection reader =>
    let customSections :=
      processCustomSection env.config builder.customSections (some builder.header) reader
    return .next { builder with customSections }
  | invalid =>
    env.processInvalidPayload invalid
    return .next builder

/-! ## The buffered parser -/

/-- The loops of `parser/buffered.rs` with the body of one of them, for as many rounds as there is
fuel. -/
def bufferedLoop {S : Type} (env : LoadEnv P V F C)
    (body : S → Payload → List Byte → LoadM V C (Flow S)) :
    (fuel : Nat) → P → (buffer : List Byte) → S → LoopM V C (S × P × List Byte)
  | 0, _, _, _ => unfinished
  | fuel + 1, parser, buffer, s => do
    match env.parse parser buffer true with
    | .error error => throw (.error (.wasm error))
    | .ok (.needMoreData _, _) => throw .panic
    | .ok (.parsed consumed payload, parser) =>
      match ← (body s payload (buffer.take consumed)).once with
      | .next s => env.bufferedLoop body fuel parser (buffer.drop consumed) s
      | .stop s true => return (s, parser, buffer.drop consumed)
      | .stop s false => return (s, parser, buffer)

/-- `ModuleParser::parse_buffered_impl`. -/
def parseBufferedImpl (env : LoadEnv P V F C) (fuel : Nat) (buffer : List Byte) :
    LoopM V C Module := do
  let (s, parser, buffer) ← env.bufferedLoop env.headerPayload fuel env.newParser buffer {}
  let header := s.header.finish
  let (_, parser, buffer) ←
    env.bufferedLoop (env.codePayload header s.codeSectionBaseOffset) fuel parser buffer ()
  let builder : ModuleBuilder := ⟨header, {}, s.customSections⟩
  let (builder, _, _) ← env.bufferedLoop env.dataPayload fuel parser buffer builder
  return builder.finish

/-- The parser of a new module. -/
def newLoader (env : LoadEnv P V F C) (engine : LoadEngine C) : Loader V C where
  engine := engine
  validator := some env.newValidator
  engineFuncs := 0

/-- `ModuleParser::parse_buffered`: the module and the parser behind it. -/
def parseBuffered (env : LoadEnv P V F C) (fuel : Nat) (engine : LoadEngine C)
    (buffer : List Byte) : Option (Except LoadStop (Module × Loader V C)) :=
  env.parseBufferedImpl fuel buffer (env.newLoader engine)

end LoadEnv

/-! ## The streaming parser -/

/-- A reader that delivers bytes in chunks: a read yields at most as many bytes as asked for, and
none only where none are asked for or none are left. -/
structure ByteStream (R : Type) where
  read : R → Nat → List Byte × R
  rest : R → List Byte
  rest_eq : ∀ r n, rest r = (read r n).1 ++ rest (read r n).2
  length_le : ∀ r n, (read r n).1.length ≤ n
  length_pos : ∀ r n, 0 < n → rest r ≠ [] → (read r n).1 ≠ []

namespace LoadEnv

variable {R : Type}

/-- What the streaming loops work on besides their own state: the binary parser, the flag for the
end of the stream, the buffer and the stream. -/
structure StreamState (P R : Type) where
  parser : P
  eof : Bool
  buffer : List Byte
  stream : R

/-- `ParseBuffer::pull_bytes`, with the flag it is assigned to. -/
def StreamState.pullBytes (bytes : ByteStream R) (hint : Nat) (state : StreamState P R) :
    StreamState P R :=
  let (read, stream) := bytes.read state.stream hint
  { state with buffer := state.buffer ++ read, eof := decide (read.length = 0), stream }

/-- The loops of `parser/streaming.rs` with the body of one of them; the header loop alone stops
at the end of the stream. -/
def streamingLoop {S : Type} (env : LoadEnv P V F C) (bytes : ByteStream R) (stopAtEof : Bool)
    (body : S → Payload → List Byte → LoadM V C (Flow S)) :
    (fuel : Nat) → StreamState P R → S → LoopM V C (S × StreamState P R)
  | 0, _, _ => unfinished
  | fuel + 1, state, s => do
    match env.parse state.parser state.buffer state.eof with
    | .error error => throw (.error (.wasm error))
    | .ok (.needMoreData hint, parser) =>
      let state := { state with parser }.pullBytes bytes hint
      if stopAtEof && state.eof then
        return (s, state)
      else
        env.streamingLoop bytes stopAtEof body fuel state s
    | .ok (.parsed consumed payload, parser) =>
      let state := { state with parser }
      let rest := { state with buffer := state.buffer.drop consumed }
      match ← (body s payload (state.buffer.take consumed)).once with
      | .next s => env.streamingLoop bytes stopAtEof body fuel rest s
      | .stop s true => return (s, rest)
      | .stop s false => return (s, state)

/-- `ModuleParser::parse_streaming_impl`. -/
def parseStreamingImpl (env : LoadEnv P V F C) (bytes : ByteStream R) (fuel : Nat) (stream : R) :
    LoopM V C Module := do
  let state : StreamState P R := ⟨env.newParser, false, [], stream⟩
  let (s, state) ← env.streamingLoop bytes true env.headerPayload fuel state {}
  let header := s.header.finish
  let (_, state) ← env.streamingLoop bytes false
    (env.codePayload header s.codeSectionBaseOffset) fuel state ()
  let builder : ModuleBuilder := ⟨header, {}, s.customSections⟩
  let (builder, _) ← env.streamingLoop bytes false env.dataPayload fuel state builder
  return builder.finish

/-- `ModuleParser::parse_streaming`: the module and the parser behind it. -/
def parseStreaming (env : LoadEnv P V F C) (bytes : ByteStream R) (fuel : Nat)
    (engine : LoadEngine C) (stream : R) : Option (Except LoadStop (Module × Loader V C)) :=
  env.parseStreamingImpl bytes fuel stream (env.newLoader engine)

end LoadEnv

end MotokoDebugger
