import MotokoDebugger.Module.StringInterner
import MotokoDebugger.Module.Instantiate

/-!
# Definitions of a linker

`linker.rs`: the tables behind the definitions of a linker, and those of a `LinkerBuilder` that it
may share. The engine, which the two must have in common with a store, is left out.

* `ImportKey`: the symbols of a module name and an item name in one number.
* `LinkerInner`, `LinkerTables`: `LinkerInner` and `Linker`, where `none` is a panic.
* `Defines`: the tables hold the definitions.
* `linker_exact`: a pair of names has the definition it was first given, and only that.
-/

namespace MotokoDebugger

open Std

/-! ## Keys -/

/-- `ImportKey`. -/
abbrev ImportKey := BitVec 64

namespace ImportKey

/-- `ImportKey::new`. -/
def new (module_ name : Sym) : ImportKey :=
  module_.setWidth 64 <<< 32 ||| name.setWidth 64

/-- `ImportKey::module`. -/
def module_ (key : ImportKey) : Sym := (key >>> 32).setWidth 32

/-- `ImportKey::name`. -/
def name (key : ImportKey) : Sym := key.setWidth 32

lemma module_new (module_ name : Sym) : (new module_ name).module_ = module_ := by
  rw [new, ImportKey.module_]
  ext i hi
  have hlt : 32 + i < 64 := by omega
  have hge : ¬32 + i < 32 := by omega
  have hwidth : i < 64 := by omega
  simp [hlt, hge, hwidth, BitVec.getLsbD_eq_getElem hi]

lemma name_new (module_ name : Sym) : (new module_ name).name = name := by
  rw [new, ImportKey.name]
  ext i hi
  simp

end ImportKey

/-! ## Tables -/

/-- `LinkerError::DuplicateDefinition`. -/
structure DuplicateDefinition where
  importName : ImportName
deriving Repr, DecidableEq

/-- `LinkerInner`. -/
structure LinkerInner where
  strings : StringInterner := {}
  definitions : TreeMap ImportKey Definition := ∅

namespace LinkerInner

/-- `new_import_key`. -/
def newImportKey (inner : LinkerInner) (module_ name : String) :
    Option (ImportKey × LinkerInner) := do
  let interned ← inner.strings.getOrInternWithHint module_ .likelyExists
  let interned' ← interned.2.getOrInternWithHint name .likelyNew
  return (ImportKey.new interned.1 interned'.1, { inner with strings := interned'.2 })

/-- `get_import_key`. -/
def getImportKey (inner : LinkerInner) (module_ name : String) : Option ImportKey := do
  let module_ ← inner.strings.get module_
  let name ← inner.strings.get name
  return ImportKey.new module_ name

/-- `resolve_import_key`. -/
def resolveImportKey (inner : LinkerInner) (key : ImportKey) : Option (String × String) := do
  let moduleName ← inner.strings.resolve key.module_
  let itemName ← inner.strings.resolve key.name
  return (moduleName, itemName)

/-- `insert`. -/
def insert (inner : LinkerInner) (key : ImportKey) (item : Definition) :
    Option (Except DuplicateDefinition Unit × LinkerInner) :=
  if inner.definitions.contains key then do
    let names ← inner.resolveImportKey key
    return (.error ⟨⟨names.1, names.2⟩⟩, inner)
  else
    some (.ok (), { inner with definitions := inner.definitions.insert key item })

/-- The methods that add a definition, with the definition. -/
def add (inner : LinkerInner) (module_ name : String) (item : Definition) :
    Option (Except DuplicateDefinition Unit × LinkerInner) := do
  let key ← inner.newImportKey module_ name
  key.2.insert key.1 item

/-- `func_new`, with the function as it is allocated. -/
def funcNew (inner : LinkerInner) (module_ name : String) (func : HostFuncEntity) :
    Option (Except DuplicateDefinition Unit × LinkerInner) :=
  inner.add module_ name (.hostFunc func)

/-- `func_wrap`. -/
def funcWrap (inner : LinkerInner) (module_ name : String) (func : HostFuncEntity) :
    Option (Except DuplicateDefinition Unit × LinkerInner) :=
  inner.add module_ name (.hostFunc func)

/-- `get_definition`. -/
def getDefinition (inner : LinkerInner) (module_ name : String) : Option Definition := do
  let key ← inner.getImportKey module_ name
  inner.definitions[key]?

/-- `has_definition`. -/
def hasDefinition (inner : LinkerInner) (module_ name : String) : Bool :=
  match inner.getImportKey module_ name with
  | none => false
  | some key => inner.definitions.contains key

end LinkerInner

/-- `Linker`. -/
structure LinkerTables where
  shared : Option LinkerInner := none
  inner : LinkerInner := {}

namespace LinkerTables

/-- `ensure_undefined`. -/
def ensureUndefined (linker : LinkerTables) (module_ name : String) :
    Except DuplicateDefinition Unit :=
  match linker.shared with
  | some shared =>
    if shared.hasDefinition module_ name then .error ⟨⟨module_, name⟩⟩ else .ok ()
  | none => .ok ()

/-- The methods that add a definition, with the definition. -/
def add (linker : LinkerTables) (module_ name : String) (item : Definition) :
    Option (Except DuplicateDefinition Unit × LinkerTables) :=
  match linker.ensureUndefined module_ name with
  | .error error => some (.error error, linker)
  | .ok () => (linker.inner.add module_ name item).map fun result =>
    (result.1, { linker with inner := result.2 })

/-- `define`. -/
def define (linker : LinkerTables) (module_ name : String) (item : Extern) :
    Option (Except DuplicateDefinition Unit × LinkerTables) :=
  linker.add module_ name (.item item)

/-- `func_new`, with the function as it is allocated. -/
def funcNew (linker : LinkerTables) (module_ name : String) (func : HostFuncEntity) :
    Option (Except DuplicateDefinition Unit × LinkerTables) :=
  linker.add module_ name (.hostFunc func)

/-- `func_wrap`. -/
def funcWrap (linker : LinkerTables) (module_ name : String) (func : HostFuncEntity) :
    Option (Except DuplicateDefinition Unit × LinkerTables) :=
  linker.add module_ name (.hostFunc func)

/-- `get_definition`. The shared definitions come first. -/
def getDefinition (linker : LinkerTables) (module_ name : String) : Option Definition :=
  match linker.shared.bind (·.getDefinition module_ name) with
  | some item => some item
  | none => linker.inner.getDefinition module_ name

end LinkerTables

/-! ## Calls -/

/-- A call that adds a definition to a linker, or to the definitions of a builder where this has the
method. -/
inductive LinkerCall where
  | define (name : ImportName) (item : Extern)
  | funcNew (name : ImportName) (func : HostFuncEntity)
  | funcWrap (name : ImportName) (func : HostFuncEntity)
deriving Repr, DecidableEq

inductive BuilderCall where
  | funcNew (name : ImportName) (func : HostFuncEntity)
  | funcWrap (name : ImportName) (func : HostFuncEntity)
deriving Repr, DecidableEq

/-- The pair of names that a call defines, with its definition. -/
def LinkerCall.entry : LinkerCall → ImportName × Definition
  | .define name item => (name, .item item)
  | .funcNew name func | .funcWrap name func => (name, .hostFunc func)

def BuilderCall.entry : BuilderCall → ImportName × Definition
  | .funcNew name func | .funcWrap name func => (name, .hostFunc func)

namespace LinkerInner

def call (inner : LinkerInner) :
    BuilderCall → Option (Except DuplicateDefinition Unit × LinkerInner)
  | .funcNew name func => inner.funcNew name.module_ name.field func
  | .funcWrap name func => inner.funcWrap name.module_ name.field func

/-- A sequence of calls. A refused one is passed over. -/
def calls (inner : LinkerInner) (calls : List BuilderCall) : Option LinkerInner :=
  calls.foldlM (fun inner call => (inner.call call).map (·.2)) inner

end LinkerInner

namespace LinkerTables

def call (linker : LinkerTables) :
    LinkerCall → Option (Except DuplicateDefinition Unit × LinkerTables)
  | .define name item => linker.define name.module_ name.field item
  | .funcNew name func => linker.funcNew name.module_ name.field func
  | .funcWrap name func => linker.funcWrap name.module_ name.field func

/-- A sequence of calls. A refused one is passed over. -/
def calls (linker : LinkerTables) (calls : List LinkerCall) : Option LinkerTables :=
  calls.foldlM (fun linker call => (linker.call call).map (·.2)) linker

/-- `LinkerBuilder::create` after the calls of the builder, or `Linker::new`. -/
def create : Option (List BuilderCall) → Option LinkerTables
  | none => some {}
  | some built => do
    let shared ← LinkerInner.calls {} built
    return { shared := some shared }

end LinkerTables

/-- What the calls define, in their order. -/
def definedBy (built : Option (List BuilderCall)) (calls : List LinkerCall) :
    List (ImportName × Definition) :=
  (built.getD []).map BuilderCall.entry ++ calls.map LinkerCall.entry

/-- Every pair has the definition that it is given first. -/
def firstDefinitions (entries : List (ImportName × Definition)) : Linker :=
  fun name => entries.lookup name

/-! ## Keys are pairs of names -/

/-- The strings correspond to their symbols, and the keys are made of these. -/
structure LinkerInner.Valid (inner : LinkerInner) : Prop where
  strings : inner.strings.Valid
  symbols : ∀ {key : ImportKey} {item : Definition}, inner.definitions[key]? = some item →
    key.module_.toNat < inner.strings.strings.length ∧
      key.name.toNat < inner.strings.strings.length

/-- The tables hold the definitions. -/
structure LinkerInner.Defines (inner : LinkerInner) (definitions : Linker) : Prop
    extends inner.Valid where
  getDefinition_eq : ∀ name : ImportName,
    inner.getDefinition name.module_ name.field = definitions name

structure LinkerTables.Defines (linker : LinkerTables) (definitions : Linker) : Prop where
  valid : linker.inner.Valid
  getDefinition_eq : ∀ name : ImportName,
    linker.getDefinition name.module_ name.field = definitions name

section Keys

variable {inner inner' : LinkerInner} {definitions : Linker} {module_ name string : String}
  {symbol : Sym} {key : ImportKey} {strings : StringInterner} {item : Definition}

lemma getImportKey_eq : inner.getImportKey module_ name =
    (inner.strings.get module_).bind fun symbol =>
      (inner.strings.get name).map fun symbol' => ImportKey.new symbol symbol' := by
  rw [LinkerInner.getImportKey]
  cases inner.strings.get module_ with
  | none => rfl
  | some symbol => cases inner.strings.get name <;> rfl

lemma getImportKey_eq_some : inner.getImportKey module_ name = some key ↔
    ∃ symbol symbol', inner.strings.get module_ = some symbol ∧
      inner.strings.get name = some symbol' ∧ ImportKey.new symbol symbol' = key := by
  rw [getImportKey_eq, Option.bind_eq_some_iff]
  simp only [Option.map_eq_some_iff, exists_and_left]

lemma getDefinition_eq_bind : inner.getDefinition module_ name =
    (inner.getImportKey module_ name).bind fun key => inner.definitions[key]? := rfl

/-- Different pairs have different keys. -/
lemma LinkerInner.Valid.key_inj (h : inner.Valid) {module_' name' : String}
    (hkey : inner.getImportKey module_ name = some key)
    (hkey' : inner.getImportKey module_' name' = some key) : module_ = module_' ∧ name = name' := by
  obtain ⟨symbol, symbol', hmodule, hname, heq⟩ := getImportKey_eq_some.1 hkey
  obtain ⟨other, other', hmodule', hname', heq'⟩ := getImportKey_eq_some.1 hkey'
  have hsymbol := congrArg ImportKey.module_ (heq.trans heq'.symm)
  have hsymbol' := congrArg ImportKey.name (heq.trans heq'.symm)
  rw [ImportKey.module_new, ImportKey.module_new] at hsymbol
  rw [ImportKey.name_new, ImportKey.name_new] at hsymbol'
  rw [hsymbol] at hmodule
  rw [hsymbol'] at hname
  exact ⟨h.strings.get_inj hmodule hmodule', h.strings.get_inj hname hname'⟩

/-- The key of an error names the pair. -/
lemma LinkerInner.Valid.resolveImportKey (h : inner.Valid)
    (hkey : inner.getImportKey module_ name = some key) :
    inner.resolveImportKey key = some (module_, name) := by
  obtain ⟨symbol, symbol', hmodule, hname, rfl⟩ := getImportKey_eq_some.1 hkey
  rw [LinkerInner.resolveImportKey, ImportKey.module_new, ImportKey.name_new,
    (h.strings.get_eq_some module_ symbol).1 hmodule, (h.strings.get_eq_some name symbol').1 hname]
  rfl

/-- A string that is interned gives no pair a definition. -/
lemma LinkerInner.Defines.interned (h : inner.Defines definitions)
    (hinterned : inner.strings.Interned string symbol strings) :
    LinkerInner.Defines { inner with strings := strings } definitions where
  strings := hinterned.valid
  symbols hitem := by
    have hlt := h.symbols hitem
    exact ⟨Nat.lt_of_lt_of_le hlt.1 hinterned.length_le,
      Nat.lt_of_lt_of_le hlt.2 hinterned.length_le⟩
  getDefinition_eq pair := by
    rw [← h.getDefinition_eq pair, getDefinition_eq_bind, getDefinition_eq_bind]
    cases hold : inner.getImportKey pair.module_ pair.field with
    | some key =>
      obtain ⟨symbol₁, symbol₂, hmodule, hfield, rfl⟩ := getImportKey_eq_some.1 hold
      have hnew : LinkerInner.getImportKey { inner with strings := strings } pair.module_
          pair.field = some (ImportKey.new symbol₁ symbol₂) :=
        getImportKey_eq_some.2
          ⟨symbol₁, symbol₂, hinterned.keeps hmodule, hinterned.keeps hfield, rfl⟩
      rw [hnew]
    | none =>
      cases hnew : LinkerInner.getImportKey { inner with strings := strings } pair.module_
          pair.field with
      | none => rfl
      | some key =>
        -- one of the symbols is new, and no definition has it in its key
        obtain ⟨symbol₁, symbol₂, hmodule, hfield, rfl⟩ := getImportKey_eq_some.1 hnew
        show inner.definitions[ImportKey.new symbol₁ symbol₂]? = none
        by_contra hsome
        obtain ⟨item, hitem⟩ := Option.ne_none_iff_exists'.1 hsome
        have hlt := h.symbols hitem
        rw [ImportKey.module_new, ImportKey.name_new] at hlt
        have hmodule' := (hinterned.adds hmodule).resolve_right (by omega)
        have hfield' := (hinterned.adds hfield).resolve_right (by omega)
        rw [getImportKey_eq_some.2 ⟨symbol₁, symbol₂, hmodule', hfield', rfl⟩] at hold
        cases hold

/-- The key of a pair, which is interned where it is new. -/
lemma LinkerInner.Defines.newImportKey (h : inner.Defines definitions)
    (hnew : inner.newImportKey module_ name = some (key, inner')) :
    inner'.Defines definitions ∧ inner'.getImportKey module_ name = some key ∧
      inner.strings.strings.length ≤ inner'.strings.strings.length := by
  obtain ⟨⟨symbol, strings⟩, hmodule, hnew⟩ := Option.bind_eq_some_iff.1 hnew
  obtain ⟨⟨symbol', strings'⟩, hname, hnew⟩ := Option.bind_eq_some_iff.1 hnew
  cases hnew
  have hinterned := h.strings.interned hmodule
  have hinterned' := hinterned.valid.interned hname
  have hfirst := h.interned hinterned
  refine ⟨hfirst.interned hinterned', ?_, ?_⟩
  · exact getImportKey_eq_some.2
      ⟨symbol, symbol', hinterned'.keeps hinterned.get_self, hinterned'.get_self, rfl⟩
  · exact Nat.le_trans hinterned.length_le hinterned'.length_le

lemma newImportKey_of_get (hkey : inner.getImportKey module_ name = some key) :
    inner.newImportKey module_ name = some (key, inner) := by
  obtain ⟨symbol, symbol', hmodule, hname, rfl⟩ := getImportKey_eq_some.1 hkey
  rw [LinkerInner.newImportKey, StringInterner.getOrInternWithHint_of_get hmodule]
  simp only [Option.bind_eq_bind, Option.bind_some,
    StringInterner.getOrInternWithHint_of_get hname]
  rfl

lemma contains_iff : inner.definitions.contains key = (inner.definitions[key]?).isSome := by
  rw [TreeMap.contains_eq_isSome_getElem?]

/-- A pair that has a definition is refused, and nothing changes. -/
lemma LinkerInner.Defines.add_of_some (h : inner.Defines definitions) (pair : ImportName)
    (hsome : definitions pair = some item) (item' : Definition) :
    inner.add pair.module_ pair.field item' = some (.error ⟨pair⟩, inner) := by
  rw [← h.getDefinition_eq pair, getDefinition_eq_bind] at hsome
  obtain ⟨key, hkey, hitem⟩ := Option.bind_eq_some_iff.1 hsome
  have hcontains : inner.definitions.contains key = true := by
    rw [contains_iff, hitem]
    rfl
  rw [LinkerInner.add, newImportKey_of_get hkey]
  show inner.insert key item' = _
  rw [LinkerInner.insert, if_pos hcontains, h.resolveImportKey hkey]
  rfl

/-- Two names are interned, so that there may be one symbol too few for the second. -/
lemma LinkerInner.Valid.full_of_newImportKey (h : inner.Valid)
    (hnew : inner.newImportKey module_ name = none) :
    2 ^ 32 ≤ inner.strings.strings.length + 1 := by
  cases hmodule : inner.strings.getOrInternWithHint module_ .likelyExists with
  | none =>
    have hfull := (StringInterner.full_of_none hmodule).2
    omega
  | some interned =>
    rw [LinkerInner.newImportKey, hmodule] at hnew
    cases hname : interned.2.getOrInternWithHint name .likelyNew with
    | none =>
      have hfull := (StringInterner.full_of_none hname).2
      have hlength := (h.strings.interned hmodule).length_le_succ
      omega
    | some interned' =>
      simp only [Option.bind_eq_bind, Option.bind_some, hname] at hnew
      cases hnew

/-- A definition is inserted for the pair of its key only. -/
lemma LinkerInner.Defines.inserted (h : inner.Defines definitions) {pair : ImportName}
    (hkey : inner.getImportKey pair.module_ pair.field = some key) (item : Definition) :
    LinkerInner.Defines { inner with definitions := inner.definitions.insert key item }
      (Function.update definitions pair (some item)) where
  strings := h.strings
  symbols {other _} hitem := by
    rw [TreeMap.getElem?_insert] at hitem
    split at hitem
    case isTrue heq =>
      rw [← LawfulEqCmp.compare_eq_iff_eq.1 heq]
      obtain ⟨symbol, symbol', hmodule, hfield, rfl⟩ := getImportKey_eq_some.1 hkey
      rw [ImportKey.module_new, ImportKey.name_new]
      exact ⟨h.strings.toNat_lt hmodule, h.strings.toNat_lt hfield⟩
    case isFalse => exact h.symbols hitem
  getDefinition_eq other := by
    rw [getDefinition_eq_bind]
    show (inner.getImportKey other.module_ other.field).bind _ = _
    by_cases hother : other = pair
    · rw [hother, hkey, Function.update_self]
      exact TreeMap.getElem?_insert_self
    · rw [Function.update_of_ne hother, ← h.getDefinition_eq other, getDefinition_eq_bind]
      cases hkey' : inner.getImportKey other.module_ other.field with
      | none => rfl
      | some key' =>
        have hne : key ≠ key' := by
          intro heq
          obtain ⟨hmodule, hfield⟩ := h.key_inj (heq ▸ hkey') hkey
          exact hother (congrArg₂ ImportName.mk hmodule hfield)
        show (inner.definitions.insert key item)[key']? = inner.definitions[key']?
        rw [TreeMap.getElem?_insert, if_neg]
        intro heq
        exact hne (LawfulEqCmp.compare_eq_iff_eq.1 heq)

/-- A new pair gets the definition, unless the symbols are used up. -/
lemma LinkerInner.Defines.add_of_none (h : inner.Defines definitions) (pair : ImportName)
    (hnone : definitions pair = none) (item : Definition) :
    (inner.add pair.module_ pair.field item = none ∧ 2 ^ 32 ≤ inner.strings.strings.length + 1) ∨
      ∃ inner', inner.add pair.module_ pair.field item = some (.ok (), inner') ∧
        inner'.Defines (Function.update definitions pair (some item)) := by
  cases hnew : inner.newImportKey pair.module_ pair.field with
  | none =>
    left
    rw [LinkerInner.add, hnew]
    exact ⟨rfl, h.toValid.full_of_newImportKey hnew⟩
  | some key =>
    right
    obtain ⟨hinner, hkey, -⟩ := h.newImportKey hnew
    have habsent : key.2.definitions[key.1]? = none := by
      rw [← hinner.getDefinition_eq pair, getDefinition_eq_bind, hkey] at hnone
      exact hnone
    have hcontains : ¬key.2.definitions.contains key.1 = true := by
      rw [contains_iff, habsent]
      exact Bool.false_ne_true
    refine ⟨{ key.2 with definitions := key.2.definitions.insert key.1 item }, ?_, ?_⟩
    · rw [LinkerInner.add, hnew]
      show key.2.insert key.1 item = _
      rw [LinkerInner.insert, if_neg hcontains]
    · exact hinner.inserted hkey item

end Keys

/-! ## Runs of calls -/

section Calls

variable {inner inner' : LinkerInner} {linker linker' : LinkerTables} {definitions : Linker}
  {entries : List (ImportName × Definition)} {pair : ImportName} {item item' : Definition}

lemma hasDefinition_eq {module_ name : String} :
    inner.hasDefinition module_ name = (inner.getDefinition module_ name).isSome := by
  rw [getDefinition_eq_bind, LinkerInner.hasDefinition]
  cases inner.getImportKey module_ name with
  | none => rfl
  | some key => exact contains_iff

lemma ensureUndefined_eq : linker.ensureUndefined pair.module_ pair.field =
    if (linker.shared.bind (·.getDefinition pair.module_ pair.field)).isSome then
      .error ⟨pair⟩ else .ok () := by
  rw [LinkerTables.ensureUndefined]
  cases linker.shared with
  | none => rfl
  | some shared =>
    dsimp only
    rw [hasDefinition_eq]
    rfl

lemma LinkerTables.getDefinition_eq_or {module_ name : String} :
    linker.getDefinition module_ name =
      (linker.shared.bind (·.getDefinition module_ name)).or
        (linker.inner.getDefinition module_ name) := by
  rw [LinkerTables.getDefinition]
  cases linker.shared.bind (·.getDefinition module_ name) <;> rfl

lemma LinkerTables.Defines.definesInner (h : linker.Defines definitions) :
    linker.inner.Defines fun name => linker.inner.getDefinition name.module_ name.field where
  toValid := h.valid
  getDefinition_eq _ := rfl

/-- A pair that has a definition, a shared one or one of the linker, is refused. -/
lemma LinkerTables.Defines.add_of_some (h : linker.Defines definitions)
    (hsome : definitions pair = some item) (item' : Definition) :
    linker.add pair.module_ pair.field item' = some (.error ⟨pair⟩, linker) := by
  rw [← h.getDefinition_eq, LinkerTables.getDefinition_eq_or] at hsome
  rw [LinkerTables.add, ensureUndefined_eq]
  cases hshared : linker.shared.bind (·.getDefinition pair.module_ pair.field) with
  | some shared => rfl
  | none =>
    rw [hshared, Option.none_or] at hsome
    rw [if_neg (by simp)]
    dsimp only
    rw [h.definesInner.add_of_some pair hsome item']
    rfl

lemma LinkerTables.Defines.add_of_none (h : linker.Defines definitions)
    (hnone : definitions pair = none) (item : Definition) :
    (linker.add pair.module_ pair.field item = none ∧
        2 ^ 32 ≤ linker.inner.strings.strings.length + 1) ∨
      ∃ linker', linker.add pair.module_ pair.field item = some (.ok (), linker') ∧
        linker'.Defines (Function.update definitions pair (some item)) := by
  rw [← h.getDefinition_eq, LinkerTables.getDefinition_eq_or, Option.or_eq_none_iff] at hnone
  have hadd : linker.add pair.module_ pair.field item =
      (linker.inner.add pair.module_ pair.field item).map fun result =>
        (result.1, { linker with inner := result.2 }) := by
    rw [LinkerTables.add, ensureUndefined_eq, hnone.1, if_neg (by simp)]
  rw [hadd]
  obtain ⟨hinner, hfull⟩ | ⟨inner', hinner, hdefines⟩ := h.definesInner.add_of_none pair hnone.2 item
  · left
    rw [hinner]
    exact ⟨rfl, hfull⟩
  · right
    refine ⟨{ linker with inner := inner' }, ?_, hdefines.toValid, ?_⟩
    · rw [hinner]
      rfl
    · intro name
      rw [LinkerTables.getDefinition_eq_or]
      show (linker.shared.bind _).or (inner'.getDefinition _ _) = _
      rw [hdefines.getDefinition_eq]
      by_cases hname : name = pair
      · rw [hname, Function.update_self, Function.update_self, hnone.1]
        rfl
      · rw [Function.update_of_ne hname, Function.update_of_ne hname, ← h.getDefinition_eq,
          LinkerTables.getDefinition_eq_or]

lemma firstDefinitions_append (name : ImportName) :
    firstDefinitions (entries ++ [(pair, item)]) name =
      (firstDefinitions entries name).or (if name = pair then some item else none) := by
  rw [firstDefinitions, firstDefinitions, List.lookup_append, List.lookup_cons, List.lookup_nil]
  by_cases hname : name = pair
  · rw [if_pos hname, beq_iff_eq.2 hname]
  · rw [if_neg hname, beq_false_of_ne hname]

/-- A definition for a pair that has one changes nothing. -/
lemma firstDefinitions_of_some (hsome : firstDefinitions entries pair = some item) :
    firstDefinitions (entries ++ [(pair, item')]) = firstDefinitions entries := by
  funext name
  rw [firstDefinitions_append]
  by_cases hname : name = pair
  · rw [hname, hsome]
    rfl
  · rw [if_neg hname, Option.or_none]

lemma firstDefinitions_of_none (hnone : firstDefinitions entries pair = none) :
    firstDefinitions (entries ++ [(pair, item)]) =
      Function.update (firstDefinitions entries) pair (some item) := by
  funext name
  rw [firstDefinitions_append]
  by_cases hname : name = pair
  · rw [hname, hnone, if_pos rfl, Function.update_self]
    rfl
  · rw [if_neg hname, Option.or_none, Function.update_of_ne hname]

lemma firstDefinitions_eq_none :
    firstDefinitions entries pair = none ↔ pair ∉ entries.map Prod.fst := by
  rw [firstDefinitions, List.lookup_eq_none_iff, List.mem_map]
  constructor
  · intro hne ⟨entry, hentry, heq⟩
    exact bne_iff_ne.1 (hne entry hentry) heq.symm
  · intro hnotMem entry hentry
    exact bne_iff_ne.2 fun heq => hnotMem ⟨entry, hentry, heq.symm⟩

/-- Where a call adds its entry at the end, a sequence of calls adds the entries in their order. -/
lemma firstDefinitions_foldlM {σ γ : Type} {entry : γ → ImportName × Definition}
    {step : σ → γ → Option σ} {Holds : σ → Linker → Prop}
    (hstep : ∀ {entries state state' call}, Holds state (firstDefinitions entries) →
      step state call = some state' → Holds state' (firstDefinitions (entries ++ [entry call])))
    {calls : List γ} {state state' : σ} (h : Holds state (firstDefinitions entries))
    (hrun : calls.foldlM step state = some state') :
    Holds state' (firstDefinitions (entries ++ calls.map entry)) := by
  induction calls generalizing entries state with
  | nil =>
    cases hrun
    rw [List.map_nil, List.append_nil]
    exact h
  | cons call calls ih =>
    rw [List.foldlM_cons] at hrun
    obtain ⟨next, hnext, hrun⟩ := Option.bind_eq_some_iff.1 hrun
    have hrest := ih (hstep h hnext) hrun
    rw [List.append_assoc] at hrest
    exact hrest

lemma LinkerInner.call_eq (call : BuilderCall) : inner.call call =
    inner.add call.entry.1.module_ call.entry.1.field call.entry.2 := by
  cases call <;> rfl

lemma LinkerTables.call_eq (call : LinkerCall) : linker.call call =
    linker.add call.entry.1.module_ call.entry.1.field call.entry.2 := by
  cases call <;> rfl

lemma LinkerInner.Defines.call (h : inner.Defines (firstDefinitions entries))
    {call : BuilderCall} {result : Except DuplicateDefinition Unit × LinkerInner}
    (hcall : inner.call call = some result) :
    result.2.Defines (firstDefinitions (entries ++ [call.entry])) := by
  rw [LinkerInner.call_eq] at hcall
  cases hfirst : firstDefinitions entries call.entry.1 with
  | some item =>
    rw [h.add_of_some _ hfirst] at hcall
    cases hcall
    exact (firstDefinitions_of_some hfirst).symm ▸ h
  | none =>
    obtain ⟨hpanic, -⟩ | ⟨inner', hok, hdefines⟩ := h.add_of_none _ hfirst call.entry.2
    · rw [hpanic] at hcall
      cases hcall
    · rw [hok] at hcall
      cases hcall
      exact (firstDefinitions_of_none hfirst).symm ▸ hdefines

lemma LinkerInner.Defines.calls (h : inner.Defines (firstDefinitions entries))
    {calls : List BuilderCall} (hcalls : inner.calls calls = some inner') :
    inner'.Defines (firstDefinitions (entries ++ calls.map BuilderCall.entry)) := by
  refine firstDefinitions_foldlM ?_ h hcalls
  intro entries inner next call h hnext
  obtain ⟨result, hcall, rfl⟩ := Option.map_eq_some_iff.1 hnext
  exact h.call hcall

lemma LinkerTables.Defines.call (h : linker.Defines (firstDefinitions entries))
    {call : LinkerCall} {result : Except DuplicateDefinition Unit × LinkerTables}
    (hcall : linker.call call = some result) :
    result.2.Defines (firstDefinitions (entries ++ [call.entry])) := by
  rw [LinkerTables.call_eq] at hcall
  cases hfirst : firstDefinitions entries call.entry.1 with
  | some item =>
    rw [h.add_of_some hfirst] at hcall
    cases hcall
    exact (firstDefinitions_of_some hfirst).symm ▸ h
  | none =>
    obtain ⟨hpanic, -⟩ | ⟨linker', hok, hdefines⟩ := h.add_of_none hfirst call.entry.2
    · rw [hpanic] at hcall
      cases hcall
    · rw [hok] at hcall
      cases hcall
      exact (firstDefinitions_of_none hfirst).symm ▸ hdefines

lemma LinkerTables.Defines.calls (h : linker.Defines (firstDefinitions entries))
    {calls : List LinkerCall} (hcalls : linker.calls calls = some linker') :
    linker'.Defines (firstDefinitions (entries ++ calls.map LinkerCall.entry)) := by
  refine firstDefinitions_foldlM ?_ h hcalls
  intro entries linker next call h hnext
  obtain ⟨result, hcall, rfl⟩ := Option.map_eq_some_iff.1 hnext
  exact h.call hcall

lemma LinkerInner.defines_empty : LinkerInner.Defines {} (firstDefinitions []) where
  strings := StringInterner.valid_empty
  symbols hitem := by
    rw [TreeMap.getElem?_emptyc] at hitem
    cases hitem
  getDefinition_eq name := by
    rw [getDefinition_eq_bind]
    cases LinkerInner.getImportKey {} name.module_ name.field with
    | none => rfl
    | some key => exact TreeMap.getElem?_emptyc

lemma LinkerTables.defines_create {built : Option (List BuilderCall)}
    (hcreate : LinkerTables.create built = some linker) :
    linker.Defines (firstDefinitions ((built.getD []).map BuilderCall.entry)) := by
  cases built with
  | none =>
    cases hcreate
    exact ⟨LinkerInner.defines_empty.toValid, LinkerInner.defines_empty.getDefinition_eq⟩
  | some built =>
    obtain ⟨shared, hshared, hcreate⟩ := Option.bind_eq_some_iff.1 hcreate
    cases hcreate
    refine ⟨LinkerInner.defines_empty.toValid, ?_⟩
    intro name
    rw [LinkerTables.getDefinition_eq_or, LinkerInner.defines_empty.getDefinition_eq]
    show (shared.getDefinition _ _).or none = _
    rw [Option.or_none, (LinkerInner.defines_empty.calls hshared).getDefinition_eq]
    rfl

end Calls

/-- After any calls on a linker, which has its first definitions from a builder or none, a pair of
names is looked up as the first definition that a call gave it. A further call is refused exactly
when its pair has been defined, and then it leaves every lookup as it is; it can only panic on a new
pair, when the symbols for its strings are used up. -/
theorem linker_exact (built : Option (List BuilderCall)) (calls : List LinkerCall)
    (created linker : LinkerTables) (hcreate : LinkerTables.create built = some created)
    (hcalls : created.calls calls = some linker) :
    (∀ name : ImportName, linker.getDefinition name.module_ name.field =
      (definedBy built calls).lookup name) ∧
    ∀ call : LinkerCall,
      (call.entry.1 ∈ (definedBy built calls).map Prod.fst →
        linker.call call = some (.error ⟨call.entry.1⟩, linker)) ∧
      (call.entry.1 ∉ (definedBy built calls).map Prod.fst →
        (linker.call call = none ∧ 2 ^ 32 ≤ linker.inner.strings.strings.length + 1) ∨
        ∃ linker', linker.call call = some (.ok (), linker') ∧
          linker'.getDefinition call.entry.1.module_ call.entry.1.field = some call.entry.2 ∧
          ∀ name : ImportName, name ≠ call.entry.1 →
            linker'.getDefinition name.module_ name.field =
              linker.getDefinition name.module_ name.field) := by
  have h : linker.Defines (firstDefinitions (definedBy built calls)) :=
    (LinkerTables.defines_create hcreate).calls hcalls
  refine ⟨h.getDefinition_eq, ?_⟩
  intro call
  rw [LinkerTables.call_eq]
  constructor
  · intro hdefined
    have hsome := mt firstDefinitions_eq_none.1 (not_not.2 hdefined)
    obtain ⟨item, hitem⟩ := Option.ne_none_iff_exists'.1 hsome
    exact h.add_of_some hitem call.entry.2
  · intro hundefined
    have hnone := firstDefinitions_eq_none.2 hundefined
    obtain hpanic | ⟨linker', hok, hlinker⟩ := h.add_of_none hnone call.entry.2
    · exact .inl hpanic
    · refine .inr ⟨linker', hok, ?_, ?_⟩
      · rw [hlinker.getDefinition_eq, Function.update_self]
      · intro name hname
        rw [hlinker.getDefinition_eq, h.getDefinition_eq, Function.update_of_ne hname]

/-- A builder defines `a.b`; `b.a` has the same strings and is new, `a.b` is refused. -/
theorem linker_exact_swapped : ∃ created linker,
    LinkerTables.create (some [.funcNew ⟨"a", "b"⟩ ⟨1, 1, 0, 2⟩]) = some created ∧
    created.calls [.define ⟨"b", "a"⟩ (.global 3)] = some linker ∧
    linker.getDefinition "a" "b" = some (.hostFunc ⟨1, 1, 0, 2⟩) ∧
    linker.getDefinition "b" "a" = some (.item (.global 3)) ∧
    linker.call (.funcWrap ⟨"a", "b"⟩ ⟨0, 0, 3, 4⟩) = some (.error ⟨⟨"a", "b"⟩⟩, linker) := by
  have hcreate : (LinkerTables.create (some [.funcNew ⟨"a", "b"⟩ ⟨1, 1, 0, 2⟩])).isSome = true := by
    decide +kernel
  have hcalls : ((LinkerTables.create (some [.funcNew ⟨"a", "b"⟩ ⟨1, 1, 0, 2⟩])).bind
      (·.calls [.define ⟨"b", "a"⟩ (.global 3)])).isSome = true := by
    decide +kernel
  obtain ⟨created, hcreated⟩ := Option.isSome_iff_exists.1 hcreate
  rw [hcreated] at hcalls
  obtain ⟨linker, hlinker⟩ := Option.isSome_iff_exists.1 hcalls
  have h := linker_exact (some [.funcNew ⟨"a", "b"⟩ ⟨1, 1, 0, 2⟩]) [.define ⟨"b", "a"⟩ (.global 3)]
    created linker hcreated hlinker
  refine ⟨created, linker, hcreated, hlinker, ?_, ?_, ?_⟩
  · exact (h.1 ⟨"a", "b"⟩).trans (by decide)
  · exact (h.1 ⟨"b", "a"⟩).trans (by decide)
  · exact (h.2 (.funcWrap ⟨"a", "b"⟩ ⟨0, 0, 3, 4⟩)).1 (by decide)

end MotokoDebugger
