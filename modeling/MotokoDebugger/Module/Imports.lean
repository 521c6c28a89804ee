import Mathlib.Data.List.Forall2
import MotokoDebugger.Module.Header

/-!
# Imports

`Module::imports` and the binding of external values to imports in `module/instantiate/`.

* `ModuleHeader.ofSections`: a module by its sections.
* `ModuleHeader.importTypes`: `Module::imports`. `ModuleHeader.extractImports`: binding externals.
* `importTypes_eq`: the imports are listed by kind, those of one kind in the order of the section.
* `extractImports_eq_ok`: the externals are bound in the order of that list.
* `importOrder_iff`: that is the order of the section iff the section lists functions first, then
  tables, memories and globals.
-/

namespace MotokoDebugger

variable {T : Type}

/-! ## The sections of a module -/

/-- The sections the imports and the index spaces of a module are made of. Functions are listed by
the indices of their types and are allocated in the code map from `engineFuncs` on. -/
structure HeaderSections where
  engineFuncs : EngineFunc
  funcTypes : List Nat
  imports : List Import
  funcs : List Nat
  tables : List TableType
  memories : List MemoryType
  globals : List (GlobalType × ConstExpr)

/-- The header of a module: `push_func_types`, `push_imports`, `push_funcs`, `push_tables`,
`push_memories`, `push_globals` and `finish`. -/
def ModuleHeader.ofSections (sections : HeaderSections) : Option ModuleHeader := do
  let builder ← ModuleHeaderBuilder.pushImports { funcTypes := sections.funcTypes } sections.imports
  let funcs ← sections.funcs.mapM fun funcTypeIdx => builder.funcTypes[funcTypeIdx]?
  return ModuleHeaderBuilder.finish { builder with
    engineFuncs := ⟨sections.engineFuncs, sections.engineFuncs + sections.funcs.length⟩
    funcs := builder.funcs ++ funcs
    tables := builder.tables ++ sections.tables
    memories := builder.memories ++ sections.memories
    globals := builder.globals ++ sections.globals.map (·.1)
    globalsInit := sections.globals.map (·.2) }

/-! ## Listing the imports -/

/-- The four iterators over the types in `ModuleImportsIter`. -/
structure ModuleImportsIter where
  funcs : List Nat
  tables : List TableType
  memories : List MemoryType
  globals : List GlobalType

namespace ModuleImportsIter

/-- `ModuleImportsIter::next` for the next name; `none` is a panic. -/
def next (funcType : Nat → FuncType) (iter : ModuleImportsIter) :
    Imported → Option (ImportType × ModuleImportsIter)
  | .func name =>
    match iter.funcs with
    | [] => none
    | ty :: funcs => some (⟨name, .func (funcType ty)⟩, { iter with funcs })
  | .table name =>
    match iter.tables with
    | [] => none
    | ty :: tables => some (⟨name, .table ty⟩, { iter with tables })
  | .memory name =>
    match iter.memories with
    | [] => none
    | ty :: memories => some (⟨name, .memory ty⟩, { iter with memories })
  | .global name =>
    match iter.globals with
    | [] => none
    | ty :: globals => some (⟨name, .global ty⟩, { iter with globals })

/-- All that the iterator yields. -/
def toList (funcType : Nat → FuncType) (iter : ModuleImportsIter) :
    List Imported → Option (List ImportType)
  | [] => some []
  | imported :: names => do
    let (import_, iter) ← iter.next funcType imported
    let imports ← iter.toList funcType names
    return import_ :: imports

end ModuleImportsIter

/-- `Module::imports`. -/
def ModuleHeader.importTypes (funcType : Nat → FuncType) (header : ModuleHeader) :
    Option (List ImportType) :=
  let iter : ModuleImportsIter :=
    { funcs := header.funcs.take header.imports.lenFuncs
      tables := header.tables
      memories := header.memories
      globals := header.globals.take header.imports.lenGlobals }
  iter.toList funcType header.imports.items

/-! ## Binding externals -/

/-- A store with the types of its globals. -/
structure LinkStore (T : Type) extends Store T where
  globalTypes : List GlobalType

/-- `InstantiationError`, an error of the limiter, and a panic. -/
inductive InstantiationError where
  | invalidNumberOfImports (required given : Nat)
  | importsExternalsMismatch (expected : ExternType) (actual : Extern)
  | signatureMismatch (expected actual : FuncType)
  | tableSubtype (ty other : TableType)
  | memorySubtype (ty other : MemoryType)
  | globalType (unsatisfying required : GlobalType)
  | tableGrowOutOfBounds (maximum current delta : Nat)
  | tooManyTables
  | memoryOutOfBounds
  | tooManyMemories
  | tooManyInstances
  | limiter
  | panic
deriving Repr, DecidableEq

/-- The entity a handle stands for. -/
def resolveHandle {E : Type} (entities : List E) (handle : Nat) : Except InstantiationError E :=
  match entities[handle]? with
  | some entity => .ok entity
  | none => .error .panic

namespace InstanceEntity

/-- `InstanceEntityBuilder::new`. -/
def build (funcTypes : List Nat) : InstanceEntity where
  funcTypes := funcTypes
  funcs := []
  tables := []
  memories := []
  globals := []
  dataSegments := []
  elemSegments := []

/-- `InstanceEntityBuilder::push_func`, `push_table`, `push_memory` and `push_global`. -/
def push (inst : InstanceEntity) : Extern → InstanceEntity
  | .func func => { inst with funcs := inst.funcs ++ [func] }
  | .table table => { inst with tables := inst.tables ++ [table] }
  | .memory memory => { inst with memories := inst.memories ++ [memory] }
  | .global global => { inst with globals := inst.globals ++ [global] }

/-- The index space of a kind. -/
def space (inst : InstanceEntity) : ExternKind → List Nat
  | .func => inst.funcs
  | .table => inst.tables
  | .memory => inst.memories
  | .global => inst.globals

end InstanceEntity

/-- The check of an external against an import, in the loop of `extract_imports`. -/
def checkExternal (funcType : Nat → FuncType) (store : LinkStore T) (expected : ExternType)
    (external : Extern) : Except InstantiationError Unit :=
  match expected, external with
  | .func expectedSignature, .func func => do
    let entity ← resolveHandle store.funcs func
    let actualSignature := funcType entity.tyDedup
    if actualSignature = expectedSignature then .ok ()
    else .error (.signatureMismatch expectedSignature actualSignature)
  | .table required, .table table => do
    let imported := (← resolveHandle store.tables table).dynamicTy
    if imported.isSubtypeOf required then .ok () else .error (.tableSubtype imported required)
  | .memory required, .memory memory => do
    let imported := (← resolveHandle store.memories memory).dynamicTy
    if imported.isSubtypeOf required then .ok () else .error (.memorySubtype imported required)
  | .global required, .global global => do
    let imported ← resolveHandle store.globalTypes global
    if required = imported then .ok () else .error (.globalType required imported)
  | expected, actual => .error (.importsExternalsMismatch expected actual)

/-- The loop of `extract_imports`. -/
def bindImports (funcType : Nat → FuncType) (store : LinkStore T) (builder : InstanceEntity) :
    List (ImportType × Extern) → Except InstantiationError InstanceEntity
  | [] => .ok builder
  | (import_, external) :: pairs => do
    checkExternal funcType store import_.ty external
    bindImports funcType store (builder.push external) pairs

/-- `Module::extract_imports`. -/
def ModuleHeader.extractImports (funcType : Nat → FuncType) (header : ModuleHeader)
    (store : LinkStore T) (builder : InstanceEntity) (externals : List Extern) :
    Except InstantiationError InstanceEntity :=
  match header.importTypes funcType with
  | none => .error .panic
  | some imports =>
    if imports.length ≠ externals.length then
      .error (.invalidNumberOfImports imports.length externals.length)
    else bindImports funcType store builder (imports.zip externals)

/-! ## The order of the section -/

namespace ExternKind

/-- The position of a kind in `ModuleImports`. -/
def rank : ExternKind → Nat
  | .func => 0
  | .table => 1
  | .memory => 2
  | .global => 3

/-- The entry of `ModuleImports` for an import of a kind. -/
def imported : ExternKind → ImportName → Imported
  | .func => .func
  | .table => .table
  | .memory => .memory
  | .global => .global

end ExternKind

namespace Import

def externKind (item : Import) : ExternKind :=
  match item.kind with
  | .func _ => .func
  | .table _ => .table
  | .memory _ => .memory
  | .global _ => .global

/-- The import by its name in `ModuleImports`. -/
def imported (item : Import) : Imported :=
  item.externKind.imported item.name

/-- What an import of the section declares. The type of a function is in the registry; the types
of a header are, by `ModuleHeader.ofSections`. -/
def declared (funcType : Nat → FuncType) (funcTypes : List Nat) (item : Import) : ImportType where
  name := item.name
  ty :=
    match item.kind with
    | .func funcTypeIdx => .func (funcType (funcTypes.getD funcTypeIdx 0))
    | .table ty => .table ty
    | .memory ty => .memory ty
    | .global ty => .global ty

@[simp]
theorem kind_declared (funcType : Nat → FuncType) (funcTypes : List Nat) (item : Import) :
    (item.declared funcType funcTypes).ty.kind = item.externKind := by
  unfold declared externKind
  rcases item with ⟨name, _ | _ | _ | _⟩ <;> rfl

end Import

/-- Do the functions of an import section come first, then the tables, the memories and the
globals? -/
def Grouped (imports : List Import) : Prop :=
  imports.Pairwise fun a b => a.externKind.rank ≤ b.externKind.rank

/-- The imports of one kind, in the order of the section. -/
def ofKind (kind : ExternKind) (imports : List Import) : List Import :=
  imports.filter fun item => item.externKind = kind

/-- The imports of a section by their kinds. -/
def grouped (imports : List Import) : List Import :=
  ofKind .func imports ++ ofKind .table imports ++ ofKind .memory imports ++ ofKind .global imports

/-- Does a module keep the order of its import section: it lists the imports so, takes externals
that fit the imports in this order, and binds each to the next index of its kind? -/
structure KeepsImportOrder (funcType : Nat → FuncType) (sections : HeaderSections)
    (header : ModuleHeader) : Prop where
  lists : header.importTypes funcType =
    some (sections.imports.map (Import.declared funcType sections.funcTypes))
  accepts : ∀ (T : Type) (store : LinkStore T) (externals : List Extern),
    (∃ inst, header.extractImports funcType store (.build header.funcTypes) externals = .ok inst) ↔
      List.Forall₂ (fun item external => checkExternal funcType store
        (item.declared funcType sections.funcTypes).ty external = .ok ())
        sections.imports externals
  binds : ∀ (T : Type) (store : LinkStore T) (externals : List Extern) (inst : InstanceEntity),
    header.extractImports funcType store (.build header.funcTypes) externals = .ok inst →
    ∀ (i : Nat) (item : Import) (external : Extern), sections.imports[i]? = some item →
      externals[i]? = some external →
      (inst.space item.externKind)[(ofKind item.externKind (sections.imports.take i)).length]? =
        some external.handle

/-! ### Grouping -/

theorem ofKind_cons (kind : ExternKind) (item : Import) (imports : List Import) :
    ofKind kind (item :: imports) =
      if item.externKind = kind then item :: ofKind kind imports else ofKind kind imports := by
  simp [ofKind, List.filter_cons]

theorem ofKind_append (kind : ExternKind) (imports imports' : List Import) :
    ofKind kind (imports ++ imports') = ofKind kind imports ++ ofKind kind imports' := by
  simp [ofKind]

theorem ofKind_ofKind (kind kind' : ExternKind) (imports : List Import) :
    ofKind kind (ofKind kind' imports) = if kind = kind' then ofKind kind imports else [] := by
  unfold ofKind
  rw [List.filter_filter]
  by_cases h : kind = kind'
  · simp [h]
  · rw [if_neg h, List.filter_eq_nil_iff]
    intro item _
    simp only [Bool.and_eq_true, decide_eq_true_eq, not_and]
    intro hkind
    rw [hkind]
    exact h

/-- The imports of one kind keep their order. -/
@[simp]
theorem ofKind_grouped (kind : ExternKind) (imports : List Import) :
    ofKind kind (grouped imports) = ofKind kind imports := by
  unfold grouped
  simp only [ofKind_append, ofKind_ofKind]
  cases kind <;> simp

theorem ofKind_eq_nil {kind : ExternKind} {imports : List Import}
    (h : ∀ item ∈ imports, kind.rank < item.externKind.rank) : ofKind kind imports = [] := by
  unfold ofKind
  rw [List.filter_eq_nil_iff]
  intro item hitem
  have hrank := h item hitem
  simp only [decide_eq_true_eq]
  intro hkind
  rw [hkind] at hrank
  omega

theorem grouped_of_grouped {imports : List Import} (h : Grouped imports) :
    grouped imports = imports := by
  induction imports with
  | nil => rfl
  | cons item imports ih =>
    obtain ⟨hrank, htail⟩ := List.pairwise_cons.mp h
    have hbelow (kind : ExternKind) (hkind : kind.rank < item.externKind.rank) :
        ofKind kind imports = [] :=
      ofKind_eq_nil fun item' hitem' => Nat.lt_of_lt_of_le hkind (hrank item' hitem')
    have hrest := ih htail
    unfold grouped at hrest ⊢
    simp only [ofKind_cons]
    -- the kinds in front of the kind of `item` are absent from the whole list
    cases hitem : item.externKind with
    | func => simpa using hrest
    | table =>
      rw [hbelow .func (by simp [hitem, ExternKind.rank])] at hrest ⊢
      simpa using hrest
    | memory =>
      rw [hbelow .func (by simp [hitem, ExternKind.rank]),
        hbelow .table (by simp [hitem, ExternKind.rank])] at hrest ⊢
      simpa using hrest
    | global =>
      rw [hbelow .func (by simp [hitem, ExternKind.rank]),
        hbelow .table (by simp [hitem, ExternKind.rank]),
        hbelow .memory (by simp [hitem, ExternKind.rank])] at hrest ⊢
      simpa using hrest

theorem mem_ofKind {kind : ExternKind} {imports : List Import} {item : Import}
    (h : item ∈ ofKind kind imports) : item.externKind = kind := by
  simpa using (List.mem_filter.mp h).2

theorem grouped_ofKind (kind : ExternKind) (imports : List Import) :
    Grouped (ofKind kind imports) := by
  apply List.pairwise_of_forall_mem_list
  intro a ha b hb
  exact Nat.le_of_eq (congrArg ExternKind.rank ((mem_ofKind ha).trans (mem_ofKind hb).symm))

/-- Is a list grouped by kinds? This reads the kinds only. -/
theorem grouped_iff_map (imports : List Import) :
    Grouped imports ↔ (imports.map Import.externKind).Pairwise fun a b => a.rank ≤ b.rank := by
  rw [List.pairwise_map]
  rfl

theorem grouped_grouped (imports : List Import) : Grouped (grouped imports) := by
  unfold grouped Grouped
  simp only [List.pairwise_append, List.mem_append]
  refine ⟨⟨⟨grouped_ofKind _ _, grouped_ofKind _ _, ?_⟩, grouped_ofKind _ _, ?_⟩,
    grouped_ofKind _ _, ?_⟩
  · intro a ha b hb
    rw [mem_ofKind ha, mem_ofKind hb]
    decide
  · rintro a (ha | ha) b hb <;> rw [mem_ofKind ha, mem_ofKind hb] <;> decide
  · rintro a ((ha | ha) | ha) b hb <;> rw [mem_ofKind ha, mem_ofKind hb] <;> decide

/-! ### The builder -/

namespace Import

/-- The type of an import in `funcs`, `tables`, `memories` or `globals` of the header. -/
def funcTy (funcTypes : List Nat) (item : Import) : Option Nat :=
  match item.kind with
  | .func funcTypeIdx => some (funcTypes.getD funcTypeIdx 0)
  | _ => none

def tableTy (item : Import) : Option TableType :=
  match item.kind with
  | .table ty => some ty
  | _ => none

def memoryTy (item : Import) : Option MemoryType :=
  match item.kind with
  | .memory ty => some ty
  | _ => none

def globalTy (item : Import) : Option GlobalType :=
  match item.kind with
  | .global ty => some ty
  | _ => none

end Import

namespace ModuleHeaderBuilder

/-- The header under construction behind an import section. -/
def withImports (builder : ModuleHeaderBuilder) (imports : List Import) : ModuleHeaderBuilder :=
  { builder with
    imports := {
      funcs := builder.imports.funcs ++ (ofKind .func imports).map (·.name)
      tables := builder.imports.tables ++ (ofKind .table imports).map (·.name)
      memories := builder.imports.memories ++ (ofKind .memory imports).map (·.name)
      globals := builder.imports.globals ++ (ofKind .global imports).map (·.name) }
    funcs := builder.funcs ++ imports.filterMap (Import.funcTy builder.funcTypes)
    tables := builder.tables ++ imports.filterMap Import.tableTy
    memories := builder.memories ++ imports.filterMap Import.memoryTy
    globals := builder.globals ++ imports.filterMap Import.globalTy }

theorem pushImport_eq {builder builder' : ModuleHeaderBuilder} {item : Import}
    (h : builder.pushImport item = some builder') : builder' = builder.withImports [item] := by
  rcases item with ⟨name, funcTypeIdx | ty | ty | ty⟩
  · simp only [pushImport, Option.bind_eq_bind, Option.pure_def, Option.bind_eq_some_iff] at h
    obtain ⟨funcType, hty, h⟩ := h
    simp only [Option.some.injEq] at h
    rw [← h]
    simp [withImports, ofKind, Import.externKind, Import.funcTy, Import.tableTy, Import.memoryTy,
      Import.globalTy, List.getD_eq_getElem?_getD, hty]
  all_goals
    simp only [pushImport, Option.some.injEq] at h
    rw [← h]
    simp [withImports, ofKind, Import.externKind, Import.funcTy, Import.tableTy, Import.memoryTy,
      Import.globalTy]

theorem withImports_withImports (builder : ModuleHeaderBuilder) (imports imports' : List Import) :
    (builder.withImports imports).withImports imports' = builder.withImports (imports ++ imports') := by
  simp [withImports, ofKind_append]

theorem pushImports_eq {builder builder' : ModuleHeaderBuilder} {imports : List Import}
    (h : builder.pushImports imports = some builder') : builder' = builder.withImports imports := by
  induction imports generalizing builder with
  | nil =>
    simp only [pushImports, Option.some.injEq] at h
    rw [← h]
    simp [withImports, ofKind]
  | cons item imports ih =>
    simp only [pushImports, Option.bind_eq_bind, Option.bind_eq_some_iff] at h
    obtain ⟨next, hnext, h⟩ := h
    rw [ih h, pushImport_eq hnext, withImports_withImports, List.singleton_append]

end ModuleHeaderBuilder

/-! ### The iterator -/

namespace ModuleImportsIter

/-- The iterators in front of the types of some imports. -/
def supply (funcTypes : List Nat) (imports : List Import) (iter : ModuleImportsIter) :
    ModuleImportsIter where
  funcs := imports.filterMap (Import.funcTy funcTypes) ++ iter.funcs
  tables := imports.filterMap Import.tableTy ++ iter.tables
  memories := imports.filterMap Import.memoryTy ++ iter.memories
  globals := imports.filterMap Import.globalTy ++ iter.globals

theorem next_supply (funcType : Nat → FuncType) (funcTypes : List Nat) (item : Import)
    (imports : List Import) (iter : ModuleImportsIter) :
    (iter.supply funcTypes (item :: imports)).next funcType item.imported =
      some (item.declared funcType funcTypes, iter.supply funcTypes imports) := by
  rcases item with ⟨name, _ | _ | _ | _⟩ <;> rfl

/-- One counter a kind is enough: the names in any order meet their own types. -/
theorem toList_supply (funcType : Nat → FuncType) (funcTypes : List Nat) (imports : List Import)
    (iter : ModuleImportsIter) :
    (iter.supply funcTypes imports).toList funcType (imports.map Import.imported) =
      some (imports.map (Import.declared funcType funcTypes)) := by
  induction imports with
  | nil => rfl
  | cons item imports ih =>
    simp only [List.map_cons, toList, next_supply, Option.bind_eq_bind, Option.bind_some, ih,
      Option.pure_def]

end ModuleImportsIter

/-! ### What a module lists -/

theorem filterMap_grouped {A : Type} (kind : ExternKind) (f : Import → Option A)
    (hf : ∀ item, item.externKind ≠ kind → f item = none) (imports : List Import) :
    (grouped imports).filterMap f = imports.filterMap f := by
  have hkind (l : List Import) : (ofKind kind l).filterMap f = l.filterMap f := by
    induction l with
    | nil => rfl
    | cons item l ih =>
      rw [ofKind_cons]
      by_cases h : item.externKind = kind
      · rw [if_pos h, List.filterMap_cons, List.filterMap_cons, ih]
      · rw [if_neg h, ih, List.filterMap_cons_none (hf item h)]
  rw [← hkind, ofKind_grouped, hkind]

theorem length_filterMap_ofKind {A : Type} (kind : ExternKind) (f : Import → Option A)
    (hf : ∀ item, (f item).isSome ↔ item.externKind = kind) (imports : List Import) :
    (imports.filterMap f).length = (ofKind kind imports).length := by
  induction imports with
  | nil => rfl
  | cons item imports ih =>
    rw [ofKind_cons]
    by_cases h : item.externKind = kind
    · obtain ⟨a, ha⟩ := Option.isSome_iff_exists.mp ((hf item).mpr h)
      rw [List.filterMap_cons_some ha, if_pos h, List.length_cons, List.length_cons, ih]
    · have hnone : f item = none := by
        rw [← Option.not_isSome_iff_eq_none]
        exact fun hsome => h ((hf item).mp hsome)
      rw [List.filterMap_cons_none hnone, if_neg h, ih]

namespace Import

theorem funcTy_isSome (funcTypes : List Nat) (item : Import) :
    (item.funcTy funcTypes).isSome ↔ item.externKind = .func := by
  rcases item with ⟨name, _ | _ | _ | _⟩ <;> simp [funcTy, externKind]

theorem tableTy_isSome (item : Import) : item.tableTy.isSome ↔ item.externKind = .table := by
  rcases item with ⟨name, _ | _ | _ | _⟩ <;> simp [tableTy, externKind]

theorem memoryTy_isSome (item : Import) : item.memoryTy.isSome ↔ item.externKind = .memory := by
  rcases item with ⟨name, _ | _ | _ | _⟩ <;> simp [memoryTy, externKind]

theorem globalTy_isSome (item : Import) : item.globalTy.isSome ↔ item.externKind = .global := by
  rcases item with ⟨name, _ | _ | _ | _⟩ <;> simp [globalTy, externKind]

end Import

/-- The iterators over the types of grouped imports are those over the types of the section. -/
theorem ModuleImportsIter.supply_grouped (funcTypes : List Nat) (imports : List Import)
    (iter : ModuleImportsIter) :
    iter.supply funcTypes (grouped imports) = iter.supply funcTypes imports := by
  have hnone {A : Type} {kind : ExternKind} {f : Import → Option A}
      (hf : ∀ item, (f item).isSome ↔ item.externKind = kind) (item : Import)
      (h : item.externKind ≠ kind) : f item = none := by
    rw [← Option.not_isSome_iff_eq_none]
    exact fun hsome => h ((hf item).mp hsome)
  unfold supply
  rw [filterMap_grouped .func _ (hnone (Import.funcTy_isSome funcTypes)),
    filterMap_grouped .table _ (hnone Import.tableTy_isSome),
    filterMap_grouped .memory _ (hnone Import.memoryTy_isSome),
    filterMap_grouped .global _ (hnone Import.globalTy_isSome)]

theorem map_imported_ofKind (kind : ExternKind) (imports : List Import) :
    ((ofKind kind imports).map (·.name)).map kind.imported =
      (ofKind kind imports).map Import.imported := by
  rw [List.map_map]
  apply List.map_congr_left
  intro item hitem
  simp only [Function.comp_apply, Import.imported, mem_ofKind hitem]

/-- The names of a module are those of its grouped imports. -/
theorem items_withImports (funcTypes : List Nat) (imports : List Import) :
    (ModuleHeaderBuilder.withImports { funcTypes } imports).imports.finish.items =
      (grouped imports).map Import.imported := by
  have hkind (kind : ExternKind) := map_imported_ofKind kind imports
  have hfunc := hkind .func
  have htable := hkind .table
  have hmemory := hkind .memory
  have hglobal := hkind .global
  simp only [ExternKind.imported] at hfunc htable hmemory hglobal
  simp only [ModuleHeaderBuilder.withImports, ModuleImportsBuilder.finish, List.nil_append, grouped,
    List.map_append, hfunc, htable, hmemory, hglobal]

/-- The imports of a module are those of its import section by kinds: functions, tables, memories,
then globals. -/
theorem importTypes_eq (funcType : Nat → FuncType) {sections : HeaderSections}
    {header : ModuleHeader} (h : ModuleHeader.ofSections sections = some header) :
    header.importTypes funcType =
      some ((grouped sections.imports).map (Import.declared funcType sections.funcTypes)) := by
  simp only [ModuleHeader.ofSections, Option.bind_eq_bind, Option.bind_eq_some_iff, Option.pure_def,
    Option.some.injEq] at h
  obtain ⟨builder, hbuilder, funcs, _, rfl⟩ := h
  have hb := ModuleHeaderBuilder.pushImports_eq hbuilder
  have hfuncs : builder.imports.finish.lenFuncs = builder.funcs.length := by
    rw [hb]
    simp only [ModuleHeaderBuilder.withImports, ModuleImportsBuilder.finish, List.nil_append,
      List.length_map]
    exact (length_filterMap_ofKind .func _ (Import.funcTy_isSome sections.funcTypes) _).symm
  have hglobals : builder.imports.finish.lenGlobals = builder.globals.length := by
    rw [hb]
    simp only [ModuleHeaderBuilder.withImports, ModuleImportsBuilder.finish, List.nil_append,
      List.length_map]
    exact (length_filterMap_ofKind .global _ Import.globalTy_isSome _).symm
  unfold ModuleHeader.importTypes
  simp only [ModuleHeaderBuilder.finish, hfuncs, hglobals, List.take_left]
  rw [hb, items_withImports]
  -- the tables and memories of the module itself stay behind the last import
  have hiter := ModuleImportsIter.toList_supply funcType sections.funcTypes
    (grouped sections.imports)
    { funcs := [], tables := sections.tables, memories := sections.memories, globals := [] }
  rw [ModuleImportsIter.supply_grouped] at hiter
  rw [← hiter]
  simp [ModuleHeaderBuilder.withImports, ModuleImportsIter.supply]

/-! ### What an instance is bound to -/

/-- The externals of one kind, in their order. -/
def externalsOfKind (kind : ExternKind) (externals : List Extern) : List Nat :=
  (externals.filter fun external => external.kind = kind).map Extern.handle

theorem space_push (inst : InstanceEntity) (external : Extern) (kind : ExternKind) :
    (inst.push external).space kind = inst.space kind ++ externalsOfKind kind [external] := by
  cases external <;> cases kind <;> simp [InstanceEntity.push, InstanceEntity.space,
    externalsOfKind, Extern.kind, Extern.handle]

theorem externalsOfKind_append (kind : ExternKind) (externals externals' : List Extern) :
    externalsOfKind kind (externals ++ externals') =
      externalsOfKind kind externals ++ externalsOfKind kind externals' := by
  simp [externalsOfKind]

theorem space_pushes (inst : InstanceEntity) (externals : List Extern) (kind : ExternKind) :
    (externals.foldl InstanceEntity.push inst).space kind =
      inst.space kind ++ externalsOfKind kind externals := by
  induction externals generalizing inst with
  | nil => simp [externalsOfKind]
  | cons external externals ih =>
    rw [List.foldl_cons, ih, space_push, List.append_assoc, ← externalsOfKind_append,
      List.singleton_append]

/-- An external that fits an import is of its kind. -/
theorem kind_eq_of_checkExternal {funcType : Nat → FuncType} {store : LinkStore T}
    {expected : ExternType} {external : Extern}
    (h : checkExternal funcType store expected external = .ok ()) :
    external.kind = expected.kind := by
  cases expected <;> cases external <;>
    first | rfl | exact absurd h (by simp [checkExternal])

theorem bindImports_eq_ok (funcType : Nat → FuncType) (store : LinkStore T)
    (builder inst : InstanceEntity) (pairs : List (ImportType × Extern)) :
    bindImports funcType store builder pairs = .ok inst ↔
      (∀ pair ∈ pairs, checkExternal funcType store pair.1.ty pair.2 = .ok ()) ∧
        inst = (pairs.map (·.2)).foldl InstanceEntity.push builder := by
  induction pairs generalizing builder with
  | nil => simp [bindImports, eq_comm]
  | cons pair pairs ih =>
    simp only [bindImports, List.forall_mem_cons, List.map_cons, List.foldl_cons]
    cases hcheck : checkExternal funcType store pair.1.ty pair.2 with
    | error e => simp [bind, Except.bind]
    | ok _ => simp only [bind, Except.bind, ih, true_and]

/-- What the binding of externals accepts and returns. -/
theorem extractImports_eq_ok {funcType : Nat → FuncType} {header : ModuleHeader}
    {imports : List ImportType} (h : header.importTypes funcType = some imports)
    (store : LinkStore T) (builder inst : InstanceEntity) (externals : List Extern) :
    header.extractImports funcType store builder externals = .ok inst ↔
      List.Forall₂ (fun import_ external =>
        checkExternal funcType store import_.ty external = .ok ()) imports externals ∧
        inst = externals.foldl InstanceEntity.push builder := by
  unfold ModuleHeader.extractImports
  simp only [h]
  by_cases hlen : imports.length = externals.length
  · rw [if_neg (by simpa using hlen), bindImports_eq_ok, List.map_snd_zip (Nat.le_of_eq hlen.symm),
      List.forall₂_iff_zip]
    simp [hlen]
  · rw [if_pos (by simpa using hlen)]
    constructor
    · intro h
      simp at h
    · rintro ⟨hfits, _⟩
      exact absurd (List.Forall₂.length_eq hfits) hlen

/-- An entry of a filtered list, by the kept entries in front of it. -/
theorem getElem?_filter {A : Type} (p : A → Bool) {l : List A} {i : Nat} {a : A}
    (ha : l[i]? = some a) (hp : p a = true) :
    (l.filter p)[((l.take i).filter p).length]? = some a := by
  obtain ⟨hi, hget⟩ := List.getElem?_eq_some_iff.mp ha
  have hsplit : l.filter p = (l.take i).filter p ++ a :: (l.drop (i + 1)).filter p := by
    rw [← List.filter_cons_of_pos hp, ← List.filter_append, ← hget, List.getElem_cons_drop,
      List.take_append_drop]
  rw [hsplit, List.getElem?_append_right (Nat.le_refl _), Nat.sub_self, List.getElem?_cons_zero]

/-- Externals that fit the imports of a list are, in front of each, as many of a kind. -/
theorem length_ofKind_take {funcType : Nat → FuncType} {funcTypes : List Nat} {store : LinkStore T}
    {imports : List Import} {externals : List Extern} (kind : ExternKind) (i : Nat)
    (h : List.Forall₂ (fun item external => checkExternal funcType store
      (item.declared funcType funcTypes).ty external = .ok ()) imports externals) :
    (ofKind kind (imports.take i)).length =
      ((externals.take i).filter fun external => external.kind = kind).length := by
  induction h generalizing i with
  | nil => simp [ofKind]
  | @cons item _ _ _ hcheck _ ih =>
    cases i with
    | zero => simp [ofKind]
    | succ i =>
      have hkind := kind_eq_of_checkExternal hcheck
      rw [Import.kind_declared] at hkind
      rw [List.take_succ_cons, List.take_succ_cons, ofKind_cons, List.filter_cons, hkind]
      by_cases hk : item.externKind = kind
      · rw [if_pos hk, if_pos (by simpa using hk), List.length_cons, List.length_cons, ih]
      · rw [if_neg hk, if_neg (by simpa using hk), ih]

/-- An external is found behind as many entries of its kind as there are imports of this kind in
front of its own. -/
theorem space_bound {funcType : Nat → FuncType} {funcTypes : List Nat} {store : LinkStore T}
    {imports : List Import} {externals : List Extern}
    (h : List.Forall₂ (fun item external => checkExternal funcType store
      (item.declared funcType funcTypes).ty external = .ok ()) imports externals)
    {i : Nat} {item : Import} {external : Extern} (hitem : imports[i]? = some item)
    (hexternal : externals[i]? = some external) (instTypes : List Nat) :
    ((externals.foldl InstanceEntity.push (.build instTypes)).space item.externKind)[
      (ofKind item.externKind (imports.take i)).length]? = some external.handle := by
  have hkind : external.kind = item.externKind := by
    obtain ⟨hi, hget⟩ := List.getElem?_eq_some_iff.mp hitem
    obtain ⟨hj, hget'⟩ := List.getElem?_eq_some_iff.mp hexternal
    have hcheck := h.get hi hj
    simp only [List.get_eq_getElem, hget, hget'] at hcheck
    rw [kind_eq_of_checkExternal hcheck, Import.kind_declared]
  have hempty (kind : ExternKind) : (InstanceEntity.build instTypes).space kind = [] := by
    cases kind <;> rfl
  rw [space_pushes, hempty, List.nil_append, length_ofKind_take _ _ h]
  unfold externalsOfKind
  rw [List.getElem?_map, getElem?_filter _ hexternal (by simpa using hkind)]
  rfl

/-- A module keeps the order of its import section iff the section lists the functions first, then
the tables, the memories and the globals. -/
theorem importOrder_iff (funcType : Nat → FuncType) {sections : HeaderSections}
    {header : ModuleHeader} (h : ModuleHeader.ofSections sections = some header) :
    KeepsImportOrder funcType sections header ↔ Grouped sections.imports := by
  have himports := importTypes_eq funcType h
  constructor
  · intro hkeeps
    have hlists := hkeeps.lists
    rw [himports, Option.some.injEq] at hlists
    have hkinds : (grouped sections.imports).map Import.externKind =
        sections.imports.map Import.externKind := by
      have := congrArg (List.map fun import_ => import_.ty.kind) hlists
      simpa only [List.map_map, Function.comp_def, Import.kind_declared] using this
    rw [grouped_iff_map, ← hkinds, ← grouped_iff_map]
    exact grouped_grouped sections.imports
  · intro hgrouped
    rw [grouped_of_grouped hgrouped] at himports
    constructor
    · exact himports
    · intro T store externals
      simp only [extractImports_eq_ok himports, List.forall₂_map_left_iff, exists_and_left,
        exists_eq, and_true]
    · intro T store externals inst hinst i item external hitem hexternal
      rw [extractImports_eq_ok himports, List.forall₂_map_left_iff] at hinst
      obtain ⟨hfits, rfl⟩ := hinst
      exact space_bound hfits hitem hexternal header.funcTypes

/-- A section of an import of a memory and one of a function, in the given order. -/
def sectionsOfTwo (imports : List Import) : HeaderSections where
  engineFuncs := 0
  funcTypes := [0]
  imports := imports
  funcs := []
  tables := []
  memories := []
  globals := []

def importedLog : Import := ⟨⟨"env", "log"⟩, .func 0⟩

def importedMemory : Import := ⟨⟨"env", "memory"⟩, .memory ⟨1, none⟩⟩

theorem importOrder_iff_log_memory :
    ∃ header, ModuleHeader.ofSections (sectionsOfTwo [importedLog, importedMemory]) = some header ∧
      (KeepsImportOrder (fun _ => ⟨[], []⟩) (sectionsOfTwo [importedLog, importedMemory]) header ↔
        Grouped [importedLog, importedMemory]) :=
  ⟨_, rfl, importOrder_iff _ rfl⟩

/-- A memory in front of a function is listed behind it. -/
theorem memory_log_reordered :
    ¬∀ (funcType : Nat → FuncType) (sections : HeaderSections) (header : ModuleHeader),
      ModuleHeader.ofSections sections = some header →
      KeepsImportOrder funcType sections header := by
  intro h
  have hkeeps := h (fun _ => ⟨[], []⟩) (sectionsOfTwo [importedMemory, importedLog]) _ rfl
  have hlists := hkeeps.lists
  revert hlists
  decide

end MotokoDebugger
