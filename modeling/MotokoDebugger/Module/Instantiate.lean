import MotokoDebugger.Module.Imports

/-!
# Instantiation

`module/instantiate/mod.rs` up to the segments, the limits of the store it checks (`store.rs`), and
`linker.rs`. Exports and the start function go to the new instance only and are left out.

* `LinkM`: a step on the store, whose errors keep what was allocated before them.
* `ModuleHeader.instantiate`, `Linker.instantiate`: `Module::instantiate`, `Linker::instantiate`.
* `Attempt`: one of the two. `failAll`: attempts that fail one after the other.
* `failAll_leavesStoreAlone_iff`: failed attempts leave the store as it was iff none of them
  comes to its first allocation.
-/

namespace MotokoDebugger

open StateExcept

variable {T : Type}

/-! ## The store -/

/-- `ResourceLimiter` with its bounds on the entities of a store. -/
structure CountingLimiter (T : Type) extends ResourceLimiter T where
  instances : T → Nat
  tables : T → Nat
  memories : T → Nat

/-- What an instantiation reads but never changes. -/
structure LinkEnv (T : Type) where
  funcType : Nat → FuncType
  limiter : Option (CountingLimiter T)

/-- `Linker` definitions. Host functions are in the form they are allocated in. -/
inductive Definition where
  | item (external : Extern)
  | hostFunc (entity : HostFuncEntity)
deriving Repr, DecidableEq

/-- `LinkerError`. An import of another kind is reported with the definition. -/
inductive LinkerError where
  | missingDefinition (name : ImportName) (ty : ExternType)
  | invalidTypeDefinition (name : ImportName) (expected : ExternType) (found : Definition)
  | funcTypeMismatch (name : ImportName) (expected found : FuncType)
  | invalidTableSubtype (name : ImportName) (ty other : TableType)
  | invalidMemorySubtype (name : ImportName) (ty other : MemoryType)
  | globalTypeMismatch (name : ImportName) (expected found : GlobalType)
deriving Repr, DecidableEq

/-- Why a module is not instantiated. -/
inductive LinkFailure where
  | instantiation (error : InstantiationError)
  | linker (error : LinkerError)
deriving Repr, DecidableEq

/-- A step on the store. -/
abbrev LinkM (T : Type) := EStateM LinkFailure (LinkStore T)

/-- A check against the store. -/
def liftCheck {A : Type} (check : LinkStore T → Except LinkFailure A) : LinkM T A := do
  match check (← get) with
  | .ok a => pure a
  | .error error => throw error

/-- `StoreInner::check_new_instances_limit`, `check_new_tables_limit` and
`check_new_memories_limit`. -/
def checkNewLimit (env : LinkEnv T) (bound : CountingLimiter T → T → Nat)
    (entities : LinkStore T → Nat) (error : InstantiationError) (numNew : Nat) : LinkM T Unit :=
  liftCheck fun store =>
    match env.limiter with
    | none => .ok ()
    | some limiter =>
      if bound limiter store.data < entities store + numNew then .error (.instantiation error)
      else .ok ()

/-- `StoreInner::alloc_func`. -/
def allocFunc (entity : FuncEntity) : LinkM T Nat := do
  let store ← get
  set { store with funcs := store.funcs ++ [entity] }
  return store.funcs.length

/-- `StoreInner::alloc_instance`: an instance that is not initialized. -/
def allocInstance : LinkM T Nat := do
  let store ← get
  set { store with instances := store.instances ++ [InstanceEntity.build []] }
  return store.instances.length

/-- Asks the limiter for a new entity; it may not be refused. -/
def askForNew (env : LinkEnv T) (ask : ResourceLimiter T → T → Except Unit Bool × T)
    (refused : InstantiationError) : LinkM T Unit := do
  if let some limiter := env.limiter then
    let (answer, data) := ask limiter.toResourceLimiter (← get).data
    modify fun store => { store with data }
    match answer with
    | .ok true => pure ()
    | .ok false => throw (.instantiation refused)
    | .error _ => throw (.instantiation .limiter)

/-- `Table::new`, filled with null references. -/
def newTable (env : LinkEnv T) (ty : TableType) : LinkM T Nat := do
  askForNew env (fun limiter => limiter.tableGrowing 0 ty.minimum ty.maximum)
    (.tableGrowOutOfBounds (ty.maximum.getD u32Max) 0 ty.minimum)
  let store ← get
  let table : TableEntity := ⟨ty.element, ty.maximum, List.replicate ty.minimum 0⟩
  set { store with tables := store.tables ++ [table] }
  return store.tables.length

/-- `Memory::new`. -/
def newMemory (env : LinkEnv T) (ty : MemoryType) : LinkM T Nat := do
  let initialLen := ty.initialPages * bytesPerPage
  let maximumLen := ty.maximumPages.getD maxPages * bytesPerPage
  askForNew env (fun limiter => limiter.memoryGrowing 0 initialLen (some maximumLen))
    .memoryOutOfBounds
  let store ← get
  let memory : MemoryEntity :=
    ⟨List.replicate initialLen 0, ty.initialPages, ty.maximumPages, none⟩
  set { store with memories := store.memories ++ [memory] }
  return store.memories.length

/-- `Global::new`. -/
def newGlobal (ty : GlobalType) (initial : UntypedVal) : LinkM T Nat := do
  let store ← get
  set { store with
    globals := store.globals ++ [initial]
    globalTypes := store.globalTypes ++ [ty] }
  return store.globals.length

/-! ## `Module::instantiate` -/

namespace ModuleHeader

/-- `Module::internal_funcs`; `none` is a failed assertion. -/
def internalFuncs (header : ModuleHeader) : Option (List (Nat × EngineFunc)) :=
  let funcs := header.funcs.drop header.imports.lenFuncs
  if funcs.length = header.engineFuncs.len then some (funcs.zip header.engineFuncs.toList) else none

/-- `Module::internal_tables`. -/
def internalTables (header : ModuleHeader) : List TableType :=
  header.tables.drop header.imports.lenTables

/-- `Module::internal_memories`. -/
def internalMemories (header : ModuleHeader) : List MemoryType :=
  header.memories.drop header.imports.lenMemories

/-- `Module::internal_globals`. -/
def internalGlobals (header : ModuleHeader) : List (GlobalType × ConstExpr) :=
  (header.globals.drop header.imports.lenGlobals).zip header.globalsInit

/-- `Module::extract_functions`. -/
def extractFunctions (header : ModuleHeader) (handle : Nat) (builder : InstanceEntity) :
    LinkM T InstanceEntity :=
  match header.internalFuncs with
  | none => throw (.instantiation .panic)
  | some internalFuncs => internalFuncs.foldlM (fun builder (funcType, funcBody) => do
      let func ← allocFunc (.wasm ⟨funcType, funcBody, handle⟩)
      return builder.push (.func func)) builder

/-- `Module::extract_tables`. -/
def extractTables (env : LinkEnv T) (header : ModuleHeader) (builder : InstanceEntity) :
    LinkM T InstanceEntity := do
  checkNewLimit env (·.tables) (·.tables.length) .tooManyTables header.tables.length
  header.internalTables.foldlM (fun builder tableType => do
    let table ← newTable env tableType
    return builder.push (.table table)) builder

/-- `Module::extract_memories`. -/
def extractMemories (env : LinkEnv T) (header : ModuleHeader) (builder : InstanceEntity) :
    LinkM T InstanceEntity := do
  checkNewLimit env (·.memories) (·.memories.length) .tooManyMemories header.memories.length
  header.internalMemories.foldlM (fun builder memoryType => do
    let memory ← newMemory env memoryType
    return builder.push (.memory memory)) builder

/-- `Module::eval_init_expr`. -/
def evalInitExpr (builder : InstanceEntity) (initExpr : ConstExpr) : LinkM T UntypedVal :=
  liftCheck fun store =>
    let getGlobal index := builder.globals[index]?.bind fun global => store.globals[global]?
    let getFunc index := builder.funcs[index]?.map FuncRef.toUntyped
    match initExpr.eval getGlobal getFunc with
    | some value => .ok value
    | none => .error (.instantiation .panic)

/-- `Module::extract_globals`. -/
def extractGlobals (header : ModuleHeader) (builder : InstanceEntity) : LinkM T InstanceEntity :=
  header.internalGlobals.foldlM (fun builder (globalType, globalInit) => do
    let initValue ← evalInitExpr builder globalInit
    let global ← newGlobal globalType initValue
    return builder.push (.global global)) builder

/-- `Module::instantiate` up to the segments: the handle of the instance and its entity. -/
def instantiate (env : LinkEnv T) (header : ModuleHeader) (externals : List Extern) :
    LinkM T (Nat × InstanceEntity) := do
  checkNewLimit env (·.instances) (·.instances.length) .tooManyInstances 1
  let handle ← allocInstance
  let builder ← liftCheck fun store =>
    (header.extractImports env.funcType store (.build header.funcTypes) externals).mapError
      .instantiation
  let builder ← header.extractFunctions handle builder
  let builder ← header.extractTables env builder
  let builder ← header.extractMemories env builder
  let builder ← header.extractGlobals builder
  return (handle, builder)

end ModuleHeader

/-! ## `Linker::instantiate` -/

/-- The definitions of a linker, those shared with other linkers first. -/
abbrev Linker := ImportName → Option Definition

/-- The checks of `Linker::process_import`. -/
def Definition.check (funcType : Nat → FuncType) (import_ : ImportType) (resolved : Definition)
    (store : LinkStore T) : Except LinkFailure Unit :=
  let name := import_.name
  let func (expected found : FuncType) : Except LinkFailure Unit :=
    if found = expected then .ok () else .error (.linker (.funcTypeMismatch name expected found))
  match import_.ty, resolved with
  | .func expected, .hostFunc entity => func expected (funcType entity.ty)
  | .func expected, .item (.func handle) => do
    let entity ← (resolveHandle store.funcs handle).mapError .instantiation
    func expected (funcType entity.tyDedup)
  | .table expected, .item (.table handle) => do
    let found := (← (resolveHandle store.tables handle).mapError .instantiation).dynamicTy
    if found.isSubtypeOf expected then .ok ()
    else .error (.linker (.invalidTableSubtype name expected found))
  | .memory expected, .item (.memory handle) => do
    let found := (← (resolveHandle store.memories handle).mapError .instantiation).dynamicTy
    if found.isSubtypeOf expected then .ok ()
    else .error (.linker (.invalidMemorySubtype name expected found))
  | .global expected, .item (.global handle) => do
    let found ← (resolveHandle store.globalTypes handle).mapError .instantiation
    if found = expected then .ok ()
    else .error (.linker (.globalTypeMismatch name expected found))
  | expected, found => .error (.linker (.invalidTypeDefinition name expected found))

/-- The external of a definition: a host function of the linker is allocated in the store
(`Definition::as_func`). -/
def Definition.external : Definition → LinkM T Extern
  | .item external => pure external
  | .hostFunc entity => do
    let func ← allocFunc (.host entity)
    return .func func

namespace Linker

/-- `Linker::process_import`. -/
def processImport (env : LinkEnv T) (linker : Linker) (import_ : ImportType) : LinkM T Extern := do
  match linker import_.name with
  | none => throw (.linker (.missingDefinition import_.name import_.ty))
  | some resolved =>
    liftCheck (resolved.check env.funcType import_)
    resolved.external

/-- `Linker::instantiate`. -/
def instantiate (env : LinkEnv T) (linker : Linker) (header : ModuleHeader) :
    LinkM T (Nat × InstanceEntity) := do
  match header.importTypes env.funcType with
  | none => throw (.instantiation .panic)
  | some imports =>
    let externals ← imports.mapM (linker.processImport env)
    header.instantiate env externals

end Linker

/-! ## Failed attempts -/

/-- An attempt to instantiate a module, with a list of externals or through a linker. -/
inductive Attempt where
  | withExternals (header : ModuleHeader) (externals : List Extern)
  | withLinker (header : ModuleHeader) (linker : Linker)

def Attempt.run (env : LinkEnv T) : Attempt → LinkM T (Nat × InstanceEntity)
  | .withExternals header externals => header.instantiate env externals
  | .withLinker header linker => linker.instantiate env header

/-- The store after attempts that all fail, one after the other. -/
def failAll (env : LinkEnv T) : List Attempt → LinkStore T → Option (LinkStore T)
  | [], store => some store
  | attempt :: attempts, store =>
    match attempt.run env store with
    | .ok _ _ => none
    | .error _ store => failAll env attempts store

/-- Does the second store contain what the first one does, and accept what the first one does? -/
structure LeavesStoreAlone (env : LinkEnv T) (store store' : LinkStore T) : Prop where
  instances : store'.instances = store.instances
  funcs : store'.funcs = store.funcs
  memories : store'.memories = store.memories
  tables : store'.tables = store.tables
  globals : store'.globals = store.globals
  globalTypes : store'.globalTypes = store.globalTypes
  succeeds : ∀ (attempt : Attempt) inst s, attempt.run env store = .ok inst s →
    ∃ inst' s', attempt.run env store' = .ok inst' s'

/-- Does the store contain as many instances as its limiter permits? -/
def InstancesExhausted (env : LinkEnv T) (store : LinkStore T) : Prop :=
  ∃ limiter, env.limiter = some limiter ∧ limiter.instances store.data < store.instances.length + 1

/-- Does a definition of the linker fit the import? -/
def Linker.fits (env : LinkEnv T) (store : LinkStore T) (linker : Linker) (import_ : ImportType) :
    Bool :=
  match linker import_.name with
  | none => false
  | some resolved => (resolved.check env.funcType import_ store).isOk

/-- Are the definitions that fit, up to the first import that none fits, no host functions? -/
def Linker.OnlyItems (env : LinkEnv T) (store : LinkStore T) (linker : Linker)
    (imports : List ImportType) : Prop :=
  ∀ import_ ∈ imports.takeWhile (linker.fits env store),
    ∃ external, linker import_.name = some (.item external)

/-- Does an attempt fail before it allocates anything: is the number of instances exhausted, and
does the linker meet no host function of its own until then? -/
def Attempt.StopsEarly (env : LinkEnv T) (store : LinkStore T) : Attempt → Prop
  | .withExternals _ _ => InstancesExhausted env store
  | .withLinker header linker => ∀ imports, header.importTypes env.funcType = some imports →
      linker.OnlyItems env store imports ∧
        (imports.all (linker.fits env store) = true → InstancesExhausted env store)

/-! ### Allocation only adds -/

/-- The entities a store has taken up, by number. -/
def LinkStore.allocated (store : LinkStore T) : Nat :=
  store.funcs.length + store.instances.length

/-- No outcome of `x` has fewer functions and instances than the initial state. -/
abbrev Grows {A : Type} (x : LinkM T A) : Prop :=
  Moves (fun s s' => s.allocated ≤ s'.allocated) x

section Grows

variable {A B : Type}

theorem Grows.pure (a : A) : Grows (pure a : LinkM T A) := by
  apply Moves.pure
  intro s
  exact Nat.le_refl _

theorem Grows.throw (e : LinkFailure) : Grows (throw e : LinkM T A) := by
  apply Moves.throw
  intro s
  exact Nat.le_refl _

theorem Grows.bind {x : LinkM T A} {f : A → LinkM T B} (hx : Grows x) (hf : ∀ a, Grows (f a)) :
    Grows (x >>= f) := by
  apply Moves.bind (R := fun s s' : LinkStore T => s.allocated ≤ s'.allocated) _ hx hf
  intro s s' s''
  exact Nat.le_trans

theorem Grows.foldlM {f : B → A → LinkM T B} (hf : ∀ b a, Grows (f b a)) (l : List A) (b : B) :
    Grows (l.foldlM f b) := by
  induction l generalizing b with
  | nil => exact Grows.pure b
  | cons a l ih =>
    rw [List.foldlM_cons]
    exact (hf b a).bind fun b' => ih b'

theorem Grows.mapM {f : A → LinkM T B} (hf : ∀ a, Grows (f a)) (l : List A) :
    Grows (l.mapM f) := by
  induction l with
  | nil => exact Grows.pure _
  | cons a l ih =>
    rw [List.mapM_cons]
    exact (hf a).bind fun _ => ih.bind fun _ => Grows.pure _

/-- Where a computation that grows the store ends. -/
theorem Grows.of_ok {x : LinkM T A} (hx : Grows x) {s s' : LinkStore T} {a : A}
    (h : x s = .ok a s') : s.allocated ≤ s'.allocated := by
  simpa [h] using hx s

theorem Grows.of_error {x : LinkM T A} (hx : Grows x) {s s' : LinkStore T} {e : LinkFailure}
    (h : x s = .error e s') : s.allocated ≤ s'.allocated := by
  simpa [h] using hx s

theorem readOnly_liftCheck (check : LinkStore T → Except LinkFailure A) :
    ReadOnly (liftCheck check) := by
  intro s
  unfold liftCheck
  rw [get_bind]
  cases check s <;> rfl

theorem grows_liftCheck (check : LinkStore T → Except LinkFailure A) :
    Grows (liftCheck check) := by
  intro s
  exact Nat.le_of_eq (congrArg LinkStore.allocated (readOnly_liftCheck check s).symm)

end Grows

theorem allocated_allocFunc (entity : FuncEntity) (store store' : LinkStore T) (func : Nat)
    (h : allocFunc entity store = .ok func store') : store.allocated < store'.allocated := by
  cases h
  simp [LinkStore.allocated]

theorem grows_allocFunc (entity : FuncEntity) : Grows (allocFunc entity : LinkM T Nat) := by
  intro s
  exact Nat.le_of_lt (allocated_allocFunc entity s _ _ rfl)

theorem grows_askForNew (env : LinkEnv T) (ask : ResourceLimiter T → T → Except Unit Bool × T)
    (refused : InstantiationError) : Grows (askForNew env ask refused) := by
  intro s
  unfold askForNew
  cases env.limiter with
  | none => exact Nat.le_refl _
  | some limiter =>
    -- whatever the limiter answers, only the state of the host changes
    show s.allocated ≤ _
    rcases h : ask limiter.toResourceLimiter s.data with ⟨(_ | _ | _), data⟩ <;>
      simp [h, get_bind, modify_bind, LinkStore.allocated]

theorem grows_newTable (env : LinkEnv T) (ty : TableType) : Grows (newTable env ty) :=
  (grows_askForNew env _ _).bind fun _ _ => Nat.le_refl _

theorem grows_newMemory (env : LinkEnv T) (ty : MemoryType) : Grows (newMemory env ty) :=
  (grows_askForNew env _ _).bind fun _ _ => Nat.le_refl _

theorem grows_newGlobal (ty : GlobalType) (initial : UntypedVal) :
    Grows (newGlobal ty initial : LinkM T Nat) := fun _ => Nat.le_refl _

namespace ModuleHeader

theorem grows_extractFunctions (header : ModuleHeader) (handle : Nat) (builder : InstanceEntity) :
    Grows (header.extractFunctions handle builder : LinkM T InstanceEntity) := by
  unfold extractFunctions
  cases header.internalFuncs with
  | none => exact Grows.throw _
  | some internalFuncs =>
    apply Grows.foldlM
    intro builder func
    exact (grows_allocFunc _).bind fun _ => Grows.pure _

theorem grows_extractTables (env : LinkEnv T) (header : ModuleHeader) (builder : InstanceEntity) :
    Grows (header.extractTables env builder) := by
  apply Grows.bind (grows_liftCheck _)
  intro _
  apply Grows.foldlM
  intro builder tableType
  exact (grows_newTable env tableType).bind fun _ => Grows.pure _

theorem grows_extractMemories (env : LinkEnv T) (header : ModuleHeader)
    (builder : InstanceEntity) : Grows (header.extractMemories env builder) := by
  apply Grows.bind (grows_liftCheck _)
  intro _
  apply Grows.foldlM
  intro builder memoryType
  exact (grows_newMemory env memoryType).bind fun _ => Grows.pure _

theorem grows_extractGlobals (header : ModuleHeader) (builder : InstanceEntity) :
    Grows (header.extractGlobals builder : LinkM T InstanceEntity) := by
  apply Grows.foldlM
  intro builder global
  apply Grows.bind (grows_liftCheck _)
  intro initValue
  exact (grows_newGlobal global.1 initValue).bind fun _ => Grows.pure _

/-- What `instantiate` does behind the allocation of the instance. -/
def fillInstance (env : LinkEnv T) (header : ModuleHeader) (externals : List Extern)
    (handle : Nat) : LinkM T (Nat × InstanceEntity) := do
  let builder ← liftCheck fun store =>
    (header.extractImports env.funcType store (.build header.funcTypes) externals).mapError
      .instantiation
  let builder ← header.extractFunctions handle builder
  let builder ← header.extractTables env builder
  let builder ← header.extractMemories env builder
  let builder ← header.extractGlobals builder
  return (handle, builder)

theorem grows_fillInstance (env : LinkEnv T) (header : ModuleHeader) (externals : List Extern)
    (handle : Nat) : Grows (header.fillInstance env externals handle) :=
  (grows_liftCheck _).bind fun builder =>
    (header.grows_extractFunctions handle builder).bind fun builder =>
      (header.grows_extractTables env builder).bind fun builder =>
        (header.grows_extractMemories env builder).bind fun builder =>
          (header.grows_extractGlobals builder).bind fun _ => Grows.pure _

theorem instantiate_eq (env : LinkEnv T) (header : ModuleHeader) (externals : List Extern) :
    header.instantiate env externals =
      (checkNewLimit env (·.instances) (·.instances.length) .tooManyInstances 1 >>= fun _ =>
        allocInstance >>= header.fillInstance env externals) := rfl

/-- The check of the number of instances. -/
theorem checkInstances_eq (env : LinkEnv T) (store : LinkStore T) :
    (checkNewLimit env (·.instances) (·.instances.length) .tooManyInstances 1 store =
        .ok () store ∧ ¬InstancesExhausted env store) ∨
      (checkNewLimit env (·.instances) (·.instances.length) .tooManyInstances 1 store =
        .error (.instantiation .tooManyInstances) store ∧ InstancesExhausted env store) := by
  unfold checkNewLimit liftCheck InstancesExhausted
  cases env.limiter with
  | none => exact .inl ⟨rfl, by simp⟩
  | some limiter =>
    by_cases h : limiter.instances store.data < store.instances.length + 1
    · refine .inr ⟨?_, limiter, rfl, h⟩
      simp only [get_bind, if_pos h]
      rfl
    · refine .inl ⟨?_, ?_⟩
      · simp only [get_bind, if_neg h]
        rfl
      · rintro ⟨_, ⟨⟩, hlt⟩
        exact h hlt

/-- An instantiation fails at once where the instances are exhausted. -/
theorem instantiate_of_exhausted {env : LinkEnv T} (header : ModuleHeader)
    (externals : List Extern) {store : LinkStore T} (h : InstancesExhausted env store) :
    header.instantiate env externals store =
      .error (.instantiation .tooManyInstances) store := by
  rw [instantiate_eq]
  rcases checkInstances_eq env store with ⟨_, hnot⟩ | ⟨hcheck, _⟩
  · exact absurd h hnot
  · exact bind_error hcheck

/-- Otherwise it leaves at least the instance behind, whatever happens then. -/
theorem allocated_instantiate {env : LinkEnv T} (header : ModuleHeader) (externals : List Extern)
    {store : LinkStore T} (h : ¬InstancesExhausted env store) :
    store.allocated < (finalState (header.instantiate env externals store)).allocated := by
  rw [instantiate_eq]
  rcases checkInstances_eq env store with ⟨hcheck, _⟩ | ⟨_, hexhausted⟩
  · rw [bind_ok hcheck, bind_ok (x := allocInstance) rfl]
    have hgrows := header.grows_fillInstance env externals store.instances.length
      { store with instances := store.instances ++ [InstanceEntity.build []] }
    apply Nat.lt_of_lt_of_le _ hgrows
    simp [LinkStore.allocated]
  · exact absurd hexhausted h

theorem grows_instantiate (env : LinkEnv T) (header : ModuleHeader) (externals : List Extern) :
    Grows (header.instantiate env externals) := by
  intro store
  by_cases h : InstancesExhausted env store
  · rw [instantiate_of_exhausted header externals h]
    exact Nat.le_refl _
  · exact Nat.le_of_lt (allocated_instantiate header externals h)

end ModuleHeader

namespace Linker

/-- An import that no definition fits stops the linker where it is. -/
theorem processImport_of_not_fits {env : LinkEnv T} {linker : Linker} {import_ : ImportType}
    {store : LinkStore T} (h : linker.fits env store import_ = false) :
    ∃ e, linker.processImport env import_ store = .error e store := by
  unfold fits at h
  unfold processImport
  cases hdef : linker import_.name with
  | none => exact ⟨_, rfl⟩
  | some resolved =>
    simp only [hdef] at h
    cases hcheck : resolved.check env.funcType import_ store with
    | ok _ => simp [hcheck, Except.isOk, Except.toBool] at h
    | error e =>
      refine ⟨e, bind_error ?_⟩
      simp [liftCheck, get_bind, hcheck]

theorem processImport_of_fits {env : LinkEnv T} {linker : Linker} {import_ : ImportType}
    {store : LinkStore T} {resolved : Definition} (hdef : linker import_.name = some resolved)
    (h : linker.fits env store import_ = true) :
    linker.processImport env import_ store = resolved.external store := by
  unfold fits at h
  unfold processImport
  simp only [hdef] at h ⊢
  cases hcheck : resolved.check env.funcType import_ store with
  | error e => simp [hcheck, Except.isOk, Except.toBool] at h
  | ok _ =>
    refine bind_ok (a := ()) ?_
    simp [liftCheck, get_bind, hcheck]

theorem grows_processImport (env : LinkEnv T) (linker : Linker) (import_ : ImportType) :
    Grows (linker.processImport env import_) := by
  unfold processImport
  cases linker import_.name with
  | none => exact Grows.throw _
  | some resolved =>
    apply Grows.bind (grows_liftCheck _)
    intro _
    cases resolved with
    | item external => exact Grows.pure _
    | hostFunc entity => exact (grows_allocFunc _).bind fun _ => Grows.pure _

theorem processImports_of_onlyItems {env : LinkEnv T} {linker : Linker} {store : LinkStore T}
    {imports : List ImportType} (h : linker.OnlyItems env store imports) :
    (imports.all (linker.fits env store) = true ∧
        ∃ externals, imports.mapM (linker.processImport env) store = .ok externals store) ∨
      (imports.all (linker.fits env store) = false ∧
        ∃ e, imports.mapM (linker.processImport env) store = .error e store) := by
  induction imports with
  | nil => exact .inl ⟨rfl, [], rfl⟩
  | cons import_ imports ih =>
    rw [List.mapM_cons, List.all_cons]
    by_cases hfits : linker.fits env store import_ = true
    · unfold OnlyItems at h
      rw [List.takeWhile_cons_of_pos hfits, List.forall_mem_cons] at h
      obtain ⟨⟨external, hdef⟩, hrest⟩ := h
      have hhead := processImport_of_fits hdef hfits
      rw [hfits, bind_ok (hhead.trans rfl)]
      rcases ih hrest with ⟨hall, externals, htail⟩ | ⟨hall, e, htail⟩
      · rw [bind_ok htail]
        exact .inl ⟨by simpa using hall, external :: externals, rfl⟩
      · rw [bind_error htail]
        exact .inr ⟨by simpa using hall, e, rfl⟩
    · rw [Bool.not_eq_true] at hfits
      obtain ⟨e, hhead⟩ := processImport_of_not_fits hfits
      rw [hfits, bind_error hhead]
      exact .inr ⟨rfl, e, rfl⟩

/-- A host function of the linker stays in the store. -/
theorem allocated_processImports {env : LinkEnv T} {linker : Linker} {store : LinkStore T}
    {imports : List ImportType} (h : ¬linker.OnlyItems env store imports) :
    store.allocated <
      (finalState (imports.mapM (linker.processImport env) store)).allocated := by
  induction imports with
  | nil => exact absurd (by simp [OnlyItems]) h
  | cons import_ imports ih =>
    rw [List.mapM_cons]
    by_cases hfits : linker.fits env store import_ = true
    · unfold OnlyItems at h
      rw [List.takeWhile_cons_of_pos hfits, List.forall_mem_cons] at h
      cases hdef : linker import_.name with
      | none => simp [fits, hdef] at hfits
      | some resolved =>
        have hhead := processImport_of_fits hdef hfits
        cases resolved with
        | item external =>
          have hrest : ¬linker.OnlyItems env store imports := fun hrest =>
            h ⟨⟨external, hdef⟩, hrest⟩
          rw [bind_ok (hhead.trans rfl)]
          have htail := ih hrest
          cases hm : imports.mapM (linker.processImport env) store with
          | ok externals s => simpa [bind_ok hm, hm] using htail
          | error e s => simpa [bind_error hm, hm] using htail
        | hostFunc entity =>
          rw [bind_ok (hhead.trans rfl)]
          -- what follows keeps the new function
          have hgrows : Grows ((imports.mapM (linker.processImport env)) >>= fun externals =>
              (pure (Extern.func store.funcs.length :: externals) : LinkM T (List Extern))) :=
            (Grows.mapM (linker.grows_processImport env) imports).bind fun _ => Grows.pure _
          apply Nat.lt_of_lt_of_le _ (hgrows _)
          exact allocated_allocFunc (.host entity) store _ _ rfl
    · rw [Bool.not_eq_true] at hfits
      refine absurd ?_ h
      simp [OnlyItems, hfits]

theorem instantiate_eq {env : LinkEnv T} (linker : Linker) {header : ModuleHeader}
    {imports : List ImportType} (h : header.importTypes env.funcType = some imports) :
    linker.instantiate env header =
      (imports.mapM (linker.processImport env) >>= header.instantiate env) := by
  unfold instantiate
  rw [h]

theorem grows_instantiate (env : LinkEnv T) (linker : Linker) (header : ModuleHeader) :
    Grows (linker.instantiate env header) := by
  cases h : header.importTypes env.funcType with
  | none =>
    unfold instantiate
    rw [h]
    exact Grows.throw _
  | some imports =>
    rw [linker.instantiate_eq h]
    exact (Grows.mapM (linker.grows_processImport env) imports).bind
      fun externals => header.grows_instantiate env externals

end Linker

namespace Attempt

theorem grows_run (env : LinkEnv T) (attempt : Attempt) : Grows (attempt.run env) := by
  cases attempt with
  | withExternals header externals => exact header.grows_instantiate env externals
  | withLinker header linker => exact linker.grows_instantiate env header

/-- An attempt that stops early leaves the very store. -/
theorem run_of_stopsEarly {env : LinkEnv T} {attempt : Attempt} {store : LinkStore T}
    (h : attempt.StopsEarly env store) : ∃ e, attempt.run env store = .error e store := by
  cases attempt with
  | withExternals header externals => exact ⟨_, header.instantiate_of_exhausted externals h⟩
  | withLinker header linker =>
    show ∃ e, linker.instantiate env header store = .error e store
    cases himports : header.importTypes env.funcType with
    | none =>
      unfold Linker.instantiate
      rw [himports]
      exact ⟨_, rfl⟩
    | some imports =>
      obtain ⟨hitems, hall⟩ := h imports himports
      rw [linker.instantiate_eq himports]
      rcases Linker.processImports_of_onlyItems hitems with ⟨hfits, externals, hm⟩ | ⟨_, e, hm⟩
      · rw [bind_ok hm]
        exact ⟨_, header.instantiate_of_exhausted externals (hall hfits)⟩
      · exact ⟨e, bind_error hm⟩

/-- Any other attempt leaves an instance or a function behind. -/
theorem allocated_run {env : LinkEnv T} {attempt : Attempt} {store : LinkStore T}
    (h : ¬attempt.StopsEarly env store) :
    store.allocated < (finalState (attempt.run env store)).allocated := by
  cases attempt with
  | withExternals header externals => exact header.allocated_instantiate externals h
  | withLinker header linker =>
    simp only [StopsEarly, not_forall] at h
    obtain ⟨imports, himports, h⟩ := h
    show store.allocated < (finalState (linker.instantiate env header store)).allocated
    rw [linker.instantiate_eq himports]
    by_cases hitems : linker.OnlyItems env store imports
    · rcases Linker.processImports_of_onlyItems hitems with ⟨_, externals, hm⟩ | ⟨hfits, _⟩
      · rw [bind_ok hm]
        exact header.allocated_instantiate externals fun hexhausted =>
          h ⟨hitems, fun _ => hexhausted⟩
      · refine absurd ⟨hitems, fun hall => ?_⟩ h
        rw [hfits] at hall
        exact absurd hall (by decide)
    · have hlt := Linker.allocated_processImports hitems
      cases hm : imports.mapM (linker.processImport env) store with
      | ok externals s =>
        rw [bind_ok hm]
        rw [hm] at hlt
        exact Nat.lt_of_lt_of_le hlt (header.grows_instantiate env externals s)
      | error e s =>
        rw [bind_error hm]
        rw [hm] at hlt
        exact hlt

end Attempt

theorem allocated_failAll {env : LinkEnv T} {attempts : List Attempt} {store store' : LinkStore T}
    (h : failAll env attempts store = some store') : store.allocated ≤ store'.allocated := by
  induction attempts generalizing store with
  | nil =>
    cases h
    exact Nat.le_refl _
  | cons attempt attempts ih =>
    unfold failAll at h
    cases hrun : attempt.run env store with
    | ok inst s => simp [hrun] at h
    | error e s =>
      simp only [hrun] at h
      exact Nat.le_trans ((attempt.grows_run env).of_error hrun) (ih h)

theorem failAll_of_stopsEarly {env : LinkEnv T} {attempts : List Attempt} {store : LinkStore T}
    (h : ∀ attempt ∈ attempts, attempt.StopsEarly env store) :
    failAll env attempts store = some store := by
  induction attempts with
  | nil => rfl
  | cons attempt attempts ih =>
    rw [List.forall_mem_cons] at h
    obtain ⟨e, hrun⟩ := Attempt.run_of_stopsEarly h.1
    simp only [failAll, hrun]
    exact ih h.2

theorem stopsEarly_of_failAll {env : LinkEnv T} {attempts : List Attempt}
    {store store' : LinkStore T} (h : failAll env attempts store = some store')
    (hsame : store'.allocated = store.allocated) :
    ∀ attempt ∈ attempts, attempt.StopsEarly env store := by
  induction attempts with
  | nil => simp
  | cons attempt attempts ih =>
    have hstops : attempt.StopsEarly env store := by
      by_contra hnot
      have hlt := Attempt.allocated_run hnot
      unfold failAll at h
      cases hrun : attempt.run env store with
      | ok inst s => simp [hrun] at h
      | error e s =>
        simp only [hrun, finalState_error] at h hlt
        have hle := allocated_failAll h
        omega
    obtain ⟨e, hrun⟩ := Attempt.run_of_stopsEarly hstops
    simp only [failAll, hrun] at h
    rw [List.forall_mem_cons]
    exact ⟨hstops, ih h⟩

/-- Attempts that fail one after the other leave the store alone iff each of them stops before its
first allocation: the instances are exhausted already, and a linker has met no host function. -/
theorem failAll_leavesStoreAlone_iff {env : LinkEnv T} {attempts : List Attempt}
    {store store' : LinkStore T} (h : failAll env attempts store = some store') :
    LeavesStoreAlone env store store' ↔ ∀ attempt ∈ attempts, attempt.StopsEarly env store := by
  constructor
  · intro halone
    apply stopsEarly_of_failAll h
    simp only [LinkStore.allocated, halone.funcs, halone.instances]
  · intro hstops
    rw [failAll_of_stopsEarly hstops] at h
    cases h
    exact ⟨rfl, rfl, rfl, rfl, rfl, rfl, fun _ inst s hrun => ⟨inst, s, hrun⟩⟩

/-- A module without imports, definitions and exports. -/
def emptyModule : ModuleHeader := ModuleHeaderBuilder.finish {}

def emptyStore : LinkStore Unit :=
  { Store.ofFuncs [] with instances := [], globalTypes := [] }

/-- A store of at most one instance. -/
def singleInstance : LinkEnv Unit where
  funcType := fun _ => ⟨[], []⟩
  limiter := some {
    memoryGrowing := fun _ _ _ data => (.ok true, data)
    tableGrowing := fun _ _ _ data => (.ok true, data)
    memoryGrowFailed := fun data => data
    tableGrowFailed := fun _ _ _ data => data
    instances := fun _ => 1
    tables := fun _ => 1
    memories := fun _ => 1 }

theorem failAll_leavesStoreAlone_iff_surplusExternal :
    ∃ store', failAll singleInstance [.withExternals emptyModule [.func 0]] emptyStore =
        some store' ∧
      (LeavesStoreAlone singleInstance emptyStore store' ↔
        ∀ attempt ∈ [Attempt.withExternals emptyModule [.func 0]],
          attempt.StopsEarly singleInstance emptyStore) :=
  ⟨_, rfl, failAll_leavesStoreAlone_iff rfl⟩

/-- A surplus external uses up the only instance of the store: without it the second attempt
succeeds. -/
theorem surplus_external_exhausts_instances :
    ¬∀ (env : LinkEnv Unit) (attempts : List Attempt) (store store' : LinkStore Unit),
      failAll env attempts store = some store' → LeavesStoreAlone env store store' := by
  intro h
  have halone := h singleInstance [.withExternals emptyModule [.func 0]] emptyStore _ rfl
  obtain ⟨inst', s', hrun⟩ := halone.succeeds (.withExternals emptyModule []) _ _ rfl
  cases hrun

end MotokoDebugger
