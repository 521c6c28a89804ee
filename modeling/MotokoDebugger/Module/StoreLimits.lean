import MotokoDebugger.Module.Instantiate

/-!
# Limits of a store

The checks of the limits of a store in an instantiation count all tables and memories of a module,
the imported ones too, although these are in the store already.

* `Refused`: an instantiation fails with an error.
* `ReachesTables`, `ReachesMemories`: it comes to the step that creates the tables or the memories.
* `CountsCreated`: it is refused iff what it creates exceeds the limit.
* `countsCreated_iff`: that holds iff no imports alone exceed the limit.
-/

namespace MotokoDebugger

open StateExcept

variable {T A B : Type}

/-! ## Refusals -/

/-- The computation fails with the error. -/
def Refused (x : LinkM T A) (store : LinkStore T) (error : InstantiationError) : Prop :=
  ∃ store', x store = .error (.instantiation error) store'

/-- The computation never fails with the error. -/
abbrev NeverRefused (error : InstantiationError) (x : LinkM T A) : Prop :=
  NoFault (fun failure => failure = .instantiation error) x

/-- Is a number of entities above the limit? Without a limiter there is none. -/
def ExceedsLimit (env : LinkEnv T) (bound : CountingLimiter T → T → Nat) (data : T) (count : Nat) :
    Prop :=
  ∃ limiter, env.limiter = some limiter ∧ bound limiter data < count

/-- Is a number of entities within the limit, but not with those that are imported? -/
def OnlyImportsExceed (env : LinkEnv T) (bound : CountingLimiter T → T → Nat) (data : T)
    (count imported : Nat) : Prop :=
  ∃ limiter, env.limiter = some limiter ∧ count ≤ bound limiter data ∧
    bound limiter data < count + imported

/-- The data of the host when its limiter has permitted a table. -/
def permitTable (env : LinkEnv T) (data : T) (ty : TableType) : Option T :=
  match env.limiter with
  | none => some data
  | some limiter =>
    let asked := limiter.tableGrowing 0 ty.minimum ty.maximum data
    if asked.1 = .ok true then some asked.2 else none

section Reaching

variable (env : LinkEnv T) (sections : HeaderSections) (header : ModuleHeader)
  (store : LinkStore T) (externals : List Extern)

/-- An instantiation comes to the tables: there may be another instance, and the imports fit. -/
structure ReachesTables : Prop where
  instances : ¬InstancesExhausted env store
  imports : ∃ inst, header.extractImports env.funcType store (.build header.funcTypes) externals =
    .ok inst

/-- An instantiation comes to the memories: the tables pass their check, and the limiter permits
each of them. -/
structure ReachesMemories (data : T) : Prop extends ReachesTables env header store externals where
  tables : ¬ExceedsLimit env (·.tables) store.data (store.tables.length + header.tables.length)
  permits : sections.tables.foldlM (permitTable env) store.data = some data

/-- An instantiation is refused for too many instances, tables or memories iff those in the store
with those that the module itself defines are above the limit. -/
structure CountsCreated : Prop where
  instances : Refused (header.instantiate env externals) store .tooManyInstances ↔
    ExceedsLimit env (·.instances) store.data (store.instances.length + 1)
  tables : Refused (header.instantiate env externals) store .tooManyTables ↔
    ReachesTables env header store externals ∧
      ExceedsLimit env (·.tables) store.data (store.tables.length + sections.tables.length)
  memories : Refused (header.instantiate env externals) store .tooManyMemories ↔
    ∃ data, ReachesMemories env sections header store externals data ∧
      ExceedsLimit env (·.memories) data (store.memories.length + sections.memories.length)

/-- Wherever an instantiation checks a limit, the imports are within it too. -/
structure ImportsWithinLimits : Prop where
  tables : ReachesTables env header store externals →
    ¬OnlyImportsExceed env (·.tables) store.data (store.tables.length + sections.tables.length)
      (ofKind .table sections.imports).length
  memories : ∀ data, ReachesMemories env sections header store externals data →
    ¬OnlyImportsExceed env (·.memories) data (store.memories.length + sections.memories.length)
      (ofKind .memory sections.imports).length

end Reaching

/-! ## One step after another -/

section Refused

variable {error : InstantiationError} {x : LinkM T A} {f : A → LinkM T B} {store : LinkStore T}

lemma refused_bind (hx : NeverRefused error x) : Refused (x >>= f) store error ↔
    ∃ a store', x store = .ok a store' ∧ Refused (f a) store' error := by
  constructor
  · intro ⟨store'', h⟩
    obtain h | ⟨a, store', hok, h⟩ := bind_eq_error.1 h
    · exact absurd rfl (hx _ _ _ h)
    · exact ⟨a, store', hok, store'', h⟩
  · intro ⟨a, store', hok, store'', h⟩
    exact ⟨store'', bind_eq_error.2 (.inr ⟨a, store', hok, h⟩)⟩

lemma refused_bind_left (hf : ∀ a, NeverRefused error (f a)) :
    Refused (x >>= f) store error ↔ Refused x store error := by
  constructor
  · intro ⟨store'', h⟩
    obtain h | ⟨a, store', -, h⟩ := bind_eq_error.1 h
    · exact ⟨store'', h⟩
    · exact absurd rfl (hf a _ _ _ h)
  · intro ⟨store'', h⟩
    exact ⟨store'', bind_error h⟩

lemma liftCheck_eq (check : LinkStore T → Except LinkFailure A) : liftCheck check store =
    match check store with
    | .ok a => .ok a store
    | .error failure => .error failure store := by
  rw [liftCheck, get_bind]
  cases check store <;> rfl

lemma neverRefused_liftCheck {check : LinkStore T → Except LinkFailure A}
    (h : ∀ store, check store ≠ .error (.instantiation error)) :
    NeverRefused error (liftCheck check) := by
  intro s failure s' hfail heq
  subst heq
  rw [liftCheck_eq] at hfail
  cases hcheck : check s with
  | ok a =>
    rw [hcheck] at hfail
    cases hfail
  | error failure =>
    rw [hcheck] at hfail
    cases hfail
    exact h s hcheck

end Refused

/-! ## The steps -/

/-- Is an error none of the refusals for too many entities? -/
def InstantiationError.IsOther : InstantiationError → Prop
  | .tooManyTables | .tooManyMemories | .tooManyInstances => False
  | _ => True

section Steps

variable {env : LinkEnv T} {sections : HeaderSections} {header : ModuleHeader}
  {store store' : LinkStore T} {error other : InstantiationError}
  {bound : CountingLimiter T → T → Nat} {entities : LinkStore T → Nat} {count : Nat}

lemma checkNewLimit_eq_ok : checkNewLimit env bound entities error count store = .ok () store' ↔
    ¬ExceedsLimit env bound store.data (entities store + count) ∧ store' = store := by
  rw [checkNewLimit, liftCheck_eq, ExceedsLimit]
  cases env.limiter with
  | none => simp [eq_comm]
  | some limiter =>
    by_cases hlt : bound limiter store.data < entities store + count
    · simp [hlt]
    · simp [hlt, eq_comm]

lemma refused_checkNewLimit :
    Refused (checkNewLimit env bound entities error count) store error ↔
      ExceedsLimit env bound store.data (entities store + count) := by
  rw [Refused, checkNewLimit, liftCheck_eq, ExceedsLimit]
  cases env.limiter with
  | none => simp
  | some limiter =>
    by_cases hlt : bound limiter store.data < entities store + count
    · simp [hlt]
    · simp [hlt]

lemma neverRefused_checkNewLimit (hne : other ≠ error) :
    NeverRefused other (checkNewLimit env bound entities error count) := by
  apply neverRefused_liftCheck
  intro store
  cases env.limiter with
  | none => simp
  | some limiter =>
    by_cases hlt : bound limiter store.data < entities store + count
    · simp [hlt, hne.symm]
    · simp [hlt]

lemma neverRefused_allocInstance : NeverRefused other (allocInstance : LinkM T Nat) := by
  intro s failure s' h
  cases h

lemma neverRefused_allocFunc (entity : FuncEntity) :
    NeverRefused other (allocFunc entity : LinkM T Nat) := by
  intro s failure s' h
  cases h

lemma isOther_check {E : Type} {entities : List E} {handle : Nat}
    {check : E → Except InstantiationError Unit}
    (h : (resolveHandle entities handle >>= check) = .error error)
    (hcheck : ∀ entity, check entity = .error error → error.IsOther) : error.IsOther := by
  cases hentity : entities[handle]? with
  | none =>
    rw [resolveHandle, hentity] at h
    cases h
    trivial
  | some entity =>
    rw [resolveHandle, hentity] at h
    exact hcheck entity h

/-- A check of an external fails for what it is, not for the number of entities. -/
lemma isOther_checkExternal {expected : ExternType} {external : Extern}
    (h : checkExternal env.funcType store expected external = .error error) : error.IsOther := by
  cases expected <;> cases external <;>
    first
    | (apply isOther_check h
       intro entity hentity
       try dsimp only at hentity
       split at hentity
       · cases hentity
       · cases hentity
         trivial)
    | (cases h
       trivial)

lemma isOther_extractImports {builder : InstanceEntity} {externals : List Extern}
    (h : header.extractImports env.funcType store builder externals = .error error) :
    error.IsOther := by
  have hbind : ∀ (pairs : List (ImportType × Extern)) (builder : InstanceEntity),
      bindImports env.funcType store builder pairs = .error error → error.IsOther := by
    intro pairs
    induction pairs with
    | nil =>
      intro builder h
      cases h
    | cons pair pairs ih =>
      intro builder h
      rw [bindImports] at h
      cases hcheck : checkExternal env.funcType store pair.1.ty pair.2 with
      | error failure =>
        rw [hcheck] at h
        cases h
        exact isOther_checkExternal hcheck
      | ok _ =>
        rw [hcheck] at h
        exact ih _ h
  rw [ModuleHeader.extractImports] at h
  cases himports : header.importTypes env.funcType with
  | none =>
    rw [himports] at h
    cases h
    trivial
  | some imports =>
    rw [himports] at h
    dsimp only at h
    split at h
    · cases h
      trivial
    · exact hbind _ _ h

/-! ### The header -/

lemma lenTables_eq (h : ModuleHeader.ofSections sections = some header) :
    header.internalTables = sections.tables ∧
      header.tables.length = sections.tables.length + (ofKind .table sections.imports).length := by
  simp only [ModuleHeader.ofSections, Option.bind_eq_bind, Option.bind_eq_some_iff, Option.pure_def,
    Option.some.injEq] at h
  obtain ⟨builder, hbuilder, funcs, -, rfl⟩ := h
  have hlen := length_filterMap_ofKind .table _ Import.tableTy_isSome sections.imports
  simp only [ModuleHeader.internalTables, ModuleHeaderBuilder.finish,
    ModuleHeaderBuilder.pushImports_eq hbuilder, ModuleHeaderBuilder.withImports,
    ModuleImportsBuilder.finish, List.nil_append, List.length_map, List.length_append, ← hlen,
    List.drop_left, true_and]
  omega

lemma lenMemories_eq (h : ModuleHeader.ofSections sections = some header) :
    header.internalMemories = sections.memories ∧
      header.memories.length =
        sections.memories.length + (ofKind .memory sections.imports).length := by
  simp only [ModuleHeader.ofSections, Option.bind_eq_bind, Option.bind_eq_some_iff, Option.pure_def,
    Option.some.injEq] at h
  obtain ⟨builder, hbuilder, funcs, -, rfl⟩ := h
  have hlen := length_filterMap_ofKind .memory _ Import.memoryTy_isSome sections.imports
  simp only [ModuleHeader.internalMemories, ModuleHeaderBuilder.finish,
    ModuleHeaderBuilder.pushImports_eq hbuilder, ModuleHeaderBuilder.withImports,
    ModuleImportsBuilder.finish, List.nil_append, List.length_map, List.length_append, ← hlen,
    List.drop_left, true_and]
  omega

lemma length_mapM {f : A → Option B} {l : List A} {bs : List B} (h : l.mapM f = some bs) :
    bs.length = l.length := by
  induction l generalizing bs with
  | nil =>
    cases h
    rfl
  | cons a l ih =>
    rw [List.mapM_cons] at h
    obtain ⟨b, -, h⟩ := Option.bind_eq_some_iff.1 h
    obtain ⟨rest, hrest, h⟩ := Option.bind_eq_some_iff.1 h
    cases h
    rw [List.length_cons, List.length_cons, ih hrest]

lemma internalFuncs_isSome (h : ModuleHeader.ofSections sections = some header) :
    header.internalFuncs.isSome := by
  simp only [ModuleHeader.ofSections, Option.bind_eq_bind, Option.bind_eq_some_iff, Option.pure_def,
    Option.some.injEq] at h
  obtain ⟨builder, hbuilder, funcs, hfuncs, rfl⟩ := h
  have hlen := length_filterMap_ofKind .func _ (Import.funcTy_isSome sections.funcTypes)
    sections.imports
  have hfuncs := length_mapM hfuncs
  simp only [ModuleHeader.internalFuncs, ModuleHeaderBuilder.finish,
    ModuleHeaderBuilder.pushImports_eq hbuilder, ModuleHeaderBuilder.withImports,
    ModuleImportsBuilder.finish, EngineFuncSpan.len, List.nil_append, List.length_map, ← hlen,
    List.drop_left, hfuncs]
  simp

/-! ### Imports and functions -/

lemma neverRefused_extractImports {externals : List Extern} (hother : ¬other.IsOther) :
    NeverRefused other (liftCheck fun store : LinkStore T =>
      (header.extractImports env.funcType store (.build header.funcTypes) externals).mapError
        .instantiation) := by
  apply neverRefused_liftCheck
  intro store h
  cases hext : header.extractImports env.funcType store (.build header.funcTypes) externals with
  | ok inst =>
    rw [hext] at h
    cases h
  | error failure =>
    rw [hext] at h
    cases h
    exact hother (isOther_extractImports hext)

lemma neverRefused_extractFunctions (handle : Nat) (builder : InstanceEntity)
    (hother : ¬other.IsOther) :
    NeverRefused other (header.extractFunctions handle builder : LinkM T InstanceEntity) := by
  unfold ModuleHeader.extractFunctions
  cases header.internalFuncs with
  | none =>
    apply NoFault.throw
    intro heq
    cases heq
    exact hother trivial
  | some internalFuncs =>
    apply NoFault.foldlM
    intro builder func
    exact (neverRefused_allocFunc _).bind fun _ => NoFault.pure _

/-- The functions that are allocated leave all else in the store as it is. -/
lemma extractFunctions_eq_ok {handle : Nat} {builder inst : InstanceEntity}
    (h : header.extractFunctions handle builder store = .ok inst store') :
    store'.data = store.data ∧ store'.tables = store.tables ∧
      store'.memories = store.memories := by
  have hkeeps : Keeps (fun s : LinkStore T => (s.data, s.tables, s.memories))
      (header.extractFunctions handle builder) := by
    unfold ModuleHeader.extractFunctions
    cases header.internalFuncs with
    | none => exact Keeps.throw _
    | some internalFuncs =>
      apply Keeps.foldlM
      intro builder func s
      rfl
  have hsame := hkeeps.of_ok h
  simp only [Prod.mk.injEq] at hsame
  exact hsame

lemma exists_extractFunctions (h : ModuleHeader.ofSections sections = some header) (handle : Nat)
    (builder : InstanceEntity) (store : LinkStore T) :
    ∃ inst store', header.extractFunctions handle builder store = .ok inst store' := by
  obtain ⟨internalFuncs, hfuncs⟩ := Option.isSome_iff_exists.1 (internalFuncs_isSome h)
  have hnever : NoFault (fun _ => True) (header.extractFunctions handle builder : LinkM T _) := by
    rw [ModuleHeader.extractFunctions, hfuncs]
    apply NoFault.foldlM
    intro builder func s failure s' h
    cases h
  cases hrun : header.extractFunctions handle builder store with
  | ok inst store' => exact ⟨inst, store', rfl⟩
  | error failure store' => exact absurd trivial (hnever _ _ _ hrun)

/-! ### Tables and memories -/

lemma askForNew_eq {ask : ResourceLimiter T → T → Except Unit Bool × T}
    (herror : error.IsOther) :
    (env.limiter = none ∧ askForNew env ask error store = .ok () store) ∨
    ∃ limiter, env.limiter = some limiter ∧
      (((ask limiter.toResourceLimiter store.data).1 = .ok true ∧
          askForNew env ask error store =
            .ok () { store with data := (ask limiter.toResourceLimiter store.data).2 }) ∨
        ((ask limiter.toResourceLimiter store.data).1 ≠ .ok true ∧
          ∃ failure, failure.IsOther ∧ askForNew env ask error store =
            .error (.instantiation failure)
              { store with data := (ask limiter.toResourceLimiter store.data).2 })) := by
  unfold askForNew
  cases env.limiter with
  | none => exact .inl ⟨rfl, rfl⟩
  | some limiter =>
    refine .inr ⟨limiter, rfl, ?_⟩
    simp only [get_bind, modify_bind]
    cases (ask limiter.toResourceLimiter store.data).1 with
    | error _ => exact .inr ⟨by simp, .limiter, trivial, rfl⟩
    | ok permitted =>
      cases permitted with
      | true => exact .inl ⟨rfl, rfl⟩
      | false => exact .inr ⟨by simp, error, herror, rfl⟩

/-- A table is permitted, or it is refused for what it is. -/
lemma newTable_eq (env : LinkEnv T) (ty : TableType) (store : LinkStore T) :
    (∃ table store', newTable env ty store = .ok table store' ∧
      permitTable env store.data ty = some store'.data ∧ store'.memories = store.memories) ∨
    (∃ failure store', newTable env ty store = .error (.instantiation failure) store' ∧
      permitTable env store.data ty = none ∧ failure.IsOther) := by
  obtain ⟨hnone, hask⟩ | ⟨limiter, hsome, ⟨hok, hask⟩ | ⟨hrefused, failure, hother, hask⟩⟩ :=
    @askForNew_eq T env store
      (.tableGrowOutOfBounds (ty.maximum.getD u32Max) 0 ty.minimum)
      (fun limiter => limiter.tableGrowing 0 ty.minimum ty.maximum) trivial
  · left
    refine ⟨_, _, bind_ok hask, ?_, rfl⟩
    rw [permitTable, hnone]
  · left
    refine ⟨_, _, bind_ok hask, ?_, rfl⟩
    rw [permitTable, hsome]
    exact if_pos hok
  · right
    refine ⟨failure, _, bind_error hask, ?_, hother⟩
    rw [permitTable, hsome]
    exact if_neg hrefused

lemma neverRefused_newTable (ty : TableType) (hother : ¬other.IsOther) :
    NeverRefused other (newTable env ty) := by
  intro s failure s' h heq
  obtain ⟨_, _, hok, -⟩ | ⟨failure', _, herror, -, hfailure⟩ := newTable_eq env ty s
  · rw [hok] at h
    cases h
  · rw [herror] at h
    cases h
    cases heq
    exact hother hfailure

lemma neverRefused_newMemory (ty : MemoryType) (hother : ¬other.IsOther) :
    NeverRefused other (newMemory env ty) := by
  apply NoFault.bind
  · intro s failure s' h heq
    subst heq
    obtain ⟨-, hok⟩ | ⟨limiter, -, ⟨-, hok⟩ | ⟨-, failure', hfailure, herror⟩⟩ :=
      @askForNew_eq T env s .memoryOutOfBounds (fun limiter => limiter.memoryGrowing 0
        (ty.initialPages * bytesPerPage) (some (ty.maximumPages.getD maxPages * bytesPerPage)))
        trivial
    · rw [hok] at h
      cases h
    · rw [hok] at h
      cases h
    · rw [herror] at h
      cases h
      exact hother hfailure
  · intro _ s failure s' h
    cases h

/-- The loop of `extract_tables`. -/
def createTables (env : LinkEnv T) (tables : List TableType) (builder : InstanceEntity) :
    LinkM T InstanceEntity :=
  tables.foldlM (fun builder tableType => do
    let table ← newTable env tableType
    return builder.push (.table table)) builder

lemma neverRefused_createTables (tables : List TableType) (builder : InstanceEntity)
    (hother : ¬other.IsOther) : NeverRefused other (createTables env tables builder) := by
  apply NoFault.foldlM
  intro builder ty
  exact (neverRefused_newTable ty hother).bind fun _ => NoFault.pure _

lemma keeps_createTables (tables : List TableType) (builder : InstanceEntity) :
    Keeps (fun store : LinkStore T => store.memories) (createTables env tables builder) := by
  apply Keeps.foldlM
  intro builder ty
  apply Keeps.bind _ fun _ => Keeps.pure _
  apply Keeps.bind
  · intro store
    obtain ⟨-, hask⟩ | ⟨limiter, -, ⟨-, hask⟩ | ⟨-, failure, -, hask⟩⟩ :=
      @askForNew_eq T env store
        (.tableGrowOutOfBounds (ty.maximum.getD u32Max) 0 ty.minimum)
        (fun limiter => limiter.tableGrowing 0 ty.minimum ty.maximum) trivial
    all_goals
      rw [hask]
      rfl
  · intro _ store
    rfl

/-- The tables are created iff the limiter permits each of them. -/
lemma createTables_eq_ok (tables : List TableType) (builder : InstanceEntity) (data : T)
    (store : LinkStore T) :
    (∃ inst store', createTables env tables builder store = .ok inst store' ∧ store'.data = data ∧
      store'.memories = store.memories) ↔
    tables.foldlM (permitTable env) store.data = some data := by
  induction tables generalizing builder store with
  | nil =>
    rw [List.foldlM_nil]
    constructor
    · intro ⟨inst, store', hrun, hdata, _⟩
      cases hrun
      exact congrArg some hdata
    · intro heq
      exact ⟨builder, store, rfl, Option.some.inj heq, rfl⟩
  | cons ty tables ih =>
    have hcons : createTables env (ty :: tables) builder = (newTable env ty >>= fun table =>
        createTables env tables (builder.push (.table table))) := by
      rw [createTables, List.foldlM_cons, bind_assoc]
      rfl
    rw [hcons, List.foldlM_cons]
    obtain ⟨table, next, hok, hpermit, hmemories⟩ | ⟨failure, next, herror, hpermit, -⟩ :=
      newTable_eq env ty store
    · rw [bind_ok hok, hpermit, ← hmemories]
      exact ih _ next
    · rw [bind_error herror, hpermit]
      constructor
      · intro ⟨inst, store', hrun, _⟩
        cases hrun
      · intro heq
        cases heq

lemma extractTables_eq (h : ModuleHeader.ofSections sections = some header)
    (builder : InstanceEntity) : header.extractTables env builder =
      (checkNewLimit env (·.tables) (·.tables.length) .tooManyTables header.tables.length >>=
        fun _ => createTables env sections.tables builder) := by
  rw [ModuleHeader.extractTables, (lenTables_eq h).1]
  rfl

lemma neverRefused_extractTables (h : ModuleHeader.ofSections sections = some header)
    (builder : InstanceEntity) (hne : other ≠ .tooManyTables) (hother : ¬other.IsOther) :
    NeverRefused other (header.extractTables env builder) := by
  rw [extractTables_eq h]
  exact (neverRefused_checkNewLimit hne).bind fun _ =>
    neverRefused_createTables sections.tables builder hother

lemma refused_extractTables (h : ModuleHeader.ofSections sections = some header)
    (builder : InstanceEntity) : Refused (header.extractTables env builder) store .tooManyTables ↔
      ExceedsLimit env (·.tables) store.data (store.tables.length + header.tables.length) := by
  rw [extractTables_eq h, refused_bind_left, refused_checkNewLimit]
  intro _
  exact neverRefused_createTables sections.tables builder (by simp [InstantiationError.IsOther])

lemma neverRefused_createMemories (memories : List MemoryType) (builder : InstanceEntity)
    (hother : ¬other.IsOther) : NeverRefused other (memories.foldlM (fun builder memoryType => do
      let memory ← newMemory env memoryType
      return builder.push (.memory memory)) builder) := by
  apply NoFault.foldlM
  intro builder ty
  exact (neverRefused_newMemory ty hother).bind fun _ => NoFault.pure _

lemma neverRefused_extractMemories (builder : InstanceEntity) (hne : other ≠ .tooManyMemories)
    (hother : ¬other.IsOther) : NeverRefused other (header.extractMemories env builder) :=
  (neverRefused_checkNewLimit hne).bind fun _ => neverRefused_createMemories _ builder hother

lemma refused_extractMemories (builder : InstanceEntity) :
    Refused (header.extractMemories env builder) store .tooManyMemories ↔
      ExceedsLimit env (·.memories) store.data
        (store.memories.length + header.memories.length) := by
  rw [ModuleHeader.extractMemories, refused_bind_left, refused_checkNewLimit]
  intro _
  exact neverRefused_createMemories _ builder (by simp [InstantiationError.IsOther])

lemma neverRefused_extractGlobals (builder : InstanceEntity) (hother : ¬other.IsOther) :
    NeverRefused other (header.extractGlobals builder : LinkM T InstanceEntity) := by
  apply NoFault.foldlM
  intro builder global
  apply NoFault.bind
  · apply neverRefused_liftCheck
    intro store h
    dsimp only at h
    split at h
    · cases h
    · cases h
      exact hother trivial
  · intro value s failure s' h
    cases h

end Steps

/-! ## The instantiation -/

section Instantiation

variable {env : LinkEnv T} {sections : HeaderSections} {header : ModuleHeader}
  {store store' : LinkStore T} {externals : List Extern} {error : InstantiationError}

/-- `Module::instantiate` up to the functions. -/
def upToFunctions (env : LinkEnv T) (header : ModuleHeader) (externals : List Extern)
    (handle : Nat) : LinkM T InstanceEntity :=
  (liftCheck fun store => (header.extractImports env.funcType store (.build header.funcTypes)
    externals).mapError .instantiation) >>= header.extractFunctions handle

lemma fillInstance_eq (handle : Nat) : header.fillInstance env externals handle =
    (upToFunctions env header externals handle >>= fun builder =>
      header.extractTables env builder >>= fun builder =>
        header.extractMemories env builder >>= fun builder =>
          header.extractGlobals builder >>= fun builder => pure (handle, builder)) := by
  rw [upToFunctions, bind_assoc]
  rfl

/-- The imports are read off the functions, tables, memories and globals of the store. -/
lemma extractImports_instances (instances : List InstanceEntity) (builder : InstanceEntity) :
    header.extractImports env.funcType { store with instances } builder externals =
      header.extractImports env.funcType store builder externals := by
  have hbind : ∀ (pairs : List (ImportType × Extern)) (builder : InstanceEntity),
      bindImports env.funcType { store with instances } builder pairs =
        bindImports env.funcType store builder pairs := by
    intro pairs
    induction pairs with
    | nil =>
      intro builder
      rfl
    | cons pair pairs ih =>
      intro builder
      rw [bindImports, bindImports]
      simp only [ih]
      rfl
  rw [ModuleHeader.extractImports, ModuleHeader.extractImports]
  simp only [hbind]

lemma neverRefused_upToFunctions (handle : Nat) (hother : ¬error.IsOther) :
    NeverRefused error (upToFunctions env header externals handle) :=
  (neverRefused_extractImports hother).bind fun builder =>
    neverRefused_extractFunctions handle builder hother

lemma upToFunctions_eq_ok {handle : Nat} {instances : List InstanceEntity} {builder : InstanceEntity}
    (h : upToFunctions env header externals handle { store with instances } =
      .ok builder store') :
    (∃ inst, header.extractImports env.funcType store (.build header.funcTypes) externals =
      .ok inst) ∧ store'.data = store.data ∧ store'.tables = store.tables ∧
      store'.memories = store.memories := by
  obtain ⟨inst, next, himports, hfuncs⟩ := bind_eq_ok.1 h
  rw [liftCheck_eq, extractImports_instances] at himports
  cases hext : header.extractImports env.funcType store (.build header.funcTypes) externals with
  | error failure =>
    rw [hext] at himports
    cases himports
  | ok inst' =>
    rw [hext] at himports
    cases himports
    have hsame := extractFunctions_eq_ok hfuncs
    exact ⟨⟨inst, rfl⟩, hsame⟩

lemma exists_upToFunctions (h : ModuleHeader.ofSections sections = some header)
    {inst : InstanceEntity} (hext : header.extractImports env.funcType store
      (.build header.funcTypes) externals = .ok inst) (handle : Nat)
    (instances : List InstanceEntity) :
    ∃ builder store', upToFunctions env header externals handle { store with instances } =
      .ok builder store' := by
  obtain ⟨builder, store', hfuncs⟩ := exists_extractFunctions h handle inst { store with instances }
  refine ⟨builder, store', bind_eq_ok.2 ⟨inst, { store with instances }, ?_, hfuncs⟩⟩
  rw [liftCheck_eq, extractImports_instances, hext]
  rfl

/-- A refusal after the functions. -/
lemma refused_instantiate (hne : error ≠ .tooManyInstances) (hother : ¬error.IsOther) :
    Refused (header.instantiate env externals) store error ↔
      ¬InstancesExhausted env store ∧ ∃ builder store',
        upToFunctions env header externals store.instances.length
          { store with instances := store.instances ++ [InstanceEntity.build []] } =
            .ok builder store' ∧
        Refused (header.extractTables env builder >>= fun builder =>
          header.extractMemories env builder >>= fun builder =>
            header.extractGlobals builder >>= fun builder =>
              pure (store.instances.length, builder)) store' error := by
  rw [ModuleHeader.instantiate_eq, refused_bind (neverRefused_checkNewLimit hne)]
  have halloc : Refused (allocInstance >>= header.fillInstance env externals) store error ↔
      Refused (header.fillInstance env externals store.instances.length)
        { store with instances := store.instances ++ [InstanceEntity.build []] } error := Iff.rfl
  rw [fillInstance_eq, refused_bind (neverRefused_upToFunctions _ hother)] at halloc
  constructor
  · intro ⟨_, next, hcheck, hrefused⟩
    obtain ⟨hnot, rfl⟩ := checkNewLimit_eq_ok.1 hcheck
    exact ⟨hnot, halloc.1 hrefused⟩
  · intro ⟨hnot, hrefused⟩
    exact ⟨(), store, checkNewLimit_eq_ok.2 ⟨hnot, rfl⟩, halloc.2 hrefused⟩

/-- A refusal of tables: all tables of the module are counted. -/
lemma refused_tables (h : ModuleHeader.ofSections sections = some header) :
    Refused (header.instantiate env externals) store .tooManyTables ↔
      ReachesTables env header store externals ∧
        ExceedsLimit env (·.tables) store.data (store.tables.length + header.tables.length) := by
  rw [refused_instantiate (by decide) (by simp [InstantiationError.IsOther])]
  have hrest : ∀ builder (store' : LinkStore T), Refused (header.extractTables env builder >>=
      fun builder => header.extractMemories env builder >>= fun builder =>
        header.extractGlobals builder >>= fun builder =>
          pure (store.instances.length, builder)) store' .tooManyTables ↔
      ExceedsLimit env (·.tables) store'.data (store'.tables.length + header.tables.length) := by
    intro builder store'
    rw [refused_bind_left, refused_extractTables h]
    intro builder
    have hother : ¬InstantiationError.tooManyTables.IsOther := id
    exact (neverRefused_extractMemories builder (by decide) hother).bind fun builder =>
      (neverRefused_extractGlobals builder hother).bind fun _ => NoFault.pure _
  constructor
  · intro ⟨hnot, builder, store', hrun, hrefused⟩
    obtain ⟨himports, hdata, htables, -⟩ := upToFunctions_eq_ok hrun
    rw [hrest, hdata, htables] at hrefused
    exact ⟨⟨hnot, himports⟩, hrefused⟩
  · intro ⟨⟨hnot, inst, himports⟩, hexceeds⟩
    obtain ⟨builder, store', hrun⟩ := exists_upToFunctions h himports store.instances.length
      (store.instances ++ [InstanceEntity.build []])
    obtain ⟨-, hdata, htables, -⟩ := upToFunctions_eq_ok hrun
    refine ⟨hnot, builder, store', hrun, ?_⟩
    rw [hrest, hdata, htables]
    exact hexceeds

/-- A refusal of memories: all memories of the module are counted. -/
lemma refused_memories (h : ModuleHeader.ofSections sections = some header) :
    Refused (header.instantiate env externals) store .tooManyMemories ↔
      ∃ data, ReachesMemories env sections header store externals data ∧
        ExceedsLimit env (·.memories) data (store.memories.length + header.memories.length) := by
  have hother : ¬InstantiationError.tooManyMemories.IsOther := id
  rw [refused_instantiate (by decide) hother]
  have hrest : ∀ builder (store' : LinkStore T), Refused (header.extractMemories env builder >>=
      fun builder => header.extractGlobals builder >>= fun builder =>
        pure (store.instances.length, builder)) store' .tooManyMemories ↔
      ExceedsLimit env (·.memories) store'.data
        (store'.memories.length + header.memories.length) := by
    intro builder store'
    rw [refused_bind_left, refused_extractMemories]
    intro builder
    exact (neverRefused_extractGlobals builder hother).bind fun _ => NoFault.pure _
  constructor
  · intro ⟨hnot, builder, store', hrun, hrefused⟩
    obtain ⟨himports, hdata, htables, hmemories⟩ := upToFunctions_eq_ok hrun
    rw [refused_bind (neverRefused_extractTables h builder (by decide) hother)] at hrefused
    obtain ⟨inst, store'', htablesRun, hrefused⟩ := hrefused
    rw [extractTables_eq h] at htablesRun
    obtain ⟨_, next, hcheck, hcreate⟩ := bind_eq_ok.1 htablesRun
    obtain ⟨hwithin, rfl⟩ := checkNewLimit_eq_ok.1 hcheck
    have hkept := (keeps_createTables sections.tables builder).of_ok hcreate
    have hpermits := (createTables_eq_ok sections.tables builder store''.data next).1
      ⟨inst, store'', hcreate, rfl, hkept⟩
    rw [hdata, htables] at hwithin
    rw [hdata] at hpermits
    rw [hrest, hkept, hmemories] at hrefused
    exact ⟨store''.data, ⟨⟨hnot, himports⟩, hwithin, hpermits⟩, hrefused⟩
  · intro ⟨data, ⟨⟨hnot, inst, himports⟩, hwithin, hpermits⟩, hexceeds⟩
    obtain ⟨builder, store', hrun⟩ := exists_upToFunctions h himports store.instances.length
      (store.instances ++ [InstanceEntity.build []])
    obtain ⟨-, hdata, htables, hmemories⟩ := upToFunctions_eq_ok hrun
    refine ⟨hnot, builder, store', hrun, ?_⟩
    rw [← hdata] at hpermits
    obtain ⟨inst, store'', hcreate, hdata', hmemories'⟩ :=
      (createTables_eq_ok sections.tables builder data store').2 hpermits
    rw [refused_bind (neverRefused_extractTables h builder (by decide) hother)]
    refine ⟨inst, store'', ?_, ?_⟩
    · rw [extractTables_eq h]
      rw [← hdata, ← htables] at hwithin
      exact bind_eq_ok.2 ⟨(), store', checkNewLimit_eq_ok.2 ⟨hwithin, rfl⟩, hcreate⟩
    · rw [hrest, hdata', hmemories', hmemories]
      exact hexceeds

lemma refused_instances (h : ModuleHeader.ofSections sections = some header) :
    Refused (header.instantiate env externals) store .tooManyInstances ↔
      ExceedsLimit env (·.instances) store.data (store.instances.length + 1) := by
  have hother : ¬InstantiationError.tooManyInstances.IsOther := id
  rw [ModuleHeader.instantiate_eq, refused_bind_left, refused_checkNewLimit]
  intro _
  apply neverRefused_allocInstance.bind
  intro handle
  rw [fillInstance_eq]
  exact (neverRefused_upToFunctions handle hother).bind fun builder =>
    (neverRefused_extractTables h builder (by decide) hother).bind fun builder =>
      (neverRefused_extractMemories builder (by decide) hother).bind fun builder =>
        (neverRefused_extractGlobals builder hother).bind fun _ => NoFault.pure _

/-- The count of the code and the one that leaves the imports out are on different sides of the
limit where only the imports exceed it. -/
lemma exceedsLimit_iff {bound : CountingLimiter T → T → Nat} {data : T} {count imported : Nat}
    (h : ¬OnlyImportsExceed env bound data count imported) :
    ExceedsLimit env bound data (count + imported) ↔ ExceedsLimit env bound data count := by
  constructor
  · intro ⟨limiter, hsome, hlt⟩
    refine ⟨limiter, hsome, ?_⟩
    by_contra hle
    exact h ⟨limiter, hsome, by omega, hlt⟩
  · intro ⟨limiter, hsome, hlt⟩
    exact ⟨limiter, hsome, by omega⟩

lemma exceedsLimit_of_onlyImportsExceed {bound : CountingLimiter T → T → Nat} {data : T}
    {count imported : Nat} (h : OnlyImportsExceed env bound data count imported) :
    ExceedsLimit env bound data (count + imported) ∧ ¬ExceedsLimit env bound data count := by
  obtain ⟨limiter, hsome, hle, hlt⟩ := h
  refine ⟨⟨limiter, hsome, hlt⟩, ?_⟩
  intro ⟨other, hother, hexceeds⟩
  rw [hsome] at hother
  cases hother
  omega

end Instantiation

/-- An instantiation is refused for too many instances, tables or memories exactly by what it
creates, iff nowhere on its way the imported tables or memories, which are counted again, are what
exceeds a limit. -/
theorem countsCreated_iff (env : LinkEnv T) (sections : HeaderSections) (header : ModuleHeader)
    (store : LinkStore T) (externals : List Extern)
    (h : ModuleHeader.ofSections sections = some header) :
    CountsCreated env sections header store externals ↔
      ImportsWithinLimits env sections header store externals := by
  have htables := @refused_tables T env sections header store externals h
  have hmemories := @refused_memories T env sections header store externals h
  rw [(lenTables_eq h).2, ← Nat.add_assoc] at htables
  simp only [(lenMemories_eq h).2, ← Nat.add_assoc] at hmemories
  constructor
  · intro hcounts
    constructor
    · intro hreaches honly
      obtain ⟨hexceeds, hnot⟩ := exceedsLimit_of_onlyImportsExceed honly
      exact hnot (hcounts.tables.1 (htables.2 ⟨hreaches, hexceeds⟩)).2
    · intro data hreaches honly
      obtain ⟨hexceeds, hnot⟩ := exceedsLimit_of_onlyImportsExceed honly
      obtain ⟨data', hreaches', hexceeds'⟩ :=
        hcounts.memories.1 (hmemories.2 ⟨data, hreaches, hexceeds⟩)
      have hdata := hreaches.permits.symm.trans hreaches'.permits
      rw [← Option.some.inj hdata] at hexceeds'
      exact hnot hexceeds'
  · intro hwithin
    refine ⟨refused_instances h, ?_, ?_⟩
    · rw [htables]
      exact and_congr_right fun hreaches => exceedsLimit_iff (hwithin.tables hreaches)
    · rw [hmemories]
      exact exists_congr fun data => and_congr_right fun hreaches =>
        exceedsLimit_iff (hwithin.memories data hreaches)

/-- A module that imports a table and defines nothing. -/
def importingTable : HeaderSections where
  engineFuncs := 0
  funcTypes := []
  imports := [⟨⟨"env", "table"⟩, .table ⟨.funcRef, 0, none⟩⟩]
  funcs := []
  tables := []
  memories := []
  globals := []

/-- A store that has the only table that it may have. -/
def fullStore : LinkStore Unit := { emptyStore with tables := [⟨.funcRef, none, []⟩] }

theorem countsCreated_iff_importingTable : ∃ header,
    ModuleHeader.ofSections importingTable = some header ∧
      (CountsCreated singleInstance importingTable header fullStore [.table 0] ↔
        ImportsWithinLimits singleInstance importingTable header fullStore [.table 0]) :=
  ⟨_, rfl, countsCreated_iff _ _ _ _ _ rfl⟩

/-- The module creates no table, and it is refused for too many. -/
theorem imported_table_counted_again :
    ¬∀ (env : LinkEnv Unit) (sections : HeaderSections) (header : ModuleHeader)
      (store : LinkStore Unit) (externals : List Extern),
      ModuleHeader.ofSections sections = some header →
        CountsCreated env sections header store externals := by
  intro h
  have hcounts := h singleInstance importingTable _ fullStore [.table 0] rfl
  obtain ⟨-, limiter, hsome, hlt⟩ := hcounts.tables.1 ⟨_, rfl⟩
  cases hsome
  exact absurd hlt (by decide)

end MotokoDebugger
