import MotokoDebugger.Executor.Instances
import MotokoDebugger.Executor.Sizes

/-!
# The cached instance

The executor caches the default memory and the first global of the instance it runs.

* `Coherent`: the cache holds what the store says of an instance. `coherent_iff_load`: it is what
  `CachedInstance.load` yields.
* `fresh_executeOther`, `current_executeReturn`, `current_compiledCall`, `fresh_hostCall`: the
  parts of an iteration leave the cache of the topmost frame, but for a tail call of a host
  function.
* `current_executeOne`: an iteration does, where it does not come back to a frame of another
  instance from such a call. `not_current_executeOne`: where it does, the cache is wrong.
* `fresh_hostCall_fault`: a host function that fails leaves a cache the debugger can go on with,
  where it leaves the cached memory as it was.
-/

namespace MotokoDebugger

variable {T : Type} {α : Type}

/-! ## Coherence -/

/-- The cache holds the instance `owner`, its default memory with all of its bytes and its first
global. -/
structure Coherent (store : Store T) (cache : CachedInstance) (owner : Nat) : Prop where
  inst : cache.inst = owner
  entity : ∃ entity, store.instances[owner]? = some entity ∧
    cache.memory.map (·.memory) = entity.memories.head? ∧ cache.global = entity.globals.head?
  bytes : ∀ cached, cache.memory = some cached →
    ∃ memory, store.memories[cached.memory]? = some memory ∧ cached.len = memory.bytes.length
  cell : ∀ global, cache.global = some global → global < store.globals.length

lemma loadMemory_eq_some {store : Store T} {entity : InstanceEntity}
    {cached : Option CachedMemory} :
    CachedInstance.loadMemory store entity = some cached ↔
      cached.map (·.memory) = entity.memories.head? ∧ ∀ c, cached = some c →
        ∃ memory, store.memories[c.memory]? = some memory ∧ c.len = memory.bytes.length := by
  unfold CachedInstance.loadMemory
  cases entity.memories.head? with
  | none =>
    cases cached with
    | none => simp
    | some c => simp
  | some handle =>
    cases cached with
    | none => simp
    | some c =>
      obtain ⟨memory, len⟩ := c
      simp only [Option.map_eq_some_iff, Option.some.injEq, CachedMemory.mk.injEq, Option.map_some,
        forall_eq']
      constructor
      · rintro ⟨found, hfound, rfl, rfl⟩
        exact ⟨rfl, found, hfound, rfl⟩
      · rintro ⟨rfl, found, hfound, rfl⟩
        exact ⟨found, hfound, rfl, rfl⟩

lemma loadGlobal_eq_some {store : Store T} {entity : InstanceEntity} {cached : Option Nat} :
    CachedInstance.loadGlobal store entity = some cached ↔
      cached = entity.globals.head? ∧ ∀ c, cached = some c → c < store.globals.length := by
  unfold CachedInstance.loadGlobal
  cases entity.globals.head? with
  | none =>
    cases cached with
    | none => simp
    | some c => simp
  | some handle =>
    cases cached with
    | none => simp
    | some c =>
      simp only [Option.map_eq_some_iff, Option.some.injEq, forall_eq']
      constructor
      · rintro ⟨value, hvalue, rfl⟩
        exact ⟨rfl, (List.getElem?_eq_some_iff.mp hvalue).1⟩
      · rintro ⟨rfl, hlt⟩
        exact ⟨_, List.getElem?_eq_getElem hlt, rfl⟩

lemma load_eq_some {store : Store T} {inst : Nat} {cache : CachedInstance} :
    CachedInstance.load store inst = some cache ↔ cache.inst = inst ∧
      ∃ entity, store.instances[inst]? = some entity ∧
        CachedInstance.loadMemory store entity = some cache.memory ∧
        CachedInstance.loadGlobal store entity = some cache.global := by
  simp only [CachedInstance.load, Option.bind_eq_bind, Option.bind_eq_some_iff, Option.pure_def,
    Option.some.injEq]
  constructor
  · rintro ⟨entity, hentity, memory, hmemory, global, hglobal, rfl⟩
    exact ⟨rfl, entity, hentity, hmemory, hglobal⟩
  · rintro ⟨rfl, entity, hentity, hmemory, hglobal⟩
    exact ⟨entity, hentity, cache.memory, hmemory, cache.global, hglobal, rfl⟩

/-- Coherent caches are the ones that are loaded. -/
theorem coherent_iff_load {store : Store T} {cache : CachedInstance} {owner : Nat} :
    Coherent store cache owner ↔ CachedInstance.load store owner = some cache := by
  rw [load_eq_some]
  constructor
  · rintro ⟨hinst, ⟨entity, hentity, hmemory, hglobal⟩, hbytes, hcell⟩
    exact ⟨hinst, entity, hentity, loadMemory_eq_some.mpr ⟨hmemory, hbytes⟩,
      loadGlobal_eq_some.mpr ⟨hglobal, hcell⟩⟩
  · rintro ⟨hinst, entity, hentity, hmemory, hglobal⟩
    obtain ⟨hmemory, hbytes⟩ := loadMemory_eq_some.mp hmemory
    obtain ⟨hglobal, hcell⟩ := loadGlobal_eq_some.mp hglobal
    exact ⟨hinst, ⟨entity, hentity, hmemory, hglobal⟩, hbytes, hcell⟩

/-- What is loaded depends on the shape of the store only. -/
lemma load_of_shape {store store' : Store T} (h : store'.shape = store.shape) (inst : Nat) :
    CachedInstance.load store' inst = CachedInstance.load store inst := by
  obtain ⟨hinstances, hrest⟩ := Prod.mk.inj h
  obtain ⟨hmemories, hglobals⟩ := Prod.mk.inj hrest
  have hmemory : ∀ entity, CachedInstance.loadMemory store' entity =
      CachedInstance.loadMemory store entity := by
    intro entity
    unfold CachedInstance.loadMemory
    cases entity.memories.head? with
    | none => rfl
    | some memory =>
      have hlen := congrArg (fun sizes => (sizes[memory]?).map fun len =>
        some (CachedMemory.mk memory len)) hmemories
      simpa only [List.getElem?_map, Option.map_map, Function.comp_def] using hlen
  have hglobal : ∀ entity, CachedInstance.loadGlobal store' entity =
      CachedInstance.loadGlobal store entity := by
    intro entity
    unfold CachedInstance.loadGlobal
    cases entity.globals.head? with
    | none => rfl
    | some global =>
      by_cases hlt : global < store.globals.length
      · have hlt' : global < store'.globals.length := by omega
        simp [hlt, hlt']
      · have hlt' : ¬ global < store'.globals.length := by omega
        simp [hlt, hlt']
  simp only [CachedInstance.load, hinstances, hmemory, hglobal]

namespace Executor

open StateExcept

/-! ## Local instructions -/

/-- The cache is that of the instance `owner`. -/
def FreshLocal (owner : Nat) (l : Local T) : Prop :=
  CachedInstance.load l.store owner = some l.cache

/-- What a fault leaves fresh, a panic need not. -/
abbrev KeepsFresh (x : LocalM T α) : Prop := ∀ owner,
  Triple (FreshLocal owner) x (fun _ => FreshLocal owner)
    (fun stop l => stop.IsFault → FreshLocal owner l)

lemma keepsFresh_of_keepsShape {x : LocalM T α} (hx : KeepsShape x) : KeepsFresh x := by
  have hmove : ∀ {owner : Nat} {l l' : Local T}, FreshLocal owner l →
      (l'.cache, l'.store.shape) = (l.cache, l.store.shape) → FreshLocal owner l' := by
    intro owner l l' hfresh h
    obtain ⟨hcache, hshape⟩ := Prod.mk.inj h
    rw [FreshLocal, load_of_shape hshape, hcache]
    exact hfresh
  intro owner l hfresh
  exact ⟨fun a l' h => hmove hfresh (hx.of_ok h), fun stop l' h _ => hmove hfresh (hx.of_error h)⟩

/-- Where the memory may have grown, the rest of the cache is still that of `owner`. -/
def FreshButMemory (owner : Nat) (l : Local T) : Prop :=
  l.cache.inst = owner ∧ ∃ entity, l.store.instances[owner]? = some entity ∧
    CachedInstance.loadGlobal l.store entity = some l.cache.global

lemma FreshLocal.butMemory {owner : Nat} {l : Local T} (h : FreshLocal owner l) :
    FreshButMemory owner l := by
  obtain ⟨hinst, entity, hentity, -, hglobal⟩ := load_eq_some.mp h
  exact ⟨hinst, entity, hentity, hglobal⟩

/-- `update_memory` makes the cache that of `owner` again. -/
lemma triple_updateMemory (owner : Nat) :
    Triple (FreshButMemory owner) (updateMemory : LocalM T Unit) (fun _ => FreshLocal owner)
      (fun stop l => stop.IsFault → FreshLocal owner l) := by
  rintro l ⟨hinst, entity, hentity, hglobal⟩
  refine ⟨fun _ l' h => ?_, fun stop l' h hstop => ?_⟩
  · simp only [updateMemory, bind_eq_ok, get_apply, assume_eq_ok, unwrap_eq_ok, modify_apply,
      EStateM.Result.ok.injEq] at h
    obtain ⟨_, _, ⟨rfl, rfl⟩, found, _, ⟨hfound, rfl⟩, memory, _, ⟨hmemory, rfl⟩, -, rfl⟩ := h
    rw [hinst, hentity] at hfound
    obtain rfl := Option.some.inj hfound
    exact load_eq_some.mpr ⟨hinst, entity, hentity, hmemory, hglobal⟩
  · exact absurd hstop (writes_updateMemory.noFault _ _ _ h)

/-- A growth of a memory updates the cached memory where it succeeds and changes no size where it
fails. -/
lemma keepsFresh_growMemory (memory : Nat) (entity : MemoryEntity)
    (grow : GrowM MemoryEntity T Nat) :
    KeepsFresh (growOp entity grow (setMemory memory) updateMemory) := by
  intro owner
  refine Triple.get_bind fun l => ?_
  have hstate : ∀ fuel data, KeepsFresh
      (modifyStore fun store => { store with fuel, data } : LocalM T Unit) :=
    fun fuel data => keepsFresh_of_keepsShape (Keeps.modify fun _ => rfl)
  have hother : ∀ {f : Store T → Store T},
      (∀ store, (f store).instances = store.instances ∧ (f store).globals = store.globals) →
      Triple (FreshButMemory owner) (modifyStore f : LocalM T Unit)
        (fun _ => FreshButMemory owner) (fun stop l => stop.IsFault → FreshLocal owner l) := by
    rintro f hf l ⟨hinst, entity, hentity, hglobal⟩
    refine ⟨?_, ?_⟩
    · rintro _ _ ⟨⟩
      obtain ⟨hinstances, hglobals⟩ := hf l.store
      refine ⟨hinst, entity, (by rw [hinstances]; exact hentity), ?_⟩
      rw [loadGlobal_eq_some] at hglobal ⊢
      rw [hglobals]
      exact hglobal
    · rintro _ _ ⟨⟩
  have hset : ∀ entity, Triple (FreshButMemory owner) (setMemory memory entity : LocalM T Unit)
      (fun _ => FreshButMemory owner) (fun stop l => stop.IsFault → FreshLocal owner l) := by
    intro entity
    apply hother
    exact fun _ => ⟨rfl, rfl⟩
  have hgrown : ∀ fuel data, Triple (FreshButMemory owner)
      (modifyStore fun store => { store with fuel, data } : LocalM T Unit)
      (fun _ => FreshButMemory owner) (fun stop l => stop.IsFault → FreshLocal owner l) := by
    intro fuel data
    apply hother
    exact fun _ => ⟨rfl, rfl⟩
  dsimp only
  split
  · refine Triple.pre ?_ fun l' h => h.2.butMemory
    refine (hset _).bind fun _ => (hgrown _ _).bind fun _ => ?_
    exact (triple_updateMemory owner).bind fun _ => Triple.pure fun _ h => h
  · refine Triple.pre ?_ fun l' h => h.2
    refine (hstate _ _ owner).bind fun _ => ?_
    split
    · exact Triple.pure fun _ h => h
    · exact Triple.throw fun _ h _ => h
    · exact Triple.throw fun _ h _ => h

lemma keepsFresh_executeMemoryGrow (env : Engine T) (result : Reg) (delta : DeltaOperand) :
    KeepsFresh (executeMemoryGrow env result delta) := by
  have htame : ∀ {β : Type} {x : LocalM T β}, Tame x → KeepsFresh x :=
    fun hx => keepsFresh_of_keepsShape hx.shape
  intro owner
  refine (htame (tame_deltaOperand _) owner).bind fun delta => ?_
  refine (htame (tame_fetchMemoryIndex 1) owner).bind fun memory => ?_
  split
  · exact htame ((tame_executeMemorySizeImpl _ _).bind fun _ => tame_nextInstrAt 2) owner
  · refine (htame (tame_getEntity _ _) owner).bind fun memory => ?_
    refine (htame (tame_resolve _ _) owner).bind fun entity => ?_
    refine (keepsFresh_growMemory _ _ _ owner).bind fun value => ?_
    exact htame (tame_result _ _ 2) owner

/-- A local instruction leaves a fresh cache, also where it fails. -/
theorem keepsFresh_executeLocal (env : Engine T) (op : Op) : KeepsFresh (executeLocal env op) := by
  cases hop : growsEntity op with
  | false => exact keepsFresh_of_keepsShape (tame_executeLocal hop).shape
  | true =>
    cases op <;> try contradiction
    case tableGrow => exact keepsFresh_of_keepsShape (keepsShape_executeTableGrow _ _ _)
    case memoryGrow => exact keepsFresh_executeMemoryGrow _ _ _

/-! ## Steps that keep the cache -/

/-- The cache is that of the instance `owner`. -/
def Fresh (owner : Nat) (m : Machine T) : Prop := CachedInstance.load m.store owner = some m.cache

/-- The cached instance and what it depends on. -/
def view (m : Machine T) : CachedInstance × List InstanceEntity × List Nat × Nat :=
  (m.cache, m.store.shape)

lemma Fresh.of_view {owner : Nat} {m m' : Machine T} (h : Fresh owner m)
    (hview : view m' = view m) : Fresh owner m' := by
  obtain ⟨hcache, hshape⟩ := Prod.mk.inj hview
  rw [Fresh, load_of_shape hshape, hcache]
  exact h

lemma view_of_still {m m' : Machine T} (h : m'.still = m.still) : view m' = view m :=
  congrArg (fun s => (s.2.1, s.2.2.2.shape)) h

lemma keeps_view_stepLocal {x : LocalM T α} (hx : KeepsShape x) : Keeps view (stepLocal x) := by
  intro m
  cases h : x m.toLocal with
  | ok a l =>
    rw [show stepLocal x m = .ok a (m.withLocal l) from zoom_ok h]
    exact hx.of_ok h
  | error stop l =>
    rw [show stepLocal x m = .error stop (m.withLocal l) from zoom_error h]
    exact hx.of_error h

lemma keeps_view_copyManyReturnValues (env : Engine T) (ip : InstructionPtr) (values : List Reg) :
    Keeps view (copyManyReturnValues env ip values) := by
  refine readOnly_returnCallerResults.keeps.bind fun cells => ?_
  refine (keeps_view_stepLocal (tame_registerListAt _).shape).bind fun regs => ?_
  refine (keeps_view_stepLocal (tame_getRegisters _).shape).bind fun values => ?_
  exact Keeps.get.bind fun _ => (readOnly_assume _).keeps.bind fun _ => Keeps.modify fun _ => rfl

lemma keeps_view_executeBranchTableMany (env : Engine T) (index : Reg) (lenTargets : Nat) :
    Keeps view (executeBranchTableMany env index lenTargets) := by
  refine (keeps_view_stepLocal (tame_fetchBranchTableOffset _ _).shape).bind fun offset => ?_
  refine (keeps_view_stepLocal tame_nextInstr.shape).bind fun _ => Keeps.get.bind fun m => ?_
  refine (keeps_view_stepLocal ?_).bind fun _ => ?_
  · exact ((tame_skipRegisterList _).bind fun _ => tame_setIp _).shape
  refine (keeps_view_stepLocal (Tame.get_bind (fun _ _ => rfl) fun _ => tame_getInstr _).shape).bind fun target => ?_
  split
  · refine keeps_view_stepLocal (Tame.bind ?_ fun _ => tame_branchTo _).shape
    exact tame_executeCopyManyImpl _ _ _
  · refine keeps_view_stepLocal (Tame.bind ?_ fun _ => tame_branchTo _).shape
    exact tame_executeCopyManyNonOverlappingImpl _ _ _
  · exact keeps_view_copyManyReturnValues _ _ _
  · exact Keeps.throw _

lemma fresh_of_keeps_view {x : ExecM T α} (hx : Keeps view x) (owner : Nat) :
    Triple (Fresh owner) x (fun _ => Fresh owner) (fun stop m => stop.IsFault → Fresh owner m) :=
  fun _ hfresh => ⟨fun _ _ h => hfresh.of_view (hx.of_ok h),
    fun _ _ h _ => hfresh.of_view (hx.of_error h)⟩

lemma fresh_stepLocal {x : LocalM T α} (hx : KeepsFresh x) (owner : Nat) :
    Triple (Fresh owner) (stepLocal x) (fun _ => Fresh owner)
      (fun stop m => stop.IsFault → Fresh owner m) := by
  intro m hfresh
  refine ⟨fun _ m' h => ?_, fun stop m' h hstop => ?_⟩
  · obtain ⟨l, hl, rfl⟩ := stepLocal_eq_ok.mp h
    exact (hx owner).of_ok (show FreshLocal owner m.toLocal from hfresh) hl
  · obtain ⟨l, hl, rfl⟩ := stepLocal_eq_error.mp h
    exact (hx owner).of_error (show FreshLocal owner m.toLocal from hfresh) hl hstop

/-- An instruction that neither calls nor returns leaves a fresh cache, also where it fails. -/
theorem fresh_executeOther (env : Engine T) (op : Op) (owner : Nat) :
    Triple (Fresh owner) (executeOther env op) (fun _ => Fresh owner)
      (fun stop m => stop.IsFault → Fresh owner m) := by
  unfold executeOther
  split
  · exact fresh_of_keeps_view (keeps_view_executeBranchTableMany _ _ _) owner
  · exact fresh_stepLocal (keepsFresh_executeLocal _ _) owner

/-! ## Returns -/

/-- The cache is that of the topmost frame, where there is one. -/
def Current (owners : List Nat) (m : Machine T) : Prop :=
  ∀ owner, owners.head? = some owner → Fresh owner m

lemma Current.of_view {owners : List Nat} {m m' : Machine T} (h : Current owners m)
    (hview : view m' = view m) : Current owners m' :=
  fun owner howner => (h owner howner).of_view hview

lemma resumeCaller_view (m : Machine T) : view (resumeCaller m).2 = view m := by
  unfold resumeCaller
  split <;> rfl

/-- A return reloads the cache where the frame below belongs to another instance. -/
theorem current_returnImpl {m m' : Machine T} {flow : ControlFlow} {owners : List Nat}
    (haligned : Aligned m.stack.calls owners) (hcurrent : Current owners m)
    (h : returnImpl m = .ok flow m') : Current owners.tail m' := by
  obtain ⟨returned, popped, calls, cache, hpop, -, hcache, hresume⟩ := returnImpl_eq_ok.mp h
  obtain ⟨owner, rest, rfl, hrest, rfl⟩ := aligned_pop haligned hpop
  have hview := congrArg (fun r => view r.2) hresume
  simp only [resumeCaller_view] at hview
  intro next hnext
  rw [List.tail_cons] at hnext
  obtain ⟨hcached, hshape⟩ := Prod.mk.inj hview
  rw [Fresh, ← hcached, load_of_shape hshape.symm]
  by_cases hsame : rest.head? = some owner
  · -- the frame below belongs to the same instance, whose cache is kept
    rw [hsame] at hnext
    obtain rfl := Option.some.inj hnext
    rw [if_pos hsame] at hcache
    obtain rfl := Option.some.inj hcache
    exact hcurrent owner rfl
  · rw [if_neg hsame] at hcache
    simp only [cacheAfterReturn, Option.bind_some, hrest.instance_, hnext] at hcache
    exact hcache

lemma current_executeReturn {env : Engine T} {op : Op} {m m' : Machine T} {flow : ControlFlow}
    {owners : List Nat} (haligned : Aligned m.stack.calls owners) (hcurrent : Current owners m)
    (hop : op.isReturn) (h : executeReturn env op m = .ok flow m') :
    Current (if returnsNow op m.toLocal then owners.tail else owners) m' := by
  cases hnow : returnsNow op m.toLocal with
  | false =>
    obtain ⟨hskip, -⟩ := (executeReturn_skip hop hnow).mp h
    have hstill := (keeps_still_stepLocal (keeps_still_skipReturn env op)).of_ok hskip
    exact hcurrent.of_view (view_of_still hstill)
  | true =>
    obtain ⟨values, m₁, hvalues, hfinish⟩ := (executeReturn_eq_ok hop hnow).mp h
    obtain ⟨cells, results, regs, written, -, -, -, hret⟩ := finishReturn_eq_ok.mp hfinish
    have hstill := (keeps_still_stepLocal (keeps_still_returnedValues env op)).of_ok hvalues
    refine current_returnImpl (m := m₁.withCells written) ?_ ?_ hret
    · rw [show (m₁.withCells written).stack.calls = m₁.stack.calls from rfl,
        keepsCalls_returnedValues hvalues]
      exact haligned
    · have hview : view m₁ = view m := view_of_still hstill
      exact hcurrent.of_view hview

/-! ## Calls of compiled functions -/

lemma keeps_view_of_context {x : ExecM T α} (hx : Keeps context x) : Keeps view x :=
  hx.comp fun c => (c.1, c.2.shape)

lemma keeps_context_updateInstrPtrAt (offset : Nat) :
    Keeps context (updateInstrPtrAt offset : ExecM T Unit) := by
  refine Keeps.bind (Keeps.modify fun _ => rfl) fun _ => Keeps.get.bind fun _ => ?_
  refine (readOnly_unwrap _).keeps.bind fun _ => Keeps.get.bind fun m => ?_
  exact Keeps.modify fun _ => rfl

lemma keeps_view_pushFrame (called : CallFrame) (inst : Option Nat) :
    Keeps view (pushFrame called inst : ExecM T Unit) :=
  Keeps.get.bind fun _ => (readOnly_liftTrap _).keeps.bind fun _ => Keeps.modify fun _ => rfl

/-- Entering a compiled function keeps the cache of its caller. -/
lemma keeps_view_prepareCompiledFuncCall (env : Engine T) (c : CallContext) (results : RegSpan)
    (func : EngineFunc) (inst : Option Nat) :
    Keeps view (prepareCompiledFuncCall env c results func inst) := by
  refine (keeps_view_of_context (keeps_context_dispatchCompiledFunc _ _ _ _)).bind fun called => ?_
  have henter : ∀ frame : CallFrame, Keeps view (initCallFrame frame : ExecM T Unit) :=
    fun _ => Keeps.modify fun _ => rfl
  split
  · refine (keeps_view_of_context (keeps_context_updateInstrPtrAt 1)).bind fun _ => (henter _).bind fun _ => ?_
    exact keeps_view_pushFrame _ _
  · have hmerge : Keeps view (mergeCallFrames called : ExecM T _) :=
      Keeps.get.bind fun _ => (readOnly_unwrap _).keeps.bind fun _ =>
        Keeps.bind (Keeps.modify fun _ => rfl) fun _ => Keeps.pure _
    exact hmerge.bind fun _ => (henter _).bind fun _ => keeps_view_pushFrame _ _

lemma fresh_of_updateCache {inst : Nat} {m m' : Machine T} {u : Unit}
    (h : updateCache inst m = .ok u m') : Fresh inst m' := by
  simp only [updateCache, bind_eq_ok, get_apply, unwrap_eq_ok, modify_apply,
    EStateM.Result.ok.injEq] at h
  obtain ⟨_, _, ⟨rfl, rfl⟩, cache, _, ⟨hload, rfl⟩, -, rfl⟩ := h
  exact hload

/-- The cache after a call of a compiled function is that of the function's instance. -/
lemma current_compiledCall {env : Engine T} {c : CallContext} {results : RegSpan}
    {body : EngineFunc} {inst : Option Nat} {m m' : Machine T} {u : Unit} {owners : List Nat}
    (hcurrent : Current owners m)
    (h : executeCallee env c results (.compiled body inst) m = .ok u m') :
    Current (ownersAfter c.kind (.compiled body inst) owners) m' := by
  obtain ⟨_, m₁, hcall, hswitch⟩ := bind_eq_ok.mp h
  have hview := (keeps_view_prepareCompiledFuncCall _ _ _ _ _).of_ok hcall
  intro owner howner
  cases inst with
  | none =>
    cases hswitch
    refine (hcurrent owner ?_).of_view hview
    obtain ⟨kind, hasParams⟩ := c
    cases kind <;> cases owners <;> simp_all [ownersAfter]
  | some inst =>
    have hinst : inst = owner := by
      obtain ⟨kind, hasParams⟩ := c
      cases kind <;> simpa [ownersAfter] using howner
    subst hinst
    exact fresh_of_updateCache hswitch

/-! ## Calls of host functions -/

/-- The cache of `m` and its store, up to the state of the host. -/
def UpToData (m m' : Machine T) : Prop :=
  m'.cache = m.cache ∧ ∃ data, m'.store = { m.store with data }

lemma view_of_upToData {m m' : Machine T} (h : UpToData m m') : view m' = view m := by
  obtain ⟨hcache, data, hstore⟩ := h
  rw [view, hcache, hstore]
  rfl

lemma upToData_invokeCallHook (env : Engine T) (callType : CallHook) :
    Moves UpToData (invokeCallHook env callType) := by
  intro m
  cases hhook : env.callHook with
  | none =>
    simp only [invokeCallHook, hhook]
    exact ⟨rfl, m.store.data, rfl⟩
  | some callHook =>
    rcases hcall : callHook callType m.store.data with ⟨result, data⟩
    simp only [invokeCallHook, hhook, get_bind, hcall, modify_bind]
    cases result <;> exact ⟨rfl, data, rfl⟩

lemma keeps_view_invokeCallHook (env : Engine T) (callType : CallHook) :
    Keeps view (invokeCallHook env callType) :=
  fun m => view_of_upToData (upToData_invokeCallHook env callType m)

/-- A step that keeps the cache and the store keeps what is said of them. -/
lemma triple_of_context {P F : Machine T → Prop}
    (hP : ∀ m m' : Machine T, context m' = context m → P m → P m') (hF : ∀ m, P m → F m)
    {x : ExecM T α} (hx : Keeps context x) :
    Triple P x (fun _ => P) (fun stop m => stop.IsFault → F m) :=
  fun _ h => ⟨fun _ _ hok => hP _ _ (hx.of_ok hok) h,
    fun _ _ herror _ => hF _ (hP _ _ (hx.of_error herror) h)⟩

lemma triple_resumable {P F : Machine T → Prop} {Q : Unit → Machine T → Prop} {x : ExecM T Unit}
    (hx : Triple P x Q (fun stop m => stop.IsFault → F m)) (func : Nat) (results : RegSpan) :
    Triple P (resumable func results x) Q (fun stop m => stop.IsFault → F m) := by
  intro m hP
  obtain ⟨hok, herror⟩ := hx m hP
  refine ⟨fun u m' h => ?_, fun stop m' h hstop => ?_⟩
  · unfold resumable at h
    split at h
    · split at h <;> cases h
    · exact hok u m' h
  · unfold resumable at h
    split at h
    · rename_i error m₁ hx'
      have hF := herror _ _ hx' ⟨error, rfl⟩
      split at h
      · cases h
        exact hF
      · cases h
        exact hF
    · exact herror stop m' h hstop

/-- A host function that returns leaves the cache of the instance it was called from. Where it
fails, the cache is as good as the host function left it. -/
lemma triple_runHostFunc {env : Engine T} {P F : Machine T → Prop} {hostFunc : HostFuncEntity}
    {inst : Nat} (hP : ∀ m m' : Machine T, context m' = context m → P m → P m')
    (hsetup : ∀ m, P m → F m) (hfresh : ∀ m, Fresh inst m → F m)
    (hdispatch : Triple P (dispatchHostFunc env hostFunc (some inst)) (fun _ _ => True)
      (fun stop m => stop.IsFault → F m)) (c : CallContext) (results : RegSpan) (func : Nat) :
    Triple P (runHostFunc env c results func hostFunc inst) (fun _ => Fresh inst)
      (fun stop m => stop.IsFault → F m) := by
  have hkeep : ∀ {β : Type} {x : ExecM T β}, Keeps context x →
      Triple P x (fun _ => P) (fun stop m => stop.IsFault → F m) :=
    fun hx => triple_of_context hP hsetup hx
  have hview : ∀ {β : Type} {x : ExecM T β}, Keeps view x →
      Triple (Fresh inst) x (fun _ => Fresh inst) (fun stop m => stop.IsFault → F m) :=
    fun hx => (fresh_of_keeps_view hx inst).mono (fun _ h => h) (fun _ _ h => h)
      fun _ _ h hstop => hfresh _ (h hstop)
  have hupdate : Triple (fun _ => True) (updateCache inst : ExecM T Unit) (fun _ => Fresh inst)
      (fun stop m => stop.IsFault → F m) :=
    fun m _ => ⟨fun _ _ h => fresh_of_updateCache h,
      fun _ _ h hstop => absurd hstop (noFault_updateCache inst _ _ _ h)⟩
  have hend : Triple P (do
      resumable func results (dispatchHostFunc env hostFunc (some inst))
      updateCache inst
      let results ← unwrap (results.iter hostFunc.lenResults)
      let returned := (← get).stack.values.top (max hostFunc.lenParams hostFunc.lenResults)
      setValues ((← get).stack.values.drop (max hostFunc.lenParams hostFunc.lenResults))
      stepLocal (setRegisters results returned) : ExecM T Unit) (fun _ => Fresh inst)
      (fun stop m => stop.IsFault → F m) := by
    refine (triple_resumable hdispatch _ _).bind fun _ => hupdate.bind fun _ => ?_
    refine hview ((readOnly_unwrap _).keeps.bind fun regs => Keeps.get.bind fun _ => ?_)
    refine Keeps.get.bind fun _ => Keeps.bind (Keeps.modify fun _ => rfl) fun _ => ?_
    exact keeps_view_stepLocal (tame_setRegisters _ _).shape
  unfold runHostFunc
  refine (hkeep Keeps.get).bind fun m => ?_
  refine (hkeep Keeps.get).bind fun m => (hkeep (readOnly_liftTrap _).keeps).bind fun values => ?_
  have hset : Keeps context (setValues values : ExecM T Unit) := Keeps.modify fun _ => rfl
  refine (hkeep hset).bind fun _ => (hkeep (keeps_context_passParams _ _ _)).bind fun _ => ?_
  dsimp only
  split
  · exact (hkeep (keeps_context_updateInstrPtrAt 1)).bind fun _ => hend
  · exact hend

lemma keeps_context_hostCaller (kind : CallKind) :
    Keeps context (hostCaller kind : ExecM T Unit) := by
  unfold hostCaller
  split
  · exact Keeps.get.bind fun _ => (readOnly_unwrap _).keeps.bind fun _ => Keeps.pure _
  · refine Keeps.get.bind fun _ => (readOnly_unwrap _).keeps.bind fun _ => ?_
    exact Keeps.modify fun _ => rfl

/-- A host function that returns leaves the cache of the instance it was called from. -/
lemma fresh_executeHostFunc {env : Engine T} {c : CallContext} {results : RegSpan}
    {func owner : Nat} {entity : HostFuncEntity} {m m' : Machine T} {u : Unit}
    (hinst : m.stack.calls.instance_ = some owner)
    (h : executeHostFunc env c results func entity m = .ok u m') : Fresh owner m' := by
  rw [executeHostFunc_eq] at h
  simp only [bind_eq_ok, get_apply, unwrap_eq_ok, EStateM.Result.ok.injEq] at h
  obtain ⟨_, _, ⟨rfl, rfl⟩, inst, _, ⟨hinst', rfl⟩, _, m₁, hcaller, hrun⟩ := h
  rw [hinst] at hinst'
  obtain rfl := Option.some.inj hinst'
  have hdispatch : Triple (fun _ => True) (dispatchHostFunc env entity (some owner))
      (fun _ _ => True) (fun stop _ => stop.IsFault → True) :=
    fun _ _ => ⟨fun _ _ _ => trivial, fun _ _ _ _ => trivial⟩
  have hrun' := triple_runHostFunc (fun _ _ _ _ => trivial) (fun _ _ => trivial)
    (fun _ _ => trivial) hdispatch c results func
  exact hrun'.of_ok trivial hrun

lemma fresh_hostCall {env : Engine T} {c : CallContext} {results : RegSpan} {func owner : Nat}
    {entity : HostFuncEntity} {m m' : Machine T} {u : Unit}
    (hinst : m.stack.calls.instance_ = some owner)
    (h : executeCallee env c results (.host func entity) m = .ok u m') : Fresh owner m' := by
  obtain ⟨_, m₁, hhook, h⟩ := bind_eq_ok.mp h
  obtain ⟨_, m₂, hhost, hhook'⟩ := bind_eq_ok.mp h
  rw [← (keepsCalls_invokeCallHook _ _).of_ok hhook] at hinst
  have hfresh := fresh_executeHostFunc hinst hhost
  exact hfresh.of_view ((keeps_view_invokeCallHook _ _).of_ok hhook')

/-- A host function that fails leaves the cache right, where the store it leaves still has the
default memory that is cached. -/
lemma fresh_hostCall_fault {env : Engine T} {c : CallContext} {results : RegSpan}
    {func owner : Nat} {entity : HostFuncEntity} {m m' : Machine T} {stop : Stop}
    (hinst : m.stack.calls.instance_ = some owner) (hfresh : Fresh owner m)
    (hclean : ∀ params data error store, env.hostCall entity.func (some owner) params
      { m.store with data } = (.error error, store) →
      CachedInstance.load store owner = CachedInstance.load m.store owner)
    (h : executeCallee env c results (.host func entity) m = .error stop m')
    (hstop : stop.IsFault) : Fresh owner m' := by
  rcases bind_eq_error.mp h with h | ⟨_, m₁, hhook, h⟩
  · exact hfresh.of_view ((keeps_view_invokeCallHook _ _).of_error h)
  have hdata : UpToData m m₁ := by
    have hmove := upToData_invokeCallHook env .callingHost m
    rwa [hhook] at hmove
  have hcalls := (keepsCalls_invokeCallHook _ _).of_ok hhook
  have hupTo : ∀ {m₁ m₂ : Machine T}, context m₂ = context m₁ → UpToData m m₁ → UpToData m m₂ := by
    rintro m₁ m₂ hcontext ⟨hcache, data, hstore⟩
    obtain ⟨hcache', hstore'⟩ := Prod.mk.inj hcontext
    exact ⟨hcache'.trans hcache, data, hstore'.trans hstore⟩
  have hdispatch : Triple (UpToData m) (dispatchHostFunc env entity (some owner))
      (fun _ _ => True) (fun stop m' => stop.IsFault → Fresh owner m') := by
    rintro m₂ ⟨hcache, data, hstore⟩
    refine ⟨fun _ _ _ => trivial, fun stop m₃ h _ => ?_⟩
    rcases hcall : env.hostCall entity.func (some owner) ((m₂.stack.values.top
      (max entity.lenParams entity.lenResults)).take entity.lenParams) m₂.store with
      ⟨result, store⟩
    simp only [dispatchHostFunc, get_bind, hcall, modify_bind] at h
    cases result with
    | ok values => cases h
    | error error =>
      cases h
      show CachedInstance.load store owner = some m₂.cache
      rw [hstore] at hcall
      rw [hclean _ _ _ _ hcall, hcache]
      exact hfresh
  rcases bind_eq_error.mp h with h | ⟨_, m₂, hhost, h⟩
  · rw [executeHostFunc_eq] at h
    rcases bind_eq_error.mp h with h | ⟨_, _, hget, h⟩
    · cases h
    cases hget
    rcases bind_eq_error.mp h with h | ⟨inst, _, hunwrap, h⟩
    · exact absurd hstop (noFault_unwrap _ _ _ _ h)
    obtain ⟨hinst', rfl⟩ := unwrap_eq_ok.mp hunwrap
    rw [hcalls, hinst] at hinst'
    obtain rfl := Option.some.inj hinst'
    rcases bind_eq_error.mp h with h | ⟨_, m₃, hcaller, h⟩
    · have hkeep := hupTo ((keeps_context_hostCaller _).of_error h) hdata
      exact hfresh.of_view (view_of_upToData hkeep)
    · have hkeep := hupTo ((keeps_context_hostCaller _).of_ok hcaller) hdata
      exact (triple_runHostFunc (fun _ _ => hupTo)
        (fun _ hdata => hfresh.of_view (view_of_upToData hdata)) (fun _ h => h) hdispatch c results
        func).of_error hkeep h hstop
  · rw [← hcalls] at hinst
    have hreturned := fresh_executeHostFunc hinst hhost
    exact hreturned.of_view ((keeps_view_invokeCallHook _ _).of_error h)

/-! ## One iteration -/

/-- The next instruction is a tail call of a host function. -/
def TailCallsHost (env : Engine T) (m : Machine T) : Prop :=
  ∃ instr site func entity, env.instrAt m.ip = some instr ∧ instr.op.callSite = some site ∧
    site.results = none ∧ callee env site m = some (.host func entity)

/-- The topmost frame is marked: the one below it belongs to another instance. -/
def OnOtherInstance (m : Machine T) : Prop :=
  ∃ frame caller frames, m.stack.calls.frames = frame :: caller :: frames ∧
    frame.changedInstance = true

lemma onOtherInstance_iff {m : Machine T} {owner next : Nat} {owners : List Nat}
    (h : Aligned m.stack.calls (owner :: next :: owners)) : OnOtherInstance m ↔ next ≠ owner := by
  have hlen := h.length
  have hmarks := h.marks
  match hframes : m.stack.calls.frames with
  | [] | [_] => simp [hframes] at hlen
  | frame :: caller :: frames =>
    rw [hframes, List.map_cons, changes, List.cons.injEq] at hmarks
    have hmark : frame.changedInstance = true ↔ next ≠ owner := by
      rw [hmarks.1]
      simp
    rw [← hmark]
    constructor
    · rintro ⟨frame', caller', frames', heq, hchanged⟩
      rw [hframes, List.cons.injEq] at heq
      rw [heq.1]
      exact hchanged
    · exact fun hchanged => ⟨frame, caller, frames, hframes, hchanged⟩

lemma resolve_calls {env : Engine T} {site : CallSite} {m m₁ : Machine T}
    {r : RegSpan × Callee × Option (Nat × Nat)} (h : resolveSite env site m = .ok r m₁) :
    m₁.stack.calls = m.stack.calls :=
  congrArg (fun s => s.2.2.1.calls) ((keeps_still_resolveSite _ _).of_ok h)

/-- An iteration leaves the cache of the topmost frame, but for a tail call of a host function that
comes back to another instance. -/
theorem current_executeOne {env : Engine T} {m m' : Machine T} {flow : ControlFlow}
    {owners : List Nat} (haligned : Aligned m.stack.calls owners) (hcurrent : Current owners m)
    (hcond : ¬ (TailCallsHost env m ∧ OnOtherInstance m))
    (hone : executeOne env m = .ok flow m') : Current (ownersOfStep env m owners) m' := by
  obtain ⟨instr, hinstr, hexec⟩ := executeOne_eq_ok.mp hone
  simp only [ownersOfStep, hinstr]
  cases hcall : instr.op.callSite with
  | some site =>
    rw [executeOp_callSite hcall] at hexec
    obtain ⟨pulled, _, hsite, hpure⟩ := bind_eq_ok.mp hexec
    cases hpure
    obtain ⟨results, target, m₁, hresolve, hcallee⟩ := executeSite_eq_ok.mp hsite
    have htarget : callee env site m = some target := by
      simp [callee, resolved, hresolve]
    have hcalls := resolve_calls hresolve
    simp only [htarget]
    cases target with
    | compiled body inst =>
      have hview : view m₁ = view m := view_of_still ((keeps_still_resolveSite _ _).of_ok hresolve)
      exact current_compiledCall (hcurrent.of_view hview) hcallee
    | host func entity =>
      have hfresh : ∀ owner, owners.head? = some owner → Fresh owner m' := by
        intro owner howner
        refine fresh_hostCall ?_ hcallee
        rw [hcalls, haligned.instance_, howner]
      cases hresults : site.results with
      | some _ =>
        have hkind : site.context.kind = .nested := by
          simp [CallSite.context, hresults]
        rw [hkind]
        exact hfresh
      | none =>
        have hkind : site.context.kind = .tail := by
          simp [CallSite.context, hresults]
        rw [hkind]
        intro next hnext
        obtain _ | ⟨owner, _ | ⟨other, rest⟩⟩ := owners
        · simp [ownersAfter] at hnext
        · simp [ownersAfter] at hnext
        · obtain rfl : other = next := by
            simpa [ownersAfter] using hnext
          have hsame : other = owner := by
            by_contra hne
            exact hcond ⟨⟨instr, site, func, entity, hinstr, hcall, hresults, htarget⟩,
              (onOtherInstance_iff haligned).mpr hne⟩
          rw [hsame]
          exact hfresh owner rfl
  | none =>
    cases hreturn : instr.op.isReturn with
    | true =>
      rw [executeOp_return hreturn] at hexec
      exact current_executeReturn haligned hcurrent hreturn hexec
    | false =>
      rw [executeOp_other hcall hreturn] at hexec
      obtain ⟨_, _, hother, hpure⟩ := bind_eq_ok.mp hexec
      cases hpure
      intro owner howner
      exact (fresh_executeOther env instr.op owner).of_ok (hcurrent owner howner) hother

/-- After a tail call of a host function that comes back to another instance the cache is that of
the instance of the popped frame. -/
theorem not_current_executeOne {env : Engine T} {m m' : Machine T} {flow : ControlFlow}
    {owners : List Nat} (haligned : Aligned m.stack.calls owners)
    (hcond : TailCallsHost env m ∧ OnOtherInstance m) (hone : executeOne env m = .ok flow m') :
    ¬ Current (ownersOfStep env m owners) m' := by
  obtain ⟨⟨instr, site, func, entity, hinstr, hcall, hresults, htarget⟩, hother⟩ := hcond
  obtain ⟨instr', hinstr', hexec⟩ := executeOne_eq_ok.mp hone
  rw [hinstr] at hinstr'
  obtain rfl := Option.some.inj hinstr'
  rw [executeOp_callSite hcall] at hexec
  obtain ⟨pulled, _, hsite, hpure⟩ := bind_eq_ok.mp hexec
  cases hpure
  obtain ⟨results, target, m₁, hresolve, hcallee⟩ := executeSite_eq_ok.mp hsite
  obtain rfl : target = .host func entity := by
    simpa [callee, resolved, hresolve] using htarget
  have hkind : site.context.kind = .tail := by
    simp [CallSite.context, hresults]
  have hlen := haligned.length
  obtain ⟨frame, caller, frames, hframes, -⟩ := id hother
  obtain _ | ⟨owner, _ | ⟨next, rest⟩⟩ := owners
  · simp [hframes] at hlen
  · simp [hframes] at hlen
  · have hne := (onOtherInstance_iff haligned).mp hother
    intro hcurrent
    have hnext : Fresh next m' := by
      refine hcurrent next ?_
      simp only [ownersOfStep, hinstr, hcall, htarget, hkind, ownersAfter, List.tail_cons,
        List.head?_cons]
    have howner : Fresh owner m' := by
      refine fresh_hostCall ?_ hcallee
      rw [resolve_calls hresolve, haligned.instance_, List.head?_cons]
    have h₁ := (load_eq_some.mp hnext).1
    have h₂ := (load_eq_some.mp howner).1
    exact hne (h₁.symm.trans h₂)

end Executor

end MotokoDebugger
