import MotokoDebugger.Executor.CallSite
import MotokoDebugger.Executor.FuncTypes

/-!
# Indirect calls

An indirect call compares indices of the registry of function types. That is a comparison of types,
because all indices come from the registry.

* `IndirectCall`: the state in which an indirect call is executed.
* `Traps`, `Dispatches`: what both interpreters do then.
* `callIndirect_exact`: the call is dispatched iff there is a function in the table that has the
  type of the instruction.
-/

namespace MotokoDebugger

namespace Executor

open StateExcept FuncTypeRegistry

variable {T : Type}

/-! ## The state of a call -/

/-- The instruction at a call site is executed: it names its parameter word, its table and its type
in the instance, a tail call has a frame, and the types of the instruction and of the functions in
the table come from the registry. -/
structure IndirectCall (env : Engine T) (site : CallSite) (m : Machine T) (types : List FuncType)
    (indices : List Nat) (index : Nat) (table : TableEntity) (expected : FuncType) where
  funcType : Nat
  imm16 : Bool
  target_eq : site.target = .indirect funcType imm16
  tableIndex : Nat
  ip : InstructionPtr
  pulls : pullParams imm16 env m.toLocal = .ok (index, tableIndex) { m.toLocal with ip }
  results : RegSpan
  frame : resultRegs site { m with ip } = .ok results { m with ip }
  inst : InstanceEntity
  inst_eq : m.store.instances[m.cache.inst]? = some inst
  handle : Nat
  handle_eq : inst.tables[tableIndex]? = some handle
  table_eq : m.store.tables[handle]? = some table
  signature : Nat
  signature_eq : inst.funcTypes[funcType]? = some signature
  registered : Registered types indices expected signature

/-- Both interpreters stop with the trap; only the instruction pointer has moved. -/
def Traps (env : Engine T) (op : Op) (m : Machine T) (code : TrapCode) : Prop :=
  ∃ m', m'.still = m.still ∧ executeOp env op m = .error (.trap code) m' ∧
    ∀ importFuncLen, executeInstr env importFuncLen op m = .error (.trap code) m'

/-- Both interpreters do what the callee does; until then only the instruction pointer has
moved. -/
def Dispatches (env : Engine T) (site : CallSite) (op : Op) (m : Machine T) (callee : Callee) :
    Prop :=
  ∃ results pulled m', m'.still = m.still ∧ resultRegs site m' = .ok results m' ∧
    executeOp env op m =
      (executeCallee env site.context results callee >>= fun _ => pure .continue_) m' ∧
    ∀ importFuncLen, executeInstr env importFuncLen op m =
      (executeCallee env site.context results callee >>= fun _ =>
        pure (site.report importFuncLen (some pulled))) m'

/-! ## Finding the callee -/

section Resolve

variable {l : Local T} {inst : InstanceEntity} {table : TableEntity}
  {tableIndex handle funcType signature index func : Nat} {value : UntypedVal}
  {entity : FuncEntity}

lemma getEntity_eq {space : InstanceEntity → List Nat} {entity : Nat}
    (hinst : l.store.instances[l.cache.inst]? = some inst)
    (hentity : (space inst)[index]? = some entity) : getEntity space index l = .ok entity l := by
  rw [getEntity, get_bind, hinst]
  show assume (space inst)[index]? l = _
  rw [hentity]
  rfl

lemma resolve_eq {E : Type} {arena : Store T → List E} {entity : E}
    (hentity : (arena l.store)[index]? = some entity) : resolve arena index l = .ok entity l := by
  rw [resolve, get_bind, hentity]
  rfl

/-- The table is found; what follows depends on its element. -/
lemma resolveIndirect_eq (hinst : l.store.instances[l.cache.inst]? = some inst)
    (hhandle : inst.tables[tableIndex]? = some handle)
    (htable : l.store.tables[handle]? = some table) :
    (table.elements[index]? = none →
      resolveIndirect funcType index tableIndex l = .error (.trap .tableOutOfBounds) l) ∧
    (∀ value, table.elements[index]? = some value →
      (FuncRef.func value = none →
        resolveIndirect funcType index tableIndex l = .error (.trap .indirectCallToNull) l) ∧
      ∀ func entity signature, FuncRef.func value = some func →
        l.store.funcs[func]? = some entity → inst.funcTypes[funcType]? = some signature →
        (entity.tyDedup ≠ signature →
          resolveIndirect funcType index tableIndex l = .error (.trap .badSignature) l) ∧
        (entity.tyDedup = signature → resolveIndirect funcType index tableIndex l = .ok func l)) := by
  have hgetTable : getTable tableIndex l = .ok handle l := getEntity_eq hinst hhandle
  have hresolve : resolve (·.tables) handle l = .ok table l := resolve_eq htable
  rw [resolveIndirect, bind_ok hgetTable, bind_ok hresolve]
  refine ⟨?_, ?_⟩
  · intro hnone
    rw [hnone]
    rfl
  intro value hsome
  rw [hsome]
  refine ⟨?_, ?_⟩
  · intro hnull
    dsimp only
    rw [hnull]
    rfl
  intro func entity signature hfunc hentity hsignature
  dsimp only
  rw [hfunc]
  dsimp only
  have hresolveFunc : resolve (·.funcs) func l = .ok entity l := resolve_eq hentity
  have hgetType : getFuncTypeDedup funcType l = .ok signature l := getEntity_eq hinst hsignature
  rw [bind_ok hresolveFunc, bind_ok hgetType]
  constructor
  · intro hne
    rw [if_pos hne]
    rfl
  · intro heq
    rw [if_neg (not_not.2 heq)]
    rfl

end Resolve

/-! ## The call -/

section Call

variable {env : Engine T} {site : CallSite} {m : Machine T} {types : List FuncType}
  {indices : List Nat} {index : Nat} {table : TableEntity} {expected : FuncType} {op : Op}

/-- The callee is looked up when the parameter word has been read. -/
lemma resolveSite_indirect (call : IndirectCall env site m types indices index table expected) :
    resolveSite env site m =
      (stepLocal (resolveIndirect call.funcType index call.tableIndex) >>= fun func =>
        resolveFunc func >>= fun callee =>
          pure (call.results, callee, some (index, call.tableIndex))) { m with ip := call.ip } := by
  have hpulls : stepLocal (pullParams call.imm16 env) m =
      .ok (index, call.tableIndex) { m with ip := call.ip } := stepLocal_of_ip call.pulls
  rw [resolveSite, call.target_eq]
  dsimp only
  rw [bind_ok hpulls]
  dsimp only
  rw [bind_ok call.frame]

/-- An error of the look-up is the error of the instruction. -/
lemma traps_of_resolveIndirect (hop : op.callSite = some site)
    (call : IndirectCall env site m types indices index table expected) {code : TrapCode}
    (h : resolveIndirect call.funcType index call.tableIndex
      ({ m with ip := call.ip } : Machine T).toLocal =
        .error (.trap code) ({ m with ip := call.ip } : Machine T).toLocal) :
    Traps env op m code := by
  have hlookup : stepLocal (resolveIndirect call.funcType index call.tableIndex)
      { m with ip := call.ip } = .error (.trap code) { m with ip := call.ip } :=
    stepLocal_eq_error.2 ⟨_, h, Machine.withLocal_toLocal _⟩
  have hsite : executeSite env site m = .error (.trap code) { m with ip := call.ip } := by
    rw [executeSite]
    apply bind_error
    rw [resolveSite_indirect call]
    exact bind_error hlookup
  refine ⟨{ m with ip := call.ip }, rfl, ?_, ?_⟩
  · rw [executeOp_callSite hop]
    exact bind_error hsite
  · intro importFuncLen
    rw [executeInstr_callSite hop]
    exact bind_error hsite

/-- A callee that is found is entered. -/
lemma dispatches_of_resolveIndirect (hop : op.callSite = some site)
    (call : IndirectCall env site m types indices index table expected) {func : Nat}
    {entity : FuncEntity} (hentity : m.store.funcs[func]? = some entity)
    (h : resolveIndirect call.funcType index call.tableIndex
      ({ m with ip := call.ip } : Machine T).toLocal =
        .ok func ({ m with ip := call.ip } : Machine T).toLocal) :
    Dispatches env site op m (entity.callee func) := by
  have hlookup : stepLocal (resolveIndirect call.funcType index call.tableIndex)
      { m with ip := call.ip } = .ok func { m with ip := call.ip } :=
    stepLocal_eq_ok.2 ⟨_, h, Machine.withLocal_toLocal _⟩
  have hfunc : resolveFunc func { m with ip := call.ip } =
      .ok (entity.callee func) { m with ip := call.ip } := by
    rw [resolveFunc, get_bind, hentity]
    rfl
  have hsite : resolveSite env site m =
      .ok (call.results, entity.callee func, some (index, call.tableIndex))
        { m with ip := call.ip } := by
    rw [resolveSite_indirect call, bind_ok hlookup, bind_ok hfunc]
    rfl
  refine ⟨call.results, (index, call.tableIndex), { m with ip := call.ip }, rfl, call.frame,
    ?_, ?_⟩
  · rw [executeOp_callSite hop, executeSite, bind_assoc, bind_ok hsite]
    simp only [bind_assoc, pure_bind]
  · intro importFuncLen
    rw [executeInstr_callSite hop, executeSite, bind_assoc, bind_ok hsite]
    simp only [bind_assoc, pure_bind]

end Call

/-- All lists up to the limits make types. Those that modules and host functions have registered
give back their lists, and an indirect
call with an index of a table traps, before it changes anything, or is dispatched: it traps where
there is no such element, where this is null, and where the lists of the types of the function and
of the instruction differ. -/
theorem callIndirect_exact (width : PointerWidth) (types : List FuncType) (indices : List Nat)
    (registry : FuncTypeRegistry)
    (hrun : FuncTypeRegistry.allocAll width {} types = some (indices, registry))
    (env : Engine T) (op : Op) (site : CallSite) (hop : op.callSite = some site) (m : Machine T)
    (index : Nat) (table : TableEntity) (expected : FuncType)
    (call : IndirectCall env site m types indices index table expected) :
    (∀ params results, (FuncTypeInner.new width params results).isSome ↔
      params.length ≤ FuncTypeInner.maxLenParams ∧
        results.length ≤ FuncTypeInner.maxLenResults) ∧
    (∀ ty index, Registered types indices ty index → ∃ inner,
      registry.resolveFuncType index = some inner ∧ inner.Holds ty.params ty.results) ∧
    (table.elements[index]? = none → Traps env op m .tableOutOfBounds) ∧
    ∀ value, table.elements[index]? = some value →
      (FuncRef.func value = none → Traps env op m .indirectCallToNull) ∧
      ∀ func entity actual, FuncRef.func value = some func →
        m.store.funcs[func]? = some entity → Registered types indices actual entity.tyDedup →
        (¬(actual.params = expected.params ∧ actual.results = expected.results) →
          Traps env op m .badSignature) ∧
        (actual.params = expected.params ∧ actual.results = expected.results →
          Dispatches env site op m (entity.callee func)) := by
  have hvalid : ({} : FuncTypeRegistry).funcTypes.Valid := DedupArena.valid_empty
  obtain ⟨hvalid', -, hresolves⟩ := allocAll_spec hvalid hrun
  have hlookup := @resolveIndirect_eq T ({ m with ip := call.ip } : Machine T).toLocal call.inst
    table call.tableIndex call.handle call.funcType index call.inst_eq call.handle_eq call.table_eq
  refine ⟨fun _ _ => FuncTypeInner.new_isSome, ?_, ?_, ?_⟩
  · intro ty index hregistered
    exact (hresolves hregistered).holds
  · intro hnone
    exact traps_of_resolveIndirect hop call (hlookup.1 hnone)
  intro value hsome
  refine ⟨?_, ?_⟩
  · intro hnull
    exact traps_of_resolveIndirect hop call ((hlookup.2 value hsome).1 hnull)
  intro func entity actual hfunc hentity hactual
  have hfound := (hlookup.2 value hsome).2 func entity call.signature hfunc hentity
    call.signature_eq
  have hindex := (hresolves hactual).index_iff hvalid' (hresolves call.registered)
  have hlists : actual = expected ↔
      actual.params = expected.params ∧ actual.results = expected.results := by
    constructor
    · intro heq
      rw [heq]
      exact ⟨rfl, rfl⟩
    · intro heq
      exact congrArg₂ FuncType.mk heq.1 heq.2
  constructor
  · intro hne
    exact traps_of_resolveIndirect hop call (hfound.1 fun heq => hne (hlists.1 (hindex.1 heq)))
  · intro heq
    exact dispatches_of_resolveIndirect hop call hentity (hfound.2 (hindex.2 (hlists.2 heq)))

/-- A function without parameters and results is called with the type of one that has both. -/
theorem callIndirect_exact_badSignature : ∃ (env : Engine Unit) (m : Machine Unit),
    Traps env (.callIndirect0Imm16 ⟨0⟩ 0) m .badSignature := by
  have hrun : ((FuncTypeRegistry.allocAll .w64 {} [⟨[.i32], [.i32]⟩, ⟨[], []⟩]).map (·.1)) =
      some [0, 1] := by
    decide +kernel
  obtain ⟨run, hrun, hindices⟩ := Option.map_eq_some_iff.1 hrun
  let env : Engine Unit := Engine.ofCode
    [⟨[⟨0, .callIndirect0Imm16 ⟨0⟩ 0⟩, ⟨0, .callIndirectParamsImm16 0 0⟩], [], 1⟩] []
  let store : Store Unit := {
    Store.ofFuncs [.host ⟨0, 0, 1, 0⟩] with
    tables := [⟨.funcRef, none, [FuncRef.toUntyped 0]⟩]
    instances := [⟨[0], [0], [0], [], [], [], []⟩] }
  let m : Machine Unit := {
    sp := ⟨0, 0⟩
    ip := ⟨0, 0⟩
    cache := ⟨0, none, none⟩
    stack := ⟨⟨[0], 1⟩, ⟨[], [], 1⟩⟩
    store }
  refine ⟨env, m, ?_⟩
  have hcall := callIndirect_exact .w64 [⟨[.i32], [.i32]⟩, ⟨[], []⟩] [0, 1] run.2
    (by rw [hrun, ← hindices]) env (.callIndirect0Imm16 ⟨0⟩ 0) ⟨some ⟨0⟩, false, .indirect 0 true⟩ rfl
    m 0 ⟨.funcRef, none, [FuncRef.toUntyped 0]⟩ ⟨[.i32], [.i32]⟩ {
      funcType := 0
      imm16 := true
      target_eq := rfl
      tableIndex := 0
      ip := ⟨0, 1⟩
      pulls := rfl
      results := ⟨0⟩
      frame := rfl
      inst := ⟨[0], [0], [0], [], [], [], []⟩
      inst_eq := rfl
      handle := 0
      handle_eq := rfl
      table_eq := rfl
      signature := 0
      signature_eq := rfl
      registered := ⟨0, rfl, rfl⟩ }
  exact ((hcall.2.2.2 _ rfl).2 0 (.host ⟨0, 0, 1, 0⟩) ⟨[], []⟩ (by decide) rfl ⟨1, rfl, rfl⟩).1
    (by decide)

end Executor

end MotokoDebugger
