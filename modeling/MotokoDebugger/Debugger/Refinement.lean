import MotokoDebugger.Debugger.Entry
import MotokoDebugger.Debugger.Requests

/-!
# Stepping and running

The requests of the debugger go through the states of the plain loop.

* `plainRun`: the plain loop, and the results it leaves.
* `Refines`: what a session has in common with the plain loop on the same machine.
* `requests_refine_execute`: every sequence of requests does, if no callback reads an empty slot.
-/

namespace MotokoDebugger

namespace Debugger

open StateExcept Executor Runs

variable {T : Type} {env : Engine T}

/-! ## The plain run -/

/-- `Executor::execute` and the cells its results are read from. -/
def plainRun (env : Engine T) (lenResults fuel : Nat) :
    ExecM T (Option (List UntypedVal)) := do
  match ← execute env fuel with
  | none => return none
  | some _ => return some (← rootResults lenResults)

/-- Some iterations of the plain loop lead from `m₀` to `m`. -/
def Running (env : Engine T) (m₀ m : Machine T) : Prop := ∃ n, Steps (Continues env) n m₀ m

/-- The plain loop from `m₀` has come to its end in `m`. -/
def Ended (env : Engine T) (m₀ m : Machine T) : Prop := ∃ fuel, execute env fuel m₀ = .ok (some ()) m

lemma Running.trans {m₀ m m' : Machine T} {n : Nat} (h : Running env m₀ m)
    (hsteps : Steps (Continues env) n m m') : Running env m₀ m' := by
  obtain ⟨k, hk⟩ := h
  exact ⟨k + n, hk.trans hsteps⟩

lemma Running.ended {m₀ m m' : Machine T} (h : Running env m₀ m)
    (hbreak : executeOne env m = .ok .break_ m') : Ended env m₀ m' := by
  obtain ⟨n, hsteps⟩ := h
  exact ⟨n + 1, execute_eq_ok.mpr ⟨n, Nat.lt_succ_self n, m, hsteps, hbreak⟩⟩

lemma Running.stopped {m₀ m m' : Machine T} {stop : Stop} (h : Running env m₀ m)
    (hstop : executeOne env m = .error stop m') :
    ∃ fuel, execute env fuel m₀ = .error stop m' := by
  obtain ⟨n, hsteps⟩ := h
  exact ⟨n + 1, execute_eq_error.mpr ⟨n, Nat.lt_succ_self n, m, hsteps, hstop⟩⟩

lemma Ended.frames {m₀ m : Machine T} (h : Ended env m₀ m) : m.stack.calls.frames = [] := by
  obtain ⟨fuel, h⟩ := h
  obtain ⟨n, -, m₁, -, hbreak⟩ := execute_eq_ok.mp h
  obtain ⟨instr, hends⟩ := endsAt_of_break hbreak
  exact hends.frames

/-- Steps that do not end the run are iterations of the plain loop. -/
lemma continues_of_goes {n : Nat} {s s' : Session T} (hready : Ready env s.machine)
    (h : Steps (Goes env) n s s') : Steps (Continues env) n s.machine s'.machine := by
  induction h with
  | refl s => exact .refl _
  | head hstep _ ih =>
    obtain ⟨sig, hsig, hstep⟩ := hstep
    obtain ⟨flow, hone, hflow⟩ := executeStep_executeOne hready hstep
    cases flow with
    | continue_ => exact .head hone (ih (ready_of_continues hready hone))
    | break_ => exact absurd (hflow.mpr rfl) hsig

/-! ## The results -/

/-- The debugger reads the results of the function it runs from the lowest cells. -/
lemma getFinishResult_eq (env : Engine T) {s : Session T} {func : Nat} {entity : FuncEntity}
    (hrunFunc : s.runFunc = some func) (hfunc : s.machine.store.funcs[func]? = some entity) :
    getFinishResult env s =
      match slice? s.machine.stack.values.values 0
        (env.funcType entity.tyDedup).results.length with
      | some cells => .ok (List.zipWith Val.mk (env.funcType entity.tyDedup).results cells) s
      | none => .error .panic s := by
  rw [getFinishResult, get_bind]
  simp only [hrunFunc, hfunc, unwrap, pure_bind]
  cases slice? s.machine.stack.values.values 0
    (env.funcType entity.tyDedup).results.length <;> rfl

/-- So does the plain engine. -/
lemma plainRun_of_ok {fuel : Nat} {m m' : Machine T} (lenResults : Nat)
    (h : execute env fuel m = .ok (some ()) m') :
    plainRun env lenResults fuel m =
      match slice? m'.stack.values.values 0 lenResults with
      | some cells => .ok (some cells) m'
      | none => .error .panic m' := by
  rw [plainRun, bind_ok h]
  dsimp only
  rw [rootResults]
  simp only [bind_assoc, get_bind]
  cases slice? m'.stack.values.values 0 lenResults <;> rfl

/-! ## Requests -/

/-- What a session has in common with the plain run from `m₀` of a function with results of the
types `types`. -/
structure Refines (env : Engine T) (m₀ : Machine T) (types : List ValType) (s : Session T) :
    Prop where
  /-- The machine is one that the plain loop comes to. -/
  reached : Running env m₀ s.machine ∨ Ended env m₀ s.machine
  /-- A request that stops does so as the plain run does. -/
  stops : Running env m₀ s.machine → ∀ req fuel stop s',
    Request.perform env fuel req s = .error stop s' →
      ∃ fuel', plainRun env types.length fuel' m₀ = .error stop s'.machine
  /-- A request that reports the end reports the results of the plain run. -/
  finishes : Running env m₀ s.machine → ∀ req fuel results s',
    Request.perform env fuel req s = .ok (some (.finish results)) s' →
      ∃ fuel' cells, plainRun env types.length fuel' m₀ = .ok (some cells) s'.machine ∧
        results = List.zipWith Val.mk types cells
  /-- Every request that returns makes an iteration. -/
  advances : Running env m₀ s.machine → ∀ req fuel r s',
    Request.perform env fuel req s = .ok (some r) s' →
      Ended env m₀ s'.machine ∨ ∃ n, Steps (Continues env) (n + 1) s.machine s'.machine
  /-- A request runs on only while the plain loop does. -/
  returns : Running env m₀ s.machine → ∀ req fuel s',
    Request.perform env fuel req s = .ok none s' →
      Ended env m₀ s'.machine ∨ ∃ n ≥ fuel, Steps (Continues env) n s.machine s'.machine

section Requests

variable {m₀ : Machine T} {func : Nat} {entity : FuncEntity} {inst : InstanceWithName}

/-- A session on the way from `m₀`, running a function of the store. -/
structure OnTheWay (env : Engine T) (m₀ : Machine T) (func : Nat) (inst : InstanceWithName)
    (s : Session T) : Prop where
  live : s.executor = .live
  inst : s.inst = some inst
  runFunc : s.runFunc = some func
  reached : Running env m₀ s.machine ∨ Ended env m₀ s.machine

lemma OnTheWay.goes {n : Nat} {s s' : Session T} (hready : Ready env m₀)
    (h : OnTheWay env m₀ func inst s) (hrunning : Running env m₀ s.machine)
    (hsteps : Steps (Goes env) n s s') :
    OnTheWay env m₀ func inst s' ∧ Running env m₀ s'.machine := by
  obtain ⟨k, hk⟩ := hrunning
  have hrunning' : Running env m₀ s'.machine :=
    ⟨k + n, hk.trans (continues_of_goes (ready_of_steps hready hk) hsteps)⟩
  have hkeeps : s'.executor = .live ∧ s'.inst = s.inst ∧ s'.runFunc = s.runFunc := by
    refine hsteps.invariant
      (I := fun s' => s'.executor = .live ∧ s'.inst = s.inst ∧ s'.runFunc = s.runFunc)
      ?_ ⟨h.live, rfl, rfl⟩
    rintro a b ⟨sig, -, hstep⟩ ⟨-, hinst, hrunFunc⟩
    obtain ⟨-, hlive', hinst', hrunFunc'⟩ := executeStep_keeps hstep
    exact ⟨hlive', hinst'.trans hinst, hrunFunc'.trans hrunFunc⟩
  obtain ⟨hlive, hinst, hrunFunc⟩ := hkeeps
  exact ⟨⟨hlive, hinst.trans h.inst, hrunFunc.trans h.runFunc, .inl hrunning'⟩, hrunning'⟩

/-- The step that signals the end. -/
lemma OnTheWay.ends {s s' : Session T} (hready : Ready env m₀)
    (h : OnTheWay env m₀ func inst s) (hrunning : Running env m₀ s.machine)
    (hstep : executeStep env s = .ok .end_ s') :
    OnTheWay env m₀ func inst s' ∧ executeOne env s.machine = .ok .break_ s'.machine := by
  obtain ⟨k, hk⟩ := hrunning
  obtain ⟨flow, hone, hflow⟩ := executeStep_executeOne (ready_of_steps hready hk) hstep
  rw [hflow.mp rfl] at hone
  obtain ⟨-, hlive, hinst, hrunFunc⟩ := executeStep_keeps hstep
  exact ⟨⟨hlive, hinst.trans h.inst, hrunFunc.trans h.runFunc,
    .inr (Running.ended ⟨k, hk⟩ hone)⟩, hone⟩

/-- The results at the end. -/
lemma OnTheWay.results {s s' : Session T} (hready : Ready env m₀) (hhosts : HostsKeepFuncs env)
    (hentity : m₀.store.funcs[func]? = some entity) (h : OnTheWay env m₀ func inst s)
    (hrunning : Running env m₀ s.machine) (hstep : executeStep env s = .ok .end_ s') :
    ∃ fuel,
      (∀ results, getFinishResult env s' = .ok results s' →
        ∃ cells, plainRun env (env.funcType entity.tyDedup).results.length fuel m₀ =
            .ok (some cells) s'.machine ∧
          results = List.zipWith Val.mk (env.funcType entity.tyDedup).results cells) ∧
      ∀ stop, getFinishResult env s' = .error stop s' →
        plainRun env (env.funcType entity.tyDedup).results.length fuel m₀ =
          .error stop s'.machine := by
  obtain ⟨hs', hone⟩ := h.ends hready hrunning hstep
  obtain ⟨fuel, hexecute⟩ := hrunning.ended hone
  obtain ⟨k, hk⟩ := hrunning
  have hfunc : s'.machine.store.funcs[func]? = some entity :=
    (kept_steps hhosts hk).trans (kept_executeOne hhosts hone) func entity hentity
  have hfinish := getFinishResult_eq env hs'.runFunc hfunc
  have hplain := plainRun_of_ok (env.funcType entity.tyDedup).results.length hexecute
  refine ⟨fuel, ?_, ?_⟩
  · intro results hresults
    rw [hfinish] at hresults
    rw [hplain]
    cases hcells : slice? s'.machine.stack.values.values 0
        (env.funcType entity.tyDedup).results.length with
    | none =>
      rw [hcells] at hresults
      cases hresults
    | some cells =>
      rw [hcells] at hresults
      cases hresults
      exact ⟨cells, rfl, rfl⟩
  · intro stop hresults
    rw [hfinish] at hresults
    rw [hplain]
    cases hcells : slice? s'.machine.stack.values.values 0
        (env.funcType entity.tyDedup).results.length with
    | none =>
      rw [hcells] at hresults
      cases hresults
      rfl
    | some cells =>
      rw [hcells] at hresults
      cases hresults

/-- A session on the way refines the plain run. -/
theorem OnTheWay.refines {s : Session T} (hready : Ready env m₀) (hhosts : HostsKeepFuncs env)
    (hentity : m₀.store.funcs[func]? = some entity)
    (hreads : ∀ m, Running env m₀ m → ReadsSlot env m) (h : OnTheWay env m₀ func inst s) :
    Refines env m₀ (env.funcType entity.tyDedup).results s := by
  have hperforms : Running env m₀ s.machine → ∀ fuel req,
      Performs env fuel s (Request.perform env fuel req s) := by
    rintro ⟨k, hk⟩ fuel req
    exact performs h.live (ready_of_steps hready hk) fuel req
  refine ⟨h.reached, ?_, ?_, ?_, ?_⟩
  · intro hrunning req fuel stop s' hperform
    have hcases := hperforms hrunning fuel req
    rw [hperform] at hcases
    cases hcases with
    | failed hsteps hstep =>
      obtain ⟨h₁, hrunning₁⟩ := h.goes hready hrunning hsteps
      obtain ⟨k, hk⟩ := hrunning₁
      have hmirrors := (mirrors_iff_readsSlot h₁.live h₁.inst (ready_of_steps hready hk)).mpr
        (hreads _ ⟨k, hk⟩)
      obtain ⟨fuel', hexecute⟩ := Running.stopped ⟨k, hk⟩ (hmirrors.executeOne_eq_error hstep)
      exact ⟨fuel', bind_error hexecute⟩
    | unfinished hsteps hstep hresults =>
      obtain ⟨h₁, hrunning₁⟩ := h.goes hready hrunning hsteps
      obtain ⟨fuel', -, hplain⟩ := h₁.results hready hhosts hentity hrunning₁ hstep
      exact ⟨fuel', hplain stop hresults⟩
  · intro hrunning req fuel results s' hperform
    have hcases := hperforms hrunning fuel req
    rw [hperform] at hcases
    cases hcases with
    | stopped hr => exact absurd rfl (hr results)
    | swallowed hr => simp at hr
    | finished hsteps hstep hresults =>
      obtain ⟨h₁, hrunning₁⟩ := h.goes hready hrunning hsteps
      obtain ⟨fuel', hplain, -⟩ := h₁.results hready hhosts hentity hrunning₁ hstep
      exact ⟨fuel', hplain results hresults⟩
  · intro hrunning req fuel r s' hperform
    have hcases := hperforms hrunning fuel req
    rw [hperform] at hcases
    obtain ⟨k, hk⟩ := hrunning
    have hready' := ready_of_steps hready hk
    cases hcases with
    | @stopped n _ _ hr hsteps => exact .inr ⟨n, continues_of_goes hready' hsteps⟩
    | swallowed hr hstep =>
      exact .inl (Running.ended ⟨k, hk⟩ (h.ends hready ⟨k, hk⟩ hstep).2)
    | finished hsteps hstep hresults =>
      obtain ⟨h₁, hrunning₁⟩ := h.goes hready ⟨k, hk⟩ hsteps
      exact .inl (hrunning₁.ended (h₁.ends hready hrunning₁ hstep).2)
  · intro hrunning req fuel s' hperform
    have hcases := hperforms hrunning fuel req
    rw [hperform] at hcases
    obtain ⟨k, hk⟩ := hrunning
    have hready' := ready_of_steps hready hk
    cases hcases with
    | @starved n _ hfuel hsteps => exact .inr ⟨n, hfuel, continues_of_goes hready' hsteps⟩
    | swallowed hr hstep =>
      exact .inl (Running.ended ⟨k, hk⟩ (h.ends hready ⟨k, hk⟩ hstep).2)

/-- The program is running, and the user edits the breakpoints or makes a request. -/
def Drives (env : Engine T) (s s' : Session T) : Prop :=
  s.machine.stack.calls.frames ≠ [] ∧ Served env s s'

lemma OnTheWay.drives {s s' : Session T} (hready : Ready env m₀)
    (h : OnTheWay env m₀ func inst s) (hdrives : Drives env s s') :
    OnTheWay env m₀ func inst s' := by
  obtain ⟨hframes, hserved⟩ := hdrives
  have hrunning : Running env m₀ s.machine := by
    rcases h.reached with hrunning | hended
    · exact hrunning
    · exact absurd hended.frames hframes
  cases hserved with
  | edited breakpoints isInterrupted heq =>
    subst heq
    exact ⟨h.live, h.inst, h.runFunc, h.reached⟩
  | requested req fuel hfuel r hperform =>
    have hcases : Performs env fuel s (req.perform env fuel s) :=
      performs h.live (.inl hframes) fuel req
    rw [hperform] at hcases
    cases hcases with
    | stopped hr hsteps => exact (h.goes hready hrunning hsteps).1
    | swallowed hr hstep => exact (h.ends hready hrunning hstep).1
    | finished hsteps hstep hresults =>
      obtain ⟨h₁, hrunning₁⟩ := h.goes hready hrunning hsteps
      exact (h₁.ends hready hrunning₁ hstep).1

end Requests

/-- A run of a function under the debugger: whatever requests are made until no frame is left, and
whatever breakpoints are set, the session refines the plain loop on the machine the run starts
from, if no callback reads an empty slot on the way. -/
theorem requests_refine_execute {s₀ s s' : Session T} {func n : Nat} {entity : FuncEntity}
    {params : List Val} (hhosts : HostsKeepFuncs env)
    (hentity : s₀.machine.store.funcs[func]? = some entity) (hrunFunc : s₀.runFunc = some func)
    (hstart : executeFunc env func params s₀ = .ok () s)
    (hreads : ∀ m, Running env s.machine m → ReadsSlot env m)
    (hdrives : Steps (Drives env) n s s') :
    Refines env s.machine (env.funcType entity.tyDedup).results s' := by
  obtain ⟨wasmFunc, inst, m, hfunc, hinst, -, hprepare, rfl⟩ := executeFunc_eq_ok.mp hstart
  have hframes : m.stack.calls.frames ≠ [] := by
    intro hnil
    have hskeleton := congrArg Prod.fst (prepareFunc_skeleton hprepare).1
    rw [skeleton, funcs, CallStack.funcs_eq_nil.mpr hnil] at hskeleton
    cases hskeleton
  have hstore : m.store = s₀.machine.store := by
    obtain ⟨_, _, _, _, _, _, _, _, -, -, -, -, -, -, -, rfl⟩ := prepareFunc_eq_ok.mp hprepare
    rfl
  have hway : OnTheWay env m func inst s' := by
    refine hdrives.invariant (I := OnTheWay env m func inst)
      (fun _ _ hstep h => h.drives (.inl hframes) hstep) ?_
    exact ⟨rfl, hinst, hrunFunc, .inl ⟨0, .refl m⟩⟩
  exact hway.refines (.inl hframes) hhosts (by rwa [hstore]) hreads

/-! ## Concrete runs -/

/-- A function that calls the function at the index it gets, and one that returns at once. -/
def indirectEngine : Engine Unit :=
  Engine.ofCode
    [⟨[⟨1, .callIndirect0 ⟨1⟩ 1⟩, ⟨1, .callIndirectParams 0 0⟩, ⟨2, .return_⟩], [], 1⟩,
      ⟨[⟨4, .return_⟩], [], 0⟩]
    [⟨[.i32], []⟩, ⟨[], []⟩]

/-- Both functions in a store with a table. -/
def tableStore (elements : List UntypedVal) : Store Unit :=
  { Store.ofFuncs [.wasm ⟨0, 0, 0⟩, .wasm ⟨1, 1, 0⟩] with
    tables := [⟨.funcRef, none, elements⟩]
    instances := [⟨[0, 1], [0, 1], [0], [], [], [], []⟩] }

/-- The debugger at the first instruction of a call of the first function. -/
def indirectSession (index : Nat) (elements : List UntypedVal) : Session Unit :=
  finalState (runStep indirectEngine (some "0") [⟨.i32, BitVec.ofNat 64 index⟩]
    (launched (Launch.ofStore (tableStore elements))))

/-- The table of a program whose indirect calls have low indices. -/
def lowElements : List UntypedVal := [FuncRef.toUntyped 1]

/-- The machine after an iteration of the plain loop. -/
def nextMachine (m : Machine Unit) : Machine Unit := finalState (executeOne indirectEngine m)

/-- The machines of a run that calls the function in the first slot. -/
lemma running_lowIndex {m : Machine Unit}
    (h : Running indirectEngine (indirectSession 0 lowElements).machine m) :
    m ∈ [(indirectSession 0 lowElements).machine,
      nextMachine (indirectSession 0 lowElements).machine,
      nextMachine (nextMachine (indirectSession 0 lowElements).machine)] := by
  have hcall : executeOne indirectEngine (indirectSession 0 lowElements).machine =
      .ok .continue_ (nextMachine (indirectSession 0 lowElements).machine) :=
    eq_ok_of_returned rfl
  have hreturn : executeOne indirectEngine (nextMachine (indirectSession 0 lowElements).machine) =
      .ok .continue_ (nextMachine (nextMachine (indirectSession 0 lowElements).machine)) :=
    eq_ok_of_returned rfl
  have hend : returned (executeOne indirectEngine
      (nextMachine (nextMachine (indirectSession 0 lowElements).machine))) = some .break_ := rfl
  obtain ⟨n, hsteps⟩ := h
  refine hsteps.invariant (I := (· ∈ [(indirectSession 0 lowElements).machine,
      nextMachine (indirectSession 0 lowElements).machine,
      nextMachine (nextMachine (indirectSession 0 lowElements).machine)])) ?_ (by simp)
  intro a b hstep ha
  rw [Continues] at hstep
  simp only [List.mem_cons, List.not_mem_nil, or_false] at ha ⊢
  rcases ha with rfl | rfl | rfl
  · rw [hcall] at hstep
    cases hstep
    exact .inr (.inl rfl)
  · rw [hreturn] at hstep
    cases hstep
    exact .inr (.inr rfl)
  · rw [hstep] at hend
    cases hend

lemma readsSlot_lowIndex {m : Machine Unit}
    (h : Running indirectEngine (indirectSession 0 lowElements).machine m) :
    ReadsSlot indirectEngine m := by
  intro instr site results target index table m' hinstr hsite hnested hresolved hone
  have hm := running_lowIndex h
  simp only [List.mem_cons, List.not_mem_nil, or_false] at hm
  rcases hm with rfl | rfl | rfl
  · cases hinstr
    cases hsite
    have hresolved' : resolved indirectEngine ⟨some ⟨1⟩, false, .indirect 1 false⟩
        (indirectSession 0 lowElements).machine =
        some (⟨1⟩, .compiled 1 (some 0), some (0, 0)) := rfl
    rw [hresolved'] at hresolved
    cases hresolved
    rfl
  · cases hinstr
    cases hsite
  · cases hinstr
    cases hsite

/-- The debugger before that run. -/
def lowStart : Session Unit :=
  { launched (Launch.ofStore (tableStore lowElements)) with runFunc := some 0 }

theorem requests_refine_execute_lowIndex :
    Refines indirectEngine (indirectSession 0 lowElements).machine []
      (finalState (Request.perform indirectEngine 3 .process (indirectSession 0 lowElements))) :=
  @requests_refine_execute _ indirectEngine lowStart _ _ 0 _ (.wasm ⟨0, 0, 0⟩)
    [⟨.i32, BitVec.ofNat 64 0⟩] (fun _ _ _ _ _ _ h => h) rfl rfl (eq_ok_of_returned rfl)
    (fun _ hm => readsSlot_lowIndex hm)
    (.one ⟨by decide, .requested .process 3 (by decide) (.finish []) (eq_ok_of_returned rfl)⟩)

/-- The machine in the second function, called from the first one. -/
def calledMachine (index : Nat) (elements : List UntypedVal) : Machine Unit :=
  finalState (executeCallee indirectEngine ⟨.nested, false⟩ ⟨1⟩ (.compiled 1 (some 0))
    { (indirectSession index elements).machine with ip := ⟨0, 1⟩ })

section HighIndex

variable {elements : List UntypedVal}

lemma resolveSite_indirectSession (hlast : elements[2 ^ 31]? = some (FuncRef.toUntyped 1)) :
    resolveSite indirectEngine ⟨some ⟨1⟩, false, .indirect 1 false⟩
        (indirectSession (2 ^ 31) elements).machine =
      .ok (⟨1⟩, .compiled 1 (some 0), some (2 ^ 31, 0))
        { (indirectSession (2 ^ 31) elements).machine with ip := ⟨0, 1⟩ } := by
  have hpull : stepLocal (pullParams false indirectEngine)
      (indirectSession (2 ^ 31) elements).machine =
      .ok (2 ^ 31, 0) { (indirectSession (2 ^ 31) elements).machine with ip := ⟨0, 1⟩ } :=
    stepLocal_of_ip rfl
  have hfunc : stepLocal (resolveIndirect 1 (2 ^ 31) 0)
      { (indirectSession (2 ^ 31) elements).machine with ip := ⟨0, 1⟩ } =
      .ok 1 { (indirectSession (2 ^ 31) elements).machine with ip := ⟨0, 1⟩ } := by
    refine (stepLocal_eq_ok_of_readOnly (readOnly_resolveIndirect _ _ _)).mpr ⟨?_, rfl⟩
    have htable : (resolve (·.tables) 0 : LocalM Unit TableEntity)
        { (indirectSession (2 ^ 31) elements).machine with ip := ⟨0, 1⟩ }.toLocal =
        .ok ⟨.funcRef, none, elements⟩
          { (indirectSession (2 ^ 31) elements).machine with ip := ⟨0, 1⟩ }.toLocal := rfl
    rw [resolveIndirect, bind_ok (show getTable 0 _ = .ok 0 _ from rfl), bind_ok htable]
    simp only [hlast]
    rfl
  simp only [resolveSite]
  rw [bind_ok hpull]
  dsimp only
  rw [bind_ok (show resultRegs _ _ = .ok _ _ from rfl), bind_ok hfunc]
  rfl

lemma executeOp_indirectSession (hlast : elements[2 ^ 31]? = some (FuncRef.toUntyped 1)) :
    executeOp indirectEngine (.callIndirect0 ⟨1⟩ 1) (indirectSession (2 ^ 31) elements).machine =
      .ok .continue_ (calledMachine (2 ^ 31) elements) := by
  rw [executeOp_callSite rfl]
  exact bind_ok (executeSite_eq_ok.mpr
    ⟨_, _, _, resolveSite_indirectSession hlast, eq_ok_of_returned rfl⟩)

lemma execute_indirectSession (hlast : elements[2 ^ 31]? = some (FuncRef.toUntyped 1)) :
    ∃ m, execute indirectEngine 3 (indirectSession (2 ^ 31) elements).machine =
      .ok (some ()) m := by
  have hone : executeOne indirectEngine (indirectSession (2 ^ 31) elements).machine =
      .ok .continue_ (calledMachine (2 ^ 31) elements) :=
    executeOne_eq_ok.mpr ⟨⟨1, .callIndirect0 ⟨1⟩ 1⟩, rfl, executeOp_indirectSession hlast⟩
  exact ⟨_, (bind_ok hone).trans (eq_ok_of_returned rfl)⟩

/-- The callback reads the first slot, since the index does not fit in an `i32`. -/
lemma process_indirectSession (hlast : elements[2 ^ 31]? = some (FuncRef.toUntyped 1))
    (hfirst : elements[0]? = some 0) :
    ∃ stop s', Request.perform indirectEngine 1 .process (indirectSession (2 ^ 31) elements) =
      .error stop s' := by
  have hrequire : requireExecutor (indirectSession (2 ^ 31) elements) =
      .ok () (indirectSession (2 ^ 31) elements) := rfl
  cases hstep : executeStep indirectEngine (indirectSession (2 ^ 31) elements) with
  | error stop s' =>
    refine ⟨stop, s', ?_⟩
    rw [Request.perform, process, bind_ok hrequire, stepWhile, get_bind, if_pos rfl]
    exact bind_error hstep
  | ok sig s' =>
    obtain ⟨-, instr, inst, report, m, idx, hinstr, -, hexec, hidx, -⟩ := executeStep_eq_ok.mp hstep
    cases hinstr
    obtain ⟨flow, hop, rfl⟩ := (executeInstr_eq_ok (fun h => by cases h)).mp hexec
    rw [executeOp_indirectSession hlast] at hop
    cases hop
    have hresolved : resolved indirectEngine ⟨some ⟨1⟩, false, .indirect 1 false⟩
        (indirectSession (2 ^ 31) elements).machine =
        some (⟨1⟩, .compiled 1 (some 0), some (2 ^ 31, 0)) := by
      rw [resolved, resolveSite_indirectSession hlast]
    have hslot : slotRead (indirectSession (2 ^ 31) elements).machine
        (calledMachine (2 ^ 31) elements) (.compiled 1 (some 0)) 0 (2 ^ 31) = none := by
      show (elements[0]?).bind FuncRef.func = none
      rw [hfirst]
      rfl
    have hnone := (reportedIdx_reportOf inst.importFuncLen (executeOp_indirectSession hlast)).mpr
      ⟨_, _, _, _, _, rfl, rfl, hresolved, rfl, hslot⟩
    rw [hnone] at hidx
    cases hidx

end HighIndex

/-- A table with one function, behind `n` empty slots. -/
def lastSlot (n : Nat) : List UntypedVal := List.replicate n 0 ++ [FuncRef.toUntyped 1]

lemma lastSlot_last (n : Nat) : (lastSlot n)[n]? = some (FuncRef.toUntyped 1) := by
  simp [lastSlot]

lemma lastSlot_first {n : Nat} (h : 0 < n) : (lastSlot n)[0]? = some 0 := by
  obtain ⟨n, rfl⟩ := Nat.exists_eq_succ_of_ne_zero (Nat.pos_iff_ne_zero.mp h)
  simp [lastSlot, List.replicate_succ]

/-- The plain loop calls the function in the slot `2 ^ 31` of a table; the debugger stops there. -/
theorem highIndex_stops_request : ∃ elements stop m s',
    execute indirectEngine 3 (indirectSession (2 ^ 31) elements).machine = .ok (some ()) m ∧
      Request.perform indirectEngine 1 .process (indirectSession (2 ^ 31) elements) =
        .error stop s' := by
  obtain ⟨m, hplain⟩ := execute_indirectSession (lastSlot_last (2 ^ 31))
  obtain ⟨stop, s', hstep⟩ :=
    process_indirectSession (lastSlot_last (2 ^ 31)) (lastSlot_first (Nat.two_pow_pos 31))
  exact ⟨_, stop, m, s', hplain, hstep⟩

end Debugger

end MotokoDebugger
