import MotokoDebugger.Executor.GrowthProtocol
import MotokoDebugger.Executor.LazyRuns
import MotokoDebugger.Executor.Sizes

/-!
# Runs with more fuel

* `FuelBlindHosts`: the host functions neither read nor set the fuel.
* `StarvesTable`: nothing but fuel is missing for the growth of a table, which the program sees.
* `commutesAt_executeOp`: from more fuel an iteration does the same, unless it runs out of fuel or
  starves the growth of a table.
* `fuel_keeps_meaning`: so does a run of which no iteration starves the growth of a table.
-/

namespace MotokoDebugger

open StateExcept Runs

variable {T : Type} {α β : Type}

def Machine.addFuel (d : Nat) (m : Machine T) : Machine T := { m with store := m.store.addFuel d }

/-! ## Growth -/

def Growing.addFuel {E : Type} (d : Nat) (s : Growing E T) : Growing E T :=
  { s with fuel := s.fuel.add d }

@[simp] lemma Growing.addFuel_entity {E : Type} (d : Nat) (s : Growing E T) :
    (s.addFuel d).entity = s.entity := rfl

/-- More fuel affords what less affords. -/
lemma Fuel.Affords.add {fuel : Fuel} {f : FuelCosts → Nat} (h : fuel.Affords f) (d : Nat) :
    (fuel.add d).Affords f := by
  intro henabled
  have hle : f fuel.costs ≤ fuel.remaining := h henabled
  exact Nat.le_add_right_of_le hle

/-- A payment that the fuel affords leaves the surplus. -/
lemma consumeFuel_add {fuel : Fuel} {f : FuelCosts → Nat} (h : fuel.Affords f) (d : Nat) :
    (fuel.add d).consumeFuel f = (fuel.consumeFuel f).map (Fuel.add d) := by
  cases henabled : fuel.enabled with
  | false => simp [Fuel.consumeFuel, Fuel.add, henabled, Except.map]
  | true =>
    have hle : f fuel.costs ≤ fuel.remaining := h henabled
    have hle' : f fuel.costs ≤ fuel.remaining + d := by omega
    have hleft : fuel.remaining + d - f fuel.costs = fuel.remaining - f fuel.costs + d := by omega
    simp [Fuel.consumeFuel, Fuel.consumeFuelUnchecked, Fuel.add, henabled, hle, hle', hleft,
      Except.map]

lemma consumeFuelIf_add {fuel : Fuel} {f : FuelCosts → Nat} (h : fuel.Affords f) (d : Nat) :
    (fuel.add d).consumeFuelIf f = (fuel.consumeFuelIf f).map (Fuel.add d) := by
  rw [Fuel.consumeFuelIf, Fuel.consumeFuelIf, consumeFuel_add h]
  obtain ⟨fuel', hpaid⟩ | hdisabled := Fuel.consumeFuel_of_affords h
  · rw [hpaid]
    rfl
  · rw [hdisabled]
    rfl

section Growth

variable {E : Type} {F : EntityGrowError → Prop}

lemma commutes_askLimiter (limiter : Option (ResourceLimiter T))
    (ask : ResourceLimiter T → T → Except Unit Bool × T) (d : Nat) :
    CommutesUpTo F (Growing.addFuel d) (askLimiter limiter ask : GrowM E T Unit) := by
  cases limiter with
  | none => exact CommutesUpTo.pure _
  | some limiter =>
    refine CommutesUpTo.get_bind (fun s => ?_) fun _ => rfl
    refine CommutesUpTo.bind (CommutesUpTo.modify fun _ => rfl) fun _ => ?_
    split
    · exact CommutesUpTo.pure _
    · exact CommutesUpTo.throw _
    · exact CommutesUpTo.throw _

lemma commutes_notifyLimiter (limiter : Option (ResourceLimiter T))
    (notify : ResourceLimiter T → T → T) (error : EntityGrowError) (d : Nat) :
    CommutesUpTo F (Growing.addFuel d) (notifyLimiter limiter notify error : GrowM E T α) := by
  cases limiter with
  | none => exact CommutesUpTo.throw _
  | some limiter =>
    exact CommutesUpTo.bind (CommutesUpTo.modify fun _ => rfl) fun _ => CommutesUpTo.throw _

/-- From more fuel a memory grows alike, unless it runs out of fuel. -/
lemma commutes_growMemory (limiter : Option (ResourceLimiter T)) (additional d : Nat) :
    CommutesUpTo (· = .trapCode .outOfFuel) (Growing.addFuel d)
      (MemoryEntity.grow limiter additional) := by
  refine CommutesUpTo.get_bind (fun s => ?_) fun _ => rfl
  dsimp only
  split
  · exact CommutesUpTo.pure _
  split
  · exact CommutesUpTo.throw _
  refine (commutes_askLimiter _ _ d).bind fun _ => ?_
  split
  · exact commutes_notifyLimiter _ _ _ d
  split
  · exact commutes_notifyLimiter _ _ _ d
  intro s'
  simp only [StateExcept.get_bind]
  by_cases hfuel : s'.fuel.Affords (·.fuelForBytes (additional * bytesPerPage))
  · have hadd := consumeFuelIf_add hfuel d
    obtain ⟨fuel, hpaid⟩ := Fuel.consumeFuelIf_of_affords hfuel
    rw [hpaid] at hadd
    rename_i newPages _ _
    simp only [Growing.addFuel, hadd, hpaid, Except.map, modify_bind]
    cases s.entity.growBytes (newPages * bytesPerPage) with
    | none => exact .inr rfl
    | some bytes => exact .inr rfl
  · left
    have hstarved := Fuel.consumeFuelIf_of_not_affords hfuel
    simp only [hstarved]
    exact ⟨_, _, notifyLimiter_apply _ _, rfl⟩

/-- From more fuel a table grows alike, unless nothing but fuel is missing. -/
lemma commutes_growTable (limiter : Option (ResourceLimiter T)) {delta : Nat} (init : UntypedVal)
    {s : Growing TableEntity T} (h : ¬TableStarved limiter delta s) (d : Nat) :
    CommutesAt (· = .trapCode .outOfFuel) (Growing.addFuel d)
      (TableEntity.growUntyped limiter delta init) s := by
  unfold TableEntity.growUntyped
  refine CommutesAt.get_bind ?_ rfl
  dsimp only
  refine CommutesAt.bind (commutes_askLimiter limiter (s.entity.askGrowing delta) d s) ?_
  intro _ s' hask
  obtain ⟨data, hanswer, rfl⟩ : ∃ data,
      limiterAnswer limiter (s.entity.askGrowing delta) s.data = (.ok (), data) ∧
        { s with data } = s' := by
    obtain ⟨⟨error | _, data⟩, hanswer⟩ :
        ∃ answer, limiterAnswer limiter (s.entity.askGrowing delta) s.data = answer := ⟨_, rfl⟩
    · cases (askLimiter_error hanswer).symm.trans hask
    · cases (askLimiter_ok hanswer).symm.trans hask
      exact ⟨data, hanswer, rfl⟩
  by_cases hadd : s.entity.size + delta ≤ u32Max
  · simp only [if_pos hadd]
    split
    · exact commutes_notifyLimiter _ _ _ d _
    rename_i hmax
    have hlimit : s.entity.size + delta ≤ s.entity.limit := by
      rw [TableEntity.limit]
      omega
    have hfuel : s.fuel.Affords (elementsCosts delta) := by
      by_contra hfuel
      exact h ⟨congrArg Prod.fst hanswer, hlimit, hfuel⟩
    have hmore := consumeFuel_add hfuel d
    unfold elementsCosts at hfuel hmore
    simp only [CommutesAt, StateExcept.get_bind, Growing.addFuel, hmore]
    obtain ⟨fuel, hpaid⟩ | hdisabled := Fuel.consumeFuel_of_affords hfuel
    · simp only [hpaid]
      exact .inr rfl
    · simp only [hdisabled]
      exact .inr rfl
  · simp only [if_neg hadd]
    exact commutes_notifyLimiter _ _ _ d _

/-- The condition is exact: with enough fuel a table grows for which only fuel was missing. -/
theorem commutes_growTable_iff (limiter : Option (ResourceLimiter T)) (delta : Nat)
    (init : UntypedVal) (s : Growing TableEntity T) :
    (∀ d, CommutesAt (· = .trapCode .outOfFuel) (Growing.addFuel d)
      (TableEntity.growUntyped limiter delta init) s) ↔ ¬TableStarved limiter delta s := by
  refine ⟨fun hcommutes hstarved => ?_, fun h d => commutes_growTable limiter init h d⟩
  have hfails : ∃ s', TableEntity.growUntyped limiter delta init s = .error .invalidGrow s' := by
    have hgrowth := tableGrowth limiter delta init s
    generalize TableEntity.growUntyped limiter delta init s = r at hgrowth
    cases hgrowth with
    | refused hanswer =>
      have hrefused := hstarved.limiter.symm.trans (congrArg Prod.fst hanswer)
      cases hrefused
    | overLimit _ hlimit => exact absurd hstarved.limit (by omega)
    | outOfFuel => exact ⟨_, rfl⟩
    | grown _ _ hfuel => exact absurd hfuel hstarved.fuel
  have hgrows : ∃ s', TableEntity.growUntyped limiter delta init
      (s.addFuel (elementsCosts delta s.fuel.costs)) = .ok s.entity.size s' := by
    have hfuel : (s.addFuel (elementsCosts delta s.fuel.costs)).fuel.Affords
        (elementsCosts delta) := fun _ => Nat.le_add_left _ _
    have hgrowth := tableGrowth limiter delta init (s.addFuel (elementsCosts delta s.fuel.costs))
    generalize TableEntity.growUntyped limiter delta init
      (s.addFuel (elementsCosts delta s.fuel.costs)) = r at hgrowth
    cases hgrowth with
    | refused hanswer =>
      have hrefused := hstarved.limiter.symm.trans (congrArg Prod.fst hanswer)
      cases hrefused
    | overLimit _ hlimit =>
      have hle : s.entity.size + delta ≤ s.entity.limit := hstarved.limit
      have hlt : s.entity.limit < s.entity.size + delta := hlimit
      omega
    | outOfFuel _ _ hstarved' => exact absurd hfuel hstarved'
    | grown => exact ⟨_, rfl⟩
  obtain ⟨s₁, hfails⟩ := hfails
  obtain ⟨s₂, hgrows⟩ := hgrows
  rcases hcommutes (elementsCosts delta s.fuel.costs) with ⟨e, s', herror, he⟩ | hsame
  · rw [hfails] at herror
    cases herror
    cases he
  · rw [hfails, hgrows] at hsame
    cases hsame

end Growth

namespace Executor

section Local

variable {env : Engine T}

/-- A growth of an entity, from a state in which more fuel changes nothing. -/
lemma commutesAt_growOp {E : Type} {entity : E} {grow : GrowM E T Nat} {put : E → LocalM T Unit}
    {onSuccess : LocalM T Unit} (hput : ∀ entity, FuelBlind (put entity))
    (hsuccess : FuelBlind onSuccess) {l : Local T} {d : Nat}
    (hgrow : CommutesAt (· = .trapCode .outOfFuel) (Growing.addFuel d) grow
      ⟨entity, l.store.fuel, l.store.data⟩) :
    CommutesAt Stop.IsOutOfFuel (Local.addFuel d) (growOp entity grow put onSuccess) l := by
  have hstart : (⟨entity, (l.addFuel d).store.fuel, (l.addFuel d).store.data⟩ : Growing E T) =
      Growing.addFuel d ⟨entity, l.store.fuel, l.store.data⟩ := rfl
  simp only [CommutesAt, growOp, StateExcept.get_bind, hstart]
  rcases hgrow with ⟨error, s', hstop, rfl⟩ | hmove
  · left
    simp only [hstop]
    exact ⟨_, _, rfl, rfl⟩
  rw [hmove]
  cases grow ⟨entity, l.store.fuel, l.store.data⟩ with
  | ok value s' =>
    simp only [mapState_ok, Growing.addFuel_entity]
    have hrest : CommutesUpTo Stop.IsOutOfFuel (Local.addFuel d) (do
        onSuccess
        return BitVec.ofNat 32 value : LocalM T (BitVec 32)) :=
      (hsuccess d).bind fun _ => CommutesUpTo.pure _
    rcases hput s'.entity d l with ⟨e, l', hstop, he⟩ | hput
    · exact .inl ⟨e, l', bind_error hstop, he⟩
    cases h : put s'.entity l with
    | error e l' =>
      rw [h] at hput
      rw [bind_error h]
      exact .inr (bind_error hput)
    | ok _ l' =>
      rw [h] at hput
      rw [bind_ok h, bind_ok hput]
      exact hrest { l' with store := { l'.store with fuel := s'.fuel, data := s'.data } }
  | error error s' =>
    right
    cases error <;> rfl

/-- What a `table.grow` asks for: the number of elements, and the table. -/
def askedGrowth (env : Engine T) (delta : Operand) : LocalM T (Nat × TableEntity) := do
  let delta ← operand delta
  let tableIndex ← fetchTableIndex env 1
  let table ← getTable tableIndex
  return (delta, ← resolve (·.tables) table)

lemma commutesAt_executeTableGrow {result value : Reg} {delta : Operand} {l : Local T}
    (h : ∀ n table, askedGrowth env delta l = .ok (n, table) l →
      ¬TableStarved env.limiter n ⟨table, l.store.fuel, l.store.data⟩) (d : Nat) :
    CommutesAt Stop.IsOutOfFuel (Local.addFuel d) (executeTableGrow env result delta value) l := by
  refine CommutesAt.after (readOnly_operand _) ((tame_operand _).fuel d) fun n hn => ?_
  refine CommutesAt.after (readOnly_fetchTableIndex 1) ((tame_fetchTableIndex 1).fuel d) ?_
  intro tableIndex hindex
  split
  · exact ((tame_executeTableSizeImpl _ _).bind fun _ => tame_nextInstrAt 2).fuel d l
  refine CommutesAt.after (readOnly_getEntity _ _) ((tame_getEntity _ _).fuel d) ?_
  intro table htable
  refine CommutesAt.after (readOnly_getRegister _) ((tame_getRegister _).fuel d) fun init _ => ?_
  refine CommutesAt.after (readOnly_resolve _ _) ((tame_resolve _ _).fuel d) ?_
  intro entity hentity
  have hasked : askedGrowth env delta l = .ok (n, entity) l := by
    rw [askedGrowth, bind_ok hn, bind_ok hindex, bind_ok htable, bind_ok hentity]
    rfl
  have hgrow := commutes_growTable env.limiter init (h n entity hasked) d
  refine CommutesAt.bind ?_ fun returned l' _ => (tame_result _ _ 2).fuel d l'
  exact commutesAt_growOp (fun _ => (tame_setTable _ _).fuel) (Tame.pure _).fuel hgrow

lemma fuelBlind_updateMemory : FuelBlind (updateMemory : LocalM T Unit) := by
  intro d
  refine CommutesUpTo.get_bind (fun l => ?_) fun _ => rfl
  refine ((Tame.assume _).fuel d).bind fun entity => ((Tame.unwrap _).fuel d).bind fun memory => ?_
  exact CommutesUpTo.modify fun _ => rfl

lemma commutesAt_executeMemoryGrow (result : Reg) (delta : DeltaOperand) (d : Nat) (l : Local T) :
    CommutesAt Stop.IsOutOfFuel (Local.addFuel d) (executeMemoryGrow env result delta) l := by
  refine CommutesAt.after (readOnly_deltaOperand _) ((tame_deltaOperand _).fuel d) fun n _ => ?_
  refine CommutesAt.after (readOnly_fetchMemoryIndex 1) ((tame_fetchMemoryIndex 1).fuel d) ?_
  intro memory _
  split
  · exact ((tame_executeMemorySizeImpl _ _).bind fun _ => tame_nextInstrAt 2).fuel d l
  refine CommutesAt.after (readOnly_getEntity _ _) ((tame_getEntity _ _).fuel d) fun handle _ => ?_
  refine CommutesAt.after (readOnly_resolve _ _) ((tame_resolve _ _).fuel d) fun entity _ => ?_
  have hgrow := (commutes_growMemory env.limiter n d).at ⟨entity, l.store.fuel, l.store.data⟩
  refine CommutesAt.bind ?_ fun returned l' _ => (tame_result _ _ 2).fuel d l'
  exact commutesAt_growOp (fun _ => fuelBlind_setMemory _ _) fuelBlind_updateMemory hgrow

end Local

/-! ## The whole machine -/

/-- More fuel changes nothing, unless the step runs out of fuel. -/
abbrev Blind (x : ExecM T α) : Prop := ∀ d, CommutesUpTo Stop.IsOutOfFuel (Machine.addFuel d) x

namespace Blind

variable {x : ExecM T α}

lemma pure (a : α) : Blind (pure a : ExecM T α) := fun _ => CommutesUpTo.pure a

lemma throw (stop : Stop) : Blind (throw stop : ExecM T α) := fun _ => CommutesUpTo.throw stop

lemma bind {f : α → ExecM T β} (hx : Blind x) (hf : ∀ a, Blind (f a)) : Blind (x >>= f) :=
  fun d => (hx d).bind fun a => hf a d

lemma get_bind {f : Machine T → ExecM T β} (hread : ∀ d m, f (m.addFuel d) = f m)
    (hf : ∀ m, Blind (f m)) : Blind (get >>= f) :=
  fun d => CommutesUpTo.get_bind (fun m => hf m d) (hread d)

lemma modify {f : Machine T → Machine T} (h : ∀ d m, f (m.addFuel d) = (f m).addFuel d) :
    Blind (modify f : ExecM T Unit) := fun d => CommutesUpTo.modify (h d)

lemma unwrap (a : Option α) : Blind (unwrap a : ExecM T α) := by
  cases a with
  | none => exact throw _
  | some a => exact pure a

lemma assume (a : Option α) : Blind (assume a : ExecM T α) := by
  cases a with
  | none => exact throw _
  | some a => exact pure a

lemma liftTrap (a : Except TrapCode α) : Blind (liftTrap a : ExecM T α) := by
  cases a with
  | error code => exact throw _
  | ok a => exact pure a

/-- A step on the local state. -/
lemma step {y : LocalM T α} (hy : FuelBlind y) : Blind (stepLocal y) :=
  fun d => (hy d).zoom (fun _ => rfl) fun _ _ => rfl

lemma tame {y : LocalM T α} (hy : Tame y) : Blind (stepLocal y) := step hy.fuel

end Blind

section Machine

variable {env : Engine T}

/-! ## Calls of compiled functions -/

lemma blind_modifyCalls (f : CallStack → CallStack) : Blind (modifyCalls f : ExecM T Unit) :=
  Blind.modify fun _ _ => rfl

lemma blind_setValues (values : ValueStack) : Blind (setValues values : ExecM T Unit) :=
  Blind.modify fun _ _ => rfl

lemma blind_updateCache (inst : Nat) : Blind (updateCache inst : ExecM T Unit) :=
  Blind.get_bind (fun _ _ => rfl) fun _ => (Blind.unwrap _).bind fun _ =>
    Blind.modify fun _ _ => rfl

lemma blind_initCallFrame (frame : CallFrame) : Blind (initCallFrame frame : ExecM T Unit) :=
  Blind.modify fun _ _ => rfl

lemma blind_updateInstrPtrAt (offset : Nat) : Blind (updateInstrPtrAt offset : ExecM T Unit) := by
  refine (Blind.modify fun _ _ => rfl).bind fun _ => Blind.get_bind (fun _ _ => rfl) fun _ => ?_
  refine (Blind.unwrap _).bind fun _ => Blind.get_bind (fun _ _ => rfl) fun _ => ?_
  exact blind_modifyCalls _

lemma tame_copyCallParams : Tame (copyCallParams env) := by
  refine tame_nextInstr.bind fun _ => Tame.get_bind (fun _ _ => rfl) fun _ => ?_
  refine (tame_registerListAt _).bind fun regs => (tame_setIp _).bind fun _ => ?_
  exact tame_getRegisters _

lemma blind_dispatchCompiledFunc (c : CallContext) (results : RegSpan) (func : EngineFunc) :
    Blind (dispatchCompiledFunc env c results func) := by
  refine Blind.get_bind (fun _ _ => rfl) fun m => (Blind.unwrap _).bind fun _ => ?_
  refine Blind.get_bind (fun _ _ => rfl) fun m => (Blind.liftTrap _).bind fun called => ?_
  refine (blind_setValues _).bind fun _ => ?_
  split
  · refine (Blind.tame tame_copyCallParams).bind fun params => ?_
    refine Blind.get_bind (fun _ _ => rfl) fun m => (Blind.assume _).bind fun values => ?_
    exact (blind_setValues _).bind fun _ => Blind.pure _
  · exact Blind.pure _

lemma blind_pushFrame (called : CallFrame) (inst : Option Nat) :
    Blind (pushFrame called inst : ExecM T Unit) :=
  Blind.get_bind (fun _ _ => rfl) fun _ => (Blind.liftTrap _).bind fun _ => blind_modifyCalls _

lemma blind_prepareCompiledFuncCall (c : CallContext) (results : RegSpan) (func : EngineFunc)
    (inst : Option Nat) : Blind (prepareCompiledFuncCall env c results func inst) := by
  refine (blind_dispatchCompiledFunc _ _ _).bind fun called => ?_
  split
  · refine (blind_updateInstrPtrAt _).bind fun _ => (blind_initCallFrame _).bind fun _ => ?_
    exact blind_pushFrame _ _
  · refine Blind.bind ?_ fun merged => (blind_initCallFrame _).bind fun _ => blind_pushFrame _ _
    refine Blind.get_bind (fun _ _ => rfl) fun m => (Blind.unwrap _).bind fun merged => ?_
    exact (Blind.modify fun _ _ => rfl).bind fun _ => Blind.pure _

/-! ## Host functions -/

/-- The host functions neither read nor set the fuel. -/
def FuelBlindHosts (env : Engine T) : Prop :=
  ∀ trampoline inst params store d, env.hostCall trampoline inst params (store.addFuel d) =
    Prod.map id (Store.addFuel d) (env.hostCall trampoline inst params store)

lemma blind_invokeCallHook (callType : CallHook) : Blind (invokeCallHook env callType) := by
  unfold invokeCallHook
  split
  · exact Blind.pure _
  · refine Blind.get_bind (fun _ _ => rfl) fun m => (Blind.modify fun _ _ => rfl).bind fun _ => ?_
    split
    · exact Blind.pure _
    · exact Blind.throw _

/-- A host function that fails does so alike, whatever its error. -/
lemma commutes_dispatchHostFunc (hhosts : FuelBlindHosts env) (hostFunc : HostFuncEntity)
    (inst : Option Nat) (d : Nat) :
    CommutesUpTo (fun _ => False) (Machine.addFuel d) (dispatchHostFunc env hostFunc inst) := by
  intro m
  right
  have hcall := hhosts hostFunc.func inst
    ((m.stack.values.top (max hostFunc.lenParams hostFunc.lenResults)).take hostFunc.lenParams)
    m.store d
  unfold dispatchHostFunc
  rw [StateExcept.get_bind, StateExcept.get_bind]
  rw [show (m.addFuel d).store = m.store.addFuel d from rfl,
    show (m.addFuel d).stack = m.stack from rfl, hcall]
  generalize env.hostCall hostFunc.func inst
    ((m.stack.values.top (max hostFunc.lenParams hostFunc.lenResults)).take hostFunc.lenParams)
    m.store = called
  obtain ⟨result, store⟩ := called
  cases result with
  | ok results => rfl
  | error error => rfl

/-- An error that becomes a resumable one is none of lacking fuel. -/
lemma blind_resumable (func : Nat) (results : RegSpan) {x : ExecM T Unit}
    (hx : ∀ d, CommutesUpTo (fun _ => False) (Machine.addFuel d) x) :
    Blind (resumable func results x) := by
  intro d m
  rcases hx d m with ⟨_, _, _, hfalse⟩ | hmove
  · exact hfalse.elim
  right
  rw [resumable, resumable, hmove]
  cases x m with
  | ok a m' => rfl
  | error stop m' =>
    cases stop with
    | panic => rfl
    | undefined => rfl
    | fault error =>
      show (if m'.stack.calls.frames.isEmpty then _ else _) = mapState _ (if _ then _ else _)
      split <;> rfl

lemma blind_passParams (hasParams : Bool) (offsets : StackOffsets) :
    Blind (passParams env hasParams offsets) := by
  unfold passParams
  split
  · refine (Blind.tame tame_copyCallParams).bind fun params => ?_
    refine Blind.get_bind (fun _ _ => rfl) fun m => (Blind.assume _).bind fun values => ?_
    exact blind_setValues _
  · exact Blind.pure _

lemma blind_runHostFunc (hhosts : FuelBlindHosts env) (c : CallContext) (results : RegSpan)
    (func : Nat) (hostFunc : HostFuncEntity) (inst : Nat) :
    Blind (runHostFunc env c results func hostFunc inst) := by
  have hend : Blind (do
      resumable func results (dispatchHostFunc env hostFunc (some inst))
      updateCache inst
      let results ← unwrap (results.iter hostFunc.lenResults)
      let returned := (← get).stack.values.top (max hostFunc.lenParams hostFunc.lenResults)
      setValues ((← get).stack.values.drop (max hostFunc.lenParams hostFunc.lenResults))
      stepLocal (setRegisters results returned) : ExecM T Unit) := by
    have hdispatch := commutes_dispatchHostFunc hhosts hostFunc (some inst)
    refine (blind_resumable func results hdispatch).bind fun _ => ?_
    refine (blind_updateCache inst).bind fun _ => (Blind.unwrap _).bind fun regs => ?_
    refine Blind.get_bind (fun _ _ => rfl) fun m => Blind.get_bind (fun _ _ => rfl) fun m' => ?_
    exact (blind_setValues _).bind fun _ => Blind.tame (tame_setRegisters _ _)
  unfold runHostFunc
  refine Blind.get_bind (fun _ _ => rfl) fun m => Blind.get_bind (fun _ _ => rfl) fun m' => ?_
  refine (Blind.liftTrap _).bind fun values => (blind_setValues _).bind fun _ => ?_
  refine (blind_passParams _ _).bind fun _ => ?_
  dsimp only
  split
  · exact (blind_updateInstrPtrAt 1).bind fun _ => hend
  · exact hend

lemma blind_hostCaller (kind : CallKind) : Blind (hostCaller kind : ExecM T Unit) := by
  cases kind with
  | nested =>
    exact Blind.get_bind (fun _ _ => rfl) fun _ => (Blind.unwrap _).bind fun _ => Blind.pure _
  | tail =>
    refine Blind.get_bind (fun _ _ => rfl) fun _ => (Blind.unwrap _).bind fun popped => ?_
    exact blind_modifyCalls _

lemma blind_executeCallee (hhosts : FuelBlindHosts env) (c : CallContext) (results : RegSpan)
    (callee : Callee) : Blind (executeCallee env c results callee) := by
  cases callee with
  | compiled body inst =>
    refine (blind_prepareCompiledFuncCall _ _ _ _).bind fun _ => ?_
    cases inst with
    | none => exact Blind.pure _
    | some inst => exact blind_updateCache inst
  | host func entity =>
    refine (blind_invokeCallHook _).bind fun _ => Blind.bind ?_ fun _ => blind_invokeCallHook _
    rw [executeHostFunc_eq]
    refine Blind.get_bind (fun _ _ => rfl) fun m => (Blind.unwrap _).bind fun inst => ?_
    exact (blind_hostCaller _).bind fun _ => blind_runHostFunc hhosts _ _ _ _ _

/-! ## Finding a callee -/

lemma tame_pullParams (imm16 : Bool) : Tame (pullParams imm16 env) := by
  have hword : ∀ {f : Op → LocalM T (Nat × Nat)}, (∀ op, Tame (f op)) →
      Tame (do nextInstr; f (← getInstr env (← get).ip)) :=
    fun hf => tame_nextInstr.bind fun _ => tame_word hf
  unfold pullParams
  split
  · refine hword fun op => ?_
    split
    · exact Tame.pure _
    · exact Tame.throw _
  · refine hword fun op => ?_
    split
    · exact (tame_getRegisterU32 _).bind fun _ => Tame.pure _
    · exact Tame.throw _

lemma tame_resolveIndirect (funcType index table : Nat) :
    Tame (resolveIndirect funcType index table : LocalM T Nat) := by
  refine (tame_getEntity _ _).bind fun table => (tame_resolve _ _).bind fun entity => ?_
  split
  · split
    · refine (tame_resolve _ _).bind fun func => (tame_getEntity _ _).bind fun signature => ?_
      split
      · exact (Tame.throw _).bind fun _ => Tame.pure _
      · exact Tame.pure _
    · exact Tame.throw _
  · exact Tame.throw _

lemma blind_resultRegs (site : CallSite) : Blind (resultRegs site : ExecM T RegSpan) := by
  unfold resultRegs
  split
  · exact Blind.pure _
  · exact Blind.get_bind (fun _ _ => rfl) fun _ => (Blind.unwrap _).bind fun _ => Blind.pure _

lemma blind_resolveFunc (func : Nat) : Blind (resolveFunc func : ExecM T Callee) :=
  Blind.get_bind (fun _ _ => rfl) fun _ => (Blind.unwrap _).bind fun _ => Blind.pure _

lemma blind_resolveSite (site : CallSite) : Blind (resolveSite env site) := by
  unfold resolveSite
  split
  · exact (blind_resultRegs _).bind fun _ => Blind.pure _
  · refine (Blind.tame (tame_getEntity _ _)).bind fun func => (blind_resultRegs _).bind fun _ => ?_
    exact (blind_resolveFunc _).bind fun _ => Blind.pure _
  · refine (Blind.tame (tame_pullParams _)).bind fun pulled => (blind_resultRegs _).bind fun _ => ?_
    refine (Blind.tame (tame_resolveIndirect _ _ _)).bind fun func => ?_
    exact (blind_resolveFunc _).bind fun _ => Blind.pure _

/-! ## Returns -/

lemma blind_returnImpl : Blind (returnImpl : ExecM T ControlFlow) := by
  refine Blind.get_bind (fun _ _ => rfl) fun m => (Blind.unwrap _).bind fun popped => ?_
  refine (blind_modifyCalls _).bind fun _ => Blind.get_bind (fun _ _ => rfl) fun m' => ?_
  dsimp only
  split
  · exact fun _ _ => .inr rfl
  refine (blind_setValues _).bind fun _ => ?_
  split
  · refine (blind_updateCache _).bind fun _ => ?_
    split
    · exact (blind_initCallFrame _).bind fun _ => Blind.pure _
    · exact Blind.pure _
  · split
    · exact (blind_initCallFrame _).bind fun _ => Blind.pure _
    · exact Blind.pure _

lemma blind_returnCallerResults :
    Blind (returnCallerResults : ExecM T (ResultCells × RegSpan)) :=
  Blind.get_bind (fun _ _ => rfl) fun _ => Blind.unwrap _

lemma blind_setResults (cells : ResultCells) (results : List Reg) (values : List UntypedVal) :
    Blind (setResults cells results values : ExecM T Unit) :=
  Blind.get_bind (fun _ _ => rfl) fun _ => (Blind.assume _).bind fun _ => blind_setValues _

lemma blind_executeReturnValue {value : LocalM T UntypedVal} (hvalue : Tame value) :
    Blind (executeReturnValue value) := by
  refine blind_returnCallerResults.bind fun cells => (Blind.tame hvalue).bind fun value => ?_
  exact (blind_setResults _ _ _).bind fun _ => blind_returnImpl

lemma blind_executeReturnRegs (regs : List Reg) :
    Blind (executeReturnRegs regs : ExecM T ControlFlow) := by
  refine blind_returnCallerResults.bind fun cells => (Blind.unwrap _).bind fun results => ?_
  refine (Blind.tame (tame_getRegisters _)).bind fun values => ?_
  exact (blind_setResults _ _ _).bind fun _ => blind_returnImpl

lemma blind_executeReturnSpan (span : BoundedRegSpan) :
    Blind (executeReturnSpan span : ExecM T ControlFlow) :=
  (Blind.unwrap _).bind blind_executeReturnRegs

lemma blind_copyManyReturnValues (ip : InstructionPtr) (values : List Reg) :
    Blind (copyManyReturnValues env ip values) := by
  refine blind_returnCallerResults.bind fun cells => ?_
  refine (Blind.tame (tame_registerListAt _)).bind fun regs => ?_
  exact (Blind.tame (tame_getRegisters _)).bind fun values => blind_setResults _ _ _

lemma blind_executeReturnMany (values : List Reg) : Blind (executeReturnMany env values) := by
  refine (Blind.tame tame_nextInstr).bind fun _ => Blind.get_bind (fun _ _ => rfl) fun m => ?_
  exact (blind_copyManyReturnValues _ _).bind fun _ => blind_returnImpl

lemma blind_executeReturnNezImpl (condition : Reg) {f : ExecM T ControlFlow} (hf : Blind f) :
    Blind (executeReturnNezImpl condition f) := by
  refine (Blind.tame (tame_getRegister _)).bind fun value => ?_
  split
  · exact hf
  · exact (Blind.tame tame_nextInstr).bind fun _ => Blind.pure _

lemma blind_executeReturnNezMany (condition : Reg) (values : List Reg) :
    Blind (executeReturnNezMany env condition values) := by
  refine (Blind.tame (tame_getRegister _)).bind fun value => ?_
  refine (Blind.tame tame_nextInstr).bind fun _ => ?_
  split
  · refine Blind.get_bind (fun _ _ => rfl) fun m => ?_
    exact (blind_copyManyReturnValues _ _).bind fun _ => blind_returnImpl
  · refine (Blind.tame ?_).bind fun _ => Blind.pure _
    refine Tame.get_bind (fun _ _ => rfl) fun l => ?_
    exact (tame_skipRegisterList _).bind fun ip => tame_setIp _

lemma blind_executeReturn (op : Op) : Blind (executeReturn env op) := by
  have hreg : ∀ reg, Blind (executeReturnValue (getRegister reg : LocalM T _)) :=
    fun reg => blind_executeReturnValue (tame_getRegister reg)
  have hpure : ∀ value, Blind (executeReturnValue (pure value : LocalM T _)) :=
    fun value => blind_executeReturnValue (Tame.pure value)
  unfold executeReturn
  split
  · exact blind_returnImpl
  · exact hreg _
  · exact blind_executeReturnRegs _
  · exact blind_executeReturnRegs _
  · exact hpure _
  · exact hpure _
  · exact hpure _
  · exact blind_executeReturnSpan _
  · exact blind_executeReturnMany _
  · exact blind_executeReturnNezImpl _ blind_returnImpl
  · exact blind_executeReturnNezImpl _ (hreg _)
  · exact blind_executeReturnNezImpl _ (blind_executeReturnRegs _)
  · exact blind_executeReturnNezImpl _ (hpure _)
  · exact blind_executeReturnNezImpl _ (hpure _)
  · exact blind_executeReturnNezImpl _ (hpure _)
  · exact blind_executeReturnNezImpl _ (blind_executeReturnSpan _)
  · exact blind_executeReturnNezMany _ _
  · exact Blind.throw _

lemma blind_executeBranchTableMany (index : Reg) (lenTargets : Nat) :
    Blind (executeBranchTableMany env index lenTargets) := by
  refine (Blind.tame (tame_fetchBranchTableOffset _ _)).bind fun offset => ?_
  refine (Blind.tame tame_nextInstr).bind fun _ => Blind.get_bind (fun _ _ => rfl) fun m => ?_
  refine (Blind.tame ((tame_skipRegisterList _).bind fun _ => tame_setIp _)).bind fun _ => ?_
  have htarget : Tame (do getInstr env (← get).ip) :=
    Tame.get_bind (fun _ _ => rfl) fun _ => tame_getInstr _
  refine (Blind.tame htarget).bind fun target => ?_
  split
  · exact Blind.tame ((tame_executeCopyManyImpl _ _ _).bind fun _ => tame_branchTo _)
  · exact Blind.tame ((tame_executeCopyManyNonOverlappingImpl _ _ _).bind fun _ => tame_branchTo _)
  · exact blind_copyManyReturnValues _ _
  · exact Blind.throw _

/-! ## One iteration -/

/-- The next instruction is a `table.grow` for which nothing but fuel is missing. -/
def StarvesTable (env : Engine T) (m : Machine T) : Prop :=
  ∃ instr result delta value n table, env.instrAt m.ip = some instr ∧
    instr.op = .tableGrow result delta value ∧
    askedGrowth env delta m.toLocal = .ok (n, table) m.toLocal ∧
    TableStarved env.limiter n ⟨table, m.store.fuel, m.store.data⟩

lemma readOnly_fetch : ReadOnly (fetch env) := ReadOnly.get.bind fun _ => readOnly_assume _

lemma blind_fetch : Blind (fetch env) := Blind.get_bind (fun _ _ => rfl) fun _ => Blind.assume _

lemma fetch_eq_ok {instr : Instruction} {m m' : Machine T} :
    fetch env m = .ok instr m' ↔ env.instrAt m.ip = some instr ∧ m = m' := by
  simp [fetch, StateExcept.get_bind]

/-- An instruction that neither calls nor returns. -/
lemma commutesAt_executeOther {instr : Instruction} {m : Machine T}
    (hinstr : env.instrAt m.ip = some instr) (h : ¬StarvesTable env m) (d : Nat) :
    CommutesAt Stop.IsOutOfFuel (Machine.addFuel d) (executeOther env instr.op) m := by
  have hlocal : CommutesAt Stop.IsOutOfFuel (Local.addFuel d) (executeLocal env instr.op)
      m.toLocal := by
    cases hop : growsEntity instr.op with
    | false => exact (tame_executeLocal hop).fuel d m.toLocal
    | true =>
      cases heq : instr.op <;> rw [heq] at hop <;> try contradiction
      case tableGrow result delta value =>
        refine commutesAt_executeTableGrow (fun n table hasked hstarved => h ?_) d
        exact ⟨instr, result, delta, value, n, table, hinstr, heq, hasked, hstarved⟩
      case memoryGrow result delta => exact commutesAt_executeMemoryGrow result delta d m.toLocal
  unfold executeOther
  split
  · exact blind_executeBranchTableMany _ _ d m
  · exact hlocal.zoom rfl fun _ => rfl

/-- From more fuel an iteration does the same, unless it runs out of fuel. -/
theorem commutesAt_executeOp (hhosts : FuelBlindHosts env) {instr : Instruction} {m : Machine T}
    (hinstr : env.instrAt m.ip = some instr) (h : ¬StarvesTable env m) (d : Nat) :
    CommutesAt Stop.IsOutOfFuel (Machine.addFuel d) (executeOp env instr.op) m := by
  cases hcall : instr.op.callSite with
  | some site =>
    rw [executeOp_callSite hcall]
    have hsite : Blind (executeSite env site) :=
      (blind_resolveSite site).bind fun resolved =>
        (blind_executeCallee hhosts _ _ _).bind fun _ => Blind.pure _
    exact (hsite.bind fun _ => Blind.pure _) d m
  | none =>
    cases hreturn : instr.op.isReturn with
    | true =>
      rw [executeOp_return hreturn]
      exact blind_executeReturn instr.op d m
    | false =>
      rw [executeOp_other hcall hreturn]
      exact (commutesAt_executeOther hinstr h d).bind fun _ m' _ => CommutesUpTo.pure _ m'

end Machine

/-! ## Lazy compilation -/

end Executor

def LazyMachine.addFuel (d : Nat) (s : LazyMachine T) : LazyMachine T :=
  { s with machine := s.machine.addFuel d }

namespace Executor

section Lazy

variable {env : Engine T} {translate : Translate}

lemma commutes_onEager {x : ExecM T α} (hx : Blind x) (d : Nat) :
    CommutesUpTo Stop.IsOutOfFuel (LazyMachine.addFuel d) (onEager x) :=
  (hx d).zoom (fun _ => rfl) fun _ _ => rfl

/-- From more fuel a compilation leaves the surplus, unless it runs out of fuel. -/
lemma compile_add (translate : UncompiledFuncEntity → Except Error Unit)
    (body : UncompiledFuncEntity) (fuel : Fuel) (d : Nat) :
    (CodeMap.compile translate (some fuel) body).1 = .error .outOfFuel ∨
      ∃ compiled left, CodeMap.compile translate (some fuel) body = (compiled, some left) ∧
        CodeMap.compile translate (some (fuel.add d)) body = (compiled, some (left.add d)) := by
  by_cases hfuel : fuel.Affords fun _ => body.compilationFuel
  · right
    have hmore := consumeFuel_add hfuel d
    simp only [CodeMap.compile, hmore]
    obtain ⟨left, hpaid⟩ | hdisabled := Fuel.consumeFuel_of_affords hfuel
    · rw [hpaid]
      exact ⟨_, left, rfl, rfl⟩
    · rw [hdisabled]
      exact ⟨_, fuel, rfl, rfl⟩
  · left
    simp only [CodeMap.compile, Fuel.consumeFuel_of_not_affords hfuel]

lemma commutes_setEntity (func : EngineFunc) (entity : CodeMap.FuncEntity Unit) (d : Nat) :
    CommutesUpTo Stop.IsOutOfFuel (LazyMachine.addFuel d) (setEntity func entity : LazyM T Unit) :=
  CommutesUpTo.modify fun _ => rfl

lemma commutes_finishCompilation (func : EngineFunc)
    (compiled : Except (CodeMap.GetError Error) Unit) (d : Nat) :
    CommutesUpTo Stop.IsOutOfFuel (LazyMachine.addFuel d)
      (finishCompilation func compiled : LazyM T Unit) := by
  cases compiled with
  | ok _ => exact commutes_setEntity func _ d
  | error error => exact (commutes_setEntity func _ d).bind fun _ => CommutesUpTo.throw _

lemma commutes_getCode (func : EngineFunc) (d : Nat) :
    CommutesUpTo Stop.IsOutOfFuel (LazyMachine.addFuel d)
      (getCode translate func : LazyM T Unit) := by
  refine CommutesUpTo.get_bind (fun s => ?_) fun _ => rfl
  split
  · exact CommutesUpTo.pure _
  · rename_i body _
    intro s'
    simp only [StateExcept.get_bind]
    rcases compile_add (translate func) body s'.machine.store.fuel d with hstarved |
      ⟨compiled, left, hless, hmore⟩
    · left
      rw [hstarved]
      exact ⟨_, _, rfl, rfl⟩
    · rw [show (s'.addFuel d).machine.store.fuel = s'.machine.store.fuel.add d from rfl, hmore,
        hless]
      exact commutes_finishCompilation func compiled d
        { s' with machine := { s'.machine with store := { s'.machine.store with fuel := left } } }
  · exact CommutesUpTo.throw _
  · exact CommutesUpTo.throw _
  · exact CommutesUpTo.throw _

/-! ## Runs -/

/-- An iteration after which the loop goes on. -/
def LazyContinues (env : Engine T) (translate : Translate) (s s' : LazyMachine T) : Prop :=
  lazyOne env translate s = .ok .continue_ s'

lemma commutesAt_lazyOne (hhosts : FuelBlindHosts env) {s : LazyMachine T}
    (h : ¬StarvesTable env s.machine) (d : Nat) :
    CommutesAt Stop.IsOutOfFuel (LazyMachine.addFuel d) (lazyOne env translate) s := by
  refine ((commutes_onEager blind_fetch d).at s).bind fun instr s' hfetch => ?_
  obtain ⟨m, hm, rfl⟩ := zoom_eq_ok.mp hfetch
  obtain ⟨hinstr, rfl⟩ := fetch_eq_ok.mp hm
  split
  · rename_i site _
    have hsite : CommutesUpTo Stop.IsOutOfFuel (LazyMachine.addFuel d)
        (lazySite env translate site) := by
      refine (commutes_onEager (blind_resolveSite site) d).bind fun resolved => ?_
      obtain ⟨results, callee, pulled⟩ := resolved
      have hcallee := commutes_onEager
        (blind_executeCallee hhosts site.context results callee) d
      cases callee with
      | compiled body inst => exact (commutes_getCode body d).bind fun _ => hcallee
      | host func entity => exact hcallee
    exact hsite.bind (fun _ => CommutesUpTo.pure _) _
  · exact (commutesAt_executeOp hhosts hinstr h d).zoom rfl fun _ => rfl

lemma commutesAt_lazyExecute (hhosts : FuelBlindHosts env) (fuel d : Nat) {s : LazyMachine T}
    (h : ∀ n s', Steps (LazyContinues env translate) n s s' → ¬StarvesTable env s'.machine) :
    CommutesAt Stop.IsOutOfFuel (LazyMachine.addFuel d) (lazyExecute env translate fuel) s := by
  induction fuel generalizing s with
  | zero => exact CommutesUpTo.pure _ s
  | succ fuel ih =>
    refine (commutesAt_lazyOne hhosts (h 0 s (.refl s)) d).bind fun flow s' hone => ?_
    cases flow with
    | continue_ => exact ih fun n s'' hsteps => h (n + 1) s'' (.head hone hsteps)
    | break_ => exact CommutesUpTo.pure _ s'

/-- The states that a run of the function goes through. -/
def RunsThrough (env : Engine T) (translate : Translate) (func : Nat) (params : List UntypedVal)
    (lenResults : Nat) (s s' : LazyMachine T) : Prop :=
  ∃ wasmFunc s₁ n, s.machine.store.funcs[func]? = some (.wasm wasmFunc) ∧
    lazyEnter env translate wasmFunc params lenResults s = .ok () s₁ ∧
    Steps (LazyContinues env translate) n s₁ s'

lemma blind_rootResults (lenResults : Nat) :
    Blind (rootResults lenResults : ExecM T (List UntypedVal)) :=
  Blind.get_bind (fun _ _ => rfl) fun _ => Blind.unwrap _

lemma blind_reserveResults (lenResults : Nat) :
    Blind (reserveResults lenResults : ExecM T Unit) := by
  refine (Blind.modify fun _ _ => rfl).bind fun _ => Blind.get_bind (fun _ _ => rfl) fun _ => ?_
  exact (Blind.liftTrap _).bind fun _ => blind_setValues _

lemma blind_pushRootFrame (wasmFunc : WasmFuncEntity) (params : List UntypedVal) :
    Blind (pushRootFrame env wasmFunc params) := by
  refine Blind.get_bind (fun _ _ => rfl) fun _ => (Blind.liftTrap _).bind fun called => ?_
  refine (Blind.assume _).bind fun _ => (blind_setValues _).bind fun _ => ?_
  exact blind_pushFrame _ _

lemma blind_newExecutor : Blind (newExecutor : ExecM T Unit) := by
  refine Blind.get_bind (fun _ _ => rfl) fun _ => (Blind.unwrap _).bind fun _ => ?_
  refine (blind_updateCache _).bind fun _ => Blind.get_bind (fun _ _ => rfl) fun _ => ?_
  exact (Blind.unwrap _).bind fun _ => blind_initCallFrame _

lemma blind_leaveRoot (lenResults : Nat) (ended : Option Unit) :
    Blind (leaveRoot env lenResults ended) := by
  cases ended with
  | none => exact Blind.pure _
  | some _ =>
    exact (blind_invokeCallHook _).bind fun _ => (blind_rootResults _).bind fun _ => Blind.pure _

lemma commutes_lazyEnter (wasmFunc : WasmFuncEntity) (params : List UntypedVal)
    (lenResults d : Nat) :
    CommutesUpTo Stop.IsOutOfFuel (LazyMachine.addFuel d)
      (lazyEnter env translate wasmFunc params lenResults) := by
  refine (commutes_onEager (blind_reserveResults _) d).bind fun _ => ?_
  refine (commutes_getCode _ d).bind fun _ => ?_
  refine (commutes_onEager (blind_pushRootFrame _ _) d).bind fun _ => ?_
  refine (commutes_onEager (blind_invokeCallHook _) d).bind fun _ => ?_
  exact commutes_onEager blind_newExecutor d

/-- A host function as the root function. -/
lemma commutesAt_rootHost (hhosts : FuelBlindHosts env) {func : Nat} {m : Machine T}
    (hfunc : ∀ wasmFunc, m.store.funcs[func]? ≠ some (.wasm wasmFunc))
    (params : List UntypedVal) (lenResults fuel d : Nat) :
    CommutesAt Stop.IsOutOfFuel (Machine.addFuel d)
      (executeRootFunc env func params lenResults fuel) m := by
  have hreset : Blind (modify fun m => { m with stack := m.stack.reset } : ExecM T Unit) :=
    Blind.modify fun _ _ => rfl
  refine ((hreset d).at m).bind fun _ m' h' => ?_
  cases h'
  refine CommutesAt.get_bind ?_ rfl
  show CommutesAt _ _ (unwrap m.store.funcs[func]? >>= _) _
  cases hentity : m.store.funcs[func]? with
  | none => exact Blind.throw _ d _
  | some entity =>
    cases entity with
    | wasm wasmFunc => exact absurd hentity (hfunc wasmFunc)
    | host hostFunc =>
      have hdispatch : Blind (dispatchHostFunc env hostFunc none) :=
        fun d => (commutes_dispatchHostFunc hhosts hostFunc none d).mono fun _ => False.elim
      have hhost : Blind (do
          let buffer := (← get).stack.values.values.length
          let maxInout := max hostFunc.lenParams hostFunc.lenResults
          let values ← liftTrap ((← get).stack.values.extendBy maxInout)
          setValues { values with
            values := overwrite values.values buffer (params.take maxInout) }
          dispatchHostFunc env hostFunc none
          return some (← rootResults lenResults) : ExecM T (Option (List UntypedVal))) := by
        refine Blind.get_bind (fun _ _ => rfl) fun _ => Blind.get_bind (fun _ _ => rfl) fun _ => ?_
        refine (Blind.liftTrap _).bind fun values => (blind_setValues _).bind fun _ => ?_
        exact hdispatch.bind fun _ => (blind_rootResults _).bind fun _ => Blind.pure _
      exact hhost d _

/-- A run with more fuel ends as the run with less fuel does, in the same store but for the fuel, of
which the surplus is left; unless the run with less fuel runs out of fuel. No iteration of the run
may starve the growth of a table, as the program would see that. -/
theorem fuel_keeps_meaning (hhosts : FuelBlindHosts env) {func : Nat} {params : List UntypedVal}
    {lenResults : Nat} {s : LazyMachine T}
    (hgrowth : ∀ s', RunsThrough env translate func params lenResults s s' →
      ¬StarvesTable env s'.machine) (fuel d : Nat) :
    (∃ s', lazyRootFunc env translate func params lenResults fuel s =
        .error (.trap .outOfFuel) s') ∨
      lazyRootFunc env translate func params lenResults fuel (s.addFuel d) =
        mapState (LazyMachine.addFuel d)
          (lazyRootFunc env translate func params lenResults fuel s) := by
  have hroot : CommutesAt Stop.IsOutOfFuel (LazyMachine.addFuel d)
      (lazyRootFunc env translate func params lenResults fuel) s := by
    refine CommutesAt.get_bind ?_ rfl
    split
    · rename_i wasmFunc hfunc
      refine ((commutes_lazyEnter wasmFunc params lenResults d).at s).bind fun _ s₁ henter => ?_
      refine (commutesAt_lazyExecute hhosts fuel d fun n s' hsteps => ?_).bind fun ended s₂ _ => ?_
      · exact hgrowth s' ⟨wasmFunc, s₁, n, hfunc, henter, hsteps⟩
      · exact commutes_onEager (blind_leaveRoot lenResults ended) d s₂
    · rename_i hfunc
      have hhost := commutesAt_rootHost hhosts hfunc params lenResults fuel d
      exact hhost.zoom rfl fun _ => rfl
  rcases hroot with ⟨_, s', hstop, rfl⟩ | hmove
  · exact .inl ⟨s', hstop⟩
  · exact .inr hmove

end Lazy

/-- A function that grows the table of its instance by one element. -/
def fuelEngine : Engine Unit :=
  Engine.ofCode
    [⟨[⟨1, .consumeFuel 1⟩, ⟨2, .tableGrow 0 (.imm 1) (-1)⟩, ⟨2, .tableIndex 0⟩, ⟨3, .returnReg 0⟩],
      [0], 2⟩]
    [⟨[], [.i32]⟩]

/-- No call has been made, and all functions are compiled. -/
def fuelMachine (remaining : Nat) : LazyMachine Unit :=
  .eager {
    sp := default
    ip := default
    cache := default
    stack := ⟨⟨[], 64⟩, ⟨[], [], 4⟩⟩
    store :=
      { Store.ofFuncs [.wasm ⟨0, 0, 0⟩] with
        tables := [⟨.funcRef, none, []⟩]
        instances := [⟨[0], [0], [0], [], [], [], []⟩]
        fuel := ⟨remaining, true, ⟨1, 1, 1⟩⟩ } }

lemma fuelBlindHosts_fuelEngine : FuelBlindHosts fuelEngine := fun _ _ _ _ _ => rfl

/-- A run of the function with enough fuel. -/
def fuelStarted : LazyMachine Unit :=
  finalState (lazyEnter fuelEngine (fun _ _ => .ok ()) ⟨0, 0, 0⟩ [] 1 (fuelMachine 2))

/-- The table is about to grow. -/
def fuelPaid : LazyMachine Unit := finalState (lazyOne fuelEngine (fun _ _ => .ok ()) fuelStarted)

/-- The function is about to return. -/
def fuelGrown : LazyMachine Unit := finalState (lazyOne fuelEngine (fun _ _ => .ok ()) fuelPaid)

lemma runsThrough_fuelMachine {s : LazyMachine Unit}
    (h : RunsThrough fuelEngine (fun _ _ => .ok ()) 0 [] 1 (fuelMachine 2) s) :
    s = fuelStarted ∨ s = fuelPaid ∨ s = fuelGrown := by
  obtain ⟨wasmFunc, s₁, n, hfunc, henter, hsteps⟩ := h
  cases hfunc
  have hstarted : s₁ = fuelStarted := by
    rw [fuelStarted, henter, finalState_ok]
  subst hstarted
  cases hsteps with
  | refl => exact .inl rfl
  | head hone hsteps =>
    have hpaid := congrArg finalState hone
    cases hpaid
    cases hsteps with
    | refl => exact .inr (.inl rfl)
    | head hone hsteps =>
      have hgrown := congrArg finalState hone
      cases hgrown
      cases hsteps with
      | refl => exact .inr (.inr rfl)
      | head hone hsteps =>
        have hends : returned (lazyOne fuelEngine (fun _ _ => .ok ()) fuelGrown) =
            some .break_ := by
          decide +kernel
        rw [show lazyOne fuelEngine (fun _ _ => .ok ()) fuelGrown = _ from hone] at hends
        cases hends

/-- The fuel suffices for the growth of the table. -/
lemma not_starvesTable_fuelMachine {s : LazyMachine Unit}
    (h : RunsThrough fuelEngine (fun _ _ => .ok ()) 0 [] 1 (fuelMachine 2) s) :
    ¬StarvesTable fuelEngine s.machine := by
  rintro ⟨instr, result, delta, value, n, table, hinstr, hop, hasked, hstarved⟩
  rcases runsThrough_fuelMachine h with rfl | rfl | rfl
  · rw [show fuelStarted.machine.ip = ⟨0, 0⟩ by decide +kernel] at hinstr
    cases hinstr
    cases hop
  · rw [show fuelPaid.machine.ip = ⟨0, 1⟩ by decide +kernel] at hinstr
    cases hinstr
    cases hop
    have hone : (returned (askedGrowth fuelEngine (.imm 1) fuelPaid.machine.toLocal)).map Prod.fst =
        some 1 := by decide +kernel
    rw [hasked] at hone
    cases hone
    apply hstarved.fuel
    intro _
    show elementsCosts 1 fuelPaid.machine.store.fuel.costs ≤ fuelPaid.machine.store.fuel.remaining
    decide +kernel
  · rw [show fuelGrown.machine.ip = ⟨0, 3⟩ by decide +kernel] at hinstr
    cases hinstr
    cases hop

theorem fuel_keeps_meaning_fuelMachine :
    (∃ s', lazyRootFunc fuelEngine (fun _ _ => .ok ()) 0 [] 1 3 (fuelMachine 2) =
        .error (.trap .outOfFuel) s') ∨
      lazyRootFunc fuelEngine (fun _ _ => .ok ()) 0 [] 1 3 ((fuelMachine 2).addFuel 5) =
        mapState (LazyMachine.addFuel 5)
          (lazyRootFunc fuelEngine (fun _ _ => .ok ()) 0 [] 1 3 (fuelMachine 2)) :=
  fuel_keeps_meaning fuelBlindHosts_fuelEngine (fun _ h => not_starvesTable_fuelMachine h) 3 5

/-- With the fuel for its block only, the run returns that the table did not grow. -/
theorem not_fuel_keeps_meaning :
    FuelBlindHosts fuelEngine ∧
      ∃ s s', lazyRootFunc fuelEngine (fun _ _ => .ok ()) 0 [] 1 3 (fuelMachine 1) =
          .ok (some [0xFFFFFFFF]) s ∧
        lazyRootFunc fuelEngine (fun _ _ => .ok ()) 0 [] 1 3 ((fuelMachine 1).addFuel 1) =
          .ok (some [0]) s' :=
  ⟨fuelBlindHosts_fuelEngine, _, _, eq_ok_of_returned (by decide +kernel),
    eq_ok_of_returned (by decide +kernel)⟩

end Executor

end MotokoDebugger
