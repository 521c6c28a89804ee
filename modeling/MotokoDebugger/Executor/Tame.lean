import MotokoDebugger.Executor.Atomic

/-!
# Fuel, and the sizes of memories

Most instructions that neither call nor return use fuel only to pay with it, and none but
`memory.grow` changes the size of a memory.

* `Fuel.add`, `Store.addFuel`, `Local.addFuel`: more fuel.
* `Store.shape`: what the cached instance depends on.
* `Pays`: a payment does the same from more fuel, unless it fails for lack of fuel.
* `Tame x`: `x` keeps the cached instance and the shape of the store, and does the same from more
  fuel, unless it runs out of fuel.

Here are the rules, and the instructions on registers, branches, globals and loads.
-/

namespace MotokoDebugger

variable {T : Type} {α β γ : Type}

/-! ## More fuel -/

/-- Fuel with `d` units more. -/
def Fuel.add (d : Nat) (fuel : Fuel) : Fuel := { fuel with remaining := fuel.remaining + d }

def Store.addFuel (d : Nat) (store : Store T) : Store T := { store with fuel := store.fuel.add d }

def Local.addFuel (d : Nat) (l : Local T) : Local T := { l with store := l.store.addFuel d }

/-- An arena of the store, which does not depend on the fuel. -/
class Unmetered (arena : Store T → List α) : Prop where
  addFuel : ∀ d store, arena (store.addFuel d) = arena store

instance : Unmetered (fun store : Store T => store.funcs) := ⟨fun _ _ => rfl⟩
instance : Unmetered (fun store : Store T => store.memories) := ⟨fun _ _ => rfl⟩
instance : Unmetered (fun store : Store T => store.tables) := ⟨fun _ _ => rfl⟩
instance : Unmetered (fun store : Store T => store.globals) := ⟨fun _ _ => rfl⟩
instance : Unmetered (fun store : Store T => store.datas) := ⟨fun _ _ => rfl⟩
instance : Unmetered (fun store : Store T => store.elems) := ⟨fun _ _ => rfl⟩

/-- The error of a payment that fails for lack of fuel. -/
def Stop.IsOutOfFuel (stop : Stop) : Prop := stop = .trap .outOfFuel

/-- A payment that does the same from more fuel, with the surplus left, unless it fails for lack
of fuel. `add` is the surplus in what the payment returns. -/
def Pays (add : Nat → γ → γ) (pay : Fuel → Except TrapCode γ) : Prop :=
  ∀ d fuel, pay fuel = .error .outOfFuel ∨ pay (fuel.add d) = (pay fuel).map (add d)

lemma consumeFuelUnchecked_add (delta d : Nat) (fuel : Fuel) :
    fuel.consumeFuelUnchecked delta = .error .outOfFuel ∨
      (fuel.add d).consumeFuelUnchecked delta =
        (fuel.consumeFuelUnchecked delta).map (Fuel.add d) := by
  unfold Fuel.consumeFuelUnchecked
  by_cases h : delta ≤ fuel.remaining
  · right
    have hadd : delta ≤ (fuel.add d).remaining := Nat.le_add_right_of_le h
    have hleft : fuel.remaining + d - delta = fuel.remaining - delta + d := by omega
    rw [if_pos h, if_pos hadd]
    show Except.ok _ = Except.ok _
    simp only [Fuel.add, hleft]
  · left
    rw [if_neg h]

lemma pays_consumeFuelUnchecked (delta : Nat) :
    Pays Fuel.add (Fuel.consumeFuelUnchecked · delta) := consumeFuelUnchecked_add delta

/-- Where metering is enabled, a payment is the unchecked one. -/
lemma consumeFuelIf_enabled {fuel : Fuel} (h : fuel.enabled = true) (f : FuelCosts → Nat) :
    fuel.consumeFuelIf f = fuel.consumeFuelUnchecked (f fuel.costs) := by
  simp only [Fuel.consumeFuelIf, Fuel.consumeFuel, h, if_true, Fuel.consumeFuelUnchecked]
  by_cases hle : f fuel.costs ≤ fuel.remaining
  · simp only [if_pos hle]
  · simp only [if_neg hle]

lemma consumeFuelIf_disabled {fuel : Fuel} (h : fuel.enabled = false) (f : FuelCosts → Nat) :
    fuel.consumeFuelIf f = .ok fuel := by
  simp [Fuel.consumeFuelIf, Fuel.consumeFuel, h]

lemma pays_consumeFuelIf (f : FuelCosts → Nat) : Pays Fuel.add (Fuel.consumeFuelIf · f) := by
  intro d fuel
  dsimp only
  cases henabled : fuel.enabled with
  | false =>
    right
    rw [consumeFuelIf_disabled henabled, consumeFuelIf_disabled (show (fuel.add d).enabled = _ from henabled)]
    rfl
  | true =>
    rw [consumeFuelIf_enabled henabled, consumeFuelIf_enabled (show (fuel.add d).enabled = _ from henabled)]
    exact consumeFuelUnchecked_add (f fuel.costs) d fuel

/-- The entity of a payment does not depend on the fuel. -/
lemma Pays.andReturn {pay : Fuel → Except TrapCode Fuel} (h : Pays Fuel.add pay) (entity : γ) :
    Pays (fun d => Prod.map id (Fuel.add d)) fun fuel => do return (entity, ← pay fuel) := by
  intro d fuel
  rcases h d fuel with h | h
  · left
    simp only [h]
    rfl
  · right
    simp only [h]
    cases pay fuel <;> rfl

/-! ## The shape of a store -/

/-- What the cached instance depends on: the instances, the sizes of the memories and the number of
globals. -/
def Store.shape (store : Store T) : List InstanceEntity × List Nat × Nat :=
  (store.instances, store.memories.map (·.bytes.length), store.globals.length)

namespace Executor

open StateExcept

/-- No outcome changes the cached instance or the shape of the store. -/
abbrev KeepsShape (x : LocalM T α) : Prop := Keeps (fun l => (l.cache, l.store.shape)) x

/-- More fuel changes nothing, unless the step runs out of fuel. -/
abbrev FuelBlind (x : LocalM T α) : Prop :=
  ∀ d, CommutesUpTo Stop.IsOutOfFuel (Local.addFuel d) x

/-- A step that keeps the cached instance and what it depends on, and that more fuel does not
change. -/
structure Tame (x : LocalM T α) : Prop where
  shape : KeepsShape x
  fuel : FuelBlind x

/-! ## Rules -/

namespace Tame

lemma pure (a : α) : Tame (pure a : LocalM T α) := ⟨Keeps.pure a, fun _ => CommutesUpTo.pure a⟩

lemma throw (stop : Stop) : Tame (throw stop : LocalM T α) :=
  ⟨Keeps.throw _, fun _ => CommutesUpTo.throw _⟩

lemma bind {x : LocalM T α} {f : α → LocalM T β} (hx : Tame x) (hf : ∀ a, Tame (f a)) :
    Tame (x >>= f) :=
  ⟨hx.shape.bind fun a => (hf a).shape, fun d => (hx.fuel d).bind fun a => (hf a).fuel d⟩

/-- Reading the state: what follows may not depend on the fuel. -/
lemma get_bind {f : Local T → LocalM T β} (hread : ∀ d l, f (l.addFuel d) = f l)
    (hf : ∀ l, Tame (f l)) : Tame (get >>= f) :=
  ⟨Keeps.get.bind fun l => (hf l).shape,
    fun d => CommutesUpTo.get_bind (fun l => (hf l).fuel d) (hread d)⟩

lemma modify {f : Local T → Local T}
    (hshape : ∀ l, (f l).cache = l.cache ∧ (f l).store.shape = l.store.shape)
    (hfuel : ∀ d l, f (l.addFuel d) = (f l).addFuel d) : Tame (modify f : LocalM T Unit) :=
  ⟨Keeps.modify fun l => Prod.ext (hshape l).1 (hshape l).2,
    fun d => CommutesUpTo.modify (hfuel d)⟩

lemma map {x : LocalM T α} (hx : Tame x) (f : α → β) : Tame (f <$> x) := by
  rw [map_eq_pure_bind]
  exact hx.bind fun _ => pure _

lemma ite {c : Prop} [Decidable c] {x y : LocalM T α} (hx : Tame x) (hy : Tame y) :
    Tame (if c then x else y) := by
  split
  · exact hx
  · exact hy

lemma mapM {f : α → LocalM T β} (hf : ∀ a, Tame (f a)) (l : List α) : Tame (l.mapM f) := by
  induction l with
  | nil => exact pure _
  | cons a l ih =>
    rw [List.mapM_cons]
    exact (hf a).bind fun _ => ih.bind fun _ => pure _

lemma forM {f : α → LocalM T Unit} (hf : ∀ a, Tame (f a)) (l : List α) : Tame (l.forM f) := by
  induction l with
  | nil => exact pure _
  | cons a l ih => exact (hf a).bind fun _ => ih

lemma unwrap (x : Option α) : Tame (unwrap x : LocalM T α) := by
  cases x with
  | none => exact throw _
  | some a => exact pure a

lemma assume (x : Option α) : Tame (assume x : LocalM T α) := by
  cases x with
  | none => exact throw _
  | some a => exact pure a

lemma liftTrap (x : Except TrapCode α) : Tame (liftTrap x : LocalM T α) := by
  cases x with
  | error code => exact throw _
  | ok a => exact pure a

end Tame

/-! ## Registers and instruction words -/

section Local

variable {env : Engine T}

lemma tame_getRegister (reg : Reg) : Tame (getRegister reg : LocalM T UntypedVal) :=
  Tame.get_bind (fun _ _ => rfl) fun _ => Tame.assume _

lemma tame_setRegister (reg : Reg) (value : UntypedVal) :
    Tame (setRegister reg value : LocalM T Unit) := by
  rw [setRegister_eq]
  exact Tame.get_bind (fun _ _ => rfl) fun _ => (Tame.assume _).bind fun _ =>
    Tame.modify (fun _ => ⟨rfl, rfl⟩) fun _ _ => rfl

lemma tame_nextInstrAt (skip : Nat) : Tame (nextInstrAt skip : LocalM T Unit) :=
  Tame.modify (fun _ => ⟨rfl, rfl⟩) fun _ _ => rfl

lemma tame_nextInstr : Tame (nextInstr : LocalM T Unit) := tame_nextInstrAt 1

lemma tame_setIp (ip : InstructionPtr) :
    Tame (modify fun l => { l with ip } : LocalM T Unit) :=
  Tame.modify (fun _ => ⟨rfl, rfl⟩) fun _ _ => rfl

/-- The end of most instructions: one result, then the next instruction. -/
lemma tame_result (reg : Reg) (value : UntypedVal) (skip : Nat) :
    Tame (do setRegister reg value; nextInstrAt skip : LocalM T Unit) :=
  (tame_setRegister reg value).bind fun _ => tame_nextInstrAt skip

lemma tame_getInstr (ip : InstructionPtr) : Tame (getInstr env ip) := Tame.assume _

lemma tame_fetchParam (offset : Nat) : Tame (fetchParam env offset) :=
  Tame.get_bind (fun _ _ => rfl) fun _ => tame_getInstr _

/-- The word at the instruction pointer, and what follows. -/
lemma tame_word {f : Op → LocalM T α} (hf : ∀ op, Tame (f op)) :
    Tame (do f (← getInstr env (← get).ip)) :=
  Tame.get_bind (fun _ _ => rfl) fun _ => (tame_getInstr _).bind hf

lemma tame_getEntity (space : InstanceEntity → List Nat) (index : Nat) :
    Tame (getEntity space index : LocalM T Nat) :=
  Tame.get_bind (fun _ _ => rfl) fun _ => (Tame.assume _).bind fun _ => Tame.assume _

lemma tame_resolve (arena : Store T → List α) [Unmetered arena] (index : Nat) :
    Tame (resolve arena index : LocalM T α) := by
  refine Tame.get_bind (fun d l => ?_) fun _ => Tame.unwrap _
  have harena : arena (l.store.addFuel d) = arena l.store := Unmetered.addFuel d l.store
  show unwrap (arena (l.store.addFuel d))[index]? = unwrap (arena l.store)[index]?
  rw [harena]

lemma tame_modifyStore {f : Store T → Store T}
    (hshape : ∀ store, (f store).shape = store.shape)
    (hfuel : ∀ d store, f (store.addFuel d) = (f store).addFuel d) :
    Tame (modifyStore f : LocalM T Unit) := by
  refine Tame.modify (fun l => ⟨rfl, hshape l.store⟩) fun d l => ?_
  show ({ l with store := f (l.store.addFuel d) } : Local T) = _
  rw [hfuel]
  rfl

lemma tame_spanRegs (span : RegSpan) (len : Nat) :
    Tame (spanRegs span len : LocalM T (List Reg)) := Tame.unwrap _

lemma tame_setRegisters (regs : List Reg) (values : List UntypedVal) :
    Tame (setRegisters regs values : LocalM T Unit) :=
  Tame.forM (fun _ => tame_setRegister _ _) _

lemma tame_copyRegisters (results values : List Reg) :
    Tame (copyRegisters results values : LocalM T Unit) :=
  Tame.forM (fun _ => (tame_getRegister _).bind fun _ => tame_setRegister _ _) _

lemma tame_registerListAt (ip : InstructionPtr) : Tame (registerListAt env ip) :=
  (Tame.assume _).bind fun _ => Tame.pure _

lemma tame_getRegisters (regs : List Reg) :
    Tame (regs.mapM getRegister : LocalM T (List UntypedVal)) :=
  Tame.mapM tame_getRegister regs

/-! ## Payments -/

/-- A payment, and what follows once the store has the fuel that is left. -/
lemma fuelBlind_pay {pay : Fuel → Except TrapCode Fuel} (hpay : Pays Fuel.add pay)
    {x : LocalM T α} (hx : FuelBlind x) :
    FuelBlind (do
      let fuel ← liftTrap (pay (← get).store.fuel)
      setFuel fuel
      x) := by
  intro d l
  simp only [StateExcept.get_bind]
  rcases hpay d l.store.fuel with hstop | hadd
  · left
    rw [hstop]
    exact ⟨_, l, rfl, rfl⟩
  · rw [show (l.addFuel d).store.fuel = l.store.fuel.add d from rfl, hadd]
    cases pay l.store.fuel with
    | error code => exact .inr rfl
    | ok left => exact hx d { l with store := { l.store with fuel := left } }

lemma tame_pay {pay : Fuel → Except TrapCode Fuel} (hpay : Pays Fuel.add pay) {x : LocalM T α}
    (hx : Tame x) :
    Tame (do
      let fuel ← liftTrap (pay (← get).store.fuel)
      setFuel fuel
      x) := by
  refine ⟨?_, fuelBlind_pay hpay hx.fuel⟩
  refine Keeps.get.bind fun l => (readOnly_liftTrap _).keeps.bind fun fuel => ?_
  exact Keeps.bind (Keeps.modify fun _ => rfl) fun _ => hx.shape

lemma tame_executeConsumeFuel (blockFuel : Nat) :
    Tame (executeConsumeFuel blockFuel : LocalM T Unit) :=
  tame_pay (pays_consumeFuelUnchecked blockFuel) tame_nextInstr

lemma tame_executeRefFunc (result : Reg) (funcIndex : Nat) :
    Tame (executeRefFunc result funcIndex : LocalM T Unit) :=
  (tame_getEntity _ _).bind fun _ => tame_result _ _ 1

/-! ## Numeric operators -/

lemma tame_executeUnary (result input : Reg) (op : UntypedVal → UntypedVal) :
    Tame (executeUnary result input op : LocalM T Unit) :=
  (tame_getRegister _).bind fun _ => tame_result _ _ 1

lemma tame_tryExecuteUnary (result input : Reg) (op : UntypedVal → Except TrapCode UntypedVal) :
    Tame (tryExecuteUnary result input op : LocalM T Unit) := by
  refine (tame_getRegister _).bind fun value => (Tame.liftTrap _).bind fun value => ?_
  exact tame_result _ _ 1

lemma tame_executeBinary (result lhs rhs : Reg) (op : UntypedVal → UntypedVal → UntypedVal) :
    Tame (executeBinary result lhs rhs op : LocalM T Unit) :=
  (tame_getRegister _).bind fun _ => (tame_getRegister _).bind fun _ => tame_result _ _ 1

lemma tame_tryExecuteBinary (result lhs rhs : Reg)
    (op : UntypedVal → UntypedVal → Except TrapCode UntypedVal) :
    Tame (tryExecuteBinary result lhs rhs op : LocalM T Unit) := by
  refine (tame_getRegister _).bind fun lhs => (tame_getRegister _).bind fun rhs => ?_
  exact (Tame.liftTrap _).bind fun value => tame_result _ _ 1

/-! ## Copies and selects -/

lemma tame_executeCopy (result value : Reg) : Tame (executeCopy result value : LocalM T Unit) :=
  (tame_getRegister _).bind fun _ => tame_result _ _ 1

lemma tame_executeCopy2 (results : RegSpan) (value0 value1 : Reg) :
    Tame (executeCopy2 results value0 value1 : LocalM T Unit) := by
  refine (tame_getRegister _).bind fun _ => (tame_getRegister _).bind fun _ => ?_
  exact (tame_setRegister _ _).bind fun _ => tame_result _ _ 1

lemma tame_executeCopySpanImpl (results values : RegSpan) (len : Nat) :
    Tame (executeCopySpanImpl results values len : LocalM T Unit) := by
  refine (tame_spanRegs _ _).bind fun _ => (tame_spanRegs _ _).bind fun _ => ?_
  exact (tame_getRegisters _).bind fun _ => tame_setRegisters _ _

lemma tame_executeCopySpanNonOverlappingImpl (results values : RegSpan) (len : Nat) :
    Tame (executeCopySpanNonOverlappingImpl results values len : LocalM T Unit) := by
  refine (tame_spanRegs _ _).bind fun _ => (tame_spanRegs _ _).bind fun _ => ?_
  exact tame_copyRegisters _ _

lemma tame_executeCopyManyImpl (ip : InstructionPtr) (results : RegSpan) (values : List Reg) :
    Tame (executeCopyManyImpl env ip results values) := by
  refine (tame_registerListAt _).bind fun _ => (tame_getRegisters _).bind fun _ => ?_
  refine (tame_spanRegs _ _).bind fun _ => (tame_setRegisters _ _).bind fun _ => ?_
  exact Tame.pure _

lemma tame_executeCopyManyNonOverlappingImpl (ip : InstructionPtr) (results : RegSpan)
    (values : List Reg) : Tame (executeCopyManyNonOverlappingImpl env ip results values) :=
  (tame_registerListAt _).bind fun _ => (tame_copyRegisters _ _).bind fun _ => Tame.pure _

lemma tame_executeCopyMany (results : RegSpan) (value0 value1 : Reg)
    {copy : Engine T → InstructionPtr → RegSpan → List Reg → LocalM T InstructionPtr}
    (hcopy : ∀ ip results values, Tame (copy env ip results values)) :
    Tame (executeCopyMany env results value0 value1 copy) := by
  refine tame_nextInstr.bind fun _ => Tame.get_bind (fun _ _ => rfl) fun l => (hcopy _ _ _).bind fun ip => ?_
  exact (tame_setIp ip).bind fun _ => tame_nextInstr

lemma tame_executeSelectImpl (result condition : Reg) {lhs rhs : LocalM T UntypedVal}
    (hlhs : Tame lhs) (hrhs : Tame rhs) :
    Tame (executeSelectImpl result condition lhs rhs) := by
  refine (tame_getRegister _).bind fun condition => ?_
  exact Tame.ite (hlhs.bind fun _ => tame_result _ _ 2) (hrhs.bind fun _ => tame_result _ _ 2)

lemma tame_executeSelectRhsReg (result : Reg) {lhs : LocalM T UntypedVal} (hlhs : Tame lhs) :
    Tame (executeSelectRhsReg env result lhs) := by
  refine Tame.bind ?_ fun _ => tame_executeSelectImpl _ _ hlhs (tame_getRegister _)
  refine (tame_fetchParam 1).bind fun word => ?_
  split
  · exact Tame.pure _
  · exact Tame.throw _

lemma tame_fetchRegisterAndImm32 : Tame (fetchRegisterAndImm32 env) := by
  refine (tame_fetchParam 1).bind fun word => ?_
  split
  · exact Tame.pure _
  · exact Tame.throw _

lemma tame_executeSelectRhsImm (result : Reg) {lhs : LocalM T UntypedVal} (hlhs : Tame lhs)
    (rhsOf : AnyConst32 → UntypedVal) : Tame (executeSelectRhsImm env result lhs rhsOf) :=
  tame_fetchRegisterAndImm32.bind fun _ => tame_executeSelectImpl _ _ hlhs (Tame.pure _)

/-! ## Branches -/

lemma tame_branchTo (offset : Int) : Tame (branchTo offset : LocalM T Unit) :=
  Tame.modify (fun _ => ⟨rfl, rfl⟩) fun _ _ => rfl

lemma tame_getRegisterU32 (reg : Reg) : Tame (getRegisterU32 reg : LocalM T Nat) :=
  (tame_getRegister reg).bind fun _ => Tame.pure _

lemma tame_fetchBranchTableOffset (index : Reg) (lenTargets : Nat) :
    Tame (fetchBranchTableOffset index lenTargets : LocalM T Nat) :=
  (tame_getRegisterU32 _).bind fun _ => Tame.pure _

lemma tame_executeBranchTable0 (index : Reg) (lenTargets : Nat) :
    Tame (executeBranchTable0 index lenTargets : LocalM T Unit) :=
  (tame_fetchBranchTableOffset _ _).bind fun _ => tame_nextInstrAt _

lemma tame_branchTableResult (value : UntypedVal) : Tame (branchTableResult env value) := by
  refine tame_word fun target => ?_
  split
  · exact (tame_setRegister _ _).bind fun _ => tame_branchTo _
  · exact Tame.pure _

lemma tame_executeBranchTable1 (index : Reg) (lenTargets : Nat) :
    Tame (executeBranchTable1 env index lenTargets) := by
  refine (tame_fetchBranchTableOffset _ _).bind fun offset => tame_nextInstr.bind fun _ => ?_
  refine tame_word fun word => ?_
  have hjump : ∀ value : UntypedVal,
      Tame (nextInstrAt offset >>= fun _ => branchTableResult env value) :=
    fun value => (tame_nextInstrAt _).bind fun _ => tame_branchTableResult value
  dsimp only
  split
  · exact (tame_getRegister _).bind hjump
  · exact (Tame.pure _).bind hjump
  · exact (Tame.pure _).bind hjump
  · exact (Tame.pure _).bind hjump
  · exact (Tame.throw _).bind hjump

lemma tame_branchTableTarget (regs : List Reg) : Tame (branchTableTarget env regs) := by
  refine tame_word fun target => ?_
  split
  · refine (tame_getRegisters _).bind fun _ => (tame_spanRegs _ _).bind fun _ => ?_
    exact (tame_setRegisters _ _).bind fun _ => tame_branchTo _
  · exact Tame.pure _

lemma tame_executeBranchTable2 (index : Reg) (lenTargets : Nat) :
    Tame (executeBranchTable2 env index lenTargets) := by
  refine (tame_fetchBranchTableOffset _ _).bind fun offset => tame_nextInstr.bind fun _ => ?_
  refine tame_word fun word => ?_
  split
  · exact (tame_nextInstrAt _).bind fun _ => tame_branchTableTarget _
  · exact Tame.throw _

lemma tame_executeBranchTable3 (index : Reg) (lenTargets : Nat) :
    Tame (executeBranchTable3 env index lenTargets) := by
  refine (tame_fetchBranchTableOffset _ _).bind fun offset => tame_nextInstr.bind fun _ => ?_
  refine tame_word fun word => ?_
  split
  · exact (tame_nextInstrAt _).bind fun _ => tame_branchTableTarget _
  · exact Tame.throw _

lemma tame_executeBranchTableSpan (index : Reg) (lenTargets : Nat) :
    Tame (executeBranchTableSpan env index lenTargets) := by
  refine (tame_fetchBranchTableOffset _ _).bind fun offset => tame_nextInstr.bind fun _ => ?_
  refine tame_word fun word => ?_
  split
  · refine (tame_nextInstrAt _).bind fun _ => tame_word fun target => ?_
    split
    · exact (tame_executeCopySpanImpl _ _ _).bind fun _ => tame_branchTo _
    · exact (tame_executeCopySpanNonOverlappingImpl _ _ _).bind fun _ => tame_branchTo _
    · exact Tame.pure _
  · exact Tame.throw _

lemma tame_skipRegisterList (ip : InstructionPtr) : Tame (skipRegisterList env ip) :=
  (Tame.assume _).bind fun _ => Tame.pure _

lemma tame_executeBranchBinop (lhs rhs : Reg) (offset : Int)
    (f : UntypedVal → UntypedVal → Bool) :
    Tame (executeBranchBinop lhs rhs offset f : LocalM T Unit) := by
  refine (tame_getRegister _).bind fun _ => (tame_getRegister _).bind fun _ => ?_
  exact Tame.ite (tame_branchTo _) tame_nextInstr

lemma tame_executeBranchBinopImm (lhs : Reg) (rhs : UntypedVal) (offset : Int)
    (f : UntypedVal → UntypedVal → Bool) :
    Tame (executeBranchBinopImm lhs rhs offset f : LocalM T Unit) :=
  (tame_getRegister _).bind fun _ => Tame.ite (tame_branchTo _) tame_nextInstr

lemma tame_executeBranchCmpFallback (lhs rhs params : Reg) :
    Tame (executeBranchCmpFallback env lhs rhs params) := by
  refine (tame_getRegister _).bind fun _ => (Tame.unwrap _).bind fun _ => ?_
  exact tame_executeBranchBinop _ _ _ _

/-! ## Globals -/

lemma tame_globalCell (global : Nat) : Tame (globalCell global : LocalM T Nat) := by
  unfold globalCell
  split
  · exact Tame.get_bind (fun _ _ => rfl) fun _ => Tame.assume _
  · exact tame_getEntity _ _

lemma tame_executeGlobalGet (result : Reg) (global : Nat) :
    Tame (executeGlobalGet result global : LocalM T Unit) := by
  refine (tame_globalCell _).bind fun _ => (tame_resolve _ _).bind fun _ => ?_
  exact tame_result _ _ 1

lemma tame_executeGlobalSetImpl (global : Nat) (newValue : UntypedVal) :
    Tame (executeGlobalSetImpl global newValue : LocalM T Unit) := by
  refine (tame_globalCell _).bind fun cell => (tame_resolve _ _).bind fun _ => ?_
  refine Tame.bind (tame_modifyStore (fun store => ?_) fun _ _ => rfl) fun _ => tame_nextInstr
  simp only [Store.shape, List.length_set]

/-! ## Loads -/

lemma tame_fetchDefaultMemory :
    Tame (fetchDefaultMemory : LocalM T (Option (Nat × MemoryEntity))) := by
  refine Tame.get_bind (fun _ _ => rfl) fun l => ?_
  split
  · exact Tame.pure _
  · refine Tame.get_bind (fun _ _ => rfl) fun l => (Tame.assume _).bind fun memory => ?_
    split
    · exact Tame.pure _
    · exact Tame.throw _

lemma tame_fetchMemory (memory : Nat) :
    Tame (fetchMemory memory : LocalM T (Option (Nat × MemoryEntity))) := by
  unfold fetchMemory
  split
  · exact tame_fetchDefaultMemory
  · refine (tame_getEntity _ _).bind fun memory => ?_
    exact (tame_resolve _ _).bind fun _ => Tame.pure _

lemma tame_executeLoadExtend (memory : Option (Nat × MemoryEntity)) (result : Reg)
    (address : UntypedVal) (offset : BitVec 32) (op : LoadOp) :
    Tame (executeLoadExtend memory result address offset op : LocalM T Unit) :=
  (Tame.liftTrap _).bind fun _ => tame_setRegister _ _

lemma tame_executeLoad (result : Reg) (memory : Nat) (op : LoadOp) :
    Tame (executeLoad env result memory op) := by
  refine tame_fetchRegisterAndImm32.bind fun _ => (tame_getRegister _).bind fun address => ?_
  refine (tame_fetchMemory _).bind fun memory => ?_
  exact (tame_executeLoadExtend _ _ _ _ _).bind fun _ => tame_nextInstrAt 2

lemma tame_fetchOptionalMemory : Tame (fetchOptionalMemory env) := by
  refine (tame_fetchParam 1).bind fun word => ?_
  split
  · exact tame_nextInstr.bind fun _ => Tame.pure _
  · exact Tame.pure _

lemma tame_executeLoadAt (result : Reg) (address : BitVec 32) (op : LoadOp) :
    Tame (executeLoadAt env result address op) := by
  refine tame_fetchOptionalMemory.bind fun memory => (tame_fetchMemory _).bind fun memory => ?_
  exact (tame_executeLoadExtend _ _ _ _ _).bind fun _ => tame_nextInstr

lemma tame_executeLoadOffset16 (result ptr : Reg) (offset : Const16) (op : LoadOp) :
    Tame (executeLoadOffset16 result ptr offset op : LocalM T Unit) := by
  refine (tame_getRegister _).bind fun address => tame_fetchDefaultMemory.bind fun memory => ?_
  exact (tame_executeLoadExtend _ _ _ _ _).bind fun _ => tame_nextInstr

end Local

end Executor

end MotokoDebugger
