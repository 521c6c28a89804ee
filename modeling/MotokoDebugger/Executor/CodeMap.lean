import Mathlib.Data.List.Basic
import MotokoDebugger.Lib.Runs
import MotokoDebugger.Lib.Tables
import MotokoDebugger.Store

/-!
# Lazy compilation

`engine/code_map.rs`: the entity of one function and the calls of `CodeMap::get` for it. A step is
what a call does under one lock, or its compilation, for which it holds none. The translation of a
body, with its validation, is a parameter.

* `Get`: where a call of `CodeMap::get` is. `CodeMap.act`: a call begins, or one makes a step.
* `CodeMap.Holds`: the invariant of all interleavings.
* `CodeMap.Retryable`: lack of fuel is no failure to compile.
* `lazyCompilation_exact`: a function is compiled at most once; where no call lacks fuel for the
  compilation, it stays retryable.
-/

namespace MotokoDebugger

open Runs

/-! ## The entity of a function -/

/-- `UncompiledFuncEntity`: the index and the module of the function are left to the
translation. -/
structure UncompiledFuncEntity where
  bytes : List Byte
  needsValidation : Bool
deriving Repr, DecidableEq

namespace UncompiledFuncEntity

/-- `compilation_fuel`, with 64 bits. -/
def compilationFuel (entity : UncompiledFuncEntity) : Nat :=
  let compileFactor := if entity.needsValidation then 9 else 7
  min (entity.bytes.length * compileFactor) (2 ^ 64 - 1)

end UncompiledFuncEntity

namespace CodeMap

/-- `FuncEntity` of the code map. -/
inductive FuncEntity (C : Type) where
  | uninit
  | uncompiled (entity : UncompiledFuncEntity)
  | compiling
  | failedToCompile
  | compiled (entity : C)

/-- The errors of `CodeMap::get`: those of the translation of a body, and a panic. -/
inductive GetError (E : Type) where
  | outOfFuel
  | translation (error : E)
  | lazyCompilationFailed
  | panic

/-- Where a call of `CodeMap::get` is: before `get_compiled`, before `get_uncompiled`, in
`UncompiledFuncEntity::compile`, before the lock after it, in `wait_for_compilation`, or back. -/
inductive GetState (E C : Type) where
  | start
  | compileOrWait
  | compile (entity : UncompiledFuncEntity)
  | finish (compiledFunc : Except (GetError E) C)
  | wait
  | done (result : Except (GetError E) C)

/-- Has the call taken the body of the function? -/
def GetState.isCompiling {E C : Type} : GetState E C → Bool
  | .compile _ | .finish _ => true
  | _ => false

/-- A call of `CodeMap::get` with its fuel. -/
structure Get (E C : Type) where
  fuel : Option Fuel
  state : GetState E C

section Steps

variable {E C : Type} (translate : UncompiledFuncEntity → Except E C)

/-- `UncompiledFuncEntity::compile`. -/
def compile (fuel : Option Fuel) (entity : UncompiledFuncEntity) :
    Except (GetError E) C × Option Fuel :=
  let compiled := (translate entity).mapError .translation
  match fuel with
  | none => (compiled, none)
  | some fuel =>
    match fuel.consumeFuel fun _ => entity.compilationFuel with
    | .error .outOfFuel => (.error .outOfFuel, some fuel)
    | .error .fuelMeteringDisabled => (compiled, some fuel)
    | .ok fuel => (compiled, some fuel)

/-- A step of a call: the entity and the call after it. A call that is back makes none. -/
def advance (entity : FuncEntity C) (call : Get E C) : Option (FuncEntity C × Get E C) :=
  match call.state with
  | .start =>
    match entity with
    | .compiled code => some (entity, { call with state := .done (.ok code) })
    | _ => some (entity, { call with state := .compileOrWait })
  | .compileOrWait =>
    match entity with
    | .uncompiled func => some (.compiling, { call with state := .compile func })
    | _ => some (entity, { call with state := .wait })
  | .compile func =>
    let compiled := compile translate call.fuel func
    some (entity, { fuel := compiled.2, state := .finish compiled.1 })
  | .finish compiledFunc =>
    match entity, compiledFunc with
    | .compiling, .ok code => some (.compiled code, { call with state := .done (.ok code) })
    | .compiling, .error error =>
      some (.failedToCompile, { call with state := .done (.error error) })
    | _, _ => some (entity, { call with state := .done (.error .panic) })
  | .wait =>
    match entity with
    | .compiling => some (entity, call)
    | .compiled code => some (entity, { call with state := .done (.ok code) })
    | .failedToCompile => some (entity, { call with state := .done (.error .lazyCompilationFailed) })
    | _ => some (entity, { call with state := .done (.error .panic) })
  | .done _ => none

/-- A function with the calls of `CodeMap::get` for it, and how often it was compiled. -/
structure State (E C : Type) where
  entity : FuncEntity C
  calls : List (Get E C)
  compilations : Nat

/-- A function that is not yet compiled, before all calls. -/
def State.init (func : UncompiledFuncEntity) : State E C := ⟨.uncompiled func, [], 0⟩

/-- Is a compilation successful in this step? -/
def GetState.compiles : GetState E C → Bool
  | .finish (.ok _) => true
  | _ => false

/-- A new call begins, or the call at an index makes a step. -/
inductive Action where
  | get (fuel : Option Fuel)
  | run (index : Nat)

def act (s : State E C) : Action → Option (State E C)
  | .get fuel => some { s with calls := s.calls ++ [⟨fuel, .start⟩] }
  | .run index => do
    let call ← s.calls[index]?
    let next ← advance translate s.entity call
    return {
      entity := next.1
      calls := s.calls.set index next.2
      compilations := s.compilations + if call.state.compiles then 1 else 0 }

/-! ## What is claimed of a function -/

/-- Is the fuel of a call enough to compile the function? -/
def Suffices (fuel : Option Fuel) (func : UncompiledFuncEntity) : Prop :=
  ∀ available, fuel = some available → available.enabled = true →
    func.compilationFuel ≤ available.remaining

/-- An action of a run. -/
def Acts (s s' : State E C) : Prop := ∃ action, act translate s action = some s'

/-- An action of a run in which no call compiles without enough fuel. -/
def ActsWithFuel (s s' : State E C) : Prop :=
  ∃ action, act translate s action = some s' ∧ ∀ index call func, action = .run index →
    s.calls[index]? = some call → call.state = .compile func → Suffices call.fuel func

/-- The function is compiled at most once, and every call that succeeds returns its code. -/
structure CompiledOnce (func : UncompiledFuncEntity) (s : State E C) : Prop where
  once : s.compilations ≤ 1
  same : ∀ call ∈ s.calls, ∀ code, call.state = .done (.ok code) → translate func = .ok code

/-- A call that begins now, with this fuel, comes back with the code when it runs alone. -/
def ReturnsCode (s : State E C) (fuel : Option Fuel) (code : C) : Prop :=
  ∃ n s', Steps (fun a b => act translate a (.run s.calls.length) = some b) n
      { s with calls := s.calls ++ [⟨fuel, .start⟩] } s' ∧
    ∃ call, s'.calls[s.calls.length]? = some call ∧ call.state = .done (.ok code)

/-- Whatever calls have failed: unless a call is compiling, a further one with enough fuel returns
the code, if there is one, and a failure to compile is one of the translation. -/
structure Retryable (func : UncompiledFuncEntity) (s : State E C) : Prop extends
    CompiledOnce translate func s where
  retry : (∃ call ∈ s.calls, call.state.isCompiling = true) ∨
    ∀ code, translate func = .ok code → ∀ fuel, Suffices fuel func →
      ReturnsCode translate s fuel code
  failures : ∀ call ∈ s.calls, ∀ error, call.state = .done (.error error) →
    error = .outOfFuel ∨ ∃ error, translate func = .error error

end Steps

/-! ## The invariant -/

section Invariant

variable {E C : Type} {translate : UncompiledFuncEntity → Except E C} {F : Prop}
  {func : UncompiledFuncEntity} {s s' : State E C} {call call' : Get E C} {index : Nat}

/-- What an error says: `F` if fuel may be lacking. -/
def Explained (translate : UncompiledFuncEntity → Except E C) (F : Prop)
    (func : UncompiledFuncEntity) : GetError E → Prop
  | .outOfFuel => F
  | .translation error => translate func = .error error
  | .lazyCompilationFailed => F ∨ ∃ error, translate func = .error error
  | .panic => False

/-- What the entity says of the function. -/
def EntityFits (translate : UncompiledFuncEntity → Except E C) (F : Prop)
    (func : UncompiledFuncEntity) (compilations : Nat) : FuncEntity C → Prop
  | .uninit => False
  | .uncompiled entity => entity = func ∧ compilations = 0
  | .compiling => compilations = 0
  | .failedToCompile => compilations = 0 ∧ (F ∨ ∃ error, translate func = .error error)
  | .compiled code => compilations = 1 ∧ translate func = .ok code

/-- What the state of a call says of the function and its entity. -/
def Fits (translate : UncompiledFuncEntity → Except E C) (F : Prop) (func : UncompiledFuncEntity)
    (entity : FuncEntity C) : GetState E C → Prop
  | .start | .compileOrWait => True
  | .compile entity' => entity' = func ∧ entity = .compiling
  | .finish (.ok code) => translate func = .ok code ∧ entity = .compiling
  | .finish (.error error) => Explained translate F func error ∧ entity = .compiling
  | .wait => ∀ entity', entity ≠ .uncompiled entity'
  | .done (.ok code) => translate func = .ok code
  | .done (.error error) => Explained translate F func error

/-- The invariant: at most one call compiles, and one does while the entity says so. -/
structure Holds (translate : UncompiledFuncEntity → Except E C) (F : Prop)
    (func : UncompiledFuncEntity) (s : State E C) : Prop where
  entity : EntityFits translate F func s.compilations s.entity
  calls : ∀ {index : Nat} {call : Get E C}, s.calls[index]? = some call → Fits translate F func s.entity call.state
  single : ∀ {index index' : Nat} {call call' : Get E C}, s.calls[index]? = some call →
    s.calls[index']? = some call' → call.state.isCompiling = true →
    call'.state.isCompiling = true → index = index'
  driven : s.entity = .compiling → ∃ (index : Nat) (call : Get E C),
    s.calls[index]? = some call ∧ call.state.isCompiling = true

/-- Who compiles has set the entity to that. -/
lemma Fits.compiling {entity : FuncEntity C} {state : GetState E C}
    (h : Fits translate F func entity state) (hstate : state.isCompiling = true) :
    entity = .compiling := by
  cases state with
  | compile entity' => exact h.2
  | finish result =>
    cases result with
    | ok code => exact h.2
    | error error => exact h.2
  | start | compileOrWait | wait | done => cases hstate

/-- A call that does not compile fits every entity but an uncompiled one. -/
lemma Fits.change {entity entity' : FuncEntity C} {state : GetState E C}
    (h : Fits translate F func entity state) (hstate : state.isCompiling = false)
    (hentity : ∀ func, entity' ≠ .uncompiled func) : Fits translate F func entity' state := by
  cases state with
  | compile entity' => cases hstate
  | finish result => cases hstate
  | wait => exact hentity
  | start | compileOrWait => trivial
  | done result =>
    cases result with
    | ok code => exact h
    | error error => exact h

lemma Holds.init : Holds translate F func (State.init func) where
  entity := ⟨rfl, rfl⟩
  calls h := by cases h
  single h := by cases h
  driven h := by cases h

lemma getElem?_set_eq_some {l : List (Get E C)} {i j : Nat} {a b c : Get E C}
    (hold : l[i]? = some c) : (l.set i a)[j]? = some b ↔ i = j ∧ a = b ∨ i ≠ j ∧ l[j]? = some b := by
  rw [List.getElem?_set]
  have hlt := (List.getElem?_eq_some_iff.1 hold).1
  by_cases hij : i = j
  · subst hij
    simp [hlt]
  · simp [hij]

/-- A step that leaves the entity as it is. -/
lemma Holds.keep (h : Holds translate F func s) (hcall : s.calls[index]? = some call)
    (hfits : Fits translate F func s.entity call'.state)
    (hcompiling : call'.state.isCompiling = call.state.isCompiling) :
    Holds translate F func { s with calls := s.calls.set index call' } where
  entity := h.entity
  calls {i other} hother := by
    obtain ⟨-, rfl⟩ | ⟨-, hother⟩ := (getElem?_set_eq_some hcall).1 hother
    · exact hfits
    · exact h.calls hother
  single {i j a b} ha hb hastate hbstate := by
    -- the call at `index` compiles iff it did before
    have hold : ∀ {k : Nat} {c : Get E C}, (s.calls.set index call')[k]? = some c → c.state.isCompiling = true →
        ∃ c', s.calls[k]? = some c' ∧ c'.state.isCompiling = true := by
      intro k c hc hstate
      obtain ⟨rfl, rfl⟩ | ⟨-, hc⟩ := (getElem?_set_eq_some hcall).1 hc
      · exact ⟨call, hcall, hcompiling ▸ hstate⟩
      · exact ⟨c, hc, hstate⟩
    obtain ⟨a', ha', hastate'⟩ := hold ha hastate
    obtain ⟨b', hb', hbstate'⟩ := hold hb hbstate
    exact h.single ha' hb' hastate' hbstate'
  driven hentity := by
    obtain ⟨i, c, hc, hstate⟩ := h.driven hentity
    by_cases hi : index = i
    · subst hi
      rw [hcall] at hc
      cases hc
      exact ⟨index, call', (getElem?_set_eq_some hcall).2 (.inl ⟨rfl, rfl⟩), hcompiling.trans hstate⟩
    · exact ⟨i, c, (getElem?_set_eq_some hcall).2 (.inr ⟨hi, hc⟩), hstate⟩

/-- A step that changes the entity; the other calls do not compile. -/
lemma Holds.change (h : Holds translate F func s) (hcall : s.calls[index]? = some call)
    {entity : FuncEntity C} {compilations : Nat}
    (hothers : ∀ {i : Nat} {other : Get E C}, i ≠ index → s.calls[i]? = some other →
      other.state.isCompiling = false)
    (hentity : EntityFits translate F func compilations entity)
    (hne : ∀ func, entity ≠ .uncompiled func)
    (hfits : Fits translate F func entity call'.state)
    (hcompiling : entity = .compiling → call'.state.isCompiling = true) :
    Holds translate F func ⟨entity, s.calls.set index call', compilations⟩ where
  entity := hentity
  calls {i other} hother := by
    obtain ⟨-, rfl⟩ | ⟨hi, hother⟩ := (getElem?_set_eq_some hcall).1 hother
    · exact hfits
    · exact (h.calls hother).change (hothers (Ne.symm hi) hother) hne
  single {i j a b} ha hb hastate hbstate := by
    have hself : ∀ {k : Nat} {c : Get E C}, (s.calls.set index call')[k]? = some c → c.state.isCompiling = true →
        index = k := by
      intro k c hc hstate
      obtain ⟨rfl, -⟩ | ⟨hk, hc⟩ := (getElem?_set_eq_some hcall).1 hc
      · rfl
      · rw [hothers (Ne.symm hk) hc] at hstate
        cases hstate
    exact (hself ha hastate).symm.trans (hself hb hbstate)
  driven heq :=
    ⟨index, call', (getElem?_set_eq_some hcall).2 (.inl ⟨rfl, rfl⟩), hcompiling heq⟩

/-- A compilation runs out of fuel, or comes back with what the translation returns. -/
lemma compile_eq (fuel : Option Fuel) :
    ((compile translate fuel func).1 = .error .outOfFuel ∧ ¬Suffices fuel func) ∨
      (∃ code, (compile translate fuel func).1 = .ok code ∧ translate func = .ok code) ∨
      ∃ error, (compile translate fuel func).1 = .error (.translation error) ∧
        translate func = .error error := by
  have hcompiled : (∃ code, (translate func).mapError GetError.translation = .ok code ∧
      translate func = .ok code) ∨
      ∃ error, (translate func).mapError GetError.translation = .error (.translation error) ∧
        translate func = .error error := by
    cases htranslate : translate func with
    | ok code => exact .inl ⟨code, rfl, rfl⟩
    | error error => exact .inr ⟨error, rfl, rfl⟩
  cases fuel with
  | none => exact .inr hcompiled
  | some fuel =>
    cases hfuel : fuel.consumeFuel fun _ => func.compilationFuel with
    | ok fuel' =>
      right
      simpa only [compile, hfuel] using hcompiled
    | error error =>
      cases error with
      | fuelMeteringDisabled =>
        right
        simpa only [compile, hfuel] using hcompiled
      | outOfFuel =>
        left
        refine ⟨by simp only [compile, hfuel], ?_⟩
        intro hsuffices
        rw [Fuel.consumeFuel] at hfuel
        split at hfuel
        case isTrue henabled =>
          have hle := hsuffices fuel rfl henabled
          rw [Fuel.consumeFuelUnchecked, if_pos hle] at hfuel
          cases hfuel
        case isFalse => cases hfuel

/-- Compiling: the call keeps the body, and its result says what the translation does. -/
lemma Holds.compile (h : Holds translate F func s) (hcall : s.calls[index]? = some call)
    (hstate : call.state = .compile func) (hfuel : F ∨ Suffices call.fuel func) :
    Holds translate F func ⟨s.entity, s.calls.set index
      ⟨(CodeMap.compile translate call.fuel func).2,
        .finish (CodeMap.compile translate call.fuel func).1⟩, s.compilations⟩ := by
  have hcompiling : s.entity = .compiling := by
    apply (h.calls hcall).compiling
    rw [hstate]
    rfl
  apply h.keep hcall
  · obtain ⟨hout, hlacks⟩ | ⟨code, hok, htranslate⟩ | ⟨error, herror, htranslate⟩ :=
      @compile_eq E C translate func call.fuel
    · rw [hout]
      exact ⟨hfuel.resolve_right hlacks, hcompiling⟩
    · rw [hok]
      exact ⟨htranslate, hcompiling⟩
    · rw [herror]
      exact ⟨htranslate, hcompiling⟩
  · rw [hstate]
    rfl

/-- Coming back from the compilation: no other call is compiling. -/
lemma Holds.finish (h : Holds translate F func s) (hcall : s.calls[index]? = some call)
    {compiledFunc : Except (GetError E) C} (hstate : call.state = .finish compiledFunc)
    {entity : FuncEntity C} {next : Get E C}
    (hadvance : advance translate s.entity call = some (entity, next)) :
    Holds translate F func ⟨entity, s.calls.set index next,
      s.compilations + if call.state.compiles then 1 else 0⟩ := by
  have hfits := h.calls hcall
  have hbusy : call.state.isCompiling = true := by
    rw [hstate]
    rfl
  have hcompiling := hfits.compiling hbusy
  have hothers : ∀ {i : Nat} {other : Get E C}, i ≠ index → s.calls[i]? = some other →
      other.state.isCompiling = false := by
    intro i other hne hother
    by_contra hnot
    exact hne (h.single hother hcall (by simpa using hnot) hbusy)
  have hzero : s.compilations = 0 := by
    have hentity := h.entity
    rw [hcompiling] at hentity
    exact hentity
  rw [hstate] at hfits
  unfold advance at hadvance
  rw [hstate, hcompiling] at hadvance
  cases compiledFunc with
  | ok code =>
    cases hadvance
    rw [hstate, hzero]
    apply h.change hcall hothers _ (by simp)
    · exact hfits.1
    · simp
    · exact ⟨rfl, hfits.1⟩
  | error error =>
    cases hadvance
    rw [hstate, hzero]
    apply h.change hcall hothers _ (by simp)
    · exact hfits.1
    · simp
    refine ⟨rfl, ?_⟩
    have hexplained := hfits.1
    cases error with
    | outOfFuel => exact .inl hexplained
    | translation error => exact .inr ⟨error, hexplained⟩
    | lazyCompilationFailed => exact hexplained
    | panic => exact hexplained.elim

/-- A step of a call keeps the invariant; only a compilation needs fuel. -/
lemma Holds.advance (h : Holds translate F func s) (hcall : s.calls[index]? = some call)
    (hfuel : call.state = .compile func → F ∨ Suffices call.fuel func)
    {entity : FuncEntity C} {next : Get E C}
    (hadvance : advance translate s.entity call = some (entity, next)) :
    Holds translate F func ⟨entity, s.calls.set index next,
      s.compilations + if call.state.compiles then 1 else 0⟩ := by
  have hfits := h.calls hcall
  have hentity := h.entity
  cases hstate : call.state with
  | finish compiledFunc =>
    rw [← hstate]
    exact h.finish hcall hstate hadvance
  | compile body =>
    rw [hstate] at hfits
    obtain ⟨rfl, -⟩ := hfits
    unfold CodeMap.advance at hadvance
    rw [hstate] at hadvance
    cases hadvance
    exact h.compile hcall hstate (hfuel hstate)
  | compileOrWait =>
    unfold CodeMap.advance at hadvance
    rw [hstate] at hadvance
    cases hbefore : s.entity with
    | uncompiled body =>
      rw [hbefore] at hadvance hentity
      cases hadvance
      apply h.change hcall
      · intro i other _ hother
        by_contra hnot
        have hcompiling := (h.calls hother).compiling (by simpa using hnot)
        rw [hbefore] at hcompiling
        cases hcompiling
      · exact hentity.2
      · simp
      · exact ⟨hentity.1, rfl⟩
      · simp [GetState.isCompiling]
    | uninit | compiling | failedToCompile | compiled =>
      rw [hbefore] at hadvance
      cases hadvance
      rw [← hbefore]
      apply h.keep hcall
      · rw [hbefore]
        simp [Fits]
      · rw [hstate]
        rfl
  | start =>
    unfold CodeMap.advance at hadvance
    rw [hstate] at hadvance
    cases hbefore : s.entity with
    | compiled code =>
      rw [hbefore] at hadvance hentity
      cases hadvance
      rw [← hbefore]
      apply h.keep hcall
      · exact hentity.2
      · rw [hstate]
        rfl
    | uninit | uncompiled | compiling | failedToCompile =>
      rw [hbefore] at hadvance
      cases hadvance
      rw [← hbefore]
      apply h.keep hcall
      · trivial
      · rw [hstate]
        rfl
  | wait =>
    rw [hstate] at hfits
    unfold CodeMap.advance at hadvance
    rw [hstate] at hadvance
    cases hbefore : s.entity with
    | compiling =>
      rw [hbefore] at hadvance
      cases hadvance
      rw [← hbefore]
      apply h.keep hcall _ rfl
      rw [hstate]
      exact hfits
    | compiled code =>
      rw [hbefore] at hadvance hentity
      cases hadvance
      rw [← hbefore]
      apply h.keep hcall
      · exact hentity.2
      · rw [hstate]
        rfl
    | failedToCompile =>
      rw [hbefore] at hadvance hentity
      cases hadvance
      rw [← hbefore]
      apply h.keep hcall
      · exact hentity.2
      · rw [hstate]
        rfl
    | uninit =>
      rw [hbefore] at hentity
      exact hentity.elim
    | uncompiled body => exact absurd hbefore (hfits body)
  | done result =>
    unfold CodeMap.advance at hadvance
    rw [hstate] at hadvance
    cases hadvance

lemma Holds.get (h : Holds translate F func s) (fuel : Option Fuel) :
    Holds translate F func { s with calls := s.calls ++ [⟨fuel, .start⟩] } where
  entity := h.entity
  calls {i other} hother := by
    obtain hother | ⟨-, rfl⟩ := Tables.getElem?_concat_eq_some.1 hother
    · exact h.calls hother
    · trivial
  single {i j a b} ha hb hastate hbstate := by
    obtain ha | ⟨-, rfl⟩ := Tables.getElem?_concat_eq_some.1 ha
    · obtain hb | ⟨-, rfl⟩ := Tables.getElem?_concat_eq_some.1 hb
      · exact h.single ha hb hastate hbstate
      · cases hbstate
    · cases hastate
  driven hentity := by
    obtain ⟨i, c, hc, hstate⟩ := h.driven hentity
    exact ⟨i, c, Tables.getElem?_concat_eq_some.2 (.inl hc), hstate⟩

/-- An action keeps the invariant. -/
lemma Holds.act (h : Holds translate F func s) {action : Action}
    (hact : act translate s action = some s')
    (hfuel : ∀ index call, action = .run index → s.calls[index]? = some call →
      call.state = .compile func → F ∨ Suffices call.fuel func) : Holds translate F func s' := by
  cases action with
  | get fuel =>
    cases hact
    exact h.get fuel
  | run index =>
    obtain ⟨call, hcall, hact⟩ := Option.bind_eq_some_iff.1 hact
    obtain ⟨next, hnext, hact⟩ := Option.bind_eq_some_iff.1 hact
    cases hact
    exact h.advance hcall (hfuel index call rfl hcall) hnext

end Invariant

/-! ## What holds of a function -/

section Results

variable {E C : Type} {translate : UncompiledFuncEntity → Except E C} {F : Prop}
  {func : UncompiledFuncEntity} {s : State E C}

lemma Holds.compiledOnce (h : Holds translate F func s) : CompiledOnce translate func s where
  once := by
    have hentity := h.entity
    cases hbefore : s.entity with
    | uninit =>
      rw [hbefore] at hentity
      exact hentity.elim
    | uncompiled body =>
      rw [hbefore] at hentity
      have hzero : s.compilations = 0 := hentity.2
      omega
    | compiling =>
      rw [hbefore] at hentity
      have hzero : s.compilations = 0 := hentity
      omega
    | failedToCompile =>
      rw [hbefore] at hentity
      have hzero : s.compilations = 0 := hentity.1
      omega
    | compiled code =>
      rw [hbefore] at hentity
      exact Nat.le_of_eq hentity.1
  same call hcall code hstate := by
    obtain ⟨index, hindex⟩ := List.getElem?_of_mem hcall
    have hfits := h.calls hindex
    rw [hstate] at hfits
    exact hfits

/-- The last call makes a step. -/
lemma act_last {entity entity' : FuncEntity C} {calls : List (Get E C)} {call call' : Get E C}
    {compilations : Nat} (hadvance : advance translate entity call = some (entity', call')) :
    act translate ⟨entity, calls ++ [call], compilations⟩ (.run calls.length) =
      some ⟨entity', calls ++ [call'],
        compilations + if call.state.compiles then 1 else 0⟩ := by
  rw [act, List.getElem?_concat_length]
  simp only [Option.bind_eq_bind, Option.bind_some, hadvance]
  simp

/-- A call that runs alone returns the code of a function that is compiled or can be. -/
lemma returnsCode {code : C} (hcode : translate func = .ok code) {fuel : Option Fuel}
    (hfuel : Suffices fuel func)
    (hentity : s.entity = .uncompiled func ∨ s.entity = .compiled code) :
    ReturnsCode translate s fuel code := by
  obtain ⟨entity, calls, compilations⟩ := s
  obtain rfl | rfl := hentity
  · obtain ⟨-, hlacks⟩ | ⟨code', hok, htranslate⟩ | ⟨error, -, htranslate⟩ :=
      @compile_eq E C translate func fuel
    · exact absurd hfuel hlacks
    · rw [hcode] at htranslate
      cases htranslate
      have hcompile : advance translate (.compiling : FuncEntity C) ⟨fuel, .compile func⟩ =
          some (.compiling, ⟨(compile translate fuel func).2, .finish (.ok code)⟩) := by
        rw [← hok]
        rfl
      refine ⟨4, ⟨.compiled code,
        calls ++ [⟨(compile translate fuel func).2, .done (.ok code)⟩], compilations + 1⟩, ?_, _,
        List.getElem?_concat_length, rfl⟩
      exact Steps.head (act_last rfl) <| Steps.head (act_last rfl) <|
        Steps.head (act_last hcompile) <| Steps.one (act_last rfl)
    · rw [hcode] at htranslate
      cases htranslate
  · refine ⟨1, ⟨.compiled code, calls ++ [⟨fuel, .done (.ok code)⟩], compilations⟩, ?_, _,
      List.getElem?_concat_length, rfl⟩
    exact Steps.one (act_last rfl)

/-- Where fuel is never lacking, the function stays retryable. -/
lemma Holds.retryable (h : Holds translate False func s) : Retryable translate func s where
  toCompiledOnce := h.compiledOnce
  retry := by
    by_cases hcompiling : s.entity = .compiling
    · obtain ⟨index, call, hcall, hstate⟩ := h.driven hcompiling
      exact .inl ⟨call, List.mem_of_getElem? hcall, hstate⟩
    right
    intro code hcode fuel hfuel
    apply returnsCode hcode hfuel
    have hentity := h.entity
    cases hbefore : s.entity with
    | uninit =>
      rw [hbefore] at hentity
      exact hentity.elim
    | uncompiled body =>
      rw [hbefore] at hentity
      rw [hentity.1]
      exact .inl rfl
    | compiling => exact absurd hbefore hcompiling
    | failedToCompile =>
      rw [hbefore] at hentity
      obtain ⟨-, hfalse | ⟨error, herror⟩⟩ := hentity
      · exact hfalse.elim
      · rw [hcode] at herror
        cases herror
    | compiled code' =>
      rw [hbefore] at hentity
      have hsame := hentity.2
      rw [hcode] at hsame
      cases hsame
      exact .inr rfl
  failures call hcall error hstate := by
    obtain ⟨index, hindex⟩ := List.getElem?_of_mem hcall
    have hfits := h.calls hindex
    rw [hstate] at hfits
    cases error with
    | outOfFuel => exact .inl rfl
    | translation error => exact .inr ⟨error, hfits⟩
    | lazyCompilationFailed => exact .inr (hfits.resolve_left id)
    | panic => exact hfits.elim

end Results

/-- In every interleaving of calls, whatever fuel they have, a function is compiled at most once
and every call that succeeds returns its code. Where no call starts to compile with too little
fuel, a later call with enough fuel returns the code, and no call reports a failure that is not one
of the translation. -/
theorem lazyCompilation_exact {E C : Type} (translate : UncompiledFuncEntity → Except E C)
    (func : UncompiledFuncEntity) (n : Nat) (s : State E C) :
    (Steps (Acts translate) n (State.init func) s → CompiledOnce translate func s) ∧
      (Steps (ActsWithFuel translate) n (State.init func) s → Retryable translate func s) := by
  constructor
  · intro hrun
    have hinit : Holds translate True func (State.init func) := Holds.init
    refine (hrun.invariant ?_ hinit).compiledOnce
    intro a b ⟨action, hact⟩ h
    exact h.act hact fun _ _ _ _ _ => .inl trivial
  · intro hrun
    have hinit : Holds translate False func (State.init func) := Holds.init
    refine (hrun.invariant ?_ hinit).retryable
    intro a b ⟨action, hact, hfuel⟩ h
    exact h.act hact fun index call heq hcall hstate =>
      .inr (hfuel index call func heq hcall hstate)

/-- A call without a limit of fuel compiles the function and comes back. -/
theorem lazyCompilation_exact_single : ∃ s : State Unit Nat,
    s.calls.map (·.state) = [.done (.ok 7)] ∧ Retryable (fun _ => .ok 7) ⟨[0, 11], true⟩ s := by
  have hrun : ∀ {s s' : State Unit Nat}, act (fun _ => .ok 7) s (.run 0) = some s' →
      (∀ call ∈ s.calls, call.fuel = none) → ActsWithFuel (fun _ => .ok 7) s s' := by
    intro s s' hact hfuel
    refine ⟨.run 0, hact, ?_⟩
    intro index call func _ hcall _ available hsome
    rw [hfuel call (List.mem_of_getElem? hcall)] at hsome
    cases hsome
  have hget : ActsWithFuel (fun _ => .ok 7) (State.init ⟨[0, 11], true⟩ : State Unit Nat)
      ⟨.uncompiled ⟨[0, 11], true⟩, [⟨none, .start⟩], 0⟩ := by
    refine ⟨.get none, rfl, ?_⟩
    intro index call func heq
    cases heq
  have hsteps : Steps (ActsWithFuel (fun _ => .ok 7)) 5
      (State.init ⟨[0, 11], true⟩ : State Unit Nat) ⟨.compiled 7, [⟨none, .done (.ok 7)⟩], 1⟩ :=
    Steps.head hget <| Steps.head (hrun rfl (by simp)) <| Steps.head (hrun rfl (by simp)) <|
      Steps.head (hrun rfl (by simp)) <| Steps.one (hrun rfl (by simp [compile]))
  exact ⟨_, rfl, (lazyCompilation_exact _ _ _ _).2 hsteps⟩

/-- The first call has no fuel, which the second one is told is a failure to compile. -/
theorem lackOfFuel_fails_for_good :
    ¬∀ (translate : UncompiledFuncEntity → Except Unit Nat) (func : UncompiledFuncEntity) (n : Nat)
      (s : State Unit Nat), Steps (Acts translate) n (State.init func) s →
        Retryable translate func s := by
  intro h
  have hact : ∀ {s s' : State Unit Nat} (action : Action),
      act (fun _ => .ok 7) s action = some s' → Acts (fun _ => .ok 7) s s' :=
    fun action hact => ⟨action, hact⟩
  let fuel : Option Fuel := some ⟨0, true, ⟨1, 64, 64⟩⟩
  have hsteps : Steps (Acts (fun _ => .ok 7)) 9
      (State.init ⟨[0, 11], true⟩ : State Unit Nat)
      ⟨.failedToCompile, [⟨fuel, .done (.error .outOfFuel)⟩,
        ⟨none, .done (.error .lazyCompilationFailed)⟩], 0⟩ :=
    Steps.head (hact (.get fuel) rfl) <| Steps.head (hact (.run 0) rfl) <|
      Steps.head (hact (.run 0) rfl) <| Steps.head (hact (.run 0) rfl) <|
      Steps.head (hact (.run 0) rfl) <| Steps.head (hact (.get none) rfl) <|
      Steps.head (hact (.run 1) rfl) <| Steps.head (hact (.run 1) rfl) <|
      Steps.one (hact (.run 1) rfl)
  have hfailures := (h _ _ _ _ hsteps).failures ⟨none, .done (.error .lazyCompilationFailed)⟩
    (by simp) .lazyCompilationFailed rfl
  obtain heq | ⟨error, herror⟩ := hfailures
  · cases heq
  · cases herror

end CodeMap

end MotokoDebugger
