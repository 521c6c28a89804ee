import MotokoDebugger.Executor.Stack
import MotokoDebugger.Lib.StateExcept

/-!
# The state of the executor

* `Engine`: what an execution reads but never changes.
* `Machine`: the executor with its stacks and its store. `ExecM` is a step of it.
* `Local`: what an instruction sees that neither calls nor returns: the cells of the topmost
  frame, the instruction pointer, the cached instance and the store. `LocalM` is a step of it and
  `stepLocal` runs one on the whole machine.
-/

namespace MotokoDebugger

open StateExcept

/-! ## How an execution stops -/

/-- Why a step does not return: an error of the source, a Rust panic, or a violated safety
contract of an `unsafe` block (`unreachable_unchecked`, a pointer outside of its frame). -/
inductive Stop where
  | fault (error : Error)
  | panic
  | undefined
deriving Repr, DecidableEq

/-- Is the stop an error the source returns? -/
def Stop.IsFault (stop : Stop) : Prop := ∃ error, stop = .fault error

/-- A trap. -/
abbrev Stop.trap (code : TrapCode) : Stop := .fault (.trapCode code)

/-! ## The engine -/

/-- `CallHook`. -/
inductive CallHook where
  | callingWasm | returningFromWasm | callingHost | returningFromHost
deriving Repr, DecidableEq

/-- `FuncType`. -/
structure FuncType where
  params : List ValType
  results : List ValType
deriving Repr, DecidableEq

/-- The read-only context of an execution: the code map of the eagerly compiled functions, the
function types, the host's floating point arithmetic, and what the embedder supplies. A host function gets the
instance it is called from, its parameters and the store. -/
structure Engine (T : Type) where
  codeMap : EngineFunc → CompiledFunc
  funcType : (ty : Nat) → FuncType
  float : FloatOps
  hostCall : (trampoline : Nat) → (inst : Option Nat) → List UntypedVal → Store T →
    Except Error (List UntypedVal) × Store T
  callHook : Option (CallHook → T → Except Error Unit × T)
  limiter : Option (ResourceLimiter T)

/-- An engine for code without floating point operators, whose host functions return their
parameters. -/
def Engine.ofCode {T : Type} (code : List CompiledFunc) (types : List FuncType) : Engine T where
  codeMap func := code.getD func ⟨[], [], 0⟩
  funcType ty := types.getD ty ⟨[], []⟩
  float :=
    { unary := fun _ value => value
      trunc := fun _ value => .ok value
      binary := fun _ lhs _ => lhs
      compare := fun _ _ _ => false }
  hostCall _ _ params store := (.ok params, store)
  callHook := none
  limiter := none

/-! ## The executor -/

/-- `FrameRegisters`: a pointer to the cells of a frame. Its safety contract confines every access
to the cells of that frame, which start at `frame`. -/
abbrev FrameRegisters := StackOffsets

/-- `CachedMemory`: the memory the cached bytes belong to and their number when they were
cached; `none` is the empty slice. -/
structure CachedMemory where
  memory : Nat
  len : Nat
deriving Repr, DecidableEq

/-- `CachedInstance`. -/
structure CachedInstance where
  inst : Nat
  memory : Option CachedMemory
  global : Option Nat
deriving Repr, DecidableEq, Inhabited

/-- The executor (`instrs.rs`) together with the stacks and the store it borrows. -/
structure Machine (T : Type) where
  sp : FrameRegisters
  ip : InstructionPtr
  cache : CachedInstance
  stack : Stack
  store : Store T

/-- A step of the executor. -/
abbrev ExecM (T : Type) := EStateM Stop (Machine T)

/-- What an instruction that neither calls nor returns can see and change. `cells` are the cells
of the frame up to the top of the value stack, `base` is the position of register 0 in them. -/
structure Local (T : Type) where
  cells : List UntypedVal
  base : Nat
  ip : InstructionPtr
  cache : CachedInstance
  store : Store T

/-- All of the local state that a step can change, but the instruction pointer. -/
def Local.still {T : Type} (l : Local T) := (l.cells, l.cache, l.store)

/-- All of the machine but the instruction pointer. -/
def Machine.still {T : Type} (m : Machine T) := (m.sp, m.cache, m.stack, m.store)

/-- A step on the local state. -/
abbrev LocalM (T : Type) := EStateM Stop (Local T)

variable {T : Type}

namespace Machine

/-- The local state of a machine. -/
def toLocal (m : Machine T) : Local T where
  cells := m.stack.values.values.drop m.sp.frame
  base := m.sp.base - m.sp.frame
  ip := m.ip
  cache := m.cache
  store := m.store

/-- The machine after its local state has changed; the pointer to the frame stays. -/
def withLocal (l : Local T) (m : Machine T) : Machine T :=
  { m with
    ip := l.ip
    cache := l.cache
    store := l.store
    stack := { m.stack with values :=
      { m.stack.values with values := m.stack.values.values.take m.sp.frame ++ l.cells } } }

/-- A machine with other cells on its value stack. -/
def withCells (m : Machine T) (cells : List UntypedVal) : Machine T :=
  { m with stack := { m.stack with values := { m.stack.values with values := cells } } }

/-- The local state as a part of the machine. -/
def local_ : Part (Machine T) (Local T) where
  get := toLocal
  put := withLocal

end Machine

/-- Runs a local step on the machine. -/
def stepLocal {α : Type} (x : LocalM T α) : ExecM T α := zoom Machine.local_ x

section ExecM

/-- An error of the source, as `?` propagates it. -/
def liftTrap {σ α : Type} (x : Except TrapCode α) : EStateM Stop σ α :=
  match x with
  | .ok a => pure a
  | .error code => throw (.trap code)

/-- An `Option` that the Rust code unwraps. -/
def unwrap {σ α : Type} (x : Option α) : EStateM Stop σ α :=
  match x with
  | some a => pure a
  | none => throw .panic

/-- An `Option` that the Rust code assumes to be there. -/
def assume {σ α : Type} (x : Option α) : EStateM Stop σ α :=
  match x with
  | some a => pure a
  | none => throw .undefined

end ExecM

/-! ## Lifted options and results

None of the three changes the state, whatever the state is; only `liftTrap` raises an error of the
source. -/

section Lifts

variable {σ α : Type}

lemma readOnly_liftTrap (x : Except TrapCode α) : ReadOnly (liftTrap x : EStateM Stop σ α) := by
  cases x with
  | error code => exact ReadOnly.throw _
  | ok a => exact ReadOnly.pure a

lemma readOnly_unwrap (x : Option α) : ReadOnly (unwrap x : EStateM Stop σ α) := by
  cases x with
  | none => exact ReadOnly.throw _
  | some a => exact ReadOnly.pure a

lemma readOnly_assume (x : Option α) : ReadOnly (assume x : EStateM Stop σ α) := by
  cases x with
  | none => exact ReadOnly.throw _
  | some a => exact ReadOnly.pure a

@[simp] lemma unwrap_eq_ok {x : Option α} {s s' : σ} {a : α} :
    (unwrap x : EStateM Stop σ α) s = .ok a s' ↔ x = some a ∧ s = s' := by
  cases x <;> simp [unwrap]

@[simp] lemma assume_eq_ok {x : Option α} {s s' : σ} {a : α} :
    (assume x : EStateM Stop σ α) s = .ok a s' ↔ x = some a ∧ s = s' := by
  cases x <;> simp [assume]

@[simp] lemma liftTrap_eq_ok {x : Except TrapCode α} {s s' : σ} {a : α} :
    (liftTrap x : EStateM Stop σ α) s = .ok a s' ↔ x = .ok a ∧ s = s' := by
  cases x <;> simp [liftTrap]

@[simp] lemma liftTrap_eq_error {x : Except TrapCode α} {s s' : σ} {stop : Stop} :
    (liftTrap x : EStateM Stop σ α) s = .error stop s' ↔
      ∃ code, x = .error code ∧ stop = .trap code ∧ s = s' := by
  cases x <;> simp [liftTrap, eq_comm]

lemma not_isFault_panic : ¬ Stop.panic.IsFault := by
  rintro ⟨error, h⟩
  cases h

lemma not_isFault_undefined : ¬ Stop.undefined.IsFault := by
  rintro ⟨error, h⟩
  cases h

lemma noFault_unwrap (x : Option α) : NoFault Stop.IsFault (unwrap x : EStateM Stop σ α) := by
  cases x with
  | none => exact NoFault.throw not_isFault_panic
  | some a => exact NoFault.pure a

lemma noFault_assume (x : Option α) : NoFault Stop.IsFault (assume x : EStateM Stop σ α) := by
  cases x with
  | none => exact NoFault.throw not_isFault_undefined
  | some a => exact NoFault.pure a

end Lifts

/-! ## The laws of the local part -/

@[simp] lemma Machine.withLocal_toLocal (m : Machine T) : m.withLocal m.toLocal = m := by
  simp [Machine.withLocal, Machine.toLocal]

@[simp] lemma Machine.withLocal_calls (l : Local T) (m : Machine T) :
    (m.withLocal l).stack.calls = m.stack.calls := rfl

@[simp] lemma Machine.withLocal_sp (l : Local T) (m : Machine T) :
    (m.withLocal l).sp = m.sp := rfl

@[simp] lemma Machine.withLocal_store (l : Local T) (m : Machine T) :
    (m.withLocal l).store = l.store := rfl

/-- Moving the instruction pointer of the local state moves that of the machine. -/
@[simp] lemma Machine.withLocal_ip (m : Machine T) (ip : InstructionPtr) :
    m.withLocal { m.toLocal with ip } = { m with ip } := by
  simp [Machine.withLocal, Machine.toLocal]

@[simp] lemma Machine.toLocal_ip (m : Machine T) (ip : InstructionPtr) :
    ({ m with ip } : Machine T).toLocal = { m.toLocal with ip } := rfl

@[simp] lemma Machine.withCells_values (m : Machine T) :
    m.withCells m.stack.values.values = m := rfl

@[simp] lemma Machine.toLocal_ip_eq (m : Machine T) : m.toLocal.ip = m.ip := rfl

@[simp] lemma Machine.toLocal_store (m : Machine T) : m.toLocal.store = m.store := rfl

@[simp] lemma Machine.toLocal_cache (m : Machine T) : m.toLocal.cache = m.cache := rfl

@[simp] lemma Machine.withLocal_withIp (m : Machine T) (l : Local T) (ip : InstructionPtr) :
    ({ m with ip } : Machine T).withLocal l = m.withLocal l := rfl

section StepLocal

variable {α : Type}

lemma stepLocal_eq_ok {x : LocalM T α} {m m' : Machine T} {a : α} :
    stepLocal x m = .ok a m' ↔ ∃ l, x m.toLocal = .ok a l ∧ m.withLocal l = m' := zoom_eq_ok

lemma stepLocal_eq_error {x : LocalM T α} {m m' : Machine T} {stop : Stop} :
    stepLocal x m = .error stop m' ↔ ∃ l, x m.toLocal = .error stop l ∧ m.withLocal l = m' :=
  zoom_eq_error

/-- A local step that only reads leaves the machine as it is. -/
lemma stepLocal_eq_ok_of_readOnly {x : LocalM T α} (hx : ReadOnly x) {m m' : Machine T} {a : α} :
    stepLocal x m = .ok a m' ↔ x m.toLocal = .ok a m.toLocal ∧ m = m' := by
  rw [stepLocal_eq_ok]
  constructor
  · rintro ⟨l, hok, rfl⟩
    obtain rfl := hx.of_ok hok
    exact ⟨hok, by simp⟩
  · rintro ⟨hok, rfl⟩
    exact ⟨_, hok, by simp⟩

/-- A local step that only moves the instruction pointer. -/
lemma stepLocal_of_ip {x : LocalM T α} {m : Machine T} {a : α} {ip : InstructionPtr}
    (hx : x m.toLocal = .ok a { m.toLocal with ip }) :
    stepLocal x m = .ok a { m with ip } :=
  stepLocal_eq_ok.mpr ⟨_, hx, m.withLocal_ip ip⟩

/-- A local step that moves the instruction pointer at most does so on the machine. -/
lemma keeps_still_stepLocal {x : LocalM T α} (hx : Keeps Local.still x) :
    Keeps Machine.still (stepLocal x) := by
  have hput : ∀ (m : Machine T) (l : Local T), l.still = m.toLocal.still →
      (m.withLocal l).still = m.still := by
    intro m l h
    simp only [Local.still, Machine.toLocal, Prod.mk.injEq] at h
    simp [Machine.still, Machine.withLocal, h]
  intro m
  cases h : x m.toLocal with
  | ok a l =>
    rw [show stepLocal x m = .ok a (m.withLocal l) from zoom_ok h]
    exact hput m l (hx.of_ok h)
  | error stop l =>
    rw [show stepLocal x m = .error stop (m.withLocal l) from zoom_error h]
    exact hput m l (hx.of_error h)

end StepLocal

end MotokoDebugger
