import MotokoDebugger.Store

/-!
# The value stack and the call stack

`executor/stack/`. Both stacks are lists; frames and instances are listed with the topmost first,
the cells of the value stack with the lowest first. Pointers into the value stack are offsets, so
a reallocation of its buffer does not show; cells that the Rust code leaves uninitialised are zero.
-/

namespace MotokoDebugger

/-! ## The value stack -/

/-- The value stack and its maximum height. -/
structure ValueStack where
  values : List UntypedVal
  maxLen : Nat
deriving Repr, DecidableEq

/-- Where the registers of a frame are: the first cell of the frame and the cell of register 0. -/
structure StackOffsets where
  frame : Nat
  base : Nat
deriving Repr, DecidableEq, Inhabited

/-- `StackOffsets::move_down`. -/
def StackOffsets.moveDown (offsets : StackOffsets) (delta : Nat) : StackOffsets :=
  ⟨offsets.frame - delta, offsets.base - delta⟩

/-- A compiled function: its instruction words, its constants and its number of cells. -/
structure CompiledFunc where
  instrs : List Instruction
  consts : List UntypedVal
  lenRegisters : Nat
deriving Repr, DecidableEq

namespace ValueStack

/-- `ValueStack::extend_by`: the height must stay below the maximum. -/
def extendBy (stack : ValueStack) (additional : Nat) : Except TrapCode ValueStack :=
  if additional ≥ stack.maxLen - stack.values.length then .error .stackOverflow
  else .ok { stack with values := stack.values ++ List.replicate additional 0 }

/-- `ValueStack::drop`. -/
def drop (stack : ValueStack) (amount : Nat) : ValueStack :=
  { stack with values := stack.values.take (stack.values.length - amount) }

/-- `ValueStack::truncate`. -/
def truncate (stack : ValueStack) (newLen : Nat) : ValueStack :=
  { stack with values := stack.values.take newLen }

/-- The topmost `amount` cells. -/
def top (stack : ValueStack) (amount : Nat) : List UntypedVal :=
  stack.values.drop (stack.values.length - amount)

/-- `ValueStack::drain`: removes the cells `from..to`. -/
def drain (stack : ValueStack) (fromOffset toOffset : Nat) : ValueStack :=
  { stack with values := stack.values.take fromOffset ++ stack.values.drop toOffset }

/-- The cells of a new frame: its constants, then zeros. -/
def newFrame (func : CompiledFunc) : List UntypedVal :=
  func.consts.take func.lenRegisters
    ++ List.replicate (func.lenRegisters - func.consts.length) 0

/-- `ValueStack::alloc_call_frame`. -/
def allocCallFrame (stack : ValueStack) (func : CompiledFunc) :
    Except TrapCode (ValueStack × StackOffsets) :=
  if func.lenRegisters ≥ stack.maxLen - stack.values.length then .error .stackOverflow
  else .ok ({ stack with values := stack.values ++ newFrame func },
    ⟨stack.values.length, stack.values.length + func.consts.length⟩)

/-- `FrameParams::init_next` for each of `params`, behind the constants of the new frame; `none`
where they do not fit. -/
def initParams (stack : ValueStack) (offsets : StackOffsets) (params : List UntypedVal) :
    Option ValueStack :=
  let start := min offsets.base stack.values.length
  if start + params.length ≤ stack.values.length then
    some { stack with values := overwrite stack.values start params }
  else none

end ValueStack

/-! ## The call stack -/

/-- A pointer to an instruction word of a compiled function. -/
structure InstructionPtr where
  func : EngineFunc
  pc : Int
deriving Repr, DecidableEq, Inhabited

/-- `InstructionPtr::offset`. -/
def InstructionPtr.offset (ip : InstructionPtr) (by_ : Int) : InstructionPtr :=
  { ip with pc := ip.pc + by_ }

/-- `InstructionPtr::add`. -/
def InstructionPtr.add (ip : InstructionPtr) (delta : Nat) : InstructionPtr := ip.offset delta

/-- A frame of the call stack. -/
structure CallFrame where
  func : EngineFunc
  instrPtr : InstructionPtr
  offsets : StackOffsets
  results : RegSpan
  changedInstance : Bool := false
deriving Repr, DecidableEq, Inhabited

/-- The frames, and the instances of the frames at which the instance changed. -/
structure CallStack where
  frames : List CallFrame
  instances : List Nat
  recursionLimit : Nat
deriving Repr, DecidableEq

namespace CallStack

/-- `CallStack::push_instance`: an instance equal to the topmost one is not pushed. -/
def pushInstance (calls : CallStack) (inst : Nat) : CallStack × Bool :=
  if calls.instances.head? = some inst then (calls, false)
  else ({ calls with instances := inst :: calls.instances }, true)

/-- `CallStack::push`. -/
def push (calls : CallStack) (call : CallFrame) (inst : Option Nat) :
    Except TrapCode CallStack :=
  if calls.frames.length = calls.recursionLimit then .error .stackOverflow
  else
    match inst with
    | none => .ok { calls with frames := call :: calls.frames }
    | some inst =>
      let (calls, changed) := calls.pushInstance inst
      .ok { calls with frames := { call with changedInstance := changed } :: calls.frames }

/-- `CallStack::pop`. -/
def pop (calls : CallStack) : Option (CallFrame × Option Nat × CallStack) :=
  match calls.frames with
  | [] => none
  | frame :: frames =>
    if frame.changedInstance then
      some (frame, calls.instances.head?, { calls with frames, instances := calls.instances.tail })
    else some (frame, none, { calls with frames })

/-- `CallStack::peek`. -/
def peek (calls : CallStack) : Option CallFrame := calls.frames.head?

/-- `CallStack::instance`. -/
def instance_ (calls : CallStack) : Option Nat := calls.instances.head?

/-- Updates the instruction pointer saved in the topmost frame. -/
def updateInstrPtr (calls : CallStack) (ip : InstructionPtr) : CallStack :=
  match calls.frames with
  | [] => calls
  | frame :: frames => { calls with frames := { frame with instrPtr := ip } :: frames }

end CallStack

/-! ## The laws of the call stack -/

namespace CallStack

/-- The functions of the frames. -/
def funcs (calls : CallStack) : List EngineFunc := calls.frames.map (·.func)

/-- What `pop` takes away. -/
lemma pop_eq_some {calls calls' : CallStack} {frame : CallFrame} {inst : Option Nat}
    (h : calls.pop = some (frame, inst, calls')) :
    calls.frames = frame :: calls'.frames ∧
      calls'.recursionLimit = calls.recursionLimit ∧
      (frame.changedInstance = true →
        inst = calls.instances.head? ∧ calls'.instances = calls.instances.tail) ∧
      (frame.changedInstance = false → inst = none ∧ calls'.instances = calls.instances) := by
  unfold pop at h
  split at h
  · cases h
  · rename_i top frames heq
    split at h <;> cases h <;> simp_all

lemma pushInstance_frames (calls : CallStack) (inst : Nat) :
    (calls.pushInstance inst).1.frames = calls.frames ∧
      (calls.pushInstance inst).1.recursionLimit = calls.recursionLimit := by
  unfold pushInstance
  split <;> simp

/-- What `push` adds: the frame, up to the mark of a changed instance. -/
lemma push_eq_ok {calls calls' : CallStack} {call : CallFrame} {inst : Option Nat}
    (h : calls.push call inst = .ok calls') :
    calls.frames.length ≠ calls.recursionLimit ∧
      calls'.recursionLimit = calls.recursionLimit ∧
      ∃ changed, calls'.frames = { call with changedInstance := changed } :: calls.frames := by
  unfold push at h
  split at h
  · cases h
  · rename_i hlimit
    cases inst with
    | none =>
      cases h
      exact ⟨hlimit, rfl, call.changedInstance, rfl⟩
    | some inst =>
      obtain ⟨hframes, hlimit'⟩ := calls.pushInstance_frames inst
      simp only [hframes, Except.ok.injEq] at h
      subst h
      exact ⟨hlimit, hlimit', (calls.pushInstance inst).2, rfl⟩

lemma push_eq_error {calls : CallStack} {call : CallFrame} {inst : Option Nat}
    {code : TrapCode} (h : calls.push call inst = .error code) :
    calls.frames.length = calls.recursionLimit := by
  unfold push at h
  split at h
  · assumption
  · cases inst <;> cases h

@[simp] lemma updateInstrPtr_recursionLimit (calls : CallStack) (ip : InstructionPtr) :
    (calls.updateInstrPtr ip).recursionLimit = calls.recursionLimit := by
  unfold updateInstrPtr
  split <;> rfl

@[simp] lemma updateInstrPtr_funcs (calls : CallStack) (ip : InstructionPtr) :
    (calls.updateInstrPtr ip).funcs = calls.funcs := by
  unfold updateInstrPtr
  split
  · rfl
  · rename_i heq
    simp [funcs, heq]

@[simp] lemma length_funcs (calls : CallStack) : calls.funcs.length = calls.frames.length := by
  simp [funcs]

lemma funcs_eq_nil {calls : CallStack} : calls.funcs = [] ↔ calls.frames = [] := by
  simp [funcs]

end CallStack

/-- The value stack and the call stack of an execution. -/
structure Stack where
  values : ValueStack
  calls : CallStack
deriving Repr, DecidableEq

/-- `Stack::reset`. -/
def Stack.reset (stack : Stack) : Stack where
  values := { stack.values with values := [] }
  calls := { stack.calls with frames := [], instances := [] }

/-- `Stack::merge_call_frames`: pops the caller, removes its cells and moves the callee down.
`none` where there is no caller. -/
def Stack.mergeCallFrames (stack : Stack) (callee : CallFrame) :
    Option (Stack × CallFrame × Option Nat) := do
  let (caller, inst, calls) ← stack.calls.pop
  let lenDrained := callee.offsets.frame - caller.offsets.frame
  let values := stack.values.drain caller.offsets.frame callee.offsets.frame
  return (⟨values, calls⟩, { callee with offsets := callee.offsets.moveDown lenDrained }, inst)

end MotokoDebugger
