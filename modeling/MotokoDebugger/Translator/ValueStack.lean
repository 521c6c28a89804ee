import MotokoDebugger.Translator.ProviderStack

/-!
# The value stack

`translator/stack/mod.rs`: the emulated value stack with the registers behind it. It keeps the
entries and the allocator of their registers in step.

* `ValueStack`, with its operations.
-/

namespace MotokoDebugger.Translator

open Fallible

/-- `TypedProvider::from`. -/
def TaggedProvider.toTyped : TaggedProvider → TypedProvider
  | .local reg => .register reg
  | .dynamic reg => .register reg
  | .preserved reg => .register reg
  | .constLocal reg => .register reg
  | .constValue value => .const value

/-- `ValueStack`, less the types of the locals, which the translation does not look at. -/
structure ValueStack (σ : Type) where
  providers : ProviderStack
  regAlloc : RegisterAlloc σ
  consts : FuncLocalConsts

namespace ValueStack

variable {σ : Type} (stash : MultiStash σ) (stack : ValueStack σ)

/-- `reset`. -/
def reset : ValueStack σ := ⟨.reset, stack.regAlloc.reset stash, .reset⟩

/-- `height`. -/
def height : Nat := stack.providers.providers.length

/-- `register_locals`. -/
def registerLocals (amount : UInt32) : Except Failure (ValueStack σ) := do
  return { stack with regAlloc := ← stack.regAlloc.registerLocals amount }

/-- `finish_register_locals`. -/
def finishRegisterLocals : Except Failure (ValueStack σ) := do
  return { stack with regAlloc := ← stack.regAlloc.finishRegisterLocals }

/-! ### Locals and constants -/

/-- `preserve_locals`. -/
def preserveLocals (preserveIndex : Nat) : Except Failure (Option Reg × ValueStack σ) := do
  let (preserved, providers, regAlloc) ←
    stack.providers.preserveLocals stash stack.regAlloc preserveIndex
  return (preserved, { stack with providers, regAlloc })

/-- `preserve_all_locals`, with the locals that it calls `f` with. -/
def preserveAllLocals : Except Failure (List PreservedLocal × ValueStack σ) := do
  let (preserved, providers, regAlloc) ←
    stack.providers.preserveAllLocals stash stack.regAlloc
  return (preserved, { stack with providers, regAlloc })

/-- `gc_preservations`. -/
def gcPreservations : Except Failure (ValueStack σ) := do
  return { stack with regAlloc := ← stack.regAlloc.gcPreservations stash }

/-- `alloc_const`. -/
def allocConst (value : UntypedVal) : Except Failure (Reg × ValueStack σ) := do
  let (reg, consts) ← stack.consts.alloc value
  return (reg, { stack with consts })

/-- `provider2reg`. -/
def provider2reg : TypedProvider → Except Failure (Reg × ValueStack σ)
  | .register reg => .ok (reg, stack)
  | .const value => stack.allocConst value.value

/-! ### Popping and peeking -/

/-- `pop`. -/
def pop : Except Failure (TypedProvider × ValueStack σ) := do
  let (provider, providers) ← stack.providers.pop
  let (popped, regAlloc) ← stack.regAlloc.popProvider stash provider
  return (popped, { stack with providers, regAlloc })

/-- `drop`. -/
def drop : Except Failure (ValueStack σ) := do return (← stack.pop stash).2

/-- `pop2`. -/
def pop2 : Except Failure (TypedProvider × TypedProvider × ValueStack σ) := do
  let (rhs, stack) ← stack.pop stash
  let (lhs, stack) ← stack.pop stash
  return (lhs, rhs, stack)

/-- `pop_n`. -/
def popN : (n : Nat) → ValueStack σ → Except Failure (List TypedProvider × ValueStack σ)
  | 0, stack => .ok ([], stack)
  | n + 1, stack => do
    let (provider, stack) ← stack.pop stash
    let (providers, stack) ← popN n stack
    return (providers ++ [provider], stack)

/-- `remove_n`. -/
def removeN : (n : Nat) → ValueStack σ → Except Failure (ValueStack σ)
  | 0, stack => .ok stack
  | n + 1, stack => do removeN n (← stack.drop stash)

/-- `trunc`. -/
def trunc (height : Nat) : Except Failure (ValueStack σ) :=
  if height ≤ stack.height then removeN stash (stack.height - height) stack else .error .panic

/-- `peek`. -/
def peek : Except Failure TypedProvider := do return (← stack.providers.peek).toTyped

/-- `peek_n`. -/
def peekN (n : Nat) : Except Failure (List TypedProvider) := do
  return (← stack.providers.peekN n).map TaggedProvider.toTyped

/-! ### Pushing -/

/-- Pushes an entry that needs no register of the allocator. -/
def pushEntry (provider : TaggedProvider) : Except Failure (ValueStack σ) := do
  return { stack with providers := ← stack.providers.push provider }

/-- `push_const`. -/
def pushConst (value : TypedVal) : Except Failure (ValueStack σ) :=
  stack.pushEntry (.constValue value)

/-- `push_register`. A dynamic register is pushed as it is, whichever one the allocator has next. -/
def pushRegister (reg : Reg) : Except Failure (ValueStack σ) :=
  match stack.regAlloc.registerSpace reg with
  | .dynamic => do
    let (_, regAlloc) ← stack.regAlloc.pushDynamic
    { stack with regAlloc }.pushEntry (.dynamic reg)
  | .preserve => do
    let regAlloc ← stack.regAlloc.bumpPreserved stash reg
    { stack with regAlloc }.pushEntry (.preserved reg)
  | .local => stack.pushEntry (.local reg)
  | .const => stack.pushEntry (.constLocal reg)

/-- `push_provider`. -/
def pushProvider : TypedProvider → Except Failure (ValueStack σ)
  | .register reg => stack.pushRegister stash reg
  | .const value => stack.pushConst value

/-- `push_local`. -/
def pushLocal (localIndex : UInt32) : Except Failure (Reg × ValueStack σ) :=
  let reg := Int16.ofNat localIndex.toNat
  if localIndex.toNat < 2 ^ 15 ∧ stack.regAlloc.isLocal reg = true then do
    return (reg, ← stack.pushEntry (.local reg))
  else .error (.error .registerOutOfBounds)

/-- `push_dynamic`. -/
def pushDynamic : Except Failure (Reg × ValueStack σ) := do
  let (reg, regAlloc) ← stack.regAlloc.pushDynamic
  return (reg, ← { stack with regAlloc }.pushEntry (.dynamic reg))

/-- `push_n`. -/
def pushN (providers : List TypedProvider) : Except Failure (ValueStack σ) :=
  providers.foldlM (pushProvider stash) stack

/-- `push_dynamic_n`. -/
def pushDynamicN (n : Nat) : Except Failure (RegSpan × ValueStack σ) := do
  let (span, regAlloc) ← stack.regAlloc.pushDynamicN n
  let regs := (List.range n).map span.head.nextN
  return (span, ← regs.foldlM (fun stack reg => stack.pushEntry (.dynamic reg))
    { stack with regAlloc })

/-- `peek_dynamic_n`. -/
def peekDynamicN (n : Nat) : Except Failure (RegSpan × ValueStack σ) := do
  let (span, regAlloc) ← stack.regAlloc.pushDynamicN n
  let regAlloc ← regAlloc.popDynamicN n
  return (span, { stack with regAlloc })

/-! ### The use of preserved registers -/

/-- `inc_register_usage`. -/
def incRegisterUsage (reg : Reg) : Except Failure (ValueStack σ) := do
  return { stack with regAlloc := ← stack.regAlloc.incRegisterUsage stash reg }

/-- `dec_register_usage`. -/
def decRegisterUsage (reg : Reg) : Except Failure (ValueStack σ) := do
  return { stack with regAlloc := ← stack.regAlloc.decRegisterUsage stash reg }

end ValueStack

end MotokoDebugger.Translator
