import Mathlib.Tactic.Common
import Mathlib.Algebra.Group.Nat.Defs
import Mathlib.Algebra.Group.Int.Defs

/-!
# Trap codes and errors

* `TrapCode`: the traps a Wasm execution can raise.
* `Error`: the errors the engine hands to its caller, as far as an execution can raise them.
-/

namespace MotokoDebugger

/-- The trap codes of `core/src/trap.rs`. -/
inductive TrapCode where
  | unreachableCodeReached
  | memoryOutOfBounds
  | tableOutOfBounds
  | indirectCallToNull
  | integerDivisionByZero
  | integerOverflow
  | badConversionToInteger
  | stackOverflow
  | badSignature
  | outOfFuel
  | growthOperationLimited
deriving Repr, DecidableEq, Inhabited

/-- `TrapCode::trap_message`. -/
def TrapCode.trapMessage : TrapCode → String
  | .unreachableCodeReached => "wasm `unreachable` instruction executed"
  | .memoryOutOfBounds => "out of bounds memory access"
  | .tableOutOfBounds => "undefined element: out of bounds table access"
  | .indirectCallToNull => "uninitialized element 2"
  | .integerDivisionByZero => "integer divide by zero"
  | .integerOverflow => "integer overflow"
  | .badConversionToInteger => "invalid conversion to integer"
  | .stackOverflow => "call stack exhausted"
  | .badSignature => "indirect call type mismatch"
  | .outOfFuel => "all fuel consumed by WebAssembly"
  | .growthOperationLimited => "growth operation limited"

/-- The error kinds an execution can end with. `func` is the store index of the host function
that failed, `callerResults` the first register its results would have been written to. -/
inductive Error where
  | trapCode (code : TrapCode)
  | message (text : String)
  | i32ExitStatus (status : BitVec 32)
  | host (text : String)
  | resumableHost (hostError : Error) (func : Nat) (callerResults : Int)
deriving Repr, DecidableEq, Inhabited

/-- `ErrorKind::as_trap_code`. -/
def Error.asTrapCode : Error → Option TrapCode
  | .trapCode code => some code
  | _ => none

end MotokoDebugger
