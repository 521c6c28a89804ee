import Mathlib.Tactic.Common
import Mathlib.Data.List.Infix

/-!
# Breakpoints

`debugger/src/breakpoint.rs`: the registered breakpoints and when they stop a run.
-/

namespace MotokoDebugger

/-- `Breakpoint`. -/
inductive Breakpoint where
  | function (name : String)
  | instruction (instOffset : Nat)
deriving Repr, DecidableEq

/-- The registered breakpoints, by the keys of the two maps, and the instructions of the main
file. -/
structure Breakpoints where
  functionMap : List String := []
  instMap : List Nat := []
  instInFile0 : List Nat := []
deriving Repr, DecidableEq

/-- `str::contains`. -/
def strContains (name key : String) : Bool := decide (key.toList <:+: name.toList)

namespace Breakpoints

/-- `Breakpoints::should_break_func`. -/
def shouldBreakFunc (breakpoints : Breakpoints) (name : String) : Bool :=
  breakpoints.functionMap.any fun key => strContains name key

/-- `Breakpoints::insert`. -/
def insert (breakpoints : Breakpoints) (breakpoint : Breakpoint) : Breakpoints :=
  match breakpoint with
  | .function name => { breakpoints with functionMap := breakpoints.functionMap.insert name }
  | .instruction instOffset =>
    { breakpoints with instMap := breakpoints.instMap.insert instOffset }

/-- `Breakpoints::delete`: the function breakpoints are numbered first. -/
def delete (breakpoints : Breakpoints) (id : Nat) : Except String Breakpoints :=
  let lenFuncs := breakpoints.functionMap.length
  if id ≥ lenFuncs + breakpoints.instMap.length then .error "Invalid breakpoint id"
  else if id < lenFuncs then
    .ok { breakpoints with functionMap := breakpoints.functionMap.eraseIdx id }
  else .ok { breakpoints with instMap := breakpoints.instMap.eraseIdx (id - lenFuncs) }

end Breakpoints

end MotokoDebugger
