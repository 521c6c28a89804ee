import MotokoDebugger.Executor.Accesses

/-!
# What the operators do

The numeric instructions and the copy of a register, by the values of their operands.

* `Evaluates`: what is prescribed for an operator.
* `evaluates_executeUnary`, `evaluates_executeBinary` and so on: the instructions do that.
-/

namespace MotokoDebugger

open StateExcept

variable {T : Type}

/-- What is prescribed for an operator: the result register gets the result, or it traps. -/
inductive Evaluates (expected : Except TrapCode UntypedVal) (result : Reg) (next : InstructionPtr)
    (l : Local T) : EStateM.Result Stop (Local T) Unit → Prop where
  | value {l' : Local T} {value : UntypedVal} (expected_eq : expected = .ok value)
    (ip : l'.ip = next) (moved : l.Moved l' (Function.update l.read result (some value))) :
    Evaluates expected result next l (.ok () l')
  | trap {l' : Local T} {trapCode : TrapCode} (expected_eq : expected = .error trapCode)
    (same : l'.still = l.still) : Evaluates expected result next l (.error (.trap trapCode) l')

namespace Executor

variable {env : Engine T} {l : Local T} {result lhs rhs : Reg} {x y : UntypedVal}

/-- The end of every operator: the result is written and the next instruction comes `skip` words
on. -/
lemma evaluates_setRegister (value : UntypedVal) (hresult : (l.read result).isSome) (skip : Nat) :
    Evaluates (.ok value) result (l.ip.add skip) l
      ((setRegister result value >>= fun _ => nextInstrAt skip) l) := by
  obtain ⟨l', hset, hip, hmoved⟩ := setRegister_moved value hresult
  rw [bind_ok hset]
  show Evaluates _ _ _ _ (.ok () { l' with ip := l'.ip.add skip })
  exact .value rfl (by rw [hip]) (hmoved.setIp _)

/-- The end of an operator that can trap. -/
lemma evaluates_liftTrap (expected : Except TrapCode UntypedVal)
    (hresult : (l.read result).isSome) :
    Evaluates expected result (l.ip.add 1) l
      ((liftTrap expected >>= fun value => setRegister result value >>= fun _ => nextInstr) l) := by
  cases expected with
  | ok value => exact evaluates_setRegister value hresult 1
  | error trapCode => exact .trap rfl rfl

lemma evaluates_executeCopy (hresult : (l.read result).isSome) (hvalue : l.read lhs = some x) :
    Evaluates (.ok x) result (l.ip.add 1) l (executeCopy result lhs l) := by
  have hget : getRegister lhs l = .ok x l := getRegister_eq_ok.2 ⟨hvalue, rfl⟩
  rw [executeCopy, bind_ok hget]
  exact evaluates_setRegister x hresult 1

lemma evaluates_executeUnary (op : UntypedVal → UntypedVal) (hresult : (l.read result).isSome)
    (hlhs : l.read lhs = some x) :
    Evaluates (.ok (op x)) result (l.ip.add 1) l (executeUnary result lhs op l) := by
  have hget : getRegister lhs l = .ok x l := getRegister_eq_ok.2 ⟨hlhs, rfl⟩
  rw [executeUnary, bind_ok hget]
  exact evaluates_setRegister (op x) hresult 1

lemma evaluates_tryExecuteUnary (op : UntypedVal → Except TrapCode UntypedVal)
    (hresult : (l.read result).isSome) (hlhs : l.read lhs = some x) :
    Evaluates (op x) result (l.ip.add 1) l (tryExecuteUnary result lhs op l) := by
  have hget : getRegister lhs l = .ok x l := getRegister_eq_ok.2 ⟨hlhs, rfl⟩
  rw [tryExecuteUnary, bind_ok hget]
  exact evaluates_liftTrap (op x) hresult

lemma evaluates_executeBinary (op : UntypedVal → UntypedVal → UntypedVal)
    (hresult : (l.read result).isSome) (hlhs : l.read lhs = some x) (hrhs : l.read rhs = some y) :
    Evaluates (.ok (op x y)) result (l.ip.add 1) l (executeBinary result lhs rhs op l) := by
  have hleft : getRegister lhs l = .ok x l := getRegister_eq_ok.2 ⟨hlhs, rfl⟩
  have hright : getRegister rhs l = .ok y l := getRegister_eq_ok.2 ⟨hrhs, rfl⟩
  rw [executeBinary, bind_ok hleft, bind_ok hright]
  exact evaluates_setRegister (op x y) hresult 1

lemma evaluates_tryExecuteBinary (op : UntypedVal → UntypedVal → Except TrapCode UntypedVal)
    (hresult : (l.read result).isSome) (hlhs : l.read lhs = some x) (hrhs : l.read rhs = some y) :
    Evaluates (op x y) result (l.ip.add 1) l (tryExecuteBinary result lhs rhs op l) := by
  have hleft : getRegister lhs l = .ok x l := getRegister_eq_ok.2 ⟨hlhs, rfl⟩
  have hright : getRegister rhs l = .ok y l := getRegister_eq_ok.2 ⟨hrhs, rfl⟩
  rw [tryExecuteBinary, bind_ok hleft, bind_ok hright]
  exact evaluates_liftTrap (op x y) hresult

end Executor

end MotokoDebugger
