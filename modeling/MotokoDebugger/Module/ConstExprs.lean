import MotokoDebugger.Module.Validity

/-!
# Constant expressions

`module/init_expr.rs` against the stack machine of Wasm.

* `EvalContext`, `ConstExpr.evalIn`, `ConstExpr.evalConst`: evaluation in a context, and in none.
* `Operator.execute`, `ConstExpr.run`: the stack machine. `ConstExpr.HasType`: the typing of it.
* `constExpr_exact`: what `ConstExpr::new` makes of an expression has the value of the machine.
-/

namespace MotokoDebugger

open UntypedVal

/-! ## Evaluation in a context -/

/-- `Val`. A reference to an external object is its bits. -/
inductive TypedVal where
  | i32 (value : BitVec 32)
  | i64 (value : BitVec 64)
  | f32 (bits : BitVec 32)
  | f64 (bits : BitVec 64)
  | funcRef (func : Option Nat)
  | externRef (bits : UntypedVal)
deriving Repr, DecidableEq

/-- `UntypedVal::from` of a `FuncRef`: null is zero. -/
def FuncRef.ofOption : Option Nat → UntypedVal
  | none => 0
  | some func => FuncRef.toUntyped func

/-- `UntypedVal::from` of a `Val`. -/
def TypedVal.toUntyped : TypedVal → UntypedVal
  | .i32 value => ofI32 value
  | .i64 value => value
  | .f32 bits => ofI32 bits
  | .f64 bits => bits
  | .funcRef func => FuncRef.ofOption func
  | .externRef bits => bits

/-- `Val::ty`. -/
def TypedVal.ty : TypedVal → ValType
  | .i32 _ => .i32
  | .i64 _ => .i64
  | .f32 _ => .f32
  | .f64 _ => .f64
  | .funcRef _ => .funcRef
  | .externRef _ => .externRef

/-- `EvalContext`. -/
structure EvalContext where
  getGlobal : Nat → Option TypedVal
  getFunc : Nat → Option (Option Nat)

/-- `EmptyEvalContext`. -/
def EvalContext.empty : EvalContext := ⟨fun _ => none, fun _ => none⟩

namespace ConstExpr

/-- `Eval::eval`. -/
def evalIn (ctx : EvalContext) (expr : ConstExpr) : Option UntypedVal :=
  expr.eval (fun index => (ctx.getGlobal index).map TypedVal.toUntyped)
    fun index => (ctx.getFunc index).map FuncRef.ofOption

/-- `eval_const`. -/
def evalConst (expr : ConstExpr) : Option UntypedVal := expr.evalIn .empty

/-- Does the expression read the context? -/
def ReadsContext : ConstExpr → Prop
  | .const _ => False
  | .global _ | .funcRef _ => True
  | .expr _ lhs rhs => lhs.ReadsContext ∨ rhs.ReadsContext

lemma evalConst_eq_none (expr : ConstExpr) : expr.evalConst = none ↔ expr.ReadsContext := by
  induction expr with
  | const value => exact ⟨fun h => (by cases h), False.elim⟩
  | global | funcRef => exact ⟨fun _ => trivial, fun _ => rfl⟩
  | expr op lhs rhs ihlhs ihrhs =>
    have heval : (ConstExpr.expr op lhs rhs).evalConst =
        lhs.evalConst.bind fun a => rhs.evalConst.bind fun b => some (op a b) := rfl
    show _ ↔ lhs.ReadsContext ∨ rhs.ReadsContext
    rw [heval, ← ihlhs, ← ihrhs]
    cases lhs.evalConst with
    | none => simp
    | some a =>
      cases rhs.evalConst with
      | none => simp
      | some b => simp

/-- What has a value without a context has it in every context. -/
lemma evalIn_of_evalConst {expr : ConstExpr} {value : UntypedVal} (ctx : EvalContext)
    (h : expr.evalConst = some value) : expr.evalIn ctx = some value := by
  induction expr generalizing value with
  | const value' => exact h
  | global | funcRef => cases h
  | expr op lhs rhs ihlhs ihrhs =>
    have heval : ∀ ctx, (ConstExpr.expr op lhs rhs).evalIn ctx =
        (lhs.evalIn ctx).bind fun a => (rhs.evalIn ctx).bind fun b => some (op a b) := fun _ => rfl
    rw [evalConst, heval] at h
    obtain ⟨a, ha, h⟩ := Option.bind_eq_some_iff.1 h
    obtain ⟨b, hb, h⟩ := Option.bind_eq_some_iff.1 h
    rw [heval, ihlhs ha, ihrhs hb]
    exact h

end ConstExpr

/-! ## The stack machine -/

namespace Wasmparser

/-- An operator on the stack, of which the top comes first; `none` where the context lacks what it
reads, or the operands do not have its types. -/
def Operator.execute (ctx : EvalContext) (stack : List TypedVal) : Operator → Option (List TypedVal)
  | .i32Const value => some (.i32 value :: stack)
  | .i64Const value => some (.i64 value :: stack)
  | .f32Const bits => some (.f32 bits :: stack)
  | .f64Const bits => some (.f64 bits :: stack)
  | .globalGet globalIndex => (ctx.getGlobal globalIndex).map (· :: stack)
  | .refNull .funcRef => some (.funcRef none :: stack)
  | .refNull .externRef => some (.externRef 0 :: stack)
  | .refNull _ => none
  | .refFunc functionIndex => (ctx.getFunc functionIndex).map (.funcRef · :: stack)
  | .i32Add => i32Op stack (· + ·)
  | .i32Sub => i32Op stack (· - ·)
  | .i32Mul => i32Op stack (· * ·)
  | .i64Add => i64Op stack (· + ·)
  | .i64Sub => i64Op stack (· - ·)
  | .i64Mul => i64Op stack (· * ·)
  | .end => none
  | .other _ => none
where
  i32Op (stack : List TypedVal) (op : BitVec 32 → BitVec 32 → BitVec 32) : Option (List TypedVal) :=
    match stack with
    | .i32 rhs :: .i32 lhs :: stack => some (.i32 (op lhs rhs) :: stack)
    | _ => none
  i64Op (stack : List TypedVal) (op : BitVec 64 → BitVec 64 → BitVec 64) : Option (List TypedVal) :=
    match stack with
    | .i64 rhs :: .i64 lhs :: stack => some (.i64 (op lhs rhs) :: stack)
    | _ => none

/-- The value that the machine leaves. -/
def ConstExpr.run (ctx : EvalContext) : (stack : List TypedVal) → ConstExpr → Option TypedVal
  | _, [] => none
  | _, .error _ :: _ => none
  | stack, .ok .end :: _ => stack.head?
  | stack, .ok operator :: rest => (operator.execute ctx stack).bind fun stack => run ctx stack rest

/-- The types that an operator takes from the stack, top first, and the one that it leaves there. -/
def Operator.typing (globals : Nat → Option MotokoDebugger.ValType) :
    Operator → Option (List MotokoDebugger.ValType × MotokoDebugger.ValType)
  | .i32Const _ => some ([], .i32)
  | .i64Const _ => some ([], .i64)
  | .f32Const _ => some ([], .f32)
  | .f64Const _ => some ([], .f64)
  | .globalGet globalIndex => (globals globalIndex).map fun ty => ([], ty)
  | .refNull .funcRef => some ([], .funcRef)
  | .refNull .externRef => some ([], .externRef)
  | .refNull _ => none
  | .refFunc _ => some ([], .funcRef)
  | .i32Add | .i32Sub | .i32Mul => some ([.i32, .i32], .i32)
  | .i64Add | .i64Sub | .i64Mul => some ([.i64, .i64], .i64)
  | .end | .other _ => none

/-- The expression is valid on a stack of these types and leaves a value of the type. -/
def ConstExpr.HasTypeFrom (globals : Nat → Option MotokoDebugger.ValType)
    (ty : MotokoDebugger.ValType) : (stack : List MotokoDebugger.ValType) → ConstExpr → Prop
  | _, [] => False
  | _, .error _ :: _ => False
  | stack, .ok .end :: rest => rest = [] ∧ stack = [ty]
  | stack, .ok operator :: rest => ∃ pops push below, operator.typing globals = some (pops, push) ∧
      stack = pops ++ below ∧ HasTypeFrom globals ty (push :: below) rest

/-- The expression is valid with globals of these types. -/
def ConstExpr.HasType (globals : Nat → Option MotokoDebugger.ValType) (expr : ConstExpr)
    (ty : MotokoDebugger.ValType) : Prop := expr.HasTypeFrom globals ty []

/-- Does the operator read the context? -/
def Operator.readsContext : Operator → Bool
  | .globalGet _ | .refFunc _ => true
  | _ => false

end Wasmparser

/-- The globals of the context have their types. -/
def EvalContext.Fits (ctx : EvalContext) (globals : Nat → Option ValType) : Prop :=
  ∀ index value, ctx.getGlobal index = some value → globals index = some value.ty

/-- The context has what the expression reads. -/
def EvalContext.Covers (ctx : EvalContext) (expr : Wasmparser.ConstExpr) : Prop :=
  ∀ operator, .ok operator ∈ expr → ∀ index,
    (operator = .globalGet index → (ctx.getGlobal index).isSome) ∧
    (operator = .refFunc index → (ctx.getFunc index).isSome)

/-! ## Validity -/

namespace Wasmparser

section Typing

variable {ctx : EvalContext} {globals : Nat → Option MotokoDebugger.ValType}
  {ty push : MotokoDebugger.ValType} {pops below types : List MotokoDebugger.ValType}
  {operator : Operator} {stack stack' : List TypedVal}

lemma Operator.pops_of_typing (h : operator.typing globals = some (pops, push)) :
    operator.pops = some pops.length := by
  cases operator with
  | globalGet index =>
    obtain ⟨ty, -, heq⟩ := Option.map_eq_some_iff.1 h
    obtain ⟨rfl, -⟩ := Prod.mk.inj heq
    rfl
  | refNull ty =>
    cases ty with
    | funcRef | externRef =>
      obtain ⟨rfl, -⟩ := Prod.mk.inj (Option.some.inj h)
      rfl
    | _ => cases h
  | «end» | other => cases h
  | _ =>
    obtain ⟨rfl, -⟩ := Prod.mk.inj (Option.some.inj h)
    rfl

lemma ConstExpr.hasTypeFrom_cons {rest : ConstExpr} (hend : operator ≠ .end) :
    ConstExpr.HasTypeFrom globals ty types (.ok operator :: rest) ↔
      ∃ pops push below, operator.typing globals = some (pops, push) ∧ types = pops ++ below ∧
        ConstExpr.HasTypeFrom globals ty (push :: below) rest := by
  cases operator with
  | «end» => exact absurd rfl hend
  | _ => exact Iff.rfl

/-- What has a type does not panic. -/
lemma ConstExpr.HasTypeFrom.validFrom {expr : ConstExpr} (h : expr.HasTypeFrom globals ty types) :
    ValidFrom types.length expr := by
  induction expr generalizing types with
  | nil => cases h
  | cons item rest ih =>
    cases item with
    | error e => cases h
    | ok operator =>
      by_cases hend : operator = .end
      · rw [hend] at h ⊢
        obtain ⟨rfl, rfl⟩ := h
        exact ⟨rfl, rfl⟩
      · obtain ⟨pops, push, below, htyping, rfl, hrest⟩ := (hasTypeFrom_cons hend).1 h
        have hvalid : ∃ n, operator.pops = some n ∧ n ≤ (pops ++ below).length ∧
            ValidFrom ((pops ++ below).length - n + 1) rest := by
          refine ⟨_, operator.pops_of_typing htyping, ?_, ?_⟩
          · rw [List.length_append]
            omega
          · rw [List.length_append, Nat.add_sub_cancel_left]
            exact ih hrest
        cases operator with
        | «end» => exact absurd rfl hend
        | _ => exact hvalid

end Typing

end Wasmparser

/-! ## The machine follows the types -/

namespace Wasmparser

variable {ctx : EvalContext} {globals : Nat → Option MotokoDebugger.ValType}
  {ty push : MotokoDebugger.ValType} {pops below types : List MotokoDebugger.ValType}
  {operator : Operator} {stack stack' : List TypedVal}

lemma i32_operands (h : stack.map TypedVal.ty = [.i32, .i32] ++ below) :
    ∃ rhs lhs rest, stack = .i32 rhs :: .i32 lhs :: rest ∧ rest.map TypedVal.ty = below := by
  obtain ⟨rhs, above, rfl, hrhs, habove⟩ := List.map_eq_cons_iff.1 h
  obtain ⟨lhs, rest, rfl, hlhs, hrest⟩ := List.map_eq_cons_iff.1 habove
  cases rhs <;> cases hrhs
  cases lhs <;> cases hlhs
  exact ⟨_, _, _, rfl, hrest⟩

lemma i64_operands (h : stack.map TypedVal.ty = [.i64, .i64] ++ below) :
    ∃ rhs lhs rest, stack = .i64 rhs :: .i64 lhs :: rest ∧ rest.map TypedVal.ty = below := by
  obtain ⟨rhs, above, rfl, hrhs, habove⟩ := List.map_eq_cons_iff.1 h
  obtain ⟨lhs, rest, rfl, hlhs, hrest⟩ := List.map_eq_cons_iff.1 habove
  cases rhs <;> cases hrhs
  cases lhs <;> cases hlhs
  exact ⟨_, _, _, rfl, hrest⟩

/-- An operator leaves a value of its type. -/
lemma Operator.execute_typed (htyping : operator.typing globals = some (pops, push))
    (hfits : ctx.Fits globals) (htypes : stack.map TypedVal.ty = pops ++ below)
    (h : operator.execute ctx stack = some stack') : stack'.map TypedVal.ty = push :: below := by
  cases operator with
  | globalGet index =>
    obtain ⟨ty, hglobal, heq⟩ := Option.map_eq_some_iff.1 htyping
    obtain ⟨rfl, rfl⟩ := Prod.mk.inj heq
    obtain ⟨value, hvalue, rfl⟩ := Option.map_eq_some_iff.1 h
    have hty := hfits index value hvalue
    rw [hglobal] at hty
    rw [List.map_cons, htypes, Option.some.inj hty]
    rfl
  | refFunc index =>
    obtain ⟨rfl, rfl⟩ := Prod.mk.inj (Option.some.inj htyping)
    obtain ⟨func, -, rfl⟩ := Option.map_eq_some_iff.1 h
    rw [List.map_cons, htypes]
    rfl
  | refNull ty =>
    cases ty with
    | funcRef | externRef =>
      obtain ⟨rfl, rfl⟩ := Prod.mk.inj (Option.some.inj htyping)
      obtain rfl := Option.some.inj h
      rw [List.map_cons, htypes]
      rfl
    | _ => cases htyping
  | i32Add | i32Sub | i32Mul =>
    obtain ⟨rfl, rfl⟩ := Prod.mk.inj (Option.some.inj htyping)
    obtain ⟨rhs, lhs, rest, rfl, hrest⟩ := i32_operands htypes
    obtain rfl := Option.some.inj h
    rw [List.map_cons, hrest]
    rfl
  | i64Add | i64Sub | i64Mul =>
    obtain ⟨rfl, rfl⟩ := Prod.mk.inj (Option.some.inj htyping)
    obtain ⟨rhs, lhs, rest, rfl, hrest⟩ := i64_operands htypes
    obtain rfl := Option.some.inj h
    rw [List.map_cons, hrest]
    rfl
  | i32Const | i64Const | f32Const | f64Const =>
    obtain ⟨rfl, rfl⟩ := Prod.mk.inj (Option.some.inj htyping)
    obtain rfl := Option.some.inj h
    rw [List.map_cons, htypes]
    rfl
  | «end» | other => cases htyping

/-- An operator whose context has what it reads does not stop the machine. -/
lemma Operator.isSome_execute (htyping : operator.typing globals = some (pops, push))
    (htypes : stack.map TypedVal.ty = pops ++ below)
    (hcovers : ∀ index, (operator = .globalGet index → (ctx.getGlobal index).isSome) ∧
      (operator = .refFunc index → (ctx.getFunc index).isSome)) :
    ∃ stack', operator.execute ctx stack = some stack' := by
  cases operator with
  | globalGet index =>
    obtain ⟨value, hvalue⟩ := Option.isSome_iff_exists.1 ((hcovers index).1 rfl)
    exact ⟨value :: stack, by rw [execute, hvalue]; rfl⟩
  | refFunc index =>
    obtain ⟨func, hfunc⟩ := Option.isSome_iff_exists.1 ((hcovers index).2 rfl)
    exact ⟨.funcRef func :: stack, by rw [execute, hfunc]; rfl⟩
  | refNull ty =>
    cases ty with
    | funcRef | externRef => exact ⟨_, rfl⟩
    | _ => cases htyping
  | i32Add | i32Sub | i32Mul =>
    obtain ⟨rfl, rfl⟩ := Prod.mk.inj (Option.some.inj htyping)
    obtain ⟨rhs, lhs, rest, rfl, -⟩ := i32_operands htypes
    exact ⟨_, rfl⟩
  | i64Add | i64Sub | i64Mul =>
    obtain ⟨rfl, rfl⟩ := Prod.mk.inj (Option.some.inj htyping)
    obtain ⟨rhs, lhs, rest, rfl, -⟩ := i64_operands htypes
    exact ⟨_, rfl⟩
  | i32Const | i64Const | f32Const | f64Const => exact ⟨_, rfl⟩
  | «end» | other => cases htyping

lemma ConstExpr.run_cons {rest : ConstExpr} (hend : operator ≠ .end) :
    ConstExpr.run ctx stack (.ok operator :: rest) =
      (operator.execute ctx stack).bind fun stack => ConstExpr.run ctx stack rest := by
  cases operator with
  | «end» => exact absurd rfl hend
  | _ => rfl

/-- A valid expression has a value of its type, where the context has what it reads. -/
lemma ConstExpr.HasTypeFrom.run_typed {expr : ConstExpr} (h : expr.HasTypeFrom globals ty types)
    (hfits : ctx.Fits globals) (hcovers : ctx.Covers expr) (htypes : stack.map TypedVal.ty = types) :
    ∃ value, expr.run ctx stack = some value ∧ value.ty = ty := by
  induction expr generalizing types stack with
  | nil => cases h
  | cons item rest ih =>
    cases item with
    | error e => cases h
    | ok operator =>
      by_cases hend : operator = .end
      · rw [hend] at h ⊢
        obtain ⟨rfl, rfl⟩ := h
        obtain ⟨value, stack, rfl, hty, -⟩ := List.map_eq_cons_iff.1 htypes
        exact ⟨value, rfl, hty⟩
      · obtain ⟨pops, push, below, htyping, rfl, hrest⟩ := (hasTypeFrom_cons hend).1 h
        obtain ⟨stack', hexec⟩ := operator.isSome_execute htyping htypes
          (hcovers operator List.mem_cons_self)
        rw [run_cons hend, hexec, Option.bind_some]
        exact ih hrest (fun op hop => hcovers op (List.mem_cons_of_mem _ hop))
          (operator.execute_typed htyping hfits htypes hexec)

end Wasmparser

/-! ## The expression follows the machine -/

namespace ConstExpr

variable {ctx : EvalContext} {globals : Nat → Option ValType} {exprs exprs' : List ConstExpr}
  {state : Option (List TypedVal)} {operator : Wasmparser.Operator} {pops below types : List ValType}
  {ty push : ValType}

/-- The expressions on the stack have the values on that of the machine; where the machine has
stopped, one of them has none. -/
def Represents (ctx : EvalContext) (exprs : List ConstExpr) (state : Option (List TypedVal)) : Prop :=
  exprs.mapM (evalIn ctx) = state.map (List.map TypedVal.toUntyped)

lemma mapM_cons_eq (expr : ConstExpr) : (expr :: exprs).mapM (evalIn ctx) =
    (expr.evalIn ctx).bind fun value => (exprs.mapM (evalIn ctx)).map (value :: ·) := by
  rw [List.mapM_cons]
  cases expr.evalIn ctx with
  | none => rfl
  | some value => cases exprs.mapM (evalIn ctx) <;> rfl

/-- A leaf takes nothing from the stack. -/
lemma Represents.leaf {expr : ConstExpr} {next : List TypedVal → Option (List TypedVal)}
    (h : Represents ctx exprs state) (value : Option TypedVal)
    (hvalue : expr.evalIn ctx = value.map TypedVal.toUntyped)
    (hnext : ∀ stack, next stack = value.map (· :: stack)) :
    Represents ctx (expr :: exprs) (state.bind next) := by
  rw [Represents, mapM_cons_eq, hvalue, h]
  cases state with
  | none => cases value <;> rfl
  | some stack =>
    rw [Option.bind_some, hnext]
    cases value <;> rfl

lemma Represents.exprOp {op : UntypedVal → UntypedVal → UntypedVal}
    {next : List TypedVal → Option (List TypedVal)} (h : Represents ctx exprs state)
    (hpush : exprOp exprs op = some exprs')
    (hop : ∀ stack, state = some stack → ∃ rhs lhs rest value, stack = rhs :: lhs :: rest ∧
      next stack = some (value :: rest) ∧ value.toUntyped = op lhs.toUntyped rhs.toUntyped) :
    Represents ctx exprs' (state.bind next) := by
  match exprs, hpush with
  | rhs :: lhs :: exprs, hpush =>
    obtain rfl := Option.some.inj hpush
    rw [Represents, mapM_cons_eq, mapM_cons_eq] at h
    have heval : (ConstExpr.expr op lhs rhs).evalIn ctx =
      (lhs.evalIn ctx).bind fun a => (rhs.evalIn ctx).bind fun b => some (op a b) := rfl
    rw [Represents, mapM_cons_eq, heval]
    cases state with
    | none =>
      -- one of the operands has no value, and so has the whole expression
      rw [Option.bind_none, Option.map_none]
      rw [Option.map_none] at h
      revert h
      cases rhs.evalIn ctx <;> cases lhs.evalIn ctx <;> cases exprs.mapM (evalIn ctx) <;> simp
    | some stack =>
      obtain ⟨b, a, rest, value, rfl, hnext, hvalue⟩ := hop stack rfl
      rw [Option.bind_some, hnext, Option.map_some, List.map_cons, hvalue]
      rw [Option.map_some, List.map_cons, List.map_cons] at h
      obtain ⟨b', hb, h⟩ := Option.bind_eq_some_iff.1 h
      obtain ⟨vs, h, heq⟩ := Option.map_eq_some_iff.1 h
      obtain ⟨rfl, rfl⟩ := List.cons.inj heq
      obtain ⟨a', ha, h⟩ := Option.bind_eq_some_iff.1 h
      obtain ⟨vs', h, heq⟩ := Option.map_eq_some_iff.1 h
      obtain ⟨rfl, rfl⟩ := List.cons.inj heq
      rw [ha, hb, h]
      rfl

lemma lift32_ofI32 (op : BitVec 32 → BitVec 32 → BitVec 32) (lhs rhs : BitVec 32) :
    lift32 op (ofI32 lhs) (ofI32 rhs) = ofI32 (op lhs rhs) := by
  have hlow : ∀ value : BitVec 32, (ofI32 value).toI32 = value := by
    intro value
    show (value.setWidth 64).setWidth 32 = value
    rw [BitVec.setWidth_setWidth_of_le _ (by decide), BitVec.setWidth_eq]
  rw [lift32, hlow, hlow]

/-- One operator of the expression. -/
lemma Represents.pushOperator (h : Represents ctx exprs state)
    (htyping : operator.typing globals = some (pops, push))
    (htypes : ∀ stack, state = some stack → stack.map TypedVal.ty = pops ++ below)
    (hpush : ConstExpr.pushOperator exprs operator = some exprs') :
    Represents ctx exprs' (state.bind (operator.execute ctx ·)) := by
  cases operator with
  | i32Const value =>
    obtain rfl := Option.some.inj hpush
    exact h.leaf (some (.i32 value)) rfl fun _ => rfl
  | i64Const value =>
    obtain rfl := Option.some.inj hpush
    exact h.leaf (some (.i64 value)) rfl fun _ => rfl
  | f32Const bits =>
    obtain rfl := Option.some.inj hpush
    exact h.leaf (some (.f32 bits)) rfl fun _ => rfl
  | f64Const bits =>
    obtain rfl := Option.some.inj hpush
    exact h.leaf (some (.f64 bits)) rfl fun _ => rfl
  | globalGet index =>
    obtain rfl := Option.some.inj hpush
    exact h.leaf (ctx.getGlobal index) rfl fun _ => rfl
  | refFunc index =>
    obtain rfl := Option.some.inj hpush
    refine h.leaf ((ctx.getFunc index).map .funcRef) ?_ fun stack => ?_
    · rw [Option.map_map]
      rfl
    · rw [Option.map_map]
      rfl
  | refNull ty =>
    cases ty with
    | funcRef =>
      obtain rfl := Option.some.inj hpush
      exact h.leaf (some (.funcRef none)) rfl fun _ => rfl
    | externRef =>
      obtain rfl := Option.some.inj hpush
      exact h.leaf (some (.externRef 0)) rfl fun _ => rfl
    | _ => cases htyping
  | i32Add | i32Sub | i32Mul =>
    refine h.exprOp hpush fun stack hstack => ?_
    obtain ⟨rfl, rfl⟩ := Prod.mk.inj (Option.some.inj htyping)
    obtain ⟨rhs, lhs, rest, rfl, -⟩ := Wasmparser.i32_operands (htypes stack hstack)
    exact ⟨_, _, rest, _, rfl, rfl, (lift32_ofI32 _ lhs rhs).symm⟩
  | i64Add | i64Sub | i64Mul =>
    refine h.exprOp hpush fun stack hstack => ?_
    obtain ⟨rfl, rfl⟩ := Prod.mk.inj (Option.some.inj htyping)
    obtain ⟨rhs, lhs, rest, rfl, -⟩ := Wasmparser.i64_operands (htypes stack hstack)
    exact ⟨_, _, rest, _, rfl, rfl, rfl⟩
  | «end» | other => cases htyping

lemma newLoop_cons {rest : Wasmparser.ConstExpr} (hend : operator ≠ .end) :
    newLoop exprs (.ok operator :: rest) =
      (ConstExpr.pushOperator exprs operator).bind fun exprs => newLoop exprs rest := by
  cases operator with
  | «end» => exact absurd rfl hend
  | _ => rfl

/-- The rest of the expression. -/
lemma Represents.newLoop {expr : Wasmparser.ConstExpr} {result : ConstExpr}
    (h : Represents ctx exprs state) (hexpr : expr.HasTypeFrom globals ty types)
    (hfits : ctx.Fits globals) (htypes : ∀ stack, state = some stack → stack.map TypedVal.ty = types)
    (hnew : ConstExpr.newLoop exprs expr = some result) :
    result.evalIn ctx = (state.bind (expr.run ctx ·)).map TypedVal.toUntyped := by
  induction expr generalizing exprs state types with
  | nil => cases hexpr
  | cons item rest ih =>
    cases item with
    | error e => cases hexpr
    | ok operator =>
      by_cases hend : operator = .end
      · subst hend
        obtain ⟨rfl, rfl⟩ := hexpr
        match exprs, hnew with
        | [op], hnew =>
          obtain rfl := Option.some.inj hnew
          rw [Represents, mapM_cons_eq, List.mapM_nil] at h
          cases state with
          | none =>
            rw [Option.map_none] at h
            revert h
            cases op.evalIn ctx <;> simp
          | some stack =>
            obtain ⟨value, below, rfl, -, hbelow⟩ := List.map_eq_cons_iff.1 (htypes stack rfl)
            obtain rfl := List.map_eq_nil_iff.1 hbelow
            rw [Option.map_some] at h
            revert h
            show _ → op.evalIn ctx = some value.toUntyped
            cases op.evalIn ctx <;> simp
      · obtain ⟨pops, push, below, htyping, rfl, hrest⟩ :=
          (Wasmparser.ConstExpr.hasTypeFrom_cons hend).1 hexpr
        rw [newLoop_cons hend] at hnew
        obtain ⟨exprs', hpush, hnew⟩ := Option.bind_eq_some_iff.1 hnew
        have hstep := h.pushOperator htyping htypes hpush
        rw [ih hstep hrest (fun stack' hstack' => ?_) hnew, Option.bind_assoc]
        · have hrun : ∀ stack, Wasmparser.ConstExpr.run ctx stack (.ok operator :: rest) = _ :=
            fun stack => Wasmparser.ConstExpr.run_cons hend
          simp only [hrun]
        · obtain ⟨stack, hstack, hexec⟩ := Option.bind_eq_some_iff.1 hstack'
          exact operator.execute_typed htyping hfits (htypes stack hstack) hexec

/-! ## What reads the context -/

/-- Does an expression on the stack read the context? -/
def Reads (exprs : List ConstExpr) : Prop := ∃ expr ∈ exprs, expr.ReadsContext

lemma reads_pushOperator (hpush : ConstExpr.pushOperator exprs operator = some exprs') :
    Reads exprs' ↔ operator.readsContext = true ∨ Reads exprs := by
  have hconst : ∀ value, Reads (.const value :: exprs) ↔ False ∨ Reads exprs := by
    intro value
    simp only [Reads, List.mem_cons, exists_eq_or_imp, ReadsContext]
  have hop : ∀ op, ConstExpr.exprOp exprs op = some exprs' →
      (Reads exprs' ↔ False ∨ Reads exprs) := by
    intro op hop
    match exprs, hop with
    | rhs :: lhs :: exprs, hop =>
      obtain rfl := Option.some.inj hop
      simp only [Reads, List.mem_cons, exists_eq_or_imp, ReadsContext]
      tauto
  cases operator with
  | globalGet | refFunc =>
    obtain rfl := Option.some.inj hpush
    exact ⟨fun _ => .inl rfl, fun _ => ⟨_, List.mem_cons_self, trivial⟩⟩
  | refNull ty =>
    cases ty with
    | funcRef | externRef =>
      obtain rfl := Option.some.inj hpush
      simpa [Wasmparser.Operator.readsContext] using hconst 0
    | _ => cases hpush
  | i32Const | i64Const | f32Const | f64Const =>
    obtain rfl := Option.some.inj hpush
    simpa [Wasmparser.Operator.readsContext] using hconst _
  | i32Add | i32Sub | i32Mul | i64Add | i64Sub | i64Mul =>
    simpa [Wasmparser.Operator.readsContext] using hop _ hpush
  | «end» | other => cases hpush

/-- Nothing on the stack and no operator is dropped. -/
lemma reads_newLoop {expr : Wasmparser.ConstExpr} {result : ConstExpr}
    (hnew : ConstExpr.newLoop exprs expr = some result) : result.ReadsContext ↔
      Reads exprs ∨ ∃ operator, .ok operator ∈ expr ∧ operator.readsContext = true := by
  induction expr generalizing exprs with
  | nil => cases hnew
  | cons item rest ih =>
    cases item with
    | error e => cases hnew
    | ok operator =>
      by_cases hend : operator = .end
      · subst hend
        cases rest with
        | cons item rest => cases hnew
        | nil =>
          match exprs, hnew with
          | [op], hnew =>
            obtain rfl := Option.some.inj hnew
            simp [Reads, Wasmparser.Operator.readsContext]
      · rw [newLoop_cons hend] at hnew
        obtain ⟨exprs', hpush, hnew⟩ := Option.bind_eq_some_iff.1 hnew
        rw [ih hnew, reads_pushOperator hpush]
        simp only [List.mem_cons, Except.ok.injEq, or_and_right, exists_or, exists_eq_left]
        tauto

end ConstExpr

/-! ## Constant expressions -/

/-- `ConstExpr::new` makes of a valid expression one that has the value of the stack machine in
every context with globals of the right types, and without a context exactly where no operator
reads one. -/
theorem constExpr_exact {globals : Nat → Option ValType} {ty : ValType}
    {expr : Wasmparser.ConstExpr} (h : expr.HasType globals ty) :
    ∃ e, ConstExpr.new expr = some e ∧
      (∀ ctx : EvalContext, ctx.Fits globals →
        e.evalIn ctx = (expr.run ctx []).map TypedVal.toUntyped ∧
        (ctx.Covers expr → ∃ value, expr.run ctx [] = some value ∧ value.ty = ty)) ∧
      (e.evalConst = none ↔ ∃ operator, .ok operator ∈ expr ∧ operator.readsContext = true) ∧
      ∀ value, e.evalConst = some value → ∀ ctx, e.evalIn ctx = some value := by
  obtain ⟨e, hnew⟩ := Option.isSome_iff_exists.1 (ConstExpr.isSome_new h.validFrom)
  refine ⟨e, hnew, fun ctx hfits => ⟨?_, fun hcovers => h.run_typed hfits hcovers rfl⟩, ?_, ?_⟩
  · have hempty : ConstExpr.Represents ctx [] (some []) := rfl
    refine hempty.newLoop h hfits (fun stack hstack => ?_) hnew
    rw [← Option.some.inj hstack]
    rfl
  · rw [e.evalConst_eq_none, ConstExpr.reads_newLoop hnew]
    simp [ConstExpr.Reads]
  · intro value hvalue ctx
    exact e.evalIn_of_evalConst ctx hvalue

/-- `(i32.sub (global.get 0) (i32.const 1))`. -/
theorem constExpr_exact_sub :
    Wasmparser.ConstExpr.HasType (fun _ => some .i32)
      [.ok (.globalGet 0), .ok (.i32Const 1), .ok .i32Sub, .ok .end] .i32 ∧
    ∃ e, ConstExpr.new [.ok (.globalGet 0), .ok (.i32Const 1), .ok .i32Sub, .ok .end] = some e ∧
      e.evalConst = none ∧
      e.evalIn ⟨fun _ => some (.i32 0), fun _ => none⟩ = some (UntypedVal.ofI32 0xFFFFFFFF) := by
  have htype : Wasmparser.ConstExpr.HasType (fun _ => some .i32)
      [.ok (.globalGet 0), .ok (.i32Const 1), .ok .i32Sub, .ok .end] .i32 :=
    ⟨[], .i32, [], rfl, rfl, [], .i32, [.i32], rfl, rfl, [.i32, .i32], .i32, [], rfl, rfl, rfl, rfl⟩
  obtain ⟨e, hnew, hrun, hconst, -⟩ := constExpr_exact htype
  refine ⟨htype, e, hnew, hconst.2 ⟨.globalGet 0, List.mem_cons_self, rfl⟩, ?_⟩
  rw [(hrun ⟨fun _ => some (.i32 0), fun _ => none⟩ fun index value hvalue => ?_).1]
  · rfl
  · rw [← Option.some.inj hvalue]
    rfl

end MotokoDebugger
