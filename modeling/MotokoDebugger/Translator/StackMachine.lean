import MotokoDebugger.Translator.Operators

/-!
# The Wasm stack machine

What the straight-line code of Wasm on integers and locals means: constants, `local.get`,
`local.set`, `local.tee`, `drop`, `select` and the operators on integers, over a stack of values.

* `Value`, `State`: values of Wasm, and the locals with the stack.
* `Operator.exec`, `run`: what an operator does, and operators one after the other.
* `Operator.check`, `check`: their validation.
* `exec_of_check`: what is valid does not get stuck, and leaves values of the types.
-/

namespace MotokoDebugger.StackMachine

/-! ## Values -/

/-- A value of Wasm, a reference by its bits. -/
inductive Value where
  | i32 (bits : BitVec 32)
  | i64 (bits : BitVec 64)
  | f32 (bits : BitVec 32)
  | f64 (bits : BitVec 64)
  | funcRef (bits : BitVec 64)
  | externRef (bits : BitVec 64)
deriving Repr, DecidableEq

namespace Value

def ty : Value → ValType
  | .i32 _ => .i32
  | .i64 _ => .i64
  | .f32 _ => .f32
  | .f64 _ => .f64
  | .funcRef _ => .funcRef
  | .externRef _ => .externRef

/-- The cell that holds the value. -/
def cell : Value → UntypedVal
  | .i32 bits | .f32 bits => .ofI32 bits
  | .i64 bits | .f64 bits | .funcRef bits | .externRef bits => bits

/-- The value as a constant of the translator. -/
def typed (value : Value) : Translator.TypedVal where
  ty := value.ty
  value := value.cell
  upper h := by
    cases value with
    | i32 bits | f32 bits => exact UntypedVal.ofI32_eq bits
    | _ => simp [ty] at h

/-- The integer of the type. -/
def toInt : (ty : IntType) → Value → Option (BitVec ty.bits)
  | .i32, .i32 bits => some bits
  | .i64, .i64 bits => some bits
  | _, _ => none

def ofInt : (ty : IntType) → BitVec ty.bits → Value
  | .i32, bits => .i32 bits
  | .i64, bits => .i64 bits

def ofBool (value : Bool) : Value := .i32 (if value then 1 else 0)

/-- The value of the type in the cell. -/
def ofCell : ValType → UntypedVal → Value
  | .i32, cell => .i32 cell.toI32
  | .i64, cell => .i64 cell
  | .f32, cell => .f32 cell.toI32
  | .f64, cell => .f64 cell
  | .funcRef, cell => .funcRef cell
  | .externRef, cell => .externRef cell

variable {value : Value} {T : IntType}

@[simp] lemma ty_ofInt (bits : BitVec T.bits) : (ofInt T bits).ty = T.valType := by cases T <;> rfl

@[simp] lemma cell_ofInt (bits : BitVec T.bits) : (ofInt T bits).cell = .ofInt bits := by
  cases T with
  | i32 => rfl
  | i64 =>
    show bits = bits.setWidth 64
    exact (BitVec.setWidth_eq bits).symm

@[simp] lemma ty_ofBool (b : Bool) : (ofBool b).ty = .i32 := rfl

@[simp] lemma cell_ofBool (b : Bool) : (ofBool b).cell = .ofBool b := by cases b <;> rfl

@[simp] lemma ty_ofCell (ty : ValType) (cell : UntypedVal) : (ofCell ty cell).ty = ty := by
  cases ty <;> rfl

lemma cell_ofCell {ty : ValType} {cell : UntypedVal}
    (h : ty = .i32 ∨ ty = .f32 → cell = .ofI32 cell.toI32) : (ofCell ty cell).cell = cell := by
  cases ty with
  | i32 => exact (h (.inl rfl)).symm
  | f32 => exact (h (.inr rfl)).symm
  | _ => rfl

lemma eq_ofInt (h : value.ty = T.valType) : ∃ bits, value = ofInt T bits := by
  cases T with
  | i32 =>
    cases value with
    | i32 bits => exact ⟨bits, rfl⟩
    | _ => cases h
  | i64 =>
    cases value with
    | i64 bits => exact ⟨bits, rfl⟩
    | _ => cases h

@[simp] lemma toInt_ofInt (bits : BitVec T.bits) : toInt T (ofInt T bits) = some bits := by
  cases T <;> rfl

end Value

/-! ## Operators -/

/-- The operators with one operand, `eqz` apart. -/
inductive Unop where
  | i32Clz | i32Ctz | i32Popcnt | i64Clz | i64Ctz | i64Popcnt
  | i32WrapI64 | i64ExtendI32S | i64ExtendI32U
  | i32ReinterpretF32 | i64ReinterpretF64 | f32ReinterpretI32 | f64ReinterpretI64
  | i32Extend8S | i32Extend16S | i64Extend8S | i64Extend16S | i64Extend32S
deriving Repr, DecidableEq

namespace Unop

def input : Unop → ValType
  | .i32Clz | .i32Ctz | .i32Popcnt | .i64ExtendI32S | .i64ExtendI32U | .f32ReinterpretI32
  | .i32Extend8S | .i32Extend16S => .i32
  | .i64Clz | .i64Ctz | .i64Popcnt | .i32WrapI64 | .f64ReinterpretI64 | .i64Extend8S
  | .i64Extend16S | .i64Extend32S => .i64
  | .i32ReinterpretF32 => .f32
  | .i64ReinterpretF64 => .f64

def output : Unop → ValType
  | .i32Clz | .i32Ctz | .i32Popcnt | .i32WrapI64 | .i32ReinterpretF32 | .i32Extend8S
  | .i32Extend16S => .i32
  | .i64Clz | .i64Ctz | .i64Popcnt | .i64ExtendI32S | .i64ExtendI32U | .i64ReinterpretF64
  | .i64Extend8S | .i64Extend16S | .i64Extend32S => .i64
  | .f32ReinterpretI32 => .f32
  | .f64ReinterpretI64 => .f64

def eval : Unop → Value → Option Value
  | .i32Clz, .i32 bits => some (.i32 bits.clz)
  | .i32Ctz, .i32 bits => some (.i32 bits.ctz)
  | .i32Popcnt, .i32 bits => some (.i32 bits.cpop)
  | .i64Clz, .i64 bits => some (.i64 bits.clz)
  | .i64Ctz, .i64 bits => some (.i64 bits.ctz)
  | .i64Popcnt, .i64 bits => some (.i64 bits.cpop)
  | .i32WrapI64, .i64 bits => some (.i32 (bits.truncate 32))
  | .i64ExtendI32S, .i32 bits => some (.i64 (bits.signExtend 64))
  | .i64ExtendI32U, .i32 bits => some (.i64 (bits.zeroExtend 64))
  | .i32ReinterpretF32, .f32 bits => some (.i32 bits)
  | .i64ReinterpretF64, .f64 bits => some (.i64 bits)
  | .f32ReinterpretI32, .i32 bits => some (.f32 bits)
  | .f64ReinterpretI64, .i64 bits => some (.f64 bits)
  | .i32Extend8S, .i32 bits => some (.i32 ((bits.truncate 8).signExtend 32))
  | .i32Extend16S, .i32 bits => some (.i32 ((bits.truncate 16).signExtend 32))
  | .i64Extend8S, .i64 bits => some (.i64 ((bits.truncate 8).signExtend 64))
  | .i64Extend16S, .i64 bits => some (.i64 ((bits.truncate 16).signExtend 64))
  | .i64Extend32S, .i64 bits => some (.i64 ((bits.truncate 32).signExtend 64))
  | _, _ => none

lemma eval_of_ty {op : Unop} {value : Value} (h : value.ty = op.input) :
    ∃ result, op.eval value = some result ∧ result.ty = op.output := by
  cases op <;> cases value <;> first | exact ⟨_, rfl, rfl⟩ | cases h

end Unop

/-- The operators of straight-line code. A typed `select` has a type. -/
inductive Operator where
  | const (value : Value)
  | localGet (localIndex : UInt32)
  | localSet (localIndex : UInt32)
  | localTee (localIndex : UInt32)
  | drop
  | select (ty : Option ValType)
  | unop (op : Unop)
  | eqz (ty : IntType)
  | binop (ty : IntType) (op : IntBinop)
  | relop (ty : IntType) (op : IntRelop)
deriving Repr, DecidableEq

/-- The locals and the stack, from its top down. -/
structure State where
  locals : List Value
  stack : List Value
deriving Repr, DecidableEq

namespace State

def push (state : State) (value : Value) : State := { state with stack := value :: state.stack }

def setLocal (state : State) (localIndex : UInt32) (value : Value) : State :=
  { state with locals := state.locals.set localIndex.toNat value }

/-- The last of the values is on top. -/
def pushes (state : State) (values : List Value) : State := values.foldl push state

end State

/-- What an operator does. `none` where the stack does not have its operands. -/
def Operator.exec (state : State) : Operator → Option (Except TrapCode State)
  | .const value => some (.ok { state with stack := value :: state.stack })
  | .localGet localIndex =>
    state.locals[localIndex.toNat]?.map fun value =>
      .ok { state with stack := value :: state.stack }
  | .localSet localIndex =>
    match state.stack with
    | value :: stack =>
      if localIndex.toNat < state.locals.length then
        some (.ok ⟨state.locals.set localIndex.toNat value, stack⟩)
      else none
    | [] => none
  | .localTee localIndex =>
    match state.stack with
    | value :: stack =>
      if localIndex.toNat < state.locals.length then
        some (.ok ⟨state.locals.set localIndex.toNat value, value :: stack⟩)
      else none
    | [] => none
  | .drop =>
    match state.stack with
    | _ :: stack => some (.ok { state with stack })
    | [] => none
  | .select _ =>
    match state.stack with
    | .i32 condition :: rhs :: lhs :: stack =>
      some (.ok { state with stack := (if condition ≠ 0 then lhs else rhs) :: stack })
    | _ => none
  | .unop op =>
    match state.stack with
    | value :: stack =>
      (op.eval value).map fun result => .ok { state with stack := result :: stack }
    | [] => none
  | .eqz ty =>
    match state.stack with
    | value :: stack =>
      (value.toInt ty).map fun bits =>
        .ok { state with stack := .ofBool (IntRelop.eq.eval bits 0) :: stack }
    | [] => none
  | .binop ty op =>
    match state.stack with
    | rhs :: lhs :: stack =>
      (lhs.toInt ty).bind fun lhs => (rhs.toInt ty).map fun rhs =>
        (op.eval lhs rhs).map fun bits => { state with stack := .ofInt ty bits :: stack }
    | _ => none
  | .relop ty op =>
    match state.stack with
    | rhs :: lhs :: stack =>
      (lhs.toInt ty).bind fun lhs => (rhs.toInt ty).map fun rhs =>
        .ok { state with stack := .ofBool (op.eval lhs rhs) :: stack }
    | _ => none

/-- The operators, one after the other, up to a trap. -/
def run (state : State) : List Operator → Option (Except TrapCode State)
  | [] => some (.ok state)
  | op :: ops =>
    match op.exec state with
    | some (.ok state) => run state ops
    | some (.error trapCode) => some (.error trapCode)
    | none => none

/-- What happens behind an outcome: nothing behind a trap. -/
def resume (k : State → Option (Except TrapCode State)) :
    Except TrapCode State → Option (Except TrapCode State)
  | .ok state => k state
  | .error trapCode => some (.error trapCode)

lemma run_cons (state : State) (op : Operator) (ops : List Operator) :
    run state (op :: ops) = (op.exec state).bind (resume (run · ops)) := by
  rw [run]
  cases op.exec state with
  | none => rfl
  | some outcome => cases outcome <;> rfl

/-- The first operator, and then the others. -/
lemma resume_run {outcome outcome' : Except TrapCode State} {op : Operator}
    (h : resume op.exec outcome = some outcome') (ops : List Operator) :
    resume (run · (op :: ops)) outcome = resume (run · ops) outcome' := by
  cases outcome with
  | ok state =>
    show run state (op :: ops) = _
    have h : op.exec state = some outcome' := h
    rw [run_cons, h, Option.bind_some]
  | error trapCode =>
    rw [← Option.some.inj h]
    rfl

/-! ## Validation -/

/-- The types of the stack behind an operator, from its top down. -/
def Operator.check (locals : List ValType) (op : Operator) (types : List ValType) :
    Option (List ValType) :=
  match op, types with
  | .const value, types => some (value.ty :: types)
  | .localGet localIndex, types => locals[localIndex.toNat]?.map (· :: types)
  | .localSet localIndex, ty :: types =>
    if locals[localIndex.toNat]? = some ty then some types else none
  | .localTee localIndex, ty :: types =>
    if locals[localIndex.toNat]? = some ty then some (ty :: types) else none
  | .drop, _ :: types => some types
  | .select hint, .i32 :: rhs :: lhs :: types =>
    if lhs = rhs ∧ (hint = none ∧ lhs ≠ .funcRef ∧ lhs ≠ .externRef ∨ hint = some lhs) then
      some (lhs :: types)
    else none
  | .unop op, ty :: types => if ty = op.input then some (op.output :: types) else none
  | .eqz intType, ty :: types => if ty = intType.valType then some (.i32 :: types) else none
  | .binop intType _, rhs :: lhs :: types =>
    if lhs = intType.valType ∧ rhs = intType.valType then some (intType.valType :: types) else none
  | .relop intType _, rhs :: lhs :: types =>
    if lhs = intType.valType ∧ rhs = intType.valType then some (.i32 :: types) else none
  | _, _ => none

def check (locals : List ValType) : List Operator → List ValType → Option (List ValType)
  | [], types => some types
  | op :: ops, types => (op.check locals types).bind (check locals ops)

/-- The values have the types. -/
structure State.Typed (state : State) (locals types : List ValType) : Prop where
  locals : state.locals.map Value.ty = locals
  stack : state.stack.map Value.ty = types

/-- The operators that are valid on a stack, with the stack behind them. -/
inductive Operator.Checks (locals : List ValType) :
    Operator → List ValType → List ValType → Prop where
  | const (value : Value) {types : List ValType} :
    Checks locals (.const value) types (value.ty :: types)
  | localGet {localIndex : UInt32} {ty : ValType} {types : List ValType}
    (hlocal : locals[localIndex.toNat]? = some ty) :
    Checks locals (.localGet localIndex) types (ty :: types)
  | localSet {localIndex : UInt32} {ty : ValType} {types : List ValType}
    (hlocal : locals[localIndex.toNat]? = some ty) :
    Checks locals (.localSet localIndex) (ty :: types) types
  | localTee {localIndex : UInt32} {ty : ValType} {types : List ValType}
    (hlocal : locals[localIndex.toNat]? = some ty) :
    Checks locals (.localTee localIndex) (ty :: types) (ty :: types)
  | drop {ty : ValType} {types : List ValType} : Checks locals .drop (ty :: types) types
  | select {hint : Option ValType} {ty : ValType} {types : List ValType} :
    Checks locals (.select hint) (.i32 :: ty :: ty :: types) (ty :: types)
  | unop (op : Unop) {types : List ValType} :
    Checks locals (.unop op) (op.input :: types) (op.output :: types)
  | eqz (intType : IntType) {types : List ValType} :
    Checks locals (.eqz intType) (intType.valType :: types) (.i32 :: types)
  | binop (intType : IntType) (op : IntBinop) {types : List ValType} :
    Checks locals (.binop intType op) (intType.valType :: intType.valType :: types)
      (intType.valType :: types)
  | relop (intType : IntType) (op : IntRelop) {types : List ValType} :
    Checks locals (.relop intType op) (intType.valType :: intType.valType :: types) (.i32 :: types)

section Check

variable {state : State} {locals types types' : List ValType} {op : Operator}

lemma map_eq_cons {values : List Value} {ty : ValType} (h : values.map Value.ty = ty :: types) :
    ∃ value rest, values = value :: rest ∧ value.ty = ty ∧ rest.map Value.ty = types := by
  obtain ⟨value, rest, rfl, hty, hrest⟩ := List.map_eq_cons_iff.1 h
  exact ⟨value, rest, rfl, hty, hrest⟩

/-- The types that the validation of an operator asks for. -/
lemma checks_of_check (h : op.check locals types = some types') :
    op.Checks locals types types' := by
  cases op with
  | const value =>
    obtain rfl := Option.some.inj h
    exact .const value
  | localGet localIndex =>
    obtain ⟨ty, hlocal, rfl⟩ := Option.map_eq_some_iff.1 h
    exact .localGet hlocal
  | localSet localIndex =>
    obtain - | ⟨ty, types⟩ := types
    · cases h
    obtain ⟨hlocal, heq⟩ := Option.ite_none_right_eq_some.1 h
    obtain rfl := Option.some.inj heq
    exact .localSet hlocal
  | localTee localIndex =>
    obtain - | ⟨ty, types⟩ := types
    · cases h
    obtain ⟨hlocal, heq⟩ := Option.ite_none_right_eq_some.1 h
    obtain rfl := Option.some.inj heq
    exact .localTee hlocal
  | drop =>
    obtain - | ⟨ty, types⟩ := types
    · cases h
    obtain rfl := Option.some.inj h
    exact .drop
  | select hint =>
    obtain - | ⟨condition, types⟩ := types
    · cases h
    obtain - | ⟨rhs, types⟩ := types
    · cases condition <;> cases h
    obtain - | ⟨lhs, types⟩ := types
    · cases condition <;> cases h
    cases condition with
    | i32 =>
      obtain ⟨⟨rfl, -⟩, heq⟩ := Option.ite_none_right_eq_some.1 h
      obtain rfl := Option.some.inj heq
      exact .select
    | _ => cases h
  | unop op =>
    obtain - | ⟨ty, types⟩ := types
    · cases h
    obtain ⟨rfl, heq⟩ := Option.ite_none_right_eq_some.1 h
    obtain rfl := Option.some.inj heq
    exact .unop op
  | eqz intType =>
    obtain - | ⟨ty, types⟩ := types
    · cases h
    obtain ⟨rfl, heq⟩ := Option.ite_none_right_eq_some.1 h
    obtain rfl := Option.some.inj heq
    exact .eqz intType
  | binop intType op =>
    obtain - | ⟨rhs, types⟩ := types
    · cases h
    obtain - | ⟨lhs, types⟩ := types
    · cases h
    obtain ⟨⟨rfl, rfl⟩, heq⟩ := Option.ite_none_right_eq_some.1 h
    obtain rfl := Option.some.inj heq
    exact .binop intType op
  | relop intType op =>
    obtain - | ⟨rhs, types⟩ := types
    · cases h
    obtain - | ⟨lhs, types⟩ := types
    · cases h
    obtain ⟨⟨rfl, rfl⟩, heq⟩ := Option.ite_none_right_eq_some.1 h
    obtain rfl := Option.some.inj heq
    exact .relop intType op

lemma State.Typed.push (h : state.Typed locals types) (value : Value) :
    (state.push value).Typed locals (value.ty :: types) := by
  refine ⟨h.locals, ?_⟩
  show value.ty :: state.stack.map Value.ty = value.ty :: types
  rw [h.stack]

lemma State.Typed.setLocal (h : state.Typed locals types) {index : Nat} {value : Value}
    (hlocal : locals[index]? = some value.ty) {stack : List Value}
    (hstack : stack.map Value.ty = types') :
    index < state.locals.length ∧
      State.Typed ⟨state.locals.set index value, stack⟩ locals types' := by
  obtain ⟨hlt, hty⟩ := List.getElem?_eq_some_iff.1 hlocal
  refine ⟨?_, ?_, hstack⟩
  · rw [← h.locals, List.length_map] at hlt
    exact hlt
  · show (state.locals.set index value).map Value.ty = locals
    rw [List.map_set, h.locals, ← hty, List.set_getElem_self]

/-- What is valid does not get stuck, and leaves values of the types. -/
lemma exec_of_check (h : state.Typed locals types) (hcheck : op.check locals types = some types') :
    ∃ outcome, op.exec state = some outcome ∧
      ∀ state', outcome = .ok state' → state'.Typed locals types' := by
  obtain ⟨values, stack⟩ := state
  have hstack := h.stack
  cases checks_of_check hcheck with
  | const value =>
    refine ⟨_, rfl, fun state' heq => ?_⟩
    obtain rfl := Except.ok.inj heq
    exact h.push value
  | localGet hty =>
    rw [← h.locals, List.getElem?_map] at hty
    obtain ⟨value, hvalue, rfl⟩ := Option.map_eq_some_iff.1 hty
    refine ⟨_, congrArg (Option.map _) hvalue, fun state' heq => ?_⟩
    obtain rfl := Except.ok.inj heq
    exact h.push value
  | localSet hlocal =>
    obtain ⟨value, rest, rfl, rfl, hrest⟩ := map_eq_cons hstack
    obtain ⟨hlt, htyped⟩ := h.setLocal hlocal hrest
    refine ⟨_, if_pos hlt, fun state' heq => ?_⟩
    obtain rfl := Except.ok.inj heq
    exact htyped
  | localTee hlocal =>
    obtain ⟨value, rest, rfl, rfl, hrest⟩ := map_eq_cons hstack
    obtain ⟨hlt, htyped⟩ := h.setLocal hlocal hstack
    refine ⟨_, if_pos hlt, fun state' heq => ?_⟩
    obtain rfl := Except.ok.inj heq
    exact htyped
  | drop =>
    obtain ⟨value, rest, rfl, rfl, hrest⟩ := map_eq_cons hstack
    refine ⟨_, rfl, fun state' heq => ?_⟩
    obtain rfl := Except.ok.inj heq
    exact ⟨h.locals, hrest⟩
  | select =>
    obtain ⟨condition, rest₁, rfl, hcondition, hrest₁⟩ := map_eq_cons hstack
    obtain ⟨y, rest₂, rfl, hy, hrest₂⟩ := map_eq_cons hrest₁
    obtain ⟨x, rest, rfl, hx, hrest⟩ := map_eq_cons hrest₂
    obtain ⟨bits, rfl⟩ : ∃ bits : BitVec 32, condition = .i32 bits :=
      Value.eq_ofInt (T := .i32) hcondition
    refine ⟨_, rfl, fun state' heq => ?_⟩
    obtain rfl := Except.ok.inj heq
    refine ⟨h.locals, ?_⟩
    show (if bits ≠ 0 then x else y).ty :: rest.map Value.ty = _
    rw [hrest]
    split
    · rw [hx]
    · rw [hy]
  | unop op =>
    obtain ⟨value, rest, rfl, hvalue, hrest⟩ := map_eq_cons hstack
    obtain ⟨result, heval, hresult⟩ := Unop.eval_of_ty hvalue
    refine ⟨_, congrArg (Option.map _) heval, fun state' heq => ?_⟩
    obtain rfl := Except.ok.inj heq
    refine ⟨h.locals, ?_⟩
    rw [List.map_cons, hresult, hrest]
  | eqz intType =>
    obtain ⟨value, rest, rfl, hty, hrest⟩ := map_eq_cons hstack
    obtain ⟨bits, rfl⟩ := Value.eq_ofInt hty
    refine ⟨_, congrArg (Option.map _) (Value.toInt_ofInt bits), fun state' heq => ?_⟩
    obtain rfl := Except.ok.inj heq
    exact ⟨h.locals, by rw [List.map_cons, Value.ty_ofBool, hrest]⟩
  | binop intType op =>
    obtain ⟨y, rest₁, rfl, hy, hrest₁⟩ := map_eq_cons hstack
    obtain ⟨x, rest, rfl, hx, hrest⟩ := map_eq_cons hrest₁
    obtain ⟨a, rfl⟩ := Value.eq_ofInt hx
    obtain ⟨b, rfl⟩ := Value.eq_ofInt hy
    refine ⟨(op.eval a b).map fun bits => ⟨values, .ofInt intType bits :: rest⟩, ?_, ?_⟩
    · simp only [Operator.exec, Value.toInt_ofInt, Option.bind_some, Option.map_some]
    · intro state' heq
      cases hop : op.eval a b with
      | error trapCode =>
        rw [hop] at heq
        cases heq
      | ok bits =>
        rw [hop] at heq
        obtain rfl := Except.ok.inj heq
        exact ⟨h.locals, by rw [List.map_cons, Value.ty_ofInt, hrest]⟩
  | relop intType op =>
    obtain ⟨y, rest₁, rfl, hy, hrest₁⟩ := map_eq_cons hstack
    obtain ⟨x, rest, rfl, hx, hrest⟩ := map_eq_cons hrest₁
    obtain ⟨a, rfl⟩ := Value.eq_ofInt hx
    obtain ⟨b, rfl⟩ := Value.eq_ofInt hy
    refine ⟨.ok ⟨values, .ofBool (op.eval a b) :: rest⟩, ?_, fun state' heq => ?_⟩
    · simp only [Operator.exec, Value.toInt_ofInt, Option.bind_some, Option.map_some]
    · obtain rfl := Except.ok.inj heq
      exact ⟨h.locals, by rw [List.map_cons, Value.ty_ofBool, hrest]⟩

end Check

end MotokoDebugger.StackMachine
