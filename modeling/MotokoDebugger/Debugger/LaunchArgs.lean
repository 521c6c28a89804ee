import MotokoDebugger.Debugger.FailedRuns
import MotokoDebugger.Lib.Decimals
import MotokoDebugger.Lib.Fallible

/-!
# The arguments of a launch

`process launch` in `debugger/src/commands/process.rs` takes the type of an argument from its text
alone, `decode_func_args` in `utils.rs` from the signature.

* `startDebugger`, `decodeFuncArgs`: the two.
* `convertToVal_toString`, `decodeFuncArgs_toString`: what they make of the texts of integers.
* `arguments_reach_iff`: when both hand the integers to the function.
-/

namespace MotokoDebugger

open Decimal

/-! ## Numbers as values -/

namespace Val

/-- `Val::from` for `i32`. -/
def ofI32 (value : Int) : Val := ⟨.i32, .ofI32 (BitVec.ofInt 32 value)⟩

/-- `Val::from` for `i64`. -/
def ofI64 (value : Int) : Val := ⟨.i64, BitVec.ofInt 64 value⟩

/-- `Val::from` for `F32`, from its bits. -/
def ofF32 (bits : Nat) : Val := ⟨.f32, .ofI32 (BitVec.ofNat 32 bits)⟩

/-- `Val::from` for `F64`, from its bits. -/
def ofF64 (bits : Nat) : Val := ⟨.f64, BitVec.ofNat 64 bits⟩

end Val

/-- `str::parse` for the Rust type of a number type, and `Val::from`. -/
def parseVal (text : String) : ValType → Option Val
  | .i32 => (parseInt 32 text).map Val.ofI32
  | .i64 => (parseInt 64 text).map Val.ofI64
  | .f32 => (parseFloat binary32 text).map Val.ofF32
  | .f64 => (parseFloat binary64 text).map Val.ofF64
  | .funcRef | .externRef => none

/-- One argument in `convert_to_val`. -/
def convertText (text : String) : Except String Val :=
  match parseVal text .i32 with
  | some val => .ok val
  | none =>
    match parseVal text .f32 with
    | some val => .ok val
    | none =>
      match parseVal text .i64 with
      | some val => .ok val
      | none =>
        match parseVal text .f64 with
        | some val => .ok val
        | none => .error ("Failed to parse '" ++ text ++ "' as a valid number")

/-- `convert_to_val`. -/
def convertToVal (v : List String) : Except String (List Val) := v.mapM convertText

/-- `DisplayValueType`. -/
def displayValueType : ValType → String
  | .i32 => "i32"
  | .i64 => "i64"
  | .f32 => "f32"
  | .f64 => "f64"
  | .funcRef => "funcref"
  | .externRef => "externref"

/-- One argument in `decode_func_args`. -/
def decodeArg (n : Nat) (paramType : ValType) (arg : String) : Except String Val :=
  match paramType with
  | .funcRef => .error "the wasmi CLI cannot take arguments of type funcref"
  | .externRef => .error "the wasmi CLI cannot take arguments of type externref"
  | paramType =>
    match parseVal arg paramType with
    | some val => .ok val
    | none =>
      .error ("failed to parse function argument " ++ arg ++ " at index " ++ toString n ++ " as "
        ++ displayValueType paramType)

/-- `decode_func_args`. -/
def decodeFuncArgs (ty : FuncType) (args : List String) : Except String (List Val) :=
  (ty.params.zip args).zipIdx.mapM fun p => decodeArg p.2 p.1.1 p.1.2

namespace Debugger

open StateExcept Executor

variable {T : Type} {env : Engine T}

/-! ## The launch -/

/-- `MainDebugger::is_running`. -/
def isRunning (s : Session T) : Bool := s.executor ≠ .absent

/-- The beginning of `start_debugger`: instantiates anew, with a running process only if the line
`input` says so. -/
def restart (launch : Launch T) (input : String) : DbgM T Unit := do
  if isRunning (← get) then
    (if input = "Y\n" ∨ input = "y\n" then instantiate launch else pure ())
  else instantiate launch

/-- What a launch comes to; an error of `run` is printed. -/
inductive LaunchReport where
  | finish (values : List Val)
  | breakpoint
  | next
  | failed (error : Error)
deriving Repr, DecidableEq

def LaunchReport.ofResult : RunResult → LaunchReport
  | .finish values => .finish values
  | .breakpoint => .breakpoint
  | .next => .next

/-- The report on `run`. -/
def reportRun (x : DbgM T (Option RunResult)) : DbgM T (Option LaunchReport) := fun s =>
  match x s with
  | .ok result s' => .ok (result.map LaunchReport.ofResult) s'
  | .error (.fault error) s' => .ok (some (.failed error)) s'
  | .error stop s' => .error stop s'

/-- `ProcessCommand::start_debugger`. -/
def startDebugger (env : Engine T) (launch : Launch T) (input : String) (start : Option String)
    (wasiArgs : List String) (fuel : Nat) : DbgM T (Option LaunchReport) := do
  restart launch input
  match convertToVal wasiArgs with
  | .error text => bail text
  | .ok args => reportRun (run env start args fuel)

/-- `run` before the first step. -/
def startRun (env : Engine T) (name : Option String) (args : List Val) : DbgM T Unit := do
  modify fun s => { s with isInterrupted := true }
  let some func ← lookupFunc name | bail (noFunctionFound name)
  modify fun s => { s with runFunc := some func }
  executeFunc env func args

/-- `start_debugger` before the first step. -/
def startLaunch (env : Engine T) (launch : Launch T) (input : String) (start : Option String)
    (wasiArgs : List String) : DbgM T Unit := do
  restart launch input
  match convertToVal wasiArgs with
  | .error text => bail text
  | .ok args => startRun env start args

lemma launch_eq (name : Option String) (args : List Val) (fuel : Nat) :
    run env name args fuel = startRun env name args >>= fun _ => process env fuel := by
  simp only [run, startRun, bind_assoc]
  refine bind_congr fun _ => bind_congr fun found => ?_
  cases found with
  | none => rfl
  | some func => rfl

/-- A launch starts the function, and only what comes after that is the run. -/
theorem startDebugger_of_started {launch : Launch T} {input : String} {start : Option String}
    {wasiArgs : List String} {s s' : Session T}
    (h : startLaunch env launch input start wasiArgs s = .ok () s') (fuel : Nat) :
    startDebugger env launch input start wasiArgs fuel s = reportRun (process env fuel) s' := by
  obtain ⟨_, s₀, hrestart, hstart⟩ := bind_eq_ok.mp h
  rw [startDebugger, bind_ok hrestart]
  cases hargs : convertToVal wasiArgs with
  | error text =>
    rw [hargs] at hstart
    cases hstart
  | ok args =>
    rw [hargs] at hstart
    show reportRun (run env start args fuel) s₀ = _
    unfold reportRun
    rw [launch_eq, bind_ok hstart]

/-- A launch that does not start the function shows the error. -/
theorem startDebugger_of_refused {launch : Launch T} {input : String} {start : Option String}
    {wasiArgs : List String} {s s' : Session T} {error : Error}
    (h : startLaunch env launch input start wasiArgs s = .error (.fault error) s') (fuel : Nat) :
    startDebugger env launch input start wasiArgs fuel s = .error (.fault error) s' ∨
      startDebugger env launch input start wasiArgs fuel s = .ok (some (.failed error)) s' := by
  rcases bind_eq_error.mp h with hrestart | ⟨_, s₀, hrestart, hstart⟩
  · left
    rw [startDebugger, bind_error hrestart]
  · rw [startDebugger, bind_ok hrestart]
    cases hargs : convertToVal wasiArgs with
    | error text =>
      left
      rw [hargs] at hstart
      cases hstart
      rfl
    | ok args =>
      right
      rw [hargs] at hstart
      show reportRun (run env start args fuel) s₀ = _
      unfold reportRun
      rw [launch_eq, bind_error hstart]

/-! ## Entering a function -/

/-- `execute_func` behind its checks. -/
def enterFunc (env : Engine T) (wasmFunc : WasmFuncEntity) (params : List UntypedVal) :
    DbgM T Unit := do
  onMachine (prepareFunc env wasmFunc (env.funcType wasmFunc.ty).results.length params)
  let importFuncLen ← getImportFuncLen
  modify fun s => { s with
    executor := .live
    invokedFuncIndex := (wasmFunc.body + importFuncLen) :: s.invokedFuncIndex }

/-- `execute_func` with arguments of the types of the signature. -/
lemma executeFunc_of_types {s : Session T} {func : Nat} {wasmFunc : WasmFuncEntity}
    {params : List Val} (hfunc : s.machine.store.funcs[func]? = some (.wasm wasmFunc))
    (htypes : (env.funcType wasmFunc.ty).params = params.map (·.ty)) :
    executeFunc env func params s = enterFunc env wasmFunc (params.map (·.bits)) s := by
  have hget : unwrap s.machine.store.funcs[func]? s = .ok (.wasm wasmFunc) s := by
    rw [hfunc]
    rfl
  have hverify : verifyInputs (env.funcType (FuncEntity.wasm wasmFunc).tyDedup).params params s =
      .ok () s := verifyInputs_eq_ok.mpr ⟨htypes, rfl⟩
  rw [executeFunc, get_bind, bind_ok hget, bind_ok hverify]
  rfl

/-- An error with a message of its own. -/
def IsMessage (stop : Stop) : Prop := ∃ text, stop = .fault (.message text)

lemma noFault_liftTrap {σ α : Type} (x : Except TrapCode α) :
    NoFault IsMessage (liftTrap x : EStateM Stop σ α) := by
  cases x with
  | ok a => exact NoFault.pure a
  | error code =>
    apply NoFault.throw
    rintro ⟨text, h⟩
    cases h

lemma noMessage_of_noFault {σ α : Type} {x : EStateM Stop σ α} (h : NoFault Stop.IsFault x) :
    NoFault IsMessage x := by
  rintro s stop s' hx ⟨text, rfl⟩
  exact h _ _ _ hx ⟨_, rfl⟩

/-- Entering a function fails without a message. -/
lemma noMessage_enterFunc (wasmFunc : WasmFuncEntity) (params : List UntypedVal) :
    NoFault IsMessage (enterFunc env wasmFunc params) := by
  have hassume : ∀ {σ α : Type} (x : Option α), NoFault IsMessage (assume x : EStateM Stop σ α) :=
    fun x => noMessage_of_noFault (noFault_assume x)
  have hunwrap : ∀ {σ α : Type} (x : Option α), NoFault IsMessage (unwrap x : EStateM Stop σ α) :=
    fun x => noMessage_of_noFault (noFault_unwrap x)
  have hpush : ∀ frame inst, NoFault IsMessage (pushFrame frame inst : ExecM T Unit) :=
    fun _ _ => NoFault.get.bind fun _ => (noFault_liftTrap _).bind fun _ => NoFault.modify _
  have hcache : ∀ inst, NoFault IsMessage (updateCache inst : ExecM T Unit) :=
    fun _ => NoFault.get.bind fun _ => (hunwrap _).bind fun _ => NoFault.modify _
  have hprepare : NoFault IsMessage
      (prepareFunc env wasmFunc (env.funcType wasmFunc.ty).results.length params) := by
    refine NoFault.get.bind fun _ => (noFault_liftTrap _).bind fun _ => (NoFault.modify _).bind
      fun _ => (noFault_liftTrap _).bind fun _ => (hassume _).bind fun _ => (NoFault.modify _).bind
      fun _ => (hpush _ _).bind fun _ => ?_
    refine NoFault.get.bind fun _ => (hunwrap _).bind fun _ => (hcache _).bind fun _ => ?_
    exact NoFault.get.bind fun _ => (hunwrap _).bind fun _ => NoFault.modify _
  exact (NoFault.zoom hprepare).bind fun _ =>
    (NoFault.get.bind fun _ => (hunwrap _).bind fun _ => NoFault.pure _).bind fun _ =>
      NoFault.modify _

/-! ## The texts of integers -/

/-- The number of bits of an integer type. -/
def width (ty : ValType) : Nat := if ty = .i32 then 32 else 64

/-- An integer as a value of an integer type. -/
def ofInt (ty : ValType) (z : Int) : Val := if ty = .i32 then .ofI32 z else .ofI64 z

/-- What `convert_to_val` makes of the text of an integer: one of 32 bits if it fits, and otherwise
a floating-point number. -/
def Guessed (z : Int) (val : Val) : Prop :=
  if InRange 32 z then val = .ofI32 z else val.ty = .f32

lemma parseVal_toString {ty : ValType} (hty : ty = .i32 ∨ ty = .i64) (z : Int) :
    parseVal (toString z) ty = if InRange (width ty) z then some (ofInt ty z) else none := by
  obtain rfl | rfl := hty
  · have hwidth : width .i32 = 32 := rfl
    rw [parseVal, parseInt_toString, hwidth]
    split
    · rfl
    · rfl
  · have hwidth : width .i64 = 64 := rfl
    rw [parseVal, parseInt_toString, hwidth]
    split
    · rfl
    · rfl

/-- The attempt for `f64` is never made, nor is that for `i64`. -/
lemma convertText_toString (z : Int) :
    ∃ val, convertText (toString z) = .ok val ∧ Guessed z val := by
  have hparse : parseVal (toString z) .i32 = if InRange 32 z then some (.ofI32 z) else none :=
    parseVal_toString (.inl rfl) z
  by_cases hrange : InRange 32 z
  · refine ⟨.ofI32 z, ?_, ?_⟩
    · rw [convertText, hparse, if_pos hrange]
    · rw [Guessed, if_pos hrange]
  · obtain ⟨bits, hbits⟩ := Option.isSome_iff_exists.mp (isSome_parseFloat_toString binary32 z)
    have hfloat : parseVal (toString z) .f32 = some (.ofF32 bits) := by
      rw [parseVal, hbits]
      rfl
    refine ⟨.ofF32 bits, ?_, ?_⟩
    · rw [convertText, hparse, if_neg hrange, hfloat]
    · rw [Guessed, if_neg hrange]
      rfl

theorem convertToVal_toString (args : List Int) :
    ∃ vals, convertToVal (args.map toString) = .ok vals ∧ List.Forall₂ Guessed args vals := by
  induction args with
  | nil => exact ⟨[], rfl, .nil⟩
  | cons z args ih =>
    obtain ⟨val, hval, hguess⟩ := convertText_toString z
    obtain ⟨vals, hvals, hguesses⟩ := ih
    refine ⟨val :: vals, ?_, .cons hguess hguesses⟩
    rw [convertToVal, List.map_cons, Fallible.mapM_eq_ok]
    exact .cons hval (Fallible.mapM_eq_ok.mp hvals)

lemma decodeArg_toString {ty : ValType} (hty : ty = .i32 ∨ ty = .i64) (n : Nat) (z : Int)
    {val : Val} :
    decodeArg n ty (toString z) = .ok val ↔ InRange (width ty) z ∧ val = ofInt ty z := by
  have hparse := parseVal_toString hty z
  by_cases hrange : InRange (width ty) z
  · rw [if_pos hrange] at hparse
    obtain rfl | rfl := hty
    · unfold decodeArg
      simp only [hparse, hrange, true_and, Except.ok.injEq, eq_comm]
    · unfold decodeArg
      simp only [hparse, hrange, true_and, Except.ok.injEq, eq_comm]
  · rw [if_neg hrange] at hparse
    obtain rfl | rfl := hty
    · unfold decodeArg
      simp only [hparse, hrange, false_and, reduceCtorEq]
    · unfold decodeArg
      simp only [hparse, hrange, false_and, reduceCtorEq]

/-- The parameters are paired with the arguments for as long as there are both. -/
lemma forall₂_decodeArg {params : List ValType} (hparams : ∀ ty ∈ params, ty = .i32 ∨ ty = .i64)
    (args : List Int) (n : Nat) (vals : List Val) :
    List.Forall₂ (fun p val => decodeArg p.2 p.1.1 p.1.2 = .ok val)
        ((params.zip (args.map toString)).zipIdx n) vals ↔
      (∀ p ∈ params.zip args, InRange (width p.1) p.2) ∧ vals = List.zipWith ofInt params args := by
  induction params generalizing args n vals with
  | nil => simp
  | cons ty params ih =>
    rw [List.forall_mem_cons] at hparams
    cases args with
    | nil => simp
    | cons z args =>
      simp only [List.map_cons, List.zip_cons_cons, List.zipIdx_cons, List.forall₂_cons_left_iff,
        decodeArg_toString hparams.1, ih hparams.2, List.forall_mem_cons, List.zipWith_cons_cons]
      constructor
      · rintro ⟨_, _, ⟨hz, rfl⟩, ⟨hargs, rfl⟩, rfl⟩
        exact ⟨⟨hz, hargs⟩, rfl⟩
      · rintro ⟨⟨hz, hargs⟩, rfl⟩
        exact ⟨_, _, ⟨hz, rfl⟩, ⟨hargs, rfl⟩, rfl⟩

theorem decodeFuncArgs_toString {ty : FuncType} (hparams : ∀ t ∈ ty.params, t = .i32 ∨ t = .i64)
    (args : List Int) {vals : List Val} :
    decodeFuncArgs ty (args.map toString) = .ok vals ↔
      (∀ p ∈ ty.params.zip args, InRange (width p.1) p.2) ∧
        vals = List.zipWith ofInt ty.params args := by
  rw [decodeFuncArgs, Fallible.mapM_eq_ok]
  exact forall₂_decodeArg hparams args 0 vals

/-! ## The types of the texts -/

/-- The type of a text is that of an integer parameter iff this is `i32` and the integer fits. -/
lemma Guessed.ty_eq_iff {ty : ValType} (hty : ty = .i32 ∨ ty = .i64) {z : Int} {val : Val}
    (h : Guessed z val) : ty = val.ty ↔ InRange (width ty) z ∧ ty ≠ .i64 := by
  have hwidth : width .i32 = 32 := rfl
  unfold Guessed at h
  by_cases hrange : InRange 32 z
  · rw [if_pos hrange] at h
    have hval : val.ty = .i32 := by rw [h]; rfl
    obtain rfl | rfl := hty
    · simp [hval, hwidth, hrange]
    · simp [hval]
  · rw [if_neg hrange] at h
    obtain rfl | rfl := hty
    · simp [h, hwidth, hrange]
    · simp [h]

lemma Guessed.eq_ofInt {ty : ValType} (hty : ty = .i32 ∨ ty = .i64) {z : Int} {val : Val}
    (h : Guessed z val) (heq : ty = val.ty) : val = ofInt ty z := by
  obtain ⟨hrange, hne⟩ := (h.ty_eq_iff hty).mp heq
  obtain rfl := hty.resolve_right hne
  have hrange' : InRange 32 z := hrange
  unfold Guessed at h
  rw [if_pos hrange'] at h
  exact h

/-- As many integers as there are parameters, each in the range of its own. -/
def Fits (params : List ValType) (args : List Int) : Prop :=
  List.Forall₂ (fun ty z => InRange (width ty) z) params args

lemma fits_iff {params : List ValType} {args : List Int} :
    Fits params args ↔
      params.length = args.length ∧ ∀ p ∈ params.zip args, InRange (width p.1) p.2 := by
  rw [Fits, List.forall₂_iff_zip]
  constructor
  · rintro ⟨hlen, hzip⟩
    exact ⟨hlen, fun p hp => hzip hp⟩
  · rintro ⟨hlen, hzip⟩
    exact ⟨hlen, fun hp => hzip _ hp⟩

/-- The texts pass the check of `execute_func` iff the integers fit and no parameter is an `i64`. -/
lemma types_guessed {params : List ValType} (hparams : ∀ ty ∈ params, ty = .i32 ∨ ty = .i64)
    {args : List Int} {vals : List Val} (h : List.Forall₂ Guessed args vals) :
    params = vals.map (·.ty) ↔ Fits params args ∧ .i64 ∉ params := by
  induction h generalizing params with
  | nil =>
    cases params with
    | nil => simp [Fits]
    | cons ty params => simp [Fits]
  | cons hguess _ ih =>
    cases params with
    | nil => simp [Fits]
    | cons ty params =>
      rw [List.forall_mem_cons] at hparams
      rw [List.map_cons, List.cons_eq_cons, hguess.ty_eq_iff hparams.1, ih hparams.2, Fits, Fits,
        List.forall₂_cons, List.mem_cons, not_or, ne_comm]
      tauto

/-- The values that pass it are the integers. -/
lemma vals_guessed {params : List ValType} (hparams : ∀ ty ∈ params, ty = .i32 ∨ ty = .i64)
    {args : List Int} {vals : List Val} (h : List.Forall₂ Guessed args vals)
    (htypes : params = vals.map (·.ty)) : vals = List.zipWith ofInt params args := by
  induction h generalizing params with
  | nil => simp
  | cons hguess _ ih =>
    cases params with
    | nil => simp at htypes
    | cons ty params =>
      rw [List.forall_mem_cons] at hparams
      rw [List.map_cons, List.cons_eq_cons] at htypes
      rw [List.zipWith_cons_cons, hguess.eq_ofInt hparams.1 htypes.1, ih hparams.2 htypes.2]

/-! ## Starting the function -/

/-- The session in which a launch enters a function. -/
def begun (func : Nat) (s : Session T) : Session T :=
  { s with isInterrupted := true, runFunc := some func }

lemma startLaunch_eq {launch : Launch T} {input name : String} {texts : List String}
    {vals : List Val} {func : Nat} {s s₀ : Session T}
    (hrestart : restart launch input s = .ok () s₀)
    (hargs : convertToVal texts = .ok vals)
    (hlookup : lookupFunc (some name) s₀ = .ok (some func) s₀) :
    startLaunch env launch input (some name) texts s =
      executeFunc env func vals (begun func s₀) := by
  rw [startLaunch, bind_ok hrestart, hargs]
  show startRun env (some name) vals s₀ = _
  rw [startRun, modify_bind, bind_ok (lookupFunc_marked true hlookup)]
  rfl

/-- The texts of some integers, given to a launch and to `decode_func_args` for the same function:
it is entered with these integers if they fit it and refused otherwise, in the session `s₀` that the
launch finds it in, and the decoder accepts them then only. -/
structure ArgumentsReach (env : Engine T) (launch : Launch T) (input name : String)
    (args : List Int) (func : Nat) (wasmFunc : WasmFuncEntity) (s s₀ : Session T) : Prop where
  starts : Fits (env.funcType wasmFunc.ty).params args →
    startLaunch env launch input (some name) (args.map toString) s =
      enterFunc env wasmFunc
        ((List.zipWith ofInt (env.funcType wasmFunc.ty).params args).map (·.bits)) (begun func s₀)
  refuses : ¬Fits (env.funcType wasmFunc.ty).params args → ∃ text s',
    startLaunch env launch input (some name) (args.map toString) s =
      .error (.fault (.message text)) s' ∧ s'.machine = s₀.machine
  decodes : ∀ vals, decodeFuncArgs (env.funcType wasmFunc.ty) (args.map toString) = .ok vals ↔
    Fits (env.funcType wasmFunc.ty).params args ∧
      vals = List.zipWith ofInt (env.funcType wasmFunc.ty).params args

/-- No text of an integer becomes an `i64`, and the decoder does not count the arguments. -/
theorem arguments_reach_iff {launch : Launch T} {input name : String} {func : Nat}
    {wasmFunc : WasmFuncEntity} {s s₀ : Session T} (hrestart : restart launch input s = .ok () s₀)
    (hlookup : lookupFunc (some name) s₀ = .ok (some func) s₀)
    (hfunc : s₀.machine.store.funcs[func]? = some (.wasm wasmFunc))
    (hparams : ∀ ty ∈ (env.funcType wasmFunc.ty).params, ty = .i32 ∨ ty = .i64)
    (args : List Int) :
    ArgumentsReach env launch input name args func wasmFunc s s₀ ↔
      (∃ p ∈ (env.funcType wasmFunc.ty).params.zip args, ¬InRange (width p.1) p.2) ∨
        ((env.funcType wasmFunc.ty).params.length = args.length ∧
          .i64 ∉ (env.funcType wasmFunc.ty).params) := by
  obtain ⟨vals, hvals, hguesses⟩ := convertToVal_toString args
  have hstart := @startLaunch_eq T env _ _ _ _ _ _ _ _ hrestart hvals hlookup
  have hdecode := @decodeFuncArgs_toString (env.funcType wasmFunc.ty) hparams args
  have htypes := types_guessed hparams hguesses
  have hfits := @fits_iff (env.funcType wasmFunc.ty).params args
  -- the values of the wrong types are refused
  have hrefuse : (env.funcType wasmFunc.ty).params ≠ vals.map (·.ty) → ∃ text,
      startLaunch env launch input (some name) (args.map toString) s =
        .error (.fault (.message text)) (begun func s₀) := by
    intro hne
    rw [hstart]
    exact @executeFunc_of_arguments T env (begun func s₀) vals func (.wasm wasmFunc) hfunc hne
  constructor
  · intro h
    by_contra hcond
    rw [not_or, not_exists] at hcond
    obtain ⟨hinside, hi64⟩ := hcond
    have hall : ∀ p ∈ (env.funcType wasmFunc.ty).params.zip args, InRange (width p.1) p.2 := by
      intro p hp
      by_contra hout
      exact hinside p ⟨hp, hout⟩
    have hfit : Fits (env.funcType wasmFunc.ty).params args :=
      ((h.decodes _).mp (hdecode.mpr ⟨hall, rfl⟩)).1
    have hne : (env.funcType wasmFunc.ty).params ≠ vals.map (·.ty) := by
      intro heq
      exact hi64 ⟨(hfits.mp hfit).1, (htypes.mp heq).2⟩
    obtain ⟨text, htext⟩ := hrefuse hne
    have hentered := h.starts hfit
    rw [htext] at hentered
    exact noMessage_enterFunc _ _ _ _ _ hentered.symm ⟨text, rfl⟩
  · intro hcond
    have hfit_iff : Fits (env.funcType wasmFunc.ty).params args ↔
        ∀ p ∈ (env.funcType wasmFunc.ty).params.zip args, InRange (width p.1) p.2 := by
      rw [hfits]
      constructor
      · exact fun h => h.2
      · intro hall
        obtain ⟨p, hp, hout⟩ | ⟨hlen, -⟩ := hcond
        · exact absurd (hall p hp) hout
        · exact ⟨hlen, hall⟩
    refine ⟨?_, ?_, ?_⟩
    · intro hfit
      have hi64 : .i64 ∉ (env.funcType wasmFunc.ty).params := by
        obtain ⟨p, hp, hout⟩ | ⟨-, hi64⟩ := hcond
        · exact absurd ((hfits.mp hfit).2 p hp) hout
        · exact hi64
      have heq := htypes.mpr ⟨hfit, hi64⟩
      rw [hstart, ← vals_guessed hparams hguesses heq]
      exact @executeFunc_of_types T env (begun func s₀) func wasmFunc vals hfunc heq
    · intro hnot
      obtain ⟨text, htext⟩ := hrefuse fun heq => hnot (htypes.mp heq).1
      exact ⟨text, _, htext, rfl⟩
    · intro vals
      rw [hdecode, hfit_iff]

/-! ## A launch -/

/-- The code of a function with these parameters that returns at once. -/
def returningEngine (params : List ValType) : Engine Unit :=
  Engine.ofCode [⟨[⟨1, .return_⟩], [], params.length⟩] [⟨params, []⟩]

/-- A module that exports one function as `f`. -/
def exportingLaunch : Launch Unit :=
  let launch := Launch.ofStore (Store.ofFuncs [.wasm ⟨0, 0, 0⟩])
  { launch with inst := { launch.inst with exportedFuncs := [("f", 0)] } }

/-- Two arguments for a function that takes one, the first one too large for it. -/
theorem arguments_reach_iff_tooLarge :
    ArgumentsReach (returningEngine [.i32]) exportingLaunch "" "f" [2 ^ 31, 0] 0 ⟨0, 0, 0⟩
        (launched exportingLaunch) (launched exportingLaunch) ↔
      (∃ p ∈ [(ValType.i32, (2 ^ 31 : Int))], ¬InRange (width p.1) p.2) ∨
        ([ValType.i32].length = [(2 ^ 31 : Int), 0].length ∧ ValType.i64 ∉ [ValType.i32]) :=
  arguments_reach_iff rfl rfl rfl (by decide) [2 ^ 31, 0]

/-- One for an `i64` does not reach the function; two arguments pass for one. -/
theorem launch_refuses_i64 :
    ¬ArgumentsReach (returningEngine [.i64]) exportingLaunch "" "f" [1] 0 ⟨0, 0, 0⟩
        (launched exportingLaunch) (launched exportingLaunch) ∧
      ¬ArgumentsReach (returningEngine [.i32]) exportingLaunch "" "f" [1, 2] 0 ⟨0, 0, 0⟩
        (launched exportingLaunch) (launched exportingLaunch) := by
  constructor
  · intro h
    have hfit : Fits [.i64] [1] := .cons (by decide) .nil
    have hrefused : startLaunch (returningEngine [.i64]) exportingLaunch "" (some "f") ["1"]
        (launched exportingLaunch) =
          .error (.fault (.message "encountered incorrect function parameter type")) _ := rfl
    have hentered := hrefused.symm.trans (h.starts hfit)
    cases hentered
  · intro h
    have hfit : Fits [.i32] [1, 2] := ((h.decodes [.ofI32 1]).mp rfl).1
    have hlen := hfit.length_eq
    cases hlen

end Debugger

end MotokoDebugger
