import MotokoDebugger.Module.Parser

/-!
# Valid modules

What is relied on of the binary parser and of the validator, and that valid items are converted.

* `Phase.Follows`: the payloads a binary parser yields in its three states.
* `Wasmparser.Payload.Valid`: what a validator promises of the payloads it accepts.
* `SoundParser`, `SoundValidator`: a parser and a validator that keep to this.
* `isSome_fromWasmparser`: no conversion of a valid item panics.
-/

namespace MotokoDebugger

open Wasmparser (Payload Chunk ParserError)

variable {P V F C : Type}

/-! ## The binary parser -/

/-- The state of the binary parser: before the header, at the start of a section, or before the
remaining entries of the code section. -/
inductive Phase where
  | header
  | sectionStart
  | functionBody (remaining : Nat)
deriving Repr, DecidableEq

/-- Is the parser at the start of a section? Behind the last entry of the code section it is. -/
def Phase.AtSection (phase : Phase) : Prop := phase = .sectionStart ∨ phase = .functionBody 0

/-- The payloads that a parser yields in a state, and the state behind them. -/
inductive Phase.Follows : Phase → Payload → Phase → Prop where
  | version (num encoding range) : Follows .header (.version num encoding range) .sectionStart
  | section_ {phase : Phase} {payload : Payload} : phase.AtSection →
    (∀ num encoding range, payload ≠ .version num encoding range) →
    (∀ count range size, payload ≠ .codeSectionStart count range size) →
    (∀ funcBody, payload ≠ .codeSectionEntry funcBody) → Follows phase payload .sectionStart
  | codeStart {phase : Phase} (count range size) : phase.AtSection →
    Follows phase (.codeSectionStart count range size) (.functionBody count)
  | entry (remaining funcBody) :
    Follows (.functionBody (remaining + 1)) (.codeSectionEntry funcBody) (.functionBody remaining)

/-- Behind an entry of the code section one entry less remains. -/
lemma Phase.Follows.of_entry {pending : Nat} {funcBody : Wasmparser.FunctionBody} {phase : Phase}
    (h : (Phase.functionBody pending).Follows (.codeSectionEntry funcBody) phase) :
    ∃ remaining, pending = remaining + 1 ∧ phase = .functionBody remaining := by
  cases h with
  | section_ _ _ _ hentry => exact absurd rfl (hentry funcBody)
  | entry remaining => exact ⟨remaining, rfl, rfl⟩

/-- Anything but an entry follows where no entry remains. -/
lemma Phase.Follows.eq_zero {pending : Nat} {payload : Payload} {phase : Phase}
    (h : (Phase.functionBody pending).Follows payload phase)
    (hentry : ∀ funcBody, payload ≠ .codeSectionEntry funcBody) : pending = 0 := by
  cases h with
  | section_ hsection _ _ _ =>
    rcases hsection with hsection | hsection <;> cases hsection
    rfl
  | codeStart _ _ _ hsection =>
    rcases hsection with hsection | hsection <;> cases hsection
    rfl
  | entry remaining funcBody => exact absurd rfl (hentry funcBody)

/-- The parser yields the parts of a module in their order. A data section that is asked for again
is a data section. -/
structure SoundParser (env : LoadEnv P V F C) (phase : P → Phase) : Prop where
  start : phase env.newParser = .header
  follows : ∀ {p b n payload p'}, env.parse p b true = .ok (.parsed n payload, p') →
    (phase p).Follows payload (phase p')
  dataAgain : ∀ {p b n sec p'}, env.parse p b true = .ok (.parsed n (.dataSection sec), p') →
    ∃ n' sec' p'', env.parse p' b true = .ok (.parsed n' (.dataSection sec'), p'')

/-! ## The validator -/

namespace Wasmparser

/-- All items of a section can be read and are as given. -/
def Section.All {A : Type} (good : A → Prop) (sec : Section A) : Prop :=
  ∀ item ∈ sec.items, ∃ a, item = .ok a ∧ good a

def FuncType.Valid (ty : FuncType) : Prop :=
  (∀ param ∈ ty.params, param ≠ .v128) ∧ (∀ result ∈ ty.results, result ≠ .v128) ∧
    ty.params.length ≤ maxLenParamsResults ∧ ty.results.length ≤ maxLenParamsResults

def TableType.Valid (ty : TableType) : Prop :=
  (ty.elementType = .funcRef ∨ ty.elementType = .externRef) ∧
    ∀ maximum, ty.maximum = some maximum → ty.initial ≤ maximum

def MemoryType.Valid (ty : MemoryType) : Prop :=
  ty.memory64 = false ∧ ty.shared = false ∧ ty.initial ≤ maxPages ∧
    ∀ maximum, ty.maximum = some maximum → maximum ≤ maxPages

def GlobalType.Valid (ty : GlobalType) : Prop := ty.contentType ≠ .v128

/-- The type of an import is valid in a module with `types` function types. -/
def TypeRef.Valid (types : Nat) : TypeRef → Prop
  | .func funcTypeIdx => funcTypeIdx < types
  | .table ty => ty.Valid
  | .memory ty => ty.Valid
  | .global ty => ty.Valid
  | .tag _ => False

/-- How many values an operator of a constant expression takes from the stack, where it is one. -/
def Operator.pops : Operator → Option Nat
  | .i32Const _ | .i64Const _ | .f32Const _ | .f64Const _ | .globalGet _ | .refFunc _ => some 0
  | .refNull ty => if ty = .funcRef ∨ ty = .externRef then some 0 else none
  | .i32Add | .i32Sub | .i32Mul | .i64Add | .i64Sub | .i64Mul => some 2
  | .end | .other _ => none

/-- An expression is constant and leaves one value, on a stack of the given height. -/
def ConstExpr.ValidFrom : Nat → ConstExpr → Prop
  | _, [] => False
  | _, .error _ :: _ => False
  | height, .ok .end :: rest => rest = [] ∧ height = 1
  | height, .ok operator :: rest =>
    ∃ pops, operator.pops = some pops ∧ pops ≤ height ∧ ValidFrom (height - pops + 1) rest

def ConstExpr.Valid (expr : ConstExpr) : Prop := ValidFrom 0 expr

def Global.Valid (global : Global) : Prop := global.ty.Valid ∧ global.initExpr.Valid

def ElementKind.Valid : ElementKind → Prop
  | .passive | .declared => True
  | .active _ offsetExpr => offsetExpr.Valid

def ElementItems.Valid : ElementItems → Prop
  | .functions items => ∀ item ∈ items, ∃ func, item = .ok func
  | .expressions items => ∀ item ∈ items, ∃ expr : ConstExpr, item = .ok expr ∧ expr.Valid

def Element.Valid (element : Element) : Prop :=
  (element.ty = .funcRef ∨ element.ty = .externRef) ∧ element.kind.Valid ∧ element.items.Valid

/-- The data of a segment is part of a section, of which the length is a 32-bit number. -/
def Data.Valid (data : Data) : Prop :=
  data.data.length ≤ u32Max ∧
    ∀ memoryIndex offsetExpr, data.kind = .active memoryIndex offsetExpr → offsetExpr.Valid

namespace Payload

/-- The place of a section among the sections of a module. -/
def order : Payload → Option Nat
  | .typeSection _ => some 1
  | .importSection _ => some 2
  | .functionSection _ => some 3
  | .tableSection _ => some 4
  | .memorySection _ => some 5
  | .globalSection _ => some 6
  | .exportSection _ => some 7
  | .startSection _ _ => some 8
  | .elementSection _ => some 9
  | .dataCountSection _ _ => some 10
  | .codeSectionStart _ _ _ => some 11
  | .dataSection _ => some 12
  | _ => none

/-- How many function types a payload declares. -/
def types : Payload → Nat
  | .typeSection sec => sec.items.length
  | _ => 0

/-- How many functions a payload declares. -/
def funcs : Payload → Nat
  | .functionSection sec => sec.items.length
  | _ => 0

/-- How many functions a payload defines. -/
def entries : Payload → Nat
  | .codeSectionEntry _ => 1
  | _ => 0

/-- How much of a kind there is in a list of payloads. -/
def total (count : Payload → Nat) : List Payload → Nat
  | [] => 0
  | payload :: history => count payload + total count history

lemma total_snoc (count : Payload → Nat) (history : List Payload) (payload : Payload) :
    total count (history ++ [payload]) = total count history + count payload := by
  induction history with
  | nil => exact Nat.add_comm _ _
  | cons old history ih =>
    show count old + total count (history ++ [payload]) = _
    rw [ih, total]
    omega

/-- There is no section with this place. -/
def Lacks (history : List Payload) (place : Nat) : Prop :=
  ∀ payload ∈ history, payload.order ≠ some place

lemma lacks_nil (place : Nat) : Lacks [] place := by
  intro payload hmem
  simp at hmem

lemma lacks_snoc {history : List Payload} {payload : Payload} {place : Nat} :
    Lacks (history ++ [payload]) place ↔ Lacks history place ∧ payload.order ≠ some place := by
  simp only [Lacks, List.mem_append, List.mem_singleton, or_imp, forall_and, forall_eq]

/-- What validation promises of a payload behind the payloads of `history`: the sections are in
their order, the items of a section are valid, the code section has the declared functions, and
there is nothing that is not supported. -/
structure Valid (history : List Payload) (payload : Payload) : Prop where
  version : ∀ {num encoding range}, payload = .version num encoding range → history = []
  inOrder : ∀ {place}, payload.order = some place →
    ∀ old ∈ history, ∀ {place'}, old.order = some place' → place' < place
  typeSection : ∀ {sec}, payload = .typeSection sec → sec.All FuncType.Valid
  importSection : ∀ {sec}, payload = .importSection sec →
    sec.All fun item => item.ty.Valid (total types history)
  functionSection : ∀ {sec}, payload = .functionSection sec →
    sec.All fun funcTypeIdx => funcTypeIdx < total types history
  tableSection : ∀ {sec}, payload = .tableSection sec → sec.All TableType.Valid
  memorySection : ∀ {sec}, payload = .memorySection sec → sec.All MemoryType.Valid
  globalSection : ∀ {sec}, payload = .globalSection sec → sec.All Global.Valid
  exportSection : ∀ {sec}, payload = .exportSection sec → sec.All fun item => item.kind ≠ .tag
  elementSection : ∀ {sec}, payload = .elementSection sec → sec.All Element.Valid
  codeStart : ∀ {count range size}, payload = .codeSectionStart count range size →
    count = total funcs history
  entry : ∀ {funcBody}, payload = .codeSectionEntry funcBody →
    ¬Lacks history 11 ∧ total entries history < total funcs history
  dataSection : ∀ {sec}, payload = .dataSection sec → sec.All Data.Valid
  supported : ∀ id, payload ≠ .other id

/-- A section is the first of its kind. -/
lemma Valid.lacks {history : List Payload} {payload : Payload} (h : Valid history payload)
    {place place' : Nat} (hplace : payload.order = some place) (hle : place ≤ place') :
    Lacks history place' := by
  intro old hold horder
  have hlt := h.inOrder hplace old hold horder
  omega

end Payload

end Wasmparser

/-- The validator has accepted the payloads of `history` one by one. -/
inductive LoadEnv.Validated (env : LoadEnv P V F C) : (history : List Payload) → V → Prop where
  | new : Validated env [] env.newValidator
  | payload {history payload v v'} : Validated env history v →
    env.validate v payload = .ok v' → Validated env (history ++ [payload]) v'
  | entry {history funcBody v func v'} : Validated env history v →
    env.codeSectionEntry v funcBody = .ok (func, v') →
    Validated env (history ++ [.codeSectionEntry funcBody]) v'

/-- The validator accepts valid payloads only. -/
def SoundValidator (env : LoadEnv P V F C) : Prop :=
  ∀ {history v payload v'}, env.Validated history v → env.validate v payload = .ok v' →
    payload.Valid history

/-! ## The conversions of valid items -/

lemma ValType.isSome_fromWasmparser {ty : Wasmparser.ValType} (h : ty ≠ .v128) :
    (ValType.fromWasmparser ty).isSome := by
  cases ty with
  | v128 => exact absurd rfl h
  | _ => rfl

lemma isSome_mapM {A B : Type} {f : A → Option B} {l : List A} (h : ∀ a ∈ l, (f a).isSome) :
    ∃ bs, l.mapM f = some bs ∧ bs.length = l.length := by
  induction l with
  | nil => exact ⟨[], rfl, rfl⟩
  | cons a l ih =>
    obtain ⟨b, hb⟩ := Option.isSome_iff_exists.mp (h a (by simp))
    obtain ⟨bs, hbs, hlen⟩ := ih fun a' ha' => h a' (by simp [ha'])
    refine ⟨b :: bs, ?_, by simp [hlen]⟩
    rw [List.mapM_cons, hb, hbs]
    rfl

lemma FuncType.isSome_fromWasmparser {ty : Wasmparser.FuncType} (h : ty.Valid) :
    (FuncType.fromWasmparser ty).isSome := by
  obtain ⟨hparams, hresults, hplen, hrlen⟩ := h
  obtain ⟨params, hp, hplen'⟩ :=
    isSome_mapM fun a ha => ValType.isSome_fromWasmparser (hparams a ha)
  obtain ⟨results, hr, hrlen'⟩ :=
    isSome_mapM fun a ha => ValType.isSome_fromWasmparser (hresults a ha)
  have hlen : params.length ≤ maxLenParamsResults ∧ results.length ≤ maxLenParamsResults := by
    omega
  simp only [FuncType.fromWasmparser, hp, hr, Option.bind_eq_bind, Option.bind_some, if_pos hlen]
  rfl

lemma TableType.isSome_fromWasmparser {ty : Wasmparser.TableType} (h : ty.Valid) :
    (TableType.fromWasmparser ty).isSome := by
  obtain ⟨helem, hmax⟩ := h
  have hne : ty.elementType ≠ .v128 := by
    rcases helem with helem | helem <;> rw [helem] <;> decide
  obtain ⟨element, he⟩ := Option.isSome_iff_exists.mp (ValType.isSome_fromWasmparser hne)
  unfold TableType.fromWasmparser
  rw [he]
  cases hmaximum : ty.maximum with
  | none => rfl
  | some maximum =>
    simp only [Option.bind_eq_bind, Option.bind_some, if_pos (hmax maximum hmaximum)]
    rfl

lemma MemoryType.isSome_fromWasmparser {ty : Wasmparser.MemoryType} (h : ty.Valid) :
    (MemoryType.fromWasmparser ty).isSome := by
  obtain ⟨h64, hshared, hinit, hmax⟩ := h
  unfold MemoryType.fromWasmparser
  rw [h64, hshared, if_neg (by decide), if_neg (by omega)]
  cases hmaximum : ty.maximum with
  | none => rfl
  | some maximum =>
    have hle := hmax maximum hmaximum
    show (if maxPages < maximum then none else some _ : Option MemoryType).isSome
    rw [if_neg (by omega)]
    rfl

lemma GlobalType.isSome_fromWasmparser {ty : Wasmparser.GlobalType} (h : ty.Valid) :
    (GlobalType.fromWasmparser ty).isSome := by
  obtain ⟨content, hc⟩ := Option.isSome_iff_exists.mp (ValType.isSome_fromWasmparser h)
  simp only [GlobalType.fromWasmparser, hc]
  rfl

/-- A valid operator pushes the one value that validation says. -/
lemma ConstExpr.pushOperator_of_pops {operator : Wasmparser.Operator} {pops : Nat}
    (h : operator.pops = some pops) {stack : List ConstExpr} (hle : pops ≤ stack.length) :
    ∃ stack', pushOperator stack operator = some stack' ∧
      stack'.length = stack.length - pops + 1 := by
  cases operator with
  | i32Const | i64Const | f32Const | f64Const | globalGet | refFunc =>
    cases h
    exact ⟨_, rfl, rfl⟩
  | refNull ty =>
    cases ty with
    | funcRef | externRef =>
      cases h
      exact ⟨_, rfl, rfl⟩
    | _ => cases h
  | i32Add | i32Sub | i32Mul | i64Add | i64Sub | i64Mul =>
    cases h
    obtain ⟨rhs, lhs, rest, rfl⟩ : ∃ rhs lhs rest, stack = rhs :: lhs :: rest := by
      match stack, hle with
      | rhs :: lhs :: rest, _ => exact ⟨rhs, lhs, rest, rfl⟩
    exact ⟨_, rfl, rfl⟩
  | «end» | other => cases h

lemma ConstExpr.isSome_newLoop (expr : Wasmparser.ConstExpr) :
    ∀ stack : List ConstExpr, Wasmparser.ConstExpr.ValidFrom stack.length expr →
      (newLoop stack expr).isSome := by
  induction expr with
  | nil =>
    intro stack h
    cases h
  | cons item rest ih =>
    intro stack h
    cases item with
    | error e => cases h
    | ok operator =>
      by_cases hend : operator = .end
      · subst hend
        obtain ⟨rfl, hlen⟩ := h
        obtain ⟨op, rfl⟩ := List.length_eq_one_iff.mp hlen
        rfl
      · have h' : ∃ pops, operator.pops = some pops ∧ pops ≤ stack.length ∧
            Wasmparser.ConstExpr.ValidFrom (stack.length - pops + 1) rest := by
          cases operator with
          | «end» => exact absurd rfl hend
          | _ => exact h
        obtain ⟨pops, hpops, hle, hrest⟩ := h'
        obtain ⟨stack', hstack, hlen⟩ := pushOperator_of_pops hpops hle
        have hnew : newLoop stack (.ok operator :: rest) = newLoop stack' rest := by
          cases operator with
          | «end» => exact absurd rfl hend
          | _ => simp only [newLoop, hstack, Option.bind_eq_bind, Option.bind_some]
        rw [hnew]
        exact ih stack' (hlen ▸ hrest)

lemma ConstExpr.isSome_new {expr : Wasmparser.ConstExpr} (h : expr.Valid) :
    (ConstExpr.new expr).isSome := isSome_newLoop expr [] h

lemma isSome_globalFromWasmparser {global : Wasmparser.Global} (h : global.Valid) :
    (globalFromWasmparser global).isSome := by
  obtain ⟨ty, hty⟩ := Option.isSome_iff_exists.mp (GlobalType.isSome_fromWasmparser h.1)
  obtain ⟨init, hinit⟩ := Option.isSome_iff_exists.mp (ConstExpr.isSome_new h.2)
  simp only [globalFromWasmparser, hty, hinit]
  rfl

lemma Import.exists_fromWasmparser {item : Wasmparser.Import} {types : Nat}
    (h : item.ty.Valid types) :
    ∃ import_, Import.fromWasmparser item = some import_ ∧
      ∀ funcTypeIdx, import_.kind = .func funcTypeIdx → funcTypeIdx < types := by
  unfold Import.fromWasmparser
  cases hty : item.ty with
  | func funcTypeIdx =>
    rw [hty] at h
    refine ⟨_, rfl, ?_⟩
    intro funcTypeIdx' hkind
    cases hkind
    exact h
  | table ty =>
    rw [hty] at h
    obtain ⟨ty', hty'⟩ := Option.isSome_iff_exists.mp (TableType.isSome_fromWasmparser h)
    refine ⟨_, by simp only [hty']; rfl, ?_⟩
    intro funcTypeIdx hkind
    cases hkind
  | memory ty =>
    rw [hty] at h
    obtain ⟨ty', hty'⟩ := Option.isSome_iff_exists.mp (MemoryType.isSome_fromWasmparser h)
    refine ⟨_, by simp only [hty']; rfl, ?_⟩
    intro funcTypeIdx hkind
    cases hkind
  | global ty =>
    rw [hty] at h
    obtain ⟨ty', hty'⟩ := Option.isSome_iff_exists.mp (GlobalType.isSome_fromWasmparser h)
    refine ⟨_, by simp only [hty']; rfl, ?_⟩
    intro funcTypeIdx hkind
    cases hkind
  | tag funcTypeIdx =>
    rw [hty] at h
    cases h

lemma ExternIdx.isSome_new {kind : Wasmparser.ExternalKind} (h : kind ≠ .tag) (index : Nat) :
    (ExternIdx.new kind index).isSome := by
  cases kind with
  | tag => exact absurd rfl h
  | _ => rfl

lemma ElementSegmentKind.isSome_fromWasmparser {kind : Wasmparser.ElementKind} (h : kind.Valid) :
    (ElementSegmentKind.fromWasmparser kind).isSome := by
  cases kind with
  | passive | declared => rfl
  | active tableIndex offsetExpr =>
    obtain ⟨offset, hoffset⟩ := Option.isSome_iff_exists.mp (ConstExpr.isSome_new h)
    simp only [fromWasmparser, hoffset]
    rfl

lemma isSome_elementItems {A : Type} (convert : A → Option ConstExpr)
    {items : List (Except ParserError A)}
    (h : ∀ item ∈ items, ∃ a, item = .ok a ∧ (convert a).isSome) :
    (elementItems convert items).isSome := by
  have hmap : ∀ {f : Except ParserError A → Option ConstExpr},
      (∀ item ∈ items, (f item).isSome) → (items.mapM f).isSome := by
    intro f hf
    obtain ⟨bs, hbs, -⟩ := isSome_mapM hf
    exact Option.isSome_iff_exists.mpr ⟨bs, hbs⟩
  apply hmap
  intro item hitem
  obtain ⟨a, rfl, ha⟩ := h item hitem
  exact ha

lemma ElementSegment.isSome_fromWasmparser {element : Wasmparser.Element} (h : element.Valid) :
    (ElementSegment.fromWasmparser element).isSome := by
  obtain ⟨hty, hkind, hitems⟩ := h
  have hne : element.ty ≠ .v128 := by
    rcases hty with hty | hty <;> rw [hty] <;> decide
  have hneg : ¬(element.ty ≠ .funcRef ∧ element.ty ≠ .externRef) := by
    rcases hty with hty | hty <;> simp [hty]
  obtain ⟨kind, hk⟩ :=
    Option.isSome_iff_exists.mp (ElementSegmentKind.isSome_fromWasmparser hkind)
  obtain ⟨ty, ht⟩ := Option.isSome_iff_exists.mp (ValType.isSome_fromWasmparser hne)
  unfold ElementSegment.fromWasmparser
  rw [if_neg hneg, hk, ht]
  cases hi : element.items with
  | functions items =>
    rw [hi] at hitems
    obtain ⟨is, his⟩ := Option.isSome_iff_exists.mp
      (isSome_elementItems (fun func => some (.funcRef func)) (by
        intro item hitem
        obtain ⟨func, rfl⟩ := hitems item hitem
        exact ⟨func, rfl, rfl⟩))
    simp only [his]
    rfl
  | expressions items =>
    rw [hi] at hitems
    obtain ⟨is, his⟩ := Option.isSome_iff_exists.mp
      (isSome_elementItems ConstExpr.new (by
        intro item hitem
        obtain ⟨expr, rfl, hexpr⟩ := hitems item hitem
        exact ⟨expr, rfl, ConstExpr.isSome_new hexpr⟩))
    simp only [his]
    rfl

end MotokoDebugger
