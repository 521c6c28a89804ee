import MotokoDebugger.Module.Validity

/-!
# The processes of the module parser and their assertions

* `Lands`: a step that panics under a condition only, with the rules for sequences and folds.
* `HeaderInv`, `CodeInv`, `DataInv`: what the three loops have established of the header, the code
  map and the validator.
* `lands_processTypes` to `lands_processData`: in these states no assertion of a process fails, but
  for the division of `process_code_start`.
-/

namespace MotokoDebugger

open Wasmparser (Payload Chunk ParserError)
open Wasmparser.Payload (total types funcs entries Lacks lacks_snoc total_snoc)

variable {P V F C R S : Type}

/-! ## Steps that panic under a condition -/

/-- Where a step returns, `Q` holds of what it returns; it panics only where `D` holds. -/
def Lands {A : Type} (D : Prop) (Q : A → Prop) : Except LoadStop A → Prop
  | .ok a => Q a
  | .error (.error _) => True
  | .error .panic => D

section Lands

variable {A B : Type} {D : Prop} {Q Q' : A → Prop} {Q'' : B → Prop}

lemma Lands.mono {x : Except LoadStop A} (hx : Lands D Q x) (h : ∀ a, Q a → Q' a) :
    Lands D Q' x := by
  match x, hx with
  | .ok a, hx => exact h a hx
  | .error (.error _), _ => trivial
  | .error .panic, hx => exact hx

lemma Lands.bind {x : Except LoadStop A} {f : A → Except LoadStop B} (hx : Lands D Q x)
    (hf : ∀ a, Q a → Lands D Q'' (f a)) : Lands D Q'' (x >>= f) := by
  match x, hx with
  | .ok a, hx => exact hf a hx
  | .error (.error _), _ => trivial
  | .error .panic, hx => exact hx

/-- A sequence of steps of the module parser. -/
lemma Lands.step {x : LoadM V C A} {f : A → LoadM V C B} {loader : Loader V C}
    {Q : A × Loader V C → Prop} {Q'' : B × Loader V C → Prop} (hx : Lands D Q (x loader))
    (hf : ∀ a loader', Q (a, loader') → Lands D Q'' (f a loader')) :
    Lands D Q'' ((x >>= f) loader) :=
  hx.bind fun r hr => hf r.1 r.2 hr

lemma Lands.lift {x : Except LoadStop A} (hx : Lands D Q x) (loader : Loader V C) :
    Lands D (fun r => Q r.1 ∧ r.2 = loader) ((liftM x : LoadM V C A) loader) :=
  hx.bind fun _ ha => ⟨ha, rfl⟩

/-- A fold whose steps keep an invariant that counts them. -/
lemma Lands.foldlM {I : Nat → B → Prop} {f : B → A → Except LoadStop B} {l : List A}
    (hf : ∀ a ∈ l, ∀ n b, I n b → Lands D (I (n + 1)) (f b a)) :
    ∀ {n : Nat} {b : B}, I n b → Lands D (I (n + l.length)) (l.foldlM f b) := by
  induction l with
  | nil =>
    intro n b hb
    exact hb
  | cons a l ih =>
    intro n b hb
    rw [List.foldlM_cons]
    apply (hf a (by simp) n b hb).bind
    intro b' hb'
    have hlen : n + (a :: l).length = n + 1 + l.length := by
      simp only [List.length_cons]
      omega
    rw [hlen]
    exact ih (fun a' ha' => hf a' (by simp [ha'])) hb'

lemma Lands.stepFoldlM {I : Nat → B × Loader V C → Prop} {f : B → A → LoadM V C B} {l : List A}
    (hf : ∀ a ∈ l, ∀ n b loader, I n (b, loader) → Lands D (I (n + 1)) (f b a loader)) :
    ∀ {n : Nat} {b : B} {loader : Loader V C}, I n (b, loader) →
      Lands D (I (n + l.length)) (l.foldlM f b loader) := by
  induction l with
  | nil =>
    intro n b loader hb
    exact hb
  | cons a l ih =>
    intro n b loader hb
    rw [List.foldlM_cons]
    apply Lands.step (hf a (by simp) n b loader hb)
    intro b' loader' hb'
    have hlen : n + (a :: l).length = n + 1 + l.length := by
      simp only [List.length_cons]
      omega
    rw [hlen]
    exact ih (fun a' ha' => hf a' (by simp [ha'])) hb'

lemma lands_orPanic {o : Option A} (h : o.isSome) : Lands D (fun a => o = some a) (orPanic o) := by
  obtain ⟨a, rfl⟩ := Option.isSome_iff_exists.mp h
  exact rfl

lemma lands_checkLimit (limit : Option Nat) (error : Nat → EnforcedLimitsError) (count : Nat) :
    Lands D (fun _ => True) (checkLimit limit error count) := by
  unfold checkLimit
  cases limit with
  | none => trivial
  | some limit =>
    show Lands D _ (if limit < count then _ else _)
    split <;> trivial

/-- The items of a section that are valid are converted. -/
lemma lands_convertItems {sec : Wasmparser.Section A} {good : A → Prop} (h : sec.All good)
    {convert : A → Option B} (hconvert : ∀ a, good a → (convert a).isSome) :
    ∀ item ∈ sec.items.map (convertItem convert), Lands D (fun _ => True) item := by
  intro item hmem
  obtain ⟨read, hread, rfl⟩ := List.mem_map.mp hmem
  obtain ⟨a, rfl, ha⟩ := h read hread
  exact (lands_orPanic (hconvert a ha)).mono fun _ _ => trivial

lemma lands_mapM_id {l : List (Except LoadStop A)} (h : ∀ item ∈ l, Lands D (fun _ => True) item) :
    Lands D (fun _ => True) (l.mapM id) := by
  induction l with
  | nil => trivial
  | cons item l ih =>
    rw [List.mapM_cons]
    apply (h item (by simp)).bind
    intro a _
    apply (ih fun item' hitem' => h item' (by simp [hitem'])).bind
    intro as _
    trivial

end Lands

lemma get_step {A : Type} (f : Loader V C → LoadM V C A) (loader : Loader V C) :
    ((get : LoadM V C (Loader V C)) >>= f) loader = f loader loader := rfl

lemma set_step {A : Type} (f : PUnit → LoadM V C A) (loader loader' : Loader V C) :
    ((set loader' : LoadM V C PUnit) >>= f) loader = f ⟨⟩ loader' := rfl

/-! ## What the header loops rely on -/

/-- No section has yet filled the part of the header that belongs to the section with this place,
but for its imports. -/
def ModuleHeaderBuilder.Untouched (header : ModuleHeaderBuilder) : (place : Nat) → Prop
  | 1 => header.funcTypes = []
  | 3 => header.funcs.length = header.imports.funcs.length
  | 4 => header.tables.length = header.imports.tables.length
  | 5 => header.memories.length = header.imports.memories.length
  | 6 => header.globals.length = header.imports.globals.length
  | 7 => header.exports = []
  | 8 => header.start = none
  | 9 => header.elementSegments = []
  | _ => True

/-- The header after the payloads of `history`, all of which are those of a header. -/
structure HeaderInv (env : LoadEnv P V F C) (history : List Payload)
    (header : ModuleHeaderBuilder) (loader : Loader V C) : Prop where
  validated : ∃ v, loader.validator = some v ∧ env.Validated history v
  types_eq : header.funcTypes.length = total types history
  untouched : ∀ {place}, Lacks history place → header.Untouched place
  span : header.engineFuncs.len = total funcs history
  fresh : ∀ i, i < total funcs history →
    loader.engine.codeMap[header.engineFuncs.start + i]? = some none
  counter : loader.engineFuncs = 0
  inHeader : ∀ place, 11 ≤ place → Lacks history place
  noEntries : total entries history = 0

lemma total_eq_zero {count : Payload → Nat} {history : List Payload}
    (h : ∀ payload ∈ history, count payload = 0) : total count history = 0 := by
  induction history with
  | nil => rfl
  | cons payload history ih =>
    have hhead := h payload (by simp)
    have htail := ih fun old hold => h old (by simp [hold])
    show count payload + total count history = 0
    omega

lemma total_types_of_lacks {history : List Payload} (h : Lacks history 1) :
    total types history = 0 := by
  apply total_eq_zero
  intro payload hmem
  have hplace := h payload hmem
  cases payload with
  | typeSection sec => exact absurd rfl hplace
  | _ => rfl

lemma total_funcs_of_lacks {history : List Payload} (h : Lacks history 3) :
    total funcs history = 0 := by
  apply total_eq_zero
  intro payload hmem
  have hplace := h payload hmem
  cases payload with
  | functionSection sec => exact absurd rfl hplace
  | _ => rfl

section Header

variable {env : LoadEnv P V F C} {history : List Payload} {header : ModuleHeaderBuilder}
  {loader : Loader V C} {D : Prop}

/-- A payload of the header that declares neither types nor functions, and a header that has
changed in the part of this payload only. -/
lemma HeaderInv.push (hinv : HeaderInv env history header loader) {payload : Payload} {v : V}
    (hv : env.Validated (history ++ [payload]) v) (htypes : payload.types = 0)
    (hfuncs : payload.funcs = 0) (hentries : payload.entries = 0)
    (hplace : ∀ place, payload.order = some place → place < 11) {header' : ModuleHeaderBuilder}
    (hfuncTypes : header'.funcTypes = header.funcTypes)
    (hspan : header'.engineFuncs = header.engineFuncs)
    (huntouched : ∀ place, payload.order ≠ some place → header.Untouched place →
      header'.Untouched place) :
    HeaderInv env (history ++ [payload]) header' { loader with validator := some v } := by
  constructor
  · exact ⟨v, rfl, hv⟩
  · rw [hfuncTypes, total_snoc, htypes]
    exact hinv.types_eq
  · intro place hlacks
    obtain ⟨hold, hnew⟩ := lacks_snoc.mp hlacks
    exact huntouched place hnew (hinv.untouched hold)
  · rw [hspan, total_snoc, hfuncs]
    exact hinv.span
  · intro i hi
    rw [total_snoc, hfuncs] at hi
    rw [hspan]
    exact hinv.fresh i hi
  · exact hinv.counter
  · intro place hle
    refine lacks_snoc.mpr ⟨hinv.inHeader place hle, ?_⟩
    intro horder
    have hlt := hplace place horder
    omega
  · rw [total_snoc, hentries, hinv.noEntries]

/-- A payload that is accepted is valid. -/
lemma lands_validated (hsound : SoundValidator env) {v : V} (hvalidator : loader.validator = some v)
    (hv : env.Validated history v) (payload : Payload) :
    Lands D (fun r => payload.Valid history ∧ ∃ v', env.Validated (history ++ [payload]) v' ∧
      r.2 = { loader with validator := some v' }) (env.validated payload loader) := by
  obtain ⟨engine, validator, engineFuncs⟩ := loader
  cases hvalidator
  rcases hok : env.validate v payload with e | v'
  · have hrun : env.validated payload ⟨engine, some v, engineFuncs⟩ = .error (.error (.wasm e)) := by
      simp only [LoadEnv.validated, get_step, hok]
      rfl
    rw [hrun]
    trivial
  · have hrun : env.validated payload ⟨engine, some v, engineFuncs⟩ =
        .ok ((), ⟨engine, some v', engineFuncs⟩) := by
      simp only [LoadEnv.validated, get_step, hok]
      rfl
    rw [hrun]
    exact ⟨hsound hv hok, v', hv.payload hok, rfl⟩

/-- A process of the header loops: what follows on the validation of its payload. -/
lemma HeaderInv.process (hinv : HeaderInv env history header loader) (hsound : SoundValidator env)
    {payload : Payload} {A : Type} {rest : LoadM V C A} {Q : A × Loader V C → Prop}
    (hrest : ∀ v, payload.Valid history → env.Validated (history ++ [payload]) v →
      Lands D Q (rest { loader with validator := some v })) :
    Lands D Q ((env.validated payload >>= fun _ => rest) loader) := by
  obtain ⟨v, hvalidator, hv⟩ := hinv.validated
  apply Lands.step (lands_validated hsound hvalidator hv payload)
  intro _ loader' hr
  obtain ⟨hvalid, v', hv', heq⟩ := hr
  cases heq
  exact hrest v' hvalid hv'

/-- A section with a limit on its count. -/
lemma lands_afterLimit {A : Type} {rest : LoadM V C A} {Q : A × Loader V C → Prop}
    (limit : Option Nat) (error : Nat → EnforcedLimitsError) (count : Nat)
    (hrest : Lands D Q (rest loader)) :
    Lands D Q ((liftM (checkLimit limit error count) >>= fun _ => rest) loader) := by
  apply Lands.step ((lands_checkLimit limit error count).lift loader)
  intro _ loader' hr
  obtain rfl : loader' = loader := hr.2
  exact hrest

end Header

/-! ## The processes of the header loops -/

namespace ModuleHeaderBuilder

variable {D : Prop} {header : ModuleHeaderBuilder}

/-- The header with `n` function types, which the engine has been told of. -/
def WithTypes (header : ModuleHeaderBuilder) (loader : Loader V C) (n : Nat)
    (r : ModuleHeaderBuilder × Loader V C) : Prop :=
  (∃ funcTypes, funcTypes.length = n ∧ r.1 = { header with funcTypes }) ∧
    r.2.validator = loader.validator ∧ r.2.engineFuncs = loader.engineFuncs ∧
    r.2.engine.codeMap = loader.engine.codeMap

lemma lands_pushFuncTypes {l : List (Except LoadStop FuncType)}
    (hl : ∀ item ∈ l, Lands D (fun _ => True) item) (hnil : header.funcTypes = [])
    (loader : Loader V C) :
    Lands D (header.WithTypes loader (0 + l.length)) (header.pushFuncTypes l loader) := by
  unfold pushFuncTypes
  rw [if_neg (not_not.mpr hnil)]
  apply Lands.stepFoldlM
  · intro item hitem n header' loader' hr
    obtain ⟨⟨funcTypes, hlen, hheader⟩, hloader⟩ := hr
    have hheader' : header' = { header with funcTypes } := hheader
    apply Lands.step ((hl item hitem).lift loader')
    intro funcType loader₁ hr'
    obtain rfl : loader₁ = loader' := hr'.2
    -- a type that the engine does not know yet is added to its registry
    rw [get_step, hheader']
    cases List.findIdx? (fun x => decide (x = funcType)) loader₁.engine.funcTypes with
    | some dedup =>
      exact ⟨⟨funcTypes ++ [dedup], by simp [hlen], rfl⟩, hloader⟩
    | none =>
      exact ⟨⟨funcTypes ++ [loader₁.engine.funcTypes.length], by simp [hlen], rfl⟩, hloader⟩
  · exact ⟨⟨[], rfl, by rw [← hnil]⟩, rfl, rfl, rfl⟩

/-- The header with `n` functions of its own, which the code map has room for. -/
def WithFuncs (header : ModuleHeaderBuilder) (loader : Loader V C) (count n : Nat)
    (r : ModuleHeaderBuilder × Loader V C) : Prop :=
  (∃ own, own.length = n ∧ r.1 = { header with
      funcs := header.funcs ++ own
      engineFuncs := ⟨loader.engine.codeMap.length, loader.engine.codeMap.length + count⟩ }) ∧
    r.2 = { loader with
      engine.codeMap := loader.engine.codeMap ++ List.replicate count none }

lemma lands_pushFuncs {l : List (Except LoadStop Nat)}
    (hl : ∀ item ∈ l, Lands D (fun funcTypeIdx => funcTypeIdx < header.funcTypes.length) item)
    (himports : header.funcs.length = header.imports.funcs.length) (loader : Loader V C) :
    Lands D (header.WithFuncs loader l.length (0 + l.length)) (header.pushFuncs l loader) := by
  unfold pushFuncs
  rw [if_neg (not_not.mpr himports)]
  show Lands D _ (((get : LoadM V C (Loader V C)) >>= _) loader)
  rw [get_step, set_step]
  apply Lands.stepFoldlM
  · intro item hitem n header' loader' hr
    obtain ⟨⟨own, hlen, hheader⟩, hloader'⟩ := hr
    have hheader' : header' = { header with
        funcs := header.funcs ++ own
        engineFuncs := ⟨loader.engine.codeMap.length,
          loader.engine.codeMap.length + l.length⟩ } := hheader
    apply Lands.step ((hl item hitem).lift loader')
    intro funcTypeIdx loader₂ hr'
    obtain ⟨hlt, rfl⟩ : funcTypeIdx < header.funcTypes.length ∧ loader₂ = loader' := hr'
    have hsome : (header'.funcTypes[funcTypeIdx]?).isSome := by
      rw [hheader']
      simpa using hlt
    apply Lands.step ((lands_orPanic hsome).lift loader₂)
    intro funcType loader₃ hr''
    obtain rfl : loader₃ = loader₂ := hr''.2
    refine ⟨⟨own ++ [funcType], by simp [hlen], ?_⟩, hloader'⟩
    rw [hheader', List.append_assoc]
  · exact ⟨⟨[], rfl, by simp⟩, rfl⟩

/-- The second header differs from the first in the part of the section with this place. -/
structure Fills (place : Nat) (header header' : ModuleHeaderBuilder) : Prop where
  funcTypes : header'.funcTypes = header.funcTypes
  engineFuncs : header'.engineFuncs = header.engineFuncs
  untouched : ∀ {other}, other ≠ place → header.Untouched other → header'.Untouched other

/-- What belongs to the other sections is looked at section by section. -/
lemma fills_of {place : Nat} {header' : ModuleHeaderBuilder}
    (htypes : header'.funcTypes = header.funcTypes)
    (hspan : header'.engineFuncs = header.engineFuncs)
    (hfuncs : 3 ≠ place → header.Untouched 3 → header'.Untouched 3)
    (htables : 4 ≠ place → header.Untouched 4 → header'.Untouched 4)
    (hmemories : 5 ≠ place → header.Untouched 5 → header'.Untouched 5)
    (hglobals : 6 ≠ place → header.Untouched 6 → header'.Untouched 6)
    (hexports : 7 ≠ place → header.Untouched 7 → header'.Untouched 7)
    (hstart : 8 ≠ place → header.Untouched 8 → header'.Untouched 8)
    (helems : 9 ≠ place → header.Untouched 9 → header'.Untouched 9) :
    Fills place header header' := by
  refine ⟨htypes, hspan, ?_⟩
  intro other hne h
  match other, hne, h with
  | 0, _, _ | 2, _, _ | _ + 10, _, _ => trivial
  | 1, _, h => exact htypes.trans h
  | 3, hne, h => exact hfuncs hne h
  | 4, hne, h => exact htables hne h
  | 5, hne, h => exact hmemories hne h
  | 6, hne, h => exact hglobals hne h
  | 7, hne, h => exact hexports hne h
  | 8, hne, h => exact hstart hne h
  | 9, hne, h => exact helems hne h

/-- An import is added to the list of its kind. -/
lemma exists_pushImport {item : Import} (hitem : ∀ funcTypeIdx, item.kind = .func funcTypeIdx →
      funcTypeIdx < header.funcTypes.length) :
    ∃ header', header.pushImport item = some header' ∧ Fills 2 header header' := by
  unfold pushImport
  cases hkind : item.kind with
  | func funcTypeIdx =>
    dsimp only
    rw [List.getElem?_eq_getElem (hitem funcTypeIdx hkind)]
    exact ⟨_, rfl, fills_of rfl rfl (by simp [Untouched]) (fun _ => id) (fun _ => id) (fun _ => id)
      (fun _ => id) (fun _ => id) (fun _ => id)⟩
  | table ty =>
    exact ⟨_, rfl, fills_of rfl rfl (fun _ => id) (by simp [Untouched]) (fun _ => id) (fun _ => id)
      (fun _ => id) (fun _ => id) (fun _ => id)⟩
  | memory ty =>
    exact ⟨_, rfl, fills_of rfl rfl (fun _ => id) (fun _ => id) (by simp [Untouched]) (fun _ => id)
      (fun _ => id) (fun _ => id) (fun _ => id)⟩
  | global ty =>
    exact ⟨_, rfl, fills_of rfl rfl (fun _ => id) (fun _ => id) (fun _ => id) (by simp [Untouched])
      (fun _ => id) (fun _ => id) (fun _ => id)⟩

lemma lands_tryPushImports {sec : Wasmparser.Section Wasmparser.Import}
    (hsec : sec.All fun item => item.ty.Valid header.funcTypes.length) :
    Lands D (Fills 2 header)
      (header.tryPushImports (sec.items.map (convertItem Import.fromWasmparser))) := by
  unfold tryPushImports
  refine Lands.foldlM (I := fun _ => Fills 2 header) (n := 0) ?_ ⟨rfl, rfl, fun _ => id⟩
  intro item hmem n header' hfills
  obtain ⟨read, hread, rfl⟩ := List.mem_map.mp hmem
  obtain ⟨read, rfl, hty⟩ := hsec read hread
  obtain ⟨item, hitem, hlt⟩ := Import.exists_fromWasmparser hty
  rw [← hfills.funcTypes] at hlt
  obtain ⟨header'', hpush, hfills'⟩ := exists_pushImport hlt
  have hconvert : convertItem Import.fromWasmparser (.ok read) = .ok item := by
    simp only [convertItem, hitem, orPanic]
  rw [hconvert]
  show Lands D _ (orPanic (header'.pushImport item))
  rw [hpush]
  exact ⟨hfills'.funcTypes.trans hfills.funcTypes, hfills'.engineFuncs.trans hfills.engineFuncs,
    fun hne h => hfills'.untouched hne (hfills.untouched hne h)⟩

lemma lands_pushTables {l : List (Except LoadStop TableType)}
    (hl : ∀ item ∈ l, Lands D (fun _ => True) item) (huntouched : header.Untouched 4) :
    Lands D (Fills 4 header) (header.pushTables l) := by
  have heq : header.tables.length = header.imports.tables.length := huntouched
  unfold pushTables
  rw [if_neg (not_not.mpr heq)]
  apply (lands_mapM_id hl).bind
  intro tables _
  exact fills_of rfl rfl (fun _ => id) (absurd rfl) (fun _ => id) (fun _ => id) (fun _ => id)
    (fun _ => id) (fun _ => id)

lemma lands_pushMemories {l : List (Except LoadStop MemoryType)}
    (hl : ∀ item ∈ l, Lands D (fun _ => True) item) (huntouched : header.Untouched 5) :
    Lands D (Fills 5 header) (header.pushMemories l) := by
  have heq : header.memories.length = header.imports.memories.length := huntouched
  unfold pushMemories
  rw [if_neg (not_not.mpr heq)]
  apply (lands_mapM_id hl).bind
  intro memories _
  exact fills_of rfl rfl (fun _ => id) (fun _ => id) (absurd rfl) (fun _ => id) (fun _ => id)
    (fun _ => id) (fun _ => id)

lemma lands_pushGlobals {l : List (Except LoadStop (GlobalType × ConstExpr))}
    (hl : ∀ item ∈ l, Lands D (fun _ => True) item) (huntouched : header.Untouched 6) :
    Lands D (Fills 6 header) (header.pushGlobals l) := by
  have heq : header.globals.length = header.imports.globals.length := huntouched
  unfold pushGlobals
  rw [if_neg (not_not.mpr heq)]
  apply (lands_mapM_id hl).bind
  intro globals _
  exact fills_of rfl rfl (fun _ => id) (fun _ => id) (fun _ => id) (absurd rfl) (fun _ => id)
    (fun _ => id) (fun _ => id)

lemma lands_pushExports {l : List (Except LoadStop (String × ExternIdx))}
    (hl : ∀ item ∈ l, Lands D (fun _ => True) item) (huntouched : header.Untouched 7) :
    Lands D (Fills 7 header) (header.pushExports l) := by
  have heq : header.exports = [] := huntouched
  unfold pushExports
  rw [if_neg (not_not.mpr heq)]
  apply (lands_mapM_id hl).bind
  intro exports _
  exact fills_of rfl rfl (fun _ => id) (fun _ => id) (fun _ => id) (fun _ => id) (absurd rfl)
    (fun _ => id) (fun _ => id)

lemma lands_setStart (huntouched : header.Untouched 8) (start : Nat) :
    Lands D (Fills 8 header) (header.setStart start) := by
  have hnone : header.start = none := huntouched
  unfold setStart
  rw [hnone]
  exact fills_of rfl rfl (fun _ => id) (fun _ => id) (fun _ => id) (fun _ => id) (fun _ => id)
    (absurd rfl) (fun _ => id)

lemma lands_pushElementSegments {l : List (Except LoadStop ElementSegment)}
    (hl : ∀ item ∈ l, Lands D (fun _ => True) item) (huntouched : header.Untouched 9) :
    Lands D (Fills 9 header) (header.pushElementSegments l) := by
  have hnil : header.elementSegments = [] := huntouched
  unfold pushElementSegments
  rw [hnil, if_neg (not_not.mpr List.length_nil)]
  apply (lands_mapM_id hl).bind
  intro elementSegments _
  exact fills_of rfl rfl (fun _ => id) (fun _ => id) (fun _ => id) (fun _ => id) (fun _ => id)
    (fun _ => id) (absurd rfl)

end ModuleHeaderBuilder

section Processes

variable {env : LoadEnv P V F C} {history : List Payload} {header : ModuleHeaderBuilder}
  {loader : Loader V C} {D : Prop}

/-- The header loops may go on. -/
def HeaderKept (env : LoadEnv P V F C) (r : ModuleHeaderBuilder × Loader V C) : Prop :=
  ∃ history, HeaderInv env history r.1 r.2

lemma lands_processTypes (hsound : SoundValidator env)
    (hinv : HeaderInv env history header loader) (sec : Wasmparser.Section Wasmparser.FuncType) :
    Lands D (HeaderKept env) (env.processTypes sec header loader) := by
  apply hinv.process hsound
  intro v hvalid hv
  have hlacks : Lacks history 1 := hvalid.lacks rfl (Nat.le_refl 1)
  have hnil : header.funcTypes = [] := hinv.untouched hlacks
  refine (ModuleHeaderBuilder.lands_pushFuncTypes ?_ hnil _).mono ?_
  · intro item hmem
    obtain ⟨read, hread, rfl⟩ := List.mem_map.mp hmem
    obtain ⟨ty, rfl, hty⟩ := hvalid.typeSection rfl read hread
    apply (lands_checkLimit _ _ _).bind
    intro _ _
    apply (lands_checkLimit _ _ _).bind
    intro _ _
    exact (lands_orPanic (FuncType.isSome_fromWasmparser hty)).mono fun _ _ => trivial
  intro r hr
  obtain ⟨⟨funcTypes, hlen, hheader⟩, hvalidator, hcounter, hcodeMap⟩ := hr
  refine ⟨history ++ [.typeSection sec], ⟨v, hvalidator, hv⟩, ?_, ?_, ?_, ?_, ?_, ?_, ?_⟩
  · rw [hheader, total_snoc, total_types_of_lacks hlacks]
    show funcTypes.length = 0 + sec.items.length
    simpa using hlen
  · intro place h
    obtain ⟨hold, hnew⟩ := lacks_snoc.mp h
    have huntouched := hinv.untouched hold
    rw [hheader]
    unfold ModuleHeaderBuilder.Untouched at huntouched ⊢
    split
    · exact absurd rfl hnew
    all_goals first | exact huntouched | trivial
  · rw [hheader, total_snoc]
    exact hinv.span
  · intro i hi
    rw [total_snoc] at hi
    rw [hcodeMap, hheader]
    exact hinv.fresh i hi
  · rw [hcounter]
    exact hinv.counter
  · intro place hle
    refine lacks_snoc.mpr ⟨hinv.inHeader place hle, ?_⟩
    intro horder
    cases horder
    omega
  · rw [total_snoc, hinv.noEntries]
    rfl

/-- A process that fills the part of the header that belongs to its section. -/
lemma HeaderInv.fill (hinv : HeaderInv env history header loader) (hsound : SoundValidator env)
    {payload : Payload} {place : Nat} (hplace : payload.order = some place) (hlt : place < 11)
    (htypes : payload.types = 0) (hfuncs : payload.funcs = 0)
    {push : Except LoadStop ModuleHeaderBuilder}
    (hpush : payload.Valid history → Lands D (ModuleHeaderBuilder.Fills place header) push) :
    Lands D (HeaderKept env)
      ((env.validated payload >>= fun _ => (liftM push : LoadM V C _)) loader) := by
  apply hinv.process hsound
  intro v hvalid hv
  refine ((hpush hvalid).lift _).mono ?_
  intro r hr
  obtain ⟨hfills, hloader⟩ := hr
  have hentries : payload.entries = 0 := by
    cases payload with
    | codeSectionEntry funcBody => cases hplace
    | _ => rfl
  refine ⟨history ++ [payload], ?_⟩
  rw [hloader]
  refine hinv.push hv htypes hfuncs hentries ?_ hfills.funcTypes hfills.engineFuncs ?_
  · intro place' horder
    rw [hplace] at horder
    cases horder
    exact hlt
  · intro place' hne h
    apply hfills.untouched _ h
    rintro rfl
    exact hne hplace

lemma lands_processFunctions (hsound : SoundValidator env)
    (hinv : HeaderInv env history header loader) (sec : Wasmparser.Section Nat) :
    Lands D (HeaderKept env) (env.processFunctions sec header loader) := by
  apply lands_afterLimit
  apply hinv.process hsound
  intro v hvalid hv
  have hlacks : Lacks history 3 := hvalid.lacks rfl (Nat.le_refl 3)
  have hnone := total_funcs_of_lacks hlacks
  have hitems : ∀ item ∈ sec.items.map (convertItem some),
      Lands D (fun funcTypeIdx => funcTypeIdx < header.funcTypes.length) item := by
    intro item hmem
    obtain ⟨read, hread, rfl⟩ := List.mem_map.mp hmem
    obtain ⟨funcTypeIdx, rfl, hlt⟩ := hvalid.functionSection rfl read hread
    rw [← hinv.types_eq] at hlt
    exact hlt
  refine (ModuleHeaderBuilder.lands_pushFuncs hitems (hinv.untouched hlacks) _).mono ?_
  intro r hr
  obtain ⟨⟨own, hlen, hheader⟩, hloader⟩ := hr
  rw [List.length_map] at hheader hloader
  have hcount : total funcs (history ++ [.functionSection sec]) = sec.items.length := by
    rw [total_snoc, hnone, Nat.zero_add]
    rfl
  refine ⟨history ++ [.functionSection sec], ?_, ?_, ?_, ?_, ?_, ?_, ?_, ?_⟩
  · rw [hloader]
    exact ⟨v, rfl, hv⟩
  · rw [hheader, total_snoc]
    exact hinv.types_eq
  · intro place h
    obtain ⟨hold, hnew⟩ := lacks_snoc.mp h
    have huntouched := hinv.untouched hold
    rw [hheader]
    unfold ModuleHeaderBuilder.Untouched at huntouched ⊢
    split
    · exact huntouched
    · exact absurd rfl hnew
    all_goals first | exact huntouched | trivial
  · rw [hheader, hcount]
    exact Nat.add_sub_cancel_left _ _
  · intro i hi
    rw [hcount] at hi
    rw [hheader, hloader]
    show (loader.engine.codeMap ++ List.replicate sec.items.length none)[
      loader.engine.codeMap.length + i]? = some none
    rw [List.getElem?_append_right (Nat.le_add_right _ _), Nat.add_sub_cancel_left,
      List.getElem?_replicate, if_pos hi]
  · rw [hloader]
    exact hinv.counter
  · intro place hle
    refine lacks_snoc.mpr ⟨hinv.inHeader place hle, ?_⟩
    intro horder
    cases horder
    omega
  · rw [total_snoc, hinv.noEntries]
    rfl

lemma lands_processImports (hsound : SoundValidator env)
    (hinv : HeaderInv env history header loader) (sec : Wasmparser.Section Wasmparser.Import) :
    Lands D (HeaderKept env) (env.processImports sec header loader) := by
  refine hinv.fill hsound rfl (by omega) rfl rfl ?_
  intro hvalid
  have hsec := hvalid.importSection rfl
  rw [← hinv.types_eq] at hsec
  exact ModuleHeaderBuilder.lands_tryPushImports hsec

lemma lands_processTables (hsound : SoundValidator env)
    (hinv : HeaderInv env history header loader) (sec : Wasmparser.Section Wasmparser.TableType) :
    Lands D (HeaderKept env) (env.processTables sec header loader) := by
  apply lands_afterLimit
  refine hinv.fill hsound rfl (by omega) rfl rfl ?_
  intro hvalid
  exact ModuleHeaderBuilder.lands_pushTables
    (lands_convertItems (hvalid.tableSection rfl) fun _ => TableType.isSome_fromWasmparser)
    (hinv.untouched (hvalid.lacks rfl (Nat.le_refl 4)))

lemma lands_processMemories (hsound : SoundValidator env)
    (hinv : HeaderInv env history header loader) (sec : Wasmparser.Section Wasmparser.MemoryType) :
    Lands D (HeaderKept env) (env.processMemories sec header loader) := by
  apply lands_afterLimit
  refine hinv.fill hsound rfl (by omega) rfl rfl ?_
  intro hvalid
  exact ModuleHeaderBuilder.lands_pushMemories
    (lands_convertItems (hvalid.memorySection rfl) fun _ => MemoryType.isSome_fromWasmparser)
    (hinv.untouched (hvalid.lacks rfl (Nat.le_refl 5)))

lemma lands_processGlobals (hsound : SoundValidator env)
    (hinv : HeaderInv env history header loader) (sec : Wasmparser.Section Wasmparser.Global) :
    Lands D (HeaderKept env) (env.processGlobals sec header loader) := by
  apply lands_afterLimit
  refine hinv.fill hsound rfl (by omega) rfl rfl ?_
  intro hvalid
  exact ModuleHeaderBuilder.lands_pushGlobals
    (lands_convertItems (hvalid.globalSection rfl) fun _ => isSome_globalFromWasmparser)
    (hinv.untouched (hvalid.lacks rfl (Nat.le_refl 6)))

lemma lands_processExports (hsound : SoundValidator env)
    (hinv : HeaderInv env history header loader) (sec : Wasmparser.Section Wasmparser.Export) :
    Lands D (HeaderKept env) (env.processExports sec header loader) := by
  refine hinv.fill hsound rfl (by omega) rfl rfl ?_
  intro hvalid
  refine ModuleHeaderBuilder.lands_pushExports
    (lands_convertItems (hvalid.exportSection rfl) ?_)
    (hinv.untouched (hvalid.lacks rfl (Nat.le_refl 7)))
  intro item hitem
  rw [Option.isSome_map]
  exact ExternIdx.isSome_new hitem item.index

lemma lands_processStart (hsound : SoundValidator env)
    (hinv : HeaderInv env history header loader) (func : Nat) (range : Wasmparser.Range) :
    Lands D (HeaderKept env) (env.processStart func range header loader) := by
  refine hinv.fill hsound rfl (by omega) rfl rfl ?_
  intro hvalid
  exact ModuleHeaderBuilder.lands_setStart (hinv.untouched (hvalid.lacks rfl (Nat.le_refl 8))) func

lemma lands_processElement (hsound : SoundValidator env)
    (hinv : HeaderInv env history header loader) (sec : Wasmparser.Section Wasmparser.Element) :
    Lands D (HeaderKept env) (env.processElement sec header loader) := by
  apply lands_afterLimit
  refine hinv.fill hsound rfl (by omega) rfl rfl ?_
  intro hvalid
  exact ModuleHeaderBuilder.lands_pushElementSegments
    (lands_convertItems (hvalid.elementSection rfl) fun _ => ElementSegment.isSome_fromWasmparser)
    (hinv.untouched (hvalid.lacks rfl (Nat.le_refl 9)))

lemma lands_processDataCount (hsound : SoundValidator env)
    (hinv : HeaderInv env history header loader) (count : Nat) (range : Wasmparser.Range) :
    Lands D (fun r => HeaderKept env (header, r.2)) (env.processDataCount count range loader) := by
  apply lands_afterLimit
  obtain ⟨v, hvalidator, hv⟩ := hinv.validated
  refine (lands_validated hsound hvalidator hv (.dataCountSection count range)).mono ?_
  intro r hr
  obtain ⟨hvalid, v', hv', hloader⟩ := hr
  refine ⟨history ++ [.dataCountSection count range], ?_⟩
  rw [hloader]
  refine hinv.push hv' rfl rfl rfl ?_ rfl rfl fun _ _ => id
  intro place horder
  cases horder
  omega

lemma lands_version (hsound : SoundValidator env)
    (hinv : HeaderInv env history header loader) (num : Nat) (encoding : Wasmparser.Encoding)
    (range : Wasmparser.Range) :
    Lands D (fun r => HeaderKept env (header, r.2))
      (env.validated (.version num encoding range) loader) := by
  obtain ⟨v, hvalidator, hv⟩ := hinv.validated
  refine (lands_validated hsound hvalidator hv (.version num encoding range)).mono ?_
  intro r hr
  obtain ⟨hvalid, v', hv', hloader⟩ := hr
  refine ⟨history ++ [.version num encoding range], ?_⟩
  rw [hloader]
  refine hinv.push hv' rfl rfl rfl ?_ rfl rfl fun _ _ => id
  intro place horder
  cases horder

end Processes

/-! ## The code section -/

/-- The division by the number of functions is reached with none of them. -/
def Divides (env : LoadEnv P V F C) (payload : Payload) : Prop :=
  ∃ range size limit, payload = .codeSectionStart 0 range size ∧
    env.config.enforcedLimits.minAvgBytesPerFunction = some limit ∧ limit.reqFuncsBytes ≤ size

/-- The functions of the module are being translated: those that are left have no code yet. -/
structure CodeInv (env : LoadEnv P V F C) (history : List Payload) (header : ModuleHeader)
    (loader : Loader V C) : Prop where
  validated : ∃ v, loader.validator = some v ∧ env.Validated history v
  span : header.engineFuncs.len = total funcs history
  fresh : ∀ i, total entries history ≤ i → i < total funcs history →
    loader.engine.codeMap[header.engineFuncs.start + i]? = some none
  counter : loader.engineFuncs = total entries history
  hasCode : ¬Lacks history 11
  noData : Lacks history 12

section Code

variable {env : LoadEnv P V F C} {history : List Payload} {loader : Loader V C}

lemma lands_processCodeStart (hsound : SoundValidator env) {header : ModuleHeaderBuilder}
    (hinv : HeaderInv env history header loader) (count : Nat) (range : Wasmparser.Range)
    (size : Nat) :
    Lands (Divides env (.codeSectionStart count range size))
      (fun r => ∃ history', CodeInv env history' header.finish r.2 ∧
        total entries history' + count = total funcs history')
      (env.processCodeStart count range size loader) := by
  have hvalidate : ∀ D : Prop, Lands D
      (fun r => ∃ history', CodeInv env history' header.finish r.2 ∧
        total entries history' + count = total funcs history')
      (env.validated (.codeSectionStart count range size) loader) := by
    intro D
    obtain ⟨v, hvalidator, hv⟩ := hinv.validated
    refine (lands_validated hsound hvalidator hv (.codeSectionStart count range size)).mono ?_
    intro r hr
    obtain ⟨hvalid, v', hv', hloader⟩ := hr
    have hentries : total entries (history ++ [.codeSectionStart count range size]) = 0 := by
      rw [total_snoc, hinv.noEntries]
      rfl
    have hfuncs : total funcs (history ++ [.codeSectionStart count range size]) =
        total funcs history := total_snoc _ _ _
    refine ⟨history ++ [.codeSectionStart count range size], ⟨?_, ?_, ?_, ?_, ?_, ?_⟩, ?_⟩
    · rw [hloader]
      exact ⟨v', rfl, hv'⟩
    · rw [hfuncs]
      exact hinv.span
    · intro i _ hi
      rw [hfuncs] at hi
      rw [hloader]
      exact hinv.fresh i hi
    · rw [hloader, hentries]
      exact hinv.counter
    · intro hlacks
      exact (lacks_snoc.mp hlacks).2 rfl
    · refine lacks_snoc.mpr ⟨hinv.inHeader 12 (by omega), ?_⟩
      intro horder
      cases horder
    · rw [hentries, hfuncs, hvalid.codeStart rfl, Nat.zero_add]
  apply lands_afterLimit
  cases hlimit : env.config.enforcedLimits.minAvgBytesPerFunction with
  | none => exact hvalidate _
  | some limit =>
    by_cases hsize : limit.reqFuncsBytes ≤ size
    · by_cases hcount : count = 0
      · -- the one division that is not guarded
        show Lands _ _ ((if limit.reqFuncsBytes ≤ size then _ else _ : LoadM V C Unit) loader)
        rw [if_pos hsize, if_pos hcount, hcount]
        exact ⟨range, size, limit, rfl, hlimit, hsize⟩
      · show Lands _ _ ((if limit.reqFuncsBytes ≤ size then _ else _ : LoadM V C Unit) loader)
        rw [if_pos hsize, if_neg hcount]
        show Lands _ _ ((if size / count < limit.minAvgBytesPerFunction then _ else _ :
          LoadM V C Unit) loader)
        split
        · trivial
        · exact hvalidate _
    · show Lands _ _ ((if limit.reqFuncsBytes ≤ size then _ else _ : LoadM V C Unit) loader)
      rw [if_neg hsize]
      exact hvalidate _

/-- The translator panics on the next function. -/
def TranslatorPanics (env : LoadEnv P V F C) (header : ModuleHeader) (base : Option Nat)
    (loader : Loader V C) (funcBody : Wasmparser.FunctionBody) (bytes : List Byte) : Prop :=
  ∃ v func v', loader.validator = some v ∧ env.codeSectionEntry v funcBody = .ok (func, v') ∧
    env.translate loader.engine (loader.engineFuncs + header.imports.lenFuncs)
      funcBody.originalPosition bytes header (some func) base = .error .panic

/-- Another function of the module is taken. -/
lemma nextFunc_eq {header : ModuleHeader} (h : loader.engineFuncs < header.engineFuncs.len) :
    LoadEnv.nextFunc header loader =
      .ok ((loader.engineFuncs + header.imports.lenFuncs,
          header.engineFuncs.start + loader.engineFuncs),
        { loader with engineFuncs := loader.engineFuncs + 1 }) := by
  have hget : header.engineFuncs.get loader.engineFuncs =
      some (header.engineFuncs.start + loader.engineFuncs) := by
    unfold EngineFuncSpan.get
    rw [if_neg (by omega)]
  unfold LoadEnv.nextFunc
  rw [get_step, hget]
  rfl

lemma initFunc_eq (loader : Loader V C) {engineFunc : EngineFunc}
    (h : loader.engine.codeMap[engineFunc]? = some none) (entity : C) :
    LoadEnv.initFunc engineFunc entity loader =
      .ok ((), { loader with
        engine.codeMap := loader.engine.codeMap.set engineFunc (some entity) }) := by
  unfold LoadEnv.initFunc
  rw [get_step]
  simp only [h]
  rfl

/-- What `process_code_entry` does with the function that is taken. -/
lemma processCodeEntry_eq {header : ModuleHeader} (h : loader.engineFuncs < header.engineFuncs.len)
    {v : V} (hv : loader.validator = some v) (funcBody : Wasmparser.FunctionBody)
    (bytes : List Byte) (base : Option Nat) :
    env.processCodeEntry funcBody bytes header base loader =
      match env.codeSectionEntry v funcBody with
      | .error e => .error (.error (.wasm e))
      | .ok (func, v') =>
        (env.translate loader.engine (loader.engineFuncs + header.imports.lenFuncs)
            funcBody.originalPosition bytes header (some func) base) >>= fun entity =>
          LoadEnv.initFunc (header.engineFuncs.start + loader.engineFuncs) entity
            { loader with engineFuncs := loader.engineFuncs + 1, validator := some v' } := by
  obtain ⟨engine, validator, n⟩ := loader
  cases hv
  have hnext := nextFunc_eq h
  unfold LoadEnv.processCodeEntry
  show (LoadEnv.nextFunc header ⟨engine, some v, n⟩ >>= _) = _
  rw [hnext]
  cases hentry : env.codeSectionEntry v funcBody with
  | error e =>
    simp only [bind, StateT.bind, Except.bind, get, getThe, MonadStateOf.get, StateT.get, pure,
      Except.pure, hentry]
    rfl
  | ok r =>
    simp only [bind, StateT.bind, Except.bind, get, getThe, MonadStateOf.get, StateT.get, pure,
      Except.pure, hentry]
    show ((liftM (env.translate engine (n + header.imports.lenFuncs) funcBody.originalPosition bytes
      header (some r.1) base) : LoadM V C C) >>= fun entity =>
        LoadEnv.initFunc (header.engineFuncs.start + n) entity) ⟨engine, some r.2, n + 1⟩ = _
    cases env.translate engine (n + header.imports.lenFuncs) funcBody.originalPosition bytes header
      (some r.1) base <;> rfl

/-- A function of the module is translated; one less is left. -/
lemma lands_processCodeEntry {header : ModuleHeader} (hinv : CodeInv env history header loader)
    (hlt : total entries history < total funcs history) (funcBody : Wasmparser.FunctionBody)
    (bytes : List Byte) (base : Option Nat) :
    Lands (TranslatorPanics env header base loader funcBody bytes)
      (fun r => ∃ history', CodeInv env history' header r.2 ∧
        total entries history' = total entries history + 1 ∧
        total funcs history' = total funcs history)
      (env.processCodeEntry funcBody bytes header base loader) := by
  obtain ⟨v, hvalidator, hv⟩ := hinv.validated
  have hnext : loader.engineFuncs < header.engineFuncs.len := by
    rw [hinv.counter, hinv.span]
    exact hlt
  rw [processCodeEntry_eq hnext hvalidator]
  rcases hentry : env.codeSectionEntry v funcBody with e | ⟨func, v'⟩
  · trivial
  · have hfresh := hinv.fresh (total entries history) (Nat.le_refl _) hlt
    have hcounter := hinv.counter
    have htranslate : Lands (TranslatorPanics env header base loader funcBody bytes)
        (fun _ => True) (env.translate loader.engine (loader.engineFuncs + header.imports.lenFuncs)
          funcBody.originalPosition bytes header (some func) base) := by
      rcases hrun : env.translate loader.engine (loader.engineFuncs + header.imports.lenFuncs)
        funcBody.originalPosition bytes header (some func) base with (e | _) | entity
      · trivial
      · exact ⟨v, func, v', hvalidator, hentry, hrun⟩
      · trivial
    apply htranslate.bind
    intro entity _
    rw [← hcounter] at hfresh
    rw [initFunc_eq ⟨loader.engine, some v', loader.engineFuncs + 1⟩ hfresh entity]
    have hentries : total entries (history ++ [.codeSectionEntry funcBody]) =
        total entries history + 1 := total_snoc _ _ _
    have hfuncs : total funcs (history ++ [.codeSectionEntry funcBody]) = total funcs history :=
      total_snoc _ _ _
    refine ⟨history ++ [.codeSectionEntry funcBody], ⟨?_, ?_, ?_, ?_, ?_, ?_⟩, hentries, hfuncs⟩
    · exact ⟨v', rfl, hv.entry hentry⟩
    · rw [hfuncs]
      exact hinv.span
    · intro i hle hi
      rw [hfuncs] at hi
      rw [hentries] at hle
      have hne : loader.engineFuncs ≠ i := by omega
      show (loader.engine.codeMap.set (header.engineFuncs.start + loader.engineFuncs)
        (some entity))[header.engineFuncs.start + i]? = some none
      rw [List.getElem?_set_ne fun heq => hne (Nat.add_left_cancel heq)]
      exact hinv.fresh i (by omega) hi
    · rw [hentries, ← hcounter]
    · intro hlacks
      exact hinv.hasCode (lacks_snoc.mp hlacks).1
    · refine lacks_snoc.mpr ⟨hinv.noData, ?_⟩
      intro horder
      cases horder

end Code

/-! ## The data section -/

/-- The data loop works on a module of which all functions are translated, or that has none. -/
structure DataInv (env : LoadEnv P V F C) (history : List Payload) (builder : ModuleBuilder)
    (loader : Loader V C) : Prop where
  validated : ∃ v, loader.validator = some v ∧ env.Validated history v
  capacity : Lacks history 12 → builder.dataSegments.capacity = 0
  complete : Lacks history 11 ∨ total entries history = total funcs history

/-- The sections of a header are behind. -/
def Sealed (history : List Payload) : Prop := ¬Lacks history 11 ∨ ¬Lacks history 12

section Data

variable {env : LoadEnv P V F C} {history : List Payload} {builder : ModuleBuilder}
  {loader : Loader V C} {D : Prop}

lemma lands_pushDataSegment (segments : DataSegmentsBuilder) {segment : Wasmparser.Data}
    (h : segment.Valid) : Lands D (fun _ => True) (segments.pushDataSegment segment) := by
  unfold DataSegmentsBuilder.pushDataSegment
  cases hkind : segment.kind with
  | passive => trivial
  | active memoryIndex offsetExpr =>
    apply (lands_orPanic (ConstExpr.isSome_new (h.2 memoryIndex offsetExpr hkind))).bind
    intro offset _
    have hle := h.1
    rw [if_neg (by omega)]
    trivial

lemma lands_processData (hsound : SoundValidator env) (hinv : DataInv env history builder loader)
    (sec : Wasmparser.Section Wasmparser.Data) :
    Lands D (fun r => ∃ history', DataInv env history' r.1 r.2 ∧ Sealed history')
      (env.processData sec builder loader) := by
  obtain ⟨v, hvalidator, hv⟩ := hinv.validated
  apply lands_afterLimit
  apply Lands.step (lands_validated hsound hvalidator hv (.dataSection sec))
  intro _ loader₁ hr
  obtain ⟨hvalid, v', hv', hloader⟩ := hr
  have hcapacity := hinv.capacity (hvalid.lacks rfl (Nat.le_refl 12))
  have hreserve : builder.dataSegments.reserve sec.count =
      .ok { builder.dataSegments with capacity := sec.count } := by
    unfold DataSegmentsBuilder.reserve
    rw [if_neg (not_not.mpr hcapacity)]
  rw [hreserve]
  have hok : Lands D (fun _ : DataSegmentsBuilder => True)
      (.ok { builder.dataSegments with capacity := sec.count }) := trivial
  apply Lands.step (hok.lift loader₁)
  intro dataSegments loader₂ hr₂
  refine Lands.step (Lands.lift (Q := fun _ => True) ?_ loader₂) ?_
  · refine Lands.foldlM (I := fun _ _ => True) (n := 0) ?_ trivial
    intro item hmem n segments _
    obtain ⟨segment, rfl, hsegment⟩ := hvalid.dataSection rfl item hmem
    exact lands_pushDataSegment segments hsegment
  intro dataSegments' loader₃ hr₃
  have hloader₃ : loader₃ = { loader with validator := some v' } :=
    hr₃.2.trans (hr₂.2.trans hloader)
  refine ⟨history ++ [.dataSection sec], ⟨?_, ?_, ?_⟩, ?_⟩
  · rw [hloader₃]
    exact ⟨v', rfl, hv'⟩
  · intro hlacks
    exact absurd rfl (lacks_snoc.mp hlacks).2
  · rw [lacks_snoc, total_snoc, total_snoc]
    rcases hinv.complete with hlacks | heq
    · left
      refine ⟨hlacks, ?_⟩
      intro horder
      cases horder
    · right
      exact heq
  · right
    intro hlacks
    exact (lacks_snoc.mp hlacks).2 rfl

/-- Behind the sections of a header nothing that belongs before them is valid. -/
lemma Sealed.not_valid (hsealed : Sealed history)
    (hcomplete : Lacks history 11 ∨ total entries history = total funcs history)
    {payload : Payload} (hdata : ∀ sec, payload ≠ .dataSection sec)
    (hcustom : ∀ reader, payload ≠ .customSection reader)
    (hend : ∀ offset, payload ≠ .end offset) : ¬payload.Valid history := by
  intro hvalid
  have hplace : ∀ place, place ≤ 11 → payload.order ≠ some place := by
    intro place hle horder
    rcases hsealed with h | h
    · exact h (hvalid.lacks horder (by omega))
    · exact h (hvalid.lacks horder (by omega))
  cases payload with
  | version num encoding range =>
    have hnil := hvalid.version rfl
    subst hnil
    rcases hsealed with h | h
    · exact h (Wasmparser.Payload.lacks_nil 11)
    · exact h (Wasmparser.Payload.lacks_nil 12)
  | codeSectionEntry funcBody =>
    have hentry := hvalid.entry rfl
    rcases hcomplete with h | h
    · exact hentry.1 h
    · omega
  | other id => exact hvalid.supported id rfl
  | dataSection sec => exact hdata sec rfl
  | customSection reader => exact hcustom reader rfl
  | «end» offset => exact hend offset rfl
  | typeSection | importSection | functionSection | tableSection | memorySection | globalSection
  | exportSection | startSection | elementSection | dataCountSection | codeSectionStart =>
    exact hplace _ (by decide) rfl

/-- The validator refuses what is not valid. -/
lemma lands_processInvalidPayload (hsound : SoundValidator env) {v : V}
    (hvalidator : loader.validator = some v) (hv : env.Validated history v) {payload : Payload}
    (hinvalid : ¬payload.Valid history) {Q : Unit × Loader V C → Prop} :
    Lands D Q (env.processInvalidPayload payload loader) := by
  apply Lands.step (lands_validated hsound hvalidator hv payload)
  intro _ _ hr
  exact absurd hr.1 hinvalid

end Data

end MotokoDebugger
