import Mathlib.Logic.Relation
import MotokoDebugger.Module.Streaming
import MotokoDebugger.Module.Processes

/-!
# Loading a module panics in two places only

* `Round`: a round of a loop that is followed by another; `Ends`: the last round of a loop.
* `lands_headerPayload`, `lands_codePayload`, `lands_dataPayload`: a round of each loop.
* `parse_never_panics_iff`: the buffered parser panics iff it reaches a division by zero in
  `process_code_start` or a panic of the translator.
-/

namespace MotokoDebugger

open Wasmparser (Payload Chunk ParserError)
open Wasmparser.Payload (total types funcs entries Lacks lacks_nil)

variable {P V F C R S : Type}

/-! ## The rounds of a loop -/

namespace LoadEnv

/-- Where a loop of the buffered parser is. -/
structure Point (P V C S : Type) where
  parser : P
  buffer : List Byte
  state : S
  loader : Loader V C

variable {env : LoadEnv P V F C} {body : S → Payload → List Byte → LoadM V C (Flow S)}

/-- A round that is followed by another. -/
inductive Round (env : LoadEnv P V F C) (body : S → Payload → List Byte → LoadM V C (Flow S)) :
    Point P V C S → Point P V C S → Prop where
  | next {c : Point P V C S} {n payload p' s' loader'} :
    env.parse c.parser c.buffer true = .ok (.parsed n payload, p') →
    body c.state payload (c.buffer.take n) c.loader = .ok (.next s', loader') →
    Round env body c ⟨p', c.buffer.drop n, s', loader'⟩

/-- The rounds of a loop. -/
abbrev Rounds (env : LoadEnv P V F C) (body : S → Payload → List Byte → LoadM V C (Flow S)) :
    Point P V C S → Point P V C S → Prop := Relation.ReflTransGen (Round env body)

/-- A round that is the last one, and what the loop returns. -/
inductive Ends (env : LoadEnv P V F C) (body : S → Payload → List Byte → LoadM V C (Flow S))
    (c : Point P V C S) : Except LoadStop ((S × P × List Byte) × Loader V C) → Prop where
  | noPayload {e} : env.parse c.parser c.buffer true = .error e →
    Ends env body c (.error (.error (.wasm e)))
  | noData {hint p'} : env.parse c.parser c.buffer true = .ok (.needMoreData hint, p') →
    Ends env body c (.error .panic)
  | stopped {n payload p' stop} : env.parse c.parser c.buffer true = .ok (.parsed n payload, p') →
    body c.state payload (c.buffer.take n) c.loader = .error stop →
    Ends env body c (.error stop)
  | consumed {n payload p' s' loader'} :
    env.parse c.parser c.buffer true = .ok (.parsed n payload, p') →
    body c.state payload (c.buffer.take n) c.loader = .ok (.stop s' true, loader') →
    Ends env body c (.ok ((s', p', c.buffer.drop n), loader'))
  | kept {n payload p' s' loader'} :
    env.parse c.parser c.buffer true = .ok (.parsed n payload, p') →
    body c.state payload (c.buffer.take n) c.loader = .ok (.stop s' false, loader') →
    Ends env body c (.ok ((s', p', c.buffer), loader'))

/-- The loop from a point. -/
def loopFrom (env : LoadEnv P V F C) (body : S → Payload → List Byte → LoadM V C (Flow S))
    (fuel : Nat) (c : Point P V C S) : Option (Except LoadStop ((S × P × List Byte) × Loader V C)) :=
  env.bufferedLoop body fuel c.parser c.buffer c.state c.loader

/-- A loop that ends does so in a last round behind its other rounds. -/
lemma exists_ends {fuel : Nat} {c : Point P V C S} {y}
    (h : env.loopFrom body fuel c = some y) : ∃ c', Rounds env body c c' ∧ Ends env body c' y := by
  induction fuel generalizing c with
  | zero => cases h
  | succ fuel ih =>
    obtain ⟨p, b, s, loader⟩ := c
    rcases hparse : env.parse p b true with e | ⟨hint | ⟨n, payload⟩, p'⟩
    · have hloop : env.bufferedLoop body (fuel + 1) p b s loader = _ :=
        bufferedLoop_error hparse fuel s loader
      rw [loopFrom, hloop] at h
      cases h
      exact ⟨_, .refl, .noPayload hparse⟩
    · have hloop : env.bufferedLoop body (fuel + 1) p b s loader = some (.error .panic) := by
        simp only [bufferedLoop, hparse]
        rfl
      rw [loopFrom, hloop] at h
      cases h
      exact ⟨_, .refl, .noData hparse⟩
    · have hloop : env.bufferedLoop body (fuel + 1) p b s loader = _ :=
        bufferedLoop_parsed hparse fuel s loader
      rw [loopFrom, hloop] at h
      rcases hbody : body s payload (b.take n) loader with
        stop | ⟨s' | ⟨s', _ | _⟩, loader'⟩ <;> rw [hbody] at h
      · cases h
        exact ⟨_, .refl, .stopped hparse hbody⟩
      · obtain ⟨c', hrounds, hends⟩ := ih (c := ⟨p', b.drop n, s', loader'⟩) h
        exact ⟨c', .head (.next hparse hbody) hrounds, hends⟩
      · cases h
        exact ⟨_, .refl, .kept hparse hbody⟩
      · cases h
        exact ⟨_, .refl, .consumed hparse hbody⟩

/-- A loop that ends goes through all its rounds. -/
lemma loopFrom_of_rounds {c c' : Point P V C S} (h : Rounds env body c c') {fuel : Nat} {y}
    (hy : env.loopFrom body fuel c = some y) : ∃ fuel', env.loopFrom body fuel' c' = some y := by
  induction h using Relation.ReflTransGen.head_induction_on generalizing fuel with
  | refl => exact ⟨fuel, hy⟩
  | head hround _ ih =>
    obtain ⟨hparse, hbody⟩ := hround
    obtain _ | fuel := fuel
    · cases hy
    · rw [loopFrom, bufferedLoop_parsed hparse, hbody] at hy
      exact ih hy

/-- The last round of a loop is the only one. -/
lemma loopFrom_eq_of_ends {c : Point P V C S} {y y'} (h : Ends env body c y) {fuel : Nat}
    (hy : env.loopFrom body fuel c = some y') : y' = y := by
  obtain _ | fuel := fuel
  · cases hy
  · rw [loopFrom] at hy
    cases h with
    | noPayload hparse =>
      rw [bufferedLoop_error hparse] at hy
      exact (Option.some.inj hy).symm
    | noData hparse =>
      simp only [bufferedLoop, hparse] at hy
      exact (Option.some.inj hy).symm
    | stopped hparse hbody =>
      rw [bufferedLoop_parsed hparse, hbody] at hy
      exact (Option.some.inj hy).symm
    | consumed hparse hbody =>
      rw [bufferedLoop_parsed hparse, hbody] at hy
      exact (Option.some.inj hy).symm
    | kept hparse hbody =>
      rw [bufferedLoop_parsed hparse, hbody] at hy
      exact (Option.some.inj hy).symm

/-- A loop that reaches a last round returns what this round does. -/
lemma loopFrom_eq {c c' : Point P V C S} (h : Rounds env body c c') {y y'}
    (hends : Ends env body c' y) {fuel : Nat} (hy : env.loopFrom body fuel c = some y') : y' = y := by
  obtain ⟨fuel', hy'⟩ := loopFrom_of_rounds h hy
  exact loopFrom_eq_of_ends hends hy'

/-! ## A round of the header loop -/

/-- The next payload is the data section or the end. -/
def DataAhead (env : LoadEnv P V F C) (p : P) (b : List Byte) : Prop :=
  ∀ {n payload p'}, env.parse p b true = .ok (.parsed n payload, p') →
    (∃ sec, payload = .dataSection sec) ∨ ∃ offset, payload = .end offset

/-- A loop that leaves without consuming the data section or the end leaves them to the next. -/
lemma DataAhead.again (hchunked : Chunked env.parse) {phase : P → Phase}
    (hparser : SoundParser env phase) {p p' : P} {b : List Byte} {n : Nat} {payload : Payload}
    (hparse : env.parse p b true = .ok (.parsed n payload, p'))
    (hpayload : (∃ sec, payload = .dataSection sec) ∨ ∃ offset, payload = .end offset) :
    env.DataAhead p' b := by
  intro n' payload' p'' hagain
  rcases hpayload with ⟨sec, rfl⟩ | ⟨offset, rfl⟩
  · obtain ⟨n₁, sec₁, p₁, hdata⟩ := hparser.dataAgain hparse
    rw [hdata] at hagain
    cases hagain
    exact .inl ⟨sec₁, rfl⟩
  · rw [hchunked.endAgain hparse] at hagain
    cases hagain
    exact .inr ⟨offset, rfl⟩

/-- What a round of the header loop leads to. -/
def HeaderStep (env : LoadEnv P V F C) (s : HeaderState) (loader : Loader V C) (payload : Payload)
    (phase : Phase) : Flow HeaderState × Loader V C → Prop
  | (.next s', loader') =>
    phase = .sectionStart ∧ ∃ history, HeaderInv env history s'.header loader'
  | (.stop s' true, loader') => ∃ history count, CodeInv env history s'.header.finish loader' ∧
    phase = .functionBody count ∧ total entries history + count = total funcs history
  | (.stop s' false, loader') => s' = s ∧ loader' = loader ∧
    ((∃ sec, payload = .dataSection sec) ∨ ∃ offset, payload = .end offset)

section Header

variable {history : List Payload} {s : HeaderState} {loader : Loader V C}

lemma lands_push {D : Prop} {payload : Payload}
    {process : ModuleHeaderBuilder → LoadM V C ModuleHeaderBuilder}
    (h : Lands D (HeaderKept env) (process s.header loader)) :
    Lands D (env.HeaderStep s loader payload .sectionStart)
      ((process s.header >>= fun header => (pure (.next { s with header }) : LoadM V C _))
        loader) := by
  apply Lands.step h
  intro header' loader' hkept
  exact ⟨rfl, hkept⟩

/-- A round of the header loop panics in the division only. -/
lemma lands_headerPayload (hsound : SoundValidator env)
    (hinv : HeaderInv env history s.header loader) {phase phase' : Phase} {payload : Payload}
    (hfollows : phase.Follows payload phase') (hphase : phase = .header ∨ phase = .sectionStart)
    (bytes : List Byte) :
    Lands (Divides env payload) (env.HeaderStep s loader payload phase')
      (env.headerPayload s payload bytes loader) := by
  cases hfollows with
  | version num encoding range =>
    apply Lands.step (lands_version hsound hinv num encoding range)
    intro _ loader' hkept
    exact ⟨rfl, hkept⟩
  | codeStart count range size hsection =>
    apply Lands.step (lands_processCodeStart hsound hinv count range size)
    intro _ loader' hcode
    obtain ⟨history', hcode, htotal⟩ := hcode
    exact ⟨history', count, hcode, rfl, htotal⟩
  | entry remaining funcBody =>
    rcases hphase with hphase | hphase <;> cases hphase
  | section_ hsection hversion hcode hentry =>
    cases payload with
    | version num encoding range => exact absurd rfl (hversion num encoding range)
    | codeSectionStart count range size => exact absurd rfl (hcode count range size)
    | codeSectionEntry funcBody => exact absurd rfl (hentry funcBody)
    | typeSection sec => exact lands_push (lands_processTypes hsound hinv sec)
    | importSection sec => exact lands_push (lands_processImports hsound hinv sec)
    | functionSection sec => exact lands_push (lands_processFunctions hsound hinv sec)
    | tableSection sec => exact lands_push (lands_processTables hsound hinv sec)
    | memorySection sec => exact lands_push (lands_processMemories hsound hinv sec)
    | globalSection sec => exact lands_push (lands_processGlobals hsound hinv sec)
    | exportSection sec => exact lands_push (lands_processExports hsound hinv sec)
    | startSection func range => exact lands_push (lands_processStart hsound hinv func range)
    | elementSection sec => exact lands_push (lands_processElement hsound hinv sec)
    | dataCountSection count range =>
      apply Lands.step (lands_processDataCount hsound hinv count range)
      intro _ loader' hkept
      exact ⟨rfl, hkept⟩
    | dataSection sec => exact ⟨rfl, rfl, .inl ⟨sec, rfl⟩⟩
    | «end» offset => exact ⟨rfl, rfl, .inr ⟨offset, rfl⟩⟩
    | customSection reader => exact ⟨rfl, history, hinv⟩
    | other id =>
      -- neither a tag section nor a part of a component passes the validator
      obtain ⟨v, hvalidator, hv⟩ := hinv.validated
      refine Lands.step (Q := fun _ => False) (lands_processInvalidPayload hsound hvalidator hv
        fun hvalid => hvalid.supported id rfl) ?_
      intro _ _ h
      exact h.elim

end Header

/-- The header loop at a point of its run. -/
def HeaderPoint (env : LoadEnv P V F C) (phase : P → Phase) (c : Point P V C HeaderState) : Prop :=
  (phase c.parser = .header ∨ phase c.parser = .sectionStart) ∧
    ∃ history, HeaderInv env history c.state.header c.loader

lemma HeaderPoint.rounds {phase : P → Phase} (hparser : SoundParser env phase)
    (hsound : SoundValidator env) {c c' : Point P V C HeaderState}
    (h : Rounds env env.headerPayload c c') (hc : env.HeaderPoint phase c) :
    env.HeaderPoint phase c' := by
  induction h with
  | refl => exact hc
  | @tail c₁ c₂ _ hround ih =>
    obtain ⟨hphase, history, hinv⟩ := ih
    cases hround with
    | @next n _ _ _ _ hparse hbody =>
      have hlands :=
        lands_headerPayload hsound hinv (hparser.follows hparse) hphase (c₁.buffer.take n)
      rw [hbody] at hlands
      exact ⟨.inr hlands.1, hlands.2⟩

lemma headerPoint_new {phase : P → Phase} (hparser : SoundParser env phase)
    (engine : LoadEngine C) (buffer : List Byte) :
    env.HeaderPoint phase ⟨env.newParser, buffer, {}, env.newLoader engine⟩ := by
  refine ⟨.inl hparser.start, [], ⟨?_, rfl, ?_, rfl, ?_, rfl, ?_, rfl⟩⟩
  · exact ⟨env.newValidator, rfl, .new⟩
  · intro place _
    show ModuleHeaderBuilder.Untouched {} place
    unfold ModuleHeaderBuilder.Untouched
    split <;> trivial
  · intro i hi
    exact absurd hi (Nat.not_lt_zero i)
  · intro place _
    exact lacks_nil place

/-! ## A round of the code loop -/

/-- The code loop at a point of its run: functions are left, or there is no code section. -/
def CodePoint (env : LoadEnv P V F C) (phase : P → Phase) (header : ModuleHeader)
    (c : Point P V C Unit) : Prop :=
  (∃ history pending, CodeInv env history header c.loader ∧
      phase c.parser = .functionBody pending ∧
      total entries history + pending = total funcs history) ∨
    env.DataAhead c.parser c.buffer ∧ ∃ history v, c.loader.validator = some v ∧
      env.Validated history v ∧ Lacks history 11 ∧ Lacks history 12

section Code

variable {phase : P → Phase} {header : ModuleHeader} {c : Point P V C Unit}
  {n : Nat} {payload : Payload} {p' : P}

/-- A round of the code loop that takes a function, at a point of its run. -/
lemma lands_codePayload (hparser : SoundParser env phase) (hc : env.CodePoint phase header c)
    {funcBody : Wasmparser.FunctionBody}
    (hparse : env.parse c.parser c.buffer true = .ok (.parsed n (.codeSectionEntry funcBody), p'))
    (bytes : List Byte) (base : Option Nat) :
    Lands (TranslatorPanics env header base c.loader funcBody bytes)
      (fun r => ∀ buffer, env.CodePoint phase header ⟨p', buffer, (), r.2⟩)
      (env.processCodeEntry funcBody bytes header base c.loader) := by
  rcases hc with ⟨history, pending, hinv, hphase, htotal⟩ | ⟨hahead, _⟩
  · have hfollows := hparser.follows hparse
    rw [hphase] at hfollows
    obtain ⟨remaining, rfl, hbehind⟩ := hfollows.of_entry
    refine (lands_processCodeEntry hinv (by omega) funcBody bytes base).mono ?_
    intro r hr buffer
    obtain ⟨history', hinv', hentries, hfuncs⟩ := hr
    exact .inl ⟨history', remaining, hinv', hbehind, by omega⟩
  · rcases hahead hparse with ⟨sec, hpayload⟩ | ⟨offset, hpayload⟩ <;> cases hpayload

/-- The data loop at a point of its run. -/
def DataPoint (env : LoadEnv P V F C) (c : Point P V C ModuleBuilder) : Prop :=
  ∃ history, DataInv env history c.state c.loader ∧
    (Sealed history ∨ env.DataAhead c.parser c.buffer)

/-- Where the code loop leaves, the data loop takes over. -/
lemma dataPoint_of_codePoint (hchunked : Chunked env.parse) (hparser : SoundParser env phase)
    (hc : env.CodePoint phase header c)
    (hparse : env.parse c.parser c.buffer true = .ok (.parsed n payload, p'))
    (hentry : ∀ funcBody, payload ≠ .codeSectionEntry funcBody) (customSections : CustomSections) :
    env.DataPoint ⟨p', c.buffer, ⟨header, {}, customSections⟩, c.loader⟩ := by
  rcases hc with ⟨history, pending, hinv, hphase, htotal⟩ |
    ⟨hahead, history, v, hvalidator, hv, hcode, hdata⟩
  · have hfollows := hparser.follows hparse
    rw [hphase] at hfollows
    have hdone := hfollows.eq_zero hentry
    exact ⟨history, ⟨hinv.validated, fun _ => rfl, .inr (by omega)⟩, .inl (.inl hinv.hasCode)⟩
  · exact ⟨history, ⟨⟨v, hvalidator, hv⟩, fun _ => rfl, .inl hcode⟩,
      .inr (DataAhead.again hchunked hparser hparse (hahead hparse))⟩

end Code

/-- The function bytes that `codePayload` hands on. -/
def entryBytes (bytes : List Byte) (funcBody : Wasmparser.FunctionBody) : List Byte :=
  bytes.drop (bytes.length - funcBody.bytes.length)

lemma codePayload_entry (header : ModuleHeader) (base : Option Nat)
    (funcBody : Wasmparser.FunctionBody) (bytes : List Byte) (loader : Loader V C) :
    env.codePayload header base () (.codeSectionEntry funcBody) bytes loader =
      match env.processCodeEntry funcBody (entryBytes bytes funcBody) header base loader with
      | .error stop => .error stop
      | .ok (_, loader') => .ok (.next (), loader') := by
  show (env.processCodeEntry funcBody (entryBytes bytes funcBody) header base >>= fun _ =>
    (pure (Flow.next ()) : LoadM V C (Flow Unit))) loader = _
  simp only [bind, StateT.bind, Except.bind]
  rcases env.processCodeEntry funcBody (entryBytes bytes funcBody) header base loader with
    stop | r <;> rfl

/-- Where a round of the code loop goes on, its payload is a function of the module. -/
lemma codePayload_eq_next {header : ModuleHeader} {base : Option Nat} {payload : Payload}
    {bytes : List Byte} {loader loader' : Loader V C} {s' : Unit}
    (h : env.codePayload header base () payload bytes loader = .ok (.next s', loader')) :
    ∃ funcBody, payload = .codeSectionEntry funcBody ∧
      env.processCodeEntry funcBody (entryBytes bytes funcBody) header base loader =
        .ok ((), loader') := by
  cases payload with
  | codeSectionEntry funcBody =>
    refine ⟨funcBody, rfl, ?_⟩
    rw [codePayload_entry] at h
    cases hrun : env.processCodeEntry funcBody (entryBytes bytes funcBody) header base loader with
    | error stop =>
      rw [hrun] at h
      cases h
    | ok r =>
      rw [hrun] at h
      cases h
      rfl
  | _ => cases h

lemma CodePoint.rounds {phase : P → Phase} {header : ModuleHeader} {base : Option Nat}
    (hparser : SoundParser env phase) {c c' : Point P V C Unit}
    (h : Rounds env (env.codePayload header base) c c') (hc : env.CodePoint phase header c) :
    env.CodePoint phase header c' := by
  induction h with
  | refl => exact hc
  | @tail c₁ c₂ _ hround ih =>
    cases hround with
    | @next n _ _ _ _ hparse hbody =>
      obtain ⟨funcBody, rfl, hrun⟩ := codePayload_eq_next hbody
      have hlands := lands_codePayload hparser ih hparse
        (entryBytes (c₁.buffer.take n) funcBody) base
      rw [hrun] at hlands
      exact hlands _

/-! ## A round of the data loop -/

section Data

variable {c : Point P V C ModuleBuilder} {n : Nat} {payload : Payload} {p' : P}

/-- What a round of the data loop leads to. -/
def DataStep (env : LoadEnv P V F C) : Flow ModuleBuilder × Loader V C → Prop
  | (.next builder, loader) => ∃ history, DataInv env history builder loader ∧ Sealed history
  | (.stop _ _, _) => True

/-- No round of the data loop panics. -/
lemma lands_dataPayload (hsound : SoundValidator env) (hc : env.DataPoint c)
    (hparse : env.parse c.parser c.buffer true = .ok (.parsed n payload, p')) (bytes : List Byte) :
    Lands False env.DataStep (env.dataPayload c.state payload bytes c.loader) := by
  obtain ⟨history, hinv, hwhere⟩ := hc
  obtain ⟨v, hvalidator, hv⟩ := hinv.validated
  by_cases hdata : ∃ sec, payload = .dataSection sec
  · obtain ⟨sec, rfl⟩ := hdata
    apply Lands.step (lands_processData hsound hinv sec)
    intro builder loader' h
    exact h
  · by_cases hend : ∃ offset, payload = .end offset
    · obtain ⟨offset, rfl⟩ := hend
      apply Lands.step (lands_validated hsound hvalidator hv (.end offset))
      intro _ _ _
      trivial
    · have hsealed : Sealed history := by
        rcases hwhere with hsealed | hahead
        · exact hsealed
        · rcases hahead hparse with h | h
          · exact absurd h hdata
          · exact absurd h hend
      by_cases hcustom : ∃ reader, payload = .customSection reader
      · obtain ⟨reader, rfl⟩ := hcustom
        exact ⟨history, ⟨⟨v, hvalidator, hv⟩, hinv.capacity, hinv.complete⟩, hsealed⟩
      · have hinvalid : ¬payload.Valid history :=
          hsealed.not_valid hinv.complete (fun sec h => hdata ⟨sec, h⟩)
            (fun reader h => hcustom ⟨reader, h⟩) (fun offset h => hend ⟨offset, h⟩)
        have hbody : env.dataPayload c.state payload bytes c.loader =
            (env.processInvalidPayload payload >>= fun _ =>
              (pure (.next c.state) : LoadM V C _)) c.loader := by
          cases payload with
          | dataSection sec => exact absurd ⟨sec, rfl⟩ hdata
          | customSection reader => exact absurd ⟨reader, rfl⟩ hcustom
          | «end» offset => exact absurd ⟨offset, rfl⟩ hend
          | _ => rfl
        rw [hbody]
        refine Lands.step (Q := fun _ => False)
          (lands_processInvalidPayload hsound hvalidator hv hinvalid) ?_
        intro _ _ h
        exact h.elim

lemma DataPoint.rounds (hsound : SoundValidator env) {c c' : Point P V C ModuleBuilder}
    (h : Rounds env env.dataPayload c c') (hc : env.DataPoint c) : env.DataPoint c' := by
  induction h with
  | refl => exact hc
  | @tail c₁ c₂ _ hround ih =>
    cases hround with
    | @next n _ _ _ _ hparse hbody =>
      have hlands := lands_dataPayload hsound ih hparse (c₁.buffer.take n)
      rw [hbody] at hlands
      obtain ⟨history, hinv, hsealed⟩ := hlands
      exact ⟨history, hinv, .inl hsealed⟩

end Data

/-! ## The buffered parser -/

/-- Where the header loop begins. -/
def startPoint (env : LoadEnv P V F C) (engine : LoadEngine C) (buffer : List Byte) :
    Point P V C HeaderState := ⟨env.newParser, buffer, {}, env.newLoader engine⟩

/-- The sections of the header are accepted up to a code section of no functions, and the limit on
the size of functions applies to it. -/
def DivisionReached (env : LoadEnv P V F C) (engine : LoadEngine C) (buffer : List Byte) : Prop :=
  ∃ c n payload p', Rounds env env.headerPayload (env.startPoint engine buffer) c ∧
    env.parse c.parser c.buffer true = .ok (.parsed n payload, p') ∧ Divides env payload

/-- The functions are accepted up to one on which the translator panics. -/
def TranslatorPanicReached (env : LoadEnv P V F C) (engine : LoadEngine C) (buffer : List Byte) :
    Prop :=
  ∃ c s p b loader, Rounds env env.headerPayload (env.startPoint engine buffer) c ∧
    Ends env env.headerPayload c (.ok ((s, p, b), loader)) ∧
    ∃ c' n funcBody p',
      Rounds env (env.codePayload s.header.finish s.codeSectionBaseOffset) ⟨p, b, (), loader⟩ c' ∧
      env.parse c'.parser c'.buffer true = .ok (.parsed n (.codeSectionEntry funcBody), p') ∧
      TranslatorPanics env s.header.finish s.codeSectionBaseOffset c'.loader funcBody
        (entryBytes (c'.buffer.take n) funcBody)

lemma bind_eq_some {A B : Type} {x : LoopM V C A} {f : A → LoopM V C B} {loader : Loader V C} {y}
    (h : (x >>= f) loader = some y) :
    (∃ stop, x loader = some (.error stop) ∧ y = .error stop) ∨
      ∃ a loader', x loader = some (.ok (a, loader')) ∧ f a loader' = some y := by
  rcases hx : x loader with _ | stop | ⟨a, loader'⟩
  · simp only [bind, StateT.bind, hx] at h
    cases h
  · rw [bind_of_stopped hx] at h
    exact .inl ⟨stop, rfl, (Option.some.inj h).symm⟩
  · rw [bind_of_returned hx] at h
    exact .inr ⟨a, loader', rfl, h⟩

section Parser

variable {phase : P → Phase} {engine : LoadEngine C} {buffer : List Byte} {fuel : Nat}

/-- The header loop panics in the division only. -/
lemma header_panics (hchunked : Chunked env.parse) (hparser : SoundParser env phase)
    (hsound : SoundValidator env)
    (h : env.loopFrom env.headerPayload fuel (env.startPoint engine buffer) =
      some (.error .panic)) : env.DivisionReached engine buffer := by
  obtain ⟨c, hrounds, hends⟩ := exists_ends h
  obtain ⟨hphase, history, hinv⟩ :=
    HeaderPoint.rounds hparser hsound hrounds (headerPoint_new hparser engine buffer)
  cases hends with
  | noData hparse => exact absurd hparse hchunked.eof
  | @stopped n payload p' _ hparse hbody =>
    have hlands :=
      lands_headerPayload hsound hinv (hparser.follows hparse) hphase (c.buffer.take n)
    rw [hbody] at hlands
    exact ⟨c, n, payload, p', hrounds, hparse, hlands⟩

/-- Where the header loop returns, the code loop begins. -/
lemma codePoint_of_header (hchunked : Chunked env.parse) (hparser : SoundParser env phase)
    (hsound : SoundValidator env) {c : Point P V C HeaderState} {s : HeaderState} {p : P}
    {b : List Byte} {loader : Loader V C}
    (hrounds : Rounds env env.headerPayload (env.startPoint engine buffer) c)
    (hends : Ends env env.headerPayload c (.ok ((s, p, b), loader))) :
    env.CodePoint phase s.header.finish ⟨p, b, (), loader⟩ := by
  obtain ⟨hphase, history, hinv⟩ :=
    HeaderPoint.rounds hparser hsound hrounds (headerPoint_new hparser engine buffer)
  cases hends with
  | @consumed n _ _ _ _ hparse hbody =>
    have hlands :=
      lands_headerPayload hsound hinv (hparser.follows hparse) hphase (c.buffer.take n)
    rw [hbody] at hlands
    obtain ⟨history', count, hcode, hbehind, htotal⟩ := hlands
    exact .inl ⟨history', count, hcode, hbehind, htotal⟩
  | @kept n _ _ _ _ hparse hbody =>
    have hlands :=
      lands_headerPayload hsound hinv (hparser.follows hparse) hphase (c.buffer.take n)
    rw [hbody] at hlands
    obtain ⟨rfl, rfl, hpayload⟩ := hlands
    obtain ⟨v, hvalidator, hv⟩ := hinv.validated
    exact .inr ⟨DataAhead.again hchunked hparser hparse hpayload, history, v, hvalidator, hv,
      hinv.inHeader 11 (Nat.le_refl 11), hinv.inHeader 12 (by omega)⟩

/-- The code loop panics in the translator only. -/
lemma code_panics (hchunked : Chunked env.parse) (hparser : SoundParser env phase)
    {header : ModuleHeader} {base : Option Nat} {c : Point P V C Unit}
    (hc : env.CodePoint phase header c)
    (h : env.loopFrom (env.codePayload header base) fuel c = some (.error .panic)) :
    ∃ c' n funcBody p', Rounds env (env.codePayload header base) c c' ∧
      env.parse c'.parser c'.buffer true = .ok (.parsed n (.codeSectionEntry funcBody), p') ∧
      TranslatorPanics env header base c'.loader funcBody
        (entryBytes (c'.buffer.take n) funcBody) := by
  obtain ⟨c', hrounds, hends⟩ := exists_ends h
  have hc' := CodePoint.rounds hparser hrounds hc
  cases hends with
  | noData hparse => exact absurd hparse hchunked.eof
  | @stopped n payload p' _ hparse hbody =>
    cases payload with
    | codeSectionEntry funcBody =>
      have hlands := lands_codePayload hparser hc' hparse
        (entryBytes (c'.buffer.take n) funcBody) base
      have hpanic : env.processCodeEntry funcBody (entryBytes (c'.buffer.take n) funcBody) header
          base c'.loader = .error .panic := by
        rw [codePayload_entry] at hbody
        rcases hrun : env.processCodeEntry funcBody (entryBytes (c'.buffer.take n) funcBody) header
          base c'.loader with stop | r <;> rw [hrun] at hbody <;> cases hbody
        rfl
      rw [hpanic] at hlands
      exact ⟨c', n, funcBody, p', hrounds, hparse, hlands⟩
    | _ => cases hbody

/-- The data loop does not panic. -/
lemma data_not_panics (hchunked : Chunked env.parse) (hsound : SoundValidator env)
    {c : Point P V C ModuleBuilder} (hc : env.DataPoint c) :
    env.loopFrom env.dataPayload fuel c ≠ some (.error .panic) := by
  intro h
  obtain ⟨c', hrounds, hends⟩ := exists_ends h
  have hc' := DataPoint.rounds hsound hrounds hc
  cases hends with
  | noData hparse => exact absurd hparse hchunked.eof
  | @stopped n payload p' _ hparse hbody =>
    have hlands := lands_dataPayload hsound hc' hparse (c'.buffer.take n)
    rw [hbody] at hlands
    exact hlands

/-- Wherever the buffered parser panics, it does so in one of two places. -/
theorem parseBuffered_panics (hchunked : Chunked env.parse) (hparser : SoundParser env phase)
    (hsound : SoundValidator env)
    (h : env.parseBuffered fuel engine buffer = some (.error .panic)) :
    env.DivisionReached engine buffer ∨ env.TranslatorPanicReached engine buffer := by
  unfold parseBuffered parseBufferedImpl at h
  rcases bind_eq_some h with ⟨stop, hloop, hstop⟩ | ⟨⟨s, p, b⟩, loader, hloop, h⟩
  · cases hstop
    exact .inl (header_panics hchunked hparser hsound hloop)
  obtain ⟨c, hrounds, hends⟩ := exists_ends (c := env.startPoint engine buffer) hloop
  have hcode := codePoint_of_header hchunked hparser hsound hrounds hends
  rcases bind_eq_some h with ⟨stop, hloop', hstop⟩ | ⟨⟨_, p', b'⟩, loader', hloop', h⟩
  · cases hstop
    exact .inr ⟨c, s, p, b, loader, hrounds, hends, code_panics hchunked hparser hcode hloop'⟩
  -- the data loop begins where the code loop has met anything but a function
  obtain ⟨c', hrounds', hends'⟩ := exists_ends (c := ⟨p, b, (), loader⟩) hloop'
  have hcode' := CodePoint.rounds hparser hrounds' hcode
  have hdata : env.DataPoint ⟨p', b', ⟨s.header.finish, {}, s.customSections⟩, loader'⟩ := by
    cases hends' with
    | @consumed n payload _ _ _ hparse hbody =>
      cases payload with
      | codeSectionEntry funcBody =>
        rw [codePayload_entry] at hbody
        split at hbody <;> cases hbody
      | _ => cases hbody
    | @kept n payload _ _ _ hparse hbody =>
      have hentry : ∀ funcBody, payload ≠ .codeSectionEntry funcBody := by
        intro funcBody hpayload
        subst hpayload
        rw [codePayload_entry] at hbody
        split at hbody <;> cases hbody
      have hsame : loader' = c'.loader := by
        cases payload with
        | codeSectionEntry funcBody => exact absurd rfl (hentry funcBody)
        | _ =>
          cases hbody
          rfl
      rw [hsame]
      exact dataPoint_of_codePoint hchunked hparser hcode' hparse hentry s.customSections
  rcases bind_eq_some h with ⟨stop, hloop'', hstop⟩ | ⟨⟨builder, p'', b''⟩, loader'', _, h⟩
  · cases hstop
    exact absurd hloop'' (data_not_panics hchunked hsound hdata)
  · cases h

/-- Where the division is reached, the buffered parser panics. -/
theorem parseBuffered_of_divisionReached (hreached : env.DivisionReached engine buffer) {y}
    (h : env.parseBuffered fuel engine buffer = some y) : y = .error .panic := by
  obtain ⟨c, n, payload, p', hrounds, hparse, range, size, limit, rfl, hlimit, hsize⟩ := hreached
  have hcount : ∀ error, checkLimit env.config.enforcedLimits.maxFunctions error 0 = .ok () := by
    intro error
    unfold checkLimit
    split
    · rfl
    · exact if_neg (by omega)
  have hbody : env.headerPayload c.state (.codeSectionStart 0 range size) (c.buffer.take n)
      c.loader = .error .panic := by
    show (env.processCodeStart 0 range size >>= _) c.loader = _
    have hstart : env.processCodeStart 0 range size c.loader = .error .panic := by
      unfold processCodeStart
      rw [hcount, hlimit]
      show (if limit.reqFuncsBytes ≤ size then _ else _ : LoadM V C Unit) c.loader = _
      rw [if_pos hsize]
      rfl
    simp only [bind, StateT.bind, Except.bind, hstart]
  unfold parseBuffered parseBufferedImpl at h
  rcases bind_eq_some h with ⟨stop, hloop, rfl⟩ | ⟨r, loader, hloop, _⟩
  · have heq := loopFrom_eq hrounds (.stopped hparse hbody) hloop
    cases heq
    rfl
  · have heq := loopFrom_eq hrounds (.stopped hparse hbody) hloop
    cases heq

/-- Where a panic of the translator is reached, the buffered parser panics. -/
theorem parseBuffered_of_translatorPanicReached
    (hreached : env.TranslatorPanicReached engine buffer) {y}
    (h : env.parseBuffered fuel engine buffer = some y) : y = .error .panic := by
  obtain ⟨c, s, p, b, loader, hrounds, hends, c', n, funcBody, p', hrounds', hparse, v, func, v',
    hvalidator, hentry, htranslate⟩ := hreached
  have hstop : Ends env (env.codePayload s.header.finish s.codeSectionBaseOffset) c'
      (.error .panic) := by
    refine .stopped hparse ?_
    rw [codePayload_entry]
    by_cases hlt : c'.loader.engineFuncs < s.header.finish.engineFuncs.len
    · rw [processCodeEntry_eq hlt hvalidator, hentry]
      simp only [htranslate]
      rfl
    · have hnext : nextFunc s.header.finish c'.loader = .error .panic := by
        unfold nextFunc
        rw [get_step]
        have hget : s.header.finish.engineFuncs.get c'.loader.engineFuncs = none := by
          unfold EngineFuncSpan.get
          rw [if_pos (Nat.le_of_not_lt hlt)]
        rw [hget]
        rfl
      unfold processCodeEntry
      simp only [bind, StateT.bind, Except.bind, hnext]
  unfold parseBuffered parseBufferedImpl at h
  rcases bind_eq_some h with ⟨stop, hloop, rfl⟩ | ⟨r, loader₁, hloop, h⟩
  · have heq := loopFrom_eq hrounds hends hloop
    cases heq
  have heq := loopFrom_eq hrounds hends hloop
  cases heq
  rcases bind_eq_some h with ⟨stop, hloop', rfl⟩ | ⟨r', loader₂, hloop', h⟩
  · have heq := loopFrom_eq hrounds' hstop hloop'
    cases heq
    rfl
  · have heq := loopFrom_eq hrounds' hstop hloop'
    cases heq

end Parser

/-- For every binary, delivered at once or in chunks, and every configuration both parsers return a
module or an error iff neither the division by the number of functions is reached with a code
section of none, nor a function on which the translator panics. -/
theorem parse_never_panics_iff (env : LoadEnv P V F C) (hchunked : Chunked env.parse)
    (phase : P → Phase) (hparser : SoundParser env phase) (hsound : SoundValidator env)
    (bytes : ByteStream R) (stream : R) (engine : LoadEngine C) :
    ∃ n, ∀ fuel fuel', n ≤ fuel → n ≤ fuel' →
      ∃ x y, env.parseStreaming bytes fuel engine stream = some x ∧
        env.parseBuffered fuel' engine (bytes.rest stream) = some y ∧
        ((x ≠ .error .panic ∧ y ≠ .error .panic) ↔
          ¬env.DivisionReached engine (bytes.rest stream) ∧
          ¬env.TranslatorPanicReached engine (bytes.rest stream)) := by
  refine ⟨2 * (bytes.rest stream).length + 2, ?_⟩
  intro fuel fuel' hfuel hfuel'
  have hlt : 2 * (bytes.rest stream).length + 1 < fuel := by omega
  have hlt' : 2 * (bytes.rest stream).length + 1 < fuel' := by omega
  obtain ⟨x, y, hx, hy, hsame⟩ := parsers_agree hchunked bytes stream engine hlt hlt'
  refine ⟨x, y, hx, hy, ?_⟩
  have hxy : x = .error .panic ↔ y = .error .panic := by
    rcases hsame with rfl | ⟨⟨e, rfl⟩, e', rfl⟩
    · exact Iff.rfl
    · constructor <;> intro h <;> cases h
  constructor
  · intro h
    refine ⟨fun hreached => ?_, fun hreached => ?_⟩
    · exact h.2 (parseBuffered_of_divisionReached hreached hy)
    · exact h.2 (parseBuffered_of_translatorPanicReached hreached hy)
  · intro h
    have hpanic : y ≠ .error .panic := by
      rintro rfl
      rcases parseBuffered_panics hchunked hparser hsound hy with hreached | hreached
      · exact h.1 hreached
      · exact h.2 hreached
    exact ⟨fun heq => hpanic (hxy.mp heq), hpanic⟩

end LoadEnv

/-! ## Modules without functions -/

/-- The bytes of a code section of no functions. -/
def emptyCodeSection : List Byte := [0x0a, 0x01, 0x00]

/-- Expects certain bytes. -/
def expect (bytes : List Byte) (payload : Payload) (behind p : Phase) (b : List Byte)
    (eof : Bool) : Except ParserError (Chunk × Phase) :=
  if b.length < bytes.length then
    if eof then .error ⟨"unexpected end-of-file", b.length⟩
    else .ok (.needMoreData (bytes.length - b.length), p)
  else if b.take bytes.length = bytes then .ok (.parsed bytes.length payload, behind)
  else .error ⟨"not supported", 0⟩

/-- The binary parser for modules of which the one section is a code section of no functions. -/
def parseEmptyCode (p : Phase) (b : List Byte) (eof : Bool) :
    Except ParserError (Chunk × Phase) :=
  match p with
  | .header => expect wasmHeader (.version 1 .module_ ⟨4, 8⟩) .sectionStart p b eof
  | .functionBody (_ + 1) => .error ⟨"not supported", 0⟩
  | .sectionStart | .functionBody 0 =>
    if b = [] then
      if eof then .ok (.parsed 0 (.end 8), .sectionStart) else .ok (.needMoreData 1, p)
    else expect emptyCodeSection (.codeSectionStart 0 ⟨10, 11⟩ 0) (.functionBody 0) p b eof

section EmptyCode

variable {bytes b : List Byte} {payload payload' : Payload} {behind p p' : Phase} {eof : Bool}
  {n hint : Nat}

lemma expect_eq_parsed (h : expect bytes payload behind p b eof = .ok (.parsed n payload', p')) :
    n = bytes.length ∧ payload' = payload ∧ p' = behind ∧ bytes.length ≤ b.length ∧
      b.take bytes.length = bytes := by
  unfold expect at h
  split at h
  · split at h <;> cases h
  · rename_i hlen
    split at h
    · rename_i htake
      cases h
      exact ⟨rfl, rfl, rfl, by omega, htake⟩
    · cases h

lemma expect_eq_more (h : expect bytes payload behind p b eof = .ok (.needMoreData hint, p')) :
    p' = p ∧ eof = false ∧ 0 < hint ∧ b.length < bytes.length := by
  unfold expect at h
  split at h
  · rename_i hlen
    split at h
    · cases h
    · rename_i heof
      cases h
      exact ⟨rfl, by simpa using heof, by omega, hlen⟩
  · split at h <;> cases h

lemma expect_of_parsed (hlen : bytes.length ≤ b.length) (htake : b.take bytes.length = bytes)
    (c : List Byte) :
    expect bytes payload behind p (b ++ c) eof = .ok (.parsed bytes.length payload, behind) := by
  unfold expect
  rw [if_neg (by rw [List.length_append]; omega), List.take_append_of_le_length hlen, if_pos htake]

lemma expect_short (h : b.length < bytes.length) :
    expect bytes payload behind p b true = .error ⟨"unexpected end-of-file", b.length⟩ := by
  rw [expect, if_pos h, if_pos rfl]

/-- An error before the end of the stream is one whatever follows. -/
lemma expect_error {e : ParserError} (h : expect bytes payload behind p b false = .error e)
    (c : List Byte) : ∃ e', expect bytes payload behind p (b ++ c) true = .error e' := by
  unfold expect at h ⊢
  split at h
  · cases h
  · rename_i hlen
    split at h
    · cases h
    · rename_i htake
      rw [if_neg (by rw [List.length_append]; omega),
        List.take_append_of_le_length (by omega), if_neg htake]
      exact ⟨_, rfl⟩

/-- What is parsed of a module without functions. -/
lemma parseEmptyCode_eq_parsed (h : parseEmptyCode p b eof = .ok (.parsed n payload, p')) :
    (p = .header ∧ payload = .version 1 .module_ ⟨4, 8⟩ ∧ n = wasmHeader.length ∧
        p' = .sectionStart ∧ wasmHeader.length ≤ b.length ∧
        b.take wasmHeader.length = wasmHeader) ∨
      (p.AtSection ∧ payload = .codeSectionStart 0 ⟨10, 11⟩ 0 ∧ n = emptyCodeSection.length ∧
        p' = .functionBody 0 ∧ emptyCodeSection.length ≤ b.length ∧
        b.take emptyCodeSection.length = emptyCodeSection) ∨
      (p.AtSection ∧ payload = .end 8 ∧ n = 0 ∧ p' = .sectionStart ∧ b = [] ∧ eof = true) := by
  unfold parseEmptyCode at h
  split at h
  · obtain ⟨rfl, rfl, rfl, hlen, htake⟩ := expect_eq_parsed h
    exact .inl ⟨rfl, rfl, rfl, rfl, hlen, htake⟩
  · cases h
  all_goals
    split at h
    · rename_i hnil
      split at h
      · rename_i heof
        cases h
        exact .inr (.inr ⟨by simp [Phase.AtSection], rfl, rfl, rfl, hnil, heof⟩)
      · cases h
    · obtain ⟨rfl, rfl, rfl, hlen, htake⟩ := expect_eq_parsed h
      exact .inr (.inl ⟨by simp [Phase.AtSection], rfl, rfl, rfl, hlen, htake⟩)

/-- The parser at the start of a section. -/
lemma parseEmptyCode_atSection (h : p.AtSection) (b : List Byte) (eof : Bool) :
    parseEmptyCode p b eof =
      if b = [] then
        if eof then .ok (.parsed 0 (.end 8), .sectionStart) else .ok (.needMoreData 1, p)
      else expect emptyCodeSection (.codeSectionStart 0 ⟨10, 11⟩ 0) (.functionBody 0) p b eof := by
  rcases h with rfl | rfl <;> rfl

/-- Where it asks for more. -/
lemma parseEmptyCode_eq_more (h : parseEmptyCode p b eof = .ok (.needMoreData hint, p')) :
    p' = p ∧ eof = false ∧ 0 < hint ∧
      ((p = .header ∧ b.length < wasmHeader.length) ∨
        (p.AtSection ∧ b.length < emptyCodeSection.length)) := by
  match p with
  | .header =>
    obtain ⟨hp, heof, hhint, hlen⟩ := expect_eq_more h
    exact ⟨hp, heof, hhint, .inl ⟨rfl, hlen⟩⟩
  | .functionBody (_ + 1) => cases h
  | .sectionStart =>
    rw [parseEmptyCode_atSection (.inl rfl)] at h
    split at h
    · rename_i hnil
      split at h
      · cases h
      · rename_i heof
        cases h
        exact ⟨rfl, by simpa using heof, by omega, .inr ⟨.inl rfl, hnil ▸ by decide⟩⟩
    · obtain ⟨hp, heof, hhint, hlen⟩ := expect_eq_more h
      exact ⟨hp, heof, hhint, .inr ⟨.inl rfl, hlen⟩⟩
  | .functionBody 0 =>
    rw [parseEmptyCode_atSection (.inr rfl)] at h
    split at h
    · rename_i hnil
      split at h
      · cases h
      · rename_i heof
        cases h
        exact ⟨rfl, by simpa using heof, by omega, .inr ⟨.inr rfl, hnil ▸ by decide⟩⟩
    · obtain ⟨hp, heof, hhint, hlen⟩ := expect_eq_more h
      exact ⟨hp, heof, hhint, .inr ⟨.inr rfl, hlen⟩⟩

lemma ne_nil_of_le_length (h : emptyCodeSection.length ≤ b.length) (c : List Byte) :
    b ++ c ≠ [] := by
  intro hnil
  have hlen := congrArg List.length hnil
  have hthree : emptyCodeSection.length = 3 := rfl
  rw [List.length_append, List.length_nil] at hlen
  omega

end EmptyCode

lemma chunked_parseEmptyCode : Chunked parseEmptyCode := by
  constructor
  · intro p b eof n payload p' h
    rcases parseEmptyCode_eq_parsed h with
      ⟨_, _, rfl, _, hlen, _⟩ | ⟨_, _, rfl, _, hlen, _⟩ | ⟨_, _, rfl, _⟩
    · exact hlen
    · exact hlen
    · exact Nat.zero_le _
  · intro p b eof n payload p' h
    rcases parseEmptyCode_eq_parsed h with ⟨_, _, rfl, _⟩ | ⟨_, _, rfl, _⟩ | ⟨_, hpayload, _⟩
    · exact .inl (by decide)
    · exact .inl (by decide)
    · exact .inr ⟨8, hpayload⟩
  · intro p b n payload p' h c
    rcases parseEmptyCode_eq_parsed h with
      ⟨rfl, rfl, rfl, rfl, hlen, htake⟩ | ⟨hp, rfl, rfl, rfl, hlen, htake⟩ | ⟨_, _, _, _, _, heof⟩
    · exact expect_of_parsed hlen htake c
    · rw [parseEmptyCode_atSection hp, if_neg (ne_nil_of_le_length hlen c)]
      exact expect_of_parsed hlen htake c
    · cases heof
  · intro p b e h c
    match p, h with
    | .header, h => exact expect_error h c
    | .functionBody (_ + 1), _ => exact ⟨_, rfl⟩
    | .sectionStart, h | .functionBody 0, h =>
      rw [parseEmptyCode_atSection (by simp [Phase.AtSection])] at h ⊢
      by_cases hnil : b = []
      · rw [if_pos hnil] at h
        cases h
      · rw [if_neg hnil] at h
        rw [if_neg fun happ => hnil (List.append_eq_nil_iff.mp happ).1]
        exact expect_error h c
  · intro p b hint p' h
    exact (parseEmptyCode_eq_more h).2.2.1
  · intro p b hint p' h c
    rw [(parseEmptyCode_eq_more h).1]
  · intro p b hint p' h
    rcases (parseEmptyCode_eq_more h).2.2.2 with ⟨rfl, hlen⟩ | ⟨hp, hlen⟩
    · exact .inl ⟨_, expect_short hlen⟩
    · rw [parseEmptyCode_atSection hp]
      by_cases hnil : b = []
      · exact .inr ⟨0, 8, .sectionStart, by rw [if_pos hnil, if_pos rfl]⟩
      · rw [if_neg hnil]
        exact .inl ⟨_, expect_short hlen⟩
  · intro p b hint p' h
    exact absurd (parseEmptyCode_eq_more h).2.1 (by decide)
  · intro p b n offset p' h
    rcases parseEmptyCode_eq_parsed h with
      ⟨_, hend, _⟩ | ⟨_, hend, _⟩ | ⟨_, hend, rfl, rfl, rfl, _⟩
    · cases hend
    · cases hend
    · cases hend
      rfl

/-- A validator for modules of which the one section is a code section of no functions: it counts
the parts it has seen. -/
def validateEmptyCode (seen : Nat) (payload : Payload) : Except ParserError Nat :=
  match seen, payload with
  | 0, .version _ _ _ => .ok 1
  | 1, .codeSectionStart 0 _ _ => .ok 2
  | seen, .end _ => if seen = 0 then .error ⟨"not supported", 0⟩ else .ok seen
  | _, _ => .error ⟨"not supported", 0⟩

/-- A configuration that bounds the average size of functions in code sections of any size. -/
def emptyCodeEnv : LoadEnv Phase Nat Unit Unit where
  config := { enforcedLimits := { minAvgBytesPerFunction := some ⟨0, 40⟩ } }
  newParser := .header
  parse := parseEmptyCode
  newValidator := 0
  validate := validateEmptyCode
  codeSectionEntry := fun _ _ => .error ⟨"not supported", 0⟩
  translate := fun _ _ _ _ _ _ _ => .ok ()

lemma soundParser_emptyCodeEnv : SoundParser emptyCodeEnv id := by
  refine ⟨rfl, ?_, ?_⟩
  · intro p b n payload p' h
    rcases parseEmptyCode_eq_parsed h with
      ⟨rfl, rfl, _, rfl, _⟩ | ⟨hp, rfl, _, rfl, _⟩ | ⟨hp, rfl, _, rfl, _⟩
    · exact .version 1 .module_ ⟨4, 8⟩
    · exact .codeStart 0 ⟨10, 11⟩ 0 hp
    · refine .section_ hp ?_ ?_ ?_ <;> intros <;> exact Payload.noConfusion
  · intro p b n sec p' h
    rcases parseEmptyCode_eq_parsed h with ⟨_, hdata, _⟩ | ⟨_, hdata, _⟩ | ⟨_, hdata, _⟩ <;>
      cases hdata

/-- What the validator accepts. -/
lemma validateEmptyCode_eq_ok {seen seen' : Nat} {payload : Payload}
    (h : validateEmptyCode seen payload = .ok seen') :
    (seen = 0 ∧ seen' = 1 ∧ ∃ num encoding range, payload = .version num encoding range) ∨
      (seen = 1 ∧ seen' = 2 ∧ ∃ range size, payload = .codeSectionStart 0 range size) ∨
      (seen ≠ 0 ∧ seen' = seen ∧ ∃ offset, payload = .end offset) := by
  unfold validateEmptyCode at h
  split at h
  · cases h
    exact .inl ⟨rfl, rfl, _, _, _, rfl⟩
  · cases h
    exact .inr (.inl ⟨rfl, rfl, _, _, rfl⟩)
  · split at h
    · cases h
    · rename_i hne
      cases h
      exact .inr (.inr ⟨hne, rfl, _, rfl⟩)
  · cases h

/-- What the validator has seen. -/
lemma validated_emptyCodeEnv {history : List Payload} {seen : Nat}
    (h : emptyCodeEnv.Validated history seen) :
    (seen = 0 → history = []) ∧ (seen ≤ 1 → ∀ payload ∈ history, payload.order = none) ∧
      total funcs history = 0 := by
  induction h with
  | new => exact ⟨fun _ => rfl, fun _ payload hmem => absurd hmem (by simp), rfl⟩
  | @payload history payload seen seen' _ hok ih =>
    obtain ⟨_, horder, hfuncs⟩ := ih
    rw [Wasmparser.Payload.total_snoc, hfuncs]
    rcases validateEmptyCode_eq_ok hok with
      ⟨rfl, rfl, num, encoding, range, rfl⟩ | ⟨rfl, rfl, range, size, rfl⟩ |
      ⟨hne, rfl, offset, rfl⟩
    · refine ⟨fun hzero => absurd hzero (by decide), ?_, rfl⟩
      intro _ payload hmem
      rcases List.mem_append.mp hmem with hmem | hmem
      · exact horder (by omega) payload hmem
      · rw [List.mem_singleton.mp hmem]
        rfl
    · exact ⟨fun hzero => absurd hzero (by decide), fun hle => absurd hle (by decide), rfl⟩
    · refine ⟨fun hzero => absurd hzero hne, ?_, rfl⟩
      intro hle payload hmem
      rcases List.mem_append.mp hmem with hmem | hmem
      · exact horder hle payload hmem
      · rw [List.mem_singleton.mp hmem]
        rfl
  | entry _ hentry => cases hentry

lemma soundValidator_emptyCodeEnv : SoundValidator emptyCodeEnv := by
  intro history seen payload seen' hv hok
  obtain ⟨hnil, horder, hfuncs⟩ := validated_emptyCodeEnv hv
  rcases validateEmptyCode_eq_ok hok with
    ⟨rfl, rfl, num, encoding, range, rfl⟩ | ⟨rfl, rfl, range, size, rfl⟩ |
    ⟨hne, rfl, offset, rfl⟩
  · constructor
    case version => exact fun _ => hnil rfl
    case inOrder =>
      intro place hplace
      cases hplace
    case supported =>
      intro id hother
      cases hother
    all_goals
      intros
      rename_i heq
      cases heq
  · constructor
    case inOrder =>
      intro place _ old hold place' hplace
      rw [horder (by decide) old hold] at hplace
      cases hplace
    case codeStart =>
      intro count range' size' heq
      cases heq
      exact hfuncs.symm
    case supported =>
      intro id hother
      cases hother
    all_goals
      intros
      rename_i heq
      cases heq
  · constructor
    case inOrder =>
      intro place hplace
      cases hplace
    case supported =>
      intro id hother
      cases hother
    all_goals
      intros
      rename_i heq
      cases heq

/-- A code section of no functions makes both parsers panic, though the module is valid. -/
theorem emptyCodeSection_panics :
    Chunked emptyCodeEnv.parse ∧ SoundParser emptyCodeEnv id ∧ SoundValidator emptyCodeEnv ∧
      (∀ fuel, emptyCodeEnv.parseBuffered (fuel + 2) ⟨[], []⟩ (wasmHeader ++ emptyCodeSection) =
        some (.error .panic)) ∧
      emptyCodeEnv.parseStreaming byteByByte 20 ⟨[], []⟩ (wasmHeader ++ emptyCodeSection) =
        some (.error .panic) :=
  ⟨chunked_parseEmptyCode, soundParser_emptyCodeEnv, soundValidator_emptyCodeEnv,
    fun _ => rfl, rfl⟩

theorem parse_never_panics_iff_emptyCodeSection :
    ∃ n, ∀ fuel fuel', n ≤ fuel → n ≤ fuel' →
      ∃ x y, emptyCodeEnv.parseStreaming byteByByte fuel ⟨[], []⟩
          (wasmHeader ++ emptyCodeSection) = some x ∧
        emptyCodeEnv.parseBuffered fuel' ⟨[], []⟩ (wasmHeader ++ emptyCodeSection) = some y ∧
        ((x ≠ .error .panic ∧ y ≠ .error .panic) ↔
          ¬emptyCodeEnv.DivisionReached ⟨[], []⟩ (wasmHeader ++ emptyCodeSection) ∧
          ¬emptyCodeEnv.TranslatorPanicReached ⟨[], []⟩ (wasmHeader ++ emptyCodeSection)) :=
  emptyCodeEnv.parse_never_panics_iff chunked_parseEmptyCode id soundParser_emptyCodeEnv
    soundValidator_emptyCodeEnv byteByByte (wasmHeader ++ emptyCodeSection) ⟨[], []⟩

end MotokoDebugger
