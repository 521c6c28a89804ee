import MotokoDebugger.Module.Names
import MotokoDebugger.Lib.Utf8

/-!
# The custom sections of a module

`module/custom_section.rs`, and the way of the custom sections of a binary through the module parser.

* `CustomSectionsIter.next`, `CustomSectionsIter.collect`: the iterator, where `none` is a panic.
* `Reads`: the payloads of a binary. `SectionParser`: what is relied on of the binary parser.
* `customSections_exact`: the iterator yields the custom sections of the binary in their order.
-/

namespace MotokoDebugger

open Wasmparser (Payload Chunk ParserError CustomSection)

/-! ## The iterator -/

structure CustomSectionsIter where
  items : List (Nat × Nat)
  namesAndData : List Byte

/-- `CustomSectionsInner::iter`. -/
def CustomSections.iter (sections : CustomSections) : CustomSectionsIter where
  items := sections.items
  namesAndData := sections.namesAndData

/-- `slice::split_at`, which panics beyond the end. -/
def splitAt (bytes : List Byte) (mid : Nat) : Option (List Byte × List Byte) :=
  if mid ≤ bytes.length then some (bytes.take mid, bytes.drop mid) else none

namespace CustomSectionsIter

/-- What `CustomSectionsIter::next` makes of an item: name and data of the section, and the bytes
behind them. A name that is not UTF-8 is undefined behaviour, which counts as a panic. -/
def section_ (item : Nat × Nat) (namesAndData : List Byte) :
    Option ((String × List Byte) × List Byte) := do
  let split ← splitAt namesAndData item.1
  let split' ← splitAt split.2 item.2
  let name ← Utf8.decode split.1
  return ((name, split'.1), split'.2)

/-- `CustomSectionsIter::next`. -/
def next (iter : CustomSectionsIter) :
    Option (Option (String × List Byte) × CustomSectionsIter) :=
  match iter.items with
  | [] => some (none, iter)
  | item :: items => (section_ item iter.namesAndData).map fun result =>
    (some result.1, ⟨items, result.2⟩)

/-- What `next` yields until it yields nothing, for at most that many calls. -/
def collect : (calls : Nat) → CustomSectionsIter → Option (List (String × List Byte))
  | 0, _ => some []
  | calls + 1, iter => do
    let result ← iter.next
    match result.1 with
    | none => some []
    | some custom => (result.2.collect calls).map (custom :: ·)

end CustomSectionsIter

/-! ## What is pushed is iterated -/

/-- The sections that have been pushed. -/
structure CustomSections.Holds (sections : CustomSections) (customs : List (String × List Byte)) :
    Prop where
  items : sections.items = customs.map fun custom =>
    ((stringBytes custom.1).length, custom.2.length)
  namesAndData : sections.namesAndData = customs.flatMap fun custom =>
    stringBytes custom.1 ++ custom.2

section Iterate

variable {sections : CustomSections} {customs : List (String × List Byte)} {name : String}
  {data rest bytes bytes' : List Byte}

lemma CustomSections.Holds.push (h : sections.Holds customs) (name : String) (data : List Byte) :
    (sections.push name data).Holds (customs ++ [(name, data)]) where
  items := by
    rw [List.map_append, ← h.items]
    rfl
  namesAndData := by
    rw [List.flatMap_append, ← h.namesAndData, List.flatMap_singleton, ← List.append_assoc]
    rfl

lemma splitAt_append : splitAt (bytes ++ bytes') bytes.length = some (bytes, bytes') := by
  have hle : bytes.length ≤ (bytes ++ bytes').length := by
    rw [List.length_append]
    omega
  rw [splitAt, if_pos hle, List.take_left, List.drop_left]

/-- The lengths split off what was appended. -/
lemma section_append :
    CustomSectionsIter.section_ ((stringBytes name).length, data.length)
      ((stringBytes name ++ data) ++ rest) = some ((name, data), rest) := by
  have hname : Utf8.decode (stringBytes name) = some name := Utf8.decode_encode name
  rw [CustomSectionsIter.section_, List.append_assoc, splitAt_append]
  show (splitAt (data ++ rest) data.length >>= fun split' =>
    Utf8.decode (stringBytes name) >>= fun text => pure ((text, split'.1), split'.2)) = _
  rw [splitAt_append, hname]
  rfl

/-- The iterator yields the sections and ends. -/
lemma CustomSections.Holds.collect (h : sections.Holds customs) {calls : Nat}
    (hcalls : customs.length < calls) : sections.iter.collect calls = some customs := by
  have hiter : ∀ (customs : List (String × List Byte)) (calls : Nat), customs.length < calls →
      CustomSectionsIter.collect calls
        ⟨customs.map fun custom => ((stringBytes custom.1).length, custom.2.length),
          customs.flatMap fun custom => stringBytes custom.1 ++ custom.2⟩ = some customs := by
    intro customs
    induction customs with
    | nil =>
      intro calls hcalls
      match calls, hcalls with
      | calls + 1, _ => rfl
    | cons custom customs ih =>
      intro calls hcalls
      match calls, hcalls with
      | calls + 1, hcalls =>
        rw [List.length_cons] at hcalls
        rw [CustomSectionsIter.collect, CustomSectionsIter.next, List.map_cons, List.flatMap_cons]
        simp only [section_append, Option.map_some, Option.bind_eq_bind, Option.bind_some,
          ih calls (by omega)]
  rw [CustomSections.iter, h.items, h.namesAndData]
  exact hiter customs calls hcalls

end Iterate

/-! ## Payloads of a binary -/

variable {P V F C S : Type}

/-- The payloads of a binary, up to its end. -/
inductive LoadEnv.Reads (env : LoadEnv P V F C) : P → (buffer : List Byte) → List Payload → Prop
  | last {p b n offset p'} : env.parse p b true = .ok (.parsed n (.end offset), p') →
    Reads env p b [.end offset]
  | cons {p b n payload p' payloads} : env.parse p b true = .ok (.parsed n payload, p') →
    (∀ offset, payload ≠ .end offset) → Reads env p' (b.drop n) payloads →
    Reads env p b (payload :: payloads)

/-- The same payload at another offset, as far as the loops tell payloads apart. -/
def Wasmparser.Payload.Again : Payload → Payload → Prop
  | .customSection reader, again => again = .customSection reader
  | .dataSection _, again => ∃ sec, again = .dataSection sec
  | .end _, again => ∃ offset, again = .end offset
  | .codeSectionEntry _, again => ∃ funcBody, again = .codeSectionEntry funcBody
  | _, again => (∀ reader, again ≠ .customSection reader) ∧ ∀ offset, again ≠ .end offset

/-- A parser that is where it was after a section of which it has yielded the whole: asked again,
it yields the section again. The relation is that of parsers that differ in their offset. -/
structure SectionParser (env : LoadEnv P V F C) (phase : P → Phase) (same : P → P → Prop) : Prop
    extends SoundParser env phase where
  again : ∀ {p b n payload p'}, env.parse p b true = .ok (.parsed n payload, p') →
    (∀ num encoding range, payload ≠ .version num encoding range) →
    (∀ count range size, payload ≠ .codeSectionStart count range size) →
    (∀ funcBody, payload ≠ .codeSectionEntry funcBody) → same p' p
  parse_same : ∀ {p q b n payload p'}, same p q → env.parse p b true = .ok (.parsed n payload, p') →
    ∃ payload' q', env.parse q b true = .ok (.parsed n payload', q') ∧ payload.Again payload' ∧
      same p' q'
  startAgain : ∀ {p b n count range size p' n' payload p''},
    env.parse p b true = .ok (.parsed n (.codeSectionStart count range size), p') →
    env.parse p' b true = .ok (.parsed n' payload, p'') →
    (∃ count range size, payload = .codeSectionStart count range size) ∨
      ∃ funcBody, payload = .codeSectionEntry funcBody

section Reading

variable {env : LoadEnv P V F C} {phase : P → Phase} {same : P → P → Prop} {p q p' q' : P}
  {b b' : List Byte} {payload payload' : Payload} {payloads : List Payload}

lemma Wasmparser.Payload.Again.customs (h : payload.Again payload') :
    customSectionOf payload' = customSectionOf payload := by
  cases payload with
  | customSection reader =>
    rw [show payload' = _ from h]
  | dataSection sec =>
    obtain ⟨sec', rfl⟩ := h
    rfl
  | «end» offset =>
    obtain ⟨offset', rfl⟩ := h
    rfl
  | codeSectionEntry funcBody =>
    obtain ⟨funcBody', rfl⟩ := h
    rfl
  | _ =>
    show customSectionOf payload' = []
    cases payload' with
    | customSection reader => exact absurd rfl (h.1 reader)
    | _ => rfl

lemma Wasmparser.Payload.Again.ne_end (h : payload.Again payload')
    (hne : ∀ offset, payload ≠ .end offset) : ∀ offset, payload' ≠ .end offset := by
  intro offset heq
  subst heq
  cases payload with
  | «end» offset' => exact hne offset' rfl
  | customSection reader => cases h
  | dataSection sec =>
    obtain ⟨sec', hsec⟩ := h
    cases hsec
  | codeSectionEntry funcBody =>
    obtain ⟨funcBody', hbody⟩ := h
    cases hbody
  | _ => exact h.2 offset rfl

/-- From the same place the same custom sections are read. -/
lemma SectionParser.reads_same (hparser : SectionParser env phase same) (hsame : same p q)
    (h : env.Reads p b payloads) : ∃ payloads', env.Reads q b payloads' ∧
      payloads'.flatMap customSectionOf = payloads.flatMap customSectionOf := by
  induction h generalizing q with
  | last hparse =>
    obtain ⟨payload', q', hparse', ⟨offset, rfl⟩, -⟩ := hparser.parse_same hsame hparse
    exact ⟨_, .last hparse', rfl⟩
  | cons hparse hend _ ih =>
    obtain ⟨payload', q', hparse', hagain, hsame'⟩ := hparser.parse_same hsame hparse
    obtain ⟨payloads', hreads, hcustoms⟩ := ih hsame'
    refine ⟨_, .cons hparse' (hagain.ne_end hend) hreads, ?_⟩
    rw [List.flatMap_cons, List.flatMap_cons, hcustoms, hagain.customs]

end Reading

/-! ## The loops -/

/-- The state of a parser that has yielded a payload. -/
def LoadEnv.Behind (env : LoadEnv P V F C) (p : P) : Prop :=
  ∃ q b n payload, env.parse q b true = .ok (.parsed n payload, p)

/-- A loop has read `passed` and stopped at `last`, of which `q` and `b` are the place. -/
structure LoadEnv.Read (env : LoadEnv P V F C) (stop : Payload → Option Bool) (p : P)
    (buffer : List Byte) (passed : List Payload) (q : P) (b : List Byte) (last : Payload) (p' : P)
    (b' : List Byte) : Prop where
  reads : ∀ {payloads}, env.Reads q b payloads → env.Reads p buffer (passed ++ payloads)
  behind : env.Behind p → env.Behind q
  stopped : ∃ n consumed, env.parse q b true = .ok (.parsed n last, p') ∧
    stop last = some consumed ∧ b' = if consumed then b.drop n else b
  pass : ∀ payload ∈ passed, stop payload = none

section Loops

variable {env : LoadEnv P V F C} {phase : P → Phase} {same : P → P → Prop}

namespace LoadEnv

/-- The data loop does not go on with the code section. -/
lemma dataLoop_first {fuel : Nat} {p p' : P} {b : List Byte} {builder : ModuleBuilder}
    {loader : Loader V C} {r} {n : Nat} {payload : Payload}
    (h : env.bufferedLoop env.dataPayload fuel p b builder loader = some (.ok r))
    (hparse : env.parse p b true = .ok (.parsed n payload, p')) :
    (∀ count range size, payload ≠ .codeSectionStart count range size) ∧
      ∀ funcBody, payload ≠ .codeSectionEntry funcBody := by
  have hinvalid : Lands True (fun _ => False) (env.processInvalidPayload payload loader) :=
    lands_after _ fun _ _ => trivial
  match fuel with
  | fuel + 1 =>
    rw [bufferedLoop_parsed hparse] at h
    -- the round fails for a payload that is processed as an invalid one
    have hround : ∀ {x}, env.dataPayload builder payload (b.take n) loader = x →
        ¬Lands True (fun _ => False) x := by
      intro x hx hlands
      rw [hx] at h
      cases x with
      | error stop => cases h
      | ok outcome => exact hlands
    constructor
    · intro count range size heq
      subst heq
      exact hround rfl (hinvalid.step fun _ _ hfalse => hfalse.elim)
    · intro funcBody heq
      subst heq
      exact hround rfl (hinvalid.step fun _ _ hfalse => hfalse.elim)

variable {A : Type} {stop : Payload → Option Bool} {view : S → A} {step : A → CustomSection → A}

/-- What a loop reads. -/
lemma bufferedLoop_read {body : S → Payload → List Byte → LoadM V C (Flow S)}
    (hend : ∀ offset, stop (.end offset) ≠ none)
    (hbody : ∀ s payload bytes loader, Lands True (FlowFollows stop view step s payload)
      (body s payload bytes loader)) {fuel : Nat} {p p' : P} {b b' : List Byte} {s s' : S}
    {loader loader' : Loader V C}
    (h : env.bufferedLoop body fuel p b s loader = some (.ok ((s', p', b'), loader'))) :
    ∃ passed q c last, env.Read stop p b passed q c last p' b' ∧
      view s' = (passed.flatMap customSectionOf).foldl step (view s) := by
  induction fuel generalizing p b s loader with
  | zero => cases h
  | succ fuel ih =>
    rcases hparse : env.parse p b true with e | ⟨hint | ⟨n, payload⟩, p₁⟩
    · rw [bufferedLoop_error hparse] at h
      cases h
    · simp only [bufferedLoop, hparse] at h
      cases h
    · rw [bufferedLoop_parsed hparse] at h
      have hround := hbody s payload (b.take n) loader
      have hstops : ∀ consumed, stop payload = some consumed →
          env.Read stop p b [] p b payload p₁ (if consumed then b.drop n else b) := by
        intro consumed hstop
        exact ⟨id, id, ⟨n, consumed, hparse, hstop, rfl⟩, by simp⟩
      rcases hres : body s payload (b.take n) loader with
        stop | ⟨s₁ | ⟨s₁, _ | _⟩, loader₁⟩ <;> rw [hres] at h hround
      · cases h
      · obtain ⟨hpass, hview⟩ := hround
        obtain ⟨passed, q, c, last, hread, hfold⟩ := ih h
        refine ⟨payload :: passed, q, c, last, ⟨?_, ?_, hread.stopped, ?_⟩, ?_⟩
        · intro payloads hreads
          refine .cons hparse (fun offset heq => ?_) (hread.reads hreads)
          exact hend offset (heq ▸ hpass)
        · exact fun _ => hread.behind ⟨p, b, n, payload, hparse⟩
        · intro payload' hmem
          rcases List.mem_cons.1 hmem with rfl | hmem
          · exact hpass
          · exact hread.pass payload' hmem
        · rw [hfold, hview, List.flatMap_cons, List.foldl_append]
      · obtain ⟨hstop, hview⟩ := hround
        cases h
        exact ⟨[], p, _, payload, hstops false hstop, hview⟩
      · obtain ⟨hstop, hview⟩ := hround
        cases h
        exact ⟨[], p, _, payload, hstops true hstop, hview⟩

end LoadEnv

lemma SectionParser.ne_version (hparser : SectionParser env phase same) {p : P}
    (h : env.Behind p) {b n num encoding range p'} :
    env.parse p b true ≠ .ok (.parsed n (.version num encoding range), p') := by
  intro hparse
  obtain ⟨q, c, n', payload, hbehind⟩ := h
  have hbefore := hparser.follows hbehind
  have hversion := hparser.follows hparse
  generalize phase p = here at hbefore hversion
  generalize phase p' = next at hversion
  generalize phase q = previous at hbefore
  cases hversion with
  | version => cases hbefore
  | section_ _ hno _ _ => exact hno _ _ _ rfl

end Loops

/-! ## What the iterator yields of a binary -/

/-- The custom sections among the payloads that a module keeps. -/
def keptSections (config : LoadConfig) (payloads : List Payload) : List (String × List Byte) :=
  if config.ignoreCustomSections then []
  else ((payloads.flatMap customSectionOf).filter fun reader => !isNames reader).map fun reader =>
    (reader.name, reader.data)

section Main

variable {env : LoadEnv P V F C} {phase : P → Phase} {same : P → P → Prop}

lemma CustomSections.Holds.process {sections : CustomSections}
    {customs : List (String × List Byte)} (h : sections.Holds customs) (config : LoadConfig)
    (header : Option ModuleHeader) (payloads : List Payload) :
    ((payloads.flatMap customSectionOf).foldl
      (fun sections => processCustomSection config sections header) sections).Holds
        (customs ++ keptSections config payloads) := by
  rw [keptSections]
  generalize payloads.flatMap customSectionOf = readers
  by_cases hconfig : config.ignoreCustomSections = true
  · rw [if_pos hconfig, List.append_nil]
    induction readers with
    | nil => exact h
    | cons reader readers ih =>
      have hkeep : processCustomSection config sections header reader = sections := if_pos hconfig
      rw [List.foldl_cons, hkeep]
      exact ih
  · rw [if_neg hconfig]
    induction readers generalizing sections customs with
    | nil =>
      rw [List.filter_nil, List.map_nil, List.append_nil]
      exact h
    | cons reader readers ih =>
      by_cases hname : reader.name = "name"
      · have hnames : (processCustomSection config sections header reader).Holds customs := by
          unfold processCustomSection
          rw [if_neg hconfig, if_pos hname]
          exact ⟨h.items, h.namesAndData⟩
        rw [List.foldl_cons, List.filter_cons_of_neg (by simp [isNames, hname])]
        exact ih hnames
      · have hpush : (processCustomSection config sections header reader).Holds
            (customs ++ [(reader.name, reader.data)]) := by
          unfold processCustomSection
          rw [if_neg hconfig, if_neg hname]
          exact h.push reader.name reader.data
        have hrest := ih hpush
        rw [List.append_assoc] at hrest
        rw [List.foldl_cons, List.filter_cons_of_pos (by simp [isNames, hname]), List.map_cons]
        exact hrest

lemma keptSections_append (config : LoadConfig) (payloads payloads' : List Payload) :
    keptSections config (payloads ++ payloads') =
      keptSections config payloads ++ keptSections config payloads' := by
  unfold keptSections
  split
  · rfl
  · rw [List.flatMap_append, List.filter_append, List.map_append]

/-- A loop that leaves its last payload to the next one. -/
lemma LoadEnv.Read.parse_of_kept {stop : Payload → Option Bool} {p q p' : P}
    {buffer b b' : List Byte} {passed : List Payload} {last : Payload}
    (h : env.Read stop p buffer passed q b last p' b') (hkept : stop last ≠ some true) :
    b' = b ∧ ∃ n, env.parse q b true = .ok (.parsed n last, p') := by
  obtain ⟨n, consumed, hparse, hstop, hb⟩ := h.stopped
  cases consumed with
  | true => exact absurd hstop hkept
  | false => exact ⟨hb, n, hparse⟩

lemma LoadEnv.Reads.exists_parse {p : P} {buffer : List Byte} {payloads : List Payload}
    (h : env.Reads p buffer payloads) :
    ∃ n payload p', env.parse p buffer true = .ok (.parsed n payload, p') := by
  cases h with
  | last hparse => exact ⟨_, _, _, hparse⟩
  | cons hparse => exact ⟨_, _, _, hparse⟩

/-- What the next loop reads of a payload that is left to it was to be read before. -/
lemma reads_of_kept (hparser : SectionParser env phase same) {p q p' : P}
    {buffer b b' : List Byte} {passed payloads : List Payload} {last : Payload}
    {stop : Payload → Option Bool}
    (h : env.Read stop p buffer passed q b last p' b') (hkept : stop last ≠ some true)
    (hversion : ∀ num encoding range, last ≠ .version num encoding range)
    (hstart : ∀ count range size, last ≠ .codeSectionStart count range size)
    (hentry : ∀ funcBody, last ≠ .codeSectionEntry funcBody)
    (hreads : env.Reads p' b' payloads) : ∃ payloads', env.Reads p buffer (passed ++ payloads') ∧
      payloads'.flatMap customSectionOf = payloads.flatMap customSectionOf := by
  obtain ⟨rfl, n, hparse⟩ := h.parse_of_kept hkept
  obtain ⟨payloads', hreads', hcustoms⟩ :=
    hparser.reads_same (hparser.again hparse hversion hstart hentry) hreads
  exact ⟨payloads', h.reads hreads', hcustoms⟩

/-- The code loop reads the entries of the code section, and the data loop the rest. -/
lemma reads_code_data (hparser : SectionParser env phase same) {p q p₁ : P}
    {buffer b b₁ : List Byte} {passed payloads : List Payload} {last : Payload}
    (hbehind : env.Behind p) (hcode : env.Read codeStop p buffer passed q b last p₁ b₁)
    (hreads : env.Reads p₁ b₁ payloads)
    (hfirst : ∀ {n payload p'}, env.parse p₁ b₁ true = .ok (.parsed n payload, p') →
      (∀ count range size, payload ≠ .codeSectionStart count range size) ∧
        ∀ funcBody, payload ≠ .codeSectionEntry funcBody) :
    ∃ payloads', env.Reads p buffer payloads' ∧
      payloads'.flatMap customSectionOf = payloads.flatMap customSectionOf := by
  have hentry : ∀ funcBody, last ≠ .codeSectionEntry funcBody := by
    intro funcBody heq
    obtain ⟨n, consumed, -, hstop, -⟩ := hcode.stopped
    rw [heq] at hstop
    cases hstop
  have hkept : codeStop last ≠ some true := by
    cases last with
    | codeSectionEntry funcBody => exact absurd rfl (hentry funcBody)
    | _ => exact fun h => absurd (Option.some.inj h) Bool.false_ne_true
  have hstart : ∀ count range size, last ≠ .codeSectionStart count range size := by
    intro count range size heq
    obtain ⟨rfl, n, hparse⟩ := hcode.parse_of_kept hkept
    obtain ⟨n', payload, p', hparse'⟩ := hreads.exists_parse
    rw [heq] at hparse
    rcases hparser.startAgain hparse hparse' with ⟨count', range', size', hagain⟩ | ⟨funcBody, hagain⟩
    · exact (hfirst hparse').1 count' range' size' hagain
    · exact (hfirst hparse').2 funcBody hagain
  have hversion : ∀ num encoding range, last ≠ .version num encoding range := by
    intro num encoding range heq
    obtain ⟨rfl, n, hparse⟩ := hcode.parse_of_kept hkept
    rw [heq] at hparse
    exact hparser.ne_version (hcode.behind hbehind) hparse
  obtain ⟨payloads', hreads', hcustoms⟩ :=
    reads_of_kept hparser hcode hkept hversion hstart hentry hreads
  have hentries : passed.flatMap customSectionOf = [] := by
    rw [List.flatMap_eq_nil_iff]
    intro payload hmem
    have hpass := hcode.pass payload hmem
    cases payload with
    | codeSectionEntry funcBody => rfl
    | _ => cases hpass
  exact ⟨_, hreads', by rw [List.flatMap_append, hentries, hcustoms, List.nil_append]⟩

/-- The header loop reads the sections before the code section, or all up to the data section. -/
lemma reads_header (hparser : SectionParser env phase same) {p q p₁ : P}
    {buffer b b₁ : List Byte} {passed payloads : List Payload} {last : Payload}
    (hheader : env.Read headerStop p buffer passed q b last p₁ b₁)
    (hreads : env.Reads p₁ b₁ payloads) :
    ∃ payloads', env.Reads p buffer (passed ++ payloads') ∧
      payloads'.flatMap customSectionOf = payloads.flatMap customSectionOf := by
  cases last with
  | codeSectionStart count range size =>
    obtain ⟨n, consumed, hparse, hstop, hb⟩ := hheader.stopped
    obtain rfl := Option.some.inj hstop
    rw [hb, if_pos rfl] at hreads
    exact ⟨_, hheader.reads (.cons hparse (fun offset heq => by cases heq) hreads), rfl⟩
  | dataSection sec =>
    exact reads_of_kept hparser hheader (by simp [headerStop]) (by simp) (by simp) (by simp) hreads
  | «end» offset =>
    exact reads_of_kept hparser hheader (by simp [headerStop]) (by simp) (by simp) (by simp) hreads
  | _ =>
    obtain ⟨n, consumed, -, hstop, -⟩ := hheader.stopped
    cases hstop

/-- The binary has payloads, and the iterator yields the custom sections among them in their order,
but for name sections, and then ends; with the option to ignore custom sections it yields none. -/
theorem customSections_exact (hparser : SectionParser env phase same) {fuel : Nat}
    {engine : LoadEngine C} {buffer : List Byte} {m : Module} {loader : Loader V C}
    (h : env.parseBuffered fuel engine buffer = some (.ok (m, loader))) :
    ∃ payloads, env.Reads env.newParser buffer payloads ∧
      ∀ calls, (keptSections env.config payloads).length < calls →
        m.customSections.iter.collect calls = some (keptSections env.config payloads) := by
  obtain ⟨stop, -, hstop⟩ | ⟨⟨s, p, b⟩, loader₁, hheader, h⟩ := LoadEnv.bind_eq_some h
  · cases hstop
  obtain ⟨stop, -, hstop⟩ | ⟨⟨_, p₁, b₁⟩, loader₂, hcode, h⟩ := LoadEnv.bind_eq_some h
  · cases hstop
  obtain ⟨stop, -, hstop⟩ | ⟨⟨builder, p₂, b₂⟩, loader₃, hdata, h⟩ := LoadEnv.bind_eq_some h
  · cases hstop
  cases h
  have hfirst : ∀ {n payload p'}, env.parse p₁ b₁ true = .ok (.parsed n payload, p') →
      (∀ count range size, payload ≠ .codeSectionStart count range size) ∧
        ∀ funcBody, payload ≠ .codeSectionEntry funcBody := LoadEnv.dataLoop_first hdata
  obtain ⟨passed, q, c, last, hheader, hbefore⟩ :=
    LoadEnv.bufferedLoop_read (by simp [headerStop]) (LoadEnv.headerPayload_follows env) hheader
  obtain ⟨passed₁, q₁, c₁, last₁, hcode, -⟩ :=
    LoadEnv.bufferedLoop_read (by simp [codeStop]) (LoadEnv.codePayload_follows env _ _) hcode
  obtain ⟨passed₂, q₂, c₂, last₂, hdata, hafter⟩ :=
    LoadEnv.bufferedLoop_read (by simp [dataStop]) (LoadEnv.dataPayload_follows env) hdata
  -- the payloads of the three loops
  obtain ⟨offset, rfl⟩ : ∃ offset, last₂ = .end offset := by
    obtain ⟨n, consumed, -, hstop, -⟩ := hdata.stopped
    cases last₂ with
    | «end» offset => exact ⟨offset, rfl⟩
    | _ => cases hstop
  obtain ⟨n, consumed, hend, -, -⟩ := hdata.stopped
  obtain ⟨n', consumed', hparse, -, -⟩ := hheader.stopped
  obtain ⟨payloads₁, hreads₁, hcustoms₁⟩ :=
    reads_code_data hparser ⟨q, c, n', last, hparse⟩ hcode (hdata.reads (.last hend)) hfirst
  obtain ⟨payloads, hreads, hcustoms⟩ := reads_header hparser hheader hreads₁
  refine ⟨_, hreads, ?_⟩
  have hkept : keptSections env.config (passed ++ payloads) =
      keptSections env.config passed ++ keptSections env.config passed₂ := by
    have hsame : payloads.flatMap customSectionOf = passed₂.flatMap customSectionOf := by
      rw [hcustoms, hcustoms₁, List.flatMap_append]
      exact List.append_nil _
    rw [keptSections_append, keptSections, keptSections, hsame]
    rfl
  -- the sections that the header loop and the data loop push
  rw [LoadEnv.foldl_withHeader, Prod.mk.injEq] at hafter
  have hempty : ({} : CustomSections).Holds [] := ⟨rfl, rfl⟩
  have hholds := (hempty.process env.config none passed).process env.config
    (some s.header.finish) passed₂
  rw [← hbefore, ← hafter.2, List.nil_append, ← hkept] at hholds
  intro calls hcalls
  exact hholds.collect hcalls

end Main

/-! ## Binaries of known parts -/

instance (phase : Phase) : Decidable phase.AtSection := inferInstanceAs (Decidable (_ ∨ _))

/-- The state behind a payload, if it may follow. -/
def Phase.next (phase : Phase) : Payload → Option Phase
  | .version _ _ _ => if phase = .header then some .sectionStart else none
  | .codeSectionStart count _ _ => if phase.AtSection then some (.functionBody count) else none
  | .codeSectionEntry _ =>
    match phase with
    | .functionBody (remaining + 1) => some (.functionBody remaining)
    | _ => none
  | _ => if phase.AtSection then some .sectionStart else none

/-- The binary parser for a binary of known parts, in its three states. -/
def parsePhased (parts : List Part) (phase : Phase) (b : List Byte) :
    Except ParserError (Chunk × Phase) :=
  match parseParts parts b with
  | .error error => .error error
  | .ok (.needMoreData hint) => .ok (.needMoreData hint, phase)
  | .ok (.parsed n payload) =>
    match phase.next payload with
    | some phase => .ok (.parsed n payload, phase)
    | none => .error ⟨"unexpected section", 0⟩

/-- The parser of modules for such a binary. -/
def phasedEnv (config : LoadConfig) (parts : List Part) : LoadEnv Phase Unit Unit Unit where
  config := config
  newParser := .header
  parse := fun phase b _ => parsePhased parts phase b
  newValidator := ()
  validate := fun _ _ => .ok ()
  codeSectionEntry := fun _ _ => .ok ((), ())
  translate := fun _ _ _ _ _ _ _ => .ok ()

section Phased

variable {config : LoadConfig} {parts : List Part} {phase phase' other : Phase} {b : List Byte}
  {n : Nat} {payload : Payload}

lemma parsePhased_eq_ok : parsePhased parts phase b = .ok (.parsed n payload, phase') ↔
    parseParts parts b = .ok (.parsed n payload) ∧ phase.next payload = some phase' := by
  unfold parsePhased
  cases parseParts parts b with
  | error e => simp
  | ok chunk =>
    cases chunk with
    | needMoreData hint => simp
    | parsed n' payload' =>
      dsimp only
      cases hnext : phase.next payload' with
      | none =>
        simp only [reduceCtorEq, Except.ok.injEq, Chunk.parsed.injEq, false_iff, not_and, and_imp]
        intro _ hpayload
        rw [← hpayload, hnext]
        exact fun h => (by cases h)
      | some next =>
        simp only [Except.ok.injEq, Prod.mk.injEq, Chunk.parsed.injEq]
        constructor
        · intro h
          obtain ⟨⟨rfl, rfl⟩, rfl⟩ := h
          exact ⟨⟨rfl, rfl⟩, hnext⟩
        · intro h
          obtain ⟨⟨rfl, rfl⟩, hsome⟩ := h
          rw [hnext] at hsome
          exact ⟨⟨rfl, rfl⟩, Option.some.inj hsome⟩

lemma Phase.atSection_of_next (hversion : ∀ num encoding range, payload ≠ .version num encoding range)
    (hstart : ∀ count range size, payload ≠ .codeSectionStart count range size)
    (hentry : ∀ funcBody, payload ≠ .codeSectionEntry funcBody)
    (h : phase.next payload = some phase') : phase.AtSection ∧ phase' = .sectionStart := by
  have hnext : phase.next payload = if phase.AtSection then some .sectionStart else none := by
    cases payload with
    | version num encoding range => exact absurd rfl (hversion num encoding range)
    | codeSectionStart count range size => exact absurd rfl (hstart count range size)
    | codeSectionEntry funcBody => exact absurd rfl (hentry funcBody)
    | _ => rfl
  rw [hnext] at h
  by_cases hsection : phase.AtSection
  · rw [if_pos hsection] at h
    exact ⟨hsection, (Option.some.inj h).symm⟩
  · rw [if_neg hsection] at h
    cases h

lemma Phase.follows_of_next (h : phase.next payload = some phase') :
    phase.Follows payload phase' := by
  cases payload with
  | version num encoding range =>
    by_cases hheader : phase = .header
    · rw [hheader] at h ⊢
      rw [← Option.some.inj h]
      exact .version num encoding range
    · rw [Phase.next, if_neg hheader] at h
      cases h
  | codeSectionStart count range size =>
    by_cases hsection : phase.AtSection
    · rw [Phase.next, if_pos hsection] at h
      rw [← Option.some.inj h]
      exact .codeStart count range size hsection
    · rw [Phase.next, if_neg hsection] at h
      cases h
  | codeSectionEntry funcBody =>
    match phase, h with
    | .functionBody (remaining + 1), h =>
      rw [← Option.some.inj h]
      exact .entry remaining funcBody
  | _ =>
    obtain ⟨hsection, rfl⟩ := Phase.atSection_of_next (by simp) (by simp) (by simp) h
    exact .section_ hsection (by simp) (by simp) (by simp)

/-- At the start of a section it does not matter which section is behind. -/
lemma Phase.next_of_atSection (hphase : phase.AtSection) (hother : other.AtSection) :
    phase.next payload = other.next payload := by
  have hnext : ∀ {phase : Phase}, phase.AtSection →
      phase.next payload = Phase.next .sectionStart payload := by
    intro phase hsection
    rcases hsection with rfl | rfl
    · rfl
    · cases payload <;> rfl
  rw [hnext hphase, hnext hother]

lemma Wasmparser.Payload.again_refl (payload : Payload) : payload.Again payload := by
  cases payload with
  | customSection reader => rfl
  | dataSection sec => exact ⟨sec, rfl⟩
  | «end» offset => exact ⟨offset, rfl⟩
  | codeSectionEntry funcBody => exact ⟨funcBody, rfl⟩
  | _ => exact ⟨by simp, by simp⟩

/-- The states at the start of a section are the same for a parser. -/
def Phase.Same (phase other : Phase) : Prop := phase = other ∨ phase.AtSection ∧ other.AtSection

lemma sectionParser_phasedEnv (config : LoadConfig) (parts : List Part) :
    SectionParser (phasedEnv config parts) id Phase.Same where
  start := rfl
  follows hparse := Phase.follows_of_next (parsePhased_eq_ok.1 hparse).2
  dataAgain hparse := by
    obtain ⟨hpart, hnext⟩ := parsePhased_eq_ok.1 hparse
    obtain ⟨-, rfl⟩ := Phase.atSection_of_next (by simp) (by simp) (by simp) hnext
    exact ⟨_, _, _, parsePhased_eq_ok.2 ⟨hpart, rfl⟩⟩
  again hparse hversion hstart hentry := by
    obtain ⟨-, hnext⟩ := parsePhased_eq_ok.1 hparse
    obtain ⟨hsection, rfl⟩ := Phase.atSection_of_next hversion hstart hentry hnext
    exact .inr ⟨.inl rfl, hsection⟩
  parse_same hsame hparse := by
    obtain ⟨hpart, hnext⟩ := parsePhased_eq_ok.1 hparse
    refine ⟨_, _, parsePhased_eq_ok.2 ⟨hpart, ?_⟩, Payload.again_refl _, .inl rfl⟩
    rcases hsame with rfl | ⟨hphase, hother⟩
    · exact hnext
    · rw [← hnext]
      exact Phase.next_of_atSection hother hphase
  startAgain hparse hparse' := by
    obtain ⟨hpart, -⟩ := parsePhased_eq_ok.1 hparse
    obtain ⟨hpart', -⟩ := parsePhased_eq_ok.1 hparse'
    rw [hpart] at hpart'
    cases hpart'
    exact .inl ⟨_, _, _, rfl⟩

end Phased

/-- A module with three custom sections around its types, two of the same name and one without. -/
def threeCustoms : List Part :=
  [(wasmHeader, .version 1 .module_ ⟨4, 8⟩),
    ([0x00, 0x03, 0x01, 0x61, 0x07], .customSection ⟨"a", [0x07], []⟩),
    ([0x01, 0x01, 0x00], .typeSection ⟨0, []⟩),
    ([0x00, 0x01, 0x00], .customSection ⟨"", [], []⟩),
    ([0x00, 0x03, 0x01, 0x61, 0x08], .customSection ⟨"a", [0x08], []⟩),
    ([], .end 24)]

lemma threeCustoms_parsed (ignored : Bool) :
    ∃ m loader, (phasedEnv { ignoreCustomSections := ignored } threeCustoms).parseBuffered 8
        ⟨[], []⟩ (threeCustoms.flatMap Prod.fst) = some (.ok (m, loader)) ∧
      m.customSections.iter.collect 4 =
        some (if ignored then [] else [("a", [0x07]), ("", []), ("a", [0x08])]) := by
  have hrun : ∀ ignored, parsedWith (fun m => decide (m.customSections.iter.collect 4 =
      some (if ignored then [] else [("a", [0x07]), ("", []), ("a", [0x08])])))
      ((phasedEnv { ignoreCustomSections := ignored } threeCustoms).parseBuffered 8
        ⟨[], []⟩ (threeCustoms.flatMap Prod.fst)) = true := by decide +kernel
  obtain ⟨m, loader, hparse, hcollect⟩ := exists_of_parsedWith (hrun ignored)
  exact ⟨m, loader, hparse, of_decide_eq_true hcollect⟩

theorem customSections_exact_three :
    ∃ m loader payloads, (phasedEnv {} threeCustoms).parseBuffered 8 ⟨[], []⟩
        (threeCustoms.flatMap Prod.fst) = some (.ok (m, loader)) ∧
      (phasedEnv {} threeCustoms).Reads .header (threeCustoms.flatMap Prod.fst) payloads ∧
      ∀ calls, (keptSections {} payloads).length < calls →
        m.customSections.iter.collect calls = some (keptSections {} payloads) := by
  obtain ⟨m, loader, hparse, -⟩ := threeCustoms_parsed false
  obtain ⟨payloads, hreads, hcollect⟩ :=
    customSections_exact (sectionParser_phasedEnv {} threeCustoms) hparse
  exact ⟨m, loader, payloads, hparse, hreads, hcollect⟩

/-- With the option to ignore custom sections none of the three is kept. -/
theorem customSections_ignored :
    ∃ m loader payloads,
      (phasedEnv { ignoreCustomSections := true } threeCustoms).parseBuffered 8 ⟨[], []⟩
        (threeCustoms.flatMap Prod.fst) = some (.ok (m, loader)) ∧
      (phasedEnv { ignoreCustomSections := true } threeCustoms).Reads .header
        (threeCustoms.flatMap Prod.fst) payloads ∧
      ((payloads.flatMap customSectionOf).filter fun reader => !isNames reader).map
        (fun reader => (reader.name, reader.data)) = [("a", [0x07]), ("", []), ("a", [0x08])] ∧
      m.customSections.iter.collect 4 = some [] := by
  obtain ⟨m, loader, hparse, hcollect⟩ := threeCustoms_parsed true
  refine ⟨m, loader, threeCustoms.map Prod.snd, hparse, ?_, rfl, hcollect⟩
  exact .cons rfl (by simp) (.cons rfl (by simp) (.cons rfl (by simp) (.cons rfl (by simp)
    (.cons rfl (by simp) (.last rfl)))))

end MotokoDebugger
