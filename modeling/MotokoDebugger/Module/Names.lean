import MotokoDebugger.Module.Loading
import MotokoDebugger.Lib.Tables
import Mathlib.Data.List.Sort

/-!
# The name section

* `NameSection`: a well-formed name section.
* `outline`: the custom sections of a binary, before and after the code section.
* `parseBuffered_customSections`: what the module parser makes of them.
* `names_recorded_iff`: it records the names of the functions, and those of their locals if the
  entries for the locals are for consecutive functions from the right one on.
-/

namespace MotokoDebugger

open Tables
open Wasmparser (Payload Chunk ParserError Naming IndirectNaming Name CustomSection)

/-! ## Well-formed name sections -/

/-- The names of locals, but for those that start with `$` and those that repeat an earlier one. -/
def shownLocals : List Naming → List (Nat × String)
  | [] => []
  | naming :: names =>
    if naming.name.startsWith "$" then shownLocals names
    else (naming.index, naming.name) ::
      (shownLocals names).filter fun shown => shown.2 ≠ naming.name

/-- The names of the locals of a function. -/
structure LocalEntry where
  index : Nat
  names : List Naming

/-- A subsection of a name section. -/
inductive Subsection where
  | function (entries : List Naming)
  | global (entries : List Naming)
  | local_ (entries : List LocalEntry)
  | other

namespace Subsection

/-- The subsection as the binary parser delivers it. -/
def toName : Subsection → Name
  | function entries => .function (entries.map .ok)
  | global entries => .global (entries.map .ok)
  | local_ entries => .local_ (entries.map fun entry => .ok ⟨entry.index, entry.names.map .ok⟩)
  | other => .other

/-- The entries for the names of functions. -/
def functionEntries : Subsection → List Naming
  | function entries => entries
  | _ => []

/-- The entries for the names of locals. -/
def localEntries : Subsection → List LocalEntry
  | local_ entries => entries
  | _ => []

/-- Does it name locals? -/
def isLocal : Subsection → Bool
  | local_ _ => true
  | _ => false

end Subsection

/-- A name section whose entries are in increasing order. There is at most one subsection with the
names of locals. -/
structure NameSection where
  subsections : List Subsection
  functions_sorted : ((subsections.flatMap Subsection.functionEntries).map
    Naming.index).Pairwise (· < ·)
  locals_sorted : ((subsections.flatMap Subsection.localEntries).map
    LocalEntry.index).Pairwise (· < ·)
  locals_once : subsections.countP Subsection.isLocal ≤ 1

namespace NameSection

variable (section_ : NameSection)

/-- The section as the binary parser delivers it. -/
def toNames : List (Except ParserError Name) :=
  section_.subsections.map fun subsection => .ok subsection.toName

/-- The names of functions. -/
def functionNames : List (Nat × String) :=
  (section_.subsections.flatMap Subsection.functionEntries).map fun entry =>
    (entry.index, entry.name)

/-- The entries for the names of locals. -/
def localEntries : List LocalEntry := section_.subsections.flatMap Subsection.localEntries

/-- The names of locals of each function. -/
def localNames : List (Nat × List (Nat × String)) :=
  section_.localEntries.map fun entry => (entry.index, shownLocals entry.names)

end NameSection

/-! ## Collecting the names -/

/-- The entries for the names of locals as `collect_indrect_nameing` numbers them. -/
def numbered (funcImports : Nat) (entries : List LocalEntry) :
    List (Nat × List (Nat × String)) :=
  entries.zipIdx.map fun (entry, i) => ((i + funcImports) % 2 ^ 32, shownLocals entry.names)

/-- One round of the loop over the names of locals. -/
def collectLocal (all : List (Nat × String)) : Except ParserError Naming → List (Nat × String)
  | .ok naming =>
    if naming.name ∈ all.map (·.2) ∨ naming.name.startsWith "$" then all
    else all ++ [(naming.index, naming.name)]
  | .error _ => all

lemma foldl_collectLocal (names : List Naming) (all : List (Nat × String)) :
    (names.map .ok).foldl collectLocal all =
      all ++ (shownLocals names).filter fun shown => shown.2 ∉ all.map (·.2) := by
  induction names generalizing all with
  | nil => simp [shownLocals]
  | cons naming names ih =>
    rw [List.map_cons, List.foldl_cons, ih]
    by_cases hdollar : naming.name.startsWith "$" = true
    · rw [shownLocals, if_pos hdollar, collectLocal, if_pos (.inr hdollar)]
    · rw [shownLocals, if_neg hdollar, List.filter_cons, List.filter_filter]
      by_cases hmem : naming.name ∈ all.map (·.2)
      · -- the name repeats one of `all`, so that it hides nothing else
        rw [collectLocal, if_pos (.inl hmem), if_neg (by simpa using hmem)]
        congr 1
        apply List.filter_congr
        intro shown _
        by_cases hname : shown.2 = naming.name
        · simp [hname, hmem]
        · simp [hname]
      · rw [collectLocal, if_neg (by simp [hmem, hdollar]), if_pos (by simpa using hmem),
          List.append_assoc, List.singleton_append]
        congr 2
        apply List.filter_congr
        intro shown _
        simp only [List.map_append, List.map_singleton, List.mem_append, List.mem_singleton, not_or,
          Bool.decide_and]

/-- The loop over the names of locals skips those that start with `$` and the repeated ones. -/
theorem collectLocals_eq (names : List Naming) :
    collectLocals (names.map .ok) = shownLocals names := by
  have hloop : collectLocals (names.map .ok) = (names.map .ok).foldl collectLocal [] := by
    unfold collectLocals
    congr
  rw [hloop, foldl_collectLocal, List.nil_append]
  simp

section Collect

variable {funcImports : Nat}

lemma collectNaming_eq (entries : List Naming) (results : Nat → Option String) :
    collectNaming (entries.map .ok) results =
      insertAll results (entries.map fun entry => (entry.index, entry.name)) := by
  rw [collectNaming, insertAll, List.foldl_map, List.foldl_map]

lemma collectIndirectNaming_eq (entries : List LocalEntry)
    (results : Nat → Option (List (Nat × String))) :
    collectIndirectNaming
        (entries.map fun entry => .ok ⟨entry.index, entry.names.map .ok⟩) results funcImports =
      insertAll results (numbered funcImports entries) := by
  rw [collectIndirectNaming, numbered, insertAll, List.zipIdx_map, List.foldl_map, List.foldl_map]
  simp only [← collectLocals_eq]
  rfl

lemma insertAll_append {α : Type} (table : Nat → Option α) (entries entries' : List (Nat × α)) :
    insertAll table (entries ++ entries') = insertAll (insertAll table entries) entries' :=
  List.foldl_append

/-- One round of the loop over the subsections. -/
def collectName (funcImports : Nat) (inner : NameSectionInner) :
    Except ParserError Name → NameSectionInner
  | .ok (.function naming) => { inner with functions := collectNaming naming inner.functions }
  | .ok (.global naming) => { inner with globals := collectNaming naming inner.globals }
  | .ok (.local_ naming) =>
    { inner with locals := collectIndirectNaming naming inner.locals funcImports }
  | .ok .other => inner
  | .error _ => inner

lemma collectNames_eq (names : List (Except ParserError Name)) :
    collectNames names funcImports = names.foldl (collectName funcImports) {} := by
  unfold collectNames
  congr

/-- The names of functions, one subsection after the other. -/
lemma functions_foldl_collectName (subsections : List Subsection) (inner : NameSectionInner) :
    ((subsections.map fun subsection => .ok subsection.toName).foldl (collectName funcImports)
        inner).functions =
      insertAll inner.functions ((subsections.flatMap Subsection.functionEntries).map fun entry =>
        (entry.index, entry.name)) := by
  induction subsections generalizing inner with
  | nil => rfl
  | cons subsection subsections ih =>
    rw [List.map_cons, List.foldl_cons, ih, List.flatMap_cons, List.map_append, insertAll_append]
    cases subsection with
    | function entries =>
      show insertAll (collectNaming (entries.map .ok) inner.functions) _ = _
      rw [collectNaming_eq]
      rfl
    | global entries => rfl
    | local_ entries => rfl
    | other => rfl

/-- The names of locals, one subsection after the other. -/
lemma locals_foldl_collectName (subsections : List Subsection) (inner : NameSectionInner) :
    ((subsections.map fun subsection => .ok subsection.toName).foldl (collectName funcImports)
        inner).locals =
      insertAll inner.locals (subsections.flatMap fun subsection =>
        numbered funcImports subsection.localEntries) := by
  induction subsections generalizing inner with
  | nil => rfl
  | cons subsection subsections ih =>
    rw [List.map_cons, List.foldl_cons, ih, List.flatMap_cons, insertAll_append]
    cases subsection with
    | local_ entries =>
      show insertAll (collectIndirectNaming (entries.map fun entry =>
        .ok ⟨entry.index, entry.names.map .ok⟩) inner.locals funcImports) _ = _
      rw [collectIndirectNaming_eq]
      rfl
    | function entries => rfl
    | global entries => rfl
    | other => rfl

lemma numbered_nil : numbered funcImports [] = [] := rfl

lemma flatMap_localEntries_of_none {subsections : List Subsection}
    (h : subsections.countP Subsection.isLocal = 0) :
    subsections.flatMap Subsection.localEntries = [] := by
  rw [List.flatMap_eq_nil_iff]
  intro subsection hmem
  have hnot := List.countP_eq_zero.mp h subsection hmem
  cases subsection with
  | local_ entries => exact absurd rfl hnot
  | _ => rfl

/-- With one subsection for locals the numbers are those of its entries. -/
lemma flatMap_numbered {subsections : List Subsection}
    (h : subsections.countP Subsection.isLocal ≤ 1) :
    (subsections.flatMap fun subsection => numbered funcImports subsection.localEntries) =
      numbered funcImports (subsections.flatMap Subsection.localEntries) := by
  induction subsections with
  | nil => rfl
  | cons subsection subsections ih =>
    rw [List.countP_cons] at h
    rw [List.flatMap_cons, List.flatMap_cons]
    by_cases hlocal : subsection.isLocal = true
    · rw [if_pos hlocal] at h
      have hnone : subsections.countP Subsection.isLocal = 0 := by omega
      rw [ih (by omega), flatMap_localEntries_of_none hnone, numbered_nil, List.append_nil,
        List.append_nil]
    · rw [if_neg hlocal] at h
      have hempty : subsection.localEntries = [] := by
        cases subsection with
        | local_ entries => exact absurd rfl hlocal
        | _ => rfl
      rw [ih h, hempty, numbered_nil, List.nil_append, List.nil_append]

/-- What is recorded of a name section. -/
lemma collectNames_toNames (section_ : NameSection) :
    (collectNames section_.toNames funcImports).functions =
        insertAll Tables.empty section_.functionNames ∧
      (collectNames section_.toNames funcImports).locals =
        insertAll Tables.empty (numbered funcImports section_.localEntries) := by
  rw [collectNames_eq, NameSection.toNames, functions_foldl_collectName,
    locals_foldl_collectName, flatMap_numbered section_.locals_once]
  exact ⟨rfl, rfl⟩

/-- The names of functions are recorded. -/
theorem functions_recorded (section_ : NameSection) :
    Records (collectNames section_.toNames funcImports).functions section_.functionNames := by
  rw [(collectNames_toNames section_).1]
  apply records_insertAll
  have hkeys : section_.functionNames.map Prod.fst =
      (section_.subsections.flatMap Subsection.functionEntries).map Naming.index := by
    rw [NameSection.functionNames, List.map_map]
    rfl
  rw [hkeys]
  exact section_.functions_sorted.imp Nat.ne_of_lt

/-- The numbers are those of consecutive functions. -/
lemma keys_numbered {entries : List LocalEntry} (h : funcImports + entries.length ≤ 2 ^ 32) :
    (numbered funcImports entries).map Prod.fst = List.range' funcImports entries.length := by
  apply List.ext_getElem
  · simp [numbered]
  · intro i hi hi'
    simp only [numbered, List.getElem_map, List.getElem_zipIdx, List.getElem_range']
    rw [List.length_range'] at hi'
    omega

lemma keys_localNames (section_ : NameSection) :
    section_.localNames.map Prod.fst = section_.localEntries.map LocalEntry.index := by
  rw [NameSection.localNames, List.map_map]
  rfl

/-- The numbers of entries for consecutive functions are their indices. -/
lemma numbered_eq_localNames {section_ : NameSection}
    (h : funcImports + section_.localEntries.length ≤ 2 ^ 32)
    (heq : section_.localEntries.map LocalEntry.index =
      List.range' funcImports section_.localEntries.length) :
    numbered funcImports section_.localEntries = section_.localNames := by
  apply List.ext_getElem
  · simp [numbered, NameSection.localNames]
  · intro i hi hi'
    have hlen : i < section_.localEntries.length := by simpa [numbered] using hi
    have hindex := List.getElem_of_eq heq (show i < _ by simpa using hlen)
    rw [List.getElem_map, List.getElem_range'] at hindex
    simp only [numbered, NameSection.localNames, List.getElem_map, List.getElem_zipIdx, hindex]
    rw [Prod.mk.injEq]
    exact ⟨by omega, rfl⟩

/-- The names of locals are recorded if and only if the entries are for consecutive functions,
from that on whose index is the number of imported functions. -/
theorem locals_recorded_iff (section_ : NameSection)
    (h : funcImports + section_.localEntries.length ≤ 2 ^ 32) :
    Records (collectNames section_.toNames funcImports).locals section_.localNames ↔
      section_.localEntries.map LocalEntry.index =
        List.range' funcImports section_.localEntries.length := by
  have hnumbered : Records (collectNames section_.toNames funcImports).locals
      (numbered funcImports section_.localEntries) := by
    rw [(collectNames_toNames section_).2]
    apply records_insertAll
    rw [keys_numbered h]
    exact List.nodup_range'
  constructor
  · intro hrecords
    -- both lists are increasing, and they have the same members
    have hmem : ∀ index, index ∈ section_.localEntries.map LocalEntry.index ↔
        index ∈ List.range' funcImports section_.localEntries.length := by
      intro index
      rw [← keys_localNames, ← keys_numbered h]
      exact hrecords.mem_keys_iff hnumbered index
    have hsorted := section_.locals_sorted
    have hrange := @List.pairwise_lt_range' funcImports section_.localEntries.length 1 (by decide)
    have hperm := (List.perm_ext_iff_of_nodup (hsorted.imp Nat.ne_of_lt) List.nodup_range').mpr hmem
    apply hperm.eq_of_pairwise _ hsorted hrange
    intro a b _ _ hab hba
    omega
  · intro heq
    rw [← numbered_eq_localNames h heq]
    exact hnumbered

end Collect

/-! ## Custom sections of a binary -/

variable {P V F C S : Type}

/-- The custom section that a payload is. -/
def customSectionOf : Payload → List CustomSection
  | .customSection reader => [reader]
  | _ => []

/-- The payloads that the header loop stops at, and whether it consumes them. -/
def headerStop : Payload → Option Bool
  | .codeSectionStart _ _ _ => some true
  | .dataSection _ | .end _ => some false
  | _ => none

/-- The payloads that the code loop stops at. -/
def codeStop : Payload → Option Bool
  | .codeSectionEntry _ => none
  | _ => some false

/-- The payloads that the data loop stops at. -/
def dataStop : Payload → Option Bool
  | .end _ => some true
  | _ => none

namespace LoadEnv

/-- The custom sections up to a payload that is to stop at, with the parser and the rest of the
buffer there. -/
def readCustoms (env : LoadEnv P V F C) (stop : Payload → Option Bool) :
    (fuel : Nat) → P → (buffer : List Byte) → List CustomSection × P × List Byte
  | 0, parser, buffer => ([], parser, buffer)
  | fuel + 1, parser, buffer =>
    match env.parse parser buffer true with
    | .ok (.parsed consumed payload, parser) =>
      match stop payload with
      | some true => ([], parser, buffer.drop consumed)
      | some false => ([], parser, buffer)
      | none =>
        let (customs, rest) := env.readCustoms stop fuel parser (buffer.drop consumed)
        (customSectionOf payload ++ customs, rest)
    | _ => ([], parser, buffer)

/-- The custom sections of a binary: those before its functions, and those after them. -/
def outline (env : LoadEnv P V F C) (fuel : Nat) (buffer : List Byte) :
    List CustomSection × List CustomSection :=
  let (before, parser, buffer) := env.readCustoms headerStop fuel env.newParser buffer
  let (_, parser, buffer) := env.readCustoms codeStop fuel parser buffer
  (before, (env.readCustoms dataStop fuel parser buffer).1)

section Loops

variable {A : Type} {stop : Payload → Option Bool} {view : S → A} {step : A → CustomSection → A}

/-- A round stops where `stop` says, and changes what `view` shows by custom sections only. -/
def FlowFollows (stop : Payload → Option Bool) (view : S → A) (step : A → CustomSection → A)
    (s : S) (payload : Payload) : Flow S × Loader V C → Prop
  | (.next s', _) => stop payload = none ∧ view s' = (customSectionOf payload).foldl step (view s)
  | (.stop s' consumed, _) => stop payload = some consumed ∧ view s' = view s

variable {env : LoadEnv P V F C}

/-- A loop whose rounds do so changes what `view` shows by the custom sections that it reads. -/
lemma bufferedLoop_follows {body : S → Payload → List Byte → LoadM V C (Flow S)}
    (hbody : ∀ s payload bytes loader, Lands True (FlowFollows stop view step s payload)
      (body s payload bytes loader)) {fuel : Nat} {p p' : P} {b b' : List Byte} {s s' : S}
    {loader loader' : Loader V C}
    (h : env.bufferedLoop body fuel p b s loader = some (.ok ((s', p', b'), loader'))) :
    (env.readCustoms stop fuel p b).2 = (p', b') ∧
      view s' = (env.readCustoms stop fuel p b).1.foldl step (view s) := by
  induction fuel generalizing p b s loader with
  | zero => cases h
  | succ fuel ih =>
    rw [readCustoms]
    rcases hparse : env.parse p b true with e | ⟨hint | ⟨n, payload⟩, p₁⟩
    · rw [bufferedLoop_error hparse] at h
      cases h
    · simp only [bufferedLoop, hparse] at h
      cases h
    · rw [bufferedLoop_parsed hparse] at h
      have hround := hbody s payload (b.take n) loader
      rcases hres : body s payload (b.take n) loader with
        stop | ⟨s₁ | ⟨s₁, _ | _⟩, loader₁⟩ <;> rw [hres] at h hround
      · cases h
      · obtain ⟨hstop, hview⟩ := hround
        obtain ⟨hrest, hfold⟩ := ih h
        simp only [hstop]
        exact ⟨hrest, by rw [hfold, hview, List.foldl_append]⟩
      · obtain ⟨hstop, hview⟩ := hround
        cases h
        simp only [hstop]
        exact ⟨trivial, hview⟩
      · obtain ⟨hstop, hview⟩ := hround
        cases h
        simp only [hstop]
        exact ⟨trivial, hview⟩

lemma lands_any {B : Type} (x : Except LoadStop B) : Lands True (fun _ => True) x := by
  rcases x with (error | _) | b <;> trivial

/-- A step whose outcome is handed on. -/
lemma lands_after {B D : Type} {Q : D × Loader V C → Prop} (x : LoadM V C B)
    {f : B → LoadM V C D} {loader : Loader V C}
    (hf : ∀ b loader, Lands True Q (f b loader)) : Lands True Q ((x >>= f) loader) :=
  Lands.step (lands_any (x loader)) fun b loader _ => hf b loader

/-- The header loop. -/
lemma headerPayload_follows (env : LoadEnv P V F C) (s : HeaderState) (payload : Payload)
    (bytes : List Byte) (loader : Loader V C) :
    Lands True (FlowFollows headerStop HeaderState.customSections
      (fun sections => processCustomSection env.config sections none) s payload)
      (env.headerPayload s payload bytes loader) := by
  cases payload with
  | codeSectionStart count range size =>
    exact lands_after _ fun _ _ => ⟨rfl, rfl⟩
  | dataSection sec => exact ⟨rfl, rfl⟩
  | «end» offset => exact ⟨rfl, rfl⟩
  | customSection reader => exact ⟨rfl, rfl⟩
  | _ => exact lands_after _ fun _ _ => ⟨rfl, rfl⟩

/-- The code loop. -/
lemma codePayload_follows (env : LoadEnv P V F C) (header : ModuleHeader) (base : Option Nat)
    (s : Unit) (payload : Payload) (bytes : List Byte) (loader : Loader V C) :
    Lands True (FlowFollows codeStop id (fun s _ => s) s payload)
      (env.codePayload header base s payload bytes loader) := by
  cases payload with
  | codeSectionEntry funcBody => exact lands_after _ fun _ _ => ⟨rfl, rfl⟩
  | _ => exact ⟨rfl, rfl⟩

/-- The data loop. -/
lemma dataPayload_follows (env : LoadEnv P V F C) (builder : ModuleBuilder) (payload : Payload)
    (bytes : List Byte) (loader : Loader V C) :
    Lands True (FlowFollows dataStop (fun builder => (builder.header, builder.customSections))
      (fun (header, sections) reader =>
        (header, processCustomSection env.config sections (some header) reader)) builder payload)
      (env.dataPayload builder payload bytes loader) := by
  cases payload with
  | dataSection sec =>
    have hdata : Lands True (fun r => r.1.header = builder.header ∧
        r.1.customSections = builder.customSections) (env.processData sec builder loader) :=
      lands_after _ fun _ _ => lands_after _ fun _ _ => lands_after _ fun _ _ =>
        lands_after _ fun _ _ => ⟨rfl, rfl⟩
    exact hdata.step fun builder' _ hsame => ⟨rfl, Prod.ext hsame.1 hsame.2⟩
  | «end» offset => exact lands_after _ fun _ _ => ⟨rfl, rfl⟩
  | customSection reader => exact ⟨rfl, rfl⟩
  | _ => exact lands_after _ fun _ _ => ⟨rfl, rfl⟩

end Loops

lemma foldl_withHeader (config : LoadConfig) (header : ModuleHeader) (sections : CustomSections)
    (customs : List CustomSection) :
    customs.foldl (fun (state : ModuleHeader × CustomSections) reader =>
        (state.1, processCustomSection config state.2 (some state.1) reader)) (header, sections) =
      (header, customs.foldl (fun sections =>
        processCustomSection config sections (some header)) sections) := by
  induction customs generalizing sections with
  | nil => rfl
  | cons reader customs ih =>
    rw [List.foldl_cons, ih, List.foldl_cons]

/-- The custom sections of a module that is parsed: those before the functions are processed
without the header of the module, those after them with it. -/
theorem parseBuffered_customSections {env : LoadEnv P V F C} {fuel : Nat} {engine : LoadEngine C}
    {buffer : List Byte} {m : Module} {loader : Loader V C}
    (h : env.parseBuffered fuel engine buffer = some (.ok (m, loader))) :
    m.customSections =
      (env.outline fuel buffer).2.foldl
        (fun sections => processCustomSection env.config sections (some m.header))
        ((env.outline fuel buffer).1.foldl
          (fun sections => processCustomSection env.config sections none) {}) := by
  obtain ⟨stop, -, hstop⟩ | ⟨⟨s, p, b⟩, loader₁, hheader, h⟩ := bind_eq_some h
  · cases hstop
  obtain ⟨stop, -, hstop⟩ | ⟨⟨_, p₁, b₁⟩, loader₂, hcode, h⟩ := bind_eq_some h
  · cases hstop
  obtain ⟨stop, -, hstop⟩ | ⟨⟨builder, p₂, b₂⟩, loader₃, hdata, h⟩ := bind_eq_some h
  · cases hstop
  cases h
  obtain ⟨hheader, hbefore⟩ := bufferedLoop_follows (headerPayload_follows env) hheader
  obtain ⟨hcode, -⟩ := bufferedLoop_follows (codePayload_follows env _ _) hcode
  obtain ⟨-, hafter⟩ := bufferedLoop_follows (dataPayload_follows env) hdata
  rw [foldl_withHeader, Prod.mk.injEq] at hafter
  have hparts : env.outline fuel buffer =
      ((env.readCustoms headerStop fuel env.newParser buffer).1,
        (env.readCustoms dataStop fuel p₁ b₁).1) := by
    rw [outline]
    simp only [hheader, hcode]
  rw [hparts, ← hbefore]
  show builder.customSections = _
  rw [hafter.2]
  show _ = List.foldl (fun sections => processCustomSection env.config sections
    (some builder.header)) _ _
  rw [hafter.1]

end LoadEnv

/-! ## The name section of a module -/

/-- Where the name section of a module is. -/
inductive Place where
  | beforeCode | afterCode

/-- The number that the entries for the locals are numbered from. -/
def Place.funcImports (m : Module) : Place → Nat
  | beforeCode => 0
  | afterCode => m.header.imports.lenFuncs

/-- Is it a name section? -/
def isNames (reader : CustomSection) : Bool := reader.name = "name"

/-- The binary has one name section, at that place. -/
def LoadEnv.HasNames (env : LoadEnv P V F C) (fuel : Nat) (buffer : List Byte)
    (reader : CustomSection) : Place → Prop
  | .beforeCode => (env.outline fuel buffer).1.filter isNames = [reader] ∧
      (env.outline fuel buffer).2.filter isNames = []
  | .afterCode => (env.outline fuel buffer).1.filter isNames = [] ∧
      (env.outline fuel buffer).2.filter isNames = [reader]

/-- The names recorded for a function and for its locals are those of the entries with its index;
there are none for functions without an entry. -/
structure NamesRecorded (m : Module) (section_ : NameSection) : Prop where
  functions : Records m.customSections.nameInner.functions section_.functionNames
  locals : Records m.customSections.nameInner.locals section_.localNames

section Recorded

variable {config : LoadConfig} {header : Option ModuleHeader}

lemma processCustomSection_of_names (hconfig : config.ignoreCustomSections = false)
    {reader : CustomSection} (h : isNames reader = true) (sections : CustomSections) :
    (processCustomSection config sections header reader).nameInner =
      collectNames reader.names (header.elim 0 fun header => header.imports.lenFuncs) := by
  have hname : reader.name = "name" := by simpa [isNames] using h
  unfold processCustomSection
  rw [if_neg (by simp [hconfig]), if_pos hname]
  cases header with
  | none => rfl
  | some header => rfl

lemma processCustomSection_of_other (hconfig : config.ignoreCustomSections = false)
    {reader : CustomSection} (h : ¬isNames reader = true) (sections : CustomSections) :
    (processCustomSection config sections header reader).nameInner = sections.nameInner := by
  have hname : ¬reader.name = "name" := by simpa [isNames] using h
  unfold processCustomSection
  rw [if_neg (by simp [hconfig]), if_neg hname]
  rfl

/-- The names are those of the last name section. -/
lemma nameInner_foldl (hconfig : config.ignoreCustomSections = false)
    (customs : List CustomSection) (sections : CustomSections) :
    (customs.foldl (fun sections => processCustomSection config sections header)
        sections).nameInner =
      (customs.filter isNames).foldl (fun _ reader =>
        collectNames reader.names (header.elim 0 fun header => header.imports.lenFuncs))
        sections.nameInner := by
  induction customs generalizing sections with
  | nil => rfl
  | cons reader customs ih =>
    rw [List.foldl_cons, ih]
    by_cases hnames : isNames reader = true
    · rw [List.filter_cons_of_pos hnames, List.foldl_cons,
        processCustomSection_of_names hconfig hnames]
    · rw [List.filter_cons_of_neg hnames, processCustomSection_of_other hconfig hnames]

end Recorded

section Main

variable {env : LoadEnv P V F C} {fuel : Nat} {engine : LoadEngine C} {buffer : List Byte}
  {m : Module} {loader : Loader V C}

/-- What a module knows of the names in its name section. -/
theorem nameInner_eq (hconfig : env.config.ignoreCustomSections = false)
    (hparse : env.parseBuffered fuel engine buffer = some (.ok (m, loader)))
    {place : Place} {reader : CustomSection} (hnames : env.HasNames fuel buffer reader place) :
    m.customSections.nameInner = collectNames reader.names (place.funcImports m) := by
  rw [LoadEnv.parseBuffered_customSections hparse, nameInner_foldl hconfig,
    nameInner_foldl hconfig]
  cases place with
  | beforeCode =>
    rw [hnames.1, hnames.2]
    rfl
  | afterCode =>
    rw [hnames.1, hnames.2]
    rfl

/-- The names of a well-formed name section are recorded if and only if its entries for locals are
those of consecutive functions: from the first function that is not imported on where the section
follows the functions, and from the first function on where it precedes them. -/
theorem names_recorded_iff (hconfig : env.config.ignoreCustomSections = false)
    (hparse : env.parseBuffered fuel engine buffer = some (.ok (m, loader)))
    {place : Place} {reader : CustomSection} (hnames : env.HasNames fuel buffer reader place)
    {section_ : NameSection} (hreads : reader.names = section_.toNames)
    (hsize : place.funcImports m + section_.localEntries.length ≤ 2 ^ 32) :
    NamesRecorded m section_ ↔
      section_.localEntries.map LocalEntry.index =
        List.range' (place.funcImports m) section_.localEntries.length := by
  have hinner := nameInner_eq hconfig hparse hnames
  rw [hreads] at hinner
  rw [← locals_recorded_iff section_ hsize, ← hinner]
  constructor
  · intro hrecorded
    exact hrecorded.locals
  · intro hlocals
    constructor
    · rw [hinner]
      exact functions_recorded section_
    · exact hlocals

end Main

/-! ## Names for the second function -/

/-- A part of a binary: its bytes, and the payload that they are. -/
abbrev Part := List Byte × Payload

/-- The binary parser for a binary of known parts, of which it is given a last piece. -/
def parseParts : List Part → List Byte → Except ParserError Chunk
  | [], _ => .error ⟨"unexpected section", 0⟩
  | part :: parts, b =>
    if b = (part :: parts).flatMap Prod.fst then .ok (.parsed part.1.length part.2)
    else parseParts parts b

/-- The parser of modules for a binary of known parts. -/
def partsEnv (parts : List Part) : LoadEnv Unit Unit Unit Unit where
  config := {}
  newParser := ()
  parse := fun _ b _ => (parseParts parts b).map fun chunk => (chunk, ())
  newValidator := ()
  validate := fun _ _ => .ok ()
  codeSectionEntry := fun _ _ => .ok ((), ())
  translate := fun _ _ _ _ _ _ _ => .ok ()

/-- The names of the locals of the second function. -/
def secondNames : NameSection where
  subsections := [.local_ [⟨1, [⟨0, "x"⟩]⟩]]
  functions_sorted := by decide
  locals_sorted := by decide
  locals_once := by decide

/-- Their custom section. -/
def secondNamesReader : CustomSection where
  name := "name"
  data := [0x02, 0x06, 0x01, 0x01, 0x01, 0x00, 0x01, 0x78]
  names := secondNames.toNames

/-- A module of two functions with a name for the local of the second. -/
def secondNamesParts : List Part :=
  [(wasmHeader, .version 1 .module_ ⟨4, 8⟩),
    ([0x01, 0x04, 0x01, 0x60, 0x00, 0x00], .typeSection ⟨1, [.ok ⟨[], []⟩]⟩),
    ([0x03, 0x03, 0x02, 0x00, 0x00], .functionSection ⟨2, [.ok 0, .ok 0]⟩),
    ([0x0a, 0x09, 0x02], .codeSectionStart 2 ⟨21, 30⟩ 8),
    ([0x02, 0x00, 0x0b], .codeSectionEntry ⟨23, [0x00, 0x0b]⟩),
    ([0x04, 0x01, 0x01, 0x7f, 0x0b], .codeSectionEntry ⟨26, [0x01, 0x01, 0x7f, 0x0b]⟩),
    ([0x00, 0x0d, 0x04, 0x6e, 0x61, 0x6d, 0x65, 0x02, 0x06, 0x01, 0x01, 0x01, 0x00, 0x01, 0x78],
      .customSection secondNamesReader),
    ([], .end 45)]

/-- Is there a module, of which that holds? -/
def parsedWith (p : Module → Bool) : Option (Except LoadStop (Module × Loader V C)) → Bool
  | some (.ok (m, _)) => p m
  | _ => false

lemma exists_of_parsedWith {p : Module → Bool}
    {x : Option (Except LoadStop (Module × Loader V C))} (h : parsedWith p x = true) :
    ∃ m loader, x = some (.ok (m, loader)) ∧ p m = true := by
  match x, h with
  | some (.ok (m, loader)), h => exact ⟨m, loader, rfl, h⟩

lemma secondNames_parsed :
    ∃ m loader, (partsEnv secondNamesParts).parseBuffered 8 ⟨[], []⟩
        (secondNamesParts.flatMap Prod.fst) = some (.ok (m, loader)) ∧
      m.header.imports.lenFuncs = 0 ∧
      m.customSections.nameInner.locals 0 = some [(0, "x")] ∧
      m.customSections.nameInner.locals 1 = none := by
  have hrun : parsedWith (fun m => decide (m.header.imports.lenFuncs = 0 ∧
      m.customSections.nameInner.locals 0 = some [(0, "x")] ∧
      m.customSections.nameInner.locals 1 = none))
      ((partsEnv secondNamesParts).parseBuffered 8 ⟨[], []⟩
        (secondNamesParts.flatMap Prod.fst)) = true := by decide +kernel
  obtain ⟨m, loader, hparse, hlocals⟩ := exists_of_parsedWith hrun
  exact ⟨m, loader, hparse, of_decide_eq_true hlocals⟩

/-- The names for the second function are recorded for the first. -/
theorem locals_of_second_recorded_for_first :
    ∃ m loader, (partsEnv secondNamesParts).parseBuffered 8 ⟨[], []⟩
        (secondNamesParts.flatMap Prod.fst) = some (.ok (m, loader)) ∧
      secondNames.localNames = [(1, [(0, "x")])] ∧
      m.customSections.nameInner.locals 0 = some [(0, "x")] ∧
      m.customSections.nameInner.locals 1 = none ∧ ¬NamesRecorded m secondNames := by
  obtain ⟨m, loader, hparse, -, hfirst, hsecond⟩ := secondNames_parsed
  have hnames : secondNames.localNames = [(1, [(0, "x")])] := by decide +kernel
  refine ⟨m, loader, hparse, hnames, hfirst, hsecond, ?_⟩
  intro hrecorded
  have hentry := (hrecorded.locals 1 [(0, "x")]).mpr (by simp [hnames])
  rw [hsecond] at hentry
  cases hentry

theorem names_recorded_iff_secondNames :
    ∃ m loader, (partsEnv secondNamesParts).parseBuffered 8 ⟨[], []⟩
        (secondNamesParts.flatMap Prod.fst) = some (.ok (m, loader)) ∧
      (NamesRecorded m secondNames ↔
        secondNames.localEntries.map LocalEntry.index =
          List.range' 0 secondNames.localEntries.length) := by
  obtain ⟨m, loader, hparse, himports, -⟩ := secondNames_parsed
  have hplace : Place.afterCode.funcImports m = 0 := himports
  refine ⟨m, loader, hparse, ?_⟩
  rw [← hplace]
  exact @names_recorded_iff _ _ _ _ _ _ _ _ _ _ rfl hparse .afterCode secondNamesReader
    ⟨rfl, rfl⟩ secondNames rfl (by rw [hplace]; decide)

end MotokoDebugger
