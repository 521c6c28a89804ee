import MotokoDebugger.Debugger.SourceMap
import MotokoDebugger.Dwarf.Subprograms
import MotokoDebugger.Lib.Utf8
import Mathlib.Data.List.ReduceOption

/-!
# Line tables

`debugger/src/dwarf/mod.rs`: the source map, from the headers of the line-number programs on, where
the directory and file indices are not checked.

* `transformDwarf`: the debug info of a binary.
* `transformDwarf_returns_iff`: the binaries for which it does not panic.
-/

namespace MotokoDebugger

namespace Dwarf

open Fallible SortedMaps Debugger

/-! ## Paths -/

namespace Path

/-- `Path::is_absolute`. -/
def isAbsolute (path : String) : Bool := path.toList.head? = some '/'

/-- `Path::join`. -/
def join (base path : String) : String :=
  if isAbsolute path then path
  else if base.toList.getLast? = some '/' ∨ base = "" then base ++ path
  else base ++ "/" ++ path

end Path

/-! ## Line-number programs -/

/-- `gimli::FileEntry`. -/
structure FileEntry where
  pathName : AttributeValue
  directoryIndex : Nat
deriving Repr, DecidableEq

/-- `gimli::LineProgramHeader`. -/
structure LineProgramHeader where
  version : Nat
  includeDirectories : List AttributeValue
  fileNames : List FileEntry
deriving Repr, DecidableEq

/-- `gimli::IncompleteLineProgram`, with its rows up to the last or to what cannot be read. -/
structure IncompleteLineProgram where
  header : LineProgramHeader
  rows : List LineRow
  rowsEnd : Except String Unit

/-- The index of the first file. -/
def LineProgramHeader.sequenceBaseIndex (header : LineProgramHeader) : Nat :=
  if header.version ≤ 4 then 1 else 0

/-- `dirs[index]` and `paths[index]`. -/
def index {α : Type} (items : List α) (i : Nat) : Except Failure α :=
  match items[i]? with
  | some item => .ok item
  | none => .error .panic

section Files

variable (clone : AttributeValue → Except String String)

/-- The directories: those of the header, behind `./` up to version 4. -/
def directories (header : LineProgramHeader) : Except Failure (List String) := do
  let dirs ← header.includeDirectories.mapM fun dir => unwrap (clone dir)
  return if header.version ≤ 4 then "./" :: dirs else dirs

/-- A path, behind the directory of the unit if there is one and the path is not absolute. -/
def behindCompDir (compDir : Option (List Byte)) (path : String) : Except Failure String :=
  match compDir with
  | none => .ok path
  | some bytes =>
    if Path.isAbsolute path then .ok path
    else
      match Utf8.decode bytes with
      | some compDir => .ok (Path.join compDir path)
      | none => .error .panic

/-- The path of a file. -/
def filePath (compDir : Option (List Byte)) (dirs : List String) (fileEntry : FileEntry) :
    Except Failure String := do
  let dir ← index dirs fileEntry.directoryIndex
  let name ← tryOk (clone fileEntry.pathName)
  behindCompDir compDir (Path.join dir name)

/-- The rows of a program that are kept, with the paths of its files. -/
def programMap (keep : LineRow → Bool) (program : IncompleteLineProgram) (files : List String) :
    DwarfUnitSourceMap where
  addressSortedRows := collect ((program.rows.filter keep).map fun row => (row.address, row))
  paths := files
  sequenceBaseIndex := program.header.sequenceBaseIndex

/-- The loops over the directories, the files and the rows of a program. -/
def transformProgram (compDir : Option (List Byte)) (keep : LineRow → Bool)
    (program : IncompleteLineProgram) : Except Failure DwarfUnitSourceMap := do
  let dirs ← directories clone program.header
  let files ← program.header.fileNames.mapM (filePath clone compDir dirs)
  tryOk program.rowsEnd
  return programMap keep program files

end Files

/-! ## Units -/

/-- A unit: what the traversal is told, the compilation directory, and the entries, if any. -/
structure CompilationUnit where
  context : UnitContext
  compDir : Option (List Byte)
  root : Except String (Option EntriesTreeNode)

/-- The sections as `parse_dwarf` finds them: the units up to the last header or to one that cannot
be read, and the line-number programs at the offsets of `.debug_line`. -/
structure Sections where
  strings : Strings
  units : List (Except String CompilationUnit)
  unitsEnd : Except String Unit
  program : Nat → Except String IncompleteLineProgram

/-- The offset in an attribute, if it is one of `.debug_line`. -/
def AttributeValue.debugLineOffset : AttributeValue → Option Nat
  | .debugLineRef offset => some offset
  | _ => none

/-- `transform_debug_line`. -/
def transformDebugLine (program : Nat → Except String IncompleteLineProgram)
    (unit : CompilationUnit) (root : Entry) : Except Failure DwarfUnitSourceMap := do
  let offset ← withContext "Debug line offset is not found"
    ((← tryOk (root.attrValue .stmtList)).bind (·.debugLineOffset))
  let program ← unwrap (program offset)
  transformProgram (cloneStringAttribute unit.context.dwarf) unit.compDir (fun _ => true) program

/-- `transform_debug_line_without_debug_info`. -/
def transformDebugLineWithoutDebugInfo (dwarf : Sections) : Except Failure DwarfUnitSourceMap := do
  let program ← unwrap (dwarf.program 0)
  transformProgram (cloneStringAttributeWithOutUnit dwarf.strings) none (·.line.isSome) program

structure DwarfDebugInfo where
  sourcemap : DwarfSourceMap
  subroutines : List Subroutine

/-- The loop of `transform_dwarf` over the units, for one of them. -/
def transformUnit (dwarf : Sections) (header : Except String CompilationUnit) :
    Except Failure (Option (DwarfUnitSourceMap × List Subroutine)) := do
  let unit ← tryOk header
  match ← tryOk unit.root with
  | none => return none
  | some root =>
    let sourcemap ← transformDebugLine dwarf.program unit root.entry
    let subroutines ← transformSubprogram unit.context root
    return some (sourcemap, subroutines)

/-- `DwarfSourceMap::new`, where an index out of bounds panics. -/
def newSourceMap (units : List DwarfUnitSourceMap) : Except Failure DwarfSourceMap :=
  match DwarfSourceMap.new units with
  | some sourcemap => .ok sourcemap
  | none => .error .panic

/-- The maps of the units, or that of the program at the start of the section if there are none. -/
def sourceMaps (dwarf : Sections) (units : List (DwarfUnitSourceMap × List Subroutine)) :
    Except Failure (List DwarfUnitSourceMap) :=
  match dwarf.units with
  | [] => do return [← transformDebugLineWithoutDebugInfo dwarf]
  | _ => return units.map Prod.fst

/-- `transform_dwarf`. -/
def transformDwarf (parsed : Except String Sections) : Except Failure DwarfDebugInfo := do
  let dwarf ← tryOk parsed
  let units ← dwarf.units.mapM (transformUnit dwarf)
  tryOk dwarf.unitsEnd
  let sourcemaps ← sourceMaps dwarf units.reduceOption
  let sourcemap ← newSourceMap sourcemaps
  return ⟨sourcemap, (units.reduceOption.map Prod.snd).flatten⟩

/-! ## What can be read -/

section Tables

variable (clone : AttributeValue → Except String String)

/-- The directories, where all can be read. -/
def LineProgramHeader.DirectoriesAre (header : LineProgramHeader) (dirs : List String) : Prop :=
  ∃ texts, List.Forall₂ (fun dir text => clone dir = .ok text) header.includeDirectories texts ∧
    dirs = if header.version ≤ 4 then "./" :: texts else texts

/-- A directory cannot be read. -/
def LineProgramHeader.DirectoryUnreadable (header : LineProgramHeader) : Prop :=
  ∃ dir ∈ header.includeDirectories, ∃ text, clone dir = .error text

/-- The directory of the unit is looked at, and it is not a text. -/
def BadCompDir (compDir : Option (List Byte)) (path : String) : Prop :=
  Path.isAbsolute path = false ∧ ∃ bytes ∈ compDir, Utf8.decode bytes = none

/-- A file with a directory and a name that can be read. -/
def FileEntry.Reads (compDir : Option (List Byte)) (dirs : List String) (fileEntry : FileEntry) :
    Prop :=
  ∃ dir name, dirs[fileEntry.directoryIndex]? = some dir ∧ clone fileEntry.pathName = .ok name ∧
    ¬BadCompDir compDir (Path.join dir name)

/-- A file with a directory index that is too high, or below a directory that is not a text. -/
def FileEntry.Panics (compDir : Option (List Byte)) (dirs : List String) (fileEntry : FileEntry) :
    Prop :=
  dirs.length ≤ fileEntry.directoryIndex ∨ ∃ dir name,
    dirs[fileEntry.directoryIndex]? = some dir ∧ clone fileEntry.pathName = .ok name ∧
      BadCompDir compDir (Path.join dir name)

namespace IncompleteLineProgram

variable (compDir : Option (List Byte)) (program : IncompleteLineProgram)

def Reads : Prop :=
  (∃ dirs, program.header.DirectoriesAre clone dirs ∧
    ∀ fileEntry ∈ program.header.fileNames, fileEntry.Reads clone compDir dirs) ∧
  program.rowsEnd = .ok ()

/-- A directory cannot be read, or the first file that cannot be read is one that panics. -/
def Panics : Prop :=
  program.header.DirectoryUnreadable clone ∨ ∃ dirs, program.header.DirectoriesAre clone dirs ∧
    FirstIs (FileEntry.Reads clone compDir dirs) (FileEntry.Panics clone compDir dirs)
      program.header.fileNames

/-- A row that is kept has a file index outside the table. -/
def RowOutside (keep : LineRow → Bool) : Prop :=
  ∃ row, Kept ((program.rows.filter keep).map fun row => (row.address, row)) (row.address, row) ∧
    (row.fileIndex < program.header.sequenceBaseIndex ∨
      program.header.sequenceBaseIndex + program.header.fileNames.length ≤ row.fileIndex)

end IncompleteLineProgram

end Tables

namespace CompilationUnit

variable (dwarf : Sections) (unit : CompilationUnit) (root : EntriesTreeNode)

/-- The line-number program of a unit. -/
def HasProgram (program : Except String IncompleteLineProgram) : Prop :=
  unit.root = .ok (some root) ∧ ∃ offset,
    root.entry.attrValue .stmtList = .ok (some (.debugLineRef offset)) ∧
      dwarf.program offset = program

/-- A unit with entries whose line-number program and subprograms can be read. -/
def ReadsProgram (program : IncompleteLineProgram) : Prop :=
  unit.HasProgram dwarf root (.ok program) ∧
    program.Reads (cloneStringAttribute unit.context.dwarf) unit.compDir ∧
      ∃ subroutines, transformSubprogram unit.context root = .ok subroutines

/-- A unit that can be read. -/
def Reads : Prop := unit.root = .ok none ∨ ∃ root program, unit.ReadsProgram dwarf root program

/-- The line-number program of a unit cannot be parsed, or it panics, or, where it can be read, the
traversal of the subprograms panics. -/
def Panics : Prop :=
  ∃ root, (∃ text, unit.HasProgram dwarf root (.error text)) ∨ ∃ program,
    unit.HasProgram dwarf root (.ok program) ∧
      (program.Panics (cloneStringAttribute unit.context.dwarf) unit.compDir ∨
        program.Reads (cloneStringAttribute unit.context.dwarf) unit.compDir ∧
          transformSubprogram unit.context root = .error .panic)

end CompilationUnit

namespace Sections

variable (dwarf : Sections)

/-- Without units: the program at the start of the section cannot be parsed, or it panics, or a row
with a line is outside its table. -/
def FirstPanics : Prop :=
  (∃ text, dwarf.program 0 = .error text) ∨ ∃ program, dwarf.program 0 = .ok program ∧
    (program.Panics (cloneStringAttributeWithOutUnit dwarf.strings) none ∨
      program.Reads (cloneStringAttributeWithOutUnit dwarf.strings) none ∧
        program.RowOutside (·.line.isSome))

/-- The first unit that cannot be read is one that panics, or all can be read and a row is outside
the table of its unit. -/
def Panics : Prop :=
  FirstIs (fun header => ∃ unit : CompilationUnit, header = .ok unit ∧ unit.Reads dwarf)
      (fun header => ∃ unit : CompilationUnit, header = .ok unit ∧ unit.Panics dwarf) dwarf.units ∨
    (∀ header ∈ dwarf.units, ∃ unit : CompilationUnit, header = .ok unit ∧ unit.Reads dwarf) ∧
      dwarf.unitsEnd = .ok () ∧
        ((∃ header ∈ dwarf.units, ∃ unit : CompilationUnit, header = .ok unit ∧
            ∃ root program, unit.ReadsProgram dwarf root program ∧
              program.RowOutside fun _ => true) ∨
          dwarf.units = [] ∧ dwarf.FirstPanics)

end Sections

/-! ## The outcome of a program -/

section Programs

variable {clone : AttributeValue → Except String String} {compDir : Option (List Byte)}
  {dirs : List String} {header : LineProgramHeader} {program : IncompleteLineProgram}
  {keep : LineRow → Bool}

lemma directories_eq_ok : directories clone header = .ok dirs ↔ header.DirectoriesAre clone dirs := by
  rw [directories, bind_eq_ok]
  simp only [mapM_eq_ok, unwrap_eq_ok]
  apply exists_congr
  intro texts
  apply and_congr_right'
  show Except.ok _ = Except.ok dirs ↔ _
  rw [Except.ok.injEq, eq_comm]

lemma directories_panics :
    directories clone header = .error .panic ↔ header.DirectoryUnreadable clone := by
  have hfail : ∀ dir e, unwrap (clone dir) = .error e → e = .panic := by
    intro dir e h
    cases hdir : clone dir <;> rw [hdir] at h <;> cases h
    rfl
  have hunwrap : ∀ dir, unwrap (clone dir) = .error .panic ↔ ∃ text, clone dir = .error text := by
    intro dir
    cases clone dir <;> simp [unwrap]
  rw [directories, bind_eq_error, mapM_eq_error, firstFails_iff_exists hfail]
  simp only [hunwrap]
  apply or_iff_left
  intro hpure
  obtain ⟨_, _, h⟩ := hpure
  cases h

lemma behindCompDir_panics {path : String} :
    behindCompDir compDir path = .error .panic ↔ BadCompDir compDir path := by
  cases compDir with
  | none => simp [behindCompDir, BadCompDir]
  | some bytes =>
    rw [behindCompDir, BadCompDir]
    cases habsolute : Path.isAbsolute path with
    | true => simp
    | false => cases hdecode : Utf8.decode bytes <;> simp [hdecode]

lemma behindCompDir_returns {path : String} :
    (∃ path', behindCompDir compDir path = .ok path') ↔ ¬BadCompDir compDir path := by
  rw [← behindCompDir_panics]
  cases compDir with
  | none => simp [behindCompDir]
  | some bytes =>
    rw [behindCompDir]
    cases Path.isAbsolute path with
    | true => simp
    | false => cases Utf8.decode bytes <;> simp

lemma index_eq_ok {α : Type} {items : List α} {i : Nat} {item : α} :
    index items i = .ok item ↔ items[i]? = some item := by
  rw [index]
  cases items[i]? <;> simp

lemma index_panics {α : Type} {items : List α} {i : Nat} :
    index items i = .error .panic ↔ items.length ≤ i := by
  rw [index, ← List.getElem?_eq_none_iff]
  cases items[i]? <;> simp

lemma filePath_returns {fileEntry : FileEntry} :
    (∃ path, filePath clone compDir dirs fileEntry = .ok path) ↔
      fileEntry.Reads clone compDir dirs := by
  simp only [filePath, bind_eq_ok, index_eq_ok, tryOk_eq_ok, FileEntry.Reads,
    ← behindCompDir_returns]
  constructor
  · intro h
    obtain ⟨path, dir, hdir, name, hname, hpath⟩ := h
    exact ⟨dir, name, hdir, hname, path, hpath⟩
  · intro h
    obtain ⟨dir, name, hdir, hname, path, hpath⟩ := h
    exact ⟨path, dir, hdir, name, hname, hpath⟩

lemma filePath_panics {fileEntry : FileEntry} :
    filePath clone compDir dirs fileEntry = .error .panic ↔
      fileEntry.Panics clone compDir dirs := by
  simp only [filePath, bind_eq_error (x := index _ _), index_panics, index_eq_ok,
    tryOk_bind_panics, behindCompDir_panics, FileEntry.Panics, exists_and_left]

/-- What becomes of a program. -/
lemma transformProgram_eq_ok {map : DwarfUnitSourceMap} :
    transformProgram clone compDir keep program = .ok map ↔
      ∃ dirs, program.header.DirectoriesAre clone dirs ∧
        ∃ files, List.Forall₂ (fun fileEntry path => filePath clone compDir dirs fileEntry = .ok path)
            program.header.fileNames files ∧
          program.rowsEnd = .ok () ∧ programMap keep program files = map := by
  simp only [transformProgram, bind_eq_ok, directories_eq_ok, mapM_eq_ok, tryOk_eq_ok]
  apply exists_congr
  intro dirs
  apply and_congr_right'
  apply exists_congr
  intro files
  apply and_congr_right'
  constructor
  · intro h
    obtain ⟨_, hrows, hmap⟩ := h
    exact ⟨hrows, Except.ok.inj hmap⟩
  · intro h
    exact ⟨(), h.1, congrArg Except.ok h.2⟩

/-- A program is transformed iff it can be read. -/
lemma transformProgram_returns :
    (∃ map, transformProgram clone compDir keep program = .ok map) ↔
      program.Reads clone compDir := by
  simp only [transformProgram_eq_ok, ← mapM_eq_ok, IncompleteLineProgram.Reads, ← filePath_returns,
    ← mapM_returns]
  constructor
  · intro h
    obtain ⟨_, dirs, hdirs, files, hfiles, hrows, _⟩ := h
    exact ⟨⟨dirs, hdirs, files, hfiles⟩, hrows⟩
  · intro h
    obtain ⟨⟨dirs, hdirs, files, hfiles⟩, hrows⟩ := h
    exact ⟨_, dirs, hdirs, files, hfiles, hrows, rfl⟩

lemma transformProgram_panics :
    transformProgram clone compDir keep program = .error .panic ↔ program.Panics clone compDir := by
  have hfiles : ∀ dirs, FirstFails .panic (filePath clone compDir dirs) program.header.fileNames ↔
      FirstIs (FileEntry.Reads clone compDir dirs) (FileEntry.Panics clone compDir dirs)
        program.header.fileNames := fun dirs =>
    firstIs_congr (fun _ => filePath_returns) (fun _ => filePath_panics)
  have hrows : ∀ files, (tryOk program.rowsEnd >>= fun _ =>
      pure (programMap keep program files)) ≠ .error Failure.panic := by
    intro files h
    obtain ⟨_, _, hpure⟩ := tryOk_bind_panics.mp h
    cases hpure
  simp only [transformProgram, bind_eq_error (x := directories _ _), directories_panics,
    directories_eq_ok, bind_eq_error (x := List.mapM _ _), mapM_eq_error, hfiles, hrows, and_false,
    exists_false, or_false, IncompleteLineProgram.Panics]

/-- The rows of a program that is read have files, except for those outside the table. -/
lemma exists_outside_iff {map : DwarfUnitSourceMap}
    (h : transformProgram clone compDir keep program = .ok map) :
    (∃ entry ∈ map.addressSortedRows, map.transformLineinfo entry.2 = none) ↔
      program.RowOutside keep := by
  obtain ⟨dirs, _, files, hfiles, _, rfl⟩ := transformProgram_eq_ok.mp h
  have hlength : files.length = program.header.fileNames.length := hfiles.length_eq.symm
  have hnone : ∀ row, (programMap keep program files).transformLineinfo row = none ↔
      row.fileIndex < program.header.sequenceBaseIndex ∨
        program.header.sequenceBaseIndex + program.header.fileNames.length ≤ row.fileIndex := by
    intro row
    rw [← hlength, DwarfUnitSourceMap.transformLineinfo]
    by_cases hbase : program.header.sequenceBaseIndex ≤ row.fileIndex
    · show (guard (program.header.sequenceBaseIndex ≤ row.fileIndex) >>= fun _ =>
        files[row.fileIndex - program.header.sequenceBaseIndex]? >>= _) = none ↔ _
      rw [guard, if_pos hbase]
      show files[row.fileIndex - program.header.sequenceBaseIndex]? >>= _ = none ↔ _
      cases hfile : files[row.fileIndex - program.header.sequenceBaseIndex]? with
      | none =>
        rw [List.getElem?_eq_none_iff] at hfile
        exact iff_of_true rfl (.inr (by omega))
      | some filepath =>
        obtain ⟨hlt, _⟩ := List.getElem?_eq_some_iff.mp hfile
        exact iff_of_false nofun (by omega)
    · show (guard (program.header.sequenceBaseIndex ≤ row.fileIndex) >>= _) = none ↔ _
      rw [guard, if_neg hbase]
      exact iff_of_true rfl (.inl (not_le.mp hbase))
  constructor
  · intro h
    obtain ⟨entry, hentry, houtside⟩ := h
    have hkept := mem_collect.mp hentry
    obtain ⟨row, _, rfl⟩ := List.mem_map.mp hkept.mem
    exact ⟨row, hkept, (hnone row).mp houtside⟩
  · intro h
    obtain ⟨row, hkept, houtside⟩ := h
    exact ⟨(row.address, row), mem_collect.mpr hkept, (hnone row).mpr houtside⟩

end Programs

lemma mapM_eq_none {α β : Type} {f : α → Option β} {l : List α} :
    l.mapM f = none ↔ ∃ a ∈ l, f a = none := by
  induction l with
  | nil => exact iff_of_false nofun (by simp)
  | cons a l ih =>
    rw [List.mapM_cons, List.exists_mem_cons_iff, ← ih]
    cases hfa : f a with
    | none => exact iff_of_true rfl (.inl rfl)
    | some b => cases l.mapM f <;> simp

/-- A row with its address in the source map. -/
def infoEntry (unit : DwarfUnitSourceMap) (entry : Nat × LineRow) : Option (Nat × LineInfo) := do
  let lineInfo ← unit.transformLineinfo entry.2
  return (entry.1, lineInfo)

lemma infoEntry_eq_none {unit : DwarfUnitSourceMap} {entry : Nat × LineRow} :
    infoEntry unit entry = none ↔ unit.transformLineinfo entry.2 = none := by
  rw [infoEntry]
  cases unit.transformLineinfo entry.2 <;> simp

/-- There is no source map of a row without a file. -/
lemma new_eq_none {units : List DwarfUnitSourceMap} :
    DwarfSourceMap.new units = none ↔
      ∃ unit ∈ units, ∃ entry ∈ unit.addressSortedRows, unit.transformLineinfo entry.2 = none := by
  have hbind : ∀ (rows : Option (List (List (Nat × LineInfo))))
      (map : List (List (Nat × LineInfo)) → DwarfSourceMap),
      (rows >>= fun rows => some (map rows)) = none ↔ rows = none := by
    intro rows map
    cases rows <;> simp
  have hrows : DwarfSourceMap.new units = none ↔
      (units.mapM fun unit => unit.addressSortedRows.mapM (infoEntry unit)) = none := hbind _ _
  rw [hrows]
  simp only [mapM_eq_none, infoEntry_eq_none]

/-- A source map panics for a row outside the table of its unit. -/
lemma newSourceMap_panics {units : List DwarfUnitSourceMap} :
    newSourceMap units = .error .panic ↔
      ∃ unit ∈ units, ∃ entry ∈ unit.addressSortedRows, unit.transformLineinfo entry.2 = none := by
  have hnew : newSourceMap units = .error .panic ↔ DwarfSourceMap.new units = none := by
    rw [newSourceMap]
    cases DwarfSourceMap.new units <;> simp
  rw [hnew, new_eq_none]

/-! ## The outcome of a unit -/

section Units

variable {dwarf : Sections} {header : Except String CompilationUnit} {unit : CompilationUnit}

lemma debugLineOffset_eq {attr : Option AttributeValue} {offset : Nat} :
    attr.bind (·.debugLineOffset) = some offset ↔ attr = some (.debugLineRef offset) := by
  cases attr with
  | none => simp
  | some attr => cases attr <;> simp [AttributeValue.debugLineOffset]

/-- What becomes of the entries of a unit. -/
lemma transformDebugLine_eq {root : EntriesTreeNode} (hroot : unit.root = .ok (some root)) :
    (∀ map, transformDebugLine dwarf.program unit root.entry = .ok map ↔
      ∃ program, unit.HasProgram dwarf root (.ok program) ∧
        transformProgram (cloneStringAttribute unit.context.dwarf) unit.compDir (fun _ => true)
          program = .ok map) ∧
    (transformDebugLine dwarf.program unit root.entry = .error .panic ↔
      (∃ text, unit.HasProgram dwarf root (.error text)) ∨
        ∃ program, unit.HasProgram dwarf root (.ok program) ∧
          program.Panics (cloneStringAttribute unit.context.dwarf) unit.compDir) := by
  constructor
  · intro map
    simp only [transformDebugLine, bind_eq_ok (x := tryOk _), withContext_bind_ok, debugLineOffset_eq,
      bind_eq_ok (x := unwrap _), tryOk_eq_ok, unwrap_eq_ok, CompilationUnit.HasProgram, hroot]
    constructor
    · intro h
      obtain ⟨_, hattr, offset, rfl, program, hprogram, hmap⟩ := h
      exact ⟨program, ⟨trivial, offset, hattr, hprogram⟩, hmap⟩
    · intro h
      obtain ⟨program, ⟨_, offset, hattr, hprogram⟩, hmap⟩ := h
      exact ⟨_, hattr, offset, rfl, program, hprogram, hmap⟩
  · simp only [transformDebugLine, tryOk_bind_panics, withContext_bind_panics, debugLineOffset_eq,
      unwrap_bind_panics, transformProgram_panics, CompilationUnit.HasProgram, hroot]
    constructor
    · intro h
      obtain ⟨_, hattr, offset, rfl, hpanics⟩ := h
      rcases hpanics with ⟨text, htext⟩ | ⟨program, hprogram, hpanics⟩
      · exact .inl ⟨text, trivial, offset, hattr, htext⟩
      · exact .inr ⟨program, ⟨trivial, offset, hattr, hprogram⟩, hpanics⟩
    · intro h
      rcases h with ⟨text, _, offset, hattr, htext⟩ | ⟨program, ⟨_, offset, hattr, hprogram⟩, hpanics⟩
      · exact ⟨_, hattr, offset, rfl, .inl ⟨text, htext⟩⟩
      · exact ⟨_, hattr, offset, rfl, .inr ⟨program, hprogram, hpanics⟩⟩

/-- A unit is transformed iff it can be read. -/
lemma transformUnit_eq_ok {result : Option (DwarfUnitSourceMap × List Subroutine)} :
    transformUnit dwarf header = .ok result ↔ ∃ unit : CompilationUnit, header = .ok unit ∧
      ((unit.root = .ok none ∧ result = none) ∨ ∃ root map subroutines program,
        unit.HasProgram dwarf root (.ok program) ∧
          transformProgram (cloneStringAttribute unit.context.dwarf) unit.compDir (fun _ => true)
            program = .ok map ∧
          transformSubprogram unit.context root = .ok subroutines ∧
          result = some (map, subroutines)) := by
  rw [transformUnit, bind_eq_ok]
  simp only [tryOk_eq_ok]
  apply exists_congr
  intro unit
  apply and_congr_right'
  rw [bind_eq_ok]
  simp only [tryOk_eq_ok]
  constructor
  · intro h
    obtain ⟨root, hroot, h⟩ := h
    cases root with
    | none =>
      cases h
      exact .inl ⟨hroot, rfl⟩
    | some root =>
      obtain ⟨map, hmap, h⟩ := bind_eq_ok.mp h
      obtain ⟨subroutines, hsubroutines, h⟩ := bind_eq_ok.mp h
      obtain ⟨program, hprogram, hmap⟩ := ((transformDebugLine_eq hroot).1 map).mp hmap
      cases h
      exact .inr ⟨root, map, subroutines, program, hprogram, hmap, hsubroutines, rfl⟩
  · intro h
    rcases h with ⟨hroot, rfl⟩ | ⟨root, map, subroutines, program, hprogram, hmap, hsubroutines, rfl⟩
    · exact ⟨none, hroot, rfl⟩
    · have hline := ((transformDebugLine_eq hprogram.1).1 map).mpr ⟨program, hprogram, hmap⟩
      exact ⟨some root, hprogram.1,
        bind_eq_ok.mpr ⟨map, hline, bind_eq_ok.mpr ⟨subroutines, hsubroutines, rfl⟩⟩⟩

lemma transformUnit_returns :
    (∃ result, transformUnit dwarf header = .ok result) ↔
      ∃ unit : CompilationUnit, header = .ok unit ∧ unit.Reads dwarf := by
  simp only [transformUnit_eq_ok]
  constructor
  · intro h
    obtain ⟨result, unit, hunit, h⟩ := h
    rcases h with ⟨hroot, _⟩ | ⟨root, map, subroutines, program, hprogram, hmap, hsubroutines, _⟩
    · exact ⟨unit, hunit, .inl hroot⟩
    · exact ⟨unit, hunit, .inr ⟨root, program, hprogram, transformProgram_returns.mp ⟨map, hmap⟩,
        subroutines, hsubroutines⟩⟩
  · intro h
    obtain ⟨unit, hunit, h⟩ := h
    rcases h with hroot | ⟨root, program, hprogram, hreads, subroutines, hsubroutines⟩
    · exact ⟨none, unit, hunit, .inl ⟨hroot, rfl⟩⟩
    · obtain ⟨map, hmap⟩ := transformProgram_returns.mpr hreads
      exact ⟨_, unit, hunit, .inr ⟨root, map, subroutines, program, hprogram, hmap, hsubroutines, rfl⟩⟩

lemma transformUnit_panics :
    transformUnit dwarf header = .error .panic ↔
      ∃ unit : CompilationUnit, header = .ok unit ∧ unit.Panics dwarf := by
  rw [transformUnit, tryOk_bind_panics]
  apply exists_congr
  intro unit
  apply and_congr_right'
  rw [tryOk_bind_panics]
  constructor
  · intro h
    obtain ⟨root, hroot, h⟩ := h
    cases root with
    | none => cases h
    | some root =>
      obtain ⟨hok, hpanics⟩ := @transformDebugLine_eq dwarf unit root hroot
      rcases bind_eq_error.mp h with hline | ⟨map, hmap, h⟩
      · rcases hpanics.mp hline with htext | ⟨program, hprogram, hpanics⟩
        · exact ⟨root, .inl htext⟩
        · exact ⟨root, .inr ⟨program, hprogram, .inl hpanics⟩⟩
      · obtain ⟨program, hprogram, hmap⟩ := (hok map).mp hmap
        rcases bind_eq_error.mp h with hsubroutines | ⟨_, _, h⟩
        · exact ⟨root, .inr ⟨program, hprogram,
            .inr ⟨transformProgram_returns.mp ⟨map, hmap⟩, hsubroutines⟩⟩⟩
        · cases h
  · intro h
    obtain ⟨root, h⟩ := h
    rcases h with ⟨text, htext⟩ | ⟨program, hprogram, hpanics | ⟨hreads, hsubroutines⟩⟩
    · have hline := (transformDebugLine_eq htext.1).2.mpr (.inl ⟨text, htext⟩)
      exact ⟨some root, htext.1, bind_eq_error.mpr (.inl hline)⟩
    · have hline := (transformDebugLine_eq hprogram.1).2.mpr (.inr ⟨program, hprogram, hpanics⟩)
      exact ⟨some root, hprogram.1, bind_eq_error.mpr (.inl hline)⟩
    · obtain ⟨map, hmap⟩ := transformProgram_returns.mpr hreads
      have hline := ((transformDebugLine_eq hprogram.1).1 map).mpr ⟨program, hprogram, hmap⟩
      exact ⟨some root, hprogram.1,
        bind_eq_error.mpr (.inr ⟨map, hline, bind_eq_error.mpr (.inl hsubroutines)⟩)⟩

end Units

/-! ## The debug info of a binary -/

section Binaries

variable {dwarf : Sections} {units : List (Option (DwarfUnitSourceMap × List Subroutine))}

/-- The rows outside the tables of the units. -/
lemma outside_units (h : dwarf.units.mapM (transformUnit dwarf) = .ok units) :
    (∃ map ∈ units.reduceOption.map Prod.fst, ∃ entry ∈ map.addressSortedRows,
      map.transformLineinfo entry.2 = none) ↔
      ∃ header ∈ dwarf.units, ∃ unit : CompilationUnit, header = .ok unit ∧
        ∃ root program, unit.ReadsProgram dwarf root program ∧
          program.RowOutside fun _ => true := by
  have hmem : ∀ map, map ∈ units.reduceOption.map Prod.fst ↔
      ∃ header ∈ dwarf.units, ∃ subroutines,
        transformUnit dwarf header = .ok (some (map, subroutines)) := by
    intro map
    simp only [List.mem_map, List.reduceOption_mem_iff, mem_of_mapM h, Prod.exists]
    constructor
    · intro h
      obtain ⟨_, subroutines, ⟨header, hheader, hunit⟩, rfl⟩ := h
      exact ⟨header, hheader, subroutines, hunit⟩
    · intro h
      obtain ⟨header, hheader, subroutines, hunit⟩ := h
      exact ⟨map, subroutines, ⟨header, hheader, hunit⟩, rfl⟩
  simp only [hmem, transformUnit_eq_ok]
  constructor
  · intro h
    obtain ⟨map, ⟨header, hheader, subroutines, unit, hunit, hresult⟩, houtside⟩ := h
    rcases hresult with ⟨_, hnone⟩ | ⟨root, map, subroutines, program, hprogram, hmap, hread, hsome⟩
    · cases hnone
    · cases hsome
      exact ⟨header, hheader, unit, hunit, root, program,
        ⟨hprogram, transformProgram_returns.mp ⟨map, hmap⟩, subroutines, hread⟩,
        (exists_outside_iff hmap).mp houtside⟩
  · intro h
    obtain ⟨header, hheader, unit, hunit, root, program, ⟨hprogram, hreads, subroutines, hread⟩,
      houtside⟩ := h
    obtain ⟨map, hmap⟩ := transformProgram_returns.mpr hreads
    exact ⟨map, ⟨header, hheader, subroutines, unit, hunit,
      .inr ⟨root, map, subroutines, program, hprogram, hmap, hread, rfl⟩⟩,
      (exists_outside_iff hmap).mpr houtside⟩

/-- The program at the start of the section, and its rows. -/
lemma first_panics :
    (transformDebugLineWithoutDebugInfo dwarf >>= fun map => newSourceMap [map]) =
        .error .panic ↔ dwarf.FirstPanics := by
  have hfirst : ∀ map, transformDebugLineWithoutDebugInfo dwarf = .ok map ↔
      ∃ program, dwarf.program 0 = .ok program ∧
        transformProgram (cloneStringAttributeWithOutUnit dwarf.strings) none (·.line.isSome) program =
          .ok map := by
    intro map
    simp only [transformDebugLineWithoutDebugInfo, bind_eq_ok, unwrap_eq_ok]
  simp only [bind_eq_error (x := transformDebugLineWithoutDebugInfo dwarf), hfirst,
    newSourceMap_panics, List.mem_singleton, exists_eq_left, Sections.FirstPanics]
  rw [transformDebugLineWithoutDebugInfo, unwrap_bind_panics]
  simp only [transformProgram_panics]
  constructor
  · intro h
    rcases h with (htext | ⟨program, hprogram, hpanics⟩) | ⟨map, ⟨program, hprogram, hmap⟩, houtside⟩
    · exact .inl htext
    · exact .inr ⟨program, hprogram, .inl hpanics⟩
    · exact .inr ⟨program, hprogram, .inr ⟨transformProgram_returns.mp ⟨map, hmap⟩,
        (exists_outside_iff hmap).mp houtside⟩⟩
  · intro h
    rcases h with htext | ⟨program, hprogram, hpanics | ⟨hreads, houtside⟩⟩
    · exact .inl (.inl htext)
    · exact .inl (.inr ⟨program, hprogram, hpanics⟩)
    · obtain ⟨map, hmap⟩ := transformProgram_returns.mpr hreads
      exact .inr ⟨map, ⟨program, hprogram, hmap⟩, (exists_outside_iff hmap).mpr houtside⟩

/-- The maps of the units that were read, put together. -/
lemma sourceMaps_panics (h : dwarf.units.mapM (transformUnit dwarf) = .ok units) :
    (sourceMaps dwarf units.reduceOption >>= newSourceMap) = .error .panic ↔
      (∃ header ∈ dwarf.units, ∃ unit : CompilationUnit, header = .ok unit ∧
        ∃ root program, unit.ReadsProgram dwarf root program ∧
          program.RowOutside fun _ => true) ∨ dwarf.units = [] ∧ dwarf.FirstPanics := by
  rw [sourceMaps]
  cases hunits : dwarf.units with
  | nil =>
    rw [← first_panics]
    simp only [List.not_mem_nil, false_and, exists_false, false_or, true_and]
    cases transformDebugLineWithoutDebugInfo dwarf <;> rfl
  | cons header rest =>
    rw [← hunits, ← outside_units h, ← newSourceMap_panics]
    simp [hunits]

end Binaries

/-- The binaries for which it panics. -/
lemma transformDwarf_eq_panic {parsed : Except String Sections} :
    transformDwarf parsed = .error .panic ↔ ∃ dwarf, parsed = .ok dwarf ∧ dwarf.Panics := by
  rw [transformDwarf, tryOk_bind_panics]
  apply exists_congr
  intro dwarf
  apply and_congr_right'
  rw [bind_eq_error, mapM_eq_error, Sections.Panics]
  apply or_congr (firstIs_congr (fun _ => transformUnit_returns) (fun _ => transformUnit_panics))
  simp only [tryOk_bind_panics, ← transformUnit_returns, ← mapM_returns]
  constructor
  · intro h
    obtain ⟨units, hunits, _, hend, h⟩ := h
    refine ⟨⟨units, hunits⟩, hend, ?_⟩
    rw [← sourceMaps_panics hunits]
    rcases bind_eq_error.mp h with hmaps | ⟨maps, hmaps, h⟩
    · exact bind_eq_error.mpr (.inl hmaps)
    · rcases bind_eq_error.mp h with hmap | ⟨_, _, hreturn⟩
      · exact bind_eq_error.mpr (.inr ⟨maps, hmaps, hmap⟩)
      · cases hreturn
  · intro h
    obtain ⟨⟨units, hunits⟩, hend, h⟩ := h
    refine ⟨units, hunits, (), hend, ?_⟩
    rw [← sourceMaps_panics hunits] at h
    rcases bind_eq_error.mp h with hmaps | ⟨maps, hmaps, hmap⟩
    · exact bind_eq_error.mpr (.inl hmaps)
    · exact bind_eq_error.mpr (.inr ⟨maps, hmaps, bind_eq_error.mpr (.inl hmap)⟩)

/-- What is no panic is a map or an error. -/
lemma returns_or_error_iff {parsed : Except String Sections} :
    ((∃ info, transformDwarf parsed = .ok info) ∨
        ∃ text, transformDwarf parsed = .error (.error text)) ↔
      transformDwarf parsed ≠ .error .panic := by
  cases transformDwarf parsed with
  | ok info => simp
  | error failure => cases failure <;> simp

/-- The binaries that have a map or an error: those of which nothing panics. -/
theorem transformDwarf_returns_iff (parsed : Except String Sections) :
    ((∃ info, transformDwarf parsed = .ok info) ∨
        ∃ text, transformDwarf parsed = .error (.error text)) ↔
      ∀ dwarf, parsed = .ok dwarf → ¬dwarf.Panics := by
  rw [returns_or_error_iff, ne_eq, transformDwarf_eq_panic]
  simp

/-- A binary without units: a program of version 4 with one file, and a row for file 0. -/
def rowOfFileZero : Sections where
  strings := ⟨fun _ => .ok "main.mo", fun _ => .ok "main.mo", fun _ => ""⟩
  units := []
  unitsEnd := .ok ()
  program := fun _ => .ok
    { header := ⟨4, [], [⟨.string [], 0⟩]⟩
      rows := [⟨0, 0, some 1, .leftEdge, false⟩]
      rowsEnd := .ok () }

/-- The first file of version 4 has the index 1. -/
theorem transformDwarf_rowOfFileZero :
    ¬∀ parsed, (∃ info, transformDwarf parsed = .ok info) ∨
      ∃ text, transformDwarf parsed = .error (.error text) := by
  intro h
  have hreads : IncompleteLineProgram.Reads
      (cloneStringAttributeWithOutUnit rowOfFileZero.strings) none ⟨⟨4, [], [⟨.string [], 0⟩]⟩, [⟨0, 0, some 1, .leftEdge, false⟩], .ok ()⟩ := by
    refine ⟨⟨["./"], ⟨[], .nil, rfl⟩, ?_⟩, rfl⟩
    rw [List.forall_mem_singleton]
    exact ⟨"./", "main.mo", rfl, rfl, fun hbad => nomatch hbad.2⟩
  have hpanics : rowOfFileZero.Panics := by
    refine .inr ⟨List.forall_mem_nil _, rfl, .inr ⟨rfl, .inr ⟨_, rfl, .inr ⟨hreads, ?_⟩⟩⟩⟩
    exact ⟨⟨0, 0, some 1, .leftEdge, false⟩, ⟨[], [], rfl, List.forall_mem_nil _⟩, .inl (by decide)⟩
  exact returns_or_error_iff.mp (h (.ok rowOfFileZero))
    (transformDwarf_eq_panic.mpr ⟨_, rfl, hpanics⟩)

end Dwarf

end MotokoDebugger
