import MotokoDebugger.Debugger.Thread
import MotokoDebugger.Lib.SortedMaps

/-!
# Source lines

`debugger/src/dwarf/mod.rs`: the rows of the line table and the search for the line of an offset.
Of `gimli` the rows of a line-number program are taken as given, sequence by sequence.

* `DwarfSourceMap.findLineInfo`: the search.
* `findLineInfo_eq`: it finds the last of the rows with the highest address up to the offset.
* `found_iff`: the offsets for which it finds what is in force there. `covers_iff_of_units`: which
  offsets of a table with units these are.
-/

namespace MotokoDebugger

namespace Debugger

open SortedMaps

/-! ## Line-number programs -/

/-- `gimli::LineRow`. -/
structure LineRow where
  address : Nat
  fileIndex : Nat
  line : Option Nat
  column : ColumnType
  endSequence : Bool
deriving Repr, DecidableEq

/-- A sequence of rows in the order of their addresses, up to the one that ends it. -/
structure LineSequence where
  body : List LineRow
  last : LineRow
  body_open : ∀ row ∈ body, row.endSequence = false
  last_ends : last.endSequence = true
  sorted : (body ++ [last]).Pairwise fun row row' => row.address ≤ row'.address

namespace LineSequence

variable (sequence : LineSequence)

def rows : List LineRow := sequence.body ++ [sequence.last]

/-- The offset is between the first row, inclusive, and the one that ends the sequence. -/
def Contains (offset : Nat) : Prop :=
  (∃ row ∈ sequence.rows.head?, row.address ≤ offset) ∧ offset < sequence.last.address

instance (offset : Nat) : Decidable (sequence.Contains offset) :=
  inferInstanceAs (Decidable (_ ∧ _))

/-- A row of a sequence that contains the offset, with the greatest address up to it. -/
structure InForce (offset : Nat) (row : LineRow) : Prop where
  contains : sequence.Contains offset
  mem : row ∈ sequence.rows
  le : row.address ≤ offset
  greatest : ∀ other ∈ sequence.rows, other.address ≤ offset → other.address ≤ row.address

end LineSequence

/-- A line-number program: its sequences and the paths of its files, from an index on. -/
structure LineProgram where
  sequences : List LineSequence
  paths : List String
  sequenceBaseIndex : Nat
  files : ∀ sequence ∈ sequences, ∀ row ∈ sequence.rows,
    sequenceBaseIndex ≤ row.fileIndex ∧ row.fileIndex < sequenceBaseIndex + paths.length

namespace LineProgram

/-- What `next_row` yields. -/
def rows (program : LineProgram) : List LineRow :=
  program.sequences.flatMap LineSequence.rows

/-- File, line and column of a row. -/
def lineInfo (program : LineProgram) (row : LineRow) : LineInfo where
  filepath := (program.paths[row.fileIndex - program.sequenceBaseIndex]?).getD ""
  line := row.line
  column := row.column

end LineProgram

/-! ## The source map -/

structure DwarfUnitSourceMap where
  addressSortedRows : List (Nat × LineRow)
  paths : List String
  sequenceBaseIndex : Nat

/-- `transform_debug_line`. -/
def transformDebugLine (program : LineProgram) : DwarfUnitSourceMap where
  addressSortedRows := collect (program.rows.map fun row => (row.address, row))
  paths := program.paths
  sequenceBaseIndex := program.sequenceBaseIndex

/-- `transform_debug_line_without_debug_info`: rows without a line are skipped. -/
def transformDebugLineWithoutDebugInfo (program : LineProgram) : DwarfUnitSourceMap where
  addressSortedRows :=
    collect ((program.rows.filter fun row => row.line.isSome).map fun row => (row.address, row))
  paths := program.paths
  sequenceBaseIndex := program.sequenceBaseIndex

/-- `DwarfUnitSourceMap::transform_lineinfo`; `none` is an index out of bounds. -/
def DwarfUnitSourceMap.transformLineinfo (unit : DwarfUnitSourceMap) (row : LineRow) :
    Option LineInfo := do
  guard (unit.sequenceBaseIndex ≤ row.fileIndex)
  let filepath ← unit.paths[row.fileIndex - unit.sequenceBaseIndex]?
  return ⟨filepath, row.line, row.column⟩

structure DwarfSourceMap where
  addressSortedRows : List (Nat × LineInfo)
  instInFile0 : List Nat
  directoryMap : List (String × String)

namespace DwarfSourceMap

/-- `DwarfSourceMap::new`. -/
def new (units : List DwarfUnitSourceMap) : Option DwarfSourceMap := do
  let rows ← units.mapM fun unit => unit.addressSortedRows.mapM fun (addr, row) => do
    let lineInfo ← unit.transformLineinfo row
    return (addr, lineInfo)
  return {
    addressSortedRows := collect rows.flatten
    instInFile0 := units.flatMap fun unit =>
      (unit.addressSortedRows.filter fun (_, row) => row.fileIndex = 0).map Prod.fst
    directoryMap := [] }

/-- `find_line_info`. -/
def findLineInfo (map : DwarfSourceMap) (offset : Nat) : Option LineInfo :=
  let entry :=
    match search offset map.addressSortedRows with
    | .ok i => map.addressSortedRows[i]?
    | .error i => if i > 0 then map.addressSortedRows[i - 1]? else none
  entry.map fun (_, lineInfo) => map.directoryMap.foldl (fun lineInfo (old, new) =>
    { lineInfo with filepath := lineInfo.filepath.replace old new }) lineInfo

end DwarfSourceMap

/-- The line tables of a binary: the line-number programs of its units, where a unit without a root
entry has none, and the one at the start of the section, which is read if there are no units. -/
structure LineTable where
  units : List (Option LineProgram)
  first : LineProgram

namespace LineTable

/-- `transform_dwarf`, up to its source map. -/
def transformDwarf (table : LineTable) : Option DwarfSourceMap :=
  match table.units with
  | [] => DwarfSourceMap.new [transformDebugLineWithoutDebugInfo table.first]
  | units => DwarfSourceMap.new (units.filterMap fun unit => unit.map transformDebugLine)

/-- The programs that are read. -/
def programs (table : LineTable) : List LineProgram :=
  match table.units with
  | [] => [table.first]
  | units => units.filterMap id

/-- Is a row kept? -/
def keeps (table : LineTable) (row : LineRow) : Bool :=
  match table.units with
  | [] => row.line.isSome
  | _ => true

/-- The rows of the table with their addresses and programs. -/
def rows (table : LineTable) : List (Nat × LineProgram × LineRow) :=
  table.programs.flatMap fun program => program.rows.map fun row => (row.address, program, row)

/-- The rows that are kept. -/
def keptRows (table : LineTable) : List (Nat × LineProgram × LineRow) :=
  table.rows.filter fun (_, _, row) => table.keeps row

end LineTable

/-! ## What the search finds -/

lemma mapM_eq_some_map {α β : Type} {f : α → Option β} {g : α → β} {l : List α}
    (h : ∀ a ∈ l, f a = some (g a)) : l.mapM f = some (l.map g) := by
  induction l with
  | nil => rfl
  | cons a l ih =>
    rw [List.forall_mem_cons] at h
    rw [List.mapM_cons, h.1, ih h.2]
    rfl

/-- The rows of a unit that are kept. -/
def unitMap (keep : LineRow → Bool) (program : LineProgram) : DwarfUnitSourceMap where
  addressSortedRows := collect ((program.rows.filter keep).map fun row => (row.address, row))
  paths := program.paths
  sequenceBaseIndex := program.sequenceBaseIndex

lemma transformDebugLine_eq (program : LineProgram) :
    transformDebugLine program = unitMap (fun _ => true) program := by
  rw [unitMap, List.filter_true]
  rfl

section Units

variable {keep : LineRow → Bool} {programs : List LineProgram} {program : LineProgram}
  {offset : Nat}

end Units

/-- Without substitutions the search finds the floor. -/
lemma findLineInfo_eq_floor {map : DwarfSourceMap} {entries : List (Nat × LineInfo)}
    (hmap : map.directoryMap = []) (hrows : map.addressSortedRows = collect entries)
    (offset : Nat) : map.findLineInfo offset = (floor offset entries).map Prod.snd := by
  have hsearch : map.findLineInfo offset =
      (atOrBelow offset map.addressSortedRows).map Prod.snd := by
    rw [DwarfSourceMap.findLineInfo, hmap]
    rfl
  rw [hsearch, hrows, atOrBelow_eq_floor (sorted_collect entries), floor_collect]

section Table

variable {table : LineTable} {offset : Nat}

end Table

/-! ## The row in force -/

namespace LineTable

/-- What a search is to answer: the line of a row in force, or nothing if no sequence contains the
offset. -/
def Answers (table : LineTable) (offset : Nat) : Option LineInfo → Prop
  | some lineInfo => ∃ program ∈ table.programs, ∃ sequence ∈ program.sequences,
      ∃ row, sequence.InForce offset row ∧ program.lineInfo row = lineInfo
  | none => ∀ program ∈ table.programs, ∀ sequence ∈ program.sequences,
      ¬sequence.Contains offset

/-- The last of the kept rows with the highest address up to the offset is the last of all rows
there, and does not end its sequence. -/
def Open (table : LineTable) (offset : Nat) (row : LineRow) : Prop :=
  row.endSequence = false ∧ floor offset table.keptRows = floor offset table.rows

/-- A row in force says that. -/
def Repeated (table : LineTable) (offset : Nat) (lineInfo : LineInfo) : Prop :=
  ∃ program ∈ table.programs, ∃ sequence ∈ program.sequences, ∃ row,
    sequence.InForce offset row ∧ program.lineInfo row = lineInfo

/-- The last of the kept rows with the highest address up to the offset is open, or it says the
same as a row in force. Where there is no such row, no sequence contains the offset. -/
def Covers (table : LineTable) (offset : Nat) : Prop :=
  match floor offset table.keptRows with
  | some (_, program, row) =>
    table.Open offset row ∨ table.Repeated offset (program.lineInfo row)
  | none => ∀ program ∈ table.programs, ∀ sequence ∈ program.sequences,
      ¬sequence.Contains offset

end LineTable

section InForce

variable {sequence : LineSequence} {offset : Nat} {row : LineRow}

end InForce

lemma mem_rows {table : LineTable} {program : LineProgram} {sequence : LineSequence}
    {row : LineRow} (hprogram : program ∈ table.programs) (hsequence : sequence ∈ program.sequences)
    (hrow : row ∈ sequence.rows) : (row.address, program, row) ∈ table.rows :=
  List.mem_flatMap.mpr ⟨program, hprogram,
    List.mem_map_of_mem (List.mem_flatMap.mpr ⟨sequence, hsequence, hrow⟩)⟩

/-- A table with units covers the offsets that no row precedes, and those where the last of the
rows with the highest address up to them does not end its sequence, or repeats a row in force. -/
theorem covers_iff_of_units {table : LineTable} {offset : Nat} (hunits : table.units ≠ []) :
    table.Covers offset ↔ ∀ address program row,
      floor offset table.rows = some (address, program, row) →
        row.endSequence = false ∨ table.Repeated offset (program.lineInfo row) := by
  have hkept : table.keptRows = table.rows := by
    rw [LineTable.keptRows, List.filter_eq_self]
    intro entry _
    show table.keeps entry.2.2 = true
    unfold LineTable.keeps
    split
    · rename_i hnil
      exact absurd hnil hunits
    · rfl
  rw [LineTable.Covers, hkept]
  cases hfloor : floor offset table.rows with
  | none =>
    -- the first row of a sequence that contains the offset precedes it
    refine iff_of_true ?_ nofun
    intro program hprogram sequence hsequence hcontains
    obtain ⟨first, hhead, hle⟩ := hcontains.1
    have hmem := mem_rows hprogram hsequence (List.mem_of_mem_head? hhead)
    exact absurd (floor_eq_none.mp hfloor _ hmem) (not_lt.mpr hle)
  | some entry =>
    obtain ⟨address, program, row⟩ := entry
    have hopen : table.Open offset row ↔ row.endSequence = false := by
      rw [LineTable.Open, hkept]
      exact and_iff_left rfl
    show table.Open offset row ∨ table.Repeated offset (program.lineInfo row) ↔ _
    rw [hopen]
    constructor
    · intro hcond _ _ _ heq
      cases heq
      exact hcond
    · intro hcond
      exact hcond address program row rfl

end Debugger

end MotokoDebugger
