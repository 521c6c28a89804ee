import MotokoDebugger.Debugger.SourceMap
import MotokoDebugger.Dwarf.LineTables

/-!
# Instructions of the main file

`DwarfSourceMap::new` in `debugger/src/dwarf/mod.rs` collects the addresses of the rows with the
file index 0, on which `execute_inst` stops.

* `mem_instInFile0_iff`: the units for which these are the addresses where the search finds a row
  with that index.
-/

namespace MotokoDebugger

namespace Dwarf

open SortedMaps Debugger

/-- The rows of some units with their addresses and units, in the order of their insertion. -/
def unitRows (units : List DwarfUnitSourceMap) : List (Nat × DwarfUnitSourceMap × LineRow) :=
  units.flatMap fun unit => unit.addressSortedRows.map fun (addr, row) => (addr, unit, row)

/-- The search finds the line of the last row at the address, and the row has the file index 0. -/
def ReportsFileZero (units : List DwarfUnitSourceMap) (map : DwarfSourceMap) (addr : Nat) : Prop :=
  ∃ unit row, Kept (unitRows units) (addr, unit, row) ∧
    map.findLineInfo addr = unit.transformLineinfo row ∧ row.fileIndex = 0

/-- Where a unit has a row with the file index 0, the last row at its address has it too. -/
def FileZeroLast (units : List DwarfUnitSourceMap) : Prop :=
  ∀ addr unit row, (addr, unit, row) ∈ unitRows units → row.fileIndex = 0 →
    ∀ unit' row', Kept (unitRows units) (addr, unit', row') → row'.fileIndex = 0

section Units

variable {units : List DwarfUnitSourceMap} {map : DwarfSourceMap}

lemma mem_unitRows {addr : Nat} {unit : DwarfUnitSourceMap} {row : LineRow} :
    (addr, unit, row) ∈ unitRows units ↔ unit ∈ units ∧ (addr, row) ∈ unit.addressSortedRows := by
  rw [unitRows, List.mem_flatMap]
  constructor
  · intro h
    obtain ⟨unit', hunit, hmem⟩ := h
    obtain ⟨entry, hentry, heq⟩ := List.mem_map.mp hmem
    cases heq
    exact ⟨hunit, hentry⟩
  · intro h
    exact ⟨unit, h.1, List.mem_map.mpr ⟨(addr, row), h.2, rfl⟩⟩

/-- The line of a row, where it has a file. -/
def lineInfoOf (entry : Nat × DwarfUnitSourceMap × LineRow) : LineInfo :=
  (entry.2.1.transformLineinfo entry.2.2).getD ⟨"", none, .leftEdge⟩

/-- What `DwarfSourceMap::new` makes of units whose rows all have files. -/
lemma new_eq_some (h : DwarfSourceMap.new units = some map) :
    (∀ entry ∈ unitRows units, entry.2.1.transformLineinfo entry.2.2 = some (lineInfoOf entry)) ∧
      map.directoryMap = [] ∧
      map.addressSortedRows = collect ((unitRows units).map fun entry =>
        (entry.1, lineInfoOf entry)) ∧
      map.instInFile0 = ((unitRows units).filter fun entry => entry.2.2.fileIndex = 0).map Prod.fst
    := by
  have hinfo : ∀ entry ∈ unitRows units,
      entry.2.1.transformLineinfo entry.2.2 = some (lineInfoOf entry) := by
    intro entry hentry
    obtain ⟨hunit, hrow⟩ := mem_unitRows.mp hentry
    have hsome : entry.2.1.transformLineinfo entry.2.2 ≠ none := by
      intro hnone
      rw [new_eq_none.mpr ⟨_, hunit, _, hrow, hnone⟩] at h
      cases h
    obtain ⟨lineInfo, hlineInfo⟩ := Option.ne_none_iff_exists'.mp hsome
    rw [lineInfoOf, hlineInfo]
    rfl
  have hrows : (units.mapM fun unit => unit.addressSortedRows.mapM (infoEntry unit)) =
      some (units.map fun unit => unit.addressSortedRows.map fun entry =>
        (entry.1, lineInfoOf (entry.1, unit, entry.2))) := by
    apply mapM_eq_some_map
    intro unit hunit
    apply mapM_eq_some_map
    intro entry hentry
    rw [infoEntry, hinfo (entry.1, unit, entry.2) (mem_unitRows.mpr ⟨hunit, hentry⟩)]
    rfl
  have hmap : ((units.mapM fun unit => unit.addressSortedRows.mapM (infoEntry unit)) >>= fun rows =>
      some (⟨collect rows.flatten, units.flatMap fun unit =>
        (unit.addressSortedRows.filter fun (_, row) => row.fileIndex = 0).map Prod.fst, []⟩ :
          DwarfSourceMap)) = some map := h
  rw [hrows] at hmap
  cases hmap
  refine ⟨hinfo, rfl, ?_, ?_⟩
  · show collect _ = collect _
    rw [unitRows, List.map_flatMap, List.flatMap_def]
    congr 2
    apply List.map_congr_left
    intro unit _
    rw [List.map_map]
    rfl
  · show List.flatMap _ units = _
    rw [unitRows, List.filter_flatMap, List.map_flatMap]
    congr 1
    funext unit
    rw [List.filter_map, List.map_map]
    rfl

/-- The search at the address of a row finds the line of the last row there. -/
lemma findLineInfo_kept (h : DwarfSourceMap.new units = some map)
    {entry : Nat × DwarfUnitSourceMap × LineRow} (hkept : Kept (unitRows units) entry) :
    map.findLineInfo entry.1 = entry.2.1.transformLineinfo entry.2.2 := by
  obtain ⟨hinfo, hdirectories, hrows, _⟩ := new_eq_some h
  rw [findLineInfo_eq_floor hdirectories hrows, floor_map, hkept.floor, hinfo entry hkept.mem]
  rfl

/-- The addresses of the main file are those where the search finds a row with the file index 0 iff
such a row is always the last one at its address. -/
theorem mem_instInFile0_iff (h : DwarfSourceMap.new units = some map) :
    (∀ addr, addr ∈ map.instInFile0 ↔ ReportsFileZero units map addr) ↔ FileZeroLast units := by
  have hmem : ∀ addr, addr ∈ map.instInFile0 ↔
      ∃ unit row, (addr, unit, row) ∈ unitRows units ∧ row.fileIndex = 0 := by
    intro addr
    rw [(new_eq_some h).2.2.2]
    simp
  constructor
  · intro hexact addr unit row hrow hzero unit' row' hkept
    obtain ⟨unit'', row'', hlast, _, hlastZero⟩ :=
      (hexact addr).mp ((hmem addr).mpr ⟨unit, row, hrow, hzero⟩)
    have heq := hkept.eq hlast rfl
    cases heq
    exact hlastZero
  · intro hlast addr
    rw [hmem]
    constructor
    · intro hrow
      obtain ⟨unit, row, hrow, hzero⟩ := hrow
      obtain ⟨⟨_, unit', row'⟩, hkept, rfl⟩ := exists_kept hrow
      exact ⟨unit', row', hkept, findLineInfo_kept h hkept,
        hlast _ unit row hrow hzero unit' row' hkept⟩
    · intro hreports
      obtain ⟨unit, row, hkept, _, hzero⟩ := hreports
      exact ⟨unit, row, hkept.mem, hzero⟩

end Units

/-- A unit of version 5 with two files and one row, at the address 0. -/
def unitAtZero (fileIndex : Nat) : DwarfUnitSourceMap where
  addressSortedRows := [(0, ⟨0, fileIndex, some 1, .leftEdge, false⟩)]
  paths := ["main.mo", "prelude.mo"]
  sequenceBaseIndex := 0

theorem mem_instInFile0_iff_twoRows : ∃ map,
    DwarfSourceMap.new [unitAtZero 1, unitAtZero 0] = some map ∧
      ((∀ addr, addr ∈ map.instInFile0 ↔
          ReportsFileZero [unitAtZero 1, unitAtZero 0] map addr) ↔
        FileZeroLast [unitAtZero 1, unitAtZero 0]) :=
  ⟨_, rfl, mem_instInFile0_iff rfl⟩

/-- The row of a later unit replaces a row of the main file, but its address stays. -/
theorem instInFile0_replaced :
    ¬∀ units map, DwarfSourceMap.new units = some map →
      ∀ addr, addr ∈ map.instInFile0 ↔ ReportsFileZero units map addr := by
  intro h
  obtain ⟨map, hmap⟩ : ∃ map, DwarfSourceMap.new [unitAtZero 0, unitAtZero 1] = some map := ⟨_, rfl⟩
  have hmem : 0 ∈ map.instInFile0 := by
    cases hmap
    decide
  obtain ⟨unit, row, hkept, _, hzero⟩ := (h _ map hmap 0).mp hmem
  have hlast : Kept (unitRows [unitAtZero 0, unitAtZero 1])
      (0, unitAtZero 1, ⟨0, 1, some 1, .leftEdge, false⟩) :=
    ⟨[(0, unitAtZero 0, ⟨0, 0, some 1, .leftEdge, false⟩)], [], rfl, List.forall_mem_nil _⟩
  have heq := hkept.eq hlast rfl
  cases heq
  exact absurd hzero (by decide)

end Dwarf

end MotokoDebugger
