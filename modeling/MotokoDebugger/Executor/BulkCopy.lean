import MotokoDebugger.Executor.Atomic

/-!
# Bulk copies

`memory.copy` and `table.copy` copy within an entity where both indices of the instruction are the
same, and between two entities otherwise.

* `SimultaneousCopy`: the cells after a copy that reads everything before it writes.
* `BulkCopy`: the operands and the two entities of a copy, and `Behaves`, what the copy may do.
* `memoryCopy_onMemories_iff`, `tableCopy_onTables_iff`: a copy does so iff its two indices are the
  same or stand for two entities.
-/

namespace MotokoDebugger

/-! ## Copies of cells -/

section Cells

variable {α : Type}

/-- `after` is `before` with `len` cells of `source` from `src` on at `dst`. -/
def SimultaneousCopy (before source : List α) (dst src len : Nat) (after : List α) : Prop :=
  ∀ i, after[i]? = if dst ≤ i ∧ i < dst + len then source[src + (i - dst)]? else before[i]?

/-- Overwriting cells with a slice of others is a simultaneous copy. -/
lemma simultaneousCopy_overwrite {before source : List α} {dst src len : Nat}
    (hdst : dst + len ≤ before.length) (hsrc : src + len ≤ source.length) :
    SimultaneousCopy before source dst src len
      (overwrite before dst ((source.drop src).take len)) := by
  intro i
  have htake : (before.take dst).length = dst := by
    rw [List.length_take]
    omega
  have hslice : ((source.drop src).take len).length = len := by
    rw [List.length_take, List.length_drop]
    omega
  unfold overwrite
  rw [List.append_assoc, hslice]
  by_cases hlow : i < dst
  · rw [List.getElem?_append_left (by omega), List.getElem?_take_of_lt hlow, if_neg (by omega)]
  · rw [List.getElem?_append_right (by omega), htake]
    by_cases hin : i < dst + len
    · rw [List.getElem?_append_left (by omega), List.getElem?_take_of_lt (by omega),
        List.getElem?_drop, if_pos (by omega)]
    · rw [List.getElem?_append_right (by omega), hslice, List.getElem?_drop, if_neg (by omega)]
      congr 1
      omega

end Cells

namespace Executor

open StateExcept

variable {T : Type} {env : Engine T}

/-! ## The operands of a copy -/

/-- The operands of a bulk copy, the two indices behind it and what these stand for. -/
structure BulkCopy where
  dst : Nat
  src : Nat
  len : Nat
  dstIndex : Nat
  srcIndex : Nat
  dstHandle : Nat
  srcHandle : Nat

/-- An instruction with the operands `dst`, `src` and `len` reads `copy`; `fetch` reads its index
words and `get` an index space of the instance. -/
structure ReadsCopy (fetch : Nat → LocalM T Nat) (get : Nat → LocalM T Nat) (dst src len : Operand)
    (l : Local T) (copy : BulkCopy) : Prop where
  dst : operand dst l = .ok copy.dst l
  src : operand src l = .ok copy.src l
  len : operand len l = .ok copy.len l
  dstIndex : fetch 1 l = .ok copy.dstIndex l
  srcIndex : fetch 2 l = .ok copy.srcIndex l
  dstHandle : get copy.dstIndex l = .ok copy.dstHandle l
  srcHandle : get copy.srcIndex l = .ok copy.srcHandle l

/-- Equal indices stand for the same entity. -/
lemma ReadsCopy.handle_eq {fetch get : Nat → LocalM T Nat} {dst src len : Operand} {l : Local T}
    {copy : BulkCopy} (h : ReadsCopy fetch get dst src len l copy)
    (hindex : copy.dstIndex = copy.srcIndex) : copy.dstHandle = copy.srcHandle := by
  have hdst := h.dstHandle
  rw [hindex, h.srcHandle] at hdst
  injection hdst with heq
  exact heq.symm

/-- The copy works on one entity under one index, or on two entities. -/
def BulkCopy.Unaliased (copy : BulkCopy) : Prop :=
  copy.dstIndex = copy.srcIndex ∨ copy.dstHandle ≠ copy.srcHandle

/-- The memories and tables are as they were. -/
def SameEntities (l l' : Local T) : Prop :=
  l'.store.memories = l.store.memories ∧ l'.store.tables = l.store.tables

/-- A bulk copy on the memories: one simultaneous copy, or a trap that changes nothing. -/
inductive BulkCopy.OnMemories (copy : BulkCopy) (l : Local T) :
    EStateM.Result Stop (Local T) Unit → Prop where
  | copied {l' : Local T} {source before : MemoryEntity} {after : List Byte}
    (hsource : l.store.memories[copy.srcHandle]? = some source)
    (hbefore : l.store.memories[copy.dstHandle]? = some before)
    (hcopy : SimultaneousCopy before.bytes source.bytes copy.dst copy.src copy.len after)
    (hmemories : l'.store.memories =
      l.store.memories.set copy.dstHandle { before with bytes := after })
    (htables : l'.store.tables = l.store.tables) : OnMemories copy l (.ok () l')
  | trapped {l' : Local T} {code : TrapCode} (hsame : SameEntities l l') :
    OnMemories copy l (.error (.trap code) l')

/-- A bulk copy on the tables. -/
inductive BulkCopy.OnTables (copy : BulkCopy) (l : Local T) :
    EStateM.Result Stop (Local T) Unit → Prop where
  | copied {l' : Local T} {source before : TableEntity} {after : List UntypedVal}
    (hsource : l.store.tables[copy.srcHandle]? = some source)
    (hbefore : l.store.tables[copy.dstHandle]? = some before)
    (hcopy : SimultaneousCopy before.elements source.elements copy.dst copy.src copy.len after)
    (htables : l'.store.tables =
      l.store.tables.set copy.dstHandle { before with elements := after })
    (hmemories : l'.store.memories = l.store.memories) : OnTables copy l (.ok () l')
  | trapped {l' : Local T} {code : TrapCode} (hsame : SameEntities l l') :
    OnTables copy l (.error (.trap code) l')

/-! ## Memories -/

lemma resolve_apply {E : Type} {arena : Store T → List E} {index : Nat} {entity : E} {l : Local T}
    (h : (arena l.store)[index]? = some entity) : resolve arena index l = .ok entity l := by
  rw [resolve, get_bind, h]
  rfl

lemma bytesAt_cases (bytes : List Byte) (start len : Nat) (l : Local T) :
    (∃ slice, slice? bytes start len = some slice ∧ bytesAt bytes start len l = .ok slice l) ∨
      bytesAt bytes start len l = .error (.trap .memoryOutOfBounds) l := by
  unfold bytesAt
  cases hslice : slice? bytes start len with
  | none => exact .inr rfl
  | some slice => exact .inl ⟨slice, rfl, rfl⟩

/-- Both paths of `memory.copy` end alike. -/
lemma memoryCopy_tail {l : Local T} {copy : BulkCopy} {source before : MemoryEntity}
    (hsource : l.store.memories[copy.srcHandle]? = some source)
    (hbefore : l.store.memories[copy.dstHandle]? = some before) :
    copy.OnMemories l ((do
      let srcBytes ← bytesAt source.bytes copy.src copy.len
      let _ ← bytesAt before.bytes copy.dst copy.len
      writeBytes copy.dstHandle before copy.dst srcBytes
      nextInstrAt 3 : LocalM T Unit) l) := by
  rcases bytesAt_cases source.bytes copy.src copy.len l with ⟨srcBytes, hsrc, h⟩ | h
  · rw [bind_ok h]
    rcases bytesAt_cases before.bytes copy.dst copy.len l with ⟨dstBytes, hdst, h⟩ | h
    · rw [bind_ok h]
      obtain ⟨hsrcLen, rfl⟩ := slice?_eq_some.mp hsrc
      obtain ⟨hdstLen, -⟩ := slice?_eq_some.mp hdst
      simp only [writeBytes, bind_assoc]
      rw [get_bind]
      cases hfuel : l.store.fuel.consumeFuelIf
          (·.fuelForBytes ((source.bytes.drop copy.src).take copy.len).length) with
      | error code => exact .trapped ⟨rfl, rfl⟩
      | ok fuel =>
        exact .copied hsource hbefore (simultaneousCopy_overwrite hdstLen hsrcLen) rfl rfl
    · rw [bind_error h]
      exact .trapped ⟨rfl, rfl⟩
  · rw [bind_error h]
    exact .trapped ⟨rfl, rfl⟩

/-- `memory.copy` copies at once or traps without an effect, iff the two indices do not stand for
one memory. -/
theorem memoryCopy_onMemories_iff {l : Local T} {copy : BulkCopy} {dst src len : Operand}
    {source before : MemoryEntity}
    (hreads : ReadsCopy (fetchMemoryIndex env) getMemory dst src len l copy)
    (hsource : l.store.memories[copy.srcHandle]? = some source)
    (hbefore : l.store.memories[copy.dstHandle]? = some before) :
    copy.OnMemories l (executeMemoryCopy env dst src len l) ↔ copy.Unaliased := by
  unfold executeMemoryCopy
  rw [bind_ok hreads.dst, bind_ok hreads.src, bind_ok hreads.len, bind_ok hreads.dstIndex,
    bind_ok hreads.srcIndex]
  by_cases hindex : copy.srcIndex = copy.dstIndex
  · have hhandle := hreads.handle_eq hindex.symm
    have hentity : source = before := by
      rw [hhandle, hsource] at hbefore
      exact Option.some.inj hbefore
    rw [if_pos hindex, bind_ok hreads.srcHandle, bind_ok (resolve_apply hsource)]
    have htail := memoryCopy_tail hsource hbefore
    rw [hentity, hhandle] at htail
    rw [hentity]
    exact iff_of_true htail (.inl hindex.symm)
  · rw [if_neg hindex, bind_ok hreads.srcHandle, bind_ok hreads.dstHandle]
    by_cases hhandle : copy.srcHandle = copy.dstHandle
    · rw [if_pos hhandle]
      refine iff_of_false ?_ ?_
      · intro h
        cases h
      · rintro (h | h)
        · exact hindex h.symm
        · exact h hhandle.symm
    · rw [if_neg hhandle]
      dsimp only
      rw [bind_ok (resolve_apply hsource), bind_ok (resolve_apply hbefore)]
      exact iff_of_true (memoryCopy_tail hsource hbefore) (.inr fun h => hhandle h.symm)

/-! ## Tables -/

/-- What an operation on a table does to it: one simultaneous copy, or a trap. -/
inductive TableCopied (source before : TableEntity) (dst src len : Nat) :
    Except TrapCode (TableEntity × Fuel) → Prop where
  | copied {after : List UntypedVal} {fuel : Fuel}
    (hcopy : SimultaneousCopy before.elements source.elements dst src len after) :
    TableCopied source before dst src len (.ok ({ before with elements := after }, fuel))
  | trapped {code : TrapCode} : TableCopied source before dst src len (.error code)

/-- Paying for a copy, then making it. -/
lemma tableCopied_of_fuel {source before : TableEntity} {dst src len : Nat} (fuel : Fuel)
    (hdst : dst + len ≤ before.elements.length) (hsrc : src + len ≤ source.elements.length) :
    TableCopied source before dst src len (do
      let fuel ← fuel.consumeFuelIf (·.fuelForCopies len)
      return ({ before with
        elements := overwrite before.elements dst ((source.elements.drop src).take len) }, fuel)) := by
  cases fuel.consumeFuelIf (·.fuelForCopies len) with
  | error code => exact .trapped
  | ok fuel' => exact .copied (simultaneousCopy_overwrite hdst hsrc)

lemma tableCopied_copy (source before : TableEntity) (dst src len : Nat) (fuel : Fuel) :
    TableCopied source before dst src len (before.copy dst source src len fuel) := by
  unfold TableEntity.copy
  cases hdst : slice? before.elements dst len with
  | none => exact .trapped
  | some dstItems =>
    cases hsrc : slice? source.elements src len with
    | none => exact .trapped
    | some srcItems =>
      obtain ⟨hdstLen, -⟩ := slice?_eq_some.mp hdst
      obtain ⟨hsrcLen, rfl⟩ := slice?_eq_some.mp hsrc
      exact tableCopied_of_fuel fuel hdstLen hsrcLen

lemma tableCopied_copyWithin (table : TableEntity) (dst src len : Nat) (fuel : Fuel) :
    TableCopied table table dst src len (table.copyWithin dst src len fuel) := by
  unfold TableEntity.copyWithin
  by_cases hbounds : u32Max < max dst src + len ∨ table.size < max dst src + len
  · rw [if_pos hbounds]
    exact .trapped
  · rw [if_neg hbounds]
    have hsize : table.size ≤ table.elements.length := Nat.mod_le _ _
    exact tableCopied_of_fuel fuel (by omega) (by omega)

/-- Both paths of `table.copy` end alike. -/
lemma tableCopy_tail {l : Local T} {copy : BulkCopy} {source before : TableEntity}
    {op : TableEntity → Fuel → Except TrapCode (TableEntity × Fuel)}
    (hsource : l.store.tables[copy.srcHandle]? = some source)
    (hbefore : l.store.tables[copy.dstHandle]? = some before)
    (hop : ∀ fuel, TableCopied source before copy.dst copy.src copy.len (op before fuel)) :
    copy.OnTables l ((do
      tableOp copy.dstHandle op
      nextInstrAt 3 : LocalM T Unit) l) := by
  simp only [tableOp, bind_assoc]
  rw [bind_ok (resolve_apply hbefore), get_bind]
  have hcopied := hop l.store.fuel
  generalize op before l.store.fuel = result at hcopied
  cases hcopied with
  | copied hcopy => exact .copied hsource hbefore hcopy rfl rfl
  | trapped => exact .trapped ⟨rfl, rfl⟩

/-- `table.copy` copies at once or traps without an effect, iff the two indices do not stand for
one table. -/
theorem tableCopy_onTables_iff {l : Local T} {copy : BulkCopy} {dst src len : Operand}
    {source before : TableEntity}
    (hreads : ReadsCopy (fetchTableIndex env) getTable dst src len l copy)
    (hsource : l.store.tables[copy.srcHandle]? = some source)
    (hbefore : l.store.tables[copy.dstHandle]? = some before) :
    copy.OnTables l (executeTableCopy env dst src len l) ↔ copy.Unaliased := by
  unfold executeTableCopy
  rw [bind_ok hreads.dst, bind_ok hreads.src, bind_ok hreads.len, bind_ok hreads.dstIndex,
    bind_ok hreads.srcIndex]
  by_cases hindex : copy.dstIndex = copy.srcIndex
  · have hhandle := hreads.handle_eq hindex
    have hentity : source = before := by
      rw [hhandle, hsource] at hbefore
      exact Option.some.inj hbefore
    rw [if_pos hindex, bind_ok hreads.dstHandle]
    refine iff_of_true (tableCopy_tail hsource hbefore fun fuel => ?_) (.inl hindex)
    rw [hentity]
    exact tableCopied_copyWithin _ _ _ _ _
  · rw [if_neg hindex, bind_ok hreads.dstHandle, bind_ok hreads.srcHandle]
    by_cases hhandle : copy.dstHandle = copy.srcHandle
    · rw [if_pos hhandle]
      refine iff_of_false ?_ ?_
      · intro h
        cases h
      · rintro (h | h)
        · exact hindex h
        · exact h hhandle
    · rw [if_neg hhandle]
      dsimp only
      rw [bind_ok (resolve_apply hsource)]
      exact iff_of_true (tableCopy_tail hsource hbefore fun fuel => tableCopied_copy _ _ _ _ _ _)
        (.inr hhandle)

/-! ## Both copies -/

/-- A bulk copy is one simultaneous copy or a trap without an effect, iff it is between two
entities or names its one entity by one index. -/
theorem bulkCopy_iff {l : Local T} {copy : BulkCopy} {dst src len : Operand} :
    (∀ source before : MemoryEntity,
      ReadsCopy (fetchMemoryIndex env) getMemory dst src len l copy →
      l.store.memories[copy.srcHandle]? = some source →
      l.store.memories[copy.dstHandle]? = some before →
      (copy.OnMemories l (executeLocal env (.memoryCopy dst src len) l) ↔ copy.Unaliased)) ∧
    ∀ source before : TableEntity,
      ReadsCopy (fetchTableIndex env) getTable dst src len l copy →
      l.store.tables[copy.srcHandle]? = some source →
      l.store.tables[copy.dstHandle]? = some before →
      (copy.OnTables l (executeLocal env (.tableCopy dst src len) l) ↔ copy.Unaliased) :=
  ⟨fun _ _ hreads hsource hbefore => memoryCopy_onMemories_iff hreads hsource hbefore,
    fun _ _ hreads hsource hbefore => tableCopy_onTables_iff hreads hsource hbefore⟩

/-- A copy of one cell from index 1 to index 0 of the memories, and one of the tables. -/
def copyEngine : Engine Unit :=
  Engine.ofCode
    [⟨[⟨1, .memoryCopy (.imm 0) (.imm 1) (.imm 1)⟩, ⟨1, .memoryIndex 0⟩, ⟨1, .memoryIndex 1⟩], [], 0⟩,
      ⟨[⟨1, .tableCopy (.imm 0) (.imm 1) (.imm 1)⟩, ⟨1, .tableIndex 0⟩, ⟨1, .tableIndex 1⟩], [], 0⟩]
    []

/-- A memory of one page. -/
def onePage : MemoryEntity := ⟨List.replicate bytesPerPage 0, 1, none, none⟩

/-- An instance whose two memories and two tables have the handles `0` and `handle`. -/
def copyLocal (func handle : Nat) : Local Unit where
  cells := []
  base := 0
  ip := ⟨func, 0⟩
  cache := ⟨0, none, none⟩
  store :=
    { Store.ofFuncs [] with
      memories := [onePage, onePage]
      tables := [⟨.funcRef, none, [1, 2]⟩, ⟨.funcRef, none, [3, 4]⟩]
      instances := [⟨[], [], [0, handle], [0, handle], [], [], []⟩] }

/-- That copy, as the instructions read it. -/
def oneCell (handle : Nat) : BulkCopy := ⟨0, 1, 1, 0, 1, 0, handle⟩

theorem bulkCopy_iff_oneCell :
    ((oneCell 1).OnMemories (copyLocal 0 1)
        (executeLocal copyEngine (.memoryCopy (.imm 0) (.imm 1) (.imm 1)) (copyLocal 0 1)) ↔
      (oneCell 1).Unaliased) ∧
    ((oneCell 1).OnTables (copyLocal 1 1)
        (executeLocal copyEngine (.tableCopy (.imm 0) (.imm 1) (.imm 1)) (copyLocal 1 1)) ↔
      (oneCell 1).Unaliased) :=
  ⟨bulkCopy_iff.1 onePage onePage
      ⟨rfl, rfl, rfl, rfl, rfl, rfl, rfl⟩ rfl rfl,
    bulkCopy_iff.2 ⟨.funcRef, none, [3, 4]⟩ ⟨.funcRef, none, [1, 2]⟩
      ⟨rfl, rfl, rfl, rfl, rfl, rfl, rfl⟩ rfl rfl⟩

/-- Two indices of one memory, or of one table: the copy panics. -/
theorem aliased_copy_panics :
    (∃ l, executeLocal copyEngine (.memoryCopy (.imm 0) (.imm 1) (.imm 1)) (copyLocal 0 0) =
      .error .panic l) ∧
    (∃ l, executeLocal copyEngine (.tableCopy (.imm 0) (.imm 1) (.imm 1)) (copyLocal 1 0) =
      .error .panic l) ∧
    ¬ (oneCell 0).OnMemories (copyLocal 0 0)
        (executeLocal copyEngine (.memoryCopy (.imm 0) (.imm 1) (.imm 1)) (copyLocal 0 0)) := by
  refine ⟨⟨copyLocal 0 0, rfl⟩, ⟨copyLocal 1 0, rfl⟩, ?_⟩
  intro h
  cases h

end Executor

end MotokoDebugger
