import MotokoDebugger.Executor.BulkCopy
import MotokoDebugger.Executor.GrowthProtocol

/-!
# Bulk operations

`table.init`, `table.copy`, `table.fill`, `memory.init`, `memory.copy` and `memory.fill`: each of them
writes cells of a source (another entity, the same one, a segment, or one value repeated) at once.

* `BulkWrite`: the operands of an operation and the cells it writes.
* `OnMemory`, `OnTable`: what the specification prescribes for the operation.
* `bulkOperations_exact`: when the instructions do what it prescribes.
-/

namespace MotokoDebugger

open StateExcept Runs

variable {T : Type}

/-! ## The tables there are -/

namespace TableEntity

/-- A new table. -/
def IsNew (table : TableEntity) : Prop :=
  ∃ element minimum maximum init, minimum ≤ u32Max ∧
    table = ⟨element, maximum, List.replicate minimum init⟩

/-- What changes a table: a growth, or writes to its elements. -/
inductive Step : TableEntity → TableEntity → Prop
  | grow {T : Type} (limiter : Option (ResourceLimiter T)) (delta value : Nat) (init : UntypedVal)
    (s s' : Growing TableEntity T) (hgrow : growUntyped limiter delta init s = .ok value s') :
    Step s.entity s'.entity
  | write (table : TableEntity) (elements : List UntypedVal)
    (hlen : elements.length = table.elements.length) : Step table { table with elements }

/-- The tables that growths and writes make of a new one. -/
def Reached (table : TableEntity) : Prop := ∃ start n, IsNew start ∧ Steps Step n start table

lemma length_le_step {table table' : TableEntity} (h : table.elements.length ≤ u32Max)
    (hstep : Step table table') : table'.elements.length ≤ u32Max := by
  cases hstep with
  | write _ elements hlen =>
    show elements.length ≤ u32Max
    omega
  | grow limiter delta value init s s' hgrow =>
    have hgrowth := tableGrowth limiter delta init s
    rw [hgrow] at hgrowth
    cases hgrowth with
    | @grown _ _ elements _ hlimit _ hlen =>
      show elements.length ≤ u32Max
      rw [limit] at hlimit
      omega

/-- The number of elements of a table is a 32-bit integer. -/
lemma Reached.length_le {table : TableEntity} (h : table.Reached) :
    table.elements.length ≤ u32Max := by
  obtain ⟨start, n, ⟨element, minimum, maximum, init, hle, rfl⟩, hrun⟩ := h
  refine hrun.invariant (I := fun table => table.elements.length ≤ u32Max)
    (fun _ _ hstep hlen => length_le_step hlen hstep) ?_
  show (List.replicate minimum init).length ≤ u32Max
  rw [List.length_replicate]
  exact hle

lemma size_of_le {table : TableEntity} (h : table.elements.length ≤ u32Max) :
    table.size = table.elements.length := by
  have hmax : u32Max = 2 ^ 32 - 1 := rfl
  exact Nat.mod_eq_of_lt (by omega)

end TableEntity

/-! ## What is prescribed -/

/-- A bulk operation: `len` cells of `source` from `src` on are written from `dst` on. -/
structure BulkWrite (α : Type) where
  dst : Nat
  src : Nat
  len : Nat
  source : List α

/-- Both ranges are there, as unbounded integers. -/
def BulkWrite.InBounds {α : Type} (write : BulkWrite α) (before : List α) : Prop :=
  write.dst + write.len ≤ before.length ∧ write.src + write.len ≤ write.source.length

/-- The contents of the store that the operations work on. -/
def SameContents (l l' : Local T) : Prop :=
  l'.store.memories = l.store.memories ∧ l'.store.tables = l.store.tables ∧
    l'.store.datas = l.store.datas ∧ l'.store.elems = l.store.elems

/-- What is prescribed for an operation on a memory. -/
inductive OnMemory (write : BulkWrite Byte) (handle : Nat) (before : MemoryEntity) (l : Local T) :
    EStateM.Result Stop (Local T) Unit → Prop where
  | outOfBounds {l' : Local T} (hbounds : ¬write.InBounds before.bytes)
    (hsame : SameContents l l') : OnMemory write handle before l (.error (.trap .memoryOutOfBounds) l')
  | outOfFuel {l' : Local T} (hbounds : write.InBounds before.bytes)
    (hfuel : ¬l.store.fuel.Affords (·.fuelForBytes write.len)) (hsame : SameContents l l') :
    OnMemory write handle before l (.error (.trap .outOfFuel) l')
  | written {l' : Local T} {after : List Byte} (hbounds : write.InBounds before.bytes)
    (hfuel : l.store.fuel.Affords (·.fuelForBytes write.len))
    (hcopy : SimultaneousCopy before.bytes write.source write.dst write.src write.len after)
    (hmemories : l'.store.memories = l.store.memories.set handle { before with bytes := after })
    (hrest : l'.store.tables = l.store.tables ∧ l'.store.datas = l.store.datas ∧
      l'.store.elems = l.store.elems) : OnMemory write handle before l (.ok () l')

/-- What is prescribed for an operation on a table. -/
inductive OnTable (write : BulkWrite UntypedVal) (handle : Nat) (before : TableEntity)
    (l : Local T) : EStateM.Result Stop (Local T) Unit → Prop where
  | outOfBounds {l' : Local T} (hbounds : ¬write.InBounds before.elements)
    (hsame : SameContents l l') : OnTable write handle before l (.error (.trap .tableOutOfBounds) l')
  | outOfFuel {l' : Local T} (hbounds : write.InBounds before.elements)
    (hfuel : ¬l.store.fuel.Affords (·.fuelForCopies write.len)) (hsame : SameContents l l') :
    OnTable write handle before l (.error (.trap .outOfFuel) l')
  | written {l' : Local T} {after : List UntypedVal} (hbounds : write.InBounds before.elements)
    (hfuel : l.store.fuel.Affords (·.fuelForCopies write.len))
    (hcopy : SimultaneousCopy before.elements write.source write.dst write.src write.len after)
    (htables : l'.store.tables = l.store.tables.set handle { before with elements := after })
    (hrest : l'.store.memories = l.store.memories ∧ l'.store.datas = l.store.datas ∧
      l'.store.elems = l.store.elems) : OnTable write handle before l (.ok () l')

lemma SameContents.refl (l : Local T) : SameContents l l := ⟨rfl, rfl, rfl, rfl⟩

/-- One value repeated, as the source of a fill. -/
def fillWrite {α : Type} (dst len : Nat) (value : α) : BulkWrite α :=
  ⟨dst, 0, len, List.replicate len value⟩

lemma inBounds_fillWrite {α : Type} {dst len : Nat} {value : α} {before : List α} :
    (fillWrite dst len value).InBounds before ↔ dst + len ≤ before.length := by
  have hsource : (List.replicate len value).length = len := List.length_replicate
  show dst + len ≤ before.length ∧ 0 + len ≤ (List.replicate len value).length ↔ _
  omega

namespace Executor

variable {env : Engine T} {l : Local T}

/-! ## Memories -/

lemma bytesAt_of_le {bytes : List Byte} {start len : Nat} (h : start + len ≤ bytes.length) :
    bytesAt bytes start len l = .ok ((bytes.drop start).take len) l := by
  rw [bytesAt, slice?, if_pos h]
  rfl

lemma bytesAt_of_lt {bytes : List Byte} {start len : Nat} (h : ¬start + len ≤ bytes.length) :
    bytesAt bytes start len l = .error (.trap .memoryOutOfBounds) l := by
  rw [bytesAt, slice?, if_neg h]
  rfl

/-- The end of every operation on a memory. -/
lemma onMemory_writeBytes {write : BulkWrite Byte} {handle : Nat} {before : MemoryEntity}
    (hbounds : write.InBounds before.bytes) (skip : Nat) :
    OnMemory write handle before l ((do
      writeBytes handle before write.dst ((write.source.drop write.src).take write.len)
      nextInstrAt skip : LocalM T Unit) l) := by
  have hlen : ((write.source.drop write.src).take write.len).length = write.len := by
    have hsource := hbounds.2
    rw [List.length_take, List.length_drop]
    omega
  simp only [writeBytes, bind_assoc, hlen]
  rw [get_bind]
  by_cases hfuel : l.store.fuel.Affords (·.fuelForBytes write.len)
  · obtain ⟨fuel, hpaid⟩ := Fuel.consumeFuelIf_of_affords hfuel
    rw [hpaid]
    exact .written hbounds hfuel (simultaneousCopy_overwrite hbounds.1 hbounds.2) rfl
      ⟨rfl, rfl, rfl⟩
  · rw [Fuel.consumeFuelIf_of_not_affords hfuel]
    exact .outOfFuel hbounds hfuel (.refl l)

/-- Source first, as in `memory.copy`. -/
lemma onMemory_copy (write : BulkWrite Byte) (handle : Nat) (before : MemoryEntity) (skip : Nat) :
    OnMemory write handle before l ((do
      let srcBytes ← bytesAt write.source write.src write.len
      let _ ← bytesAt before.bytes write.dst write.len
      writeBytes handle before write.dst srcBytes
      nextInstrAt skip : LocalM T Unit) l) := by
  by_cases hsrc : write.src + write.len ≤ write.source.length
  · rw [bind_ok (bytesAt_of_le hsrc)]
    by_cases hdst : write.dst + write.len ≤ before.bytes.length
    · rw [bind_ok (bytesAt_of_le hdst)]
      exact onMemory_writeBytes ⟨hdst, hsrc⟩ skip
    · rw [bind_error (bytesAt_of_lt hdst)]
      exact .outOfBounds (fun hbounds => hdst hbounds.1) (.refl l)
  · rw [bind_error (bytesAt_of_lt hsrc)]
    exact .outOfBounds (fun hbounds => hsrc hbounds.2) (.refl l)

/-- Destination first, as in `memory.init`. -/
lemma onMemory_init (write : BulkWrite Byte) (handle : Nat) (before : MemoryEntity) (skip : Nat) :
    OnMemory write handle before l ((do
      let _ ← bytesAt before.bytes write.dst write.len
      let srcBytes ← bytesAt write.source write.src write.len
      writeBytes handle before write.dst srcBytes
      nextInstrAt skip : LocalM T Unit) l) := by
  by_cases hdst : write.dst + write.len ≤ before.bytes.length
  · rw [bind_ok (bytesAt_of_le hdst)]
    by_cases hsrc : write.src + write.len ≤ write.source.length
    · rw [bind_ok (bytesAt_of_le hsrc)]
      exact onMemory_writeBytes ⟨hdst, hsrc⟩ skip
    · rw [bind_error (bytesAt_of_lt hsrc)]
      exact .outOfBounds (fun hbounds => hsrc hbounds.2) (.refl l)
  · rw [bind_error (bytesAt_of_lt hdst)]
    exact .outOfBounds (fun hbounds => hdst hbounds.1) (.refl l)

/-- `memory.copy` is exact iff the two indices do not stand for one memory. -/
lemma memoryCopy_exact_iff {copy : BulkCopy} {dst src len : Operand}
    {source before : MemoryEntity}
    (hreads : ReadsCopy (fetchMemoryIndex env) getMemory dst src len l copy)
    (hsource : l.store.memories[copy.srcHandle]? = some source)
    (hbefore : l.store.memories[copy.dstHandle]? = some before) :
    OnMemory ⟨copy.dst, copy.src, copy.len, source.bytes⟩ copy.dstHandle before l
      (executeMemoryCopy env dst src len l) ↔ copy.Unaliased := by
  unfold executeMemoryCopy
  rw [bind_ok hreads.dst, bind_ok hreads.src, bind_ok hreads.len, bind_ok hreads.dstIndex,
    bind_ok hreads.srcIndex]
  have htail : OnMemory _ _ _ l _ := onMemory_copy ⟨copy.dst, copy.src, copy.len, source.bytes⟩
    copy.dstHandle before 3
  by_cases hindex : copy.srcIndex = copy.dstIndex
  · have hhandle := hreads.handle_eq hindex.symm
    have hentity : source = before := by
      rw [hhandle, hsource] at hbefore
      exact Option.some.inj hbefore
    rw [if_pos hindex, bind_ok hreads.srcHandle, bind_ok (resolve_apply hsource)]
    rw [hentity, hhandle] at htail
    rw [hentity, hhandle]
    exact iff_of_true htail (.inl hindex.symm)
  · rw [if_neg hindex, bind_ok hreads.srcHandle, bind_ok hreads.dstHandle]
    by_cases hhandle : copy.srcHandle = copy.dstHandle
    · rw [if_pos hhandle]
      refine iff_of_false (fun hexact => ?_) (fun hunaliased => ?_)
      · cases hexact
      · obtain hsame | hdistinct := hunaliased
        · exact hindex hsame.symm
        · exact hdistinct hhandle.symm
    · rw [if_neg hhandle]
      dsimp only
      rw [bind_ok (resolve_apply hsource), bind_ok (resolve_apply hbefore)]
      exact iff_of_true htail (.inr fun heq => hhandle heq.symm)

/-- What `memory.init` reads: its operands, its two index words and what these stand for. -/
structure ReadsMemoryInit (env : Engine T) (dst src len : Operand) (l : Local T)
    (write : BulkWrite Byte) (handle : Nat) (before : MemoryEntity) : Prop where
  dst : operand dst l = .ok write.dst l
  src : operand src l = .ok write.src l
  len : operand len l = .ok write.len l
  memory : ∃ index, fetchMemoryIndex env 1 l = .ok index l ∧ getMemory index l = .ok handle l
  data : ∃ index data, fetchDataSegmentIndex env 2 l = .ok index l ∧
    getDataSegment index l = .ok data l ∧ l.store.datas[data]? = some write.source
  before : l.store.memories[handle]? = some before

lemma memoryInit_exact {dst src len : Operand} {write : BulkWrite Byte} {handle : Nat}
    {before : MemoryEntity} (hreads : ReadsMemoryInit env dst src len l write handle before) :
    OnMemory write handle before l (executeMemoryInit env dst src len l) := by
  obtain ⟨index, hindex, hhandle⟩ := hreads.memory
  obtain ⟨dataIndex, data, hdataIndex, hdata, hsource⟩ := hreads.data
  unfold executeMemoryInit
  rw [bind_ok hreads.dst, bind_ok hreads.src, bind_ok hreads.len, bind_ok hindex,
    bind_ok hdataIndex, bind_ok hhandle, bind_ok hdata, bind_ok (resolve_apply hsource),
    bind_ok (resolve_apply hreads.before)]
  exact onMemory_init write handle before 3

/-- What `memory.fill` reads. -/
structure ReadsMemoryFill (env : Engine T) (dst : Operand) (value : ByteOperand) (len : Operand)
    (l : Local T) (write : BulkWrite Byte) (handle : Nat) (before : MemoryEntity) : Prop where
  operands : ∃ start byte size, operand dst l = .ok start l ∧ byteOperand value l = .ok byte l ∧
    operand len l = .ok size l ∧ write = fillWrite start size byte
  memory : ∃ index, fetchMemoryIndex env 1 l = .ok index l ∧ getMemory index l = .ok handle l
  before : l.store.memories[handle]? = some before

lemma memoryFill_exact {dst : Operand} {value : ByteOperand} {len : Operand}
    {write : BulkWrite Byte} {handle : Nat} {before : MemoryEntity}
    (hreads : ReadsMemoryFill env dst value len l write handle before) :
    OnMemory write handle before l (executeMemoryFill env dst value len l) := by
  obtain ⟨start, byte, size, hdst, hvalue, hlen, rfl⟩ := hreads.operands
  obtain ⟨index, hindex, hhandle⟩ := hreads.memory
  unfold executeMemoryFill
  rw [bind_ok hdst, bind_ok hvalue, bind_ok hlen, bind_ok hindex, bind_ok hhandle,
    bind_ok (resolve_apply hreads.before)]
  by_cases hbounds : start + size ≤ before.bytes.length
  · have hin : (fillWrite start size byte).InBounds before.bytes := inBounds_fillWrite.2 hbounds
    have hwrite : OnMemory (fillWrite start size byte) handle before l _ :=
      onMemory_writeBytes hin 2
    have hsource : ((fillWrite start size byte).source.drop (fillWrite start size byte).src).take
        (fillWrite start size byte).len = List.replicate size byte := by
      show ((List.replicate size byte).drop 0).take size = _
      rw [List.drop_zero, List.take_of_length_le (by simp)]
    rw [hsource] at hwrite
    rw [bind_ok (bytesAt_of_le hbounds)]
    exact hwrite
  · rw [bind_error (bytesAt_of_lt hbounds)]
    exact .outOfBounds (mt inBounds_fillWrite.1 hbounds) (.refl l)

/-! ## Tables -/

/-- What is prescribed for the function behind a table instruction. -/
inductive OnElements (write : BulkWrite UntypedVal) (before : TableEntity) (fuel : Fuel) :
    Except TrapCode (TableEntity × Fuel) → Prop where
  | outOfBounds (hbounds : ¬write.InBounds before.elements) :
    OnElements write before fuel (.error .tableOutOfBounds)
  | outOfFuel (hbounds : write.InBounds before.elements)
    (hfuel : ¬fuel.Affords (·.fuelForCopies write.len)) :
    OnElements write before fuel (.error .outOfFuel)
  | written {after : List UntypedVal} {fuel' : Fuel} (hbounds : write.InBounds before.elements)
    (hfuel : fuel.Affords (·.fuelForCopies write.len))
    (hcopy : SimultaneousCopy before.elements write.source write.dst write.src write.len after) :
    OnElements write before fuel (.ok ({ before with elements := after }, fuel'))

/-- Paying for the elements, then writing them. -/
lemma onElements_of_fuel (write : BulkWrite UntypedVal) (before : TableEntity)
    (hbounds : write.InBounds before.elements) (fuel : Fuel) :
    OnElements write before fuel (do
      let fuel ← fuel.consumeFuelIf (·.fuelForCopies write.len)
      let srcItems := (write.source.drop write.src).take write.len
      return ({ before with elements := overwrite before.elements write.dst srcItems }, fuel)) := by
  by_cases hfuel : fuel.Affords (·.fuelForCopies write.len)
  · obtain ⟨fuel', hpaid⟩ := Fuel.consumeFuelIf_of_affords hfuel
    rw [hpaid]
    exact .written hbounds hfuel (simultaneousCopy_overwrite hbounds.1 hbounds.2)
  · rw [Fuel.consumeFuelIf_of_not_affords hfuel]
    exact .outOfFuel hbounds hfuel

lemma onElements_copy (source before : TableEntity) (dst src len : Nat) (fuel : Fuel) :
    OnElements ⟨dst, src, len, source.elements⟩ before fuel
      (before.copy dst source src len fuel) := by
  unfold TableEntity.copy slice?
  by_cases hdst : dst + len ≤ before.elements.length
  · rw [if_pos hdst]
    by_cases hsrc : src + len ≤ source.elements.length
    · rw [if_pos hsrc]
      exact onElements_of_fuel ⟨dst, src, len, source.elements⟩ before ⟨hdst, hsrc⟩ fuel
    · rw [if_neg hsrc]
      exact .outOfBounds fun hbounds => hsrc hbounds.2
  · rw [if_neg hdst]
    exact .outOfBounds fun hbounds => hdst hbounds.1

/-- Within a table the larger offset decides. -/
lemma onElements_copyWithin {table : TableEntity} (hlen : table.elements.length ≤ u32Max)
    (dst src len : Nat) (fuel : Fuel) :
    OnElements ⟨dst, src, len, table.elements⟩ table fuel (table.copyWithin dst src len fuel) := by
  have hsize := TableEntity.size_of_le hlen
  unfold TableEntity.copyWithin
  by_cases hover : u32Max < max dst src + len ∨ table.size < max dst src + len
  · rw [if_pos hover]
    refine .outOfBounds fun hbounds => ?_
    have hdst : dst + len ≤ table.elements.length := hbounds.1
    have hsrc : src + len ≤ table.elements.length := hbounds.2
    omega
  · rw [if_neg hover]
    have hdst : dst + len ≤ table.elements.length := by omega
    have hsrc : src + len ≤ table.elements.length := by omega
    exact onElements_of_fuel ⟨dst, src, len, table.elements⟩ table ⟨hdst, hsrc⟩ fuel

lemma onElements_init {element : ElementSegmentEntity} {before : TableEntity}
    (hty : before.element = element.ty) (dst src len : Nat) (fuel : Fuel) :
    OnElements ⟨dst, src, len, element.items⟩ before fuel
      (before.init element dst src len fuel) := by
  unfold TableEntity.init slice?
  rw [if_neg (not_not.2 hty)]
  by_cases hdst : dst + len ≤ before.elements.length
  · rw [if_pos hdst]
    by_cases hsrc : src + len ≤ element.items.length
    · rw [if_pos hsrc]
      by_cases hzero : len = 0
      · -- nothing is paid for
        subst hzero
        have haffords : fuel.Affords (·.fuelForCopies 0) := fun _ => by
          show 0 / fuel.costs.copiesPerFuel ≤ fuel.remaining
          rw [Nat.zero_div]
          exact Nat.zero_le _
        have hcopy : SimultaneousCopy before.elements element.items dst src 0 before.elements :=
          fun i => (if_neg (by omega)).symm
        exact .written ⟨hdst, hsrc⟩ haffords hcopy
      · simp only [if_neg hzero]
        exact onElements_of_fuel ⟨dst, src, len, element.items⟩ before ⟨hdst, hsrc⟩ fuel
    · rw [if_neg hsrc]
      exact .outOfBounds fun hbounds => hsrc hbounds.2
  · rw [if_neg hdst]
    exact .outOfBounds fun hbounds => hdst hbounds.1

lemma onElements_fill (before : TableEntity) (dst len : Nat) (value : UntypedVal) (fuel : Fuel) :
    OnElements (fillWrite dst len value) before fuel (before.fillUntyped dst value len fuel) := by
  unfold TableEntity.fillUntyped slice?
  by_cases hdst : dst + len ≤ before.elements.length
  · rw [if_pos hdst]
    have hwrite := onElements_of_fuel (fillWrite dst len value) before
      (inBounds_fillWrite.2 hdst) fuel
    have hsource : ((fillWrite dst len value).source.drop (fillWrite dst len value).src).take
        (fillWrite dst len value).len = List.replicate len value := by
      show ((List.replicate len value).drop 0).take len = _
      rw [List.drop_zero, List.take_of_length_le (by simp)]
    rw [hsource] at hwrite
    exact hwrite
  · rw [if_neg hdst]
    exact .outOfBounds (mt inBounds_fillWrite.1 hdst)

/-- The instruction does what the function behind it does. -/
lemma onTable_tableOp {write : BulkWrite UntypedVal} {handle : Nat} {before : TableEntity}
    {op : TableEntity → Fuel → Except TrapCode (TableEntity × Fuel)}
    (hbefore : l.store.tables[handle]? = some before)
    (hop : OnElements write before l.store.fuel (op before l.store.fuel)) (skip : Nat) :
    OnTable write handle before l ((do
      tableOp handle op
      nextInstrAt skip : LocalM T Unit) l) := by
  simp only [tableOp, bind_assoc]
  rw [bind_ok (resolve_apply hbefore), get_bind]
  generalize op before l.store.fuel = result at hop
  cases hop with
  | outOfBounds hbounds => exact .outOfBounds hbounds (.refl l)
  | outOfFuel hbounds hfuel => exact .outOfFuel hbounds hfuel (.refl l)
  | written hbounds hfuel hcopy => exact .written hbounds hfuel hcopy rfl ⟨rfl, rfl, rfl⟩

/-- `table.copy` is exact iff the two indices do not stand for one table. -/
lemma tableCopy_exact_iff {copy : BulkCopy} {dst src len : Operand} {source before : TableEntity}
    (hreads : ReadsCopy (fetchTableIndex env) getTable dst src len l copy)
    (hsource : l.store.tables[copy.srcHandle]? = some source)
    (hbefore : l.store.tables[copy.dstHandle]? = some before) (hreached : before.Reached) :
    OnTable ⟨copy.dst, copy.src, copy.len, source.elements⟩ copy.dstHandle before l
      (executeTableCopy env dst src len l) ↔ copy.Unaliased := by
  unfold executeTableCopy
  rw [bind_ok hreads.dst, bind_ok hreads.src, bind_ok hreads.len, bind_ok hreads.dstIndex,
    bind_ok hreads.srcIndex]
  by_cases hindex : copy.dstIndex = copy.srcIndex
  · have hhandle := hreads.handle_eq hindex
    have hentity : source = before := by
      rw [hhandle, hsource] at hbefore
      exact Option.some.inj hbefore
    rw [if_pos hindex, bind_ok hreads.dstHandle, hentity]
    exact iff_of_true
      (onTable_tableOp hbefore (onElements_copyWithin hreached.length_le _ _ _ _) 3) (.inl hindex)
  · rw [if_neg hindex, bind_ok hreads.dstHandle, bind_ok hreads.srcHandle]
    by_cases hhandle : copy.dstHandle = copy.srcHandle
    · rw [if_pos hhandle]
      refine iff_of_false (fun hexact => ?_) (fun hunaliased => ?_)
      · cases hexact
      · obtain hsame | hdistinct := hunaliased
        · exact hindex hsame
        · exact hdistinct hhandle
    · rw [if_neg hhandle]
      dsimp only
      rw [bind_ok (resolve_apply hsource)]
      exact iff_of_true (onTable_tableOp hbefore (onElements_copy _ _ _ _ _ _) 3) (.inr hhandle)

/-- What `table.init` reads. The validation has compared the types of table and segment. -/
structure ReadsTableInit (env : Engine T) (dst src len : Operand) (l : Local T)
    (write : BulkWrite UntypedVal) (handle : Nat) (before : TableEntity) : Prop where
  dst : operand dst l = .ok write.dst l
  src : operand src l = .ok write.src l
  len : operand len l = .ok write.len l
  table : ∃ index, fetchTableIndex env 1 l = .ok index l ∧ getTable index l = .ok handle l
  element : ∃ index handle element, fetchElementSegmentIndex env 2 l = .ok index l ∧
    getElementSegment index l = .ok handle l ∧ l.store.elems[handle]? = some element ∧
    before.element = element.ty ∧ element.items = write.source
  before : l.store.tables[handle]? = some before

lemma tableInit_exact {dst src len : Operand} {write : BulkWrite UntypedVal} {handle : Nat}
    {before : TableEntity} (hreads : ReadsTableInit env dst src len l write handle before) :
    OnTable write handle before l (executeTableInit env dst src len l) := by
  obtain ⟨index, hindex, hhandle⟩ := hreads.table
  obtain ⟨elementIndex, elementHandle, element, helementIndex, helementHandle, helement, hty,
    hsource⟩ := hreads.element
  unfold executeTableInit
  rw [bind_ok hreads.dst, bind_ok hreads.src, bind_ok hreads.len, bind_ok hindex,
    bind_ok helementIndex, bind_ok hhandle, bind_ok helementHandle,
    bind_ok (resolve_apply helement)]
  have hinit := onElements_init hty write.dst write.src write.len l.store.fuel
  rw [hsource] at hinit
  exact onTable_tableOp hreads.before hinit 3

/-- What `table.fill` reads. -/
structure ReadsTableFill (env : Engine T) (dst len : Operand) (value : Reg) (l : Local T)
    (write : BulkWrite UntypedVal) (handle : Nat) (before : TableEntity) : Prop where
  operands : ∃ start size init, operand dst l = .ok start l ∧ operand len l = .ok size l ∧
    getRegister value l = .ok init l ∧ write = fillWrite start size init
  table : ∃ index, fetchTableIndex env 1 l = .ok index l ∧ getTable index l = .ok handle l
  before : l.store.tables[handle]? = some before

lemma tableFill_exact {dst len : Operand} {value : Reg} {write : BulkWrite UntypedVal}
    {handle : Nat} {before : TableEntity}
    (hreads : ReadsTableFill env dst len value l write handle before) :
    OnTable write handle before l (executeTableFill env dst len value l) := by
  obtain ⟨start, size, init, hdst, hlen, hvalue, rfl⟩ := hreads.operands
  obtain ⟨index, hindex, hhandle⟩ := hreads.table
  unfold executeTableFill
  rw [bind_ok hdst, bind_ok hlen, bind_ok hindex, bind_ok hvalue, bind_ok hhandle]
  exact onTable_tableOp hreads.before (onElements_fill before start size init l.store.fuel) 2

/-! ## All operations -/

/-- Every bulk operation is exact, but for a copy between two indices of one entity. -/
theorem bulkOperations_exact (dst src len : Operand) (value : ByteOperand) (reg : Reg) :
    (∀ copy source before, ReadsCopy (fetchMemoryIndex env) getMemory dst src len l copy →
      l.store.memories[copy.srcHandle]? = some source →
      l.store.memories[copy.dstHandle]? = some before →
      (OnMemory ⟨copy.dst, copy.src, copy.len, source.bytes⟩ copy.dstHandle before l
        (executeLocal env (.memoryCopy dst src len) l) ↔ copy.Unaliased)) ∧
    (∀ write handle before, ReadsMemoryInit env dst src len l write handle before →
      OnMemory write handle before l (executeLocal env (.memoryInit dst src len) l)) ∧
    (∀ write handle before, ReadsMemoryFill env dst value len l write handle before →
      OnMemory write handle before l (executeLocal env (.memoryFill dst value len) l)) ∧
    (∀ copy source before, ReadsCopy (fetchTableIndex env) getTable dst src len l copy →
      l.store.tables[copy.srcHandle]? = some source →
      l.store.tables[copy.dstHandle]? = some before → before.Reached →
      (OnTable ⟨copy.dst, copy.src, copy.len, source.elements⟩ copy.dstHandle before l
        (executeLocal env (.tableCopy dst src len) l) ↔ copy.Unaliased)) ∧
    (∀ write handle before, ReadsTableInit env dst src len l write handle before →
      OnTable write handle before l (executeLocal env (.tableInit dst src len) l)) ∧
    ∀ write handle before, ReadsTableFill env dst len reg l write handle before →
      OnTable write handle before l (executeLocal env (.tableFill dst len reg) l) :=
  ⟨fun _ _ _ hreads hsource hbefore => memoryCopy_exact_iff hreads hsource hbefore,
    fun _ _ _ => memoryInit_exact, fun _ _ _ => memoryFill_exact,
    fun _ _ _ hreads hsource hbefore hreached =>
      tableCopy_exact_iff hreads hsource hbefore hreached,
    fun _ _ _ => tableInit_exact, fun _ _ _ => tableFill_exact⟩

/-- A function for each of the other operations, on one cell. -/
def bulkEngine : Engine Unit :=
  Engine.ofCode
    [⟨[⟨1, .memoryInit (.imm 0) (.imm 0) (.imm 1)⟩, ⟨1, .memoryIndex 0⟩, ⟨1, .dataIndex 0⟩], [], 0⟩,
      ⟨[⟨1, .memoryFill (.imm 0) (.imm 7) (.imm 1)⟩, ⟨1, .memoryIndex 0⟩], [], 0⟩,
      ⟨[⟨1, .tableInit (.imm 0) (.imm 0) (.imm 1)⟩, ⟨1, .tableIndex 0⟩, ⟨1, .elemIndex 0⟩], [], 0⟩,
      ⟨[⟨1, .tableFill (.imm 0) (.imm 1) 0⟩, ⟨1, .tableIndex 0⟩], [], 0⟩]
    []

/-- A table of two elements. -/
def twoElements : TableEntity := ⟨.funcRef, none, [3, 3]⟩

lemma reached_twoElements : twoElements.Reached :=
  ⟨twoElements, 0, ⟨.funcRef, 2, none, 3, by decide, rfl⟩, .refl _⟩

/-- An instance with a memory, a table and two segments. -/
def bulkLocal (func : Nat) : Local Unit where
  cells := [9]
  base := 0
  ip := ⟨func, 0⟩
  cache := ⟨0, none, none⟩
  store :=
    { Store.ofFuncs [] with
      memories := [onePage]
      tables := [twoElements]
      instances := [⟨[], [], [0], [0], [], [0], [0]⟩]
      datas := [[5]]
      elems := [⟨.funcRef, [6]⟩] }

/-- `copyLocal` with tables that are reached. -/
def copyReached (func handle : Nat) : Local Unit :=
  { copyLocal func handle with
    store := { (copyLocal func handle).store with tables := [twoElements, twoElements] } }

theorem bulkOperations_exact_oneCell :
    (OnMemory ⟨0, 1, 1, onePage.bytes⟩ 0 onePage (copyLocal 0 1)
        (executeLocal copyEngine (.memoryCopy (.imm 0) (.imm 1) (.imm 1)) (copyLocal 0 1)) ↔
      (oneCell 1).Unaliased) ∧
    OnMemory ⟨0, 0, 1, [5]⟩ 0 onePage (bulkLocal 0)
      (executeLocal bulkEngine (.memoryInit (.imm 0) (.imm 0) (.imm 1)) (bulkLocal 0)) ∧
    OnMemory (fillWrite 0 1 7) 0 onePage (bulkLocal 1)
      (executeLocal bulkEngine (.memoryFill (.imm 0) (.imm 7) (.imm 1)) (bulkLocal 1)) ∧
    (OnTable ⟨0, 1, 1, twoElements.elements⟩ 0 twoElements (copyReached 1 1)
        (executeLocal copyEngine (.tableCopy (.imm 0) (.imm 1) (.imm 1)) (copyReached 1 1)) ↔
      (oneCell 1).Unaliased) ∧
    OnTable ⟨0, 0, 1, [6]⟩ 0 twoElements (bulkLocal 2)
      (executeLocal bulkEngine (.tableInit (.imm 0) (.imm 0) (.imm 1)) (bulkLocal 2)) ∧
    OnTable (fillWrite 0 1 9) 0 twoElements (bulkLocal 3)
      (executeLocal bulkEngine (.tableFill (.imm 0) (.imm 1) 0) (bulkLocal 3)) := by
  refine ⟨?_, ?_, ?_, ?_, ?_, ?_⟩
  · exact (bulkOperations_exact (.imm 0) (.imm 1) (.imm 1) (.imm 0) 0).1 (oneCell 1) onePage onePage
      ⟨rfl, rfl, rfl, rfl, rfl, rfl, rfl⟩ rfl rfl
  · exact (bulkOperations_exact (.imm 0) (.imm 0) (.imm 1) (.imm 0) 0).2.1 ⟨0, 0, 1, [5]⟩ 0 onePage
      ⟨rfl, rfl, rfl, ⟨0, rfl, rfl⟩, ⟨0, 0, rfl, rfl, rfl⟩, rfl⟩
  · exact (bulkOperations_exact (.imm 0) (.imm 0) (.imm 1) (.imm 7) 0).2.2.1 (fillWrite 0 1 7) 0
      onePage ⟨⟨0, 7, 1, rfl, rfl, rfl, rfl⟩, ⟨0, rfl, rfl⟩, rfl⟩
  · exact (bulkOperations_exact (.imm 0) (.imm 1) (.imm 1) (.imm 0) 0).2.2.2.1 (oneCell 1)
      twoElements twoElements ⟨rfl, rfl, rfl, rfl, rfl, rfl, rfl⟩ rfl rfl reached_twoElements
  · exact (bulkOperations_exact (.imm 0) (.imm 0) (.imm 1) (.imm 0) 0).2.2.2.2.1 ⟨0, 0, 1, [6]⟩ 0
      twoElements ⟨rfl, rfl, rfl, ⟨0, rfl, rfl⟩, ⟨0, 0, ⟨.funcRef, [6]⟩, rfl, rfl, rfl, rfl, rfl⟩, rfl⟩
  · exact (bulkOperations_exact (.imm 0) (.imm 0) (.imm 1) (.imm 0) 0).2.2.2.2.2 (fillWrite 0 1 9) 0
      twoElements ⟨⟨0, 1, 9, rfl, rfl, rfl, rfl⟩, ⟨0, rfl, rfl⟩, rfl⟩

/-- The copies between two indices of one entity. -/
theorem aliased_copies_not_exact :
    ¬OnMemory ⟨0, 1, 1, onePage.bytes⟩ 0 onePage (copyLocal 0 0)
        (executeLocal copyEngine (.memoryCopy (.imm 0) (.imm 1) (.imm 1)) (copyLocal 0 0)) ∧
      ¬OnTable ⟨0, 1, 1, twoElements.elements⟩ 0 twoElements (copyReached 1 0)
        (executeLocal copyEngine (.tableCopy (.imm 0) (.imm 1) (.imm 1)) (copyReached 1 0)) := by
  have hmemory : executeLocal copyEngine (.memoryCopy (.imm 0) (.imm 1) (.imm 1)) (copyLocal 0 0) =
      .error .panic (copyLocal 0 0) := rfl
  have htable : executeLocal copyEngine (.tableCopy (.imm 0) (.imm 1) (.imm 1)) (copyReached 1 0) =
      .error .panic (copyReached 1 0) := rfl
  rw [hmemory, htable]
  constructor
  · intro hexact
    cases hexact
  · intro hexact
    cases hexact

end Executor

end MotokoDebugger
