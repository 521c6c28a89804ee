import MotokoDebugger.Executor.Tame

/-!
# Instructions that keep the sizes of memories

Stores and bulk operations write as many bytes as there were.

* `keepsAt_setMemory`: replacing a memory by one of its size keeps the shape of the store.
* `tame_storeTo`, `tame_tableOp`, `tame_checkAndWrite`: the ends of stores, of table operations and
  of bulk operations on memories.
* `tame_executeLocal`: every instruction that neither calls nor returns is tame, but the two that
  grow an entity.
-/

namespace MotokoDebugger

variable {T : Type} {α β : Type}

namespace Executor

open StateExcept

section Local

variable {env : Engine T}

/-! ## Stores -/

/-- A fetched memory is one of the store. -/
def Fetched (store : Store T) (memory : Option (Nat × MemoryEntity)) : Prop :=
  ∀ index entity, memory = some (index, entity) → store.memories[index]? = some entity

lemma fetched_fetchMemory {memory : Nat} {l l' : Local T} {r : Option (Nat × MemoryEntity)}
    (h : fetchMemory memory l = .ok r l') : Fetched l.store r := by
  intro index entity hr
  subst hr
  cases memory with
  | zero =>
    simp only [fetchMemory, fetchDefaultMemory, StateExcept.get_bind] at h
    cases hcached : l.cache.memory with
    | none =>
      rw [hcached] at h
      cases h
    | some cached =>
      simp only [hcached, StateExcept.get_bind, bind_eq_ok, assume_eq_ok] at h
      obtain ⟨found, _, ⟨hfound, rfl⟩, h⟩ := h
      split at h
      · cases h
        exact hfound
      · cases h
  | succ memory =>
    simp only [fetchMemory, bind_eq_ok, resolve, get_apply, unwrap_eq_ok, pure_apply,
      EStateM.Result.ok.injEq, Option.some.injEq, Prod.mk.injEq] at h
    obtain ⟨handle, _, hhandle, found, _, ⟨_, _, ⟨rfl, rfl⟩, hfound, rfl⟩, ⟨rfl, rfl⟩, -⟩ := h
    have hkeep := (readOnly_getEntity _ _).of_ok hhandle
    rw [← hkeep]
    exact hfound

lemma fetched_fetchDefaultMemory {l l' : Local T} {r : Option (Nat × MemoryEntity)}
    (h : fetchDefaultMemory l = .ok r l') : Fetched l.store r := by
  have hzero : fetchMemory 0 l = .ok r l' := h
  exact fetched_fetchMemory hzero

lemma length_storeFrom {memory bytes bytes' : List Byte} {address : Nat}
    (h : storeFrom memory address bytes = .ok bytes') : bytes'.length = memory.length := by
  unfold storeFrom at h
  split at h
  · cases h
    exact length_overwrite ‹_›
  · cases h

lemma StoreOp.length_eval {op : StoreOp} {memory bytes : List Byte} {address value : UntypedVal}
    {offset : BitVec 32} (h : op.eval memory address offset value = .ok bytes) :
    bytes.length = memory.length := by
  unfold StoreOp.eval at h
  cases haddress : effectiveAddress address.toI32 offset with
  | error code =>
    rw [haddress] at h
    cases h
  | ok effective =>
    rw [haddress] at h
    exact length_storeFrom h

/-- Replacing a memory by one of its size. -/
lemma keepsAt_setMemory {l : Local T} {index : Nat} {entity : MemoryEntity} {bytes : List Byte}
    (hentity : l.store.memories[index]? = some entity) (hlen : bytes.length = entity.bytes.length) :
    KeepsAt (fun l => (l.cache, l.store.shape)) l
      (setMemory index { entity with bytes } : LocalM T Unit) := by
  have hsizes : (l.store.memories.set index { entity with bytes }).map (·.bytes.length) =
      l.store.memories.map (·.bytes.length) := by
    apply List.ext_getElem?
    intro i
    rw [List.getElem?_map, List.getElem?_map, List.getElem?_set]
    by_cases hi : index = i
    · subst hi
      have hlt := (List.getElem?_eq_some_iff.mp hentity).1
      rw [if_pos rfl, if_pos hlt, hentity]
      show some bytes.length = some entity.bytes.length
      rw [hlen]
    · rw [if_neg hi]
  exact Prod.ext rfl (Prod.ext rfl (Prod.ext hsizes rfl))

lemma fuelBlind_setMemory (index : Nat) (memory : MemoryEntity) :
    FuelBlind (setMemory index memory : LocalM T Unit) :=
  fun _ => CommutesUpTo.modify fun _ => rfl

lemma fuelBlind_executeStoreWrap (memory : Option (Nat × MemoryEntity)) (address : UntypedVal)
    (offset : BitVec 32) (value : UntypedVal) (op : StoreOp) :
    FuelBlind (executeStoreWrap memory address offset value op : LocalM T Unit) := by
  intro d
  refine ((Tame.liftTrap _).fuel d).bind fun bytes => ?_
  split
  · exact CommutesUpTo.pure _
  · exact fuelBlind_setMemory _ _ d

/-- A store to a fetched memory, and what follows. -/
lemma tame_storeTo {fetch : LocalM T (Option (Nat × MemoryEntity))} (hfetch : Tame fetch)
    (hread : ReadOnly fetch) (hfetched : ∀ l r, fetch l = .ok r l → Fetched l.store r)
    (address : UntypedVal) (offset : BitVec 32) (value : UntypedVal) (op : StoreOp)
    {x : LocalM T Unit} (hx : Tame x) :
    Tame (do
      executeStoreWrap (← fetch) address offset value op
      x) := by
  refine ⟨keeps_of_keepsAt fun l => ?_, fun d => ?_⟩
  · refine KeepsAt.after hread fun memory hmemory => KeepsAt.bind ?_ fun _ => hx.shape
    refine KeepsAt.after (readOnly_liftTrap _) fun bytes hbytes => ?_
    have hlen := StoreOp.length_eval (liftTrap_eq_ok.mp hbytes).1
    split
    · exact rfl
    · exact keepsAt_setMemory (hfetched l _ hmemory _ _ rfl) hlen
  · refine (hfetch.fuel d).bind fun memory => ?_
    exact (fuelBlind_executeStoreWrap _ _ _ _ _ d).bind fun _ => hx.fuel d

lemma tame_store (memory : Nat) (address : UntypedVal) (offset : BitVec 32) (value : UntypedVal)
    (op : StoreOp) (skip : Nat) :
    Tame (do
      executeStoreWrap (← fetchMemory memory) address offset value op
      nextInstrAt skip : LocalM T Unit) :=
  tame_storeTo (tame_fetchMemory _) (readOnly_fetchMemory _) (fun _ _ => fetched_fetchMemory) _ _ _ _
    (tame_nextInstrAt skip)

lemma tame_executeStore (ptr : Reg) (memory : Nat) (op : StoreOp) :
    Tame (executeStore env ptr memory op) := by
  refine tame_fetchRegisterAndImm32.bind fun _ => (tame_getRegister _).bind fun address => ?_
  exact (tame_getRegister _).bind fun value => tame_store _ _ _ _ _ 2

lemma tame_executeStoreImm (ptr : Reg) (memory : Nat) (op : StoreImmOp) :
    Tame (executeStoreImm env ptr memory op) := by
  refine Tame.bind ?_ fun _ => (tame_getRegister _).bind fun address => tame_store _ _ _ _ _ 2
  refine (tame_fetchParam 1).bind fun word => ?_
  split
  · exact Tame.pure _
  · exact Tame.throw _

lemma tame_executeStoreOffset16 (ptr : Reg) (offset : Const16) {value : LocalM T UntypedVal}
    (hvalue : Tame value) (op : StoreOp) : Tame (executeStoreOffset16 ptr offset value op) := by
  refine (tame_getRegister _).bind fun address => hvalue.bind fun value => ?_
  exact tame_storeTo tame_fetchDefaultMemory readOnly_fetchDefaultMemory
    (fun _ _ => fetched_fetchDefaultMemory) _ _ _ _ tame_nextInstr

lemma tame_executeStoreAt (address : BitVec 32) {value : LocalM T UntypedVal} (hvalue : Tame value)
    (op : StoreOp) : Tame (executeStoreAt env address value op) :=
  tame_fetchOptionalMemory.bind fun _ => hvalue.bind fun _ => tame_store _ _ _ _ _ 1

/-! ## Operands of bulk operations -/

lemma tame_operand (op : Operand) : Tame (operand op : LocalM T Nat) := by
  unfold operand
  split
  · exact tame_getRegisterU32 _
  · exact Tame.pure _

lemma tame_byteOperand (op : ByteOperand) : Tame (byteOperand op : LocalM T Byte) := by
  unfold byteOperand
  split
  · exact (tame_getRegister _).bind fun _ => Tame.pure _
  · exact Tame.pure _

lemma tame_deltaOperand (op : DeltaOperand) : Tame (deltaOperand op : LocalM T Nat) := by
  unfold deltaOperand
  split
  · exact tame_getRegisterU32 _
  · exact Tame.pure _

lemma tame_fetchTableIndex (offset : Nat) : Tame (fetchTableIndex env offset) := by
  refine (tame_fetchParam _).bind fun word => ?_
  split
  · exact Tame.pure _
  · exact Tame.throw _

lemma tame_fetchElementSegmentIndex (offset : Nat) :
    Tame (fetchElementSegmentIndex env offset) := by
  refine (tame_fetchParam _).bind fun word => ?_
  split
  · exact Tame.pure _
  · exact Tame.throw _

lemma tame_fetchMemoryIndex (offset : Nat) : Tame (fetchMemoryIndex env offset) := by
  refine (tame_fetchParam _).bind fun word => ?_
  split
  · exact Tame.pure _
  · exact Tame.throw _

lemma tame_fetchDataSegmentIndex (offset : Nat) : Tame (fetchDataSegmentIndex env offset) := by
  refine (tame_fetchParam _).bind fun word => ?_
  split
  · exact Tame.pure _
  · exact Tame.throw _

/-! ## Tables -/

lemma tame_setTable (index : Nat) (table : TableEntity) :
    Tame (setTable index table : LocalM T Unit) :=
  tame_modifyStore (fun _ => rfl) fun _ _ => rfl

lemma tame_executeTableGet (result : Reg) (index : IndexOperand) :
    Tame (executeTableGet env result index) := by
  refine (tame_deltaOperand _).bind fun index => (tame_fetchTableIndex 1).bind fun tableIndex => ?_
  refine (tame_getEntity _ _).bind fun table => (tame_resolve _ _).bind fun table => ?_
  split
  · exact tame_result _ _ 2
  · exact Tame.throw _

lemma tame_executeTableSizeImpl (result : Reg) (tableIndex : Nat) :
    Tame (executeTableSizeImpl result tableIndex : LocalM T Unit) := by
  refine (tame_getEntity _ _).bind fun table => (tame_resolve _ _).bind fun table => ?_
  exact tame_setRegister _ _

lemma tame_executeTableSet (index : IndexOperand) (value : Reg) :
    Tame (executeTableSet env index value) := by
  refine (tame_deltaOperand _).bind fun index => (tame_fetchTableIndex 1).bind fun tableIndex => ?_
  refine (tame_getEntity _ _).bind fun table => (tame_getRegister _).bind fun value => ?_
  refine (tame_resolve _ _).bind fun entity => (Tame.liftTrap _).bind fun entity => ?_
  exact (tame_setTable _ _).bind fun _ => tame_nextInstrAt 2

/-- The surplus in what a table operation returns. -/
abbrev addToTable (d : Nat) : TableEntity × Fuel → TableEntity × Fuel := Prod.map id (Fuel.add d)

lemma tame_tableOp (table : Nat)
    {op : TableEntity → Fuel → Except TrapCode (TableEntity × Fuel)}
    (hop : ∀ entity, Pays addToTable (op entity)) : Tame (tableOp table op : LocalM T Unit) := by
  refine (tame_resolve _ _).bind fun entity => ⟨?_, fun d l => ?_⟩
  · refine Keeps.get.bind fun l => (readOnly_liftTrap _).keeps.bind fun _ => ?_
    exact (tame_setTable _ _).shape.bind fun _ => Keeps.modify fun _ => rfl
  · simp only [StateExcept.get_bind]
    rcases hop entity d l.store.fuel with hstop | hadd
    · left
      rw [hstop]
      exact ⟨_, l, rfl, rfl⟩
    · right
      rw [show (l.addFuel d).store.fuel = l.store.fuel.add d from rfl, hadd]
      cases op entity l.store.fuel <;> rfl

lemma pays_tableInit (entity : TableEntity) (element : ElementSegmentEntity)
    (dst src len : Nat) : Pays addToTable (entity.init element dst src len) := by
  intro d fuel
  unfold TableEntity.init
  by_cases hty : entity.element ≠ element.ty
  · simp only [if_pos hty]
    exact .inr rfl
  simp only [if_neg hty]
  cases slice? entity.elements dst len with
  | none => exact .inr rfl
  | some old =>
    cases slice? element.items src len with
    | none => exact .inr rfl
    | some items =>
      by_cases hlen : len = 0
      · simp only [if_pos hlen]
        exact .inr rfl
      · simp only [if_neg hlen]
        exact (pays_consumeFuelIf _).andReturn _ d fuel

lemma pays_tableCopy (entity source : TableEntity) (dst src len : Nat) :
    Pays addToTable (entity.copy dst source src len) := by
  intro d fuel
  unfold TableEntity.copy
  cases slice? entity.elements dst len with
  | none => exact .inr rfl
  | some old =>
    cases slice? source.elements src len with
    | none => exact .inr rfl
    | some items => exact (pays_consumeFuelIf _).andReturn _ d fuel

lemma pays_tableCopyWithin (entity : TableEntity) (dst src len : Nat) :
    Pays addToTable (entity.copyWithin dst src len) := by
  intro d fuel
  unfold TableEntity.copyWithin
  by_cases hbound : u32Max < max dst src + len ∨ entity.size < max dst src + len
  · simp only [if_pos hbound]
    exact .inr rfl
  · simp only [if_neg hbound]
    exact (pays_consumeFuelIf _).andReturn _ d fuel

lemma pays_tableFill (entity : TableEntity) (dst : Nat) (value : UntypedVal) (len : Nat) :
    Pays addToTable (entity.fillUntyped dst value len) := by
  intro d fuel
  unfold TableEntity.fillUntyped
  cases slice? entity.elements dst len with
  | none => exact .inr rfl
  | some old => exact (pays_consumeFuelIf _).andReturn _ d fuel

lemma tame_executeTableCopy (dst src len : Operand) :
    Tame (executeTableCopy env dst src len) := by
  refine (tame_operand _).bind fun dst => (tame_operand _).bind fun src => ?_
  refine (tame_operand _).bind fun len => (tame_fetchTableIndex 1).bind fun dstTableIndex => ?_
  refine (tame_fetchTableIndex 2).bind fun srcTableIndex => ?_
  dsimp only
  split
  · refine (tame_getEntity _ _).bind fun table => ?_
    refine (tame_tableOp _ fun entity => pays_tableCopyWithin _ _ _ _).bind fun _ => ?_
    exact tame_nextInstrAt 3
  · refine (tame_getEntity _ _).bind fun dstTable => (tame_getEntity _ _).bind fun srcTable => ?_
    have hend : Tame (do
        let srcEntity ← resolve (·.tables) srcTable
        tableOp dstTable fun entity fuel => entity.copy dst srcEntity src len fuel
        nextInstrAt 3 : LocalM T Unit) := by
      refine (tame_resolve _ _).bind fun srcEntity => ?_
      refine (tame_tableOp _ fun entity => pays_tableCopy _ _ _ _ _).bind fun _ => ?_
      exact tame_nextInstrAt 3
    split
    · exact (Tame.throw _).bind fun _ => hend
    · exact hend

lemma tame_executeTableInit (dst src len : Operand) :
    Tame (executeTableInit env dst src len) := by
  refine (tame_operand _).bind fun dst => (tame_operand _).bind fun src => ?_
  refine (tame_operand _).bind fun len => (tame_fetchTableIndex 1).bind fun tableIndex => ?_
  refine (tame_fetchElementSegmentIndex 2).bind fun elementIndex => ?_
  refine (tame_getEntity _ _).bind fun table => (tame_getEntity _ _).bind fun element => ?_
  refine (tame_resolve _ _).bind fun element => ?_
  refine (tame_tableOp _ fun entity => pays_tableInit _ _ _ _ _).bind fun _ => ?_
  exact tame_nextInstrAt 3

lemma tame_executeTableFill (dst len : Operand) (value : Reg) :
    Tame (executeTableFill env dst len value) := by
  refine (tame_operand _).bind fun dst => (tame_operand _).bind fun len => ?_
  refine (tame_fetchTableIndex 1).bind fun tableIndex => (tame_getRegister _).bind fun value => ?_
  refine (tame_getEntity _ _).bind fun table => ?_
  refine (tame_tableOp _ fun entity => pays_tableFill _ _ _ _).bind fun _ => ?_
  exact tame_nextInstrAt 2

lemma tame_executeElementDrop (segmentIndex : Nat) :
    Tame (executeElementDrop segmentIndex : LocalM T Unit) := by
  refine (tame_getEntity _ _).bind fun segment => (tame_resolve _ _).bind fun entity => ?_
  refine Tame.bind ?_ fun _ => tame_nextInstr
  exact tame_modifyStore (fun _ => rfl) fun _ _ => rfl

/-! ## Memories -/

lemma tame_executeDataDrop (segmentIndex : Nat) :
    Tame (executeDataDrop segmentIndex : LocalM T Unit) := by
  refine (tame_getEntity _ _).bind fun segment => (tame_resolve _ _).bind fun entity => ?_
  refine Tame.bind ?_ fun _ => tame_nextInstr
  exact tame_modifyStore (fun _ => rfl) fun _ _ => rfl

lemma tame_executeMemorySizeImpl (result : Reg) (memory : Nat) :
    Tame (executeMemorySizeImpl result memory : LocalM T Unit) := by
  refine (tame_getEntity _ _).bind fun memory => (tame_resolve _ _).bind fun memory => ?_
  exact tame_setRegister _ _

lemma tame_bytesAt (bytes : List Byte) (start len : Nat) :
    Tame (bytesAt bytes start len : LocalM T (List Byte)) := by
  unfold bytesAt
  split
  · exact Tame.pure _
  · exact Tame.throw _

lemma bytesAt_eq_ok {bytes found : List Byte} {start len : Nat} {l l' : Local T}
    (h : bytesAt bytes start len l = .ok found l') : slice? bytes start len = some found := by
  unfold bytesAt at h
  cases hslice : slice? bytes start len with
  | none =>
    rw [hslice] at h
    cases h
  | some ys =>
    rw [hslice] at h
    cases h
    rfl

lemma fuelBlind_writeBytes (memory : Nat) (entity : MemoryEntity) (dst : Nat)
    (bytes : List Byte) : FuelBlind (writeBytes memory entity dst bytes : LocalM T Unit) :=
  fuelBlind_pay (pays_consumeFuelIf _) (fuelBlind_setMemory _ _)

/-- Writing bytes over as many of a memory keeps its size. -/
lemma keepsAt_writeBytes {l : Local T} {memory dst : Nat} {entity : MemoryEntity}
    {bytes : List Byte} (hentity : l.store.memories[memory]? = some entity)
    (hbound : dst + bytes.length ≤ entity.bytes.length) :
    KeepsAt (fun l => (l.cache, l.store.shape)) l
      (writeBytes memory entity dst bytes : LocalM T Unit) := by
  refine KeepsAt.after ReadOnly.get fun l' hget => ?_
  obtain rfl : l = l' := by
    cases hget
    rfl
  refine KeepsAt.after (readOnly_liftTrap _) fun fuel _ => ?_
  have hset : KeepsAt (fun l => (l.cache, l.store.shape))
      { l with store := { l.store with fuel } } (setMemory memory
        { entity with bytes := overwrite entity.bytes dst bytes } : LocalM T Unit) :=
    keepsAt_setMemory hentity (length_overwrite hbound)
  exact hset

/-- The end of a bulk memory operation: checks of both ranges, then the bytes are written. -/
lemma tame_checkAndWrite (memory dst skip : Nat) (checks : MemoryEntity → LocalM T (List Byte))
    (hread : ∀ entity, ReadOnly (checks entity)) (hchecks : ∀ entity, Tame (checks entity))
    (hbound : ∀ entity bytes l, checks entity l = .ok bytes l →
      dst + bytes.length ≤ entity.bytes.length) :
    Tame (do
      let entity ← resolve (·.memories) memory
      let bytes ← checks entity
      writeBytes memory entity dst bytes
      nextInstrAt skip) := by
  refine ⟨keeps_of_keepsAt fun l => ?_, fun d => ?_⟩
  · refine KeepsAt.after (readOnly_resolve _ _) fun entity hentity => ?_
    refine KeepsAt.after (hread entity) fun bytes hbytes => ?_
    refine KeepsAt.bind ?_ fun _ => (tame_nextInstrAt skip).shape
    simp only [resolve, StateExcept.get_bind, unwrap_eq_ok] at hentity
    exact keepsAt_writeBytes hentity.1 (hbound entity bytes l hbytes)
  · refine ((tame_resolve _ _).fuel d).bind fun entity => ((hchecks entity).fuel d).bind ?_
    intro bytes
    exact (fuelBlind_writeBytes _ _ _ _ d).bind fun _ => (tame_nextInstrAt skip).fuel d

/-- Bytes of a source, once the destination has been checked to have room for them. -/
lemma tame_copyTo (memory dst src len skip : Nat) (source : MemoryEntity → List Byte) :
    Tame (do
      let entity ← resolve (·.memories) memory
      let bytes ← bytesAt (source entity) src len
      let _ ← bytesAt entity.bytes dst len
      writeBytes memory entity dst bytes
      nextInstrAt skip : LocalM T Unit) := by
  have h := tame_checkAndWrite (T := T) memory dst skip
    (fun entity => do
      let bytes ← bytesAt (source entity) src len
      let _ ← bytesAt entity.bytes dst len
      return bytes)
    (fun entity => (readOnly_bytesAt _ _ _).bind fun _ => (readOnly_bytesAt _ _ _).bind fun _ =>
      ReadOnly.pure _)
    (fun entity => (tame_bytesAt _ _ _).bind fun _ => (tame_bytesAt _ _ _).bind fun _ =>
      Tame.pure _)
    (by
      intro entity bytes l h
      simp only [bind_eq_ok, pure_apply, EStateM.Result.ok.injEq] at h
      obtain ⟨found, _, hfound, _, _, hroom, rfl, rfl⟩ := h
      rw [length_of_slice? (bytesAt_eq_ok hfound)]
      exact (slice?_eq_some.mp (bytesAt_eq_ok hroom)).1)
  simpa only [bind_assoc, pure_bind] using h

lemma tame_executeMemoryCopy (dst src len : Operand) :
    Tame (executeMemoryCopy env dst src len) := by
  refine (tame_operand _).bind fun dst => (tame_operand _).bind fun src => ?_
  refine (tame_operand _).bind fun len => (tame_fetchMemoryIndex 1).bind fun dstMemory => ?_
  refine (tame_fetchMemoryIndex 2).bind fun srcMemory => ?_
  dsimp only
  split
  · exact (tame_getEntity _ _).bind fun memory => tame_copyTo _ _ _ _ 3 (·.bytes)
  · refine (tame_getEntity _ _).bind fun srcMemory => (tame_getEntity _ _).bind fun dstMemory => ?_
    have hend : Tame (do
        let srcEntity ← resolve (·.memories) srcMemory
        let dstEntity ← resolve (·.memories) dstMemory
        let srcBytes ← bytesAt srcEntity.bytes src len
        let _ ← bytesAt dstEntity.bytes dst len
        writeBytes dstMemory dstEntity dst srcBytes
        nextInstrAt 3 : LocalM T Unit) :=
      (tame_resolve _ _).bind fun srcEntity => tame_copyTo _ _ _ _ 3 fun _ => srcEntity.bytes
    split
    · exact (Tame.throw _).bind fun _ => hend
    · exact hend

lemma tame_executeMemoryFill (dst : Operand) (value : ByteOperand) (len : Operand) :
    Tame (executeMemoryFill env dst value len) := by
  refine (tame_operand _).bind fun dst => (tame_byteOperand _).bind fun value => ?_
  refine (tame_operand _).bind fun len => (tame_fetchMemoryIndex 1).bind fun memory => ?_
  refine (tame_getEntity _ _).bind fun memory => ?_
  have h := tame_checkAndWrite (T := T) memory dst 2
    (fun entity => do
      let _ ← bytesAt entity.bytes dst len
      return List.replicate len value)
    (fun entity => (readOnly_bytesAt _ _ _).bind fun _ => ReadOnly.pure _)
    (fun entity => (tame_bytesAt _ _ _).bind fun _ => Tame.pure _)
    (by
      intro entity bytes l h
      simp only [bind_eq_ok, pure_apply, EStateM.Result.ok.injEq] at h
      obtain ⟨_, _, hroom, rfl, rfl⟩ := h
      rw [List.length_replicate]
      exact (slice?_eq_some.mp (bytesAt_eq_ok hroom)).1)
  simpa only [bind_assoc, pure_bind] using h

lemma tame_executeMemoryInit (dst src len : Operand) :
    Tame (executeMemoryInit env dst src len) := by
  refine (tame_operand _).bind fun dst => (tame_operand _).bind fun src => ?_
  refine (tame_operand _).bind fun len => (tame_fetchMemoryIndex 1).bind fun memory => ?_
  refine (tame_fetchDataSegmentIndex 2).bind fun data => (tame_getEntity _ _).bind fun memory => ?_
  refine (tame_getEntity _ _).bind fun data => (tame_resolve _ _).bind fun data => ?_
  have h := tame_checkAndWrite (T := T) memory dst 3
    (fun entity => do
      let _ ← bytesAt entity.bytes dst len
      bytesAt data src len)
    (fun entity => (readOnly_bytesAt _ _ _).bind fun _ => readOnly_bytesAt _ _ _)
    (fun entity => (tame_bytesAt _ _ _).bind fun _ => tame_bytesAt _ _ _)
    (by
      intro entity bytes l h
      obtain ⟨_, _, hroom, hbytes⟩ := bind_eq_ok.mp h
      rw [length_of_slice? (bytesAt_eq_ok hbytes)]
      exact (slice?_eq_some.mp (bytesAt_eq_ok hroom)).1)
  simpa only [bind_assoc, pure_bind] using h

/-! ## Growth -/

/-- A growth that fails keeps the sizes, and so does one that succeeds on a table. -/
lemma keepsShape_growTable (table : Nat) (entity : TableEntity) (grow : GrowM TableEntity T Nat) :
    KeepsShape (growOp entity grow (setTable table) (pure ())) := by
  refine Keeps.get.bind fun l => ?_
  have hstate : ∀ fuel data, KeepsShape
      (modifyStore fun store => { store with fuel, data } : LocalM T Unit) :=
    fun fuel data => Keeps.modify fun _ => rfl
  dsimp only
  split
  · refine (tame_setTable _ _).shape.bind fun _ => (hstate _ _).bind fun _ => ?_
    exact (Tame.pure _).shape.bind fun _ => Keeps.pure _
  · refine (hstate _ _).bind fun _ => ?_
    split
    · exact Keeps.pure _
    · exact Keeps.throw _
    · exact Keeps.throw _

lemma keepsShape_executeTableGrow (result : Reg) (delta : Operand) (value : Reg) :
    KeepsShape (executeTableGrow env result delta value) := by
  refine (tame_operand _).shape.bind fun delta => ?_
  refine (tame_fetchTableIndex 1).shape.bind fun tableIndex => ?_
  split
  · exact ((tame_executeTableSizeImpl _ _).bind fun _ => tame_nextInstrAt 2).shape
  · refine (tame_getEntity _ _).shape.bind fun table => (tame_getRegister _).shape.bind ?_
    refine fun value => (readOnly_resolve _ _).keeps.bind fun entity => ?_
    exact (keepsShape_growTable _ _ _).bind fun _ => (tame_result _ _ 2).shape

end Local

/-! ## All of them -/

/-- The two instructions that grow an entity. -/
def growsEntity : Op → Bool
  | .tableGrow .. | .memoryGrow .. => true
  | _ => false

/-- An instruction that grows no entity keeps the cached instance and what it depends on, and more
fuel does not change what it does. -/
theorem tame_executeLocal {env : Engine T} {op : Op} (hop : growsEntity op = false) :
    Tame (executeLocal env op) := by
  have hreg := fun reg => tame_getRegister (T := T) reg
  have hpure := fun value : UntypedVal => Tame.pure (T := T) value
  unfold executeLocal
  split
  · exact Tame.throw _
  · exact tame_executeConsumeFuel _
  · exact tame_branchTo _
  · exact tame_executeBranchTable0 _ _
  · exact tame_executeBranchTable1 _ _
  · exact tame_executeBranchTable2 _ _
  · exact tame_executeBranchTable3 _ _
  · exact tame_executeBranchTableSpan _ _
  · exact tame_executeBranchCmpFallback _ _ _
  · exact tame_executeBranchBinop _ _ _ _
  · exact tame_executeBranchBinopImm _ _ _ _
  · exact tame_executeCopy _ _
  · exact tame_executeCopy2 _ _ _
  · exact tame_result _ _ 1
  · exact tame_result _ _ 1
  · exact tame_result _ _ 1
  · exact (tame_executeCopySpanImpl _ _ _).bind fun _ => tame_nextInstr
  · exact (tame_executeCopySpanNonOverlappingImpl _ _ _).bind fun _ => tame_nextInstr
  · exact tame_executeCopyMany _ _ _ tame_executeCopyManyImpl
  · exact tame_executeCopyMany _ _ _ tame_executeCopyManyNonOverlappingImpl
  · exact tame_executeSelectRhsReg _ (hreg _)
  · exact tame_executeSelectRhsImm _ (hreg _) _
  · exact tame_executeSelectRhsReg _ (hpure _)
  · exact tame_executeSelectRhsImm _ (hpure _) _
  · exact tame_executeSelectRhsImm _ (hreg _) _
  · exact tame_executeSelectRhsReg _ (hpure _)
  · exact tame_executeSelectRhsImm _ (hpure _) _
  · exact tame_executeSelectRhsImm _ (hreg _) _
  · exact tame_executeSelectRhsReg _ (hpure _)
  · exact tame_executeSelectRhsImm _ (hpure _) _
  · exact tame_executeRefFunc _ _
  · exact tame_executeGlobalGet _ _
  · exact (tame_getRegister _).bind fun _ => tame_executeGlobalSetImpl _ _
  · exact tame_executeGlobalSetImpl _ _
  · exact tame_executeGlobalSetImpl _ _
  · exact tame_executeLoad _ _ _
  · exact tame_executeLoadAt _ _ _
  · exact tame_executeLoadOffset16 _ _ _ _
  · exact tame_executeStore _ _ _
  · exact tame_executeStoreImm _ _ _
  · exact tame_executeStoreOffset16 _ _ (hreg _) _
  · exact tame_executeStoreOffset16 _ _ (hpure _) _
  · exact tame_executeStoreAt _ (hreg _) _
  · exact tame_executeStoreAt _ (hpure _) _
  · exact tame_executeUnary _ _ _
  · exact tame_tryExecuteUnary _ _ _
  · exact tame_executeBinary _ _ _ _
  · exact tame_tryExecuteBinary _ _ _ _
  · exact tame_executeUnary _ _ _
  · exact tame_executeUnary _ _ _
  · exact tame_executeUnary _ _ _
  · exact tame_tryExecuteUnary _ _ _
  · exact tame_tryExecuteUnary _ _ _
  · exact tame_executeUnary _ _ _
  · exact tame_executeTableGet _ _
  · exact (tame_executeTableSizeImpl _ _).bind fun _ => tame_nextInstr
  · exact tame_executeTableSet _ _
  · exact tame_executeTableCopy _ _ _
  · exact tame_executeTableInit _ _ _
  · exact tame_executeTableFill _ _ _
  · cases hop
  · exact tame_executeElementDrop _
  · exact tame_executeDataDrop _
  · exact (tame_executeMemorySizeImpl _ _).bind fun _ => tame_nextInstr
  · cases hop
  · exact tame_executeMemoryCopy _ _ _
  · exact tame_executeMemoryFill _ _ _
  · exact tame_executeMemoryInit _ _ _
  · exact Tame.throw _

end Executor

end MotokoDebugger
