import MotokoDebugger.Core.Accesses
import MotokoDebugger.Executor.Coherence
import MotokoDebugger.Executor.Copies
import MotokoDebugger.Executor.Growth

/-!
# What the loads and stores do

The load and store instructions by the bytes that they access.

* `MemoryAt`: a memory of the running instance.
* `Loads`, `Stores`: what is prescribed for an access. `loads_load`, `stores_store` and so on: the
  instructions do that, each with the words that it fetches its operands from.
-/

namespace MotokoDebugger

open StateExcept

variable {T : Type}

/-- The memory at `index` of the running instance is `memory`. -/
structure MemoryAt (l : Local T) (index handle : Nat) (memory : MemoryEntity) : Prop where
  coherent : Coherent l.store l.cache l.cache.inst
  handle_eq : ∃ inst, l.store.instances[l.cache.inst]? = some inst ∧
    inst.memories[index]? = some handle
  entity : l.store.memories[handle]? = some memory
  reached : memory.Reached

/-- What is prescribed for a load: the result register gets the value of the bytes, which has to be
in the memory. -/
inductive Loads (op : LoadOp) (memory : MemoryEntity) (address : Nat) (result : Reg)
    (next : InstructionPtr) (l : Local T) : EStateM.Result Stop (Local T) Unit → Prop where
  | loaded {l' : Local T} {value : Nat} (inside : address + op.width ≤ memory.bytes.length)
    (bytes : HasValue memory.bytes address op.width value) (ip : l'.ip = next)
    (moved : l.Moved l' (Function.update l.read result (some (op.extended value)))) :
    Loads op memory address result next l (.ok () l')
  | outOfBounds {l' : Local T} (outside : ¬ address + op.width ≤ memory.bytes.length)
    (same : l'.still = l.still) :
    Loads op memory address result next l (.error (.trap .memoryOutOfBounds) l')

/-- What is prescribed for a store: the bytes get the value, and nothing else is changed. -/
inductive Stores (op : StoreOp) (handle : Nat) (memory : MemoryEntity) (address : Nat)
    (value : UntypedVal) (next : InstructionPtr) (l : Local T) :
    EStateM.Result Stop (Local T) Unit → Prop where
  | stored {after : List Byte} (inside : address + op.width ≤ memory.bytes.length)
    (bytes : Stored memory.bytes after address op.width value.toNat) :
    Stores op handle memory address value next l (.ok ()
      { l with
        ip := next
        store := { l.store with
          memories := l.store.memories.set handle { memory with bytes := after } } })
  | outOfBounds {l' : Local T} (outside : ¬ address + op.width ≤ memory.bytes.length)
    (same : l'.still = l.still) :
    Stores op handle memory address value next l (.error (.trap .memoryOutOfBounds) l')

namespace MemoryAt

variable {l : Local T} {index handle : Nat} {memory : MemoryEntity}

lemma setIp (h : MemoryAt l index handle memory) (ip : InstructionPtr) :
    MemoryAt { l with ip } index handle memory := ⟨h.coherent, h.handle_eq, h.entity, h.reached⟩

lemma length_le (h : MemoryAt l index handle memory) : memory.bytes.length ≤ 2 ^ 32 := by
  have hwell := h.reached.wellFormed
  have hpages : memory.currentPages ≤ 65536 := hwell.pages
  have hlen : memory.bytes.length = memory.currentPages * 65536 := hwell.len
  omega

/-- A store leaves the memory where it is. -/
lemma stored {after : List Byte} {address n value : Nat} (h : MemoryAt l index handle memory)
    (hstored : Stored memory.bytes after address n value)
    (hinside : address + n ≤ memory.bytes.length) (ip : InstructionPtr) :
    MemoryAt { l with
      ip
      store := { l.store with memories := l.store.memories.set handle { memory with bytes := after } } }
      index handle { memory with bytes := after } := by
  have hlength := hstored.length_eq hinside
  obtain ⟨hlt, hentity⟩ := List.getElem?_eq_some_iff.1 h.entity
  refine ⟨?_, h.handle_eq, List.getElem?_set_self hlt, ?_⟩
  · have hshape : ({ l.store with
        memories := l.store.memories.set handle { memory with bytes := after } } : Store T).shape =
        l.store.shape := by
      have hlengths : (l.store.memories.set handle { memory with bytes := after }).map
          (·.bytes.length) = l.store.memories.map (·.bytes.length) := by
        have hthere : (l.store.memories.map (·.bytes.length))[handle]? = some after.length := by
          rw [List.getElem?_map, h.entity, hlength]
          rfl
        obtain ⟨hlt', heq⟩ := List.getElem?_eq_some_iff.1 hthere
        rw [List.map_set, ← heq, List.set_getElem_self]
      show (l.store.instances, _, l.store.globals.length) = _
      rw [hlengths]
      rfl
    have hload := coherent_iff_load.1 h.coherent
    rw [← load_of_shape hshape] at hload
    exact coherent_iff_load.2 hload
  · obtain ⟨start, n, hnew, hrun⟩ := h.reached
    exact ⟨start, n + 1, hnew, hrun.tail (.write memory after hlength)⟩

/-- The default memory is the cached one. -/
lemma fetchDefaultMemory_ok (h : MemoryAt l 0 handle memory) :
    Executor.fetchDefaultMemory l = .ok (some (handle, memory)) l := by
  obtain ⟨inst, hinst, hhandle⟩ := h.handle_eq
  obtain ⟨entity, hentity, hcached, -⟩ := h.coherent.entity
  obtain rfl := Option.some.inj (hinst.symm.trans hentity)
  rw [List.head?_eq_getElem?, hhandle] at hcached
  obtain ⟨cached, hcache, rfl⟩ := Option.map_eq_some_iff.1 hcached
  obtain ⟨memory', hmemory', hlen⟩ := h.coherent.bytes cached hcache
  obtain rfl := Option.some.inj (h.entity.symm.trans hmemory')
  rw [Executor.fetchDefaultMemory, get_bind, hcache]
  show (get >>= _ : LocalM T _) l = _
  rw [get_bind, h.entity]
  show (if _ then _ else _ : LocalM T _) l = _
  rw [if_pos hlen.symm]
  rfl

lemma fetchMemory_ok (h : MemoryAt l index handle memory) :
    Executor.fetchMemory index l = .ok (some (handle, memory)) l := by
  cases index with
  | zero => exact h.fetchDefaultMemory_ok
  | succ index =>
    obtain ⟨inst, hinst, hhandle⟩ := h.handle_eq
    have hget : Executor.getMemory (index + 1) l = .ok handle l := by
      rw [Executor.getMemory, Executor.getEntity, get_bind, hinst]
      show (assume inst.memories[index + 1]? : LocalM T Nat) l = _
      rw [hhandle]
      rfl
    have hresolve : Executor.resolve (·.memories) handle l = .ok memory l := by
      rw [Executor.resolve, get_bind, h.entity]
      rfl
    show (Executor.getMemory (index + 1) >>= _ : LocalM T _) l = _
    rw [bind_ok hget, bind_ok hresolve]
    rfl

end MemoryAt

/-! ## The instruction pointer

An access from another instruction pointer is the same access. -/

section SetIp

variable {l : Local T} {memory : MemoryEntity} {address : Nat} {next ip : InstructionPtr}
  {r : EStateM.Result Stop (Local T) Unit}

lemma Loads.setIp {op : LoadOp} {result : Reg}
    (h : Loads op memory address result next { l with ip } r) :
    Loads op memory address result next l r := by
  cases h with
  | loaded inside bytes hip moved =>
    exact .loaded inside bytes hip ⟨moved.read, moved.base, moved.length, moved.cache, moved.store⟩
  | outOfBounds outside same => exact .outOfBounds outside same

lemma Stores.setIp {op : StoreOp} {handle : Nat} {value : UntypedVal}
    (h : Stores op handle memory address value next { l with ip } r) :
    Stores op handle memory address value next l r := by
  cases h with
  | stored inside bytes => exact .stored inside bytes
  | outOfBounds outside same => exact .outOfBounds outside same

/-- Only the low bytes of the value are stored. -/
lemma Stores.congr {l : Local T} {op : StoreOp} {handle : Nat} {value value' : UntypedVal}
    (heq : value.toNat % 256 ^ op.width = value'.toNat % 256 ^ op.width)
    (h : Stores op handle memory address value next l r) :
    Stores op handle memory address value' next l r := by
  cases h with
  | stored inside bytes =>
    refine .stored inside ⟨?_, bytes.rest⟩
    rw [← heq]
    exact bytes.written
  | outOfBounds outside same => exact .outOfBounds outside same

end SetIp

/-! ## The instructions -/

namespace Executor

variable {env : Engine T} {l : Local T} {index handle : Nat} {memory : MemoryEntity}

/-! ### Parameter words -/

lemma fetchParam_ok {n : Nat} {word : Instruction} (h : env.instrAt (l.ip.add n) = some word) :
    fetchParam env n l = .ok word.op l := by
  rw [fetchParam, get_bind, getInstr, h]
  rfl

lemma fetchRegisterAndImm32_ok {instrOffset : Nat} {reg : Reg} {imm : AnyConst32}
    (h : env.instrAt (l.ip.add 1) = some ⟨instrOffset, .registerAndImm32 reg imm⟩) :
    fetchRegisterAndImm32 env l = .ok (reg, imm) l := by
  rw [fetchRegisterAndImm32, bind_ok (fetchParam_ok h)]
  rfl

lemma fetchValueAndOffsetImm_ok {instrOffset : Nat} {imm16 : Const16} {imm32 : AnyConst32}
    (h : env.instrAt (l.ip.add 1) = some ⟨instrOffset, .imm16AndImm32 imm16 imm32⟩) :
    fetchValueAndOffsetImm env l = .ok (imm16, imm32) l := by
  rw [fetchValueAndOffsetImm, bind_ok (fetchParam_ok h)]
  rfl

lemma fetchOptionalMemory_default {word : Instruction}
    (h : env.instrAt (l.ip.add 1) = some word) (hother : ∀ index, word.op ≠ .memoryIndex index) :
    fetchOptionalMemory env l = .ok 0 l := by
  rw [fetchOptionalMemory, bind_ok (fetchParam_ok h)]
  refine congrFun (?_ : _ = (pure 0 : LocalM T Nat)) l
  split
  case h_1 index hop => exact absurd hop (hother index)
  case h_2 => rfl

lemma fetchOptionalMemory_index {instrOffset : Nat}
    (h : env.instrAt (l.ip.add 1) = some ⟨instrOffset, .memoryIndex index⟩) :
    fetchOptionalMemory env l = .ok index { l with ip := l.ip.add 1 } := by
  rw [fetchOptionalMemory, bind_ok (fetchParam_ok h)]
  rfl

lemma add_add (ip : InstructionPtr) (m n : Nat) : (ip.add m).add n = ip.add (m + n) := by
  show InstructionPtr.mk _ (ip.pc + m + n) = InstructionPtr.mk _ (ip.pc + (m + n : Nat))
  congr 1
  omega

lemma toNat_zeroExtend_offset (offset : Const16) : (offset.zeroExtend 32).toNat = offset.toNat := by
  have hlt : offset.toNat < 2 ^ 16 := offset.isLt
  rw [BitVec.toNat_setWidth, Nat.mod_eq_of_lt (by omega)]

/-! ### Loads -/

section Loads

variable {op : LoadOp} {result : Reg} {address : UntypedVal} {offset : BitVec 32}

/-- The end of every load. -/
lemma loads_executeLoadExtend (hmemory : MemoryAt l index handle memory)
    (hresult : (l.read result).isSome) (skip : Nat) :
    Loads op memory (address.toI32.toNat + offset.toNat) result (l.ip.add skip) l ((do
      executeLoadExtend (some (handle, memory)) result address offset op
      nextInstrAt skip : LocalM T Unit) l) := by
  by_cases hinside : address.toI32.toNat + offset.toNat + op.width ≤ memory.bytes.length
  · obtain ⟨value, hvalue, heval⟩ := LoadOp.eval_inside hinside hmemory.length_le
    obtain ⟨l', hset, hip, hmoved⟩ := setRegister_moved (op.extended value) hresult
    have hload : executeLoadExtend (some (handle, memory)) result address offset op l =
        .ok () l' := by
      rw [executeLoadExtend, bytesOf, heval]
      exact hset
    rw [bind_ok hload, nextInstrAt_apply]
    exact .loaded hinside hvalue (by rw [hip]) (hmoved.setIp _)
  · have hload : executeLoadExtend (some (handle, memory)) result address offset op l =
        .error (.trap .memoryOutOfBounds) l := by
      rw [executeLoadExtend, bytesOf, LoadOp.eval_outside hinside]
      rfl
    rw [bind_error hload]
    exact .outOfBounds hinside rfl

/-- The general form: pointer and offset are in the word behind the instruction. -/
lemma loads_load {instrOffset : Nat} {ptr : Reg} (hmemory : MemoryAt l index handle memory)
    (hparam : env.instrAt (l.ip.add 1) = some ⟨instrOffset, .registerAndImm32 ptr offset⟩)
    (hptr : l.read ptr = some address) (hresult : (l.read result).isSome) :
    Loads op memory (address.toI32.toNat + offset.toNat) result (l.ip.add 2) l
      (executeLocal env (.load op result index) l) := by
  have hget : getRegister ptr l = .ok address l := getRegister_eq_ok.2 ⟨hptr, rfl⟩
  show Loads _ _ _ _ _ _ (executeLoad env result index op l)
  rw [executeLoad, bind_ok (fetchRegisterAndImm32_ok hparam)]
  dsimp only
  rw [bind_ok hget, bind_ok hmemory.fetchMemory_ok]
  exact loads_executeLoadExtend hmemory hresult 2

/-- The form with a 16-bit offset, for the default memory. -/
lemma loads_loadOffset16 {ptr : Reg} {offset : Const16} (hmemory : MemoryAt l 0 handle memory)
    (hptr : l.read ptr = some address) (hresult : (l.read result).isSome) :
    Loads op memory (address.toI32.toNat + offset.toNat) result (l.ip.add 1) l
      (executeLocal env (.loadOffset16 op result ptr offset) l) := by
  have hget : getRegister ptr l = .ok address l := getRegister_eq_ok.2 ⟨hptr, rfl⟩
  have hoffset : (offset.zeroExtend 32).toNat = offset.toNat := toNat_zeroExtend_offset offset
  show Loads _ _ _ _ _ _ (executeLoadOffset16 result ptr offset op l)
  rw [executeLoadOffset16, bind_ok hget, bind_ok hmemory.fetchDefaultMemory_ok, ← hoffset]
  exact loads_executeLoadExtend hmemory hresult 1

/-- The form with a constant address, for the default memory. -/
lemma loads_loadAt {word : Instruction} {address : BitVec 32} (hmemory : MemoryAt l 0 handle memory)
    (hnext : env.instrAt (l.ip.add 1) = some word) (hother : ∀ index, word.op ≠ .memoryIndex index)
    (hresult : (l.read result).isSome) :
    Loads op memory address.toNat result (l.ip.add 1) l
      (executeLocal env (.loadAt op result address) l) := by
  have hzero : (0 : UntypedVal).toI32.toNat + address.toNat = address.toNat := Nat.zero_add _
  show Loads _ _ _ _ _ _ (executeLoadAt env result address op l)
  rw [executeLoadAt, bind_ok (fetchOptionalMemory_default hnext hother),
    bind_ok hmemory.fetchMemory_ok, ← hzero]
  exact loads_executeLoadExtend hmemory hresult 1

/-- The form with a constant address and a word with the index of the memory. -/
lemma loads_loadAt_index {instrOffset : Nat} {address : BitVec 32}
    (hmemory : MemoryAt l index handle memory)
    (hnext : env.instrAt (l.ip.add 1) = some ⟨instrOffset, .memoryIndex index⟩)
    (hresult : (l.read result).isSome) :
    Loads op memory address.toNat result (l.ip.add 2) l
      (executeLocal env (.loadAt op result address) l) := by
  have hzero : (0 : UntypedVal).toI32.toNat + address.toNat = address.toNat := Nat.zero_add _
  have hmemory' := hmemory.setIp (l.ip.add 1)
  show Loads _ _ _ _ _ _ (executeLoadAt env result address op l)
  rw [executeLoadAt, bind_ok (fetchOptionalMemory_index hnext), bind_ok hmemory'.fetchMemory_ok,
    ← hzero, ← add_add l.ip 1 1]
  exact (loads_executeLoadExtend hmemory' hresult 1).setIp

end Loads

/-! ### Stores -/

section Stores

variable {op : StoreOp} {address value : UntypedVal} {offset : BitVec 32}

/-- The end of every store. -/
lemma stores_executeStoreWrap (hmemory : MemoryAt l index handle memory) (skip : Nat) :
    Stores op handle memory (address.toI32.toNat + offset.toNat) value (l.ip.add skip) l ((do
      executeStoreWrap (some (handle, memory)) address offset value op
      nextInstrAt skip : LocalM T Unit) l) := by
  by_cases hinside : address.toI32.toNat + offset.toNat + op.width ≤ memory.bytes.length
  · obtain ⟨after, hstored, heval⟩ := StoreOp.eval_inside hinside hmemory.length_le
    rw [executeStoreWrap, bytesOf, heval]
    exact .stored hinside hstored
  · have hstore : executeStoreWrap (some (handle, memory)) address offset value op l =
        .error (.trap .memoryOutOfBounds) l := by
      rw [executeStoreWrap, bytesOf, StoreOp.eval_outside hinside]
      rfl
    rw [bind_error hstore]
    exact .outOfBounds hinside rfl

/-- The general form: value and offset are in the word behind the instruction. -/
lemma stores_store {instrOffset : Nat} {ptr reg : Reg} (hmemory : MemoryAt l index handle memory)
    (hparam : env.instrAt (l.ip.add 1) = some ⟨instrOffset, .registerAndImm32 reg offset⟩)
    (hptr : l.read ptr = some address) (hvalue : l.read reg = some value) :
    Stores op handle memory (address.toI32.toNat + offset.toNat) value (l.ip.add 2) l
      (executeLocal env (.store op ptr index) l) := by
  have hget : getRegister ptr l = .ok address l := getRegister_eq_ok.2 ⟨hptr, rfl⟩
  have hget' : getRegister reg l = .ok value l := getRegister_eq_ok.2 ⟨hvalue, rfl⟩
  show Stores _ _ _ _ _ _ _ (executeStore env ptr index op l)
  rw [executeStore, bind_ok (fetchRegisterAndImm32_ok hparam)]
  dsimp only
  rw [bind_ok hget, bind_ok hget', bind_ok hmemory.fetchMemory_ok]
  exact stores_executeStoreWrap hmemory 2

lemma stores_storeImm {op : StoreImmOp} {instrOffset : Nat} {ptr : Reg} {imm : Const16}
    (hmemory : MemoryAt l index handle memory)
    (hparam : env.instrAt (l.ip.add 1) = some ⟨instrOffset, .imm16AndImm32 imm offset⟩)
    (hptr : l.read ptr = some address) :
    Stores op.toStoreOp handle memory (address.toI32.toNat + offset.toNat) (op.value imm)
      (l.ip.add 2) l (executeLocal env (.storeImm op ptr index) l) := by
  have hget : getRegister ptr l = .ok address l := getRegister_eq_ok.2 ⟨hptr, rfl⟩
  show Stores _ _ _ _ _ _ _ (executeStoreImm env ptr index op l)
  rw [executeStoreImm, bind_ok (fetchValueAndOffsetImm_ok hparam)]
  dsimp only
  rw [bind_ok hget, bind_ok hmemory.fetchMemory_ok]
  exact stores_executeStoreWrap hmemory 2

/-- The forms with a 16-bit offset, for the default memory. -/
lemma stores_executeStoreOffset16 {ptr : Reg} {offset : Const16} {x : LocalM T UntypedVal}
    (hmemory : MemoryAt l 0 handle memory) (hptr : l.read ptr = some address)
    (hvalue : x l = .ok value l) :
    Stores op handle memory (address.toI32.toNat + offset.toNat) value (l.ip.add 1) l
      (executeStoreOffset16 ptr offset x op l) := by
  have hget : getRegister ptr l = .ok address l := getRegister_eq_ok.2 ⟨hptr, rfl⟩
  have hoffset : (offset.zeroExtend 32).toNat = offset.toNat := toNat_zeroExtend_offset offset
  rw [executeStoreOffset16, bind_ok hget, bind_ok hvalue, bind_ok hmemory.fetchDefaultMemory_ok,
    ← hoffset]
  exact stores_executeStoreWrap hmemory 1

/-- The forms with a constant address, for the default memory. -/
lemma stores_executeStoreAt {word : Instruction} {address : BitVec 32} {x : LocalM T UntypedVal}
    (hmemory : MemoryAt l 0 handle memory) (hnext : env.instrAt (l.ip.add 1) = some word)
    (hother : ∀ index, word.op ≠ .memoryIndex index) (hvalue : x l = .ok value l) :
    Stores op handle memory address.toNat value (l.ip.add 1) l
      (executeStoreAt env address x op l) := by
  have hzero : (0 : UntypedVal).toI32.toNat + address.toNat = address.toNat := Nat.zero_add _
  rw [executeStoreAt, bind_ok (fetchOptionalMemory_default hnext hother), bind_ok hvalue,
    bind_ok hmemory.fetchMemory_ok, ← hzero]
  exact stores_executeStoreWrap hmemory 1

/-- The forms with a constant address and a word with the index of the memory. The value is read
behind that word. -/
lemma stores_executeStoreAt_index {instrOffset : Nat} {address : BitVec 32}
    {x : LocalM T UntypedVal} (hmemory : MemoryAt l index handle memory)
    (hnext : env.instrAt (l.ip.add 1) = some ⟨instrOffset, .memoryIndex index⟩)
    (hvalue : ∀ ip, x { l with ip } = .ok value { l with ip }) :
    Stores op handle memory address.toNat value (l.ip.add 2) l
      (executeStoreAt env address x op l) := by
  have hzero : (0 : UntypedVal).toI32.toNat + address.toNat = address.toNat := Nat.zero_add _
  have hmemory' := hmemory.setIp (l.ip.add 1)
  rw [executeStoreAt, bind_ok (fetchOptionalMemory_index hnext), bind_ok (hvalue _),
    bind_ok hmemory'.fetchMemory_ok, ← hzero, ← add_add l.ip 1 1]
  exact (stores_executeStoreWrap hmemory' 1).setIp

end Stores

end Executor

end MotokoDebugger
