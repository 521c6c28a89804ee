import MotokoDebugger.Executor.Accesses
import MotokoDebugger.Translator.Accesses
import MotokoDebugger.Translator.Defragment

/-!
# Exact memory accesses

The code that is emitted for a load or a store does what is prescribed for it, in every encoding.

* `Ready`: a state in front of the emitted words.
* `loads_visitLoad`, `stores_visitStore`: what the emitted words do.
* `accesses_exact`: with addresses as unbounded integers, and a load of what was stored.
-/

namespace MotokoDebugger.Translator

open StateExcept Fallible Executor

variable {T σ : Type}

/-! ## In front of the emitted words -/

/-- The words that were added are the next ones, and the constants are in their registers. The word
behind them begins another instruction. -/
structure Ready (env : Engine T) (translator translator' : FuncTranslator σ) (l : Local T) : Prop where
  code : ∃ (before later : List Instruction) (word : Instruction),
    (env.codeMap l.ip.func).instrs = before ++
      (translator'.encoder.instrs.drop translator.encoder.instrs.length ++ word :: later) ∧
    l.ip.pc = before.length ∧ ∀ index, word.op ≠ .memoryIndex index
  consts : ∃ pool, translator'.stack.consts.Extends pool ∧ ConstsIn pool l

section Ready

variable {env : Engine T} {translator translator' : FuncTranslator σ} {l : Local T} {op param : Op}

lemma instrAt_of_code {before rest : List Instruction} {n : Nat}
    (hcode : (env.codeMap l.ip.func).instrs = before ++ rest) (hpc : l.ip.pc = before.length) :
    env.instrAt (l.ip.add n) = rest[n]? := by
  have hpos : 0 ≤ (l.ip.add n).pc := by
    show 0 ≤ l.ip.pc + n
    omega
  have hdrop : (l.ip.add n).pc.toNat = before.length + n := by
    show (l.ip.pc + n).toNat = _
    omega
  rw [Engine.instrAt, Engine.wordsAt, if_pos hpos, Option.bind_some, hdrop, List.head?_drop]
  show (env.codeMap l.ip.func).instrs[before.length + n]? = _
  rw [hcode, List.getElem?_append_right (Nat.le_add_right _ _), Nat.add_sub_cancel_left]

lemma add_zero_ip (ip : InstructionPtr) : ip.add 0 = ip := by
  show InstructionPtr.mk _ (ip.pc + (0 : Nat)) = _
  simp

/-- A single word is followed by another instruction. -/
lemma Ready.single (h : Ready env translator translator' l)
    (hemitted : Emitted translator translator' [op]) :
    env.instrAt l.ip = some ⟨translator.visitPos, op⟩ ∧
      ∃ word, env.instrAt (l.ip.add 1) = some word ∧ ∀ index, word.op ≠ .memoryIndex index := by
  obtain ⟨before, later, word, hcode, hpc, hother⟩ := h.code
  rw [hemitted.drop] at hcode
  have hfirst := instrAt_of_code (n := 0) hcode hpc
  have hsecond := instrAt_of_code (n := 1) hcode hpc
  rw [add_zero_ip] at hfirst
  exact ⟨hfirst, word, hsecond, hother⟩

lemma Ready.pair (h : Ready env translator translator' l)
    (hemitted : Emitted translator translator' [op, param]) :
    env.instrAt l.ip = some ⟨translator.visitPos, op⟩ ∧
      env.instrAt (l.ip.add 1) = some ⟨translator.visitPos, param⟩ := by
  obtain ⟨before, later, word, hcode, hpc, -⟩ := h.code
  rw [hemitted.drop] at hcode
  have hfirst := instrAt_of_code (n := 0) hcode hpc
  have hsecond := instrAt_of_code (n := 1) hcode hpc
  rw [add_zero_ip] at hfirst
  exact ⟨hfirst, hsecond⟩

lemma Ready.read_const (h : Ready env translator translator' l) {reg : Reg} {value : UntypedVal}
    (hget : translator'.stack.consts.get reg = some value) : l.read reg = some value := by
  obtain ⟨pool, hpool, hconsts⟩ := h.consts
  exact hconsts reg value (hpool reg value hget)

end Ready

/-! ## Addresses -/

section Addresses

variable {memarg : MemArg} {memory : Nat} {offset : BitVec 32}

lemma decodeMemarg_ok (h : FuncTranslator.decodeMemarg memarg = .ok (memory, offset)) :
    memory = memarg.memory ∧ offset.toNat = memarg.offset := by
  unfold FuncTranslator.decodeMemarg at h
  split at h
  case isTrue hlt =>
    obtain ⟨rfl, rfl⟩ := Prod.mk.inj (Except.ok.inj h)
    exact ⟨rfl, by rw [BitVec.toNat_ofNat, Nat.mod_eq_of_lt hlt]⟩
  case isFalse => simp at h

lemma effectiveAddress_some {ptr address : BitVec 32}
    (h : FuncTranslator.effectiveAddress ptr offset = some address) :
    address.toNat = ptr.toNat + offset.toNat := by
  unfold FuncTranslator.effectiveAddress at h
  split at h
  case isTrue hlt => rw [← Option.some.inj h, BitVec.toNat_add, Nat.mod_eq_of_lt hlt]
  case isFalse => simp at h

lemma effectiveAddress_none {ptr : BitVec 32}
    (h : FuncTranslator.effectiveAddress ptr offset = none) :
    2 ^ 32 ≤ ptr.toNat + offset.toNat := by
  unfold FuncTranslator.effectiveAddress at h
  split at h
  case isTrue => simp at h
  case isFalse hge => exact Nat.le_of_not_lt hge

lemma ofU32_some {offset16 : Const16} (h : Const16.ofU32 offset = some offset16) :
    offset16.toNat = offset.toNat := by
  unfold Const16.ofU32 at h
  split at h
  case isTrue hlt =>
    rw [← Option.some.inj h]
    show (offset.setWidth 16).toNat = _
    rw [BitVec.toNat_setWidth, Nat.mod_eq_of_lt hlt]
  case isFalse => simp at h

end Addresses

/-- The number of words that were added. -/
def addedWords (translator translator' : FuncTranslator σ) : Nat :=
  (translator'.encoder.instrs.drop translator.encoder.instrs.length).length

lemma Emitted.addedWords {translator translator' : FuncTranslator σ} {ops : List Op}
    (h : Emitted translator translator' ops) : addedWords translator translator' = ops.length := by
  rw [Translator.addedWords, h.drop, List.length_map]

/-! ## Loads -/

/-- The emitted words do what is prescribed for a load, into the register that is now on top of the
emulated stack. -/
def LoadsExactly (env : Engine T) (translator translator' : FuncTranslator σ) (op : LoadOp)
    (memory : MemoryEntity) (address : Nat) (l : Local T) : Prop :=
  ∃ instr result, env.instrAt l.ip = some instr ∧
    (address + op.width ≤ memory.bytes.length →
      translator'.stack.peek = .ok (.register result)) ∧
    Loads op memory address result (l.ip.add (addedWords translator translator')) l
      (executeLocal env instr.op l)

section Loads

variable {stash : MultiStash σ} {env : Engine T} {translator translator' : FuncTranslator σ}
  {memarg : MemArg} {op : LoadOp} {ptr : TypedProvider} {stack stack' : ValueStack σ} {l : Local T}
  {handle : Nat} {memory : MemoryEntity} {address : UntypedVal}

lemma pushDynamic_peek {result : Reg} (h : stack.pushDynamic = .ok (result, stack')) :
    stack'.peek = .ok (.register result) := by
  unfold ValueStack.pushDynamic at h
  obtain ⟨⟨reg, alloc⟩, -, h⟩ := bind_eq_ok.1 h
  obtain ⟨pushed, hpush, h⟩ := bind_eq_ok.1 h
  obtain ⟨rfl, rfl⟩ := Prod.mk.inj (Except.ok.inj h)
  obtain ⟨providers, hproviders, hpush⟩ := bind_eq_ok.1 hpush
  rw [← Except.ok.inj hpush]
  have hpushed : providers = { stack.providers with
      providers := stack.providers.providers ++ [.dynamic reg] } := (Except.ok.inj hproviders).symm
  rw [hpushed, ValueStack.peek, ProviderStack.peek, List.getLast?_append]
  rfl

lemma loads_trap (houtside : ¬ (address.toI32.toNat + memarg.offset + op.width ≤
      memory.bytes.length)) (hready : Ready env translator translator' l)
    (hemitted : Emitted translator translator' [.trap .memoryOutOfBounds]) :
    LoadsExactly env translator translator' op memory (address.toI32.toNat + memarg.offset) l :=
  ⟨_, 0, (hready.single hemitted).1, fun hinside => absurd hinside houtside,
    .outOfBounds houtside rfl⟩

/-- The word of the memory index is there for every memory but the default one. -/
lemma appendMemory_ok {first : FuncTranslator σ} {memory : Nat} {op : Op}
    (hfirst : Emitted translator first [op]) (h : first.appendMemory memory = .ok translator') :
    translator'.stack = first.stack ∧
      (memory = 0 ∧ Emitted translator translator' [op] ∨
        memory ≠ 0 ∧ Emitted translator translator' [op, .memoryIndex memory]) := by
  unfold FuncTranslator.appendMemory at h
  split at h
  case isTrue hzero =>
    obtain rfl := Except.ok.inj h
    exact ⟨rfl, .inl ⟨hzero, hfirst⟩⟩
  case isFalse hne =>
    obtain ⟨hemitted, hstack⟩ := appendInstr_emitted hfirst h
    exact ⟨hstack, .inr ⟨hne, hemitted⟩⟩

lemma loads_translateLoad
    (h : translator.translateLoad stash memarg (.load op) (.loadOffset16 op) (.loadAt op) =
      .ok translator') (hreachable : translator.reachable = true)
    (hpop : translator.stack.pop stash = .ok (ptr, stack)) (hready : Ready env translator translator' l)
    (hmemory : MemoryAt l memarg.memory handle memory) (hptr : ptr.valueIn l.read = some address)
    (hresult : ∀ result, translator'.stack.peek = .ok (.register result) → (l.read result).isSome) :
    LoadsExactly env translator translator' op memory (address.toI32.toNat + memarg.offset) l := by
  have hlen := hmemory.length_le
  have hwidth := op.width_pos
  unfold FuncTranslator.translateLoad at h
  rw [if_pos hreachable] at h
  obtain ⟨⟨index, offset⟩, hmemarg, h⟩ := bind_eq_ok.1 h
  obtain ⟨rfl, hoffset⟩ := decodeMemarg_ok hmemarg
  obtain ⟨⟨ptr', stack₁⟩, hpop', h⟩ := bind_eq_ok.1 h
  obtain ⟨rfl, rfl⟩ := Prod.mk.inj (Except.ok.inj (hpop.symm.trans hpop'))
  cases ptr with
  | const ptr =>
    obtain rfl : ptr.value = address := Option.some.inj hptr
    dsimp only at h
    split at h
    case h_1 hnone =>
      -- the address does not fit in 32 bits, and so is behind the memory
      have hge := effectiveAddress_none hnone
      have hreachable' : (translator.withStack stack).reachable = true := hreachable
      obtain ⟨hemitted, -, -⟩ := translateTrap_ok hreachable' h
      exact loads_trap (by omega) hready hemitted.of_stack
    case h_2 address hsome =>
      have haddress := effectiveAddress_some hsome
      obtain ⟨⟨result, stack'⟩, hdynamic, h⟩ := bind_eq_ok.1 h
      obtain ⟨first, hpush, h⟩ := bind_eq_ok.1 h
      obtain ⟨hfirst, hstack, -⟩ := pushFueledInstr_ok hpush
      obtain ⟨hstack', hemitted⟩ := appendMemory_ok hfirst.of_stack h
      have hpeek : translator'.stack.peek = .ok (.register result) := by
        rw [hstack', hstack]
        exact pushDynamic_peek hdynamic
      have hthere := hresult result hpeek
      rw [← hoffset, ← haddress]
      obtain ⟨hzero, hemitted⟩ | ⟨-, hemitted⟩ := hemitted
      · obtain ⟨hinstr, word, hnext, hother⟩ := hready.single hemitted
        rw [hzero] at hmemory
        refine ⟨_, result, hinstr, fun _ => hpeek, ?_⟩
        rw [hemitted.addedWords]
        exact loads_loadAt hmemory hnext hother hthere
      · obtain ⟨hinstr, hparam⟩ := hready.pair hemitted
        refine ⟨_, result, hinstr, fun _ => hpeek, ?_⟩
        rw [hemitted.addedWords]
        exact loads_loadAt_index hmemory hparam hthere
  | register ptr =>
    obtain ⟨⟨result, stack'⟩, hdynamic, h⟩ := bind_eq_ok.1 h
    have hpeek := pushDynamic_peek hdynamic
    dsimp only at h
    split at h
    case h_1 offset16 hsome =>
      obtain ⟨hzero, hsome⟩ : memarg.memory = 0 ∧ Const16.ofU32 offset = some offset16 := by
        split at hsome
        case isTrue hzero => exact ⟨hzero, hsome⟩
        case isFalse => simp at hsome
      obtain ⟨hemitted, hstack, -⟩ := pushFueledInstr_ok h
      rw [hzero] at hmemory
      have hpeek' : translator'.stack.peek = .ok (.register result) := by rw [hstack]; exact hpeek
      obtain ⟨hinstr, -⟩ := hready.single hemitted.of_stack
      refine ⟨_, result, hinstr, fun _ => hpeek', ?_⟩
      rw [hemitted.of_stack.addedWords, ← hoffset, ← ofU32_some hsome]
      exact loads_loadOffset16 hmemory hptr (hresult result hpeek')
    case h_2 =>
      obtain ⟨first, hpush, h⟩ := bind_eq_ok.1 h
      obtain ⟨hfirst, hstack, -⟩ := pushFueledInstr_ok hpush
      obtain ⟨hemitted, hstack'⟩ := appendInstr_emitted hfirst.of_stack h
      have hpeek' : translator'.stack.peek = .ok (.register result) := by
        rw [hstack', hstack]
        exact hpeek
      obtain ⟨hinstr, hparam⟩ := hready.pair hemitted
      refine ⟨_, result, hinstr, fun _ => hpeek', ?_⟩
      rw [hemitted.addedWords, ← hoffset]
      exact loads_load hmemory hparam hptr (hresult result hpeek')

lemma loads_visitLoad (h : translator.visitLoad stash memarg op = .ok translator')
    (hreachable : translator.reachable = true)
    (hpop : translator.stack.pop stash = .ok (ptr, stack)) (hready : Ready env translator translator' l)
    (hmemory : MemoryAt l memarg.memory handle memory) (hptr : ptr.valueIn l.read = some address)
    (hresult : ∀ result, translator'.stack.peek = .ok (.register result) → (l.read result).isSome) :
    LoadsExactly env translator translator' op memory (address.toI32.toNat + memarg.offset) l := by
  cases op <;> exact loads_translateLoad h hreachable hpop hready hmemory hptr hresult

end Loads

/-! ## Stores -/

/-- The emitted words do what is prescribed for a store. -/
def StoresExactly (env : Engine T) (translator translator' : FuncTranslator σ) (op : StoreOp)
    (handle : Nat) (memory : MemoryEntity) (address : Nat) (value : UntypedVal) (l : Local T) : Prop :=
  ∃ instr, env.instrAt l.ip = some instr ∧
    Stores op handle memory address value (l.ip.add (addedWords translator translator')) l
      (executeLocal env instr.op l)

/-! ### Immediates of stored constants -/

section Fields

variable {value : TypedVal} {imm : Const16}

/-- The immediate of an integer store stores what the constant would. -/
def StoresField (op : StoreImmOp) (field : TypedVal → Option Const16) : Prop :=
  ∀ value imm, field value = some imm →
    (op.value imm).toNat % 256 ^ op.toStoreOp.width = value.value.toNat % 256 ^ op.toStoreOp.width

lemma ofI32_some {value : BitVec 32} (h : Const16.ofI32 value = some imm) :
    imm.signExtend 32 = value := by
  unfold Const16.ofI32 at h
  split at h
  case isTrue heq => rw [← Option.some.inj h, heq]
  case isFalse => simp at h

lemma ofI64_some {value : BitVec 64} (h : Const16.ofI64 value = some imm) :
    imm.signExtend 64 = value := by
  unfold Const16.ofI64 at h
  split at h
  case isTrue heq => rw [← Option.some.inj h, heq]
  case isFalse => simp at h

lemma toNat_ofI32_toI32 (value : UntypedVal) :
    (UntypedVal.ofI32 value.toI32).toNat % 256 ^ 4 = value.toNat % 256 ^ 4 := by
  show ((value.setWidth 32).setWidth 64).toNat % 2 ^ 32 = _
  rw [BitVec.toNat_setWidth, BitVec.toNat_setWidth]
  omega

lemma storesField_i32 {op : StoreImmOp} (hop : op = .i32Store ∨ op = .i64Store32) :
    StoresField op FuncTranslator.i32Field := by
  intro value imm h
  have himm : op.value imm = UntypedVal.ofI32 value.value.toI32 := by
    rw [← ofI32_some h]
    obtain rfl | rfl := hop
    · rfl
    · rfl
  rw [himm]
  obtain rfl | rfl := hop
  · exact toNat_ofI32_toI32 value.value
  · exact toNat_ofI32_toI32 value.value

lemma storesField_i64 : StoresField .i64Store FuncTranslator.i64Field := by
  intro value imm h
  show (imm.signExtend 64).toNat % _ = _
  rw [ofI64_some h]

lemma storesField_wrap8 {op : StoreImmOp} (hop : op = .i32Store8 ∨ op = .i64Store8) :
    StoresField op FuncTranslator.wrap8Field := by
  intro value imm h
  have hvalue : (op.value imm).toNat = value.value.toNat % 256 := by
    have himm : op.value imm = (imm.truncate 8).zeroExtend 64 := by
      obtain rfl | rfl := hop
      · rfl
      · rfl
    rw [himm, ← Option.some.inj h]
    show ((((value.value.setWidth 8).setWidth 16).setWidth 8).setWidth 64).toNat = _
    rw [BitVec.toNat_setWidth, BitVec.toNat_setWidth, BitVec.toNat_setWidth, BitVec.toNat_setWidth]
    omega
  rw [hvalue]
  obtain rfl | rfl := hop
  · exact Nat.mod_mod _ _
  · exact Nat.mod_mod _ _

lemma storesField_wrap16 {op : StoreImmOp} (hop : op = .i32Store16 ∨ op = .i64Store16) :
    StoresField op FuncTranslator.wrap16Field := by
  intro value imm h
  have hvalue : (op.value imm).toNat = value.value.toNat % 256 ^ 2 := by
    have himm : op.value imm = imm.zeroExtend 64 := by
      obtain rfl | rfl := hop
      · rfl
      · rfl
    rw [himm, ← Option.some.inj h]
    show ((value.value.setWidth 16).setWidth 64).toNat = _
    rw [BitVec.toNat_setWidth, BitVec.toNat_setWidth]
    omega
  rw [hvalue]
  obtain rfl | rfl := hop
  · exact Nat.mod_mod _ _
  · exact Nat.mod_mod _ _

end Fields

/-! ### The encodings -/

section Stores

variable {stash : MultiStash σ} {env : Engine T} {translator translator' start : FuncTranslator σ}
  {memarg : MemArg} {op : StoreOp} {provider : TypedProvider} {stack : ValueStack σ} {l : Local T}
  {handle index : Nat} {memory : MemoryEntity} {address value : UntypedVal} {offset : BitVec 32}
  {ptr : Reg}

lemma allocConst_ok {stack stack' : ValueStack σ} {value : UntypedVal} {reg : Reg}
    (h : stack.allocConst value = .ok (reg, stack')) : stack'.consts.get reg = some value := by
  unfold ValueStack.allocConst at h
  obtain ⟨⟨reg', consts⟩, halloc, h⟩ := bind_eq_ok.1 h
  obtain ⟨rfl, rfl⟩ := Prod.mk.inj (Except.ok.inj h)
  exact (FuncLocalConsts.alloc_ok halloc).2.1

/-- A register with the value of the operand. -/
lemma provider2reg_read {stack' : ValueStack σ} {reg : Reg}
    (h : stack.provider2reg provider = .ok (reg, stack'))
    (hconsts : ∀ reg value, stack'.consts.get reg = some value → l.read reg = some value)
    (hvalue : provider.valueIn l.read = some value) : l.read reg = some value := by
  cases provider with
  | register reg' =>
    obtain ⟨rfl, rfl⟩ := Prod.mk.inj (Except.ok.inj h)
    exact hvalue
  | const constant =>
    obtain rfl : constant.value = value := Option.some.inj hvalue
    exact hconsts reg _ (allocConst_ok h)

/-- A store to a constant address. -/
lemma stores_at {first : FuncTranslator σ} {storeOp : Op} {address : BitVec 32} {x : LocalM T UntypedVal}
    (hfirst : Emitted translator first [storeOp]) (h : first.appendMemory index = .ok translator')
    (hready : Ready env translator translator' l) (hmemory : MemoryAt l index handle memory)
    (hexec : executeLocal env storeOp = executeStoreAt env address x op)
    (hvalue : ∀ ip, x { l with ip } = .ok value { l with ip }) :
    StoresExactly env translator translator' op handle memory address.toNat value l := by
  obtain ⟨-, hemitted⟩ := appendMemory_ok hfirst h
  obtain ⟨hzero, hemitted⟩ | ⟨-, hemitted⟩ := hemitted
  · obtain ⟨hinstr, word, hnext, hother⟩ := hready.single hemitted
    rw [hzero] at hmemory
    refine ⟨_, hinstr, ?_⟩
    rw [hemitted.addedWords, hexec]
    exact stores_executeStoreAt hmemory hnext hother (hvalue l.ip)
  · obtain ⟨hinstr, hparam⟩ := hready.pair hemitted
    refine ⟨_, hinstr, ?_⟩
    rw [hemitted.addedWords, hexec]
    exact stores_executeStoreAt_index hmemory hparam hvalue

/-- An address that does not fit in 32 bits is behind the memory. -/
lemma stores_trap {address : BitVec 32} (hnone : FuncTranslator.effectiveAddress address offset = none)
    (h : (translator.withStack stack).translateTrap .memoryOutOfBounds = .ok translator')
    (hreachable : translator.reachable = true) (hready : Ready env translator translator' l)
    (hmemory : MemoryAt l index handle memory) :
    StoresExactly env translator translator' op handle memory (address.toNat + offset.toNat)
      value l := by
  have hlen := hmemory.length_le
  have hwidth := op.width_pos
  have hge := effectiveAddress_none hnone
  have hreachable' : (translator.withStack stack).reachable = true := hreachable
  obtain ⟨hemitted, -, -⟩ := translateTrap_ok hreachable' h
  exact ⟨_, (hready.single hemitted.of_stack).1, .outOfBounds (by omega) rfl⟩

lemma getRegister_setIp {reg : Reg} (h : l.read reg = some value) (ip : InstructionPtr) :
    getRegister reg { l with ip } = .ok value { l with ip } := getRegister_eq_ok.2 ⟨h, rfl⟩

section Integer

variable {immOp : StoreImmOp} {field : TypedVal → Option Const16}

lemma stores_translateIstoreWrapAt (hfield : StoresField immOp field) {address : BitVec 32}
    (h : (translator.withStack stack).translateIstoreWrapAt field index address offset provider
      (.storeAt immOp.toStoreOp) (.storeAtImm immOp) = .ok translator')
    (hreachable : translator.reachable = true) (hready : Ready env translator translator' l)
    (hmemory : MemoryAt l index handle memory) (hvalue : provider.valueIn l.read = some value) :
    StoresExactly env translator translator' immOp.toStoreOp handle memory
      (address.toNat + offset.toNat) value l := by
  unfold FuncTranslator.translateIstoreWrapAt at h
  split at h
  case h_1 hnone => exact stores_trap hnone h hreachable hready hmemory
  case h_2 sum hsome =>
    rw [← effectiveAddress_some hsome]
    cases provider with
    | register reg =>
      obtain ⟨first, hpush, h⟩ := bind_eq_ok.1 h
      obtain ⟨hfirst, -, -⟩ := pushFueledInstr_ok hpush
      exact stores_at hfirst.of_stack h hready hmemory rfl (getRegister_setIp hvalue)
    | const constant =>
      obtain rfl : constant.value = value := Option.some.inj hvalue
      dsimp only at h
      split at h
      case h_1 imm himm =>
        obtain ⟨first, hpush, h⟩ := bind_eq_ok.1 h
        obtain ⟨hfirst, -, -⟩ := pushFueledInstr_ok hpush
        have hread : ∀ ip, (pure (immOp.value imm) : LocalM T UntypedVal) { l with ip } =
            .ok (immOp.value imm) { l with ip } := fun _ => rfl
        obtain ⟨instr, hinstr, hstores⟩ :=
          stores_at hfirst.of_stack h hready hmemory rfl hread
        exact ⟨instr, hinstr, hstores.congr (hfield constant imm himm)⟩
      case h_2 =>
        obtain ⟨⟨reg, stack'⟩, halloc, h⟩ := bind_eq_ok.1 h
        obtain ⟨first, hpush, h⟩ := bind_eq_ok.1 h
        obtain ⟨hfirst, hstack, -⟩ := pushFueledInstr_ok hpush
        obtain ⟨hstack', -⟩ := appendMemory_ok hfirst h
        have hget : translator'.stack.consts.get reg = some constant.value := by
          rw [hstack', hstack]
          exact allocConst_ok halloc
        exact stores_at hfirst.of_stack.of_stack h hready hmemory rfl
          (getRegister_setIp (hready.read_const hget))

lemma stores_translateIstoreWrapMem0 (hfield : StoresField immOp field) {offset16 : Const16}
    (h : (translator.withStack stack).translateIstoreWrapMem0 field ptr offset16 provider
      (.storeOffset16 immOp.toStoreOp) (.storeOffset16Imm immOp) = .ok translator')
    (hready : Ready env translator translator' l) (hmemory : MemoryAt l 0 handle memory)
    (hptr : l.read ptr = some address) (hvalue : provider.valueIn l.read = some value) :
    StoresExactly env translator translator' immOp.toStoreOp handle memory
      (address.toI32.toNat + offset16.toNat) value l := by
  unfold FuncTranslator.translateIstoreWrapMem0 at h
  cases provider with
  | register reg =>
    obtain ⟨hemitted, -, -⟩ := pushFueledInstr_ok h
    refine ⟨_, (hready.single hemitted.of_stack).1, ?_⟩
    rw [hemitted.of_stack.addedWords]
    exact stores_executeStoreOffset16 hmemory hptr (getRegister_setIp hvalue l.ip)
  | const constant =>
    obtain rfl : constant.value = value := Option.some.inj hvalue
    dsimp only at h
    split at h
    case h_1 imm himm =>
      obtain ⟨hemitted, -, -⟩ := pushFueledInstr_ok h
      refine ⟨_, (hready.single hemitted.of_stack).1, ?_⟩
      rw [hemitted.of_stack.addedWords]
      apply Stores.congr (hfield constant imm himm)
      exact stores_executeStoreOffset16 hmemory hptr rfl
    case h_2 =>
      obtain ⟨⟨reg, stack'⟩, halloc, h⟩ := bind_eq_ok.1 h
      obtain ⟨hemitted, hstack, -⟩ := pushFueledInstr_ok h
      have hget : translator'.stack.consts.get reg = some constant.value := by
        rw [hstack]
        exact allocConst_ok halloc
      refine ⟨_, (hready.single hemitted.of_stack.of_stack).1, ?_⟩
      rw [hemitted.of_stack.of_stack.addedWords]
      exact stores_executeStoreOffset16 hmemory hptr
        (getRegister_setIp (hready.read_const hget) l.ip)

lemma stores_translateIstoreWrapParam (hfield : StoresField immOp field)
    (h : (translator.withStack stack).translateIstoreWrapParam field ptr index offset provider
      (.store immOp.toStoreOp) (.storeImm immOp) = .ok translator')
    (hready : Ready env translator translator' l) (hmemory : MemoryAt l index handle memory)
    (hptr : l.read ptr = some address) (hvalue : provider.valueIn l.read = some value) :
    StoresExactly env translator translator' immOp.toStoreOp handle memory
      (address.toI32.toNat + offset.toNat) value l := by
  unfold FuncTranslator.translateIstoreWrapParam at h
  cases provider with
  | register reg =>
    obtain ⟨first, hpush, h⟩ := bind_eq_ok.1 h
    obtain ⟨hfirst, -, -⟩ := pushFueledInstr_ok hpush
    obtain ⟨hemitted, -⟩ := appendInstr_emitted hfirst.of_stack h
    obtain ⟨hinstr, hparam⟩ := hready.pair hemitted
    refine ⟨_, hinstr, ?_⟩
    rw [hemitted.addedWords]
    exact stores_store hmemory hparam hptr hvalue
  | const constant =>
    obtain rfl : constant.value = value := Option.some.inj hvalue
    dsimp only at h
    split at h
    case h_1 imm himm =>
      obtain ⟨first, hpush, h⟩ := bind_eq_ok.1 h
      obtain ⟨hfirst, -, -⟩ := pushFueledInstr_ok hpush
      obtain ⟨hemitted, -⟩ := appendInstr_emitted hfirst.of_stack h
      obtain ⟨hinstr, hparam⟩ := hready.pair hemitted
      refine ⟨_, hinstr, ?_⟩
      rw [hemitted.addedWords]
      apply Stores.congr (hfield constant imm himm)
      exact stores_storeImm hmemory hparam hptr
    case h_2 =>
      obtain ⟨⟨reg, stack'⟩, halloc, h⟩ := bind_eq_ok.1 h
      obtain ⟨first, hpush, h⟩ := bind_eq_ok.1 h
      obtain ⟨hfirst, hstack, -⟩ := pushFueledInstr_ok hpush
      obtain ⟨hemitted, hstack'⟩ := appendInstr_emitted hfirst.of_stack.of_stack h
      have hget : translator'.stack.consts.get reg = some constant.value := by
        rw [hstack', hstack]
        exact allocConst_ok halloc
      obtain ⟨hinstr, hparam⟩ := hready.pair hemitted
      refine ⟨_, hinstr, ?_⟩
      rw [hemitted.addedWords]
      exact stores_store hmemory hparam hptr (hready.read_const hget)

end Integer

/-- The offset is in the instruction only for the default memory. -/
lemma offset16_of_eq {offset16 : Const16}
    (h : (if index = 0 then Const16.ofU32 offset else none) = some offset16) :
    index = 0 ∧ offset16.toNat = offset.toNat := by
  split at h
  case isTrue hzero => exact ⟨hzero, ofU32_some h⟩
  case isFalse => simp at h

lemma stores_translateIstoreWrap {immOp : StoreImmOp} {field : TypedVal → Option Const16}
    {ptr : TypedProvider} (hfield : StoresField immOp field)
    (h : translator.translateIstoreWrap stash memarg field (.store immOp.toStoreOp) (.storeImm immOp)
      (.storeOffset16 immOp.toStoreOp) (.storeOffset16Imm immOp) (.storeAt immOp.toStoreOp)
      (.storeAtImm immOp) = .ok translator') (hreachable : translator.reachable = true)
    (hpop : translator.stack.pop2 stash = .ok (ptr, provider, stack))
    (hready : Ready env translator translator' l) (hmemory : MemoryAt l memarg.memory handle memory)
    (hptr : ptr.valueIn l.read = some address) (hvalue : provider.valueIn l.read = some value) :
    StoresExactly env translator translator' immOp.toStoreOp handle memory
      (address.toI32.toNat + memarg.offset) value l := by
  unfold FuncTranslator.translateIstoreWrap at h
  rw [if_pos hreachable] at h
  obtain ⟨⟨index, offset⟩, hmemarg, h⟩ := bind_eq_ok.1 h
  obtain ⟨rfl, hoffset⟩ := decodeMemarg_ok hmemarg
  obtain ⟨⟨ptr', provider', stack₁⟩, hpop', h⟩ := bind_eq_ok.1 h
  obtain ⟨rfl, hrest⟩ := Prod.mk.inj (Except.ok.inj (hpop.symm.trans hpop'))
  obtain ⟨rfl, rfl⟩ := Prod.mk.inj hrest
  rw [← hoffset]
  cases ptr with
  | const constant =>
    obtain rfl : constant.value = address := Option.some.inj hptr
    exact stores_translateIstoreWrapAt hfield h hreachable hready hmemory hvalue
  | register ptr =>
    dsimp only at h
    split at h
    case h_1 offset16 hsome =>
      obtain ⟨hzero, hoffset16⟩ := offset16_of_eq hsome
      rw [hzero] at hmemory
      rw [← hoffset16]
      exact stores_translateIstoreWrapMem0 hfield h hready hmemory hptr hvalue
    case h_2 => exact stores_translateIstoreWrapParam hfield h hready hmemory hptr hvalue

lemma stores_translateFstore {ptr : TypedProvider}
    (h : translator.translateFstore stash memarg (.store op) (.storeOffset16 op) (.storeAt op) =
      .ok translator') (hreachable : translator.reachable = true)
    (hpop : translator.stack.pop2 stash = .ok (ptr, provider, stack))
    (hready : Ready env translator translator' l) (hmemory : MemoryAt l memarg.memory handle memory)
    (hptr : ptr.valueIn l.read = some address) (hvalue : provider.valueIn l.read = some value) :
    StoresExactly env translator translator' op handle memory
      (address.toI32.toNat + memarg.offset) value l := by
  unfold FuncTranslator.translateFstore at h
  rw [if_pos hreachable] at h
  obtain ⟨⟨index, offset⟩, hmemarg, h⟩ := bind_eq_ok.1 h
  obtain ⟨rfl, hoffset⟩ := decodeMemarg_ok hmemarg
  obtain ⟨⟨ptr', provider', stack₁⟩, hpop', h⟩ := bind_eq_ok.1 h
  obtain ⟨rfl, hrest⟩ := Prod.mk.inj (Except.ok.inj (hpop.symm.trans hpop'))
  obtain ⟨rfl, rfl⟩ := Prod.mk.inj hrest
  rw [← hoffset]
  have hconsts : ∀ reg value, translator'.stack.consts.get reg = some value →
      l.read reg = some value := fun reg value hget => hready.read_const hget
  cases ptr with
  | const constant =>
    obtain rfl : constant.value = address := Option.some.inj hptr
    dsimp only at h
    unfold FuncTranslator.translateFstoreAt at h
    split at h
    case h_1 hnone => exact stores_trap hnone h hreachable hready hmemory
    case h_2 sum hsome =>
      obtain ⟨⟨reg, stack'⟩, hreg, h⟩ := bind_eq_ok.1 h
      obtain ⟨first, hpush, h⟩ := bind_eq_ok.1 h
      obtain ⟨hfirst, hstack, -⟩ := pushFueledInstr_ok hpush
      obtain ⟨hstack', -⟩ := appendMemory_ok hfirst h
      rw [hstack', hstack] at hconsts
      show StoresExactly _ _ _ _ _ _ (constant.value.toI32.toNat + offset.toNat) _ _
      rw [← effectiveAddress_some hsome]
      exact stores_at hfirst.of_stack.of_stack h hready hmemory rfl
        (getRegister_setIp (provider2reg_read hreg hconsts hvalue))
  | register ptr =>
    obtain ⟨⟨reg, stack'⟩, hreg, h⟩ := bind_eq_ok.1 h
    dsimp only at h
    split at h
    case h_1 offset16 hsome =>
      obtain ⟨hzero, hoffset16⟩ := offset16_of_eq hsome
      rw [hzero] at hmemory
      obtain ⟨hemitted, hstack, -⟩ := pushFueledInstr_ok h
      rw [hstack] at hconsts
      refine ⟨_, (hready.single hemitted.of_stack).1, ?_⟩
      rw [hemitted.of_stack.addedWords, ← hoffset16]
      exact stores_executeStoreOffset16 hmemory hptr
        (getRegister_setIp (provider2reg_read hreg hconsts hvalue) l.ip)
    case h_2 =>
      obtain ⟨first, hpush, h⟩ := bind_eq_ok.1 h
      obtain ⟨hfirst, hstack, -⟩ := pushFueledInstr_ok hpush
      obtain ⟨hemitted, hstack'⟩ := appendInstr_emitted hfirst.of_stack h
      rw [hstack', hstack] at hconsts
      obtain ⟨hinstr, hparam⟩ := hready.pair hemitted
      refine ⟨_, hinstr, ?_⟩
      rw [hemitted.addedWords]
      exact stores_store hmemory hparam hptr (provider2reg_read hreg hconsts hvalue)

lemma stores_visitStore {ptr : TypedProvider}
    (h : translator.visitStore stash memarg op = .ok translator')
    (hreachable : translator.reachable = true)
    (hpop : translator.stack.pop2 stash = .ok (ptr, provider, stack))
    (hready : Ready env translator translator' l) (hmemory : MemoryAt l memarg.memory handle memory)
    (hptr : ptr.valueIn l.read = some address) (hvalue : provider.valueIn l.read = some value) :
    StoresExactly env translator translator' op handle memory
      (address.toI32.toNat + memarg.offset) value l := by
  have hinteger : ∀ (immOp : StoreImmOp) {field : TypedVal → Option Const16},
      StoresField immOp field →
      translator.translateIstoreWrap stash memarg field (.store immOp.toStoreOp) (.storeImm immOp)
        (.storeOffset16 immOp.toStoreOp) (.storeOffset16Imm immOp) (.storeAt immOp.toStoreOp)
        (.storeAtImm immOp) = .ok translator' →
      StoresExactly env translator translator' immOp.toStoreOp handle memory
        (address.toI32.toNat + memarg.offset) value l := fun _ _ hfield hvisit =>
    stores_translateIstoreWrap hfield hvisit hreachable hpop hready hmemory hptr hvalue
  cases op with
  | i32Store => exact hinteger .i32Store (storesField_i32 (.inl rfl)) h
  | i64Store => exact hinteger .i64Store storesField_i64 h
  | i32Store8 => exact hinteger .i32Store8 (storesField_wrap8 (.inl rfl)) h
  | i64Store8 => exact hinteger .i64Store8 (storesField_wrap8 (.inr rfl)) h
  | i32Store16 => exact hinteger .i32Store16 (storesField_wrap16 (.inl rfl)) h
  | i64Store16 => exact hinteger .i64Store16 (storesField_wrap16 (.inr rfl)) h
  | i64Store32 => exact hinteger .i64Store32 (storesField_i32 (.inr rfl)) h
  | f32Store | f64Store =>
    exact stores_translateFstore h hreachable hpop hready hmemory hptr hvalue

end Stores

/-! ## Exactness -/

section Exact

variable (stash : MultiStash σ) (env : Engine T) (translator translator' : FuncTranslator σ)
  (memarg : MemArg) (l : Local T) (handle : Nat) (memory : MemoryEntity) (address : Nat)

/-- A load has been translated, and its code is next. `address` is the pointer plus the offset. -/
structure TranslatedLoad (op : LoadOp) : Prop where
  visit : translator.visitLoad stash memarg op = .ok translator'
  reachable : translator.reachable = true
  pop : ∃ ptr stack pointer, translator.stack.pop stash = .ok (ptr, stack) ∧
    ptr.valueIn l.read = some pointer ∧ address = pointer.toI32.toNat + memarg.offset
  ready : Ready env translator translator' l
  memory_eq : MemoryAt l memarg.memory handle memory
  result : ∀ result, translator'.stack.peek = .ok (.register result) → (l.read result).isSome

/-- A store of `value` has been translated, and its code is next. -/
structure TranslatedStore (op : StoreOp) (value : UntypedVal) : Prop where
  visit : translator.visitStore stash memarg op = .ok translator'
  reachable : translator.reachable = true
  pop2 : ∃ ptr provider stack pointer, translator.stack.pop2 stash = .ok (ptr, provider, stack) ∧
    ptr.valueIn l.read = some pointer ∧ address = pointer.toI32.toNat + memarg.offset ∧
    provider.valueIn l.read = some value
  ready : Ready env translator translator' l
  memory_eq : MemoryAt l memarg.memory handle memory

variable {stash env translator translator' memarg l handle memory address}

lemma TranslatedLoad.loadsExactly {op : LoadOp}
    (h : TranslatedLoad stash env translator translator' memarg l handle memory address op) :
    LoadsExactly env translator translator' op memory address l := by
  obtain ⟨ptr, stack, pointer, hpop, hptr, rfl⟩ := h.pop
  exact loads_visitLoad h.visit h.reachable hpop h.ready h.memory_eq hptr h.result

lemma TranslatedStore.storesExactly {op : StoreOp} {value : UntypedVal}
    (h : TranslatedStore stash env translator translator' memarg l handle memory address op value) :
    StoresExactly env translator translator' op handle memory address value l := by
  obtain ⟨ptr, provider, stack, pointer, hpop, hptr, rfl, hvalue⟩ := h.pop2
  exact stores_visitStore h.visit h.reachable hpop h.ready h.memory_eq hptr hvalue

/-- A store that returns has left its value in the memory. -/
lemma TranslatedStore.stored {op : StoreOp} {value : UntypedVal} {l₁ : Local T}
    (h : TranslatedStore stash env translator translator' memarg l handle memory address op value)
    (hstep : LocalStep env l l₁) :
    ∃ after, l₁.store.memories[handle]? = some { memory with bytes := after } ∧
      HasValue after address op.width (value.toNat % 256 ^ op.width) := by
  obtain ⟨instr, hinstr, hstores⟩ := h.storesExactly
  obtain ⟨instr', hinstr', hexec⟩ := hstep
  obtain rfl := Option.some.inj (hinstr.symm.trans hinstr')
  rw [hexec] at hstores
  have hlt := (List.getElem?_eq_some_iff.1 h.memory_eq.entity).1
  cases hstores with
  | @stored after inside bytes =>
    exact ⟨after, List.getElem?_set_self hlt, bytes.written⟩

end Exact

/-- The emitted code of a load and of a store accesses the bytes from the pointer plus the offset on,
as unbounded integers, or traps and changes nothing where they are not all in the memory. A load of
the bytes that a store has written returns the stored value, wrapped and extended; a value that the
load operator can return is returned as it was. -/
theorem accesses_exact {stash : MultiStash σ} {env : Engine T} :
    (∀ {translator translator' : FuncTranslator σ} {memarg : MemArg} {l : Local T} {handle : Nat}
      {memory : MemoryEntity} {address : Nat} {op : LoadOp},
      TranslatedLoad stash env translator translator' memarg l handle memory address op →
      LoadsExactly env translator translator' op memory address l) ∧
    (∀ {translator translator' : FuncTranslator σ} {memarg : MemArg} {l : Local T} {handle : Nat}
      {memory : MemoryEntity} {address : Nat} {op : StoreOp} {value : UntypedVal},
      TranslatedStore stash env translator translator' memarg l handle memory address op value →
      StoresExactly env translator translator' op handle memory address value l) ∧
    ∀ {translator₁ translator₁' translator₂ translator₂' : FuncTranslator σ}
      {memarg₁ memarg₂ : MemArg} {l l₁ l₂ : Local T} {handle : Nat}
      {memory₁ memory₂ : MemoryEntity} {address : Nat} {storeOp : StoreOp} {loadOp : LoadOp}
      {value : UntypedVal}, storeOp.width = loadOp.width →
      TranslatedStore stash env translator₁ translator₁' memarg₁ l handle memory₁ address storeOp
        value → LocalStep env l l₁ →
      TranslatedLoad stash env translator₂ translator₂' memarg₂ l₂ handle memory₂ address loadOp →
      l₂.store.memories[handle]? = l₁.store.memories[handle]? →
      ∃ result l₃, translator₂'.stack.peek = .ok (.register result) ∧ LocalStep env l₂ l₃ ∧
        l₃.read result = some (loadOp.extended (value.toNat % 256 ^ loadOp.width)) ∧
        ∀ number < 256 ^ loadOp.width, value = loadOp.extended number →
          l₃.read result = some value := by
  refine ⟨fun h => h.loadsExactly, fun h => h.storesExactly, ?_⟩
  intro translator₁ translator₁' translator₂ translator₂' memarg₁ memarg₂ l l₁ l₂ handle memory₁
    memory₂ address storeOp loadOp value hwidth hstore hstep hload hsame
  obtain ⟨after, hafter, hvalue⟩ := hstore.stored hstep
  rw [hwidth] at hvalue
  have hmemory₂ : memory₂.bytes = after := by
    have hentity := hload.memory_eq.entity
    rw [hsame, hafter] at hentity
    rw [← Option.some.inj hentity]
  have hinside : address + loadOp.width ≤ memory₂.bytes.length := by
    have hpos := loadOp.width_pos
    have hlast := hvalue.byte (loadOp.width - 1) (by omega)
    have hlt := (List.getElem?_eq_some_iff.1 hlast).1
    rw [hmemory₂]
    omega
  obtain ⟨instr, result, hinstr, hpeek, hloads⟩ := hload.loadsExactly
  generalize hexec : executeLocal env instr.op l₂ = r at hloads
  cases hloads with
  | outOfBounds outside => exact absurd hinside outside
  | @loaded l₃ number inside bytes ip moved =>
    rw [hmemory₂] at bytes
    obtain rfl := bytes.unique hvalue
    have hread : l₃.read result =
        some (loadOp.extended (value.toNat % 256 ^ loadOp.width)) := by
      rw [moved.read, Function.update_self]
    refine ⟨result, l₃, hpeek hinside, ⟨instr, hinstr, hexec⟩, hread, ?_⟩
    intro number hnumber heq
    have hmod := loadOp.extended_mod hnumber
    rw [← heq] at hmod
    rw [hread, hmod, ← heq]

/-! ## A word that is stored and loaded -/

/-- `i32.const` as an operand. -/
def constOperand (value : BitVec 32) : TaggedProvider :=
  .constValue ⟨.i32, .ofI32 value, fun _ => by
    show _ = UntypedVal.ofI32 ((value.setWidth 64).setWidth 32)
    rw [BitVec.setWidth_setWidth_of_le _ (by decide), BitVec.setWidth_eq]⟩

/-- In front of an operator at `visitPos`, with operands on the stack and no registers in use. -/
def operandsOnly (instrs : List Instruction) (providers : List TaggedProvider) (visitPos : Nat) :
    FuncTranslator (List Nat) where
  reachable := true
  fuelInfo := .none
  encoder := ⟨instrs, ⟨[], []⟩, none⟩
  stack := ⟨⟨providers, 0, false, .reset⟩, ⟨[], [], .alloc, 0, 0, 0, 32766, 0⟩, .reset⟩
  visitPos

/-- `i32.store offset=3` of 5 to address 5, and `i32.load` from address 8. -/
def wordInstrs : List Instruction :=
  [⟨7, .storeAtImm .i32Store 5 8⟩, ⟨9, .loadAt .i32Load 0 8⟩, ⟨11, .return_⟩]

/-- A memory of one page. -/
def onePage : MemoryEntity := .zeroed ⟨1, none⟩ none

/-- A frame with one register, of an instance with that memory. -/
def wordLocal : Local Unit where
  cells := [0]
  base := 0
  ip := ⟨0, 0⟩
  cache := ⟨0, some ⟨0, onePage.bytes.length⟩, none⟩
  store := { Store.ofFuncs [] with
    memories := [onePage]
    instances := [⟨[], [], [], [0], [], [], []⟩] }

lemma wordLocal_memoryAt : MemoryAt wordLocal 0 0 onePage where
  coherent := ⟨rfl, ⟨_, rfl, rfl, rfl⟩, fun cached hcached => by
    rw [← Option.some.inj hcached]
    exact ⟨onePage, rfl, rfl⟩, fun global hglobal => by cases hglobal⟩
  handle_eq := ⟨_, rfl, rfl⟩
  entity := rfl
  reached := ⟨onePage, 0, ⟨Unit, none, (), 1, none, ⟨1, none⟩, rfl, .inl rfl⟩, .refl _⟩

lemma constsIn_reset {T : Type} (l : Local T) : ConstsIn .reset l := by
  intro reg value hget
  obtain ⟨i, -, hvalue⟩ := FuncLocalConsts.toInt_of_get hget
  simp [FuncLocalConsts.reset] at hvalue

/-- The engine with that code. -/
def wordEngine : Engine Unit := .ofCode [⟨wordInstrs, [], 1⟩] []

theorem accesses_exact_word :
    ∃ l₁ l₂ : Local Unit, LocalStep wordEngine wordLocal l₁ ∧ LocalStep wordEngine l₁ l₂ ∧
      l₂.read 0 = some 5 := by
  have hstore : TranslatedStore RegisterAlloc.firstVacant wordEngine
      (operandsOnly [] [constOperand 5, constOperand 5] 7)
      { operandsOnly [] [] 7 with encoder := ⟨wordInstrs.take 1, ⟨[], []⟩, some 0⟩ }
      ⟨0, 3⟩ wordLocal 0 onePage 8 .i32Store 5 :=
    { visit := rfl
      reachable := rfl
      pop2 := ⟨_, _, _, _, rfl, rfl, rfl, rfl⟩
      ready := ⟨⟨[], [⟨11, .return_⟩], ⟨9, .loadAt .i32Load 0 8⟩, rfl, rfl, by simp⟩,
        ⟨.reset, .refl _, constsIn_reset _⟩⟩
      memory_eq := wordLocal_memoryAt }
  have hlen : onePage.bytes.length = 65536 := List.length_replicate
  obtain ⟨instr, hinstr, hstores⟩ := accesses_exact.2.1 hstore
  generalize hexec : executeLocal wordEngine instr.op wordLocal = r at hstores
  cases hstores with
  | outOfBounds outside => exact absurd (by rw [hlen]; decide) outside
  | @stored after inside bytes =>
    have hload : TranslatedLoad RegisterAlloc.firstVacant wordEngine
        (operandsOnly (wordInstrs.take 1) [constOperand 8] 9)
        { operandsOnly [] [] 9 with
          encoder := ⟨wordInstrs.take 2, ⟨[], []⟩, some 1⟩
          stack := ⟨⟨[.dynamic 0], 0, false, .reset⟩, ⟨[], [], .alloc, 0, 1, 1, 32766, 0⟩, .reset⟩ }
        ⟨0, 0⟩ _ 0 { onePage with bytes := after } 8 .i32Load :=
      { visit := rfl
        reachable := rfl
        pop := ⟨_, _, _, rfl, rfl, rfl⟩
        ready := ⟨⟨wordInstrs.take 1, [], ⟨11, .return_⟩, rfl, rfl, by simp⟩,
          ⟨.reset, .refl _, constsIn_reset _⟩⟩
        memory_eq := wordLocal_memoryAt.stored bytes inside ⟨0, 1⟩
        result := by
          intro result hpeek
          obtain rfl := Provider.register.inj (Except.ok.inj hpeek)
          rfl }
    obtain ⟨result, l₂, hpeek, hstep, -, hvalue⟩ :=
      accesses_exact.2.2 rfl hstore ⟨instr, hinstr, hexec⟩ hload rfl
    obtain rfl := Provider.register.inj (Except.ok.inj hpeek)
    exact ⟨_, l₂, ⟨instr, hinstr, hexec⟩, hstep, hvalue 5 (by decide) (by decide)⟩

end MotokoDebugger.Translator
