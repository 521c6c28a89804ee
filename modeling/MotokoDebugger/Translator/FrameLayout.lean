import MotokoDebugger.Translator.Defragment

/-!
# The layout of a call frame

The translator numbers the constants of a function downwards from register -1 and its other
registers upwards from 0; `alloc_call_frame` lays out a frame that they have to fit.

* `allocFrame`, `FrameParams`, `enterFrame`: a new frame, over cells that may hold anything.
* `LaysOut`: the property; `laysOut_iff`: it holds iff the registers are defragmented.
-/

namespace MotokoDebugger

lemma overwrite_append {α : Type} (before old after values : List α)
    (hlen : old.length = values.length) :
    overwrite (before ++ (old ++ after)) before.length values = before ++ (values ++ after) := by
  rw [overwrite, List.take_left, ← List.drop_drop, List.drop_left, ← hlen, List.drop_left,
    List.append_assoc]

/-! ## A new frame -/

/-- `FrameParams`: the range of the cells that are not initialized yet. -/
structure FrameParams where
  start : Nat
  finish : Nat
deriving Repr, DecidableEq

namespace FrameParams

/-- `FrameParams::init_next`; `none` where it would write behind the frame. -/
def initNext (params : FrameParams) (cells : List UntypedVal) (value : UntypedVal) :
    Option (FrameParams × List UntypedVal) :=
  if params.start < params.finish then
    some ({ params with start := params.start + 1 }, cells.set params.start value)
  else none

/-- `FrameParams::init_next` for each of the values. -/
def initAll (params : FrameParams) (cells : List UntypedVal) :
    List UntypedVal → Option (FrameParams × List UntypedVal)
  | [] => some (params, cells)
  | value :: values => do
    let (params, cells) ← params.initNext cells value
    params.initAll cells values

/-- `FrameParams::init_zeroes`. -/
def initZeroes (params : FrameParams) (cells : List UntypedVal) : Option (List UntypedVal) := do
  let (_, cells) ← params.initAll cells (List.replicate (params.finish - params.start) 0)
  return cells

/-- The values replace the cells that were there. -/
lemma initAll_append (before old after values : List UntypedVal) {finish : Nat}
    (hlen : old.length = values.length)
    (hfits : before.length + values.length ≤ finish) :
    initAll ⟨before.length, finish⟩ (before ++ (old ++ after)) values =
      some (⟨before.length + values.length, finish⟩, before ++ (values ++ after)) := by
  induction values generalizing before old with
  | nil =>
    rw [List.length_nil, List.length_eq_zero_iff] at hlen
    rw [hlen]
    rfl
  | cons value values ih =>
    rw [List.length_cons] at hlen hfits
    obtain ⟨first, rest, rfl⟩ := List.exists_cons_of_length_eq_add_one hlen
    have hset : (before ++ (first :: rest ++ after)).set before.length value =
        (before ++ [value]) ++ (rest ++ after) := by
      rw [List.set_append_right _ _ (Nat.le_refl _)]
      simp
    have hnext : initNext ⟨before.length, finish⟩ (before ++ (first :: rest ++ after)) value =
        some (⟨(before ++ [value]).length, finish⟩, (before ++ [value]) ++ (rest ++ after)) := by
      rw [initNext, if_pos (by show before.length < finish; omega), hset]
      simp
    rw [List.length_cons, Nat.add_right_cancel_iff] at hlen
    have hrest := ih (before ++ [value]) rest hlen
      (by rw [List.length_append, List.length_singleton]; omega)
    rw [initAll, hnext, Option.bind_eq_bind, Option.bind_some]
    dsimp only
    rw [hrest]
    simp only [List.length_append, List.length_cons, List.length_nil, List.append_assoc,
      List.cons_append, List.nil_append]
    rw [Nat.add_assoc, Nat.zero_add, Nat.add_comm 1]

lemma initZeroes_append (before old : List UntypedVal) :
    initZeroes ⟨before.length, before.length + old.length⟩ (before ++ old) =
      some (before ++ List.replicate old.length 0) := by
  have hlen : old.length = (List.replicate old.length (0 : UntypedVal)).length := by simp
  have hfits : before.length + (List.replicate old.length (0 : UntypedVal)).length ≤
      before.length + old.length := by simp
  have hzeroes := initAll_append before old [] (List.replicate old.length 0) hlen hfits
  rw [List.append_nil, List.append_nil] at hzeroes
  rw [initZeroes, Nat.add_sub_cancel_left, hzeroes]
  rfl

end FrameParams

namespace ValueStack

/-- The cells that `alloc_call_frame` adds: the constants, then what the buffer holds. -/
def spareCells (spare : Nat → UntypedVal) (func : CompiledFunc) : List UntypedVal :=
  (List.range func.lenRegisters).map fun i => func.consts[i]?.getD (spare i)

/-- `ValueStack::alloc_call_frame` over a buffer that holds `spare` above the stack. -/
def allocFrame (spare : Nat → UntypedVal) (stack : ValueStack) (func : CompiledFunc) :
    Except TrapCode (ValueStack × FrameParams × StackOffsets) :=
  let len := stack.values.length
  if func.lenRegisters ≥ stack.maxLen - len then .error .stackOverflow
  else
    .ok ({ stack with values := stack.values ++ spareCells spare func },
      ⟨len + min func.consts.length func.lenRegisters, len + func.lenRegisters⟩,
      ⟨len, len + func.consts.length⟩)

/-- A new frame with its parameters and zeros behind them; `none` where a parameter would be
written behind the frame. -/
def enterFrame (spare : Nat → UntypedVal) (stack : ValueStack) (func : CompiledFunc)
    (args : List UntypedVal) : Except TrapCode (Option (ValueStack × StackOffsets)) := do
  let (stack, params, offsets) ← stack.allocFrame spare func
  return do
    let (params, values) ← params.initAll stack.values args
    let values ← params.initZeroes values
    return ({ stack with values }, offsets)

/-- The cells of a frame: constants, arguments, zeros. -/
def frameCells (func : CompiledFunc) (args : List UntypedVal) : List UntypedVal :=
  func.consts ++ (args ++
    List.replicate (func.lenRegisters - func.consts.length - args.length) 0)

lemma length_frameCells {func : CompiledFunc} {args : List UntypedVal}
    (hfits : func.consts.length + args.length ≤ func.lenRegisters) :
    (frameCells func args).length = func.lenRegisters := by
  simp only [frameCells, List.length_append, List.length_replicate]
  omega

lemma spareCells_eq {func : CompiledFunc} (spare : Nat → UntypedVal)
    (hfits : func.consts.length ≤ func.lenRegisters) :
    ∃ rest : List UntypedVal, rest.length = func.lenRegisters - func.consts.length ∧
      spareCells spare func = func.consts ++ rest := by
  refine ⟨(spareCells spare func).drop func.consts.length, ?_, ?_⟩
  · simp [spareCells]
  · have htake : (spareCells spare func).take func.consts.length = func.consts := by
      refine List.ext_getElem (by simp [spareCells, hfits]) fun i hi hi' => ?_
      simp [spareCells, List.getElem?_eq_getElem hi']
    conv_lhs => rw [← List.take_append_drop func.consts.length (spareCells spare func), htake]

variable {stack : ValueStack} {func : CompiledFunc} {args : List UntypedVal}

/-- What was in the buffer does not show. -/
lemma enterFrame_eq (spare : Nat → UntypedVal)
    (hfits : func.consts.length + args.length ≤ func.lenRegisters)
    (hroom : ¬func.lenRegisters ≥ stack.maxLen - stack.values.length) :
    stack.enterFrame spare func args =
      .ok (some ({ stack with values := stack.values ++ frameCells func args },
        ⟨stack.values.length, stack.values.length + func.consts.length⟩)) := by
  have hconsts : func.consts.length ≤ func.lenRegisters := by omega
  obtain ⟨rest, hrest, hcells⟩ := spareCells_eq spare hconsts
  have hargs : (rest.take args.length).length = args.length := by
    rw [List.length_take]
    omega
  have hend : (stack.values ++ func.consts).length + args.length ≤
      stack.values.length + func.lenRegisters := by
    rw [List.length_append]
    omega
  have hparams := FrameParams.initAll_append (stack.values ++ func.consts) (rest.take args.length)
    (rest.drop args.length) args hargs hend
  have hzeroes := FrameParams.initZeroes_append (stack.values ++ (func.consts ++ args))
    (rest.drop args.length)
  have hfinish : (stack.values ++ (func.consts ++ args)).length +
      (rest.drop args.length).length = stack.values.length + func.lenRegisters := by
    simp only [List.length_append, List.length_drop]
    omega
  rw [hfinish] at hzeroes
  rw [List.take_append_drop, List.length_append] at hparams
  have hstart : (stack.values ++ (func.consts ++ args)).length =
      stack.values.length + func.consts.length + args.length := by
    simp only [List.length_append, Nat.add_assoc]
  rw [hstart] at hzeroes
  rw [enterFrame, allocFrame, if_neg hroom, hcells,
    Nat.min_eq_left (by omega : func.consts.length ≤ func.lenRegisters)]
  show Except.ok _ = Except.ok _
  rw [← List.append_assoc, hparams, Option.bind_eq_bind, Option.bind_some]
  simp only [List.append_assoc] at hzeroes ⊢
  rw [hzeroes, frameCells]
  simp [hrest]

/-- The frame is the one that the executor builds. -/
lemma enterFrame_eq_initParams (spare : Nat → UntypedVal)
    (hfits : func.consts.length + args.length ≤ func.lenRegisters) :
    stack.enterFrame spare func args = (stack.allocCallFrame func).map fun (stack, offsets) =>
      (stack.initParams offsets args).map fun stack => (stack, offsets) := by
  by_cases hroom : func.lenRegisters ≥ stack.maxLen - stack.values.length
  · rw [enterFrame, allocFrame, if_pos hroom, allocCallFrame, if_pos hroom]
    rfl
  · have hnew : newFrame func = func.consts ++
        List.replicate (func.lenRegisters - func.consts.length) 0 := by
      rw [newFrame, List.take_of_length_le (by omega)]
    have hlen : (stack.values ++ newFrame func).length =
        stack.values.length + func.lenRegisters := by
      simp only [hnew, List.length_append, List.length_replicate]
      omega
    rw [enterFrame_eq spare hfits hroom, allocCallFrame, if_neg hroom, Except.map]
    simp only [initParams, hlen]
    rw [Nat.min_eq_left (by omega), if_pos (by omega), Option.map_some, hnew]
    have hover := overwrite_append (stack.values ++ func.consts) (List.replicate args.length 0)
      (List.replicate (func.lenRegisters - func.consts.length - args.length) 0) args (by simp)
    rw [← List.replicate_add, List.length_append, List.append_assoc, List.append_assoc,
      Nat.add_sub_of_le (by omega)] at hover
    rw [hover, frameCells]

/-- The cell of a register from 0 on: its argument, or zero. -/
lemma getElem?_frameCells_base {r : Nat} (hlt : func.consts.length + r < func.lenRegisters)
    (hfits : func.consts.length + args.length ≤ func.lenRegisters) :
    (frameCells func args)[func.consts.length + r]? = some (args.getD r 0) := by
  rw [frameCells, List.getElem?_append_right (by omega), Nat.add_sub_cancel_left]
  by_cases harg : r < args.length
  · rw [List.getElem?_append_left harg, List.getD_eq_getElem?_getD,
      List.getElem?_eq_getElem harg, Option.getD_some]
  · rw [List.getElem?_append_right (by omega), List.getElem?_replicate, if_pos (by omega),
      List.getD_eq_getElem?_getD, List.getElem?_eq_none (by omega), Option.getD_none]

lemma getElem?_frameCells_const {i : Nat} (hi : i < func.consts.length) :
    (frameCells func args)[i]? = func.consts[i]? := by
  rw [frameCells, List.getElem?_append_left hi]

end ValueStack

namespace FrameParams

lemma length_initAll {params params' : FrameParams} {cells cells' values : List UntypedVal}
    (h : params.initAll cells values = some (params', cells')) : cells'.length = cells.length := by
  induction values generalizing params cells with
  | nil =>
    obtain ⟨rfl, rfl⟩ := Prod.mk.inj (Option.some.inj h)
    rfl
  | cons value values ih =>
    obtain ⟨⟨next, nextCells⟩, hnext, hrest⟩ := Option.bind_eq_some_iff.1 h
    simp only [initNext, Option.ite_none_right_eq_some, Option.some.injEq, Prod.mk.injEq] at hnext
    rw [ih hrest, ← hnext.2.2, List.length_set]

end FrameParams

/-- However the registers are initialized, the stack grows by the cells of the frame. -/
lemma ValueStack.length_enterFrame {stack stack' : ValueStack} {func : CompiledFunc}
    {args : List UntypedVal} {spare : Nat → UntypedVal} {offsets : StackOffsets}
    (h : stack.enterFrame spare func args = .ok (some (stack', offsets))) :
    stack'.values.length = stack.values.length + func.lenRegisters ∧
      offsets.base = stack.values.length + func.consts.length := by
  unfold enterFrame allocFrame at h
  by_cases hroom : func.lenRegisters ≥ stack.maxLen - stack.values.length
  · simp only [hroom, if_true] at h
    cases h
  · simp only [hroom, if_false] at h
    obtain ⟨⟨params, cells⟩, hparams, hrest⟩ := Option.bind_eq_some_iff.1 (Except.ok.inj h)
    obtain ⟨values, hzeroes, hret⟩ := Option.bind_eq_some_iff.1 hrest
    obtain ⟨⟨last, zeroed⟩, hlast, hvalues⟩ := Option.bind_eq_some_iff.1 hzeroes
    obtain ⟨rfl, rfl⟩ := Prod.mk.inj (Option.some.inj hret)
    obtain rfl := Option.some.inj hvalues
    refine ⟨?_, rfl⟩
    show zeroed.length = _
    rw [FrameParams.length_initAll hlast, FrameParams.length_initAll hparams]
    simp [spareCells]

namespace Translator

open Index16 Fallible

/-! ## A compiled function -/

namespace FuncLocalConsts

/-- `FuncLocalConsts::len_consts`. -/
def lenConsts (consts : FuncLocalConsts) : UInt16 := absDiff consts.nextIdx firstIndex

/-- `FuncLocalConsts::iter`: the constant allocated last comes first. -/
def iter (consts : FuncLocalConsts) : List UntypedVal := consts.idx2const.reverse

/-- Allocates the constants one after the other, and returns their registers. -/
def allocAll (consts : FuncLocalConsts) :
    List UntypedVal → Except Failure (List (Reg × UntypedVal) × FuncLocalConsts)
  | [] => .ok ([], consts)
  | value :: values => do
    let (reg, consts) ← consts.alloc value
    let (rest, consts) ← consts.allocAll values
    return ((reg, value) :: rest, consts)

variable {consts pool : FuncLocalConsts} {values : List UntypedVal}
  {assigned : List (Reg × UntypedVal)}

lemma length_idx2const (consts : FuncLocalConsts) : consts.idx2const.length ≤ 32767 := by
  have hnext := consts.next_eq
  have hmem := toInt_mem consts.nextIdx
  omega

lemma toNat_lenConsts (consts : FuncLocalConsts) :
    consts.lenConsts.toNat = consts.idx2const.length := by
  have hnext := consts.next_eq
  have hfirst : firstIndex.toInt = -1 := rfl
  rw [lenConsts, toNat_absDiff]
  omega

/-- A constant keeps the register that it was assigned. -/
lemma allocAll_ok (h : consts.allocAll values = .ok (assigned, pool)) :
    consts.Extends pool ∧ ∀ entry ∈ assigned, pool.get entry.1 = some entry.2 := by
  induction values generalizing consts assigned with
  | nil =>
    obtain ⟨rfl, rfl⟩ := Prod.mk.inj (Except.ok.inj h)
    exact ⟨.refl _, by simp⟩
  | cons value values ih =>
    obtain ⟨⟨reg, next⟩, halloc, h⟩ := bind_eq_ok.1 h
    obtain ⟨⟨rest, last⟩, hrest, h⟩ := bind_eq_ok.1 h
    obtain ⟨rfl, rfl⟩ := Prod.mk.inj (Except.ok.inj h)
    obtain ⟨hextends, hget, _⟩ := alloc_ok halloc
    obtain ⟨hextends', hassigned⟩ := ih hrest
    refine ⟨hextends.trans hextends', fun entry hentry => ?_⟩
    obtain rfl | hentry := List.mem_cons.1 hentry
    · exact hextends' _ _ hget
    · exact hassigned entry hentry

end FuncLocalConsts

/-- `ValueStack::len_registers`. -/
def lenRegisters {σ : Type} (consts : FuncLocalConsts) (alloc : RegisterAlloc σ) : UInt16 :=
  consts.lenConsts + alloc.lenRegisters

/-- What `FuncTranslator::finish` makes of the instructions, the constants and the registers. -/
def compiledFunc {σ : Type} (instrs : List Instruction) (consts : FuncLocalConsts)
    (alloc : RegisterAlloc σ) : CompiledFunc :=
  ⟨instrs, consts.iter, (lenRegisters consts alloc).toNat⟩

/-! ## The layout -/

/-- The cell of a register of a frame that was put on `stack` is above the cells of `stack`, and it
has the value. -/
def ReadsNew (stack stack' : ValueStack) (offsets : StackOffsets) (reg : Reg)
    (value : UntypedVal) : Prop :=
  ∃ cell : Nat, (cell : Int) = offsets.base + reg.toInt ∧ stack.values.length ≤ cell ∧
    stack'.values[cell]? = some value

/-- What the registers of a new frame read: those below `len_registers`, those that the allocator
handed out, after they are moved, and those that the pool assigned to constants. -/
structure FrameReads {σ : Type} (final : RegisterAlloc σ) (handed : List (RegisterSpace × Reg))
    (assigned : List (Reg × UntypedVal)) (args : List UntypedVal) (stack stack' : ValueStack)
    (offsets : StackOffsets) : Prop where
  below : stack'.values.take stack.values.length = stack.values
  frame : ∀ reg : Reg, 0 ≤ reg.toInt → reg.toInt < final.lenRegisters.toNat →
    ReadsNew stack stack' offsets reg (args.getD reg.toInt.toNat 0)
  handed : ∀ reg ∈ handed, ∃ moved, final.defragRegister reg.2 = .ok moved ∧ 0 ≤ moved.toInt ∧
    ReadsNew stack stack' offsets moved (args.getD moved.toInt.toNat 0)
  consts : ∀ entry ∈ assigned, ReadsNew stack stack' offsets entry.1 entry.2

/-- The frame layout: on every value stack that has room, with any arguments for the parameters. -/
def LaysOut {σ : Type} (func : CompiledFunc) (final : RegisterAlloc σ)
    (handed : List (RegisterSpace × Reg)) (assigned : List (Reg × UntypedVal)) : Prop :=
  ∀ spare stack args, args.length ≤ final.lenLocals.toNat →
    stack.enterFrame spare func args = .error .stackOverflow ∨
      ∃ stack' offsets, stack.enterFrame spare func args = .ok (some (stack', offsets)) ∧
        FrameReads final handed assigned args stack stack' offsets

variable {σ : Type} {alloc final : RegisterAlloc σ} {handed : List (RegisterSpace × Reg)}
  {consts pool : FuncLocalConsts} {assigned : List (Reg × UntypedVal)} {values : List UntypedVal}
  {instrs : List Instruction}

lemma toNat_lenRegisters_le (instrs : List Instruction) (pool : FuncLocalConsts)
    (final : RegisterAlloc σ) : (compiledFunc instrs pool final).lenRegisters ≤
    pool.idx2const.length + final.lenRegisters.toNat := by
  show (pool.lenConsts + final.lenRegisters).toNat ≤ _
  rw [UInt16.toNat_add, FuncLocalConsts.toNat_lenConsts]
  exact Nat.mod_le _ _

namespace RegisterAlloc

/-- The number of registers that are handed out covers the locals, and does not wrap. -/
lemma Apart.len_registers (hapart : Apart alloc handed) (hfinal : alloc.finalizeAlloc = .ok final) :
    final.lenLocals.toNat ≤ final.lenRegisters.toNat ∧ final.lenRegisters.toNat ≤ 32766 := by
  have hmax := hapart.max_min
  have htop := hapart.min_top
  have hlow := hapart.min_next
  have hnext := hapart.next_max
  have hlen := toNat_lenRegisters hfinal (by omega)
  have hlocals : final.lenLocals = alloc.lenLocals := by rw [(finalizeAlloc_eq_ok hfinal).2]
  rw [hlocals]
  omega

/-- With the registers in separate regions the frame is laid out. -/
lemma Apart.laysOut (hapart : Apart alloc handed) (hfinal : alloc.finalizeAlloc = .ok final)
    (hassigned : ∀ entry ∈ assigned, pool.get entry.1 = some entry.2) :
    LaysOut (compiledFunc instrs pool final) final handed assigned := by
  intro spare stack args hargs
  obtain ⟨hlocals, hregs⟩ := hapart.len_registers hfinal
  have hconsts := pool.length_idx2const
  have hlenConsts : (compiledFunc instrs pool final).consts.length = pool.idx2const.length :=
    List.length_reverse
  have hlen : (compiledFunc instrs pool final).lenRegisters =
      pool.idx2const.length + final.lenRegisters.toNat := by
    show (pool.lenConsts + final.lenRegisters).toNat = _
    rw [UInt16.toNat_add, FuncLocalConsts.toNat_lenConsts]
    omega
  by_cases hroom : (compiledFunc instrs pool final).lenRegisters ≥
      stack.maxLen - stack.values.length
  · left
    rw [ValueStack.enterFrame, ValueStack.allocFrame, if_pos hroom]
    rfl
  right
  refine ⟨_, _, ValueStack.enterFrame_eq spare (by omega) hroom, ?_⟩
  have hframe : ∀ reg : Reg, 0 ≤ reg.toInt → reg.toInt < final.lenRegisters.toNat →
      ReadsNew stack ⟨stack.values ++ ValueStack.frameCells (compiledFunc instrs pool final) args,
          stack.maxLen⟩
        ⟨stack.values.length, stack.values.length + (compiledFunc instrs pool final).consts.length⟩
        reg (args.getD reg.toInt.toNat 0) := by
    intro reg hlow hhigh
    refine ⟨stack.values.length + ((compiledFunc instrs pool final).consts.length +
      reg.toInt.toNat), ?_, by omega, ?_⟩
    · push_cast
      omega
    · rw [List.getElem?_append_right (by omega), Nat.add_sub_cancel_left]
      exact ValueStack.getElem?_frameCells_base (by omega) (by omega)
  refine ⟨List.take_left, hframe, fun reg hreg => ?_, fun entry hentry => ?_⟩
  · obtain ⟨moved, hmove, hlow, hhigh⟩ := (hapart.defragments hfinal).into reg hreg
    exact ⟨moved, hmove, hlow, hframe moved hlow hhigh⟩
  · obtain ⟨i, hi, hvalue⟩ := FuncLocalConsts.toInt_of_get (hassigned entry hentry)
    have hlt := (List.getElem?_eq_some_iff.1 hvalue).1
    -- the constant allocated first is next to register 0
    refine ⟨stack.values.length + (pool.idx2const.length - 1 - i), ?_, by omega, ?_⟩
    · push_cast
      omega
    · rw [List.getElem?_append_right (by omega), Nat.add_sub_cancel_left,
        ValueStack.getElem?_frameCells_const (by omega)]
      have hindex : pool.idx2const.length - 1 - (pool.idx2const.length - 1 - i) = i := by omega
      show pool.idx2const.reverse[_]? = _
      rw [List.getElem?_reverse (by omega), hindex, hvalue]

/-- Where the regions crossed, the highest preserved register is outside of every frame. -/
lemma Crossed.not_laysOut {slots : σ → List Nat} (hcrossed : alloc.Crossed)
    (hslots : Slots slots alloc handed) (hfinal : alloc.finalizeAlloc = .ok final) :
    ¬LaysOut (compiledFunc instrs pool final) final handed assigned := by
  intro hlays
  obtain ⟨htop, hout⟩ := hcrossed.top_outside hslots hfinal
  have hbound : (compiledFunc instrs pool final).lenRegisters < 65536 := UInt16.toNat_lt _
  obtain hfull | ⟨stack', offsets, henter, hreads⟩ := hlays (fun _ => 0) ⟨[], 65536⟩ []
    (Nat.zero_le _)
  · rw [ValueStack.enterFrame, ValueStack.allocFrame,
      if_neg (by show ¬_ ≥ 65536 - 0; omega)] at hfull
    cases hfull
  · obtain ⟨hlen, hbase⟩ := ValueStack.length_enterFrame henter
    obtain ⟨moved, hmove, hlow, cell, hcell, _, hvalue⟩ := hreads.handed _ htop
    have hlt := (List.getElem?_eq_some_iff.1 hvalue).1
    have hregs := toNat_lenRegisters_le instrs pool final
    have hconsts : (compiledFunc instrs pool final).consts.length = pool.idx2const.length :=
      List.length_reverse
    refine hout moved hmove hlow ?_
    rw [List.length_nil] at hlen hbase
    omega

/-- The frames of a function are laid out iff every operation of the register allocator was
guarded. -/
theorem laysOut_iff {stash : MultiStash σ} {slots : σ → List Nat} (h : stash.Lawful slots)
    {start : RegisterAlloc σ} {ops : List AllocOp}
    (hrun : (start.reset stash).run stash ops = .ok (alloc, handed))
    (hfinal : alloc.finalizeAlloc = .ok final)
    (hpool : FuncLocalConsts.reset.allocAll values = .ok (assigned, pool)) :
    LaysOut (compiledFunc instrs pool final) final handed assigned ↔
      GuardedRun stash slots (start.reset stash) ops := by
  have hreset := reset_slots h start
  have hslots : Slots slots alloc handed := run_slots h hrun hreset
  constructor
  · intro hlays
    by_contra hguard
    exact (run_crosses h hrun hreset hguard).not_laysOut hslots hfinal hlays
  · intro hguard
    have hapart : Apart alloc handed := run_apart h hrun hguard hreset (reset_apart start)
    exact hapart.laysOut hfinal (FuncLocalConsts.allocAll_ok hpool).2

/-- A function with a parameter, a constant and a preserved register. -/
theorem laysOut_iff_reusing :
    ∃ alloc handed final assigned pool,
      (blank.reset firstVacant).run firstVacant reusing = .ok (alloc, handed) ∧
      alloc.finalizeAlloc = .ok final ∧
      FuncLocalConsts.reset.allocAll [7, 8, 7] = .ok (assigned, pool) ∧
      (LaysOut (compiledFunc [] pool final) final handed assigned ↔
        GuardedRun firstVacant id (blank.reset firstVacant) reusing) := by
  obtain ⟨assigned, pool, hpool⟩ : ∃ assigned pool,
      FuncLocalConsts.reset.allocAll [7, 8, 7] = .ok (assigned, pool) := ⟨_, _, rfl⟩
  exact ⟨_, _, _, assigned, pool, rfl, rfl, hpool, laysOut_iff firstVacant_lawful rfl rfl hpool⟩

/-- The sequence of a function with 32765 locals that needs a dynamic register and a preserved one:
they are outside of its frames. -/
theorem not_laysOut_full :
    ∃ alloc handed final, (blank.reset firstVacant).run firstVacant
        [.registerLocals 32765, .finishRegisterLocals, .pushDynamic, .pushPreserved] =
          .ok (alloc, handed) ∧
      alloc.finalizeAlloc = .ok final ∧
      ¬LaysOut (compiledFunc [] .reset final) final handed [] := by
  have hrun : (blank.reset firstVacant).run firstVacant
      [.registerLocals 32765, .finishRegisterLocals, .pushDynamic, .pushPreserved] =
        .ok (⟨[2], [], .alloc, 32765, 32766, 32766, 32765, 0⟩, _) := rfl
  have hslots := run_slots firstVacant_lawful hrun (reset_slots firstVacant_lawful blank)
  rw [List.nil_append] at hslots
  have hcrossed : Crossed (⟨[2], [], .alloc, 32765, 32766, 32766, 32765, 0⟩ :
      RegisterAlloc (List Nat)) := ⟨by decide, by decide⟩
  exact ⟨_, _, _, hrun, rfl, hcrossed.not_laysOut hslots rfl⟩

end RegisterAlloc

end Translator

end MotokoDebugger
