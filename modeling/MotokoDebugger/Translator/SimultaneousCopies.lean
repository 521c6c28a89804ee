import Mathlib.Data.List.Nodup
import MotokoDebugger.Executor.Copies
import MotokoDebugger.Lib.Fallible
import MotokoDebugger.Translator.Copies

/-!
# Encoded copies are simultaneous

`encode_copies` emits at most one instruction. It writes to each result the value that its provider
had before, whatever the overlap of results and providers.

* `Encodes`: what the encoding of copies does to the instruction words, and what the emitted words
  do to the registers of a frame.
* `encodeCopy_encodes`, `encodeCopies_encodes`: the encoder meets it.
* `encodeCopies_simultaneous`: the registers after the copies, one by one.
-/

namespace MotokoDebugger.Translator

open Index16 Fallible ParallelMoves Executor
open Runs (Steps)

variable {T : Type}

/-- The value of a provider where the registers are `f`. -/
def TypedProvider.valueIn (f : Reg → Option UntypedVal) : TypedProvider → Option UntypedVal
  | .register reg => f reg
  | .const value => some value.value

/-- The registers after all copies at once. -/
def copied (f : Reg → Option UntypedVal) (regs : List Reg) (values : List TypedProvider) :
    Reg → Option UntypedVal :=
  assign f (regs.zip (values.map (TypedProvider.valueIn f)))

/-- A copy at the last instruction has no parameter words behind it. -/
def InstrEncoder.CopyIsLast (enc : InstrEncoder) : Prop :=
  ∀ last instrOffset result value, enc.lastInstr = some last →
    enc.instrs[last]? = some ⟨instrOffset, .copy result value⟩ → last + 1 = enc.instrs.length

/-- The words of `enc` from `start` on, at most a copy, are replaced by words that copy the values to
the registers after it. The words before stay as they are, but for the fuel of their block. -/
structure Encodes (float : FloatOps) (enc enc' : InstrEncoder) (consts : FuncLocalConsts)
    (regs : List Reg) (values : List TypedProvider) (start : Nat) : Prop where
  start_le : start ≤ enc.instrs.length
  start_le' : start ≤ enc'.instrs.length
  unchanged : (enc'.instrs.take start).map unfueled = (enc.instrs.take start).map unfueled
  old : enc.instrs.drop start = [] ∨
    ∃ instrOffset result value, enc.instrs.drop start = [⟨instrOffset, .copy result value⟩]
  copyIsLast : enc'.CopyIsLast
  runs : ∀ {T : Type} (env : Engine T) (func : EngineFunc) (before later : List Instruction)
    (l l₁ : Local T), env.float = float →
    (env.codeMap func).instrs = before ++ (enc'.instrs.drop start ++ later) →
    l.ip = ⟨func, before.length⟩ → ConstsIn consts l → (∀ reg ∈ regs, (l.read reg).isSome) →
    (∀ value ∈ values, (TypedProvider.valueIn l.read value).isSome) →
    ((enc.instrs.drop start).forM fun instr => executeLocal env instr.op) l = .ok () l₁ →
    ∃ n l₂, Steps (LocalStep env) n l l₂ ∧ l₂.ip = l.ip.add (enc'.instrs.drop start).length ∧
      l₁.Moved l₂ (copied l₁.read regs values)

/-! ## Registers of a span -/

lemma nextN_succ (reg : Reg) (i : Nat) : reg.nextN (i + 1) = reg.next.nextN i := by
  show reg + Int16.ofNat (i + 1) = reg + Int16.ofNat 1 + Int16.ofNat i
  rw [Int16.add_assoc, ← Int16.ofNat_add, Nat.add_comm]

lemma iter_eq_some {span : RegSpan} {len : Nat} {regs : List Reg} (h : span.iter len = some regs) :
    span.head.toInt + len ≤ 32767 ∧ regs = (List.range len).map span.head.nextN := by
  unfold RegSpan.iter at h
  split at h
  case isTrue hle => exact ⟨hle, (Option.some.inj h).symm⟩
  case isFalse => simp at h

lemma range_nextN_succ (reg : Reg) (n : Nat) :
    (List.range (n + 1)).map reg.nextN = reg :: (List.range n).map reg.next.nextN := by
  rw [List.range_succ_eq_map, List.map_cons, List.map_map, Reg.nextN_zero]
  congr 1
  apply List.map_congr_left
  intro i _
  exact nextN_succ reg i

lemma iter_succ {head : Reg} {n : Nat} {regs : List Reg}
    (h : (⟨head⟩ : RegSpan).iter (n + 1) = some regs) :
    ∃ rest, regs = head :: rest ∧ (⟨head.next⟩ : RegSpan).iter n = some rest ∧
      head.next.toInt = head.toInt + 1 := by
  obtain ⟨hle, hregs⟩ := iter_eq_some h
  dsimp only at hle hregs
  have hone : (Int16.ofNat 1).toInt = 1 := rfl
  have hmem := toInt_mem head
  have hnext : head.next.toInt = head.toInt + 1 := by
    show (head + Int16.ofNat 1).toInt = _
    rw [toInt_add_of_mem (by omega) (by omega), hone]
  refine ⟨(List.range n).map head.next.nextN, ?_, ?_, hnext⟩
  · rw [hregs, range_nextN_succ]
  · exact if_pos (by show head.next.toInt + n ≤ 32767; omega)

lemma toInt_iter {span : RegSpan} {len i : Nat} {regs : List Reg} {reg : Reg}
    (h : span.iter len = some regs) (hreg : regs[i]? = some reg) :
    reg.toInt = span.head.toInt + i ∧ i < len := by
  obtain ⟨hle, rfl⟩ := iter_eq_some h
  rw [List.getElem?_map] at hreg
  obtain ⟨j, hj, rfl⟩ := Option.map_eq_some_iff.1 hreg
  obtain ⟨hlt, rfl⟩ := List.getElem?_eq_some_iff.1 hj
  have hmem := toInt_mem span.head
  have hi : i < 2 ^ 16 := by
    rw [List.length_range] at hlt
    omega
  rw [List.length_range] at hlt
  rw [List.getElem_range]
  refine ⟨?_, hlt⟩
  rw [Reg.nextN, Int16.toInt_add, Int16.toInt_ofNat']
  simp only [Int16.size, Int.bmod_def]
  split <;> split <;> omega

/-! ## Moves of the resolved providers -/

lemma valueIn_of_holds {consts : FuncLocalConsts} {l : Local T} (hconsts : ConstsIn consts l)
    {reg : Reg} {value : TypedProvider} (h : consts.Holds reg value) :
    l.read reg = value.valueIn l.read := by
  cases value with
  | register reg' =>
    obtain rfl : reg = reg' := h
    rfl
  | const value => exact hconsts reg value.value h.1

/-- Moves from the registers of the providers copy the providers. -/
lemma parallel_eq_copied {consts : FuncLocalConsts} {l : Local T} (hconsts : ConstsIn consts l)
    {srcs : List Reg} {values : List TypedProvider} (h : List.Forall₂ consts.Holds srcs values)
    (regs : List Reg) : parallel l.read (regs.zip srcs) = copied l.read regs values := by
  have hreads : srcs.map l.read = values.map (TypedProvider.valueIn l.read) := by
    induction h with
    | nil => rfl
    | cons hsrc _ ih => rw [List.map_cons, List.map_cons, valueIn_of_holds hconsts hsrc, ih]
  rw [copied, ← hreads, zip_read]
  rfl

/-- The registers of the providers are there. -/
lemma isSome_of_holds {consts : FuncLocalConsts} {l : Local T} (hconsts : ConstsIn consts l)
    {srcs : List Reg} {values : List TypedProvider} (h : List.Forall₂ consts.Holds srcs values)
    (hvalues : ∀ value ∈ values, (value.valueIn l.read).isSome) :
    ∀ reg ∈ srcs, (l.read reg).isSome := by
  induction h with
  | nil => simp
  | cons hsrc _ ih =>
    intro reg hreg
    obtain rfl | hreg := List.mem_cons.1 hreg
    · rw [valueIn_of_holds hconsts hsrc]
      exact hvalues _ List.mem_cons_self
    · exact ih (fun value hvalue => hvalues value (List.mem_cons_of_mem _ hvalue)) reg hreg

/-! ## The overlap tests -/

/-- Where the spans do not overlap, copying from the front reads every value before it is
overwritten. -/
lemma readsFirst_span {results values : RegSpan} {len : Nat} {resultRegs valueRegs : List Reg}
    (hresults : results.iter len = some resultRegs) (hvalues : values.iter len = some valueRegs)
    (htest : results.hasOverlappingCopies values len = false) :
    ReadsFirst (resultRegs.zip valueRegs) := by
  apply readsFirst_zip
  intro i j dst src hlt hdst hsrc heq
  obtain ⟨hdst, _⟩ := toInt_iter hresults hdst
  obtain ⟨hsrc, hj⟩ := toInt_iter hvalues hsrc
  have hlastReg : valueRegs[len - 1]? = some (values.head.nextN (len - 1)) := by
    rw [(iter_eq_some hvalues).2, List.getElem?_map, List.getElem?_range (by omega)]
    rfl
  have hlast := (toInt_iter hvalues hlastReg).1
  rw [heq] at hsrc
  unfold RegSpan.hasOverlappingCopies at htest
  rw [if_neg (by omega)] at htest
  split at htest
  case isTrue hge =>
    have hge := Int16.le_iff_toInt_le.1 hge
    omega
  case isFalse =>
    have hbefore := mt Int16.le_iff_toInt_le.2 (of_decide_eq_false htest)
    omega

/-- Where no register of the list is among the earlier results, neither is one of a constant. -/
lemma readsFirst_list {results : BoundedRegSpan} {consts : FuncLocalConsts} {regs srcs : List Reg}
    {values : List TypedProvider} (hregs : results.iter = some regs)
    (hlen : results.len = values.length) (hconst : ∀ reg ∈ regs, reg.isConst = false)
    (hholds : List.Forall₂ consts.Holds srcs values)
    (htest : InstrEncoder.hasOverlappingCopies results values = .ok false) :
    ReadsFirst (regs.zip srcs) := by
  apply readsFirst_zip
  intro i j dst src hlt hdst hsrc heq
  have hzero : (0 : Int16).toInt = 0 := rfl
  have hdstConst := hconst dst (List.mem_of_getElem? hdst)
  have hdstPos := mt Int16.lt_iff_toInt_lt.2 (of_decide_eq_false hdstConst)
  obtain ⟨hdstInt, hi⟩ := toInt_iter hregs hdst
  have hjSrc := (List.getElem?_eq_some_iff.1 hsrc).1
  have hjValue : j < values.length := hholds.length_eq ▸ hjSrc
  have hregsLen : regs.length = results.len := by
    rw [(iter_eq_some hregs).2, List.length_map, List.length_range]
  have hjReg : j < regs.length := by omega
  have hsrcHolds := (List.forall₂_iff_get.1 hholds).2 j hjSrc hjValue
  have hresult := (toInt_iter hregs (List.getElem?_eq_getElem hjReg)).1
  have hmem : (regs[j], values[j]) ∈ regs.zip values :=
    List.mem_iff_getElem.2 ⟨j, by rw [List.length_zip]; omega, List.getElem_zip⟩
  unfold InstrEncoder.hasOverlappingCopies at htest
  rw [if_neg (by omega), hregs] at htest
  have hnone := List.any_eq_false.1 (Except.ok.inj htest) _ hmem
  have hsrcGet : srcs.get ⟨j, hjSrc⟩ = dst := by
    rw [← heq]
    exact (List.getElem?_eq_some_iff.1 hsrc).2
  rw [hsrcGet] at hsrcHolds
  cases hvalue : values[j] with
  | register reg =>
    have hreg : dst = reg := by
      rw [List.get_eq_getElem, hvalue] at hsrcHolds
      exact hsrcHolds
    rw [hvalue, ← hreg] at hnone
    simp only [Bool.and_eq_true, decide_eq_true_eq, not_and, Int16.le_iff_toInt_le,
      Int16.lt_iff_toInt_lt] at hnone
    omega
  | const value =>
    rw [List.get_eq_getElem, hvalue] at hsrcHolds
    have hneg := hsrcHolds.2
    omega

/-! ## The emitted words -/

lemma instrAt_append {env : Engine T} {func : EngineFunc} {pre rest : List Instruction}
    {word : Instruction} (hcode : (env.codeMap func).instrs = pre ++ word :: rest) :
    env.instrAt ⟨func, pre.length⟩ = some word ∧
      env.wordsAt (InstructionPtr.add ⟨func, pre.length⟩ 1) = some rest := by
  have hzero : (0 : Int) ≤ pre.length := Int.natCast_nonneg _
  constructor
  · rw [Engine.instrAt, Engine.wordsAt, if_pos hzero]
    show ((env.codeMap func).instrs.drop pre.length).head? = some word
    rw [hcode, List.drop_left]
    rfl
  · rw [Engine.wordsAt, if_pos (by show (0 : Int) ≤ pre.length + 1; omega)]
    show some ((env.codeMap func).instrs.drop (pre.length + 1)) = some rest
    rw [hcode, ← List.drop_drop, List.drop_left]
    rfl

lemma pushFueled_ok {enc enc' : InstrEncoder} {word : Instruction} {fuelInfo : FuelInfo}
    {instr : Nat} (h : enc.pushFueled word fuelInfo = .ok (instr, enc')) :
    ∃ pre, pre.map unfueled = enc.instrs.map unfueled ∧ enc'.instrs = pre ++ [word] ∧
      enc'.lastInstr = some pre.length := by
  unfold InstrEncoder.pushFueled at h
  obtain ⟨enc₁, hbump, h⟩ := bind_eq_ok.1 h
  obtain ⟨rfl, rfl⟩ := pushInstr_ok h
  exact ⟨enc₁.instrs, bumpFuelConsumption_ok hbump, rfl, rfl⟩

/-- The new words are an instruction with its parameters, and the instruction copies the values. -/
lemma encodes_push {float : FloatOps} {enc enc' : InstrEncoder} {consts : FuncLocalConsts}
    {regs : List Reg} {values : List TypedProvider} {pre params : List Instruction}
    {word : Instruction} (hpre : pre.map unfueled = enc.instrs.map unfueled)
    (hinstrs : enc'.instrs = pre ++ word :: params) (hlast : enc'.lastInstr = some pre.length)
    (hcopy : ∀ instrOffset result value, word = ⟨instrOffset, .copy result value⟩ → params = [])
    (hstep : ∀ {T : Type} (env : Engine T) (later : List Instruction) (l : Local T),
      env.float = float → env.wordsAt (l.ip.add 1) = some (params ++ later) → ConstsIn consts l →
      (∀ reg ∈ regs, (l.read reg).isSome) →
      (∀ value ∈ values, (TypedProvider.valueIn l.read value).isSome) →
      ∃ l', executeLocal env word.op l = .ok () l' ∧ l'.ip = l.ip.add (params.length + 1) ∧
        l.Moved l' (copied l.read regs values)) :
    Encodes float enc enc' consts regs values enc.instrs.length := by
  have hlen : pre.length = enc.instrs.length := by
    have hlength := congrArg List.length hpre
    rwa [List.length_map, List.length_map] at hlength
  have hlen' : enc'.instrs.length = pre.length + (params.length + 1) := by
    rw [hinstrs, List.length_append, List.length_cons]
  refine ⟨Nat.le_refl _, by omega, ?_, .inl (List.drop_length), ?_, ?_⟩
  · rw [hinstrs, ← hlen, List.take_left, hpre, hlen, List.take_length]
  · intro last instrOffset result value hlast' hword
    rw [hlast] at hlast'
    obtain rfl := Option.some.inj hlast'
    rw [hinstrs, List.getElem?_append_right (Nat.le_refl _), Nat.sub_self] at hword
    have hparams := hcopy instrOffset result value (Option.some.inj hword)
    rw [hlen', hparams]
    rfl
  · intro T env func before later l l₁ hfloat hcode hip hconsts hregs hvalues hold
    rw [List.drop_length] at hold
    obtain rfl : l = l₁ := (EStateM.Result.ok.inj hold).2
    have hdrop : enc'.instrs.drop enc.instrs.length = word :: params := by
      rw [hinstrs, ← hlen, List.drop_left]
    rw [hdrop] at hcode ⊢
    obtain ⟨hword, hwords⟩ := instrAt_append hcode
    rw [← hip] at hword hwords
    obtain ⟨l', hexec, hip', hmoved⟩ := hstep env later l hfloat hwords hconsts hregs hvalues
    exact ⟨1, l', Steps.one ⟨word, hword, hexec⟩, hip', hmoved⟩

/-- The same copies, some of which change nothing. -/
lemma Encodes.congr {float : FloatOps} {enc enc' : InstrEncoder} {consts : FuncLocalConsts}
    {regs regs' : List Reg} {values values' : List TypedProvider} {start : Nat}
    (h : Encodes float enc enc' consts regs values start) (hregs : ∀ reg ∈ regs, reg ∈ regs')
    (hvalues : ∀ value ∈ values, value ∈ values')
    (hcopied : ∀ f, copied f regs values = copied f regs' values') :
    Encodes float enc enc' consts regs' values' start := by
  refine ⟨h.start_le, h.start_le', h.unchanged, h.old, h.copyIsLast, ?_⟩
  intro T env func before later l l₁ hfloat hcode hip hconsts hthere hvalues' hold
  rw [← hcopied]
  exact h.runs env func before later l l₁ hfloat hcode hip hconsts
    (fun reg hreg => hthere reg (hregs reg hreg))
    (fun value hvalue => hvalues' value (hvalues value hvalue)) hold

lemma encodes_nothing (float : FloatOps) {enc : InstrEncoder} (hlast : enc.CopyIsLast)
    (consts : FuncLocalConsts) : Encodes float enc enc consts [] [] enc.instrs.length := by
  refine ⟨Nat.le_refl _, Nat.le_refl _, rfl, .inl List.drop_length, hlast, ?_⟩
  intro T env func before later l l₁ hfloat hcode hip hconsts hregs hvalues hold
  rw [List.drop_length] at hold ⊢
  obtain rfl : l = l₁ := (EStateM.Result.ok.inj hold).2
  refine ⟨0, l, Steps.refl l, ?_, Local.Moved.refl l⟩
  show l.ip = ⟨l.ip.func, l.ip.pc + 0⟩
  rw [Int.add_zero]

/-! ## Single copies -/

/-- The immediate forms copy the constant. -/
lemma executeLocal_copyConst {env : Engine T} {l : Local T} {op : Op} {result : Reg}
    {value : UntypedVal} (hop : executeLocal env op = executeCopyImm result value)
    (hresult : (l.read result).isSome) :
    ∃ l', executeLocal env op l = .ok () l' ∧ l'.ip = l.ip.add 1 ∧
      l.Moved l' (Function.update l.read result (some value)) := by
  rw [hop]
  exact executeCopyImm_moved hresult

lemma ofI64_toI64 {value : UntypedVal} {imm : AnyConst32} (h : AnyConst32.ofI64 value = some imm) :
    imm.toI64 = value := by
  unfold AnyConst32.ofI64 at h
  split at h
  case isTrue heq =>
    rw [← Option.some.inj h]
    exact heq
  case isFalse => simp at h

lemma ofF64_eq {float : FloatOps} {value : UntypedVal} {imm : AnyConst32}
    (h : AnyConst32.ofF64 float value = some imm) : float.f64OfConst32 imm = value := by
  unfold AnyConst32.ofF64 at h
  dsimp only at h
  split at h
  case isTrue heq =>
    rw [← Option.some.inj h]
    exact heq
  case isFalse => simp at h

/-- The instruction for a constant: an immediate form, or a copy from the register of the
constant. -/
lemma copyConst_ok {float : FloatOps} {instrOffset : Nat} {consts consts' : FuncLocalConsts}
    {result : Reg} {value : TypedVal} {word : Instruction}
    (h : InstrEncoder.copyConst float instrOffset consts result value = .ok (word, consts')) :
    consts.Extends consts' ∧
      ((∀ {T : Type} (env : Engine T), env.float = float →
        executeLocal env word.op = executeCopyImm result value.value) ∨
      ∃ cref, word.op = .copy result cref ∧ consts'.get cref = some value.value) := by
  have himm : ∀ {word}, InstrEncoder.copyImm instrOffset consts result value.value =
      .ok (word, consts') → consts.Extends consts' ∧
        ∃ cref, word.op = .copy result cref ∧ consts'.get cref = some value.value := by
    intro word himm
    unfold InstrEncoder.copyImm at himm
    obtain ⟨⟨cref, consts₁⟩, halloc, himm⟩ := bind_eq_ok.1 himm
    obtain ⟨rfl, rfl⟩ := Prod.mk.inj (Except.ok.inj himm)
    obtain ⟨hext, hget, _⟩ := FuncLocalConsts.alloc_ok halloc
    exact ⟨hext, cref, rfl, hget⟩
  unfold InstrEncoder.copyConst at h
  split at h
  case h_1 hty =>
    obtain ⟨rfl, rfl⟩ := Prod.mk.inj (Except.ok.inj h)
    refine ⟨.refl consts, .inl fun env _ => ?_⟩
    show executeCopyImm result (.ofI32 value.value.toI32) = _
    rw [← value.upper (.inl hty)]
  case h_2 hty =>
    obtain ⟨rfl, rfl⟩ := Prod.mk.inj (Except.ok.inj h)
    refine ⟨.refl consts, .inl fun env _ => ?_⟩
    show executeCopyImm result (.ofI32 value.value.toI32) = _
    rw [← value.upper (.inr hty)]
  case h_3 =>
    split at h
    case h_1 imm himm64 =>
      obtain ⟨rfl, rfl⟩ := Prod.mk.inj (Except.ok.inj h)
      refine ⟨.refl consts, .inl fun env _ => ?_⟩
      show executeCopyImm result imm.toI64 = _
      rw [ofI64_toI64 himm64]
    case h_2 => exact ⟨(himm h).1, .inr (himm h).2⟩
  case h_4 =>
    split at h
    case h_1 imm himm64 =>
      obtain ⟨rfl, rfl⟩ := Prod.mk.inj (Except.ok.inj h)
      refine ⟨.refl consts, .inl fun env hfloat => ?_⟩
      show executeCopyImm result (env.float.f64OfConst32 imm) = _
      rw [hfloat, ofF64_eq himm64]
    case h_2 => exact ⟨(himm h).1, .inr (himm h).2⟩
  case h_5 => exact ⟨(himm h).1, .inr (himm h).2⟩
  case h_6 => exact ⟨(himm h).1, .inr (himm h).2⟩

/-- The registers next to a register that is no constant. -/
lemma next_or_prev {result last : Reg} (hpos : 0 ≤ result.toInt) (htop : result.toInt ≤ 32766)
    (hnear : result = last.next ∨ result = last.prev) :
    last < result ∧ last.next = result ∨ ¬last < result ∧ result.next = last ∧ result ≠ last := by
  have hnext : (Int16.ofNat 1).toInt = 1 := rfl
  have hprev : (1 : Int16).toInt = 1 := rfl
  have hmem := toInt_mem last
  have hresult : result.next.toInt = result.toInt + 1 := by
    show (result + Int16.ofNat 1).toInt = _
    rw [toInt_add_of_mem (by omega) (by omega), hnext]
  obtain rfl | rfl := hnear
  · have hlast : last.next.toInt = last.toInt + 1 := by
      show (last + Int16.ofNat 1).toInt = _
      have hwrap : (last.next).toInt = (last.toInt + 1).bmod (2 ^ 16) := by
        show (last + Int16.ofNat 1).toInt = _
        rw [Int16.toInt_add, hnext]
      rw [Int.bmod_def] at hwrap
      rw [toInt_add_of_mem (by omega) (by split at hwrap <;> omega), hnext]
    exact .inl ⟨Int16.lt_iff_toInt_lt.2 (by omega), rfl⟩
  · have hlast : last.prev.toInt = last.toInt - 1 := by
      show (last - 1).toInt = _
      have hwrap : (last.prev).toInt = (last.toInt - 1).bmod (2 ^ 16) := by
        show (last - 1).toInt = _
        rw [Int16.toInt_sub, hprev]
      rw [Int.bmod_def] at hwrap
      rw [toInt_sub_of_mem (by split at hwrap <;> omega) (by omega), hprev]
    refine .inr ⟨mt Int16.lt_iff_toInt_lt.1 (by omega), Int16.toInt_inj.1 (by omega), ?_⟩
    intro heq
    have heq := congrArg Int16.toInt heq
    omega

/-- Merging two copies into one instruction: the second one sees the result of the first. -/
lemma update_merge {f : Reg → Option UntypedVal} {last lastValue result value : Reg} :
    copied (Function.update f last (f lastValue)) [result] [.register value] =
      Function.update (Function.update f last (f lastValue)) result
        (f (if value = last then lastValue else value)) := by
  have hvalue : Function.update f last (f lastValue) value =
      f (if value = last then lastValue else value) := by
    split
    case isTrue heq => rw [heq, Function.update_self]
    case isFalse hne => rw [Function.update_of_ne hne]
  rw [← hvalue]
  rfl

/-- Two copies to registers next to each other, as one instruction. -/
structure Merges (last lastValue result value : Reg) (word : Instruction) (m a b : Reg) : Prop where
  op : word.op = .copy2 ⟨m⟩ a b
  regs : (m = last ∧ m.next = result ∧ a = lastValue ∧ b = value) ∨
    (m = result ∧ m.next = last ∧ a = value ∧ b = lastValue ∧ result ≠ last)

lemma mergeCopyInstrs_ok {enc enc' : InstrEncoder} {result : Reg} {value : TypedProvider}
    {merged : Nat} (hpos : 0 ≤ result.toInt) (htop : result.toInt ≤ 32766)
    (h : enc.mergeCopyInstrs result value = .ok (some (merged, enc'))) :
    ∃ instrOffset last lastValue reg word m a b, value = .register reg ∧
      enc.lastInstr = some merged ∧ enc.instrs[merged]? = some ⟨instrOffset, .copy last lastValue⟩ ∧
      enc' = { enc with instrs := enc.instrs.set merged word } ∧
      Merges last lastValue result (if reg = last then lastValue else reg) word m a b := by
  unfold InstrEncoder.mergeCopyInstrs at h
  split at h
  case h_2 => simp at h
  case h_1 value reg lastInstr hlastInstr =>
    split at h
    case h_1 => simp at h
    case h_3 => simp at h
    case h_2 instrOffset last lastValue hword =>
      split at h
      case isFalse => simp at h
      case isTrue hnear =>
        dsimp only at h
        obtain ⟨hlt, hnext⟩ | ⟨hge, hnext, hne⟩ := next_or_prev hpos htop hnear
        · rw [if_pos hlt] at h
          obtain ⟨word, hcopy2, h⟩ := bind_eq_ok.1 h
          obtain ⟨rfl, rfl⟩ := Prod.mk.inj (Option.some.inj (Except.ok.inj h))
          exact ⟨instrOffset, last, lastValue, reg, word, last, lastValue, _, rfl, hlastInstr, hword,
            rfl, by rw [copy2Ext_ok hcopy2], .inl ⟨rfl, hnext, rfl, rfl⟩⟩
        · rw [if_neg hge] at h
          obtain ⟨word, hcopy2, h⟩ := bind_eq_ok.1 h
          obtain ⟨rfl, rfl⟩ := Prod.mk.inj (Option.some.inj (Except.ok.inj h))
          exact ⟨instrOffset, last, lastValue, reg, word, result, _, lastValue, rfl, hlastInstr, hword,
            rfl, by rw [copy2Ext_ok hcopy2], .inr ⟨rfl, hnext, rfl, rfl, hne⟩⟩

lemma Merges.copied {last lastValue result reg m a b : Reg} {word : Instruction}
    (h : Merges last lastValue result (if reg = last then lastValue else reg) word m a b)
    (f : Reg → Option UntypedVal) :
    parallel f [(m, a), (m.next, b)] =
      copied (Function.update f last (f lastValue)) [result] [.register reg] := by
  rw [update_merge]
  obtain ⟨hm, hnext, ha, hb⟩ | ⟨hm, hnext, ha, hb, hne⟩ := h.regs
  · rw [hnext, hm, ha, hb]
    rfl
  · rw [hnext, hm, ha, hb, Function.update_comm hne.symm]
    rfl

/-- The merged instruction does the copy before it and the new one. -/
lemma mergeCopyInstrs_encodes {float : FloatOps} {enc enc' : InstrEncoder}
    (consts : FuncLocalConsts) {result : Reg} {value : TypedProvider} {merged : Nat}
    (hlast : enc.CopyIsLast) (hpos : 0 ≤ result.toInt) (htop : result.toInt ≤ 32766)
    (h : enc.mergeCopyInstrs result value = .ok (some (merged, enc'))) :
    Encodes float enc enc' consts [result] [value] merged := by
  obtain ⟨instrOffset, last, lastValue, reg, word, m, a, b, rfl, hlastInstr, hword, rfl, hmerges⟩ :=
    mergeCopyInstrs_ok hpos htop h
  have hlen := hlast merged instrOffset last lastValue hlastInstr hword
  obtain ⟨hlt, hget⟩ := List.getElem?_eq_some_iff.1 hword
  have hdrop : enc.instrs.drop merged = [⟨instrOffset, .copy last lastValue⟩] := by
    rw [List.drop_eq_getElem_cons hlt, hget, hlen, List.drop_length]
  have hset : enc.instrs.set merged word = enc.instrs.take merged ++ [word] := by
    rw [List.set_eq_take_append_cons_drop, if_pos hlt, hlen, List.drop_length]
  refine ⟨Nat.le_of_lt hlt, by simp [Nat.le_of_lt hlt], ?_, .inr ⟨_, _, _, hdrop⟩, ?_, ?_⟩
  · show ((enc.instrs.set merged word).take merged).map unfueled = _
    rw [List.take_set_of_le (Nat.le_refl merged)]
  · intro last' instrOffset' result' value' hlast' hcopy
    have hlast' : merged = last' := Option.some.inj (hlastInstr.symm.trans hlast')
    rw [← hlast', List.getElem?_set_self hlt] at hcopy
    have hop := hmerges.op
    rw [Option.some.inj hcopy] at hop
    simp at hop
  · intro T env func before later l l₁ hfloat hcode hip hconsts hregs hvalues hold
    rw [hdrop] at hold
    obtain ⟨_, l₂, hcopy, hdone⟩ := StateExcept.bind_eq_ok.1 hold
    obtain rfl : l₂ = l₁ := (EStateM.Result.ok.inj hdone).2
    obtain ⟨hlastThere, hlastValueThere⟩ := executeCopy_ok hcopy
    have hcopyStep : CopyStep env _ l 1 _ := copyStep_copy hlastThere hlastValueThere
    obtain ⟨l₃, hcopy', _, hmoved⟩ := hcopyStep
    obtain rfl : l₃ = l₂ := (EStateM.Result.ok.inj (hcopy'.symm.trans hcopy)).2
    have hresult : (l.read result).isSome := hregs result (List.mem_singleton_self result)
    have hreg : (l.read reg).isSome := hvalues (.register reg) (List.mem_singleton_self _)
    have hvalue : (l.read (if reg = last then lastValue else reg)).isSome := by
      split
      · exact hlastValueThere
      · exact hreg
    obtain ⟨l₄, hstep, hip', hmoved'⟩ : CopyStep env (.copy2 ⟨m⟩ a b) l 1 [(m, a), (m.next, b)] := by
      apply copyStep_copy2
      · intro reg' hreg'
        obtain ⟨rfl, hnext, _⟩ | ⟨rfl, hnext, _⟩ := hmerges.regs <;>
          simp only [hnext, List.mem_cons, List.not_mem_nil, or_false] at hreg' <;>
          obtain rfl | rfl := hreg' <;> assumption
      · intro reg' hreg'
        obtain ⟨_, _, rfl, rfl⟩ | ⟨_, _, rfl, rfl, _⟩ := hmerges.regs <;>
          simp only [List.mem_cons, List.not_mem_nil, or_false] at hreg' <;>
          obtain rfl | rfl := hreg' <;> assumption
    have hdrop' : (enc.instrs.set merged word).drop merged = [word] := by
      have hlenTake : (enc.instrs.take merged).length = merged :=
        List.length_take_of_le (Nat.le_of_lt hlt)
      rw [hset, List.drop_append, hlenTake, Nat.sub_self, List.drop_eq_nil_of_le (by omega)]
      rfl
    dsimp only at hcode
    rw [hdrop'] at hcode ⊢
    have hat := (instrAt_append hcode).1
    rw [← hip] at hat
    refine ⟨1, l₄, Steps.one ⟨word, hat, by rw [hmerges.op]; exact hstep⟩, hip', ?_⟩
    · rw [hmerges.copied] at hmoved'
      refine ⟨?_, hmoved'.base.trans hmoved.base.symm, hmoved'.length.trans hmoved.length.symm,
        hmoved'.cache.trans hmoved.cache.symm, hmoved'.store.trans hmoved.store.symm⟩
      rw [hmoved'.read, hmoved.read]
      rfl

/-- The encoding of a single copy. -/
lemma encodeCopy_encodes {float : FloatOps} {instrOffset : Nat} {enc enc' : InstrEncoder}
    {consts consts' : FuncLocalConsts} {result : Reg} {value : TypedProvider} {fuelInfo : FuelInfo}
    {instr : Option Nat} (hlast : enc.CopyIsLast) (hpos : 0 ≤ result.toInt)
    (htop : result.toInt ≤ 32766)
    (h : enc.encodeCopy float instrOffset consts result value fuelInfo =
      .ok (instr, enc', consts')) :
    consts.Extends consts' ∧ ∃ start, Encodes float enc enc' consts' [result] [value] start := by
  unfold InstrEncoder.encodeCopy at h
  obtain ⟨merge, hmerge, h⟩ := bind_eq_ok.1 h
  cases merge with
  | some merged =>
    obtain ⟨rfl, rfl, rfl⟩ := by simpa using Except.ok.inj h
    exact ⟨.refl consts, merged.1, mergeCopyInstrs_encodes consts hlast hpos htop hmerge⟩
  | none =>
    cases value with
    | register value =>
      dsimp only at h
      split at h
      case isTrue heq =>
        obtain ⟨rfl, rfl, rfl⟩ := by simpa using Except.ok.inj h
        refine ⟨.refl consts, enc.instrs.length, ?_⟩
        apply (encodes_nothing float hlast consts).congr (by simp) (by simp)
        intro f
        show f = Function.update f result (f value)
        rw [heq, Function.update_eq_self]
      case isFalse =>
        obtain ⟨⟨instr', enc₁⟩, hpush, h⟩ := bind_eq_ok.1 h
        obtain ⟨rfl, rfl, rfl⟩ := by simpa using Except.ok.inj h
        obtain ⟨pre, hpre, hinstrs, hlast'⟩ := pushFueled_ok hpush
        refine ⟨.refl consts, enc.instrs.length,
          encodes_push hpre hinstrs hlast' (fun _ _ _ _ => rfl) ?_⟩
        intro T env later l _ _ _ hregs hvalues
        exact copyStep_copy (hregs result (List.mem_singleton_self result))
          (hvalues (.register value) (List.mem_singleton_self _))
    | const value =>
      obtain ⟨⟨word, consts₁⟩, hconst, h⟩ := bind_eq_ok.1 h
      obtain ⟨⟨instr', enc₁⟩, hpush, h⟩ := bind_eq_ok.1 h
      obtain ⟨rfl, rfl, rfl⟩ := by simpa using Except.ok.inj h
      obtain ⟨pre, hpre, hinstrs, hlast'⟩ := pushFueled_ok hpush
      obtain ⟨hext, hword⟩ := copyConst_ok hconst
      refine ⟨hext, enc.instrs.length, encodes_push hpre hinstrs hlast' (fun _ _ _ _ => rfl) ?_⟩
      intro T env later l hfloat _ hconsts hregs _
      have hresult := hregs result (List.mem_singleton_self result)
      obtain himm | ⟨cref, hop, hget⟩ := hword
      · exact executeLocal_copyConst (himm env hfloat) hresult
      · have hcref := hconsts cref value.value hget
        have hstep : CopyStep env (.copy result cref) l 1 [(result, cref)] :=
          copyStep_copy hresult (by rw [hcref]; rfl)
        rw [hop]
        have hparallel : parallel l.read [(result, cref)] =
            copied l.read [result] [.const value] := by
          show Function.update l.read result (l.read cref) = _
          rw [hcref]
          rfl
        rw [← hparallel]
        exact hstep

/-! ## Lists of registers -/

/-- The parameter words that hold the registers of the providers. -/
structure Listed (enc enc' : InstrEncoder) (consts consts' : FuncLocalConsts)
    (values : List TypedProvider) (params : List Instruction) (srcs : List Reg) : Prop where
  instrs : enc'.instrs = enc.instrs ++ params
  last : enc'.lastInstr = enc.lastInstr
  ext : consts.Extends consts'
  holds : List.Forall₂ consts'.Holds srcs values
  list : ∀ later, ∃ len, params.length = len + 1 ∧
    registerList (params ++ later) = some (srcs, len)

lemma encodeRegisterList_ok {instrOffset : Nat} {enc enc' : InstrEncoder}
    {consts consts' : FuncLocalConsts} {values : List TypedProvider} (hne : values ≠ [])
    (h : enc.encodeRegisterList instrOffset consts values = .ok (enc', consts')) :
    ∃ params srcs, Listed enc enc' consts consts' values params srcs := by
  induction enc, consts, values using InstrEncoder.encodeRegisterList.induct with
  | case1 => exact absurd rfl hne
  | case2 enc consts v0 =>
    obtain ⟨⟨reg0, consts₁⟩, h0, h⟩ := bind_eq_ok.1 h
    obtain ⟨⟨at_, enc₁⟩, happend, h⟩ := bind_eq_ok.1 h
    obtain ⟨rfl, rfl⟩ := Prod.mk.inj (Except.ok.inj h)
    obtain ⟨hext, hholds⟩ := FuncLocalConsts.provider2reg_ok h0
    obtain ⟨rfl, _⟩ := appendInstr_ok happend
    exact ⟨_, [reg0], rfl, rfl, hext, .cons hholds .nil, fun later => ⟨0, rfl, rfl⟩⟩
  | case3 enc consts v0 v1 =>
    obtain ⟨⟨reg0, consts₁⟩, h0, h⟩ := bind_eq_ok.1 h
    obtain ⟨⟨reg1, consts₂⟩, h1, h⟩ := bind_eq_ok.1 h
    obtain ⟨⟨at_, enc₁⟩, happend, h⟩ := bind_eq_ok.1 h
    obtain ⟨rfl, rfl⟩ := Prod.mk.inj (Except.ok.inj h)
    obtain ⟨hext0, hholds0⟩ := FuncLocalConsts.provider2reg_ok h0
    obtain ⟨hext1, hholds1⟩ := FuncLocalConsts.provider2reg_ok h1
    obtain ⟨rfl, _⟩ := appendInstr_ok happend
    exact ⟨_, [reg0, reg1], rfl, rfl, hext0.trans hext1,
      .cons (hholds0.extends hext1) (.cons hholds1 .nil), fun later => ⟨0, rfl, rfl⟩⟩
  | case4 enc consts v0 v1 v2 =>
    obtain ⟨⟨reg0, consts₁⟩, h0, h⟩ := bind_eq_ok.1 h
    obtain ⟨⟨reg1, consts₂⟩, h1, h⟩ := bind_eq_ok.1 h
    obtain ⟨⟨reg2, consts₃⟩, h2, h⟩ := bind_eq_ok.1 h
    obtain ⟨⟨at_, enc₁⟩, happend, h⟩ := bind_eq_ok.1 h
    obtain ⟨rfl, rfl⟩ := Prod.mk.inj (Except.ok.inj h)
    obtain ⟨hext0, hholds0⟩ := FuncLocalConsts.provider2reg_ok h0
    obtain ⟨hext1, hholds1⟩ := FuncLocalConsts.provider2reg_ok h1
    obtain ⟨hext2, hholds2⟩ := FuncLocalConsts.provider2reg_ok h2
    obtain ⟨rfl, _⟩ := appendInstr_ok happend
    exact ⟨_, [reg0, reg1, reg2], rfl, rfl, (hext0.trans hext1).trans hext2,
      .cons (hholds0.extends (hext1.trans hext2))
        (.cons (hholds1.extends hext2) (.cons hholds2 .nil)), fun later => ⟨0, rfl, rfl⟩⟩
  | case5 enc consts v0 v1 v2 rest hrest ih =>
    rw [InstrEncoder.encodeRegisterList.eq_5 _ _ _ _ _ _ _ hrest] at h
    obtain ⟨⟨reg0, consts₁⟩, h0, h⟩ := bind_eq_ok.1 h
    obtain ⟨⟨reg1, consts₂⟩, h1, h⟩ := bind_eq_ok.1 h
    obtain ⟨⟨reg2, consts₃⟩, h2, h⟩ := bind_eq_ok.1 h
    obtain ⟨⟨at_, enc₁⟩, happend, h⟩ := bind_eq_ok.1 h
    obtain ⟨params, srcs, hinstrs, hlast, hext, hholds, hlist⟩ := ih consts₃ enc₁ hrest h
    obtain ⟨hext0, hholds0⟩ := FuncLocalConsts.provider2reg_ok h0
    obtain ⟨hext1, hholds1⟩ := FuncLocalConsts.provider2reg_ok h1
    obtain ⟨hext2, hholds2⟩ := FuncLocalConsts.provider2reg_ok h2
    obtain ⟨rfl, _⟩ := appendInstr_ok happend
    refine ⟨⟨instrOffset, .registerList reg0 reg1 reg2⟩ :: params, reg0 :: reg1 :: reg2 :: srcs,
      ?_, hlast, ((hext0.trans hext1).trans hext2).trans hext, ?_, fun later => ?_⟩
    · rw [hinstrs, List.append_assoc]
      rfl
    · exact .cons (hholds0.extends ((hext1.trans hext2).trans hext))
        (.cons (hholds1.extends (hext2.trans hext)) (.cons (hholds2.extends hext) hholds))
    · obtain ⟨len, hlen, hregs⟩ := hlist later
      refine ⟨len + 1, by rw [List.length_cons, hlen], ?_⟩
      show (registerList (params ++ later)).map _ = _
      rw [hregs]
      rfl

/-! ## Spans of registers -/

lemma lastConsecutive_eq {values : List TypedProvider} {prev last : Reg}
    (h : lastConsecutive prev values = some last) :
    last.toInt = prev.toInt + values.length ∧
      (last.toInt ≤ 32766 → values = (List.range values.length).map fun i =>
        .register (prev.next.nextN i)) := by
  induction values generalizing prev with
  | nil =>
    obtain rfl := Option.some.inj h
    exact ⟨by simp, fun _ => rfl⟩
  | cons value values ih =>
    obtain ⟨next, hnext, h⟩ := Option.bind_eq_some_iff.1 h
    split at h
    case isFalse => simp at h
    case isTrue hstep =>
      obtain ⟨hlast, hvalues⟩ := ih h
      cases value with
      | const value => simp [TypedProvider.registerIndex] at hnext
      | register reg =>
        obtain rfl := Option.some.inj hnext
        have hone : (Int16.ofNat 1).toInt = 1 := rfl
        have hmem := toInt_mem reg
        have hmem' := toInt_mem prev
        have hreg : prev.next = reg := by
          apply Int16.toInt_inj.1
          show (prev + Int16.ofNat 1).toInt = _
          rw [toInt_add_of_mem (by omega) (by omega)]
          omega
        refine ⟨by rw [hlast, List.length_cons]; omega, fun htop => ?_⟩
        rw [hreg, List.length_cons, List.range_succ_eq_map, List.map_cons, List.map_map,
          Reg.nextN_zero, hvalues htop]
        congr 1
        rw [List.length_map, List.length_range]
        apply List.map_congr_left
        intro i _
        show Provider.register (reg.next.nextN i) = .register (reg.nextN (i + 1))
        rw [nextN_succ]

/-- The providers of a span are its registers. -/
lemma fromProviders_eq {values : List TypedProvider} {span : BoundedRegSpan}
    (h : BoundedRegSpan.fromProviders values = some span) (hlen : values.length < 2 ^ 16) :
    span.len = values.length ∧
      values = ((List.range values.length).map span.span.head.nextN).map Provider.register := by
  cases values with
  | nil => simp [BoundedRegSpan.fromProviders] at h
  | cons first rest =>
    obtain ⟨reg, hreg, h⟩ := Option.bind_eq_some_iff.1 h
    obtain ⟨last, hlast, h⟩ := Option.bind_eq_some_iff.1 h
    split at h
    case isFalse => simp at h
    case isTrue hbound =>
      obtain rfl := Option.some.inj h
      obtain ⟨hlastInt, hrest⟩ := lastConsecutive_eq hlast
      cases first with
      | const value => simp [TypedProvider.registerIndex] at hreg
      | register reg' =>
        obtain rfl := Option.some.inj hreg
        rw [List.length_cons] at hlen
        refine ⟨?_, ?_⟩
        · show ((last.toInt + 1 - reg'.toInt) % 2 ^ 16).toNat = rest.length + 1
          omega
        · rw [List.length_cons, range_nextN_succ, List.map_cons, List.map_map]
          congr 1
          exact hrest (by omega)

/-! ## Several copies -/

lemma holds_registers (consts : FuncLocalConsts) (regs : List Reg) :
    List.Forall₂ consts.Holds regs (regs.map Provider.register) := by
  rw [List.forall₂_map_right_iff]
  exact List.forall₂_same.2 fun reg _ => rfl

lemma hasOverlappingCopySpans_ok {results values : RegSpan} {len : Nat} {overlapping : Bool}
    (h : InstrEncoder.hasOverlappingCopySpans results values len = .ok overlapping) :
    ∃ valueRegs, values.iter len = some valueRegs ∧
      results.hasOverlappingCopies values len = overlapping := by
  unfold InstrEncoder.hasOverlappingCopySpans at h
  split at h
  case h_1 _ valueRegs _ hvalues => exact ⟨valueRegs, hvalues, Except.ok.inj h⟩
  case h_2 => simp at h

/-- The span instructions copy consecutive registers. -/
lemma span_step {env : Engine T} {l : Local T} {consts : FuncLocalConsts} {results values : RegSpan}
    {len : Nat} {regs valueRegs : List Reg} {providers : List TypedProvider}
    (hregs : results.iter len = some regs) (hvalueRegs : values.iter len = some valueRegs)
    (hproviders : providers = valueRegs.map Provider.register) (hconsts : ConstsIn consts l)
    (hthere : ∀ reg ∈ regs, (l.read reg).isSome)
    (hvalues : ∀ value ∈ providers, (TypedProvider.valueIn l.read value).isSome) :
    ∃ l', executeLocal env (match results.hasOverlappingCopies values len with
        | true => Op.copySpan results values len
        | false => Op.copySpanNonOverlapping results values len) l = .ok () l' ∧
      l'.ip = l.ip.add 1 ∧ l.Moved l' (copied l.read regs providers) := by
  have hholds := holds_registers consts valueRegs
  rw [← hproviders] at hholds
  have hsrcs := isSome_of_holds hconsts hholds hvalues
  rw [← parallel_eq_copied hconsts hholds]
  cases htest : results.hasOverlappingCopies values len with
  | true => exact copyStep_copySpan hregs hvalueRegs hthere hsrcs
  | false =>
    exact copyStep_copySpanNonOverlapping hregs hvalueRegs hthere hsrcs
      (readsFirst_span hregs hvalueRegs htest)

/-- The list instructions copy the registers of the providers. -/
lemma many_step {env : Engine T} {l : Local T} {consts : FuncLocalConsts} {results : BoundedRegSpan}
    {regs srcs : List Reg} {reg0 reg1 : Reg} {values : List TypedProvider}
    {words : List Instruction} {len : Nat} {overlapping : Bool}
    (hlen : results.len = values.length) (hregs : results.iter = some regs)
    (hconst : ∀ reg ∈ regs, reg.isConst = false) (hconsts : ConstsIn consts l)
    (hholds : List.Forall₂ consts.Holds (reg0 :: reg1 :: srcs) values)
    (htest : InstrEncoder.hasOverlappingCopies results values = .ok overlapping)
    (hwords : env.wordsAt (l.ip.add 1) = some words)
    (hlist : registerList words = some (srcs, len))
    (hthere : ∀ reg ∈ regs, (l.read reg).isSome)
    (hvalues : ∀ value ∈ values, (TypedProvider.valueIn l.read value).isSome) :
    ∃ l', executeLocal env (match overlapping with
        | true => Op.copyMany results.span reg0 reg1
        | false => Op.copyManyNonOverlapping results.span reg0 reg1) l = .ok () l' ∧
      l'.ip = l.ip.add (len + 2) ∧ l.Moved l' (copied l.read regs values) := by
  have hsrcs := isSome_of_holds hconsts hholds hvalues
  have hsrcsLen : srcs.length + 2 = results.len := by
    rw [hlen, ← hholds.length_eq]
    rfl
  rw [← parallel_eq_copied hconsts hholds]
  cases overlapping with
  | true =>
    have hiter : results.span.iter (srcs.length + 2) = some regs := hsrcsLen ▸ hregs
    exact copyStep_copyMany hwords hlist hiter hthere hsrcs
  | false =>
    have hreads := readsFirst_list hregs hlen hconst hholds htest
    have hrange : (List.range (srcs.length + 2)).map results.span.head.nextN = regs := by
      rw [hsrcsLen]
      exact (iter_eq_some hregs).2.symm
    rw [← hrange] at hthere hreads ⊢
    exact copyStep_copyManyNonOverlapping hwords hlist hthere hsrcs hreads

/-- The encoding of at least three copies. -/
lemma encodeCopyMany_encodes {float : FloatOps} {instrOffset : Nat} {enc enc' : InstrEncoder}
    {consts consts' : FuncLocalConsts} {results : BoundedRegSpan} {v0 v1 : TypedProvider}
    {rest : List TypedProvider} {fuelInfo : FuelInfo} {instr : Option Nat} {regs : List Reg}
    (hne : rest ≠ []) (hlen : results.len = (v0 :: v1 :: rest).length)
    (hbound : results.len < 2 ^ 16) (hregs : results.iter = some regs)
    (hconst : ∀ reg ∈ regs, reg.isConst = false)
    (h : InstrEncoder.encodeCopyMany instrOffset enc consts results v0 v1 rest fuelInfo =
      .ok (instr, enc', consts')) :
    consts.Extends consts' ∧
      ∃ start, Encodes float enc enc' consts' regs (v0 :: v1 :: rest) start := by
  unfold InstrEncoder.encodeCopyMany at h
  obtain ⟨enc₁, hbump, h⟩ := bind_eq_ok.1 h
  obtain ⟨enc₂, hbump', h⟩ := bind_eq_ok.1 h
  have hpre := (bumpFuelConsumption_ok hbump').trans (bumpFuelConsumption_ok hbump)
  split at h
  case h_1 values hvalues =>
    obtain ⟨overlapping, htest, h⟩ := bind_eq_ok.1 h
    obtain ⟨⟨at_, enc₃⟩, hpush, h⟩ := bind_eq_ok.1 h
    obtain ⟨rfl, rfl, rfl⟩ := by simpa using Except.ok.inj h
    obtain ⟨rfl, _⟩ := pushInstr_ok hpush
    obtain ⟨hspanLen, hspan⟩ := fromProviders_eq hvalues (by omega)
    obtain ⟨valueRegs, hvalueRegs, rfl⟩ := hasOverlappingCopySpans_ok htest
    rw [hspanLen] at hvalueRegs
    rw [← (iter_eq_some hvalueRegs).2] at hspan
    have hiter : results.span.iter (v0 :: v1 :: rest).length = some regs := hlen ▸ hregs
    refine ⟨.refl consts, enc.instrs.length, encodes_push hpre rfl rfl ?_ ?_⟩
    · exact fun _ _ _ _ => rfl
    · intro T env later l _ _ hconsts hthere hvaluesThere
      rw [hspanLen]
      exact span_step hiter hvalueRegs hspan hconsts hthere hvaluesThere
  case h_2 =>
    obtain ⟨overlapping, htest, h⟩ := bind_eq_ok.1 h
    obtain ⟨⟨reg0, consts₁⟩, h0, h⟩ := bind_eq_ok.1 h
    obtain ⟨⟨reg1, consts₂⟩, h1, h⟩ := bind_eq_ok.1 h
    obtain ⟨⟨at_, enc₃⟩, hpush, h⟩ := bind_eq_ok.1 h
    obtain ⟨⟨enc₄, consts₃⟩, hlist, h⟩ := bind_eq_ok.1 h
    obtain ⟨rfl, rfl, rfl⟩ := by simpa using Except.ok.inj h
    obtain ⟨rfl, _⟩ := pushInstr_ok hpush
    obtain ⟨hext0, hholds0⟩ := FuncLocalConsts.provider2reg_ok h0
    obtain ⟨hext1, hholds1⟩ := FuncLocalConsts.provider2reg_ok h1
    obtain ⟨params, srcs, hinstrs, hlast, hext, hholds, hregList⟩ :=
      encodeRegisterList_ok hne hlist
    have hall : List.Forall₂ consts₃.Holds (reg0 :: reg1 :: srcs) (v0 :: v1 :: rest) :=
      .cons (hholds0.extends (hext1.trans hext)) (.cons (hholds1.extends hext) hholds)
    rw [List.append_assoc, List.singleton_append] at hinstrs
    refine ⟨(hext0.trans hext1).trans hext, enc.instrs.length,
      encodes_push hpre hinstrs hlast ?_ ?_⟩
    · intro _ _ _ hword
      cases overlapping <;> simp at hword
    · intro T env later l _ hwords hconsts hthere hvaluesThere
      obtain ⟨len, hparams, hregList⟩ := hregList later
      rw [hparams]
      exact many_step hlen hregs hconst hconsts hall htest hwords hregList hthere hvaluesThere

/-- Copying a register to itself changes nothing. -/
lemma copied_self (f : Reg → Option UntypedVal) (reg : Reg) (regs : List Reg)
    (values : List TypedProvider) :
    copied f (reg :: regs) (.register reg :: values) = copied f regs values := by
  show assign (Function.update f reg (f reg)) _ = assign f _
  rw [Function.update_eq_self]
  rfl

/-- The encoding of two copies by one instruction. -/
lemma copy2_encodes {float : FloatOps} {instrOffset : Nat} {enc enc' : InstrEncoder}
    {consts consts₁ consts₂ : FuncLocalConsts} {results : RegSpan} {v0 v1 : TypedProvider}
    {reg0 reg1 : Reg} {word : Instruction} {fuelInfo : FuelInfo} {instr : Nat}
    (h0 : consts.provider2reg v0 = .ok (reg0, consts₁))
    (h1 : consts₁.provider2reg v1 = .ok (reg1, consts₂))
    (hcopy2 : copy2Ext instrOffset results reg0 reg1 = .ok word)
    (hpush : enc.pushFueled word fuelInfo = .ok (instr, enc')) :
    consts.Extends consts₂ ∧
      Encodes float enc enc' consts₂ [results.head, results.head.next] [v0, v1]
        enc.instrs.length := by
  obtain ⟨hext0, hholds0⟩ := FuncLocalConsts.provider2reg_ok h0
  obtain ⟨hext1, hholds1⟩ := FuncLocalConsts.provider2reg_ok h1
  obtain ⟨pre, hpre, hinstrs, hlast⟩ := pushFueled_ok hpush
  have hholds : List.Forall₂ consts₂.Holds [reg0, reg1] [v0, v1] :=
    .cons (hholds0.extends hext1) (.cons hholds1 .nil)
  refine ⟨hext0.trans hext1, encodes_push hpre hinstrs hlast (fun _ _ _ _ => rfl) ?_⟩
  intro T env later l _ _ hconsts hthere hvalues
  rw [copy2Ext_ok hcopy2, ← parallel_eq_copied hconsts hholds]
  exact copyStep_copy2 hthere (isSome_of_holds hconsts hholds hvalues)

/-- The words that the encoder emits for copies do them all at once. -/
lemma encodeCopies_encodes {float : FloatOps} {instrOffset : Nat} {enc enc' : InstrEncoder}
    {consts consts' : FuncLocalConsts} {results : BoundedRegSpan} {values : List TypedProvider}
    {fuelInfo : FuelInfo} {instr : Option Nat} {regs : List Reg} (hlast : enc.CopyIsLast)
    (hregs : results.iter = some regs) (hconst : ∀ reg ∈ regs, reg.isConst = false)
    (h : enc.encodeCopies float instrOffset consts results values fuelInfo =
      .ok (instr, enc', consts')) :
    consts.Extends consts' ∧ ∃ start, Encodes float enc enc' consts' regs values start := by
  induction values generalizing results regs with
  | nil =>
    unfold InstrEncoder.encodeCopies at h
    split at h
    case isTrue => simp at h
    case isFalse hlen =>
      obtain ⟨_, hregs⟩ := iter_eq_some hregs
      rw [Classical.not_not.1 hlen] at hregs
      obtain ⟨rfl, rfl, rfl⟩ := by simpa using Except.ok.inj h
      subst hregs
      exact ⟨.refl consts, enc.instrs.length, encodes_nothing float hlast consts⟩
  | cons v0 rest ih =>
    unfold InstrEncoder.encodeCopies at h
    split at h
    case isTrue => simp at h
    case isFalse hlen =>
      have hlen : results.len = rest.length + 1 := Classical.not_not.1 hlen
      have hbound := (iter_eq_some hregs).1
      have hmem := toInt_mem results.span.head
      obtain ⟨tail, rfl, htail, hnext⟩ : ∃ tail, regs = results.span.head :: tail ∧
          (⟨results.span.head.next⟩ : RegSpan).iter rest.length = some tail ∧ _ :=
        iter_succ (by rw [← hlen]; exact hregs)
      have hzero : (0 : Int16).toInt = 0 := rfl
      have hhead := of_decide_eq_false (hconst _ List.mem_cons_self)
      rw [Int16.lt_iff_toInt_lt] at hhead
      dsimp only at h
      split at h
      case isTrue hself =>
        -- a copy to itself is left out
        have htail' : (⟨⟨results.span.head.next⟩, results.len - 1⟩ : BoundedRegSpan).iter =
            some tail := by
          rw [hlen]
          exact htail
        obtain ⟨hext, start, hencodes⟩ := ih htail'
          (fun reg hreg => hconst reg (List.mem_cons_of_mem _ hreg)) h
        refine ⟨hext, start, hencodes.congr (fun _ => List.mem_cons_of_mem _)
          (fun _ => List.mem_cons_of_mem _) fun f => ?_⟩
        rw [hself, copied_self]
      case isFalse =>
        cases rest with
        | nil =>
          obtain rfl : tail = [] := (iter_eq_some htail).2
          exact encodeCopy_encodes hlast (by omega) (by omega) h
        | cons v1 rest =>
          rw [List.length_cons] at hlen
          cases rest with
          | nil =>
            obtain rfl : tail = [results.span.head.next] := by
              rw [(iter_eq_some htail).2]
              show [results.span.head.next.nextN 0] = _
              rw [Reg.nextN_zero]
            dsimp only at h
            split at h
            case isTrue hself =>
              obtain ⟨hext, start, hencodes⟩ := encodeCopy_encodes hlast (by omega) (by omega) h
              refine ⟨hext, start, hencodes.congr (by simp) (by simp) fun f => ?_⟩
              have hne : results.span.head ≠ results.span.head.next := by
                intro heq
                rw [← heq] at hnext
                omega
              rw [hself]
              show Function.update f _ _ = Function.update (Function.update f _ _) _ (f _)
              rw [Function.update_comm hne, Function.update_eq_self]
            case isFalse =>
              obtain ⟨⟨reg0, consts₁⟩, h0, h⟩ := bind_eq_ok.1 h
              obtain ⟨⟨reg1, consts₂⟩, h1, h⟩ := bind_eq_ok.1 h
              obtain ⟨enc₁, hbump, h⟩ := bind_eq_ok.1 h
              obtain ⟨word, hcopy2, h⟩ := bind_eq_ok.1 h
              obtain ⟨⟨at_, enc₂⟩, hpush, h⟩ := bind_eq_ok.1 h
              obtain ⟨rfl, rfl, rfl⟩ := by simpa using Except.ok.inj h
              have hpush' : enc.pushFueled word fuelInfo = .ok (at_, enc₂) :=
                bind_eq_ok.2 ⟨enc₁, hbump, hpush⟩
              obtain ⟨hext, hencodes⟩ := copy2_encodes h0 h1 hcopy2 hpush'
              exact ⟨hext, _, hencodes⟩
          | cons v2 rest =>
            rw [List.length_cons] at hlen
            exact encodeCopyMany_encodes (by simp) (by simpa using hlen) (by omega) hregs hconst h

/-! ## All copies at once -/

lemma nodup_iter {span : RegSpan} {len : Nat} {regs : List Reg} (h : span.iter len = some regs) :
    regs.Nodup := by
  rw [List.nodup_iff_getElem?_ne_getElem?]
  intro i j hij hj heq
  have hreg := List.getElem?_eq_getElem hj
  rw [hreg] at heq
  have hi := (toInt_iter h heq).1
  have hj := (toInt_iter h hreg).1
  omega

lemma copied_of_getElem {f : Reg → Option UntypedVal} {regs : List Reg}
    {values : List TypedProvider} {i : Nat} {reg : Reg} {value : TypedProvider}
    (hnodup : regs.Nodup) (hlen : regs.length = values.length) (hreg : regs[i]? = some reg)
    (hvalue : values[i]? = some value) : copied f regs values reg = value.valueIn f := by
  have hkeys : (regs.zip (values.map (TypedProvider.valueIn f))).map Prod.fst = regs :=
    List.map_fst_zip (by rw [List.length_map]; exact Nat.le_of_eq hlen)
  have hentry : (reg, value.valueIn f) ∈ regs.zip (values.map (TypedProvider.valueIn f)) := by
    refine List.mem_of_getElem? (List.getElem?_zip_eq_some.2 ⟨hreg, ?_⟩)
    rw [List.getElem?_map, hvalue]
    rfl
  rw [← hkeys] at hnodup
  exact assign_of_mem hnodup hentry

lemma copied_of_not_mem {f : Reg → Option UntypedVal} {regs : List Reg}
    {values : List TypedProvider} {reg : Reg} (h : reg ∉ regs) : copied f regs values reg = f reg := by
  apply assign_of_not_mem
  intro hmem
  obtain ⟨entry, hentry, rfl⟩ := List.mem_map.1 hmem
  exact h (List.of_mem_zip hentry).1

lemma encodeCopies_length {float : FloatOps} {instrOffset : Nat} {enc : InstrEncoder}
    {consts : FuncLocalConsts} {results : BoundedRegSpan} {values : List TypedProvider}
    {fuelInfo : FuelInfo} {res : Option Nat × InstrEncoder × FuncLocalConsts}
    (h : enc.encodeCopies float instrOffset consts results values fuelInfo = .ok res) :
    results.len = values.length := by
  unfold InstrEncoder.encodeCopies at h
  split at h
  case isTrue => simp at h
  case isFalse hlen => exact Classical.not_not.1 hlen

/-- Run from `l`, the words at the instruction pointer write the values that the providers have in
`l₁` to the registers, and change nothing else of `l₁`. -/
def CopiesAtOnce (env : Engine T) (words : List Instruction) (l l₁ : Local T) (regs : List Reg)
    (values : List TypedProvider) : Prop :=
  ∃ n l₂, Steps (LocalStep env) n l l₂ ∧ l₂.ip = l.ip.add words.length ∧
    (∀ (i : Nat) reg value, regs[i]? = some reg → values[i]? = some value →
      l₂.read reg = value.valueIn l₁.read) ∧
    (∀ reg, reg ∉ regs → l₂.read reg = l₁.read reg) ∧
    l₂.base = l₁.base ∧ l₂.cells.length = l₁.cells.length ∧ l₂.cache = l₁.cache ∧
    l₂.store = l₁.store

/-- The copies that the encoder emits are simultaneous. They replace at most the last word, a single
copy; `l₁` is the state after that copy. The function may grow and get more constants before it
runs. -/
theorem encodeCopies_simultaneous {float : FloatOps} {instrOffset : Nat} {enc enc' : InstrEncoder}
    {consts consts' : FuncLocalConsts} {results : BoundedRegSpan} {values : List TypedProvider}
    {fuelInfo : FuelInfo} {instr : Option Nat} {regs : List Reg} (hlast : enc.CopyIsLast)
    (hregs : results.iter = some regs) (hconst : ∀ reg ∈ regs, reg.isConst = false)
    (h : enc.encodeCopies float instrOffset consts results values fuelInfo =
      .ok (instr, enc', consts')) :
    enc'.CopyIsLast ∧ consts.Extends consts' ∧
      ∃ start, start ≤ enc.instrs.length ∧ start ≤ enc'.instrs.length ∧
        (enc'.instrs.take start).map unfueled = (enc.instrs.take start).map unfueled ∧
        (enc.instrs.drop start = [] ∨
          ∃ instrOffset result value, enc.instrs.drop start = [⟨instrOffset, .copy result value⟩]) ∧
        ∀ {T : Type} (env : Engine T) (func : EngineFunc) (before later : List Instruction)
          (pool : FuncLocalConsts) (l l₁ : Local T), env.float = float →
          (env.codeMap func).instrs = before ++ (enc'.instrs.drop start ++ later) →
          l.ip = ⟨func, before.length⟩ → consts'.Extends pool → ConstsIn pool l →
          (∀ reg ∈ regs, (l.read reg).isSome) →
          (∀ value ∈ values, (TypedProvider.valueIn l.read value).isSome) →
          ((enc.instrs.drop start).forM fun instr => executeLocal env instr.op) l = .ok () l₁ →
          CopiesAtOnce env (enc'.instrs.drop start) l l₁ regs values := by
  obtain ⟨hext, start, hencodes⟩ := encodeCopies_encodes hlast hregs hconst h
  refine ⟨hencodes.copyIsLast, hext, start, hencodes.start_le, hencodes.start_le',
    hencodes.unchanged, hencodes.old, ?_⟩
  intro T env func before later pool l l₁ hfloat hcode hip hpool hconsts hthere hvalues hold
  have hconsts' : ConstsIn consts' l := fun reg value hget => hconsts reg value (hpool reg value hget)
  obtain ⟨n, l₂, hsteps, hip', hmoved⟩ :=
    hencodes.runs env func before later l l₁ hfloat hcode hip hconsts' hthere hvalues hold
  have hlen : regs.length = values.length := by
    rw [(iter_eq_some hregs).2, List.length_map, List.length_range, encodeCopies_length h]
  refine ⟨n, l₂, hsteps, hip', ?_, ?_, hmoved.base, hmoved.length, hmoved.cache, hmoved.store⟩
  · intro i reg value hreg hvalue
    rw [hmoved.read]
    exact copied_of_getElem (nodup_iter hregs) hlen hreg hvalue
  · intro reg hreg
    rw [hmoved.read]
    exact copied_of_not_mem hreg

/-- Rotates registers 0 and 1, and writes a constant between them. -/
def rotation : List TypedProvider :=
  [.register 1, .const ⟨.i32, .ofI32 7, fun _ => rfl⟩, .register 0]

/-- The pool with the constant of the rotation. -/
def rotationConsts : FuncLocalConsts where
  const2idx := [(7, -1)]
  idx2const := [7]
  nextIdx := -2
  next_eq := FuncLocalConsts.singleton_next 7
  entries := FuncLocalConsts.singleton_entries 7

/-- The words that the encoder emits for it. -/
def rotationWords : List Instruction := [⟨3, .copyMany ⟨0⟩ 1 (-1)⟩, ⟨3, .register 0⟩]

/-- A frame with the constant in front of its registers. -/
def rotationLocal : Local Unit := ⟨[7, 10, 11, 12], 1, ⟨0, 0⟩, ⟨0, none, none⟩, Store.ofFuncs []⟩

lemma rotation_constsIn : ConstsIn rotationConsts rotationLocal := constsIn_singleton rfl rfl

theorem encodeCopies_simultaneous_rotation :
    CopiesAtOnce (Engine.ofCode [⟨rotationWords, [], 3⟩] []) rotationWords rotationLocal
      rotationLocal [0, 1, 2] rotation := by
  have hencode : InstrEncoder.reset.encodeCopies (Engine.ofCode (T := Unit) [] []).float 3 .reset
      ⟨⟨0⟩, 3⟩ rotation .none =
      .ok (some 0, ⟨rotationWords, ⟨[], []⟩, some 0⟩, rotationConsts) := by rfl
  have hlast : InstrEncoder.reset.CopyIsLast := by
    intro last instrOffset result value h
    simp [InstrEncoder.reset] at h
  have hregs : (⟨⟨0⟩, 3⟩ : BoundedRegSpan).iter = some [0, 1, 2] := rfl
  have hconst : ∀ reg ∈ ([0, 1, 2] : List Reg), reg.isConst = false := by
    rw [List.forall_mem_cons, List.forall_mem_cons, List.forall_mem_singleton]
    decide
  have hthere : ∀ reg ∈ ([0, 1, 2] : List Reg), (rotationLocal.read reg).isSome := by
    rw [List.forall_mem_cons, List.forall_mem_cons, List.forall_mem_singleton]
    decide
  obtain ⟨_, _, start, hstart, _, _, _, hruns⟩ :=
    encodeCopies_simultaneous hlast hregs hconst hencode
  obtain rfl : start = 0 := Nat.le_zero.1 hstart
  exact hruns _ 0 [] [] rotationConsts rotationLocal rotationLocal rfl rfl rfl (.refl _)
    rotation_constsIn hthere (by decide) rfl

end MotokoDebugger.Translator
