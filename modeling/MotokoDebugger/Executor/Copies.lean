import MotokoDebugger.Executor.Instrs
import MotokoDebugger.Lib.Int16
import MotokoDebugger.Lib.ParallelMoves
import MotokoDebugger.Lib.Runs

/-!
# What the copy instructions do

The copy instructions as parallel moves between the registers of a frame.

* `LocalStep`: an instruction that neither calls nor returns, at the instruction pointer.
* `Moved`: only registers and the instruction pointer have changed.
* `copyStep_copySpan`, `copyStep_copyMany` and so on: each copy instruction is a parallel move; those
  without a buffer are if no copy reads what an earlier one has written.
-/

namespace MotokoDebugger

open StateExcept ParallelMoves

variable {T : Type}

/-- A step of the loop on an instruction that neither calls nor returns. -/
def LocalStep (env : Engine T) (l l' : Local T) : Prop :=
  ∃ instr, env.instrAt l.ip = some instr ∧ Executor.executeLocal env instr.op l = .ok () l'

namespace Local

variable {l l' l'' : Local T}

/-- `l'` is `l` with the registers `f`. -/
structure Moved (l l' : Local T) (f : Reg → Option UntypedVal) : Prop where
  read : l'.read = f
  base : l'.base = l.base
  length : l'.cells.length = l.cells.length
  cache : l'.cache = l.cache
  store : l'.store = l.store

lemma Moved.refl (l : Local T) : Moved l l l.read := ⟨rfl, rfl, rfl, rfl, rfl⟩

lemma Moved.trans {f g : Reg → Option UntypedVal} (h : Moved l l' f) (h' : Moved l' l'' g) :
    Moved l l'' g :=
  ⟨h'.read, h'.base.trans h.base, h'.length.trans h.length, h'.cache.trans h.cache,
    h'.store.trans h.store⟩

/-- The instruction pointer is no register. -/
lemma Moved.setIp {f : Reg → Option UntypedVal} (h : Moved l l' f) (ip : InstructionPtr) :
    Moved l { l' with ip } f :=
  ⟨h.read, h.base, h.length, h.cache, h.store⟩

lemma read_isSome {reg : Reg} : (l.read reg).isSome ↔ (l.index reg).isSome := by
  unfold read index
  dsimp only
  split
  case isTrue h => simp [h.2]
  case isFalse => simp

lemma index_inj {reg reg' : Reg} {i : Nat} (h : l.index reg = some i) (h' : l.index reg' = some i) :
    reg = reg' := by
  unfold index at h h'
  dsimp only at h h'
  split at h
  case isFalse => simp at h
  case isTrue hreg =>
    split at h'
    case isFalse => simp at h'
    case isTrue hreg' =>
      have heq := (Option.some.inj h).trans (Option.some.inj h').symm
      apply Int16.toInt_inj.1
      omega

/-- A write changes the register and nothing else. -/
lemma write_moved {reg : Reg} (value : UntypedVal) (h : (l.read reg).isSome) :
    ∃ l', l.write reg value = some l' ∧ l'.ip = l.ip ∧
      Moved l l' (Function.update l.read reg (some value)) := by
  obtain ⟨i, hi⟩ := Option.isSome_iff_exists.1 (read_isSome.1 h)
  refine ⟨{ l with cells := l.cells.set i value }, by rw [write, hi]; rfl, rfl, ?_, rfl,
    List.length_set, rfl, rfl⟩
  funext reg'
  have hindex : ({ l with cells := l.cells.set i value } : Local T).index reg' = l.index reg' := by
    simp only [index, List.length_set]
  rw [read, hindex]
  by_cases heq : reg' = reg
  · rw [heq, Function.update_self, hi]
    have hlt : i < l.cells.length := by
      by_contra hge
      rw [read, hi, Option.bind_some, List.getElem?_eq_none (Nat.le_of_not_lt hge)] at h
      simp at h
    exact List.getElem?_set_self hlt
  · rw [Function.update_of_ne heq, read]
    cases hindex' : l.index reg' with
    | none => rfl
    | some j =>
      refine List.getElem?_set_ne fun hij => heq ?_
      rw [hij] at hi
      exact index_inj hindex' hi

end Local

namespace Executor

open Local

variable {l : Local T}

lemma setRegister_moved {reg : Reg} (value : UntypedVal) (h : (l.read reg).isSome) :
    ∃ l', setRegister reg value l = .ok () l' ∧ l'.ip = l.ip ∧
      Moved l l' (Function.update l.read reg (some value)) := by
  obtain ⟨l', hwrite, hmoved⟩ := write_moved value h
  refine ⟨l', ?_, hmoved⟩
  show (assume (l.write reg value) >>= fun s => set s) l = _
  rw [hwrite]
  rfl

/-- A register that is there stays there. -/
lemma isSome_update {f : Reg → Option UntypedVal} {reg reg' : Reg} {value : UntypedVal}
    (h : (f reg).isSome) : (Function.update f reg' (some value) reg).isSome := by
  by_cases heq : reg = reg'
  · rw [heq, Function.update_self]
    rfl
  · rwa [Function.update_of_ne heq]

lemma setRegisters_moved {regs : List Reg} (values : List UntypedVal)
    (h : ∀ reg ∈ regs, (l.read reg).isSome) :
    ∃ l', setRegisters regs values l = .ok () l' ∧ l'.ip = l.ip ∧
      Moved l l' (assign l.read (regs.zip (values.map some))) := by
  induction regs generalizing l values with
  | nil => exact ⟨l, rfl, rfl, Moved.refl l⟩
  | cons reg regs ih =>
    cases values with
    | nil => exact ⟨l, rfl, rfl, Moved.refl l⟩
    | cons value values =>
      obtain ⟨l₁, hset, hip, hmoved⟩ := setRegister_moved value (h reg List.mem_cons_self)
      have hthere : ∀ reg ∈ regs, (l₁.read reg).isSome := by
        intro reg' hreg'
        rw [hmoved.read]
        exact isSome_update (h reg' (List.mem_cons_of_mem _ hreg'))
      obtain ⟨l₂, hrest, hip', hmoved'⟩ := ih values hthere
      refine ⟨l₂, ?_, hip'.trans hip, ?_⟩
      · show (setRegister reg value >>= fun _ => setRegisters regs values) l = _
        rw [bind_ok hset, hrest]
      · rw [hmoved.read] at hmoved'
        exact hmoved.trans hmoved'

lemma copyRegisters_moved {results values : List Reg}
    (hresults : ∀ reg ∈ results, (l.read reg).isSome)
    (hvalues : ∀ reg ∈ values, (l.read reg).isSome) :
    ∃ l', copyRegisters results values l = .ok () l' ∧ l'.ip = l.ip ∧
      Moved l l' (sequential l.read (results.zip values)) := by
  induction results generalizing l values with
  | nil => exact ⟨l, rfl, rfl, Moved.refl l⟩
  | cons result results ih =>
    cases values with
    | nil => exact ⟨l, rfl, rfl, Moved.refl l⟩
    | cons value values =>
      obtain ⟨v, hv⟩ := Option.isSome_iff_exists.1 (hvalues value List.mem_cons_self)
      obtain ⟨l₁, hset, hip, hmoved⟩ :=
        setRegister_moved v (hresults result List.mem_cons_self)
      have hthere : ∀ reg, (l.read reg).isSome → (l₁.read reg).isSome := by
        intro reg hreg
        rw [hmoved.read]
        exact isSome_update hreg
      obtain ⟨l₂, hrest, hip', hmoved'⟩ := ih
        (fun reg hreg => hthere reg (hresults reg (List.mem_cons_of_mem _ hreg)))
        (fun reg hreg => hthere reg (hvalues reg (List.mem_cons_of_mem _ hreg)))
      refine ⟨l₂, ?_, hip'.trans hip, ?_⟩
      · show ((getRegister value >>= fun v => setRegister result v) >>= fun _ =>
          copyRegisters results values) l = _
        have hget : getRegister value l = .ok v l := getRegister_eq_ok.2 ⟨hv, rfl⟩
        rw [bind_ok (by rw [bind_ok hget, hset]), hrest]
      · rw [hmoved.read, ← hv] at hmoved'
        exact hmoved.trans hmoved'

/-! ## Reading several registers -/

lemma getRegisters_ok {regs : List Reg} (h : ∀ reg ∈ regs, (l.read reg).isSome) :
    ∃ values, regs.mapM getRegister l = .ok values l ∧ values.map some = regs.map l.read := by
  induction regs with
  | nil => exact ⟨[], rfl, rfl⟩
  | cons reg regs ih =>
    obtain ⟨value, hvalue⟩ := Option.isSome_iff_exists.1 (h reg List.mem_cons_self)
    obtain ⟨values, hmapM, hvalues⟩ := ih fun reg hreg => h reg (List.mem_cons_of_mem _ hreg)
    have hget : getRegister reg l = .ok value l := getRegister_eq_ok.2 ⟨hvalue, rfl⟩
    refine ⟨value :: values, ?_, ?_⟩
    · rw [List.mapM_cons, bind_ok hget, bind_ok hmapM]
      rfl
    · rw [List.map_cons, List.map_cons, hvalues, hvalue]

lemma zip_read {f : Reg → Option UntypedVal} (results values : List Reg) :
    results.zip (values.map f) = (results.zip values).map fun move => (move.1, f move.2) := by
  rw [List.zip_map_right]
  rfl

/-- Reads all registers, then writes them. -/
lemma readWrite_moved {results values : List Reg} (hresults : ∀ reg ∈ results, (l.read reg).isSome)
    (hvalues : ∀ reg ∈ values, (l.read reg).isSome) :
    ∃ tmp l', values.mapM getRegister l = .ok tmp l ∧ tmp.length = values.length ∧
      setRegisters results tmp l = .ok () l' ∧ l'.ip = l.ip ∧
      Moved l l' (parallel l.read (results.zip values)) := by
  obtain ⟨tmp, hmapM, htmp⟩ := getRegisters_ok hvalues
  obtain ⟨l', hset, hip, hmoved⟩ := setRegisters_moved tmp hresults
  refine ⟨tmp, l', hmapM, mapM_length hmapM, hset, hip, ?_⟩
  rwa [htmp, zip_read] at hmoved

/-! ## The instructions -/

/-- The effect of a copy instruction that is at the instruction pointer: it ends in front of the
instruction word `skip` words on. -/
def CopyStep (env : Engine T) (op : Op) (l : Local T) (skip : Nat) (moves : List (Reg × Reg)) :
    Prop :=
  ∃ l', executeLocal env op l = .ok () l' ∧ l'.ip = l.ip.add skip ∧
    Moved l l' (parallel l.read moves)

variable {env : Engine T}

lemma copyStep_copy {result value : Reg} (hresult : (l.read result).isSome)
    (hvalue : (l.read value).isSome) :
    CopyStep env (.copy result value) l 1 [(result, value)] := by
  obtain ⟨v, hv⟩ := Option.isSome_iff_exists.1 hvalue
  obtain ⟨l', hset, hip, hmoved⟩ := setRegister_moved v hresult
  have hget : getRegister value l = .ok v l := getRegister_eq_ok.2 ⟨hv, rfl⟩
  refine ⟨{ l' with ip := l'.ip.add 1 }, ?_, by rw [hip], ?_⟩
  · show executeCopy result value l = _
    rw [executeCopy, bind_ok hget, bind_ok hset]
    rfl
  · rw [← hv] at hmoved
    exact hmoved.setIp _

/-- A write that returns was to a register of the frame. -/
lemma setRegister_ok {reg : Reg} {value : UntypedVal} {l' : Local T}
    (h : setRegister reg value l = .ok () l') :
    (l.read reg).isSome ∧ l'.ip = l.ip ∧ Moved l l' (Function.update l.read reg (some value)) := by
  have hthere : (l.read reg).isSome := by
    rw [setRegister, StateExcept.get_bind, StateExcept.bind_eq_ok] at h
    obtain ⟨l₁, l₂, hwrite, _⟩ := h
    obtain ⟨hwrite, _⟩ := assume_eq_ok.1 hwrite
    obtain ⟨i, hi, _⟩ := Option.map_eq_some_iff.1 hwrite
    exact read_isSome.2 (by rw [hi]; rfl)
  obtain ⟨l₁, hset, hip, hmoved⟩ := setRegister_moved value hthere
  obtain rfl : l₁ = l' := (EStateM.Result.ok.inj (hset.symm.trans h)).2
  exact ⟨hthere, hip, hmoved⟩

/-- A copy that returns has read and written registers of the frame. -/
lemma executeCopy_ok {result value : Reg} {l' : Local T} (h : executeCopy result value l = .ok () l') :
    (l.read result).isSome ∧ (l.read value).isSome := by
  rw [executeCopy, StateExcept.bind_eq_ok] at h
  obtain ⟨v, l₁, hget, h⟩ := h
  obtain ⟨hread, rfl⟩ := getRegister_eq_ok.1 hget
  obtain ⟨_, l₂, hset, _⟩ := StateExcept.bind_eq_ok.1 h
  exact ⟨(setRegister_ok hset).1, by rw [hread]; rfl⟩

lemma executeCopyImm_moved {result : Reg} {value : UntypedVal} (hresult : (l.read result).isSome) :
    ∃ l', executeCopyImm result value l = .ok () l' ∧ l'.ip = l.ip.add 1 ∧
      Moved l l' (Function.update l.read result (some value)) := by
  obtain ⟨l', hset, hip, hmoved⟩ := setRegister_moved value hresult
  refine ⟨{ l' with ip := l'.ip.add 1 }, ?_, by rw [hip], hmoved.setIp _⟩
  rw [executeCopyImm, bind_ok hset]
  rfl

lemma copyStep_copy2 {results : RegSpan} {value0 value1 : Reg}
    (hresults : ∀ reg ∈ [results.head, results.head.next], (l.read reg).isSome)
    (hvalues : ∀ reg ∈ [value0, value1], (l.read reg).isSome) :
    CopyStep env (.copy2 results value0 value1) l 1
      [(results.head, value0), (results.head.next, value1)] := by
  obtain ⟨v0, hv0⟩ := Option.isSome_iff_exists.1 (hvalues value0 (by simp))
  obtain ⟨v1, hv1⟩ := Option.isSome_iff_exists.1 (hvalues value1 (by simp))
  have hget0 : getRegister value0 l = .ok v0 l := getRegister_eq_ok.2 ⟨hv0, rfl⟩
  have hget1 : getRegister value1 l = .ok v1 l := getRegister_eq_ok.2 ⟨hv1, rfl⟩
  obtain ⟨l₁, hset0, hip0, hmoved0⟩ :=
    setRegister_moved v0 (hresults results.head (by simp))
  have hthere : (l₁.read results.head.next).isSome := by
    rw [hmoved0.read]
    exact isSome_update (hresults results.head.next (by simp))
  obtain ⟨l₂, hset1, hip1, hmoved1⟩ := setRegister_moved v1 hthere
  refine ⟨{ l₂ with ip := l₂.ip.add 1 }, ?_, by rw [hip1, hip0], ?_⟩
  · show executeCopy2 results value0 value1 l = _
    rw [executeCopy2, bind_ok hget1, bind_ok hget0, bind_ok hset0, bind_ok hset1]
    rfl
  · rw [hmoved0.read, ← hv0, ← hv1] at hmoved1
    exact (hmoved0.trans hmoved1).setIp _

lemma spanRegs_ok {span : RegSpan} {len : Nat} {regs : List Reg} (h : span.iter len = some regs) :
    spanRegs span len l = .ok regs l := by
  rw [spanRegs, h]
  rfl

lemma copyStep_copySpan {results values : RegSpan} {len : Nat} {resultRegs valueRegs : List Reg}
    (hresultRegs : results.iter len = some resultRegs)
    (hvalueRegs : values.iter len = some valueRegs)
    (hresults : ∀ reg ∈ resultRegs, (l.read reg).isSome)
    (hvalues : ∀ reg ∈ valueRegs, (l.read reg).isSome) :
    CopyStep env (.copySpan results values len) l 1 (resultRegs.zip valueRegs) := by
  obtain ⟨tmp, l', hmapM, _, hset, hip, hmoved⟩ := readWrite_moved hresults hvalues
  refine ⟨{ l' with ip := l'.ip.add 1 }, ?_, by rw [hip], hmoved.setIp _⟩
  show (executeCopySpanImpl results values len >>= fun _ => nextInstr) l = _
  have hcopy : executeCopySpanImpl results values len l = .ok () l' := by
    rw [executeCopySpanImpl, bind_ok (spanRegs_ok hresultRegs), bind_ok (spanRegs_ok hvalueRegs),
      bind_ok hmapM, hset]
  rw [bind_ok hcopy]
  rfl

lemma copyStep_copySpanNonOverlapping {results values : RegSpan} {len : Nat}
    {resultRegs valueRegs : List Reg} (hresultRegs : results.iter len = some resultRegs)
    (hvalueRegs : values.iter len = some valueRegs)
    (hresults : ∀ reg ∈ resultRegs, (l.read reg).isSome)
    (hvalues : ∀ reg ∈ valueRegs, (l.read reg).isSome)
    (hreads : ReadsFirst (resultRegs.zip valueRegs)) :
    CopyStep env (.copySpanNonOverlapping results values len) l 1 (resultRegs.zip valueRegs) := by
  obtain ⟨l', hcopy, hip, hmoved⟩ := copyRegisters_moved hresults hvalues
  rw [sequential_eq_parallel hreads] at hmoved
  refine ⟨{ l' with ip := l'.ip.add 1 }, ?_, by rw [hip], hmoved.setIp _⟩
  show (executeCopySpanNonOverlappingImpl results values len >>= fun _ => nextInstr) l = _
  have hcopy' : executeCopySpanNonOverlappingImpl results values len l = .ok () l' := by
    rw [executeCopySpanNonOverlappingImpl, bind_ok (spanRegs_ok hresultRegs),
      bind_ok (spanRegs_ok hvalueRegs), hcopy]
  rw [bind_ok hcopy']
  rfl

lemma registerListAt_ok {ip : InstructionPtr} {words : List Instruction} {regs : List Reg}
    {len : Nat} (hwords : env.wordsAt ip = some words)
    (hlist : registerList words = some (regs, len)) :
    registerListAt env ip l = .ok (regs, ip.add len) l := by
  rw [registerListAt, hwords, Option.bind_some, hlist]
  rfl

/-- The list of the copied registers is behind the instruction; the finalizer is the last word. -/
lemma copyStep_copyMany {results : RegSpan} {value0 value1 : Reg} {words : List Instruction}
    {regs resultRegs : List Reg} {len : Nat} (hwords : env.wordsAt (l.ip.add 1) = some words)
    (hlist : registerList words = some (regs, len))
    (hresultRegs : results.iter (regs.length + 2) = some resultRegs)
    (hresults : ∀ reg ∈ resultRegs, (l.read reg).isSome)
    (hvalues : ∀ reg ∈ value0 :: value1 :: regs, (l.read reg).isSome) :
    CopyStep env (.copyMany results value0 value1) l (len + 2)
      (resultRegs.zip (value0 :: value1 :: regs)) := by
  have hresults' : ∀ reg ∈ resultRegs,
      (({ l with ip := l.ip.add 1 } : Local T).read reg).isSome := hresults
  have hvalues' : ∀ reg ∈ value0 :: value1 :: regs,
      (({ l with ip := l.ip.add 1 } : Local T).read reg).isSome := hvalues
  obtain ⟨tmp, l', hmapM, hlen, hset, _, hmoved⟩ := readWrite_moved hresults' hvalues'
  have hcopy : executeCopyManyImpl env (l.ip.add 1) results [value0, value1]
      { l with ip := l.ip.add 1 } = .ok ((l.ip.add 1).add len) l' := by
    have hspan : results.iter tmp.length = some resultRegs := by
      rw [hlen]
      exact hresultRegs
    rw [executeCopyManyImpl, bind_ok (registerListAt_ok hwords hlist)]
    show (List.mapM getRegister (value0 :: value1 :: regs) >>= _) _ = _
    rw [bind_ok hmapM, bind_ok (spanRegs_ok hspan), bind_ok hset]
    rfl
  refine ⟨{ l' with ip := ((l.ip.add 1).add len).add 1 }, ?_, ?_, ?_⟩
  · show executeCopyMany env results value0 value1 executeCopyManyImpl l = _
    show (executeCopyManyImpl env (l.ip.add 1) results [value0, value1] >>= _)
      { l with ip := l.ip.add 1 } = _
    rw [bind_ok hcopy]
    rfl
  · show InstructionPtr.mk _ (l.ip.pc + 1 + len + 1) = InstructionPtr.mk _ (l.ip.pc + (len + 2 : Nat))
    congr 1
    omega
  · exact ⟨hmoved.read, hmoved.base, hmoved.length, hmoved.cache, hmoved.store⟩

lemma copyStep_copyManyNonOverlapping {results : RegSpan} {value0 value1 : Reg}
    {words : List Instruction} {regs : List Reg} {len : Nat}
    (hwords : env.wordsAt (l.ip.add 1) = some words)
    (hlist : registerList words = some (regs, len))
    (hresults : ∀ reg ∈ (List.range (regs.length + 2)).map results.head.nextN, (l.read reg).isSome)
    (hvalues : ∀ reg ∈ value0 :: value1 :: regs, (l.read reg).isSome)
    (hreads : ReadsFirst (((List.range (regs.length + 2)).map results.head.nextN).zip
      (value0 :: value1 :: regs))) :
    CopyStep env (.copyManyNonOverlapping results value0 value1) l (len + 2)
      (((List.range (regs.length + 2)).map results.head.nextN).zip (value0 :: value1 :: regs)) := by
  have hresults' : ∀ reg ∈ (List.range (regs.length + 2)).map results.head.nextN,
      (({ l with ip := l.ip.add 1 } : Local T).read reg).isSome := hresults
  have hvalues' : ∀ reg ∈ value0 :: value1 :: regs,
      (({ l with ip := l.ip.add 1 } : Local T).read reg).isSome := hvalues
  obtain ⟨l', hset, _, hmoved⟩ := copyRegisters_moved hresults' hvalues'
  rw [sequential_eq_parallel hreads] at hmoved
  have hcopy : executeCopyManyNonOverlappingImpl env (l.ip.add 1) results [value0, value1]
      { l with ip := l.ip.add 1 } = .ok ((l.ip.add 1).add len) l' := by
    rw [executeCopyManyNonOverlappingImpl, bind_ok (registerListAt_ok hwords hlist)]
    show (copyRegisters ((List.range (regs.length + 2)).map results.head.nextN)
      (value0 :: value1 :: regs) >>= _) _ = _
    rw [bind_ok hset]
    rfl
  refine ⟨{ l' with ip := ((l.ip.add 1).add len).add 1 }, ?_, ?_, ?_⟩
  · show (executeCopyManyNonOverlappingImpl env (l.ip.add 1) results [value0, value1] >>= _)
      { l with ip := l.ip.add 1 } = _
    rw [bind_ok hcopy]
    rfl
  · show InstructionPtr.mk _ (l.ip.pc + 1 + len + 1) = InstructionPtr.mk _ (l.ip.pc + (len + 2 : Nat))
    congr 1
    omega
  · exact ⟨hmoved.read, hmoved.base, hmoved.length, hmoved.cache, hmoved.store⟩

end Executor

end MotokoDebugger
