import MotokoDebugger.Executor.CallSite

/-!
# Where branch tables go

* `Engine.selectedTarget`: the word that a branch table selects.
* `executeOne_table`: a branch table that selects a target with an offset branches by it.
-/

namespace MotokoDebugger

open StateExcept

variable {T : Type}

/-- The word that a branch table with values selects. A table without values goes to the word. -/
def Engine.selectedTarget (env : Engine T) (l : Local T) : Op → Option InstructionPtr
  | .branchTable1 index lenTargets | .branchTable2 index lenTargets
  | .branchTable3 index lenTargets | .branchTableSpan index lenTargets =>
    (l.read index).map fun index => l.ip.add (min index.toI32.toNat (lenTargets - 1) + 2)
  | .branchTableMany index lenTargets => do
    let index ← l.read index
    let words ← env.wordsAt (l.ip.add 1)
    return l.ip.add ((← registerListLen words) + min index.toI32.toNat (lenTargets - 1) + 2)
  | _ => none

/-- The tables that copy more than three values. -/
def Op.isLongTable : Op → Bool
  | .branchTableSpan _ _ | .branchTableMany _ _ => true
  | _ => false

/-- The offset of the word at a target, as a table reads it. -/
def Op.targetOffset (long : Bool) : Op → Option BranchOffset
  | .branchTableTarget _ offset => some offset
  | .branchTableTargetNonOverlapping _ offset => if long then some offset else none
  | _ => none

namespace Executor

/-! ## Copies leave the instruction pointer alone -/

lemma keeps_ip_copyRegisters (results values : List Reg) :
    Keeps Local.ip (copyRegisters results values : LocalM T Unit) :=
  Keeps.forM (fun _ => (readOnly_getRegister _).keeps.bind fun _ => keeps_ip_setRegister _ _) _

lemma readOnly_spanRegs (span : RegSpan) (len : Nat) :
    ReadOnly (spanRegs span len : LocalM T (List Reg)) := readOnly_unwrap _

lemma readOnly_getRegisters (regs : List Reg) :
    ReadOnly (regs.mapM getRegister : LocalM T (List UntypedVal)) :=
  ReadOnly.mapM readOnly_getRegister regs

lemma keeps_ip_executeCopySpanImpl (results values : RegSpan) (len : Nat) :
    Keeps Local.ip (executeCopySpanImpl results values len : LocalM T Unit) :=
  (readOnly_spanRegs _ _).keeps.bind fun _ => (readOnly_spanRegs _ _).keeps.bind fun _ =>
    (readOnly_getRegisters _).keeps.bind fun _ => keeps_ip_setRegisters _ _

lemma keeps_ip_executeCopySpanNonOverlappingImpl (results values : RegSpan) (len : Nat) :
    Keeps Local.ip (executeCopySpanNonOverlappingImpl results values len : LocalM T Unit) :=
  (readOnly_spanRegs _ _).keeps.bind fun _ => (readOnly_spanRegs _ _).keeps.bind fun _ =>
    keeps_ip_copyRegisters _ _

lemma keeps_ip_executeCopyManyImpl (env : Engine T) (ip : InstructionPtr) (results : RegSpan)
    (values : List Reg) : Keeps Local.ip (executeCopyManyImpl env ip results values) :=
  (readOnly_registerListAt _ _).keeps.bind fun _ => (readOnly_getRegisters _).keeps.bind fun _ =>
    (readOnly_spanRegs _ _).keeps.bind fun _ => (keeps_ip_setRegisters _ _).bind fun _ =>
      Keeps.pure _

lemma keeps_ip_executeCopyManyNonOverlappingImpl (env : Engine T) (ip : InstructionPtr)
    (results : RegSpan) (values : List Reg) :
    Keeps Local.ip (executeCopyManyNonOverlappingImpl env ip results values) :=
  (readOnly_registerListAt _ _).keeps.bind fun _ => (keeps_ip_copyRegisters _ _).bind fun _ =>
    Keeps.pure _

/-! ## Targets -/

section
variable {env : Engine T} {l l' : Local T}

lemma fetchBranchTableOffset_ok {index : Reg} {lenTargets offset : Nat}
    (h : fetchBranchTableOffset index lenTargets l = .ok offset l') :
    l' = l ∧ ∃ value, l.read index = some value ∧
      offset = min value.toI32.toNat (lenTargets - 1) + 1 := by
  obtain ⟨_, l₁, hget, h⟩ := bind_eq_ok.1 h
  obtain ⟨value, l₂, hread, hpure⟩ := bind_eq_ok.1 hget
  obtain ⟨hvalue, rfl⟩ := getRegister_eq_ok.1 hread
  obtain ⟨rfl, rfl⟩ := EStateM.Result.ok.inj hpure
  obtain ⟨rfl, rfl⟩ := EStateM.Result.ok.inj h
  exact ⟨rfl, value, hvalue, rfl⟩

/-- The word at the instruction pointer. -/
lemma word_bind {α : Type} {word : Instruction} (f : Op → LocalM T α)
    (hword : env.instrAt l.ip = some word) :
    (get >>= fun l => getInstr env l.ip >>= f) l = f word.op l := by
  rw [get_bind, getInstr, hword]
  rfl

/-- Copies, then a branch. -/
lemma copyThenBranch_ok {α : Type} {x : LocalM T α} (hx : Keeps Local.ip x) {offset : BranchOffset}
    (h : (x >>= fun _ => executeBranch offset) l = .ok () l') :
    l'.ip = l.ip.offset offset.toInt := by
  obtain ⟨_, l₁, hcopy, h⟩ := bind_eq_ok.1 h
  have hip : l₁.ip = l.ip := hx.of_ok hcopy
  rw [← (EStateM.Result.ok.inj h).2, ← hip]

variable {word : Instruction} {offset : BranchOffset}

lemma branchTableResult_ok {value : UntypedVal} (hword : env.instrAt l.ip = some word)
    (hoffset : word.op.targetOffset false = some offset)
    (h : branchTableResult env value l = .ok () l') : l'.ip = l.ip.offset offset.toInt := by
  rw [branchTableResult, word_bind _ hword] at h
  cases hop : word.op with
  | branchTableTarget results offset' =>
    rw [hop] at h hoffset
    obtain rfl := Option.some.inj hoffset
    exact copyThenBranch_ok (keeps_ip_setRegister _ _) h
  | _ => simp [hop, Op.targetOffset] at hoffset

lemma branchTableTarget_ok {regs : List Reg} (hword : env.instrAt l.ip = some word)
    (hoffset : word.op.targetOffset false = some offset)
    (h : branchTableTarget env regs l = .ok () l') : l'.ip = l.ip.offset offset.toInt := by
  rw [branchTableTarget, word_bind _ hword] at h
  cases hop : word.op with
  | branchTableTarget results offset' =>
    rw [hop] at h hoffset
    obtain rfl := Option.some.inj hoffset
    obtain ⟨values, l₁, hvalues, hspan⟩ := bind_eq_ok.1 h
    rw [(readOnly_getRegisters _).of_ok hvalues] at hspan
    obtain ⟨results, l₂, hresults, hset⟩ := bind_eq_ok.1 hspan
    rw [(readOnly_spanRegs _ _).of_ok hresults] at hset
    exact copyThenBranch_ok (keeps_ip_setRegisters _ _) hset
  | _ => simp [hop, Op.targetOffset] at hoffset

/-- The start of a table. -/
lemma table_ok {index : Reg} {lenTargets : Nat} {rest : Nat → LocalM T Unit}
    (h : (fetchBranchTableOffset index lenTargets >>= fun offset =>
      nextInstr >>= fun _ => rest offset) l = .ok () l') :
    ∃ value, l.read index = some value ∧
      rest (min value.toI32.toNat (lenTargets - 1) + 1) { l with ip := l.ip.add 1 } = .ok () l' := by
  obtain ⟨n, l₁, hfetch, h⟩ := bind_eq_ok.1 h
  obtain ⟨rfl, value, hvalue, rfl⟩ := fetchBranchTableOffset_ok hfetch
  exact ⟨value, hvalue, h⟩

/-- The word that is `n + 1` words behind the parameter word. -/
lemma add_add_one (ip : InstructionPtr) (n : Nat) : (ip.add 1).add (n + 1) = ip.add (n + 2) := by
  show InstructionPtr.mk _ (ip.pc + 1 + (n + 1 : Nat)) = InstructionPtr.mk _ (ip.pc + (n + 2 : Nat))
  congr 1
  omega

/-- The word that is `n` words behind a register list. -/
lemma add_list (ip : InstructionPtr) (len n : Nat) :
    ((ip.add 1).add (len + 1)).add (n + 1 - 1) = ip.add (len + n + 2) := by
  show InstructionPtr.mk _ (ip.pc + 1 + (len + 1 : Nat) + (n + 1 - 1 : Nat)) =
    InstructionPtr.mk _ (ip.pc + (len + n + 2 : Nat))
  congr 1
  omega

/-- A table with a single parameter word that selects a target. -/
lemma shortTable_ok {index : Reg} {lenTargets : Nat} {ip : InstructionPtr}
    {rest : Nat → Op → LocalM T Unit}
    (hselected : (l.read index).map (fun index =>
      l.ip.add (min index.toI32.toNat (lenTargets - 1) + 2)) = some ip)
    (hword : env.instrAt ip = some word)
    (h : (fetchBranchTableOffset index lenTargets >>= fun offset => nextInstr >>= fun _ =>
      get >>= fun l => getInstr env l.ip >>= fun param => rest offset param) l = .ok () l')
    (hrest : ∀ n param (l₁ : Local T), rest n param l₁ = .ok () l' →
      env.instrAt (l₁.ip.add n) = some word → l'.ip = (l₁.ip.add n).offset offset.toInt) :
    l'.ip = ip.offset offset.toInt := by
  obtain ⟨value, hvalue, hparam⟩ := table_ok h
  rw [hvalue, Option.map_some] at hselected
  rw [get_bind] at hparam
  obtain ⟨param, l₁, hget, hjump⟩ := bind_eq_ok.1 hparam
  rw [(readOnly_getInstr _ _).of_ok hget] at hjump
  rw [← Option.some.inj hselected, ← add_add_one] at hword ⊢
  exact hrest _ _ _ hjump hword

variable {ip : InstructionPtr}

lemma executeBranchTable1_ok {index : Reg} {lenTargets : Nat}
    (hselected : env.selectedTarget l (.branchTable1 index lenTargets) = some ip)
    (hword : env.instrAt ip = some word) (hoffset : word.op.targetOffset false = some offset)
    (h : executeBranchTable1 env index lenTargets l = .ok () l') :
    l'.ip = ip.offset offset.toInt := by
  refine shortTable_ok hselected hword h fun n param l₁ hjump htarget => ?_
  have hvalue : ∀ {x : LocalM T UntypedVal}, ReadOnly x →
      (x >>= fun value => nextInstrAt n >>= fun _ => branchTableResult env value) l₁ = .ok () l' →
      l'.ip = (l₁.ip.add n).offset offset.toInt := by
    intro x hx h
    obtain ⟨value, l₂, hvalue, hresult⟩ := bind_eq_ok.1 h
    rw [hx.of_ok hvalue] at hresult
    exact branchTableResult_ok htarget hoffset hresult
  cases param with
  | register reg => exact hvalue (readOnly_getRegister reg) hjump
  | const32 value => exact hvalue (ReadOnly.pure _) hjump
  | i64Const32 value => exact hvalue (ReadOnly.pure _) hjump
  | f64Const32 value => exact hvalue (ReadOnly.pure _) hjump
  | _ => exact hvalue (ReadOnly.throw Stop.undefined) hjump

lemma executeBranchTable2_ok {index : Reg} {lenTargets : Nat}
    (hselected : env.selectedTarget l (.branchTable2 index lenTargets) = some ip)
    (hword : env.instrAt ip = some word) (hoffset : word.op.targetOffset false = some offset)
    (h : executeBranchTable2 env index lenTargets l = .ok () l') :
    l'.ip = ip.offset offset.toInt := by
  refine shortTable_ok hselected hword h fun n param l₁ hjump htarget => ?_
  cases param with
  | register2 reg0 reg1 => exact branchTableTarget_ok htarget hoffset hjump
  | _ => cases hjump

lemma executeBranchTable3_ok {index : Reg} {lenTargets : Nat}
    (hselected : env.selectedTarget l (.branchTable3 index lenTargets) = some ip)
    (hword : env.instrAt ip = some word) (hoffset : word.op.targetOffset false = some offset)
    (h : executeBranchTable3 env index lenTargets l = .ok () l') :
    l'.ip = ip.offset offset.toInt := by
  refine shortTable_ok hselected hword h fun n param l₁ hjump htarget => ?_
  cases param with
  | register3 reg0 reg1 reg2 => exact branchTableTarget_ok htarget hoffset hjump
  | _ => cases hjump

lemma executeBranchTableSpan_ok {index : Reg} {lenTargets : Nat}
    (hselected : env.selectedTarget l (.branchTableSpan index lenTargets) = some ip)
    (hword : env.instrAt ip = some word) (hoffset : word.op.targetOffset true = some offset)
    (h : executeBranchTableSpan env index lenTargets l = .ok () l') :
    l'.ip = ip.offset offset.toInt := by
  refine shortTable_ok hselected hword h fun n param l₁ hjump htarget => ?_
  cases param with
  | registerSpan values =>
    obtain ⟨_, l₂, hnext, hspan⟩ := bind_eq_ok.1 hjump
    obtain rfl := (EStateM.Result.ok.inj hnext).2
    have htarget' : env.instrAt ({ l₁ with ip := l₁.ip.add n } : Local T).ip = some word := htarget
    rw [word_bind _ htarget'] at hspan
    cases hop : word.op with
    | branchTableTarget results offset' =>
      rw [hop] at hspan hoffset
      obtain rfl := Option.some.inj hoffset
      exact copyThenBranch_ok (keeps_ip_executeCopySpanImpl _ _ _) hspan
    | branchTableTargetNonOverlapping results offset' =>
      rw [hop] at hspan hoffset
      obtain rfl := Option.some.inj hoffset
      exact copyThenBranch_ok (keeps_ip_executeCopySpanNonOverlappingImpl _ _ _) hspan
    | _ => simp [hop, Op.targetOffset] at hoffset
  | _ => cases hjump

/-! ## The whole machine -/

section
variable {m m' : Machine T}

/-- A local step that moves the instruction pointer. -/
lemma stepLocal_moves {α : Type} {x : LocalM T α} {a : α} (h : stepLocal x m = .ok a m')
    (hx : ∀ l', x m.toLocal = .ok a l' → l' = { m.toLocal with ip }) : m' = { m with ip } := by
  obtain ⟨l', hstep, rfl⟩ := stepLocal_eq_ok.1 h
  rw [hx l' hstep]
  exact m.withLocal_ip ip

/-- A local copy, then a branch. -/
lemma stepLocal_copyThenBranch {α : Type} {x : LocalM T α} (hx : Keeps Local.ip x)
    {offset : BranchOffset}
    (h : stepLocal (x >>= fun _ => executeBranch offset) m = .ok () m') :
    m'.ip = m.ip.offset offset.toInt := by
  obtain ⟨l', hstep, rfl⟩ := stepLocal_eq_ok.1 h
  exact copyThenBranch_ok hx hstep

/-- The word behind the register list. -/
lemma skipRegisterList_ok {ip next : InstructionPtr} {words : List Instruction} {len : Nat}
    (hwords : env.wordsAt ip = some words) (hlen : registerListLen words = some len)
    (h : skipRegisterList env ip l = .ok next l') : l' = l ∧ next = ip.add (len + 1) := by
  obtain ⟨len', l₁, hassume, hpure⟩ := bind_eq_ok.1 h
  obtain ⟨hlen', rfl⟩ := assume_eq_ok.1 hassume
  rw [hwords, Option.bind_some, hlen] at hlen'
  obtain rfl := Option.some.inj hlen'
  obtain ⟨rfl, rfl⟩ := EStateM.Result.ok.inj hpure
  exact ⟨rfl, rfl⟩

lemma executeBranchTableMany_ok {index : Reg} {lenTargets : Nat}
    (hselected : env.selectedTarget m.toLocal (.branchTableMany index lenTargets) = some ip)
    (hword : env.instrAt ip = some word) (hoffset : word.op.targetOffset true = some offset)
    (h : executeBranchTableMany env index lenTargets m = .ok () m') :
    m'.ip = ip.offset offset.toInt := by
  obtain ⟨value, hvalue, hselected⟩ := Option.bind_eq_some_iff.1 hselected
  obtain ⟨words, hwords, hselected⟩ := Option.bind_eq_some_iff.1 hselected
  obtain ⟨len, hlen, hselected⟩ := Option.bind_eq_some_iff.1 hselected
  obtain ⟨n, m₁, hfetch, h₁⟩ := bind_eq_ok.1 h
  obtain ⟨l₁, hlocal, rfl⟩ := stepLocal_eq_ok.1 hfetch
  obtain ⟨rfl, value', hvalue', rfl⟩ := fetchBranchTableOffset_ok hlocal
  obtain rfl := Option.some.inj (hvalue.symm.trans hvalue')
  rw [m.withLocal_toLocal] at h₁
  obtain ⟨_, m₂, hnext, h₂⟩ := bind_eq_ok.1 h₁
  obtain rfl := stepLocal_moves hnext fun l' h => (EStateM.Result.ok.inj h).2.symm
  rw [get_bind] at h₂
  obtain ⟨_, m₃, hskip, h₃⟩ := bind_eq_ok.1 h₂
  have hm₃ : m₃ = { ({ m with ip := m.toLocal.ip.add 1 } : Machine T) with ip } := by
    refine stepLocal_moves hskip fun l' h => ?_
    obtain ⟨next, l₂, hlist, hmodify⟩ := bind_eq_ok.1 h
    obtain ⟨rfl, rfl⟩ := skipRegisterList_ok hwords hlen hlist
    rw [← (EStateM.Result.ok.inj hmodify).2, ← Option.some.inj hselected, ← add_list]
  subst hm₃
  obtain ⟨op, m₄, hget, h₄⟩ := bind_eq_ok.1 h₃
  obtain ⟨l₄, hop, rfl⟩ := stepLocal_eq_ok.1 hget
  rw [get_bind] at hop
  obtain ⟨hread, rfl⟩ := assume_eq_ok.1 hop
  obtain rfl : word.op = op := Option.some.inj ((congrArg _ hword).symm.trans hread)
  rw [Machine.withLocal_toLocal] at h₄
  cases hkind : word.op with
  | branchTableTarget results offset' =>
    rw [hkind] at h₄ hoffset
    obtain rfl := Option.some.inj hoffset
    exact stepLocal_copyThenBranch (keeps_ip_executeCopyManyImpl _ _ _ _) h₄
  | branchTableTargetNonOverlapping results offset' =>
    rw [hkind] at h₄ hoffset
    obtain rfl := Option.some.inj hoffset
    exact stepLocal_copyThenBranch (keeps_ip_executeCopyManyNonOverlappingImpl _ _ _ _) h₄
  | _ => simp [hkind, Op.targetOffset] at hoffset

lemma executeOne_eq {instr : Instruction} (hinstr : env.instrAt m.ip = some instr) :
    executeOne env m = executeOp env instr.op m := by
  have hfetch : fetch env m = .ok instr m := by
    rw [fetch, get_bind, hinstr]
    rfl
  rw [executeOne, bind_ok hfetch]

/-- A local instruction goes on where its step on the local state does. -/
lemma localTable_ok {x : LocalM T Unit} {flow : ControlFlow}
    (h : continuing (stepLocal x) m = .ok flow m')
    (hx : ∀ l', x m.toLocal = .ok () l' → l'.ip = ip) : m'.ip = ip := by
  obtain ⟨_, m₁, htable, hflow⟩ := bind_eq_ok.1 h
  obtain rfl := (EStateM.Result.ok.inj hflow).2
  obtain ⟨l', hlocal, rfl⟩ := stepLocal_eq_ok.1 htable
  exact hx l' hlocal

/-- A branch table that selects a target with an offset branches by it. -/
lemma executeOne_table {instr : Instruction} {flow : ControlFlow}
    (hinstr : env.instrAt m.ip = some instr)
    (hselected : env.selectedTarget m.toLocal instr.op = some ip)
    (hword : env.instrAt ip = some word)
    (hoffset : word.op.targetOffset instr.op.isLongTable = some offset)
    (h : executeOne env m = .ok flow m') : m'.ip = ip.offset offset.toInt := by
  rw [executeOne_eq hinstr] at h
  cases hop : instr.op with
  | branchTable1 index lenTargets =>
    rw [hop] at h hselected hoffset
    exact localTable_ok h fun l' hlocal => executeBranchTable1_ok hselected hword hoffset hlocal
  | branchTable2 index lenTargets =>
    rw [hop] at h hselected hoffset
    exact localTable_ok h fun l' hlocal => executeBranchTable2_ok hselected hword hoffset hlocal
  | branchTable3 index lenTargets =>
    rw [hop] at h hselected hoffset
    exact localTable_ok h fun l' hlocal => executeBranchTable3_ok hselected hword hoffset hlocal
  | branchTableSpan index lenTargets =>
    rw [hop] at h hselected hoffset
    exact localTable_ok h fun l' hlocal => executeBranchTableSpan_ok hselected hword hoffset hlocal
  | branchTableMany index lenTargets =>
    rw [hop] at h hselected hoffset
    obtain ⟨_, m₁, htable, hflow⟩ := bind_eq_ok.1 h
    obtain rfl := (EStateM.Result.ok.inj hflow).2
    exact executeBranchTableMany_ok hselected hword hoffset htable
  | _ => simp [hop, Engine.selectedTarget] at hselected

end

end

end Executor

end MotokoDebugger
