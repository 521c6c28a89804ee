import MotokoDebugger.Executor.BranchTables
import MotokoDebugger.Translator.Defragment
import MotokoDebugger.Translator.EmissionRuns

/-!
# Where the branches of a function go

The end of a translation, which renames registers and fills in the offsets to the labels, and where
the branches of the translated function go.

* `Emission.finish`: the end of a translation.
* `finish_words`: the words of the branches after it.
* `BranchKind.GoesTo`: a branch goes to its label on its condition.
-/

namespace MotokoDebugger.Translator

open Fallible Executor

/-! ## Renamed registers -/

namespace BranchCond

def mapReg (f : Reg → Reg) : BranchCond → BranchCond
  | .regs cmp lhs rhs => .regs cmp (f lhs) (f rhs)
  | .imm cmp lhs rhs => .imm cmp (f lhs) rhs

end BranchCond

namespace BranchKind

def mapReg (f : Reg → Reg) : BranchKind → BranchKind
  | .always => .always
  | .cond condition => .cond (condition.mapReg f)
  | .target results => .target (results.mapHead f)
  | .targetNonOverlapping results => .targetNonOverlapping (results.mapHead f)

/-- The branch at `i` after `defrag_registers`, which renames from the first preservation on. -/
def defrag (f : Reg → Reg) (notifiedPreservation : Option Nat) (i : Nat) (kind : BranchKind) :
    BranchKind :=
  match notifiedPreservation with
  | none => kind
  | some preserved => if i < preserved then kind else kind.mapReg f

end BranchKind

section
variable {consts : FuncLocalConsts} {f : Reg → Reg} {offset : BranchOffset} {op : Op}

lemma isConst_of_get {reg : Reg} {value : UntypedVal} (h : consts.get reg = some value) :
    reg.isConst = true := by
  unfold FuncLocalConsts.get at h
  split at h
  case isTrue hconst => exact hconst
  case isFalse => simp at h

lemma Branches.visit {cond : BranchCond} (hf : ∀ reg : Reg, reg.isConst = true → f reg = reg)
    (h : Branches consts cond offset op) :
    Branches consts (cond.mapReg f) offset (op.visitInputRegisters f) := by
  unfold Branches at h ⊢
  split at h
  case h_1 offset16 _ =>
    rw [h]
    cases cond <;> rfl
  case h_2 =>
    obtain ⟨rhs, params, rfl, hparams, hrhs⟩ := h
    have hcmp : (cond.mapReg f).comparator = cond.comparator := by
      cases cond <;> rfl
    have hlhs : (cond.mapReg f).lhs = f cond.lhs := by
      cases cond <;> rfl
    refine ⟨f rhs, params, ?_, by rw [hcmp, hparams], ?_⟩
    · show Op.branchCmpFallback (f cond.lhs) (f rhs) (f params) = _
      rw [hlhs, hf params (isConst_of_get hparams)]
    · cases cond with
      | regs cmp lhs rhs' => exact congrArg f hrhs
      | imm cmp lhs rhs' =>
        show consts.get (f rhs) = _
        rw [hf rhs (isConst_of_get hrhs)]
        exact hrhs

lemma BranchKind.Word.visit {kind : BranchKind}
    (hf : ∀ reg : Reg, reg.isConst = true → f reg = reg) (h : kind.Word consts offset op) :
    (kind.mapReg f).Word consts offset (op.visitInputRegisters f) := by
  cases kind with
  | cond condition => exact Branches.visit hf h
  | _ => rw [h]; rfl

lemma isBranch_visit : (op.visitInputRegisters f).isBranch = op.isBranch := by
  cases op <;> rfl

/-- The renaming leaves the constants alone, unless 2^15 registers are preserved at a time. -/
lemma defragRegister_isConst {σ : Type} {alloc final : RegisterAlloc σ}
    (hpreserve : -1 ≤ alloc.minPreserve) (hfinal : alloc.finalizeAlloc = .ok final)
    (hf : ∀ reg, final.defragRegister reg = .ok (f reg)) (reg : Reg)
    (hreg : reg.isConst = true) : f reg = reg := by
  have hneg := Int16.lt_iff_toInt_lt.1 (of_decide_eq_true hreg)
  have hmin := Int16.le_iff_toInt_le.1 hpreserve
  have hzero : (0 : Int16).toInt = 0 := rfl
  have hone : (-1 : Int16).toInt = -1 := rfl
  have hmoved := hf reg
  rw [RegisterAlloc.defragRegister_finalize hfinal, if_neg (by omega)] at hmoved
  exact (Except.ok.inj hmoved).symm

/-- The words after `defrag_registers`. -/
lemma defragRegisters_word {enc : InstrEncoder} (f : Reg → Reg) (notifiedPreservation : Option Nat)
    {i : Nat} {word : Instruction} (hword : enc.instrs[i]? = some word) :
    ∃ word', (enc.defragRegisters f notifiedPreservation).instrs[i]? = some word' ∧
      word'.op.isBranch = word.op.isBranch ∧
      ∀ {consts : FuncLocalConsts} {offset : BranchOffset} {kind : BranchKind},
        (∀ reg : Reg, reg.isConst = true → f reg = reg) → kind.Word consts offset word.op →
        (kind.defrag f notifiedPreservation i).Word consts offset word'.op := by
  cases notifiedPreservation with
  | none => exact ⟨word, hword, rfl, fun _ h => h⟩
  | some preserved =>
    have hword' : (enc.defragRegisters f (some preserved)).instrs[i]? = some (if i < preserved then
        word else ⟨word.instrOffset, word.op.visitInputRegisters f⟩) := by
      show (enc.instrs.mapIdx _)[i]? = _
      rw [List.getElem?_mapIdx, hword]
      rfl
    refine ⟨_, hword', ?_, fun hf h => ?_⟩
    · split
      · rfl
      · exact isBranch_visit
    · unfold BranchKind.defrag
      dsimp only
      split
      · exact h
      · exact h.visit hf

end

/-! ## The offsets -/

section
variable {consts consts' : FuncLocalConsts} {instr word : Instruction} {offset : BranchOffset}

lemma updateBranchOffset_extends (h : updateBranchOffset consts instr offset = .ok (word, consts')) :
    consts.Extends consts' := by
  unfold updateBranchOffset at h
  split at h
  case h_4 cmp lhs rhs _ _ =>
    obtain ⟨_, _, h⟩ := bind_eq_ok.1 h
    exact (branchCmp_ok h).1
  case h_5 cmp lhs rhs _ _ =>
    obtain ⟨_, _, h⟩ := bind_eq_ok.1 h
    exact (branchCmpImm_ok h).1
  case h_6 => simp at h
  all_goals
    obtain ⟨_, _, h⟩ := bind_eq_ok.1 h
    obtain ⟨_, rfl⟩ := Prod.mk.inj (Except.ok.inj h)
    exact .refl consts

/-- The branch keeps its kind. -/
lemma updateBranchOffset_word {kind : BranchKind} (hkind : kind.Word consts .uninit instr.op)
    (h : updateBranchOffset consts instr offset = .ok (word, consts')) :
    kind.Word consts' offset word.op := by
  cases kind with
  | cond condition => exact (updateBranchOffset_cond hkind h).2
  | _ =>
    unfold updateBranchOffset at h
    rw [show instr.op = _ from hkind] at h
    obtain ⟨_, _, h⟩ := bind_eq_ok.1 h
    obtain ⟨rfl, _⟩ := Prod.mk.inj (Except.ok.inj h)
    rfl

lemma resolveUser_ok {labels : LabelRegistry} {user : LabelUser}
    (h : labels.resolveUser user = .ok offset) :
    ∃ target, labels.labels[user.label]? = some (Label.pinned target) ∧
      fromSrcToDst user.user target = .ok offset := by
  unfold LabelRegistry.resolveUser at h
  split at h
  case h_1 target hlabel => exact ⟨target, hlabel, h⟩
  case h_2 => simp at h

/-- Every user gets its offset, and all other words stay. -/
lemma updateUsers_ok {labels : LabelRegistry} {users : List LabelUser}
    {instrs instrs' : List Instruction} (hnodup : (users.map (·.user)).Nodup)
    (h : updateUsers labels consts users instrs = .ok (instrs', consts')) :
    consts.Extends consts' ∧ (∀ i, i ∉ users.map (·.user) → instrs'[i]? = instrs[i]?) ∧
      ∀ user ∈ users, ∃ target offset word word', instrs[user.user]? = some word ∧
        labels.labels[user.label]? = some (Label.pinned target) ∧
        fromSrcToDst user.user target = .ok offset ∧ instrs'[user.user]? = some word' ∧
        ∀ {kind : BranchKind}, kind.Word consts .uninit word.op →
          kind.Word consts' offset word'.op := by
  induction users generalizing consts instrs with
  | nil =>
    obtain ⟨rfl, rfl⟩ := Prod.mk.inj (Except.ok.inj h)
    exact ⟨.refl consts, fun _ _ => rfl, by simp⟩
  | cons user users ih =>
    obtain ⟨hnot, hnodup⟩ := List.nodup_cons.1 hnodup
    obtain ⟨offset, hresolve, h⟩ := bind_eq_ok.1 h
    obtain ⟨target, hlabel, hoffset⟩ := resolveUser_ok hresolve
    cases hword : instrs[user.user]? with
    | none =>
      rw [hword] at h
      simp at h
    | some word =>
      rw [hword] at h
      obtain ⟨⟨word', consts₁⟩, hupdate, h⟩ := bind_eq_ok.1 h
      obtain ⟨hext, hother, husers⟩ := ih hnodup h
      have hext₁ := updateBranchOffset_extends hupdate
      have hlt := (List.getElem?_eq_some_iff.1 hword).1
      refine ⟨hext₁.trans hext, fun i hi => ?_, fun user' huser' => ?_⟩
      · rw [List.map_cons, List.mem_cons, not_or] at hi
        rw [hother i hi.2, List.getElem?_set_ne (Ne.symm hi.1)]
      · obtain rfl | huser' := List.mem_cons.1 huser'
        · refine ⟨target, offset, word, word', hword, hlabel, hoffset, ?_, fun hkind => ?_⟩
          · rw [hother _ hnot, List.getElem?_set_self hlt]
          · exact (updateBranchOffset_word hkind hupdate).extends hext
        · obtain ⟨target', offset', old, new, hold, hlabel', hoffset', hnew, hkind⟩ :=
            husers user' huser'
          have hne : user.user ≠ user'.user := by
            intro heq
            apply hnot
            show user.user ∈ _
            rw [heq]
            exact List.mem_map_of_mem huser'
          rw [List.getElem?_set_ne hne] at hold
          exact ⟨target', offset', old, new, hold, hlabel', hoffset', hnew,
            fun h => hkind (h.extends hext₁)⟩

end

/-! ## The end of a translation -/

/-- What `FuncTranslator::finish` does with the encoder, where `f` is `defrag_register`. -/
def Emission.finish (emission : Emission) (f : Reg → Reg) (notifiedPreservation : Option Nat)
    (fuelInfo : FuelInfo) (costs : FuelCosts → Nat) :
    Except Failure (InstrEncoder × FuncLocalConsts) := do
  let enc := emission.enc.defragRegisters f notifiedPreservation
  let (enc, consts) ← enc.updateBranchOffsets emission.consts
  let enc ← enc.bumpFuelConsumption fuelInfo costs
  return (enc, consts)

section
variable {emission : Emission} {f : Reg → Reg} {notifiedPreservation : Option Nat}
  {fuelInfo : FuelInfo} {costs : FuelCosts → Nat} {enc : InstrEncoder} {consts : FuncLocalConsts}

/-- The words in front of the offsets. -/
lemma finish_words (hinv : emission.Inv)
    (h : emission.finish f notifiedPreservation fuelInfo costs = .ok (enc, consts)) :
    ∃ words : List Instruction, enc.instrs.map unfueled = words.map unfueled ∧
      emission.consts.Extends consts ∧
      (∀ i, i ∉ emission.enc.labels.users.map (·.user) →
        words[i]? = (emission.enc.defragRegisters f notifiedPreservation).instrs[i]?) ∧
      ∀ user ∈ emission.enc.labels.users, ∃ target offset word word',
        (emission.enc.defragRegisters f notifiedPreservation).instrs[user.user]? = some word ∧
        emission.enc.labels.labels[user.label]? = some (Label.pinned target) ∧
        fromSrcToDst user.user target = .ok offset ∧ words[user.user]? = some word' ∧
        ∀ {kind : BranchKind}, kind.Word emission.consts .uninit word.op →
          kind.Word consts offset word'.op := by
  obtain ⟨⟨enc₁, consts₁⟩, hupdate, h₁⟩ := bind_eq_ok.1 h
  obtain ⟨enc₂, hbump, h₂⟩ := bind_eq_ok.1 h₁
  obtain ⟨rfl, rfl⟩ := Prod.mk.inj (Except.ok.inj h₂)
  obtain ⟨⟨words, consts₂⟩, husers, h₃⟩ := bind_eq_ok.1 hupdate
  obtain ⟨rfl, rfl⟩ := Prod.mk.inj (Except.ok.inj h₃)
  have hlabels : (emission.enc.defragRegisters f notifiedPreservation).labels =
      emission.enc.labels := by
    cases notifiedPreservation <;> rfl
  rw [hlabels] at husers
  obtain ⟨hext, hother, husers⟩ := updateUsers_ok hinv.nodup husers
  exact ⟨words, bumpFuelConsumption_ok hbump, hext, hother, husers⟩

lemma word_of_map {words words' : List Instruction} {i : Nat} {word : Instruction}
    (hwords : words'.map unfueled = words.map unfueled) (hword : words[i]? = some word) :
    ∃ word', words'[i]? = some word' ∧ unfueled word' = unfueled word := by
  have h := congrArg (·[i]?) hwords
  simp only [List.getElem?_map, hword, Option.map_some] at h
  exact Option.map_eq_some_iff.1 h

/-- Every branch at the end was emitted as one. -/
lemma finish_complete (hinv : emission.Inv)
    (h : emission.finish f notifiedPreservation fuelInfo costs = .ok (enc, consts))
    {i : Nat} {word : Instruction} (hword : enc.instrs[i]? = some word)
    (hisBranch : word.op.isBranch = true) : (emission.branches i).isSome := by
  obtain ⟨words, hwords, _, hother, _⟩ := finish_words hinv h
  by_cases hi : i ∈ emission.enc.labels.users.map (·.user)
  · obtain ⟨user, huser, rfl⟩ := List.mem_map.1 hi
    exact hinv.users user huser
  · obtain ⟨word₁, hword₁, heq⟩ := word_of_map hwords.symm hword
    rw [hother i hi] at hword₁
    cases hold : emission.enc.instrs[i]? with
    | none =>
      have hnone : (emission.enc.defragRegisters f notifiedPreservation).instrs[i]? = none := by
        cases notifiedPreservation with
        | none => exact hold
        | some preserved =>
          show (emission.enc.instrs.mapIdx _)[i]? = none
          rw [List.getElem?_mapIdx, hold]
          rfl
      rw [hnone] at hword₁
      simp at hword₁
    | some old =>
      obtain ⟨word₂, hword₂, hsame, _⟩ := defragRegisters_word f notifiedPreservation hold
      obtain rfl := Option.some.inj (hword₁.symm.trans hword₂)
      apply hinv.complete i old hold
      rw [← hsame, isBranch_of_unfueled heq, hisBranch]

/-- The words of the branches at the end. -/
lemma finish_emitted (hinv : emission.Inv) (hf : ∀ reg : Reg, reg.isConst = true → f reg = reg)
    (h : emission.finish f notifiedPreservation fuelInfo costs = .ok (enc, consts))
    {i : Nat} {branch : Branch} (hbranch : emission.branches i = some branch) :
    ∃ word target offset, enc.instrs[i]? = some word ∧
      emission.enc.labels.labels[branch.label]? = some (Label.pinned target) ∧
      fromSrcToDst i target = .ok offset ∧
      (branch.kind.defrag f notifiedPreservation i).Word consts offset word.op := by
  obtain ⟨words, hwords, hext, hother, husers⟩ := finish_words hinv h
  obtain ⟨old, hold, hstatus⟩ := hinv.emitted i branch hbranch
  obtain ⟨word, hword, _, hdefrag⟩ := defragRegisters_word f notifiedPreservation hold
  have hfinal : ∃ word' target offset, words[i]? = some word' ∧
      emission.enc.labels.labels[branch.label]? = some (Label.pinned target) ∧
      fromSrcToDst i target = .ok offset ∧
      (branch.kind.defrag f notifiedPreservation i).Word consts offset word'.op := by
    obtain ⟨huser, hkind⟩ | ⟨huser, target, offset, hlabel, hoffset, hkind⟩ := hstatus
    · obtain ⟨target, offset, word₁, word', hword₁, hlabel, hoffset, hword', hupdate⟩ :=
        husers _ huser
      obtain rfl := Option.some.inj (hword.symm.trans hword₁)
      exact ⟨word', target, offset, hword', hlabel, hoffset, hupdate (hdefrag hf hkind)⟩
    · refine ⟨word, target, offset, ?_, hlabel, hoffset, (hdefrag hf hkind).extends hext⟩
      rw [hother i huser, hword]
  obtain ⟨word', target, offset, hword', hlabel, hoffset, hkind⟩ := hfinal
  obtain ⟨word'', hword'', heq⟩ := word_of_map hwords hword'
  refine ⟨word'', target, offset, hword'', hlabel, hoffset, ?_⟩
  rw [op_of_isBranch heq hkind.isBranch]
  exact hkind

end

/-! ## Where the branches go -/

section
variable {T : Type} {env : Engine T} {func : EngineFunc} {consts : FuncLocalConsts}
  {i target : Nat} {offset : BranchOffset}

/-- Control goes from the branch at `i` to the target, if its condition holds. A conditional branch
does so iff its offset fits, or it happens not to branch. The target of a table is read by the table,
which copies its values and goes on at the target. -/
def BranchKind.GoesTo (env : Engine T) (func : EngineFunc) (consts : FuncLocalConsts)
    (i target : Nat) (offset : BranchOffset) : BranchKind → Prop
  | .always => ∀ m : Machine T, m.ip = ⟨func, i⟩ →
    executeOne env m = .ok .continue_ { m with ip := ⟨func, target⟩ }
  | .cond condition => ∀ (m : Machine T) (a b : UntypedVal), m.ip = ⟨func, i⟩ →
    ConstsIn consts m.toLocal → condition.operands m.toLocal.read = some (a, b) →
    ∃ m', executeOne env m = .ok .continue_ m' ∧
      (m' = { m with ip :=
        ⟨func, if condition.comparator.eval env.float a b then target else i + 1⟩ } ↔
        GoesRight (condition.comparator.eval env.float a b) offset a b)
  | .target _ => ∀ (m m' : Machine T) (table : Instruction) (flow : ControlFlow),
    env.instrAt m.ip = some table → env.selectedTarget m.toLocal table.op = some ⟨func, i⟩ →
    executeOne env m = .ok flow m' → m'.ip = ⟨func, target⟩
  | .targetNonOverlapping _ => ∀ (m m' : Machine T) (table : Instruction) (flow : ControlFlow),
    env.instrAt m.ip = some table → table.op.isLongTable = true →
    env.selectedTarget m.toLocal table.op = some ⟨func, i⟩ → executeOne env m = .ok flow m' →
    m'.ip = ⟨func, target⟩

lemma toInt_fromSrcToDst {src dst : Nat} (h : fromSrcToDst src dst = .ok offset) :
    offset.toInt = (dst : Int) - src := by
  unfold fromSrcToDst at h
  dsimp only at h
  split at h
  case isTrue hfits =>
    rw [← Except.ok.inj h]
    exact Int32.toInt_ofInt_of_le hfits.1 hfits.2
  case isFalse => simp at h

lemma instrAt_natCast (i : Nat) :
    env.instrAt ⟨func, i⟩ = (env.codeMap func).instrs[i]? := by
  have hpos : (0 : Int) ≤ i := Int.natCast_nonneg i
  rw [Engine.instrAt, Engine.wordsAt, if_pos hpos, Option.bind_some]
  show List.head? (List.drop i _) = _
  rw [List.head?_drop]

/-- A branch only moves the instruction pointer. -/
lemma executeOne_branch {m : Machine T} {instr : Instruction} {ip : InstructionPtr}
    (hinstr : env.instrAt m.ip = some instr) (hisBranch : instr.op.isBranch = true)
    (h : executeLocal env instr.op m.toLocal = .ok () { m.toLocal with ip }) :
    executeOne env m = .ok .continue_ { m with ip } := by
  have hop : executeOp env instr.op = continuing (stepLocal (executeLocal env instr.op)) := by
    cases hop : instr.op <;> rw [hop] at hisBranch <;> first | rfl | cases hisBranch
  rw [executeOne_eq hinstr, hop, continuing, StateExcept.bind_ok (stepLocal_of_ip h)]
  rfl

lemma BranchKind.Word.goesTo {kind : BranchKind} {word : Instruction}
    (h : kind.Word consts offset word.op) (hoffset : fromSrcToDst i target = .ok offset)
    (hword : (env.codeMap func).instrs[i]? = some word) :
    kind.GoesTo env func consts i target offset := by
  have htoInt := toInt_fromSrcToDst hoffset
  have hinstr : env.instrAt ⟨func, i⟩ = some word := (instrAt_natCast i).trans hword
  have htarget : InstructionPtr.offset ⟨func, i⟩ offset.toInt = ⟨func, target⟩ := by
    show InstructionPtr.mk func (i + offset.toInt) = _
    rw [htoInt]
    congr 1
    omega
  cases kind with
  | always =>
    intro m hm
    apply executeOne_branch (hm ▸ hinstr) h.isBranch
    rw [show word.op = _ from h, ← htarget, ← hm]
    rfl
  | cond condition =>
    intro m a b hm hconsts hoperands
    obtain ⟨delta, hlocal, hiff⟩ := branches_execute h (.refl consts) hconsts hoperands
    refine ⟨_, executeOne_branch (hm ▸ hinstr) h.isBranch hlocal, ?_⟩
    rw [← hiff, m.toLocal_ip_eq, hm]
    have hip : InstructionPtr.offset ⟨func, i⟩ delta =
        ⟨func, if condition.comparator.eval env.float a b then target else i + 1⟩ ↔
        delta = if condition.comparator.eval env.float a b then offset.toInt else 1 := by
      show InstructionPtr.mk func (i + delta) = _ ↔ _
      rw [InstructionPtr.mk.injEq, eq_self_iff_true, true_and]
      split <;> omega
    rw [← hip]
    exact ⟨fun h => congrArg Machine.ip h, fun h => by rw [h]⟩
  | target results =>
    intro m m' table flow htable hselected hstep
    rw [← htarget]
    exact executeOne_table htable hselected hinstr (by rw [show word.op = _ from h]; rfl) hstep
  | targetNonOverlapping results =>
    intro m m' table flow htable hlong hselected hstep
    rw [← htarget]
    exact executeOne_table htable hselected hinstr (by rw [show word.op = _ from h, hlong]; rfl) hstep

end

/-! ## Every translated function -/

/-- In every function that preserves fewer than 2^15 registers at a time, every branch goes to the
position at which its label was pinned, with the words in front of it that were there then. A
conditional branch does so iff its offset fits in 16 bits or its fallback happens not to branch, since
a packed pair is read back iff it is the comparator `I32Eq` with the offset 0. -/
theorem branches_reach_labels_iff {T σ : Type} {env : Engine T} {func : EngineFunc} {n : Nat}
    {emission : Emission} {alloc final : RegisterAlloc σ} {f : Reg → Reg}
    {notifiedPreservation : Option Nat} {fuelInfo : FuelInfo} {costs : FuelCosts → Nat}
    {enc : InstrEncoder} {consts : FuncLocalConsts}
    (hrun : Runs.Steps Emits n .start emission) (hpreserve : -1 ≤ alloc.minPreserve)
    (hfinal : alloc.finalizeAlloc = .ok final) (hf : ∀ reg, final.defragRegister reg = .ok (f reg))
    (hfinish : emission.finish f notifiedPreservation fuelInfo costs = .ok (enc, consts))
    (hcode : (env.codeMap func).instrs = enc.instrs) :
    (∀ i word, enc.instrs[i]? = some word → word.op.isBranch = true →
      (emission.branches i).isSome) ∧
    (∀ i branch, emission.branches i = some branch → ∃ before target offset,
      emission.pins branch.label = some before ∧ before.length = target ∧
      before.map unfueled = (emission.enc.instrs.take target).map unfueled ∧
      fromSrcToDst i target = .ok offset ∧
      (branch.kind.defrag f notifiedPreservation i).GoesTo env func consts i target offset) ∧
    ∀ params : ComparatorAndOffset,
      ComparatorAndOffset.fromUntyped params.asU64 = some params ↔ params = ⟨.int .i32Eq, 0⟩ := by
  have hinv := runs_inv hrun
  have hconst := defragRegister_isConst hpreserve hfinal hf
  refine ⟨fun i word => finish_complete hinv hfinish, fun i branch hbranch => ?_,
    ComparatorAndOffset.fromUntyped_asU64_iff⟩
  obtain ⟨word, target, offset, hword, hlabel, hoffset, hkind⟩ :=
    finish_emitted hinv hconst hfinish hbranch
  obtain ⟨before, hpins, hlen, hbefore⟩ := hinv.pinned branch.label target hlabel
  exact ⟨before, target, offset, hpins, hlen, hbefore, hoffset,
    hkind.goesTo hoffset (by rw [hcode, hword])⟩

/-! ## Two functions -/

/-- A word that is no branch. -/
def plainWord : Instruction := ⟨6, .return_⟩

/-- A branch on register 0 to the label 0. -/
def nezBranch : Instruction := ⟨5, .branchCmpImm (.int .i32Ne) 0 0 0⟩

/-- The translation of a function with the branch, `n` other words and the label behind them. -/
def forwardEmission (n : Nat) : Emission where
  enc := ⟨nezBranch :: List.replicate n plainWord, ⟨[.pinned (n + 1)], [⟨0, 0⟩]⟩, none⟩
  consts := .reset
  branches := Function.update (fun _ => none) 0 (some ⟨0, .cond (zeroCond false 0)⟩)
  pins := Function.update (fun _ => none) 0 (some (nezBranch :: List.replicate n plainWord))

/-- Other words are pushed. -/
lemma steps_push (labels : LabelRegistry) (consts : FuncLocalConsts)
    (branches : Nat → Option Branch) (pins : Nat → Option (List Instruction))
    (instrs : List Instruction) (last : Option Nat) {n : Nat} (h : instrs.length + n < 2 ^ 32) :
    ∃ last', Runs.Steps Emits n ⟨⟨instrs, labels, last⟩, consts, branches, pins⟩
      ⟨⟨instrs ++ List.replicate n plainWord, labels, last'⟩, consts, branches, pins⟩ := by
  induction n generalizing instrs last with
  | zero =>
    refine ⟨last, ?_⟩
    rw [List.replicate_zero, List.append_nil]
    exact .refl _
  | succ n ih =>
    have hpush : InstrEncoder.pushInstr ⟨instrs, labels, last⟩ plainWord = .ok (instrs.length,
        ⟨instrs ++ [plainWord], labels, some instrs.length⟩) := by
      unfold InstrEncoder.pushInstr InstrEncoder.appendInstr InstrEncoder.nextInstr
      rw [if_pos (by show instrs.length < _; omega)]
      rfl
    have hlen : (instrs ++ [plainWord]).length + n < 2 ^ 32 := by
      rw [List.length_append, List.length_singleton]
      omega
    obtain ⟨last', hsteps⟩ := ih (instrs ++ [plainWord]) (some instrs.length) hlen
    refine ⟨last', .head (.push rfl hpush) ?_⟩
    rw [List.append_assoc] at hsteps
    exact hsteps

/-- The label is created, the branch is emitted, the words are pushed, and the label is pinned. -/
lemma steps_forward {n : Nat} (h : n + 1 < 2 ^ 32) :
    ∃ steps, Runs.Steps Emits steps .start (forwardEmission n) := by
  have hlabel : Emits .start
      ⟨⟨[], ⟨[.unpinned], []⟩, none⟩, .reset, fun _ => none, fun _ => none⟩ := .newLabel
  have hbranch := @Emits.branchCond
    ⟨⟨[], ⟨[.unpinned], []⟩, none⟩, .reset, fun _ => none, fun _ => none⟩ (fun _ => .dynamic)
    false 5 0 0 0 (zeroCond false 0) ⟨[nezBranch], ⟨[.unpinned], [⟨0, 0⟩]⟩, some 0⟩ .reset rfl rfl
  obtain ⟨last, hpushes⟩ := steps_push ⟨[.unpinned], [⟨0, 0⟩]⟩ .reset
    (forwardEmission n).branches (fun _ => none) [nezBranch] (some 0) (n := n)
    (by rw [List.length_singleton]; omega)
  have hreset := @Emits.resetLast ⟨⟨nezBranch :: List.replicate n plainWord,
    ⟨[.unpinned], [⟨0, 0⟩]⟩, last⟩, .reset, (forwardEmission n).branches, fun _ => none⟩
  have hlen : (nezBranch :: List.replicate n plainWord).length = n + 1 := by
    rw [List.length_cons, List.length_replicate]
  have hpin : InstrEncoder.pinLabelIfUnpinned ⟨nezBranch :: List.replicate n plainWord,
      ⟨[.unpinned], [⟨0, 0⟩]⟩, none⟩ 0 = .ok (forwardEmission n).enc := by
    unfold InstrEncoder.pinLabelIfUnpinned InstrEncoder.nextInstr
    rw [hlen, if_pos h]
    rfl
  have hpinned := @Emits.pin ⟨⟨nezBranch :: List.replicate n plainWord,
    ⟨[.unpinned], [⟨0, 0⟩]⟩, none⟩, .reset, (forwardEmission n).branches, fun _ => none⟩ 0 _
    (fun k word hk => by cases hk) hpin
  exact ⟨_, .head hlabel (.head hbranch (hpushes.trans (.head hreset (.one hpinned))))⟩

/-- The registers of a function with a single local. -/
def localAlloc : RegisterAlloc Unit := ⟨(), [], .alloc, 1, 1, 1, 32766, 0⟩

/-- The function with nine words between the branch and the label. -/
def nearEngine : Engine Unit :=
  Engine.ofCode [⟨⟨5, .branchCmpImm (.int .i32Ne) 0 0 10⟩ :: List.replicate 9 plainWord, [], 1⟩] []

theorem branches_reach_labels_iff_near :
    (BranchKind.cond (zeroCond false 0)).GoesTo nearEngine 0 .reset 0 10 10 := by
  obtain ⟨steps, hsteps⟩ := @steps_forward 9 (by decide)
  obtain ⟨before, target, offset, hpins, hlen, _, hoffset, hgoes⟩ :=
    (@branches_reach_labels_iff Unit Unit nearEngine 0 _ _ localAlloc _ _ none .none (fun _ => 0)
      ⟨⟨5, .branchCmpImm (.int .i32Ne) 0 0 10⟩ :: List.replicate 9 plainWord,
        ⟨[.pinned 10], [⟨0, 0⟩]⟩, none⟩ .reset hsteps (by decide) rfl (fun _ => rfl) rfl rfl).2.1
      0 ⟨0, .cond (zeroCond false 0)⟩ rfl
  obtain rfl := Option.some.inj hpins
  obtain rfl : 10 = target := hlen
  obtain rfl : 10 = offset := Except.ok.inj hoffset
  exact hgoes

/-- The fallback for the branch on register 0. The constant 0 is its right operand, and the packed
pair as well. -/
def farBranch : Instruction := ⟨5, .branchCmpFallback 0 (-1) (-1)⟩

/-- Register 0 is 1. -/
def farMachine : Machine Unit where
  sp := ⟨0, 1⟩
  ip := ⟨0, 0⟩
  cache := default
  stack := ⟨⟨[0, 1], 64⟩, ⟨[], [], 4⟩⟩
  store := Store.ofFuncs []

/-- The end of the translation does not depend on the words between the branch and the label. -/
lemma finish_far (words : List Instruction) (branches : Nat → Option Branch)
    (pins : Nat → Option (List Instruction)) :
    Emission.finish ⟨⟨nezBranch :: words, ⟨[.pinned 40001], [⟨0, 0⟩]⟩, none⟩, .reset, branches, pins⟩
      id none .none (fun _ => 0) =
      .ok (⟨farBranch :: words, ⟨[.pinned 40001], [⟨0, 0⟩]⟩, none⟩, farConsts) := by
  have hupdate : InstrEncoder.updateBranchOffsets
      ⟨nezBranch :: words, ⟨[.pinned 40001], [⟨0, 0⟩]⟩, none⟩ .reset =
      .ok (⟨farBranch :: words, ⟨[.pinned 40001], [⟨0, 0⟩]⟩, none⟩, farConsts) := rfl
  rw [Emission.finish, InstrEncoder.defragRegisters, hupdate]
  rfl

lemma executeOne_far (words : List Instruction) :
    executeOne (Engine.ofCode [⟨farBranch :: words, [0], 1⟩] []) farMachine =
      .ok .continue_ { farMachine with ip := ⟨0, 1⟩ } := rfl

/-- With 40000 words between the branch and the label, the branch is not taken where register 0 is
1, as the pair is read back as another one. -/
theorem far_label_missed :
    ∃ n words enc, Runs.Steps Emits n .start (forwardEmission 40000) ∧
      (forwardEmission 40000).finish id none .none (fun _ => 0) = .ok (enc, farConsts) ∧
      enc.instrs = farBranch :: words ∧
      (forwardEmission 40000).branches 0 = some ⟨0, .cond (zeroCond false 0)⟩ ∧
      enc.labels.labels[0]? = some (.pinned 40001) ∧
      ConstsIn farConsts farMachine.toLocal ∧
      (zeroCond false 0).operands farMachine.toLocal.read = some (1, 0) ∧
      Comparator.eval nearEngine.float (zeroCond false 0).comparator 1 0 = true ∧
      executeOne (Engine.ofCode [⟨farBranch :: words, [0], 1⟩] []) farMachine =
        .ok .continue_ { farMachine with ip := ⟨0, 1⟩ } ∧
      ComparatorAndOffset.fromUntyped (ComparatorAndOffset.asU64 ⟨.int .i32Ne, 40001⟩) =
        some ⟨.int .i32Eq, 0⟩ := by
  obtain ⟨n, hsteps⟩ := @steps_forward 40000 (by decide)
  exact ⟨n, _, _, hsteps, finish_far _ _ _, rfl, rfl, rfl, constsIn_far rfl, rfl, rfl,
    executeOne_far _, rfl⟩

end MotokoDebugger.Translator
