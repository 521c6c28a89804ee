import MotokoDebugger.Translator.RegisterAlloc

/-!
# Defragmentation of the registers

After a sequence of operations of the register allocator, `defrag_register` has to move the
registers that were handed out to distinct places below `len_registers`.

* `Effect`: what an operation that succeeds does to the allocator.
* `Slots`: what holds after every sequence; `Apart`: the registers are in separate regions.
* `Defragments`: the property; `Guarded`: the condition on an operation.
* `defragments_iff`: a sequence defragments iff each of its operations is guarded.
-/

namespace MotokoDebugger.Translator

open Index16 Fallible

namespace RegisterAlloc

variable {σ : Type} {stash : MultiStash σ} {slots : σ → List Nat}

/-! ## What an operation does -/

/-- The effect of an operation, with the registers that it hands out. -/
inductive Effect (slots : σ → List Nat) :
    AllocOp → RegisterAlloc σ → RegisterAlloc σ → List (RegisterSpace × Reg) → Prop where
  | locals {amount : UInt32} {alloc : RegisterAlloc σ} {lenLocals : UInt16}
      (phase : alloc.phase = .init)
      (len : lenLocals.toNat = alloc.lenLocals.toNat + amount.toNat)
      (bound : lenLocals.toNat < 32766) :
      Effect slots (.registerLocals amount) alloc
        { alloc with
          lenLocals, nextDynamic := lenLocals.toInt16, maxDynamic := lenLocals.toInt16 }
        ((List.range amount.toNat).map fun i => (.local, Reg.nextN alloc.minDynamic i))
  /-- No register is handed out; dynamic registers may be popped and slots be freed. -/
  | idle {op : AllocOp} {alloc alloc' : RegisterAlloc σ} (op_ne : op ≠ .pushPreserved)
      (phase : alloc'.phase = alloc.phase ∨ alloc'.phase = .alloc)
      (len : alloc'.lenLocals = alloc.lenLocals)
      (next : alloc.minDynamic.toInt ≤ alloc.nextDynamic.toInt →
        alloc.minDynamic.toInt ≤ alloc'.nextDynamic.toInt ∧
          alloc'.nextDynamic.toInt ≤ alloc.nextDynamic.toInt)
      (max_eq : alloc'.maxDynamic = alloc.maxDynamic)
      (min_eq : alloc'.minPreserve = alloc.minPreserve)
      (slots_eq : (slots alloc'.preservations).length = (slots alloc.preservations).length) :
      Effect slots op alloc alloc' []
  | dynamic {op : AllocOp} {alloc : RegisterAlloc σ} {n : Nat} (op_ne : op ≠ .pushPreserved)
      (phase : alloc.phase = .alloc) (bound : n < 2 ^ 15)
      (room : alloc.nextDynamic.toInt ≤ alloc.minPreserve.toInt →
        alloc.nextDynamic.toInt + n ≤ alloc.minPreserve.toInt) :
      Effect slots op alloc
        { alloc with
          nextDynamic := alloc.nextDynamic + Int16.ofNat n
          maxDynamic := max alloc.maxDynamic (alloc.nextDynamic + Int16.ofNat n) }
        ((List.range n).map fun i => (.dynamic, Reg.nextN alloc.nextDynamic i))
  /-- A slot is reused or appended. -/
  | preserve {alloc : RegisterAlloc σ} {key : Nat} {preservations : σ}
      (phase : alloc.phase = .alloc) (bound : key < 2 ^ 15)
      (free : alloc.nextDynamic ≠
        min alloc.minPreserve (Reg.prev (initialPreservationIndex - Int16.ofNat key)))
      (slot : 0 ∈ slots alloc.preservations ∧ key < (slots alloc.preservations).length ∧
          (slots preservations).length = (slots alloc.preservations).length ∨
        0 ∉ slots alloc.preservations ∧ key = (slots alloc.preservations).length ∧
          (slots preservations).length = (slots alloc.preservations).length + 1) :
      Effect slots .pushPreserved alloc
        { alloc with
          preservations
          removedPreserved := []
          minPreserve :=
            min alloc.minPreserve (Reg.prev (initialPreservationIndex - Int16.ofNat key)) }
        [(.preserve, initialPreservationIndex - Int16.ofNat key)]

section Stash

variable (h : stash.Lawful slots)

include h

lemma length_takeAll (s : σ) (key : Nat) :
    (slots (stash.takeAll s key)).length = (slots s).length := by
  rw [h.takeAll, List.length_set]

lemma length_bump (s : σ) (key amount : Nat) :
    (slots (stash.bump s key amount)).length = (slots s).length := by
  rw [h.bump]
  cases stash.get s key with
  | none => rfl
  | some n => exact List.length_set

lemma length_takeOne {s s' : σ} {key : Nat} (hs : stash.takeOne s key = some s') :
    (slots s').length = (slots s).length := by
  have htake := h.takeOne s key
  rw [hs] at htake
  cases hget : stash.get s key with
  | none => simp [hget] at htake
  | some n =>
    simp only [hget, Option.map_some, Option.some.injEq] at htake
    rw [htake, List.length_set]

lemma length_gcSlots (removed : List Nat) (s : σ) :
    (slots (gcSlots stash s removed)).length = (slots s).length := by
  induction removed generalizing s with
  | nil => rfl
  | cons key removed ih =>
    show (slots (gcSlots stash (if stash.get s key = some 1 then _ else _) removed)).length = _
    rw [ih]
    split
    · exact length_takeAll h s key
    · rfl

lemma put_slot (s : σ) (amount : Nat) (hpos : 0 < amount) :
    0 ∈ slots s ∧ (stash.put s amount).1 < (slots s).length ∧
        (slots (stash.put s amount).2).length = (slots s).length ∨
      0 ∉ slots s ∧ (stash.put s amount).1 = (slots s).length ∧
        (slots (stash.put s amount).2).length = (slots s).length + 1 := by
  by_cases hvacant : 0 ∈ slots s
  · obtain ⟨hkey, hslots⟩ := h.put_vacant s amount hpos hvacant
    have hlt := (List.getElem?_eq_some_iff.1 hkey).1
    exact .inl ⟨hvacant, hlt, by rw [hslots, List.length_set]⟩
  · obtain ⟨hkey, hslots⟩ := h.put_full s amount hpos hvacant
    exact .inr ⟨hvacant, hkey, by rw [hslots]; simp⟩

end Stash

variable {alloc alloc' : RegisterAlloc σ}

lemma assertAllocPhase_eq_ok {u : Unit} :
    alloc.assertAllocPhase = .ok u ↔ alloc.phase = .alloc := by
  simp [assertAllocPhase]

lemma assertAllocPhase_of (hphase : alloc.phase = .alloc) : alloc.assertAllocPhase = .ok () :=
  assertAllocPhase_eq_ok.2 hphase

/-- An operation that changes the slots, and those only. -/
lemma Effect.of_slots {op : AllocOp} {preservations : σ} {removed : List Nat}
    (op_ne : op ≠ .pushPreserved)
    (hlen : (slots preservations).length = (slots alloc.preservations).length) :
    Effect slots op alloc { alloc with preservations, removedPreserved := removed } [] :=
  .idle op_ne (.inl rfl) rfl (fun hle => ⟨hle, Int.le_refl _⟩) rfl rfl hlen

lemma Effect.refl {op : AllocOp} (op_ne : op ≠ .pushPreserved) : Effect slots op alloc alloc [] :=
  .idle op_ne (.inl rfl) rfl (fun hle => ⟨hle, Int.le_refl _⟩) rfl rfl rfl

lemma registerLocals_effect {amount : UInt32} (hop : alloc.registerLocals amount = .ok alloc') :
    Effect slots (.registerLocals amount) alloc alloc'
      ((List.range amount.toNat).map fun i => (.local, Reg.nextN alloc.minDynamic i)) := by
  unfold registerLocals bumpLocals at hop
  split at hop
  case isFalse => simp at hop
  case isTrue hphase =>
    split at hop
    case h_1 => simp at hop
    case h_2 lenLocals hlen =>
      rw [← Except.ok.inj hop]
      split at hlen
      case isFalse => simp at hlen
      case isTrue hfits =>
        simp only [Option.ite_none_left_eq_some, Option.some.injEq] at hlen
        have hsum : lenLocals.toNat = alloc.lenLocals.toNat + amount.toNat := by
          rw [← hlen.2, UInt16.toNat_add, UInt32.toNat_toUInt16]
          omega
        have hbound : lenLocals.toNat < 32766 := by
          have hlt := UInt16.not_le.1 hlen.1
          rw [hlen.2] at hlt
          exact UInt16.lt_iff_toNat_lt.1 hlt
        exact .locals hphase hsum hbound

lemma finishRegisterLocals_effect (hop : alloc.finishRegisterLocals = .ok alloc') :
    Effect slots .finishRegisterLocals alloc alloc' [] := by
  unfold finishRegisterLocals at hop
  split at hop
  case isFalse => simp at hop
  case isTrue hphase =>
    rw [← Except.ok.inj hop]
    exact .idle (by simp) (.inr rfl) rfl (fun hle => ⟨hle, Int.le_refl _⟩) rfl rfl rfl

lemma pushDynamic_effect {reg : Reg} (hop : alloc.pushDynamic = .ok (reg, alloc')) :
    Effect slots .pushDynamic alloc alloc' [(.dynamic, reg)] := by
  unfold pushDynamic at hop
  obtain ⟨_, hphase, hop⟩ := bind_eq_ok.1 hop
  rw [assertAllocPhase_eq_ok] at hphase
  split at hop
  case isTrue => simp at hop
  case isFalse hne =>
    obtain ⟨rfl, rfl⟩ := Prod.mk.inj (Except.ok.inj hop)
    have hroom : alloc.nextDynamic.toInt ≤ alloc.minPreserve.toInt →
        alloc.nextDynamic.toInt + (1 : Nat) ≤ alloc.minPreserve.toInt := by
      intro hle
      have hne : alloc.nextDynamic.toInt ≠ alloc.minPreserve.toInt := mt Int16.toInt_inj.1 hne
      omega
    have heffect : Effect slots .pushDynamic alloc _ _ :=
      .dynamic (by simp) hphase (by decide) hroom
    simpa using heffect

lemma pushDynamicN_effect {n : Nat} {span : RegSpan}
    (hop : alloc.pushDynamicN n = .ok (span, alloc')) :
    Effect slots (.pushDynamicN n) alloc alloc'
      ((List.range n).map fun i => (.dynamic, Reg.nextN span.head i)) := by
  unfold pushDynamicN at hop
  obtain ⟨_, hphase, hop⟩ := bind_eq_ok.1 hop
  rw [assertAllocPhase_eq_ok] at hphase
  split at hop
  case isFalse => simp at hop
  case isTrue hfits =>
    dsimp only at hop
    split at hop
    case isTrue => simp at hop
    case isFalse hlt =>
      obtain ⟨rfl, rfl⟩ := Prod.mk.inj (Except.ok.inj hop)
      have hroom : alloc.nextDynamic.toInt + n ≤ alloc.minPreserve.toInt := by
        have hn := toInt_ofNat_of_lt hfits.1
        have hmem := toInt_mem alloc.nextDynamic
        rw [ge_iff_le, Int16.le_iff_toInt_le, toInt_add_of_mem (by omega) (by omega)] at hlt
        omega
      exact .dynamic (by simp) hphase hfits.1 fun _ => hroom

lemma popDynamic_effect (hop : alloc.popDynamic = .ok alloc') {op : AllocOp}
    (op_ne : op ≠ .pushPreserved) : Effect slots op alloc alloc' [] := by
  unfold popDynamic at hop
  obtain ⟨_, hphase, hop⟩ := bind_eq_ok.1 hop
  rw [assertAllocPhase_eq_ok] at hphase
  split at hop
  case isTrue => simp at hop
  case isFalse hne =>
    rw [← Except.ok.inj hop]
    refine .idle op_ne (.inl rfl) rfl (fun hle => ?_) rfl rfl rfl
    have hne : alloc.nextDynamic.toInt ≠ alloc.minDynamic.toInt := mt Int16.toInt_inj.1 hne
    have hone : (1 : Int16).toInt = 1 := rfl
    have hmem := toInt_mem alloc.nextDynamic
    have hmin := toInt_mem alloc.minDynamic
    show alloc.minDynamic.toInt ≤ (alloc.nextDynamic - 1).toInt ∧ (alloc.nextDynamic - 1).toInt ≤ _
    rw [toInt_sub_of_mem (by omega) (by omega)]
    omega

lemma popDynamicN_effect {n : Nat} (hop : alloc.popDynamicN n = .ok alloc') :
    Effect slots (.popDynamicN n) alloc alloc' [] := by
  unfold popDynamicN at hop
  obtain ⟨_, hphase, hop⟩ := bind_eq_ok.1 hop
  rw [assertAllocPhase_eq_ok] at hphase
  split at hop
  case isFalse => simp at hop
  case isTrue hfits =>
    rw [← Except.ok.inj hop]
    refine .idle (by simp) (.inl rfl) rfl (fun _ => ?_) rfl rfl rfl
    have hn := toInt_ofNat_of_lt hfits.1
    have hmem := toInt_mem alloc.nextDynamic
    have hmin := toInt_mem alloc.minDynamic
    show alloc.minDynamic.toInt ≤ (alloc.nextDynamic - Int16.ofNat n).toInt ∧
      (alloc.nextDynamic - Int16.ofNat n).toInt ≤ _
    rw [toInt_sub_of_mem (by omega) (by omega)]
    omega

section Stash

variable (h : stash.Lawful slots)

include h

lemma pushPreserved_effect {reg : Reg} (hop : alloc.pushPreserved stash = .ok (reg, alloc')) :
    Effect slots .pushPreserved alloc alloc' [(.preserve, reg)] := by
  unfold pushPreserved at hop
  obtain ⟨_, hphase, hop⟩ := bind_eq_ok.1 hop
  rw [assertAllocPhase_eq_ok] at hphase
  obtain ⟨reg', hkey, hop⟩ := bind_eq_ok.1 hop
  obtain ⟨alloc'', hmin, hop⟩ := bind_eq_ok.1 hop
  obtain ⟨rfl, rfl⟩ := Prod.mk.inj (Except.ok.inj hop)
  unfold key2reg at hkey
  split at hkey
  case isFalse => simp at hkey
  case isTrue hbound =>
    unfold updateMinPreserved at hmin
    dsimp only at hmin
    split at hmin
    case isTrue => simp at hmin
    case isFalse hfree =>
      obtain rfl := Except.ok.inj hkey
      rw [← Except.ok.inj hmin]
      exact .preserve hphase hbound hfree (put_slot h alloc.preservations 2 (by decide))

lemma popPreserved_effect {reg : Reg} (hop : alloc.popPreserved stash reg = .ok alloc')
    {op : AllocOp} (op_ne : op ≠ .pushPreserved) : Effect slots op alloc alloc' [] := by
  unfold popPreserved at hop
  obtain ⟨_, _, hop⟩ := bind_eq_ok.1 hop
  obtain ⟨key, _, hop⟩ := bind_eq_ok.1 hop
  split at hop
  case h_1 => simp at hop
  case h_2 preservations htake =>
    rw [← Except.ok.inj hop]
    exact .of_slots op_ne (length_takeOne h htake)

lemma bumpPreserved_effect {reg : Reg} (hop : alloc.bumpPreserved stash reg = .ok alloc')
    {op : AllocOp} (op_ne : op ≠ .pushPreserved) : Effect slots op alloc alloc' [] := by
  unfold bumpPreserved at hop
  obtain ⟨key, _, hop⟩ := bind_eq_ok.1 hop
  rw [← Except.ok.inj hop]
  exact .of_slots op_ne (length_bump h alloc.preservations key 1)

lemma gcPreservations_effect (hop : alloc.gcPreservations stash = .ok alloc') :
    Effect slots .gcPreservations alloc alloc' [] := by
  unfold gcPreservations at hop
  obtain ⟨_, _, hop⟩ := bind_eq_ok.1 hop
  rw [← Except.ok.inj hop]
  exact .of_slots (by simp) (length_gcSlots h alloc.removedPreserved alloc.preservations)

lemma popProvider_effect {provider : TaggedProvider} {popped : TypedProvider}
    (hop : alloc.popProvider stash provider = .ok (popped, alloc')) :
    Effect slots (.popProvider provider) alloc alloc' [] := by
  cases provider with
  | dynamic reg =>
    obtain ⟨next, hpop, hop⟩ := bind_eq_ok.1 hop
    obtain ⟨_, rfl⟩ := Prod.mk.inj (Except.ok.inj hop)
    exact popDynamic_effect hpop (by simp)
  | preserved reg =>
    obtain ⟨next, hpop, hop⟩ := bind_eq_ok.1 hop
    obtain ⟨_, rfl⟩ := Prod.mk.inj (Except.ok.inj hop)
    exact popPreserved_effect h hpop (by simp)
  | _ =>
    obtain ⟨_, rfl⟩ := Prod.mk.inj (Except.ok.inj hop)
    exact .refl (by simp)

lemma incRegisterUsage_effect {reg : Reg} (hop : alloc.incRegisterUsage stash reg = .ok alloc') :
    Effect slots (.incRegisterUsage reg) alloc alloc' [] := by
  unfold incRegisterUsage at hop
  split at hop
  · exact bumpPreserved_effect h hop (by simp)
  · rw [← Except.ok.inj hop]
    exact .refl (by simp)

lemma decRegisterUsage_effect {reg : Reg} (hop : alloc.decRegisterUsage stash reg = .ok alloc') :
    Effect slots (.decRegisterUsage reg) alloc alloc' [] := by
  unfold decRegisterUsage at hop
  split at hop
  · exact popPreserved_effect h hop (by simp)
  · rw [← Except.ok.inj hop]
    exact .refl (by simp)

omit h in
/-- An operation that only returns the allocator. -/
lemma of_return {x : Except Failure (RegisterAlloc σ)} {regs regs' : List (RegisterSpace × Reg)}
    (hop : (do return (← x, regs) : Except Failure (RegisterAlloc σ × _)) = .ok (alloc', regs')) :
    x = .ok alloc' ∧ regs = regs' := by
  obtain ⟨next, hx, hop⟩ := bind_eq_ok.1 hop
  obtain ⟨rfl, rfl⟩ := Prod.mk.inj (Except.ok.inj hop)
  exact ⟨hx, rfl⟩

/-- Every operation that succeeds has its effect. -/
lemma apply_effect {op : AllocOp} {regs : List (RegisterSpace × Reg)}
    (hop : alloc.apply stash op = .ok (alloc', regs)) : Effect slots op alloc alloc' regs := by
  cases op with
  | registerLocals amount =>
    obtain ⟨hret, rfl⟩ := of_return hop
    exact registerLocals_effect hret
  | finishRegisterLocals =>
    obtain ⟨hret, rfl⟩ := of_return hop
    exact finishRegisterLocals_effect hret
  | pushDynamic =>
    obtain ⟨⟨reg, next⟩, hpush, hop⟩ := bind_eq_ok.1 hop
    obtain ⟨rfl, rfl⟩ := Prod.mk.inj (Except.ok.inj hop)
    exact pushDynamic_effect hpush
  | pushDynamicN n =>
    obtain ⟨⟨span, next⟩, hpush, hop⟩ := bind_eq_ok.1 hop
    obtain ⟨rfl, rfl⟩ := Prod.mk.inj (Except.ok.inj hop)
    exact pushDynamicN_effect hpush
  | popProvider provider =>
    obtain ⟨⟨popped, next⟩, hpop, hop⟩ := bind_eq_ok.1 hop
    obtain ⟨rfl, rfl⟩ := Prod.mk.inj (Except.ok.inj hop)
    exact popProvider_effect h hpop
  | popDynamicN n =>
    obtain ⟨hret, rfl⟩ := of_return hop
    exact popDynamicN_effect hret
  | pushPreserved =>
    obtain ⟨⟨reg, next⟩, hpush, hop⟩ := bind_eq_ok.1 hop
    obtain ⟨rfl, rfl⟩ := Prod.mk.inj (Except.ok.inj hop)
    exact pushPreserved_effect h hpush
  | gcPreservations =>
    obtain ⟨hret, rfl⟩ := of_return hop
    exact gcPreservations_effect h hret
  | bumpPreserved reg =>
    obtain ⟨hret, rfl⟩ := of_return hop
    exact bumpPreserved_effect h hret (by simp)
  | incRegisterUsage reg =>
    obtain ⟨hret, rfl⟩ := of_return hop
    exact incRegisterUsage_effect h hret
  | decRegisterUsage reg =>
    obtain ⟨hret, rfl⟩ := of_return hop
    exact decRegisterUsage_effect h hret

end Stash

/-! ## Invariants -/

/-- The index of a preserved register. -/
lemma toInt_preserve {key : Nat} (hkey : key < 2 ^ 15) :
    (initialPreservationIndex - Int16.ofNat key).toInt = 32766 - key := by
  have hinit : initialPreservationIndex.toInt = 32766 := rfl
  have hofNat := toInt_ofNat_of_lt hkey
  rw [toInt_sub_of_mem (by omega) (by omega)]
  omega

/-- The mark below the preserved registers, after one of them is handed out. -/
lemma toInt_min_preserve {key : Nat} (hkey : key < 2 ^ 15) (mark : Int16) :
    (min mark (Reg.prev (initialPreservationIndex - Int16.ofNat key))).toInt =
      min mark.toInt (32765 - key) := by
  have hreg := toInt_preserve hkey
  have hone : (1 : Int16).toInt = 1 := rfl
  rw [toInt_min, Reg.prev, toInt_sub_of_mem (by omega) (by omega)]
  omega

/-- What holds after every sequence of operations: the preserved registers that were handed out
start at the highest index and end at the mark. -/
structure Slots (slots : σ → List Nat) (alloc : RegisterAlloc σ)
    (handed : List (RegisterSpace × Reg)) : Prop where
  min_eq : alloc.minPreserve.toInt = 32766 - (slots alloc.preservations).length
  len_le : (slots alloc.preservations).length ≤ 2 ^ 15
  top : slots alloc.preservations ≠ [] → (.preserve, initialPreservationIndex) ∈ handed
  phase : alloc.phase = .init ∨ alloc.phase = .alloc
  init : alloc.phase = .init →
    alloc.maxDynamic.toInt = alloc.lenLocals.toNat ∧ slots alloc.preservations = []

lemma Slots.effect {handed regs : List (RegisterSpace × Reg)} {op : AllocOp}
    (hslots : Slots slots alloc handed) (heffect : Effect slots op alloc alloc' regs) :
    Slots slots alloc' (handed ++ regs) := by
  have hmin := hslots.min_eq
  have hlen := hslots.len_le
  have htop := hslots.top
  have hkeep : slots alloc.preservations ≠ [] →
      (.preserve, initialPreservationIndex) ∈ handed ++ regs :=
    fun hne => List.mem_append_left regs (htop hne)
  cases heffect with
  | @locals amount _ lenLocals phase _ bound =>
    exact ⟨hmin, hlen, hkeep, hslots.phase,
      fun _ => ⟨toInt_toInt16 (by omega), (hslots.init phase).2⟩⟩
  | dynamic _ phase => exact ⟨hmin, hlen, hkeep, hslots.phase, by simp [phase]⟩
  | idle _ phase len _ max_eq min_eq slots_eq =>
    have hnil : slots alloc.preservations = [] ↔ slots alloc'.preservations = [] := by
      rw [← List.length_eq_zero_iff, ← List.length_eq_zero_iff, slots_eq]
    rw [← slots_eq] at hmin hlen
    rw [← min_eq] at hmin
    refine ⟨hmin, hlen, fun hne => hkeep (mt hnil.1 hne), ?_, fun hinit => ?_⟩
    · obtain hsame | halloc := phase
      · rw [hsame]
        exact hslots.phase
      · exact .inr halloc
    · obtain hsame | halloc := phase
      · obtain ⟨hmaxLen, hempty⟩ := hslots.init (hsame ▸ hinit)
        rw [max_eq, len]
        exact ⟨hmaxLen, hnil.1 hempty⟩
      · simp [halloc] at hinit
  | @preserve _ key preservations phase bound _ slot =>
    have hmark := toInt_min_preserve bound alloc.minPreserve
    obtain ⟨_, hlt, heq⟩ | ⟨_, hkey, heq⟩ := slot
    · refine ⟨?_, ?_, fun _ => hkeep fun hnil => ?_, hslots.phase, by simp [phase]⟩
      · show (min alloc.minPreserve _).toInt = 32766 - (slots preservations).length
        omega
      · show (slots preservations).length ≤ 2 ^ 15
        omega
      · rw [hnil] at hlt
        simp at hlt
    · refine ⟨?_, ?_, fun _ => ?_, hslots.phase, by simp [phase]⟩
      · show (min alloc.minPreserve _).toInt = 32766 - (slots preservations).length
        omega
      · show (slots preservations).length ≤ 2 ^ 15
        omega
      · by_cases hnil : slots alloc.preservations = []
        · have hzero : key = 0 := by rw [hkey, hnil]; rfl
          rw [hzero]
          exact List.mem_append_right _ (List.mem_singleton_self _)
        · exact hkeep hnil

/-- The region of the registers of each space. -/
def InRegion (alloc : RegisterAlloc σ) : RegisterSpace → Reg → Prop
  | .const, _ => False
  | .local, reg => 0 ≤ reg.toInt ∧ reg.toInt < alloc.lenLocals.toNat
  | .dynamic, reg => alloc.lenLocals.toNat ≤ reg.toInt ∧ reg.toInt < alloc.maxDynamic.toInt
  | .preserve, reg => alloc.minPreserve.toInt < reg.toInt ∧ reg.toInt ≤ 32766

/-- The registers handed out are in separate regions: the dynamic ones never reached the
preserved ones. -/
structure Apart (alloc : RegisterAlloc σ) (handed : List (RegisterSpace × Reg)) : Prop where
  locals : alloc.lenLocals.toNat < 32766
  min_next : alloc.lenLocals.toNat ≤ alloc.nextDynamic.toInt
  next_max : alloc.nextDynamic.toInt ≤ alloc.maxDynamic.toInt
  max_min : alloc.maxDynamic.toInt ≤ alloc.minPreserve.toInt
  min_top : alloc.minPreserve.toInt ≤ 32766
  handed : ∀ reg ∈ handed, InRegion alloc reg.1 reg.2

lemma toInt_minDynamic (hlen : alloc.lenLocals.toNat < 32766) :
    alloc.minDynamic.toInt = alloc.lenLocals.toNat :=
  toInt_toInt16 (by omega)

/-- The registers of a span that does not wrap. -/
lemma toInt_nextN (reg : Reg) {i : Nat} (hi : i < 2 ^ 15) (hsum : reg.toInt + i ≤ 32767) :
    (Reg.nextN reg i).toInt = reg.toInt + i := by
  have hofNat := toInt_ofNat_of_lt hi
  have hmem := toInt_mem reg
  rw [Reg.nextN, toInt_add_of_mem (by omega) (by omega), hofNat]

/-- The condition on an operation. A preserved register that takes a new slot needs room below the
highest dynamic register there was, or none below the current one. -/
def Guarded (slots : σ → List Nat) (alloc : RegisterAlloc σ) (op : AllocOp) : Prop :=
  op = .pushPreserved → 0 ∈ slots alloc.preservations ∨ alloc.maxDynamic < alloc.minPreserve ∨
    alloc.nextDynamic = alloc.minPreserve - 1

lemma InRegion.mono {space : RegisterSpace} {reg : Reg} (hreg : InRegion alloc space reg)
    (hlocals : alloc.lenLocals.toNat ≤ alloc'.lenLocals.toNat)
    (hdynamic : alloc.lenLocals.toNat = alloc'.lenLocals.toNat ∨
      alloc.maxDynamic.toInt = alloc.lenLocals.toNat)
    (hmax : alloc.maxDynamic.toInt ≤ alloc'.maxDynamic.toInt)
    (hmin : alloc'.minPreserve.toInt ≤ alloc.minPreserve.toInt) : InRegion alloc' space reg := by
  cases space with
  | const => exact hreg
  | «local» =>
    obtain ⟨hlow, hhigh⟩ := hreg
    exact ⟨hlow, by omega⟩
  | dynamic =>
    obtain ⟨hlow, hhigh⟩ := hreg
    exact ⟨by omega, by omega⟩
  | preserve =>
    obtain ⟨hlow, hhigh⟩ := hreg
    exact ⟨by omega, hhigh⟩

lemma Apart.effect {handed regs : List (RegisterSpace × Reg)} {op : AllocOp}
    (hslots : Slots slots alloc handed) (hapart : Apart alloc handed)
    (hguard : Guarded slots alloc op) (heffect : Effect slots op alloc alloc' regs) :
    Apart alloc' (handed ++ regs) := by
  obtain ⟨hlocals, hnext, hmax, hmin, htop, hhanded⟩ := hapart
  have hlen := toInt_minDynamic hlocals
  cases heffect with
  | @locals amount _ lenLocals phase len bound =>
    obtain ⟨hmaxLen, hempty⟩ := hslots.init phase
    have hminTop := hslots.min_eq
    rw [hempty] at hminTop
    have hnew := toInt_toInt16 (x := lenLocals) (by omega)
    refine ⟨bound, ?_, Int.le_refl _, ?_, htop, fun reg hreg => ?_⟩
    · show (lenLocals.toNat : Int) ≤ lenLocals.toInt16.toInt
      omega
    · show lenLocals.toInt16.toInt ≤ alloc.minPreserve.toInt
      rw [hminTop, hnew]
      show (lenLocals.toNat : Int) ≤ 32766
      omega
    · obtain hold | hadded := List.mem_append.1 hreg
      · refine (hhanded reg hold).mono ?_ (.inr hmaxLen) ?_ (Int.le_refl _)
        · show alloc.lenLocals.toNat ≤ lenLocals.toNat
          omega
        · show alloc.maxDynamic.toInt ≤ lenLocals.toInt16.toInt
          omega
      · obtain ⟨i, hi, rfl⟩ := List.mem_map.1 hadded
        have hi := List.mem_range.1 hi
        have hreg := toInt_nextN alloc.minDynamic (i := i) (by omega) (by omega)
        show 0 ≤ (Reg.nextN alloc.minDynamic i).toInt ∧
          (Reg.nextN alloc.minDynamic i).toInt < lenLocals.toNat
        omega
  | idle _ _ len next max_eq min_eq _ =>
    rw [hlen] at next
    obtain ⟨hlow, hhigh⟩ := next hnext
    rw [← len] at hlocals hlow
    rw [← max_eq] at hmax hmin
    rw [← min_eq] at hmin htop
    refine ⟨hlocals, hlow, ?_, hmin, htop, fun reg hreg => ?_⟩
    · omega
    · rw [List.append_nil] at hreg
      have hlenLocals := congrArg UInt16.toNat len
      have hmaxDynamic := congrArg Int16.toInt max_eq
      have hminPreserve := congrArg Int16.toInt min_eq
      exact (hhanded reg hreg).mono (by omega) (.inl hlenLocals.symm) (by omega) (by omega)
  | @dynamic op _ n _ _ bound room =>
    have hroom := room (by omega)
    have hofNat := toInt_ofNat_of_lt bound
    have hsum : (alloc.nextDynamic + Int16.ofNat n).toInt = alloc.nextDynamic.toInt + n := by
      rw [toInt_add_of_mem (by omega) (by omega), hofNat]
    have hnewMax := toInt_max alloc.maxDynamic (alloc.nextDynamic + Int16.ofNat n)
    refine ⟨hlocals, ?_, ?_, ?_, htop, fun reg hreg => ?_⟩
    · show (alloc.lenLocals.toNat : Int) ≤ (alloc.nextDynamic + Int16.ofNat n).toInt
      omega
    · show (alloc.nextDynamic + Int16.ofNat n).toInt ≤ (max alloc.maxDynamic _).toInt
      omega
    · show (max alloc.maxDynamic _).toInt ≤ alloc.minPreserve.toInt
      omega
    · obtain hold | hadded := List.mem_append.1 hreg
      · refine (hhanded reg hold).mono (Nat.le_refl _) (.inl rfl) ?_ (Int.le_refl _)
        show alloc.maxDynamic.toInt ≤ (max alloc.maxDynamic _).toInt
        omega
      · obtain ⟨i, hi, rfl⟩ := List.mem_map.1 hadded
        have hi := List.mem_range.1 hi
        have hreg := toInt_nextN alloc.nextDynamic (i := i) (by omega) (by omega)
        show (alloc.lenLocals.toNat : Int) ≤ (Reg.nextN alloc.nextDynamic i).toInt ∧
          (Reg.nextN alloc.nextDynamic i).toInt < (max alloc.maxDynamic _).toInt
        omega
  | @preserve _ key preservations _ bound free slot =>
    have hmark := toInt_min_preserve bound alloc.minPreserve
    have hindex := toInt_preserve bound
    have hlenSlots := hslots.min_eq
    have hroom : alloc.maxDynamic.toInt ≤
        (min alloc.minPreserve (Reg.prev (initialPreservationIndex - Int16.ofNat key))).toInt := by
      obtain ⟨_, hlt, _⟩ | ⟨hfull, hkey, _⟩ := slot
      · omega
      · obtain hvacant | hlt | heq := hguard rfl
        · exact absurd hvacant hfull
        · have hlt := Int16.lt_iff_toInt_lt.1 hlt
          omega
        · have hone : (1 : Int16).toInt = 1 := rfl
          have hne := mt Int16.toInt_inj.1 free
          have hpred := congrArg Int16.toInt heq
          rw [toInt_sub_of_mem (by omega) (by omega)] at hpred
          omega
    refine ⟨hlocals, hnext, hmax, hroom, ?_, fun reg hreg => ?_⟩
    · show (min alloc.minPreserve _).toInt ≤ 32766
      omega
    · obtain hold | hadded := List.mem_append.1 hreg
      · refine (hhanded reg hold).mono (Nat.le_refl _) (.inl rfl) (Int.le_refl _) ?_
        show (min alloc.minPreserve _).toInt ≤ alloc.minPreserve.toInt
        omega
      · rw [List.mem_singleton.1 hadded]
        show (min alloc.minPreserve _).toInt < (initialPreservationIndex - Int16.ofNat key).toInt ∧
          (initialPreservationIndex - Int16.ofNat key).toInt ≤ 32766
        omega

/-- The dynamic registers went past a preserved one. -/
def Crossed (alloc : RegisterAlloc σ) : Prop :=
  alloc.minPreserve.toInt < alloc.maxDynamic.toInt ∧ alloc.minPreserve.toInt < 32766

/-- The marks only move towards each other. -/
lemma Effect.crossed {handed regs : List (RegisterSpace × Reg)} {op : AllocOp}
    (hslots : Slots slots alloc handed) (heffect : Effect slots op alloc alloc' regs)
    (hcrossed : alloc.Crossed) : alloc'.Crossed := by
  obtain ⟨hlt, htop⟩ := hcrossed
  cases heffect with
  | @locals amount _ lenLocals phase len bound =>
    obtain ⟨hmaxLen, _⟩ := hslots.init phase
    have hnew := toInt_toInt16 (x := lenLocals) (by omega)
    refine ⟨?_, htop⟩
    show alloc.minPreserve.toInt < lenLocals.toInt16.toInt
    omega
  | idle _ _ _ _ max_eq min_eq _ =>
    rw [← max_eq, ← min_eq] at hlt
    rw [← min_eq] at htop
    exact ⟨hlt, htop⟩
  | @dynamic op _ n _ _ _ _ =>
    have hnewMax := toInt_max alloc.maxDynamic (alloc.nextDynamic + Int16.ofNat n)
    refine ⟨?_, htop⟩
    show alloc.minPreserve.toInt < (max alloc.maxDynamic _).toInt
    omega
  | @preserve _ key preservations _ bound _ _ =>
    have hmark := toInt_min_preserve bound alloc.minPreserve
    show (min alloc.minPreserve _).toInt < alloc.maxDynamic.toInt ∧
      (min alloc.minPreserve _).toInt < 32766
    omega

/-- An operation that is not guarded and succeeds takes the mark past the dynamic registers. -/
lemma Effect.crosses {handed regs : List (RegisterSpace × Reg)} {op : AllocOp}
    (hslots : Slots slots alloc handed) (heffect : Effect slots op alloc alloc' regs)
    (hguard : ¬Guarded slots alloc op) : alloc'.Crossed := by
  simp only [Guarded, not_forall, not_or, Int16.lt_iff_toInt_lt] at hguard
  obtain ⟨hop, hfull, hroom, _⟩ := hguard
  cases heffect with
  | locals => simp at hop
  | idle op_ne => exact absurd hop op_ne
  | dynamic op_ne => exact absurd hop op_ne
  | @preserve _ key preservations _ bound _ slot =>
    have hmark := toInt_min_preserve bound alloc.minPreserve
    have hmin := hslots.min_eq
    obtain ⟨hvacant, _⟩ | ⟨_, hkey, _⟩ := slot
    · exact absurd hvacant hfull
    · show (min alloc.minPreserve _).toInt < alloc.maxDynamic.toInt ∧
        (min alloc.minPreserve _).toInt < 32766
      omega

/-! ## Sequences of operations -/

/-- Every operation of the sequence is guarded in the state that it is performed in. -/
def GuardedRun (stash : MultiStash σ) (slots : σ → List Nat) :
    RegisterAlloc σ → List AllocOp → Prop
  | _, [] => True
  | alloc, op :: ops =>
    Guarded slots alloc op ∧
      ∀ alloc' regs, alloc.apply stash op = .ok (alloc', regs) → GuardedRun stash slots alloc' ops

lemma run_cons_eq_ok {op : AllocOp} {ops : List AllocOp} {regs : List (RegisterSpace × Reg)} :
    alloc.run stash (op :: ops) = .ok (alloc', regs) ↔
      ∃ mid first rest, alloc.apply stash op = .ok (mid, first) ∧
        mid.run stash ops = .ok (alloc', rest) ∧ first ++ rest = regs := by
  rw [run, bind_eq_ok]
  constructor
  · intro hrun
    obtain ⟨⟨mid, first⟩, happly, hrun⟩ := hrun
    obtain ⟨⟨final, rest⟩, hrest, hrun⟩ := bind_eq_ok.1 hrun
    obtain ⟨rfl, rfl⟩ := Prod.mk.inj (Except.ok.inj hrun)
    exact ⟨mid, first, rest, happly, hrest, rfl⟩
  · intro hrun
    obtain ⟨mid, first, rest, happly, hrest, rfl⟩ := hrun
    exact ⟨(mid, first), happly, bind_eq_ok.2 ⟨(alloc', rest), hrest, rfl⟩⟩

lemma reset_slots (h : stash.Lawful slots) (alloc : RegisterAlloc σ) :
    Slots slots (alloc.reset stash) [] := by
  have hslots : slots (alloc.reset stash).preservations = [] := h.clear alloc.preservations
  refine ⟨?_, ?_, fun hne => absurd hslots hne, .inl rfl, fun _ => ⟨rfl, hslots⟩⟩
  · rw [hslots]
    rfl
  · rw [hslots]
    exact Nat.zero_le _

lemma reset_apart (alloc : RegisterAlloc σ) : Apart (alloc.reset stash) [] :=
  ⟨by show 0 < 32766; decide, Int.le_refl _, Int.le_refl _, by show (0 : Int) ≤ 32766; decide,
    Int.le_refl _, by simp⟩

/-- What holds at the end of a sequence of operations that succeeds. -/
lemma run_slots (h : stash.Lawful slots) {ops : List AllocOp}
    {handed regs : List (RegisterSpace × Reg)} (hrun : alloc.run stash ops = .ok (alloc', regs))
    (hslots : Slots slots alloc handed) : Slots slots alloc' (handed ++ regs) := by
  induction ops generalizing alloc handed regs with
  | nil =>
    obtain ⟨rfl, rfl⟩ := Prod.mk.inj (Except.ok.inj hrun)
    rwa [List.append_nil]
  | cons op ops ih =>
    obtain ⟨mid, first, rest, happly, hrest, rfl⟩ := run_cons_eq_ok.1 hrun
    rw [← List.append_assoc]
    exact ih hrest (hslots.effect (apply_effect h happly))

lemma run_apart (h : stash.Lawful slots) {ops : List AllocOp}
    {handed regs : List (RegisterSpace × Reg)} (hrun : alloc.run stash ops = .ok (alloc', regs))
    (hguard : GuardedRun stash slots alloc ops) (hslots : Slots slots alloc handed)
    (hapart : Apart alloc handed) : Apart alloc' (handed ++ regs) := by
  induction ops generalizing alloc handed regs with
  | nil =>
    obtain ⟨rfl, rfl⟩ := Prod.mk.inj (Except.ok.inj hrun)
    rwa [List.append_nil]
  | cons op ops ih =>
    obtain ⟨mid, first, rest, happly, hrest, rfl⟩ := run_cons_eq_ok.1 hrun
    have heffect := apply_effect h happly
    rw [← List.append_assoc]
    exact ih hrest (hguard.2 mid first happly) (hslots.effect heffect)
      (hapart.effect hslots hguard.1 heffect)

lemma run_crossed (h : stash.Lawful slots) {ops : List AllocOp}
    {handed regs : List (RegisterSpace × Reg)} (hrun : alloc.run stash ops = .ok (alloc', regs))
    (hslots : Slots slots alloc handed) (hcrossed : alloc.Crossed) : alloc'.Crossed := by
  induction ops generalizing alloc handed regs with
  | nil =>
    obtain ⟨rfl, rfl⟩ := Prod.mk.inj (Except.ok.inj hrun)
    exact hcrossed
  | cons op ops ih =>
    obtain ⟨mid, first, rest, happly, hrest, rfl⟩ := run_cons_eq_ok.1 hrun
    have heffect := apply_effect h happly
    exact ih hrest (hslots.effect heffect) (heffect.crossed hslots hcrossed)

lemma run_crosses (h : stash.Lawful slots) {ops : List AllocOp}
    {handed regs : List (RegisterSpace × Reg)} (hrun : alloc.run stash ops = .ok (alloc', regs))
    (hslots : Slots slots alloc handed) (hguard : ¬GuardedRun stash slots alloc ops) :
    alloc'.Crossed := by
  induction ops generalizing alloc handed regs with
  | nil => exact absurd trivial hguard
  | cons op ops ih =>
    obtain ⟨mid, first, rest, happly, hrest, rfl⟩ := run_cons_eq_ok.1 hrun
    have heffect := apply_effect h happly
    have hmid := hslots.effect heffect
    by_cases hop : Guarded slots alloc op
    · refine ih hrest hmid fun hrestGuard => hguard ⟨hop, fun mid' first' happly' => ?_⟩
      rw [happly] at happly'
      obtain ⟨rfl, rfl⟩ := Prod.mk.inj (Except.ok.inj happly')
      exact hrestGuard
    · exact run_crossed h hrest hmid (heffect.crosses hslots hop)

/-! ## The finalized allocator -/

/-- What the finalized allocator has to do with the registers that were handed out. -/
structure Defragments (final : RegisterAlloc σ) (handed : List (RegisterSpace × Reg)) : Prop where
  injective : ∀ reg ∈ handed, ∀ reg' ∈ handed, ∀ moved,
    final.defragRegister reg.2 = .ok moved → final.defragRegister reg'.2 = .ok moved → reg = reg'
  fixes : ∀ reg ∈ handed, reg.1 ≠ .preserve → final.defragRegister reg.2 = .ok reg.2
  into : ∀ reg ∈ handed, ∃ moved, final.defragRegister reg.2 = .ok moved ∧
    0 ≤ moved.toInt ∧ moved.toInt < final.lenRegisters.toNat

variable {final : RegisterAlloc σ} {handed : List (RegisterSpace × Reg)}

lemma finalizeAlloc_eq_ok (hfinal : alloc.finalizeAlloc = .ok final) :
    alloc.phase = .alloc ∧ final = { alloc with
      phase := .defrag
      defragOffset := saturatingAdd (alloc.minPreserve - alloc.maxDynamic) 1 } := by
  unfold finalizeAlloc at hfinal
  split at hfinal
  case isTrue hphase => exact ⟨hphase, (Except.ok.inj hfinal).symm⟩
  case isFalse => simp at hfinal

lemma defragRegister_finalize (hfinal : alloc.finalizeAlloc = .ok final) (reg : Reg) :
    final.defragRegister reg = .ok (if alloc.minPreserve.toInt < reg.toInt then
      reg - saturatingAdd (alloc.minPreserve - alloc.maxDynamic) 1 else reg) := by
  rw [(finalizeAlloc_eq_ok hfinal).2]
  show Except.ok (if decide (alloc.minPreserve < reg) = true then _ else _) = _
  simp only [decide_eq_true_eq, Int16.lt_iff_toInt_lt]

/-- The register that a register is moved to. -/
lemma Apart.moved (hapart : Apart alloc handed) (hfinal : alloc.finalizeAlloc = .ok final)
    (reg : RegisterSpace × Reg) (hreg : reg ∈ handed) :
    ∃ moved, final.defragRegister reg.2 = .ok moved ∧
      moved.toInt = reg.2.toInt - (if reg.1 = .preserve then
        alloc.minPreserve.toInt - alloc.maxDynamic.toInt + 1 else 0) := by
  obtain ⟨hlocals, hnext, hmax, hmin, htop, hhanded⟩ := hapart
  have hregion := hhanded reg hreg
  obtain ⟨space, reg⟩ := reg
  rw [defragRegister_finalize hfinal]
  cases space with
  | const => exact absurd hregion id
  | «local» | dynamic =>
    obtain ⟨hlow, hhigh⟩ := hregion
    rw [if_neg (by omega)]
    exact ⟨reg, rfl, by simp⟩
  | preserve =>
    obtain ⟨hlow, hhigh⟩ := hregion
    dsimp only at hlow hhigh
    have hdiff : (alloc.minPreserve - alloc.maxDynamic).toInt =
        alloc.minPreserve.toInt - alloc.maxDynamic.toInt :=
      toInt_sub_of_mem (by omega) (by omega)
    have hoffset : (saturatingAdd (alloc.minPreserve - alloc.maxDynamic) 1).toInt =
        alloc.minPreserve.toInt - alloc.maxDynamic.toInt + 1 := by
      rw [toInt_saturatingAdd, hdiff]
      show max (-32768) (min 32767 (_ + 1)) = _
      omega
    refine ⟨reg - saturatingAdd (alloc.minPreserve - alloc.maxDynamic) 1, ?_, ?_⟩
    · rw [if_pos hlow]
    · rw [toInt_sub_of_mem (by omega) (by omega), hoffset]
      rfl

lemma toNat_lenRegisters (hfinal : alloc.finalizeAlloc = .ok final)
    (hdiff : (alloc.maxDynamic.toInt - alloc.minPreserve.toInt).natAbs ≤ 32766) :
    final.lenRegisters.toNat =
      32766 - (alloc.maxDynamic.toInt - alloc.minPreserve.toInt).natAbs := by
  have habs := toNat_absDiff alloc.maxDynamic alloc.minPreserve
  rw [(finalizeAlloc_eq_ok hfinal).2]
  show (maxLenLocals - absDiff alloc.maxDynamic alloc.minPreserve).toNat = _
  rw [UInt16.toNat_sub_of_le, habs]
  · rfl
  · rw [UInt16.le_iff_toNat_le, habs]
    exact hdiff

lemma Apart.defragments (hapart : Apart alloc handed) (hfinal : alloc.finalizeAlloc = .ok final) :
    Defragments final handed := by
  have hmoved := hapart.moved hfinal
  obtain ⟨hlocals, hnext, hmax, hmin, htop, hhanded⟩ := hapart
  refine ⟨fun reg hreg reg' hreg' moved hto hto' => ?_, fun reg hreg hspace => ?_,
    fun reg hreg => ?_⟩
  · -- the three regions move to three regions that are next to each other
    obtain ⟨_, hmove, hint⟩ := hmoved reg hreg
    obtain ⟨_, hmove', hint'⟩ := hmoved reg' hreg'
    obtain rfl := Except.ok.inj (hmove.symm.trans hto)
    obtain rfl := Except.ok.inj (hmove'.symm.trans hto')
    have hregion := hhanded reg hreg
    have hregion' := hhanded reg' hreg'
    obtain ⟨space, reg⟩ := reg
    obtain ⟨space', reg'⟩ := reg'
    suffices h : space = space' ∧ reg.toInt = reg'.toInt by
      rw [h.1, Int16.toInt_inj.1 h.2]
    cases space <;> cases space' <;>
      simp only [InRegion, reduceCtorEq, ↓reduceIte, true_and, false_and] at * <;> omega
  · obtain ⟨moved, hmove, hint⟩ := hmoved reg hreg
    rw [if_neg hspace, Int.sub_zero] at hint
    rw [hmove, Int16.toInt_inj.1 hint]
  · obtain ⟨moved, hmove, hint⟩ := hmoved reg hreg
    have hlen := toNat_lenRegisters hfinal (by omega)
    have hregion := hhanded reg hreg
    refine ⟨moved, hmove, ?_⟩
    obtain ⟨space, reg⟩ := reg
    cases space <;> simp only [InRegion, reduceCtorEq, ↓reduceIte] at * <;> omega

/-- The highest preserved register is not moved into the frame. -/
lemma Crossed.top_outside (hcrossed : alloc.Crossed) (hslots : Slots slots alloc handed)
    (hfinal : alloc.finalizeAlloc = .ok final) :
    (.preserve, initialPreservationIndex) ∈ handed ∧
      ∀ moved, final.defragRegister initialPreservationIndex = .ok moved → 0 ≤ moved.toInt →
        ¬moved.toInt < final.lenRegisters.toNat := by
  obtain ⟨hlt, htop⟩ := hcrossed
  have hmin := hslots.min_eq
  have hlen := hslots.len_le
  have hne : slots alloc.preservations ≠ [] := by
    intro hnil
    rw [hnil] at hmin
    simp only [List.length_nil] at hmin
    omega
  refine ⟨hslots.top hne, fun moved hmove hlow hhigh => ?_⟩
  have hmaxMem := toInt_mem alloc.maxDynamic
  have hmovedMem := toInt_mem moved
  rw [defragRegister_finalize hfinal, if_pos (by show _ < (32766 : Int); omega)] at hmove
  have hmoved := congrArg Int16.toInt (Except.ok.inj hmove)
  have hoffset : (saturatingAdd (alloc.minPreserve - alloc.maxDynamic) 1).toInt =
      max (-32768) (min 32767 ((alloc.minPreserve - alloc.maxDynamic).toInt + 1)) :=
    toInt_saturatingAdd _ 1
  rw [Int16.toInt_sub, show Int16.toInt initialPreservationIndex = 32766 from rfl,
    Int.bmod_def] at hmoved
  by_cases hwrap : alloc.minPreserve.toInt - alloc.maxDynamic.toInt < -32768
  · rw [Int16.toInt_sub alloc.minPreserve, Int.bmod_def] at hoffset
    split at hmoved <;> split at hoffset <;> omega
  · rw [toInt_sub_of_mem (by omega) (by omega)] at hoffset
    by_cases hfar : (alloc.maxDynamic.toInt - alloc.minPreserve.toInt).natAbs ≤ 32766
    · rw [toNat_lenRegisters hfinal hfar] at hhigh
      split at hmoved <;> omega
    · split at hmoved <;> omega

lemma Crossed.not_defragments (hcrossed : alloc.Crossed) (hslots : Slots slots alloc handed)
    (hfinal : alloc.finalizeAlloc = .ok final) : ¬Defragments final handed := by
  intro hdefrag
  obtain ⟨htop, hout⟩ := hcrossed.top_outside hslots hfinal
  obtain ⟨moved, hmove, hlow, hhigh⟩ := hdefrag.into _ htop
  exact hout moved hmove hlow hhigh

/-! ## The regions meet -/

/-- With the registers that the operation asks for, the highest dynamic register there was would be
past the lowest preserved one. -/
def WouldMeet (slots : σ → List Nat) (alloc : RegisterAlloc σ) : AllocOp → Prop
  | .registerLocals amount =>
    alloc.phase = .init ∧ alloc.minPreserve.toInt < alloc.lenLocals.toNat + amount.toNat
  | .pushDynamic => alloc.phase = .alloc ∧ alloc.minPreserve.toInt < alloc.nextDynamic.toInt + 1
  | .pushDynamicN n => alloc.phase = .alloc ∧ alloc.minPreserve.toInt < alloc.nextDynamic.toInt + n
  | .pushPreserved =>
    alloc.phase = .alloc ∧ 0 ∉ slots alloc.preservations ∧
      alloc.minPreserve.toInt - 1 < alloc.maxDynamic.toInt
  | _ => False

lemma registerLocals_tooMany {amount : UInt32} (hphase : alloc.phase = .init)
    (hmany : 32766 < alloc.lenLocals.toNat + amount.toNat) :
    alloc.registerLocals amount = .error (.error .allocatedTooManyRegisters) := by
  have hnone : bumpLocals alloc.lenLocals amount = none := by
    unfold bumpLocals
    split
    case isFalse => rfl
    case isTrue hfits =>
      refine if_pos (UInt16.le_iff_toNat_le.2 ?_)
      rw [UInt16.toNat_add, UInt32.toNat_toUInt16]
      show 32766 ≤ _
      omega
  rw [registerLocals, if_pos hphase, hnone]

lemma pushDynamic_tooMany (hphase : alloc.phase = .alloc)
    (heq : alloc.nextDynamic = alloc.minPreserve) :
    alloc.pushDynamic = .error (.error .allocatedTooManyRegisters) := by
  rw [pushDynamic, assertAllocPhase_of hphase]
  show (if _ then _ else _) = _
  rw [if_pos heq]

lemma pushDynamicN_tooMany {n : Nat} (hphase : alloc.phase = .alloc)
    (hmany : alloc.minPreserve.toInt ≤ alloc.nextDynamic.toInt + n) :
    alloc.pushDynamicN n = .error (.error .allocatedTooManyRegisters) := by
  rw [pushDynamicN, assertAllocPhase_of hphase]
  show (if _ then _ else _) = _
  split
  case isFalse => rfl
  case isTrue hfits =>
    refine if_pos (Int16.le_iff_toInt_le.2 ?_)
    have hn := toInt_ofNat_of_lt hfits.1
    have hmem := toInt_mem alloc.nextDynamic
    rw [toInt_add_of_mem (by omega) (by omega), hn]
    exact hmany

/-- A preserved register at a key that has a register. -/
lemma pushPreserved_of_key {key : Nat} {preservations : σ} (hphase : alloc.phase = .alloc)
    (hput : stash.put alloc.preservations 2 = (key, preservations)) (hkey : key < 2 ^ 15) :
    alloc.pushPreserved stash =
      (updateMinPreserved { alloc with preservations, removedPreserved := [] }
        (Reg.prev (initialPreservationIndex - Int16.ofNat key)) >>= fun alloc =>
          .ok (initialPreservationIndex - Int16.ofNat key, alloc)) := by
  have hkey2reg : key2reg key = .ok (initialPreservationIndex - Int16.ofNat key) := if_pos hkey
  rw [pushPreserved, assertAllocPhase_of hphase, hput]
  generalize initialPreservationIndex - Int16.ofNat key = reg at hkey2reg ⊢
  rw [ok_bind]
  dsimp only
  rw [hkey2reg, ok_bind]
  rfl

/-- A preserved register that takes a new slot is refused iff the dynamic registers in use end right
below it. -/
lemma pushPreserved_full (h : stash.Lawful slots) (hslots : Slots slots alloc handed)
    (hphase : alloc.phase = .alloc) (hfull : 0 ∉ slots alloc.preservations)
    (hroom : 0 ≤ alloc.minPreserve.toInt) :
    alloc.pushPreserved stash = .error (.error .allocatedTooManyRegisters) ↔
      alloc.nextDynamic = alloc.minPreserve - 1 := by
  have hmin := hslots.min_eq
  obtain ⟨hkey, _⟩ := h.put_full alloc.preservations 2 (by decide) hfull
  obtain ⟨key, preservations, hput⟩ : ∃ key preservations,
      stash.put alloc.preservations 2 = (key, preservations) := ⟨_, _, rfl⟩
  rw [hput] at hkey
  have hbound : key < 2 ^ 15 := by omega
  have hmark : min alloc.minPreserve (Reg.prev (initialPreservationIndex - Int16.ofNat key)) =
      alloc.minPreserve - 1 := by
    have hone : (1 : Int16).toInt = 1 := rfl
    have hint := toInt_min_preserve hbound alloc.minPreserve
    rw [← Int16.toInt_inj, hint, toInt_sub_of_mem (by omega) (by omega)]
    omega
  rw [pushPreserved_of_key hphase hput hbound, updateMinPreserved]
  dsimp only
  rw [hmark]
  by_cases heq : alloc.nextDynamic = alloc.minPreserve - 1
  · rw [if_pos heq]
    exact iff_of_true rfl heq
  · rw [if_neg heq]
    exact iff_of_false (fun hok => nomatch hok) heq

lemma apply_pushPreserved_error {e : Failure} :
    alloc.apply stash .pushPreserved = .error e ↔ alloc.pushPreserved stash = .error e := by
  rw [apply]
  cases alloc.pushPreserved stash with
  | ok res =>
    refine iff_of_false (fun hok => ?_) (fun hok => ?_)
    · cases hok
    · cases hok
  | error e' =>
    show Except.error e' = Except.error e ↔ Except.error e' = Except.error e
    simp

/-- With the registers in separate regions, an operation is guarded iff it fails in case the regions
would meet. -/
lemma Apart.fails_iff (h : stash.Lawful slots) (hslots : Slots slots alloc handed)
    (hapart : Apart alloc handed) (op : AllocOp) :
    (WouldMeet slots alloc op →
      alloc.apply stash op = .error (.error .allocatedTooManyRegisters)) ↔
      Guarded slots alloc op := by
  obtain ⟨hlocals, hnext, hmax, hmin, htop, _⟩ := hapart
  cases op with
  | registerLocals amount =>
    refine iff_of_true (fun hmeet => ?_) (by simp [Guarded])
    obtain ⟨hphase, hmany⟩ := hmeet
    have htop := hslots.min_eq
    rw [(hslots.init hphase).2] at htop
    simp only [List.length_nil] at htop
    rw [apply, registerLocals_tooMany hphase (by omega)]
    rfl
  | pushDynamic =>
    refine iff_of_true (fun hmeet => ?_) (by simp [Guarded])
    obtain ⟨hphase, hmany⟩ := hmeet
    rw [apply, pushDynamic_tooMany hphase (Int16.toInt_inj.1 (by omega))]
    rfl
  | pushDynamicN n =>
    refine iff_of_true (fun hmeet => ?_) (by simp [Guarded])
    obtain ⟨hphase, hmany⟩ := hmeet
    rw [apply, pushDynamicN_tooMany hphase (by omega)]
    rfl
  | pushPreserved =>
    have hmarks := Int16.lt_iff_toInt_lt (x := alloc.maxDynamic) (y := alloc.minPreserve)
    by_cases hmeet : WouldMeet slots alloc .pushPreserved
    · obtain ⟨hphase, hfull, hlt⟩ := hmeet
      rw [apply_pushPreserved_error, pushPreserved_full h hslots hphase hfull (by omega)]
      constructor
      · intro heq _
        exact .inr (.inr (heq ⟨hphase, hfull, hlt⟩))
      · intro hguard _
        obtain hvacant | hlow | heq := hguard rfl
        · exact absurd hvacant hfull
        · have hlow := hmarks.1 hlow
          omega
        · exact heq
    · refine iff_of_true (fun hmeet' => absurd hmeet' hmeet) fun _ => ?_
      by_cases hvacant : 0 ∈ slots alloc.preservations
      · exact .inl hvacant
      · refine .inr (.inl (hmarks.2 ?_))
        obtain hphase | hphase := hslots.phase
        · obtain ⟨hmaxLen, hempty⟩ := hslots.init hphase
          have htop : alloc.minPreserve.toInt = 32766 := by
            rw [hslots.min_eq, hempty]
            rfl
          rw [hmaxLen, htop]
          omega
        · have hlow : ¬alloc.minPreserve.toInt - 1 < alloc.maxDynamic.toInt :=
            fun hlt => hmeet ⟨hphase, hvacant, hlt⟩
          omega
  | _ => exact iff_of_true (fun hmeet => hmeet.elim) (by simp [Guarded])

/-- The registers that a sequence of operations hands out are defragmented iff every operation of
the sequence is guarded; and after guarded operations an operation fails where the regions would
meet iff it is guarded as well. -/
theorem defragments_iff (h : stash.Lawful slots) {start : RegisterAlloc σ} {ops : List AllocOp}
    (hrun : (start.reset stash).run stash ops = .ok (alloc, handed)) :
    (∀ final, alloc.finalizeAlloc = .ok final →
      (Defragments final handed ↔ GuardedRun stash slots (start.reset stash) ops)) ∧
    (GuardedRun stash slots (start.reset stash) ops → ∀ op,
      (WouldMeet slots alloc op →
        alloc.apply stash op = .error (.error .allocatedTooManyRegisters)) ↔
        Guarded slots alloc op) := by
  have hreset := reset_slots h start
  have hslots : Slots slots alloc handed := run_slots h hrun hreset
  have hapart : GuardedRun stash slots (start.reset stash) ops → Apart alloc handed :=
    fun hguard => run_apart h hrun hguard hreset (reset_apart start)
  refine ⟨fun final hfinal => ⟨fun hdefrag => ?_, fun hguard => (hapart hguard).defragments hfinal⟩,
    fun hguard op => (hapart hguard).fails_iff h hslots op⟩
  by_contra hguard
  exact (run_crosses h hrun hreset hguard).not_defragments hslots hfinal hdefrag

/-! ## A stash -/

/-- The stash that reuses the first vacant slot. -/
def firstVacant : MultiStash (List Nat) where
  clear _ := []
  put slots amount :=
    if 0 ∈ slots then (slots.idxOf 0, slots.set (slots.idxOf 0) amount)
    else (slots.length, slots ++ [amount])
  get slots key := slots[key]?.filter (0 < ·)
  takeAll slots key := slots.set key 0
  takeOne slots key := (slots[key]?.filter (0 < ·)).map fun n => slots.set key (n - 1)
  bump slots key amount :=
    ((slots[key]?.filter (0 < ·)).map fun n => slots.set key (n + amount)).getD slots

lemma firstVacant_lawful : firstVacant.Lawful id where
  clear _ := rfl
  put_vacant slots amount _ hvacant := by
    have hput : firstVacant.put slots amount =
        (slots.idxOf 0, slots.set (slots.idxOf 0) amount) := if_pos hvacant
    rw [hput]
    exact ⟨List.getElem?_idxOf hvacant, rfl⟩
  put_full slots amount _ hfull := by
    have hput : firstVacant.put slots amount = (slots.length, slots ++ [amount]) := if_neg hfull
    rw [hput]
    exact ⟨rfl, rfl⟩
  get _ _ := rfl
  takeAll _ _ := rfl
  takeOne _ _ := by simp [firstVacant]
  bump _ _ _ := rfl

/-- An allocator in no particular state. -/
def blank : RegisterAlloc (List Nat) := ⟨[], [], .init, 0, 0, 0, 0, 0⟩

/-- A sequence in which a slot is freed and reused, and dynamic registers are popped. -/
def reusing : List AllocOp :=
  [.registerLocals 1, .finishRegisterLocals, .pushDynamic, .pushPreserved,
    .popProvider (.preserved 32766), .gcPreservations, .pushPreserved, .pushPreserved,
    .popProvider (.dynamic 1), .pushDynamicN 2]

theorem defragments_iff_reusing :
    ∃ alloc handed, (blank.reset firstVacant).run firstVacant reusing = .ok (alloc, handed) ∧
      (∀ final, alloc.finalizeAlloc = .ok final →
        (Defragments final handed ↔
          GuardedRun firstVacant id (blank.reset firstVacant) reusing)) ∧
      (GuardedRun firstVacant id (blank.reset firstVacant) reusing → ∀ op,
        (WouldMeet id alloc op →
          alloc.apply firstVacant op = .error (.error .allocatedTooManyRegisters)) ↔
          Guarded id alloc op) :=
  ⟨_, _, rfl, defragments_iff firstVacant_lawful rfl⟩

/-- The dynamic registers take every index below the preserved ones, and a preserved register is
still handed out: the registers are not moved into the frame. -/
theorem not_defragments_full :
    ∃ alloc handed final, (blank.reset firstVacant).run firstVacant
        [.registerLocals 0, .finishRegisterLocals, .pushDynamicN 32765, .pushDynamic,
          .pushPreserved] = .ok (alloc, handed) ∧
      alloc.finalizeAlloc = .ok final ∧ ¬Defragments final handed := by
  have hrun : (blank.reset firstVacant).run firstVacant
      [.registerLocals 0, .finishRegisterLocals, .pushDynamicN 32765, .pushDynamic,
        .pushPreserved] = .ok (⟨[2], [], .alloc, 0, 32766, 32766, 32765, 0⟩, _) := rfl
  have hslots := run_slots firstVacant_lawful hrun (reset_slots firstVacant_lawful blank)
  rw [List.nil_append] at hslots
  have hcrossed : Crossed (⟨[2], [], .alloc, 0, 32766, 32766, 32765, 0⟩ :
      RegisterAlloc (List Nat)) := ⟨by decide, by decide⟩
  exact ⟨_, _, _, hrun, rfl, hcrossed.not_defragments hslots rfl⟩

end RegisterAlloc

end MotokoDebugger.Translator
