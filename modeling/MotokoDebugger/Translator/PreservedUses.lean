import Mathlib.Data.Finset.Card
import MotokoDebugger.Lib.RefCounts
import MotokoDebugger.Lib.Runs
import MotokoDebugger.Translator.Preservation
import MotokoDebugger.Translator.ValueStack

/-!
# The use of preserved registers

A preserved register must not be handed out again as long as something refers to it.

* `useCount`: the uses that the allocator counts of a register.
* `StackRefs`, `Live`: what refers to registers, and what holds as long as the dynamic and the
  preserved registers do not meet.
* `Live.allocate`, `acquire`, `release`, `collect`: the operations of the allocator.
* `Live.preserveN`, `Live.preserveSteps`: the preservation of locals.
-/

namespace MotokoDebugger.Translator

open Fallible Index16 RefCounts

namespace RegisterAlloc

variable {σ : Type} {stash : MultiStash σ} {slots : σ → List Nat} {alloc alloc' : RegisterAlloc σ}
  {reg reg' : Reg} {key key' : Nat}

/-! ## Counted uses -/

/-- The uses that the allocator counts of a register; none of a register without a slot. -/
def useCount (slots : σ → List Nat) (alloc : RegisterAlloc σ) (reg : Reg) : Nat :=
  match reg2key reg with
  | .ok key => (slots alloc.preservations)[key]?.getD 0
  | .error _ => 0

lemma toInt_of_reg2key (hkey : reg2key reg = .ok key) : reg.toInt = 32766 - key := by
  unfold reg2key at hkey
  split at hkey
  case isFalse => simp at hkey
  case isTrue hle =>
    have hinit : initialPreservationIndex.toInt = 32766 := rfl
    have hzero : (0 : Int16).toInt = 0 := rfl
    have hmem := toInt_mem reg
    have hsub := Int16.toInt_sub initialPreservationIndex reg
    rw [Int.bmod_def] at hsub
    rw [Int16.le_iff_toInt_le, hzero] at hle
    have hkey := Except.ok.inj hkey
    split at hsub <;> omega

/-- There is a key for the registers from the highest preserved one down. -/
lemma toInt_mem_of_reg2key (hkey : reg2key reg = .ok key) : -1 ≤ reg.toInt ∧ reg.toInt ≤ 32766 := by
  have hmem := toInt_mem reg
  have hreg := toInt_of_reg2key hkey
  unfold reg2key at hkey
  split at hkey
  case isFalse => simp at hkey
  case isTrue hle =>
    have hmem' := toInt_mem (initialPreservationIndex - reg)
    have hkey := Except.ok.inj hkey
    omega

lemma reg2key_inj (hkey : reg2key reg = .ok key) (hkey' : reg2key reg' = .ok key) : reg = reg' := by
  have hreg := toInt_of_reg2key hkey
  have hreg' := toInt_of_reg2key hkey'
  exact Int16.toInt_inj.1 (by omega)

lemma useCount_of_key (hkey : reg2key reg = .ok key) :
    useCount slots alloc reg = (slots alloc.preservations)[key]?.getD 0 := by
  unfold useCount
  rw [hkey]

lemma useCount_congr (hslots : slots alloc'.preservations = slots alloc.preservations) (reg : Reg) :
    useCount slots alloc' reg = useCount slots alloc reg := by
  unfold useCount
  rw [hslots]

/-- A register in use has a slot. -/
lemma key_of_useCount (hused : 0 < useCount slots alloc reg) :
    ∃ key, reg2key reg = .ok key ∧
      (slots alloc.preservations)[key]? = some (useCount slots alloc reg) := by
  cases hkey : reg2key reg with
  | error failure =>
    unfold useCount at hused
    rw [hkey] at hused
    exact absurd hused (Nat.lt_irrefl 0)
  | ok key =>
    rw [useCount_of_key hkey] at hused ⊢
    cases hslot : (slots alloc.preservations)[key]? with
    | none =>
      rw [hslot] at hused
      simp at hused
    | some n => exact ⟨key, rfl, hslot⟩

/-- One slot changes. -/
lemma useCount_of_slots {n : Nat} (hkey : reg2key reg = .ok key)
    (hslot : (slots alloc'.preservations)[key]? = some n)
    (hother : ∀ i, i ≠ key →
      (slots alloc'.preservations)[i]?.getD 0 = (slots alloc.preservations)[i]?.getD 0)
    (r : Reg) : useCount slots alloc' r = if r = reg then n else useCount slots alloc r := by
  by_cases heq : r = reg
  · rw [if_pos heq, heq, useCount_of_key hkey, hslot]
    rfl
  · rw [if_neg heq]
    unfold useCount
    cases hkey' : reg2key r with
    | error failure => rfl
    | ok key' =>
      apply hother
      intro hsame
      rw [hsame] at hkey'
      exact heq (reg2key_inj hkey' hkey)

variable (alloc alloc') in
lemma useCount_set {n : Nat} (hkey : reg2key reg = .ok key)
    (hlt : key < (slots alloc.preservations).length)
    (hset : slots alloc'.preservations = (slots alloc.preservations).set key n) (r : Reg) :
    useCount slots alloc' r = if r = reg then n else useCount slots alloc r := by
  apply useCount_of_slots hkey
  · rw [hset, List.getElem?_set_self hlt]
  · intro i hne
    rw [hset, List.getElem?_set_ne hne.symm]

section Stash

variable (h : stash.Lawful slots)

include h

/-- A preserved register that is handed out was not in use. It takes a vacant slot, or a new one
where there is none. -/
lemma pushPreserved_ok (hop : alloc.pushPreserved stash = .ok (reg, alloc')) :
    ∃ preservations minPreserve,
      alloc' = { alloc with preservations, removedPreserved := [], minPreserve } ∧
      minPreserve.toInt = min alloc.minPreserve.toInt (reg.toInt - 1) ∧
      useCount slots alloc reg = 0 ∧
      (∀ r, useCount slots alloc' r = if r = reg then 2 else useCount slots alloc r) ∧
      ((slots preservations).length = (slots alloc.preservations).length ∧
          32766 - (slots alloc.preservations).length < reg.toInt ∧
          (slots preservations).count 0 + 1 = (slots alloc.preservations).count 0 ∨
        (slots preservations).length = (slots alloc.preservations).length + 1 ∧
          reg.toInt = 32766 - (slots alloc.preservations).length ∧
          (slots preservations).count 0 = 0 ∧ (slots alloc.preservations).count 0 = 0) := by
  unfold pushPreserved at hop
  obtain ⟨_, _, hop⟩ := bind_eq_ok.1 hop
  obtain ⟨reg', hkey, hop⟩ := bind_eq_ok.1 hop
  obtain ⟨next, hmin, hop⟩ := bind_eq_ok.1 hop
  obtain ⟨rfl, rfl⟩ := Prod.mk.inj (Except.ok.inj hop)
  have hkey : reg2key reg' = .ok (stash.put alloc.preservations 2).1 := reg2key_of_key2reg hkey
  have hreg := toInt_of_reg2key hkey
  have hnext : next = { alloc with
      preservations := (stash.put alloc.preservations 2).2
      removedPreserved := []
      minPreserve := min alloc.minPreserve reg'.prev } := by
    unfold updateMinPreserved at hmin
    dsimp only at hmin
    split at hmin
    case isTrue => simp at hmin
    case isFalse => exact (Except.ok.inj hmin).symm
  have hmark : (min alloc.minPreserve reg'.prev).toInt =
      min alloc.minPreserve.toInt (reg'.toInt - 1) := by
    have hone : (1 : Int16).toInt = 1 := rfl
    have hmem := toInt_mem reg'
    have hbound := toInt_mem_of_reg2key hkey
    rw [toInt_min, Reg.prev, toInt_sub_of_mem (by omega) (by omega), hone]
  refine ⟨_, _, hnext, hmark, ?_⟩
  by_cases hvacant : 0 ∈ slots alloc.preservations
  · obtain ⟨hslot, hslots⟩ := h.put_vacant alloc.preservations 2 (by decide) hvacant
    obtain ⟨hlt, hzero⟩ := List.getElem?_eq_some_iff.1 hslot
    have hset : slots next.preservations =
        (slots alloc.preservations).set (stash.put alloc.preservations 2).1 2 := by
      rw [hnext]
      exact hslots
    have hpos := List.count_pos_iff.2 hvacant
    refine ⟨?_, useCount_set _ _ hkey hlt hset, .inl ⟨?_, ?_, ?_⟩⟩
    · rw [useCount_of_key hkey, hslot]
      rfl
    · rw [hslots, List.length_set]
    · omega
    · rw [hslots, List.count_set hlt, hzero, if_pos (beq_self_eq_true 0), if_neg (by simp)]
      omega
  · obtain ⟨hlast, hslots⟩ := h.put_full alloc.preservations 2 (by decide) hvacant
    have happend : slots next.preservations = slots alloc.preservations ++ [2] := by
      rw [hnext]
      exact hslots
    have hnone := List.count_eq_zero_of_not_mem hvacant
    refine ⟨?_, useCount_of_slots hkey ?_ fun i hne => ?_, .inr ⟨?_, ?_, ?_, hnone⟩⟩
    · rw [useCount_of_key hkey, hlast, List.getElem?_eq_none (Nat.le_refl _)]
      rfl
    · rw [happend, hlast, List.getElem?_concat_length]
    · rw [hlast] at hne
      rw [happend]
      by_cases hlt : i < (slots alloc.preservations).length
      · rw [List.getElem?_append_left hlt]
      · have hlen : (slots alloc.preservations ++ [2]).length ≤ i := by
          rw [List.length_append, List.length_singleton]
          omega
        rw [List.getElem?_eq_none hlen, List.getElem?_eq_none (by omega)]
    · rw [hslots, List.length_append, List.length_singleton]
    · rw [hreg, hlast]
    · rw [hslots, List.count_append, hnone]
      rfl

lemma bumpPreserved_ok (hused : 0 < useCount slots alloc reg) : ∃ preservations,
    alloc.bumpPreserved stash reg = .ok { alloc with preservations } ∧
      (slots preservations).length = (slots alloc.preservations).length ∧
      (slots preservations).count 0 = (slots alloc.preservations).count 0 ∧
      ∀ r, useCount slots { alloc with preservations } r =
        useCount slots alloc r + if r = reg then 1 else 0 := by
  obtain ⟨key, hkey, hslot⟩ := key_of_useCount hused
  have hlt := (List.getElem?_eq_some_iff.1 hslot).1
  have hget : stash.get alloc.preservations key = some (useCount slots alloc reg) := by
    rw [h.get, hslot, Option.filter_some, if_pos (by simpa using hused)]
  have hbump := h.bump alloc.preservations key 1
  rw [hget, Option.map_some, Option.getD_some] at hbump
  refine ⟨stash.bump alloc.preservations key 1, ?_, ?_, ?_, fun r => ?_⟩
  · rw [bumpPreserved, hkey]
    rfl
  · rw [hbump, List.length_set]
  · -- neither the old amount nor the new one is zero
    have hold := (List.getElem?_eq_some_iff.1 hslot).2
    rw [hbump, List.count_set hlt, hold, if_neg (by simp only [beq_iff_eq]; omega),
      if_neg (by simp)]
    rfl
  · rw [useCount_set alloc _ hkey hlt hbump]
    by_cases heq : r = reg
    · rw [if_pos heq, if_pos heq, heq]
    · rw [if_neg heq, if_neg heq, Nat.add_zero]

/-- A register in use can be popped. -/
lemma popPreserved_ok (hphase : alloc.phase = .alloc) (hused : 0 < useCount slots alloc reg) :
    ∃ preservations removedPreserved,
      alloc.popPreserved stash reg = .ok { alloc with preservations, removedPreserved } ∧
        (slots preservations).length = (slots alloc.preservations).length ∧
        ∀ r, useCount slots { alloc with preservations, removedPreserved } r +
          (if r = reg then 1 else 0) = useCount slots alloc r := by
  obtain ⟨key, hkey, hslot⟩ := key_of_useCount hused
  have hlt := (List.getElem?_eq_some_iff.1 hslot).1
  have hget : stash.get alloc.preservations key = some (useCount slots alloc reg) := by
    rw [h.get, hslot, Option.filter_some, if_pos (by simpa using hused)]
  have htake := h.takeOne alloc.preservations key
  rw [hget, Option.map_some] at htake
  obtain ⟨preservations, hsome, hset⟩ := Option.map_eq_some_iff.1 htake
  refine ⟨preservations, alloc.removedPreserved.insert key, ?_, ?_, fun r => ?_⟩
  · rw [popPreserved, assertAllocPhase_of hphase, ok_bind, hkey, ok_bind, hsome]
  · rw [hset]
    exact List.length_set
  · rw [useCount_set alloc _ hkey hlt hset]
    by_cases heq : r = reg
    · rw [if_pos heq, if_pos heq, heq]
      omega
    · rw [if_neg heq, if_neg heq, Nat.add_zero]

lemma gcSlots_useCount (removed : List Nat) (alloc : RegisterAlloc σ) (reg : Reg) :
    let collected := { alloc with preservations := gcSlots stash alloc.preservations removed }
    useCount slots collected reg = useCount slots alloc reg ∨
      useCount slots alloc reg = 1 ∧ useCount slots collected reg = 0 := by
  induction removed generalizing alloc with
  | nil => exact .inl rfl
  | cons key removed ih =>
    by_cases hone : stash.get alloc.preservations key = some 1
    · have hih := ih { alloc with preservations := stash.takeAll alloc.preservations key }
      have hslot : (slots alloc.preservations)[key]? = some 1 := by
        rw [h.get] at hone
        exact (Option.filter_eq_some_iff.1 hone).1
      have hlt := (List.getElem?_eq_some_iff.1 hslot).1
      have hset := h.takeAll alloc.preservations key
      rw [show gcSlots stash alloc.preservations (key :: removed) =
        gcSlots stash (stash.takeAll alloc.preservations key) removed by
          rw [gcSlots, List.foldl_cons, if_pos hone]; rfl]
      by_cases hkey : reg2key reg = .ok key
      · have hcount := useCount_set alloc
          { alloc with preservations := stash.takeAll alloc.preservations key } hkey hlt hset reg
        rw [if_pos rfl] at hcount
        have hold : useCount slots alloc reg = 1 := by
          rw [useCount_of_key hkey, hslot]
          rfl
        dsimp only at hih ⊢
        omega
      · have hcount : useCount slots
            { alloc with preservations := stash.takeAll alloc.preservations key } reg =
              useCount slots alloc reg := by
          unfold useCount
          cases hkey' : reg2key reg with
          | error failure => rfl
          | ok key' =>
            dsimp only
            rw [hset, List.getElem?_set_ne]
            intro hsame
            rw [← hsame] at hkey'
            exact hkey hkey'
        rw [hcount] at hih
        exact hih
    · rw [show gcSlots stash alloc.preservations (key :: removed) =
        gcSlots stash alloc.preservations removed by
          rw [gcSlots, List.foldl_cons, if_neg hone]; rfl]
      exact ih alloc

end Stash

end RegisterAlloc

/-! ## References -/

/-- Is the register of the entry a dynamic one? -/
def TaggedProvider.isDynamic : TaggedProvider → Bool
  | .dynamic _ => true
  | _ => false

/-- What refers to registers: the entries of the stack, the providers that are stored for an `else`,
and the operands of the instruction that is translated. `results` are the dynamic registers that
were handed out, which may be pushed as results later. -/
structure StackRefs where
  providers : List TaggedProvider
  stored : List TypedProvider
  operands : List TypedProvider
  results : List Reg

/-- The references to a preserved register that the stacks hold. -/
def StackRefs.references (refs : StackRefs) (reg : Reg) : Nat :=
  refs.providers.count (.preserved reg) + refs.stored.count (.register reg)

/-- The entry has its register on the right side of the mark. -/
def TaggedProvider.Beside (mark : Int) : TaggedProvider → Prop
  | .preserved reg => mark ≤ reg.toInt
  | .local reg => reg.toInt < mark
  | .dynamic reg => reg.toInt < mark
  | .constLocal reg => reg.toInt < mark
  | .constValue _ => True

open RegisterAlloc

variable {σ : Type} {stash : MultiStash σ} {slots : σ → List Nat} {alloc alloc' : RegisterAlloc σ}
  {refs : StackRefs} {reg : Reg}

/-- The mark of the dynamic registers is not past the preserved ones, and from the mark on the
registers that are referred to are in use. -/
structure Live (slots : σ → List Nat) (alloc : RegisterAlloc σ) (refs : StackRefs) : Prop where
  phase : alloc.phase = .alloc
  len : alloc.lenLocals.toNat < 2 ^ 15
  next_eq : alloc.nextDynamic.toInt =
    alloc.lenLocals.toNat + refs.providers.countP TaggedProvider.isDynamic
  next_max : alloc.nextDynamic.toInt ≤ alloc.maxDynamic.toInt
  max_min : alloc.maxDynamic.toInt ≤ alloc.minPreserve.toInt + 1
  min_eq : alloc.minPreserve.toInt = 32766 - (slots alloc.preservations).length
  entries : ∀ provider ∈ refs.providers, provider.Beside alloc.maxDynamic.toInt
  results : ∀ reg ∈ refs.results, reg.toInt < alloc.maxDynamic.toInt
  counted : Counted (fun reg => alloc.maxDynamic.toInt ≤ reg.toInt) (alloc.useCount slots)
    refs.references fun reg => .register reg ∈ refs.operands

/-- There is room for the preserved registers of `n` locals, of which some take vacant slots. -/
def Room (slots : σ → List Nat) (alloc : RegisterAlloc σ) (n : Nat) : Prop :=
  alloc.maxDynamic.toInt + (n - (slots alloc.preservations).count 0 : Nat) ≤
    alloc.minPreserve.toInt + 1

lemma Room.mono {n m : Nat} (hroom : Room slots alloc n) (hle : m ≤ n) : Room slots alloc m := by
  unfold Room at hroom ⊢
  omega

namespace Live

variable (hlive : Live slots alloc refs)

include hlive

lemma min_lt (hused : 0 < alloc.useCount slots reg) :
    alloc.minPreserve.toInt < reg.toInt := by
  obtain ⟨key, hkey, hslot⟩ := key_of_useCount hused
  have hreg := toInt_of_reg2key hkey
  have hlt := (List.getElem?_eq_some_iff.1 hslot).1
  have hmin := hlive.min_eq
  omega

lemma isPreserved_of_used (hused : 0 < alloc.useCount slots reg) : alloc.isPreserved reg = true :=
  decide_eq_true (Int16.lt_iff_toInt_lt.2 (hlive.min_lt hused))

lemma not_isPreserved (hlt : reg.toInt < alloc.maxDynamic.toInt) :
    alloc.isPreserved reg = false := by
  have hmin := hlive.max_min
  apply decide_eq_false
  rw [Int16.lt_iff_toInt_lt]
  omega

lemma space_of_used (hused : 0 < alloc.useCount slots reg) :
    alloc.registerSpace reg = .preserve := by
  have hlt := hlive.min_lt hused
  have hnext := hlive.next_eq
  have hmax := hlive.next_max
  have hmin := hlive.max_min
  have hzero : (0 : Int16).toInt = 0 := rfl
  have hlen : alloc.minDynamic.toInt = alloc.lenLocals.toNat := toInt_toInt16 hlive.len
  have hconst : reg.isConst = false := by
    apply decide_eq_false
    rw [Int16.lt_iff_toInt_lt]
    omega
  have hlocal : alloc.isLocal reg = false := by
    rw [isLocal, hconst, Bool.not_false, Bool.true_and]
    apply decide_eq_false
    rw [Int16.lt_iff_toInt_lt]
    omega
  rw [registerSpace, hconst, hlocal, hlive.isPreserved_of_used hused]
  rfl

lemma space_of_lt (hlt : reg.toInt < alloc.maxDynamic.toInt) :
    alloc.registerSpace reg ≠ .preserve := by
  rw [registerSpace, hlive.not_isPreserved hlt]
  split
  · simp
  · split <;> simp

/-- What is referred to is below the mark or in use. -/
lemma lt_or_used (href : 0 < refs.references reg ∨ .register reg ∈ refs.operands) :
    reg.toInt < alloc.maxDynamic.toInt ∨ 0 < alloc.useCount slots reg := by
  by_cases hlt : reg.toInt < alloc.maxDynamic.toInt
  · exact .inl hlt
  · right
    obtain href | hpin := href
    · have hcount := hlive.counted.of_refs (a := reg) (by omega) href
      omega
    · have hcount := hlive.counted.of_pinned (a := reg) (by omega) hpin
      omega

/-- An entry that refers to a preserved register keeps it in use. -/
lemma used_of_entry (hentry : .preserved reg ∈ refs.providers) :
    0 < alloc.useCount slots reg := by
  have hbeside : alloc.maxDynamic.toInt ≤ reg.toInt := hlive.entries _ hentry
  have hcount := List.count_pos_iff.2 hentry
  have hrefs := hlive.counted.of_refs (a := reg) hbeside (by unfold StackRefs.references; omega)
  omega

/-- New entries below the mark, which may go up. -/
lemma extend (nextDynamic maxDynamic : Int16) (added : List TaggedProvider) (regs : List Reg)
    (hnext : nextDynamic.toInt = alloc.nextDynamic.toInt + added.countP TaggedProvider.isDynamic)
    (hle : nextDynamic.toInt ≤ maxDynamic.toInt)
    (hmax : alloc.maxDynamic.toInt ≤ maxDynamic.toInt)
    (hmin : maxDynamic.toInt ≤ alloc.minPreserve.toInt + 1)
    (hadded : ∀ provider ∈ added, provider.Beside maxDynamic.toInt ∧
      ∀ reg, provider ≠ .preserved reg)
    (hregs : ∀ reg ∈ regs, reg.toInt < maxDynamic.toInt) :
    Live slots { alloc with nextDynamic, maxDynamic }
      { refs with providers := refs.providers ++ added, results := refs.results ++ regs } := by
  refine ⟨hlive.phase, hlive.len, ?_, hle, hmin, hlive.min_eq, fun provider hprovider => ?_,
    fun reg hreg => ?_, ?_⟩
  · have hold := hlive.next_eq
    show nextDynamic.toInt = _ + ((refs.providers ++ added).countP TaggedProvider.isDynamic : Nat)
    rw [List.countP_append]
    show nextDynamic.toInt = (alloc.lenLocals.toNat : Int) + _
    omega
  · obtain hold | hnew := List.mem_append.1 hprovider
    · have hbeside := hlive.entries provider hold
      show provider.Beside maxDynamic.toInt
      cases provider with
      | preserved reg =>
        have hlt := hlive.min_lt (hlive.used_of_entry hold)
        show maxDynamic.toInt ≤ reg.toInt
        omega
      | constValue value => trivial
      | «local» reg | dynamic reg | constLocal reg =>
        have hlt : reg.toInt < alloc.maxDynamic.toInt := hbeside
        show reg.toInt < maxDynamic.toInt
        omega
    · exact (hadded provider hnew).1
  · obtain hold | hnew := List.mem_append.1 hreg
    · have hlt := hlive.results reg hold
      show reg.toInt < maxDynamic.toInt
      omega
    · exact hregs reg hnew
  · have hslots : slots { alloc with nextDynamic, maxDynamic }.preservations =
        slots alloc.preservations := rfl
    refine hlive.counted.mono (fun reg hreg => Int.le_trans hmax hreg) (fun reg _ => ?_)
      (fun reg _ => ?_) fun reg _ hpin => hpin
    · exact useCount_congr hslots reg
    · have hnone : added.count (.preserved reg) = 0 :=
        List.count_eq_zero_of_not_mem fun hmem => (hadded _ hmem).2 reg rfl
      show (refs.providers ++ added).count _ + _ = _
      rw [List.count_append, hnone, Nat.add_zero]
      rfl

/-- Other uses and other references. -/
lemma recount {preservations : σ} {removedPreserved : List Nat} {minPreserve : Int16}
    {refs' : StackRefs} (hmin : alloc.maxDynamic.toInt ≤ minPreserve.toInt + 1)
    (hmin_eq : minPreserve.toInt = 32766 - (slots preservations).length)
    (hdynamic : refs'.providers.countP TaggedProvider.isDynamic =
      refs.providers.countP TaggedProvider.isDynamic)
    (hentries : ∀ provider ∈ refs'.providers,
      provider ∈ refs.providers ∨ provider.Beside alloc.maxDynamic.toInt)
    (hresults : refs'.results = refs.results)
    (hcounted : Counted (fun reg => alloc.maxDynamic.toInt ≤ reg.toInt)
      (useCount slots { alloc with preservations, removedPreserved, minPreserve })
      refs'.references fun reg => .register reg ∈ refs'.operands) :
    Live slots { alloc with preservations, removedPreserved, minPreserve } refs' := by
  refine ⟨hlive.phase, hlive.len, ?_, hlive.next_max, hmin, hmin_eq, fun provider hprovider => ?_,
    fun reg hreg => ?_, hcounted⟩
  · rw [hdynamic]
    exact hlive.next_eq
  · obtain hold | hnew := hentries provider hprovider
    · exact hlive.entries provider hold
    · exact hnew
  · rw [hresults] at hreg
    exact hlive.results reg hreg

/-- A further reference to a register in use. -/
lemma acquire (h : stash.Lawful slots) (refs' : StackRefs) (hused : 0 < alloc.useCount slots reg)
    (hdynamic : refs'.providers.countP TaggedProvider.isDynamic =
      refs.providers.countP TaggedProvider.isDynamic)
    (hentries : ∀ provider ∈ refs'.providers, provider ∈ refs.providers ∨ provider = .preserved reg)
    (hresults : refs'.results = refs.results) (hoperands : refs'.operands = refs.operands)
    (hrefs : ∀ r, refs'.references r = refs.references r + if r = reg then 1 else 0) :
    ∃ preservations, alloc.bumpPreserved stash reg = .ok { alloc with preservations } ∧
      (slots preservations).count 0 = (slots alloc.preservations).count 0 ∧
      Live slots { alloc with preservations } refs' := by
  obtain ⟨preservations, hbump, hlen, hvacant, hcount⟩ := bumpPreserved_ok h hused
  have hmin := hlive.max_min
  have hlt := hlive.min_lt hused
  refine ⟨preservations, hbump, hvacant, hlive.recount hmin ?_ hdynamic ?_ hresults ?_⟩
  · rw [hlen]
    exact hlive.min_eq
  · intro provider hprovider
    obtain hold | hnew := hentries provider hprovider
    · exact .inl hold
    · right
      rw [hnew]
      show alloc.maxDynamic.toInt ≤ reg.toInt
      omega
  · rw [hoperands]
    exact hlive.counted.acquire hused hcount hrefs

/-- A reference to a register in use is given up. -/
lemma release (h : stash.Lawful slots) (refs' : StackRefs) (hused : 0 < alloc.useCount slots reg)
    (hdynamic : refs'.providers.countP TaggedProvider.isDynamic =
      refs.providers.countP TaggedProvider.isDynamic)
    (hentries : ∀ provider ∈ refs'.providers, provider ∈ refs.providers)
    (hresults : refs'.results = refs.results)
    (hoperands : ∀ r, .register r ∈ refs'.operands → .register r ∈ refs.operands ∨ r = reg)
    (hrefs : ∀ r, refs'.references r + (if r = reg then 1 else 0) = refs.references r) :
    ∃ preservations removedPreserved,
      alloc.popPreserved stash reg = .ok { alloc with preservations, removedPreserved } ∧
        Live slots { alloc with preservations, removedPreserved } refs' := by
  obtain ⟨preservations, removedPreserved, hpop, hlen, hcount⟩ :=
    popPreserved_ok h hlive.phase hused
  have hreleased := hlive.counted.release hcount hrefs
  refine ⟨preservations, removedPreserved, hpop, hlive.recount hlive.max_min ?_ hdynamic
    (fun provider hprovider => .inl (hentries provider hprovider)) hresults ?_⟩
  · rw [hlen]
    exact hlive.min_eq
  · exact hreleased.mono (fun _ hr => hr) (fun _ _ => rfl) (fun _ _ => rfl)
      fun r _ hpin => hoperands r hpin

/-- What nothing refers to is freed, once there are no operands. -/
lemma collect (h : stash.Lawful slots) :
    ∃ preservations, alloc.gcPreservations stash = .ok { alloc with preservations } ∧
      Live slots { alloc with preservations } { refs with operands := [] } := by
  refine ⟨gcSlots stash alloc.preservations alloc.removedPreserved, ?_, hlive.recount
    hlive.max_min ?_ rfl (fun _ hprovider => .inl hprovider) rfl ?_⟩
  · rw [gcPreservations, assertAllocPhase_of hlive.phase]
    rfl
  · rw [length_gcSlots h]
    exact hlive.min_eq
  · have hcollected := hlive.counted.collect
      (gcSlots_useCount h alloc.removedPreserved alloc)
    refine hcollected.mono (fun _ hr => hr) (fun _ _ => rfl) (fun _ _ => rfl) fun r _ hpin => ?_
    cases hpin

/-- The first reference to a register that is handed out. -/
lemma allocate (h : stash.Lawful slots) {refs' : StackRefs} {n : Nat}
    (hop : alloc.pushPreserved stash = .ok (reg, alloc')) (hroom : Room slots alloc (n + 1))
    (hdynamic : refs'.providers.countP TaggedProvider.isDynamic =
      refs.providers.countP TaggedProvider.isDynamic)
    (hentries : ∀ provider ∈ refs'.providers, provider ∈ refs.providers ∨ provider = .preserved reg)
    (hresults : refs'.results = refs.results) (hoperands : refs'.operands = refs.operands)
    (hrefs : ∀ r, refs'.references r = refs.references r + if r = reg then 1 else 0) :
    Live slots alloc' refs' ∧ Room slots alloc' n := by
  obtain ⟨preservations, minPreserve, rfl, hmark, hfree, hcount, hslot⟩ := pushPreserved_ok h hop
  have hmin := hlive.min_eq
  have hmax := hlive.max_min
  unfold Room at hroom
  have hplace : alloc.maxDynamic.toInt ≤ reg.toInt := by omega
  have hcounted := hlive.counted.allocate hfree hcount hrefs
  refine ⟨hlive.recount ?_ ?_ hdynamic ?_ hresults ?_, ?_⟩
  · omega
  · omega
  · intro provider hprovider
    obtain hold | hnew := hentries provider hprovider
    · exact .inl hold
    · right
      rw [hnew]
      exact hplace
  · rw [hoperands]
    exact hcounted
  · show alloc.maxDynamic.toInt + (n - (slots preservations).count 0 : Nat) ≤ minPreserve.toInt + 1
    omega

end Live

/-! ### Pops -/

lemma countP_isDynamic_concat (provider : TaggedProvider) (rest : List TaggedProvider) :
    (rest ++ [provider]).countP TaggedProvider.isDynamic =
      rest.countP TaggedProvider.isDynamic + if provider.isDynamic = true then 1 else 0 := by
  rw [List.countP_append, List.countP_singleton]

lemma references_concat (rest : List TaggedProvider) (provider : TaggedProvider)
    (stored operands : List TypedProvider) (results : List Reg) (r : Reg) :
    (StackRefs.mk (rest ++ [provider]) stored operands results).references r =
      (StackRefs.mk rest stored operands results).references r +
        if provider = .preserved r then 1 else 0 := by
  show (rest ++ [provider]).count _ + _ = rest.count _ + _ + _
  rw [List.count_append, List.count_singleton]
  simp only [beq_iff_eq]
  omega

section Pop

variable {rest : List TaggedProvider} {stored operands : List TypedProvider} {results : List Reg}

/-- The top entry has no preserved register. -/
lemma Live.below {top : TaggedProvider} {nextDynamic : Int16}
    (hlive : Live slots alloc ⟨rest ++ [top], stored, operands, results⟩)
    (htop : ∀ reg, top ≠ .preserved reg)
    (hnext : nextDynamic.toInt + (if top.isDynamic = true then 1 else 0) =
      alloc.nextDynamic.toInt) :
    Live slots { alloc with nextDynamic } ⟨rest, stored, top.toTyped :: operands, results⟩ := by
  have hnextEq := hlive.next_eq
  have hmax := hlive.next_max
  have hbeside := hlive.entries top (List.mem_append_right _ (List.mem_singleton_self _))
  rw [countP_isDynamic_concat] at hnextEq
  have hpopped : nextDynamic.toInt = alloc.lenLocals.toNat + rest.countP TaggedProvider.isDynamic ∧
      nextDynamic.toInt ≤ alloc.nextDynamic.toInt := by
    by_cases hdynamic : top.isDynamic = true
    · rw [if_pos hdynamic] at hnext hnextEq
      omega
    · rw [if_neg hdynamic] at hnext hnextEq
      omega
  refine ⟨hlive.phase, hlive.len, hpopped.1, Int.le_trans hpopped.2 hmax, hlive.max_min, hlive.min_eq,
    fun provider hprovider => hlive.entries provider (List.mem_append_left _ hprovider),
    hlive.results, ?_⟩
  · have hslots : slots { alloc with nextDynamic }.preservations = slots alloc.preservations := rfl
    refine hlive.counted.mono (fun _ hr => hr) (fun r _ => useCount_congr hslots r)
      (fun r _ => ?_) fun r hr hpin => ?_
    · rw [references_concat, if_neg (htop r)]
      rfl
    · obtain heq | hpin := List.mem_cons.1 hpin
      · -- the popped register is below the mark
        have hlt : r.toInt < alloc.maxDynamic.toInt := by
          cases top with
          | preserved reg => exact absurd rfl (htop reg)
          | constValue value => cases heq
          | «local» reg | dynamic reg | constLocal reg =>
            rw [Provider.register.inj heq]
            exact hbeside
        have hle : alloc.maxDynamic.toInt ≤ r.toInt := hr
        omega
      · exact hpin

/-- Every entry can be popped. -/
lemma Live.popProvider (h : stash.Lawful slots) {top : TaggedProvider}
    (hlive : Live slots alloc ⟨rest ++ [top], stored, operands, results⟩) :
    ∃ alloc', alloc.popProvider stash top = .ok (top.toTyped, alloc') ∧
      Live slots alloc' ⟨rest, stored, top.toTyped :: operands, results⟩ := by
  cases top with
  | preserved reg =>
    have hused := hlive.used_of_entry (List.mem_append_right _ (List.mem_singleton_self _))
    have hdynamic := countP_isDynamic_concat (.preserved reg) rest
    obtain ⟨preservations, removedPreserved, hpop, hnext⟩ := hlive.release h
      ⟨rest, stored, .register reg :: operands, results⟩ hused hdynamic.symm
      (fun _ hprovider => List.mem_append_left _ hprovider) rfl
      (fun r hr => (List.mem_cons.1 hr).symm.imp id Provider.register.inj) fun r => by
        rw [references_concat]
        simp only [TaggedProvider.preserved.injEq, eq_comm]
        rfl
    refine ⟨_, ?_, hnext⟩
    rw [RegisterAlloc.popProvider, hpop]
    rfl
  | dynamic reg =>
    have hnextEq := hlive.next_eq
    have hdynamic : (TaggedProvider.dynamic reg).isDynamic = true := rfl
    rw [countP_isDynamic_concat, if_pos hdynamic] at hnextEq
    have hone : (1 : Int16).toInt = 1 := rfl
    have hmem := toInt_mem alloc.nextDynamic
    have hlen : alloc.minDynamic.toInt = alloc.lenLocals.toNat := toInt_toInt16 hlive.len
    have hsub : (alloc.nextDynamic - 1).toInt = alloc.nextDynamic.toInt - 1 := by
      rw [toInt_sub_of_mem (by omega) (by omega), hone]
    have hne : alloc.nextDynamic ≠ alloc.minDynamic := by
      intro heq
      rw [heq] at hnextEq
      omega
    refine ⟨{ alloc with nextDynamic := alloc.nextDynamic - 1 }, ?_, hlive.below (by simp) ?_⟩
    · rw [RegisterAlloc.popProvider, popDynamic, assertAllocPhase_of hlive.phase, ok_bind,
        if_neg hne]
      rfl
    · rw [if_pos hdynamic]
      omega
  | «local» reg | constLocal reg | constValue value =>
    exact ⟨alloc, rfl, hlive.below (by simp) (by simp [TaggedProvider.isDynamic])⟩

end Pop

/-! ### Preserved locals -/

/-- The local that the entry refers to. -/
def TaggedProvider.asLocal : TaggedProvider → Option Reg
  | .local reg => some reg
  | _ => none

/-- The locals that entries refer to. -/
def localsOf (providers : List TaggedProvider) : Finset Reg :=
  (providers.filterMap TaggedProvider.asLocal).toFinset

lemma mem_localsOf {providers : List TaggedProvider} :
    reg ∈ localsOf providers ↔ .local reg ∈ providers := by
  rw [localsOf, List.mem_toFinset, List.mem_filterMap]
  constructor
  · intro hmem
    obtain ⟨provider, hprovider, heq⟩ := hmem
    cases provider with
    | «local» reg' =>
      rw [← Option.some.inj heq]
      exact hprovider
    | _ => cases heq
  · intro hmem
    exact ⟨_, hmem, rfl⟩

section Preserve

variable {before after : List TaggedProvider} {«local» : Reg} {stored operands : List TypedProvider}
  {results : List Reg} {n : Nat}

lemma references_preserve (r : Reg) :
    (StackRefs.mk (before ++ .preserved reg :: after) stored operands results).references r =
      (StackRefs.mk (before ++ .local «local» :: after) stored operands results).references r +
        if r = reg then 1 else 0 := by
  show List.count _ _ + _ = List.count _ _ + _ + _
  rw [List.count_append, List.count_append, List.count_cons, List.count_cons]
  simp only [beq_iff_eq, TaggedProvider.preserved.injEq, reduceCtorEq, if_false, @eq_comm _ reg r]
  omega

lemma countP_isDynamic_preserve :
    (before ++ .preserved reg :: after).countP TaggedProvider.isDynamic =
      (before ++ .local «local» :: after).countP TaggedProvider.isDynamic := by
  rw [List.countP_append, List.countP_append, List.countP_cons, List.countP_cons]
  rfl

lemma mem_preserve {provider : TaggedProvider}
    (hmem : provider ∈ before ++ .preserved reg :: after) :
    provider ∈ before ++ .local «local» :: after ∨ provider = .preserved reg := by
  rw [List.mem_append, List.mem_cons] at hmem ⊢
  obtain hmem | hmem | hmem := hmem
  · exact .inl (.inl hmem)
  · exact .inr hmem
  · exact .inl (.inr (.inr hmem))

lemma Live.room_zero (hlive : Live slots alloc refs) : Room slots alloc 0 := by
  have hmin := hlive.max_min
  unfold Room
  omega

/-- One entry of a local is preserved. -/
lemma Live.preserveNext (h : stash.Lawful slots) (found : Option Reg)
    (hlive : Live slots alloc ⟨before ++ .local «local» :: after, stored, operands, results⟩)
    (hnone : found = none → Room slots alloc (n + 1))
    (hsome : ∀ reg, found = some reg → .preserved reg ∈ before ++ after ∧ Room slots alloc n)
    (hnext : ProviderStack.preserveNext stash alloc found = .ok (reg, alloc')) :
    Live slots alloc' ⟨before ++ .preserved reg :: after, stored, operands, results⟩ ∧
      Room slots alloc' n := by
  cases found with
  | none =>
    exact hlive.allocate h hnext (hnone rfl) countP_isDynamic_preserve (fun _ => mem_preserve) rfl
      rfl references_preserve
  | some reg' =>
    obtain ⟨hthere, hroom⟩ := hsome reg' rfl
    obtain ⟨alloc₁, hbump, hnext⟩ := bind_eq_ok.1 hnext
    obtain ⟨rfl, rfl⟩ := Prod.mk.inj (Except.ok.inj hnext)
    have hused : 0 < alloc.useCount slots reg' := by
      apply hlive.used_of_entry
      rw [List.mem_append] at hthere
      exact List.mem_append.2 (hthere.imp id (List.mem_cons_of_mem _))
    obtain ⟨preservations, hbump', hvacant, hnextLive⟩ := hlive.acquire h
      ⟨before ++ .preserved reg' :: after, stored, operands, results⟩ hused
      countP_isDynamic_preserve (fun _ => mem_preserve) rfl rfl references_preserve
    obtain rfl := Except.ok.inj (hbump'.symm.trans hbump)
    refine ⟨hnextLive, ?_⟩
    unfold Room at hroom ⊢
    rw [hvacant]
    exact hroom

/-- The entries of one local are preserved. -/
lemma Live.preserveN (h : stash.Lawful slots) {providers : List TaggedProvider}
    {preserved : Option Reg} {res : Option Reg × RegisterAlloc σ}
    (hlive : Live slots alloc ⟨before ++ providers, stored, operands, results⟩)
    (hroom : preserved = none → .local «local» ∈ providers → Room slots alloc 1)
    (hthere : ∀ reg, preserved = some reg → .preserved reg ∈ before)
    (hop : ProviderStack.preserveN stash (providers.count (.local «local»)) preserved alloc =
      .ok res) :
    Live slots res.2 ⟨before ++ providers.map (TaggedProvider.preserve «local» res.1), stored,
      operands, results⟩ := by
  induction providers generalizing before preserved alloc with
  | nil =>
    obtain rfl := Except.ok.inj hop
    exact hlive
  | cons provider providers ih =>
    rw [List.map_cons, List.append_cons]
    by_cases heq : provider = .local «local»
    · subst heq
      rw [List.count_cons_self] at hop
      obtain ⟨⟨reg, alloc₁⟩, hnext, hop⟩ := bind_eq_ok.1 hop
      dsimp only at hop
      obtain ⟨hlive₁, _⟩ := hlive.preserveNext (n := 0) h preserved
        (fun hnone => hroom hnone List.mem_cons_self)
        (fun reg hsome => ⟨List.mem_append_left _ (hthere reg hsome), hlive.room_zero⟩) hnext
      rw [List.append_cons] at hlive₁
      have hres : TaggedProvider.preserve «local» res.1 (.local «local») = .preserved reg := by
        rw [ProviderStack.preserveN_some hop]
        exact if_pos rfl
      rw [hres]
      refine ih hlive₁ (fun hnone => ?_) (fun reg' hsome => ?_) hop
      · cases hnone
      · rw [← Option.some.inj hsome]
        exact List.mem_append_right _ (List.mem_singleton_self _)
    · have hres : TaggedProvider.preserve «local» res.1 provider = provider := by
        cases hpreserved : res.1 with
        | none => rfl
        | some reg => exact if_neg heq
      rw [hres]
      rw [List.count_cons_of_ne heq] at hop
      rw [List.append_cons] at hlive
      exact ih hlive (fun hnone hmem => hroom hnone (List.mem_cons_of_mem _ hmem))
        (fun reg hsome => List.mem_append_left _ (hthere reg hsome)) hop

open ProviderStack

/-- The locals that still need a register. -/
def pending (providers : List TaggedProvider) (preserved : List PreservedLocal) : Finset Reg :=
  (localsOf providers).filter fun reg => ∀ entry ∈ preserved, entry.local ≠ reg

lemma Live.preserveStep (h : stash.Lawful slots) {entries entries' : Entries σ}
    (hstep : PreserveStep stash entries entries')
    (hlive : Live slots entries.alloc ⟨entries.providers, stored, operands, results⟩)
    (hroom : Room slots entries.alloc (pending entries.providers entries.preserved).card) :
    Live slots entries'.alloc ⟨entries'.providers, stored, operands, results⟩ ∧
      Room slots entries'.alloc (pending entries'.providers entries'.preserved).card := by
  cases hstep with
  | @first before after «local» reg lenLocals preserved alloc alloc' hnew hpush =>
    have hpending : «local» ∈ pending (before ++ .local «local» :: after) preserved := by
      rw [pending, Finset.mem_filter, mem_localsOf]
      exact ⟨by simp, hnew⟩
    have hle : (pending (before ++ .preserved reg :: after) (preserved ++ [⟨«local», reg⟩])).card <
        (pending (before ++ .local «local» :: after) preserved).card := by
      apply Finset.card_lt_card
      rw [Finset.ssubset_iff_of_subset]
      · refine ⟨«local», hpending, fun hmem => ?_⟩
        exact (Finset.mem_filter.1 hmem).2 ⟨«local», reg⟩ (by simp) rfl
      · intro r hr
        rw [pending, Finset.mem_filter, mem_localsOf] at hr ⊢
        obtain ⟨hmem, hknown⟩ := hr
        refine ⟨(mem_preserve hmem).resolve_right (by simp), fun entry hentry => ?_⟩
        exact hknown entry (List.mem_append_left _ hentry)
    exact hlive.preserveNext h none (fun _ => hroom.mono hle) (by simp) hpush
  | @again before after «local» reg lenLocals preserved alloc alloc' hknown hthere hbump =>
    have hle : (pending (before ++ .preserved reg :: after) preserved).card ≤
        (pending (before ++ .local «local» :: after) preserved).card := by
      apply Finset.card_le_card
      intro r hr
      rw [pending, Finset.mem_filter, mem_localsOf] at hr ⊢
      exact ⟨(mem_preserve hr.1).resolve_right (by simp), hr.2⟩
    have hnext : ProviderStack.preserveNext stash alloc (some reg) = .ok (reg, alloc') := by
      rw [ProviderStack.preserveNext, hbump]
      rfl
    refine hlive.preserveNext h (some reg) (by simp) (fun reg' hsome => ?_) hnext
    rw [← Option.some.inj hsome]
    exact ⟨hthere, hroom.mono hle⟩

lemma Live.preserveSteps (h : stash.Lawful slots) {entries entries' : Entries σ}
    (hsteps : PreserveSteps stash entries entries')
    (hlive : Live slots entries.alloc ⟨entries.providers, stored, operands, results⟩)
    (hroom : Room slots entries.alloc (pending entries.providers entries.preserved).card) :
    Live slots entries'.alloc ⟨entries'.providers, stored, operands, results⟩ ∧
      Room slots entries'.alloc (pending entries'.providers entries'.preserved).card := by
  induction hsteps with
  | refl => exact ⟨hlive, hroom⟩
  | tail _ hstep ih => exact Live.preserveStep h hstep ih.1 ih.2

/-- The registers of the preserved locals are distinct, and were not in use before. -/
lemma preserveSteps_fresh (h : stash.Lawful slots) {entries entries' : Entries σ}
    (hsteps : PreserveSteps stash entries entries') (hstart : entries.preserved = []) :
    (entries'.preserved.map PreservedLocal.preserved).Nodup ∧
      (∀ entry ∈ entries'.preserved, 0 < entries'.alloc.useCount slots entry.preserved ∧
        entries.alloc.useCount slots entry.preserved = 0) ∧
      ∀ reg, entries.alloc.useCount slots reg ≤ entries'.alloc.useCount slots reg := by
  induction hsteps with
  | refl =>
    rw [hstart]
    exact ⟨List.nodup_nil, (by simp), fun _ => Nat.le_refl _⟩
  | tail _ hstep ih =>
    obtain ⟨hnodup, hused, hle⟩ := ih
    cases hstep with
    | @first before after «local» reg lenLocals preserved alloc alloc' hnew hpush =>
      obtain ⟨_, _, _, _, hfree, hcount, _⟩ := pushPreserved_ok h hpush
      dsimp only at hused hle ⊢
      have hgrow : ∀ r, alloc.useCount slots r ≤ alloc'.useCount slots r := by
        intro r
        rw [hcount]
        by_cases heq : r = reg
        · rw [heq, hfree]
          exact Nat.zero_le _
        · rw [if_neg heq]
      refine ⟨?_, fun entry hentry => ?_, fun r => Nat.le_trans (hle r) (hgrow r)⟩
      · rw [List.map_append, List.nodup_append]
        refine ⟨hnodup, by simp, fun r hr r' hr' heq => ?_⟩
        obtain ⟨entry, hentry, rfl⟩ := List.mem_map.1 hr
        have hsame : entry.preserved = reg := heq.trans (List.mem_singleton.1 hr')
        have hpos := (hused entry hentry).1
        rw [hsame] at hpos
        omega
      · obtain hold | hlast := List.mem_append.1 hentry
        · have hentry := hused entry hold
          have hgrow := hgrow entry.preserved
          omega
        · rw [List.mem_singleton.1 hlast]
          have hle := hle reg
          have hnow := hcount reg
          rw [if_pos rfl] at hnow
          dsimp only
          omega
    | @again before after «local» reg lenLocals preserved alloc alloc' hknown hthere hbump =>
      have hpos := (hused _ hknown).1
      obtain ⟨preservations, hbump', _, _, hcount⟩ := bumpPreserved_ok h hpos
      obtain rfl := Except.ok.inj (hbump'.symm.trans hbump)
      dsimp only at hused hle ⊢
      have hgrow : ∀ r, alloc.useCount slots r ≤
          useCount slots { alloc with preservations } r := by
        intro r
        rw [hcount]
        exact Nat.le_add_right _ _
      refine ⟨hnodup, fun entry hentry => ?_, fun r => Nat.le_trans (hle r) (hgrow r)⟩
      have hold := hused entry hentry
      have hgrow := hgrow entry.preserved
      omega

end Preserve

/-! ### Providers that are stored -/

section Stored

variable {providers : List TaggedProvider} {stored stored' operands operands' : List TypedProvider}
  {results : List Reg}

/-- Other stored providers and operands, with the same registers from the mark on. -/
lemma Live.congr (hlive : Live slots alloc ⟨providers, stored, operands, results⟩)
    (hcount : ∀ r : Reg, alloc.maxDynamic.toInt ≤ r.toInt →
      stored'.count (.register r) = stored.count (.register r))
    (hoperands : ∀ r : Reg, .register r ∈ operands' → .register r ∈ operands) :
    Live slots alloc ⟨providers, stored', operands', results⟩ := by
  refine ⟨hlive.phase, hlive.len, hlive.next_eq, hlive.next_max, hlive.max_min, hlive.min_eq,
    hlive.entries, hlive.results, ?_⟩
  refine hlive.counted.mono (fun _ hr => hr) (fun _ _ => rfl) (fun r hr => ?_)
    fun r _ hpin => hoperands r hpin
  unfold StackRefs.references
  dsimp only
  rw [hcount r hr]

variable (stored') in
/-- The use of a register that is stored is increased. -/
lemma Live.incRegisterUsage (h : stash.Lawful slots)
    (hlive : Live slots alloc ⟨providers, stored, operands, results⟩)
    (hsource : reg.toInt < alloc.maxDynamic.toInt ∨ 0 < alloc.useCount slots reg)
    (hcount : ∀ r : Reg, stored'.count (.register r) =
      stored.count (.register r) + if r = reg then 1 else 0) :
    ∃ preservations,
      alloc.incRegisterUsage stash reg = .ok { alloc with preservations } ∧
        Live slots { alloc with preservations } ⟨providers, stored', operands, results⟩ := by
  obtain hlt | hused := hsource
  · refine ⟨alloc.preservations, ?_, hlive.congr (fun r hr => ?_) fun _ => id⟩
    · rw [RegisterAlloc.incRegisterUsage, hlive.not_isPreserved hlt]
      rfl
    · have hne : r ≠ reg := by
        intro heq
        rw [heq] at hr
        omega
      rw [hcount, if_neg hne, Nat.add_zero]
  · have hrefs : ∀ r, (StackRefs.mk providers stored' operands results).references r =
        (StackRefs.mk providers stored operands results).references r +
          if r = reg then 1 else 0 := by
      intro r
      unfold StackRefs.references
      dsimp only
      rw [hcount, Nat.add_assoc]
    obtain ⟨preservations, hbump, _, hnext⟩ := hlive.acquire h
      ⟨providers, stored', operands, results⟩ hused rfl (fun _ hprovider => .inl hprovider)
      rfl rfl hrefs
    refine ⟨preservations, ?_, hnext⟩
    rw [RegisterAlloc.incRegisterUsage, hlive.isPreserved_of_used hused]
    exact hbump

/-- The use of a register that is stored no longer is decreased. -/
lemma Live.decRegisterUsage (h : stash.Lawful slots)
    (hlive : Live slots alloc ⟨providers, .register reg :: stored, operands, results⟩) :
    ∃ preservations removedPreserved,
      alloc.decRegisterUsage stash reg = .ok { alloc with preservations, removedPreserved } ∧
        Live slots { alloc with preservations, removedPreserved }
          ⟨providers, stored, operands, results⟩ := by
  have hcount : ∀ r : Reg, (Provider.register reg :: stored).count (.register r) =
      stored.count (.register r) + if r = reg then 1 else 0 := by
    intro r
    rw [List.count_cons]
    simp only [beq_iff_eq, Provider.register.injEq, @eq_comm _ reg r]
  have href : 0 < (StackRefs.mk providers (.register reg :: stored) operands results).references
      reg := by
    unfold StackRefs.references
    dsimp only
    rw [hcount, if_pos rfl]
    omega
  obtain hlt | hused := hlive.lt_or_used (.inl href)
  · refine ⟨alloc.preservations, alloc.removedPreserved, ?_, hlive.congr (fun r hr => ?_) fun _ => id⟩
    · rw [RegisterAlloc.decRegisterUsage, hlive.not_isPreserved hlt]
      rfl
    · have hne : r ≠ reg := by
        intro heq
        rw [heq] at hr
        omega
      rw [hcount, if_neg hne, Nat.add_zero]
  · have hrefs : ∀ r, (StackRefs.mk providers stored operands results).references r +
        (if r = reg then 1 else 0) =
          (StackRefs.mk providers (.register reg :: stored) operands results).references r := by
      intro r
      unfold StackRefs.references
      dsimp only
      rw [hcount, Nat.add_assoc]
    obtain ⟨preservations, removedPreserved, hpop, hnext⟩ := hlive.release h
      ⟨providers, stored, operands, results⟩ hused rfl (fun _ hprovider => hprovider) rfl
      (fun _ => .inl) hrefs
    refine ⟨preservations, removedPreserved, ?_, hnext⟩
    rw [RegisterAlloc.decRegisterUsage, hlive.isPreserved_of_used hused]
    exact hpop

end Stored

end MotokoDebugger.Translator
