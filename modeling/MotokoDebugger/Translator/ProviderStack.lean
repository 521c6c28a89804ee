import Mathlib.Data.List.Induction
import MotokoDebugger.Translator.LocalRefs

/-!
# The stack of providers

`translator/stack/provider.rs`: the emulated value stack. Before a local changes, the entries that
refer to it are made to refer to a preserved register.

* `ProviderStack`: the entries, and the index of those that refer to locals.
* `WellFormed`: the index has the positions of every local.
* `push_ok`, `pop_ok`: no push fails, and no pop of a stack with an entry.
* `preserveLocals_eq`: what the preservation of a local does.
-/

namespace MotokoDebugger.Translator

open Fallible LocalRefs

/-- `ProviderStack`. -/
structure ProviderStack where
  providers : List TaggedProvider
  lenLocals : Nat
  useLocals : Bool
  locals : LocalRefs
deriving Repr, DecidableEq

/-- `PreservedLocal`. -/
structure PreservedLocal where
  «local» : Reg
  preserved : Reg
deriving Repr, DecidableEq

namespace ProviderStack

variable {σ : Type} (stash : MultiStash σ) (stack : ProviderStack) (alloc : RegisterAlloc σ)

/-- `reset`. -/
def reset : ProviderStack := ⟨[], 0, false, .reset⟩

/-- `PRESERVE_THRESHOLD`. -/
def preserveThreshold : Nat := 16

/-- The loop of `sync_local_refs`. -/
def pushLocals (refs : LocalRefs) : List TaggedProvider → (index : Nat) → Except Failure LocalRefs
  | [], _ => .ok refs
  | .local reg :: providers, index => do
    let refs ← refs.pushAt reg index
    pushLocals refs providers (index + 1)
  | _ :: providers, index => pushLocals refs providers (index + 1)

/-- `sync_local_refs`. -/
def syncLocalRefs : Except Failure ProviderStack :=
  if stack.useLocals = true ∨ stack.providers.length < preserveThreshold then .ok stack
  else do
    let locals ← pushLocals stack.locals stack.providers 0
    return { stack with locals, useLocals := true }

/-! ### Preserving one local -/

/-- The register for an entry of a local: a new one for the first entry. -/
def preserveNext (preserved : Option Reg) : Except Failure (Reg × RegisterAlloc σ) :=
  match preserved with
  | none => alloc.pushPreserved stash
  | some reg => do return (reg, ← alloc.bumpPreserved stash reg)

/-- The loop of `preserve_locals_inplace`, which ends early behind the last local. -/
def preserveInplace («local» : Reg) :
    List TaggedProvider → (lenLocals : Nat) → Option Reg → RegisterAlloc σ →
      Except Failure (List TaggedProvider × Nat × Option Reg × RegisterAlloc σ)
  | [], lenLocals, preserved, alloc => .ok ([], lenLocals, preserved, alloc)
  | provider :: providers, lenLocals, preserved, alloc =>
    if provider = .local «local» then do
      let (reg, alloc) ← preserveNext stash alloc preserved
      if lenLocals - 1 = 0 then
        return (.preserved reg :: providers, lenLocals - 1, some reg, alloc)
      let (providers, lenLocals, preserved, alloc) ←
        preserveInplace «local» providers (lenLocals - 1) (some reg) alloc
      return (.preserved reg :: providers, lenLocals, preserved, alloc)
    else do
      let (providers, lenLocals, preserved, alloc) ←
        preserveInplace «local» providers lenLocals preserved alloc
      return (provider :: providers, lenLocals, preserved, alloc)

/-- `preserve_locals_inplace`. -/
def preserveLocalsInplace («local» : Reg) :
    Except Failure (Option Reg × ProviderStack × RegisterAlloc σ) := do
  let (providers, lenLocals, preserved, alloc) ←
    preserveInplace stash «local» stack.providers stack.lenLocals none alloc
  return (preserved, { stack with providers, lenLocals }, alloc)

/-- What the closure of `preserve_locals_extern` works on. -/
structure Preserving (σ : Type) where
  providers : List TaggedProvider
  lenLocals : Nat
  preserved : Option Reg
  alloc : RegisterAlloc σ

/-- The closure of `preserve_locals_extern`. -/
def preserveAt (state : Preserving σ) (index : Nat) : Except Failure (Preserving σ) :=
  if index < state.providers.length then do
    let (reg, alloc) ← preserveNext stash state.alloc state.preserved
    return ⟨state.providers.set index (.preserved reg), state.lenLocals - 1, some reg, alloc⟩
  else .error .panic

/-- `preserve_locals_extern`. -/
def preserveLocalsExtern («local» : Reg) :
    Except Failure (Option Reg × ProviderStack × RegisterAlloc σ) := do
  let (locals, state) ← stack.locals.drainAt «local» (preserveAt stash)
    ⟨stack.providers, stack.lenLocals, none, alloc⟩
  return (state.preserved,
    { stack with providers := state.providers, lenLocals := state.lenLocals, locals }, state.alloc)

/-- `preserve_locals`. -/
def preserveLocals (preserveIndex : Nat) :
    Except Failure (Option Reg × ProviderStack × RegisterAlloc σ) :=
  if stack.lenLocals = 0 then .ok (none, stack, alloc)
  else do
    let stack ← stack.syncLocalRefs
    if preserveIndex < 2 ^ 15 then
      let «local» := Int16.ofNat preserveIndex
      match stack.useLocals with
      | false => stack.preserveLocalsInplace stash alloc «local»
      | true => stack.preserveLocalsExtern stash alloc «local»
    else .error .panic

/-! ### Preserving all locals -/

/-- Adds a local to the buffer of `preserve_all_locals_inplace`, unless its register is known. -/
def bufferLocal (known : Option Reg) (preserved : List PreservedLocal) (entry : PreservedLocal) :
    Except Failure (List PreservedLocal) :=
  if known.isSome then .ok preserved
  else if preserved.length < preserveThreshold then .ok (preserved ++ [entry])
  else .error .panic

/-- The loop of `preserve_all_locals_inplace`, which goes down the stack and ends early behind the
last local. The locals that it calls `f` with are those of its buffer. -/
def preserveAllInplace :
    List TaggedProvider → (lenLocals : Nat) → List PreservedLocal → RegisterAlloc σ →
      Except Failure (List TaggedProvider × Nat × List PreservedLocal × RegisterAlloc σ)
  | [], lenLocals, preserved, alloc => .ok ([], lenLocals, preserved, alloc)
  | .local «local» :: providers, lenLocals, preserved, alloc => do
    let known := (preserved.find? fun entry => entry.local = «local»).map PreservedLocal.preserved
    let (reg, alloc) ← preserveNext stash alloc known
    let preserved ← bufferLocal known preserved ⟨«local», reg⟩
    if lenLocals - 1 = 0 then
      return (.preserved reg :: providers, lenLocals - 1, preserved, alloc)
    let (providers, lenLocals, preserved, alloc) ←
      preserveAllInplace providers (lenLocals - 1) preserved alloc
    return (.preserved reg :: providers, lenLocals, preserved, alloc)
  | provider :: providers, lenLocals, preserved, alloc => do
    let (providers, lenLocals, preserved, alloc) ←
      preserveAllInplace providers lenLocals preserved alloc
    return (provider :: providers, lenLocals, preserved, alloc)

/-- `preserve_all_locals_inplace`. -/
def preserveAllLocalsInplace :
    Except Failure (List PreservedLocal × ProviderStack × RegisterAlloc σ) := do
  let (providers, lenLocals, preserved, alloc) ←
    preserveAllInplace stash stack.providers.reverse stack.lenLocals [] alloc
  return (preserved, { stack with providers := providers.reverse, lenLocals }, alloc)

/-- What the closure of `preserve_all_locals_extern` works on. `preserved` are the locals that it
calls `f` with. -/
structure PreservingAll (σ : Type) where
  providers : List TaggedProvider
  lenLocals : Nat
  group : Option PreservedLocal
  preserved : List PreservedLocal
  alloc : RegisterAlloc σ

/-- The closure of `preserve_all_locals_extern`. -/
def preserveAllAt (state : PreservingAll σ) («local» : Reg) (index : Nat) :
    Except Failure (PreservingAll σ) := do
  let known :=
    (state.group.filter fun group => group.local = «local»).map PreservedLocal.preserved
  let (reg, alloc) ← preserveNext stash state.alloc known
  let preserved :=
    if known.isSome then state.preserved else state.preserved ++ [⟨«local», reg⟩]
  if index < state.providers.length then
    return ⟨state.providers.set index (.preserved reg), state.lenLocals - 1, some ⟨«local», reg⟩,
      preserved, alloc⟩
  else .error .panic

/-- `preserve_all_locals_extern`. -/
def preserveAllLocalsExtern :
    Except Failure (List PreservedLocal × ProviderStack × RegisterAlloc σ) := do
  let (locals, state) ← stack.locals.drainAll (preserveAllAt stash)
    ⟨stack.providers, stack.lenLocals, none, [], alloc⟩
  return (state.preserved,
    { stack with providers := state.providers, lenLocals := state.lenLocals, locals }, state.alloc)

/-- `preserve_all_locals`, with the locals that it calls `f` with. -/
def preserveAllLocals : Except Failure (List PreservedLocal × ProviderStack × RegisterAlloc σ) :=
  if stack.lenLocals = 0 then .ok ([], stack, alloc)
  else do
    let stack ← stack.syncLocalRefs
    match stack.useLocals with
    | false => stack.preserveAllLocalsInplace stash alloc
    | true => stack.preserveAllLocalsExtern stash alloc

/-! ### Pushing and popping -/

/-- `push`. -/
def push (provider : TaggedProvider) : Except Failure ProviderStack :=
  let index := stack.providers.length
  let pushed := { stack with providers := stack.providers ++ [provider] }
  match provider with
  | .local reg =>
    match stack.useLocals with
    | false => .ok { pushed with lenLocals := stack.lenLocals + 1 }
    | true => do
      let locals ← stack.locals.pushAt reg index
      return { pushed with lenLocals := stack.lenLocals + 1, locals }
  | _ => .ok pushed

/-- `peek`. -/
def peek : Except Failure TaggedProvider :=
  match stack.providers.getLast? with
  | none => .error .panic
  | some provider => .ok provider

/-- `pop`. -/
def pop : Except Failure (TaggedProvider × ProviderStack) := do
  let provider ← stack.peek
  let popped := { stack with providers := stack.providers.dropLast }
  match provider with
  | .local reg =>
    match stack.useLocals with
    | false => return (provider, { popped with lenLocals := stack.lenLocals - 1 })
    | true =>
      let (_, locals) ← stack.locals.popAt reg
      return (provider, { popped with lenLocals := stack.lenLocals - 1, locals })
  | _ => return (provider, popped)

/-- `peek_n`. -/
def peekN (n : Nat) : Except Failure (List TaggedProvider) :=
  if n ≤ stack.providers.length then .ok (stack.providers.drop (stack.providers.length - n))
  else .error .panic

end ProviderStack

/-! ## Positions of locals -/

/-- The positions of the entries that refer to a local, from the top of the stack down. -/
def positions (reg : Reg) (providers : List TaggedProvider) : List Nat :=
  ((List.range providers.length).filter fun i => providers[i]? = some (.local reg)).reverse

section Positions

variable {reg : Reg} {providers : List TaggedProvider}

lemma mem_positions {i : Nat} : i ∈ positions reg providers ↔ providers[i]? = some (.local reg) := by
  rw [positions, List.mem_reverse, List.mem_filter, List.mem_range, decide_eq_true_iff]
  exact and_iff_right_of_imp fun h => (List.getElem?_eq_some_iff.1 h).1

lemma nodup_positions : (positions reg providers).Nodup :=
  List.nodup_reverse.2 (List.nodup_range.filter _)

lemma positions_concat (provider : TaggedProvider) :
    positions reg (providers ++ [provider]) =
      if provider = .local reg then providers.length :: positions reg providers
      else positions reg providers := by
  have hrest : (List.range providers.length).filter
        (fun i => decide ((providers ++ [provider])[i]? = some (.local reg))) =
      (List.range providers.length).filter
        fun i => decide (providers[i]? = some (.local reg)) := by
    apply List.filter_congr
    intro i hi
    rw [List.getElem?_append_left (List.mem_range.1 hi)]
  rw [positions, List.length_append, List.length_singleton, List.range_succ, List.filter_append,
    hrest, List.filter_singleton, List.getElem?_concat_length, List.reverse_append]
  by_cases heq : provider = .local reg
  · rw [if_pos heq, heq]
    simp [positions]
  · rw [if_neg heq]
    simp [positions, heq]

lemma length_positions : (positions reg providers).length = providers.count (.local reg) := by
  induction providers using List.reverseRecOn with
  | nil => rfl
  | append_singleton providers provider ih =>
    rw [positions_concat, List.count_append, List.count_singleton, ← ih]
    by_cases heq : provider = .local reg
    · rw [if_pos heq, heq, List.length_cons, beq_self_eq_true, if_pos rfl]
    · rw [if_neg heq, if_neg (by simpa using heq)]
      rfl

end Positions

/-- Does the entry refer to a local? -/
def TaggedProvider.isLocal : TaggedProvider → Bool
  | .local _ => true
  | _ => false

lemma TaggedProvider.local_or (provider : TaggedProvider) :
    (∃ reg, provider = .local reg) ∨ provider.isLocal = false := by
  cases provider with
  | «local» reg => exact .inl ⟨reg, rfl⟩
  | _ => exact .inr rfl

/-- The entry, with a local that is preserved replaced. -/
def TaggedProvider.preserve («local» : Reg) (preserved : Option Reg) (provider : TaggedProvider) :
    TaggedProvider :=
  match preserved with
  | none => provider
  | some reg => if provider = .local «local» then .preserved reg else provider

lemma positions_preserve («local» reg : Reg) (preserved : Reg) (providers : List TaggedProvider) :
    positions reg (providers.map (TaggedProvider.preserve «local» (some preserved))) =
      if reg = «local» then [] else positions reg providers := by
  have hentry : ∀ provider : TaggedProvider, provider.preserve «local» (some preserved) =
      .local reg ↔ reg ≠ «local» ∧ provider = .local reg := by
    intro provider
    rw [TaggedProvider.preserve]
    by_cases heq : provider = .local «local»
    · rw [if_pos heq, heq]
      simp [eq_comm]
    · rw [if_neg heq]
      refine ⟨fun h => ⟨?_, h⟩, And.right⟩
      rintro rfl
      exact heq h
  rw [positions, List.length_map]
  by_cases heq : reg = «local»
  · rw [if_pos heq, List.reverse_eq_nil_iff, List.filter_eq_nil_iff]
    intro i _ h
    rw [decide_eq_true_iff, List.getElem?_map, Option.map_eq_some_iff] at h
    obtain ⟨provider, _, hprovider⟩ := h
    exact ((hentry provider).1 hprovider).1 heq
  · rw [if_neg heq, positions]
    congr 1
    apply List.filter_congr
    intro i _
    rw [List.getElem?_map, decide_eq_decide]
    cases providers[i]? with
    | none => simp
    | some provider =>
      rw [Option.map_some, Option.some.injEq, hentry, Option.some.injEq]
      exact and_iff_right heq

/-! ## The index -/

/-- The list of every local stands for its positions on the stack. -/
def LocalRefs.Lists (refs : LocalRefs) (providers : List TaggedProvider) : Prop :=
  ∃ nodes, refs.Indexes nodes ∧ ∀ reg, (nodes reg).map Prod.snd = positions reg providers

namespace LocalRefs

variable {refs : LocalRefs} {providers : List TaggedProvider}

lemma lists_reset : reset.Lists [] := ⟨fun _ => [], reset_indexes, fun _ => rfl⟩

/-- Entries that refer to no local are not in the index. -/
lemma Lists.push_other (h : refs.Lists providers) {provider : TaggedProvider}
    (hprovider : provider.isLocal = false) : refs.Lists (providers ++ [provider]) := by
  obtain ⟨nodes, hindexes, hnodes⟩ := h
  refine ⟨nodes, hindexes, fun reg => ?_⟩
  have hne : provider ≠ .local reg := by
    rintro rfl
    cases hprovider
  rw [positions_concat, if_neg hne, hnodes]

lemma Lists.pop_other {provider : TaggedProvider} (h : refs.Lists (providers ++ [provider]))
    (hprovider : provider.isLocal = false) : refs.Lists providers := by
  obtain ⟨nodes, hindexes, hnodes⟩ := h
  refine ⟨nodes, hindexes, fun reg => ?_⟩
  have hne : provider ≠ .local reg := by
    rintro rfl
    cases hprovider
  have hreg := hnodes reg
  rwa [positions_concat, if_neg hne] at hreg

lemma Lists.pushAt (h : refs.Lists providers) (reg : Reg) :
    ∃ refs', refs.pushAt reg providers.length = .ok refs' ∧
      refs'.Lists (providers ++ [.local reg]) := by
  obtain ⟨nodes, hindexes, hnodes⟩ := h
  obtain ⟨refs', index, hpush, hindexes'⟩ := pushAt_indexes hindexes reg providers.length
  refine ⟨refs', hpush, _, hindexes', fun reg' => ?_⟩
  rw [positions_concat]
  by_cases heq : reg' = reg
  · rw [if_pos (congrArg _ heq.symm), heq, Function.update_self, List.map_cons, hnodes]
  · have hne : TaggedProvider.local reg ≠ .local reg' :=
      fun h => heq (TaggedProvider.local.inj h).symm
    rw [if_neg hne, Function.update_of_ne heq, hnodes]

lemma Lists.popAt {reg : Reg} (h : refs.Lists (providers ++ [.local reg])) :
    ∃ slot refs', refs.popAt reg = .ok (slot, refs') ∧ refs'.Lists providers := by
  obtain ⟨nodes, hindexes, hnodes⟩ := h
  have htop := hnodes reg
  rw [positions_concat, if_pos rfl] at htop
  obtain ⟨⟨index, slot⟩, rest, hreg, hslot, hrest⟩ := List.map_eq_cons_iff.1 htop
  obtain ⟨refs', hpop, hindexes'⟩ := popAt_indexes hindexes hreg
  refine ⟨slot, refs', hpop, _, hindexes', fun reg' => ?_⟩
  by_cases heq : reg' = reg
  · rw [heq, Function.update_self, hrest]
  · have hreg' := hnodes reg'
    rw [positions_concat, if_neg fun h => heq (TaggedProvider.local.inj h).symm] at hreg'
    rw [Function.update_of_ne heq, hreg']

/-- The loop of `sync_local_refs` lists what is behind the entries that are listed already. -/
lemma Lists.pushLocals (h : refs.Lists providers) (rest : List TaggedProvider) :
    ∃ refs', ProviderStack.pushLocals refs rest providers.length = .ok refs' ∧
      refs'.Lists (providers ++ rest) := by
  induction rest generalizing refs providers with
  | nil => exact ⟨refs, rfl, by rwa [List.append_nil]⟩
  | cons provider rest ih =>
    have hlen : (providers ++ [provider]).length = providers.length + 1 := by
      rw [List.length_append, List.length_singleton]
    have happend : providers ++ [provider] ++ rest = providers ++ provider :: rest :=
      List.append_cons _ _ _ |>.symm
    obtain ⟨reg, rfl⟩ | hother := provider.local_or
    · obtain ⟨refs₁, hpush, hlists⟩ := h.pushAt reg
      obtain ⟨refs₂, hrest, hlists'⟩ := ih hlists
      rw [hlen] at hrest
      rw [happend] at hlists'
      refine ⟨refs₂, ?_, hlists'⟩
      rw [ProviderStack.pushLocals, hpush, ok_bind, hrest]
    · obtain ⟨refs₂, hrest, hlists'⟩ := ih (h.push_other hother)
      rw [hlen] at hrest
      rw [happend] at hlists'
      refine ⟨refs₂, ?_, hlists'⟩
      rw [← hrest]
      cases provider with
      | «local» => cases hother
      | _ => rfl

end LocalRefs

/-! ## Preserving entries -/

namespace ProviderStack

variable {σ : Type} {stash : MultiStash σ} {alloc : RegisterAlloc σ} {«local» : Reg}
  {providers : List TaggedProvider}

/-- The registers for a number of entries of one local. -/
def preserveN (stash : MultiStash σ) :
    Nat → Option Reg → RegisterAlloc σ → Except Failure (Option Reg × RegisterAlloc σ)
  | 0, preserved, alloc => .ok (preserved, alloc)
  | n + 1, preserved, alloc => do
    let (reg, alloc) ← preserveNext stash alloc preserved
    preserveN stash n (some reg) alloc

/-- All entries get one register. -/
lemma preserveNext_some {reg reg' : Reg} {alloc' : RegisterAlloc σ}
    (h : preserveNext stash alloc (some reg) = .ok (reg', alloc')) : reg' = reg := by
  obtain ⟨_, _, h⟩ := bind_eq_ok.1 h
  exact (Prod.mk.inj (Except.ok.inj h)).1.symm

lemma preserveN_some {n : Nat} {reg : Reg} {res : Option Reg × RegisterAlloc σ}
    (h : preserveN stash n (some reg) alloc = .ok res) : res.1 = some reg := by
  induction n generalizing alloc with
  | zero =>
    have hres : (some reg, alloc) = res := Except.ok.inj h
    rw [← hres]
  | succ n ih =>
    obtain ⟨⟨reg', alloc'⟩, hnext, h⟩ := bind_eq_ok.1 h
    rw [preserveNext_some hnext] at h
    exact ih h

/-- The register is a new one, if there is an entry to preserve. -/
lemma preserveN_none {n : Nat} {res : Option Reg × RegisterAlloc σ}
    (h : preserveN stash n none alloc = .ok res) :
    (res.1 = none ↔ n = 0) ∧
      ∀ reg, res.1 = some reg → ∃ alloc', alloc.pushPreserved stash = .ok (reg, alloc') := by
  cases n with
  | zero =>
    rw [preserveN] at h
    rw [← Except.ok.inj h]
    simp
  | succ n =>
    obtain ⟨⟨reg, alloc'⟩, hnext, h⟩ := bind_eq_ok.1 h
    rw [preserveN_some h]
    refine ⟨by simp, fun reg' heq => ⟨alloc', ?_⟩⟩
    obtain rfl := Option.some.inj heq
    exact hnext

lemma map_preserve_of_not_mem {preserved : Option Reg} (h : .local «local» ∉ providers) :
    providers.map (TaggedProvider.preserve «local» preserved) = providers := by
  have hsame : ∀ provider ∈ providers, provider.preserve «local» preserved = provider := by
    intro provider hprovider
    cases preserved with
    | none => rfl
    | some reg =>
      apply if_neg
      rintro rfl
      exact h hprovider
  rw [List.map_congr_left hsame, List.map_id']

/-- The preserved entries are no locals any more. -/
lemma countP_preserve {preserved : Option Reg}
    (h : preserved = none → .local «local» ∉ providers) :
    (providers.map (TaggedProvider.preserve «local» preserved)).countP TaggedProvider.isLocal =
      providers.countP TaggedProvider.isLocal - providers.count (.local «local») := by
  cases preserved with
  | none => rw [map_preserve_of_not_mem (h rfl), List.count_eq_zero_of_not_mem (h rfl), Nat.sub_zero]
  | some reg =>
    have hsum : (providers.map (TaggedProvider.preserve «local» (some reg))).countP
        TaggedProvider.isLocal + providers.count (.local «local») =
          providers.countP TaggedProvider.isLocal := by
      clear h
      induction providers with
      | nil => rfl
      | cons provider providers ih =>
        rw [List.map_cons, List.countP_cons, List.countP_cons, List.count_cons, ← ih]
        by_cases heq : provider = .local «local»
        · simp [heq, TaggedProvider.preserve, TaggedProvider.isLocal]
          omega
        · simp [heq, TaggedProvider.preserve]
          omega
    omega

lemma positions_map_preserve {preserved : Option Reg}
    (h : preserved = none → .local «local» ∉ providers) (reg : Reg) :
    positions reg (providers.map (TaggedProvider.preserve «local» preserved)) =
      if reg = «local» then [] else positions reg providers := by
  cases preserved with
  | some preserved => exact positions_preserve «local» reg preserved providers
  | none =>
    rw [map_preserve_of_not_mem (h rfl)]
    by_cases heq : reg = «local»
    · rw [if_pos heq, heq, ← List.length_eq_zero_iff, length_positions]
      exact List.count_eq_zero_of_not_mem (h rfl)
    · rw [if_neg heq]

/-- The scan of the stack preserves the entries of the local. -/
lemma preserveInplace_eq (lenLocals : Nat) (preserved : Option Reg) (alloc : RegisterAlloc σ)
    (hlen : providers.countP TaggedProvider.isLocal ≤ lenLocals) :
    preserveInplace stash «local» providers lenLocals preserved alloc =
      preserveN stash (providers.count (.local «local»)) preserved alloc >>= fun res =>
        .ok (providers.map (TaggedProvider.preserve «local» res.1),
          lenLocals - providers.count (.local «local»), res) := by
  induction providers generalizing lenLocals preserved alloc with
  | nil => rfl
  | cons provider providers ih =>
    rw [preserveInplace]
    by_cases heq : provider = .local «local»
    · subst heq
      rw [List.countP_cons_of_pos rfl] at hlen
      rw [if_pos rfl, List.count_cons_self, preserveN, bind_assoc]
      apply bind_congr_ok
      intro ⟨reg, alloc⟩ _
      have hhead : ∀ res, preserveN stash (providers.count (.local «local»)) (some reg) alloc =
          .ok res → TaggedProvider.preserve «local» res.1 (.local «local») = .preserved reg := by
        intro res hres
        rw [preserveN_some hres]
        exact if_pos rfl
      by_cases hzero : lenLocals - 1 = 0
      · -- the loop ends early, as no local is left
        have hnone : providers.countP TaggedProvider.isLocal = 0 := by omega
        have hmem : .local «local» ∉ providers := by
          intro hmem
          rw [List.countP_eq_zero] at hnone
          exact hnone _ hmem rfl
        have hcount := List.count_eq_zero_of_not_mem hmem
        rw [hcount] at hhead
        dsimp only
        rw [if_pos hzero, hcount, preserveN, ok_bind, List.map_cons, map_preserve_of_not_mem hmem,
          hhead _ rfl]
        rfl
      · dsimp only
        rw [if_neg hzero, ih (lenLocals - 1) (some reg) alloc (by omega), bind_assoc]
        apply bind_congr_ok
        intro res hres
        rw [List.map_cons, hhead res hres, Nat.add_comm, ← Nat.sub_sub]
        rfl
    · have hhead : ∀ preserved, TaggedProvider.preserve «local» preserved provider = provider := by
        intro preserved
        cases preserved with
        | none => rfl
        | some reg => exact if_neg heq
      have hle : providers.countP TaggedProvider.isLocal ≤ lenLocals := by
        rw [List.countP_cons] at hlen
        omega
      rw [if_neg heq, List.count_cons_of_ne heq, ih lenLocals preserved alloc hle, bind_assoc]
      apply bind_congr_ok
      intro res _
      rw [List.map_cons, hhead]
      rfl

/-- The entries at the positions, with the preserved register. -/
def writeAt (positions : List Nat) (preserved : Option Reg) (providers : List TaggedProvider) :
    List TaggedProvider :=
  match preserved with
  | none => providers
  | some reg => positions.foldl (fun providers i => providers.set i (.preserved reg)) providers

lemma getElem?_foldl_set {α : Type} (positions : List Nat) (a : α) (l : List α) (i : Nat) :
    (positions.foldl (fun l i => l.set i a) l)[i]? =
      if i ∈ positions ∧ i < l.length then some a else l[i]? := by
  induction positions generalizing l with
  | nil => simp
  | cons first positions ih =>
    rw [List.foldl_cons, ih, List.length_set]
    by_cases hlt : i < l.length
    · by_cases hmem : i ∈ positions
      · rw [if_pos ⟨hmem, hlt⟩, if_pos ⟨List.mem_cons_of_mem _ hmem, hlt⟩]
      · rw [if_neg fun h => hmem h.1]
        by_cases heq : i = first
        · rw [if_pos ⟨List.mem_cons.2 (.inl heq), hlt⟩, heq, List.getElem?_set_self (heq ▸ hlt)]
        · rw [if_neg fun h => (List.mem_cons.1 h.1).elim heq hmem,
            List.getElem?_set_ne fun h => heq h.symm]
    · have hset : (l.set first a).length ≤ i := by
        rw [List.length_set]
        exact Nat.le_of_not_lt hlt
      rw [if_neg fun h => hlt h.2, if_neg fun h => hlt h.2, List.getElem?_eq_none hset,
        List.getElem?_eq_none (Nat.le_of_not_lt hlt)]

/-- Writing to the positions of a local is replacing its entries. -/
lemma writeAt_positions {preserved : Option Reg} :
    writeAt (positions «local» providers) preserved providers =
      providers.map (TaggedProvider.preserve «local» preserved) := by
  cases preserved with
  | none => exact (List.map_id' providers).symm
  | some reg =>
    apply List.ext_getElem?
    intro i
    rw [writeAt, getElem?_foldl_set, List.getElem?_map]
    by_cases heq : providers[i]? = some (.local «local»)
    · rw [if_pos ⟨mem_positions.2 heq, (List.getElem?_eq_some_iff.1 heq).1⟩, heq]
      exact congrArg some (if_pos rfl).symm
    · rw [if_neg fun h => heq (mem_positions.1 h.1)]
      cases hentry : providers[i]? with
      | none => rfl
      | some provider =>
        have hne : provider ≠ .local «local» := by
          rintro rfl
          exact heq hentry
        exact congrArg some (if_neg hne).symm

/-- The index leads to the positions, which get one register. -/
lemma foldlM_preserveAt {positions : List Nat} (lenLocals : Nat) (preserved : Option Reg)
    (alloc : RegisterAlloc σ) (h : ∀ i ∈ positions, i < providers.length) :
    positions.foldlM (preserveAt stash) ⟨providers, lenLocals, preserved, alloc⟩ =
      preserveN stash positions.length preserved alloc >>= fun res =>
        .ok ⟨writeAt positions res.1 providers, lenLocals - positions.length, res.1, res.2⟩ := by
  induction positions generalizing providers lenLocals preserved alloc with
  | nil =>
    cases preserved with
    | none => rfl
    | some reg => rfl
  | cons i positions ih =>
    rw [List.foldlM_cons, preserveAt, if_pos (h i List.mem_cons_self), List.length_cons, preserveN,
      bind_assoc, bind_assoc]
    apply bind_congr_ok
    intro ⟨reg, alloc⟩ _
    have hrest : ∀ j ∈ positions, j < (providers.set i (.preserved reg)).length := by
      intro j hj
      rw [List.length_set]
      exact h j (List.mem_cons_of_mem _ hj)
    show positions.foldlM (preserveAt stash)
      ⟨providers.set i (.preserved reg), lenLocals - 1, some reg, alloc⟩ = _
    rw [ih (lenLocals - 1) (some reg) alloc hrest]
    apply bind_congr_ok
    intro res hres
    rw [preserveN_some hres, Nat.add_comm, ← Nat.sub_sub]
    rfl

/-! ## What holds of every stack -/

/-- The locals are counted, and those of a stack with an index are listed. -/
structure WellFormed (stack : ProviderStack) : Prop where
  lenLocals : stack.lenLocals = stack.providers.countP TaggedProvider.isLocal
  used : stack.useLocals = true → stack.locals.Lists stack.providers
  unused : stack.useLocals = false → stack.locals = .reset

variable {stack : ProviderStack}

lemma reset_wellFormed : reset.WellFormed := ⟨rfl, nofun, fun _ => rfl⟩

section

variable (h : stack.WellFormed)

include h

lemma syncLocalRefs_ok : ∃ stack' : ProviderStack, stack.syncLocalRefs = .ok stack' ∧
    stack'.WellFormed ∧ stack'.providers = stack.providers ∧ stack'.lenLocals = stack.lenLocals := by
  unfold syncLocalRefs
  split
  case isTrue => exact ⟨stack, rfl, h, rfl, rfl⟩
  case isFalse hunused =>
    have hlocals := h.unused (Bool.eq_false_iff.2 fun huse => hunused (.inl huse))
    obtain ⟨locals, hpush, hlists⟩ := lists_reset.pushLocals stack.providers
    refine ⟨{ stack with locals, useLocals := true }, ?_, ⟨h.lenLocals, fun _ => hlists, ?_⟩, rfl,
      rfl⟩
    · rw [hlocals]
      show (pushLocals .reset stack.providers ([] : List TaggedProvider).length >>= _) = _
      rw [hpush]
      rfl
    · intro huse
      cases huse

/-- Every push succeeds. -/
lemma push_ok (provider : TaggedProvider) : ∃ stack' : ProviderStack,
    stack.push provider = .ok stack' ∧ stack'.WellFormed ∧
      stack'.providers = stack.providers ++ [provider] := by
  obtain ⟨reg, rfl⟩ | hother := provider.local_or
  · have hlen : stack.lenLocals + 1 =
        (stack.providers ++ [TaggedProvider.local reg]).countP TaggedProvider.isLocal := by
      rw [List.countP_append, h.lenLocals]
      rfl
    cases huse : stack.useLocals with
    | false =>
      have hpush : stack.push (.local reg) = .ok { stack with
          providers := stack.providers ++ [.local reg], lenLocals := stack.lenLocals + 1 } := by
        rw [push, huse]
      refine ⟨_, hpush, ⟨hlen, fun huse' => ?_, h.unused⟩, rfl⟩
      cases huse.symm.trans huse'
    | true =>
      obtain ⟨locals, hpushAt, hlists⟩ := (h.used huse).pushAt reg
      have hpush : stack.push (.local reg) = .ok { stack with
          providers := stack.providers ++ [.local reg], lenLocals := stack.lenLocals + 1,
          locals } := by
        rw [push, huse]
        dsimp only
        rw [hpushAt]
        rfl
      refine ⟨_, hpush, ⟨hlen, fun _ => hlists, fun huse' => ?_⟩, rfl⟩
      cases huse.symm.trans huse'
  · have hpush : stack.push provider =
        .ok { stack with providers := stack.providers ++ [provider] } := by
      cases provider with
      | «local» => cases hother
      | _ => rfl
    have hlen : stack.lenLocals =
        (stack.providers ++ [provider]).countP TaggedProvider.isLocal := by
      rw [List.countP_append, h.lenLocals, List.countP_singleton, hother]
      rfl
    exact ⟨_, hpush, ⟨hlen, fun huse => (h.used huse).push_other hother, h.unused⟩, rfl⟩

/-- Every pop of a stack with an entry succeeds. -/
lemma pop_ok {provider : TaggedProvider} (htop : stack.providers = providers ++ [provider]) :
    ∃ stack' : ProviderStack, stack.pop = .ok (provider, stack') ∧ stack'.WellFormed ∧
      stack'.providers = providers := by
  have hpeek : stack.peek = .ok provider := by
    rw [peek, htop, List.getLast?_concat]
  have hrest : stack.providers.dropLast = providers := by
    rw [htop, List.dropLast_concat]
  have hcount := h.lenLocals
  rw [htop, List.countP_append, List.countP_singleton] at hcount
  rw [pop, hpeek, ok_bind]
  obtain ⟨reg, rfl⟩ | hother := provider.local_or
  · have hlen : stack.lenLocals - 1 = stack.providers.dropLast.countP TaggedProvider.isLocal := by
      rw [hrest, hcount]
      rfl
    cases huse : stack.useLocals with
    | false =>
      refine ⟨_, rfl, ⟨hlen, fun huse' => ?_, fun _ => h.unused huse⟩, hrest⟩
      cases huse'
    | true =>
      have hlists := h.used huse
      rw [htop] at hlists
      obtain ⟨slot, locals, hpop, hlists'⟩ := hlists.popAt
      dsimp only
      rw [hpop]
      refine ⟨_, rfl, ⟨hlen, fun _ => ?_, nofun⟩, hrest⟩
      show locals.Lists stack.providers.dropLast
      rwa [hrest]
  · have hlen : stack.lenLocals = stack.providers.dropLast.countP TaggedProvider.isLocal := by
      rw [hother] at hcount
      rw [hrest, hcount]
      rfl
    have hwell : WellFormed { stack with providers := stack.providers.dropLast } := by
      refine ⟨hlen, fun huse => ?_, h.unused⟩
      have hlists := h.used huse
      rw [htop] at hlists
      show stack.locals.Lists stack.providers.dropLast
      rw [hrest]
      exact hlists.pop_other hother
    cases provider with
    | «local» => cases hother
    | _ => exact ⟨_, rfl, hwell, hrest⟩

end

/-! ## Preserving one local -/

variable (stash) in
lemma preserveLocalsInplace_eq (h : stack.WellFormed) (alloc : RegisterAlloc σ) («local» : Reg) :
    stack.preserveLocalsInplace stash alloc «local» =
      preserveN stash (stack.providers.count (.local «local»)) none alloc >>= fun res =>
        .ok (res.1, { stack with
          providers := stack.providers.map (TaggedProvider.preserve «local» res.1)
          lenLocals := stack.lenLocals - stack.providers.count (.local «local») }, res.2) := by
  rw [preserveLocalsInplace, preserveInplace_eq _ _ _ (Nat.le_of_eq h.lenLocals.symm), bind_assoc]
  rfl

variable (stash) in
/-- The index without the local. -/
lemma preserveLocalsExtern_eq (h : stack.WellFormed) (huse : stack.useLocals = true)
    («local» : Reg) : ∃ locals : LocalRefs,
      (∃ nodes, locals.Indexes nodes ∧ ∀ reg, (nodes reg).map Prod.snd =
        if reg = «local» then [] else positions reg stack.providers) ∧
      ∀ alloc : RegisterAlloc σ, stack.preserveLocalsExtern stash alloc «local» =
        preserveN stash (stack.providers.count (.local «local»)) none alloc >>= fun res =>
          .ok (res.1, { stack with
            providers := stack.providers.map (TaggedProvider.preserve «local» res.1)
            lenLocals := stack.lenLocals - stack.providers.count (.local «local»)
            locals }, res.2) := by
  obtain ⟨nodes, hindexes, hnodes⟩ := h.used huse
  obtain ⟨locals, hindexes', hdrain⟩ := drainAt_indexes hindexes «local» (preserveAt stash)
  refine ⟨locals, ⟨_, hindexes', fun reg => ?_⟩, fun alloc => ?_⟩
  · by_cases heq : reg = «local»
    · rw [if_pos heq, heq, Function.update_self]
      rfl
    · rw [if_neg heq, Function.update_of_ne heq, hnodes]
  · have hlt : ∀ i ∈ positions «local» stack.providers, i < stack.providers.length :=
      fun i hi => (List.getElem?_eq_some_iff.1 (mem_positions.1 hi)).1
    rw [preserveLocalsExtern, hdrain, hnodes, foldlM_preserveAt stack.lenLocals none alloc hlt,
      length_positions, bind_assoc, bind_assoc]
    apply bind_congr_ok
    intro res _
    rw [writeAt_positions]
    rfl

variable (stash) in
/-- What the preservation of a local leaves is well-formed again. -/
lemma preserveLocals_eq (h : stack.WellFormed) {preserveIndex : Nat}
    (hindex : preserveIndex < 2 ^ 15) («local» : Reg) (hlocal : «local» = Int16.ofNat preserveIndex) :
    ∃ after : Option Reg → ProviderStack,
      (∀ preserved, (after preserved).providers =
        stack.providers.map (TaggedProvider.preserve «local» preserved)) ∧
      (∀ preserved, (preserved = none → .local «local» ∉ stack.providers) →
        (after preserved).WellFormed) ∧
      ∀ alloc : RegisterAlloc σ, stack.preserveLocals stash alloc preserveIndex =
        preserveN stash (stack.providers.count (.local «local»)) none alloc >>= fun res =>
          .ok (res.1, after res.1, res.2) := by
  unfold preserveLocals
  by_cases hzero : stack.lenLocals = 0
  · -- there is no local at all
    have hmem : .local «local» ∉ stack.providers := by
      intro hmem
      have hnone := h.lenLocals.symm.trans hzero
      rw [List.countP_eq_zero] at hnone
      exact hnone _ hmem rfl
    refine ⟨fun _ => stack, fun _ => (map_preserve_of_not_mem hmem).symm, fun _ _ => h,
      fun alloc => ?_⟩
    rw [if_pos hzero, List.count_eq_zero_of_not_mem hmem]
    rfl
  · obtain ⟨stack', hsync, hwell, hproviders, hlen⟩ := syncLocalRefs_ok h
    rw [← hproviders]
    have hcount : ∀ preserved, (preserved = none → .local «local» ∉ stack'.providers) →
        stack'.lenLocals - stack'.providers.count (.local «local») =
          (stack'.providers.map (TaggedProvider.preserve «local» preserved)).countP
            TaggedProvider.isLocal := by
      intro preserved hpreserved
      rw [hwell.lenLocals, countP_preserve hpreserved]
    cases huse : stack'.useLocals with
    | false =>
      refine ⟨fun preserved => { stack' with
        providers := stack'.providers.map (TaggedProvider.preserve «local» preserved)
        lenLocals := stack'.lenLocals - stack'.providers.count (.local «local») },
        fun _ => rfl, fun preserved hpreserved => ⟨hcount preserved hpreserved, fun huse' => ?_,
          hwell.unused⟩, fun alloc => ?_⟩
      · cases huse.symm.trans huse'
      · rw [if_neg hzero, hsync, ok_bind, if_pos hindex, ← hlocal]
        have heq := preserveLocalsInplace_eq stash hwell alloc «local»
        rw [huse] at heq
        simp only [huse]
        exact heq
    | true =>
      obtain ⟨locals, ⟨nodes, hindexes, hnodes⟩, heq⟩ :=
        preserveLocalsExtern_eq stash hwell huse «local»
      refine ⟨fun preserved => { stack' with
        providers := stack'.providers.map (TaggedProvider.preserve «local» preserved)
        lenLocals := stack'.lenLocals - stack'.providers.count (.local «local»)
        locals }, fun _ => rfl, fun preserved hpreserved => ⟨hcount preserved hpreserved,
          fun _ => ⟨nodes, hindexes, fun reg => ?_⟩, fun huse' => ?_⟩, fun alloc => ?_⟩
      · rw [hnodes, positions_map_preserve hpreserved]
      · cases huse.symm.trans huse'
      · rw [if_neg hzero, hsync, ok_bind, if_pos hindex, ← hlocal]
        rw [huse] at heq
        simp only [huse]
        exact heq alloc

lemma not_mem_of_preserveN {res : Option Reg × RegisterAlloc σ}
    (h : preserveN stash (providers.count (.local «local»)) none alloc = .ok res) :
    res.1 = none → .local «local» ∉ providers := by
  intro hnone
  exact List.count_eq_zero.1 ((preserveN_none h).1.1 hnone)

lemma preserveLocals_wellFormed (h : stack.WellFormed) {preserveIndex : Nat}
    {res : Option Reg × ProviderStack × RegisterAlloc σ}
    (hop : stack.preserveLocals stash alloc preserveIndex = .ok res) : res.2.1.WellFormed := by
  by_cases hindex : preserveIndex < 2 ^ 15
  · obtain ⟨after, _, hwell, heq⟩ := preserveLocals_eq stash h hindex _ rfl
    rw [heq] at hop
    obtain ⟨res', hpreserve, hop⟩ := bind_eq_ok.1 hop
    obtain rfl := Except.ok.inj hop
    exact hwell res'.1 (not_mem_of_preserveN hpreserve)
  · unfold preserveLocals at hop
    split at hop
    case isTrue =>
      obtain rfl := Except.ok.inj hop
      exact h
    case isFalse =>
      obtain ⟨stack', _, hop⟩ := bind_eq_ok.1 hop
      cases hop

/-- A new preserved register can be bumped. -/
lemma bumpPreserved_of_pushPreserved {reg : Reg} {alloc₁ : RegisterAlloc σ}
    (h : alloc.pushPreserved stash = .ok (reg, alloc₁)) (alloc' : RegisterAlloc σ) :
    ∃ alloc'', alloc'.bumpPreserved stash reg = .ok alloc'' := by
  unfold RegisterAlloc.pushPreserved at h
  obtain ⟨_, _, h⟩ := bind_eq_ok.1 h
  obtain ⟨reg', hkey, h⟩ := bind_eq_ok.1 h
  obtain ⟨_, _, h⟩ := bind_eq_ok.1 h
  obtain ⟨rfl, _⟩ := Prod.mk.inj (Except.ok.inj h)
  have hreg := RegisterAlloc.reg2key_of_key2reg hkey
  exact ⟨_, by rw [RegisterAlloc.bumpPreserved, hreg]; rfl⟩

/-- Only the first of the registers may be refused. -/
lemma preserveN_error {n : Nat} {failure : Failure}
    (h : preserveN stash n none alloc = .error failure) :
    n ≠ 0 ∧ alloc.pushPreserved stash = .error failure := by
  have hbump : ∀ {n : Nat} {reg : Reg} {alloc₁ : RegisterAlloc σ},
      (∀ alloc' : RegisterAlloc σ, ∃ alloc'', alloc'.bumpPreserved stash reg = .ok alloc'') →
      ∃ res, preserveN stash n (some reg) alloc₁ = .ok res := by
    intro n reg alloc₁ hreg
    induction n generalizing alloc₁ with
    | zero => exact ⟨_, rfl⟩
    | succ n ih =>
      obtain ⟨alloc₂, hbumped⟩ := hreg alloc₁
      obtain ⟨res, hres⟩ := @ih alloc₂
      refine ⟨res, ?_⟩
      rw [preserveN, preserveNext, hbumped]
      exact hres
  cases n with
  | zero => cases h
  | succ n =>
    refine ⟨Nat.succ_ne_zero n, ?_⟩
    obtain hnext | ⟨⟨reg, alloc₁⟩, hnext, h⟩ := bind_eq_error.1 h
    · exact hnext
    · obtain ⟨res, hres⟩ := @hbump n reg alloc₁ (bumpPreserved_of_pushPreserved hnext)
      cases hres.symm.trans h

end ProviderStack

end MotokoDebugger.Translator
