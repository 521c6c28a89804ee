import MotokoDebugger.Translator.Defragment
import MotokoDebugger.Translator.ProviderStack

/-!
# The preservation of locals

* `PreserveStep`: one entry of the stack is preserved; `preserveAllLocals_ok` says that the
  preservation of all locals is a sequence of such steps, whichever way the locals are found.
* `Reached`: the stacks that operations lead to.
* `preserveLocals_exact`: the index is exact, and so is the preservation with or without it.
-/

namespace MotokoDebugger.Translator

open Fallible LocalRefs

namespace ProviderStack

variable {σ : Type} {stash : MultiStash σ} {alloc : RegisterAlloc σ} {«local» : Reg}
  {providers : List TaggedProvider} {stack : ProviderStack}

/-! ## Entries one by one -/

/-- The entries, and what the preservation of an entry changes besides. `preserved` are the locals
that have a register already. -/
structure Entries (σ : Type) where
  providers : List TaggedProvider
  lenLocals : Nat
  preserved : List PreservedLocal
  alloc : RegisterAlloc σ

/-- One entry of a local is preserved: the first one in a new register, the others in the same. -/
inductive PreserveStep (stash : MultiStash σ) : Entries σ → Entries σ → Prop
  | first {before after : List TaggedProvider} {«local» reg : Reg} {lenLocals : Nat}
    {preserved : List PreservedLocal} {alloc alloc' : RegisterAlloc σ}
    (hnew : ∀ entry ∈ preserved, entry.local ≠ «local»)
    (hpush : alloc.pushPreserved stash = .ok (reg, alloc')) :
    PreserveStep stash ⟨before ++ .local «local» :: after, lenLocals, preserved, alloc⟩
      ⟨before ++ .preserved reg :: after, lenLocals - 1, preserved ++ [⟨«local», reg⟩], alloc'⟩
  | again {before after : List TaggedProvider} {«local» reg : Reg} {lenLocals : Nat}
    {preserved : List PreservedLocal} {alloc alloc' : RegisterAlloc σ}
    (hknown : ⟨«local», reg⟩ ∈ preserved) (hthere : .preserved reg ∈ before ++ after)
    (hbump : alloc.bumpPreserved stash reg = .ok alloc') :
    PreserveStep stash ⟨before ++ .local «local» :: after, lenLocals, preserved, alloc⟩
      ⟨before ++ .preserved reg :: after, lenLocals - 1, preserved, alloc'⟩

/-- The entries are preserved one after the other. -/
abbrev PreserveSteps (stash : MultiStash σ) : Entries σ → Entries σ → Prop :=
  Relation.ReflTransGen (PreserveStep stash)

/-- The locals that have a register, with a further one unless it is known. -/
def known (preserved : List PreservedLocal) («local» : Reg) : Option Reg → Reg → List PreservedLocal
  | none, reg => preserved ++ [⟨«local», reg⟩]
  | some _, _ => preserved

/-- A step, by the register that is known of the local. -/
lemma PreserveStep.next {before after : List TaggedProvider} {«local» reg : Reg}
    {found : Option Reg} {lenLocals : Nat} {preserved : List PreservedLocal}
    {alloc' : RegisterAlloc σ} (hnone : found = none → ∀ entry ∈ preserved, entry.local ≠ «local»)
    (hsome : ∀ reg, found = some reg →
      ⟨«local», reg⟩ ∈ preserved ∧ .preserved reg ∈ before ++ after)
    (hnext : preserveNext stash alloc found = .ok (reg, alloc')) :
    PreserveStep stash ⟨before ++ .local «local» :: after, lenLocals, preserved, alloc⟩
      ⟨before ++ .preserved reg :: after, lenLocals - 1, known preserved «local» found reg,
        alloc'⟩ := by
  cases found with
  | none => exact .first (hnone rfl) hnext
  | some reg' =>
    obtain rfl := preserveNext_some hnext
    obtain ⟨alloc₁, hbump, hnext⟩ := bind_eq_ok.1 hnext
    obtain ⟨_, rfl⟩ := Prod.mk.inj (Except.ok.inj hnext)
    exact .again (hsome reg rfl).1 (hsome reg rfl).2 hbump

lemma PreserveStep.of_getElem? {i : Nat} {reg : Reg} {found : Option Reg} {lenLocals : Nat}
    {preserved : List PreservedLocal} {alloc' : RegisterAlloc σ}
    (hentry : providers[i]? = some (.local «local»))
    (hnone : found = none → ∀ entry ∈ preserved, entry.local ≠ «local»)
    (hsome : ∀ reg, found = some reg → ⟨«local», reg⟩ ∈ preserved ∧ .preserved reg ∈ providers)
    (hnext : preserveNext stash alloc found = .ok (reg, alloc')) :
    PreserveStep stash ⟨providers, lenLocals, preserved, alloc⟩
      ⟨providers.set i (.preserved reg), lenLocals - 1, known preserved «local» found reg,
        alloc'⟩ := by
  obtain ⟨hlt, hget⟩ := List.getElem?_eq_some_iff.1 hentry
  have hsplit : providers = providers.take i ++ .local «local» :: providers.drop (i + 1) := by
    rw [← hget, List.getElem_cons_drop, List.take_append_drop]
  have hset : providers.set i (.preserved reg) =
      providers.take i ++ .preserved reg :: providers.drop (i + 1) := by
    rw [List.set_eq_take_append_cons_drop, if_pos hlt]
  rw [hset]
  nth_rewrite 1 [hsplit]
  refine .next hnone (fun reg heq => ?_) hnext
  obtain ⟨hknown, hmem⟩ := hsome reg heq
  rw [hsplit, List.mem_append, List.mem_cons] at hmem
  rw [List.mem_append]
  exact ⟨hknown, hmem.imp id fun h => h.resolve_left (by simp)⟩

lemma PreserveStep.reverse {before after : List TaggedProvider} {reg : Reg} {found : Option Reg}
    {lenLocals : Nat} {preserved : List PreservedLocal} {alloc' : RegisterAlloc σ}
    (hnone : found = none → ∀ entry ∈ preserved, entry.local ≠ «local»)
    (hsome : ∀ reg, found = some reg → ⟨«local», reg⟩ ∈ preserved ∧ .preserved reg ∈ before)
    (hnext : preserveNext stash alloc found = .ok (reg, alloc')) :
    PreserveStep stash ⟨(before ++ .local «local» :: after).reverse, lenLocals, preserved, alloc⟩
      ⟨(before ++ .preserved reg :: after).reverse, lenLocals - 1,
        known preserved «local» found reg, alloc'⟩ := by
  rw [List.reverse_append, List.reverse_append, List.reverse_cons, List.reverse_cons,
    List.append_assoc, List.append_assoc]
  refine .next hnone (fun reg heq => ?_) hnext
  obtain ⟨hknown, hmem⟩ := hsome reg heq
  exact ⟨hknown, List.mem_append_right _ (List.mem_reverse.2 hmem)⟩

/-- The local with its register, if it has one. -/
def entryOf («local» : Reg) : Option Reg → List PreservedLocal
  | none => []
  | some reg => [⟨«local», reg⟩]

/-- The entries of one local, one by one. -/
lemma preserveSteps_of_preserveN {before : List TaggedProvider} {preserved : Option Reg}
    {lenLocals : Nat} {res : Option Reg × RegisterAlloc σ}
    (hthere : ∀ reg, preserved = some reg → .preserved reg ∈ before)
    (h : preserveN stash (providers.count (.local «local»)) preserved alloc = .ok res) :
    PreserveSteps stash ⟨before ++ providers, lenLocals, entryOf «local» preserved, alloc⟩
      ⟨before ++ providers.map (TaggedProvider.preserve «local» res.1),
        lenLocals - providers.count (.local «local»), entryOf «local» res.1, res.2⟩ := by
  induction providers generalizing before preserved lenLocals alloc with
  | nil =>
    rw [List.count_nil, preserveN] at h
    obtain rfl := Except.ok.inj h
    exact .refl
  | cons provider providers ih =>
    by_cases heq : provider = .local «local»
    · subst heq
      rw [List.count_cons_self] at h
      obtain ⟨⟨reg, alloc₁⟩, hnext, h⟩ := bind_eq_ok.1 h
      dsimp only at h
      have hnone : preserved = none →
          ∀ entry ∈ entryOf «local» preserved, entry.local ≠ «local» := by
        rintro rfl entry hentry
        cases hentry
      have hsome : ∀ reg, preserved = some reg → ⟨«local», reg⟩ ∈ entryOf «local» preserved ∧
          .preserved reg ∈ before ++ providers := by
        rintro reg rfl
        exact ⟨List.mem_singleton.2 rfl, List.mem_append_left _ (hthere reg rfl)⟩
      have hentry : known (entryOf «local» preserved) «local» preserved reg =
          entryOf «local» (some reg) := by
        cases preserved with
        | none => rfl
        | some reg' =>
          rw [preserveNext_some hnext]
          rfl
      have hstep : PreserveStep stash
          ⟨before ++ .local «local» :: providers, lenLocals, entryOf «local» preserved, alloc⟩ _ :=
        .next hnone hsome hnext
      rw [hentry] at hstep
      have hthere' : ∀ reg', some reg = some reg' →
          TaggedProvider.preserved reg' ∈ before ++ [.preserved reg] := by
        intro reg' heq
        obtain rfl := Option.some.inj heq
        simp
      have hsteps : PreserveSteps stash ⟨_, lenLocals - 1, _, _⟩ _ := ih hthere' h
      have hres := preserveN_some h
      have hhead : TaggedProvider.preserve «local» res.1 (.local «local») = .preserved reg := by
        rw [hres]
        exact if_pos rfl
      rw [List.append_assoc, List.append_assoc, Nat.sub_sub, Nat.add_comm] at hsteps
      rw [List.count_cons_self, List.map_cons, hhead]
      exact .head hstep hsteps
    · rw [List.count_cons_of_ne heq] at h
      have hhead : TaggedProvider.preserve «local» res.1 provider = provider := by
        cases res.1 with
        | none => rfl
        | some reg => exact if_neg heq
      have hsteps : PreserveSteps stash
          ⟨(before ++ [provider]) ++ providers, lenLocals, entryOf «local» preserved, _⟩ _ :=
        ih (fun reg heq => List.mem_append_left _ (hthere reg heq)) h
      rw [List.append_assoc, List.append_assoc] at hsteps
      rw [List.count_cons_of_ne heq, List.map_cons, hhead]
      exact hsteps

/-! ## Preserving all locals -/

lemma bufferLocal_ok {found : Option Reg} {preserved preserved' : List PreservedLocal} {reg : Reg}
    (h : bufferLocal found preserved ⟨«local», reg⟩ = .ok preserved') :
    preserved' = known preserved «local» found reg := by
  unfold bufferLocal at h
  cases found with
  | some _ => exact (Except.ok.inj h).symm
  | none =>
    dsimp only [Option.isSome_none] at h
    rw [if_neg Bool.false_ne_true] at h
    split at h
    · exact (Except.ok.inj h).symm
    · cases h

/-- The scan from the top leaves no local behind. -/
lemma preserveAllInplace_ok {before rest : List TaggedProvider} {lenLocals : Nat}
    {preserved : List PreservedLocal}
    {res : List TaggedProvider × Nat × List PreservedLocal × RegisterAlloc σ}
    (hthere : ∀ entry ∈ preserved, .preserved entry.preserved ∈ before)
    (hlen : rest.countP TaggedProvider.isLocal = lenLocals)
    (h : preserveAllInplace stash rest lenLocals preserved alloc = .ok res) :
    PreserveSteps stash ⟨(before ++ rest).reverse, lenLocals, preserved, alloc⟩
      ⟨(before ++ res.1).reverse, res.2.1, res.2.2.1, res.2.2.2⟩ ∧
      res.1.countP TaggedProvider.isLocal = 0 := by
  induction rest generalizing before lenLocals preserved alloc res with
  | nil =>
    obtain rfl : ([], lenLocals, preserved, alloc) = res := Except.ok.inj h
    exact ⟨.refl, rfl⟩
  | cons provider rest ih =>
    have happend : ∀ (provider : TaggedProvider) rest,
        before ++ provider :: rest = (before ++ [provider]) ++ rest := List.append_cons before
    obtain ⟨reg, rfl⟩ | hother := provider.local_or
    · rw [List.countP_cons_of_pos rfl] at hlen
      obtain ⟨⟨preservedReg, alloc₁⟩, hnext, h⟩ := bind_eq_ok.1 h
      obtain ⟨preserved₁, hbuffer, h⟩ := bind_eq_ok.1 h
      dsimp only at h
      obtain rfl := bufferLocal_ok hbuffer
      have hnone : (preserved.find? fun entry => entry.local = reg).map
          PreservedLocal.preserved = none → ∀ entry ∈ preserved, entry.local ≠ reg := by
        intro hfound entry hentry
        rw [Option.map_eq_none_iff, List.find?_eq_none] at hfound
        exact fun heq => hfound entry hentry (decide_eq_true heq)
      have hsome : ∀ reg', (preserved.find? fun entry => entry.local = reg).map
          PreservedLocal.preserved = some reg' →
            ⟨reg, reg'⟩ ∈ preserved ∧ .preserved reg' ∈ before := by
        intro reg' hfound
        obtain ⟨entry, hentry, rfl⟩ := Option.map_eq_some_iff.1 hfound
        have hmem := List.mem_of_find?_eq_some hentry
        have hlocal : entry.local = reg := by simpa using List.find?_some hentry
        refine ⟨?_, hthere entry hmem⟩
        rw [← hlocal]
        exact hmem
      have hstep : PreserveStep stash
          ⟨(before ++ .local reg :: rest).reverse, lenLocals, preserved, alloc⟩ _ :=
        .reverse hnone hsome hnext
      by_cases hzero : lenLocals - 1 = 0
      · rw [if_pos hzero] at h
        obtain rfl := Except.ok.inj h
        refine ⟨.single hstep, ?_⟩
        rw [List.countP_cons_of_neg (by simp [TaggedProvider.isLocal])]
        omega
      · rw [if_neg hzero] at h
        obtain ⟨res₁, hrest, h⟩ := bind_eq_ok.1 h
        obtain rfl := Except.ok.inj h
        have hthere₁ : ∀ entry ∈ known preserved reg ((preserved.find? fun entry =>
            entry.local = reg).map PreservedLocal.preserved) preservedReg,
            .preserved entry.preserved ∈ before ++ [TaggedProvider.preserved preservedReg] := by
          intro entry hentry
          unfold known at hentry
          split at hentry
          · obtain hentry | hentry := List.mem_append.1 hentry
            · exact List.mem_append_left _ (hthere entry hentry)
            · rw [List.mem_singleton.1 hentry]
              exact List.mem_append_right _ (List.mem_singleton.2 rfl)
          · exact List.mem_append_left _ (hthere entry hentry)
        obtain ⟨hsteps, hleft⟩ := ih hthere₁ (by omega) hrest
        rw [← happend, ← happend] at hsteps
        refine ⟨.head hstep hsteps, ?_⟩
        rw [List.countP_cons_of_neg (by simp [TaggedProvider.isLocal])]
        exact hleft
    · have hpop : preserveAllInplace stash (provider :: rest) lenLocals preserved alloc =
          preserveAllInplace stash rest lenLocals preserved alloc >>= fun res =>
            .ok (provider :: res.1, res.2) := by
        cases provider with
        | «local» => cases hother
        | _ => rfl
      have hneg : ¬provider.isLocal = true := by
        rw [hother]
        exact Bool.false_ne_true
      rw [hpop] at h
      obtain ⟨res₁, hrest, h⟩ := bind_eq_ok.1 h
      obtain rfl := Except.ok.inj h
      rw [List.countP_cons_of_neg hneg] at hlen
      have hthere₁ : ∀ entry ∈ preserved, .preserved entry.preserved ∈ before ++ [provider] :=
        fun entry hentry => List.mem_append_left _ (hthere entry hentry)
      obtain ⟨hsteps, hleft⟩ := ih hthere₁ hlen hrest
      rw [← happend, ← happend] at hsteps
      refine ⟨hsteps, ?_⟩
      rw [List.countP_cons_of_neg hneg]
      exact hleft

/-- Where the index is drained: the locals that have a register are the one of the group and lower
ones. -/
structure Drained (drained : List (Reg × Nat)) (state : PreservingAll σ) : Prop where
  entries : ∀ entry ∈ drained, state.providers[entry.2]? = some (.local entry.1)
  nodup : (drained.map Prod.snd).Nodup
  sorted : drained.Pairwise fun entry entry' => entry.1.toInt ≤ entry'.1.toInt
  group : ∀ group, state.group = some group → group ∈ state.preserved ∧
    .preserved group.preserved ∈ state.providers ∧ ∀ entry ∈ drained, group.local.toInt ≤ entry.1.toInt
  preserved : ∀ entry ∈ state.preserved, ∃ group, state.group = some group ∧
    entry.local.toInt ≤ group.local.toInt

/-- The positions that the index leads to are preserved, and no others. -/
lemma foldlM_preserveAllAt {drained : List (Reg × Nat)} {state state' : PreservingAll σ}
    (hdrained : Drained drained state)
    (h : drained.foldlM (fun state entry => preserveAllAt stash state entry.1 entry.2) state =
      .ok state') :
    PreserveSteps stash ⟨state.providers, state.lenLocals, state.preserved, state.alloc⟩
      ⟨state'.providers, state'.lenLocals, state'.preserved, state'.alloc⟩ ∧
      ∀ i reg, state'.providers[i]? = some (.local reg) →
        state.providers[i]? = some (.local reg) ∧ i ∉ drained.map Prod.snd := by
  induction drained generalizing state with
  | nil =>
    obtain rfl : state = state' := Except.ok.inj h
    exact ⟨.refl, fun i reg hentry => ⟨hentry, List.not_mem_nil⟩⟩
  | cons entry drained ih =>
    rw [List.foldlM_cons] at h
    obtain ⟨state₁, hstate, h⟩ := bind_eq_ok.1 h
    obtain ⟨⟨reg, alloc₁⟩, hnext, hstate⟩ := bind_eq_ok.1 hstate
    have hentry := hdrained.entries entry List.mem_cons_self
    have hlt := (List.getElem?_eq_some_iff.1 hentry).1
    dsimp only at hstate
    rw [if_pos hlt] at hstate
    obtain rfl := Except.ok.inj hstate
    obtain ⟨hnew, hnodup⟩ := List.nodup_cons.1 hdrained.nodup
    obtain ⟨hfirst, hsorted⟩ := List.pairwise_cons.1 hdrained.sorted
    have hnone : (state.group.filter fun group => group.local = entry.1).map
        PreservedLocal.preserved = none → ∀ entry' ∈ state.preserved, entry'.local ≠ entry.1 := by
      intro hfound entry' hentry' heq
      obtain ⟨group, hgroup, hle⟩ := hdrained.preserved entry' hentry'
      have hge := (hdrained.group group hgroup).2.2 entry List.mem_cons_self
      rw [heq] at hle
      have hlocal : group.local = entry.1 := Int16.toInt_inj.1 (Int.le_antisymm hge hle)
      rw [Option.map_eq_none_iff, hgroup, Option.filter_some, hlocal] at hfound
      simp at hfound
    have hsome : ∀ reg', (state.group.filter fun group => group.local = entry.1).map
        PreservedLocal.preserved = some reg' →
          ⟨entry.1, reg'⟩ ∈ state.preserved ∧ .preserved reg' ∈ state.providers := by
      intro reg' hfound
      obtain ⟨group, hfilter, rfl⟩ := Option.map_eq_some_iff.1 hfound
      obtain ⟨hgroup, hlocal⟩ := Option.filter_eq_some_iff.1 hfilter
      obtain ⟨hmem, hthere, _⟩ := hdrained.group group hgroup
      refine ⟨?_, hthere⟩
      rw [← of_decide_eq_true hlocal]
      exact hmem
    have hstep : PreserveStep stash
        ⟨state.providers, state.lenLocals, state.preserved, state.alloc⟩ _ :=
      .of_getElem? hentry hnone hsome hnext
    have hbuffer : known state.preserved entry.1 ((state.group.filter fun group =>
        group.local = entry.1).map PreservedLocal.preserved) reg =
          if ((state.group.filter fun group => group.local = entry.1).map
            PreservedLocal.preserved).isSome then state.preserved
          else state.preserved ++ [⟨entry.1, reg⟩] := by
      cases (state.group.filter fun group => group.local = entry.1).map
        PreservedLocal.preserved <;> rfl
    have hmem : ⟨entry.1, reg⟩ ∈ known state.preserved entry.1 ((state.group.filter fun group =>
        group.local = entry.1).map PreservedLocal.preserved) reg := by
      cases hfound : (state.group.filter fun group => group.local = entry.1).map
        PreservedLocal.preserved with
      | none => exact List.mem_append_right _ (List.mem_singleton.2 rfl)
      | some reg' =>
        rw [hfound] at hnext
        rw [preserveNext_some hnext]
        exact (hsome reg' hfound).1
    have hset : (state.providers.set entry.2 (.preserved reg))[entry.2]? =
        some (.preserved reg) := List.getElem?_set_self hlt
    rw [hbuffer] at hstep hmem
    have hnext₁ : Drained drained
        ⟨state.providers.set entry.2 (.preserved reg), state.lenLocals - 1, some ⟨entry.1, reg⟩,
          if ((state.group.filter fun group => group.local = entry.1).map
            PreservedLocal.preserved).isSome then state.preserved
          else state.preserved ++ [⟨entry.1, reg⟩], alloc₁⟩ := by
      refine ⟨fun entry' hentry' => ?_, hnodup, hsorted, fun group hgroup => ?_,
        fun entry' hentry' => ⟨_, rfl, ?_⟩⟩
      · show (state.providers.set entry.2 (.preserved reg))[entry'.2]? = _
        have hne : entry.2 ≠ entry'.2 := by
          intro heq
          rw [heq] at hnew
          exact hnew (List.mem_map_of_mem hentry')
        rw [List.getElem?_set_ne hne]
        exact hdrained.entries entry' (List.mem_cons_of_mem _ hentry')
      · obtain rfl := Option.some.inj hgroup
        exact ⟨hmem, List.mem_of_getElem? hset, hfirst⟩
      · have hold : ∀ entry' ∈ state.preserved, entry'.local.toInt ≤ entry.1.toInt := by
          intro entry' hentry'
          obtain ⟨group, hgroup, hle⟩ := hdrained.preserved entry' hentry'
          exact Int.le_trans hle ((hdrained.group group hgroup).2.2 entry List.mem_cons_self)
        dsimp only at hentry'
        split at hentry'
        · exact hold entry' hentry'
        · obtain hentry' | hentry' := List.mem_append.1 hentry'
          · exact hold entry' hentry'
          · rw [List.mem_singleton.1 hentry']
    obtain ⟨hsteps, hlocals⟩ := ih hnext₁ h
    refine ⟨.head hstep hsteps, fun i reg' hi => ?_⟩
    obtain ⟨hi, hnot⟩ := hlocals i reg' hi
    dsimp only at hi
    by_cases heq : entry.2 = i
    · rw [← heq, hset] at hi
      cases hi
    · rw [List.getElem?_set_ne heq] at hi
      refine ⟨hi, fun hmem' => ?_⟩
      obtain rfl | hmem' := List.mem_cons.1 hmem'
      · exact heq rfl
      · exact hnot hmem'

lemma PreserveStep.lenLocals_eq {entries entries' : Entries σ}
    (h : PreserveStep stash entries entries')
    (hlen : entries.lenLocals = entries.providers.countP TaggedProvider.isLocal) :
    entries'.lenLocals = entries'.providers.countP TaggedProvider.isLocal := by
  have hcount : ∀ (before after : List TaggedProvider) («local» reg : Reg),
      (before ++ .local «local» :: after).countP TaggedProvider.isLocal =
        (before ++ .preserved reg :: after).countP TaggedProvider.isLocal + 1 := by
    intro before after «local» reg
    rw [List.countP_append, List.countP_append, List.countP_cons_of_pos rfl,
      List.countP_cons_of_neg (by simp [TaggedProvider.isLocal]), Nat.add_assoc]
  cases h with
  | @first before after «local» reg lenLocals =>
    have hentry := hcount before after «local» reg
    show lenLocals - 1 = (before ++ .preserved reg :: after).countP TaggedProvider.isLocal
    dsimp only at hlen
    omega
  | @again before after «local» reg lenLocals =>
    have hentry := hcount before after «local» reg
    show lenLocals - 1 = (before ++ .preserved reg :: after).countP TaggedProvider.isLocal
    dsimp only at hlen
    omega

lemma lenLocals_of_steps {entries entries' : Entries σ} (h : PreserveSteps stash entries entries')
    (hlen : entries.lenLocals = entries.providers.countP TaggedProvider.isLocal) :
    entries'.lenLocals = entries'.providers.countP TaggedProvider.isLocal := by
  induction h with
  | refl => exact hlen
  | tail _ hstep ih => exact hstep.lenLocals_eq ih

/-- Without locals the lists of the index are empty. -/
lemma positions_of_countP (hnone : providers.countP TaggedProvider.isLocal = 0) (reg : Reg) :
    positions reg providers = [] := by
  rw [← List.length_eq_zero_iff, length_positions]
  apply List.count_eq_zero_of_not_mem
  intro hmem
  rw [List.countP_eq_zero] at hnone
  exact hnone _ hmem rfl

lemma preserveAllLocals_ok (h : stack.WellFormed)
    {res : List PreservedLocal × ProviderStack × RegisterAlloc σ}
    (hop : stack.preserveAllLocals stash alloc = .ok res) :
    res.2.1.WellFormed ∧ res.2.1.providers.countP TaggedProvider.isLocal = 0 ∧
      PreserveSteps stash ⟨stack.providers, stack.lenLocals, [], alloc⟩
        ⟨res.2.1.providers, res.2.1.lenLocals, res.1, res.2.2⟩ := by
  unfold preserveAllLocals at hop
  split at hop
  case isTrue hzero =>
    obtain rfl := Except.ok.inj hop
    exact ⟨h, h.lenLocals.symm.trans hzero, .refl⟩
  case isFalse =>
    obtain ⟨stack', hsync, hwell, hproviders, hlen⟩ := syncLocalRefs_ok h
    rw [hsync, ok_bind] at hop
    rw [← hproviders, ← hlen]
    cases huse : stack'.useLocals with
    | false =>
      simp only [huse] at hop
      obtain ⟨⟨providers', lenLocals', preserved', alloc'⟩, hscan, hop⟩ := bind_eq_ok.1 hop
      obtain rfl := Except.ok.inj hop
      have hcount : stack'.providers.reverse.countP TaggedProvider.isLocal = stack'.lenLocals := by
        rw [List.countP_reverse, hwell.lenLocals]
      obtain ⟨hsteps, hnone⟩ := preserveAllInplace_ok (fun _ hentry => by cases hentry) hcount hscan
      rw [List.nil_append, List.nil_append, List.reverse_reverse] at hsteps
      refine ⟨⟨lenLocals_of_steps hsteps hwell.lenLocals, fun huse' => ?_, hwell.unused⟩, ?_, hsteps⟩
      · cases huse.symm.trans huse'
      · exact List.countP_reverse.trans hnone
    | true =>
      simp only [huse] at hop
      obtain ⟨nodes, hindexes, hnodes⟩ := hwell.used huse
      obtain ⟨⟨locals, state⟩, hdrain, hop⟩ := bind_eq_ok.1 hop
      rw [drainAll_eq hindexes] at hdrain
      obtain ⟨state', hfold, hdrain⟩ := bind_eq_ok.1 hdrain
      obtain ⟨rfl, rfl⟩ := Prod.mk.inj (Except.ok.inj hdrain)
      obtain rfl := Except.ok.inj hop
      have hentries : ∀ entry ∈ drained nodes stack'.locals.localsLast,
          stack'.providers[entry.2]? = some (.local entry.1) := by
        intro entry hentry
        rw [hindexes.mem_drained, hnodes] at hentry
        exact mem_positions.1 hentry
      have hnodup : ((drained nodes stack'.locals.localsLast).map Prod.snd).Nodup := by
        apply hindexes.nodup_drained
        · intro reg
          rw [hnodes]
          exact nodup_positions
        · intro reg reg' slot hslot hslot'
          rw [hnodes, mem_positions] at hslot hslot'
          exact TaggedProvider.local.inj (Option.some.inj (hslot.symm.trans hslot'))
      have hstart : Drained (drained nodes stack'.locals.localsLast)
          ⟨stack'.providers, stack'.lenLocals, none, [], alloc⟩ :=
        ⟨hentries, hnodup, hindexes.sorted_drained, nofun, nofun⟩
      obtain ⟨hsteps, hlocals⟩ := foldlM_preserveAllAt hstart hfold
      have hnone : state'.providers.countP TaggedProvider.isLocal = 0 := by
        rw [List.countP_eq_zero]
        intro provider hprovider hlocal
        obtain ⟨reg, rfl⟩ | hother := provider.local_or
        · obtain ⟨i, hi⟩ := List.getElem?_of_mem hprovider
          obtain ⟨hi, hmem⟩ := hlocals i reg hi
          have hdrained : (reg, i) ∈ drained nodes stack'.locals.localsLast := by
            rw [hindexes.mem_drained, hnodes]
            exact mem_positions.2 hi
          exact hmem (List.mem_map_of_mem hdrained)
        · rw [hother] at hlocal
          cases hlocal
      refine ⟨⟨lenLocals_of_steps hsteps hwell.lenLocals, fun _ => ?_, fun huse' => ?_⟩, hnone, hsteps⟩
      · exact ⟨fun _ => [], reset_indexes, fun reg => (positions_of_countP hnone reg).symm⟩
      · cases huse.symm.trans huse'

/-! ## Runs -/

end ProviderStack

/-- What changes the stack. In between, the register allocator may change in any way. -/
inductive StackOp (σ : Type) where
  | push (provider : TaggedProvider)
  | pop
  | preserveLocals (preserveIndex : Nat) (alloc : RegisterAlloc σ)
  | preserveAllLocals (alloc : RegisterAlloc σ)

namespace ProviderStack

variable {σ : Type} (stash : MultiStash σ)

def apply (stack : ProviderStack) : StackOp σ → Except Failure ProviderStack
  | .push provider => stack.push provider
  | .pop => do return (← stack.pop).2
  | .preserveLocals preserveIndex alloc => do
    return (← stack.preserveLocals stash alloc preserveIndex).2.1
  | .preserveAllLocals alloc => do return (← stack.preserveAllLocals stash alloc).2.1

/-- The stack is what operations make of an empty one. -/
def Reached (stack : ProviderStack) : Prop :=
  ∃ ops : List (StackOp σ), ops.foldlM (apply stash) reset = .ok stack

end ProviderStack

namespace ProviderStack

variable {σ : Type} {stash : MultiStash σ} {stack : ProviderStack}

lemma apply_wellFormed (h : stack.WellFormed) {op : StackOp σ} {stack' : ProviderStack}
    (hop : stack.apply stash op = .ok stack') : stack'.WellFormed := by
  cases op with
  | push provider =>
    obtain ⟨after, hpush, hwell, _⟩ := push_ok h provider
    rw [apply, hpush] at hop
    rwa [← Except.ok.inj hop]
  | pop =>
    obtain ⟨⟨provider, after⟩, hpop, hop⟩ := bind_eq_ok.1 hop
    obtain rfl := Except.ok.inj hop
    obtain hempty | ⟨rest, top, htop⟩ := List.eq_nil_or_concat stack.providers
    · rw [pop, peek, hempty] at hpop
      cases hpop
    · rw [List.concat_eq_append] at htop
      obtain ⟨after', hpop', hwell, _⟩ := pop_ok h htop
      obtain ⟨rfl, rfl⟩ := Prod.mk.inj (Except.ok.inj (hpop.symm.trans hpop'))
      exact hwell
  | preserveLocals preserveIndex alloc =>
    obtain ⟨res, hpreserve, hop⟩ := bind_eq_ok.1 hop
    obtain rfl := Except.ok.inj hop
    exact preserveLocals_wellFormed h hpreserve
  | preserveAllLocals alloc =>
    obtain ⟨res, hpreserve, hop⟩ := bind_eq_ok.1 hop
    obtain rfl := Except.ok.inj hop
    exact (preserveAllLocals_ok h hpreserve).1

lemma run_wellFormed {start : ProviderStack} {ops : List (StackOp σ)} (h : start.WellFormed)
    (hrun : ops.foldlM (apply stash) start = .ok stack) : stack.WellFormed := by
  induction ops generalizing start with
  | nil =>
    obtain rfl := Except.ok.inj hrun
    exact h
  | cons op ops ih =>
    rw [List.foldlM_cons] at hrun
    obtain ⟨next, hop, hrun⟩ := bind_eq_ok.1 hrun
    exact ih (apply_wellFormed h hop) hrun

lemma Reached.wellFormed (h : stack.Reached stash) : stack.WellFormed := by
  obtain ⟨ops, hrun⟩ := h
  exact run_wellFormed reset_wellFormed hrun

/-- The entries of the local, and no others, refer to one new register, and there is none iff there
are no such entries. The preservation only fails where there are, if the allocator has no register. -/
def ReplacesLocal (stash : MultiStash σ) (stack : ProviderStack) (alloc : RegisterAlloc σ)
    («local» : Reg) : Except Failure (Option Reg × ProviderStack × RegisterAlloc σ) → Prop
  | .ok (none, stack', alloc') =>
    .local «local» ∉ stack.providers ∧ stack'.providers = stack.providers ∧ alloc' = alloc
  | .ok (some reg, stack', _) =>
    .local «local» ∈ stack.providers ∧ (∃ alloc₁, alloc.pushPreserved stash = .ok (reg, alloc₁)) ∧
      ∀ i : Nat, stack'.providers[i]? = (stack.providers[i]?).map fun provider =>
        if provider = .local «local» then .preserved reg else provider
  | .error failure => .local «local» ∈ stack.providers ∧ alloc.pushPreserved stash = .error failure

/-- What both strategies have to agree on. -/
def outcome (res : Option Reg × ProviderStack × RegisterAlloc σ) :
    Option Reg × List TaggedProvider × Nat × RegisterAlloc σ :=
  (res.1, res.2.1.providers, res.2.1.lenLocals, res.2.2)

/-- On every stack that operations lead to, the lists of the index have exactly the positions of
their locals, a preservation replaces exactly the entries of its local, and it makes no difference
whether the stack is scanned or the index is used. -/
theorem preserveLocals_exact (hreached : stack.Reached stash) :
    (stack.useLocals = true → ∀ reg, ∃ nodes, Chains.Chain stack.locals.entries.occupiedAt
      (stack.locals.last reg) nodes ∧ nodes.map Prod.snd = positions reg stack.providers) ∧
    (∀ preserveIndex, preserveIndex < 2 ^ 15 → ∀ alloc : RegisterAlloc σ,
      ReplacesLocal stash stack alloc (Int16.ofNat preserveIndex)
        (stack.preserveLocals stash alloc preserveIndex)) ∧
    ∀ indexed : ProviderStack, indexed.Reached stash → indexed.providers = stack.providers →
      stack.useLocals = false → indexed.useLocals = true →
      ∀ (alloc : RegisterAlloc σ) («local» : Reg),
        (stack.preserveLocalsInplace stash alloc «local»).map outcome =
          (indexed.preserveLocalsExtern stash alloc «local»).map outcome := by
  have h := hreached.wellFormed
  refine ⟨fun huse reg => ?_, fun preserveIndex hindex alloc => ?_, ?_⟩
  · obtain ⟨nodes, hindexes, hnodes⟩ := h.used huse
    exact ⟨nodes reg, hindexes.chains reg, hnodes reg⟩
  · obtain ⟨after, hproviders, _, heq⟩ := preserveLocals_eq stash h hindex _ rfl
    rw [heq]
    cases hpreserve : preserveN stash (stack.providers.count (.local (Int16.ofNat preserveIndex)))
      none alloc with
    | error failure =>
      obtain ⟨hcount, hpush⟩ := preserveN_error hpreserve
      exact ⟨List.count_pos_iff.1 (Nat.pos_of_ne_zero hcount), hpush⟩
    | ok res =>
      obtain ⟨preserved, alloc'⟩ := res
      obtain ⟨hnone, hsome⟩ := preserveN_none hpreserve
      cases preserved with
      | none =>
        have hmem := not_mem_of_preserveN hpreserve rfl
        rw [List.count_eq_zero_of_not_mem hmem] at hpreserve
        refine ⟨hmem, (hproviders none).trans (map_preserve_of_not_mem hmem), ?_⟩
        exact (Prod.mk.inj (Except.ok.inj hpreserve)).2.symm
      | some reg =>
        have hcount : stack.providers.count (.local (Int16.ofNat preserveIndex)) ≠ 0 :=
          fun hzero => by cases hnone.2 hzero
        refine ⟨List.count_pos_iff.1 (Nat.pos_of_ne_zero hcount), hsome reg rfl, fun i => ?_⟩
        show (after (some reg)).providers[i]? = _
        rw [hproviders, List.getElem?_map]
        rfl
  · intro indexed hindexed hsame hscan huse alloc «local»
    have h' := hindexed.wellFormed
    obtain ⟨locals, _, heq⟩ := preserveLocalsExtern_eq stash h' huse «local»
    rw [preserveLocalsInplace_eq stash h alloc «local», heq, hsame, h.lenLocals, h'.lenLocals, hsame]
    cases preserveN stash (stack.providers.count (.local «local»)) none alloc <;> rfl

/-- A function with two locals. -/
def twoLocals : RegisterAlloc (List Nat) := ⟨[], [], .alloc, 2, 2, 2, 32766, 0⟩

/-- The first local twice, and the second one between. -/
def scanned : ProviderStack := ⟨[.local 0, .local 1, .local 0], 3, false, .reset⟩

/-- The same entries on a stack that was 16 entries high. -/
def indexed : ProviderStack where
  providers := [.local 0, .local 1, .local 0]
  lenLocals := 3
  useLocals := true
  locals := ⟨[(0, 2), (1, 1)],
    ⟨none, [.occupied 0 none, .occupied 1 none, .occupied 2 (some 0)]⟩⟩

theorem preserveLocals_exact_indexed :
    (scanned.preserveLocalsInplace RegisterAlloc.firstVacant twoLocals 0).map outcome =
      (indexed.preserveLocalsExtern RegisterAlloc.firstVacant twoLocals 0).map outcome := by
  have hscanned : scanned.Reached RegisterAlloc.firstVacant :=
    ⟨[.push (.local 0), .push (.local 1), .push (.local 0)], rfl⟩
  have hindexed : indexed.Reached RegisterAlloc.firstVacant :=
    ⟨List.replicate 16 (.push (.local 1)) ++ [.preserveLocals 0 twoLocals] ++
      List.replicate 16 .pop ++ [.push (.local 0), .push (.local 1), .push (.local 0)], rfl⟩
  exact (preserveLocals_exact hscanned).2.2 indexed hindexed rfl rfl rfl twoLocals 0

end ProviderStack

end MotokoDebugger.Translator
