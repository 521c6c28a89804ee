import MotokoDebugger.Translator.BlockStates

/-!
# Locals in a basic block

What the translation of constants, `drop` and the accesses to locals does to the state of the stack
machine in the registers.

* `translates_const`, `translates_localGet`, `translates_drop`: operators without code.
* `Tracks.setLocal`, `translates_localSet`: a local changes, and its entries are preserved.
* `translates_localTee`: the value is pushed again.
-/

namespace MotokoDebugger.Translator

open Fallible Index16 RegisterAlloc StackMachine

variable {σ : Type} {stash : MultiStash σ}

namespace Block

variable {block : Block σ} {translator translator' : FuncTranslator σ} {stack' : ValueStack σ}
  {operands : List (TypedProvider × Value)} {provider : TypedProvider} {entry : TaggedProvider}
  {ty : ValType} {types : List ValType} {outcome : Except TrapCode State} {value : Value}
  {localIndex : UInt32} {lenResults : Op → Nat}

/-! ## Operators without code -/

section Entries

lemma Tracks.state_typed (h : block.Tracks translator operands types outcome) {state : State}
    (heq : outcome = .ok state) : state.Typed block.locals types := by
  obtain ⟨chunks, -, hagrees⟩ := h.agrees
  cases hagrees with
  | ok effects_eq consts represents typed held =>
    obtain rfl := Except.ok.inj heq
    exact typed
  | error effects_eq held => cases heq

/-- The operands are not used any more. -/
lemma Tracks.forget (h : block.Tracks translator operands types outcome) :
    block.Tracks translator [] types outcome := by
  obtain ⟨chunks, hchunks, hagrees⟩ := h.agrees
  refine .of_nil h.reachable h.fits h.lenLocals h.typed h.laid.forget hchunks ?_
  cases hagrees with
  | ok effects_eq consts represents typed held =>
    exact .ok effects_eq consts represents typed (by simp [cells])
  | error effects_eq held => exact .error effects_eq (by simp [cells])

lemma Tracks.pushConst (h : block.Tracks translator operands types outcome) {constant : TypedVal}
    (hpush : translator.stack.pushConst constant = .ok stack') (hty : constant.ty = value.ty)
    (hvalue : constant.value = value.cell) (hfits : block.Fits stack') :
    block.Tracks (translator.withStack stack') [] (value.ty :: types)
      (outcome.map fun state => state.push value) := by
  have hlaid := h.laid.pushEntry hpush rfl (fun _ heq => by cases heq) trivial
  refine h.push (fun _ => value) (ValueStack.pushes_const hpush) hfits hlaid.forget ?_
    fun f state _ _ _ => ⟨rfl, congrArg some hvalue⟩
  intro other heq
  rw [← Provider.const.inj heq]
  exact hty

lemma translates_const (hreachable : translator.reachable = true)
    (h : translator.visitConst value.typed = .ok translator') :
    block.Translates translator translator' (.const value) types (value.ty :: types) := by
  rw [FuncTranslator.visitConst, if_pos hreachable] at h
  obtain ⟨stack, hpush, h⟩ := bind_eq_ok.1 h
  obtain rfl := Except.ok.inj h
  have hpushes := ValueStack.pushes_const hpush
  refine ⟨fun htyped => ⟨hpushes.grows, fun _ => htyped.push hpushes ?_⟩, ?_⟩
  · intro constant heq
    rw [← Provider.const.inj heq]
    rfl
  · intro outcome htracks hfits
    refine ⟨_, ?_, .tracks (htracks.pushConst hpush rfl rfl hfits)⟩
    cases outcome <;> rfl

/-- The local is pushed without a copy. -/
lemma Tracks.pushLocal (h : block.Tracks translator operands types outcome)
    (hlocal : block.locals[localIndex.toNat]? = some ty) {reg : Reg}
    (hpush : translator.stack.pushLocal localIndex = .ok (reg, stack'))
    (hfits : block.Fits stack') :
    block.Tracks (translator.withStack stack') [] (ty :: types)
      (outcome.map fun state =>
        state.push (state.locals[localIndex.toNat]?.getD (.ofCell ty 0))) := by
  obtain ⟨rfl, hpush⟩ := ValueStack.pushLocal_ok hpush
  obtain ⟨hlt, -⟩ := List.getElem?_eq_some_iff.1 hlocal
  have hint := toInt_local h hlt
  have hplaced : (TaggedProvider.local (Int16.ofNat localIndex.toNat)).Placed
      translator.stack.regAlloc.lenLocals.toNat := by
    rw [h.lenLocals]
    show 0 ≤ (Int16.ofNat localIndex.toNat).toInt ∧ _ < _
    omega
  have hlaid := h.laid.pushEntry hpush rfl (fun _ heq => by cases heq) hplaced
  refine h.push _ (ValueStack.pushes_entry hpush) hfits hlaid.forget ValueStack.hasType_register ?_
  intro f state hrepresents htyped _
  rw [← htyped.locals, List.getElem?_map] at hlocal
  obtain ⟨value, hvalue, rfl⟩ := Option.map_eq_some_iff.1 hlocal
  rw [hvalue]
  exact ⟨rfl, hrepresents.locals _ value hvalue⟩

lemma translates_localGet (hreachable : translator.reachable = true)
    (hlocal : block.locals[localIndex.toNat]? = some ty)
    (h : translator.visitLocalGet localIndex = .ok translator') :
    block.Translates translator translator' (.localGet localIndex) types (ty :: types) := by
  rw [FuncTranslator.visitLocalGet, if_pos hreachable] at h
  obtain ⟨⟨reg, stack⟩, hpush, h⟩ := bind_eq_ok.1 h
  obtain rfl := Except.ok.inj h
  have hpushes := ValueStack.pushes_entry (ValueStack.pushLocal_ok hpush).2
  refine ⟨fun htyped => ⟨hpushes.grows, fun _ => htyped.push hpushes ?_⟩, ?_⟩
  · exact ValueStack.hasType_register
  · intro outcome htracks hfits
    refine ⟨_, ?_, .tracks (htracks.pushLocal hlocal hpush hfits)⟩
    cases outcome with
    | error trapCode => rfl
    | ok state =>
      have htyped := htracks.state_typed rfl
      rw [← htyped.locals, List.getElem?_map] at hlocal
      obtain ⟨value, hvalue, rfl⟩ := Option.map_eq_some_iff.1 hlocal
      show (state.locals[localIndex.toNat]?).map _ =
        some (Except.ok (state.push (state.locals[localIndex.toNat]?.getD _)))
      rw [hvalue]
      rfl

lemma translates_drop (hlawful : stash.Lawful block.slots)
    (hreachable : translator.reachable = true)
    (h : translator.visitDrop stash = .ok translator') :
    block.Translates translator translator' .drop (ty :: types) types := by
  rw [FuncTranslator.visitDrop, if_pos hreachable] at h
  obtain ⟨stack, hdrop, h⟩ := bind_eq_ok.1 h
  obtain rfl := Except.ok.inj h
  obtain ⟨⟨provider, popped⟩, hpop, hdrop⟩ := bind_eq_ok.1 hdrop
  obtain rfl := Except.ok.inj hdrop
  refine ⟨fun htyped => ⟨ValueStack.grows_pop hlawful hpop, fun _ => (htyped.pop hpop).2.1⟩, ?_⟩
  intro outcome htracks hfits
  obtain ⟨value, outcome', rfl, rfl, hpopped⟩ := htracks.pop hlawful hpop hfits
  refine ⟨_, ?_, .tracks hpopped.forget⟩
  cases outcome' <;> rfl

end Entries

/-! ## Changes of locals -/

section Locals

/-- Registers that are not used any more are collected. -/
lemma Tracks.gcPreservations (hlawful : stash.Lawful block.slots)
    (h : block.Tracks translator [] types outcome)
    (hop : translator.stack.gcPreservations stash = .ok stack') (hfits : block.Fits stack') :
    block.Tracks (translator.withStack stack') [] types outcome := by
  obtain ⟨hgrows, hproviders⟩ := ValueStack.grows_gcPreservations hlawful hop
  obtain ⟨chunks, hchunks, hagrees⟩ := h.agrees
  refine .of_nil h.reachable hfits ?_ (h.typed.congr hproviders)
    (h.laid.gcPreservations hlawful hop) hchunks ?_
  · show stack'.regAlloc.lenLocals.toNat = _
    rw [hgrows.alloc.lenLocals]
    exact h.lenLocals
  · cases hagrees with
    | ok effects_eq consts represents typed held =>
      exact .ok effects_eq consts (represents.congr hproviders) typed held
    | error effects_eq held => exact .error effects_eq held

lemma setLocal_typed {state : State} (h : state.Typed block.locals types)
    (hlocal : block.locals[localIndex.toNat]? = some value.ty) :
    localIndex.toNat < state.locals.length ∧
      (state.setLocal localIndex value).Typed block.locals types := by
  obtain ⟨hlt, htyped⟩ := h.setLocal hlocal h.stack
  exact ⟨hlt, htyped⟩

/-- The local has the value already. -/
lemma Tracks.setLocal_same
    (h : block.Tracks translator [(.register (Int16.ofNat localIndex.toNat), value)] types outcome)
    (hlocal : block.locals[localIndex.toNat]? = some value.ty) :
    block.Tracks translator [] types
      (outcome.map fun state => state.setLocal localIndex value) := by
  obtain ⟨chunks, hchunks, hagrees⟩ := h.agrees
  refine .of_nil h.reachable h.fits h.lenLocals h.typed h.laid.forget hchunks ?_
  cases hagrees with
  | error effects_eq held => exact .error effects_eq (by simp [cells])
  | @ok f state effects_eq consts represents typed held =>
    refine .ok effects_eq consts ⟨fun i other hother => ?_, represents.entries⟩
      (setLocal_typed typed hlocal).2 (by simp [cells])
    have hother : (state.locals.set localIndex.toNat value)[i]? = some other := hother
    rw [List.getElem?_set] at hother
    split at hother
    case isFalse => exact represents.locals i other hother
    case isTrue heq =>
      split at hother
      case isFalse => cases hother
      case isTrue =>
        rw [← heq, ← Option.some.inj hother]
        exact held (.register (Int16.ofNat localIndex.toNat), value.cell) List.mem_cons_self

/-- The entries of a local are preserved, in a register that is not in use. -/
structure Preserves (slots : σ → List Nat) (stored : List TypedProvider)
    (stack stack' : ValueStack σ) («local» : Reg) (preserved : Option Reg) : Prop where
  grows : stack.Grows stack'
  laid : stack'.Laid slots stored []
  providers : stack'.providers.providers =
    stack.providers.providers.map (TaggedProvider.preserve «local» preserved)
  unused : preserved = none → .local «local» ∉ stack.providers.providers
  fresh : ∀ reg, preserved = some reg → stack'.regAlloc.maxDynamic.toInt ≤ reg.toInt ∧
    stack'.regAlloc.minPreserve.toInt < reg.toInt ∧ reg.toInt ≤ 32766 ∧
    stack.regAlloc.useCount slots reg = 0

section Preserves

variable {slots : σ → List Nat} {stored operands : List TypedProvider} {stack stack' : ValueStack σ}
  {entry : TaggedProvider} {«local» reg : Reg} {preserved : Option Reg}

lemma preserves_preserveLocals (hlawful : stash.Lawful slots)
    (h : stack.Laid slots stored operands) {index : Nat} (hindex : index < 2 ^ 15)
    (hop : stack.preserveLocals stash index = .ok (preserved, stack'))
    (hapart : stack'.regAlloc.maxDynamic.toInt ≤ stack'.regAlloc.minPreserve.toInt + 1) :
    Preserves slots stored stack stack' (Int16.ofNat index) preserved := by
  obtain ⟨hlaid, hpreserved⟩ := h.preserveLocals hlawful hindex hop hapart
  obtain ⟨-, hproviders, hpreserve⟩ :=
    ValueStack.preserveLocals_ok h.sound.wellFormed hindex hop
  have hgrows := ValueStack.grows_preserveLocals hlawful h.sound.wellFormed hindex hop
  exact ⟨hgrows, hlaid.forget, hproviders, ProviderStack.not_mem_of_preserveN hpreserve, hpreserved⟩

variable (h : Preserves slots stored stack stack' «local» preserved)

include h

/-- The register of a local is not the preserved one. -/
lemma Preserves.local_kept (hpos : 0 ≤ reg.toInt)
    (hlt : reg.toInt < stack.regAlloc.lenLocals.toNat) :
    preserved ≠ some reg ∧ stack'.regAlloc.registerSpace reg = .local := by
  rw [← h.grows.alloc.lenLocals] at hlt
  refine ⟨fun heq => ?_, h.laid.space_local hpos hlt⟩
  obtain ⟨hle, -⟩ := h.fresh reg heq
  have hnext := h.laid.next_eq
  have hmax := h.laid.max_min
  omega

/-- What else changes, the register of an entry that is kept does not. -/
lemma Preserves.entry_kept (hlaid : stack.Laid slots stored operands)
    (hlocal : 0 ≤ «local».toInt ∧ «local».toInt < stack.regAlloc.lenLocals.toNat)
    (hentry : entry ∈ stack.providers.providers) (hreg : entry.toTyped = .register reg)
    (hkept : entry = .local «local» → preserved = none) :
    reg ≠ «local» ∧ preserved ≠ some reg ∧
      (reg ≠ stack.regAlloc.nextDynamic ∧ stack.regAlloc.registerSpace reg = .dynamic ∨
        stack'.regAlloc.registerSpace reg = .local ∨
        stack'.regAlloc.registerSpace reg = .preserve) := by
  have hmin := h.grows.alloc.minPreserve
  have hmax := h.grows.alloc.maxDynamic
  have hbounds := hlaid.max_min
  have hnext := hlaid.next_eq
  obtain ⟨rfl, hpos, hlt⟩ | ⟨rfl, hle, hlt⟩ | ⟨rfl, hlt⟩ := hlaid.entry_cases hentry hreg
  · obtain ⟨hne, hspace⟩ := h.local_kept hpos hlt
    refine ⟨fun heq => ?_, hne, .inr (.inl hspace)⟩
    rw [heq] at hentry hkept
    exact h.unused (hkept rfl) hentry
  · refine ⟨fun heq => ?_, fun heq => ?_, .inl ⟨fun heq => ?_, hlaid.space_dynamic hle ?_⟩⟩
    · rw [heq] at hle
      omega
    · obtain ⟨hle', -⟩ := h.fresh reg heq
      omega
    · rw [heq] at hlt
      omega
    · omega
  · refine ⟨fun heq => ?_, fun heq => ?_, .inr (.inr (h.laid.space_preserve (by omega)))⟩
    · rw [heq] at hlt
      omega
    · obtain ⟨-, -, -, hzero⟩ := h.fresh reg heq
      have hused := hlaid.sound.live.used_of_entry hentry
      omega

end Preserves

/-- What the code of `local.set` does to the registers is what the operator does to the state. -/
lemma Preserves.represents {stack stack' : ValueStack σ} {slots : σ → List Nat}
    {stored : List TypedProvider} {preserved : Option Reg} {f f' : RegFile} {state : State}
    (h : Preserves slots stored stack stack' (Int16.ofNat localIndex.toNat) preserved)
    (hlaid : stack.Laid slots stored [provider])
    (hfirst : ∀ reg, provider = .register reg → stack.regAlloc.registerSpace reg = .dynamic →
      reg = stack.regAlloc.nextDynamic)
    (hrepresents : stack.Represents f state)
    (hlen : state.locals.length = stack.regAlloc.lenLocals.toNat)
    (hlt : localIndex.toNat < state.locals.length)
    (hlocal : f' (Int16.ofNat localIndex.toNat) = some value.cell)
    (hpreserved : ∀ reg, preserved = some reg → f' reg = f (Int16.ofNat localIndex.toNat))
    (hothers : ∀ reg, reg ≠ Int16.ofNat localIndex.toNat → preserved ≠ some reg →
      (provider = .register reg → stack'.regAlloc.registerSpace reg = .local ∨
        stack'.regAlloc.registerSpace reg = .preserve) → f' reg = f reg) :
    stack'.Represents f' (state.setLocal localIndex value) := by
  have hbound := hlaid.len
  have hint : ∀ i < state.locals.length, (Int16.ofNat i).toInt = i :=
    fun i hi => toInt_ofNat_of_lt (by omega)
  have hlocalInt := hint _ hlt
  refine ⟨fun i other hother => ?_, ?_⟩
  · have hother : (state.locals.set localIndex.toNat value)[i]? = some other := hother
    rw [List.getElem?_set] at hother
    split at hother
    case isTrue heq =>
      rw [← heq, ← Option.some.inj hother]
      exact hlocal
    case isFalse hne =>
      have hi := hint i (List.getElem?_eq_some_iff.1 hother).1
      have hlt' := (List.getElem?_eq_some_iff.1 hother).1
      have hpos : 0 ≤ (Int16.ofNat i).toInt := by omega
      obtain ⟨hpreserved, hspace⟩ := h.local_kept hpos (by omega)
      rw [hothers (Int16.ofNat i) (fun heq => ?_) hpreserved fun _ => .inl hspace]
      · exact hrepresents.locals i other hother
      · rw [heq] at hi
        omega
  · rw [h.providers, ← List.map_reverse, List.forall₂_map_left_iff]
    have hmem : ∀ entry ∈ stack.providers.providers.reverse,
        entry ∈ stack.providers.providers := fun _ => List.mem_reverse.1
    refine ((List.forall₂_and_left _ _).2 ⟨hmem, hrepresents.entries⟩).imp
      fun entry other hentry => ?_
    obtain ⟨hentry, hother⟩ := hentry
    obtain ⟨heq, hkept⟩ | ⟨reg, hreg, rfl, heq⟩ :=
      preserve_cases entry (Int16.ofNat localIndex.toNat) preserved
    · rw [heq]
      cases hreg : entry.toTyped with
      | const constant =>
        rw [hreg] at hother
        exact hother
      | register reg =>
        rw [hreg] at hother
        obtain ⟨hne, hpreserved, hspace⟩ := h.entry_kept hlaid (by omega) hentry hreg hkept
        show f' reg = _
        rw [hothers reg hne hpreserved fun hvalue => ?_]
        · exact hother
        · -- a dynamic entry is not the value, which was the top
          exact hspace.resolve_left fun hnext => hnext.1 (hfirst reg hvalue hnext.2)
    · rw [heq]
      show f' reg = _
      rw [hpreserved reg hreg]
      exact hother

/-- The local changes, and its entries are preserved. -/
lemma Tracks.setLocal (hlawful : stash.Lawful block.slots)
    (h : block.Tracks translator [(provider, value)] types outcome)
    (hlocal : block.locals[localIndex.toNat]? = some value.ty)
    (hne : provider ≠ .register (Int16.ofNat localIndex.toNat)) {preserved : Option Reg}
    {encoder : InstrEncoder} {consts : FuncLocalConsts} {instrOffset : Nat}
    (hpreserve : translator.stack.preserveLocals stash localIndex.toNat = .ok (preserved, stack'))
    (hencode : translator.encoder.encodeLocalSet block.float instrOffset stack'.consts
      (Int16.ofNat localIndex.toNat) provider preserved translator.fuelInfo lenResults
      stack'.regAlloc.registerSpace = .ok (encoder, consts))
    (hfits : block.Fits { stack' with consts }) :
    block.Tracks { translator with encoder, stack := { stack' with consts } } [] types
      (outcome.map fun state => state.setLocal localIndex value) := by
  obtain ⟨hlt, -⟩ := List.getElem?_eq_some_iff.1 hlocal
  have hint := toInt_local h hlt
  have hlen := h.lenLocals
  have hbound := h.laid.len
  have hindex : localIndex.toNat < 2 ^ 15 := by omega
  have hapart := hfits.apart
  have hmax := hfits.max
  dsimp only at hapart hmax
  have hpreserves := preserves_preserveLocals hlawful h.laid hindex hpreserve hapart
  have hlaid := hpreserves.laid
  have hlenLocals := hpreserves.grows.alloc.lenLocals
  have hnext := hlaid.next_eq
  have hbounds := hlaid.max_min
  have hlast := hlaid.next
  rw [hlenLocals] at hnext
  have hmem : provider ∈ [(provider, value)].map Prod.fst := List.mem_cons_self
  have hpreserved : ∀ reg, preserved = some reg →
      0 ≤ reg.toInt ∧ reg ≠ Int16.ofNat localIndex.toNat ∧ provider ≠ .register reg := by
    intro reg hreg
    obtain ⟨hle, hmin, -, hzero⟩ := hpreserves.fresh reg hreg
    refine ⟨by omega, fun heq => ?_, fun heq => ?_⟩
    · rw [heq] at hle
      omega
    · have hgrows := hpreserves.grows.alloc.maxDynamic
      have hpinned : .register reg ∈ [(provider, value)].map Prod.fst := by
        rw [← heq]
        exact hmem
      obtain hlt' | hused := h.laid.sound.live.lt_or_used (.inr hpinned)
      · omega
      · omega
  obtain ⟨chunks, hchunks, hagrees⟩ := h.agrees
  obtain ⟨chunks', hnew, hsets⟩ := setsLocal_encodeLocalSet hchunks (by omega) (by omega)
    (by omega) hne hpreserved hencode
  have hthere : (block.start (Int16.ofNat localIndex.toNat)).isSome :=
    block.there _ (by omega) (.inl (by omega))
  have hthere' : ∀ reg, preserved = some reg → (block.start reg).isSome := by
    intro reg hreg
    obtain ⟨-, hmin, hle, -⟩ := hpreserves.fresh reg hreg
    have hbottom := hfits.min
    dsimp only at hbottom
    exact block.there _ (hpreserved reg hreg).1 (.inr (by omega))
  refine .of_nil h.reachable hfits (by rw [← hlen, ← hlenLocals])
    ((h.typed.preserveLocals hindex hpreserve).congr rfl) ?_ hnew ?_
  · exact ⟨⟨hlaid.sound.wellFormed, hlaid.sound.live⟩, hlaid.aligned, hlaid.placed, hlaid.next⟩
  · cases hagrees with
    | error effects_eq held =>
      exact .error (hsets.error effects_eq hthere hthere') (by simp [cells])
    | @ok f state effects_eq hconsts represents typed held =>
      have hvalue : provider.valueIn f = some value.cell :=
        held (provider, value.cell) List.mem_cons_self
      obtain ⟨f', heffects, hlocal', hpreserved', hothers⟩ :=
        hsets.ok effects_eq (hconsts.mono hfits.consts) hthere hthere' hvalue
      have hstate : state.locals.length = block.locals.length := by
        rw [← typed.locals, List.length_map]
      obtain ⟨hlt', htyped'⟩ := setLocal_typed typed hlocal
      have hfirst : ∀ reg, provider = .register reg →
          translator.stack.regAlloc.registerSpace reg = .dynamic →
          reg = translator.stack.regAlloc.nextDynamic := by
        rintro reg rfl
        exact h.first reg rfl
      have hrepresents := hpreserves.represents h.laid hfirst represents (by omega) hlt' hlocal'
        hpreserved' hothers
      refine .ok heffects (fun reg constant hget => ?_) ⟨hrepresents.locals, hrepresents.entries⟩
        htyped' (by simp [cells])
      -- constants have negative registers
      obtain ⟨i, hi, -⟩ := FuncLocalConsts.toInt_of_get hget
      rw [hothers reg (fun heq => ?_) (fun heq => ?_) fun heq => ?_]
      · exact hconsts reg constant hget
      · rw [heq] at hi
        omega
      · have hpos := (hpreserved reg heq).1
        omega
      · have hpos := h.pos reg (heq ▸ hmem)
        omega

/-! ### The visitors -/

/-- What the visitor of `local.set` does with the emulated stack and the encoder. -/
lemma visitLocalSet_cases {float : FloatOps} (hreachable : translator.reachable = true)
    (h : translator.visitLocalSet stash float lenResults localIndex = .ok translator') :
    ∃ collected popped provider, translator.stack.gcPreservations stash = .ok collected ∧
      collected.pop stash = .ok (provider, popped) ∧ localIndex.toNat < 2 ^ 15 ∧
      (provider = .register (Int16.ofNat localIndex.toNat) ∧
          translator' = translator.withStack popped ∨
        provider ≠ .register (Int16.ofNat localIndex.toNat) ∧
          ∃ preserved stack encoder consts,
            popped.preserveLocals stash localIndex.toNat = .ok (preserved, stack) ∧
            translator.encoder.encodeLocalSet float translator.visitPos stack.consts
              (Int16.ofNat localIndex.toNat) provider preserved translator.fuelInfo lenResults
              stack.regAlloc.registerSpace = .ok (encoder, consts) ∧
            translator' = { translator with encoder, stack := { stack with consts } }) := by
  rw [FuncTranslator.visitLocalSet, if_pos hreachable] at h
  obtain ⟨collected, hcollect, h⟩ := bind_eq_ok.1 h
  obtain ⟨⟨provider, popped⟩, hpop, h⟩ := bind_eq_ok.1 h
  refine ⟨collected, popped, provider, hcollect, hpop, ?_⟩
  dsimp only at h
  split at h
  case isFalse => cases h
  case isTrue hindex =>
    refine ⟨hindex, ?_⟩
    split at h
    case isTrue heq => exact .inl ⟨heq, (Except.ok.inj h).symm⟩
    case isFalse hne =>
      obtain ⟨⟨preserved, stack⟩, hpreserve, h⟩ := bind_eq_ok.1 h
      obtain ⟨⟨encoder, consts⟩, hencode, h⟩ := bind_eq_ok.1 h
      exact .inr ⟨hne, preserved, stack, encoder, consts, hpreserve, hencode,
        (Except.ok.inj h).symm⟩

lemma grows_visitLocalSet {float : FloatOps} {slots : σ → List Nat} (hlawful : stash.Lawful slots)
    (hreachable : translator.reachable = true) (htyped : translator.stack.Typed (ty :: types))
    (h : translator.visitLocalSet stash float lenResults localIndex = .ok translator') :
    translator.stack.Grows translator'.stack ∧ translator'.stack.Typed types ∧
      translator'.reachable = true := by
  obtain ⟨collected, popped, provider, hcollect, hpop, hindex, hcases⟩ :=
    visitLocalSet_cases hreachable h
  obtain ⟨hcollected, hproviders⟩ := ValueStack.grows_gcPreservations hlawful hcollect
  have hpopped := hcollected.trans (ValueStack.grows_pop hlawful hpop)
  obtain ⟨-, htyped', -⟩ := (htyped.congr hproviders).pop hpop
  obtain ⟨-, rfl⟩ | ⟨-, preserved, stack, encoder, consts, hpreserve, hencode, rfl⟩ := hcases
  · exact ⟨hpopped, htyped', hreachable⟩
  · have hgrows := ValueStack.grows_preserveLocals hlawful htyped'.wellFormed hindex hpreserve
    exact ⟨(hpopped.trans hgrows).alloc_consts (encodeLocalSet_extends hencode),
      (htyped'.preserveLocals hindex hpreserve).congr rfl, hreachable⟩

/-- The value on top of the stack goes to the local. -/
lemma Tracks.visitLocalSet (hlawful : stash.Lawful block.slots)
    (htracks : block.Tracks translator [] (ty :: types) outcome)
    (hlocal : block.locals[localIndex.toNat]? = some ty)
    (h : translator.visitLocalSet stash block.float lenResults localIndex = .ok translator')
    (hfits : block.Fits translator'.stack) :
    ∃ (provider : TypedProvider) (value : Value) (outcome' : Except TrapCode State),
      translator.stack.peek = .ok provider ∧ value.ty = ty ∧ provider.Denotes ty value.cell ∧
      outcome = outcome'.map (State.push · value) ∧
      (∀ state, outcome' = .ok state → localIndex.toNat < state.locals.length) ∧
      block.Tracks translator' [] types
        (outcome'.map fun state => state.setLocal localIndex value) := by
  obtain ⟨collected, popped, provider, hcollect, hpop, hindex, hcases⟩ :=
    visitLocalSet_cases htracks.reachable h
  obtain ⟨hcollected, hproviders⟩ := ValueStack.grows_gcPreservations hlawful hcollect
  obtain ⟨-, htyped, top, rfl, htop⟩ := (htracks.typed.congr hproviders).pop hpop
  have hpeek : translator.stack.peek = .ok top.toTyped := by
    rw [ValueStack.peek, ProviderStack.peek, ← hproviders, htop, List.getLast?_append]
    rfl
  have hgrows : popped.Grows translator'.stack := by
    obtain ⟨-, rfl⟩ | ⟨-, preserved, stack, encoder, consts, hpreserve, hencode, rfl⟩ := hcases
    · exact .refl popped
    · exact (ValueStack.grows_preserveLocals hlawful htyped.wellFormed hindex
        hpreserve).alloc_consts (encodeLocalSet_extends hencode)
  have hfits' := hfits.of_grows hgrows
  obtain ⟨value, outcome', rfl, rfl, hpopped⟩ := (htracks.gcPreservations hlawful hcollect
    (hfits'.of_grows (ValueStack.grows_pop hlawful hpop))).pop hlawful hpop hfits'
  refine ⟨top.toTyped, value, outcome', hpeek, rfl, hpopped.denotes _ List.mem_cons_self, rfl,
    fun state heq => (setLocal_typed (hpopped.state_typed heq) hlocal).1, ?_⟩
  obtain ⟨heq, rfl⟩ | ⟨hne, preserved, stack, encoder, consts, hpreserve, hencode, rfl⟩ := hcases
  · rw [heq] at hpopped
    exact hpopped.setLocal_same hlocal
  · exact hpopped.setLocal hlawful hlocal hne hpreserve hencode hfits

lemma resume_localSet {outcome : Except TrapCode State} (htyped : ∀ state, outcome = .ok state →
    localIndex.toNat < state.locals.length) :
    resume (Operator.localSet localIndex).exec (outcome.map (State.push · value)) =
      some (outcome.map fun state => state.setLocal localIndex value) := by
  cases outcome with
  | error trapCode => rfl
  | ok state => exact if_pos (htyped state rfl)

lemma translates_localSet (hlawful : stash.Lawful block.slots)
    (hreachable : translator.reachable = true)
    (hlocal : block.locals[localIndex.toNat]? = some ty)
    (h : translator.visitLocalSet stash block.float lenResults localIndex = .ok translator') :
    block.Translates translator translator' (.localSet localIndex) (ty :: types) types := by
  refine ⟨fun htyped => ?_, fun {outcome} htracks hfits => ?_⟩
  · obtain ⟨hgrows, htyped', -⟩ := grows_visitLocalSet hlawful hreachable htyped h
    exact ⟨hgrows, fun _ => htyped'⟩
  · obtain ⟨provider, value, outcome', -, -, -, rfl, hlt, htracks'⟩ :=
      htracks.visitLocalSet hlawful hlocal h hfits
    exact ⟨_, resume_localSet hlt, .tracks htracks'⟩

/-- The local is pushed behind `local.set`, or the constant again. -/
lemma translates_localTee (hlawful : stash.Lawful block.slots)
    (hreachable : translator.reachable = true)
    (hlocal : block.locals[localIndex.toNat]? = some ty)
    (h : translator.visitLocalTee stash block.float lenResults localIndex = .ok translator') :
    block.Translates translator translator' (.localTee localIndex) (ty :: types)
      (ty :: types) := by
  rw [FuncTranslator.visitLocalTee, if_pos hreachable] at h
  obtain ⟨input, hpeek, h⟩ := bind_eq_ok.1 h
  obtain ⟨set, hset, h⟩ := bind_eq_ok.1 h
  have hsetReachable : translator.stack.Typed (ty :: types) → translator.stack.Grows set.stack ∧
      set.stack.Typed types ∧ set.reachable = true :=
    fun htyped => grows_visitLocalSet hlawful hreachable htyped hset
  have hexec : ∀ {outcome : Except TrapCode State} {value : Value},
      (∀ state, outcome = .ok state → localIndex.toNat < state.locals.length) →
      resume (Operator.localTee localIndex).exec (outcome.map (State.push · value)) =
        some (outcome.map fun state => (state.setLocal localIndex value).push value) := by
    intro outcome value hlt
    cases outcome with
    | error trapCode => rfl
    | ok state => exact if_pos (hlt state rfl)
  cases input with
  | register input =>
    obtain ⟨⟨reg, stack⟩, hpush, h⟩ := bind_eq_ok.1 h
    obtain rfl := Except.ok.inj h
    have hpushes := ValueStack.pushes_entry (ValueStack.pushLocal_ok hpush).2
    refine ⟨fun htyped => ?_, fun {outcome} htracks hfits => ?_⟩
    · obtain ⟨hgrows, htyped', -⟩ := hsetReachable htyped
      exact ⟨hgrows.trans hpushes.grows, fun _ => htyped'.push hpushes ValueStack.hasType_register⟩
    · obtain ⟨provider, value, outcome', -, -, -, rfl, hlt, htracks'⟩ :=
        htracks.visitLocalSet hlawful hlocal hset (hfits.of_grows hpushes.grows)
      refine ⟨_, hexec hlt, ?_⟩
      have hpushed := htracks'.pushLocal hlocal hpush hfits
      cases outcome' with
      | error trapCode => exact .tracks hpushed
      | ok state =>
        have hget : (state.setLocal localIndex value).locals[localIndex.toNat]? = some value := by
          show (state.locals.set localIndex.toNat value)[localIndex.toNat]? = _
          rw [List.getElem?_set_self (hlt state rfl)]
        have hpushed : block.Tracks (set.withStack stack) [] (ty :: types)
            (.ok ((state.setLocal localIndex value).push
              ((state.setLocal localIndex value).locals[localIndex.toNat]?.getD (.ofCell ty 0)))) :=
          hpushed
        rw [hget] at hpushed
        exact .tracks hpushed
  | const constant =>
    obtain ⟨stack, hpush, h⟩ := bind_eq_ok.1 h
    obtain rfl := Except.ok.inj h
    have hpushes := ValueStack.pushes_const hpush
    refine ⟨fun htyped => ?_, fun {outcome} htracks hfits => ?_⟩
    · obtain ⟨hgrows, htyped', -⟩ := hsetReachable htyped
      exact ⟨hgrows.trans hpushes.grows, fun _ => htyped'.push hpushes (htyped.peek hpeek)⟩
    · obtain ⟨provider, value, outcome', hpeek', rfl, hdenotes, rfl, hlt, htracks'⟩ :=
        htracks.visitLocalSet hlawful hlocal hset (hfits.of_grows hpushes.grows)
      obtain rfl := Except.ok.inj (hpeek'.symm.trans hpeek)
      obtain ⟨hty, hvalue⟩ := hdenotes constant rfl
      refine ⟨_, hexec hlt, ?_⟩
      have hpushed := htracks'.pushConst hpush hty hvalue hfits
      cases outcome' with
      | error trapCode => exact .tracks hpushed
      | ok state => exact .tracks hpushed

end Locals

end Block

end MotokoDebugger.Translator
