import MotokoDebugger.Translator.BasicBlocks
import MotokoDebugger.Translator.PreservedRuns

/-!
# The emulated stack of a basic block

What holds of the emulated stack and of its registers between the operators of a basic block.

* `ValueStack.Grows`: which way the registers and the constants of a function go.
* `ValueStack.Typed`: the entries have the types of the validation.
* `ValueStack.Laid`: the entries have their registers where the allocator puts them.
-/

namespace MotokoDebugger.Translator

open Fallible Index16 RegisterAlloc

variable {σ : Type} {stash : MultiStash σ} {slots : σ → List Nat}

/-! ## Registers and constants -/

/-- The dynamic registers go up and the preserved ones down. -/
structure RegisterAlloc.Widens (alloc alloc' : RegisterAlloc σ) : Prop where
  lenLocals : alloc'.lenLocals = alloc.lenLocals
  maxDynamic : alloc.maxDynamic.toInt ≤ alloc'.maxDynamic.toInt
  minPreserve : alloc'.minPreserve.toInt ≤ alloc.minPreserve.toInt

namespace RegisterAlloc.Widens

variable {alloc alloc' alloc'' : RegisterAlloc σ}

lemma refl (alloc : RegisterAlloc σ) : alloc.Widens alloc := ⟨rfl, Int.le_refl _, Int.le_refl _⟩

lemma trans (h : alloc.Widens alloc') (h' : alloc'.Widens alloc'') : alloc.Widens alloc'' where
  lenLocals := h'.lenLocals.trans h.lenLocals
  maxDynamic := Int.le_trans h.maxDynamic h'.maxDynamic
  minPreserve := Int.le_trans h'.minPreserve h.minPreserve

lemma of_effect {op : AllocOp} {regs : List (RegisterSpace × Reg)}
    (h : Effect slots op alloc alloc' regs) (hop : ∀ amount, op ≠ .registerLocals amount) :
    alloc.Widens alloc' := by
  cases h with
  | locals => exact absurd rfl (hop _)
  | idle _ _ len _ max_eq min_eq =>
    exact ⟨len, Int.le_of_eq (by rw [max_eq]), Int.le_of_eq (by rw [min_eq])⟩
  | dynamic =>
    refine ⟨rfl, ?_, Int.le_refl _⟩
    show alloc.maxDynamic.toInt ≤ (max _ _ : Int16).toInt
    rw [toInt_max]
    omega
  | preserve =>
    refine ⟨rfl, Int.le_refl _, ?_⟩
    show (min _ _ : Int16).toInt ≤ alloc.minPreserve.toInt
    rw [toInt_min]
    omega

end RegisterAlloc.Widens

section Widens

variable {alloc alloc' : RegisterAlloc σ} {reg : Reg}

lemma widens_pushDynamic (h : alloc.pushDynamic = .ok (reg, alloc')) : alloc.Widens alloc' := by
  have heffect : Effect (fun _ => []) .pushDynamic alloc alloc' _ := pushDynamic_effect h
  exact .of_effect heffect (by simp)

lemma widens_bumpPreserved (h : stash.Lawful slots)
    (hop : alloc.bumpPreserved stash reg = .ok alloc') : alloc.Widens alloc' := by
  have heffect : Effect slots (.bumpPreserved reg) alloc alloc' [] :=
    bumpPreserved_effect h hop (by simp)
  exact .of_effect heffect (by simp)

/-- The entries of one local are preserved. -/
lemma widens_preserveN (h : stash.Lawful slots) {n : Nat} {preserved : Option Reg}
    {res : Option Reg × RegisterAlloc σ}
    (hop : ProviderStack.preserveN stash n preserved alloc = .ok res) : alloc.Widens res.2 := by
  induction n generalizing preserved alloc with
  | zero =>
    rw [← Except.ok.inj hop]
    exact .refl alloc
  | succ n ih =>
    obtain ⟨⟨reg, alloc₁⟩, hnext, hop⟩ := bind_eq_ok.1 hop
    have hfirst : alloc.Widens alloc₁ := by
      cases preserved with
      | none => exact .of_effect (pushPreserved_effect h hnext) (by simp)
      | some reg' =>
        obtain ⟨alloc₂, hbump, hnext⟩ := bind_eq_ok.1 hnext
        obtain ⟨rfl, rfl⟩ := Prod.mk.inj (Except.ok.inj hnext)
        exact widens_bumpPreserved h hbump
    exact hfirst.trans (ih hop)

/-- The first entry gets a new register. -/
lemma preserveN_first (h : stash.Lawful slots) {n : Nat} {res : Option Reg × RegisterAlloc σ}
    (hop : ProviderStack.preserveN stash n none alloc = .ok res) (hreg : res.1 = some reg) :
    ∃ alloc₁, alloc.pushPreserved stash = .ok (reg, alloc₁) ∧ alloc₁.Widens res.2 := by
  cases n with
  | zero =>
    rw [← Except.ok.inj hop] at hreg
    cases hreg
  | succ n =>
    obtain ⟨⟨reg', alloc₁⟩, hpush, hop⟩ := bind_eq_ok.1 hop
    obtain rfl := Option.some.inj ((ProviderStack.preserveN_some hop).symm.trans hreg)
    exact ⟨alloc₁, hpush, widens_preserveN h hop⟩

end Widens

/-- The entry of a register in the space. -/
def RegisterSpace.entry : RegisterSpace → Reg → TaggedProvider
  | .const => .constLocal
  | .local => .local
  | .dynamic => .dynamic
  | .preserve => .preserved

/-- The same, and the constants of the function keep their registers. -/
structure ValueStack.Grows (stack stack' : ValueStack σ) : Prop where
  alloc : stack.regAlloc.Widens stack'.regAlloc
  consts : stack.consts.Extends stack'.consts

/-- An entry is pushed, with its register or without one. -/
structure ValueStack.Pushes (stack stack' : ValueStack σ) (entry : TaggedProvider) : Prop where
  push : ∃ regAlloc, stack.regAlloc.Widens regAlloc ∧
    { stack with regAlloc }.pushEntry entry = .ok stack'

namespace ValueStack

variable {stack stack' stack'' : ValueStack σ} {provider : TypedProvider} {entry : TaggedProvider}
  {reg : Reg}

lemma Grows.refl (stack : ValueStack σ) : stack.Grows stack := ⟨.refl _, .refl _⟩

lemma Grows.trans (h : stack.Grows stack') (h' : stack'.Grows stack'') : stack.Grows stack'' :=
  ⟨h.alloc.trans h'.alloc, h.consts.trans h'.consts⟩

lemma Grows.alloc_consts {consts : FuncLocalConsts} (h : stack.Grows stack')
    (hconsts : stack'.consts.Extends consts) : stack.Grows { stack' with consts } :=
  ⟨h.alloc, h.consts.trans hconsts⟩

lemma Pushes.grows (h : stack.Pushes stack' entry) : stack.Grows stack' := by
  obtain ⟨regAlloc, hwidens, hpush⟩ := h.push
  obtain ⟨providers, -, hpush⟩ := bind_eq_ok.1 hpush
  rw [← Except.ok.inj hpush]
  exact ⟨hwidens, .refl _⟩

lemma Pushes.providers (h : stack.Pushes stack' entry) :
    stack'.providers.providers = stack.providers.providers ++ [entry] := by
  obtain ⟨regAlloc, -, hpush⟩ := h.push
  obtain ⟨providers, hpush, hop⟩ := bind_eq_ok.1 hpush
  rw [← Except.ok.inj hop]
  exact push_providers hpush

lemma Pushes.consts (h : stack.Pushes stack' entry) : stack'.consts = stack.consts := by
  obtain ⟨regAlloc, -, hpush⟩ := h.push
  exact (Translator.pushEntry_ok hpush).2

lemma pushes_entry (h : stack.pushEntry entry = .ok stack') : stack.Pushes stack' entry :=
  ⟨stack.regAlloc, .refl _, h⟩

lemma pushes_const {value : TypedVal} (h : stack.pushConst value = .ok stack') :
    stack.Pushes stack' (.constValue value) := pushes_entry h

lemma pushLocal_ok {localIndex : UInt32} (h : stack.pushLocal localIndex = .ok (reg, stack')) :
    reg = Int16.ofNat localIndex.toNat ∧ stack.pushEntry (.local reg) = .ok stack' := by
  unfold pushLocal at h
  dsimp only at h
  split at h
  case isFalse => cases h
  case isTrue =>
    obtain ⟨pushed, hpush, h⟩ := bind_eq_ok.1 h
    obtain ⟨rfl, rfl⟩ := Prod.mk.inj (Except.ok.inj h)
    exact ⟨rfl, hpush⟩

lemma pushes_dynamic (h : stack.pushDynamic = .ok (reg, stack')) :
    stack.Pushes stack' (.dynamic reg) := by
  obtain ⟨⟨reg', alloc⟩, halloc, h⟩ := bind_eq_ok.1 h
  obtain ⟨pushed, hpush, h⟩ := bind_eq_ok.1 h
  obtain ⟨rfl, rfl⟩ := Prod.mk.inj (Except.ok.inj h)
  exact ⟨alloc, widens_pushDynamic halloc, hpush⟩

/-- A register that is pushed again. -/
lemma pushes_register (h : stash.Lawful slots) (hop : stack.pushRegister stash reg = .ok stack') :
    stack.Pushes stack' ((stack.regAlloc.registerSpace reg).entry reg) := by
  unfold pushRegister at hop
  split at hop
  case h_1 hspace =>
    obtain ⟨⟨next, alloc⟩, halloc, hop⟩ := bind_eq_ok.1 hop
    rw [hspace]
    exact ⟨alloc, widens_pushDynamic halloc, hop⟩
  case h_2 hspace =>
    obtain ⟨alloc, halloc, hop⟩ := bind_eq_ok.1 hop
    rw [hspace]
    exact ⟨alloc, widens_bumpPreserved h halloc, hop⟩
  case h_3 hspace =>
    rw [hspace]
    exact pushes_entry hop
  case h_4 hspace =>
    rw [hspace]
    exact pushes_entry hop

lemma grows_pop (h : stash.Lawful slots) (hop : stack.pop stash = .ok (provider, stack')) :
    stack.Grows stack' := by
  obtain ⟨⟨entry, providers⟩, -, hop⟩ := bind_eq_ok.1 hop
  obtain ⟨⟨popped, alloc⟩, hpop, hop⟩ := bind_eq_ok.1 hop
  obtain ⟨rfl, rfl⟩ := Prod.mk.inj (Except.ok.inj hop)
  exact ⟨.of_effect (popProvider_effect h hpop) (by simp), .refl _⟩

lemma grows_gcPreservations (h : stash.Lawful slots)
    (hop : stack.gcPreservations stash = .ok stack') :
    stack.Grows stack' ∧ stack'.providers = stack.providers := by
  obtain ⟨alloc, hgc, hop⟩ := bind_eq_ok.1 hop
  rw [← Except.ok.inj hop]
  exact ⟨⟨.of_effect (gcPreservations_effect h hgc) (by simp), .refl _⟩, rfl⟩

lemma grows_preserveLocals (h : stash.Lawful slots) (hwell : stack.providers.WellFormed)
    {localIndex : Nat} {preserved : Option Reg} (hindex : localIndex < 2 ^ 15)
    (hop : stack.preserveLocals stash localIndex = .ok (preserved, stack')) :
    stack.Grows stack' := by
  obtain ⟨-, -, hpreserve⟩ := preserveLocals_ok hwell hindex hop
  obtain ⟨⟨preserved', providers, alloc⟩, -, hop⟩ := bind_eq_ok.1 hop
  obtain ⟨rfl, rfl⟩ := Prod.mk.inj (Except.ok.inj hop)
  exact ⟨widens_preserveN h hpreserve, .refl _⟩

end ValueStack

/-! ## Types -/

/-- A constant has the type. -/
def TypedProvider.HasType (provider : TypedProvider) (ty : ValType) : Prop :=
  ∀ constant, provider = .const constant → constant.ty = ty

/-- The constants of the emulated stack have the types of the validation, from the top down. -/
structure ValueStack.Typed (stack : ValueStack σ) (types : List ValType) : Prop where
  wellFormed : stack.providers.WellFormed
  entries : List.Forall₂ (fun (entry : TaggedProvider) ty => entry.toTyped.HasType ty)
    stack.providers.providers.reverse types

namespace ValueStack

variable {stack stack' : ValueStack σ} {provider : TypedProvider} {entry : TaggedProvider}
  {reg : Reg} {ty : ValType} {types : List ValType}

lemma hasType_register : TypedProvider.HasType (.register reg) ty := fun _ h => by cases h

lemma Typed.congr (h : stack.Typed types) (heq : stack'.providers = stack.providers) :
    stack'.Typed types := ⟨heq ▸ h.wellFormed, heq ▸ h.entries⟩

lemma Typed.push (h : stack.Typed types) (hpush : stack.Pushes stack' entry)
    (hty : entry.toTyped.HasType ty) : stack'.Typed (ty :: types) := by
  refine ⟨?_, ?_⟩
  · obtain ⟨regAlloc, -, hop⟩ := hpush.push
    obtain ⟨providers, hproviders, hop⟩ := bind_eq_ok.1 hop
    obtain ⟨providers', hpushed, hwell, -⟩ := ProviderStack.push_ok h.wellFormed entry
    obtain rfl := Except.ok.inj (hpushed.symm.trans hproviders)
    rw [← Except.ok.inj hop]
    exact hwell
  · rw [hpush.providers, List.reverse_concat]
    exact .cons hty h.entries

/-- The entry on top. -/
lemma Typed.top (h : stack.Typed (ty :: types)) :
    ∃ rest top, stack.providers.providers = rest ++ [top] ∧ top.toTyped.HasType ty ∧
      List.Forall₂ (fun (entry : TaggedProvider) ty => entry.toTyped.HasType ty) rest.reverse
        types := by
  obtain ⟨top, rest, htop, hrest, heq⟩ := List.forall₂_cons_right_iff.1 h.entries
  refine ⟨rest.reverse, top, ?_, htop, ?_⟩
  · rw [← List.reverse_cons, ← heq, List.reverse_reverse]
  · rw [List.reverse_reverse]
    exact hrest

lemma Typed.peek (h : stack.Typed (ty :: types)) (hpeek : stack.peek = .ok provider) :
    provider.HasType ty := by
  obtain ⟨rest, top, hproviders, htop, -⟩ := h.top
  rw [ValueStack.peek, ProviderStack.peek, hproviders, List.getLast?_append] at hpeek
  obtain rfl := Except.ok.inj hpeek
  exact htop

lemma Typed.pop (h : stack.Typed (ty :: types)) (hop : stack.pop stash = .ok (provider, stack')) :
    provider.HasType ty ∧ stack'.Typed types ∧ ∃ top, provider = top.toTyped ∧
      stack.providers.providers = stack'.providers.providers ++ [top] := by
  obtain ⟨rest, top, hproviders, htop, hrest⟩ := h.top
  obtain ⟨providers, hpop, hwell, heq⟩ := ProviderStack.pop_ok h.wellFormed hproviders
  obtain ⟨⟨entry, providers'⟩, hpop', hop⟩ := bind_eq_ok.1 hop
  obtain ⟨rfl, rfl⟩ := Prod.mk.inj (Except.ok.inj (hpop.symm.trans hpop'))
  obtain ⟨⟨popped, alloc⟩, halloc, hop⟩ := bind_eq_ok.1 hop
  obtain ⟨rfl, rfl⟩ := Prod.mk.inj (Except.ok.inj hop)
  have hpopped : popped = top.toTyped := by
    unfold RegisterAlloc.popProvider at halloc
    split at halloc
    case h_2 | h_3 =>
      obtain ⟨alloc', -, halloc⟩ := bind_eq_ok.1 halloc
      exact (Prod.mk.inj (Except.ok.inj halloc)).1.symm
    all_goals exact (Prod.mk.inj (Except.ok.inj halloc)).1.symm
  refine ⟨hpopped ▸ htop, ⟨hwell, ?_⟩, top, hpopped, ?_⟩
  · rw [heq]
    exact hrest
  · rw [heq, hproviders]

/-- The preservation of a local changes no constant. -/
lemma Typed.preserveLocals (h : stack.Typed types) {localIndex : Nat} {preserved : Option Reg}
    (hindex : localIndex < 2 ^ 15)
    (hop : stack.preserveLocals stash localIndex = .ok (preserved, stack')) :
    stack'.Typed types := by
  obtain ⟨hwell, hproviders, -⟩ := preserveLocals_ok h.wellFormed hindex hop
  refine ⟨hwell, ?_⟩
  rw [hproviders, ← List.map_reverse, List.forall₂_map_left_iff]
  refine h.entries.imp fun entry ty hty => ?_
  unfold TaggedProvider.preserve
  split
  case h_1 => exact hty
  case h_2 =>
    split
    case isTrue => exact hasType_register
    case isFalse => exact hty

end ValueStack

/-! ## Places -/

/-- Dynamic registers are handed out in the order of their entries. -/
def Aligned (lenLocals : Nat) (providers : List TaggedProvider) : Prop :=
  ∀ (before : List TaggedProvider) (reg : Reg) (after : List TaggedProvider),
    providers = before ++ .dynamic reg :: after →
    reg.toInt = lenLocals + (before.countP TaggedProvider.isDynamic : Nat)

/-- The entry of a local has its register. Nothing pushes the register of a constant. -/
def TaggedProvider.Placed (lenLocals : Nat) : TaggedProvider → Prop
  | .local reg => 0 ≤ reg.toInt ∧ reg.toInt < lenLocals
  | .constLocal _ => False
  | _ => True

section Aligned

variable {lenLocals : Nat} {providers after : List TaggedProvider} {entry : TaggedProvider}
  {«local» : Reg} {preserved : Option Reg}

lemma Aligned.left (h : Aligned lenLocals (providers ++ after)) : Aligned lenLocals providers := by
  intro before reg rest heq
  refine h before reg (rest ++ after) ?_
  rw [heq, List.append_assoc]
  rfl

lemma Aligned.concat (h : Aligned lenLocals providers)
    (hentry : ∀ reg, entry = .dynamic reg →
      reg.toInt = lenLocals + (providers.countP TaggedProvider.isDynamic : Nat)) :
    Aligned lenLocals (providers ++ [entry]) := by
  intro before reg rest heq
  obtain rfl | ⟨init, last, rfl⟩ := List.eq_nil_or_concat rest
  · obtain ⟨rfl, hlast⟩ := List.append_inj' heq rfl
    exact hentry reg (List.singleton_inj.1 hlast)
  · rw [List.concat_eq_append, ← List.cons_append, ← List.append_assoc] at heq
    exact h before reg init (List.append_inj' heq rfl).1

lemma preserve_cases (entry : TaggedProvider) («local» : Reg) (preserved : Option Reg) :
    entry.preserve «local» preserved = entry ∧
        (entry = .local «local» → preserved = none) ∨
      ∃ reg, preserved = some reg ∧ entry = .local «local» ∧
        entry.preserve «local» preserved = .preserved reg := by
  unfold TaggedProvider.preserve
  cases preserved with
  | none => exact .inl ⟨rfl, fun _ => rfl⟩
  | some reg =>
    by_cases heq : entry = .local «local»
    · exact .inr ⟨reg, rfl, heq, if_pos heq⟩
    · exact .inl ⟨if_neg heq, fun h => absurd h heq⟩

lemma isDynamic_preserve (entry : TaggedProvider) :
    (entry.preserve «local» preserved).isDynamic = entry.isDynamic := by
  obtain ⟨heq, -⟩ | ⟨reg, -, hentry, heq⟩ := preserve_cases entry «local» preserved
  · rw [heq]
  · rw [heq, hentry]
    rfl

lemma Aligned.preserve (h : Aligned lenLocals providers) :
    Aligned lenLocals (providers.map (TaggedProvider.preserve «local» preserved)) := by
  intro before reg after heq
  obtain ⟨before', rest, rfl, rfl, hrest⟩ := List.map_eq_append_iff.1 heq
  obtain ⟨entry, after', rfl, hentry, -⟩ := List.map_eq_cons_iff.1 hrest
  have hcount : (before'.map (TaggedProvider.preserve «local» preserved)).countP
      TaggedProvider.isDynamic = before'.countP TaggedProvider.isDynamic := by
    rw [List.countP_map]
    exact List.countP_congr fun entry _ => by rw [Function.comp_apply, isDynamic_preserve]
  rw [hcount]
  obtain ⟨hsame, -⟩ | ⟨reg', -, -, hsame⟩ := preserve_cases entry «local» preserved
  · exact h before' reg after' (by rw [← hsame, hentry])
  · rw [hentry] at hsame
    cases hsame

end Aligned

/-- The registers of the entries are in order, and where the allocator puts them. -/
structure ValueStack.Laid (slots : σ → List Nat) (stored operands : List TypedProvider)
    (stack : ValueStack σ) : Prop where
  sound : stack.Sound slots stored operands []
  aligned : Aligned stack.regAlloc.lenLocals.toNat stack.providers.providers
  placed : ∀ entry ∈ stack.providers.providers, entry.Placed stack.regAlloc.lenLocals.toNat
  next : stack.regAlloc.nextDynamic.toInt ≤ 32766

namespace ValueStack

variable {stack stack' : ValueStack σ} {stored operands : List TypedProvider} {reg : Reg}
  {provider : TypedProvider} {entry : TaggedProvider}

lemma Sound.forget {results : List Reg} (h : stack.Sound slots stored operands results)
    {operands' : List TypedProvider} (hoperands : ∀ operand ∈ operands', operand ∈ operands) :
    stack.Sound slots stored operands' [] :=
  ⟨h.wellFormed, h.live.phase, h.live.len, h.live.next_eq, h.live.next_max, h.live.max_min,
    h.live.min_eq, h.live.entries, (by simp [refs]),
    h.live.counted.mono (fun _ hr => hr) (fun _ _ => rfl) (fun _ _ => rfl)
      fun _ _ hpin => hoperands _ hpin⟩

namespace Laid

/-- There are no operands any more. -/
lemma forget (h : stack.Laid slots stored operands) : stack.Laid slots stored [] :=
  ⟨h.sound.forget (by simp), h.aligned, h.placed, h.next⟩

lemma len (h : stack.Laid slots stored operands) :
    stack.regAlloc.lenLocals.toNat < 2 ^ 15 := h.sound.live.len

/-- The next dynamic register is that of a further entry. -/
lemma next_eq (h : stack.Laid slots stored operands) :
    stack.regAlloc.nextDynamic.toInt = stack.regAlloc.lenLocals.toNat +
      (stack.providers.providers.countP TaggedProvider.isDynamic : Nat) := h.sound.live.next_eq

lemma max_min (h : stack.Laid slots stored operands) :
    stack.regAlloc.nextDynamic.toInt ≤ stack.regAlloc.maxDynamic.toInt ∧
      stack.regAlloc.maxDynamic.toInt ≤ stack.regAlloc.minPreserve.toInt + 1 :=
  ⟨h.sound.live.next_max, h.sound.live.max_min⟩

lemma min_le (h : stack.Laid slots stored operands) :
    stack.regAlloc.minPreserve.toInt ≤ 32766 := by
  have hmin := h.sound.live.min_eq
  omega

/-- Where the register of an entry is. -/
lemma entry_cases (h : stack.Laid slots stored operands)
    (hentry : entry ∈ stack.providers.providers) (hreg : entry.toTyped = .register reg) :
    (entry = .local reg ∧ 0 ≤ reg.toInt ∧ reg.toInt < stack.regAlloc.lenLocals.toNat) ∨
      (entry = .dynamic reg ∧ stack.regAlloc.lenLocals.toNat ≤ reg.toInt ∧
        reg.toInt < stack.regAlloc.nextDynamic.toInt) ∨
      entry = .preserved reg ∧ stack.regAlloc.minPreserve.toInt < reg.toInt := by
  have hplaced := h.placed entry hentry
  cases entry with
  | constValue value => cases hreg
  | constLocal reg' => exact hplaced.elim
  | «local» reg' =>
    obtain rfl := Provider.register.inj hreg
    exact .inl ⟨rfl, hplaced⟩
  | preserved reg' =>
    obtain rfl := Provider.register.inj hreg
    exact .inr (.inr ⟨rfl, h.sound.live.min_lt (h.sound.live.used_of_entry hentry)⟩)
  | dynamic reg' =>
    obtain rfl := Provider.register.inj hreg
    obtain ⟨before, after, heq⟩ := List.append_of_mem hentry
    have hplace := h.aligned before reg' after heq
    have hnext := h.next_eq
    rw [heq, List.countP_append, List.countP_cons_of_pos rfl] at hnext
    exact .inr (.inl ⟨rfl, by omega, by omega⟩)

/-- The register of an entry is not the next dynamic one. -/
lemma entry_ne (h : stack.Laid slots stored operands)
    (hentry : entry ∈ stack.providers.providers) (hreg : entry.toTyped = .register reg)
    (hfits : stack.regAlloc.nextDynamic.toInt ≤ stack.regAlloc.minPreserve.toInt) :
    reg ≠ stack.regAlloc.nextDynamic := by
  rintro rfl
  have hnext := h.next_eq
  obtain ⟨-, -, hlt⟩ | ⟨-, -, hlt⟩ | ⟨-, hlt⟩ := h.entry_cases hentry hreg
  · omega
  · omega
  · omega

/-! ### Spaces -/

lemma toInt_minDynamic (h : stack.Laid slots stored operands) :
    stack.regAlloc.minDynamic.toInt = stack.regAlloc.lenLocals.toNat := toInt_toInt16 h.len

lemma space_local (h : stack.Laid slots stored operands) (hpos : 0 ≤ reg.toInt)
    (hlt : reg.toInt < stack.regAlloc.lenLocals.toNat) :
    stack.regAlloc.registerSpace reg = .local := by
  have hconst : reg.isConst = false := by
    apply decide_eq_false
    rw [Int16.lt_iff_toInt_lt]
    exact Int.not_lt.2 hpos
  have hlocal : stack.regAlloc.isLocal reg = true := by
    rw [isLocal, hconst, Bool.not_false, Bool.true_and, decide_eq_true_iff,
      Int16.lt_iff_toInt_lt, h.toInt_minDynamic]
    exact hlt
  rw [registerSpace, if_neg (by simp [hconst]), if_pos hlocal]

lemma space_preserve (h : stack.Laid slots stored operands)
    (hlt : stack.regAlloc.minPreserve.toInt < reg.toInt) :
    stack.regAlloc.registerSpace reg = .preserve := by
  have hnext := h.next_eq
  have hmax := h.max_min
  have hzero : (0 : Int16).toInt = 0 := rfl
  have hconst : reg.isConst = false := by
    apply decide_eq_false
    rw [Int16.lt_iff_toInt_lt]
    omega
  have hlocal : stack.regAlloc.isLocal reg = false := by
    rw [isLocal, hconst, Bool.not_false, Bool.true_and]
    apply decide_eq_false
    rw [Int16.lt_iff_toInt_lt, h.toInt_minDynamic]
    omega
  have hpreserved : stack.regAlloc.isPreserved reg = true :=
    decide_eq_true (Int16.lt_iff_toInt_lt.2 hlt)
  rw [registerSpace, if_neg (by simp [hconst]), if_neg (by simp [hlocal]), if_pos hpreserved]

lemma space_dynamic (h : stack.Laid slots stored operands)
    (hle : stack.regAlloc.lenLocals.toNat ≤ reg.toInt)
    (hmin : reg.toInt ≤ stack.regAlloc.minPreserve.toInt) :
    stack.regAlloc.registerSpace reg = .dynamic := by
  have hzero : (0 : Int16).toInt = 0 := rfl
  have hconst : reg.isConst = false := by
    apply decide_eq_false
    rw [Int16.lt_iff_toInt_lt]
    omega
  have hlocal : stack.regAlloc.isLocal reg = false := by
    rw [isLocal, hconst, Bool.not_false, Bool.true_and]
    apply decide_eq_false
    rw [Int16.lt_iff_toInt_lt, h.toInt_minDynamic]
    omega
  have hpreserved : stack.regAlloc.isPreserved reg = false := by
    apply decide_eq_false
    rw [Int16.lt_iff_toInt_lt]
    omega
  rw [registerSpace, if_neg (by simp [hconst]), if_neg (by simp [hlocal]),
    if_neg (by simp [hpreserved])]

lemma pos_of_space_local (h : stack.Laid slots stored operands)
    (hspace : stack.regAlloc.registerSpace reg = .local) :
    0 ≤ reg.toInt ∧ reg.toInt < stack.regAlloc.lenLocals.toNat := by
  unfold registerSpace at hspace
  split at hspace
  case isTrue => cases hspace
  case isFalse hconst =>
    split at hspace
    case isTrue hlocal =>
      rw [isLocal, Bool.and_eq_true, decide_eq_true_iff, Int16.lt_iff_toInt_lt,
        h.toInt_minDynamic] at hlocal
      refine ⟨?_, hlocal.2⟩
      by_contra hneg
      exact hconst (decide_eq_true (Int16.lt_iff_toInt_lt.2 (Int.not_le.1 hneg)))
    case isFalse => split at hspace <;> cases hspace

/-! ### Pushes and pops -/

lemma pop (hlawful : stash.Lawful slots) (h : stack.Laid slots stored operands)
    (hop : stack.pop stash = .ok (provider, stack'))
    (hproviders : stack.providers.providers = stack'.providers.providers ++ [entry]) :
    stack'.Laid slots stored (provider :: operands) := by
  have hgrows := grows_pop hlawful hop
  have hsound := h.sound.of_pop hlawful hop
  have haligned := h.aligned
  have hplaced := h.placed
  rw [hproviders] at haligned hplaced
  refine ⟨hsound, ?_, ?_, ?_⟩
  · rw [hgrows.alloc.lenLocals]
    exact haligned.left
  · rw [hgrows.alloc.lenLocals]
    exact fun entry hentry => hplaced entry (List.mem_append_left _ hentry)
  · have hnext := h.next_eq
    have hnext' : stack'.regAlloc.nextDynamic.toInt = stack'.regAlloc.lenLocals.toNat +
        (stack'.providers.providers.countP TaggedProvider.isDynamic : Nat) := hsound.live.next_eq
    rw [hproviders, List.countP_append] at hnext
    rw [hgrows.alloc.lenLocals] at hnext'
    have hle := h.next
    omega

/-- The stack behind a push that is sound. -/
lemma push (h : stack.Laid slots stored operands) (hpush : stack.Pushes stack' entry)
    (hsound : stack'.Sound slots stored operands [])
    (hplaced : entry.Placed stack.regAlloc.lenLocals.toNat)
    (haligned : ∀ reg, entry = .dynamic reg → reg = stack.regAlloc.nextDynamic)
    (hnext : stack'.regAlloc.nextDynamic.toInt ≤ 32766) : stack'.Laid slots stored operands := by
  have hlen := hpush.grows.alloc.lenLocals
  refine ⟨hsound, ?_, ?_, hnext⟩
  · rw [hlen, hpush.providers]
    refine h.aligned.concat fun reg hreg => ?_
    rw [haligned reg hreg]
    exact h.next_eq
  · rw [hlen, hpush.providers]
    exact List.forall_mem_append.2 ⟨h.placed, List.forall_mem_singleton.2 hplaced⟩

lemma pushEntry (h : stack.Laid slots stored operands) (hpush : stack.pushEntry entry = .ok stack')
    (hdynamic : entry.isDynamic = false) (hother : ∀ reg, entry ≠ .preserved reg)
    (hplaced : entry.Placed stack.regAlloc.lenLocals.toNat) :
    stack'.Laid slots stored operands := by
  have hbeside : entry.Beside stack.regAlloc.maxDynamic.toInt := by
    have hnext := h.next_eq
    have hmax := h.max_min
    cases entry with
    | «local» reg =>
      obtain ⟨-, hlt⟩ := hplaced
      show reg.toInt < stack.regAlloc.maxDynamic.toInt
      omega
    | constLocal reg => exact hplaced.elim
    | dynamic reg => cases hdynamic
    | preserved reg => exact absurd rfl (hother reg)
    | constValue value => trivial
  obtain ⟨providers, hok, hsound⟩ := h.sound.pushEntry entry hdynamic hbeside hother
  have hpushes := pushes_entry hpush
  obtain rfl := Except.ok.inj (hok.symm.trans hpush)
  refine h.push hpushes hsound hplaced (fun reg hreg => ?_) h.next
  rw [hreg] at hdynamic
  cases hdynamic

/-- The new dynamic register is below the preserved ones, unless they meet. -/
lemma pushDynamic_fits {alloc : RegisterAlloc σ} (h : stack.Laid slots stored operands)
    (hop : stack.regAlloc.pushDynamic = .ok (reg, alloc))
    (hapart : alloc.maxDynamic.toInt ≤ alloc.minPreserve.toInt + 1) :
    reg = stack.regAlloc.nextDynamic ∧
      stack.regAlloc.nextDynamic.toInt ≤ stack.regAlloc.minPreserve.toInt ∧
      alloc.nextDynamic.toInt ≤ 32766 ∧ reg.toInt < alloc.maxDynamic.toInt := by
  have hnext := h.next
  have hmax := h.max_min
  have hmin := h.min_le
  have heq := h.next_eq
  unfold RegisterAlloc.pushDynamic at hop
  obtain ⟨_, -, hop⟩ := bind_eq_ok.1 hop
  split at hop
  case isTrue => cases hop
  case isFalse hne =>
    obtain ⟨rfl, rfl⟩ := Prod.mk.inj (Except.ok.inj hop)
    have hone : (1 : Int16).toInt = 1 := rfl
    have hsum : (stack.regAlloc.nextDynamic + 1).toInt = stack.regAlloc.nextDynamic.toInt + 1 := by
      rw [toInt_add_of_mem (by omega) (by omega), hone]
    have hne := mt Int16.toInt_inj.1 hne
    have hmark : (max stack.regAlloc.maxDynamic (stack.regAlloc.nextDynamic + 1)).toInt =
        max stack.regAlloc.maxDynamic.toInt (stack.regAlloc.nextDynamic.toInt + 1) := by
      rw [toInt_max, hsum]
    dsimp only at hapart ⊢
    rw [hmark] at hapart ⊢
    rw [hsum]
    refine ⟨rfl, ?_, ?_, ?_⟩
    · omega
    · omega
    · omega

lemma pushDynamic (h : stack.Laid slots stored operands)
    (hop : stack.pushDynamic = .ok (reg, stack'))
    (hapart : stack'.regAlloc.maxDynamic.toInt ≤ stack'.regAlloc.minPreserve.toInt + 1) :
    stack'.Laid slots stored operands ∧ reg = stack.regAlloc.nextDynamic ∧
      stack.regAlloc.nextDynamic.toInt ≤ stack.regAlloc.minPreserve.toInt ∧
      reg.toInt < stack'.regAlloc.maxDynamic.toInt := by
  have hpushes := pushes_dynamic hop
  obtain ⟨⟨reg', alloc⟩, halloc, hrest⟩ := bind_eq_ok.1 hop
  obtain ⟨pushed, hpush, hrest⟩ := bind_eq_ok.1 hrest
  obtain ⟨rfl, rfl⟩ := Prod.mk.inj (Except.ok.inj hrest)
  have hkept : pushed.regAlloc = alloc := by
    obtain ⟨providers, -, hproviders⟩ := bind_eq_ok.1 hpush
    rw [← Except.ok.inj hproviders]
  rw [hkept] at hapart ⊢
  obtain ⟨hreg, hfits, hnext, hlt⟩ := h.pushDynamic_fits halloc hapart
  have hsound := (h.sound.pushDynamic hfits hop).forget fun _ hoperand => hoperand
  exact ⟨h.push hpushes hsound trivial (fun r hr => TaggedProvider.dynamic.inj hr ▸ hreg)
    (hkept ▸ hnext), hreg, hfits, hlt⟩

/-- An operand is pushed again. If it is a dynamic register, it is the next one. -/
lemma pushRegister (hlawful : stash.Lawful slots) (h : stack.Laid slots stored operands)
    (hmem : .register reg ∈ operands) (hpos : 0 ≤ reg.toInt)
    (hdynamic : stack.regAlloc.registerSpace reg = .dynamic → reg = stack.regAlloc.nextDynamic)
    (hop : stack.pushRegister stash reg = .ok stack')
    (hapart : stack'.regAlloc.maxDynamic.toInt ≤ stack'.regAlloc.minPreserve.toInt + 1) :
    stack'.Laid slots stored operands := by
  have hpushes := pushes_register hlawful hop
  -- the register is in use, and not past the preserved ones
  have hsource := h.sound.live.lt_or_used (.inr hmem)
  have hfits : StackUse.Fits stack.regAlloc (.register reg) ∧
      stack'.regAlloc.nextDynamic.toInt ≤ 32766 := by
    unfold ValueStack.pushRegister at hop
    split at hop
    case h_1 =>
      obtain ⟨⟨next, alloc⟩, halloc, hpush⟩ := bind_eq_ok.1 hop
      obtain ⟨providers, -, hpush⟩ := bind_eq_ok.1 hpush
      rw [← Except.ok.inj hpush] at hapart ⊢
      obtain ⟨-, hle, hnext, -⟩ := h.pushDynamic_fits halloc hapart
      exact ⟨fun _ => hle, hnext⟩
    case h_2 hspace =>
      obtain ⟨alloc, hbump, hpush⟩ := bind_eq_ok.1 hop
      obtain ⟨providers, -, hpush⟩ := bind_eq_ok.1 hpush
      obtain ⟨key, -, hbump⟩ := bind_eq_ok.1 hbump
      rw [← Except.ok.inj hpush, ← Except.ok.inj hbump]
      refine ⟨fun heq => ?_, h.next⟩
      rw [hspace] at heq
      cases heq
    case h_3 hspace | h_4 hspace =>
      obtain ⟨providers, -, hpush⟩ := bind_eq_ok.1 hop
      rw [← Except.ok.inj hpush]
      refine ⟨fun heq => ?_, h.next⟩
      rw [hspace] at heq
      cases heq
  obtain hfull | ⟨pushed, hok, hsound, -⟩ := h.sound.pushRegister hlawful hsource hfits.1
  · cases hfull.symm.trans hop
  obtain rfl := Except.ok.inj (hok.symm.trans hop)
  refine h.push hpushes hsound ?_ (fun r hr => ?_) hfits.2
  · cases hspace : stack.regAlloc.registerSpace reg with
    | «local» => exact h.pos_of_space_local hspace
    | const =>
      unfold registerSpace at hspace
      split at hspace
      case isTrue hconst =>
        exact absurd (Int16.lt_iff_toInt_lt.1 (of_decide_eq_true hconst)) (Int.not_lt.2 hpos)
      case isFalse =>
        split at hspace
        case isTrue => cases hspace
        case isFalse => split at hspace <;> cases hspace
    | dynamic => trivial
    | preserve => trivial
  · cases hspace : stack.regAlloc.registerSpace reg with
    | dynamic =>
      rw [hspace] at hr
      rw [← TaggedProvider.dynamic.inj hr]
      exact hdynamic hspace
    | _ =>
      rw [hspace] at hr
      cases hr

lemma gcPreservations (hlawful : stash.Lawful slots) (h : stack.Laid slots stored [])
    (hop : stack.gcPreservations stash = .ok stack') : stack'.Laid slots stored [] := by
  obtain ⟨preservations, hgc, hlive⟩ := h.sound.live.collect hlawful
  have hcollect : stack.gcPreservations stash =
      .ok { stack with regAlloc := { stack.regAlloc with preservations } } := by
    rw [ValueStack.gcPreservations, hgc]
    rfl
  obtain rfl := Except.ok.inj (hcollect.symm.trans hop)
  exact ⟨⟨h.sound.wellFormed, hlive⟩, h.aligned, h.placed, h.next⟩

/-- The registers of a local are preserved. -/
lemma preserveLocals (hlawful : stash.Lawful slots) (h : stack.Laid slots stored operands)
    {localIndex : Nat} {preserved : Option Reg} (hindex : localIndex < 2 ^ 15)
    (hop : stack.preserveLocals stash localIndex = .ok (preserved, stack'))
    (hapart : stack'.regAlloc.maxDynamic.toInt ≤ stack'.regAlloc.minPreserve.toInt + 1) :
    stack'.Laid slots stored operands ∧
      (∀ reg, preserved = some reg → stack'.regAlloc.maxDynamic.toInt ≤ reg.toInt ∧
        stack'.regAlloc.minPreserve.toInt < reg.toInt ∧ reg.toInt ≤ 32766 ∧
        stack.regAlloc.useCount slots reg = 0) := by
  obtain ⟨-, hproviders, hpreserve⟩ := preserveLocals_ok h.sound.wellFormed hindex hop
  have hgrows := grows_preserveLocals hlawful h.sound.wellFormed hindex hop
  have hmin := h.sound.live.min_eq
  have hmax := h.max_min
  -- the slot of the register, if one is handed out
  have hslot : ∀ reg, preserved = some reg → Room slots stack.regAlloc 1 ∧
      stack'.regAlloc.minPreserve.toInt < reg.toInt ∧ reg.toInt ≤ 32766 ∧
      stack.regAlloc.useCount slots reg = 0 := by
    intro reg hreg
    obtain ⟨alloc, hpush, hwidens⟩ := preserveN_first hlawful hpreserve hreg
    have hle := hwidens.maxDynamic
    have hle' := hwidens.minPreserve
    obtain ⟨preservations, minPreserve, rfl, hmark, hfree, hcount, hslot⟩ :=
      pushPreserved_ok hlawful hpush
    dsimp only at hle hle'
    have hused := hcount reg
    rw [if_pos rfl] at hused
    obtain ⟨key, hkey, -⟩ := key_of_useCount (Nat.lt_of_lt_of_eq Nat.two_pos hused.symm)
    have hreg := toInt_of_reg2key hkey
    unfold Room
    omega
  have hroom : .local (Int16.ofNat localIndex) ∈ stack.providers.providers →
      Room slots stack.regAlloc 1 := by
    intro hmem
    cases hpreserved : preserved with
    | none =>
      rw [hpreserved] at hpreserve
      exact absurd hmem (ProviderStack.not_mem_of_preserveN hpreserve rfl)
    | some reg => exact (hslot reg hpreserved).1
  have hsound := h.sound.preserveLocals hlawful hindex hroom hop
  refine ⟨⟨hsound, ?_, ?_, ?_⟩, fun reg hreg => ?_⟩
  · rw [hgrows.alloc.lenLocals, hproviders]
    exact h.aligned.preserve
  · rw [hgrows.alloc.lenLocals, hproviders, List.forall_mem_map]
    intro entry hentry
    obtain ⟨heq, -⟩ | ⟨reg, -, -, heq⟩ :=
      preserve_cases entry (Int16.ofNat localIndex) preserved
    · rw [heq]
      exact h.placed entry hentry
    · rw [heq]
      trivial
  · have hmax' := hsound.live.next_max
    have hmin' := hsound.live.min_eq
    have hnext := h.next_eq
    have hnext' : stack'.regAlloc.nextDynamic.toInt = stack'.regAlloc.lenLocals.toNat +
        (stack'.providers.providers.countP TaggedProvider.isDynamic : Nat) := hsound.live.next_eq
    have hcount : stack'.providers.providers.countP TaggedProvider.isDynamic =
        stack.providers.providers.countP TaggedProvider.isDynamic := by
      rw [hproviders, List.countP_map]
      exact List.countP_congr fun entry _ => by rw [Function.comp_apply, isDynamic_preserve]
    have hle := h.next
    rw [hgrows.alloc.lenLocals, hcount] at hnext'
    omega
  · obtain ⟨-, hlt, hle, hfree⟩ := hslot reg hreg
    exact ⟨by omega, hlt, hle, hfree⟩

end Laid

end ValueStack

end MotokoDebugger.Translator
