import MotokoDebugger.Translator.PreservedUses

/-!
# Runs of the value stack

What the translator does with the value stack, instruction by instruction.

* `StackUse`, `UseOp`: the stack, with what else refers to registers, and the operations on it.
* `Sound.step`: what one operation preserves.
* `preserved_live`: while dynamic and preserved registers do not meet, no preserved register is
  handed out as long as something refers to it, and no pop fails.
* `preserved_lost`: where they meet, a pop fails.
-/

namespace MotokoDebugger.Translator

open Fallible Index16 RefCounts RegisterAlloc

/-- The value stack, with what else the translator refers to registers from. -/
structure StackUse (σ : Type) where
  stack : ValueStack σ
  elseProviders : List (List TypedProvider)
  operands : List TypedProvider
  results : List Reg

/-- What the translator does with the value stack. `local.set` and `local.tee` start with
`gc_preservations`; the other operations are those within an instruction. -/
inductive UseOp where
  | nextInstr
  | nextLocalSet
  | preserveLocals (localIndex : Nat)
  | preserveAllLocals
  | pop
  | push (provider : TypedProvider)
  | pushLocal (localIndex : UInt32)
  | pushConst (value : TypedVal)
  | pushDynamic
  | pushDynamicN (n : Nat)
  | peekDynamicN (n : Nat)
  | pushElse (n : Nat)
  | popElse

namespace StackUse

variable {σ : Type} (stash : MultiStash σ) (state : StackUse σ)

/-- `visit_if`: the parameters are stored for the `else`, and used until then. -/
def pushElse (n : Nat) : Except Failure (StackUse σ) := do
  let providers ← state.stack.peekN n
  let stack ← providers.foldlM (fun stack provider =>
    match provider with
    | .register reg => stack.incRegisterUsage stash reg
    | .const _ => .ok stack) state.stack
  return { state with stack, elseProviders := providers :: state.elseProviders }

/-- A parameter is restored. -/
def restoreElse (stack : ValueStack σ) (provider : TypedProvider) :
    Except Failure (ValueStack σ) := do
  let stack ← stack.pushProvider stash provider
  match provider with
  | .register reg => stack.decRegisterUsage stash reg
  | .const _ => return stack

/-- `visit_else`, and the end of an `if` without `else`. -/
def popElse : Except Failure (StackUse σ) :=
  match state.elseProviders with
  | [] => .error .panic
  | providers :: rest => do
    let stack ← providers.foldlM (restoreElse stash) state.stack
    return { state with stack, elseProviders := rest }

/-- Performs an operation. Also returns the registers that `push_preserved` hands out. -/
def apply : UseOp → Except Failure (List Reg × StackUse σ)
  | .nextInstr => .ok ([], { state with operands := [] })
  | .nextLocalSet => do
    return ([], { state with stack := ← state.stack.gcPreservations stash, operands := [] })
  | .preserveLocals localIndex => do
    let (preserved, stack) ← state.stack.preserveLocals stash localIndex
    return (preserved.toList, { state with stack })
  | .preserveAllLocals => do
    let (preserved, stack) ← state.stack.preserveAllLocals stash
    return (preserved.map PreservedLocal.preserved, { state with stack })
  | .pop => do
    let (provider, stack) ← state.stack.pop stash
    return ([], { state with stack, operands := provider :: state.operands })
  | .push provider => do
    return ([], { state with stack := ← state.stack.pushProvider stash provider })
  | .pushLocal localIndex => do
    return ([], { state with stack := (← state.stack.pushLocal localIndex).2 })
  | .pushConst value => do return ([], { state with stack := ← state.stack.pushConst value })
  | .pushDynamic => do
    let (reg, stack) ← state.stack.pushDynamic
    return ([], { state with stack, results := state.results ++ [reg] })
  | .pushDynamicN n => do
    let (span, stack) ← state.stack.pushDynamicN n
    return ([], { state with
      stack, results := state.results ++ (List.range n).map span.head.nextN })
  | .peekDynamicN n => do
    let (span, stack) ← state.stack.peekDynamicN n
    return ([], { state with
      stack, results := state.results ++ (List.range n).map span.head.nextN })
  | .pushElse n => do return ([], ← state.pushElse stash n)
  | .popElse => do return ([], ← state.popElse stash)

/-- An instruction pushes its operands again or a dynamic register that was handed out. The index of
a local was converted to a register before. -/
def Allows : UseOp → Prop
  | .preserveLocals localIndex => localIndex < 2 ^ 15
  | .push provider => provider ∈ state.operands ∨ ∃ reg ∈ state.results, provider = .register reg
  | _ => True

/-- The operation is one of the translator's, and succeeds. -/
def Performs (op : UseOp) (regs : List Reg) (state' : StackUse σ) : Prop :=
  state.Allows op ∧ state.apply stash op = .ok (regs, state')

/-- The translation of a function starts. -/
def Starts : Prop :=
  ∃ (stack₀ stack : ValueStack σ) (amounts : List UInt32),
    amounts.foldlM ValueStack.registerLocals (stack₀.reset stash) = .ok stack ∧
    stack.finishRegisterLocals = .ok state.stack ∧ state.elseProviders = [] ∧
    state.operands = [] ∧ state.results = []

/-! ## The condition -/

/-- A dynamic register that is pushed alone has to be below the preserved registers. -/
def Fits (alloc : RegisterAlloc σ) : TypedProvider → Prop
  | .register reg =>
    alloc.registerSpace reg = .dynamic → alloc.nextDynamic.toInt ≤ alloc.minPreserve.toInt
  | .const _ => True

/-- The operation does not make the dynamic registers meet the preserved ones. -/
def Clear (slots : σ → List Nat) : UseOp → Prop
  | .preserveLocals localIndex =>
    .local (Int16.ofNat localIndex) ∈ state.stack.providers.providers →
      Room slots state.stack.regAlloc 1
  | .preserveAllLocals =>
    Room slots state.stack.regAlloc (localsOf state.stack.providers.providers).card
  | .push provider => Fits state.stack.regAlloc provider
  | .pushDynamic =>
    state.stack.regAlloc.nextDynamic.toInt ≤ state.stack.regAlloc.minPreserve.toInt
  | .popElse => ∀ providers ∈ state.elseProviders.head?, ∀ provider ∈ providers,
      Fits state.stack.regAlloc provider
  | _ => True

/-! ## The property -/

/-- What refers to registers. -/
def refs : StackRefs :=
  ⟨state.stack.providers.providers, state.elseProviders.flatten, state.operands, state.results⟩

/-- An entry, a stored provider or an operand refers to the preserved register. -/
def Refers (reg : Reg) : Prop :=
  .preserved reg ∈ state.stack.providers.providers ∨
    state.stack.regAlloc.isPreserved reg = true ∧
      (.register reg ∈ state.elseProviders.flatten ∨ .register reg ∈ state.operands)

/-- What holds of the preserved registers. -/
structure KeepsPreserved (slots : σ → List Nat) : Prop where
  /-- A register that is handed out is not one that something refers to. -/
  fresh : ∀ op regs state', state.Performs stash op regs state' →
    regs.Nodup ∧ ∀ reg ∈ regs, ¬state.Refers reg
  /-- The uses are one more than the references. -/
  counts : ∀ reg, state.Refers reg →
    state.stack.regAlloc.useCount slots reg = 1 + state.refs.references reg
  /-- No pop of an entry panics. -/
  pops : 0 < state.stack.height → state.apply stash .pop ≠ .error .panic
  /-- Nor does the restoration of the parameters of an `if`. -/
  restores : state.elseProviders ≠ [] → state.Clear slots .popElse →
    state.apply stash .popElse ≠ .error .panic

end StackUse

/-! ## Operations of the value stack -/

namespace ValueStack

variable {σ : Type} {stash : MultiStash σ} {slots : σ → List Nat} {stack stack' : ValueStack σ}
  {stored operands : List TypedProvider} {results : List Reg}

/-- What refers to registers, with the entries of the stack. -/
def refs (stack : ValueStack σ) (stored operands : List TypedProvider) (results : List Reg) :
    StackRefs := ⟨stack.providers.providers, stored, operands, results⟩

/-- The stack is well-formed, and its registers are in order. -/
structure Sound (slots : σ → List Nat) (stack : ValueStack σ)
    (stored operands : List TypedProvider) (results : List Reg) : Prop where
  wellFormed : stack.providers.WellFormed
  live : Live slots stack.regAlloc (stack.refs stored operands results)

variable (stack) in
lemma pushEntry_ok (hwell : stack.providers.WellFormed) (provider : TaggedProvider) :
    ∃ providers, stack.pushEntry provider = .ok { stack with providers } ∧
      providers.WellFormed ∧ providers.providers = stack.providers.providers ++ [provider] := by
  obtain ⟨providers, hpush, hwell', heq⟩ := ProviderStack.push_ok hwell provider
  refine ⟨providers, ?_, hwell', heq⟩
  rw [pushEntry, hpush]
  rfl

/-- An entry with a register below the mark, or none. -/
lemma Sound.pushEntry (hsound : stack.Sound slots stored operands results)
    (provider : TaggedProvider) (hdynamic : provider.isDynamic = false)
    (hbeside : provider.Beside stack.regAlloc.maxDynamic.toInt)
    (hother : ∀ reg, provider ≠ .preserved reg) :
    ∃ providers, stack.pushEntry provider = .ok { stack with providers } ∧
      Sound slots { stack with providers } stored operands results := by
  obtain ⟨providers, hpush, hwell, heq⟩ := pushEntry_ok stack hsound.wellFormed provider
  have hcount : [provider].countP TaggedProvider.isDynamic = 0 := by
    rw [List.countP_singleton, hdynamic]
    rfl
  have hadded : ∀ p ∈ [provider], p.Beside stack.regAlloc.maxDynamic.toInt ∧
      ∀ reg, p ≠ .preserved reg := by
    intro p hp
    rw [List.mem_singleton.1 hp]
    exact ⟨hbeside, hother⟩
  have hlive := hsound.live.extend stack.regAlloc.nextDynamic stack.regAlloc.maxDynamic [provider]
    [] (by omega) hsound.live.next_max (Int.le_refl _) hsound.live.max_min hadded (by simp)
  refine ⟨providers, hpush, hwell, ?_⟩
  unfold refs
  dsimp only
  rw [heq]
  rw [List.append_nil] at hlive
  exact hlive

/-- Every entry can be popped. -/
lemma Sound.pop (h : stash.Lawful slots) (hsound : stack.Sound slots stored operands results)
    (hheight : 0 < stack.height) :
    ∃ provider stack', stack.pop stash = .ok (provider, stack') ∧
      stack'.Sound slots stored (provider :: operands) results := by
  obtain hempty | ⟨rest, top, htop⟩ := List.eq_nil_or_concat stack.providers.providers
  · unfold height at hheight
    rw [hempty] at hheight
    exact absurd hheight (Nat.lt_irrefl 0)
  · rw [List.concat_eq_append] at htop
    obtain ⟨providers, hpop, hwell, heq⟩ := ProviderStack.pop_ok hsound.wellFormed htop
    have hlive := hsound.live
    unfold refs at hlive
    rw [htop] at hlive
    obtain ⟨alloc', hpopped, hnext⟩ := hlive.popProvider h
    refine ⟨top.toTyped, { stack with providers, regAlloc := alloc' }, ?_, hwell, ?_⟩
    · rw [ValueStack.pop, hpop, ok_bind]
      dsimp only
      rw [hpopped]
      rfl
    · unfold refs
      dsimp only
      rw [heq]
      exact hnext

lemma Sound.of_pop (h : stash.Lawful slots) (hsound : stack.Sound slots stored operands results)
    {provider : TypedProvider} (hop : stack.pop stash = .ok (provider, stack')) :
    stack'.Sound slots stored (provider :: operands) results := by
  have hheight : 0 < stack.height := by
    apply Nat.pos_of_ne_zero
    intro hzero
    rw [ValueStack.pop, ProviderStack.pop, ProviderStack.peek,
      List.length_eq_zero_iff.1 hzero] at hop
    cases hop
  obtain ⟨provider', next, hpop, hnext⟩ := hsound.pop h hheight
  obtain ⟨rfl, rfl⟩ := Prod.mk.inj (Except.ok.inj (hpop.symm.trans hop))
  exact hnext

/-- A dynamic register is allocated, below the preserved ones. -/
lemma pushDynamic_cases {alloc : RegisterAlloc σ} {refs : StackRefs}
    (hlive : Live slots alloc refs) (hfits : alloc.nextDynamic.toInt ≤ alloc.minPreserve.toInt) :
    alloc.pushDynamic = .error (.error .allocatedTooManyRegisters) ∨
      ∃ nextDynamic maxDynamic : Int16,
        alloc.pushDynamic = .ok (alloc.nextDynamic, { alloc with nextDynamic, maxDynamic }) ∧
          nextDynamic.toInt = alloc.nextDynamic.toInt + 1 ∧
          nextDynamic.toInt ≤ alloc.minPreserve.toInt ∧
          maxDynamic.toInt = max alloc.maxDynamic.toInt nextDynamic.toInt := by
  rw [RegisterAlloc.pushDynamic, assertAllocPhase_of hlive.phase, ok_bind]
  by_cases heq : alloc.nextDynamic = alloc.minPreserve
  · rw [if_pos heq]
    exact .inl rfl
  · have hone : (1 : Int16).toInt = 1 := rfl
    have hne := mt Int16.toInt_inj.1 heq
    have hnext := toInt_mem alloc.nextDynamic
    have hmin := toInt_mem alloc.minPreserve
    have hsum : (alloc.nextDynamic + 1).toInt = alloc.nextDynamic.toInt + 1 := by
      rw [toInt_add_of_mem (by omega) (by omega), hone]
    rw [if_neg heq]
    exact .inr ⟨_, _, rfl, hsum, by omega, toInt_max _ _⟩

/-- What the pushes of a loop leave as it is. -/
structure Keeps (alloc alloc' : RegisterAlloc σ) : Prop where
  lenLocals : alloc'.lenLocals = alloc.lenLocals
  minPreserve : alloc'.minPreserve = alloc.minPreserve
  fits : alloc.nextDynamic.toInt ≤ alloc.minPreserve.toInt →
    alloc'.nextDynamic.toInt ≤ alloc.minPreserve.toInt

lemma Keeps.registerSpace {alloc alloc' : RegisterAlloc σ} (hkeeps : Keeps alloc alloc')
    (reg : Reg) : alloc'.registerSpace reg = alloc.registerSpace reg := by
  unfold RegisterAlloc.registerSpace isLocal isPreserved minDynamic
  rw [hkeeps.lenLocals, hkeeps.minPreserve]

/-- A dynamic entry, with a register below the mark that goes up. -/
lemma Sound.pushDynamicEntry {nextDynamic maxDynamic : Int16}
    (hsound : stack.Sound slots stored operands results) (reg : Reg) (regs : List Reg)
    (hnext : nextDynamic.toInt = stack.regAlloc.nextDynamic.toInt + 1)
    (hmin : nextDynamic.toInt ≤ stack.regAlloc.minPreserve.toInt)
    (hmax : maxDynamic.toInt = max stack.regAlloc.maxDynamic.toInt nextDynamic.toInt)
    (hreg : reg.toInt < maxDynamic.toInt) (hregs : ∀ r ∈ regs, r.toInt < maxDynamic.toInt) :
    ∃ providers, ValueStack.pushEntry
        { stack with regAlloc := { stack.regAlloc with nextDynamic, maxDynamic } } (.dynamic reg) =
          .ok ⟨providers, { stack.regAlloc with nextDynamic, maxDynamic }, stack.consts⟩ ∧
      Sound slots ⟨providers, { stack.regAlloc with nextDynamic, maxDynamic }, stack.consts⟩ stored
        operands (results ++ regs) := by
  obtain ⟨providers, hpush, hwell, heq⟩ := pushEntry_ok
    { stack with regAlloc := { stack.regAlloc with nextDynamic, maxDynamic } } hsound.wellFormed
    (.dynamic reg)
  have hcount : [TaggedProvider.dynamic reg].countP TaggedProvider.isDynamic = 1 := rfl
  have hold := hsound.live.max_min
  have hadded : ∀ p ∈ [TaggedProvider.dynamic reg], p.Beside maxDynamic.toInt ∧
      ∀ r, p ≠ .preserved r := by
    intro p hp
    rw [List.mem_singleton.1 hp]
    exact ⟨hreg, (by simp)⟩
  have hlive := hsound.live.extend nextDynamic maxDynamic [.dynamic reg] regs (by omega) (by omega)
    (by omega) (by omega) hadded hregs
  refine ⟨providers, hpush, hwell, ?_⟩
  unfold refs
  dsimp only at heq ⊢
  rw [heq]
  exact hlive

/-- A register that is referred to can be pushed again, unless no dynamic register is left. -/
lemma Sound.pushRegister (h : stash.Lawful slots)
    (hsound : stack.Sound slots stored operands results) {reg : Reg}
    (hsource : reg.toInt < stack.regAlloc.maxDynamic.toInt ∨
      0 < stack.regAlloc.useCount slots reg)
    (hfits : StackUse.Fits stack.regAlloc (.register reg)) :
    stack.pushRegister stash reg = .error (.error .allocatedTooManyRegisters) ∨
      ∃ stack', stack.pushRegister stash reg = .ok stack' ∧
        stack'.Sound slots stored operands results ∧ Keeps stack.regAlloc stack'.regAlloc := by
  have hkeeps : Keeps stack.regAlloc stack.regAlloc := ⟨rfl, rfl, id⟩
  unfold ValueStack.pushRegister
  obtain hlt | hused := hsource
  · have hpreserve := hsound.live.space_of_lt hlt
    cases hspace : stack.regAlloc.registerSpace reg with
    | preserve => exact absurd hspace hpreserve
    | dynamic =>
      obtain hfull | ⟨nextDynamic, maxDynamic, hpush, hnext, hmin, hmax⟩ :=
        pushDynamic_cases hsound.live (hfits hspace)
      · dsimp only
        rw [hfull]
        exact .inl rfl
      · obtain ⟨providers, hentry, hsound'⟩ := hsound.pushDynamicEntry reg [] hnext
          hmin hmax (by omega) (by simp)
        rw [List.append_nil] at hsound'
        dsimp only
        rw [hpush, ok_bind]
        exact .inr ⟨_, hentry, hsound', rfl, rfl, fun _ => hmin⟩
    | «local» =>
      obtain ⟨providers, hpush, hsound'⟩ := hsound.pushEntry (.local reg) rfl hlt (by simp)
      exact .inr ⟨_, hpush, hsound', hkeeps⟩
    | const =>
      obtain ⟨providers, hpush, hsound'⟩ := hsound.pushEntry (.constLocal reg) rfl hlt
        (by simp)
      exact .inr ⟨_, hpush, hsound', hkeeps⟩
  · rw [hsound.live.space_of_used hused]
    have hdynamic := countP_isDynamic_concat (.preserved reg) stack.providers.providers
    have hentries : ∀ p ∈ stack.providers.providers ++ [.preserved reg],
        p ∈ (stack.refs stored operands results).providers ∨ p = .preserved reg := by
      intro p hp
      obtain hold | hnew := List.mem_append.1 hp
      · exact .inl hold
      · exact .inr (List.mem_singleton.1 hnew)
    obtain ⟨preservations, hbump, _, hnext⟩ := hsound.live.acquire h
      ⟨stack.providers.providers ++ [.preserved reg], stored, operands, results⟩ hused hdynamic
      hentries rfl rfl fun r => by
        rw [references_concat]
        simp only [TaggedProvider.preserved.injEq, @eq_comm _ reg r]
        rfl
    obtain ⟨providers, hpush, hwell, heq⟩ := pushEntry_ok
      { stack with regAlloc := { stack.regAlloc with preservations } } hsound.wellFormed
      (.preserved reg)
    dsimp only
    rw [hbump, ok_bind]
    refine .inr ⟨_, hpush, ⟨hwell, ?_⟩, rfl, rfl, id⟩
    unfold refs
    dsimp only at heq ⊢
    rw [heq]
    exact hnext

/-- A provider that is referred to can be pushed again, unless no dynamic register is left. -/
lemma Sound.pushProvider (h : stash.Lawful slots)
    (hsound : stack.Sound slots stored operands results) {provider : TypedProvider}
    (hsource : ∀ reg, provider = .register reg →
      reg.toInt < stack.regAlloc.maxDynamic.toInt ∨ 0 < stack.regAlloc.useCount slots reg)
    (hfits : StackUse.Fits stack.regAlloc provider) :
    stack.pushProvider stash provider = .error (.error .allocatedTooManyRegisters) ∨
      ∃ stack', stack.pushProvider stash provider = .ok stack' ∧
        stack'.Sound slots stored operands results ∧ Keeps stack.regAlloc stack'.regAlloc := by
  cases provider with
  | register reg => exact hsound.pushRegister h (hsource reg rfl) hfits
  | const value =>
    obtain ⟨providers, hpush, hsound'⟩ := hsound.pushEntry (.constValue value) rfl
      trivial (by simp)
    exact .inr ⟨_, hpush, hsound', rfl, rfl, id⟩

lemma Sound.pushLocal {localIndex : UInt32} {reg : Reg}
    (hsound : stack.Sound slots stored operands results)
    (hop : stack.pushLocal localIndex = .ok (reg, stack')) :
    stack'.Sound slots stored operands results := by
  unfold ValueStack.pushLocal at hop
  dsimp only at hop
  split at hop
  case isFalse => cases hop
  case isTrue hlocal =>
    have hlt : (Int16.ofNat localIndex.toNat).toInt < stack.regAlloc.maxDynamic.toInt := by
      have hlt := hlocal.2
      rw [isLocal, Bool.and_eq_true, decide_eq_true_iff, Int16.lt_iff_toInt_lt] at hlt
      have hlen : stack.regAlloc.minDynamic.toInt = stack.regAlloc.lenLocals.toNat :=
        toInt_toInt16 hsound.live.len
      have hnext := hsound.live.next_eq
      have hmax := hsound.live.next_max
      omega
    obtain ⟨providers, hpush, hpushed⟩ :=
      hsound.pushEntry (.local (Int16.ofNat localIndex.toNat)) rfl hlt (by simp)
    rw [hpush] at hop
    obtain ⟨_, rfl⟩ := Prod.mk.inj (Except.ok.inj hop)
    exact hpushed

lemma Sound.pushDynamic {reg : Reg} (hsound : stack.Sound slots stored operands results)
    (hfits : stack.regAlloc.nextDynamic.toInt ≤ stack.regAlloc.minPreserve.toInt)
    (hop : stack.pushDynamic = .ok (reg, stack')) :
    stack'.Sound slots stored operands (results ++ [reg]) := by
  unfold ValueStack.pushDynamic at hop
  obtain hfull | ⟨nextDynamic, maxDynamic, hpush, hnext, hmin, hmax⟩ :=
    pushDynamic_cases hsound.live hfits
  · rw [hfull] at hop
    cases hop
  · have hregs : ∀ r ∈ [stack.regAlloc.nextDynamic], r.toInt < maxDynamic.toInt := by
      intro r hr
      rw [List.mem_singleton.1 hr]
      omega
    obtain ⟨providers, hentry, hpushed⟩ := hsound.pushDynamicEntry stack.regAlloc.nextDynamic
      [stack.regAlloc.nextDynamic] hnext hmin hmax (by omega) hregs
    rw [hpush, ok_bind] at hop
    dsimp only at hop
    rw [hentry] at hop
    obtain ⟨rfl, rfl⟩ := Prod.mk.inj (Except.ok.inj hop)
    exact hpushed

/-! ### Several registers -/

variable (stack) in
lemma pushEntries_ok (hwell : stack.providers.WellFormed) (regs : List Reg) :
    ∃ providers, regs.foldlM (fun stack reg => stack.pushEntry (.dynamic reg)) stack =
        .ok { stack with providers } ∧
      providers.WellFormed ∧
      providers.providers = stack.providers.providers ++ regs.map .dynamic := by
  induction regs generalizing stack with
  | nil => exact ⟨stack.providers, rfl, hwell, (List.append_nil _).symm⟩
  | cons reg regs ih =>
    obtain ⟨providers, hpush, hwell', heq⟩ := pushEntry_ok stack hwell (.dynamic reg)
    have hrest := ih { stack with providers } hwell'
    obtain ⟨providers', hfold, hwell'', heq'⟩ := hrest
    refine ⟨providers', ?_, hwell'', ?_⟩
    · rw [List.foldlM_cons, hpush, ok_bind]
      exact hfold
    · rw [heq']
      dsimp only
      rw [heq, List.append_assoc]
      rfl

/-- A span of dynamic registers ends below the preserved ones. -/
lemma pushDynamicN_ok {alloc alloc' : RegisterAlloc σ} {refs : StackRefs} {n : Nat} {span : RegSpan}
    (hlive : Live slots alloc refs) (hop : alloc.pushDynamicN n = .ok (span, alloc')) :
    ∃ nextDynamic maxDynamic : Int16, alloc' = { alloc with nextDynamic, maxDynamic } ∧
      nextDynamic.toInt = alloc.nextDynamic.toInt + n ∧
      nextDynamic.toInt < alloc.minPreserve.toInt ∧
      maxDynamic.toInt = max alloc.maxDynamic.toInt nextDynamic.toInt ∧
      ∀ reg ∈ (List.range n).map span.head.nextN, reg.toInt < nextDynamic.toInt := by
  rw [RegisterAlloc.pushDynamicN, assertAllocPhase_of hlive.phase, ok_bind] at hop
  split at hop
  case isFalse => cases hop
  case isTrue hfits =>
    dsimp only at hop
    split at hop
    case isTrue => cases hop
    case isFalse hlt =>
      obtain ⟨rfl, rfl⟩ := Prod.mk.inj (Except.ok.inj hop)
      have hn := toInt_ofNat_of_lt hfits.1
      have hmem := toInt_mem alloc.nextDynamic
      have hsum : (alloc.nextDynamic + Int16.ofNat n).toInt = alloc.nextDynamic.toInt + n := by
        rw [toInt_add_of_mem (by omega) (by omega), hn]
      rw [ge_iff_le, Int16.le_iff_toInt_le] at hlt
      refine ⟨_, _, rfl, hsum, by omega, toInt_max _ _, fun reg hreg => ?_⟩
      obtain ⟨i, hi, rfl⟩ := List.mem_map.1 hreg
      have hi := List.mem_range.1 hi
      have hreg := toInt_nextN alloc.nextDynamic (i := i) (by omega) (by omega)
      show (Reg.nextN alloc.nextDynamic i).toInt < _
      omega

lemma Sound.pushDynamicN {n : Nat} {span : RegSpan}
    (hsound : stack.Sound slots stored operands results)
    (hop : stack.pushDynamicN n = .ok (span, stack')) :
    stack'.Sound slots stored operands (results ++ (List.range n).map span.head.nextN) := by
  obtain ⟨⟨span', alloc'⟩, hpush, hop⟩ := bind_eq_ok.1 hop
  obtain ⟨nextDynamic, maxDynamic, rfl, hnext, hmin, hmax, hregs⟩ :=
    pushDynamicN_ok hsound.live hpush
  obtain ⟨pushed, hfold, hop⟩ := bind_eq_ok.1 hop
  obtain ⟨rfl, rfl⟩ := Prod.mk.inj (Except.ok.inj hop)
  obtain ⟨providers, hfold', hwell, heq⟩ := pushEntries_ok
    { stack with regAlloc := { stack.regAlloc with nextDynamic, maxDynamic } } hsound.wellFormed
    ((List.range n).map span'.head.nextN)
  obtain rfl := Except.ok.inj (hfold'.symm.trans hfold)
  have hcount : (((List.range n).map span'.head.nextN).map TaggedProvider.dynamic).countP
      TaggedProvider.isDynamic = n := by
    rw [List.countP_eq_length.2 (by simp [TaggedProvider.isDynamic])]
    simp
  have hold := hsound.live.max_min
  have hadded : ∀ p ∈ ((List.range n).map span'.head.nextN).map TaggedProvider.dynamic,
      p.Beside maxDynamic.toInt ∧ ∀ r, p ≠ .preserved r := by
    intro p hp
    obtain ⟨reg, hreg, rfl⟩ := List.mem_map.1 hp
    have hlt := hregs reg hreg
    refine ⟨?_, (by simp)⟩
    show reg.toInt < maxDynamic.toInt
    omega
  have hlive := hsound.live.extend nextDynamic maxDynamic _ ((List.range n).map span'.head.nextN)
    (by omega) (by omega) (by omega) (by omega) hadded fun reg hreg => by
      have hlt := hregs reg hreg
      omega
  refine ⟨hwell, ?_⟩
  unfold refs
  dsimp only at heq ⊢
  rw [heq]
  exact hlive

lemma Sound.peekDynamicN {n : Nat} {span : RegSpan}
    (hsound : stack.Sound slots stored operands results)
    (hop : stack.peekDynamicN n = .ok (span, stack')) :
    stack'.Sound slots stored operands (results ++ (List.range n).map span.head.nextN) := by
  obtain ⟨⟨span', alloc'⟩, hpush, hop⟩ := bind_eq_ok.1 hop
  obtain ⟨nextDynamic, maxDynamic, rfl, hnext, hmin, hmax, hregs⟩ :=
    pushDynamicN_ok hsound.live hpush
  obtain ⟨popped, hpop, hop⟩ := bind_eq_ok.1 hop
  obtain ⟨rfl, rfl⟩ := Prod.mk.inj (Except.ok.inj hop)
  obtain ⟨_, _, hpop⟩ := bind_eq_ok.1 hpop
  split at hpop
  case isFalse => cases hpop
  case isTrue hfits =>
    obtain rfl := Except.ok.inj hpop
    have hn := toInt_ofNat_of_lt hfits.1
    have hmem := toInt_mem stack.regAlloc.nextDynamic
    have hsub : (nextDynamic - Int16.ofNat n).toInt = stack.regAlloc.nextDynamic.toInt := by
      rw [toInt_sub_of_mem (by omega) (by omega), hn]
      omega
    have hold := hsound.live.max_min
    have hmax' := hsound.live.next_max
    have hlive := hsound.live.extend (nextDynamic - Int16.ofNat n) maxDynamic []
      ((List.range n).map span'.head.nextN) (by rw [hsub]; simp) (by omega) (by omega) (by omega)
      (by simp) fun reg hreg => by
        have hlt := hregs reg hreg
        omega
    rw [List.append_nil] at hlive
    exact ⟨hsound.wellFormed, hlive⟩

/-! ### Preserved locals -/

/-- What the preservation of a local does, whether there is room for its register or not. -/
lemma preserveLocals_ok (hwell : stack.providers.WellFormed) {localIndex : Nat}
    {preserved : Option Reg} (hindex : localIndex < 2 ^ 15)
    (hop : stack.preserveLocals stash localIndex = .ok (preserved, stack')) :
    stack'.providers.WellFormed ∧
      stack'.providers.providers = stack.providers.providers.map
        (TaggedProvider.preserve (Int16.ofNat localIndex) preserved) ∧
      ProviderStack.preserveN stash
        (stack.providers.providers.count (.local (Int16.ofNat localIndex))) none stack.regAlloc =
          .ok (preserved, stack'.regAlloc) := by
  obtain ⟨after, hproviders, hafter, heq⟩ := ProviderStack.preserveLocals_eq stash hwell hindex _ rfl
  unfold ValueStack.preserveLocals at hop
  rw [heq, bind_assoc] at hop
  obtain ⟨res, hpreserve, hop⟩ := bind_eq_ok.1 hop
  obtain ⟨rfl, rfl⟩ := Prod.mk.inj (Except.ok.inj hop)
  exact ⟨hafter _ fun hnone => ProviderStack.not_mem_of_preserveN hpreserve hnone, hproviders _,
    hpreserve⟩

lemma Sound.preserveLocals (h : stash.Lawful slots)
    (hsound : stack.Sound slots stored operands results) {localIndex : Nat}
    {preserved : Option Reg} (hindex : localIndex < 2 ^ 15)
    (hroom : .local (Int16.ofNat localIndex) ∈ stack.providers.providers →
      Room slots stack.regAlloc 1)
    (hop : stack.preserveLocals stash localIndex = .ok (preserved, stack')) :
    stack'.Sound slots stored operands results := by
  obtain ⟨hwell, hproviders, hpreserve⟩ := preserveLocals_ok hsound.wellFormed hindex hop
  have hlive : Live slots stack.regAlloc
      ⟨[] ++ stack.providers.providers, stored, operands, results⟩ := hsound.live
  have hnext := hlive.preserveN h (fun _ => hroom) (fun _ hnone => by cases hnone) hpreserve
  refine ⟨hwell, ?_⟩
  unfold refs
  rw [hproviders]
  exact hnext

lemma preserveLocals_fresh (h : stash.Lawful slots) (hwell : stack.providers.WellFormed)
    {localIndex : Nat} {reg : Reg} (hindex : localIndex < 2 ^ 15)
    (hop : stack.preserveLocals stash localIndex = .ok (some reg, stack')) :
    stack.regAlloc.useCount slots reg = 0 := by
  obtain ⟨_, _, hpreserve⟩ := preserveLocals_ok hwell hindex hop
  obtain ⟨alloc₁, hpush⟩ := (ProviderStack.preserveN_none hpreserve).2 reg rfl
  obtain ⟨_, _, _, _, hfree, _⟩ := pushPreserved_ok h hpush
  exact hfree

lemma pending_nil (providers : List TaggedProvider) : pending providers [] = localsOf providers :=
  Finset.filter_true_of_mem (by simp)

lemma preserveAllLocals_ok (hwell : stack.providers.WellFormed) {preserved : List PreservedLocal}
    (hop : stack.preserveAllLocals stash = .ok (preserved, stack')) :
    stack'.providers.WellFormed ∧
      ProviderStack.PreserveSteps stash
        ⟨stack.providers.providers, stack.providers.lenLocals, [], stack.regAlloc⟩
        ⟨stack'.providers.providers, stack'.providers.lenLocals, preserved, stack'.regAlloc⟩ := by
  obtain ⟨res, hpreserve, hop⟩ := bind_eq_ok.1 hop
  obtain ⟨rfl, rfl⟩ := Prod.mk.inj (Except.ok.inj hop)
  obtain ⟨hwell', _, hsteps⟩ := ProviderStack.preserveAllLocals_ok hwell hpreserve
  exact ⟨hwell', hsteps⟩

lemma Sound.preserveAllLocals (h : stash.Lawful slots)
    (hsound : stack.Sound slots stored operands results) {preserved : List PreservedLocal}
    (hroom : Room slots stack.regAlloc (localsOf stack.providers.providers).card)
    (hop : stack.preserveAllLocals stash = .ok (preserved, stack')) :
    stack'.Sound slots stored operands results := by
  obtain ⟨hwell, hsteps⟩ := preserveAllLocals_ok hsound.wellFormed hop
  rw [← pending_nil] at hroom
  exact ⟨hwell, (Live.preserveSteps h hsteps hsound.live hroom).1⟩

lemma preserveAllLocals_fresh (h : stash.Lawful slots) (hwell : stack.providers.WellFormed)
    {preserved : List PreservedLocal}
    (hop : stack.preserveAllLocals stash = .ok (preserved, stack')) :
    (preserved.map PreservedLocal.preserved).Nodup ∧
      ∀ entry ∈ preserved, stack.regAlloc.useCount slots entry.preserved = 0 := by
  obtain ⟨_, hsteps⟩ := preserveAllLocals_ok hwell hop
  obtain ⟨hnodup, hfresh, _⟩ := preserveSteps_fresh h hsteps rfl
  exact ⟨hnodup, fun entry hentry => (hfresh entry hentry).2⟩

end ValueStack

/-! ## Steps -/

namespace StackUse

variable {σ : Type} {stash : MultiStash σ} {slots : σ → List Nat} {state state' : StackUse σ}

/-- What holds between the operations of a run. -/
abbrev Sound (slots : σ → List Nat) (state : StackUse σ) : Prop :=
  state.stack.Sound slots state.elseProviders.flatten state.operands state.results

/-- What an instruction may push is below the mark or in use. -/
lemma Sound.source (hsound : state.Sound slots) {provider : TypedProvider}
    (hallows : state.Allows (.push provider)) : ∀ reg, provider = .register reg →
      reg.toInt < state.stack.regAlloc.maxDynamic.toInt ∨
        0 < state.stack.regAlloc.useCount slots reg := by
  intro reg heq
  obtain hoperand | ⟨result, hresult, hprovider⟩ := hallows
  · rw [heq] at hoperand
    exact hsound.live.lt_or_used (.inr hoperand)
  · rw [hprovider] at heq
    rw [← Provider.register.inj heq]
    exact .inl (hsound.live.results result hresult)

lemma count_append_register (done stored : List TypedProvider) (provider : TypedProvider) (r : Reg) :
    ((done ++ [provider]) ++ stored).count (.register r) =
      (done ++ stored).count (.register r) + if provider = .register r then 1 else 0 := by
  rw [List.append_assoc, List.count_append, List.count_append, List.count_append,
    List.count_singleton]
  simp only [beq_iff_eq]
  omega

/-- The parameters are stored one by one. -/
lemma Sound.pushElse (h : stash.Lawful slots) (hsound : state.Sound slots) {n : Nat}
    (hop : state.pushElse stash n = .ok state') : state'.Sound slots := by
  obtain ⟨providers, hpeek, hop⟩ := bind_eq_ok.1 hop
  obtain ⟨stack, hfold, hop⟩ := bind_eq_ok.1 hop
  obtain rfl := Except.ok.inj hop
  have hmem : ∀ reg, .register reg ∈ providers → ∃ entry ∈ state.stack.providers.providers,
      entry.toTyped = .register reg := by
    intro reg hreg
    obtain ⟨entries, hentries, hpeek⟩ := bind_eq_ok.1 hpeek
    unfold ProviderStack.peekN at hentries
    split at hentries
    case isFalse => cases hentries
    case isTrue =>
      obtain rfl := Except.ok.inj hentries
      obtain rfl := Except.ok.inj hpeek
      obtain ⟨entry, hentry, heq⟩ := List.mem_map.1 hreg
      exact ⟨entry, List.mem_of_mem_drop hentry, heq⟩
  -- what is stored so far, and the entries as they were
  let I : List TypedProvider → ValueStack σ → Prop := fun rest stack =>
    ∃ done, providers = done ++ rest ∧ stack.providers = state.stack.providers ∧
      stack.Sound slots (done ++ state.elseProviders.flatten) state.operands state.results
  have hstep : ∀ provider rest stack stack', I (provider :: rest) stack →
      (match provider with
        | .register reg => stack.incRegisterUsage stash reg
        | .const _ => Except.ok stack) = .ok stack' → I rest stack' := by
    intro provider rest stack stack' hI hinc
    obtain ⟨done, hproviders, hsame, hwell, hlive⟩ := hI
    have hsplit : providers = (done ++ [provider]) ++ rest := by
      rw [hproviders, List.append_assoc]
      rfl
    cases provider with
    | const value =>
      obtain rfl := Except.ok.inj hinc
      refine ⟨done ++ [.const value], hsplit, hsame, hwell, hlive.congr (fun r _ => ?_) fun _ => id⟩
      rw [count_append_register, if_neg (by simp), Nat.add_zero]
    | register reg =>
      obtain ⟨entry, hentry, htyped⟩ := hmem reg (by rw [hproviders]; simp)
      rw [← hsame] at hentry
      have hsource : reg.toInt < stack.regAlloc.maxDynamic.toInt ∨
          0 < stack.regAlloc.useCount slots reg := by
        have hbeside := hlive.entries entry hentry
        cases entry with
        | constValue value => cases htyped
        | preserved reg' =>
          obtain rfl := Provider.register.inj htyped
          exact .inr (hlive.used_of_entry hentry)
        | «local» reg' | dynamic reg' | constLocal reg' =>
          obtain rfl := Provider.register.inj htyped
          exact .inl hbeside
      have hcount : ∀ r : Reg, ((done ++ [Provider.register reg]) ++
          state.elseProviders.flatten).count (Provider.register r) =
            (done ++ state.elseProviders.flatten).count (.register r) +
              if r = reg then 1 else 0 := by
        intro r
        rw [count_append_register]
        simp only [Provider.register.injEq, @eq_comm _ reg r]
      obtain ⟨preservations, hinc', hnext⟩ := hlive.incRegisterUsage _ h hsource hcount
      unfold ValueStack.incRegisterUsage at hinc
      dsimp only at hinc
      rw [hinc', ok_bind] at hinc
      obtain rfl := Except.ok.inj hinc
      exact ⟨done ++ [Provider.register reg], hsplit, hsame, ⟨hwell, hnext⟩⟩
  have hend : I [] stack := foldlM_ok hstep ⟨[], rfl, rfl, hsound⟩ hfold
  obtain ⟨done, hproviders, _, hsound'⟩ := hend
  rw [List.append_nil] at hproviders
  rw [← hproviders] at hsound'
  exact hsound'

/-- A stored provider is pushed, and its use ends. -/
lemma restoreElse_cases (h : stash.Lawful slots) {stack : ValueStack σ}
    {stored operands : List TypedProvider} {results : List Reg} {provider : TypedProvider}
    (hsound : stack.Sound slots (provider :: stored) operands results)
    (hfits : Fits stack.regAlloc provider) :
    restoreElse stash stack provider = .error (.error .allocatedTooManyRegisters) ∨
      ∃ stack', restoreElse stash stack provider = .ok stack' ∧
        stack'.Sound slots stored operands results ∧
        ValueStack.Keeps stack.regAlloc stack'.regAlloc := by
  have hsource : ∀ reg, provider = .register reg →
      reg.toInt < stack.regAlloc.maxDynamic.toInt ∨ 0 < stack.regAlloc.useCount slots reg := by
    intro reg heq
    apply hsound.live.lt_or_used
    left
    have hcount : 0 < (provider :: stored).count (.register reg) := by
      rw [heq, List.count_cons_self]
      omega
    show 0 < _ + (provider :: stored).count (.register reg)
    omega
  unfold restoreElse
  obtain hfull | ⟨pushed, hpush, hpushed, hkeeps⟩ := hsound.pushProvider h hsource hfits
  · rw [hfull]
    exact .inl rfl
  · rw [hpush, ok_bind]
    cases provider with
    | const value =>
      have hlive : Live slots pushed.regAlloc (pushed.refs stored operands results) := by
        refine hpushed.live.congr (fun r _ => ?_) fun _ => id
        rw [List.count_cons_of_ne (by simp)]
      exact .inr ⟨pushed, rfl, ⟨hpushed.wellFormed, hlive⟩, hkeeps⟩
    | register reg =>
      have hlive := hpushed.live
      obtain ⟨preservations, removedPreserved, hdec, hnext⟩ := Live.decRegisterUsage h hlive
      refine .inr ⟨{ pushed with
        regAlloc := { pushed.regAlloc with preservations, removedPreserved } }, ?_,
        ⟨hpushed.wellFormed, hnext⟩, hkeeps.lenLocals, hkeeps.minPreserve, hkeeps.fits⟩
      unfold ValueStack.decRegisterUsage
      dsimp only
      rw [hdec]
      rfl

/-- The parameters are restored one by one, unless no dynamic register is left. -/
lemma Sound.popElse (h : stash.Lawful slots) (hsound : state.Sound slots)
    (hclear : state.Clear slots .popElse) :
    (∀ state', state.popElse stash = .ok state' → state'.Sound slots) ∧
      (state.elseProviders ≠ [] → ∀ failure, state.popElse stash = .error failure →
        failure = .error .allocatedTooManyRegisters) := by
  unfold StackUse.popElse
  cases helse : state.elseProviders with
  | nil => exact ⟨fun _ hop => (by cases hop), fun hne => absurd rfl hne⟩
  | cons providers rest =>
    have hfits : ∀ provider ∈ providers, Fits state.stack.regAlloc provider := by
      refine hclear providers ?_
      rw [helse]
      rfl
    -- what is left to restore, and that it can be pushed
    let I : List TypedProvider → ValueStack σ → Prop := fun left stack =>
      stack.Sound slots (left ++ rest.flatten) state.operands state.results ∧
        ∀ provider ∈ left, Fits stack.regAlloc provider
    have hcases : ∀ provider left stack, I (provider :: left) stack →
        restoreElse stash stack provider = .error (.error .allocatedTooManyRegisters) ∨
          ∃ stack', restoreElse stash stack provider = .ok stack' ∧ I left stack' := by
      intro provider left stack hI
      obtain ⟨hsound, hfits⟩ := hI
      obtain hfull | ⟨stack', hrestore, hsound', hkeeps⟩ :=
        restoreElse_cases h hsound (hfits provider List.mem_cons_self)
      · exact .inl hfull
      · refine .inr ⟨stack', hrestore, hsound', fun other hother => ?_⟩
        have hother := hfits other (List.mem_cons_of_mem _ hother)
        cases other with
        | const value => trivial
        | register reg =>
          intro hspace
          rw [hkeeps.registerSpace] at hspace
          rw [hkeeps.minPreserve]
          exact hkeeps.fits (hother hspace)
    have hstep : ∀ provider left stack stack', I (provider :: left) stack →
        restoreElse stash stack provider = .ok stack' → I left stack' := by
      intro provider left stack stack' hI hrestore
      obtain hfull | ⟨next, hok, hnext⟩ := hcases provider left stack hI
      · cases hfull.symm.trans hrestore
      · rw [← Except.ok.inj (hok.symm.trans hrestore)]
        exact hnext
    have hfails : ∀ provider left stack failure, I (provider :: left) stack →
        restoreElse stash stack provider = .error failure →
          failure = .error .allocatedTooManyRegisters := by
      intro provider left stack failure hI hrestore
      obtain hfull | ⟨next, hok, _⟩ := hcases provider left stack hI
      · exact (Except.error.inj (hfull.symm.trans hrestore)).symm
      · cases hok.symm.trans hrestore
    have hstart : I providers state.stack := by
      refine ⟨?_, hfits⟩
      have hstored := hsound
      unfold Sound at hstored
      rw [helse] at hstored
      exact hstored
    refine ⟨fun state' hop => ?_, fun _ failure hop => ?_⟩
    · obtain ⟨stack, hfold, hop⟩ := bind_eq_ok.1 hop
      obtain rfl := Except.ok.inj hop
      exact (foldlM_ok hstep hstart hfold).1
    · obtain hfold | ⟨stack, _, hop⟩ := bind_eq_error.1 hop
      · exact foldlM_error (P := fun e => e = .error .allocatedTooManyRegisters) hstep hfails hstart
          hfold
      · cases hop

/-- What an operation that is clear of the preserved registers preserves. -/
lemma Sound.step (h : stash.Lawful slots) (hsound : state.Sound slots) {op : UseOp}
    {regs : List Reg} (hclear : state.Clear slots op) (hop : state.Performs stash op regs state') :
    state'.Sound slots := by
  obtain ⟨hallows, hop⟩ := hop
  cases op with
  | nextInstr =>
    obtain ⟨_, rfl⟩ := Prod.mk.inj (Except.ok.inj hop)
    exact ⟨hsound.wellFormed, hsound.live.congr (fun _ _ => rfl) fun _ => List.not_mem_nil.elim⟩
  | nextLocalSet =>
    obtain ⟨preservations, hgc, hlive⟩ := hsound.live.collect h
    have hcollect : state.stack.gcPreservations stash =
        .ok { state.stack with regAlloc := { state.stack.regAlloc with preservations } } := by
      rw [ValueStack.gcPreservations, hgc]
      rfl
    rw [apply, hcollect] at hop
    obtain ⟨_, rfl⟩ := Prod.mk.inj (Except.ok.inj hop)
    exact ⟨hsound.wellFormed, hlive⟩
  | preserveLocals localIndex =>
    obtain ⟨⟨preserved, stack⟩, hpreserve, hop⟩ := bind_eq_ok.1 hop
    obtain ⟨_, rfl⟩ := Prod.mk.inj (Except.ok.inj hop)
    exact hsound.preserveLocals h hallows hclear hpreserve
  | preserveAllLocals =>
    obtain ⟨⟨preserved, stack⟩, hpreserve, hop⟩ := bind_eq_ok.1 hop
    obtain ⟨_, rfl⟩ := Prod.mk.inj (Except.ok.inj hop)
    exact hsound.preserveAllLocals h hclear hpreserve
  | pop =>
    obtain ⟨⟨provider, stack⟩, hpop, hop⟩ := bind_eq_ok.1 hop
    obtain ⟨_, rfl⟩ := Prod.mk.inj (Except.ok.inj hop)
    exact hsound.of_pop h hpop
  | push provider =>
    obtain ⟨stack, hpush, hop⟩ := bind_eq_ok.1 hop
    obtain ⟨_, rfl⟩ := Prod.mk.inj (Except.ok.inj hop)
    obtain hfull | ⟨pushed, hok, hpushed, _⟩ := hsound.pushProvider h (hsound.source hallows) hclear
    · cases hfull.symm.trans hpush
    · obtain rfl := Except.ok.inj (hok.symm.trans hpush)
      exact hpushed
  | pushLocal localIndex =>
    obtain ⟨⟨reg, stack⟩, hpush, hop⟩ := bind_eq_ok.1 hop
    obtain ⟨_, rfl⟩ := Prod.mk.inj (Except.ok.inj hop)
    exact hsound.pushLocal hpush
  | pushConst value =>
    obtain ⟨stack, hpush, hop⟩ := bind_eq_ok.1 hop
    obtain ⟨_, rfl⟩ := Prod.mk.inj (Except.ok.inj hop)
    obtain ⟨providers, hok, hpushed⟩ := hsound.pushEntry (.constValue value) rfl trivial (by simp)
    obtain rfl := Except.ok.inj (hok.symm.trans hpush)
    exact hpushed
  | pushDynamic =>
    obtain ⟨⟨reg, stack⟩, hpush, hop⟩ := bind_eq_ok.1 hop
    obtain ⟨_, rfl⟩ := Prod.mk.inj (Except.ok.inj hop)
    exact hsound.pushDynamic hclear hpush
  | pushDynamicN n =>
    obtain ⟨⟨span, stack⟩, hpush, hop⟩ := bind_eq_ok.1 hop
    obtain ⟨_, rfl⟩ := Prod.mk.inj (Except.ok.inj hop)
    exact hsound.pushDynamicN hpush
  | peekDynamicN n =>
    obtain ⟨⟨span, stack⟩, hpeek, hop⟩ := bind_eq_ok.1 hop
    obtain ⟨_, rfl⟩ := Prod.mk.inj (Except.ok.inj hop)
    exact hsound.peekDynamicN hpeek
  | pushElse n =>
    obtain ⟨next, hpush, hop⟩ := bind_eq_ok.1 hop
    obtain ⟨_, rfl⟩ := Prod.mk.inj (Except.ok.inj hop)
    exact hsound.pushElse h hpush
  | popElse =>
    obtain ⟨next, hpop, hop⟩ := bind_eq_ok.1 hop
    obtain ⟨_, rfl⟩ := Prod.mk.inj (Except.ok.inj hop)
    exact (hsound.popElse h hclear).1 _ hpop

/-! ## The start -/

lemma registerLocals_ok {alloc alloc' : RegisterAlloc σ} {amount : UInt32}
    (hop : alloc.registerLocals amount = .ok alloc') : ∃ lenLocals : UInt16,
      lenLocals.toNat < 32766 ∧ alloc' = { alloc with
        lenLocals, nextDynamic := lenLocals.toInt16, maxDynamic := lenLocals.toInt16 } := by
  unfold registerLocals bumpLocals at hop
  split at hop
  case isFalse => cases hop
  case isTrue =>
    split at hop
    case h_1 => cases hop
    case h_2 lenLocals hlen =>
      refine ⟨lenLocals, ?_, (Except.ok.inj hop).symm⟩
      split at hlen
      case isFalse => cases hlen
      case isTrue =>
        dsimp only at hlen
        rw [Option.ite_none_left_eq_some] at hlen
        obtain ⟨hlt, hlen⟩ := hlen
        rw [Option.some.inj hlen] at hlt
        exact UInt16.lt_iff_toNat_lt.1 (UInt16.not_le.1 hlt)

lemma Starts.sound (h : stash.Lawful slots) (hstart : state.Starts stash) : state.Sound slots := by
  obtain ⟨stack₀, stack, amounts, hfold, hfinish, helse, hoperands, hresults⟩ := hstart
  -- what the registration of locals leaves
  let I : List UInt32 → ValueStack σ → Prop := fun _ stack =>
    stack.providers = .reset ∧ slots stack.regAlloc.preservations = [] ∧
      stack.regAlloc.lenLocals.toNat < 32766 ∧
      stack.regAlloc.nextDynamic = stack.regAlloc.lenLocals.toInt16 ∧
      stack.regAlloc.maxDynamic = stack.regAlloc.lenLocals.toInt16 ∧
      stack.regAlloc.minPreserve = initialPreservationIndex
  have hstep : ∀ amount rest stack stack', I (amount :: rest) stack →
      stack.registerLocals amount = .ok stack' → I rest stack' := by
    intro amount rest stack stack' hI hregister
    obtain ⟨hproviders, hslots, _, _, _, hmin⟩ := hI
    obtain ⟨alloc, halloc, hregister⟩ := bind_eq_ok.1 hregister
    obtain rfl := Except.ok.inj hregister
    obtain ⟨lenLocals, hlen, rfl⟩ := registerLocals_ok halloc
    exact ⟨hproviders, hslots, hlen, rfl, rfl, hmin⟩
  have hreset : I amounts (stack₀.reset stash) :=
    ⟨rfl, h.clear _, by show 0 < 32766; decide, rfl, rfl, rfl⟩
  obtain ⟨hproviders, hslots, hlen, hnext, hmax, hmin⟩ := foldlM_ok hstep hreset hfold
  obtain ⟨alloc, hfinish, hop⟩ := bind_eq_ok.1 hfinish
  have hop := Except.ok.inj hop
  unfold finishRegisterLocals at hfinish
  split at hfinish
  case isFalse => cases hfinish
  case isTrue =>
    obtain rfl := Except.ok.inj hfinish
    unfold Sound
    rw [← hop, helse, hoperands, hresults]
    have hint : stack.regAlloc.lenLocals.toInt16.toInt = stack.regAlloc.lenLocals.toNat :=
      toInt_toInt16 (by omega)
    have hinit : initialPreservationIndex.toInt = 32766 := rfl
    have hentries : stack.providers.providers = [] := by
      rw [hproviders]
      rfl
    refine ⟨?_, ⟨rfl, ?_, ?_, ?_, ?_, ?_, fun provider hprovider => ?_,
      fun _ => List.not_mem_nil.elim, fun reg _ => ?_⟩⟩
    · show stack.providers.WellFormed
      rw [hproviders]
      exact ProviderStack.reset_wellFormed
    · show stack.regAlloc.lenLocals.toNat < 2 ^ 15
      omega
    · show stack.regAlloc.nextDynamic.toInt =
        stack.regAlloc.lenLocals.toNat + (stack.providers.providers.countP _ : Nat)
      rw [hnext, hentries, hint]
      simp
    · show stack.regAlloc.nextDynamic.toInt ≤ stack.regAlloc.maxDynamic.toInt
      rw [hnext, hmax]
    · show stack.regAlloc.maxDynamic.toInt ≤ stack.regAlloc.minPreserve.toInt + 1
      rw [hmax, hmin]
      omega
    · show stack.regAlloc.minPreserve.toInt = 32766 - (slots stack.regAlloc.preservations).length
      rw [hmin, hslots]
      rfl
    · have hprovider : provider ∈ stack.providers.providers := hprovider
      rw [hentries] at hprovider
      cases hprovider
    · refine .inl ⟨?_, ?_, List.not_mem_nil⟩
      · by_contra hused
        obtain ⟨key, _, hslot⟩ := key_of_useCount (Nat.pos_of_ne_zero hused)
        dsimp only at hslot
        rw [hslots] at hslot
        cases hslot
      · show stack.providers.providers.count _ + _ = 0
        rw [hentries]
        rfl

/-! ## The uses of preserved registers -/

/-- A preserved register that something refers to has one use more than references. -/
lemma Sound.counts (hsound : state.Sound slots) {reg : Reg} (hrefers : state.Refers reg) :
    state.stack.regAlloc.useCount slots reg = 1 + state.refs.references reg := by
  have hlive := hsound.live
  obtain hentry | ⟨hpreserved, href⟩ := hrefers
  · have hbeside : state.stack.regAlloc.maxDynamic.toInt ≤ reg.toInt := hlive.entries _ hentry
    apply hlive.counted.of_refs hbeside
    have hcount := List.count_pos_iff.2 hentry
    show 0 < state.stack.providers.providers.count _ + _
    omega
  · have hmin := hlive.max_min
    have hlt := Int16.lt_iff_toInt_lt.1 (of_decide_eq_true hpreserved)
    have hbeside : state.stack.regAlloc.maxDynamic.toInt ≤ reg.toInt := by omega
    obtain hstored | hoperand := href
    · apply hlive.counted.of_refs hbeside
      have hcount := List.count_pos_iff.2 hstored
      show 0 < _ + state.elseProviders.flatten.count _
      omega
    · exact hlive.counted.of_pinned hbeside hoperand

lemma Sound.not_refers (hsound : state.Sound slots) {reg : Reg}
    (hfree : state.stack.regAlloc.useCount slots reg = 0) : ¬state.Refers reg := by
  intro hrefers
  have hcount := hsound.counts hrefers
  omega

lemma Sound.fresh (h : stash.Lawful slots) (hsound : state.Sound slots) {op : UseOp}
    {regs : List Reg} (hop : state.Performs stash op regs state') :
    regs.Nodup ∧ ∀ reg ∈ regs, ¬state.Refers reg := by
  obtain ⟨hallows, hop⟩ := hop
  have hnone : [] = regs → regs.Nodup ∧ ∀ reg ∈ regs, ¬state.Refers reg := by
    intro heq
    rw [← heq]
    exact ⟨List.nodup_nil, (by simp)⟩
  cases op with
  | preserveLocals localIndex =>
    obtain ⟨⟨preserved, stack⟩, hpreserve, hop⟩ := bind_eq_ok.1 hop
    obtain ⟨rfl, _⟩ := Prod.mk.inj (Except.ok.inj hop)
    cases preserved with
    | none => exact ⟨List.nodup_nil, (by simp)⟩
    | some reg =>
      refine ⟨List.nodup_singleton reg, fun reg' hreg => ?_⟩
      rw [List.mem_singleton.1 hreg]
      exact hsound.not_refers
        (ValueStack.preserveLocals_fresh h hsound.wellFormed hallows hpreserve)
  | preserveAllLocals =>
    obtain ⟨⟨preserved, stack⟩, hpreserve, hop⟩ := bind_eq_ok.1 hop
    obtain ⟨rfl, _⟩ := Prod.mk.inj (Except.ok.inj hop)
    obtain ⟨hnodup, hfree⟩ := ValueStack.preserveAllLocals_fresh h hsound.wellFormed hpreserve
    refine ⟨hnodup, fun reg hreg => ?_⟩
    obtain ⟨entry, hentry, rfl⟩ := List.mem_map.1 hreg
    exact hsound.not_refers (hfree entry hentry)
  | nextInstr => exact hnone (Prod.mk.inj (Except.ok.inj hop)).1
  | _ =>
    obtain ⟨_, _, hop⟩ := bind_eq_ok.1 hop
    exact hnone (Prod.mk.inj (Except.ok.inj hop)).1

lemma Sound.keepsPreserved (h : stash.Lawful slots) (hsound : state.Sound slots) :
    state.KeepsPreserved stash slots where
  fresh _ _ _ hop := hsound.fresh h hop
  counts _ hrefers := hsound.counts hrefers
  pops hheight := by
    obtain ⟨provider, stack, hpop, _⟩ := ValueStack.Sound.pop h hsound hheight
    rw [apply, hpop]
    intro hop
    cases hop
  restores helse hclear := by
    intro hop
    obtain hfails | ⟨_, _, hop⟩ := bind_eq_error.1 hop
    · cases (hsound.popElse h hclear).2 helse _ hfails
    · cases hop

/-- In every run whose operations do not make dynamic and preserved registers meet, no preserved
register is handed out as long as something refers to it, the uses are one more than the references,
and no pop fails. -/
theorem preserved_live (h : stash.Lawful slots) {start : StackUse σ} {n : Nat}
    (hstart : start.Starts stash)
    (hrun : Runs.Steps (fun state state' => ∃ op regs, state.Clear slots op ∧
      state.Performs stash op regs state') n start state) :
    state.KeepsPreserved stash slots := by
  have hsound : state.Sound slots := by
    refine hrun.invariant (fun state state' hstep hsound => ?_) (hstart.sound h)
    obtain ⟨op, regs, hclear, hop⟩ := hstep
    exact hsound.step h hclear hop
  exact hsound.keepsPreserved h

/-- A function with `len` locals. -/
def started (len : UInt16) : StackUse (List Nat) where
  stack := ⟨.reset, ⟨[], [], .alloc, len, len.toInt16, len.toInt16, 32766, 0⟩, .reset⟩
  elseProviders := []
  operands := []
  results := []

/-- A local was the parameter of an `if`: it is preserved, stored and popped. -/
def stored : StackUse (List Nat) where
  stack := ⟨.reset, ⟨[2], [0], .alloc, 1, 1, 1, 32765, 0⟩, .reset⟩
  elseProviders := [[.register 32766]]
  operands := [.register 32766]
  results := []

theorem preserved_live_stored :
    ∃ state : StackUse (List Nat), state.KeepsPreserved firstVacant id ∧ state.Refers 32766 := by
  have hstart : (started 1).Starts firstVacant :=
    ⟨⟨.reset, blank, .reset⟩, _, [1], rfl, rfl, rfl, rfl, rfl⟩
  have hroom : (1 : Int) + (1 - 0 : Nat) ≤ 32766 + 1 := by decide
  have hrun : Runs.Steps (fun state state' => ∃ op regs, state.Clear id op ∧
      state.Performs firstVacant op regs state') 4 (started 1) stored :=
    .head ⟨.pushLocal 0, [], trivial, trivial, rfl⟩ <|
    .head ⟨.preserveAllLocals, [32766], hroom, trivial, rfl⟩ <|
    .head ⟨.pushElse 1, [], trivial, trivial, rfl⟩ <|
    .head ⟨.pop, [], trivial, trivial, rfl⟩ <| .refl _
  have hclear : stored.Clear id .popElse := by
    intro providers hproviders provider hprovider
    obtain rfl := Option.some.inj hproviders
    rw [List.mem_singleton.1 hprovider]
    exact fun hspace => by cases hspace
  have hrestored := hrun.tail ⟨.popElse, [], hclear, trivial, rfl⟩
  exact ⟨_, preserved_live firstVacant_lawful hstart hrestored, .inl List.mem_cons_self⟩

/-! ## Where the registers meet -/

instance (state : StackUse σ) : (op : UseOp) → Decidable (state.Allows op)
  | .preserveLocals localIndex => inferInstanceAs (Decidable (localIndex < 2 ^ 15))
  | .push provider => inferInstanceAs (Decidable
      (provider ∈ state.operands ∨ ∃ reg ∈ state.results, provider = .register reg))
  | .nextInstr | .nextLocalSet | .preserveAllLocals | .pop | .pushLocal _ | .pushConst _
  | .pushDynamic | .pushDynamicN _ | .peekDynamicN _ | .pushElse _ | .popElse => .isTrue trivial

/-- Performs an operation, if it is one of the translator's. -/
def perform (stash : MultiStash σ) (state : StackUse σ) (op : UseOp) :
    Except Failure (StackUse σ) :=
  if state.Allows op then do return (← state.apply stash op).2 else .error .panic

lemma steps_of_perform {ops : List UseOp} (hops : ops.foldlM (perform stash) state = .ok state') :
    Runs.Steps (fun state state' => ∃ op regs, state.Performs stash op regs state') ops.length state
      state' := by
  induction ops generalizing state with
  | nil =>
    obtain rfl := Except.ok.inj hops
    exact .refl _
  | cons op ops ih =>
    rw [List.foldlM_cons] at hops
    obtain ⟨next, hop, hops⟩ := bind_eq_ok.1 hops
    unfold perform at hop
    split at hop
    case isFalse => cases hop
    case isTrue hallows =>
      obtain ⟨⟨regs, next'⟩, happly, hop⟩ := bind_eq_ok.1 hop
      obtain rfl := Except.ok.inj hop
      exact .head ⟨op, regs, hallows, happly⟩ (ih hops)

/-- `i32.const 0`. -/
def zero : TypedVal := ⟨.i32, .ofI32 0, by decide⟩

/-- `local.get 0; i32.const 0; local.set 0`: the local is preserved. -/
def preserveZero : List UseOp :=
  [.nextInstr, .pushLocal 0, .nextInstr, .pushConst zero, .nextLocalSet, .pop, .preserveLocals 0]

/-- A function with as many locals as there can be, and one dynamic register: its local is preserved
twice, in the register of the dynamic one as well. Both entries are dropped, `local.set` frees their
slots, and `i32.const 0; i32.add` pushes the dynamic register again, as a preserved one. -/
def meeting : List UseOp :=
  [.pushDynamic] ++ preserveZero ++ preserveZero ++ [.nextInstr, .pop, .nextInstr, .pop,
    .nextInstr, .pushConst zero, .nextLocalSet, .pop, .preserveLocals 0,
    .nextInstr, .pushConst zero, .nextInstr, .pop, .pop, .push (.register 32765)]

/-- Where the registers meet, a pop panics: its slot is missing. -/
theorem preserved_lost :
    ∃ (start state : StackUse (List Nat)) (n : Nat), start.Starts firstVacant ∧
      Runs.Steps (fun state state' => ∃ op regs, state.Performs firstVacant op regs state') n start
        state ∧
      0 < state.stack.height ∧ state.apply firstVacant .pop = .error .panic := by
  have hops : meeting.foldlM (perform firstVacant) (started 32765) = .ok _ := rfl
  refine ⟨started 32765, _, _, ?_, steps_of_perform hops, ?_, ?_⟩
  · exact ⟨⟨.reset, blank, .reset⟩, _, [32765], rfl, rfl, rfl, rfl, rfl⟩
  · decide
  · rfl

end StackUse

end MotokoDebugger.Translator
