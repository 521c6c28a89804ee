import MotokoDebugger.Translator.BlockLayout
import MotokoDebugger.Translator.StackMachine

/-!
# The stack machine in the registers

Where the locals and the stack of Wasm are while the code of a basic block runs.

* `ValueStack.Represents`: the registers hold the state of the stack machine.
* `Block.Agrees`: the instructions of the block so far lead there, or trap.
* `Block.Tracks`: so it is between two operators, and within one, where operands have been popped.
* `Tracks.popN`, `Tracks.push`, `Tracks.yields`: what the translation of an operator does to it.
-/

namespace MotokoDebugger.Translator

open Fallible Index16 RegisterAlloc StackMachine

variable {σ : Type} {stash : MultiStash σ}

/-! ## Registers -/

/-- The registers hold the state, the locals in front and the stack where its entries say. -/
structure ValueStack.Represents (stack : ValueStack σ) (f : RegFile) (state : State) : Prop where
  locals : ∀ (i : Nat) (value : Value), state.locals[i]? = some value →
    f (Int16.ofNat i) = some value.cell
  entries : List.Forall₂ (fun (entry : TaggedProvider) (value : Value) =>
    entry.toTyped.valueIn f = some value.cell) stack.providers.providers.reverse state.stack

namespace ValueStack.Represents

variable {stack stack' : ValueStack σ} {f f' : RegFile} {state : State} {entry : TaggedProvider}
  {value : Value}

lemma congr (h : stack.Represents f state) (heq : stack'.providers = stack.providers) :
    stack'.Represents f state := ⟨h.locals, heq ▸ h.entries⟩

/-- One more entry. -/
lemma concat (h : stack.Represents f state)
    (hproviders : stack'.providers.providers = stack.providers.providers ++ [entry])
    (hvalue : entry.toTyped.valueIn f = some value.cell) :
    stack'.Represents f (state.push value) := by
  refine ⟨h.locals, ?_⟩
  rw [hproviders, List.reverse_concat]
  exact .cons hvalue h.entries

lemma push (h : stack.Represents f state) (hpush : stack.Pushes stack' entry)
    (hvalue : entry.toTyped.valueIn f = some value.cell) :
    stack'.Represents f (state.push value) := h.concat hpush.providers hvalue

lemma pop (h : stack.Represents f state)
    (hproviders : stack.providers.providers = stack'.providers.providers ++ [entry]) :
    ∃ state' value, state = State.push state' value ∧ entry.toTyped.valueIn f = some value.cell ∧
      stack'.Represents f state' := by
  obtain ⟨locals, values⟩ := state
  have hentries := h.entries
  rw [hproviders, List.reverse_concat] at hentries
  obtain ⟨value, rest, hvalue, hrest, rfl⟩ := List.forall₂_cons_left_iff.1 hentries
  exact ⟨⟨locals, rest⟩, value, rfl, hvalue, ⟨h.locals, hrest⟩⟩

/-- Other registers, which neither a local nor an entry is in. -/
lemma of_agree (h : stack.Represents f state)
    (hlocals : ∀ i < state.locals.length, f' (Int16.ofNat i) = f (Int16.ofNat i))
    (hentries : ∀ entry ∈ stack.providers.providers, ∀ reg, entry.toTyped = .register reg →
      f' reg = f reg) : stack.Represents f' state := by
  refine ⟨fun i value hvalue => ?_, ?_⟩
  · rw [hlocals i (List.getElem?_eq_some_iff.1 hvalue).1]
    exact h.locals i value hvalue
  · have hmem : ∀ entry ∈ stack.providers.providers.reverse,
        entry ∈ stack.providers.providers := fun _ => List.mem_reverse.1
    refine ((List.forall₂_and_left _ _).2 ⟨hmem, h.entries⟩).imp fun entry value hentry => ?_
    obtain ⟨hentry, hold⟩ := hentry
    cases hreg : entry.toTyped with
    | const constant =>
      rw [hreg] at hold
      exact hold
    | register reg =>
      rw [hreg] at hold
      show f' reg = _
      rw [hentries entry hentry reg hreg]
      exact hold

end ValueStack.Represents

/-! ## Blocks -/

/-- What is fixed while a block is translated. In front of it are the instructions `front`. The
dynamic registers end at `top` and the preserved ones start behind `bottom`; all of them are in the
frame, whose registers are `start` when the block is entered. -/
structure Block (σ : Type) where
  float : FloatOps
  slots : σ → List Nat
  stored : List TypedProvider
  locals : List ValType
  front : List Instruction
  top : Int
  bottom : Int
  pool : FuncLocalConsts
  start : RegFile
  apart : top ≤ bottom + 1
  there : ∀ reg : Reg, 0 ≤ reg.toInt →
    reg.toInt < top ∨ bottom < reg.toInt ∧ reg.toInt ≤ 32766 → (start reg).isSome

namespace Block

variable (block : Block σ)

/-- The registers and the constants are those of the block. -/
structure Fits (stack : ValueStack σ) : Prop where
  max : stack.regAlloc.maxDynamic.toInt ≤ block.top
  min : block.bottom ≤ stack.regAlloc.minPreserve.toInt
  consts : stack.consts.Extends block.pool

/-- The operands as the translation of an operator has them. -/
def cells (operands : List (TypedProvider × Value)) : List (TypedProvider × UntypedVal) :=
  operands.map fun operand => (operand.1, operand.2.cell)

/-- The instructions of the block lead to the state, with the operands popped, or to a trap. -/
inductive Agrees (chunks : List (List Instruction)) (stack : ValueStack σ)
    (operands : List (TypedProvider × Value)) (types : List ValType) :
    Except TrapCode State → Prop where
  | ok {f : RegFile} {state : State}
    (effects_eq : effects block.float block.start chunks = some (.ok f))
    (consts : block.pool.HeldBy f) (represents : stack.Represents f state)
    (typed : state.Typed block.locals types)
    (held : ∀ operand ∈ cells operands, operand.1.valueIn f = some operand.2) :
    Agrees chunks stack operands types (.ok state)
  -- behind a trap the values do not matter, but they fit together
  | error {trapCode : TrapCode}
    (effects_eq : effects block.float block.start chunks = some (.error trapCode))
    (held : ∀ operand ∈ cells operands, operand.1.valueIn (fun _ => some 0) = some operand.2) :
    Agrees chunks stack operands types (.error trapCode)

/-- The translator has the operands popped off a stack of these types. What the code so far leads to
is what Wasm prescribes. -/
structure Tracks (translator : FuncTranslator σ) (operands : List (TypedProvider × Value))
    (types : List ValType) (outcome : Except TrapCode State) : Prop where
  reachable : translator.reachable = true
  fits : block.Fits translator.stack
  lenLocals : translator.stack.regAlloc.lenLocals.toNat = block.locals.length
  typed : translator.stack.Typed types
  laid : translator.stack.Laid block.slots block.stored (operands.map Prod.fst)
  denotes : ∀ operand ∈ operands, operand.1.Denotes operand.2.ty operand.2.cell
  pos : ∀ reg, .register reg ∈ operands.map Prod.fst → 0 ≤ reg.toInt
  first : ∀ reg, firstRegister (cells operands) = some reg →
    translator.stack.regAlloc.registerSpace reg = .dynamic →
    reg = translator.stack.regAlloc.nextDynamic
  agrees : ∃ chunks, translator.encoder.Chunks block.front block.top chunks ∧
    block.Agrees chunks translator.stack operands types outcome

/-- The same between two operators, or behind a trap, where nothing is translated any more. -/
inductive Follows (translator : FuncTranslator σ) (types : List ValType) :
    Except TrapCode State → Prop where
  | tracks {outcome : Except TrapCode State} (tracks : block.Tracks translator [] types outcome) :
    Follows translator types outcome
  | trapped {trapCode : TrapCode} {chunks : List (List Instruction)}
    (unreachable : translator.reachable = false)
    (chunks_eq : translator.encoder.Chunks block.front block.top chunks)
    (effects_eq : effects block.float block.start chunks = some (.error trapCode)) :
    Follows translator types (.error trapCode)

/-- The translation of an operator, between two types of the stack: it lets the registers and the
constants grow only, and leaves what the operator does. -/
structure Translates (translator translator' : FuncTranslator σ) (op : Operator)
    (types types' : List ValType) : Prop where
  grows : translator.stack.Typed types → translator.stack.Grows translator'.stack ∧
    (translator'.reachable = true → translator'.stack.Typed types')
  follows : ∀ {outcome : Except TrapCode State}, block.Tracks translator [] types outcome →
    block.Fits translator'.stack → ∃ outcome', resume op.exec outcome = some outcome' ∧
      block.Follows translator' types' outcome'

section Operands

variable {block : Block σ} {translator translator' : FuncTranslator σ} {stack stack' : ValueStack σ}
  {stored operands : List TypedProvider} {provider : TypedProvider} {entry : TaggedProvider}
  {reg : Reg}

lemma Fits.of_grows (h : block.Fits stack') (hgrows : stack.Grows stack') : block.Fits stack :=
  ⟨Int.le_trans hgrows.alloc.maxDynamic h.max, Int.le_trans h.min hgrows.alloc.minPreserve,
    hgrows.consts.trans h.consts⟩

lemma Fits.apart (h : block.Fits stack) :
    stack.regAlloc.maxDynamic.toInt ≤ stack.regAlloc.minPreserve.toInt + 1 := by
  have hmax := h.max
  have hmin := h.min
  have hapart := block.apart
  omega

/-! ## Pops -/

/-- A popped register is that of the next entry, if it is dynamic. -/
lemma popped_next {slots : σ → List Nat} (hlawful : stash.Lawful slots)
    (h : stack.Laid slots stored operands) (hop : stack.pop stash = .ok (provider, stack'))
    (hproviders : stack.providers.providers = stack'.providers.providers ++ [entry])
    (hreg : entry.toTyped = .register reg) : 0 ≤ reg.toInt ∧
      (stack'.regAlloc.registerSpace reg = .dynamic → reg = stack'.regAlloc.nextDynamic) := by
  have hlaid := h.pop hlawful hop hproviders
  have hwidens := (ValueStack.grows_pop hlawful hop).alloc
  have hentry : entry ∈ stack.providers.providers := by
    rw [hproviders]
    exact List.mem_append_right _ List.mem_cons_self
  obtain ⟨-, hpos, hlt⟩ | ⟨rfl, hle, -⟩ | ⟨-, hlt⟩ := h.entry_cases hentry hreg
  · refine ⟨hpos, fun hspace => ?_⟩
    rw [hlaid.space_local hpos (by rw [hwidens.lenLocals]; exact hlt)] at hspace
    cases hspace
  · refine ⟨by omega, fun _ => Int16.toInt_inj.1 ?_⟩
    have hplace := h.aligned _ reg [] hproviders
    have hnext := hlaid.next_eq
    rw [hwidens.lenLocals] at hnext
    rw [hplace, hnext]
  · have hnext := h.next_eq
    have hmax := h.max_min
    have hmin := hwidens.minPreserve
    refine ⟨by omega, fun hspace => ?_⟩
    rw [hlaid.space_preserve (by omega)] at hspace
    cases hspace

/-- A popped constant has no register. -/
lemma pop_const {constant : TypedVal} (hop : stack.pop stash = .ok (.const constant, stack')) :
    stack'.regAlloc = stack.regAlloc := by
  obtain ⟨⟨entry, providers⟩, -, hop⟩ := bind_eq_ok.1 hop
  obtain ⟨⟨popped, alloc⟩, halloc, hop⟩ := bind_eq_ok.1 hop
  obtain ⟨rfl, rfl⟩ := Prod.mk.inj (Except.ok.inj hop)
  unfold RegisterAlloc.popProvider at halloc
  split at halloc
  case h_5 => exact (Prod.mk.inj (Except.ok.inj halloc)).2.symm
  case h_1 | h_4 => cases halloc
  case h_2 | h_3 =>
    obtain ⟨alloc', -, halloc⟩ := bind_eq_ok.1 halloc
    cases halloc

end Operands

section Tracks

variable {block : Block σ} {translator translator' : FuncTranslator σ} {stack' : ValueStack σ}
  {operands : List (TypedProvider × Value)} {provider : TypedProvider} {entry : TaggedProvider}
  {ty : ValType} {types : List ValType} {outcome : Except TrapCode State}

/-- The value of a provider of the type where nothing has been computed. -/
def valueOf (ty : ValType) : TypedProvider → Value
  | .register _ => .ofCell ty 0
  | .const constant => .ofCell ty constant.value

lemma ty_valueOf (ty : ValType) (provider : TypedProvider) : (valueOf ty provider).ty = ty := by
  cases provider <;> exact Value.ty_ofCell _ _

lemma denotes_valueOf (h : provider.HasType ty) :
    provider.Denotes ty (valueOf ty provider).cell ∧
      provider.valueIn (fun _ => some 0) = some (valueOf ty provider).cell := by
  cases provider with
  | register reg =>
    refine ⟨fun _ hconst => (by cases hconst), ?_⟩
    rw [valueOf, Value.cell_ofCell (fun _ => rfl)]
    rfl
  | const constant =>
    obtain rfl := h constant rfl
    rw [valueOf, Value.cell_ofCell constant.upper]
    refine ⟨fun other heq => ?_, rfl⟩
    rw [← Provider.const.inj heq]
    exact ⟨rfl, rfl⟩

lemma Tracks.pop (hlawful : stash.Lawful block.slots)
    (h : block.Tracks translator operands (ty :: types) outcome)
    (hop : translator.stack.pop stash = .ok (provider, stack')) (hfits : block.Fits stack') :
    ∃ value outcome', value.ty = ty ∧ outcome = outcome'.map (State.push · value) ∧
      block.Tracks (translator.withStack stack') ((provider, value) :: operands) types
        outcome' := by
  obtain ⟨hty, htyped, top, rfl, hproviders⟩ := h.typed.pop hop
  have hlaid := h.laid.pop hlawful hop hproviders
  have hnext : ∀ {reg}, top.toTyped = .register reg → 0 ≤ reg.toInt ∧
      (stack'.regAlloc.registerSpace reg = .dynamic → reg = stack'.regAlloc.nextDynamic) :=
    popped_next hlawful h.laid hop hproviders
  have hpos : ∀ reg, .register reg ∈ top.toTyped :: operands.map Prod.fst → 0 ≤ reg.toInt := by
    intro reg hmem
    obtain heq | hmem := List.mem_cons.1 hmem
    · exact (hnext heq.symm).1
    · exact h.pos reg hmem
  have hfirst : ∀ value reg, firstRegister (cells ((top.toTyped, value) :: operands)) = some reg →
      stack'.regAlloc.registerSpace reg = .dynamic → reg = stack'.regAlloc.nextDynamic := by
    intro value reg hreg
    cases heq : top.toTyped with
    | register reg' =>
      rw [heq] at hreg
      obtain rfl : reg' = reg := Option.some.inj hreg
      exact (hnext heq).2
    | const constant =>
      rw [heq] at hreg hop
      rw [pop_const hop]
      exact h.first reg hreg
  have hlenLocals : stack'.regAlloc.lenLocals.toNat = block.locals.length := by
    rw [(ValueStack.grows_pop hlawful hop).alloc.lenLocals]
    exact h.lenLocals
  obtain ⟨chunks, hchunks, hagrees⟩ := h.agrees
  cases hagrees with
  | @ok f state effects_eq consts represents typed held =>
    obtain ⟨state, value, rfl, hvalue, hrest⟩ := represents.pop hproviders
    obtain ⟨rfl, htypes⟩ := List.cons.inj typed.stack
    refine ⟨value, .ok state, rfl, rfl, h.reachable, hfits, hlenLocals, htyped, hlaid, ?_, hpos,
      hfirst value, chunks, hchunks, .ok effects_eq consts hrest ⟨typed.locals, htypes⟩ ?_⟩
    · refine List.forall_mem_cons.2 ⟨fun constant heq => ?_, h.denotes⟩
      have heq : top.toTyped = .const constant := heq
      rw [heq] at hvalue
      exact ⟨hty constant heq, Option.some.inj hvalue⟩
    · exact List.forall_mem_cons.2 ⟨hvalue, held⟩
  | @error trapCode effects_eq held =>
    obtain ⟨hdenotes, hvalue⟩ := denotes_valueOf hty
    refine ⟨valueOf ty top.toTyped, .error trapCode, ty_valueOf _ _, rfl, h.reachable, hfits,
      hlenLocals, htyped, hlaid, ?_, hpos, hfirst _, chunks, hchunks, .error effects_eq ?_⟩
    · rw [List.forall_mem_cons]
      refine ⟨?_, h.denotes⟩
      dsimp only
      rw [ty_valueOf]
      exact hdenotes
    · exact List.forall_mem_cons.2 ⟨hvalue, held⟩

lemma grows_popN {slots : σ → List Nat} (hlawful : stash.Lawful slots) {n : Nat}
    {stack : ValueStack σ} {providers : List TypedProvider}
    (hop : stack.popN stash n = .ok (providers, stack')) : stack.Grows stack' := by
  induction n generalizing stack providers with
  | zero =>
    obtain ⟨-, rfl⟩ := Prod.mk.inj (Except.ok.inj hop)
    exact .refl stack
  | succ n ih =>
    obtain ⟨⟨provider, stack₁⟩, hpop, hop⟩ := bind_eq_ok.1 hop
    obtain ⟨⟨rest, stack₂⟩, hrest, hop⟩ := bind_eq_ok.1 hop
    obtain ⟨-, rfl⟩ := Prod.mk.inj (Except.ok.inj hop)
    exact (ValueStack.grows_pop hlawful hpop).trans (ih hrest)

/-- The types of the popped operands, the last of which was on top. -/
lemma typed_popN {inputs : List ValType} {stack : ValueStack σ} {providers : List TypedProvider}
    (h : stack.Typed (inputs.reverse ++ types))
    (hop : stack.popN stash inputs.length = .ok (providers, stack')) :
    List.Forall₂ TypedProvider.HasType providers inputs ∧ stack'.Typed types := by
  induction inputs using List.reverseRecOn generalizing stack providers with
  | nil =>
    obtain ⟨rfl, rfl⟩ := Prod.mk.inj (Except.ok.inj hop)
    exact ⟨.nil, h⟩
  | append_singleton inputs ty ih =>
    rw [List.length_append, List.length_singleton] at hop
    rw [List.reverse_concat, List.cons_append] at h
    obtain ⟨⟨provider, stack₁⟩, hpop, hop⟩ := bind_eq_ok.1 hop
    obtain ⟨⟨rest, stack₂⟩, hrest, hop⟩ := bind_eq_ok.1 hop
    obtain ⟨rfl, rfl⟩ := Prod.mk.inj (Except.ok.inj hop)
    obtain ⟨hty, htyped, -⟩ := h.pop hpop
    obtain ⟨htypes, htyped'⟩ := ih htyped hrest
    exact ⟨List.rel_append htypes (.cons hty .nil), htyped'⟩

/-- Operands are popped, the last of them first. -/
lemma Tracks.popN (hlawful : stash.Lawful block.slots) {inputs : List ValType}
    {providers : List TypedProvider}
    (h : block.Tracks translator operands (inputs.reverse ++ types) outcome)
    (hop : translator.stack.popN stash inputs.length = .ok (providers, stack'))
    (hfits : block.Fits stack') :
    ∃ values outcome', values.map Value.ty = inputs ∧ providers.length = values.length ∧
      outcome = outcome'.map (State.pushes · values) ∧
      block.Tracks (translator.withStack stack') (providers.zip values ++ operands) types
        outcome' := by
  induction inputs using List.reverseRecOn generalizing translator operands outcome providers with
  | nil =>
    obtain ⟨rfl, rfl⟩ := Prod.mk.inj (Except.ok.inj hop)
    refine ⟨[], outcome, rfl, rfl, ?_, h⟩
    cases outcome <;> rfl
  | append_singleton inputs ty ih =>
    rw [List.length_append, List.length_singleton] at hop
    rw [List.reverse_concat, List.cons_append] at h
    obtain ⟨⟨provider, stack₁⟩, hpop, hop⟩ := bind_eq_ok.1 hop
    obtain ⟨⟨rest, stack₂⟩, hrest, hop⟩ := bind_eq_ok.1 hop
    obtain ⟨rfl, rfl⟩ := Prod.mk.inj (Except.ok.inj hop)
    obtain ⟨value, outcome₁, rfl, rfl, h₁⟩ :=
      h.pop hlawful hpop (hfits.of_grows (grows_popN hlawful hrest))
    obtain ⟨values, outcome', rfl, hlength, rfl, h'⟩ := ih h₁ hrest
    refine ⟨values ++ [value], outcome', ?_, ?_, ?_, ?_⟩
    · rw [List.map_append]
      rfl
    · rw [List.length_append, List.length_append, hlength]
      rfl
    · cases outcome' with
      | ok state =>
        show Except.ok ((state.pushes values).push value) = .ok (state.pushes (values ++ [value]))
        rw [State.pushes, State.pushes, List.foldl_append]
        rfl
      | error trapCode => rfl
    · rw [List.zip_append hlength, List.append_assoc]
      exact h'

end Tracks

/-! ## Pushes -/

section Pushes

variable {block : Block σ} {translator translator' : FuncTranslator σ} {stack' : ValueStack σ}
  {operands : List (TypedProvider × Value)} {provider : TypedProvider} {entry : TaggedProvider}
  {ty : ValType} {types : List ValType} {outcome : Except TrapCode State}
  {computed : Except TrapCode Value} {result : Reg}

lemma Agrees.held {chunks : List (List Instruction)} {stack : ValueStack σ}
    (h : block.Agrees chunks stack operands types outcome) :
    ∃ f : RegFile, ∀ operand ∈ cells operands, operand.1.valueIn f = some operand.2 := by
  cases h with
  | ok effects_eq consts represents typed held => exact ⟨_, held⟩
  | error effects_eq held => exact ⟨_, held⟩

/-- Between two operators. -/
lemma Tracks.of_nil (hreachable : translator.reachable = true) (hfits : block.Fits translator.stack)
    (hlenLocals : translator.stack.regAlloc.lenLocals.toNat = block.locals.length)
    (htyped : translator.stack.Typed types)
    (hlaid : translator.stack.Laid block.slots block.stored [])
    {chunks : List (List Instruction)}
    (hchunks : translator.encoder.Chunks block.front block.top chunks)
    (hagrees : block.Agrees chunks translator.stack [] types outcome) :
    block.Tracks translator [] types outcome :=
  ⟨hreachable, hfits, hlenLocals, htyped, hlaid, by simp, by simp, fun _ h => (by cases h), chunks,
    hchunks, hagrees⟩

/-- An entry is pushed whose value is there. -/
lemma Tracks.push (h : block.Tracks translator operands types outcome) (value : State → Value)
    (hpush : translator.stack.Pushes stack' entry) (hfits : block.Fits stack')
    (hlaid : stack'.Laid block.slots block.stored []) (hentry : entry.toTyped.HasType ty)
    (hvalue : ∀ (f : RegFile) (state : State), translator.stack.Represents f state →
      state.Typed block.locals types →
      (∀ operand ∈ cells operands, operand.1.valueIn f = some operand.2) →
      (value state).ty = ty ∧ entry.toTyped.valueIn f = some (value state).cell) :
    block.Tracks (translator.withStack stack') [] (ty :: types)
      (outcome.map fun state => state.push (value state)) := by
  obtain ⟨chunks, hchunks, hagrees⟩ := h.agrees
  refine .of_nil h.reachable hfits ?_ (h.typed.push hpush hentry) hlaid hchunks ?_
  · show stack'.regAlloc.lenLocals.toNat = _
    rw [hpush.grows.alloc.lenLocals]
    exact h.lenLocals
  · cases hagrees with
    | @ok f state effects_eq consts represents typed held =>
      obtain ⟨rfl, hcell⟩ := hvalue f state represents typed held
      exact .ok effects_eq consts (represents.push hpush hcell) (typed.push _) (by simp [cells])
    | error effects_eq held => exact .error effects_eq (by simp [cells])

/-- The register of a local. -/
lemma toInt_local (h : block.Tracks translator operands types outcome) {i : Nat}
    (hi : i < block.locals.length) : (Int16.ofNat i).toInt = i := by
  have hlen := h.laid.len
  rw [h.lenLocals] at hlen
  exact toInt_ofNat_of_lt (by omega)

/-- A value is computed for a new dynamic register. -/
lemma Tracks.compute (h : block.Tracks translator operands types outcome)
    (hreachable : translator'.reachable = true)
    (hpush : PushesDynamic translator.stack result translator'.stack)
    (hfits : block.Fits translator'.stack)
    (hty : ∀ value, computed = .ok value → value.ty = ty)
    (hchunks : ∀ chunks, translator.encoder.Chunks block.front block.top chunks →
      0 ≤ result.toInt → result.toInt ≤ 32766 → result.toInt < block.top →
      ∃ chunks', translator'.encoder.Chunks block.front block.top chunks' ∧
        (∀ f : RegFile, effects block.float block.start chunks = some (.ok f) →
          block.pool.HeldBy f → (f result).isSome →
          (∀ operand ∈ cells operands, operand.1.valueIn f = some operand.2) →
          effects block.float block.start chunks' =
            some (computed.map fun value => Function.update f result (some value.cell))) ∧
        ∀ trapCode, effects block.float block.start chunks = some (.error trapCode) →
          effects block.float block.start chunks' = some (.error trapCode)) :
    block.Tracks translator' [] (ty :: types)
      (outcome.bind fun state => computed.map state.push) := by
  obtain ⟨pushed, hdynamic, hstack, hconsts⟩ := hpush.push
  have hpushes := ValueStack.pushes_dynamic hdynamic
  have halloc : translator'.stack.regAlloc = pushed.regAlloc := by rw [hstack]
  have hproviders : translator'.stack.providers = pushed.providers := by rw [hstack]
  have hapart := hfits.apart
  rw [halloc] at hapart
  obtain ⟨hlaid, rfl, hmin, hlt⟩ := h.laid.pushDynamic hdynamic hapart
  have hnext := h.laid.next_eq
  have hlast := h.laid.next
  have hmax := hfits.max
  rw [halloc] at hmax
  obtain ⟨chunks, hold, hagrees⟩ := h.agrees
  obtain ⟨chunks', hnew, hok, herror⟩ := hchunks chunks hold (by omega) hlast (by omega)
  have hlaid' : translator'.stack.Laid block.slots block.stored [] := by
    rw [hstack]
    exact ⟨⟨hlaid.forget.sound.wellFormed, hlaid.forget.sound.live⟩, hlaid.aligned, hlaid.placed,
      hlaid.next⟩
  refine .of_nil hreachable hfits ?_ ?_ hlaid' hnew ?_
  · rw [halloc, hpushes.grows.alloc.lenLocals]
    exact h.lenLocals
  · exact (h.typed.push hpushes ValueStack.hasType_register).congr hproviders
  · cases hagrees with
    | error effects_eq held => exact .error (herror _ effects_eq) (by simp [cells])
    | @ok f state effects_eq consts represents typed held =>
      have hthere : (f translator.stack.regAlloc.nextDynamic).isSome := by
        refine effects_isSome effects_eq (block.there _ ?_ (.inl ?_))
        · omega
        · omega
      have heffects := hok f effects_eq consts hthere held
      cases computed with
      | error trapCode => exact .error heffects (by simp [cells])
      | ok value =>
        obtain rfl := hty value rfl
        -- neither a local nor an entry is in the new register
        have hlocals : ∀ i < state.locals.length,
            Function.update f translator.stack.regAlloc.nextDynamic (some value.cell)
              (Int16.ofNat i) = f (Int16.ofNat i) := by
          intro i hi
          rw [← List.length_map (f := Value.ty), typed.locals] at hi
          have hint := toInt_local h hi
          have hlen := h.lenLocals
          refine Function.update_of_ne (fun heq => ?_) _ _
          rw [heq] at hint
          omega
        have hentries : ∀ entry ∈ translator.stack.providers.providers, ∀ reg,
            entry.toTyped = .register reg →
            Function.update f translator.stack.regAlloc.nextDynamic (some value.cell) reg =
              f reg := by
          intro entry hentry reg hreg
          exact Function.update_of_ne (h.laid.entry_ne hentry hreg hmin) _ _
        have hpushed := (represents.of_agree hlocals hentries).push hpushes
          (Function.update_self _ _ _)
        exact .ok heffects (consts.update (by omega) _) (hpushed.congr hproviders) (typed.push _)
          (by simp [cells])

end Pushes

/-! ## Results -/

/-- The translation of an operator leaves the value on the emulated stack, computed or copied. -/
inductive Yields (stash : MultiStash σ) (float : FloatOps)
    (translator translator' : FuncTranslator σ) (operands : List (TypedProvider × Value))
    (ty : ValType) : Except TrapCode Value → Prop where
  | computes {computed : Except TrapCode Value}
    (computes : ComputesNext stash float translator translator' (cells operands) ty
      (computed.map Value.cell)) : Yields stash float translator translator' operands ty computed
  | copies {provider : TypedProvider} {value : Value}
    (copies : CopiesNext float translator translator' provider)
    (mem : (provider, value) ∈ operands) :
    Yields stash float translator translator' operands ty (.ok value)

section Yields

variable {block : Block σ} {translator translator' : FuncTranslator σ} {stack' : ValueStack σ}
  {operands : List (TypedProvider × Value)} {provider : TypedProvider} {entry : TaggedProvider}
  {ty : ValType} {types : List ValType} {outcome : Except TrapCode State}
  {computed : Except TrapCode Value} {result : Reg} {op : Op} {params : List Op}

lemma toTyped_entry (space : RegisterSpace) (reg : Reg) :
    (space.entry reg).toTyped = .register reg := by
  cases space <;> rfl

lemma chunks_emitted {front : List Instruction} {top : Int} {chunks : List (List Instruction)}
    (h : EmittedLast translator translator' op params)
    (hchunks : translator.encoder.Chunks front top chunks)
    (hbelow : ∀ params, ResultBelow top (⟨translator.visitPos, op⟩ :: params)) :
    translator'.encoder.Chunks front top
      (chunks ++ [(op :: params).map (Instruction.mk translator.visitPos)]) := by
  obtain ⟨pre, hpre, hinstrs⟩ := h.words
  have hlength := congrArg List.length hpre
  rw [List.length_map, List.length_map] at hlength
  refine hchunks.push hpre hinstrs (hlength ▸ h.lastInstr) (List.cons_ne_nil _ _) ?_ (hbelow _)
  rw [List.forall_mem_map]
  exact h.plain

/-- Without an instruction, an operand is pushed again, or a constant. -/
lemma Tracks.pushed (hlawful : stash.Lawful block.slots)
    (h : block.Tracks translator operands types outcome)
    (hpush : PushesOperand stash (cells operands) translator.stack stack' provider)
    (hfits : block.Fits stack') (htyped : provider.HasType ty)
    (hcomputes : ∀ f : RegFile, (∀ operand ∈ cells operands, operand.1.valueIn f = some operand.2) →
      ∃ value, computed.map Value.cell = .ok value ∧ provider.valueIn f = some value)
    (hty : ∀ value, computed = .ok value → value.ty = ty) :
    block.Tracks (translator.withStack stack') [] (ty :: types)
      (outcome.bind fun state => computed.map state.push) := by
  obtain ⟨chunks, -, hagrees⟩ := h.agrees
  obtain ⟨f₀, hf₀⟩ := hagrees.held
  cases computed with
  | error trapCode =>
    obtain ⟨value, hcell, -⟩ := hcomputes f₀ hf₀
    cases hcell
  | ok value =>
    have hvalue : ∀ f : RegFile,
        (∀ operand ∈ cells operands, operand.1.valueIn f = some operand.2) →
        provider.valueIn f = some value.cell := by
      intro f hf
      obtain ⟨cell, hcell, hprovider⟩ := hcomputes f hf
      rw [hprovider, ← Except.ok.inj hcell]
    have houtcome : (outcome.bind fun state => (Except.ok value : Except TrapCode Value).map
        state.push) = outcome.map fun state => state.push value := by
      cases outcome <;> rfl
    rw [houtcome]
    cases hpush with
    | @const constant push =>
      exact h.push (fun _ => value) (ValueStack.pushes_const push) hfits
        (h.laid.pushEntry push rfl (fun _ heq => by cases heq) trivial).forget htyped
        fun f state _ _ held => ⟨hty value rfl, hvalue f held⟩
    | @register reg push first =>
      -- otherwise the value would not depend on the register
      have hmem : .register reg ∈ operands.map Prod.fst := by
        by_contra hnot
        have hnone := hvalue (Function.update f₀ reg none) fun operand hoperand => by
          obtain ⟨operand, hoperand', rfl⟩ := List.mem_map.1 hoperand
          rw [← hf₀ _ hoperand]
          cases heq : operand.1 with
          | const constant => rfl
          | register r =>
            have hne : r ≠ reg := by
              rintro rfl
              exact hnot (List.mem_map.2 ⟨operand, hoperand', heq⟩)
            exact Function.update_of_ne hne _ _
        have hnone : Function.update f₀ reg none reg = some value.cell := hnone
        rw [Function.update_self] at hnone
        cases hnone
      have hlaid := h.laid.pushRegister hlawful hmem (h.pos reg hmem)
        (fun hspace => h.first reg (first hspace) hspace) push hfits.apart
      refine h.push (fun _ => value) (ValueStack.pushes_register hlawful push) hfits hlaid.forget
        ?_ fun f state _ _ held => ⟨hty value rfl, ?_⟩
      · rw [toTyped_entry]
        exact ValueStack.hasType_register
      · rw [toTyped_entry]
        exact hvalue f held

/-- What the translation of an operator leaves. -/
lemma Tracks.yields (hlawful : stash.Lawful block.slots)
    (h : block.Tracks translator operands types outcome)
    (hyields : Yields stash block.float translator translator' operands ty computed)
    (hty : ∀ value, computed = .ok value → value.ty = ty) (hfits : block.Fits translator'.stack) :
    block.Follows translator' (ty :: types)
      (outcome.bind fun state => computed.map state.push) := by
  cases hyields with
  | computes computes =>
    cases computes with
    | pushed pushes translator_eq typed computes =>
      rw [translator_eq] at hfits ⊢
      exact .tracks (h.pushed hlawful pushes hfits typed computes hty)
    | @executed op params result emitted pushes reachable result_eq not_copy computes =>
      refine .tracks (h.compute (reachable.trans h.reachable) pushes hfits hty ?_)
      intro chunks hchunks _ _ hlt
      have hbelow : ∀ rest, ResultBelow block.top (⟨translator.visitPos, op⟩ :: rest) :=
        fun _ => resultBelow_of_lt result_eq hlt
      refine ⟨_, chunks_emitted emitted hchunks hbelow, fun f heffects hconsts hthere held => ?_,
        fun trapCode heffects => effects_append_error heffects⟩
      have hcompute := computes f (hconsts.mono hfits.consts) held
      rw [effects_append_ok heffects]
      have hparams : (params.map (Instruction.mk translator.visitPos)).map Instruction.op =
          params := by
        rw [List.map_map]
        exact List.map_id params
      rw [← hparams] at hcompute
      have hresult : (Instruction.mk translator.visitPos op).op.resultReg = some result := result_eq
      cases computed with
      | ok value => exact effects_cons_ok (effect_compute hresult hthere hcompute)
      | error trapCode => exact effects_cons_error (effect_compute_error hresult hthere hcompute)
    | @trapped trapCode emitted stack_eq reachable expected_eq =>
      have hcomputed : computed = .error trapCode := by
        cases computed with
        | ok value => cases expected_eq
        | error trapCode' => rw [Except.error.inj expected_eq]
      obtain ⟨chunks, hchunks, hagrees⟩ := h.agrees
      have hnew := chunks_emitted emitted hchunks fun _ _ hresult => by cases hresult
      rw [hcomputed]
      cases hagrees with
      | ok effects_eq consts represents typed held =>
        exact .trapped reachable hnew ((effects_append_ok effects_eq).trans rfl)
      | error effects_eq held => exact .trapped reachable hnew (effects_append_error effects_eq)
  | @copies provider value copies mem =>
    obtain ⟨result, pushed, instr, encoder, consts, hdynamic, hencode, rfl⟩ := copies.copy
    refine .tracks (h.compute h.reachable ⟨pushed, hdynamic, rfl, encodeCopy_extends hencode⟩ hfits
      hty ?_)
    intro chunks hchunks hpos hlast hlt
    obtain ⟨chunks', hchunks', hassigns⟩ := assigns_encodeCopy hchunks hpos hlast hlt hencode
    refine ⟨chunks', hchunks', fun f heffects hconsts hthere held => ?_,
      fun trapCode heffects => hassigns.error heffects⟩
    have hmem : (provider, value.cell) ∈ cells operands := List.mem_map.2 ⟨_, mem, rfl⟩
    exact hassigns.ok heffects (hconsts.mono hfits.consts) hthere (held _ hmem)

end Yields

end Block

end MotokoDebugger.Translator
