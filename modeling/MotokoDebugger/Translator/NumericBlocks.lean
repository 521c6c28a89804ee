import MotokoDebugger.Translator.BlockOperators
import MotokoDebugger.Translator.RenamedBlocks

/-!
# Basic blocks

The translation of straight-line code means what Wasm prescribes. The executor, on the words that a
block of valid operators is translated to, with the registers in the frame that `defrag_registers`
moves them to, does what the stack machine does on the operators.

* `visit_translates`: the translation of one operator.
* `follows_visitAll`: the translation of a block, one operator after the other.
* `places_of_finalize`: where the registers are moved to.
* `numericBlock_exact`: the executor on the code of a block.
-/

namespace MotokoDebugger.Translator

open Fallible Index16 RegisterAlloc StackMachine

variable {σ : Type} {stash : MultiStash σ}

namespace Block

/-! ## Operators -/

section Visit

variable {float : FloatOps} {block : Block σ} {translator translator' : FuncTranslator σ}
  {lenResults : Op → Nat} {op : Operator} {types types' : List ValType}
  {outcome : Except TrapCode State}

/-- Nothing is translated where the code is not reached. -/
lemma visit_unreachable (h : translator.reachable = false) (op : Operator) :
    translator.visit stash float lenResults op = .ok translator := by
  have hnot : ¬ translator.reachable = true := by
    rw [h]
    exact Bool.false_ne_true
  have hunary : ∀ int, translator.visitUnary stash int = .ok translator := fun _ => if_neg hnot
  have hcast : ∀ consteval, translator.translateReinterpret stash consteval = .ok translator :=
    fun _ => if_neg hnot
  cases op with
  | const | localGet | localSet | localTee | drop => exact if_neg hnot
  | select hint => cases hint <;> exact if_neg hnot
  | unop op => cases op <;> first | exact hunary _ | exact hcast _
  | eqz T => cases T <;> exact if_neg hnot
  | binop T op =>
    obtain ⟨k, hvisit⟩ := visitBinop_pops stash translator T op
    exact hvisit.trans (if_neg hnot)
  | relop T op =>
    obtain ⟨k, hvisit⟩ := visitRelop_pops stash translator T op
    exact hvisit.trans (if_neg hnot)

/-- The translation of a valid operator is what the operator does. -/
lemma visit_translates (hlawful : stash.Lawful block.slots)
    (hreachable : translator.reachable = true)
    (hcheck : op.check block.locals types = some types')
    (h : translator.visit stash block.float lenResults op = .ok translator') :
    block.Translates translator translator' op types types' := by
  cases checks_of_check hcheck with
  | const value => exact translates_const hreachable h
  | localGet hlocal => exact translates_localGet hreachable hlocal h
  | localSet hlocal => exact translates_localSet hlawful hreachable hlocal h
  | localTee hlocal => exact translates_localTee hlawful hreachable hlocal h
  | drop => exact translates_drop hlawful hreachable h
  | @select hint ty types =>
    have h : translator.translateSelect stash block.float hint = .ok translator' := by
      cases hint with
      | none => exact h
      | some ty => exact h
    exact (operates_select hreachable h).translates hlawful
  | unop op => exact translates_unop hlawful hreachable h
  | eqz T => exact translates_eqz hlawful hreachable h
  | binop T op => exact (operates_binop hreachable h).translates hlawful
  | relop T op => exact (operates_relop hreachable h).translates hlawful

end Visit

/-! ## Runs -/

section Runs

variable {float : FloatOps} {block : Block σ} {translator translator' : FuncTranslator σ}
  {lenResults : Op → Nat} {ops : List (Nat × Operator)} {types types' : List ValType}
  {outcome : Except TrapCode State}

lemma visitAll_unreachable (hreachable : translator.reachable = false)
    (h : translator.visitAll stash float lenResults ops = .ok translator') :
    translator'.reachable = false ∧ translator'.stack = translator.stack ∧
      translator'.encoder = translator.encoder := by
  induction ops generalizing translator with
  | nil =>
    obtain rfl := Except.ok.inj h
    exact ⟨hreachable, rfl, rfl⟩
  | cons op ops ih =>
    obtain ⟨pos, op⟩ := op
    obtain ⟨next, hvisit, h⟩ := bind_eq_ok.1 h
    have hpos : { translator with visitPos := pos }.reachable = false := hreachable
    obtain rfl := Except.ok.inj ((visit_unreachable hpos op).symm.trans hvisit)
    have hrest := @ih { translator with visitPos := pos } hreachable h
    exact hrest

/-- The registers and the constants of a block, whatever its values. -/
lemma grows_visitAll (hlawful : stash.Lawful block.slots)
    (hreachable : translator.reachable = true) (htyped : translator.stack.Typed types)
    (hcheck : check block.locals (ops.map Prod.snd) types = some types')
    (h : translator.visitAll stash block.float lenResults ops = .ok translator') :
    translator.stack.Grows translator'.stack := by
  induction ops generalizing translator types with
  | nil =>
    obtain rfl := Except.ok.inj h
    exact .refl translator.stack
  | cons op ops ih =>
    obtain ⟨pos, op⟩ := op
    obtain ⟨next, hvisit, h⟩ := bind_eq_ok.1 h
    obtain ⟨types₁, hop, hcheck⟩ := Option.bind_eq_some_iff.1 hcheck
    have hpos : { translator with visitPos := pos }.reachable = true := hreachable
    obtain ⟨hgrows, htyped'⟩ := (visit_translates hlawful hpos hop hvisit).grows htyped
    cases hnext : next.reachable with
    | true => exact hgrows.trans (ih hnext (htyped' hnext) hcheck h)
    | false =>
      obtain ⟨-, hstack, -⟩ := visitAll_unreachable hnext h
      rw [hstack]
      exact hgrows

/-- What a block is translated to is what its operators do, one after the other. -/
lemma follows_visitAll (hlawful : stash.Lawful block.slots)
    (htracks : block.Follows translator types outcome)
    (hcheck : check block.locals (ops.map Prod.snd) types = some types')
    (h : translator.visitAll stash block.float lenResults ops = .ok translator')
    (hfits : block.Fits translator'.stack) :
    ∃ outcome', resume (run · (ops.map Prod.snd)) outcome = some outcome' ∧
      block.Follows translator' types' outcome' := by
  induction ops generalizing translator types outcome with
  | nil =>
    obtain rfl := Except.ok.inj h
    obtain rfl := Option.some.inj hcheck
    refine ⟨outcome, ?_, htracks⟩
    cases outcome <;> rfl
  | cons op ops ih =>
    obtain ⟨pos, op⟩ := op
    cases htracks with
    | trapped unreachable chunks_eq effects_eq =>
      obtain ⟨hreachable, -, hencoder⟩ := visitAll_unreachable unreachable h
      exact ⟨_, rfl, .trapped hreachable (hencoder ▸ chunks_eq) effects_eq⟩
    | tracks htracks =>
      obtain ⟨next, hvisit, h⟩ := bind_eq_ok.1 h
      obtain ⟨types₁, hop, hcheck⟩ := Option.bind_eq_some_iff.1 hcheck
      have hpos : block.Tracks { translator with visitPos := pos } [] types outcome :=
        ⟨htracks.reachable, htracks.fits, htracks.lenLocals, htracks.typed, htracks.laid,
          htracks.denotes, htracks.pos, htracks.first, htracks.agrees⟩
      have htranslates := visit_translates hlawful hpos.reachable hop hvisit
      obtain ⟨-, htyped⟩ := htranslates.grows hpos.typed
      have hgrows : next.stack.Grows translator'.stack := by
        cases hnext : next.reachable with
        | true => exact grows_visitAll hlawful hnext (htyped hnext) hcheck h
        | false =>
          obtain ⟨-, hstack, -⟩ := visitAll_unreachable hnext h
          rw [hstack]
          exact .refl next.stack
      obtain ⟨outcome₁, hresume, hfollows⟩ := htranslates.follows hpos (hfits.of_grows hgrows)
      obtain ⟨outcome', hrest, hfollows'⟩ := ih hfollows hcheck h
      exact ⟨outcome', (resume_run hresume _).trans hrest, hfollows'⟩

end Runs

end Block

/-! ## Defragmentation -/

/-- What becomes of the registers of a function, where the dynamic ones never reached the preserved
ones. -/
structure Defragmented (final : RegisterAlloc σ) (ρ : Reg → Reg) : Prop where
  apart : final.maxDynamic.toInt ≤ final.minPreserve.toInt
  moves : ∃ defragged, final.finalizeAlloc = .ok defragged ∧
    ∀ reg, defragged.defragRegister reg = .ok (ρ reg)

/-- The registers of a function, in the order of its frame but for a gap. -/
def Known (final : RegisterAlloc σ) (reg : Reg) : Prop :=
  reg.toInt < final.maxDynamic.toInt ∨ final.minPreserve.toInt < reg.toInt ∧ reg.toInt ≤ 32766

instance (final : RegisterAlloc σ) (reg : Reg) : Decidable (Known final reg) :=
  inferInstanceAs (Decidable (_ ∨ _))

section Defragmented

variable {final : RegisterAlloc σ} {ρ : Reg → Reg} {reg : Reg}

/-- The gap is closed. -/
lemma Defragmented.moved (h : Defragmented final ρ) (hpos : 0 ≤ final.maxDynamic.toInt)
    (hmin : final.minPreserve.toInt ≤ 32766) (hreg : reg.toInt ≤ 32766) :
    (reg.toInt ≤ final.minPreserve.toInt → ρ reg = reg) ∧
      (final.minPreserve.toInt < reg.toInt → (ρ reg).toInt =
        reg.toInt - (final.minPreserve.toInt - final.maxDynamic.toInt + 1)) := by
  have hapart := h.apart
  obtain ⟨defragged, hfinal, hmoves⟩ := h.moves
  have hmove := Except.ok.inj ((defragRegister_finalize hfinal reg).symm.trans (hmoves reg))
  have hdiff : (final.minPreserve - final.maxDynamic).toInt =
      final.minPreserve.toInt - final.maxDynamic.toInt :=
    toInt_sub_of_mem (by omega) (by omega)
  have hoffset : (saturatingAdd (final.minPreserve - final.maxDynamic) 1).toInt =
      final.minPreserve.toInt - final.maxDynamic.toInt + 1 := by
    rw [toInt_saturatingAdd, hdiff]
    show max (-32768) (min 32767 (_ + 1)) = _
    omega
  refine ⟨fun hle => ?_, fun hlt => ?_⟩
  · rw [← hmove, if_neg (by omega)]
  · rw [← hmove, if_pos hlt, toInt_sub_of_mem (by omega) (by omega), hoffset]

lemma places_of_finalize (h : Defragmented final ρ) (hpos : 0 ≤ final.maxDynamic.toInt)
    (hmin : final.minPreserve.toInt ≤ 32766) :
    Places ρ final.maxDynamic.toInt (Known final) := by
  have hapart := h.apart
  have hmoved : ∀ reg, Known final reg → (reg.toInt < final.maxDynamic.toInt ∧ ρ reg = reg) ∨
      final.minPreserve.toInt < reg.toInt ∧ reg.toInt ≤ 32766 ∧ (ρ reg).toInt =
        reg.toInt - (final.minPreserve.toInt - final.maxDynamic.toInt + 1) := by
    intro reg hreg
    have hle : reg.toInt ≤ 32766 := by
      unfold Known at hreg
      omega
    obtain ⟨hlow, hhigh⟩ := h.moved hpos hmin hle
    obtain hlt | ⟨hlt, -⟩ := hreg
    · exact .inl ⟨hlt, hlow (by omega)⟩
    · exact .inr ⟨hlt, hle, hhigh hlt⟩
  refine ⟨fun reg hlt => ?_, fun reg reg' hreg hreg' heq => ?_, fun reg hreg hnext => ?_⟩
  · obtain ⟨-, heq⟩ | ⟨hlt', -, -⟩ := hmoved reg (.inl hlt)
    · exact heq
    · omega
  · have hint := congrArg Int16.toInt heq
    apply Int16.toInt_inj.1
    obtain ⟨hlt, hρ⟩ | ⟨hlt, -, hρ⟩ := hmoved reg hreg
    · obtain ⟨hlt', hρ'⟩ | ⟨hlt', -, hρ'⟩ := hmoved reg' hreg'
      · rw [hρ, hρ'] at hint
        exact hint
      · rw [hρ] at hint
        omega
    · obtain ⟨hlt', hρ'⟩ | ⟨hlt', -, hρ'⟩ := hmoved reg' hreg'
      · rw [hρ'] at hint
        omega
      · omega
  · apply Int16.toInt_inj.1
    have hle : reg.toInt ≤ 32766 := by
      unfold Known at hreg
      omega
    have hsum : reg.next.toInt = reg.toInt + 1 := toInt_nextN reg (by omega) (by omega)
    have hsum' : (ρ reg).toInt ≤ 32766 → (ρ reg).next.toInt = (ρ reg).toInt + 1 :=
      fun hle => toInt_nextN (ρ reg) (by omega) (by omega)
    obtain ⟨hlt, hρ⟩ | ⟨hlt, -, hρ⟩ := hmoved reg hreg
    · obtain ⟨hlt', hρ'⟩ | ⟨hlt', -, hρ'⟩ := hmoved reg.next hnext
      · rw [hρ, hρ']
      · omega
    · obtain ⟨hlt', hρ'⟩ | ⟨hlt', -, hρ'⟩ := hmoved reg.next hnext
      · omega
      · rw [hsum' (by omega), hρ, hρ', hsum]
        omega

/-- The frame has a place for every register that is no constant. -/
lemma Defragmented.in_frame (h : Defragmented final ρ) (hpos : 0 ≤ final.maxDynamic.toInt)
    (hmin : final.minPreserve.toInt ≤ 32766) {defragged : RegisterAlloc σ}
    (hfinal : final.finalizeAlloc = .ok defragged) (hreg : Known final reg)
    (hnonneg : 0 ≤ reg.toInt) :
    0 ≤ (ρ reg).toInt ∧ (ρ reg).toInt < defragged.lenRegisters.toNat := by
  have hapart := h.apart
  have hlen := toNat_lenRegisters hfinal (by omega)
  have hle : reg.toInt ≤ 32766 := by
    unfold Known at hreg
    omega
  obtain ⟨hlow, hhigh⟩ := h.moved hpos hmin hle
  obtain hlt | ⟨hlt, -⟩ := hreg
  · rw [hlow (by omega)]
    omega
  · rw [hhigh hlt]
    omega

end Defragmented

/-! ## Execution -/

/-- Operators that are valid where the translator is in front of a block, and are translated. -/
structure TranslatedBlock (stash : MultiStash σ) (slots : σ → List Nat) (float : FloatOps)
    (lenResults : Op → Nat) (stored : List TypedProvider) (locals types types' : List ValType)
    (ops : List (Nat × Operator)) (translator translator' : FuncTranslator σ) : Prop where
  lawful : stash.Lawful slots
  check : check locals (ops.map Prod.snd) types = some types'
  visit : translator.visitAll stash float lenResults ops = .ok translator'
  reachable : translator.reachable = true
  inert : translator.encoder.Inert
  lenLocals : translator.stack.regAlloc.lenLocals.toNat = locals.length
  typed : translator.stack.Typed types
  laid : translator.stack.Laid slots stored []

/-- The code of the block, as the function is left with: `final` are its registers and `pool` its
constants. No word in front of `notifiedPreservation` has a preserved register. -/
structure FinishedBlock (translator translator' : FuncTranslator σ) (final : RegisterAlloc σ)
    (ρ : Reg → Reg) (notifiedPreservation : Option Nat) (pool : FuncLocalConsts)
    (words : List Instruction) : Prop where
  widens : translator'.stack.regAlloc.Widens final
  consts : translator'.stack.consts.Extends pool
  defragmented : Defragmented final ρ
  early : ∀ (i : Nat) (word : Instruction), translator'.encoder.instrs[i]? = some word →
    (∀ first, notifiedPreservation = some first → i < first) →
    word.op.visitInputRegisters ρ = word.op
  words_eq : words = (translator'.encoder.defragRegisters ρ notifiedPreservation).instrs.drop
    translator.encoder.instrs.length

/-- The executor is in front of the words, with the constants of the function and the state of the
stack machine in its registers. -/
structure EntersBlock {T : Type} (env : Engine T) (translator : FuncTranslator σ)
    (final : RegisterAlloc σ) (ρ : Reg → Reg) (pool : FuncLocalConsts) (words : List Instruction)
    (locals types : List ValType) (state : State) (l : Local T) : Prop where
  code : ∃ before later, (env.codeMap l.ip.func).instrs = before ++ (words ++ later) ∧
    l.ip.pc = before.length
  consts : ConstsIn pool l
  frame : ∀ defragged, final.finalizeAlloc = .ok defragged → ∀ reg : Reg, 0 ≤ reg.toInt →
    reg.toInt < defragged.lenRegisters.toNat → (l.read reg).isSome
  represents : translator.stack.Represents (fun reg => l.read (ρ reg)) state
  typed : state.Typed locals types

/-- The registers of the frame, by the names that the translator has for them. -/
def namedRegisters (final : RegisterAlloc σ) (ρ : Reg → Reg) (f : RegFile) : RegFile :=
  fun reg => if Known final reg then f (ρ reg) else none

/-- The block, where the executor is in front of it. -/
def enteredBlock (float : FloatOps) (slots : σ → List Nat) (stored : List TypedProvider)
    (locals : List ValType) (front : List Instruction) (final : RegisterAlloc σ) (ρ : Reg → Reg)
    (pool : FuncLocalConsts) (f : RegFile)
    (apart : final.maxDynamic.toInt ≤ final.minPreserve.toInt)
    (there : ∀ reg : Reg, 0 ≤ reg.toInt → Known final reg → (f (ρ reg)).isSome) : Block σ where
  float := float
  slots := slots
  stored := stored
  locals := locals
  front := front
  top := final.maxDynamic.toInt
  bottom := final.minPreserve.toInt
  pool := pool
  start := namedRegisters final ρ f
  apart := by omega
  there reg hpos hknown := by
    have hnamed : namedRegisters final ρ f reg = f (ρ reg) := if_pos hknown
    rw [hnamed]
    exact there reg hpos hknown

section Execution

variable {T : Type} {env : Engine T} {translator translator' : FuncTranslator σ}
  {slots : σ → List Nat} {lenResults : Op → Nat} {stored : List TypedProvider}
  {locals types types' : List ValType} {ops : List (Nat × Operator)} {final : RegisterAlloc σ}
  {ρ : Reg → Reg} {notifiedPreservation : Option Nat} {pool : FuncLocalConsts}
  {words : List Instruction} {state : State} {l : Local T}

/-- All words are renamed, also those that are not visited. -/
lemma FinishedBlock.words_renamed
    (h : FinishedBlock translator translator' final ρ notifiedPreservation pool words) :
    words = (translator'.encoder.instrs.drop translator.encoder.instrs.length).map (renamed ρ) := by
  have hearly := h.early
  have hall : (translator'.encoder.defragRegisters ρ notifiedPreservation).instrs =
      translator'.encoder.instrs.map (renamed ρ) := by
    cases notifiedPreservation with
    | none =>
      refine (List.map_id' _).symm.trans (List.map_congr_left fun word hword => ?_)
      obtain ⟨i, hi⟩ := List.mem_iff_getElem?.1 hword
      have hsame := hearly i word hi (fun _ h => by cases h)
      exact congrArg (Instruction.mk word.instrOffset) hsame.symm
    | some first =>
      refine List.ext_getElem? fun i => ?_
      show (List.mapIdx _ translator'.encoder.instrs)[i]? = _
      rw [List.getElem?_mapIdx, List.getElem?_map]
      cases hi : translator'.encoder.instrs[i]? with
      | none => rfl
      | some word =>
        refine congrArg some ?_
        split
        case isTrue hlt =>
          have hsame := hearly i word hi fun _ heq => Option.some.inj heq ▸ hlt
          exact congrArg (Instruction.mk word.instrOffset) hsame.symm
        case isFalse => rfl
  rw [h.words_eq, hall, List.map_drop]

/-- The registers of a function that has been translated, from those of a block. -/
lemma TranslatedBlock.bounds {float : FloatOps}
    (h : TranslatedBlock stash slots float lenResults stored locals types types' ops translator
      translator') (hwidens : translator'.stack.regAlloc.Widens final) :
    translator.stack.regAlloc.Widens final ∧
      translator.stack.consts.Extends translator'.stack.consts ∧
      0 ≤ final.maxDynamic.toInt ∧ final.minPreserve.toInt ≤ 32766 := by
  -- the growth does not depend on the frame
  obtain ⟨block, rfl, rfl, rfl⟩ : ∃ block : Block σ,
      block.float = float ∧ block.slots = slots ∧ block.locals = locals :=
    ⟨{ float, slots, stored, locals, front := [], top := 0, bottom := 0, pool := .reset
       start := fun _ => some 0, apart := by omega, there := fun _ _ _ => rfl }, rfl, rfl, rfl⟩
  have hgrows := Block.grows_visitAll h.lawful h.reachable h.typed h.check h.visit
  have hall := hgrows.alloc.trans hwidens
  have hnext := h.laid.next_eq
  have hmax := h.laid.max_min
  have hmin := h.laid.min_le
  have hmax' := hall.maxDynamic
  have hmin' := hall.minPreserve
  exact ⟨hall, hgrows.consts, by omega, by omega⟩

/-- Between the operators the state is in the registers of the block. -/
lemma EntersBlock.tracks {float : FloatOps}
    (h : EntersBlock env translator final ρ pool words locals types state l)
    (hblock : TranslatedBlock stash slots float lenResults stored locals types types' ops translator
      translator')
    (hwidens : translator.stack.regAlloc.Widens final)
    (hconsts : translator.stack.consts.Extends pool) (hdefragmented : Defragmented final ρ)
    (hpos : 0 ≤ final.maxDynamic.toInt) (hmin : final.minPreserve.toInt ≤ 32766)
    (there : ∀ reg : Reg, 0 ≤ reg.toInt → Known final reg → (l.read (ρ reg)).isSome) :
    (enteredBlock float slots stored locals (translator.encoder.instrs.map unfueled) final ρ pool
      l.read hdefragmented.apart there).Tracks translator [] types (.ok state) := by
  have hmax' := hwidens.maxDynamic
  have hmin' := hwidens.minPreserve
  have hnext := hblock.laid.next_eq
  have hmax := hblock.laid.max_min
  have hlen := hblock.lenLocals
  have hbound := hblock.laid.len
  have hplaces := places_of_finalize hdefragmented hpos hmin
  have hchunks : translator.encoder.Chunks (translator.encoder.instrs.map unfueled)
      final.maxDynamic.toInt [] :=
    ⟨⟨translator.encoder.instrs, rfl, (List.append_nil _).symm⟩, List.not_mem_nil,
      fun _ h => (by cases h), fun _ h => (by cases h), .inl ⟨rfl, hblock.inert⟩⟩
  refine .of_nil hblock.reachable ⟨hmax', hmin', hconsts⟩ hlen hblock.typed hblock.laid hchunks
    (.ok rfl ?_ ?_ h.typed (by simp [Block.cells]))
  · intro reg value hget
    obtain ⟨i, hi, -⟩ := FuncLocalConsts.toInt_of_get hget
    have hlt : reg.toInt < final.maxDynamic.toInt := by omega
    show (if Known final reg then l.read (ρ reg) else none) = some value
    rw [if_pos (.inl hlt), hplaces.fixed reg hlt]
    exact h.consts reg value hget
  · refine h.represents.of_agree (fun i hi => ?_) fun entry hentry reg hreg => ?_
    · rw [← List.length_map (f := Value.ty), h.typed.locals] at hi
      have hint : (Int16.ofNat i).toInt = i := toInt_ofNat_of_lt (by omega)
      exact if_pos (.inl (by omega))
    · refine if_pos ?_
      obtain ⟨-, -, hlt⟩ | ⟨-, -, hlt⟩ | ⟨rfl, hlt⟩ := hblock.laid.entry_cases hentry hreg
      · exact .inl (by omega)
      · exact .inl (by omega)
      · obtain ⟨key, hkey, -⟩ := key_of_useCount (hblock.laid.sound.live.used_of_entry hentry)
        have hkey := toInt_of_reg2key hkey
        exact .inr ⟨by omega, by omega⟩

/-- The executor does on the words what the instructions of the block do. -/
lemma FinishedBlock.runsTo {before later : List Instruction} {chunks : List (List Instruction)}
    {outcome : Except TrapCode RegFile}
    (h : FinishedBlock translator translator' final ρ notifiedPreservation pool words)
    (hplaces : Places ρ final.maxDynamic.toInt (Known final))
    (hcode : (env.codeMap l.ip.func).instrs = before ++ (words ++ later))
    (hpc : l.ip.pc = before.length)
    (hchunks : translator'.encoder.Chunks (translator.encoder.instrs.map unfueled)
      final.maxDynamic.toInt chunks)
    (heffects : effects env.float (namedRegisters final ρ l.read) chunks = some outcome) :
    ∃ outcome', RunsTo env words.length l outcome' ∧
      RenamedTo ρ (Known final) outcome outcome' := by
  have hstart : Renamed ρ (Known final) (namedRegisters final ρ l.read) l.read := by
    have hnamed : ∀ reg x, namedRegisters final ρ l.read reg = some x →
        Known final reg ∧ l.read (ρ reg) = some x := by
      intro reg x hx
      unfold namedRegisters at hx
      split at hx
      case isTrue hknown => exact ⟨hknown, hx⟩
      case isFalse => cases hx
    refine ⟨fun reg hthere => ?_, fun reg x hx => (hnamed reg x hx).2⟩
    obtain ⟨x, hx⟩ := Option.isSome_iff_exists.1 hthere
    exact (hnamed reg x hx).1
  obtain ⟨outcome', heffects', hrenamed⟩ := effects_renamed hplaces hstart hchunks.below heffects
  obtain ⟨front, hfront, hinstrs⟩ := hchunks.words
  have hlength := congrArg List.length hfront
  rw [List.length_map, List.length_map] at hlength
  have hwords : words = (chunks.map (List.map (renamed ρ))).flatten := by
    rw [h.words_renamed, hinstrs, ← hlength, List.drop_left, List.map_flatten]
  rw [hwords] at hcode ⊢
  exact ⟨outcome', runsTo_effects heffects' hcode hpc, hrenamed⟩

lemma ValueStack.Represents.mono {stack : ValueStack σ} {f g : RegFile}
    (h : stack.Represents f state) (hmono : ∀ reg x, f reg = some x → g reg = some x) :
    stack.Represents g state := by
  refine ⟨fun i value hvalue => hmono _ _ (h.locals i value hvalue), h.entries.imp ?_⟩
  intro entry value hvalue
  cases hreg : entry.toTyped with
  | const constant =>
    rw [hreg] at hvalue
    exact hvalue
  | register reg =>
    rw [hreg] at hvalue
    exact hmono reg _ hvalue

end Execution

/-- Behind the words, the executor has the state of the stack machine in its registers, or it has
trapped in one of them. -/
inductive LeavesBlock {T : Type} (env : Engine T) (translator' : FuncTranslator σ) (ρ : Reg → Reg)
    (pool : FuncLocalConsts) (words : List Instruction) (locals types' : List ValType)
    (l : Local T) : Except TrapCode State → Prop where
  | ok {f : RegFile} {state : State} (runs : RunsTo env words.length l (.ok f))
    (consts : pool.HeldBy f)
    (represents : translator'.stack.Represents (fun reg => f (ρ reg)) state)
    (typed : state.Typed locals types') :
    LeavesBlock env translator' ρ pool words locals types' l (.ok state)
  | error {trapCode : TrapCode} (runs : RunsTo env words.length l (.error trapCode)) :
    LeavesBlock env translator' ρ pool words locals types' l (.error trapCode)

/-- On the words of a block of valid operators the executor does what the stack machine does on the
operators: it traps where that traps, and otherwise leads to the locals and the stack that it leads
to, in the registers that the translator has for them. The translator is left as it has to be in
front of the next block. -/
theorem numericBlock_exact {T : Type} {env : Engine T} {slots : σ → List Nat}
    {lenResults : Op → Nat} {stored : List TypedProvider} {locals types types' : List ValType}
    {ops : List (Nat × Operator)} {translator translator' : FuncTranslator σ}
    {final : RegisterAlloc σ} {ρ : Reg → Reg} {notifiedPreservation : Option Nat}
    {pool : FuncLocalConsts} {words : List Instruction} {state : State} {l : Local T}
    (hblock : TranslatedBlock stash slots env.float lenResults stored locals types types' ops
      translator translator')
    (hfinished : FinishedBlock translator translator' final ρ notifiedPreservation pool words)
    (henters : EntersBlock env translator final ρ pool words locals types state l) :
    (translator'.reachable = true →
      translator'.stack.Typed types' ∧ translator'.stack.Laid slots stored []) ∧
    ∃ outcome, run state (ops.map Prod.snd) = some outcome ∧
      LeavesBlock env translator' ρ pool words locals types' l outcome := by
  obtain ⟨hwidens, hconsts, hpos, hmin⟩ := hblock.bounds hfinished.widens
  obtain ⟨before, later, hcode, hpc⟩ := henters.code
  have hdefragmented := hfinished.defragmented
  have hplaces := places_of_finalize hdefragmented hpos hmin
  obtain ⟨defragged, hfinal, -⟩ := hdefragmented.moves
  have hthere : ∀ reg : Reg, 0 ≤ reg.toInt → Known final reg → (l.read (ρ reg)).isSome := by
    intro reg hnonneg hknown
    obtain ⟨hlow, hhigh⟩ := hdefragmented.in_frame hpos hmin hfinal hknown hnonneg
    exact henters.frame defragged hfinal _ hlow hhigh
  have htracks := henters.tracks hblock hwidens (hconsts.trans hfinished.consts) hdefragmented hpos
    hmin hthere
  obtain ⟨outcome, hrun, hfollows⟩ := Block.follows_visitAll hblock.lawful (.tracks htracks)
    hblock.check hblock.visit
    ⟨hfinished.widens.maxDynamic, hfinished.widens.minPreserve, hfinished.consts⟩
  cases hfollows with
  | tracks htracks' =>
    refine ⟨fun _ => ⟨htracks'.typed, htracks'.laid⟩, outcome, hrun, ?_⟩
    obtain ⟨chunks, hchunks, hagrees⟩ := htracks'.agrees
    cases hagrees with
    | @ok f state' effects_eq consts represents typed held =>
      obtain ⟨outcome', hruns, hrenamed⟩ :=
        hfinished.runsTo hplaces hcode hpc hchunks effects_eq
      cases hrenamed with
      | @ok f g renamed =>
        refine .ok hruns (fun reg value hget => ?_) (represents.mono renamed.regs) typed
        obtain ⟨i, hi, -⟩ := FuncLocalConsts.toInt_of_get hget
        have hplace := renamed.regs reg value (consts reg value hget)
        rw [hplaces.fixed reg (by omega)] at hplace
        exact hplace
    | error effects_eq held =>
      obtain ⟨outcome', hruns, hrenamed⟩ :=
        hfinished.runsTo hplaces hcode hpc hchunks effects_eq
      cases hrenamed with
      | error => exact .error hruns
  | trapped unreachable chunks_eq effects_eq =>
    refine ⟨fun hreachable => ?_, _, hrun, ?_⟩
    · rw [unreachable] at hreachable
      cases hreachable
    · obtain ⟨outcome', hruns, hrenamed⟩ :=
        hfinished.runsTo hplaces hcode hpc chunks_eq effects_eq
      cases hrenamed with
      | error => exact .error hruns

/-! ### A local that is preserved -/

/-- The local is pushed, and then changed. -/
def incrementOps : List (Nat × Operator) :=
  [(0, .localGet 0), (1, .localGet 0), (2, .const (.i32 7)), (3, .binop .i32 .add),
    (4, .localSet 0)]

/-- In front of the operators, at the start of a function with one local. -/
def incrementTranslator : FuncTranslator (List Nat) where
  reachable := true
  fuelInfo := .none
  encoder := ⟨[], ⟨[], []⟩, none⟩
  stack := (StackUse.started 1).stack
  visitPos := 0

/-- Its old value is copied first, to the highest register. -/
def incrementTranslator' : FuncTranslator (List Nat) where
  reachable := true
  fuelInfo := .none
  encoder :=
    ⟨[⟨4, .copy 32766 0⟩, ⟨3, .binaryImm16 (.arith .i32Add) 0 0 (7 : BitVec 16)⟩], ⟨[], []⟩, some 1⟩
  stack := ⟨⟨[.preserved 32766], 0, false, .reset⟩, ⟨[2], [], .alloc, 1, 1, 2, 32765, 0⟩, .reset⟩
  visitPos := 4

/-- That register is moved behind the dynamic one. -/
def incrementPlaces (reg : Reg) : Reg := if decide (32765 < reg) then reg - 32764 else reg

def incrementWords : List Instruction :=
  [⟨4, .copy 2 0⟩, ⟨3, .binaryImm16 (.arith .i32Add) 0 0 (7 : BitVec 16)⟩]

def incrementEngine : Engine Unit := .ofCode [⟨incrementWords, [], 3⟩] []

def incrementLocal : Local Unit where
  cells := [35, 0, 0]
  base := 0
  ip := ⟨0, 0⟩
  cache := ⟨0, none, none⟩
  store := .ofFuncs []

theorem numericBlock_exact_increment :
    ∃ n l, Runs.Steps (LocalStep incrementEngine) n incrementLocal l ∧
      l.read 0 = some 42 ∧ l.read 2 = some 35 := by
  have hstart : (StackUse.started 1).Starts firstVacant :=
    ⟨⟨.reset, blank, .reset⟩, _, [1], rfl, rfl, rfl, rfl, rfl⟩
  have hblock : TranslatedBlock firstVacant id incrementEngine.float (fun _ => 0) [] [.i32] []
      [.i32] incrementOps incrementTranslator incrementTranslator' :=
    { lawful := firstVacant_lawful
      check := rfl
      visit := rfl
      reachable := rfl
      inert := fun _ _ h => by cases h
      lenLocals := rfl
      typed := ⟨ProviderStack.reset_wellFormed, .nil⟩
      laid := ⟨hstart.sound firstVacant_lawful, fun before _ _ h => (by cases before <;> cases h),
        fun _ h => (by cases h), by decide⟩ }
  have hfinished : FinishedBlock incrementTranslator incrementTranslator'
      incrementTranslator'.stack.regAlloc incrementPlaces (some 0) .reset incrementWords :=
    { widens := .refl _
      consts := .refl _
      defragmented := ⟨by decide, _, rfl, fun reg => rfl⟩
      early := fun i _ _ h => absurd (h 0 rfl) (Nat.not_lt_zero i)
      words_eq := rfl }
  have henters : EntersBlock incrementEngine incrementTranslator
      incrementTranslator'.stack.regAlloc incrementPlaces .reset incrementWords [.i32] []
      ⟨[.i32 35], []⟩ incrementLocal :=
    { code := ⟨[], [], rfl, rfl⟩
      consts := constsIn_reset incrementLocal
      frame := by
        intro defragged hfinal reg hpos hlt
        obtain rfl := Except.ok.inj hfinal
        have hlt : reg.toInt < 3 := hlt
        have hcases : reg = 0 ∨ reg = 1 ∨ reg = 2 := by
          simp only [← Int16.toInt_inj]
          show reg.toInt = 0 ∨ reg.toInt = 1 ∨ reg.toInt = 2
          omega
        obtain rfl | rfl | rfl := hcases <;> rfl
      represents := by
        refine ⟨fun i value hvalue => ?_, .nil⟩
        cases i with
        | zero =>
          obtain rfl := Option.some.inj hvalue
          rfl
        | succ i => cases hvalue
      typed := ⟨rfl, rfl⟩ }
  obtain ⟨-, outcome, hrun, hleaves⟩ := numericBlock_exact hblock hfinished henters
  obtain rfl : Except.ok ⟨[.i32 42], [.i32 35]⟩ = outcome := Option.some.inj hrun
  cases hleaves with
  | @ok f state runs consts represents typed =>
    obtain ⟨hold, -⟩ := List.forall₂_cons.1 represents.entries
    cases runs with
    | done steps ip moved =>
      refine ⟨_, _, steps, ?_, ?_⟩
      · rw [moved.read]
        exact represents.locals 0 (.i32 42) rfl
      · rw [moved.read]
        exact hold

end MotokoDebugger.Translator
