import MotokoDebugger.Translator.Emission
import MotokoDebugger.Translator.ExactSelect
import MotokoDebugger.Translator.LocalSets

/-!
# The instructions of a basic block

What the encoder does to the instructions that it has emitted for a basic block so far: it adds
some, merges copies and gives the last one the register of a local.

* `InstrEncoder.Chunks`: the words of the block, instruction by instruction.
* `Chunks.push`, `Chunks.setLast`, `Chunks.insertLast`: what instructions do to them.
* `Assigns`, `assigns_encodeCopy`: what a copy adds to the effects of the block.
* `SetsLocal`, `setsLocal_encodeLocalSet`: what `local.set` adds to them.
-/

namespace MotokoDebugger.Translator

open Fallible Executor

/-- The last instruction has no result, so that nothing replaces it. -/
def InstrEncoder.Inert (enc : InstrEncoder) : Prop :=
  ∀ lastInstr word, enc.lastInstr = some lastInstr → enc.instrs[lastInstr]? = some word →
    word.op.Sealed

/-- Of the instructions, only copies of registers write registers from `top` on. -/
def ResultBelow (top : Int) : List Instruction → Prop
  | [] => True
  | word :: _ => ∀ result, word.op.resultReg = some result →
    (∃ value, word.op = .copy result value) ∨ result.toInt < top

/-- `front` and the block, whose instructions have these words. Of `front` only the fuel may have
changed. The last of the instructions is the last one of the encoder. -/
structure InstrEncoder.Chunks (enc : InstrEncoder) (front : List Instruction) (top : Int)
    (chunks : List (List Instruction)) : Prop where
  words : ∃ before, before.map unfueled = front ∧ enc.instrs = before ++ chunks.flatten
  nonempty : [] ∉ chunks
  plain : ∀ word ∈ chunks.flatten, ∀ blockFuel, word.op ≠ .consumeFuel blockFuel
  below : ∀ words ∈ chunks, ResultBelow top words
  last : chunks = [] ∧ enc.Inert ∨ ∃ init last, chunks = init ++ [last] ∧
    enc.lastInstr = some (front.length + init.flatten.length)

namespace InstrEncoder

variable {enc enc' : InstrEncoder} {front : List Instruction} {chunks : List (List Instruction)}
  {word : Instruction} {fuelInfo : FuelInfo} {top : Int}

/-! ## Words -/

lemma insertIdx_append (left right : List Instruction) (word : Instruction) :
    (left ++ right).insertIdx left.length word = left ++ word :: right := by
  induction left with
  | nil => rfl
  | cons first left ih =>
    rw [List.cons_append, List.length_cons, List.insertIdx_succ_cons, ih]
    rfl

lemma unfueled_of_plain (h : ∀ blockFuel, word.op ≠ .consumeFuel blockFuel) :
    unfueled word = word := by
  unfold unfueled
  split
  case h_1 blockFuel hop => exact absurd hop (h blockFuel)
  case h_2 => rfl

/-- Words without fuel are the same. -/
lemma eq_of_unfueled {words words' : List Instruction}
    (hplain : ∀ word ∈ words, ∀ blockFuel, word.op ≠ .consumeFuel blockFuel)
    (h : words'.map unfueled = words.map unfueled) : words' = words := by
  induction words generalizing words' with
  | nil => exact List.map_eq_nil_iff.1 h
  | cons word words ih =>
    obtain ⟨word', rest, rfl, hword, hrest⟩ := List.map_eq_cons_iff.1 (h.trans List.map_cons)
    rw [ih (fun w hw => hplain w (List.mem_cons_of_mem _ hw)) hrest]
    have hsame : word' = word := by
      rw [unfueled_of_plain (hplain word List.mem_cons_self)] at hword
      unfold unfueled at hword
      split at hword
      case h_1 =>
        exact absurd (congrArg Instruction.op hword).symm (hplain word List.mem_cons_self 0)
      case h_2 => exact hword
    rw [hsame]

/-- The fuel is no part of the block. -/
lemma Chunks.split (h : enc.Chunks front top chunks) {instrs : List Instruction}
    (hinstrs : instrs.map unfueled = enc.instrs.map unfueled) :
    ∃ before, before.map unfueled = front ∧ instrs = before ++ chunks.flatten := by
  obtain ⟨before, hbefore, hold⟩ := h.words
  rw [hold, List.map_append] at hinstrs
  obtain ⟨before', rest, rfl, hbefore', hrest⟩ := List.map_eq_append_iff.1 hinstrs
  rw [eq_of_unfueled h.plain hrest]
  exact ⟨before', hbefore'.trans hbefore, rfl⟩

/-- The block goes on with an instruction. -/
lemma Chunks.push (h : enc.Chunks front top chunks) {pre words : List Instruction}
    (hpre : pre.map unfueled = enc.instrs.map unfueled) (hinstrs : enc'.instrs = pre ++ words)
    (hlast : enc'.lastInstr = some pre.length) (hwords : words ≠ [])
    (hplain : ∀ word ∈ words, ∀ blockFuel, word.op ≠ .consumeFuel blockFuel)
    (hbelow : ResultBelow top words) :
    enc'.Chunks front top (chunks ++ [words]) := by
  obtain ⟨before, hbefore, rfl⟩ := h.split hpre
  have hlen : before.length = front.length := by rw [← hbefore, List.length_map]
  refine ⟨⟨before, hbefore, ?_⟩, ?_, ?_, ?_, .inr ⟨chunks, words, rfl, ?_⟩⟩
  · rw [hinstrs, List.flatten_concat, List.append_assoc]
  · rw [List.mem_append, List.mem_singleton, not_or]
    exact ⟨h.nonempty, hwords.symm⟩
  · intro word hword
    rw [List.flatten_concat, List.mem_append] at hword
    exact hword.elim (h.plain word) (hplain word)
  · exact List.forall_mem_append.2 ⟨h.below, List.forall_mem_singleton.2 hbelow⟩
  · rw [hlast, List.length_append, hlen]

lemma Chunks.pushFueled (h : enc.Chunks front top chunks) {instr : Nat}
    (hop : enc.pushFueled word fuelInfo = .ok (instr, enc'))
    (hplain : ∀ blockFuel, word.op ≠ .consumeFuel blockFuel) (hbelow : ResultBelow top [word]) :
    enc'.Chunks front top (chunks ++ [[word]]) := by
  obtain ⟨pre, hpre, hinstrs, hlast⟩ := pushFueled_ok hop
  exact h.push hpre hinstrs hlast (List.cons_ne_nil _ _) (by simpa using hplain) hbelow

lemma Inert.bumpFuel (h : enc.Inert) {f : FuelCosts → Nat}
    (hop : enc.bumpFuelConsumption fuelInfo f = .ok enc') : enc'.Inert := by
  intro lastInstr word hlast hword
  rw [bumpFuelConsumption_instrs hop] at hlast
  have hsame : enc.instrs[lastInstr]?.map unfueled = some (unfueled word) := by
    rw [← List.getElem?_map, ← bumpFuelConsumption_ok hop, List.getElem?_map, hword]
    rfl
  obtain ⟨word', hword', heq⟩ := Option.map_eq_some_iff.1 hsame
  exact sealed_of_unfueled heq.symm (h lastInstr word' hlast hword')

lemma Chunks.bumpFuel (h : enc.Chunks front top chunks) {f : FuelCosts → Nat}
    (hop : enc.bumpFuelConsumption fuelInfo f = .ok enc') : enc'.Chunks front top chunks := by
  have hinstrs := h.split (bumpFuelConsumption_ok hop)
  have hlast : enc'.lastInstr = enc.lastInstr := by rw [bumpFuelConsumption_instrs hop]
  refine ⟨hinstrs, h.nonempty, h.plain, h.below, h.last.imp ?_ ?_⟩
  · exact fun hempty => ⟨hempty.1, hempty.2.bumpFuel hop⟩
  · rw [hlast]
    exact id

/-- The last instruction, if it has a result. -/
lemma Chunks.last_eq (h : enc.Chunks front top chunks) {lastInstr : Nat}
    (hlast : enc.lastInstr = some lastInstr) (hword : enc.instrs[lastInstr]? = some word)
    (hopen : ¬ word.op.Sealed) : ∃ init params,
      chunks = init ++ [word :: params] ∧ lastInstr = front.length + init.flatten.length ∧
      enc.instrs.drop lastInstr = word :: params := by
  obtain ⟨-, hinert⟩ | ⟨init, last, hchunks, hsome⟩ := h.last
  · exact absurd (hinert lastInstr word hlast hword) hopen
  · obtain rfl := Option.some.inj (hlast.symm.trans hsome)
    obtain ⟨before, hbefore, hinstrs⟩ := h.words
    have hlen : before.length = front.length := by rw [← hbefore, List.length_map]
    have hdrop : enc.instrs.drop (front.length + init.flatten.length) = last := by
      rw [hinstrs, hchunks, List.flatten_concat, ← List.append_assoc, ← hlen, ← List.length_append,
        List.drop_left]
    rw [← List.head?_drop, hdrop] at hword
    cases last with
    | nil => cases hword
    | cons first params =>
      obtain rfl := Option.some.inj hword
      exact ⟨init, params, hchunks, rfl, hdrop⟩

/-- Another word for the last instruction. -/
lemma Chunks.setLast (h : enc.Chunks front top chunks) {init : List (List Instruction)}
    {params : List Instruction} (hchunks : chunks = init ++ [word :: params])
    {word' : Instruction} (hplain : ∀ blockFuel, word'.op ≠ .consumeFuel blockFuel)
    (hbelow : ResultBelow top (word' :: params)) :
    Chunks { enc with instrs := enc.instrs.set (front.length + init.flatten.length) word' } front
      top (init ++ [word' :: params]) := by
  obtain ⟨before, hbefore, hinstrs⟩ := h.words
  have hlen : before.length = front.length := by rw [← hbefore, List.length_map]
  have hold := h.plain
  have hnonempty := h.nonempty
  have holdBelow := h.below
  rw [hchunks, List.flatten_concat] at hinstrs hold
  rw [hchunks, List.mem_append, List.mem_singleton, not_or] at hnonempty
  rw [hchunks, List.forall_mem_append] at holdBelow
  refine ⟨⟨before, hbefore, ?_⟩, ?_, ?_, ?_, .inr ⟨init, word' :: params, rfl, ?_⟩⟩
  · show enc.instrs.set _ word' = _
    rw [hinstrs, ← hlen, List.set_append_right _ _ (Nat.le_add_right _ _),
      Nat.add_sub_cancel_left, List.set_append_right _ _ (Nat.le_refl _), Nat.sub_self,
      List.flatten_concat]
    rfl
  · rw [List.mem_append, List.mem_singleton, not_or]
    exact ⟨hnonempty.1, (List.cons_ne_nil _ _).symm⟩
  · intro w hw
    rw [List.flatten_concat, List.mem_append, List.mem_cons] at hw
    obtain hw | rfl | hw := hw
    · exact hold w (List.mem_append_left _ hw)
    · exact hplain
    · exact hold w (List.mem_append_right _ (List.mem_cons_of_mem _ hw))
  · exact List.forall_mem_append.2 ⟨holdBelow.1, List.forall_mem_singleton.2 hbelow⟩
  · obtain ⟨hempty, -⟩ | ⟨init', last, hchunks', hlast⟩ := h.last
    · rw [hchunks] at hempty
      simp at hempty
    · obtain ⟨rfl, -⟩ := List.append_inj' (hchunks.symm.trans hchunks') rfl
      exact hlast

/-- An instruction in front of the last one. -/
lemma Chunks.insertLast (h : enc.Chunks front top chunks) {init : List (List Instruction)}
    {params : List Instruction} (hchunks : chunks = init ++ [word :: params])
    {word' : Instruction} (hplain : ∀ blockFuel, word'.op ≠ .consumeFuel blockFuel)
    (hbelow : ResultBelow top [word']) :
    Chunks { enc with
      instrs := enc.instrs.insertIdx (front.length + init.flatten.length) word'
      lastInstr := some (front.length + init.flatten.length + 1) } front top
      (init ++ [[word']] ++ [word :: params]) := by
  obtain ⟨before, hbefore, hinstrs⟩ := h.words
  have hlen : before.length = front.length := by rw [← hbefore, List.length_map]
  have hold := h.plain
  have hnonempty := h.nonempty
  have holdBelow := h.below
  rw [hchunks, List.flatten_concat] at hinstrs hold
  rw [hchunks] at hnonempty
  rw [hchunks, List.forall_mem_append] at holdBelow
  refine ⟨⟨before, hbefore, ?_⟩, ?_, ?_, ?_, .inr ⟨init ++ [[word']], word :: params, rfl, ?_⟩⟩
  · show enc.instrs.insertIdx _ word' = _
    rw [hinstrs, ← hlen, ← List.append_assoc, ← List.length_append, insertIdx_append]
    simp
  · simpa using hnonempty
  · intro w hw
    simp only [List.flatten_append, List.flatten_cons, List.flatten_nil, List.append_nil,
      List.mem_append, List.mem_singleton] at hw
    obtain (hw | rfl) | hw := hw
    · exact hold w (List.mem_append_left _ hw)
    · exact hplain
    · exact hold w (List.mem_append_right _ hw)
  · rw [List.append_assoc, List.forall_mem_append, List.singleton_append, List.forall_mem_cons]
    exact ⟨holdBelow.1, hbelow, holdBelow.2⟩
  · rw [List.flatten_concat, List.length_append, List.length_singleton, Nat.add_assoc]

end InstrEncoder

/-! ## Copies -/

/-- The registers of the constants hold them. -/
def FuncLocalConsts.HeldBy (consts : FuncLocalConsts) (f : RegFile) : Prop :=
  ∀ reg value, consts.get reg = some value → f reg = some value

/-- What `chunks'` do: what `chunks` do, and then the register gets the value. -/
structure Assigns (float : FloatOps) (consts : FuncLocalConsts)
    (chunks chunks' : List (List Instruction)) (result : Reg) (value : TypedProvider) : Prop where
  ok : ∀ {f₀ f : RegFile} {x : UntypedVal}, effects float f₀ chunks = some (.ok f) →
    consts.HeldBy f → (f result).isSome → value.valueIn f = some x →
    effects float f₀ chunks' = some (.ok (Function.update f result (some x)))
  error : ∀ {f₀ : RegFile} {trapCode : TrapCode},
    effects float f₀ chunks = some (.error trapCode) →
    effects float f₀ chunks' = some (.error trapCode)

section Copies

variable {float : FloatOps} {enc enc' : InstrEncoder} {consts consts' : FuncLocalConsts}
  {front params : List Instruction} {chunks init : List (List Instruction)} {f f₀ f' : RegFile}
  {word : Instruction} {result : Reg} {value : TypedProvider} {x : UntypedVal} {instrOffset : Nat}
  {outcome : Except TrapCode RegFile} {trapCode : TrapCode} {fuelInfo : FuelInfo} {top : Int}

lemma FuncLocalConsts.HeldBy.mono (h : consts'.HeldBy f) (hext : consts.Extends consts') :
    consts.HeldBy f := fun reg value hget => h reg value (hext reg value hget)

/-- The effect of an instruction that computes a value. -/
lemma effect_compute (hresult : word.op.resultReg = some result) (hthere : (f result).isSome)
    (hcompute : word.op.computeWith float f (params.map Instruction.op) = some (.ok x)) :
    effect float f (word :: params) = some (.ok (Function.update f result (some x))) := by
  obtain ⟨instrOffset, op⟩ := word
  rw [effect_of_resultReg hresult, if_pos hthere, hcompute]
  rfl

lemma effect_compute_error (hresult : word.op.resultReg = some result) (hthere : (f result).isSome)
    (hcompute : word.op.computeWith float f (params.map Instruction.op) = some (.error trapCode)) :
    effect float f (word :: params) = some (.error trapCode) := by
  obtain ⟨instrOffset, op⟩ := word
  rw [effect_of_resultReg hresult, if_pos hthere, hcompute]
  rfl

/-- An instruction with a result register computes the value that it gets. -/
lemma effect_computed (hresult : word.op.resultReg = some result)
    (h : effect float f (word :: params) = some outcome) :
    (f result).isSome ∧ ∃ computed,
      word.op.computeWith float f (params.map Instruction.op) = some computed ∧
        outcome = computed.map fun value => Function.update f result (some value) := by
  obtain ⟨instrOffset, op⟩ := word
  rw [effect_of_resultReg hresult] at h
  split at h
  case isFalse => cases h
  case isTrue hthere =>
    obtain ⟨computed, hcompute, rfl⟩ := Option.map_eq_some_iff.1 h
    exact ⟨hthere, computed, hcompute, rfl⟩

/-- A copy has no parameters and does not trap. -/
lemma effect_copied {value : Reg}
    (h : effect float f (⟨instrOffset, .copy result value⟩ :: params) = some outcome) :
    params = [] ∧ (f result).isSome ∧ ∃ x, f value = some x ∧
      outcome = .ok (Function.update f result (some x)) := by
  have hresult : (Instruction.mk instrOffset (.copy result value)).op.resultReg = some result := rfl
  obtain ⟨hthere, computed, hcompute, rfl⟩ := effect_computed hresult h
  cases params with
  | nil =>
    obtain ⟨x, hx, rfl⟩ := Option.map_eq_some_iff.1 hcompute
    exact ⟨rfl, hthere, x, hx, rfl⟩
  | cons param params => cases params <;> cases hcompute

/-- A further instruction computes the value. -/
lemma assigns_push (hresult : word.op.resultReg = some result)
    (hcompute : ∀ f : RegFile, consts.HeldBy f → ∀ x, value.valueIn f = some x →
      word.op.compute float f = some (.ok x)) :
    Assigns float consts chunks (chunks ++ [[word]]) result value where
  ok {f₀ f x} h hconsts hthere hx := by
    have heffect : effect float f [word] = some (.ok (Function.update f result (some x))) :=
      effect_compute hresult hthere (hcompute f hconsts x hx)
    rw [effects_append_ok h, effects_cons_ok heffect]
    rfl
  error h := effects_append_error h

/-- The instruction of a copied constant. -/
lemma copyConst_compute {value : TypedVal}
    (h : InstrEncoder.copyConst float instrOffset consts result value = .ok (word, consts')) :
    consts.Extends consts' ∧ word.op.resultReg = some result ∧ ∀ f : RegFile, consts'.HeldBy f →
      word.op.compute float f = some (.ok value.value) := by
  have hcopyImm : ∀ {word}, InstrEncoder.copyImm instrOffset consts result value.value =
      .ok (word, consts') → consts.Extends consts' ∧ word.op.resultReg = some result ∧
        ∀ f : RegFile, consts'.HeldBy f → word.op.compute float f = some (.ok value.value) := by
    intro word himm
    obtain ⟨⟨cref, consts₁⟩, halloc, himm⟩ := bind_eq_ok.1 himm
    obtain ⟨rfl, rfl⟩ := Prod.mk.inj (Except.ok.inj himm)
    obtain ⟨hext, hget, -⟩ := FuncLocalConsts.alloc_ok halloc
    refine ⟨hext, rfl, fun f hconsts => ?_⟩
    show (f cref).map _ = _
    rw [hconsts cref _ hget]
    rfl
  unfold InstrEncoder.copyConst at h
  split at h
  case h_1 hty =>
    obtain ⟨rfl, rfl⟩ := Prod.mk.inj (Except.ok.inj h)
    refine ⟨.refl consts, rfl, fun f _ => ?_⟩
    show some (Except.ok (UntypedVal.ofI32 value.value.toI32)) = _
    rw [← value.upper (.inl hty)]
  case h_2 hty =>
    obtain ⟨rfl, rfl⟩ := Prod.mk.inj (Except.ok.inj h)
    refine ⟨.refl consts, rfl, fun f _ => ?_⟩
    show some (Except.ok (UntypedVal.ofI32 value.value.toI32)) = _
    rw [← value.upper (.inr hty)]
  case h_3 =>
    split at h
    case h_1 imm himm =>
      obtain ⟨rfl, rfl⟩ := Prod.mk.inj (Except.ok.inj h)
      refine ⟨.refl consts, rfl, fun f _ => ?_⟩
      show some (Except.ok (AnyConst32.toI64 imm)) = _
      rw [ofI64_toI64 himm]
    case h_2 => exact hcopyImm h
  case h_4 =>
    split at h
    case h_1 imm himm =>
      obtain ⟨rfl, rfl⟩ := Prod.mk.inj (Except.ok.inj h)
      refine ⟨.refl consts, rfl, fun f _ => ?_⟩
      show some (Except.ok (float.f64OfConst32 imm)) = _
      rw [ofF64_eq himm]
    case h_2 => exact hcopyImm h
  case h_5 => exact hcopyImm h
  case h_6 => exact hcopyImm h

/-- The last copy and the new one, in one instruction. -/
lemma assigns_merge {last lastValue reg m a b : Reg}
    (hmerges : Merges last lastValue result (if reg = last then lastValue else reg) word m a b) :
    Assigns float consts (init ++ [⟨instrOffset, .copy last lastValue⟩ :: params])
      (init ++ [word :: params]) result (.register reg) where
  ok {f₀ f x} h _ hthere hx := by
    obtain ⟨_, -, hcases⟩ | ⟨f₁, hinit, hlast⟩ := effects_append_cases h
    · cases hcases
    obtain ⟨f₂, hcopy, hend⟩ | ⟨_, _, hcases⟩ := effects_cons_cases hlast
    swap
    · cases hcases
    obtain rfl : f₂ = f := Except.ok.inj (Option.some.inj hend)
    obtain ⟨rfl, hlastThere, y, hy, hcopied⟩ := effect_copied hcopy
    obtain rfl := Except.ok.inj hcopied
    have hresultThere : (f₁ result).isSome := by
      by_cases heq : result = last
      · rw [heq]
        exact hlastThere
      · rwa [Function.update_of_ne heq] at hthere
    have hvalueThere : (f₁ (if reg = last then lastValue else reg)).isSome := by
      have hreg : Function.update f₁ last (some y) reg = some x := hx
      split
      case isTrue => rw [hy]; rfl
      case isFalse hne =>
        rw [Function.update_of_ne hne] at hreg
        rw [hreg]
        rfl
    have hlastValueThere : (f₁ lastValue).isSome := by rw [hy]; rfl
    have hall : (f₁ m).isSome ∧ (f₁ m.next).isSome ∧ (f₁ a).isSome ∧ (f₁ b).isSome := by
      obtain ⟨rfl, hnext, rfl, rfl⟩ | ⟨rfl, hnext, rfl, rfl, -⟩ := hmerges.regs
      · exact ⟨hlastThere, hnext ▸ hresultThere, hlastValueThere, hvalueThere⟩
      · exact ⟨hresultThere, hnext ▸ hlastThere, hvalueThere, hlastValueThere⟩
    have heffect : effect float f₁ [word] =
        some (.ok (Function.update (Function.update f₁ last (some y)) result (some x))) := by
      have hcopies := hmerges.copied f₁
      rw [hy] at hcopies
      obtain ⟨wordOffset, op⟩ := word
      obtain rfl : op = .copy2 ⟨m⟩ a b := hmerges.op
      show (if _ then some (Except.ok _) else none) = _
      rw [if_pos hall, ← hx]
      exact congrArg (fun f => some (Except.ok f)) hcopies
    rw [effects_append_ok hinit, effects_cons_ok heffect]
    rfl
  error {f₀ trapCode} h := by
    obtain ⟨_, hinit, hcases⟩ | ⟨f₁, hinit, hlast⟩ := effects_append_cases h
    · obtain rfl := Except.error.inj hcases
      exact effects_append_error hinit
    · obtain ⟨f₂, -, hend⟩ | ⟨_, hcopy, -⟩ := effects_cons_cases hlast
      · cases hend
      · obtain ⟨-, -, _, -, hcases⟩ := effect_copied hcopy
        cases hcases

/-- A copy of a register. -/
lemma resultBelow_copy (instrOffset : Nat) (result value : Reg) :
    ResultBelow top [⟨instrOffset, .copy result value⟩] := by
  intro reg hreg
  obtain rfl := Option.some.inj hreg
  exact .inl ⟨value, rfl⟩

lemma resultBelow_of_lt (hresult : word.op.resultReg = some result) (hlt : result.toInt < top) :
    ResultBelow top (word :: params) := by
  intro reg hreg
  obtain rfl := Option.some.inj (hresult.symm.trans hreg)
  exact .inr hlt

/-- A copy takes no constant away. -/
lemma encodeCopy_extends {instr : Option Nat}
    (hop : enc.encodeCopy float instrOffset consts result value fuelInfo =
      .ok (instr, enc', consts')) : consts.Extends consts' := by
  unfold InstrEncoder.encodeCopy at hop
  obtain ⟨merge, -, hop⟩ := bind_eq_ok.1 hop
  cases merge with
  | some merged =>
    obtain ⟨-, -, rfl⟩ := by simpa using Except.ok.inj hop
    exact .refl consts
  | none =>
    cases value with
    | register value =>
      dsimp only at hop
      split at hop
      case isTrue =>
        obtain ⟨-, -, rfl⟩ := by simpa using Except.ok.inj hop
        exact .refl consts
      case isFalse =>
        obtain ⟨⟨instr', enc₁⟩, -, hop⟩ := bind_eq_ok.1 hop
        obtain ⟨-, -, rfl⟩ := by simpa using Except.ok.inj hop
        exact .refl consts
    | const value =>
      obtain ⟨⟨word, consts₁⟩, hconst, hop⟩ := bind_eq_ok.1 hop
      obtain ⟨⟨instr', enc₁⟩, -, hop⟩ := bind_eq_ok.1 hop
      obtain ⟨-, -, rfl⟩ := by simpa using Except.ok.inj hop
      exact (copyConst_compute hconst).1

lemma assigns_encodeCopy {instr : Option Nat} (h : enc.Chunks front top chunks)
    (hpos : 0 ≤ result.toInt) (hlast : result.toInt ≤ 32766) (hlt : result.toInt < top)
    (hop : enc.encodeCopy float instrOffset consts result value fuelInfo =
      .ok (instr, enc', consts')) :
    ∃ chunks', enc'.Chunks front top chunks' ∧
      Assigns float consts' chunks chunks' result value := by
  unfold InstrEncoder.encodeCopy at hop
  obtain ⟨merge, hmerge, hop⟩ := bind_eq_ok.1 hop
  cases merge with
  | some merged =>
    obtain ⟨rfl, rfl, rfl⟩ := by simpa using Except.ok.inj hop
    obtain ⟨wordOffset, last, lastValue, reg, word, m, a, b, rfl, hlastInstr, hword, henc,
      hmerges⟩ := mergeCopyInstrs_ok hpos hlast hmerge
    obtain ⟨init, params, rfl, hmerged, -⟩ := h.last_eq hlastInstr hword (fun h => by cases h.1)
    have hplain : ∀ blockFuel, word.op ≠ .consumeFuel blockFuel := by
      intro blockFuel
      rw [hmerges.op]
      exact fun h => by cases h
    refine ⟨init ++ [word :: params], ?_, assigns_merge hmerges⟩
    rw [henc, hmerged]
    refine h.setLast rfl hplain fun reg hreg => ?_
    rw [hmerges.op] at hreg
    cases hreg
  | none =>
    cases value with
    | register value =>
      dsimp only at hop
      split at hop
      case isTrue heq =>
        obtain ⟨rfl, rfl, rfl⟩ := by simpa using Except.ok.inj hop
        refine ⟨chunks, h, fun {f₀ f x} heffects _ _ hx => ?_, id⟩
        have hx : f value = some x := hx
        rw [heffects, heq, ← hx, Function.update_eq_self]
      case isFalse =>
        obtain ⟨⟨instr', enc₁⟩, hpush, hop⟩ := bind_eq_ok.1 hop
        obtain ⟨rfl, rfl, rfl⟩ := by simpa using Except.ok.inj hop
        refine ⟨_, h.pushFueled hpush (fun _ h => by cases h) (resultBelow_copy _ _ _), ?_⟩
        refine assigns_push rfl fun f _ x hx => ?_
        have hx : f value = some x := hx
        show (f value).map _ = _
        rw [hx]
        rfl
    | const value =>
      obtain ⟨⟨word, consts₁⟩, hconst, hop⟩ := bind_eq_ok.1 hop
      obtain ⟨⟨instr', enc₁⟩, hpush, hop⟩ := bind_eq_ok.1 hop
      obtain ⟨rfl, rfl, rfl⟩ := by simpa using Except.ok.inj hop
      obtain ⟨-, hresult, hcompute⟩ := copyConst_compute hconst
      refine ⟨_, h.pushFueled hpush (not_consumeFuel hresult) (resultBelow_of_lt hresult hlt), ?_⟩
      refine assigns_push hresult fun f hconsts x hx => ?_
      rw [hcompute f hconsts, ← Option.some.inj hx]

end Copies

/-! ## Locals -/

/-- What `chunks'` do: what `chunks` do, and then the local gets the value, and the register that it
is preserved in its old value. The register of the value may be lost, unless it is a local or a
preserved register. -/
structure SetsLocal (float : FloatOps) (consts : FuncLocalConsts) (space : Reg → RegisterSpace)
    (chunks chunks' : List (List Instruction)) («local» : Reg) (value : TypedProvider)
    (preserved : Option Reg) : Prop where
  ok : ∀ {f₀ f : RegFile} {x : UntypedVal}, effects float f₀ chunks = some (.ok f) →
    consts.HeldBy f → (f₀ «local»).isSome → (∀ reg, preserved = some reg → (f₀ reg).isSome) →
    value.valueIn f = some x → ∃ f', effects float f₀ chunks' = some (.ok f') ∧
      f' «local» = some x ∧ (∀ reg, preserved = some reg → f' reg = f «local») ∧
      ∀ reg, reg ≠ «local» → preserved ≠ some reg →
        (value = .register reg → space reg = .local ∨ space reg = .preserve) → f' reg = f reg
  error : ∀ {f₀ : RegFile} {trapCode : TrapCode},
    effects float f₀ chunks = some (.error trapCode) → (f₀ «local»).isSome →
    (∀ reg, preserved = some reg → (f₀ reg).isSome) →
    effects float f₀ chunks' = some (.error trapCode)

section Locals

variable {float : FloatOps} {enc enc' : InstrEncoder} {consts consts' : FuncLocalConsts}
  {front params : List Instruction} {chunks init : List (List Instruction)} {f f₀ f' : RegFile}
  {op op' : Op} {word : Instruction} {lenResults : Op → Nat} {space : Reg → RegisterSpace}
  {«local» result newResult : Reg} {value : TypedProvider} {preserved : Option Reg} {x : UntypedVal}
  {instrOffset : Nat} {outcome : Except TrapCode RegFile} {trapCode : TrapCode}
  {fuelInfo : FuelInfo} {top : Int}

/-! ### Copies to a local -/

/-- The copy that preserves a local. -/
lemma assigns_preserve {reg : Reg} : Assigns float consts chunks
    (chunks ++ [[⟨instrOffset, .copy reg «local»⟩]]) reg (.register «local») := by
  refine assigns_push rfl fun f _ x hx => ?_
  have hx : f «local» = some x := hx
  show (f «local»).map _ = _
  rw [hx]
  rfl

lemma FuncLocalConsts.HeldBy.update (h : consts.HeldBy f) {reg : Reg} (hpos : 0 ≤ reg.toInt)
    (value : Option UntypedVal) : consts.HeldBy (Function.update f reg value) := by
  intro reg' value' hget
  obtain ⟨i, hi, -⟩ := FuncLocalConsts.toInt_of_get hget
  have hne : reg' ≠ reg := by
    rintro rfl
    omega
  rw [Function.update_of_ne hne]
  exact h reg' value' hget

lemma setsLocal_copyLocalSet (h : enc.Chunks front top chunks) (hpos : 0 ≤ «local».toInt)
    (hlast : «local».toInt ≤ 32766) (hlt : «local».toInt < top)
    (hpreserved : ∀ reg, preserved = some reg →
      0 ≤ reg.toInt ∧ reg ≠ «local» ∧ value ≠ .register reg)
    (hop : enc.copyLocalSet float instrOffset consts «local» value preserved fuelInfo =
      .ok (enc', consts')) :
    ∃ chunks', enc'.Chunks front top chunks' ∧
      SetsLocal float consts' space chunks chunks' «local» value preserved := by
  obtain ⟨enc₁, hpreserve, hop⟩ := bind_eq_ok.1 hop
  obtain ⟨⟨instr, enc₂, consts₂⟩, hcopy, hop⟩ := bind_eq_ok.1 hop
  obtain ⟨rfl, rfl⟩ := Prod.mk.inj (Except.ok.inj hop)
  cases preserved with
  | none =>
    obtain rfl := Except.ok.inj hpreserve
    obtain ⟨chunks', hchunks', hassigns⟩ :=
      assigns_encodeCopy h hpos hlast hlt hcopy
    refine ⟨chunks', hchunks', ?_, fun herror _ _ => hassigns.error herror⟩
    intro f₀ f x heffects hconsts hlocal _ hx
    have hthere := effects_isSome heffects hlocal
    refine ⟨_, hassigns.ok heffects hconsts hthere hx, Function.update_self _ _ _, ?_, ?_⟩
    · exact fun _ hnone => by cases hnone
    · exact fun reg hreg _ _ => Function.update_of_ne hreg _ _
  | some reg =>
    obtain ⟨⟨instr₁, enc₁'⟩, hpush, hpreserve⟩ := bind_eq_ok.1 hpreserve
    obtain rfl := Except.ok.inj hpreserve
    obtain ⟨hregPos, hregLocal, hregValue⟩ := hpreserved reg rfl
    have h₁ := h.pushFueled hpush (fun _ h => by cases h) (resultBelow_copy _ _ _)
    have hpreserves : Assigns float consts₂ chunks
        (chunks ++ [[⟨instrOffset, .copy reg «local»⟩]]) reg (.register «local») := assigns_preserve
    obtain ⟨chunks', hchunks', hassigns⟩ :=
      assigns_encodeCopy h₁ hpos hlast hlt hcopy
    refine ⟨chunks', hchunks', ?_, fun herror _ _ =>
      hassigns.error (hpreserves.error herror)⟩
    intro f₀ f x heffects hconsts hlocal hthere hx
    have hregThere := effects_isSome heffects (hthere reg rfl)
    obtain ⟨y, hy⟩ := Option.isSome_iff_exists.1 (effects_isSome heffects hlocal)
    have hfirst := hpreserves.ok heffects hconsts hregThere hy
    have hvalue : value.valueIn (Function.update f reg (some y)) = some x := by
      cases value with
      | const => exact hx
      | register r =>
        have hne : r ≠ reg := fun heq => hregValue (by rw [heq])
        show Function.update f reg (some y) r = some x
        rw [Function.update_of_ne hne]
        exact hx
    have hlocalThere : (Function.update f reg (some y) «local»).isSome := by
      rw [Function.update_of_ne hregLocal.symm, hy]
      rfl
    refine ⟨_, hassigns.ok hfirst (hconsts.update hregPos _) hlocalThere hvalue,
      Function.update_self _ _ _, fun r hr => ?_, fun r hr hpreserved _ => ?_⟩
    · obtain rfl := Option.some.inj hr
      rw [Function.update_of_ne hregLocal, Function.update_self, hy]
    · have hne : r ≠ reg := fun heq => hpreserved (by rw [heq])
      rw [Function.update_of_ne hr, Function.update_of_ne hne]

/-! ### Other results -/

lemma relinkResult_cases (h : op.relinkResult lenResults newResult result = some op') :
    op' = op.setResult newResult ∧ (op.resultReg = some result ∨ op.callResults.isSome) := by
  unfold Op.relinkResult at h
  split at h
  case h_1 results hcall =>
    split at h
    case isFalse => cases h
    case isTrue => exact ⟨(Option.some.inj h).symm, .inr (by rw [hcall]; rfl)⟩
  case h_2 result' _ hresult =>
    split at h
    case isFalse => cases h
    case isTrue heq => exact ⟨(Option.some.inj h).symm, .inl (heq ▸ hresult)⟩
  case h_3 => cases h

/-- An instruction that is given another result has one. -/
lemma relinkResult_open (h : op.relinkResult lenResults newResult result = some op') :
    ¬ op.Sealed := by
  rintro ⟨hresult, hcall⟩
  obtain ⟨-, heq | hsome⟩ := relinkResult_cases h
  · rw [hresult] at heq
    cases heq
  · rw [hcall] at hsome
    cases hsome

lemma resultBelow_setResult (h : op.relinkResult lenResults newResult result = some op')
    (hlt : newResult.toInt < top) : ResultBelow top (⟨instrOffset, op'⟩ :: params) := by
  intro reg hreg
  obtain ⟨rfl, hsome | hcall⟩ := relinkResult_cases h
  · rw [resultReg_setResult hsome newResult] at hreg
    exact .inr (Option.some.inj hreg ▸ hlt)
  · cases op with
    | callInternal0 | callInternal | callImported0 | callImported | callIndirect0
    | callIndirect0Imm16 | callIndirect | callIndirectImm16 => cases hreg
    | _ => cases hcall

lemma setResult_plain (h : ∀ blockFuel, op ≠ .consumeFuel blockFuel) (blockFuel : Nat) :
    op.setResult newResult ≠ .consumeFuel blockFuel := by
  cases op <;> first | exact absurd rfl (h _) | exact fun h => by cases h

/-- A call is no straight-line code. -/
lemma effect_call (h : op.callResults.isSome) :
    effect float f (⟨instrOffset, op⟩ :: params) = none := by
  have hresult : op.resultReg = none := by
    cases hresult : op.resultReg with
    | none => rfl
    | some result =>
      rw [callResults_of_resultReg hresult] at h
      cases h
  unfold effect
  split
  case h_1 heq =>
    obtain ⟨⟨-, rfl⟩, -⟩ := by simpa using heq
    cases h
  case h_2 heq =>
    obtain ⟨⟨-, rfl⟩, -⟩ := by simpa using heq
    cases h
  case h_3 heq =>
    obtain ⟨rfl, rfl⟩ := List.cons.inj heq
    rw [hresult]
    rfl
  case h_4 => rfl

lemma chunks_relinkLocalSet {value : Reg} {lastInstr : Nat} (h : enc.Chunks front top chunks)
    (hlt : «local».toInt < top) (hlast : enc.lastInstr = some lastInstr)
    (hop : enc.relinkLocalSet lenResults instrOffset «local» value preserved fuelInfo =
      .ok (some enc')) :
    ∃ init word params op', chunks = init ++ [word :: params] ∧
      enc.instrs.drop lastInstr = word :: params ∧
      word.op.relinkResult lenResults «local» value = some op' ∧
      enc'.Chunks front top (init ++
        (preserved.map fun reg => [⟨instrOffset, .copy reg «local»⟩]).toList ++
        [⟨word.instrOffset, op'⟩ :: params]) := by
  unfold InstrEncoder.relinkLocalSet at hop
  rw [hlast] at hop
  dsimp only at hop
  split at hop
  case h_1 => cases hop
  case h_2 word hword =>
    cases hrelink : word.op.relinkResult lenResults «local» value with
    | none =>
      rw [hrelink] at hop
      cases hop
    | some op' =>
      obtain ⟨init, params, rfl, rfl, hdrop⟩ := h.last_eq hlast hword (relinkResult_open hrelink)
      rw [hrelink] at hop
      dsimp only at hop
      refine ⟨init, word, params, op', rfl, hdrop, hrelink, ?_⟩
      have hold : ∀ blockFuel, word.op ≠ .consumeFuel blockFuel := h.plain word (by simp)
      have hplain : ∀ blockFuel, (Instruction.mk word.instrOffset op').op ≠
          .consumeFuel blockFuel := by
        rw [(relinkResult_cases hrelink).1]
        exact setResult_plain hold
      have hset := h.setLast rfl hplain (resultBelow_setResult hrelink hlt)
      rw [hlast] at hset
      cases preserved with
      | none =>
        rw [← Option.some.inj (Except.ok.inj hop), Option.map_none, Option.toList_none,
          List.append_nil]
        exact hset
      | some reg =>
        obtain ⟨enc₁, hbump, hop⟩ := bind_eq_ok.1 hop
        obtain ⟨⟨shifted, enc₂⟩, hpush, hop⟩ := bind_eq_ok.1 hop
        unfold InstrEncoder.pushBefore at hpush
        split at hpush
        case isFalse => cases hpush
        case isTrue =>
          obtain ⟨rfl, rfl⟩ := Prod.mk.inj (Except.ok.inj hpush)
          rw [← Option.some.inj (Except.ok.inj hop)]
          exact (hset.bumpFuel hbump).insertLast rfl (fun _ h => by cases h)
            (resultBelow_copy _ _ _)

/-- The copy in front of the last instruction preserves the local. -/
lemma effects_preserve (float : FloatOps) (instrOffset : Nat) {f₁ : RegFile}
    (hlocal : (f₁ «local»).isSome) (hthere : ∀ reg, preserved = some reg → (f₁ reg).isSome) :
    ∃ f₂ : RegFile,
      effects float f₁ (preserved.map fun reg => [⟨instrOffset, .copy reg «local»⟩]).toList =
        some (.ok f₂) ∧
      (∀ reg, preserved = some reg → f₂ reg = f₁ «local») ∧
      ∀ reg, preserved ≠ some reg → f₂ reg = f₁ reg := by
  cases preserved with
  | none => exact ⟨f₁, rfl, fun _ hnone => (by cases hnone), fun _ _ => rfl⟩
  | some reg =>
    obtain ⟨x, hx⟩ := Option.isSome_iff_exists.1 hlocal
    have hcopy : effect float f₁ [⟨instrOffset, .copy reg «local»⟩] =
        some (.ok (Function.update f₁ reg (some x))) := by
      refine effect_compute rfl (hthere reg rfl) ?_
      show (f₁ «local»).map _ = _
      rw [hx]
      rfl
    refine ⟨_, effects_cons_ok hcopy, fun reg' heq => ?_, fun reg' hne => ?_⟩
    · obtain rfl := Option.some.inj heq
      rw [Function.update_self, hx]
    · exact Function.update_of_ne (fun heq => hne (by rw [heq])) _ _

/-- Behind that copy, the last instruction computes the same, for the local. -/
lemma effects_setResult {f₁ : RegFile} (hresult : op.resultReg = some result)
    (h : effects float f₁ [⟨instrOffset, op⟩ :: params] = some outcome)
    (hlocal : (f₁ «local»).isSome) (hthere : ∀ reg, preserved = some reg → (f₁ reg).isSome)
    (hpreserved : ∀ reg, preserved = some reg → reg ≠ «local» ∧ ¬ op.Uses reg ∧
      ∀ word ∈ params, ¬ word.op.Uses reg) {copyOffset : Nat} :
    ∃ (f₂ : RegFile) (computed : Except TrapCode UntypedVal),
      outcome = computed.map (fun x => Function.update f₁ result (some x)) ∧
      effects float f₁ ((preserved.map fun reg => [⟨copyOffset, .copy reg «local»⟩]).toList ++
        [⟨instrOffset, op.setResult «local»⟩ :: params]) =
          some (computed.map fun x => Function.update f₂ «local» (some x)) ∧
      (∀ reg, preserved = some reg → f₂ reg = f₁ «local») ∧
      ∀ reg, preserved ≠ some reg → f₂ reg = f₁ reg := by
  obtain ⟨f₂, hcopies, hold, hothers⟩ := effects_preserve float copyOffset hlocal hthere
  have houtcome : effect float f₁ (⟨instrOffset, op⟩ :: params) = some outcome := by
    obtain ⟨f, hword, hend⟩ | ⟨trapCode, hword, rfl⟩ := effects_cons_cases h
    · rw [hword, ← Option.some.inj hend]
    · exact hword
  obtain ⟨-, computed, hcomputed, rfl⟩ := effect_computed hresult houtcome
  have hsame : op.computeWith float f₂ (params.map Instruction.op) = some computed := by
    rw [← hcomputed]
    refine computeWith_congr fun word hword reg huses => hothers reg fun hreg => ?_
    obtain ⟨-, hop, hparams⟩ := hpreserved reg hreg
    obtain rfl | hword := List.mem_cons.1 hword
    · exact hop huses
    · obtain ⟨param, hparam, rfl⟩ := List.mem_map.1 hword
      exact hparams param hparam huses
  have hlocalThere : (f₂ «local»).isSome := by
    rw [hothers «local» fun hreg => (hpreserved «local» hreg).1 rfl]
    exact hlocal
  refine ⟨f₂, computed, rfl, ?_, hold, hothers⟩
  rw [effects_append_ok hcopies]
  rw [← computeWith_setResult op «local»] at hsame
  have hresult' := resultReg_setResult hresult «local»
  cases computed with
  | ok x =>
    rw [effects_cons_ok (effect_compute hresult' hlocalThere hsame)]
    rfl
  | error trapCode => exact effects_cons_error (effect_compute_error hresult' hlocalThere hsame)

/-- The last instruction computes the local instead, behind the copy that preserves it. -/
lemma setsLocal_relink {value : Reg}
    (hrelink : word.op.relinkResult lenResults «local» value = some op') (hvalue : value ≠ «local»)
    (hspace : ¬ (space value = .local ∨ space value = .preserve))
    (hpreserved : ∀ reg, preserved = some reg → reg ≠ «local» ∧
      ∀ word' ∈ word :: params, ¬ word'.op.Uses reg) :
    SetsLocal float consts space (init ++ [word :: params])
      (init ++ (preserved.map fun reg => [⟨instrOffset, .copy reg «local»⟩]).toList ++
        [⟨word.instrOffset, op'⟩ :: params]) «local» (.register value) preserved := by
  have hpreserved' : ∀ reg, preserved = some reg → reg ≠ «local» ∧ ¬ word.op.Uses reg ∧
      ∀ param ∈ params, ¬ param.op.Uses reg := fun reg hreg =>
    ⟨(hpreserved reg hreg).1, List.forall_mem_cons.1 (hpreserved reg hreg).2⟩
  have hthereAt : ∀ {f₀ f₁ : RegFile}, effects float f₀ init = some (.ok f₁) →
      (∀ reg, preserved = some reg → (f₀ reg).isSome) →
      ∀ reg, preserved = some reg → (f₁ reg).isSome :=
    fun hinit hthere reg hreg => effects_isSome hinit (hthere reg hreg)
  rw [List.append_assoc]
  obtain ⟨rfl, hresult | hcall⟩ := relinkResult_cases hrelink
  · refine ⟨fun {f₀ f x} h _ hlocal hthere hx => ?_, fun {f₀ trapCode} h hlocal hthere => ?_⟩
    · obtain ⟨_, -, hcases⟩ | ⟨f₁, hinit, hlast⟩ := effects_append_cases h
      · cases hcases
      obtain ⟨f₂, computed, houtcome, heffects, hold, hothers⟩ := effects_setResult hresult hlast
        (effects_isSome hinit hlocal) (hthereAt hinit hthere) hpreserved'
      cases computed with
      | error => cases houtcome
      | ok y =>
        obtain rfl := Except.ok.inj houtcome
        have hx : Function.update f₁ value (some y) value = some x := hx
        rw [Function.update_self] at hx
        rw [effects_append_ok hinit]
        refine ⟨Function.update f₂ «local» (some y), heffects, ?_, fun reg hreg => ?_,
          fun reg hne hother hreg => ?_⟩
        · rw [Function.update_self, hx]
        · show _ = Function.update f₁ value (some y) «local»
          rw [Function.update_of_ne (hpreserved reg hreg).1, hold reg hreg,
            Function.update_of_ne hvalue.symm]
        · have hneValue : reg ≠ value := fun heq => hspace (heq ▸ hreg (by rw [heq]))
          show _ = Function.update f₁ value (some y) reg
          rw [Function.update_of_ne hne, hothers reg hother, Function.update_of_ne hneValue]
    · obtain ⟨_, hinit, hcases⟩ | ⟨f₁, hinit, hlast⟩ := effects_append_cases h
      · rw [Except.error.inj hcases]
        exact effects_append_error hinit
      obtain ⟨f₂, computed, houtcome, heffects, -⟩ := effects_setResult hresult hlast
        (effects_isSome hinit hlocal) (hthereAt hinit hthere) hpreserved'
      cases computed with
      | ok => cases houtcome
      | error trapCode' =>
        rw [effects_append_ok hinit, heffects, Except.error.inj houtcome]
        rfl
  · -- a call has no effect here, so that neither case arises
    have hnone : ∀ f₁ outcome, effects float f₁ [word :: params] ≠ some outcome := by
      intro f₁ outcome hlast
      obtain ⟨_, hword, -⟩ | ⟨_, hword, -⟩ := effects_cons_cases hlast
      · exact absurd (hword.symm.trans (effect_call hcall)) (Option.some_ne_none _)
      · exact absurd (hword.symm.trans (effect_call hcall)) (Option.some_ne_none _)
    refine ⟨fun {f₀ f x} h _ _ _ _ => ?_, fun {f₀ trapCode} h _ _ => ?_⟩
    · obtain ⟨_, -, hcases⟩ | ⟨f₁, -, hlast⟩ := effects_append_cases h
      · cases hcases
      · exact absurd hlast (hnone _ _)
    · obtain ⟨_, hinit, hcases⟩ | ⟨f₁, -, hlast⟩ := effects_append_cases h
      · rw [Except.error.inj hcases]
        exact effects_append_error hinit
      · exact absurd hlast (hnone _ _)

lemma not_uses_of_keepsLast {lastInstr : Nat} {reg : Reg}
    (h : enc.keepsLast (some reg) lastInstr = .ok false) :
    ∀ word ∈ enc.instrs.drop lastInstr, ¬ word.op.Uses reg := by
  intro word hword huses
  obtain ⟨next, -, h⟩ := bind_eq_ok.1 h
  have hany := (Bool.or_eq_false_iff.1 (Except.ok.inj h)).2
  exact List.any_eq_false.1 hany word hword (decide_eq_true huses)

/-- The constants of the function after `local.set`. -/
lemma encodeLocalSet_extends
    (hop : enc.encodeLocalSet float instrOffset consts «local» value preserved fuelInfo lenResults
      space = .ok (enc', consts')) : consts.Extends consts' := by
  have hcopies : enc.copyLocalSet float instrOffset consts «local» value preserved fuelInfo =
      .ok (enc', consts') → consts.Extends consts' := by
    intro hop
    obtain ⟨enc₁, -, hop⟩ := bind_eq_ok.1 hop
    obtain ⟨⟨instr, enc₂, consts₂⟩, hcopy, hop⟩ := bind_eq_ok.1 hop
    obtain ⟨-, rfl⟩ := Prod.mk.inj (Except.ok.inj hop)
    exact encodeCopy_extends hcopy
  unfold InstrEncoder.encodeLocalSet at hop
  dsimp only at hop
  split at hop
  case h_2 => exact hcopies hop
  case h_1 returned lastInstr _ =>
    split at hop
    case isTrue => exact hcopies hop
    case isFalse =>
      obtain ⟨keeps, -, hop⟩ := bind_eq_ok.1 hop
      cases keeps with
      | true => exact hcopies hop
      | false =>
        obtain ⟨relinked, -, hop⟩ := bind_eq_ok.1 hop
        cases relinked with
        | none => exact hcopies hop
        | some enc₁ =>
          obtain ⟨-, rfl⟩ := Prod.mk.inj (Except.ok.inj hop)
          exact .refl consts

/-- What `local.set` adds to the block, whether the last instruction is given the local or the value
is copied. -/
lemma setsLocal_encodeLocalSet (h : enc.Chunks front top chunks) (hpos : 0 ≤ «local».toInt)
    (hlast : «local».toInt ≤ 32766) (hlt : «local».toInt < top)
    (hvalue : value ≠ .register «local»)
    (hpreserved : ∀ reg, preserved = some reg →
      0 ≤ reg.toInt ∧ reg ≠ «local» ∧ value ≠ .register reg)
    (hop : enc.encodeLocalSet float instrOffset consts «local» value preserved fuelInfo lenResults
      space = .ok (enc', consts')) :
    ∃ chunks', enc'.Chunks front top chunks' ∧
      SetsLocal float consts' space chunks chunks' «local» value preserved := by
  unfold InstrEncoder.encodeLocalSet at hop
  dsimp only at hop
  split at hop
  case h_2 => exact setsLocal_copyLocalSet h hpos hlast hlt hpreserved hop
  case h_1 returned lastInstr hlastInstr =>
    split at hop
    case isTrue => exact setsLocal_copyLocalSet h hpos hlast hlt hpreserved hop
    case isFalse hspace =>
      obtain ⟨keeps, hkeeps, hop⟩ := bind_eq_ok.1 hop
      cases keeps with
      | true => exact setsLocal_copyLocalSet h hpos hlast hlt hpreserved hop
      | false =>
        obtain ⟨relinked, hrelink, hop⟩ := bind_eq_ok.1 hop
        cases relinked with
        | none => exact setsLocal_copyLocalSet h hpos hlast hlt hpreserved hop
        | some enc₁ =>
          obtain ⟨rfl, rfl⟩ := Prod.mk.inj (Except.ok.inj hop)
          obtain ⟨init, word, params, op', hinit, hdrop, hresult, hchunks⟩ :=
            chunks_relinkLocalSet h hlt hlastInstr hrelink
          rw [hinit]
          refine ⟨_, hchunks, setsLocal_relink hresult ?_ hspace fun reg hreg => ?_⟩
          · exact fun heq => hvalue (by rw [heq])
          · exact ⟨(hpreserved reg hreg).2.1, hdrop ▸ not_uses_of_keepsLast (hreg ▸ hkeeps)⟩

end Locals

end MotokoDebugger.Translator
