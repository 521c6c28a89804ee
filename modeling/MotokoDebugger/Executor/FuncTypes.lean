import MotokoDebugger.Executor.State
import MotokoDebugger.Lib.Tables
import Std.Data.TreeMap.Lemmas

/-!
# Function types

`func/func_type.rs`, `engine/func_types.rs` and the `DedupArena` of the collections, which with the
default features finds its entities in a `BTreeMap`. There is one engine, so that the guard of an
index, the number of its engine, is left out.

* `FuncTypeInner`: a function type, inline or on the heap, with its derived order.
* `DedupArena.alloc`: the index of an entity, a new one if the entity is new.
* `FuncTypeRegistry.allocAll`: types as modules and host functions register them.
* `FuncTypeInner.holds_new`: a type gives back the lists it was built from.
* `Resolves.index_iff`: types have one index iff they have the same lists.
-/

namespace MotokoDebugger

open Std

/-! ## Function types -/

/-- `target_pointer_width`. -/
inductive PointerWidth where
  | w32 | w64
deriving Repr, DecidableEq

/-- `FuncTypeInner`, where an array and a slice are lists. -/
inductive FuncTypeInner where
  | inline_ (lenParams lenResults : BitVec 8) (paramsResults : List ValType)
  | big (lenParams : BitVec 16) (paramsResults : List ValType)
deriving Repr, DecidableEq

namespace FuncTypeInner

/-- `INLINE_SIZE`. -/
def inlineSize : PointerWidth → Nat
  | .w32 => 14
  | .w64 => 21

/-- `MAX_LEN_PARAMS`. -/
def maxLenParams : Nat := 1000

/-- `MAX_LEN_RESULTS`. -/
def maxLenResults : Nat := 1000

/-- `try_new_small`. -/
def tryNewSmall (width : PointerWidth) (params results : List ValType) : Option FuncTypeInner :=
  if inlineSize width < params.length + results.length then none
  else
    let lenParams := BitVec.ofNat 8 params.length
    let lenResults := BitVec.ofNat 8 results.length
    let cells := List.replicate (inlineSize width) ValType.i32
    some (inline_ lenParams lenResults (overwrite cells 0 (params ++ results)))

/-- `new`; `none` is a panic. -/
def new (width : PointerWidth) (params results : List ValType) : Option FuncTypeInner :=
  match tryNewSmall width params results with
  | some small => some small
  | none =>
    if params.length ≤ maxLenParams ∧ results.length ≤ maxLenResults then
      some (big (BitVec.ofNat 16 params.length) (params ++ results))
    else none

/-- `params`; `none` is a panic, here and below. -/
def params : FuncTypeInner → Option (List ValType)
  | inline_ lenParams _ paramsResults => slice? paramsResults 0 lenParams.toNat
  | big lenParams paramsResults => slice? paramsResults 0 lenParams.toNat

/-- `results`. -/
def results : FuncTypeInner → Option (List ValType)
  | inline_ lenParams lenResults paramsResults =>
    slice? paramsResults lenParams.toNat lenResults.toNat
  | big lenParams paramsResults =>
    if lenParams.toNat ≤ paramsResults.length then some (paramsResults.drop lenParams.toNat)
    else none

/-- `len_params`. -/
def lenParams : FuncTypeInner → BitVec 16
  | inline_ lenParams _ _ => lenParams.setWidth 16
  | big lenParams _ => lenParams

/-- `len_results`. -/
def lenResults : FuncTypeInner → BitVec 16
  | inline_ _ lenResults _ => lenResults.setWidth 16
  | big lenParams paramsResults => BitVec.ofNat 16 paramsResults.length - lenParams

/-- `params_results`. -/
def paramsResults : FuncTypeInner → Option (List ValType × List ValType)
  | inline_ lenParams lenResults paramsResults => do
    let both ← slice? paramsResults 0 (lenParams.toNat + lenResults.toNat)
    return both.splitAt lenParams.toNat
  | big lenParams paramsResults =>
    if lenParams.toNat ≤ paramsResults.length then some (paramsResults.splitAt lenParams.toNat)
    else none

end FuncTypeInner

/-! ### The derived order -/

/-- The position of a type in the enumeration. -/
def ValType.ordinal : ValType → Nat
  | .i32 => 0
  | .i64 => 1
  | .f32 => 2
  | .f64 => 3
  | .funcRef => 4
  | .externRef => 5

namespace FuncTypeInner

/-- The fields of a type in their order, behind the position of its variant. -/
def fields : FuncTypeInner → Nat × Nat × Nat × List Nat
  | inline_ lenParams lenResults paramsResults =>
    (0, lenParams.toNat, lenResults.toNat, paramsResults.map ValType.ordinal)
  | big lenParams paramsResults => (1, lenParams.toNat, 0, paramsResults.map ValType.ordinal)

/-- The derived `cmp`: variants, then fields one after the other. -/
def cmp (self other : FuncTypeInner) : Ordering :=
  (compare self.fields.1 other.fields.1).then <|
    (compare self.fields.2.1 other.fields.2.1).then <|
      (compare self.fields.2.2.1 other.fields.2.2.1).then <|
        compare self.fields.2.2.2 other.fields.2.2.2

lemma fields_inj {ty ty' : FuncTypeInner} (h : ty.fields = ty'.fields) : ty = ty' := by
  have hordinal : Function.Injective ValType.ordinal := by
    intro a b hab
    cases a <;> cases b <;> first | rfl | cases hab
  cases ty <;> cases ty' <;> simp only [fields, Prod.mk.injEq] at h
  case inline_.inline_ =>
    obtain ⟨-, hparams, hresults, htypes⟩ := h
    rw [BitVec.eq_of_toNat_eq hparams, BitVec.eq_of_toNat_eq hresults,
      hordinal.list_map htypes]
  case big.big =>
    obtain ⟨-, hparams, -, htypes⟩ := h
    rw [BitVec.eq_of_toNat_eq hparams, hordinal.list_map htypes]
  case inline_.big => exact absurd h.1 (by decide)
  case big.inline_ => exact absurd h.1 (by decide)

lemma cmp_eq : cmp = compareLex (compareOn fun ty => ty.fields.1)
    (compareLex (compareOn fun ty => ty.fields.2.1)
      (compareLex (compareOn fun ty => ty.fields.2.2.1) (compareOn fun ty => ty.fields.2.2.2))) :=
  rfl

instance : TransCmp cmp := cmp_eq ▸ inferInstance

/-- The order of types is one of their structures. -/
instance : LawfulEqCmp cmp where
  eq_of_compare {self other} h := by
    simp only [cmp_eq, compareLex_eq_eq, compareOn, Std.compare_eq_iff_eq] at h
    obtain ⟨hvariant, hparams, hresults, htypes⟩ := h
    apply fields_inj
    exact Prod.ext hvariant (Prod.ext hparams (Prod.ext hresults htypes))

end FuncTypeInner

/-! ## The registry -/

/-- `DedupArena`, where indices are 32 bits wide. -/
structure DedupArena (E : Type) (cmp : E → E → Ordering) where
  entity2idx : TreeMap E Nat cmp := ∅
  entities : List E := []

namespace DedupArena

variable {E : Type} {cmp : E → E → Ordering}

/-- `Arena::next_index`; `none` is a panic. -/
def nextIndex (arena : DedupArena E cmp) : Option Nat :=
  if arena.entities.length < 2 ^ 32 then some arena.entities.length else none

/-- `alloc`. -/
def alloc (arena : DedupArena E cmp) (entity : E) : Option (Nat × DedupArena E cmp) :=
  match arena.entity2idx[entity]? with
  | some index => some (index, arena)
  | none => do
    let index ← arena.nextIndex
    return (index, {
      entity2idx := arena.entity2idx.insert entity index
      entities := arena.entities ++ [entity] })

/-- `get`. -/
def get (arena : DedupArena E cmp) (index : Nat) : Option E := arena.entities[index]?

/-- Every entity is found at its index, which no other one has. -/
def Valid (arena : DedupArena E cmp) : Prop :=
  ∀ entity index, arena.entity2idx[entity]? = some index ↔ arena.get index = some entity

section Alloc

variable {arena arena' : DedupArena E cmp} {entity other : E} {index : Nat}

lemma valid_empty [TransCmp cmp] : Valid ({} : DedupArena E cmp) := by
  intro entity index
  show (∅ : TreeMap E Nat cmp)[entity]? = _ ↔ ([] : List E)[index]? = _
  rw [TreeMap.getElem?_emptyc, List.getElem?_nil]
  simp

/-- The entity is at the index that it is allocated at, where it stays. -/
structure Allocated (arena : DedupArena E cmp) (entity : E) (index : Nat)
    (arena' : DedupArena E cmp) : Prop where
  valid : arena'.Valid
  get_self : arena'.get index = some entity
  keeps : ∀ {index' entity'}, arena.get index' = some entity' → arena'.get index' = some entity'

lemma Valid.allocated [TransCmp cmp] [LawfulEqCmp cmp] (h : arena.Valid)
    (halloc : arena.alloc entity = some (index, arena')) :
    arena.Allocated entity index arena' := by
  rw [alloc] at halloc
  cases hfound : arena.entity2idx[entity]? with
  | some index' =>
    rw [hfound] at halloc
    cases halloc
    exact ⟨h, (h entity index).1 hfound, id⟩
  | none =>
    rw [hfound] at halloc
    obtain ⟨next, hnext, halloc⟩ := Option.bind_eq_some_iff.1 halloc
    cases halloc
    have hindex : index = arena.entities.length := by
      rw [nextIndex] at hnext
      split at hnext
      · exact (Option.some.inj hnext).symm
      · cases hnext
    refine ⟨?_, ?_, ?_⟩
    · intro entity' index'
      show (arena.entity2idx.insert entity index)[entity']? = _ ↔
        (arena.entities ++ [entity])[index']? = _
      have hold := h entity' index'
      rw [get] at hold
      rw [TreeMap.getElem?_insert, Tables.getElem?_concat_eq_some, ← hold]
      by_cases hentity : entity = entity'
      · subst hentity
        rw [if_pos ReflCmp.compare_self, hfound, hindex]
        simp [eq_comm]
      · rw [if_neg (mt LawfulEqCmp.eq_of_compare hentity)]
        simp [hentity]
    · exact Tables.getElem?_concat_eq_some.2 (.inr ⟨hindex, rfl⟩)
    · intro index' entity' hget
      exact Tables.getElem?_concat_eq_some.2 (.inl hget)

end Alloc

end DedupArena

/-- `FuncTypeRegistry`. -/
structure FuncTypeRegistry where
  funcTypes : DedupArena FuncTypeInner FuncTypeInner.cmp := {}

namespace FuncTypeRegistry

/-- `alloc_func_type`. -/
def allocFuncType (registry : FuncTypeRegistry) (funcType : FuncTypeInner) :
    Option (Nat × FuncTypeRegistry) := do
  let allocated ← registry.funcTypes.alloc funcType
  return (allocated.1, { funcTypes := allocated.2 })

/-- `resolve_func_type`; `none` is a panic. -/
def resolveFuncType (registry : FuncTypeRegistry) (funcType : Nat) : Option FuncTypeInner :=
  registry.funcTypes.get funcType

/-- Types are made from their lists and registered, one after the other: the indices of the types
in their order. -/
def allocAll (width : PointerWidth) (registry : FuncTypeRegistry) :
    List FuncType → Option (List Nat × FuncTypeRegistry)
  | [] => some ([], registry)
  | ty :: types => do
    let inner ← FuncTypeInner.new width ty.params ty.results
    let allocated ← registry.allocFuncType inner
    let rest ← allocated.2.allocAll width types
    return (allocated.1 :: rest.1, rest.2)

end FuncTypeRegistry

/-! ## A type is its two lists -/

namespace FuncTypeInner

section Lists

variable {width : PointerWidth} {params results : List ValType} {ty : FuncTypeInner}

/-- What a type says about its lists. -/
structure Holds (ty : FuncTypeInner) (params results : List ValType) : Prop where
  params_eq : ty.params = some params
  results_eq : ty.results = some results
  paramsResults_eq : ty.paramsResults = some (params, results)
  lenParams_eq : ty.lenParams.toNat = params.length
  lenResults_eq : ty.lenResults.toNat = results.length

lemma inlineSize_le (width : PointerWidth) : inlineSize width ≤ 21 := by
  cases width <;> decide

lemma slice?_middle (l₁ l₂ l₃ : List ValType) :
    slice? (l₁ ++ (l₂ ++ l₃)) l₁.length l₂.length = some l₂ := by
  have hle : l₁.length + l₂.length ≤ (l₁ ++ (l₂ ++ l₃)).length := by
    simp only [List.length_append]
    omega
  rw [slice?, if_pos hle, List.drop_left, List.take_left]

/-- The lists are at the beginning of the array, before the cells that are not used. -/
lemma holds_inline {lenParams lenResults : BitVec 8} (unused : List ValType)
    (hparams : lenParams.toNat = params.length) (hresults : lenResults.toNat = results.length) :
    (inline_ lenParams lenResults (params ++ (results ++ unused))).Holds params results where
  params_eq := by
    rw [FuncTypeInner.params, hparams]
    exact slice?_middle [] params (results ++ unused)
  results_eq := by
    rw [FuncTypeInner.results, hparams, hresults]
    exact slice?_middle params results unused
  paramsResults_eq := by
    rw [FuncTypeInner.paramsResults, hparams, hresults, ← List.append_assoc, ← List.length_append]
    have hboth := slice?_middle [] (params ++ results) unused
    rw [List.nil_append, List.length_nil] at hboth
    rw [hboth]
    simp
  lenParams_eq := by
    rw [FuncTypeInner.lenParams, BitVec.toNat_setWidth, hparams]
    omega
  lenResults_eq := by
    rw [FuncTypeInner.lenResults, BitVec.toNat_setWidth, hresults]
    omega

lemma holds_tryNewSmall (h : tryNewSmall width params results = some ty) :
    ty.Holds params results := by
  rw [tryNewSmall] at h
  split at h
  · cases h
  · rename_i hle
    cases h
    have hsize := inlineSize_le width
    rw [overwrite, List.take_zero, List.nil_append, List.append_assoc]
    apply holds_inline
    · rw [BitVec.toNat_ofNat]
      omega
    · rw [BitVec.toNat_ofNat]
      omega

lemma holds_big (hparams : params.length ≤ maxLenParams)
    (hresults : results.length ≤ maxLenResults) :
    (big (BitVec.ofNat 16 params.length) (params ++ results)).Holds params results := by
  rw [maxLenParams] at hparams
  rw [maxLenResults] at hresults
  have hlen : (BitVec.ofNat 16 params.length).toNat = params.length := by
    rw [BitVec.toNat_ofNat]
    omega
  have hle : params.length ≤ (params ++ results).length := by
    rw [List.length_append]
    omega
  constructor
  · rw [FuncTypeInner.params, hlen]
    exact slice?_middle [] params results
  · rw [FuncTypeInner.results, hlen, if_pos hle, List.drop_left]
  · rw [FuncTypeInner.paramsResults, hlen, if_pos hle]
    simp
  · exact hlen
  · rw [FuncTypeInner.lenResults, BitVec.toNat_sub, hlen, BitVec.toNat_ofNat, List.length_append]
    omega

/-- A type gives back the lists it was built from. -/
lemma holds_new (h : new width params results = some ty) : ty.Holds params results := by
  rw [new] at h
  cases hsmall : tryNewSmall width params results with
  | some small =>
    rw [hsmall] at h
    cases h
    exact holds_tryNewSmall hsmall
  | none =>
    rw [hsmall] at h
    dsimp only at h
    split at h
    · rename_i hlen
      cases h
      exact holds_big hlen.1 hlen.2
    · cases h

/-- Every two lists up to the limits have a type. -/
lemma new_isSome : (new width params results).isSome ↔
    params.length ≤ maxLenParams ∧ results.length ≤ maxLenResults := by
  have hsize := inlineSize_le width
  rw [new]
  cases hsmall : tryNewSmall width params results with
  | some small =>
    rw [tryNewSmall] at hsmall
    split at hsmall
    · cases hsmall
    · simp only [maxLenParams, maxLenResults, Option.isSome_some, true_iff]
      omega
  | none =>
    dsimp only
    split
    · rename_i hlen
      exact ⟨fun _ => hlen, fun _ => rfl⟩
    · rename_i hlen
      simp [hlen]

end Lists

end FuncTypeInner

/-! ## An index is a type -/

namespace FuncTypeRegistry

variable {width : PointerWidth} {registry registry' : FuncTypeRegistry} {types : List FuncType}
  {indices : List Nat} {ty ty' : FuncType} {index index' : Nat}

/-- The index has the type, as it was made. -/
def Resolves (width : PointerWidth) (registry : FuncTypeRegistry) (ty : FuncType) (index : Nat) :
    Prop :=
  ∃ inner, registry.resolveFuncType index = some inner ∧
    FuncTypeInner.new width ty.params ty.results = some inner

/-- An index was returned for a type. -/
def Registered (types : List FuncType) (indices : List Nat) (ty : FuncType) (index : Nat) : Prop :=
  ∃ i : Nat, types[i]? = some ty ∧ indices[i]? = some index

/-- What registering types does: the indices there were keep their types. -/
lemma allocAll_spec (hvalid : registry.funcTypes.Valid)
    (hrun : registry.allocAll width types = some (indices, registry')) :
    registry'.funcTypes.Valid ∧
      (∀ {index inner}, registry.resolveFuncType index = some inner →
        registry'.resolveFuncType index = some inner) ∧
      ∀ {ty index}, Registered types indices ty index → Resolves width registry' ty index := by
  induction types generalizing registry indices with
  | nil =>
    cases hrun
    refine ⟨hvalid, id, ?_⟩
    intro ty index ⟨i, hty, _⟩
    cases hty
  | cons first types ih =>
    obtain ⟨inner, hinner, hrun⟩ := Option.bind_eq_some_iff.1 hrun
    obtain ⟨allocated, halloc, hrun⟩ := Option.bind_eq_some_iff.1 hrun
    obtain ⟨rest, hrest, hrun⟩ := Option.bind_eq_some_iff.1 hrun
    cases hrun
    obtain ⟨next, hnext, halloc⟩ := Option.bind_eq_some_iff.1 halloc
    cases halloc
    have hallocated := hvalid.allocated hnext
    obtain ⟨hvalid', hkeeps, hresolves⟩ := ih hallocated.valid hrest
    refine ⟨hvalid', fun h => hkeeps (hallocated.keeps h), ?_⟩
    intro ty index ⟨i, hty, hindex⟩
    cases i with
    | zero =>
      cases hty
      cases hindex
      exact ⟨inner, hkeeps hallocated.get_self, hinner⟩
    | succ i => exact hresolves ⟨i, hty, hindex⟩

/-- An index gives back the lists of its type. -/
lemma Resolves.holds (h : Resolves width registry ty index) :
    ∃ inner, registry.resolveFuncType index = some inner ∧ inner.Holds ty.params ty.results := by
  obtain ⟨inner, hresolve, hnew⟩ := h
  exact ⟨inner, hresolve, FuncTypeInner.holds_new hnew⟩

/-- Types have the same index iff they have the same lists. -/
lemma Resolves.index_iff (hvalid : registry.funcTypes.Valid) (h : Resolves width registry ty index)
    (h' : Resolves width registry ty' index') : index = index' ↔ ty = ty' := by
  obtain ⟨inner, hresolve, hnew⟩ := h
  obtain ⟨inner', hresolve', hnew'⟩ := h'
  constructor
  · intro heq
    rw [heq, hresolve'] at hresolve
    cases hresolve
    have hholds := FuncTypeInner.holds_new hnew
    have hholds' := FuncTypeInner.holds_new hnew'
    have hparams := hholds.params_eq.symm.trans hholds'.params_eq
    have hresults := hholds.results_eq.symm.trans hholds'.results_eq
    exact congrArg₂ FuncType.mk (Option.some.inj hparams) (Option.some.inj hresults)
  · intro heq
    rw [heq, hnew'] at hnew
    cases hnew
    have hfound := (hvalid inner index).2 hresolve
    rw [(hvalid inner index').2 hresolve'] at hfound
    exact (Option.some.inj hfound).symm

end FuncTypeRegistry

end MotokoDebugger
