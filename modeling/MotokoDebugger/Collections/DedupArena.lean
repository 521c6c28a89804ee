import Mathlib.Data.List.Dedup
import MotokoDebugger.Collections.Arena
import MotokoDebugger.Executor.FuncTypes

/-!
# Deduplicating arenas

`collections/src/arena/dedup.rs`, with the `BTreeMap` of the default features and any type of
indices.

* `DedupArena`: an arena and the map that finds its entities.
* `Found`: every entity is found at an index that it has.
* `build`: an arena after a mix of `from_iter`, `alloc` and `clear`.
* `Deduplicated`: what such an arena is for.
* `Refines.alloc`: function types are in such an arena.
-/

namespace MotokoDebugger

namespace Collections

open Std ArenaIndex

/-- `DedupArena`. -/
structure DedupArena (Idx T : Type) (cmp : T → T → Ordering) where
  entity2idx : TreeMap T Idx cmp := ∅
  entities : Arena Idx T := {}

/-- How an arena comes about. -/
inductive DedupEvent (T : Type) where
  | fromIter (iter : List T)
  | alloc (entity : T)
  | clear

namespace DedupArena

variable {Idx T : Type} {cmp : T → T → Ordering}

/-- `new`. -/
def new : DedupArena Idx T cmp := {}

/-- `len`. -/
def len (arena : DedupArena Idx T cmp) : Nat := arena.entities.len

/-- `clear`. -/
def clear (arena : DedupArena Idx T cmp) : DedupArena Idx T cmp where
  entity2idx := ∅
  entities := arena.entities.clear

/-- The entries that a map is collected from; a later one replaces an earlier one. -/
def insertPairs (map : TreeMap T Idx cmp) (pairs : List (Idx × T)) : TreeMap T Idx cmp :=
  pairs.foldl (fun map pair => map.insert pair.2 pair.1) map

variable [ArenaIndex Idx]

/-- `alloc`; `none` is a panic. -/
def alloc (arena : DedupArena Idx T cmp) (entity : T) : Option (Idx × DedupArena Idx T cmp) :=
  match arena.entity2idx[entity]? with
  | some index => some (index, arena)
  | none => do
    let index ← arena.entities.nextIndex
    let allocated ← arena.entities.alloc entity
    return (index, { entity2idx := arena.entity2idx.insert entity index, entities := allocated.2 })

/-- `get`. -/
def get (arena : DedupArena Idx T cmp) (index : Idx) : Option T := arena.entities.get index

/-- `from_iter`. -/
def fromIter (iter : List T) : Option (DedupArena Idx T cmp) := do
  let entities : Arena Idx T := .fromIter iter
  let pairs ← entities.iter.collect
  return { entity2idx := insertPairs ∅ pairs, entities := entities }

/-! ## Runs -/

/-- One more event. -/
def step (arena : DedupArena Idx T cmp) : DedupEvent T → Option (DedupArena Idx T cmp)
  | .fromIter iter => fromIter iter
  | .alloc entity => (arena.alloc entity).map Prod.snd
  | .clear => some arena.clear

/-- The arena behind all of the events. -/
def run (arena : DedupArena Idx T cmp) (events : List (DedupEvent T)) :
    Option (DedupArena Idx T cmp) := events.foldlM step arena

/-- The entities that one more event leaves. -/
def heldAfter (held : List T) : DedupEvent T → List T
  | .fromIter iter => iter
  | .alloc entity => held ++ [entity]
  | .clear => []

/-- The entities since the arena was empty, as often as they come. -/
def held (events : List (DedupEvent T)) : List T := events.foldl heldAfter []

/-- What one more event leaves of the last iterator. -/
def iterAfter (iter : List T) : DedupEvent T → List T
  | .fromIter iter' => iter'
  | .alloc _ => iter
  | .clear => []

/-- The entities of the last iterator, if the arena was not cleared since then. -/
def lastIter (events : List (DedupEvent T)) : List T := events.foldl iterAfter []

/-- An arena has every entity once. -/
structure Deduplicated [DecidableEq T] (arena : DedupArena Idx T cmp) (held : List T) : Prop where
  /-- Indices with equal entities are the same. -/
  distinct : ∀ (index index' : Idx) (entity : T), arena.get index = some entity →
    arena.get index' = some entity → index = index'
  /-- An entity that is allocated is behind its index. -/
  get_alloc : ∀ (entity : T) (index : Idx) (arena' : DedupArena Idx T cmp),
    arena.alloc entity = some (index, arena') → arena'.get index = some entity
  /-- It is added iff it was not there. -/
  len_alloc : ∀ (entity : T) (index : Idx) (arena' : DedupArena Idx T cmp),
    arena.alloc entity = some (index, arena') →
      arena'.len = if entity ∈ arena.entities.entities then arena.len else arena.len + 1
  /-- The others keep their indices. -/
  keeps_alloc : ∀ (entity : T) (index : Idx) (arena' : DedupArena Idx T cmp),
    arena.alloc entity = some (index, arena') → ∀ (index' : Idx) (other : T),
      arena.get index' = some other → arena'.get index' = some other
  /-- It is not allocated only if it is new and there is no index for it. -/
  isSome_alloc : ∀ entity : T, (arena.alloc entity).isSome ↔
    entity ∈ arena.entities.entities ∨ (fromUsize arena.len : Option Idx).isSome
  /-- The length counts the entities without their repetitions. -/
  len_eq : arena.len = held.dedup.length

/-! ## Entities are found -/

/-- The map finds the entities of the arena, each at an index that it has. -/
structure Found (arena : DedupArena Idx T cmp) : Prop where
  get_eq : ∀ (entity : T) (index : Idx), arena.entity2idx[entity]? = some index →
    arena.get index = some entity
  of_mem : ∀ entity ∈ arena.entities.entities, arena.entity2idx[entity]? ≠ none

section Steps

variable {arena arena' : DedupArena Idx T cmp} {entity : T} {index : Idx}

lemma mem_of_get (h : arena.get index = some entity) : entity ∈ arena.entities.entities :=
  List.mem_of_getElem? h

lemma Found.alloc_of_mem (h : arena.Found) (hmem : entity ∈ arena.entities.entities) :
    ∃ index, arena.alloc entity = some (index, arena) ∧ arena.get index = some entity := by
  cases hfound : arena.entity2idx[entity]? with
  | none => exact absurd hfound (h.of_mem entity hmem)
  | some index =>
    refine ⟨index, ?_, h.get_eq entity index hfound⟩
    rw [alloc, hfound]

/-- A new entity is behind the others. -/
lemma Found.alloc_of_notMem (h : arena.Found) (hnew : entity ∉ arena.entities.entities) :
    arena.alloc entity = arena.entities.nextIndex.map fun index =>
      (index, ⟨arena.entity2idx.insert entity index, ⟨arena.entities.entities ++ [entity]⟩⟩) := by
  cases hfound : arena.entity2idx[entity]? with
  | some index => exact absurd (mem_of_get (h.get_eq entity index hfound)) hnew
  | none =>
    rw [alloc, hfound]
    cases hnext : arena.entities.nextIndex with
    | none => rfl
    | some index =>
      show (arena.entities.alloc entity).bind _ = _
      rw [Arena.alloc, hnext]
      rfl

/-- An entity is not allocated only if it is new and there is no index for it. -/
lemma Found.isSome_alloc (h : arena.Found) (entity : T) : (arena.alloc entity).isSome ↔
    entity ∈ arena.entities.entities ∨ (fromUsize arena.len : Option Idx).isSome := by
  by_cases hmem : entity ∈ arena.entities.entities
  · obtain ⟨index, halloc, _⟩ := h.alloc_of_mem hmem
    rw [halloc]
    exact iff_of_true rfl (.inl hmem)
  · rw [h.alloc_of_notMem hmem, Option.isSome_map]
    exact (or_iff_right hmem).symm

lemma get_concat (map : TreeMap T Idx cmp) (entities : List T)
    (hindex : (fromUsize entities.length : Option Idx) = some index) {index' : Idx} {other : T} :
    get (⟨map, ⟨entities ++ [entity]⟩⟩ : DedupArena Idx T cmp) index' = some other ↔
      entities[intoUsize index']? = some other ∨ index' = index ∧ entity = other := by
  have hinto := intoUsize_of_fromUsize _ _ hindex
  show (entities ++ [entity])[intoUsize index']? = some other ↔ _
  rw [Tables.getElem?_concat_eq_some, ← hinto]
  constructor
  · intro h
    exact h.imp id fun hnew => ⟨intoUsize_inj hnew.1, hnew.2⟩
  · intro h
    exact h.imp id fun hnew => ⟨congrArg intoUsize hnew.1, hnew.2⟩

/-- The entity is behind its index, and is added iff it was not there. -/
lemma Found.allocated [DecidableEq T] (h : arena.Found)
    (halloc : arena.alloc entity = some (index, arena')) : arena'.get index = some entity ∧
      arena'.len = (if entity ∈ arena.entities.entities then arena.len else arena.len + 1) ∧
      ∀ (index' : Idx) (other : T), arena.get index' = some other →
        arena'.get index' = some other := by
  by_cases hmem : entity ∈ arena.entities.entities
  · obtain ⟨index', halloc', hget⟩ := h.alloc_of_mem hmem
    rw [halloc'] at halloc
    cases halloc
    exact ⟨hget, (if_pos hmem).symm, fun _ _ h => h⟩
  · rw [h.alloc_of_notMem hmem] at halloc
    obtain ⟨index', hindex, hpair⟩ := Option.map_eq_some_iff.1 halloc
    cases hpair
    refine ⟨(get_concat _ _ hindex).2 (.inr ⟨rfl, rfl⟩), ?_, ?_⟩
    · rw [if_neg hmem]
      exact List.length_append
    · intro index' other hget
      exact (get_concat _ _ hindex).2 (.inl hget)

variable [TransCmp cmp] [LawfulEqCmp cmp]

omit [LawfulEqCmp cmp] in
lemma found_empty : Found (⟨∅, ⟨[]⟩⟩ : DedupArena Idx T cmp) where
  get_eq entity index h := by
    rw [TreeMap.getElem?_emptyc] at h
    cases h
  of_mem entity h := by cases h

omit [ArenaIndex Idx] [LawfulEqCmp cmp] in
/-- The index of an entity after one more entry. -/
lemma getElem?_insert_eq (map : TreeMap T Idx cmp) (entity other : T) (index : Idx) :
    (map.insert entity index)[other]? =
      if cmp entity other = .eq then some index else map[other]? :=
  TreeMap.getElem?_insert

omit [TransCmp cmp] in
lemma cmp_eq_iff {entity other : T} : cmp entity other = .eq ↔ entity = other := by
  constructor
  · exact LawfulEqCmp.eq_of_compare
  · rintro rfl
    exact ReflCmp.compare_self

lemma Found.concat (h : arena.Found) (hindex : arena.entities.nextIndex = some index) :
    Found (⟨arena.entity2idx.insert entity index, ⟨arena.entities.entities ++ [entity]⟩⟩ :
      DedupArena Idx T cmp) where
  get_eq other index' hfound := by
    rw [get_concat _ _ hindex]
    show arena.get index' = some other ∨ _
    rw [getElem?_insert_eq] at hfound
    split at hfound
    case isTrue heq => exact .inr ⟨(Option.some.inj hfound).symm, cmp_eq_iff.1 heq⟩
    case isFalse => exact .inl (h.get_eq other index' hfound)
  of_mem other hmem := by
    show (arena.entity2idx.insert entity index)[other]? ≠ none
    rw [getElem?_insert_eq]
    split
    · exact Option.some_ne_none _
    · rename_i hne
      rcases List.mem_append.1 hmem with hold | hnew
      · exact h.of_mem other hold
      · exact absurd (cmp_eq_iff.2 (List.mem_singleton.1 hnew).symm) hne

lemma Found.alloc (h : arena.Found) (halloc : arena.alloc entity = some (index, arena')) :
    arena'.Found := by
  by_cases hmem : entity ∈ arena.entities.entities
  · obtain ⟨index', halloc', _⟩ := h.alloc_of_mem hmem
    rw [halloc'] at halloc
    cases halloc
    exact h
  · rw [h.alloc_of_notMem hmem] at halloc
    obtain ⟨index', hindex, hpair⟩ := Option.map_eq_some_iff.1 halloc
    cases hpair
    exact h.concat hindex

omit [ArenaIndex Idx] in
/-- What is found after more entries is one of them, or was there before. -/
lemma insertPairs_eq_some {pairs : List (Idx × T)} {map : TreeMap T Idx cmp}
    (h : (insertPairs map pairs)[entity]? = some index) :
    (index, entity) ∈ pairs ∨ map[entity]? = some index := by
  induction pairs generalizing map with
  | nil => exact .inr h
  | cons pair pairs ih =>
    rcases ih h with hmem | hfound
    · exact .inl (List.mem_cons_of_mem _ hmem)
    · rw [getElem?_insert_eq] at hfound
      split at hfound
      case isTrue heq =>
        cases hfound
        rw [← cmp_eq_iff.1 heq]
        exact .inl List.mem_cons_self
      case isFalse => exact .inr hfound

omit [ArenaIndex Idx] in
lemma insertPairs_ne_none {pairs : List (Idx × T)} {map : TreeMap T Idx cmp}
    (h : entity ∈ pairs.map Prod.snd ∨ map[entity]? ≠ none) :
    (insertPairs map pairs)[entity]? ≠ none := by
  induction pairs generalizing map with
  | nil => exact h.resolve_left List.not_mem_nil
  | cons pair pairs ih =>
    apply ih
    rw [getElem?_insert_eq]
    by_cases heq : pair.2 = entity
    · rw [if_pos (cmp_eq_iff.2 heq)]
      exact .inr (Option.some_ne_none _)
    · rw [if_neg (mt cmp_eq_iff.1 heq)]
      rw [List.map_cons, List.mem_cons] at h
      exact h.imp (fun hmem => hmem.resolve_left (Ne.symm heq)) id

lemma Found.fromIter {iter : List T} (h : fromIter iter = some arena) : arena.Found := by
  obtain ⟨pairs, hpairs, harena⟩ := Option.bind_eq_some_iff.1 h
  cases harena
  refine ⟨fun entity index hfound => ?_, fun entity hentity => ?_⟩
  · rcases insertPairs_eq_some hfound with hpair | hnone
    · exact Iter.getElem?_of_mem_collect hpairs hpair
    · rw [TreeMap.getElem?_emptyc] at hnone
      cases hnone
  · obtain ⟨n, hn⟩ := List.mem_iff_getElem?.1 hentity
    obtain ⟨index, _, hpair⟩ := Iter.exists_mem_collect hpairs hn
    exact insertPairs_ne_none (.inl (List.mem_map_of_mem hpair))

end Steps

/-! ## Arenas that are built -/

/-- What holds of an arena after its events. -/
structure Built (iter held : List T) (arena : DedupArena Idx T cmp) : Prop where
  found : arena.Found
  /-- Each position has an index. -/
  indexed : ∀ n < arena.entities.entities.length, ∃ index : Idx, intoUsize index = n
  /-- Behind the entities of the last iterator are others, each of them once. -/
  splits : ∃ added, arena.entities.entities = iter ++ added ∧ added.Nodup ∧ iter.Disjoint added
  mem_iff : ∀ entity, entity ∈ arena.entities.entities ↔ entity ∈ held

section Build

variable {arena arena' : DedupArena Idx T cmp} {iter held : List T} {entity : T} {index : Idx}
  [TransCmp cmp] [LawfulEqCmp cmp]

omit [LawfulEqCmp cmp] in
lemma built_empty : Built [] [] (⟨∅, ⟨[]⟩⟩ : DedupArena Idx T cmp) where
  found := found_empty
  indexed n hn := absurd hn (Nat.not_lt_zero n)
  splits := ⟨[], rfl, List.nodup_nil, List.disjoint_nil_left _⟩
  mem_iff _ := Iff.rfl

lemma built_fromIter (h : fromIter iter = some arena) : Built iter iter arena := by
  have hfound := Found.fromIter h
  obtain ⟨pairs, hpairs, harena⟩ := Option.bind_eq_some_iff.1 h
  cases harena
  refine ⟨hfound, fun n hn => ?_, ⟨[], (List.append_nil _).symm, List.nodup_nil, ?_⟩, fun _ =>
    Iff.rfl⟩
  · obtain ⟨index, hinto, _⟩ := Iter.exists_mem_collect hpairs (List.getElem?_eq_getElem hn)
    exact ⟨index, hinto⟩
  · exact List.disjoint_nil_right _

lemma Built.alloc (h : Built iter held arena) (halloc : arena.alloc entity = some (index, arena')) :
    Built iter (held ++ [entity]) arena' := by
  have hfound := h.found.alloc halloc
  by_cases hmem : entity ∈ arena.entities.entities
  · obtain ⟨index', halloc', _⟩ := h.found.alloc_of_mem hmem
    rw [halloc'] at halloc
    cases halloc
    refine ⟨hfound, h.indexed, h.splits, fun other => ?_⟩
    rw [List.mem_append, List.mem_singleton, h.mem_iff]
    constructor
    · exact .inl
    · rintro (hheld | rfl)
      · exact hheld
      · exact (h.mem_iff other).1 hmem
  · rw [h.found.alloc_of_notMem hmem] at halloc
    obtain ⟨index', hindex, hpair⟩ := Option.map_eq_some_iff.1 halloc
    cases hpair
    obtain ⟨added, hadded, hnodup, hdisjoint⟩ := h.splits
    rw [hadded, List.mem_append, not_or] at hmem
    refine ⟨hfound, fun n hn => ?_, ⟨added ++ [entity], ?_, ?_, ?_⟩, fun other => ?_⟩
    · rw [List.length_append, List.length_singleton] at hn
      rcases Nat.lt_succ_iff_lt_or_eq.1 hn with hlt | rfl
      · exact h.indexed n hlt
      · exact ⟨index, intoUsize_of_fromUsize _ _ hindex⟩
    · show arena.entities.entities ++ [entity] = _
      rw [hadded, List.append_assoc]
    · rw [← List.concat_eq_append]
      exact hnodup.concat hmem.2
    · rw [List.disjoint_append_right]
      exact ⟨hdisjoint, List.disjoint_singleton.2 hmem.1⟩
    · show other ∈ arena.entities.entities ++ [entity] ↔ _
      rw [List.mem_append, List.mem_append, h.mem_iff]

lemma Built.step (h : Built iter held arena) {event : DedupEvent T}
    (hstep : arena.step event = some arena') :
    Built (iterAfter iter event) (heldAfter held event) arena' := by
  cases event with
  | fromIter iter' => exact built_fromIter hstep
  | alloc entity =>
    obtain ⟨allocated, halloc, rfl⟩ := Option.map_eq_some_iff.1 hstep
    exact h.alloc halloc
  | clear =>
    cases hstep
    exact built_empty

lemma Built.run (h : Built iter held arena) {events : List (DedupEvent T)}
    (hrun : arena.run events = some arena') :
    Built (events.foldl iterAfter iter) (events.foldl heldAfter held) arena' := by
  induction events generalizing arena iter held with
  | nil =>
    cases hrun
    exact h
  | cons event events ih =>
    rw [DedupArena.run, List.foldlM_cons] at hrun
    obtain ⟨next, hstep, hrest⟩ := Option.bind_eq_some_iff.1 hrun
    exact ih (h.step hstep) hrest

omit [TransCmp cmp] [LawfulEqCmp cmp] in
lemma Built.nodup_iff (h : Built iter held arena) :
    arena.entities.entities.Nodup ↔ iter.Nodup := by
  obtain ⟨added, hadded, hnodup, hdisjoint⟩ := h.splits
  rw [hadded, List.nodup_append']
  exact ⟨fun hall => hall.1, fun hiter => ⟨hiter, hnodup, hdisjoint⟩⟩

omit [TransCmp cmp] [LawfulEqCmp cmp] in
lemma Built.deduplicated_iff_nodup [DecidableEq T] (h : Built iter held arena) :
    Deduplicated arena held ↔ arena.entities.entities.Nodup := by
  constructor
  · intro hdedup
    rw [List.nodup_iff_getElem?_ne_getElem?]
    intro i j hij hj heq
    obtain ⟨index, hindex⟩ := h.indexed i (by omega)
    obtain ⟨index', hindex'⟩ := h.indexed j hj
    have hget : arena.get index' = some arena.entities.entities[j] := by
      show arena.entities.entities[intoUsize index']? = _
      rw [hindex', List.getElem?_eq_getElem hj]
    have hget' : arena.get index = some arena.entities.entities[j] := by
      show arena.entities.entities[intoUsize index]? = _
      rw [hindex, heq, List.getElem?_eq_getElem hj]
    have hsame := congrArg intoUsize (hdedup.distinct _ _ _ hget' hget)
    omega
  · intro hnodup
    refine ⟨?_, fun entity index arena' halloc => (h.found.allocated halloc).1,
      fun entity index arena' halloc => (h.found.allocated halloc).2.1,
      fun entity index arena' halloc => (h.found.allocated halloc).2.2, h.found.isSome_alloc, ?_⟩
    · intro index index' entity hget hget'
      have hlt := (List.getElem?_eq_some_iff.1 hget).1
      exact intoUsize_inj ((List.getElem?_inj hlt hnodup).1 (hget.trans hget'.symm))
    · have hperm : arena.entities.entities.Perm held.dedup := by
        rw [List.perm_ext_iff_of_nodup hnodup (List.nodup_dedup held)]
        intro entity
        rw [List.mem_dedup, h.mem_iff]
      exact hperm.length_eq

end Build

/-- An arena has every entity once iff its last iterator has, or it was cleared since then. -/
theorem deduplicated_iff [TransCmp cmp] [LawfulEqCmp cmp] [DecidableEq T]
    {arena : DedupArena Idx T cmp} {events : List (DedupEvent T)}
    (h : new.run events = some arena) :
    Deduplicated arena (held events) ↔ (lastIter events).Nodup := by
  have hbuilt := built_empty.run h
  exact hbuilt.deduplicated_iff_nodup.trans hbuilt.nodup_iff

/-- The iterator has a repetition, but the arena was cleared since then. -/
theorem cleared_deduplicated : ∃ arena : DedupArena U32Idx Nat compare,
    new.run [.fromIter [1, 1], .clear, .alloc 2] = some arena ∧
      (Deduplicated arena (held [.fromIter [1, 1], .clear, .alloc 2]) ↔
        (lastIter [DedupEvent.fromIter [1, 1], .clear, .alloc 2]).Nodup) :=
  ⟨_, rfl, deduplicated_iff rfl⟩

/-- An entity that comes twice from an iterator is in the arena twice. -/
theorem fromIter_twice_not_deduplicated : ∃ arena : DedupArena U32Idx Nat compare,
    new.run [.fromIter [1, 1]] = some arena ∧ ¬Deduplicated arena (held [.fromIter [1, 1]]) := by
  refine ⟨_, rfl, fun h => ?_⟩
  exact absurd (h.distinct ⟨0⟩ ⟨1⟩ 1 rfl rfl) (by decide)


/-! ## Function types -/

/-- The arena of the function types, where indices are their numbers. -/
structure Refines (arena : DedupArena U32Idx T cmp) (types : MotokoDebugger.DedupArena T cmp) :
    Prop where
  entities_eq : arena.entities.entities = types.entities
  index_eq : ∀ entity : T, arena.entity2idx[entity]?.map intoUsize = types.entity2idx[entity]?

section FunctionTypes

variable {arena arena' : DedupArena U32Idx T cmp} {types : MotokoDebugger.DedupArena T cmp}
  {index : U32Idx}

lemma Refines.get (h : arena.Refines types) (index : U32Idx) :
    arena.get index = types.get (intoUsize index) := by
  show arena.entities.entities[intoUsize index]? = types.entities[intoUsize index]?
  rw [h.entities_eq]

lemma Refines.nextIndex (h : arena.Refines types) :
    arena.entities.nextIndex.map intoUsize = types.nextIndex := by
  show (fromUsize arena.entities.entities.length : Option U32Idx).map intoUsize = _
  rw [h.entities_eq, MotokoDebugger.DedupArena.nextIndex]
  split
  case isTrue hlt =>
    show (if types.entities.length < 2 ^ 32 then
      some (⟨BitVec.ofNat 32 types.entities.length⟩ : U32Idx) else none).map intoUsize = _
    rw [if_pos hlt, Option.map_some]
    show some (BitVec.ofNat 32 types.entities.length).toNat = _
    rw [BitVec.toNat_ofNat, Nat.mod_eq_of_lt hlt]
  case isFalse hge =>
    show (if types.entities.length < 2 ^ 32 then
      some (⟨BitVec.ofNat 32 types.entities.length⟩ : U32Idx) else none).map intoUsize = _
    rw [if_neg hge, Option.map_none]

/-- A function type has the number of its index, now and later. -/
theorem Refines.alloc [TransCmp cmp] (h : arena.Refines types) {entity : T}
    (halloc : arena.alloc entity = some (index, arena')) :
    ∃ types', types.alloc entity = some (intoUsize index, types') ∧ arena'.Refines types' := by
  rw [DedupArena.alloc] at halloc
  have hindex := h.index_eq entity
  have hnext := h.nextIndex
  cases hfound : arena.entity2idx[entity]? with
  | some index' =>
    rw [hfound] at halloc hindex
    cases halloc
    refine ⟨types, ?_, h⟩
    rw [MotokoDebugger.DedupArena.alloc, ← hindex]
    rfl
  | none =>
    rw [hfound] at halloc hindex
    obtain ⟨index', hindex', hrest⟩ := Option.bind_eq_some_iff.1 halloc
    obtain ⟨allocated, hallocated, hpair⟩ := Option.bind_eq_some_iff.1 hrest
    cases hpair
    rw [Arena.alloc, hindex'] at hallocated
    cases hallocated
    rw [hindex'] at hnext
    refine ⟨⟨types.entity2idx.insert entity (intoUsize index), types.entities ++ [entity]⟩, ?_, ?_,
      ?_⟩
    · rw [MotokoDebugger.DedupArena.alloc, ← hindex]
      show types.nextIndex.bind _ = _
      rw [← hnext]
      rfl
    · show arena.entities.entities ++ [entity] = _
      rw [h.entities_eq]
    · intro other
      show (arena.entity2idx.insert entity index)[other]?.map intoUsize =
        (types.entity2idx.insert entity (intoUsize index))[other]?
      rw [getElem?_insert_eq, TreeMap.getElem?_insert, ← h.index_eq other]
      split <;> rfl

end FunctionTypes

end DedupArena

end Collections

end MotokoDebugger
