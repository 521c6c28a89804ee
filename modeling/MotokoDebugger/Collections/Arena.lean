import Mathlib.Algebra.Ring.Nat
import Mathlib.Data.List.ReduceOption
import Mathlib.Tactic.Common

/-!
# Arenas

`collections/src/arena/mod.rs`. A reference to an entity is the entity where it is shared, and the
position of the entity where it is exclusive.

* `ArenaIndex`: the types of indices.
* `Arena`: entities behind their indices.
* `Iter`: both iterators, as `iter` and `iterMut` make them.
* `run`: calls of `next` and `next_back` on an iterator, in any order.
* `YieldsEach`: what such calls are to return.
* `run_eq_of_length`: the calls return the same in every order.
-/

namespace MotokoDebugger

namespace Collections

/-- `ArenaIndex`; `none` is a panic. -/
class ArenaIndex (Idx : Type) where
  intoUsize : Idx → Nat
  fromUsize : Nat → Option Idx
  intoUsize_of_fromUsize : ∀ (value : Nat) (index : Idx),
    fromUsize value = some index → intoUsize index = value
  fromUsize_intoUsize : ∀ index : Idx, fromUsize (intoUsize index) = some index

open ArenaIndex

lemma intoUsize_inj {Idx : Type} [ArenaIndex Idx] {index index' : Idx}
    (h : intoUsize index = intoUsize index') : index = index' := by
  have hindex := fromUsize_intoUsize index
  rw [h, fromUsize_intoUsize] at hindex
  exact (Option.some.inj hindex).symm

/-! ## Types of indices -/

/-- `usize`, as `TrampolineIdx` wraps it. -/
instance : ArenaIndex Nat where
  intoUsize index := index
  fromUsize value := some value
  intoUsize_of_fromUsize _ _ h := (Option.some.inj h).symm
  fromUsize_intoUsize _ := rfl

/-- The indices that wrap a `u32`, such as `EngineFunc` and `DedupFuncTypeIdx`. -/
structure U32Idx where
  value : BitVec 32
deriving Repr, DecidableEq

instance : ArenaIndex U32Idx where
  intoUsize index := index.value.toNat
  fromUsize value := if value < 2 ^ 32 then some ⟨BitVec.ofNat 32 value⟩ else none
  intoUsize_of_fromUsize value index h := by
    split at h
    · rw [← Option.some.inj h]
      show (BitVec.ofNat 32 value).toNat = value
      rw [BitVec.toNat_ofNat]
      omega
    · cases h
  fromUsize_intoUsize index := by
    rw [if_pos index.value.isLt, BitVec.ofNat_toNat, BitVec.setWidth_eq]

/-- The indices that wrap a `NonZeroU32`, such as `FuncIdx` and `ExternObjectIdx`. -/
structure NonZeroU32Idx where
  value : BitVec 32
  ne_zero : value ≠ 0
deriving Repr, DecidableEq

instance : ArenaIndex NonZeroU32Idx where
  intoUsize index := (index.value - 1).toNat
  fromUsize value :=
    if value < 2 ^ 32 then
      if h : BitVec.ofNat 32 value + 1 ≠ 0 then some ⟨BitVec.ofNat 32 value + 1, h⟩ else none
    else none
  intoUsize_of_fromUsize value index h := by
    split at h
    · split at h
      · rw [← Option.some.inj h]
        show (BitVec.ofNat 32 value + 1 - 1).toNat = value
        rw [BitVec.add_sub_cancel, BitVec.toNat_ofNat]
        omega
      · cases h
    · cases h
  fromUsize_intoUsize index := by
    have hvalue : BitVec.ofNat 32 (index.value - 1).toNat + 1 = index.value := by
      rw [BitVec.ofNat_toNat, BitVec.setWidth_eq, BitVec.sub_add_cancel]
    rw [if_pos (index.value - 1).isLt, dif_pos (by rw [hvalue]; exact index.ne_zero)]
    simp only [hvalue]

/-! ## Arenas -/

/-- `Arena`. -/
structure Arena (Idx T : Type) where
  entities : List T := []

namespace Arena

variable {Idx T : Type}

/-- `len`. -/
def len (arena : Arena Idx T) : Nat := arena.entities.length

/-- `from_iter`. -/
def fromIter (iter : List T) : Arena Idx T := ⟨iter⟩

/-- `clear`. -/
def clear (_ : Arena Idx T) : Arena Idx T := ⟨[]⟩

variable [ArenaIndex Idx]

/-- `next_index`. -/
def nextIndex (arena : Arena Idx T) : Option Idx := fromUsize arena.entities.length

/-- `alloc`. -/
def alloc (arena : Arena Idx T) (entity : T) : Option (Idx × Arena Idx T) := do
  let index ← arena.nextIndex
  return (index, ⟨arena.entities ++ [entity]⟩)

/-- `get`. -/
def get (arena : Arena Idx T) (index : Idx) : Option T := arena.entities[intoUsize index]?

/-- `get_mut`. -/
def getMut (arena : Arena Idx T) (index : Idx) : Option Nat :=
  if intoUsize index < arena.entities.length then some (intoUsize index) else none

end Arena

/-! ## Iterators -/

/-- `Enumerate` of the iterator of a slice: the items that are left, and the number of the first
one. -/
structure Enumerate (Ref : Type) where
  items : List Ref
  count : Nat := 0

/-- `Enumerate::next`. -/
def Enumerate.next {Ref : Type} (self : Enumerate Ref) : Option (Nat × Ref) × Enumerate Ref :=
  match self.items with
  | [] => (none, self)
  | item :: items => (some (self.count, item), ⟨items, self.count + 1⟩)

/-- `Iter` and `IterMut`, which differ in their references. -/
structure Iter (Idx Ref : Type) where
  iter : Enumerate Ref

/-- `Arena::iter`. -/
def Arena.iter {Idx T : Type} (arena : Arena Idx T) : Iter Idx T := ⟨⟨arena.entities, 0⟩⟩

/-- `Arena::iter_mut`. -/
def Arena.iterMut {Idx T : Type} (arena : Arena Idx T) : Iter Idx Nat :=
  ⟨⟨List.range arena.entities.length, 0⟩⟩

/-- The two ends that an iterator takes items from. -/
inductive IterEnd where
  | front | back
deriving Repr, DecidableEq

namespace Iter

variable {Idx Ref : Type} [ArenaIndex Idx]

/-- `next`, which panics where there is no index for the item. -/
def next (self : Iter Idx Ref) : Option (Option (Idx × Ref) × Iter Idx Ref) :=
  match self.iter.next with
  | (none, iter) => some (none, ⟨iter⟩)
  | (some (idx, entity), iter) => do
    let index ← fromUsize idx
    return (some (index, entity), ⟨iter⟩)

/-- `next_back`. It takes the next item, too. -/
def nextBack (self : Iter Idx Ref) : Option (Option (Idx × Ref) × Iter Idx Ref) :=
  match self.iter.next with
  | (none, iter) => some (none, ⟨iter⟩)
  | (some (idx, entity), iter) => do
    let index ← fromUsize idx
    return (some (index, entity), ⟨iter⟩)

/-- An item from one of the ends. -/
def take (self : Iter Idx Ref) : IterEnd → Option (Option (Idx × Ref) × Iter Idx Ref)
  | .front => self.next
  | .back => self.nextBack

/-- What the calls return, one after the other. -/
def run (self : Iter Idx Ref) : List IterEnd → Option (List (Option (Idx × Ref)))
  | [] => some []
  | iterEnd :: ends => do
    let taken ← self.take iterEnd
    let outcomes ← taken.2.run ends
    return taken.1 :: outcomes

/-- The pairs that a loop goes through. -/
def collect (self : Iter Idx Ref) : Option (List (Idx × Ref)) :=
  (self.run (List.replicate self.iter.items.length .front)).map List.reduceOption

end Iter

/-! ## What the iterators are for -/

section Specification

variable {Idx Ref : Type} [ArenaIndex Idx]

/-- The entity at `i` is not among the pairs of the first `n` calls. -/
def Left (len : Nat) (outcomes : List (Option (Idx × Ref))) (n i : Nat) : Prop :=
  i < len ∧ ∀ (m : Nat) (pair : Idx × Ref), m < n → outcomes[m]? = some (some pair) →
    intoUsize pair.1 ≠ i

/-- Each pair is returned once, from the end that it is asked from. -/
structure YieldsEach (len : Nat) (get : Idx → Option Ref) (ends : List IterEnd)
    (outcomes : List (Option (Idx × Ref))) : Prop where
  /-- No index is returned twice. -/
  once : ∀ (m n : Nat) (pair pair' : Idx × Ref), outcomes[m]? = some (some pair) →
    outcomes[n]? = some (some pair') → pair.1 = pair'.1 → m = n
  /-- The entity is the one behind its index. -/
  found : ∀ (n : Nat) (pair : Idx × Ref), outcomes[n]? = some (some pair) →
    get pair.1 = some pair.2
  /-- The lowest index comes from the front. -/
  front : ∀ (n i : Nat) (pair : Idx × Ref), ends[n]? = some .front →
    outcomes[n]? = some (some pair) → Left len outcomes n i → intoUsize pair.1 ≤ i
  /-- The highest index comes from the back. -/
  back : ∀ (n i : Nat) (pair : Idx × Ref), ends[n]? = some .back →
    outcomes[n]? = some (some pair) → Left len outcomes n i → i ≤ intoUsize pair.1
  /-- No pair comes from an end only after all of them. -/
  all : ∀ n i : Nat, outcomes[n]? = some none → ¬Left len outcomes n i

end Specification

/-! ## Runs -/

namespace Iter

variable {Idx Ref : Type} [ArenaIndex Idx]

/-- Both ends are the front. -/
lemma take_eq_next (self : Iter Idx Ref) (iterEnd : IterEnd) : self.take iterEnd = self.next := by
  cases iterEnd <;> rfl

lemma run_cons (self : Iter Idx Ref) (iterEnd : IterEnd) (ends : List IterEnd) :
    self.run (iterEnd :: ends) = self.next.bind fun taken =>
      (taken.2.run ends).map fun outcomes => taken.1 :: outcomes := by
  rw [run, take_eq_next]
  cases self.next with
  | none => rfl
  | some taken =>
    show (taken.2.run ends).bind _ = (taken.2.run ends).map _
    rw [Option.map_eq_bind]
    rfl

/-- What calls return does not depend on their ends. -/
theorem run_eq_of_length (self : Iter Idx Ref) {ends ends' : List IterEnd}
    (h : ends.length = ends'.length) : self.run ends = self.run ends' := by
  induction ends generalizing self ends' with
  | nil => rw [List.length_eq_zero_iff.1 h.symm]
  | cons iterEnd ends ih =>
    obtain ⟨iterEnd', ends', rfl⟩ := List.exists_cons_of_length_eq_add_one h.symm
    have hlength : ends.length = ends'.length := Nat.succ.inj h
    rw [run_cons, run_cons]
    congr 1
    funext taken
    rw [ih taken.2 hlength]

lemma next_nil (count : Nat) : (⟨⟨[], count⟩⟩ : Iter Idx Ref).next = some (none, ⟨⟨[], count⟩⟩) :=
  rfl

lemma next_cons (ref : Ref) (refs : List Ref) (count : Nat) :
    (⟨⟨ref :: refs, count⟩⟩ : Iter Idx Ref).next =
      (fromUsize count).map fun index => (some (index, ref), ⟨⟨refs, count + 1⟩⟩) := by
  show (fromUsize count).bind _ = _
  rw [Option.map_eq_bind]
  rfl

/-- The pairs come in the order of their indices. -/
structure Forward (refs : List Ref) (count : Nat) (ends : List IterEnd)
    (outcomes : List (Option (Idx × Ref))) : Prop where
  length_eq : outcomes.length = ends.length
  of_some : ∀ (n : Nat) (pair : Idx × Ref), outcomes[n]? = some (some pair) →
    refs[n]? = some pair.2 ∧ intoUsize pair.1 = count + n
  of_none : ∀ n : Nat, outcomes[n]? = some none → refs.length ≤ n

variable {refs : List Ref} {count : Nat} {ends : List IterEnd}
  {outcomes : List (Option (Idx × Ref))}

lemma forward_of_run (h : run ⟨⟨refs, count⟩⟩ ends = some outcomes) :
    Forward refs count ends outcomes := by
  induction ends generalizing refs count outcomes with
  | nil =>
    cases h
    exact ⟨rfl, fun n _ hn => by simp at hn, fun n hn => by simp at hn⟩
  | cons iterEnd ends ih =>
    rw [run_cons] at h
    obtain ⟨taken, hnext, hrest⟩ := Option.bind_eq_some_iff.1 h
    obtain ⟨rest, hrun, rfl⟩ := Option.map_eq_some_iff.1 hrest
    cases refs with
    | nil =>
      cases hnext
      have hforward := ih hrun
      refine ⟨by rw [List.length_cons, List.length_cons, hforward.length_eq], ?_, ?_⟩
      · intro n pair hn
        cases n with
        | zero => cases hn
        | succ n => simpa using (hforward.of_some n pair hn).1
      · exact fun n _ => Nat.zero_le n
    | cons ref refs =>
      rw [next_cons] at hnext
      obtain ⟨index, hindex, rfl⟩ := Option.map_eq_some_iff.1 hnext
      have hforward := ih hrun
      refine ⟨by rw [List.length_cons, List.length_cons, hforward.length_eq], ?_, ?_⟩
      · intro n pair hn
        cases n with
        | zero =>
          cases hn
          exact ⟨rfl, intoUsize_of_fromUsize count index hindex⟩
        | succ n =>
          obtain ⟨href, hinto⟩ := hforward.of_some n pair hn
          exact ⟨href, by omega⟩
      · intro n hn
        cases n with
        | zero => cases hn
        | succ n => exact Nat.succ_le_succ (hforward.of_none n hn)

/-- No call panics iff the entities that are reached have indices. -/
lemma isSome_run_iff : (run ⟨⟨refs, count⟩⟩ ends : Option (List (Option (Idx × Ref)))).isSome ↔
    ∀ n < ends.length, n < refs.length → (fromUsize (count + n) : Option Idx).isSome := by
  induction ends generalizing refs count with
  | nil => simp [run]
  | cons iterEnd ends ih =>
    rw [run_cons]
    cases refs with
    | nil =>
      rw [next_nil, Option.bind_some, Option.isSome_map, ih]
      simp
    | cons ref refs =>
      rw [next_cons]
      cases hindex : (fromUsize count : Option Idx) with
      | none =>
        refine iff_of_false (by simp) fun h => ?_
        have hfirst := h 0 (by simp) (by simp)
        rw [Nat.add_zero, hindex] at hfirst
        cases hfirst
      | some index =>
        rw [Option.map_some, Option.bind_some, Option.isSome_map, ih]
        constructor
        · intro h n hn hlt
          cases n with
          | zero => rw [Nat.add_zero, hindex, Option.isSome_some]
          | succ n =>
            rw [show count + (n + 1) = count + 1 + n by omega]
            exact h n (Nat.lt_of_succ_lt_succ hn) (Nat.lt_of_succ_lt_succ hlt)
        · intro h n hn hlt
          rw [show count + 1 + n = count + (n + 1) by omega]
          exact h (n + 1) (Nat.succ_lt_succ hn) (Nat.succ_lt_succ hlt)

/-- A call returns a pair as long as there are entities. -/
lemma Forward.exists_pair (h : Forward refs count ends outcomes) {n : Nat} (hn : n < ends.length)
    (hlt : n < refs.length) : ∃ pair, outcomes[n]? = some (some pair) := by
  have hlength := h.length_eq
  have houtcome := List.getElem?_eq_getElem (show n < outcomes.length by omega)
  cases hvalue : outcomes[n] with
  | none =>
    rw [hvalue] at houtcome
    have hle := h.of_none n houtcome
    omega
  | some pair => exact ⟨pair, by rw [houtcome, hvalue]⟩

/-- The pairs of a loop are entities with their indices. -/
lemma getElem?_of_mem_collect {pairs : List (Idx × Ref)} (h : collect ⟨⟨refs, 0⟩⟩ = some pairs)
    {pair : Idx × Ref} (hmem : pair ∈ pairs) : refs[intoUsize pair.1]? = some pair.2 := by
  obtain ⟨outcomes, hrun, rfl⟩ := Option.map_eq_some_iff.1 h
  obtain ⟨n, houtcome⟩ := List.mem_iff_getElem?.1 (List.reduceOption_mem_iff.1 hmem)
  obtain ⟨href, hinto⟩ := (forward_of_run hrun).of_some n pair houtcome
  rw [hinto, Nat.zero_add, href]

/-- A loop goes through all of the entities. -/
lemma exists_mem_collect {pairs : List (Idx × Ref)} (h : collect ⟨⟨refs, 0⟩⟩ = some pairs)
    {n : Nat} {ref : Ref} (href : refs[n]? = some ref) :
    ∃ index, intoUsize index = n ∧ (index, ref) ∈ pairs := by
  obtain ⟨outcomes, hrun, rfl⟩ := Option.map_eq_some_iff.1 h
  have hforward := forward_of_run hrun
  have hlt := (List.getElem?_eq_some_iff.1 href).1
  obtain ⟨pair, houtcome⟩ := hforward.exists_pair (by rwa [List.length_replicate]) hlt
  obtain ⟨href', hinto⟩ := hforward.of_some n pair houtcome
  rw [href] at href'
  obtain rfl := Option.some.inj href'
  exact ⟨pair.1, hinto.trans (Nat.zero_add n),
    List.reduceOption_mem_iff.2 (List.mem_of_getElem? houtcome)⟩

/-- Where the entity at `i` was returned, it is not left. -/
lemma Forward.le_of_left (h : Forward refs 0 ends outcomes) {n i : Nat} (hn : n ≤ ends.length)
    (hleft : Left refs.length outcomes n i) : n ≤ i := by
  by_contra hlt
  obtain ⟨pair, houtcome⟩ := h.exists_pair (by omega) hleft.1
  have hinto := (h.of_some i pair houtcome).2
  exact hleft.2 i pair (by omega) houtcome (by omega)

/-- Whatever is behind the pairs that were returned is left. -/
lemma Forward.left_of_le (h : Forward refs 0 ends outcomes) {n i : Nat} (hle : n ≤ i)
    (hi : i < refs.length) : Left refs.length outcomes n i := by
  refine ⟨hi, fun m pair hm houtcome heq => ?_⟩
  have hinto := (h.of_some m pair houtcome).2
  omega

/-- An iterator returns each pair from its end iff the back is only asked for the last pair, and
the entities that are reached have indices. -/
lemma yieldsEach_iff {get : Idx → Option Ref} (hget : ∀ index, get index = refs[intoUsize index]?) :
    (∃ outcomes, run ⟨⟨refs, 0⟩⟩ ends = some outcomes ∧
      YieldsEach refs.length get ends outcomes) ↔
    (∀ n < ends.length, n < refs.length → (fromUsize n : Option Idx).isSome) ∧
      ∀ n : Nat, ends[n]? = some .back → refs.length ≤ n + 1 := by
  have hsome : (run ⟨⟨refs, 0⟩⟩ ends : Option (List (Option (Idx × Ref)))).isSome ↔
      ∀ n < ends.length, n < refs.length → (fromUsize n : Option Idx).isSome := by
    rw [isSome_run_iff]
    simp only [Nat.zero_add]
  constructor
  · intro h
    obtain ⟨outcomes, hrun, hyields⟩ := h
    have hforward := forward_of_run hrun
    refine ⟨hsome.1 (by rw [hrun, Option.isSome_some]), fun n hback => ?_⟩
    by_contra hlt
    have hn := (List.getElem?_eq_some_iff.1 hback).1
    obtain ⟨pair, houtcome⟩ := hforward.exists_pair hn (by omega)
    have hinto := (hforward.of_some n pair houtcome).2
    -- the last entity is left, and it is not the one that is returned
    have hlast : Left refs.length outcomes n (refs.length - 1) :=
      hforward.left_of_le (by omega) (by omega)
    have hle := hyields.back n _ pair hback houtcome hlast
    omega
  · intro h
    obtain ⟨hindexed, hback⟩ := h
    obtain ⟨outcomes, hrun⟩ := Option.isSome_iff_exists.1 (hsome.2 hindexed)
    have hforward := forward_of_run hrun
    refine ⟨outcomes, hrun, ?_, ?_, ?_, ?_, ?_⟩
    · intro m n pair pair' hm hn heq
      have hinto := (hforward.of_some m pair hm).2
      have hinto' := (hforward.of_some n pair' hn).2
      rw [heq] at hinto
      omega
    · intro n pair hn
      obtain ⟨href, hinto⟩ := hforward.of_some n pair hn
      rw [hget, hinto, Nat.zero_add, href]
    · intro n i pair hfront hn hleft
      have hinto := (hforward.of_some n pair hn).2
      have hlt := (List.getElem?_eq_some_iff.1 hfront).1
      have hle := hforward.le_of_left (Nat.le_of_lt hlt) hleft
      omega
    · intro n i pair hend hn hleft
      have hinto := (hforward.of_some n pair hn).2
      have hlen := hback n hend
      have hlow := hleft.1
      omega
    · intro n i hn hleft
      have hle := hforward.of_none n hn
      have hlt := (List.getElem?_eq_some_iff.1 hn).1
      rw [hforward.length_eq] at hlt
      have hlow := hforward.le_of_left (Nat.le_of_lt hlt) hleft
      have hhigh := hleft.1
      omega

end Iter

namespace Arena

variable {Idx T : Type} [ArenaIndex Idx]

lemma getMut_eq (arena : Arena Idx T) (index : Idx) :
    arena.getMut index = (List.range arena.entities.length)[intoUsize index]? := by
  rw [getMut]
  split
  case isTrue hlt => exact (List.getElem?_range hlt).symm
  case isFalse hge =>
    rw [List.getElem?_eq_none]
    rw [List.length_range]
    omega

/-- Both iterators return each pair from its end iff the back is only asked for the last pair, and
the entities that are reached have indices. -/
theorem iter_iterMut_yield_iff (arena : Arena Idx T) (ends : List IterEnd) :
    ((∃ outcomes, arena.iter.run ends = some outcomes ∧
        YieldsEach arena.len arena.get ends outcomes) ↔
      (∀ n < ends.length, n < arena.len → (fromUsize n : Option Idx).isSome) ∧
        ∀ n : Nat, ends[n]? = some .back → arena.len ≤ n + 1) ∧
    ((∃ outcomes, arena.iterMut.run ends = some outcomes ∧
        YieldsEach arena.len arena.getMut ends outcomes) ↔
      (∀ n < ends.length, n < arena.len → (fromUsize n : Option Idx).isSome) ∧
        ∀ n : Nat, ends[n]? = some .back → arena.len ≤ n + 1) := by
  have hmut := @Iter.yieldsEach_iff Idx Nat _ _ ends _ (getMut_eq arena)
  rw [List.length_range] at hmut
  exact ⟨Iter.yieldsEach_iff fun _ => rfl, hmut⟩

/-- The first of two entities comes from the back. -/
theorem two_entities_back :
    ¬∃ outcomes, (fromIter ["a", "b"] : Arena Nat String).iter.run [.back] = some outcomes ∧
      YieldsEach 2 (fromIter ["a", "b"] : Arena Nat String).get [.back] outcomes := by
  intro h
  obtain ⟨outcomes, hrun, hyields⟩ := h
  have hforward := Iter.forward_of_run hrun
  cases hrun
  have hlast : Left 2 [some ((0 : Nat), "a")] 0 1 := hforward.left_of_le (by omega) (by decide)
  exact absurd (hyields.back 0 1 (0, "a") rfl rfl hlast) (by decide)

/-- `rev` is the reverse of the iterator iff there is at most one entity. -/
theorem rev_eq_reverse_iff {arena : Arena Idx T} {outcomes : List (Option (Idx × T))}
    (h : arena.iter.run (List.replicate arena.len .front) = some outcomes) :
    arena.iter.run (List.replicate arena.len .back) = some outcomes.reverse ↔ arena.len ≤ 1 := by
  have hlength : (List.replicate arena.len IterEnd.back).length =
      (List.replicate arena.len IterEnd.front).length := by
    rw [List.length_replicate, List.length_replicate]
  have hforward := Iter.forward_of_run h
  have hlen := hforward.length_eq
  rw [List.length_replicate] at hlen
  rw [Iter.run_eq_of_length _ hlength, h, Option.some_inj]
  constructor
  · intro hreverse
    by_contra hlt
    -- the first pair would be the last one
    have hlast : outcomes.reverse[0]? = outcomes[outcomes.length - 1 - 0]? :=
      List.getElem?_reverse (by omega)
    obtain ⟨pair, hfirst⟩ := hforward.exists_pair (n := 0) (by rw [List.length_replicate]; omega)
      (show 0 < arena.len by omega)
    rw [← hreverse, hfirst] at hlast
    have hzero := (hforward.of_some 0 pair hfirst).2
    have hhigh := (hforward.of_some _ pair hlast.symm).2
    omega
  · intro hle
    match outcomes with
    | [] => rfl
    | [_] => rfl
    | _ :: _ :: _ =>
      simp only [List.length_cons] at hlen
      omega

end Arena

end Collections

end MotokoDebugger
