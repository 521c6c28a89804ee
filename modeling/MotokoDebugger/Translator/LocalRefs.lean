import Mathlib.Data.List.Perm.Subperm
import MotokoDebugger.Lib.Chains
import MotokoDebugger.Lib.SortedMaps
import MotokoDebugger.Translator.RegisterAlloc

/-!
# References to locals

`translator/stack/locals.rs`: for every local the positions on the emulated stack that refer to it,
as a linked list. The entries of all lists and the vacant entries share one array.

* `LocalRefsEntries`, `LocalRefs`: the entries, and the last entry of each local.
* `Indexes refs nodes`: the lists of the locals.
* `pushAt_indexes`, `popAt_indexes`, `drainAt_indexes`: what the operations do to the lists.
* `drainAll_eq`: `drainAll` calls a function with all positions of all locals.
-/

namespace MotokoDebugger.Translator

open Chains Fallible SortedMaps

/-! ## Entries -/

/-- `LocalRefEntry`. -/
inductive LocalRefEntry where
  | vacant (nextFree : Option Nat)
  | occupied (slot : Nat) (prev : Option Nat)
deriving Repr, DecidableEq

/-- `LocalRefsEntries`. -/
structure LocalRefsEntries where
  nextFree : Option Nat
  entries : List LocalRefEntry
deriving Repr, DecidableEq

namespace LocalRefsEntries

variable (refs : LocalRefsEntries)

/-- `LocalRefsEntries::reset`. -/
def reset : LocalRefsEntries := ⟨none, []⟩

/-- `push_occupied`; the index of the entry is `next_index`. -/
def pushOccupied (slot : Nat) (prev : Option Nat) : LocalRefsEntries :=
  { refs with entries := refs.entries ++ [.occupied slot prev] }

/-- `reuse_vacant`. -/
def reuseVacant (index slot : Nat) (prev : Option Nat) : Except Failure LocalRefsEntries :=
  match refs.entries[index]? with
  | some (.vacant nextFree) => .ok ⟨nextFree, refs.entries.set index (.occupied slot prev)⟩
  | _ => .error .panic

/-- `remove_entry`: the next entry of the list, and the position of the removed one. -/
def removeEntry (index : Nat) : Except Failure (Option Nat × Nat × LocalRefsEntries) :=
  match refs.entries[index]? with
  | some (.occupied slot prev) =>
    .ok (prev, slot, ⟨some index, refs.entries.set index (.vacant refs.nextFree)⟩)
  | _ => .error .panic

/-- The loop of `drain_list_at`. Each turn makes an occupied entry vacant and panics at a vacant one,
so that it panics at the latest after as many turns as there are entries. -/
def drainList {α : Type} (f : α → Nat → Except Failure α) (refs : LocalRefsEntries)
    (last : Option Nat) (a : α) : (turns : Nat) → Except Failure (LocalRefsEntries × α)
  | 0 => if last = none then .ok (refs, a) else .error .panic
  | turns + 1 =>
    match last with
    | none => .ok (refs, a)
    | some index => do
      let (prev, slot, refs) ← refs.removeEntry index
      let a ← f a slot
      drainList f refs prev a turns

/-- `drain_list_at`. -/
def drainListAt {α : Type} (index : Nat) (f : α → Nat → Except Failure α) (a : α) :
    Except Failure (LocalRefsEntries × α) :=
  refs.drainList f (some index) a refs.entries.length

end LocalRefsEntries

/-! ## References -/

/-- `LocalRefs`. The keys of `locals_last` are the indices of the locals. -/
structure LocalRefs where
  localsLast : List (Int × Nat)
  entries : LocalRefsEntries
deriving Repr, DecidableEq

namespace LocalRefs

variable (refs : LocalRefs)

/-- `LocalRefs::reset`. -/
def reset : LocalRefs := ⟨[], .reset⟩

/-- The last entry of a local. -/
def last («local» : Reg) : Option Nat := refs.localsLast.lookup «local».toInt

/-- `update_last`; the previous last entry is that of `last`. -/
def updateLast (index : Nat) («local» : Reg) : LocalRefs :=
  { refs with localsLast := SortedMaps.insert «local».toInt index refs.localsLast }

/-- `push_at`. -/
def pushAt («local» : Reg) (slot : Nat) : Except Failure LocalRefs :=
  let prev := refs.last «local»
  match refs.entries.nextFree with
  | some index => do
    let entries ← refs.entries.reuseVacant index slot prev
    return { refs.updateLast index «local» with entries }
  | none =>
    .ok { refs.updateLast refs.entries.entries.length «local» with
      entries := refs.entries.pushOccupied slot prev }

/-- `reset_if_empty`. -/
def resetIfEmpty : LocalRefs := if refs.localsLast = [] then { refs with entries := .reset } else refs

/-- `pop_at`. -/
def popAt («local» : Reg) : Except Failure (Nat × LocalRefs) :=
  match refs.last «local» with
  | none => .error .panic
  | some index => do
    let (prev, slot, entries) ← refs.entries.removeEntry index
    let localsLast :=
      match prev with
      | some prev => SortedMaps.insert «local».toInt prev refs.localsLast
      | none => SortedMaps.erase «local».toInt refs.localsLast
    return (slot, resetIfEmpty ⟨localsLast, entries⟩)

/-- `drain_at`. -/
def drainAt {α : Type} («local» : Reg) (f : α → Nat → Except Failure α) (a : α) :
    Except Failure (LocalRefs × α) :=
  match refs.last «local» with
  | none => .ok (refs, a)
  | some last => do
    let (entries, a) ← refs.entries.drainListAt last f a
    return (resetIfEmpty ⟨SortedMaps.erase «local».toInt refs.localsLast, entries⟩, a)

/-- The loop of `drain_all`. -/
def drainLists {α : Type} (f : α → Reg → Nat → Except Failure α) (entries : LocalRefsEntries)
    (a : α) : List (Int × Nat) → Except Failure α
  | [] => .ok a
  | («local», last) :: localsLast => do
    let (entries, a) ← entries.drainListAt last (fun a => f a (Int16.ofInt «local»)) a
    drainLists f entries a localsLast

/-- `drain_all`. -/
def drainAll {α : Type} (f : α → Reg → Nat → Except Failure α) (a : α) :
    Except Failure (LocalRefs × α) := do
  let a ← drainLists f refs.entries a refs.localsLast
  return (reset, a)

end LocalRefs

/-! ## The lists -/

/-- What an occupied entry leads to. -/
def LocalRefEntry.occupied? : LocalRefEntry → Option (Nat × Option Nat)
  | .occupied slot prev => some (slot, prev)
  | .vacant _ => none

/-- What a vacant entry leads to. -/
def LocalRefEntry.vacant? : LocalRefEntry → Option (Unit × Option Nat)
  | .occupied _ _ => none
  | .vacant nextFree => some ((), nextFree)

namespace LocalRefsEntries

variable {refs refs' : LocalRefsEntries}

def occupiedAt (refs : LocalRefsEntries) (i : Nat) : Option (Nat × Option Nat) :=
  refs.entries[i]?.bind LocalRefEntry.occupied?

def vacantAt (refs : LocalRefsEntries) (i : Nat) : Option (Unit × Option Nat) :=
  refs.entries[i]?.bind LocalRefEntry.vacant?

/-- The vacant entries form a list. -/
def HasFree (refs : LocalRefsEntries) : Prop := ∃ free, Chain refs.vacantAt refs.nextFree free

lemma occupiedAt_eq_some {i slot : Nat} {prev : Option Nat} :
    refs.occupiedAt i = some (slot, prev) ↔ refs.entries[i]? = some (.occupied slot prev) := by
  rw [occupiedAt, Option.bind_eq_some_iff]
  constructor
  · rintro ⟨entry, hentry, hoccupied⟩
    cases entry with
    | vacant => simp [LocalRefEntry.occupied?] at hoccupied
    | occupied slot' prev' =>
      obtain ⟨rfl, rfl⟩ := Prod.mk.inj (Option.some.inj hoccupied)
      exact hentry
  · intro hentry
    exact ⟨_, hentry, rfl⟩

lemma vacantAt_eq_some {i : Nat} {next : Option Nat} :
    refs.vacantAt i = some ((), next) ↔ refs.entries[i]? = some (.vacant next) := by
  rw [vacantAt, Option.bind_eq_some_iff]
  constructor
  · rintro ⟨entry, hentry, hvacant⟩
    cases entry with
    | occupied => simp [LocalRefEntry.vacant?] at hvacant
    | vacant next' =>
      obtain ⟨_, rfl⟩ := Prod.mk.inj (Option.some.inj hvacant)
      exact hentry
  · intro hentry
    exact ⟨_, hentry, rfl⟩

/-- Only one entry is written. -/
def Writes (refs refs' : LocalRefsEntries) (index : Nat) (entry : LocalRefEntry) : Prop :=
  ∀ i, refs'.entries[i]? = if i = index then some entry else refs.entries[i]?

section Writes

variable {index : Nat} {entry : LocalRefEntry} (h : Writes refs refs' index entry)

include h

lemma Writes.occupiedAt_self : refs'.occupiedAt index = entry.occupied? := by
  rw [occupiedAt, h index, if_pos rfl, Option.bind_some]

lemma Writes.vacantAt_self : refs'.vacantAt index = entry.vacant? := by
  rw [vacantAt, h index, if_pos rfl, Option.bind_some]

lemma Writes.occupiedAt_ne {i : Nat} (hne : i ≠ index) : refs'.occupiedAt i = refs.occupiedAt i := by
  rw [occupiedAt, h i, if_neg hne, occupiedAt]

lemma Writes.vacantAt_ne {i : Nat} (hne : i ≠ index) : refs'.vacantAt i = refs.vacantAt i := by
  rw [vacantAt, h i, if_neg hne, vacantAt]

end Writes

lemma writes_set {index : Nat} {nextFree : Option Nat} {entry old : LocalRefEntry}
    (hold : refs.entries[index]? = some old) :
    Writes refs ⟨nextFree, refs.entries.set index entry⟩ index entry := by
  intro i
  have hlt := (List.getElem?_eq_some_iff.1 hold).1
  show (refs.entries.set index entry)[i]? = _
  by_cases heq : i = index
  · rw [if_pos heq, heq, List.getElem?_set_self hlt]
  · rw [if_neg heq, List.getElem?_set_ne fun h => heq h.symm]

lemma writes_append {nextFree : Option Nat} {entry : LocalRefEntry} :
    Writes refs ⟨nextFree, refs.entries ++ [entry]⟩ refs.entries.length entry := by
  intro i
  show (refs.entries ++ [entry])[i]? = _
  by_cases heq : i = refs.entries.length
  · rw [if_pos heq, heq, List.getElem?_concat_length]
  · rw [if_neg heq]
    obtain hlt | hge := Nat.lt_or_ge i refs.entries.length
    · exact List.getElem?_append_left hlt
    · rw [List.getElem?_eq_none hge]
      exact List.getElem?_eq_none (by rw [List.length_append, List.length_singleton]; omega)

/-- An entry that becomes occupied leaves the list of vacant ones. -/
lemma reuseVacant_ok {index slot : Nat} {prev : Option Nat} (hfree : refs.HasFree)
    (hnext : refs.nextFree = some index) :
    ∃ refs', refs.reuseVacant index slot prev = .ok refs' ∧ refs.occupiedAt index = none ∧
      Writes refs refs' index (.occupied slot prev) ∧ refs'.HasFree := by
  obtain ⟨free, hchain⟩ := hfree
  rw [hnext] at hchain
  have hnodup := hchain.nodup
  obtain ⟨_, rest, free, rfl, hvacant, hrest⟩ := hchain.inv
  have hentry := vacantAt_eq_some.1 hvacant
  refine ⟨⟨rest, refs.entries.set index (.occupied slot prev)⟩, by rw [reuseVacant, hentry],
    by rw [occupiedAt, hentry]; rfl, writes_set hentry, free, ?_⟩
  apply hrest.congr
  intro i hi
  apply (writes_set hentry).vacantAt_ne
  rintro rfl
  exact (List.nodup_cons.1 hnodup).1 hi

/-- A removed entry is the first of the vacant ones. -/
lemma removeEntry_ok {index slot : Nat} {prev : Option Nat} (hfree : refs.HasFree)
    (hoccupied : refs.occupiedAt index = some (slot, prev)) :
    ∃ refs', refs.removeEntry index = .ok (prev, slot, refs') ∧
      Writes refs refs' index (.vacant refs.nextFree) ∧ refs'.HasFree ∧
      refs'.entries.length = refs.entries.length := by
  obtain ⟨free, hchain⟩ := hfree
  have hentry := occupiedAt_eq_some.1 hoccupied
  refine ⟨⟨some index, refs.entries.set index (.vacant refs.nextFree)⟩, by rw [removeEntry, hentry],
    writes_set hentry, ⟨(index, ()) :: free, .cons (writes_set hentry).vacantAt_self ?_⟩,
    List.length_set⟩
  apply hchain.congr
  intro i hi
  apply (writes_set hentry).vacantAt_ne
  rintro rfl
  exact hchain.next_ne_none hi (by rw [vacantAt, hentry]; rfl)

/-- Draining a list calls `f` with the positions of its nodes. -/
lemma drainList_eq {α : Type} (f : α → Nat → Except Failure α) {nodes : List (Nat × Nat)}
    {start : Option Nat} {turns : Nat} (h : Chain refs.occupiedAt start nodes)
    (hturns : nodes.length ≤ turns) (hfree : refs.HasFree) :
    ∃ refs' : LocalRefsEntries,
      (∀ i, i ∉ nodes.map Prod.fst → refs'.occupiedAt i = refs.occupiedAt i) ∧
      refs'.HasFree ∧ ∀ a, refs.drainList f start a turns =
        (nodes.map Prod.snd).foldlM f a >>= fun a => .ok (refs', a) := by
  induction nodes generalizing refs start turns with
  | nil =>
    obtain rfl : start = none := h
    refine ⟨refs, fun _ _ => rfl, hfree, fun a => ?_⟩
    cases turns <;> rfl
  | cons node nodes ih =>
    have hnodup := h.nodup
    obtain ⟨rfl, rest, hnext, hrest⟩ := h
    rw [List.length_cons] at hturns
    obtain ⟨turns, rfl⟩ : ∃ n, turns = n + 1 := ⟨turns - 1, by omega⟩
    obtain ⟨refs₁, hremove, hwrites, hfree₁, _⟩ := removeEntry_ok hfree hnext
    have hrest₁ : Chain refs₁.occupiedAt rest nodes := by
      apply hrest.congr
      intro i hi
      apply hwrites.occupiedAt_ne
      rintro rfl
      exact (List.nodup_cons.1 hnodup).1 hi
    have hle : nodes.length ≤ turns := by omega
    obtain ⟨refs₂, hsame, hfree₂, hdrain⟩ := ih hrest₁ hle hfree₁
    refine ⟨refs₂, fun i hi => ?_, hfree₂, fun a => ?_⟩
    · have hne := List.ne_of_not_mem_cons hi
      rw [hsame i (List.not_mem_of_not_mem_cons hi), hwrites.occupiedAt_ne hne]
    · rw [drainList, hremove, List.map_cons, List.foldlM_cons, bind_assoc]
      show (f a node.2 >>= fun a => drainList f refs₁ rest a turns) = _
      simp only [hdrain]

/-- There are as many turns as `drain_list_at` needs. -/
lemma length_le_of_chain {nodes : List (Nat × Nat)} {start : Option Nat}
    (h : Chain refs.occupiedAt start nodes) : nodes.length ≤ refs.entries.length := by
  have hsub : nodes.map Prod.fst ⊆ List.range refs.entries.length := by
    intro i hi
    obtain ⟨⟨slot, prev⟩, hoccupied⟩ := Option.ne_none_iff_exists'.1 (h.next_ne_none hi)
    exact List.mem_range.2 (List.getElem?_eq_some_iff.1 (occupiedAt_eq_some.1 hoccupied)).1
  have hle := (List.subperm_of_subset h.nodup hsub).length_le
  rwa [List.length_map, List.length_range] at hle

end LocalRefsEntries

namespace LocalRefs

open LocalRefsEntries

/-- The list of every local has these nodes, each with the position it stands for. -/
structure Indexes (refs : LocalRefs) (nodes : Reg → List (Nat × Nat)) : Prop where
  sorted : Sorted refs.localsLast
  keys : ∀ entry ∈ refs.localsLast, ∃ reg : Reg, entry.1 = reg.toInt
  chains : ∀ reg, Chain refs.entries.occupiedAt (refs.last reg) (nodes reg)
  apart : ∀ reg reg' i, i ∈ (nodes reg).map Prod.fst → i ∈ (nodes reg').map Prod.fst → reg = reg'
  free : refs.entries.HasFree

variable {refs : LocalRefs} {nodes : Reg → List (Nat × Nat)} {reg : Reg} {slot : Nat}

lemma reset_indexes : reset.Indexes fun _ => [] where
  sorted := List.Pairwise.nil
  keys := by simp [reset]
  chains _ := rfl
  apart _ _ _ h := by cases h
  free := ⟨[], rfl⟩

lemma last_insert (reg reg' : Reg) (index : Nat) (entries : LocalRefsEntries) :
    last ⟨SortedMaps.insert reg.toInt index refs.localsLast, entries⟩ reg' =
      if reg' = reg then some index else refs.last reg' := by
  simp only [last, lookup_insert, Int16.toInt_inj]

lemma last_erase (reg reg' : Reg) (entries : LocalRefsEntries) :
    last ⟨SortedMaps.erase reg.toInt refs.localsLast, entries⟩ reg' =
      if reg' = reg then none else refs.last reg' := by
  simp only [last, lookup_erase, Int16.toInt_inj]

lemma keys_insert {index : Nat} (h : ∀ entry ∈ refs.localsLast, ∃ reg : Reg, entry.1 = reg.toInt) :
    ∀ entry ∈ SortedMaps.insert reg.toInt index refs.localsLast,
      ∃ reg : Reg, entry.1 = reg.toInt := by
  intro entry hentry
  obtain rfl | hentry := mem_insert hentry
  · exact ⟨reg, rfl⟩
  · exact h entry hentry

lemma keys_erase (h : ∀ entry ∈ refs.localsLast, ∃ reg : Reg, entry.1 = reg.toInt) :
    ∀ entry ∈ SortedMaps.erase reg.toInt refs.localsLast, ∃ reg : Reg, entry.1 = reg.toInt :=
  fun entry hentry => h entry (List.mem_filter.1 hentry).1

section

variable (h : refs.Indexes nodes)

include h

/-- A list gets a new last node at an index that no list has. -/
lemma Indexes.push {index : Nat} {entries : LocalRefsEntries}
    (hnew : refs.entries.occupiedAt index = none)
    (hwrites : Writes refs.entries entries index (.occupied slot (refs.last reg)))
    (hfree : entries.HasFree) :
    Indexes { refs.updateLast index reg with entries }
      (Function.update nodes reg ((index, slot) :: nodes reg)) := by
  have hnone : ∀ reg', index ∉ (nodes reg').map Prod.fst :=
    fun reg' hmem => (h.chains reg').next_ne_none hmem hnew
  have hchain : ∀ reg', Chain entries.occupiedAt (refs.last reg') (nodes reg') := by
    intro reg'
    apply (h.chains reg').congr
    intro i hi
    apply hwrites.occupiedAt_ne
    rintro rfl
    exact hnone reg' hi
  have hmem : ∀ reg' i, i ∈ (Function.update nodes reg ((index, slot) :: nodes reg) reg').map
      Prod.fst → i = index ∧ reg' = reg ∨ i ∈ (nodes reg').map Prod.fst := by
    intro reg' i hi
    by_cases heq : reg' = reg
    · rw [heq, Function.update_self, List.map_cons, List.mem_cons] at hi
      rw [heq]
      exact hi.imp (⟨·, rfl⟩) id
    · rw [Function.update_of_ne heq] at hi
      exact .inr hi
  refine ⟨h.sorted.insert index, keys_insert h.keys, ?_, ?_, hfree⟩
  · intro reg'
    show Chain entries.occupiedAt (last ⟨SortedMaps.insert _ _ _, _⟩ reg') _
    rw [last_insert]
    by_cases heq : reg' = reg
    · rw [if_pos heq, heq, Function.update_self]
      exact .cons hwrites.occupiedAt_self (hchain reg)
    · rw [if_neg heq, Function.update_of_ne heq]
      exact hchain reg'
  · intro reg₁ reg₂ i h₁ h₂
    obtain ⟨rfl, rfl⟩ | hold₁ := hmem reg₁ i h₁
    · obtain ⟨_, rfl⟩ | hold₂ := hmem reg₂ i h₂
      · rfl
      · exact absurd hold₂ (hnone reg₂)
    · obtain ⟨rfl, rfl⟩ | hold₂ := hmem reg₂ i h₂
      · exact absurd hold₁ (hnone reg₁)
      · exact h.apart reg₁ reg₂ i hold₁ hold₂

/-- `push_at` puts the position in front of the list of the local. -/
lemma pushAt_indexes (reg : Reg) (slot : Nat) :
    ∃ refs' index, refs.pushAt reg slot = .ok refs' ∧
      refs'.Indexes (Function.update nodes reg ((index, slot) :: nodes reg)) := by
  cases hnext : refs.entries.nextFree with
  | none =>
    have hnew : refs.entries.occupiedAt refs.entries.entries.length = none := by
      rw [occupiedAt, List.getElem?_eq_none (Nat.le_refl _)]
      rfl
    refine ⟨_, refs.entries.entries.length, by rw [pushAt, hnext]; rfl,
      h.push hnew writes_append ⟨[], ?_⟩⟩
    exact hnext
  | some index =>
    obtain ⟨entries, hreuse, hnew, hwrites, hfree⟩ := reuseVacant_ok h.free hnext
    refine ⟨_, index, ?_, h.push hnew hwrites hfree⟩
    rw [pushAt, hnext]
    show (refs.entries.reuseVacant index slot (refs.last reg) >>= fun entries =>
      pure { refs.updateLast index reg with entries }) = _
    rw [hreuse]
    rfl

/-- The list of a local gets shorter, the others stay. -/
lemma Indexes.shorten {localsLast : List (Int × Nat)} {entries : LocalRefsEntries}
    {rest : List (Nat × Nat)} (hsorted : Sorted localsLast)
    (hkeys : ∀ entry ∈ localsLast, ∃ reg : Reg, entry.1 = reg.toInt)
    (hlast : ∀ reg', reg' ≠ reg → last ⟨localsLast, entries⟩ reg' = refs.last reg')
    (hchain : Chain entries.occupiedAt (last ⟨localsLast, entries⟩ reg) rest)
    (hsub : ∀ i ∈ rest.map Prod.fst, i ∈ (nodes reg).map Prod.fst)
    (hsame : ∀ i, i ∉ (nodes reg).map Prod.fst →
      entries.occupiedAt i = refs.entries.occupiedAt i) (hfree : entries.HasFree) :
    Indexes ⟨localsLast, entries⟩ (Function.update nodes reg rest) := by
  have hmem : ∀ reg' i, i ∈ (Function.update nodes reg rest reg').map Prod.fst →
      i ∈ (nodes reg').map Prod.fst := by
    intro reg' i hi
    by_cases heq : reg' = reg
    · rw [heq, Function.update_self] at hi
      rw [heq]
      exact hsub i hi
    · rwa [Function.update_of_ne heq] at hi
  refine ⟨hsorted, hkeys, ?_, fun reg₁ reg₂ i h₁ h₂ =>
    h.apart reg₁ reg₂ i (hmem reg₁ i h₁) (hmem reg₂ i h₂), hfree⟩
  intro reg'
  by_cases heq : reg' = reg
  · rw [heq, Function.update_self]
    exact hchain
  · rw [Function.update_of_ne heq, hlast reg' heq]
    apply (h.chains reg').congr
    intro i hi
    exact hsame i fun hmem => heq (h.apart reg' reg i hi hmem)

/-- Without lists all entries may go. -/
lemma Indexes.resetIfEmpty : refs.resetIfEmpty.Indexes nodes := by
  unfold LocalRefs.resetIfEmpty
  split
  case isFalse => exact h
  case isTrue hempty =>
    have hlast : ∀ reg, refs.last reg = none := by
      intro reg
      rw [last, hempty]
      rfl
    refine ⟨h.sorted, h.keys, fun reg => ?_, h.apart, [], rfl⟩
    have hchain := h.chains reg
    rw [hlast reg, chain_none] at hchain
    show Chain _ (refs.last reg) _
    rw [hlast reg, hchain]
    rfl

/-- `pop_at` returns the first position of the list of the local. -/
lemma popAt_indexes {index : Nat} {rest : List (Nat × Nat)}
    (hnodes : nodes reg = (index, slot) :: rest) :
    ∃ refs', refs.popAt reg = .ok (slot, refs') ∧
      refs'.Indexes (Function.update nodes reg rest) := by
  have hchain := h.chains reg
  rw [hnodes] at hchain
  have hnodup := hchain.nodup
  obtain ⟨hlast, prev, hoccupied, hrest⟩ := hchain
  obtain ⟨entries, hremove, hwrites, hfree, _⟩ := removeEntry_ok h.free hoccupied
  have hrest' : Chain entries.occupiedAt prev rest := by
    apply hrest.congr
    intro i hi
    apply hwrites.occupiedAt_ne
    rintro rfl
    exact (List.nodup_cons.1 hnodup).1 hi
  have hsub : ∀ i ∈ rest.map Prod.fst, i ∈ (nodes reg).map Prod.fst := by
    intro i hi
    rw [hnodes]
    exact List.mem_cons_of_mem _ hi
  have hsame : ∀ i, i ∉ (nodes reg).map Prod.fst →
      entries.occupiedAt i = refs.entries.occupiedAt i := by
    intro i hi
    rw [hnodes] at hi
    exact hwrites.occupiedAt_ne (List.ne_of_not_mem_cons hi)
  rw [popAt, hlast]
  dsimp only
  rw [hremove, ok_bind]
  dsimp only
  cases prev with
  | none =>
    refine ⟨_, rfl, Indexes.resetIfEmpty (h.shorten (h.sorted.erase _) (keys_erase h.keys) ?_ ?_ hsub
      hsame hfree)⟩
    · intro reg' hne
      rw [last_erase, if_neg hne]
    · rw [last_erase, if_pos rfl]
      exact hrest'
  | some prev =>
    refine ⟨_, rfl, Indexes.resetIfEmpty (h.shorten (h.sorted.insert _) (keys_insert h.keys) ?_ ?_
      hsub hsame hfree)⟩
    · intro reg' hne
      rw [last_insert, if_neg hne]
    · rw [last_insert, if_pos rfl]
      exact hrest'

/-- `drain_at` calls `f` with all positions of the local. -/
lemma drainAt_indexes {α : Type} (reg : Reg) (f : α → Nat → Except Failure α) :
    ∃ refs' : LocalRefs, refs'.Indexes (Function.update nodes reg []) ∧
      ∀ a, refs.drainAt reg f a =
        ((nodes reg).map Prod.snd).foldlM f a >>= fun a => .ok (refs', a) := by
  have hchain := h.chains reg
  cases hlast : refs.last reg with
  | none =>
    rw [hlast, chain_none] at hchain
    refine ⟨refs, ?_, fun a => ?_⟩
    · rw [← hchain, Function.update_eq_self]
      exact h
    · rw [drainAt, hlast, hchain]
      rfl
  | some index =>
    rw [hlast] at hchain
    obtain ⟨entries, hsame, hfree, hdrain⟩ :=
      drainList_eq f hchain (length_le_of_chain hchain) h.free
    refine ⟨_, Indexes.resetIfEmpty (h.shorten (h.sorted.erase reg.toInt) (keys_erase h.keys) ?_ ?_
      (by simp) hsame hfree), fun a => ?_⟩
    · intro reg' hne
      rw [last_erase, if_neg hne]
    · rw [last_erase, if_pos rfl]
      rfl
    · rw [drainAt, hlast]
      show (drainList f refs.entries (some index) a refs.entries.entries.length >>= _) = _
      rw [hdrain, bind_assoc]
      rfl

end

/-- The positions of the locals, in the order in which `drain_all` goes through them. -/
def drained (nodes : Reg → List (Nat × Nat)) (localsLast : List (Int × Nat)) : List (Reg × Nat) :=
  localsLast.flatMap fun entry =>
    (nodes (Int16.ofInt entry.1)).map fun node => (Int16.ofInt entry.1, node.2)

lemma drainLists_eq {α : Type} (f : α → Reg → Nat → Except Failure α) {localsLast : List (Int × Nat)}
    {entries : LocalRefsEntries} (hsorted : Sorted localsLast)
    (hkeys : ∀ entry ∈ localsLast, ∃ reg : Reg, entry.1 = reg.toInt)
    (hchains : ∀ entry ∈ localsLast,
      Chain entries.occupiedAt (some entry.2) (nodes (Int16.ofInt entry.1)))
    (hapart : ∀ reg reg' i, i ∈ (nodes reg).map Prod.fst → i ∈ (nodes reg').map Prod.fst → reg = reg')
    (hfree : entries.HasFree) (a : α) :
    drainLists f entries a localsLast =
      (drained nodes localsLast).foldlM (fun a entry => f a entry.1 entry.2) a := by
  induction localsLast generalizing entries a with
  | nil => rfl
  | cons first localsLast ih =>
    obtain ⟨hfirst, hsorted⟩ := List.pairwise_cons.1 hsorted
    have hchain := hchains first List.mem_cons_self
    obtain ⟨entries', hsame, hfree', hdrain⟩ :=
      drainList_eq (fun a => f a (Int16.ofInt first.1)) hchain (length_le_of_chain hchain) hfree
    have hchains' : ∀ entry ∈ localsLast,
        Chain entries'.occupiedAt (some entry.2) (nodes (Int16.ofInt entry.1)) := by
      intro entry hentry
      apply (hchains entry (List.mem_cons_of_mem _ hentry)).congr
      intro i hi
      apply hsame
      intro hi'
      -- lists of different locals have no node in common
      obtain ⟨reg, hreg⟩ := hkeys first List.mem_cons_self
      obtain ⟨reg', hreg'⟩ := hkeys entry (List.mem_cons_of_mem _ hentry)
      have heq := hapart _ _ i hi' hi
      have hlt := hfirst entry hentry
      rw [hreg, hreg', Int16.ofInt_toInt, Int16.ofInt_toInt] at heq
      rw [hreg, hreg', heq] at hlt
      omega
    rw [drainLists]
    show (drainList (fun a => f a (Int16.ofInt first.1)) entries (some first.2) a _ >>= _) = _
    rw [hdrain, bind_assoc, drained, List.flatMap_cons, List.foldlM_append, List.foldlM_map,
      List.foldlM_map]
    congr 1
    funext a
    exact ih hsorted (fun entry hentry => hkeys entry (List.mem_cons_of_mem _ hentry)) hchains' hfree' a

/-- `drain_all` calls `f` with all positions of all locals. -/
lemma drainAll_eq {α : Type} (h : refs.Indexes nodes) (f : α → Reg → Nat → Except Failure α) (a : α) :
    refs.drainAll f a = (drained nodes refs.localsLast).foldlM (fun a entry => f a entry.1 entry.2) a
      >>= fun a => .ok (reset, a) := by
  have hchains : ∀ entry ∈ refs.localsLast,
      Chain refs.entries.occupiedAt (some entry.2) (nodes (Int16.ofInt entry.1)) := by
    intro entry hentry
    obtain ⟨reg, hreg⟩ := h.keys entry hentry
    have hmem : (reg.toInt, entry.2) ∈ refs.localsLast := by
      rw [← hreg]
      exact hentry
    have hchain := h.chains reg
    rw [last, (lookup_eq_some h.sorted).2 hmem] at hchain
    rw [hreg, Int16.ofInt_toInt]
    exact hchain
  rw [drainAll, drainLists_eq f h.sorted h.keys hchains h.apart h.free]
  rfl

/-- The lists of the locals that have one are those that are drained. -/
lemma Indexes.mem_drained (h : refs.Indexes nodes) {entry : Reg × Nat} :
    entry ∈ drained nodes refs.localsLast ↔ entry.2 ∈ (nodes entry.1).map Prod.snd := by
  rw [drained, List.mem_flatMap]
  constructor
  · rintro ⟨⟨key, index⟩, _, hentry⟩
    obtain ⟨node, hnode, rfl⟩ := List.mem_map.1 hentry
    exact List.mem_map_of_mem hnode
  · intro hentry
    obtain ⟨node, hnode, hslot⟩ := List.mem_map.1 hentry
    have hchain := h.chains entry.1
    cases hlast : refs.last entry.1 with
    | none =>
      rw [hlast, chain_none] at hchain
      rw [hchain] at hnode
      cases hnode
    | some index =>
      refine ⟨_, (lookup_eq_some h.sorted).1 hlast, List.mem_map.2 ⟨node, ?_, ?_⟩⟩
      · rwa [Int16.ofInt_toInt]
      · rw [hslot, Int16.ofInt_toInt]

/-- No position is drained twice, if none is in the lists of two locals. -/
lemma Indexes.nodup_drained (h : refs.Indexes nodes)
    (hnodup : ∀ reg, ((nodes reg).map Prod.snd).Nodup)
    (hapart : ∀ reg reg' slot, slot ∈ (nodes reg).map Prod.snd → slot ∈ (nodes reg').map Prod.snd →
      reg = reg') : ((drained nodes refs.localsLast).map Prod.snd).Nodup := by
  have hslots : (drained nodes refs.localsLast).map Prod.snd =
      refs.localsLast.flatMap fun entry => (nodes (Int16.ofInt entry.1)).map Prod.snd := by
    rw [drained, List.map_flatMap]
    simp only [List.map_map]
    rfl
  rw [hslots, List.nodup_flatMap]
  refine ⟨fun entry _ => hnodup _, ?_⟩
  apply h.sorted.imp_of_mem
  intro entry entry' hentry hentry' hlt slot hslot hslot'
  obtain ⟨reg, hreg⟩ := h.keys entry hentry
  obtain ⟨reg', hreg'⟩ := h.keys entry' hentry'
  have heq := hapart _ _ slot hslot hslot'
  rw [hreg, hreg', Int16.ofInt_toInt, Int16.ofInt_toInt] at heq
  rw [hreg, hreg', heq] at hlt
  omega

/-- The locals are drained from the lowest to the highest one. -/
lemma Indexes.sorted_drained (h : refs.Indexes nodes) :
    (drained nodes refs.localsLast).Pairwise fun entry entry' => entry.1.toInt ≤ entry'.1.toInt := by
  rw [drained, List.pairwise_flatMap]
  refine ⟨fun entry _ => ?_, h.sorted.imp_of_mem ?_⟩
  · rw [List.pairwise_map]
    exact List.pairwise_of_forall fun _ _ => Int.le_refl _
  · intro entry entry' hentry hentry' hlt x hx y hy
    obtain ⟨_, _, rfl⟩ := List.mem_map.1 hx
    obtain ⟨_, _, rfl⟩ := List.mem_map.1 hy
    obtain ⟨reg, hreg⟩ := h.keys entry hentry
    obtain ⟨reg', hreg'⟩ := h.keys entry' hentry'
    rw [hreg, hreg'] at hlt
    rw [hreg, hreg', Int16.ofInt_toInt, Int16.ofInt_toInt]
    exact Int.le_of_lt hlt

end LocalRefs

end MotokoDebugger.Translator
