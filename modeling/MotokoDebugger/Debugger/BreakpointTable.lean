import MotokoDebugger.Debugger.Breakpoints
import Mathlib.Data.List.Nodup
import Mathlib.Data.List.Perm.Basic

/-!
# The numbers of the breakpoints

`debugger/src/commands/breakpoint.rs` and the listing and the deletion of `MainDebugger`. The two
maps of the table have an arbitrary order, which any change of the table may rearrange.

* `TableRun`: the runs of `set`, `list` and `delete`.
* `numbered_iff`: the table for which the listing and the deletion number alike.
* `numbered_runs_iff`: the sequences of operations that keep to such tables.
-/

namespace MotokoDebugger

namespace Breakpoints

/-- Is this breakpoint in one of the maps? -/
def IsSet (breakpoints : Breakpoints) : Breakpoint → Prop
  | .function name => name ∈ breakpoints.functionMap
  | .instruction instOffset => instOffset ∈ breakpoints.instMap

instance (breakpoints : Breakpoints) : DecidablePred breakpoints.IsSet
  | .function name => inferInstanceAs (Decidable (name ∈ breakpoints.functionMap))
  | .instruction instOffset => inferInstanceAs (Decidable (instOffset ∈ breakpoints.instMap))

/-- `MainDebugger::list_breakpoints`: the values of the function map. -/
def listBreakpoints (breakpoints : Breakpoints) : List Breakpoint :=
  breakpoints.functionMap.map .function

/-- The line that `BreakpointCommand` prints for a breakpoint of the list. -/
def listLine (entry : Breakpoint × Nat) : Option String :=
  match entry.1 with
  | .function name => some ((toString entry.2).rightpad 2 ' ' ++ ". function(" ++ name ++ ")")
  | .instruction _ => none

/-- The breakpoints that `BreakpointCommand` shows, with their numbers. -/
def listing (breakpoints : Breakpoints) : List (Breakpoint × Nat) :=
  breakpoints.listBreakpoints.zipIdx.filter fun entry => (listLine entry).isSome

/-- The same breakpoints, their maps in another order. -/
structure Rearranged (b b' : Breakpoints) : Prop where
  functions : b.functionMap.Perm b'.functionMap
  insts : b.instMap.Perm b'.instMap
  file0 : b.instInFile0 = b'.instInFile0

/-- The keys of a map are distinct. -/
structure KeysDistinct (b : Breakpoints) : Prop where
  functions : b.functionMap.Nodup
  insts : b.instMap.Nodup

/-! ## The listing and the deletion -/

/-- Every breakpoint of the list is a function, so each one is shown at its position. -/
lemma mem_listing {b : Breakpoints} {breakpoint : Breakpoint} {number : Nat} :
    (breakpoint, number) ∈ b.listing ↔
      ∃ name, b.functionMap[number]? = some name ∧ .function name = breakpoint := by
  have hshown : ∀ name, (listLine (.function name, number)).isSome := fun _ => rfl
  have hat : b.listBreakpoints[number]? = (b.functionMap[number]?).map .function := by
    rw [listBreakpoints, List.getElem?_map]
  rw [listing, List.mem_filter, List.mem_zipIdx_iff_getElem?, hat, Option.map_eq_some_iff]
  constructor
  · rintro ⟨h, -⟩
    exact h
  · rintro ⟨name, hname, rfl⟩
    exact ⟨⟨name, hname, rfl⟩, hshown name⟩

lemma listing_eq (b : Breakpoints) : b.listing = b.listBreakpoints.zipIdx := by
  rw [listing, List.filter_eq_self]
  intro entry hentry
  have hmem : entry.1 ∈ b.listBreakpoints := (List.mem_zipIdx hentry).2.2 ▸ List.getElem_mem _
  obtain ⟨name, -, hname⟩ := List.mem_map.mp hmem
  rw [listLine, ← hname]
  rfl

/-- The numbers count up from zero. -/
lemma numbers_listing (b : Breakpoints) :
    b.listing.map Prod.snd = List.range b.listing.length := by
  rw [listing_eq, List.length_zipIdx, List.range_eq_range', List.zipIdx_map_snd]

/-- Where no instruction is in the table, what is set has one number in the listing. -/
lemma isSet_iff_listed {b : Breakpoints} (hb : b.KeysDistinct) (hempty : b.instMap = [])
    {breakpoint : Breakpoint} :
    b.IsSet breakpoint ↔ ∃! number, (breakpoint, number) ∈ b.listing := by
  constructor
  · intro hset
    cases breakpoint with
    | instruction instOffset =>
      have hmem : instOffset ∈ b.instMap := hset
      rw [hempty] at hmem
      exact absurd hmem List.not_mem_nil
    | function name =>
      have hmem : name ∈ b.functionMap := hset
      obtain ⟨number, hnumber⟩ := List.mem_iff_getElem?.mp hmem
      refine ⟨number, mem_listing.mpr ⟨name, hnumber, rfl⟩, fun other hother => ?_⟩
      -- a key stands at one position of the map only
      obtain ⟨name', hname', heq⟩ := mem_listing.mp hother
      cases heq
      have hlt := (List.getElem?_eq_some_iff.mp hname').1
      exact (List.getElem?_inj hlt hb.functions).mp (hname'.trans hnumber.symm)
  · rintro ⟨number, hmem, -⟩
    obtain ⟨name, hname, rfl⟩ := mem_listing.mp hmem
    exact List.mem_of_getElem? hname

/-- Deleting below the number of functions removes the function at that position. -/
lemma delete_function {b : Breakpoints} (hb : b.KeysDistinct) {number : Nat} {name : String}
    (h : b.functionMap[number]? = some name) :
    ∃ b', b.delete number = .ok b' ∧
      ∀ breakpoint, b'.IsSet breakpoint ↔ b.IsSet breakpoint ∧ breakpoint ≠ .function name := by
  have hlt : number < b.functionMap.length := (List.getElem?_eq_some_iff.mp h).1
  refine ⟨{ b with functionMap := b.functionMap.eraseIdx number }, ?_, ?_⟩
  · rw [delete, if_neg (by omega), if_pos hlt]
  · intro breakpoint
    cases breakpoint with
    | instruction instOffset => simp [IsSet]
    | function other =>
      show other ∈ b.functionMap.eraseIdx number ↔ _
      rw [List.mem_eraseIdx_iff_getElem?]
      simp only [IsSet, ne_eq, Breakpoint.function.injEq, List.mem_iff_getElem?]
      constructor
      · rintro ⟨i, hne, hi⟩
        refine ⟨⟨i, hi⟩, fun heq => hne ?_⟩
        have hilt : i < b.functionMap.length := (List.getElem?_eq_some_iff.mp hi).1
        exact (List.getElem?_inj hilt hb.functions).mp (by rw [hi, h, heq])
      · rintro ⟨⟨i, hi⟩, hne⟩
        refine ⟨i, fun heq => hne ?_, hi⟩
        rw [heq, h] at hi
        exact (Option.some.inj hi).symm

/-- Where no instruction is in the table, a number behind the functions is refused. -/
lemma delete_refused {b : Breakpoints} (hb : b.instMap = []) {number : Nat}
    (h : b.functionMap.length ≤ number) : b.delete number = .error "Invalid breakpoint id" := by
  have hlen : number ≥ b.functionMap.length + b.instMap.length := by
    rw [hb]
    exact h
  rw [delete, if_pos hlen]

/-- The first number behind the functions deletes an instruction, if there is one. -/
lemma delete_instruction {b : Breakpoints} (hb : b.instMap ≠ []) :
    ∃ b', b.delete b.functionMap.length = .ok b' := by
  have hlen : 0 < b.instMap.length := List.length_pos_iff.mpr hb
  rw [delete, if_neg (by omega), if_neg (by omega)]
  exact ⟨_, rfl⟩

end Breakpoints

/-! ## Runs of the command -/

open Breakpoints

/-- The operations of `BreakpointCommand`. -/
inductive TableOp where
  | set (breakpoint : Breakpoint)
  | list
  | delete (id : Nat)
deriving Repr, DecidableEq

/-- The table, and what was last listed if the table has not changed since. -/
structure TableState where
  table : Breakpoints
  lastListing : Option (List (Breakpoint × Nat))

/-- An operation. A change may rearrange the maps; a deletion that fails changes nothing. -/
inductive TableStep : TableState → TableOp → TableState → Prop where
  | set {t : TableState} {breakpoint : Breakpoint} {b' : Breakpoints} :
      Rearranged (t.table.insert breakpoint) b' → TableStep t (.set breakpoint) ⟨b', none⟩
  | list {t : TableState} : TableStep t .list ⟨t.table, some t.table.listing⟩
  | delete {t : TableState} {id : Nat} {b b' : Breakpoints} :
      t.table.delete id = .ok b → Rearranged b b' → TableStep t (.delete id) ⟨b', none⟩
  | refused {t : TableState} {id : Nat} {text : String} :
      t.table.delete id = .error text → TableStep t (.delete id) t

/-- A sequence of operations. -/
inductive TableRun : List TableOp → TableState → TableState → Prop where
  | nil (t : TableState) : TableRun [] t t
  | snoc {ops : List TableOp} {op : TableOp} {t t' t'' : TableState} :
      TableRun ops t t' → TableStep t' op t'' → TableRun (ops ++ [op]) t t''

/-- The table of a new debugger. -/
def freshTable (instInFile0 : List Nat) : TableState := ⟨{ instInFile0 }, none⟩

/-- The listing numbers the breakpoints that are set, and the deletion goes by its numbers. -/
structure Numbered (t : TableState) : Prop where
  current : ∀ shown, t.lastListing = some shown → shown = t.table.listing
  consecutive : t.table.listing.map Prod.snd = List.range t.table.listing.length
  complete : ∀ breakpoint, t.table.IsSet breakpoint ↔
    ∃! number, (breakpoint, number) ∈ t.table.listing
  deletes : ∀ breakpoint number, (breakpoint, number) ∈ t.table.listing →
    ∃ b', t.table.delete number = .ok b' ∧
      ∀ other, b'.IsSet other ↔ t.table.IsSet other ∧ other ≠ breakpoint
  refuses : ∀ number, (∀ breakpoint, (breakpoint, number) ∉ t.table.listing) →
    ∃ text, t.table.delete number = .error text

/-- The listing and the deletion agree on the numbers where no instruction is in the table. -/
theorem numbered_iff {t : TableState} (hkeys : t.table.KeysDistinct)
    (hcurrent : ∀ shown, t.lastListing = some shown → shown = t.table.listing) :
    Numbered t ↔ t.table.instMap = [] := by
  constructor
  · intro h
    by_contra hne
    -- the number behind the functions is not shown, but it deletes an instruction
    have hfree : ∀ breakpoint, (breakpoint, t.table.functionMap.length) ∉ t.table.listing := by
      intro breakpoint hmem
      obtain ⟨name, hname, -⟩ := mem_listing.mp hmem
      have hlt := (List.getElem?_eq_some_iff.mp hname).1
      omega
    obtain ⟨text, htext⟩ := h.refuses _ hfree
    obtain ⟨b', hb'⟩ := delete_instruction hne
    rw [htext] at hb'
    cases hb'
  · intro hempty
    refine ⟨hcurrent, numbers_listing _, fun _ => isSet_iff_listed hkeys hempty, ?_, ?_⟩
    · intro breakpoint number hmem
      obtain ⟨name, hname, rfl⟩ := mem_listing.mp hmem
      exact delete_function hkeys hname
    · intro number hfree
      refine ⟨_, delete_refused hempty ?_⟩
      by_contra hlt
      have hat : t.table.functionMap[number]? = some t.table.functionMap[number] :=
        List.getElem?_eq_getElem (by omega)
      exact hfree _ (mem_listing.mpr ⟨_, hat, rfl⟩)

/-! ## What the operations keep -/

namespace Breakpoints

lemma KeysDistinct.insert {b : Breakpoints} (h : b.KeysDistinct) (breakpoint : Breakpoint) :
    (b.insert breakpoint).KeysDistinct := by
  cases breakpoint with
  | function name => exact ⟨List.Nodup.insert h.functions, h.insts⟩
  | instruction instOffset => exact ⟨h.functions, List.Nodup.insert h.insts⟩

lemma delete_eq_ok {b b' : Breakpoints} {id : Nat} (h : b.delete id = .ok b') :
    b' = { b with functionMap := b.functionMap.eraseIdx id } ∨
      b' = { b with instMap := b.instMap.eraseIdx (id - b.functionMap.length) } := by
  simp only [delete] at h
  split at h
  · cases h
  split at h
  · exact .inl (Except.ok.inj h).symm
  · exact .inr (Except.ok.inj h).symm

lemma KeysDistinct.delete {b b' : Breakpoints} {id : Nat} (hb : b.KeysDistinct)
    (h : b.delete id = .ok b') : b'.KeysDistinct := by
  rcases delete_eq_ok h with rfl | rfl
  · exact ⟨hb.functions.eraseIdx id, hb.insts⟩
  · exact ⟨hb.functions, hb.insts.eraseIdx _⟩

lemma KeysDistinct.rearranged {b b' : Breakpoints} (hb : b.KeysDistinct)
    (h : Rearranged b b') : b'.KeysDistinct :=
  ⟨h.functions.nodup_iff.mp hb.functions, h.insts.nodup_iff.mp hb.insts⟩

lemma Rearranged.refl (b : Breakpoints) : Rearranged b b := ⟨.refl _, .refl _, rfl⟩

lemma Rearranged.noInsts {b b' : Breakpoints} (h : Rearranged b b') (hb : b.instMap = []) :
    b'.instMap = [] := by
  have hperm := h.insts
  rw [hb] at hperm
  exact hperm.nil_eq.symm

end Breakpoints

/-- What holds in every state of a run. -/
structure TableInv (t : TableState) : Prop where
  keys : t.table.KeysDistinct
  current : ∀ shown, t.lastListing = some shown → shown = t.table.listing

lemma TableInv.step {t t' : TableState} {op : TableOp} (ht : TableInv t)
    (h : TableStep t op t') : TableInv t' := by
  cases h with
  | set hre => exact ⟨(ht.keys.insert _).rearranged hre, by simp⟩
  | list => exact ⟨ht.keys, by simp⟩
  | delete hdelete hre => exact ⟨(ht.keys.delete hdelete).rearranged hre, by simp⟩
  | refused => exact ht

lemma tableInv_of_run {file0 : List Nat} {ops : List TableOp} {t : TableState}
    (h : TableRun ops (freshTable file0) t) : TableInv t := by
  generalize hfresh : freshTable file0 = start at h
  induction h with
  | nil => exact hfresh ▸ ⟨⟨List.nodup_nil, List.nodup_nil⟩, by simp [freshTable]⟩
  | snoc _ hstep ih => exact (ih hfresh).step hstep

/-- An operation that does not set an instruction leaves none in the table. -/
lemma noInsts_step {t t' : TableState} {op : TableOp} (h : TableStep t op t')
    (hop : ∀ instOffset, op ≠ .set (.instruction instOffset)) (ht : t.table.instMap = []) :
    t'.table.instMap = [] := by
  cases h with
  | @set breakpoint b' hre =>
    cases breakpoint with
    | function name => exact hre.noInsts ht
    | instruction instOffset => exact absurd rfl (hop instOffset)
  | list => exact ht
  | delete hdelete hre =>
    apply hre.noInsts
    rcases delete_eq_ok hdelete with rfl | rfl
    · exact ht
    · show t.table.instMap.eraseIdx _ = []
      rw [ht]
      rfl
  | refused => exact ht

lemma noInsts_of_run {file0 : List Nat} {ops : List TableOp} {t : TableState}
    (h : TableRun ops (freshTable file0) t)
    (hops : ∀ instOffset, .set (.instruction instOffset) ∉ ops) : t.table.instMap = [] := by
  generalize hfresh : freshTable file0 = start at h
  induction h with
  | nil => exact hfresh ▸ rfl
  | @snoc ops op _ _ _ _ hstep ih =>
    have hinit : ∀ instOffset, .set (.instruction instOffset) ∉ ops :=
      fun instOffset hmem => hops instOffset (List.mem_append_left _ hmem)
    have hlast : ∀ instOffset, op ≠ .set (.instruction instOffset) :=
      fun instOffset heq => hops instOffset (by simp [heq])
    exact noInsts_step hstep hlast (ih hinit hfresh)

/-- Every operation can be performed. -/
lemma exists_step (t : TableState) (op : TableOp) : ∃ t', TableStep t op t' := by
  cases op with
  | set breakpoint => exact ⟨_, .set (.refl _)⟩
  | list => exact ⟨_, .list⟩
  | delete id =>
    cases h : t.table.delete id with
    | ok b => exact ⟨_, .delete h (.refl _)⟩
    | error text => exact ⟨_, .refused h⟩

lemma exists_run (start : TableState) (ops : List TableOp) : ∃ t, TableRun ops start t := by
  induction ops using List.reverseRecOn with
  | nil => exact ⟨start, .nil start⟩
  | append_singleton ops op ih =>
    obtain ⟨t, hrun⟩ := ih
    obtain ⟨t', hstep⟩ := exists_step t op
    exact ⟨t', hrun.snoc hstep⟩

/-! ## Main result -/

/-- The numbers are right in every state that a sequence of operations reaches, in whatever order
the maps are, if and only if it sets no instruction breakpoint. -/
theorem numbered_runs_iff (file0 : List Nat) (ops : List TableOp) :
    (∀ done t, done <+: ops → TableRun done (freshTable file0) t → Numbered t) ↔
      ∀ instOffset, .set (.instruction instOffset) ∉ ops := by
  constructor
  · intro h instOffset hmem
    obtain ⟨before, after, hops⟩ := List.append_of_mem hmem
    obtain ⟨t, hrun⟩ := exists_run (freshTable file0) before
    have hset := hrun.snoc (.set (.refl (t.table.insert (.instruction instOffset))))
    have hdone : before ++ [.set (.instruction instOffset)] <+: ops := ⟨after, by simp [hops]⟩
    have hnumbered := h _ _ hdone hset
    have hinv := tableInv_of_run hset
    have hempty : t.table.instMap.insert instOffset = [] :=
      (numbered_iff hinv.keys hinv.current).mp hnumbered
    have hin : instOffset ∈ t.table.instMap.insert instOffset := List.mem_insert_self
    rw [hempty] at hin
    exact List.not_mem_nil hin
  · intro hops done t hdone hrun
    have hinv := tableInv_of_run hrun
    apply (numbered_iff hinv.keys hinv.current).mpr
    exact noInsts_of_run hrun fun instOffset hmem => hops instOffset (hdone.subset hmem)

/-- One instruction breakpoint: nothing is listed, and `delete 0` removes it. -/
theorem unlisted_is_deleted :
    ∃ t, TableRun [.set (.instruction 16), .list] (freshTable []) t ∧
      t.lastListing = some [] ∧ TableStep t (.delete 0) (freshTable []) ∧ ¬ Numbered t := by
  have hset : TableStep (freshTable []) (.set (.instruction 16)) ⟨{ instMap := [16] }, none⟩ :=
    .set (.refl _)
  have hrun : TableRun [.set (.instruction 16), .list] (freshTable [])
      ⟨{ instMap := [16] }, some []⟩ := ((TableRun.nil _).snoc hset).snoc .list
  refine ⟨_, hrun, rfl, .delete rfl (.refl _), fun h => ?_⟩
  have hinv := tableInv_of_run hrun
  exact absurd ((numbered_iff hinv.keys hinv.current).mp h) (by decide)

end MotokoDebugger
