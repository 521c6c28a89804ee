import Mathlib.Tactic.Common
import Mathlib.Logic.Function.Basic
import Mathlib.Data.List.Nodup

/-!
# Tables that are filled entry by entry

* `insertAll`: the entries of a list are inserted into a table, one after the other.
* `Records`: a table has the entries of a list, and no others.
* `records_insertAll`: an empty table records the entries that are inserted into it, if no two of
  them have the same key.
-/

namespace Tables

variable {κ α : Type} [DecidableEq κ]

/-- Inserts the entries; a later one replaces an earlier one with its key. -/
def insertAll (table : κ → Option α) (entries : List (κ × α)) : κ → Option α :=
  entries.foldl (fun table entry => Function.update table entry.1 (some entry.2)) table

/-- The empty table. -/
def empty : κ → Option α := fun _ => none

/-- The table has the entries of the list, and no others. -/
def Records (table : κ → Option α) (entries : List (κ × α)) : Prop :=
  ∀ key value, table key = some value ↔ (key, value) ∈ entries

lemma insertAll_of_notMem {entries : List (κ × α)} {key : κ} (h : key ∉ entries.map Prod.fst)
    (table : κ → Option α) : insertAll table entries key = table key := by
  induction entries generalizing table with
  | nil => rfl
  | cons entry entries ih =>
    rw [List.map_cons, List.mem_cons, not_or] at h
    rw [insertAll, List.foldl_cons]
    exact (ih h.2 _).trans (Function.update_of_ne h.1 _ _)

lemma insertAll_of_mem {entries : List (κ × α)} (hkeys : (entries.map Prod.fst).Nodup)
    {entry : κ × α} (h : entry ∈ entries) (table : κ → Option α) :
    insertAll table entries entry.1 = some entry.2 := by
  induction entries generalizing table with
  | nil => cases h
  | cons first entries ih =>
    rw [List.map_cons, List.nodup_cons] at hkeys
    rw [insertAll, List.foldl_cons]
    rcases List.mem_cons.mp h with rfl | hrest
    · exact (insertAll_of_notMem hkeys.1 _).trans (Function.update_self _ _ _)
    · exact ih hkeys.2 hrest _

/-- Entries without a common key are recorded. -/
theorem records_insertAll {entries : List (κ × α)} (hkeys : (entries.map Prod.fst).Nodup) :
    Records (insertAll empty entries) entries := by
  intro key value
  constructor
  · intro hsome
    have hkey : key ∈ entries.map Prod.fst := by
      by_contra hnot
      rw [insertAll_of_notMem hnot] at hsome
      cases hsome
    obtain ⟨entry, hentry, rfl⟩ := List.mem_map.mp hkey
    rw [insertAll_of_mem hkeys hentry] at hsome
    cases hsome
    exact hentry
  · intro hmem
    exact insertAll_of_mem hkeys hmem _

omit [DecidableEq κ] in
/-- Lists that one table records have the same keys. -/
lemma Records.mem_keys_iff {table : κ → Option α} {entries entries' : List (κ × α)}
    (h : Records table entries) (h' : Records table entries') (key : κ) :
    key ∈ entries.map Prod.fst ↔ key ∈ entries'.map Prod.fst := by
  have hiff : ∀ entry, entry ∈ entries ↔ entry ∈ entries' :=
    fun entry => (h entry.1 entry.2).symm.trans (h' entry.1 entry.2)
  simp only [List.mem_map, hiff]

/-- Where a list with a new last element has an element. -/
lemma getElem?_concat_eq_some {l : List α} {a b : α} {i : Nat} :
    (l ++ [a])[i]? = some b ↔ l[i]? = some b ∨ i = l.length ∧ a = b := by
  by_cases hlt : i < l.length
  · rw [List.getElem?_append_left hlt]
    constructor
    · exact .inl
    · intro h
      exact h.resolve_right (by omega)
  · rw [List.getElem?_append_right (by omega), List.getElem?_eq_none (by omega : l.length ≤ i)]
    by_cases heq : i = l.length
    · simp [heq]
    · have hne : i - l.length ≠ 0 := by omega
      simp [heq, hne]

end Tables
