import Mathlib.Tactic.Common
import Mathlib.Order.Lattice

/-!
# Sorted maps

Maps as lists of entries in the order of their keys.

* `collect`: the map that entries are inserted into, one after the other.
* `floor`: the last of the entries with the highest key up to a given one.
* `floor_collect`: a map has the same floors as the entries that were inserted into it.
* `atOrBelow_eq_floor`: the binary search of a map finds the floor.
* `lookup_insert`, `lookup_erase`: the value of a key, after a key is inserted or removed.
-/

namespace SortedMaps

variable {κ α β : Type} [LinearOrder κ]

/-- Inserts an entry; it replaces the one with the same key. -/
def insert (key : κ) (value : α) : List (κ × α) → List (κ × α)
  | [] => [(key, value)]
  | entry :: map =>
    if key < entry.1 then (key, value) :: entry :: map
    else if entry.1 < key then entry :: insert key value map
    else (key, value) :: map

/-- The map of the entries; a later one replaces an earlier one with its key. -/
def collect (entries : List (κ × α)) : List (κ × α) :=
  entries.foldl (fun map entry => insert entry.1 entry.2 map) []

/-- The keys increase. -/
def Sorted (map : List (κ × α)) : Prop := map.Pairwise fun entry entry' => entry.1 < entry'.1

/-- The position of a key, or the one to insert it at. -/
def search (key : κ) : List (κ × α) → Except Nat Nat
  | [] => .error 0
  | entry :: map =>
    if key < entry.1 then .error 0
    else if entry.1 = key then .ok 0
    else
      match search key map with
      | .ok i => .ok (i + 1)
      | .error i => .error (i + 1)

/-- The entry that a search finds, or the one in front of the position for the key. -/
def atOrBelow (key : κ) (map : List (κ × α)) : Option (κ × α) :=
  match search key map with
  | .ok i => map[i]?
  | .error i => if i > 0 then map[i - 1]? else none

/-- The entry with the higher key; the second one if they are the same. -/
def later : Option (κ × α) → Option (κ × α) → Option (κ × α)
  | entry, none => entry
  | none, entry' => entry'
  | some entry, some entry' => if entry'.1 < entry.1 then some entry else some entry'

/-- The last of the entries with the highest key up to `key`. -/
def floor (key : κ) : List (κ × α) → Option (κ × α)
  | [] => none
  | entry :: entries => later (if entry.1 ≤ key then some entry else none) (floor key entries)

/-! ## Floors -/

@[simp] lemma later_none (entry : Option (κ × α)) : later entry none = entry := by
  cases entry <;> rfl

@[simp] lemma none_later (entry : Option (κ × α)) : later none entry = entry := by
  cases entry <;> rfl

@[simp] lemma some_later (entry entry' : κ × α) :
    later (some entry) (some entry') =
      if entry'.1 < entry.1 then some entry else some entry' := rfl

lemma later_assoc (a b c : Option (κ × α)) : later (later a b) c = later a (later b c) := by
  match a, b, c with
  | none, _, _ => rw [none_later, none_later]
  | some _, none, _ => rw [later_none, none_later]
  | some _, some _, none => rw [later_none, later_none]
  | some a, some b, some c =>
    rw [some_later, some_later]
    by_cases hba : b.1 < a.1
    · by_cases hcb : c.1 < b.1
      · rw [if_pos hba, if_pos hcb, some_later, some_later, if_pos hba, if_pos (hcb.trans hba)]
      · rw [if_pos hba, if_neg hcb]
    · by_cases hcb : c.1 < b.1
      · rw [if_neg hba, if_pos hcb, some_later, some_later, if_neg hba, if_pos hcb]
      · -- the last key is not below the first one either
        have hca : ¬c.1 < a.1 := not_lt.mpr ((not_lt.mp hba).trans (not_lt.mp hcb))
        rw [if_neg hba, if_neg hcb, some_later, some_later, if_neg hcb, if_neg hca]

/-- The later of two entries is one of them, and none of them is higher. -/
lemma later_spec {a b : Option (κ × α)} {entry : κ × α} (h : later a b = some entry) :
    (a = some entry ∨ b = some entry) ∧ (∀ other, a = some other → other.1 ≤ entry.1) ∧
      ∀ other, b = some other → other.1 ≤ entry.1 := by
  rcases a with _ | a <;> rcases b with _ | b
  · cases h
  · cases h
    simp
  · cases h
    simp
  · rw [some_later] at h
    by_cases hlt : b.1 < a.1
    · rw [if_pos hlt] at h
      cases h
      simp [hlt.le]
    · rw [if_neg hlt] at h
      cases h
      simpa using hlt

variable {key : κ}

lemma floor_cons (entry : κ × α) (entries : List (κ × α)) :
    floor key (entry :: entries) =
      later (if entry.1 ≤ key then some entry else none) (floor key entries) := rfl

lemma floor_singleton (entry : κ × α) :
    floor key [entry] = if entry.1 ≤ key then some entry else none := later_none _

lemma floor_append (entries entries' : List (κ × α)) :
    floor key (entries ++ entries') = later (floor key entries) (floor key entries') := by
  induction entries with
  | nil => exact (none_later _).symm
  | cons entry entries ih => rw [List.cons_append, floor_cons, floor_cons, ih, later_assoc]

lemma floor_eq_none {entries : List (κ × α)} :
    floor key entries = none ↔ ∀ entry ∈ entries, key < entry.1 := by
  induction entries with
  | nil => simp [floor]
  | cons first entries ih =>
    rw [floor_cons, List.forall_mem_cons, ← ih]
    by_cases hle : first.1 ≤ key
    · rw [if_pos hle]
      cases floor key entries with
      | none => simp [hle]
      | some entry =>
        rw [some_later]
        split <;> simp
    · rw [if_neg hle, none_later]
      simp [not_le.mp hle]

/-- The floor is one of the entries, and its key is the highest one up to `key`. -/
lemma floor_spec {entries : List (κ × α)} {entry : κ × α} (h : floor key entries = some entry) :
    entry ∈ entries ∧ entry.1 ≤ key ∧ ∀ other ∈ entries, other.1 ≤ key → other.1 ≤ entry.1 := by
  induction entries generalizing entry with
  | nil => cases h
  | cons first entries ih =>
    rw [floor_cons] at h
    obtain ⟨heither, hfirst, hrest⟩ := later_spec h
    refine ⟨?_, ?_, ?_⟩
    · rcases heither with heq | heq
      · split at heq <;> cases heq
        exact List.mem_cons_self
      · exact List.mem_cons_of_mem _ (ih heq).1
    · rcases heither with heq | heq
      · split at heq <;> cases heq
        assumption
      · exact (ih heq).2.1
    · intro other hmem hle
      rcases List.mem_cons.mp hmem with rfl | hmem
      · exact hfirst other (if_pos hle)
      · cases hfloor : floor key entries with
        | none => exact absurd (floor_eq_none.mp hfloor other hmem) (not_lt.mpr hle)
        | some best => exact ((ih hfloor).2.2 other hmem hle).trans (hrest best hfloor)

/-! ## Maps -/

lemma mem_insert {entry : κ × α} {value : α} {map : List (κ × α)}
    (h : entry ∈ insert key value map) : entry = (key, value) ∨ entry ∈ map := by
  induction map with
  | nil => exact .inl (List.mem_singleton.mp h)
  | cons first map ih =>
    rw [insert] at h
    split at h
    · exact List.mem_cons.mp h
    · split at h
      · rcases List.mem_cons.mp h with rfl | h
        · exact .inr List.mem_cons_self
        · exact (ih h).imp id (List.mem_cons_of_mem _)
      · exact (List.mem_cons.mp h).imp id (List.mem_cons_of_mem _)

lemma Sorted.insert {map : List (κ × α)} (h : Sorted map) (value : α) :
    Sorted (insert key value map) := by
  induction map with
  | nil => exact List.pairwise_singleton _ _
  | cons first map ih =>
    obtain ⟨hfirst, hmap⟩ := List.pairwise_cons.mp h
    rw [SortedMaps.insert]
    split
    · rename_i hlt
      refine List.pairwise_cons.mpr ⟨?_, h⟩
      intro entry hentry
      rcases List.mem_cons.mp hentry with rfl | hentry
      · exact hlt
      · exact hlt.trans (hfirst entry hentry)
    · rename_i hge
      split
      · rename_i hlt
        refine List.pairwise_cons.mpr ⟨?_, ih hmap⟩
        intro entry hentry
        rcases mem_insert hentry with rfl | hentry
        · exact hlt
        · exact hfirst entry hentry
      · rename_i hle
        have hkey : first.1 = key := le_antisymm (not_lt.mp hge) (not_lt.mp hle)
        refine List.pairwise_cons.mpr ⟨?_, hmap⟩
        intro entry hentry
        rw [← hkey]
        exact hfirst entry hentry

/-- A higher entry is the later one, on either side. -/
lemma later_comm_of_lt {a b : Option (κ × α)}
    (h : ∀ entry entry', a = some entry → b = some entry' → entry.1 < entry'.1) :
    later a b = later b a := by
  match a, b with
  | none, _ => rw [none_later, later_none]
  | some _, none => rw [none_later, later_none]
  | some entry, some entry' =>
    have hlt := h entry entry' rfl rfl
    rw [some_later, some_later, if_neg hlt.not_gt, if_pos hlt]

lemma floor_insert {map : List (κ × α)} (h : Sorted map) (key' : κ) (value : α) :
    floor key (insert key' value map) = later (floor key map) (floor key [(key', value)]) := by
  induction map with
  | nil => exact (none_later _).symm
  | cons first map ih =>
    obtain ⟨hfirst, hmap⟩ := List.pairwise_cons.mp h
    -- the floor of a map whose keys are higher than `key'` is higher than the new entry
    have hhigher : ∀ {map : List (κ × α)}, (∀ entry ∈ map, key' < entry.1) →
        later (floor key [(key', value)]) (floor key map) =
          later (floor key map) (floor key [(key', value)]) := by
      intro map hall
      apply later_comm_of_lt
      intro entry entry' hentry hentry'
      have heq := (floor_spec hentry).1
      rw [List.mem_singleton] at heq
      rw [heq]
      exact hall entry' (floor_spec hentry').1
    rw [insert]
    split
    · rename_i hlt
      rw [← hhigher, ← floor_append]
      · rfl
      · intro entry hentry
        rcases List.mem_cons.mp hentry with rfl | hentry
        · exact hlt
        · exact hlt.trans (hfirst entry hentry)
    · rename_i hge
      split
      · rw [floor_cons, floor_cons, ih hmap, later_assoc]
      · rename_i hle
        have hkey : first.1 = key' := le_antisymm (not_lt.mp hge) (not_lt.mp hle)
        have hreplaced : later (if first.1 ≤ key then some first else none)
            (floor key [(key', value)]) = floor key [(key', value)] := by
          rw [floor_singleton, hkey]
          by_cases hup : key' ≤ key
          · rw [if_pos hup, if_pos hup, some_later, if_neg (by rw [hkey]; exact lt_irrefl _)]
          · rw [if_neg hup, if_neg hup, none_later]
        rw [floor_cons first, later_assoc, ← hhigher fun entry hentry => hkey ▸ hfirst entry hentry,
          ← later_assoc, hreplaced, ← floor_append]
        rfl

lemma sorted_collect (entries : List (κ × α)) : Sorted (collect entries) := by
  have hfold : ∀ map : List (κ × α), Sorted map →
      Sorted (entries.foldl (fun map entry => insert entry.1 entry.2 map) map) := by
    induction entries with
    | nil => exact fun _ hmap => hmap
    | cons entry entries ih => exact fun map hmap => ih _ (hmap.insert entry.2)
  exact hfold [] List.Pairwise.nil

/-- A map has the floors of the entries it was made from. -/
theorem floor_collect (entries : List (κ × α)) :
    floor key (collect entries) = floor key entries := by
  have hfold : ∀ map : List (κ × α), Sorted map →
      floor key (entries.foldl (fun map entry => insert entry.1 entry.2 map) map) =
        later (floor key map) (floor key entries) := by
    induction entries with
    | nil => exact fun _ _ => (later_none _).symm
    | cons entry entries ih =>
      intro map hmap
      rw [List.foldl_cons, ih _ (hmap.insert entry.2), floor_insert hmap, later_assoc,
        ← floor_append]
      rfl
  rw [collect, hfold [] List.Pairwise.nil]
  exact none_later _

/-- The floor among entries with other values. -/
lemma floor_map (f : κ × α → β) (entries : List (κ × α)) :
    floor key (entries.map fun entry => (entry.1, f entry)) =
      (floor key entries).map fun entry => (entry.1, f entry) := by
  induction entries with
  | nil => rfl
  | cons entry entries ih =>
    rw [List.map_cons, floor_cons, floor_cons, ih]
    by_cases hle : entry.1 ≤ key
    · rw [if_pos hle, if_pos hle]
      cases floor key entries with
      | none => rfl
      | some best =>
        rw [Option.map_some, some_later, some_later]
        split <;> rfl
    · rw [if_neg hle, if_neg hle, none_later, none_later]

lemma search_bounds (map : List (κ × α)) :
    (∀ i, search key map = .ok i → i < map.length) ∧
      ∀ i, search key map = .error i → i ≤ map.length := by
  induction map with
  | nil =>
    constructor
    · exact nofun
    · intro i h
      cases h
      exact Nat.le_refl 0
  | cons first map ih =>
    rw [search, List.length_cons]
    split
    · constructor
      · exact nofun
      · intro i h
        cases h
        omega
    · split
      · constructor
        · intro i h
          cases h
          omega
        · exact nofun
      · cases hsearch : search key map with
        | ok i =>
          have hlt := ih.1 i hsearch
          constructor
          · intro i' h
            cases h
            omega
          · exact nofun
        | error i =>
          have hle := ih.2 i hsearch
          constructor
          · exact nofun
          · intro i' h
            cases h
            omega

/-- A search finds the floor. -/
theorem atOrBelow_eq_floor {map : List (κ × α)} (h : Sorted map) :
    atOrBelow key map = floor key map := by
  induction map with
  | nil => rfl
  | cons first map ih =>
    obtain ⟨hfirst, hmap⟩ := List.pairwise_cons.mp h
    have hrest := ih hmap
    have hnone : key ≤ first.1 → floor key map = none := fun hle =>
      floor_eq_none.mpr fun entry hentry => hle.trans_lt (hfirst entry hentry)
    rw [floor_cons, atOrBelow, search]
    by_cases hlt : key < first.1
    · rw [if_pos hlt, hnone hlt.le, if_neg (not_le.mpr hlt)]
      rfl
    · rw [if_neg hlt, if_pos (not_lt.mp hlt)]
      by_cases hkey : first.1 = key
      · rw [if_pos hkey, hnone hkey.ge]
        rfl
      · -- what is found further on is higher than the first entry
        have hhigher : ∀ i, i < map.length → later (some first) map[i]? = map[i]? := by
          intro i hi
          rw [List.getElem?_eq_getElem hi, some_later,
            if_neg (hfirst _ (List.getElem_mem hi)).not_gt]
        have hbounds := @search_bounds κ α _ key map
        rw [if_neg hkey, ← hrest, atOrBelow]
        cases hsearch : search key map with
        | ok i => exact (hhigher i (hbounds.1 i hsearch)).symm
        | error i =>
          cases i with
          | zero => exact (later_none _).symm
          | succ i => exact (hhigher i (hbounds.2 _ hsearch)).symm

/-! ## Entries of maps -/

/-- The entry is the last one with its key. -/
def Kept (entries : List (κ × α)) (entry : κ × α) : Prop :=
  ∃ before after, entries = before ++ entry :: after ∧ ∀ other ∈ after, other.1 ≠ entry.1

omit [LinearOrder κ] in
lemma kept_cons {first entry : κ × α} {entries : List (κ × α)} :
    Kept (first :: entries) entry ↔
      Kept entries entry ∨ entry = first ∧ ∀ other ∈ entries, other.1 ≠ first.1 := by
  constructor
  · intro h
    obtain ⟨before, after, hlist, hafter⟩ := h
    cases before with
    | nil =>
      obtain ⟨rfl, rfl⟩ := List.cons.inj hlist
      exact .inr ⟨rfl, hafter⟩
    | cons first' before =>
      obtain ⟨rfl, rfl⟩ := List.cons.inj hlist
      exact .inl ⟨before, after, rfl, hafter⟩
  · intro h
    rcases h with ⟨before, after, rfl, hafter⟩ | ⟨rfl, hafter⟩
    · exact ⟨first :: before, after, rfl, hafter⟩
    · exact ⟨[], entries, rfl, hafter⟩

omit [LinearOrder κ] in
lemma Kept.mem {entries : List (κ × α)} {entry : κ × α} (h : Kept entries entry) :
    entry ∈ entries := by
  obtain ⟨before, after, rfl, _⟩ := h
  exact List.mem_append_right before List.mem_cons_self

omit [LinearOrder κ] in
/-- There is one such entry for each key. -/
lemma Kept.eq {entries : List (κ × α)} {entry entry' : κ × α} (h : Kept entries entry)
    (h' : Kept entries entry') (hkey : entry.1 = entry'.1) : entry = entry' := by
  induction entries with
  | nil =>
    obtain ⟨_, _, hlist, _⟩ := h
    simp at hlist
  | cons first entries ih =>
    rcases kept_cons.mp h with hrest | ⟨rfl, hlast⟩ <;>
      rcases kept_cons.mp h' with hrest' | ⟨rfl, hlast'⟩
    · exact ih hrest hrest'
    · exact absurd hkey (hlast' _ hrest.mem)
    · exact absurd hkey.symm (hlast _ hrest'.mem)
    · rfl

omit [LinearOrder κ] in
/-- Each key that occurs has one. -/
lemma exists_kept {entries : List (κ × α)} {entry : κ × α} (h : entry ∈ entries) :
    ∃ last, Kept entries last ∧ last.1 = entry.1 := by
  induction entries generalizing entry with
  | nil => cases h
  | cons first entries ih =>
    by_cases hlater : ∃ other ∈ entries, other.1 = entry.1
    · obtain ⟨other, hother, hkey⟩ := hlater
      obtain ⟨last, hlast, hlastKey⟩ := ih hother
      exact ⟨last, kept_cons.mpr (.inl hlast), hlastKey.trans hkey⟩
    · have hfirst : entry = first := by
        rcases List.mem_cons.mp h with heq | hmem
        · exact heq
        · exact absurd ⟨entry, hmem, rfl⟩ hlater
      subst hfirst
      refine ⟨entry, kept_cons.mpr (.inr ⟨rfl, ?_⟩), rfl⟩
      exact fun other hother hkey => hlater ⟨other, hother, hkey⟩

/-- The floor of a key that occurs is the last entry with it. -/
lemma Kept.floor {entries : List (κ × α)} {entry : κ × α} (h : Kept entries entry) :
    floor entry.1 entries = some entry := by
  obtain ⟨before, after, rfl, hafter⟩ := h
  have hself : later (some entry) (SortedMaps.floor entry.1 after) = some entry := by
    cases hfloor : SortedMaps.floor entry.1 after with
    | none => exact later_none _
    | some other =>
      obtain ⟨hmem, hle, _⟩ := floor_spec hfloor
      rw [some_later, if_pos (lt_of_le_of_ne hle (hafter other hmem))]
  rw [floor_append, floor_cons, if_pos le_rfl, hself]
  cases hfloor : SortedMaps.floor entry.1 before with
  | none => exact none_later _
  | some other =>
    obtain ⟨_, hle, _⟩ := floor_spec hfloor
    rw [some_later, if_neg (not_lt.mpr hle)]

/-- The entries after an insertion. -/
lemma mem_insert_iff {map : List (κ × α)} (h : Sorted map) {value : α} {entry : κ × α} :
    entry ∈ insert key value map ↔ entry = (key, value) ∨ entry ∈ map ∧ entry.1 ≠ key := by
  induction map with
  | nil => simp [insert]
  | cons first map ih =>
    obtain ⟨hfirst, hmap⟩ := List.pairwise_cons.mp h
    have hkeys : ∀ other ∈ map, other.1 ≠ first.1 := fun other hother => (hfirst other hother).ne'
    rw [insert]
    split
    · rename_i hlt
      have hne : ∀ other ∈ first :: map, other.1 ≠ key := by
        intro other hother
        rcases List.mem_cons.mp hother with rfl | hother
        · exact hlt.ne'
        · exact (hlt.trans (hfirst other hother)).ne'
      rw [List.mem_cons]
      exact or_congr_right (iff_self_and.mpr (hne entry))
    · split
      · rename_i hlt
        rw [List.mem_cons, ih hmap, List.mem_cons]
        constructor
        · intro hmem
          rcases hmem with rfl | rfl | hmem
          · exact .inr ⟨.inl rfl, hlt.ne⟩
          · exact .inl rfl
          · exact .inr ⟨.inr hmem.1, hmem.2⟩
        · intro hmem
          rcases hmem with rfl | ⟨rfl | hmem, hne⟩
          · exact .inr (.inl rfl)
          · exact .inl rfl
          · exact .inr (.inr ⟨hmem, hne⟩)
      · rename_i hge hle
        have hkey : first.1 = key := le_antisymm (not_lt.mp hge) (not_lt.mp hle)
        rw [List.mem_cons, List.mem_cons]
        constructor
        · intro hmem
          rcases hmem with rfl | hmem
          · exact .inl rfl
          · exact .inr ⟨.inr hmem, hkey ▸ hkeys entry hmem⟩
        · intro hmem
          rcases hmem with rfl | ⟨rfl | hmem, hne⟩
          · exact .inl rfl
          · exact absurd hkey hne
          · exact .inr hmem

/-- A map has the last of the entries with each key. -/
theorem mem_collect {entries : List (κ × α)} {entry : κ × α} :
    entry ∈ collect entries ↔ Kept entries entry := by
  have hfold : ∀ map : List (κ × α), Sorted map →
      (entry ∈ entries.foldl (fun map entry => insert entry.1 entry.2 map) map ↔
        Kept entries entry ∨ entry ∈ map ∧ ∀ other ∈ entries, other.1 ≠ entry.1) := by
    induction entries with
    | nil =>
      intro map _
      have hnone : ¬Kept [] entry := by
        intro h
        obtain ⟨_, _, hlist, _⟩ := h
        simp at hlist
      simp [hnone]
    | cons first entries ih =>
      intro map hmap
      rw [List.foldl_cons, ih _ (hmap.insert first.2), mem_insert_iff hmap, kept_cons,
        List.forall_mem_cons, or_assoc]
      apply or_congr_right
      constructor
      · intro h
        obtain ⟨rfl | ⟨hmem, hne⟩, hlast⟩ := h
        · exact .inl ⟨rfl, hlast⟩
        · exact .inr ⟨hmem, hne.symm, hlast⟩
      · intro h
        rcases h with ⟨rfl, hlast⟩ | ⟨hmem, hne, hlast⟩
        · exact ⟨.inl rfl, hlast⟩
        · exact ⟨.inr ⟨hmem, hne.symm⟩, hlast⟩
  rw [collect, hfold [] List.Pairwise.nil]
  simp

/-! ## Lookups -/

lemma lookup_cons (key : κ) (entry : κ × α) (map : List (κ × α)) :
    (entry :: map).lookup key = if key = entry.1 then some entry.2 else map.lookup key := by
  rw [List.lookup_cons]
  by_cases heq : key = entry.1
  · rw [if_pos heq, beq_iff_eq.2 heq]
  · rw [if_neg heq, beq_eq_false_iff_ne.2 heq]

lemma lookup_insert (map : List (κ × α)) (key key' : κ) (value : α) :
    (insert key value map).lookup key' = if key' = key then some value else map.lookup key' := by
  induction map with
  | nil => exact lookup_cons key' (key, value) []
  | cons first map ih =>
    rw [insert]
    split
    · exact lookup_cons key' (key, value) (first :: map)
    · rename_i hge
      split
      · rename_i hlt
        rw [lookup_cons, lookup_cons, ih]
        by_cases heq : key' = first.1
        · rw [if_pos heq, if_pos heq, if_neg (heq ▸ hlt.ne)]
        · rw [if_neg heq, if_neg heq]
      · rename_i hle
        obtain rfl : first.1 = key := le_antisymm (not_lt.mp hge) (not_lt.mp hle)
        rw [lookup_cons, lookup_cons]
        by_cases heq : key' = first.1
        · rw [if_pos heq, if_pos heq]
        · rw [if_neg heq, if_neg heq, if_neg heq]

/-- Removes the entry of a key. -/
def erase (key : κ) (map : List (κ × α)) : List (κ × α) :=
  map.filter fun entry => entry.1 ≠ key

lemma Sorted.erase {map : List (κ × α)} (h : Sorted map) (key : κ) : Sorted (erase key map) :=
  h.filter _

lemma lookup_erase (map : List (κ × α)) (key key' : κ) :
    (erase key map).lookup key' = if key' = key then none else map.lookup key' := by
  induction map with
  | nil => simp [erase]
  | cons first map ih =>
    rw [erase] at ih ⊢
    rw [List.filter_cons, lookup_cons]
    by_cases hfirst : first.1 = key
    · rw [if_neg (by simp [hfirst]), ih, hfirst]
      by_cases heq : key' = key
      · rw [if_pos heq, if_pos heq]
      · rw [if_neg heq, if_neg heq, if_neg heq]
    · rw [if_pos (by simp [hfirst]), lookup_cons, ih]
      by_cases heq : key' = first.1
      · rw [if_pos heq, if_neg (heq ▸ hfirst), if_pos heq]
      · rw [if_neg heq, if_neg heq]

lemma lookup_eq_some {map : List (κ × α)} (h : Sorted map) {key : κ} {value : α} :
    map.lookup key = some value ↔ (key, value) ∈ map := by
  induction map with
  | nil => simp
  | cons first map ih =>
    obtain ⟨hfirst, hmap⟩ := List.pairwise_cons.mp h
    rw [lookup_cons, List.mem_cons]
    by_cases heq : key = first.1
    · have hnew : (key, value) ∉ map := fun hmem => (hfirst _ hmem).ne heq.symm
      rw [if_pos heq]
      constructor
      · intro hvalue
        exact .inl (Prod.ext heq (Option.some.inj hvalue).symm)
      · rintro (hentry | hentry)
        · rw [← hentry]
        · exact absurd hentry hnew
    · have hne : (key, value) ≠ first := fun hentry => heq (by rw [← hentry])
      rw [if_neg heq, ih hmap]
      exact (or_iff_right hne).symm

end SortedMaps
