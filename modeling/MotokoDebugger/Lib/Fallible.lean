import Mathlib.Data.List.Forall2
import Mathlib.Tactic.Common

/-!
# Fallible computations

Rules for sequences of `Except ε`.

* `bind_eq_ok`, `bind_eq_error`: how a sequence returns and how it fails.
* `FirstIs good bad l`: going through a list, the first element that is not good is bad.
* `FirstFails e f l`: the first failure of `f` is `e`.
* `foldlM_ok`, `foldlM_error`: an invariant of a loop that goes on with what each step returns.
* `mapM_eq_ok`, `mapM_eq_error`: the outcomes of a loop over a list.
-/

namespace Fallible

variable {ε α β : Type}

lemma ok_bind (a : α) (f : α → Except ε β) : (Except.ok a >>= f) = f a := rfl

/-- A sequence returns iff both parts do. -/
lemma bind_eq_ok {x : Except ε α} {f : α → Except ε β} {b : β} :
    x >>= f = .ok b ↔ ∃ a, x = .ok a ∧ f a = .ok b := by
  cases x with
  | ok a =>
    show f a = .ok b ↔ _
    simp
  | error e =>
    show Except.error e = .ok b ↔ _
    simp

/-- A sequence fails iff its first part does or its second part does after it. -/
lemma bind_eq_error {x : Except ε α} {f : α → Except ε β} {e : ε} :
    x >>= f = .error e ↔ x = .error e ∨ ∃ a, x = .ok a ∧ f a = .error e := by
  cases x with
  | ok a =>
    show f a = .error e ↔ _
    simp
  | error e' =>
    show Except.error e' = .error e ↔ _
    simp

/-- The second part matters only for what the first one returns. -/
lemma bind_congr_ok {x : Except ε α} {f g : α → Except ε β} (h : ∀ a, x = .ok a → f a = g a) :
    x >>= f = x >>= g := by
  cases x with
  | ok a => exact h a rfl
  | error e => rfl

section Fold

variable {f : β → α → Except ε β} {I : List α → β → Prop} {l : List α} {b b' : β} {e : ε}
  (hstep : ∀ a rest b b', I (a :: rest) b → f b a = .ok b' → I rest b')

include hstep

/-- What holds of the rest of a list, before a loop over it and between its steps. -/
lemma foldlM_ok (h : I l b) (hfold : l.foldlM f b = .ok b') : I [] b' := by
  induction l generalizing b with
  | nil =>
    rw [← Except.ok.inj hfold]
    exact h
  | cons a rest ih =>
    rw [List.foldlM_cons] at hfold
    obtain ⟨next, hfirst, hfold⟩ := bind_eq_ok.1 hfold
    exact ih (hstep a rest b next h hfirst) hfold

/-- How a loop fails. -/
lemma foldlM_error {P : ε → Prop} (hfails : ∀ a rest b e, I (a :: rest) b → f b a = .error e → P e)
    (h : I l b) (hfold : l.foldlM f b = .error e) : P e := by
  induction l generalizing b with
  | nil => cases hfold
  | cons a rest ih =>
    rw [List.foldlM_cons] at hfold
    obtain hfirst | ⟨next, hfirst, hfold⟩ := bind_eq_error.1 hfold
    · exact hfails a rest b e h hfirst
    · exact ih (hstep a rest b next h hfirst) hfold

end Fold

/-- An element of the list is bad, and all before it are good. -/
def FirstIs (good bad : α → Prop) (l : List α) : Prop :=
  ∃ done a rest, l = done ++ a :: rest ∧ (∀ b ∈ done, good b) ∧ bad a

lemma firstIs_congr {good good' bad bad' : α → Prop} {l : List α} (hgood : ∀ a, good a ↔ good' a)
    (hbad : ∀ a, bad a ↔ bad' a) : FirstIs good bad l ↔ FirstIs good' bad' l := by
  simp only [FirstIs, hgood, hbad]

/-- The first element of the list for which `f` fails is one for which it fails with `e`. -/
def FirstFails (e : ε) (f : α → Except ε β) (l : List α) : Prop :=
  FirstIs (fun a => ∃ c, f a = .ok c) (fun a => f a = .error e) l

variable {e : ε} {f : α → Except ε β} {l : List α}

lemma not_firstFails_nil : ¬FirstFails e f [] := by
  intro h
  obtain ⟨done, a, rest, hlist, _⟩ := h
  simp at hlist

lemma firstFails_cons {a : α} :
    FirstFails e f (a :: l) ↔ f a = .error e ∨ ∃ c, f a = .ok c ∧ FirstFails e f l := by
  constructor
  · intro h
    obtain ⟨done, b, rest, hlist, hdone, hb⟩ := h
    cases done with
    | nil =>
      cases hlist
      exact .inl hb
    | cons first done =>
      rw [List.forall_mem_cons] at hdone
      obtain ⟨rfl, rfl⟩ := List.cons.inj hlist
      obtain ⟨c, hc⟩ := hdone.1
      exact .inr ⟨c, hc, done, b, rest, rfl, hdone.2, hb⟩
  · intro h
    rcases h with ha | ⟨c, hc, done, b, rest, rfl, hdone, hb⟩
    · exact ⟨[], a, l, rfl, List.forall_mem_nil _, ha⟩
    · exact ⟨a :: done, b, rest, rfl, List.forall_mem_cons.mpr ⟨⟨c, hc⟩, hdone⟩, hb⟩

/-- Where all failures are the same, the order does not matter. -/
lemma firstFails_iff_exists (h : ∀ a e', f a = .error e' → e' = e) :
    FirstFails e f l ↔ ∃ a ∈ l, f a = .error e := by
  induction l with
  | nil => simp [not_firstFails_nil]
  | cons a l ih =>
    rw [firstFails_cons, ih]
    cases hfa : f a with
    | ok c => simp [hfa]
    | error e' => simp [hfa, h a e' hfa]

/-- A loop returns what it makes of the elements. -/
lemma mapM_eq_ok {bs : List β} :
    l.mapM f = .ok bs ↔ List.Forall₂ (fun a b => f a = .ok b) l bs := by
  induction l generalizing bs with
  | nil =>
    rw [List.mapM_nil, List.forall₂_nil_left_iff]
    show Except.ok [] = .ok bs ↔ _
    simp [eq_comm]
  | cons a l ih =>
    rw [List.mapM_cons, bind_eq_ok, List.forall₂_cons_left_iff]
    constructor
    · intro h
      obtain ⟨b, hb, hrest⟩ := h
      obtain ⟨bs', hbs', hlist⟩ := bind_eq_ok.mp hrest
      cases hlist
      exact ⟨b, bs', hb, ih.mp hbs', rfl⟩
    · intro h
      obtain ⟨b, bs', hb, hbs', rfl⟩ := h
      exact ⟨b, hb, bind_eq_ok.mpr ⟨bs', ih.mpr hbs', rfl⟩⟩

/-- A loop returns iff its body does for all elements. -/
lemma mapM_returns : (∃ bs, l.mapM f = .ok bs) ↔ ∀ a ∈ l, ∃ b, f a = .ok b := by
  induction l with
  | nil => exact iff_of_true ⟨[], rfl⟩ (List.forall_mem_nil _)
  | cons a l ih =>
    rw [List.forall_mem_cons, ← ih]
    constructor
    · intro h
      obtain ⟨bs, hbs⟩ := h
      obtain ⟨b, bs', hb, hbs', _⟩ := List.forall₂_cons_left_iff.mp (mapM_eq_ok.mp hbs)
      exact ⟨⟨b, hb⟩, bs', mapM_eq_ok.mpr hbs'⟩
    · intro h
      obtain ⟨⟨b, hb⟩, bs, hbs⟩ := h
      exact ⟨b :: bs, mapM_eq_ok.mpr (.cons hb (mapM_eq_ok.mp hbs))⟩

/-- The values a loop returns. -/
lemma mem_of_mapM {bs : List β} {b : β} (h : l.mapM f = .ok bs) :
    b ∈ bs ↔ ∃ a ∈ l, f a = .ok b := by
  rw [mapM_eq_ok] at h
  induction h with
  | nil => simp
  | cons ha _ ih => simp [ih, ha, eq_comm]

/-- A loop fails at the first of the elements for which its body does. -/
lemma mapM_eq_error : l.mapM f = .error e ↔ FirstFails e f l := by
  induction l with
  | nil =>
    rw [List.mapM_nil]
    exact iff_of_false nofun not_firstFails_nil
  | cons a l ih =>
    rw [List.mapM_cons, bind_eq_error, firstFails_cons, ← ih]
    constructor
    · intro h
      rcases h with ha | ⟨b, hb, hrest⟩
      · exact .inl ha
      · rcases bind_eq_error.mp hrest with hl | ⟨bs, _, hbs⟩
        · exact .inr ⟨b, hb, hl⟩
        · cases hbs
    · intro h
      rcases h with ha | ⟨b, hb, hl⟩
      · exact .inl ha
      · exact .inr ⟨b, hb, bind_eq_error.mpr (.inl hl)⟩

end Fallible
