import Mathlib.Tactic.Common
import Mathlib.Data.List.Infix

/-!
# Replacement of a word

Every occurrence of a word is replaced by another one, from the left.

* `replaceAll`: the replacement, on lists. `toList_replace`: it is that of strings.
* `StartsIn`: an occurrence of one word may start within another one. `Apart`: none does.
* `replaceAll_comm`: replacements commute if the one's word is apart from both of the other's.
* `infix_of_infix_replaceAll`: no word comes up that is apart from the new one.
-/

namespace Replace

section Words

variable {α : Type} {u v w s : List α}

/-- An occurrence of `v` may start within one of `w`: what is left of `w` there goes on as `v`
does, up to the end of either. -/
def StartsIn (v w : List α) : Prop := ∃ u, u ≠ [] ∧ u <:+ w ∧ (u <+: v ∨ v <+: u)

/-- No occurrences of the words overlap. -/
def Apart (v w : List α) : Prop := ¬StartsIn v w ∧ ¬StartsIn w v

lemma Apart.symm (h : Apart v w) : Apart w v := ⟨h.2, h.1⟩

lemma startsIn_cons {c : α} :
    StartsIn v (c :: w) ↔ c :: w <+: v ∨ v <+: c :: w ∨ StartsIn v w := by
  constructor
  · intro h
    obtain ⟨u, hu, hsuffix, hcompare⟩ := h
    rcases List.suffix_cons_iff.1 hsuffix with rfl | hsuffix
    · exact or_assoc.1 (.inl hcompare)
    · exact .inr (.inr ⟨u, hu, hsuffix, hcompare⟩)
  · intro h
    rcases h with h | h | ⟨u, hu, hsuffix, hcompare⟩
    · exact ⟨_, List.cons_ne_nil c w, List.suffix_refl _, .inl h⟩
    · exact ⟨_, List.cons_ne_nil c w, List.suffix_refl _, .inr h⟩
    · exact ⟨u, hu, hsuffix.trans (List.suffix_cons c w), hcompare⟩

instance decidableStartsIn [DecidableEq α] (v : List α) : (w : List α) → Decidable (StartsIn v w)
  | [] => .isFalse fun h => by
    obtain ⟨u, hu, hsuffix, -⟩ := h
    exact hu (List.suffix_nil.1 hsuffix)
  | c :: w =>
    have := decidableStartsIn v w
    decidable_of_iff _ startsIn_cons.symm

instance [DecidableEq α] : Decidable (Apart v w) := inferInstanceAs (Decidable (_ ∧ _))

/-- A word that goes on into another one starts in it. -/
lemma startsIn_of_prefix_append (hu : u ≠ []) (hsuffix : u <:+ w) (h : u <+: v ++ s) :
    StartsIn v w :=
  ⟨u, hu, hsuffix, List.prefix_or_prefix_of_prefix h (List.prefix_append v s)⟩

/-- An occurrence behind the start of a word is behind the word, if it does not start in it. -/
lemma infix_of_infix_append (hstart : ¬StartsIn v w) (h : v <:+: w ++ s) : v <:+: s := by
  induction w with
  | nil => exact h
  | cons c w ih =>
    rw [startsIn_cons, not_or, not_or] at hstart
    rw [List.cons_append, List.infix_cons_iff] at h
    refine ih hstart.2.2 (h.resolve_left fun hpre => ?_)
    rcases List.prefix_or_prefix_of_prefix hpre (List.prefix_append (c :: w) s) with hle | hle
    · exact hstart.2.1 hle
    · exact hstart.1 hle

end Words

variable {α : Type} [DecidableEq α] {old new old' new' u v w s : List α}

/-! ## Lists -/

/-- `replaceAll`, after an occurrence of which `skip` items are left. -/
def replaceFrom (old new : List α) : (skip : Nat) → List α → List α
  | _, [] => []
  | skip + 1, _ :: s => replaceFrom old new skip s
  | 0, c :: s =>
    if old <+: c :: s then new ++ replaceFrom old new (old.length - 1) s
    else c :: replaceFrom old new 0 s

/-- Replaces the occurrences of a word that is not empty. -/
def replaceAll (old new s : List α) : List α := replaceFrom old new 0 s

lemma replaceFrom_eq_drop (skip : Nat) :
    replaceFrom old new skip s = replaceAll old new (s.drop skip) := by
  induction s generalizing skip with
  | nil =>
    rw [List.drop_nil]
    cases skip <;> rfl
  | cons c s ih =>
    cases skip with
    | zero => rfl
    | succ skip => exact ih skip

@[simp] lemma replaceAll_nil : replaceAll old new [] = [] := rfl

lemma replaceAll_cons {c : α} (h : ¬old <+: c :: s) :
    replaceAll old new (c :: s) = c :: replaceAll old new s := if_neg h

lemma replaceAll_append (hold : old ≠ []) :
    replaceAll old new (old ++ s) = new ++ replaceAll old new s := by
  match old, hold with
  | c :: old, _ =>
    have hstep : replaceAll (c :: old) new (c :: old ++ s) =
        new ++ replaceFrom (c :: old) new old.length (old ++ s) :=
      if_pos (List.prefix_append (c :: old) s)
    rw [hstep, replaceFrom_eq_drop, List.drop_left]

/-- The induction that follows the occurrences. -/
theorem replaceAll_induction (old : List α) (hold : old ≠ []) {P : List α → Prop} (nil : P [])
    (append : ∀ s, P s → P (old ++ s)) (cons : ∀ c s, ¬old <+: c :: s → P s → P (c :: s)) :
    ∀ s, P s := by
  intro s
  induction hlen : s.length using Nat.strong_induction_on generalizing s with
  | _ n ih =>
    match s with
    | [] => exact nil
    | c :: s =>
      by_cases hpre : old <+: c :: s
      · obtain ⟨rest, hrest⟩ := hpre
        have hpos := List.length_pos_iff.2 hold
        have hlen' : old.length + rest.length = n := by
          rw [← List.length_append, hrest, hlen]
        rw [← hrest]
        exact append rest (ih rest.length (by omega) rest rfl)
      · rw [List.length_cons] at hlen
        exact cons c s hpre (ih s.length (by omega) s rfl)

/-- Nothing happens where the word does not occur. -/
lemma replaceAll_of_not_occurs (h : ¬old <:+: s) : replaceAll old new s = s := by
  induction s with
  | nil => rfl
  | cons c s ih =>
    rw [replaceAll_cons fun hpre => h hpre.isInfix,
      ih fun hin => h (List.infix_cons hin)]

lemma replaceAll_self (hold : old ≠ []) : replaceAll old old s = s := by
  induction s using replaceAll_induction old hold with
  | nil => rfl
  | append s ih => rw [replaceAll_append hold, ih]
  | cons c s hpre ih => rw [replaceAll_cons hpre, ih]

/-! ## Words that do not overlap -/

/-- Text in which the word does not start is kept. -/
lemma replaceAll_append_of_forall
    (h : ∀ u v, u ++ v = w → v ≠ [] → ¬old <+: v ++ s) :
    replaceAll old new (w ++ s) = w ++ replaceAll old new s := by
  induction w with
  | nil => rfl
  | cons c w ih =>
    have hhere : ¬old <+: c :: (w ++ s) := h [] (c :: w) rfl (List.cons_ne_nil c w)
    have hrest := ih fun u v huv => h (c :: u) v (congrArg (c :: ·) huv)
    rw [List.cons_append, replaceAll_cons hhere, hrest, List.cons_append]

lemma replaceAll_append_left (h : ¬StartsIn old w) :
    replaceAll old new (w ++ s) = w ++ replaceAll old new s := by
  refine replaceAll_append_of_forall fun u v huv hv hpre => h ?_
  have hcompare := List.prefix_or_prefix_of_prefix hpre (List.prefix_append v s)
  exact ⟨v, hv, huv ▸ List.suffix_append u v, hcompare.symm⟩

/-- Where `w` goes on after the replacement it went on before. -/
lemma prefix_of_prefix_replaceAll (hold : old ≠ []) (h : ¬StartsIn new w) (hu : u <:+ w)
    (hpre : u <+: replaceAll old new s) : u <+: s := by
  induction s using replaceAll_induction old hold generalizing u with
  | nil => exact hpre
  | append s ih =>
    rw [replaceAll_append hold] at hpre
    by_cases hnil : u = []
    · rw [hnil]
      exact List.nil_prefix
    · exact absurd (startsIn_of_prefix_append hnil hu hpre) h
  | cons c s hnot ih =>
    rw [replaceAll_cons hnot] at hpre
    match u with
    | [] => exact List.nil_prefix
    | d :: u =>
      obtain ⟨hhead, htail⟩ := List.cons_prefix_cons.1 hpre
      exact List.cons_prefix_cons.2 ⟨hhead, ih ((List.suffix_cons d u).trans hu) htail⟩

/-- A word that is apart from the new one does not come up. -/
lemma infix_of_infix_replaceAll (hold : old ≠ []) (h : Apart w new)
    (hin : w <:+: replaceAll old new s) : w <:+: s := by
  induction s using replaceAll_induction old hold with
  | nil => exact hin
  | append s ih =>
    rw [replaceAll_append hold] at hin
    exact (ih (infix_of_infix_append h.1 hin)).trans (List.suffix_append old s).isInfix
  | cons c s hnot ih =>
    rw [replaceAll_cons hnot] at hin
    rcases List.infix_cons_iff.1 hin with hpre | hin
    · match w with
      | [] => exact List.nil_infix
      | d :: w =>
        obtain ⟨hhead, htail⟩ := List.cons_prefix_cons.1 hpre
        have hrest := prefix_of_prefix_replaceAll hold h.2 (List.suffix_cons d w) htail
        exact (List.cons_prefix_cons.2 ⟨hhead, hrest⟩).isInfix
    · exact List.infix_cons (ih hin)

/-- Replacements of words that overlap neither each other nor the other's new word commute. -/
theorem replaceAll_comm (hold : old ≠ []) (hold' : old' ≠ []) (h : Apart old old')
    (hnew : Apart old' new) (hnew' : Apart old new') (s : List α) :
    replaceAll old new (replaceAll old' new' s) = replaceAll old' new' (replaceAll old new s) := by
  induction hlen : s.length using Nat.strong_induction_on generalizing s with
  | _ n ih =>
    match s with
    | [] => rfl
    | c :: s =>
      have hpos := List.length_pos_iff.2 hold
      have hpos' := List.length_pos_iff.2 hold'
      by_cases hpre : old <+: c :: s
      · obtain ⟨rest, hrest⟩ := hpre
        have hlen' : old.length + rest.length = n := by rw [← List.length_append, hrest, hlen]
        rw [← hrest, replaceAll_append_left h.2, replaceAll_append hold, replaceAll_append hold,
          replaceAll_append_left hnew.1, ih rest.length (by omega) rest rfl]
      · by_cases hpre' : old' <+: c :: s
        · obtain ⟨rest, hrest⟩ := hpre'
          have hlen' : old'.length + rest.length = n := by rw [← List.length_append, hrest, hlen]
          rw [← hrest, replaceAll_append_left h.1, replaceAll_append hold', replaceAll_append hold',
            replaceAll_append_left hnew'.1, ih rest.length (by omega) rest rfl]
        · -- neither occurs here, and neither comes up when the rest is replaced
          rw [List.length_cons] at hlen
          have hkeep : ¬old <+: c :: replaceAll old' new' s := by
            rw [← replaceAll_cons hpre']
            exact fun hcomes => hpre
              (prefix_of_prefix_replaceAll hold' hnew'.2 (List.suffix_refl old) hcomes)
          have hkeep' : ¬old' <+: c :: replaceAll old new s := by
            rw [← replaceAll_cons hpre]
            exact fun hcomes => hpre'
              (prefix_of_prefix_replaceAll hold hnew.2 (List.suffix_refl old') hcomes)
          rw [replaceAll_cons hpre, replaceAll_cons hpre', replaceAll_cons hkeep,
            replaceAll_cons hkeep', ih s.length (by omega) s rfl]

/-! ## Strings -/

open String Slice Pattern Model

/-- What a step of the search adds to the replaced text. -/
def replaceStep (rep : String) (s : Slice) (sofar : String) : SearchStep s → String
  | .matched _ _ => sofar ++ rep.toSlice
  | .rejected start stop => sofar ++ s.slice! start stop

lemma replace_eq_foldl {s pat rep : String} : s.replace pat rep =
    (ToForwardSearcher.toSearcher pat s.toSlice).toList.foldl (replaceStep rep s.toSlice) "" := by
  rw [Std.Iter.foldl_toList]
  refine congrArg (fun f => Std.Iter.fold f "" _) (funext fun sofar => funext fun step => ?_)
  cases step <;> rfl

/-- The text behind a position, with the replacements of the steps of a search. -/
lemma toList_foldl_replaceStep {pat rep : String} (hpat : pat ≠ "") {s : Slice} {pos : s.Pos}
    {steps : List (SearchStep s)} (h : IsValidSearchFrom pat pos steps) {t₁ t₂ : String}
    (hpos : pos.Splits t₁ t₂) (acc : String) : (steps.foldl (replaceStep rep s) acc).toList =
      acc.toList ++ replaceAll pat.toList rep.toList t₂.toList := by
  have hold : pat.toList ≠ [] := by simpa using hpat
  induction h generalizing t₁ t₂ acc with
  | endPos =>
    obtain ⟨-, rfl⟩ := Slice.splits_endPos_iff.1 hpos
    simp
  | matched hmatch hvalid ih =>
    rw [ForwardStringSearcher.isLongestMatchAt_iff_isLongestMatchAt_toSlice,
      ForwardSliceSearcher.isLongestMatchAt_iff_splits] at hmatch
    obtain ⟨u₁, u₂, hstart, hend⟩ := hmatch
    obtain ⟨rfl, rfl⟩ := hpos.eq hstart
    rw [List.foldl_cons, ih hend, toList_append, copy_toSlice, replaceAll_append hold]
    simp [replaceStep]
  | @mismatched steps start stop hlt hnot hvalid ih =>
    -- the rejected text `u` is between `t₁` and `v`
    obtain ⟨u, ht₁, rfl⟩ := (hpos.le_iff_exists_eq_append stop.splits).1 (Std.le_of_lt hlt)
    have hstop := stop.splits
    rw [ht₁] at hstop
    generalize (s.sliceFrom stop).copy = v at hpos hstop
    obtain ⟨hle, hslice⟩ := Slice.copy_slice_eq_iff_splits.2 ⟨t₁, v, hpos, hstop⟩
    have hkeep : replaceAll pat.toList rep.toList (u.toList ++ v.toList) =
        u.toList ++ replaceAll pat.toList rep.toList v.toList := by
      refine replaceAll_append_of_forall fun u₁ u₂ hu hne hpre => ?_
      -- a match within the rejected text
      obtain ⟨rest, hrest⟩ := hpre
      have hu' : u = String.ofList u₁ ++ String.ofList u₂ := by
        rw [← String.toList_inj, toList_append, String.toList_ofList, String.toList_ofList, hu]
      have hmatch : String.ofList u₂ ++ v = pat ++ String.ofList rest := by
        rw [← String.toList_inj, toList_append, toList_append, String.toList_ofList,
          String.toList_ofList, hrest]
      have hcopy : s.copy = (t₁ ++ String.ofList u₁) ++ (pat ++ String.ofList rest) := by
        rw [hpos.eq_append, hu', ← hmatch, String.append_assoc, String.append_assoc]
      have hat := Slice.Pos.splits_ofEqAppend hcopy
      refine hnot (Slice.Pos.ofEqAppend hcopy) ?_ ?_ ?_
      · refine (hpos.le_iff_exists_eq_append hat).2 ⟨String.ofList u₁, rfl, ?_⟩
        rw [← hmatch, hu', String.append_assoc]
      · refine (hat.lt_iff_exists_eq_append hstop).2 ⟨String.ofList u₂, ?_, ?_, hmatch.symm⟩
        · simpa using hne
        · rw [hu', String.append_assoc]
      · rw [ForwardStringSearcher.matchesAt_iff_toSlice, ForwardSliceSearcher.matchesAt_iff_splits,
          copy_toSlice]
        exact ⟨_, _, hat⟩
    rw [List.foldl_cons, ih hstop, toList_append, hkeep, replaceStep, Slice.slice!, dif_pos hle]
    simp [hslice]

/-- The replacement of strings is that of their characters. -/
theorem toList_replace {s pat rep : String} (hpat : pat ≠ "") :
    (s.replace pat rep).toList = replaceAll pat.toList rep.toList s.toList := by
  have := ForwardStringSearcher.lawfulToForwardSearcherModel hpat
  have hvalid : IsValidSearchFrom pat s.toSlice.startPos
      (ToForwardSearcher.toSearcher pat s.toSlice).toList :=
    LawfulToForwardSearcherModel.isValidSearchFrom_toList s.toSlice
  rw [replace_eq_foldl, toList_foldl_replaceStep hpat hvalid s.toSlice.splits_startPos,
    copy_toSlice]
  rfl

lemma replace_eq {s pat rep t : String} (hpat : pat ≠ "")
    (h : replaceAll pat.toList rep.toList s.toList = t.toList) : s.replace pat rep = t := by
  rw [← String.toList_inj, toList_replace hpat, h]

/-- Between all characters nothing is put. -/
lemma toList_foldl_replaceStep_empty {s : Slice} (pos : s.Pos) {t₁ t₂ : String}
    (hpos : pos.Splits t₁ t₂) (acc : String) :
    ((Std.Iter.mk (.emptyBefore pos : ForwardSliceSearcher s)).toList.foldl (replaceStep "" s)
      acc).toList = acc.toList ++ t₂.toList := by
  induction pos using WellFounded.induction Slice.Pos.wellFounded_gt generalizing t₁ t₂ acc with
  | _ pos ih =>
    rw [ForwardSliceSearcher.toList_emptyBefore_eq]
    by_cases hend : pos = s.endPos
    · rw [hend] at hpos
      obtain ⟨-, rfl⟩ := Slice.splits_endPos_iff.1 hpos
      rw [dif_pos hend]
      simp [replaceStep]
    · obtain ⟨rfl, rfl⟩ := hpos.eq (pos.splits_next_right hend)
      obtain ⟨hle, hslice⟩ := Slice.copy_slice_eq_iff_splits.2
        ⟨_, _, pos.splits_next_right hend, pos.splits_next hend⟩
      rw [dif_neg hend, ForwardSliceSearcher.toList_emptyAt_eq, List.foldl_cons, List.foldl_cons,
        ih (pos.next hend) (by simp) (pos.splits_next hend), toList_append, replaceStep, replaceStep,
        Slice.slice!, dif_pos hle]
      simp [hslice]

/-- The empty word is replaced by itself. -/
lemma replace_empty {s : String} : s.replace "" "" = s := by
  rw [← String.toList_inj, replace_eq_foldl, ForwardStringSearcher.toSearcher_empty,
    toList_foldl_replaceStep_empty _ s.toSlice.splits_startPos, copy_toSlice]
  rfl

end Replace
