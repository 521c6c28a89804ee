import Mathlib.Tactic.Common
import Mathlib.Logic.Relation

/-!
# Runs of a step relation

`Steps R n s s'`: `n` steps of the relation `R` lead from `s` to `s'`.

* `Steps.invariant`: what every step preserves holds at the end of a run.
* `Steps.guarded`: an invariant that only the steps meeting a condition preserve.
* `Steps.comparable`: of two runs of a deterministic relation one extends the other.
-/

namespace Runs

variable {σ : Type} {R : σ → σ → Prop}

/-- `n` steps of `R`. -/
inductive Steps (R : σ → σ → Prop) : Nat → σ → σ → Prop where
  | refl (s : σ) : Steps R 0 s s
  | head {n : Nat} {s s' s'' : σ} : R s s' → Steps R n s' s'' → Steps R (n + 1) s s''

namespace Steps

lemma one {s s' : σ} (h : R s s') : Steps R 1 s s' := head h (refl s')

lemma trans {m n : Nat} {a b c : σ} (hab : Steps R m a b) (hbc : Steps R n b c) :
    Steps R (m + n) a c := by
  induction hab with
  | refl => simpa using hbc
  | @head k _ _ _ hstep _ ih =>
    rw [Nat.add_right_comm]
    exact head hstep (ih hbc)

lemma tail {n : Nat} {a b c : σ} (hab : Steps R n a b) (hbc : R b c) : Steps R (n + 1) a c :=
  hab.trans (one hbc)

lemma mono {R' : σ → σ → Prop} (hR : ∀ a b, R a b → R' a b) {n : Nat} {a b : σ}
    (h : Steps R n a b) : Steps R' n a b := by
  induction h with
  | refl => exact refl _
  | head hstep _ ih => exact head (hR _ _ hstep) ih

lemma invariant {I : σ → Prop} (hI : ∀ a b, R a b → I a → I b) {n : Nat} {a b : σ}
    (h : Steps R n a b) (ha : I a) : I b := by
  induction h with
  | refl => exact ha
  | head hstep _ ih => exact ih (hI _ _ hstep ha)

/-- An invariant that a step preserves where `G` holds before it. -/
lemma guarded {I G : σ → Prop} (hI : ∀ a b, G a → R a b → I a → I b) {n : Nat} {a b : σ}
    (h : Steps (fun s s' => G s ∧ R s s') n a b) (ha : I a) : I b :=
  h.invariant (I := I) (fun _ _ hstep => hI _ _ hstep.1 hstep.2) ha

/-- A run and a shorter one of a deterministic relation: the longer one extends the shorter. -/
lemma comparable (hR : ∀ a b c, R a b → R a c → b = c) {m n : Nat} {a b c : σ}
    (hb : Steps R m a b) (hc : Steps R (m + n) a c) : Steps R n b c := by
  induction hb with
  | refl => simpa using hc
  | @head k _ _ _ hstep _ ih =>
    rw [Nat.add_right_comm] at hc
    cases hc with
    | head hstep' hrest =>
      obtain rfl := hR _ _ _ hstep hstep'
      exact ih hrest

end Steps

end Runs
