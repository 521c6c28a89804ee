import Mathlib.Tactic.Common

/-!
# Reference counts with deferred collection

A resource that is in use has one use more than there are references to it. So it is not free when
its last reference is given up, but when it is collected. What is pinned must not be free either.

* `Counted`: the counts agree with the references.
* `Counted.allocate`, `acquire`, `release`, `collect`: what keeps them in agreement.
-/

namespace RefCounts

variable {α : Type} [DecidableEq α] {S S' pinned pinned' : α → Prop}
  {count count' refs refs' : α → Nat} {a : α}

/-- Every resource of `S` is free, without references and not pinned, or has one use more than
references. -/
def Counted (S : α → Prop) (count refs : α → Nat) (pinned : α → Prop) : Prop :=
  ∀ a, S a → count a = 0 ∧ refs a = 0 ∧ ¬pinned a ∨ count a = 1 + refs a

namespace Counted

variable (h : Counted S count refs pinned)

include h

omit [DecidableEq α] in
lemma mono (hS : ∀ a, S' a → S a) (hcount : ∀ a, S' a → count' a = count a)
    (hrefs : ∀ a, S' a → refs' a = refs a) (hpinned : ∀ a, S' a → pinned' a → pinned a) :
    Counted S' count' refs' pinned' := by
  intro b hb
  rw [hcount b hb, hrefs b hb]
  obtain ⟨hcount, hrefs, hfree⟩ | hcount := h b (hS b hb)
  · exact .inl ⟨hcount, hrefs, fun hpin => hfree (hpinned b hb hpin)⟩
  · exact .inr hcount

omit [DecidableEq α] in
lemma of_free (ha : S a) (hfree : count a = 0) : refs a = 0 ∧ ¬pinned a := by
  obtain ⟨_, hrefs, hpin⟩ | hcount := h a ha
  · exact ⟨hrefs, hpin⟩
  · omega

omit [DecidableEq α] in
lemma of_refs (ha : S a) (href : 0 < refs a) : count a = 1 + refs a := by
  obtain ⟨_, hrefs, _⟩ | hcount := h a ha
  · omega
  · exact hcount

omit [DecidableEq α] in
lemma of_pinned (ha : S a) (hpin : pinned a) : count a = 1 + refs a := by
  obtain ⟨_, _, hfree⟩ | hcount := h a ha
  · exact absurd hpin hfree
  · exact hcount

/-- A free resource is taken by its first reference. -/
lemma allocate (hfree : count a = 0) (hcount : ∀ b, count' b = if b = a then 2 else count b)
    (hrefs : ∀ b, refs' b = refs b + if b = a then 1 else 0) : Counted S count' refs' pinned := by
  intro b hb
  have hb := h b hb
  rw [hcount, hrefs]
  by_cases heq : b = a
  · rw [if_pos heq, if_pos heq]
    rw [heq] at hb ⊢
    omega
  · rw [if_neg heq, if_neg heq]
    exact hb

/-- A further reference to a resource in use. -/
lemma acquire (hused : 0 < count a) (hcount : ∀ b, count' b = count b + if b = a then 1 else 0)
    (hrefs : ∀ b, refs' b = refs b + if b = a then 1 else 0) : Counted S count' refs' pinned := by
  intro b hb
  have hb := h b hb
  rw [hcount, hrefs]
  by_cases heq : b = a
  · rw [if_pos heq]
    rw [heq] at hb ⊢
    omega
  · rw [if_neg heq]
    exact hb

/-- A reference is given up. The resource stays in use, and may be pinned. -/
lemma release (hcount : ∀ b, count' b + (if b = a then 1 else 0) = count b)
    (hrefs : ∀ b, refs' b + (if b = a then 1 else 0) = refs b) :
    Counted S count' refs' fun b => pinned b ∨ b = a := by
  intro b hb
  have hb := h b hb
  have hcount := hcount b
  have hrefs := hrefs b
  by_cases heq : b = a
  · rw [if_pos heq] at hcount hrefs
    right
    omega
  · rw [if_neg heq, Nat.add_zero] at hcount hrefs
    show _ ∧ _ ∧ ¬(pinned b ∨ b = a) ∨ _
    rw [or_iff_left heq, hcount, hrefs]
    exact hb

omit [DecidableEq α] in
/-- Resources without references become free, once nothing is pinned. -/
lemma collect (hcount : ∀ b, count' b = count b ∨ count b = 1 ∧ count' b = 0) :
    Counted S count' refs fun _ => False := by
  intro b hb
  have hb := h b hb
  have hcount := hcount b
  rw [not_false_iff, and_true]
  omega

end Counted

end RefCounts
