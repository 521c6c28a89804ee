import Mathlib.Tactic.Common

/-!
# State and error computations

Rules for computations of `EStateM ε σ`, where an error keeps the state it was raised in.

* `Moves R x`: every outcome of `x`, error or not, is reached by a step of the relation `R`.
* `Returns P x`: where `x` returns, `P` holds of the initial state, the value and the final state.
* `Keeps f x`: no outcome of `x` changes the value of `f`.
* `KeepsAt f s x`: nor does it from the state `s`.
* `Triple P x Q E`: from `P`, values are returned in `Q` and errors are raised in `E`.
* `ReadOnly x`: no outcome of `x` changes the state.
* `NoFault F x`: `x` raises no error of the class `F`.
* `FaultKeeps F f x`: where `x` raises an error of the class `F`, it has not changed the value of
  `f`; with `id`, it has not changed the state.
* `FaultKeepsAt F s x`: where `x` raises one from the state `s`, it has not changed it.
* `CommutesUpTo E g x`: from a state changed by `g`, `x` does the same, unless it raises an error
  of the class `E`. `CommutesAt E g x s` says so of one state.
* `Settles F x s`: from the state `s`, `x` returns or raises an error of the class `F`.
* `zoom l x`: the computation `x` on a part of the state.
-/

namespace StateExcept

variable {ε σ τ α β : Type}

/-- The state a computation ends in, with a value or with an error. -/
def finalState : EStateM.Result ε σ α → σ
  | .ok _ s => s
  | .error _ s => s

@[simp] lemma finalState_ok (a : α) (s : σ) : finalState (.ok a s : EStateM.Result ε σ α) = s :=
  rfl

@[simp] lemma finalState_error (e : ε) (s : σ) :
    finalState (.error e s : EStateM.Result ε σ α) = s := rfl

/-- The value a computation returns, if it does. -/
def returned : EStateM.Result ε σ α → Option α
  | .ok a _ => some a
  | .error _ _ => none

/-- A computation that returns ends in its final state. -/
lemma eq_ok_of_returned {r : EStateM.Result ε σ α} {a : α} (h : returned r = some a) :
    r = .ok a (finalState r) := by
  cases r with
  | ok b s =>
    cases h
    rfl
  | error e s => cases h

/-! ## Evaluating a sequence -/

lemma bind_ok {x : EStateM ε σ α} {f : α → EStateM ε σ β} {s s' : σ} {a : α}
    (h : x s = .ok a s') : (x >>= f) s = f a s' := by
  show EStateM.bind x f s = f a s'
  simp [EStateM.bind, h]

lemma bind_error {x : EStateM ε σ α} {f : α → EStateM ε σ β} {s s' : σ} {e : ε}
    (h : x s = .error e s') : (x >>= f) s = .error e s' := by
  show EStateM.bind x f s = .error e s'
  simp [EStateM.bind, h]

/-- Two sequences that differ in their first parts, where these have one outcome. -/
lemma bind_of_eq {x y : EStateM ε σ α} {s t : σ} (h : x s = y t) (f : α → EStateM ε σ β) :
    (x >>= f) s = (y >>= f) t := by
  cases hy : y t with
  | ok a s' => rw [bind_ok (h.trans hy), bind_ok hy]
  | error e s' => rw [bind_error (h.trans hy), bind_error hy]

/-- A sequence returns iff both parts do. -/
lemma bind_eq_ok {x : EStateM ε σ α} {f : α → EStateM ε σ β} {s s'' : σ} {b : β} :
    (x >>= f) s = .ok b s'' ↔ ∃ a s', x s = .ok a s' ∧ f a s' = .ok b s'' := by
  cases h : x s with
  | ok a s' => simp [bind_ok h]
  | error e s' => simp [bind_error h]

/-- A sequence fails iff its first part does or its second part does after it. -/
lemma bind_eq_error {x : EStateM ε σ α} {f : α → EStateM ε σ β} {s s'' : σ} {e : ε} :
    (x >>= f) s = .error e s'' ↔
      x s = .error e s'' ∨ ∃ a s', x s = .ok a s' ∧ f a s' = .error e s'' := by
  cases h : x s with
  | ok a s' => simp [bind_ok h]
  | error e s' => simp [bind_error h]

lemma get_bind (f : σ → EStateM ε σ β) (s : σ) :
    ((get : EStateM ε σ σ) >>= f) s = f s s := rfl

lemma modify_bind (g : σ → σ) (f : PUnit → EStateM ε σ β) (s : σ) :
    ((modify g : EStateM ε σ PUnit) >>= f) s = f ⟨⟩ (g s) := rfl

lemma map_eq_ok {x : EStateM ε σ α} {f : α → β} {s s' : σ} {b : β} :
    (f <$> x) s = .ok b s' ↔ ∃ a, f a = b ∧ x s = .ok a s' := by
  show EStateM.map f x s = .ok b s' ↔ _
  cases h : x s <;> simp [EStateM.map, h]

lemma map_eq_error {x : EStateM ε σ α} {f : α → β} {s s' : σ} {e : ε} :
    (f <$> x) s = .error e s' ↔ x s = .error e s' := by
  show EStateM.map f x s = .error e s' ↔ _
  cases h : x s <;> simp [EStateM.map, h]

@[simp] lemma pure_apply (a : α) (s : σ) : (pure a : EStateM ε σ α) s = .ok a s := rfl

@[simp] lemma throw_apply (e : ε) (s : σ) : (throw e : EStateM ε σ α) s = .error e s := rfl

@[simp] lemma get_apply (s : σ) : (get : EStateM ε σ σ) s = .ok s s := rfl

@[simp] lemma set_apply (s s' : σ) : (set s' : EStateM ε σ PUnit) s = .ok ⟨⟩ s' := rfl

@[simp] lemma modify_apply (f : σ → σ) (s : σ) :
    (modify f : EStateM ε σ PUnit) s = .ok ⟨⟩ (f s) := rfl

/-- A traversal that returns yields a value for each element. -/
lemma mapM_length {f : α → EStateM ε σ β} {l : List α} {bs : List β} {s s' : σ}
    (h : l.mapM f s = .ok bs s') : bs.length = l.length := by
  induction l generalizing bs s with
  | nil =>
    cases h
    rfl
  | cons a l ih =>
    rw [List.mapM_cons] at h
    obtain ⟨b, s₁, -, h⟩ := bind_eq_ok.mp h
    obtain ⟨bs', s₂, hbs, h⟩ := bind_eq_ok.mp h
    cases h
    simp [ih hbs]

/-! ## Relations between the initial and the final state -/

/-- Every outcome of `x` is `R`-related to the initial state. -/
def Moves (R : σ → σ → Prop) (x : EStateM ε σ α) : Prop := ∀ s, R s (finalState (x s))

section Moves

variable {R : σ → σ → Prop}

lemma Moves.mono {R' : σ → σ → Prop} {x : EStateM ε σ α} (hx : Moves R x)
    (h : ∀ s s', R s s' → R' s s') : Moves R' x := fun s => h _ _ (hx s)

lemma Moves.pure (hR : ∀ s, R s s) (a : α) : Moves R (pure a : EStateM ε σ α) := fun s => hR s

lemma Moves.throw (hR : ∀ s, R s s) (e : ε) : Moves R (throw e : EStateM ε σ α) := fun s => hR s

lemma Moves.get (hR : ∀ s, R s s) : Moves R (get : EStateM ε σ σ) := fun s => hR s

lemma Moves.modify {f : σ → σ} (h : ∀ s, R s (f s)) : Moves R (modify f : EStateM ε σ PUnit) := h

lemma Moves.bind (hT : ∀ a b c, R a b → R b c → R a c) {x : EStateM ε σ α} {f : α → EStateM ε σ β}
    (hx : Moves R x) (hf : ∀ a, Moves R (f a)) : Moves R (x >>= f) := by
  intro s
  cases h : x s with
  | ok a s' =>
    rw [bind_ok h]
    exact hT _ _ _ (by simpa [h] using hx s) (hf a s')
  | error e s' =>
    rw [bind_error h]
    simpa [h] using hx s

lemma Moves.ite {c : Prop} [Decidable c] {x y : EStateM ε σ α} (hx : Moves R x)
    (hy : Moves R y) : Moves R (if c then x else y) := by
  split
  · exact hx
  · exact hy

lemma Moves.forM (hR : ∀ s, R s s) (hT : ∀ a b c, R a b → R b c → R a c) {f : α → EStateM ε σ PUnit}
    (hf : ∀ a, Moves R (f a)) (l : List α) : Moves R (l.forM f) := by
  induction l with
  | nil => exact Moves.pure hR _
  | cons a l ih => exact Moves.bind hT (hf a) fun _ => ih

lemma Moves.foldlM (hR : ∀ s, R s s) (hT : ∀ a b c, R a b → R b c → R a c)
    {f : β → α → EStateM ε σ β} (hf : ∀ b a, Moves R (f b a)) (l : List α) (b : β) :
    Moves R (l.foldlM f b) := by
  induction l generalizing b with
  | nil => exact Moves.pure hR b
  | cons a l ih => exact Moves.bind hT (hf b a) ih

end Moves

/-! ## What holds where a computation returns -/

/-- Where `x` returns, `P` holds of the initial state, the value and the final state. -/
def Returns (P : σ → α → σ → Prop) (x : EStateM ε σ α) : Prop :=
  ∀ s a s', x s = .ok a s' → P s a s'

section Returns

variable {P : σ → α → σ → Prop}

lemma Returns.pure {a : α} (h : ∀ s, P s a s) : Returns P (pure a : EStateM ε σ α) := by
  intro s b s' hx
  cases hx
  exact h s

lemma Returns.throw (e : ε) : Returns P (throw e : EStateM ε σ α) := by
  intro s b s' hx
  cases hx

lemma Returns.mono {P' : σ → α → σ → Prop} {x : EStateM ε σ α} (hx : Returns P x)
    (h : ∀ s a s', P s a s' → P' s a s') : Returns P' x :=
  fun _ _ _ hok => h _ _ _ (hx _ _ _ hok)

lemma Moves.returns {R : σ → σ → Prop} {x : EStateM ε σ α} (hx : Moves R x) :
    Returns (fun s _ s' => R s s') x := by
  intro s a s' hok
  simpa [hok] using hx s

/-- A sequence: the postconditions of its parts compose. -/
lemma Returns.bind {P : σ → α → σ → Prop} {Q : α → σ → β → σ → Prop} {P' : σ → β → σ → Prop}
    {x : EStateM ε σ α} {f : α → EStateM ε σ β} (hx : Returns P x)
    (hf : ∀ a, Returns (Q a) (f a))
    (h : ∀ s a s' b s'', P s a s' → Q a s' b s'' → P' s b s'') : Returns P' (x >>= f) := by
  intro s b s'' hok
  obtain ⟨a, s', hx', hf'⟩ := bind_eq_ok.mp hok
  exact h _ _ _ _ _ (hx _ _ _ hx') (hf a _ _ _ hf')

/-- A prefix whose moves the postcondition absorbs. -/
lemma Returns.after {R : σ → σ → Prop} {P : σ → β → σ → Prop} {x : EStateM ε σ α}
    {f : α → EStateM ε σ β} (hx : Moves R x) (hf : ∀ a, Returns P (f a))
    (h : ∀ s s' b s'', R s s' → P s' b s'' → P s b s'') : Returns P (x >>= f) :=
  hx.returns.bind hf fun _ _ _ _ _ => h _ _ _ _

end Returns

/-! ## Pre- and postconditions -/

/-- From a state in `P`, `x` returns a value and a state in `Q` or raises an error in a state
in `E`. -/
def Triple (P : σ → Prop) (x : EStateM ε σ α) (Q : α → σ → Prop) (E : ε → σ → Prop) : Prop :=
  ∀ s, P s → (∀ a s', x s = .ok a s' → Q a s') ∧ (∀ e s', x s = .error e s' → E e s')

section Triple

variable {P : σ → Prop} {Q : α → σ → Prop} {E : ε → σ → Prop}

lemma Triple.of_ok {x : EStateM ε σ α} (hx : Triple P x Q E) {s s' : σ} {a : α} (hP : P s)
    (h : x s = .ok a s') : Q a s' := (hx s hP).1 a s' h

lemma Triple.of_error {x : EStateM ε σ α} (hx : Triple P x Q E) {s s' : σ} {e : ε} (hP : P s)
    (h : x s = .error e s') : E e s' := (hx s hP).2 e s' h

lemma Triple.pure {a : α} (h : ∀ s, P s → Q a s) : Triple P (pure a : EStateM ε σ α) Q E := by
  intro s hP
  refine ⟨?_, ?_⟩
  · rintro _ _ ⟨⟩
    exact h s hP
  · rintro _ _ ⟨⟩

lemma Triple.throw {e : ε} (h : ∀ s, P s → E e s) : Triple P (throw e : EStateM ε σ α) Q E := by
  intro s hP
  refine ⟨?_, ?_⟩
  · rintro _ _ ⟨⟩
  · rintro _ _ ⟨⟩
    exact h s hP

lemma Triple.bind {R : β → σ → Prop} {x : EStateM ε σ α} {f : α → EStateM ε σ β}
    (hx : Triple P x Q E) (hf : ∀ a, Triple (Q a) (f a) R E) : Triple P (x >>= f) R E := by
  intro s hP
  refine ⟨?_, ?_⟩
  · intro b s'' h
    obtain ⟨a, s', hok, h⟩ := bind_eq_ok.mp h
    exact (hf a).of_ok (hx.of_ok hP hok) h
  · intro e s'' h
    rcases bind_eq_error.mp h with h | ⟨a, s', hok, h⟩
    · exact hx.of_error hP h
    · exact (hf a).of_error (hx.of_ok hP hok) h

/-- Reading the state first: the rest may depend on what was read. -/
lemma Triple.get_bind {f : σ → EStateM ε σ β} {R : β → σ → Prop}
    (h : ∀ s, Triple (fun s' => s' = s ∧ P s') (f s) R E) :
    Triple P ((get : EStateM ε σ σ) >>= f) R E := fun s hP => h s s ⟨rfl, hP⟩

lemma Triple.mono {P' : σ → Prop} {Q' : α → σ → Prop} {E' : ε → σ → Prop}
    {x : EStateM ε σ α} (hx : Triple P x Q E) (hP : ∀ s, P' s → P s)
    (hQ : ∀ a s, Q a s → Q' a s) (hE : ∀ e s, E e s → E' e s) : Triple P' x Q' E' :=
  fun s hs => ⟨fun a s' h => hQ a s' (hx.of_ok (hP s hs) h),
    fun e s' h => hE e s' (hx.of_error (hP s hs) h)⟩

lemma Triple.pre {P' : σ → Prop} {x : EStateM ε σ α} (hx : Triple P x Q E)
    (hP : ∀ s, P' s → P s) : Triple P' x Q E := fun s hs => hx s (hP s hs)

end Triple

/-! ## Computations that only read the state -/

/-- No outcome of `x` changes the state. -/
def ReadOnly (x : EStateM ε σ α) : Prop := Moves (fun s s' => s' = s) x

section ReadOnly

lemma ReadOnly.finalState {x : EStateM ε σ α} (hx : ReadOnly x) (s : σ) :
    finalState (x s) = s := hx s

lemma ReadOnly.pure (a : α) : ReadOnly (pure a : EStateM ε σ α) := fun _ => rfl

lemma ReadOnly.throw (e : ε) : ReadOnly (throw e : EStateM ε σ α) := fun _ => rfl

lemma ReadOnly.get : ReadOnly (get : EStateM ε σ σ) := fun _ => rfl

lemma ReadOnly.bind {x : EStateM ε σ α} {f : α → EStateM ε σ β} (hx : ReadOnly x)
    (hf : ∀ a, ReadOnly (f a)) : ReadOnly (x >>= f) :=
  Moves.bind (fun _ _ _ h h' => h'.trans h) hx hf

lemma ReadOnly.map {x : EStateM ε σ α} (hx : ReadOnly x) (f : α → β) : ReadOnly (f <$> x) := by
  rw [map_eq_pure_bind]
  exact hx.bind fun _ => ReadOnly.pure _

lemma ReadOnly.mapM {f : α → EStateM ε σ β} (hf : ∀ a, ReadOnly (f a)) (l : List α) :
    ReadOnly (l.mapM f) := by
  induction l with
  | nil => exact ReadOnly.pure _
  | cons a l ih =>
    rw [List.mapM_cons]
    exact (hf a).bind fun _ => ih.bind fun _ => ReadOnly.pure _

/-- A read-only computation that returns leaves the state as it is. -/
lemma ReadOnly.of_ok {x : EStateM ε σ α} (hx : ReadOnly x) {s s' : σ} {a : α}
    (h : x s = .ok a s') : s' = s := by
  simpa [h] using hx s

lemma ReadOnly.of_error {x : EStateM ε σ α} (hx : ReadOnly x) {s s' : σ} {e : ε}
    (h : x s = .error e s') : s' = s := by
  simpa [h] using hx s

end ReadOnly

/-! ## Computations that keep an observation of the state -/

/-- No outcome of `x` changes what `f` observes of the state. -/
def Keeps {γ : Type} (f : σ → γ) (x : EStateM ε σ α) : Prop := Moves (fun s s' => f s' = f s) x

section Keeps

variable {γ : Type} {f : σ → γ}

lemma ReadOnly.keeps {x : EStateM ε σ α} (hx : ReadOnly x) : Keeps f x :=
  fun s => congrArg f (hx s)

lemma Keeps.comp {δ : Type} {x : EStateM ε σ α} (hx : Keeps f x) (g : γ → δ) :
    Keeps (fun s => g (f s)) x := fun s => congrArg g (hx s)

lemma Keeps.pure (a : α) : Keeps f (pure a : EStateM ε σ α) := fun _ => rfl

lemma Keeps.throw (e : ε) : Keeps f (throw e : EStateM ε σ α) := fun _ => rfl

lemma Keeps.get : Keeps f (get : EStateM ε σ σ) := fun _ => rfl

lemma Keeps.modify {g : σ → σ} (h : ∀ s, f (g s) = f s) :
    Keeps f (modify g : EStateM ε σ PUnit) := h

lemma Keeps.bind {x : EStateM ε σ α} {y : α → EStateM ε σ β} (hx : Keeps f x)
    (hy : ∀ a, Keeps f (y a)) : Keeps f (x >>= y) :=
  Moves.bind (R := fun s s' => f s' = f s) (fun _ _ _ h h' => h'.trans h) hx hy

lemma Keeps.forM {y : α → EStateM ε σ PUnit} (hy : ∀ a, Keeps f (y a)) (l : List α) :
    Keeps f (l.forM y) :=
  Moves.forM (R := fun s s' => f s' = f s) (fun _ => rfl) (fun _ _ _ h h' => h'.trans h) hy l

lemma Keeps.foldlM {y : β → α → EStateM ε σ β} (hy : ∀ b a, Keeps f (y b a)) (l : List α) (b : β) :
    Keeps f (l.foldlM y b) :=
  Moves.foldlM (R := fun s s' => f s' = f s) (fun _ => rfl) (fun _ _ _ h h' => h'.trans h) hy l b

lemma Keeps.of_ok {x : EStateM ε σ α} (hx : Keeps f x) {s s' : σ} {a : α}
    (h : x s = .ok a s') : f s' = f s := by
  simpa [h] using hx s

lemma Keeps.of_error {x : EStateM ε σ α} (hx : Keeps f x) {s s' : σ} {e : ε}
    (h : x s = .error e s') : f s' = f s := by
  simpa [h] using hx s

/-- The outcome of `x` from the state `s` has the value of `f` that `s` has. -/
def KeepsAt (f : σ → γ) (s : σ) (x : EStateM ε σ α) : Prop := f (finalState (x s)) = f s

lemma keeps_of_keepsAt {x : EStateM ε σ α} (hx : ∀ s, KeepsAt f s x) : Keeps f x := hx

lemma KeepsAt.bind {x : EStateM ε σ α} {y : α → EStateM ε σ β} {s : σ} (hx : KeepsAt f s x)
    (hy : ∀ a, Keeps f (y a)) : KeepsAt f s (x >>= y) := by
  unfold KeepsAt at hx ⊢
  cases h : x s with
  | ok a s' =>
    rw [bind_ok h, hy a s', ← hx, h, finalState_ok]
  | error e s' =>
    rw [bind_error h, ← hx, h, finalState_error]
    rfl

/-- Reading first: what follows may use what was read. -/
lemma KeepsAt.after {x : EStateM ε σ α} {y : α → EStateM ε σ β} {s : σ} (hx : ReadOnly x)
    (hy : ∀ a, x s = .ok a s → KeepsAt f s (y a)) : KeepsAt f s (x >>= y) := by
  unfold KeepsAt
  cases h : x s with
  | ok a s' =>
    obtain rfl := hx.of_ok h
    rw [bind_ok h]
    exact hy a h
  | error e s' =>
    rw [bind_error h, hx.of_error h]
    rfl

end Keeps

/-! ## Faults and the state they leave -/

section Faults

variable {F : ε → Prop}

/-- `x` raises no error of the class `F`. -/
def NoFault (F : ε → Prop) (x : EStateM ε σ α) : Prop := ∀ s e s', x s = .error e s' → ¬ F e

/-- Where `x` raises an error of the class `F`, it has not changed the value of `f`. -/
def FaultKeeps {γ : Type} (F : ε → Prop) (f : σ → γ) (x : EStateM ε σ α) : Prop :=
  ∀ s e s', x s = .error e s' → F e → f s' = f s

lemma NoFault.pure (a : α) : NoFault F (pure a : EStateM ε σ α) := by
  intro s e s' h
  cases h

lemma NoFault.modify (f : σ → σ) : NoFault F (modify f : EStateM ε σ PUnit) := by
  intro s e s' h
  cases h

lemma NoFault.get : NoFault F (get : EStateM ε σ σ) := by
  intro s e s' h
  cases h

lemma NoFault.throw {e : ε} (he : ¬ F e) : NoFault F (throw e : EStateM ε σ α) := by
  intro s e' s' h
  cases h
  exact he

lemma NoFault.bind {x : EStateM ε σ α} {f : α → EStateM ε σ β} (hx : NoFault F x)
    (hf : ∀ a, NoFault F (f a)) : NoFault F (x >>= f) := by
  intro s e s'' h
  rcases bind_eq_error.mp h with h | ⟨a, s', _, h⟩
  · exact hx _ _ _ h
  · exact hf a _ _ _ h

/-- Nothing runs after a `throw`. -/
lemma NoFault.throw_bind {e : ε} (he : ¬ F e) {f : α → EStateM ε σ β} :
    NoFault F ((MonadExcept.throw e : EStateM ε σ α) >>= f) := by
  intro s e' s' h
  cases h
  exact he

lemma NoFault.mapM {f : α → EStateM ε σ β} (hf : ∀ a, NoFault F (f a)) (l : List α) :
    NoFault F (l.mapM f) := by
  induction l with
  | nil => exact NoFault.pure _
  | cons a l ih =>
    rw [List.mapM_cons]
    exact (hf a).bind fun _ => ih.bind fun _ => NoFault.pure _

lemma NoFault.foldlM {f : β → α → EStateM ε σ β} (hf : ∀ b a, NoFault F (f b a)) (l : List α)
    (b : β) : NoFault F (l.foldlM f b) := by
  induction l generalizing b with
  | nil => exact NoFault.pure b
  | cons a l ih => exact (hf b a).bind ih

lemma NoFault.forM {f : α → EStateM ε σ PUnit} (hf : ∀ a, NoFault F (f a)) (l : List α) :
    NoFault F (l.forM f) := by
  induction l with
  | nil => exact NoFault.pure _
  | cons a l ih => exact (hf a).bind fun _ => ih

section FaultKeeps

variable {γ : Type} {f : σ → γ}

lemma Keeps.faultKeeps {x : EStateM ε σ α} (hx : Keeps f x) : FaultKeeps F f x :=
  fun _ _ _ h _ => hx.of_error h

lemma ReadOnly.faultKeeps {x : EStateM ε σ α} (hx : ReadOnly x) : FaultKeeps F f x :=
  hx.keeps.faultKeeps

lemma NoFault.faultKeeps {x : EStateM ε σ α} (hx : NoFault F x) : FaultKeeps F f x :=
  fun _ _ _ h he => absurd he (hx _ _ _ h)

lemma FaultKeeps.observe {x : EStateM ε σ α} (hx : FaultKeeps F id x) : FaultKeeps F f x :=
  fun _ _ _ h he => congrArg f (hx _ _ _ h he)

/-- A prefix that keeps the observation before a computation whose faults keep it. -/
lemma FaultKeeps.after {x : EStateM ε σ α} {y : α → EStateM ε σ β} (hx : Keeps f x)
    (hy : ∀ a, FaultKeeps F f (y a)) : FaultKeeps F f (x >>= y) := by
  intro s e s'' h he
  rcases bind_eq_error.mp h with h | ⟨a, s', hok, h⟩
  · exact hx.of_error h
  · exact (hy a _ _ _ h he).trans (hx.of_ok hok)

lemma FaultKeeps.bind_readOnly {x : EStateM ε σ α} {y : α → EStateM ε σ β} (hx : ReadOnly x)
    (hy : ∀ a, FaultKeeps F f (y a)) : FaultKeeps F f (x >>= y) :=
  FaultKeeps.after hx.keeps hy

/-- Nothing can fail after the last step that does. -/
lemma FaultKeeps.bind_noFault {x : EStateM ε σ α} {y : α → EStateM ε σ β}
    (hx : FaultKeeps F f x) (hy : ∀ a, NoFault F (y a)) : FaultKeeps F f (x >>= y) := by
  intro s e s'' h he
  rcases bind_eq_error.mp h with h | ⟨a, s', _, h⟩
  · exact hx _ _ _ h he
  · exact absurd he (hy a _ _ _ h)

end FaultKeeps

/-- An error of the class `F` that `x` raises from the state `s` has not changed it. -/
def FaultKeepsAt (F : ε → Prop) (s : σ) (x : EStateM ε σ α) : Prop :=
  ∀ e s', x s = .error e s' → F e → s' = s

lemma FaultKeeps.keepsAt {x : EStateM ε σ α} (hx : FaultKeeps F id x) (s : σ) :
    FaultKeepsAt F s x := fun e s' h he => hx s e s' h he

/-- Checks before a computation. -/
lemma FaultKeepsAt.after {x : EStateM ε σ α} {f : α → EStateM ε σ β} {s : σ} (hx : ReadOnly x)
    (hf : ∀ a, x s = .ok a s → FaultKeepsAt F s (f a)) : FaultKeepsAt F s (x >>= f) := by
  intro e s'' h he
  rcases bind_eq_error.mp h with hfail | ⟨a, s', hok, hfail⟩
  · exact hx.of_error hfail
  · have hsame := hx.of_ok hok
    rw [hsame] at hok hfail
    exact hf a hok e s'' hfail he

/-- Nothing can fail after the last step that does. -/
lemma FaultKeepsAt.bind_noFault {x : EStateM ε σ α} {f : α → EStateM ε σ β} {s : σ}
    (hx : FaultKeepsAt F s x) (hf : ∀ a, NoFault F (f a)) : FaultKeepsAt F s (x >>= f) := by
  intro e s'' h he
  rcases bind_eq_error.mp h with h | ⟨a, s', -, h⟩
  · exact hx e s'' h he
  · exact absurd he (hf a _ _ _ h)

end Faults

/-! ## Computations that commute with a change of the state -/

/-- The outcome of a computation with its state changed. -/
def mapState (g : σ → τ) : EStateM.Result ε σ α → EStateM.Result ε τ α
  | .ok a s => .ok a (g s)
  | .error e s => .error e (g s)

/-- From a state changed by `g`, `x` does what it does from the state itself, with the change on
top; unless it raises an error of the class `E`. -/
def CommutesUpTo (E : ε → Prop) (g : σ → σ) (x : EStateM ε σ α) : Prop :=
  ∀ s, (∃ e s', x s = .error e s' ∧ E e) ∨ x (g s) = mapState g (x s)

section CommutesUpTo

variable {E : ε → Prop} {g : σ → σ}

@[simp] lemma mapState_ok (a : α) (s : σ) :
    mapState g (.ok a s : EStateM.Result ε σ α) = .ok a (g s) := rfl

@[simp] lemma mapState_error (e : ε) (s : σ) :
    mapState g (.error e s : EStateM.Result ε σ α) = .error e (g s) := rfl

lemma CommutesUpTo.pure (a : α) : CommutesUpTo E g (pure a : EStateM ε σ α) := fun _ => .inr rfl

lemma CommutesUpTo.throw (e : ε) : CommutesUpTo E g (throw e : EStateM ε σ α) :=
  fun _ => .inr rfl

lemma CommutesUpTo.modify {f : σ → σ} (h : ∀ s, f (g s) = g (f s)) :
    CommutesUpTo E g (modify f : EStateM ε σ PUnit) :=
  fun s => .inr (congrArg (EStateM.Result.ok PUnit.unit) (h s))

lemma CommutesUpTo.bind {x : EStateM ε σ α} {f : α → EStateM ε σ β} (hx : CommutesUpTo E g x)
    (hf : ∀ a, CommutesUpTo E g (f a)) : CommutesUpTo E g (x >>= f) := by
  intro s
  rcases hx s with ⟨e, s', hstop, he⟩ | hmove
  · exact .inl ⟨e, s', bind_error hstop, he⟩
  cases h : x s with
  | ok a s' =>
    rw [h] at hmove
    rw [bind_ok h, bind_ok hmove]
    exact hf a s'
  | error e s' =>
    rw [h] at hmove
    rw [bind_error h, bind_error hmove]
    exact .inr rfl

/-- Reading the state first: the rest may not depend on what `g` changes. -/
lemma CommutesUpTo.get_bind {f : σ → EStateM ε σ β} (hf : ∀ s, CommutesUpTo E g (f s))
    (hread : ∀ s, f (g s) = f s) : CommutesUpTo E g ((get : EStateM ε σ σ) >>= f) := by
  intro s
  show (∃ e s', f s s = .error e s' ∧ E e) ∨ f (g s) (g s) = mapState g (f s s)
  rw [hread]
  exact hf s s

lemma CommutesUpTo.mapM {f : α → EStateM ε σ β} (hf : ∀ a, CommutesUpTo E g (f a)) (l : List α) :
    CommutesUpTo E g (l.mapM f) := by
  induction l with
  | nil => exact CommutesUpTo.pure _
  | cons a l ih =>
    rw [List.mapM_cons]
    exact (hf a).bind fun _ => ih.bind fun _ => CommutesUpTo.pure _

lemma CommutesUpTo.forM {f : α → EStateM ε σ PUnit} (hf : ∀ a, CommutesUpTo E g (f a))
    (l : List α) : CommutesUpTo E g (l.forM f) := by
  induction l with
  | nil => exact CommutesUpTo.pure _
  | cons a l ih => exact (hf a).bind fun _ => ih

/-- The class of the excluded errors may be larger. -/
lemma CommutesUpTo.mono {E' : ε → Prop} (hE : ∀ e, E e → E' e) {x : EStateM ε σ α}
    (hx : CommutesUpTo E g x) : CommutesUpTo E' g x := by
  intro s
  rcases hx s with ⟨e, s', hstop, he⟩ | hmove
  · exact .inl ⟨e, s', hstop, hE e he⟩
  · exact .inr hmove

/-- Where no excluded error is raised, the computation commutes. -/
lemma CommutesUpTo.eq {x : EStateM ε σ α} (hx : CommutesUpTo E g x) {s : σ}
    (h : ∀ e s', x s = .error e s' → ¬ E e) : x (g s) = mapState g (x s) := by
  rcases hx s with ⟨e, s', hstop, he⟩ | hmove
  · exact absurd he (h e s' hstop)
  · exact hmove

/-- `x` does so from the state `s`. -/
def CommutesAt (E : ε → Prop) (g : σ → σ) (x : EStateM ε σ α) (s : σ) : Prop :=
  (∃ e s', x s = .error e s' ∧ E e) ∨ x (g s) = mapState g (x s)

lemma CommutesUpTo.at {x : EStateM ε σ α} (hx : CommutesUpTo E g x) (s : σ) :
    CommutesAt E g x s := hx s

lemma CommutesAt.bind {x : EStateM ε σ α} {f : α → EStateM ε σ β} {s : σ}
    (hx : CommutesAt E g x s) (hf : ∀ a s', x s = .ok a s' → CommutesAt E g (f a) s') :
    CommutesAt E g (x >>= f) s := by
  rcases hx with ⟨e, s', hstop, he⟩ | hmove
  · exact .inl ⟨e, s', bind_error hstop, he⟩
  cases h : x s with
  | ok a s' =>
    rw [h] at hmove
    rw [CommutesAt, bind_ok h, bind_ok hmove]
    exact hf a s' h
  | error e s' =>
    rw [h] at hmove
    rw [CommutesAt, bind_error h, bind_error hmove]
    exact .inr rfl

/-- Reading the state first: the rest may not depend on what `g` changes. -/
lemma CommutesAt.get_bind {f : σ → EStateM ε σ β} {s : σ} (hf : CommutesAt E g (f s) s)
    (hread : f (g s) = f s) : CommutesAt E g ((get : EStateM ε σ σ) >>= f) s := by
  show (∃ e s', f s s = .error e s' ∧ E e) ∨ f (g s) (g s) = mapState g (f s s)
  rw [hread]
  exact hf

/-- A computation that only reads, and what follows. -/
lemma CommutesAt.after {x : EStateM ε σ α} {f : α → EStateM ε σ β} {s : σ} (hread : ReadOnly x)
    (hx : CommutesUpTo E g x) (hf : ∀ a, x s = .ok a s → CommutesAt E g (f a) s) :
    CommutesAt E g (x >>= f) s := by
  refine (hx.at s).bind fun a s' h => ?_
  obtain rfl := hread.of_ok h
  exact hf a h

end CommutesUpTo

/-! ## Computations that come to an end -/

/-- From `s`, `x` returns or raises an error of the class `F`. -/
def Settles (F : ε → Prop) (x : EStateM ε σ α) (s : σ) : Prop :=
  match x s with
  | .ok _ _ => True
  | .error e _ => F e

section Settles

variable {F : ε → Prop}

lemma settles_ok {x : EStateM ε σ α} {s s' : σ} {a : α} (h : x s = .ok a s') : Settles F x s := by
  unfold Settles
  rw [h]
  trivial

lemma settles_error {x : EStateM ε σ α} {s s' : σ} {e : ε} (h : x s = .error e s') :
    Settles F x s ↔ F e := by
  unfold Settles
  rw [h]

lemma Settles.cases {x : EStateM ε σ α} {s : σ} (h : Settles F x s) :
    (∃ a s', x s = .ok a s') ∨ ∃ e s', x s = .error e s' ∧ F e := by
  cases hx : x s with
  | ok a s' => exact .inl ⟨a, s', rfl⟩
  | error e s' => exact .inr ⟨e, s', rfl, (settles_error hx).mp h⟩

/-- A sequence settles iff its first part does, and its second part after it. -/
lemma settles_bind {x : EStateM ε σ α} {f : α → EStateM ε σ β} {s : σ} :
    Settles F (x >>= f) s ↔ Settles F x s ∧ ∀ a s', x s = .ok a s' → Settles F (f a) s' := by
  cases h : x s with
  | ok a s' =>
    have hbind : Settles F (x >>= f) s ↔ Settles F (f a) s' := by
      unfold Settles
      rw [bind_ok h]
    rw [hbind]
    constructor
    · intro hf
      refine ⟨settles_ok h, fun b s'' heq => ?_⟩
      cases heq
      exact hf
    · intro hf
      exact hf.2 a s' rfl
  | error e s' =>
    rw [settles_error (bind_error h), settles_error h]
    simp

end Settles

/-! ## Computations on a part of the state -/

/-- A part `τ` of the state `σ`. -/
structure Part (σ τ : Type) where
  get : σ → τ
  put : τ → σ → σ

/-- Runs `x` on a part of the state. -/
def zoom (part : Part σ τ) (x : EStateM ε τ α) : EStateM ε σ α := fun s =>
  match x (part.get s) with
  | .ok a t => .ok a (part.put t s)
  | .error e t => .error e (part.put t s)

section Zoom

variable {part : Part σ τ}

lemma zoom_ok {x : EStateM ε τ α} {s : σ} {a : α} {t : τ} (h : x (part.get s) = .ok a t) :
    zoom part x s = .ok a (part.put t s) := by
  simp [zoom, h]

lemma zoom_error {x : EStateM ε τ α} {s : σ} {e : ε} {t : τ}
    (h : x (part.get s) = .error e t) : zoom part x s = .error e (part.put t s) := by
  simp [zoom, h]

lemma zoom_eq_ok {x : EStateM ε τ α} {s s' : σ} {a : α} :
    zoom part x s = .ok a s' ↔ ∃ t, x (part.get s) = .ok a t ∧ part.put t s = s' := by
  cases h : x (part.get s) with
  | ok b t => simp [zoom_ok h]
  | error e t => simp [zoom_error h]

lemma zoom_eq_error {x : EStateM ε τ α} {s s' : σ} {e : ε} :
    zoom part x s = .error e s' ↔ ∃ t, x (part.get s) = .error e t ∧ part.put t s = s' := by
  cases h : x (part.get s) with
  | ok b t => simp [zoom_ok h]
  | error e t => simp [zoom_error h]

/-- What holds between a state and every update of the part holds of a zoomed computation. -/
lemma Moves.zoom {R : σ → σ → Prop} (h : ∀ t s, R s (part.put t s)) (x : EStateM ε τ α) :
    Moves R (zoom part x) := by
  intro s
  cases hx : x (part.get s) with
  | ok a t => simpa [zoom_ok hx] using h t s
  | error e t => simpa [zoom_error hx] using h t s

lemma Keeps.zoom {γ : Type} {f : σ → γ} (h : ∀ t s, f (part.put t s) = f s)
    (x : EStateM ε τ α) : Keeps f (zoom part x) := Moves.zoom h x

lemma NoFault.zoom {F : ε → Prop} {x : EStateM ε τ α} (hx : NoFault F x) :
    NoFault F (zoom part x) := by
  intro s e s' h
  obtain ⟨t, ht, -⟩ := zoom_eq_error.mp h
  exact hx _ _ _ ht

/-- Putting an unchanged part back changes nothing, so faults of a part keep the whole state. -/
lemma FaultKeeps.zoom {F : ε → Prop} {x : EStateM ε τ α} (hx : FaultKeeps F id x)
    (hpart : ∀ s, part.put (part.get s) s = s) : FaultKeeps F id (zoom part x) := by
  intro s e s' h he
  obtain ⟨t, ht, rfl⟩ := zoom_eq_error.mp h
  have hkeep : t = part.get s := hx _ _ _ ht he
  rw [hkeep]
  exact hpart s

/-- A change of the state that acts on the part alone. -/
lemma CommutesAt.zoom {E : ε → Prop} {h : τ → τ} {g : σ → σ} {x : EStateM ε τ α} {s : σ}
    (hx : CommutesAt E h x (part.get s)) (hget : part.get (g s) = h (part.get s))
    (hput : ∀ t, part.put (h t) (g s) = g (part.put t s)) :
    CommutesAt E g (zoom part x) s := by
  rcases hx with ⟨e, t, hstop, he⟩ | hmove
  · exact .inl ⟨e, _, zoom_error hstop, he⟩
  right
  rw [← hget] at hmove
  cases hres : x (part.get s) with
  | ok a t =>
    rw [hres] at hmove
    rw [zoom_ok hres, zoom_ok hmove, hput]
    rfl
  | error e t =>
    rw [hres] at hmove
    rw [zoom_error hres, zoom_error hmove, hput]
    rfl

lemma CommutesUpTo.zoom {E : ε → Prop} {h : τ → τ} {g : σ → σ} {x : EStateM ε τ α}
    (hx : CommutesUpTo E h x) (hget : ∀ s, part.get (g s) = h (part.get s))
    (hput : ∀ t s, part.put (h t) (g s) = g (part.put t s)) :
    CommutesUpTo E g (zoom part x) :=
  fun s => (hx.at _).zoom (hget s) fun t => hput t s

end Zoom

end StateExcept
