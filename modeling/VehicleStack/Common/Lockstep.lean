import VehicleStack.Common.Callback

/-!
# Two callbacks side by side

Two programs, over two states, that are to end alike: both return, or both
raise the same exception. `wp₂` is the weakest precondition of such a pair,
with one postcondition on the two outcomes and one on the two states an
exception leaves. The rules run both programs a step at a time;
`wp₂_of_wp` is for a stretch in which they do different things and neither
raises, and `wp₂_forM_filter` for a loop that one of them makes with some
of the passes left out.
-/

namespace VehicleStack

namespace Callback

variable {ε σ τ α β γ δ : Type}

/-- `m` from `s` and `m'` from `t` end alike: they return within `Q`, or
raise the same within `E`. -/
def wp₂ (m : EStateM ε σ α) (m' : EStateM ε τ β) (Q : α → β → σ → τ → Prop)
    (E : σ → τ → Prop) (s : σ) (t : τ) : Prop :=
  match m s, m' t with
  | .ok a s', .ok b t' => Q a b s' t'
  | .error e s', .error e' t' => e = e' ∧ E s' t'
  | _, _ => False

variable {m : EStateM ε σ α} {m' : EStateM ε τ β} {f : α → EStateM ε σ γ} {f' : β → EStateM ε τ δ}
  {Q Q' : α → β → σ → τ → Prop} {E E' : σ → τ → Prop} {s : σ} {t : τ}

@[simp] theorem wp₂_pure {a : α} {b : β} :
    wp₂ (pure a : EStateM ε σ α) (pure b : EStateM ε τ β) Q E s t = Q a b s t := rfl

@[simp] theorem wp₂_get {Q : σ → τ → σ → τ → Prop} :
    wp₂ (get : EStateM ε σ σ) (get : EStateM ε τ τ) Q E s t = Q s t s t := rfl

@[simp] theorem wp₂_modify {g : σ → σ} {g' : τ → τ} {Q : PUnit → PUnit → σ → τ → Prop} :
    wp₂ (modify g : EStateM ε σ PUnit) (modify g' : EStateM ε τ PUnit) Q E s t =
      Q ⟨⟩ ⟨⟩ (g s) (g' t) := rfl

@[simp] theorem wp₂_throw {e : ε} :
    wp₂ (throw e : EStateM ε σ α) (throw e : EStateM ε τ β) Q E s t = E s t := by
  show (e = e ∧ E s t) = E s t
  exact propext (and_iff_right rfl)

theorem wp₂_bind {Q : γ → δ → σ → τ → Prop}
    (h : wp₂ m m' (fun a b => wp₂ (f a) (f' b) Q E) E s t) :
    wp₂ (m >>= f) (m' >>= f') Q E s t := by
  unfold wp₂ at h ⊢
  simp only [bind, EStateM.bind]
  cases hm : m s <;> cases hm' : m' t <;> simp only [hm, hm'] at h ⊢
  · exact h
  · exact h

/-- The first program takes a step alone. -/
theorem wp₂_bind_left {Q : γ → β → σ → τ → Prop}
    (h : wp m (fun a s' => wp₂ (f a) m' Q E s' t) (fun _ _ => False) s) :
    wp₂ (m >>= f) m' Q E s t := by
  unfold wp at h
  unfold wp₂ at h ⊢
  simp only [bind, EStateM.bind]
  cases hm : m s <;> simp only [hm] at h ⊢
  exact h

@[simp] theorem wp₂_ite {c : Prop} [Decidable c] {n : EStateM ε σ α} {n' : EStateM ε τ β} :
    wp₂ (if c then m else n) (if c then m' else n') Q E s t =
      if c then wp₂ m m' Q E s t else wp₂ n n' Q E s t := by
  split <;> rfl

/-- Consequence, in both postconditions. -/
theorem wp₂_mono (h : wp₂ m m' Q E s t) (hQ : ∀ a b s' t', Q a b s' t' → Q' a b s' t')
    (hE : ∀ s' t', E s' t' → E' s' t') : wp₂ m m' Q' E' s t := by
  unfold wp₂ at h ⊢
  cases hm : m s <;> cases hm' : m' t <;> simp only [hm, hm'] at h ⊢
  · exact hQ _ _ _ _ h
  · exact ⟨h.1, hE _ _ h.2⟩

/-- Two programs that return end alike. -/
theorem wp₂_of_wp {P : α → σ → Prop} {P' : β → τ → Prop} (h : wp m P (fun _ _ => False) s)
    (h' : wp m' P' (fun _ _ => False) t) (hQ : ∀ a b s' t', P a s' → P' b t' → Q a b s' t') :
    wp₂ m m' Q E s t := by
  unfold wp at h h'
  unfold wp₂
  cases hm : m s <;> cases hm' : m' t <;> simp only [hm, hm'] at h h' ⊢
  exact hQ _ _ _ _ h h'

/-- What is known of the first program alone may be used. -/
theorem wp₂_and_wp {P : α → σ → Prop} (h : wp₂ m m' Q E s t) (hm : wp m P (fun _ _ => True) s) :
    wp₂ m m' (fun a b s' t' => Q a b s' t' ∧ P a s') E s t := by
  unfold wp at hm
  unfold wp₂ at h ⊢
  cases h₁ : m s <;> cases h₂ : m' t <;> simp only [h₁, h₂] at h hm ⊢
  · exact ⟨h, hm⟩
  · exact h

/-- **The loop rule, with passes left out.** The second program makes the
passes that `p` admits. `I xs` is what holds with `xs` still to do. -/
theorem wp₂_forM_filter {p : α → Prop} [DecidablePred p] {xs : List α}
    {g : α → EStateM ε σ PUnit} {g' : α → EStateM ε τ PUnit} {I : List α → σ → τ → Prop}
    (hboth : ∀ x rest s t, p x → I (x :: rest) s t →
      wp₂ (g x) (g' x) (fun _ _ => I rest) E s t)
    (hleft : ∀ x rest s t, ¬ p x → I (x :: rest) s t →
      wp (g x) (fun _ s' => I rest s' t) (fun _ _ => False) s)
    (h : I xs s t) :
    wp₂ (xs.forM g) ((xs.filter (p ·)).forM g') (fun _ _ => I []) E s t := by
  induction xs generalizing s t with
  | nil => exact h
  | cons x rest ih =>
    by_cases hx : p x
    · rw [List.filter_cons_of_pos (by simpa using hx)]
      change wp₂ (g x >>= fun _ => rest.forM g) (g' x >>= fun _ => _) _ E s t
      exact wp₂_bind
        (wp₂_mono (hboth x rest s t hx h) (fun _ _ s' t' h' => ih h') fun _ _ h' => h')
    · rw [List.filter_cons_of_neg (by simpa using hx)]
      change wp₂ (g x >>= fun _ => rest.forM g) _ _ E s t
      exact wp₂_bind_left (wp_mono (hleft x rest s t hx h) (fun _ _ h' => ih h') fun _ _ h' => h')

/-! ## Part of the state -/

@[simp] theorem wp₂_zoom {σ₀ τ₀ : Type} {get : σ → σ₀} {put : σ → σ₀ → σ} {get' : τ → τ₀}
    {put' : τ → τ₀ → τ} {m : EStateM ε σ₀ α} {m' : EStateM ε τ₀ β} :
    wp₂ (zoom get put m) (zoom get' put' m') Q E s t =
      wp₂ m m' (fun a b s' t' => Q a b (put s s') (put' t t'))
        (fun s' t' => E (put s s') (put' t t')) (get s) (get' t) := by
  simp only [wp₂, zoom]
  cases m (get s) <;> cases m' (get' t) <;> rfl

/-! ## One call after another -/

section Calls

variable {call : γ → EStateM ε σ α} {call' : γ → EStateM ε τ α} {abs : σ → τ}

/-- What each of a list of calls comes to, whatever has become of those
before it, and the state at the end. -/
def outcomes (call : γ → EStateM ε σ α) : List γ → σ → List (Except ε α) × σ
  | [], s => ([], s)
  | c :: cs, s =>
    match call c s with
    | .ok a s' => (.ok a :: (outcomes call cs s').1, (outcomes call cs s').2)
    | .error e s' => (.error e :: (outcomes call cs s').1, (outcomes call cs s').2)

/-- **Refinement, over every list of calls.** Where each call ends alike in
a state and in what stands for it, so do all. -/
theorem outcomes_refined
    (h : ∀ c s, wp₂ (call c) (call' c) (fun a b s' t' => a = b ∧ t' = abs s')
      (fun s' t' => t' = abs s') s (abs s)) (cs : List γ) (s : σ) :
    outcomes call' cs (abs s) = ((outcomes call cs s).1, abs (outcomes call cs s).2) := by
  induction cs generalizing s with
  | nil => rfl
  | cons c cs ih =>
    have hc := h c s
    unfold wp₂ at hc
    unfold outcomes
    cases hm : call c s <;> cases hm' : call' c (abs s) <;> simp only [hm, hm'] at hc ⊢
    · obtain ⟨rfl, rfl⟩ := hc
      rw [ih]
    · obtain ⟨rfl, rfl⟩ := hc
      rw [ih]

end Calls

end Callback

end VehicleStack
