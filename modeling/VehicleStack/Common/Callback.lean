import Mathlib.Init

/-!
# Callbacks that may raise

A callback is a program over a state that may stop with an exception, and
an exception keeps the state it was raised in: `EStateM ε σ α`. This file
gives it a calculus of weakest preconditions with two postconditions, one
for a normal return and one for an exception, and the rules the proofs use:
one simp lemma for each way to build a program, consequence, and loops over
a list. A program that never raises some exception `Avoids` it, and one that
`Keeps` a property has it afterwards however it ends. `perform` is a
durable operation the operating system may refuse or the process may die
around.
-/

namespace VehicleStack

namespace Callback

variable {ε σ τ α β : Type}

/-- `m`, started in `s`, returns within `Q` or raises within `E`. -/
def wp (m : EStateM ε σ α) (Q : α → σ → Prop) (E : ε → σ → Prop) (s : σ) : Prop :=
  match m s with
  | .ok a s' => Q a s'
  | .error e s' => E e s'

variable {m : EStateM ε σ α} {f : α → EStateM ε σ β} {s : σ} {Q Q' : α → σ → Prop}
  {E E' : ε → σ → Prop}

@[simp] theorem wp_pure {a : α} : wp (pure a : EStateM ε σ α) Q E s = Q a s := rfl

@[simp] theorem wp_get {Q : σ → σ → Prop} : wp (get : EStateM ε σ σ) Q E s = Q s s := rfl

@[simp] theorem wp_modify {g : σ → σ} {Q : PUnit → σ → Prop} :
    wp (modify g : EStateM ε σ PUnit) Q E s = Q ⟨⟩ (g s) := rfl

@[simp] theorem wp_throw {e : ε} : wp (throw e : EStateM ε σ α) Q E s = E e s := rfl

@[simp] theorem wp_bind {Q : β → σ → Prop} :
    wp (m >>= f) Q E s = wp m (fun a => wp (f a) Q E) E s := by
  simp only [wp, bind, EStateM.bind]
  cases m s <;> rfl

@[simp] theorem wp_ite {c : Prop} [Decidable c] {m' : EStateM ε σ α} :
    wp (if c then m else m') Q E s = if c then wp m Q E s else wp m' Q E s := by
  split <;> rfl

/-- Consequence, in both postconditions. -/
theorem wp_mono (h : wp m Q E s) (hQ : ∀ a s', Q a s' → Q' a s')
    (hE : ∀ e s', E e s' → E' e s') : wp m Q' E' s := by
  unfold wp at h ⊢
  split at h
  · exact hQ _ _ h
  · exact hE _ _ h

/-- Two things known of a program are known together. -/
theorem wp_and (h : wp m Q E s) (h' : wp m Q' E' s) :
    wp m (fun a s => Q a s ∧ Q' a s) (fun e s => E e s ∧ E' e s) s := by
  unfold wp at h h' ⊢
  cases hm : m s <;> simp only [hm] at h h' ⊢ <;> exact ⟨h, h'⟩

/-- A program whose one outcome is `a` in `t` computes that. -/
theorem eq_ok_of_wp {a : α} {t : σ}
    (h : wp m (fun b s' => b = a ∧ s' = t) (fun _ _ => False) s) : m s = .ok a t := by
  unfold wp at h
  cases hm : m s with
  | ok b s' =>
    rw [hm] at h
    rw [h.1, h.2]
  | error e s' =>
    rw [hm] at h
    exact h.elim

/-- A program that raises nothing returns, within its postcondition. -/
theorem returns_of_wp (h : wp m Q (fun _ _ => False) s) : ∃ a s', m s = .ok a s' ∧ Q a s' := by
  unfold wp at h
  cases hm : m s with
  | ok a s' =>
    rw [hm] at h
    exact ⟨a, s', rfl, h⟩
  | error e s' =>
    rw [hm] at h
    exact h.elim

/-- What comes after a program that returns. -/
theorem bind_of_ok {a : α} {t : σ} (h : m s = .ok a t) : (m >>= f) s = f a t := by
  simp only [bind, EStateM.bind, h]

/-- **The loop rule.** `I xs` is what holds with `xs` still to do. -/
theorem wp_forM {xs : List α} {g : α → EStateM ε σ PUnit} {I : List α → σ → Prop}
    (hstep : ∀ x rest s, I (x :: rest) s → wp (g x) (fun _ => I rest) E s)
    (h : I xs s) : wp (xs.forM g) (fun _ => I []) E s := by
  induction xs generalizing s with
  | nil => exact h
  | cons x rest ih =>
    -- `forM` is the first pass, bound to the rest
    change wp (g x >>= fun _ => rest.forM g) _ E s
    rw [wp_bind]
    exact wp_mono (hstep x rest s h) (fun _ _ h' => ih h') (fun _ _ h' => h')

/-! ## Exceptions that do not occur -/

/-- `m` never raises `r`, wherever it starts. -/
def Avoids (r : ε) (m : EStateM ε σ α) : Prop :=
  ∀ s, wp m (fun _ _ => True) (fun e _ => e ≠ r) s

variable {r : ε}

theorem avoids_pure {a : α} : Avoids r (pure a : EStateM ε σ α) := fun _ => trivial

theorem avoids_get : Avoids r (get : EStateM ε σ σ) := fun _ => trivial

theorem avoids_modify {g : σ → σ} : Avoids r (modify g : EStateM ε σ PUnit) := fun _ => trivial

theorem avoids_throw {e : ε} (h : e ≠ r) : Avoids r (throw e : EStateM ε σ α) := fun _ => h

theorem avoids_bind (hm : Avoids r m) (hf : ∀ a, Avoids r (f a)) : Avoids r (m >>= f) := by
  intro s
  rw [wp_bind]
  exact wp_mono (hm s) (fun a s' _ => hf a s') fun _ _ h => h

theorem avoids_ite {c : Prop} [Decidable c] {m' : EStateM ε σ α} (h : Avoids r m)
    (h' : Avoids r m') : Avoids r (if c then m else m') := by
  split
  · exact h
  · exact h'

theorem avoids_forM {xs : List α} {g : α → EStateM ε σ PUnit} (h : ∀ x, Avoids r (g x)) :
    Avoids r (xs.forM g) :=
  fun _ => wp_forM (I := fun _ _ => True) (fun x _ s _ => h x s) trivial

/-- **A program that raises `r` or nothing**, and does not raise `r`. -/
theorem wp_of_avoids (h : Avoids r m) (hm : wp m Q (fun e _ => e = r) s) :
    wp m Q (fun _ _ => False) s :=
  wp_mono (wp_and hm (h s)) (fun _ _ h => h.1) fun _ _ h => h.2 h.1

/-! ## Properties that are kept -/

/-- `m` keeps `P`, however it ends. -/
def Keeps (P : σ → Prop) (m : EStateM ε σ α) : Prop := ∀ s, P s → wp m (fun _ => P) (fun _ => P) s

variable {P : σ → Prop}

theorem keeps_pure {a : α} : Keeps P (pure a : EStateM ε σ α) := fun _ h => h

theorem keeps_get : Keeps P (get : EStateM ε σ σ) := fun _ h => h

theorem keeps_modify {g : σ → σ} (h : ∀ s, P s → P (g s)) :
    Keeps P (modify g : EStateM ε σ PUnit) := h

theorem keeps_throw {e : ε} : Keeps P (throw e : EStateM ε σ α) := fun _ h => h

theorem keeps_bind (hm : Keeps P m) (hf : ∀ a, Keeps P (f a)) : Keeps P (m >>= f) := by
  intro s hs
  rw [wp_bind]
  exact wp_mono (hm s hs) (fun a s' h => hf a s' h) fun _ _ h => h

theorem keeps_ite {c : Prop} [Decidable c] {m' : EStateM ε σ α} (h : Keeps P m)
    (h' : Keeps P m') : Keeps P (if c then m else m') := by
  split
  · exact h
  · exact h'

theorem keeps_forM {xs : List α} {g : α → EStateM ε σ PUnit} (h : ∀ x, Keeps P (g x)) :
    Keeps P (xs.forM g) :=
  fun _ hs => wp_forM (I := fun _ => P) (fun x _ s hs => h x s hs) hs

/-! ## Part of the state -/

/-- A program over a part of the state, run in the whole. -/
def zoom (get : σ → τ) (put : σ → τ → σ) (m : EStateM ε τ α) : EStateM ε σ α := fun s =>
  match m (get s) with
  | .ok a t => .ok a (put s t)
  | .error e t => .error e (put s t)

@[simp] theorem wp_zoom {get : σ → τ} {put : σ → τ → σ} {m : EStateM ε τ α} :
    wp (zoom get put m) Q E s =
      wp m (fun a t => Q a (put s t)) (fun e t => E e (put s t)) (get s) := by
  simp only [wp, zoom]
  cases m (get s) <;> rfl

theorem avoids_zoom {get : σ → τ} {put : σ → τ → σ} {m : EStateM ε τ α} (h : Avoids r m) :
    Avoids r (zoom get put m : EStateM ε σ α) := by
  intro s
  rw [wp_zoom]
  exact h (get s)

theorem keeps_zoom {get : σ → τ} {put : σ → τ → σ} {m : EStateM ε τ α}
    (h : ∀ s t, P s → P (put s t)) : Keeps P (zoom get put m : EStateM ε σ α) := by
  intro s hs
  unfold wp zoom
  cases m (get s) <;> exact h _ _ hs

/-! ## Durable operations -/

/-- What happens at one durable operation: it takes effect, the operating
system refuses it, or the process dies just before or just after it. -/
inductive Answer
  | ok
  | osError
  | killBefore
  | killAfter
  deriving DecidableEq, Repr

/-- Whether the operation's effect is there afterwards. -/
def Answer.takesEffect (a : Answer) : Prop := a = .ok ∨ a = .killAfter

/-- Why a callback stopped: a Python exception, or the death of the
process. -/
inductive Raised
  | osError
  | structError
  | unicodeDecodeError
  | keyError
  | indexError
  | killed
  deriving DecidableEq, Repr

/-- A durable operation whose failure raises. -/
def perform (a : Answer) (effect : σ → σ) : EStateM Raised σ PUnit :=
  match a with
  | .ok => modify effect
  | .osError => throw .osError
  | .killBefore => throw .killed
  | .killAfter => do
    modify effect
    throw .killed

/-- A durable operation inside `try: … except OSError: pass`. It tells
whether it took effect. -/
def attempt (a : Answer) (effect : σ → σ) : EStateM Raised σ Bool :=
  match a with
  | .ok => do
    modify effect
    pure true
  | .osError => pure false
  | .killBefore => throw .killed
  | .killAfter => do
    modify effect
    throw .killed

variable {a : Answer} {effect : σ → σ} {E : Raised → σ → Prop}

/-- `perform` takes effect, or stops with or without its effect. What is
raised is the death of the process unless the operation was refused. -/
theorem wp_perform {Q : PUnit → σ → Prop} (hok : a = .ok → Q ⟨⟩ (effect s))
    (hE : ∀ e, (a ≠ .osError → e = .killed) → E e s)
    (hE' : a = .killAfter → E .killed (effect s)) : wp (perform a effect) Q E s := by
  cases a with
  | ok => exact hok rfl
  | osError => exact hE _ fun h => absurd rfl h
  | killBefore => exact hE _ fun _ => rfl
  | killAfter => exact hE' rfl

/-- `attempt` goes on with or without its effect, or the process dies. -/
theorem wp_attempt {Q : Bool → σ → Prop} (hok : Q true (effect s)) (hno : Q false s)
    (hE : E .killed s) (hE' : E .killed (effect s)) : wp (attempt a effect) Q E s := by
  cases a with
  | ok => exact hok
  | osError => exact hno
  | killBefore => exact hE
  | killAfter => exact hE'

/-- Neither breaks what the effect keeps. -/
theorem keeps_perform {P : σ → Prop} (h : ∀ s, P s → P (effect s)) :
    Keeps P (perform a effect : EStateM Raised σ PUnit) := fun s hs =>
  wp_perform (fun _ => h s hs) (fun _ _ => hs) fun _ => h s hs

theorem keeps_attempt {P : σ → Prop} (h : ∀ s, P s → P (effect s)) :
    Keeps P (attempt a effect : EStateM Raised σ Bool) := fun s hs =>
  wp_attempt (h s hs) hs hs (h s hs)

/-- An operation that the process does not die around does not kill it. -/
theorem avoids_perform (h : a = .ok ∨ a = .osError) :
    Avoids .killed (perform a effect : EStateM Raised σ PUnit) := by
  intro s
  rcases h with rfl | rfl
  · trivial
  · exact fun h => by cases h

theorem avoids_attempt (h : a = .ok ∨ a = .osError) :
    Avoids .killed (attempt a effect : EStateM Raised σ Bool) := by
  intro s
  rcases h with rfl | rfl <;> trivial

end Callback

end VehicleStack
