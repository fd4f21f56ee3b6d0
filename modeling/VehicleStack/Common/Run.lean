import Mathlib.Data.List.Basic
import Mathlib.Data.List.ReduceOption

/-!
# Runs of a step function

A component that reacts to events is a total function `step : σ → ε → σ`,
and a run of it is a list of events folded over a first state. This file
says what it is for a condition to hold of every step of a run (`Along`)
and for a property to hold in every state a run visits (`Throughout`),
and packages the one induction the rest of the development uses:
`throughout_of_along` and its converse form `throughout_iff_along`. What a
run shows from outside is its `trail`; `inv_trail` relates it to the state,
and `trail_eq` compares two runs.
-/

namespace VehicleStack

namespace Run

variable {σ σ' ε ε' ω : Type*} (step : σ → ε → σ)

/-- The state a list of events leads to. -/
def run (s : σ) (es : List ε) : σ := es.foldl step s

/-- `P` holds of each event of the run, in the state the event finds. -/
def Along (P : σ → ε → Prop) : σ → List ε → Prop
  | _, [] => True
  | s, e :: es => P s e ∧ Along P (step s e) es

/-- `Q` holds in every state the run visits, the first and the last
included. -/
def Throughout (Q : σ → Prop) : σ → List ε → Prop
  | s, [] => Q s
  | s, e :: es => Q s ∧ Throughout Q (step s e) es

/-- What the run shows: `obs` of each event, in the state the event finds. -/
def trail (obs : σ → ε → ω) : σ → List ε → List ω
  | _, [] => []
  | s, e :: es => obs s e :: trail obs (step s e) es

variable {step} {s : σ} {e : ε} {es : List ε} {P P' : σ → ε → Prop} {Q I : σ → Prop}

@[simp] theorem run_nil : run step s [] = s := rfl

@[simp] theorem run_cons : run step s (e :: es) = run step (step s e) es := rfl

/-- Events may be replaced by others that do the same. -/
theorem run_map {f : ε → ε} (h : ∀ s e, step s (f e) = step s e) :
    run step s (es.map f) = run step s es := by
  induction es generalizing s with
  | nil => rfl
  | cons e es ih => rw [List.map_cons, run_cons, run_cons, h, ih]

/-- **Events that change nothing where they come can be left out of a
run.** -/
theorem run_filter {p : ε → Bool} (h : Along step (fun s e => p e = false → step s e = s) s es) :
    run step s (es.filter p) = run step s es := by
  induction es generalizing s with
  | nil => rfl
  | cons e es ih =>
    by_cases hp : p e = true
    · rw [List.filter_cons_of_pos hp, run_cons, run_cons, ih h.2]
    · have hsame : step s e = s := h.1 (by simpa using hp)
      rw [List.filter_cons_of_neg hp, run_cons, ← ih h.2, hsame]

/-- Of a concrete run, a decidable condition can be decided. -/
instance decidableAlong [∀ s e, Decidable (P s e)] (s : σ) : ∀ es, Decidable (Along step P s es)
  | [] => isTrue trivial
  | e :: es =>
    have := decidableAlong (step s e) es
    inferInstanceAs (Decidable (P s e ∧ Along step P (step s e) es))

@[simp] theorem along_nil : Along step P s [] ↔ True := Iff.rfl

@[simp] theorem along_cons :
    Along step P s (e :: es) ↔ P s e ∧ Along step P (step s e) es := Iff.rfl

@[simp] theorem throughout_nil : Throughout step Q s [] ↔ Q s := Iff.rfl

@[simp] theorem throughout_cons :
    Throughout step Q s (e :: es) ↔ Q s ∧ Throughout step Q (step s e) es := Iff.rfl

/-- Two conditions along a run are one. -/
theorem Along.and (h : Along step P s es) (h' : Along step P' s es) :
    Along step (fun s e => P s e ∧ P' s e) s es := by
  induction es generalizing s with
  | nil => trivial
  | cons e es ih => exact ⟨⟨h.1, h'.1⟩, ih h.2 h'.2⟩

/-- A condition on the events alone is read off the list. -/
theorem along_of_forall {p : ε → Prop} (h : ∀ e ∈ es, p e) :
    Along step (fun _ e => p e) s es := by
  induction es generalizing s with
  | nil => trivial
  | cons e es ih =>
    exact ⟨h e List.mem_cons_self, ih fun e' he' => h e' (List.mem_cons_of_mem _ he')⟩

/-- **The run rule.** What the first state has and every step of the run
keeps, the last state has. -/
theorem inv_run (hstep : ∀ s e, I s → P s e → I (step s e)) (h0 : I s)
    (h : Along step P s es) : I (run step s es) := by
  induction es generalizing s with
  | nil => exact h0
  | cons e es ih => exact ih (hstep _ _ h0 h.1) h.2

/-- **The run rule, at every step.** What follows from the invariant and a
step's condition holds of each step. -/
theorem along_of_inv (hstep : ∀ s e, I s → P s e → I (step s e))
    (hP : ∀ s e, I s → P s e → P' s e) (h0 : I s) (h : Along step P s es) : Along step P' s es := by
  induction es generalizing s with
  | nil => trivial
  | cons e es ih => exact ⟨hP _ _ h0 h.1, ih (hstep _ _ h0 h.1) h.2⟩

/-- Two conditions that come to the same under an invariant. -/
theorem along_iff_of_inv (hstep : ∀ s e, I s → I (step s e)) (hiff : ∀ s e, I s → (P s e ↔ P' s e))
    (h0 : I s) : Along step P s es ↔ Along step P' s es :=
  ⟨along_of_inv (fun s e hI _ => hstep s e hI) (fun s e hI hP => (hiff s e hI).1 hP) h0,
    along_of_inv (fun s e hI _ => hstep s e hI) (fun s e hI hP => (hiff s e hI).2 hP) h0⟩

/-- **The run rule, at every state visited.** -/
theorem throughout_of_along (hstep : ∀ s e, I s → P s e → I (step s e))
    (hQ : ∀ s, I s → Q s) (h0 : I s) (h : Along step P s es) : Throughout step Q s es := by
  induction es generalizing s with
  | nil => exact hQ _ h0
  | cons e es ih => exact ⟨hQ _ h0, ih (hstep _ _ h0 h.1) h.2⟩

theorem Throughout.first (h : Throughout step Q s es) : Q s := by
  cases es with
  | nil => exact h
  | cons e es => exact h.1

theorem Throughout.last (h : Throughout step Q s es) : Q (run step s es) := by
  induction es generalizing s with
  | nil => exact h
  | cons e es ih => exact ih h.2

/-- **When the step condition is exact.** If `P` keeps the invariant and a
step that breaks `P` leads to a state without `Q`, then the runs that have
`Q` throughout are the runs whose steps all meet `P`. The runs are those
whose steps meet `R`. -/
theorem throughout_iff_along_of_along {R : σ → ε → Prop}
    (hstep : ∀ s e, I s → R s e → P s e → I (step s e)) (hQ : ∀ s, I s → Q s)
    (hback : ∀ s e, I s → R s e → Q (step s e) → P s e) (h0 : I s) (hR : Along step R s es) :
    Throughout step Q s es ↔ Along step P s es := by
  constructor
  · intro h
    induction es generalizing s with
    | nil => trivial
    | cons e es ih =>
      -- the state after the first event already has `Q`, so that event met `P`
      have he : P s e := hback _ _ h0 hR.1 h.2.first
      exact ⟨he, ih (hstep _ _ h0 hR.1 he) hR.2 h.2⟩
  · intro h
    exact throughout_of_along (fun s e hI hP => hstep s e hI hP.1 hP.2) hQ h0 (hR.and h)

/-- The same, where the runs are those whose events meet `R`. -/
theorem throughout_iff_along {R : ε → Prop} (hstep : ∀ s e, I s → R e → P s e → I (step s e))
    (hQ : ∀ s, I s → Q s) (hback : ∀ s e, I s → R e → Q (step s e) → P s e) (h0 : I s)
    (hR : ∀ e ∈ es, R e) : Throughout step Q s es ↔ Along step P s es :=
  throughout_iff_along_of_along hstep hQ hback h0 (along_of_forall hR)

/-! ## Trails -/

variable {obs : σ → ε → ω}

@[simp] theorem trail_nil : trail step obs s [] = [] := rfl

@[simp] theorem trail_cons :
    trail step obs s (e :: es) = obs s e :: trail step obs (step s e) es := rfl

theorem trail_append {es' : List ε} : trail step obs s (es ++ es') =
    trail step obs s es ++ trail step obs (run step s es) es' := by
  induction es generalizing s with
  | nil => rfl
  | cons e es ih => rw [List.cons_append, trail_cons, ih, trail_cons, run_cons, List.cons_append]

/-- **The run rule, with what has been shown so far.** -/
theorem inv_trail {J : List ω → σ → Prop} {tr : List ω}
    (hstep : ∀ tr s e, J tr s → P s e → J (tr ++ [obs s e]) (step s e)) (h0 : J tr s)
    (h : Along step P s es) : J (tr ++ trail step obs s es) (run step s es) := by
  induction es generalizing s tr with
  | nil => simpa using h0
  | cons e es ih =>
    rw [trail_cons, List.append_cons]
    exact ih (hstep _ _ _ h0 h.1) h.2

/-- What the run shows of those events that show something. -/
def shown (step : σ → ε → σ) (obs : σ → ε → Option ω) (s : σ) (es : List ε) : List ω :=
  (trail step obs s es).reduceOption

theorem shown_cons {obs : σ → ε → Option ω} : shown step obs s (e :: es) =
    (obs s e).toList ++ shown step obs (step s e) es := by
  rw [shown, trail_cons]
  cases obs s e <;> simp [shown]

/-- **The run rule, with what those events have shown so far.** -/
theorem inv_shown {obs : σ → ε → Option ω} {J : List ω → σ → Prop}
    (hother : ∀ tr s e, J tr s → P s e → obs s e = none → J tr (step s e))
    (hshown : ∀ tr s e o, J tr s → P s e → obs s e = some o → J (tr ++ [o]) (step s e))
    (h0 : J [] s) (h : Along step P s es) : J (shown step obs s es) (run step s es) := by
  have hstep : ∀ tr s e, J tr.reduceOption s → P s e →
      J (tr ++ [obs s e]).reduceOption (step s e) := by
    intro tr s e hJ hP
    rw [List.reduceOption_append]
    cases ho : obs s e with
    | none => simpa using hother _ _ _ hJ hP ho
    | some o => simpa using hshown _ _ _ _ hJ hP ho
  have hnil : J (List.reduceOption ([] : List (Option ω))) s := h0
  exact inv_trail (J := fun tr s => J tr.reduceOption s) hstep hnil h

/-- **Two runs that nothing tells apart.** States related by `R` and events
related by `E` show the same and lead to related states. -/
theorem trail_eq {step' : σ' → ε' → σ'} {obs' : σ' → ε' → ω} {R : σ → σ' → Prop}
    {E : ε → ε' → Prop} {s' : σ'} {es' : List ε'}
    (hstep : ∀ s s' e e', R s s' → E e e' → obs s e = obs' s' e' ∧ R (step s e) (step' s' e'))
    (h0 : R s s') (hes : List.Forall₂ E es es') :
    trail step obs s es = trail step' obs' s' es' := by
  induction hes generalizing s s' with
  | nil => rfl
  | cons he _ ih =>
    obtain ⟨hobs, hR⟩ := hstep _ _ _ _ h0 he
    rw [trail_cons, trail_cons, hobs, ih hR]

/-- The same, where each step of the first run meets its condition. -/
theorem trail_eq_of_along {step' : σ' → ε → σ'} {obs' : σ' → ε → ω} {R : σ → σ' → Prop} {s' : σ'}
    (hstep : ∀ s s' e, R s s' → P s e → obs s e = obs' s' e ∧ R (step s e) (step' s' e))
    (h0 : R s s') (h : Along step P s es) : trail step obs s es = trail step' obs' s' es := by
  induction es generalizing s s' with
  | nil => rfl
  | cons e es ih =>
    obtain ⟨hobs, hR⟩ := hstep _ _ _ h0 h.1
    rw [trail_cons, trail_cons, hobs, ih hR h.2]

end Run

end VehicleStack
