import Mathlib.Algebra.Order.Field.Basic
import Mathlib.Algebra.Order.BigOperators.Group.List
import Mathlib.Data.Rat.Cast.OfScientific
import VehicleStack.Common.Turns

/-!
# The navigation probe — `split_at_cusps` and `path_metrics`

A plan may double back on itself, and the radius at such a point says
nothing about the curve. The probe splits a plan there and looks at each run
by itself; runs too short to have a radius are dropped. What the probe
reports as cusps is the number of runs that are left.
-/

namespace VehicleStack

namespace Simulation

open Turns

section Split

variable {K : Type} [Field K] [LinearOrder K]

/-- The way in and the way out point against each other. -/
def DoubledBack : (K × K) × (K × K) × (K × K) → Prop
  | (p, q, r) => (q.1 - p.1) * (r.1 - q.1) + (q.2 - p.2) * (r.2 - q.2) < 0

instance : DecidablePred (@DoubledBack K _ _) := fun (_, _, _) =>
  inferInstanceAs (Decidable (_ < _))

/-- The runs that are ended, and the one that is not. -/
structure Split (K : Type) where
  runs : List (List (K × K))
  cur : List (K × K)

/-- One point between the ends. -/
def Split.visit (s : Split K) (t : (K × K) × (K × K) × (K × K)) : Split K :=
  let cur := s.cur ++ [t.2.1]
  if DoubledBack t then ⟨s.runs ++ [cur], [t.2.1]⟩ else ⟨s.runs, cur⟩

/-- The runs before the short ones are dropped. -/
def allRuns (pts : List (K × K)) : List (List (K × K)) :=
  match pts.head?, pts.getLast? with
  | some first, some last =>
    let s := (triples pts).foldl Split.visit ⟨[], [first]⟩
    s.runs ++ [s.cur ++ [last]]
  | _, _ => []

def splitAtCusps (pts : List (K × K)) : List (List (K × K)) :=
  (allRuns pts).filter fun run => 3 ≤ run.length

end Split

section Metrics

variable {K : Type} [Field K] [LinearOrder K] (dist : K × K → K × K → K)

/-- What is reported of a plan. No radius is an infinite one. -/
structure PathMetrics (K : Type) where
  length : K
  reversals_per_m : K
  min_radius : Option K
  cusps : ℤ
  deriving DecidableEq, Repr

/-- The sign and the radius of a triple that is neither straight nor too
small. -/
def bend : (K × K) × (K × K) × (K × K) → Option (ℤ × K)
  | (p, q, r) =>
    let cross := (q.1 - p.1) * (r.2 - q.2) - (q.2 - p.2) * (r.1 - q.1)
    let a := dist p q
    let b := dist q r
    let c := dist p r
    if |cross| > 1e-9 ∧ a * b * c > 1e-9 then
      some (if cross > 0 then 1 else -1, a * b * c / (2.0 * |cross|))
    else none

/-- How often the sign changes. -/
def signChanges (signs : List ℤ) : ℕ := (signs.zip signs.tail).countP fun (s, s') => s' != s

def pathLength (pts : List (K × K)) : K := ((pts.zip pts.tail).map fun (p, q) => dist p q).sum

def pathMetrics (pts : List (K × K)) : Option (PathMetrics K) :=
  if pts.length < 3 then none
  else
    let length := pathLength dist pts
    if length < 0.5 then none
    else
      let runs := splitAtCusps pts
      let bends := runs.map fun run => (triples run).filterMap (bend dist)
      let reversals := (bends.map fun bs => signChanges (bs.map Prod.fst)).sum
      some {
        length := length
        reversals_per_m := reversals / length
        min_radius := (bends.flatten.map Prod.snd).min?
        cusps := max 0 (runs.length - 1 : ℤ) }

end Metrics

end Simulation

end VehicleStack
