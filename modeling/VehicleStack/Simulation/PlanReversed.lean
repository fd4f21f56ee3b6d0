import VehicleStack.Simulation.Cusps
import Mathlib.Tactic.NormNum
import Mathlib.Tactic.NormNum.OfScientific
import Mathlib.Tactic.Ring

/-!
# The navigation probe — a plan and the plan back

What the probe reports of a plan is about its points and not about the way
along them: driven the other way, a plan has the same runs, the other way
round, the same radii and as many changes of the sign of its curvature.
`path_metrics` of the two is the same (`path_metrics_reversed`) in exact
arithmetic. A sum of doubles depends on the order of its terms, and with it
which side of the least length a plan comes out on.
-/

namespace VehicleStack

namespace Turns

variable {α : Type*}

/-- Three points the other way. -/
def turned : α × α × α → α × α × α
  | (p, q, r) => (r, q, p)

/-- **The triples of a path back.** -/
theorem triples_reverse : ∀ l : List α, triples l.reverse = ((triples l).map turned).reverse
  | [] => rfl
  | [_] => rfl
  | [_, _] => rfl
  | p :: q :: r :: l => by
    have ih := triples_reverse (q :: r :: l)
    rw [triples_cons, List.map_cons, List.reverse_cons (a := turned _), ← ih]
    have hback : (p :: q :: r :: l).reverse = l.reverse ++ [r, q, p] := by simp
    have hback' : (q :: r :: l).reverse = l.reverse ++ [r, q] := by simp
    rw [hback, hback', triples_concat]
    rfl

/-- The pairs of neighbours, with one more point at the end. -/
theorem zip_tail_concat {p q : α} : ∀ front : List α,
    (front ++ [p, q]).zip (front ++ [p, q]).tail =
      (front ++ [p]).zip (front ++ [p]).tail ++ [(p, q)]
  | [] => rfl
  | [_] => rfl
  | a :: b :: front => by
    have ih := zip_tail_concat (p := p) (q := q) (b :: front)
    simp only [List.cons_append, List.tail_cons, List.zip_cons_cons] at ih ⊢
    rw [ih]

/-- **The pairs of neighbours of a path back.** -/
theorem zip_tail_reverse : ∀ l : List α,
    l.reverse.zip l.reverse.tail = ((l.zip l.tail).map Prod.swap).reverse
  | [] => rfl
  | [_] => rfl
  | p :: q :: l => by
    have ih := zip_tail_reverse (q :: l)
    rw [List.tail_cons, List.zip_cons_cons, List.map_cons, List.reverse_cons (a := Prod.swap _)]
    rw [List.tail_cons] at ih
    rw [← ih]
    have hback : (p :: q :: l).reverse = l.reverse ++ [q, p] := by simp
    have hback' : (q :: l).reverse = l.reverse ++ [q] := by simp
    rw [hback, hback', zip_tail_concat]
    rfl

end Turns

namespace Simulation

open Turns

section Mirrored

variable {K : Type}

/-- Paths, each the other way and in the other order. -/
def mirrored (runs : List (List (K × K))) : List (List (K × K)) := (runs.map List.reverse).reverse

theorem mirrored_mirrored (runs : List (List (K × K))) : mirrored (mirrored runs) = runs := by
  simp [mirrored]

theorem mirrored_concat {runs : List (List (K × K))} {run : List (K × K)} :
    mirrored (runs ++ [run]) = run.reverse :: mirrored runs := by
  simp [mirrored]

theorem mirrored_cons {runs : List (List (K × K))} {run : List (K × K)} :
    mirrored (run :: runs) = mirrored runs ++ [run.reverse] := by
  simp [mirrored]

/-- One more point at the head of the first run. -/
def onFirst (p : K × K) : List (List (K × K)) → List (List (K × K))
  | [] => []
  | run :: runs => (p :: run) :: runs

end Mirrored

section Runs

variable {K : Type} [Field K] [LinearOrder K] {s : Split K} {p q r last : K × K}
  {ts : List (Triple K)}

theorem visit_of_cusp {t : Triple K} (h : DoubledBack t) :
    s.visit t = ⟨s.runs ++ [s.cur ++ [t.2.1]], [t.2.1]⟩ := if_pos h

theorem visit_of_not {t : Triple K} (h : ¬ DoubledBack t) :
    s.visit t = ⟨s.runs, s.cur ++ [t.2.1]⟩ := if_neg h

/-- The runs of a longer plan begin with those there are. -/
theorem finish_foldl_runs (runs : List (List (K × K))) (cur : List (K × K)) :
    (ts.foldl Split.visit ⟨runs, cur⟩).finish last =
      runs ++ (ts.foldl Split.visit ⟨[], cur⟩).finish last := by
  induction ts generalizing runs cur with
  | nil => simp [Split.finish]
  | cons t ts ih =>
    rw [List.foldl_cons, List.foldl_cons]
    by_cases h : DoubledBack t
    · rw [visit_of_cusp h, visit_of_cusp h, ih, ih ([] ++ _), List.nil_append, List.append_assoc]
    · rw [visit_of_not h, visit_of_not h, ih]

/-- And a point in front of the run under way stays there. -/
theorem finish_foldl_cons (cur : List (K × K)) :
    (ts.foldl Split.visit ⟨[], p :: cur⟩).finish last =
      onFirst p ((ts.foldl Split.visit ⟨[], cur⟩).finish last) := by
  induction ts generalizing cur with
  | nil => rfl
  | cons t ts ih =>
    rw [List.foldl_cons, List.foldl_cons]
    by_cases h : DoubledBack t
    · rw [visit_of_cusp h, visit_of_cusp h, finish_foldl_runs, finish_foldl_runs ([] ++ _)]
      rfl
    · rw [visit_of_not h, visit_of_not h]
      exact ih _

/-- The runs of a plan with two points or more. -/
theorem allRuns_eq {first : K × K} {pts : List (K × K)}
    (hlast : (first :: pts).getLast? = some last) :
    allRuns (first :: pts) =
      ((triples (first :: pts)).foldl Split.visit ⟨[], [first]⟩).finish last := by
  rw [allRuns, List.head?_cons, hlast]
  rfl

/-- **One more point at the start** is a run of its own up to a cusp, or
lengthens the first run. -/
theorem allRuns_cons (rest : List (K × K)) : allRuns (p :: q :: r :: rest) =
    if DoubledBack (p, q, r) then [p, q] :: allRuns (q :: r :: rest)
    else onFirst p (allRuns (q :: r :: rest)) := by
  obtain ⟨last, hlast⟩ : ∃ last, (q :: r :: rest).getLast? = some last :=
    ⟨_, List.getLast?_eq_some_getLast (List.cons_ne_nil _ _)⟩
  have hlast' : (p :: q :: r :: rest).getLast? = some last := by
    rw [List.getLast?_cons_cons, hlast]
  rw [allRuns_eq hlast, allRuns_eq hlast', triples_cons, List.foldl_cons]
  split
  · rename_i h
    rw [visit_of_cusp h, finish_foldl_runs]
    rfl
  · rename_i h
    rw [visit_of_not h]
    exact finish_foldl_cons [q]

/-- **One more point at the end**, likewise. -/
theorem allRuns_concat (front : List (K × K)) : allRuns (front ++ [p, q, r]) =
    if DoubledBack (p, q, r) then allRuns (front ++ [p, q]) ++ [[q, r]]
    else mirrored (onFirst r (mirrored (allRuns (front ++ [p, q])))) := by
  obtain ⟨first, pts, hfirst⟩ := List.exists_cons_of_ne_nil
    (List.append_ne_nil_of_right_ne_nil front (List.cons_ne_nil p [q]))
  have hfirst' : front ++ [p, q, r] = first :: (pts ++ [r]) := by
    have hmore := congrArg (· ++ [r]) hfirst
    simpa using hmore
  have hlast : (first :: pts).getLast? = some q := by
    rw [← hfirst]
    simp
  have hlast' : (first :: (pts ++ [r])).getLast? = some r := by
    rw [← hfirst']
    simp
  rw [hfirst, hfirst', allRuns_eq hlast, allRuns_eq hlast', ← hfirst, ← hfirst', triples_concat,
    List.foldl_append]
  set s := (triples (front ++ [p, q])).foldl Split.visit ⟨[], [first]⟩ with hs
  rw [List.foldl_cons, List.foldl_nil, Split.visit, Split.finish, Split.finish]
  dsimp only
  split
  · rfl
  · rw [mirrored_concat, onFirst, mirrored_cons, mirrored_mirrored]
    simp

/-- Doubling back looks the same both ways. -/
theorem doubledBack_turned : DoubledBack (r, q, p) ↔ DoubledBack (p, q, r) := by
  have hdot : (q.1 - r.1) * (p.1 - q.1) + (q.2 - r.2) * (p.2 - q.2) =
      (q.1 - p.1) * (r.1 - q.1) + (q.2 - p.2) * (r.2 - q.2) := by ring
  simp only [DoubledBack, hdot]

/-- **The runs of a plan back** are its runs, mirrored. -/
theorem allRuns_reverse : ∀ pts : List (K × K), allRuns pts.reverse = mirrored (allRuns pts)
  | [] => rfl
  | [_] => rfl
  | [_, _] => rfl
  | p :: q :: r :: rest => by
    have ih := allRuns_reverse (q :: r :: rest)
    have hback : (p :: q :: r :: rest).reverse = rest.reverse ++ [r, q, p] := by simp
    have hback' : (q :: r :: rest).reverse = rest.reverse ++ [r, q] := by simp
    rw [hback, allRuns_concat, ← hback', ih, allRuns_cons, mirrored_mirrored]
    by_cases h : DoubledBack (p, q, r)
    · rw [if_pos h, if_pos (doubledBack_turned.2 h), mirrored_cons]
      rfl
    · rw [if_neg h, if_neg fun h' => h (doubledBack_turned.1 h')]

/-- And none is too short that was not. -/
theorem splitAtCusps_reverse (pts : List (K × K)) :
    splitAtCusps pts.reverse = mirrored (splitAtCusps pts) := by
  rw [splitAtCusps, splitAtCusps, allRuns_reverse, mirrored, mirrored, List.filter_reverse,
    List.filter_map]
  simp [Function.comp_def]

end Runs

/-- The sign changes as often the other way. -/
theorem signChanges_reverse (signs : List ℤ) :
    signChanges (signs.map fun s => -s).reverse = signChanges signs := by
  have hneg : ∀ l : List ℤ, signChanges (l.map fun s => -s) = signChanges l := by
    intro l
    rw [signChanges, ← List.map_tail, List.zip_map, List.countP_map, signChanges]
    refine List.countP_congr fun x _ => ?_
    simp
  rw [← List.map_reverse, hneg, signChanges, zip_tail_reverse, List.countP_reverse, List.countP_map,
    signChanges]
  refine List.countP_congr fun x _ => ?_
  rw [Function.comp_apply, bne_iff_ne, bne_iff_ne]
  exact ne_comm

/-- The least of a list is that of its entries in any order. -/
theorem min?_of_perm {K : Type} [LinearOrder K] {xs ys : List K} (h : xs.Perm ys) :
    xs.min? = ys.min? := by
  cases hx : xs.min? with
  | none =>
    rw [List.min?_eq_none_iff] at hx
    subst hx
    rw [List.nil_perm.1 h]
    rfl
  | some m =>
    symm
    rw [List.min?_eq_some_iff] at hx ⊢
    exact ⟨h.mem_iff.1 hx.1, fun b hb => hx.2 b (h.mem_iff.2 hb)⟩

section Metrics

variable {K : Type} [Field K] [LinearOrder K] {dist : K × K → K × K → K}

/-- A bend the other way turns to the other side, as tightly. -/
theorem bend_turned [IsStrictOrderedRing K] (hsymm : ∀ p q, dist p q = dist q p) (t : Triple K) :
    bend dist (turned t) = (bend dist t).map fun b => (-b.1, b.2) := by
  obtain ⟨p, q, r⟩ := t
  have hcross : (q.1 - r.1) * (p.2 - q.2) - (q.2 - r.2) * (p.1 - q.1) =
      -((q.1 - p.1) * (r.2 - q.2) - (q.2 - p.2) * (r.1 - q.1)) := by ring
  have hsides : dist r q * dist q p * dist r p = dist p q * dist q r * dist p r := by
    rw [hsymm r q, hsymm q p, hsymm r p]
    ring
  simp only [turned, bend, hcross, hsides, abs_neg]
  set cross := (q.1 - p.1) * (r.2 - q.2) - (q.2 - p.2) * (r.1 - q.1)
  by_cases h : |cross| > 1e-9 ∧ dist p q * dist q r * dist p r > 1e-9
  · rw [if_pos h, if_pos h, Option.map_some]
    have hne : cross ≠ 0 := by
      rintro h0
      rw [h0, abs_zero] at h
      exact absurd h.1 (not_lt.2 (by norm_num))
    rcases lt_or_gt_of_ne hne with hneg | hpos
    · rw [if_pos (neg_pos.2 hneg), if_neg (not_lt.2 hneg.le)]
      rfl
    · rw [if_neg (not_lt.2 (neg_nonpos.2 hpos.le)), if_pos hpos]
  · rw [if_neg h, if_neg h]
    rfl

omit [LinearOrder K] in
theorem pathLength_reverse (hsymm : ∀ p q, dist p q = dist q p) (pts : List (K × K)) :
    pathLength dist pts.reverse = pathLength dist pts := by
  rw [pathLength, zip_tail_reverse, List.map_reverse, List.sum_reverse, List.map_map, pathLength]
  congr 1
  exact List.map_congr_left fun x _ => hsymm x.2 x.1

/-- The bends of a run. -/
def bendsOf (dist : K × K → K × K → K) (run : List (K × K)) : List (ℤ × K) :=
  (triples run).filterMap (bend dist)

theorem bendsOf_reverse [IsStrictOrderedRing K] (hsymm : ∀ p q, dist p q = dist q p)
    (run : List (K × K)) : bendsOf dist run.reverse =
      ((bendsOf dist run).map fun b => (-b.1, b.2)).reverse := by
  rw [bendsOf, triples_reverse, List.filterMap_reverse, List.filterMap_map, bendsOf,
    List.map_filterMap]
  congr 1
  exact List.filterMap_congr fun t _ => bend_turned hsymm t

/-- **The metrics of a plan are those of the plan back**, the lengths and
radii being exact. -/
theorem path_metrics_reversed [IsStrictOrderedRing K] (dist : K × K → K × K → K)
    (hsymm : ∀ p q, dist p q = dist q p) (pts : List (K × K)) :
    pathMetrics dist pts.reverse = pathMetrics dist pts := by
  have hbends : ((splitAtCusps pts.reverse).map fun run => (triples run).filterMap (bend dist)) =
      ((splitAtCusps pts).map fun run =>
        ((bendsOf dist run).map fun b => (-b.1, b.2)).reverse).reverse := by
    rw [splitAtCusps_reverse, mirrored, List.map_reverse, List.map_map]
    congr 1
    exact List.map_congr_left fun run _ => bendsOf_reverse hsymm run
  have hchanges : (((splitAtCusps pts.reverse).map fun run =>
      (triples run).filterMap (bend dist)).map fun bs => signChanges (bs.map Prod.fst)).sum =
      (((splitAtCusps pts).map fun run => (triples run).filterMap (bend dist)).map fun bs =>
        signChanges (bs.map Prod.fst)).sum := by
    rw [hbends, List.map_reverse, List.sum_reverse, List.map_map, List.map_map]
    congr 1
    refine List.map_congr_left fun run _ => ?_
    simp only [Function.comp_apply, List.map_reverse, List.map_map]
    have hsigns := signChanges_reverse ((bendsOf dist run).map Prod.fst)
    rw [List.map_map] at hsigns
    exact hsigns
  have hradii : (((splitAtCusps pts.reverse).map fun run =>
      (triples run).filterMap (bend dist)).flatten.map Prod.snd).min? =
      (((splitAtCusps pts).map fun run =>
        (triples run).filterMap (bend dist)).flatten.map Prod.snd).min? := by
    refine min?_of_perm ?_
    rw [hbends]
    refine ((List.reverse_perm _).flatten.map Prod.snd).trans ?_
    rw [← List.flatMap_def, ← List.flatMap_def, List.map_flatMap, List.map_flatMap]
    refine List.Perm.flatMap_left _ fun run _ => ?_
    rw [List.map_reverse, List.map_map]
    exact List.reverse_perm _
  have hcount : (splitAtCusps pts.reverse).length = (splitAtCusps pts).length := by
    rw [splitAtCusps_reverse, mirrored, List.length_reverse, List.length_map]
  simp only [pathMetrics, List.length_reverse, pathLength_reverse hsymm, hchanges, hradii, hcount]

/-- Two metres out and back, driven from the other end. -/
theorem path_metrics_reversed_outAndBack :
    pathMetrics alongAxis outAndBack.reverse = pathMetrics alongAxis outAndBack :=
  path_metrics_reversed alongAxis (fun p q => by
    rw [alongAxis, alongAxis, abs_sub_comm, abs_sub_comm p.2]) outAndBack

end Metrics

end Simulation

end VehicleStack
