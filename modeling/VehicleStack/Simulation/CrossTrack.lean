import VehicleStack.Simulation.NavProbe
import Mathlib.Analysis.Real.Sqrt
import Mathlib.Order.Bounds.Basic
import Mathlib.Tactic.Linarith
import Mathlib.Tactic.Ring

/-!
# The navigation probe — the cross-track error

`point_seg_dist` puts the foot of the perpendicular back onto the segment,
and `run_goal` takes the least over the segments of the plan. That is the
distance to the plan: the least of the distances to its points, those
between the points of the list included (`cross_track_isLeast`). The
arithmetic is exact here; the source works in doubles.
-/

namespace VehicleStack

namespace Simulation

section Distance

variable {K : Type} [Field K] [LinearOrder K] (sqrt : K → K)

/-- `math.hypot`, of the machine's square root. -/
def hypot (x y : K) : K := sqrt (x * x + y * y)

/-- `point_seg_dist`. -/
def pointSegDist (p a b : K × K) : K :=
  let dx := b.1 - a.1
  let dy := b.2 - a.2
  let d2 := dx * dx + dy * dy
  if d2 = 0 then hypot sqrt (p.1 - a.1) (p.2 - a.2)
  else
    let t := max 0 (min 1 (((p.1 - a.1) * dx + (p.2 - a.2) * dy) / d2))
    hypot sqrt (p.1 - (a.1 + t * dx)) (p.2 - (a.2 + t * dy))

/-- `xte`, of a position and the plan. -/
def crossTrack (plan : List (K × K)) (p : K × K) : Option K :=
  if 2 ≤ plan.length then ((plan.zip plan.tail).map fun (a, b) => pointSegDist sqrt p a b).min?
  else none

end Distance

variable {K : Type} [Field K] [LinearOrder K] {sqrt : K → K} {p a b : K × K} {plan : List (K × K)}

/-- The point that lies `t` of the way from `a` to `b`. -/
def onWay (a b : K × K) (t : K) : K × K := (a.1 + t * (b.1 - a.1), a.2 + t * (b.2 - a.2))

/-- The distance of a position from that point. -/
def distToWay (sqrt : K → K) (p a b : K × K) (t : K) : K :=
  hypot sqrt (p.1 - (onWay a b t).1) (p.2 - (onWay a b t).2)

/-- The distances of a position from the points of a segment. -/
def DistToSegment (sqrt : K → K) (p a b : K × K) : Set K :=
  {d | ∃ t, 0 ≤ t ∧ t ≤ 1 ∧ d = distToWay sqrt p a b t}

/-- Those from the points of the plan. -/
def DistToPlan (sqrt : K → K) (p : K × K) (plan : List (K × K)) : Set K :=
  {d | ∃ s ∈ plan.zip plan.tail, d ∈ DistToSegment sqrt p s.1 s.2}

section Ordered

variable [IsStrictOrderedRing K]

/-- A square root keeps the order of what it is taken of. -/
def Monotonic (sqrt : K → K) : Prop := ∀ x y, 0 ≤ x → x ≤ y → sqrt x ≤ sqrt y

theorem hypot_le (hsqrt : Monotonic sqrt) {x y x' y' : K} (h : x * x + y * y ≤ x' * x' + y' * y') :
    hypot sqrt x y ≤ hypot sqrt x' y' :=
  hsqrt _ _ (add_nonneg (mul_self_nonneg x) (mul_self_nonneg y)) h

/-- Put back into the interval, a number is nowhere nearer to `u`. -/
theorem clamp_nearest {s u : K} (h0 : 0 ≤ s) (h1 : s ≤ 1) :
    0 ≤ (s - max 0 (min 1 u)) * (s + max 0 (min 1 u) - 2 * u) := by
  rcases le_total u 0 with hu | hu
  · rw [min_eq_right (hu.trans zero_le_one), max_eq_left hu]
    exact mul_nonneg (by linarith) (by linarith)
  · rcases le_total u 1 with hu' | hu'
    · rw [min_eq_right hu', max_eq_right hu]
      have hsquare : (s - u) * (s + u - 2 * u) = (s - u) * (s - u) := by ring
      rw [hsquare]
      exact mul_self_nonneg _
    · rw [min_eq_left hu', max_eq_right zero_le_one]
      exact mul_nonneg_of_nonpos_of_nonpos (by linarith) (by linarith)

/-- **The distance to a segment** is the least of the distances to its
points. -/
theorem pointSegDist_isLeast (hsqrt : Monotonic sqrt) :
    IsLeast (DistToSegment sqrt p a b) (pointSegDist sqrt p a b) := by
  unfold pointSegDist
  dsimp only
  set dx := b.1 - a.1 with hdx
  set dy := b.2 - a.2 with hdy
  split
  · rename_i hd2
    -- the segment is a point
    have hzero : dx = 0 ∧ dy = 0 := by
      have hx := mul_self_nonneg dx
      have hy := mul_self_nonneg dy
      exact ⟨mul_self_eq_zero.1 (by linarith), mul_self_eq_zero.1 (by linarith)⟩
    have hsame : ∀ t, distToWay sqrt p a b t = hypot sqrt (p.1 - a.1) (p.2 - a.2) := by
      intro t
      rw [distToWay, onWay, ← hdx, ← hdy, hzero.1, hzero.2]
      simp only [mul_zero, add_zero]
    refine ⟨⟨0, le_rfl, zero_le_one, (hsame 0).symm⟩, ?_⟩
    rintro d ⟨t, -, -, rfl⟩
    exact (hsame t).ge
  · rename_i hd2
    set u := ((p.1 - a.1) * dx + (p.2 - a.2) * dy) / (dx * dx + dy * dy) with hu
    set t := max 0 (min 1 u) with ht
    refine ⟨⟨t, le_max_left _ _, max_le zero_le_one (min_le_left _ _), rfl⟩, ?_⟩
    rintro d ⟨s, h0, h1, rfl⟩
    have hfoot : u * (dx * dx + dy * dy) = (p.1 - a.1) * dx + (p.2 - a.2) * dy :=
      div_mul_cancel₀ _ hd2
    have hpos : 0 ≤ dx * dx + dy * dy := add_nonneg (mul_self_nonneg _) (mul_self_nonneg _)
    have hnear : 0 ≤ (dx * dx + dy * dy) * ((s - t) * (s + t - 2 * u)) :=
      mul_nonneg hpos (clamp_nearest h0 h1)
    refine hypot_le hsqrt ?_
    simp only [onWay, ← hdx, ← hdy]
    -- the squares differ by what `clamp_nearest` is about
    have hdiff : (p.1 - (a.1 + s * dx)) * (p.1 - (a.1 + s * dx)) +
          (p.2 - (a.2 + s * dy)) * (p.2 - (a.2 + s * dy)) -
        ((p.1 - (a.1 + t * dx)) * (p.1 - (a.1 + t * dx)) +
          (p.2 - (a.2 + t * dy)) * (p.2 - (a.2 + t * dy))) =
        (dx * dx + dy * dy) * ((s - t) * (s + t)) -
          2 * (s - t) * ((p.1 - a.1) * dx + (p.2 - a.2) * dy) := by ring
    have hnear' : (dx * dx + dy * dy) * ((s - t) * (s + t - 2 * u)) =
        (dx * dx + dy * dy) * ((s - t) * (s + t)) -
          2 * (s - t) * (u * (dx * dx + dy * dy)) := by ring
    rw [hnear', hfoot] at hnear
    linarith

/-- **The cross-track error is the distance to the plan**, in exact
arithmetic. -/
theorem cross_track_isLeast (sqrt : K → K) (hsqrt : Monotonic sqrt) (plan : List (K × K))
    (p : K × K) (e : K) :
    crossTrack sqrt plan p = some e ↔ IsLeast (DistToPlan sqrt p plan) e := by
  have hbound : ∀ s ∈ plan.zip plan.tail, IsLeast (DistToSegment sqrt p s.1 s.2)
      (pointSegDist sqrt p s.1 s.2) := fun s _ => pointSegDist_isLeast hsqrt
  have hsegments : 2 ≤ plan.length ∨ plan.zip plan.tail = [] := by
    rcases plan with _ | ⟨a, _ | ⟨b, rest⟩⟩
    · exact Or.inr rfl
    · exact Or.inr rfl
    · exact Or.inl (by simp)
  have hleast : ((plan.zip plan.tail).map fun s => pointSegDist sqrt p s.1 s.2).min? = some e ↔
      IsLeast (DistToPlan sqrt p plan) e := by
    rw [List.min?_eq_some_iff]
    constructor
    · rintro ⟨hmem, hle⟩
      obtain ⟨s, hs, rfl⟩ := List.mem_map.1 hmem
      refine ⟨⟨s, hs, (hbound s hs).1⟩, ?_⟩
      rintro d ⟨s', hs', hd⟩
      exact (hle _ (List.mem_map_of_mem hs')).trans ((hbound s' hs').2 hd)
    · rintro ⟨⟨s, hs, hd⟩, hlower⟩
      have hattained : pointSegDist sqrt p s.1 s.2 = e :=
        le_antisymm ((hbound s hs).2 hd) (hlower ⟨s, hs, (hbound s hs).1⟩)
      refine ⟨List.mem_map.2 ⟨s, hs, hattained⟩, fun d hd' => ?_⟩
      obtain ⟨s', hs', rfl⟩ := List.mem_map.1 hd'
      exact hlower ⟨s', hs', (hbound s' hs').1⟩
  unfold crossTrack
  rcases hsegments with hlen | hnone
  · rw [if_pos hlen]
    exact hleast
  · rw [← hleast, hnone]
    simp

end Ordered

/-- Two metres straight on, and a position a metre beside them. -/
theorem cross_track_isLeast_beside :
    crossTrack Real.sqrt [(0, 0), (2, 0)] (1, 1) = some 1 ↔
      IsLeast (DistToPlan Real.sqrt (1, 1) [(0, 0), (2, 0)]) 1 :=
  cross_track_isLeast Real.sqrt (fun _ _ _ h => Real.sqrt_le_sqrt h) [(0, 0), (2, 0)] (1, 1) 1

end Simulation

end VehicleStack
