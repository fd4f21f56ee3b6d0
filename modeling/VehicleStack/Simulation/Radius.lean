import VehicleStack.Simulation.CrossTrack
import VehicleStack.Simulation.Cusps
import Mathlib.Analysis.Real.Sqrt
import Mathlib.Tactic.FieldSimp
import Mathlib.Tactic.LinearCombination
import Mathlib.Tactic.NormNum.OfScientific

/-!
# The navigation probe — the radii

The radius of a bend is that of the circle through its three points, and
there is only one such circle. So the radius that is reported of a plan is
the least for which some three neighbouring points, not a cusp and not
straight, lie on a circle (`min_radius_isLeast`). That is so in exact
arithmetic; the source takes the lengths in doubles.
-/

namespace VehicleStack

namespace Simulation

open Turns

variable {K : Type} [Field K] [LinearOrder K] {sqrt : K → K} {t : Triple K} {ρ : K}

/-- `math.dist`. -/
def euclid (sqrt : K → K) (p q : K × K) : K := hypot sqrt (p.1 - q.1) (p.2 - q.2)

/-- What a square root is: not negative, and a root. -/
structure Root (sqrt : K → K) : Prop where
  nonneg : ∀ x, 0 ≤ sqrt x
  mul_self : ∀ x, 0 ≤ x → sqrt x * sqrt x = x

/-- The cross product of the ways into and out of the middle point. -/
def cross (t : Triple K) : K :=
  (t.2.1.1 - t.1.1) * (t.2.2.2 - t.2.1.2) - (t.2.1.2 - t.1.2) * (t.2.2.1 - t.2.1.1)

/-- The three sides. -/
def sides (sqrt : K → K) (t : Triple K) : K :=
  euclid sqrt t.1 t.2.1 * euclid sqrt t.2.1 t.2.2 * euclid sqrt t.1 t.2.2

/-- The point lies on the circle with this centre and radius. -/
def OnCircle (z : K × K) (ρ : K) (p : K × K) : Prop :=
  (p.1 - z.1) * (p.1 - z.1) + (p.2 - z.2) * (p.2 - z.2) = ρ * ρ

/-- The three points lie on a circle of this radius. -/
def Circumradius (t : Triple K) (ρ : K) : Prop :=
  0 ≤ ρ ∧ ∃ z, OnCircle z ρ t.1 ∧ OnCircle z ρ t.2.1 ∧ OnCircle z ρ t.2.2

/-- A triple that has a radius: it is neither straight nor too small. -/
def Bent (sqrt : K → K) (t : Triple K) : Prop := |cross t| > 1e-9 ∧ sides sqrt t > 1e-9

theorem bend_radius : (bend (euclid sqrt) t).map Prod.snd = some ρ ↔
    Bent sqrt t ∧ ρ = sides sqrt t / (2.0 * |cross t|) := by
  obtain ⟨p, q, r⟩ := t
  unfold bend
  dsimp only
  split
  · rename_i h
    rw [Option.map_some, Option.some.injEq, eq_comm]
    exact (and_iff_right h).symm
  · rename_i h
    exact iff_of_false nofun fun h' => h h'.1

section Ordered

variable [IsStrictOrderedRing K]

theorem cross_ne_zero (h : Bent sqrt t) : cross t ≠ 0 := by
  rintro h0
  have hlarge : |cross t| > 1e-9 := h.1
  rw [h0, abs_zero] at hlarge
  exact absurd hlarge (not_lt.2 (by norm_num))

/-- The square of a distance. -/
theorem euclid_mul_self (hsqrt : Root sqrt) (p q : K × K) :
    euclid sqrt p q * euclid sqrt p q =
      (p.1 - q.1) * (p.1 - q.1) + (p.2 - q.2) * (p.2 - q.2) :=
  hsqrt.mul_self _ (add_nonneg (mul_self_nonneg _) (mul_self_nonneg _))

theorem sides_nonneg (hsqrt : Root sqrt) (t : Triple K) : 0 ≤ sides sqrt t :=
  mul_nonneg (mul_nonneg (hsqrt.nonneg _) (hsqrt.nonneg _)) (hsqrt.nonneg _)

/-- The square of the three sides. -/
theorem sides_mul_self (hsqrt : Root sqrt) (p q r : K × K) :
    sides sqrt (p, q, r) * sides sqrt (p, q, r) =
      ((p.1 - q.1) * (p.1 - q.1) + (p.2 - q.2) * (p.2 - q.2)) *
        ((q.1 - r.1) * (q.1 - r.1) + (q.2 - r.2) * (q.2 - r.2)) *
        ((p.1 - r.1) * (p.1 - r.1) + (p.2 - r.2) * (p.2 - r.2)) := by
  rw [← euclid_mul_self hsqrt p q, ← euclid_mul_self hsqrt q r, ← euclid_mul_self hsqrt p r]
  unfold sides
  ring

/-- **The radius of a circle through three points**: its square is that of
the three sides over that of twice the cross product. -/
theorem mul_self_of_onCircle (hsqrt : Root sqrt) {z : K × K} (h1 : OnCircle z ρ t.1)
    (h2 : OnCircle z ρ t.2.1) (h3 : OnCircle z ρ t.2.2) :
    ρ * ρ * (4 * (cross t * cross t)) = sides sqrt t * sides sqrt t := by
  obtain ⟨⟨x1, y1⟩, ⟨x2, y2⟩, ⟨x3, y3⟩⟩ := t
  obtain ⟨cx, cy⟩ := z
  rw [sides_mul_self hsqrt]
  unfold OnCircle at h1 h2 h3
  unfold cross
  dsimp only at h1 h2 h3 ⊢
  set X := (x2 - x1) * (y3 - y2) - (y2 - y1) * (x3 - x2) with hX
  set U := (x2 - x1) * (x2 - x1) + (y2 - y1) * (y2 - y1) with hU
  set V := (x3 - x1) * (x3 - x1) + (y3 - y1) * (y3 - y1) with hV
  -- the centre is as far from the first point as from the second, and from the third
  have hsecond : 2 * ((cx - x1) * (x2 - x1) + (cy - y1) * (y2 - y1)) = U := by
    linear_combination h1 - h2
  have hthird : 2 * ((cx - x1) * (x3 - x1) + (cy - y1) * (y3 - y1)) = V := by
    linear_combination h1 - h3
  have hcx : 2 * X * (cx - x1) = (y3 - y1) * U - (y2 - y1) * V := by
    linear_combination (y3 - y1) * hsecond - (y2 - y1) * hthird
  have hcy : 2 * X * (cy - y1) = (x2 - x1) * V - (x3 - x1) * U := by
    linear_combination (x2 - x1) * hthird - (x3 - x1) * hsecond
  calc ρ * ρ * (4 * (X * X))
      = 2 * X * (cx - x1) * (2 * X * (cx - x1)) + 2 * X * (cy - y1) * (2 * X * (cy - y1)) := by
        rw [← h1]
        ring
    _ = _ := by
        rw [hcx, hcy, hU, hV]
        ring

/-- **There is one.** -/
theorem onCircle_centre (hsqrt : Root sqrt) (hcross : cross t ≠ 0)
    (hρ : ρ * ρ * (4 * (cross t * cross t)) = sides sqrt t * sides sqrt t) :
    ∃ z, OnCircle z ρ t.1 ∧ OnCircle z ρ t.2.1 ∧ OnCircle z ρ t.2.2 := by
  obtain ⟨⟨x1, y1⟩, ⟨x2, y2⟩, ⟨x3, y3⟩⟩ := t
  rw [sides_mul_self hsqrt] at hρ
  unfold cross at hcross hρ
  dsimp only at hcross hρ
  set X := (x2 - x1) * (y3 - y2) - (y2 - y1) * (x3 - x2) with hX
  set U := (x2 - x1) * (x2 - x1) + (y2 - y1) * (y2 - y1) with hU
  set V := (x3 - x1) * (x3 - x1) + (y3 - y1) * (y3 - y1) with hV
  have htwo : (2 * X) ≠ 0 := mul_ne_zero two_ne_zero hcross
  obtain ⟨wx, hwx⟩ : ∃ wx, 2 * X * wx = (y3 - y1) * U - (y2 - y1) * V :=
    ⟨_, mul_div_cancel₀ _ htwo⟩
  obtain ⟨wy, hwy⟩ : ∃ wy, 2 * X * wy = (x2 - x1) * V - (x3 - x1) * U :=
    ⟨_, mul_div_cancel₀ _ htwo⟩
  have hsquare : 4 * (X * X) ≠ 0 := mul_ne_zero four_ne_zero (mul_ne_zero hcross hcross)
  refine ⟨(x1 + wx, y1 + wy), ?_, ?_, ?_⟩
  · refine mul_right_cancel₀ hsquare ?_
    rw [hρ]
    calc ((x1 - (x1 + wx)) * (x1 - (x1 + wx)) + (y1 - (y1 + wy)) * (y1 - (y1 + wy))) *
          (4 * (X * X))
        = 2 * X * wx * (2 * X * wx) + 2 * X * wy * (2 * X * wy) := by ring
      _ = _ := by
        rw [hwx, hwy, hU, hV]
        ring
  · refine mul_right_cancel₀ hsquare ?_
    rw [hρ]
    calc ((x2 - (x1 + wx)) * (x2 - (x1 + wx)) + (y2 - (y1 + wy)) * (y2 - (y1 + wy))) *
          (4 * (X * X))
        = (2 * X * (x2 - x1) - 2 * X * wx) * (2 * X * (x2 - x1) - 2 * X * wx) +
          (2 * X * (y2 - y1) - 2 * X * wy) * (2 * X * (y2 - y1) - 2 * X * wy) := by ring
      _ = _ := by
        rw [hwx, hwy, hX, hU, hV]
        ring
  · refine mul_right_cancel₀ hsquare ?_
    rw [hρ]
    calc ((x3 - (x1 + wx)) * (x3 - (x1 + wx)) + (y3 - (y1 + wy)) * (y3 - (y1 + wy))) *
          (4 * (X * X))
        = (2 * X * (x3 - x1) - 2 * X * wx) * (2 * X * (x3 - x1) - 2 * X * wx) +
          (2 * X * (y3 - y1) - 2 * X * wy) * (2 * X * (y3 - y1) - 2 * X * wy) := by ring
      _ = _ := by
        rw [hwx, hwy, hX, hU, hV]
        ring

/-- **A bend's radius is that of the circle through its points.** -/
theorem circumradius_iff (hsqrt : Root sqrt) (h : Bent sqrt t) :
    Circumradius t ρ ↔ ρ = sides sqrt t / (2.0 * |cross t|) := by
  have hcross := cross_ne_zero h
  have htwo : (2.0 : K) = 2 := by norm_num
  rw [htwo]
  have hpos : 0 < 2 * |cross t| := mul_pos two_pos (abs_pos.2 hcross)
  have hden : 2 * |cross t| * (2 * |cross t|) = 4 * (cross t * cross t) := by
    rw [← abs_mul_abs_self (cross t)]
    ring
  constructor
  · rintro ⟨hρ, z, h1, h2, h3⟩
    have hsquare := mul_self_of_onCircle hsqrt h1 h2 h3
    rw [eq_div_iff hpos.ne']
    refine (mul_self_inj (mul_nonneg hρ hpos.le) (sides_nonneg hsqrt t)).1 ?_
    rw [← hsquare, ← hden]
    ring
  · rintro rfl
    refine ⟨div_nonneg (sides_nonneg hsqrt t) hpos.le, onCircle_centre hsqrt hcross ?_⟩
    rw [← hden]
    field_simp

/-- **The least radius of a plan**, in exact arithmetic. Among the triples that
do not double back, and are neither straight nor too small, the radius that is
reported is the least radius of a circle through the three points. -/
theorem min_radius_isLeast (sqrt : K → K) (hsqrt : Root sqrt) (pts : List (K × K))
    (m : PathMetrics K) (h : pathMetrics (euclid sqrt) pts = some m) (ρ : K) :
    m.min_radius = some ρ ↔
      IsLeast {ρ | ∃ t ∈ triples pts, ¬ DoubledBack t ∧ Bent sqrt t ∧ Circumradius t ρ} ρ := by
  obtain ⟨hlen, -, hradius⟩ := pathMetrics_fields h
  have honce := flatMap_splitAtCusps.trans (allRuns_fields hlen).1
  have hmem : ∀ x, x ∈ (((splitAtCusps pts).flatMap triples).filterMap
      (bend (euclid sqrt))).map Prod.snd ↔
      ∃ t ∈ triples pts, ¬ DoubledBack t ∧ Bent sqrt t ∧ Circumradius t x := by
    intro x
    rw [honce, List.map_filterMap, List.mem_filterMap]
    refine exists_congr fun t => ?_
    rw [List.mem_filter, decide_eq_true_iff, and_assoc, bend_radius]
    refine and_congr_right fun _ => and_congr_right fun _ => and_congr_right fun hbent => ?_
    exact (circumradius_iff hsqrt hbent).symm
  rw [hradius, List.min?_eq_some_iff]
  exact and_congr (hmem ρ) ⟨fun hle x hx => hle x ((hmem x).2 hx),
    fun hle x hx => hle ((hmem x).1 hx)⟩

end Ordered

/-- A metre on and a metre to the left. -/
theorem min_radius_isLeast_corner :
    ∃ m, pathMetrics (euclid Real.sqrt) [(0, 0), (1, 0), (1, 1)] = some m ∧
      ∀ ρ, m.min_radius = some ρ ↔
        IsLeast {ρ | ∃ t ∈ triples [((0 : ℝ), (0 : ℝ)), (1, 0), (1, 1)],
          ¬ DoubledBack t ∧ Bent Real.sqrt t ∧ Circumradius t ρ} ρ := by
  have hroot : Root Real.sqrt := ⟨Real.sqrt_nonneg, fun _ => Real.mul_self_sqrt⟩
  have hlength : ¬ pathLength (euclid Real.sqrt) [(0, 0), (1, 0), (1, 1)] < 0.5 := by
    norm_num [pathLength, euclid, hypot]
  obtain ⟨m, hm⟩ : ∃ m, pathMetrics (euclid Real.sqrt) [(0, 0), (1, 0), (1, 1)] = some m := by
    unfold pathMetrics
    rw [if_neg (by simp)]
    exact ⟨_, if_neg hlength⟩
  exact ⟨m, hm, min_radius_isLeast Real.sqrt hroot _ m hm⟩

end Simulation

end VehicleStack
