import VehicleStack.Ackermann.LastGood
import VehicleStack.Common.Linkage

/-!
# The drive — the geometry of the steering

`SteeringWheel::set_rack_position` over the reals. Where the rack is within
the linkage (`WithinLinkage`), the two wheels roll about one centre: their
cotangents differ by the track over the wheelbase and are on either side of
that of the rack (`ackermann_linkage`). What the pot can report within the
mechanical travel is within the linkage by far.
-/

namespace VehicleStack

namespace Ackermann

open Linkage

/-- The numbers of the vehicle over the reals, whatever travels in a
`float`. -/
noncomputable def realNumber (packFloat : ℝ → Vector UInt8 4) (unpackFloat : Vector UInt8 4 → ℝ) :
    Numerics ℝ :=
  ⟨packFloat, unpackFloat, Real.tan, Real.arctan, Real.pi⟩

section Divisors

variable {K : Type} [Field K] (num : Numerics K)

/-- Between the axles. -/
def WHEELBASE : K := 0.23529

/-- Between the pivots of the wheels in front. -/
def TRACK : K := 0.12

/-- What `set_rack_position` divides by for the left wheel, and for the
right one. -/
def leftDivisor (rack_angle : K) : K := WHEELBASE - TRACK / 2.0 * num.tan rack_angle

def rightDivisor (rack_angle : K) : K := WHEELBASE + TRACK / 2.0 * num.tan rack_angle

theorem positions_setRackPosition (w : SteeringWheel K) (rack_angle : K) :
    (w.setRackPosition num rack_angle).positions =
      (num.atan (WHEELBASE * num.tan rack_angle / leftDivisor num rack_angle),
        num.atan (WHEELBASE * num.tan rack_angle / rightDivisor num rack_angle)) := rfl

end Divisors

/-- An angle of the rack that the linkage can follow. -/
structure WithinLinkage (x : ℝ) : Prop where
  mem_Ioo : x ∈ Set.Ioo (-(Real.pi / 2)) (Real.pi / 2)
  abs_tan_lt : |Real.tan x| < 2.0 * WHEELBASE / TRACK

/-- At that angle of the rack the wheels roll about one centre. -/
structure TrueLinkage (num : Numerics ℝ) (x : ℝ) : Prop where
  leftDivisor_pos : 0 < leftDivisor num x
  rightDivisor_pos : 0 < rightDivisor num x
  sign_left : SignType.sign (rackPositions num x).1 = SignType.sign x
  sign_right : SignType.sign (rackPositions num x).2 = SignType.sign x
  cot_sub : x ≠ 0 →
    Real.cot (rackPositions num x).2 - Real.cot (rackPositions num x).1 = TRACK / WHEELBASE
  cot_average : x ≠ 0 →
    (Real.cot (rackPositions num x).2 + Real.cot (rackPositions num x).1) / 2.0 = Real.cot x
  inner_left : 0 < x → |(rackPositions num x).2| < |(rackPositions num x).1|
  inner_right : x < 0 → |(rackPositions num x).1| < |(rackPositions num x).2|

section Real

variable {packFloat : ℝ → Vector UInt8 4} {unpackFloat : Vector UInt8 4 → ℝ} {x y : ℝ}

theorem wheelbase_pos : (0 : ℝ) < WHEELBASE := by norm_num [WHEELBASE]

theorem track_pos : (0 : ℝ) < TRACK := by norm_num [TRACK]

/-- The wheels, as those of a linkage. -/
theorem rackPositions_eq : rackPositions (realNumber packFloat unpackFloat) x =
    (Real.arctan (wheelTan WHEELBASE (TRACK / 2.0) (Real.tan x)),
      Real.arctan (wheelTan WHEELBASE (-(TRACK / 2.0)) (Real.tan x))) := by
  rw [wheelTan, wheelTan, neg_mul, sub_neg_eq_add]
  rfl

/-- Neither wheel is as near to the centre as the axle behind it is far. -/
theorem WithinLinkage.abs_mul_tan_lt (h : WithinLinkage x) :
    |TRACK / 2.0 * Real.tan x| < (WHEELBASE : ℝ) := by
  have htan := (lt_div_iff₀ track_pos).1 h.abs_tan_lt
  rw [abs_mul, abs_of_pos (div_pos track_pos (by norm_num))]
  linarith

theorem WithinLinkage.left_lt (h : WithinLinkage x) :
    TRACK / 2.0 * Real.tan x < (WHEELBASE : ℝ) := (abs_lt.1 h.abs_mul_tan_lt).2

theorem WithinLinkage.right_lt (h : WithinLinkage x) :
    -(TRACK / 2.0) * Real.tan x < (WHEELBASE : ℝ) := by
  rw [neg_mul]
  exact neg_lt.1 (abs_lt.1 h.abs_mul_tan_lt).1

/-- A tangent within a quarter turn has the sign of its angle. -/
theorem sign_tan (h : x ∈ Set.Ioo (-(Real.pi / 2)) (Real.pi / 2)) :
    SignType.sign (Real.tan x) = SignType.sign x := by
  rcases lt_trichotomy x 0 with hneg | rfl | hpos
  · rw [sign_neg hneg, sign_neg (Real.tan_neg_of_neg_of_pi_div_two_lt hneg h.1)]
  · rw [Real.tan_zero]
  · rw [sign_pos hpos, sign_pos (Real.tan_pos_of_pos_of_lt_pi_div_two hpos h.2)]

theorem tan_ne_zero (h : WithinLinkage x) (hx : x ≠ 0) : Real.tan x ≠ 0 := by
  rw [← sign_ne_zero, sign_tan h.mem_Ioo, sign_ne_zero]
  exact hx

theorem sign_arctan : SignType.sign (Real.arctan x) = SignType.sign x := by
  have h := sign_tan (Real.arctan_mem_Ioo x)
  rw [Real.tan_arctan] at h
  exact h.symm

theorem cot_arctan : Real.cot (Real.arctan x) = x⁻¹ := by
  rw [← Real.tan_inv_eq_cot, Real.tan_arctan]

section Within

variable (h : WithinLinkage x)
include h

variable (packFloat unpackFloat) in
theorem sign_left :
    SignType.sign (rackPositions (realNumber packFloat unpackFloat) x).1 = SignType.sign x := by
  rw [rackPositions_eq, sign_arctan, sign_wheelTan wheelbase_pos h.left_lt, sign_tan h.mem_Ioo]

variable (packFloat unpackFloat) in
theorem sign_right :
    SignType.sign (rackPositions (realNumber packFloat unpackFloat) x).2 = SignType.sign x := by
  rw [rackPositions_eq, sign_arctan, sign_wheelTan wheelbase_pos h.right_lt, sign_tan h.mem_Ioo]

/-- The cotangents are half the track off that of the rack, to either
side. -/
theorem cot_left (hx : x ≠ 0) : Real.cot (rackPositions (realNumber packFloat unpackFloat) x).1 =
    Real.cot x - TRACK / 2.0 / WHEELBASE := by
  rw [rackPositions_eq, cot_arctan, inv_wheelTan wheelbase_pos.ne' (tan_ne_zero h hx),
    Real.tan_inv_eq_cot]

theorem cot_right (hx : x ≠ 0) : Real.cot (rackPositions (realNumber packFloat unpackFloat) x).2 =
    Real.cot x + TRACK / 2.0 / WHEELBASE := by
  rw [rackPositions_eq, cot_arctan, inv_wheelTan wheelbase_pos.ne' (tan_ne_zero h hx),
    Real.tan_inv_eq_cot, neg_div, sub_neg_eq_add]

/-- The left wheel is always the one turned farther to the left. -/
theorem right_lt_left (hx : x ≠ 0) : (rackPositions (realNumber packFloat unpackFloat) x).2 <
    (rackPositions (realNumber packFloat unpackFloat) x).1 := by
  have hhalf : -(TRACK / 2.0) < (TRACK / 2.0 : ℝ) :=
    neg_lt_self (div_pos track_pos (by norm_num))
  rw [rackPositions_eq]
  exact Real.arctan_lt_arctan_iff.2
    (wheelTan_lt_of_lt wheelbase_pos h.left_lt h.right_lt hhalf (tan_ne_zero h hx))

/-- **The wheels roll about one centre.** -/
theorem WithinLinkage.trueLinkage : TrueLinkage (realNumber packFloat unpackFloat) x where
  leftDivisor_pos := sub_pos.2 h.left_lt
  rightDivisor_pos := by
    have hlt := h.right_lt
    rw [neg_mul] at hlt
    exact neg_lt_iff_pos_add.1 hlt
  sign_left := sign_left packFloat unpackFloat h
  sign_right := sign_right packFloat unpackFloat h
  cot_sub hx := by
    have htwo : (2.0 : ℝ) = 2 := by norm_num
    rw [cot_left h hx, cot_right h hx, htwo]
    ring
  cot_average hx := by
    have htwo : (2.0 : ℝ) = 2 := by norm_num
    rw [cot_left h hx, cot_right h hx, htwo]
    ring
  inner_left hx := by
    have hleft := sign_left packFloat unpackFloat h
    have hright := sign_right packFloat unpackFloat h
    rw [sign_pos hx, sign_eq_one_iff] at hleft hright
    rw [abs_of_pos hleft, abs_of_pos hright]
    exact right_lt_left h hx.ne'
  inner_right hx := by
    have hleft := sign_left packFloat unpackFloat h
    have hright := sign_right packFloat unpackFloat h
    rw [sign_neg hx, sign_eq_neg_one_iff] at hleft hright
    rw [abs_of_neg hleft, abs_of_neg hright]
    exact neg_lt_neg (right_lt_left h hx.ne)

end Within

/-- **The farther the rack is turned, the farther are the wheels.** -/
theorem strictMonoOn_left : StrictMonoOn
    (fun x => (rackPositions (realNumber packFloat unpackFloat) x).1) {x | WithinLinkage x} := by
  intro x hx y hy hlt
  simp only [rackPositions_eq]
  exact Real.arctan_lt_arctan_iff.2 (wheelTan_lt_wheelTan wheelbase_pos hx.left_lt hy.left_lt
    (Real.strictMonoOn_tan hx.mem_Ioo hy.mem_Ioo hlt))

theorem strictMonoOn_right : StrictMonoOn
    (fun x => (rackPositions (realNumber packFloat unpackFloat) x).2) {x | WithinLinkage x} := by
  intro x hx y hy hlt
  simp only [rackPositions_eq]
  exact Real.arctan_lt_arctan_iff.2 (wheelTan_lt_wheelTan wheelbase_pos hx.right_lt hy.right_lt
    (Real.strictMonoOn_tan hx.mem_Ioo hy.mem_Ioo hlt))

/-- Within an eighth of a turn a tangent is less than one. -/
theorem abs_tan_lt_one (h : |x| < Real.pi / 4) : |Real.tan x| < 1 := by
  have hpi := Real.pi_pos
  obtain ⟨hlow, hhigh⟩ := abs_lt.1 h
  have hmem : x ∈ Set.Ioo (-(Real.pi / 2)) (Real.pi / 2) := ⟨by linarith, by linarith⟩
  have hlow' := Real.strictMonoOn_tan ⟨by linarith, by linarith⟩ hmem hlow
  have hhigh' := Real.strictMonoOn_tan hmem ⟨by linarith, by linarith⟩ hhigh
  rw [Real.tan_neg, Real.tan_pi_div_four] at hlow'
  rw [Real.tan_pi_div_four] at hhigh'
  exact abs_lt.2 ⟨hlow', hhigh'⟩

/-- **The mechanical travel is within the linkage**: its tangent is less than
one. -/
theorem withinLinkage_of_travel (h : |x| ≤ STEER_MAX_LEFT) : WithinLinkage x := by
  have hpi := Real.pi_gt_three
  have hquarter : |x| < Real.pi / 4 := by
    refine h.trans_lt ?_
    rw [STEER_MAX_LEFT]
    linarith
  obtain ⟨hlow, hhigh⟩ := abs_lt.1 hquarter
  have hbound : (1 : ℝ) < 2.0 * WHEELBASE / TRACK := by norm_num [WHEELBASE, TRACK]
  exact ⟨⟨by linarith, by linarith⟩, (abs_tan_lt_one hquarter).trans hbound⟩

/-- **The geometry of the rack and the wheels** is that of a true linkage
wherever the rack is within it, and so wherever a report without a fault puts
it within its mechanical travel. -/
theorem ackermann_linkage (packFloat : ℝ → Vector UInt8 4) (unpackFloat : Vector UInt8 4 → ℝ) :
    (∀ (w : SteeringWheel ℝ) (x : ℝ),
      (w.setRackPosition (realNumber packFloat unpackFloat) x).positions =
        (Real.arctan (WHEELBASE * Real.tan x / leftDivisor (realNumber packFloat unpackFloat) x),
          Real.arctan
            (WHEELBASE * Real.tan x / rightDivisor (realNumber packFloat unpackFloat) x))) ∧
      (∀ x, WithinLinkage x → TrueLinkage (realNumber packFloat unpackFloat) x) ∧
      StrictMonoOn (fun x => (rackPositions (realNumber packFloat unpackFloat) x).1)
        {x | WithinLinkage x} ∧
      StrictMonoOn (fun x => (rackPositions (realNumber packFloat unpackFloat) x).2)
        {x | WithinLinkage x} ∧
      (∀ (cmd : ℝ) (r : Received), ∀ angle ∈ goodAngle (realNumber packFloat unpackFloat) r,
        |correctedAngle cmd angle| ≤ STEER_MAX_LEFT → WithinLinkage (correctedAngle cmd angle)) ∧
      ∀ (s : System ℝ) (frames : List Received) (period : ℝ), s.canComms.connected = true →
        (∀ r ∈ frames, r.frame.canId = STEERING_FEEDBACK_FRAME_ID → r.frame.WellFormed) →
        ∀ angle ∈ lastAngle (realNumber packFloat unpackFloat) frames,
          (read (realNumber packFloat unpackFloat) s frames period).2.steering.positions =
            rackPositions (realNumber packFloat unpackFloat)
              (correctedAngle s.steering.getAverageSteeringCmd angle) := by
  refine ⟨fun w x => positions_setRackPosition _ w x, fun x h => h.trueLinkage, strictMonoOn_left,
    strictMonoOn_right, fun cmd r angle _ h => withinLinkage_of_travel h,
    fun s frames period hconn hfull angle hangle => ?_⟩
  rw [positions_read _ period hconn hfull, Option.mem_def.1 hangle]
  rfl

end Real

end Ackermann

end VehicleStack
