import Mathlib.Algebra.Order.Field.Basic
import Mathlib.Data.Sign.Basic
import Mathlib.Tactic.FieldSimp
import Mathlib.Tactic.Linarith

/-!
# A steering linkage

Two wheels on one axle, at either side of its middle, that roll about one
centre of turning: where the middle is to be turned by an angle with tangent
`t`, a wheel that is `k` nearer to the centre is turned by one with tangent
`wheelTan l k t`, `l` behind it the axle that is not steered. The reciprocals
differ by the same amount for every `t` (`inv_wheelTan`), and from that come
the order and the signs.
-/

namespace VehicleStack

namespace Linkage

variable {K : Type*} [Field K] {l k t u : K}

/-- The tangent for the wheel that is `k` nearer to the centre. -/
def wheelTan (l k t : K) : K := l * t / (l - k * t)

/-- **The reciprocals differ by the same amount.** -/
theorem inv_wheelTan (hl : l ≠ 0) (ht : t ≠ 0) : (wheelTan l k t)⁻¹ = t⁻¹ - k / l := by
  rw [wheelTan, inv_div, sub_div, mul_div_mul_right _ _ ht, ← div_div, div_self hl, one_div]

variable [LinearOrder K] [IsStrictOrderedRing K]

/-- **The farther the middle is turned, the farther is the wheel.** -/
theorem wheelTan_lt_wheelTan (hl : 0 < l) (ht : k * t < l) (hu : k * u < l) (h : t < u) :
    wheelTan l k t < wheelTan l k u := by
  rw [wheelTan, wheelTan, div_lt_div_iff₀ (sub_pos.2 ht) (sub_pos.2 hu)]
  have hsq : l * l * t < l * l * u := mul_lt_mul_of_pos_left h (mul_pos hl hl)
  linarith

/-- It turns the way the middle does. -/
theorem sign_wheelTan (hl : 0 < l) (hk : k * t < l) :
    SignType.sign (wheelTan l k t) = SignType.sign t := by
  have hzero : wheelTan l k 0 = 0 := by rw [wheelTan, mul_zero, zero_div]
  have hk0 : k * 0 < l := by rwa [mul_zero]
  rcases lt_trichotomy t 0 with h | rfl | h
  · have hlt := wheelTan_lt_wheelTan hl hk hk0 h
    rw [hzero] at hlt
    rw [sign_neg hlt, sign_neg h]
  · rw [hzero]
  · have hlt := wheelTan_lt_wheelTan hl hk0 hk h
    rw [hzero] at hlt
    rw [sign_pos hlt, sign_pos h]

/-- The tangent is the greater the nearer the wheel is to the centre, to
either side. -/
theorem wheelTan_lt_of_lt {k' : K} (hl : 0 < l) (hk : k * t < l) (hk' : k' * t < l) (h : k' < k)
    (ht : t ≠ 0) : wheelTan l k' t < wheelTan l k t := by
  rw [wheelTan, wheelTan, div_lt_div_iff₀ (sub_pos.2 hk') (sub_pos.2 hk)]
  have hsq : 0 < t * t := mul_self_pos.2 ht
  have hlt : l * (t * t) * k' < l * (t * t) * k := mul_lt_mul_of_pos_left h (mul_pos hl hsq)
  linarith

end Linkage

end VehicleStack
