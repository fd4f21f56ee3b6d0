import Mathlib.Tactic.Linarith
import Mathlib.Algebra.Order.Ring.Int
import Mathlib.Data.Int.ModEq

/-!
# Truncated counters

A sender counts up and transmits only the residue of its counter modulo
`m`. The receiver holds a floor, the last value it accepted, and takes the
least value above the floor with that residue. This is the arithmetic of
the reconstruction, for any `m`: the value it yields lies in the window
`(floor, floor + m]`, has the residue that was sent, and is the only such
value; so every counter value within one modulus above the floor is
recovered from its residue.
-/

namespace VehicleStack

namespace Truncated

variable {m floor low x : ℤ}

/-- The least value above `floor` with residue `low` modulo `m`. -/
def reconstruct (m floor low : ℤ) : ℤ :=
  let cand := floor / m * m + low
  if cand ≤ floor then cand + m else cand

/-- The reconstruction is above the floor, by one modulus at most. -/
theorem reconstruct_window (hm : 0 < m) (h0 : 0 ≤ low) (h1 : low < m) :
    floor < reconstruct m floor low ∧ reconstruct m floor low ≤ floor + m := by
  have hdiv : m * (floor / m) + floor % m = floor := Int.mul_ediv_add_emod floor m
  have hlo : 0 ≤ floor % m := Int.emod_nonneg _ (by omega)
  have hhi : floor % m < m := Int.emod_lt_of_pos _ hm
  have hcomm : floor / m * m = m * (floor / m) := mul_comm _ _
  simp only [reconstruct]
  split <;> constructor <;> omega

/-- It has the residue that was sent. -/
theorem reconstruct_emod (h0 : 0 ≤ low) (h1 : low < m) : reconstruct m floor low % m = low := by
  have hlow : low % m = low := Int.emod_eq_of_lt h0 h1
  simp only [reconstruct]
  split
  · rw [Int.add_emod_right, mul_comm, Int.mul_add_emod_self_left, hlow]
  · rw [mul_comm, Int.mul_add_emod_self_left, hlow]

/-- **A window of one modulus holds each residue once.** -/
theorem eq_of_window {a b : ℤ} (ha : floor < a) (ha' : a ≤ floor + m) (hb : floor < b)
    (hb' : b ≤ floor + m) (hab : a % m = b % m) : a = b := by
  obtain ⟨c, hc⟩ := Int.ModEq.dvd (show a ≡ b [ZMOD m] from hab)
  have hm : 0 < m := by omega
  have hlt : c < 1 := by
    by_contra hcon
    have : m * 1 ≤ m * c := mul_le_mul_of_nonneg_left (by omega) hm.le
    omega
  have hgt : -1 < c := by
    by_contra hcon
    have : m * c ≤ m * (-1) := mul_le_mul_of_nonneg_left (by omega) hm.le
    omega
  have hc0 : c = 0 := by omega
  rw [hc0, mul_zero] at hc
  omega

/-- **A value within one modulus above the floor is recovered from its
residue.** -/
theorem reconstruct_eq (hx : floor < x) (hx' : x ≤ floor + m) :
    reconstruct m floor (x % m) = x := by
  have hm : 0 < m := by omega
  have h0 : 0 ≤ x % m := Int.emod_nonneg _ (by omega)
  have h1 : x % m < m := Int.emod_lt_of_pos _ hm
  have hwin : floor < reconstruct m floor (x % m) ∧ reconstruct m floor (x % m) ≤ floor + m :=
    reconstruct_window hm h0 h1
  exact eq_of_window hwin.1 hwin.2 hx hx' (by rw [reconstruct_emod h0 h1])

end Truncated

end VehicleStack
