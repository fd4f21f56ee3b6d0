import Mathlib.Algebra.Order.Group.Unbundled.Abs
import Mathlib.Algebra.Order.Ring.Abs
import Mathlib.Algebra.Order.Ring.Int
import Mathlib.Logic.Function.Iterate
import Mathlib.Tactic.Linarith
import Mathlib.Tactic.Ring

/-!
# A line of integer steps

A pen is to go `a` columns and `b` rows, by steps of one column, one row or
both. It carries a signed error and compares twice its value with each of
the two lengths, and it divides nothing. This file says where it is after
`n` steps (`pen_near`): it goes along the longer axis all the time, never
strays from the straight line by more than half a step of the other, and
arrives after as many steps as the longer axis has. The two axes play the
same part (`pen_swap`).
-/

namespace VehicleStack

namespace IntegerLine

/-- The error, and the columns and rows that have been gone. -/
structure Pen where
  err : ℤ
  i : ℤ
  j : ℤ
  deriving DecidableEq, Repr

/-- The start of a line of `a` columns and `b` rows. -/
def Pen.start (a b : ℤ) : Pen := ⟨a - b, 0, 0⟩

/-- One step. Both tests are on the error before it. -/
def Pen.advance (a b : ℤ) (p : Pen) : Pen where
  err := p.err - (if -b < 2 * p.err then b else 0) + (if 2 * p.err < a then a else 0)
  i := p.i + if -b < 2 * p.err then 1 else 0
  j := p.j + if 2 * p.err < a then 1 else 0

/-- The pen after `n` steps. -/
def pen (a b : ℤ) (n : ℕ) : Pen := (Pen.advance a b)^[n] (.start a b)

/-- The pen of the line with its axes exchanged. -/
def Pen.swap (p : Pen) : Pen := ⟨-p.err, p.j, p.i⟩

variable {a b : ℤ} {p : Pen} {n : ℕ}

@[simp] theorem pen_zero : pen a b 0 = .start a b := rfl

theorem pen_succ : pen a b (n + 1) = (pen a b n).advance a b :=
  Function.iterate_succ_apply' ..

theorem advance_swap : p.swap.advance b a = (p.advance a b).swap := by
  have hcol : -a < 2 * -p.err ↔ 2 * p.err < a := by omega
  have hrow : 2 * -p.err < b ↔ -b < 2 * p.err := by omega
  simp only [Pen.advance, Pen.swap, hcol, hrow, Pen.mk.injEq, and_true]
  split <;> split <;> omega

/-- **The two axes play the same part.** -/
theorem pen_swap : pen b a n = (pen a b n).swap := by
  induction n with
  | zero => simp [Pen.start, Pen.swap]
  | succ n ih => rw [pen_succ, pen_succ, ih, advance_swap]

/-- Where a pen is that has gone along the first axis all the time: its
error is that of its place, and it is no more than half a step off the
line. -/
structure OnLine (a b : ℤ) (n : ℕ) (p : Pen) : Prop where
  balance : p.err = a - b - (p.i * b - p.j * a)
  column : p.i = n
  above : 2 * (p.i * b - p.j * a) ≤ a
  below : -a ≤ 2 * (p.i * b - p.j * a)

theorem onLine_start (ha : 0 ≤ a) : OnLine a b 0 (.start a b) := by
  refine ⟨?_, rfl, ?_, ?_⟩ <;> simp [Pen.start, ha]

/-- On a diagonal the pen is on the line. -/
theorem OnLine.diagonal (h : OnLine a a n p) (ha : 0 < a) : p.i = p.j := by
  have habove := h.above
  have hbelow := h.below
  rw [← sub_mul] at habove hbelow
  have hle : p.i - p.j < 1 := by
    by_contra hge
    have := mul_le_mul_of_nonneg_right (not_lt.1 hge) ha.le
    omega
  have hge : -1 < p.i - p.j := by
    by_contra hle
    have := mul_le_mul_of_nonneg_right (not_lt.1 hle) ha.le
    omega
  omega

/-- **One step along the longer axis**, and one along the other where the
line is more than half a step ahead. -/
theorem OnLine.advance (h : OnLine a b n p) (ha : 0 < a) (hb : 0 ≤ b) (hab : b ≤ a) :
    OnLine a b (n + 1) (p.advance a b) ∧
      ((p.advance a b).j = p.j ∨ (p.advance a b).j = p.j + 1) := by
  -- how far the line is ahead of the pen, in parts of a row
  obtain ⟨d, hd⟩ : ∃ d, p.i * b - p.j * a = d := ⟨_, rfl⟩
  have hdiagonal : b = a → d = 0 := by
    rintro rfl
    rw [← hd, h.diagonal ha, sub_self]
  obtain ⟨hbalance, hcolumn, habove, hbelow⟩ := h
  rw [hd] at hbalance habove hbelow
  have hcol : -b < 2 * p.err := by
    rcases hab.lt_or_eq with hlt | heq
    · omega
    · have := hdiagonal heq
      omega
  by_cases hrow : 2 * p.err < a
  · have hd' : (p.i + 1) * b - (p.j + 1) * a = d + b - a := by
      rw [← hd]
      ring
    simp only [Pen.advance, if_pos hcol, if_pos hrow]
    refine ⟨⟨?_, ?_, ?_, ?_⟩, Or.inr ?_⟩
    · simp only [hd']
      omega
    · simp only
      omega
    · simp only [hd']
      omega
    · simp only [hd']
      omega
    · trivial
  · have hd' : (p.i + 1) * b - (p.j + 0) * a = d + b := by
      rw [← hd]
      ring
    simp only [Pen.advance, if_pos hcol, if_neg hrow]
    refine ⟨⟨?_, ?_, ?_, ?_⟩, Or.inl ?_⟩
    · simp only [hd']
      omega
    · simp only
      omega
    · simp only [hd']
      omega
    · simp only [hd']
      omega
    · exact add_zero _

/-! ## The whole line -/

/-- **Along the longer axis all the time**, and within half a step of the
line. -/
theorem onLine_pen (ha : 0 < a) (hb : 0 ≤ b) (hab : b ≤ a) (n : ℕ) : OnLine a b n (pen a b n) := by
  induction n with
  | zero => exact onLine_start ha.le
  | succ n ih =>
    rw [pen_succ]
    exact (ih.advance ha hb hab).1

/-- The other axis is never gone back. -/
theorem pen_j_nonneg (ha : 0 < a) (hb : 0 ≤ b) (hab : b ≤ a) (n : ℕ) : 0 ≤ (pen a b n).j := by
  induction n with
  | zero => exact le_rfl
  | succ n ih =>
    rw [pen_succ]
    rcases ((onLine_pen ha hb hab n).advance ha hb hab).2 with h | h <;> omega

/-- Nor is it gone too far. -/
theorem pen_j_le (ha : 0 < a) (hb : 0 ≤ b) (hab : b ≤ a) (hn : n ≤ a) : (pen a b n).j ≤ b := by
  obtain ⟨-, hcolumn, -, hbelow⟩ := onLine_pen ha hb hab n
  rw [hcolumn] at hbelow
  by_contra hgt
  have hline : (n : ℤ) * b ≤ a * b := mul_le_mul_of_nonneg_right hn hb
  have hpen : (b + 1) * a ≤ (pen a b n).j * a :=
    mul_le_mul_of_nonneg_right (not_le.1 hgt) ha.le
  have hsplit : (b + 1) * a = a * b + a := by ring
  omega

/-- **It arrives** with the longer axis. -/
theorem pen_arrives (ha : 0 < a) (hb : 0 ≤ b) (hab : b ≤ a) (hn : (n : ℤ) = a) :
    (pen a b n).i = a ∧ (pen a b n).j = b := by
  have honline := onLine_pen ha hb hab n
  refine ⟨honline.column.trans hn, le_antisymm (pen_j_le ha hb hab hn.le) ?_⟩
  have habove := honline.above
  rw [honline.column, hn] at habove
  by_contra hlt
  have hpen : (pen a b n).j * a ≤ (b - 1) * a :=
    mul_le_mul_of_nonneg_right (Int.le_sub_one_of_lt (not_le.1 hlt)) ha.le
  have hsplit : (b - 1) * a = a * b - a := by ring
  omega

/-- What holds of the longer axis and the other holds of both, whichever is
longer. -/
theorem either_axis {P : ℤ → ℤ → Pen → Prop} (hswap : ∀ a b p, P b a p.swap → P a b p)
    (h : ∀ a b, 0 ≤ b → b ≤ a → P a b (pen a b n)) (ha : 0 ≤ a) (hb : 0 ≤ b) :
    P a b (pen a b n) := by
  rcases le_total b a with hab | hab
  · exact h a b hb hab
  · refine hswap a b _ ?_
    rw [← pen_swap]
    exact h b a ha hab

/-- The pen is in the box that the line spans. -/
theorem pen_bounds (ha : 0 ≤ a) (hb : 0 ≤ b) (hn : n ≤ max a b) :
    (0 ≤ (pen a b n).i ∧ (pen a b n).i ≤ a) ∧ 0 ≤ (pen a b n).j ∧ (pen a b n).j ≤ b := by
  refine either_axis (P := fun a b p => n ≤ max a b → (0 ≤ p.i ∧ p.i ≤ a) ∧ 0 ≤ p.j ∧ p.j ≤ b)
    (fun a b p h hn => (h (max_comm a b ▸ hn)).symm) (fun a b hb hab hn => ?_) ha hb hn
  rw [max_eq_left hab] at hn
  rcases (hb.trans hab).lt_or_eq with hpos | hzero
  · have hcolumn := (onLine_pen hpos hb hab n).column
    exact ⟨⟨by omega, by omega⟩, pen_j_nonneg hpos hb hab n, pen_j_le hpos hb hab hn⟩
  · obtain rfl : n = 0 := by omega
    exact ⟨⟨le_rfl, hzero.le⟩, le_rfl, hb⟩

/-- **Where it is.** Its place on the longer axis is the number of its steps,
and on the other it is within half a step of the line. -/
theorem pen_near (ha : 0 ≤ a) (hb : 0 ≤ b) (hn : n ≤ max a b) :
    (pen a b n).i = n ∧ |2 * ((pen a b n).i * b - (pen a b n).j * a)| ≤ a ∧ b ≤ a ∨
      (pen a b n).j = n ∧ |2 * ((pen a b n).j * a - (pen a b n).i * b)| ≤ b ∧ a ≤ b := by
  refine either_axis (P := fun a b p => n ≤ max a b →
    p.i = n ∧ |2 * (p.i * b - p.j * a)| ≤ a ∧ b ≤ a ∨
      p.j = n ∧ |2 * (p.j * a - p.i * b)| ≤ b ∧ a ≤ b)
    (fun a b p h hn => (h (max_comm a b ▸ hn)).symm) (fun a b hb hab hn => ?_) ha hb hn
  left
  rw [max_eq_left hab] at hn
  rcases (hb.trans hab).lt_or_eq with hpos | hzero
  · have honline := onLine_pen hpos hb hab n
    exact ⟨honline.column, abs_le.2 ⟨honline.below, honline.above⟩, hab⟩
  · obtain rfl : n = 0 := by omega
    obtain rfl : a = 0 := hzero.symm
    exact ⟨rfl, by simp [Pen.start], hab⟩

/-- On the longer axis, and on the other where that is as long. -/
theorem pen_near_column (hb : 0 ≤ b) (hab : b ≤ a) (hn : n ≤ a) :
    |2 * ((pen a b n).i * b - (pen a b n).j * a)| ≤ a := by
  rcases pen_near (hb.trans hab) hb (hn.trans (le_max_left a b)) with ⟨-, h, -⟩ | ⟨-, h, hba⟩
  · exact h
  · rw [← neg_sub, mul_neg, abs_neg]
    exact h.trans hab

theorem pen_near_row (ha : 0 ≤ a) (hab : a ≤ b) (hn : n ≤ b) :
    |2 * ((pen a b n).j * a - (pen a b n).i * b)| ≤ b := by
  have hnear := pen_near_column ha hab hn
  rwa [pen_swap] at hnear

/-- **When it has arrived.** -/
theorem pen_end_iff (ha : 0 ≤ a) (hb : 0 ≤ b) (hn : n ≤ max a b) :
    (pen a b n).i = a ∧ (pen a b n).j = b ↔ (n : ℤ) = max a b := by
  refine either_axis (P := fun a b p => n ≤ max a b → (p.i = a ∧ p.j = b ↔ (n : ℤ) = max a b))
    (fun a b p h hn => ?_) (fun a b hb hab hn => ?_) ha hb hn
  · rw [and_comm, max_comm]
    exact h (max_comm a b ▸ hn)
  · rw [max_eq_left hab] at hn ⊢
    rcases (hb.trans hab).lt_or_eq with hpos | hzero
    · exact ⟨fun h => (onLine_pen hpos hb hab n).column.symm.trans h.1, pen_arrives hpos hb hab⟩
    · obtain rfl : n = 0 := by omega
      obtain rfl : a = 0 := hzero.symm
      obtain rfl : b = 0 := le_antisymm hab hb
      simp [Pen.start]

/-- Its steps are counted on the longer axis. -/
theorem pen_column (hb : 0 ≤ b) (hab : b ≤ a) (hn : n ≤ a) : (pen a b n).i = n := by
  rcases (hb.trans hab).lt_or_eq with hpos | hzero
  · exact (onLine_pen hpos hb hab n).column
  · obtain rfl : n = 0 := by omega
    rfl

theorem pen_row (ha : 0 ≤ a) (hab : a ≤ b) (hn : n ≤ b) : (pen a b n).j = n := by
  have hcolumn := pen_column ha hab hn
  rwa [pen_swap] at hcolumn

theorem pen_step_column (hb : 0 ≤ b) (hab : b ≤ a) (hn : n < a) :
    max |(pen a b (n + 1)).i - (pen a b n).i| |(pen a b (n + 1)).j - (pen a b n).j| = 1 := by
  have hpos : 0 < a := by omega
  have hi : (pen a b (n + 1)).i - (pen a b n).i = 1 := by
    rw [pen_column hb hab (by omega), pen_column hb hab (by omega)]
    push_cast
    omega
  have hj := ((onLine_pen hpos hb hab n).advance hpos hb hab).2
  rw [← pen_succ] at hj
  rw [hi, abs_one]
  refine max_eq_left (abs_le.2 ⟨?_, ?_⟩)
  · omega
  · omega

/-- **One step goes one further**, along one axis or both. -/
theorem pen_step (ha : 0 ≤ a) (hb : 0 ≤ b) (hn : n < max a b) :
    max |(pen a b (n + 1)).i - (pen a b n).i| |(pen a b (n + 1)).j - (pen a b n).j| = 1 := by
  rcases le_total b a with hab | hab
  · exact pen_step_column hb hab (max_eq_left hab ▸ hn)
  · have hstep := pen_step_column ha hab (max_eq_right hab ▸ hn)
    have hswap : ∀ k, pen b a k = (pen a b k).swap := fun _ => pen_swap
    rw [hswap, hswap, max_comm] at hstep
    exact hstep

/-- It is never where it has been. -/
theorem pen_injective {m : ℕ} (ha : 0 ≤ a) (hb : 0 ≤ b) (hm : m ≤ max a b) (hn : n ≤ max a b)
    (hi : (pen a b m).i = (pen a b n).i) (hj : (pen a b m).j = (pen a b n).j) : m = n := by
  rcases le_total b a with hab | hab
  · rw [max_eq_left hab] at hm hn
    rw [pen_column hb hab hm, pen_column hb hab hn] at hi
    exact_mod_cast hi
  · rw [max_eq_right hab] at hm hn
    rw [pen_row ha hab hm, pen_row ha hab hn] at hj
    exact_mod_cast hj

end IntegerLine

end VehicleStack
