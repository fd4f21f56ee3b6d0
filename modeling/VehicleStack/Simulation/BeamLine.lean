import Mathlib.Data.List.Range
import Mathlib.Order.Interval.Set.UnorderedInterval
import VehicleStack.Simulation.Beams

/-!
# The map cleaner — the line of cells itself

The loop along a beam knows the cells of its ends only. `integer_line` says
what it does with them: how many turns it takes, where it ends, and where
the cells lie that it is at on the way.
-/

namespace VehicleStack

namespace Simulation

open IntegerLine

/-- The cell that the loop is at. -/
def Walk.cell (w : Walk) : ℤ × ℤ := (w.c, w.r)

/-- The loop from one cell to another, as a beam sets it up. -/
def traced (s e : ℤ × ℤ) : List Walk × Walk :=
  lineWalk e.1 e.2 |e.1 - s.1| |e.2 - s.2| (if e.1 > s.1 then 1 else -1)
    (if e.2 > s.2 then 1 else -1) 600 ⟨|e.1 - s.1| - |e.2 - s.2|, s.1, s.2⟩

/-- The cells it is at, one for each turn. -/
def visited (s e : ℤ × ℤ) : List (ℤ × ℤ) := (traced s e).1.map Walk.cell

/-- The cell it ends at. -/
def stop (s e : ℤ × ℤ) : ℤ × ℤ := (traced s e).2.cell

/-- Side by side or corner to corner. -/
def EightAdjacent (p q : ℤ × ℤ) : Prop := max |q.1 - p.1| |q.2 - p.2| = 1

def centre (p : ℤ × ℤ) : ℚ × ℚ := (p.1 + 0.5, p.2 + 0.5)

/-- How high the line through two points is at `x`. -/
def heightAt (p q : ℚ × ℚ) (x : ℚ) : ℚ := p.2 + (q.2 - p.2) * (x - p.1) / (q.1 - p.1)

/-- The centre of the cell is within half a cell of the line between the
centres of the ends, along the minor axis; on a diagonal, along both. -/
def NearLine (s e p : ℤ × ℤ) : Prop :=
  (|e.2 - s.2| ≤ |e.1 - s.1| →
    |(centre p).2 - heightAt (centre s) (centre e) (centre p).1| ≤ 0.5) ∧
  (|e.1 - s.1| ≤ |e.2 - s.2| →
    |(centre p).1 - heightAt (centre s).swap (centre e).swap (centre p).2| ≤ 0.5)

/-- A line of cells from `s` on that stops short of `e`, or of its turns. -/
structure StraightLine (s e : ℤ × ℤ) (cells : List (ℤ × ℤ)) (last : ℤ × ℤ) : Prop where
  turns : (cells.length : ℤ) = min 600 (max |e.1 - s.1| |e.2 - s.2|)
  arrives : max |e.1 - s.1| |e.2 - s.2| ≤ 600 → last = e
  distinct : cells.Nodup
  adjacent : cells.IsChain EightAdjacent
  inBox : ∀ p ∈ cells, p.1 ∈ Set.uIcc s.1 e.1 ∧ p.2 ∈ Set.uIcc s.2 e.2
  before : e ∉ cells
  near : ∀ p ∈ cells, NearLine s e p

section Line

variable {m n a b i j k sc sr : ℤ}

/-- A place on an axis is between the ends. -/
theorem mem_uIcc_of_direction (hsc : sc = 1 ∨ sc = -1) (h0 : 0 ≤ i) (h : i ≤ a) :
    m + sc * i ∈ Set.uIcc m (m + sc * a) := by
  rw [Set.mem_uIcc]
  rcases hsc with rfl | rfl
  · left
    omega
  · right
    omega

/-- **Half a cell** from the line between the centres, for a place that is no
more than half a step off. -/
theorem abs_offset_le (hsc : sc = 1 ∨ sc = -1) (hsr : sr = 1 ∨ sr = -1) (ha : 0 < a)
    (h : |2 * (i * b - j * a)| ≤ a) :
    |(centre (m + sc * i, n + sr * j)).2 - heightAt (centre (m, n))
      (centre (m + sc * a, n + sr * b)) (centre (m + sc * i, n + sr * j)).1| ≤ 0.5 := by
  have ha' : (0 : ℚ) < a := Int.cast_pos.2 ha
  have hcast : |2 * ((i : ℚ) * b - j * a)| ≤ a := by exact_mod_cast h
  have hoff : (centre (m + sc * i, n + sr * j)).2 - heightAt (centre (m, n))
      (centre (m + sc * a, n + sr * b)) (centre (m + sc * i, n + sr * j)).1 =
        -(sr * (i * b - j * a)) / a := by
    have hsc' : (sc : ℚ) ≠ 0 := by rcases hsc with rfl | rfl <;> norm_num
    simp only [centre, heightAt]
    push_cast
    field_simp
    ring
  have hone : |(sr : ℚ)| = 1 := by rcases hsr with rfl | rfl <;> simp
  rw [hoff, abs_div, abs_neg, abs_mul, hone, one_mul, abs_of_pos ha', div_le_iff₀ ha']
  rw [abs_mul, abs_two] at hcast
  linarith

/-- The length of an axis, whichever way it goes. -/
theorem abs_direction_mul (hsc : sc = 1 ∨ sc = -1) : |sc * i| = |i| := by
  rw [abs_mul]
  rcases hsc with rfl | rfl <;> simp

/-- A cell of the line is a place of the pen. -/
theorem exists_pen {p : ℤ × ℤ} (hp : p ∈ (lineCells m n a b sc sr).map Walk.cell) :
    ∃ k : ℕ, (k : ℤ) < max a b ∧ p = (m + sc * (pen a b k).i, n + sr * (pen a b k).j) := by
  obtain ⟨w, hw, rfl⟩ := List.mem_map.1 hp
  obtain ⟨k, hk, rfl⟩ := mem_lineCells hw
  exact ⟨k, hk, rfl⟩

/-- One cell after the other. -/
theorem isChain_lineCells (hsc : sc = 1 ∨ sc = -1) (hsr : sr = 1 ∨ sr = -1) (ha : 0 ≤ a)
    (hb : 0 ≤ b) : ((lineCells m n a b sc sr).map Walk.cell).IsChain EightAdjacent := by
  rw [lineCells, List.map_map, List.isChain_map, List.isChain_range]
  intro k hk
  have hstep := pen_step ha hb (n := k) (by omega)
  rw [← abs_direction_mul hsc, ← abs_direction_mul (i := _ - _) hsr] at hstep
  show max |_| |_| = 1
  simp only [Function.comp, Walk.cell, penWalk, add_sub_add_left_eq_sub, ← mul_sub]
  exact hstep

/-- **The line of cells is straight**, whichever way it goes. -/
theorem straightLine_lineCells (hsc : sc = 1 ∨ sc = -1) (hsr : sr = 1 ∨ sr = -1) (ha : 0 ≤ a)
    (hb : 0 ≤ b) : StraightLine (m, n) (m + sc * a, n + sr * b)
      ((lineCells m n a b sc sr).map Walk.cell)
      (penWalk m n sc sr (pen a b (min 600 (max a b).toNat))).cell := by
  have hsc0 : sc ≠ 0 := by rcases hsc with rfl | rfl <;> decide
  have hsr0 : sr ≠ 0 := by rcases hsr with rfl | rfl <;> decide
  have hcolumns : |m + sc * a - m| = a := by
    rw [add_sub_cancel_left, abs_direction_mul hsc, abs_of_nonneg ha]
  have hrows : |n + sr * b - n| = b := by
    rw [add_sub_cancel_left, abs_direction_mul hsr, abs_of_nonneg hb]
  constructor
  case turns =>
    simp only [hcolumns, hrows, List.length_map, lineCells, List.length_range]
    omega
  case arrives =>
    intro hshort
    simp only [hcolumns, hrows] at hshort
    have hlast : min 600 (max a b).toNat = (max a b).toNat := by omega
    have hend : (((max a b).toNat : ℕ) : ℤ) = max a b := by omega
    obtain ⟨hi, hj⟩ := (pen_end_iff ha hb hend.le).2 hend
    rw [hlast, Walk.cell, penWalk, hi, hj]
  case distinct =>
    refine List.pairwise_map.2 ((pairwise_lineCells ha hb hsc0 hsr0).imp ?_)
    intro w w' hne heq
    exact hne (Prod.mk.inj heq)
  case adjacent => exact isChain_lineCells hsc hsr ha hb
  case inBox =>
    intro p hp
    obtain ⟨k, hk, rfl⟩ := exists_pen hp
    obtain ⟨⟨hi0, hi⟩, hj0, hj⟩ := pen_bounds ha hb hk.le
    exact ⟨mem_uIcc_of_direction hsc hi0 hi, mem_uIcc_of_direction hsr hj0 hj⟩
  case before =>
    intro hp
    obtain ⟨k, hk, heq⟩ := exists_pen hp
    have hend := (penWalk_end_iff ha hb hsc0 hsr0 hk.le rfl rfl).1 heq.symm
    omega
  case near =>
    intro p hp
    obtain ⟨k, hk, rfl⟩ := exists_pen hp
    constructor
    · intro hba
      simp only [hcolumns, hrows] at hba
      rw [max_eq_left hba] at hk
      exact abs_offset_le hsc hsr (by omega) (pen_near_column hb hba hk.le)
    · intro hab
      simp only [hcolumns, hrows] at hab
      rw [max_eq_right hab] at hk
      exact abs_offset_le hsr hsc (by omega) (pen_near_row ha hab hk.le)

/-- **The integer line of a beam.** The loop counts the cells it visits, and
these are a straight line from the cell of the sensor to that of the
return. -/
theorem integer_line (s e : ℤ × ℤ) :
    (∀ {K : Type} (mp : OccupancyGrid K) (seen : Counter),
      mp.walk e.1 e.2 |e.1 - s.1| |e.2 - s.2| (if e.1 > s.1 then 1 else -1)
        (if e.2 > s.2 then 1 else -1) 600 ⟨|e.1 - s.1| - |e.2 - s.2|, s.1, s.2⟩ seen =
          (visited s e).foldl (fun seen p => mp.count seen p.1 p.2) seen) ∧
      StraightLine s e (visited s e) (stop s e) := by
  obtain ⟨hsc, hcolumn⟩ := direction s.1 e.1
  obtain ⟨hsr, hrow⟩ := direction s.2 e.2
  have htraced := lineWalk_line (abs_nonneg _) (abs_nonneg _) (direction_ne_zero s.1 e.1)
    (direction_ne_zero s.2 e.2) hcolumn hrow
  constructor
  · intro K mp seen
    rw [walk_eq_foldl, visited, List.foldl_map]
    rfl
  · have hline := straightLine_lineCells (m := s.1) (n := s.2) hsc hsr (abs_nonneg (e.1 - s.1))
      (abs_nonneg (e.2 - s.2))
    rw [← hcolumn, ← hrow] at hline
    rw [visited, stop, traced, htraced]
    exact hline

end Line

end Simulation

end VehicleStack
