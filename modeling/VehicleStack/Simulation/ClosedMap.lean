import Mathlib.Logic.Relation
import Mathlib.Tactic.Linarith
import VehicleStack.Simulation.Arena

/-!
# The arena — its walls on the map

Whatever stands in the arena, its four walls close it on the map too: from a
free cell, over cells that are not occupied, a way leads to free cells only,
even in steps of three cells (`closed_map`). What is unknown is therefore
never next to what is free. The samples are exact here; in doubles, as the
source takes them, a few on the outer faces fall the other way.
-/

namespace VehicleStack

namespace Simulation

variable {K : Type} [Field K] [LinearOrder K] {corridor : Bool} {obstacles : List (Obstacle K)}
  {p q : ℕ × ℕ}

/-- As many cells as a wall is thick. -/
def stride : ℕ := 3

/-- A step to a cell of the map that is not occupied. -/
def Moves (corridor : Bool) (obstacles : List (Obstacle K)) (p q : ℕ × ℕ) : Prop :=
  (q.1 < HEIGHT corridor ∧ q.2 < WIDTH corridor) ∧
    pixelValue corridor obstacles q.1 q.2 ≠ OCC ∧
    (q.1 ≤ p.1 + stride ∧ p.1 ≤ q.1 + stride) ∧ q.2 ≤ p.2 + stride ∧ p.2 ≤ q.2 + stride

/-- The centre of a cell is between the inner faces of the walls. -/
def Indoors (corridor : Bool) (p : ℕ × ℕ) : Prop :=
  |(centreX corridor p.2 : K)| < HALF_X corridor ∧ |(centreY corridor p.1 : K)| < HALF_Y corridor

/-- It is between the outer faces. -/
def Within (corridor : Bool) (p : ℕ × ℕ) : Prop :=
  |(centreX corridor p.2 : K)| < HALF_X corridor + WALL_T ∧
    |(centreY corridor p.1 : K)| < HALF_Y corridor + WALL_T

/-- What a cell is that is not occupied. -/
theorem free_iff_within (hocc : pixelValue corridor obstacles p.1 p.2 ≠ OCC) :
    pixelValue corridor obstacles p.1 p.2 = FREE ↔ Within (K := K) corridor p := by
  unfold pixelValue at hocc ⊢
  dsimp only at hocc ⊢
  unfold Within
  split at hocc
  · exact absurd rfl hocc
  · rename_i hhit
    rw [if_neg hhit]
    split
    · rename_i hwithin
      exact iff_of_true rfl hwithin
    · rename_i hwithin
      exact iff_of_false (by decide) hwithin

section Walls

variable [IsStrictOrderedRing K] {z a : K}

/-- A point of the pixel that is no further out than its centre. -/
theorem exists_off_inward (ha : RES ≤ a) (hz : |z| < a) : ∃ d ∈ (off : List K), |z + d| ≤ a := by
  have hres : (0 : K) < RES := by norm_num [RES]
  have hsixth : (RES : K) / 6.0 ≤ RES := by norm_num [RES]
  have hpos : (0 : K) < RES / 6.0 := by norm_num [RES]
  rw [abs_lt] at hz
  rw [off_eq]
  by_cases h : 0 ≤ z
  · refine ⟨-(RES / 6.0), by simp, abs_le.2 ⟨?_, ?_⟩⟩
    · linarith
    · linarith
  · refine ⟨RES / 6.0, by simp, abs_le.2 ⟨?_, ?_⟩⟩
    · linarith
    · linarith

/-- A point of the pixel that is in the wall its centre is in. -/
theorem exists_off_wall (hlow : a - WALL_T / 2.0 ≤ z) (hhigh : z ≤ a + WALL_T / 2.0) :
    ∃ d ∈ (off : List K), |z + d - a| ≤ WALL_T / 2.0 := by
  have hpos : (0 : K) < RES / 6.0 := by norm_num [RES]
  have hthick : (RES : K) / 6.0 ≤ WALL_T / 2.0 := by norm_num [RES, WALL_T]
  rw [off_eq]
  by_cases h : a ≤ z
  · refine ⟨-(RES / 6.0), by simp, abs_le.2 ⟨?_, ?_⟩⟩
    · linarith
    · linarith
  · refine ⟨RES / 6.0, by simp, abs_le.2 ⟨?_, ?_⟩⟩
    · linarith
    · linarith

/-- What is between the outer faces and not indoors is in a wall. -/
theorem wall_cases {h : K} (hin : |z| < h + WALL_T) (hout : ¬ |z| < h) :
    (h + WALL_T / 2.0 - WALL_T / 2.0 ≤ z ∧ z ≤ h + WALL_T / 2.0 + WALL_T / 2.0) ∨
      (-(h + WALL_T / 2.0) - WALL_T / 2.0 ≤ z ∧ z ≤ -(h + WALL_T / 2.0) + WALL_T / 2.0) := by
  have hhalves : (WALL_T : K) / 2.0 + WALL_T / 2.0 = WALL_T := by norm_num [WALL_T]
  rw [abs_lt] at hin
  rw [not_lt, le_abs] at hout
  rcases hout with hout | hout
  · left
    constructor <;> linarith
  · right
    constructor <;> linarith

theorem half_le : RES ≤ (HALF_X corridor : K) + WALL_T ∧ RES ≤ (HALF_Y corridor : K) + WALL_T := by
  rcases corridor <;> norm_num [RES, HALF_X, HALF_Y, WALL_T]

/-- **A free cell is indoors.** -/
theorem indoors_of_free (hperimeter : perimeter corridor ⊆ obstacles)
    (hfree : pixelValue corridor obstacles p.1 p.2 = FREE) : Indoors (K := K) corridor p := by
  have hocc : pixelValue corridor obstacles p.1 p.2 ≠ OCC := by
    rw [hfree]
    decide
  obtain ⟨hx, hy⟩ := (free_iff_within hocc).1 hfree
  have hmiss : ∀ o ∈ (perimeter corridor : List (Obstacle K)), ∀ dx ∈ off, ∀ dy ∈ off,
      ¬ inside o (centreX corridor p.2 + dx) (centreY corridor p.1 + dy) := by
    intro o ho dx hdx dy hdy hin
    exact hocc (pixelValue_eq_occ_iff.2 ⟨dx, hdx, dy, hdy, o, hperimeter ho, hin⟩)
  have hsideX : (2.0 * HALF_X corridor + 2.0 * WALL_T : K) / 2.0 = HALF_X corridor + WALL_T := by
    norm_num
    ring
  have hsideY : (2.0 * HALF_Y corridor + 2.0 * WALL_T : K) / 2.0 = HALF_Y corridor + WALL_T := by
    norm_num
    ring
  unfold Indoors
  constructor
  · by_contra hout
    obtain ⟨dy, hdy, hrow⟩ := exists_off_inward half_le.2 hy
    rcases wall_cases hx hout with ⟨hlow, hhigh⟩ | ⟨hlow, hhigh⟩
    · obtain ⟨dx, hdx, hcol⟩ := exists_off_wall hlow hhigh
      refine hmiss (.box (HALF_X corridor + WALL_T / 2.0) 0 WALL_T
        (2.0 * HALF_Y corridor + 2.0 * WALL_T)) (by simp [perimeter]) dx hdx dy hdy ⟨hcol, ?_⟩
      rw [sub_zero, hsideY]
      exact hrow
    · obtain ⟨dx, hdx, hcol⟩ := exists_off_wall hlow hhigh
      refine hmiss (.box (-(HALF_X corridor + WALL_T / 2.0)) 0 WALL_T
        (2.0 * HALF_Y corridor + 2.0 * WALL_T)) (by simp [perimeter]) dx hdx dy hdy ⟨hcol, ?_⟩
      rw [sub_zero, hsideY]
      exact hrow
  · by_contra hout
    obtain ⟨dx, hdx, hcol⟩ := exists_off_inward half_le.1 hx
    rcases wall_cases hy hout with ⟨hlow, hhigh⟩ | ⟨hlow, hhigh⟩
    · obtain ⟨dy, hdy, hrow⟩ := exists_off_wall hlow hhigh
      refine hmiss (.box 0 (HALF_Y corridor + WALL_T / 2.0) (2.0 * HALF_X corridor + 2.0 * WALL_T)
        WALL_T) (by simp [perimeter]) dx hdx dy hdy ⟨?_, hrow⟩
      rw [sub_zero, hsideX]
      exact hcol
    · obtain ⟨dy, hdy, hrow⟩ := exists_off_wall hlow hhigh
      refine hmiss (.box 0 (-(HALF_Y corridor + WALL_T / 2.0))
        (2.0 * HALF_X corridor + 2.0 * WALL_T) WALL_T) (by simp [perimeter]) dx hdx dy hdy
        ⟨?_, hrow⟩
      rw [sub_zero, hsideX]
      exact hcol

/-- Cells three apart are no further apart than a wall is thick. -/
theorem stride_le {m n : ℕ} (h : n ≤ m + stride) :
    ((n : K) + 0.5) * RES ≤ ((m : K) + 0.5) * RES + WALL_T := by
  have hcast : (n : K) ≤ m + 3 := by exact_mod_cast h
  have hthick : (WALL_T : K) = 3 * RES := by norm_num [WALL_T, RES]
  have hres : (0 : K) ≤ RES := by norm_num [RES]
  have hscaled := mul_le_mul_of_nonneg_right (add_le_add_left hcast (0.5 : K)) hres
  rw [hthick]
  calc ((n : K) + 0.5) * RES ≤ (m + 3 + 0.5) * RES := hscaled
    _ = (m + 0.5) * RES + 3 * RES := by ring

/-- **A step from indoors does not lead out of the walls.** -/
theorem within_of_moves (hin : Indoors (K := K) corridor p) (hmove : Moves corridor obstacles p q) :
    Within (K := K) corridor q := by
  obtain ⟨-, -, ⟨hrow, hrow'⟩, hcol, hcol'⟩ := hmove
  obtain ⟨hx, hy⟩ := hin
  have hup : HEIGHT corridor - 1 - q.1 ≤ HEIGHT corridor - 1 - p.1 + stride := by omega
  have hdown : HEIGHT corridor - 1 - p.1 ≤ HEIGHT corridor - 1 - q.1 + stride := by omega
  have hright := stride_le (K := K) hcol
  have hleft := stride_le (K := K) hcol'
  have hup' := stride_le (K := K) hup
  have hdown' := stride_le (K := K) hdown
  unfold centreX at hx
  unfold centreY at hy
  rw [abs_lt] at hx hy
  unfold Within centreX centreY
  rw [abs_lt, abs_lt]
  refine ⟨⟨?_, ?_⟩, ?_, ?_⟩ <;> linarith

/-- **The map is closed**, its samples taken exactly. A way from a free cell
over cells that are not occupied leads to free cells indoors. -/
theorem closed_map (corridor : Bool) (obstacles : List (Obstacle K))
    (hperimeter : perimeter corridor ⊆ obstacles) (p q : ℕ × ℕ)
    (hfree : pixelValue corridor obstacles p.1 p.2 = FREE)
    (hway : Relation.ReflTransGen (Moves corridor obstacles) p q) :
    pixelValue corridor obstacles q.1 q.2 = FREE ∧
      |(centreX corridor q.2 : K)| < HALF_X corridor ∧
      |(centreY corridor q.1 : K)| < HALF_Y corridor := by
  have hfree' : pixelValue corridor obstacles q.1 q.2 = FREE := by
    induction hway with
    | refl => exact hfree
    | tail hway hmove ih =>
      have hwithin := within_of_moves (indoors_of_free hperimeter ih) hmove
      exact (free_iff_within hmove.2.1).2 hwithin
  exact ⟨hfree', indoors_of_free hperimeter hfree'⟩

end Walls

/-- Along the corridor. -/
theorem closed_map_corridor :
    pixelValue true (OBSTACLES true : List (Obstacle ℚ)) 42 203 = FREE ∧
      |(centreX true 203 : ℚ)| < HALF_X true ∧ |(centreY true 42 : ℚ)| < HALF_Y true :=
  closed_map true (OBSTACLES true : List (Obstacle ℚ)) (List.Subset.refl _) (42, 200) (42, 203)
    (by decide +kernel) (.single ⟨by decide +kernel, by decide +kernel, by decide, by decide⟩)

end Simulation

end VehicleStack
