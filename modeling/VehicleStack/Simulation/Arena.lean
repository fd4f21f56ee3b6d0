import Mathlib.Algebra.Order.Field.Basic
import Mathlib.Algebra.Order.Round
import Mathlib.Data.Rat.Floor
import Mathlib.Tactic.FieldSimp
import Mathlib.Tactic.NormNum

/-!
# The arena — `make_arena`

The map of the simulated world is computed from its obstacles. A pixel is
occupied where an obstacle contains one of nine points of it; these are a
third of a pixel apart, but the last of each row is on the pixel's right
edge and the last of each column on its upper one. What the two edges of a
pixel decide alone is therefore drawn on one side only, and `unbiased_iff`
says of which obstacles the map is true to both.
-/

namespace VehicleStack

namespace Simulation

/-- `OBSTACLES`: a box by its centre and its sides, a cylinder by its centre
and its radius. -/
inductive Obstacle (K : Type)
  | box (cx cy sx sy : K)
  | cyl (cx cy r : K)
  deriving DecidableEq, Repr

def FREE : ℕ := 254

def OCC : ℕ := 0

def UNKNOWN : ℕ := 205

def SUBSAMPLE : ℕ := 3

section Raster

variable {K : Type} [Field K]

/-- Half the open arena's free space, or the corridor's. -/
def HALF_X (corridor : Bool) : K := if corridor then 9.0 else 8.0

def HALF_Y (corridor : Bool) : K := if corridor then 1.1 else 6.0

def WALL_T : K := 0.15

def RES : K := 0.05

def ORIGIN_X (corridor : Bool) : K := -(HALF_X corridor + 1)

def ORIGIN_Y (corridor : Bool) : K := -(HALF_Y corridor + 1)

def WIDTH (corridor : Bool) : ℕ := (round (2 * (HALF_X corridor + 1) / RES : ℚ)).toNat

def HEIGHT (corridor : Bool) : ℕ := (round (2 * (HALF_Y corridor + 1) / RES : ℚ)).toNat

/-- The perimeter: inner faces on `HALF_X` and `HALF_Y`. -/
def perimeter (corridor : Bool) : List (Obstacle K) :=
  [.box 0 (HALF_Y corridor + WALL_T / 2.0) (2.0 * HALF_X corridor + 2.0 * WALL_T) WALL_T,
    .box 0 (-(HALF_Y corridor + WALL_T / 2.0)) (2.0 * HALF_X corridor + 2.0 * WALL_T) WALL_T,
    .box (HALF_X corridor + WALL_T / 2.0) 0 WALL_T (2.0 * HALF_Y corridor + 2.0 * WALL_T),
    .box (-(HALF_X corridor + WALL_T / 2.0)) 0 WALL_T (2.0 * HALF_Y corridor + 2.0 * WALL_T)]

/-- `OBSTACLES`. A corridor has nothing but its walls. -/
def OBSTACLES (corridor : Bool) : List (Obstacle K) :=
  if corridor then perimeter corridor
  else perimeter corridor ++
    [.box (-2.0) 2.5 4.0 WALL_T, .box 3.0 (-2.0) WALL_T 4.0, .cyl 4.0 3.0 0.35,
      .cyl (-4.0) (-3.0) 0.35, .cyl 5.5 (-3.5) 0.35, .cyl (-6.0) 4.0 0.35]

/-- How far the points of a pixel are from its centre. -/
def off : List K :=
  let step : K := RES / (SUBSAMPLE : ℕ)
  if SUBSAMPLE > 1 then (List.range SUBSAMPLE).map fun k => (-1 + 2.0 * (k : K)) * step / 2.0
  else [0]

/-- The centre of a pixel. Row 0 is the map's last. -/
def centreX (corridor : Bool) (c : ℕ) : K := ORIGIN_X corridor + (c + 0.5) * RES

def centreY (corridor : Bool) (r : ℕ) : K :=
  ORIGIN_Y corridor + ((HEIGHT corridor - 1 - r : ℕ) + 0.5) * RES

variable [LinearOrder K]

def inside : Obstacle K → K → K → Prop
  | .box cx cy sx sy, x, y => |x - cx| ≤ sx / 2.0 ∧ |y - cy| ≤ sy / 2.0
  | .cyl cx cy r, x, y => (x - cx) ^ 2 + (y - cy) ^ 2 ≤ r * r

instance : ∀ {o : Obstacle K} {x y : K}, Decidable (inside o x y)
  | .box .., _, _ => inferInstanceAs (Decidable (_ ∧ _))
  | .cyl .., _, _ => inferInstanceAs (Decidable (_ ≤ _))

/-- `hit`: an obstacle contains one of the pixel's points. -/
def hit (obstacles : List (Obstacle K)) (cx cy : K) : Bool :=
  off.any fun dx => off.any fun dy => obstacles.any fun o => decide (inside o (cx + dx) (cy + dy))

def pixelValue (corridor : Bool) (obstacles : List (Obstacle K)) (r c : ℕ) : ℕ :=
  let cx := centreX corridor c
  let cy := centreY corridor r
  if hit obstacles cx cy then OCC
  else if |cx| < HALF_X corridor + WALL_T ∧ |cy| < HALF_Y corridor + WALL_T then FREE
  else UNKNOWN

/-- The rows that `write_map` writes. -/
def writeMap (corridor : Bool) (obstacles : List (Obstacle K)) : List (List ℕ) :=
  (List.range (HEIGHT corridor)).map fun r =>
    (List.range (WIDTH corridor)).map fun c => pixelValue corridor obstacles r c

end Raster

/-! ## Mirror images -/

section Mirror

variable {K : Type} [Field K] [LinearOrder K]

/-- The mirror image in the y axis. -/
def Obstacle.acrossY : Obstacle K → Obstacle K
  | .box cx cy sx sy => .box (-cx) cy sx sy
  | .cyl cx cy r => .cyl (-cx) cy r

/-- The mirror image in the x axis. -/
def Obstacle.acrossX : Obstacle K → Obstacle K
  | .box cx cy sx sy => .box cx (-cy) sx sy
  | .cyl cx cy r => .cyl cx (-cy) r

/-- An obstacle contains a point of the pixel that is on none of its edges. -/
def MeetsInterior (obstacles : List (Obstacle K)) (cx cy : K) : Prop :=
  ∃ o ∈ obstacles, ∃ x y, inside o x y ∧ |x - cx| < RES / 2.0 ∧ |y - cy| < RES / 2.0

/-- **A map that is true to both sides.** The obstacles' mirror images have
the mirror image of their map, and a pixel is occupied only where an obstacle
meets its interior. -/
def Unbiased (corridor : Bool) (obstacles : List (Obstacle K)) : Prop :=
  writeMap corridor (obstacles.map Obstacle.acrossY) =
      (writeMap corridor obstacles).map List.reverse ∧
    writeMap corridor (obstacles.map Obstacle.acrossX) = (writeMap corridor obstacles).reverse ∧
    ∀ r < HEIGHT corridor, ∀ c < WIDTH corridor, pixelValue corridor obstacles r c = OCC →
      MeetsInterior obstacles (centreX corridor c) (centreY corridor r)

/-- An obstacle contains a point that is one of these far from the centre. -/
def Touches (obstacles : List (Obstacle K)) (cx cy : K) (dxs dys : List K) : Prop :=
  ∃ dx ∈ dxs, ∃ dy ∈ dys, ∃ o ∈ obstacles, inside o (cx + dx) (cy + dy)

instance {obstacles : List (Obstacle K)} {cx cy : K} {dxs dys : List K} :
    Decidable (Touches obstacles cx cy dxs dys) :=
  inferInstanceAs (Decidable (∃ dx ∈ dxs, _))

/-- The points that are off the edges. -/
def inner : List K := [-(RES / 6.0), RES / 6.0]

/-- **What the edges of a pixel decide alone** is the same on both sides:
where no point off the edge in question is met, the right edge is met if
the left one is, and the upper if the lower; and where an edge is all that
is met, what meets it meets the interior. -/
def EvenEdges (obstacles : List (Obstacle K)) (cx cy : K) : Prop :=
  (¬ Touches obstacles cx cy inner off →
      (Touches obstacles cx cy [RES / 2.0] off ↔ Touches obstacles cx cy [-(RES / 2.0)] off)) ∧
    (¬ Touches obstacles cx cy off inner →
      (Touches obstacles cx cy off [RES / 2.0] ↔ Touches obstacles cx cy off [-(RES / 2.0)])) ∧
    (¬ Touches obstacles cx cy inner inner → Touches obstacles cx cy off off →
      MeetsInterior obstacles cx cy)

end Mirror

section Law

variable {K : Type} [Field K] [LinearOrder K] {corridor : Bool} {obstacles : List (Obstacle K)}
  {o : Obstacle K} {cx cy x y : K} {r c : ℕ} {dxs dys : List K}

/-! ## What is met -/

omit [LinearOrder K] in
/-- A mirror image is as far from a point as the obstacle is from the point's
own image. -/
theorem sub_neg_eq_neg (a b : K) : a - -b = -(-a - b) := by
  ring

theorem inside_acrossY : inside o.acrossY x y ↔ inside o (-x) y := by
  cases o with
  | box cx cy sx sy => rw [Obstacle.acrossY, inside, inside, sub_neg_eq_neg, abs_neg]
  | cyl cx cy r => rw [Obstacle.acrossY, inside, inside, sub_neg_eq_neg, neg_sq]

theorem inside_acrossX : inside o.acrossX x y ↔ inside o x (-y) := by
  cases o with
  | box cx cy sx sy => rw [Obstacle.acrossX, inside, inside, sub_neg_eq_neg, abs_neg]
  | cyl cx cy r => rw [Obstacle.acrossX, inside, inside, sub_neg_eq_neg, neg_sq]

theorem hit_iff : hit obstacles cx cy = true ↔ Touches obstacles cx cy off off := by
  simp only [hit, Touches, List.any_eq_true, decide_eq_true_eq]

theorem touches_acrossY : Touches (obstacles.map Obstacle.acrossY) cx cy dxs dys ↔
    Touches obstacles (-cx) cy (dxs.map Neg.neg) dys := by
  simp only [Touches, List.mem_map, exists_exists_and_eq_and, inside_acrossY, neg_add]

theorem touches_acrossX : Touches (obstacles.map Obstacle.acrossX) cx cy dxs dys ↔
    Touches obstacles cx (-cy) dxs (dys.map Neg.neg) := by
  simp only [Touches, List.mem_map, exists_exists_and_eq_and, inside_acrossX, neg_add]

theorem touches_append_left {dxs' : List K} : Touches obstacles cx cy (dxs ++ dxs') dys ↔
    Touches obstacles cx cy dxs dys ∨ Touches obstacles cx cy dxs' dys := by
  simp only [Touches, List.mem_append, or_and_right, exists_or]

theorem touches_append_right {dys' : List K} : Touches obstacles cx cy dxs (dys ++ dys') ↔
    Touches obstacles cx cy dxs dys ∨ Touches obstacles cx cy dxs dys' := by
  simp only [Touches, List.mem_append, or_and_right, exists_or, and_or_left]

theorem touches_congr {dxs' dys' : List K} (hx : dxs.Perm dxs') (hy : dys.Perm dys') :
    Touches obstacles cx cy dxs dys ↔ Touches obstacles cx cy dxs' dys' := by
  simp only [Touches, hx.mem_iff, hy.mem_iff]

theorem pixelValue_eq_occ_iff : pixelValue corridor obstacles r c = OCC ↔
    Touches obstacles (centreX corridor c) (centreY corridor r) off off := by
  rw [← hit_iff, pixelValue]
  by_cases h : hit obstacles (centreX corridor c) (centreY corridor r) = true
  · simp [h]
  · simp only [h, Bool.false_eq_true, if_false, iff_false]
    split <;> decide

/-- Two pixels as far from the middle are of one value if both are hit, or
neither. -/
theorem pixelValue_eq_iff {obstacles' : List (Obstacle K)} {r' c' : ℕ}
    (hx : |(centreX corridor c : K)| = |centreX corridor c'|)
    (hy : |(centreY corridor r : K)| = |centreY corridor r'|) :
    pixelValue corridor obstacles r c = pixelValue corridor obstacles' r' c' ↔
      (Touches obstacles (centreX corridor c) (centreY corridor r) off off ↔
        Touches obstacles' (centreX corridor c') (centreY corridor r') off off) := by
  constructor
  · intro h
    rw [← pixelValue_eq_occ_iff, ← pixelValue_eq_occ_iff, h]
  · intro h
    simp only [← hit_iff, ← Bool.eq_iff_iff] at h
    rw [pixelValue, pixelValue, h, hx, hy]

/-! ## The points of a pixel -/

variable [IsStrictOrderedRing K]

theorem off_eq : (off : List K) = [-(RES / 6.0), RES / 6.0, RES / 2.0] := by
  norm_num [off, SUBSAMPLE, RES, List.range_succ]

theorem off_append : (off : List K) = inner ++ [RES / 2.0] := off_eq

/-- The points of a pixel, seen from behind. -/
theorem off_neg_perm : (off.map Neg.neg : List K).Perm (inner ++ [-(RES / 2.0)]) := by
  rw [off_eq, inner]
  simpa using List.Perm.swap (-(RES / 6.0)) (RES / 6.0) [-(RES / 2.0)]

/-- A mirror image is drawn alike where the edges decide alike. -/
theorem touches_left_iff : (Touches obstacles cx cy (off.map Neg.neg) off ↔
      Touches obstacles cx cy off off) ↔ (¬ Touches obstacles cx cy inner off →
        (Touches obstacles cx cy [RES / 2.0] off ↔
          Touches obstacles cx cy [-(RES / 2.0)] off)) := by
  rw [touches_congr off_neg_perm (.refl _), touches_append_left]
  nth_rewrite 3 [off_append]
  rw [touches_append_left]
  tauto

theorem touches_below_iff : (Touches obstacles cx cy off (off.map Neg.neg) ↔
      Touches obstacles cx cy off off) ↔ (¬ Touches obstacles cx cy off inner →
        (Touches obstacles cx cy off [RES / 2.0] ↔
          Touches obstacles cx cy off [-(RES / 2.0)])) := by
  rw [touches_congr (.refl _) off_neg_perm, touches_append_right]
  nth_rewrite 4 [off_append]
  rw [touches_append_right]
  tauto

/-- The points off the edges are in the interior. -/
theorem meetsInterior_of_inner (h : Touches obstacles cx cy inner inner) :
    MeetsInterior obstacles cx cy := by
  obtain ⟨dx, hdx, dy, hdy, o, ho, hin⟩ := h
  have hnear : ∀ d ∈ (inner : List K), |d| < RES / 2.0 := by
    intro d hd
    simp only [inner, List.mem_cons, List.not_mem_nil, or_false] at hd
    rcases hd with rfl | rfl <;> norm_num [RES, abs_div]
  refine ⟨o, ho, _, _, hin, ?_, ?_⟩
  · rw [add_sub_cancel_left]
    exact hnear dx hdx
  · rw [add_sub_cancel_left]
    exact hnear dy hdy

/-! ## The map -/

theorem width_eq : WIDTH corridor = if corridor then 400 else 360 := by
  cases corridor <;> decide +kernel

theorem height_eq : HEIGHT corridor = if corridor then 84 else 280 := by
  cases corridor <;> decide +kernel

/-- The map is as far on one side of the middle as on the other. -/
theorem centreX_mirror (hc : c < WIDTH corridor) :
    (centreX corridor (WIDTH corridor - 1 - c) : K) = -centreX corridor c := by
  have hcast : ((WIDTH corridor - 1 - c : ℕ) : K) = WIDTH corridor - 1 - c := by
    rw [Nat.sub_sub, Nat.cast_sub (by omega), Nat.cast_add, Nat.cast_one]
    ring
  rw [centreX, centreX, hcast, width_eq]
  cases corridor <;> norm_num [ORIGIN_X, HALF_X, RES] <;> ring

theorem centreY_mirror (hr : r < HEIGHT corridor) :
    (centreY corridor (HEIGHT corridor - 1 - r) : K) = -centreY corridor r := by
  have hcast : ((HEIGHT corridor - 1 - r : ℕ) : K) = HEIGHT corridor - 1 - r := by
    rw [Nat.sub_sub, Nat.cast_sub (by omega), Nat.cast_add, Nat.cast_one]
    ring
  have hback : HEIGHT corridor - 1 - (HEIGHT corridor - 1 - r) = r := by omega
  rw [centreY, centreY, hback, hcast, height_eq]
  cases corridor <;> norm_num [ORIGIN_Y, HALF_Y, RES] <;> ring

omit [Field K] [LinearOrder K] [IsStrictOrderedRing K] in
theorem reverse_map_range {α : Type} {f : ℕ → α} {n : ℕ} :
    ((List.range n).map f).reverse = (List.range n).map fun i => f (n - 1 - i) := by
  rw [← List.map_reverse, List.range_eq_range', List.reverse_range', List.map_map,
    ← List.range_eq_range', zero_add]
  rfl

omit [Field K] [LinearOrder K] [IsStrictOrderedRing K] in
/-- What holds from one end on holds from the other. -/
theorem forall_lt_mirror {n : ℕ} {Q : ℕ → Prop} : (∀ i < n, Q (n - 1 - i)) ↔ ∀ i < n, Q i := by
  refine ⟨fun h i hi => ?_, fun h i hi => h _ (by omega)⟩
  have hback := h (n - 1 - i) (by omega)
  rwa [show n - 1 - (n - 1 - i) = i by omega] at hback

/-- **In the y axis.** -/
theorem writeMap_acrossY_iff : writeMap corridor (obstacles.map Obstacle.acrossY) =
      (writeMap corridor obstacles).map List.reverse ↔
    ∀ r < HEIGHT corridor, ∀ c < WIDTH corridor,
      ¬ Touches obstacles (centreX corridor c) (centreY corridor r) inner off →
        (Touches obstacles (centreX corridor c) (centreY corridor r) [RES / 2.0] off ↔
          Touches obstacles (centreX corridor c) (centreY corridor r) [-(RES / 2.0)] off) := by
  simp only [writeMap, List.map_map, List.map_inj_left, List.mem_range, Function.comp_apply,
    reverse_map_range]
  refine forall₂_congr fun r _ => ?_
  rw [← forall_lt_mirror]
  refine forall₂_congr fun c hc => ?_
  have hback : WIDTH corridor - 1 - (WIDTH corridor - 1 - c) = c := by omega
  rw [← touches_left_iff, hback, pixelValue_eq_iff (by rw [centreX_mirror hc, abs_neg]) rfl,
    touches_acrossY, centreX_mirror hc, neg_neg]

/-- **In the x axis.** -/
theorem writeMap_acrossX_iff : writeMap corridor (obstacles.map Obstacle.acrossX) =
      (writeMap corridor obstacles).reverse ↔
    ∀ r < HEIGHT corridor, ∀ c < WIDTH corridor,
      ¬ Touches obstacles (centreX corridor c) (centreY corridor r) off inner →
        (Touches obstacles (centreX corridor c) (centreY corridor r) off [RES / 2.0] ↔
          Touches obstacles (centreX corridor c) (centreY corridor r) off [-(RES / 2.0)]) := by
  simp only [writeMap, reverse_map_range, List.map_inj_left, List.mem_range]
  rw [← forall_lt_mirror]
  refine forall₂_congr fun r hr => forall₂_congr fun c _ => ?_
  have hback : HEIGHT corridor - 1 - (HEIGHT corridor - 1 - r) = r := by omega
  rw [← touches_below_iff, hback, pixelValue_eq_iff rfl (by rw [centreY_mirror hr, abs_neg]),
    touches_acrossX, centreY_mirror hr, neg_neg]

/-- **When the map is true to both sides.** -/
theorem unbiased_iff (corridor : Bool) (obstacles : List (Obstacle K)) :
    Unbiased corridor obstacles ↔ ∀ r < HEIGHT corridor, ∀ c < WIDTH corridor,
      EvenEdges obstacles (centreX corridor c) (centreY corridor r) := by
  have htouch : ∀ r c, (pixelValue corridor obstacles r c = OCC →
        MeetsInterior obstacles (centreX corridor c) (centreY corridor r)) ↔
      (¬ Touches obstacles (centreX corridor c) (centreY corridor r) inner inner →
        Touches obstacles (centreX corridor c) (centreY corridor r) off off →
          MeetsInterior obstacles (centreX corridor c) (centreY corridor r)) := by
    intro r c
    rw [pixelValue_eq_occ_iff]
    refine ⟨fun h _ => h, fun h hhit => ?_⟩
    by_cases hin : Touches obstacles (centreX corridor c) (centreY corridor r) inner inner
    · exact meetsInterior_of_inner hin
    · exact h hin hhit
  simp only [Unbiased, writeMap_acrossY_iff, writeMap_acrossX_iff, htouch, EvenEdges, forall_and]

/-- **A face in the middle of a pixel** is on no edge, so where an edge is met
a point next to it is met too. -/
theorem inner_of_met {mid pos half d : K} {m n : ℤ} (hm : mid - pos + half = RES * m)
    (hn : mid - pos - half = RES * n) (hd : d ≠ 0 ∧ |d| ≤ RES / 2.0)
    (hmet : |mid + d - pos| ≤ half) : ∃ d' ∈ (inner : List K), |mid + d' - pos| ≤ half := by
  have hres : (RES : K) = 1 / 20 := by norm_num [RES]
  have hhalf : (RES : K) / 2.0 = 1 / 40 := by norm_num [RES]
  have hsixth : (RES : K) / 6.0 = 1 / 120 := by norm_num [RES]
  rw [abs_le] at hmet
  rw [hhalf, abs_le] at hd
  rw [hres] at hm hn
  obtain ⟨hne, hlow, hhigh⟩ := hd
  rcases lt_or_gt_of_ne hne with hneg | hpos
  · have hm₀ : (0 : K) < m := by linarith
    have hn₁ : (n : K) < 1 := by linarith
    norm_cast at hm₀ hn₁
    have hm₁ : (1 : K) ≤ m := by exact_mod_cast hm₀
    have hn₀ : (n : K) ≤ 0 := by exact_mod_cast Int.lt_add_one_iff.1 hn₁
    refine ⟨-(RES / 6.0), List.mem_cons_self, ?_⟩
    rw [hsixth, abs_le]
    constructor <;> linarith
  · have hm₁ : (0 : K) < m + 1 := by linarith
    have hn₀ : (n : K) + 1 < 1 := by linarith
    norm_cast at hm₁ hn₀
    have hm₀ : (0 : K) ≤ m := by exact_mod_cast Int.lt_add_one_iff.1 hm₁
    have hn₁ : (n : K) + 1 ≤ 0 := by exact_mod_cast Int.lt_add_one_iff.1 hn₀
    refine ⟨RES / 6.0, List.mem_cons_of_mem _ List.mem_cons_self, ?_⟩
    rw [hsixth, abs_le]
    constructor <;> linarith

end Law

/-- A pillar in the corridor, with its faces in the middle of pixels. -/
def pillar : Obstacle ℚ := .box 3.0 0.5 0.45 0.35

theorem inner_column_of_met {c : ℕ} {dx : ℚ} (hdx : dx ≠ 0 ∧ |dx| ≤ RES / 2.0)
    (hmet : |centreX true c + dx - (3.0 : ℚ)| ≤ 0.45 / 2.0) :
    ∃ dx' ∈ (inner : List ℚ), |centreX true c + dx' - 3.0| ≤ 0.45 / 2.0 := by
  have hcol : (centreX true c : ℚ) = c / 20 - 9.975 := by
    norm_num [centreX, ORIGIN_X, HALF_X, RES]
    ring
  refine inner_of_met (m := c - 255) (n := c - 264) ?_ ?_ hdx hmet <;>
    · rw [hcol, RES]
      norm_num
      ring

theorem inner_row_of_met {r : ℕ} {dy : ℚ} (hdy : dy ≠ 0 ∧ |dy| ≤ RES / 2.0)
    (hmet : |centreY true r + dy - (0.5 : ℚ)| ≤ 0.35 / 2.0) :
    ∃ dy' ∈ (inner : List ℚ), |centreY true r + dy' - 0.5| ≤ 0.35 / 2.0 := by
  have hrow : (centreY true r : ℚ) = (84 - 1 - r : ℕ) / 20 - 2.075 := by
    norm_num [centreY, ORIGIN_Y, HALF_Y, RES, height_eq]
    ring
  refine inner_of_met (m := (84 - 1 - r : ℕ) - 48) (n := (84 - 1 - r : ℕ) - 55) ?_ ?_ hdy hmet <;>
    · rw [hrow, RES]
      norm_num
      ring

theorem touches_pillar {cx cy : ℚ} {dxs dys : List ℚ} : Touches [pillar] cx cy dxs dys ↔
    (∃ dx ∈ dxs, |cx + dx - 3.0| ≤ 0.45 / 2.0) ∧ ∃ dy ∈ dys, |cy + dy - 0.5| ≤ 0.35 / 2.0 := by
  simp only [Touches, List.mem_singleton, exists_eq_left, pillar, inside]
  constructor
  · rintro ⟨dx, hdx, dy, hdy, hx, hy⟩
    exact ⟨⟨dx, hdx, hx⟩, dy, hdy, hy⟩
  · rintro ⟨⟨dx, hdx, hx⟩, dy, hdy, hy⟩
    exact ⟨dx, hdx, dy, hdy, hx, hy⟩

theorem unbiased_iff_pillar : Unbiased true [pillar] := by
  refine (unbiased_iff true [pillar]).2 fun r _ c _ => ?_
  have hoff : ∀ d ∈ (off : List ℚ), d ≠ 0 ∧ |d| ≤ RES / 2.0 := by decide +kernel
  have hedge : ∀ d : ℚ, d ≠ 0 ∧ |d| ≤ RES / 2.0 →
      (∀ dys, Touches [pillar] (centreX true c) (centreY true r) [d] dys →
        Touches [pillar] (centreX true c) (centreY true r) inner dys) ∧
      ∀ dxs, Touches [pillar] (centreX true c) (centreY true r) dxs [d] →
        Touches [pillar] (centreX true c) (centreY true r) dxs inner := by
    intro d hd
    refine ⟨fun dys h => ?_, fun dxs h => ?_⟩
    · rw [touches_pillar] at h ⊢
      obtain ⟨⟨dx, hdx, hx⟩, hy⟩ := h
      rw [List.mem_singleton.1 hdx] at hx
      exact ⟨inner_column_of_met hd hx, hy⟩
    · rw [touches_pillar] at h ⊢
      obtain ⟨hx, dy, hdy, hy⟩ := h
      rw [List.mem_singleton.1 hdy] at hy
      exact ⟨hx, inner_row_of_met hd hy⟩
  have hright := hedge (RES / 2.0) (by decide +kernel)
  have hleft := hedge (-(RES / 2.0)) (by decide +kernel)
  refine ⟨fun hnot => ?_, fun hnot => ?_, fun hnot htouch => absurd ?_ hnot⟩
  · exact iff_of_false (fun h => hnot (hright.1 _ h)) fun h => hnot (hleft.1 _ h)
  · exact iff_of_false (fun h => hnot (hright.2 _ h)) fun h => hnot (hleft.2 _ h)
  · rw [touches_pillar] at htouch ⊢
    obtain ⟨⟨dx, hdx, hx⟩, dy, hdy, hy⟩ := htouch
    exact ⟨inner_column_of_met (hoff dx hdx) hx, inner_row_of_met (hoff dy hdy) hy⟩

/-- **Neither of the maps that are written is true to both sides.** The
pixel to the left of a right wall's face is occupied by the face alone, and
the one to the right of a left wall's is not. -/
theorem arena_biased : ¬ Unbiased false (OBSTACLES false : List (Obstacle ℚ)) ∧
    ¬ Unbiased true (OBSTACLES true : List (Obstacle ℚ)) ∧
    pixelValue true (OBSTACLES true : List (Obstacle ℚ)) 42 379 = OCC ∧
    ¬ MeetsInterior (OBSTACLES true : List (Obstacle ℚ)) (centreX true 379) (centreY true 42) := by
  refine ⟨?_, ?_, by decide +kernel, ?_⟩
  · rintro ⟨hright, -⟩
    rw [writeMap_acrossY_iff] at hright
    exact absurd (hright 140 (by decide +kernel) 339 (by decide +kernel)) (by decide +kernel)
  · rintro ⟨hright, -⟩
    rw [writeMap_acrossY_iff] at hright
    exact absurd (hright 42 (by decide +kernel) 379 (by decide +kernel)) (by decide +kernel)
  · have hx : (centreX true 379 : ℚ) = 359 / 40 := by decide +kernel
    have hy : (centreY true 42 : ℚ) = -(1 / 40) := by decide +kernel
    rintro ⟨o, ho, x, y, hin, hnear⟩
    rw [hx, hy, RES, abs_lt, abs_lt] at hnear
    simp only [OBSTACLES, perimeter, if_true, List.mem_cons, List.not_mem_nil, or_false] at ho
    rcases ho with rfl | rfl | rfl | rfl <;>
      · simp only [inside, HALF_X, HALF_Y, WALL_T, if_true, abs_le] at hin
        linarith only [hin.1.1, hin.1.2, hin.2.1, hin.2.2, hnear.1.1, hnear.1.2, hnear.2.1,
          hnear.2.2]

end Simulation

end VehicleStack
