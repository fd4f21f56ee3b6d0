import Mathlib.Analysis.Convex.Basic
import Mathlib.Analysis.SpecialFunctions.Complex.Arg
import Mathlib.Analysis.SpecialFunctions.Trigonometric.Arctan
import Mathlib.Tactic.FieldSimp
import VehicleStack.Common.IntegerLine
import VehicleStack.Simulation.CleanMap

/-!
# The map cleaner — the cells a beam is drawn over

The line of cells is drawn between the cells of the beam's ends, wherever
in them the ends are, and so it is not the line of the beam. `CountsNear` is
how far apart they are, and that the cell of the return is never seen
through; an erased cell has been seen through by as many beams as the
threshold says (`erased_on_near_beams`).
-/

namespace VehicleStack

namespace Simulation

open IntegerLine

/-! ## The cells of one line -/

/-- Where the pen of a line is on the map. -/
def penWalk (c0 r0 sc sr : ℤ) (p : Pen) : Walk := ⟨p.err, c0 + sc * p.i, r0 + sr * p.j⟩

section Walk

variable {K : Type} {mp : OccupancyGrid K} {c0 r0 c1 r1 dc dr sc sr c r c' r' : ℤ} {seen : Counter}
  {i : ℕ} {cells : List Walk}

theorem next_penWalk {p : Pen} :
    (penWalk c0 r0 sc sr p).next dc dr sc sr = penWalk c0 r0 sc sr (p.advance dc dr) := by
  by_cases hcol : -dr < 2 * p.err <;> by_cases hrow : 2 * p.err < dc <;>
    simp [Walk.next, penWalk, Pen.advance, hcol, hrow, mul_add, add_assoc]

/-- The cells that are counted on the way. -/
def lineCells (c0 r0 dc dr sc sr : ℤ) : List Walk :=
  (List.range (min 600 (max dc dr).toNat)).map fun n => penWalk c0 r0 sc sr (pen dc dr n)

theorem mem_lineCells {w : Walk} (h : w ∈ lineCells c0 r0 dc dr sc sr) :
    ∃ n : ℕ, (n : ℤ) < max dc dr ∧ penWalk c0 r0 sc sr (pen dc dr n) = w := by
  obtain ⟨n, hn, rfl⟩ := List.mem_map.1 h
  rw [List.mem_range] at hn
  exact ⟨n, by omega, rfl⟩

/-- The pen is at the end of the line only when it has arrived. -/
theorem penWalk_end_iff (hdc : 0 ≤ dc) (hdr : 0 ≤ dr) (hsc : sc ≠ 0) (hsr : sr ≠ 0) {n : ℕ}
    (hn : n ≤ max dc dr) (hc1 : c1 = c0 + sc * dc) (hr1 : r1 = r0 + sr * dr) :
    ((penWalk c0 r0 sc sr (pen dc dr n)).c, (penWalk c0 r0 sc sr (pen dc dr n)).r) = (c1, r1) ↔
      (n : ℤ) = max dc dr := by
  rw [← pen_end_iff hdc hdr hn, Prod.mk.injEq, hc1, hr1, penWalk, add_right_inj, add_right_inj,
    mul_right_inj' hsc, mul_right_inj' hsr]

/-- The loop along a beam without its counter: the cells it is at on the
way, and where it ends. -/
def lineWalk (c1 r1 dc dr sc sr : ℤ) : ℕ → Walk → List Walk × Walk
  | 0, w => ([], w)
  | n + 1, w =>
    if (w.c, w.r) = (c1, r1) then ([], w)
    else
      let (cells, last) := lineWalk c1 r1 dc dr sc sr n (w.next dc dr sc sr)
      (w :: cells, last)

/-- The loop counts the cells it is at. -/
theorem walk_eq_foldl {fuel : ℕ} {w : Walk} : mp.walk c1 r1 dc dr sc sr fuel w seen =
    (lineWalk c1 r1 dc dr sc sr fuel w).1.foldl (fun seen w => mp.count seen w.c w.r) seen := by
  induction fuel generalizing w seen with
  | zero => rfl
  | succ fuel ih =>
    rw [OccupancyGrid.walk, lineWalk]
    split
    · rfl
    · exact ih

/-- **The loop goes along the line**, with as many turns as it has left. -/
theorem lineWalk_penWalk (hdc : 0 ≤ dc) (hdr : 0 ≤ dr) (hsc : sc ≠ 0) (hsr : sr ≠ 0)
    (hc1 : c1 = c0 + sc * dc) (hr1 : r1 = r0 + sr * dr) (fuel n : ℕ) (hn : n ≤ max dc dr) :
    lineWalk c1 r1 dc dr sc sr fuel (penWalk c0 r0 sc sr (pen dc dr n)) =
      ((List.range' n (min fuel ((max dc dr).toNat - n))).map fun n =>
        penWalk c0 r0 sc sr (pen dc dr n),
      penWalk c0 r0 sc sr (pen dc dr (n + min fuel ((max dc dr).toNat - n)))) := by
  induction fuel generalizing n with
  | zero => simp [lineWalk]
  | succ fuel ih =>
    rw [lineWalk]
    by_cases hend : (n : ℤ) = max dc dr
    · rw [if_pos ((penWalk_end_iff hdc hdr hsc hsr hn hc1 hr1).2 hend)]
      have hleft : (max dc dr).toNat - n = 0 := by omega
      simp [hleft]
    · rw [if_neg (mt (penWalk_end_iff hdc hdr hsc hsr hn hc1 hr1).1 hend), next_penWalk, ← pen_succ,
        ih (n + 1) (by omega)]
      have hleft : min (fuel + 1) ((max dc dr).toNat - n) =
          min fuel ((max dc dr).toNat - (n + 1)) + 1 := by omega
      rw [hleft, List.range'_succ, List.map_cons, add_assoc, add_comm 1]

/-- **The whole line**, and where it ends. -/
theorem lineWalk_line (hdc : 0 ≤ dc) (hdr : 0 ≤ dr) (hsc : sc ≠ 0) (hsr : sr ≠ 0)
    (hc1 : c1 = c0 + sc * dc) (hr1 : r1 = r0 + sr * dr) :
    lineWalk c1 r1 dc dr sc sr 600 ⟨dc - dr, c0, r0⟩ = (lineCells c0 r0 dc dr sc sr,
      penWalk c0 r0 sc sr (pen dc dr (min 600 (max dc dr).toNat))) := by
  have hline := lineWalk_penWalk hdc hdr hsc hsr hc1 hr1 600 0 (le_max_of_le_left hdc)
  simpa [penWalk, Pen.start, lineCells, List.range_eq_range'] using hline

theorem walk_line (hdc : 0 ≤ dc) (hdr : 0 ≤ dr) (hsc : sc ≠ 0) (hsr : sr ≠ 0)
    (hc1 : c1 = c0 + sc * dc) (hr1 : r1 = r0 + sr * dr) :
    mp.walk c1 r1 dc dr sc sr 600 ⟨dc - dr, c0, r0⟩ seen =
      (lineCells c0 r0 dc dr sc sr).foldl (fun seen w => mp.count seen w.c w.r) seen := by
  rw [walk_eq_foldl, lineWalk_line hdc hdr hsc hsr hc1 hr1]

/-! ## What a line counts -/

/-- The cell of that index is counted at a place. -/
def OccupancyGrid.Marks (mp : OccupancyGrid K) (i : ℕ) (w : Walk) : Prop :=
  (0 ≤ w.c ∧ w.c < mp.width ∧ 0 ≤ w.r ∧ w.r < mp.height) ∧ w.r * mp.width + w.c = i ∧ i ∈ mp.occ

instance {w : Walk} : Decidable (mp.Marks i w) := inferInstanceAs (Decidable (_ ∧ _))

theorem count_apply {w : Walk} :
    mp.count seen w.c w.r i = seen i + if mp.Marks i w then 1 else 0 := by
  simp only [OccupancyGrid.count]
  by_cases hon : 0 ≤ w.c ∧ w.c < mp.width ∧ 0 ≤ w.r ∧ w.r < mp.height
  · have hnonneg : 0 ≤ w.r * mp.width + w.c :=
      add_nonneg (mul_nonneg hon.2.2.1 (Int.natCast_nonneg _)) hon.1
    have hidx : w.r * mp.width + w.c = i ↔ i = (w.r * mp.width + w.c).toNat := by omega
    have hmarks : mp.Marks i w ↔ i = (w.r * mp.width + w.c).toNat ∧ i ∈ mp.occ := by
      rw [← hidx]
      exact and_iff_right hon
    rw [if_pos hon]
    by_cases hi : i = (w.r * mp.width + w.c).toNat
    · rw [← hi]
      by_cases hocc : i ∈ mp.occ <;> simp [hocc, hmarks, ← hi, Counter.increment]
    · rw [if_neg fun h => hi (hmarks.1 h).1, add_zero]
      split <;> simp [hi, Counter.increment]
  · rw [if_neg hon, if_neg fun h => hon h.1, add_zero]

/-- An index is that of one cell. -/
theorem OccupancyGrid.Marks.cell {w : Walk} (h : mp.Marks i w) :
    w.c = (i % mp.width : ℕ) ∧ w.r = (i / mp.width : ℕ) := by
  obtain ⟨⟨hc, hwidth, -, -⟩, hidx, -⟩ := h
  have hpos : (mp.width : ℤ) ≠ 0 := by omega
  rw [Int.natCast_mod, Int.natCast_div, ← hidx, add_comm]
  constructor
  · rw [Int.add_mul_emod_self_right, Int.emod_eq_of_lt hc hwidth]
  · rw [Int.add_mul_ediv_right _ _ hpos, Int.ediv_eq_zero_of_lt hc hwidth, zero_add]

/-- What a list of cells counts. -/
theorem foldl_count_apply :
    cells.foldl (fun seen w => mp.count seen w.c w.r) seen i =
      seen i + cells.countP fun w => mp.Marks i w := by
  induction cells generalizing seen with
  | nil => rfl
  | cons w cells ih =>
    rw [List.foldl_cons, ih, count_apply, List.countP_cons]
    by_cases h : mp.Marks i w
    · simp only [h, if_true, decide_true]
      omega
    · simp [h]

/-- Of places that are all different, no more than one is a cell. -/
theorem countP_marks_le_one (h : cells.Pairwise fun w w' => ¬ (w.c = w'.c ∧ w.r = w'.r)) :
    (cells.countP fun w => mp.Marks i w) ≤ 1 := by
  induction h with
  | nil => exact Nat.zero_le 1
  | @cons w cells hw _ ih =>
    rw [List.countP_cons]
    by_cases hmark : mp.Marks i w
    · have hzero : (cells.countP fun w => mp.Marks i w) = 0 := by
        refine List.countP_eq_zero.2 fun w' hw' hmark' => hw w' hw' ?_
        have hcell := hmark.cell
        have hcell' := (of_decide_eq_true hmark' : mp.Marks i w').cell
        exact ⟨hcell.1.trans hcell'.1.symm, hcell.2.trans hcell'.2.symm⟩
      rw [hzero, if_pos (decide_eq_true hmark)]
    · rw [if_neg (by simpa using hmark)]
      exact ih

/-- The line is nowhere twice. -/
theorem pairwise_lineCells (hdc : 0 ≤ dc) (hdr : 0 ≤ dr) (hsc : sc ≠ 0) (hsr : sr ≠ 0) :
    (lineCells c0 r0 dc dr sc sr).Pairwise fun w w' => ¬ (w.c = w'.c ∧ w.r = w'.r) := by
  rw [lineCells, List.pairwise_map]
  refine List.Pairwise.imp_of_mem ?_ List.nodup_range
  intro m n hm hn hne ⟨hc, hr⟩
  rw [List.mem_range] at hm hn
  refine hne (pen_injective hdc hdr (by omega) (by omega) ?_ ?_)
  · exact mul_left_cancel₀ hsc (add_left_cancel hc)
  · exact mul_left_cancel₀ hsr (add_left_cancel hr)

end Walk

/-! ## The beam and its line -/

section Beam

variable {K : Type} [Field K] [LinearOrder K] {z : K × K} {c r : ℤ}

/-- The cell holds the point. -/
def InCell (z : K × K) (c r : ℤ) : Prop := c ≤ z.1 ∧ z.1 < c + 1 ∧ r ≤ z.2 ∧ z.2 < r + 1

/-- The point is in the column of the cell, and no more than half a cell
below it or above. -/
def InColumn (z : K × K) (c r : ℤ) : Prop :=
  c ≤ z.1 ∧ z.1 < c + 1 ∧ r - 0.5 ≤ z.2 ∧ z.2 < r + 1 + 0.5

/-- The point is in the row of the cell, and no more than half a cell beside
it. -/
def InRow (z : K × K) (c r : ℤ) : Prop :=
  c - 0.5 ≤ z.1 ∧ z.1 < c + 1 + 0.5 ∧ r ≤ z.2 ∧ z.2 < r + 1

/-- Neither left of the map's origin nor below it. -/
def Ahead (z : K × K) : Prop := 0 ≤ z.1 ∧ 0 ≤ z.2

variable [FloorRing K]

theorem int_of_nonneg {x : K} (h : 0 ≤ x) : int x = ⌊x⌋ := if_pos h

theorem inCell_int (h : Ahead z) : InCell z (int z.1) (int z.2) := by
  rw [int_of_nonneg h.1, int_of_nonneg h.2]
  exact ⟨Int.floor_le _, Int.lt_floor_add_one _, Int.floor_le _, Int.lt_floor_add_one _⟩

variable [IsStrictOrderedRing K]

/-- A cell of the map that holds a point is the one that is computed. -/
theorem int_of_inCell (h : InCell z c r) (hc : 0 ≤ c) (hr : 0 ≤ r) :
    c = int z.1 ∧ r = int z.2 := by
  have hc' : (0 : K) ≤ c := Int.cast_nonneg hc
  have hr' : (0 : K) ≤ r := Int.cast_nonneg hr
  rw [int_of_nonneg (hc'.trans h.1), int_of_nonneg (hr'.trans h.2.2.1)]
  exact ⟨(Int.floor_eq_iff.2 ⟨h.1, h.2.1⟩).symm, (Int.floor_eq_iff.2 ⟨h.2.2.1, h.2.2.2⟩).symm⟩

omit [FloorRing K] in
/-- Between two points that are as far along in their cells, the same holds
of the cells. -/
theorem blend_mem {x y : K} {m n k : ℤ} {a b δ : K} (hx : x - m ∈ Set.Ico 0 1)
    (hy : y - n ∈ Set.Ico 0 1) (ha : 0 ≤ a) (hb : 0 ≤ b) (hab : a + b = 1)
    (hk : a * m + b * n = k + δ) : k + δ ≤ a * x + b * y ∧ a * x + b * y < k + δ + 1 := by
  have hmem := convex_Ico (0 : K) 1 hx hy ha hb hab
  have hsplit : a • (x - m) + b • (y - n) = a * x + b * y - (k + δ) := by
    rw [← hk, smul_eq_mul, smul_eq_mul]
    ring
  rw [hsplit, Set.mem_Ico, sub_nonneg, sub_lt_iff_lt_add, add_comm 1] at hmem
  exact hmem

omit [FloorRing K] in
/-- **A place of the line** along its longer axis: some point of the beam is
as far, and is no more than half a cell off. -/
theorem exists_blend {x x' y y' : K} {m m' n n' a b i j s s' : ℤ} (hx : x - m ∈ Set.Ico 0 1)
    (hx' : x' - m' ∈ Set.Ico 0 1) (hy : y - n ∈ Set.Ico 0 1) (hy' : y' - n' ∈ Set.Ico 0 1)
    (hm : m' = m + s * a) (hn : n' = n + s' * b) (hs' : s' = 1 ∨ s' = -1) (ha : 0 < a)
    (hi : 0 ≤ i) (hia : i ≤ a) (hnear : |2 * (i * b - j * a)| ≤ a) :
    ∃ u v : K, 0 ≤ u ∧ 0 ≤ v ∧ u + v = 1 ∧
      (((m + s * i : ℤ) : K) ≤ u * x + v * x' ∧ u * x + v * x' < (m + s * i : ℤ) + 1) ∧
      ((n + s' * j : ℤ) : K) - 0.5 ≤ u * y + v * y' ∧
        u * y + v * y' < (n + s' * j : ℤ) + 1 + 0.5 := by
  have ha' : (0 : K) < a := Int.cast_pos.2 ha
  have hi' : (0 : K) ≤ i := Int.cast_nonneg hi
  have hia' : (i : K) ≤ a := Int.cast_le.2 hia
  -- how far off the place is
  have hoff : |(s' : K) * (i * b - j * a) / a| ≤ 0.5 := by
    have hcast : |2 * ((i : K) * b - j * a)| ≤ a := by exact_mod_cast hnear
    have hone : |(s' : K)| = 1 := by rcases hs' with rfl | rfl <;> simp
    rw [abs_div, abs_mul, hone, one_mul, abs_of_pos ha', div_le_iff₀ ha']
    rw [abs_mul, abs_two] at hcast
    linarith
  have hleft : (0 : K) ≤ 1 - i / a := sub_nonneg.2 ((div_le_one ha').2 hia')
  have hright : (0 : K) ≤ i / a := div_nonneg hi' ha'.le
  have hsum : (1 - i / a : K) + i / a = 1 := sub_add_cancel 1 _
  have hcol : (1 - i / a : K) * m + i / a * m' = (m + s * i : ℤ) + 0 := by
    rw [hm]
    push_cast
    field_simp
    ring
  have hrow : (1 - i / a : K) * n + i / a * n' =
      (n + s' * j : ℤ) + (s' : K) * (i * b - j * a) / a := by
    rw [hn]
    push_cast
    field_simp
    ring
  refine ⟨1 - i / a, i / a, hleft, hright, hsum, ?_, ?_⟩
  · simpa only [add_zero] using blend_mem hx hx' hleft hright hsum hcol
  · obtain ⟨hlow, hhigh⟩ := blend_mem hy hy' hleft hright hsum hrow
    obtain ⟨hbelow, habove⟩ := abs_le.1 hoff
    exact ⟨by linarith, by linarith⟩

end Beam

section Trace

variable {K : Type} [Field K] [LinearOrder K] [FloorRing K] {mp : OccupancyGrid K} {b : Beam K}
  {n : Counts} {i : ℕ}

/-- The cells a beam is drawn over, before that of its return. -/
def OccupancyGrid.drawn (mp : OccupancyGrid K) (b : Beam K) : List Walk :=
  let c0 := int (mp.coords b.sensor).1
  let r0 := int (mp.coords b.sensor).2
  let c1 := int (mp.coords b.ret).1
  let r1 := int (mp.coords b.ret).2
  lineCells c0 r0 |c1 - c0| |r1 - r0| (if c1 > c0 then 1 else -1) (if r1 > r0 then 1 else -1)

/-- The direction and the length of an axis. -/
theorem direction (m k : ℤ) : ((if k > m then 1 else -1 : ℤ) = 1 ∨
    (if k > m then 1 else -1 : ℤ) = -1) ∧ k = m + (if k > m then 1 else -1) * |k - m| := by
  split
  · rw [abs_of_pos (by omega)]
    exact ⟨Or.inl rfl, by ring⟩
  · rw [abs_of_nonpos (by omega)]
    exact ⟨Or.inr rfl, by ring⟩

theorem direction_ne_zero (m k : ℤ) : (if k > m then 1 else -1 : ℤ) ≠ 0 := by
  split <;> decide

/-- **What a beam adds** to the look-throughs. -/
theorem seen_trace : (mp.trace n b).seen i =
    n.seen i + (mp.drawn b).countP fun w => mp.Marks i w := by
  rw [← foldl_count_apply]
  exact congrFun (walk_line (abs_nonneg _) (abs_nonneg _) (direction_ne_zero _ _)
    (direction_ne_zero _ _) (direction _ _).2 (direction _ _).2) i

/-- A beam sees through a cell. -/
def OccupancyGrid.SeesThrough (mp : OccupancyGrid K) (i : ℕ) (b : Beam K) : Prop :=
  (mp.trace .zero b).seen i = 1

instance : Decidable (mp.SeesThrough i b) := inferInstanceAs (Decidable (_ = _))

theorem countP_drawn_le_one : ((mp.drawn b).countP fun w => mp.Marks i w) ≤ 1 :=
  countP_marks_le_one (pairwise_lineCells (abs_nonneg _) (abs_nonneg _) (direction_ne_zero _ _)
    (direction_ne_zero _ _))

/-- **A beam counts a cell once or not at all.** -/
theorem seen_trace_eq : (mp.trace n b).seen i =
    n.seen i + if mp.SeesThrough i b then 1 else 0 := by
  have hle : ((mp.drawn b).countP fun w => mp.Marks i w) ≤ 1 := countP_drawn_le_one
  have hsees : mp.SeesThrough i b ↔ ((mp.drawn b).countP fun w => mp.Marks i w) = 1 := by
    rw [OccupancyGrid.SeesThrough, seen_trace, Counts.zero, zero_add]
  rw [seen_trace]
  by_cases h : mp.SeesThrough i b
  · rw [if_pos h, hsees.1 h]
  · have hzero : ((mp.drawn b).countP fun w => mp.Marks i w) = 0 :=
      Nat.lt_one_iff.1 (hle.lt_of_ne (mt hsees.2 h))
    rw [if_neg h, hzero]

/-- **The count of a cell** is that of the beams that see through it. -/
theorem seen_foldl {beams : List (Beam K)} : (beams.foldl mp.trace n).seen i =
    n.seen i + beams.countP fun b => mp.SeesThrough i b := by
  induction beams generalizing n with
  | nil => rfl
  | cons b beams ih =>
    rw [List.foldl_cons, ih, seen_trace_eq, List.countP_cons]
    by_cases h : mp.SeesThrough i b
    · simp only [h, if_true, decide_true]
      omega
    · simp [h]

/-! ## How far a counted cell is from its beam -/

/-- The place of a counted cell. -/
theorem mem_drawn_of_seen {c r : ℕ} (hc : c < mp.width)
    (h : (mp.trace n b).seen (r * mp.width + c) ≠ n.seen (r * mp.width + c)) :
    ∃ w ∈ mp.drawn b, w.c = c ∧ w.r = r := by
  rw [seen_trace, Ne, Nat.add_eq_left, List.countP_eq_zero, not_forall₂] at h
  obtain ⟨w, hw, hmarks⟩ := h
  have hcell := (of_decide_eq_true (not_not.1 hmarks) : mp.Marks (r * mp.width + c) w).cell
  rw [Nat.mul_add_mod_of_lt hc, mul_comm, Nat.mul_add_div (Nat.zero_lt_of_lt hc),
    Nat.div_eq_of_lt hc, add_zero] at hcell
  exact ⟨w, hw, hcell⟩

/-- A point between the ends, as the map has it. -/
theorem coords_blend {p q : K × K} {u v : K} (h : u + v = 1) :
    mp.coords (u • p + v • q) =
      (u * (mp.coords p).1 + v * (mp.coords q).1, u * (mp.coords p).2 + v * (mp.coords q).2) := by
  have horigin : ∀ o : K, o = u * o + v * o := fun o => by rw [← add_mul, h, one_mul]
  simp only [OccupancyGrid.coords, Prod.fst_add, Prod.snd_add, Prod.smul_fst, Prod.smul_snd,
    smul_eq_mul, Prod.mk.injEq]
  constructor
  · nth_rewrite 1 [horigin mp.origin.1]
    ring
  · nth_rewrite 1 [horigin mp.origin.2]
    ring

variable [IsStrictOrderedRing K]

omit [FloorRing K] in
/-- How far into its cell a point is. -/
theorem InCell.sub_mem {z : K × K} {c r : ℤ} (h : InCell z c r) :
    z.1 - c ∈ Set.Ico 0 1 ∧ z.2 - r ∈ Set.Ico 0 1 := by
  obtain ⟨hc, hc', hr, hr'⟩ := h
  exact ⟨⟨sub_nonneg.2 hc, sub_lt_iff_lt_add'.2 hc'⟩, sub_nonneg.2 hr, sub_lt_iff_lt_add'.2 hr'⟩

/-- **Where the line is drawn**, the beam is near. -/
theorem near_of_drawn {w : Walk} (hw : w ∈ mp.drawn b) (hsensor : Ahead (mp.coords b.sensor))
    (hret : Ahead (mp.coords b.ret)) :
    ∃ p ∈ segment K b.sensor b.ret,
      InColumn (mp.coords p) w.c w.r ∨ InRow (mp.coords p) w.c w.r := by
  obtain ⟨n, hmax, rfl⟩ := mem_lineCells hw
  obtain ⟨hx, hy⟩ := (inCell_int hsensor).sub_mem
  obtain ⟨hx', hy'⟩ := (inCell_int hret).sub_mem
  obtain ⟨hsc, hm⟩ := direction (int (mp.coords b.sensor).1) (int (mp.coords b.ret).1)
  obtain ⟨hsr, hk⟩ := direction (int (mp.coords b.sensor).2) (int (mp.coords b.ret).2)
  obtain ⟨⟨hi, hia⟩, hj, hjb⟩ := pen_bounds (abs_nonneg _) (abs_nonneg _) hmax.le
  rcases pen_near (abs_nonneg _) (abs_nonneg _) hmax.le with
    ⟨hlong, hnear, hle⟩ | ⟨hlong, hnear, hle⟩
  · -- the line goes along the columns
    rw [max_eq_left hle] at hmax
    obtain ⟨u, v, hu, hv, huv, ⟨hlow, hhigh⟩, hbelow, habove⟩ := exists_blend
      hx hx' hy hy' hm hk hsr ((Int.natCast_nonneg n).trans_lt hmax) hi hia hnear
    refine ⟨_, ⟨u, v, hu, hv, huv, rfl⟩, Or.inl ?_⟩
    rw [coords_blend huv]
    exact ⟨hlow, hhigh, hbelow, habove⟩
  · -- along the rows
    rw [max_eq_right hle] at hmax
    obtain ⟨u, v, hu, hv, huv, ⟨hlow, hhigh⟩, hbelow, habove⟩ := exists_blend
      hy hy' hx hx' hk hm hsc ((Int.natCast_nonneg n).trans_lt hmax) hj hjb hnear
    refine ⟨_, ⟨u, v, hu, hv, huv, rfl⟩, Or.inr ?_⟩
    rw [coords_blend huv]
    exact ⟨hbelow, habove, hlow, hhigh⟩

omit [IsStrictOrderedRing K] in
/-- The line is never drawn over the cell of the return. -/
theorem drawn_ne_ret {w : Walk} (hw : w ∈ mp.drawn b) :
    (w.c, w.r) ≠ (int (mp.coords b.ret).1, int (mp.coords b.ret).2) := by
  obtain ⟨n, hmax, rfl⟩ := mem_lineCells hw
  exact mt (penWalk_end_iff (abs_nonneg _) (abs_nonneg _) (direction_ne_zero _ _)
    (direction_ne_zero _ _) hmax.le (direction _ _).2 (direction _ _).2).1 hmax.ne

/-- **A beam counts what is near it.** A cell whose count it raises has a
point of the beam in its column and no more than half a cell below it or
above, or in its row and no more than half a cell beside it; and it is not
the cell of the return point. -/
def CountsNear (mp : OccupancyGrid K) (b : Beam K) : Prop :=
  ∀ (n : Counts) (c r : ℕ), c < mp.width →
    (mp.trace n b).seen (r * mp.width + c) ≠ n.seen (r * mp.width + c) →
    (Ahead (mp.coords b.sensor) → Ahead (mp.coords b.ret) → ∃ p ∈ segment K b.sensor b.ret,
      InColumn (mp.coords p) c r ∨ InRow (mp.coords p) c r) ∧ ¬ InCell (mp.coords b.ret) c r

theorem counts_near : CountsNear mp b := by
  intro n c r hc hseen
  obtain ⟨w, hw, hwc, hwr⟩ := mem_drawn_of_seen hc hseen
  refine ⟨fun hsensor hret => ?_, fun hcell => drawn_ne_ret hw ?_⟩
  · rw [← hwc, ← hwr]
    exact near_of_drawn hw hsensor hret
  · obtain ⟨hc', hr'⟩ := int_of_inCell hcell (Int.natCast_nonneg c) (Int.natCast_nonneg r)
    rw [hwc, hwr, hc', hr']

/-! ## The whole bag -/

/-- All the beams of a bag, each from the pose next in time to its scan. -/
def beamsOfBag (trig : Trig K) (msgs : List (ℤ × Message K)) : List (Beam K) :=
  match (msgs.map Prod.fst).min? with
  | some t0 => msgs.flatMap (beamsOf trig t0 (poses trig t0 msgs))
  | none => []

omit [IsStrictOrderedRing K] in
/-- What is erased has been seen through often enough. -/
theorem minSeen_of_stale {trig : Trig K} {msgs : List (ℤ × Message K)} {out : Cleaned}
    (hmap : (msgs.findSome? fun m => m.2.map?) = some mp) (h : cleanMap trig msgs = .ok out)
    (hi : i ∈ out.stale) :
    MIN_SEEN ≤ (beamsOfBag trig msgs).countP fun b => mp.SeesThrough i b := by
  rw [cleanMap, hmap] at h
  cases ht0 : (msgs.map Prod.fst).min? with
  | none =>
    rw [ht0] at h
    cases h
  | some t0 =>
    simp only [ht0] at h
    repeat' split at h
    all_goals cases h
    have hseen := (of_decide_eq_true (List.mem_filter.1 hi).2).1
    rw [OccupancyGrid.traceAll, ← List.foldl_flatMap, seen_foldl] at hseen
    simpa [Counts.zero, beamsOfBag, ht0] using hseen

/-- **Cells are erased on beams that came near.** Every beam counts what is
near it and not the cell of its return, once at most; and in every bag, an
erased cell has been counted by as many beams as the threshold says. -/
theorem erased_on_near_beams (trig : Trig K) :
    (∀ (mp : OccupancyGrid K) (b : Beam K), CountsNear mp b) ∧
      ∀ (msgs : List (ℤ × Message K)) (out : Cleaned) (mp : OccupancyGrid K),
        (msgs.findSome? fun m => m.2.map?) = some mp → cleanMap trig msgs = .ok out →
          ∀ i ∈ out.stale, MIN_SEEN ≤ (beamsOfBag trig msgs).countP fun b => mp.SeesThrough i b :=
  ⟨fun _ _ => counts_near, fun _ _ _ hmap h _ hi => minSeen_of_stale hmap h hi⟩

end Trace

/-- The trigonometry of angle zero. -/
def headOn : Trig ℚ := ⟨fun _ => 1, fun _ => 0, fun _ _ => 0⟩

/-- Four cells, of which the second is occupied. -/
def passage : OccupancyGrid ℚ := ⟨1, (0, 0), 4, 1, [0, 100, 0, 0]⟩

/-- A vehicle in the first cell, and fifty beams that return from the last. -/
def lookThrough : List (ℤ × Message ℚ) :=
  [(0, .map passage),
    (0, .tf [⟨"map", "odom", (0, 0), 0, 0, 0, 1⟩,
      ⟨"odom", "base_footprint", (1 / 2, 1 / 2), 0, 0, 0, 1⟩]),
    (0, .scan ⟨0, 0, 0, 10, List.replicate 50 (some (5 / 2))⟩)]

theorem erased_on_near_beams_lookThrough :
    MIN_SEEN ≤ (beamsOfBag headOn lookThrough).countP fun b => passage.SeesThrough 1 b :=
  (erased_on_near_beams headOn).2 lookThrough
    ⟨[1], [254, 254, 254, 254], [254, 0, 254, 254]⟩ passage rfl (by decide +kernel) 1 (by decide)

/-! ## Not only what a beam crosses -/

/-- What would be counted if the line were the beam's own: cells that it
crosses, or touches. -/
def CountsCrossed {K : Type} [Field K] [LinearOrder K] [FloorRing K] (mp : OccupancyGrid K)
    (b : Beam K) : Prop :=
  ∀ (n : Counts) (c r : ℕ), c < mp.width →
    (mp.trace n b).seen (r * mp.width + c) ≠ n.seen (r * mp.width + c) →
    (∃ p ∈ segment K b.sensor b.ret, (c ≤ (mp.coords p).1 ∧ (mp.coords p).1 ≤ c + 1) ∧
      r ≤ (mp.coords p).2 ∧ (mp.coords p).2 ≤ r + 1) ∧ ¬ InCell (mp.coords b.ret) c r

noncomputable def realTrig : Trig ℝ := ⟨Real.cos, Real.sin, fun y x => Complex.arg ⟨x, y⟩⟩

/-- Two rows of three cells, of which the second is occupied. -/
noncomputable def corner : OccupancyGrid ℝ := ⟨1, (0, 0), 3, 2, [0, 100, 0, 0, 0, 0]⟩

/-- Two columns and one row, from the top of the first cell. -/
noncomputable def glancing : Beam ℝ :=
  beamAt realTrig (0.05, 0.95) (Real.arctan 0.5) (2.0 * √(1 + 0.5 ^ 2))

theorem glancing_eq : glancing = ⟨(1 / 20, 19 / 20), (41 / 20, 39 / 20)⟩ := by
  have hroot : √(1 + (0.5 : ℝ) ^ 2) ≠ 0 := (Real.sqrt_pos.2 (by norm_num)).ne'
  have hcos : 2.0 * √(1 + (0.5 : ℝ) ^ 2) * Real.cos (Real.arctan 0.5) = 2.0 := by
    rw [Real.cos_arctan, mul_assoc, mul_one_div_cancel hroot, mul_one]
  have hsin : 2.0 * √(1 + (0.5 : ℝ) ^ 2) * Real.sin (Real.arctan 0.5) = 2.0 * 0.5 := by
    rw [Real.sin_arctan, mul_assoc, mul_div_cancel₀ _ hroot]
  simp only [glancing, beamAt, realTrig, hcos, hsin]
  norm_num

/-- **A cell is counted that the beam passes by**: it is in the second row
before it has reached the second column. -/
theorem glancing_counts_corner : ¬ ∀ (mp : OccupancyGrid ℝ) (sensor : ℝ × ℝ) (a rng : ℝ),
    0 < mp.resolution → CountsCrossed mp (beamAt realTrig sensor a rng) := by
  intro h
  have hcounts : CountsCrossed corner glancing := h corner _ _ _ one_pos
  rw [glancing_eq] at hcounts
  have hcells : int (1 / 20 : ℝ) = 0 ∧ int (19 / 20 : ℝ) = 0 ∧ int (41 / 20 : ℝ) = 2 ∧
      int (39 / 20 : ℝ) = 1 := by
    refine ⟨?_, ?_, ?_, ?_⟩ <;> rw [int_of_nonneg (by norm_num), Int.floor_eq_iff] <;> norm_num
  obtain ⟨h0, h0', h2, h1⟩ := hcells
  have hseen : (corner.trace .zero ⟨(1 / 20, 19 / 20), (41 / 20, 39 / 20)⟩).seen 1 = 1 := by
    have hwalk : corner.walk 2 1 2 1 1 1 600 ⟨1, 0, 0⟩ (fun _ => 0) 1 = 1 := by decide +kernel
    have hcoords : ∀ p : ℝ × ℝ, corner.coords p = p := fun p => by
      simp [OccupancyGrid.coords, corner]
    simp only [OccupancyGrid.trace, hcoords, h0, h0', h2, h1]
    exact hwalk
  obtain ⟨⟨p, ⟨u, v, hu, hv, huv, rfl⟩, ⟨hleft, -⟩, -, htop⟩, -⟩ :=
    hcounts .zero 1 0 (by decide) (by rw [show 0 * corner.width + 1 = 1 from rfl, hseen]; decide)
  rw [coords_blend huv] at hleft htop
  norm_num [OccupancyGrid.coords, corner] at hleft htop
  linarith

end Simulation

end VehicleStack
