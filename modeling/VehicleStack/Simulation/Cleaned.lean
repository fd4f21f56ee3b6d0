import VehicleStack.Simulation.Beams

/-!
# The map cleaner — what is written

A cell of the map that is written is free, occupied or unknown as it was,
except that an occupied one is free where the beams of the bag refute it:
often enough seen through, and hardly ever returned from (`cleaned_exactly`).
Run once more over the map that it has written, with the same bag, the tool
erases nothing and writes that map again (`cleaned_again`).
-/

namespace VehicleStack

namespace Simulation

/-! ## The picture -/

/-- A picture by its rows, the last row first. -/
theorem getElem?_rows {α : Type} {f : ℕ → ℕ → α} {w c : ℕ} (hc : c < w) :
    ∀ {h r : ℕ}, r < h →
      ((List.range h).reverse.flatMap fun r => (List.range w).map (f r))[(h - 1 - r) * w + c]? =
        some (f r c) := by
  intro h
  induction h with
  | zero =>
    intro r hr
    omega
  | succ h ih =>
    intro r hr
    have hrow : ((List.range w).map (f h)).length = w := by simp
    rw [List.range_succ, List.reverse_append, List.reverse_singleton, List.singleton_append,
      List.flatMap_cons]
    by_cases hlast : r = h
    · subst hlast
      have hidx : (r + 1 - 1 - r) * w + c = c := by
        rw [Nat.add_sub_cancel, Nat.sub_self, Nat.zero_mul, Nat.zero_add]
      rw [hidx, List.getElem?_append_left (by omega), List.getElem?_map,
        List.getElem?_range hc]
      rfl
    · have hback : h + 1 - 1 - r = h - 1 - r + 1 := by omega
      have hidx : (h + 1 - 1 - r) * w + c = w + ((h - 1 - r) * w + c) := by
        rw [hback, Nat.succ_mul]
        omega
      rw [hidx, List.getElem?_append_right (by omega), hrow, Nat.add_sub_cancel_left]
      exact ih (by omega)

section Cleaned

variable {K : Type} {mp : OccupancyGrid K} {stale : List ℕ} {i r c : ℕ}

theorem mem_occ : i ∈ mp.occ ↔ i < mp.data.length ∧ 65 ≤ mp.data.getD i 0 := by
  unfold OccupancyGrid.occ
  rw [List.mem_filter, List.mem_range, decide_eq_true_iff]

theorem length_picture : (mp.picture stale).length = mp.height * mp.width := by
  unfold OccupancyGrid.picture
  simp [List.length_flatMap]

theorem getElem?_picture (hr : r < mp.height) (hc : c < mp.width) :
    (mp.picture stale)[(mp.height - 1 - r) * mp.width + c]? =
      some (pixel stale (r * mp.width + c) (mp.data.getD (r * mp.width + c) 0)) :=
  getElem?_rows hc hr

/-- What a pixel says of its cell. -/
theorem pixel_iff {v : ℤ} (hstale : i ∈ stale → 65 ≤ v) :
    ((pixel stale i v).1 = 254 ↔ 0 ≤ v ∧ v < 65 ∨ i ∈ stale) ∧
      ((pixel stale i v).1 = 0 ↔ 65 ≤ v ∧ i ∉ stale) ∧ ((pixel stale i v).1 = 205 ↔ v < 0) ∧
      ((pixel stale i v).2 = 0 ↔ i ∈ stale) := by
  unfold pixel
  by_cases hi : i ∈ stale
  · have hv := hstale hi
    simp only [hi, if_true]
    refine ⟨by simp, by simp, ?_, by simp⟩
    omega
  · simp only [hi, if_false]
    split
    · simp
      omega
    · split
      · simp
        omega
      · simp
        omega

variable [Field K] [LinearOrder K] [FloorRing K] {trig : Trig K} {msgs : List (ℤ × Message K)}
  {out : Cleaned} {b : Beam K} {beams : List (Beam K)} {n : Counts}

/-! ## What the beams say -/

/-- A beam returns from a cell. -/
def OccupancyGrid.ReturnsFrom (mp : OccupancyGrid K) (i : ℕ) (b : Beam K) : Prop :=
  (mp.trace .zero b).hit i = 1

instance : Decidable (mp.ReturnsFrom i b) := inferInstanceAs (Decidable (_ = _))

/-- The cell of a beam's return. -/
def OccupancyGrid.landing (mp : OccupancyGrid K) (b : Beam K) : Walk :=
  ⟨0, int (mp.coords b.ret).1, int (mp.coords b.ret).2⟩

theorem hit_trace : (mp.trace n b).hit i = n.hit i + if mp.Marks i (mp.landing b) then 1 else 0 :=
  count_apply (w := mp.landing b)

theorem returnsFrom_iff : mp.ReturnsFrom i b ↔ mp.Marks i (mp.landing b) := by
  unfold OccupancyGrid.ReturnsFrom
  rw [hit_trace, Counts.zero, zero_add]
  split
  · rename_i h
    exact iff_of_true rfl h
  · rename_i h
    exact iff_of_false Nat.zero_ne_one h

/-- **The returns from a cell** are counted as the look-throughs are. -/
theorem hit_foldl : (beams.foldl mp.trace n).hit i =
    n.hit i + beams.countP fun b => mp.ReturnsFrom i b := by
  induction beams generalizing n with
  | nil => rfl
  | cons b beams ih =>
    rw [List.foldl_cons, ih, hit_trace, List.countP_cons]
    by_cases h : mp.ReturnsFrom i b
    · have hmarks := returnsFrom_iff.1 h
      simp only [h, hmarks, if_true, decide_true]
      omega
    · have hmarks := mt returnsFrom_iff.2 h
      simp [h, hmarks]

/-- The beams speak against a cell: enough of them see through it, and
hardly any return from it. -/
def OccupancyGrid.Refuted (mp : OccupancyGrid K) (beams : List (Beam K)) (i : ℕ) : Prop :=
  MIN_SEEN ≤ (beams.countP fun b => mp.SeesThrough i b) ∧
    ((beams.countP fun b => mp.ReturnsFrom i b : ℕ) : ℚ) ≤
      HIT_RATIO * (beams.countP fun b => mp.SeesThrough i b : ℕ)

instance : Decidable (mp.Refuted beams i) := inferInstanceAs (Decidable (_ ∧ _))

theorem mem_stale_foldl :
    i ∈ mp.stale (beams.foldl mp.trace .zero) ↔ i ∈ mp.occ ∧ mp.Refuted beams i := by
  unfold OccupancyGrid.stale
  rw [List.mem_filter, decide_eq_true_iff, seen_foldl, hit_foldl, Counts.zero, zero_add, zero_add]
  rfl

/-! ## The run -/

/-- When the tool writes a map, and which. -/
theorem cleanMap_eq_ok_iff (hmap : (msgs.findSome? fun m => m.2.map?) = some mp) :
    cleanMap trig msgs = .ok out ↔ ∃ t0, (msgs.map Prod.fst).min? = some t0 ∧
      poses trig t0 msgs ≠ [] ∧
      ¬ (mp.resolution = 0 ∧ msgs.filterMap (fun m => m.2.scan?) ≠ []) ∧
      mp.width * mp.height ≤ mp.data.length ∧
      out = ⟨mp.stale ((beamsOfBag trig msgs).foldl mp.trace .zero),
        (mp.picture (mp.stale ((beamsOfBag trig msgs).foldl mp.trace .zero))).map Prod.fst,
        (mp.picture (mp.stale ((beamsOfBag trig msgs).foldl mp.trace .zero))).map Prod.snd⟩ := by
  have herror : ∀ e : Failure, ¬ (Except.error e : Except Failure Cleaned) = .ok out := by
    intro e h
    cases h
  unfold cleanMap
  rw [hmap]
  rcases ht0 : (msgs.map Prod.fst).min? with _ | t0
  · exact iff_of_false (herror .noMessages) fun h => h.elim fun t0 ht0 => absurd ht0.1 (by simp)
  · have hbeams : mp.traceAll trig t0 (poses trig t0 msgs) msgs =
        (beamsOfBag trig msgs).foldl mp.trace .zero := by
      rw [OccupancyGrid.traceAll, ← List.foldl_flatMap, beamsOfBag, ht0]
    simp only [Option.some.injEq, exists_eq_left', hbeams]
    by_cases hposes : poses trig t0 msgs = []
    · rw [if_pos hposes]
      exact iff_of_false (herror _) fun h => h.1 hposes
    rw [if_neg hposes]
    by_cases hres : mp.resolution = 0 ∧ msgs.filterMap (fun m => m.2.scan?) ≠ []
    · rw [if_pos hres]
      exact iff_of_false (herror _) fun h => h.2.1 hres
    rw [if_neg hres]
    by_cases hlen : mp.data.length < mp.width * mp.height
    · rw [if_pos hlen]
      exact iff_of_false (herror _) fun h => absurd h.2.2.1 (by omega)
    rw [if_neg hlen, Except.ok.injEq, eq_comm]
    exact ⟨fun h => ⟨hposes, hres, by omega, h⟩, fun h => h.2.2.2⟩

/-- The cells that a run erases. -/
theorem mem_stale (hmap : (msgs.findSome? fun m => m.2.map?) = some mp)
    (h : cleanMap trig msgs = .ok out) :
    i ∈ out.stale ↔ i ∈ mp.occ ∧ mp.Refuted (beamsOfBag trig msgs) i := by
  obtain ⟨t0, -, -, -, -, rfl⟩ := (cleanMap_eq_ok_iff hmap).1 h
  exact mem_stale_foldl

/-- What a run writes for a cell. -/
theorem getElem?_out (hmap : (msgs.findSome? fun m => m.2.map?) = some mp)
    (h : cleanMap trig msgs = .ok out) (hr : r < mp.height) (hc : c < mp.width) :
    out.px[(mp.height - 1 - r) * mp.width + c]? =
        some (pixel out.stale (r * mp.width + c) (mp.data.getD (r * mp.width + c) 0)).1 ∧
      out.diff[(mp.height - 1 - r) * mp.width + c]? =
        some (pixel out.stale (r * mp.width + c) (mp.data.getD (r * mp.width + c) 0)).2 := by
  obtain ⟨t0, -, -, -, -, rfl⟩ := (cleanMap_eq_ok_iff hmap).1 h
  rw [List.getElem?_map, List.getElem?_map, getElem?_picture hr hc]
  exact ⟨rfl, rfl⟩

/-- **What is cleaned, and what is not.** In every bag: a cell is written
unknown where it was, free where it was or where the beams refute it, and
occupied where it was and they do not. The rows go from the last to the
first, and the other picture shows what is erased. -/
theorem cleaned_exactly (trig : Trig K) (msgs : List (ℤ × Message K)) (mp : OccupancyGrid K)
    (out : Cleaned) (hmap : (msgs.findSome? fun m => m.2.map?) = some mp)
    (h : cleanMap trig msgs = .ok out) :
    out.px.length = mp.height * mp.width ∧ ∀ r < mp.height, ∀ c < mp.width,
      let v := mp.data.getD (r * mp.width + c) 0
      let refuted := mp.Refuted (beamsOfBag trig msgs) (r * mp.width + c)
      let k := (mp.height - 1 - r) * mp.width + c
      (out.px[k]? = some 254 ↔ 0 ≤ v ∧ v < 65 ∨ 65 ≤ v ∧ refuted) ∧
        (out.px[k]? = some 0 ↔ 65 ≤ v ∧ ¬ refuted) ∧ (out.px[k]? = some 205 ↔ v < 0) ∧
        (out.diff[k]? = some 0 ↔ 65 ≤ v ∧ refuted) := by
  constructor
  · obtain ⟨t0, -, -, -, -, rfl⟩ := (cleanMap_eq_ok_iff hmap).1 h
    rw [List.length_map, length_picture]
  · intro r hr c hc
    dsimp only
    have hlen : r * mp.width + c < mp.data.length := by
      obtain ⟨t0, -, -, -, hdata, -⟩ := (cleanMap_eq_ok_iff hmap).1 h
      have hrows : (r + 1) * mp.width ≤ mp.height * mp.width := Nat.mul_le_mul_right _ hr
      rw [Nat.succ_mul] at hrows
      rw [mul_comm] at hdata
      omega
    have hstale : r * mp.width + c ∈ out.stale ↔ 65 ≤ mp.data.getD (r * mp.width + c) 0 ∧
        mp.Refuted (beamsOfBag trig msgs) (r * mp.width + c) := by
      rw [mem_stale hmap h, mem_occ, and_iff_right hlen]
    obtain ⟨hpx, hdiff⟩ := getElem?_out hmap h hr hc
    obtain ⟨hfree, hocc, hunknown, herased⟩ := pixel_iff fun hi => (hstale.1 hi).1
    simp only [hpx, hdiff, Option.some.injEq]
    refine ⟨by rw [hfree, hstale], ?_, hunknown, by rw [herased, hstale]⟩
    rw [hocc, hstale]
    tauto

end Cleaned

/-- Fifty beams have gone through the occupied cell of a passage. -/
theorem cleaned_exactly_lookThrough :
    let out : Cleaned := ⟨[1], [254, 254, 254, 254], [254, 0, 254, 254]⟩
    out.px.length = 1 * 4 ∧ ∀ r < 1, ∀ c < 4,
      let v := passage.data.getD (r * 4 + c) 0
      let refuted := passage.Refuted (beamsOfBag headOn lookThrough) (r * 4 + c)
      let k := (1 - 1 - r) * 4 + c
      (out.px[k]? = some 254 ↔ 0 ≤ v ∧ v < 65 ∨ 65 ≤ v ∧ refuted) ∧
        (out.px[k]? = some 0 ↔ 65 ≤ v ∧ ¬ refuted) ∧ (out.px[k]? = some 205 ↔ v < 0) ∧
        (out.diff[k]? = some 0 ↔ 65 ≤ v ∧ refuted) :=
  cleaned_exactly headOn lookThrough passage
    ⟨[1], [254, 254, 254, 254], [254, 0, 254, 254]⟩ rfl (by decide +kernel)

/-! ## Once more -/

section Again

variable {K : Type} {mp mp' : OccupancyGrid K} {i : ℕ} [Field K] [LinearOrder K] [FloorRing K]
  {trig : Trig K} {msgs : List (ℤ × Message K)} {out : Cleaned} {beams : List (Beam K)}

/-- A map that says of each cell what the picture says. -/
structure OccupancyGrid.Reads (mp' mp : OccupancyGrid K) (px : List ℕ) : Prop where
  resolution : mp'.resolution = mp.resolution
  origin : mp'.origin = mp.origin
  width : mp'.width = mp.width
  height : mp'.height = mp.height
  length : mp'.data.length = mp.height * mp.width
  occupied : ∀ r < mp.height, ∀ c < mp.width, 65 ≤ mp'.data.getD (r * mp.width + c) 0 ↔
    px[(mp.height - 1 - r) * mp.width + c]? = some 0
  unknown : ∀ r < mp.height, ∀ c < mp.width, mp'.data.getD (r * mp.width + c) 0 < 0 ↔
    px[(mp.height - 1 - r) * mp.width + c]? = some 205

/-- The message with another map in it. -/
def Message.onto (mp' : OccupancyGrid K) : Message K → Message K
  | .map _ => .map mp'
  | m => m

/-- The bag as if it had been recorded with another map. -/
def replay (mp' : OccupancyGrid K) (msgs : List (ℤ × Message K)) : List (ℤ × Message K) :=
  msgs.map fun m => (m.1, m.2.onto mp')

omit [Field K] [LinearOrder K] [FloorRing K] in
theorem findSome?_replay (mp' : OccupancyGrid K)
    (hmap : (msgs.findSome? fun m => m.2.map?) = some mp) :
    ((replay mp' msgs).findSome? fun m => m.2.map?) = some mp' := by
  induction msgs with
  | nil => cases hmap
  | cons m msgs ih =>
    obtain ⟨ts, g | s | tr⟩ := m
    · rfl
    · exact ih hmap
    · exact ih hmap

omit [Field K] [LinearOrder K] [FloorRing K] in
theorem times_replay : (replay mp' msgs).map Prod.fst = msgs.map Prod.fst := by
  unfold replay
  rw [List.map_map]
  rfl

omit [Field K] [LinearOrder K] [FloorRing K] in
theorem scans_replay : (replay mp' msgs).filterMap (fun m => m.2.scan?) =
    msgs.filterMap fun m => m.2.scan? := by
  unfold replay
  rw [List.filterMap_map]
  refine List.filterMap_congr fun m _ => ?_
  obtain ⟨ts, g | s | tr⟩ := m <;> rfl

omit [LinearOrder K] [FloorRing K] in
/-- The map has no part in where the vehicle is, -/
theorem poses_replay {t0 : ℤ} : poses trig t0 (replay mp' msgs) = poses trig t0 msgs := by
  unfold poses replay
  rw [List.foldl_map]
  congr 2
  funext ch m
  obtain ⟨ts, g | s | tr⟩ := m <;> rfl

omit [FloorRing K] in
/-- nor in what its beams are. -/
theorem beamsOfBag_replay : beamsOfBag trig (replay mp' msgs) = beamsOfBag trig msgs := by
  unfold beamsOfBag
  rw [times_replay]
  split
  · rename_i t0 ht0
    rw [poses_replay, replay, List.flatMap_map]
    congr 1
    funext m
    obtain ⟨ts, g | s | tr⟩ := m <;> rfl
  · rfl

variable (hreads : mp'.Reads mp out.px)

include hreads

omit [LinearOrder K] [FloorRing K] in
theorem coords_of_reads {p : K × K} : mp'.coords p = mp.coords p := by
  unfold OccupancyGrid.coords
  rw [hreads.origin, hreads.resolution]

omit [Field K] [LinearOrder K] [FloorRing K] in
/-- A cell that is occupied still is marked as before. -/
theorem marks_of_reads {w : Walk} (hi : i ∈ mp'.occ) (hi' : i ∈ mp.occ) :
    mp'.Marks i w ↔ mp.Marks i w := by
  unfold OccupancyGrid.Marks
  rw [hreads.width, hreads.height]
  simp only [hi, hi']

/-- So the beams say of it what they have said. -/
theorem refuted_of_reads (hi : i ∈ mp'.occ) (hi' : i ∈ mp.occ) :
    mp'.Refuted beams i ↔ mp.Refuted beams i := by
  have hsees : ∀ b, mp'.SeesThrough i b ↔ mp.SeesThrough i b := by
    intro b
    have hdrawn : mp'.drawn b = mp.drawn b := by
      unfold OccupancyGrid.drawn
      rw [coords_of_reads hreads, coords_of_reads hreads]
    unfold OccupancyGrid.SeesThrough
    rw [seen_trace, seen_trace, hdrawn]
    simp only [marks_of_reads hreads hi hi']
  have hreturns : ∀ b, mp'.ReturnsFrom i b ↔ mp.ReturnsFrom i b := by
    intro b
    have hlanding : mp'.landing b = mp.landing b := by
      unfold OccupancyGrid.landing
      rw [coords_of_reads hreads]
    rw [returnsFrom_iff, returnsFrom_iff, hlanding, marks_of_reads hreads hi hi']
  unfold OccupancyGrid.Refuted
  simp only [hsees, hreturns]

omit hreads

/-- The place of a cell by its index. -/
theorem exists_cell {h w i : ℕ} (hi : i < h * w) : ∃ r < h, ∃ c < w, r * w + c = i := by
  have hw : 0 < w := by
    rcases Nat.eq_zero_or_pos w with rfl | hw
    · omega
    · exact hw
  refine ⟨i / w, (Nat.div_lt_iff_lt_mul hw).2 hi, i % w, Nat.mod_lt i hw, ?_⟩
  rw [mul_comm]
  exact Nat.div_add_mod i w

/-- **Cleaning is done once.** Over the map that a run has written, the same
bag erases nothing, and the map is written again. -/
theorem cleaned_again (trig : Trig K) (msgs : List (ℤ × Message K)) (mp mp' : OccupancyGrid K)
    (out : Cleaned) (hmap : (msgs.findSome? fun m => m.2.map?) = some mp)
    (h : cleanMap trig msgs = .ok out) (hreads : mp'.Reads mp out.px) :
    ∃ out', cleanMap trig (replay mp' msgs) = .ok out' ∧ out'.stale = [] ∧ out'.px = out.px := by
  obtain ⟨hsize, hexact⟩ := cleaned_exactly trig msgs mp out hmap h
  obtain ⟨t0, ht0, hposes, hres, hlen, -⟩ := (cleanMap_eq_ok_iff hmap).1 h
  have hmap' := findSome?_replay mp' hmap
  have hwritten : ∃ out', cleanMap trig (replay mp' msgs) = .ok out' := by
    refine ⟨_, (cleanMap_eq_ok_iff hmap').2 ⟨t0, ?_, ?_, ?_, ?_, rfl⟩⟩
    · rwa [times_replay]
    · rwa [poses_replay]
    · rwa [scans_replay, hreads.resolution]
    · rw [hreads.length, hreads.width, hreads.height, mul_comm]
  obtain ⟨out', hout'⟩ := hwritten
  -- what is occupied still has been kept, and the beams say of it what they have said
  have hnone : out'.stale = [] := by
    rw [List.eq_nil_iff_forall_not_mem]
    intro i hi
    obtain ⟨hocc', hrefuted'⟩ := (mem_stale hmap' hout').1 hi
    obtain ⟨hlen', hv'⟩ := mem_occ.1 hocc'
    rw [hreads.length] at hlen'
    obtain ⟨r, hr, c, hc, rfl⟩ := exists_cell hlen'
    obtain ⟨-, hkept, -, -⟩ := hexact r hr c hc
    obtain ⟨hv, hspared⟩ := hkept.1 ((hreads.occupied r hr c hc).1 hv')
    rw [mul_comm] at hlen
    have hocc : r * mp.width + c ∈ mp.occ := mem_occ.2 ⟨hlen'.trans_le hlen, hv⟩
    rw [beamsOfBag_replay] at hrefuted'
    exact hspared ((refuted_of_reads hreads hocc' hocc).1 hrefuted')
  refine ⟨out', hout', hnone, ?_⟩
  have hsize' := (cleaned_exactly trig (replay mp' msgs) mp' out' hmap' hout').1
  rw [hreads.width, hreads.height] at hsize'
  refine List.ext_getElem? fun k => ?_
  rcases Nat.lt_or_ge k (mp.height * mp.width) with hk | hk
  · obtain ⟨row, hrow, c, hc, rfl⟩ := exists_cell hk
    obtain ⟨r, hr, hback⟩ : ∃ r < mp.height, mp.height - 1 - r = row :=
      ⟨mp.height - 1 - row, by omega, by omega⟩
    obtain ⟨hfree, hocc, hunknown, -⟩ := hexact r hr c hc
    have hread' := hreads.occupied r hr c hc
    have hread'' := hreads.unknown r hr c hc
    have hwrite := (getElem?_out hmap' hout' (by rwa [hreads.height]) (by rwa [hreads.width])).1
    rw [hreads.height, hreads.width, hnone] at hwrite
    rw [hback] at hfree hocc hunknown hread' hread'' hwrite
    rw [hwrite]
    unfold pixel
    rw [if_neg List.not_mem_nil]
    split
    · rename_i hv
      exact (hread'.1 hv).symm
    · rename_i hv
      split
      · rename_i hneg
        exact (hread''.1 hneg).symm
      · rename_i hneg
        rw [hread', hocc] at hv
        rw [hread'', hunknown] at hneg
        refine (hfree.2 ?_).symm
        by_cases hsmall : mp.data.getD (r * mp.width + c) 0 < 65
        · exact Or.inl ⟨by omega, hsmall⟩
        · have hlarge : 65 ≤ mp.data.getD (r * mp.width + c) 0 := by omega
          exact Or.inr ⟨hlarge, not_not.1 fun hspared => hv ⟨hlarge, hspared⟩⟩
  · rw [List.getElem?_eq_none (by omega), List.getElem?_eq_none (by omega)]

end Again

/-- The same passage, cleaned. -/
def openPassage : OccupancyGrid ℚ := { passage with data := [0, 0, 0, 0] }

theorem cleaned_again_lookThrough :
    ∃ out', cleanMap headOn (replay openPassage lookThrough) = .ok out' ∧ out'.stale = [] ∧
      out'.px = [254, 254, 254, 254] :=
  cleaned_again headOn lookThrough passage openPassage
    ⟨[1], [254, 254, 254, 254], [254, 0, 254, 254]⟩ rfl (by decide +kernel)
    ⟨rfl, rfl, rfl, rfl, rfl, by decide, by decide⟩

end Simulation

end VehicleStack
