import VehicleStack.Common.Lines
import VehicleStack.Common.Outline
import VehicleStack.Simulation.ParamFile

/-!
# The parameter file with another controller — `mk_rpp`

The tool puts the parameters of another controller in the place of the block
below the first `FollowPath:`. What it takes for the block are the blank
lines and those indented farther than the header. Read by its indentation,
the file then has these parameters in the block and the keys outside it as
before (`rpp_swapped_in`), unless a line without a key has ended the block
early. Run on its own output the tool writes the same once more, if the
header is indented less than the lines it puts below it (`rpp_again_iff`).
-/

namespace VehicleStack

namespace Simulation

/-! ## The tool -/

/-- `rpp.split('\n')`. -/
def rpp : List (List Char) :=
  ["      # Regulated Pure Pursuit, swapped in for MPPI to test whether the endgame stall is",
    "      # specific to MPPI's sampling or is a property of the vehicle/path.",
    "      # use_rotate_to_heading MUST be false: it commands an in-place rotation, which an",
    "      # Ackermann vehicle cannot perform. RPP also rejects the combination of",
    "      # use_rotate_to_heading and allow_reversing being true together, and cusped Smac",
    "      # paths need allow_reversing.",
    "      # regulated_linear_scaling_min_radius matches the planner's 1.20 m so the speed",
    "      # regulation kicks in exactly where the vehicle is at its steering limit.",
    "      plugin: \"nav2_regulated_pure_pursuit_controller::RegulatedPurePursuitController\"",
    "      desired_linear_vel: 0.4",
    "      lookahead_dist: 0.6",
    "      min_lookahead_dist: 0.3",
    "      max_lookahead_dist: 0.9",
    "      lookahead_time: 1.5",
    "      transform_tolerance: 0.2",
    "      use_velocity_scaled_lookahead_dist: true",
    "      min_approach_linear_velocity: 0.05",
    "      approach_velocity_scaling_dist: 0.6",
    "      use_collision_detection: true",
    "      max_allowed_time_to_collision_up_to_carrot: 1.0",
    "      use_regulated_linear_velocity_scaling: true",
    "      use_cost_regulated_linear_velocity_scaling: false",
    "      regulated_linear_scaling_min_radius: 1.20",
    "      regulated_linear_scaling_min_speed: 0.15",
    "      use_rotate_to_heading: false",
    "      allow_reversing: true",
    "      max_robot_pose_search_dist: 10.0",
    "      use_interpolation: true"].map String.toList

/-- `len(l) - len(l.lstrip())`. -/
def indentOf (l : List Char) : ℕ := l.length - (l.dropWhile Text.isSpace).length

/-- `l.strip() == 'FollowPath:'`. -/
def isFollowPath (l : List Char) : Bool := Text.strip l == "FollowPath:".toList

/-- The loop goes on past the line. -/
def inBlock (indent : ℕ) (l : List Char) : Bool := Text.strip l == [] || indent < indentOf l

/-- The slices of `lines`. -/
structure Cut where
  above : List (List Char)
  header : List Char
  block : List (List Char)
  below : List (List Char)
  deriving DecidableEq, Repr

/-- Where a file is cut. Without the header, `next` raises. -/
def cut (lines : List (List Char)) : Option Cut :=
  match lines.dropWhile (! isFollowPath ·) with
  | [] => none
  | header :: rest => some
    { above := lines.takeWhile (! isFollowPath ·)
      header := header
      block := rest.takeWhile (inBlock (indentOf header))
      below := rest.dropWhile (inBlock (indentOf header)) }

/-- `out`. -/
def Cut.out (c : Cut) : List (List Char) := c.above ++ c.header :: (rpp ++ c.below)

/-- The text that is written. -/
def mkRpp (text : List Char) : Option (List Char) :=
  (cut (Text.lines text)).map fun c => Text.unlines c.out

/-! ## Where a file is cut -/

section Cut

variable {c : Cut} {lines : List (List Char)} {l text out : List Char} {m : KeyLine} {n : ℕ}

theorem span_append {α : Type} {p : α → Bool} {as bs : List α} (has : ∀ a ∈ as, p a = true)
    (hbs : ∀ b ∈ bs.head?, p b = false) :
    (as ++ bs).takeWhile p = as ∧ (as ++ bs).dropWhile p = bs := by
  rw [List.takeWhile_append_of_pos has, List.dropWhile_append_of_pos has]
  rcases bs with _ | ⟨b, bs⟩
  · simp
  · simp [hbs b rfl]

theorem cut_eq_some_iff : cut lines = some c ↔
    lines = c.above ++ c.header :: (c.block ++ c.below) ∧
      (∀ l ∈ c.above, isFollowPath l = false) ∧ isFollowPath c.header = true ∧
      (∀ l ∈ c.block, inBlock (indentOf c.header) l = true) ∧
      ∀ l ∈ c.below.head?, inBlock (indentOf c.header) l = false := by
  constructor
  · intro h
    have hsplit := List.takeWhile_append_dropWhile (p := (! isFollowPath ·)) (l := lines)
    have hfirst := List.head?_dropWhile_not (! isFollowPath ·) lines
    have habove : ∀ l ∈ lines.takeWhile (! isFollowPath ·), isFollowPath l = false :=
      fun l hl => by simpa using List.mem_takeWhile_imp hl
    unfold cut at h
    split at h
    · cases h
    · rename_i header rest hrest
      obtain rfl := Option.some.inj h
      rw [hrest, List.head?_cons] at hfirst
      rw [hrest] at hsplit
      have hbelow := List.head?_dropWhile_not (inBlock (indentOf header)) rest
      refine ⟨?_, habove, by simpa using hfirst, fun l hl => List.mem_takeWhile_imp hl, ?_⟩
      · rw [List.takeWhile_append_dropWhile]
        exact hsplit.symm
      · intro l hl
        rw [Option.mem_def.1 hl] at hbelow
        simpa using hbelow
  · rintro ⟨rfl, habove, hheader, hblock, hbelow⟩
    have hstop : ∀ l ∈ (c.header :: (c.block ++ c.below)).head?, (! isFollowPath l) = false := by
      simpa using hheader
    have hpassed : ∀ l ∈ c.above, (! isFollowPath l) = true := by
      simpa using habove
    obtain ⟨htake, hdrop⟩ := span_append hpassed hstop
    obtain ⟨htake', hdrop'⟩ := span_append hblock hbelow
    unfold cut
    rw [hdrop]
    dsimp only
    rw [htake, htake', hdrop']

/-- The first `FollowPath:` is the header. -/
theorem find?_of_cut (h : cut lines = some c) : lines.find? isFollowPath = some c.header := by
  obtain ⟨rfl, habove, hheader, -, -⟩ := cut_eq_some_iff.1 h
  rw [List.find?_append, List.find?_eq_none.2 (by simpa using habove), Option.none_or]
  exact List.find?_cons_of_pos hheader

/-! ## Once more -/

/-- What the tool puts in: lines without a break, none blank, all indented
alike, and of the keys none opens a block. -/
theorem rpp_lines : Text.Unbroken rpp ∧ (∀ l ∈ rpp, Text.strip l ≠ [] ∧ indentOf l = 6) ∧
    ∀ m ∈ rpp.filterMap matchLine, m.indent = 6 ∧ m.val ≠ [] := by
  unfold rpp
  simp only [List.map_cons, List.map_nil]
  -- a literal is made of its characters, so that it need not be decoded
  repeat rw [String.toList_ofList]
  decide +kernel

theorem inBlock_rpp (hl : l ∈ rpp) : inBlock n l = true ↔ n < 6 := by
  obtain ⟨hstrip, hindent⟩ := rpp_lines.2.1 l hl
  rw [inBlock, hindent]
  simp [hstrip]

/-- The lines that are written are the lines of the output. -/
theorem lines_out (h : cut (Text.lines text) = some c) :
    Text.lines (Text.unlines c.out) = c.out := by
  obtain ⟨hlines, -⟩ := cut_eq_some_iff.1 h
  refine Text.lines_unlines (fun l hl => ?_) (by simp [Cut.out])
  have hsource : ∀ l ∈ c.above ++ c.header :: (c.block ++ c.below), '\n' ∉ l ∧ '\r' ∉ l := by
    rw [← hlines]
    exact Text.unbroken_lines
  simp only [Cut.out, List.mem_append, List.mem_cons] at hl hsource
  rcases hl with hl | hl | hl | hl
  · exact hsource l (Or.inl hl)
  · exact hsource l (Or.inr (Or.inl hl))
  · exact rpp_lines.1 l hl
  · exact hsource l (Or.inr (Or.inr (Or.inr hl)))

/-- **Where the output is cut**: what has been put in is the block, or else
it is all below an empty one. -/
theorem cut_out (h : cut lines = some c) :
    cut c.out = some (if indentOf c.header < 6 then { c with block := rpp }
      else { c with block := [], below := rpp ++ c.below }) := by
  obtain ⟨-, habove, hheader, -, hbelow⟩ := cut_eq_some_iff.1 h
  rw [cut_eq_some_iff]
  split
  · rename_i hn
    exact ⟨rfl, habove, hheader, fun l hl => (inBlock_rpp hl).2 hn, hbelow⟩
  · rename_i hn
    refine ⟨rfl, habove, hheader, fun l hl => absurd hl List.not_mem_nil, fun l hl => ?_⟩
    have hmem : l ∈ rpp := by
      rw [List.head?_append_of_ne_nil _ (by decide)] at hl
      exact List.mem_of_mem_head? hl
    exact Bool.eq_false_iff.2 (mt (inBlock_rpp hmem).1 hn)

/-- **Once is enough**, where the header is indented less than what is put
below it. Elsewhere a second run puts it in a second time. -/
theorem rpp_again_iff (text out : List Char) (h : mkRpp text = some out) :
    mkRpp out = some out ↔
      ∀ header ∈ (Text.lines text).find? isFollowPath, indentOf header < 6 := by
  unfold mkRpp at h
  obtain ⟨c, hcut, rfl⟩ := Option.map_eq_some_iff.1 h
  rw [find?_of_cut hcut, mkRpp, lines_out hcut, cut_out hcut]
  simp only [Option.map_some, Option.some.injEq, Option.mem_some_iff, forall_eq']
  constructor
  · intro heq
    by_contra hn
    have hcut' := cut_out hcut
    rw [← lines_out hcut, if_neg hn] at hcut'
    rw [if_neg hn] at heq
    have hlines := congrArg Text.lines heq
    rw [lines_out hcut', lines_out hcut] at hlines
    have hlength := congrArg List.length hlines
    have hrpp : rpp.length = 28 := rfl
    simp only [Cut.out, List.length_append, List.length_cons] at hlength
    omega
  · intro hn
    rw [if_pos hn]
    rfl

end Cut

/-- A controller and its rate. -/
def controllerFile : List Char :=
  "server:\n  FollowPath:\n    plugin: \"mppi\"\n\n  rate: 20.0\n".toList

/-- Where it is cut. -/
def controllerCut : Cut where
  above := ["server:".toList]
  header := "  FollowPath:".toList
  block := ["    plugin: \"mppi\"".toList, []]
  below := ["  rate: 20.0".toList, []]

theorem cut_controllerFile : cut (Text.lines controllerFile) = some controllerCut := by
  decide +kernel

theorem rpp_again_iff_controllerFile :
    mkRpp (Text.unlines controllerCut.out) = some (Text.unlines controllerCut.out) ↔
      ∀ header ∈ (Text.lines controllerFile).find? isFollowPath, indentOf header < 6 :=
  rpp_again_iff controllerFile (Text.unlines controllerCut.out)
    (by rw [mkRpp, cut_controllerFile, Option.map_some])

/-! ## The keys -/

section Keys

variable {l : List Char} {m : KeyLine} {n : ℕ}

theorem indentOf_of_match (h : matchLine l = some m) : indentOf l = m.indent := by
  obtain ⟨val, rfl, hblanks, ⟨c, hc, hstart⟩, -, -⟩ := matchLine_eq_some.1 h
  obtain ⟨tail, hhead⟩ : ∃ tail, m.key = c :: tail := List.head?_eq_some_iff.1 hc
  rw [indentOf, hhead, List.cons_append,
    dropWhile_blanks hblanks (isSpace_of_isKeyStart hstart), List.length_append, KeyLine.indent]
  omega

/-- A line with a key is not blank. -/
theorem strip_ne_nil_of_match (h : matchLine l = some m) : Text.strip l ≠ [] := by
  obtain ⟨val, rfl, -, ⟨c, hc, hstart⟩, -, -⟩ := matchLine_eq_some.1 h
  obtain ⟨tail, hhead⟩ : ∃ tail, m.key = c :: tail := List.head?_eq_some_iff.1 hc
  intro hblank
  have hspace : Text.isSpace c = true := Text.strip_eq_nil_iff.1 hblank c (by simp [hhead])
  rw [isSpace_of_isKeyStart hstart] at hspace
  cases hspace

/-- A key of the block is indented farther than the header. -/
theorem lt_indent_of_inBlock (hl : inBlock n l = true) (h : matchLine l = some m) :
    n < m.indent := by
  rw [← indentOf_of_match h]
  simpa [inBlock, strip_ne_nil_of_match h] using hl

/-- The header is one. -/
theorem match_followPath (h : isFollowPath l = true) :
    ∃ m, matchLine l = some m ∧ m.key = "FollowPath".toList ∧ m.val = [] := by
  obtain ⟨front, back, hl, hfront, hback⟩ := Text.exists_strip l
  have hstrip : Text.strip l = "FollowPath:".toList := by
    simpa [isFollowPath] using h
  rw [hstrip] at hl
  have hall : "FollowPath".toList.all isKeyChar = true := by
    decide
  have hchars := List.all_eq_true.1 hall
  refine ⟨⟨front, "FollowPath".toList, []⟩, ?_, rfl, rfl⟩
  exact matchLine_eq_some.2 ⟨back, hl, hfront, ⟨'F', rfl, by decide⟩, hchars,
    (Text.strip_eq_nil_iff.2 hback).symm⟩

/-- A key in the outline of its file. One with nothing behind its colon opens
a block. -/
def KeyLine.row (m : KeyLine) : Outline.Row KeyLine := ⟨m.indent, m, m.val = []⟩

/-- The keys of a file with the blocks they are in, as its indentation has
them. -/
def keyPaths (lines : List (List Char)) : List (List KeyLine) :=
  Outline.paths [] ((lines.filterMap matchLine).map KeyLine.row)

/-- The keys around a header, whatever is below it. -/
theorem keyPaths_around (above below : List (List Char)) {h : KeyLine}
    (hmatch : matchLine l = some h) (hopens : h.val = []) :
    ∃ (outer : List (List KeyLine)) (stack : List (ℕ × KeyLine)), ∀ inside : List (List Char),
      keyPaths (above ++ l :: (inside ++ below)) =
        outer ++ ((stack.map Prod.snd).reverse ++ [h]) ::
          (Outline.paths ((h.indent, h) :: stack) ((inside.filterMap matchLine).map KeyLine.row) ++
            Outline.paths
              (((inside.filterMap matchLine).map KeyLine.row).foldl Outline.push
                ((h.indent, h) :: stack))
              ((below.filterMap matchLine).map KeyLine.row)) := by
  set rows := (above.filterMap matchLine).map KeyLine.row with hrows
  refine ⟨Outline.paths [] rows, Outline.popped (rows.foldl Outline.push []) h.indent,
    fun inside => ?_⟩
  have hpush : Outline.push (rows.foldl Outline.push []) h.row =
      (h.indent, h) :: Outline.popped (rows.foldl Outline.push []) h.indent := by
    rw [Outline.push, KeyLine.row]
    exact if_pos (decide_eq_true hopens)
  rw [keyPaths, List.filterMap_append, List.filterMap_cons_some hmatch, List.filterMap_append,
    List.map_append, List.map_cons, List.map_append, Outline.paths_append, Outline.paths, hpush,
    Outline.paths_append, Outline.path]
  rfl

/-- The parameters that are put in. -/
def rppKeys : List KeyLine := rpp.filterMap matchLine

theorem rppKeys_leaves : ∀ m ∈ rppKeys, m.indent = 6 ∧ m.val ≠ [] := rpp_lines.2.2

/-- **The other controller in its place.** Where the header is indented less
than what is put below it, and the next key behind the block is indented no
farther than the header, the file has the same keys as before in the same
blocks, except that those of the block are the parameters that are put in. -/
theorem rpp_swapped_in (text : List Char) (c : Cut) (hcut : cut (Text.lines text) = some c)
    (hheader : indentOf c.header < 6)
    (hnext : ∀ m ∈ c.below.findSome? matchLine, m.indent ≤ indentOf c.header) :
    ∃ out outer path inner others, mkRpp text = some out ∧
      keyPaths (Text.lines text) = outer ++ path :: (inner ++ others) ∧
      keyPaths (Text.lines out) = outer ++ path :: (rppKeys.map (fun m => path ++ [m]) ++ others) ∧
      (∃ m ∈ path.getLast?, m.key = "FollowPath".toList ∧ m.val = []) ∧
      (∀ q ∈ inner, path <+: q ∧ q ≠ path) ∧ ∀ q ∈ others.head?, q.dropLast <+: path.dropLast := by
  obtain ⟨hlines, -, hfollow, hblock, -⟩ := cut_eq_some_iff.1 hcut
  obtain ⟨h, hmatch, hkey, hval⟩ := match_followPath hfollow
  rw [indentOf_of_match hmatch] at hheader hnext hblock
  obtain ⟨outer, stack, haround⟩ := keyPaths_around c.above c.below hmatch hval
  set rows := (c.below.filterMap matchLine).map KeyLine.row with hrows
  -- what follows the block is read without it
  have hbehind : ∀ extra : List (ℕ × KeyLine), (∀ b ∈ extra, h.indent < b.1) →
      Outline.paths (extra ++ (h.indent, h) :: stack) rows = Outline.paths stack rows := by
    intro extra hextra
    refine Outline.paths_behind hextra fun r hr => ?_
    rw [hrows, List.head?_map, List.head?_filterMap] at hr
    obtain ⟨m, hm, rfl⟩ := Option.map_eq_some_iff.1 hr
    exact hnext m hm
  -- the block has its keys below the header
  have hdeeper : ∀ r ∈ (c.block.filterMap matchLine).map KeyLine.row, h.indent < r.indent := by
    intro r hr
    obtain ⟨m, hm, rfl⟩ := List.mem_map.1 hr
    obtain ⟨l, hl, hlm⟩ := List.mem_filterMap.1 hm
    exact lt_indent_of_inBlock (hblock l hl) hlm
  -- and what is put in stays on the header's level
  have hleft : Outline.popped ((h.indent, h) :: stack) 6 = (h.indent, h) :: stack := by
    have hstop : ¬ 6 ≤ h.indent := by omega
    simp [Outline.popped, hstop]
  have hopens : ∀ r ∈ rppKeys.map KeyLine.row, r.opens = false := by
    intro r hr
    obtain ⟨m, hm, rfl⟩ := List.mem_map.1 hr
    exact decide_eq_false (rppKeys_leaves m hm).2
  have hsix : ∀ r ∈ rppKeys.map KeyLine.row, r.indent = 6 := by
    intro r hr
    obtain ⟨m, hm, rfl⟩ := List.mem_map.1 hr
    exact (rppKeys_leaves m hm).1
  obtain ⟨hput, hstack⟩ := Outline.paths_leaves hopens hsix hleft
  have hnone : ∀ b ∈ ([] : List (ℕ × KeyLine)), h.indent < b.1 :=
    fun b hb => absurd hb List.not_mem_nil
  have hstays : ∃ extra, ((c.block.filterMap matchLine).map KeyLine.row).foldl Outline.push
      ((h.indent, h) :: stack) = extra ++ (h.indent, h) :: stack ∧
      ∀ b ∈ extra, h.indent < b.1 := Outline.foldl_push_within hnone hdeeper
  obtain ⟨extra, hextra, hfar⟩ := hstays
  refine ⟨_, outer, (stack.map Prod.snd).reverse ++ [h],
    Outline.paths ((h.indent, h) :: stack) ((c.block.filterMap matchLine).map KeyLine.row),
    Outline.paths stack rows, by rw [mkRpp, hcut, Option.map_some], ?_, ?_,
    ⟨h, List.getLast?_concat, hkey, hval⟩, fun q hq => ?_, fun q hq => ?_⟩
  · rw [hlines, haround, hextra, hbehind extra hfar]
  · have hafter : Outline.paths ((h.indent, h) :: stack) rows = Outline.paths stack rows :=
      hbehind [] hnone
    rw [lines_out hcut, Cut.out, haround, ← rppKeys, hput, hstack, hafter, List.map_map,
      List.map_cons, List.reverse_cons]
    rfl
  · obtain ⟨deeper, rfl, hne⟩ := Outline.paths_within hnone hdeeper q hq
    exact ⟨List.prefix_append _ _, fun heq => hne (List.append_right_eq_self.1 heq)⟩
  · rcases hbelow : rows with _ | ⟨r, rest⟩
    · rw [hbelow] at hq
      cases hq
    · rw [hbelow, Outline.paths, List.head?_cons, Option.mem_some_iff] at hq
      rw [← hq, Outline.path, List.dropLast_concat, List.dropLast_concat]
      exact List.reverse_prefix.2 ((List.dropWhile_suffix _).map _)

end Keys

theorem rpp_swapped_in_controllerFile :
    ∃ out outer path inner others, mkRpp controllerFile = some out ∧
      keyPaths (Text.lines controllerFile) = outer ++ path :: (inner ++ others) ∧
      keyPaths (Text.lines out) = outer ++ path :: (rppKeys.map (fun m => path ++ [m]) ++ others) ∧
      (∃ m ∈ path.getLast?, m.key = "FollowPath".toList ∧ m.val = []) ∧
      (∀ q ∈ inner, path <+: q ∧ q ≠ path) ∧ ∀ q ∈ others.head?, q.dropLast <+: path.dropLast :=
  rpp_swapped_in controllerFile controllerCut cut_controllerFile (by decide +kernel)
    (by decide +kernel)

end Simulation

end VehicleStack
