import VehicleStack.Simulation.Overrides

/-!
# The parameter file with overrides — tidy files

In a file whose keys are words, whose headers have nothing behind their
colons and whose other lines are blank or comments, the block the tool takes
a line to be in is the one it is in (`tells_lines`). An override with one
part or two then reaches the lines that it names, and no others, and alone
it hits exactly what it names (`exact_of_tidy`).
-/

namespace VehicleStack

namespace Simulation

/-- A key of letters, digits and underscores. -/
def Key.IsWord (key : Key) : Prop :=
  ∃ c name, key = .plain (c :: name) 0 ∧ isKeyStart c ∧ ∀ c' ∈ c :: name, isKeyChar c'

/-- The break that is written, or none. -/
def LineEnd.IsPlain (lineEnd : LineEnd) : Prop := lineEnd ≠ .crlf ∧ lineEnd ≠ .cr

/-- A blank line or a comment. -/
def IsComment (text : List Char) : Prop := ∀ c ∈ (text.dropWhile Text.isSpace).head?, c = '#'

def Block.Tidy : Block → Prop
  | .done => True
  | .note text lineEnd rest => IsComment text ∧ lineEnd.IsPlain ∧ rest.Tidy
  | .entry key value lineEnd _ inner rest =>
    key.IsWord ∧ lineEnd.IsPlain ∧ (inner ≠ .done → Text.Blank value) ∧ inner.Tidy ∧ rest.Tidy

section Tidy

variable {text value : List Char} {key : Key} {above : List Line} {l : Line} {n : ℕ}
  {outer : List (List Char)} {block : Block} {file : ParamFile} {o : ParamOverride}

theorem matchLine_of_isComment (h : IsComment text) : matchLine text = none := by
  refine Option.eq_none_iff_forall_ne_some.2 fun m hm => ?_
  obtain ⟨val, rfl, hblanks, ⟨c, hc, hstart⟩, -, -⟩ := matchLine_eq_some.1 hm
  obtain ⟨tail, hhead⟩ : ∃ tail, m.key = c :: tail := List.head?_eq_some_iff.1 hc
  rw [IsComment, hhead, List.cons_append,
    dropWhile_blanks hblanks (isSpace_of_isKeyStart hstart)] at h
  obtain rfl := h c rfl
  exact absurd hstart (by decide)

/-- A line with a word for its key is found to have it. -/
theorem matchLine_of_isWord (h : key.IsWord) :
    matchLine (List.replicate n ' ' ++ key.text ++ ':' :: value) =
      some ⟨List.replicate n ' ', key.name, Text.strip value⟩ := by
  obtain ⟨c, name, rfl, hstart, hkey⟩ := h
  refine matchLine_eq_some.2 ⟨value, ?_, fun c hc => ?_, ⟨c, rfl, hstart⟩, hkey, rfl⟩
  · simp [Key.text, Key.name]
  · rw [List.eq_of_mem_replicate hc]
    decide

/-- The tool finds the key of a line and the block that it is in. -/
def Tells (above : List Line) (l : Line) : Prop :=
  match l.path with
  | none => matchLine l.text = none
  | some path => ∃ m, matchLine l.text = some m ∧ path.getLast? = some m.key ∧
      takenIn above m.indent = path.dropLast.getLast?

theorem takenIn_append {lines : List Line} (h : ∀ r ∈ rows lines, n ≤ r.indent) :
    takenIn (above ++ lines) n = takenIn above n := by
  rw [takenIn, rows, List.filterMap_append, List.reverse_append]
  exact Outline.enclosing_append fun r hr => h r (List.mem_reverse.1 hr)

variable (above) in
/-- The lines below a header are in its block. -/
theorem takenIn_header {name : List Char} {k : ℕ} (hrow : rowOf l = some ⟨n, name, true⟩)
    (h : n < k) : takenIn (above ++ [l]) k = some name := by
  rw [takenIn, rows_append, hrow, Option.toList_some, List.reverse_append, List.reverse_singleton,
    List.singleton_append, Outline.enclosing, if_pos h, if_pos rfl]

/-- A tidy line with a key, in the outline of the file. -/
theorem rowOf_entry (h : key.IsWord) (path : List (List Char)) (value : List Char)
    (lineEnd : LineEnd) :
    rowOf ⟨some path, List.replicate n ' ' ++ key.text, ':' :: value, lineEnd⟩ =
      some ⟨n, key.name, Text.strip value = []⟩ := by
  rw [rowOf, Line.text, matchLine_of_isWord h, Option.map_some, KeyLine.indent,
    List.length_replicate]

theorem rowOf_note {lineEnd : LineEnd} (h : IsComment text) :
    rowOf ⟨none, [], text, lineEnd⟩ = none := by
  rw [rowOf, Line.text, List.nil_append, matchLine_of_isComment h, Option.map_none]

theorem strip_of_blank (h : Text.Blank value) : Text.strip value = [] := by
  rw [Text.strip, List.dropWhile_eq_nil_iff.2 h]
  rfl

/-- No line of a block is indented less than the block. -/
theorem le_indent {r : Outline.Row (List Char)} (h : block.Tidy)
    (hr : r ∈ rows (block.lines n outer)) : n ≤ r.indent := by
  induction block generalizing n outer with
  | done => exact absurd hr List.not_mem_nil
  | note text lineEnd rest ih =>
    rw [Block.lines, rows, List.filterMap_cons_none (rowOf_note h.1)] at hr
    exact ih h.2.2 hr
  | entry key value lineEnd deeper inner rest ihinner ihrest =>
    obtain ⟨hkey, -, -, hinner, hrest⟩ := h
    rw [Block.lines, rows, List.filterMap_cons_some (rowOf_entry hkey _ _ _), List.filterMap_append,
      List.mem_cons, List.mem_append] at hr
    rcases hr with rfl | hr | hr
    · exact le_rfl
    · exact (by omega : n ≤ n + deeper + 1).trans (ihinner hinner hr)
    · exact ihrest hrest hr

/-- **The tool finds the block that a line is in**, all through a tidy
block that it finds the block of. -/
theorem tells_lines (h : block.Tidy) (habove : takenIn above n = outer.getLast?) :
    History.AtEach (fun before l => Tells (above ++ before) l) (block.lines n outer) := by
  induction block generalizing above n outer with
  | done => exact History.atEach_nil
  | note text lineEnd rest ih =>
    obtain ⟨hcomment, -, hrest⟩ := h
    rw [Block.lines, History.atEach_cons]
    refine ⟨matchLine_of_isComment hcomment, ?_⟩
    have hnone : takenIn (above ++ [⟨none, [], text, lineEnd⟩]) n = outer.getLast? := by
      rw [takenIn_append, habove]
      simp [rows, rowOf_note hcomment]
    simpa using ih hrest hnone
  | entry key value lineEnd deeper inner rest ihinner ihrest =>
    obtain ⟨hkey, -, hvalue, hinner, hrest⟩ := h
    rw [Block.lines, History.atEach_cons, History.atEach_append]
    have hrow := rowOf_entry (n := n) hkey (outer ++ [key.name]) value lineEnd
    refine ⟨?_, ?_, ?_⟩
    · refine ⟨_, matchLine_of_isWord hkey, List.getLast?_concat, ?_⟩
      rw [List.append_nil, KeyLine.indent, List.length_replicate, habove, List.dropLast_concat]
    · -- what is nested in the key, if anything is
      by_cases hdone : inner = .done
      · rw [hdone]
        exact History.atEach_nil
      · rw [strip_of_blank (hvalue hdone), decide_eq_true rfl] at hrow
        have hheader := takenIn_header above (k := n + deeper + 1) hrow (by omega)
        simpa using ihinner hinner (hheader.trans List.getLast?_concat.symm)
    · -- what comes after it
      have hafter : takenIn (above ++ (⟨some (outer ++ [key.name]),
          List.replicate n ' ' ++ key.text, ':' :: value, lineEnd⟩ ::
            inner.lines (n + deeper + 1) (outer ++ [key.name]))) n = outer.getLast? := by
        rw [takenIn_append, habove]
        intro r hr
        rw [rows, List.filterMap_cons_some hrow, List.mem_cons] at hr
        rcases hr with rfl | hr
        · exact le_rfl
        · exact (by omega : n ≤ n + deeper + 1).trans (le_indent hinner hr)
      simpa using ihrest hrest hafter

theorem isPlain_of_mem (h : block.Tidy) (hl : l ∈ block.lines n outer) : l.lineEnd.IsPlain := by
  induction block generalizing n outer with
  | done => exact absurd hl List.not_mem_nil
  | note text lineEnd rest ih =>
    rcases List.mem_cons.1 hl with rfl | hl
    · exact h.2.1
    · exact ih h.2.2 hl
  | entry key value lineEnd deeper inner rest ihinner ihrest =>
    obtain ⟨-, hplain, -, hinner, hrest⟩ := h
    rcases List.mem_cons.1 hl with rfl | hl
    · exact hplain
    · rcases List.mem_append.1 hl with hl | hl
      · exact ihinner hinner hl
      · exact ihrest hrest hl

theorem snoc_suffix_snoc {path blocks : List (List Char)} {key key' : List Char} :
    path ++ [key] <:+ blocks ++ [key'] ↔ key = key' ∧ path <:+ blocks := by
  constructor
  · rintro ⟨outer, heq⟩
    rw [← List.append_assoc] at heq
    obtain ⟨hblocks, hkey⟩ := List.append_inj' heq rfl
    exact ⟨List.head_eq_of_cons_eq hkey, outer, hblocks⟩
  · rintro ⟨rfl, outer, rfl⟩
    exact ⟨outer, (List.append_assoc ..).symm⟩

theorem singleton_suffix {blocks : List (List Char)} {block : List Char} :
    [block] <:+ blocks ↔ blocks.getLast? = some block := by
  rw [List.getLast?_eq_some_iff]
  exact exists_congr fun _ => eq_comm

/-- **An override with one part or two reaches what it names.** -/
theorem reaches_iff_names (h : Tells above l) (hparts : (splitDots o.spec).length ≤ 2) :
    o.reaches above l = true ↔ o.Names l := by
  rw [Tells] at h
  cases hpath : l.path with
  | none =>
    rw [hpath] at h
    simp [ParamOverride.reaches, ParamOverride.Names, h, hpath]
  | some path =>
    rw [hpath] at h
    obtain ⟨m, hm, hkey, htaken⟩ := h
    obtain ⟨blocks, rfl⟩ := List.getLast?_eq_some_iff.1 hkey
    rw [List.dropLast_concat] at htaken
    have hnames : o.Names l ↔ splitDots o.spec <:+ blocks ++ [m.key] := by
      simp [ParamOverride.Names, hpath]
    rw [hnames, ParamOverride.reaches, hm]
    simp only [selects, htaken]
    obtain ⟨block, rest, hwant⟩ : ∃ block rest, splitDots o.spec = block :: rest :=
      List.exists_cons_of_ne_nil (List.splitOn_ne_nil _ _)
    rw [hwant] at hparts ⊢
    cases rest with
    | nil =>
      rw [← List.nil_append [block], snoc_suffix_snoc]
      simp
    | cons key rest =>
      obtain rfl : rest = [] := List.eq_nil_of_length_eq_zero (by simpa using hparts)
      rw [← List.singleton_append (l := [key]), snoc_suffix_snoc, singleton_suffix]
      simp

/-- **In a tidy file overrides of one part or two hit exactly what they
name**, where no two of them are for the same key. -/
theorem exact_of_tidy {overrides : List ParamOverride} (h : file.body.Tidy)
    (hparts : ∀ o ∈ overrides, (splitDots o.spec).length ≤ 2)
    (hkeys : ∀ o ∈ overrides, ∀ o' ∈ overrides, lastPart o'.spec = lastPart o.spec →
      o'.spec = o.spec) :
    ∃ r, mkparams file.text (overrides.map ParamOverride.arg) = some r ∧
      Exact file overrides r := by
  have htells : History.AtEach Tells file.lines := by
    have hnone : takenIn [] file.indent = ([] : List (List Char)).getLast? := rfl
    exact tells_lines h hnone
  have hreaches : ∀ above l below, file.lines = above ++ l :: below → ∀ o ∈ overrides,
      (o.reaches above l = true ↔ o.Names l) :=
    fun above l below heq o ho => reaches_iff_names (htells above l below heq) (hparts o ho)
  refine exact_of_aimed ⟨fun above l below heq o ho => ?_, fun above l below heq hnone => ⟨?_, ?_⟩,
    fun o ho above l below heq o' ho' hsame => ⟨above, l, below, heq, ?_⟩⟩
  · exact (hreaches above l below heq o (List.mem_of_find?_eq_some ho)).1 (List.find?_some ho)
  · intro o ho
    rw [← hreaches above l below heq o ho]
    exact List.find?_eq_none.1 hnone o ho
  · exact isPlain_of_mem h (mem_of_split heq)
  · have hmem := List.mem_of_find?_eq_some ho'
    rw [ho', Option.map_some, hkeys o ho o' hmem hsame]

end Tidy

end Simulation

end VehicleStack
