import VehicleStack.Common.History
import VehicleStack.Common.Outline
import VehicleStack.Common.Run
import VehicleStack.Simulation.ParamFile

/-!
# The parameter file with overrides — what is hit

An override names the lines whose key path ends in its dotted path. The tool
looks at the last part of it, and at the one before where there is one; it
compares that with the block it takes the line to be in, which is the
nearest one above whose header has nothing behind its colon. `Aimed` says
when the lines it hits so are those that are named, and when what it reports
as not found is what has changed no line (`exact_iff_aimed`).
-/

namespace VehicleStack

namespace Simulation

/-- An override. What is in front of the first `=` of its argument is its
dotted path. -/
structure ParamOverride where
  spec : List Char
  newval : List Char
  splits : '=' ∉ spec

def ParamOverride.arg (o : ParamOverride) : List Char := o.spec ++ '=' :: o.newval

/-- The path of the line ends in the dotted path. -/
def ParamOverride.Names (o : ParamOverride) (l : Line) : Prop :=
  ∃ path, l.path = some path ∧ splitDots o.spec <:+ path

/-- What becomes of a line: an override that names it is written to it, or
it is left as it is and there is none. -/
def Right (overrides : List ParamOverride) (l : Line) (w : Appended) : Prop :=
  match w.spec with
  | some spec => ∃ o ∈ overrides, o.spec = spec ∧ o.Names l ∧ w.text = l.withValue o.newval
  | none => (∀ o ∈ overrides, ¬ o.Names l) ∧ w.text = l.bytes

/-- The overrides hit exactly what they name, and those that hit nothing are
reported. -/
structure Exact (file : ParamFile) (overrides : List ParamOverride) (r : Output) : Prop where
  lines : List.Forall₂ (Right overrides) file.lines r.out
  missing : ∀ spec, spec ∈ r.missing ↔
    (∃ o ∈ overrides, o.spec = spec) ∧ ∀ w ∈ r.out, w.spec ≠ some spec

/-! ## What the tool looks at -/

/-- What a line is in the outline of the file. -/
def rowOf (l : Line) : Option (Outline.Row (List Char)) :=
  (matchLine l.text).map fun m => ⟨m.indent, m.key, m.val = []⟩

def rows (lines : List Line) : List (Outline.Row (List Char)) := lines.filterMap rowOf

/-- The block that a line of that indentation is taken to be in. -/
def takenIn (above : List Line) (indent : ℕ) : Option (List Char) :=
  Outline.enclosing (rows above).reverse indent

/-- The line is written `key: value`, the last part of the path is its key,
and the part before that, where there is one, is the block it is taken to be
in. -/
def ParamOverride.reaches (above : List Line) (l : Line) (o : ParamOverride) : Bool :=
  match matchLine l.text with
  | none => false
  | some m => selects (takenIn above m.indent) m.key o.spec

/-- The override that is written to a line: the first that reaches it. -/
def first (overrides : List ParamOverride) (above : List Line) (l : Line) :
    Option ParamOverride :=
  overrides.find? (ParamOverride.reaches above l)

/-- The condition on a file and its overrides. -/
structure Aimed (file : ParamFile) (overrides : List ParamOverride) : Prop where
  /-- The first to reach a line names it. -/
  named : History.AtEach (fun above l => ∀ o ∈ first overrides above l, o.Names l) file.lines
  /-- A line that none reaches is named by none, and has the break that is
  written. -/
  passed : History.AtEach (fun above l => first overrides above l = none →
    (∀ o ∈ overrides, ¬ o.Names l) ∧ l.lineEnd ≠ .crlf ∧ l.lineEnd ≠ .cr) file.lines
  /-- Where a line has been reached whose key is an override's, the override
  is the first to reach one. -/
  told : ∀ o ∈ overrides, History.AtEach (fun above l =>
    ∀ o' ∈ first overrides above l, (splitDots o'.spec).getLast? = (splitDots o.spec).getLast? →
      ∃ above' l' below', file.lines = above' ++ l' :: below' ∧
        (first overrides above' l').map ParamOverride.spec = some o.spec) file.lines

/-! ## The arguments -/

section Arguments

variable {overrides : List ParamOverride} {o : ParamOverride} {spec newval : List Char}

/-- The overrides as the tool has them. -/
def dictOf (overrides : List ParamOverride) : Dict (List Char) (List Char) :=
  overrides.foldl (fun d o => d.set o.spec o.newval) Dict.empty

theorem splitEq_arg : splitEq o.arg = some (o.spec, o.newval) := by
  have hspec : ∀ c ∈ o.spec, decide (c ≠ '=') := by
    intro c hc
    have hne : c ≠ '=' := fun h => o.splits (h ▸ hc)
    simpa using hne
  rw [splitEq, ParamOverride.arg, List.dropWhile_append_of_pos hspec,
    List.takeWhile_append_of_pos hspec]
  simp

/-- **Each argument is an override.** -/
theorem overridesOf_args : overridesOf (overrides.map ParamOverride.arg) =
    some (dictOf overrides) := by
  rw [overridesOf, dictOf]
  generalize Dict.empty = d
  induction overrides generalizing d with
  | nil => rfl
  | cons o overrides ih =>
    rw [List.map_cons, List.foldlM_cons, splitEq_arg, Option.map_some, List.foldl_cons]
    exact ih _

theorem dictOf_append : dictOf (overrides ++ [o]) = (dictOf overrides).set o.spec o.newval := by
  rw [dictOf, List.foldl_append]
  rfl

theorem mem_dictOf : spec ∈ dictOf overrides ↔ ∃ o ∈ overrides, o.spec = spec := by
  induction overrides using List.reverseRecOn with
  | nil => simp [dictOf]
  | append_singleton overrides o ih =>
    rw [dictOf_append, Dict.mem_set, ih]
    simp only [List.mem_append, List.mem_singleton, or_and_right, exists_or, exists_eq_left]
    exact ⟨fun h => h.symm.imp id Eq.symm, fun h => h.symm.imp Eq.symm id⟩

/-- The value that is written is one of those that were given. -/
theorem exists_of_get? (h : (dictOf overrides).get? spec = some newval) :
    ∃ o ∈ overrides, o.spec = spec ∧ o.newval = newval := by
  induction overrides using List.reverseRecOn with
  | nil => cases h
  | append_singleton overrides o ih =>
    rw [dictOf_append, Dict.get?_set] at h
    by_cases hspec : spec = o.spec
    · rw [if_pos hspec] at h
      exact ⟨o, by simp, hspec.symm, Option.some.inj h⟩
    · rw [if_neg hspec] at h
      obtain ⟨o', ho', heq⟩ := ih h
      exact ⟨o', List.mem_append_left _ ho', heq⟩

/-- **The first in the list is the first in the dictionary.** -/
theorem find?_dictOf {p : List Char → Bool} :
    ((dictOf overrides).entries.find? fun e => p e.1).map Prod.fst =
      (overrides.find? fun o => p o.spec).map ParamOverride.spec := by
  have hkeys : ((dictOf overrides).entries.find? fun e => p e.1).map Prod.fst =
      (dictOf overrides).keys.find? p := List.find?_map.symm
  rw [hkeys]
  clear hkeys
  induction overrides using List.reverseRecOn with
  | nil => rfl
  | append_singleton overrides o ih =>
    rw [dictOf_append, Dict.keys_set, List.find?_append, Option.map_or, ← ih]
    split
    · rename_i hmem
      cases hfind : (dictOf overrides).keys.find? p with
      | some _ => rfl
      | none =>
        have hp : ¬ p o.spec = true := List.find?_eq_none.1 hfind _ hmem
        simp [hp]
    · rw [List.find?_append]
      by_cases hp : p o.spec = true <;> simp [hp]

end Arguments

/-! ## The loop -/

section Loop

variable {d : Dict (List Char) (List Char)} {lines above : List Line} {l : Line} {st : Rewrite}
  {overrides : List ParamOverride} {o : ParamOverride} {m : KeyLine} {spec : List Char}

/-- What is written for a line. -/
def appended (d : Dict (List Char) (List Char)) (above : List Line) (l : Line) : Appended :=
  match matchLine l.text with
  | none => ⟨l.read, none⟩
  | some m =>
    match d.entries.find? fun o => selects (takenIn above m.indent) m.key o.1 with
    | some (spec, newval) => ⟨m.blanks ++ m.key ++ ':' :: ' ' :: newval ++ ['\n'], some spec⟩
    | none => ⟨l.read, none⟩

/-- What is written for the lines, each in view of those above it. -/
def written (d : Dict (List Char) (List Char)) (lines : List Line) : List Appended :=
  Run.trail (fun above l => above ++ [l]) (appended d) [] lines

@[simp] theorem written_nil : written d [] = [] := rfl

@[simp] theorem written_append :
    written d (lines ++ [l]) = written d lines ++ [appended d lines l] := by
  have hrun : ∀ lines : List Line, Run.run (fun above l => above ++ [l]) [] lines = lines := by
    intro lines
    induction lines using List.reverseRecOn with
    | nil => rfl
    | append_singleton lines l ih =>
      have hlast : Run.run (fun above l => above ++ [l]) [] (lines ++ [l]) =
          Run.run (fun above l => above ++ [l]) [] lines ++ [l] := List.foldl_append
      rw [hlast, ih]
  rw [written, Run.trail_append, hrun]
  rfl

/-- The last part of a dotted path. -/
def lastPart (spec : List Char) : Option (List Char) := (splitDots spec).getLast?

variable {hit hit' : List (List Char)} {spec : List Char}

theorem mem_notFound :
    spec ∈ notFound d hit ↔ spec ∈ d.keys ∧ lastPart spec ∉ hit.map lastPart := by
  rw [notFound, List.mem_filter, decide_eq_true_eq]
  rfl

/-- The report is told from the last parts of the hits. -/
theorem notFound_congr (h : hit.map lastPart = hit'.map lastPart) :
    notFound d hit = notFound d hit' := by
  refine List.filter_congr fun spec _ => ?_
  rw [decide_eq_decide]
  exact not_congr (h ▸ Iff.rfl)

/-- What the tool calls a hit ends in the key of the line. -/
theorem lastPart_hit {parent : Option (List Char)} {key : List Char} (h : '.' ∉ key) :
    lastPart (['.'].intercalate (parent.toList ++ [key])) = some key := by
  have hkey : splitDots key = [key] := List.splitOn_eq_singleton h
  cases parent with
  | none => simp [lastPart, hkey]
  | some parent =>
    have hsplit : splitDots (parent ++ '.' :: key) = splitDots parent ++ [key] := by
      rw [← hkey]
      exact List.splitOn_append_cons_self _ _
    simp [lastPart, hsplit]

/-- The loop after some lines. -/
structure After (d : Dict (List Char) (List Char)) (lines : List Line) (st : Rewrite) : Prop where
  out : st.out = written d lines
  hit : st.hit.map lastPart = (st.out.filterMap Appended.spec).map lastPart
  stack : st.stack = Outline.stackOf (rows lines)

theorem rows_append : rows (lines ++ [l]) = rows lines ++ (rowOf l).toList := by
  rw [rows, List.filterMap_append]
  cases hrow : rowOf l <;> simp [rows, hrow]

theorem lastPart_of_selects {parent : Option (List Char)} {key : List Char}
    (h : selects parent key spec = true) : lastPart spec = some key := by
  simp only [selects, Bool.and_eq_true, beq_iff_eq] at h
  exact h.1

/-- No dot is part of a key. -/
theorem dot_of_match {line : List Char} (h : matchLine line = some m) : '.' ∉ m.key := by
  obtain ⟨-, -, -, -, hkey, -⟩ := matchLine_eq_some.1 h
  exact fun hdot => absurd (hkey _ hdot) (by decide)

/-- **One line more.** -/
theorem After.line (h : After d lines st) : After d (lines ++ [l]) (st.line d l.read) := by
  obtain ⟨hout, hhit, hstack⟩ := h
  cases hm : matchLine l.text with
  | none =>
    have hline : st.line d l.read = { st with out := st.out ++ [⟨l.read, none⟩] } := by
      rw [Rewrite.line, matchLine_read, hm]
    have happ : appended d lines l = ⟨l.read, none⟩ := by rw [appended, hm]
    have hrow : rowOf l = none := by rw [rowOf, hm, Option.map_none]
    rw [hline]
    refine ⟨by rw [written_append, happ, hout], ?_, ?_⟩
    · simp [hhit]
    · rw [rows_append, hrow, Option.toList_none, List.append_nil, hstack]
  | some m =>
    have htop : (st.stack.dropWhile fun block => m.indent ≤ block.1).head?.map Prod.snd =
        takenIn lines m.indent := by
      rw [hstack, takenIn, ← Outline.top_stackOf]
      rfl
    have hpush : Outline.stackOf (rows (lines ++ [l])) =
        if m.val = [] then (m.indent, m.key) :: st.stack.dropWhile fun block => m.indent ≤ block.1
        else st.stack.dropWhile fun block => m.indent ≤ block.1 := by
      have hrow : rowOf l = some ⟨m.indent, m.key, m.val = []⟩ := by rw [rowOf, hm, Option.map_some]
      rw [rows_append, hrow, Option.toList_some, Outline.stackOf, List.foldl_append,
        ← Outline.stackOf, ← hstack]
      simp [Outline.push, Outline.popped]
    have happ : appended d lines l =
        match d.entries.find? fun o => selects (takenIn lines m.indent) m.key o.1 with
        | some (spec, newval) => ⟨m.blanks ++ m.key ++ ':' :: ' ' :: newval ++ ['\n'], some spec⟩
        | none => ⟨l.read, none⟩ := by rw [appended, hm]
    simp only [Rewrite.line, matchLine_read, hm, htop]
    cases hfind : d.entries.find? fun o => selects (takenIn lines m.indent) m.key o.1 with
    | none =>
      rw [hfind] at happ
      refine ⟨by rw [written_append, happ, hout], ?_, hpush.symm⟩
      simp [hhit]
    | some e =>
      obtain ⟨spec, newval⟩ := e
      rw [hfind] at happ
      have hselects : selects (takenIn lines m.indent) m.key spec = true := by
        simpa using List.find?_some hfind
      refine ⟨by rw [written_append, happ, hout], ?_, hpush.symm⟩
      rw [List.map_append, List.filterMap_append, List.map_append, hhit]
      simp [lastPart_hit (dot_of_match hm), lastPart_of_selects hselects]

variable (d lines) in
/-- **The whole file.** -/
theorem after_foldl :
    After d lines ((lines.map Line.read).foldl (Rewrite.line d) ⟨[], [], []⟩) := by
  induction lines using List.reverseRecOn with
  | nil => exact ⟨rfl, rfl, rfl⟩
  | append_singleton lines l ih =>
    rw [List.map_append, List.foldl_append]
    exact ih.line

variable (d lines) in
/-- What holds of everything that is written holds at each line. -/
theorem forall_mem_written {P : Appended → Prop} : (∀ w ∈ written d lines, P w) ↔
    History.AtEach (fun above l => P (appended d above l)) lines := by
  induction lines using List.reverseRecOn with
  | nil => simp
  | append_singleton lines l ih =>
    rw [written_append, History.atEach_snoc, ← ih, List.forall_mem_append]
    simp

/-- The same, line for line. -/
theorem forall₂_written {R : Line → Appended → Prop} : List.Forall₂ R lines (written d lines) ↔
    History.AtEach (fun above l => R l (appended d above l)) lines := by
  have hsnoc : ∀ {xs : List Line} {ys : List Appended} {x : Line} {y : Appended},
      List.Forall₂ R (xs ++ [x]) (ys ++ [y]) ↔ List.Forall₂ R xs ys ∧ R x y := by
    intro xs ys x y
    rw [← List.forall₂_reverse_iff, List.reverse_append, List.reverse_append]
    simp [List.forall₂_reverse_iff, and_comm]
  induction lines using List.reverseRecOn with
  | nil => simp
  | append_singleton lines l ih =>
    rw [written_append, hsnoc, History.atEach_snoc]
    exact and_congr_left fun _ => ih

variable (above l overrides) in
/-- **The override that is written to a line** is the first to reach it. -/
theorem appended_spec : (appended (dictOf overrides) above l).spec =
    (first overrides above l).map ParamOverride.spec := by
  rw [appended, first]
  cases hm : matchLine l.text with
  | none =>
    have hnone : ParamOverride.reaches above l = fun _ => false := by
      funext o
      rw [ParamOverride.reaches, hm]
    simp [hnone]
  | some m =>
    have hreaches : ParamOverride.reaches above l =
        fun o => selects (takenIn above m.indent) m.key o.spec := by
      funext o
      rw [ParamOverride.reaches, hm]
    rw [hreaches, ← find?_dictOf]
    cases hfind : (dictOf overrides).entries.find? fun o =>
      selects (takenIn above m.indent) m.key o.1 <;> simp [hfind]

/-- A line that none reaches is written as it was read. -/
theorem appended_of_none (h : first overrides above l = none) :
    appended (dictOf overrides) above l = ⟨l.read, none⟩ := by
  have hspec := appended_spec above l overrides
  rw [h, Option.map_none] at hspec
  rw [appended] at hspec ⊢
  cases hm : matchLine l.text with
  | none => rfl
  | some m =>
    simp only [hm] at hspec ⊢
    split at hspec
    · cases hspec
    · rfl

/-- A line that is reached is given one of the values that were given. -/
theorem appended_of_first (h : first overrides above l = some o) :
    ∃ m, matchLine l.text = some m ∧ lastPart o.spec = some m.key ∧
      ∃ o' ∈ overrides, o'.spec = o.spec ∧ appended (dictOf overrides) above l =
        ⟨m.blanks ++ m.key ++ ':' :: ' ' :: o'.newval ++ ['\n'], some o.spec⟩ := by
  have hspec := appended_spec above l overrides
  rw [h, Option.map_some] at hspec
  rw [appended] at hspec ⊢
  cases hm : matchLine l.text with
  | none =>
    rw [hm] at hspec
    cases hspec
  | some m =>
    simp only [hm] at hspec ⊢
    split at hspec
    · rename_i spec newval hfind
      obtain rfl := Option.some.inj hspec
      have hselects : selects (takenIn above m.indent) m.key o.spec = true := by
        simpa using List.find?_some hfind
      obtain ⟨o', ho', hsame, hval⟩ :=
        exists_of_get? (Dict.mem_entries.1 (List.mem_of_find?_eq_some hfind))
      refine ⟨m, rfl, lastPart_of_selects hselects, o', ho', hsame, ?_⟩
      rw [hval]
    · cases hspec

/-! ## When the overrides hit what they name -/

variable {file : ParamFile}

/-- Overrides of one path name the same lines. -/
theorem ParamOverride.names_congr {o' : ParamOverride} (h : o'.spec = o.spec) :
    o'.Names l ↔ o.Names l := by
  rw [ParamOverride.Names, ParamOverride.Names, h]

/-- The break that is read is that of the line. -/
theorem read_eq_bytes : l.read = l.bytes ↔ l.lineEnd ≠ .crlf ∧ l.lineEnd ≠ .cr := by
  rw [Line.read, Line.bytes, List.append_right_inj]
  cases l.lineEnd <;> decide

/-- **What becomes of a line is right** when the first override to reach it
names it, or there is none that does. -/
theorem right_iff (h : l ∈ file.lines) : Right overrides l (appended (dictOf overrides) above l) ↔
    (∀ o ∈ first overrides above l, o.Names l) ∧ (first overrides above l = none →
      (∀ o ∈ overrides, ¬ o.Names l) ∧ l.lineEnd ≠ .crlf ∧ l.lineEnd ≠ .cr) := by
  cases hfirst : first overrides above l with
  | none =>
    rw [appended_of_none hfirst, Right, ← read_eq_bytes]
    simp
  | some o =>
    obtain ⟨m, hm, hlast, o', ho', hsame, happ⟩ := appended_of_first hfirst
    rw [happ, Right]
    constructor
    · rintro ⟨o'', -, hspec, hnames, -⟩
      refine ⟨fun o₁ ho₁ => ?_, fun hnone => by cases hnone⟩
      obtain rfl := Option.some.inj ho₁
      exact (ParamOverride.names_congr hspec).1 hnames
    · rintro ⟨hnames, -⟩
      have ho := hnames o rfl
      refine ⟨o', ho', hsame, (ParamOverride.names_congr hsame).2 ho, ?_⟩
      -- the key that was found is that of the path
      obtain ⟨path, hpath, outer, rfl⟩ := ho
      have hkey : (outer ++ splitDots o.spec).getLast? = some m.key := by
        rw [List.getLast?_append, ← lastPart, hlast, Option.some_or]
      rw [Line.withValue, front_of_match h hm hpath hkey]

/-- An override is written somewhere where it is the first to reach a
line. -/
theorem exists_written : (∃ w ∈ written (dictOf overrides) lines, w.spec = some spec) ↔
    ∃ above l below, lines = above ++ l :: below ∧
      (first overrides above l).map ParamOverride.spec = some spec := by
  have hnot := forall_mem_written (dictOf overrides) lines (P := fun w => w.spec ≠ some spec)
  simp only [appended_spec] at hnot
  rw [← not_iff_not]
  push Not
  rw [hnot, History.AtEach]

/-- What is reported as not found, told from what is written. -/
def reported (overrides : List ParamOverride) (lines : List Line) : List (List Char) :=
  notFound (dictOf overrides) ((written (dictOf overrides) lines).filterMap Appended.spec)

variable (overrides file) in
/-- **What the tool comes to.** -/
theorem mkparams_eq : ∃ hit, mkparams file.text (overrides.map ParamOverride.arg) =
    some ⟨written (dictOf overrides) file.lines, hit, reported overrides file.lines⟩ := by
  have hafter := after_foldl (dictOf overrides) file.lines
  generalize hst : (file.lines.map Line.read).foldl (Rewrite.line (dictOf overrides)) ⟨[], [], []⟩ =
    st at hafter
  obtain ⟨hout, hhit, -⟩ := hafter
  have hread : Text.fileLines (Text.newlines file.text) = file.lines.map Line.read :=
    fileLines_textOf file.ended
  refine ⟨st.hit, ?_⟩
  rw [mkparams, overridesOf_args, Option.map_some, hread, hst, reported, ← hout,
    ← notFound_congr hhit]

/-- An override is reported when no line that is reached has its last part
for its key. -/
theorem mem_reported : spec ∈ reported overrides lines ↔
    (∃ o ∈ overrides, o.spec = spec) ∧ History.AtEach (fun above l =>
      ∀ o ∈ first overrides above l, lastPart o.spec ≠ lastPart spec) lines := by
  have hwritten := forall_mem_written (dictOf overrides) lines
    (P := fun w => ∀ s ∈ w.spec, lastPart s ≠ lastPart spec)
  simp only [appended_spec, Option.mem_map, forall_exists_index, and_imp,
    forall_apply_eq_imp_iff₂] at hwritten
  rw [reported, mem_notFound, ← hwritten, ← mem_dictOf, Dict.mem_iff_mem_keys]
  refine and_congr_right fun _ => ?_
  simp only [List.mem_map, List.mem_filterMap, not_exists, not_and,
    forall_exists_index, and_imp]
  exact ⟨fun h w hw s hs => h s w hw hs, fun h s w hw hs => h w hw s hs⟩

theorem mem_of_split {below : List Line} (h : lines = above ++ l :: below) : l ∈ lines :=
  h ▸ List.mem_append_right _ List.mem_cons_self

/-- Overrides that are aimed at the file hit exactly what they name. -/
theorem exact_of_aimed (h : Aimed file overrides) :
    ∃ r, mkparams file.text (overrides.map ParamOverride.arg) = some r ∧
      Exact file overrides r := by
  obtain ⟨hit, hrun⟩ := mkparams_eq overrides file
  refine ⟨_, hrun, ?_, fun spec => ?_⟩
  · rw [forall₂_written]
    exact fun above l below heq => (right_iff (mem_of_split heq)).2
      ⟨h.named above l below heq, h.passed above l below heq⟩
  · rw [mem_reported]
    refine and_congr_right fun ⟨o, ho, hspec⟩ => ⟨fun heach w hw hw' => ?_,
      fun hnone above l below heq o' ho' hsame => ?_⟩
    · obtain ⟨above, l, below, heq, hfirst⟩ := exists_written.1 ⟨w, hw, hw'⟩
      obtain ⟨o', ho', rfl⟩ := Option.map_eq_some_iff.1 hfirst
      exact heach above l below heq o' ho' rfl
    · have hreached := h.told o ho above l below heq o' ho' (hspec ▸ hsame)
      obtain ⟨w, hw, hw'⟩ := exists_written.2 hreached
      exact hnone w hw (hw'.trans (congrArg some hspec))

/-- And those that do are aimed at it. -/
theorem aimed_of_exact {r : Output}
    (hr : mkparams file.text (overrides.map ParamOverride.arg) = some r)
    (h : Exact file overrides r) : Aimed file overrides := by
  obtain ⟨hit, hrun⟩ := mkparams_eq overrides file
  obtain rfl := Option.some.inj (hrun.symm.trans hr)
  have hlines := forall₂_written.1 h.lines
  have heach := fun above l below heq =>
    (right_iff (mem_of_split heq)).1 (hlines above l below heq)
  refine ⟨fun above l below heq => (heach above l below heq).1,
    fun above l below heq => (heach above l below heq).2,
    fun o ho above l below heq o' ho' hsame => ?_⟩
  rw [← exists_written]
  by_contra hnone
  -- the override has changed nothing, so it has been reported
  have hmem := (h.missing o.spec).2 ⟨⟨o, ho, rfl⟩, fun w hw hspec => hnone ⟨w, hw, hspec⟩⟩
  exact (mem_reported.1 hmem).2 above l below heq o' ho' hsame

/-- **The overrides hit exactly what they name**, and the tool says so where
they do not, when they are aimed at the file. -/
theorem exact_iff_aimed (file : ParamFile) (overrides : List ParamOverride) :
    (∃ r, mkparams file.text (overrides.map ParamOverride.arg) = some r ∧ Exact file overrides r) ↔
      Aimed file overrides :=
  ⟨fun ⟨_, hr, h⟩ => aimed_of_exact hr h, exact_of_aimed⟩

end Loop

/-! ## A comment behind a header -/

/-- Two blocks with the same key, the first with a comment behind its header. -/
def commented : ParamFile where
  indent := 0
  body := .entry (.plain ['A'] 0) [' ', '#'] .lf 1
    (.entry (.plain ['x'] 0) [' ', '0'] .lf 0 .done .done)
    (.entry (.plain ['B'] 0) [] .lf 1 (.entry (.plain ['x'] 0) [' ', '0'] .lf 0 .done .done) .done)
  ended := by decide

/-- An override for each of them. -/
def bothBlocks : List ParamOverride :=
  [⟨['A', '.', 'x'], ['1'], by decide⟩, ⟨['B', '.', 'x'], ['2'], by decide⟩]

/-- **The first block is passed over**, and nothing is said. -/
theorem comment_hides_block : ¬ ∃ r,
    mkparams commented.text (bothBlocks.map ParamOverride.arg) = some r ∧
      Exact commented bothBlocks r := by
  rintro ⟨r, hr, hlines, -⟩
  have hrun : (mkparams commented.text (bothBlocks.map ParamOverride.arg)).map
      (fun r => (r.out.map Appended.spec, r.missing)) =
        some ([none, none, none, some ['B', '.', 'x']], []) := by
    decide +kernel
  rw [hr, Option.map_some, Option.some.injEq, Prod.mk.injEq] at hrun
  obtain ⟨hspecs, -⟩ := hrun
  -- the second line is named by the first override, and is left as it is
  have hnamed : (⟨['A', '.', 'x'], ['1'], by decide⟩ : ParamOverride).Names
      ⟨some [['A'], ['x']], [' ', ' ', 'x'], [':', ' ', '0'], .lf⟩ :=
    ⟨[['A'], ['x']], rfl, by decide⟩
  obtain ⟨header, below, hfile⟩ : ∃ header below, commented.lines = header ::
      ⟨some [['A'], ['x']], [' ', ' ', 'x'], [':', ' ', '0'], .lf⟩ :: below := ⟨_, _, rfl⟩
  rw [hfile, List.forall₂_cons_left_iff] at hlines
  obtain ⟨w, out, -, hlines, hout⟩ := hlines
  rw [List.forall₂_cons_left_iff] at hlines
  obtain ⟨w', out', hright, -, hout'⟩ := hlines
  rw [hout, hout', List.map_cons, List.map_cons, List.cons.injEq, List.cons.injEq] at hspecs
  rw [Right, hspecs.2.1] at hright
  exact hright.1 _ List.mem_cons_self hnamed

end Simulation

end VehicleStack
