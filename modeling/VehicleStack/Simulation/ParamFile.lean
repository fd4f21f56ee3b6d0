import VehicleStack.Simulation.MkParams

/-!
# Parameter files

A block-style YAML file of nested mappings with scalar leaves, as it is
written: each key is on a line of its own, the keys of a mapping are
indented alike and farther than the key it belongs to. Between the keys
there may be lines that have none: blank ones, comments, and what a scalar
of several lines goes on with. What YAML demands beyond that is not asked
for here.
-/

namespace VehicleStack

namespace Simulation

/-- The break after a line. The last line may have none. -/
inductive LineEnd
  | lf
  | crlf
  | cr
  | none
  deriving DecidableEq, Repr

def LineEnd.chars : LineEnd → List Char
  | .lf => ['\n']
  | .crlf => ['\r', '\n']
  | .cr => ['\r']
  | .none => []

/-- The same as it is read. -/
def LineEnd.newline : LineEnd → List Char
  | .none => []
  | _ => ['\n']

/-- A key as it is written before its colon: as it is, with blanks behind
it, or else in quotes, with an anchor or a tag, so that it starts with
neither a blank nor a letter. -/
inductive Key
  | plain (name : List Char) (gap : ℕ)
  | other (first : Char) (text name : List Char)
      (start : Text.isSpace first = false ∧ isKeyStart first = false)

/-- What the key says. -/
def Key.name : Key → List Char
  | .plain name _ => name
  | .other _ _ name _ => name

def Key.text : Key → List Char
  | .plain name gap => name ++ List.replicate gap ' '
  | .other first text _ _ => first :: text

/-- A line of a file. One that has a key has the path of the key, from the
outermost one in. -/
structure Line where
  path : Option (List (List Char))
  front : List Char
  rest : List Char
  lineEnd : LineEnd
  deriving DecidableEq

/-- A line without its break. -/
def Line.text (l : Line) : List Char := l.front ++ l.rest

/-- A line as it is in the file. -/
def Line.bytes (l : Line) : List Char := l.text ++ l.lineEnd.chars

/-- A line as it is read. -/
def Line.read (l : Line) : List Char := l.text ++ l.lineEnd.newline

/-- A line with another value behind its key. -/
def Line.withValue (l : Line) (newval : List Char) : List Char :=
  l.front ++ ':' :: ' ' :: newval ++ ['\n']

/-- The lines of a mapping. What stands behind the colon of a key is a
scalar, a comment, both or nothing; what is nested in it is `inner`, which
a scalar leaf has nothing of. -/
inductive Block
  | done
  | note (text : List Char) (lineEnd : LineEnd) (rest : Block)
  | entry (key : Key) (value : List Char) (lineEnd : LineEnd) (deeper : ℕ) (inner rest : Block)

/-- Its lines, where it is nested in that path and indented so far. -/
def Block.lines : Block → ℕ → List (List Char) → List Line
  | .done, _, _ => []
  | .note text lineEnd rest, indent, path =>
    ⟨none, [], text, lineEnd⟩ :: rest.lines indent path
  | .entry key value lineEnd deeper inner rest, indent, path =>
    ⟨some (path ++ [key.name]), List.replicate indent ' ' ++ key.text, ':' :: value, lineEnd⟩ ::
      (inner.lines (indent + deeper + 1) (path ++ [key.name]) ++ rest.lines indent path)

/-- A text of those lines. -/
def textOf (lines : List Line) : List Char := lines.flatMap Line.bytes

/-- The lines are the lines of their text: none has a break within it, all
but the last have one behind them, and no `\r` is half of another's
`\r\n`. -/
def Ended : List Line → Prop
  | [] => True
  | l :: lines => ('\n' ∉ l.text ∧ '\r' ∉ l.text) ∧
      (l.lineEnd = .none → lines = [] ∧ l.text ≠ []) ∧
      (l.lineEnd = .cr → (textOf lines).head? ≠ some '\n') ∧ Ended lines

instance decidableEnded : ∀ lines, Decidable (Ended lines)
  | [] => isTrue trivial
  | _ :: lines =>
    have := decidableEnded lines
    inferInstanceAs (Decidable (_ ∧ _ ∧ _ ∧ _))

/-- A parameter file. -/
structure ParamFile where
  indent : ℕ
  body : Block
  ended : Ended (body.lines indent [])

def ParamFile.lines (file : ParamFile) : List Line := file.body.lines file.indent []

def ParamFile.text (file : ParamFile) : List Char := textOf file.lines

/-- **The lines are read one by one**, with one kind of break. -/
theorem fileLines_textOf {lines : List Line} (h : Ended lines) :
    Text.fileLines (Text.newlines (textOf lines)) = lines.map Line.read := by
  induction lines with
  | nil => rfl
  | cons l lines ih =>
    obtain ⟨⟨hlf, hcr⟩, hlast, hhalf, hended⟩ := h
    have hnext : Text.fileLines (l.text ++ '\n' :: Text.newlines (textOf lines)) =
        (l.text ++ ['\n']) :: lines.map Line.read := by
      rw [Text.fileLines_append hlf, ih hended]
    have htext : textOf (l :: lines) = l.text ++ (l.lineEnd.chars ++ textOf lines) := by
      rw [textOf, List.flatMap_cons, Line.bytes, List.append_assoc]
      rfl
    rw [htext, Text.newlines_append hcr, List.map_cons, Line.read]
    cases hend : l.lineEnd with
    | lf =>
      have hbreak : Text.newlines ('\n' :: textOf lines) = '\n' :: Text.newlines (textOf lines) :=
        Text.newlines_other (by decide)
      exact (congrArg (fun rest => Text.fileLines (l.text ++ rest)) hbreak).trans hnext
    | crlf => exact hnext
    | cr =>
      have hbreak : Text.newlines ('\r' :: textOf lines) =
          '\n' :: Text.newlines (textOf lines) := by
        refine Text.newlines_cr fun cs hcs => hhalf hend ?_
        rw [hcs, List.head?_cons]
      exact (congrArg (fun rest => Text.fileLines (l.text ++ rest)) hbreak).trans hnext
    | none =>
      obtain ⟨rfl, hne⟩ := hlast hend
      simpa [LineEnd.chars, LineEnd.newline, textOf, Text.newlines] using
        Text.fileLines_last hlf hne

/-! ## A line and its match -/

/-- A line of the shape of the expression, and its groups. -/
def Matches (line : List Char) (m : KeyLine) : Prop :=
  ∃ val, line = m.blanks ++ (m.key ++ ':' :: val) ∧ (∀ c ∈ m.blanks, Text.isSpace c) ∧
    (∃ c ∈ m.key.head?, isKeyStart c) ∧ (∀ c ∈ m.key, isKeyChar c) ∧ m.val = Text.strip val

section Match

variable {line cs : List Char} {c : Char} {m : KeyLine} {l : Line} {path : List (List Char)}

/-- No key starts with a blank. -/
theorem isSpace_of_isKeyStart (h : isKeyStart c = true) : Text.isSpace c = false := by
  have hletter : c.isAlpha = (decide (c.val ≥ 'A'.val ∧ c.val ≤ 'Z'.val) ||
      decide (c.val ≥ 'a'.val) && decide (c.val ≤ 'z'.val)) := rfl
  by_contra hspace
  rw [Bool.not_eq_false, Text.isSpace] at hspace
  rw [isKeyStart, hletter] at h
  simp only [Bool.or_eq_true, Bool.and_eq_true, decide_eq_true_eq, beq_iff_eq,
    UInt32.le_iff_toNat_le, ge_iff_le] at h hspace
  have hval : c.val.toNat = c.toNat := rfl
  have hA : 'A'.val.toNat = 65 := rfl
  have hZ : 'Z'.val.toNat = 90 := rfl
  have ha : 'a'.val.toNat = 97 := rfl
  have hz : 'z'.val.toNat = 122 := rfl
  rcases h with hletter | rfl
  · omega
  · have hunder : '_'.toNat = 95 := rfl
    omega

/-- What stands behind the blanks. -/
theorem dropWhile_blanks {blanks rest : List Char} (hblanks : ∀ c ∈ blanks, Text.isSpace c)
    (hc : Text.isSpace c = false) : (blanks ++ c :: rest).dropWhile Text.isSpace = c :: rest := by
  rw [List.dropWhile_append_of_pos hblanks,
    List.dropWhile_cons_of_neg (by rw [hc]; exact Bool.false_ne_true)]

/-- **What the search finds is a match**, and the only one. -/
theorem matchLine_eq_some : matchLine line = some m ↔ Matches line m := by
  have hcolon : isKeyChar ':' = false := by decide
  constructor
  · intro h
    have hblanks := List.takeWhile_append_dropWhile (p := Text.isSpace) (l := line)
    have hkey := List.takeWhile_append_dropWhile (p := isKeyChar) (l := line.dropWhile Text.isSpace)
    rw [matchLine] at h
    split at h
    · rename_i c key val hc hval
      split at h
      · rename_i hstart
        obtain rfl := Option.some.inj h
        rw [hc, hval] at hkey
        refine ⟨val, ?_, fun c hc => List.mem_takeWhile_imp hc, ⟨c, rfl, hstart⟩, fun c' hc' => ?_,
          rfl⟩
        · rw [hkey, hblanks]
        · exact List.mem_takeWhile_imp (hc.symm ▸ hc')
      · cases h
    · cases h
  · rintro ⟨val, rfl, hblanks, ⟨c, hc, hstart⟩, hkey, hval⟩
    obtain ⟨key, hhead⟩ : ∃ key, m.key = c :: key := List.head?_eq_some_iff.1 hc
    have hspace := isSpace_of_isKeyStart hstart
    have hrest : (m.blanks ++ (m.key ++ ':' :: val)).dropWhile Text.isSpace =
        m.key ++ ':' :: val := by
      rw [hhead, List.cons_append, dropWhile_blanks hblanks hspace]
    have hfront : (m.blanks ++ (m.key ++ ':' :: val)).takeWhile Text.isSpace = m.blanks := by
      rw [List.takeWhile_append_of_pos hblanks, hhead, List.cons_append,
        List.takeWhile_cons_of_neg (by rw [hspace]; exact Bool.false_ne_true), List.append_nil]
    have htake : (m.key ++ ':' :: val).takeWhile isKeyChar = c :: key := by
      rw [List.takeWhile_append_of_pos hkey, List.takeWhile_cons_of_neg (by rw [hcolon]; decide),
        List.append_nil, hhead]
    have hdrop : (m.key ++ ':' :: val).dropWhile isKeyChar = ':' :: val := by
      rw [List.dropWhile_append_of_pos hkey, List.dropWhile_cons_of_neg (by rw [hcolon]; decide)]
    obtain ⟨blanks, _, _⟩ := m
    obtain rfl := hhead
    obtain rfl := hval
    rw [matchLine, hfront, hrest, htake, hdrop]
    exact if_pos hstart

/-- What is cut off behind a text is cut off behind its line break too. -/
theorem strip_newline : Text.strip (cs ++ ['\n']) = Text.strip cs := by
  have hblank : Text.isSpace '\n' = true := by decide
  have hstrip : ∀ cs, Text.strip cs = (cs.dropWhile Text.isSpace).rdropWhile Text.isSpace :=
    fun _ => rfl
  rw [hstrip, hstrip, List.dropWhile_append]
  cases hrest : cs.dropWhile Text.isSpace with
  | nil => simp [hblank]
  | cons c rest => exact List.rdropWhile_concat_pos _ _ _ hblank

/-- **The break of a line takes no part in its match.** -/
theorem matchLine_newline : matchLine (cs ++ ['\n']) = matchLine cs := by
  refine Option.ext fun m => ?_
  rw [matchLine_eq_some, matchLine_eq_some]
  constructor
  · rintro ⟨val, hline, hblanks, hstart, hkey, hval⟩
    rcases List.eq_nil_or_concat val with rfl | ⟨val', c, rfl⟩
    · rw [← List.append_assoc] at hline
      have := (List.append_inj' hline rfl).2
      simp at this
    · rw [List.concat_eq_append, ← List.cons_append, ← List.append_assoc, ← List.append_assoc]
        at hline
      obtain ⟨hcs, hc⟩ := List.append_inj' hline rfl
      obtain rfl : '\n' = c := by simpa using hc
      rw [List.concat_eq_append, strip_newline] at hval
      exact ⟨val', by rw [hcs, List.append_assoc], hblanks, hstart, hkey, hval⟩
  · rintro ⟨val, rfl, hblanks, hstart, hkey, hval⟩
    exact ⟨val ++ ['\n'], by simp, hblanks, hstart, hkey, hval.trans strip_newline.symm⟩

@[simp] theorem matchLine_read : matchLine l.read = matchLine l.text := by
  rw [Line.read]
  cases l.lineEnd with
  | none => rw [LineEnd.newline, List.append_nil]
  | lf | crlf | cr => exact matchLine_newline

/-! ## A line of a file -/

/-- How a line that has a key is written. -/
theorem written_of_mem {block : Block} {indent : ℕ} {outer : List (List Char)}
    (h : l ∈ block.lines indent outer) (hpath : l.path = some path) :
    ∃ (key : Key) (n : ℕ) (value : List Char), l.front = List.replicate n ' ' ++ key.text ∧
      l.rest = ':' :: value ∧ path.getLast? = some key.name := by
  induction block generalizing indent outer with
  | done => exact absurd h List.not_mem_nil
  | note text lineEnd rest ih =>
    rcases List.mem_cons.1 h with rfl | h
    · cases hpath
    · exact ih h
  | entry key value lineEnd deeper inner rest ihinner ihrest =>
    rcases List.mem_cons.1 h with rfl | h
    · obtain rfl := Option.some.inj hpath
      exact ⟨key, indent, value, rfl, rfl, List.getLast?_concat⟩
    · rcases List.mem_append.1 h with h | h
      · exact ihinner h
      · exact ihrest h

/-- **Where the key that is found is the key of the line**, what stands in
front of the value is what is written there. -/
theorem front_of_match {file : ParamFile} (h : l ∈ file.lines) (hm : matchLine l.text = some m)
    (hpath : l.path = some path) (hkey : path.getLast? = some m.key) :
    l.front = m.blanks ++ m.key := by
  obtain ⟨key, n, value, hfront, hrest, hname⟩ := written_of_mem h hpath
  obtain ⟨val, hline, hblanks, ⟨c, hc, hstart⟩, -, -⟩ := matchLine_eq_some.1 hm
  obtain ⟨tail, hhead⟩ : ∃ tail, m.key = c :: tail := List.head?_eq_some_iff.1 hc
  have hblank : ∀ c ∈ List.replicate n ' ', Text.isSpace c := by
    intro c hc
    rw [List.eq_of_mem_replicate hc]
    decide
  have hspace := isSpace_of_isKeyStart hstart
  rw [Line.text, hfront, hrest, List.append_assoc] at hline
  have hdrop := congrArg (List.dropWhile Text.isSpace) hline
  rw [hhead, List.cons_append, dropWhile_blanks hblanks hspace] at hdrop
  cases key with
  | plain name gap =>
    obtain rfl : name = m.key := Option.some.inj (hname.symm.trans hkey)
    rw [Key.text, List.append_assoc] at hline
    rw [Key.text, hhead, List.append_assoc, List.cons_append, dropWhile_blanks hblank hspace,
      List.cons.injEq] at hdrop
    have hcolon := List.append_cancel_left hdrop.2
    -- a blank before the colon is none
    obtain rfl : gap = 0 := by
      cases gap with
      | zero => rfl
      | succ gap => exact absurd (List.cons.inj hcolon).1 (by decide)
    rw [List.replicate_zero, List.nil_append] at hcolon hline
    rw [hcolon] at hline
    rw [hfront, Key.text, List.replicate_zero, List.append_nil, List.append_cancel_right hline]
  | other first text name start =>
    rw [Key.text, List.cons_append, dropWhile_blanks hblank start.1, List.cons.injEq] at hdrop
    rw [hdrop.1, hstart] at start
    exact absurd start.2 (by decide)

end Match

end Simulation

end VehicleStack
