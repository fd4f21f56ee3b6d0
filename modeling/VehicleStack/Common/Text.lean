import Mathlib.Data.List.DropRight

/-!
# Reading a text file

What `open(path).read(n)` makes of a file's bytes: strict UTF-8, decoded a
chunk at a time, with universal newlines. A byte that starts or continues
no character raises at once; a character cut off at the end of the bytes
read so far raises only when the reader has to go on to the end of the
file for want of `n` characters.
-/

namespace VehicleStack

namespace Text

/-- How far a scan of bytes got: the characters, and whether the bytes end
on a character, inside one, or could not be read at all. -/
inductive Scan
  | complete (chars : List Char)
  | cutOff (chars : List Char)
  | invalid
  deriving DecidableEq, Repr

/-- One more character in front of a scan. -/
def Scan.cons (n : ℕ) : Scan → Scan
  | .complete cs => .complete (Char.ofNat n :: cs)
  | .cutOff cs => .cutOff (Char.ofNat n :: cs)
  | .invalid => .invalid

/-- `10xxxxxx`. -/
def isContinuation (b : UInt8) : Bool := 0x80 ≤ b && b < 0xC0

/-- The payload of a continuation byte. -/
def low6 (b : UInt8) : ℕ := b.toNat % 64

/-- Whether the second byte can follow the lead: no overlong form, no
surrogate, nothing above `U+10FFFF`. -/
def follows (lead second : UInt8) : Bool :=
  isContinuation second &&
    !(lead == 0xE0 && second < 0xA0) && !(lead == 0xED && 0xA0 ≤ second) &&
    !(lead == 0xF0 && second < 0x90) && !(lead == 0xF4 && 0x90 ≤ second)

/-- Strict UTF-8. -/
def utf8Scan : List UInt8 → Scan
  | [] => .complete []
  | a :: rest =>
    if a < 0x80 then (utf8Scan rest).cons a.toNat
    else if a < 0xC2 || 0xF4 < a then .invalid
    else match rest with
      | [] => .cutOff []
      | b :: rest =>
        if !follows a b then .invalid
        else if a < 0xE0 then (utf8Scan rest).cons ((a.toNat - 0xC0) * 64 + low6 b)
        else match rest with
          | [] => .cutOff []
          | c :: rest =>
            if !isContinuation c then .invalid
            else if a < 0xF0 then
              (utf8Scan rest).cons (((a.toNat - 0xE0) * 64 + low6 b) * 64 + low6 c)
            else match rest with
              | [] => .cutOff []
              | d :: rest =>
                if !isContinuation d then .invalid
                else (utf8Scan rest).cons
                  ((((a.toNat - 0xF0) * 64 + low6 b) * 64 + low6 c) * 64 + low6 d)

/-- Universal newlines: `\r\n` and `\r` read as `\n`. -/
def newlines : List Char → List Char
  | [] => []
  | '\r' :: '\n' :: cs => '\n' :: newlines cs
  | '\r' :: cs => '\n' :: newlines cs
  | c :: cs => c :: newlines cs

/-- The lines a text file is iterated by, each with its `\n`; the last one may
have none. -/
def fileLines : List Char → List (List Char)
  | [] => []
  | c :: cs =>
    if c = '\n' then ['\n'] :: fileLines cs
    else match fileLines cs with
      | [] => [[c]]
      | line :: lines => (c :: line) :: lines

/-- What can be handed out before the end of the file is known: a `\r` at
the end waits for the character after it. -/
def settled (cs : List Char) : List Char :=
  if cs.getLast? = some '\r' then cs.dropLast else cs

/-- The size of the chunks a text file is decoded in. -/
def CHUNK_SIZE : ℕ := 8192

/-- `f.read(n)` of a text file with these bytes, for an `n` that the first
chunk can fill; `none` is `UnicodeDecodeError`. -/
def readText (n : ℕ) (bytes : List UInt8) : Option (List Char) :=
  match utf8Scan (bytes.take CHUNK_SIZE) with
  | .complete cs => some ((newlines cs).take n)
  | .cutOff cs =>
    if n ≤ (newlines (settled cs)).length then some ((newlines cs).take n) else none
  | .invalid => none

/-- `str.isspace` of one character. -/
def isSpace (c : Char) : Bool :=
  (0x09 ≤ c.toNat && c.toNat ≤ 0x0D) || (0x1C ≤ c.toNat && c.toNat ≤ 0x20) ||
    c.toNat == 0x85 || c.toNat == 0xA0 || c.toNat == 0x1680 ||
    (0x2000 ≤ c.toNat && c.toNat ≤ 0x200A) || c.toNat == 0x2028 || c.toNat == 0x2029 ||
    c.toNat == 0x202F || c.toNat == 0x205F || c.toNat == 0x3000

/-- `str.strip()`. -/
def strip (cs : List Char) : List Char :=
  ((cs.dropWhile isSpace).reverse.dropWhile isSpace).reverse

/-- `str.lower()`, as far as a comparison with a word of ASCII letters
other than `i` and `k` can tell: no character outside ASCII has such a
letter for its lower case. -/
def lower (cs : List Char) : List Char := cs.map Char.toLower

/-! ## What a part of the bytes says about the whole -/

/-- The scan came to the end of the bytes, and these are the characters it
found. -/
def Scan.Reads (s : Scan) (cs : List Char) : Prop := s = .complete cs ∨ s = .cutOff cs

section Scans

variable {n : ℕ} {s : Scan} {cs cs' full : List Char} {rest bytes : List UInt8}

theorem Scan.cons_eq_complete :
    s.cons n = .complete cs ↔ ∃ cs', s = .complete cs' ∧ cs = Char.ofNat n :: cs' := by
  cases s <;> simp [Scan.cons, eq_comm]

theorem Scan.reads_cons :
    (s.cons n).Reads cs ↔ ∃ cs', s.Reads cs' ∧ cs = Char.ofNat n :: cs' := by
  cases s <;> simp [Scan.cons, Scan.Reads, eq_comm]

@[simp] theorem Scan.reads_complete : (Scan.complete cs).Reads cs' ↔ cs' = cs := by
  simp [Scan.Reads, eq_comm]

@[simp] theorem Scan.reads_cutOff : (Scan.cutOff cs).Reads cs' ↔ cs' = cs := by
  simp [Scan.Reads, eq_comm]

@[simp] theorem Scan.not_reads_invalid : ¬ Scan.invalid.Reads cs := by
  simp [Scan.Reads]

/-- A byte that starts a character of two bytes or more. -/
def Leads (a : UInt8) : Prop := ¬ a < 0x80 ∧ ¬ (a < 0xC2 || 0xF4 < a) = true

/-- The bytes of a character, by how many there are, and its number. -/
inductive Encodes : List UInt8 → ℕ → Prop
  | one {a : UInt8} (ha : a < 0x80) : Encodes [a] a.toNat
  | two {a b : UInt8} (ha : Leads a) (hb : ¬ (!follows a b) = true) (h : a < 0xE0) :
    Encodes [a, b] ((a.toNat - 0xC0) * 64 + low6 b)
  | three {a b c : UInt8} (ha : Leads a) (hb : ¬ (!follows a b) = true) (hE : ¬ a < 0xE0)
    (hc : ¬ (!isContinuation c) = true) (h : a < 0xF0) :
    Encodes [a, b, c] (((a.toNat - 0xE0) * 64 + low6 b) * 64 + low6 c)
  | four {a b c d : UInt8} (ha : Leads a) (hb : ¬ (!follows a b) = true) (hE : ¬ a < 0xE0)
    (hc : ¬ (!isContinuation c) = true) (hF : ¬ a < 0xF0) (hd : ¬ (!isContinuation d) = true) :
    Encodes [a, b, c, d] ((((a.toNat - 0xF0) * 64 + low6 b) * 64 + low6 c) * 64 + low6 d)

/-- A character is read, and then the rest. -/
theorem utf8Scan_append {char : List UInt8} (h : Encodes char n) :
    utf8Scan (char ++ rest) = (utf8Scan rest).cons n := by
  cases h with
  | one ha =>
    rw [List.singleton_append, utf8Scan.eq_def]
    simp only [ha, if_true]
  | two ha hb h =>
    rw [List.cons_append, List.singleton_append, utf8Scan.eq_def]
    simp only [ha.1, ha.2, hb, h, if_false, if_true, Bool.false_eq_true]
  | three ha hb hE hc h =>
    rw [List.cons_append, List.cons_append, List.singleton_append, utf8Scan.eq_def]
    simp only [ha.1, ha.2, hb, hE, hc, h, if_false, if_true, Bool.false_eq_true]
  | four ha hb hE hc hF hd =>
    rw [List.cons_append, List.cons_append, List.cons_append, List.singleton_append,
      utf8Scan.eq_def]
    simp only [ha.1, ha.2, hb, hE, hc, hF, hd, if_false, Bool.false_eq_true]

/-- **What is read of the first bytes of a text is how the text begins.** -/
theorem prefix_of_reads {more : List UInt8} (h : (utf8Scan bytes).Reads cs)
    (hfull : utf8Scan (bytes ++ more) = .complete full) : cs <+: full := by
  have hcons : ∀ {n : ℕ} {char rest : List UInt8} {cs full : List Char}, Encodes char n →
      (∀ {cs full : List Char}, (utf8Scan rest).Reads cs →
        utf8Scan (rest ++ more) = .complete full → cs <+: full) →
      ((utf8Scan rest).cons n).Reads cs → utf8Scan (char ++ (rest ++ more)) = .complete full →
      cs <+: full := by
    intro n char rest cs full hchar ih h hfull
    rw [utf8Scan_append hchar] at hfull
    obtain ⟨cs', hs, rfl⟩ := Scan.reads_cons.1 h
    obtain ⟨full', ht, rfl⟩ := Scan.cons_eq_complete.1 hfull
    exact List.cons_prefix_cons.2 ⟨rfl, ih hs ht⟩
  -- a character that is read is the next of the whole text; elsewhere nothing is read
  fun_induction utf8Scan bytes generalizing cs full with
  | case1 =>
    rw [Scan.reads_complete.1 h]
    exact List.nil_prefix
  | case2 a rest ha ih => exact hcons (.one ha) ih h hfull
  | case6 a ha hbad b rest hfol hlt ih => exact hcons (.two ⟨ha, hbad⟩ hfol hlt) ih h hfull
  | case9 a ha hbad b hfol hE c rest hcont hlt ih =>
    exact hcons (.three ⟨ha, hbad⟩ hfol hE hcont hlt) ih h hfull
  | case12 a ha hbad b hfol hE c hcont hF d rest hcont' ih =>
    exact hcons (.four ⟨ha, hbad⟩ hfol hE hcont hF hcont') ih h hfull
  | case4 | case7 | case10 =>
    rw [Scan.reads_cutOff.1 h]
    exact List.nil_prefix
  | case3 | case5 | case8 | case11 => exact absurd h Scan.not_reads_invalid

/-- A character has four bytes at most. -/
theorem length_le_of_reads (h : (utf8Scan bytes).Reads cs) :
    bytes.length ≤ 4 * cs.length + 3 := by
  fun_induction utf8Scan bytes generalizing cs with
  | case1 | case4 | case7 | case10 =>
    simp only [List.length_cons, List.length_nil]
    omega
  | case2 _ _ _ ih | case6 _ _ _ _ _ _ _ ih | case9 _ _ _ _ _ _ _ _ _ _ ih
  | case12 _ _ _ _ _ _ _ _ _ _ _ _ ih =>
    obtain ⟨cs', hs, rfl⟩ := Scan.reads_cons.1 h
    have := ih hs
    simp only [List.length_cons] at this ⊢
    omega
  | case3 | case5 | case8 | case11 => exact absurd h Scan.not_reads_invalid

end Scans

theorem newlines_cr {cs : List Char} (h : ∀ cs', cs ≠ '\n' :: cs') :
    newlines ('\r' :: cs) = '\n' :: newlines cs := by
  rw [newlines.eq_3]
  exact h

theorem newlines_other {c : Char} {cs : List Char} (h : c ≠ '\r') :
    newlines (c :: cs) = c :: newlines cs := by
  rw [newlines.eq_4]
  · exact fun _ hc _ => h hc
  · exact h

/-- What has no line end in it is read as it is. -/
theorem newlines_append {cs cs' : List Char} (h : '\r' ∉ cs) :
    newlines (cs ++ cs') = cs ++ newlines cs' := by
  induction cs with
  | nil => rfl
  | cons c cs ih =>
    rw [List.cons_append, newlines_other (List.ne_of_not_mem_cons h).symm,
      ih (List.not_mem_of_not_mem_cons h), List.cons_append]

/-- A line with its end is the next one. -/
theorem fileLines_append {cs cs' : List Char} (h : '\n' ∉ cs) :
    fileLines (cs ++ '\n' :: cs') = (cs ++ ['\n']) :: fileLines cs' := by
  induction cs with
  | nil => rw [List.nil_append, fileLines, if_pos rfl, List.nil_append]
  | cons c cs ih =>
    rw [List.cons_append, fileLines, if_neg (List.ne_of_not_mem_cons h).symm,
      ih (List.not_mem_of_not_mem_cons h)]
    rfl

/-- And so is one that is left over. -/
theorem fileLines_last {cs : List Char} (h : '\n' ∉ cs) (hne : cs ≠ []) :
    fileLines cs = [cs] := by
  induction cs with
  | nil => exact absurd rfl hne
  | cons c cs ih =>
    rw [fileLines, if_neg (List.ne_of_not_mem_cons h).symm]
    cases cs with
    | nil => rfl
    | cons c' cs => rw [ih (List.not_mem_of_not_mem_cons h) (List.cons_ne_nil _ _)]

/-- Reading on does not change the lines read so far. -/
theorem newlines_part (cs more : List Char) : newlines cs <+: newlines (cs ++ more) := by
  fun_induction newlines cs with
  | case1 => exact List.nil_prefix
  | case2 cs ih =>
    rw [List.cons_append, List.cons_append, newlines]
    exact List.cons_prefix_cons.2 ⟨rfl, ih⟩
  | case3 cs hne ih =>
    cases cs with
    | nil =>
      -- a line end that waits for the next character is one all the same
      have hone : ∃ rest, newlines ('\r' :: more) = '\n' :: rest := by
        by_cases hlf : ∃ cs', more = '\n' :: cs'
        · obtain ⟨cs', rfl⟩ := hlf
          exact ⟨_, rfl⟩
        · exact ⟨_, newlines_cr fun cs' h => hlf ⟨cs', h⟩⟩
      obtain ⟨rest, hrest⟩ := hone
      show ['\n'] <+: newlines ('\r' :: more)
      rw [hrest]
      exact List.cons_prefix_cons.2 ⟨rfl, List.nil_prefix⟩
    | cons c cs =>
      rw [List.cons_append, newlines_cr]
      · exact List.cons_prefix_cons.2 ⟨rfl, ih⟩
      · intro cs' h
        rw [List.cons_append] at h
        obtain ⟨rfl, -⟩ := List.cons.inj h
        exact hne _ rfl
  | case4 c cs _ hne ih =>
    rw [List.cons_append, newlines_other hne]
    exact List.cons_prefix_cons.2 ⟨rfl, ih⟩

theorem newlines_mono {cs cs' : List Char} (h : cs <+: cs') : newlines cs <+: newlines cs' := by
  obtain ⟨more, rfl⟩ := h
  exact newlines_part cs more

/-- Two characters make one line end at most. -/
theorem length_le_newlines (cs : List Char) : cs.length ≤ 2 * (newlines cs).length := by
  fun_induction newlines cs with
  | case1 => simp
  | case2 | case3 | case4 =>
    simp only [List.length_cons] at *
    omega

theorem settled_part (cs : List Char) : settled cs <+: cs := by
  unfold settled
  split
  · exact List.dropLast_prefix cs
  · exact List.prefix_rfl

/-- **What is read is how the file's first chunk begins.** -/
theorem readText_eq_some {n : ℕ} {bytes : List UInt8} {text : List Char}
    (h : readText n bytes = some text) :
    ∃ cs, (utf8Scan (bytes.take CHUNK_SIZE)).Reads cs ∧ text = (newlines cs).take n := by
  unfold readText at h
  split at h
  · rename_i cs hscan
    exact ⟨cs, Or.inl hscan, (Option.some.inj h).symm⟩
  · rename_i cs hscan
    split at h
    · exact ⟨cs, Or.inr hscan, (Option.some.inj h).symm⟩
    · cases h
  · cases h

/-- **And, of a file that is text throughout, how the text begins.** -/
theorem readText_whole {n : ℕ} (hn : n ≤ 1000) {bytes : List UInt8} {text full : List Char}
    (h : readText n bytes = some text) (hfull : utf8Scan bytes = .complete full) :
    text = (newlines full).take n := by
  have hparts : bytes.take CHUNK_SIZE ++ bytes.drop CHUNK_SIZE = bytes := List.take_append_drop _ _
  have hmono : ∀ cs, (utf8Scan (bytes.take CHUNK_SIZE)).Reads cs → n ≤ (newlines cs).length →
      (newlines cs).take n = (newlines full).take n := by
    intro cs hreads hlen
    have hpre : cs <+: full := prefix_of_reads hreads (hparts.symm ▸ hfull)
    obtain ⟨more, hmore⟩ := newlines_mono hpre
    rw [← hmore, List.take_append_of_le_length hlen]
  unfold readText at h
  split at h
  · rename_i cs hscan
    obtain rfl := Option.some.inj h
    -- the first chunk is the whole file, or it has enough
    by_cases hshort : bytes.length ≤ CHUNK_SIZE
    · rw [List.take_of_length_le hshort, hfull] at hscan
      rw [Scan.complete.inj hscan]
    · -- a full chunk holds more characters than are asked for
      have hbytes := length_le_of_reads (Or.inl hscan)
      have hlines := length_le_newlines cs
      have hchunk : CHUNK_SIZE = 8192 := rfl
      rw [List.length_take] at hbytes
      exact hmono cs (Or.inl hscan) (by omega)
  · rename_i cs hscan
    split at h
    · rename_i hlen
      obtain rfl := Option.some.inj h
      have := (newlines_mono (settled_part cs)).length_le
      exact hmono cs (Or.inr hscan) (by omega)
    · cases h
  · cases h

/-! ## A word and the blanks around it -/

/-- Trimming at the right end takes what is to be trimmed, and no more. -/
theorem rdropWhile_append {α : Type} {p : α → Bool} {text blanks : List α}
    (hlast : ∀ a ∈ text.getLast?, ¬ p a) (hblanks : ∀ a ∈ blanks, p a) :
    (text ++ blanks).rdropWhile p = text := by
  induction blanks using List.reverseRecOn with
  | nil =>
    rw [List.append_nil, List.rdropWhile_eq_self_iff]
    exact fun hne => hlast _ (List.getLast?_eq_some_getLast hne)
  | append_singleton blanks a ih =>
    have ha : p a := hblanks a (List.mem_append_right _ (List.mem_singleton_self _))
    rw [← List.append_assoc, List.rdropWhile_concat_pos _ _ _ ha]
    exact ih fun b hb => hblanks b (List.mem_append_left _ hb)

/-- Nothing but white space. -/
def Blank (cs : List Char) : Prop := ∀ c ∈ cs, isSpace c

instance (cs : List Char) : Decidable (Blank cs) := inferInstanceAs (Decidable (∀ c ∈ cs, _))

/-- The word, in any case, with blanks around it. -/
def Says (word cs : List Char) : Prop :=
  ∃ front w back, cs = front ++ w ++ back ∧ Blank front ∧ Blank back ∧ lower w = word

/-- What is not white space. -/
def ink (cs : List Char) : List Char := cs.filter fun c => !isSpace c

section Words

variable {word cs cs' front w back : List Char}

@[simp] theorem ink_append : ink (cs ++ cs') = ink cs ++ ink cs' := List.filter_append ..

theorem ink_eq_nil : ink cs = [] ↔ Blank cs := by
  simp [ink, Blank, List.filter_eq_nil_iff]

/-- No blank is a letter. -/
theorem isSpace_toLower {c : Char} (h : isSpace c) : c.toLower = c := by
  refine dif_neg fun hupper => ?_
  have hge : 65 ≤ c.toNat := UInt32.le_iff_toNat_le.1 hupper.1
  have hle : c.toNat ≤ 90 := UInt32.le_iff_toNat_le.1 hupper.2
  simp only [isSpace, Bool.or_eq_true, Bool.and_eq_true, decide_eq_true_eq, beq_iff_eq] at h
  omega

/-- The letters of a word without blanks are none either. -/
theorem ink_of_lower (hword : ink word = word) (hw : lower w = word) : ink w = w := by
  rw [ink, List.filter_eq_self] at hword ⊢
  intro c hc
  by_contra hspace
  have hc' : isSpace c = true := by simpa using hspace
  have hmem : c ∈ word := by
    rw [← hw, lower, List.mem_map]
    exact ⟨c, hc, isSpace_toLower hc'⟩
  have := hword c hmem
  rw [hc'] at this
  cases this

/-- **Trimming and comparing** finds the word and blanks around it. -/
theorem lower_strip_iff (hword : ink word = word) (hne : word ≠ []) :
    lower (strip cs) = word ↔ Says word cs := by
  have hstrip : strip cs = (cs.dropWhile isSpace).rdropWhile isSpace := rfl
  constructor
  · intro h
    have hback : (cs.dropWhile isSpace).rdropWhile isSpace ++
        (cs.dropWhile isSpace).rtakeWhile isSpace = cs.dropWhile isSpace :=
      List.rdropWhile_append_rtakeWhile
    refine ⟨cs.takeWhile isSpace, strip cs, (cs.dropWhile isSpace).rtakeWhile isSpace, ?_,
      fun c hc => List.mem_takeWhile_imp hc, fun c hc => List.mem_rtakeWhile_imp hc, h⟩
    rw [hstrip, List.append_assoc, hback, List.takeWhile_append_dropWhile]
  · rintro ⟨front, w, back, rfl, hfront, hback, hw⟩
    have hink := ink_of_lower hword hw
    rw [ink, List.filter_eq_self] at hink
    have hwne : w ≠ [] := by
      rintro rfl
      exact hne hw.symm
    have hfirst : (front ++ w ++ back).dropWhile isSpace = w ++ back := by
      rw [List.append_assoc, List.dropWhile_append_of_pos hfront]
      obtain ⟨c, w', rfl⟩ := List.exists_cons_of_ne_nil hwne
      have hc : isSpace c = false := by simpa using hink c List.mem_cons_self
      rw [List.cons_append, List.dropWhile_cons_of_neg (by rw [hc]; exact Bool.false_ne_true)]
    have hlast : (w ++ back).rdropWhile isSpace = w := by
      refine rdropWhile_append (fun c hc => ?_) hback
      have hc' : isSpace c = false := by simpa using hink c (List.mem_of_getLast? hc)
      rw [hc']
      exact Bool.false_ne_true
    rw [hstrip, hfirst, hlast, hw]

/-- **A text that says the word goes on saying it** as long as blanks
follow. -/
theorem says_append (hword : ink word = word) (h : Says word cs) :
    Says word (cs ++ cs') ↔ Blank cs' := by
  have hlen : ∀ {v : List Char}, lower v = word → v.length = word.length := fun hv => by
    rw [← hv, lower, List.length_map]
  obtain ⟨front, w, back, rfl, hfront, hback, hw⟩ := h
  constructor
  · rintro ⟨front', w', back', heq, hfront', hback', hw'⟩
    have hink := congrArg ink heq
    simp only [ink_append, ink_eq_nil.2 hfront, ink_eq_nil.2 hback, ink_eq_nil.2 hfront',
      ink_eq_nil.2 hback', ink_of_lower hword hw, ink_of_lower hword hw', List.nil_append,
      List.append_nil] at hink
    have hlength := congrArg List.length hink
    rw [List.length_append, hlen hw, hlen hw'] at hlength
    exact ink_eq_nil.1 (List.eq_nil_of_length_eq_zero (by omega))
  · intro hblank
    refine ⟨front, w, back ++ cs', by simp only [List.append_assoc], hfront, fun c hc => ?_, hw⟩
    exact (List.mem_append.1 hc).elim (hback c) (hblank c)

/-- **Its first `n` characters say it** where it ends among them. -/
theorem says_take {n : ℕ} (hword : ink word = word) (hne : word ≠ []) (hfront : Blank front)
    (hback : Blank back) (hw : lower w = word) :
    Says word ((front ++ w ++ back).take n) ↔ front.length + w.length ≤ n := by
  constructor
  · rintro ⟨front', w', back', heq, hfront', hback', hw'⟩
    by_contra hlong
    have hlen : w'.length = w.length := by
      have h := congrArg List.length (hw.trans hw'.symm)
      simpa only [lower, List.length_map] using h.symm
    have hpos : 0 < w.length := by
      have h := congrArg List.length hw
      rw [lower, List.length_map] at h
      have := List.length_pos_iff.2 hne
      omega
    -- too little of the word is left
    have htake : (front ++ w ++ back).take n = front.take n ++ w.take (n - front.length) := by
      rw [List.take_append_of_le_length (by rw [List.length_append]; omega), List.take_append]
    have hblank : Blank (front.take n) := fun c hc => hfront c (List.take_subset _ _ hc)
    have hink := congrArg ink heq
    rw [htake] at hink
    simp only [ink_append, ink_eq_nil.2 hblank, ink_eq_nil.2 hfront', ink_eq_nil.2 hback',
      ink_of_lower hword hw', List.nil_append, List.append_nil] at hink
    have hshort : (ink (w.take (n - front.length))).length ≤ n - front.length :=
      (List.length_filter_le _ _).trans (List.length_take_le _ _)
    rw [hink] at hshort
    omega
  · intro hle
    refine ⟨front, w, back.take (n - (front ++ w).length), ?_, hfront,
      fun c hc => hback c (List.take_subset _ _ hc), hw⟩
    rw [List.take_append, List.take_of_length_le (by rw [List.length_append]; exact hle)]

end Words

end Text

end VehicleStack
