import Mathlib.Algebra.Group.Nat.Defs
import VehicleStack.Common.Text

/-!
# Decimal numbers as text

Python's `int` of a text and `str` of an integer. The digits that `int` takes
are Unicode's decimal ones: a parameter (`Digits`), of which those of ASCII
are known. What is written is read back (`int_str`), also out of the bytes of
a file (`utf8Scan_ascii`).
-/

namespace VehicleStack

namespace Numeral

open Text

/-- The decimal digits and what they are worth. -/
structure Digits where
  value : Char → Option ℕ
  ascii : ∀ c : Char, c.isDigit = true → value c = some (c.toNat - '0'.toNat)

/-- No numeral is longer. -/
def MAX_STR_DIGITS : ℕ := 4300

/-- The digits of a numeral; one underscore may stand between two of them. -/
def digits (u : Digits) : List Char → Option (List ℕ)
  | [] => none
  | [c] => (u.value c).map fun d => [d]
  | c :: '_' :: cs => (u.value c).bind fun d => (digits u cs).map (d :: ·)
  | c :: cs => (u.value c).bind fun d => (digits u cs).map (d :: ·)

/-- The sign of a numeral, and the rest. -/
def signed : List Char → ℤ × List Char
  | '-' :: cs => (-1, cs)
  | '+' :: cs => (1, cs)
  | cs => (1, cs)

/-- `int(text)`; `none` is `ValueError`. -/
def int (u : Digits) (text : List Char) : Option ℤ :=
  let s := signed (strip text)
  match digits u s.2 with
  | none => none
  | some ds =>
    if ds.length > MAX_STR_DIGITS then none
    else some (s.1 * (ds.foldl (fun n d => 10 * n + d) 0 : ℕ))

/-- `str(n)`. -/
def str (n : ℤ) : List Char :=
  if n < 0 then '-' :: Nat.toDigits 10 n.natAbs else Nat.toDigits 10 n.natAbs

variable {u : Digits} {cs : List Char} {c : Char} {n : ℕ}

theorem isDigit_bounds (h : c.isDigit = true) : 0x30 ≤ c.toNat ∧ c.toNat ≤ 0x39 := by
  rw [Char.isDigit, Bool.and_eq_true, decide_eq_true_iff, decide_eq_true_iff] at h
  exact ⟨UInt32.le_iff_toNat_le.1 h.1, UInt32.le_iff_toNat_le.1 h.2⟩

theorem not_isSpace_of_isDigit (h : c.isDigit = true) : isSpace c = false := by
  have hbounds := isDigit_bounds h
  rw [← Bool.not_eq_true]
  intro hspace
  simp only [isSpace, Bool.or_eq_true, Bool.and_eq_true, decide_eq_true_eq, beq_iff_eq] at hspace
  omega

/-- ASCII digits are digits. -/
theorem digits_of_isDigit (hne : cs ≠ []) (h : ∀ c ∈ cs, c.isDigit = true) :
    digits u cs = some (cs.map fun c => c.toNat - '0'.toNat) := by
  induction cs with
  | nil => exact absurd rfl hne
  | cons c cs ih =>
    have hc := u.ascii c (h c List.mem_cons_self)
    have hrest := fun c' hc' => h c' (List.mem_cons_of_mem c hc')
    rcases cs with _ | ⟨c', cs⟩
    · rw [digits, hc]
      rfl
    · have hunder : c' ≠ '_' := by
        rintro rfl
        exact absurd (hrest '_' List.mem_cons_self) (by decide)
      rw [digits, hc, ih (List.cons_ne_nil _ _) hrest]
      · rfl
      · simp
      · exact fun _ heq => hunder (List.cons.inj heq).1

/-- A digit begins no sign. -/
theorem signed_of_isDigit (h : ∀ c ∈ cs.head?, c.isDigit = true) : signed cs = (1, cs) := by
  unfold signed
  split
  · exact absurd (h '-' rfl) (by decide)
  · exact absurd (h '+' rfl) (by decide)
  · rfl

/-- Digits with blanks behind them are trimmed to the digits. -/
theorem strip_digits {blanks : List Char} (hne : cs ≠ []) (h : ∀ c ∈ cs, c.isDigit = true)
    (hblank : Blank blanks) : strip (cs ++ blanks) = cs := by
  have hstrip : strip (cs ++ blanks) = ((cs ++ blanks).dropWhile isSpace).rdropWhile isSpace := rfl
  obtain ⟨c, cs', rfl⟩ := List.exists_cons_of_ne_nil hne
  have hc := not_isSpace_of_isDigit (h c List.mem_cons_self)
  rw [hstrip, List.cons_append, List.dropWhile_cons_of_neg (by rw [hc]; exact Bool.false_ne_true),
    ← List.cons_append]
  refine rdropWhile_append (fun d hd => ?_) hblank
  rw [not_isSpace_of_isDigit (h d (List.mem_of_getLast? hd))]
  exact Bool.false_ne_true

theorem foldl_digits : (cs.map fun c => c.toNat - '0'.toNat).foldl (fun n d => 10 * n + d) 0 =
    Nat.ofDigitChars 10 cs 0 := by
  rw [List.foldl_map, Nat.ofDigitChars_eq_foldl]

theorem str_natCast : str n = Nat.toDigits 10 n := by
  rw [str, if_neg (by omega), Int.natAbs_natCast]

theorem isDigit_str (hc : c ∈ str n) : c.isDigit = true := by
  rw [str_natCast] at hc
  exact Nat.isDigit_of_mem_toDigits (by decide) (by decide) hc

theorem str_ne_nil : str n ≠ [] := by
  rw [str_natCast]
  exact Nat.toDigits_ne_nil

/-- Blanks behind a number are trimmed. -/
theorem strip_str {blanks : List Char} (hblank : Blank blanks) :
    strip (str n ++ blanks) = str n :=
  strip_digits str_ne_nil (fun _ hc => isDigit_str hc) hblank

/-- **What is written is read back.** -/
theorem int_str (hlt : n < 10 ^ MAX_STR_DIGITS) : int u (str n) = some (n : ℤ) := by
  have hlen : (str n).length ≤ MAX_STR_DIGITS := by
    rw [str_natCast]
    exact (Nat.length_toDigits_le_iff (by decide) (by decide)).2 hlt
  have hstrip := @strip_str n [] fun c hc => absurd hc List.not_mem_nil
  rw [List.append_nil] at hstrip
  rw [int, hstrip, signed_of_isDigit fun c hc => isDigit_str (List.mem_of_mem_head? hc)]
  dsimp only
  rw [digits_of_isDigit str_ne_nil fun c hc => isDigit_str hc]
  dsimp only
  rw [List.length_map, if_neg (Nat.not_lt.2 hlen), foldl_digits, str_natCast,
    Nat.ofDigitChars_ten_toDigits, Int.one_mul]

/-! ## The bytes -/

/-- The bytes of ASCII characters. -/
def bytesOf (cs : List Char) : List UInt8 := cs.map fun c => UInt8.ofNat c.toNat

/-- **ASCII is read as it is written.** -/
theorem utf8Scan_ascii (h : ∀ c ∈ cs, c.toNat < 0x80) : utf8Scan (bytesOf cs) = .complete cs := by
  induction cs with
  | nil => rfl
  | cons c cs ih =>
    have hc := h c List.mem_cons_self
    have hbyte : (UInt8.ofNat c.toNat).toNat = c.toNat := by
      rw [UInt8.toNat_ofNat']
      omega
    have hlt : UInt8.ofNat c.toNat < 0x80 := by
      rw [UInt8.lt_iff_toNat_lt, hbyte]
      exact hc
    have hread : utf8Scan ([UInt8.ofNat c.toNat] ++ bytesOf cs) = _ := utf8Scan_append (.one hlt)
    rw [ih fun c' hc' => h c' (List.mem_cons_of_mem c hc'), hbyte] at hread
    change utf8Scan ([UInt8.ofNat c.toNat] ++ bytesOf cs) = _
    rw [hread, Scan.cons, Char.ofNat_toNat]

end Numeral

end VehicleStack
