import Mathlib.Data.List.TakeWhile
import Mathlib.Data.Int.Notation

/-!
# Numbers at the head of a text

How C reads a decimal integer: blanks are skipped, a sign may follow, and
then the longest run of digits is taken, of which there must be one. What
comes after the digits is not looked at. `scanInt` reads, `Reads` says what
there is to be read, and `scanInt_eq_some` that the two agree.
-/

namespace VehicleStack

namespace Decimal

/-- `isspace`, in the C locale. -/
def isSpace (b : UInt8) : Bool := b == 0x20 || (0x09 ≤ b && b ≤ 0x0D)

/-- `isdigit`. -/
def isDigit (b : UInt8) : Bool := 0x30 ≤ b && b ≤ 0x39

/-- The number that digits stand for. -/
def value (digits : List UInt8) : ℕ := digits.foldl (fun n d => n * 10 + (d.toNat - 0x30)) 0

/-- The sign of a number, and the rest. -/
def signed : List UInt8 → ℤ × List UInt8
  | 0x2D :: rest => (-1, rest)
  | 0x2B :: rest => (1, rest)
  | text => (1, text)

/-- The integer at the head of a text. -/
def scanInt (text : List UInt8) : Option ℤ :=
  let s := signed (text.dropWhile isSpace)
  let digits := s.2.takeWhile isDigit
  if digits.isEmpty then none else some (s.1 * value digits)

/-- The signs there are, and what they do. -/
def Sign (sign : List UInt8) (factor : ℤ) : Prop :=
  sign = [] ∧ factor = 1 ∨ sign = [0x2B] ∧ factor = 1 ∨ sign = [0x2D] ∧ factor = -1

/-- The text has the integer `n` at its head. -/
def Reads (text : List UInt8) (n : ℤ) : Prop :=
  ∃ blanks sign digits rest factor, text = blanks ++ (sign ++ (digits ++ rest)) ∧
    (∀ b ∈ blanks, isSpace b = true) ∧ Sign sign factor ∧ digits ≠ [] ∧
    (∀ d ∈ digits, isDigit d = true) ∧ (∀ d ∈ rest.head?, isDigit d = false) ∧
    n = factor * value digits

variable {text rest digits sign : List UInt8} {n factor : ℤ} {b d : UInt8}

/-! ## Signs -/

theorem isDigit_bounds (h : isDigit d = true) : 0x30 ≤ d.toNat ∧ d.toNat ≤ 0x39 := by
  rw [isDigit, Bool.and_eq_true, decide_eq_true_iff, decide_eq_true_iff] at h
  exact h

/-- A digit is no sign and no blank. -/
theorem signed_digit (h : isDigit d = true) : signed (d :: text) = (1, d :: text) := by
  have hbounds := isDigit_bounds h
  unfold signed
  split
  · rename_i heq
    obtain ⟨rfl, -⟩ := List.cons.inj heq
    exact absurd hbounds.1 (by decide)
  · rename_i heq
    obtain ⟨rfl, -⟩ := List.cons.inj heq
    exact absurd hbounds.1 (by decide)
  · rfl

theorem not_isSpace_of_isDigit (h : isDigit d = true) : isSpace d = false := by
  have hbounds := isDigit_bounds h
  rw [isSpace, Bool.or_eq_false_iff, Bool.and_eq_false_iff, beq_eq_false_iff_ne,
    decide_eq_false_iff_not, decide_eq_false_iff_not]
  refine ⟨?_, Or.inr fun hle => ?_⟩
  · rintro rfl
    exact absurd hbounds.1 (by decide)
  · have hlt : d.toNat ≤ 0x0D := hle
    omega

/-- What comes off is a sign. -/
theorem sign_of_signed (text : List UInt8) :
    ∃ sign, Sign sign (signed text).1 ∧ text = sign ++ (signed text).2 := by
  unfold signed
  split
  · exact ⟨[0x2D], Or.inr (Or.inr ⟨rfl, rfl⟩), rfl⟩
  · exact ⟨[0x2B], Or.inr (Or.inl ⟨rfl, rfl⟩), rfl⟩
  · exact ⟨[], Or.inl ⟨rfl, rfl⟩, rfl⟩

/-- **A sign before digits comes off.** -/
theorem signed_append (hsign : Sign sign factor) (hd : isDigit d = true) :
    signed (sign ++ d :: rest) = (factor, d :: rest) := by
  rcases hsign with ⟨rfl, rfl⟩ | ⟨rfl, rfl⟩ | ⟨rfl, rfl⟩
  · exact signed_digit hd
  · rfl
  · rfl

/-- A sign and a digit do not begin with a blank. -/
theorem dropWhile_isSpace (hsign : Sign sign factor) (hd : isDigit d = true) :
    (sign ++ d :: rest).dropWhile isSpace = sign ++ d :: rest := by
  rcases hsign with ⟨rfl, rfl⟩ | ⟨rfl, rfl⟩ | ⟨rfl, rfl⟩
  · exact List.dropWhile_cons_of_neg (by rw [not_isSpace_of_isDigit hd]; exact Bool.false_ne_true)
  · exact List.dropWhile_cons_of_neg (by decide)
  · exact List.dropWhile_cons_of_neg (by decide)

/-! ## Reading -/

/-- The digits end where something else begins. -/
theorem takeWhile_isDigit (hdigits : ∀ d ∈ digits, isDigit d = true)
    (hrest : ∀ d ∈ rest.head?, isDigit d = false) :
    (digits ++ rest).takeWhile isDigit = digits := by
  rw [List.takeWhile_append_of_pos hdigits]
  have hnone : rest.takeWhile isDigit = [] := by
    cases rest with
    | nil => rfl
    | cons d rest =>
      have hd : isDigit d = false := hrest d rfl
      exact List.takeWhile_cons_of_neg (by rw [hd]; exact Bool.false_ne_true)
  rw [hnone, List.append_nil]

/-- **What is read is what there is to be read.** -/
theorem scanInt_eq_some : scanInt text = some n ↔ Reads text n := by
  constructor
  · intro h
    unfold scanInt at h
    dsimp only at h
    split at h
    · cases h
    rename_i hdigits
    obtain rfl := Option.some.inj h
    obtain ⟨sign, hsign, heq⟩ := sign_of_signed (text.dropWhile isSpace)
    set s := signed (text.dropWhile isSpace) with hs
    refine ⟨text.takeWhile isSpace, sign, s.2.takeWhile isDigit, s.2.dropWhile isDigit, s.1, ?_,
      fun b hb => List.mem_takeWhile_imp hb, hsign, ?_, fun d hd => List.mem_takeWhile_imp hd, ?_,
      rfl⟩
    · rw [List.takeWhile_append_dropWhile, ← heq, List.takeWhile_append_dropWhile]
    · exact fun hnil => hdigits (List.isEmpty_iff.2 hnil)
    · intro d hd
      have hnot := List.head?_dropWhile_not isDigit s.2
      rw [Option.mem_def.1 hd] at hnot
      simpa using hnot
  · rintro ⟨blanks, sign, digits, rest, factor, rfl, hblanks, hsign, hne, hdigits, hrest, rfl⟩
    obtain ⟨d, more, rfl⟩ := List.exists_cons_of_ne_nil hne
    have hd : isDigit d = true := hdigits d List.mem_cons_self
    have hbody : signed ((blanks ++ (sign ++ (d :: more ++ rest))).dropWhile isSpace) =
        (factor, d :: more ++ rest) := by
      rw [List.dropWhile_append_of_pos hblanks, List.cons_append, dropWhile_isSpace hsign hd,
        signed_append hsign hd]
    unfold scanInt
    rw [hbody]
    dsimp only
    rw [takeWhile_isDigit hdigits hrest, if_neg (by simp)]

end Decimal

end VehicleStack
