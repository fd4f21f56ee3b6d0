import Mathlib.Data.List.Induction

/-!
# An outline by its indentation

The rows of an outline come one after the other, each with how far it is
indented and whether it opens a block. A reader that keeps a stack drops
from it what is indented as far as the next row or farther, and puts the
row on it where it opens a block. What it then takes a row to be in can be
told without a stack (`top_stackOf`): one looks up the rows above, from each
to the next that is indented less, until one opens a block. Where the rows
are nested as they are indented, these are the rows it is nested in: what
comes between is passed over (`enclosing_append`). The stack gives each row
its path. What is in a block has it in its path (`paths_within`), and what
follows it is read as if there were nothing in it (`paths_behind`).
-/

namespace VehicleStack

namespace Outline

/-- A row, and whether it opens a block. -/
structure Row (α : Type) where
  indent : ℕ
  label : α
  opens : Bool
  deriving DecidableEq, Repr

section Stack

variable {α : Type} {stack : List (ℕ × α)} {rows above : List (Row α)} {r : Row α} {m n : ℕ}

/-- What is left of a stack for a row of that indentation, the latest first. -/
def popped (stack : List (ℕ × α)) (indent : ℕ) : List (ℕ × α) :=
  stack.dropWhile fun block => indent ≤ block.1

/-- The stack after a row. -/
def push (stack : List (ℕ × α)) (r : Row α) : List (ℕ × α) :=
  let stack := popped stack r.indent
  if r.opens then (r.indent, r.label) :: stack else stack

/-- The stack after all of the rows. -/
def stackOf (rows : List (Row α)) : List (ℕ × α) := rows.foldl push []

/-- The block that a row of that indentation is taken to be in. -/
def top (stack : List (ℕ × α)) (indent : ℕ) : Option α := (popped stack indent).head?.map Prod.snd

/-- The same without a stack, of the rows above it, the next one first. -/
def enclosing : List (Row α) → ℕ → Option α
  | [], _ => none
  | r :: above, n =>
    if r.indent < n then if r.opens then some r.label else enclosing above r.indent
    else enclosing above n

/-- What is dropped for a row is dropped for one that is indented less. -/
theorem popped_popped (h : m ≤ n) : popped (popped stack n) m = popped stack m := by
  induction stack with
  | nil => rfl
  | cons block stack ih =>
    by_cases hn : n ≤ block.1
    · have hm : m ≤ block.1 := Nat.le_trans h hn
      simpa only [popped, List.dropWhile_cons, hn, hm, decide_true, if_true] using ih
    · simp only [popped, List.dropWhile_cons, hn, decide_false, if_false, Bool.false_eq_true]

/-- What is left is left for one that is indented more. -/
theorem popped_of_lt (h : m < n) : popped (popped stack m) n = popped stack m := by
  cases hleft : popped stack m with
  | nil => rfl
  | cons block left =>
    have hstop : ¬ m ≤ block.1 := by
      have := List.head?_dropWhile_not (fun b : ℕ × α => decide (m ≤ b.1)) stack
      rw [← popped, hleft] at this
      simpa using this
    have hn : ¬ n ≤ block.1 := fun hle => hstop (Nat.le_trans (Nat.le_of_lt h) hle)
    simp only [popped, List.dropWhile_cons, hn, decide_false, if_false, Bool.false_eq_true]

/-- **The stack holds no more than can be looked up.** -/
theorem top_stackOf : top (stackOf rows) n = enclosing rows.reverse n := by
  induction rows using List.reverseRecOn generalizing n with
  | nil => rfl
  | append_singleton rows r ih =>
    have hlast : stackOf (rows ++ [r]) = push (stackOf rows) r := by
      rw [stackOf, List.foldl_append]
      rfl
    rw [List.reverse_append, List.reverse_singleton, List.singleton_append, enclosing, hlast, push]
    by_cases hlt : r.indent < n
    · rw [if_pos hlt]
      cases hopens : r.opens with
      | true =>
        have hn : ¬ n ≤ r.indent := Nat.not_le.2 hlt
        simp [top, popped, hn]
      | false =>
        rw [if_neg Bool.false_ne_true, if_neg Bool.false_ne_true, ← ih, top, popped_of_lt hlt, top]
    · have hn : n ≤ r.indent := Nat.not_lt.1 hlt
      rw [if_neg hlt, ← ih]
      cases hopens : r.opens with
      | true =>
        have hdrop : popped ((r.indent, r.label) :: popped (stackOf rows) r.indent) n =
            popped (popped (stackOf rows) r.indent) n := by
          simp only [popped, List.dropWhile_cons, hn, decide_true, if_true]
        rw [if_pos rfl, top, hdrop, popped_popped hn, top]
      | false => rw [if_neg Bool.false_ne_true, top, popped_popped hn, top]

/-- Rows that are indented as far or farther are passed over. -/
theorem enclosing_append (h : ∀ r ∈ rows, n ≤ r.indent) :
    enclosing (rows ++ above) n = enclosing above n := by
  induction rows with
  | nil => rfl
  | cons r rows ih =>
    have hr : ¬ r.indent < n := Nat.not_lt.2 (h r List.mem_cons_self)
    rw [List.cons_append, enclosing, if_neg hr]
    exact ih fun r' hr' => h r' (List.mem_cons_of_mem _ hr')

end Stack

/-! ## Paths -/

section Paths

variable {α : Type} {stack extra : List (ℕ × α)} {rows rows' : List (Row α)} {r : Row α} {a : α}
  {m n : ℕ}

/-- A row, with the blocks that it is in before it. -/
def path (stack : List (ℕ × α)) (r : Row α) : List α :=
  ((popped stack r.indent).map Prod.snd).reverse ++ [r.label]

/-- The paths of rows that follow on a stack. -/
def paths : List (ℕ × α) → List (Row α) → List (List α)
  | _, [] => []
  | stack, r :: rows => path stack r :: paths (push stack r) rows

theorem paths_append :
    paths stack (rows ++ rows') = paths stack rows ++ paths (rows.foldl push stack) rows' := by
  induction rows generalizing stack with
  | nil => rfl
  | cons r rows ih => rw [List.cons_append, paths, ih, paths, List.foldl_cons, List.cons_append]

/-- What is dropped of what lies above a block. -/
theorem popped_above (h : n < m) :
    popped (extra ++ (n, a) :: stack) m = popped extra m ++ (n, a) :: stack := by
  have hstop : ¬ m ≤ n := Nat.not_le.2 h
  induction extra with
  | nil => simp [popped, hstop]
  | cons block extra ih =>
    by_cases hdrop : m ≤ block.1
    · simpa only [popped, List.cons_append, List.dropWhile_cons, hdrop, decide_true, if_true]
        using ih
    · simp [popped, hdrop]

/-- Where what lies above a block is indented farther than it, less is left
without it. -/
theorem popped_through (hextra : ∀ block ∈ extra, n < block.1) (h : m ≤ n) :
    popped (extra ++ (n, a) :: stack) m = popped stack m := by
  induction extra with
  | nil => simp [popped, h]
  | cons block extra ih =>
    have hdrop : m ≤ block.1 := Nat.le_trans h (Nat.le_of_lt (hextra block List.mem_cons_self))
    simpa only [popped, List.cons_append, List.dropWhile_cons, hdrop, decide_true, if_true]
      using ih fun block hblock => hextra block (List.mem_cons_of_mem _ hblock)

/-- A row in a block stays above it, -/
theorem push_within (hextra : ∀ block ∈ extra, n < block.1) (hr : n < r.indent) :
    ∃ extra', push (extra ++ (n, a) :: stack) r = extra' ++ (n, a) :: stack ∧
      ∀ block ∈ extra', n < block.1 := by
  have hpopped : ∀ block ∈ popped extra r.indent, n < block.1 := fun block hblock =>
    hextra block (List.dropWhile_subset _ hblock)
  rw [push, popped_above hr]
  split
  · refine ⟨(r.indent, r.label) :: popped extra r.indent, rfl, fun block hblock => ?_⟩
    rcases List.mem_cons.1 hblock with rfl | hblock
    · exact hr
    · exact hpopped block hblock
  · exact ⟨_, rfl, hpopped⟩

/-- **and so do all of them**, -/
theorem foldl_push_within (hextra : ∀ block ∈ extra, n < block.1)
    (hrows : ∀ r ∈ rows, n < r.indent) :
    ∃ extra', rows.foldl push (extra ++ (n, a) :: stack) = extra' ++ (n, a) :: stack ∧
      ∀ block ∈ extra', n < block.1 := by
  induction rows generalizing extra with
  | nil => exact ⟨extra, rfl, hextra⟩
  | cons r rows ih =>
    obtain ⟨extra', hpush, hextra'⟩ := push_within hextra (hrows r List.mem_cons_self)
    rw [List.foldl_cons, hpush]
    exact ih hextra' fun r' hr' => hrows r' (List.mem_cons_of_mem _ hr')

/-- and their paths go through it. -/
theorem path_within (h : n < r.indent) :
    ∃ deeper, path (extra ++ (n, a) :: stack) r =
      (stack.map Prod.snd).reverse ++ [a] ++ deeper ∧ deeper ≠ [] := by
  refine ⟨((popped extra r.indent).map Prod.snd).reverse ++ [r.label], ?_, by simp⟩
  rw [path, popped_above h]
  simp

theorem paths_within (hextra : ∀ block ∈ extra, n < block.1) (hrows : ∀ r ∈ rows, n < r.indent) :
    ∀ q ∈ paths (extra ++ (n, a) :: stack) rows,
      ∃ deeper, q = (stack.map Prod.snd).reverse ++ [a] ++ deeper ∧ deeper ≠ [] := by
  induction rows generalizing extra with
  | nil => exact fun q hq => absurd hq List.not_mem_nil
  | cons r rows ih =>
    intro q hq
    have hr := hrows r List.mem_cons_self
    rcases List.mem_cons.1 hq with rfl | hq
    · exact path_within hr
    · obtain ⟨extra', hpush, hextra'⟩ := push_within hextra hr
      rw [hpush] at hq
      exact ih hextra' (fun r' hr' => hrows r' (List.mem_cons_of_mem _ hr')) q hq

/-- **What follows a block is read as if there were nothing in it.** -/
theorem paths_behind (hextra : ∀ block ∈ extra, n < block.1)
    (hrows : ∀ r ∈ rows.head?, r.indent ≤ n) :
    paths (extra ++ (n, a) :: stack) rows = paths stack rows := by
  rcases rows with _ | ⟨r, rows⟩
  · rfl
  · have hr : popped (extra ++ (n, a) :: stack) r.indent = popped stack r.indent :=
      popped_through hextra (hrows r rfl)
    rw [paths, paths, path, path, push, push, hr]

/-- Rows of one indentation that open nothing. -/
theorem paths_leaves (hopens : ∀ r ∈ rows, r.opens = false) (hindent : ∀ r ∈ rows, r.indent = m)
    (h : popped stack m = stack) :
    paths stack rows = rows.map (fun r => (stack.map Prod.snd).reverse ++ [r.label]) ∧
      rows.foldl push stack = stack := by
  induction rows with
  | nil => exact ⟨rfl, rfl⟩
  | cons r rows ih =>
    obtain ⟨hpaths, hstack⟩ := ih (fun r' hr' => hopens r' (List.mem_cons_of_mem _ hr'))
      fun r' hr' => hindent r' (List.mem_cons_of_mem _ hr')
    have hpush : push stack r = stack := by
      rw [push, hopens r List.mem_cons_self, hindent r List.mem_cons_self, h]
      exact if_neg Bool.false_ne_true
    constructor
    · rw [paths, hpush, hpaths, path, hindent r List.mem_cons_self, h, List.map_cons]
    · rw [List.foldl_cons, hpush, hstack]

end Paths

end Outline

end VehicleStack
