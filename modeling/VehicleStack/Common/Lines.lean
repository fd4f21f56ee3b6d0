import VehicleStack.Common.Text

/-!
# The lines of a text

A text that is read whole and split at its line breaks, and lines that are
joined by them. Lines without a break in them are read back as they were
written (`lines_unlines`).
-/

namespace VehicleStack

namespace Text

/-- `f.read().split('\n')`. -/
def lines (cs : List Char) : List (List Char) := (newlines cs).splitOn '\n'

/-- `'\n'.join(ls)`. -/
def unlines (ls : List (List Char)) : List Char := ['\n'].intercalate ls

/-- No line has a break within it. -/
def Unbroken (ls : List (List Char)) : Prop := ∀ l ∈ ls, '\n' ∉ l ∧ '\r' ∉ l

instance (ls : List (List Char)) : Decidable (Unbroken ls) :=
  inferInstanceAs (Decidable (∀ l ∈ ls, _))

section Lines

variable {c : Char} {cs l : List Char} {ls : List (List Char)}

theorem not_mem_newlines : '\r' ∉ newlines cs := by
  fun_induction newlines cs with
  | case1 => exact List.not_mem_nil
  | case2 cs ih => simpa using ih
  | case3 cs _ ih => simpa using ih
  | case4 c cs hcrlf hcr ih =>
    have hc : c ≠ '\r' := fun h => hcr h
    simpa [hc.symm] using ih

theorem newlines_of_not_mem (h : '\r' ∉ cs) : newlines cs = cs := by
  have happend : newlines (cs ++ []) = cs ++ newlines [] := newlines_append h
  rwa [List.append_nil, newlines, List.append_nil] at happend

theorem not_mem_of_mem_splitOn (h : l ∈ cs.splitOn '\n') : '\n' ∉ l := by
  induction cs generalizing l with
  | nil =>
    rw [List.splitOn_nil, List.mem_singleton] at h
    rw [h]
    exact List.not_mem_nil
  | cons c cs ih =>
    rw [List.splitOn_cons_eq_if_modifyHead] at h
    obtain ⟨first, rest, hsplit⟩ := List.exists_cons_of_ne_nil (List.splitOn_ne_nil '\n' cs)
    rw [hsplit] at h ih
    split at h
    · rcases List.mem_cons.1 h with rfl | h
      · exact List.not_mem_nil
      · exact ih h
    · rename_i hc
      rw [List.modifyHead_cons] at h
      rcases List.mem_cons.1 h with rfl | h
      · intro hmem
        rcases List.mem_cons.1 hmem with rfl | hmem
        · exact hc BEq.rfl
        · exact ih List.mem_cons_self hmem
      · exact ih (List.mem_cons_of_mem _ h)

/-- What is in a joined text is a break or in one of its lines. -/
theorem mem_unlines_of_ne (hc : c ≠ '\n') : c ∈ unlines ls ↔ ∃ l ∈ ls, c ∈ l := by
  induction ls with
  | nil => simp [unlines]
  | cons l ls ih =>
    rcases ls with _ | ⟨l', ls⟩
    · simp [unlines]
    · rw [unlines, List.intercalate_cons_cons, ← unlines, List.mem_append, List.mem_append, ih,
        List.mem_singleton, List.exists_mem_cons_iff]
      simp [hc]

theorem unbroken_lines : Unbroken (lines cs) := by
  intro l hl
  have hjoin : unlines (lines cs) = newlines cs := List.intercalate_splitOn '\n'
  refine ⟨not_mem_of_mem_splitOn hl, fun hc => absurd ?_ (not_mem_newlines : '\r' ∉ newlines cs)⟩
  rw [← hjoin]
  exact (mem_unlines_of_ne (by decide)).2 ⟨l, hl, hc⟩

/-- **Lines that are written are read back.** -/
theorem lines_unlines (h : Unbroken ls) (hne : ls ≠ []) : lines (unlines ls) = ls := by
  have hcr : '\r' ∉ unlines ls := by
    intro hmem
    obtain ⟨l, hl, hc⟩ := (mem_unlines_of_ne (by decide)).1 hmem
    exact (h l hl).2 hc
  rw [lines, newlines_of_not_mem hcr]
  exact List.splitOn_intercalate '\n' (fun l hl => (h l hl).1) hne

end Lines

/-! ## What is stripped -/

section Stripped

variable {cs : List Char}

/-- A text is what is left of it when it is stripped, with blanks around. -/
theorem exists_strip (cs : List Char) :
    ∃ front back, cs = front ++ (strip cs ++ back) ∧ Blank front ∧ Blank back := by
  refine ⟨cs.takeWhile isSpace, ((cs.dropWhile isSpace).reverse.takeWhile isSpace).reverse, ?_,
    fun c hc => List.mem_takeWhile_imp hc, fun c hc => ?_⟩
  · rw [strip, ← List.reverse_append, List.takeWhile_append_dropWhile, List.reverse_reverse,
      List.takeWhile_append_dropWhile]
  · rw [List.mem_reverse] at hc
    exact List.mem_takeWhile_imp hc

theorem strip_eq_nil_iff : strip cs = [] ↔ Blank cs := by
  constructor
  · intro h
    obtain ⟨front, back, hcs, hfront, hback⟩ := exists_strip cs
    rw [h, List.nil_append] at hcs
    rw [hcs]
    intro c hc
    rcases List.mem_append.1 hc with hc | hc
    · exact hfront c hc
    · exact hback c hc
  · intro h
    rw [strip, List.dropWhile_eq_nil_iff.2 h]
    rfl

end Stripped

end Text

end VehicleStack
