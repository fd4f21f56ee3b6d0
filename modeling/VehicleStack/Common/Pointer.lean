import Mathlib.Data.List.Basic
import Mathlib.Data.List.Induction
import Mathlib.Data.List.TakeWhile

/-!
# A pointer that is led along

A list of items, and a pointer into it that is only ever moved on: at each
mark it goes on, over the items before that mark, and stops at the first that
is not. Where of two marks one reaches all that the other does (`Led`), it
stands behind the longest front of the list, after its first item, of which
each is before some mark so far (`foldl_catchUp`). What comes later than an
item that is before none of them is out of its reach.
-/

namespace VehicleStack

namespace Pointer

section

variable {α β : Type} (before : α → β → Bool)

/-- The pointer, moved on from item `i`. -/
def catchUp (items : List α) (mark : β) (i : ℕ) : ℕ :=
  if h : i + 1 < items.length then
    if before items[i + 1] mark then catchUp items mark (i + 1) else i
  else i
  termination_by items.length - i

/-- A mark that reaches an item the last one did not reaches all that one
did. -/
def Led : Prop :=
  ∀ item mark mark', before item mark = false → before item mark' = true →
    ∀ item', before item' mark = true → before item' mark' = true

/-- How many items after the first there are up to one that is before none of
the marks. -/
def behind (items : List α) (marks : List β) : ℕ :=
  (items.tail.takeWhile fun item => marks.any (before item)).length

end

variable {α β : Type} {before : α → β → Bool} {items : List α} {marks : List β} {mark : β} {i : ℕ}

/-- Where the pointer comes to. -/
theorem catchUp_eq : catchUp before items mark i =
    i + ((items.drop (i + 1)).takeWhile (before · mark)).length := by
  fun_induction catchUp before items mark i with
  | case1 i hlt hbefore ih =>
    rw [ih, List.drop_eq_getElem_cons hlt, List.takeWhile_cons, if_pos hbefore, List.length_cons]
    omega
  | case2 i hlt hnot =>
    rw [List.drop_eq_getElem_cons hlt, List.takeWhile_cons, if_neg hnot]
    rfl
  | case3 i hend =>
    rw [List.drop_eq_nil_of_le (Nat.not_lt.1 hend)]
    rfl

/-- One stretch and then another, where the second takes in the first. -/
theorem length_takeWhile_or {p q : α → Bool}
    (h : ∀ item, p item = false → q item = true → ∀ item', p item' = true → q item' = true)
    (items : List α) :
    (items.takeWhile p).length + ((items.drop (items.takeWhile p).length).takeWhile q).length =
      (items.takeWhile fun item => p item || q item).length := by
  induction items with
  | nil => rfl
  | cons item items ih =>
    by_cases hp : p item = true
    · have hor : (p item || q item) = true := by rw [hp, Bool.true_or]
      rw [List.takeWhile_cons, if_pos hp, List.takeWhile_cons, if_pos hor, List.length_cons,
        List.length_cons, List.drop_succ_cons, ← ih]
      omega
    · have hp' : p item = false := Bool.eq_false_iff.2 hp
      rw [List.takeWhile_cons, if_neg hp, List.length_nil, List.drop_zero, Nat.zero_add]
      by_cases hq : q item = true
      · -- from here on the second stretch is all there is
        have hsame : (fun item => p item || q item) = q := by
          funext item'
          by_cases hp'' : p item' = true
          · rw [hp'', h item hp' hq item' hp'', Bool.true_or]
          · rw [Bool.eq_false_iff.2 hp'', Bool.false_or]
        rw [hsame]
      · have hor : ¬ (p item || q item) = true := by
          rw [hp', Bool.false_or]
          exact hq
        rw [List.takeWhile_cons, if_neg hq, List.takeWhile_cons, if_neg hor]

/-- A mark that reaches an item none before it did reaches all they did. -/
theorem Led.any (h : Led before) {item item' : α} (hnot : marks.any (before item) = false)
    (hmark : before item mark = true) (hany : marks.any (before item') = true) :
    before item' mark = true := by
  rw [List.any_eq_true] at hany
  obtain ⟨mark', hmem, hitem'⟩ := hany
  have hitem : before item mark' = false :=
    Bool.eq_false_iff.2 fun hbefore =>
      Bool.eq_false_iff.1 hnot (List.any_eq_true.2 ⟨mark', hmem, hbefore⟩)
  exact h item mark' mark hitem hmark item' hitem'

/-- **One more mark.** -/
theorem catchUp_behind (h : Led before) : catchUp before items mark (behind before items marks) =
    behind before items (marks ++ [mark]) := by
  have hany : (fun item => (marks ++ [mark]).any (before item)) =
      fun item => marks.any (before item) || before item mark := by
    funext item
    rw [List.any_append, List.any_cons, List.any_nil, Bool.or_false]
  have hlen := length_takeWhile_or (p := fun item => marks.any (before item))
    (q := (before · mark)) (fun item hnot hmark item' hitem' => h.any hnot hmark hitem') items.tail
  rw [catchUp_eq]
  unfold behind
  rw [hany, ← hlen, ← List.drop_one, List.drop_drop, Nat.add_comm 1]

/-- **The pointer after every mark.** -/
theorem foldl_catchUp (h : Led before) (marks : List β) :
    marks.foldl (fun i mark => catchUp before items mark i) 0 = behind before items marks := by
  induction marks using List.reverseRecOn with
  | nil =>
    have hnone : items.tail.takeWhile (fun item => [].any (before item)) = [] := by
      rw [List.takeWhile_eq_nil_iff]
      intro _
      exact Bool.false_ne_true
    rw [behind, hnone]
    rfl
  | append_singleton marks mark ih =>
    rw [List.foldl_append, ih, List.foldl_cons, List.foldl_nil, catchUp_behind h]

end Pointer

end VehicleStack
