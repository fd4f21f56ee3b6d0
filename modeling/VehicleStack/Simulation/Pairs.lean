import Mathlib.Order.Defs.LinearOrder
import Mathlib.Data.Rat.Cast.OfScientific
import Mathlib.Algebra.Order.Ring.Rat
import VehicleStack.Common.Pointer

/-!
# The navigation probe — what the smoother made of a command

`run_goal` sets each steering angle that left the velocity smoother against
the one that had last gone in. It goes through both records once, with a
pointer into what went in. The times are the wall clock's: where it has been
set back, the pointer waits at a time that is still to come, and whatever went
in behind it waits too.
-/

namespace VehicleStack

namespace Simulation

open Pointer

section Pairs

variable {K : Type} [LinearOrder K] [Zero K]

/-- What went in no later than what came out. -/
def notAfter (i : K × K) (o : K × K × K) : Bool := i.1 ≤ o.1

/-- One pass of the loop. -/
def pairStep (nav_in : List (K × K)) (s : ℕ × List (K × K)) (o : K × K × K) :
    ℕ × List (K × K) :=
  let i := catchUp notAfter nav_in o s.1
  (i, s.2 ++ [((nav_in.getD i (0, 0)).2, o.2.1)])

/-- `pairs`, of angles with the times they were taken at. -/
def pairs (nav_in : List (K × K)) (nav_out : List (K × K × K)) : List (K × K) :=
  if nav_in = [] ∨ nav_out = [] then [] else (nav_out.foldl (pairStep nav_in) (0, [])).2

/-- The last that went in no later than `o` came out; the first if there is
none. -/
def lastIn (nav_in : List (K × K)) (o : K × K × K) : K × K :=
  ((nav_in.filter (notAfter · o)).getLast?).getD (nav_in.headD (0, 0))

end Pairs

section Order

variable {K : Type} [LinearOrder K] {nav_in : List (K × K)} {o : K × K × K}

theorem led_notAfter : Led (notAfter (K := K)) := by
  intro i o o' hnot hin i' hin'
  simp only [notAfter, decide_eq_true_eq, decide_eq_false_iff_not, not_le] at *
  exact (hin'.trans hnot.le).trans hin

/-- With the times in order, what is no later than `o` comes first. -/
theorem takeWhile_notAfter (h : nav_in.Pairwise fun i i' => i.1 ≤ i'.1) :
    nav_in.takeWhile (notAfter · o) = nav_in.filter (notAfter · o) := by
  induction nav_in with
  | nil => rfl
  | cons i nav_in ih =>
    obtain ⟨hfirst, hrest⟩ := List.pairwise_cons.1 h
    rw [List.takeWhile_cons, List.filter_cons]
    split
    · rw [ih hrest]
    · rename_i hnot
      symm
      rw [List.filter_eq_nil_iff]
      intro i' hi' hin
      simp only [notAfter, decide_eq_true_eq] at hnot hin
      exact hnot ((hfirst i' hi').trans hin)

end Order

section Loop

variable {K : Type} [LinearOrder K] [Zero K] {nav_in : List (K × K)} {nav_out : List (K × K × K)}
  {o : K × K × K}

theorem pairs_concat (hne : nav_in ≠ []) : pairs nav_in (nav_out ++ [o]) = pairs nav_in nav_out ++
    [((nav_in.getD (behind notAfter nav_in (nav_out ++ [o])) (0, 0)).2, o.2.1)] := by
  have hpointer : ∀ (outs : List (K × K × K)) (s : ℕ × List (K × K)),
      (outs.foldl (pairStep nav_in) s).1 =
        outs.foldl (fun i o => catchUp notAfter nav_in o i) s.1 := by
    intro outs
    induction outs with
    | nil => exact fun s => rfl
    | cons o outs ih => exact fun s => ih _
  have hloop : ∀ outs, pairs nav_in outs = (outs.foldl (pairStep nav_in) (0, [])).2 := by
    intro outs
    rw [pairs]
    split
    · rename_i h
      rw [h.resolve_left hne]
      rfl
    · rfl
  rw [hloop, hloop, List.foldl_append, List.foldl_cons, List.foldl_nil, pairStep]
  dsimp only
  rw [hpointer, foldl_catchUp led_notAfter, catchUp_behind led_notAfter]

theorem length_pairs (hne : nav_in ≠ []) : (pairs nav_in nav_out).length = nav_out.length := by
  induction nav_out using List.reverseRecOn with
  | nil =>
    rw [pairs, if_pos (Or.inr rfl)]
    rfl
  | append_singleton nav_out o ih =>
    rw [pairs_concat hne, List.length_append, ih, List.length_append, List.length_singleton,
      List.length_singleton]

/-- **What each angle is set against**, whatever the clock has done: the pointer
is behind the longest front, after the first command, of which each went in no
later than some angle so far came out. -/
theorem getElem?_pairs (hne : nav_in ≠ []) (k : ℕ) : (pairs nav_in nav_out)[k]? =
    nav_out[k]?.map fun o =>
      ((nav_in.getD (behind notAfter nav_in (nav_out.take (k + 1))) (0, 0)).2, o.2.1) := by
  induction nav_out using List.reverseRecOn with
  | nil =>
    rw [pairs, if_pos (Or.inr rfl)]
    rfl
  | append_singleton nav_out o ih =>
    have hlen : (pairs nav_in nav_out).length = nav_out.length := length_pairs hne
    rw [pairs_concat hne]
    rcases Nat.lt_trichotomy k nav_out.length with hk | hk | hk
    · rw [List.getElem?_append_left (by omega), ih, List.getElem?_append_left hk,
        List.take_append_of_le_length (by omega)]
    · subst hk
      rw [← hlen, List.getElem?_concat_length, hlen, List.getElem?_concat_length,
        List.take_of_length_le (by rw [List.length_append, List.length_singleton])]
      rfl
    · have hpast : ∀ {α : Type} (l : List α) (a : α), l.length = nav_out.length →
          (l ++ [a])[k]? = none := fun l a hl =>
        List.getElem?_eq_none (by rw [List.length_append, List.length_singleton]; omega)
      rw [hpast _ _ hlen, hpast _ _ rfl]
      rfl

/-- The pointer, with the times in order. -/
theorem getD_behind (hin : nav_in.Pairwise fun i i' => i.1 ≤ i'.1)
    (hout : ∀ o' ∈ nav_out, o'.1 ≤ o.1) :
    nav_in.getD (behind notAfter nav_in (nav_out ++ [o])) (0, 0) = lastIn nav_in o := by
  have hany : (fun i => (nav_out ++ [o]).any (notAfter i)) = (notAfter · o) := by
    funext i
    rw [List.any_append, List.any_cons, List.any_nil, Bool.or_false, Bool.or_eq_right_iff_imp,
      List.any_eq_true]
    rintro ⟨o', ho', hi⟩
    simp only [notAfter, decide_eq_true_eq] at hi ⊢
    exact hi.trans (hout o' ho')
  unfold behind lastIn
  rw [hany]
  rcases nav_in with _ | ⟨i, rest⟩
  · rfl
  obtain ⟨hfirst, hrest⟩ := List.pairwise_cons.1 hin
  rw [List.tail_cons, ← takeWhile_notAfter hin, List.takeWhile_cons]
  split
  · obtain ⟨more, hmore⟩ := List.takeWhile_prefix (l := rest) (notAfter · o)
    set front := rest.takeWhile (notAfter · o)
    rw [← hmore, List.getLast?_eq_getElem?, List.getD_eq_getElem?_getD, List.length_cons,
      Nat.add_sub_cancel, ← List.cons_append, List.getElem?_append_left (Nat.lt_succ_self _)]
    rw [List.getElem?_eq_getElem (Nat.lt_succ_self _)]
    rfl
  · rename_i hnot
    have hnone : rest.takeWhile (notAfter · o) = [] := by
      rw [takeWhile_notAfter hrest, List.filter_eq_nil_iff]
      intro i' hi' hin'
      simp only [notAfter, decide_eq_true_eq] at hnot hin'
      exact hnot ((hfirst i' hi').trans hin')
    rw [hnone]
    rfl

/-- **Each angle is set against the last that had gone in**, if the clock has
not been set back. -/
theorem pairs_lastIn (hne : nav_in ≠ []) (hin : nav_in.Pairwise fun i i' => i.1 ≤ i'.1)
    (hout : nav_out.Pairwise fun o o' => o.1 ≤ o'.1) :
    pairs nav_in nav_out = nav_out.map fun o => ((lastIn nav_in o).2, o.2.1) := by
  induction nav_out using List.reverseRecOn with
  | nil =>
    rw [pairs, if_pos (Or.inr rfl)]
    rfl
  | append_singleton nav_out o ih =>
    obtain ⟨hout', -, hlast⟩ := List.pairwise_append.1 hout
    rw [pairs_concat hne, ih hout', getD_behind hin fun o' ho' => hlast o' ho' o List.mem_cons_self,
      List.map_append, List.map_cons, List.map_nil]

/-- **One pass does what a search for each angle would.** Each angle that came
out is set against what the pointer has got to, which is behind the longest
front, after the first command, of which each went in no later than some angle
so far came out; and that is the last that had gone in, if the clock has not
been set back. -/
theorem pairs_newest (nav_in : List (K × K)) (nav_out : List (K × K × K)) (hne : nav_in ≠ []) :
    (∀ k, (pairs nav_in nav_out)[k]? = nav_out[k]?.map fun o =>
      ((nav_in.getD (behind notAfter nav_in (nav_out.take (k + 1))) (0, 0)).2, o.2.1)) ∧
    (nav_in.Pairwise (fun i i' => i.1 ≤ i'.1) → nav_out.Pairwise (fun o o' => o.1 ≤ o'.1) →
      pairs nav_in nav_out = nav_out.map fun o => ((lastIn nav_in o).2, o.2.1)) :=
  ⟨getElem?_pairs hne, pairs_lastIn hne⟩

end Loop

/-- Two commands go in before the second angle comes out. -/
theorem pairs_newest_ramp : pairs [((0 : ℚ), 0.1), (2, 0.2), (4, 0.3)]
    [(1, 0.15, 0.5), (5, 0.25, 0.6)] = [(0.1, 0.15), (0.3, 0.25)] :=
  ((pairs_newest [((0 : ℚ), 0.1), (2, 0.2), (4, 0.3)] [(1, 0.15, 0.5), (5, 0.25, 0.6)]
    (by decide)).2 (by decide +kernel) (by decide +kernel)).trans (by decide +kernel)

/-- The clock is set back before the third command goes in, and the pointer
does not get past the second. -/
example : behind notAfter [((0 : ℚ), (0.1 : ℚ)), (5, 0.2), (1, 0.3)] [(2, 0.15, 0.5)] = 0 := by
  decide +kernel

end Simulation

end VehicleStack
