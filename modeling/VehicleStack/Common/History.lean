import Mathlib.Data.List.Basic
import Mathlib.Data.List.Induction

/-!
# What a history says

A run writes down what it does in a list, oldest first. Two things are said
of such a list: that an entry is the last word on some matter (`Last`),
that each entry was right when it was made, given what stood before it
(`AtEach`), and that the latest entries are all of a kind (`Lately`). Each
has one lemma for a history that grows at its end.
-/

namespace VehicleStack

namespace History

variable {α : Type*} {R : α → Prop} {P : List α → α → Prop} {tr : List α} {o x : α}

/-- `o` stands in the history, and nothing on the matter `R` comes after
it. -/
def Last (R : α → Prop) (o : α) (tr : List α) : Prop :=
  ∃ before after, tr = before ++ o :: after ∧ ∀ x ∈ after, ¬ R x

/-- Each entry meets `P` with respect to the entries before it. -/
def AtEach (P : List α → α → Prop) (tr : List α) : Prop :=
  ∀ before o after, tr = before ++ o :: after → P before o

/-- The latest `n` entries are there and meet `R`. -/
def Lately (R : α → Prop) (n : ℕ) (tr : List α) : Prop :=
  ∃ older latest, tr = older ++ latest ∧ latest.length = n ∧ ∀ x ∈ latest, R x

/-- A new entry is the last word on anything. -/
theorem last_snoc_self : Last R o (tr ++ [o]) :=
  ⟨tr, [], rfl, fun _ h => absurd h List.not_mem_nil⟩

/-- **The last word after one more entry.** -/
theorem last_snoc : Last R o (tr ++ [x]) ↔ x = o ∨ Last R o tr ∧ ¬ R x := by
  constructor
  · rintro ⟨before, after, heq, hafter⟩
    rcases List.eq_nil_or_concat after with rfl | ⟨after', y, rfl⟩
    · left
      simpa using (List.append_inj' heq rfl).2
    · rw [List.concat_eq_append, ← List.cons_append, ← List.append_assoc] at heq
      obtain ⟨htr, hx⟩ := List.append_inj' heq rfl
      obtain rfl : x = y := by simpa using hx
      exact Or.inr ⟨⟨before, after', htr, fun z hz => hafter z (by simp [hz])⟩,
        hafter x (by simp)⟩
  · rintro (rfl | ⟨⟨before, after, rfl, hafter⟩, hx⟩)
    · exact last_snoc_self
    · refine ⟨before, after ++ [x], by simp, fun z hz => ?_⟩
      rcases List.mem_append.1 hz with hz | hz
      · exact hafter z hz
      · rwa [List.mem_singleton.1 hz]

/-- An entry on another matter leaves the last word where it is. -/
theorem Last.snoc (h : Last R o tr) (hx : ¬ R x) : Last R o (tr ++ [x]) :=
  last_snoc.2 (Or.inr ⟨h, hx⟩)

@[simp] theorem not_last_nil : ¬ Last R o [] := by
  rintro ⟨before, after, heq, -⟩
  simp at heq

@[simp] theorem atEach_nil : AtEach P [] := by
  intro before o after heq
  simp at heq

/-- **Right at each entry, after one more.** -/
theorem atEach_snoc : AtEach P (tr ++ [o]) ↔ AtEach P tr ∧ P tr o := by
  constructor
  · intro h
    refine ⟨fun before x after heq => h before x (after ++ [o]) (by simp [heq]), ?_⟩
    exact h tr o [] rfl
  · rintro ⟨h, ho⟩ before x after heq
    rcases List.eq_nil_or_concat after with rfl | ⟨after', y, rfl⟩
    · obtain ⟨rfl, hx⟩ := List.append_inj' heq rfl
      obtain rfl : o = x := by simpa using hx
      exact ho
    · rw [List.concat_eq_append, ← List.cons_append, ← List.append_assoc] at heq
      exact h before x after' (List.append_inj' heq rfl).1

/-- An entry `P` has nothing to say about. -/
theorem AtEach.snoc (h : AtEach P tr) (ho : P tr o) : AtEach P (tr ++ [o]) :=
  atEach_snoc.2 ⟨h, ho⟩

/-- One history after another. -/
theorem atEach_append {tr' : List α} :
    AtEach P (tr ++ tr') ↔ AtEach P tr ∧ AtEach (fun before => P (tr ++ before)) tr' := by
  induction tr' using List.reverseRecOn with
  | nil => simp
  | append_singleton tr' x ih => rw [← List.append_assoc, atEach_snoc, atEach_snoc, ih, and_assoc]

/-- The oldest entry, and those after it. -/
theorem atEach_cons : AtEach P (o :: tr) ↔ P [] o ∧ AtEach (fun before => P (o :: before)) tr := by
  have hone : AtEach P [o] ↔ P [] o := by
    rw [← List.nil_append [o], atEach_snoc]
    exact and_iff_right atEach_nil
  rw [← List.singleton_append, atEach_append, hone]
  rfl

/-- And a list of them. -/
theorem AtEach.append {added : List α} (h : AtEach P tr)
    (hadded : ∀ o ∈ added, ∀ before, P before o) : AtEach P (tr ++ added) := by
  induction added using List.reverseRecOn with
  | nil => rwa [List.append_nil]
  | append_singleton added o ih =>
    rw [← List.append_assoc]
    exact (ih fun x hx => hadded x (List.mem_append_left _ hx)).snoc
      (hadded o (List.mem_append_right _ (List.mem_singleton_self o)) _)

/-- The last word, where it is none of the entries that came after, stood
there before them. -/
theorem Last.of_append {added : List α} (h : Last R o (tr ++ added)) (ho : o ∉ added) :
    Last R o tr := by
  induction added using List.reverseRecOn with
  | nil => rwa [List.append_nil] at h
  | append_singleton added x ih =>
    rw [← List.append_assoc, last_snoc] at h
    rcases h with rfl | ⟨h, -⟩
    · exact absurd (List.mem_append_right _ (List.mem_singleton_self x)) ho
    · exact ih h fun hmem => ho (List.mem_append_left _ hmem)

@[simp] theorem lately_zero : Lately R 0 tr := ⟨tr, [], by simp⟩

@[simp] theorem not_lately_nil {n : ℕ} : ¬ Lately R (n + 1) [] := by
  rintro ⟨older, latest, heq, hlen, -⟩
  obtain ⟨-, rfl⟩ := List.append_eq_nil_iff.1 heq.symm
  simp at hlen

/-- **The latest entries, after one more.** -/
theorem lately_snoc {n : ℕ} : Lately R (n + 1) (tr ++ [x]) ↔ R x ∧ Lately R n tr := by
  constructor
  · rintro ⟨older, latest, heq, hlen, hall⟩
    rcases List.eq_nil_or_concat latest with rfl | ⟨latest', y, rfl⟩
    · simp at hlen
    · rw [List.concat_eq_append, ← List.append_assoc] at heq
      obtain ⟨htr, hx⟩ := List.append_inj' heq rfl
      obtain rfl : x = y := by simpa using hx
      exact ⟨hall x (by simp), older, latest', htr, by simpa using hlen,
        fun z hz => hall z (by simp [hz])⟩
  · rintro ⟨hx, older, latest, rfl, rfl, hall⟩
    refine ⟨older, latest ++ [x], by simp, by simp, fun z hz => ?_⟩
    rcases List.mem_append.1 hz with hz | hz
    · exact hall z hz
    · rwa [List.mem_singleton.1 hz]

theorem AtEach.imp {P' : List α → α → Prop} (h : AtEach P tr)
    (himp : ∀ before o, P before o → P' before o) : AtEach P' tr :=
  fun before o after heq => himp before o (h before o after heq)

theorem AtEach.and {P' : List α → α → Prop} (h : AtEach P tr) (h' : AtEach P' tr) :
    AtEach (fun before o => P before o ∧ P' before o) tr :=
  fun before o after heq => ⟨h before o after heq, h' before o after heq⟩

end History

end VehicleStack
