import Mathlib.Data.List.Basic

/-!
# Packets in a stream

Packets of one size arrive in a stream that is cut anywhere, and a reader
hands over the last of those that are complete. What is one is said by a
test on as many items. `receive` is the reader that forgets only what it has
handed over and what was before it. One with less in its buffer hands over
the same as long as its buffer lacks only items that no packet starts with
(`Suffices`): it may forget all but the last items, one less than a packet
has, when it has found none (`suffices_of_newest_none`).
-/

namespace VehicleStack

namespace Framing

variable {α : Type} {size : ℕ} {valid : List α → Bool} {buf pending chunk : List α} {i j k n : ℕ}

/-- As many items as a packet has, from a place on. -/
def window (size : ℕ) (buf : List α) (i : ℕ) : List α := (buf.drop i).take size

/-- The last place up to this one where a packet starts. -/
def newestFrom (size : ℕ) (valid : List α → Bool) (buf : List α) : ℕ → Option ℕ
  | 0 => if valid (window size buf 0) then some 0 else none
  | i + 1 => if valid (window size buf (i + 1)) then some (i + 1) else newestFrom size valid buf i

/-- The last place where a packet starts that is complete. -/
def newest (size : ℕ) (valid : List α → Bool) (buf : List α) : Option ℕ :=
  if buf.length < size then none else newestFrom size valid buf (buf.length - size)

/-- The reader that forgets only what it has handed over. -/
def receive (size : ℕ) (valid : List α → Bool) (pending chunk : List α) :
    Option (List α) × List α :=
  match newest size valid (pending ++ chunk) with
  | some i => (some (window size (pending ++ chunk) i), (pending ++ chunk).drop (i + size))
  | none => (none, pending ++ chunk)

/-! ## The search -/

theorem newestFrom_eq_some_iff : newestFrom size valid buf i = some j ↔
    j ≤ i ∧ valid (window size buf j) = true ∧
      ∀ k, j < k → k ≤ i → valid (window size buf k) = false := by
  induction i with
  | zero =>
    unfold newestFrom
    split
    · rename_i h
      rw [Option.some.injEq]
      constructor
      · rintro rfl
        exact ⟨Nat.le_refl 0, h, fun k hk hk' => by omega⟩
      · rintro ⟨hj, -, -⟩
        omega
    · rename_i h
      refine iff_of_false nofun ?_
      rintro ⟨hj, hvalid, -⟩
      obtain rfl : j = 0 := by omega
      exact h hvalid
  | succ i ih =>
    unfold newestFrom
    split
    · rename_i h
      rw [Option.some.injEq]
      constructor
      · rintro rfl
        exact ⟨Nat.le_refl _, h, fun k hk hk' => by omega⟩
      · rintro ⟨hj, -, hlast⟩
        by_contra hne
        rw [hlast (i + 1) (by omega) (Nat.le_refl _)] at h
        cases h
    · rename_i h
      rw [ih]
      constructor
      · rintro ⟨hj, hvalid, hlast⟩
        refine ⟨by omega, hvalid, fun k hk hk' => ?_⟩
        rcases Nat.lt_or_ge i k with hik | hik
        · obtain rfl : k = i + 1 := by omega
          exact Bool.eq_false_iff.2 h
        · exact hlast k hk hik
      · rintro ⟨hj, hvalid, hlast⟩
        have hne : j ≠ i + 1 := by
          rintro rfl
          exact h hvalid
        exact ⟨by omega, hvalid, fun k hk hk' => hlast k hk (by omega)⟩

theorem newestFrom_eq_none_iff : newestFrom size valid buf i = none ↔
    ∀ k ≤ i, valid (window size buf k) = false := by
  induction i with
  | zero => simp [newestFrom]
  | succ i ih =>
    unfold newestFrom
    split
    · rename_i h
      refine iff_of_false nofun fun hall => ?_
      rw [hall (i + 1) (Nat.le_refl _)] at h
      cases h
    · rename_i h
      rw [ih]
      refine ⟨fun hall k hk => ?_, fun hall k hk => hall k (by omega)⟩
      rcases Nat.lt_or_ge i k with hik | hik
      · obtain rfl : k = i + 1 := by omega
        exact Bool.eq_false_iff.2 h
      · exact hall k hik

theorem newest_eq_some_iff : newest size valid buf = some j ↔
    j + size ≤ buf.length ∧ valid (window size buf j) = true ∧
      ∀ k, j < k → k + size ≤ buf.length → valid (window size buf k) = false := by
  unfold newest
  split
  · refine iff_of_false nofun ?_
    rintro ⟨hj, -, -⟩
    omega
  · rw [newestFrom_eq_some_iff]
    constructor
    · rintro ⟨hj, hvalid, hlast⟩
      exact ⟨by omega, hvalid, fun k hk hk' => hlast k hk (by omega)⟩
    · rintro ⟨hj, hvalid, hlast⟩
      exact ⟨by omega, hvalid, fun k hk hk' => hlast k hk (by omega)⟩

theorem newest_eq_none_iff : newest size valid buf = none ↔
    ∀ k, k + size ≤ buf.length → valid (window size buf k) = false := by
  unfold newest
  split
  · exact iff_of_true rfl fun k hk => by omega
  · rw [newestFrom_eq_none_iff]
    exact ⟨fun hall k hk => hall k (by omega), fun hall k hk => hall k (by omega)⟩

/-! ## What a buffer may lack -/

theorem window_drop : window size (buf.drop k) i = window size buf (k + i) := by
  unfold window
  rw [List.drop_drop]

/-- What is complete is not changed by what follows. -/
theorem window_append (h : i + size ≤ buf.length) :
    window size (buf ++ chunk) i = window size buf i := by
  unfold window
  rw [List.drop_append_of_le_length (by omega),
    List.take_append_of_le_length (by rw [List.length_drop]; omega)]

/-- A buffer that lacks only items that no packet starts with. -/
def Suffices (size : ℕ) (valid : List α → Bool) (buf pending : List α) : Prop :=
  ∃ k ≤ pending.length, buf = pending.drop k ∧
    ∀ i < k, i + size ≤ pending.length ∧ valid (window size pending i) = false

theorem suffices_refl : Suffices size valid buf buf :=
  ⟨0, Nat.zero_le _, rfl, fun i hi => by omega⟩

theorem Suffices.append (h : Suffices size valid buf pending) :
    Suffices size valid (buf ++ chunk) (pending ++ chunk) := by
  obtain ⟨k, hk, rfl, hnone⟩ := h
  refine ⟨k, ?_, (List.drop_append_of_le_length hk).symm, fun i hi => ?_⟩
  · rw [List.length_append]
    omega
  · obtain ⟨hle, hvalid⟩ := hnone i hi
    rw [window_append hle, List.length_append]
    exact ⟨by omega, hvalid⟩

/-- **It is enough for the next packet**, -/
theorem newest_of_suffices (h : Suffices size valid buf pending)
    (hn : newest size valid buf = some j) :
    ∃ i, newest size valid pending = some i ∧ window size pending i = window size buf j ∧
      pending.drop (i + size) = buf.drop (j + size) := by
  obtain ⟨k, hk, rfl, hnone⟩ := h
  obtain ⟨hle, hvalid, hlast⟩ := newest_eq_some_iff.1 hn
  rw [List.length_drop] at hle
  refine ⟨k + j, newest_eq_some_iff.2 ⟨by omega, ?_, fun i hi hi' => ?_⟩, window_drop.symm, ?_⟩
  · rw [← window_drop]
    exact hvalid
  · have hwindow := hlast (i - k) (by omega) (by rw [List.length_drop]; omega)
    rwa [window_drop, Nat.add_sub_cancel' (by omega)] at hwindow
  · rw [List.drop_drop, Nat.add_assoc]

/-- and where it has none there is none. -/
theorem newest_none_of_suffices (h : Suffices size valid buf pending)
    (hn : newest size valid buf = none) : newest size valid pending = none := by
  obtain ⟨k, hk, rfl, hnone⟩ := h
  rw [newest_eq_none_iff] at hn ⊢
  intro i hi
  rcases Nat.lt_or_ge i k with hik | hik
  · exact (hnone i hik).2
  · have hwindow := hn (i - k) (by rw [List.length_drop]; omega)
    rwa [window_drop, Nat.add_sub_cancel' hik] at hwindow

/-- **What may be forgotten.** Where no packet is complete, the last items
are enough, one less than a packet has. -/
theorem suffices_of_newest_none (h : Suffices size valid buf pending)
    (hn : newest size valid buf = none) (hsize : 0 < size)
    (hforget : n + size ≤ buf.length + 1 ∨ n = 0) : Suffices size valid (buf.drop n) pending := by
  have hall := newest_eq_none_iff.1 (newest_none_of_suffices h hn)
  obtain ⟨k, hk', rfl, hnone⟩ := h
  rw [List.length_drop] at hforget
  refine ⟨k + n, ?_, by rw [List.drop_drop], fun i hi => ?_⟩
  · omega
  · rcases Nat.lt_or_ge i k with hik | hik
    · exact hnone i hik
    · have hle : i + size ≤ pending.length := by omega
      exact ⟨hle, hall i hle⟩

end Framing

end VehicleStack
