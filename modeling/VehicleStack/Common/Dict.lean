import Mathlib.Data.List.Nodup
import Mathlib.Data.List.Lemmas

/-!
# Insertion-ordered dictionaries

A Python `dict`: keys in the order they were first inserted, each bound
once. Binding a key again keeps its place, deleting it gives the place up.
That no key is bound twice is a field, so a lookup, the key list and
emptiness agree without further argument.
-/

namespace VehicleStack

/-- A dictionary: its entries in insertion order, no key twice. -/
structure Dict (κ α : Type) where
  entries : List (κ × α)
  nodup : (entries.map Prod.fst).Nodup

namespace Dict

variable {κ α : Type} [DecidableEq κ] {d : Dict κ α} {k k' : κ} {a : α}

/-- The empty dictionary. -/
def empty : Dict κ α := ⟨[], List.nodup_nil⟩

/-- The keys, in insertion order: `list(d)`. -/
def keys (d : Dict κ α) : List κ := d.entries.map Prod.fst

/-- `d.get(k)`. -/
def get? (d : Dict κ α) (k : κ) : Option α := (d.entries.find? fun p => p.1 = k).map Prod.snd

/-- `len(d) == 0`. -/
def isEmpty (d : Dict κ α) : Bool := d.entries.isEmpty

instance : Membership κ (Dict κ α) := ⟨fun d k => k ∈ d.keys⟩

instance : Decidable (k ∈ d) := inferInstanceAs (Decidable (k ∈ d.keys))

omit [DecidableEq κ] in
theorem mem_iff_mem_keys : k ∈ d ↔ k ∈ d.keys := Iff.rfl

/-- Rebinding a key in place leaves the key list alone. -/
theorem map_fst_rebind {l : List (κ × α)} :
    (l.map fun p => if p.1 = k then (k, a) else p).map Prod.fst = l.map Prod.fst := by
  rw [List.map_map]
  refine List.map_congr_left fun p _ => ?_
  by_cases h : p.1 = k <;> simp [h]

/-- `d[k] = a`. -/
def set (d : Dict κ α) (k : κ) (a : α) : Dict κ α :=
  if h : k ∈ d.keys then
    ⟨d.entries.map fun p => if p.1 = k then (k, a) else p, by
      rw [map_fst_rebind]; exact d.nodup⟩
  else
    ⟨d.entries ++ [(k, a)], by
      rw [List.map_append, List.nodup_append]
      refine ⟨d.nodup, by simp, fun x hx y hy => ?_⟩
      simp only [List.map_cons, List.map_nil, List.mem_singleton] at hy
      rintro rfl
      exact h (hy ▸ hx)⟩

/-- `del d[k]`, or `d.pop(k, None)`: nothing where the key is not bound. -/
def erase (d : Dict κ α) (k : κ) : Dict κ α :=
  ⟨d.entries.filter fun p => p.1 ≠ k, d.nodup.sublist (List.filter_sublist.map _)⟩

@[simp] theorem get?_empty : (empty : Dict κ α).get? k = none := rfl

omit [DecidableEq κ] in
@[simp] theorem isEmpty_empty : (empty : Dict κ α).isEmpty = true := rfl

omit [DecidableEq κ] in
@[simp] theorem not_mem_empty : ¬ k ∈ (empty : Dict κ α) := List.not_mem_nil

/-- A key is bound exactly where the lookup finds something. -/
theorem get?_isSome : (d.get? k).isSome ↔ k ∈ d := by
  simp only [get?, Option.isSome_map, List.find?_isSome, mem_iff_mem_keys, keys, List.mem_map]
  constructor
  · rintro ⟨p, hp, hk⟩
    exact ⟨p, hp, by simpa using hk⟩
  · rintro ⟨p, hp, hk⟩
    exact ⟨p, hp, by simpa using hk⟩

theorem get?_eq_none : d.get? k = none ↔ ¬ k ∈ d := by
  rw [← get?_isSome]
  cases d.get? k <;> simp

theorem mem_of_get? (h : d.get? k = some a) : k ∈ d :=
  get?_isSome.1 (by rw [h]; rfl)

theorem exists_get?_of_mem (h : k ∈ d) : ∃ a, d.get? k = some a :=
  Option.isSome_iff_exists.1 (get?_isSome.2 h)

/-- The entries are what the lookup finds. -/
theorem mem_entries : (k, a) ∈ d.entries ↔ d.get? k = some a := by
  constructor
  · intro h
    cases hget : d.get? k with
    | none =>
      have hmem : k ∈ d := List.mem_map.2 ⟨(k, a), h, rfl⟩
      exact absurd hmem (get?_eq_none.1 hget)
    | some b =>
      obtain ⟨⟨k', b'⟩, hfind, rfl⟩ := Option.map_eq_some_iff.1 hget
      obtain rfl : k' = k := by simpa using List.find?_some hfind
      have heq : (k', b') = (k', a) :=
        List.inj_on_of_nodup_map d.nodup (List.mem_of_find?_eq_some hfind) h rfl
      rw [(Prod.ext_iff.1 heq).2]
  · intro h
    obtain ⟨⟨k', b'⟩, hfind, rfl⟩ := Option.map_eq_some_iff.1 h
    obtain rfl : k' = k := by simpa using List.find?_some hfind
    exact List.mem_of_find?_eq_some hfind

/-- Where the key is bound, a write changes its entry in place. -/
theorem get?_set_of_mem (hmem : k ∈ d.keys) :
    (d.set k a).get? k' = if k' = k then some a else d.get? k' := by
  rw [set, dif_pos hmem]
  simp only [get?, List.find?_map, Option.map_map]
  have hfun : ((fun p : κ × α => decide (p.1 = k')) ∘
      fun p => if p.1 = k then (k, a) else p) = fun p => decide (p.1 = k') := by
    funext q
    by_cases hq : q.1 = k <;> simp [hq]
  rw [hfun]
  cases hq : d.entries.find? fun p => decide (p.1 = k') with
  | some q =>
    have hqk : q.1 = k' := by simpa using List.find?_some hq
    by_cases hk : k' = k <;> simp [hqk, hk]
  | none =>
    have hk : k' ≠ k := by
      rintro rfl
      obtain ⟨p, hp, hpk⟩ := List.mem_map.1 hmem
      exact List.find?_eq_none.1 hq p hp (by simpa using hpk)
    simp [hk]

/-- Where it is not, a write appends one. -/
theorem get?_set_of_not_mem (hmem : ¬ k ∈ d.keys) :
    (d.set k a).get? k' = if k' = k then some a else d.get? k' := by
  rw [set, dif_neg hmem]
  simp only [get?, List.find?_append]
  by_cases hk : k' = k
  · subst hk
    have hnone : (d.entries.find? fun p => decide (p.1 = k')) = none := by
      rw [List.find?_eq_none]
      intro p hp hpk
      exact hmem (List.mem_map.2 ⟨p, hp, by simpa using hpk⟩)
    simp [hnone]
  · simp [hk, Ne.symm hk]

/-- A key that is written keeps its place, or takes the last one. -/
theorem keys_set : (d.set k a).keys = if k ∈ d.keys then d.keys else d.keys ++ [k] := by
  by_cases hmem : k ∈ d.keys
  · rw [set, dif_pos hmem, if_pos hmem]
    exact map_fst_rebind
  · rw [set, dif_neg hmem, if_neg hmem, keys, List.map_append]
    rfl

/-- **Reading after a write.** -/
theorem get?_set : (d.set k a).get? k' = if k' = k then some a else d.get? k' := by
  by_cases hmem : k ∈ d.keys
  · exact get?_set_of_mem hmem
  · exact get?_set_of_not_mem hmem

@[simp] theorem get?_set_self : (d.set k a).get? k = some a := by rw [get?_set, if_pos rfl]

theorem get?_set_of_ne (h : k' ≠ k) : (d.set k a).get? k' = d.get? k' := by
  rw [get?_set, if_neg h]

/-- **Reading after a delete.** -/
theorem get?_erase : (d.erase k).get? k' = if k' = k then none else d.get? k' := by
  simp only [get?, erase, List.find?_filter]
  by_cases hk : k' = k
  · subst hk
    rw [if_pos rfl, Option.map_eq_none_iff, List.find?_eq_none]
    intro p _
    simp
  · rw [if_neg hk]
    congr 2
    funext p
    by_cases hp : p.1 = k'
    · simp [hp, hk]
    · simp [hp]

@[simp] theorem get?_erase_self : (d.erase k).get? k = none := by rw [get?_erase, if_pos rfl]

theorem get?_erase_of_ne (h : k' ≠ k) : (d.erase k).get? k' = d.get? k' := by
  rw [get?_erase, if_neg h]

/-- Deleting what is not bound changes nothing. -/
theorem erase_of_get?_eq_none (h : d.get? k = none) : d.erase k = d := by
  have hfilter : d.entries.filter (fun p => p.1 ≠ k) = d.entries := by
    rw [List.filter_eq_self]
    intro p hp
    have hk : ¬ k ∈ d := get?_eq_none.1 h
    have hne : p.1 ≠ k := fun heq => hk (List.mem_map.2 ⟨p, hp, heq⟩)
    simpa using hne
  cases d
  simp only [erase, hfilter]

@[simp] theorem mem_set : k' ∈ d.set k a ↔ k' = k ∨ k' ∈ d := by
  rw [← get?_isSome, get?_set, ← get?_isSome]
  by_cases h : k' = k <;> simp [h]

@[simp] theorem mem_erase : k' ∈ d.erase k ↔ k' ≠ k ∧ k' ∈ d := by
  rw [← get?_isSome, get?_erase, ← get?_isSome]
  by_cases h : k' = k <;> simp [h]

omit [DecidableEq κ] in
/-- A dictionary is empty when it binds nothing. -/
theorem isEmpty_iff : d.isEmpty = true ↔ ∀ k, ¬ k ∈ d := by
  unfold isEmpty
  rw [List.isEmpty_iff]
  constructor
  · rintro h k hk
    rw [mem_iff_mem_keys, keys, h] at hk
    simp at hk
  · intro h
    cases he : d.entries with
    | nil => rfl
    | cons p l =>
      refine absurd ?_ (h p.1)
      rw [mem_iff_mem_keys, keys, he]
      simp

omit [DecidableEq κ] in
theorem keys_nodup : d.keys.Nodup := d.nodup

end Dict

end VehicleStack
