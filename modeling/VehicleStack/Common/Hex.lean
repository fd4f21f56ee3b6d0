import Mathlib.Data.List.DropRight

/-!
# Hexadecimal text

Bytes written as pairs of hexadecimal digits, and the two readers that
differ in what they let stand between the pairs: `HexOf` is the plain text
of a byte string, in either case; `Spells` is what `bytes.fromhex` takes,
where ASCII white space may stand before and after any pair. `fromHex` is
that function; `fromHex_eq_some` says that it reads exactly what `Spells`
allows. Trimming at the right end is `List.rdropWhile`.
-/

namespace VehicleStack

namespace Hex

/-- The value of an ASCII hexadecimal digit. -/
def digit (a : UInt8) : Option ℕ :=
  if 0x30 ≤ a ∧ a ≤ 0x39 then some (a.toNat - 0x30)
  else if 0x41 ≤ a ∧ a ≤ 0x46 then some (a.toNat - 0x37)
  else if 0x61 ≤ a ∧ a ≤ 0x66 then some (a.toNat - 0x57)
  else none

/-- ASCII white space: tab, the two line ends, vertical tab, form feed and
the space. -/
def isSpace (a : UInt8) : Bool := (0x09 ≤ a && a ≤ 0x0D) || a == 0x20

/-- The byte of two digits. -/
def byteOf (hi lo : ℕ) : UInt8 := UInt8.ofNat (hi * 16 + lo)

/-- `bytes.fromhex`. `none` is `ValueError`. -/
def fromHex : List UInt8 → Option (List UInt8)
  | [] => some []
  | [a] => if isSpace a then some [] else none
  | a :: b :: text =>
    if isSpace a then fromHex (b :: text)
    else
      match digit a, digit b with
      | some hi, some lo => (fromHex text).map (byteOf hi lo :: ·)
      | _, _ => none

/-- The text is pairs of digits with white space between them. -/
inductive Spells : List UInt8 → List UInt8 → Prop
  | nil : Spells [] []
  | space {a : UInt8} {text key : List UInt8} : isSpace a → Spells text key →
      Spells (a :: text) key
  | pair {a b : UInt8} {hi lo : ℕ} {text key : List UInt8} : digit a = some hi →
      digit b = some lo → Spells text key → Spells (a :: b :: text) (byteOf hi lo :: key)

/-- The text is the digits of the key and nothing else. -/
inductive HexOf : List UInt8 → List UInt8 → Prop
  | nil : HexOf [] []
  | cons {byte hi lo : UInt8} {key text : List UInt8} : digit hi = some (byte.toNat / 16) →
      digit lo = some (byte.toNat % 16) → HexOf key text → HexOf (byte :: key) (hi :: lo :: text)

variable {a : UInt8} {n hi lo : ℕ} {text key : List UInt8}

theorem digit_bounds (h : digit a = some n) : n < 16 ∧ a < 0x80 ∧ isSpace a = false := by
  simp only [digit, isSpace, UInt8.lt_iff_toNat_lt, UInt8.le_iff_toNat_le, Bool.or_eq_false_iff,
    Bool.and_eq_false_iff, decide_eq_false_iff_not, beq_eq_false_iff_ne, ne_eq,
    ← UInt8.toNat_inj] at h ⊢
  simp only [UInt8.reduceToNat] at h ⊢
  split at h
  · obtain rfl := Option.some.inj h
    omega
  · split at h
    · obtain rfl := Option.some.inj h
      omega
    · split at h
      · obtain rfl := Option.some.inj h
        omega
      · cases h

/-- No white space is a digit. -/
theorem isSpace_of_digit (h : digit a = some n) : isSpace a = false := (digit_bounds h).2.2

/-- The two digits of a byte. -/
theorem byteOf_digits (hhi : hi < 16) (hlo : lo < 16) :
    (byteOf hi lo).toNat / 16 = hi ∧ (byteOf hi lo).toNat % 16 = lo := by
  rw [byteOf, UInt8.toNat_ofNat']
  omega

theorem byteOf_self (byte : UInt8) : byteOf (byte.toNat / 16) (byte.toNat % 16) = byte := by
  rw [byteOf, ← UInt8.toNat_inj, UInt8.toNat_ofNat']
  have := byte.toNat_lt
  omega

/-- **`bytes.fromhex` reads what the grammar allows.** -/
theorem fromHex_eq_some : fromHex text = some key ↔ Spells text key := by
  constructor
  · intro h
    -- by the recursion of the reader, and back by the rules of the grammar
    induction text using fromHex.induct generalizing key with
    | case1 =>
      obtain rfl := Option.some.inj h
      exact .nil
    | case2 a ha =>
      rw [fromHex, if_pos ha] at h
      obtain rfl := Option.some.inj h
      exact .space ha .nil
    | case3 a ha =>
      rw [fromHex, if_neg ha] at h
      cases h
    | case4 a b text ha ih =>
      rw [fromHex, if_pos ha] at h
      exact .space ha (ih h)
    | case5 a b text ha hi lo hlo hhi ih =>
      rw [fromHex, if_neg ha, hhi, hlo] at h
      obtain ⟨key', hkey', rfl⟩ := Option.map_eq_some_iff.1 h
      exact .pair hhi hlo (ih hkey')
    | case6 a b text ha hno =>
      rw [fromHex, if_neg ha] at h
      split at h
      · rename_i hi lo hhi hlo
        exact absurd hlo (hno hi lo hhi)
      · cases h
  · intro h
    induction h with
    | nil => rfl
    | @space a text key ha _ ih =>
      -- white space at the very end is a clause of its own
      cases text with
      | nil =>
        rw [fromHex, if_pos ha]
        rw [fromHex] at ih
        exact ih
      | cons b text =>
        rw [fromHex, if_pos ha]
        exact ih
    | @pair a b hi lo text key hhi hlo _ ih =>
      have ha : ¬ isSpace a = true := by
        rw [isSpace_of_digit hhi]
        exact Bool.false_ne_true
      rw [fromHex, if_neg ha, hhi, hlo, ih]
      rfl

/-- The plain text of a key has two characters for each byte. -/
theorem HexOf.length (h : HexOf key text) : text.length = 2 * key.length := by
  induction h with
  | nil => rfl
  | cons _ _ _ ih =>
    simp only [List.length_cons]
    omega

/-- It is read back. -/
theorem HexOf.spells (h : HexOf key text) : Spells text key := by
  induction h with
  | nil => exact .nil
  | @cons byte hi lo key text hhi hlo _ ih =>
    rw [← byteOf_self byte]
    exact .pair hhi hlo ih

/-- It holds no white space. -/
theorem HexOf.noSpace (h : HexOf key text) : ∀ a ∈ text, isSpace a = false := by
  induction h with
  | nil => exact fun a ha => by cases ha
  | cons hhi hlo _ ih =>
    intro a ha
    rcases List.mem_cons.1 ha with rfl | ha
    · exact isSpace_of_digit hhi
    · rcases List.mem_cons.1 ha with rfl | ha
      · exact isSpace_of_digit hlo
      · exact ih a ha

/-- **And a text without white space is a plain one.** -/
theorem Spells.hexOf (h : Spells text key) (hno : ∀ a ∈ text, isSpace a = false) :
    HexOf key text := by
  induction h with
  | nil => exact .nil
  | @space a text key ha _ _ =>
    rw [hno a List.mem_cons_self] at ha
    cases ha
  | @pair a b hi lo text key hhi hlo _ ih =>
    obtain ⟨hdiv, hmod⟩ := byteOf_digits (digit_bounds hhi).1 (digit_bounds hlo).1
    refine .cons ?_ ?_ (ih fun x hx => hno x (List.mem_cons_of_mem _ (List.mem_cons_of_mem _ hx)))
    · rw [hdiv]
      exact hhi
    · rw [hmod]
      exact hlo

/-- What can be read is ASCII. -/
theorem Spells.ascii (h : Spells text key) : ∀ a ∈ text, a < 0x80 := by
  induction h with
  | nil => exact fun a ha => by cases ha
  | @space a text key ha _ ih =>
    intro x hx
    rcases List.mem_cons.1 hx with rfl | hx
    · simp only [isSpace, UInt8.le_iff_toNat_le, UInt8.lt_iff_toNat_lt, Bool.or_eq_true,
        Bool.and_eq_true, decide_eq_true_eq, beq_iff_eq, ← UInt8.toNat_inj,
        UInt8.reduceToNat] at ha ⊢
      omega
    · exact ih x hx
  | @pair a b hi lo text key hhi hlo _ ih =>
    intro x hx
    rcases List.mem_cons.1 hx with rfl | hx
    · exact (digit_bounds hhi).2.1
    · rcases List.mem_cons.1 hx with rfl | hx
      · exact (digit_bounds hlo).2.1
      · exact ih x hx

end Hex

end VehicleStack
