import VehicleStack.Common.Hex
import VehicleStack.Common.Text
import VehicleStack.SecOC.Model

/-!
# SecOC — the key file

`load_key` takes a key as sixteen raw bytes or as the text of its digits,
and tells the two apart by length: of what it has read, and of what is left
once the blanks at the end are trimmed. The last step reads the text with
`bytes.fromhex`, which lets white space stand between the digits, so of a
text of 32 characters it may make less than a key; and what stands beyond
the first 128 bytes is never looked at. `key_loads_iff` says of which files
neither is true.
-/

namespace VehicleStack

namespace SecOC

/-- How many bytes of the file are read. -/
def KEY_READ_LEN : ℕ := 128

/-- `b" \\t\\r\\n"`. -/
def isBlank (a : UInt8) : Bool := a == 0x20 || a == 0x09 || a == 0x0D || a == 0x0A

/-- The `ValueError`s of `load_key`: its own, `UnicodeDecodeError`, and the
one of `bytes.fromhex`. -/
inductive KeyError
  | wrongLength (got : ℕ)
  | notAscii
  | notHex
  deriving DecidableEq, Repr

/-- `load_key`, of a file with these bytes. -/
def loadKey (file : Bytes) : Except KeyError Bytes :=
  let buf := file.take KEY_READ_LEN
  if buf.length = 16 then .ok buf
  else
    let txt := buf.rdropWhile isBlank
    if txt.length ≠ 32 then .error (.wrongLength txt.length)
    else if ∃ a ∈ txt, 0x80 ≤ a then .error .notAscii
    else
      match Hex.fromHex txt with
      | some key => .ok key
      | none => .error .notHex

/-- The files a key of sixteen bytes is to be read from: its bytes, or its
digits with blanks after them, in 128 bytes at most. -/
def KeyFile (key file : Bytes) : Prop :=
  key.length = 16 ∧ (file = key ∨ ∃ digits blanks, file = digits ++ blanks ∧
    Hex.HexOf key digits ∧ (∀ a ∈ blanks, isBlank a) ∧ file.length ≤ KEY_READ_LEN)

/-- What `load_key` makes of the file is right: the key, where it is the
file of a key, and otherwise a `ValueError`. -/
def KeyLoads (file : Bytes) : Prop := ∀ key, loadKey file = .ok key ↔ KeyFile key file

/-- The file begins with a text of 32 characters that reads as digits, and
either white space is among them, or something stands beyond the bytes that
are read. -/
def Misread (file : Bytes) : Prop :=
  ∃ text blanks rest, file = text ++ blanks ++ rest ∧ text.length = 32 ∧
    (∃ key, Hex.Spells text key) ∧ (∀ a ∈ text.getLast?, ¬ isBlank a) ∧
    (∀ a ∈ blanks, isBlank a) ∧ (text ++ blanks).length ≤ KEY_READ_LEN ∧
    (rest ≠ [] → (text ++ blanks).length = KEY_READ_LEN) ∧
    ((∃ a ∈ text, Hex.isSpace a) ∨ rest ≠ [])

variable {file key text blanks : Bytes}

/-- What is read of the file, without the blanks at its end. -/
def readText (file : Bytes) : Bytes := (file.take KEY_READ_LEN).rdropWhile isBlank

theorem readText_length_le (file : Bytes) :
    (readText file).length ≤ (file.take KEY_READ_LEN).length :=
  (List.rdropWhile_prefix _ _).length_le

/-- **What `load_key` accepts**: sixteen bytes, or a text of 32 characters
that `bytes.fromhex` can read. -/
theorem loadKey_eq_ok : loadKey file = .ok key ↔ file.length = 16 ∧ key = file ∨
    (readText file).length = 32 ∧ Hex.Spells (readText file) key := by
  have hlen : (file.take KEY_READ_LEN).length = min 128 file.length := List.length_take
  have hshort := readText_length_le file
  simp only [loadKey]
  -- sixteen bytes are a key whatever they are, digits or not
  by_cases hraw : (file.take KEY_READ_LEN).length = 16
  · have hfile : file.length = 16 := by omega
    have htake : file.take KEY_READ_LEN = file :=
      List.take_of_length_le (show file.length ≤ 128 by omega)
    rw [if_pos hraw, htake]
    constructor
    · intro h
      exact Or.inl ⟨hfile, (Except.ok.inj h).symm⟩
    · rintro (⟨-, rfl⟩ | ⟨h32, -⟩)
      · rfl
      · omega
  · rw [if_neg hraw]
    show (if (readText file).length ≠ 32 then .error (.wrongLength (readText file).length)
      else if ∃ a ∈ readText file, 0x80 ≤ a then .error .notAscii
      else match Hex.fromHex (readText file) with
        | some key => .ok key
        | none => .error .notHex : Except KeyError Bytes) = .ok key ↔ _
    have hno : ¬ (file.length = 16 ∧ key = file) := fun h => hraw (by rw [hlen, h.1]; rfl)
    by_cases h32 : (readText file).length = 32
    · rw [if_neg (not_not.2 h32), ← Hex.fromHex_eq_some]
      simp only [h32, hno, false_or, true_and]
      by_cases hascii : ∃ a ∈ readText file, 0x80 ≤ a
      · rw [if_pos hascii]
        obtain ⟨a, ha, hge⟩ := hascii
        constructor
        · intro h
          cases h
        · intro h
          have := (Hex.fromHex_eq_some.1 h).ascii a ha
          exact absurd hge (UInt8.not_le.2 this)
      · rw [if_neg hascii]
        cases Hex.fromHex (readText file) with
        | none =>
          constructor <;> intro h <;> cases h
        | some key' =>
          constructor
          · intro h
            rw [Except.ok.inj h]
          · intro h
            rw [Option.some.inj h]
    · rw [if_pos h32]
      simp only [hno, h32, false_or, false_and, iff_false]
      intro h
      cases h

/-- A file of digits and blanks is read as its digits. -/
theorem readText_append {rest : Bytes} (hlast : ∀ a ∈ text.getLast?, ¬ isBlank a)
    (hblanks : ∀ a ∈ blanks, isBlank a) (hle : (text ++ blanks).length ≤ KEY_READ_LEN)
    (hrest : rest ≠ [] → (text ++ blanks).length = KEY_READ_LEN) :
    readText (text ++ blanks ++ rest) = text := by
  have htake : (text ++ blanks ++ rest).take KEY_READ_LEN = text ++ blanks := by
    by_cases hnil : rest = []
    · rw [hnil, List.append_nil, List.take_of_length_le hle]
    · rw [← hrest hnil, List.take_left]
  rw [readText, htake, Text.rdropWhile_append hlast hblanks]

/-- **Any file** is what is read of it, the blanks that are trimmed, and
what is not looked at. -/
theorem readText_parts (file : Bytes) : ∃ blanks,
    file = readText file ++ blanks ++ file.drop KEY_READ_LEN ∧
    (∀ a ∈ (readText file).getLast?, ¬ isBlank a) ∧ (∀ a ∈ blanks, isBlank a) ∧
    (readText file ++ blanks).length ≤ KEY_READ_LEN ∧
    (file.drop KEY_READ_LEN ≠ [] → (readText file ++ blanks).length = KEY_READ_LEN) := by
  have htake : readText file ++ (file.take KEY_READ_LEN).rtakeWhile isBlank =
      file.take KEY_READ_LEN := List.rdropWhile_append_rtakeWhile
  have hlen : (file.take KEY_READ_LEN).length = min KEY_READ_LEN file.length := List.length_take
  refine ⟨(file.take KEY_READ_LEN).rtakeWhile isBlank, ?_, fun a ha => ?_,
    fun a ha => List.mem_rtakeWhile_imp ha, ?_, fun hne => ?_⟩
  · rw [htake, List.take_append_drop]
  · have hne : readText file ≠ [] := by
      intro hnil
      rw [hnil] at ha
      cases ha
    rw [List.getLast?_eq_some_getLast hne] at ha
    rw [← Option.some.inj ha]
    exact List.rdropWhile_last_not _ _ hne
  · rw [htake]
    omega
  · have := List.length_pos_iff.2 hne
    rw [List.length_drop] at this
    rw [htake]
    omega

/-- Digits are not blanks. -/
theorem not_isBlank_of_hexOf (h : Hex.HexOf key text) : ∀ a ∈ text.getLast?, ¬ isBlank a := by
  intro a ha hblank
  have hmem : a ∈ text := List.mem_of_getLast? ha
  have hspace := h.noSpace a hmem
  simp only [isBlank, Hex.isSpace, Bool.or_eq_true, beq_iff_eq] at hblank hspace
  rcases hblank with ((rfl | rfl) | rfl) | rfl <;> exact absurd hspace (by decide)

/-- **Every key is read from its files.** -/
theorem loadKey_of_keyFile (h : KeyFile key file) : loadKey file = .ok key := by
  obtain ⟨hkey, rfl | ⟨digits, blanks, rfl, hhex, hblanks, hle⟩⟩ := h
  · exact loadKey_eq_ok.2 (Or.inl ⟨hkey, rfl⟩)
  · have hread : readText (digits ++ blanks) = digits := by
      have hnil : readText (digits ++ blanks ++ []) = digits :=
        readText_append (not_isBlank_of_hexOf hhex) hblanks hle fun h => absurd rfl h
      rwa [List.append_nil] at hnil
    refine loadKey_eq_ok.2 (Or.inr ?_)
    rw [hread]
    exact ⟨by rw [hhex.length, hkey], hhex.spells⟩

/-- A misread file has another text than a key's file. -/
theorem not_keyFile_of_misread (h : Misread file) : ¬ KeyFile key file := by
  obtain ⟨text, blanks, rest, rfl, h32, -, -, -, -, hrest, hbad⟩ := h
  rintro ⟨hkey, rfl | ⟨digits, blanks', heq, hhex, -, hle⟩⟩
  · -- sixteen bytes hold no text of 32 characters
    simp only [List.length_append] at hkey
    omega
  · have hlen : digits.length = text.length := by
      rw [hhex.length, hkey, h32]
    have htext : text = digits := by
      rw [List.append_assoc] at heq
      exact (List.append_inj heq hlen.symm).1
    rcases hbad with ⟨a, ha, hspace⟩ | hne
    · rw [htext] at ha
      rw [hhex.noSpace a ha] at hspace
      cases hspace
    · have := hrest hne
      have hpos := List.length_pos_iff.2 hne
      rw [List.length_append, this] at hle
      omega

/-- **When `load_key` is right.** It takes from a file exactly the key the
file is of, and raises `ValueError` where it is of none, if and only if the
file is not misread. -/
theorem key_loads_iff (file : Bytes) : KeyLoads file ↔ ¬ Misread file := by
  constructor
  · intro hloads hmis
    obtain ⟨text, blanks, rest, hfile, h32, ⟨key, hspells⟩, hlast, hblanks, hle, hrest, -⟩ :=
      id hmis
    have hread : readText file = text := hfile ▸ readText_append hlast hblanks hle hrest
    have hok : loadKey file = .ok key := loadKey_eq_ok.2 (Or.inr (hread.symm ▸ ⟨h32, hspells⟩))
    exact not_keyFile_of_misread hmis ((hloads key).1 hok)
  · intro hmis key
    refine ⟨fun hok => ?_, loadKey_of_keyFile⟩
    rcases loadKey_eq_ok.1 hok with ⟨h16, rfl⟩ | ⟨h32, hspells⟩
    · exact ⟨h16, Or.inl rfl⟩
    · obtain ⟨blanks, hparts, hlast, hblanks, hle, hfull⟩ := readText_parts file
      have hgood : ¬ ((∃ a ∈ readText file, Hex.isSpace a) ∨ file.drop KEY_READ_LEN ≠ []) :=
        fun hbad => hmis ⟨_, blanks, _, hparts, h32, ⟨key, hspells⟩, hlast, hblanks, hle, hfull,
          hbad⟩
      push Not at hgood
      obtain ⟨hno, hrest⟩ := hgood
      have hhex : Hex.HexOf key (readText file) :=
        hspells.hexOf fun a ha => Bool.eq_false_iff.2 (hno a ha)
      have hkey : key.length = 16 := by
        have := hhex.length
        omega
      rw [hrest, List.append_nil] at hparts
      refine ⟨hkey, Or.inr ⟨_, blanks, hparts, hhex, hblanks, ?_⟩⟩
      rw [hparts]
      exact hle

/-- The digits of eleven bytes with a space between each two:
`00 11 22 33 44 55 66 77 88 99 aa`. -/
def spacedKey : Bytes :=
  [0x30, 0x30, 0x20, 0x31, 0x31, 0x20, 0x32, 0x32, 0x20, 0x33, 0x33, 0x20, 0x34, 0x34, 0x20,
    0x35, 0x35, 0x20, 0x36, 0x36, 0x20, 0x37, 0x37, 0x20, 0x38, 0x38, 0x20, 0x39, 0x39, 0x20,
    0x61, 0x61]

/-- **A key of eleven bytes is loaded.** -/
theorem spacedKey_loaded : ¬ KeyLoads spacedKey := by
  intro h
  have hrun : loadKey spacedKey =
      .ok [0x00, 0x11, 0x22, 0x33, 0x44, 0x55, 0x66, 0x77, 0x88, 0x99, 0xAA] := by decide
  have hkey := ((h _).1 hrun).1
  cases hkey

end SecOC

end VehicleStack
