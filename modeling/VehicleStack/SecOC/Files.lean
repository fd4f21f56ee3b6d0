import Mathlib.Logic.Function.Basic
import VehicleStack.Common.Lockstep
import VehicleStack.Common.Numeral
import VehicleStack.SecOC.Model

/-!
# SecOC — the counters as files

`FvStore` on its directory: the name of each counter's file, the text in it,
and a store as the operations it makes on the files, each of which can be
refused, and around each of which the process can die. `abs` reads a
directory as the counters of `SecOC.Model`; `same_calls` says that
`secoc_build` and `secoc_verify` do on the files what they do there.
-/

namespace VehicleStack

namespace SecOC

namespace Files

open Callback Numeral

/-- The files in the directory, by their names. -/
abbrev Dir := List Char → Option Bytes

def Kind.word : Kind → List Char
  | .tx => ['t', 'x']
  | .rx => ['r', 'x']

/-- `_path`. -/
def path (kind : Kind) (did : ℕ) : List Char :=
  ['s', 'e', 'c', 'o', 'c', '_'] ++ (Kind.word kind ++ (['f', 'v', '_'] ++ Nat.toDigits 10 did))

/-- The name with `.tmp` behind it. -/
def tmp (kind : Kind) (did : ℕ) : List Char := path kind did ++ ['.', 't', 'm', 'p']

/-- What is written for a value. -/
def text (fv : ℤ) : Bytes := bytesOf (str fv ++ ['\n'])

section Load

variable (u : Digits)

/-- A counter file, by its bytes: text that cannot be decoded is a
`ValueError`, and so is one that `int` does not take. -/
def counter : Option Bytes → CounterFile
  | none => .lost .missing
  | some bytes =>
    match Text.utf8Scan bytes with
    | .complete cs =>
      let read := Text.strip (Text.newlines cs)
      if read = [] then .lost .empty
      else match int u read with
        | some n => .decimal n
        | none => .lost .unparsable
    | _ => .lost .unparsable

/-- `FvStore.load`; `fault` is an `OSError` at opening or reading. -/
def load (dir : Dir) (fault : Option LoadFault) (kind : Kind) (did : ℕ) : ℤ :=
  match fault with
  | some _ => 0
  | none =>
    match dir (path kind did) with
    | none => 0
    | some bytes =>
      match Text.utf8Scan bytes with
      | .complete cs =>
        let read := Text.strip (Text.newlines cs)
        if read = [] then 0 else (int u read).getD 0
      | _ => 0

end Load

/-- What becomes of the operations of one load and one store. Where the write
does not go through, `part` bytes of it do. -/
structure Io where
  load : Option LoadFault := none
  opened : Answer := .ok
  part : ℕ := 0
  written : Answer := .ok
  replaced : Answer := .ok

/-- `f.write`, with the `close` behind it. -/
def write (io : Io) (name : List Char) (bytes : Bytes) : EStateM Raised Dir PUnit :=
  match io.written with
  | .ok => modify fun dir => Function.update dir name (some bytes)
  | .osError => do
    modify fun dir => Function.update dir name (some (bytes.take io.part))
    throw .osError
  | .killBefore => do
    modify fun dir => Function.update dir name (some (bytes.take io.part))
    throw .killed
  | .killAfter => do
    modify fun dir => Function.update dir name (some bytes)
    throw .killed

/-- `FvStore.store`. -/
def store (io : Io) (kind : Kind) (did : ℕ) (fv : ℤ) : EStateM Raised Dir PUnit := do
  perform io.opened fun dir => Function.update dir (tmp kind did) (some [])
  write io (tmp kind did) (text fv)
  perform io.replaced fun dir =>
    Function.update (Function.update dir (path kind did) (dir (tmp kind did))) (tmp kind did) none

section Calls

variable (u : Digits) (aes_cmac : Bytes → Bytes → Bytes) (key : Bytes)

/-- `secoc_build`. -/
def secocBuild (io : Io) (did : ℕ) (payload : Bytes) : EStateM Raised Dir (Bytes × ℤ) := do
  let dir ← get
  let fv := load u dir io.load .tx did + 1
  let mac ← secocMac aes_cmac key did payload fv
  let frame := payload ++ mac ++ packH (fv % 65536).toNat
  store io .tx did fv
  pure (frame, fv)

/-- `secoc_verify`. -/
def secocVerify (io : Io) (did : ℕ) (frame : Bytes) :
    EStateM Raised Dir (Except String (Bytes × ℤ)) := do
  if frame.length < SECOC_FRAME_LEN then
    pure (.error "short frame")
  else
    let dir ← get
    let floor := load u dir io.load .rx did
    let rx_low := unpackH ((frame.drop 6).take 2)
    let cand := candidate floor rx_low
    let mac ← secocMac aes_cmac key did (frame.take 2) cand
    if mac ≠ (frame.drop 2).take 4 then
      pure (.error "MAC mismatch")
    else if cand - floor > SECOC_FV_MAX_JUMP then
      pure (.error "freshness outside accept window")
    else
      store io .rx did cand
      pure (.ok (frame.take 2, cand))

end Calls

/-! ## What the files stand for -/

/-- The counters of a directory. -/
def abs (u : Digits) (dir : Dir) : FvStore := ⟨fun kind did => counter u (dir (path kind did))⟩

/-- What becomes of a store as a whole: it is done where the temporary file
has been renamed. -/
def Io.answer (io : Io) : Answer :=
  match io.opened, io.written with
  | .ok, .ok => io.replaced
  | .ok, .osError => .osError
  | .osError, _ => .osError
  | _, _ => .killBefore

def Io.abs (io : Io) : SecOC.Io := ⟨io.load, io.answer⟩

variable {u : Digits} {dir : Dir} {kind kind' : Kind} {did did' : ℕ} {fv : ℤ} {io : Io}

theorem path_inj (h : path kind did = path kind' did') : kind = kind' ∧ did = did' := by
  have hword : (Kind.word kind).length = (Kind.word kind').length := by
    cases kind <;> cases kind' <;> rfl
  obtain ⟨hkind, hrest⟩ := List.append_inj (List.append_cancel_left h) hword
  have hdigits := congrArg (Nat.ofDigitChars 10 · 0) (List.append_cancel_left hrest)
  simp only [Nat.ofDigitChars_ten_toDigits] at hdigits
  refine ⟨?_, hdigits⟩
  cases kind <;> cases kind' <;> first | rfl | exact absurd hkind (by decide)

/-- No counter has a temporary file's name. -/
theorem path_ne_tmp : path kind did ≠ tmp kind' did' := by
  intro h
  have hdot : '.' ∈ path kind did := by
    rw [h]
    exact List.mem_append_right _ List.mem_cons_self
  have hdigit : '.' ∉ Nat.toDigits 10 did := fun hmem =>
    absurd (Nat.isDigit_of_mem_toDigits (by decide) (by decide) hmem) (by decide)
  unfold path at hdot
  rcases List.mem_append.1 hdot with hmem | hmem
  · exact absurd hmem (by decide)
  rcases List.mem_append.1 hmem with hmem | hmem
  · cases kind <;> exact absurd hmem (by decide)
  rcases List.mem_append.1 hmem with hmem | hmem
  · exact absurd hmem (by decide)
  · exact hdigit hmem

theorem abs_tmp {content : Option Bytes} :
    abs u (Function.update dir (tmp kind did) content) = abs u dir := by
  unfold abs
  congr 1
  funext k d
  rw [Function.update_of_ne path_ne_tmp]

/-- **What is stored is what will be loaded.** -/
theorem counter_text {n : ℕ} (h : n < 4294967296) : counter u (some (text n)) = .decimal n := by
  have hblank : Text.Blank ['\n'] := by
    intro c hc
    rw [List.mem_singleton.1 hc]
    decide
  have hlt : n < 10 ^ MAX_STR_DIGITS :=
    Nat.lt_of_lt_of_le (Nat.lt_of_lt_of_le h (by decide))
      (Nat.pow_le_pow_right (by decide) (by decide : 10 ≤ MAX_STR_DIGITS))
  have hascii : ∀ c ∈ str n ++ ['\n'], c.toNat < 0x80 := by
    intro c hc
    rcases List.mem_append.1 hc with hc | hc
    · have := isDigit_bounds (isDigit_str hc)
      omega
    · rw [List.mem_singleton.1 hc]
      decide
  have hcr : '\r' ∉ str n := fun hc => absurd (isDigit_str hc) (by decide)
  have hlines : Text.newlines (str n ++ ['\n']) = str n ++ ['\n'] :=
    Text.newlines_append hcr
  unfold counter text
  dsimp only
  rw [utf8Scan_ascii hascii]
  dsimp only
  rw [hlines, strip_str hblank, if_neg str_ne_nil, int_str hlt]

/-- A counter whose file is renamed into place. -/
theorem abs_path (h : 0 ≤ fv ∧ fv < 4294967296) :
    abs u (Function.update dir (path kind did) (some (text fv))) = (abs u dir).put kind did fv := by
  obtain ⟨n, rfl⟩ := Int.eq_ofNat_of_zero_le h.1
  unfold abs FvStore.put
  congr 1
  funext k d
  by_cases hsame : k = kind ∧ d = did
  · obtain ⟨rfl, rfl⟩ := hsame
    rw [Function.update_self, counter_text (by omega), if_pos ⟨rfl, rfl⟩]
  · rw [Function.update_of_ne fun heq => hsame (path_inj heq), if_neg hsame]

theorem load_eq : load u dir io.load kind did = (abs u dir).load io.abs kind did := by
  unfold load FvStore.load Io.abs abs counter
  dsimp only
  cases io.load with
  | some fault => rfl
  | none =>
    dsimp only
    cases dir (path kind did) with
    | none => rfl
    | some bytes =>
      dsimp only
      cases Text.utf8Scan bytes with
      | complete cs =>
        dsimp only
        split
        · rfl
        · cases int u (Text.strip (Text.newlines cs)) <;> rfl
      | cutOff cs => rfl
      | invalid => rfl

/-- The file that is renamed holds what has been written. -/
theorem abs_replaced (h : 0 ≤ fv ∧ fv < 4294967296) {dir' : Dir}
    (hdir : abs u dir' = abs u dir) (htmp : dir' (tmp kind did) = some (text fv)) :
    abs u (Function.update (Function.update dir' (path kind did) (dir' (tmp kind did)))
      (tmp kind did) none) = (abs u dir).put kind did fv := by
  rw [abs_tmp, htmp, abs_path h, hdir]

/-- **A store on the files is one of the counter**: wherever it stops, the
counter holds the old value or the new one. -/
theorem store_refined (h : 0 ≤ fv ∧ fv < 4294967296) :
    wp₂ (store io kind did fv) (FvStore.store io.abs kind did fv)
      (fun _ _ dir' s => s = abs u dir') (fun dir' s => s = abs u dir') dir (abs u dir) := by
  obtain ⟨fault, opened, part, written, replaced⟩ := io
  have hopened : abs u (Function.update dir (tmp kind did) (some [])) = abs u dir := abs_tmp
  have hwritten : ∀ bytes, abs u (Function.update (Function.update dir (tmp kind did) (some []))
      (tmp kind did) (some bytes)) = abs u dir := fun _ => abs_tmp.trans abs_tmp
  have hreplaced := abs_replaced h (hwritten (text fv)) (Function.update_self ..)
  cases opened with
  | osError => exact ⟨rfl, rfl⟩
  | killBefore => exact ⟨rfl, rfl⟩
  | killAfter => exact ⟨rfl, hopened.symm⟩
  | ok =>
    cases written with
    | osError => exact ⟨rfl, (hwritten _).symm⟩
    | killBefore => exact ⟨rfl, (hwritten _).symm⟩
    | killAfter => exact ⟨rfl, (hwritten _).symm⟩
    | ok =>
      cases replaced with
      | osError => exact ⟨rfl, (hwritten _).symm⟩
      | killBefore => exact ⟨rfl, (hwritten _).symm⟩
      | killAfter => exact ⟨rfl, hreplaced.symm⟩
      | ok => exact hreplaced.symm

/-! ## Building and verifying -/

section Refined

variable {aes_cmac : Bytes → Bytes → Bytes} {key frame payload : Bytes}

/-- A MAC is taken on both sides, of 32 bits, or on neither. -/
theorem wp₂_secocMac {σ τ : Type} {Q : Bytes → Bytes → σ → τ → Prop} {E : σ → τ → Prop} {s : σ}
    {t : τ} (hok : 0 ≤ fv ∧ fv < 4294967296 →
      Q (macOf aes_cmac key did payload fv.toNat) (macOf aes_cmac key did payload fv.toNat) s t)
    (hno : E s t) :
    wp₂ (secocMac aes_cmac key did payload fv) (secocMac aes_cmac key did payload fv) Q E s t := by
  unfold secocMac
  by_cases h : 0 ≤ fv ∧ fv < 4294967296
  · rw [if_pos h, if_pos h]
    exact hok h
  · rw [if_neg h, if_neg h, wp₂_throw]
    exact hno

theorem secocBuild_refined :
    wp₂ (secocBuild u aes_cmac key io did payload)
      (SecOC.secocBuild aes_cmac key io.abs did payload)
      (fun a b dir' s => a = b ∧ s = abs u dir') (fun dir' s => s = abs u dir') dir
      (abs u dir) := by
  unfold secocBuild SecOC.secocBuild
  refine wp₂_bind ?_
  rw [wp₂_get, load_eq]
  refine wp₂_bind (wp₂_secocMac (fun hrange => ?_) rfl)
  exact wp₂_bind (wp₂_mono (store_refined hrange) (fun _ _ _ _ h => ⟨rfl, h⟩) fun _ _ h => h)

theorem secocVerify_refined :
    wp₂ (secocVerify u aes_cmac key io did frame)
      (SecOC.secocVerify aes_cmac key io.abs did frame)
      (fun a b dir' s => a = b ∧ s = abs u dir') (fun dir' s => s = abs u dir') dir
      (abs u dir) := by
  unfold secocVerify SecOC.secocVerify
  rw [wp₂_ite]
  split
  · exact ⟨rfl, rfl⟩
  refine wp₂_bind ?_
  rw [wp₂_get, load_eq]
  refine wp₂_bind (wp₂_secocMac (fun hrange => ?_) rfl)
  rw [wp₂_ite]
  split
  · exact ⟨rfl, rfl⟩
  rw [wp₂_ite]
  split
  · exact ⟨rfl, rfl⟩
  · exact wp₂_bind (wp₂_mono (store_refined hrange) (fun _ _ _ _ h => ⟨rfl, h⟩) fun _ _ h => h)

end Refined

/-- A call of `secoc_build` or of `secoc_verify`, and what becomes of its
operations on the files. -/
inductive Call
  | build (io : Io) (did : ℕ) (payload : Bytes)
  | verify (io : Io) (did : ℕ) (frame : Bytes)

/-- What it returns. -/
inductive Returned
  | built (frame : Bytes) (fv : ℤ)
  | verified (verdict : Except String (Bytes × ℤ))

section Calls

variable (u : Digits) (aes_cmac : Bytes → Bytes → Bytes) (key : Bytes)

/-- A call on the files, and one on the counters. -/
def onFiles : Call → EStateM Raised Dir Returned
  | .build io did payload => do
    let r ← secocBuild u aes_cmac key io did payload
    pure (.built r.1 r.2)
  | .verify io did frame => do
    let r ← secocVerify u aes_cmac key io did frame
    pure (.verified r)

def onCounters : Call → EStateM Raised FvStore Returned
  | .build io did payload => do
    let r ← SecOC.secocBuild aes_cmac key io.abs did payload
    pure (.built r.1 r.2)
  | .verify io did frame => do
    let r ← SecOC.secocVerify aes_cmac key io.abs did frame
    pure (.verified r)

/-- **The files are the counters.** Whatever is in the directory at first,
and however the operations of each call end, every call returns or raises
what it does on the counters that the files stand for, and leaves the files
that stand for the counters it leaves there. -/
theorem same_calls (calls : List Call) (dir : Dir) :
    outcomes (onCounters aes_cmac key) calls (abs u dir) =
      ((outcomes (onFiles u aes_cmac key) calls dir).1,
        abs u (outcomes (onFiles u aes_cmac key) calls dir).2) := by
  refine outcomes_refined (fun call dir => ?_) calls dir
  cases call with
  | build io did payload =>
    refine wp₂_bind (wp₂_mono secocBuild_refined (fun a b _ _ h => ?_) fun _ _ h => h)
    obtain ⟨rfl, h⟩ := h
    exact ⟨rfl, h⟩
  | verify io did frame =>
    refine wp₂_bind (wp₂_mono secocVerify_refined (fun a b _ _ h => ?_) fun _ _ h => h)
    obtain ⟨rfl, h⟩ := h
    exact ⟨rfl, h⟩

end Calls

end Files

end SecOC

end VehicleStack
