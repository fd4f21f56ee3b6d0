import VehicleStack.Common.Callback
import VehicleStack.Common.Truncated

/-!
# SecOC — the authenticated frames of `secoc_utils.py`

The freshness store, the MAC, and the two helpers that build and verify a
frame. A frame is eight bytes: a two-byte payload, the first four bytes of
an AES-CMAC over data identifier, payload and 32-bit freshness value, and
the low half of that value. AES-CMAC itself is the `cryptography`
package's and is a parameter, `aes_cmac key msg`.

A counter file is kept as what `FvStore.load` can tell apart. Whatever
keeps a file from yielding a number at one call, lasting or not, is the
`load` field of that call's `Io`; whether the write goes through is its
`store` field.
-/

namespace VehicleStack

namespace SecOC

open Callback

/-- A byte string. -/
abbrev Bytes := List UInt8

def SECOC_PAYLOAD_LEN : ℕ := 2
def SECOC_MAC_LEN : ℕ := 4
def SECOC_FRAME_LEN : ℕ := 8
def SECOC_FV_MAX_JUMP : ℤ := 0x8000

/-! ## `struct.pack` and `struct.unpack`, big-endian -/

/-- `struct.pack(">H", n)`. -/
def packH (n : ℕ) : Bytes := [UInt8.ofNat (n / 256), UInt8.ofNat n]

/-- `struct.pack(">I", n)`. -/
def packI (n : ℕ) : Bytes :=
  [UInt8.ofNat (n / 16777216), UInt8.ofNat (n / 65536), UInt8.ofNat (n / 256), UInt8.ofNat n]

/-- `struct.unpack(">H", b)[0]`, of two bytes. -/
def unpackH : Bytes → ℕ
  | [hi, lo] => hi.toNat * 256 + lo.toNat
  | _ => 0

theorem unpackH_lt (b : Bytes) : unpackH b < 65536 := by
  unfold unpackH
  split
  · rename_i hi lo
    have := hi.toNat_lt
    have := lo.toNat_lt
    omega
  · omega

theorem unpackH_packH (n : ℕ) : unpackH (packH n) = n % 65536 := by
  simp only [unpackH, packH, UInt8.toNat_ofNat']
  omega

/-! ## The freshness store -/

inductive Kind
  | tx
  | rx
  deriving DecidableEq, Repr

/-- The conditions under which a counter file yields no number: it is not
there, it cannot be opened or read (`OSError`), it holds nothing (`or 0`),
or it holds no decimal integer (`ValueError`). -/
inductive LoadFault
  | missing
  | unreadable
  | empty
  | unparsable
  deriving DecidableEq, Repr

/-- A counter file. -/
inductive CounterFile
  | lost (fault : LoadFault)
  | decimal (n : ℤ)
  deriving DecidableEq, Repr

/-- What the file system answers to one load and one store of a counter. -/
structure Io where
  load : Option LoadFault := none
  store : Answer := .ok
  deriving DecidableEq, Repr

/-- The state directory: one file for each kind and data identifier. -/
structure FvStore where
  file : Kind → ℕ → CounterFile

namespace FvStore

/-- `FvStore.load`. Every failure is folded into the value of a counter
that has never been used. -/
def load (s : FvStore) (io : Io) (kind : Kind) (did : ℕ) : ℤ :=
  match io.load with
  | some _ => 0
  | none =>
    match s.file kind did with
    | .lost _ => 0
    | .decimal n => n

/-- The state directory after `os.replace` has put `fv` in place. -/
def put (s : FvStore) (kind : Kind) (did : ℕ) (fv : ℤ) : FvStore :=
  ⟨fun k d => if k = kind ∧ d = did then .decimal fv else s.file k d⟩

/-- `FvStore.store`: the temporary file is written and renamed over the
counter, so the counter holds the old value or the new one. -/
def store (io : Io) (kind : Kind) (did : ℕ) (fv : ℤ) : EStateM Raised FvStore PUnit :=
  perform io.store fun s => s.put kind did fv

/-- A store no counter of which has been written. -/
def fresh : FvStore := ⟨fun _ _ => .lost .missing⟩

variable {s : FvStore} {io : Io} {kind kind' : Kind} {did did' : ℕ} {fv : ℤ}

@[simp] theorem put_self : (s.put kind did fv).file kind did = .decimal fv := by
  simp [put]

theorem put_of_ne (h : ¬ (kind' = kind ∧ did' = did)) :
    (s.put kind did fv).file kind' did' = s.file kind' did' := by
  simp [put, h]

@[simp] theorem load_of_fault (h : io.load.isSome) : s.load io kind did = 0 := by
  obtain ⟨f, hf⟩ := Option.isSome_iff_exists.1 h
  simp [load, hf]

theorem load_put_self (h : io.load = none) : (s.put kind did fv).load io kind did = fv := by
  simp [load, h]

theorem load_put_of_ne (h : ¬ (kind' = kind ∧ did' = did)) :
    (s.put kind did fv).load io kind' did' = s.load io kind' did' := by
  simp [load, put_of_ne h]

end FvStore

/-! ## Building and verifying a frame -/

section Frames

variable (aes_cmac : Bytes → Bytes → Bytes) (key : Bytes)

/-- The bytes the MAC is taken over. -/
def macInput (did : ℕ) (payload : Bytes) (fv : ℕ) : Bytes := packH did ++ payload ++ packI fv

/-- `secoc_mac` of a freshness value the `>I` field can hold. -/
def macOf (did : ℕ) (payload : Bytes) (fv : ℕ) : Bytes :=
  (aes_cmac key (macInput did payload fv)).take SECOC_MAC_LEN

/-- `secoc_mac`. Packing a value outside 32 bits raises `struct.error`. -/
def secocMac {σ : Type} (did : ℕ) (payload : Bytes) (fv : ℤ) : EStateM Raised σ Bytes :=
  if 0 ≤ fv ∧ fv < 4294967296 then pure (macOf aes_cmac key did payload fv.toNat)
  else throw .structError

/-- The frame that carries `payload` under freshness value `fv`. -/
def frameOf (did : ℕ) (payload : Bytes) (fv : ℤ) : Bytes :=
  payload ++ macOf aes_cmac key did payload fv.toNat ++ packH (fv % 65536).toNat

/-- `secoc_build`. The counter is stored before the frame is handed out. -/
def secocBuild (io : Io) (did : ℕ) (payload : Bytes) : EStateM Raised FvStore (Bytes × ℤ) := do
  let s ← get
  let fv := s.load io .tx did + 1
  let mac ← secocMac aes_cmac key did payload fv
  let frame := payload ++ mac ++ packH (fv % 65536).toNat
  FvStore.store io .tx did fv
  pure (frame, fv)

/-- `(floor & 0xFFFF0000) | rx_low`, moved up by `0x10000` unless it is
above the floor. The mask keeps 32 bits of the floor and drops the rest. -/
def candidate (floor : ℤ) (rx_low : ℕ) : ℤ :=
  let cand := floor / 65536 % 65536 * 65536 + rx_low
  if cand ≤ floor then cand + 65536 else cand

/-- `secoc_verify`: the payload and the freshness value of an accepted
frame, or the reason for rejecting it. -/
def secocVerify (io : Io) (did : ℕ) (frame : Bytes) :
    EStateM Raised FvStore (Except String (Bytes × ℤ)) := do
  if frame.length < SECOC_FRAME_LEN then
    pure (.error "short frame")
  else
    let s ← get
    let floor := s.load io .rx did
    let rx_low := unpackH ((frame.drop 6).take 2)
    let cand := candidate floor rx_low
    let mac ← secocMac aes_cmac key did (frame.take 2) cand
    if mac ≠ (frame.drop 2).take 4 then
      pure (.error "MAC mismatch")
    else if cand - floor > SECOC_FV_MAX_JUMP then
      pure (.error "freshness outside accept window")
    else
      FvStore.store io .rx did cand
      pure (.ok (frame.take 2, cand))

end Frames

/-! ## Recorded MACs

AES-CMAC under the key `00 01 … 0f`, recorded for the few messages the
concrete runs of this development authenticate. -/

def sampleKey : Bytes := [0, 1, 2, 3, 4, 5, 6, 7, 8, 9, 10, 11, 12, 13, 14, 15]

def sampleMacs : List (Bytes × Bytes) :=
  [([0, 1, 165, 1, 0, 0, 0, 1],
    [211, 232, 7, 138, 59, 117, 54, 243, 244, 103, 30, 87, 149, 21, 170, 58]),
   ([0, 1, 165, 2, 0, 0, 0, 2],
    [157, 143, 137, 15, 184, 24, 37, 128, 139, 230, 119, 216, 62, 135, 70, 186]),
   ([0, 1, 165, 1, 0, 1, 0, 1],
    [142, 178, 73, 162, 221, 117, 120, 227, 179, 194, 56, 68, 206, 88, 249, 64]),
   ([0, 2, 90, 1, 0, 0, 0, 1],
    [6, 206, 250, 241, 236, 178, 157, 153, 171, 192, 26, 3, 96, 6, 141, 73]),
   ([0, 4, 165, 1, 0, 0, 0, 1],
    [26, 166, 16, 28, 162, 121, 113, 48, 127, 2, 137, 245, 88, 103, 208, 124]),
   ([0, 3, 1, 1, 0, 0, 0, 1],
    [38, 231, 18, 194, 74, 206, 28, 198, 247, 246, 72, 8, 185, 182, 171, 16]),
   ([0, 3, 1, 2, 0, 0, 0, 1],
    [69, 185, 79, 200, 17, 41, 141, 244, 31, 45, 217, 222, 172, 34, 7, 197]),
   ([0, 3, 1, 1, 0, 0, 0, 2],
    [75, 61, 39, 59, 68, 158, 91, 6, 174, 25, 187, 92, 98, 108, 187, 3]),
   ([0, 3, 0, 2, 0, 0, 0, 2],
    [49, 178, 234, 161, 214, 114, 65, 3, 172, 67, 183, 86, 241, 156, 146, 240]),
   ([0, 6, 1, 1, 0, 0, 0, 1],
    [161, 29, 51, 242, 176, 31, 176, 165, 118, 155, 157, 82, 75, 179, 144, 130])]

/-- The recorded value, where there is one. -/
def sampleCmac (key msg : Bytes) : Bytes :=
  if key = sampleKey then (sampleMacs.lookup msg).getD [] else []

end SecOC

end VehicleStack
