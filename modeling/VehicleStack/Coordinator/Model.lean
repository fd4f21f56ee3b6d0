import VehicleStack.Common.Dict
import VehicleStack.Common.Text
import VehicleStack.SecOC.Model
import Mathlib.Algebra.Order.Ring.Rat

/-!
# The update coordinator — its data

What `update_coordinator/node.py` keeps in memory, on disk and on the
wires, and what the operating system may answer while a callback runs.
`Memory` is lost with the process, the rest of `World` is not. `Env` holds
one answer for each call site of a callback; no site is reached twice with
one `Env`, so nothing ties one answer to another. `World.trace` records
what the run has done, oldest first; no callback reads it.
-/

namespace VehicleStack

namespace Coordinator

open Callback SecOC

/-! ## Who takes part -/

/-- Who may ask for an update over CAN: the keys of `BUDGETS`. -/
inductive Requester
  | cluster
  | esp32
  deriving DecidableEq, Repr

/-- Who may hold the vehicle: the keys of `active_ecus`. -/
inductive Ecu
  | cluster
  | esp32
  | jetson
  deriving DecidableEq, Repr

def Requester.ecu : Requester → Ecu
  | .cluster => .cluster
  | .esp32 => .esp32

theorem Requester.ecu_injective : Function.Injective Requester.ecu := by
  intro a b h
  cases a <;> cases b <;> first | rfl | cases h

@[simp] theorem Requester.ecu_inj {a b : Requester} : a.ecu = b.ecu ↔ a = b :=
  Requester.ecu_injective.eq_iff

@[simp] theorem Requester.ecu_ne_jetson {a : Requester} : a.ecu ≠ .jetson := by
  cases a <;> simp [Requester.ecu]

def CAN_ID_OTA_REQ : ℕ := 0x300
def CAN_ID_OTA_APPROVE : ℕ := 0x301
def CAN_ID_ECU_OTA_REQ : ℕ := 0x310
def CAN_ID_ECU_OTA_APPROVE : ℕ := 0x311

def OTA_REQ_MAGIC : UInt8 := 0xA5
def OTA_RUN_MAGIC : UInt8 := 0x5A

def DID_CLUSTER_REQUEST : ℕ := 1
def DID_CLUSTER_RUNNING : ℕ := 2
def DID_CLUSTER_APPROVE : ℕ := 3
def DID_ECU_REQUEST : ℕ := 4
def DID_ECU_RUNNING : ℕ := 5
def DID_ECU_APPROVE : ℕ := 6

def VERDICT_APPROVE : UInt8 := 1
def VERDICT_DENY : UInt8 := 0

/-- One entry of `_handle_can`'s table. -/
structure Flow where
  name : Requester
  didReq : ℕ
  didRun : ℕ
  didAppr : ℕ
  apprCanId : ℕ
  deriving DecidableEq, Repr

def Requester.flow : Requester → Flow
  | .cluster => ⟨.cluster, DID_CLUSTER_REQUEST, DID_CLUSTER_RUNNING, DID_CLUSTER_APPROVE,
      CAN_ID_OTA_APPROVE⟩
  | .esp32 => ⟨.esp32, DID_ECU_REQUEST, DID_ECU_RUNNING, DID_ECU_APPROVE, CAN_ID_ECU_OTA_APPROVE⟩

/-- `flows.get(can_id)`. -/
def flows (canId : ℕ) : Option Flow :=
  if canId = CAN_ID_OTA_REQ then some Requester.cluster.flow
  else if canId = CAN_ID_ECU_OTA_REQ then some Requester.esp32.flow
  else none

/-- The two kinds of message a requester sends. -/
inductive What
  | request
  | running
  deriving DecidableEq, Repr

/-- A requester's timing, in milliseconds. -/
structure Budget where
  peerWaitMs : ℕ
  uiMs : ℕ
  deadlineMs : ℕ
  deriving DecidableEq, Repr

/-- `BUDGETS`. -/
def Requester.budget : Requester → Budget
  | .cluster => ⟨60000, 9000, 30000⟩
  | .esp32 => ⟨10000, 9000, 9500⟩

/-! ## The approval spool -/

/-- The part of an offer's file name before the first `-`. -/
inductive Producer
  | ours (name : Requester)
  | other (name : String)
  deriving DecidableEq, Repr

/-- The part after it: `<time>-<seq>` where this node wrote the offer. A
name may also have no `-` at all. -/
inductive OfferTail
  | stamped (time : ℤ) (seq : ℕ)
  | text (s : String)
  | bare
  deriving DecidableEq, Repr

/-- An offer's id; `.json` added, its file name in `offers/`. -/
structure OfferId where
  producer : Producer
  tail : OfferTail
  deriving DecidableEq, Repr

/-- An offer file. -/
structure Offer where
  id : OfferId
  target : String
  version : String
  slot : String
  requestedAt : ℤ
  expiresAt : ℤ
  autoAcceptMs : ℕ
  stopsVehicle : Bool
  deriving DecidableEq, Repr

/-- A completion notice: its file is named by target and second. -/
structure Notice where
  target : Requester
  second : ℤ
  time : ℤ
  deriving DecidableEq, Repr

/-- An entry of `_pending`. -/
structure Pending where
  id : OfferId
  slot : UInt8
  didAppr : ℕ
  apprCanId : ℕ
  t0 : ℚ
  deadline : ℚ
  deriving DecidableEq

/-! ## The state -/

/-- The two services of the emergency-stop server. -/
inductive Label
  | lock
  | unlock
  deriving DecidableEq, Repr

/-- What the process holds in memory. A timer field says whether the timer
exists. -/
structure Memory where
  activeEcus : Dict Ecu ℚ
  isLocked : Bool
  lockStatePending : Bool
  timeoutTimer : Bool
  pending : Dict Requester Pending
  pollTimer : Bool
  offerSeq : ℕ
  noticeTimers : List (Requester × ℤ)

/-- The fields as `__init__` sets them. -/
def Memory.init : Memory where
  activeEcus := .empty
  isLocked := false
  lockStatePending := false
  timeoutTimer := false
  pending := .empty
  pollTimer := false
  offerSeq := 0
  noticeTimers := []

/-- The counter files, the self-update flag and the spool. What stands in
`verdicts/` is the head unit's, and a poll's `Env` says what it reads. -/
structure Disk where
  store : FvStore
  selfUpdateFlag : Bool
  offers : List Offer
  notices : List Notice

/-- A service request on its way, and the process that sent it. -/
structure ServiceCall where
  label : Label
  client : ℕ
  deriving DecidableEq, Repr

/-- What a run has done. -/
inductive Obs
  /-- An authentic REQUEST was processed. -/
  | request (name : Requester) (slot : UInt8) (fv : ℤ)
  /-- An authentic RUNNING was processed. -/
  | running (name : Requester) (slot : UInt8) (fv : ℤ)
  /-- `secoc_build` handed out a frame. -/
  | built (did : ℕ) (payload : Bytes) (fv : ℤ)
  /-- A verdict frame was handed to the socket. -/
  | verdict (name : Requester) (approved : Bool) (slot : UInt8) (fv : ℤ)
  /-- The timeout released a holder. -/
  | expired (ecu : Ecu)
  deriving DecidableEq, Repr

/-- Whether the process runs, has left its loop on an exception, or is
gone. -/
inductive Status
  | up
  | raised (why : Raised)
  | down
  deriving DecidableEq, Repr

/-- The process and everything it leaves a mark on. -/
structure World where
  mem : Memory
  disk : Disk
  status : Status
  client : ℕ
  calls : List ServiceCall
  bus : List (ℕ × Bytes)
  trace : List Obs

/-! ## Parameters and surroundings -/

inductive NoVerdict
  | approve
  | deny
  deriving DecidableEq, Repr

/-- `on_no_verdict`: anything but the two words is taken for `approve`. -/
def NoVerdict.ofParameter (s : String) : NoVerdict :=
  if s.toLower = "deny" then .deny else .approve

/-- The node's parameters, its key, and the package that computes MACs. -/
structure Config where
  aesCmac : Bytes → Bytes → Bytes
  key : Bytes
  timeoutSec : ℚ := 300
  requireApproval : Bool := true
  uiAliveMaxAge : ℚ := 10
  onNoVerdict : NoVerdict := .approve

/-- The places where a callback reads `time.time()`. -/
inductive Clock
  | uiAge
  | offerId
  | requestedAt
  | expiresAt
  | t0
  | deadline
  | active
  | noticeId
  | noticeAt
  deriving DecidableEq, Repr

/-- Where the process dies around an operation that does not fail, if it
does. -/
inductive Crash
  | none
  | before
  | after
  deriving DecidableEq, Repr

def Crash.answer : Crash → Answer
  | .none => .ok
  | .before => .killBefore
  | .after => .killAfter

theorem Crash.answer_ne_osError (c : Crash) : c.answer ≠ .osError := by
  cases c <;> simp [Crash.answer]

/-- What one callback, or one entry of a poll, meets outside the process. -/
structure Env where
  time : Clock → ℚ := fun _ => 0
  offersDir : Bool := true
  aliveMtime : Option ℚ := none
  writeOffer : Answer := .ok
  unlinkOffer : OfferId → Answer := fun _ => .ok
  unlinkVerdict : OfferId → Answer := fun _ => .ok
  verdictFile : Option Bytes := none
  noticesDir : Bool := true
  writeNotice : Answer := .ok
  unlinkNotice : Requester × ℤ → Answer := fun _ => .ok
  rx : Io := {}
  tx : Io := {}
  canSend : Answer := .ok
  mkdirFlag : Answer := .ok
  writeFlag : Answer := .ok
  unlinkFlag : Answer := .ok
  listOffers : Bool := true
  listNotices : Bool := true
  ready : Label → Bool := fun _ => true
  callAsync : Crash := .none

/-- A frame as `can_recv` takes it off the socket: the data field is always
eight bytes wide. -/
structure CanFrame where
  canId : ℕ
  dlc : ℕ
  data : Vector UInt8 8
  deriving DecidableEq, Repr

def CAN_SFF_MASK : ℕ := 0x7FF

/-- `can_recv`, of a frame that is there: the identifier masked to 11 bits
and the data cut to the length code. -/
def canRecv (f : CanFrame) : ℕ × ℕ × Bytes :=
  (f.canId &&& CAN_SFF_MASK, f.dlc, f.data.toList.take f.dlc)

/-! ## Recorded frames

Frames under the recorded MACs, and a configuration that accepts them. -/

def sampleConfig : Config := { aesCmac := sampleCmac, key := sampleKey }

/-- The cluster asks for slot 1, under its first freshness value. -/
def sampleRequest : CanFrame := ⟨0x300, 8, #v[0xA5, 1, 211, 232, 7, 138, 0, 1]⟩

/-- It asks again, for slot 2. -/
def sampleRerequest : CanFrame := ⟨0x300, 8, #v[0xA5, 2, 157, 143, 137, 15, 0, 2]⟩

/-- It reports that it runs. -/
def sampleRunning : CanFrame := ⟨0x300, 8, #v[0x5A, 1, 6, 206, 250, 241, 0, 1]⟩

/-- The head unit is up. -/
def sampleEnv : Env := { aliveMtime := some 0 }

/-- And its driver says yes. -/
def sampleApproval : Env :=
  { sampleEnv with verdictFile := some [97, 112, 112, 114, 111, 118, 101] }

/-- Or no. -/
def sampleDenial : Env := { sampleEnv with verdictFile := some [100, 101, 110, 121] }

end Coordinator

end VehicleStack
