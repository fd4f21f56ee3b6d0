import Mathlib.Data.List.GetD
import VehicleStack.Common.LittleEndian
import VehicleStack.Coordinator.Authentic
import VehicleStack.SecOC.Window

/-!
# The update coordinator — frames on the bus

`can_open`, `can_send` and `can_recv`: a frame as the sixteen bytes that go
through the socket, and the filter that the kernel puts in front of it. The
filter compares the eleven low bits of an identifier, which are those that
`can_recv` keeps, so what it stops `_handle_can` would drop. But a frame
that gets through also wakes the executor, and `_on_can_event` ends with a
look at the lock: `filter_spares_looks` says that these looks are all the
filter takes away, and when they would have done nothing. What a requester
builds with `secoc_build` and sends with `can_send` is the message that
`_handle_can` acts on (`heard_as_said`).
-/

namespace VehicleStack

namespace Coordinator

open Callback SecOC LittleEndian

/-! ## `struct.pack` and `struct.unpack`, `=IB3x8s` -/

/-- `CAN_FRAME_SIZE`. -/
def CAN_FRAME_SIZE : ℕ := 16

/-- `struct.pack(CAN_FRAME_FMT, can_id, dlc, data)` on the vehicle's computer,
which is little-endian. A number that does not fit raises. -/
def packFrame (canId dlc : ℕ) (data : Bytes) : Option Bytes :=
  if canId < 4294967296 ∧ dlc < 256 then
    some (toLE 4 canId ++ ([UInt8.ofNat dlc, 0, 0, 0] ++ (data ++ List.replicate 8 0).take 8))
  else none

/-- `struct.unpack(CAN_FRAME_FMT, raw)`, of bytes that are a frame. -/
def unpackFrame (raw : Bytes) : Option CanFrame :=
  if h : raw.length = CAN_FRAME_SIZE then
    some ⟨ofLE (raw.take 4), (raw.getD 4 0).toNat, ⟨(raw.drop 8).toArray, by
      rw [List.size_toArray, List.length_drop, h, CAN_FRAME_SIZE]⟩⟩
  else none

/-- What `can_send` writes to the socket: `bytes.ljust` first, then the
format's own field. -/
def canSend (canId : ℕ) (data : Bytes) : Option Bytes :=
  packFrame canId data.length (data ++ List.replicate (8 - data.length) 0)

/-- `can_recv`, of the bytes that the socket has. -/
def canRecvRaw (raw : Bytes) : Option (ℕ × ℕ × Bytes) := (unpackFrame raw).map canRecv

/-! ## The kernel's filter -/

/-- The identifiers given to `can_open`. -/
def OTA_IDS : List ℕ := [CAN_ID_OTA_REQ, CAN_ID_ECU_OTA_REQ]

/-- A frame matches when `received_id & can_mask` is `can_id & can_mask`. -/
def matchesFilter (canIds : List ℕ) (received : ℕ) : Bool :=
  canIds.any fun canId => received &&& CAN_SFF_MASK == canId &&& CAN_SFF_MASK

/-- What reaches the executor: a wake-up by the receive loop, with the frames
it finds queued, or another callback. -/
inductive BusEvent
  | woken (frames : List (CanFrame × Env)) (env : Env)
  | other (e : Event)

/-- A wake-up runs `_on_can_event`. -/
def busStep (cfg : Config) (w : World) : BusEvent → World
  | .woken frames env => if w.status = .up then w.exec (onCanEvent cfg frames env) else w
  | .other e => step cfg w e

/-- The frames that the kernel lets through to the coordinator. -/
def passing (frames : List (CanFrame × Env)) : List (CanFrame × Env) :=
  frames.filter fun p => matchesFilter OTA_IDS p.1.canId

/-- The same wake-up, with those only. -/
def BusEvent.filtered : BusEvent → BusEvent
  | .woken frames env => .woken (passing frames) env
  | .other e => .other e

/-- There would have been no wake-up behind the filter. -/
def BusEvent.idle : BusEvent → Bool
  | .woken frames _ => (passing frames).isEmpty
  | .other _ => false

/-- A run's events as they are behind the filter. -/
def behindFilter (es : List BusEvent) : List BusEvent :=
  (es.filter fun e => !e.idle).map BusEvent.filtered

/-- The state of the lock that the active set asks for. -/
def World.shouldLock (w : World) : Bool := !w.mem.activeEcus.isEmpty

/-- The service that would bring it about. -/
def World.wanted (w : World) : Label := if w.shouldLock then .lock else .unlock

/-- `_update_lock_state` has nothing to do: a call is under way, or the timer
is as the active set asks, and so is what is believed of the lock, unless
the service is not ready. -/
def LockSettled (w : World) (env : Env) : Prop :=
  w.mem.lockStatePending = true ∨ w.mem.timeoutTimer = w.shouldLock ∧
    (w.mem.isLocked = w.shouldLock ∨ env.ready w.wanted = false)

/-- A wake-up that the filter takes away finds nothing to do. -/
def SparesLook (w : World) : BusEvent → Prop
  | .woken frames env => (passing frames).isEmpty = true → w.status = .up → LockSettled w env
  | .other _ => True

instance {w : World} {env : Env} : Decidable (LockSettled w env) :=
  inferInstanceAs (Decidable (_ ∨ _ ∧ (_ ∨ _)))

instance {w : World} : ∀ {e : BusEvent}, Decidable (SparesLook w e)
  | .woken _ _ => inferInstanceAs (Decidable (_ → _ → _))
  | .other _ => isTrue trivial

/-- The two differ in the call for the lock and in the timeout timer at
most. -/
def OnlyTheLock (w w' : World) : Prop :=
  ∃ pend timer calls status, w' = { w with
    mem := { w.mem with lockStatePending := pend, timeoutTimer := timer }
    calls := calls, status := status }

variable {cfg : Config} {w : World} {env : Env} {data raw : Bytes} {canId dlc : ℕ}

/-- **The filter keeps what the table has an entry for.** -/
theorem matchesFilter_eq :
    matchesFilter OTA_IDS canId = (flows (canId &&& CAN_SFF_MASK)).isSome := by
  have hreq : CAN_ID_OTA_REQ &&& CAN_SFF_MASK = CAN_ID_OTA_REQ := by decide
  have hecu : CAN_ID_ECU_OTA_REQ &&& CAN_SFF_MASK = CAN_ID_ECU_OTA_REQ := by decide
  simp only [matchesFilter, OTA_IDS, List.any_cons, List.any_nil, Bool.or_false, hreq, hecu, flows]
  by_cases hcluster : canId &&& CAN_SFF_MASK = CAN_ID_OTA_REQ
  · simp [hcluster]
  · by_cases hesp : canId &&& CAN_SFF_MASK = CAN_ID_ECU_OTA_REQ
    · simp [hesp, CAN_ID_OTA_REQ, CAN_ID_ECU_OTA_REQ]
    · simp [hcluster, hesp]

/-- A frame without an entry is dropped on sight. -/
theorem handleCan_of_no_flow (h : flows canId = none) :
    handleCan cfg env canId dlc data w = .ok () w := by
  unfold handleCan
  rw [h]
  split <;> rfl

/-- So a wake-up does the same for the frames that pass. -/
theorem onCanEvent_passing {frames : List (CanFrame × Env)} :
    onCanEvent cfg (passing frames) env = onCanEvent cfg frames env := by
  have hdrop : ∀ p : CanFrame × Env, ¬ matchesFilter OTA_IDS p.1.canId = true →
      handleCan cfg p.2 (canRecv p.1).1 (canRecv p.1).2.1 (canRecv p.1).2.2 = pure () := by
    intro p hp
    rw [matchesFilter_eq, Bool.not_eq_true, Option.isSome_eq_false_iff, Option.isNone_iff_eq_none]
      at hp
    funext w
    exact handleCan_of_no_flow hp
  have hframes : (passing frames).forM (fun p => handleCan cfg p.2 (canRecv p.1).1
      (canRecv p.1).2.1 (canRecv p.1).2.2) = frames.forM fun p => handleCan cfg p.2
        (canRecv p.1).1 (canRecv p.1).2.1 (canRecv p.1).2.2 := by
    induction frames with
    | nil => rfl
    | cons p rest ih =>
      by_cases hp : matchesFilter OTA_IDS p.1.canId = true
      · have hkept : passing (p :: rest) = p :: passing rest := List.filter_cons_of_pos hp
        rw [hkept]
        exact congrArg _ (funext fun _ => ih)
      · have hstopped : passing (p :: rest) = passing rest := List.filter_cons_of_neg hp
        rw [hstopped, ih]
        show _ = (handleCan cfg p.2 (canRecv p.1).1 (canRecv p.1).2.1 (canRecv p.1).2.2 >>=
          fun _ => rest.forM _)
        rw [hdrop p hp, pure_bind]
  unfold onCanEvent
  rw [hframes]

theorem busStep_filtered {e : BusEvent} : busStep cfg w e.filtered = busStep cfg w e := by
  cases e with
  | woken frames env => rw [BusEvent.filtered, busStep, busStep, onCanEvent_passing]
  | other e => rfl

/-- **A wake-up without a frame that passes is a look at the lock.** -/
theorem busStep_idle {frames : List (CanFrame × Env)} (h : passing frames = []) :
    busStep cfg w (.woken frames env) = step cfg w (.drained env) := by
  rw [← busStep_filtered, BusEvent.filtered, h, busStep, step]
  by_cases hup : w.status = .up
  · rw [if_pos hup, if_pos ⟨hup, rfl⟩]
    rfl
  · rw [if_neg hup, if_neg fun hrun => hup hrun.1]

/-- The timer as the active set asks. -/
def World.timed (w : World) : World :=
  { w with mem := { w.mem with timeoutTimer := w.shouldLock } }

/-- What a look at the lock comes to. -/
theorem updateLockState_eq : updateLockState env w =
    if w.mem.lockStatePending = true then .ok () w
    else if w.mem.isLocked = w.shouldLock then .ok () w.timed
    else callService env w.wanted w.timed := by
  have hlook : updateLockState env w = (if w.mem.lockStatePending = true then pure ()
      else if w.shouldLock = true then
        (startTimeoutTimer >>= fun _ => if (w.shouldLock && !w.mem.isLocked) = true
          then callService env .lock else if (!w.shouldLock && w.mem.isLocked) = true
          then callService env .unlock else pure ())
      else (stopTimeoutTimer >>= fun _ => if (w.shouldLock && !w.mem.isLocked) = true
          then callService env .lock else if (!w.shouldLock && w.mem.isLocked) = true
          then callService env .unlock else pure ()) : Handler Unit) w := rfl
  rw [hlook]
  have htimed : w.timed = { w with mem := { w.mem with timeoutTimer := w.shouldLock } } := rfl
  cases hpend : w.mem.lockStatePending with
  | true => rfl
  | false =>
    rw [if_neg Bool.false_ne_true, if_neg Bool.false_ne_true]
    unfold World.wanted
    cases hshould : w.shouldLock <;> cases hlocked : w.mem.isLocked <;> rw [hshould] at htimed <;>
      rw [htimed] <;> rfl

/-- A service that is not ready is not called. -/
theorem callService_of_not_ready {label : Label} (h : env.ready label = false) :
    callService env label w = .ok () w := by
  rw [callService, h]
  rfl

/-- One that is ready is, and that is remembered. -/
theorem callService_pending {label : Label} (h : env.ready label = true) :
    (w.exec (callService env label)).mem.lockStatePending = true := by
  have hcall : wp (callService env label) (fun _ w' => w'.mem.lockStatePending = true)
      (fun _ w' => w'.mem.lockStatePending = true) w := by
    rw [callService, h]
    exact wp_perform (fun _ => rfl) (fun _ _ => rfl) fun _ => rfl
  exact exec_of_all hcall fun _ _ h => h

/-- **A look at the lock does nothing just where it is settled.** -/
theorem drained_eq_iff (hup : w.status = .up) :
    step cfg w (.drained env) = w ↔ LockSettled w env := by
  have hrun : step cfg w (.drained env) = w.exec (updateLockState env) := if_pos ⟨hup, rfl⟩
  have htimed : w.mem.timeoutTimer = w.shouldLock → w.timed = w := fun h => by
    rw [World.timed, ← h]
  rw [hrun, World.exec, updateLockState_eq]
  unfold LockSettled
  by_cases hpend : w.mem.lockStatePending = true
  · rw [if_pos hpend]
    exact iff_of_true rfl (Or.inl hpend)
  rw [if_neg hpend, or_iff_right hpend]
  by_cases hlocked : w.mem.isLocked = w.shouldLock
  · rw [if_pos hlocked]
    exact ⟨fun h => ⟨(congrArg (fun w' : World => w'.mem.timeoutTimer) h).symm, Or.inl hlocked⟩,
      fun h => htimed h.1⟩
  rw [if_neg hlocked, or_iff_right hlocked]
  cases hready : env.ready w.wanted with
  | false =>
    rw [callService_of_not_ready hready]
    exact ⟨fun h => ⟨(congrArg (fun w' : World => w'.mem.timeoutTimer) h).symm, rfl⟩,
      fun h => htimed h.1⟩
  | true =>
    -- a call is made, and the world shows it
    refine iff_of_false (fun h => hpend ?_) fun h => absurd h.2 (by simp)
    have hcalled : (w.timed.exec (callService env w.wanted)).mem.lockStatePending = true :=
      callService_pending hready
    exact (congrArg (fun w' : World => w'.mem.lockStatePending) h).symm.trans hcalled

theorem onlyTheLock_drained : OnlyTheLock w (step cfg w (.drained env)) :=
  step_of_wp ⟨w.mem.lockStatePending, w.mem.timeoutTimer, w.calls, w.status, rfl⟩ fun _ _ =>
    wp_updateLockState (fun pend timer calls => ⟨pend, timer, calls, w.status, rfl⟩)
      fun pend timer calls => ⟨pend, timer, calls, _, rfl⟩

/-- **What the filter takes away.** The frames it stops could stay out of
every wake-up, from any state and over any run. Leaving the wake-ups out
that have no other frame comes to the same too, where none of them finds the
lock unsettled. And such a wake-up changes no more than the call for the
lock and the timeout timer, and nothing just where the lock is settled. -/
theorem filter_spares_looks (cfg : Config) (w : World) (es : List BusEvent) :
    Run.run (busStep cfg) w (es.map BusEvent.filtered) = Run.run (busStep cfg) w es ∧
    (Run.Along (busStep cfg) SparesLook w es →
      Run.run (busStep cfg) w (behindFilter es) = Run.run (busStep cfg) w es) ∧
    ∀ frames env, passing frames = [] → OnlyTheLock w (busStep cfg w (.woken frames env)) ∧
      (busStep cfg w (.woken frames env) = w ↔ (w.status = .up → LockSettled w env)) := by
  have hstill : ∀ w : World, ¬ w.status = .up → ∀ frames env,
      busStep cfg w (.woken frames env) = w := fun w hdown _ _ => if_neg hdown
  refine ⟨Run.run_map fun _ _ => busStep_filtered, fun h => ?_, fun frames env hnone => ⟨?_, ?_⟩⟩
  · rw [behindFilter, Run.run_map fun _ _ => busStep_filtered]
    refine Run.run_filter (Run.along_of_inv (I := fun _ => True) (fun _ _ _ _ => trivial) ?_
      trivial h)
    intro w e _ hspares hidle
    cases e with
    | woken frames env =>
      have hnone : passing frames = [] := by simpa [BusEvent.idle] using hidle
      by_cases hup : w.status = .up
      · rw [busStep_idle hnone]
        exact (drained_eq_iff hup).2 (hspares (List.isEmpty_iff.2 hnone) hup)
      · exact hstill w hup frames env
    | other e => cases hidle
  · rw [busStep_idle hnone]
    exact onlyTheLock_drained
  · by_cases hup : w.status = .up
    · rw [busStep_idle hnone, drained_eq_iff hup]
      exact ⟨fun h _ => h, fun h => h hup⟩
    · exact iff_of_true (hstill w hup frames env) fun h => absurd h hup

/-- A frame that is none of the coordinator's. -/
def foreignFrame : CanFrame := ⟨0x110, 8, .replicate 8 0⟩

/-- It comes alone, then beside the cluster's REQUEST, which is approved at
once, and then while the vehicle is being locked. -/
def busyBus : List BusEvent :=
  [.woken [(foreignFrame, {})] {}, .woken [(foreignFrame, {}), (sampleRequest, {})] {},
    .woken [(foreignFrame, {})] {}, .other (.serviceDone .lock (some true)),
    .woken [(foreignFrame, {})] {}]

theorem filter_spares_looks_busy :
    Run.run (busStep sampleConfig) (World.launch .fresh {}) (behindFilter busyBus) =
      Run.run (busStep sampleConfig) (World.launch .fresh {}) busyBus :=
  (filter_spares_looks sampleConfig (World.launch .fresh {}) busyBus).2.1 (by decide +kernel)

/-- **A look that is missed.** The vehicle has not been locked, because the
service was not ready when the cluster's REQUEST was approved; on the whole
bus the next foreign frame has it locked. -/
example : ¬ LockSettled (Run.run (busStep sampleConfig) (World.launch .fresh {})
    [.woken [(sampleRequest, { ready := fun _ => false })] { ready := fun _ => false }]) {} := by
  decide +kernel

/-! ## What is sent is what is received -/

theorem padded (hlen : data.length ≤ 8) :
    (data ++ List.replicate (8 - data.length) 0 ++ List.replicate 8 0).take 8 =
      data ++ List.replicate (8 - data.length) 0 := by
  rw [List.take_append_of_le_length (by rw [List.length_append, List.length_replicate]; omega)]
  exact List.take_of_length_le (by rw [List.length_append, List.length_replicate]; omega)

/-- **What `can_send` writes, `can_recv` reads**: the identifier as far as the
mask goes, and the data. -/
theorem canRecv_canSend (hid : canId < 4294967296) (hlen : data.length ≤ 8) :
    ∃ raw f, canSend canId data = some raw ∧ unpackFrame raw = some f ∧ f.canId = canId ∧
      canRecv f = (canId &&& CAN_SFF_MASK, data.length, data) := by
  set padding : Bytes := List.replicate (8 - data.length) 0 with hpadding
  have hfull : (data ++ padding).length = 8 := by
    rw [List.length_append, hpadding, List.length_replicate]
    omega
  have hhead : (toLE 4 canId).length = 4 := length_toLE
  set raw := toLE 4 canId ++ ([UInt8.ofNat data.length, 0, 0, 0] ++ (data ++ padding)) with hraw
  have hsize : raw.length = CAN_FRAME_SIZE := by
    rw [hraw, List.length_append, List.length_append, hfull, hhead]
    rfl
  have hid' : ofLE (raw.take 4) = canId := by
    rw [hraw, List.take_append_of_le_length hhead.ge, List.take_of_length_le hhead.le,
      ofLE_toLE_of_lt hid]
  have hdlc : (raw.getD 4 0).toNat = data.length := by
    rw [hraw, List.getD_append_right _ _ _ _ hhead.le, hhead]
    show (UInt8.ofNat data.length).toNat = data.length
    rw [UInt8.toNat_ofNat']
    omega
  have hdata : raw.drop 8 = data ++ padding := by
    rw [hraw, List.drop_append, hhead, List.drop_of_length_le (by rw [hhead]; omega)]
    rfl
  refine ⟨raw, _, ?_, dif_pos hsize, hid', ?_⟩
  · rw [canSend, packFrame, if_pos ⟨hid, by omega⟩, padded hlen]
  · simp only [canRecv, hid', hdlc, hdata]
    rw [Vector.toList_mk, List.take_left]

/-- The identifier a requester's messages come under. -/
def Requester.reqCanId : Requester → ℕ
  | .cluster => CAN_ID_OTA_REQ
  | .esp32 => CAN_ID_ECU_OTA_REQ

theorem flows_reqCanId (name : Requester) : flows name.reqCanId = some name.flow := by
  cases name <;> rfl

theorem reqCanId_masked (name : Requester) :
    name.reqCanId < 4294967296 ∧ name.reqCanId &&& CAN_SFF_MASK = name.reqCanId := by
  cases name <;> decide

theorem announced_magic (name : Requester) (what : What) :
    announced name.flow what.magic = some (name.flow.did what, what) := by
  cases what <;> rfl

/-- An acceptable frame of a requester is acted on, once its floor is
stored. -/
theorem handleCan_of_accepts {m : Message} (hstore : env.rx.store = .ok)
    (hlen : SECOC_FRAME_LEN ≤ data.length) (htake : data.take 2 = [m.what.magic, m.slot])
    (hacc : accepts cfg.aesCmac cfg.key (w.disk.store.load env.rx .rx m.did) m.did data =
      some m.fv) :
    handleCan cfg env m.name.reqCanId data.length data w =
      process cfg env m.name.flow m.slot m.fv m.what (w.accept m) := by
  obtain ⟨rest, rfl⟩ : ∃ rest, data = m.what.magic :: rest := by
    obtain _ | ⟨magic, rest⟩ := data
    · cases htake
    · rw [List.take_succ_cons] at htake
      exact ⟨rest, by rw [(List.cons.inj htake).1]⟩
  have hverify : secocVerify cfg.aesCmac cfg.key env.rx m.did (m.what.magic :: rest) w.disk.store =
      .ok (.ok ([m.what.magic, m.slot], m.fv)) (w.disk.store.put .rx m.did m.fv) := by
    rw [secocVerify_of_some hacc, store_then_pure, htake]
    exact ⟨hstore, rfl, rfl⟩
  unfold handleCan
  rw [if_neg (not_lt.2 hlen), flows_reqCanId]
  simp only [announced_magic]
  refine bind_of_ok (a := Except.ok ([m.what.magic, m.slot], m.fv)) (t := w.accept m) ?_
  show zoom _ _ (secocVerify _ _ _ m.did _) w = _
  rw [zoom, hverify]
  rfl

/-- What `secoc_build` hands out is the frame of a value of 32 bits. -/
theorem frame_of_built {io : Io} {did : ℕ} {payload frame : Bytes} {fv : ℤ} {s s' : FvStore}
    (h : secocBuild cfg.aesCmac cfg.key io did payload s = .ok (frame, fv) s') :
    frame = frameOf cfg.aesCmac cfg.key did payload fv ∧ InRange fv := by
  have hwp : wp (secocBuild cfg.aesCmac cfg.key io did payload)
      (fun r _ => r.1 = frameOf cfg.aesCmac cfg.key did payload r.2 ∧ InRange r.2)
      (fun _ _ => True) s :=
    wp_secocBuild (fun hrange _ => ⟨rfl, hrange⟩) (fun _ _ => trivial) fun _ _ => trivial
  rw [wp, h] at hwp
  exact hwp

/-- **What a requester says is what the coordinator acts on.** Built by
`secoc_build` and sent by `can_send`, a message within the window above a
floor that is not negative passes the filter, and `_handle_can` processes its
kind, slot and freshness value for its sender, with the floor moved up to
it. -/
theorem heard_as_said (cfg : Config) (hblock : BlockSized cfg.aesCmac cfg.key) (w : World)
    (env : Env) (hstore : env.rx.store = .ok) (m : Message) (io : Io) (s s' : FvStore)
    (frame : Bytes)
    (hbuilt : secocBuild cfg.aesCmac cfg.key io m.did [m.what.magic, m.slot] s =
      .ok (frame, m.fv) s')
    (h0 : 0 ≤ w.disk.store.load env.rx .rx m.did)
    (hwin : InWindow (w.disk.store.load env.rx .rx m.did) m.fv) :
    ∃ raw f, canSend m.name.reqCanId frame = some raw ∧ unpackFrame raw = some f ∧
      matchesFilter OTA_IDS f.canId = true ∧
      callback cfg (.frame f env) w =
        process cfg env m.name.flow m.slot m.fv m.what (w.accept m) := by
  obtain ⟨hid, hmask⟩ := reqCanId_masked m.name
  have hpay : [m.what.magic, m.slot].length = 2 := rfl
  obtain ⟨hframe, hrange⟩ := frame_of_built hbuilt
  obtain ⟨hlen, htake, -, -⟩ := frameOf_parts hblock hpay m.did m.fv
  rw [← hframe] at hlen htake
  have hacc : accepts cfg.aesCmac cfg.key (w.disk.store.load env.rx .rx m.did) m.did frame =
      some m.fv := by
    rw [hframe]
    exact accepts_of_inWindow hblock hpay h0 hrange hwin
  obtain ⟨raw, f, hsent, hread, hsame, hheard⟩ := canRecv_canSend hid hlen.le
  refine ⟨raw, f, hsent, hread, ?_, ?_⟩
  · rw [matchesFilter_eq, hsame, hmask, flows_reqCanId]
    rfl
  · rw [callback, hheard, hmask]
    exact handleCan_of_accepts hstore hlen.ge htake hacc

/-- The cluster's first request, on a bus and with counters nobody has used. -/
theorem heard_as_said_first :
    ∃ raw f, canSend CAN_ID_OTA_REQ (frameOf spreadCmac sampleKey DID_CLUSTER_REQUEST
        [OTA_REQ_MAGIC, 1] 1) = some raw ∧ unpackFrame raw = some f ∧
      matchesFilter OTA_IDS f.canId = true ∧
      callback { aesCmac := spreadCmac, key := sampleKey } (.frame f {}) World.start =
        process { aesCmac := spreadCmac, key := sampleKey } {} Requester.cluster.flow 1 1 .request
          (World.start.accept ⟨.cluster, .request, 1, 1⟩) :=
  heard_as_said { aesCmac := spreadCmac, key := sampleKey } (spreadCmac_block _) World.start {} rfl
    ⟨.cluster, .request, 1, 1⟩ {} FvStore.fresh _ _ rfl (by decide)
    ⟨by decide, by decide⟩

end Coordinator

end VehicleStack
