import VehicleStack.Coordinator.Model

/-!
# The update coordinator — its callbacks

Each method of `UpdateCoordinator`, in the order of the source. Logging is
left out, and with it the texts and the elapsed time that only a log line
reads. A callback runs to its end before the next one starts: the node is
spun by a single-threaded executor.
-/

namespace VehicleStack

namespace Coordinator

open Callback SecOC

/-- A program over the world that may raise. -/
abbrev Handler := EStateM Raised World

/-- Changes the memory. -/
def setMem (f : Memory → Memory) : Handler Unit := modify fun w => { w with mem := f w.mem }

/-- Enters an observation in the trace. -/
def observe (o : Obs) : Handler Unit := modify fun w => { w with trace := w.trace ++ [o] }

/-- Runs a SecOC helper on the counter files. -/
def onStore {α : Type} (m : EStateM Raised FvStore α) : Handler α :=
  zoom (fun w => w.disk.store) (fun w s => { w with disk := { w.disk with store := s } }) m

/-! ## The lock -/

/-- `_start_timeout_timer`. -/
def startTimeoutTimer : Handler Unit := setMem fun m => { m with timeoutTimer := true }

/-- `_stop_timeout_timer`. -/
def stopTimeoutTimer : Handler Unit := setMem fun m => { m with timeoutTimer := false }

/-- `_call_service`. -/
def callService (env : Env) (label : Label) : Handler Unit := do
  if env.ready label then
    setMem fun m => { m with lockStatePending := true }
    perform env.callAsync.answer fun w => { w with calls := w.calls ++ [⟨label, w.client⟩] }
  else pure ()

/-- `_update_lock_state`. -/
def updateLockState (env : Env) : Handler Unit := do
  let w ← get
  -- while a call is under way nothing is looked at, and the response does not look either
  if w.mem.lockStatePending then pure ()
  else
    let shouldLock := !w.mem.activeEcus.isEmpty
    if shouldLock then startTimeoutTimer else stopTimeoutTimer
    if shouldLock && !w.mem.isLocked then callService env .lock
    else if !shouldLock && w.mem.isLocked then callService env .unlock
    else pure ()

/-- `_on_service_done`; `none` is a call that failed. -/
def onServiceDone (label : Label) (success : Option Bool) : Handler Unit := do
  setMem fun m => { m with lockStatePending := false }
  match success with
  | some true => setMem fun m => { m with isLocked := decide (label = .lock) }
  | _ => pure ()

/-! ## The spool -/

/-- `_ui_available`. -/
def uiAvailable (cfg : Config) (env : Env) : Bool :=
  env.offersDir &&
    match env.aliveMtime with
    | none => false
    | some mtime => decide (env.time .uiAge - mtime ≤ cfg.uiAliveMaxAge)

/-- `int(t)`: the fraction is dropped. -/
def intTime (t : ℚ) : ℤ := t.num.tdiv t.den

/-- The `slot` field of an offer. -/
def slotText (slot : UInt8) : String :=
  if 32 ≤ slot && slot < 127 then String.singleton (Char.ofNat slot.toNat)
  else toString slot.toNat

def Requester.text : Requester → String
  | .cluster => "cluster"
  | .esp32 => "esp32"

/-- `_write_offer`: a failed write is reported, not raised. -/
def writeOffer (env : Env) (oid : OfferId) (target : Requester) (slot : UInt8)
    (budget : Budget) : Handler Bool :=
  let offer : Offer :=
    { id := oid, target := target.text, version := "", slot := slotText slot
      requestedAt := intTime (env.time .requestedAt)
      expiresAt := intTime (env.time .expiresAt + budget.deadlineMs / 1000)
      autoAcceptMs := budget.uiMs, stopsVehicle := true }
  attempt env.writeOffer fun w =>
    { w with disk := { w.disk with offers := w.disk.offers.filter (·.id ≠ oid) ++ [offer] } }

/-- `_write_notice`, and the timer that takes the notice down again. -/
def writeNotice (env : Env) (target : Requester) : Handler Unit := do
  if env.noticesDir then
    let nid := (target, intTime (env.time .noticeId))
    let notice : Notice := ⟨target, nid.2, intTime (env.time .noticeAt)⟩
    let written ← attempt env.writeNotice fun w =>
      { w with disk := { w.disk with
        notices := w.disk.notices.filter (fun n => (n.target, n.second) ≠ nid) ++ [notice] } }
    if written then setMem fun m => { m with noticeTimers := m.noticeTimers ++ [nid] }
    else pure ()
  else pure ()

/-- `_expire`, of one notice. -/
def expireNotice (env : Env) (nid : Requester × ℤ) : Handler Unit := do
  setMem fun m => { m with noticeTimers := m.noticeTimers.erase nid }
  let _ ← attempt (env.unlinkNotice nid) fun w =>
    { w with disk := { w.disk with
      notices := w.disk.notices.filter fun n => (n.target, n.second) ≠ nid } }

/-- `_sweep_notices`. -/
def sweepNotices (env : Env) : Handler Unit := do
  if env.listNotices then
    let w ← get
    w.disk.notices.forM fun n => do
      let _ ← attempt (env.unlinkNotice (n.target, n.second)) fun w =>
        { w with disk := { w.disk with
          notices := w.disk.notices.filter
            fun n' => (n'.target, n'.second) ≠ (n.target, n.second) } }
  else pure ()

/-- `_withdraw_offer`. The verdict file is the head unit's; nothing here
reads it again. -/
def withdrawOffer (env : Env) (oid : OfferId) : Handler Unit := do
  let _ ← attempt (env.unlinkOffer oid) fun w =>
    { w with disk := { w.disk with offers := w.disk.offers.filter (·.id ≠ oid) } }
  let _ ← attempt (env.unlinkVerdict oid) id

/-- The answer a verdict file's text gives: one word says yes, everything
else says no. -/
def verdictOfWord (word : List Char) : Bool :=
  if word = "approve".toList then true
  else if word = "deny".toList then false
  else false

/-- `_read_verdict`. An unreadable file is no answer; one that is not text
raises. -/
def readVerdict (env : Env) : Handler (Option Bool) :=
  match env.verdictFile with
  | none => pure none
  | some content =>
    match Text.readText 32 content with
    | none => throw .unicodeDecodeError
    | some text => pure (some (verdictOfWord (Text.lower (Text.strip text))))

/-- `_sweep_stale_offers`. -/
def sweepStaleOffers (env : Env) : Handler Unit := do
  if env.listOffers then
    let w ← get
    w.disk.offers.forM fun offer =>
      match offer.id.producer with
      | .ours _ => withdrawOffer env offer.id
      | .other _ => pure ()
  else pure ()

/-! ## Approval -/

/-- `_send_verdict`. -/
def sendVerdict (cfg : Config) (env : Env) (name : Requester) (didAppr apprCanId : ℕ)
    (slot : UInt8) (approved : Bool) : Handler Unit := do
  let payload := [if approved then VERDICT_APPROVE else VERDICT_DENY, slot]
  let r ← onStore (secocBuild cfg.aesCmac cfg.key env.tx didAppr payload)
  observe (.built didAppr payload r.2)
  perform env.canSend fun w =>
    { w with bus := w.bus ++ [(apprCanId, r.1)]
             trace := w.trace ++ [.verdict name approved slot r.2] }

/-- `self.active_ecus[name] = time.time()`. -/
def activate (env : Env) (ecu : Ecu) : Handler Unit :=
  setMem fun m => { m with activeEcus := m.activeEcus.set ecu (env.time .active) }

/-- `_start_poll_timer`. -/
def startPollTimer : Handler Unit := setMem fun m => { m with pollTimer := true }

/-- `_stop_poll_timer`. -/
def stopPollTimer : Handler Unit := setMem fun m => { m with pollTimer := false }

/-- `self._pending.pop(name)`. -/
def popPending (name : Requester) : Handler Unit :=
  setMem fun m => { m with pending := m.pending.erase name }

/-- Answering at once, without the driver. -/
def failOpen (cfg : Config) (env : Env) (name : Requester) (slot : UInt8)
    (didAppr apprCanId : ℕ) : Handler Unit := do
  sendVerdict cfg env name didAppr apprCanId slot true
  activate env name.ecu

/-- The old prompt of a requester that asks again is taken down. -/
def dropPending (env : Env) (name : Requester) : Handler Unit := do
  let w ← get
  match w.mem.pending.get? name with
  | some old => do
    popPending name
    withdrawOffer env old.id
  | none => pure ()

/-- `_begin_approval`. -/
def beginApproval (cfg : Config) (env : Env) (name : Requester) (slot : UInt8)
    (didAppr apprCanId : ℕ) : Handler Unit := do
  if !cfg.requireApproval || !uiAvailable cfg env then
    -- an older entry of the requester is left where it is
    failOpen cfg env name slot didAppr apprCanId
  else
    dropPending env name
    setMem fun m => { m with offerSeq := m.offerSeq + 1 }
    let w ← get
    let oid : OfferId := ⟨.ours name, .stamped (intTime (env.time .offerId)) w.mem.offerSeq⟩
    let written ← writeOffer env oid name slot name.budget
    if written then
      let entry : Pending :=
        { id := oid, slot := slot, didAppr := didAppr, apprCanId := apprCanId, t0 := env.time .t0
          deadline := env.time .deadline + name.budget.deadlineMs / 1000 }
      setMem fun m => { m with pending := m.pending.set name entry }
      startPollTimer
    else
      failOpen cfg env name slot didAppr apprCanId

/-- `_resolve`. -/
def resolve (cfg : Config) (env : Env) (name : Requester) (approved : Bool) : Handler Unit := do
  let w ← get
  match w.mem.pending.get? name with
  | none => pure ()
  | some p => do
    -- the entry is gone before the frame is on its way
    popPending name
    withdrawOffer env p.id
    sendVerdict cfg env name p.didAppr p.apprCanId p.slot approved
    if approved then activate env name.ecu else pure ()
    updateLockState env

/-- One pass of the loop in `_poll_approvals`. -/
def pollEntry (cfg : Config) (now : ℚ) (env : Env) (name : Requester) : Handler Unit := do
  let w ← get
  match w.mem.pending.get? name with
  | none => throw .keyError
  | some p => do
    let answer ← readVerdict env
    match answer with
    | some approved => resolve cfg env name approved
    | none =>
      if p.deadline ≤ now then resolve cfg env name (decide (cfg.onNoVerdict = .approve))
      else pure ()

/-- `_poll_approvals`. -/
def pollApprovals (cfg : Config) (now : ℚ) (env : Requester → Env) : Handler Unit := do
  let w ← get
  w.mem.pending.keys.forM fun name => pollEntry cfg now (env name) name
  let w ← get
  if w.mem.pending.isEmpty then stopPollTimer else pure ()

/-! ## Frames -/

/-- What `_handle_can` does with an authentic RUNNING. -/
def completeUpdate (env : Env) (name : Requester) : Handler Unit := do
  -- the pending table is not looked at
  setMem fun m => { m with activeEcus := m.activeEcus.erase name.ecu }
  writeNotice env name

/-- The identifier and the kind of message that a frame's first byte
announces. -/
def announced (flow : Flow) (magic : UInt8) : Option (ℕ × What) :=
  if magic = OTA_REQ_MAGIC then some (flow.didReq, .request)
  else if magic = OTA_RUN_MAGIC then some (flow.didRun, .running)
  else none

/-- The rest of `_handle_can`, once a frame has been accepted. -/
def process (cfg : Config) (env : Env) (flow : Flow) (slot : UInt8) (fv : ℤ) :
    What → Handler Unit
  | .request => do
    observe (.request flow.name slot fv)
    beginApproval cfg env flow.name slot flow.didAppr flow.apprCanId
    updateLockState env
  | .running => do
    observe (.running flow.name slot fv)
    completeUpdate env flow.name
    updateLockState env

/-- `_handle_can`. -/
def handleCan (cfg : Config) (env : Env) (canId dlc : ℕ) (data : Bytes) : Handler Unit := do
  if dlc < SECOC_FRAME_LEN then pure ()
  else
    match flows canId with
    | none => pure ()
    | some flow =>
      match data with
      | [] => throw .indexError
      | magic :: _ =>
        match announced flow magic with
        | none => pure ()
        | some (did, what) => do
          let r ← onStore (secocVerify cfg.aesCmac cfg.key env.rx did data)
          match r with
          | .error _ => pure ()
          | .ok (payload, fv) => process cfg env flow (payload.getD 1 0) fv what

/-- `_on_can_event`: the frames it finds queued, then the lock. -/
def onCanEvent (cfg : Config) (frames : List (CanFrame × Env)) (env : Env) : Handler Unit := do
  frames.forM fun p => handleCan cfg p.2 (canRecv p.1).1 (canRecv p.1).2.1 (canRecv p.1).2.2
  updateLockState env

/-! ## Timeout, self-update, life cycle -/

/-- `_timeout_check`. -/
def timeoutCheck (cfg : Config) (now : ℚ) (env : Env) : Handler Unit := do
  let w ← get
  let expired := (w.mem.activeEcus.entries.filter fun p => cfg.timeoutSec < now - p.2).map Prod.fst
  expired.forM fun ecu => do
    setMem fun m => { m with activeEcus := m.activeEcus.erase ecu }
    observe (.expired ecu)
  if expired.isEmpty then pure () else updateLockState env

/-- `_on_self_start`. -/
def onSelfStart (env : Env) : Handler Unit := do
  activate env .jetson
  updateLockState env
  -- the flag comes last: a refusal leaves the holder without it
  perform env.mkdirFlag id
  perform env.writeFlag fun w => { w with disk := { w.disk with selfUpdateFlag := true } }

/-- `_on_self_done`. -/
def onSelfDone (env : Env) : Handler Unit := do
  setMem fun m => { m with activeEcus := m.activeEcus.erase .jetson }
  perform env.unlinkFlag fun w => { w with disk := { w.disk with selfUpdateFlag := false } }
  updateLockState env

/-- `_recover_self_update`. -/
def recoverSelfUpdate (env : Env) : Handler Unit := do
  let w ← get
  -- `__init__` has just emptied `active_ecus` and set `is_locked` to false
  if w.disk.selfUpdateFlag then
    perform env.unlinkFlag fun w => { w with disk := { w.disk with selfUpdateFlag := false } }
    setMem fun m => { m with activeEcus := m.activeEcus.erase .jetson }
    updateLockState env
  else pure ()

/-- The end of `__init__`, after the fields have been set. -/
def init (env : Env) : Handler Unit := do
  recoverSelfUpdate env
  sweepStaleOffers env
  sweepNotices env

/-- `destroy_node`. -/
def destroyNode (env : Env) : Handler Unit := do
  let w ← get
  w.mem.pending.entries.forM fun p => withdrawOffer env p.2.id
  setMem fun m => { m with pending := .empty }

/-! ## Runs -/

/-- An exception ends the loop; a kill ends the process. -/
def statusAfter : Raised → Status
  | .killed => .down
  | e => .raised e

/-- Runs a callback. -/
def World.exec (w : World) (m : Handler Unit) : World :=
  match m w with
  | .ok _ w' => w'
  | .error e w' => { w' with status := statusAfter e }

/-- What the executor can run. `_on_can_event` is taken apart into its
frames and its end (`onCanEvent_eq_run`). -/
inductive Event
  | frame (f : CanFrame) (env : Env)
  | drained (env : Env)
  | poll (now : ℚ) (env : Requester → Env)
  | timeout (now : ℚ) (env : Env)
  | selfStart (env : Env)
  | selfDone (env : Env)
  | expireNotice (nid : Requester × ℤ) (env : Env)
  | serviceDone (label : Label) (success : Option Bool)

/-- The callback of an event. -/
def callback (cfg : Config) : Event → Handler Unit
  | .frame f env => handleCan cfg env (canRecv f).1 (canRecv f).2.1 (canRecv f).2.2
  | .drained env => updateLockState env
  | .poll now env => pollApprovals cfg now env
  | .timeout now env => timeoutCheck cfg now env
  | .selfStart env => onSelfStart env
  | .selfDone env => onSelfDone env
  | .expireNotice nid env => expireNotice env nid
  | .serviceDone label success => onServiceDone label success

/-- A timer callback needs its timer. -/
def enabled (w : World) : Event → Bool
  | .poll _ _ => w.mem.pollTimer
  | .timeout _ _ => w.mem.timeoutTimer
  | .expireNotice nid _ => w.mem.noticeTimers.contains nid
  | _ => true

/-- One event. A process that is not running runs nothing. -/
def step (cfg : Config) (w : World) (e : Event) : World :=
  if w.status = .up ∧ enabled w e = true then w.exec (callback cfg e) else w

/-- A new process over what an old one left behind. -/
def World.boot (w : World) (env : Env) : World :=
  { w with mem := .init, status := .up, client := w.client + 1 }.exec (init env)

/-- A state directory and a spool nobody has written to. -/
def Disk.fresh : Disk := ⟨.fresh, false, [], []⟩

/-- Before the first start. -/
def World.start : World := ⟨.init, .fresh, .up, 0, [], [], []⟩

end Coordinator

end VehicleStack
