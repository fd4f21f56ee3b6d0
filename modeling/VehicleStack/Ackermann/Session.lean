import VehicleStack.Ackermann.Sources
import VehicleStack.Ackermann.Writes

/-!
# The drive — what a session inherits

`on_activate` sets the wheels and the encoder's age back, and leaves the
commands and the two counters of failed writes as the session before has
left them. What one session can see of another is exactly that: two
histories cannot be told apart after an activation if and only if they
leave the same residue (`fresh_session_iff`).
-/

namespace VehicleStack

namespace Ackermann

section Residue

variable {K : Type} [Field K] [LinearOrder K] (num : Numerics K)

/-- The two setpoints of a steering wheel pack the same. -/
def SamePacked (w w' : SteeringWheel K) : Prop :=
  num.packFloat (steerSetpoint w) = num.packFloat (steerSetpoint w')

/-- The counters are equally far from their limits, and the commands pack
the same, those of the steering also where one of the two is replaced. -/
structure SameResidue (s s' : System K) : Prop where
  failures : min s.canWriteFailures (CAN_WRITE_FAILURE_LIMIT - 1) =
    min s'.canWriteFailures (CAN_WRITE_FAILURE_LIMIT - 1)
  congestion : min s.canWriteCongestion (CAN_WRITE_CONGESTION_LIMIT - 1) =
    min s'.canWriteCongestion (CAN_WRITE_CONGESTION_LIMIT - 1)
  wheelL : num.packFloat (velSetpoint s.wheelL) = num.packFloat (velSetpoint s'.wheelL)
  wheelR : num.packFloat (velSetpoint s.wheelR) = num.packFloat (velSetpoint s'.wheelR)
  steering : SamePacked num s.steering s'.steering
  steeringLeft : ∀ x, SamePacked num { s.steering with leftCmd := x }
    { s'.steering with leftCmd := x }
  steeringRight : ∀ x, SamePacked num { s.steering with rightCmd := x }
    { s'.steering with rightCmd := x }

/-- The code of a `read` or `write`. -/
def Reply.code : Reply → Option ReturnType
  | .read code => some code
  | .write ret => some ret.code
  | _ => Option.none

/-- What an event shows: the code of a `read` or `write`, the frames put on
the bus, and the wheels. -/
def sessionView (s : System K) (e : Event K) :
    Option ReturnType × List CanFrame × (K × K) × (K × K) :=
  let r := respond num s e
  (r.1.1.code, r.1.2, r.2.wheelL.exported, r.2.wheelR.exported)

end Residue

section Simulation

variable {K : Type} [Field K] [LinearOrder K] {num : Numerics K} {s s' : System K} {e : Event K}

/-! ## What keeps the residue -/

/-- The counters and the commands are as before. -/
structure SameOrders (t s : System K) : Prop where
  failures : t.canWriteFailures = s.canWriteFailures
  congestion : t.canWriteCongestion = s.canWriteCongestion
  wheelL : t.wheelL.cmd = s.wheelL.cmd
  wheelR : t.wheelR.cmd = s.wheelR.cmd
  left : t.steering.leftCmd = s.steering.leftCmd
  right : t.steering.rightCmd = s.steering.rightCmd

theorem steerSetpoint_congr {w w' : SteeringWheel K} (hl : w.leftCmd = w'.leftCmd)
    (hr : w.rightCmd = w'.rightCmd) : steerSetpoint w = steerSetpoint w' := by
  rw [steerSetpoint, steerSetpoint, SteeringWheel.getAverageSteeringCmd,
    SteeringWheel.getAverageSteeringCmd, hl, hr]

theorem SamePacked.congr {v v' w w' : SteeringWheel K} (h : SamePacked num w w')
    (hl : v.leftCmd = w.leftCmd) (hr : v.rightCmd = w.rightCmd) (hl' : v'.leftCmd = w'.leftCmd)
    (hr' : v'.rightCmd = w'.rightCmd) : SamePacked num v v' := by
  rw [SamePacked, steerSetpoint_congr hl hr, steerSetpoint_congr hl' hr']
  exact h

theorem velSetpoint_congr {wheel wheel' : DriveWheel K} (h : wheel.cmd = wheel'.cmd) :
    velSetpoint wheel = velSetpoint wheel' := by
  rw [velSetpoint, velSetpoint, h]

/-- What leaves counters and commands alone in each run keeps the residue. -/
theorem SameResidue.congr {t t' : System K} (h : SameResidue num s s') (hs : SameOrders t s)
    (hs' : SameOrders t' s') : SameResidue num t t' where
  failures := by rw [hs.failures, hs'.failures, h.failures]
  congestion := by rw [hs.congestion, hs'.congestion, h.congestion]
  wheelL := by rw [velSetpoint_congr hs.wheelL, velSetpoint_congr hs'.wheelL, h.wheelL]
  wheelR := by rw [velSetpoint_congr hs.wheelR, velSetpoint_congr hs'.wheelR, h.wheelR]
  steering := h.steering.congr hs.left hs.right hs'.left hs'.right
  steeringLeft x := (h.steeringLeft x).congr rfl hs.right rfl hs'.right
  steeringRight x := (h.steeringRight x).congr hs.left rfl hs'.left rfl

/-- Reading leaves the counters and commands alone. -/
theorem sameOrders_read (frames : List Received) (period : K) :
    SameOrders (read num s frames period).2 s := by
  cases hconn : s.canComms.connected with
  | false =>
    rw [read_of_closed num frames period hconn]
    exact ⟨rfl, rfl, rfl, rfl, rfl, rfl⟩
  | true =>
    obtain ⟨t, hsame, hread⟩ := read_eq num frames period hconn
    obtain ⟨hfail, hcong, -, hsteer, hL, hR⟩ := readOdometry_fields t (drained num frames).gotEnc
      (drained num frames).lEnc (drained num frames).rEnc period
    rw [hread]
    exact ⟨hfail.trans hsame.canWriteFailures, hcong.trans hsame.canWriteCongestion,
      hL.trans (congrArg _ hsame.wheelL), hR.trans (congrArg _ hsame.wheelR),
      (congrArg _ hsteer).trans hsame.leftCmd, (congrArg _ hsteer).trans hsame.rightCmd⟩

omit [LinearOrder K] in
theorem sameOrders_activate (reset steering : WriteOutcome) :
    SameOrders (onActivate num s reset steering).2.2 s := by
  simp only [onActivate]
  split <;> exact ⟨rfl, rfl, rfl, rfl, rfl, rfl⟩

omit [LinearOrder K] in
theorem sameOrders_deactivate (motor steering : WriteOutcome) :
    SameOrders (onDeactivate num s motor steering).2.2 s := by
  simp only [onDeactivate]
  split <;> exact ⟨rfl, rfl, rfl, rfl, rfl, rfl⟩

/-- A command replaces one of each side. -/
theorem SameResidue.command (h : SameResidue num s s') (port : CommandInterface) (value : K) :
    SameResidue num (s.command port value) (s'.command port value) := by
  cases port with
  | leftWheelVelocity => exact { h with wheelL := rfl }
  | rightWheelVelocity => exact { h with wheelR := rfl }
  | leftSteeringPosition =>
    exact { h with
      steering := h.steeringLeft value
      steeringLeft := h.steeringLeft
      steeringRight := fun _ => rfl }
  | rightSteeringPosition =>
    exact { h with
      steering := h.steeringRight value
      steeringLeft := fun _ => rfl
      steeringRight := h.steeringRight }

/-- What a write does to the counters of two components that nothing tells
apart. -/
theorem SameResidue.counters {t t' : System K} {c c' : Cycle} (h : SameResidue num s s')
    (htally : Tallied s t c) (htally' : Tallied s' t' c') (hsteer : c'.steering = c.steering)
    (hmotor : c'.motor = c.motor) :
    c.ret.code = c'.ret.code ∧
      min t.canWriteFailures (CAN_WRITE_FAILURE_LIMIT - 1) =
        min t'.canWriteFailures (CAN_WRITE_FAILURE_LIMIT - 1) ∧
      min t.canWriteCongestion (CAN_WRITE_CONGESTION_LIMIT - 1) =
        min t'.canWriteCongestion (CAN_WRITE_CONGESTION_LIMIT - 1) := by
  obtain ⟨hf, hg⟩ := And.intro h.failures h.congestion
  simp only [CAN_WRITE_FAILURE_LIMIT, CAN_WRITE_CONGESTION_LIMIT] at hf hg ⊢
  rcases c.trichotomy with htr | hcount | hsent
  · obtain ⟨hf1, hg1, hret⟩ := htally.congested htr
    obtain ⟨hf2, hg2, hret'⟩ := htally'.congested (hmotor ▸ htr)
    have hlimit : CAN_WRITE_CONGESTION_LIMIT ≤ s.canWriteCongestion + 1 ↔
        CAN_WRITE_CONGESTION_LIMIT ≤ s'.canWriteCongestion + 1 := by
      rw [CAN_WRITE_CONGESTION_LIMIT]
      omega
    refine ⟨?_, by omega, by omega⟩
    simp only [hret, hret', hlimit]
  · obtain ⟨hf1, hg1, hret⟩ := htally.counted hcount
    obtain ⟨hf2, hg2, hret'⟩ := htally'.counted (by
      rwa [Cycle.counted, Cycle.someFailed, hsteer, hmotor])
    have hlimit : CAN_WRITE_FAILURE_LIMIT ≤ s.canWriteFailures + 1 ↔
        CAN_WRITE_FAILURE_LIMIT ≤ s'.canWriteFailures + 1 := by
      rw [CAN_WRITE_FAILURE_LIMIT]
      omega
    refine ⟨?_, by omega, by omega⟩
    simp only [hret, hret', hlimit]
  · obtain ⟨hf1, hg1, hret⟩ := htally.sent hsent
    obtain ⟨hf2, hg2, hret'⟩ := htally'.sent (by rwa [Cycle.someFailed, hsteer, hmotor])
    exact ⟨by rw [hret, hret'], by omega, by omega⟩

omit [Field K] [LinearOrder K] in
/-- A frame is on the bus if the send has succeeded. -/
theorem send_frames {c : CanComms} {frame : CanFrame} {outcome : WriteOutcome} :
    (c.send frame outcome).2.1 = if outcome = none then [frame] else [] := by
  cases outcome <;> rfl

/-- The frames of a write. -/
theorem write_frames {steering motor : WriteOutcome} (h : s.canComms.connected = true) :
    (write num s steering motor).2.1 =
      (if steering = none then [steeringCommand num (steerSetpoint s.steering)] else []) ++
        (if motor = none then
          [velocityCommand num (velSetpoint s.wheelL) (velSetpoint s.wheelR)] else []) := by
  rw [write, if_neg (by rw [h]; decide)]
  simp only [CanComms.setSteering, CanComms.setMotorValues, send_frames]

/-- **One write of each run.** -/
theorem SameResidue.write (h : SameResidue num s s') (hconn : s.canComms.connected = true)
    (hconn' : s'.canComms.connected = true) (steering motor : WriteOutcome) :
    (write num s steering motor).1.code = (write num s' steering motor).1.code ∧
      (Ackermann.write num s steering motor).2.1 = (Ackermann.write num s' steering motor).2.1 ∧
      SameResidue num (Ackermann.write num s steering motor).2.2
        (Ackermann.write num s' steering motor).2.2 := by
  have htally : Tallied s _ ⟨steering, motor, (Ackermann.write num s steering motor).1⟩ :=
    tallied_write hconn
  have htally' : Tallied s' _ ⟨steering, motor, (Ackermann.write num s' steering motor).1⟩ :=
    tallied_write hconn'
  obtain ⟨hcode, hfail, hcong⟩ := h.counters htally htally' rfl rfl
  refine ⟨hcode, ?_, ?_⟩
  · rw [write_frames hconn, write_frames hconn', steeringCommand, steeringCommand,
      velocityCommand, velocityCommand, h.steering, h.wheelL, h.wheelR]
  · obtain ⟨x, f, g, hwrite⟩ := write_touches num s steering motor
    obtain ⟨x', f', g', hwrite'⟩ := write_touches num s' steering motor
    rw [hwrite] at hfail hcong ⊢
    rw [hwrite'] at hfail hcong ⊢
    exact { h with failures := hfail, congestion := hcong }

/-- The wheels agree apart from their commands, and the residue does. -/
structure Alike (num : Numerics K) (s s' : System K) : Prop where
  odometry : SameOdometry s s'
  residue : SameResidue num s s'

theorem Alike.view {e : Event K} (h : Alike num (step num s e) (step num s' e))
    (hcode : (respond num s e).1.1.code = (respond num s' e).1.1.code)
    (hframes : (respond num s e).1.2 = (respond num s' e).1.2) :
    sessionView num s e = sessionView num s' e :=
  Prod.ext hcode (Prod.ext hframes (Prod.ext h.odometry.exported.1 h.odometry.exported.2))

omit [LinearOrder K] in
theorem frames_activate {reset steering : WriteOutcome} (h : SameOdometry s s') :
    (onActivate num s reset steering).2.1 = (onActivate num s' reset steering).2.1 := by
  simp only [onActivate, h.connected]
  split
  · rfl
  · simp only [CanComms.sendHardwareReset, CanComms.setSteering, send_frames]

omit [LinearOrder K] in
theorem frames_deactivate {motor steering : WriteOutcome} (h : SameOdometry s s') :
    (onDeactivate num s motor steering).2.1 = (onDeactivate num s' motor steering).2.1 := by
  simp only [onDeactivate, h.connected]
  split
  · simp only [CanComms.setMotorValues, CanComms.setSteering, send_frames]
  · rfl

/-- **One event of each run.** -/
theorem Alike.step (h : Alike num s s') (e : Event K) :
    sessionView num s e = sessionView num s' e ∧
      Alike num (Ackermann.step num s e) (Ackermann.step num s' e) := by
  suffices hsame : (respond num s e).1.1.code = (respond num s' e).1.1.code ∧
      (respond num s e).1.2 = (respond num s' e).1.2 ∧
      Alike num (Ackermann.step num s e) (Ackermann.step num s' e) from
    ⟨hsame.2.2.view hsame.1 hsame.2.1, hsame.2.2⟩
  cases e with
  | read frames period =>
    obtain ⟨hcode, hsame⟩ := h.odometry.read (rfl : (drained num frames).encoder = _)
    exact ⟨congrArg some hcode, rfl, hsame,
      h.residue.congr (sameOrders_read frames period) (sameOrders_read frames period)⟩
  | write steering motor =>
    cases hconn : s.canComms.connected with
    | false =>
      have hconn' : s'.canComms.connected = false := h.odometry.connected ▸ hconn
      simp only [respond, Ackermann.step, write_of_closed num steering motor hconn,
        write_of_closed num steering motor hconn']
      exact ⟨trivial, trivial, h⟩
    | true =>
      obtain ⟨hcode, hframes, hresidue⟩ := h.residue.write hconn (h.odometry.connected ▸ hconn)
        steering motor
      exact ⟨congrArg some hcode, hframes, h.odometry.other rfl, hresidue⟩
  | configure connects =>
    exact ⟨rfl, rfl, h.odometry.other rfl,
      h.residue.congr ⟨rfl, rfl, rfl, rfl, rfl, rfl⟩ ⟨rfl, rfl, rfl, rfl, rfl, rfl⟩⟩
  | cleanup =>
    exact ⟨rfl, rfl, h.odometry.other rfl,
      h.residue.congr ⟨rfl, rfl, rfl, rfl, rfl, rfl⟩ ⟨rfl, rfl, rfl, rfl, rfl, rfl⟩⟩
  | activate reset steering =>
    exact ⟨rfl, frames_activate h.odometry, h.odometry.other rfl,
      h.residue.congr (sameOrders_activate reset steering) (sameOrders_activate reset steering)⟩
  | deactivate motor steering =>
    exact ⟨rfl, frames_deactivate h.odometry, h.odometry.other rfl,
      h.residue.congr (sameOrders_deactivate motor steering)
        (sameOrders_deactivate motor steering)⟩
  | command port value =>
    exact ⟨rfl, rfl, h.odometry.other rfl, h.residue.command port value⟩

/-! ## What shows the residue -/

/-- Nothing that happens from now on tells the two apart. -/
def Indistinguishable (num : Numerics K) (s s' : System K) : Prop :=
  ∀ later, Run.trail (step num) (sessionView num) s later =
    Run.trail (step num) (sessionView num) s' later

/-- The same view, after any events. -/
theorem Indistinguishable.view (h : Indistinguishable num s s') (later : List (Event K))
    (e : Event K) : sessionView num (Run.run (step num) s later) e =
      sessionView num (Run.run (step num) s' later) e := by
  have hall := h (later ++ [e])
  rw [Run.trail_append, Run.trail_append] at hall
  simpa using (List.append_inj' hall rfl).2

/-- A cycle that moves a counter towards its limit. -/
structure Counts (num : Numerics K) (e : Event K) (counter : System K → ℕ) (limit : ℕ) :
    Prop where
  step : ∀ s, s.canComms.connected = true → (step num s e).canComms.connected = true ∧
    counter (step num s e) = counter s + 1
  code : ∀ s, s.canComms.connected = true →
    ((sessionView num s e).1 = some .ERROR ↔ limit ≤ counter s + 1)

theorem Counts.run {counter : System K → ℕ} {limit : ℕ} (h : Counts num e counter limit) (n : ℕ)
    (hconn : s.canComms.connected = true) :
    (Run.run (Ackermann.step num) s (List.replicate n e)).canComms.connected = true ∧
      counter (Run.run (Ackermann.step num) s (List.replicate n e)) = counter s + n := by
  induction n generalizing s with
  | zero => exact ⟨hconn, rfl⟩
  | succ n ih =>
    obtain ⟨hconn', hcount⟩ := h.step s hconn
    obtain ⟨hlast, hsum⟩ := ih hconn'
    rw [List.replicate_succ, Run.run_cons]
    exact ⟨hlast, by omega⟩

/-- **A counter shows**: the first `ERROR` comes sooner where it is
higher. -/
theorem Counts.shows {counter : System K → ℕ} {limit : ℕ} (h : Counts num e counter limit)
    (hsame : Indistinguishable num s s') (hconn : s.canComms.connected = true)
    (hconn' : s'.canComms.connected = true) :
    min (counter s) (limit - 1) = min (counter s') (limit - 1) := by
  have hcodes : ∀ n, limit ≤ counter s + n + 1 ↔ limit ≤ counter s' + n + 1 := by
    intro n
    obtain ⟨hrun, hcount⟩ := h.run n hconn
    obtain ⟨hrun', hcount'⟩ := h.run n hconn'
    rw [← hcount, ← hcount', ← h.code _ hrun, ← h.code _ hrun', hsame.view]
  -- the run that brings one counter to its limit must bring the other there
  have hfirst := hcodes (limit - 1 - counter s)
  have hfirst' := hcodes (limit - 1 - counter s')
  omega

/-- The code of a write is what its view shows. -/
theorem view_write {steering motor : WriteOutcome} : (sessionView num s (.write steering motor)).1 =
    some (write num s steering motor).1.code := rfl

theorem counts_hard : Counts num hardCycle System.canWriteFailures CAN_WRITE_FAILURE_LIMIT where
  step s hconn := by
    have hc : cycleOf num s hardCycle = some ⟨some (.other 100), some (.other 100),
        (write num s (some (.other 100)) (some (.other 100))).1⟩ := if_pos hconn
    exact ⟨(connected_step num (e := hardCycle) trivial).trans hconn,
      ((tallied_step hc).counted rfl).1⟩
  code s hconn := by
    have hret : (write num s (some (.other 100)) (some (.other 100))).1 =
        if CAN_WRITE_FAILURE_LIMIT ≤ s.canWriteFailures + 1 then .busOff else .failed :=
      ((tallied_write hconn).counted rfl).2.2
    rw [hardCycle, view_write, hret]
    split <;> rename_i hle <;> simp [WriteReturn.code, hle]

theorem counts_full :
    Counts num fullCycle System.canWriteCongestion CAN_WRITE_CONGESTION_LIMIT where
  step s hconn := by
    have hc : cycleOf num s fullCycle = some ⟨some .ENOBUFS, some .ENOBUFS,
        (write num s (some .ENOBUFS) (some .ENOBUFS)).1⟩ := if_pos hconn
    exact ⟨(connected_step num (e := fullCycle) trivial).trans hconn,
      ((tallied_step hc).congested rfl).2.1⟩
  code s hconn := by
    have hret : (write num s (some .ENOBUFS) (some .ENOBUFS)).1 =
        if CAN_WRITE_CONGESTION_LIMIT ≤ s.canWriteCongestion + 1 then .wedged else .congested :=
      ((tallied_write hconn).congested rfl).2.2
    rw [fullCycle, view_write, hret]
    split <;> rename_i hle <;> simp [WriteReturn.code, hle]

/-- **The commands show**: they are in the frames of the next write. -/
theorem frames_show (h : (sessionView num s (.write none none)).2.1 =
      (sessionView num s' (.write none none)).2.1) (hconn : s.canComms.connected = true)
    (hconn' : s'.canComms.connected = true) :
    SamePacked num s.steering s'.steering ∧
      num.packFloat (velSetpoint s.wheelL) = num.packFloat (velSetpoint s'.wheelL) ∧
      num.packFloat (velSetpoint s.wheelR) = num.packFloat (velSetpoint s'.wheelR) := by
  have hframes : (write num s none none).2.1 = (write num s' none none).2.1 := h
  rw [write_frames hconn, write_frames hconn'] at hframes
  simp only [if_true, List.cons_append, List.nil_append, List.cons.injEq, steeringCommand,
    velocityCommand, CanFrame.mk.injEq, true_and, and_true] at hframes
  obtain ⟨hsteer, hvel⟩ := hframes
  exact ⟨Vector.append_inj_left hsteer, Vector.append_inj hvel⟩

theorem Indistinguishable.residue (h : Indistinguishable num s s')
    (hconn : s.canComms.connected = true) (hconn' : s'.canComms.connected = true) :
    SameResidue num s s' := by
  have hview : sessionView num s (.write none none) = sessionView num s' (.write none none) :=
    h.view [] _
  -- the rest of the steering shows when a controller has replaced one command of two
  have hcommand : ∀ port x, sessionView num (s.command port x) (.write none none) =
      sessionView num (s'.command port x) (.write none none) :=
    fun port x => h.view [.command port x] _
  have hopen : ∀ port x, (s.command port x).canComms.connected = true ∧
      (s'.command port x).canComms.connected = true := by
    intro port x
    cases port <;> exact ⟨hconn, hconn'⟩
  obtain ⟨hsteer, hL, hR⟩ := frames_show (congrArg (·.2.1) hview) hconn hconn'
  refine ⟨counts_hard.shows h hconn hconn', counts_full.shows h hconn hconn', hL, hR, hsteer,
    fun x => ?_, fun x => ?_⟩
  · exact (frames_show (congrArg (·.2.1) (hcommand .leftSteeringPosition x)) (hopen _ x).1
      (hopen _ x).2).1
  · exact (frames_show (congrArg (·.2.1) (hcommand .rightSteeringPosition x)) (hopen _ x).1
      (hopen _ x).2).1

theorem Alike.indistinguishable (h : Alike num s s') : Indistinguishable num s s' := by
  intro later
  refine Run.trail_eq (E := Eq) (fun _ _ e _ halike he => ?_) h ?_
  · rw [← he]
    exact halike.step e
  · rw [List.forall₂_eq_eq_eq]

/-! ## Activations -/

/-- The wheels' scale is that of `on_init`. -/
structure Scaled (num : Numerics K) (counts : ℤ) (s : System K) : Prop where
  wheelL : s.wheelL.radsPerCount = 2.0 * num.pi / counts
  wheelR : s.wheelR.radsPerCount = 2.0 * num.pi / counts

omit [LinearOrder K] in
theorem SameOdometry.scale (h : SameOdometry s s') :
    s.wheelL.radsPerCount = s'.wheelL.radsPerCount ∧
      s.wheelR.radsPerCount = s'.wheelR.radsPerCount :=
  ⟨(uncommanded_fields h.wheelL).2.2.2, (uncommanded_fields h.wheelR).2.2.2⟩

/-- No event changes the scale of the wheels. -/
theorem scale_step : (step num s e).wheelL.radsPerCount = s.wheelL.radsPerCount ∧
    (step num s e).wheelR.radsPerCount = s.wheelR.radsPerCount := by
  cases e with
  | read frames period =>
    simp only [step, respond]
    cases hconn : s.canComms.connected with
    | false =>
      rw [read_of_closed num frames period hconn]
      exact ⟨rfl, rfl⟩
    | true =>
      cases hfresh : (drained num frames).gotEnc with
      | true =>
        obtain ⟨-, hL, hR, -⟩ := read_fresh num frames period hconn hfresh
        rw [hL, hR]
        simp only [DriveWheel.update]
        split <;> exact ⟨rfl, rfl⟩
      | false =>
        obtain ⟨-, hL, hR, -⟩ := read_missed num frames period hconn hfresh
        rw [hL, hR]
        exact ⟨rfl, rfl⟩
  | configure connects => exact ⟨rfl, rfl⟩
  | cleanup => exact ⟨rfl, rfl⟩
  | activate reset steering =>
    simp only [step, respond, onActivate]
    split <;> exact ⟨rfl, rfl⟩
  | deactivate motor steering => exact (sameOdometry_deactivate num s motor steering).scale
  | write steering motor => exact (sameOdometry_write num steering motor).scale
  | command port value => exact (sameOdometry_command port value).scale

theorem scaled_run (counts : ℤ) (es : List (Event K)) :
    Scaled num counts (Run.run (step num) (System.init num counts) es) :=
  Run.inv_run (P := fun _ _ => True)
    (fun _ _ h _ => ⟨scale_step.1.trans h.wheelL, scale_step.2.trans h.wheelR⟩) ⟨rfl, rfl⟩
    (Run.along_of_forall fun _ _ => trivial)

omit [LinearOrder K] in
theorem connected_of_activates {reset steering : WriteOutcome}
    (h : (onActivate num s reset steering).1 = true) : s.canComms.connected = true := by
  cases hconn : s.canComms.connected with
  | false => simp [onActivate, hconn] at h
  | true => rfl

omit [LinearOrder K] in
/-- Two components of one scale have the same wheels after an activation. -/
theorem sameOdometry_activate {counts : ℤ} {reset steering reset' steering' : WriteOutcome}
    (h : Scaled num counts s) (h' : Scaled num counts s') (hconn : s.canComms.connected = true)
    (hconn' : s'.canComms.connected = true) :
    SameOdometry (onActivate num s reset steering).2.2
      (onActivate num s' reset' steering').2.2 := by
  simp only [onActivate, hconn, hconn', Bool.not_true, Bool.false_eq_true, if_false]
  refine ⟨?_, ?_, ?_, rfl⟩
  · simp only [CanComms.sendHardwareReset, CanComms.setSteering, connected_send, hconn, hconn']
  · simp only [DriveWheel.uncommanded, h.wheelL, h'.wheelL]
  · simp only [DriveWheel.uncommanded, h.wheelR, h'.wheelR]

omit [LinearOrder K] in
theorem connected_activate {reset steering : WriteOutcome} (hconn : s.canComms.connected = true) :
    (onActivate num s reset steering).2.2.canComms.connected = true := by
  simp only [onActivate, hconn, Bool.not_true, Bool.false_eq_true, if_false,
    CanComms.sendHardwareReset, CanComms.setSteering, connected_send]

omit [Field K] [LinearOrder K] in
theorem SameOrders.symm {t : System K} (h : SameOrders t s) : SameOrders s t :=
  ⟨h.failures.symm, h.congestion.symm, h.wheelL.symm, h.wheelR.symm, h.left.symm, h.right.symm⟩

/-- **A session inherits the residue and nothing else**: after activations
that succeed, two histories show the same for ever exactly when they have
left the same residue. -/
theorem fresh_session_iff (num : Numerics K) (counts : ℤ) (es es' : List (Event K))
    (reset steering reset' steering' : WriteOutcome)
    (h : (onActivate num (Run.run (step num) (System.init num counts) es) reset steering).1 = true)
    (h' : (onActivate num (Run.run (step num) (System.init num counts) es') reset'
      steering').1 = true) :
    Indistinguishable num
      (onActivate num (Run.run (step num) (System.init num counts) es) reset steering).2.2
      (onActivate num (Run.run (step num) (System.init num counts) es') reset' steering').2.2 ↔
    SameResidue num (Run.run (step num) (System.init num counts) es)
      (Run.run (step num) (System.init num counts) es') := by
  have hconn := connected_of_activates h
  have hconn' := connected_of_activates h'
  constructor
  · intro hsame
    exact (hsame.residue (connected_activate hconn) (connected_activate hconn')).congr
      (sameOrders_activate reset steering).symm (sameOrders_activate reset' steering').symm
  · intro hresidue
    exact Alike.indistinguishable
      ⟨sameOdometry_activate (scaled_run counts es) (scaled_run counts es') hconn hconn',
        hresidue.congr (sameOrders_activate reset steering) (sameOrders_activate reset' steering')⟩

/-- A session that has done nothing but read leaves no residue. -/
theorem fresh_session_reads : Indistinguishable sampleNumerics
    (onActivate sampleNumerics (Run.run (step sampleNumerics) (System.init sampleNumerics 1000)
      [.configure true]) none none).2.2
    (onActivate sampleNumerics (Run.run (step sampleNumerics) (System.init sampleNumerics 1000)
      [.configure true, .activate none none, .read [(velocityFeedback 7 7).received] (1 / 30),
        .deactivate none none]) none none).2.2 :=
  (fresh_session_iff sampleNumerics 1000 _ _ none none none none (by decide +kernel)
    (by decide +kernel)).2 ⟨by decide +kernel, by decide +kernel, rfl, rfl, rfl, fun _ => rfl,
      fun _ => rfl⟩

/-- A session in which the link has failed for four cycles. -/
def faultySession : List (Event ℚ) :=
  [.configure true, .activate none none, hardCycle, hardCycle, hardCycle, hardCycle,
    .deactivate none none]

/-- **The next session goes down with its first failed cycle**, where one
without that history rides it out. -/
theorem faulty_session_shows : ¬ Indistinguishable sampleNumerics
    (onActivate sampleNumerics (Run.run (step sampleNumerics) (System.init sampleNumerics 1000)
      [.configure true]) none none).2.2
    (onActivate sampleNumerics (Run.run (step sampleNumerics) (System.init sampleNumerics 1000)
      faultySession) none none).2.2 := by
  intro h
  have hview := congrArg Prod.fst (h.view [] hardCycle)
  revert hview
  decide +kernel

end Simulation

end Ackermann

end VehicleStack
