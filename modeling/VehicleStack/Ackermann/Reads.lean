import VehicleStack.Ackermann.Model

/-!
# The drive — what a read may change

`read` deals with three sources one after the other. Its steering and IMU
parts leave everything the wheels and the writes rest on as it is
(`Untouched`), so a read is what its odometry part does with the counts it
has drained (`read_eq`).
-/

namespace VehicleStack

namespace Ackermann

variable {K : Type} [Field K] [LinearOrder K] (num : Numerics K) {s s' : System K}
  (frames : List Received) (period : K)

/-- The steering positions, the IMU and its calibration, and the sequence
state apart, the components agree. -/
structure Untouched (s s' : System K) : Prop where
  connected : s'.canComms.connected = s.canComms.connected
  wheelL : s'.wheelL = s.wheelL
  wheelR : s'.wheelR = s.wheelR
  leftCmd : s'.steering.leftCmd = s.steering.leftCmd
  rightCmd : s'.steering.rightCmd = s.steering.rightCmd
  encDtAccum : s'.encDtAccum = s.encDtAccum
  canWriteFailures : s'.canWriteFailures = s.canWriteFailures
  canWriteCongestion : s'.canWriteCongestion = s.canWriteCongestion

omit [Field K] [LinearOrder K] in
theorem Untouched.trans {s'' : System K} (h : Untouched s s') (h' : Untouched s' s'') :
    Untouched s s'' where
  connected := h'.connected.trans h.connected
  wheelL := h'.wheelL.trans h.wheelL
  wheelR := h'.wheelR.trans h.wheelR
  leftCmd := h'.leftCmd.trans h.leftCmd
  rightCmd := h'.rightCmd.trans h.rightCmd
  encDtAccum := h'.encDtAccum.trans h.encDtAccum
  canWriteFailures := h'.canWriteFailures.trans h.canWriteFailures
  canWriteCongestion := h'.canWriteCongestion.trans h.canWriteCongestion

theorem untouched_readSteering (s : System K) (fb : SteeringFeedback K) :
    Untouched s (readSteering num s fb) := by
  simp only [readSteering]
  split <;> exact ⟨rfl, rfl, rfl, rfl, rfl, rfl, rfl, rfl⟩

omit [LinearOrder K] in
theorem untouched_readImu {d : Drain K} : Untouched s (readImu s d) := by
  simp only [readImu]
  repeat' split
  all_goals exact ⟨rfl, rfl, rfl, rfl, rfl, rfl, rfl, rfl⟩

/-- What a read has drained from the socket. -/
def drained (num : Numerics K) (frames : List Received) : Drain K :=
  frames.foldl (Drain.take num) .init

omit [LinearOrder K] in
/-- The encoder stands on its own, and so does the socket. -/
theorem readSensorValues_fields (num : Numerics K) (c : CanComms) (frames : List Received) :
    (c.readSensorValues num frames).1.enc = (drained num frames).gotEnc ∧
      (c.readSensorValues num frames).2.1 = drained num frames ∧
      (c.readSensorValues num frames).2.2.connected = c.connected := by
  simp only [CanComms.readSensorValues]
  repeat' split
  all_goals exact ⟨rfl, rfl, rfl⟩

/-- **A read on an open socket** is its odometry part, of the counts drained,
in a component whose wheels nothing else has touched. -/
theorem read_eq (h : s.canComms.connected = true) : ∃ s', Untouched s s' ∧
    read num s frames period = readOdometry s' (drained num frames).gotEnc
      (drained num frames).lEnc (drained num frames).rEnc period := by
  obtain ⟨henc, hdrain, hconn⟩ := readSensorValues_fields num s.canComms frames
  simp only [read, h, Bool.not_true, Bool.false_eq_true, if_false]
  rw [henc, hdrain]
  refine ⟨_, ?_, rfl⟩
  have hsteer := untouched_readSteering num
    { s with canComms := (s.canComms.readSensorValues num frames).2.2 } (drained num frames).steerFb
  have hbase : Untouched s { s with canComms := (s.canComms.readSensorValues num frames).2.2 } :=
    ⟨hconn, rfl, rfl, rfl, rfl, rfl, rfl, rfl⟩
  split
  · exact (hbase.trans hsteer).trans untouched_readImu
  · exact hbase.trans hsteer

/-- A read on a closed one. -/
theorem read_of_closed (h : s.canComms.connected = false) :
    read num s frames period = (.ERROR, s) := by
  simp [read, h]

/-- What the odometry part leaves alone. -/
theorem readOdometry_fields (s : System K) (gotEnc : Bool) (l_enc r_enc : ℤ) (period : K) :
    let s' := (readOdometry s gotEnc l_enc r_enc period).2
    s'.canWriteFailures = s.canWriteFailures ∧ s'.canWriteCongestion = s.canWriteCongestion ∧
      s'.canComms = s.canComms ∧ s'.steering = s.steering ∧ s'.wheelL.cmd = s.wheelL.cmd ∧
      s'.wheelR.cmd = s.wheelR.cmd := by
  simp only [readOdometry, DriveWheel.update]
  repeat' split
  all_goals exact ⟨rfl, rfl, rfl, rfl, rfl, rfl⟩

/-! ## The wheels -/

/-- A wheel apart from the command it was given. -/
def DriveWheel.uncommanded (wheel : DriveWheel K) : DriveWheel K := { wheel with cmd := 0 }

theorem uncommanded_update (wheel : DriveWheel K) (enc : ℤ) (dt : K) :
    (wheel.update enc dt).uncommanded = wheel.uncommanded.update enc dt := by
  simp only [DriveWheel.update, DriveWheel.uncommanded, DriveWheel.calcEncAngle]
  split <;> rfl

omit [LinearOrder K] in
theorem uncommanded_fields {wheel wheel' : DriveWheel K}
    (h : wheel.uncommanded = wheel'.uncommanded) : wheel.enc = wheel'.enc ∧
      wheel.pos = wheel'.pos ∧ wheel.vel = wheel'.vel ∧
      wheel.radsPerCount = wheel'.radsPerCount := by
  simpa [DriveWheel.uncommanded] using h

/-- The socket, the wheels apart from their commands, and the age of the
newest count agree. -/
structure SameOdometry (s s' : System K) : Prop where
  connected : s.canComms.connected = s'.canComms.connected
  wheelL : s.wheelL.uncommanded = s'.wheelL.uncommanded
  wheelR : s.wheelR.uncommanded = s'.wheelR.uncommanded
  encDtAccum : s.encDtAccum = s'.encDtAccum

omit [LinearOrder K] in
@[refl] theorem SameOdometry.refl (s : System K) : SameOdometry s s := ⟨rfl, rfl, rfl, rfl⟩

omit [LinearOrder K] in
theorem SameOdometry.trans {s'' : System K} (h : SameOdometry s s') (h' : SameOdometry s' s'') :
    SameOdometry s s'' where
  connected := h.connected.trans h'.connected
  wheelL := h.wheelL.trans h'.wheelL
  wheelR := h.wheelR.trans h'.wheelR
  encDtAccum := h.encDtAccum.trans h'.encDtAccum

/-- **A read that has drained a count** takes it in. -/
theorem read_fresh (h : s.canComms.connected = true)
    (hfresh : (drained num frames).gotEnc = true) :
    (read num s frames period).1 = .OK ∧
      (read num s frames period).2.wheelL =
        s.wheelL.update (drained num frames).lEnc (s.encDtAccum + period) ∧
      (read num s frames period).2.wheelR =
        s.wheelR.update (drained num frames).rEnc (s.encDtAccum + period) ∧
      (read num s frames period).2.encDtAccum = 0 := by
  obtain ⟨s', hsame, hread⟩ := read_eq num frames period h
  rw [hread]
  simp [readOdometry, hfresh, hsame.wheelL, hsame.wheelR, hsame.encDtAccum]

/-- **A read that has not** lets the newest count grow older, and fails once
it is too old. -/
theorem read_missed (h : s.canComms.connected = true)
    (hmissed : (drained num frames).gotEnc = false) :
    ((read num s frames period).1 = .ERROR ↔ ENC_STALE_LIMIT_S ≤ s.encDtAccum + period) ∧
      (read num s frames period).2.wheelL = s.wheelL ∧
      (read num s frames period).2.wheelR = s.wheelR ∧
      (read num s frames period).2.encDtAccum = s.encDtAccum + period := by
  obtain ⟨s', hsame, hread⟩ := read_eq num frames period h
  rw [hread]
  simp only [readOdometry, hmissed, hsame.wheelL, hsame.wheelR, hsame.encDtAccum]
  refine ⟨?_, rfl, rfl, rfl⟩
  simp

/-- Reading neither opens nor closes the socket. -/
theorem connected_read :
    (read num s frames period).2.canComms.connected = s.canComms.connected := by
  cases h : s.canComms.connected with
  | false => rw [read_of_closed num frames period h, h]
  | true =>
    obtain ⟨s', hsame, hread⟩ := read_eq num frames period h
    rw [hread, (readOdometry_fields ..).2.2.1, hsame.connected, h]

omit [Field K] [LinearOrder K] in
theorem connected_send {c : CanComms} {frame : CanFrame} {outcome : WriteOutcome} :
    (c.send frame outcome).2.2.connected = c.connected := by
  cases outcome <;> rfl

omit [Field K] [LinearOrder K] in
/-- Sending leaves the flag of its failure, and nothing else. -/
theorem send_touches (c : CanComms) (frame : CanFrame) (outcome : WriteOutcome) :
    ∃ t, (c.send frame outcome).2.2 = { c with lastWriteTransient := t } := by
  cases outcome <;> exact ⟨_, rfl⟩

omit [Field K] [LinearOrder K] in
theorem countFailure_touches (s : System K) (ok : Bool) : ∃ f g, (countFailure s ok).2 =
    { s with canWriteFailures := f, canWriteCongestion := g } := by
  simp only [countFailure]
  repeat' split
  all_goals exact ⟨_, _, rfl⟩

/-- A write on a closed socket. -/
theorem write_of_closed (steering motor : WriteOutcome) (h : s.canComms.connected = false) :
    write num s steering motor = (.notConnected, [], s) := by
  simp [write, h]

/-- A write moves the flag and the counters. -/
theorem write_touches (s : System K) (steering motor : WriteOutcome) :
    ∃ t f g, (write num s steering motor).2.2 =
      { s with canComms := { s.canComms with lastWriteTransient := t }
               canWriteFailures := f, canWriteCongestion := g } := by
  cases h : s.canComms.connected with
  | false =>
    refine ⟨s.canComms.lastWriteTransient, s.canWriteFailures, s.canWriteCongestion, ?_⟩
    rw [write_of_closed num steering motor h]
  | true =>
    rw [write, if_neg (by rw [h]; decide)]
    simp only [CanComms.setSteering, CanComms.setMotorValues]
    obtain ⟨f, g, hcount⟩ := countFailure_touches (K := K) _ _
    obtain ⟨t, ht⟩ := send_touches s.canComms (steeringCommand num (steerSetpoint s.steering))
      steering
    obtain ⟨t', ht'⟩ := send_touches (s.canComms.send (steeringCommand num
      (steerSetpoint s.steering)) steering).2.2
      (velocityCommand num (velSetpoint s.wheelL) (velSetpoint s.wheelR)) motor
    refine ⟨t', f, g, hcount.trans ?_⟩
    rw [ht', ht]

theorem sameOdometry_write (steering motor : WriteOutcome) :
    SameOdometry (write num s steering motor).2.2 s := by
  obtain ⟨t, f, g, hwrite⟩ := write_touches num s steering motor
  rw [hwrite]
  exact ⟨rfl, rfl, rfl, rfl⟩

omit [LinearOrder K] in
theorem sameOdometry_command (port : CommandInterface) (value : K) :
    SameOdometry (s.command port value) s := by
  cases port <;> exact ⟨rfl, rfl, rfl, rfl⟩

/-! ## Sessions -/

def Event.isRead : Event K → Bool
  | .read .. => true
  | _ => false

/-- What happens between an activation and the end of its session. -/
def Event.InSession : Event K → Prop
  | .read .. | .write .. | .command .. => True
  | .configure .. | .cleanup | .activate .. | .deactivate .. => False

/-- A session's events leave the socket open. -/
theorem connected_step {e : Event K} (he : e.InSession) :
    (step num s e).canComms.connected = s.canComms.connected := by
  cases e with
  | read frames period => exact connected_read num frames period
  | write steering motor => exact (sameOdometry_write num steering motor).connected
  | command port value => exact (sameOdometry_command port value).connected
  | configure | cleanup | activate | deactivate => exact he.elim

end Ackermann

end VehicleStack
