import Mathlib.Algebra.Field.Rat
import Mathlib.Algebra.Order.Field.Basic
import Mathlib.Algebra.Order.Ring.Rat
import Mathlib.Order.MinMax
import VehicleStack.Ackermann.Frames

/-!
# The drive — `AckermannHardwareSystem`

The ros2_control component: the CAN transport, the wheels, and the
callbacks that the controller manager runs, in the order of the source. A
callback is a function of the component's fields; what `read` drains from
the socket and what becomes of each `write` to it are its inputs, and the
frames that reach the bus are part of its answer. Numbers are those of any
ordered field. Log lines are left out, and with them the static flags that
only say when to write one.
-/

namespace VehicleStack

namespace Ackermann

/-! ## The CAN transport -/

/-- `errno` after a `write` that did not take the whole frame. -/
inductive Errno
  | ENOBUFS
  | EAGAIN
  | EWOULDBLOCK
  | EINTR
  | other (n : ℕ)
  deriving DecidableEq, Repr

/-- The queue is full right now, or a signal came in. -/
def Errno.transient : Errno → Bool
  | .other _ => false
  | _ => true

/-- What becomes of a `write`: `none` is the whole frame. -/
abbrev WriteOutcome := Option Errno

/-- `CanComms`. The socket counts as its being open or not. -/
structure CanComms where
  connected : Bool
  expectedSeq : UInt8
  seqInitialized : Bool
  lastWriteTransient : Bool
  deriving DecidableEq, Repr

def CanComms.init : CanComms := ⟨false, 0, false, false⟩

/-- The end of every function that sends: whether the frame was taken, what
is on the bus for it, and the transport. -/
def CanComms.send (c : CanComms) (frame : CanFrame) (outcome : WriteOutcome) :
    Bool × List CanFrame × CanComms :=
  match outcome with
  | none => (true, [frame], { c with lastWriteTransient := false })
  | some errno => (false, [], { c with lastWriteTransient := errno.transient })

section Sending

variable {K : Type} (num : Numerics K) (c : CanComms)

def CanComms.sendHardwareReset (outcome : WriteOutcome) : Bool × List CanFrame × CanComms :=
  c.send resetCommand outcome

def CanComms.setMotorValues (left_vel right_vel : K) (outcome : WriteOutcome) :
    Bool × List CanFrame × CanComms :=
  c.send (velocityCommand num left_vel right_vel) outcome

def CanComms.setSteering (steer_angle : K) (outcome : WriteOutcome) :
    Bool × List CanFrame × CanComms :=
  c.send (steeringCommand num steer_angle) outcome

end Sending

/-- Three axes. -/
structure Vec3 (K : Type) where
  x : K
  y : K
  z : K
  deriving DecidableEq, Repr

/-- `CanComms::SteeringFeedback`. -/
structure SteeringFeedback (K : Type) where
  angle : K
  atTarget : Bool
  potFault : Bool
  outOfRange : Bool
  saturated : Bool
  received : Bool

/-- `CanComms::SensorStatus`. -/
structure SensorStatus where
  enc : Bool
  imu : Bool
  imuStale : Bool
  deriving DecidableEq, Repr

/-- The locals of `read_sensor_values`, those of its caller included. -/
structure Drain (K : Type) where
  lEnc : ℤ
  rEnc : ℤ
  accel : Vec3 K
  gyro : Vec3 K
  isImuReset : Bool
  steerFb : SteeringFeedback K
  gotEnc : Bool
  gotImu1 : Bool
  gotImu2 : Bool
  seq1 : UInt8
  seq2 : UInt8

section Reading

variable {K : Type} [Field K] (num : Numerics K)

/-- The locals as they are declared. -/
def Drain.init : Drain K where
  lEnc := 0
  rEnc := 0
  accel := ⟨0, 0, 0⟩
  gyro := ⟨0, 0, 0⟩
  isImuReset := false
  steerFb := ⟨0, false, false, false, false, false⟩
  gotEnc := false
  gotImu1 := false
  gotImu2 := false
  seq1 := 0
  seq2 := 0

/-- A thousandth of an integer field: the scale of the IMU's signals. -/
def milli (n : ℤ) : K := n * 0.001

/-- One pass of the loop. -/
def Drain.take (d : Drain K) (r : Received) : Drain K :=
  if r.frame.canId = VELOCITY_FEEDBACK_FRAME_ID then
    let msg := r.message VelocityFeedback.ofData
    { d with lEnc := msg.leftTicks, rEnc := msg.rightTicks, gotEnc := true }
  else if r.frame.canId = STEERING_FEEDBACK_FRAME_ID then
    let msg := r.message (SteeringFeedbackMsg.ofData num)
    { d with steerFb := ⟨msg.steeringAngle, msg.atTarget == 1, msg.potFault == 1,
        msg.outOfRange == 1, msg.saturated == 1, true⟩ }
  else if r.frame.canId = IMU_ACCEL_FRAME_ID then
    let msg := r.message ImuAccel.ofData
    { d with accel := ⟨milli msg.accelX, milli msg.accelY, milli msg.accelZ⟩
             seq1 := msg.sequence, gotImu1 := true }
  else if r.frame.canId = IMU_GYRO_FLAGS_FRAME_ID then
    let msg := r.message ImuGyroFlags.ofData
    { d with gyro := ⟨milli msg.gyroX, milli msg.gyroY, milli msg.gyroZ⟩
             isImuReset := msg.imuReset == 1, seq2 := msg.sequence, gotImu2 := true }
  else d

/-- `read_sensor_values`, of the frames the socket has queued. -/
def CanComms.readSensorValues (c : CanComms) (frames : List Received) :
    SensorStatus × Drain K × CanComms :=
  let d := frames.foldl (Drain.take num) .init
  if d.gotImu1 && d.gotImu2 && d.seq1 == d.seq2 then
    if !c.seqInitialized || d.seq1 != c.expectedSeq then
      (⟨d.gotEnc, true, false⟩, d, { c with expectedSeq := d.seq1, seqInitialized := true })
    else (⟨d.gotEnc, false, true⟩, d, c)
  else (⟨d.gotEnc, false, false⟩, d, c)

end Reading

/-! ## Wheels -/

/-- `DriveWheel`. -/
structure DriveWheel (K : Type) where
  enc : ℤ
  cmd : K
  pos : K
  vel : K
  radsPerCount : K
  deriving DecidableEq, Repr

/-- `SteeringWheel`. -/
structure SteeringWheel (K : Type) where
  leftPos : K
  rightPos : K
  leftCmd : K
  rightCmd : K
  deriving DecidableEq, Repr

section Wheels

variable {K : Type} [Field K] (num : Numerics K)

/-- A `DriveWheel` after `setup`. -/
def DriveWheel.setup (counts_per_rev : ℤ) : DriveWheel K :=
  ⟨0, 0, 0, 0, 2.0 * num.pi / counts_per_rev⟩

def DriveWheel.calcEncAngle (wheel : DriveWheel K) : K := wheel.enc * wheel.radsPerCount

def SteeringWheel.init : SteeringWheel K := ⟨0, 0, 0, 0⟩

def SteeringWheel.getAverageSteeringCmd (w : SteeringWheel K) : K := (w.leftCmd + w.rightCmd) / 2.0

/-- `set_rack_position`: inverse Ackermann geometry. -/
def SteeringWheel.setRackPosition (w : SteeringWheel K) (rack_angle : K) : SteeringWheel K :=
  let L : K := 0.23529
  let d : K := 0.12
  let t := num.tan rack_angle
  { w with leftPos := num.atan (L * t / (L - d / 2.0 * t))
           rightPos := num.atan (L * t / (L + d / 2.0 * t)) }

end Wheels

/-! ## The component -/

def IMU_CALIBRATION_SAMPLES : ℕ := 200
def ACTIVATION_SETTLE_CYCLES : ℕ := 45
def CAN_WRITE_FAILURE_LIMIT : ℕ := 5
def CAN_WRITE_CONGESTION_LIMIT : ℕ := 90

section Constants

variable {K : Type} [Field K]

def ENC_STALE_LIMIT_S : K := 0.333
def STEER_MAX_LEFT : K := 0.286
def STEER_MAX_RIGHT : K := -0.286
def WHEEL_VEL_MAX : K := 18.77

/-- The shortest interval that a velocity is computed over. -/
def MIN_INTERVAL_S : K := 0.0001

end Constants

/-- The fields of `AckermannHardwareSystem`. -/
structure System (K : Type) where
  canComms : CanComms
  wheelL : DriveWheel K
  wheelR : DriveWheel K
  steering : SteeringWheel K
  imuAccel : Vec3 K
  imuGyro : Vec3 K
  imuOrientation : Vector K 4
  isImuCalibrating : Bool
  imuCalibrationSampleCount : ℕ
  imuGyroZSum : K
  imuGyroZOffset : K
  activationSettleCycles : ℕ
  encDtAccum : K
  canWriteFailures : ℕ
  canWriteCongestion : ℕ

/-- What `write` has come to: every way it returns, by name. -/
inductive WriteReturn
  | notConnected
  | sent
  | congested
  | wedged
  | failed
  | busOff
  deriving DecidableEq, Repr

/-- `hardware_interface::return_type`. -/
inductive ReturnType
  | OK
  | ERROR
  deriving DecidableEq, Repr

/-- The code that goes with each way. -/
def WriteReturn.code : WriteReturn → ReturnType
  | .sent | .congested | .failed => .OK
  | .notConnected | .wedged | .busOff => .ERROR

section Callbacks

variable {K : Type} [Field K] [LinearOrder K] (num : Numerics K)

/-- The component after `on_init`. -/
def System.init (enc_counts_per_rev : ℤ) : System K where
  canComms := .init
  wheelL := .setup num enc_counts_per_rev
  wheelR := .setup num enc_counts_per_rev
  steering := .init
  imuAccel := ⟨0, 0, 0⟩
  imuGyro := ⟨0, 0, 0⟩
  imuOrientation := #v[0, 0, 0, 1]
  isImuCalibrating := true
  imuCalibrationSampleCount := 0
  imuGyroZSum := 0
  imuGyroZOffset := 0
  activationSettleCycles := 0
  encDtAccum := 0
  canWriteFailures := 0
  canWriteCongestion := 0

variable (s : System K)

/-- `on_configure`: an open socket is closed and a new one is opened, if it
can be. -/
def onConfigure (connects : Bool) : Bool × System K :=
  (connects, { s with canComms := { s.canComms with connected := connects } })

/-- `on_cleanup`. -/
def onCleanup : Bool × System K :=
  (true, { s with canComms := { s.canComms with connected := false } })

/-- `on_activate`. What becomes of its two frames is not looked at. -/
def onActivate (reset steering : WriteOutcome) : Bool × List CanFrame × System K :=
  if !s.canComms.connected then (false, [], s)
  else
    let (_, frames, c) := s.canComms.sendHardwareReset reset
    let (_, frames', c) := c.setSteering num 0 steering
    -- neither the commands nor the counters of failed writes are set back
    (true, frames ++ frames',
      { s with
        canComms := c
        wheelL := { s.wheelL with enc := 0, pos := 0, vel := 0 }
        wheelR := { s.wheelR with enc := 0, pos := 0, vel := 0 }
        encDtAccum := 0
        activationSettleCycles := ACTIVATION_SETTLE_CYCLES
        isImuCalibrating := true
        imuCalibrationSampleCount := 0
        imuGyroZSum := 0
        imuGyroZOffset := 0 })

/-- `on_deactivate`. -/
def onDeactivate (motor steering : WriteOutcome) : Bool × List CanFrame × System K :=
  if s.canComms.connected then
    let (_, frames, c) := s.canComms.setMotorValues num 0 0 motor
    let (_, frames', c) := c.setSteering num 0 steering
    (true, frames ++ frames', { s with canComms := c })
  else (true, [], s)

/-! ### `read` -/

/-- The steering part: the pot's angle, mapped by the side commanded, unless
the frame reports a fault. -/
def readSteering (fb : SteeringFeedback K) : System K :=
  if fb.received && !fb.potFault then
    let FB_A_LEFT : K := -0.60526
    let FB_B_LEFT : K := -0.01010
    let FB_A_RIGHT : K := -0.78021
    let FB_B_RIGHT : K := -0.01713
    let corrected :=
      if 0 ≤ s.steering.getAverageSteeringCmd then (fb.angle - FB_B_LEFT) / FB_A_LEFT
      else (fb.angle - FB_B_RIGHT) / FB_A_RIGHT
    { s with steering := s.steering.setRackPosition num corrected }
  else s

/-- The IMU part, of an accepted pair: the calibration goes on, or its
offset is applied. -/
def readImu (d : Drain K) : System K :=
  let s := { s with imuAccel := d.accel
                    imuGyro := { s.imuGyro with x := d.gyro.x, y := d.gyro.y } }
  if s.isImuCalibrating then
    let s :=
      if 0 < s.activationSettleCycles then
        { s with activationSettleCycles := s.activationSettleCycles - 1 }
      else if !d.isImuReset then
        let sum := s.imuGyroZSum + d.gyro.z
        let count := s.imuCalibrationSampleCount + 1
        if IMU_CALIBRATION_SAMPLES ≤ count then
          { s with imuGyroZSum := sum, imuCalibrationSampleCount := count
                   imuGyroZOffset := sum / IMU_CALIBRATION_SAMPLES, isImuCalibrating := false }
        else { s with imuGyroZSum := sum, imuCalibrationSampleCount := count }
      else s
    { s with imuGyro := { s.imuGyro with z := 0 } }
  else if d.isImuReset then { s with imuGyro := { s.imuGyro with z := 0 } }
  else { s with imuGyro := { s.imuGyro with z := d.gyro.z - s.imuGyroZOffset } }

/-- A wheel takes a new count in: its position, and its velocity over the
time since the last one. -/
def DriveWheel.update (wheel : DriveWheel K) (enc : ℤ) (enc_dt_accum : K) : DriveWheel K :=
  let wheel' := { wheel with enc := enc }
  let pos := wheel'.calcEncAngle
  if MIN_INTERVAL_S < enc_dt_accum then
    { wheel' with pos := pos, vel := (pos - wheel.pos) / enc_dt_accum }
  else { wheel' with pos := pos }

/-- The odometry part, which ends `read`. -/
def readOdometry (gotEnc : Bool) (l_enc r_enc : ℤ) (period : K) : ReturnType × System K :=
  let accum := s.encDtAccum + period
  if gotEnc then
    (.OK, { s with wheelL := s.wheelL.update l_enc accum, wheelR := s.wheelR.update r_enc accum
                   encDtAccum := 0 })
  else (if ENC_STALE_LIMIT_S ≤ accum then .ERROR else .OK, { s with encDtAccum := accum })

/-- `read`. -/
def read (frames : List Received) (period : K) : ReturnType × System K :=
  if !s.canComms.connected then (.ERROR, s)
  else
    let (status, d, c) := s.canComms.readSensorValues num frames
    let s := readSteering num { s with canComms := c } d.steerFb
    let s := if status.imu then readImu s d else s
    readOdometry s status.enc d.lEnc d.rEnc period

/-! ### `write` -/

/-- The steering angle `write` sends. -/
def steerSetpoint (w : SteeringWheel K) : K :=
  max STEER_MAX_RIGHT (min w.getAverageSteeringCmd STEER_MAX_LEFT)

/-- The velocity `write` sends to a wheel. -/
def velSetpoint (wheel : DriveWheel K) : K := max (-WHEEL_VEL_MAX) (min wheel.cmd WHEEL_VEL_MAX)

/-- The end of `write`: the class of the cycle, and its counter. -/
def countFailure (ok : Bool) : WriteReturn × System K :=
  if !ok then
    -- the flag speaks of the last of the two sends
    if s.canComms.lastWriteTransient then
      let s := { s with canWriteFailures := 0, canWriteCongestion := s.canWriteCongestion + 1 }
      (if CAN_WRITE_CONGESTION_LIMIT ≤ s.canWriteCongestion then .wedged else .congested, s)
    else
      let s := { s with canWriteFailures := s.canWriteFailures + 1 }
      (if CAN_WRITE_FAILURE_LIMIT ≤ s.canWriteFailures then .busOff else .failed, s)
  else (.sent, { s with canWriteFailures := 0, canWriteCongestion := 0 })

/-- `write`. -/
def write (steering motor : WriteOutcome) : WriteReturn × List CanFrame × System K :=
  if !s.canComms.connected then (.notConnected, [], s)
  else
    let (ok, frames, c) := s.canComms.setSteering num (steerSetpoint s.steering) steering
    let (ok', frames', c) :=
      c.setMotorValues num (velSetpoint s.wheelL) (velSetpoint s.wheelR) motor
    let (ret, s) := countFailure { s with canComms := c } (ok && ok')
    (ret, frames ++ frames', s)

end Callbacks

/-! ## Runs -/

/-- The command interfaces the component exports. -/
inductive CommandInterface
  | leftWheelVelocity
  | rightWheelVelocity
  | leftSteeringPosition
  | rightSteeringPosition
  deriving DecidableEq, Repr

/-- What the controller manager can do with the component. `command` is a
controller's write to an interface. -/
inductive Event (K : Type)
  | configure (connects : Bool)
  | cleanup
  | activate (reset steering : WriteOutcome)
  | deactivate (motor steering : WriteOutcome)
  | read (frames : List Received) (period : K)
  | write (steering motor : WriteOutcome)
  | command (port : CommandInterface) (value : K)

/-- What a callback returns. -/
inductive Reply
  | callback (success : Bool)
  | read (code : ReturnType)
  | write (ret : WriteReturn)
  | none
  deriving DecidableEq, Repr

section Runs

variable {K : Type} [Field K] [LinearOrder K] (num : Numerics K) (s : System K)

/-- A controller's write to an interface. -/
def System.command (port : CommandInterface) (value : K) : System K :=
  match port with
  | .leftWheelVelocity => { s with wheelL := { s.wheelL with cmd := value } }
  | .rightWheelVelocity => { s with wheelR := { s.wheelR with cmd := value } }
  | .leftSteeringPosition => { s with steering := { s.steering with leftCmd := value } }
  | .rightSteeringPosition => { s with steering := { s.steering with rightCmd := value } }

/-- One event: what is returned, what reaches the bus, and the component. -/
def respond : Event K → (Reply × List CanFrame) × System K
  | .configure connects => ((.callback (onConfigure s connects).1, []), (onConfigure s connects).2)
  | .cleanup => ((.callback (onCleanup s).1, []), (onCleanup s).2)
  | .activate reset steering =>
    let (success, frames, s) := onActivate num s reset steering
    ((.callback success, frames), s)
  | .deactivate motor steering =>
    let (success, frames, s) := onDeactivate num s motor steering
    ((.callback success, frames), s)
  | .read frames period => ((.read (read num s frames period).1, []), (read num s frames period).2)
  | .write steering motor =>
    let (ret, frames, s) := write num s steering motor
    ((.write ret, frames), s)
  | .command port value => ((.none, []), s.command port value)

/-- The component after an event. -/
def step (e : Event K) : System K := (respond num s e).2

end Runs

/-! ## A concrete component

Zero packs as four zero bytes, and the concrete runs of this development
send no other number; they read no angle. `pi` is the constant `M_PI`. -/

def sampleNumerics : Numerics ℚ :=
  ⟨fun _ => Vector.replicate 4 0, fun _ => 0, id, id, mkRat 884279719003555 281474976710656⟩

/-- One whose wheels have a thousand counts to a turn. -/
def sampleSystem : System ℚ := .init sampleNumerics 1000

end Ackermann

end VehicleStack
