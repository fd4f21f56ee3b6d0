import VehicleStack.Ackermann.Model
import VehicleStack.Common.LittleEndian

/-!
# The generated code of the frames

`v_pace_db.c` as it is written: machine words, shifts and masks, and
destinations that are read and written byte by byte, with the part of
`can_comms.cpp` that calls it. A `float` is its four bytes in memory, and
memory is little-endian. The fields that a message holds before it is
written are whatever they are.
-/

namespace VehicleStack

namespace Ackermann

namespace Generated

def EINVAL : ℤ := 22

/-! ## Shifts and masks

An operand narrower than an `int` is one before it is shifted. -/

def packLeftShiftU8 (value shift mask : UInt8) : UInt8 :=
  (value.toUInt32 <<< shift.toUInt32).toUInt8 &&& mask

def packLeftShiftU32 (value : UInt32) (shift mask : UInt8) : UInt8 :=
  (value <<< shift.toUInt32).toUInt8 &&& mask

def packRightShiftU32 (value : UInt32) (shift mask : UInt8) : UInt8 :=
  (value >>> shift.toUInt32).toUInt8 &&& mask

def unpackLeftShiftU16 (value shift mask : UInt8) : UInt16 :=
  ((value &&& mask).toUInt16.toUInt32 <<< shift.toUInt32).toUInt16

def unpackLeftShiftU32 (value shift mask : UInt8) : UInt32 :=
  (value &&& mask).toUInt32 <<< shift.toUInt32

def unpackRightShiftU8 (value shift mask : UInt8) : UInt8 :=
  ((value &&& mask).toUInt32 >>> shift.toUInt32).toUInt8

def unpackRightShiftU16 (value shift mask : UInt8) : UInt16 :=
  ((value &&& mask).toUInt16.toUInt32 >>> shift.toUInt32).toUInt16

def unpackRightShiftU32 (value shift mask : UInt8) : UInt32 :=
  (value &&& mask).toUInt32 >>> shift.toUInt32

/-! ## Memory -/

/-- A `float` in memory. -/
abbrev FloatBytes := Vector UInt8 4

/-- `memcpy` into a word. -/
def load (bytes : FloatBytes) : UInt32 := .ofNat (LittleEndian.ofLE bytes.toList)

/-- `memcpy` out of a word. -/
def store (word : UInt32) : FloatBytes :=
  ⟨(LittleEndian.toLE 4 word.toNat).toArray, by simp⟩

/-- `dst_p[i] = byte`, and `dst_p[i] |= byte`. -/
def putAt (dst : Data) (i : Fin 8) (byte : UInt8) : Data := dst.set i byte

def orInto (dst : Data) (i : Fin 8) (byte : UInt8) : Data := putAt dst i (dst.get i ||| byte)

/-- The four of them that a word takes, from byte `i` on. -/
def packWord (dst : Data) (i0 i1 i2 i3 : Fin 8) (word : UInt32) : Data :=
  let dst := orInto dst i0 (packLeftShiftU32 word 0 0xff)
  let dst := orInto dst i1 (packRightShiftU32 word 8 0xff)
  let dst := orInto dst i2 (packRightShiftU32 word 16 0xff)
  orInto dst i3 (packRightShiftU32 word 24 0xff)

/-- A word out of four bytes. -/
def unpackWord (b0 b1 b2 b3 : UInt8) : UInt32 :=
  let word := unpackRightShiftU32 b0 0 0xff
  let word := word ||| unpackLeftShiftU32 b1 8 0xff
  let word := word ||| unpackLeftShiftU32 b2 16 0xff
  word ||| unpackLeftShiftU32 b3 24 0xff

/-- A half word out of two. -/
def unpackHalf (b0 b1 : UInt8) : UInt16 :=
  let half := unpackRightShiftU16 b0 0 0xff
  half ||| unpackLeftShiftU16 b1 8 0xff

/-! ## Packing -/

/-- `v_pace_db_velocity_command_pack`. -/
def velocityCommandPack (dst : Data) (left_vel_setpoint right_vel_setpoint : FloatBytes)
    (size : ℕ) : ℤ × Data :=
  if size < 8 then (-EINVAL, dst)
  else
    let dst : Data := .replicate 8 0
    let dst := packWord dst 0 1 2 3 (load left_vel_setpoint)
    let dst := packWord dst 4 5 6 7 (load right_vel_setpoint)
    (8, dst)

/-- `v_pace_db_steering_command_pack`. -/
def steeringCommandPack (dst : Data) (steering_setpoint : FloatBytes) (size : ℕ) : ℤ × Data :=
  if size < 8 then (-EINVAL, dst)
  else
    let dst : Data := .replicate 8 0
    let dst := packWord dst 0 1 2 3 (load steering_setpoint)
    (8, dst)

/-- `v_pace_db_reset_command_pack`. Only the first byte is cleared. -/
def resetCommandPack (dst : Data) (reset : UInt8) (size : ℕ) : ℤ × Data :=
  if size < 1 then (-EINVAL, dst)
  else
    let dst := putAt dst 0 0
    let dst := orInto dst 0 (packLeftShiftU8 reset 0 0xff)
    (1, dst)

/-- `struct can_frame frame {}`, filled by what packs into its data. -/
def filled (can_id can_dlc : ℕ) (pack : Data → ℕ → ℤ × Data) : CanFrame :=
  ⟨can_id, can_dlc, (pack (.replicate 8 0) 8).2⟩

/-! ## Unpacking -/

/-- `v_pace_db_velocity_feedback_t`. -/
structure VelocityFeedbackT where
  leftTicks : Int32
  rightTicks : Int32

/-- `v_pace_db_steering_feedback_t`. -/
structure SteeringFeedbackT where
  steeringAngle : FloatBytes
  atTarget : UInt8
  potFault : UInt8
  outOfRange : UInt8
  saturated : UInt8

/-- `v_pace_db_imu_accel_t`. -/
structure ImuAccelT where
  accelX : Int16
  accelY : Int16
  accelZ : Int16
  sequence : UInt8
  reserved : UInt8

/-- `v_pace_db_imu_gyro_flags_t`. -/
structure ImuGyroFlagsT where
  gyroX : Int16
  gyroY : Int16
  gyroZ : Int16
  imuReset : UInt8
  sequence : UInt8

/-- `v_pace_db_velocity_feedback_unpack`. -/
def velocityFeedbackUnpack (dst : VelocityFeedbackT) (src : Data) (size : ℕ) :
    ℤ × VelocityFeedbackT :=
  if size < 8 then (-EINVAL, dst)
  else
    let left_ticks := unpackWord (src.get 0) (src.get 1) (src.get 2) (src.get 3)
    let right_ticks := unpackWord (src.get 4) (src.get 5) (src.get 6) (src.get 7)
    (0, ⟨left_ticks.toInt32, right_ticks.toInt32⟩)

/-- `v_pace_db_steering_feedback_unpack`. -/
def steeringFeedbackUnpack (dst : SteeringFeedbackT) (src : Data) (size : ℕ) :
    ℤ × SteeringFeedbackT :=
  if size < 8 then (-EINVAL, dst)
  else
    let steering_angle := unpackWord (src.get 0) (src.get 1) (src.get 2) (src.get 3)
    (0,
      { steeringAngle := store steering_angle
        atTarget := unpackRightShiftU8 (src.get 4) 0 0x01
        potFault := unpackRightShiftU8 (src.get 4) 1 0x02
        outOfRange := unpackRightShiftU8 (src.get 4) 2 0x04
        saturated := unpackRightShiftU8 (src.get 4) 3 0x08 })

/-- `v_pace_db_imu_accel_unpack`. -/
def imuAccelUnpack (dst : ImuAccelT) (src : Data) (size : ℕ) : ℤ × ImuAccelT :=
  if size < 8 then (-EINVAL, dst)
  else
    let accel_x := unpackHalf (src.get 0) (src.get 1)
    let accel_y := unpackHalf (src.get 2) (src.get 3)
    let accel_z := unpackHalf (src.get 4) (src.get 5)
    (0,
      { accelX := accel_x.toInt16
        accelY := accel_y.toInt16
        accelZ := accel_z.toInt16
        sequence := unpackRightShiftU8 (src.get 6) 0 0xff
        reserved := unpackRightShiftU8 (src.get 7) 0 0xff })

/-- `v_pace_db_imu_gyro_flags_unpack`. -/
def imuGyroFlagsUnpack (dst : ImuGyroFlagsT) (src : Data) (size : ℕ) : ℤ × ImuGyroFlagsT :=
  if size < 8 then (-EINVAL, dst)
  else
    let gyro_x := unpackHalf (src.get 0) (src.get 1)
    let gyro_y := unpackHalf (src.get 2) (src.get 3)
    let gyro_z := unpackHalf (src.get 4) (src.get 5)
    (0,
      { gyroX := gyro_x.toInt16
        gyroY := gyro_y.toInt16
        gyroZ := gyro_z.toInt16
        imuReset := unpackRightShiftU8 (src.get 6) 0 0xff
        sequence := unpackRightShiftU8 (src.get 7) 0 0xff })

/-- What the message of a pass of the loop happens to hold, in each of its
types. -/
structure Uninitialised where
  velocity : VelocityFeedbackT
  steering : SteeringFeedbackT
  accel : ImuAccelT
  gyro : ImuGyroFlagsT

section Reading

variable {K : Type} [Field K] (num : Numerics K)

/-- A pass of the loop in `read_sensor_values`. What `unpack` returns is not
looked at. -/
def take (d : Drain K) (pass : CanFrame × Uninitialised) : Drain K :=
  let frame := pass.1
  if frame.canId = VELOCITY_FEEDBACK_FRAME_ID then
    let msg := (velocityFeedbackUnpack pass.2.velocity frame.data frame.canDlc).2
    { d with lEnc := msg.leftTicks.toInt, rEnc := msg.rightTicks.toInt, gotEnc := true }
  else if frame.canId = STEERING_FEEDBACK_FRAME_ID then
    let msg := (steeringFeedbackUnpack pass.2.steering frame.data frame.canDlc).2
    { d with steerFb := ⟨num.unpackFloat msg.steeringAngle, msg.atTarget == 1, msg.potFault == 1,
        msg.outOfRange == 1, msg.saturated == 1, true⟩ }
  else if frame.canId = IMU_ACCEL_FRAME_ID then
    let msg := (imuAccelUnpack pass.2.accel frame.data frame.canDlc).2
    { d with accel := ⟨milli msg.accelX.toInt, milli msg.accelY.toInt, milli msg.accelZ.toInt⟩
             seq1 := msg.sequence, gotImu1 := true }
  else if frame.canId = IMU_GYRO_FLAGS_FRAME_ID then
    let msg := (imuGyroFlagsUnpack pass.2.gyro frame.data frame.canDlc).2
    { d with gyro := ⟨milli msg.gyroX.toInt, milli msg.gyroY.toInt, milli msg.gyroZ.toInt⟩
             isImuReset := msg.imuReset == 1, seq2 := msg.sequence, gotImu2 := true }
  else d

/-- `read_sensor_values`, of the frames that are queued. -/
def readSensorValues (c : CanComms) (passes : List (CanFrame × Uninitialised)) :
    SensorStatus × Drain K × CanComms :=
  let d := passes.foldl (take num) .init
  if d.gotImu1 && d.gotImu2 && d.seq1 == d.seq2 then
    if !c.seqInitialized || d.seq1 != c.expectedSeq then
      (⟨d.gotEnc, true, false⟩, d, { c with expectedSeq := d.seq1, seqInitialized := true })
    else (⟨d.gotEnc, false, true⟩, d, c)
  else (⟨d.gotEnc, false, false⟩, d, c)

end Reading

/-! ## Sending -/

section Sending

variable {K : Type} (num : Numerics K) (c : CanComms)

def sendHardwareReset (outcome : WriteOutcome) : Bool × List CanFrame × CanComms :=
  c.send (filled RESET_COMMAND_FRAME_ID RESET_COMMAND_LENGTH fun data size =>
    resetCommandPack data 1 size) outcome

def setMotorValues (left_vel right_vel : K) (outcome : WriteOutcome) :
    Bool × List CanFrame × CanComms :=
  c.send (filled VELOCITY_COMMAND_FRAME_ID VELOCITY_COMMAND_LENGTH fun data size =>
    velocityCommandPack data (num.packFloat left_vel) (num.packFloat right_vel) size) outcome

def setSteering (steer_angle : K) (outcome : WriteOutcome) : Bool × List CanFrame × CanComms :=
  c.send (filled STEERING_COMMAND_FRAME_ID STEERING_COMMAND_LENGTH fun data size =>
    steeringCommandPack data (num.packFloat steer_angle) size) outcome

end Sending

end Generated

end Ackermann

end VehicleStack
