import Mathlib.Algebra.Field.Basic
import Mathlib.Data.Int.Cast.Basic

/-!
# The vehicle's CAN frames

`v_pace_db.h` and `v_pace_db.c`, as far as the drive uses them: the frame
identifiers, the two commands that are packed and the four reports that
are unpacked. Every field is little-endian. A report of fewer than eight
bytes is refused, and its message is left as it was; what the uninitialised
message then reads as comes with the frame (`Received.leftover`).
-/

namespace VehicleStack

namespace Ackermann

def VELOCITY_COMMAND_FRAME_ID : ℕ := 0x100
def VELOCITY_FEEDBACK_FRAME_ID : ℕ := 0x110
def STEERING_COMMAND_FRAME_ID : ℕ := 0x120
def STEERING_FEEDBACK_FRAME_ID : ℕ := 0x130
def RESET_COMMAND_FRAME_ID : ℕ := 0x140
def IMU_ACCEL_FRAME_ID : ℕ := 0x150
def IMU_GYRO_FLAGS_FRAME_ID : ℕ := 0x160

def VELOCITY_COMMAND_LENGTH : ℕ := 8
def STEERING_COMMAND_LENGTH : ℕ := 8
def RESET_COMMAND_LENGTH : ℕ := 1

/-- The eight bytes of a frame's data field. -/
abbrev Data := Vector UInt8 8

/-- `struct can_frame`. -/
structure CanFrame where
  canId : ℕ
  canDlc : ℕ
  data : Data
  deriving DecidableEq, Repr

/-- A frame as `read` hands it over, and what the bytes of an unwritten
message happen to be. -/
structure Received where
  frame : CanFrame
  leftover : Data
  deriving DecidableEq, Repr

/-- A frame handed over where the message held zeros. -/
def CanFrame.received (f : CanFrame) : Received := ⟨f, Vector.replicate 8 0⟩

/-- The numbers that travel in a `float`, and the functions of `<cmath>`. -/
structure Numerics (K : Type) where
  packFloat : K → Vector UInt8 4
  unpackFloat : Vector UInt8 4 → K
  tan : K → K
  atan : K → K
  pi : K

/-! ## Little-endian integers -/

/-- Four bytes, the least significant first. -/
def le32 (b0 b1 b2 b3 : UInt8) : ℕ :=
  b0.toNat + b1.toNat * 0x100 + b2.toNat * 0x10000 + b3.toNat * 0x1000000

/-- Two bytes. -/
def le16 (b0 b1 : UInt8) : ℕ := b0.toNat + b1.toNat * 0x100

/-- `(int32_t)`. -/
def int32 (n : ℤ) : ℤ := n.bmod 0x100000000

/-- `(int16_t)`. -/
def int16 (n : ℤ) : ℤ := n.bmod 0x10000

@[simp] theorem int32_int32 {n : ℤ} : int32 (int32 n) = int32 n := by
  unfold int32
  exact Int.bmod_bmod

/-- The four bytes of a 32-bit integer. -/
def bytes32 (n : ℤ) : Vector UInt8 4 :=
  let u := (n % 0x100000000).toNat
  #v[UInt8.ofNat u, UInt8.ofNat (u / 0x100), UInt8.ofNat (u / 0x10000), UInt8.ofNat (u / 0x1000000)]

/-- **What is packed as four bytes is read back.** -/
theorem int32_bytes32 {n : ℤ} :
    int32 (le32 (bytes32 n)[0] (bytes32 n)[1] (bytes32 n)[2] (bytes32 n)[3]) = int32 n := by
  have hlt : (n % 0x100000000).toNat < 0x100000000 := by omega
  have hle : le32 (bytes32 n)[0] (bytes32 n)[1] (bytes32 n)[2] (bytes32 n)[3] =
      (n % 0x100000000).toNat := by
    simp only [le32, bytes32, Vector.getElem_mk, List.getElem_toArray, List.getElem_cons_zero,
      List.getElem_cons_succ, UInt8.toNat_ofNat']
    omega
  have hcast : (((n % 0x100000000).toNat : ℕ) : ℤ) = n % 0x100000000 := by omega
  rw [hle, hcast]
  exact_mod_cast Int.emod_bmod n 0x100000000

/-! ## The commands -/

section Commands

variable {K : Type} (num : Numerics K)

/-- `v_pace_db_velocity_command_pack`, in its frame. -/
def velocityCommand (left_vel_setpoint right_vel_setpoint : K) : CanFrame :=
  ⟨VELOCITY_COMMAND_FRAME_ID, VELOCITY_COMMAND_LENGTH,
    num.packFloat left_vel_setpoint ++ num.packFloat right_vel_setpoint⟩

/-- `v_pace_db_steering_command_pack`, in its frame. -/
def steeringCommand (steering_setpoint : K) : CanFrame :=
  ⟨STEERING_COMMAND_FRAME_ID, STEERING_COMMAND_LENGTH,
    num.packFloat steering_setpoint ++ (#v[0, 0, 0, 0] : Vector UInt8 4)⟩

end Commands

/-- `v_pace_db_reset_command_pack` of `reset = 1`, in its frame. -/
def resetCommand : CanFrame :=
  ⟨RESET_COMMAND_FRAME_ID, RESET_COMMAND_LENGTH, #v[1, 0, 0, 0, 0, 0, 0, 0]⟩

/-! ## The reports -/

/-- `v_pace_db_velocity_feedback_t`. -/
structure VelocityFeedback where
  leftTicks : ℤ
  rightTicks : ℤ
  deriving DecidableEq, Repr

/-- `v_pace_db_steering_feedback_t`. -/
structure SteeringFeedbackMsg (K : Type) where
  steeringAngle : K
  atTarget : UInt8
  potFault : UInt8
  outOfRange : UInt8
  saturated : UInt8

/-- `v_pace_db_imu_accel_t`. -/
structure ImuAccel where
  accelX : ℤ
  accelY : ℤ
  accelZ : ℤ
  sequence : UInt8
  deriving DecidableEq, Repr

/-- `v_pace_db_imu_gyro_flags_t`. -/
structure ImuGyroFlags where
  gyroX : ℤ
  gyroY : ℤ
  gyroZ : ℤ
  imuReset : UInt8
  sequence : UInt8
  deriving DecidableEq, Repr

def VelocityFeedback.ofData (d : Data) : VelocityFeedback :=
  ⟨int32 (le32 d[0] d[1] d[2] d[3]), int32 (le32 d[4] d[5] d[6] d[7])⟩

/-- The frame that carries two counts. -/
def velocityFeedback (left_ticks right_ticks : ℤ) : CanFrame :=
  ⟨VELOCITY_FEEDBACK_FRAME_ID, 8, bytes32 left_ticks ++ bytes32 right_ticks⟩

/-- **The counts sent are the counts read**, in 32 bits. -/
theorem ofData_velocityFeedback {left_ticks right_ticks : ℤ} :
    VelocityFeedback.ofData (velocityFeedback left_ticks right_ticks).data =
      ⟨int32 left_ticks, int32 right_ticks⟩ := by
  have hsplit : VelocityFeedback.ofData (velocityFeedback left_ticks right_ticks).data =
      ⟨int32 (le32 (bytes32 left_ticks)[0] (bytes32 left_ticks)[1] (bytes32 left_ticks)[2]
          (bytes32 left_ticks)[3]),
        int32 (le32 (bytes32 right_ticks)[0] (bytes32 right_ticks)[1] (bytes32 right_ticks)[2]
          (bytes32 right_ticks)[3])⟩ := rfl
  rw [hsplit, int32_bytes32, int32_bytes32]

def SteeringFeedbackMsg.ofData {K : Type} (num : Numerics K) (d : Data) : SteeringFeedbackMsg K :=
  ⟨num.unpackFloat #v[d[0], d[1], d[2], d[3]], d[4] &&& 0x01, (d[4] &&& 0x02) >>> 1,
    (d[4] &&& 0x04) >>> 2, (d[4] &&& 0x08) >>> 3⟩

def ImuAccel.ofData (d : Data) : ImuAccel :=
  ⟨int16 (le16 d[0] d[1]), int16 (le16 d[2] d[3]), int16 (le16 d[4] d[5]), d[6]⟩

def ImuGyroFlags.ofData (d : Data) : ImuGyroFlags :=
  ⟨int16 (le16 d[0] d[1]), int16 (le16 d[2] d[3]), int16 (le16 d[4] d[5]), d[6], d[7]⟩

/-- The `unpack` functions: `-EINVAL` is `none`. -/
def unpack {α : Type} (ofData : Data → α) (src : Data) (size : ℕ) : Option α :=
  if size < 8 then none else some (ofData src)

/-- The message after an `unpack`, written or not. -/
def Received.message {α : Type} (ofData : Data → α) (r : Received) : α :=
  (unpack ofData r.frame.data r.frame.canDlc).getD (ofData r.leftover)

/-- A frame that carries its eight bytes. -/
def CanFrame.WellFormed (f : CanFrame) : Prop := 8 ≤ f.canDlc

instance {f : CanFrame} : Decidable f.WellFormed := inferInstanceAs (Decidable (8 ≤ f.canDlc))

/-- What a full frame says does not depend on what was there before. -/
theorem Received.message_of_wellFormed {α : Type} {ofData : Data → α} {r : Received}
    (h : r.frame.WellFormed) : r.message ofData = ofData r.frame.data := by
  rw [Received.message, unpack, if_neg (Nat.not_lt.2 h), Option.getD_some]

end Ackermann

end VehicleStack
