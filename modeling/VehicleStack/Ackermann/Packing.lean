import VehicleStack.Ackermann.Generated

/-!
# The generated code of the frames — against the frames

The words, shifts and masks of `v_pace_db.c` come to the frames and the
messages that the drive is modelled with: what is sent is the same
(`same_sends`), and so is what a drain of the socket can find, messages that
are left unwritten included (`same_reads`).
-/

namespace VehicleStack

namespace Ackermann

namespace Generated

open LittleEndian

variable {b b0 b1 b2 b3 : UInt8} {word : UInt32} {bytes : FloatBytes}

/-! ## Words -/

theorem and_mask : b &&& 0xff = b := by
  rw [← UInt8.toNat_inj, UInt8.toNat_and]
  exact Nat.and_two_pow_sub_one_eq_mod b.toNat 8 |>.trans (Nat.mod_eq_of_lt b.toNat_lt)

/-- A byte in its place. -/
theorem toNat_unpackLeftShiftU32 {shift : UInt8} (h : shift.toNat ≤ 24) :
    (unpackLeftShiftU32 b shift 0xff).toNat = b.toNat <<< shift.toNat := by
  have hb := b.toNat_lt
  have hpow : 2 ^ shift.toNat ≤ 2 ^ 24 := Nat.pow_le_pow_right (by omega) h
  have hlt : b.toNat * 2 ^ shift.toNat < 2 ^ 32 := by
    calc b.toNat * 2 ^ shift.toNat ≤ 255 * 2 ^ 24 := Nat.mul_le_mul (by omega) hpow
      _ < 2 ^ 32 := by decide
  have hshift : shift.toNat % 32 = shift.toNat := Nat.mod_eq_of_lt (by omega)
  rw [unpackLeftShiftU32, and_mask, UInt32.toNat_shiftLeft, UInt8.toNat_toUInt32,
    UInt8.toNat_toUInt32, hshift, Nat.shiftLeft_eq, Nat.mod_eq_of_lt hlt]

theorem toNat_unpackRightShiftU32 : (unpackRightShiftU32 b 0 0xff).toNat = b.toNat := by
  rw [unpackRightShiftU32, and_mask, UInt32.toNat_shiftRight, UInt8.toNat_toUInt32]
  rfl

/-- A field within a byte. -/
theorem unpackRightShiftU8_eq {shift mask : UInt8} (h : shift.toNat < 8) :
    unpackRightShiftU8 b shift mask = (b &&& mask) >>> shift := by
  have hlt : (b &&& mask).toNat >>> shift.toNat < 2 ^ 8 :=
    Nat.lt_of_le_of_lt (Nat.shiftRight_le ..) (UInt8.toNat_lt _)
  have hshift : shift.toNat % 32 = shift.toNat := Nat.mod_eq_of_lt (by omega)
  rw [unpackRightShiftU8, ← UInt8.toNat_inj, UInt32.toNat_toUInt8, UInt32.toNat_shiftRight,
    UInt8.toNat_toUInt32, UInt8.toNat_toUInt32, hshift, UInt8.toNat_shiftRight,
    Nat.mod_eq_of_lt h, Nat.mod_eq_of_lt hlt]

theorem unpackRightShiftU8_byte : unpackRightShiftU8 b 0 0xff = b := by
  rw [unpackRightShiftU8_eq (by decide), and_mask, UInt8.shiftRight_zero]

/-- **A word of four bytes.** -/
theorem toNat_unpackWord : (unpackWord b0 b1 b2 b3).toNat = le32 b0 b1 b2 b3 := by
  have h0 : b0.toNat < 2 ^ 8 := b0.toNat_lt
  have h1 : b1.toNat < 2 ^ 8 := b1.toNat_lt
  have h2 : b2.toNat < 2 ^ 8 := b2.toNat_lt
  unfold unpackWord
  dsimp only
  rw [UInt32.toNat_or, UInt32.toNat_or, UInt32.toNat_or, toNat_unpackRightShiftU32,
    toNat_unpackLeftShiftU32 (by decide), toNat_unpackLeftShiftU32 (by decide),
    toNat_unpackLeftShiftU32 (by decide)]
  change b0.toNat ||| b1.toNat <<< 8 ||| b2.toNat <<< 16 ||| b3.toNat <<< 24 = _
  rw [or_shiftLeft h0, or_shiftLeft (k := 16) (by omega), or_shiftLeft (k := 24) (by omega)]
  rfl

theorem toNat_unpackHalf : (unpackHalf b0 b1).toNat = le16 b0 b1 := by
  have h0 : b0.toNat < 2 ^ 8 := b0.toNat_lt
  have h1 : b1.toNat < 2 ^ 8 := b1.toNat_lt
  have hlow : (unpackRightShiftU16 b0 0 0xff).toNat = b0.toNat := by
    rw [unpackRightShiftU16, and_mask, UInt32.toNat_toUInt16, UInt32.toNat_shiftRight,
      UInt16.toNat_toUInt32, UInt8.toNat_toUInt16]
    change b0.toNat % 2 ^ 16 = _
    omega
  have hhigh : (unpackLeftShiftU16 b1 8 0xff).toNat = b1.toNat <<< 8 := by
    rw [unpackLeftShiftU16, and_mask, UInt32.toNat_toUInt16, UInt32.toNat_shiftLeft,
      UInt16.toNat_toUInt32, UInt8.toNat_toUInt16]
    change b1.toNat <<< 8 % 2 ^ 32 % 2 ^ 16 = _
    rw [Nat.shiftLeft_eq]
    omega
  rw [unpackHalf, UInt16.toNat_or, hlow, hhigh, or_shiftLeft h0]
  rfl

theorem toInt_toInt32 : word.toInt32.toInt = int32 word.toNat :=
  BitVec.toInt_eq_toNat_bmod word.toBitVec

theorem toInt_toInt16 {half : UInt16} : half.toInt16.toInt = int16 half.toNat :=
  BitVec.toInt_eq_toNat_bmod half.toBitVec

/-- **A word in four bytes.** -/
theorem store_load : store (load bytes) = bytes := by
  have hlt : ofLE bytes.toList < 2 ^ 32 := by
    have h := ofLE_lt bytes.toList
    rwa [Vector.length_toList] at h
  have hword : (load bytes).toNat = ofLE bytes.toList := by
    rw [load, UInt32.toNat_ofNat', Nat.mod_eq_of_lt hlt]
  have hbytes := toLE_ofLE bytes.toList
  rw [Vector.length_toList] at hbytes
  have hstore : (store (load bytes)).toList = toLE 4 (load bytes).toNat := rfl
  rw [← Vector.toList_inj, hstore, hword, hbytes]

theorem exists_bytes (v : FloatBytes) : ∃ a b c d, v = #v[a, b, c, d] := by
  obtain ⟨⟨l⟩, hl⟩ := v
  match l, hl with
  | [a, b, c, d], _ => exact ⟨a, b, c, d, rfl⟩

/-- **A word of memory**, byte by byte. -/
theorem toNat_load : (load bytes).toNat =
    le32 (bytes.get 0) (bytes.get 1) (bytes.get 2) (bytes.get 3) := by
  obtain ⟨a, b, c, d, rfl⟩ := exists_bytes bytes
  have ha := a.toNat_lt
  have hb := b.toNat_lt
  have hc := c.toNat_lt
  have hd := d.toNat_lt
  have hsum : ofLE (#v[a, b, c, d] : FloatBytes).toList =
    a.toNat + 256 * (b.toNat + 256 * (c.toNat + 256 * (d.toNat + 256 * 0))) := rfl
  rw [load, UInt32.toNat_ofNat', hsum]
  change _ = a.toNat + b.toNat * 0x100 + c.toNat * 0x10000 + d.toNat * 0x1000000
  omega

theorem store_unpackWord : store (unpackWord b0 b1 b2 b3) = #v[b0, b1, b2, b3] := by
  have hword : unpackWord b0 b1 b2 b3 = load #v[b0, b1, b2, b3] := by
    rw [← UInt32.toNat_inj, toNat_unpackWord, toNat_load]
    rfl
  rw [hword, store_load]

/-- The bytes that are packed are those of memory. -/
theorem packWord_load (bytes : FloatBytes) :
    packLeftShiftU32 (load bytes) 0 0xff = bytes.get 0 ∧
      packRightShiftU32 (load bytes) 8 0xff = bytes.get 1 ∧
      packRightShiftU32 (load bytes) 16 0xff = bytes.get 2 ∧
      packRightShiftU32 (load bytes) 24 0xff = bytes.get 3 := by
  have h0 := (bytes.get 0).toNat_lt
  have h1 := (bytes.get 1).toNat_lt
  have h2 := (bytes.get 2).toNat_lt
  have h3 := (bytes.get 3).toNat_lt
  have hright : ∀ shift : UInt8, (packRightShiftU32 (load bytes) shift 0xff).toNat =
      (load bytes).toNat / 2 ^ (shift.toNat % 32) % 256 := by
    intro shift
    rw [packRightShiftU32, and_mask, UInt32.toNat_toUInt8, UInt32.toNat_shiftRight,
      UInt8.toNat_toUInt32, Nat.shiftRight_eq_div_pow]
  have hleft : (packLeftShiftU32 (load bytes) 0 0xff).toNat = (load bytes).toNat % 256 := by
    rw [packLeftShiftU32, and_mask, UInt32.toNat_toUInt8, UInt32.toNat_shiftLeft]
    change (load bytes).toNat % 2 ^ 32 % 2 ^ 8 = _
    omega
  refine ⟨UInt8.toNat_inj.1 ?_, UInt8.toNat_inj.1 ?_, UInt8.toNat_inj.1 ?_, UInt8.toNat_inj.1 ?_⟩
  · rw [hleft, toNat_load, le32]
    omega
  · rw [hright, toNat_load, le32]
    change _ / 2 ^ 8 % 256 = _
    omega
  · rw [hright, toNat_load, le32]
    change _ / 2 ^ 16 % 256 = _
    omega
  · rw [hright, toNat_load, le32]
    change _ / 2 ^ 24 % 256 = _
    omega

/-! ## Sending -/

theorem velocityCommandPack_eq {dst : Data} {left right : FloatBytes} :
    velocityCommandPack dst left right 8 = (8, left ++ right) := by
  obtain ⟨hl0, hl1, hl2, hl3⟩ := packWord_load left
  obtain ⟨hr0, hr1, hr2, hr3⟩ := packWord_load right
  rw [velocityCommandPack, if_neg (by decide)]
  dsimp only [packWord]
  rw [hl0, hl1, hl2, hl3, hr0, hr1, hr2, hr3]
  obtain ⟨a, b, c, d, rfl⟩ := exists_bytes left
  obtain ⟨a', b', c', d', rfl⟩ := exists_bytes right
  change ((8 : ℤ), (#v[0 ||| a, 0 ||| b, 0 ||| c, 0 ||| d, 0 ||| a', 0 ||| b', 0 ||| c',
    0 ||| d'] : Data)) = _
  simp only [UInt8.zero_or]
  rfl

theorem steeringCommandPack_eq {dst : Data} :
    steeringCommandPack dst bytes 8 = (8, bytes ++ (#v[0, 0, 0, 0] : Vector UInt8 4)) := by
  obtain ⟨h0, h1, h2, h3⟩ := packWord_load bytes
  rw [steeringCommandPack, if_neg (by decide)]
  dsimp only [packWord]
  rw [h0, h1, h2, h3]
  obtain ⟨a, b, c, d, rfl⟩ := exists_bytes bytes
  change ((8 : ℤ), (#v[0 ||| a, 0 ||| b, 0 ||| c, 0 ||| d, 0, 0, 0, 0] : Data)) = _
  simp only [UInt8.zero_or]
  rfl

/-- **The same frames are sent.** -/
theorem same_sends {K : Type} (num : Numerics K) (c : CanComms) (outcome : WriteOutcome) :
    sendHardwareReset c outcome = c.sendHardwareReset outcome ∧
      (∀ left_vel right_vel, setMotorValues num c left_vel right_vel outcome =
        c.setMotorValues num left_vel right_vel outcome) ∧
      ∀ steer_angle, setSteering num c steer_angle outcome =
        c.setSteering num steer_angle outcome := by
  refine ⟨rfl, fun left_vel right_vel => ?_, fun steer_angle => ?_⟩
  · rw [setMotorValues, filled, velocityCommandPack_eq]
    rfl
  · rw [setSteering, filled, steeringCommandPack_eq]
    rfl

/-! ## Reading -/

/-- An `unpack` function against what is read off the data: it leaves a
message as it is where the data are short, and what is left is something that
some data would be read as. -/
structure Unpacks {T α : Type} (unpackT : T → Data → ℕ → ℤ × T) (view : T → α)
    (ofData : Data → α) : Prop where
  short : ∀ u src size, size < 8 → (unpackT u src size).2 = u
  full : ∀ u src size, ¬ size < 8 → view (unpackT u src size).2 = ofData src
  left : ∀ u, ∃ leftover, view u = ofData leftover

section Unpacks

variable {T α : Type} {unpackT : T → Data → ℕ → ℤ × T} {view : T → α} {ofData : Data → α}

theorem Unpacks.exists_leftover (h : Unpacks unpackT view ofData) (u : T) (frame : CanFrame) :
    ∃ leftover, view (unpackT u frame.data frame.canDlc).2 =
      (⟨frame, leftover⟩ : Received).message ofData := by
  obtain ⟨leftover, hleft⟩ := h.left u
  refine ⟨leftover, ?_⟩
  unfold Received.message unpack
  by_cases hsize : frame.canDlc < 8
  · rw [h.short _ _ _ hsize, if_pos hsize, hleft]
    rfl
  · rw [h.full _ _ _ hsize, if_neg hsize]
    rfl

theorem Unpacks.exists_uninitialised (h : Unpacks unpackT view ofData) (u : T) (r : Received) :
    ∃ u, view (unpackT u r.frame.data r.frame.canDlc).2 = r.message ofData := by
  refine ⟨(unpackT u r.leftover 8).2, ?_⟩
  unfold Received.message unpack
  by_cases hsize : r.frame.canDlc < 8
  · rw [h.short _ _ _ hsize, if_pos hsize, h.full _ _ _ (Nat.lt_irrefl 8)]
    rfl
  · rw [h.full _ _ _ hsize, if_neg hsize]
    rfl

end Unpacks

def VelocityFeedbackT.msg (t : VelocityFeedbackT) : VelocityFeedback :=
  ⟨t.leftTicks.toInt, t.rightTicks.toInt⟩

def ImuAccelT.msg (t : ImuAccelT) : ImuAccel :=
  ⟨t.accelX.toInt, t.accelY.toInt, t.accelZ.toInt, t.sequence⟩

def ImuGyroFlagsT.msg (t : ImuGyroFlagsT) : ImuGyroFlags :=
  ⟨t.gyroX.toInt, t.gyroY.toInt, t.gyroZ.toInt, t.imuReset, t.sequence⟩

/-- What `read_sensor_values` makes of the message. -/
def feedback {K : Type} (m : SteeringFeedbackMsg K) : SteeringFeedback K :=
  ⟨m.steeringAngle, m.atTarget == 1, m.potFault == 1, m.outOfRange == 1, m.saturated == 1, true⟩

def SteeringFeedbackT.msg {K : Type} (num : Numerics K) (t : SteeringFeedbackT) :
    SteeringFeedbackMsg K :=
  ⟨num.unpackFloat t.steeringAngle, t.atTarget, t.potFault, t.outOfRange, t.saturated⟩

theorem exists_word (x : Int32) : ∃ b0 b1 b2 b3, int32 (le32 b0 b1 b2 b3) = x.toInt :=
  ⟨_, _, _, _, int32_bytes32.trans x.toBitVec.toInt_bmod_cancel⟩

theorem exists_half (x : Int16) : ∃ b0 b1, int16 (le16 b0 b1) = x.toInt := by
  have hlt := x.toBitVec.isLt
  refine ⟨UInt8.ofNat x.toBitVec.toNat, UInt8.ofNat (x.toBitVec.toNat / 256), ?_⟩
  have hsum : le16 (UInt8.ofNat x.toBitVec.toNat) (UInt8.ofNat (x.toBitVec.toNat / 256)) =
      x.toBitVec.toNat := by
    rw [le16, UInt8.toNat_ofNat', UInt8.toNat_ofNat']
    omega
  rw [hsum]
  exact (BitVec.toInt_eq_toNat_bmod x.toBitVec).symm

/-- A byte with the flags as they are. -/
theorem exists_flags (t : SteeringFeedbackT) : ∃ b : UInt8,
    (b &&& 0x01 == 1) = (t.atTarget == 1) ∧ ((b &&& 0x02) >>> 1 == 1) = (t.potFault == 1) ∧
      ((b &&& 0x04) >>> 2 == 1) = (t.outOfRange == 1) ∧
      ((b &&& 0x08) >>> 3 == 1) = (t.saturated == 1) := by
  refine ⟨(bif t.atTarget == 1 then 0x01 else 0) ||| (bif t.potFault == 1 then 0x02 else 0) |||
    (bif t.outOfRange == 1 then 0x04 else 0) ||| (bif t.saturated == 1 then 0x08 else 0), ?_⟩
  generalize (t.atTarget == 1) = p
  generalize (t.potFault == 1) = q
  generalize (t.outOfRange == 1) = r
  generalize (t.saturated == 1) = s
  cases p <;> cases q <;> cases r <;> cases s <;> decide

theorem velocity_unpacks :
    Unpacks velocityFeedbackUnpack VelocityFeedbackT.msg VelocityFeedback.ofData where
  short u src size h := by rw [velocityFeedbackUnpack, if_pos h]
  full u src size h := by
    rw [velocityFeedbackUnpack, if_neg h]
    dsimp only [VelocityFeedbackT.msg]
    rw [toInt_toInt32, toInt_toInt32, toNat_unpackWord, toNat_unpackWord]
    rfl
  left u := by
    obtain ⟨a, b, c, d, hleft⟩ := exists_word u.leftTicks
    obtain ⟨a', b', c', d', hright⟩ := exists_word u.rightTicks
    refine ⟨#v[a, b, c, d, a', b', c', d'], ?_⟩
    rw [VelocityFeedbackT.msg, ← hleft, ← hright]
    rfl

theorem accel_unpacks : Unpacks imuAccelUnpack ImuAccelT.msg ImuAccel.ofData where
  short u src size h := by rw [imuAccelUnpack, if_pos h]
  full u src size h := by
    rw [imuAccelUnpack, if_neg h]
    dsimp only [ImuAccelT.msg]
    rw [toInt_toInt16, toInt_toInt16, toInt_toInt16, toNat_unpackHalf, toNat_unpackHalf,
      toNat_unpackHalf, unpackRightShiftU8_byte]
    rfl
  left u := by
    obtain ⟨a, b, hx⟩ := exists_half u.accelX
    obtain ⟨c, d, hy⟩ := exists_half u.accelY
    obtain ⟨e, f, hz⟩ := exists_half u.accelZ
    refine ⟨#v[a, b, c, d, e, f, u.sequence, u.reserved], ?_⟩
    rw [ImuAccelT.msg, ← hx, ← hy, ← hz]
    rfl

theorem gyro_unpacks : Unpacks imuGyroFlagsUnpack ImuGyroFlagsT.msg ImuGyroFlags.ofData where
  short u src size h := by rw [imuGyroFlagsUnpack, if_pos h]
  full u src size h := by
    rw [imuGyroFlagsUnpack, if_neg h]
    dsimp only [ImuGyroFlagsT.msg]
    rw [toInt_toInt16, toInt_toInt16, toInt_toInt16, toNat_unpackHalf, toNat_unpackHalf,
      toNat_unpackHalf, unpackRightShiftU8_byte, unpackRightShiftU8_byte]
    rfl
  left u := by
    obtain ⟨a, b, hx⟩ := exists_half u.gyroX
    obtain ⟨c, d, hy⟩ := exists_half u.gyroY
    obtain ⟨e, f, hz⟩ := exists_half u.gyroZ
    refine ⟨#v[a, b, c, d, e, f, u.imuReset, u.sequence], ?_⟩
    rw [ImuGyroFlagsT.msg, ← hx, ← hy, ← hz]
    rfl

/-- Of the steering report, it is the flags' being 1 that is looked at. -/
theorem steering_unpacks {K : Type} (num : Numerics K) :
    Unpacks steeringFeedbackUnpack (fun t => feedback (t.msg num))
      (fun d => feedback (.ofData num d)) where
  short u src size h := by rw [steeringFeedbackUnpack, if_pos h]
  full u src size h := by
    rw [steeringFeedbackUnpack, if_neg h]
    dsimp only [SteeringFeedbackT.msg]
    rw [store_unpackWord, unpackRightShiftU8_eq (by decide), unpackRightShiftU8_eq (by decide),
      unpackRightShiftU8_eq (by decide), unpackRightShiftU8_eq (by decide), UInt8.shiftRight_zero]
    rfl
  left u := by
    obtain ⟨a, b, c, d, hangle⟩ := exists_bytes u.steeringAngle
    obtain ⟨flags, hat, hpot, hrange, hsat⟩ := exists_flags u
    refine ⟨#v[a, b, c, d, flags, 0, 0, 0], ?_⟩
    unfold feedback SteeringFeedbackT.msg
    dsimp only
    rw [hangle, ← hat, ← hpot, ← hrange, ← hsat]
    rfl

theorem message_feedback {K : Type} {num : Numerics K} {r : Received} :
    r.message (fun d => feedback (.ofData num d)) =
      feedback (r.message (SteeringFeedbackMsg.ofData num)) := by
  unfold Received.message unpack
  split
  · rfl
  · rfl

section Passes

variable {K : Type} [Field K] (num : Numerics K)

/-- **Nothing else is read** than by the model, for some bytes left over. -/
theorem exists_leftover (pass : CanFrame × Uninitialised) : ∃ leftover : Data,
    ∀ d, take num d pass = d.take num ⟨pass.1, leftover⟩ := by
  unfold take Drain.take
  by_cases h1 : pass.1.canId = VELOCITY_FEEDBACK_FRAME_ID
  · obtain ⟨leftover, h⟩ := velocity_unpacks.exists_leftover pass.2.velocity pass.1
    refine ⟨leftover, fun d => ?_⟩
    rw [if_pos h1, if_pos h1, ← h]
    rfl
  by_cases h2 : pass.1.canId = STEERING_FEEDBACK_FRAME_ID
  · obtain ⟨leftover, h⟩ := (steering_unpacks num).exists_leftover pass.2.steering pass.1
    rw [message_feedback] at h
    refine ⟨leftover, fun d => ?_⟩
    rw [if_neg h1, if_pos h2, if_neg h1, if_pos h2]
    exact congrArg (fun fb => { d with steerFb := fb }) h
  by_cases h3 : pass.1.canId = IMU_ACCEL_FRAME_ID
  · obtain ⟨leftover, h⟩ := accel_unpacks.exists_leftover pass.2.accel pass.1
    refine ⟨leftover, fun d => ?_⟩
    rw [if_neg h1, if_neg h2, if_pos h3, if_neg h1, if_neg h2, if_pos h3, ← h]
    rfl
  by_cases h4 : pass.1.canId = IMU_GYRO_FLAGS_FRAME_ID
  · obtain ⟨leftover, h⟩ := gyro_unpacks.exists_leftover pass.2.gyro pass.1
    refine ⟨leftover, fun d => ?_⟩
    rw [if_neg h1, if_neg h2, if_neg h3, if_pos h4, if_neg h1, if_neg h2, if_neg h3, if_pos h4,
      ← h]
    rfl
  · refine ⟨pass.1.data, fun d => ?_⟩
    rw [if_neg h1, if_neg h2, if_neg h3, if_neg h4, if_neg h1, if_neg h2, if_neg h3, if_neg h4]

/-- **And nothing less**: what the bytes left over are read as, a message can
have held. -/
theorem exists_uninitialised (r : Received) : ∃ u : Uninitialised,
    ∀ d, take num d (r.frame, u) = d.take num r := by
  obtain ⟨velocity, hvelocity⟩ := velocity_unpacks.exists_uninitialised ⟨0, 0⟩ r
  obtain ⟨steering, hsteering⟩ :=
    (steering_unpacks num).exists_uninitialised ⟨.replicate 4 0, 0, 0, 0, 0⟩ r
  obtain ⟨accel, haccel⟩ := accel_unpacks.exists_uninitialised ⟨0, 0, 0, 0, 0⟩ r
  obtain ⟨gyro, hgyro⟩ := gyro_unpacks.exists_uninitialised ⟨0, 0, 0, 0, 0⟩ r
  rw [message_feedback] at hsteering
  refine ⟨⟨velocity, steering, accel, gyro⟩, fun d => ?_⟩
  unfold take Drain.take
  rw [← hvelocity, ← haccel, ← hgyro]
  dsimp only
  by_cases h2 : r.frame.canId = STEERING_FEEDBACK_FRAME_ID
  · rw [if_pos h2, if_pos h2]
    split
    · rfl
    · exact congrArg (fun fb => { d with steerFb := fb }) hsteering
  · rw [if_neg h2, if_neg h2]
    rfl

/-- **The same is read.** A drain of the socket can come to a result with the
code as it is generated if and only if it can with the frames as they are
modelled. -/
theorem same_reads (c : CanComms) (frames : List CanFrame)
    (result : SensorStatus × Drain K × CanComms) :
    (∃ passes, passes.map Prod.fst = frames ∧ readSensorValues num c passes = result) ↔
      ∃ rs, rs.map Received.frame = frames ∧ c.readSensorValues num rs = result := by
  constructor
  · rintro ⟨passes, rfl, rfl⟩
    choose leftover hleftover using exists_leftover num
    refine ⟨passes.map fun pass => ⟨pass.1, leftover pass⟩, ?_, ?_⟩
    · rw [List.map_map]
      rfl
    · unfold CanComms.readSensorValues readSensorValues
      rw [List.foldl_map]
      simp only [← hleftover]
  · rintro ⟨rs, rfl, rfl⟩
    choose u hu using exists_uninitialised num
    refine ⟨rs.map fun r => (r.frame, u r), ?_, ?_⟩
    · rw [List.map_map]
      rfl
    · unfold CanComms.readSensorValues readSensorValues
      rw [List.foldl_map]
      simp only [hu]

end Passes

end Generated

end Ackermann

end VehicleStack
