import VehicleStack.Ackermann.Reads
import Mathlib.Algebra.CharZero.Defs
import Mathlib.Data.List.Induction
import Mathlib.Tactic.NormNum

/-!
# The drive — sensor frames that are too short

A sensor frame of fewer than eight bytes is refused by its unpack function,
and `read_sensor_values` does not look at the answer: it takes what stands
in the message it has not initialised for a reading. Each source's frames
overwrite each other, so this shows exactly where the last frame of a
source is short (`short_inert_iff`).
-/

namespace VehicleStack

namespace Ackermann

/-- The identifiers the loop decodes. -/
def SENSOR_FRAME_IDS : List ℕ :=
  [VELOCITY_FEEDBACK_FRAME_ID, STEERING_FEEDBACK_FRAME_ID, IMU_ACCEL_FRAME_ID,
    IMU_GYRO_FLAGS_FRAME_ID]

/-- A sensor frame that its unpack function refuses. -/
def CanFrame.Short (f : CanFrame) : Prop := f.canId ∈ SENSOR_FRAME_IDS ∧ ¬ f.WellFormed

instance {f : CanFrame} : Decidable f.Short := inferInstanceAs (Decidable (_ ∧ _))

/-- The frames without those. -/
def withoutShort (frames : List Received) : List Received := frames.filter fun r => ¬ r.frame.Short

/-- What `read_sensor_values` gives its caller, and the transport it leaves. -/
structure Outputs (K : Type) where
  status : SensorStatus
  lEnc : ℤ
  rEnc : ℤ
  accel : Vec3 K
  gyro : Vec3 K
  isImuReset : Bool
  steerFb : SteeringFeedback K
  canComms : CanComms

section Short

variable {K : Type} [Field K]

def CanComms.outputs (num : Numerics K) (c : CanComms) (frames : List Received) : Outputs K :=
  let r := c.readSensorValues num frames
  ⟨r.1, r.2.1.lEnc, r.2.1.rEnc, r.2.1.accel, r.2.1.gyro, r.2.1.isImuReset, r.2.1.steerFb, r.2.2⟩

/-- Whatever the uninitialised messages hold, the short frames make no
difference. -/
def ShortInert (num : Numerics K) (c : CanComms) (frames : List CanFrame) : Prop :=
  ∀ received : List Received, received.map Received.frame = frames →
    c.outputs num received = c.outputs num (withoutShort received)

/-- The last frame of the identifier, if there is one. -/
def lastOf (i : ℕ) (frames : List CanFrame) : Option CanFrame :=
  (frames.filter fun f => f.canId = i).getLast?

/-- Each source has spoken last in a full frame. -/
def LastFull (frames : List CanFrame) : Prop :=
  ∀ i ∈ SENSOR_FRAME_IDS, ∀ f ∈ lastOf i frames, f.WellFormed

variable {num : Numerics K} {c : CanComms} {frames : List Received} {i : ℕ} {α : Type*}

/-! ## Sources that overwrite their part -/

/-- `π` is what the frames of one identifier write, each of them anew, and a
full one whatever the message held. -/
structure Overwrites (num : Numerics K) (i : ℕ) (π : Drain K → α) (put : Received → α) : Prop where
  write : ∀ d r, r.frame.canId = i → π (Drain.take num d r) = put r
  keep : ∀ d r, r.frame.canId ≠ i → π (Drain.take num d r) = π d
  full : ∀ (f : CanFrame) x y, f.WellFormed → put ⟨f, x⟩ = put ⟨f, y⟩

/-- **What is left of it** is what the last of them wrote. -/
theorem Overwrites.drained_eq {π : Drain K → α} {put : Received → α} (h : Overwrites num i π put)
    (frames : List Received) : π (drained num frames) =
      (((frames.filter fun r => r.frame.canId = i).getLast?).map put).getD (π .init) := by
  induction frames using List.reverseRecOn with
  | nil => rfl
  | append_singleton frames r ih =>
    have hlast : drained num (frames ++ [r]) = Drain.take num (drained num frames) r := by
      simp only [drained, List.foldl_append, List.foldl_cons, List.foldl_nil]
    rw [hlast, List.filter_append]
    by_cases hid : r.frame.canId = i
    · have hone : ([r].filter fun r => r.frame.canId = i) = [r] := by simp [hid]
      rw [h.write _ r hid, hone, List.getLast?_concat]
      rfl
    · have hone : ([r].filter fun r => r.frame.canId = i) = [] := by simp [hid]
      rw [h.keep _ r hid, hone, List.append_nil, ih]

/-- A full frame is read for what it says. -/
theorem message_full {β : Type} {ofData : Data → β} {f : CanFrame} {x : Data} (h : f.WellFormed) :
    Received.message ofData ⟨f, x⟩ = ofData f.data := Received.message_of_wellFormed h

theorem overwrites_encoder (num : Numerics K) : Overwrites num VELOCITY_FEEDBACK_FRAME_ID
    (fun d => (d.gotEnc, d.lEnc, d.rEnc)) fun r =>
      let msg := r.message VelocityFeedback.ofData
      (true, msg.leftTicks, msg.rightTicks) where
  write d r hid := by
    simp only [Drain.take, hid, if_true]
  keep d r hid := by
    simp only [Drain.take, hid, if_false]
    repeat' split
    all_goals rfl
  full f x y hwf := by
    simp only [message_full hwf]

theorem overwrites_steering (num : Numerics K) : Overwrites num STEERING_FEEDBACK_FRAME_ID
    Drain.steerFb fun r =>
      let msg := r.message (SteeringFeedbackMsg.ofData num)
      ⟨msg.steeringAngle, msg.atTarget == 1, msg.potFault == 1, msg.outOfRange == 1,
        msg.saturated == 1, true⟩ where
  write d r hid := by
    simp only [Drain.take, hid]
    rfl
  keep d r hid := by
    simp only [Drain.take, hid, if_false]
    repeat' split
    all_goals rfl
  full f x y hwf := by
    simp only [message_full hwf]

theorem overwrites_accel (num : Numerics K) : Overwrites num IMU_ACCEL_FRAME_ID
    (fun d => (d.gotImu1, d.seq1, d.accel)) fun r =>
      let msg := r.message ImuAccel.ofData
      (true, msg.sequence, ⟨milli msg.accelX, milli msg.accelY, milli msg.accelZ⟩) where
  write d r hid := by
    simp only [Drain.take, hid]
    rfl
  keep d r hid := by
    simp only [Drain.take, hid, if_false]
    repeat' split
    all_goals rfl
  full f x y hwf := by
    simp only [message_full hwf]

theorem overwrites_gyro (num : Numerics K) : Overwrites num IMU_GYRO_FLAGS_FRAME_ID
    (fun d => (d.gotImu2, d.seq2, d.gyro, d.isImuReset)) fun r =>
      let msg := r.message ImuGyroFlags.ofData
      (true, msg.sequence, ⟨milli msg.gyroX, milli msg.gyroY, milli msg.gyroZ⟩,
        msg.imuReset == 1) where
  write d r hid := by
    simp only [Drain.take, hid]
    rfl
  keep d r hid := by
    simp only [Drain.take, hid, if_false]
    repeat' split
    all_goals rfl
  full f x y hwf := by
    simp only [message_full hwf]

/-! ## Full frames last -/

/-- The last frame of the identifier, as it was handed over. -/
def lastReceived (i : ℕ) (frames : List Received) : Option Received :=
  (frames.filter fun r => r.frame.canId = i).getLast?

theorem lastReceived_frame : (lastReceived i frames).map Received.frame =
    lastOf i (frames.map Received.frame) := by
  rw [lastReceived, lastOf, List.filter_map, List.getLast?_map]
  rfl

/-- A last element that is kept is the last of what is kept. -/
theorem getLast?_filter {β : Type*} {xs : List β} {x : β} {p : β → Bool} (h : xs.getLast? = some x)
    (hp : p x) : (xs.filter p).getLast? = some x := by
  obtain ⟨front, rfl⟩ := List.getLast?_eq_some_iff.1 h
  rw [List.filter_append, List.filter_cons_of_pos hp, List.filter_nil]
  exact List.getLast?_concat

/-- Where the last frame of a source is full, it is the last without the
short frames too. -/
theorem lastReceived_withoutShort
    (h : ∀ r ∈ lastReceived i frames, r.frame.WellFormed) :
    lastReceived i (withoutShort frames) = lastReceived i frames := by
  have hswap : (withoutShort frames).filter (fun r => r.frame.canId = i) =
      (frames.filter fun r => r.frame.canId = i).filter fun r => ¬ r.frame.Short := by
    simp only [withoutShort, List.filter_filter, Bool.and_comm]
  rw [lastReceived, hswap]
  cases hlast : lastReceived i frames with
  | none =>
    rw [lastReceived, List.getLast?_eq_none_iff] at hlast
    rw [hlast]
    rfl
  | some r =>
    have hfull : r.frame.WellFormed := h r hlast
    exact getLast?_filter hlast (by simp [CanFrame.Short, hfull])

/-- So the part it writes is the same. -/
theorem Overwrites.withoutShort_eq {π : Drain K → α} {put : Received → α}
    (h : Overwrites num i π put) (hfull : ∀ r ∈ lastReceived i frames, r.frame.WellFormed) :
    π (drained num (withoutShort frames)) = π (drained num frames) := by
  rw [h.drained_eq, h.drained_eq]
  show ((lastReceived i (withoutShort frames)).map put).getD _ =
    ((lastReceived i frames).map put).getD _
  rw [lastReceived_withoutShort hfull]

/-- **Where every source has spoken last in a full frame**, the locals are
the same all together. -/
theorem drained_withoutShort
    (h : ∀ i ∈ SENSOR_FRAME_IDS, ∀ r ∈ lastReceived i frames, r.frame.WellFormed) :
    drained num (withoutShort frames) = drained num frames := by
  have hmem : VELOCITY_FEEDBACK_FRAME_ID ∈ SENSOR_FRAME_IDS ∧
      STEERING_FEEDBACK_FRAME_ID ∈ SENSOR_FRAME_IDS ∧ IMU_ACCEL_FRAME_ID ∈ SENSOR_FRAME_IDS ∧
      IMU_GYRO_FLAGS_FRAME_ID ∈ SENSOR_FRAME_IDS := by decide
  have hencoder := (overwrites_encoder num).withoutShort_eq (h _ hmem.1)
  have hsteering := (overwrites_steering num).withoutShort_eq (h _ hmem.2.1)
  have haccel := (overwrites_accel num).withoutShort_eq (h _ hmem.2.2.1)
  have hgyro := (overwrites_gyro num).withoutShort_eq (h _ hmem.2.2.2)
  simp only [Prod.mk.injEq] at hencoder haccel hgyro
  cases hd : drained num frames
  cases hd' : drained num (withoutShort frames)
  simp only [hd, hd'] at hencoder hsteering haccel hgyro
  obtain ⟨rfl, rfl, rfl⟩ := hencoder
  obtain rfl := hsteering
  obtain ⟨rfl, rfl, rfl⟩ := haccel
  obtain ⟨rfl, rfl, rfl, rfl⟩ := hgyro
  rfl

/-- What is given to the caller is read off the locals. -/
theorem outputs_congr {frames' : List Received} (h : drained num frames = drained num frames') :
    c.outputs num frames = c.outputs num frames' := by
  have hfold : frames.foldl (Drain.take num) .init = frames'.foldl (Drain.take num) .init := h
  simp only [CanComms.outputs, CanComms.readSensorValues, hfold]

/-! ## A short frame last -/

/-- The frames as handed over where every message held these bytes. -/
def heldBy (x : Data) (frames : List CanFrame) : List Received := frames.map fun f => ⟨f, x⟩

theorem lastReceived_heldBy (x : Data) (fs : List CanFrame) :
    lastReceived i (heldBy x fs) = (lastOf i fs).map fun f => ⟨f, x⟩ := by
  rw [lastReceived, heldBy, lastOf, List.filter_map, List.getLast?_map]
  rfl

theorem withoutShort_heldBy (x : Data) (fs : List CanFrame) :
    withoutShort (heldBy x fs) = heldBy x (fs.filter fun f => ¬ f.Short) := by
  rw [withoutShort, heldBy, heldBy, List.filter_map]
  rfl

/-- **Where the short frames make no difference**, what the last frame of a
source puts in its part does not depend on what the message held. -/
theorem Overwrites.put_eq {β : Type*} {π : Drain K → α} {put : Received → α}
    (h : Overwrites num i π put) (hi : i ∈ SENSOR_FRAME_IDS) (shown : Outputs K → β) (part : α → β)
    (hshown : ∀ rs, shown (c.outputs num rs) = part (π (drained num rs))) {fs : List CanFrame}
    (hinert : ShortInert num c fs) {f : CanFrame} (hf : f ∈ lastOf i fs) (x y : Data) :
    part (put ⟨f, x⟩) = part (put ⟨f, y⟩) := by
  have hput : ∀ x, part (put ⟨f, x⟩) =
      part (π (drained num (withoutShort (heldBy x fs)))) := by
    intro x
    have hframes : (heldBy x fs).map Received.frame = fs := by
      rw [heldBy, List.map_map]
      exact List.map_id fs
    have hlast : lastReceived i (heldBy x fs) = some ⟨f, x⟩ := by
      rw [lastReceived_heldBy, Option.mem_def.1 hf]
      rfl
    have hpart : π (drained num (heldBy x fs)) = put ⟨f, x⟩ := by
      rw [h.drained_eq]
      show ((lastReceived i (heldBy x fs)).map put).getD _ = _
      rw [hlast]
      rfl
    rw [← hpart, ← hshown, ← hshown, hinert _ hframes]
  -- without the short frames the last one is full
  have hsame : π (drained num (withoutShort (heldBy x fs))) =
      π (drained num (withoutShort (heldBy y fs))) := by
    rw [h.drained_eq, h.drained_eq, withoutShort_heldBy, withoutShort_heldBy]
    show ((lastReceived i _).map put).getD _ = ((lastReceived i _).map put).getD _
    rw [lastReceived_heldBy, lastReceived_heldBy]
    cases hlast : lastOf i (fs.filter fun f => ¬ f.Short) with
    | none => rfl
    | some g =>
      have hmem : g ∈ (fs.filter fun f => ¬ f.Short).filter fun f => f.canId = i :=
        List.mem_of_getLast? hlast
      simp only [List.mem_filter, decide_eq_true_eq] at hmem
      have hfull : g.WellFormed := by
        by_contra hshort
        exact hmem.1.2 ⟨hmem.2 ▸ hi, hshort⟩
      exact h.full g x y hfull
  rw [hput x, hput y, hsame]

/-- A short one is read for what the message held. -/
theorem message_short {β : Type} {ofData : Data → β} {f : CanFrame} {x : Data}
    (h : ¬ f.WellFormed) : Received.message ofData ⟨f, x⟩ = ofData x := by
  rw [Received.message, unpack, if_pos (Nat.not_le.1 h)]
  rfl

/-- A message that no source reads as zeros. -/
def otherBytes : Data := #v[1, 0, 0, 0, 1, 0, 1, 0]

/-- **A source in which two messages show** has spoken last in a full
frame, where the short frames make no difference. -/
theorem Overwrites.wellFormed_of_inert {β : Type*} {π : Drain K → α} {put : Received → α}
    (h : Overwrites num i π put) (hi : i ∈ SENSOR_FRAME_IDS) (shown : Outputs K → β) (part : α → β)
    (hshown : ∀ rs, shown (c.outputs num rs) = part (π (drained num rs)))
    (hdiff : ∀ f : CanFrame, ¬ f.WellFormed →
      part (put ⟨f, Vector.replicate 8 0⟩) ≠ part (put ⟨f, otherBytes⟩))
    {fs : List CanFrame} (hinert : ShortInert num c fs) {f : CanFrame} (hf : f ∈ lastOf i fs) :
    f.WellFormed := by
  by_contra hshort
  exact hdiff f hshort (h.put_eq hi shown part hshown hinert hf _ _)

theorem milli_one_ne [CharZero K] : (milli 1 : K) ≠ milli 0 := by
  norm_num [milli]

variable [CharZero K]

/-- **When short frames are inert.** Whatever is drained, with any
identifiers, lengths and data, and whatever the uninitialised messages
hold, the outputs and the sequence state are those without the short
frames, if and only if each source's last frame, where it has one, is a
full one. -/
theorem short_inert_iff (num : Numerics K) (c : CanComms) (frames : List CanFrame) :
    ShortInert num c frames ↔ LastFull frames := by
  constructor
  · intro hinert i hi f hf
    have hone : i = VELOCITY_FEEDBACK_FRAME_ID ∨ i = STEERING_FEEDBACK_FRAME_ID ∨
        i = IMU_ACCEL_FRAME_ID ∨ i = IMU_GYRO_FLAGS_FRAME_ID := by
      simpa only [SENSOR_FRAME_IDS, List.mem_cons, List.not_mem_nil, or_false] using hi
    have hdrain : ∀ rs, (c.readSensorValues num rs).2.1 = drained num rs := fun rs =>
      (readSensorValues_fields num c rs).2.1
    -- of each source's part, one field that the two messages fill differently
    rcases hone with rfl | rfl | rfl | rfl
    · refine (overwrites_encoder num).wellFormed_of_inert hi Outputs.lEnc (fun a => a.2.1)
        (fun rs => congrArg Drain.lEnc (hdrain rs)) (fun f hshort hsame => ?_) hinert hf
      simp only [message_short hshort] at hsame
      exact absurd hsame (by decide)
    · refine (overwrites_steering num).wellFormed_of_inert hi (fun o => o.steerFb.atTarget)
        (fun a => a.atTarget) (fun rs => congrArg (fun d => d.steerFb.atTarget) (hdrain rs))
        (fun f hshort hsame => ?_) hinert hf
      simp only [message_short hshort] at hsame
      have hzero : (SteeringFeedbackMsg.ofData num (Vector.replicate 8 0)).atTarget = 0 := rfl
      have hone : (SteeringFeedbackMsg.ofData num otherBytes).atTarget = 1 := rfl
      rw [hzero, hone] at hsame
      exact absurd hsame (by decide)
    · refine (overwrites_accel num).wellFormed_of_inert hi (fun o => o.accel.x)
        (fun a => a.2.2.x) (fun rs => congrArg (fun d => d.accel.x) (hdrain rs))
        (fun f hshort hsame => ?_) hinert hf
      simp only [message_short hshort] at hsame
      have hzero : (ImuAccel.ofData (Vector.replicate 8 0)).accelX = 0 := by decide
      have hone : (ImuAccel.ofData otherBytes).accelX = 1 := by decide
      rw [hzero, hone] at hsame
      exact milli_one_ne hsame.symm
    · refine (overwrites_gyro num).wellFormed_of_inert hi Outputs.isImuReset
        (fun a => a.2.2.2) (fun rs => congrArg Drain.isImuReset (hdrain rs))
        (fun f hshort hsame => ?_) hinert hf
      simp only [message_short hshort] at hsame
      exact absurd hsame (by decide)
  · intro hfull received hreceived
    refine outputs_congr (drained_withoutShort fun i hi r hr => ?_).symm
    refine hfull i hi r.frame ?_
    rw [← hreceived, ← lastReceived_frame, Option.mem_def.1 hr]
    rfl

end Short

/-- An encoder report cut to four bytes. -/
def cutReport : CanFrame := { velocityFeedback 1 1 with canDlc := 4 }

/-- **It counts as a report**, and so do the counts nobody sent. -/
theorem cutReport_counts : ¬ ShortInert sampleNumerics .init [cutReport] := by
  intro h
  have hsame := h [cutReport.received] rfl
  have henc : (CanComms.outputs sampleNumerics .init [cutReport.received]).status.enc = true := rfl
  have hnone : withoutShort [cutReport.received] = [] := by decide
  rw [hsame, hnone] at henc
  exact absurd henc (by decide)

/-- Followed by a whole one it is forgotten. -/
theorem short_inert_followed : ShortInert sampleNumerics .init [cutReport, velocityFeedback 1 1] :=
  (short_inert_iff sampleNumerics .init _).2 (by unfold LastFull; decide)

end Ackermann

end VehicleStack
