import Mathlib.Algebra.BigOperators.Group.List.Basic
import VehicleStack.Ackermann.Odometry
import VehicleStack.Ackermann.Sources

/-!
# The drive — the gyroscope's zero

After an activation the first accepted samples are let go by, the next
unflagged ones are averaged, and the average is taken off every sample from
then on. This file says what that comes to in terms of the accepted samples
alone (`zOffset`, `rateAfter`), and that the settle counter, the sample
counter, the sum and the mode between them compute just this, whatever else
happens in the session (`gyro_calibration`).
-/

namespace VehicleStack

namespace Ackermann

/-- An accepted sample: the raw z rate, and the reset flag. -/
structure Sample (K : Type) where
  z : K
  reset : Bool
  deriving DecidableEq, Repr

section Spec

variable {K : Type} [Field K]

/-- The samples that count: those after the first `settle`, without the
flag. -/
def usable (settle : ℕ) (xs : List (Sample K)) : List (Sample K) :=
  (xs.drop settle).filter fun x => !x.reset

/-- There are enough of them. -/
def Calibrated (settle : ℕ) (xs : List (Sample K)) : Prop :=
  IMU_CALIBRATION_SAMPLES ≤ (usable settle xs).length

instance {settle : ℕ} {xs : List (Sample K)} : Decidable (Calibrated settle xs) :=
  inferInstanceAs (Decidable (_ ≤ _))

/-- The mean of the first `IMU_CALIBRATION_SAMPLES` of them. -/
def zOffset (settle : ℕ) (xs : List (Sample K)) : K :=
  if Calibrated settle xs then
    (((usable settle xs).take IMU_CALIBRATION_SAMPLES).map Sample.z).sum / IMU_CALIBRATION_SAMPLES
  else 0

/-- The rate after a sample that came when `xs` had come. -/
def rateAfter (settle : ℕ) (xs : List (Sample K)) (x : Sample K) : K :=
  if ¬ Calibrated settle xs ∨ x.reset then 0 else x.z - zOffset settle xs

/-- The rate after all of `xs`, where it was `z` before. -/
def exportedRate (settle : ℕ) (z : K) (xs : List (Sample K)) : K :=
  match xs.getLast? with
  | none => z
  | some x => rateAfter settle xs.dropLast x

variable {settle : ℕ} {z : K} {xs ys : List (Sample K)} {x : Sample K}

omit [Field K] in
theorem usable_append : usable settle (xs ++ ys) =
    usable settle xs ++ usable (settle - xs.length) ys := by
  rw [usable, List.drop_append, List.filter_append]
  rfl

omit [Field K] in
/-- While the settling lasts, a sample goes by. -/
theorem usable_snoc_settling (h : xs.length < settle) :
    usable settle (xs ++ [x]) = usable settle xs := by
  have hdrop : [x].drop (settle - xs.length) = [] :=
    List.drop_of_length_le (by rw [List.length_singleton]; omega)
  rw [usable_append]
  simp [usable, hdrop]

omit [Field K] in
theorem usable_snoc (h : settle ≤ xs.length) : usable settle (xs ++ [x]) =
    if x.reset then usable settle xs else usable settle xs ++ [x] := by
  rw [usable_append, Nat.sub_eq_zero_of_le h]
  cases hreset : x.reset <;> simp [usable, hreset]

@[simp] theorem exportedRate_nil : exportedRate settle z [] = z := rfl

@[simp] theorem exportedRate_snoc :
    exportedRate settle z (xs ++ [x]) = rateAfter settle xs x := by
  simp [exportedRate]

omit [Field K] in
theorem not_calibrated_nil : ¬ Calibrated settle ([] : List (Sample K)) := by
  simp [Calibrated, usable, IMU_CALIBRATION_SAMPLES]

omit [Field K] in
/-- Samples that count do not stop counting. -/
theorem Calibrated.append (h : Calibrated settle xs) (ys : List (Sample K)) :
    Calibrated settle (xs ++ ys) := by
  rw [Calibrated, usable_append, List.length_append]
  exact Nat.le_add_right_of_le h

/-- **The offset stands** once there is one. -/
theorem zOffset_append (h : Calibrated settle xs) (ys : List (Sample K)) :
    zOffset settle (xs ++ ys) = zOffset settle xs := by
  rw [zOffset, zOffset, if_pos h, if_pos (h.append ys), usable_append,
    List.take_append_of_le_length h]

end Spec

section Runs

variable {K : Type} [Field K] [LinearOrder K] (num : Numerics K)

/-- The sample an event brings, if it is a read that accepts one. -/
def acceptedSample (s : System K) : Event K → Option (Sample K)
  | .read frames _ =>
    let r := s.canComms.readSensorValues num frames
    if s.canComms.connected && r.1.imu then some ⟨r.2.1.gyro.z, r.2.1.isImuReset⟩ else none
  | _ => none

/-- The samples a run accepts. -/
def acceptedSamples (s : System K) (es : List (Event K)) : List (Sample K) :=
  Run.shown (step num) (acceptedSample num) s es

def Event.isActivate : Event K → Bool
  | .activate .. => true
  | _ => false

end Runs

section Calibration

variable {K : Type} [Field K] [LinearOrder K] {num : Numerics K} {s s' : System K} {e : Event K}
  {settle : ℕ} {z : K} {xs : List (Sample K)} {x : Sample K}

omit [LinearOrder K] in
/-- The IMU part looks at nothing but the IMU. -/
theorem imu_readImu_congr {d : Drain K} (h : s.imu = s'.imu) :
    (readImu s d).imu = (readImu s' d).imu := by
  simp only [System.imu, ImuState.mk.injEq] at h
  simp only [readImu, h]
  repeat' split
  all_goals simp [System.imu]

/-- **A read that accepts a sample** does its IMU part with it. -/
theorem imu_of_accepted (h : acceptedSample num s e = some x) : ∃ d : Drain K,
    d.gyro.z = x.z ∧ d.isImuReset = x.reset ∧ (step num s e).imu = (readImu s d).imu := by
  cases e with
  | configure | cleanup | activate | deactivate | write | command => cases h
  | read frames period =>
    simp only [acceptedSample, Option.ite_none_right_eq_some, Bool.and_eq_true,
      Option.some.injEq] at h
    obtain ⟨⟨hconn, himu⟩, rfl⟩ := h
    refine ⟨_, rfl, rfl, ?_⟩
    show (read num s frames period).2.imu = _
    simp only [read, hconn, Bool.not_true, Bool.false_eq_true, if_false, himu, if_true]
    exact (sameImu_readOdometry ..).imu.trans
      (imu_readImu_congr (sameImu_readSteering num _).imu)

/-- **Everything else but an activation** leaves the IMU as it is. -/
theorem imu_of_other (he : e.isActivate = false) (h : acceptedSample num s e = none) :
    (step num s e).imu = s.imu := by
  cases e with
  | configure connects => rfl
  | cleanup => rfl
  | activate => cases he
  | deactivate motor steering => exact (sameImu_deactivate motor steering).imu
  | write steering motor => exact (sameImu_write steering motor).imu
  | command port value => exact (sameImu_command port value).imu
  | read frames period =>
    simp only [acceptedSample, ite_eq_right_iff, reduceCtorEq, imp_false] at h
    show (read num s frames period).2.imu = _
    cases hconn : s.canComms.connected with
    | false => rw [read_of_closed num frames period hconn]
    | true =>
      have himu : (s.canComms.readSensorValues num frames).1.imu = false := by
        simpa [hconn] using h
      simp only [read, hconn, Bool.not_true, Bool.false_eq_true, if_false, himu]
      exact (sameImu_readOdometry ..).imu.trans (sameImu_readSteering num _).imu

/-- The component has calibrated by the samples `xs` and nothing else. -/
structure Calibrates (settle : ℕ) (z : K) (xs : List (Sample K)) (s : System K) : Prop where
  settling : s.activationSettleCycles = settle - xs.length
  calibrating : s.isImuCalibrating = decide (¬ Calibrated settle xs)
  count : ¬ Calibrated settle xs → s.imuCalibrationSampleCount = (usable settle xs).length
  sum : ¬ Calibrated settle xs → s.imuGyroZSum = ((usable settle xs).map Sample.z).sum
  offset : s.imuGyroZOffset = zOffset settle xs
  rate : s.imuGyro.z = exportedRate settle z xs

omit [LinearOrder K] in
theorem Calibrates.congr (h : Calibrates settle z xs s) (himu : s'.imu = s.imu) :
    Calibrates settle z xs s' := by
  simp only [System.imu, ImuState.mk.injEq] at himu
  obtain ⟨-, hgyro, -, hmode, hcount, hsum, hoffset, hsettle⟩ := himu
  refine ⟨?_, ?_, fun hnot => ?_, fun hnot => ?_, ?_, ?_⟩
  · rw [hsettle, h.settling]
  · rw [hmode, h.calibrating]
  · rw [hcount, h.count hnot]
  · rw [hsum, h.sum hnot]
  · rw [hoffset, h.offset]
  · rw [hgyro, h.rate]

omit [LinearOrder K] in
/-- **A sample that the average leaves out**, before there is an offset. -/
theorem Calibrates.leaveOut (h : Calibrates settle z xs s) (hcal : ¬ Calibrated settle xs)
    (husable : usable settle (xs ++ [x]) = usable settle xs)
    (hsettle : s'.activationSettleCycles = s.activationSettleCycles - 1)
    (hmode : s'.isImuCalibrating = s.isImuCalibrating)
    (hcount : s'.imuCalibrationSampleCount = s.imuCalibrationSampleCount)
    (hsum : s'.imuGyroZSum = s.imuGyroZSum) (hoffset : s'.imuGyroZOffset = s.imuGyroZOffset)
    (hrate : s'.imuGyro.z = 0) : Calibrates settle z (xs ++ [x]) s' := by
  have hcal' : ¬ Calibrated settle (xs ++ [x]) := by rwa [Calibrated, husable]
  refine ⟨?_, ?_, fun _ => ?_, fun _ => ?_, ?_, ?_⟩
  · rw [hsettle, h.settling, List.length_append, List.length_singleton, Nat.sub_sub]
  · rw [hmode, h.calibrating]
    simp [hcal, hcal']
  · rw [hcount, husable, h.count hcal]
  · rw [hsum, husable, h.sum hcal]
  · rw [hoffset, h.offset, zOffset, zOffset, if_neg hcal, if_neg hcal']
  · rw [hrate, exportedRate_snoc, rateAfter, if_pos (Or.inl hcal)]

omit [LinearOrder K] in
/-- **A sample that it takes in**: the last one makes it the offset. -/
theorem Calibrates.takeIn (h : Calibrates settle z xs s) (hcal : ¬ Calibrated settle xs)
    (husable : usable settle (xs ++ [x]) = usable settle xs ++ [x])
    (hsettle : s'.activationSettleCycles = 0) (hdone : settle ≤ xs.length)
    (hcount : s'.imuCalibrationSampleCount = s.imuCalibrationSampleCount + 1)
    (hsum : s'.imuGyroZSum = s.imuGyroZSum + x.z)
    (hmode : s'.isImuCalibrating =
      decide (¬ IMU_CALIBRATION_SAMPLES ≤ s.imuCalibrationSampleCount + 1))
    (hoffset : s'.imuGyroZOffset =
      if IMU_CALIBRATION_SAMPLES ≤ s.imuCalibrationSampleCount + 1 then
        s'.imuGyroZSum / IMU_CALIBRATION_SAMPLES
      else s.imuGyroZOffset)
    (hrate : s'.imuGyro.z = 0) : Calibrates settle z (xs ++ [x]) s' := by
  have hlen : (usable settle (xs ++ [x])).length = s.imuCalibrationSampleCount + 1 := by
    rw [husable, List.length_append, List.length_singleton, h.count hcal]
  have htotal : ((usable settle (xs ++ [x])).map Sample.z).sum = s'.imuGyroZSum := by
    rw [husable, List.map_append, List.sum_append, hsum, h.sum hcal]
    simp
  have hiff : Calibrated settle (xs ++ [x]) ↔
      IMU_CALIBRATION_SAMPLES ≤ s.imuCalibrationSampleCount + 1 := by
    rw [Calibrated, hlen]
  have htake : (usable settle (xs ++ [x])).take IMU_CALIBRATION_SAMPLES =
      usable settle (xs ++ [x]) := by
    have hfew : (usable settle xs).length < IMU_CALIBRATION_SAMPLES := not_le.1 hcal
    rw [← h.count hcal] at hfew
    exact List.take_of_length_le (hlen.trans_le hfew)
  refine ⟨?_, ?_, fun _ => ?_, fun _ => htotal.symm, ?_, ?_⟩
  · rw [hsettle, List.length_append, List.length_singleton]
    omega
  · simp only [hmode, hiff]
  · rw [hcount, hlen]
  · simp only [hoffset, zOffset, hiff, htake, htotal]
    split
    · rfl
    · rw [h.offset, zOffset, if_neg hcal]
  · rw [hrate, exportedRate_snoc, rateAfter, if_pos (Or.inl hcal)]

omit [LinearOrder K] in
/-- **One more sample.** -/
theorem Calibrates.accept (h : Calibrates settle z xs s) {d : Drain K} (hz : d.gyro.z = x.z)
    (hreset : d.isImuReset = x.reset) : Calibrates settle z (xs ++ [x]) (readImu s d) := by
  by_cases hcal : Calibrated settle xs
  · -- the offset stands, and the counters are looked at no more
    have hmode : s.isImuCalibrating = false := by simpa [hcal] using h.calibrating
    have hcal' := hcal.append [x]
    have hzero : settle - xs.length = 0 := by
      by_contra hpos
      have hnil : xs.drop settle = [] := List.drop_of_length_le (by omega)
      simp [Calibrated, usable, hnil, IMU_CALIBRATION_SAMPLES] at hcal
    simp only [readImu, hmode, Bool.false_eq_true, if_false]
    refine ⟨?_, ?_, fun hnot => absurd hcal' hnot, fun hnot => absurd hcal' hnot, ?_, ?_⟩
    · have hsettle := h.settling
      rw [List.length_append, List.length_singleton]
      split <;> simp only <;> omega
    · split <;> simp [hcal']
    · rw [zOffset_append hcal]
      split <;> exact h.offset
    · rw [exportedRate_snoc, rateAfter, hreset, hz, h.offset]
      cases x.reset <;> simp [hcal]
  · have hmode : s.isImuCalibrating = true := by simpa [hcal] using h.calibrating
    simp only [readImu, hmode, if_true, hreset, hz]
    rcases Nat.lt_or_ge xs.length settle with hlt | hle
    · -- still settling
      have hpos : 0 < s.activationSettleCycles := by
        rw [h.settling]
        omega
      rw [if_pos hpos]
      exact h.leaveOut hcal (usable_snoc_settling hlt) rfl hmode.symm rfl rfl rfl rfl
    · have hzero : s.activationSettleCycles = 0 := by
        rw [h.settling]
        omega
      have husable := usable_snoc (x := x) hle
      rw [if_neg (by rw [hzero]; exact lt_irrefl 0)]
      cases hflag : x.reset with
      | true =>
        rw [hflag, if_pos rfl] at husable
        exact h.leaveOut hcal husable (by simp [hzero]) (by simp [hmode]) rfl rfl rfl rfl
      | false =>
        rw [hflag, if_neg Bool.false_ne_true] at husable
        simp only [Bool.not_false, if_true]
        by_cases hlast : IMU_CALIBRATION_SAMPLES ≤ s.imuCalibrationSampleCount + 1
        · rw [if_pos hlast]
          exact h.takeIn hcal husable hzero hle rfl rfl (by simp [hlast]) (by rw [if_pos hlast]) rfl
        · rw [if_neg hlast]
          exact h.takeIn hcal husable hzero hle rfl rfl (by simp [hlast])
            (by rw [if_neg hlast]) rfl

omit [LinearOrder K] in
variable (num) in
/-- An activation begins anew, with the rate as it was. -/
theorem Calibrates.activate (reset steering : WriteOutcome) (h : s.canComms.connected = true) :
    Calibrates ACTIVATION_SETTLE_CYCLES s.imuGyro.z [] (onActivate num s reset steering).2.2 := by
  simp only [onActivate, h, Bool.not_true, Bool.false_eq_true, if_false]
  refine ⟨rfl, ?_, fun _ => rfl, fun _ => rfl, ?_, rfl⟩
  · simp [not_calibrated_nil]
  · rw [zOffset, if_neg not_calibrated_nil]

variable (num) in
/-- **One event of a session.** -/
theorem Calibrates.event (h : Calibrates settle z xs s) (he : e.isActivate = false) :
    Calibrates settle z (xs ++ (acceptedSample num s e).toList) (step num s e) := by
  cases hx : acceptedSample num s e with
  | none =>
    rw [Option.toList_none, List.append_nil]
    exact h.congr (imu_of_other he hx)
  | some x =>
    obtain ⟨d, hz, hreset, himu⟩ := imu_of_accepted hx
    exact (h.accept hz hreset).congr himu

variable (num) in
/-- **A whole session.** -/
theorem Calibrates.run {es : List (Event K)} (h : Calibrates settle z xs s)
    (hes : ∀ e ∈ es, e.isActivate = false) :
    Calibrates settle z (xs ++ acceptedSamples num s es) (Run.run (step num) s es) := by
  refine Run.inv_shown (P := fun _ e => e.isActivate = false)
    (J := fun tr s => Calibrates settle z (xs ++ tr) s) ?_ ?_ ?_ (Run.along_of_forall hes)
  · intro tr s e hJ he ho
    simpa [ho] using hJ.event num he
  · intro tr s e o hJ he ho
    simpa [ho] using hJ.event num he
  · rwa [List.append_nil]

/-- **Gyro calibration over a whole session.** After an activation the
offset and the exported rate are what the accepted samples make them, a
cycle without one leaves the IMU as it is, and an offset once there stays
until the next activation. -/
theorem gyro_calibration (num : Numerics K) (s : System K) (reset steering : WriteOutcome)
    (es : List (Event K)) (hconn : s.canComms.connected = true)
    (hes : ∀ e ∈ es, e.isActivate = false) :
    let s₀ := (onActivate num s reset steering).2.2
    let xs := acceptedSamples num s₀ es
    let s' := Run.run (step num) s₀ es
    s'.imuGyroZOffset = zOffset ACTIVATION_SETTLE_CYCLES xs ∧
      s'.imuGyro.z = exportedRate ACTIVATION_SETTLE_CYCLES s.imuGyro.z xs ∧
      (∀ e : Event K, e.isActivate = false → acceptedSample num s' e = none →
        (step num s' e).imu = s'.imu) ∧
      (Calibrated ACTIVATION_SETTLE_CYCLES xs → ∀ es' : List (Event K),
        (∀ e ∈ es', e.isActivate = false) →
          (Run.run (step num) s' es').imuGyroZOffset = s'.imuGyroZOffset) := by
  intro s₀ xs s'
  have hall : Calibrates ACTIVATION_SETTLE_CYCLES s.imuGyro.z xs s' := by
    simpa using (Calibrates.activate num reset steering hconn).run num hes
  refine ⟨hall.offset, hall.rate, fun e he hx => imu_of_other he hx, fun hcal es' hes' => ?_⟩
  rw [(hall.run num hes').offset, hall.offset, zOffset_append hcal]

end Calibration

/-- A sample of the IMU as its two frames: `z` thousandths about the z
axis, and the number `seq`. -/
def imuPair (z seq : UInt8) : List Received :=
  [CanFrame.received ⟨IMU_ACCEL_FRAME_ID, 8, #v[0, 0, 0, 0, 0, 0, seq, 0]⟩,
    CanFrame.received ⟨IMU_GYRO_FLAGS_FRAME_ID, 8, #v[0, 0, 0, 0, z, 0, 0, seq]⟩]

/-- The same with the reset flag up. -/
def imuResetPair (z seq : UInt8) : List Received :=
  [CanFrame.received ⟨IMU_ACCEL_FRAME_ID, 8, #v[0, 0, 0, 0, 0, 0, seq, 0]⟩,
    CanFrame.received ⟨IMU_GYRO_FLAGS_FRAME_ID, 8, #v[0, 0, 0, 0, z, 0, 1, seq]⟩]

/-- The IMU settles, resets once and is at rest for the samples of the
average; then the vehicle turns. -/
def restThenTurn : List (Event ℚ) :=
  (List.range ACTIVATION_SETTLE_CYCLES).map (fun n => .read (imuPair 50 (.ofNat n)) (1 / 30)) ++
    .read (imuResetPair 90 255) (1 / 30) ::
      (List.range IMU_CALIBRATION_SAMPLES).map (fun n => .read (imuPair 7 (.ofNat n)) (1 / 30)) ++
    [.read (imuPair 100 254) (1 / 30)]

/-- The drift at rest is taken off the rate of the turn, and is taken off
still after a lapse and one more reset. -/
theorem gyro_calibration_restThenTurn :
    let s₀ := (onActivate sampleNumerics sampleConnected none none).2.2
    let s' := Run.run (step sampleNumerics) s₀ restThenTurn
    s'.imuGyroZOffset = 0.007 ∧ s'.imuGyro.z = 0.093 ∧
      (Run.run (step sampleNumerics) s' [.read [] (1 / 30),
        .read (imuResetPair 0 1) (1 / 30)]).imuGyroZOffset = 0.007 := by
  dsimp only
  have hsession : ∀ e ∈ restThenTurn, e.isActivate = false := by
    simp [restThenTurn, Event.isActivate, or_imp, forall_and]
  obtain ⟨hoffset, hrate, -, hstands⟩ := gyro_calibration sampleNumerics sampleConnected none none
    restThenTurn rfl hsession
  refine ⟨?_, ?_, ?_⟩
  · rw [hoffset]
    decide +kernel
  · rw [hrate]
    decide +kernel
  · rw [hstands (by decide +kernel) _ (by simp [Event.isActivate]), hoffset]
    decide +kernel

end Ackermann

end VehicleStack
