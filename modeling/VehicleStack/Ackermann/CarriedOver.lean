import VehicleStack.Ackermann.Calibration

/-!
# The drive — samples that are rejected

A cycle whose IMU pair is missing, mismatched or frozen skips the IMU part
of `read`, and the exported rate stays as it was. What it then is follows
from the accepted samples before (`Session.rate`), so this says exactly in
which runs no cycle presents an old sample as a fresh one
(`nothing_carried_over_iff`).
-/

namespace VehicleStack

namespace Ackermann

section Watching

variable {K : Type} [Field K] [LinearOrder K] (num : Numerics K)

/-- What the accepted samples have come to: those since the last activation,
and the rate as it was then. -/
structure Session (K : Type) where
  settle : ℕ
  before : K
  samples : List (Sample K)

/-- The rate that the latest accepted sample is due. -/
def Session.rate (w : Session K) : K := exportedRate w.settle w.before w.samples

/-- The component, what its samples have come to, and the rates exported for
them. -/
structure Watched (K : Type) where
  system : System K
  session : Session K
  exports : List K

def Watched.init (counts_per_rev : ℤ) : Watched K := ⟨.init num counts_per_rev, ⟨0, 0, []⟩, []⟩

/-- One event of a run that is watched. -/
def watch (w : Watched K) (e : Event K) : Watched K :=
  let system := step num w.system e
  if e.isActivate && w.system.canComms.connected then
    ⟨system, ⟨ACTIVATION_SETTLE_CYCLES, w.session.rate, []⟩, w.exports⟩
  else
    match acceptedSample num w.system e with
    | some x => ⟨system, { w.session with samples := w.session.samples ++ [x] },
        system.imuGyro.z :: w.exports⟩
    | none => { w with system := system }

/-- The event is a cycle that accepts no sample. -/
def Rejects (s : System K) (e : Event K) : Prop :=
  e.isRead = true ∧ s.canComms.connected = true ∧ acceptedSample num s e = none

/-- A cycle that accepts no sample exports none that was accepted before. -/
def NothingCarriedOver (w : Watched K) (e : Event K) : Prop :=
  Rejects num w.system e → (step num w.system e).imuGyro.z ≠ 0 →
    (step num w.system e).imuGyro.z ∉ w.exports

/-- There is nothing to carry over. -/
def NothingToCarry (w : Watched K) (e : Event K) : Prop :=
  Rejects num w.system e → w.session.rate = 0

instance {s : System K} {e : Event K} : Decidable (Rejects num s e) :=
  inferInstanceAs (Decidable (_ ∧ _ ∧ _ = none))

instance {w : Watched K} {e : Event K} : Decidable (NothingCarriedOver num w e) :=
  inferInstanceAs (Decidable (_ → _ → _))

end Watching

section Rejected

variable {K : Type} [Field K] [LinearOrder K] {num : Numerics K} {s : System K} {w : Watched K}
  {e : Event K}

omit [LinearOrder K] in
/-- When a sample is exported as zero. -/
theorem rateAfter_eq_zero_iff {settle : ℕ} {xs : List (Sample K)} {x : Sample K} :
    rateAfter settle xs x = 0 ↔
      ¬ Calibrated settle xs ∨ x.reset = true ∨ x.z = zOffset settle xs := by
  rw [rateAfter]
  split
  · rename_i h
    simp only [true_iff]
    tauto
  · rename_i h
    rw [sub_eq_zero]
    tauto

/-- The component exports what is due, and a rate that is not zero was
exported for some sample. -/
structure Watched.Inv (w : Watched K) : Prop where
  calibrates : Calibrates w.session.settle w.session.before w.session.samples w.system
  known : w.session.rate ≠ 0 → w.session.rate ∈ w.exports

omit [LinearOrder K] in
theorem Watched.inv_init {counts_per_rev : ℤ} : (Watched.init num counts_per_rev).Inv := by
  refine ⟨⟨rfl, ?_, fun _ => rfl, fun _ => rfl, ?_, rfl⟩, fun h => absurd rfl h⟩
  · simp [Watched.init, System.init, not_calibrated_nil]
  · rw [Watched.init, zOffset, if_neg not_calibrated_nil]
    rfl

/-- An activation that finds no socket open does nothing. -/
theorem imu_of_unopened (h : (e.isActivate && s.canComms.connected) = false)
    (hx : acceptedSample num s e = none) : (step num s e).imu = s.imu := by
  cases e with
  | activate reset steering =>
    have hconn : s.canComms.connected = false := by simpa [Event.isActivate] using h
    simp [step, respond, onActivate, hconn]
  | configure | cleanup | deactivate | read | write | command => exact imu_of_other rfl hx

/-- **One event that is watched.** -/
theorem Watched.Inv.watch (h : w.Inv) : (Ackermann.watch num w e).Inv := by
  cases hact : e.isActivate && w.system.canComms.connected with
  | true =>
    simp only [Ackermann.watch, hact, if_true]
    obtain ⟨he, hconn⟩ := Bool.and_eq_true_iff.1 hact
    cases e with
    | activate reset steering =>
      refine ⟨?_, h.known⟩
      have hbegin := Calibrates.activate num reset steering hconn
      rw [h.calibrates.rate] at hbegin
      exact hbegin
    | configure | cleanup | deactivate | read | write | command => cases he
  | false =>
    simp only [Ackermann.watch, hact, Bool.false_eq_true, if_false]
    cases hx : acceptedSample num w.system e with
    | none => exact ⟨h.calibrates.congr (imu_of_unopened hact hx), h.known⟩
    | some x =>
      obtain ⟨d, hz, hreset, himu⟩ := imu_of_accepted hx
      have hnew := (h.calibrates.accept hz hreset).congr himu
      refine ⟨hnew, fun _ => ?_⟩
      rw [show (step num w.system e).imuGyro.z = _ from hnew.rate]
      exact List.mem_cons_self

/-- **When a rejected cycle carries nothing over.** -/
theorem Watched.Inv.nothingCarriedOver_iff (h : w.Inv) :
    NothingCarriedOver num w e ↔ NothingToCarry num w e := by
  refine forall_congr' fun hrej => ?_
  have he : e.isActivate = false := by
    cases e with
    | read frames period => rfl
    | configure | cleanup | activate | deactivate | write | command => cases hrej.1
  have himu := imu_of_other he hrej.2.2
  have hrate : (step num w.system e).imuGyro.z = w.session.rate := by
    rw [show (step num w.system e).imuGyro.z = w.system.imuGyro.z from
      congrArg (fun i => i.gyro.z) himu]
    exact h.calibrates.rate
  rw [hrate]
  constructor
  · intro hnot
    by_contra hne
    exact hnot hne (h.known hne)
  · intro hzero hne
    exact absurd hzero hne

/-- **When no rejected sample is presented as a fresh one.** In a run from
the start, every cycle that accepts no sample exports a rate that is zero or
none of those exported for an accepted one, if and only if at each such
cycle the latest accepted sample was due zero: it fell into a calibration,
was flagged, or read just the offset. -/
theorem nothing_carried_over_iff (num : Numerics K) (counts_per_rev : ℤ) (es : List (Event K)) :
    Run.Along (Ackermann.watch num) (NothingCarriedOver num) (.init num counts_per_rev) es ↔
      Run.Along (Ackermann.watch num) (NothingToCarry num) (.init num counts_per_rev) es :=
  Run.along_iff_of_inv (fun _ _ h => h.watch) (fun _ _ h => h.nothingCarriedOver_iff)
    Watched.inv_init

end Rejected

/-- An activation, its calibration at rest, and a sample taken in a turn,
after which no sample comes. -/
def frozenInTurn : List (Event ℚ) :=
  [.configure true, .activate none none] ++
    (List.range (ACTIVATION_SETTLE_CYCLES + IMU_CALIBRATION_SAMPLES)).map (fun n =>
      .read (imuPair 0 (UInt8.ofNat n)) (1 / 30)) ++
    [.read (imuPair 100 255) (1 / 30), .read [] (1 / 30)]

/-- **The rate of the turn is exported for good.** -/
theorem frozen_gyro_keeps_turning : ¬ Run.Along (watch sampleNumerics)
    (NothingCarriedOver sampleNumerics) (.init sampleNumerics 1000) frozenInTurn := by
  decide +kernel

end Ackermann

end VehicleStack
