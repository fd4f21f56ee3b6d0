import VehicleStack.Ackermann.Calibration
import VehicleStack.YawRate.Model

/-!
# The yaw-rate scaler — two calibrations

The drive exports zeros for as long as it calibrates its own gyroscope, and
the scaler averages its first messages whatever they say. Which of them are
zeros depends on the cycle that the first one is forwarded from
(`second_calibration_iff`). The broadcaster in between is a parameter.
-/

namespace VehicleStack

namespace YawRate

open Ackermann History

/-- One read cycle: its sample, whether the drive was calibrating, and the
message that is forwarded of it. -/
structure Cycle (K : Type) where
  sample : Sample K
  forced : Bool
  message : Imu K
  deriving DecidableEq, Repr

section Startup

variable {K : Type} [Field K] [LinearOrder K] (num : Numerics K) (forward : System K → Imu K)

/-- The cycle an event is, if it accepts a sample. -/
def cycleOf (s : System K) (e : Event K) : Option (Cycle K) :=
  (acceptedSample num s e).map fun x => ⟨x, s.isImuCalibrating, forward (step num s e)⟩

/-- The cycles of a run. -/
def cycles (s : System K) (es : List (Event K)) : List (Cycle K) :=
  Run.shown (step num) (cycleOf num forward) s es

/-- The event is a read that accepts an unflagged sample. -/
def AcceptsUnflagged (s : System K) (e : Event K) : Prop :=
  (acceptedSample num s e).map Sample.reset = some false

instance {s : System K} {e : Event K} : Decidable (AcceptsUnflagged num s e) :=
  inferInstanceAs (Decidable (_ = _))

/-- The number of cycles that a calibration takes at the least. -/
def CALIBRATION_CYCLES : ℕ := ACTIVATION_SETTLE_CYCLES + IMU_CALIBRATION_SAMPLES

/-- The scaler's bias is the mean of what the drive has measured, and what
it publishes has that mean taken off. -/
structure MeasuresOnly (k offset : K) (hs : List (Heard (Cycle K) K)) (bias : Option K) :
    Prop where
  noZeros : ∀ h ∈ hs, h.counted = true → h.item.forced = false
  bias : ∀ b ∈ bias, b = mean (fun c => c.sample.z - offset) (countedItems hs)
  corrected : ∀ h ∈ hs, h.counted = false → h.item.forced = false →
    h.published.rate =
      k * (h.item.sample.z - offset - mean (fun c => c.sample.z - offset) (countedItems hs))

variable {num forward} {s : System K} {e : Event K} {es : List (Event K)} {cs : List (Cycle K)}
  {z : K}

omit [LinearOrder K] in
theorem AcceptsUnflagged.sample (h : AcceptsUnflagged num s e) :
    ∃ raw, acceptedSample num s e = some ⟨raw, false⟩ := by
  obtain ⟨x, hx, hreset⟩ := Option.map_eq_some_iff.1 h
  exact ⟨x.z, by rw [hx, ← hreset]⟩

omit [Field K] [LinearOrder K] in
/-- Where no sample is flagged, the calibration is a matter of their
number. -/
theorem calibrated_iff_of_unflagged {settle : ℕ} {xs : List (Sample K)}
    (h : ∀ x ∈ xs, x.reset = false) :
    Calibrated settle xs ↔ settle + IMU_CALIBRATION_SAMPLES ≤ xs.length := by
  have hall : usable settle xs = xs.drop settle := by
    refine List.filter_eq_self.2 fun x hx => ?_
    rw [h x (List.mem_of_mem_drop hx), Bool.not_false]
  rw [Calibrated, hall, List.length_drop]
  have hpos : 0 < IMU_CALIBRATION_SAMPLES := by decide
  omega

/-- The cycles so far are those of one session, each with what its samples
make of it. -/
structure Cycling (z : K) (cs : List (Cycle K)) (s : System K) : Prop where
  calibrates : Calibrates ACTIVATION_SETTLE_CYCLES z (cs.map Cycle.sample) s
  unflagged : ∀ c ∈ cs, c.sample.reset = false
  forced : AtEach (fun before c =>
    c.forced = decide (¬ Calibrated ACTIVATION_SETTLE_CYCLES (before.map Cycle.sample))) cs
  rate : AtEach (fun before c =>
    c.message.rate = rateAfter ACTIVATION_SETTLE_CYCLES (before.map Cycle.sample) c.sample) cs

/-- **One cycle.** -/
theorem Cycling.cycle (hforward : ∀ s, (forward s).rate = s.imuGyro.z) (h : Cycling z cs s)
    (he : AcceptsUnflagged num s e) : ∃ c, cycleOf num forward s e = some c ∧
      Cycling z (cs ++ [c]) (step num s e) := by
  obtain ⟨raw, hx⟩ := he.sample
  obtain ⟨d, hz, hreset, himu⟩ := imu_of_accepted hx
  have hnew := (h.calibrates.accept hz hreset).congr himu
  refine ⟨⟨⟨raw, false⟩, s.isImuCalibrating, forward (step num s e)⟩, ?_, ?_, ?_, ?_, ?_⟩
  · rw [cycleOf, hx]
    rfl
  · rwa [List.map_append]
  · intro c hc
    rcases List.mem_append.1 hc with hc | hc
    · exact h.unflagged c hc
    · rw [List.mem_singleton.1 hc]
  · exact h.forced.snoc h.calibrates.calibrating
  · refine h.rate.snoc ?_
    rw [hforward, hnew.rate, exportedRate_snoc]

/-- **A session of such cycles.** -/
theorem Cycling.run (hforward : ∀ s, (forward s).rate = s.imuGyro.z) (h : Cycling z [] s)
    (hes : Run.Along (step num) (AcceptsUnflagged num) s es) :
    Cycling z (cycles num forward s es) (Run.run (step num) s es) := by
  refine Run.inv_shown (J := fun cs s => Cycling z cs s) ?_ ?_ h hes
  · intro tr s e hJ he ho
    obtain ⟨c, hc, -⟩ := hJ.cycle hforward he
    rw [ho] at hc
    cases hc
  · intro tr s e c hJ he ho
    obtain ⟨c', hc, hJ'⟩ := hJ.cycle hforward he
    rw [ho] at hc
    obtain rfl := Option.some.inj hc
    exact hJ'

/-- Every one of the events is a cycle. -/
theorem length_cycles (hes : Run.Along (step num) (AcceptsUnflagged num) s es) :
    (cycles num forward s es).length = es.length := by
  induction es generalizing s with
  | nil => rfl
  | cons e es ih =>
    obtain ⟨raw, hx⟩ := AcceptsUnflagged.sample hes.1
    rw [cycles, Run.shown_cons, cycleOf, hx]
    exact congrArg (· + 1) (ih hes.2)

omit [LinearOrder K] in
/-- A cycle is forced while the drive has too few samples. -/
theorem Cycling.forced_iff (h : Cycling z cs s) {before after : List (Cycle K)} {c : Cycle K}
    (heq : cs = before ++ c :: after) : c.forced = true ↔ before.length < CALIBRATION_CYCLES := by
  have hunflagged : ∀ x ∈ before.map Cycle.sample, x.reset = false := by
    intro x hx
    obtain ⟨c', hc', rfl⟩ := List.mem_map.1 hx
    exact h.unflagged c' (by simp [heq, hc'])
  rw [h.forced before c after heq, decide_eq_true_eq,
    calibrated_iff_of_unflagged hunflagged, List.length_map, not_le]
  rfl

omit [LinearOrder K] in
/-- **A cycle that is not forced** forwards what the drive has measured. -/
theorem Cycling.measured (h : Cycling z cs s) {before after : List (Cycle K)} {c : Cycle K}
    (heq : cs = before ++ c :: after) (hforced : c.forced = false) :
    c.message.rate = c.sample.z - s.imuGyroZOffset := by
  have hcal : Calibrated ACTIVATION_SETTLE_CYCLES (before.map Cycle.sample) := by
    have hc : c.forced = decide (¬ Calibrated _ (before.map Cycle.sample)) :=
      h.forced before c after heq
    rw [hforced] at hc
    simpa using hc.symm
  have hoffset : s.imuGyroZOffset =
      zOffset ACTIVATION_SETTLE_CYCLES (before.map Cycle.sample) := by
    rw [h.calibrates.offset, heq, List.map_append, zOffset_append hcal]
  have hclear : c.sample.reset = false := h.unflagged c (by simp [heq])
  rw [h.rate before c after heq, rateAfter, hoffset]
  simp [hcal, hclear]

/-- Where no message is forced, the scaler does as it should. -/
theorem measuresOnly_of_measured {k offset : K} {N : ℤ} {items : List (Cycle K)}
    (h : ∀ c ∈ items, c.forced = false ∧ c.message.rate = c.sample.z - offset) :
    MeasuresOnly k offset ((ImuScale.init k N).listen Cycle.message items)
      (Run.run (ImuScale.hear Cycle.message) (.init k N) items).bias := by
  have havg := averages_listen Cycle.message k N items
  have hitem : ∀ x ∈ (ImuScale.init k N).listen Cycle.message items, x.item ∈ items := by
    intro x hx
    rw [← item_listen Cycle.message (.init k N) items]
    exact List.mem_map_of_mem hx
  have hcounted : ∀ c ∈ countedItems ((ImuScale.init k N).listen Cycle.message items),
      c ∈ items := by
    intro c hc
    obtain ⟨x, hx, rfl⟩ := List.mem_map.1 hc
    exact hitem x (List.mem_of_mem_filter hx)
  have hmean : mean (fun c : Cycle K => c.message.rate)
      (countedItems ((ImuScale.init k N).listen Cycle.message items)) =
      mean (fun c => c.sample.z - offset)
        (countedItems ((ImuScale.init k N).listen Cycle.message items)) := by
    rw [mean, mean, List.map_congr_left fun c hc => (h c (hcounted c hc)).2]
  refine ⟨fun x hx _ => (h _ (hitem x hx)).1, fun b hb => ?_, fun x hx hnot _ => ?_⟩
  · rw [havg.bias b hb, hmean]
  · -- there is a bias, or the message would have been counted
    cases hbias : (Run.run (ImuScale.hear Cycle.message) (.init k N) items).bias with
    | none =>
      rw [havg.calibrating hbias x hx] at hnot
      cases hnot
    | some b =>
      rw [havg.corrected x hx hnot b hbias, (h _ (hitem x hx)).2, havg.bias b hbias, hmean,
        mul_comm]

omit [Field K] [LinearOrder K] in
/-- What is behind the first `start` of a list has as many before it. -/
theorem split_of_mem_drop {start : ℕ} {c : Cycle K} (h : c ∈ cs.drop start) :
    ∃ before after, cs = before ++ c :: after ∧ start ≤ before.length := by
  obtain ⟨front, after, heq⟩ := List.append_of_mem h
  have hstart : start < cs.length := by
    by_contra hge
    exact List.ne_nil_of_mem h (List.drop_of_length_le (not_lt.1 hge))
  refine ⟨cs.take start ++ front, after, ?_, ?_⟩
  · rw [List.append_assoc, ← heq, List.take_append_drop]
  · rw [List.length_append, List.length_take, Nat.min_eq_left hstart.le]
    omega

omit [LinearOrder K] in
/-- The first cycle that is forwarded too early is forced. -/
theorem Cycling.head_forced (h : Cycling z cs s) {start : ℕ} (hlt : start < cs.length)
    (hearly : start < CALIBRATION_CYCLES) :
    ∃ c after, cs.drop start = c :: after ∧ c.forced = true := by
  refine ⟨cs[start], cs.drop (start + 1), List.drop_eq_getElem_cons hlt, ?_⟩
  have hsplit : cs = cs.take start ++ cs[start] :: cs.drop (start + 1) := by
    rw [← List.drop_eq_getElem_cons hlt, List.take_append_drop]
  rw [h.forced_iff hsplit, List.length_take, Nat.min_eq_left hlt.le]
  exact hearly

/-- **When the second calibration averages measurements only.** The drive
calibrates, its exported rate is forwarded in every cycle from `start` on,
and the scaler calibrates on what is forwarded: the bias is the mean of what
was measured, with no forced zero in it, if and only if nothing is forwarded
or nothing before the drive is done. -/
theorem second_calibration_iff (num : Numerics K) (s : System K) (reset steering : WriteOutcome)
    (forward : System K → Imu K) (k : K) (bias_samples : ℤ) (start : ℕ) (es : List (Event K))
    (hconn : s.canComms.connected = true) (hforward : ∀ s, (forward s).rate = s.imuGyro.z)
    (hes : Run.Along (step num) (AcceptsUnflagged num) (onActivate num s reset steering).2.2 es) :
    let s₀ := (onActivate num s reset steering).2.2
    let items := (cycles num forward s₀ es).drop start
    let n := ImuScale.init k bias_samples
    MeasuresOnly k (Run.run (step num) s₀ es).imuGyroZOffset (n.listen Cycle.message items)
        (Run.run (ImuScale.hear Cycle.message) n items).bias ↔
      es.length ≤ start ∨ CALIBRATION_CYCLES ≤ start := by
  intro s₀ items n
  have hcycling : Cycling s.imuGyro.z (cycles num forward s₀ es) (Run.run (step num) s₀ es) :=
    Cycling.run hforward ⟨.activate _ _ _ hconn, fun _ h => absurd h List.not_mem_nil, atEach_nil,
      atEach_nil⟩ hes
  have hlen : (cycles num forward s₀ es).length = es.length := length_cycles hes
  constructor
  · intro h
    by_contra hnot
    rw [not_or, not_le, not_le] at hnot
    -- the first message that is forwarded is a zero, and is counted
    obtain ⟨c, after, hitems, hforced⟩ := hcycling.head_forced (hlen ▸ hnot.1) hnot.2
    have hclean := h.noZeros (n.heard Cycle.message c) (by
      rw [show items = c :: after from hitems]
      exact List.mem_cons_self) rfl
    rw [show (n.heard Cycle.message c).item = c from rfl, hforced] at hclean
    cases hclean
  · intro h
    refine measuresOnly_of_measured fun c hc => ?_
    obtain ⟨before, after, heq, hle⟩ := split_of_mem_drop hc
    have hdone : CALIBRATION_CYCLES ≤ before.length := by
      have hlt : start < es.length := by
        rw [← hlen, heq, List.length_append, List.length_cons]
        omega
      omega
    have hforced : c.forced = false := by
      rw [← Bool.not_eq_true, hcycling.forced_iff heq]
      exact not_lt.2 hdone
    exact ⟨hforced, hcycling.measured heq hforced⟩

end Startup

/-- The rate of the component, and nothing else. -/
def forwardRate (s : System ℚ) : Imu ℚ := ⟨s.imuGyro, List.replicate 9 0⟩

/-- `count` samples at rest while the drive calibrates, and then at ten
thousandths. -/
def driftingReads (count : ℕ) : List (Event ℚ) :=
  (List.range count).map fun n =>
    .read (imuPair (if n < CALIBRATION_CYCLES then 0 else 10) (UInt8.ofNat n)) (1 / 30)

/-- Forwarded from the first measured cycle on. -/
theorem second_calibration_lateStart :
    let s₀ := (onActivate sampleNumerics sampleConnected none none).2.2
    let items := (cycles sampleNumerics forwardRate s₀ (driftingReads 250)).drop CALIBRATION_CYCLES
    let n := ImuScale.init (1148 / 1000) 3
    MeasuresOnly (1148 / 1000) (Run.run (step sampleNumerics) s₀ (driftingReads 250)).imuGyroZOffset
      (n.listen Cycle.message items) (Run.run (ImuScale.hear Cycle.message) n items).bias :=
  (second_calibration_iff sampleNumerics sampleConnected none none forwardRate (1148 / 1000) 3
    CALIBRATION_CYCLES (driftingReads 250) rfl (fun _ => rfl) (by decide +kernel)).2
    (Or.inr le_rfl)

/-- **Forwarded from the activation on**, the first messages that the bias
takes in are zeros that the drive has made up. -/
theorem second_calibration_averages_zeros :
    let s₀ := (onActivate sampleNumerics sampleConnected none none).2.2
    let items := cycles sampleNumerics forwardRate s₀ (driftingReads 300)
    let n := ImuScale.init (1148 / 1000) 300
    ¬ MeasuresOnly (1148 / 1000)
      (Run.run (step sampleNumerics) s₀ (driftingReads 300)).imuGyroZOffset
      (n.listen Cycle.message items) (Run.run (ImuScale.hear Cycle.message) n items).bias := by
  intro s₀ items n h
  have hzero : ¬ ∀ x ∈ n.listen Cycle.message items, x.counted = true → x.item.forced = false := by
    decide +kernel
  exact hzero h.noZeros

end YawRate

end VehicleStack
