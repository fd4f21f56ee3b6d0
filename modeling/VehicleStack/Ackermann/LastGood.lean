import Mathlib.Analysis.Real.Pi.Bounds
import Mathlib.Analysis.SpecialFunctions.Trigonometric.Arctan
import VehicleStack.Ackermann.Short
import VehicleStack.Common.Run

/-!
# The drive — the last good steering angle

A steering report whose pot is at fault carries no angle, and `read` holds
the positions it has. It looks at the last report of the cycle alone, so a
good angle is held only where no faulted one came in behind it in the same
cycle. `due` is what should be held over a whole run, and
`holds_last_good_iff` says when it is.
-/

namespace VehicleStack

namespace Ackermann

section Spec

variable {K : Type} [Field K] [LinearOrder K] (num : Numerics K)

/-- The angle of a steering report whose pot is not at fault. -/
def goodAngle (r : Received) : Option K :=
  if r.frame.canId = STEERING_FEEDBACK_FRAME_ID then
    let msg := SteeringFeedbackMsg.ofData num r.frame.data
    if msg.potFault = 1 then none else some msg.steeringAngle
  else none

/-- The good angles of a cycle, in the order they came. -/
def goodAngles (frames : List Received) : List K := frames.filterMap (goodAngle num)

/-- The calibration of record, by the side commanded. -/
def correctedAngle (cmd angle : K) : K :=
  if 0 ≤ cmd then (angle - -0.01010) / -0.60526 else (angle - -0.01713) / -0.78021

/-- The steering joints. -/
def SteeringWheel.positions (w : SteeringWheel K) : K × K := (w.leftPos, w.rightPos)

/-- The joints at an angle of the rack. -/
def rackPositions (rack_angle : K) : K × K :=
  (SteeringWheel.init.setRackPosition num rack_angle).positions

/-- A good angle, and the command in force when it was drained. -/
structure GoodReport (K : Type) where
  cmd : K
  angle : K
  deriving DecidableEq, Repr

def GoodReport.positions (g : GoodReport K) : K × K :=
  rackPositions num (correctedAngle g.cmd g.angle)

/-- The good reports an event drains. -/
def drainedReports (s : System K) : Event K → List (GoodReport K)
  | .read frames _ =>
    if s.canComms.connected then
      (goodAngles num frames).map fun angle => ⟨s.steering.getAverageSteeringCmd, angle⟩
    else []
  | _ => []

/-- What the joints should be at: where the latest good report puts them,
or where they were at first. -/
def due (first : K × K) (reports : List (GoodReport K)) : K × K :=
  (reports.getLast?.map (GoodReport.positions num)).getD first

/-- The component, and the good reports so far. -/
structure Reported (K : Type) where
  system : System K
  reports : List (GoodReport K)

/-- One event of a run whose good reports are noted. -/
def note (w : Reported K) (e : Event K) : Reported K :=
  ⟨step num w.system e, w.reports ++ drainedReports num w.system e⟩

/-- The joints are where they should be. -/
def HoldsLastGood (first : K × K) (w : Reported K) : Prop :=
  w.system.steering.positions = due num first w.reports

/-- The angle of the last steering report of the cycle, if that one is
good. -/
def lastAngle (frames : List Received) : Option K :=
  (lastReceived STEERING_FEEDBACK_FRAME_ID frames).bind (goodAngle num)

/-- The last report drained is a good one, or no good one was drained, or
the latest good one leaves the joints where they are. -/
def KeepsLastGood (w : Reported K) : Event K → Prop
  | .read frames period => w.system.canComms.connected = true →
    (lastAngle num frames).isSome ∨
      ∀ g ∈ (drainedReports num w.system (.read frames period)).getLast?,
        g.positions num = w.system.steering.positions
  | _ => True

/-- The steering reports of the event carry their bytes. -/
def Event.SteeringFull : Event K → Prop
  | .read frames _ => ∀ r ∈ frames, r.frame.canId = STEERING_FEEDBACK_FRAME_ID →
    r.frame.WellFormed
  | _ => True

end Spec

section Holding

variable {K : Type} [Field K] [LinearOrder K] {num : Numerics K} {s : System K} {w : Reported K}
  {e : Event K} {frames : List Received} {period : K} {angle : K} {first : K × K}

omit [LinearOrder K] in
/-- What the drain leaves of a cycle's steering reports. -/
theorem steerFb_drained (h : ∀ r ∈ frames, r.frame.canId = STEERING_FEEDBACK_FRAME_ID →
      r.frame.WellFormed) :
    let fb := (drained num frames).steerFb
    (if fb.received && !fb.potFault then some fb.angle else none) = lastAngle num frames := by
  have hdrained := (overwrites_steering num).drained_eq frames
  rw [lastAngle, lastReceived]
  cases hlast : (frames.filter fun r => r.frame.canId = STEERING_FEEDBACK_FRAME_ID).getLast? with
  | none =>
    rw [hlast] at hdrained
    rw [hdrained]
    rfl
  | some r =>
    have hmem := List.mem_filter.1 (List.mem_of_getLast? hlast)
    have hid : r.frame.canId = STEERING_FEEDBACK_FRAME_ID := by simpa using hmem.2
    rw [hlast, Option.map_some, Option.getD_some,
      Received.message_of_wellFormed (h r hmem.1 hid)] at hdrained
    rw [hdrained, Option.bind_some, goodAngle, if_pos hid]
    cases hfault : (SteeringFeedbackMsg.ofData num r.frame.data).potFault == 1 with
    | true => simp [beq_iff_eq.1 hfault]
    | false => simp [beq_eq_false_iff_ne.1 hfault]

omit [Field K] [LinearOrder K] in
/-- A good report that comes last is the latest good one. -/
theorem getLast?_goodAngles (h : lastAngle num frames = some angle) :
    (goodAngles num frames).getLast? = some angle := by
  obtain ⟨r, hr, hangle⟩ := Option.bind_eq_some_iff.1 h
  obtain ⟨front, hfront⟩ := List.getLast?_eq_some_iff.1 hr
  have hsame : goodAngles num frames =
      (frames.filter fun r => r.frame.canId = STEERING_FEEDBACK_FRAME_ID).filterMap
        (goodAngle num) := by
    rw [List.filterMap_filter, goodAngles]
    refine List.filterMap_congr fun r _ => ?_
    by_cases hid : r.frame.canId = STEERING_FEEDBACK_FRAME_ID <;> simp [goodAngle, hid]
  rw [hsame, hfront, List.filterMap_append, List.filterMap_cons_some hangle]
  exact List.getLast?_concat

variable (num) in
/-- Where the steering part leaves the joints. -/
theorem positions_readSteering (s : System K) (fb : SteeringFeedback K) :
    (readSteering num s fb).steering.positions =
      ((if fb.received && !fb.potFault then some fb.angle else none).map fun angle =>
        rackPositions num (correctedAngle s.steering.getAverageSteeringCmd angle)).getD
          s.steering.positions := by
  simp only [readSteering]
  split <;> rfl

omit [LinearOrder K] in
theorem steering_readImu {d : Drain K} : (readImu s d).steering = s.steering := by
  simp only [readImu]
  repeat' split
  all_goals rfl

variable (num period) in
/-- **Where a read leaves the joints**: where its last report puts them, if
that one is good. -/
theorem positions_read (hconn : s.canComms.connected = true)
    (h : ∀ r ∈ frames, r.frame.canId = STEERING_FEEDBACK_FRAME_ID → r.frame.WellFormed) :
    (read num s frames period).2.steering.positions =
      ((lastAngle num frames).map fun angle =>
        rackPositions num (correctedAngle s.steering.getAverageSteeringCmd angle)).getD
          s.steering.positions := by
  have hsteered := positions_readSteering num
    { s with canComms := (s.canComms.readSensorValues num frames).2.2 } (drained num frames).steerFb
  rw [steerFb_drained h] at hsteered
  simp only [read, hconn, Bool.not_true, Bool.false_eq_true, if_false,
    (readOdometry_fields ..).2.2.2.1, (readSensorValues_fields num s.canComms frames).2.1]
  split
  · rw [steering_readImu]
    exact hsteered
  · exact hsteered

/-- Nothing but a read moves the joints. -/
theorem positions_of_other (he : e.isRead = false) :
    (step num s e).steering.positions = s.steering.positions := by
  cases e with
  | read frames period => cases he
  | configure connects => rfl
  | cleanup => rfl
  | activate reset steering =>
    simp only [step, respond, onActivate]
    split <;> rfl
  | deactivate motor steering =>
    simp only [step, respond, onDeactivate]
    split <;> rfl
  | write steering motor =>
    obtain ⟨t, f, g, hwrite⟩ := write_touches num s steering motor
    show (write num s steering motor).2.2.steering.positions = _
    rw [hwrite]
  | command port value => cases port <;> rfl

theorem due_append {reports reports' : List (GoodReport K)} :
    due num first (reports ++ reports') =
      (reports'.getLast?.map (GoodReport.positions num)).getD (due num first reports) := by
  rw [due, due, List.getLast?_append]
  cases reports'.getLast? <;> rfl

/-- **One event**: the joints stay where they should be exactly where no
good angle is dropped. -/
theorem HoldsLastGood.note_iff (h : HoldsLastGood num first w) (he : e.SteeringFull) :
    HoldsLastGood num first (note num w e) ↔ KeepsLastGood num w e := by
  have hpositions : w.system.steering.positions = due num first w.reports := h
  cases e with
  | configure | cleanup | activate | deactivate | write | command =>
    refine iff_of_true ?_ trivial
    show (step num w.system _).steering.positions = due num first (w.reports ++ [])
    rw [positions_of_other rfl, List.append_nil, hpositions]
  | read frames period =>
    cases hconn : w.system.canComms.connected with
    | false =>
      have hnone : drainedReports num w.system (.read frames period) = [] := by
        simp [drainedReports, hconn]
      refine iff_of_true ?_ (fun hopen => absurd hopen (by rw [hconn]; decide))
      show (read num w.system frames period).2.steering.positions = _
      rw [read_of_closed num frames period hconn, note, hnone, List.append_nil, hpositions]
    | true =>
      have hread : (step num w.system (.read frames period)).steering.positions = _ :=
        positions_read num period hconn he
      rw [HoldsLastGood, note, hread, due_append, ← hpositions, KeepsLastGood, imp_iff_right hconn]
      cases hlast : lastAngle num frames with
      | some angle =>
        have hlatest : (drainedReports num w.system (.read frames period)).getLast? =
            some ⟨w.system.steering.getAverageSteeringCmd, angle⟩ := by
          simp [drainedReports, hconn, List.getLast?_map, getLast?_goodAngles hlast]
        rw [hlatest]
        exact iff_of_true rfl (Or.inl rfl)
      | none =>
        -- the joints stay, so they are due where the latest good angle puts them
        cases hlatest : (drainedReports num w.system (.read frames period)).getLast? with
        | none => exact iff_of_true rfl (Or.inr nofun)
        | some g => simp [eq_comm]

/-- **When the joints are at the last good angle.** In a run whose steering
reports are full, cut into cycles in any way, the joints are always where
the most recent good report puts them, with the calibration of the command
in force at its cycle, if and only if no cycle drains a faulted report
behind a good one that would have moved them. -/
theorem holds_last_good_iff (num : Numerics K) (s : System K) (es : List (Event K))
    (hes : ∀ e ∈ es, e.SteeringFull) :
    Run.Throughout (note num) (HoldsLastGood num s.steering.positions) ⟨s, []⟩ es ↔
      Run.Along (note num) (KeepsLastGood num) ⟨s, []⟩ es :=
  Run.throughout_iff_along (R := Event.SteeringFull)
    (I := HoldsLastGood num s.steering.positions) (fun _ _ h he hkeeps => (h.note_iff he).2 hkeeps)
    (fun _ h => h) (fun _ _ h he hholds => (h.note_iff he).1 hholds) rfl hes

end Holding

/-- The numbers of the vehicle, where no angle but zero is unpacked. -/
noncomputable def realNumerics : Numerics ℝ :=
  ⟨fun _ => Vector.replicate 4 0, fun _ => 0, Real.tan, Real.arctan, Real.pi⟩

/-- A drive whose socket is open. -/
noncomputable def realConnected : System ℝ := (onConfigure (.init realNumerics 1000) true).2

/-- A steering report of angle zero, its pot at fault or not. -/
def steeringReport (fault : Bool) : Received :=
  CanFrame.received ⟨STEERING_FEEDBACK_FRAME_ID, 8,
    #v[0, 0, 0, 0, if fault then 2 else 0, 0, 0, 0]⟩

/-- A good report and a faulted one in two cycles. -/
theorem holds_last_good_apart : Run.Throughout (note realNumerics)
    (HoldsLastGood realNumerics (0, 0)) ⟨realConnected, []⟩
    [.read [steeringReport false] (1 / 30), .read [steeringReport true] (1 / 30)] := by
  refine (holds_last_good_iff realNumerics realConnected _ ?_).2 ?_
  · simp only [List.mem_cons, List.not_mem_nil, or_false, forall_eq_or_imp, forall_eq]
    exact ⟨fun r hr _ => by rw [List.mem_singleton.1 hr]; decide,
      fun r hr _ => by rw [List.mem_singleton.1 hr]; decide⟩
  · refine ⟨fun _ => Or.inl rfl, fun _ => Or.inr fun g hg => ?_, trivial⟩
    cases hg

/-- The pot is not at zero where the wheels are. -/
theorem rackPositions_corrected_ne : rackPositions realNumerics (correctedAngle 0 0) ≠ (0, 0) := by
  have hangle : correctedAngle (0 : ℝ) 0 < 0 ∧ -(Real.pi / 2) < correctedAngle (0 : ℝ) 0 := by
    have hpi := Real.pi_gt_three
    norm_num [correctedAngle]
    linarith
  have htan : Real.tan (correctedAngle 0 0) < 0 :=
    Real.tan_neg_of_neg_of_pi_div_two_lt hangle.1 hangle.2
  have hratio : (0.23529 : ℝ) * Real.tan (correctedAngle 0 0) /
      (0.23529 - 0.12 / 2.0 * Real.tan (correctedAngle 0 0)) < 0 := by
    refine div_neg_of_neg_of_pos (by linarith) (by linarith)
  intro h
  have hleft : Real.arctan ((0.23529 : ℝ) * Real.tan (correctedAngle 0 0) /
      (0.23529 - 0.12 / 2.0 * Real.tan (correctedAngle 0 0))) = 0 := congrArg Prod.fst h
  exact absurd (Real.arctan_eq_zero_iff.1 hleft) hratio.ne

/-- **In one cycle**, the good angle is dropped: the joints stay where they
were before either came. -/
theorem good_angle_dropped : ¬ Run.Throughout (note realNumerics)
    (HoldsLastGood realNumerics (0, 0)) ⟨realConnected, []⟩
    [.read [steeringReport false, steeringReport true] (1 / 30)] := by
  rintro ⟨hfirst, hlast⟩
  have hfull : Event.SteeringFull
      (.read [steeringReport false, steeringReport true] (1 / 30 : ℝ)) := by
    intro r hr _
    rcases List.mem_cons.1 hr with rfl | hr
    · decide
    · rw [List.mem_singleton.1 hr]
      decide
  have hkeeps := (hfirst.note_iff hfull).1 hlast rfl
  rcases hkeeps with hgood | hsame
  · exact absurd hgood (by decide)
  · have hcmd : realConnected.steering.getAverageSteeringCmd = 0 := by
      simp [realConnected, onConfigure, System.init, SteeringWheel.init,
        SteeringWheel.getAverageSteeringCmd]
    have hmoved := hsame ⟨realConnected.steering.getAverageSteeringCmd, 0⟩ rfl
    rw [hcmd] at hmoved
    exact rackPositions_corrected_ne hmoved

end Ackermann

end VehicleStack
