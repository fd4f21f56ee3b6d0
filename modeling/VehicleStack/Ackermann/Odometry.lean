import Mathlib.Algebra.Order.Ring.Defs
import Mathlib.Tactic.FieldSimp
import Mathlib.Tactic.Linarith
import VehicleStack.Ackermann.Reads
import VehicleStack.Common.History
import VehicleStack.Common.Run

/-!
# The drive — wheel odometry

The accumulator that a wheel's velocity is computed over is the age of the
newest encoder frame, along every pattern of cycles with and without one
(`Reading.age`). A fresh cycle's velocity times that age is how far the
wheel has come since, unless the age is too short to divide by: then the
position moves and the velocity stays (`velocity_integrates`,
`short_interval_is_lost`).
-/

namespace VehicleStack

namespace Ackermann

open History

/-- One `read` on an open socket: its inputs, the wheels before and after,
and its code. -/
structure Reading (K : Type) where
  period : K
  fresh : Bool
  wheelL : DriveWheel K
  wheelR : DriveWheel K
  wheelL' : DriveWheel K
  wheelR' : DriveWheel K
  code : ReturnType
  deriving DecidableEq, Repr

section Runs

variable {K : Type} [Field K] [LinearOrder K] (num : Numerics K)

/-- The cycle has an encoder frame. -/
def hasEncoderFrame (frames : List Received) : Bool :=
  frames.any fun r => r.frame.canId == VELOCITY_FEEDBACK_FRAME_ID

/-- The reading an event is, if it is one. -/
def readingOf (s : System K) : Event K → Option (Reading K)
  | .read frames period =>
    if s.canComms.connected then
      let r := read num s frames period
      some ⟨period, hasEncoderFrame frames, s.wheelL, s.wheelR, r.2.wheelL, r.2.wheelR, r.1⟩
    else none
  | _ => none

/-- The readings of a run. -/
def readings (s : System K) (es : List (Event K)) : List (Reading K) :=
  Run.shown (step num) (readingOf num) s es

/-- The total of the periods since the last fresh cycle, or since the start. -/
def Reading.age (before : List (Reading K)) : K :=
  before.foldl (fun age o => if o.fresh then 0 else age + o.period) 0

/-- The velocities published, times the age of the newest frame, are how far
the wheels have come. -/
structure Integrates (before : List (Reading K)) (o : Reading K) : Prop where
  left : o.wheelL'.vel * (Reading.age before + o.period) = o.wheelL'.pos - o.wheelL.pos
  right : o.wheelR'.vel * (Reading.age before + o.period) = o.wheelR'.pos - o.wheelR.pos

/-- Position and velocity stay as they were. -/
structure Held (o : Reading K) : Prop where
  left : o.wheelL'.pos = o.wheelL.pos ∧ o.wheelL'.vel = o.wheelL.vel
  right : o.wheelR'.pos = o.wheelR.pos ∧ o.wheelR'.vel = o.wheelR.vel

/-- What a reading publishes. -/
structure Published (before : List (Reading K)) (o : Reading K) : Prop where
  integrates : o.fresh = true → MIN_INTERVAL_S < Reading.age before + o.period →
    Integrates before o
  guarded : o.fresh = true → Reading.age before + o.period ≤ MIN_INTERVAL_S →
    o.wheelL'.vel = o.wheelL.vel ∧ o.wheelR'.vel = o.wheelR.vel
  held : o.fresh = false → Held o
  stale : o.code = .ERROR ↔ o.fresh = false ∧ ENC_STALE_LIMIT_S ≤ Reading.age before + o.period

end Runs

section Readings

variable {K : Type} [Field K] [LinearOrder K] {num : Numerics K} {s : System K} {e : Event K}
  {es : List (Event K)} {tr : List (Reading K)} {o : Reading K}

omit [LinearOrder K] in
theorem Reading.age_snoc :
    Reading.age (tr ++ [o]) = if o.fresh then 0 else Reading.age tr + o.period := by
  rw [Reading.age, List.foldl_append]
  rfl

omit [LinearOrder K] in
theorem gotEnc_take {d : Drain K} {r : Received} : (Drain.take num d r).gotEnc =
    (d.gotEnc || r.frame.canId == VELOCITY_FEEDBACK_FRAME_ID) := by
  simp only [Drain.take]
  split
  · rename_i hid
    simp [hid]
  · rename_i hid
    have hne : (r.frame.canId == VELOCITY_FEEDBACK_FRAME_ID) = false := by simpa using hid
    rw [hne, Bool.or_false]
    repeat' split
    all_goals rfl

omit [LinearOrder K] in
theorem gotEnc_drained {frames : List Received} :
    (drained num frames).gotEnc = hasEncoderFrame frames := by
  have hfold : ∀ d : Drain K, (frames.foldl (Drain.take num) d).gotEnc =
      (d.gotEnc || hasEncoderFrame frames) := by
    induction frames with
    | nil => simp [hasEncoderFrame]
    | cons r frames ih =>
      intro d
      rw [List.foldl_cons, ih, gotEnc_take, Bool.or_assoc]
      rfl
  exact (hfold .init).trans (Bool.false_or _)

/-- Over an interval that counts, velocity is the change of position. -/
theorem DriveWheel.update_vel [IsStrictOrderedRing K] {wheel : DriveWheel K} {enc : ℤ} {dt : K}
    (h : MIN_INTERVAL_S < dt) :
    (wheel.update enc dt).vel * dt = (wheel.update enc dt).pos - wheel.pos := by
  have hpos : (0 : K) ≤ MIN_INTERVAL_S := by
    unfold MIN_INTERVAL_S
    positivity
  have hne : dt ≠ 0 := ne_of_gt (lt_of_le_of_lt hpos h)
  simp only [DriveWheel.update, h, if_true]
  field_simp

theorem DriveWheel.update_guarded {wheel : DriveWheel K} {enc : ℤ} {dt : K}
    (h : dt ≤ MIN_INTERVAL_S) : (wheel.update enc dt).vel = wheel.vel := by
  simp only [DriveWheel.update, not_lt.2 h, if_false]

/-- The accumulator is the age of the newest frame. -/
structure Ages (tr : List (Reading K)) (s : System K) : Prop where
  connected : s.canComms.connected = true
  age : s.encDtAccum = Reading.age tr

/-- **One reading.** -/
theorem Ages.reading [IsStrictOrderedRing K] (h : Ages tr s) (ho : readingOf num s e = some o) :
    Published tr o ∧ Ages (tr ++ [o]) (step num s e) := by
  cases e with
  | configure | cleanup | activate | deactivate | write | command => cases ho
  | read frames period =>
    rw [readingOf, if_pos h.connected] at ho
    obtain rfl := Option.some.inj ho
    have hconn : (step num s (.read frames period)).canComms.connected = true :=
      (connected_read num frames period).trans h.connected
    cases hgot : hasEncoderFrame frames with
    | true =>
      obtain ⟨hcode, hL, hR, haccum⟩ := read_fresh num frames period h.connected
        (gotEnc_drained.trans hgot)
      rw [h.age] at hL hR
      refine ⟨⟨fun _ hmin => ⟨?_, ?_⟩, fun _ hmin => ⟨?_, ?_⟩, fun hf => ?_, ?_⟩, hconn, ?_⟩
      · rw [hL]
        exact DriveWheel.update_vel hmin
      · rw [hR]
        exact DriveWheel.update_vel hmin
      · rw [hL]
        exact DriveWheel.update_guarded hmin
      · rw [hR]
        exact DriveWheel.update_guarded hmin
      · cases hf
      · simp [hcode]
      · rw [Reading.age_snoc]
        exact haccum
    | false =>
      obtain ⟨hcode, hL, hR, haccum⟩ := read_missed num frames period h.connected
        (gotEnc_drained.trans hgot)
      rw [h.age] at hcode haccum
      refine ⟨⟨fun hf => ?_, fun hf => ?_, fun _ => ⟨?_, ?_⟩, ?_⟩, hconn, ?_⟩
      · cases hf
      · cases hf
      · exact ⟨congrArg _ hL, congrArg _ hL⟩
      · exact ⟨congrArg _ hR, congrArg _ hR⟩
      · simpa using hcode
      · rw [Reading.age_snoc]
        exact haccum

/-- What is not a reading leaves the age of the newest frame alone. -/
theorem Ages.other (h : Ages tr s) (he : e.InSession) (ho : readingOf num s e = none) :
    Ages tr (step num s e) := by
  have hconn := (connected_step num he).trans h.connected
  cases e with
  | configure | cleanup | activate | deactivate => exact he.elim
  | read frames period => simp [readingOf, h.connected] at ho
  | write steering motor =>
    exact ⟨hconn, (sameOdometry_write num steering motor).encDtAccum.trans h.age⟩
  | command port value => exact ⟨hconn, (sameOdometry_command port value).encDtAccum.trans h.age⟩

omit [LinearOrder K] in
/-- An activation starts the age from nothing. -/
theorem Ages.activate {reset steering : WriteOutcome} (h : s.canComms.connected = true) :
    Ages [] (onActivate num s reset steering).2.2 := by
  simp only [onActivate, h, Bool.not_true, Bool.false_eq_true, if_false]
  refine ⟨?_, rfl⟩
  simp only [CanComms.sendHardwareReset, CanComms.setSteering, connected_send, h]

/-- **Velocity integrates to position** at every fresh cycle of a session
but those that follow the last one by no more than `MIN_INTERVAL_S`. -/
theorem velocity_integrates [IsStrictOrderedRing K] (num : Numerics K) (s : System K)
    (reset steering : WriteOutcome) (es : List (Event K)) (hconn : s.canComms.connected = true)
    (hes : ∀ e ∈ es, e.InSession) :
    AtEach Published (readings num (onActivate num s reset steering).2.2 es) := by
  refine (Run.inv_shown (P := fun _ e => e.InSession)
    (J := fun tr s => AtEach Published tr ∧ Ages tr s) ?_ ?_ ⟨atEach_nil, .activate hconn⟩
    (Run.along_of_forall hes)).1
  · rintro tr s e ⟨hpub, hages⟩ he ho
    exact ⟨hpub, hages.other he ho⟩
  · rintro tr s e o ⟨hpub, hages⟩ - ho
    obtain ⟨hnew, hages'⟩ := hages.reading ho
    exact ⟨hpub.snoc hnew, hages'⟩

/-- Two cycles with an encoder frame each, the second a twentieth of a
millisecond after the first. -/
def hurriedReads : List (Event ℚ) :=
  [.read [(velocityFeedback 0 0).received] (1 / 30),
    .read [(velocityFeedback 500 500).received] (1 / 20000)]

/-- A drive whose socket is open. -/
def sampleConnected : System ℚ := (onConfigure sampleSystem true).2

/-- What `hurriedReads` publishes. -/
theorem velocity_integrates_hurried : AtEach Published (readings sampleNumerics
    (onActivate sampleNumerics sampleConnected none none).2.2 hurriedReads) :=
  velocity_integrates sampleNumerics sampleConnected none none hurriedReads rfl
    (by simp [hurriedReads, Event.InSession])

/-- **Half a turn is lost**: the position has it, and no velocity ever
will. -/
theorem short_interval_is_lost : ¬ AtEach (fun before o => o.fresh = true → Integrates before o)
    (readings sampleNumerics (onActivate sampleNumerics sampleConnected none none).2.2
      hurriedReads) := by
  intro h
  have hreadings : ∃ o o' : Reading ℚ, readings sampleNumerics
      (onActivate sampleNumerics sampleConnected none none).2.2 hurriedReads = [o] ++ [o'] ∧
      o.fresh = true ∧ o'.fresh = true ∧ o'.wheelL'.vel = 0 ∧ o'.wheelL'.pos ≠ o'.wheelL.pos := by
    refine ⟨_, _, rfl, ?_⟩
    decide +kernel
  obtain ⟨o, o', heq, -, hfresh, hvel, hpos⟩ := hreadings
  rw [heq, atEach_snoc] at h
  have hleft := (h.2 hfresh).left
  rw [hvel, zero_mul] at hleft
  exact hpos (sub_eq_zero.1 hleft.symm)

end Readings

end Ackermann

end VehicleStack
