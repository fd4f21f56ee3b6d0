import Mathlib.Algebra.Order.Field.Basic
import Mathlib.Data.Int.Cast.Lemmas
import Mathlib.Tactic.Ring
import VehicleStack.Ackermann.Odometry
import VehicleStack.Ackermann.Sources

/-!
# The drive — ticks on their way

The wheels, the Tiva that counts their ticks in 32 bits, and the component,
with the frames between them. Each count carries, for the record, how far
the wheel had turned and at which tick the count would have been nought
(`Counter.zero`): a reset moves that tick to the present, a wrap moves it by
`2 ^ 32`, and nothing else does. The component supposes that an activation
moves it to the present as well. A published velocity is the wheel's own
exactly when the two agree for the count it is computed from
(`true_motion_iff`), and a count that an activation finds in the queue is
enough to part them (`stale_count_is_motion`).
-/

namespace VehicleStack

namespace Ackermann

/-! ## The Tiva -/

/-- The counter of one wheel, and for the record the ticks turned and the
tick it counts from. -/
structure Counter where
  value : ℤ
  turned : ℤ
  zero : ℤ
  inRange : int32 value = value
  account : turned = zero + value

/-- The wheel turns: the counter follows, in 32 bits. -/
def Counter.turn (c : Counter) (n : ℤ) : Counter where
  value := int32 (c.value + n)
  turned := c.turned + n
  zero := c.zero + (c.value + n - int32 (c.value + n))
  inRange := int32_int32
  account := by
    have h := c.account
    omega

/-- A reset: it counts from here. -/
def Counter.reset (c : Counter) : Counter where
  value := 0
  turned := c.turned
  zero := c.turned
  inRange := rfl
  account := by omega

/-- How far a wheel had turned at a count, and the tick it was counted
from. -/
structure Mark where
  turned : ℤ
  zero : ℤ
  deriving DecidableEq, Repr

def Counter.mark (c : Counter) : Mark := ⟨c.turned, c.zero⟩

/-- What a frame from the host does to a counter. -/
def Counter.receive (c : Counter) (f : CanFrame) : Counter :=
  if f.canId = RESET_COMMAND_FRAME_ID then c.reset else c

/-- A counter that has just been powered up. -/
def Counter.init : Counter := ⟨0, 0, 0, rfl, rfl⟩

/-- A frame on its way to the host: the two counts, or anything that is not
an encoder frame. -/
inductive InFlight
  | counts (left right : Counter)
  | other (r : Received) (h : r.frame.canId ≠ VELOCITY_FEEDBACK_FRAME_ID)

def InFlight.received : InFlight → Received
  | .counts left right => (velocityFeedback left.value right.value).received
  | .other r _ => r

def InFlight.counts? : InFlight → Option (Counter × Counter)
  | .counts left right => some (left, right)
  | .other .. => none

/-- The last counts among some frames. -/
def lastCounts (frames : List InFlight) : Option (Counter × Counter) :=
  (frames.filterMap InFlight.counts?).getLast?

/-! ## The plant -/

/-- The component, the two counters and the frames each way. For the record:
where the component counts from, which is the mark of the last count it has
taken in, or of the reset that an activation since has asked for. -/
structure Plant (K : Type) where
  host : System K
  left : Counter
  right : Counter
  toHost : List InFlight
  toTiva : List CanFrame
  markL : Mark
  markR : Mark

/-- What can happen next. A read takes the first frames of the queue, as many
as have arrived. -/
inductive PlantEvent (K : Type)
  | turn (left right : ℤ)
  | transmit
  | report (r : Received) (h : r.frame.canId ≠ VELOCITY_FEEDBACK_FRAME_ID)
  | deliver
  | read (n : ℕ) (period : K)
  | callback (e : Event K) (h : e.isRead = false)

section Plant

variable {K : Type} [Field K] [LinearOrder K] (num : Numerics K)

/-- A frame for the host, whose socket takes it if it is open. -/
def Plant.send (p : Plant K) (f : InFlight) : Plant K :=
  if p.host.canComms.connected then { p with toHost := p.toHost ++ [f] } else p

/-- What is queued in the socket is gone once it is closed. -/
def Event.keepsSocket : Event K → Bool
  | .configure _ | .cleanup => false
  | _ => true

/-- The host takes a callback other than `read`. -/
def Plant.callback (p : Plant K) (e : Event K) : Plant K :=
  let r := respond num p.host e
  let p' := { p with host := r.2, toTiva := p.toTiva ++ r.1.2
                     toHost := if e.keepsSocket then p.toHost else [] }
  match e with
  | .activate .. =>
    if p.host.canComms.connected then
      { p' with markL := p.left.reset.mark, markR := p.right.reset.mark }
    else p'
  | _ => p'

/-- The host reads the first `n` frames of its queue. -/
def Plant.read (p : Plant K) (n : ℕ) (period : K) : Plant K :=
  if p.host.canComms.connected then
    let frames := p.toHost.take n
    let p' := { p with host := (Ackermann.read num p.host (frames.map InFlight.received) period).2
                       toHost := p.toHost.drop n }
    match lastCounts frames with
    | some (left, right) => { p' with markL := left.mark, markR := right.mark }
    | none => p'
  else p

def Plant.step (p : Plant K) : PlantEvent K → Plant K
  | .turn left right => { p with left := p.left.turn left, right := p.right.turn right }
  | .transmit => p.send (.counts p.left p.right)
  | .report r h => p.send (.other r h)
  | .deliver =>
    match p.toTiva with
    | [] => p
    | f :: rest => { p with left := p.left.receive f, right := p.right.receive f, toTiva := rest }
  | .read n period => p.read num n period
  | .callback e _ => p.callback num e

/-! ## What is meant to hold -/

/-- The counts that an event computes velocities from, and the time it
computes them over, if it does. -/
def velocityCounts (p : Plant K) : PlantEvent K → Option (Counter × Counter × K)
  | .read n period =>
    let accum := p.host.encDtAccum + period
    if p.host.canComms.connected ∧ MIN_INTERVAL_S < accum then
      (lastCounts (p.toHost.take n)).map fun counts => (counts.1, counts.2, accum)
    else none
  | _ => none

/-- A velocity is the wheel's own: the ticks turned since the last count, or
since the activation, over the time they took. -/
def VelocityRight (p : Plant K) (e : PlantEvent K) : Prop :=
  ∀ left right dt, velocityCounts p e = some (left, right, dt) →
    (p.step num e).host.wheelL.vel =
        p.host.wheelL.radsPerCount * (left.turned - p.markL.turned : ℤ) / dt ∧
      (p.step num e).host.wheelR.vel =
        p.host.wheelR.radsPerCount * (right.turned - p.markR.turned : ℤ) / dt

/-- The counts are made from the tick the component counts from: no reset
and no wrap has moved it since the last count taken in; and for the first
one after an activation, it is where the activation was. -/
def ZeroKept (p : Plant K) (e : PlantEvent K) : Prop :=
  ∀ left right dt, velocityCounts p e = some (left, right, dt) →
    (p.host.wheelL.radsPerCount = 0 ∨ left.zero = p.markL.zero) ∧
      (p.host.wheelR.radsPerCount = 0 ∨ right.zero = p.markR.zero)

end Plant

section Velocities

variable {K : Type} [Field K] [LinearOrder K] {num : Numerics K} {p : Plant K} {e : PlantEvent K}
  {es : List (PlantEvent K)} {s : System K}

/-! ## What a read takes in -/

/-- Where the last entry decides, the others do not matter. -/
theorem foldl_last {α β : Type*} {g : α → β} {b : β} {l : List α} :
    l.foldl (fun _ x => g x) b = (l.getLast?.map g).getD b := by
  induction l using List.reverseRecOn with
  | nil => rfl
  | append_singleton l x ih => simp

theorem framesOf_received {fs : List InFlight} :
    framesOf VELOCITY_FEEDBACK_FRAME_ID (fs.map InFlight.received) =
      (fs.filterMap InFlight.counts?).map fun c => velocityFeedback c.1.value c.2.value := by
  induction fs with
  | nil => rfl
  | cons f fs ih =>
    cases f with
    | counts left right => simpa [framesOf, InFlight.received, InFlight.counts?,
        CanFrame.received, velocityFeedback] using ih
    | other r h =>
      have hskip : framesOf VELOCITY_FEEDBACK_FRAME_ID ((InFlight.other r h :: fs).map
          InFlight.received) = framesOf VELOCITY_FEEDBACK_FRAME_ID (fs.map InFlight.received) := by
        simp [framesOf, InFlight.received, h]
      have hnone : (InFlight.other r h).counts? = none := rfl
      rw [hskip, ih, List.filterMap_cons_none hnone]

omit [LinearOrder K] in
/-- **What is drained is the last count sent.** -/
theorem drained_counts (num : Numerics K) (fs : List InFlight) :
    (drained num (fs.map InFlight.received)).encoder =
      ((lastCounts fs).map fun c => (true, c.1.value, c.2.value)).getD (false, 0, 0) := by
  have hwf : ∀ f ∈ framesOf VELOCITY_FEEDBACK_FRAME_ID (fs.map InFlight.received),
      f.WellFormed := by
    intro f hf
    rw [framesOf_received] at hf
    obtain ⟨c, -, rfl⟩ := List.mem_map.1 hf
    exact le_refl 8
  have hcounts : ∀ c : Counter × Counter,
      encoderOf (velocityFeedback c.1.value c.2.value).data = (true, c.1.value, c.2.value) := by
    intro c
    rw [encoderOf, ofData_velocityFeedback, c.1.inRange, c.2.inRange]
  rw [encoder_drained num hwf, framesOf_received, List.foldl_map, lastCounts, ← foldl_last]
  simp only [hcounts]

/-! ## The record -/

/-- A wheel is where its count says, and the count is made from the mark. -/
structure DriveWheel.CountsFrom (wheel : DriveWheel K) (m : Mark) : Prop where
  pos : wheel.pos = wheel.enc * wheel.radsPerCount
  turned : m.turned = m.zero + wheel.enc

omit [LinearOrder K] in
/-- Commands do not matter. -/
theorem DriveWheel.CountsFrom.congr {wheel wheel' : DriveWheel K} {m : Mark}
    (h : wheel.CountsFrom m) (hw : wheel'.uncommanded = wheel.uncommanded) :
    wheel'.CountsFrom m := by
  obtain ⟨henc, hpos, -, hrads⟩ := uncommanded_fields hw
  exact ⟨by rw [hpos, henc, hrads, h.pos], by rw [henc, h.turned]⟩

/-- A wheel that takes a count in counts from its mark. -/
theorem DriveWheel.countsFrom_update {wheel : DriveWheel K} {c : Counter} {dt : K} :
    (wheel.update c.value dt).CountsFrom c.mark := by
  refine ⟨?_, ?_⟩
  · simp only [DriveWheel.update, DriveWheel.calcEncAngle]
    split <;> rfl
  · have henc : (wheel.update c.value dt).enc = c.value := by
      simp only [DriveWheel.update]
      split <;> rfl
    rw [henc]
    exact c.account

/-- **One wheel's velocity** is its own exactly when the count is made from
the tick that the wheel counts from. -/
theorem DriveWheel.CountsFrom.velocity_iff [IsStrictOrderedRing K] {wheel : DriveWheel K}
    {m : Mark} {c : Counter} {dt : K} (h : wheel.CountsFrom m) (hmin : MIN_INTERVAL_S < dt) :
    (wheel.update c.value dt).vel = wheel.radsPerCount * (c.turned - m.turned : ℤ) / dt ↔
      wheel.radsPerCount = 0 ∨ c.zero = m.zero := by
  have hpos : (0 : K) ≤ MIN_INTERVAL_S := by
    unfold MIN_INTERVAL_S
    positivity
  have hne : dt ≠ 0 := ne_of_gt (lt_of_le_of_lt hpos hmin)
  have hvel : (wheel.update c.value dt).vel =
      wheel.radsPerCount * (c.value - wheel.enc : ℤ) / dt := by
    simp only [DriveWheel.update, hmin, if_true, DriveWheel.calcEncAngle, h.pos]
    push_cast
    ring
  rw [hvel, div_left_inj' hne, mul_eq_mul_left_iff, Int.cast_inj, or_comm]
  have haccount := c.account
  have hturned := h.turned
  refine or_congr_right ?_
  omega

/-- Both wheels count from their marks. -/
structure Counted (p : Plant K) : Prop where
  left : p.host.wheelL.CountsFrom p.markL
  right : p.host.wheelR.CountsFrom p.markR

/-- A read that takes counts in. -/
theorem Plant.read_counts (num : Numerics K) {n : ℕ} (period : K) {left right : Counter}
    (hconn : p.host.canComms.connected = true)
    (hlast : lastCounts (p.toHost.take n) = some (left, right)) :
    (p.read num n period).host.wheelL =
        p.host.wheelL.update left.value (p.host.encDtAccum + period) ∧
      (p.read num n period).host.wheelR =
        p.host.wheelR.update right.value (p.host.encDtAccum + period) ∧
      (p.read num n period).markL = left.mark ∧ (p.read num n period).markR = right.mark := by
  have hdrained := drained_counts num (p.toHost.take n)
  simp only [hlast, Drain.encoder, Option.map_some, Option.getD_some, Prod.mk.injEq] at hdrained
  obtain ⟨hgot, hl, hr⟩ := hdrained
  obtain ⟨-, hL, hR, -⟩ := read_fresh num _ period hconn hgot
  rw [hl] at hL
  rw [hr] at hR
  simp only [Plant.read, hconn, if_true, hlast]
  exact ⟨hL, hR, trivial, trivial⟩

/-- One that finds none. -/
theorem Plant.read_none (num : Numerics K) {n : ℕ} (period : K)
    (hconn : p.host.canComms.connected = true)
    (hlast : lastCounts (p.toHost.take n) = none) :
    (p.read num n period).host.wheelL = p.host.wheelL ∧
      (p.read num n period).host.wheelR = p.host.wheelR ∧
      (p.read num n period).markL = p.markL ∧ (p.read num n period).markR = p.markR := by
  have hdrained := drained_counts num (p.toHost.take n)
  simp only [hlast, Drain.encoder, Option.map_none, Option.getD_none, Prod.mk.injEq] at hdrained
  obtain ⟨-, hL, hR, -⟩ := read_missed num _ period hconn hdrained.1
  simp only [Plant.read, hconn, if_true, hlast]
  exact ⟨hL, hR, trivial, trivial⟩

/-- **A velocity is right exactly when the zero was kept.** -/
theorem Counted.velocityRight_iff [IsStrictOrderedRing K] (h : Counted p) :
    VelocityRight num p e ↔ ZeroKept p e := by
  refine forall₃_congr fun left right dt => imp_congr_right fun hcounts => ?_
  cases e with
  | turn | transmit | report | deliver | callback => cases hcounts
  | read n period =>
    simp only [velocityCounts] at hcounts
    split at hcounts
    · rename_i hread
      obtain ⟨hconn, hmin⟩ := hread
      obtain ⟨counts, hlast, heq⟩ := Option.map_eq_some_iff.1 hcounts
      obtain ⟨rfl, rfl, rfl⟩ : counts.1 = left ∧ counts.2 = right ∧
          p.host.encDtAccum + period = dt := by simpa using heq
      obtain ⟨hL, hR, -, -⟩ := Plant.read_counts num period hconn hlast
      simp only [Plant.step]
      rw [hL, hR]
      exact and_congr (h.left.velocity_iff hmin) (h.right.velocity_iff hmin)
    · cases hcounts

omit [LinearOrder K] in
theorem Counted.host {p' : Plant K} (h : Counted p)
    (hL : p'.host.wheelL.uncommanded = p.host.wheelL.uncommanded)
    (hR : p'.host.wheelR.uncommanded = p.host.wheelR.uncommanded) (hmarkL : p'.markL = p.markL)
    (hmarkR : p'.markR = p.markR) : Counted p' :=
  ⟨hmarkL ▸ h.left.congr hL, hmarkR ▸ h.right.congr hR⟩

omit [LinearOrder K] in
theorem Counted.send {f : InFlight} (h : Counted p) : Counted (p.send f) := by
  rw [Plant.send]
  split
  · exact ⟨h.left, h.right⟩
  · exact h

omit [LinearOrder K] in
/-- An activation that succeeds counts from the reset it has asked for. -/
theorem countsFrom_activate {c : Counter} {wheel : DriveWheel K} :
    ({ wheel with enc := 0, pos := 0, vel := 0 } : DriveWheel K).CountsFrom c.reset.mark :=
  ⟨by simp, by simp [Counter.mark, Counter.reset]⟩

theorem Counted.callback (h : Counted p) {e : Event K} (he : e.isRead = false) :
    Counted (p.callback num e) := by
  cases e with
  | read frames period => cases he
  | configure connects => exact ⟨h.left, h.right⟩
  | cleanup => exact ⟨h.left, h.right⟩
  | activate reset steering =>
    simp only [Plant.callback, respond]
    cases hconn : p.host.canComms.connected with
    | false =>
      simp only [onActivate, hconn]
      exact ⟨h.left, h.right⟩
    | true =>
      simp only [onActivate, hconn]
      exact ⟨countsFrom_activate, countsFrom_activate⟩
  | deactivate motor steering =>
    have hsame := sameOdometry_deactivate num p.host motor steering
    exact h.host hsame.wheelL hsame.wheelR rfl rfl
  | write steering motor =>
    have hsame := sameOdometry_write num (s := p.host) steering motor
    exact h.host hsame.wheelL hsame.wheelR rfl rfl
  | command port value =>
    have hsame := sameOdometry_command (s := p.host) port value
    exact h.host hsame.wheelL hsame.wheelR rfl rfl

/-- **The record fits after every event.** -/
theorem Counted.step (h : Counted p) : Counted (p.step num e) := by
  cases e with
  | turn left right => exact ⟨h.left, h.right⟩
  | transmit => exact h.send
  | report r hr => exact h.send
  | deliver =>
    simp only [Plant.step]
    split
    · exact h
    · exact ⟨h.left, h.right⟩
  | read n period =>
    simp only [Plant.step]
    cases hconn : p.host.canComms.connected with
    | false =>
      rw [Plant.read, if_neg (by rw [hconn]; decide)]
      exact h
    | true =>
      cases hlast : lastCounts (p.toHost.take n) with
      | none =>
        obtain ⟨hL, hR, hmarkL, hmarkR⟩ := Plant.read_none num period hconn
          hlast
        exact h.host (congrArg _ hL) (congrArg _ hR) hmarkL hmarkR
      | some counts =>
        obtain ⟨hL, hR, hmarkL, hmarkR⟩ := Plant.read_counts num period
          hconn hlast
        refine ⟨?_, ?_⟩
        · rw [hL, hmarkL]
          exact DriveWheel.countsFrom_update
        · rw [hR, hmarkR]
          exact DriveWheel.countsFrom_update
  | callback e he => exact h.callback he

theorem counted_activate {reset steering : WriteOutcome}
    (hconn : p.host.canComms.connected = true) :
    Counted (p.callback num (.activate reset steering)) := by
  simp only [Plant.callback, respond, onActivate, hconn]
  exact ⟨countsFrom_activate, countsFrom_activate⟩

/-- **Velocity is the wheel's own motion**, after an activation, in exactly
the runs in which every count a velocity is computed from is made from the
tick that the component counts from. -/
theorem true_motion_iff [IsStrictOrderedRing K] (num : Numerics K) (p : Plant K)
    (reset steering : WriteOutcome) (es : List (PlantEvent K))
    (hconn : p.host.canComms.connected = true) :
    Run.Along (Plant.step num) (VelocityRight num) (p.callback num (.activate reset steering)) es ↔
      Run.Along (Plant.step num) ZeroKept (p.callback num (.activate reset steering)) es := by
  constructor
  · exact Run.along_of_inv (fun _ _ h _ => h.step) (fun _ _ h => h.velocityRight_iff.1)
      (counted_activate hconn)
  · exact Run.along_of_inv (fun _ _ h _ => h.step) (fun _ _ h => h.velocityRight_iff.2)
      (counted_activate hconn)

/-! ## Runs that move no zero -/

/-- No wrap; a reset that finds the counters at nought; an activation that
does, with no count on its way. -/
def Calm (p : Plant K) : PlantEvent K → Prop
  | .turn left right => int32 (p.left.value + left) = p.left.value + left ∧
      int32 (p.right.value + right) = p.right.value + right
  | .deliver => ∀ f ∈ p.toTiva.head?, f.canId = RESET_COMMAND_FRAME_ID →
      p.left.value = 0 ∧ p.right.value = 0
  | .callback (.activate ..) _ => p.left.value = 0 ∧ p.right.value = 0 ∧
      ∀ left right, .counts left right ∉ p.toHost
  | _ => True

/-- The counters, and the counts on their way, are made from the tick that
the component counts from. -/
structure Steady (p : Plant K) : Prop where
  left : p.left.zero = p.markL.zero
  right : p.right.zero = p.markR.zero
  queued : ∀ left right, .counts left right ∈ p.toHost →
    left.zero = p.markL.zero ∧ right.zero = p.markR.zero

theorem mem_of_lastCounts {fs : List InFlight} {left right : Counter}
    (h : lastCounts fs = some (left, right)) : .counts left right ∈ fs := by
  obtain ⟨f, hf, hcounts⟩ := List.mem_filterMap.1 (List.mem_of_getLast? h)
  cases f with
  | counts left' right' =>
    obtain ⟨rfl, rfl⟩ : left' = left ∧ right' = right := by simpa [InFlight.counts?] using hcounts
    exact hf
  | other r hr => cases hcounts

theorem Counter.zero_turn {c : Counter} {n : ℤ} (h : int32 (c.value + n) = c.value + n) :
    (c.turn n).zero = c.zero := by
  simp only [Counter.turn, h]
  omega

theorem Counter.zero_reset {c : Counter} (h : c.value = 0) : c.reset.zero = c.zero := by
  have haccount := c.account
  simp only [Counter.reset]
  omega

theorem Counter.zero_receive {c : Counter} {f : CanFrame}
    (h : f.canId = RESET_COMMAND_FRAME_ID → c.value = 0) : (c.receive f).zero = c.zero := by
  rw [Counter.receive]
  split
  · rename_i hid
    exact c.zero_reset (h hid)
  · rfl

omit [Field K] [LinearOrder K] in
theorem Steady.send {f : InFlight} (h : Steady p)
    (hf : ∀ left right, .counts left right = f →
      left.zero = p.markL.zero ∧ right.zero = p.markR.zero) : Steady (p.send f) := by
  rw [Plant.send]
  split
  · refine ⟨h.left, h.right, fun left right hmem => ?_⟩
    rcases List.mem_append.1 hmem with hmem | hmem
    · exact h.queued left right hmem
    · exact hf left right (List.mem_singleton.1 hmem)
  · exact h

theorem Steady.read {n : ℕ} {period : K} (h : Steady p) : Steady (p.read num n period) := by
  simp only [Plant.read]
  split
  · have hdrop : ∀ left right, .counts left right ∈ p.toHost.drop n →
        left.zero = p.markL.zero ∧ right.zero = p.markR.zero :=
      fun left right hmem => h.queued left right (List.mem_of_mem_drop hmem)
    split
    · rename_i left right hlast
      -- the mark moves to a count that is made from the same tick
      obtain ⟨hl, hr⟩ := h.queued left right (List.mem_of_mem_take (mem_of_lastCounts hlast))
      refine ⟨h.left.trans hl.symm, h.right.trans hr.symm, fun left' right' hmem => ?_⟩
      obtain ⟨hl', hr'⟩ := hdrop left' right' hmem
      exact ⟨hl'.trans hl.symm, hr'.trans hr.symm⟩
    · exact ⟨h.left, h.right, hdrop⟩
  · exact h

theorem steady_activate {reset steering : WriteOutcome} (hleft : p.left.value = 0)
    (hright : p.right.value = 0) (hqueue : ∀ left right, .counts left right ∉ p.toHost)
    (hconn : p.host.canComms.connected = true) :
    Steady (p.callback num (.activate reset steering)) := by
  simp only [Plant.callback, hconn, if_true]
  exact ⟨(p.left.zero_reset hleft).symm, (p.right.zero_reset hright).symm,
    fun left right hmem => absurd hmem (hqueue left right)⟩

theorem Steady.callback {e : Event K} (h : Steady p) (he : e.isRead = false)
    (hcalm : Calm p (.callback e he)) : Steady (p.callback num e) := by
  cases e with
  | read frames period => cases he
  | activate reset steering =>
    cases hconn : p.host.canComms.connected with
    | true => exact steady_activate hcalm.1 hcalm.2.1 hcalm.2.2 hconn
    | false =>
      simp only [Plant.callback, hconn]
      exact ⟨h.left, h.right, h.queued⟩
  | configure connects =>
    exact ⟨h.left, h.right, fun left right hmem => absurd hmem List.not_mem_nil⟩
  | cleanup => exact ⟨h.left, h.right, fun left right hmem => absurd hmem List.not_mem_nil⟩
  | deactivate motor steering => exact ⟨h.left, h.right, h.queued⟩
  | write steering motor => exact ⟨h.left, h.right, h.queued⟩
  | command port value => exact ⟨h.left, h.right, h.queued⟩

theorem Steady.step (h : Steady p) (hcalm : Calm p e) : Steady (p.step num e) := by
  cases e with
  | turn left right =>
    exact ⟨(Counter.zero_turn hcalm.1).trans h.left, (Counter.zero_turn hcalm.2).trans h.right,
      h.queued⟩
  | transmit =>
    refine h.send fun left right heq => ?_
    cases heq
    exact ⟨h.left, h.right⟩
  | report r hr => exact h.send fun left right heq => by cases heq
  | deliver =>
    simp only [Plant.step]
    split
    · exact h
    · rename_i f rest hqueue
      have hzero := hcalm f (by rw [hqueue]; rfl)
      exact ⟨(Counter.zero_receive fun hid => (hzero hid).1).trans h.left,
        (Counter.zero_receive fun hid => (hzero hid).2).trans h.right, h.queued⟩
  | read n period => exact h.read
  | callback e he => exact h.callback he hcalm

theorem Steady.zeroKept (h : Steady p) : ZeroKept p e := by
  intro left right dt hcounts
  cases e with
  | turn | transmit | report | deliver | callback => cases hcounts
  | read n period =>
    simp only [velocityCounts] at hcounts
    split at hcounts
    · obtain ⟨counts, hlast, heq⟩ := Option.map_eq_some_iff.1 hcounts
      obtain ⟨rfl, rfl, -⟩ : counts.1 = left ∧ counts.2 = right ∧
          p.host.encDtAccum + period = dt := by simpa using heq
      obtain ⟨hl, hr⟩ := h.queued _ _ (List.mem_of_mem_take (mem_of_lastCounts hlast))
      exact ⟨Or.inr hl, Or.inr hr⟩
    · cases hcounts

/-- **Where nothing moves a zero, every velocity is the wheel's own.** -/
theorem velocity_right_of_calm [IsStrictOrderedRing K] {reset steering : WriteOutcome}
    (hconn : p.host.canComms.connected = true) (hstart : Calm p (.callback (.activate reset
      steering) rfl)) (hcalm : Run.Along (Plant.step num) Calm
      (p.callback num (.activate reset steering)) es) :
    Run.Along (Plant.step num) (VelocityRight num) (p.callback num (.activate reset steering))
      es :=
  Run.along_of_inv (I := fun p => Counted p ∧ Steady p)
    (fun _ _ h hc => ⟨h.1.step, h.2.step hc⟩) (fun _ _ h _ => h.1.velocityRight_iff.2 h.2.zeroKept)
    ⟨counted_activate hconn, steady_activate hstart.1 hstart.2.1 hstart.2.2 hconn⟩ hcalm

end Velocities

/-! ## A count left in the queue -/

/-- A drive whose socket is open, wheels that have turned a thousand ticks,
and the frame that says so still in the queue. -/
def parkedPlant : Plant ℚ where
  host := sampleConnected
  left := Counter.init.turn 1000
  right := Counter.init.turn 1000
  toHost := [.counts (Counter.init.turn 1000) (Counter.init.turn 1000)]
  toTiva := []
  markL := Counter.init.mark
  markR := Counter.init.mark

/-- The same drive with its queue read and its counters set back. -/
def readyPlant : Plant ℚ := { parkedPlant with left := .init, right := .init, toHost := [] }

/-- Ten ticks after the reset has arrived are ten ticks. -/
theorem true_motion_iff_ready :
    Run.Along (Plant.step sampleNumerics) (VelocityRight sampleNumerics)
      (readyPlant.callback sampleNumerics (.activate none none))
      [.deliver, .turn 10 10, .transmit, .read 1 (1 / 30)] := by
  refine (true_motion_iff sampleNumerics readyPlant none none _ rfl).2 ?_
  have hsteady : Steady (readyPlant.callback sampleNumerics (.activate none none)) :=
    steady_activate rfl rfl (fun _ _ => List.not_mem_nil) rfl
  refine Run.along_of_inv (P := Calm) (fun _ _ h hc => h.step hc) (fun _ _ h _ => h.zeroKept)
    hsteady ⟨fun _ _ _ => ⟨rfl, rfl⟩, ⟨?_, ?_⟩, trivial, trivial, trivial⟩
  · decide +kernel
  · decide +kernel

/-- **A velocity of a thousand ticks a cycle**, and the wheels are still. -/
theorem stale_count_is_motion : ¬ Run.Along (Plant.step sampleNumerics)
    (VelocityRight sampleNumerics) (parkedPlant.callback sampleNumerics (.activate none none))
    [.read 1 (1 / 30)] := by
  rintro ⟨h, -⟩
  have hopen : (parkedPlant.callback sampleNumerics (.activate none none)).host.canComms.connected =
      true ∧ MIN_INTERVAL_S < (parkedPlant.callback sampleNumerics
        (.activate none none)).host.encDtAccum + 1 / 30 := by decide +kernel
  have hvel := (h (Counter.init.turn 1000) (Counter.init.turn 1000) _ (if_pos hopen)).1
  revert hvel
  decide +kernel

end Ackermann

end VehicleStack
