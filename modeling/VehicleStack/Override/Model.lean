import Mathlib.Algebra.Order.Field.Basic
import Mathlib.Algebra.Order.Group.Unbundled.Abs
import Mathlib.Data.Rat.Cast.Order

/-!
# The manual override

`xbox_override.py`: Joy messages come in, and a timer's ticks turn the last
one into Twists. Numbers are those of any ordered field, with the tangent
as a parameter. Log lines are left out, and with them the two fields that
only say when to write one. `trace` records what arrives, what a tick does
and what it publishes, oldest first; the node never reads it.
-/

namespace VehicleStack

namespace Override

/-- `sensor_msgs/Joy`. -/
structure Joy (K : Type) where
  axes : List K
  buttons : List ℤ
  deriving DecidableEq, Repr

/-- The two fields of a `geometry_msgs/Twist` that the node sets. -/
structure Twist (K : Type) where
  linearX : K
  angularZ : K
  deriving DecidableEq, Repr

/-- What is known of the pad: three axes and the button that engages. -/
structure Pad (I : Type) where
  rtAxis : I
  ltAxis : I
  steerAxis : I
  rbButton : I
  deriving DecidableEq, Repr

/-- `PAD_MAPS`. -/
def PAD_MAPS (nAx nBtn : ℕ) : Option (Pad ℤ) :=
  if (nAx, nBtn) = (8, 12) then some ⟨5, 2, 0, 5⟩
  else if (nAx, nBtn) = (6, 16) then some ⟨5, 4, 0, 10⟩
  else none

section Numbers

variable {K : Type} [Field K]

def WHEELBASE : K := 23529 / 100000
def REST_THRESH : K := 9 / 10
def STICK_DEADZONE : K := 12 / 100
def TRIGGER_DEADZONE : K := 5 / 100

end Numbers

/-- The parsed arguments. An index that was not given is `none`. -/
structure Args (K : Type) where
  tail : K
  joyTimeout : K
  maxFwd : K
  maxRev : K
  maxSteer : K
  steerSign : K
  pad : Pad (Option ℤ)

/-- The arguments of an empty command line. -/
def Args.default {K : Type} [Field K] : Args K where
  tail := 1
  joyTimeout := 25 / 100
  maxFwd := 20 / 100
  maxRev := 10 / 100
  maxSteer := 286 / 1000
  steerSign := 1
  pad := ⟨none, none, none, none⟩

/-- Two readings of the monotonic clock by one tick: at its beginning, and
where it disarms. -/
structure Clock (K : Type) [LE K] where
  now : K
  later : K
  le : now ≤ later

/-- What a run has done. -/
inductive Obs (K : Type)
  /-- A Joy message has arrived. -/
  | joy (t : K) (msg : Joy K)
  /-- The first one has settled the indices. -/
  | resolved (pad : Pad ℤ)
  /-- `disarm` was called. -/
  | disarmed
  /-- A tick has read both trigger axes. -/
  | read (rt lt : K)
  /-- `engaged` goes to true. -/
  | engaged
  /-- `engaged` goes to false, at the time that the tail counts from. -/
  | released (t : K)
  /-- A tick has come to its end: whether the node is engaged then, and what
  it has published. -/
  | tick (now : K) (engaged : Bool) (out : Option (Twist K))
  /-- The node has ended, and left its burst of zero Twists behind. -/
  | stopped
  deriving DecidableEq, Repr

/-- `st`, and the indices once they are settled. -/
structure Node (K : Type) where
  pad : Option (Pad ℤ)
  joy : Option (Joy K)
  joyT : K
  seenJoy : Bool
  armedRt : Bool
  armedLt : Bool
  engaged : Bool
  tailUntil : K
  running : Bool
  trace : List (Obs K)
  deriving DecidableEq

/-- `xs[i]` of a Python list: a negative index counts from the end, and one
that is out of range raises. -/
def getItem {α : Type} (xs : List α) (i : ℤ) : Option α :=
  if 0 ≤ i then xs[i.toNat]?
  else if 0 ≤ xs.length + i then xs[(xs.length + i).toNat]?
  else none

/-- `resolve_pad_map`: what is not given is taken from the profile of the
pad's shape. Without one the node exits. -/
def resolvePadMap (chosen : Pad (Option ℤ)) (nAx nBtn : ℕ) : Option (Pad ℤ) :=
  match chosen with
  | ⟨some rt, some lt, some steer, some rb⟩ => some ⟨rt, lt, steer, rb⟩
  | ⟨rt, lt, steer, rb⟩ => (PAD_MAPS nAx nBtn).map fun prof =>
      ⟨rt.getD prof.rtAxis, lt.getD prof.ltAxis, steer.getD prof.steerAxis,
        rb.getD prof.rbButton⟩

section Node

variable {K : Type} [Field K] [LinearOrder K] (args : Args K) (s : Node K)

/-- `Twist()`. -/
def Twist.zero : Twist K := ⟨0, 0⟩

/-- The fields before the first message. -/
def Node.init : Node K where
  pad := none
  joy := none
  joyT := 0
  seenJoy := false
  armedRt := false
  armedLt := false
  engaged := false
  tailUntil := 0
  running := true
  trace := []

def Node.observe (o : Obs K) : Node K := { s with trace := s.trace ++ [o] }

/-- The end of the process, whose last act is a stop. -/
def Node.exit : Node K := { s.observe .stopped with running := false }

/-- `on_joy`. -/
def onJoy (msg : Joy K) (t : K) : Node K :=
  let s := { s.observe (.joy t msg) with joy := some msg, joyT := t }
  if s.seenJoy then s
  else
    let s := { s with seenJoy := true }
    match resolvePadMap args.pad msg.axes.length msg.buttons.length with
    | none => s.exit
    | some pad => { s.observe (.resolved pad) with pad := some pad }

/-- `engaged` is cleared, and the tail counts from `t`. -/
def Node.release (t : K) : Node K :=
  if s.engaged then
    { s.observe (.released t) with engaged := false, tailUntil := t + args.tail }
  else s

/-- `disarm`. -/
def disarm (later : K) : Node K :=
  Node.release args { s.observe .disarmed with armedRt := false, armedLt := false } later

/-- What `trigger` leaves of the armed flag. -/
def armed (axisVal : K) (flag : Bool) : Bool := flag || decide (REST_THRESH ≤ axisVal)

/-- How far a trigger is pressed. -/
def travel (axisVal : K) : K := max 0 (min 1 ((1 - axisVal) / 2))

/-- `trigger`, with the armed flag as it leaves it. -/
def trigger (axisVal : K) (armed : Bool) : K :=
  if armed then
    if travel axisVal < TRIGGER_DEADZONE then 0 else travel axisVal
  else 0

/-- `_tail_or_silence`. -/
def tailOrSilence (now : K) : Option (Twist K) :=
  if now < s.tailUntil then some .zero else none

/-- No message yet, or none for too long. -/
def stale (now : K) : Bool :=
  match s.joy with
  | none => true
  | some _ => decide (args.joyTimeout < now - s.joyT)

/-- An index that the message does not have. -/
def outOfRange (pad : Pad ℤ) (msg : Joy K) : Bool :=
  decide ((msg.axes.length : ℤ) ≤ max (max pad.rtAxis pad.ltAxis) pad.steerAxis ∨
    (msg.buttons.length : ℤ) ≤ pad.rbButton)

/-- The command, from the two triggers and the stick. -/
def command (tan : K → K) (fwd rev axisVal : K) : Twist K :=
  let vx := if 0 < fwd ∧ 0 < rev then 0 else fwd * args.maxFwd - rev * args.maxRev
  let stick := axisVal * args.steerSign
  let stick := if |stick| < STICK_DEADZONE then 0 else stick
  let delta := max (-args.maxSteer) (min args.maxSteer (stick * args.maxSteer))
  ⟨vx, vx * tan delta / WHEELBASE⟩

/-- The triggers have been read. -/
def Node.arm (rt lt : K) : Node K :=
  { s.observe (.read rt lt) with armedRt := armed rt s.armedRt, armedLt := armed lt s.armedLt }

/-- `engaged` is set. -/
def Node.engage : Node K :=
  if s.engaged then s else { s.observe .engaged with engaged := true }

/-- `tick`: what it leaves and what it publishes, or nothing where it
raises. The indices are settled once there is a message. -/
def tick (tan : K → K) (now later : K) : Option (Node K × Option (Twist K)) :=
  if stale args s now then
    let s :=
      if s.seenJoy && s.joy.isSome then disarm args s later
      else if s.engaged then disarm args s later
      else s
    some (s, tailOrSilence s now)
  else do
    let j ← s.joy
    let pad ← s.pad
    -- `engaged` is left as it is
    if outOfRange pad j then some (s, tailOrSilence s now)
    else
      let rt ← getItem j.axes pad.rtAxis
      let lt ← getItem j.axes pad.ltAxis
      let s := s.arm rt lt
      let rb ← getItem j.buttons pad.rbButton
      let s := if rb ≠ 0 ∧ s.armedRt ∧ s.armedLt then s.engage else s.release args now
      if !s.engaged then some (s, tailOrSilence s now)
      else
        let stick ← getItem j.axes pad.steerAxis
        some (s, some (command args tan (trigger rt s.armedRt) (trigger lt s.armedLt) stick))

end Node

/-- What reaches the node. -/
inductive Event (K : Type) [LE K]
  | joy (t : K) (msg : Joy K)
  | tick (c : Clock K)

variable {K : Type} [Field K] [LinearOrder K]

/-- A message of the pad's USB shape: the two triggers and RB, and the stick
at rest. -/
def usbJoy (rt lt : K) (rb : ℤ) : Joy K :=
  ⟨[0, 0, lt, 0, 0, rt, 0, 0], [0, 0, 0, 0, 0, rb, 0, 0, 0, 0, 0, 0]⟩

/-- One event. An exception ends the node. -/
def step (args : Args K) (tan : K → K) (s : Node K) (e : Event K) : Node K :=
  if s.running then
    match e with
    | .joy t msg => onJoy args s msg t
    | .tick c =>
      match tick args s tan c.now c.later with
      | none => s.exit
      | some (s, out) => s.observe (.tick c.now s.engaged out)
  else s

end Override

end VehicleStack
