import VehicleStack.Common.History
import VehicleStack.Common.Run
import VehicleStack.Override.Ticks
import Mathlib.Analysis.SpecialFunctions.Trigonometric.Basic

/-!
# The manual override — nothing moves by itself

A Twist that moves the vehicle has a warrant in what the node has received:
a message that is fresh, holds RB and presses one trigger, after each of
the triggers has been seen at rest since the node last disarmed
(`Warranted`). `Remembers` ties the node's flags to that history, and every
Twist is within the limits of the arguments. `motion_warranted` puts the two
together for every run.
-/

namespace VehicleStack

namespace Override

open History

variable {K : Type} [Field K] [LinearOrder K] {args : Args K} {tan : K → K} {s s' : Node K}
  {now later t : K} {out : Option (Twist K)} {o : Obs K} {tr : List (Obs K)} {msg : Joy K}
  {pad : Pad ℤ}

/-- The entry is about the messages that arrive. -/
def Obs.IsJoy : Obs K → Prop
  | .joy _ _ => True
  | _ => False

/-- It is about the pad's indices. -/
def Obs.IsPad : Obs K → Prop
  | .resolved _ => True
  | _ => False

/-- It disarms the triggers. -/
def Obs.IsDisarm : Obs K → Prop
  | .disarmed => True
  | _ => False

/-- A trigger has been read at rest since the last disarm; `side` says
which of the two. -/
def Rested (side : K → K → K) (tr : List (Obs K)) : Prop :=
  ∃ rt lt, Last Obs.IsDisarm (.read rt lt) tr ∧ REST_THRESH ≤ side rt lt

/-- RB is pressed in the message, and one trigger is past its deadzone. -/
def Commands (pad : Pad ℤ) (msg : Joy K) : Prop :=
  ∃ rb rt lt, getItem msg.buttons pad.rbButton = some rb ∧ rb ≠ 0 ∧
    getItem msg.axes pad.rtAxis = some rt ∧ getItem msg.axes pad.ltAxis = some lt ∧
    Xor (PastDeadzone rt) (PastDeadzone lt)

/-- The vehicle may be moved at `now`. -/
def Warranted (args : Args K) (now : K) (tr : List (Obs K)) : Prop :=
  (∃ pad t msg, Last Obs.IsPad (.resolved pad) tr ∧ Last Obs.IsJoy (.joy t msg) tr ∧
    now - t ≤ args.joyTimeout ∧ Commands pad msg) ∧
  Rested (fun rt _ => rt) tr ∧ Rested (fun _ lt => lt) tr

/-- A Twist is within the limits, and has a warrant if it moves the
vehicle. -/
def Interlocked (args : Args K) (tan : K → K) (before : List (Obs K)) : Obs K → Prop
  | .tick now _ (some tw) => Capped args tan tw ∧ (tw.linearX ≠ 0 → Warranted args now before)
  | .stopped => Capped args tan .zero
  | _ => True

/-! ## What the node remembers -/

/-- **The node's fields say what has happened.** -/
structure Remembers (s : Node K) : Prop where
  joy : ∀ msg, s.joy = some msg → Last Obs.IsJoy (.joy s.joyT msg) s.trace
  pad : ∀ pad, s.pad = some pad → Last Obs.IsPad (.resolved pad) s.trace
  rt : s.armedRt = true → Rested (fun rt _ => rt) s.trace
  lt : s.armedLt = true → Rested (fun _ lt => lt) s.trace

theorem rested_snoc {side : K → K → K} (h : Rested side tr)
    (ho : ¬ o.IsDisarm) : Rested side (tr ++ [o]) := by
  obtain ⟨rt, lt, hlast, hrest⟩ := h
  exact ⟨rt, lt, hlast.snoc ho, hrest⟩

/-- An entry on another matter. -/
theorem Remembers.observe (h : Remembers s) (hjoy : ¬ o.IsJoy) (hpad : ¬ o.IsPad)
    (hdisarm : ¬ o.IsDisarm) : Remembers (s.observe o) :=
  ⟨fun msg hmsg => (h.joy msg hmsg).snoc hjoy, fun pad hp => (h.pad pad hp).snoc hpad,
    fun hrt => rested_snoc (h.rt hrt) hdisarm, fun hlt => rested_snoc (h.lt hlt) hdisarm⟩

theorem Remembers.release (h : Remembers s) : Remembers (s.release args t) := by
  unfold Node.release
  split
  · obtain ⟨hjoy, hpad, hrt, hlt⟩ := h.observe (o := .released t) id id id
    exact ⟨hjoy, hpad, hrt, hlt⟩
  · exact h

theorem Remembers.engage (h : Remembers s) : Remembers s.engage := by
  unfold Node.engage
  split
  · exact h
  · obtain ⟨hjoy, hpad, hrt, hlt⟩ := h.observe (o := .engaged) id id id
    exact ⟨hjoy, hpad, hrt, hlt⟩

theorem Remembers.disarm (h : Remembers s) : Remembers (disarm args s t) := by
  refine Remembers.release ⟨fun msg hmsg => (h.joy msg hmsg).snoc id,
    fun pad hp => (h.pad pad hp).snoc id, (fun h => by cases h), fun h => by cases h⟩

/-- What is read at rest arms. -/
theorem Remembers.arm {rt lt : K} (h : Remembers s) : Remembers (s.arm rt lt) := by
  have hobs : Remembers (s.observe (.read rt lt)) := h.observe id id id
  have harm : ∀ (side : K → K → K) (flag : Bool),
      (flag = true → Rested side (s.trace ++ [.read rt lt])) →
      armed (side rt lt) flag = true → Rested side (s.trace ++ [.read rt lt]) := by
    intro side flag hflag harmed
    rcases Bool.or_eq_true_iff.1 harmed with hset | hread
    · exact hflag hset
    · exact ⟨rt, lt, last_snoc_self, of_decide_eq_true hread⟩
  exact ⟨hobs.joy, hobs.pad, harm (fun rt _ => rt) _ hobs.rt, harm (fun _ lt => lt) _ hobs.lt⟩

theorem Remembers.onJoy (h : Remembers s) : Remembers (onJoy args s msg t) := by
  have hjoy : Remembers { s.observe (.joy t msg) with joy := some msg, joyT := t } := by
    refine ⟨fun msg' hmsg => ?_, fun pad hp => (h.pad pad hp).snoc id,
      fun hrt => rested_snoc (h.rt hrt) id, fun hlt => rested_snoc (h.lt hlt) id⟩
    obtain rfl : msg = msg' := Option.some.inj hmsg
    exact last_snoc_self
  simp only [Override.onJoy]
  split
  · exact hjoy
  · split
    · obtain ⟨hlast, hpad, hrt, hlt⟩ := hjoy.observe (o := .stopped) id id id
      exact ⟨hlast, hpad, hrt, hlt⟩
    · rename_i pad _
      obtain ⟨hlast, -, hrt, hlt⟩ := hjoy
      refine ⟨fun msg' hmsg => (hlast msg' hmsg).snoc id, fun pad' hp => ?_,
        fun hset => rested_snoc (hrt hset) id, fun hset => rested_snoc (hlt hset) id⟩
      obtain rfl : pad = pad' := Option.some.inj hp
      exact last_snoc_self

/-- **A tick leaves the node with what it remembers.** -/
theorem Ticked.remembers (h : Remembers s) (htick : Ticked args tan s now later s' out) :
    Remembers s' := by
  cases htick with
  | lost => exact h.disarm
  | waiting => exact h
  | short => exact h
  | idle => exact h.arm.release
  | driving => exact h.arm.engage

/-! ## What a tick may publish -/

variable [IsStrictOrderedRing K]

/-- **What a tick publishes is interlocked.** -/
theorem Ticked.interlocked (hargs : args.Sensible tan) (h : Remembers s)
    (htick : Ticked args tan s now later s' out) :
    Interlocked args tan s'.trace (.tick now s'.engaged out) := by
  have hrem : Remembers s' := htick.remembers h
  have hstop : ∀ s : Node K,
      Interlocked args tan s'.trace (.tick now s'.engaged (tailOrSilence s now)) := by
    intro s
    cases htail : tailOrSilence s now with
    | none => trivial
    | some tw =>
      rw [tailOrSilence_zero htail]
      exact ⟨capped_zero hargs, fun hmoves => absurd rfl hmoves⟩
  cases htick with
  | lost => exact hstop _
  | waiting => exact hstop _
  | short => exact hstop _
  | idle => exact hstop _
  | @driving j pad rt lt rb stick hfresh hj hpad hrange hrt hlt hrb hpressed hart halt =>
    refine ⟨capped_command hargs trigger_nonneg trigger_le_one trigger_nonneg trigger_le_one,
      fun hmoves => ⟨⟨pad, (s.arm rt lt).engage.joyT, j, ?_, ?_, ?_,
        rb, rt, lt, hrb, hpressed, hrt, hlt, ?_⟩, ?_, ?_⟩⟩
    · exact hrem.pad pad (engage_pad.trans hpad)
    · exact hrem.joy j (engage_joy.trans hj)
    · obtain ⟨-, -, hage⟩ := stale_eq_false_iff.1 hfresh
      rwa [engage_joyT]
    -- both are armed, so what a trigger contributes is what it is pressed
    · have hxor := xor_of_moving trigger_nonneg trigger_nonneg hmoves
      rwa [trigger_pos_iff, trigger_pos_iff] at hxor
    · exact hrem.rt (engage_armedRt.trans hart)
    · exact hrem.lt (engage_armedLt.trans halt)

/-! ## Runs -/

/-- The law of the node, and of what it has done. -/
def Lawful (args : Args K) (tan : K → K) (s : Node K) : Prop :=
  Remembers s ∧ AtEach (Interlocked args tan) s.trace

/-- Only the end of a tick can break the law. -/
theorem Grows.interlocked (hargs : args.Sensible tan) (h : AtEach (Interlocked args tan) s.trace)
    (hgrows : Grows s s') : AtEach (Interlocked args tan) s'.trace := by
  obtain ⟨added, htr, hadded⟩ := hgrows
  rw [htr]
  refine h.append fun o ho before => ?_
  cases o with
  | tick now engaged out => exact absurd trivial (hadded _ ho)
  | joy t msg => trivial
  | resolved pad => trivial
  | disarmed => trivial
  | read rt lt => trivial
  | engaged => trivial
  | released t => trivial
  | stopped => exact capped_zero hargs

/-- **Every step keeps the law.** -/
theorem lawful_step (hargs : args.Sensible tan) (e : Event K) (h : Lawful args tan s) :
    Lawful args tan (step args tan s e) := by
  obtain ⟨hrem, hlaw⟩ := h
  refine step_cases ⟨hrem, hlaw⟩ (fun t msg _ => ⟨hrem.onJoy, grows_onJoy.interlocked hargs hlaw⟩)
    (fun c s' out _ htick => ?_) ?_
  · obtain ⟨hjoy, hpad, hrt, hlt⟩ := (htick.remembers hrem).observe
      (o := .tick c.now s'.engaged out) id id id
    exact ⟨⟨hjoy, hpad, hrt, hlt⟩,
      atEach_snoc.2 ⟨htick.grows.interlocked hargs hlaw, htick.interlocked hargs hrem⟩⟩
  · obtain ⟨hjoy, hpad, hrt, hlt⟩ := hrem.observe (o := .stopped) id id id
    exact ⟨⟨hjoy, hpad, hrt, hlt⟩, grows_exit.interlocked hargs hlaw⟩

omit [IsStrictOrderedRing K] in
theorem lawful_init : Lawful args tan (Node.init : Node K) :=
  ⟨⟨(fun _ h => by cases h), (fun _ h => by cases h), (fun h => by cases h), fun h => by cases h⟩,
    atEach_nil⟩

/-- No angle within a cap below a right angle has a larger tangent. -/
theorem abs_tan_le {cap δ : ℝ} (hcap : cap < Real.pi / 2) (hδ : |δ| ≤ cap) :
    |Real.tan δ| ≤ Real.tan cap := by
  obtain ⟨hlow, hhigh⟩ := abs_le.1 hδ
  have hcap₀ : 0 ≤ cap := (abs_nonneg δ).trans hδ
  have hmem : ∀ x, -cap ≤ x → x ≤ cap → x ∈ Set.Ioo (-(Real.pi / 2)) (Real.pi / 2) :=
    fun x hx hx' => ⟨by linarith, by linarith⟩
  have hmono := Real.strictMonoOn_tan.monotoneOn
  refine abs_le.2 ⟨?_, ?_⟩
  · rw [← Real.tan_neg]
    exact hmono (hmem _ le_rfl (by linarith)) (hmem _ hlow hhigh) hlow
  · exact hmono (hmem _ hlow hhigh) (hmem _ (by linarith) le_rfl) hhigh

/-- **Every Twist is within the limits, and one that moves the vehicle is
warranted**, in every run. -/
theorem motion_warranted (args : Args ℝ) (es : List (Event ℝ)) (hfwd : 0 ≤ args.maxFwd)
    (hrev : 0 ≤ args.maxRev) (hsteer : 0 ≤ args.maxSteer) (hcap : args.maxSteer < Real.pi / 2) :
    AtEach (Interlocked args Real.tan) (Run.run (step args Real.tan) .init es).trace := by
  have hargs : args.Sensible Real.tan := ⟨hfwd, hrev, hsteer, fun _ => abs_tan_le hcap⟩
  have hlawful : Lawful args Real.tan (Run.run (step args Real.tan) .init es) :=
    Run.inv_run (P := fun _ _ => True) (fun _ e h _ => lawful_step hargs e h) lawful_init
      (Run.along_of_forall fun _ _ => trivial)
  exact hlawful.2

/-- The triggers are seen at rest, then RB is held and RT pressed. -/
theorem motion_warranted_once :
    AtEach (Interlocked .default Real.tan) (Run.run (step .default Real.tan) .init
      [.joy 0 (usbJoy 1 1 0), .tick ⟨0, 0, le_rfl⟩, .joy 1 (usbJoy (-1) 1 1),
        .tick ⟨1, 1, le_rfl⟩]).trace :=
  motion_warranted .default _ (by norm_num [Args.default]) (by norm_num [Args.default])
    (by norm_num [Args.default]) (by norm_num [Args.default]; linarith [Real.two_le_pi])

end Override

end VehicleStack
