import VehicleStack.Common.Run
import VehicleStack.Override.Ticks

/-!
# The manual override — read from the event device

In evdev mode a thread reads the pad's events one by one, keeps the axes
and the buttons they leave, and hands the node a whole message after each.
An axis the device has not reported yet has a value of the node's own
making, and for a trigger that is the value of rest. Where no tick finds
such a trigger, no trigger counts as seen at rest that the device has not
put there, and nothing moves before it has put both there
(`moves_only_at_rest`).
-/

namespace VehicleStack

namespace Override

def EV_KEY : ℕ := 0x01
def EV_ABS : ℕ := 0x03

/-- `USB_MAP`. -/
def USB_MAP : Pad ℤ := ⟨5, 2, 0, 5⟩

/-- `rng`: the range of each axis that has one, from what `EVIOCGABS`
answers. -/
def axisRanges (ioctl : ℕ → Option (ℤ × ℤ)) : List (ℕ × ℤ × ℤ) :=
  (List.range 0x40).filterMap fun ax =>
    (ioctl ax).bind fun (lo, hi) => if lo ≠ hi then some (ax, lo, hi) else none

/-- The position in a list of that length that an index of Python's names. -/
def axisPosition (length : ℕ) (i : ℤ) : Option ℕ :=
  if 0 ≤ i then if i.toNat < length then some i.toNat else none
  else if 0 ≤ length + i then some (length + i).toNat else none

section Device

variable {K : Type} [Field K] [LinearOrder K]

/-- The indices, with those of the USB profile for the ones not given. -/
def evdevPad (pad : Pad (Option ℤ)) : Pad ℤ :=
  ⟨pad.rtAxis.getD USB_MAP.rtAxis, pad.ltAxis.getD USB_MAP.ltAxis,
    pad.steerAxis.getD USB_MAP.steerAxis, pad.rbButton.getD USB_MAP.rbButton⟩

/-- The arguments, with those indices. -/
def evdevArgs (args : Args K) : Args K :=
  let pad := evdevPad args.pad
  { args with pad := ⟨some pad.rtAxis, some pad.ltAxis, some pad.steerAxis, some pad.rbButton⟩ }

/-- The axis is that of a trigger. -/
def Pad.isTrigger (pad : Pad ℤ) (ax : ℕ) : Bool := ax = pad.rtAxis || ax = pad.ltAxis

def axesLength (rng : List (ℕ × ℤ × ℤ)) : ℕ :=
  max 8 (((rng.map Prod.fst).max?.map (· + 1)).getD 8)

/-- `axes` before the first event. -/
def initAxes (pad : Pad ℤ) (rng : List (ℕ × ℤ × ℤ)) : List K :=
  (List.range (axesLength rng)).map fun ax =>
    if (rng.lookup ax).isSome && pad.isTrigger ax then 1 else 0

/-- A raw value as SDL has it. -/
def normalise (pad : Pad ℤ) (ax : ℕ) (lo hi val : ℤ) : K :=
  if pad.isTrigger ax then 1 - 2.0 * (if lo < hi then ((val - lo : ℤ) : K) / (hi - lo : ℤ) else 0.0)
  else 2.0 * (if lo < hi then ((val - lo : ℤ) : K) / (hi - lo : ℤ) else 0.5) - 1

/-- The node, the thread's two lists, and what the device has reported since
the start: the axes, and those of them that were put at rest. No callback
reads the last two. -/
structure Evdev (K : Type) where
  node : Node K
  axes : List K
  btns : List ℤ
  reported : List ℕ
  rested : List ℕ

variable (args : Args K) (rng : List (ℕ × ℤ × ℤ))

def Evdev.init : Evdev K :=
  ⟨.init, initAxes (evdevPad args.pad) rng, List.replicate 16 0, [], []⟩

/-- An axis takes the value of an event. -/
def Evdev.move (w : Evdev K) (code : ℕ) (lo hi val : ℤ) : Evdev K :=
  let value := normalise (evdevPad args.pad) code lo hi val
  { w with axes := w.axes.set code value, reported := code :: w.reported
           rested := if REST_THRESH ≤ value then code :: w.rested else w.rested }

/-- A button takes it, if it is one. -/
def Evdev.press (w : Evdev K) (typ code : ℕ) (val : ℤ) : Evdev K :=
  if typ = EV_KEY ∧ code - 0x130 < w.btns.length ∧ 0x130 ≤ code then
    { w with btns := w.btns.set (code - 0x130) (if val ≠ 0 then 1 else 0) }
  else w

/-- What an event does to the lists. -/
def Evdev.update (w : Evdev K) (typ code : ℕ) (val : ℤ) : Evdev K :=
  match rng.lookup code with
  | some (lo, hi) =>
    if typ = EV_ABS ∧ code < w.axes.length then w.move args code lo hi val
    else w.press typ code val
  | none => w.press typ code val

/-- What reaches the node in this mode: an event of the device, or a tick. -/
inductive DeviceEvent (K : Type) [LE K]
  | input (t : K) (typ code : ℕ) (val : ℤ)
  | tick (c : Clock K)

variable (tan : K → K)

/-- One pass of `pump`, or a tick. -/
def pump (w : Evdev K) : DeviceEvent K → Evdev K
  | .input t typ code val =>
    let w := w.update args rng typ code val
    { w with node := step (evdevArgs args) tan w.node (.joy t ⟨w.axes, w.btns⟩) }
  | .tick c => { w with node := step (evdevArgs args) tan w.node (.tick c) }

/-- The device has put the trigger of that index at rest since the start. -/
def Evdev.AtRest (w : Evdev K) (i : ℤ) : Prop :=
  ∃ ax ∈ axisPosition w.axes.length i, ax ∈ w.rested

/-- A Twist that is not zero finds that of both triggers. -/
def MovesAtRest (w : Evdev K) : DeviceEvent K → Prop
  | .tick c => w.node.running = true → ∀ s' tw,
    Override.tick (evdevArgs args) w.node tan c.now c.later = some (s', some tw) → tw ≠ .zero →
      w.AtRest (evdevPad args.pad).rtAxis ∧ w.AtRest (evdevPad args.pad).ltAxis
  | .input .. => True

/-- A trigger counts as seen at rest only where the device has put it
there. -/
structure Evdev.ArmedAtRest (w : Evdev K) : Prop where
  rt : w.node.armedRt = true → w.AtRest (evdevPad args.pad).rtAxis
  lt : w.node.armedLt = true → w.AtRest (evdevPad args.pad).ltAxis

/-- **Arm on release**: what moves has been at rest, and so has every trigger
that counts as seen at rest once the event has been dealt with. -/
structure ArmsOnRelease (w : Evdev K) (e : DeviceEvent K) : Prop where
  moves : MovesAtRest args tan w e
  armed : (pump args rng tan w e).ArmedAtRest args

/-- The axis is one of the device, and its value is the node's own. -/
def Evdev.MadeUp (w : Evdev K) (i : ℤ) : Prop :=
  ∃ ax ∈ axisPosition w.axes.length i, (rng.lookup ax).isSome ∧
    (evdevPad args.pad).isTrigger ax ∧ ax ∉ w.reported

/-- A tick that reads the triggers finds neither of them made up. -/
def FindsReported (w : Evdev K) : DeviceEvent K → Prop
  | .tick c => w.node.running = true → stale (evdevArgs args) w.node c.now = false →
    outOfRange (evdevPad args.pad) ⟨w.axes, w.btns⟩ = false →
      ¬ w.MadeUp args rng (evdevPad args.pad).rtAxis ∧
        ¬ w.MadeUp args rng (evdevPad args.pad).ltAxis
  | .input .. => True

instance {w : Evdev K} {i : ℤ} : Decidable (w.AtRest i) :=
  inferInstanceAs (Decidable (∃ ax ∈ axisPosition w.axes.length i, _))

instance {w : Evdev K} {i : ℤ} : Decidable (w.MadeUp args rng i) :=
  inferInstanceAs (Decidable (∃ ax ∈ axisPosition w.axes.length i, _))

instance {w : Evdev K} : ∀ {e : DeviceEvent K}, Decidable (FindsReported args rng w e)
  | .tick _ => inferInstanceAs (Decidable (_ → _ → _ → _))
  | .input .. => isTrue trivial

end Device

section Runs

variable {K : Type} [Field K] [LinearOrder K] {args : Args K} {rng : List (ℕ × ℤ × ℤ)}
  {tan : K → K} {w w' : Evdev K} {e : DeviceEvent K} {i : ℤ} {typ code : ℕ} {val : ℤ}

theorem getItem_eq {α : Type} {xs : List α} :
    getItem xs i = (axisPosition xs.length i).bind fun ax => xs[ax]? := by
  unfold getItem axisPosition
  split
  · by_cases hlt : i.toNat < xs.length
    · rw [if_pos hlt]
      rfl
    · rw [if_neg hlt, List.getElem?_eq_none (not_lt.1 hlt)]
      rfl
  · split <;> rfl

/-- The lists and the device's reports go with the node. -/
structure Evdev.Inv (args : Args K) (rng : List (ℕ × ℤ × ℤ)) (w : Evdev K) : Prop where
  pad : ∀ pad ∈ w.node.pad, pad = evdevPad args.pad
  joy : w.node.running = true → ∀ j ∈ w.node.joy, j = ⟨w.axes, w.btns⟩
  shown : ∀ ax, ∀ v ∈ w.axes[ax]?, REST_THRESH ≤ v → ax ∈ w.rested ∨
    (rng.lookup ax).isSome ∧ (evdevPad args.pad).isTrigger ax ∧ ax ∉ w.reported
  rt : w.node.armedRt = true → w.AtRest (evdevPad args.pad).rtAxis
  lt : w.node.armedLt = true → w.AtRest (evdevPad args.pad).ltAxis

/-- A trigger read at rest, and not made up, has been put at rest. -/
theorem Evdev.Inv.atRest (h : w.Inv args rng) {v : K} (hv : getItem w.axes i = some v)
    (hrest : REST_THRESH ≤ v) (hreported : ¬ w.MadeUp args rng i) : w.AtRest i := by
  rw [getItem_eq] at hv
  obtain ⟨ax, hax, hget⟩ := Option.bind_eq_some_iff.1 hv
  rcases h.shown ax v hget hrest with hrested | hmade
  · exact ⟨ax, hax, hrested⟩
  · exact absurd ⟨ax, hax, hmade⟩ hreported

/-- What an event of the device leaves alone, and what it adds. -/
structure Evdev.Extends (args : Args K) (rng : List (ℕ × ℤ × ℤ)) (w w' : Evdev K) : Prop where
  node : w'.node = w.node
  length : w'.axes.length = w.axes.length
  rested : ∀ ax ∈ w.rested, ax ∈ w'.rested
  shown : ∀ ax, ∀ v ∈ w'.axes[ax]?, REST_THRESH ≤ v → ax ∈ w'.rested ∨
    (rng.lookup ax).isSome ∧ (evdevPad args.pad).isTrigger ax ∧ ax ∉ w'.reported

theorem extends_press (h : w.Inv args rng) : w.Extends args rng (w.press typ code val) := by
  simp only [Evdev.press]
  split <;> exact ⟨rfl, rfl, fun _ hax => hax, h.shown⟩

/-- An axis that moves has a value of the device's own. -/
theorem extends_move (h : w.Inv args rng) (lo hi : ℤ) :
    w.Extends args rng (w.move args code lo hi val) := by
  refine ⟨rfl, List.length_set, fun ax hax => ?_, fun ax v hv hrest => ?_⟩
  · simp only [Evdev.move]
    split
    · exact List.mem_cons_of_mem _ hax
    · exact hax
  · simp only [Evdev.move, Option.mem_def] at hv ⊢
    by_cases hcode : code = ax
    · subst hcode
      rw [List.getElem?_set_self'] at hv
      obtain ⟨old, hold, hvalue⟩ := Option.map_eq_some_iff.1 hv
      have hvalue' : normalise (evdevPad args.pad) code lo hi val = v := hvalue
      left
      rw [hvalue', if_pos hrest]
      exact List.mem_cons_self
    · rw [List.getElem?_set_ne hcode] at hv
      rcases h.shown ax v hv hrest with hrested | ⟨hrng, htrigger, hnew⟩
      · left
        split
        · exact List.mem_cons_of_mem _ hrested
        · exact hrested
      · exact Or.inr ⟨hrng, htrigger, by simp [Ne.symm hcode, hnew]⟩

theorem extends_update (h : w.Inv args rng) (typ code : ℕ) (val : ℤ) :
    w.Extends args rng (w.update args rng typ code val) := by
  simp only [Evdev.update]
  split
  · split
    · exact extends_move h _ _
    · exact extends_press h
  · exact extends_press h

omit [Field K] [LinearOrder K] in
theorem Evdev.AtRest.mono (h : w.AtRest i) (hlen : w'.axes.length = w.axes.length)
    (hrested : ∀ ax ∈ w.rested, ax ∈ w'.rested) : w'.AtRest i := by
  obtain ⟨ax, hax, hmem⟩ := h
  exact ⟨ax, by rwa [hlen], hrested ax hmem⟩

omit [Field K] [LinearOrder K] in
/-- A message changes nothing of the arming. -/
theorem onJoy_fields (args : Args K) (s : Node K) (msg : Joy K) (t : K) :
    (onJoy (evdevArgs args) s msg t).joy = some msg ∧
      (onJoy (evdevArgs args) s msg t).armedRt = s.armedRt ∧
      (onJoy (evdevArgs args) s msg t).armedLt = s.armedLt ∧
      ((onJoy (evdevArgs args) s msg t).pad = s.pad ∨
        (onJoy (evdevArgs args) s msg t).pad = some (evdevPad args.pad)) := by
  simp only [onJoy]
  split
  · exact ⟨rfl, rfl, rfl, Or.inl rfl⟩
  · exact ⟨rfl, rfl, rfl, Or.inr rfl⟩

/-- **An event of the device.** -/
theorem Evdev.Inv.input (h : w.Inv args rng) (t : K) :
    (pump args rng tan w (.input t typ code val)).Inv args rng := by
  obtain ⟨hnode, hlen, hrested, hshown⟩ := extends_update h typ code val
  simp only [pump, hnode, step]
  split
  · obtain ⟨hjoy, hrt, hlt, hpad⟩ := onJoy_fields args w.node
      ⟨(w.update args rng typ code val).axes, (w.update args rng typ code val).btns⟩ t
    refine ⟨fun pad hp => ?_, fun _ j hj => ?_, hshown, fun harmed => ?_, fun harmed => ?_⟩
    · rcases hpad with hpad | hpad
      · exact h.pad pad (hpad ▸ hp)
      · rw [Option.mem_def, hpad] at hp
        exact (Option.some.inj hp).symm
    · rw [Option.mem_def, hjoy] at hj
      exact (Option.some.inj hj).symm
    · exact (h.rt (hrt ▸ harmed)).mono hlen hrested
    · exact (h.lt (hlt ▸ harmed)).mono hlen hrested
  · rename_i hstopped
    exact ⟨h.pad, fun hrun => absurd hrun hstopped, hshown,
      fun harmed => (h.rt harmed).mono hlen hrested, fun harmed => (h.lt harmed).mono hlen hrested⟩

omit [LinearOrder K] in
/-- Neither does the end of a drive. -/
theorem release_fields (args : Args K) (s : Node K) (t : K) :
    (s.release args t).pad = s.pad ∧ (s.release args t).joy = s.joy ∧
      (s.release args t).running = s.running ∧ (s.release args t).armedRt = s.armedRt ∧
      (s.release args t).armedLt = s.armedLt := by
  unfold Node.release
  split <;> exact ⟨rfl, rfl, rfl, rfl, rfl⟩

/-- The invariant is about five fields of the node. -/
theorem Evdev.Inv.congr {s : Node K} (h : w.Inv args rng) (hpad : s.pad = w.node.pad)
    (hjoy : s.joy = w.node.joy) (hrun : s.running = true → w.node.running = true)
    (hrt : s.armedRt = true → w.AtRest (evdevPad args.pad).rtAxis)
    (hlt : s.armedLt = true → w.AtRest (evdevPad args.pad).ltAxis) :
    Evdev.Inv args rng { w with node := s } :=
  ⟨fun pad hp => h.pad pad (hpad ▸ hp), fun hr j hj => h.joy (hrun hr) j (hjoy ▸ hj), h.shown, hrt,
    hlt⟩

/-- What a tick that reads the triggers has read. -/
theorem Evdev.Inv.read (h : w.Inv args rng) {c : Clock K} (he : FindsReported args rng w (.tick c))
    (hrun : w.node.running = true) {j : Joy K} {pad : Pad ℤ} {rt lt : K}
    (hstale : stale (evdevArgs args) w.node c.now = false) (hj : w.node.joy = some j)
    (hpad : w.node.pad = some pad) (hrange : outOfRange pad j = false)
    (hrt : getItem j.axes pad.rtAxis = some rt) (hlt : getItem j.axes pad.ltAxis = some lt) :
    (armed rt w.node.armedRt = true → w.AtRest (evdevPad args.pad).rtAxis) ∧
      (armed lt w.node.armedLt = true → w.AtRest (evdevPad args.pad).ltAxis) := by
  obtain rfl := h.pad pad hpad
  obtain rfl := h.joy hrun j hj
  obtain ⟨hnotRt, hnotLt⟩ := he hrun hstale hrange
  refine ⟨fun harmed => ?_, fun harmed => ?_⟩
  · rcases Bool.or_eq_true_iff.1 harmed with hflag | hrest
    · exact h.rt hflag
    · exact h.atRest hrt (of_decide_eq_true hrest) hnotRt
  · rcases Bool.or_eq_true_iff.1 harmed with hflag | hrest
    · exact h.lt hflag
    · exact h.atRest hlt (of_decide_eq_true hrest) hnotLt

/-- **A tick.** -/
theorem Evdev.Inv.tick (h : w.Inv args rng) {c : Clock K}
    (he : FindsReported args rng w (.tick c)) :
    (pump args rng tan w (.tick c)).Inv args rng := by
  cases hrun : w.node.running with
  | false =>
    have hsame : step (evdevArgs args) tan w.node (.tick c) = w.node := by simp [step, hrun]
    simp only [pump, hsame]
    exact h
  | true =>
    refine step_cases (I := fun s => Evdev.Inv args rng { w with node := s }) h ?_ ?_ ?_
    · intro t msg heq
      cases heq
    · intro c' s' out heq hticked
      obtain rfl : c = c' := by cases heq; rfl
      cases hticked with
      | lost hstale =>
        obtain ⟨hpad, hjoy, hrunning, hrt, hlt⟩ := release_fields (evdevArgs args)
          { w.node.observe .disarmed with armedRt := false, armedLt := false } c.later
        refine h.congr hpad hjoy (fun _ => hrun) (fun harmed => ?_) fun harmed => ?_
        · exact absurd (hrt.symm.trans harmed) Bool.false_ne_true
        · exact absurd (hlt.symm.trans harmed) Bool.false_ne_true
      | waiting => exact h.congr rfl rfl id h.rt h.lt
      | short => exact h.congr rfl rfl id h.rt h.lt
      | @idle j pad rt lt hstale hj hpad hrange hrt hlt =>
        obtain ⟨hreadRt, hreadLt⟩ := h.read he hrun hstale hj hpad hrange hrt hlt
        obtain ⟨hpad', hjoy', -, hrt', hlt'⟩ :=
          release_fields (evdevArgs args) (w.node.arm rt lt) c.now
        refine h.congr hpad' hjoy' (fun _ => hrun) (fun harmed => ?_) fun harmed => ?_
        · exact hreadRt (hrt'.symm.trans harmed)
        · exact hreadLt (hlt'.symm.trans harmed)
      | @driving j pad rt lt rb stick hstale hj hpad hrange hrt hlt hrb hpressed hart halt =>
        obtain ⟨hreadRt, hreadLt⟩ := h.read he hrun hstale hj hpad hrange hrt hlt
        exact h.congr engage_pad engage_joy (fun _ => hrun) (fun _ => hreadRt hart)
          fun _ => hreadLt halt
    · exact h.congr rfl rfl (fun hr => by cases hr) h.rt h.lt

/-- **One event.** -/
theorem Evdev.Inv.pump (h : w.Inv args rng) (he : FindsReported args rng w e) :
    (Override.pump args rng tan w e).Inv args rng := by
  cases e with
  | input t typ code val => exact h.input t
  | tick c => exact h.tick he

/-- **What moves has been at rest.** -/
theorem Evdev.Inv.movesAtRest (h : w.Inv args rng) (he : FindsReported args rng w e) :
    MovesAtRest args tan w e := by
  cases e with
  | input t typ code val => trivial
  | tick c =>
    intro hrun s' tw htick hmoves
    generalize hout : some tw = out at htick
    cases ticked_of_tick htick with
    | lost => exact absurd (tailOrSilence_zero hout.symm) hmoves
    | waiting => exact absurd (tailOrSilence_zero hout.symm) hmoves
    | short => exact absurd (tailOrSilence_zero hout.symm) hmoves
    | idle => exact absurd (tailOrSilence_zero hout.symm) hmoves
    | driving hstale hj hpad hrange hrt hlt hrb hpressed hart halt =>
      obtain ⟨hreadRt, hreadLt⟩ := h.read he hrun hstale hj hpad hrange hrt hlt
      exact ⟨hreadRt hart, hreadLt halt⟩

/-- **And so has what is armed.** -/
theorem Evdev.Inv.armsOnRelease (h : w.Inv args rng) (he : FindsReported args rng w e) :
    ArmsOnRelease args rng tan w e where
  moves := h.movesAtRest he
  armed := ⟨(h.pump he).rt, (h.pump he).lt⟩

/-- At the start, what looks like rest is made up. -/
theorem Evdev.inv_init [IsStrictOrderedRing K] : (Evdev.init args rng).Inv args rng := by
  refine ⟨fun _ hp => ?_, fun _ _ hj => ?_, fun ax v hv hrest => ?_, fun harmed => ?_,
    fun harmed => ?_⟩
  · cases hp
  · cases hj
  · simp only [Evdev.init, initAxes, Option.mem_def, List.getElem?_map,
      Option.map_eq_some_iff] at hv
    obtain ⟨ax', hax, rfl⟩ := hv
    obtain rfl : ax' = ax := by
      obtain ⟨hlt, heq⟩ := List.getElem?_eq_some_iff.1 hax
      rw [← heq, List.getElem_range]
    right
    by_contra hnot
    have hzero : ¬ ((rng.lookup ax').isSome && (evdevPad args.pad).isTrigger ax') = true := by
      intro hmade
      obtain ⟨hrng, htrigger⟩ := Bool.and_eq_true_iff.1 hmade
      exact hnot ⟨hrng, htrigger, List.not_mem_nil⟩
    rw [if_neg hzero] at hrest
    exact absurd hrest (not_le.2 (by unfold REST_THRESH; norm_num))
  · cases harmed
  · cases harmed

/-- **When arm-on-release holds for the event device.** Whatever its axes
and its events, and the ticks between them: if no tick reads a trigger of
the device that has not reported yet, then a Twist that is not zero is
published only after the device has put both triggers at rest, and one that
has never reported, or has been held since the start, never counts as seen
at rest. -/
theorem moves_only_at_rest [IsStrictOrderedRing K] (args : Args K) (tan : K → K)
    (ioctl : ℕ → Option (ℤ × ℤ)) (es : List (DeviceEvent K))
    (h : Run.Along (Override.pump args (axisRanges ioctl) tan)
      (FindsReported args (axisRanges ioctl)) (.init args (axisRanges ioctl)) es) :
    Run.Along (Override.pump args (axisRanges ioctl) tan)
      (ArmsOnRelease args (axisRanges ioctl) tan) (.init args (axisRanges ioctl)) es :=
  Run.along_of_inv (I := fun w => w.Inv args (axisRanges ioctl)) (fun _ _ hI he => hI.pump he)
    (fun _ _ hI he => hI.armsOnRelease he) Evdev.inv_init h

end Runs

/-- A pad with a stick and two triggers. -/
def gamepad (ax : ℕ) : Option (ℤ × ℤ) :=
  if ax = 0 then some (-32768, 32767) else if ax = 2 ∨ ax = 5 then some (0, 255) else none

/-- A tick whose two readings of the clock are the same. -/
def deviceTick (t : ℚ) : DeviceEvent ℚ := .tick ⟨t, t, le_rfl⟩

/-- Both triggers report rest before the first tick, and the right one is
pressed with RB. -/
def releasedFirst : List (DeviceEvent ℚ) :=
  [.input 0 EV_ABS 5 0, .input 0 EV_ABS 2 0, deviceTick 0, .input 0 EV_KEY 0x135 1,
    .input 0 EV_ABS 5 255, deviceTick (1 / 20)]

theorem moves_only_at_rest_releasedFirst :
    Run.Along (pump .default (axisRanges gamepad) id)
      (ArmsOnRelease .default (axisRanges gamepad) id) (.init .default (axisRanges gamepad))
      releasedFirst :=
  moves_only_at_rest .default id gamepad releasedFirst (by decide +kernel)

/-- RB is the first to report, and then the right trigger, which has been
held all the time. -/
def heldFromTheStart : List (DeviceEvent ℚ) :=
  [.input 0 EV_KEY 0x135 1, deviceTick 0, .input (1 / 20) EV_ABS 5 255, deviceTick (1 / 20)]

/-- **The vehicle drives off at the first touch**: the triggers were armed
by values that no device has reported. -/
theorem held_trigger_drives :
    ¬ Run.Along (pump .default (axisRanges gamepad) id)
      (ArmsOnRelease .default (axisRanges gamepad) id) (.init .default (axisRanges gamepad))
      heldFromTheStart := by
  rintro ⟨-, -, -, hlast, -⟩
  have hout : (tick (evdevArgs .default) (Run.run (pump .default (axisRanges gamepad) id)
      (.init .default (axisRanges gamepad)) (heldFromTheStart.take 3)).node id (1 / 20)
        (1 / 20)).map Prod.snd = some (some ⟨2 / 10, 0⟩) := by
    decide +kernel
  obtain ⟨⟨s', out⟩, htick, hout⟩ := Option.map_eq_some_iff.1 hout
  obtain rfl : out = some ⟨2 / 10, 0⟩ := hout
  have hne : (⟨2 / 10, 0⟩ : Twist ℚ) ≠ .zero := by decide +kernel
  have hrest := (hlast.moves (by decide +kernel) s' _ htick hne).2
  revert hrest
  decide +kernel

end Override

end VehicleStack
