import VehicleStack.Common.Run
import VehicleStack.Override.Ticks

/-!
# The manual override — whether the indices are the pad's

The indices of the triggers, the stick and RB depend on the transport, and
the shape of a message tells which it is. The node looks at the shape once,
when the first message arrives, and reads every later one by the indices of
that first shape. So a run whose Twists are all computed with the indices
of the message's own shape is one in which no message of another shape
moves the vehicle (`map_matches_iff`).
-/

namespace VehicleStack

namespace Override

variable {K : Type}

/-- Axes and buttons. -/
def Joy.shape (j : Joy K) : ℕ × ℕ := (j.axes.length, j.buttons.length)

/-- The measured profile of the message's shape. -/
def Joy.profile (j : Joy K) : Option (Pad ℤ) := PAD_MAPS j.axes.length j.buttons.length

/-- No index is given on the command line. -/
def noIndices : Pad (Option ℤ) := ⟨none, none, none, none⟩

def Obs.joy? : Obs K → Option (Joy K)
  | .joy _ msg => some msg
  | _ => none

/-- The first message that has arrived. -/
def Node.firstJoy (s : Node K) : Option (Joy K) := (s.trace.filterMap Obs.joy?).head?

section Laws

variable [Field K] [LinearOrder K]

/-- Read by these indices, the message moves the vehicle: it has them all,
RB is held, both triggers are armed, and this is the command. -/
def Drives (args : Args K) (tan : K → K) (s : Node K) (pad : Pad ℤ) (j : Joy K) (tw : Twist K) :
    Prop :=
  outOfRange pad j = false ∧ ∃ rt lt rb stick,
    getItem j.axes pad.rtAxis = some rt ∧ getItem j.axes pad.ltAxis = some lt ∧
    getItem j.buttons pad.rbButton = some rb ∧ getItem j.axes pad.steerAxis = some stick ∧
    rb ≠ 0 ∧ armed rt s.armedRt = true ∧ armed lt s.armedLt = true ∧
    tw = command args tan (trigger rt true) (trigger lt true) stick ∧ tw ≠ .zero

/-- A Twist that is not zero is computed from the last message with the
indices of that message's own profile. -/
def MapMatches (args : Args K) (tan : K → K) (s : Node K) : Event K → Prop
  | .joy .. => True
  | .tick c => s.running = true → ∀ s' tw, tick args s tan c.now c.later = some (s', some tw) →
      tw ≠ .zero → ∃ j pad, s.joy = some j ∧ j.profile = some pad ∧ s.pad = some pad ∧
        Drives args tan s pad j tw

/-- A message by which the vehicle moves, read by the indices of the first
message's profile, has the first message's shape. -/
def SamePad (args : Args K) (tan : K → K) (s : Node K) : Event K → Prop
  | .joy .. => True
  | .tick c => s.running = true → stale args s c.now = false → ∀ first j pad tw,
      s.firstJoy = some first → first.profile = some pad → s.joy = some j →
      Drives args tan s pad j tw → j.shape = first.shape

end Laws

/-! ## Profiles -/

/-- The two profiles are those of two shapes. -/
theorem shape_of_profile {j j' : Joy K} {pad : Pad ℤ} (h : j.profile = some pad)
    (h' : j'.profile = some pad) : j.shape = j'.shape := by
  have hcases : ∀ {j : Joy K}, j.profile = some pad →
      (j.shape = (8, 12) ∧ pad = ⟨5, 2, 0, 5⟩) ∨ j.shape = (6, 16) ∧ pad = ⟨5, 4, 0, 10⟩ := by
    intro j h
    simp only [Joy.profile, PAD_MAPS] at h
    split at h
    · exact Or.inl ⟨by assumption, (Option.some.inj h).symm⟩
    · split at h
      · exact Or.inr ⟨by assumption, (Option.some.inj h).symm⟩
      · cases h
  rcases hcases h with ⟨hs, hp⟩ | ⟨hs, hp⟩ <;> rcases hcases h' with ⟨hs', hp'⟩ | ⟨hs', hp'⟩
  · rw [hs, hs']
  · rw [hp] at hp'
    exact absurd hp' (by decide)
  · rw [hp] at hp'
    exact absurd hp' (by decide)
  · rw [hs, hs']

theorem profile_of_shape {j j' : Joy K} (h : j.shape = j'.shape) : j.profile = j'.profile := by
  obtain ⟨hax, hbtn⟩ := Prod.ext_iff.1 h
  exact congrArg₂ PAD_MAPS hax hbtn

/-- With no index given, the profile is all there is. -/
theorem resolvePadMap_noIndices (nAx nBtn : ℕ) :
    resolvePadMap noIndices nAx nBtn = PAD_MAPS nAx nBtn := by
  simp only [resolvePadMap, noIndices]
  cases PAD_MAPS nAx nBtn <;> rfl

/-! ## What a tick moves the vehicle by -/

section Ticks

variable [Field K] [LinearOrder K] {args : Args K} {tan : K → K} {s s' : Node K} {now later : K}
  {tw : Twist K}

/-- With RB held and both triggers armed, only the stick is left to read. -/
theorem tick_held {j : Joy K} {pad : Pad ℤ} {rt lt : K} {rb : ℤ} (hfresh : stale args s now = false)
    (hj : s.joy = some j) (hpad : s.pad = some pad) (hrange : outOfRange pad j = false)
    (hrt : getItem j.axes pad.rtAxis = some rt) (hlt : getItem j.axes pad.ltAxis = some lt)
    (hrb : getItem j.buttons pad.rbButton = some rb) (hpressed : rb ≠ 0)
    (hart : armed rt s.armedRt = true) (halt : armed lt s.armedLt = true) :
    tick args s tan now later = (getItem j.axes pad.steerAxis).bind fun stick =>
      some ((s.arm rt lt).engage,
        some (command args tan (trigger rt true) (trigger lt true) stick)) := by
  have hheld : rb ≠ 0 ∧ (s.arm rt lt).armedRt = true ∧ (s.arm rt lt).armedLt = true :=
    ⟨hpressed, hart, halt⟩
  simp only [tick, hfresh, Bool.false_eq_true, if_false, hj, hpad, hrange, hrt, hlt, hrb,
    Option.bind_eq_bind, Option.bind_some]
  rw [if_pos hheld]
  have hart' : (s.arm rt lt).armedRt = true := hart
  have halt' : (s.arm rt lt).armedLt = true := halt
  simp only [engage_engaged, engage_armedRt, engage_armedLt, hart', halt', Bool.not_true,
    Bool.false_eq_true, if_false]

/-- **A message that drives** makes the tick publish its command. -/
theorem tick_of_drives {j : Joy K} {pad : Pad ℤ} (hfresh : stale args s now = false)
    (hj : s.joy = some j) (hpad : s.pad = some pad) (h : Drives args tan s pad j tw) :
    ∃ s', tick args s tan now later = some (s', some tw) := by
  obtain ⟨hrange, rt, lt, rb, stick, hrt, hlt, hrb, hstick, hpressed, hart, halt, rfl, -⟩ := h
  rw [tick_held hfresh hj hpad hrange hrt hlt hrb hpressed hart halt, hstick]
  exact ⟨(s.arm rt lt).engage, rfl⟩

/-- **And a command other than zero** comes from a message that drives. -/
theorem drives_of_tick (h : tick args s tan now later = some (s', some tw)) (hne : tw ≠ .zero) :
    stale args s now = false ∧
      ∃ j pad, s.joy = some j ∧ s.pad = some pad ∧ Drives args tan s pad j tw := by
  -- in every branch but one the tick sends a zero or is silent
  have htail : ∀ {s : Node K}, tailOrSilence s now ≠ some tw :=
    fun heq => hne (tailOrSilence_zero heq)
  have hticked := ticked_of_tick h
  generalize hout : some tw = out at hticked
  cases hticked with
  | lost => exact absurd hout.symm htail
  | waiting => exact absurd hout.symm htail
  | short => exact absurd hout.symm htail
  | idle => exact absurd hout.symm htail
  | @driving j pad rt lt rb _ hfresh hj hpad hrange hrt hlt hrb hpressed hart halt =>
    rw [tick_held hfresh hj hpad hrange hrt hlt hrb hpressed hart halt] at h
    obtain ⟨stick, hstick, h⟩ := Option.bind_eq_some_iff.1 h
    cases h
    exact ⟨hfresh, j, pad, hj, hpad, hrange, rt, lt, rb, stick, hrt, hlt, hrb, hstick, hpressed,
      hart, halt, rfl, hne⟩

end Ticks

/-! ## The first message settles the indices -/

section Settled

variable [Field K] [LinearOrder K] {args : Args K} {tan : K → K} {s s' : Node K} {now later : K}
  {out : Option (Twist K)} {o : Obs K}

/-- Nothing that the messages have settled has changed. -/
structure SameJoys (s s' : Node K) : Prop where
  joy : s'.joy = s.joy
  pad : s'.pad = s.pad
  seenJoy : s'.seenJoy = s.seenJoy
  joys : s'.trace.filterMap Obs.joy? = s.trace.filterMap Obs.joy?

/-- **What the first message has settled.** -/
structure Settled (s : Node K) : Prop where
  unseen : s.seenJoy = false → s.joy = none ∧ s.firstJoy = none
  seen : s.running = true → s.seenJoy = true → ∃ first pad, s.firstJoy = some first ∧
    first.profile = some pad ∧ s.pad = some pad

omit [Field K] [LinearOrder K] in
/-- Once a message is there the first has been seen. -/
theorem Settled.first (h : Settled s) (hrun : s.running = true)
    (hsome : (∃ j, s.joy = some j) ∨ ∃ j, s.firstJoy = some j) : ∃ first pad,
      s.firstJoy = some first ∧ first.profile = some pad ∧ s.pad = some pad := by
  refine h.seen hrun (by_contra fun hunseen => ?_)
  obtain ⟨hjoy, hfirst⟩ := h.unseen (Bool.eq_false_iff.2 hunseen)
  rcases hsome with ⟨j, hj⟩ | ⟨j, hj⟩
  · rw [hjoy] at hj
    cases hj
  · rw [hfirst] at hj
    cases hj

omit [Field K] [LinearOrder K] in
theorem SameJoys.trans {s'' : Node K} (h : SameJoys s s') (h' : SameJoys s' s'') :
    SameJoys s s'' :=
  ⟨h'.joy.trans h.joy, h'.pad.trans h.pad, h'.seenJoy.trans h.seenJoy, h'.joys.trans h.joys⟩

omit [Field K] [LinearOrder K] in
theorem joys_snoc (ho : o.joy? = none) :
    (s.trace ++ [o]).filterMap Obs.joy? = s.trace.filterMap Obs.joy? := by
  simp [List.filterMap_append, ho]

omit [Field K] [LinearOrder K] in
theorem sameJoys_observe (ho : o.joy? = none) : SameJoys s (s.observe o) :=
  ⟨rfl, rfl, rfl, joys_snoc ho⟩

omit [LinearOrder K] in
theorem sameJoys_release {t : K} : SameJoys s (s.release args t) := by
  unfold Node.release
  split
  · exact ⟨rfl, rfl, rfl, joys_snoc rfl⟩
  · exact ⟨rfl, rfl, rfl, rfl⟩

omit [Field K] [LinearOrder K] in
theorem sameJoys_engage : SameJoys s s.engage := by
  unfold Node.engage
  split
  · exact ⟨rfl, rfl, rfl, rfl⟩
  · exact ⟨rfl, rfl, rfl, joys_snoc rfl⟩

theorem sameJoys_arm {rt lt : K} : SameJoys s (s.arm rt lt) := ⟨rfl, rfl, rfl, joys_snoc rfl⟩

omit [LinearOrder K] in
theorem sameJoys_disarm {t : K} : SameJoys s (disarm args s t) := by
  have hobs : SameJoys s { s.observe .disarmed with armedRt := false, armedLt := false } :=
    ⟨rfl, rfl, rfl, joys_snoc rfl⟩
  exact hobs.trans sameJoys_release

/-- **A tick settles nothing.** -/
theorem Ticked.sameJoys (h : Ticked args tan s now later s' out) : SameJoys s s' := by
  cases h with
  | lost => exact sameJoys_disarm
  | waiting => exact ⟨rfl, rfl, rfl, rfl⟩
  | short => exact ⟨rfl, rfl, rfl, rfl⟩
  | idle => exact sameJoys_arm.trans sameJoys_release
  | driving => exact sameJoys_arm.trans sameJoys_engage

omit [Field K] [LinearOrder K] in
theorem Settled.same (h : Settled s) (hsame : SameJoys s s') (hrun : s'.running = true →
    s.running = true) : Settled s' := by
  have hfirst : s'.firstJoy = s.firstJoy := congrArg List.head? hsame.joys
  refine ⟨fun hunseen => ?_, fun hrun' hseen => ?_⟩
  · rw [hsame.joy, hfirst]
    exact h.unseen (hsame.seenJoy ▸ hunseen)
  · rw [hfirst, hsame.pad]
    exact h.seen (hrun hrun') (hsame.seenJoy ▸ hseen)

omit [Field K] [LinearOrder K] in
/-- The first message stays the first. -/
theorem firstJoy_snoc {first : Joy K} (h : s.firstJoy = some first) :
    (s.observe o).firstJoy = some first := by
  simp only [Node.firstJoy, Node.observe, List.filterMap_append, List.head?_append] at h ⊢
  rw [h]
  rfl

omit [Field K] [LinearOrder K] in
/-- **A message settles the indices if it is the first.** -/
theorem Settled.onJoy {msg : Joy K} {t : K} (hargs : args.pad = noIndices) (h : Settled s)
    (hrun : s.running = true) : Settled (onJoy args s msg t) := by
  unfold Override.onJoy
  by_cases hseen : s.seenJoy = true
  · obtain ⟨first, pad, hfirst, hprofile, hpad⟩ := h.seen hrun hseen
    have hfirst' : (s.observe (.joy t msg)).firstJoy = some first := firstJoy_snoc hfirst
    have hseen' : (s.observe (.joy t msg)).seenJoy = true := hseen
    simp only [hseen', if_true]
    exact ⟨(fun h => by cases h), fun _ _ => ⟨first, pad, hfirst', hprofile, hpad⟩⟩
  · have hunseen : s.seenJoy = false := by simpa using hseen
    obtain ⟨-, hnone⟩ := h.unseen hunseen
    have hseen' : (s.observe (.joy t msg)).seenJoy = false := hunseen
    simp only [hseen', Bool.false_eq_true, if_false, hargs, resolvePadMap_noIndices]
    have hjoys : s.trace.filterMap Obs.joy? = [] := List.head?_eq_none_iff.1 hnone
    cases hprofile : PAD_MAPS msg.axes.length msg.buttons.length with
    | none => exact ⟨(fun h => by cases h), fun h => by cases h⟩
    | some pad =>
      refine ⟨(fun h => by cases h), fun _ _ => ⟨msg, pad, ?_, hprofile, rfl⟩⟩
      simp [Node.firstJoy, Node.observe, List.filterMap_append, hjoys, Obs.joy?]

theorem settled_step (hargs : args.pad = noIndices) {e : Event K} (h : Settled s) :
    Settled (step args tan s e) := by
  by_cases hrun : s.running = true
  · refine step_cases h (fun t msg _ => h.onJoy hargs hrun) (fun c s' out _ htick => ?_) ?_
    · have hsame : SameJoys s (s'.observe (.tick c.now s'.engaged out)) :=
        htick.sameJoys.trans (sameJoys_observe rfl)
      exact h.same hsame fun _ => hrun
    · exact h.same ⟨rfl, rfl, rfl, joys_snoc rfl⟩ fun _ => hrun
  · unfold step
    rw [if_neg hrun]
    exact h

omit [LinearOrder K] in
theorem settled_init : Settled (Node.init : Node K) :=
  ⟨fun _ => ⟨rfl, rfl⟩, fun _ h => by cases h⟩

/-! ## Runs -/

/-- The message at hand drives with the first message's indices. -/
theorem mapMatches_iff (h : Settled s) (e : Event K) :
    MapMatches args tan s e ↔ SamePad args tan s e := by
  cases e with
  | joy t msg => exact Iff.rfl
  | tick c =>
    constructor
    · intro hmap hrun hfresh first j pad tw hfirst hprofile hj hdrives
      obtain ⟨first', pad', hfirst', hprofile', hpad⟩ := h.first hrun (Or.inr ⟨first, hfirst⟩)
      obtain rfl : first' = first := Option.some.inj (hfirst'.symm.trans hfirst)
      obtain rfl : pad' = pad := Option.some.inj (hprofile'.symm.trans hprofile)
      obtain ⟨s', htick⟩ := tick_of_drives hfresh hj hpad hdrives
      -- the tick publishes this command, so what is asked of it holds here
      obtain ⟨-, -, -, -, -, -, -, -, -, -, -, -, -, hne⟩ := id hdrives
      obtain ⟨j', pad'', hj', hown, hpad', -⟩ := hmap hrun s' tw htick hne
      obtain rfl : j' = j := Option.some.inj (hj'.symm.trans hj)
      obtain rfl : pad'' = pad' := Option.some.inj (hpad'.symm.trans hpad)
      exact shape_of_profile hown hprofile
    · intro hsame hrun s' tw htick hne
      obtain ⟨hfresh, j, pad, hj, hpad, hdrives⟩ := drives_of_tick htick hne
      obtain ⟨first, pad', hfirst, hprofile, hpad'⟩ := h.first hrun (Or.inl ⟨j, hj⟩)
      obtain rfl : pad' = pad := Option.some.inj (hpad'.symm.trans hpad)
      have hshape := hsame hrun hfresh first j pad' tw hfirst hprofile hj hdrives
      exact ⟨j, pad', hj, (profile_of_shape hshape).trans hprofile, hpad, hdrives⟩

/-- **The indices are the pad's exactly as long as no message of another
shape moves the vehicle.** -/
theorem map_matches_iff (args : Args K) (tan : K → K) (es : List (Event K))
    (hargs : args.pad = noIndices) :
    Run.Along (step args tan) (MapMatches args tan) .init es ↔
      Run.Along (step args tan) (SamePad args tan) .init es := by
  constructor
  · exact Run.along_of_inv (fun _ _ h _ => settled_step hargs h)
      (fun _ e h => (mapMatches_iff h e).1) settled_init
  · exact Run.along_of_inv (fun _ _ h _ => settled_step hargs h)
      (fun _ e h => (mapMatches_iff h e).2) settled_init

end Settled

/-- A tick in which no time passes. -/
def tickAt (t : ℚ) : Event ℚ := .tick ⟨t, t, le_rfl⟩

/-- The two triggers are seen at rest, then RB is held and RT pressed. -/
def usbDrive : List (Event ℚ) :=
  [.joy 0 (usbJoy 1 1 0), tickAt 0, .joy 1 (usbJoy (-1) 1 1), tickAt 1]

theorem map_matches_usb :
    Run.Along (step .default id) (MapMatches .default id) .init usbDrive := by
  refine (map_matches_iff .default id _ rfl).2 ⟨trivial, ?_, trivial, ?_, trivial⟩
  · intro _ _ first j pad tw hfirst _ hj _
    have hat : (Run.run (step .default id) .init (usbDrive.take 1)).firstJoy =
        (Run.run (step .default id) .init (usbDrive.take 1)).joy := by decide +kernel
    obtain rfl : j = first := Option.some.inj (hj.symm.trans (hat.symm.trans hfirst))
    rfl
  · intro _ _ first j pad tw hfirst _ hj _
    have hat : (Run.run (step .default id) .init (usbDrive.take 3)).firstJoy =
        some (usbJoy 1 1 0) := by decide +kernel
    have hat' : (Run.run (step .default id) .init (usbDrive.take 3)).joy =
        some (usbJoy (-1) 1 1) := by decide +kernel
    obtain rfl : usbJoy 1 1 0 = first := Option.some.inj (hat.symm.trans hfirst)
    obtain rfl : usbJoy (-1) 1 1 = j := Option.some.inj (hat'.symm.trans hj)
    rfl

/-- The pad is armed over USB. Then it sends by Bluetooth, with both
triggers and the stick at rest and button 5 held. -/
def padChange : List (Event ℚ) :=
  [.joy 0 (usbJoy 1 1 0), tickAt 0,
    .joy (1 / 10) ⟨[0, 0, 0, 0, 1, 1], [0, 0, 0, 0, 0, 1, 0, 0, 0, 0, 0, 0, 0, 0, 0, 0]⟩,
    tickAt (1 / 10)]

/-- What is no trigger any more drives the vehicle backwards. -/
theorem padChange_reverses :
    ¬ Run.Along (step .default id) (MapMatches .default id) .init padChange := by
  rintro ⟨-, -, -, hlast, -⟩
  have htick : (tick .default (Run.run (step .default id) .init (padChange.take 3)) id (1 / 10)
      (1 / 10)).map (·.2) = some (some ⟨-1 / 20, 0⟩) := by decide +kernel
  obtain ⟨⟨s', out⟩, htick, rfl⟩ := Option.map_eq_some_iff.1 htick
  obtain ⟨j, pad, hj, hprofile, hpad, -⟩ := hlast (by decide +kernel) s' _ htick (by decide +kernel)
  have hown : (Run.run (step .default id) .init (padChange.take 3)).joy.bind Joy.profile =
      some ⟨5, 4, 0, 10⟩ := by decide +kernel
  have husb : (Run.run (step .default id) .init (padChange.take 3)).pad =
      some ⟨5, 2, 0, 5⟩ := by decide +kernel
  have hmatch : (Run.run (step .default id) .init (padChange.take 3)).joy.bind Joy.profile =
      (Run.run (step .default id) .init (padChange.take 3)).pad :=
    (Option.bind_eq_some_iff.2 ⟨j, hj, hprofile⟩).trans hpad.symm
  rw [hown, husb] at hmatch
  exact absurd hmatch (by decide)

end Override

end VehicleStack
