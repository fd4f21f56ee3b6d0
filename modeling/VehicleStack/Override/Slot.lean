import VehicleStack.Common.History
import VehicleStack.Common.Run
import VehicleStack.Override.Ticks
import Mathlib.Algebra.Order.Ring.Rat

/-!
# The manual override — holding the mux slot

While the operator holds the vehicle every tick is to publish, and the slot
is given up by a tail of zero Twists and then silence. The tail is kept in
every run. But a message that is too short for the indices sends the tick
down the path of an idle node while `engaged` stays set: outside a tail it
publishes nothing, right after a motion command (`short_message_is_silent`).
The runs in which no tick does so are exactly the runs that hold the slot
(`holds_slot_iff`).
-/

namespace VehicleStack

namespace Override

open History

variable {K : Type} [Field K] [LinearOrder K] {args : Args K} {tan : K → K} {s s' : Node K}
  {now later t : K} {out : Option (Twist K)} {o : Obs K} {e : Event K}

/-- The entry engages or releases. -/
def Obs.IsSwitch : Obs K → Prop
  | .engaged => True
  | .released _ => True
  | _ => False

/-- What is asked of a tick that leaves the node engaged or not and
publishes `out`. -/
structure SlotLaw (args : Args K) (before : List (Obs K)) (now : K) (engaged : Bool)
    (out : Option (Twist K)) : Prop where
  /-- It publishes if it leaves the node engaged. -/
  held : engaged = true → out.isSome = true
  /-- Since a release at `t` it publishes zeros for as long as the tail
  lasts, and then nothing. -/
  tail : engaged = false → ∀ t, Last Obs.IsSwitch (.released t) before →
    out = if now < t + args.tail then some .zero else none
  /-- It is not silent right after a command that moved the vehicle. -/
  active : out = none → ∀ now' engaged' tw,
    Last Obs.IsTick (.tick now' engaged' (some tw)) before → tw.linearX = 0

/-- Every tick holds the slot, or gives it up as it should. -/
def HoldsSlot (args : Args K) (before : List (Obs K)) : Obs K → Prop
  | .tick now engaged out => SlotLaw args before now engaged out
  | _ => True

/-- No tick of an engaged node finds a fresh message that is too short,
unless a tail is still running. -/
def KeepsPublishing (args : Args K) (s : Node K) : Event K → Prop
  | .tick c => s.running = true → s.engaged = true → stale args s c.now = false →
      ∀ j, s.joy = some j → ∀ pad, s.pad = some pad → outOfRange pad j = true →
        c.now < s.tailUntil
  | .joy _ _ => True

instance : Decidable (KeepsPublishing args s e) :=
  match e with
  | .tick c => inferInstanceAs (Decidable (s.running = true → s.engaged = true →
      stale args s c.now = false → ∀ j, s.joy = some j → ∀ pad, s.pad = some pad →
        outOfRange pad j = true → c.now < s.tailUntil))
  | .joy _ _ => isTrue trivial

/-! ## What the node keeps -/

/-- The tail counts from the last release. -/
def TailKept (args : Args K) (s : Node K) : Prop :=
  ∀ t, Last Obs.IsSwitch (.released t) s.trace → s.tailUntil = t + args.tail

/-- After a command that moves the vehicle the node is engaged. -/
def MovesEngaged (s : Node K) : Prop :=
  ∀ now engaged tw, Last Obs.IsTick (.tick now engaged (some tw)) s.trace → tw.linearX ≠ 0 →
    s.engaged = true

omit [LinearOrder K] in
theorem TailKept.observe (h : TailKept args s) (ho : ¬ o.IsSwitch) :
    TailKept args (s.observe o) := by
  intro t hlast
  rcases last_snoc.1 hlast with rfl | ⟨hlast, -⟩
  · exact absurd trivial ho
  · exact h t hlast

omit [LinearOrder K] in
theorem TailKept.release (h : TailKept args s) : TailKept args (s.release args t) := by
  unfold Node.release
  split
  · intro t' hlast
    rcases last_snoc.1 hlast with heq | ⟨-, hno⟩
    · cases heq
      rfl
    · exact absurd trivial hno
  · exact h

omit [LinearOrder K] in
theorem TailKept.engage (h : TailKept args s) : TailKept args s.engage := by
  unfold Node.engage
  split
  · exact h
  · intro t hlast
    rcases last_snoc.1 hlast with heq | ⟨-, hno⟩
    · cases heq
    · exact absurd trivial hno

omit [LinearOrder K] in
theorem TailKept.onJoy {msg : Joy K} (h : TailKept args s) :
    TailKept args (onJoy args s msg t) := by
  have hjoy : TailKept args (s.observe (.joy t msg)) := h.observe id
  simp only [Override.onJoy]
  split
  · exact hjoy
  · split
    · exact TailKept.observe (o := .stopped) hjoy id
    · exact TailKept.observe (o := .resolved _) hjoy id

/-- **A tick keeps it.** -/
theorem Ticked.tailKept (h : TailKept args s) (htick : Ticked args tan s now later s' out) :
    TailKept args s' := by
  cases htick with
  | lost => exact TailKept.release (TailKept.observe (o := .disarmed) h id)
  | waiting => exact h
  | short => exact h
  | @idle j pad rt lt => exact TailKept.release (TailKept.observe (o := .read rt lt) h id)
  | @driving j pad rt lt => exact TailKept.engage (TailKept.observe (o := .read rt lt) h id)

omit [Field K] [LinearOrder K] in
/-- What is entered besides the ends of ticks leaves the last one the last
one. -/
theorem Grows.lastTick (hgrows : Grows s s') (ho : o.IsTick) (h : Last Obs.IsTick o s'.trace) :
    Last Obs.IsTick o s.trace := by
  obtain ⟨added, htr, hadded⟩ := hgrows
  rw [htr] at h
  exact h.of_append fun hmem => hadded o hmem ho

/-! ## What a tick may publish -/

variable [IsStrictOrderedRing K]

/-- **A tick that goes silent has not been engaged**, if it is no tick that
the condition excludes. -/
theorem Ticked.not_engaged_of_silent (htail : 0 < args.tail) (hle : now ≤ later)
    (hkeeps : s.engaged = true → stale args s now = false → ∀ j, s.joy = some j →
      ∀ pad, s.pad = some pad → outOfRange pad j = true → now < s.tailUntil)
    (htick : Ticked args tan s now later s' none) : s.engaged = false := by
  by_contra hne
  have hengaged : s.engaged = true := by simpa using hne
  generalize hout : (none : Option (Twist K)) = out at htick
  cases htick with
  -- the tail counts from the clock's second reading, which is no earlier than the first
  | lost hstale =>
    have htail : now < later + args.tail := hle.trans_lt (lt_add_of_pos_right _ htail)
    simp [tailOrSilence, disarm, Node.release, Node.observe, hengaged, htail] at hout
  | waiting hstale hidle =>
    rw [hengaged] at hidle
    cases hidle
  | @short j pad hfresh hj hpad hrange =>
    simp [tailOrSilence, hkeeps hengaged hfresh j hj pad hpad hrange] at hout
  | idle hfresh hj hpad hrange hrt hlt =>
    simp [tailOrSilence, Node.release, Node.arm, Node.observe, hengaged, htail] at hout
  | driving => cases hout

omit [IsStrictOrderedRing K] in
/-- What is published without driving is what the tail asks for. -/
theorem TailKept.slotTail (h : TailKept args s) (hlast : Last Obs.IsSwitch (.released t) s.trace) :
    tailOrSilence s now = if now < t + args.tail then some .zero else none := by
  rw [tailOrSilence, h t hlast]

/-- **The law of a tick.** -/
theorem Ticked.slotLaw (htail : 0 < args.tail) (hle : now ≤ later)
    (hkeeps : s.engaged = true → stale args s now = false → ∀ j, s.joy = some j →
      ∀ pad, s.pad = some pad → outOfRange pad j = true → now < s.tailUntil)
    (htk : TailKept args s) (hmoves : MovesEngaged s) (htick : Ticked args tan s now later s' out) :
    SlotLaw args s'.trace now s'.engaged out := by
  have htk' : TailKept args s' := htick.tailKept htk
  refine ⟨fun hengaged => ?_, fun hidle t hlast => ?_, fun hsilent now' engaged' tw hlast => ?_⟩
  · cases htick with
    | lost =>
      rw [disarm, release_engaged] at hengaged
      cases hengaged
    | waiting hstale hidle =>
      rw [hidle] at hengaged
      cases hengaged
    | @short j pad hfresh hj hpad hrange =>
      simp [tailOrSilence, hkeeps hengaged hfresh j hj pad hpad hrange]
    | idle =>
      rw [release_engaged] at hengaged
      cases hengaged
    | driving => rfl
  · cases htick with
    | lost => exact htk'.slotTail hlast
    | waiting => exact htk'.slotTail hlast
    | short => exact htk'.slotTail hlast
    | idle => exact htk'.slotTail hlast
    | driving =>
      rw [engage_engaged] at hidle
      cases hidle
  -- a command before it would have left the node engaged, and such a node is not silent
  · subst hsilent
    by_contra hmoving
    have hengaged := hmoves now' engaged' tw (htick.grows.lastTick trivial hlast) hmoving
    rw [htick.not_engaged_of_silent htail hle hkeeps] at hengaged
    cases hengaged

omit [IsStrictOrderedRing K] in
/-- Only a driving tick moves the vehicle. -/
theorem Ticked.engaged_of_moving {tw : Twist K} (htick : Ticked args tan s now later s' out)
    (hout : out = some tw) (hmoving : tw.linearX ≠ 0) : s'.engaged = true := by
  have hzero : ∀ s : Node K, tailOrSilence s now ≠ some tw := by
    intro s htw
    unfold tailOrSilence at htw
    split at htw
    · cases htw
      exact hmoving rfl
    · cases htw
  cases htick with
  | lost => exact absurd hout (hzero _)
  | waiting => exact absurd hout (hzero _)
  | short => exact absurd hout (hzero _)
  | idle => exact absurd hout (hzero _)
  | driving => exact engage_engaged

/-! ## Runs -/

/-- The invariant. -/
structure Holding (args : Args K) (s : Node K) : Prop where
  tailKept : TailKept args s
  moves : MovesEngaged s
  law : AtEach (HoldsSlot args) s.trace

omit [IsStrictOrderedRing K] in
theorem Grows.holdsSlot (h : AtEach (HoldsSlot args) s.trace) (hgrows : Grows s s') :
    AtEach (HoldsSlot args) s'.trace := by
  obtain ⟨added, htr, hadded⟩ := hgrows
  rw [htr]
  refine h.append fun o ho before => ?_
  cases o with
  | tick now engaged out => exact absurd trivial (hadded _ ho)
  | joy t msg => trivial
  | resolved pad => trivial
  | disarmed => trivial
  | read rt lt => trivial
  | engaged => trivial
  | released t => trivial
  | stopped => trivial

omit [Field K] [LinearOrder K] [IsStrictOrderedRing K] in
theorem onJoy_engaged {msg : Joy K} : (onJoy args s msg t).engaged = s.engaged := by
  simp only [onJoy]
  split
  · rfl
  · split <;> rfl

/-- **A step that keeps publishing holds the slot.** -/
theorem holding_step (htail : 0 < args.tail) (h : Holding args s)
    (hkeeps : KeepsPublishing args s e) : Holding args (step args tan s e) := by
  have hkept : ∀ s' : Node K, Grows s s' → s'.engaged = s.engaged → TailKept args s' →
      Holding args s' := fun s' hgrows hengaged htk =>
    ⟨htk, fun now engaged tw hlast hmoving =>
      hengaged.trans (h.moves now engaged tw (hgrows.lastTick trivial hlast) hmoving),
      hgrows.holdsSlot h.law⟩
  by_cases hrun : s.running = true
  · refine step_cases h (fun t msg _ => hkept _ grows_onJoy onJoy_engaged h.tailKept.onJoy)
      (fun c s' out he htick => ?_)
      (hkept _ grows_exit rfl (TailKept.observe (o := .stopped) h.tailKept id))
    subst he
    refine ⟨TailKept.observe (o := .tick _ _ _) (htick.tailKept h.tailKept) id,
      fun now engaged tw hlast hmoving => ?_, atEach_snoc.2 ⟨htick.grows.holdsSlot h.law,
        htick.slotLaw htail c.le (hkeeps hrun) h.tailKept h.moves⟩⟩
    rcases last_snoc.1 hlast with heq | ⟨-, hno⟩
    · cases heq
      exact htick.engaged_of_moving rfl hmoving
    · exact absurd trivial hno
  · unfold step
    rwa [if_neg hrun]

omit [IsStrictOrderedRing K] in
/-- **A step that does not breaks the law.** -/
theorem keeps_of_holdsSlot (h : AtEach (HoldsSlot args) (step args tan s e).trace) :
    KeepsPublishing args s e := by
  cases e with
  | joy t msg => trivial
  | tick c =>
    intro hrun hengaged hfresh j hj pad hpad hrange
    by_contra hlate
    have htick : tick args s tan c.now c.later = some (s, none) := by
      simp [tick, hfresh, hj, hpad, hrange, tailOrSilence, hlate]
    simp only [step, hrun, if_true, htick] at h
    have hlaw := ((atEach_snoc.1 h).2 : SlotLaw args s.trace c.now s.engaged none).held hengaged
    cases hlaw

omit [IsStrictOrderedRing K] in
theorem holding_init : Holding args (Node.init : Node K) :=
  ⟨fun _ h => absurd h not_last_nil, fun _ _ _ h => absurd h not_last_nil, atEach_nil⟩

/-- **The runs that hold the slot** and give it up through a tail of zeros
are those in which no tick of an engaged node finds a message too short for
the indices outside a tail. -/
theorem holds_slot_iff (args : Args K) (tan : K → K) (es : List (Event K)) (htail : 0 < args.tail) :
    Run.Throughout (step args tan) (fun s => AtEach (HoldsSlot args) s.trace) .init es ↔
      Run.Along (step args tan) (KeepsPublishing args) .init es :=
  Run.throughout_iff_along (I := Holding args) (R := fun _ => True)
    (fun _ _ h _ hkeeps => holding_step htail h hkeeps) (fun _ h => h.law)
    (fun _ _ _ _ h => keeps_of_holdsSlot h) holding_init fun _ _ => trivial

/-- The operator arms, drives, and lets RB go. -/
theorem holds_slot_iff_once :
    Run.Throughout (step .default id) (fun s => AtEach (HoldsSlot .default) s.trace)
      (.init : Node ℚ)
      [.joy 0 (usbJoy 1 1 0), .tick ⟨0, 0, le_rfl⟩, .joy 1 (usbJoy (-1) 1 1),
        .tick ⟨1, 1, le_rfl⟩, .joy 2 (usbJoy 1 1 0), .tick ⟨2, 2, le_rfl⟩, .tick ⟨4, 4, le_rfl⟩] :=
  (holds_slot_iff .default id _ (by decide +kernel)).2 (by decide +kernel)

/-- The operator arms and drives, and the next message has no axes. -/
def shrinkingPad : List (Event ℚ) :=
  [.joy 0 (usbJoy 1 1 0), .tick ⟨0, 0, le_rfl⟩, .joy 1 (usbJoy (-1) 1 1), .tick ⟨1, 1, le_rfl⟩,
    .joy 2 ⟨[], []⟩, .tick ⟨2, 2, le_rfl⟩]

/-- **The tick after the motion command publishes nothing**, and the node
is still engaged. -/
theorem short_message_is_silent :
    ¬ AtEach (HoldsSlot .default) (Run.run (step .default id) .init shrinkingPad).trace := by
  intro h
  have htr : (Run.run (step .default id) .init shrinkingPad).trace =
      [.joy 0 (usbJoy 1 1 0), .resolved ⟨5, 2, 0, 5⟩, .read 1 1, .tick 0 false none,
        .joy 1 (usbJoy (-1) 1 1), .read (-1) 1, .engaged, .tick 1 true (some ⟨1 / 5, 0⟩),
        .joy 2 ⟨[], []⟩] ++ [.tick 2 true none] := by
    decide +kernel
  rw [htr] at h
  have hlaw := (atEach_snoc.1 h).2
  exact absurd (hlaw.held rfl) (by decide)

end Override

end VehicleStack
