import VehicleStack.Override.Model
import Mathlib.Algebra.Order.Field.Basic
import Mathlib.Logic.Basic
import Mathlib.Tactic.Linarith
import Mathlib.Tactic.NormNum

/-!
# The manual override — what a tick can do

`Ticked` lists the five ways a tick can end, each with what it has found on
the way; the laws of the node are proved by cases on it. The second part is
about the numbers: what the two triggers and the stick can come to.
-/

namespace VehicleStack

namespace Override

variable {K : Type} [Field K] [LinearOrder K] {args : Args K} {tan : K → K} {s s' : Node K}
  {now later : K} {out : Option (Twist K)}

/-- **The ways a tick ends.** -/
inductive Ticked (args : Args K) (tan : K → K) (s : Node K) (now later : K) :
    Node K → Option (Twist K) → Prop
  /-- The messages have stopped. -/
  | lost : stale args s now = true →
      Ticked args tan s now later (disarm args s later) (tailOrSilence (disarm args s later) now)
  /-- There has been none. -/
  | waiting : stale args s now = true → s.engaged = false →
      Ticked args tan s now later s (tailOrSilence s now)
  /-- The message is too short for the indices. -/
  | short {j pad} : stale args s now = false → s.joy = some j → s.pad = some pad →
      outOfRange pad j = true → Ticked args tan s now later s (tailOrSilence s now)
  /-- The operator does not hold the vehicle. -/
  | idle {j pad rt lt} : stale args s now = false → s.joy = some j → s.pad = some pad →
      outOfRange pad j = false →
      getItem j.axes pad.rtAxis = some rt → getItem j.axes pad.ltAxis = some lt →
      Ticked args tan s now later ((s.arm rt lt).release args now)
        (tailOrSilence ((s.arm rt lt).release args now) now)
  /-- The operator drives. -/
  | driving {j pad rt lt rb stick} : stale args s now = false → s.joy = some j →
      s.pad = some pad → outOfRange pad j = false →
      getItem j.axes pad.rtAxis = some rt → getItem j.axes pad.ltAxis = some lt →
      getItem j.buttons pad.rbButton = some rb → rb ≠ 0 →
      armed rt s.armedRt = true → armed lt s.armedLt = true →
      Ticked args tan s now later (s.arm rt lt).engage
        (some (command args tan (trigger rt true) (trigger lt true) stick))

section

omit [Field K] [LinearOrder K]

@[simp] theorem engage_engaged : s.engage.engaged = true := by
  unfold Node.engage
  split
  · assumption
  · rfl

@[simp] theorem engage_joy : s.engage.joy = s.joy := by
  unfold Node.engage
  split <;> rfl

@[simp] theorem engage_joyT : s.engage.joyT = s.joyT := by
  unfold Node.engage
  split <;> rfl

@[simp] theorem engage_pad : s.engage.pad = s.pad := by
  unfold Node.engage
  split <;> rfl

@[simp] theorem engage_armedRt : s.engage.armedRt = s.armedRt := by
  unfold Node.engage
  split <;> rfl

@[simp] theorem engage_armedLt : s.engage.armedLt = s.armedLt := by
  unfold Node.engage
  split <;> rfl

end

omit [LinearOrder K] in
@[simp] theorem release_engaged {t : K} : (s.release args t).engaged = false := by
  unfold Node.release
  split
  · rfl
  · simpa using ‹¬ s.engaged = true›

theorem stale_eq_false_iff : stale args s now = false ↔
    ∃ j, s.joy = some j ∧ now - s.joyT ≤ args.joyTimeout := by
  unfold stale
  cases s.joy <;> simp

theorem tailOrSilence_zero {tw : Twist K} (h : tailOrSilence s now = some tw) : tw = .zero := by
  unfold tailOrSilence at h
  split at h
  · exact (Option.some.inj h).symm
  · cases h

/-- **A tick that does not raise ends in one of them.** -/
theorem ticked_of_tick (h : tick args s tan now later = some (s', out)) :
    Ticked args tan s now later s' out := by
  unfold tick at h
  by_cases hstale : stale args s now = true
  · rw [if_pos hstale] at h
    cases h
    split
    · exact .lost hstale
    · split
      · exact .lost hstale
      · exact .waiting hstale (by simpa using ‹¬ s.engaged = true›)
  · rw [if_neg hstale] at h
    have hfresh : stale args s now = false := by simpa using hstale
    simp only [Option.bind_eq_bind, Option.bind_eq_some_iff] at h
    obtain ⟨j, hj, pad, hpad, h⟩ := h
    by_cases hrange : outOfRange pad j = true
    · rw [if_pos hrange] at h
      cases h
      exact .short hfresh hj hpad hrange
    · rw [if_neg hrange] at h
      have hrange' : outOfRange pad j = false := by simpa using hrange
      simp only [Option.bind_eq_some_iff] at h
      obtain ⟨rt, hrt, lt, hlt, rb, hrb, h⟩ := h
      by_cases hheld : rb ≠ 0 ∧ (s.arm rt lt).armedRt = true ∧ (s.arm rt lt).armedLt = true
      · obtain ⟨hpressed, hart, halt⟩ := hheld
        rw [if_pos (And.intro hpressed (And.intro hart halt))] at h
        simp only [engage_engaged, engage_armedRt, engage_armedLt, hart, halt, Bool.not_true,
          Bool.false_eq_true, if_false, Option.bind_eq_some_iff] at h
        obtain ⟨stick, -, h⟩ := h
        cases h
        exact .driving hfresh hj hpad hrange' hrt hlt hrb hpressed hart halt
      · rw [if_neg hheld] at h
        simp only [release_engaged, Bool.not_false, if_true] at h
        cases h
        exact .idle hfresh hj hpad hrange' hrt hlt

/-! ## What is entered on the way -/

/-- The entry is the end of a tick. -/
def Obs.IsTick : Obs K → Prop
  | .tick _ _ _ => True
  | _ => False

/-- The trace has grown by entries that are no end of a tick. -/
def Grows (s s' : Node K) : Prop :=
  ∃ added, s'.trace = s.trace ++ added ∧ ∀ o ∈ added, ¬ o.IsTick

section

variable {s'' : Node K} {o : Obs K} {t : K}

omit [Field K] [LinearOrder K]

theorem Grows.refl : Grows s s :=
  ⟨[], (List.append_nil _).symm, fun _ ho => absurd ho List.not_mem_nil⟩

theorem Grows.trans (h : Grows s s') (h' : Grows s' s'') : Grows s s'' := by
  obtain ⟨added, htr, hadded⟩ := h
  obtain ⟨added', htr', hadded'⟩ := h'
  refine ⟨added ++ added', by rw [htr', htr, List.append_assoc], fun o ho => ?_⟩
  rcases List.mem_append.1 ho with ho | ho
  · exact hadded o ho
  · exact hadded' o ho

theorem grows_observe (ho : ¬ o.IsTick) : Grows s (s.observe o) :=
  ⟨[o], rfl, fun o' ho' => by rwa [List.mem_singleton.1 ho']⟩

theorem grows_exit : Grows s s.exit := grows_observe id

theorem grows_engage : Grows s s.engage := by
  unfold Node.engage
  split
  · exact .refl
  · exact grows_observe (o := .engaged) id

end

omit [LinearOrder K] in
theorem grows_release {t : K} : Grows s (s.release args t) := by
  unfold Node.release
  split
  · exact grows_observe (o := .released t) id
  · exact .refl

omit [LinearOrder K] in
theorem grows_disarm {t : K} : Grows s (disarm args s t) :=
  (grows_observe (o := .disarmed) id).trans grows_release

theorem grows_arm {rt lt : K} : Grows s (s.arm rt lt) := grows_observe (o := .read rt lt) id

omit [Field K] [LinearOrder K] in
theorem grows_onJoy {msg : Joy K} {t : K} : Grows s (onJoy args s msg t) := by
  have hjoy : Grows s (s.observe (.joy t msg)) := grows_observe id
  simp only [onJoy]
  split
  · exact hjoy
  · split
    · exact hjoy.trans grows_exit
    · exact hjoy.trans (grows_observe (s := s.observe (.joy t msg)) (o := .resolved _) id)

/-- **A tick enters its end last.** -/
theorem Ticked.grows (h : Ticked args tan s now later s' out) : Grows s s' := by
  cases h with
  | lost => exact grows_disarm
  | waiting => exact .refl
  | short => exact .refl
  | idle => exact grows_arm.trans grows_release
  | driving => exact grows_arm.trans grows_engage

/-- **The step rule**: a message, a tick that ends, or a tick that
raises. -/
theorem step_cases {I : Node K → Prop} {e : Event K} (h : I s)
    (hjoy : ∀ t msg, e = .joy t msg → I (onJoy args s msg t))
    (htick : ∀ c s' out, e = .tick c → Ticked args tan s c.now c.later s' out →
      I (s'.observe (.tick c.now s'.engaged out)))
    (hexit : I s.exit) : I (step args tan s e) := by
  unfold step
  split
  · cases e with
    | joy t msg => exact hjoy t msg rfl
    | tick c =>
      simp only
      cases hout : tick args s tan c.now c.later with
      | none => exact hexit
      | some p => exact htick c p.1 p.2 rfl (ticked_of_tick hout)
  · exact h

/-! ## The numbers -/

/-- The trigger is pressed far enough to count. -/
def PastDeadzone (axisVal : K) : Prop := TRIGGER_DEADZONE ≤ travel axisVal

theorem travel_nonneg {x : K} : 0 ≤ travel x := le_max_left _ _

theorem trigger_nonneg {x : K} {flag : Bool} : 0 ≤ trigger x flag := by
  unfold trigger
  split
  · split
    · exact le_rfl
    · exact travel_nonneg
  · exact le_rfl

/-- **A command that moves the vehicle comes from one trigger.** -/
theorem xor_of_moving {fwd rev stick : K} (hfwd : 0 ≤ fwd) (hrev : 0 ≤ rev)
    (h : (command args tan fwd rev stick).linearX ≠ 0) : Xor (0 < fwd) (0 < rev) := by
  simp only [command] at h
  split at h
  · exact absurd rfl h
  · rename_i hboth
    rcases hfwd.lt_or_eq with hfwd | rfl
    · exact Or.inl ⟨hfwd, fun hrev => hboth ⟨hfwd, hrev⟩⟩
    · rcases hrev.lt_or_eq with hrev | rfl
      · exact Or.inr ⟨hrev, lt_irrefl _⟩
      · simp at h

variable [IsStrictOrderedRing K]

theorem deadzone_pos : (0 : K) < TRIGGER_DEADZONE := by
  unfold TRIGGER_DEADZONE
  norm_num

theorem wheelbase_pos : (0 : K) < WHEELBASE := by
  unfold WHEELBASE
  norm_num

theorem travel_le_one {x : K} : travel x ≤ 1 := max_le zero_le_one (min_le_left _ _)

theorem trigger_le_one {x : K} {flag : Bool} : trigger x flag ≤ 1 := by
  unfold trigger
  split
  · split
    · exact zero_le_one
    · exact travel_le_one
  · exact zero_le_one

/-- **An armed trigger counts once it is past its deadzone.** -/
theorem trigger_pos_iff {x : K} : 0 < trigger x true ↔ PastDeadzone x := by
  unfold trigger PastDeadzone
  rw [if_pos rfl]
  split
  · rename_i hlt
    simp [hlt]
  · rename_i hge
    have hle := not_lt.1 hge
    simp [hle, deadzone_pos.trans_le hle]

/-- The limits of every command. -/
structure Capped (args : Args K) (tan : K → K) (tw : Twist K) : Prop where
  forward : tw.linearX ≤ args.maxFwd
  reverse : -args.maxRev ≤ tw.linearX
  still : tw.linearX = 0 → tw.angularZ = 0
  steer : |tw.angularZ| * WHEELBASE ≤ |tw.linearX| * tan args.maxSteer

/-- The arguments are sensible: speeds and the steering cap are no less than
zero, and no angle within the cap has a larger tangent. -/
structure Args.Sensible (args : Args K) (tan : K → K) : Prop where
  maxFwd : 0 ≤ args.maxFwd
  maxRev : 0 ≤ args.maxRev
  maxSteer : 0 ≤ args.maxSteer
  tan : ∀ δ, |δ| ≤ args.maxSteer → |tan δ| ≤ tan args.maxSteer

theorem capped_zero (h : args.Sensible tan) : Capped args tan .zero := by
  refine ⟨h.maxFwd, ?_, fun _ => rfl, ?_⟩
  · simpa [Twist.zero] using h.maxRev
  · simp [Twist.zero]

/-- **Every command is within the limits.** -/
theorem capped_command {fwd rev stick : K} (h : args.Sensible tan) (hfwd : 0 ≤ fwd)
    (hfwd' : fwd ≤ 1) (hrev : 0 ≤ rev) (hrev' : rev ≤ 1) :
    Capped args tan (command args tan fwd rev stick) := by
  have hforward : fwd * args.maxFwd ≤ args.maxFwd := mul_le_of_le_one_left h.maxFwd hfwd'
  have hreverse : rev * args.maxRev ≤ args.maxRev := mul_le_of_le_one_left h.maxRev hrev'
  have hforward' : 0 ≤ fwd * args.maxFwd := mul_nonneg hfwd h.maxFwd
  have hreverse' : 0 ≤ rev * args.maxRev := mul_nonneg hrev h.maxRev
  have hmaxFwd := h.maxFwd
  have hmaxRev := h.maxRev
  refine ⟨?_, ?_, fun hzero => ?_, ?_⟩
  · simp only [command]
    split <;> linarith
  · simp only [command]
    split <;> linarith
  · simp only [command] at hzero ⊢
    rw [hzero, zero_mul, zero_div]
  · simp only [command]
    generalize (if 0 < fwd ∧ 0 < rev then 0 else fwd * args.maxFwd - rev * args.maxRev) = vx
    generalize (if |stick * args.steerSign| < STICK_DEADZONE then 0 else stick * args.steerSign) *
      args.maxSteer = angle
    have hdelta : |max (-args.maxSteer) (min args.maxSteer angle)| ≤ args.maxSteer :=
      abs_le.2 ⟨le_max_left _ _, max_le (by linarith [h.maxSteer]) (min_le_left _ _)⟩
    have hbase : |(WHEELBASE : K)| = WHEELBASE := abs_of_pos wheelbase_pos
    rw [abs_div, abs_mul, hbase, div_mul_cancel₀ _ wheelbase_pos.ne']
    exact mul_le_mul_of_nonneg_left (h.tan _ hdelta) (abs_nonneg vx)

end Override

end VehicleStack
