import VehicleStack.Common.Run
import VehicleStack.EmergencyStop.Restore

/-!
# The emergency-stop server — the goal it hears back

The server publishes restored goals on the topic it listens to, so each of
them comes back to it, at some later time. `onGoalPose` takes such an echo
for the driver's: one that arrives while the vehicle is locked again drops
the goal that lock has saved (`echo_drops_goal`). A run keeps every saved
goal exactly when no echo finds it under lock (`goal_kept_iff`), and a goal
that is kept is republished once after the last unlock
(`restored_once`).
-/

namespace VehicleStack

namespace EmergencyStop

variable {Pose : Type} {cfg : Config} {s : Server Pose} {e : Event Pose}
  {goal : PoseStamped Pose} {due : ℚ}

/-! ## The server and its own messages -/

/-- The goal an observation says was republished. -/
def Obs.republished? : Obs Pose → Option (PoseStamped Pose)
  | .goalRepublished goal => some goal
  | _ => none

/-- The goals that have been republished, oldest first. -/
def Server.republished (s : Server Pose) : List (PoseStamped Pose) :=
  s.trace.filterMap Obs.republished?

/-- The goal that `saveGoalForRestore` stores, if it stores one. -/
def goalToSave (cfg : Config) (s : Server Pose) : Option (PoseStamped Pose) :=
  if cfg.restoreGoal && s.navGoalActive then s.lastGoal else none

/-- The server, its republished goals that are on their way back to it, and
the goal it owes: the one last saved, until a goal is republished or another
publisher sends one. No callback reads `owed`. -/
structure Loop (Pose : Type) where
  server : Server Pose
  echoes : List (PoseStamped Pose)
  owed : Option (PoseStamped Pose)
  deriving DecidableEq

def Loop.init (Pose : Type) : Loop Pose := ⟨.init Pose, [], none⟩

/-- What can happen to the two. A `goalPose` event is a message of another
publisher; `echo i` delivers one of the server's own. -/
inductive Arrival (Pose : Type)
  | event (e : Event Pose)
  | echo (i : ℕ)

/-- The goals an event has had republished. -/
def newlyRepublished (s s' : Server Pose) : List (PoseStamped Pose) :=
  s'.republished.drop s.republished.length

/-- What the server owes after an event. -/
def owedAfter (cfg : Config) (l : Loop Pose) (e : Event Pose) : Option (PoseStamped Pose) :=
  match e with
  | .lock => (goalToSave cfg l.server).orElse fun _ => l.owed
  | .goalPose _ => none
  | _ => if (newlyRepublished l.server (step cfg l.server e)).isEmpty then l.owed else none

/-- One event, or the delivery of an echo. -/
def loopStep (cfg : Config) (l : Loop Pose) : Arrival Pose → Loop Pose
  | .event e =>
    let server := step cfg l.server e
    ⟨server, l.echoes ++ newlyRepublished l.server server, owedAfter cfg l e⟩
  | .echo i =>
    match l.echoes[i]? with
    | none => l
    | some msg => { l with server := onGoalPose l.server msg, echoes := l.echoes.eraseIdx i }

/-- A saved goal is still there as long as it is owed. -/
def GoalKept (l : Loop Pose) : Prop :=
  ∀ goal, l.owed = some goal → l.server.pendingRestore = some goal

/-- Neither a lock or an unlock, nor a goal of another publisher. -/
def Arrival.Undisturbing : Arrival Pose → Prop
  | .event .lock | .event (.unlock _) | .event (.goalPose _) => False
  | _ => True

/-- The restore timer is looked at once `due` has come. -/
def Arrival.Expires (due : ℚ) : Arrival Pose → Prop
  | .event (.restoreTimer steady _) => due ≤ steady
  | _ => False

/-- An owed goal is republished exactly once by an unlock that nothing
disturbs until the restore timer has run out. -/
def RestoresOnce (cfg : Config) (l : Loop Pose) : Prop :=
  ∀ goal, l.owed = some goal → ∀ steady rest, (∀ a ∈ rest, a.Undisturbing) →
    (∃ a ∈ rest, a.Expires (steady + cfg.restoreDelay)) →
      ∃ now, (Run.run (loopStep cfg) l (.event (.unlock steady) :: rest)).server.republished =
        l.server.republished ++ [{ goal with stamp := now }]

/-- An echo that arrives under lock finds no goal owed. -/
def EchoSpares (l : Loop Pose) : Arrival Pose → Prop
  | .echo i => l.echoes[i]?.isSome → l.server.locked = true → l.owed = none
  | _ => True

/-! ## What an event does to the saved goal -/

/-- What the restore timer republishes. -/
def republishes (s : Server Pose) : Event Pose → List (PoseStamped Pose)
  | .restoreTimer steady now =>
    if restoreDue s steady && !s.locked then
      (s.pendingRestore.map fun goal => { goal with stamp := now }).toList
    else []
  | _ => []

theorem saveGoalForRestore_eq : saveGoalForRestore cfg s =
    { s with restoreTimer := none
             pendingRestore := (goalToSave cfg s).orElse fun _ => s.pendingRestore } := by
  simp only [saveGoalForRestore, cancelPendingRestore_eq, goalToSave]
  cases cfg.restoreGoal <;> cases s.navGoalActive <;> cases s.lastGoal <;> rfl

/-- An unlock arms the timer where a goal is saved. -/
theorem scheduleGoalRestore_eq {steady : ℚ} (h : s.pendingRestore = some goal) :
    scheduleGoalRestore cfg s steady =
      { s with restoreTimer := some (.armed (steady + cfg.restoreDelay)) } := by
  simp only [scheduleGoalRestore, cancelPendingRestore_eq, h]
  rfl

/-- Scheduling changes the timer only. -/
theorem scheduleGoalRestore_fields {steady : ℚ} :
    (scheduleGoalRestore cfg s steady).pendingRestore = s.pendingRestore ∧
      (scheduleGoalRestore cfg s steady).trace = s.trace := by
  simp only [scheduleGoalRestore, cancelPendingRestore_eq]
  split <;> exact ⟨rfl, rfl⟩

/-- A goal that arrives drops the saved one under lock, and republishes
nothing. -/
theorem onGoalPose_fields {msg : PoseStamped Pose} :
    (onGoalPose s msg).pendingRestore = (if s.locked then none else s.pendingRestore) ∧
      (onGoalPose s msg).locked = s.locked ∧ (onGoalPose s msg).restoreTimer = s.restoreTimer ∧
      (onGoalPose s msg).republished = s.republished := by
  simp only [onGoalPose, Server.republished]
  cases s.locked <;> cases s.pendingRestore <;> simp [Obs.republished?]

/-- **What an event republishes.** -/
theorem republished_step : (step cfg s e).republished = s.republished ++ republishes s e := by
  cases e with
  | lock =>
    simp [step, srvLock, saveGoalForRestore_eq, Server.publish, Server.republished, republishes,
      Obs.republished?]
  | unlock steady =>
    simp only [step, srvUnlock, Server.republished, scheduleGoalRestore_fields.2]
    simp [Server.publish, republishes, Obs.republished?]
  | goalPose msg => simpa [step, republishes] using onGoalPose_fields.2.2.2
  | navStatus statusList => simp [step, onNavStatus, Server.republished, republishes]
  | lockTimer =>
    simp only [step, onLockTimer]
    split <;> simp [Server.publish, Server.republished, republishes, Obs.republished?]
  | restoreTimer steady now =>
    simp only [step, republishes, onRestoreTimer, Server.republished]
    cases restoreDue s steady <;> cases s.pendingRestore <;> cases s.locked <;>
      simp [Server.publish, Obs.republished?]

theorem newlyRepublished_step : newlyRepublished s (step cfg s e) = republishes s e := by
  rw [newlyRepublished, republished_step, List.drop_left]

/-- **What an event makes of the saved goal.** -/
theorem pendingRestore_step : (step cfg s e).pendingRestore =
    match e with
    | .lock => (goalToSave cfg s).orElse fun _ => s.pendingRestore
    | .goalPose _ => if s.locked then none else s.pendingRestore
    | _ => if (republishes s e).isEmpty then s.pendingRestore else none := by
  cases e with
  | lock => simp [step, srvLock, saveGoalForRestore_eq, Server.publish]
  | unlock steady =>
    simp [step, srvUnlock, scheduleGoalRestore_fields.1, Server.publish, republishes]
  | goalPose msg => exact onGoalPose_fields.1
  | navStatus statusList => simp [step, onNavStatus, republishes]
  | lockTimer =>
    simp only [step, onLockTimer, republishes]
    split <;> simp [Server.publish]
  | restoreTimer steady now =>
    simp only [step, republishes, onRestoreTimer]
    obtain ⟨locked, active, last, pending, timer, tr⟩ := s
    by_cases hdue : restoreDue ⟨locked, active, last, pending, timer, tr⟩ steady = true
    · cases pending <;> cases locked <;> simp [hdue, Server.publish]
    · simp [hdue]

/-! ## After the last unlock -/

/-- An unlocked server with its restore timer set for `due`. -/
structure Armed (due : ℚ) (goal : PoseStamped Pose) (s : Server Pose) : Prop where
  unlocked : s.locked = false
  saved : s.pendingRestore = some goal
  timer : s.restoreTimer = some (.armed due)

/-- A server whose restore timer has run. -/
def Rested (s : Server Pose) : Prop := s.restoreTimer = some .cancelled

variable (cfg) {l : Loop Pose} {a : Arrival Pose} {rest : List (Arrival Pose)}

/-- Nothing undisturbing sets a timer that has run. -/
theorem Rested.step (h : Rested l.server) (ha : a.Undisturbing) :
    Rested (loopStep cfg l a).server ∧
      (loopStep cfg l a).server.republished = l.server.republished := by
  have hdue : ∀ steady, restoreDue l.server steady = false := by
    intro steady
    rw [restoreDue, h]
  cases a with
  | event e =>
    cases e with
    | lock => exact ha.elim
    | unlock steady => exact ha.elim
    | goalPose msg => exact ha.elim
    | navStatus statusList => exact ⟨h, rfl⟩
    | lockTimer =>
      have hnone : (EmergencyStop.step cfg l.server .lockTimer).republished =
          l.server.republished := by simp [republished_step, republishes]
      refine ⟨?_, hnone⟩
      simp only [loopStep, EmergencyStop.step, onLockTimer]
      split <;> exact h
    | restoreTimer steady now =>
      simp only [loopStep, EmergencyStop.step, hdue]
      exact ⟨h, rfl⟩
  | echo i =>
    simp only [loopStep]
    split
    · exact ⟨h, rfl⟩
    · exact ⟨onGoalPose_fields.2.2.1.trans h, onGoalPose_fields.2.2.2⟩

/-- And so nothing more is republished. -/
theorem Rested.run (h : Rested l.server) (hrest : ∀ a ∈ rest, a.Undisturbing) :
    (Run.run (loopStep cfg) l rest).server.republished = l.server.republished := by
  induction rest generalizing l with
  | nil => rfl
  | cons a rest ih =>
    obtain ⟨hrested, hsame⟩ := h.step cfg (hrest a List.mem_cons_self)
    exact (ih hrested fun b hb => hrest b (List.mem_cons_of_mem _ hb)).trans hsame

/-- Before it is due, an undisturbed timer stays set. -/
theorem Armed.wait (h : Armed due goal l.server) (ha : a.Undisturbing) (hdue : ¬ a.Expires due) :
    Armed due goal (loopStep cfg l a).server ∧
      (loopStep cfg l a).server.republished = l.server.republished := by
  cases a with
  | event e =>
    cases e with
    | lock => exact ha.elim
    | unlock steady => exact ha.elim
    | goalPose msg => exact ha.elim
    | navStatus statusList => exact ⟨⟨h.unlocked, h.saved, h.timer⟩, rfl⟩
    | lockTimer =>
      simp only [loopStep, EmergencyStop.step, onLockTimer, h.unlocked]
      exact ⟨h, rfl⟩
    | restoreTimer steady now =>
      have hnot : restoreDue l.server steady = false := by
        rw [restoreDue, h.timer]
        exact decide_eq_false hdue
      simp only [loopStep, EmergencyStop.step, hnot]
      exact ⟨h, rfl⟩
  | echo i =>
    simp only [loopStep]
    split
    · exact ⟨h, rfl⟩
    · obtain ⟨hpend, hlocked, htimer, hrep⟩ := onGoalPose_fields (s := l.server)
      refine ⟨⟨hlocked.trans h.unlocked, ?_, htimer.trans h.timer⟩, hrep⟩
      rw [hpend, h.unlocked]
      exact h.saved

/-- Once it is due, it republishes the saved goal and has run. -/
theorem Armed.expire (h : Armed due goal l.server) (hdue : a.Expires due) :
    ∃ now, Rested (loopStep cfg l a).server ∧
      (loopStep cfg l a).server.republished =
        l.server.republished ++ [{ goal with stamp := now }] := by
  match a, hdue with
  | .event (.restoreTimer steady now), hdue =>
    have hyes : restoreDue l.server steady = true := by
      rw [restoreDue, h.timer]
      exact decide_eq_true hdue
    refine ⟨now, ?_, ?_⟩
    · simp only [loopStep, EmergencyStop.step, hyes, onRestoreTimer, h.saved, h.unlocked]
      rfl
    · rw [show (loopStep cfg l (.event (.restoreTimer steady now))).server =
        step cfg l.server (.restoreTimer steady now) from rfl, republished_step]
      simp [republishes, hyes, h.saved, h.unlocked]

/-- **An undisturbed restore delay republishes the saved goal exactly
once.** -/
theorem Armed.run (h : Armed due goal l.server) (hrest : ∀ a ∈ rest, a.Undisturbing)
    (hdue : ∃ a ∈ rest, a.Expires due) :
    ∃ now, (Run.run (loopStep cfg) l rest).server.republished =
      l.server.republished ++ [{ goal with stamp := now }] := by
  induction rest generalizing l with
  | nil => simp at hdue
  | cons a rest ih =>
    have hrest' : ∀ b ∈ rest, b.Undisturbing := fun b hb => hrest b (List.mem_cons_of_mem _ hb)
    by_cases ha : a.Expires due
    · obtain ⟨now, hrested, hrep⟩ := h.expire cfg ha
      exact ⟨now, (hrested.run cfg hrest').trans hrep⟩
    · obtain ⟨harmed, hsame⟩ := h.wait cfg (hrest a List.mem_cons_self) ha
      -- the expiry is still to come
      have hlater : ∃ b ∈ rest, b.Expires due := by
        obtain ⟨b, hb, hexp⟩ := hdue
        rcases List.mem_cons.1 hb with rfl | hb
        · exact absurd hexp ha
        · exact ⟨b, hb, hexp⟩
      obtain ⟨now, hrep⟩ := ih harmed hrest' hlater
      exact ⟨now, by rw [Run.run_cons, hrep, hsame]⟩

/-- **What is still there is restored once.** -/
theorem GoalKept.restoresOnce (h : GoalKept l) : RestoresOnce cfg l := by
  intro goal howed steady rest hrest hdue
  have hsaved := h goal howed
  have hserver : (loopStep cfg l (.event (.unlock steady))).server =
      { ({ l.server with locked := false }.publish (.emergencyLock false)) with
        restoreTimer := some (.armed (steady + cfg.restoreDelay)) } :=
    scheduleGoalRestore_eq hsaved
  have harmed : Armed (steady + cfg.restoreDelay) goal
      (loopStep cfg l (.event (.unlock steady))).server := by
    rw [hserver]
    exact ⟨rfl, hsaved, rfl⟩
  obtain ⟨now, hrep⟩ := harmed.run cfg hrest hdue
  refine ⟨now, ?_⟩
  rw [Run.run_cons, hrep]
  congr 1
  rw [hserver]
  simp [Server.republished, Server.publish, Obs.republished?]

/-! ## Runs -/

variable {cfg}

/-- An arrival keeps what is owed, where no echo finds it under lock. -/
theorem goalKept_step (h : GoalKept l) (ha : EchoSpares l a) : GoalKept (loopStep cfg l a) := by
  intro goal howed
  cases a with
  | event e =>
    simp only [loopStep, owedAfter, newlyRepublished_step] at howed ⊢
    rw [pendingRestore_step]
    cases e with
    | lock =>
      cases hsave : goalToSave cfg l.server with
      | some saved => simpa [hsave] using howed
      | none => simpa [hsave] using h goal (by simpa [hsave] using howed)
    | goalPose msg => cases howed
    | unlock steady => exact h goal howed
    | navStatus statusList => exact h goal howed
    | lockTimer => exact h goal howed
    | restoreTimer steady now =>
      simp only at howed ⊢
      split at howed
      · rename_i hnone
        rw [if_pos hnone]
        exact h goal howed
      · cases howed
  | echo i =>
    simp only [loopStep] at howed ⊢
    split at howed
    · exact h goal howed
    · rename_i msg hmsg
      rw [onGoalPose_fields.1]
      cases hlocked : l.server.locked with
      | false => exact h goal howed
      | true =>
        have hnone : l.owed = none := ha (by rw [hmsg]; rfl) hlocked
        rw [show l.owed = some goal from howed] at hnone
        cases hnone

/-- An echo that finds an owed goal under lock drops it. -/
theorem echoSpares_of_goalKept (h : GoalKept (loopStep cfg l a)) : EchoSpares l a := by
  cases a with
  | event e => trivial
  | echo i =>
    intro hsome hlocked
    obtain ⟨msg, hmsg⟩ := Option.isSome_iff_exists.1 hsome
    cases howed : l.owed with
    | none => rfl
    | some goal =>
      have hkept := h goal (by simpa only [loopStep, hmsg] using howed)
      simp only [loopStep, hmsg, onGoalPose_fields.1, hlocked] at hkept
      cases hkept

/-- **A saved goal is kept, and restored once, in exactly the runs in which
no echo finds it under lock.** -/
theorem goal_kept_iff (cfg : Config) (arrivals : List (Arrival Pose)) :
    Run.Throughout (loopStep cfg) (fun l => GoalKept l ∧ RestoresOnce cfg l) (Loop.init Pose)
      arrivals ↔ Run.Along (loopStep cfg) EchoSpares (Loop.init Pose) arrivals :=
  Run.throughout_iff_along (I := GoalKept) (R := fun _ => True)
    (fun _ _ h _ ha => goalKept_step h ha) (fun _ h => ⟨h, h.restoresOnce _⟩)
    (fun _ _ _ _ h => echoSpares_of_goalKept h.1) (fun _ h => by cases h) fun _ _ => trivial

/-- A goal is restored, navigation takes it up, and the vehicle is locked
again before the server has heard its own message. -/
def lateEcho : List (Arrival ℕ) :=
  [.event (.goalPose ⟨0, "map", 1⟩), .event (.navStatus [2]), .event .lock, .event (.unlock 5),
    .event (.restoreTimer 7 7), .event (.navStatus [2]), .event .lock, .echo 0]

/-- **The echo drops the goal that the second lock has saved.** -/
theorem echo_drops_goal :
    ¬ (GoalKept (Run.run (loopStep {}) (Loop.init ℕ) lateEcho) ∧
      RestoresOnce {} (Run.run (loopStep {}) (Loop.init ℕ) lateEcho)) := by
  rintro ⟨h, -⟩
  have hrun : (Run.run (loopStep {}) (Loop.init ℕ) lateEcho).owed = some ⟨0, "map", 1⟩ ∧
      (Run.run (loopStep {}) (Loop.init ℕ) lateEcho).server.pendingRestore = none := by
    decide +kernel
  have hkept := h _ hrun.1
  rw [hrun.2] at hkept
  cases hkept

end EmergencyStop

end VehicleStack
