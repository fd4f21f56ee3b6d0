import VehicleStack.EmergencyStop.Echo

/-!
# The emergency-stop server — when a goal is restored

The restore timer is armed by an unlock that finds a goal, and disarmed by
a lock; an unlock that comes again arms it anew. The locks, the saves, those
unlocks and the republications of a run are written down as it goes, and
`restores_well` says of every run that each republication in that record is
late enough, unlocked, and the first of its save.
-/

namespace VehicleStack

namespace EmergencyStop

open History

variable {Pose : Type}

/-- What a run has done about restoring. A republication has the lock flag
its callback finds. -/
inductive Mark (Pose : Type)
  | lock
  | save (goal : PoseStamped Pose)
  | unlockFound (steady : ℚ)
  | republication (steady : ℚ) (locked : Bool) (goal : PoseStamped Pose)
  deriving DecidableEq, Repr

/-- The marks that arm the timer or disarm it. -/
def Mark.Timing : Mark Pose → Prop
  | .lock | .unlockFound _ => True
  | _ => False

/-- The marks that save a goal or use one up. -/
def Mark.Saving : Mark Pose → Prop
  | .save _ | .republication .. => True
  | _ => False

def Mark.republished? : Mark Pose → Option (PoseStamped Pose)
  | .republication _ _ goal => some goal
  | _ => none

/-- What an event adds. -/
def marks (cfg : Config) (s : Server Pose) : Event Pose → List (Mark Pose)
  | .lock => .lock :: ((goalToSave cfg s).map Mark.save).toList
  | .unlock steady => if s.pendingRestore.isSome then [.unlockFound steady] else []
  | .restoreTimer steady now =>
    (newlyRepublished s (step cfg s (.restoreTimer steady now))).map
      (.republication steady s.locked)
  | _ => []

/-- The server and its record. -/
structure Recorded (Pose : Type) where
  server : Server Pose
  log : List (Mark Pose)

def Recorded.init (Pose : Type) : Recorded Pose := ⟨.init Pose, []⟩

def record (cfg : Config) (w : Recorded Pose) (e : Event Pose) : Recorded Pose :=
  ⟨step cfg w.server e, w.log ++ marks cfg w.server e⟩

/-- A republication finds the server unlocked, comes at least the delay
after the latest unlock that found a goal, which no lock has followed, and
is the first since its goal was saved. -/
def RightAt (cfg : Config) (before : List (Mark Pose)) : Mark Pose → Prop
  | .republication steady locked goal => locked = false ∧
    (∃ t, Last Mark.Timing (.unlockFound t) before ∧ t + cfg.restoreDelay ≤ steady) ∧
    ∃ saved, Last Mark.Saving (.save saved) before ∧ goal.SameGoal saved
  | _ => True

/-- **Restoring, at any time of a run.** The record has every republication,
each is right, and an armed timer has an unlocked server and a goal. -/
structure RestoresWell (cfg : Config) (w : Recorded Pose) : Prop where
  complete : w.log.filterMap Mark.republished? = w.server.republished
  right : AtEach (RightAt cfg) w.log
  armed : ∀ due, w.server.restoreTimer = some (.armed due) →
    w.server.locked = false ∧ w.server.pendingRestore.isSome = true

/-- The run invariant: why the timer is armed, and where the saved goal
comes from. -/
structure Kept (cfg : Config) (w : Recorded Pose) : Prop extends RestoresWell cfg w where
  since : ∀ due, w.server.restoreTimer = some (.armed due) →
    ∃ t, due = t + cfg.restoreDelay ∧ Last Mark.Timing (.unlockFound t) w.log
  saved : ∀ goal, w.server.pendingRestore = some goal → Last Mark.Saving (.save goal) w.log

section Steps

variable {cfg : Config} {w : Recorded Pose} {e : Event Pose} {s : Server Pose}

theorem kept_init : Kept cfg (Recorded.init Pose) where
  complete := rfl
  right := atEach_nil
  armed _ h := by cases h
  since _ h := by cases h
  saved _ h := by cases h

/-- The record has what is republished. -/
theorem filterMap_marks : (marks cfg s e).filterMap Mark.republished? = republishes s e := by
  cases e with
  | lock =>
    simp only [marks, republishes]
    cases goalToSave cfg s <;> rfl
  | unlock steady =>
    simp only [marks, republishes]
    split <;> rfl
  | restoreTimer steady now =>
    rw [marks, newlyRepublished_step, List.filterMap_map]
    exact List.filterMap_some
  | goalPose | navStatus | lockTimer => rfl

theorem complete_record (h : w.log.filterMap Mark.republished? = w.server.republished) :
    (record cfg w e).log.filterMap Mark.republished? = (record cfg w e).server.republished := by
  rw [record, List.filterMap_append, h, filterMap_marks]
  exact republished_step.symm

/-- An event that leaves the timer, the flag and the record alone, and saves
nothing. -/
theorem Kept.quiet (h : Kept cfg w) (hmarks : marks cfg w.server e = [])
    (htimer : (step cfg w.server e).restoreTimer = w.server.restoreTimer)
    (hlocked : (step cfg w.server e).locked = w.server.locked)
    (hpending : ∀ goal, (step cfg w.server e).pendingRestore = some goal →
      w.server.pendingRestore = some goal)
    (harmed : ∀ due, w.server.restoreTimer = some (.armed due) →
      (step cfg w.server e).pendingRestore = w.server.pendingRestore) :
    Kept cfg (record cfg w e) := by
  have hlog : (record cfg w e).log = w.log := by rw [record, hmarks, List.append_nil]
  refine ⟨⟨complete_record h.complete, hlog ▸ h.right, fun due hdue => ?_⟩, fun due hdue => ?_,
    fun goal hgoal => ?_⟩
  · have hdue' : w.server.restoreTimer = some (.armed due) := htimer ▸ hdue
    obtain ⟨hunlocked, hsome⟩ := h.armed due hdue'
    exact ⟨hlocked.trans hunlocked, by rw [show (record cfg w e).server.pendingRestore = _ from
      harmed due hdue', hsome]⟩
  · rw [hlog]
    exact h.since due (htimer ▸ hdue)
  · rw [hlog]
    exact h.saved goal (hpending goal hgoal)

/-- An event that leaves the timer not armed. -/
theorem Kept.disarmed (h : Kept cfg w)
    (hnot : ∀ due, (record cfg w e).server.restoreTimer ≠ some (.armed due))
    (hright : AtEach (RightAt cfg) (record cfg w e).log)
    (hsaved : ∀ goal, (record cfg w e).server.pendingRestore = some goal →
      Last Mark.Saving (.save goal) (record cfg w e).log) : Kept cfg (record cfg w e) :=
  ⟨⟨complete_record h.complete, hright, fun due hdue => absurd hdue (hnot due)⟩,
    fun due hdue => absurd hdue (hnot due), hsaved⟩

/-- **A lock** disarms the timer. -/
theorem Kept.lock (h : Kept cfg w) : Kept cfg (record cfg w .lock) := by
  have hserver : (record cfg w .lock).server.restoreTimer = none ∧
      (record cfg w .lock).server.pendingRestore =
        (goalToSave cfg w.server).orElse fun _ => w.server.pendingRestore := by
    simp [EmergencyStop.record, step, srvLock, saveGoalForRestore_eq, Server.publish]
  refine h.disarmed (fun due hdue => ?_) ?_ fun goal hgoal => ?_
  · rw [hserver.1] at hdue
    cases hdue
  · refine h.right.append fun o ho before => ?_
    rcases List.mem_cons.1 ho with rfl | ho
    · trivial
    · rw [Option.mem_toList] at ho
      obtain ⟨saved, -, rfl⟩ := Option.map_eq_some_iff.1 ho
      trivial
  · rw [hserver.2] at hgoal
    rw [EmergencyStop.record, marks]
    cases hsave : goalToSave cfg w.server with
    | some saved =>
      obtain rfl : saved = goal := by simpa [hsave] using hgoal
      rw [show w.log ++ Mark.lock :: ((some saved).map Mark.save).toList =
        (w.log ++ [.lock]) ++ [.save saved] by simp]
      exact last_snoc_self
    | none =>
      -- the goal that was saved before stays
      have hold : w.server.pendingRestore = some goal := by simpa [hsave] using hgoal
      exact (h.saved goal hold).snoc id

/-- **An unlock** arms it where a goal is saved. -/
theorem Kept.unlock (h : Kept cfg w) {steady : ℚ} : Kept cfg (record cfg w (.unlock steady)) := by
  cases hpending : w.server.pendingRestore with
  | none =>
    have hserver : (record cfg w (.unlock steady)).server.restoreTimer = w.server.restoreTimer ∧
        (record cfg w (.unlock steady)).server.pendingRestore = none := by
      simp [EmergencyStop.record, step, srvUnlock, scheduleGoalRestore, Server.publish, hpending]
    have hlog : (record cfg w (.unlock steady)).log = w.log := by
      simp [EmergencyStop.record, marks, hpending]
    refine h.disarmed (fun due hdue => ?_) (hlog ▸ h.right) fun goal hgoal => ?_
    · have hsome := (h.armed due (hserver.1 ▸ hdue)).2
      rw [hpending] at hsome
      cases hsome
    · rw [hserver.2] at hgoal
      cases hgoal
  | some goal =>
    have hserver : (record cfg w (.unlock steady)).server =
        { ({ w.server with locked := false }.publish (.emergencyLock false)) with
          restoreTimer := some (.armed (steady + cfg.restoreDelay)) } :=
      scheduleGoalRestore_eq hpending
    have hlog : (record cfg w (.unlock steady)).log = w.log ++ [.unlockFound steady] := by
      simp [EmergencyStop.record, marks, hpending]
    refine ⟨⟨complete_record h.complete, ?_, fun due _ => ?_⟩, fun due hdue => ?_,
      fun goal' hgoal => ?_⟩
    · rw [hlog]
      exact h.right.snoc trivial
    · rw [hserver]
      exact ⟨rfl, Option.isSome_iff_exists.2 ⟨goal, hpending⟩⟩
    · rw [hserver] at hdue
      obtain rfl : steady + cfg.restoreDelay = due := by simpa using hdue
      rw [hlog]
      exact ⟨steady, rfl, last_snoc_self⟩
    · rw [hserver] at hgoal
      rw [hlog]
      exact (h.saved goal' hgoal).snoc id

/-- **The timer** uses the goal up. -/
theorem Kept.restoreTimer (h : Kept cfg w) {steady now : ℚ} :
    Kept cfg (record cfg w (.restoreTimer steady now)) := by
  cases hdue : restoreDue w.server steady with
  | false =>
    have hserver : step cfg w.server (.restoreTimer steady now) = w.server := by
      simp [step, hdue]
    refine h.quiet ?_ ?_ ?_ (fun goal hg => ?_) fun _ _ => ?_
    · rw [marks, newlyRepublished_step, republishes, hdue]
      rfl
    · rw [hserver]
    · rw [hserver]
    · rwa [hserver] at hg
    · rw [hserver]
  | true =>
    obtain ⟨due, htimer, hle⟩ : ∃ due, w.server.restoreTimer = some (.armed due) ∧
        due ≤ steady := by
      rw [restoreDue] at hdue
      split at hdue
      · exact ⟨_, ‹_›, of_decide_eq_true hdue⟩
      · cases hdue
    obtain ⟨hunlocked, hsome⟩ := h.armed due htimer
    obtain ⟨goal, hgoal⟩ := Option.isSome_iff_exists.1 hsome
    obtain ⟨t, rfl, hlast⟩ := h.since due htimer
    have hserver : (record cfg w (.restoreTimer steady now)).server.restoreTimer =
        some .cancelled ∧
        (record cfg w (.restoreTimer steady now)).server.pendingRestore = none := by
      simp [EmergencyStop.record, step, hdue, onRestoreTimer, hgoal, hunlocked, Server.publish]
    have hlog : (record cfg w (.restoreTimer steady now)).log =
        w.log ++ [.republication steady false { goal with stamp := now }] := by
      simp [EmergencyStop.record, marks, newlyRepublished_step, republishes, hdue, hunlocked, hgoal]
    refine h.disarmed (fun due hdue => ?_) ?_ fun goal' hgoal' => ?_
    · rw [hserver.1] at hdue
      cases hdue
    · rw [hlog]
      exact h.right.snoc ⟨rfl, ⟨t, hlast, hle⟩, goal, h.saved goal hgoal, rfl, rfl⟩
    · rw [hserver.2] at hgoal'
      cases hgoal'

/-- **One event.** -/
theorem Kept.record (h : Kept cfg w) : Kept cfg (EmergencyStop.record cfg w e) := by
  cases e with
  | lock => exact h.lock
  | unlock steady => exact h.unlock
  | restoreTimer steady now => exact h.restoreTimer
  | navStatus statusList => exact h.quiet rfl rfl rfl (fun _ hg => hg) fun _ _ => rfl
  | lockTimer =>
    have hsame : ∃ tr, step cfg w.server .lockTimer = { w.server with trace := tr } := by
      simp only [step, onLockTimer]
      split <;> exact ⟨_, rfl⟩
    obtain ⟨tr, htr⟩ := hsame
    refine h.quiet rfl ?_ ?_ (fun goal hg => ?_) fun _ _ => ?_
    · rw [htr]
    · rw [htr]
    · rwa [htr] at hg
    · rw [htr]
  | goalPose msg =>
    obtain ⟨hpending, hlocked, htimer, -⟩ := @onGoalPose_fields _ w.server msg
    refine h.quiet rfl htimer hlocked (fun goal hg => ?_) fun due hdue => ?_
    · have hg' : (onGoalPose w.server msg).pendingRestore = some goal := hg
      rw [hpending] at hg'
      split at hg'
      · cases hg'
      · exact hg'
    · show (onGoalPose w.server msg).pendingRestore = _
      rw [hpending, (h.armed due hdue).1]
      rfl

/-- **A goal is never restored early or into a lock.** In every run, each
republication finds the server unlocked, is at least the restore delay
later than the latest unlock that found a goal, with no lock in between,
and is the only one of its save; and the timer is armed only while the
server is unlocked and a goal is pending. -/
theorem restores_well (cfg : Config) (es : List (Event Pose)) :
    Run.Throughout (EmergencyStop.record cfg) (RestoresWell cfg) (Recorded.init Pose) es :=
  Run.throughout_of_along (I := Kept cfg) (P := fun _ _ => True) (fun _ _ h _ => h.record)
    (fun _ h => h.toRestoresWell) kept_init (Run.along_of_forall fun _ _ => trivial)

end Steps

end EmergencyStop

end VehicleStack
