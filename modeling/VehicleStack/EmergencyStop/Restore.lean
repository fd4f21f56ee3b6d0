import VehicleStack.Common.History
import VehicleStack.Common.Run
import VehicleStack.EmergencyStop.Model

/-!
# The emergency-stop server — which goal is restored

The goal republished after an unlock is meant to be the last one the driver
sent. `onGoalPose` drops the saved goal for a newer one only while the
vehicle is locked, so a goal sent between the unlock and the timer is
overridden by the older one (`older_goal_restored`). Where no such goal
comes, or it is the saved one again, the goal republished is the last one
received (`restores_newest`).
-/

namespace VehicleStack

namespace EmergencyStop

open History

variable {Pose : Type} {cfg : Config} {s : Server Pose} {msg goal : PoseStamped Pose}
  {tr : List (Obs Pose)}

/-- The same goal, whenever it was stamped. -/
def PoseStamped.SameGoal (a b : PoseStamped Pose) : Prop :=
  a.frame_id = b.frame_id ∧ a.pose = b.pose

theorem PoseStamped.SameGoal.refl : msg.SameGoal msg := ⟨rfl, rfl⟩

def Obs.IsGoalReceived : Obs Pose → Prop
  | .goalReceived _ => True
  | _ => False

/-- The last goal received is `goal`, up to its stamp. -/
def Newest (goal : PoseStamped Pose) (tr : List (Obs Pose)) : Prop :=
  ∃ msg, msg.SameGoal goal ∧ Last Obs.IsGoalReceived (.goalReceived msg) tr

/-- Whenever a goal was republished, it was the last one received, and no
goal had been received since. -/
def RestoresNewest (s : Server Pose) : Prop :=
  AtEach (fun before o => ∀ goal, o = .goalRepublished goal → Newest goal before) s.trace

/-- A goal that arrives while an unlocked vehicle has one saved is the
saved one. -/
def Supersedes (s : Server Pose) : Event Pose → Prop
  | .goalPose msg => s.locked = false → ∀ goal, s.pendingRestore = some goal → msg.SameGoal goal
  | _ => True

/-- **The run invariant.** `last_goal_` is the last goal received, and a
saved goal is that goal too. -/
structure Inv (s : Server Pose) : Prop where
  restores : RestoresNewest s
  last : ∀ msg, s.lastGoal = some msg → Last Obs.IsGoalReceived (.goalReceived msg) s.trace
  saved : ∀ goal, s.pendingRestore = some goal → Newest goal s.trace

theorem inv_init : Inv (Server.init Pose) where
  restores := atEach_nil
  last _ h := by cases h
  saved _ h := by cases h

/-- What is not a received goal leaves the newest one newest. -/
theorem Newest.snoc {o : Obs Pose} (h : Newest goal tr) (ho : ¬ o.IsGoalReceived) :
    Newest goal (tr ++ [o]) := by
  obtain ⟨msg, hsame, hlast⟩ := h
  exact ⟨msg, hsame, hlast.snoc ho⟩

/-- Publishing anything but a restored goal keeps the invariant. -/
theorem Inv.publish {o : Obs Pose} (h : Inv s) (ho : ¬ o.IsGoalReceived)
    (hr : ∀ goal, o ≠ .goalRepublished goal) : Inv (s.publish o) where
  restores := h.restores.snoc fun goal heq => absurd heq (hr goal)
  last msg hmsg := (h.last msg hmsg).snoc ho
  saved goal hgoal := (h.saved goal hgoal).snoc ho

/-- The invariant is about three fields and the trace. -/
theorem Inv.of_fields {s' : Server Pose} (h : Inv s) (htr : s'.trace = s.trace)
    (hlast : s'.lastGoal = s.lastGoal) (hpend : ∀ goal, s'.pendingRestore = some goal →
      s.pendingRestore = some goal ∨ s.lastGoal = some goal) : Inv s' where
  restores := by
    unfold RestoresNewest
    rw [htr]
    exact h.restores
  last msg hmsg := by
    rw [htr]
    exact h.last msg (hlast ▸ hmsg)
  saved goal hgoal := by
    rw [htr]
    rcases hpend goal hgoal with hg | hg
    · exact h.saved goal hg
    · exact ⟨goal, PoseStamped.SameGoal.refl, h.last goal hg⟩

/-- Cancelling the timer changes the timer. -/
theorem cancelPendingRestore_eq :
    cancelPendingRestore s = { s with restoreTimer := none } := by
  unfold cancelPendingRestore
  split
  · rename_i h
    rw [← h]
  · rfl

/-- Saving keeps the invariant: what it saves is `last_goal_`. -/
theorem Inv.saveGoalForRestore (h : Inv s) : Inv (saveGoalForRestore cfg s) := by
  simp only [EmergencyStop.saveGoalForRestore, cancelPendingRestore_eq]
  split
  · exact h.of_fields rfl rfl fun _ hg => Or.inl hg
  · split
    · exact h.of_fields rfl rfl fun _ hg => Or.inl hg
    · exact h.of_fields rfl rfl fun _ hg => Or.inr hg

/-- And scheduling does not touch a goal. -/
theorem Inv.scheduleGoalRestore {steady : ℚ} (h : Inv s) :
    Inv (scheduleGoalRestore cfg s steady) := by
  simp only [EmergencyStop.scheduleGoalRestore, cancelPendingRestore_eq]
  split
  · exact h
  · exact h.of_fields rfl rfl fun _ hg => Or.inl hg

/-- A goal that arrives becomes the last one. A saved goal is dropped for
it while the vehicle is locked, and is the same goal otherwise. -/
theorem Inv.onGoalPose (h : Inv s) (hs : Supersedes s (.goalPose msg)) :
    Inv (onGoalPose s msg) := by
  have hrest : RestoresNewest { s with trace := s.trace ++ [.goalReceived msg] } :=
    h.restores.snoc fun goal heq => by cases heq
  have hlast : ∀ msg', some msg = some msg' →
      Last Obs.IsGoalReceived (.goalReceived msg') (s.trace ++ [.goalReceived msg]) := by
    rintro _ ⟨⟩
    exact last_snoc_self
  simp only [EmergencyStop.onGoalPose]
  split
  · exact ⟨hrest, hlast, fun goal hg => by cases hg⟩
  · rename_i hkeep
    refine ⟨hrest, hlast, fun goal hg => ?_⟩
    have hunlocked : s.locked = false := by
      simpa [show s.pendingRestore = some goal from hg] using hkeep
    exact ⟨msg, hs hunlocked goal hg, last_snoc_self⟩

/-- The timer republishes the saved goal. -/
theorem Inv.onRestoreTimer {now : ℚ} (h : Inv s) : Inv (onRestoreTimer s now) := by
  simp only [EmergencyStop.onRestoreTimer]
  split
  · exact h.of_fields rfl rfl fun _ hg => Or.inl hg
  · rename_i goal hgoal
    split
    · exact h.of_fields rfl rfl fun _ hg => Or.inl hg
    · have hno : ¬ (Obs.goalRepublished { goal with stamp := now }).IsGoalReceived := id
      refine ⟨h.restores.snoc fun g hg => ?_, fun msg hm => (h.last msg hm).snoc hno,
        fun g hg => by cases hg⟩
      obtain rfl : { goal with stamp := now } = g := by simpa using hg
      obtain ⟨msg, hsame, hlast⟩ := h.saved goal hgoal
      exact ⟨msg, hsame, hlast⟩

/-- **One event keeps the invariant.** -/
theorem inv_step (s : Server Pose) (e : Event Pose) (h : Inv s) (hs : Supersedes s e) :
    Inv (step cfg s e) := by
  cases e with
  | lock =>
    refine Inv.publish (Inv.publish ?_ id fun _ h => by cases h) id fun _ h => by cases h
    exact h.saveGoalForRestore.of_fields rfl rfl fun _ hg => Or.inl hg
  | unlock steady =>
    refine Inv.scheduleGoalRestore (Inv.publish ?_ id fun _ h => by cases h)
    exact h.of_fields rfl rfl fun _ hg => Or.inl hg
  | goalPose msg => exact h.onGoalPose hs
  | navStatus statusList => exact h.of_fields rfl rfl fun _ hg => Or.inl hg
  | lockTimer =>
    simp only [step, onLockTimer]
    split
    · exact h.publish id fun _ h => by cases h
    · exact h
  | restoreTimer steady now =>
    simp only [step]
    split
    · exact h.onRestoreTimer
    · exact h

/-- **The goal restored is the newest one**, in every run in which each
goal that arrives while an unlocked vehicle has one saved is that goal. -/
theorem restores_newest (cfg : Config) (es : List (Event Pose))
    (h : Run.Along (step cfg) Supersedes (Server.init Pose) es) :
    Run.Throughout (step cfg) RestoresNewest (Server.init Pose) es :=
  Run.throughout_of_along (I := Inv) inv_step (fun _ hinv => hinv.restores) inv_init h

/-- The vehicle is driving to one goal, locks and unlocks, and goes there
again when the timer is due. The goal comes back to the node that sent it. -/
theorem restores_newest_once :
    Run.Throughout (step {}) RestoresNewest (Server.init ℕ)
      [.goalPose ⟨0, "map", 7⟩, .navStatus [2], .lock, .lockTimer, .unlock 5,
        .goalPose ⟨0, "map", 7⟩, .restoreTimer 7 9] := by
  refine restores_newest {} _ ⟨?_, trivial, trivial, trivial, trivial, ?_, trivial, trivial⟩
  · intro _ goal hgoal
    cases hgoal
  · intro _ goal hgoal
    obtain rfl : (⟨0, "map", 7⟩ : PoseStamped ℕ) = goal := Option.some.inj hgoal
    exact PoseStamped.SameGoal.refl

/-- A drive to one goal is interrupted by the lock; after the unlock, and
before the timer, the driver sends another. -/
def overriddenGoal : List (Event ℕ) :=
  [.goalPose ⟨0, "map", 1⟩, .navStatus [2], .lock, .unlock 5, .goalPose ⟨6, "map", 2⟩,
    .restoreTimer 7 7]

/-- **The older goal is restored over the newer one.** -/
theorem older_goal_restored :
    ¬ RestoresNewest (Run.run (step {}) (Server.init ℕ) overriddenGoal) := by
  intro h
  have htr : (Run.run (step {}) (Server.init ℕ) overriddenGoal).trace =
      [.goalReceived ⟨0, "map", 1⟩, .emergencyLock true, .cancelGoal, .emergencyLock false] ++
        [.goalReceived ⟨6, "map", 2⟩] ++ [.goalRepublished ⟨7, "map", 1⟩] := by decide +kernel
  unfold RestoresNewest at h
  rw [htr, atEach_snoc] at h
  obtain ⟨msg, hsame, hlast⟩ := h.2 _ rfl
  rcases last_snoc.1 hlast with hmsg | ⟨-, hno⟩
  · obtain rfl := Obs.goalReceived.inj hmsg
    exact absurd hsame.2 (by decide)
  · exact hno trivial

end EmergencyStop

end VehicleStack
