import Mathlib.Algebra.Order.Ring.Rat

/-!
# The emergency-stop server

`emergency_stop_server.cpp`: the lock, and the goal that is saved when the
vehicle locks and published again some time after it unlocks. Each
function of the class is a function of the server's fields; what the node
publishes, and the goals it receives, go into `trace`, oldest first. What a
pose is does not matter to the server, so it is a type parameter.
-/

namespace VehicleStack

namespace EmergencyStop

/-- `geometry_msgs::msg::PoseStamped`. -/
structure PoseStamped (Pose : Type) where
  stamp : ℚ
  frame_id : String
  pose : Pose
  deriving DecidableEq, Repr

/-- `std_srvs::srv::Trigger::Response`. -/
structure Response where
  success : Bool
  message : String
  deriving DecidableEq, Repr

def STATUS_ACCEPTED : Int8 := 1
def STATUS_EXECUTING : Int8 := 2

/-- The parameters, with the defaults the node declares. -/
structure Config where
  restoreGoal : Bool := true
  restoreDelay : ℚ := 2

/-- What `restore_timer_` points to. Its callback cancels it and leaves the
pointer. -/
inductive RestoreTimer
  | armed (due : ℚ)
  | cancelled
  deriving DecidableEq, Repr

/-- What the node has received and sent, as far as goals and the lock go. -/
inductive Obs (Pose : Type)
  | goalReceived (msg : PoseStamped Pose)
  | emergencyLock (data : Bool)
  | cancelGoal
  | goalRepublished (goal : PoseStamped Pose)
  deriving DecidableEq, Repr

/-- The fields of `EmergencyStopServer`. -/
structure Server (Pose : Type) where
  locked : Bool
  navGoalActive : Bool
  lastGoal : Option (PoseStamped Pose)
  pendingRestore : Option (PoseStamped Pose)
  restoreTimer : Option RestoreTimer
  trace : List (Obs Pose)
  deriving DecidableEq

/-- The fields as the constructor sets them. -/
def Server.init (Pose : Type) : Server Pose := ⟨false, false, none, none, none, []⟩

section Methods

variable {Pose : Type} (cfg : Config) (s : Server Pose)

def Server.publish (o : Obs Pose) : Server Pose := { s with trace := s.trace ++ [o] }

/-- `onGoalPose`. -/
def onGoalPose (msg : PoseStamped Pose) : Server Pose :=
  let s := { s with lastGoal := some msg, trace := s.trace ++ [.goalReceived msg] }
  -- after an unlock the saved goal stays, whatever the driver sends
  if s.locked && s.pendingRestore.isSome then { s with pendingRestore := none } else s

/-- `onNavStatus`. -/
def onNavStatus (statusList : List Int8) : Server Pose :=
  { s with navGoalActive :=
    statusList.any fun status => status = STATUS_ACCEPTED || status = STATUS_EXECUTING }

/-- `cancelPendingRestore`. -/
def cancelPendingRestore : Server Pose :=
  match s.restoreTimer with
  | none => s
  | some _ => { s with restoreTimer := none }

/-- `saveGoalForRestore`. -/
def saveGoalForRestore : Server Pose :=
  let s := cancelPendingRestore s
  if !cfg.restoreGoal then s
  else if !s.navGoalActive || !s.lastGoal.isSome then s
  else { s with pendingRestore := s.lastGoal }

/-- `scheduleGoalRestore`, at `steady` on the clock of wall timers. -/
def scheduleGoalRestore (steady : ℚ) : Server Pose :=
  if !s.pendingRestore.isSome then s
  else { cancelPendingRestore s with restoreTimer := some (.armed (steady + cfg.restoreDelay)) }

/-- The callback of `srv_lock_`. -/
def srvLock : Response × Server Pose :=
  let s := saveGoalForRestore cfg s
  let s := { s with locked := true }
  (⟨true, "Emergency lock activated"⟩, (s.publish (.emergencyLock true)).publish .cancelGoal)

/-- The callback of `srv_unlock_`. -/
def srvUnlock (steady : ℚ) : Response × Server Pose :=
  let s := { s with locked := false }
  let s := s.publish (.emergencyLock false)
  (⟨true, "Emergency lock deactivated"⟩, scheduleGoalRestore cfg s steady)

/-- The callback of `timer_`. -/
def onLockTimer : Server Pose := if s.locked then s.publish (.emergencyLock true) else s

/-- The callback of `restore_timer_`, with the time the goal is stamped
with. -/
def onRestoreTimer (now : ℚ) : Server Pose :=
  let s := { s with restoreTimer := some .cancelled }
  match s.pendingRestore with
  | none => s
  | some goal =>
    if s.locked then s
    else { s with pendingRestore := none }.publish (.goalRepublished { goal with stamp := now })

end Methods

/-- What the executor can run. -/
inductive Event (Pose : Type)
  | lock
  | unlock (steady : ℚ)
  | goalPose (msg : PoseStamped Pose)
  | navStatus (statusList : List Int8)
  | lockTimer
  | restoreTimer (steady now : ℚ)
  deriving DecidableEq, Repr

variable {Pose : Type}

/-- The restore timer runs its callback once it is due. -/
def restoreDue (s : Server Pose) (steady : ℚ) : Bool :=
  match s.restoreTimer with
  | some (.armed due) => decide (due ≤ steady)
  | _ => false

/-- One event. -/
def step (cfg : Config) (s : Server Pose) : Event Pose → Server Pose
  | .lock => (srvLock cfg s).2
  | .unlock steady => (srvUnlock cfg s steady).2
  | .goalPose msg => onGoalPose s msg
  | .navStatus statusList => onNavStatus s statusList
  | .lockTimer => onLockTimer s
  | .restoreTimer steady now => if restoreDue s steady then onRestoreTimer s now else s

end EmergencyStop

end VehicleStack
