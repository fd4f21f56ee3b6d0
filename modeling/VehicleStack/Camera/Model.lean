import VehicleStack.Common.Callback
import Mathlib.Data.Nat.Notation

/-!
# The on-demand camera — its data and its callbacks

`camera_compressor.py`. A trigger starts the camera's process, subscribes to
its images and sets a timeout; the first image, or the timeout, takes all
three down again. What the operating system and the middleware answer comes
with the event. `World.log` records what has been done, oldest first; no
callback reads it.
-/

namespace VehicleStack

namespace Camera

open Callback

/-- What the three calls in `trigger_compression_sub`'s `try` come to: the
first that raises, if one does. -/
inductive Spawn
  | failed
  | noSubscription (pid : ℕ)
  | noTimer (pid : ℕ)
  | started (pid : ℕ)
  deriving DecidableEq, Repr

/-- What the `try` in `_cleanup` comes to: the process goes when told to, or
telling it fails, or it does not go in time and is killed, or that fails. -/
inductive Stop
  | exits
  | refused
  | killed
  | killRefused
  deriving DecidableEq, Repr

/-- What the `try` in `image_callback` comes to. -/
inductive Compression
  | published
  | failed
  | raised
  deriving DecidableEq, Repr

/-- What goes in the log: a process has been started, an image published, a
process told to stop and forgotten. -/
inductive Act
  | spawned (pid : ℕ)
  | published
  | released (pid : ℕ) (how : Stop)
  deriving DecidableEq, Repr

/-- Whether the node spins, has left `rclpy.spin` on an exception, or has
ended. -/
inductive Status
  | up
  | raised
  | down
  deriving DecidableEq, Repr

structure World where
  tempSub : Bool
  timeoutTimer : Bool
  isCapturing : Bool
  cameraProcess : Option ℕ
  status : Status
  log : List Act
  deriving DecidableEq, Repr

/-- The fields as `__init__` sets them. -/
def World.start : World := ⟨false, false, false, none, .up, []⟩

abbrev Handler := EStateM Raised World

/-- Enters an act in the log. -/
def record (a : Act) : Handler Unit := modify fun w => { w with log := w.log ++ [a] }

/-- The part of `_cleanup` under `if self.camera_process`. The field is
cleared whatever is raised; only the second signal's failure gets out. -/
def stopProcess (stop : Stop) : Handler Unit := do
  let w ← get
  match w.cameraProcess with
  | none => pure ()
  | some pid => do
    record (.released pid stop)
    modify fun w => { w with cameraProcess := none }
    if stop = .killRefused then throw .osError else pure ()

/-- `_cleanup`. -/
def cleanup (stop : Stop) : Handler Unit := do
  modify fun w => { w with tempSub := false }
  stopProcess stop
  modify fun w => { w with isCapturing := false }

/-- Both callbacks that end a capture cancel its timer first. -/
def cancelTimeout : Handler Unit := modify fun w => { w with timeoutTimer := false }

/-- `image_callback`. -/
def imageCallback (how : Compression) (stop : Stop) : Handler Unit := do
  cancelTimeout
  if how = .published then record .published else pure ()
  cleanup stop

/-- `self.camera_process = subprocess.Popen(…)`. -/
def setProcess (pid : ℕ) : Handler Unit := do
  record (.spawned pid)
  modify fun w => { w with cameraProcess := some pid }

/-- `trigger_compression_sub`. -/
def triggerCompressionSub (spawn : Spawn) (stop : Stop) : Handler Unit := do
  let w ← get
  if w.isCapturing then pure ()
  else
    modify fun w => { w with isCapturing := true }
    match spawn with
    | .failed => cleanup stop
    | .noSubscription pid => do
      setProcess pid
      cleanup stop
    | .noTimer pid => do
      setProcess pid
      modify fun w => { w with tempSub := true }
      cleanup stop
    | .started pid => do
      setProcess pid
      modify fun w => { w with tempSub := true, timeoutTimer := true }

/-- `_timeout_callback`. -/
def timeoutCallback (stop : Stop) : Handler Unit := do
  cancelTimeout
  cleanup stop

/-! ## Runs -/

/-- What can happen: the three callbacks, and the end of `main`, which
destroys the node however it has come to it. -/
inductive Event
  | trigger (spawn : Spawn) (stop : Stop)
  | image (how : Compression) (stop : Stop)
  | timeout (stop : Stop)
  | shutdown (stop : Stop)
  deriving DecidableEq, Repr

/-- Runs a callback. -/
def World.exec (w : World) (m : Handler Unit) : World :=
  match m w with
  | .ok _ w' => w'
  | .error _ w' => { w' with status := .raised }

/-- An image needs the subscription, and the timeout its timer. -/
def enabled (w : World) : Event → Bool
  | .image _ _ => w.tempSub
  | .timeout _ => w.timeoutTimer
  | _ => true

/-- The callback of an event; the end's is `destroy_node`. -/
def callback : Event → Handler Unit
  | .trigger spawn stop => triggerCompressionSub spawn stop
  | .image how stop => imageCallback how stop
  | .timeout stop => timeoutCallback stop
  | .shutdown stop => cleanup stop

/-- One event. -/
def step (w : World) (e : Event) : World :=
  match e with
  | .shutdown _ =>
    if w.status = .down then w else { w.exec (callback e) with status := .down }
  | _ => if w.status = .up ∧ enabled w e = true then w.exec (callback e) else w

end Camera

end VehicleStack
