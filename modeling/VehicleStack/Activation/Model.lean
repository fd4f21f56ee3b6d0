import VehicleStack.Common.Callback
import VehicleStack.Common.Dict
import Mathlib.Data.List.Nodup

/-!
# Bringing the navigation up — the script

`activate.py` asks each lifecycle node for its state and requests the
transition that is next, three times at most, and then looks at what has
come of it. The nodes are somebody else's: `Nodes` is whatever answers the
two services, from a state of its own that a request may change. The world
keeps what has been asked and answered, oldest first; the script does not
read it.
-/

namespace VehicleStack

namespace Activation

open Callback

/-- `ORDER`. -/
def ORDER : List String :=
  ["controller_server", "smoother_server", "planner_server", "behavior_server", "bt_navigator",
    "waypoint_follower", "velocity_smoother"]

/-- `REQUIRED`. -/
def REQUIRED : List String := ["controller_server", "planner_server", "bt_navigator"]

/-- The transitions the script requests. -/
inductive Transition
  | configure
  | activate
  deriving DecidableEq, Repr

/-- `WANT.get`. -/
def want (label : String) : Option Transition :=
  if label = "unconfigured" then some .configure
  else if label = "inactive" then some .activate
  else none

/-- What comes of a service call: the service is not there, no answer comes
in time, the call's future holds an exception, or there is an answer. -/
inductive Reply (α : Type)
  | noService
  | noAnswer
  | raised
  | answer (a : α)
  deriving DecidableEq, Repr

/-- The lifecycle nodes, as the script sees them. -/
structure Nodes (σ : Type) where
  getState : String → σ → Reply String × σ
  changeState : String → Transition → σ → Reply Bool × σ

/-- A service call. -/
inductive Act
  | asked (name : String) (reply : Reply String)
  | changed (name : String) (transition : Transition) (reply : Reply Bool)
  deriving DecidableEq, Repr

structure World (σ : Type) where
  nodes : σ
  log : List Act

section Script

variable {σ : Type} (nodes : Nodes σ)

/-- A part of the script. An exception that leaves it is not caught. -/
abbrev Script (σ : Type) := EStateM Unit (World σ)

/-- `state_of`. -/
def stateOf (name : String) : Script σ (Option String) := do
  let w ← get
  let r := nodes.getState name w.nodes
  modify fun w => { nodes := r.2, log := w.log ++ [.asked name r.1] }
  match r.1 with
  | .answer label => pure (some label)
  | .raised => throw ()
  | _ => pure none

/-- `transition`. -/
def transition (name : String) (tid : Transition) : Script σ Bool := do
  let w ← get
  let r := nodes.changeState name tid w.nodes
  modify fun w => { nodes := r.2, log := w.log ++ [.changed name tid r.1] }
  match r.1 with
  | .answer success => pure success
  | .raised => throw ()
  | _ => pure false

/-- The loop over `range(3)`, with this many passes left. -/
def attempts (name : String) : ℕ → Script σ Unit
  | 0 => pure ()
  | k + 1 => do
    let st ← stateOf nodes name
    match st with
    | none => pure ()
    | some label =>
      if label = "active" then pure ()
      else
        match want label with
        | none => pure ()
        | some tid => do
          -- the answer is printed, and the next pass asks again
          let _ ← transition nodes name tid
          attempts name k

/-- The second loop fills `final`. -/
def finalStates : List String → Script σ (List (String × Option String))
  | [] => pure []
  | name :: rest => do
    let st ← stateOf nodes name
    let final ← finalStates rest
    pure ((name, st) :: final)

/-- `missing`. -/
def missing (final : List (String × Option String)) : List String :=
  REQUIRED.filter fun k => (final.lookup k).join ≠ some "active"

/-- The script, to its exit code. -/
def main : Script σ ℕ := do
  ORDER.forM fun name => attempts nodes name 3
  let final ← finalStates nodes ORDER
  if (missing final).isEmpty then pure 0 else pure 1

/-- What the shell sees: an exception exits with 1 as well. -/
def exitCode (s : σ) : ℕ :=
  match main nodes ⟨s, []⟩ with
  | .ok code _ => code
  | .error _ _ => 1

/-- The world afterwards. -/
def afterwards (s : σ) : World σ :=
  match main nodes ⟨s, []⟩ with
  | .ok _ w => w
  | .error _ w => w

end Script

end Activation

end VehicleStack
