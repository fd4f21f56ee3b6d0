import VehicleStack.Ackermann.Frames
import VehicleStack.Common.Run
import Mathlib.Tactic.NormNum

/-!
# The road classification node

`road_classification_node.cpp`: on each tick of its timer the node reads
what its socket holds and publishes the speed limit of the last
classification it has seen. The queue of the socket is part of the state,
with the kernel's filter in front of it; what a `read` comes to is given
with the tick. Ticks may cut the traffic anywhere and reads may fail: the
limit is that of the last report read, and the reports are read once each
and in their order (`limit_follows_reports`).
-/

namespace VehicleStack

namespace RoadClassification

open Ackermann

def ECU_CLASSIFICATION_LOG_CAN_ID : ℕ := 0x240
def CAN_SFF_MASK : ℕ := 0x7FF

/-- The node's parameters. -/
structure Params (K : Type) where
  confidenceThreshold : ℤ
  roughSpeedLimit : K
  smoothSpeedLimit : K

/-- What one `read` comes to where the queue holds a frame: the frame, a part
of it, or an error that leaves it there. -/
inductive Outcome
  | whole
  | short
  | error
  deriving DecidableEq, Repr

/-- The node and its socket. `heard` lists the frames it has read; nothing
reads it. -/
structure State where
  connected : Bool
  isRough : Bool
  confidence : UInt8
  queue : List CanFrame
  heard : List CanFrame

/-- A node whose `connectCAN` has succeeded, or failed. -/
def State.start (connected : Bool) : State := ⟨connected, false, 0, [], []⟩

/-- What the filter that `connectCAN` installs lets through. -/
def passes (f : CanFrame) : Bool :=
  f.canId &&& CAN_SFF_MASK == ECU_CLASSIFICATION_LOG_CAN_ID &&& CAN_SFF_MASK

/-- The condition under which a frame is looked at. -/
def reports (f : CanFrame) : Bool :=
  f.canId == ECU_CLASSIFICATION_LOG_CAN_ID && decide (6 ≤ f.canDlc)

section Node

variable {K : Type} (cfg : Params K)

/-- `static_cast<uint8_t>(confidence_threshold_)`. -/
def Params.threshold : ℕ := (cfg.confidenceThreshold % 256).toNat

/-- The classification that a report makes. -/
def rough (f : CanFrame) : Bool :=
  (f.data.toList.getD 0 0).toNat == 1 && decide (cfg.threshold ≤ (f.data.toList.getD 1 0).toNat)

/-- The body of the loop in `readCANFrames`, with a whole frame. -/
def take (s : State) (f : CanFrame) : State :=
  if reports f then { s with isRough := rough cfg f, confidence := f.data.toList.getD 1 0 } else s

/-- The loop in `readCANFrames`, from read number `k` on, over what the queue
holds. -/
def readLoop (out : ℕ → Outcome) : ℕ → List CanFrame → State → State
  -- the queue is empty (`EAGAIN`), or the read fails: both end the loop
  | _, [], s => { s with queue := [] }
  | k, f :: rest, s =>
    match out k with
    | .error => { s with queue := f :: rest }
    | .short => { s with queue := rest }
    | .whole => readLoop out (k + 1) rest { take cfg s f with heard := s.heard ++ [f] }

/-- `readCANFrames`. -/
def readCANFrames (out : ℕ → Outcome) (s : State) : State :=
  if s.connected then readLoop cfg out 0 s.queue s else s

/-- The limit that `timerCallback` puts in its message. -/
def limitOf (isRough : Bool) : K :=
  if isRough then cfg.roughSpeedLimit else cfg.smoothSpeedLimit

/-- A frame on the bus, or a tick of the timer. -/
inductive Event
  | onBus (f : CanFrame)
  | tick (out : ℕ → Outcome)

/-- One event. -/
def step (s : State) : Event → State
  | .onBus f => if s.connected && passes f then { s with queue := s.queue ++ [f] } else s
  | .tick out => readCANFrames cfg out s

/-- What a tick publishes. -/
def published (s : State) (out : ℕ → Outcome) : K := limitOf cfg (step cfg s (.tick out)).isRough

end Node

/-! ## The last report -/

variable {K : Type} {cfg : Params K} {s s' : State} {f : CanFrame} {fs : List CanFrame}

/-- The classification of the last report among these frames; without one
the road is smooth. -/
def latest (cfg : Params K) (fs : List CanFrame) : Bool :=
  ((fs.filter reports).getLast?.map (rough cfg)).getD false

theorem latest_snoc :
    latest cfg (fs ++ [f]) = if reports f then rough cfg f else latest cfg fs := by
  unfold latest
  rw [List.filter_append]
  split
  · rename_i hreports
    rw [List.filter_cons_of_pos hreports, List.filter_nil, List.getLast?_concat, Option.map_some,
      Option.getD_some]
  · rename_i hnot
    rw [List.filter_cons_of_neg hnot, List.filter_nil, List.append_nil]

/-- The node says what the last report it has read says. -/
def Informed (cfg : Params K) (s : State) : Prop := s.isRough = latest cfg s.heard

theorem informed_take (h : Informed cfg s) :
    Informed cfg { take cfg s f with heard := s.heard ++ [f] } := by
  unfold Informed
  rw [latest_snoc]
  unfold take
  split
  · rfl
  · exact h

theorem take_connected : (take cfg s f).connected = s.connected := by
  unfold take
  split <;> rfl

/-! ## The loop -/

/-- What the loop keeps: the frames stay in their order, and without a short
read none of them is lost. -/
structure Read (out : ℕ → Outcome) (queue : List CanFrame) (s s' : State) : Prop where
  connected : s'.connected = s.connected
  order : (s'.heard ++ s'.queue).Sublist (s.heard ++ queue)
  kept : (∀ k, out k ≠ .short) → s'.heard ++ s'.queue = s.heard ++ queue
  drained : (∀ k, out k = .whole) → s'.queue = []

/-- **The loop.** -/
theorem read_readLoop (out : ℕ → Outcome) (k : ℕ) (queue : List CanFrame) (s : State)
    (h : Informed cfg s) : Informed cfg (readLoop cfg out k queue s) ∧
      Read out queue s (readLoop cfg out k queue s) := by
  induction queue generalizing k s with
  | nil => exact ⟨h, rfl, List.Sublist.refl _, fun _ => rfl, fun _ => rfl⟩
  | cons f rest ih =>
    unfold readLoop
    cases hout : out k with
    | error =>
      refine ⟨h, rfl, List.Sublist.refl _, fun _ => rfl, fun hwhole => ?_⟩
      rw [hwhole k] at hout
      cases hout
    | short =>
      refine ⟨h, rfl, (List.sublist_cons_self f rest).append_left _, fun hcalm => ?_,
        fun hwhole => ?_⟩
      · exact absurd hout (hcalm k)
      · rw [hwhole k] at hout
        cases hout
    | whole =>
      obtain ⟨hinformed, hread⟩ := ih (k + 1) _ (informed_take (f := f) h)
      have hsame : s.heard ++ [f] ++ rest = s.heard ++ f :: rest := by
        rw [List.append_assoc, List.singleton_append]
      refine ⟨hinformed, hread.connected.trans take_connected, ?_, fun hcalm => ?_, hread.drained⟩
      · rw [← hsame]
        exact hread.order
      · rw [← hsame]
        exact hread.kept hcalm

theorem read_tick (out : ℕ → Outcome) (h : Informed cfg s) (hconn : s.connected = true) :
    Informed cfg (step cfg s (.tick out)) ∧ Read out s.queue s (step cfg s (.tick out)) := by
  have hstep : step cfg s (.tick out) = readLoop cfg out 0 s.queue s := if_pos hconn
  rw [hstep]
  exact read_readLoop out 0 s.queue s h

/-! ## Runs -/

/-- The frames that have been on the bus. -/
def traffic : List Event → List CanFrame
  | [] => []
  | .onBus f :: es => f :: traffic es
  | .tick _ :: es => traffic es

/-- Those that have come through the filter. -/
def arrived (es : List Event) : List CanFrame := (traffic es).filter passes

/-- Every report comes through it. -/
theorem latest_arrived {es : List Event} : latest cfg (arrived es) = latest cfg (traffic es) := by
  have hpasses : ∀ f, reports f = true → passes f = true := by
    intro f hf
    rw [reports, Bool.and_eq_true, beq_iff_eq] at hf
    rw [passes, hf.1]
    decide
  unfold latest arrived
  rw [List.filter_filter]
  congr 4
  funext f
  rw [Bool.and_eq_left_iff_imp]
  exact hpasses f

/-- No read of a tick gets a part of a frame. -/
def Event.Calm : Event → Prop
  | .onBus _ => True
  | .tick out => ∀ k, out k ≠ .short

/-- What the state of a connected node is to the frames that have arrived. -/
structure Kept (cfg : Params K) (calm : Prop) (fs : List CanFrame) (s : State) : Prop where
  connected : s.connected = true
  informed : Informed cfg s
  order : (s.heard ++ s.queue).Sublist fs
  all : calm → s.heard ++ s.queue = fs

theorem kept_step {calm : Prop} {e : Event} (h : Kept cfg calm fs s) (hcalm : calm → e.Calm) :
    Kept cfg calm (fs ++ arrived [e]) (step cfg s e) := by
  cases e with
  | onBus f =>
    by_cases hpasses : passes f = true
    · have harrived : arrived [.onBus f] = [f] := by
        simp [arrived, traffic, hpasses]
      have hstep : step cfg s (.onBus f) = { s with queue := s.queue ++ [f] } :=
        if_pos (by rw [h.connected, hpasses]; rfl)
      rw [hstep, harrived]
      refine ⟨h.connected, h.informed, ?_, fun hc => ?_⟩
      · rw [← List.append_assoc]
        exact h.order.append (List.Sublist.refl [f])
      · rw [← List.append_assoc, h.all hc]
    · have harrived : arrived [.onBus f] = [] := by
        simp [arrived, traffic, hpasses]
      have hstep : step cfg s (.onBus f) = s :=
        if_neg (by rw [h.connected, Bool.true_and]; exact hpasses)
      rw [hstep, harrived, List.append_nil]
      exact h
  | tick out =>
    have harrived : arrived [.tick out] = [] := rfl
    obtain ⟨hinformed, hread⟩ := read_tick out h.informed h.connected
    rw [harrived, List.append_nil]
    exact ⟨hread.connected.trans h.connected, hinformed, hread.order.trans h.order,
      fun hc => (hread.kept (hcalm hc)).trans (h.all hc)⟩

theorem kept_run {calm : Prop} {es : List Event} (h : Kept cfg calm fs s)
    (hcalm : calm → ∀ e ∈ es, e.Calm) :
    Kept cfg calm (fs ++ arrived es) (Run.run (step cfg) s es) := by
  induction es generalizing fs s with
  | nil =>
    have harrived : arrived [] = [] := rfl
    rw [harrived, List.append_nil]
    exact h
  | cons e es ih =>
    have harrived : arrived (e :: es) = arrived [e] ++ arrived es := by
      cases e with
      | onBus f => exact List.filter_append [f] (traffic es)
      | tick out => rfl
    rw [harrived, ← List.append_assoc]
    exact ih (kept_step h fun hc => hcalm hc e List.mem_cons_self)
      fun hc e' he' => hcalm hc e' (List.mem_cons_of_mem _ he')

/-- **The limit follows the reports.** However ticks cut the traffic and
whichever reads fail, a tick publishes the limit of the last report that has
been read, and what has been read or waits is among what has come through
the filter, in its order; without a short read it is all of it. A tick whose
reads all succeed leaves nothing waiting, so what it publishes is then the
limit of the last report on the bus. -/
theorem limit_follows_reports (cfg : Params K) (es : List Event) (out : ℕ → Outcome) :
    let w := Run.run (step cfg) (.start true) es
    let w' := step cfg w (.tick out)
    published cfg w out = limitOf cfg (latest cfg w'.heard) ∧
      (w'.heard ++ w'.queue).Sublist (arrived es) ∧
      ((∀ e ∈ es, e.Calm) → (∀ k, out k = .whole) →
        w'.queue = [] ∧ published cfg w out = limitOf cfg (latest cfg (traffic es))) := by
  have hkept : ∀ calm : Prop, (calm → ∀ e ∈ es, e.Calm) →
      Kept cfg calm (arrived es) (Run.run (step cfg) (.start true) es) := fun calm hcalm => by
    have hstart : Kept cfg calm [] (.start true) :=
      ⟨rfl, rfl, List.Sublist.refl _, fun _ => rfl⟩
    simpa using kept_run hstart hcalm
  have hrun := hkept (∀ e ∈ es, e.Calm) id
  obtain ⟨hinformed, hread⟩ := read_tick out hrun.informed hrun.connected
  intro w w'
  have hlimit : published cfg w out = limitOf cfg (latest cfg w'.heard) :=
    congrArg (limitOf cfg) hinformed
  refine ⟨hlimit, hread.order.trans hrun.order, fun hcalm hwhole => ?_⟩
  have hdrained : w'.queue = [] := hread.drained hwhole
  have hall : w'.heard ++ w'.queue = arrived es :=
    (hread.kept fun k => by rw [hwhole k]; nofun).trans (hrun.all hcalm)
  rw [hdrained, List.append_nil] at hall
  refine ⟨hdrained, ?_⟩
  rw [hlimit, hall, latest_arrived]

end RoadClassification

end VehicleStack
