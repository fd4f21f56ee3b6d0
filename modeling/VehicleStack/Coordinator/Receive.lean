import VehicleStack.Common.Run
import VehicleStack.Coordinator.Steps

/-!
# The update coordinator — the thread that listens

`_can_loop` takes frames off the socket in a thread of its own, queues
them, and triggers a guard condition; the executor answers a trigger with
`_on_can_event`, which empties the queue. Triggers coalesce, and no frame
is lost by that: behind every frame that is queued there is a trigger, one
to come, or a callback that is still emptying the queue. What is lost is
lost for good: any exception ends the loop, also that of a socket that
fails once, and that of a guard condition which `__init__` has not created
yet when the first frame comes in (`deaf`). Between these two the frames
handled are exactly the frames received (`receives_iff_unhurt`).
-/

namespace VehicleStack

namespace Coordinator

open Callback

/-! ## The process -/

/-- What `can_recv` comes to: a frame, nothing in time, or an exception. -/
inductive Outcome
  | frame (f : CanFrame)
  | timeout
  | raised
  deriving DecidableEq

/-- Where the thread is in `_can_loop`. -/
inductive Loop
  /-- Before the condition of the loop. -/
  | test
  | recv
  | put (f : CanFrame)
  | trigger
  /-- The loop is left and the thread has ended. -/
  | left
  deriving DecidableEq

/-- Where the main thread is. -/
inductive Main
  /-- In `__init__`, with the receive thread started. -/
  | init
  | spinning
  /-- In `_on_can_event`. -/
  | canEvent
  | gone
  deriving DecidableEq

/-- The two threads and what they share. Of a frame the queue holds what
`canRecv` makes of it; here it holds the frame. -/
structure Process where
  loop : Loop
  main : Main
  /-- `_gc` has been created. -/
  gc : Bool
  /-- It has been triggered since the executor last looked. -/
  triggered : Bool
  /-- The shutdown event is set, or `rclpy` is no longer ok. -/
  shutdown : Bool
  canQueue : List CanFrame
  node : World
  received : List CanFrame
  handled : List CanFrame

/-- One turn of one of the threads. -/
inductive ThreadTurn
  | test
  | recv (o : Outcome)
  | put
  | trigger
  /-- `__init__` creates the guard condition. -/
  | createGuard
  /-- `__init__` comes to its end, and the executor spins. -/
  | spin (env : Env)
  /-- The executor takes the trigger. -/
  | wake
  /-- `_on_can_event` handles a frame, or finds the queue empty and ends. -/
  | pass (env : Env)
  /-- Any other callback. -/
  | callback (e : Event)
  /-- The process is told to end. -/
  | interrupt (env : Env)

/-- The thread is started: nothing has been received yet. -/
def Process.start (w : World) : Process where
  loop := .test
  main := .init
  gc := false
  triggered := false
  shutdown := false
  canQueue := []
  node := w
  received := []
  handled := []

/-- An exception that leaves a callback ends the spin, and the node is
destroyed. -/
def Process.settle (p : Process) : Process :=
  if p.node.status = .up then p else { p with main := .gone, shutdown := true }

/-- The event is a part of `_on_can_event`. -/
def Event.isCan : Event → Bool
  | .frame _ _ | .drained _ => true
  | _ => false

/-- One turn. A thread that is somewhere else does nothing. -/
def turn (cfg : Config) (p : Process) : ThreadTurn → Process
  | .test => if p.loop = .test then { p with loop := if p.shutdown then .left else .recv } else p
  | .recv o =>
    if p.loop = .recv then
      match o with
      | .frame f => { p with loop := .put f, received := p.received ++ [f] }
      | .timeout => { p with loop := .test }
      | .raised => { p with loop := .left }
    else p
  | .put =>
    match p.loop with
    | .put f => { p with loop := .trigger, canQueue := p.canQueue ++ [f] }
    | _ => p
  | .trigger =>
    if p.loop = .trigger then
      if p.gc then { p with loop := .test, triggered := true }
      -- `AttributeError`, with the frame already queued
      else { p with loop := .left }
    else p
  | .createGuard => if p.main = .init then { p with gc := true } else p
  | .spin env =>
    if p.main = .init ∧ p.gc = true then
      Process.settle { p with main := .spinning, node := p.node.boot env }
    else p
  | .wake =>
    if p.main = .spinning ∧ p.triggered = true then
      { p with main := .canEvent, triggered := false }
    else p
  | .pass env =>
    if p.main = .canEvent then
      match p.canQueue with
      | f :: rest => Process.settle { p with
          canQueue := rest, handled := p.handled ++ [f], node := step cfg p.node (.frame f env) }
      | [] => Process.settle { p with main := .spinning, node := step cfg p.node (.drained env) }
    else p
  | .callback e =>
    if p.main = .spinning ∧ e.isCan = false then Process.settle { p with node := step cfg p.node e }
    else p
  | .interrupt env =>
    if p.main = .gone then p
    else { p with
      main := .gone, shutdown := true
      node := if p.main = .init then p.node else p.node.exec (destroyNode env) }

/-! ## What is asked of it -/

/-- The frame that the thread has in its hand. -/
def Loop.held : Loop → List CanFrame
  | .put f => [f]
  | _ => []

/-- The thread is between two frames. -/
def Loop.Waits (l : Loop) : Prop := l.held = [] ∧ l ≠ .trigger

/-- The executor's turns, until it has emptied a queue. -/
def executor (envs : List Env) : List ThreadTurn := .wake :: envs.map .pass

/-- **The receive path is alive and loses nothing.** -/
structure Receives (cfg : Config) (p : Process) : Prop where
  /-- The loop does not end before shutdown. -/
  alive : p.loop = .left → p.shutdown = true
  /-- What is received is handled once and in order, or still on its way. -/
  order : p.received = p.handled ++ p.canQueue ++ p.loop.held
  /-- When there is nothing to wake up for, all of it is handled. -/
  rest : p.shutdown = false → p.main = .spinning → p.triggered = false → p.loop.Waits →
    p.handled = p.received
  /-- And until then, the executor's next turns handle it, unless a handler
  ends the process. -/
  served : p.main = .spinning → p.loop.Waits → ∀ envs : List Env,
    envs.length = p.canQueue.length + 1 →
    Run.Throughout (turn cfg) (fun q => q.shutdown = false) p (executor envs) →
    (Run.run (turn cfg) p (executor envs)).handled = p.received

/-- **Nothing is raised in the loop**: `can_recv` does not raise before
shutdown, and where a frame's trigger is reached the guard condition has
been created. -/
def Unhurt (p : Process) : ThreadTurn → Prop
  | .recv .raised => p.loop = .recv → p.shutdown = true
  | .trigger => p.loop = .trigger → p.gc = true ∨ p.shutdown = true
  | _ => True

/-! ## What a turn comes to -/

variable {cfg : Config} {p p' : Process} {t : ThreadTurn} {w : World}

/-- **What a turn comes to**: nothing, where the thread is somewhere else;
or the line it stands at, with what has brought it there. -/
inductive Turned (cfg : Config) (p : Process) : ThreadTurn → Process → Prop
  | aside {t : ThreadTurn} : Turned cfg p t p
  | test (h : p.loop = .test) :
      Turned cfg p .test { p with loop := if p.shutdown then .left else .recv }
  | frame {f : CanFrame} (h : p.loop = .recv) :
      Turned cfg p (.recv (.frame f)) { p with loop := .put f, received := p.received ++ [f] }
  | timeout (h : p.loop = .recv) : Turned cfg p (.recv .timeout) { p with loop := .test }
  | raised (h : p.loop = .recv) : Turned cfg p (.recv .raised) { p with loop := .left }
  | put {f : CanFrame} (h : p.loop = .put f) :
      Turned cfg p .put { p with loop := .trigger, canQueue := p.canQueue ++ [f] }
  | trigger (h : p.loop = .trigger) (hgc : p.gc = true) :
      Turned cfg p .trigger { p with loop := .test, triggered := true }
  | noGuard (h : p.loop = .trigger) (hgc : ¬ p.gc = true) :
      Turned cfg p .trigger { p with loop := .left }
  | createGuard (h : p.main = .init) : Turned cfg p .createGuard { p with gc := true }
  | spin {env : Env} (h : p.main = .init) (hgc : p.gc = true) : Turned cfg p (.spin env)
      (Process.settle { p with main := .spinning, node := p.node.boot env })
  | wake (h : p.main = .spinning) (htrig : p.triggered = true) :
      Turned cfg p .wake { p with main := .canEvent, triggered := false }
  | handle {f : CanFrame} {rest : List CanFrame} {env : Env} (h : p.main = .canEvent)
      (hqueue : p.canQueue = f :: rest) : Turned cfg p (.pass env) (Process.settle { p with
        canQueue := rest, handled := p.handled ++ [f], node := step cfg p.node (.frame f env) })
  | drain {env : Env} (h : p.main = .canEvent) (hqueue : p.canQueue = []) :
      Turned cfg p (.pass env) (Process.settle { p with
        main := .spinning, node := step cfg p.node (.drained env) })
  | callback {e : Event} (h : p.main = .spinning) (hcan : e.isCan = false) :
      Turned cfg p (.callback e) (Process.settle { p with node := step cfg p.node e })
  | interrupt {env : Env} (h : ¬ p.main = .gone) : Turned cfg p (.interrupt env) { p with
      main := .gone, shutdown := true
      node := if p.main = .init then p.node else p.node.exec (destroyNode env) }

theorem turned : Turned cfg p t (turn cfg p t) := by
  cases t with
  | test =>
    simp only [turn]
    split
    · rename_i h
      exact .test h
    · exact .aside
  | recv o =>
    simp only [turn]
    split
    · rename_i h
      cases o with
      | frame f => exact .frame h
      | timeout => exact .timeout h
      | raised => exact .raised h
    · exact .aside
  | put =>
    simp only [turn]
    split
    · rename_i f h
      exact .put h
    · exact .aside
  | trigger =>
    simp only [turn]
    split
    · rename_i h
      split
      · rename_i hgc
        exact .trigger h hgc
      · rename_i hgc
        exact .noGuard h hgc
    · exact .aside
  | createGuard =>
    simp only [turn]
    split
    · rename_i h
      exact .createGuard h
    · exact .aside
  | spin env =>
    simp only [turn]
    split
    · rename_i h
      exact .spin h.1 h.2
    · exact .aside
  | wake =>
    simp only [turn]
    split
    · rename_i h
      exact .wake h.1 h.2
    · exact .aside
  | pass env =>
    simp only [turn]
    split
    · rename_i h
      split
      · rename_i f rest hqueue
        exact .handle h hqueue
      · rename_i hqueue
        exact .drain h hqueue
    · exact .aside
  | callback e =>
    simp only [turn]
    split
    · rename_i h
      exact .callback h.1 h.2
    · exact .aside
  | interrupt env =>
    simp only [turn]
    split
    · exact .aside
    · rename_i h
      exact .interrupt h

/-! ## Nothing is lost -/

/-- **What the two threads keep.** A frame that is queued has a trigger
behind it, taken or not. -/
structure Hears (p : Process) : Prop where
  alive : p.loop = .left → p.shutdown = true
  order : p.received = p.handled ++ p.canQueue ++ p.loop.held
  heard : p.shutdown = false → p.canQueue ≠ [] →
    p.loop = .trigger ∨ p.triggered = true ∨ p.main = .canEvent

/-- A process that has not ended has settled nothing. -/
theorem settle_eq (h : p.settle.shutdown = false) : p.settle = p := by
  unfold Process.settle at h ⊢
  split
  · rfl
  · rename_i hdown
    rw [if_neg hdown] at h
    cases h

theorem Hears.settle (h : Hears p) : Hears p.settle := by
  unfold Process.settle
  split
  · exact h
  · exact ⟨fun _ => rfl, h.order, fun h => by cases h⟩

/-- **A turn in which nothing is raised loses nothing.** -/
theorem Turned.hears (hturn : Turned cfg p t p') (h : Hears p) (hunhurt : Unhurt p t) :
    Hears p' := by
  have horder := h.order
  -- a loop that is not about to trigger has done so for all that is queued
  have hother : p.loop ≠ .trigger → p.shutdown = false → p.canQueue ≠ [] →
      p.triggered = true ∨ p.main = .canEvent := fun hloop hshut hqueue =>
    (h.heard hshut hqueue).resolve_left hloop
  cases hturn with
  | aside => exact h
  | test hloop =>
    rw [hloop] at horder hother
    refine ⟨fun hleft => ?_, ?_, fun hshut hqueue => Or.inr (hother (by decide) hshut hqueue)⟩
    · by_contra hshut
      simp [hshut] at hleft
    · cases p.shutdown <;> exact horder
  | frame hloop =>
    rw [hloop] at horder hother
    refine ⟨(fun hleft => by cases hleft), ?_,
      fun hshut hqueue => Or.inr (hother (by decide) hshut hqueue)⟩
    simp only [Loop.held, List.append_nil] at horder ⊢
    rw [horder]
  | timeout hloop =>
    rw [hloop] at horder hother
    exact ⟨(fun hleft => by cases hleft), horder,
      fun hshut hqueue => Or.inr (hother (by decide) hshut hqueue)⟩
  | raised hloop =>
    rw [hloop] at horder hother
    exact ⟨fun _ => hunhurt hloop, horder,
      fun hshut hqueue => Or.inr (hother (by decide) hshut hqueue)⟩
  | put hloop =>
    rw [hloop] at horder
    refine ⟨(fun hleft => by cases hleft), ?_, fun _ _ => Or.inl rfl⟩
    simp only [Loop.held, List.append_assoc, List.append_nil] at horder ⊢
    exact horder
  | trigger hloop =>
    rw [hloop] at horder
    exact ⟨(fun hleft => by cases hleft), horder, fun _ _ => Or.inr (Or.inl rfl)⟩
  | noGuard hloop hgc =>
    rw [hloop] at horder
    have hshut : p.shutdown = true := (hunhurt hloop).resolve_left hgc
    exact ⟨fun _ => hshut, horder, fun hno => by rw [hshut] at hno; cases hno⟩
  | createGuard => exact ⟨h.alive, h.order, h.heard⟩
  | spin hinit =>
    refine Hears.settle ⟨h.alive, h.order, fun hshut hqueue => ?_⟩
    rcases h.heard hshut hqueue with hloop | htrig | hmain
    · exact Or.inl hloop
    · exact Or.inr (Or.inl htrig)
    · rw [hinit] at hmain
      cases hmain
  | wake =>
    -- the trigger is spent, and the callback that it was for has begun
    exact ⟨h.alive, h.order, fun _ _ => Or.inr (Or.inr rfl)⟩
  | handle hmain hqueue =>
    refine Hears.settle ⟨h.alive, ?_, fun _ _ => Or.inr (Or.inr hmain)⟩
    rw [hqueue] at horder
    simpa using horder
  | drain hmain hqueue =>
    exact Hears.settle ⟨h.alive, h.order, fun _ hsome => absurd hqueue hsome⟩
  | callback => exact Hears.settle ⟨h.alive, h.order, h.heard⟩
  | interrupt => exact ⟨fun _ => rfl, h.order, fun h => by cases h⟩

/-- **The executor empties the queue**, one frame after the other. -/
theorem handled_of_passes {envs : List Env} (hmain : p.main = .canEvent)
    (hlen : envs.length = p.canQueue.length + 1)
    (hup : Run.Throughout (turn cfg) (fun q => q.shutdown = false) p (envs.map .pass)) :
    (Run.run (turn cfg) p (envs.map .pass)).handled = p.handled ++ p.canQueue := by
  induction envs generalizing p with
  | nil => simp at hlen
  | cons env rest ih =>
    have hshut : (turn cfg p (.pass env)).shutdown = false := hup.2.first
    have hpass := hup.2
    rw [List.map_cons, Run.run_cons]
    cases hqueue : p.canQueue with
    | nil =>
      have hrest : rest = [] := by
        rw [hqueue] at hlen
        simpa using hlen
      have hturn : turn cfg p (.pass env) = Process.settle { p with
          main := .spinning, node := step cfg p.node (.drained env) } := by
        simp only [turn, if_pos hmain, hqueue]
      rw [hturn] at hshut
      rw [hrest, hturn, settle_eq hshut, List.append_nil]
      rfl
    | cons f queue =>
      have hturn : turn cfg p (.pass env) = Process.settle { p with
          canQueue := queue, handled := p.handled ++ [f],
          node := step cfg p.node (.frame f env) } := by
        simp only [turn, if_pos hmain, hqueue]
      rw [hturn] at hshut hpass
      rw [settle_eq hshut] at hpass
      have hlen' : rest.length = queue.length + 1 := by
        rw [hqueue] at hlen
        simpa using hlen
      have hrest := ih (p := { p with
        canQueue := queue, handled := p.handled ++ [f],
        node := step cfg p.node (.frame f env) }) hmain hlen' hpass
      rw [hturn, settle_eq hshut, hrest, List.append_assoc]
      rfl

theorem Hears.receives (h : Hears p) : Receives cfg p := by
  have hquiet : p.shutdown = false → p.main = .spinning → p.triggered = false → p.loop.Waits →
      p.canQueue = [] := by
    intro hshut hmain htrig hwaits
    by_contra hqueue
    rcases h.heard hshut hqueue with hloop | htrig' | hmain'
    · exact hwaits.2 hloop
    · rw [htrig] at htrig'
      cases htrig'
    · rw [hmain] at hmain'
      cases hmain'
  have hall : p.loop.Waits → p.received = p.handled ++ p.canQueue := fun hwaits => by
    rw [h.order, hwaits.1, List.append_nil]
  refine ⟨h.alive, h.order, fun hshut hmain htrig hwaits => ?_,
    fun hmain hwaits envs hlen hup => ?_⟩
  · rw [hall hwaits, hquiet hshut hmain htrig hwaits, List.append_nil]
  · have hshut : p.shutdown = false := hup.first
    have hup' := hup.2
    simp only [executor, Run.run_cons] at hup' ⊢
    cases htrig : p.triggered with
    | true =>
      have hwake : turn cfg p .wake = { p with main := .canEvent, triggered := false } :=
        if_pos ⟨hmain, htrig⟩
      rw [hwake] at hup' ⊢
      have hpasses := handled_of_passes (p := { p with main := .canEvent, triggered := false }) rfl
        hlen hup'
      rw [hpasses, hall hwaits]
    | false =>
      -- there is nothing to wake up for, and nothing left
      have hnone := hquiet hshut hmain htrig hwaits
      have hstill : ∀ turns : List Env, Run.run (turn cfg) p (turns.map .pass) = p := by
        intro turns
        induction turns with
        | nil => rfl
        | cons env rest ih =>
          have hpass : turn cfg p (.pass env) = p := if_neg (by rw [hmain]; decide)
          rw [List.map_cons, Run.run_cons, hpass, ih]
      have hwake : turn cfg p .wake = p := if_neg (by rw [htrig]; simp)
      rw [hwake, hstill, hall hwaits, hnone, List.append_nil]

/-- **A turn in which something is raised** ends the loop. -/
theorem unhurt_of_receives (h : Receives cfg (turn cfg p t)) : Unhurt p t := by
  cases t with
  | recv o =>
    cases o with
    | raised =>
      intro hloop
      have halive := h.alive
      simp only [turn, if_pos hloop, true_implies] at halive
      exact halive
    | frame f => trivial
    | timeout => trivial
  | trigger =>
    intro hloop
    by_contra hnone
    obtain ⟨hgc, hshut⟩ := not_or.1 hnone
    have halive := h.alive
    simp only [turn, if_pos hloop, if_neg hgc, true_implies] at halive
    exact hshut halive
  | test => trivial
  | put => trivial
  | createGuard => trivial
  | spin env => trivial
  | wake => trivial
  | pass env => trivial
  | callback e => trivial
  | interrupt env => trivial

theorem hears_start : Hears (Process.start w) :=
  ⟨(fun h => by cases h), rfl, fun _ h => absurd rfl h⟩

/-- **The receive path is alive and loses nothing in exactly the runs in
which nothing is raised in the loop**, whatever comes in and whenever. -/
theorem receives_iff_unhurt (cfg : Config) (w : World) (ts : List ThreadTurn) :
    Run.Throughout (turn cfg) (Receives cfg) (Process.start w) ts ↔
      Run.Along (turn cfg) Unhurt (Process.start w) ts :=
  Run.throughout_iff_along (I := Hears) (R := fun _ => True)
    (fun _ _ h _ hunhurt => turned.hears h hunhurt) (fun _ h => h.receives)
    (fun _ _ _ _ hreceives => unhurt_of_receives hreceives) hears_start fun _ _ => trivial

/-- The socket fails once. -/
def socketError : List ThreadTurn :=
  [.createGuard, .spin {}, .test, .recv .raised]

/-- A frame comes in before the guard condition is there. -/
def earlyFrame : List ThreadTurn :=
  [.test, .recv (.frame sampleRequest), .put, .trigger, .createGuard, .spin {}]

/-- **The node is deaf**: its loop has ended with the node up and spinning,
in the second run with the frame still in the queue. -/
theorem deaf :
    ¬ Run.Throughout (turn sampleConfig) (Receives sampleConfig) (Process.start .start)
        socketError ∧
      ¬ Run.Throughout (turn sampleConfig) (Receives sampleConfig) (Process.start .start)
        earlyFrame := by
  refine ⟨fun h => ?_, fun h => ?_⟩
  · exact absurd (h.last.alive (by decide +kernel)) (by decide +kernel)
  · have hrest := h.last.rest (by decide +kernel) (by decide +kernel) (by decide +kernel)
      ⟨by decide +kernel, by decide +kernel⟩
    exact absurd hrest (by decide +kernel)

/-! ## What the node has run

A run of the process is, for the node in it, a run of callbacks; the frames
among them are the frames handled. -/

/-- The frame that an event handles. -/
def Event.frame? : Event → Option CanFrame
  | .frame f _ => some f
  | _ => none

/-- The node has started over what `w` left and run callbacks since. -/
structure Serving (cfg : Config) (w : World) (p : Process) : Prop where
  building : p.main = .init → p.node = w ∧ p.handled = []
  serving : p.main = .spinning ∨ p.main = .canEvent → ∃ env es,
    p.node = Run.run (step cfg) (w.boot env) es ∧ es.filterMap Event.frame? = p.handled

theorem run_snoc {es : List Event} {e : Event} :
    Run.run (step cfg) w (es ++ [e]) = step cfg (Run.run (step cfg) w es) e := by
  simp [Run.run]

/-- A turn that is about something else. -/
theorem Serving.same {p' : Process} (h : Serving cfg w p) (hmain : p'.main = p.main)
    (hnode : p'.node = p.node) (hhandled : p'.handled = p.handled) : Serving cfg w p' := by
  refine ⟨fun hinit => ?_, fun hup => ?_⟩
  · rw [hnode, hhandled]
    exact h.building (hmain ▸ hinit)
  · rw [hnode, hhandled]
    exact h.serving (hmain ▸ hup)

theorem Serving.settle (h : Serving cfg w p) : Serving cfg w p.settle := by
  unfold Process.settle
  split
  · exact h
  · exact ⟨(fun hinit => by cases hinit), fun hup => by rcases hup with hup | hup <;> cases hup⟩

/-- One more callback. -/
theorem Serving.callback {p' : Process} {e : Event} (h : Serving cfg w p)
    (hmain : p.main = .spinning ∨ p.main = .canEvent) (hinit : p'.main ≠ .init)
    (hnode : p'.node = step cfg p.node e)
    (hhandled : p'.handled = p.handled ++ e.frame?.toList) : Serving cfg w p' := by
  obtain ⟨env, es, hrun, hframes⟩ := h.serving hmain
  refine ⟨fun hbuilding => absurd hbuilding hinit, fun _ => ⟨env, es ++ [e], ?_, ?_⟩⟩
  · rw [hnode, run_snoc, hrun]
  · rw [hhandled, ← hframes, List.filterMap_append]
    cases hframe : e.frame? <;> simp [hframe]

/-- **A turn runs the callback it stands for, or none.** -/
theorem Turned.serving (hturn : Turned cfg p t p') (h : Serving cfg w p) : Serving cfg w p' := by
  cases hturn with
  | aside => exact h
  | test => exact h.same rfl rfl rfl
  | frame => exact h.same rfl rfl rfl
  | timeout => exact h.same rfl rfl rfl
  | raised => exact h.same rfl rfl rfl
  | put => exact h.same rfl rfl rfl
  | trigger => exact h.same rfl rfl rfl
  | noGuard => exact h.same rfl rfl rfl
  | createGuard => exact h.same rfl rfl rfl
  | @spin env hinit =>
    obtain ⟨hnode, hhandled⟩ := h.building hinit
    refine Serving.settle ⟨(fun h => by cases h), fun _ => ⟨env, [], ?_, hhandled.symm⟩⟩
    rw [hnode]
    rfl
  | wake hspin => exact ⟨(fun h => by cases h), fun _ => h.serving (Or.inl hspin)⟩
  | @handle f rest env hmain =>
    have hspin : p.main ≠ .init := by rw [hmain]; decide
    exact Serving.settle (h.callback (e := .frame f env) (Or.inr hmain) hspin rfl rfl)
  | @drain env hmain =>
    refine Serving.settle (h.callback (e := .drained env) (Or.inr hmain)
      (fun hinit => by cases hinit) rfl ?_)
    exact (List.append_nil _).symm
  | @callback e hspin hcan =>
    have hframe : e.frame? = none := by
      cases e with
      | frame f env => cases hcan
      | _ => rfl
    refine Serving.settle (h.callback (e := e) (Or.inl hspin) (by simp [hspin]) rfl ?_)
    rw [hframe, Option.toList_none, List.append_nil]
  | interrupt =>
    exact ⟨(fun h => by cases h), fun hup => by rcases hup with hup | hup <;> cases hup⟩

/-- **While the executor spins, the node's state is that of a run of
callbacks**, and the frames of the run are those that have been handled. -/
theorem node_is_run (cfg : Config) (w : World) (ts : List ThreadTurn)
    (hup : (Run.run (turn cfg) (Process.start w) ts).main = .spinning ∨
      (Run.run (turn cfg) (Process.start w) ts).main = .canEvent) :
    ∃ env es, (Run.run (turn cfg) (Process.start w) ts).node =
        Run.run (step cfg) (w.boot env) es ∧
      es.filterMap Event.frame? = (Run.run (turn cfg) (Process.start w) ts).handled := by
  have hfirst : Serving cfg w (Process.start w) :=
    ⟨fun _ => ⟨rfl, rfl⟩, fun h => by rcases h with h | h <;> cases h⟩
  have hall : Run.Along (turn cfg) (fun _ _ => True) (Process.start w) ts :=
    Run.along_of_forall fun _ _ => trivial
  exact (Run.inv_run (I := Serving cfg w) (fun _ _ h _ => turned.serving h) hfirst hall).serving hup

end Coordinator

end VehicleStack
