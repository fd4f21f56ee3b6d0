import VehicleStack.Common.Run
import VehicleStack.Coordinator.Faults

/-!
# The update coordinator — two clocks

Every start time and every deadline is a reading of `time.time()`, which
follows the system clock, and the system clock can be set. This file runs
the coordinator beside a monotonic clock: each reading is made at an
instant of the one and finds the other some way ahead. Where no step of the
system clock between two readings outweighs the time that is left, or
overdue, a hold lasts as long as it is meant to and so does a driver's
window (`windows_kept`). A step at boot can use a window up before anybody
has seen the prompt (`step_answers_unseen`).
-/

namespace VehicleStack

namespace Coordinator

open Callback SecOC

variable {cfg : Config} {env : Env} {w w' : World} {n : Requester}

/-! ## Readings -/

/-- One look at the clocks: when it is taken on the monotonic clock, and how
far the system clock is then ahead of it. -/
structure Reading where
  mono : ℚ
  ahead : ℚ
  deriving DecidableEq

/-- What `time.time()` returns. -/
def Reading.system (r : Reading) : ℚ := r.mono + r.ahead

/-- An event, with the readings its callback makes. In a poll they are made
for each entry; `now` is made once, before the first of them. -/
inductive Timed
  | frame (f : CanFrame) (env : Env) (clock : Clock → Reading)
  | drained (env : Env)
  | poll (now : Reading) (envs : Requester → Env) (clock : Ecu → Clock → Reading)
  | timeout (now : Reading) (env : Env)
  | selfStart (env : Env) (clock : Clock → Reading)
  | selfDone (env : Env)
  | expireNotice (nid : Requester × ℤ) (env : Env)
  | serviceDone (label : Label) (success : Option Bool)

/-- The callback finds the system clock. -/
def Env.readBy (env : Env) (clock : Clock → Reading) : Env :=
  { env with time := fun c => (clock c).system }

def Timed.event : Timed → Event
  | .frame f env clock => .frame f (env.readBy clock)
  | .drained env => .drained env
  | .poll now envs clock => .poll now.system fun name => (envs name).readBy (clock name.ecu)
  | .timeout now env => .timeout now.system env
  | .selfStart env clock => .selfStart (env.readBy clock)
  | .selfDone env => .selfDone env
  | .expireNotice nid env => .expireNotice nid env
  | .serviceDone label success => .serviceDone label success

/-- The readings made for somebody. -/
def Timed.reading : Timed → Ecu → Clock → Reading
  | .frame _ _ clock, _ => clock
  | .poll _ _ clock, ecu => clock ecu
  | .selfStart _ clock, _ => clock
  | _, _ => fun _ => ⟨0, 0⟩

/-- What `time.time()` returns to somebody in an event. -/
def Timed.time (l : Timed) (ecu : Ecu) (c : Clock) : ℚ := (l.reading ecu c).system

/-! ## What is watched -/

/-- The entry approves an update. -/
def Obs.approves (ecu : Ecu) : Obs → Bool
  | .verdict n true _ _ => n.ecu = ecu
  | _ => false

/-- An update of `ecu` has begun: an APPROVE is among what has been
entered, or it is the self-update and has been announced. -/
def Timed.begins (l : Timed) (ecu : Ecu) (obs : List Obs) : Bool :=
  match l with
  | .selfStart _ _ => ecu = .jetson
  | _ => obs.any (Obs.approves ecu)

/-- The coordinator, and the readings that its holders and entries go back
to: those of the last approval, and of the request that is pending. -/
structure Watched where
  node : World
  since : Ecu → Reading
  asked : Requester → Reading

/-- What an event has entered in the trace. -/
def entered (cfg : Config) (w : World) (e : Event) : List Obs :=
  (step cfg w e).trace.drop w.trace.length

/-- One event. An entry that is not the one of before is a new request's:
its id is new. -/
def Watched.step (cfg : Config) (s : Watched) (l : Timed) : Watched where
  node := Coordinator.step cfg s.node l.event
  since ecu :=
    if l.begins ecu (entered cfg s.node l.event) then l.reading ecu .active else s.since ecu
  asked name :=
    if (Coordinator.step cfg s.node l.event).mem.pending.get? name = s.node.mem.pending.get? name
    then s.asked name else l.reading name.ecu .deadline

/-- A first process, over any disk. -/
def Watched.launch (d : Disk) (env : Env) : Watched :=
  ⟨World.launch d env, fun _ => ⟨0, 0⟩, fun _ => ⟨0, 0⟩⟩

/-- `budget.deadline_ms / 1000.0`. -/
def Requester.window (name : Requester) : ℚ := name.budget.deadlineMs / 1000

/-- **Windows and holds are kept.** A timeout releases a holder only when
`timeout_sec` have passed since its approval, on the monotonic clock. A
poll answers an entry by `on_no_verdict` only when its `deadline_ms` have,
and when they are over it does, unless the process is killed in it. -/
def WindowsKept (cfg : Config) (s : Watched) (l : Timed) : Prop :=
  match l with
  | .timeout now _ => ∀ ecu, .expired ecu ∈ entered cfg s.node l.event →
      cfg.timeoutSec ≤ now.mono - (s.since ecu).mono
  | .poll now envs _ => s.node.status = .up →
      ∀ name ∈ s.node.mem.pending, answerOf (envs name) = none →
        (∀ approved slot fv, .verdict name approved slot fv ∈ entered cfg s.node l.event →
          name.window ≤ now.mono - (s.asked name).mono) ∧
        ((step cfg s.node l.event).status ≠ .down → name.window < now.mono - (s.asked name).mono →
          ∃ slot fv, .verdict name (decide (cfg.onNoVerdict = .approve)) slot fv ∈
            entered cfg s.node l.event)
  | _ => True

/-- **No step of the system clock outweighs what is left.** Since its
approval the clock has not been set forward by more than the time a holder
still has; since the request it has been set forward by less than a window
still has, or back by no more than the window is overdue. Where one is
overdue, nothing in the poll raises. -/
def StepsHarmless (cfg : Config) (s : Watched) (l : Timed) : Prop :=
  match l with
  | .timeout now _ => ∀ ecu ∈ s.node.mem.activeEcus,
      0 < cfg.timeoutSec - (now.mono - (s.since ecu).mono) →
        now.ahead - (s.since ecu).ahead ≤ cfg.timeoutSec - (now.mono - (s.since ecu).mono)
  | .poll now envs _ => ∀ name ∈ s.node.mem.pending, answerOf (envs name) = none →
      (0 < name.window - (now.mono - (s.asked name).mono) →
        now.ahead - (s.asked name).ahead < name.window - (now.mono - (s.asked name).mono)) ∧
      (0 < now.mono - (s.asked name).mono - name.window →
        (s.asked name).ahead - now.ahead ≤ now.mono - (s.asked name).mono - name.window ∧
          Survives cfg s.node l.event)
  | _ => True

/-! ## What the stamps say -/

variable {l : Timed} {time : Ecu → Clock → ℚ} {obs : List Obs} {b b' : Book}

/-- A hold goes back to the APPROVE that has been entered since, if there
is one. -/
def Stamped (time : Ecu → Clock → ℚ) (w : World) (b : Book) : Prop :=
  ∃ obs, b.trace = w.trace ++ obs ∧ ∀ ecu t, b.active.get? ecu = some t →
    if obs.any (Obs.approves ecu) then t = time ecu .active
    else w.mem.activeEcus.get? ecu = some t

theorem stamped_refl : Stamped time w w.book :=
  ⟨[], (List.append_nil _).symm, fun _ _ ht => ht⟩

/-- Entries that approve nothing, and no new hold. -/
theorem Stamped.quiet (h : Stamped time w b) (htrace : b'.trace = b.trace ++ obs)
    (hobs : ∀ o ∈ obs, ∀ ecu, o.approves ecu = false)
    (hactive : ∀ ecu t, b'.active.get? ecu = some t → b.active.get? ecu = some t) :
    Stamped time w b' := by
  obtain ⟨obs₀, htrace₀, hstamps⟩ := h
  refine ⟨obs₀ ++ obs, by rw [htrace, htrace₀, List.append_assoc], fun ecu t ht => ?_⟩
  have hnone : obs.any (Obs.approves ecu) = false :=
    List.any_eq_false.2 fun o ho => by simp [hobs o ho ecu]
  rw [List.any_append, hnone, Bool.or_false]
  exact hstamps ecu t (hactive ecu t ht)

/-- **An APPROVE, and the stamp that goes with it.** -/
theorem Stamped.approve {did : ℕ} {payload : Bytes} {slot : UInt8} {fv : ℤ}
    (h : Stamped time w b) (htrace : b'.trace = (b.answer n true slot did payload fv).trace)
    (hactive : b'.active = b.active.set n.ecu (time n.ecu .active)) : Stamped time w b' := by
  obtain ⟨obs, hobs, hstamps⟩ := h
  refine ⟨obs ++ ([.built did payload fv] ++ [.verdict n true slot fv]), ?_, fun ecu t ht => ?_⟩
  · rw [htrace, Book.answer, hobs]
    simp only [List.append_assoc]
  rw [hactive, Dict.get?_set] at ht
  by_cases hecu : ecu = n.ecu
  · rw [if_pos hecu] at ht
    have happroves : (obs ++ ([Obs.built did payload fv] ++ [Obs.verdict n true slot fv])).any
        (Obs.approves ecu) = true := by
      simp [Obs.approves, hecu]
    rw [if_pos happroves, hecu]
    exact (Option.some.inj ht).symm
  · rw [if_neg hecu] at ht
    have hold := hstamps ecu t ht
    simpa [Obs.approves, Ne.symm hecu] using hold

/-- **A move stamps what it approves**, a self-update's apart. -/
theorem Move.stamped (hmove : Move cfg w l.event b b')
    (hself : ∀ env clock, l ≠ .selfStart env clock) (h : Stamped l.time w b) :
    Stamped l.time w b' := by
  have herase : ∀ (active : Dict Ecu ℚ) ecu ecu' t,
      (active.erase ecu).get? ecu' = some t → active.get? ecu' = some t := by
    intro active ecu ecu' t ht
    rw [Dict.get?_erase] at ht
    split at ht
    · cases ht
    · exact ht
  have haccept : ∀ m : Message, Stamped l.time w (w.book.accept m) := by
    intro m
    refine stamped_refl.quiet rfl (fun o ho ecu => ?_) fun _ _ ht => ht
    obtain ⟨n, what, slot, fv⟩ := m
    rw [List.mem_singleton.1 ho]
    cases what <;> rfl
  -- a stamp is a reading made in the callback that begins the hold
  cases l with
  | frame f env clock =>
    cases hmove with
    | opened hm hasks => exact (haccept _).approve rfl rfl
    | unasked hm hasks => exact (haccept _).approve rfl rfl
    | asked hm hasks => exact haccept _
    | completed hm =>
      exact (haccept _).quiet (List.append_nil _).symm (fun _ ho => absurd ho List.not_mem_nil)
        (herase _ _)
  | poll now envs clock =>
    cases hmove with
    | approved hw hb hactive hdec => exact h.approve rfl rfl
    | denied hw hb hactive hdec =>
      refine h.quiet (List.append_assoc _ _ _) (fun o ho ecu => ?_) fun _ _ ht => ht
      rcases List.mem_append.1 ho with ho | ho <;> (rw [List.mem_singleton.1 ho]; rfl)
  | timeout now env =>
    cases hmove with
    | expired =>
      exact h.quiet rfl (fun o ho ecu => by rw [List.mem_singleton.1 ho]; rfl) (herase _ _)
  | selfStart env clock => exact absurd rfl (hself env clock)
  | selfDone env =>
    cases hmove with
    | selfDone =>
      exact h.quiet (List.append_nil _).symm (fun _ ho => absurd ho List.not_mem_nil) (herase _ _)
  | drained env => cases hmove
  | expireNotice nid env => cases hmove
  | serviceDone label success => cases hmove

/-- A window is as long as it is meant to be, if it has been opened. -/
def Windowed (time : Ecu → Clock → ℚ) (pending₀ pending : Dict Requester Pending) : Prop :=
  ∀ n p, pending.get? n = some p →
    pending₀.get? n = some p ∨ p.deadline = time n.ecu .deadline + n.window

theorem windowed_refl {pending : Dict Requester Pending} : Windowed time pending pending :=
  fun _ _ hp => Or.inl hp

theorem Windowed.erase {pending₀ pending : Dict Requester Pending}
    (h : Windowed time pending₀ pending) : Windowed time pending₀ (pending.erase n) := by
  intro n' p hp
  rw [Dict.get?_erase] at hp
  split at hp
  · cases hp
  · exact h n' p hp

/-- **A request opens a window.** -/
theorem windowed_frame {f : CanFrame} :
    wp (callback cfg (.frame f env))
      (fun _ w' => Windowed (fun _ => env.time) w.mem.pending w'.mem.pending) (fun _ _ => True)
      w := by
  have hlock : ∀ w' : World, Windowed (fun _ => env.time) w.mem.pending w'.mem.pending →
      wp (updateLockState env) (fun _ w'' => Windowed (fun _ => env.time) w.mem.pending
        w''.mem.pending) (fun _ _ => True) w' :=
    fun w' h => wp_updateLockState (fun _ _ _ => h) fun _ _ _ => trivial
  refine wp_handleCan (fun _ => windowed_refl) (fun m _ => ?_) (fun _ _ => trivial) fun _ _ =>
    trivial
  obtain ⟨name, what, slot, fv⟩ := m
  cases what with
  | request =>
    simp only [process, wp_bind, wp_observe, Requester.flow_name]
    refine wp_beginApproval (fun _ _ _ _ _ _ => hlock _ windowed_refl)
      (fun _ _ _ _ _ _ _ _ => hlock _ windowed_refl.erase)
      (fun _ _ _ _ _ => hlock _ fun n p hp => ?_) fun _ _ _ _ => trivial
    change ((w.mem.pending.erase name).set name _).get? n = some p at hp
    rw [Dict.get?_set] at hp
    split at hp
    · rename_i hn
      obtain rfl := Option.some.inj hp
      exact Or.inr (by rw [hn]; rfl)
    · rename_i hn
      rw [Dict.get?_erase_of_ne hn] at hp
      exact Or.inl hp
  | running =>
    simp only [process, wp_bind, wp_observe, completeUpdate, wp_setMem, Requester.flow_name]
    exact wp_writeNotice (fun _ _ => hlock _ windowed_refl) fun _ => trivial

/-- And nothing else does. -/
theorem windowed_moves {e : Event} (hframe : ∀ f env, e ≠ .frame f env)
    (h : Moves cfg w e w.book b) : Windowed time w.mem.pending b.pending := by
  induction h with
  | refl => exact windowed_refl
  | tail _ hlast ih =>
    cases hlast with
    | opened | unasked | asked | completed => exact absurd rfl (hframe _ _)
    | approved => exact ih.erase
    | denied => exact ih.erase
    | expired | selfStarted | selfDone => exact ih

/-! ## A poll, and a check of the timeout -/

variable {now : ℚ} {envs : Requester → Env} {rest : List Requester}

/-- Nobody has been answered for want of an answer before its deadline. -/
def NoneEarly (now : ℚ) (envs : Requester → Env) (w : World) (obs : List Obs) : Prop :=
  ∀ name p, w.mem.pending.get? name = some p → answerOf (envs name) = none →
    ∀ approved slot fv, .verdict name approved slot fv ∈ obs → p.deadline ≤ now

/-- And everybody but `rest` has been at it. -/
def NoneLate (cfg : Config) (now : ℚ) (envs : Requester → Env) (w : World) (rest : List Requester)
    (obs : List Obs) : Prop :=
  ∀ name p, w.mem.pending.get? name = some p → answerOf (envs name) = none → p.deadline ≤ now →
    ¬ name ∈ rest → ∃ slot fv, .verdict name (decide (cfg.onNoVerdict = .approve)) slot fv ∈ obs

theorem decision_of_unanswered {p : Pending} (h : answerOf env = none) : decision cfg now env p =
    if p.deadline ≤ now then some (decide (cfg.onNoVerdict = .approve)) else none := by
  simp only [decision, h]

/-- A verdict that is due, to one requester. -/
theorem NoneEarly.append {name : Requester} {p : Pending} {approved : Bool} {part : List Obs}
    (h : NoneEarly now envs w obs) (hp : w.mem.pending.get? name = some p)
    (hdec : decision cfg now (envs name) p = some approved)
    (hpart : ∀ n a slot fv, Obs.verdict n a slot fv ∈ part → n = name) :
    NoneEarly now envs w (obs ++ part) := by
  intro n p' hp' hnone a slot fv hmem
  rcases List.mem_append.1 hmem with hmem | hmem
  · exact h n p' hp' hnone a slot fv hmem
  · obtain rfl := hpart n a slot fv hmem
    obtain rfl := Option.some.inj (hp.symm.trans hp')
    rw [decision_of_unanswered hnone] at hdec
    by_contra hdue
    rw [if_neg hdue] at hdec
    cases hdec

/-- The verdicts of a part are to its requester. -/
theorem SentPart.to {name n : Requester} {approved a : Bool} {slot slot' : UInt8} {fv : ℤ}
    {part : List Obs} (h : SentPart name approved slot part)
    (hmem : Obs.verdict n a slot' fv ∈ part) : n = name := by
  cases h with
  | nothing => cases hmem
  | built => simp at hmem
  | sent => simp_all

/-- **What a poll has come to** with `rest` still to look at. -/
structure InTime (cfg : Config) (now : ℚ) (envs : Requester → Env) (w : World)
    (rest : List Requester) (obs : List Obs) (w' : World) : Prop where
  trace : w'.trace = w.trace ++ obs
  early : NoneEarly now envs w obs
  late : NoneLate cfg now envs w rest obs

/-- The verdict that an entry's decision comes to. -/
theorem InTime.answer {name : Requester} {p : Pending} {approved : Bool} {payload : Bytes} {fv : ℤ}
    (h : InTime cfg now envs w (name :: rest) obs w') (hp : w.mem.pending.get? name = some p)
    (hdec : decision cfg now (envs name) p = some approved) {w'' : World}
    (htrace : w''.trace = w'.trace ++ [.built p.didAppr payload fv] ++
      [.verdict name approved p.slot fv]) :
    InTime cfg now envs w rest (obs ++ ([.built p.didAppr payload fv] ++
      [.verdict name approved p.slot fv])) w'' where
  trace := by
    rw [htrace, h.trace]
    simp only [List.append_assoc]
  early := h.early.append hp hdec (by simp_all)
  late n p' hn hnone hdue hrest := by
    by_cases hname : n = name
    · subst hname
      obtain rfl := Option.some.inj (hp.symm.trans hn)
      rw [decision_of_unanswered hnone, if_pos hdue] at hdec
      obtain rfl := Option.some.inj hdec
      exact ⟨p.slot, fv, by simp⟩
    · obtain ⟨slot, fv', hmem⟩ := h.late n p' hn hnone hdue fun hmem =>
        hrest ((List.mem_cons.1 hmem).resolve_left hname)
      exact ⟨slot, fv', List.mem_append_left _ hmem⟩

/-- **A pass of a poll.** -/
theorem wp_pollEntry_inTime {name : Requester} {p : Pending}
    (hp : w.mem.pending.get? name = some p) (hp' : w'.mem.pending.get? name = some p)
    (h : InTime cfg now envs w (name :: rest) obs w') :
    wp (pollEntry cfg now (envs name) name)
      (fun _ w'' => ∃ obs, InTime cfg now envs w rest obs w'')
      (fun _ w'' => ∃ obs, w''.trace = w.trace ++ obs ∧ NoneEarly now envs w obs) w' := by
  refine wp_pollEntry hp' (fun hwait => ⟨obs, h.trace, h.early, ?_⟩)
    (fun approved hdec => ?_) fun _ _ => ⟨obs, h.trace, h.early⟩
  · -- the entry waits on, and so is not due
    intro n p' hn hnone hdue hrest
    refine h.late n p' hn hnone hdue fun hmem => ?_
    rcases List.mem_cons.1 hmem with rfl | hmem
    · obtain rfl := Option.some.inj (hp.symm.trans hn)
      rw [decision_of_unanswered hnone, if_pos hdue] at hwait
      cases hwait
    · exact hrest hmem
  · refine wp_resolve hp' (fun store bus payload fv offers _ => ?_) fun r w'' _ hsent => ?_
    · refine wp_updateLockState (fun pend timer calls => ⟨_, h.answer hp hdec rfl⟩)
        fun pend timer calls => ⟨obs ++ ([.built p.didAppr payload fv] ++
          [.verdict name approved p.slot fv]), ?_, h.early.append hp hdec (by simp_all)⟩
      simp only [h.trace, List.append_assoc]
    · obtain ⟨-, -, -, part, hpart, htrace⟩ := hsent
      refine ⟨obs ++ part, ?_, h.early.append hp hdec fun n a slot fv hmem => hpart.to hmem⟩
      rw [htrace, h.trace, List.append_assoc]

/-- **A poll, kept to time.** -/
theorem wp_pollApprovals_inTime (hwired : Wired w.mem.pending) :
    wp (pollApprovals cfg now envs) (fun _ w' => ∃ obs, InTime cfg now envs w [] obs w')
      (fun _ w' => ∃ obs, w'.trace = w.trace ++ obs ∧ NoneEarly now envs w obs) w := by
  have hfirst : InTime cfg now envs w w.mem.pending.keys [] w :=
    ⟨(List.append_nil _).symm, fun _ _ _ _ _ _ _ hmem => absurd hmem List.not_mem_nil,
      fun _ _ hp _ _ hrest => absurd (Dict.mem_of_get? hp) hrest⟩
  refine wp_pollApprovals_each (I := fun rest w' => ∃ obs, InTime cfg now envs w rest obs w') hwired
    ⟨[], hfirst⟩ (fun name rest p w' hp hsame hI => ?_) fun w' hI => ⟨fun _ => hI, fun _ => ?_⟩
  · obtain ⟨obs, hI⟩ := hI
    exact wp_pollEntry_inTime hp (hsame.pending.trans hp) hI
  · obtain ⟨obs, hI⟩ := hI
    exact ⟨obs, hI.trace, hI.early, hI.late⟩

/-- What a check of the timeout comes to. -/
structure Released (cfg : Config) (now : ℚ) (w : World) (obs : List Obs) (w' : World) : Prop where
  trace : w'.trace = w.trace ++ obs
  overdue : ∀ o ∈ obs, ∃ ecu, o = .expired ecu ∧ Overdue cfg now w.mem.activeEcus ecu

/-- **A check of the timeout releases who is overdue.** -/
theorem wp_timeoutCheck_released : wp (timeoutCheck cfg now env)
    (fun _ w' => ∃ obs, Released cfg now w obs w') (fun _ w' => ∃ obs, Released cfg now w obs w')
    w := by
  have hnone : Released cfg now w [] w :=
    ⟨(List.append_nil _).symm, fun _ ho => absurd ho List.not_mem_nil⟩
  refine wp_timeoutCheck (I := fun w' => ∃ obs, Released cfg now w obs w') ⟨[], hnone⟩
    (fun ecu w' hover hI => ?_) ⟨[], hnone⟩ fun w' hI => ?_
  · obtain ⟨obs, hI⟩ := hI
    refine ⟨obs ++ [.expired ecu], ?_, fun o ho => ?_⟩
    · rw [hI.trace, List.append_assoc]
    · rcases List.mem_append.1 ho with ho | ho
      · exact hI.overdue o ho
      · exact ⟨ecu, List.mem_singleton.1 ho, hover⟩
  · obtain ⟨obs, hI⟩ := hI
    exact wp_updateLockState (fun _ _ _ => ⟨obs, hI.trace, hI.overdue⟩) fun _ _ _ =>
      ⟨obs, hI.trace, hI.overdue⟩

/-! ## Runs -/

/-- **Stamps and deadlines are system readings** of what they go back to. -/
structure OnTime (s : Watched) : Prop where
  wired : Wired s.node.mem.pending
  polled : Polled s.node
  since : ∀ ecu t, s.node.mem.activeEcus.get? ecu = some t → t = (s.since ecu).system
  asked : ∀ name p, s.node.mem.pending.get? name = some p →
    p.deadline = (s.asked name).system + name.window

/-- What has been entered, where the step has appended it. -/
theorem entered_eq {e : Event} (h : (step cfg w e).trace = w.trace ++ obs) :
    entered cfg w e = obs := by
  rw [entered, h, List.drop_left]

/-- **A step's holds** go back to what it has begun, or to what they went
back to before. -/
theorem holds_step (hup : w.status = .up) (hwired : Wired w.mem.pending)
    (hret : (step cfg w l.event).status = .up) (ecu : Ecu) (t : ℚ)
    (ht : (step cfg w l.event).mem.activeEcus.get? ecu = some t) :
    if l.begins ecu (entered cfg w l.event) then t = l.time ecu .active
    else w.mem.activeEcus.get? ecu = some t := by
  -- a self-update begins a hold without an APPROVE
  by_cases hself : ∃ env clock, l = .selfStart env clock
  · obtain ⟨env, clock, rfl⟩ := hself
    have hrun : step cfg w (Timed.selfStart env clock).event =
        w.exec (onSelfStart (env.readBy clock)) := if_pos ⟨hup, rfl⟩
    have hactive : (step cfg w (Timed.selfStart env clock).event).mem.activeEcus =
        w.mem.activeEcus.set .jetson (clock .active).system := by
      rw [hrun] at hret ⊢
      refine exec_of_returns (I := fun w' => w'.mem.activeEcus = w.mem.activeEcus.set .jetson
        (clock .active).system) ?_ hret
      exact wp_onSelfStart (wp_updateLockState (fun _ _ _ => ⟨rfl, fun _ _ _ => trivial⟩)
        fun _ _ _ => trivial)
    rw [hactive, Dict.get?_set] at ht
    by_cases hecu : ecu = .jetson
    · rw [if_pos hecu] at ht
      rw [if_pos (by simpa [Timed.begins] using hecu)]
      exact (Option.some.inj ht).symm
    · rw [if_neg hecu] at ht
      rw [if_neg (by simpa [Timed.begins] using hecu)]
      exact ht
  · have hbegins : ∀ obs, l.begins ecu obs = obs.any (Obs.approves ecu) := by
      intro obs
      cases l with
      | selfStart env clock => exact absurd ⟨env, clock, rfl⟩ hself
      | _ => rfl
    have hstamped : ∀ b, Moves cfg w l.event w.book b → Stamped l.time w b := by
      intro b hmoves
      induction hmoves with
      | refl => exact stamped_refl
      | tail _ hlast ih => exact hlast.stamped (fun env clock h => hself ⟨env, clock, h⟩) ih
    rcases step_moves hup hwired with ⟨-, hmoves⟩ | ⟨hdown, -⟩
    · obtain ⟨obs, htrace, hstamps⟩ := hstamped _ hmoves
      rw [entered_eq htrace, hbegins]
      exact hstamps ecu t ht
    · exact absurd hret hdown

/-- **And its windows.** -/
theorem windowed_step (hup : w.status = .up) (hwired : Wired w.mem.pending)
    (hret : (step cfg w l.event).status = .up) :
    Windowed l.time w.mem.pending (step cfg w l.event).mem.pending := by
  cases l with
  | frame f env clock =>
    exact step_of_returns (I := fun w' => Windowed (fun _ => (env.readBy clock).time)
      w.mem.pending w'.mem.pending) windowed_refl (fun _ => windowed_frame) hret
  | _ =>
    rcases step_moves hup hwired with ⟨-, hmoves⟩ | ⟨hdown, -⟩
    · exact windowed_moves (fun _ _ h => by cases h) hmoves
    · exact absurd hret hdown

/-- There is nothing to go back to at first. -/
theorem onTime_launch {d : Disk} : OnTime (Watched.launch d env) where
  wired := wired_launch
  polled := polled_launch
  since ecu t ht := by
    have hempty : (World.launch d env).mem.activeEcus.get? ecu = some t := ht
    rw [launch_mem] at hempty
    cases hempty
  asked n p hp := by
    have hempty : (World.launch d env).mem.pending.get? n = some p := hp
    rw [launch_mem] at hempty
    cases hempty

theorem onTime_step {s : Watched} (h : s.node.status = .up → OnTime s) :
    (s.step cfg l).node.status = .up → OnTime (s.step cfg l) := by
  intro hret
  by_cases hup : s.node.status = .up
  · have hwired : Wired s.node.mem.pending := (h hup).wired
    refine ⟨wired_step (fun hup => (h hup).wired) hret,
      polled_step (fun hup => (h hup).wired) (fun hup => (h hup).polled) hret,
      fun ecu t ht => ?_, fun name p hp => ?_⟩
    · have hstamp := holds_step hup hwired hret ecu t ht
      simp only [Watched.step]
      split at hstamp
      · rename_i hbegins
        rw [if_pos hbegins]
        exact hstamp
      · rename_i hbegins
        rw [if_neg hbegins]
        exact (h hup).since ecu t hstamp
    · simp only [Watched.step] at hp ⊢
      split
      · rename_i hsame
        exact (h hup).asked name p (hsame.symm.trans hp)
      · rename_i hnew
        rcases windowed_step hup hwired hret name p hp with hold | hopened
        · exact absurd (hp.trans hold.symm) hnew
        · exact hopened
  · have hstill : (s.step cfg l).node = s.node := step_of_not_up hup
    exact absurd (hstill ▸ hret) hup

/-- A check of the timeout in which no step outweighs what is left. -/
theorem windowsKept_timeout {s : Watched} {now : Reading} (h : s.node.status = .up → OnTime s)
    (hharm : StepsHarmless cfg s (.timeout now env)) : WindowsKept cfg s (.timeout now env) := by
  intro ecu hmem
  have hreleased : ∃ obs, Released cfg now.system s.node obs
      (step cfg s.node (.timeout now.system env)) := by
    refine step_of_wp (I := fun w' => ∃ obs, Released cfg now.system s.node obs w')
      ⟨[], (List.append_nil _).symm, fun _ ho => absurd ho List.not_mem_nil⟩ fun _ _ => ?_
    refine wp_mono wp_timeoutCheck_released (fun _ _ hI => hI) fun _ _ hI => ?_
    obtain ⟨obs, hI⟩ := hI
    exact ⟨obs, hI.trace, hI.overdue⟩
  have hup : s.node.status = .up := by
    by_contra hdown
    rw [Timed.event, entered, step_of_not_up hdown, List.drop_length] at hmem
    exact absurd hmem List.not_mem_nil
  obtain ⟨obs, hI⟩ := hreleased
  rw [Timed.event, entered_eq hI.trace] at hmem
  obtain ⟨ecu', heq, t, ht, hlt⟩ := hI.overdue _ hmem
  obtain rfl := Obs.expired.inj heq
  -- the system clock says overdue, and has not been set forward by what was left
  have hleft := hharm ecu (Dict.mem_of_get? ht)
  rw [(h hup).since ecu t ht] at hlt
  simp only [Reading.system] at hlt
  by_contra hearly
  have hsmall := hleft (by linarith)
  linarith

/-- What a poll enters is not early, and if it returns nothing is late. -/
theorem step_poll_inTime (cfg : Config) (now : ℚ) (envs : Requester → Env) (hup : w.status = .up)
    (hwired : Wired w.mem.pending) (hpolled : Polled w) :
    ∃ obs, (step cfg w (.poll now envs)).trace = w.trace ++ obs ∧ NoneEarly now envs w obs ∧
      ((step cfg w (.poll now envs)).status = .up → NoneLate cfg now envs w [] obs) := by
  rw [step_poll hup hpolled]
  refine exec_of_wp (I := fun w' => ∃ obs, w'.trace = w.trace ++ obs ∧ NoneEarly now envs w obs ∧
    (w'.status = .up → NoneLate cfg now envs w [] obs)) ?_
  refine wp_mono (wp_pollApprovals_inTime hwired) (fun _ w' hI => ?_) fun r w' hI => ?_
  · obtain ⟨obs, hI⟩ := hI
    exact ⟨obs, hI.trace, hI.early, fun _ => hI.late⟩
  · obtain ⟨obs, htrace, hearly⟩ := hI
    exact ⟨obs, htrace, hearly, fun hstatus => absurd hstatus (statusAfter_ne_up r)⟩

/-- A poll in which none outweighs what is left, or overdue. -/
theorem windowsKept_poll {s : Watched} {now : Reading} {clock : Ecu → Clock → Reading}
    (h : s.node.status = .up → OnTime s) (hharm : StepsHarmless cfg s (.poll now envs clock)) :
    WindowsKept cfg s (.poll now envs clock) := by
  intro hup name hname hnone
  obtain ⟨hleft, hoverdue⟩ := hharm name hname hnone
  obtain ⟨p, hp⟩ := Dict.exists_get?_of_mem hname
  have hdeadline := (h hup).asked name p hp
  obtain ⟨obs, htrace, hearly, hlate⟩ := step_poll_inTime cfg now.system
    (fun name => (envs name).readBy (clock name.ecu)) hup (h hup).wired (h hup).polled
  rw [Timed.event, entered_eq htrace]
  refine ⟨fun approved slot fv hmem => ?_, fun hdown hover => ?_⟩
  · have hdue := hearly name p hp hnone approved slot fv hmem
    rw [hdeadline] at hdue
    simp only [Reading.system] at hdue
    by_contra hsoon
    have hsmall := hleft (by linarith)
    linarith
  · obtain ⟨hback, hsurvives⟩ := hoverdue (by linarith)
    refine hlate ?_ name p hp hnone ?_ List.not_mem_nil
    · cases hstatus : (step cfg s.node (Timed.poll now envs clock).event).status with
      | up => exact hstatus
      | raised why =>
        exact absurd hstatus (not_raised_of_survives hup (h hup).wired hsurvives why)
      | down => exact absurd hstatus hdown
    rw [hdeadline]
    simp only [Reading.system]
    linarith

/-- **Holds and windows are as long as they are meant to be**, in every run
in which no step of the system clock outweighs what is left. -/
theorem windows_kept (cfg : Config) (d : Disk) (env : Env) (ls : List Timed)
    (h : Run.Along (Watched.step cfg) (StepsHarmless cfg) (Watched.launch d env) ls) :
    Run.Along (Watched.step cfg) (WindowsKept cfg) (Watched.launch d env) ls := by
  refine Run.along_of_inv (I := fun s => s.node.status = .up → OnTime s)
    (fun s l hI _ => onTime_step hI) (fun s l hI hharm => ?_) (fun _ => onTime_launch) h
  cases l with
  | timeout now env => exact windowsKept_timeout hI hharm
  | poll now envs clock => exact windowsKept_poll hI hharm
  | _ => trivial

instance {s : Watched} : Decidable (StepsHarmless cfg s l) :=
  match l with
  | .timeout now _ => inferInstanceAs (Decidable (∀ ecu ∈ s.node.mem.activeEcus,
      0 < cfg.timeoutSec - (now.mono - (s.since ecu).mono) →
        now.ahead - (s.since ecu).ahead ≤ cfg.timeoutSec - (now.mono - (s.since ecu).mono)))
  | .poll now envs clock => inferInstanceAs (Decidable (∀ name ∈ s.node.mem.pending,
      answerOf (envs name) = none →
      (0 < name.window - (now.mono - (s.asked name).mono) →
        now.ahead - (s.asked name).ahead < name.window - (now.mono - (s.asked name).mono)) ∧
      (0 < now.mono - (s.asked name).mono - name.window →
        (s.asked name).ahead - now.ahead ≤ now.mono - (s.asked name).mono - name.window ∧
          Survives cfg s.node (Timed.poll now envs clock).event)))
  | .frame _ _ _ | .drained _ | .selfStart _ _ | .selfDone _ | .expireNotice _ _
  | .serviceDone _ _ => isTrue trivial

/-- The cluster asks, nobody answers, and the vehicle is held. The clock is
set forward twice, by less than is left. -/
def smallSteps : List Timed :=
  [.frame sampleRequest sampleEnv fun _ => ⟨0, 0⟩,
    .poll ⟨1, 20⟩ (fun _ => sampleEnv) fun _ _ => ⟨1, 20⟩,
    .poll ⟨31, 20⟩ (fun _ => sampleEnv) fun _ _ => ⟨31, 20⟩,
    .timeout ⟨200, 100⟩ sampleEnv,
    .timeout ⟨400, 100⟩ sampleEnv]

theorem windows_kept_small : Run.Along (Watched.step sampleConfig) (WindowsKept sampleConfig)
    (Watched.launch .fresh {}) smallSteps :=
  windows_kept sampleConfig .fresh {} smallSteps (by decide +kernel)

/-- The cluster asks, and an hour's step of the clock follows. -/
def bootStep : List Timed :=
  [.frame sampleRequest sampleEnv fun _ => ⟨0, 0⟩,
    .poll ⟨1, 3600⟩ (fun _ => sampleEnv) fun _ _ => ⟨1, 3600⟩]

/-- **The next poll approves** what the driver has had a second to look
at. -/
theorem step_answers_unseen : ¬ Run.Along (Watched.step sampleConfig) (WindowsKept sampleConfig)
    (Watched.launch .fresh {}) bootStep := by
  intro h
  have hpoll := h.2.1 (by decide +kernel) .cluster (by decide +kernel) (by decide +kernel)
  have hearly := hpoll.1 true 1 1 (by decide +kernel)
  revert hearly
  decide +kernel

end Coordinator

end VehicleStack
