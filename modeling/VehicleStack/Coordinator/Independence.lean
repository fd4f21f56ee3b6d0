import VehicleStack.Common.Run
import VehicleStack.Coordinator.InStep

/-!
# The update coordinator — one requester beside the other

The two requesters share the poll timer, the offer counter, the two tables
and the state directory, and one callback walks over both of their entries.
This file runs the coordinator twice, side by side: with both requesters,
and with everything of the other one left out. What a requester is sent and
whether it holds the vehicle is the same in both (`approvals_independent`)
as long as nothing of the other one raises: an exception ends the process
for both of them (`unreadable_answer_silences`).
-/

namespace VehicleStack

namespace Coordinator

open Callback SecOC

variable {cfg : Config} {env env' : Env} {w w' : World} {e : Event} {name n : Requester}

/-! ## Two runs -/

/-- A turn of two runs side by side: of both, of the one with both
requesters, or of the one without the other requester. -/
inductive Turn
  | both (e e' : Event)
  | full (e : Event)
  | alone (e : Event)

/-- The pair of worlds after a turn. -/
def pairStep (cfg : Config) (p : World × World) : Turn → World × World
  | .both e e' => (step cfg p.1 e, step cfg p.2 e')
  | .full e => (step cfg p.1 e, p.2)
  | .alone e => (p.1, step cfg p.2 e)

/-- The event is nobody's frame, and no poll or check of a deadline. -/
def Event.Nobodys (e : Event) : Prop := ∀ name : Requester, e.Foreign name

/-- **What makes the second run the first with the other requester left
out.** Frames of `name` reach both runs, under the same readings and the
same state of the head unit; a poll makes the same readings in both and
finds the same answer to `name`, and none to anybody else in the second.
Frames of the other requester reach the first run only. A check of the
timeout is made at the same time in both or, where `name` holds the
vehicle, in neither for want of its timer. Everything else, the lock's
answers and self-updates among it, may come as it likes in either. -/
def Paired (name : Requester) (p : World × World) : Turn → Prop
  | .both (.frame f env) (.frame f' env') =>
    (f' = f ∧ env' = env) ∧ flows (canRecv f).1 = some name.flow ∧ env.Reliable
  | .both (.poll now envs) (.poll now' envs') =>
    (now' = now ∧ envs' name = envs name ∧ ∀ n ≠ name, (envs' n).verdictFile = none) ∧
      ∀ n, (envs n).Reliable ∧ (envs' n).Reliable
  | .both (.timeout now env) (.timeout now' env') =>
    (now' = now ∧
      (name.ecu ∈ p.1.mem.activeEcus → p.2.mem.timeoutTimer = p.1.mem.timeoutTimer)) ∧
      env.Reliable ∧ env'.Reliable
  | .both _ _ => False
  | .full e => e.Foreign name ∧ e.Reliable
  | .alone e => e.Nobodys ∧ e.Reliable

/-- In a poll, the answers to everybody else's offers are text, and their
verdicts can be sent. -/
def OthersSurvive (cfg : Config) (name : Requester) (w : World) : Event → Prop
  | .poll now envs => ∀ n ∈ w.mem.pending.keys, n ≠ name → ∀ p, w.mem.pending.get? n = some p →
      VerdictReadable (envs n) ∧
        ((decision cfg now (envs n) p).isSome → SendSound (envs n) w.disk.store p.didAppr)
  | _ => True

/-- **Nothing of the other requester raises**: the counters its messages
move stay inside 32 bits, and the answers to its offers are text. -/
def Undisturbed (cfg : Config) (name : Requester) (w : World) : Turn → Prop
  | .both e _ => OthersSurvive cfg name w e
  | .full e => Survives cfg w e
  | .alone _ => True

instance : Decidable (OthersSurvive cfg name w e) :=
  match e with
  | .poll now envs => inferInstanceAs (Decidable (∀ n ∈ w.mem.pending.keys, n ≠ name →
      ∀ p, w.mem.pending.get? n = some p → VerdictReadable (envs n) ∧
        ((decision cfg now (envs n) p).isSome → SendSound (envs n) w.disk.store p.didAppr)))
  | .frame _ _ | .drained _ | .timeout _ _ | .selfStart _ | .selfDone _ | .expireNotice _ _
  | .serviceDone _ _ => isTrue trivial

instance {turn : Turn} : Decidable (Undisturbed cfg name w turn) :=
  match turn with
  | .both e _ => inferInstanceAs (Decidable (OthersSurvive cfg name w e))
  | .full e => inferInstanceAs (Decidable (Survives cfg w e))
  | .alone _ => isTrue trivial

/-! ## The two runs stay together -/

/-- **What the two runs keep.** -/
structure Twins (name : Requester) (p : World × World) : Prop where
  alike : Alike name p.1 p.2
  full : p.1.status = .up → Wired p.1.mem.pending ∧ Polled p.1
  alone : p.2.status = .up →
    (Wired p.2.mem.pending ∧ Polled p.2) ∧ ∀ n ≠ name, ¬ n ∈ p.2.mem.pending

theorem sound_step (h : w.status = .up → Wired w.mem.pending ∧ Polled w) :
    (step cfg w e).status = .up → Wired (step cfg w e).mem.pending ∧ Polled (step cfg w e) :=
  fun hup => ⟨wired_step (fun hup => (h hup).1) hup,
    polled_step (fun hup => (h hup).1) (fun hup => (h hup).2) hup⟩

/-- The event is no frame of anybody but `name`. -/
def Event.From (name : Requester) : Event → Prop
  | .frame f _ => ∀ n : Requester, flows (canRecv f).1 = some n.flow → n = name
  | _ => True

/-- Without frames of others, the table holds no entries of others. -/
theorem alone_step (hwired : w.status = .up → Wired w.mem.pending)
    (h : w.status = .up → ∀ n ≠ name, ¬ n ∈ w.mem.pending) (he : e.From name) :
    (step cfg w e).status = .up → ∀ n ≠ name, ¬ n ∈ (step cfg w e).mem.pending := by
  have hkept : Kept (fun b => ∀ n ≠ name, ¬ n ∈ b.pending) (fun _ _ => True) w :=
    ⟨trivial, fun hup => ⟨hwired hup, h hup⟩⟩
  have hstep : Kept (fun b => ∀ n ≠ name, ¬ n ∈ b.pending) (fun _ _ => True) (step cfg w e) := by
    refine kept_step hkept (fun _ _ => trivial) (fun b b' hb _ hmove n hn => ?_)
      fun _ _ _ _ _ => trivial
    cases hmove with
    | asked hm hasks =>
      have hfrom := he _ (flows_of_messageOf hm)
      intro hmem
      rcases Dict.mem_set.1 hmem with heq | hmem
      · exact hn (heq.trans hfrom)
      · exact hb n hn (Dict.mem_erase.1 hmem).2
    | unasked | approved | denied => exact fun hmem => hb n hn (Dict.mem_erase.1 hmem).2
    | _ => exact hb n hn
  exact fun hup => (hstep.2 hup).2

/-- Two callbacks in step leave worlds that look alike. -/
theorem alike_exec {m m' : Handler Unit} (h : InStep name m m' w w') :
    Alike name (w.exec m) (w'.exec m') := by
  unfold InStep wp₂ at h
  unfold World.exec
  cases hm : m w <;> cases hm' : m' w' <;> simp only [hm, hm'] at h ⊢
  · exact h
  · obtain ⟨rfl, h⟩ := h
    exact ⟨rfl, h.entry, h.since, h.floor, h.counter, h.sent⟩

/-- **A foreign event that raises nothing changes nothing for the
requester.** -/
theorem alike_step (hwired : w.status = .up → Wired w.mem.pending) (he : e.Foreign name)
    (hr : e.Reliable) (h : Survives cfg w e) : Alike name w (step cfg w e) := by
  refine step_of_wp .refl fun hup _ => ?_
  -- A kill is the one exit that loses memory, and a reliable event has none.
  have hreturns : wp (callback cfg e) (fun _ => Alike name w) (fun r _ => r = .killed) w :=
    wp_mono (wp_and (wp_survives hup (hwired hup) h) (alike_callback he)) (fun _ _ h => h.2)
      fun _ _ h => h.1
  exact wp_mono (wp_of_avoids (avoids_callback hr) hreturns) (fun _ _ h => h) fun _ _ h => h.elim

/-- A check of the timeout changes of what the requester sees its hold only,
and that only if it is overdue. -/
def Checked (cfg : Config) (now : ℚ) (name : Requester) (w w' : World) : Prop :=
  Alike name { w with mem := { w.mem with activeEcus := w'.mem.activeEcus } } w' ∧
    w'.mem.activeEcus.get? name.ecu =
      (w.mem.activeEcus.get? name.ecu).filter fun t => now - t ≤ cfg.timeoutSec

theorem wp_timeoutCheck_alike {now : ℚ} (hr : env.Reliable) :
    wp (timeoutCheck cfg now env) (fun _ => Checked cfg now name w) (fun _ _ => False) w := by
  have hrest : wp (timeoutCheck cfg now env) (fun _ w' =>
      Alike name { w with mem := { w.mem with activeEcus := w'.mem.activeEcus } } w')
      (fun r _ => r = .killed) w := by
    refine wp_timeoutCheck (I := fun w' =>
      Alike name { w with mem := { w.mem with activeEcus := w'.mem.activeEcus } } w') .refl
      (fun ecu w' _ h => ?_) .refl fun w' h => ?_
    · have hexpired : verdictsTo name (w'.trace ++ [.expired ecu]) = verdictsTo name w'.trace := by
        simp [verdictsTo, Obs.verdictTo]
      exact ⟨h.status, h.entry, rfl, h.floor, h.counter, hexpired.trans h.sent⟩
    · exact wp_updateLockState (fun _ _ _ => ⟨h.status, h.entry, rfl, h.floor, h.counter, h.sent⟩)
        fun _ _ _ => rfl
  have halive : Avoids .killed (timeoutCheck cfg now env) :=
    avoids_callback (e := .timeout now env) hr
  exact wp_mono (wp_and (wp_of_avoids halive hrest) wp_timeoutCheck_active)
    (fun _ w' h => ⟨h.1, h.2 name.ecu⟩) fun _ _ h => h.1

/-- A check that finds the requester without the vehicle. -/
theorem alike_timeout_idle {now : ℚ} (hr : env.Reliable) (h : ¬ name.ecu ∈ w.mem.activeEcus) :
    Alike name w (step cfg w (.timeout now env)) := by
  refine step_of_wp .refl fun _ _ => ?_
  have hcheck : wp (timeoutCheck cfg now env) (fun _ => Checked cfg now name w) (fun _ _ => False)
      w := wp_timeoutCheck_alike hr
  refine wp_mono hcheck (fun _ w' hw' => ?_) fun _ _ h => h.elim
  obtain ⟨hrest, hactive⟩ := hw'
  rw [Dict.get?_eq_none.2 h, Option.filter_none] at hactive
  exact ⟨hrest.status, hrest.entry, by rw [hactive, Dict.get?_eq_none.2 h], hrest.floor,
    hrest.counter, hrest.sent⟩

/-- **A check made in both runs, or in neither.** -/
theorem alike_timeout {now : ℚ} (h : Alike name w w') (hr : env.Reliable) (hr' : env'.Reliable)
    (htimer : name.ecu ∈ w.mem.activeEcus → w'.mem.timeoutTimer = w.mem.timeoutTimer) :
    Alike name (step cfg w (.timeout now env)) (step cfg w' (.timeout now env')) := by
  -- Only a hold of the requester's own ties the two timers together; without one
  -- the check may run in one world and not in the other, and each is `Alike` by itself.
  by_cases hheld : name.ecu ∈ w.mem.activeEcus
  · by_cases hrun : w.status = .up ∧ w.mem.timeoutTimer = true
    · have hrun' : w'.status = .up ∧ w'.mem.timeoutTimer = true :=
        ⟨h.status.trans hrun.1, (htimer hheld).trans hrun.2⟩
      have hstep : step cfg w (.timeout now env) = w.exec (timeoutCheck cfg now env) := if_pos hrun
      have hstep' : step cfg w' (.timeout now env') = w'.exec (timeoutCheck cfg now env') :=
        if_pos hrun'
      rw [hstep, hstep']
      have hcheck : ∀ {w : World} {env : Env}, env.Reliable → wp (timeoutCheck cfg now env)
          (fun _ => Checked cfg now name w) (fun _ _ => False) w := wp_timeoutCheck_alike
      refine alike_exec (wp₂_of_wp (hcheck hr) (hcheck hr') ?_)
      rintro - - s' t' ⟨hs, hactive⟩ ⟨ht, hactive'⟩
      rw [h.since, ← hactive] at hactive'
      exact ⟨ht.status.trans (h.status.trans hs.status.symm),
        ht.entry.trans (h.entry.trans hs.entry.symm), hactive',
        fun what => (ht.floor what).trans ((h.floor what).trans (hs.floor what).symm),
        ht.counter.trans (h.counter.trans hs.counter.symm),
        ht.sent.trans (h.sent.trans hs.sent.symm)⟩
    · have hrun' : ¬ (w'.status = .up ∧ w'.mem.timeoutTimer = true) := by
        rw [h.status, htimer hheld]
        exact hrun
      have hstep : step cfg w (.timeout now env) = w := if_neg hrun
      have hstep' : step cfg w' (.timeout now env') = w' := if_neg hrun'
      rwa [hstep, hstep']
  · have hheld' : ¬ name.ecu ∈ w'.mem.activeEcus := by
      rwa [← Dict.get?_eq_none, h.since, Dict.get?_eq_none]
    exact ((alike_timeout_idle hr hheld).symm.trans h).trans (alike_timeout_idle hr' hheld')

/-- Nobody's event raises nothing: a frame of neither requester is not
looked into. -/
theorem survives_of_nobodys (h : e.Nobodys) (hr : e.Reliable) : Survives cfg w e := by
  cases e with
  | frame f env =>
    have hnone : ∀ n : Requester, flows (canRecv f).1 ≠ some n.flow := h
    have hclaim : claimOf (canRecv f).1 (canRecv f).2.1 (canRecv f).2.2 = none := by
      unfold claimOf
      split
      · rfl
      · cases hflow : flows (canRecv f).1 with
        | none => rfl
        | some flow =>
          obtain ⟨n, rfl⟩ := exists_requester hflow
          exact absurd hflow (hnone n)
    refine ⟨fun c hc => ?_, fun m hm => absurd (flows_of_messageOf hm) (hnone m.name)⟩
    rw [hclaim] at hc
    cases hc
  | selfStart env =>
    have hmkdir : env.mkdirFlag = .ok := hr.mkdirFlag
    have hwrite : env.writeFlag = .ok := hr.writeFlag
    simp [Survives, hmkdir, hwrite]
  | selfDone env =>
    have hunlink : env.unlinkFlag = .ok := hr.unlinkFlag
    simp [Survives, hunlink]
  | poll now envs => exact (h .cluster).elim
  | timeout now env => exact (h .cluster).elim
  | drained env => trivial
  | expireNotice nid env => trivial
  | serviceDone label success => trivial

theorem eq_of_flow {a b : Requester} (h : some a.flow = some b.flow) : b = a :=
  didAppr_injective (congrArg Flow.didAppr (Option.some.inj h)).symm

/-- A turn of both that leaves them alike. -/
theorem Twins.both {e' : Event} (h : Twins name (w, w'))
    (halike : Alike name (step cfg w e) (step cfg w' e')) (hfrom : e'.From name) :
    Twins name (step cfg w e, step cfg w' e') where
  alike := halike
  full := sound_step h.full
  alone hup := ⟨sound_step (fun hup => (h.alone hup).1) hup,
    alone_step (fun hup => (h.alone hup).1.1) (fun hup => (h.alone hup).2) hfrom hup⟩

/-- A turn of the one with both requesters that is none of `name`'s. -/
theorem Twins.aside (h : Twins name (w, w')) (hforeign : e.Foreign name) (hr : e.Reliable)
    (hquiet : Survives cfg w e) : Twins name (step cfg w e, w') where
  alike := (alike_step (fun hup => (h.full hup).1) hforeign hr hquiet).symm.trans h.alike
  full := sound_step h.full
  alone := h.alone

/-- A turn of the other one that is nobody's. -/
theorem Twins.apart (h : Twins name (w, w')) (hnobodys : e.Nobodys) (hr : e.Reliable) :
    Twins name (w, step cfg w' e) where
  alike := h.alike.trans (alike_step (fun hup => (h.alone hup).1.1) (hnobodys name) hr
    (survives_of_nobodys hnobodys hr))
  full := h.full
  alone hup := by
    have hfrom : e.From name := by
      cases e with
      | frame f env => exact fun n hn => absurd hn (hnobodys n)
      | _ => trivial
    exact ⟨sound_step (fun hup => (h.alone hup).1) hup,
      alone_step (fun hup => (h.alone hup).1.1) (fun hup => (h.alone hup).2) hfrom hup⟩

/-- The same frame in both runs. -/
theorem Twins.frame {f : CanFrame} (h : Twins name (w, w')) (hr : env.Reliable)
    (hflow : flows (canRecv f).1 = some name.flow) :
    Alike name (step cfg w (.frame f env)) (step cfg w' (.frame f env)) := by
  have hstep : ∀ {w : World}, w.status = .up →
      step cfg w (.frame f env) = w.exec (callback cfg (.frame f env)) := fun hup =>
    if_pos ⟨hup, rfl⟩
  by_cases hup : w.status = .up
  · rw [hstep hup, hstep (h.alike.status.trans hup)]
    exact alike_exec (inStep_handleCan h.alike hr hflow)
  · rw [step_of_not_up hup, step_of_not_up fun hup' => hup (h.alike.status.symm.trans hup')]
    exact h.alike

/-- A poll in both runs, with nobody else's answer in the second. -/
theorem Twins.poll {now : ℚ} {envs envs' : Requester → Env} (h : Twins name (w, w'))
    (hr : ∀ n, (envs n).Reliable) (hsame : envs' name = envs name)
    (hquiet : OthersSurvive cfg name w (.poll now envs)) :
    Alike name (step cfg w (.poll now envs)) (step cfg w' (.poll now envs')) := by
  by_cases hup : w.status = .up
  · have hup' : w'.status = .up := h.alike.status.trans hup
    rw [step_poll hup (h.full hup).2, step_poll hup' (h.alone hup').1.2]
    exact alike_exec (inStep_pollApprovals h.alike hr hsame (h.full hup).1 (h.alone hup').2
      fun n hn p hp => hquiet n (Dict.mem_of_get? hp) hn p hp)
  · rw [step_of_not_up hup, step_of_not_up fun hup' => hup (h.alike.status.symm.trans hup')]
    exact h.alike

/-- **The two runs take a turn together.** -/
theorem twins_step {p : World × World} {turn : Turn} (h : Twins name p)
    (hpaired : Paired name p turn) (hquiet : Undisturbed cfg name p.1 turn) :
    Twins name (pairStep cfg p turn) := by
  obtain ⟨w, w'⟩ := p
  cases turn with
  | full e =>
    obtain ⟨hforeign, hr⟩ := hpaired
    exact h.aside hforeign hr hquiet
  | alone e =>
    obtain ⟨hnobodys, hr⟩ := hpaired
    exact h.apart hnobodys hr
  | both e e' =>
    -- The two worlds share a turn only for a frame of the requester's, a poll or
    -- a check: any other pair is not `Paired`.
    cases e <;> cases e' <;> try exact hpaired.elim
    case frame.frame f env f' env' =>
      obtain ⟨⟨rfl, rfl⟩, hflow, hr⟩ := hpaired
      exact h.both (h.frame hr hflow) fun n hn => eq_of_flow (hflow.symm.trans hn)
    case poll.poll now envs now' envs' =>
      obtain ⟨⟨rfl, hsame, -⟩, hr⟩ := hpaired
      exact h.both (h.poll (fun n => (hr n).1) hsame hquiet) trivial
    case timeout.timeout now env now' env' =>
      obtain ⟨⟨rfl, htimer⟩, hr, hr'⟩ := hpaired
      exact h.both (alike_timeout h.alike hr hr' htimer) trivial

/-- Two first processes over one disk. -/
theorem twins_launch {d : Disk} : Twins name (World.launch d env, World.launch d env) := by
  have hnone : ∀ n, ¬ n ∈ (World.launch d env).mem.pending := by
    rw [launch_mem]
    exact fun n => Dict.not_mem_empty
  exact ⟨.refl, fun _ => ⟨wired_launch, polled_launch⟩,
    fun _ => ⟨⟨wired_launch, polled_launch⟩, fun n _ => hnone n⟩⟩

/-- In both runs `name` has been sent the same verdicts, in the same frames,
and holds the vehicle or does not. -/
def SameApprovals (name : Requester) (p : World × World) : Prop :=
  verdictsTo name p.2.trace = verdictsTo name p.1.trace ∧
    framesTo name p.2.bus = framesTo name p.1.bus ∧
    (name.ecu ∈ p.2.mem.activeEcus ↔ name.ecu ∈ p.1.mem.activeEcus)

/-- Whichever of the two runs a turn is of, their buses carry what they
enter. -/
theorem onBus_pairStep {p : World × World} {turn : Turn} (h : OnBus cfg p.1 ∧ OnBus cfg p.2) :
    OnBus cfg (pairStep cfg p turn).1 ∧ OnBus cfg (pairStep cfg p turn).2 := by
  cases turn with
  | both e e' => exact ⟨onBus_step h.1, onBus_step h.2⟩
  | full e => exact ⟨onBus_step h.1, h.2⟩
  | alone e => exact ⟨h.1, onBus_step h.2⟩

/-- **The two requesters do not affect each other's approvals**, in every
run in which nothing of the other one raises. -/
theorem approvals_independent (cfg : Config) (name : Requester) (d : Disk) (env : Env)
    (turns : List Turn)
    (hpaired : Run.Along (pairStep cfg) (Paired name) (World.launch d env, World.launch d env)
      turns)
    (hquiet : Run.Along (pairStep cfg) (fun p turn => Undisturbed cfg name p.1 turn)
      (World.launch d env, World.launch d env) turns) :
    Run.Throughout (pairStep cfg) (SameApprovals name) (World.launch d env, World.launch d env)
      turns := by
  refine Run.throughout_of_along (I := fun p => (OnBus cfg p.1 ∧ OnBus cfg p.2) ∧ Twins name p)
    (fun p turn h hturn => ?_) (fun p h => ?_) ⟨⟨onBus_launch, onBus_launch⟩, twins_launch⟩
    (hpaired.and hquiet)
  · exact ⟨onBus_pairStep h.1, twins_step h.2 hturn.1 hturn.2⟩
  · obtain ⟨⟨hbus, hbus'⟩, h⟩ := h
    refine ⟨h.alike.sent, ?_, ?_⟩
    · rw [hbus.carried, hbus'.carried, framesTo_framesOf, framesTo_framesOf, h.alike.sent]
    · rw [← Dict.get?_isSome, ← Dict.get?_isSome, h.alike.since]

/-- The ESP32 asks for slot 1, under its first freshness value. -/
def sampleEcuRequest : CanFrame := ⟨0x310, 8, #v[0xA5, 1, 26, 166, 16, 28, 0, 1]⟩

/-- Both requesters ask, the ESP32 second; then the driver says yes to it,
and the cluster's verdict file holds `answer`. -/
def bothAsk (answer : Bytes) : List Turn :=
  [.full (.frame sampleRequest sampleEnv),
    .both (.frame sampleEcuRequest sampleEnv) (.frame sampleEcuRequest sampleEnv),
    .both
      (.poll 1 fun | .cluster => { sampleEnv with verdictFile := some answer }
                   | .esp32 => sampleApproval)
      (.poll 1 fun | .cluster => sampleEnv | .esp32 => sampleApproval)]

theorem reliable_sample {file : Option Bytes} :
    ({ sampleEnv with verdictFile := file } : Env).Reliable :=
  ⟨rfl, fun _ => rfl, fun _ => rfl, rfl, fun _ => rfl, rfl, rfl, rfl, rfl, rfl, rfl, rfl⟩

/-- It is a run of the two, whatever the file holds. -/
theorem paired_bothAsk {answer : Bytes} {p : World × World} :
    Run.Along (pairStep sampleConfig) (Paired .esp32) p (bothAsk answer) := by
  refine ⟨⟨?_, reliable_sample⟩, ⟨⟨rfl, rfl⟩, rfl, reliable_sample⟩,
    ⟨⟨rfl, rfl, fun n hn => ?_⟩, fun n => ?_⟩, trivial⟩
  · show flows 0x300 ≠ some Requester.esp32.flow
    decide
  · cases n with
    | cluster => rfl
    | esp32 => exact absurd rfl hn
  · cases n with
    | cluster => exact ⟨reliable_sample, reliable_sample⟩
    | esp32 => exact ⟨reliable_sample, reliable_sample⟩

/-- The cluster is told no, and the ESP32 yes. -/
theorem approvals_independent_denied :
    Run.Throughout (pairStep sampleConfig) (SameApprovals .esp32)
      (World.launch .fresh {}, World.launch .fresh {}) (bothAsk [100, 101, 110, 121]) :=
  approvals_independent sampleConfig .esp32 .fresh {} _ paired_bothAsk (by decide +kernel)

/-- **A file that is not text ends the process**, before it comes to the
ESP32's answer. -/
theorem unreadable_answer_silences :
    Run.Along (pairStep sampleConfig) (Paired .esp32)
        (World.launch .fresh {}, World.launch .fresh {}) (bothAsk [0xFF]) ∧
      ¬ Run.Throughout (pairStep sampleConfig) (SameApprovals .esp32)
        (World.launch .fresh {}, World.launch .fresh {}) (bothAsk [0xFF]) := by
  refine ⟨paired_bothAsk, fun h => ?_⟩
  have hlast := h.last.1
  revert hlast
  decide +kernel

end Coordinator

end VehicleStack
