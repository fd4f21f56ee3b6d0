import VehicleStack.Coordinator.Book

/-!
# The update coordinator — what an event will make of the active set

Whether anybody holds the vehicle after a callback, and whether a timer
other than the lock's own then runs, can be told before it: from the tables
the callback finds and from what the frame, the head unit and the operating
system give it. `Empties` and `LeavesTimer` tell it, event by event, and a
callback that returns has made it so (`foretold_step`).
-/

namespace VehicleStack

namespace Coordinator

open Callback SecOC

variable {cfg : Config} {env : Env} {w w' : World} {e : Event} {name : Requester} {now : ℚ}
  {envs : Requester → Env}

/-! ## What is told -/

/-- A timer that has nothing to do with the lock runs. -/
def OtherTimer (w : World) : Prop := w.mem.pollTimer = true ∨ w.mem.noticeTimers ≠ []

instance : Decidable (OtherTimer w) := inferInstanceAs (Decidable (_ ∨ _))

/-- A RUNNING is followed by a notice, and so by the timer that takes it
down. -/
def Notifies (env : Env) : Prop := env.noticesDir = true ∧ env.writeNotice ≠ .osError

instance : Decidable (Notifies env) := inferInstanceAs (Decidable (_ ∧ _))

/-- **Nobody will hold the vehicle** after the event. -/
def Empties (cfg : Config) (w : World) : Event → Prop
  | .frame f env =>
    match messageOn cfg w f env with
    | none => w.mem.activeEcus.isEmpty = true
    | some ⟨_, .request, _, _⟩ => Prompts cfg env ∧ w.mem.activeEcus.isEmpty = true
    | some ⟨name, .running, _, _⟩ => (w.mem.activeEcus.erase name.ecu).isEmpty = true
  | .poll now envs => w.mem.activeEcus.isEmpty = true ∧
      ∀ p ∈ w.mem.pending.entries, decision cfg now (envs p.1) p.2 ≠ some true
  | .timeout now _ => ∀ p ∈ w.mem.activeEcus.entries, cfg.timeoutSec < now - p.2
  | .selfStart _ => False
  | .selfDone _ => (w.mem.activeEcus.erase .jetson).isEmpty = true
  | .drained _ | .expireNotice _ _ | .serviceDone _ _ => w.mem.activeEcus.isEmpty = true

/-- **Such a timer will run** after the event. -/
def LeavesTimer (cfg : Config) (w : World) : Event → Prop
  | .frame f env =>
    match messageOn cfg w f env with
    | none => OtherTimer w
    | some ⟨_, .request, _, _⟩ => OtherTimer w ∨ Prompts cfg env
    | some ⟨_, .running, _, _⟩ => OtherTimer w ∨ Notifies env
  | .poll now envs => w.mem.noticeTimers ≠ [] ∨
      ∃ p ∈ w.mem.pending.entries, decision cfg now (envs p.1) p.2 = none
  | .expireNotice nid _ => w.mem.pollTimer = true ∨ w.mem.noticeTimers.erase nid ≠ []
  | .timeout _ _ | .selfStart _ | .selfDone _ | .drained _ | .serviceDone _ _ => OtherTimer w

/-- The event has made it so. -/
structure Foretold (cfg : Config) (w : World) (e : Event) (w' : World) : Prop where
  nobody : w'.mem.activeEcus.isEmpty = true ↔ Empties cfg w e
  timer : OtherTimer w' ↔ LeavesTimer cfg w e

/-- A look at the lock changes neither. -/
theorem Foretold.look (h : Foretold cfg w e w') :
    wp (updateLockState env) (fun _ => Foretold cfg w e) (fun _ _ => True) w' :=
  wp_updateLockState (fun _ _ _ => ⟨h.nobody, h.timer⟩) fun _ _ _ => trivial

theorem isEmpty_set {ecu : Ecu} {t : ℚ} : (w.mem.activeEcus.set ecu t).isEmpty ≠ true :=
  fun h => Dict.isEmpty_iff.1 h ecu (Dict.mem_set.2 (Or.inl rfl))

/-! ## Frames -/

/-- **`_write_notice` starts a timer**, where it writes. -/
theorem wp_writeNotice_timers : wp (writeNotice env name)
    (fun _ w' => w'.mem.activeEcus = w.mem.activeEcus ∧
      (OtherTimer w' ↔ OtherTimer w ∨ Notifies env)) (fun _ _ => True) w := by
  simp only [writeNotice, wp_ite, wp_bind, wp_pure]
  split
  · rename_i hdir
    cases hwrite : env.writeNotice with
    | ok => exact ⟨rfl, by simp [OtherTimer, Notifies, hdir, hwrite]⟩
    | osError => exact ⟨rfl, by simp [Notifies, hwrite]⟩
    | killBefore => trivial
    | killAfter => trivial
  · rename_i hdir
    exact ⟨trivial, by simp [Notifies, hdir]⟩

theorem foretold_frame {f : CanFrame} :
    wp (callback cfg (.frame f env)) (fun _ => Foretold cfg w (.frame f env)) (fun _ _ => True)
      w := by
  refine wp_handleCan (fun hnone => ?_) (fun m hm => ?_) (fun _ _ => trivial) fun _ _ => trivial
  · have hnone : messageOn cfg w f env = none := hnone
    exact ⟨by simp only [Empties, hnone], by simp only [LeavesTimer, hnone]⟩
  have hm : messageOn cfg w f env = some m := hm
  obtain ⟨name, what, slot, fv⟩ := m
  cases what with
  | request =>
    simp only [process, wp_bind, wp_observe]
    refine wp_beginApproval (fun hopen _ _ _ _ _ => ?_) (fun hcannot _ _ _ _ _ _ _ => ?_)
      (fun hprompts _ _ _ _ => ?_) fun _ _ _ _ => trivial
    · have hno : ¬ Prompts cfg env := fun h => by
        rw [h.1] at hopen
        cases hopen
      exact Foretold.look ⟨by simpa only [Empties, hm, hno, false_and, iff_false] using isEmpty_set,
        by simp only [LeavesTimer, hm, hno, or_false, OtherTimer, World.accept]⟩
    · have hno : ¬ Prompts cfg env := fun h => h.2 hcannot.2
      exact Foretold.look ⟨by simpa only [Empties, hm, hno, false_and, iff_false] using isEmpty_set,
        by simp only [LeavesTimer, hm, hno, or_false, OtherTimer, World.accept]⟩
    · exact Foretold.look ⟨by simp only [Empties, hm, hprompts, true_and, World.accept],
        by simp only [LeavesTimer, hm, hprompts, or_true, OtherTimer, true_or]⟩
  | running =>
    simp only [process, wp_bind, wp_observe, completeUpdate, wp_setMem]
    refine wp_mono wp_writeNotice_timers (fun _ w' h => Foretold.look ⟨?_, ?_⟩) fun _ _ h => h
    · simp only [Empties, hm, h.1, World.accept, Requester.flow_name]
    · have htimer : OtherTimer w' ↔ OtherTimer w ∨ Notifies env := h.2
      simpa only [LeavesTimer, hm] using htimer

/-! ## Polls -/

/-- **What a poll has come to** with `rest` still to look at. -/
structure Passed (cfg : Config) (now : ℚ) (envs : Requester → Env) (w : World)
    (rest : List Requester) (w' : World) : Prop where
  nodup : rest.Nodup
  nobody : w'.mem.activeEcus.isEmpty = true ↔ w.mem.activeEcus.isEmpty = true ∧
    ∀ n p, w.mem.pending.get? n = some p → ¬ n ∈ rest → decision cfg now (envs n) p ≠ some true
  pending : ∀ n p, w'.mem.pending.get? n = some p ↔ w.mem.pending.get? n = some p ∧
    (n ∈ rest ∨ decision cfg now (envs n) p = none)
  poll : w'.mem.pollTimer = w.mem.pollTimer
  notices : w'.mem.noticeTimers = w.mem.noticeTimers

/-- An entry that waits on. -/
theorem Passed.wait {rest : List Requester} {p : Pending}
    (h : Passed cfg now envs w (name :: rest) w') (hp : w.mem.pending.get? name = some p)
    (hwait : decision cfg now (envs name) p = none) : Passed cfg now envs w rest w' := by
  refine ⟨h.nodup.of_cons, h.nobody.trans (and_congr_right fun _ => ?_), fun n q => ?_, h.poll,
    h.notices⟩
  · refine forall₂_congr fun n q => forall_congr' fun hq => ?_
    by_cases hn : n = name
    · subst hn
      obtain rfl := Option.some.inj (hp.symm.trans hq)
      simp [hwait]
    · simp [hn]
  · rw [h.pending n q]
    refine and_congr_right fun hq => ?_
    by_cases hn : n = name
    · subst hn
      obtain rfl := Option.some.inj (hp.symm.trans hq)
      simp [hwait]
    · simp [hn]

/-- An entry that is decided. -/
theorem Passed.decide {rest : List Requester} {p : Pending} {approved : Bool} {t : ℚ}
    {w'' : World} (h : Passed cfg now envs w (name :: rest) w')
    (hp : w.mem.pending.get? name = some p)
    (hdec : decision cfg now (envs name) p = some approved)
    (hactive : w''.mem.activeEcus =
      if approved then w'.mem.activeEcus.set name.ecu t else w'.mem.activeEcus)
    (hpending : w''.mem.pending = w'.mem.pending.erase name)
    (hpoll : w''.mem.pollTimer = w'.mem.pollTimer)
    (hnotices : w''.mem.noticeTimers = w'.mem.noticeTimers) : Passed cfg now envs w rest w'' := by
  have hname : ¬ name ∈ rest := (List.nodup_cons.1 h.nodup).1
  refine ⟨h.nodup.of_cons, ?_, fun n q => ?_, hpoll.trans h.poll, hnotices.trans h.notices⟩
  · rw [hactive]
    cases approved with
    | true =>
      -- an approval holds the vehicle, and no later entry gives it back
      refine iff_of_false isEmpty_set fun hnone => ?_
      exact hnone.2 name p hp hname hdec
    | false =>
      rw [if_neg Bool.false_ne_true, h.nobody]
      refine and_congr_right fun _ => forall₂_congr fun n q => forall_congr' fun hq => ?_
      by_cases hn : n = name
      · subst hn
        obtain rfl := Option.some.inj (hp.symm.trans hq)
        simp [hdec]
      · simp [hn]
  · rw [hpending, Dict.get?_erase]
    by_cases hn : n = name
    · subst hn
      rw [if_pos rfl]
      refine iff_of_false nofun fun ⟨hq, hleft⟩ => ?_
      obtain rfl := Option.some.inj (hp.symm.trans hq)
      rcases hleft with hmem | hnone
      · exact hname hmem
      · rw [hdec] at hnone
        cases hnone
    · rw [if_neg hn, h.pending n q]
      simp [hn]

/-- With nobody left to look at. -/
theorem Passed.foretold {w'' : World} (h : Passed cfg now envs w [] w')
    (hactive : w''.mem.activeEcus = w'.mem.activeEcus)
    (hnotices : w''.mem.noticeTimers = w'.mem.noticeTimers)
    (htimer : w''.mem.pollTimer = true ↔ ∃ n, n ∈ w'.mem.pending) :
    Foretold cfg w (.poll now envs) w'' := by
  constructor
  · rw [hactive, h.nobody, Empties]
    refine and_congr_right fun _ => ⟨fun hall p hp => ?_, fun hall n p hp _ => ?_⟩
    · exact hall p.1 p.2 (Dict.mem_entries.1 hp) List.not_mem_nil
    · exact hall (n, p) (Dict.mem_entries.2 hp)
  · rw [OtherTimer, LeavesTimer, htimer, hnotices, h.notices, or_comm]
    refine or_congr_right ⟨fun ⟨n, hn⟩ => ?_, fun ⟨p, hp, hwait⟩ => ?_⟩
    · obtain ⟨p, hp⟩ := Dict.exists_get?_of_mem hn
      obtain ⟨hp, hleft⟩ := (h.pending n p).1 hp
      exact ⟨(n, p), Dict.mem_entries.2 hp, hleft.resolve_left List.not_mem_nil⟩
    · exact ⟨p.1, Dict.mem_of_get? ((h.pending p.1 p.2).2 ⟨Dict.mem_entries.1 hp, Or.inr hwait⟩)⟩

theorem foretold_poll (hwired : Wired w.mem.pending) (hpoll : w.mem.pollTimer = true) :
    wp (callback cfg (.poll now envs)) (fun _ => Foretold cfg w (.poll now envs))
      (fun _ _ => True) w := by
  have hfirst : Passed cfg now envs w w.mem.pending.keys w := by
    refine ⟨Dict.keys_nodup, (and_iff_left fun n p hp hn => ?_).symm, fun n p => ?_, rfl, rfl⟩
    · exact absurd (Dict.mem_of_get? hp) hn
    · exact (and_iff_left_of_imp fun hp => Or.inl (Dict.mem_of_get? hp)).symm
  refine wp_pollApprovals_each (I := Passed cfg now envs w) hwired hfirst
    (fun n rest p w' hp hsame h => ?_) fun w' h => ⟨fun hsome => ?_, fun hempty => ?_⟩
  · refine wp_pollEntry (hsame.pending.trans hp) (fun hwait => h.wait hp hwait)
      (fun approved hdec => ?_) fun _ _ => trivial
    refine wp_resolve (hsame.pending.trans hp) (fun store bus payload fv offers _ => ?_)
      fun _ _ _ _ => trivial
    exact wp_updateLockState (fun _ _ _ => h.decide hp hdec rfl rfl rfl rfl) fun _ _ _ => trivial
  · refine h.foretold rfl rfl (iff_of_true (h.poll.trans hpoll) ?_)
    by_contra hnone
    rw [Dict.isEmpty_iff.2 fun n hn => hnone ⟨n, hn⟩] at hsome
    cases hsome
  · exact h.foretold rfl rfl
      (iff_of_false nofun fun ⟨n, hn⟩ => Dict.isEmpty_iff.1 hempty n hn)

/-! ## Every event -/

/-- A check of the timeout leaves who is not overdue. -/
theorem foretold_timeout : wp (callback cfg (.timeout now env))
    (fun _ => Foretold cfg w (.timeout now env)) (fun _ _ => True) w := by
  have hother : wp (timeoutCheck cfg now env)
      (fun _ w' => OtherTimer w' ↔ OtherTimer w) (fun _ _ => True) w :=
    wp_timeoutCheck (I := fun w' => OtherTimer w' ↔ OtherTimer w) Iff.rfl (fun _ _ _ h => h)
      Iff.rfl fun _ h => wp_updateLockState (fun _ _ _ => h) fun _ _ _ => trivial
  refine wp_mono (wp_and wp_timeoutCheck_active hother) (fun _ w' h => ⟨?_, h.2⟩) fun _ _ _ =>
    trivial
  rw [Dict.isEmpty_iff, Empties]
  constructor
  · rintro hnone ⟨ecu, t⟩ ht
    have hgone := Dict.get?_eq_none.2 (hnone ecu)
    rw [h.1 ecu, Dict.mem_entries.1 ht, Option.filter_some] at hgone
    by_contra hearly
    rw [if_pos (decide_eq_true (not_lt.1 hearly))] at hgone
    cases hgone
  · intro hall ecu hecu
    obtain ⟨t, ht⟩ := Dict.exists_get?_of_mem hecu
    rw [h.1 ecu] at ht
    obtain ⟨hheld, hearly⟩ := Option.filter_eq_some_iff.1 ht
    exact absurd (hall (ecu, t) (Dict.mem_entries.2 hheld)) (not_lt.2 (of_decide_eq_true hearly))

/-- **Every callback that returns has made it so.** -/
theorem foretold_callback (hwired : Wired w.mem.pending) (hrun : enabled w e = true) :
    wp (callback cfg e) (fun _ => Foretold cfg w e) (fun _ _ => True) w := by
  cases e with
  | frame f env => exact foretold_frame
  | drained env => exact Foretold.look ⟨Iff.rfl, Iff.rfl⟩
  | poll now envs => exact foretold_poll hwired hrun
  | timeout now env => exact foretold_timeout
  | selfStart env =>
    exact wp_onSelfStart (wp_updateLockState
      (fun _ _ _ => ⟨⟨iff_of_false isEmpty_set id, Iff.rfl⟩, fun _ _ _ => trivial⟩)
      fun _ _ _ => trivial)
  | selfDone env =>
    exact wp_onSelfDone (Foretold.look ⟨Iff.rfl, Iff.rfl⟩) fun _ _ _ => trivial
  | expireNotice nid env =>
    simp only [callback, expireNotice, wp_bind, wp_setMem]
    exact wp_attempt ⟨Iff.rfl, Iff.rfl⟩ ⟨Iff.rfl, Iff.rfl⟩ trivial trivial
  | serviceDone label success =>
    exact wp_onServiceDone fun _ => ⟨Iff.rfl, Iff.rfl⟩

theorem foretold_step (hwired : Wired w.mem.pending) (hup : w.status = .up)
    (hrun : enabled w e = true) (hret : (step cfg w e).status = .up) :
    Foretold cfg w e (step cfg w e) := by
  have hstep : step cfg w e = w.exec (callback cfg e) := if_pos ⟨hup, hrun⟩
  rw [hstep] at hret ⊢
  exact exec_of_returns (foretold_callback hwired hrun) hret

end Coordinator

end VehicleStack
