import VehicleStack.Coordinator.Spool

/-!
# The update coordinator — completion notices

`_write_notice` puts a file up and starts the timer that takes it down
again, and the timer is gone with the process. `_sweep_notices` is the
other half: what a dead process has left, the next one removes before it
does anything else. So in front of a running process every notice has a
timer of that process (`notices_expire`), through crashes at any point, and
none of them is there without a RUNNING that was authentic.
-/

namespace VehicleStack

namespace Coordinator

open Callback SecOC

variable {cfg : Config} {env : Env} {w : World} {e : Event} {name : Requester}

/-- What a notice's file is named by. -/
def Notice.nid (n : Notice) : Requester × ℤ := (n.target, n.second)

/-- A notice that is there can be removed. -/
def Env.TakesDown (env : Env) : Prop := ∀ nid, env.unlinkNotice nid ≠ .osError

/-- Every notice has its timer. -/
def HasTimers (w : World) : Prop := ∀ n ∈ w.disk.notices, n.nid ∈ w.mem.noticeTimers

/-- In front of a running process, between two callbacks. -/
def Expiring (w : World) : Prop := w.status = .up → HasTimers w

/-! ## Callbacks that leave the notices alone -/

/-- The notices and their timers are these. -/
def NoticesAre (notices : List Notice) (timers : List (Requester × ℤ)) (w : World) : Prop :=
  w.disk.notices = notices ∧ w.mem.noticeTimers = timers

section Others

variable {notices : List Notice} {timers : List (Requester × ℤ)}

theorem keeps_setMem {f : Memory → Memory} (h : ∀ m, (f m).noticeTimers = m.noticeTimers) :
    Keeps (NoticesAre notices timers) (setMem f) :=
  keeps_modify fun w hw => ⟨hw.1, (h w.mem).trans hw.2⟩

theorem keeps_onStore {α : Type} {m : EStateM Raised FvStore α} :
    Keeps (NoticesAre notices timers) (onStore m) :=
  keeps_zoom fun _ _ hw => hw

theorem keeps_observe {o : Obs} : Keeps (NoticesAre notices timers) (observe o) :=
  keeps_modify fun _ hw => hw

theorem keeps_updateLockState : Keeps (NoticesAre notices timers) (updateLockState env) :=
  fun _ hw => wp_updateLockState (fun _ _ _ => hw) fun _ _ _ => hw

theorem keeps_withdrawOffer {oid : OfferId} :
    Keeps (NoticesAre notices timers) (withdrawOffer env oid) :=
  fun _ hw => wp_withdrawOffer (fun _ => hw) fun _ => hw

theorem keeps_sendVerdict {didAppr apprCanId : ℕ} {slot : UInt8} {approved : Bool} :
    Keeps (NoticesAre notices timers)
      (sendVerdict cfg env name didAppr apprCanId slot approved) :=
  keeps_bind keeps_onStore fun _ => keeps_bind keeps_observe fun _ =>
    keeps_perform fun _ hw => hw

theorem keeps_failOpen {didAppr apprCanId : ℕ} {slot : UInt8} :
    Keeps (NoticesAre notices timers) (failOpen cfg env name slot didAppr apprCanId) :=
  keeps_bind keeps_sendVerdict fun _ => keeps_setMem fun _ => rfl

theorem keeps_beginApproval {didAppr apprCanId : ℕ} {slot : UInt8} :
    Keeps (NoticesAre notices timers) (beginApproval cfg env name slot didAppr apprCanId) := by
  unfold beginApproval
  refine keeps_ite keeps_failOpen (keeps_bind (fun _ hw => ?_) fun _ => ?_)
  · exact wp_dropPending (fun _ => hw) fun _ => hw
  · refine keeps_bind (keeps_setMem fun _ => rfl) fun _ => keeps_bind keeps_get fun _ => ?_
    refine keeps_bind (keeps_attempt fun _ hw => hw) fun _ => keeps_ite ?_ keeps_failOpen
    exact keeps_bind (keeps_setMem fun _ => rfl) fun _ => keeps_setMem fun _ => rfl

theorem keeps_resolve {approved : Bool} :
    Keeps (NoticesAre notices timers) (resolve cfg env name approved) := by
  unfold resolve
  refine keeps_bind keeps_get fun w => ?_
  split
  · exact keeps_pure
  · refine keeps_bind (keeps_setMem fun _ => rfl) fun _ => ?_
    refine keeps_bind keeps_withdrawOffer fun _ => keeps_bind keeps_sendVerdict fun _ => ?_
    split
    · exact keeps_bind (keeps_setMem fun _ => rfl) fun _ => keeps_updateLockState
    · exact keeps_updateLockState

theorem keeps_pollEntry {now : ℚ} :
    Keeps (NoticesAre notices timers) (pollEntry cfg now env name) := by
  unfold pollEntry
  refine keeps_bind keeps_get fun w => ?_
  split
  · exact keeps_throw
  · refine keeps_bind (fun _ hw => wp_readVerdict hw fun _ _ => hw) fun answer => ?_
    split
    · exact keeps_resolve
    · exact keeps_ite keeps_resolve keeps_pure

/-- **The notices are left alone by every callback** that is neither a
frame nor their own timer's. -/
theorem keeps_callback (hframe : ∀ f env, e ≠ .frame f env)
    (hexpire : ∀ nid env, e ≠ .expireNotice nid env) :
    Keeps (NoticesAre notices timers) (callback cfg e) := by
  cases e with
  | frame f env => exact absurd rfl (hframe f env)
  | expireNotice nid env => exact absurd rfl (hexpire nid env)
  | drained env => exact keeps_updateLockState
  | poll now envs =>
    refine keeps_bind keeps_get fun w => ?_
    refine keeps_bind (keeps_forM fun _ => keeps_pollEntry) fun _ => ?_
    exact keeps_bind keeps_get fun _ => keeps_ite (keeps_setMem fun _ => rfl) keeps_pure
  | timeout now env =>
    refine keeps_bind keeps_get fun w => keeps_bind (keeps_forM fun _ => ?_) fun _ => ?_
    · exact keeps_bind (keeps_setMem fun _ => rfl) fun _ => keeps_observe
    · exact keeps_ite keeps_pure keeps_updateLockState
  | selfStart env =>
    refine keeps_bind (keeps_setMem fun _ => rfl) fun _ => ?_
    refine keeps_bind keeps_updateLockState fun _ => ?_
    exact keeps_bind (keeps_perform fun _ hw => hw) fun _ => keeps_perform fun _ hw => hw
  | selfDone env =>
    refine keeps_bind (keeps_setMem fun _ => rfl) fun _ => ?_
    exact keeps_bind (keeps_perform fun _ hw => hw) fun _ => keeps_updateLockState
  | serviceDone label success =>
    exact fun _ hw => wp_onServiceDone fun _ => hw

end Others

/-! ## Those that do not -/

/-- A callback may put up a notice of this requester, and no other. -/
def MayNotify (name : Option Requester) (w w' : World) : Prop :=
  ∀ n ∈ w'.disk.notices, n ∈ w.disk.notices ∨ some n.target = name

/-- **A notice is put up with its timer**, or the process dies. -/
theorem wp_writeNotice_hasTimers (h : HasTimers w) :
    wp (writeNotice env name) (fun _ w' => HasTimers w' ∧ MayNotify (some name) w w')
      (fun _ w' => MayNotify (some name) w w') w := by
  have hsame : MayNotify (some name) w w := fun _ hn => Or.inl hn
  simp only [writeNotice, wp_ite, wp_bind, wp_pure]
  split
  · -- the file is written under its name, in place of one that has it
    have hwritten : ∀ {f : Notice → Bool} {n : Notice} {w' : World}, n.target = name →
        w'.disk.notices = w.disk.notices.filter f ++ [n] → MayNotify (some name) w w' := by
      intro f n w' hname hw' m hm
      rw [hw', List.mem_append, List.mem_singleton] at hm
      rcases hm with hm | rfl
      · exact Or.inl (List.mem_filter.1 hm).1
      · exact Or.inr (congrArg some hname)
    refine wp_attempt ⟨fun n hn => ?_, hwritten rfl rfl⟩ ⟨h, hsame⟩ hsame (hwritten rfl rfl)
    rcases List.mem_append.1 hn with hn | hn
    · exact List.mem_append_left _ (h n (List.mem_filter.1 hn).1)
    · rw [List.mem_singleton.1 hn]
      exact List.mem_append_right _ List.mem_cons_self
  · exact ⟨h, hsame⟩

/-- **A timer takes its notice down.** -/
theorem wp_expireNotice_hasTimers {nid : Requester × ℤ} (h : HasTimers w) (hdown : env.TakesDown) :
    wp (expireNotice env nid) (fun _ w' => (HasTimers w' ∧ ∀ n ∈ w'.disk.notices, n.nid ≠ nid) ∧
      MayNotify none w w') (fun _ w' => MayNotify none w w') w := by
  simp only [expireNotice, wp_bind, wp_setMem]
  have hkept : MayNotify none w w := fun _ hn => Or.inl hn
  have hleft : ∀ {f : Notice → Bool} {w' : World}, w'.disk.notices = w.disk.notices.filter f →
      MayNotify none w w' := by
    intro f w' hw' n hn
    rw [hw'] at hn
    exact Or.inl (List.mem_filter.1 hn).1
  cases hanswer : env.unlinkNotice nid with
  | ok =>
    refine ⟨⟨fun n hn => ?_, fun n hn => of_decide_eq_true (List.mem_filter.1 hn).2⟩, hleft rfl⟩
    obtain ⟨hn, hne⟩ := List.mem_filter.1 hn
    exact (List.mem_erase_of_ne (of_decide_eq_true hne)).2 (h n hn)
  | osError => exact absurd hanswer (hdown nid)
  | killBefore => exact hkept
  | killAfter => exact hleft rfl

/-- **A start that can list the directory leaves nothing in it.** -/
theorem wp_sweepNotices_exact {Q : Unit → World → Prop} {E : Raised → World → Prop}
    (hlist : env.listNotices = true) (hdown : env.TakesDown)
    (hQ : Q () { w with disk := { w.disk with notices := [] } })
    (hE : ∀ notices, notices ⊆ w.disk.notices →
      E .killed { w with disk := { w.disk with notices := notices } }) :
    wp (sweepNotices env) Q E w := by
  simp only [sweepNotices, hlist, if_true, wp_bind, wp_get]
  -- with `rest` still to look at, what is left is among it
  refine wp_mono (wp_forM (E := E) (I := fun rest w' => ∃ notices,
    w' = { w with disk := { w.disk with notices := notices } } ∧ notices ⊆ w.disk.notices ∧
      notices ⊆ rest) ?_ ⟨_, rfl, List.Subset.refl _, List.Subset.refl _⟩) ?_ fun _ _ h => h
  · rintro x rest w' ⟨notices, rfl, hsub, hrest⟩
    have hfewer : ∀ f : Notice → Bool, notices.filter f ⊆ w.disk.notices := fun f n hn =>
      hsub (List.mem_filter.1 hn).1
    rw [wp_bind]
    cases hanswer : env.unlinkNotice (x.target, x.second) with
    | ok =>
      refine ⟨_, rfl, hfewer _, fun n hn => ?_⟩
      obtain ⟨hn, hne⟩ := List.mem_filter.1 hn
      refine (List.mem_cons.1 (hrest hn)).resolve_left fun heq => of_decide_eq_true hne ?_
      rw [heq]
    | osError => exact absurd hanswer (hdown _)
    | killBefore => exact hE _ hsub
    | killAfter => exact hE _ (hfewer _)
  · rintro - w' ⟨notices, rfl, -, hnil⟩
    obtain rfl : notices = [] := List.subset_nil.1 hnil
    exact hQ

/-! ## Whole lives -/

/-- Whose notice an event puts up. -/
def informs (cfg : Config) (w : World) : Event → Option Requester
  | .frame f env => (messageOn cfg w f env).bind fun m =>
      if m.what = .running then some m.name else none
  | _ => none

/-- The removals the event may make go through, and a start can list the
directory. -/
def SpoolEvent.Clears : SpoolEvent → Prop
  | .callback (.expireNotice _ env) => env.TakesDown
  | .start env => env.TakesDown ∧ env.listNotices = true
  | _ => True

/-- A notice that an event puts up is that of a requester whose RUNNING the
event has accepted. -/
def Announces (cfg : Config) (w : World) (l : SpoolEvent) : Prop :=
  MayNotify (match l with
    | .callback e => informs cfg w e
    | _ => none) w (spoolStep cfg w l)

theorem mayNotify_refl {name : Option Requester} : MayNotify name w w := fun _ hn => Or.inl hn

/-- The lock is looked at without the notices changing. -/
theorem hasTimers_updateLockState {w' : World} {name : Option Requester}
    (h : HasTimers w' ∧ MayNotify name w w') : wp (updateLockState env)
      (fun _ w'' => HasTimers w'' ∧ MayNotify name w w'') (fun _ w'' => MayNotify name w w'') w' :=
  wp_updateLockState (fun _ _ _ => h) fun _ _ _ => h.2

theorem hasTimers_frame {f : CanFrame} (h : HasTimers w) :
    wp (callback cfg (.frame f env))
      (fun _ w' => HasTimers w' ∧ MayNotify (informs cfg w (.frame f env)) w w')
      (fun _ w' => MayNotify (informs cfg w (.frame f env)) w w') w := by
  refine wp_handleCan (fun _ => ⟨h, mayNotify_refl⟩) (fun m hm => ?_) (fun _ _ => mayNotify_refl)
    fun _ _ => mayNotify_refl
  have hinforms : informs cfg w (.frame f env) =
      if m.what = .running then some m.name else none := by
    simp only [informs, messageOn, hm, Option.bind_some]
  rw [hinforms]
  obtain ⟨name, what, slot, fv⟩ := m
  cases what with
  | request =>
    simp only [process, wp_bind, wp_observe, reduceCtorEq, if_false, Requester.flow_name]
    have hkept : NoticesAre w.disk.notices w.mem.noticeTimers
      (w.accept ⟨name, .request, slot, fv⟩) := ⟨rfl, rfl⟩
    refine wp_mono (keeps_beginApproval _ hkept) ?_ ?_
    · rintro - w' ⟨hnotices, htimers⟩
      refine hasTimers_updateLockState ⟨?_, ?_⟩
      · rwa [HasTimers, hnotices, htimers]
      · rw [MayNotify, hnotices]
        exact fun _ hn => Or.inl hn
    · rintro - w' ⟨hnotices, -⟩
      rw [MayNotify, hnotices]
      exact fun _ hn => Or.inl hn
  | running =>
    simp only [process, wp_bind, wp_observe, completeUpdate, wp_setMem, if_true,
      Requester.flow_name]
    refine wp_mono (wp_writeNotice_hasTimers h) (fun _ w' hw' => ?_) fun _ w' hw' => hw'
    exact hasTimers_updateLockState hw'

/-- **What every callback does to the notices.** -/
theorem hasTimers_callback (h : HasTimers w) (hclears : (SpoolEvent.callback e).Clears) :
    wp (callback cfg e) (fun _ w' => HasTimers w' ∧ MayNotify (informs cfg w e) w w')
      (fun _ w' => MayNotify (informs cfg w e) w w') w := by
  by_cases hframe : ∃ f env, e = .frame f env
  · obtain ⟨f, env, rfl⟩ := hframe
    exact hasTimers_frame h
  by_cases hexpire : ∃ nid env, e = .expireNotice nid env
  · obtain ⟨nid, env, rfl⟩ := hexpire
    exact wp_mono (wp_expireNotice_hasTimers h hclears) (fun _ _ hw' => ⟨hw'.1.1, hw'.2⟩)
      fun _ _ hw' => hw'
  · have hkept : NoticesAre w.disk.notices w.mem.noticeTimers w := ⟨rfl, rfl⟩
    refine wp_mono (keeps_callback (fun f env heq => hframe ⟨f, env, heq⟩)
      (fun nid env heq => hexpire ⟨nid, env, heq⟩) w hkept) ?_ ?_
    · rintro - w' ⟨hnotices, htimers⟩
      refine ⟨?_, ?_⟩
      · rwa [HasTimers, hnotices, htimers]
      · rw [MayNotify, hnotices]
        exact fun _ hn => Or.inl hn
    · rintro - w' ⟨hnotices, -⟩
      rw [MayNotify, hnotices]
      exact fun _ hn => Or.inl hn

/-- **A start** removes what there is. -/
theorem expiring_boot (hclears : (SpoolEvent.start env).Clears) :
    Expiring (w.boot env) ∧ MayNotify none w (w.boot env) := by
  unfold World.boot
  refine exec_of_wp (I := fun w' => Expiring w' ∧ MayNotify none w w') ?_
  have hdead : ∀ {r : Raised} {w' : World}, Expiring { w' with status := statusAfter r } :=
    fun hup => absurd hup (statusAfter_ne_up _)
  simp only [init, wp_bind]
  refine wp_recoverSelfUpdate rfl (fun flag => ?_) fun r flag => ⟨hdead, mayNotify_refl⟩
  rw [wp_bind]
  refine wp_sweepStaleOffers (fun offers => ?_) fun r offers => ⟨hdead, mayNotify_refl⟩
  refine wp_sweepNotices_exact hclears.2 hclears.1 ⟨fun _ n hn => ?_, fun n hn => ?_⟩
    fun notices hsub => ⟨hdead, fun n hn => Or.inl (hsub hn)⟩
  · cases hn
  · cases hn

/-- **An event of any kind.** -/
theorem expiring_step {l : SpoolEvent} (h : Expiring w) (hclears : l.Clears) :
    Expiring (spoolStep cfg w l) ∧ Announces cfg w l := by
  cases l with
  | callback e =>
    refine step_of_wp (I := fun w' => Expiring w' ∧ MayNotify (informs cfg w e) w w')
      ⟨h, mayNotify_refl⟩ fun hup _ => ?_
    refine wp_mono (hasTimers_callback (h hup) hclears) (fun _ w' hw' => ⟨fun _ => hw'.1, hw'.2⟩)
      fun r w' hw' => ⟨fun hup => absurd hup (statusAfter_ne_up r), hw'⟩
  | kill => exact ⟨fun hup => absurd hup (by simp [spoolStep]), mayNotify_refl⟩
  | shutdown env =>
    by_cases hdown : w.status = .down
    · simp only [Announces, spoolStep, if_pos hdown]
      exact ⟨h, mayNotify_refl⟩
    · simp only [Announces, spoolStep, if_neg hdown]
      have hended : MayNotify none w (w.exec (destroyNode env)) :=
        exec_of_all (wp_destroyNode (fun _ => mayNotify_refl) fun _ => mayNotify_refl)
          fun _ _ h => h
      exact ⟨fun hup => absurd hup (by simp), hended⟩
  | start env =>
    by_cases hdown : w.status = .down
    · simp only [Announces, spoolStep, if_pos hdown]
      exact expiring_boot hclears
    · simp only [Announces, spoolStep, if_neg hdown]
      exact ⟨h, mayNotify_refl⟩
  | put offer => exact ⟨h, mayNotify_refl⟩
  | take oid => exact ⟨h, mayNotify_refl⟩

/-- The events in which all timers of a process fire. -/
def World.fireAll (w : World) (env : Env) : List Event :=
  w.mem.noticeTimers.map fun nid => .expireNotice nid env

/-- **Once all of them have fired, nothing is left.** -/
theorem notices_of_fireAll (hdown : ∀ nid, env.unlinkNotice nid = .ok) (hup : w.status = .up)
    (h : HasTimers w) : (Run.run (step cfg) w (w.fireAll env)).disk.notices = [] := by
  unfold World.fireAll
  generalize htimers : w.mem.noticeTimers = timers
  induction timers generalizing w with
  | nil =>
    rw [HasTimers, htimers] at h
    exact List.eq_nil_iff_forall_not_mem.2 fun n hn => List.not_mem_nil (h n hn)
  | cons nid rest ih =>
    have hfired : step cfg w (.expireNotice nid env) = { w with
        mem := { w.mem with noticeTimers := rest }
        disk := { w.disk with notices := w.disk.notices.filter fun n =>
          (n.target, n.second) ≠ nid } } := by
      have henabled : enabled w (.expireNotice nid env) = true := by
        simp [enabled, htimers]
      have hruns : wp (expireNotice env nid) (fun _ w' => w' = { w with
          mem := { w.mem with noticeTimers := rest }
          disk := { w.disk with notices := w.disk.notices.filter fun n =>
            (n.target, n.second) ≠ nid } }) (fun _ _ => False) w := by
        simp only [expireNotice, wp_bind, wp_setMem, hdown nid, htimers, List.erase_cons_head]
        rfl
      obtain ⟨a, w', hw', rfl⟩ := returns_of_wp hruns
      rw [step, if_pos ⟨hup, henabled⟩, World.exec, callback, hw']
    rw [List.map_cons, Run.run_cons, hfired]
    refine ih hup (fun n hn => ?_) rfl
    obtain ⟨hn, hne⟩ := List.mem_filter.1 hn
    have hmem : n.nid ∈ w.mem.noticeTimers := h n hn
    rw [htimers] at hmem
    exact (List.mem_cons.1 hmem).resolve_left (of_decide_eq_true hne)

/-- **Every completion notice comes down again**, in every life of the
coordinator in which notices that are there can be removed and a start can
list them: in front of a running process each has a timer of that process,
so that none is left once these have fired, and each has been put up for a
RUNNING that was accepted. -/
theorem notices_expire (cfg : Config) (d : Disk) (ls : List SpoolEvent)
    (hclears : Run.Along (spoolStep cfg) (fun _ l => l.Clears) (World.off d) ls) :
    Run.Throughout (spoolStep cfg) (fun w => w.status = .up → HasTimers w ∧
        ∀ env : Env, (∀ nid, env.unlinkNotice nid = .ok) →
          (Run.run (step cfg) w (w.fireAll env)).disk.notices = []) (World.off d) ls ∧
      Run.Along (spoolStep cfg) (Announces cfg) (World.off d) ls := by
  have hfirst : Expiring (World.off d) := fun hup => by cases hup
  constructor
  · exact Run.throughout_of_along (fun w l h hl => (expiring_step h hl).1)
      (fun w h hup => ⟨h hup, fun env hdown => notices_of_fireAll hdown hup (h hup)⟩) hfirst hclears
  · exact Run.along_of_inv (fun w l h hl => (expiring_step h hl).1)
      (fun w l h hl => (expiring_step h hl).2) hfirst hclears

/-- The cluster reports that it runs, the process dies, and the next one
takes the notice down. -/
def diesNotifying : List SpoolEvent :=
  [.start sampleEnv, .callback (.frame sampleRunning sampleEnv), .kill, .start sampleEnv]

theorem notices_expire_restarted :
    Run.Throughout (spoolStep sampleConfig) (fun w => w.status = .up → HasTimers w ∧
        ∀ env : Env, (∀ nid, env.unlinkNotice nid = .ok) →
          (Run.run (step sampleConfig) w (w.fireAll env)).disk.notices = [])
        (World.off .fresh) diesNotifying ∧
      Run.Along (spoolStep sampleConfig) (Announces sampleConfig) (World.off .fresh)
        diesNotifying :=
  notices_expire sampleConfig .fresh diesNotifying
    ⟨⟨nofun, rfl⟩, trivial, trivial, ⟨nofun, rfl⟩, trivial⟩

end Coordinator

end VehicleStack
