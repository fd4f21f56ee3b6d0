import VehicleStack.Coordinator.Foretold
import VehicleStack.Coordinator.Locking
import Mathlib.Data.Finset.Dedup
import Mathlib.Data.Finset.Order
import Mathlib.Tactic.Linarith

/-!
# The update coordinator — whether a failed attempt is made again

Where `is_locked` is not what the active set asks for, somebody has to ask
for it. The timers do not: a tick at which nobody is overdue, no entry is
resolved and a notice is taken down makes no call, so an attempt that has
failed is repaired by none of them (`not_retried_of_idle`). The timeout
timer does not even run for an unlock, it is stopped before the attempt.
What is asked of a state (`Retried`) holds throughout the runs in which no
attempt fails and another timer happens to run while an unlock is under way
(`retried_of_attempts`).
-/

namespace VehicleStack

namespace Coordinator

open Callback SecOC

variable {cfg : Config} {env : Env} {w w' : World} {e : Event}

/-! ## Timers -/

/-- The timers of the coordinator. -/
inductive Timer
  | timeout
  | poll
  | notice (nid : Requester × ℤ)

def Timer.Runs (w : World) : Timer → Prop
  | .timeout => w.mem.timeoutTimer = true
  | .poll => w.mem.pollTimer = true
  | .notice nid => nid ∈ w.mem.noticeTimers

/-- The event is a tick of the timer. -/
def Timer.Ticks : Timer → Event → Prop
  | .timeout, .timeout _ _ => True
  | .poll, .poll _ _ => True
  | .notice nid, .expireNotice nid' _ => nid' = nid
  | _, _ => False

/-- What is believed is not what the active set asks for. -/
def Mismatch (w : World) : Prop := w.mem.isLocked ≠ !w.mem.activeEcus.isEmpty

/-- A tick that finds no call in flight, the needed service ready and the
mismatch makes the call. -/
def Repairs (cfg : Config) (w : World) (e : Event) : Prop :=
  w.mem.lockStatePending = false → Mismatch w → e.ReadyFor w.needs →
    (step cfg w e).calls = w.calls ++ [⟨w.needs, w.client⟩]

/-- **A mismatch is repaired**: a timer runs whose every tick repairs it. -/
def Retried (cfg : Config) (w : World) : Prop :=
  w.status = .up → Mismatch w → ∃ timer : Timer, timer.Runs w ∧
    ∀ e, timer.Ticks e → Repairs cfg w e

/-- Where the event looks at the lock, it finds the service `label` is. -/
def LooksFind (cfg : Config) (w : World) (label : Label) : Event → Prop
  | .poll now envs => ∀ p ∈ w.mem.pending.entries, decision cfg now (envs p.1) p.2 ≠ none →
      (envs p.1).ready label = true
  | e => e.ReadyFor label

/-- **No attempt fails.** A response reports what the active set asks for, or
changes nothing where it is believed already. Where any other event will
leave the two at odds, the service that is needed is ready, unless a call is
in flight; and where it is the unlock that is needed, another timer will
run. -/
def AttemptsHold (cfg : Config) (w : World) (e : Event) : Prop :=
  w.status = .up → enabled w e = true →
    match e with
    | .serviceDone label success =>
      (if success = some true then decide (label = .lock) else w.mem.isLocked) =
        !w.mem.activeEcus.isEmpty
    | e => (Empties cfg w e ↔ w.mem.isLocked = true) →
        (w.mem.lockStatePending = false → LooksFind cfg w w.needs e) ∧
          (w.mem.isLocked = true → LeavesTimer cfg w e)

theorem mismatch_iff : Mismatch w ↔ w.mem.activeEcus.isEmpty = w.mem.isLocked := by
  unfold Mismatch
  cases w.mem.isLocked <;> cases w.mem.activeEcus.isEmpty <;> simp

/-! ## No tick is bound to make a call -/

/-- There is a time before all of these. -/
theorem exists_before (ts : List ℚ) : ∃ now, ∀ t ∈ ts, now < t := by
  obtain ⟨bound, hbound⟩ := (ts.map Neg.neg).toFinset.exists_le
  refine ⟨-bound - 1, fun t ht => ?_⟩
  have hle : -t ≤ bound := hbound _ (List.mem_toFinset.2 (List.mem_map.2 ⟨t, ht, rfl⟩))
  linarith

/-- So there is one at which nobody is overdue. -/
theorem exists_quiet (active : Dict Ecu ℚ) : ∃ now, ∀ ecu, ¬ Overdue cfg now active ecu := by
  obtain ⟨first, hfirst⟩ := exists_before (active.entries.map Prod.snd)
  refine ⟨first + cfg.timeoutSec, fun ecu hover => ?_⟩
  obtain ⟨t, ht, hlt⟩ := hover
  have hbefore := hfirst t (List.mem_map.2 ⟨(ecu, t), Dict.mem_entries.2 ht, rfl⟩)
  linarith

/-- And one before every deadline. -/
theorem exists_early (pending : Dict Requester Pending) :
    ∃ now : ℚ, ∀ n p, pending.get? n = some p → now < p.deadline := by
  obtain ⟨now, hnow⟩ := exists_before (pending.entries.map fun x => x.2.deadline)
  exact ⟨now, fun n p hp => hnow _ (List.mem_map.2 ⟨(n, p), Dict.mem_entries.2 hp, rfl⟩)⟩

/-- **A check of the timeout that finds nobody overdue makes no call.** -/
theorem calls_timeout_quiet {now : ℚ} (h : ∀ ecu, ¬ Overdue cfg now w.mem.activeEcus ecu) :
    (step cfg w (.timeout now env)).calls = w.calls := by
  refine step_of_wp (I := fun w' => w'.calls = w.calls) rfl fun _ _ => ?_
  have hnone : (w.mem.activeEcus.entries.filter fun p => cfg.timeoutSec < now - p.2).map
      Prod.fst = [] := List.eq_nil_iff_forall_not_mem.2 fun ecu hmem => h ecu (mem_expired.1 hmem)
  simp only [callback, timeoutCheck, wp_bind, wp_get, hnone]
  rfl

/-- **Nor does a poll that resolves nothing.** -/
theorem calls_poll_quiet {now : ℚ} (hwired : Wired w.mem.pending)
    (h : ∀ n p, w.mem.pending.get? n = some p → now < p.deadline) :
    (step cfg w (.poll now fun _ => {})).calls = w.calls := by
  refine step_of_wp (I := fun w' => w'.calls = w.calls) rfl fun _ _ => ?_
  refine wp_pollApprovals (I := fun w' => w'.calls = w.calls) hwired rfl
    (fun n p w' hp hsame hI => ?_) fun w' hI => ⟨hI, fun _ => hI⟩
  refine wp_pollEntry (hsame.pending.trans hp) (fun _ => hI) (fun approved hdec => ?_)
    fun _ _ => hI
  have hwait : decision cfg now {} p = none := if_neg (not_le.2 (h n p hp))
  rw [hwait] at hdec
  cases hdec

/-- **Nor does a notice that is taken down.** -/
theorem calls_expireNotice {nid : Requester × ℤ} :
    (step cfg w (.expireNotice nid env)).calls = w.calls :=
  step_of_wp (I := fun w' => w'.calls = w.calls) rfl fun _ _ =>
    wp_expireNotice (fun _ _ => rfl) fun _ _ => rfl

/-- **A mismatch with no call in flight is left to none of the timers.** -/
theorem not_retried_of_idle (hup : w.status = .up) (hwired : Wired w.mem.pending)
    (hmismatch : Mismatch w) (hidle : w.mem.lockStatePending = false) : ¬ Retried cfg w := by
  have hsilent : ∀ {e : Event}, Repairs cfg w e → e.ReadyFor w.needs →
      (step cfg w e).calls ≠ w.calls := by
    intro e hrepairs hready hcalls
    have hlen := congrArg List.length (hrepairs hidle hmismatch hready)
    rw [hcalls, List.length_append, List.length_singleton] at hlen
    omega
  intro h
  obtain ⟨timer, -, hticks⟩ := h hup hmismatch
  -- each timer has a tick that comes too early for anything to be done
  cases timer with
  | timeout =>
    obtain ⟨now, hquiet⟩ : ∃ now, ∀ ecu, ¬ Overdue cfg now w.mem.activeEcus ecu :=
      exists_quiet _
    exact hsilent (hticks (.timeout now {}) trivial) rfl (calls_timeout_quiet hquiet)
  | poll =>
    obtain ⟨now, hearly⟩ := exists_early w.mem.pending
    exact hsilent (hticks (.poll now fun _ => {}) trivial) (fun _ => rfl)
      (calls_poll_quiet hwired hearly)
  | notice nid => exact hsilent (hticks (.expireNotice nid {}) rfl) rfl calls_expireNotice

/-! ## While no attempt fails -/

/-- **What such a run keeps**: a mismatch has its call in flight, and a
timer beside it. -/
structure Attempting (w : World) : Prop where
  wired : Wired w.mem.pending
  idle : w.mem.lockStatePending = false → ¬ Mismatch w
  timed : w.mem.lockStatePending = true → w.mem.isLocked = false → w.mem.timeoutTimer = true
  other : w.mem.isLocked = true → w.mem.activeEcus.isEmpty = true → OtherTimer w

theorem Attempting.retried (h : w.status = .up → Attempting w) : Retried cfg w := by
  intro hup hmismatch
  have hbusy : w.mem.lockStatePending = true := by
    by_contra hidle
    exact (h hup).idle (by simpa using hidle) hmismatch
  have hrepairs : ∀ e, Repairs cfg w e := by
    intro e hidle
    rw [hbusy] at hidle
    cases hidle
  cases hlocked : w.mem.isLocked with
  | false => exact ⟨.timeout, (h hup).timed hbusy hlocked, fun e _ => hrepairs e⟩
  | true =>
    have hempty : w.mem.activeEcus.isEmpty = true := (mismatch_iff.1 hmismatch).trans hlocked
    rcases (h hup).other hlocked hempty with hpoll | hnotice
    · exact ⟨.poll, hpoll, fun e _ => hrepairs e⟩
    · obtain ⟨nid, hnid⟩ := List.exists_mem_of_ne_nil _ hnotice
      exact ⟨.notice nid, hnid, fun e _ => hrepairs e⟩

/-- A lock step whose attempt finds the service it needs. -/
theorem Attempting.step {ready : Prop} (h : Attempting w) (hwired : Wired w'.mem.pending)
    (hstep : LockStep ready w w')
    (hready : Mismatch w' → w.mem.lockStatePending = false → ready)
    (hother : Mismatch w' → w.mem.isLocked = true → OtherTimer w') : Attempting w' := by
  have hpart := hstep.part
  have hlocked : w'.mem.isLocked = w.mem.isLocked := hpart.1
  refine ⟨hwired, fun hidle hmismatch => ?_, fun hbusy hopen => ?_, fun hheld hempty => ?_⟩
  · rcases hstep with ⟨hactive, hlocked, hpend, -⟩ | ⟨-, hsynced⟩
    · refine h.idle (hpend ▸ hidle) ?_
      unfold Mismatch at hmismatch ⊢
      rwa [hactive, hlocked] at hmismatch
    · have hidle₀ : w.mem.lockStatePending = false := by
        obtain ⟨-, -, ⟨hpend, -⟩ | ⟨hpend, -⟩⟩ := hpart
        · exact hpend ▸ hidle
        · exact hpend
      exact hmismatch (hsynced (hready hmismatch hidle₀) hidle).1
  · -- the call was in flight before, or this step has made it and started the timer first
    obtain ⟨-, -, ⟨hpend, -, htimer⟩ | ⟨-, -, label, -, hlabel, htimer⟩⟩ := hpart
    · have hbusy₀ : w.mem.lockStatePending = true := hpend ▸ hbusy
      exact (htimer hbusy₀).trans (h.timed hbusy₀ (hlocked ▸ hopen))
    · refine htimer ?_
      rw [← hlocked, hopen] at hlabel
      cases label with
      | lock => rfl
      | unlock => cases hlabel
  · exact hother (mismatch_iff.2 (hempty.trans hheld.symm)) (hlocked ▸ hheld)

/-- A response that settles the matter. -/
theorem Attempting.answered {locked : Bool} (h : Attempting w)
    (hfits : locked = !w.mem.activeEcus.isEmpty) :
    Attempting { w with mem := { w.mem with lockStatePending := false, isLocked := locked } } := by
  refine ⟨h.wired, fun _ hmismatch => hmismatch hfits, (fun hbusy => by cases hbusy),
    fun hheld hempty => ?_⟩
  have hempty' : w.mem.activeEcus.isEmpty = true := hempty
  rw [hempty'] at hfits
  rw [show locked = true from hheld] at hfits
  cases hfits

/-- **A callback but a response takes a lock step**, as good as its looks. -/
theorem lockStep_found (hwired : Wired w.mem.pending) (hresp : e.isResponse = false) :
    wp (callback cfg e) (fun _ => LockStep (LooksFind cfg w w.needs e) w) (fun _ _ => True) w := by
  cases e with
  | poll now envs =>
    refine wp_pollApprovals (I := LockStep (LooksFind cfg w w.needs (.poll now envs)) w) hwired
      (Or.inl .refl) (fun name p w' hp hw' h => ?_) fun _ h => ⟨h, fun _ => h⟩
    refine wp_pollEntry (hw'.pending.trans hp) (fun _ => h) (fun approved hdec => ?_) fun _ _ =>
      trivial
    have hlook : LooksFind cfg w w.needs (.poll now envs) → (envs name).ready w.needs = true :=
      fun hfind => hfind (name, p) (Dict.mem_entries.2 hp) (by rw [hdec]; nofun)
    exact wp_resolve (hw'.pending.trans hp) (fun _ _ _ _ _ _ => wp_mono
      (wp_updateLockState_step hlook h.part) (fun _ _ h => h) fun _ _ _ => trivial)
      fun _ _ _ _ => trivial
  | _ => exact wp_mono (lockStep_callback hwired hresp) (fun _ _ h => h) fun _ _ _ => trivial

theorem attempting_step (h : w.status = .up → Attempting w) (hattempts : AttemptsHold cfg w e)
    (hret : (step cfg w e).status = .up) : Attempting (step cfg w e) := by
  by_cases hrun : w.status = .up ∧ enabled w e = true
  · obtain ⟨hup, hen⟩ := hrun
    have hw := h hup
    have hwired : Wired (step cfg w e).mem.pending := wired_step (fun _ => hw.wired) hret
    cases hresp : e.isResponse with
    | true =>
      cases e with
      | serviceDone label success =>
        rw [step_serviceDone hup]
        exact hw.answered (hattempts hup hen)
      | _ => cases hresp
    | false =>
      have hstep : LockStep (LooksFind cfg w w.needs e) w (step cfg w e) :=
        step_of_returns (Or.inl .refl) (fun _ => lockStep_found hw.wired hresp) hret
      have htold : Foretold cfg w e (step cfg w e) := foretold_step hw.wired hup hen hret
      have hlocked : (step cfg w e).mem.isLocked = w.mem.isLocked := hstep.part.1
      have hholds : Mismatch (step cfg w e) → (w.mem.lockStatePending = false →
          LooksFind cfg w w.needs e) ∧ (w.mem.isLocked = true → LeavesTimer cfg w e) := by
        intro hmismatch
        have hodds : Empties cfg w e ↔ w.mem.isLocked = true := by
          rw [← htold.nobody, mismatch_iff.1 hmismatch, hlocked]
        cases e with
        | serviceDone label success => cases hresp
        | _ => exact hattempts hup hen hodds
      exact hw.step hwired hstep (fun hm => (hholds hm).1) fun hm hheld =>
        htold.timer.2 ((hholds hm).2 hheld)
  · have hidle : step cfg w e = w := if_neg hrun
    rw [hidle] at hret ⊢
    exact h hret

theorem attempting_launch {d : Disk} : Attempting (World.launch d env) := by
  have hmem : (World.launch d env).mem = .init := launch_mem
  refine ⟨wired_launch, fun _ hmismatch => ?_, fun hbusy => ?_, fun hheld => ?_⟩
  · unfold Mismatch at hmismatch
    rw [hmem] at hmismatch
    exact hmismatch rfl
  · rw [hmem] at hbusy
    cases hbusy
  · rw [hmem] at hheld
    cases hheld

/-- **In every run in which no attempt fails, every mismatch is
repaired.** -/
theorem retried_of_attempts (cfg : Config) (d : Disk) (env : Env) (es : List Event)
    (h : Run.Along (step cfg) (AttemptsHold cfg) (World.launch d env) es) :
    Run.Throughout (step cfg) (Retried cfg) (World.launch d env) es :=
  Run.throughout_of_along (I := fun w => w.status = .up → Attempting w)
    (fun _ _ hw hattempts => attempting_step hw hattempts) (fun _ hw => Attempting.retried hw)
    (fun _ => attempting_launch) h

/-- The cluster is let through with no head unit up, and reports: the unlock
call is made while its notice stands. -/
def answeredAttempts : List Event :=
  [.frame sampleRequest {}, .serviceDone .lock (some true), .frame sampleRunning {},
    .serviceDone .unlock (some true)]

theorem retried_of_attempts_once : Run.Throughout (step sampleConfig) (Retried sampleConfig)
    (World.launch .fresh {}) answeredAttempts := by
  refine retried_of_attempts sampleConfig .fresh {} _ ⟨fun _ _ _ => ⟨fun _ => rfl, fun h => ?_⟩,
    fun _ _ => by decide +kernel, fun _ _ _ => ⟨fun _ => rfl, fun _ => ?_⟩,
    fun _ _ => by decide +kernel, trivial⟩
  · exact absurd h (by decide +kernel)
  · have hrunning : messageOn sampleConfig (Run.run (step sampleConfig) (World.launch .fresh {})
        (answeredAttempts.take 2)) sampleRunning {} = some ⟨.cluster, .running, 1, 1⟩ := by
      decide +kernel
    change LeavesTimer sampleConfig (Run.run (step sampleConfig) (World.launch .fresh {})
      (answeredAttempts.take 2)) (.frame sampleRunning {})
    simp only [LeavesTimer, hrunning]
    exact Or.inr ⟨rfl, by decide⟩

/-- The lock call is refused. -/
def refusedLock : List Event := [.selfStart {}, .serviceDone .lock (some false)]

/-- The unlock service is not ready when the self-update ends. -/
def missedUnlock : List Event :=
  [.selfStart {}, .serviceDone .lock (some true), .selfDone { ready := fun _ => false }]

/-- **One failed attempt is enough**: of the lock, while its timer runs and
makes no call, and of the unlock, with no timer left. -/
theorem failed_attempts_stay :
    ¬ Run.Throughout (step sampleConfig) (Retried sampleConfig) (World.launch .fresh {})
        refusedLock ∧
      ¬ Run.Throughout (step sampleConfig) (Retried sampleConfig) (World.launch .fresh {})
        missedUnlock := by
  have hwired : ∀ {w : World}, w.mem.pending.entries = [] → Wired w.mem.pending := by
    intro w hnone n p hp
    have hmem := Dict.mem_entries.2 hp
    rw [hnone] at hmem
    cases hmem
  refine ⟨fun h => ?_, fun h => ?_⟩
  · exact not_retried_of_idle (by decide +kernel) (hwired (by decide +kernel))
      (mismatch_iff.2 (by decide +kernel)) (by decide +kernel) h.last
  · exact not_retried_of_idle (by decide +kernel) (hwired (by decide +kernel))
      (mismatch_iff.2 (by decide +kernel)) (by decide +kernel) h.last

end Coordinator

end VehicleStack
