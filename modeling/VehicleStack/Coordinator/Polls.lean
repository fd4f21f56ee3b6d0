import VehicleStack.Coordinator.Clocks
import VehicleStack.Coordinator.Counters
import VehicleStack.Coordinator.Faults
import VehicleStack.Coordinator.InStep

/-!
# The update coordinator — no pending approval is forgotten

A requester that is pending is looked at by a timer, and a tick of it deals
with every entry that has an answer or is out of time: one verdict frame is
handed to the socket for each, the answer where there is one and the default
where there is none, and what is left is left as it was (`PollsWell`). Nothing stops a tick on
the way: the answers are text, and every verdict it owes can be drawn
(`Backed`). So it is in every life of the coordinator (`none_forgotten`).
-/

namespace VehicleStack

namespace Coordinator

open Callback SecOC

variable {cfg : Config} {env : Env} {w w' : World} {e : Event} {name : Requester} {now : ℚ}
  {envs : Requester → Env} {obs : List Obs}

/-! ## What a tick comes to -/

/-- What a requester is told, and for which slot. -/
def answersTo (n : Requester) (obs : List Obs) : List (Bool × UInt8) :=
  (verdictsTo n obs).map fun v => (v.1, v.2.1)

/-- **A tick that forgets nobody**, from `w` to `w'` with `frames` handed to
the socket. -/
structure PollsWell (cfg : Config) (now : ℚ) (envs : Requester → Env) (w w' : World)
    (frames : List (ℕ × Bytes)) : Prop where
  /-- Who is left has neither an answer nor run out of time, and is left as
  it was. -/
  left : ∀ n p, w'.mem.pending.get? n = some p →
    w.mem.pending.get? n = some p ∧ (envs n).verdictFile = none ∧ now < p.deadline
  /-- And all of these are left. -/
  kept : ∀ n p, w.mem.pending.get? n = some p → (envs n).verdictFile = none → now < p.deadline →
    w'.mem.pending.get? n = some p
  /-- A driver's answer is the one verdict sent, in time or not. -/
  answered : ∀ n p, w.mem.pending.get? n = some p → (envs n).verdictFile ≠ none →
    ∃ approved fv, readVerdict (envs n) w = .ok (some approved) w ∧
      framesTo n frames = [verdictFrame cfg n approved p.slot fv]
  /-- Without one, an entry out of time is sent the default. -/
  defaulted : ∀ n p, w.mem.pending.get? n = some p → (envs n).verdictFile = none →
    p.deadline ≤ now → ∃ fv,
      framesTo n frames = [verdictFrame cfg n (decide (cfg.onNoVerdict = .approve)) p.slot fv]
  /-- Nobody else is sent anything. -/
  others : ∀ n, w'.mem.pending.get? n = w.mem.pending.get? n → framesTo n frames = []
  timer : w'.mem.pollTimer = true ↔ ∃ n, n ∈ w'.mem.pending

/-- What is asked of a tick of a running process' timer: no exception
leaves it, and it forgets nobody, unless the process dies. -/
def Attends (cfg : Config) (w : World) : SpoolEvent → Prop
  | .callback (.poll now envs) => w.status = .up → w.mem.pollTimer = true →
      (∀ why, (step cfg w (.poll now envs)).status ≠ .raised why) ∧
      ((step cfg w (.poll now envs)).status = .up → ∃ frames,
        (step cfg w (.poll now envs)).bus = w.bus ++ frames ∧
          PollsWell cfg now envs w (step cfg w (.poll now envs)) frames)
  | _ => True

/-- The operations on counters and the socket go through, and the verdict
files read are text. -/
def SpoolEvent.Serves : SpoolEvent → Prop
  | .callback e => e.Serves
  | _ => True

/-! ## Entry by entry -/

/-- Who is told something gets one frame that says it. -/
theorem exists_framesTo {n : Requester} {approved : Bool} {slot : UInt8}
    (h : answersTo n obs = [(approved, slot)]) :
    ∃ fv, framesTo n (framesOf cfg obs) = [verdictFrame cfg n approved slot fv] := by
  obtain ⟨v, hv, heq⟩ := List.map_eq_singleton_iff.1 h
  cases heq
  exact ⟨v.2.2, by rw [framesTo_framesOf, hv, List.map_singleton]⟩

/-- And who is told nothing gets none. -/
theorem framesTo_eq_nil {n : Requester} (h : answersTo n obs = []) :
    framesTo n (framesOf cfg obs) = [] := by
  rw [framesTo_framesOf, List.map_eq_nil_iff.1 h, List.map_nil]

theorem answersTo_append {n : Requester} {obs' : List Obs} :
    answersTo n (obs ++ obs') = answersTo n obs ++ answersTo n obs' := by
  rw [answersTo, verdictsTo_append, List.map_append]
  rfl

/-- A verdict, built and sent. -/
theorem answersTo_sent {n : Requester} {did : ℕ} {payload : Bytes} {fv : ℤ} {approved : Bool}
    {slot : UInt8} :
    answersTo n [.built did payload fv, .verdict name approved slot fv] =
      if name = n then [(approved, slot)] else [] := by
  simp only [answersTo, verdictsTo, List.filterMap_cons, List.filterMap_nil, Obs.verdictTo]
  by_cases hn : name = n
  · simp only [if_pos hn, List.map_cons, List.map_nil]
  · simp only [if_neg hn, List.map_nil]

/-- What a tick at `now` makes of a requester. -/
def due (cfg : Config) (now : ℚ) (envs : Requester → Env) (w : World) (n : Requester) :
    Option (Bool × UInt8) :=
  (w.mem.pending.get? n).bind fun p => (decision cfg now (envs n) p).map fun a => (a, p.slot)

theorem due_of_pending {p : Pending} (hp : w.mem.pending.get? name = some p) :
    due cfg now envs w name = (decision cfg now (envs name) p).map fun a => (a, p.slot) := by
  rw [due, hp, Option.bind_some]

/-- **What a tick has come to** with `rest` still to look at. -/
structure Dealt (cfg : Config) (now : ℚ) (envs : Requester → Env) (w : World)
    (rest : List Requester) (obs : List Obs) (w' : World) : Prop where
  trace : w'.trace = w.trace ++ obs
  nodup : rest.Nodup
  timer : w'.mem.pollTimer = w.mem.pollTimer
  pending : ∀ n, w'.mem.pending.get? n =
    if (¬ n ∈ rest) ∧ (due cfg now envs w n).isSome then none else w.mem.pending.get? n
  sent : ∀ n, answersTo n obs = if n ∈ rest then [] else (due cfg now envs w n).toList

/-- An entry that waits on. -/
theorem Dealt.wait {rest : List Requester} (h : Dealt cfg now envs w (name :: rest) obs w')
    (hdue : due cfg now envs w name = none) : Dealt cfg now envs w rest obs w' where
  trace := h.trace
  nodup := h.nodup.of_cons
  timer := h.timer
  pending n := by
    rw [h.pending n]
    by_cases hn : n = name
    · rw [hn, hdue]
      simp
    · simp [hn]
  sent n := by
    rw [h.sent n]
    by_cases hn : n = name
    · rw [hn, hdue]
      simp
    · simp [hn]

/-- An entry that is answered. -/
theorem Dealt.answer {rest : List Requester} {w'' : World} {did : ℕ} {payload : Bytes} {fv : ℤ}
    {approved : Bool} {slot : UInt8} (h : Dealt cfg now envs w (name :: rest) obs w')
    (hdue : due cfg now envs w name = some (approved, slot))
    (htrace : w''.trace = w'.trace ++ [.built did payload fv] ++ [.verdict name approved slot fv])
    (htimer : w''.mem.pollTimer = w'.mem.pollTimer)
    (hpending : w''.mem.pending = w'.mem.pending.erase name) :
    Dealt cfg now envs w rest
      (obs ++ [.built did payload fv, .verdict name approved slot fv]) w'' where
  trace := by
    rw [htrace, h.trace]
    simp only [List.append_assoc, List.cons_append, List.nil_append]
  nodup := h.nodup.of_cons
  timer := htimer.trans h.timer
  pending n := by
    have hname : ¬ name ∈ rest := (List.nodup_cons.1 h.nodup).1
    rw [hpending, Dict.get?_erase]
    by_cases hn : n = name
    · subst hn
      rw [if_pos rfl, if_pos ⟨hname, by rw [hdue]; rfl⟩]
    · rw [if_neg hn, h.pending n]
      simp [hn]
  sent n := by
    have hname : ¬ name ∈ rest := (List.nodup_cons.1 h.nodup).1
    rw [answersTo_append, answersTo_sent, h.sent n]
    by_cases hn : n = name
    · subst hn
      rw [if_pos List.mem_cons_self, if_pos rfl, if_neg hname, hdue]
      rfl
    · simp [hn, Ne.symm hn]

/-- A pass of the tick. -/
theorem wp_pollEntry_dealt {rest : List Requester} {p : Pending}
    (hp : w.mem.pending.get? name = some p) (hp' : w'.mem.pending.get? name = some p)
    (h : Dealt cfg now envs w (name :: rest) obs w') :
    wp (pollEntry cfg now (envs name) name) (fun _ w'' => ∃ obs, Dealt cfg now envs w rest obs w'')
      (fun _ _ => True) w' := by
  have hdue : due cfg now envs w name =
      (decision cfg now (envs name) p).map fun a => (a, p.slot) := due_of_pending hp
  refine wp_pollEntry hp' (fun hwait => ⟨obs, h.wait ?_⟩) (fun approved hdec => ?_)
    fun _ _ => trivial
  · rw [hdue, hwait, Option.map_none]
  · rw [hdec, Option.map_some] at hdue
    refine wp_resolve hp' (fun store bus payload fv offers _ => ?_) fun _ _ _ _ => trivial
    exact wp_updateLockState (fun _ _ _ => ⟨_, h.answer hdue rfl rfl rfl⟩) fun _ _ _ => trivial

/-- The answer in a readable file. -/
theorem readVerdict_of_readable (hread : VerdictReadable env) (hfile : env.verdictFile ≠ none) :
    ∃ approved, readVerdict env w = .ok (some approved) w ∧ answerOf env = some approved := by
  obtain ⟨content, hcontent⟩ := Option.ne_none_iff_exists'.1 hfile
  obtain ⟨text, htext⟩ := Option.isSome_iff_exists.1 (hread content hcontent)
  refine ⟨verdictOfWord (Text.lower (Text.strip text)), ?_, ?_⟩
  · rw [readVerdict, hcontent]
    simp only [htext]
    rfl
  · rw [answerOf, hcontent, Option.bind_some, htext, Option.map_some]

theorem answerOf_of_no_file (hfile : env.verdictFile = none) : answerOf env = none := by
  rw [answerOf, hfile, Option.bind_none]

/-- **Everybody dealt with is a tick that forgets nobody.** -/
theorem Dealt.pollsWell (h : Dealt cfg now envs w [] obs w')
    (hread : ∀ n, VerdictReadable (envs n)) {w'' : World}
    (hpending : w''.mem.pending = w'.mem.pending)
    (htimer : w''.mem.pollTimer = true ↔ ∃ n, n ∈ w''.mem.pending) :
    PollsWell cfg now envs w w'' (framesOf cfg obs) := by
  -- with nobody left to look at, who had something due is gone, and nobody else
  have hleft : ∀ n, w''.mem.pending.get? n =
      if (due cfg now envs w n).isSome then none else w.mem.pending.get? n := fun n => by
    rw [hpending, h.pending n]
    simp
  have hsent : ∀ n, answersTo n obs = (due cfg now envs w n).toList := fun n => by
    rw [h.sent n]
    simp
  have hanswer : ∀ n, (envs n).verdictFile ≠ none → ∃ approved,
      readVerdict (envs n) w = .ok (some approved) w ∧ answerOf (envs n) = some approved :=
    fun n hfile => readVerdict_of_readable (hread n) hfile
  refine ⟨fun n p hp => ?_, fun n p hp hfile hearly => ?_, fun n p hp hfile => ?_,
    fun n p hp hfile hlate => ?_, fun n hsame => ?_, htimer⟩
  · rw [hleft n] at hp
    split at hp
    · cases hp
    · rename_i hundue
      rw [due_of_pending hp, Option.isSome_map] at hundue
      have hfile : (envs n).verdictFile = none := by
        by_contra hfile
        obtain ⟨approved, -, hans⟩ := hanswer n hfile
        simp [decision, hans] at hundue
      rw [decision_of_unanswered (answerOf_of_no_file hfile)] at hundue
      refine ⟨hp, hfile, not_le.1 fun hle => hundue ?_⟩
      rw [if_pos hle]
      rfl
  · rw [hleft n, due_of_pending hp, decision_of_unanswered (answerOf_of_no_file hfile),
      if_neg (not_le.2 hearly), Option.map_none]
    exact hp
  · obtain ⟨approved, hreads, hans⟩ := hanswer n hfile
    have htold : answersTo n obs = [(approved, p.slot)] := by
      rw [hsent n, due_of_pending hp]
      simp [decision, hans]
    obtain ⟨fv, hframes⟩ := exists_framesTo htold
    exact ⟨approved, fv, hreads, hframes⟩
  · refine exists_framesTo ?_
    rw [hsent n, due_of_pending hp, decision_of_unanswered (answerOf_of_no_file hfile),
      if_pos hlate]
    rfl
  · refine framesTo_eq_nil ?_
    rw [hleft n] at hsame
    rw [hsent n]
    cases hdue : due cfg now envs w n with
    | none => rfl
    | some v =>
      rw [hdue, Option.isSome_some, if_pos rfl] at hsame
      rw [due, ← hsame, Option.bind_none] at hdue
      cases hdue

/-- **A tick forgets nobody**, unless it stops on the way. -/
theorem wp_pollApprovals_well (hwired : Wired w.mem.pending)
    (hread : ∀ n, VerdictReadable (envs n)) (htimer : w.mem.pollTimer = true) :
    wp (pollApprovals cfg now envs) (fun _ w' => ∃ obs, w'.trace = w.trace ++ obs ∧
      PollsWell cfg now envs w w' (framesOf cfg obs)) (fun _ _ => True) w := by
  have hfirst : Dealt cfg now envs w w.mem.pending.keys [] w := by
    refine ⟨(List.append_nil _).symm, Dict.keys_nodup, rfl, fun n => ?_, fun n => ?_⟩
    · split
      · rename_i h
        exact Dict.get?_eq_none.2 h.1
      · rfl
    · split
      · rfl
      · rename_i hn
        rw [due, Dict.get?_eq_none.2 hn]
        rfl
  refine wp_pollApprovals_each (I := fun rest w' => ∃ obs, Dealt cfg now envs w rest obs w') hwired
    ⟨[], hfirst⟩ (fun n rest p w' hp hsame hI => ?_) fun w' hI => ?_
  · obtain ⟨obs, hI⟩ := hI
    exact wp_pollEntry_dealt hp (hsame.pending.trans hp) hI
  · obtain ⟨obs, hI⟩ := hI
    refine ⟨fun hsome => ⟨obs, hI.trace, hI.pollsWell hread rfl ?_⟩,
      fun hempty => ⟨obs, hI.trace, hI.pollsWell hread rfl ?_⟩⟩
    · -- the timer is stopped where the table has become empty, and only there
      refine iff_of_true (hI.timer.trans htimer) (by_contra fun hnone => ?_)
      have hempty : w'.mem.pending.isEmpty = true :=
        Dict.isEmpty_iff.2 fun n hn => hnone ⟨n, hn⟩
      rw [hempty] at hsome
      cases hsome
    · refine iff_of_false (fun h => by cases h) fun hsome => ?_
      obtain ⟨n, hn⟩ := hsome
      exact Dict.isEmpty_iff.1 hempty n hn

/-! ## Lives -/

/-- **What every life keeps.** -/
structure Attentive (cfg : Config) (w : World) : Prop where
  backed : Backed w
  onBus : OnBus cfg w
  polled : w.status = .up → Polled w

theorem attentive_of_down (h : Backed w) (hbus : OnBus cfg w) (hdown : w.status = .down) :
    Attentive cfg w :=
  ⟨h, hbus, fun hup => by cases hdown.symm.trans hup⟩

/-- A start has nobody pending. -/
theorem attentive_boot (h : Backed w) (hbus : Carried cfg w) : Attentive cfg (w.boot env) :=
  boot_of_all fun _ _ _ _ => ⟨h.same rfl fun _ hn => absurd hn Dict.not_mem_empty,
    ⟨hbus, wired_empty⟩, fun _ _ hn => absurd hn Dict.not_mem_empty⟩

theorem onBus_destroyNode (h : OnBus cfg w) : OnBus cfg (w.exec (destroyNode env)) :=
  exec_of_all (wp_destroyNode (fun _ => ⟨h.carried, wired_empty⟩) fun _ => ⟨h.carried, h.wired⟩)
    fun _ _ h' => ⟨h'.carried, h'.wired⟩

/-- **Nor does the bus part from the trace in between.** -/
theorem onBus_spoolStep (h : OnBus cfg w) {l : SpoolEvent} : OnBus cfg (spoolStep cfg w l) := by
  have hsame : ∀ {w' : World}, OnBus cfg w' → ∀ status disk,
      OnBus cfg { w' with status := status, disk := disk } := fun h _ _ => ⟨h.carried, h.wired⟩
  cases l with
  | callback e => exact onBus_step h
  | kill => exact hsame h _ w.disk
  | shutdown env =>
    simp only [spoolStep]
    split
    · exact h
    · exact hsame (onBus_destroyNode h) _ _
  | start env =>
    simp only [spoolStep]
    split
    · exact onBus_boot h.carried
    · exact h
  | put offer => exact hsame h _ _
  | take oid => exact hsame h _ _

theorem backed_destroyNode (h : Backed w) : Backed (w.exec (destroyNode env)) :=
  exec_of_all (wp_destroyNode (fun _ => h.same rfl fun _ hn => absurd hn Dict.not_mem_empty)
    fun _ => h.same rfl fun _ => id) fun _ _ h' => h'.same rfl fun _ => id

theorem attentive_step (h : Attentive cfg w) (l : SpoolEvent) (hserves : l.Serves) :
    Attentive cfg (spoolStep cfg w l) := by
  have hbus : OnBus cfg (spoolStep cfg w l) := onBus_spoolStep h.onBus
  cases l with
  | callback e =>
    exact ⟨backed_step h.backed (fun _ => h.onBus.wired) hserves, hbus,
      polled_step (fun _ => h.onBus.wired) h.polled⟩
  | kill => exact attentive_of_down (h.backed.same rfl fun _ => id) hbus rfl
  | shutdown env =>
    by_cases hdown : w.status = .down
    · rw [spoolStep, if_pos hdown]
      exact h
    · rw [spoolStep, if_neg hdown] at hbus ⊢
      exact attentive_of_down ((backed_destroyNode h.backed).same rfl fun _ => id) hbus rfl
  | start env =>
    simp only [spoolStep]
    split
    · exact attentive_boot h.backed h.onBus.carried
    · exact h
  | put offer => exact ⟨h.backed.same rfl fun _ => id, hbus, h.polled⟩
  | take oid => exact ⟨h.backed.same rfl fun _ => id, hbus, h.polled⟩

/-- **A tick of a running process' timer.** -/
theorem attends_poll (h : Attentive cfg w)
    (hserves : ∀ n, (envs n).Serves ∧ VerdictReadable (envs n)) :
    Attends cfg w (.callback (.poll now envs)) := by
  intro hup htimer
  have hwired := h.onBus.wired
  have hsurvives : Survives cfg w (.poll now envs) := fun n _ p hp =>
    ⟨(hserves n).2, fun _ => sendSound_of_backed h.backed (hserves n).1 hp (hwired n p hp).1⟩
  refine ⟨not_raised_of_survives hup hwired hsurvives, fun hret => ?_⟩
  rw [step_poll hup (h.polled hup)] at hret
  obtain ⟨obs, htrace, hwell⟩ :=
    exec_of_returns (wp_pollApprovals_well hwired (fun n => (hserves n).2) htimer) hret
  rw [← step_poll hup (h.polled hup)] at htrace hwell
  exact ⟨framesOf cfg obs, bus_of_entered h.onBus htrace, hwell⟩

/-- **No pending approval is forgotten**, in any life of the coordinator
over counters nobody has written to before it, as long as what it reads is
there and its verdicts go out: who is pending is polled, and every tick
forgets nobody. The frames are those handed to the socket. -/
theorem none_forgotten (cfg : Config) (d : Disk) (hfresh : d.store = .fresh)
    (ls : List SpoolEvent) (hserves : ∀ l ∈ ls, l.Serves) :
    Run.Throughout (spoolStep cfg) (fun w => w.status = .up → Polled w) (World.off d) ls ∧
      Run.Along (spoolStep cfg) (Attends cfg) (World.off d) ls := by
  have hfirst : Attentive cfg (World.off d) :=
    attentive_of_down (backed_off hfresh) ⟨rfl, wired_empty⟩ rfl
  have hall : Run.Along (spoolStep cfg) (fun _ l => l.Serves) (World.off d) ls :=
    Run.along_of_forall hserves
  have hstep : ∀ w l, Attentive cfg w → l.Serves → Attentive cfg (spoolStep cfg w l) :=
    fun _ l h hl => attentive_step h l hl
  have hattends : ∀ w l, Attentive cfg w → l.Serves → Attends cfg w l := by
    intro w l h hl
    match l with
    | .callback (.poll now envs) => exact attends_poll h hl
    | .callback (.frame _ _) | .callback (.drained _) | .callback (.timeout _ _)
    | .callback (.selfStart _) | .callback (.selfDone _) | .callback (.expireNotice _ _)
    | .callback (.serviceDone _ _) | .kill | .shutdown _ | .start _ | .put _ | .take _ => trivial
  exact ⟨Run.throughout_of_along hstep (fun _ h => h.polled) hfirst hall,
    Run.along_of_inv hstep hattends hfirst hall⟩

/-- The driver says yes to the cluster's REQUEST, and nothing to the next
one until its time is up. -/
def twoAsks : List SpoolEvent :=
  [.start sampleEnv, .callback (.frame sampleRequest sampleEnv),
    .callback (.poll 0 fun _ => sampleApproval), .callback (.frame sampleRerequest sampleEnv),
    .callback (.poll 30 fun _ => sampleEnv)]

theorem serves_sample {file : Option Bytes} :
    ({ sampleEnv with verdictFile := file } : Env).Serves :=
  ⟨rfl, rfl, (fun h => by cases h), fun h => by cases h⟩

theorem none_forgotten_twice :
    Run.Throughout (spoolStep sampleConfig) (fun w => w.status = .up → Polled w)
        (World.off .fresh) twoAsks ∧
      Run.Along (spoolStep sampleConfig) (Attends sampleConfig) (World.off .fresh) twoAsks := by
  have hyes : VerdictReadable sampleApproval := by decide
  have hnone : VerdictReadable sampleEnv := by decide
  refine none_forgotten sampleConfig .fresh rfl twoAsks fun l hl => ?_
  simp only [twoAsks, List.mem_cons, List.not_mem_nil, or_false] at hl
  rcases hl with rfl | rfl | rfl | rfl | rfl
  · trivial
  · exact serves_sample
  · exact fun _ => ⟨serves_sample, hyes⟩
  · exact serves_sample
  · exact fun _ => ⟨serves_sample, hnone⟩

end Coordinator

end VehicleStack
