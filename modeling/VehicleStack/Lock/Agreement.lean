import VehicleStack.Common.Run
import VehicleStack.Lock.Joint

/-!
# The lock — do the two agree?

While no call is under way the coordinator believes what the server does,
and the server is locked exactly while somebody holds the vehicle. An
answer is taken in without a second look at the active set: when the set
has emptied, or filled, since the call was made, the two part company and
nothing is under way to bring them together (`answer_too_late`). They agree
in exactly the runs in which every answer still fits when it arrives
(`agree_iff_fits`).
-/

namespace VehicleStack

namespace Lock

open Coordinator

variable {Pose : Type} {cfg : Config} {scfg : EmergencyStop.Config} {j : Joint Pose}
  {e : Event Pose} {i : ℕ} {r : Reply}

/-- The three say the same, and a holder is timed, in a running process
that has no call under way. -/
def AgreeAtRest (j : Joint Pose) : Prop :=
  j.node.status = .up → j.node.mem.lockStatePending = false →
    j.node.mem.isLocked = j.server.locked ∧
      j.server.locked = (!j.node.mem.activeEcus.isEmpty) ∧
      (j.node.mem.activeEcus.isEmpty = false → j.node.mem.timeoutTimer = true)

/-- An answer that arrives is to the call that would be made now. -/
def AnswerFits (j : Joint Pose) : Event Pose → Prop
  | .respond i => j.node.status = .up → ∀ r, j.replies[i]? = some r →
      (r.label = .lock ↔ j.node.mem.activeEcus.isEmpty = false)
  | _ => True

instance : Decidable (AgreeAtRest j) :=
  inferInstanceAs (Decidable (j.node.status = .up → j.node.mem.lockStatePending = false →
    j.node.mem.isLocked = j.server.locked ∧
      j.server.locked = (!j.node.mem.activeEcus.isEmpty) ∧
      (j.node.mem.activeEcus.isEmpty = false → j.node.mem.timeoutTimer = true)))

instance : Decidable (AnswerFits j e) :=
  match e with
  | .respond i => inferInstanceAs (Decidable (j.node.status = .up → ∀ r, j.replies[i]? = some r →
      (r.label = .lock ↔ j.node.mem.activeEcus.isEmpty = false)))
  | .node _ | .serve _ _ | .server _ => isTrue trivial

/-- What the two parties know of each other while the process runs: the
server has done what was last reported, until it takes the next call, and
the opposite from then on. -/
structure Paired (j : Joint Pose) : Prop where
  idle : j.node.mem.lockStatePending = false → j.server.locked = j.node.mem.isLocked ∧
    Synced j.node
  asked : ∀ c ∈ j.node.calls, j.server.locked = j.node.mem.isLocked
  told : ∀ r ∈ j.replies, j.server.locked = !j.node.mem.isLocked
  timed : j.node.mem.lockStatePending = true → j.node.mem.isLocked = false →
    j.node.mem.timeoutTimer = true

/-- The invariant: there has been one process only. -/
structure Agreed (j : Joint Pose) : Prop where
  carried : Carried j
  calls : ∀ c ∈ j.node.calls, c.client = j.node.client
  replies : ∀ r ∈ j.replies, r.client = j.node.client
  paired : j.node.status = .up → Paired j

theorem Agreed.atRest (h : Agreed j) : AgreeAtRest j := by
  intro hup hidle
  obtain ⟨hserver, hlocked, htimer⟩ := (h.paired hup).idle hidle
  exact ⟨hserver.symm, hserver.trans hlocked, htimer⟩

/-! ## Steps -/

/-- A callback of the coordinator. -/
theorem Paired.node {w : World} {ready : Prop} (h : Paired j) (hready : ready)
    (hstep : LockStep ready j.node w) : Paired { j with node := w } := by
  have hpart := hstep.part
  have hlocked : w.mem.isLocked = j.node.mem.isLocked := hpart.1
  have hfirst : w.mem.lockStatePending = false → j.node.mem.lockStatePending = false := by
    intro hidle
    obtain ⟨-, -, ⟨hpend, -⟩ | ⟨-, hbusy, -⟩⟩ := hpart
    · exact hpend ▸ hidle
    · rw [hidle] at hbusy
      cases hbusy
  refine ⟨fun hidle => ?_, fun c hc => ?_, fun r hr => ?_, fun hbusy hopen => ?_⟩
  · refine ⟨?_, hstep.synced hready (fun hidle₀ => (h.idle hidle₀).2) hidle⟩
    exact ((h.idle (hfirst hidle)).1).trans hlocked.symm
  · obtain ⟨-, -, ⟨-, hcalls, -⟩ | ⟨hidle, -⟩⟩ := hpart
    · exact (h.asked c (hcalls ▸ hc)).trans hlocked.symm
    · exact (h.idle hidle).1.trans hlocked.symm
  · exact (h.told r hr).trans (by rw [hlocked])
  -- the timer was started with the lock call and is not touched until the answer
  · obtain ⟨-, -, ⟨hpend, -, htimer⟩ | ⟨-, -, label, -, hlabel, htimer⟩⟩ := hpart
    · have hbusy₀ : j.node.mem.lockStatePending = true := hpend ▸ hbusy
      exact (htimer hbusy₀).trans (h.timed hbusy₀ (hlocked ▸ hopen))
    · refine htimer ?_
      rw [← hlocked, hopen] at hlabel
      cases label with
      | lock => rfl
      | unlock => cases hlabel

/-- The server takes the call. -/
theorem Agreed.serve {steady : ℚ} {call : ServiceCall} (h : Agreed j)
    (hi : j.node.calls[i]? = some call) (hup : j.node.status = .up) :
    Paired (serve scfg j i steady call) := by
  have hown : call.client = j.node.client := h.calls call (List.mem_of_getElem? hi)
  have hcourier := (h.carried.2 hup).2
  obtain ⟨hbusy, hcalls, hreplies⟩ := hcourier.call_alone hi hown
  refine ⟨fun hidle => ?_, fun c hc => ?_, fun r hr => ?_, (h.paired hup).timed⟩
  · rw [show j.node.mem.lockStatePending = false from hidle] at hbusy
    cases hbusy
  · exact absurd (h.calls c (List.mem_of_mem_eraseIdx hc)) (hcalls c hc)
  · change (answer scfg j.server steady call.label).2.locked = !j.node.mem.isLocked
    rw [answer_locked, hcourier.asked call (List.mem_of_getElem? hi) hown]
    cases call.label <;> rfl

/-- The coordinator after it has taken in an answer. -/
theorem Agreed.respond_node (h : Agreed j) (hi : j.replies[i]? = some r)
    (hup : j.node.status = .up) :
    (respond cfg j i r).node = { j.node with mem := { j.node.mem with
      lockStatePending := false, isLocked := decide (r.label = .lock) } } := by
  have hown : r.client = j.node.client := h.replies r (List.mem_of_getElem? hi)
  exact (h.carried.2 hup).2.respond_node hi hown hup

/-- The server has done what the answer says. -/
theorem Agreed.told (h : Agreed j) (hi : j.replies[i]? = some r) (hup : j.node.status = .up) :
    j.server.locked = decide (r.label = .lock) ∧
      (r.label = .lock → j.node.mem.timeoutTimer = true) := by
  have hmem := List.mem_of_getElem? hi
  have hown := h.replies r hmem
  have hcourier := (h.carried.2 hup).2
  obtain ⟨hbusy, -, -⟩ := hcourier.reply_alone hi hown
  have hlabel := (hcourier.told r hmem hown).2
  have hserver := (h.paired hup).told r hmem
  have htimed := (h.paired hup).timed hbusy
  rw [hlabel] at hserver htimed
  cases hr : r.label with
  | lock => exact ⟨by rw [hserver, hr]; rfl, fun _ => htimed (by rw [hr]; rfl)⟩
  | unlock => exact ⟨by rw [hserver, hr]; rfl, fun h => by cases h⟩

/-- The answer arrives, and fits. -/
theorem Agreed.respond (h : Agreed j) (hi : j.replies[i]? = some r) (hup : j.node.status = .up)
    (hfits : r.label = .lock ↔ j.node.mem.activeEcus.isEmpty = false) :
    Paired (respond cfg j i r) := by
  have hown := h.replies r (List.mem_of_getElem? hi)
  obtain ⟨-, hcalls, hreplies⟩ := (h.carried.2 hup).2.reply_alone hi hown
  obtain ⟨hserver, htimer⟩ := h.told hi hup
  have hnode : (Lock.respond cfg j i r).node = _ := h.respond_node hi hup
  refine ⟨fun _ => ?_, fun c hc => ?_, fun r' hr' => ?_, fun hbusy => ?_⟩
  · rw [hnode]
    refine ⟨hserver, ?_, fun hheld => htimer (hfits.2 hheld)⟩
    change decide (r.label = .lock) = !j.node.mem.activeEcus.isEmpty
    cases hempty : j.node.mem.activeEcus.isEmpty with
    | false => exact decide_eq_true (hfits.2 hempty)
    | true => exact decide_eq_false fun hlock => by simp [hfits.1 hlock] at hempty
  · rw [hnode] at hc
    exact absurd (h.calls c hc) (hcalls c hc)
  · exact absurd (h.replies r' (List.mem_of_mem_eraseIdx hr')) (hreplies r' hr')
  · rw [hnode] at hbusy
    cases hbusy

/-- **A step whose answers fit keeps the two together.** -/
theorem agreed_step (h : Agreed j) (hready : e.Ready) (hfits : AnswerFits j e) :
    Agreed (step cfg scfg j e) := by
  refine step_cases (P := fun j' => Carried j' → Agreed j') (fun _ => h)
    (fun e' he hresp hrun hcarried => ?_) (fun i steady call _ hi hcarried => ?_)
    (fun i r he hi hcarried => ?_) (fun server hlocked hcarried => ?_) (carried_step e h.carried)
  · subst he
    obtain ⟨⟨hclient, hcalls⟩, hstep⟩ := lockStep_step (h.carried.2 hrun).1 hresp
    refine ⟨hcarried, fun c hc => ?_, fun r hr => (h.replies r hr).trans hclient.symm,
      fun hup => (h.paired hrun).node (hready.readyFor _) (hstep hup)⟩
    rcases hcalls c hc with hc | hc
    · exact (h.calls c hc).trans hclient.symm
    · exact hc.trans hclient.symm
  · refine ⟨hcarried, fun c hc => h.calls c (List.mem_of_mem_eraseIdx hc), fun r hr => ?_,
      h.serve hi⟩
    rcases List.mem_append.1 hr with hr | hr
    · exact h.replies r hr
    · rw [List.mem_singleton.1 hr]
      exact h.calls call (List.mem_of_getElem? hi)
  · subst he
    by_cases hrun : j.node.status = .up
    · have hnode : (Lock.respond cfg j i r).node = _ := h.respond_node hi hrun
      refine ⟨hcarried, ?_, fun r' hr' => ?_, fun _ => h.respond hi hrun (hfits hrun r hi)⟩
      · rw [hnode]
        exact h.calls
      · rw [hnode]
        exact h.replies r' (List.mem_of_mem_eraseIdx hr')
    · have hnode : (Lock.respond cfg j i r).node = j.node := by
        simp only [Lock.respond, step_of_not_up hrun, ite_self]
      refine ⟨hcarried, ?_, fun r' hr' => ?_, fun hup => absurd (hnode ▸ hup) hrun⟩
      · rw [hnode]
        exact h.calls
      · rw [hnode]
        exact h.replies r' (List.mem_of_mem_eraseIdx hr')
  · refine ⟨hcarried, h.calls, h.replies, fun hup => ?_⟩
    obtain ⟨hidle, hasked, htold, htimed⟩ := h.paired hup
    rw [← hlocked] at hidle hasked htold
    exact ⟨hidle, hasked, htold, htimed⟩

/-- **An answer that does not fit parts them.** -/
theorem fits_of_agree (h : Agreed j) (hrest : AgreeAtRest (step cfg scfg j e)) :
    AnswerFits j e := by
  cases e with
  | respond i =>
    intro hup r hi
    simp only [step, hi] at hrest
    have hnode : (Lock.respond cfg j i r).node = _ := h.respond_node hi hup
    unfold AgreeAtRest at hrest
    rw [hnode] at hrest
    obtain ⟨hlocked, hheld, -⟩ := hrest hup rfl
    have heq : decide (r.label = .lock) = !j.node.mem.activeEcus.isEmpty := hlocked.trans hheld
    rw [← decide_eq_true_iff (p := r.label = .lock), heq, Bool.not_eq_true']
  | node e => trivial
  | serve i steady => trivial
  | server e => trivial

theorem agreed_launch {d : Disk} {env : Env} : Agreed (Joint.launch Pose d env) := by
  refine launch_of_all (I := fun w => Carried ⟨w, .init Pose, []⟩ → Agreed ⟨w, .init Pose, []⟩)
    (fun disk status _ hcarried =>
      ⟨hcarried, (fun _ h => by cases h), (fun _ h => by cases h), fun _ => ?_⟩) carried_launch
  exact ⟨fun _ => ⟨rfl, rfl, fun h => by cases h⟩, (fun _ h => by cases h), (fun _ h => by cases h),
    fun h => by cases h⟩

/-! ## Runs -/

/-- **The two agree in exactly the runs in which every answer still fits
when it arrives**, with the services there. -/
theorem agree_iff_fits (cfg : Config) (scfg : EmergencyStop.Config) (d : Disk) (env : Env)
    (es : List (Event Pose)) (hready : ∀ e ∈ es, e.Ready) :
    Run.Throughout (step cfg scfg) AgreeAtRest (Joint.launch Pose d env) es ↔
      Run.Along (step cfg scfg) AnswerFits (Joint.launch Pose d env) es :=
  Run.throughout_iff_along (I := Agreed) (R := Event.Ready)
    (fun _ _ h hready hfits => agreed_step h hready hfits) (fun _ h => h.atRest)
    (fun _ _ h _ hrest => fits_of_agree h hrest) agreed_launch hready

/-- A self-update whose lock call is answered before it ends. -/
theorem agree_iff_fits_once :
    Run.Throughout (step sampleConfig {}) AgreeAtRest (Joint.launch Unit .fresh {})
      [.node (.selfStart {}), .serve 0 0, .respond 0, .node (.selfDone {}), .serve 0 0,
        .respond 0] :=
  (agree_iff_fits sampleConfig {} .fresh {} _
    (by simp [Event.Ready, Coordinator.Event.Ready])).2 (by decide +kernel)

/-- A self-update starts and ends while its lock call is under way. -/
def endedTooSoon : List (Event Unit) :=
  [.node (.selfStart {}), .node (.selfDone {}), .serve 0 0, .respond 0]

/-- **Nobody holds the vehicle, nothing is under way, and it is locked.** -/
theorem answer_too_late :
    ¬ AgreeAtRest (Run.run (step sampleConfig {}) (Joint.launch Unit .fresh {}) endedTooSoon) := by
  decide +kernel

end Lock

end VehicleStack
