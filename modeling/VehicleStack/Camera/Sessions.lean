import VehicleStack.Camera.Model
import VehicleStack.Common.Run

/-!
# The on-demand camera — one camera at a time

Between two callbacks the node is either idle, with nothing set up, or it
captures, with a process, a subscription and a timer. So the log is a
sequence of sessions (`phase`): a process is started, at most one image of
it is published, and it has been told to stop before the next one is
started, whatever fails on the way (`one_camera_at_a_time`). A capture never stays:
its timer is there to end it.
-/

namespace VehicleStack

namespace Camera

open Callback

/-! ## Sessions -/

/-- Where in a session a log stands. -/
inductive Phase
  | idle
  | running (pid : ℕ)
  | shown (pid : ℕ)
  deriving DecidableEq, Repr

/-- What an act makes of it, where the act is in its place. -/
def Phase.next : Phase → Act → Option Phase
  | .idle, .spawned pid => some (.running pid)
  | .running pid, .published => some (.shown pid)
  | .running pid, .released pid' _ => if pid' = pid then some .idle else none
  | .shown pid, .released pid' _ => if pid' = pid then some .idle else none
  | _, _ => none

/-- Where the log stands, if it is one of sessions. -/
def phase (log : List Act) : Option Phase := log.foldlM Phase.next .idle

variable {w : World} {stop : Stop} {log : List Act} {p p' : Phase} {a : Act}

theorem phase_snoc (h : phase log = some p) (ha : p.next a = some p') :
    phase (log ++ [a]) = some p' := by
  unfold phase at h ⊢
  rw [List.foldlM_append, h]
  simpa using ha

/-- A process that has been started is in its session. -/
def phaseOf : Option ℕ → Phase
  | none => .idle
  | some pid => .running pid

/-- The log stands where the process does, an image or no image. -/
def InSession (w : World) : Prop :=
  phase w.log = some (phaseOf w.cameraProcess) ∨
    ∃ pid, w.cameraProcess = some pid ∧ phase w.log = some (.shown pid)

/-- Nothing is set up. -/
structure Idle (w : World) : Prop where
  tempSub : w.tempSub = false
  timeoutTimer : w.timeoutTimer = false
  isCapturing : w.isCapturing = false
  cameraProcess : w.cameraProcess = none

/-- Everything is. -/
structure Capturing (w : World) : Prop where
  tempSub : w.tempSub = true
  timeoutTimer : w.timeoutTimer = true
  isCapturing : w.isCapturing = true
  cameraProcess : w.cameraProcess.isSome

/-! ## The callbacks -/

/-- What `_cleanup` leaves. The timer is not its business. -/
structure Cleaned (w w' : World) : Prop where
  tempSub : w'.tempSub = false
  timeoutTimer : w'.timeoutTimer = w.timeoutTimer
  isCapturing : w'.isCapturing = false
  cameraProcess : w'.cameraProcess = none
  status : w'.status = w.status
  log : phase w'.log = some .idle

/-- What is left where the second signal fails. -/
structure Broken (stop : Stop) (w' : World) : Prop where
  refused : stop = .killRefused
  cameraProcess : w'.cameraProcess = none
  log : phase w'.log = some .idle

/-- **`_cleanup`** ends the session however it ends itself. -/
theorem wp_cleanup (h : InSession w) :
    wp (cleanup stop) (fun _ => Cleaned w) (fun _ => Broken stop) w := by
  simp only [cleanup, stopProcess, record, wp_bind, wp_modify, wp_get]
  cases hprocess : w.cameraProcess with
  | none =>
    have hidle : phase w.log = some .idle := by
      rcases h with h | ⟨pid, hpid, -⟩
      · rwa [hprocess] at h
      · rw [hprocess] at hpid
        cases hpid
    exact ⟨rfl, rfl, rfl, rfl, rfl, hidle⟩
  | some pid =>
    have hidle : phase (w.log ++ [.released pid stop]) = some .idle := by
      rcases h with h | ⟨pid', hpid', h⟩
      · rw [hprocess] at h
        exact phase_snoc h (if_pos rfl)
      · obtain rfl : pid = pid' := Option.some.inj (hprocess.symm.trans hpid')
        exact phase_snoc h (if_pos rfl)
    simp only [wp_bind, wp_modify, wp_ite, wp_throw, wp_pure]
    split
    · rename_i hrefused
      exact ⟨hrefused, rfl, hidle⟩
    · exact ⟨rfl, rfl, rfl, rfl, rfl, hidle⟩

/-- Where the session stands between two callbacks. -/
def Between (w : World) : Prop := phase w.log = some (phaseOf w.cameraProcess)

/-- **A trigger** is ignored during a capture. Otherwise it sets up
everything or nothing. -/
theorem wp_trigger {spawn : Spawn} (h : Between w) (hready : Idle w ∨ Capturing w) :
    wp (triggerCompressionSub spawn stop)
      (fun _ w' => (Between w' ∧ (Idle w' ∨ Capturing w')) ∧ w'.status = w.status)
      (fun _ => Broken stop) w := by
  simp only [triggerCompressionSub, wp_bind, wp_get, wp_ite, wp_pure, wp_modify]
  split
  · exact ⟨⟨h, hready⟩, trivial⟩
  rename_i hnot
  have hidle : Idle w := hready.resolve_right fun hcapturing => hnot hcapturing.isCapturing
  have hlog : phase w.log = some .idle := by
    rw [h, hidle.cameraProcess]
    rfl
  -- whatever is cleaned up after a failure, the timer has not been set
  have hcleaned : ∀ {w₀ : World}, InSession w₀ → w₀.timeoutTimer = false →
      w₀.status = w.status → wp (cleanup stop)
        (fun _ w' => (Between w' ∧ (Idle w' ∨ Capturing w')) ∧ w'.status = w.status)
        (fun _ => Broken stop) w₀ := by
    intro w₀ hsession htimer hstatus
    refine wp_mono (wp_cleanup hsession) (fun _ w' hw' => ⟨⟨?_, Or.inl ?_⟩, ?_⟩) fun _ _ hw' => hw'
    · rw [Between, hw'.log, hw'.cameraProcess]
      rfl
    · exact ⟨hw'.tempSub, hw'.timeoutTimer.trans htimer, hw'.isCapturing, hw'.cameraProcess⟩
    · exact hw'.status.trans hstatus
  have hspawned : ∀ pid, phase (w.log ++ [.spawned pid]) = some (.running pid) := fun pid =>
    phase_snoc hlog rfl
  cases spawn with
  | failed =>
    refine hcleaned (Or.inl ?_) hidle.timeoutTimer rfl
    rw [hlog, hidle.cameraProcess]
    rfl
  | noSubscription pid => exact hcleaned (Or.inl (hspawned pid)) hidle.timeoutTimer rfl
  | noTimer pid => exact hcleaned (Or.inl (hspawned pid)) hidle.timeoutTimer rfl
  | started pid => exact ⟨⟨hspawned pid, Or.inr ⟨rfl, rfl, rfl, rfl⟩⟩, rfl⟩

/-- **The end of a capture**, once its timer has been cancelled and with its
image published or not. -/
theorem wp_cleanup_idle (h : InSession w) (htimer : w.timeoutTimer = false) :
    wp (cleanup stop) (fun _ w' => (Between w' ∧ Idle w') ∧ w'.status = w.status)
      (fun _ => Broken stop) w := by
  refine wp_mono (wp_cleanup h) (fun _ w' hw' => ⟨⟨?_, ?_⟩, hw'.status⟩) fun _ _ hw' => hw'
  · rw [Between, hw'.log, hw'.cameraProcess]
    rfl
  · exact ⟨hw'.tempSub, hw'.timeoutTimer.trans htimer, hw'.isCapturing, hw'.cameraProcess⟩

theorem wp_timeout (h : Between w) : wp (timeoutCallback stop)
    (fun _ w' => (Between w' ∧ Idle w') ∧ w'.status = w.status) (fun _ => Broken stop) w := by
  simp only [timeoutCallback, cancelTimeout, wp_bind, wp_modify]
  exact wp_cleanup_idle (w := { w with timeoutTimer := false }) (Or.inl h) rfl

theorem wp_image {how : Compression} (h : Between w) (hcapturing : Capturing w) :
    wp (imageCallback how stop) (fun _ w' => (Between w' ∧ Idle w') ∧ w'.status = w.status)
      (fun _ => Broken stop) w := by
  simp only [imageCallback, cancelTimeout, record, wp_bind, wp_modify, wp_ite]
  split
  · obtain ⟨pid, hpid⟩ := Option.isSome_iff_exists.1 hcapturing.cameraProcess
    have hshown : phase (w.log ++ [.published]) = some (.shown pid) := by
      refine phase_snoc h ?_
      rw [hpid]
      rfl
    exact wp_cleanup_idle (w := { w with timeoutTimer := false, log := w.log ++ [.published] })
      (Or.inr ⟨pid, hpid, hshown⟩) rfl
  · exact wp_cleanup_idle (w := { w with timeoutTimer := false }) (Or.inl h) rfl

/-! ## Runs -/

/-- **What the node keeps.** -/
structure Kept (w : World) : Prop where
  between : Between w
  up : w.status = .up → Idle w ∨ Capturing w
  ended : w.status ≠ .up → w.cameraProcess = none

theorem kept_start : Kept .start := ⟨rfl, fun _ => Or.inl ⟨rfl, rfl, rfl, rfl⟩, fun _ => rfl⟩

/-- Nothing is left of a session that has broken off. -/
theorem Broken.between {w' : World} (h : Broken stop w') : Between w' := by
  rw [Between, h.log, h.cameraProcess]
  rfl

/-- What a callback's rule says of running it. -/
theorem exec_of_wp {m : Handler Unit} {I : World → Prop}
    (h : wp m (fun _ => I) (fun _ w' => I { w' with status := .raised }) w) : I (w.exec m) := by
  unfold wp at h
  unfold World.exec
  split <;> simp_all only

/-- A callback that ends between two sessions, or breaks off. -/
theorem kept_exec {m : Handler Unit} (hup : w.status = .up)
    (h : wp m (fun _ w' => (Between w' ∧ (Idle w' ∨ Capturing w')) ∧ w'.status = w.status)
      (fun _ => Broken stop) w) : Kept (w.exec m) := by
  refine exec_of_wp (wp_mono h (fun _ w' hw' => ⟨hw'.1.1, fun _ => hw'.1.2, fun hne => ?_⟩)
    fun _ w' hw' => ⟨hw'.between, nofun, fun _ => hw'.cameraProcess⟩)
  exact absurd (hw'.2.trans hup) hne

theorem step_eq {e : Event} (he : ∀ stop, e ≠ .shutdown stop) :
    step w e = if w.status = .up ∧ enabled w e = true then w.exec (callback e) else w := by
  cases e with
  | shutdown stop => exact absurd rfl (he stop)
  | _ => rfl

/-- What holds of the callback of an event holds of the step. -/
theorem kept_callback {e : Event} (h : Kept w) (he : ∀ stop, e ≠ .shutdown stop)
    (hrun : w.status = .up → enabled w e = true → Kept (w.exec (callback e))) :
    Kept (step w e) := by
  rw [step_eq he]
  split
  · rename_i hup
    exact hrun hup.1 hup.2
  · exact h

/-- **A step keeps it.** -/
theorem kept_step (h : Kept w) (e : Event) : Kept (step w e) := by
  have hidle : ∀ {m : Handler Unit} {stop' : Stop}, w.status = .up →
      wp m (fun _ w' => (Between w' ∧ Idle w') ∧ w'.status = w.status) (fun _ => Broken stop') w →
      Kept (w.exec m) := fun hup hm =>
    kept_exec hup (wp_mono hm (fun _ _ hw' => ⟨⟨hw'.1.1, Or.inl hw'.1.2⟩, hw'.2⟩)
      fun _ _ hw' => hw')
  cases e with
  | shutdown stop =>
    have hended : ∀ w' : World, w'.cameraProcess = none → phase w'.log = some .idle →
        Kept { w' with status := .down } := by
      intro w' hnone hlog
      refine ⟨?_, nofun, fun _ => hnone⟩
      simp only [Between, hnone, hlog, phaseOf]
    by_cases hdown : w.status = .down
    · rw [step, if_pos hdown]
      exact h
    · rw [step, if_neg hdown]
      exact exec_of_wp (I := fun w' => Kept { w' with status := .down })
        (wp_mono (wp_cleanup (Or.inl h.between))
          (fun _ w' hw' => hended w' hw'.cameraProcess hw'.log)
          fun _ w' hw' => hended _ hw'.cameraProcess hw'.log)
  | trigger spawn stop =>
    exact kept_callback h nofun fun hup _ => kept_exec hup (wp_trigger h.between (h.up hup))
  | image how stop =>
    refine kept_callback h nofun fun hup hsub => ?_
    have hcapturing : Capturing w := (h.up hup).resolve_left fun hidle => by
      rw [enabled, hidle.tempSub] at hsub
      cases hsub
    exact hidle hup (wp_image h.between hcapturing)
  | timeout stop => exact kept_callback h nofun fun hup _ => hidle hup (wp_timeout h.between)

/-- A capture's timer ends it, unless the process is not to be killed. -/
theorem idle_of_timeout (h : Kept w) (hup : w.status = .up) (hcapturing : w.isCapturing = true)
    (hstop : stop ≠ .killRefused) :
    (step w (.timeout stop)).status = .up ∧ Idle (step w (.timeout stop)) := by
  have hrun : w.status = .up ∧ enabled w (.timeout stop) = true := by
    refine ⟨hup, ?_⟩
    rcases h.up hup with hidle | hall
    · rw [hidle.isCapturing] at hcapturing
      cases hcapturing
    · exact hall.timeoutTimer
  have hstep : step w (.timeout stop) = w.exec (timeoutCallback stop) := if_pos hrun
  rw [hstep]
  refine exec_of_wp (I := fun w' => w'.status = .up ∧ Idle w') (wp_mono (wp_timeout h.between)
    (fun _ w' hw' => ⟨hw'.2.trans hup, hw'.1.2⟩) ?_)
  exact fun _ w' hw' => absurd hw'.refused hstop

/-- **One camera at a time.** In every run, whatever fails in it, the log is
one of sessions and stands where the node's process does: each process has
been told to stop before the next is started, and at most one image of it
has been published. A running node has everything of a capture set up or nothing,
a capture is ended by its timer, and a node that has ended has no process. -/
theorem one_camera_at_a_time (es : List Event) :
    Run.Throughout step (fun w => Between w ∧ (w.status ≠ .up → w.cameraProcess = none) ∧
      (w.status = .up → (Idle w ∨ Capturing w) ∧ (w.isCapturing = true → ∀ stop ≠ .killRefused,
        (step w (.timeout stop)).status = .up ∧ Idle (step w (.timeout stop))))) .start es := by
  refine Run.throughout_of_along (I := Kept) (P := fun _ _ => True)
    (fun w e h _ => kept_step h e) (fun w h => ?_) kept_start
    (Run.along_of_forall fun _ _ => trivial)
  exact ⟨h.between, h.ended, fun hup => ⟨h.up hup, fun hcapturing stop =>
    idle_of_timeout h hup hcapturing⟩⟩

end Camera

end VehicleStack
