import VehicleStack.Common.Run
import VehicleStack.Coordinator.Specs

/-!
# The update coordinator — steps and starts

From the rule of a callback to a fact about a step: `step_of_wp` for the
events of a running process, `boot_of_all` for a start. A start finds the
memory in its first state, so of all it does only the sweeps are left to
see. The last part puts `_on_can_event` together again.
-/

namespace VehicleStack

namespace Coordinator

open Callback SecOC

variable {cfg : Config} {env : Env} {w : World} {I : World → Prop} {m : Handler Unit}

/-! ## Steps -/

theorem statusAfter_ne_up (e : Raised) : statusAfter e ≠ .up := by
  cases e <;> simp [statusAfter]

/-- What a callback's rule says of running it. -/
theorem exec_of_wp (h : wp m (fun _ => I) (fun e w' => I { w' with status := statusAfter e }) w) :
    I (w.exec m) := by
  unfold wp at h
  unfold World.exec
  split <;> simp_all only

/-- **The step rule.** -/
theorem step_of_wp {e : Event} (h0 : I w)
    (h : w.status = .up → enabled w e = true →
      wp (callback cfg e) (fun _ => I) (fun e w' => I { w' with status := statusAfter e }) w) :
    I (step cfg w e) := by
  unfold step
  split
  · rename_i hrun
    exact exec_of_wp (h hrun.1 hrun.2)
  · exact h0

/-- What a callback has come to when it returns, a step has that leaves the
process running. -/
theorem exec_of_returns (h : wp m (fun _ => I) (fun _ _ => True) w)
    (hret : (w.exec m).status = .up) : I (w.exec m) := by
  revert hret
  exact exec_of_wp (I := fun w' => w'.status = .up → I w') (wp_mono h (fun _ _ hI _ => hI)
    fun r _ _ hup => absurd hup (statusAfter_ne_up r))

theorem step_of_returns {e : Event} (h0 : I w)
    (h : w.status = .up → wp (callback cfg e) (fun _ => I) (fun _ _ => True) w)
    (hret : (step cfg w e).status = .up) : I (step cfg w e) := by
  unfold step at hret ⊢
  split at hret
  · rename_i hrun
    rw [if_pos hrun]
    exact exec_of_returns (h hrun.1) hret
  · rename_i hidle
    rw [if_neg hidle]
    exact h0

/-- A process that does not run does nothing. -/
theorem step_of_not_up {e : Event} (h : w.status ≠ .up) : step cfg w e = w :=
  if_neg fun hrun => h hrun.1

/-- A callback that keeps `I` has kept it wherever it stops. -/
theorem exec_of_all (h : wp m (fun _ => I) (fun _ => I) w) (hstatus : ∀ w status, I w →
    I { w with status := status }) : I (w.exec m) :=
  exec_of_wp (wp_mono h (fun _ _ h => h) fun _ _ h => hstatus _ _ h)

/-! ## Starts -/

variable {E : Raised → World → Prop} {Q : Unit → World → Prop}

/-- `destroy_node` empties the pending table and takes its offers down. -/
theorem wp_destroyNode
    (h : ∀ offers, Q () { w with
      mem := { w.mem with pending := .empty }, disk := { w.disk with offers := offers } })
    (hE : ∀ offers, E .killed { w with disk := { w.disk with offers := offers } }) :
    wp (destroyNode env) Q E w := by
  simp only [destroyNode, wp_bind, wp_get]
  refine wp_mono (wp_forM (E := E) (I := fun _ w' =>
    ∃ offers, w' = { w with disk := { w.disk with offers := offers } }) ?_ ⟨_, rfl⟩) ?_
    fun _ _ h => h
  · rintro p rest w' ⟨offers, rfl⟩
    exact wp_withdrawOffer (fun offers' => ⟨offers', rfl⟩) fun offers' => hE _
  · rintro - w' ⟨offers, rfl⟩
    exact h offers

/-- What a start leaves of the disk. -/
def World.swept (w : World) (flag : Bool) (offers : List Offer) (notices : List Notice) : World :=
  { w with disk :=
    { w.disk with selfUpdateFlag := flag, offers := offers, notices := notices } }

/-- `_recover_self_update` takes the flag down and finds nothing to unlock:
it runs before anything has set `active_ecus` or `is_locked`. -/
theorem wp_recoverSelfUpdate (hmem : w.mem = .init)
    (h : ∀ flag, Q () (w.swept flag w.disk.offers w.disk.notices))
    (hE : ∀ e flag, E e (w.swept flag w.disk.offers w.disk.notices)) :
    wp (recoverSelfUpdate env) Q E w := by
  simp only [recoverSelfUpdate, wp_bind, wp_get, wp_ite, wp_pure]
  split
  · refine wp_perform (fun _ => ?_) (fun e _ => hE e w.disk.selfUpdateFlag) fun _ => hE _ false
    -- releasing a holder there is not and stopping a timer there is not change nothing
    have hinit : ({ w with disk := { w.disk with selfUpdateFlag := false } } : World) =
        { w with
          mem := { w.mem with activeEcus := w.mem.activeEcus.erase .jetson, timeoutTimer := false }
          disk := { w.disk with selfUpdateFlag := false } } := by
      rw [hmem]
      rfl
    have hgoal := h false
    unfold World.swept at hgoal
    rw [hinit] at hgoal
    rw [hmem] at hgoal ⊢
    exact hgoal
  · exact h w.disk.selfUpdateFlag

/-- Sweeping the spool changes what is in it. -/
theorem wp_sweepStaleOffers
    (h : ∀ offers, Q () { w with disk := { w.disk with offers := offers } })
    (hE : ∀ e offers, E e { w with disk := { w.disk with offers := offers } }) :
    wp (sweepStaleOffers env) Q E w := by
  simp only [sweepStaleOffers, wp_ite, wp_bind, wp_get, wp_pure]
  split
  · refine wp_mono (wp_forM (E := E) (I := fun _ w' =>
      ∃ offers, w' = { w with disk := { w.disk with offers := offers } }) ?_ ⟨_, rfl⟩) ?_
      fun _ _ h => h
    · rintro offer rest w' ⟨offers, rfl⟩
      cases offer.id.producer with
      | ours name => exact wp_withdrawOffer (fun offers' => ⟨offers', rfl⟩) fun offers' => hE _ _
      | other name => exact ⟨offers, rfl⟩
    · rintro - w' ⟨offers, rfl⟩
      exact h offers
  · exact h w.disk.offers

theorem wp_sweepNotices
    (h : ∀ notices, Q () { w with disk := { w.disk with notices := notices } })
    (hE : ∀ e notices, E e { w with disk := { w.disk with notices := notices } }) :
    wp (sweepNotices env) Q E w := by
  simp only [sweepNotices, wp_ite, wp_bind, wp_get, wp_pure]
  split
  · refine wp_mono (wp_forM (E := E) (I := fun _ w' =>
      ∃ notices, w' = { w with disk := { w.disk with notices := notices } }) ?_ ⟨_, rfl⟩) ?_
      fun _ _ h => h
    · rintro notice rest w' ⟨notices, rfl⟩
      rw [wp_bind]
      exact wp_attempt ⟨_, rfl⟩ ⟨_, rfl⟩ (hE _ _) (hE _ _)
    · rintro - w' ⟨notices, rfl⟩
      exact h notices
  · exact h w.disk.notices

/-- **A start.** A new process begins in its first state over what the
sweeps leave of the disk; it may not survive them. -/
theorem boot_of_all
    (h : ∀ flag offers notices status,
      I ({ w with mem := .init, status := status, client := w.client + 1 }.swept
        flag offers notices)) : I (w.boot env) := by
  unfold World.boot
  refine exec_of_wp ?_
  simp only [init, wp_bind]
  refine wp_recoverSelfUpdate rfl (fun flag => ?_) fun e flag =>
    h flag w.disk.offers w.disk.notices (statusAfter e)
  rw [wp_bind]
  refine wp_sweepStaleOffers (fun offers => ?_) fun e offers =>
    h flag offers w.disk.notices (statusAfter e)
  exact wp_sweepNotices (fun notices => h flag offers notices .up) fun e notices =>
    h flag offers notices (statusAfter e)

/-- The first process, over any disk. -/
def World.launch (d : Disk) (env : Env) : World := { World.start with disk := d }.boot env

/-- Nothing has been done when it starts. -/
theorem launch_of_all {d : Disk}
    (h : ∀ disk status, disk.store = d.store → I ⟨.init, disk, status, 1, [], [], []⟩) :
    I (World.launch d env) :=
  boot_of_all fun _ _ _ status => h _ status rfl

theorem launch_mem {d : Disk} : (World.launch d env).mem = .init :=
  launch_of_all (I := fun w => w.mem = .init) fun _ _ _ => rfl

/-! ## The frames of one event -/

/-- A process that does not run stays as it is. -/
theorem run_of_not_up {es : List Event} (h : w.status ≠ .up) : Run.run (step cfg) w es = w := by
  induction es with
  | nil => rfl
  | cons e es ih => rw [Run.run_cons, step_of_not_up h, ih]

/-- A frame that has been dealt with leaves the process running. -/
theorem wp_handleCan_status {canId dlc : ℕ} {data : Bytes} :
    wp (handleCan cfg env canId dlc data) (fun _ w' => w'.status = w.status) (fun _ _ => True)
      w := by
  have hlock : ∀ w' : World, w'.status = w.status →
      wp (updateLockState env) (fun _ w'' => w''.status = w.status) (fun _ _ => True) w' :=
    fun w' h => wp_updateLockState (fun _ _ _ => h) fun _ _ _ => trivial
  refine wp_handleCan (fun _ => rfl) (fun m _ => ?_) (fun _ _ => trivial) fun _ _ => trivial
  obtain ⟨name, what, slot, fv⟩ := m
  cases what with
  | request =>
    simp only [process, wp_bind, wp_observe]
    exact wp_beginApproval (fun _ _ _ _ _ _ => hlock _ rfl) (fun _ _ _ _ _ _ _ _ => hlock _ rfl)
      (fun _ _ _ _ _ => hlock _ rfl) fun _ _ _ _ => trivial
  | running =>
    simp only [process, wp_bind, wp_observe, completeUpdate, wp_setMem]
    exact wp_writeNotice (fun _ _ => hlock _ rfl) fun _ => trivial

/-- **`_on_can_event` is its frames, one after the other, and then a look at
the lock.** -/
theorem onCanEvent_eq_run {frames : List (CanFrame × Env)} (hup : w.status = .up) :
    w.exec (onCanEvent cfg frames env) =
      Run.run (step cfg) w (frames.map (fun p => .frame p.1 p.2) ++ [.drained env]) := by
  induction frames generalizing w with
  | nil => exact (if_pos ⟨hup, rfl⟩ : step cfg w (.drained env) = _).symm
  | cons p rest ih =>
    have hframe : step cfg w (.frame p.1 p.2) = w.exec (callback cfg (.frame p.1 p.2)) :=
      if_pos ⟨hup, rfl⟩
    have hstatus : wp (callback cfg (.frame p.1 p.2)) (fun _ w' => w'.status = w.status)
        (fun _ _ => True) w := wp_handleCan_status
    have hcons : onCanEvent cfg (p :: rest) env =
        callback cfg (.frame p.1 p.2) >>= fun _ => onCanEvent cfg rest env :=
      bind_assoc (callback cfg (.frame p.1 p.2)) _ _
    rw [List.map_cons, List.cons_append, Run.run_cons, hframe, hcons]
    unfold wp at hstatus
    -- a frame that raises ends the loop, and the events after it find no running process
    simp only [World.exec, bind, EStateM.bind]
    cases hcan : callback cfg (.frame p.1 p.2) w with
    | ok _ w' =>
      rw [hcan] at hstatus
      exact ih (hstatus.trans hup)
    | error e w' => exact (run_of_not_up (statusAfter_ne_up e)).symm

end Coordinator

end VehicleStack
