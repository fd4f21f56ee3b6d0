import VehicleStack.Coordinator.Steps

/-!
# The update coordinator — what a step does to the lock

`_update_lock_state` compares the active set with what the last response
said, and calls the emergency-stop server where they differ; while a call
is under way it does nothing. `LockStep` says what a whole callback may do
to the five things involved: nothing at all, or anything to the active set,
with the comparison made after the last change to it.
-/

namespace VehicleStack

namespace Coordinator

open Callback SecOC

variable {cfg : Config} {env : Env} {w w₀ w' : World} {e : Event} {ready : Prop}

/-- The services the event may look for are there. -/
def Event.Ready : Event → Prop
  | .frame _ env | .drained env | .timeout _ env | .selfStart env | .selfDone env
  | .expireNotice _ env => ∀ label, env.ready label = true
  | .poll _ envs => ∀ name label, (envs name).ready label = true
  | .serviceDone _ _ => True

/-- The one service `label` is. -/
def Event.ReadyFor (label : Label) : Event → Prop
  | .frame _ env | .drained env | .timeout _ env | .selfStart env | .selfDone env
  | .expireNotice _ env => env.ready label = true
  | .poll _ envs => ∀ name, (envs name).ready label = true
  | .serviceDone _ _ => True

/-- The call that may have to be made: the one for the state that is not
believed. -/
def World.needs (w : World) : Label := if w.mem.isLocked then .unlock else .lock

/-- The event is the response to a service call. -/
def Event.isResponse : Event → Bool
  | .serviceDone _ _ => true
  | _ => false

/-- Nothing that concerns the lock has changed. -/
def LockSame (w₀ w : World) : Prop :=
  w.mem.activeEcus = w₀.mem.activeEcus ∧ w.mem.isLocked = w₀.mem.isLocked ∧
    w.mem.lockStatePending = w₀.mem.lockStatePending ∧ w.mem.timeoutTimer = w₀.mem.timeoutTimer ∧
    w.calls = w₀.calls ∧ w.client = w₀.client

/-- What is believed agrees with the active set, and a holder is timed. -/
def Synced (w : World) : Prop :=
  w.mem.isLocked = !w.mem.activeEcus.isEmpty ∧
    (w.mem.activeEcus.isEmpty = false → w.mem.timeoutTimer = true)

/-- The active set may have changed; a call that was under way still is,
and at most one has been made, for the state that is not believed. -/
def LockPart (w₀ w : World) : Prop :=
  w.mem.isLocked = w₀.mem.isLocked ∧ w.client = w₀.client ∧
    ((w.mem.lockStatePending = w₀.mem.lockStatePending ∧ w.calls = w₀.calls ∧
        (w₀.mem.lockStatePending = true → w.mem.timeoutTimer = w₀.mem.timeoutTimer)) ∨
      (w₀.mem.lockStatePending = false ∧ w.mem.lockStatePending = true ∧
        ∃ label, w.calls = w₀.calls ++ [⟨label, w₀.client⟩] ∧
          w₀.mem.isLocked = decide (label = .unlock) ∧
          (label = .lock → w.mem.timeoutTimer = true)))

/-- **What a callback does to the lock**, where the services it looks for
are there if `ready` holds. -/
def LockStep (ready : Prop) (w₀ w : World) : Prop :=
  LockSame w₀ w ∨ LockPart w₀ w ∧ (ready → w.mem.lockStatePending = false → Synced w)

/-- And what is left of the calls where it stops. -/
def LockLeft (w₀ w : World) : Prop :=
  w.client = w₀.client ∧ ∀ call ∈ w.calls, call ∈ w₀.calls ∨ call.client = w₀.client

theorem Event.Ready.readyFor (h : e.Ready) (label : Label) : e.ReadyFor label := by
  cases e with
  | poll now envs => exact fun name => h name label
  | serviceDone label' success => trivial
  | _ => exact h label

theorem LockSame.refl : LockSame w w := ⟨rfl, rfl, rfl, rfl, rfl, rfl⟩

theorem LockSame.part (h : LockSame w₀ w) : LockPart w₀ w := by
  obtain ⟨-, hlocked, hpend, htimer, hcalls, hclient⟩ := h
  exact ⟨hlocked, hclient, Or.inl ⟨hpend, hcalls, fun _ => htimer⟩⟩

theorem LockStep.part (h : LockStep ready w₀ w) : LockPart w₀ w := by
  rcases h with h | h
  · exact h.part
  · exact h.1

theorem LockPart.left (h : LockPart w₀ w) : LockLeft w₀ w := by
  obtain ⟨-, hclient, ⟨-, hcalls, -⟩ | ⟨-, -, label, hcalls, -, -⟩⟩ := h
  · exact ⟨hclient, fun call hcall => Or.inl (hcalls ▸ hcall)⟩
  · refine ⟨hclient, fun call hcall => ?_⟩
    rw [hcalls, List.mem_append, List.mem_singleton] at hcall
    rcases hcall with hcall | rfl
    · exact Or.inl hcall
    · exact Or.inr rfl

/-- A lock step leaves the lock synced, where it leaves no call under way. -/
theorem LockStep.synced (h : LockStep ready w₀ w) (hready : ready)
    (h₀ : w₀.mem.lockStatePending = false → Synced w₀) (hidle : w.mem.lockStatePending = false) :
    Synced w := by
  rcases h with ⟨hactive, hlocked, hpend, htimer, -, -⟩ | ⟨-, hsynced⟩
  · have hsynced₀ := h₀ (hpend ▸ hidle)
    unfold Synced at hsynced₀ ⊢
    rwa [hactive, hlocked, htimer]
  · exact hsynced hready hidle

/-! ## The comparison -/

/-- `_call_service` makes the call if the service is there. -/
theorem wp_callService_ready {label : Label} {E : Raised → World → Prop} {Q : Unit → World → Prop}
    (hno : env.ready label = false → Q () w)
    (h : Q () { w with mem := { w.mem with lockStatePending := true }
                       calls := w.calls ++ [⟨label, w.client⟩] })
    (hE : E .killed { w with mem := { w.mem with lockStatePending := true } })
    (hE' : E .killed { w with mem := { w.mem with lockStatePending := true }
                              calls := w.calls ++ [⟨label, w.client⟩] }) :
    wp (callService env label) Q E w := by
  simp only [callService, wp_ite, wp_bind, wp_setMem, wp_pure]
  split
  · refine wp_perform (fun _ => h) (fun r hr => ?_) fun _ => hE'
    rw [hr env.callAsync.answer_ne_osError]
    exact hE
  · rename_i hready
    exact hno (by simpa using hready)

/-- The call that is made, where one is: for the state the active set asks
for and the last response did not report. -/
theorem LockPart.call {label : Label} {timer : Bool} (h : LockPart w₀ w)
    (hpend : w.mem.lockStatePending = false) (hlocked : w.mem.isLocked = decide (label = .unlock))
    (htimer : label = .lock → timer = true) :
    LockPart w₀ { w with
      mem := { w.mem with lockStatePending := true, timeoutTimer := timer }
      calls := w.calls ++ [⟨label, w.client⟩] } := by
  obtain ⟨hsame, hclient, ⟨hpend₀, hcalls, -⟩ | ⟨-, hbusy, -⟩⟩ := h
  · refine ⟨hsame, hclient, Or.inr ⟨hpend₀ ▸ hpend, rfl, label, ?_, hsame ▸ hlocked, htimer⟩⟩
    simp only [hcalls, hclient]
  · rw [hpend] at hbusy
    cases hbusy

/-- Starting or stopping the timer while no call is under way. -/
theorem LockPart.timer {timer : Bool} (h : LockPart w₀ w) (hpend : w.mem.lockStatePending = false) :
    LockPart w₀ { w with mem := { w.mem with timeoutTimer := timer } } := by
  obtain ⟨hsame, hclient, ⟨hpend₀, hcalls, -⟩ | ⟨-, hbusy, -⟩⟩ := h
  · refine ⟨hsame, hclient, Or.inl ⟨hpend₀, hcalls, fun hbusy => ?_⟩⟩
    rw [← hpend₀, hpend] at hbusy
    cases hbusy
  · rw [hpend] at hbusy
    cases hbusy

/-- **`_update_lock_state`** ends what a callback has begun. -/
theorem wp_updateLockState_step (hready : ready → env.ready w₀.needs = true)
    (h : LockPart w₀ w) :
    wp (updateLockState env) (fun _ => LockStep ready w₀) (fun _ => LockLeft w₀) w := by
  have hleft := h.left
  have hcall : ∀ label timer, w.mem.lockStatePending = false →
      w.mem.isLocked = decide (label = .unlock) → (label = .lock → timer = true) →
      wp (callService env label) (fun _ => LockStep ready w₀) (fun _ => LockLeft w₀)
        { w with mem := { w.mem with timeoutTimer := timer } } := by
    intro label timer hpend hlocked htimer
    have hpart := h.call hpend hlocked htimer
    refine wp_callService_ready (fun hno => Or.inr ⟨h.timer hpend, fun hr => ?_⟩)
      (Or.inr ⟨hpart, fun _ hidle => by cases hidle⟩) hleft hpart.left
    have hneeded : w₀.needs = label := by
      rw [World.needs, ← h.1, hlocked]
      cases label <;> rfl
    have hyes := hready hr
    rw [hneeded, hno] at hyes
    cases hyes
  simp only [updateLockState, wp_bind, wp_get, wp_ite, wp_pure, startTimeoutTimer,
    stopTimeoutTimer, wp_setMem]
  split
  · rename_i hpend
    exact Or.inr ⟨h, fun _ hidle => by rw [hpend] at hidle; cases hidle⟩
  rename_i hpend
  have hidle : w.mem.lockStatePending = false := by simpa using hpend
  have hsync : ∀ timer, w.mem.isLocked = (!w.mem.activeEcus.isEmpty) →
      (w.mem.activeEcus.isEmpty = false → timer = true) →
      LockStep ready w₀ { w with mem := { w.mem with timeoutTimer := timer } } :=
    fun timer hlocked htimer => Or.inr ⟨h.timer hidle, fun _ _ => ⟨hlocked, htimer⟩⟩
  -- a holder or none, against what the last response said
  cases hempty : w.mem.activeEcus.isEmpty <;> cases hlocked : w.mem.isLocked <;>
    simp only [hempty, hlocked, Bool.not_true, Bool.not_false, Bool.and_true, Bool.and_false,
      if_true, if_false, Bool.false_eq_true] at hsync hcall ⊢
  · exact hcall .lock true hidle (by simp) fun _ => rfl
  · exact hsync true trivial fun _ => rfl
  · exact hsync false trivial fun h => by cases h
  · exact hcall .unlock false hidle (by simp) fun h => by cases h

/-! ## Callbacks -/

/-- A verdict that stops on its way asks nothing of the lock. -/
theorem LockLeft.sent {name : Requester} {approved : Bool} {slot : UInt8} (h : LockLeft w₀ w)
    (hsent : SentUpTo name approved slot w w') : LockLeft w₀ w' := by
  obtain ⟨hcalls, hclient, -, -⟩ := hsent
  exact ⟨hclient.trans h.1, fun call hcall => h.2 call (hcalls ▸ hcall)⟩

/-- **Every callback but a response takes a lock step.** -/
theorem lockStep_callback (hwired : Wired w.mem.pending) (hresp : e.isResponse = false) :
    wp (callback cfg e) (fun _ => LockStep (e.ReadyFor w.needs) w) (fun _ => LockLeft w) w := by
  have hsame : LockSame w w := .refl
  cases e with
  | frame f env =>
    refine wp_handleCan (fun _ => Or.inl hsame) (fun m _ => ?_) (fun _ _ => hsame.part.left)
      fun m _ => hsame.part.left
    obtain ⟨name, what, slot, fv⟩ := m
    cases what with
    | request =>
      simp only [process, wp_bind, wp_observe]
      exact wp_beginApproval (fun _ _ _ _ _ _ => wp_updateLockState_step id hsame.part)
        (fun _ _ _ _ _ _ _ _ => wp_updateLockState_step id hsame.part)
        (fun _ _ _ _ _ => wp_updateLockState_step id hsame.part)
        fun _ _ _ hsent => ⟨hsent.2.1, fun _ hcall => Or.inl (hsent.1 ▸ hcall)⟩
    | running =>
      simp only [process, wp_bind, wp_observe, completeUpdate, wp_setMem]
      exact wp_writeNotice (fun _ _ => wp_updateLockState_step id hsame.part) fun _ =>
        hsame.part.left
  | drained env => exact wp_updateLockState_step id hsame.part
  | poll now envs =>
    refine wp_pollApprovals (I := LockStep ((Event.poll now envs).ReadyFor w.needs) w) hwired
      (Or.inl hsame) (fun name p w' hp hw' h => ?_) fun _ h => ⟨h, fun _ => h⟩
    refine wp_pollEntry (hw'.pending.trans hp) (fun _ => h) (fun approved _ => ?_) fun _ _ =>
      h.part.left
    exact wp_resolve (hw'.pending.trans hp)
      (fun _ _ _ _ _ _ => wp_updateLockState_step (fun hready => hready name) h.part)
      fun _ _ _ hsent => h.part.left.sent hsent
  | timeout now env =>
    exact wp_timeoutCheck (I := LockPart w) hsame.part (fun _ _ _ h => h) (Or.inl hsame) fun _ h =>
      wp_updateLockState_step id h
  | selfStart env =>
    refine wp_onSelfStart (wp_mono (wp_updateLockState_step id hsame.part) (fun _ w' h => ?_)
      fun _ _ h => h)
    -- the flag operations come after the look at the lock, and do not concern it
    exact ⟨h, fun _ _ _ => h.part.left⟩
  | selfDone env =>
    exact wp_onSelfDone (wp_updateLockState_step id hsame.part) fun _ _ _ => hsame.part.left
  | expireNotice nid env =>
    exact wp_expireNotice (fun _ _ => Or.inl hsame) fun _ _ => hsame.part.left
  | serviceDone label success => cases hresp

/-- **A step of a running coordinator, up to the response, is a lock
step**, or it stops and leaves what calls it has made. -/
theorem lockStep_step (hwired : Wired w.mem.pending) (hresp : e.isResponse = false) :
    LockLeft w (step cfg w e) ∧
      ((step cfg w e).status = .up → LockStep (e.ReadyFor w.needs) w (step cfg w e)) := by
  refine step_of_wp
    (I := fun w' => LockLeft w w' ∧ (w'.status = .up → LockStep (e.ReadyFor w.needs) w w'))
    ⟨LockSame.refl.part.left, fun _ => Or.inl .refl⟩ fun _ _ => ?_
  exact wp_mono (lockStep_callback hwired hresp) (fun _ _ h => ⟨h.part.left, fun _ => h⟩)
    fun r _ h => ⟨h, fun hr => absurd hr (statusAfter_ne_up r)⟩

/-- What a response does. -/
theorem step_serviceDone {label : Label} {success : Option Bool} (hup : w.status = .up) :
    step cfg w (.serviceDone label success) = { w with mem := { w.mem with
      lockStatePending := false
      isLocked := if success = some true then decide (label = .lock) else w.mem.isLocked } } := by
  rw [step, if_pos ⟨hup, rfl⟩]
  match success with
  | none => rfl
  | some false => rfl
  | some true => rfl

end Coordinator

end VehicleStack
