import VehicleStack.Coordinator.Book
import VehicleStack.Coordinator.Locking
import VehicleStack.EmergencyStop.Model
import Mathlib.Data.List.Perm.Basic

/-!
# The lock — the coordinator and the server together

The coordinator asks, the emergency-stop server takes the requests one at a
time and in any order, and the answers reach the coordinator later. Calls
and answers carry the number of the process that made the call: a client
that is gone is answered like any other, but nobody receives the answer.
`Courier` is the law of what is on its way, and every step of the joint
system keeps it (`carried_step`).
-/

namespace VehicleStack

namespace Lock

open Coordinator

/-- An answer on its way to the process that asked. -/
structure Reply where
  label : Label
  client : ℕ
  success : Bool
  deriving DecidableEq, Repr

/-- Both parties, and the answers between them. The calls on their way are
with the node. -/
structure Joint (Pose : Type) where
  node : World
  server : EmergencyStop.Server Pose
  replies : List Reply

/-- What can happen next. -/
inductive Event (Pose : Type)
  /-- A callback of the coordinator, other than a response. -/
  | node (e : Coordinator.Event)
  /-- The server takes the `i`-th call on its way. -/
  | serve (i : ℕ) (steady : ℚ)
  /-- The `i`-th answer on its way arrives. -/
  | respond (i : ℕ)
  /-- A callback of the server, other than a service. -/
  | server (e : EmergencyStop.Event Pose)

/-- The event is a call of one of the server's services. -/
def isService {Pose : Type} : EmergencyStop.Event Pose → Bool
  | .lock | .unlock _ => true
  | _ => false

variable {Pose : Type}

/-- The service a call asks for. -/
def answer (scfg : EmergencyStop.Config) (s : EmergencyStop.Server Pose) (steady : ℚ) :
    Label → EmergencyStop.Response × EmergencyStop.Server Pose
  | .lock => EmergencyStop.srvLock scfg s
  | .unlock => EmergencyStop.srvUnlock scfg s steady

/-- The server takes a call. -/
def serve (scfg : EmergencyStop.Config) (j : Joint Pose) (i : ℕ) (steady : ℚ)
    (call : ServiceCall) : Joint Pose :=
  let r := answer scfg j.server steady call.label
  { node := { j.node with calls := j.node.calls.eraseIdx i }
    server := r.2
    replies := j.replies ++ [⟨call.label, call.client, r.1.success⟩] }

/-- An answer arrives, if the process that asked is still there. -/
def respond (cfg : Config) (j : Joint Pose) (i : ℕ) (r : Reply) : Joint Pose :=
  { j with
    node := if r.client = j.node.client then
        Coordinator.step cfg j.node (.serviceDone r.label (some r.success))
      else j.node
    replies := j.replies.eraseIdx i }

/-- One event of the joint system. -/
def step (cfg : Config) (scfg : EmergencyStop.Config) (j : Joint Pose) : Event Pose → Joint Pose
  | .node e => if e.isResponse then j else { j with node := Coordinator.step cfg j.node e }
  | .serve i steady =>
    match j.node.calls[i]? with
    | none => j
    | some call => serve scfg j i steady call
  | .respond i =>
    match j.replies[i]? with
    | none => j
    | some r => respond cfg j i r
  | .server e => if isService e then j else { j with server := EmergencyStop.step scfg j.server e }

/-- The coordinator has just been started over some disk, and so has the
server. -/
def Joint.launch (Pose : Type) (d : Disk) (env : Env) : Joint Pose :=
  ⟨World.launch d env, .init Pose, []⟩

/-- The services the event may look for are there. -/
def Event.Ready : Event Pose → Prop
  | .node e => e.Ready
  | _ => True

/-! ## The server's part -/

variable {cfg : Config} {scfg : EmergencyStop.Config} {s : EmergencyStop.Server Pose} {steady : ℚ}
  {label : Label}

@[simp] theorem answer_success : (answer scfg s steady label).1.success = true := by
  cases label <;> rfl

theorem cancelPendingRestore_locked : (EmergencyStop.cancelPendingRestore s).locked = s.locked := by
  unfold EmergencyStop.cancelPendingRestore
  split <;> rfl

theorem scheduleGoalRestore_locked :
    (EmergencyStop.scheduleGoalRestore scfg s steady).locked = s.locked := by
  unfold EmergencyStop.scheduleGoalRestore
  split
  · rfl
  · exact cancelPendingRestore_locked

/-- **A call does what it asks for.** -/
@[simp] theorem answer_locked : (answer scfg s steady label).2.locked = decide (label = .lock) := by
  cases label with
  | lock => rfl
  | unlock => exact scheduleGoalRestore_locked

/-- Only a service touches the lock. -/
theorem server_step_locked {e : EmergencyStop.Event Pose} (h : isService e = false) :
    (EmergencyStop.step scfg s e).locked = s.locked := by
  cases e with
  | lock => cases h
  | unlock steady => cases h
  | goalPose msg =>
    simp only [EmergencyStop.step, EmergencyStop.onGoalPose]
    split <;> rfl
  | navStatus statusList => rfl
  | lockTimer =>
    simp only [EmergencyStop.step, EmergencyStop.onLockTimer]
    split <;> rfl
  | restoreTimer steady now =>
    simp only [EmergencyStop.step, EmergencyStop.onRestoreTimer]
    split
    · split
      · rfl
      · split <;> rfl
    · rfl

/-! ## What is on its way -/

/-- One element of a list, counted apart. -/
theorem countP_eraseIdx {α : Type} {p : α → Bool} {xs : List α} {i : ℕ} {x : α}
    (h : xs[i]? = some x) : xs.countP p = (xs.eraseIdx i).countP p + if p x then 1 else 0 := by
  obtain ⟨hi, rfl⟩ := List.getElem?_eq_some_iff.1 h
  have hperm : (xs[i] :: xs.eraseIdx i).Perm xs := List.getElem_cons_eraseIdx_perm hi
  rw [← hperm.countP_eq p, List.countP_cons]

/-- How many of the calls and answers on their way are the process's own. -/
def underWay (w : World) (replies : List Reply) : ℕ :=
  w.calls.countP (fun c => c.client = w.client) + replies.countP fun r => r.client = w.client

/-- **What is on its way** for the running process: one call or its answer
while it waits for one, nothing otherwise; and it is for the state that the
last answer did not report. -/
structure Courier (w : World) (replies : List Reply) : Prop where
  one : underWay w replies = w.mem.lockStatePending.toNat
  asked : ∀ c ∈ w.calls, c.client = w.client → w.mem.isLocked = decide (c.label = .unlock)
  told : ∀ r ∈ replies, r.client = w.client →
    r.success = true ∧ w.mem.isLocked = decide (r.label = .unlock)

/-- Nothing on its way is from a process yet to come. -/
def Known (w : World) (replies : List Reply) : Prop :=
  (∀ c ∈ w.calls, c.client ≤ w.client) ∧ ∀ r ∈ replies, r.client ≤ w.client

/-- The law of the joint system. -/
def Carried (j : Joint Pose) : Prop :=
  Known j.node j.replies ∧
    (j.node.status = .up → Wired j.node.mem.pending ∧ Courier j.node j.replies)

variable {j : Joint Pose} {w w' : World} {replies : List Reply} {i : ℕ}

/-- While nothing is awaited, nothing of the process's own is on its way. -/
theorem Courier.idle (h : Courier w replies) (hidle : w.mem.lockStatePending = false) :
    (∀ c ∈ w.calls, c.client ≠ w.client) ∧ ∀ r ∈ replies, r.client ≠ w.client := by
  have hone := h.one
  rw [hidle, Bool.toNat_false, underWay, Nat.add_eq_zero_iff, List.countP_eq_zero,
    List.countP_eq_zero] at hone
  simpa using hone

/-- One thing found under way leaves nothing else. -/
theorem alone_of_one {m n : ℕ} {b : Bool} (h : m + 1 + n = b.toNat) : b = true ∧ m = 0 ∧ n = 0 := by
  cases b with
  | false =>
    rw [Bool.toNat_false] at h
    omega
  | true =>
    rw [Bool.toNat_true] at h
    exact ⟨rfl, by omega, by omega⟩

/-- **A callback that looks at the lock keeps the law.** -/
theorem Courier.part (h : Courier w replies) (hpart : LockPart w w') : Courier w' replies := by
  obtain ⟨hlocked, hclient, ⟨hpend, hcalls, -⟩ | ⟨hidle, hpend, label, hcalls, hlabel, -⟩⟩ := hpart
  · exact ⟨by simpa only [underWay, hpend, hcalls, hclient] using h.one,
      by simpa only [hcalls, hclient, hlocked] using h.asked,
      by simpa only [hclient, hlocked] using h.told⟩
  · refine ⟨?_, ?_, by simpa only [hclient, hlocked] using h.told⟩
    · have hone := h.one
      simp only [underWay, hidle, Bool.toNat_false] at hone
      simp only [underWay, hpend, hcalls, hclient, Bool.toNat_true, List.countP_append,
        List.countP_singleton, decide_true, if_true]
      omega
    · intro c hc hown
      rw [hcalls, List.mem_append, List.mem_singleton] at hc
      rcases hc with hc | rfl
      · exact hlocked ▸ h.asked c hc (hown.trans hclient)
      · exact hlocked ▸ hlabel

/-- **So does a call that is taken.** -/
theorem Courier.serve {call : ServiceCall} (h : Courier w replies) (hi : w.calls[i]? = some call) :
    Courier { w with calls := w.calls.eraseIdx i }
      (replies ++ [⟨call.label, call.client, true⟩]) := by
  refine ⟨?_, fun c hc => h.asked c (List.mem_of_mem_eraseIdx hc), fun r hr hown => ?_⟩
  · have hone := h.one
    rw [underWay, countP_eraseIdx hi] at hone
    simp only [underWay, List.countP_append, List.countP_singleton]
    omega
  · rw [List.mem_append, List.mem_singleton] at hr
    rcases hr with hr | rfl
    · exact h.told r hr hown
    · exact ⟨rfl, h.asked call (List.mem_of_getElem? hi) hown⟩

/-- An answer to a process that is gone. -/
theorem Courier.drop {r : Reply} (h : Courier w replies) (hi : replies[i]? = some r)
    (hr : r.client ≠ w.client) : Courier w (replies.eraseIdx i) := by
  refine ⟨?_, h.asked, fun r' hr' => h.told r' (List.mem_of_mem_eraseIdx hr')⟩
  have hone := h.one
  rw [underWay, countP_eraseIdx hi] at hone
  simpa [underWay, hr] using hone

/-- A call of the process's own is the only one, and it is not answered. -/
theorem Courier.call_alone {call : ServiceCall} (h : Courier w replies)
    (hi : w.calls[i]? = some call) (hown : call.client = w.client) :
    w.mem.lockStatePending = true ∧ (∀ c ∈ w.calls.eraseIdx i, c.client ≠ w.client) ∧
      ∀ r ∈ replies, r.client ≠ w.client := by
  have hone := h.one
  simp only [underWay, countP_eraseIdx hi, hown, decide_true, if_true] at hone
  obtain ⟨hpend, hzero⟩ := alone_of_one hone
  simpa [List.countP_eq_zero] using And.intro hpend hzero

/-- So is an answer to it, which has been awaited. -/
theorem Courier.reply_alone {r : Reply} (h : Courier w replies) (hi : replies[i]? = some r)
    (hown : r.client = w.client) :
    w.mem.lockStatePending = true ∧ (∀ c ∈ w.calls, c.client ≠ w.client) ∧
      ∀ r' ∈ replies.eraseIdx i, r'.client ≠ w.client := by
  have hone := h.one
  simp only [underWay, countP_eraseIdx hi, hown, decide_true, if_true, ← Nat.add_assoc] at hone
  rw [Nat.add_right_comm] at hone
  obtain ⟨hpend, hzero⟩ := alone_of_one hone
  simpa [List.countP_eq_zero] using And.intro hpend hzero

/-- **And an answer that arrives.** -/
theorem Courier.respond {r : Reply} {locked : Bool} (h : Courier w replies)
    (hi : replies[i]? = some r) (hown : r.client = w.client) :
    Courier { w with mem := { w.mem with lockStatePending := false, isLocked := locked } }
      (replies.eraseIdx i) := by
  obtain ⟨-, hcalls, hreplies⟩ := h.reply_alone hi hown
  refine ⟨?_, fun c hc hown => absurd hown (hcalls c hc), fun r' hr' hown =>
    absurd hown (hreplies r' hr')⟩
  simp only [underWay, Bool.toNat_false, Nat.add_eq_zero_iff, List.countP_eq_zero]
  exact ⟨fun c hc h => hcalls c hc (of_decide_eq_true h), fun r' hr' h =>
    hreplies r' hr' (of_decide_eq_true h)⟩

/-- The coordinator after it has taken in an answer of its own. -/
theorem Courier.respond_node {r : Reply} (h : Courier j.node j.replies)
    (hi : j.replies[i]? = some r) (hown : r.client = j.node.client) (hup : j.node.status = .up) :
    (Lock.respond cfg j i r).node = { j.node with mem := { j.node.mem with
      lockStatePending := false, isLocked := decide (r.label = .lock) } } := by
  have hsuccess := (h.told r (List.mem_of_getElem? hi) hown).1
  simp only [Lock.respond, if_pos hown, step_serviceDone hup, hsuccess, if_true]

/-- A process that has just started waits for nothing. -/
theorem Known.courier_boot (h : Known w replies) {flag offers notices status} :
    Courier ({ w with mem := .init, status := status, client := w.client + 1 }.swept
      flag offers notices) replies := by
  have hcalls : ∀ c ∈ w.calls, c.client ≠ w.client + 1 := fun c hc =>
    (Nat.lt_succ_of_le (h.1 c hc)).ne
  have hreplies : ∀ r ∈ replies, r.client ≠ w.client + 1 := fun r hr =>
    (Nat.lt_succ_of_le (h.2 r hr)).ne
  refine ⟨?_, fun c hc hown => absurd hown (hcalls c hc), fun r hr hown =>
    absurd hown (hreplies r hr)⟩
  simp only [underWay, World.swept, Memory.init, Bool.toNat_false, Nat.add_eq_zero_iff,
    List.countP_eq_zero]
  exact ⟨fun c hc h => hcalls c hc (of_decide_eq_true h), fun r hr h =>
    hreplies r hr (of_decide_eq_true h)⟩

/-! ## Every step keeps it -/

theorem Known.serve {call : ServiceCall} {success : Bool} (h : Known w replies)
    (hi : w.calls[i]? = some call) :
    Known { w with calls := w.calls.eraseIdx i }
      (replies ++ [⟨call.label, call.client, success⟩]) := by
  refine ⟨fun c hc => h.1 c (List.mem_of_mem_eraseIdx hc), fun r hr => ?_⟩
  rw [List.mem_append, List.mem_singleton] at hr
  rcases hr with hr | rfl
  · exact h.2 r hr
  · exact h.1 call (List.mem_of_getElem? hi)

theorem Known.left (h : Known w replies) (hleft : LockLeft w w') : Known w' replies := by
  obtain ⟨hclient, hcalls⟩ := hleft
  refine ⟨fun c hc => ?_, fun r hr => hclient ▸ h.2 r hr⟩
  rw [hclient]
  rcases hcalls c hc with hc | hc
  · exact h.1 c hc
  · exact hc.le

/-- **What a step of the joint system does**: nothing, where the event finds
nothing to do; or what one of the two parties, or the way between them,
makes of it. -/
theorem step_cases {P : Joint Pose → Prop} {e : Event Pose} (hsame : P j)
    (hnode : ∀ e', e = .node e' → e'.isResponse = false → j.node.status = .up →
      P { j with node := Coordinator.step cfg j.node e' })
    (hserve : ∀ i steady call, e = .serve i steady → j.node.calls[i]? = some call →
      P (serve scfg j i steady call))
    (hrespond : ∀ i r, e = .respond i → j.replies[i]? = some r → P (respond cfg j i r))
    (hserver : ∀ server : EmergencyStop.Server Pose, server.locked = j.server.locked →
      P { j with server := server }) : P (step cfg scfg j e) := by
  cases e with
  | node e =>
    simp only [step]
    split
    · exact hsame
    · rename_i hresp
      by_cases hrun : j.node.status = .up
      · exact hnode e rfl (by simpa using hresp) hrun
      · rw [step_of_not_up hrun]
        exact hsame
  | serve i steady =>
    simp only [step]
    split
    · exact hsame
    · rename_i call hi
      exact hserve i steady call rfl hi
  | respond i =>
    simp only [step]
    split
    · exact hsame
    · rename_i r hi
      exact hrespond i r rfl hi
  | server e =>
    simp only [step]
    split
    · exact hsame
    · rename_i hservice
      exact hserver _ (server_step_locked (by simpa using hservice))

/-- **Every step of the joint system keeps the law.** -/
theorem carried_step (e : Event Pose) (h : Carried j) : Carried (step cfg scfg j e) := by
  obtain ⟨hknown, hup⟩ := id h
  refine step_cases h (fun e' _ hresp hrun => ?_) (fun i steady call _ hi => ?_)
    (fun i r _ hi => ?_) fun _ _ => h
  · obtain ⟨hleft, hstep⟩ := lockStep_step (hup hrun).1 hresp
    -- what a callback that stops has sent is still from this process
    refine ⟨hknown.left hleft, fun hup' => ⟨?_, (hup hrun).2.part (hstep hup').part⟩⟩
    exact wired_step (fun _ => (hup hrun).1) hup'
  · simp only [serve, answer_success]
    exact ⟨hknown.serve hi, fun hrun => ⟨(hup hrun).1, (hup hrun).2.serve hi⟩⟩
  · simp only [respond]
    have hreplies : ∀ r' ∈ j.replies.eraseIdx i, r'.client ≤ j.node.client := fun r' hr' =>
      hknown.2 r' (List.mem_of_mem_eraseIdx hr')
    by_cases hr : r.client = j.node.client
    · rw [if_pos hr]
      by_cases hrun : j.node.status = .up
      · rw [step_serviceDone hrun]
        exact ⟨⟨hknown.1, hreplies⟩, fun _ =>
          ⟨(hup hrun).1, (hup hrun).2.respond hi hr⟩⟩
      · rw [step_of_not_up hrun]
        exact ⟨⟨hknown.1, hreplies⟩, fun h => absurd h hrun⟩
    · rw [if_neg hr]
      exact ⟨⟨hknown.1, hreplies⟩, fun hrun => ⟨(hup hrun).1, (hup hrun).2.drop hi hr⟩⟩

/-- A start has it. -/
theorem carried_boot {env : Env} (h : Known j.node j.replies) :
    Carried { j with node := j.node.boot env } := by
  refine boot_of_all (I := fun w => Carried { j with node := w }) fun flag offers notices status =>
    ⟨⟨fun c hc => (h.1 c hc).trans (Nat.le_succ _), fun r hr => (h.2 r hr).trans (Nat.le_succ _)⟩,
      fun _ => ⟨wired_empty, h.courier_boot⟩⟩

theorem carried_launch {d : Disk} {env : Env} : Carried (Joint.launch Pose d env) := by
  have hknown : Known { World.start with disk := d } [] :=
    ⟨fun c hc => (List.not_mem_nil hc).elim, fun r hr => (List.not_mem_nil hr).elim⟩
  exact carried_boot (j := ⟨{ World.start with disk := d }, .init Pose, []⟩) hknown

end Lock

end VehicleStack
