import VehicleStack.Common.Run
import VehicleStack.Lock.Joint

/-!
# The lock — when the coordinator dies

The coordinator may die anywhere and be started again, while the server
keeps its state. A start forgets who held the vehicle and takes the server
for unlocked; the recovery of a self-update looks at the lock before it
knows anything, and so finds nothing to do. A server that was locked stays
locked with nobody holding the vehicle (`stranded_by_restart`). In every
run in which a start finds the server unlocked, no call of a dead process
locks it afterwards, and no lock answer comes too late, it is never left
so (`restart_releases`).
-/

namespace VehicleStack

namespace Lock

open Coordinator

/-- An event of the joint system, or one in the life of the process. -/
inductive Life (Pose : Type)
  | event (e : Event Pose)
  /-- The process dies between two callbacks. Inside one, the answers that
  its `Env` holds say so. -/
  | kill
  /-- The node is destroyed and the process ends. -/
  | shutdown (env : Env)
  /-- A new process is started. -/
  | start (env : Env)

variable {Pose : Type}

/-- One event, of either kind. -/
def lifeStep (cfg : Config) (scfg : EmergencyStop.Config) (j : Joint Pose) :
    Life Pose → Joint Pose
  | .event e => step cfg scfg j e
  | .kill => { j with node := { j.node with status := .down } }
  | .shutdown env =>
    if j.node.status = .down then j
    else { j with node := { j.node.exec (destroyNode env) with status := .down } }
  | .start env =>
    if j.node.status = .down then { j with node := j.node.boot env } else j

/-- The services the event may look for are there. -/
def Life.Ready : Life Pose → Prop
  | .event e => e.Ready
  | _ => True

/-- A running process that has no call under way and knows of no holder
has not left the server locked. -/
def Unstranded (j : Joint Pose) : Prop :=
  j.node.status = .up → j.node.mem.lockStatePending = false →
    j.node.mem.activeEcus.isEmpty = true → j.server.locked = false

/-- A start finds the server unlocked; while a process runs, no call of a
dead one locks the server, and no answer to a lock call finds it locked and
the vehicle free. -/
def RestartSafe (j : Joint Pose) : Life Pose → Prop
  | .start _ => j.node.status = .down → j.server.locked = false
  | .event (.serve i _) => j.node.status = .up → ∀ c, j.node.calls[i]? = some c →
      c.label = .lock → c.client ≠ j.node.client → j.server.locked = true
  | .event (.respond i) => j.node.status = .up → ∀ r, j.replies[i]? = some r →
      r.label = .lock → r.client = j.node.client → j.server.locked = true →
        j.node.mem.activeEcus.isEmpty = false
  | _ => True

variable {cfg : Config} {scfg : EmergencyStop.Config} {j : Joint Pose} {i : ℕ} {r : Reply}

instance : Decidable (Unstranded j) :=
  inferInstanceAs (Decidable (j.node.status = .up → j.node.mem.lockStatePending = false →
    j.node.mem.activeEcus.isEmpty = true → j.server.locked = false))

instance {l : Life Pose} : Decidable (RestartSafe j l) :=
  match l with
  | .start _ => inferInstanceAs (Decidable (j.node.status = .down → j.server.locked = false))
  | .event (.serve i _) => inferInstanceAs (Decidable (j.node.status = .up →
      ∀ c, j.node.calls[i]? = some c → c.label = .lock → c.client ≠ j.node.client →
        j.server.locked = true))
  | .event (.respond i) => inferInstanceAs (Decidable (j.node.status = .up →
      ∀ r, j.replies[i]? = some r → r.label = .lock → r.client = j.node.client →
        j.server.locked = true → j.node.mem.activeEcus.isEmpty = false))
  | .event (.node _) | .event (.server _) | .kill | .shutdown _ => isTrue trivial

/-- What a running process can count on: when it has no call under way, a
locked server is one it knows of and that somebody holds; once an unlock
call of its own is answered, the server is unlocked. -/
structure Freed (j : Joint Pose) : Prop where
  idle : j.node.mem.lockStatePending = false → j.server.locked = true →
    j.node.mem.isLocked = true ∧ j.node.mem.activeEcus.isEmpty = false
  told : ∀ r ∈ j.replies, r.client = j.node.client → r.label = .unlock → j.server.locked = false

/-- The invariant, from a restart on. -/
def Restarted (j : Joint Pose) : Prop := Carried j ∧ (j.node.status = .up → Freed j)

theorem Restarted.unstranded (h : Restarted j) : Unstranded j := by
  intro hup hidle hempty
  cases hlocked : j.server.locked with
  | false => rfl
  | true =>
    have hheld := ((h.2 hup).idle hidle hlocked).2
    rw [hempty] at hheld
    cases hheld

/-! ## The law through a life -/

/-- **The law of what is on its way outlives the process.** -/
theorem carried_lifeStep (l : Life Pose) (h : Carried j) : Carried (lifeStep cfg scfg j l) := by
  cases l with
  | event e => exact carried_step e h
  | kill => exact ⟨h.1, fun h => by cases h⟩
  | shutdown env =>
    simp only [lifeStep]
    split
    · exact h
    · have hkept : Known (j.node.exec (destroyNode env)) j.replies :=
        exec_of_all (I := fun w => Known w j.replies)
          (wp_destroyNode (fun _ => h.1) fun _ => h.1) fun _ _ h => h
      exact ⟨hkept, fun h => by cases h⟩
  | start env =>
    simp only [lifeStep]
    split
    · exact carried_boot h.1
    · exact h

/-- A callback of the coordinator. -/
theorem Freed.node {w : World} {ready : Prop} (h : Freed j) (hready : ready)
    (hstep : LockStep ready j.node w) : Freed { j with node := w } := by
  have hpart := hstep.part
  have hlocked : w.mem.isLocked = j.node.mem.isLocked := hpart.1
  have hclient : w.client = j.node.client := hpart.2.1
  refine ⟨fun hidle hserver => ?_, fun r hr hown => h.told r hr (hown.trans hclient)⟩
  obtain ⟨-, -, ⟨hpend, -⟩ | ⟨-, hbusy, -⟩⟩ := hpart
  · obtain ⟨hknown, hheld⟩ := h.idle (hpend ▸ hidle) hserver
    refine ⟨hlocked.trans hknown, ?_⟩
    rcases hstep with ⟨hactive, -⟩ | ⟨-, hsynced⟩
    · exact (congrArg Dict.isEmpty hactive).trans hheld
    · have hnonempty := (hsynced hready hidle).1
      rw [hlocked, hknown] at hnonempty
      simpa using hnonempty.symm
  · rw [show w.mem.lockStatePending = false from hidle] at hbusy
    cases hbusy

/-- The server takes a call; one of a dead process does not lock it. -/
theorem Freed.serve {steady : ℚ} {call : ServiceCall} (h : Freed j)
    (hcourier : Courier j.node j.replies) (hi : j.node.calls[i]? = some call)
    (hsafe : call.label = .lock → call.client ≠ j.node.client → j.server.locked = true) :
    Freed (serve scfg j i steady call) := by
  have hserver : (Lock.serve scfg j i steady call).server.locked = decide (call.label = .lock) :=
    answer_locked
  refine ⟨fun hidle hlocked => ?_, fun r hr hown hlabel => ?_⟩
  · rw [hserver, decide_eq_true_eq] at hlocked
    -- with nothing awaited the call can only be a dead process's
    have hforeign : call.client ≠ j.node.client :=
      (hcourier.idle hidle).1 call (List.mem_of_getElem? hi)
    exact h.idle hidle (hsafe hlocked hforeign)
  · rw [hserver, decide_eq_false_iff_not]
    intro hlock
    rcases List.mem_append.1 hr with hr | hr
    · by_cases hforeign : call.client = j.node.client
      · exact (hcourier.call_alone hi hforeign).2.2 r hr hown
      · have hlocked := hsafe hlock hforeign
        rw [h.told r hr hown hlabel] at hlocked
        cases hlocked
    · rw [List.mem_singleton.1 hr] at hlabel
      rw [show call.label = .unlock from hlabel] at hlock
      cases hlock

/-- An answer of its own arrives; one that says locked finds a holder. -/
theorem Freed.respond (h : Freed j) (hcourier : Courier j.node j.replies)
    (hup : j.node.status = .up) (hi : j.replies[i]? = some r) (hown : r.client = j.node.client)
    (hsafe : r.label = .lock → j.server.locked = true → j.node.mem.activeEcus.isEmpty = false) :
    Freed (respond cfg j i r) := by
  have hmem := List.mem_of_getElem? hi
  obtain ⟨-, -, hreplies⟩ := hcourier.reply_alone hi hown
  have hnode : (Lock.respond cfg j i r).node = _ := hcourier.respond_node hi hown hup
  refine ⟨fun _ hlocked => ?_, fun r' hr' hown' => ?_⟩
  · rw [hnode]
    cases hlabel : r.label with
    | lock => exact ⟨rfl, hsafe hlabel hlocked⟩
    -- the server has been unlocked since it took the call
    | unlock =>
      have hopen := h.told r hmem hown hlabel
      rw [show j.server.locked = true from hlocked] at hopen
      cases hopen
  · rw [hnode] at hown'
    exact absurd hown' (hreplies r' hr')

/-! ## Every safe step keeps the server free -/

/-- A step of the joint system. -/
theorem restarted_step (h : Restarted j) {e : Event Pose} (hready : e.Ready)
    (hsafe : RestartSafe j (.event e)) (hup' : (step cfg scfg j e).node.status = .up) :
    Freed (step cfg scfg j e) := by
  obtain ⟨⟨-, hcarried⟩, hfreed⟩ := h
  refine step_cases (P := fun j' => j'.node.status = .up → Freed j') hfreed
    (fun e' he hresp hrun hup => ?_) (fun i steady call he hi hup => ?_)
    (fun i r he hi hup => ?_) (fun server hlocked hup => ?_) hup'
  · subst he
    exact (hfreed hrun).node (hready.readyFor _) ((lockStep_step (hcarried hrun).1 hresp).2 hup)
  · subst he
    exact (hfreed hup).serve (hcarried hup).2 hi (hsafe hup call hi)
  · subst he
    have hrun : j.node.status = .up := by
      by_contra hdown
      simp only [respond, step_of_not_up hdown, ite_self] at hup
      exact hdown hup
    obtain ⟨hidle, htold⟩ := hfreed hrun
    by_cases hown : r.client = j.node.client
    · exact (hfreed hrun).respond (hcarried hrun).2 hrun hi hown fun hlock =>
        hsafe hrun r hi hlock hown
    · simp only [respond, if_neg hown]
      exact ⟨hidle, fun r' hr' => htold r' (List.mem_of_mem_eraseIdx hr')⟩
  · obtain ⟨hidle, htold⟩ := hfreed hup
    rw [← hlocked] at hidle htold
    exact ⟨hidle, htold⟩

/-- **A start over an unlocked server begins with nothing to undo.** -/
theorem restarted_start (h : Carried j) {env : Env} (hdown : j.node.status = .down)
    (hsafe : j.server.locked = false) : Restarted (lifeStep cfg scfg j (.start env)) := by
  refine ⟨carried_lifeStep _ h, fun _ => ?_⟩
  simp only [lifeStep, if_pos hdown]
  refine ⟨fun _ hlocked => ?_, fun _ _ _ _ => hsafe⟩
  rw [show j.server.locked = true from hlocked] at hsafe
  cases hsafe

theorem restarted_lifeStep (h : Restarted j) {l : Life Pose} (hready : l.Ready)
    (hsafe : RestartSafe j l) : Restarted (lifeStep cfg scfg j l) := by
  have hcarried : Carried (lifeStep cfg scfg j l) := carried_lifeStep l h.1
  cases l with
  | event e => exact ⟨hcarried, restarted_step h hready hsafe⟩
  | kill => exact ⟨hcarried, fun h => by cases h⟩
  | shutdown env =>
    simp only [lifeStep] at hcarried ⊢
    split
    · exact h
    · rename_i hrun
      rw [if_neg hrun] at hcarried
      exact ⟨hcarried, fun h => by cases h⟩
  | start env =>
    by_cases hdown : j.node.status = .down
    · exact restarted_start h.1 hdown (hsafe hdown)
    · simpa only [lifeStep, if_neg hdown] using h

/-! ## Runs -/

/-- **After a restart the server is never left locked**, in every run that
is safe from the restart on: whatever came before, and wherever the process
died. -/
theorem restart_releases (cfg : Config) (scfg : EmergencyStop.Config) (d : Disk) (env env' : Env)
    (ls ls' : List (Life Pose))
    (hdown : (Run.run (lifeStep cfg scfg) (Joint.launch Pose d env) ls).node.status = .down)
    (hready : ∀ l ∈ ls', l.Ready)
    (hsafe : Run.Along (lifeStep cfg scfg) RestartSafe
      (Run.run (lifeStep cfg scfg) (Joint.launch Pose d env) ls) (.start env' :: ls')) :
    Run.Throughout (lifeStep cfg scfg) Unstranded
      (lifeStep cfg scfg (Run.run (lifeStep cfg scfg) (Joint.launch Pose d env) ls) (.start env'))
      ls' := by
  have hcarried : Carried (Run.run (lifeStep cfg scfg) (Joint.launch Pose d env) ls) :=
    Run.inv_run (P := fun _ _ => True) (fun _ l h _ => carried_lifeStep l h) carried_launch
      (Run.along_of_forall fun _ _ => trivial)
  obtain ⟨hstart, hrest⟩ := hsafe
  refine Run.throughout_of_along (I := Restarted)
    (fun j l h hl => restarted_lifeStep h hl.1 hl.2) (fun _ h => h.unstranded)
    (restarted_start hcarried hdown (hstart hdown)) ((Run.along_of_forall hready).and hrest)

/-- A self-update is under way, and the vehicle locked for it, when the
process is killed. -/
def killedWhileLocked : List (Life Unit) :=
  [.event (.node (.selfStart {})), .event (.serve 0 0), .event (.respond 0), .kill]

/-- **The new process leaves the server locked**, with nothing on its way,
and looking at the lock again changes nothing. -/
theorem stranded_by_restart :
    ¬ Run.Throughout (lifeStep sampleConfig {}) Unstranded
      (lifeStep sampleConfig {}
        (Run.run (lifeStep sampleConfig {}) (Joint.launch Unit .fresh {}) killedWhileLocked)
        (.start {})) [.event (.node (.drained {}))] :=
  fun h => absurd h.last (by decide +kernel)

/-- The process is killed while its unlock call is under way. -/
theorem restart_releases_once :
    Run.Throughout (lifeStep sampleConfig {}) Unstranded
      (lifeStep sampleConfig {}
        (Run.run (lifeStep sampleConfig {}) (Joint.launch Unit .fresh {})
          [.event (.node (.selfStart {})), .event (.serve 0 0), .event (.respond 0),
            .event (.node (.selfDone {})), .event (.serve 0 0), .kill])
        (.start {}))
      [.event (.respond 0), .event (.node (.selfStart {})), .event (.serve 0 0),
        .event (.respond 0)] :=
  restart_releases sampleConfig {} .fresh {} {} _ _ (by decide +kernel)
    (by simp [Life.Ready, Event.Ready, Coordinator.Event.Ready]) (by decide +kernel)

end Lock

end VehicleStack
