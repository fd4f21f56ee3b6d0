import VehicleStack.Coordinator.Spool

/-!
# The update coordinator — a verdict never runs out of numbers

Each verdict is drawn from a counter of 32 bits, and drawing past the last
value raises. No counter gets that far: every verdict answers a REQUEST of
its own, the REQUESTs of one requester are accepted under increasing values
of 32 bits, and so the verdicts sent to it and the one it waits for are
never more than the floor of its REQUESTs (`Backed`). This holds over any
number of lives that begin on counters nobody has written to, as long as
the counters can be read.
-/

namespace VehicleStack

namespace Coordinator

open Callback SecOC

variable {cfg : Config} {env : Env} {w w' : World} {e : Event} {name : Requester}

/-! ## What is owed -/

/-- The verdicts a requester has been built, and the one it waits for. -/
def owed (w : World) (n : Requester) : ℤ :=
  w.disk.store.load {} .tx n.flow.didAppr + if n ∈ w.mem.pending then 1 else 0

/-- The floor of its REQUESTs. -/
def requested (w : World) (n : Requester) : ℤ := w.disk.store.load {} .rx n.flow.didReq

/-- **Every verdict has its REQUEST.** -/
structure Backed (w : World) : Prop where
  drawn : ∀ n : Requester, 0 ≤ w.disk.store.load {} .tx n.flow.didAppr
  le : ∀ n, owed w n ≤ requested w n
  lt : ∀ n, requested w n < 4294967296

/-- The counters can be read, verdicts stored and sent. -/
structure Env.Serves (env : Env) : Prop where
  rxLoad : env.rx.load = none
  txLoad : env.tx.load = none
  txStore : env.tx.store ≠ .osError
  canSend : env.canSend ≠ .osError

/-- So it is for every frame, and for every entry of a poll, whose verdict
file is text. -/
def Event.Serves : Event → Prop
  | .frame _ env => env.Serves
  | .poll _ envs => ∀ name, (envs name).Serves ∧ VerdictReadable (envs name)
  | _ => True

theorem load_eq {s : FvStore} {io : Io} {kind : Kind} {did : ℕ} (h : io.load = none) :
    s.load io kind did = s.load {} kind did := by
  simp only [FvStore.load, h]

/-- A requester that stops waiting is owed no more than before. -/
theorem Backed.same (h : Backed w) (hstore : w'.disk.store = w.disk.store)
    (hpending : ∀ n, n ∈ w'.mem.pending → n ∈ w.mem.pending) : Backed w' := by
  refine ⟨fun n => ?_, fun n => ?_, fun n => ?_⟩
  · rw [hstore]
    exact h.drawn n
  · have hle := h.le n
    simp only [owed, requested, hstore] at hle ⊢
    split
    · rename_i hmem
      rwa [if_pos (hpending n hmem)] at hle
    · split at hle <;> omega
  · have hlt := h.lt n
    simp only [requested, hstore] at hlt ⊢
    exact hlt

theorem Backed.erase (h : Backed w) (hstore : w'.disk.store = w.disk.store)
    (hpending : w'.mem.pending = w.mem.pending.erase name) : Backed w' :=
  h.same hstore fun _ hn => (Dict.mem_erase.1 (hpending ▸ hn)).2

/-- **Drawing a verdict** that a REQUEST is left for. -/
theorem Backed.draw (h : Backed w) (hslack : owed w name < requested w name)
    (hload : env.tx.load = none)
    (hstore : w'.disk.store = w.disk.store.put .tx name.flow.didAppr
      (w.disk.store.load env.tx .tx name.flow.didAppr + 1))
    (hpending : w'.mem.pending = w.mem.pending) : Backed w' := by
  have hrx : ∀ n, requested w' n = requested w n := by
    intro n
    rw [requested, hstore]
    exact FvStore.load_put_of_ne fun hk => by cases hk.1
  have htx : ∀ n, w'.disk.store.load {} .tx n.flow.didAppr =
      w.disk.store.load {} .tx n.flow.didAppr + if n = name then 1 else 0 := by
    intro n
    rw [hstore, load_eq hload]
    by_cases hn : n = name
    · rw [hn, if_pos rfl]
      exact FvStore.load_put_self rfl
    · rw [if_neg hn, add_zero]
      exact FvStore.load_put_of_ne fun hk => hn (didAppr_injective hk.2)
  refine ⟨fun n => ?_, fun n => ?_, fun n => ?_⟩
  · have hdrawn := h.drawn n
    rw [htx n]
    split <;> omega
  · have hle := h.le n
    rw [hrx n, owed, htx n, hpending]
    by_cases hn : n = name
    · subst hn
      rw [if_pos rfl]
      simp only [owed] at hslack
      omega
    · simp only [owed] at hle
      rwa [if_neg hn, add_zero]
  · rw [hrx n]
    exact h.lt n

/-! ## Taking in a message -/

/-- A message was accepted against its floor. -/
theorem accepts_of_messageOf {canId dlc : ℕ} {data : Bytes} {m : Message}
    (hload : env.rx.load = none) (hm : messageOf cfg w env canId dlc data = some m) :
    accepts cfg.aesCmac cfg.key (w.disk.store.load {} .rx m.did) m.did data = some m.fv := by
  simp only [messageOf, Option.bind_eq_some_iff, Option.map_eq_some_iff] at hm
  obtain ⟨c, -, fv, hacc, rfl⟩ := hm
  rw [load_eq hload] at hacc
  exact hacc

theorem drawn_accept {m : Message} {n : Requester} :
    (w.accept m).disk.store.load {} .tx n.flow.didAppr =
      w.disk.store.load {} .tx n.flow.didAppr :=
  FvStore.load_put_of_ne fun hk => by cases hk.1

theorem owed_accept {m : Message} {n : Requester} : owed (w.accept m) n = owed w n := by
  rw [owed, drawn_accept]
  rfl

/-- Only the requester's own REQUESTs move their floor. -/
theorem requested_accept {m : Message} {n : Requester} : requested (w.accept m) n =
    if n = m.name ∧ m.what = .request then m.fv else requested w n := by
  obtain ⟨n₀, what, slot, fv⟩ := m
  -- the requesters and their two kinds of message have four identifiers between them
  have hdid : n.flow.didReq = n₀.flow.did what ↔ n = n₀ ∧ what = .request := by
    cases n <;> cases n₀ <;> cases what <;> decide
  split
  · rename_i heq
    obtain ⟨rfl, rfl⟩ := heq
    exact FvStore.load_put_self rfl
  · rename_i hne
    exact FvStore.load_put_of_ne fun hk => hne (hdid.1 hk.2)

/-- **A REQUEST leaves room for one verdict more.** -/
theorem owed_lt_of_request {canId dlc : ℕ} {data : Bytes} {m : Message} (h : Backed w)
    (hload : env.rx.load = none) (hm : messageOf cfg w env canId dlc data = some m)
    (hwhat : m.what = .request) : owed (w.accept m) m.name < requested (w.accept m) m.name := by
  have hacc := accepts_of_messageOf hload hm
  obtain ⟨n, what, slot, fv⟩ := m
  obtain rfl : what = .request := hwhat
  rw [owed_accept, requested_accept, if_pos ⟨rfl, rfl⟩]
  have hle := h.le n
  have hdrawn := h.drawn n
  have hnonneg : 0 ≤ requested w n := by
    simp only [owed] at hle
    split at hle <;> omega
  exact hle.trans_lt (lt_of_accepts hnonneg (h.lt n) hacc)

/-- **Taking in a message keeps every verdict backed.** -/
theorem Backed.accept {canId dlc : ℕ} {data : Bytes} {m : Message} (h : Backed w)
    (hload : env.rx.load = none) (hm : messageOf cfg w env canId dlc data = some m) :
    Backed (w.accept m) := by
  refine ⟨fun n => ?_, fun n => ?_, fun n => ?_⟩
  · rw [drawn_accept]
    exact h.drawn n
  · by_cases hn : n = m.name ∧ m.what = .request
    · rw [hn.1]
      exact (owed_lt_of_request h hload hm hn.2).le
    · rw [owed_accept, requested_accept, if_neg hn]
      exact h.le n
  · rw [requested_accept]
    split
    · exact (accepts_eq_some.1 (accepts_of_messageOf hload hm)).2.2.1.2
    · exact h.lt n

/-! ## Callbacks -/

theorem backed_updateLockState (h : Backed w) :
    wp (updateLockState env) (fun _ => Backed) (fun _ => Backed) w :=
  wp_updateLockState (fun _ _ _ => h.same rfl fun _ => id) fun _ _ _ => h.same rfl fun _ => id

/-- **Sending a verdict** that a REQUEST is left for. -/
theorem backed_sendVerdict {apprCanId : ℕ} {slot : UInt8} {approved : Bool} (h : Backed w)
    (hslack : owed w name < requested w name) (hload : env.tx.load = none) :
    wp (sendVerdict cfg env name name.flow.didAppr apprCanId slot approved) (fun _ => Backed)
      (fun _ => Backed) w := by
  simp only [sendVerdict, wp_bind, wp_onStore, wp_observe]
  refine wp_secocBuild (fun _ _ => wp_perform (fun _ => ?_) (fun _ _ => ?_) fun _ => ?_)
    (fun _ _ => h.same rfl fun _ => id) fun _ _ => ?_
  · exact h.draw hslack hload rfl rfl
  · exact h.draw hslack hload rfl rfl
  · exact h.draw hslack hload rfl rfl
  · exact h.draw hslack hload rfl rfl

theorem backed_failOpen {apprCanId : ℕ} {slot : UInt8} (h : Backed w)
    (hslack : owed w name < requested w name) (hload : env.tx.load = none) :
    wp (failOpen cfg env name slot name.flow.didAppr apprCanId) (fun _ => Backed)
      (fun _ => Backed) w := by
  simp only [failOpen, wp_bind]
  exact wp_mono (backed_sendVerdict h hslack hload) (fun _ _ h' => h'.same rfl fun _ => id)
    fun _ _ h' => h'

/-- A requester that no longer waits is owed one less, or as much. -/
theorem owed_le_of_erase (hstore : w'.disk.store = w.disk.store)
    (hpending : w'.mem.pending = w.mem.pending.erase name) : owed w' name ≤ owed w name := by
  simp only [owed, hstore, hpending, Dict.mem_erase, ne_eq, not_true_eq_false, false_and, if_false]
  split <;> omega

/-- **Beginning an approval**, for which a REQUEST is left. -/
theorem backed_beginApproval {apprCanId : ℕ} {slot : UInt8} (h : Backed w)
    (hslack : owed w name < requested w name) (hload : env.tx.load = none) :
    wp (beginApproval cfg env name slot name.flow.didAppr apprCanId) (fun _ => Backed)
      (fun _ => Backed) w := by
  simp only [beginApproval, wp_ite, gate_eq]
  cases hasks : asksDriver cfg env with
  | false =>
    simp only [Bool.not_false, if_true]
    exact backed_failOpen h hslack hload
  | true =>
    simp only [Bool.not_true, Bool.false_eq_true, if_false]
    rw [wp_bind]
    refine wp_dropPending (fun offers => ?_) fun offers => h.erase rfl rfl
    simp only [wp_bind, wp_setMem, wp_get]
    refine wp_writeOffer (fun _ offers => ?_) (fun _ => ?_) fun offers => h.erase rfl rfl
    · -- the requester waits now, for the verdict that there is room for
      simp only [if_true, startPollTimer, wp_bind, wp_setMem]
      refine ⟨h.drawn, fun n => ?_, h.lt⟩
      have hle := h.le n
      simp only [owed, requested] at hslack hle ⊢
      simp only [Dict.mem_set, Dict.mem_erase]
      by_cases hn : n = name
      · subst hn
        rw [if_pos (Or.inl rfl)]
        split at hslack <;> omega
      · simpa only [hn, ne_eq, not_false_eq_true, true_and, false_or] using hle
    · simp only [Bool.false_eq_true, if_false]
      refine backed_failOpen (h.erase rfl rfl) (lt_of_le_of_lt ?_ hslack) hload
      exact owed_le_of_erase rfl rfl

/-- **Resolving an entry** leaves its REQUEST for its verdict. -/
theorem backed_resolve {p : Pending} {approved : Bool} (h : Backed w)
    (hp : w.mem.pending.get? name = some p) (hdid : p.didAppr = name.flow.didAppr)
    (hload : env.tx.load = none) :
    wp (resolve cfg env name approved) (fun _ => Backed) (fun _ => Backed) w := by
  simp only [resolve, wp_bind, wp_get, hp, wp_popPending, hdid]
  refine wp_withdrawOffer (fun offers => ?_) fun offers => h.erase rfl rfl
  rw [wp_bind]
  -- the entry goes first, and what was owed to it is the room for its verdict
  have hslack := h.le name
  rw [owed, if_pos (Dict.mem_of_get? hp)] at hslack
  refine wp_mono (backed_sendVerdict (h.erase rfl rfl) ?_ hload) (fun _ w' h' => ?_)
    fun _ _ h' => h'
  · simp only [owed, requested, Dict.mem_erase, ne_eq, not_true_eq_false, false_and, if_false]
    simp only [requested] at hslack
    omega
  · rw [wp_ite]
    split
    · rw [wp_bind, wp_activate]
      exact backed_updateLockState (h'.same rfl fun _ => id)
    · exact backed_updateLockState h'

/-- **Every callback keeps every verdict backed**, wherever it stops. -/
theorem backed_callback (h : Backed w) (hwired : Wired w.mem.pending) (hserves : e.Serves) :
    wp (callback cfg e) (fun _ => Backed) (fun _ => Backed) w := by
  cases e with
  | frame f env =>
    refine wp_handleCan (fun _ => h) (fun m hm => ?_) (fun _ _ => h) fun m hm =>
      h.accept hserves.rxLoad hm
    have haccept := h.accept hserves.rxLoad hm
    have hslack := owed_lt_of_request h hserves.rxLoad hm
    obtain ⟨n, what, slot, fv⟩ := m
    cases what with
    | request =>
      simp only [process, wp_bind, wp_observe, Requester.flow_name]
      refine wp_mono (backed_beginApproval (haccept.same rfl fun _ => id) (hslack rfl)
        hserves.txLoad) (fun _ _ h' => backed_updateLockState h') fun _ _ h' => h'
    | running =>
      simp only [process, wp_bind, wp_observe, completeUpdate, wp_setMem]
      exact wp_writeNotice (fun _ _ => backed_updateLockState (haccept.same rfl fun _ => id))
        fun _ => haccept.same rfl fun _ => id
  | drained env => exact backed_updateLockState h
  | poll now envs =>
    refine wp_pollApprovals (I := Backed) hwired h (fun n p w' hp hsame hI => ?_) fun w' hI =>
      ⟨hI, fun _ => hI.same rfl fun _ => id⟩
    have hp' := hsame.pending.trans hp
    exact wp_pollEntry hp' (fun _ => hI) (fun approved _ =>
      backed_resolve hI hp' (hwired n p hp).1 (hserves n).1.txLoad) fun _ _ => hI
  | timeout now env =>
    exact wp_timeoutCheck (I := Backed) h (fun _ _ _ hI => hI.same rfl fun _ => id) h fun _ hI =>
      backed_updateLockState hI
  | selfStart env =>
    exact wp_onSelfStart (wp_updateLockState (fun _ _ _ => ⟨h.same rfl fun _ => id, fun _ _ _ =>
      h.same rfl fun _ => id⟩) fun _ _ _ => h.same rfl fun _ => id)
  | selfDone env =>
    exact wp_onSelfDone (backed_updateLockState (h.same rfl fun _ => id)) fun _ _ _ =>
      h.same rfl fun _ => id
  | expireNotice nid env =>
    exact wp_expireNotice (fun _ _ => h.same rfl fun _ => id) fun _ _ => h.same rfl fun _ => id
  | serviceDone label success => exact wp_onServiceDone fun _ => h.same rfl fun _ => id

/-! ## Lives -/

theorem backed_step (h : Backed w) (hwired : w.status = .up → Wired w.mem.pending)
    (hserves : e.Serves) : Backed (step cfg w e) :=
  step_of_wp h fun hup _ => wp_mono (backed_callback h (hwired hup) hserves) (fun _ _ h' => h')
    fun _ _ h' => h'.same rfl fun _ => id

/-- Before the first start nothing has been drawn. -/
theorem backed_off {d : Disk} (hd : d.store = .fresh) : Backed (World.off d) := by
  have hzero : ∀ kind did, (World.off d).disk.store.load {} kind did = 0 := by
    intro kind did
    have hstore : (World.off d).disk.store = .fresh := hd
    rw [hstore]
    rfl
  refine ⟨fun n => (hzero _ _).ge, fun n => ?_, fun n => ?_⟩
  · rw [owed, requested, hzero, hzero]
    exact le_rfl
  · rw [requested, hzero]
    norm_num

/-- A verdict that is waited for can be drawn. -/
theorem sendSound_of_backed {p : Pending} (h : Backed w) (hserves : env.Serves)
    (hp : w.mem.pending.get? name = some p) (hdid : p.didAppr = name.flow.didAppr) :
    SendSound env w.disk.store p.didAppr := by
  have hdrawn := h.drawn name
  have hle := h.le name
  have hlt := h.lt name
  rw [owed, if_pos (Dict.mem_of_get? hp)] at hle
  refine ⟨⟨?_, hserves.txStore⟩, fun _ => hserves.canSend⟩
  rw [hdid, load_eq hserves.txLoad]
  omega

end Coordinator

end VehicleStack
