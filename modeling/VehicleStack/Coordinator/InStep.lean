import VehicleStack.Common.Lockstep
import VehicleStack.Coordinator.Reliable

/-!
# The update coordinator — what a requester sees of a callback

`Alike name` says that two worlds look alike to a requester: its entry, its
hold on the vehicle, its counters and the verdicts it has been sent, but
not the ids of its offers, which count the other requester's offers too. A
callback that is none of its business leaves its view alone
(`alike_callback`), and one that is does the same from worlds that look
alike (`inStep_handleCan`, `inStep_pollApprovals`): the two runs of it are
followed side by side.
-/

namespace VehicleStack

namespace Coordinator

open Callback SecOC

variable {cfg : Config} {env env' : Env} {w w' : World} {e : Event} {name n : Requester}

/-! ## What a requester sees -/

/-- What an entry of the table says, the offer it stands for aside. -/
def Pending.terms (p : Pending) : UInt8 × ℕ × ℕ × ℚ := (p.slot, p.didAppr, p.apprCanId, p.deadline)

/-- The verdict an entry of the trace is, where it is one to the
requester. -/
def Obs.verdictTo (name : Requester) : Obs → Option (Bool × UInt8 × ℤ)
  | .verdict n approved slot fv => if n = name then some (approved, slot, fv) else none
  | _ => none

/-- The verdicts a requester has been sent: the answer, the slot and the
freshness value. -/
def verdictsTo (name : Requester) (tr : List Obs) : List (Bool × UInt8 × ℤ) :=
  tr.filterMap (Obs.verdictTo name)

@[simp] theorem verdictsTo_append {tr tr' : List Obs} :
    verdictsTo name (tr ++ tr') = verdictsTo name tr ++ verdictsTo name tr' :=
  List.filterMap_append

/-- The frames on a requester's approval id. -/
def framesTo (name : Requester) (frames : List (ℕ × Bytes)) : List (ℕ × Bytes) :=
  frames.filter fun f => f.1 = name.flow.apprCanId

theorem apprCanId_injective {m n : Requester} (h : m.flow.apprCanId = n.flow.apprCanId) :
    m = n := by
  cases m <;> cases n <;> first | rfl | exact absurd h (by decide)

/-- **The frames to a requester are those of the verdicts to it.** -/
theorem framesTo_framesOf {tr : List Obs} : framesTo n (framesOf cfg tr) =
    (verdictsTo n tr).map fun v => verdictFrame cfg n v.1 v.2.1 v.2.2 := by
  induction tr with
  | nil => rfl
  | cons o tr ih =>
    have hrest : ∀ o : Obs, o.frame cfg = none → o.verdictTo n = none →
        framesTo n (framesOf cfg (o :: tr)) =
          (verdictsTo n (o :: tr)).map fun v => verdictFrame cfg n v.1 v.2.1 v.2.2 := by
      intro o hframe hto
      rw [framesOf, List.filterMap_cons_none hframe, verdictsTo, List.filterMap_cons_none hto]
      exact ih
    cases o with
    | request | running | built | expired => exact hrest _ rfl rfl
    | verdict m approved slot fv =>
      have hcons : framesOf cfg (.verdict m approved slot fv :: tr) =
          verdictFrame cfg m approved slot fv :: framesOf cfg tr := rfl
      rw [hcons]
      by_cases hm : m = n
      · obtain rfl := hm
        have hto : (Obs.verdict m approved slot fv).verdictTo m = some (approved, slot, fv) :=
          if_pos rfl
        have hkeep : framesTo m (verdictFrame cfg m approved slot fv :: framesOf cfg tr) =
            verdictFrame cfg m approved slot fv :: framesTo m (framesOf cfg tr) :=
          List.filter_cons_of_pos (decide_eq_true rfl)
        rw [hkeep, verdictsTo, List.filterMap_cons_some hto, List.map_cons]
        exact congrArg _ ih
      · have hto : (Obs.verdict m approved slot fv).verdictTo n = none := if_neg hm
        have hdrop : framesTo n (verdictFrame cfg m approved slot fv :: framesOf cfg tr) =
            framesTo n (framesOf cfg tr) :=
          List.filter_cons_of_neg fun h => hm (apprCanId_injective (of_decide_eq_true h))
        rw [hdrop, verdictsTo, List.filterMap_cons_none hto]
        exact ih

/-- The two worlds look alike to a requester. -/
structure Alike (name : Requester) (w w' : World) : Prop where
  status : w'.status = w.status
  entry : (w'.mem.pending.get? name).map Pending.terms =
    (w.mem.pending.get? name).map Pending.terms
  since : w'.mem.activeEcus.get? name.ecu = w.mem.activeEcus.get? name.ecu
  floor : ∀ what, w'.disk.store.file .rx (name.flow.did what) =
    w.disk.store.file .rx (name.flow.did what)
  counter : w'.disk.store.file .tx name.flow.didAppr = w.disk.store.file .tx name.flow.didAppr
  sent : verdictsTo name w'.trace = verdictsTo name w.trace

theorem Alike.refl : Alike name w w := ⟨rfl, rfl, rfl, fun _ => rfl, rfl, rfl⟩

theorem Alike.symm (h : Alike name w w') : Alike name w' w :=
  ⟨h.status.symm, h.entry.symm, h.since.symm, fun what => (h.floor what).symm, h.counter.symm,
    h.sent.symm⟩

theorem Alike.trans {w'' : World} (h : Alike name w w') (h' : Alike name w' w'') :
    Alike name w w'' :=
  ⟨h'.status.trans h.status, h'.entry.trans h.entry, h'.since.trans h.since,
    fun what => (h'.floor what).trans (h.floor what), h'.counter.trans h.counter,
    h'.sent.trans h.sent⟩

theorem ecu_ne_of_ne (h : name ≠ n) : name.ecu ≠ n.ecu := fun heq => h (Requester.ecu_inj.1 heq)

/-- The identifiers of the two requesters are apart. -/
theorem did_ne_of_ne (h : name ≠ n) {what what' : What} :
    name.flow.did what ≠ n.flow.did what' := by
  cases name <;> cases n <;> first | exact absurd rfl h | (cases what <;> cases what' <;> decide)

/-- The message a frame carries is one of the requester whose CAN id it
has. -/
theorem flows_of_messageOf {canId dlc : ℕ} {data : Bytes} {m : Message}
    (h : messageOf cfg w env canId dlc data = some m) : flows canId = some m.name.flow := by
  obtain ⟨c, hc, hm⟩ := Option.bind_eq_some_iff.1 h
  obtain ⟨fv, -, rfl⟩ := Option.map_eq_some_iff.1 hm
  unfold claimOf at hc
  split at hc
  · cases hc
  · obtain ⟨flow, hflow, hc⟩ := Option.bind_eq_some_iff.1 hc
    obtain ⟨magic, -, hc⟩ := Option.bind_eq_some_iff.1 hc
    obtain ⟨a, -, rfl⟩ := Option.map_eq_some_iff.1 hc
    obtain ⟨name, rfl⟩ := exists_requester hflow
    rw [hflow, Requester.flow_name]

/-! ## What is none of its business -/

/-- Looking at the lock. -/
theorem alike_updateLockState (h : Alike name w w') :
    wp (updateLockState env) (fun _ => Alike name w) (fun _ _ => True) w' :=
  wp_updateLockState (fun _ _ _ => ⟨h.status, h.entry, h.since, h.floor, h.counter, h.sent⟩)
    fun _ _ _ => trivial

/-- The event is none of the requester's: it is no frame of its, and no
poll or check of a deadline. -/
def Event.Foreign (name : Requester) : Event → Prop
  | .frame f _ => flows (canRecv f).1 ≠ some name.flow
  | .poll _ _ | .timeout _ _ => False
  | _ => True

/-- A verdict to another requester, and what comes with it. -/
theorem Alike.answer {store : FvStore} {bus : List (ℕ × Bytes)} {payload : Bytes} {fv : ℤ}
    {approved : Bool} {slot : UInt8} (h : Alike name w w') (hn : name ≠ n)
    (hs : SameButTx n.flow.didAppr w'.disk.store store) :
    Alike name w { w' with
      disk := { w'.disk with store := store }, bus := bus
      trace := w'.trace ++ [.built n.flow.didAppr payload fv] ++
        [.verdict n approved slot fv] } where
  status := h.status
  entry := h.entry
  since := h.since
  floor what := by
    rw [← h.floor what]
    exact congrFun hs.floors _
  counter := by
    rw [← h.counter]
    exact hs _ _ fun hk => hn (didAppr_injective hk.2)
  sent := by
    rw [← h.sent]
    simp [verdictsTo, Obs.verdictTo, hn.symm]

/-- Whatever is done to other entries of the tables. -/
theorem Alike.tables {pending : Dict Requester Pending} {active : Dict Ecu ℚ} {poll : Bool}
    {seq : ℕ} {offers : List Offer} (h : Alike name w w')
    (hpending : pending.get? name = w'.mem.pending.get? name)
    (hactive : active.get? name.ecu = w'.mem.activeEcus.get? name.ecu) :
    Alike name w { w' with
      mem := { w'.mem with
        pending := pending, activeEcus := active, pollTimer := poll, offerSeq := seq }
      disk := { w'.disk with offers := offers } } where
  status := h.status
  entry := by rw [← h.entry, ← hpending]
  since := hactive.trans h.since
  floor := h.floor
  counter := h.counter
  sent := h.sent

/-- A message of another requester. -/
theorem alike_process {m : Message} (h : Alike name w w') (hn : name ≠ m.name) :
    wp (process cfg env m.name.flow m.slot m.fv m.what) (fun _ => Alike name w) (fun _ _ => True)
      (w'.accept m) := by
  have haccept : Alike name w (w'.accept m) := by
    refine ⟨h.status, h.entry, h.since, fun what => ?_, ?_, h.sent⟩
    · rw [← h.floor what]
      exact FvStore.put_of_ne fun hk => did_ne_of_ne hn hk.2
    · rw [← h.counter]
      exact FvStore.put_of_ne fun hk => by cases hk.1
  have hseen : ∀ o : Obs, o.verdictTo name = none →
      Alike name w { w'.accept m with trace := (w'.accept m).trace ++ [o] } := fun o ho =>
    ⟨h.status, h.entry, h.since, haccept.floor, haccept.counter, by
      rw [← h.sent]
      simp [verdictsTo, ho, World.accept]⟩
  obtain ⟨n, what, slot, fv⟩ := m
  cases what with
  | request =>
    have hrequest := hseen (.request n slot fv) rfl
    simp only [process, wp_bind, wp_observe, Requester.flow_name]
    refine wp_beginApproval (fun _ _ _ _ _ hs => ?_) (fun _ _ _ _ _ _ _ hs => ?_)
      (fun _ _ _ _ _ => ?_) fun _ _ _ _ => trivial
    · exact alike_updateLockState
        ((hrequest.answer hn hs).tables rfl (Dict.get?_set_of_ne (ecu_ne_of_ne hn)))
    · exact alike_updateLockState ((hrequest.answer hn hs).tables (Dict.get?_erase_of_ne hn)
        (Dict.get?_set_of_ne (ecu_ne_of_ne hn)))
    · refine alike_updateLockState (hrequest.tables ?_ rfl)
      exact (Dict.get?_set_of_ne hn).trans (Dict.get?_erase_of_ne hn)
  | running =>
    have hrunning := hseen (.running n slot fv) rfl
    simp only [process, wp_bind, wp_observe, completeUpdate, wp_setMem, Requester.flow_name]
    refine wp_writeNotice (fun _ _ => alike_updateLockState ?_) fun _ => trivial
    exact ⟨hrunning.status, hrunning.entry,
      (Dict.get?_erase_of_ne (ecu_ne_of_ne hn)).trans hrunning.since, hrunning.floor,
      hrunning.counter, hrunning.sent⟩

/-- **A foreign event leaves the requester's view alone.** -/
theorem alike_callback (h : e.Foreign name) :
    wp (callback cfg e) (fun _ => Alike name w) (fun _ _ => True) w := by
  cases e with
  | frame f env =>
    refine wp_handleCan (fun _ => .refl) (fun m hm => ?_) (fun _ _ => trivial) fun _ _ => trivial
    have hn : name ≠ m.name := fun heq => h (heq ▸ flows_of_messageOf hm)
    exact alike_process .refl hn
  | drained env => exact alike_updateLockState .refl
  | poll now envs => exact h.elim
  | timeout now env => exact h.elim
  | selfStart env =>
    have hheld : Alike name w { w with mem := { w.mem with
        activeEcus := w.mem.activeEcus.set .jetson (env.time .active) } } :=
      Alike.refl.tables rfl (Dict.get?_set_of_ne Requester.ecu_ne_jetson)
    refine wp_onSelfStart (wp_mono (alike_updateLockState hheld) (fun _ w' hw' => ?_) fun _ _ _ =>
      trivial)
    exact ⟨⟨hw'.status, hw'.entry, hw'.since, hw'.floor, hw'.counter, hw'.sent⟩,
      fun _ _ _ => trivial⟩
  | selfDone env =>
    refine wp_onSelfDone (alike_updateLockState ?_) fun _ _ _ => trivial
    exact ⟨rfl, rfl, Dict.get?_erase_of_ne Requester.ecu_ne_jetson, fun _ => rfl, rfl, rfl⟩
  | expireNotice nid env =>
    exact wp_expireNotice (fun _ _ => ⟨rfl, rfl, rfl, fun _ => rfl, rfl, rfl⟩) fun _ _ => trivial
  | serviceDone label success =>
    exact wp_onServiceDone fun _ => ⟨rfl, rfl, rfl, fun _ => rfl, rfl, rfl⟩

/-- Another requester's entry in a poll. -/
theorem alike_pollEntry {now : ℚ} {p : Pending} (hn : name ≠ n)
    (hp : w.mem.pending.get? n = some p) (hwired : p.didAppr = n.flow.didAppr) :
    wp (pollEntry cfg now env n) (fun _ => Alike name w) (fun _ _ => True) w := by
  refine wp_pollEntry hp (fun _ => .refl) (fun approved _ => ?_) fun _ _ => trivial
  refine wp_resolve hp (fun store bus payload fv offers hs => ?_) fun _ _ _ _ => trivial
  rw [hwired] at hs ⊢
  refine alike_updateLockState ((Alike.refl.answer hn hs).tables (Dict.get?_erase_of_ne hn) ?_)
  cases approved
  · rfl
  · exact Dict.get?_set_of_ne (ecu_ne_of_ne hn)

/-! ## What is its business, in step -/

variable {s t : World}

@[simp] theorem wp₂_setMem {f g : Memory → Memory} {Q : Unit → Unit → World → World → Prop}
    {E : World → World → Prop} : wp₂ (setMem f) (setMem g) Q E s t =
      Q () () { s with mem := f s.mem } { t with mem := g t.mem } := rfl

@[simp] theorem wp₂_observe {o o' : Obs} {Q : Unit → Unit → World → World → Prop}
    {E : World → World → Prop} : wp₂ (observe o) (observe o') Q E s t =
      Q () () { s with trace := s.trace ++ [o] } { t with trace := t.trace ++ [o'] } := rfl

/-- The two programs leave the two worlds alike. -/
abbrev InStep (name : Requester) (m m' : Handler Unit) (s t : World) : Prop :=
  wp₂ m m' (fun _ _ => Alike name) (Alike name) s t

/-- Two looks at the lock, each at its own. -/
theorem inStep_updateLockState (h : Alike name s t) (hr : env.Reliable) (hr' : env'.Reliable) :
    InStep name (updateLockState env) (updateLockState env') s t := by
  have halone : ∀ {env : Env} {w : World}, env.Reliable →
      wp (updateLockState env) (fun _ => Alike name w) (fun _ _ => False) w := fun hr =>
    wp_of_avoids (avoids_updateLockState hr) (wp_updateLockState
      (fun _ _ _ => ⟨rfl, rfl, rfl, fun _ => rfl, rfl, rfl⟩) fun _ _ _ => rfl)
  exact wp₂_of_wp (halone hr) (halone hr') fun _ _ _ _ hs ht => (hs.symm.trans h).trans ht

/-- Two offers are taken down, under two ids. -/
theorem inStep_withdrawOffer {oid oid' : OfferId} (h : Alike name s t) (hr : env.Reliable) :
    InStep name (withdrawOffer env oid) (withdrawOffer env oid') s t := by
  have halone : ∀ {oid : OfferId} {w : World},
      wp (withdrawOffer env oid) (fun _ => Alike name w) (fun _ _ => False) w := fun {_ _} =>
    wp_of_avoids (avoids_withdrawOffer hr) (wp_withdrawOffer
      (fun _ => ⟨rfl, rfl, rfl, fun _ => rfl, rfl, rfl⟩) fun _ => rfl)
  exact wp₂_of_wp halone halone fun _ _ _ _ hs ht => (hs.symm.trans h).trans ht

/-- **The same verdict**, under the same freshness value. -/
theorem inStep_sendVerdict {canId canId' : ℕ} {slot : UInt8} {approved : Bool}
    (h : Alike name s t) (hr : env.Reliable) :
    InStep name (sendVerdict cfg env name name.flow.didAppr canId slot approved)
      (sendVerdict cfg env name name.flow.didAppr canId' slot approved) s t := by
  have hload : t.disk.store.load env.tx .tx name.flow.didAppr =
      s.disk.store.load env.tx .tx name.flow.didAppr := by
    simp only [FvStore.load, h.counter]
  refine wp₂_bind ?_
  simp only [onStore, wp₂_zoom, secocBuild, secocMac]
  refine wp₂_bind ?_
  simp only [wp₂_get, hload]
  refine wp₂_bind ?_
  simp only [wp₂_ite, wp₂_pure, wp₂_throw]
  split
  · refine wp₂_bind ?_
    simp only [FvStore.store, hr.tx, perform, wp₂_modify, wp₂_pure]
    refine wp₂_bind ?_
    simp only [wp₂_observe, hr.canSend, wp₂_modify]
    refine ⟨h.status, h.entry, h.since, h.floor, ?_, ?_⟩
    · simp
    · simp [h.sent]
  · exact h

/-- The same approval, at the same time. -/
theorem Alike.activate (h : Alike name s t) {at' : ℚ} :
    Alike name { s with mem := { s.mem with activeEcus := s.mem.activeEcus.set name.ecu at' } }
      { t with mem := { t.mem with activeEcus := t.mem.activeEcus.set name.ecu at' } } :=
  ⟨h.status, h.entry, by simp only [Dict.get?_set_self], h.floor, h.counter, h.sent⟩

/-- Both entries go. -/
theorem Alike.retire (h : Alike name s t) :
    Alike name { s with mem := { s.mem with pending := s.mem.pending.erase name } }
      { t with mem := { t.mem with pending := t.mem.pending.erase name } } :=
  ⟨h.status, by simp only [Dict.get?_erase_self], h.since, h.floor, h.counter, h.sent⟩

theorem inStep_failOpen {slot : UInt8} (h : Alike name s t) (hr : env.Reliable) :
    InStep name (failOpen cfg env name slot name.flow.didAppr name.flow.apprCanId)
      (failOpen cfg env name slot name.flow.didAppr name.flow.apprCanId) s t := by
  refine wp₂_bind (wp₂_mono (inStep_sendVerdict h hr) (fun _ _ s' t' h' => ?_) fun _ _ h' => h')
  simp only [activate, wp₂_setMem]
  exact h'.activate

/-- Both have an entry to drop, or neither has. -/
theorem inStep_dropPending (h : Alike name s t) (hr : env.Reliable) :
    InStep name (dropPending env name) (dropPending env name) s t := by
  have hentry := h.entry
  refine wp₂_bind ?_
  simp only [wp₂_get]
  cases hs : s.mem.pending.get? name <;> cases ht : t.mem.pending.get? name <;>
    simp only [hs, ht, Option.map_none, Option.map_some] at hentry ⊢
  · exact h
  · cases hentry
  · cases hentry
  · refine wp₂_bind ?_
    simp only [popPending, wp₂_setMem]
    exact inStep_withdrawOffer h.retire hr

/-- **The same REQUEST is answered the same way**, at once or by asking the
driver until the same time. -/
theorem inStep_beginApproval {slot : UInt8} (h : Alike name s t) (hr : env.Reliable) :
    InStep name (beginApproval cfg env name slot name.flow.didAppr name.flow.apprCanId)
      (beginApproval cfg env name slot name.flow.didAppr name.flow.apprCanId) s t := by
  simp only [beginApproval, wp₂_ite]
  split
  · exact inStep_failOpen h hr
  · refine wp₂_bind (wp₂_mono (inStep_dropPending h hr) (fun _ _ s' t' h' => ?_) fun _ _ h' => h')
    refine wp₂_bind ?_
    simp only [wp₂_setMem]
    refine wp₂_bind ?_
    simp only [wp₂_get]
    refine wp₂_bind ?_
    simp only [writeOffer, hr.writeOffer, attempt]
    refine wp₂_bind ?_
    simp only [wp₂_modify, wp₂_pure, if_true]
    refine wp₂_bind ?_
    simp only [wp₂_setMem, startPollTimer]
    exact ⟨h'.status, by simp [Pending.terms], h'.since, h'.floor, h'.counter, h'.sent⟩

/-- **The same decision on the same entry.** -/
theorem inStep_resolve {approved : Bool} {p p' : Pending} (h : Alike name s t) (hr : env.Reliable)
    (hp : s.mem.pending.get? name = some p) (hp' : t.mem.pending.get? name = some p')
    (hdid : p.didAppr = name.flow.didAppr) (hterms : p'.terms = p.terms) :
    InStep name (resolve cfg env name approved) (resolve cfg env name approved) s t := by
  obtain ⟨hslot, hdid', -⟩ : p'.slot = p.slot ∧ p'.didAppr = p.didAppr ∧ _ := by
    simpa [Pending.terms] using hterms
  refine wp₂_bind ?_
  simp only [wp₂_get, hp, hp']
  refine wp₂_bind ?_
  simp only [popPending, wp₂_setMem]
  refine wp₂_bind (wp₂_mono (inStep_withdrawOffer h.retire hr) (fun _ _ s' t' h' => ?_)
    fun _ _ h' => h')
  rw [hslot, hdid', hdid]
  refine wp₂_bind (wp₂_mono (inStep_sendVerdict h' hr) (fun _ _ s'' t'' h'' => ?_) fun _ _ h' => h')
  cases approved with
  | true => exact inStep_updateLockState h''.activate hr hr
  | false => exact inStep_updateLockState h'' hr hr

/-- **The same pass of a poll**, over entries that may have gone by
different ids. -/
theorem inStep_pollEntry {now : ℚ} {p : Pending} (h : Alike name s t) (hr : env.Reliable)
    (hp : s.mem.pending.get? name = some p) (hdid : p.didAppr = name.flow.didAppr) :
    InStep name (pollEntry cfg now env name) (pollEntry cfg now env name) s t := by
  obtain ⟨p', hp', hterms⟩ : ∃ p', t.mem.pending.get? name = some p' ∧ p'.terms = p.terms := by
    have hentry := h.entry
    rwa [hp, Option.map_some, Option.map_eq_some_iff] at hentry
  have hdue : p'.deadline = p.deadline := congrArg (·.2.2.2) hterms
  have hresolve : ∀ approved, InStep name (resolve cfg env name approved)
      (resolve cfg env name approved) s t := fun approved => inStep_resolve h hr hp hp' hdid hterms
  refine wp₂_bind ?_
  simp only [wp₂_get, hp, hp']
  refine wp₂_bind ?_
  unfold readVerdict
  split
  · simp only [wp₂_pure, hdue, wp₂_ite]
    split
    · exact hresolve _
    · exact h
  · split
    · simpa only [wp₂_throw] using h
    · exact hresolve _

/-- The same accepted message. -/
theorem inStep_process {slot : UInt8} {fv : ℤ} {what : What} (h : Alike name s t)
    (hr : env.Reliable) : InStep name (process cfg env name.flow slot fv what)
      (process cfg env name.flow slot fv what) s t := by
  cases what with
  | request =>
    refine wp₂_bind ?_
    simp only [wp₂_observe, Requester.flow_name]
    have hasked : Alike name { s with trace := s.trace ++ [.request name slot fv] }
        { t with trace := t.trace ++ [.request name slot fv] } :=
      ⟨h.status, h.entry, h.since, h.floor, h.counter, by simp [h.sent]⟩
    refine wp₂_bind (wp₂_mono (inStep_beginApproval hasked hr) (fun _ _ s' t' h' => ?_)
      fun _ _ h' => h')
    exact inStep_updateLockState h' hr hr
  | running =>
    refine wp₂_bind ?_
    simp only [wp₂_observe, Requester.flow_name]
    refine wp₂_bind (wp₂_bind ?_)
    simp only [wp₂_setMem]
    have hnotice : ∀ {w : World},
        wp (writeNotice env name) (fun _ => Alike name w) (fun _ _ => False) w := fun {_} =>
      wp_of_avoids (avoids_writeNotice hr) (wp_writeNotice
        (fun _ _ => ⟨rfl, rfl, rfl, fun _ => rfl, rfl, rfl⟩) fun _ => rfl)
    refine wp₂_of_wp hnotice hnotice fun _ _ s' t' hs ht => ?_
    refine inStep_updateLockState ((hs.symm.trans ?_).trans ht) hr hr
    exact ⟨h.status, h.entry, by simp only [Dict.get?_erase_self], h.floor, h.counter,
      by simp [h.sent]⟩

/-- **The same frame**, taken against the same floor. -/
theorem inStep_handleCan {canId dlc : ℕ} {data : Bytes} (h : Alike name s t) (hr : env.Reliable)
    (hflow : flows canId = some name.flow) :
    InStep name (handleCan cfg env canId dlc data) (handleCan cfg env canId dlc data) s t := by
  simp only [handleCan, wp₂_ite, wp₂_pure, hflow]
  split
  · exact h
  cases data with
  | nil => simpa only [wp₂_throw] using h
  | cons magic rest =>
    cases hann : announced name.flow magic with
    | none => simpa only [hann, wp₂_pure] using h
    | some a =>
      obtain ⟨did, what⟩ := a
      obtain rfl := announced_did hann
      have hload : t.disk.store.load env.rx .rx (name.flow.did what) =
          s.disk.store.load env.rx .rx (name.flow.did what) := by
        simp only [FvStore.load, h.floor]
      simp only [hann]
      refine wp₂_bind ?_
      simp only [onStore, wp₂_zoom, secocVerify, secocMac, wp₂_ite, wp₂_pure]
      split
      · exact h
      refine wp₂_bind ?_
      simp only [wp₂_get, hload]
      refine wp₂_bind ?_
      simp only [wp₂_ite, wp₂_pure, wp₂_throw]
      split
      · split
        · exact h
        split
        · exact h
        refine wp₂_bind ?_
        simp only [FvStore.store, hr.rx, perform, wp₂_modify, wp₂_pure]
        refine inStep_process ⟨h.status, h.entry, h.since, fun what' => ?_, ?_, h.sent⟩ hr
        · simp only [FvStore.put, h.floor]
        · simp only [FvStore.put, h.counter]
      · exact h

/-- The keys of a table that binds no one else. -/
theorem keys_eq_filter {α : Type} {d d' : Dict Requester α} (hsame : name ∈ d' ↔ name ∈ d)
    (halone : ∀ n ≠ name, ¬ n ∈ d') : d'.keys = d.keys.filter (· = name) := by
  have hall : d'.keys.filter (· = name) = d'.keys := by
    rw [List.filter_eq_self]
    intro n hn
    exact decide_eq_true (not_not.1 fun hne => halone n hne hn)
  rw [← hall, List.filter_eq, List.filter_eq, Dict.keys_nodup.count, Dict.keys_nodup.count]
  simp only [← Dict.mem_iff_mem_keys, hsame]

/-- **A poll over both entries, and one over the requester's.** -/
theorem inStep_pollApprovals {now : ℚ} {envs envs' : Requester → Env} (h : Alike name s t)
    (hr : ∀ n, (envs n).Reliable) (hsame : envs' name = envs name) (hwired : Wired s.mem.pending)
    (halone : ∀ n ≠ name, ¬ n ∈ t.mem.pending)
    (hothers : ∀ n ≠ name, ∀ p, s.mem.pending.get? n = some p → VerdictReadable (envs n) ∧
      ((decision cfg now (envs n) p).isSome → SendSound (envs n) s.disk.store p.didAppr)) :
    InStep name (pollApprovals cfg now envs) (pollApprovals cfg now envs') s t := by
  have hmem : name ∈ t.mem.pending ↔ name ∈ s.mem.pending := by
    have hentry := congrArg Option.isSome h.entry
    simp only [Option.isSome_map] at hentry
    rw [← Dict.get?_isSome, ← Dict.get?_isSome, hentry]
  have hstop : ∀ {w : World}, wp (do
      let w ← get
      if w.mem.pending.isEmpty then stopPollTimer else pure () : Handler Unit)
      (fun _ => Alike name w) (fun _ _ => False) w := by
    intro w
    simp only [wp_bind, wp_get, wp_ite, wp_pure, stopPollTimer, wp_setMem]
    split <;> exact ⟨rfl, rfl, rfl, fun _ => rfl, rfl, rfl⟩
  refine wp₂_bind ?_
  simp only [wp₂_get]
  rw [keys_eq_filter hmem halone]
  refine wp₂_bind (wp₂_mono (wp₂_forM_filter
    (I := fun rest s' t' => Alike name s' t' ∧ Unvisited s rest s') ?_ ?_ ?_) ?_ fun _ _ h' => h')
  · -- the requester's own entry, in both
    rintro n rest s' t' rfl ⟨h', hrest⟩
    obtain ⟨-, p, hp, hp'⟩ := hrest.entry
    have hstep : InStep n (pollEntry cfg now (envs n) n) (pollEntry cfg now (envs n) n) s' t' :=
      inStep_pollEntry h' (hr n) hp' (hwired n p hp).1
    rw [hsame]
    exact wp₂_mono (wp₂_and_wp hstep (pollEntry_others hp' (hwired n p hp).1))
      (fun _ _ s'' t'' hpost => ⟨hpost.1, hrest.tail hpost.2⟩) fun _ _ h' => h'
  · -- another's, which the second world has not
    rintro n rest s' t' hn ⟨h', hrest⟩
    obtain ⟨hfound, p, hp, hp'⟩ := hrest.entry
    have hdid : p.didAppr = n.flow.didAppr := (hwired n p hp).1
    obtain ⟨hread, hsend⟩ := hothers n hn p hp
    have hreturns : wp (pollEntry cfg now (envs n) n) (fun _ s'' => s''.status = s'.status)
        (fun r _ => r = .killed) s' := wp_pollEntry_survives hp' hread fun hdec =>
      (hsend hdec).congr (by rw [hdid]; exact hfound.counter)
    have hsees : wp (pollEntry cfg now (envs n) n)
        (fun _ s'' => Alike name s' s'' ∧ ∀ n' ≠ n, SameFor n' s' s'') (fun _ _ => True) s' :=
      wp_mono (wp_and (alike_pollEntry (Ne.symm hn) hp' hdid) (pollEntry_others hp' hdid))
        (fun _ _ h => h) fun _ _ _ => trivial
    refine wp_mono (wp_of_avoids (avoids_pollEntry (hr n)) (wp_mono (wp_and hreturns hsees)
      (fun _ _ h => h.2) fun _ _ h => h.1)) (fun _ s'' hpost => ?_) fun _ _ h => h
    exact ⟨hpost.1.symm.trans h', hrest.tail hpost.2⟩
  · exact ⟨h, unvisited_keys⟩
  · rintro - - s' t' ⟨h', -⟩
    exact wp₂_of_wp hstop hstop fun _ _ _ _ hs ht => (hs.symm.trans h').trans ht

end Coordinator

end VehicleStack
