import VehicleStack.Coordinator.Book

/-!
# The update coordinator — verdicts on the bus

The trace says which verdicts have been sent, the bus holds what has been
handed to the socket. In every run the two agree (`Carried`): the bus is
the frames of the verdicts entered, one for one and in order, each on its
requester's approval id and with the bytes that `secoc_build` makes of the
answer and the slot. Laws of the verdicts entered are so laws of the
frames.
-/

namespace VehicleStack

namespace Coordinator

open Callback SecOC

variable {cfg : Config} {env : Env} {w w' : World} {e : Event} {name n : Requester}
  {approved : Bool} {slot : UInt8} {fv : ℤ} {tr tr' : List Obs} {f : ℕ × Bytes}

/-- What the coordinator puts on the bus to answer a requester: the approval
id and the authenticated frame. -/
def verdictFrame (cfg : Config) (name : Requester) (approved : Bool) (slot : UInt8) (fv : ℤ) :
    ℕ × Bytes :=
  (name.flow.apprCanId, frameOf cfg.aesCmac cfg.key name.flow.didAppr
    [if approved then VERDICT_APPROVE else VERDICT_DENY, slot] fv)

/-- The frame an entry of the trace stands for. -/
def Obs.frame (cfg : Config) : Obs → Option (ℕ × Bytes)
  | .verdict name approved slot fv => some (verdictFrame cfg name approved slot fv)
  | _ => none

/-- The frames of the verdicts entered. -/
def framesOf (cfg : Config) (tr : List Obs) : List (ℕ × Bytes) := tr.filterMap (Obs.frame cfg)

/-- **The bus carries what the trace says has been sent**, and nothing
else. -/
def Carried (cfg : Config) (w : World) : Prop := w.bus = framesOf cfg w.trace

theorem framesOf_append : framesOf cfg (tr ++ tr') = framesOf cfg tr ++ framesOf cfg tr' :=
  List.filterMap_append

/-- An entry that is no verdict puts nothing on the bus. -/
theorem framesOf_snoc {o : Obs} (h : o.frame cfg = none) :
    framesOf cfg (tr ++ [o]) = framesOf cfg tr := by
  rw [framesOf_append, framesOf, framesOf, List.filterMap_cons_none h, List.filterMap_nil,
    List.append_nil]

/-- And a verdict puts its frame there. -/
theorem framesOf_verdict : framesOf cfg (tr ++ [.verdict name approved slot fv]) =
    framesOf cfg tr ++ [verdictFrame cfg name approved slot fv] :=
  framesOf_append

theorem frame_eq_some {o : Obs} : o.frame cfg = some f ↔ ∃ name approved slot fv,
    o = .verdict name approved slot fv ∧ f = verdictFrame cfg name approved slot fv := by
  constructor
  · intro h
    cases o with
    | verdict name approved slot fv =>
      exact ⟨name, approved, slot, fv, rfl, (Option.some.inj h).symm⟩
    | request | running | built | expired => cases h
  · rintro ⟨name, approved, slot, fv, rfl, rfl⟩
    rfl

/-- **Where a frame on the bus comes from**: the entry of a verdict, made
when just the frames before it had been sent. -/
theorem Carried.split (h : Carried cfg w) {sent rest : List (ℕ × Bytes)}
    (hbus : w.bus = sent ++ f :: rest) : ∃ before name approved slot fv after,
      w.trace = before ++ .verdict name approved slot fv :: after ∧ framesOf cfg before = sent ∧
      f = verdictFrame cfg name approved slot fv := by
  rw [h, framesOf] at hbus
  obtain ⟨tr₁, tr₂, htr, hsent, hrest⟩ := List.filterMap_eq_append_iff.1 hbus
  obtain ⟨skipped, o, after, htr₂, hskipped, ho, -⟩ := List.filterMap_eq_cons_iff.1 hrest
  obtain ⟨name, approved, slot, fv, rfl, hf⟩ := frame_eq_some.1 ho
  have hnone : framesOf cfg skipped = [] := List.filterMap_eq_nil_iff.2 hskipped
  refine ⟨tr₁ ++ skipped, name, approved, slot, fv, after, ?_, ?_, hf⟩
  · rw [htr, htr₂, List.append_assoc]
  · rw [framesOf_append, hnone, List.append_nil]
    exact hsent

/-- The entry a frame stands for is the only one made when just those frames
had been sent. -/
theorem entry_unique {before before' after after' : List Obs} {o o' : Obs}
    (ho : (o.frame cfg).isSome) (ho' : (o'.frame cfg).isSome)
    (htr : before ++ o :: after = before' ++ o' :: after')
    (hsent : framesOf cfg before = framesOf cfg before') : before = before' ∧ o = o' := by
  have hlater : ∀ {earlier x later}, (x.frame cfg).isSome →
      framesOf cfg (earlier ++ x :: later) ≠ framesOf cfg earlier := by
    intro earlier x later hx heq
    obtain ⟨f, hf⟩ := Option.isSome_iff_exists.1 hx
    rw [framesOf_append, framesOf, framesOf, List.filterMap_cons_some hf] at heq
    exact absurd (List.append_right_eq_self.1 heq) (List.cons_ne_nil _ _)
  rcases List.append_eq_append_iff.1 htr with ⟨mid, hbefore, hmid⟩ | ⟨mid, hbefore, hmid⟩
  · cases mid with
    | nil => exact ⟨by rw [hbefore, List.append_nil], (List.cons.inj hmid).1⟩
    | cons x mid =>
      obtain ⟨rfl, -⟩ := List.cons.inj hmid
      rw [hbefore] at hsent
      exact absurd hsent.symm (hlater ho)
  · cases mid with
    | nil => exact ⟨by rw [hbefore, List.append_nil], (List.cons.inj hmid).1.symm⟩
    | cons x mid =>
      obtain ⟨rfl, -⟩ := List.cons.inj hmid
      rw [hbefore] at hsent
      exact absurd hsent (hlater ho')

/-- A verdict that has been entered is on the bus. -/
theorem Carried.mem (h : Carried cfg w) (hmem : .verdict name approved slot fv ∈ w.trace) :
    verdictFrame cfg name approved slot fv ∈ w.bus := by
  rw [h]
  exact List.mem_filterMap.2 ⟨_, hmem, rfl⟩

/-! ## What each method puts there -/

/-- The bus agrees with the trace, and the entries that are still to be
answered name their requesters' own flows. -/
structure OnBus (cfg : Config) (w : World) : Prop where
  carried : Carried cfg w
  wired : Wired w.mem.pending

/-- **`_send_verdict`**, on the requester's flow: the frame handed to the
socket is the one the trace stands for. -/
theorem onBus_sendVerdict : Keeps (OnBus cfg)
    (sendVerdict cfg env name name.flow.didAppr name.flow.apprCanId slot approved) := by
  intro w h
  simp only [sendVerdict, wp_bind, wp_onStore, wp_observe]
  refine wp_secocBuild (fun _ _ => ?_) (fun _ _ => ⟨h.carried, h.wired⟩) fun _ _ =>
    ⟨h.carried, h.wired⟩
  have hbuilt : ∀ {did payload fv}, framesOf cfg (w.trace ++ [.built did payload fv]) = w.bus :=
    fun {did payload fv} => (framesOf_snoc rfl).trans h.carried.symm
  have hsent : ∀ {did payload fv}, w.bus ++ [verdictFrame cfg name approved slot fv] =
      framesOf cfg (w.trace ++ [.built did payload fv] ++ [.verdict name approved slot fv]) :=
    fun {did payload fv} => by rw [framesOf_verdict, hbuilt]
  exact wp_perform (fun _ => ⟨hsent, h.wired⟩) (fun _ _ => ⟨hbuilt.symm, h.wired⟩) fun _ =>
    ⟨hsent, h.wired⟩

/-- Whatever is done to the memory, but for the pending table. -/
theorem onBus_setMem {g : Memory → Memory} (h : ∀ m, (g m).pending = m.pending) :
    Keeps (OnBus cfg) (setMem g) :=
  keeps_modify fun w hw => ⟨hw.carried, by rw [h w.mem]; exact hw.wired⟩

theorem onBus_observe {o : Obs} (h : o.frame cfg = none) : Keeps (OnBus cfg) (observe o) :=
  keeps_modify fun _ hw => ⟨hw.carried.trans (framesOf_snoc h).symm, hw.wired⟩

theorem onBus_updateLockState : Keeps (OnBus cfg) (updateLockState env) := fun _ hw =>
  wp_updateLockState (fun _ _ _ => ⟨hw.carried, hw.wired⟩) fun _ _ _ => ⟨hw.carried, hw.wired⟩

theorem onBus_withdrawOffer {oid : OfferId} : Keeps (OnBus cfg) (withdrawOffer env oid) :=
  fun _ hw => wp_withdrawOffer (fun _ => ⟨hw.carried, hw.wired⟩) fun _ => ⟨hw.carried, hw.wired⟩

theorem onBus_popPending : Keeps (OnBus cfg) (popPending name) :=
  keeps_modify fun _ hw => ⟨hw.carried, hw.wired.erase⟩

theorem onBus_failOpen : Keeps (OnBus cfg)
    (failOpen cfg env name slot name.flow.didAppr name.flow.apprCanId) :=
  keeps_bind onBus_sendVerdict fun _ => onBus_setMem fun _ => rfl

/-- `_begin_approval` binds the requester to its own flow. -/
theorem onBus_beginApproval : Keeps (OnBus cfg)
    (beginApproval cfg env name slot name.flow.didAppr name.flow.apprCanId) := by
  unfold beginApproval
  refine keeps_ite onBus_failOpen (keeps_bind (fun _ hw => ?_) fun _ => ?_)
  · exact wp_dropPending (fun _ => ⟨hw.carried, hw.wired.erase⟩) fun _ =>
      ⟨hw.carried, hw.wired.erase⟩
  · refine keeps_bind (onBus_setMem fun _ => rfl) fun _ => keeps_bind keeps_get fun w => ?_
    refine keeps_bind (keeps_attempt fun _ hw => ⟨hw.carried, hw.wired⟩) fun written => ?_
    refine keeps_ite (keeps_bind (keeps_modify fun _ hw => ?_) fun _ => ?_) onBus_failOpen
    · exact ⟨hw.carried, hw.wired.set ⟨rfl, rfl⟩⟩
    · exact onBus_setMem fun _ => rfl

/-- `_resolve` answers on the flow of the entry, which is its
requester's. -/
theorem onBus_resolve : Keeps (OnBus cfg) (resolve cfg env name approved) := by
  intro w hw
  simp only [resolve, wp_bind, wp_get]
  cases hp : w.mem.pending.get? name with
  | none => exact hw
  | some p =>
    obtain ⟨hdid, hid⟩ := hw.wired name p hp
    have hanswer : Keeps (OnBus cfg) (do
        popPending name
        withdrawOffer env p.id
        sendVerdict cfg env name p.didAppr p.apprCanId p.slot approved
        if approved then activate env name.ecu else pure ()
        updateLockState env : Handler Unit) := by
      rw [hdid, hid]
      refine keeps_bind onBus_popPending fun _ => keeps_bind onBus_withdrawOffer fun _ =>
        keeps_bind onBus_sendVerdict fun _ => ?_
      split
      · exact keeps_bind (onBus_setMem fun _ => rfl) fun _ => onBus_updateLockState
      · exact onBus_updateLockState
    exact hanswer w hw

theorem onBus_pollEntry {now : ℚ} : Keeps (OnBus cfg) (pollEntry cfg now env name) := by
  unfold pollEntry
  refine keeps_bind keeps_get fun w => ?_
  split
  · exact keeps_throw
  · refine keeps_bind (fun _ hw => wp_readVerdict hw fun _ _ => hw) fun answer => ?_
    split
    · exact onBus_resolve
    · exact keeps_ite onBus_resolve keeps_pure

/-- A message is processed on its sender's flow. -/
theorem onBus_process {what : What} :
    Keeps (OnBus cfg) (process cfg env name.flow slot fv what) := by
  cases what with
  | request =>
    refine keeps_bind (onBus_observe rfl) fun _ => keeps_bind ?_ fun _ => onBus_updateLockState
    rw [Requester.flow_name]
    exact onBus_beginApproval
  | running =>
    refine keeps_bind (onBus_observe rfl) fun _ => keeps_bind ?_ fun _ => onBus_updateLockState
    refine keeps_bind (onBus_setMem fun _ => rfl) fun _ _ hw => ?_
    exact wp_writeNotice (fun _ _ => ⟨hw.carried, hw.wired⟩) fun _ => ⟨hw.carried, hw.wired⟩

/-! ## Steps and lives -/

/-- **No callback parts the bus from the trace**, wherever it stops. -/
theorem onBus_callback (e : Event) : Keeps (OnBus cfg) (callback cfg e) := by
  cases e with
  | frame f env =>
    intro w hw
    refine wp_handleCan (fun _ => hw) (fun m _ => ?_) (fun _ _ => hw) fun _ _ =>
      ⟨hw.carried, hw.wired⟩
    exact onBus_process _ ⟨hw.carried, hw.wired⟩
  | drained env => exact onBus_updateLockState
  | poll now envs =>
    refine keeps_bind keeps_get fun w => ?_
    refine keeps_bind (keeps_forM fun _ => onBus_pollEntry) fun _ => ?_
    exact keeps_bind keeps_get fun _ => keeps_ite (onBus_setMem fun _ => rfl) keeps_pure
  | timeout now env =>
    refine keeps_bind keeps_get fun w => keeps_bind (keeps_forM fun _ => ?_) fun _ => ?_
    · exact keeps_bind (onBus_setMem fun _ => rfl) fun _ => onBus_observe rfl
    · exact keeps_ite keeps_pure onBus_updateLockState
  | selfStart env =>
    refine keeps_bind (onBus_setMem fun _ => rfl) fun _ => ?_
    refine keeps_bind onBus_updateLockState fun _ => ?_
    exact keeps_bind (keeps_perform fun _ hw => hw) fun _ =>
      keeps_perform fun _ hw => ⟨hw.carried, hw.wired⟩
  | selfDone env =>
    refine keeps_bind (onBus_setMem fun _ => rfl) fun _ => ?_
    exact keeps_bind (keeps_perform fun _ hw => ⟨hw.carried, hw.wired⟩) fun _ =>
      onBus_updateLockState
  | expireNotice nid env =>
    exact fun _ hw => wp_expireNotice (fun _ _ => ⟨hw.carried, hw.wired⟩) fun _ _ =>
      ⟨hw.carried, hw.wired⟩
  | serviceDone label success =>
    exact fun _ hw => wp_onServiceDone fun _ => ⟨hw.carried, hw.wired⟩

/-- Neither does a step, nor a start. -/
theorem onBus_step (h : OnBus cfg w) : OnBus cfg (step cfg w e) :=
  step_of_wp h fun _ _ => wp_mono (onBus_callback e w h) (fun _ _ h' => h') fun _ _ h' =>
    ⟨h'.carried, h'.wired⟩

theorem onBus_boot (h : Carried cfg w) : OnBus cfg (w.boot env) :=
  boot_of_all fun _ _ _ _ => ⟨h, wired_empty⟩

theorem onBus_launch {d : Disk} : OnBus cfg (World.launch d env) := onBus_boot rfl

/-- **What a step enters is what it sends.** -/
theorem bus_of_entered (h : OnBus cfg w) {obs : List Obs}
    (hobs : (step cfg w e).trace = w.trace ++ obs) :
    (step cfg w e).bus = w.bus ++ framesOf cfg obs := by
  have hstep : OnBus cfg (step cfg w e) := onBus_step h
  rw [hstep.carried, hobs, framesOf_append, ← h.carried]

end Coordinator

end VehicleStack
