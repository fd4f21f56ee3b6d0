import VehicleStack.Coordinator.Faults

/-!
# The update coordinator — where the operating system does its part

`Env.Reliable` says that every operation a callback may try goes through
and that the process is not killed around one. What is then left to stop a
callback is in its input: a counter that leaves its 32 bits, a verdict file
that is not text. The rules of `Specs` allow for a kill at every operation;
`avoids_callback` says that there is none, so that a callback that
`Survives` returns.
-/

namespace VehicleStack

namespace Coordinator

open Callback SecOC

variable {cfg : Config} {env : Env} {w : World} {e : Event} {name : Requester}

/-- Nothing fails. Whether the head unit is up, the directory for notices
there and a lock service ready is left open. -/
structure Env.Reliable (env : Env) : Prop where
  writeOffer : env.writeOffer = .ok
  unlinkOffer : ∀ oid, env.unlinkOffer oid = .ok
  unlinkVerdict : ∀ oid, env.unlinkVerdict oid = .ok
  writeNotice : env.writeNotice = .ok
  unlinkNotice : ∀ nid, env.unlinkNotice nid = .ok
  rx : env.rx = {}
  tx : env.tx = {}
  canSend : env.canSend = .ok
  mkdirFlag : env.mkdirFlag = .ok
  writeFlag : env.writeFlag = .ok
  unlinkFlag : env.unlinkFlag = .ok
  callAsync : env.callAsync = .none

/-- In none of what the event meets. -/
def Event.Reliable : Event → Prop
  | .frame _ env | .drained env | .timeout _ env | .selfStart env | .selfDone env
  | .expireNotice _ env => env.Reliable
  | .poll _ envs => ∀ name, (envs name).Reliable
  | .serviceDone _ _ => True

/-! ## Nothing is killed -/

theorem avoids_updateLockState (h : env.Reliable) : Avoids .killed (updateLockState env) := by
  have hcall : ∀ label, Avoids .killed (callService env label) := by
    intro label
    have hsend : env.callAsync.answer = .ok := by rw [h.callAsync]; rfl
    unfold callService
    exact avoids_ite (avoids_bind avoids_modify fun _ => avoids_perform (Or.inl hsend)) avoids_pure
  have hask : ∀ w : World, Avoids .killed (
      if (!w.mem.activeEcus.isEmpty) && !w.mem.isLocked then callService env .lock
      else if !(!w.mem.activeEcus.isEmpty) && w.mem.isLocked then callService env .unlock
      else pure () : Handler Unit) := fun w =>
    avoids_ite (hcall _) (avoids_ite (hcall _) avoids_pure)
  refine avoids_bind avoids_get fun w => avoids_ite avoids_pure ?_
  exact avoids_ite (avoids_bind avoids_modify fun _ => hask w)
    (avoids_bind avoids_modify fun _ => hask w)

theorem avoids_withdrawOffer (h : env.Reliable) {oid : OfferId} :
    Avoids .killed (withdrawOffer env oid) :=
  avoids_bind (avoids_attempt (Or.inl (h.unlinkOffer oid))) fun _ =>
    avoids_bind (avoids_attempt (Or.inl (h.unlinkVerdict oid))) fun _ => avoids_pure

theorem avoids_readVerdict : Avoids .killed (readVerdict env) := by
  unfold readVerdict
  split
  · exact avoids_pure
  · split
    · exact avoids_throw fun h => by cases h
    · exact avoids_pure

theorem avoids_secocMac {σ : Type} {did : ℕ} {payload : Bytes} {fv : ℤ} :
    Avoids .killed (secocMac cfg.aesCmac cfg.key did payload fv : EStateM Raised σ Bytes) :=
  avoids_ite avoids_pure (avoids_throw fun h => by cases h)

theorem avoids_sendVerdict (h : env.Reliable) {didAppr apprCanId : ℕ} {slot : UInt8}
    {approved : Bool} :
    Avoids .killed (sendVerdict cfg env name didAppr apprCanId slot approved) := by
  refine avoids_bind (avoids_zoom ?_) fun _ => avoids_bind avoids_modify fun _ =>
    avoids_perform (Or.inl h.canSend)
  refine avoids_bind avoids_get fun _ => avoids_bind avoids_secocMac fun _ => ?_
  exact avoids_bind (avoids_perform (Or.inl (by rw [h.tx]))) fun _ => avoids_pure

theorem avoids_failOpen (h : env.Reliable) {didAppr apprCanId : ℕ} {slot : UInt8} :
    Avoids .killed (failOpen cfg env name slot didAppr apprCanId) :=
  avoids_bind (avoids_sendVerdict h) fun _ => avoids_modify

theorem avoids_dropPending (h : env.Reliable) : Avoids .killed (dropPending env name) := by
  refine avoids_bind avoids_get fun w => ?_
  split
  · exact avoids_bind avoids_modify fun _ => avoids_withdrawOffer h
  · exact avoids_pure

theorem avoids_beginApproval (h : env.Reliable) {didAppr apprCanId : ℕ} {slot : UInt8} :
    Avoids .killed (beginApproval cfg env name slot didAppr apprCanId) := by
  refine avoids_ite (avoids_failOpen h) ?_
  refine avoids_bind (avoids_dropPending h) fun _ => avoids_bind avoids_modify fun _ =>
    avoids_bind avoids_get fun w => ?_
  refine avoids_bind (avoids_attempt (Or.inl h.writeOffer)) fun _ => ?_
  exact avoids_ite (avoids_bind avoids_modify fun _ => avoids_modify) (avoids_failOpen h)

theorem avoids_pollEntry (h : env.Reliable) {now : ℚ} :
    Avoids .killed (pollEntry cfg now env name) := by
  have hresolve : ∀ approved, Avoids .killed (resolve cfg env name approved) := by
    intro approved
    refine avoids_bind avoids_get fun w => ?_
    split
    · exact avoids_pure
    · refine avoids_bind avoids_modify fun _ => avoids_bind (avoids_withdrawOffer h) fun _ => ?_
      refine avoids_bind (avoids_sendVerdict h) fun _ => ?_
      exact avoids_ite (avoids_bind avoids_modify fun _ => avoids_updateLockState h)
        (avoids_updateLockState h)
  refine avoids_bind avoids_get fun w => ?_
  split
  · exact avoids_throw fun h => by cases h
  · refine avoids_bind avoids_readVerdict fun answer => ?_
    split
    · exact hresolve _
    · exact avoids_ite (hresolve _) avoids_pure

theorem avoids_writeNotice (h : env.Reliable) : Avoids .killed (writeNotice env name) := by
  unfold writeNotice
  exact avoids_ite (avoids_bind (avoids_attempt (Or.inl h.writeNotice)) fun _ =>
    avoids_ite avoids_modify avoids_pure) avoids_pure

theorem avoids_process (h : env.Reliable) {flow : Flow} {slot : UInt8} {fv : ℤ} {what : What} :
    Avoids .killed (process cfg env flow slot fv what) := by
  cases what with
  | request =>
    exact avoids_bind avoids_modify fun _ =>
      avoids_bind (avoids_beginApproval h) fun _ => avoids_updateLockState h
  | running =>
    exact avoids_bind avoids_modify fun _ =>
      avoids_bind (avoids_bind avoids_modify fun _ => avoids_writeNotice h) fun _ =>
        avoids_updateLockState h

theorem avoids_handleCan (h : env.Reliable) {canId dlc : ℕ} {data : Bytes} :
    Avoids .killed (handleCan cfg env canId dlc data) := by
  refine avoids_ite avoids_pure ?_
  split
  · exact avoids_pure
  split
  · exact avoids_throw fun h => by cases h
  split
  · exact avoids_pure
  · refine avoids_bind (avoids_zoom ?_) fun r => ?_
    · refine avoids_ite avoids_pure (avoids_bind avoids_get fun s => ?_)
      refine avoids_bind avoids_secocMac fun _ => avoids_ite avoids_pure (avoids_ite avoids_pure ?_)
      exact avoids_bind (avoids_perform (Or.inl (by rw [h.rx]))) fun _ => avoids_pure
    · split
      · exact avoids_pure
      · exact avoids_process h

/-- **A callback that meets no failure is not killed.** -/
theorem avoids_callback (h : e.Reliable) : Avoids .killed (callback cfg e) := by
  cases e with
  | frame f env => exact avoids_handleCan h
  | drained env => exact avoids_updateLockState h
  | poll now envs =>
    refine avoids_bind avoids_get fun w => ?_
    refine avoids_bind (avoids_forM fun name => avoids_pollEntry (h name)) fun _ => ?_
    exact avoids_bind avoids_get fun _ => avoids_ite avoids_modify avoids_pure
  | timeout now env =>
    refine avoids_bind avoids_get fun w => ?_
    refine avoids_bind (avoids_forM fun _ => avoids_bind avoids_modify fun _ => avoids_modify) ?_
    exact fun _ => avoids_ite avoids_pure (avoids_updateLockState h)
  | selfStart env =>
    refine avoids_bind avoids_modify fun _ => avoids_bind (avoids_updateLockState h) fun _ => ?_
    exact avoids_bind (avoids_perform (Or.inl h.mkdirFlag)) fun _ =>
      avoids_perform (Or.inl h.writeFlag)
  | selfDone env =>
    exact avoids_bind avoids_modify fun _ =>
      avoids_bind (avoids_perform (Or.inl h.unlinkFlag)) fun _ => avoids_updateLockState h
  | expireNotice nid env =>
    exact avoids_bind avoids_modify fun _ =>
      avoids_bind (avoids_attempt (Or.inl (h.unlinkNotice nid))) fun _ => avoids_pure
  | serviceDone label success =>
    refine avoids_bind avoids_modify fun _ => ?_
    split
    · exact avoids_modify
    · exact avoids_pure

end Coordinator

end VehicleStack
