import VehicleStack.Coordinator.Verdicts

/-!
# The update coordinator — what a refused operation does

The spool's operations are tried and their failures reported. Storing a
counter, sending on the socket and writing the self-update flag are not: a
refusal there leaves the callback as an exception and ends the loop, with
the pending entry already gone or the vehicle already held
(`refused_send_escapes`). `Survives` is the condition, on what an event
finds and on the answers it gets, under which nothing is raised; in every
run that meets it each callback returns, no request is lost, and who holds
the vehicle has an APPROVE on the bus (`handles_well`).
-/

namespace VehicleStack

namespace Coordinator

open Callback SecOC History

variable {cfg : Config} {env : Env} {w : World} {e : Event} {name : Requester} {slot : UInt8}
  {pending pending' : Dict Requester Pending} {tr : List Obs} {o : Obs}

/-! ## When nothing is raised -/

/-- Every operation the event's callback reaches is answered, the counters
it moves stay inside 32 bits, and the verdict files it reads are text. -/
def Survives (cfg : Config) (w : World) : Event → Prop
  | .frame f env =>
    (∀ c, claimOf (canRecv f).1 (canRecv f).2.1 (canRecv f).2.2 = some c →
      VerifySound cfg.aesCmac cfg.key w.disk.store env.rx (c.1.flow.did c.2) (canRecv f).2.2) ∧
    ∀ m, messageOn cfg w f env = some m → m.what = .request →
      BeginSound cfg env w.disk.store m.name.flow.didAppr
  | .poll now envs => ∀ name ∈ w.mem.pending.keys, ∀ p, w.mem.pending.get? name = some p →
      VerdictReadable (envs name) ∧
      ((decision cfg now (envs name) p).isSome → SendSound (envs name) w.disk.store p.didAppr)
  | .selfStart env => env.mkdirFlag ≠ .osError ∧ (env.mkdirFlag = .ok → env.writeFlag ≠ .osError)
  | .selfDone env => env.unlinkFlag ≠ .osError
  | _ => True

instance {s : FvStore} {did : ℕ} {io : Io} : Decidable (BuildSound s io did) :=
  inferInstanceAs (Decidable (_ ∧ _))

instance {s : FvStore} {did : ℕ} : Decidable (SendSound env s did) :=
  inferInstanceAs (Decidable (_ ∧ (_ → _)))

instance {s : FvStore} {did : ℕ} : Decidable (BeginSound cfg env s did) :=
  inferInstanceAs (Decidable (_ → _))

instance : Decidable (VerdictReadable env) :=
  inferInstanceAs (Decidable (∀ content, env.verdictFile = some content →
    (Text.readText 32 content).isSome))

instance {aes_cmac : Bytes → Bytes → Bytes} {key : Bytes} {s : FvStore} {io : Io} {did : ℕ}
    {frame : Bytes} : Decidable (VerifySound aes_cmac key s io did frame) :=
  inferInstanceAs (Decidable ((_ → _ ∧ _) ∧ (_ → _)))

instance : Decidable (Survives cfg w e) :=
  match e with
  | .frame f env => inferInstanceAs (Decidable ((∀ c : Requester × What, _ = some c →
      VerifySound _ _ _ _ (c.1.flow.did c.2) _) ∧ ∀ m : Message, messageOn cfg w f env = some m →
      m.what = .request → BeginSound cfg env w.disk.store m.name.flow.didAppr))
  | .poll now envs => inferInstanceAs (Decidable (∀ name ∈ w.mem.pending.keys,
      ∀ p, w.mem.pending.get? name = some p → VerdictReadable (envs name) ∧
        ((decision cfg now (envs name) p).isSome → SendSound (envs name) w.disk.store p.didAppr)))
  | .selfStart _ => inferInstanceAs (Decidable (_ ≠ _ ∧ (_ → _ ≠ _)))
  | .selfDone _ => inferInstanceAs (Decidable (_ ≠ _))
  | .drained _ | .timeout _ _ | .expireNotice _ _ | .serviceDone _ _ => isTrue trivial

/-- A frame of eight bytes and more has data. -/
theorem canRecv_ne_nil {f : CanFrame} (h : SECOC_FRAME_LEN ≤ (canRecv f).2.1) :
    (canRecv f).2.2 ≠ [] := by
  simp only [canRecv, SECOC_FRAME_LEN] at h ⊢
  intro hnil
  have hlen := congrArg List.length hnil
  simp only [List.length_take, Vector.length_toList, List.length_nil] at hlen
  omega

/-- Sending draws from one counter only. -/
theorem SendSound.congr {s s' : FvStore} {did : ℕ} (h : SendSound env s did)
    (hfile : s'.file .tx did = s.file .tx did) : SendSound env s' did := by
  simpa only [SendSound, BuildSound, FvStore.load, hfile] using h

/-- Looking at the lock raises nothing. -/
theorem wp_updateLockState_survives (hup : w.status = .up) :
    wp (updateLockState env) (fun _ w' => w'.status = .up) (fun r _ => r = .killed) w :=
  wp_updateLockState (fun _ _ _ => hup) fun _ _ _ => rfl

/-- An entry with a readable answer, and a counter that a verdict can be
drawn from. -/
theorem wp_pollEntry_survives {now : ℚ} {p : Pending} (hp : w.mem.pending.get? name = some p)
    (hread : VerdictReadable env)
    (hsend : (decision cfg now env p).isSome → SendSound env w.disk.store p.didAppr) :
    wp (pollEntry cfg now env name) (fun _ w' => w'.status = w.status) (fun r _ => r = .killed)
      w := by
  refine wp_pollEntry hp (fun _ => rfl) (fun approved hdec => ?_) fun r hr => hr hread
  refine wp_resolve hp (fun _ _ _ _ _ _ => wp_updateLockState (fun _ _ _ => rfl) fun _ _ _ => rfl)
    fun r _ hr _ => hr ?_
  exact hsend (by rw [hdec]; rfl)

/-- **A callback that survives returns, or is killed.** -/
theorem wp_survives (hup : w.status = .up) (hwired : Wired w.mem.pending) (h : Survives cfg w e) :
    wp (callback cfg e) (fun _ w' => w'.status = .up) (fun r _ => r = .killed) w := by
  cases e with
  | frame f env =>
    refine wp_handleCan (fun _ => hup) (fun m hm => ?_) (fun r hr => hr ⟨canRecv_ne_nil, h.1⟩)
      fun _ _ => rfl
    have hbegin := h.2 m hm
    obtain ⟨name, what, slot, fv⟩ := m
    cases what with
    | request =>
      simp only [process, wp_bind, wp_observe]
      refine wp_beginApproval (fun _ _ _ _ _ _ => wp_updateLockState_survives hup)
        (fun _ _ _ _ _ _ _ _ => wp_updateLockState_survives hup)
        (fun _ _ _ _ _ => wp_updateLockState_survives hup) fun r w' hr _ => hr fun hopens => ?_
      exact (hbegin rfl hopens).congr (FvStore.put_of_ne fun hk => by cases hk.1)
    | running =>
      simp only [process, wp_bind, wp_observe, completeUpdate, wp_setMem]
      exact wp_writeNotice (fun _ _ => wp_updateLockState_survives hup) fun _ => rfl
  | drained env => exact wp_updateLockState_survives hup
  | poll now envs =>
    refine wp_pollApprovals (I := fun w' => w'.status = .up) hwired hup
      (fun name p w' hp hsame hI => ?_) fun _ hI => ⟨hI, fun _ => hI⟩
    obtain ⟨hread, hsend⟩ := h name (Dict.mem_of_get? hp) p hp
    -- the other entry's verdict has drawn from another counter
    have hdid : p.didAppr = name.flow.didAppr := (hwired name p hp).1
    refine wp_mono (wp_pollEntry_survives (hsame.pending.trans hp) hread fun hdec => ?_)
      (fun _ _ hw'' => hw''.trans hI) fun _ _ hr => hr
    exact (hsend hdec).congr (by rw [hdid]; exact hsame.counter)
  | timeout now env =>
    exact wp_timeoutCheck (I := fun w' => w'.status = .up) hup (fun _ _ _ hI => hI) hup fun _ hI =>
      wp_updateLockState_survives hI
  | selfStart env =>
    exact wp_onSelfStart (wp_updateLockState (fun _ _ _ => ⟨hup, fun _ _ hr => hr h⟩)
      fun _ _ _ => rfl)
  | selfDone env =>
    exact wp_onSelfDone (wp_updateLockState_survives hup) fun _ _ hr => hr h
  | expireNotice nid env => exact wp_expireNotice (fun _ _ => hup) fun _ _ => rfl
  | serviceDone label success => exact wp_onServiceDone fun _ => hup

/-! ## What is consistent -/

/-- Every live request is pending, under its slot. -/
def Unanswered (pending : Dict Requester Pending) (tr : List Obs) : Prop :=
  ∀ n slot, Live n slot tr → ∃ p, pending.get? n = some p ∧ p.slot = slot

/-- A holder has an APPROVE entered for it. -/
def HoldersSent (active : Dict Ecu ℚ) (tr : List Obs) : Prop :=
  ∀ n : Requester, n.ecu ∈ active → ∃ slot fv, Obs.verdict n true slot fv ∈ tr

/-- What the book keeps in step. -/
structure Balanced (b : Book) : Prop where
  unanswered : Unanswered b.pending b.trace
  holders : HoldersSent b.active b.trace
  selfUpdate : Ecu.jetson ∈ b.active → b.flag = true

/-- **What the coordinator keeps in step.** -/
structure Consistent (cfg : Config) (w : World) : Prop where
  /-- A verdict that has been entered is a frame on the bus, and a frame on
  the bus a verdict entered. -/
  carried : Carried cfg w
  /-- So a request that no frame has answered is pending still. -/
  unanswered : Unanswered w.mem.pending w.trace
  /-- Who holds the vehicle has had an APPROVE handed to the socket. -/
  holders : ∀ n : Requester, n.ecu ∈ w.mem.activeEcus →
    ∃ slot fv, verdictFrame cfg n true slot fv ∈ w.bus
  selfUpdate : Ecu.jetson ∈ w.mem.activeEcus → w.disk.selfUpdateFlag = true

/-- The books balance, and the bus carries what they say. -/
theorem Balanced.consistent (h : Balanced w.book) (hcarried : Carried cfg w) :
    Consistent cfg w := by
  refine ⟨hcarried, h.unanswered, fun n hn => ?_, h.selfUpdate⟩
  obtain ⟨slot, fv, hmem⟩ := h.holders n hn
  exact ⟨slot, fv, hcarried.mem hmem⟩

/-- **A live request, after one more entry.** -/
theorem live_snoc : Live name slot (tr ++ [o]) ↔
    (∃ fv, o = .request name slot fv) ∨ Live name slot tr ∧ ¬ o.About name := by
  simp only [Live, last_snoc]
  constructor
  · rintro ⟨fv, rfl | ⟨h, ho⟩⟩
    · exact Or.inl ⟨fv, rfl⟩
    · exact Or.inr ⟨⟨fv, h⟩, ho⟩
  · rintro (⟨fv, rfl⟩ | ⟨⟨fv, h⟩, ho⟩)
    · exact ⟨fv, Or.inl rfl⟩
    · exact ⟨fv, Or.inr ⟨h, ho⟩⟩

/-- Entries that are no requests: whom they are about has nothing live. -/
theorem Unanswered.snoc (h : Unanswered pending tr) (ho : ∀ n slot fv, o ≠ .request n slot fv)
    (hsame : ∀ n, ¬ o.About n → pending'.get? n = pending.get? n) :
    Unanswered pending' (tr ++ [o]) := by
  intro n slot hlive
  rcases live_snoc.1 hlive with ⟨fv, heq⟩ | ⟨hlive, habout⟩
  · exact absurd heq (ho n slot fv)
  · rw [hsame n habout]
    exact h n slot hlive

/-- A request that is put in the table. -/
theorem Unanswered.ask {p : Pending} {fv : ℤ} (h : Unanswered pending tr)
    (hp : pending'.get? name = some p) (hsame : ∀ n ≠ name, pending'.get? n = pending.get? n) :
    Unanswered pending' (tr ++ [.request name p.slot fv]) := by
  intro n slot hlive
  rcases live_snoc.1 hlive with ⟨fv', heq⟩ | ⟨hlive, habout⟩
  · cases heq
    exact ⟨p, hp, rfl⟩
  · rw [hsame n fun hn => habout hn.symm]
    exact h n slot hlive

/-- A verdict, after which its requester has nothing live. -/
theorem Unanswered.answer {approved : Bool} {slot : UInt8} {did : ℕ} {payload : Bytes} {fv : ℤ}
    (h : ∀ n ≠ name, ∀ slot, Live n slot tr → ∃ p, pending.get? n = some p ∧ p.slot = slot)
    (hsame : ∀ n ≠ name, pending'.get? n = pending.get? n) :
    Unanswered pending' (tr ++ [.built did payload fv] ++ [.verdict name approved slot fv]) := by
  intro n slot' hlive
  rcases live_snoc.1 hlive with ⟨fv', heq⟩ | ⟨hlive, habout⟩
  · cases heq
  rcases live_snoc.1 hlive with ⟨fv', heq⟩ | ⟨hlive, -⟩
  · cases heq
  · have hn : n ≠ name := fun hn => habout hn.symm
    rw [hsame n hn]
    exact h n hn slot' hlive

/-- A request that is answered at once. -/
theorem Unanswered.open {approved : Bool} {slot' : UInt8} {did : ℕ} {payload : Bytes} {fv fv' : ℤ}
    (h : Unanswered pending tr) (hsame : ∀ n ≠ name, pending'.get? n = pending.get? n) :
    Unanswered pending' (tr ++ [.request name slot fv] ++ [.built did payload fv'] ++
      [.verdict name approved slot' fv']) := by
  refine Unanswered.answer (fun n hn slot'' hlive => ?_) hsame
  rcases live_snoc.1 hlive with ⟨fv', heq⟩ | ⟨hlive, -⟩
  · cases heq
    exact absurd rfl hn
  · exact h n slot'' hlive

/-- More entries take no APPROVE back. -/
theorem HoldersSent.append {active active' : Dict Ecu ℚ} {tr' : List Obs}
    (h : HoldersSent active tr) (hsub : ∀ n : Requester, n.ecu ∈ active' → n.ecu ∈ active) :
    HoldersSent active' (tr ++ tr') := by
  intro n hn
  obtain ⟨slot, fv, hmem⟩ := h n (hsub n hn)
  exact ⟨slot, fv, List.mem_append_left _ hmem⟩

/-- An APPROVE that is sent and written down. -/
theorem HoldersSent.approve {active : Dict Ecu ℚ} {t : ℚ} {fv : ℤ} (h : HoldersSent active tr) :
    HoldersSent (active.set name.ecu t) (tr ++ [.verdict name true slot fv]) := by
  intro n hn
  rcases Dict.mem_set.1 hn with heq | hmem
  · obtain rfl := Requester.ecu_injective heq
    exact ⟨slot, fv, by simp⟩
  · exact h.append (fun _ => id) n hmem

/-- Nor is the self-update among the requesters. -/
theorem jetson_of_mem_set {active : Dict Ecu ℚ} {t : ℚ} (h : Ecu.jetson ∈ active.set name.ecu t) :
    Ecu.jetson ∈ active :=
  (Dict.mem_set.1 h).resolve_left fun heq => Requester.ecu_ne_jetson heq.symm

theorem mem_of_mem_set_jetson {active : Dict Ecu ℚ} {t : ℚ} (h : name.ecu ∈ active.set .jetson t) :
    name.ecu ∈ active :=
  (Dict.mem_set.1 h).resolve_left Requester.ecu_ne_jetson

/-- **A move keeps the books balanced.** -/
theorem Move.balanced {b b' : Book} (h : Balanced b) (hmove : Move cfg w e b b') :
    Balanced b' := by
  cases hmove with
  | opened hm hasks =>
    refine ⟨h.unanswered.open fun _ _ => rfl, ?_, fun hj => h.selfUpdate (jetson_of_mem_set hj)⟩
    exact ((h.holders.append fun _ => id).append fun _ => id).approve
  | unasked hm hasks =>
    refine ⟨h.unanswered.open fun n hn => Dict.get?_erase_of_ne hn, ?_,
      fun hj => h.selfUpdate (jetson_of_mem_set hj)⟩
    exact ((h.holders.append fun _ => id).append fun _ => id).approve
  | asked hm hasks =>
    refine ⟨h.unanswered.ask Dict.get?_set_self fun n hn => ?_, h.holders.append fun _ => id,
      h.selfUpdate⟩
    exact (Dict.get?_set_of_ne hn).trans (Dict.get?_erase_of_ne hn)
  | completed hm =>
    refine ⟨h.unanswered.snoc (fun _ _ _ h => by cases h) fun _ _ => rfl,
      h.holders.append fun n hn =>
      (Dict.mem_erase.1 hn).2, fun hj => h.selfUpdate (Dict.mem_erase.1 hj).2⟩
  | approved hw hb hactive hdec =>
    refine ⟨?_, (h.holders.append fun _ => id).approve,
      fun hj => h.selfUpdate (jetson_of_mem_set hj)⟩
    exact Unanswered.answer (fun n _ => h.unanswered n) fun n hn => Dict.get?_erase_of_ne hn
  | denied hw hb hactive hdec =>
    refine ⟨?_, (h.holders.append fun _ => id).append fun _ => id, h.selfUpdate⟩
    exact Unanswered.answer (fun n _ => h.unanswered n) fun n hn => Dict.get?_erase_of_ne hn
  | expired =>
    exact ⟨h.unanswered.snoc (fun _ _ _ h => by cases h) fun _ _ => rfl,
      h.holders.append fun n hn =>
      (Dict.mem_erase.1 hn).2, fun hj => h.selfUpdate (Dict.mem_erase.1 hj).2⟩
  | selfStarted =>
    exact ⟨h.unanswered, fun n hn => h.holders n (mem_of_mem_set_jetson hn), fun _ => rfl⟩
  | selfDone =>
    exact ⟨h.unanswered, fun n hn => h.holders n (Dict.mem_erase.1 hn).2,
      fun hj => absurd rfl (Dict.mem_erase.1 hj).1⟩

/-! ## Runs -/

/-- A step that survives raises nothing. -/
theorem not_raised_of_survives (hup : w.status = .up) (hwired : Wired w.mem.pending)
    (h : Survives cfg w e) (why : Raised) : (step cfg w e).status ≠ .raised why := by
  refine step_of_wp (I := fun w' => w'.status ≠ .raised why) (by simp [hup]) fun _ _ => ?_
  refine wp_mono (wp_survives hup hwired h) (fun _ w' hw' => by simp [hw']) fun r _ hr => ?_
  simp [hr, statusAfter]

/-- A self-start that returns has registered the update in both places. -/
theorem selfStart_registers (hup : w.status = .up)
    (hret : (step cfg w (.selfStart env)).status = .up) :
    Ecu.jetson ∈ (step cfg w (.selfStart env)).mem.activeEcus ∧
      (step cfg w (.selfStart env)).disk.selfUpdateFlag = true := by
  have hrun : step cfg w (.selfStart env) = w.exec (onSelfStart env) := if_pos ⟨hup, rfl⟩
  rw [hrun] at hret ⊢
  refine exec_of_returns (I := fun w' => Ecu.jetson ∈ w'.mem.activeEcus ∧
    w'.disk.selfUpdateFlag = true) ?_ hret
  exact wp_onSelfStart (wp_updateLockState (fun _ _ _ =>
    ⟨⟨Dict.mem_set.2 (Or.inl rfl), rfl⟩, fun _ _ _ => trivial⟩) fun _ _ _ => trivial)

/-- **What is asked of each callback of a running process**: no exception
leaves it, and when it returns every live request is still pending, each
holder has an APPROVE on the bus, and the self-update is on record where it
holds the vehicle; a self-start has put it in both places. -/
def HandlesWell (cfg : Config) (w : World) (e : Event) : Prop :=
  w.status = .up → (∀ why, (step cfg w e).status ≠ .raised why) ∧
    ((step cfg w e).status = .up → Consistent cfg (step cfg w e) ∧
      ∀ env, e = .selfStart env → Ecu.jetson ∈ (step cfg w e).mem.activeEcus ∧
        (step cfg w e).disk.selfUpdateFlag = true)

/-- **No callback loses a request or ends the coordinator**, in every run
of a process in which each operation a callback reaches is answered. -/
theorem handles_well (cfg : Config) (d : Disk) (env : Env) (es : List Event)
    (h : Run.Along (step cfg) (Survives cfg) (World.launch d env) es) :
    Run.Along (step cfg) (HandlesWell cfg) (World.launch d env) es := by
  have hkeep : ∀ w e, OnBus cfg w ∧ Kept Balanced (fun _ _ => True) w →
      OnBus cfg (step cfg w e) ∧ Kept Balanced (fun _ _ => True) (step cfg w e) :=
    fun w e hw => ⟨onBus_step hw.1, kept_step hw.2 (fun _ _ => trivial)
      (fun _ _ hb _ hmove => hmove.balanced hb) fun _ _ _ _ _ => trivial⟩
  refine Run.along_of_inv (fun w e hw _ => hkeep w e hw) (fun w e hw hs hup => ⟨?_, ?_⟩)
    ⟨onBus_launch, ?_⟩ h
  · exact not_raised_of_survives hup hw.1.wired hs
  · intro hret
    obtain ⟨hbus, hkept⟩ := hkeep w e hw
    refine ⟨(hkept.2 hret).2.consistent hbus.carried, ?_⟩
    rintro env rfl
    exact selfStart_registers hup hret
  · refine kept_launch trivial fun flag => ⟨fun n slot hlive => ?_, fun n hn => ?_, fun hj => ?_⟩
    · obtain ⟨fv, hlast⟩ := hlive
      exact absurd hlast not_last_nil
    · exact absurd hn Dict.not_mem_empty
    · exact absurd hj Dict.not_mem_empty

/-- A self-update, and a request the driver approves while it is under
way. -/
theorem handles_well_once :
    Run.Along (step sampleConfig) (HandlesWell sampleConfig) (World.launch .fresh {})
      [.selfStart {}, .frame sampleRequest sampleEnv, .poll 1 fun _ => sampleApproval,
        .selfDone {}] :=
  handles_well sampleConfig .fresh {} _ (by decide +kernel)

/-- The driver approves, and the socket's buffer is full. -/
def refusedSend : List Event :=
  [.frame sampleRequest sampleEnv,
    .poll 1 fun _ => { sampleApproval with canSend := .osError }]

/-- **The refusal leaves the callback as an exception**, with the request
out of the table and unanswered. -/
theorem refused_send_escapes :
    ¬ Run.Along (step sampleConfig) (HandlesWell sampleConfig) (World.launch .fresh {})
      refusedSend := by
  intro h
  have hup : (step sampleConfig (World.launch .fresh {})
      (.frame sampleRequest sampleEnv)).status = .up := by decide +kernel
  refine (h.2.1 hup).1 .osError ?_
  decide +kernel

end Coordinator

end VehicleStack
