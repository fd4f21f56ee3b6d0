import VehicleStack.Coordinator.Handlers
import VehicleStack.SecOC.Freshness

/-!
# The update coordinator — what each method may change

One rule for each method, in the form of a weakest precondition; the
callers' proofs cite these rules and never unfold the method. A field whose
new value no proof depends on is given any value. Where a method stops, the
rule says what is left, and that it was killed unless its `Sound` predicate
fails: the pure condition under which nothing in it raises.
-/

namespace VehicleStack

namespace Coordinator

open Callback SecOC

variable {cfg : Config} {env : Env} {w : World} {E : Raised → World → Prop}
  {Q : Unit → World → Prop} {name : Requester}

/-! ## The small steps -/

@[simp] theorem wp_setMem {f : Memory → Memory} :
    wp (setMem f) Q E w = Q () { w with mem := f w.mem } := rfl

@[simp] theorem wp_observe {o : Obs} :
    wp (observe o) Q E w = Q () { w with trace := w.trace ++ [o] } := rfl

@[simp] theorem wp_activate {ecu : Ecu} :
    wp (activate env ecu) Q E w =
      Q () { w with mem := { w.mem with
        activeEcus := w.mem.activeEcus.set ecu (env.time .active) } } := rfl

@[simp] theorem wp_popPending :
    wp (popPending name) Q E w =
      Q () { w with mem := { w.mem with pending := w.mem.pending.erase name } } := rfl

@[simp] theorem wp_onStore {α : Type} {m : EStateM Raised FvStore α} {Q : α → World → Prop} :
    wp (onStore m) Q E w =
      wp m (fun a s => Q a { w with disk := { w.disk with store := s } })
        (fun e s => E e { w with disk := { w.disk with store := s } }) w.disk.store :=
  wp_zoom

/-! ## The lock -/

/-- `_call_service` marks a call as under way and sends it. -/
theorem wp_callService {label : Label}
    (h : ∀ pend calls, Q () { w with
      mem := { w.mem with lockStatePending := pend }, calls := calls })
    (hE : ∀ pend calls, E .killed { w with
      mem := { w.mem with lockStatePending := pend }, calls := calls }) :
    wp (callService env label) Q E w := by
  simp only [callService, wp_ite, wp_bind, wp_setMem, wp_pure]
  split
  · refine wp_perform (fun _ => h _ _) (fun e he => ?_) fun _ => hE _ _
    rw [he env.callAsync.answer_ne_osError]
    exact hE _ _
  · exact h w.mem.lockStatePending w.calls

/-- `_update_lock_state` touches the lock call and the timeout timer only. -/
theorem wp_updateLockState
    (h : ∀ pend timer calls, Q () { w with
      mem := { w.mem with lockStatePending := pend, timeoutTimer := timer }, calls := calls })
    (hE : ∀ pend timer calls, E .killed { w with
      mem := { w.mem with lockStatePending := pend, timeoutTimer := timer }, calls := calls }) :
    wp (updateLockState env) Q E w := by
  simp only [updateLockState, wp_bind, wp_get, wp_ite, wp_pure, startTimeoutTimer,
    stopTimeoutTimer, wp_setMem]
  split
  · exact h w.mem.lockStatePending w.mem.timeoutTimer w.calls
  · split <;> split <;> first
      | exact wp_callService (fun _ _ => h _ _ _) fun _ _ => hE _ _ _
      | (split
         · exact wp_callService (fun _ _ => h _ _ _) fun _ _ => hE _ _ _
         · exact h w.mem.lockStatePending _ w.calls)

/-! ## The spool -/

/-- `_withdraw_offer` touches `offers/` only. -/
theorem wp_withdrawOffer {oid : OfferId}
    (h : ∀ offers, Q () { w with disk := { w.disk with offers := offers } })
    (hE : ∀ offers, E .killed { w with disk := { w.disk with offers := offers } }) :
    wp (withdrawOffer env oid) Q E w := by
  have hrest : ∀ offers, wp (do let _ ← attempt (env.unlinkVerdict oid) id; pure () : Handler Unit)
      Q E { w with disk := { w.disk with offers := offers } } := by
    intro offers
    rw [wp_bind]
    exact wp_attempt (h offers) (h offers) (hE offers) (hE offers)
  unfold withdrawOffer
  rw [wp_bind]
  exact wp_attempt (hrest _) (hrest w.disk.offers) (hE w.disk.offers) (hE _)

/-- And so does `_write_offer`. -/
theorem wp_writeOffer {Q : Bool → World → Prop} {oid : OfferId} {slot : UInt8} {budget : Budget}
    (h : env.writeOffer ≠ .osError →
      ∀ offers, Q true { w with disk := { w.disk with offers := offers } })
    (hno : env.writeOffer = .osError → Q false w)
    (hE : ∀ offers, E .killed { w with disk := { w.disk with offers := offers } }) :
    wp (writeOffer env oid name slot budget) Q E w := by
  unfold writeOffer
  cases hanswer : env.writeOffer with
  | ok => exact h (by rw [hanswer]; nofun) _
  | osError => exact hno hanswer
  | killBefore => exact hE w.disk.offers
  | killAfter => exact hE _

/-- `_write_notice` touches the notices and their timers only. -/
theorem wp_writeNotice
    (h : ∀ notices timers, Q () { w with
      mem := { w.mem with noticeTimers := timers }, disk := { w.disk with notices := notices } })
    (hE : ∀ notices, E .killed { w with disk := { w.disk with notices := notices } }) :
    wp (writeNotice env name) Q E w := by
  simp only [writeNotice, wp_ite, wp_bind, wp_pure]
  split
  · refine wp_attempt ?_ ?_ (hE w.disk.notices) (hE _)
    · exact h _ _
    · exact h w.disk.notices w.mem.noticeTimers
  · exact h w.disk.notices w.mem.noticeTimers

/-- A notice is taken down without anything else changing. -/
theorem wp_expireNotice {nid : Requester × ℤ}
    (h : ∀ notices timers, Q () { w with
      mem := { w.mem with noticeTimers := timers }, disk := { w.disk with notices := notices } })
    (hE : ∀ notices timers, E .killed { w with
      mem := { w.mem with noticeTimers := timers }, disk := { w.disk with notices := notices } }) :
    wp (expireNotice env nid) Q E w := by
  simp only [expireNotice, wp_bind, wp_setMem]
  exact wp_attempt (h _ _) (h w.disk.notices _) (hE w.disk.notices _) (hE _ _)

/-- The verdict file, where there is one, is text. -/
def VerdictReadable (env : Env) : Prop :=
  ∀ content, env.verdictFile = some content → (Text.readText 32 content).isSome

/-- What a readable verdict file says. -/
def answerOf (env : Env) : Option Bool :=
  env.verdictFile.bind fun content =>
    (Text.readText 32 content).map fun text => verdictOfWord (Text.lower (Text.strip text))

/-- Reading a verdict changes nothing. -/
theorem wp_readVerdict {Q : Option Bool → World → Prop} (h : Q (answerOf env) w)
    (hE : ∀ e, (VerdictReadable env → e = .killed) → E e w) : wp (readVerdict env) Q E w := by
  unfold answerOf at h
  cases hfile : env.verdictFile with
  | none =>
    rw [hfile, Option.bind_none] at h
    simpa only [readVerdict, hfile, wp_pure] using h
  | some content =>
    rw [hfile, Option.bind_some] at h
    cases htext : Text.readText 32 content with
    | none =>
      have hraise := hE .unicodeDecodeError fun hread =>
        absurd (hread content hfile) (by simp [htext])
      simpa only [readVerdict, hfile, htext, wp_throw] using hraise
    | some text =>
      rw [htext, Option.map_some] at h
      simpa only [readVerdict, hfile, htext, wp_pure] using h

/-! ## Approval -/

/-- The stores agree but for the counter that verdicts for `did` draw
from. -/
def SameButTx (did : ℕ) (s s' : FvStore) : Prop :=
  ∀ kind did', ¬ (kind = .tx ∧ did' = did) → s'.file kind did' = s.file kind did'

/-- The floors among them. -/
theorem SameButTx.floors {did : ℕ} {s s' : FvStore} (h : SameButTx did s s') :
    s'.file .rx = s.file .rx := by
  funext did'
  exact h _ _ fun hk => by cases hk.1

theorem sameButTx_put {did : ℕ} {s : FvStore} {fv : ℤ} : SameButTx did s (s.put .tx did fv) :=
  fun _ _ h => FvStore.put_of_ne h

/-- As much of a verdict as may have been entered where it stops: it has not
been built, or it has not been sent, or the process dies right after. -/
inductive SentPart (name : Requester) (approved : Bool) (slot : UInt8) : List Obs → Prop
  | nothing : SentPart name approved slot []
  | built {did payload fv} : SentPart name approved slot [.built did payload fv]
  | sent {did payload fv} :
      SentPart name approved slot [.built did payload fv, .verdict name approved slot fv]

/-- A verdict has stopped on its way from `w`: part of it has been entered,
no floor has moved, and nothing has been asked of the lock. -/
def SentUpTo (name : Requester) (approved : Bool) (slot : UInt8) (w w' : World) : Prop :=
  w'.calls = w.calls ∧ w'.client = w.client ∧
    w'.disk.store.file .rx = w.disk.store.file .rx ∧
    ∃ part, SentPart name approved slot part ∧ w'.trace = w.trace ++ part

theorem SentUpTo.nothing {approved : Bool} {slot : UInt8} {w' : World}
    (hcalls : w'.calls = w.calls) (hclient : w'.client = w.client)
    (hstore : w'.disk.store = w.disk.store) (htrace : w'.trace = w.trace) :
    SentUpTo name approved slot w w' :=
  ⟨hcalls, hclient, by rw [hstore], [], .nothing, by rw [htrace, List.append_nil]⟩

/-- Sending a verdict raises nothing. -/
def SendSound (env : Env) (s : FvStore) (did : ℕ) : Prop :=
  BuildSound s env.tx did ∧ (env.tx.store = .ok → env.canSend ≠ .osError)

/-- **`_send_verdict`.** A frame is built, then handed to the socket; each
of the two can be where it stops. -/
theorem wp_sendVerdict {didAppr apprCanId : ℕ} {slot : UInt8} {approved : Bool}
    (h : ∀ store bus payload fv, SameButTx didAppr w.disk.store store → Q () { w with
      disk := { w.disk with store := store }, bus := bus
      trace := w.trace ++ [.built didAppr payload fv] ++ [.verdict name approved slot fv] })
    (hE : ∀ e w', (SendSound env w.disk.store didAppr → e = .killed) →
      SentUpTo name approved slot w w' → E e w') :
    wp (sendVerdict cfg env name didAppr apprCanId slot approved) Q E w := by
  simp only [sendVerdict, wp_bind, wp_onStore, wp_observe]
  refine wp_secocBuild (fun _ hstore => ?_)
    (fun e he => hE e _ (fun hsound => he hsound.1) (.nothing rfl rfl rfl rfl))
    fun _ _ => hE _ _ (fun _ => rfl)
      ⟨rfl, rfl, sameButTx_put.floors, [], .nothing, (List.append_nil _).symm⟩
  refine wp_perform (fun _ => h _ _ _ _ sameButTx_put) (fun e he => ?_) fun _ => ?_
  · exact hE e _ (fun hsound => he (hsound.2 hstore))
      ⟨rfl, rfl, sameButTx_put.floors, _, .built, rfl⟩
  · exact hE _ _ (fun _ => rfl) ⟨rfl, rfl, sameButTx_put.floors, _, .sent,
      List.append_assoc _ _ _⟩

/-- Answering at once approves, and holds the vehicle. -/
theorem wp_failOpen {didAppr apprCanId : ℕ} {slot : UInt8}
    (h : ∀ store bus payload fv, SameButTx didAppr w.disk.store store → Q () { w with
      mem := { w.mem with activeEcus := w.mem.activeEcus.set name.ecu (env.time .active) }
      disk := { w.disk with store := store }, bus := bus
      trace := w.trace ++ [.built didAppr payload fv] ++ [.verdict name true slot fv] })
    (hE : ∀ e w', (SendSound env w.disk.store didAppr → e = .killed) →
      SentUpTo name true slot w w' → E e w') :
    wp (failOpen cfg env name slot didAppr apprCanId) Q E w := by
  simp only [failOpen, wp_bind]
  exact wp_sendVerdict h hE

/-- Taking the old prompt down unbinds the requester. -/
theorem wp_dropPending
    (h : ∀ offers, Q () { w with
      mem := { w.mem with pending := w.mem.pending.erase name }
      disk := { w.disk with offers := offers } })
    (hE : ∀ offers, E .killed { w with
      mem := { w.mem with pending := w.mem.pending.erase name }
      disk := { w.disk with offers := offers } }) :
    wp (dropPending env name) Q E w := by
  simp only [dropPending, wp_bind, wp_get]
  split
  · simp only [wp_bind, wp_popPending]
    exact wp_withdrawOffer h hE
  · rename_i hnone
    have := h w.disk.offers
    rw [Dict.erase_of_get?_eq_none hnone] at this
    exact this

/-- Whether a REQUEST is put in front of the driver. -/
def asksDriver (cfg : Config) (env : Env) : Bool := cfg.requireApproval && uiAvailable cfg env

/-- The condition of `_begin_approval`'s first branch. -/
theorem gate_eq : (!cfg.requireApproval || !uiAvailable cfg env) = !asksDriver cfg env := by
  rw [asksDriver, Bool.not_and]

/-- Beginning an approval raises nothing: where it answers at once, the
verdict can be sent. -/
def BeginSound (cfg : Config) (env : Env) (s : FvStore) (did : ℕ) : Prop :=
  asksDriver cfg env = false ∨ env.writeOffer = .osError → SendSound env s did

/-- A REQUEST becomes a prompt: the driver is to be asked, and the offer can
be written. -/
def Prompts (cfg : Config) (env : Env) : Prop :=
  asksDriver cfg env = true ∧ env.writeOffer ≠ .osError

instance : Decidable (Prompts cfg env) := inferInstanceAs (Decidable (_ ∧ _))

/-- **`_begin_approval`** answers at once, or asks the driver under a new
offer, or finds that it cannot and answers at once. -/
theorem wp_beginApproval {didAppr apprCanId : ℕ} {slot : UInt8}
    (hopen : asksDriver cfg env = false →
      ∀ store bus payload fv, SameButTx didAppr w.disk.store store → Q () { w with
        mem := { w.mem with activeEcus := w.mem.activeEcus.set name.ecu (env.time .active) }
        disk := { w.disk with store := store }, bus := bus
        trace := w.trace ++ [.built didAppr payload fv] ++ [.verdict name true slot fv] })
    (hcannot : asksDriver cfg env = true ∧ env.writeOffer = .osError →
      ∀ store bus payload fv offers seq, SameButTx didAppr w.disk.store store → Q () { w with
        mem := { w.mem with
          activeEcus := w.mem.activeEcus.set name.ecu (env.time .active)
          pending := w.mem.pending.erase name, offerSeq := seq }
        disk := { w.disk with store := store, offers := offers }, bus := bus
        trace := w.trace ++ [.built didAppr payload fv] ++ [.verdict name true slot fv] })
    (hask : Prompts cfg env →
      ∀ oid t0 offers seq, Q () { w with
        mem := { w.mem with
          pending := (w.mem.pending.erase name).set name
            ⟨oid, slot, didAppr, apprCanId, t0,
              env.time .deadline + name.budget.deadlineMs / 1000⟩
          pollTimer := true, offerSeq := seq }
        disk := { w.disk with offers := offers } })
    (hE : ∀ e w', (BeginSound cfg env w.disk.store didAppr → e = .killed) →
      SentUpTo name true slot w w' → E e w') :
    wp (beginApproval cfg env name slot didAppr apprCanId) Q E w := by
  simp only [beginApproval, wp_ite, gate_eq]
  cases hasks : asksDriver cfg env with
  | false =>
    simp only [Bool.not_false, if_true]
    exact wp_failOpen (hopen hasks) fun e w' he =>
      hE e w' fun hsound => he (hsound (Or.inl hasks))
  | true =>
    simp only [Bool.not_true, Bool.false_eq_true, if_false]
    rw [wp_bind]
    refine wp_dropPending (fun offers => ?_) fun offers =>
      hE _ _ (fun _ => rfl) (.nothing rfl rfl rfl rfl)
    simp only [wp_bind, wp_setMem, wp_get]
    refine wp_writeOffer (fun hwritten offers => ?_) (fun hanswer => ?_) fun offers =>
      hE _ _ (fun _ => rfl) (.nothing rfl rfl rfl rfl)
    · exact hask ⟨hasks, hwritten⟩ _ _ _ _
    · exact wp_failOpen (fun store bus payload fv hs =>
        hcannot ⟨hasks, hanswer⟩ store bus payload fv _ _ hs)
        fun e w' he => hE e w' fun hsound => he (hsound (Or.inr hanswer))

/-- **`_resolve`**, of a pending requester: the entry goes, the verdict is
sent, and an approval holds the vehicle. -/
theorem wp_resolve {p : Pending} {approved : Bool} (hp : w.mem.pending.get? name = some p)
    (h : ∀ store bus payload fv offers, SameButTx p.didAppr w.disk.store store →
      wp (updateLockState env) Q E { w with
        mem := { w.mem with
          pending := w.mem.pending.erase name
          activeEcus := if approved then w.mem.activeEcus.set name.ecu (env.time .active)
            else w.mem.activeEcus }
        disk := { w.disk with store := store, offers := offers }, bus := bus
        trace := w.trace ++ [.built p.didAppr payload fv] ++ [.verdict name approved p.slot fv] })
    (hE : ∀ e w', (SendSound env w.disk.store p.didAppr → e = .killed) →
      SentUpTo name approved p.slot w w' → E e w') :
    wp (resolve cfg env name approved) Q E w := by
  simp only [resolve, wp_bind, wp_get, hp, wp_popPending]
  refine wp_withdrawOffer (fun offers => ?_) fun offers =>
    hE _ _ (fun _ => rfl) (.nothing rfl rfl rfl rfl)
  rw [wp_bind]
  refine wp_sendVerdict (fun store bus payload fv hs => ?_) hE
  have := h store bus payload fv offers hs
  cases approved <;> exact this

/-- What a poll makes of an entry: the driver's answer, or the default once
the entry is overdue, or nothing yet. -/
def decision (cfg : Config) (now : ℚ) (env : Env) (p : Pending) : Option Bool :=
  match answerOf env with
  | some approved => some approved
  | none => if p.deadline ≤ now then some (decide (cfg.onNoVerdict = .approve)) else none

/-- One entry of a poll. -/
theorem wp_pollEntry {now : ℚ} {p : Pending} (hp : w.mem.pending.get? name = some p)
    (hwait : decision cfg now env p = none → Q () w)
    (hdecide : ∀ approved, decision cfg now env p = some approved →
      wp (resolve cfg env name approved) Q E w)
    (hE : ∀ e, (VerdictReadable env → e = .killed) → E e w) :
    wp (pollEntry cfg now env name) Q E w := by
  simp only [pollEntry, wp_bind, wp_get, hp]
  refine wp_readVerdict ?_ hE
  unfold decision at hwait hdecide
  cases hanswer : answerOf env with
  | some approved => exact hdecide approved (by rw [hanswer])
  | none =>
    simp only [hanswer] at hwait hdecide
    simp only [wp_ite, wp_pure]
    split
    · rename_i hdue
      exact hdecide _ (if_pos hdue)
    · rename_i hdue
      exact hwait (if_neg hdue)

/-- What one requester's entry does not share with another's. -/
structure SameFor (n : Requester) (w w' : World) : Prop where
  pending : w'.mem.pending.get? n = w.mem.pending.get? n
  active : n.ecu ∈ w'.mem.activeEcus ↔ n.ecu ∈ w.mem.activeEcus
  counter : w'.disk.store.file .tx n.flow.didAppr = w.disk.store.file .tx n.flow.didAppr

theorem SameFor.trans {n : Requester} {w w' w'' : World} (h : SameFor n w w')
    (h' : SameFor n w' w'') : SameFor n w w'' :=
  ⟨h'.pending.trans h.pending, h'.active.trans h.active, h'.counter.trans h.counter⟩

/-- Every pending entry answers on its requester's own flow. -/
def Wired (pending : Dict Requester Pending) : Prop :=
  ∀ n p, pending.get? n = some p → p.didAppr = n.flow.didAppr ∧ p.apprCanId = n.flow.apprCanId

theorem didAppr_injective {m n : Requester} (h : m.flow.didAppr = n.flow.didAppr) : m = n := by
  cases m <;> cases n <;> first | rfl | exact absurd h (by decide)

/-- An entry's pass leaves the other requesters alone. -/
theorem pollEntry_others {now : ℚ} {p : Pending} (hp : w.mem.pending.get? name = some p)
    (hwired : p.didAppr = name.flow.didAppr) :
    wp (pollEntry cfg now env name) (fun _ w' => ∀ n ≠ name, SameFor n w w') (fun _ _ => True)
      w := by
  refine wp_pollEntry hp (fun _ n _ => ⟨rfl, Iff.rfl, rfl⟩) (fun approved _ => ?_)
    fun _ _ => trivial
  refine wp_resolve hp (fun store bus payload fv offers hs => ?_) fun _ _ _ _ => trivial
  refine wp_updateLockState (fun pend timer calls n hn => ⟨Dict.get?_erase_of_ne hn, ?_, ?_⟩)
    fun _ _ _ => trivial
  · cases approved
    · exact Iff.rfl
    · simp [hn]
  · exact hs _ _ fun h => hn (didAppr_injective (h.2.trans hwired))

/-- The entries a poll has still to look at are as it found them. -/
structure Unvisited (w : World) (rest : List Requester) (w' : World) : Prop where
  nodup : rest.Nodup
  same : ∀ n ∈ rest, n ∈ w.mem.pending ∧ SameFor n w w'

theorem unvisited_keys : Unvisited w w.mem.pending.keys w :=
  ⟨Dict.keys_nodup, fun _ hn => ⟨hn, rfl, Iff.rfl, rfl⟩⟩

/-- The next of them. -/
theorem Unvisited.entry {rest : List Requester} (h : Unvisited w (name :: rest) w') :
    SameFor name w w' ∧ ∃ p, w.mem.pending.get? name = some p ∧
      w'.mem.pending.get? name = some p := by
  obtain ⟨hmem, hsame⟩ := h.same name List.mem_cons_self
  obtain ⟨p, hp⟩ := Dict.exists_get?_of_mem hmem
  exact ⟨hsame, p, hp, hsame.pending.trans hp⟩

/-- **A pass touches its own requester only**, so the rest is as before. -/
theorem Unvisited.tail {rest : List Requester} {w'' : World} (h : Unvisited w (name :: rest) w')
    (hothers : ∀ n ≠ name, SameFor n w' w'') : Unvisited w rest w'' := by
  refine ⟨h.nodup.of_cons, fun n hn => ?_⟩
  have hne : n ≠ name := fun heq => (List.nodup_cons.1 h.nodup).1 (heq ▸ hn)
  obtain ⟨hmem, hsame⟩ := h.same n (List.mem_cons_of_mem _ hn)
  exact ⟨hmem, hsame.trans (hothers n hne)⟩

/-- **`_poll_approvals`, entry by entry.** Each entry is dealt with in a
world that still holds what the poll found about it; `I rest` is what holds
with `rest` still to look at. -/
theorem wp_pollApprovals_each {now : ℚ} {envs : Requester → Env} {I : List Requester → World → Prop}
    (hwired : Wired w.mem.pending) (h0 : I w.mem.pending.keys w)
    (hentry : ∀ name rest p w', w.mem.pending.get? name = some p → SameFor name w w' →
      I (name :: rest) w' → wp (pollEntry cfg now (envs name) name) (fun _ => I rest) E w')
    (hend : ∀ w', I [] w' → (w'.mem.pending.isEmpty = false → Q () w') ∧
      (w'.mem.pending.isEmpty = true →
        Q () { w' with mem := { w'.mem with pollTimer := false } })) :
    wp (pollApprovals cfg now envs) Q E w := by
  simp only [pollApprovals, wp_bind, wp_get]
  refine wp_mono (wp_forM (E := E) (I := fun rest w' => I rest w' ∧ Unvisited w rest w') ?_
    ⟨h0, unvisited_keys⟩) ?_ fun _ _ h => h
  · rintro name rest w' ⟨hI, hrest⟩
    obtain ⟨hsame, p, hp, hp'⟩ := hrest.entry
    have hothers : wp (pollEntry cfg now (envs name) name)
        (fun _ w'' => ∀ n ≠ name, SameFor n w' w'') (fun _ _ => True) w' :=
      pollEntry_others hp' (hwired name p hp).1
    refine wp_mono (wp_and (hentry name rest p w' hp hsame hI) hothers) ?_ fun _ _ h => h.1
    rintro - w'' ⟨hI', hothers⟩
    exact ⟨hI', hrest.tail hothers⟩
  · rintro - w' ⟨hI, -⟩
    simp only [wp_bind, wp_get, wp_ite, wp_pure, stopPollTimer, wp_setMem]
    split
    · rename_i hempty
      exact (hend w' hI).2 hempty
    · rename_i hleft
      exact (hend w' hI).1 (Bool.eq_false_of_not_eq_true hleft)

/-- **`_poll_approvals`**, with one invariant for all its passes. -/
theorem wp_pollApprovals {now : ℚ} {envs : Requester → Env} {I : World → Prop}
    (hwired : Wired w.mem.pending) (h0 : I w)
    (hentry : ∀ name p w', w.mem.pending.get? name = some p → SameFor name w w' → I w' →
      wp (pollEntry cfg now (envs name) name) (fun _ => I) E w')
    (hend : ∀ w', I w' → Q () w' ∧ (w'.mem.pending.isEmpty = true →
      Q () { w' with mem := { w'.mem with pollTimer := false } })) :
    wp (pollApprovals cfg now envs) Q E w :=
  wp_pollApprovals_each (I := fun _ => I) hwired h0 (fun name _ => hentry name) fun w' hI =>
    ⟨fun _ => (hend w' hI).1, (hend w' hI).2⟩

/-! ## Timeout -/

/-- The timeout finds the holder overdue. -/
def Overdue (cfg : Config) (now : ℚ) (active : Dict Ecu ℚ) (ecu : Ecu) : Prop :=
  ∃ t, active.get? ecu = some t ∧ cfg.timeoutSec < now - t

theorem mem_expired {now : ℚ} {active : Dict Ecu ℚ} {ecu : Ecu} :
    ecu ∈ (active.entries.filter fun p => cfg.timeoutSec < now - p.2).map Prod.fst ↔
      Overdue cfg now active ecu := by
  simp [Overdue, Dict.mem_entries]

/-- **`_timeout_check`** releases the holders that are overdue one after the
other, then looks at the lock. -/
theorem wp_timeoutCheck {now : ℚ} {I : World → Prop} (h0 : I w)
    (hrelease : ∀ ecu w', Overdue cfg now w.mem.activeEcus ecu → I w' → I { w' with
      mem := { w'.mem with activeEcus := w'.mem.activeEcus.erase ecu }
      trace := w'.trace ++ [.expired ecu] })
    (hidle : Q () w) (hend : ∀ w', I w' → wp (updateLockState env) Q E w') :
    wp (timeoutCheck cfg now env) Q E w := by
  simp only [timeoutCheck, wp_bind, wp_get]
  have hoverdue : ∀ ecu ∈ (w.mem.activeEcus.entries.filter fun p =>
      cfg.timeoutSec < now - p.2).map Prod.fst, Overdue cfg now w.mem.activeEcus ecu :=
    fun _ => mem_expired.1
  generalize (w.mem.activeEcus.entries.filter fun p => cfg.timeoutSec < now - p.2).map
    Prod.fst = expired at hoverdue ⊢
  cases expired with
  | nil => exact hidle
  | cons ecu rest =>
    refine wp_mono (wp_forM (E := E) (I := fun rest w' => (∀ ecu ∈ rest, Overdue cfg now
      w.mem.activeEcus ecu) ∧ I w') (fun ecu rest w' h => ?_) ⟨hoverdue, h0⟩)
      (fun _ w' h => ?_) fun _ _ h => h
    · simp only [wp_bind, wp_setMem, wp_observe]
      exact ⟨fun ecu' h' => h.1 ecu' (List.mem_cons_of_mem _ h'),
        hrelease ecu w' (h.1 ecu List.mem_cons_self) h.2⟩
    · simpa using hend w' h.2

/-- **And those it releases are the ones overdue.** -/
theorem wp_timeoutCheck_active {now : ℚ} :
    wp (timeoutCheck cfg now env) (fun _ w' => ∀ ecu, w'.mem.activeEcus.get? ecu =
      (w.mem.activeEcus.get? ecu).filter fun t => now - t ≤ cfg.timeoutSec) (fun _ _ => True)
      w := by
  simp only [timeoutCheck, wp_bind, wp_get]
  generalize hexp : (w.mem.activeEcus.entries.filter fun p => cfg.timeoutSec < now - p.2).map
    Prod.fst = expired
  have hmem : ∀ ecu, ecu ∈ expired ↔ Overdue cfg now w.mem.activeEcus ecu := fun ecu => by
    rw [← hexp]
    exact mem_expired
  have hdone : ∀ w' : World, (∀ ecu, ¬ ecu ∈ expired →
        w'.mem.activeEcus.get? ecu = w.mem.activeEcus.get? ecu) →
      (∀ ecu ∈ expired, w'.mem.activeEcus.get? ecu = none) → ∀ ecu, w'.mem.activeEcus.get? ecu =
        (w.mem.activeEcus.get? ecu).filter fun t => now - t ≤ cfg.timeoutSec := by
    intro w' hkept hgone ecu
    by_cases hecu : ecu ∈ expired
    · obtain ⟨t, ht, hlt⟩ := (hmem ecu).1 hecu
      rw [hgone ecu hecu, ht, Option.filter_some,
        if_neg fun h => absurd (of_decide_eq_true h) (not_le.2 hlt)]
    · rw [hkept ecu hecu]
      cases ht : w.mem.activeEcus.get? ecu with
      | none => rfl
      | some t =>
        have hle : now - t ≤ cfg.timeoutSec := not_lt.1 fun hlt => hecu ((hmem ecu).2 ⟨t, ht, hlt⟩)
        rw [Option.filter_some, if_pos (decide_eq_true hle)]
  -- with `rest` still to release, the others among the expired are gone
  refine wp_mono (wp_forM (E := fun _ _ => True) (I := fun rest w' =>
    (∀ ecu ∈ rest, ecu ∈ expired) ∧
    (∀ ecu, ¬ ecu ∈ expired → w'.mem.activeEcus.get? ecu = w.mem.activeEcus.get? ecu) ∧
      ∀ ecu ∈ expired, ecu ∈ rest ∨ w'.mem.activeEcus.get? ecu = none) ?_
    ⟨fun _ h => h, fun _ _ => rfl, fun _ h => Or.inl h⟩) ?_ fun _ _ _ => trivial
  · rintro x rest w' ⟨hsub, hkept, hgone⟩
    simp only [wp_bind, wp_setMem, wp_observe]
    refine ⟨fun ecu h => hsub ecu (List.mem_cons_of_mem _ h), fun ecu hecu => ?_,
      fun ecu hecu => ?_⟩
    · have hne : ecu ≠ x := fun h => hecu (h ▸ hsub x List.mem_cons_self)
      rw [Dict.get?_erase_of_ne hne]
      exact hkept ecu hecu
    · rw [Dict.get?_erase]
      split
      · exact Or.inr rfl
      · rename_i hne
        rcases hgone ecu hecu with h | h
        · exact Or.inl ((List.mem_cons.1 h).resolve_left hne)
        · exact Or.inr h
  · rintro - w' ⟨-, hkept, hgone⟩
    have hactive := hdone w' hkept fun ecu hecu =>
      (hgone ecu hecu).resolve_left List.not_mem_nil
    cases expired with
    | nil => exact hactive
    | cons ecu rest =>
      exact wp_updateLockState (fun _ _ _ => hactive) fun _ _ _ => trivial

/-! ## Self-updates, and the answers to calls -/

/-- `_on_self_start` looks at the lock before it puts the update on
record. -/
theorem wp_onSelfStart
    (h : wp (updateLockState env)
      (fun _ w' => Q () { w' with disk := { w'.disk with selfUpdateFlag := true } } ∧
        ∀ e flag, (env.mkdirFlag ≠ .osError ∧ (env.mkdirFlag = .ok → env.writeFlag ≠ .osError) →
          e = .killed) → E e { w' with disk := { w'.disk with selfUpdateFlag := flag } }) E
      { w with mem := { w.mem with
        activeEcus := w.mem.activeEcus.set .jetson (env.time .active) } }) :
    wp (onSelfStart env) Q E w := by
  simp only [onSelfStart, wp_bind, wp_activate]
  refine wp_mono h (fun _ w' h => ?_) fun _ _ h => h
  obtain ⟨hQ, hE⟩ := h
  rw [wp_bind]
  refine wp_perform (fun hmkdir => ?_) (fun e he => ?_) fun _ => ?_
  · exact wp_perform (fun _ => hQ) (fun e he => hE e w'.disk.selfUpdateFlag fun hs =>
      he (hs.2 hmkdir)) fun _ => hE .killed true fun _ => rfl
  · exact hE e w'.disk.selfUpdateFlag fun hs => he hs.1
  · exact hE .killed w'.disk.selfUpdateFlag fun _ => rfl

/-- `_on_self_done` takes the update off the record first. -/
theorem wp_onSelfDone
    (h : wp (updateLockState env) Q E { w with
      mem := { w.mem with activeEcus := w.mem.activeEcus.erase .jetson }
      disk := { w.disk with selfUpdateFlag := false } })
    (hE : ∀ e flag, (env.unlinkFlag ≠ .osError → e = .killed) → E e { w with
      mem := { w.mem with activeEcus := w.mem.activeEcus.erase .jetson }
      disk := { w.disk with selfUpdateFlag := flag } }) : wp (onSelfDone env) Q E w := by
  simp only [onSelfDone, wp_bind, wp_setMem]
  exact wp_perform (fun _ => h) (fun e he => hE e w.disk.selfUpdateFlag he) fun _ =>
    hE .killed false fun _ => rfl

/-- An answer settles the call, and may tell the lock's state. -/
theorem wp_onServiceDone {label : Label} {success : Option Bool}
    (h : ∀ locked, Q () { w with
      mem := { w.mem with lockStatePending := false, isLocked := locked } }) :
    wp (onServiceDone label success) Q E w := by
  simp only [onServiceDone, wp_bind, wp_setMem]
  split
  · exact h _
  · exact h w.mem.isLocked

/-! ## Frames -/

/-- An authentic message. -/
structure Message where
  name : Requester
  what : What
  slot : UInt8
  fv : ℤ
  deriving DecidableEq, Repr

/-- The identifier a kind of message is authenticated under. -/
def Flow.did (flow : Flow) : What → ℕ
  | .request => flow.didReq
  | .running => flow.didRun

def Message.did (m : Message) : ℕ := m.name.flow.did m.what

/-- The observation that a message has been processed. -/
def Message.obs (m : Message) : Obs :=
  match m.what with
  | .request => .request m.name m.slot m.fv
  | .running => .running m.name m.slot m.fv

/-- Whom a frame claims to be from, and what it claims to be: the length,
the CAN id and the magic are known. -/
def claimOf (canId dlc : ℕ) (data : Bytes) : Option (Requester × What) :=
  if dlc < SECOC_FRAME_LEN then none
  else
    (flows canId).bind fun flow =>
      data.head?.bind fun magic => (announced flow magic).map fun a => (flow.name, a.2)

/-- The authentic message a frame carries, if any: SecOC accepts what the
frame claims. -/
def messageOf (cfg : Config) (w : World) (env : Env) (canId dlc : ℕ) (data : Bytes) :
    Option Message :=
  (claimOf canId dlc data).bind fun c =>
    (accepts cfg.aesCmac cfg.key (w.disk.store.load env.rx .rx (c.1.flow.did c.2))
      (c.1.flow.did c.2) data).map fun fv => ⟨c.1, c.2, (data.take 2).getD 1 0, fv⟩

/-- The world in which an accepted message is processed: its floor has been
stored. -/
def World.accept (w : World) (m : Message) : World :=
  { w with disk := { w.disk with store := w.disk.store.put .rx m.did m.fv } }

@[simp] theorem Requester.flow_name : name.flow.name = name := by
  cases name <;> rfl

/-- The table's entries are the two requesters'. -/
theorem exists_requester {canId : ℕ} {flow : Flow} (h : flows canId = some flow) :
    ∃ name : Requester, flow = name.flow := by
  unfold flows at h
  split at h
  · exact ⟨.cluster, (Option.some.inj h).symm⟩
  · split at h
    · exact ⟨.esp32, (Option.some.inj h).symm⟩
    · cases h

theorem announced_did {flow : Flow} {magic : UInt8} {did : ℕ} {what : What}
    (h : announced flow magic = some (did, what)) : did = flow.did what := by
  unfold announced at h
  split at h
  · cases h
    rfl
  · split at h
    · cases h
      rfl
    · cases h

/-- Verifying a frame raises nothing. -/
def FrameSound (cfg : Config) (w : World) (env : Env) (canId dlc : ℕ) (data : Bytes) : Prop :=
  (SECOC_FRAME_LEN ≤ dlc → data ≠ []) ∧ ∀ c, claimOf canId dlc data = some c →
    VerifySound cfg.aesCmac cfg.key w.disk.store env.rx (c.1.flow.did c.2) data

/-- **`_handle_can`.** A frame that carries no authentic message changes
nothing; one that does moves the floor and is processed. -/
theorem wp_handleCan {canId dlc : ℕ} {data : Bytes}
    (hnone : messageOf cfg w env canId dlc data = none → Q () w)
    (hmsg : ∀ m, messageOf cfg w env canId dlc data = some m →
      wp (process cfg env m.name.flow m.slot m.fv m.what) Q E (w.accept m))
    (hE : ∀ e, (FrameSound cfg w env canId dlc data → e = .killed) → E e w)
    (hE' : ∀ m, messageOf cfg w env canId dlc data = some m → E .killed (w.accept m)) :
    wp (handleCan cfg env canId dlc data) Q E w := by
  have hunclaimed : claimOf canId dlc data = none → Q () w := fun hclaim =>
    hnone (by rw [messageOf, hclaim, Option.bind_none])
  simp only [messageOf] at hmsg hE'
  simp only [handleCan, wp_ite, wp_pure]
  split
  · rename_i hdlc
    exact hunclaimed (by simp [claimOf, hdlc])
  rename_i hdlc
  cases hflow : flows canId with
  | none => exact hunclaimed (by simp [claimOf, hflow])
  | some flow =>
    obtain ⟨name, rfl⟩ := exists_requester hflow
    cases data with
    | nil => exact hE _ fun hsound => absurd rfl (hsound.1 (not_lt.1 hdlc))
    | cons magic rest =>
      cases hann : announced name.flow magic with
      | none =>
        have hclaim : claimOf canId dlc (magic :: rest) = none := by
          simp [claimOf, hflow, hann]
        simpa only [hann, wp_pure] using hunclaimed hclaim
      | some a =>
        obtain ⟨did, what⟩ := a
        obtain rfl := announced_did hann
        have hclaim : claimOf canId dlc (magic :: rest) = some (name, what) := by
          simp [claimOf, hdlc, hflow, hann]
        simp only [hclaim, Option.bind_some] at hmsg hE'
        simp only [hann, wp_bind, wp_onStore]
        refine wp_secocVerify ?_ ?_ ?_ ?_
        · intro fv hacc _
          exact hmsg ⟨name, what, _, fv⟩ (by rw [hacc]; rfl)
        · exact fun hrejected _ => hnone (by simp only [messageOf, hclaim, Option.bind_some,
            hrejected, Option.map_none])
        · exact fun e he => hE e fun hsound => he (hsound.2 (name, what) hclaim)
        · intro fv hacc _
          exact hE' ⟨name, what, _, fv⟩ (by rw [hacc]; rfl)

end Coordinator

end VehicleStack
