import VehicleStack.Coordinator.Steps
import Mathlib.Logic.Relation

/-!
# The update coordinator — the approval book

What the coordinator's approvals come to, with timers, the spool, sockets
and the lock left out: who is pending, who holds the vehicle, which values
have been accepted, whether a self-update is on record, and what has been
done. `Move` lists every way an event can
change the book, `Cut` every way an event can stop in the middle of one.
`step_moves` says that a step of the coordinator is a sequence of moves, or
a sequence of moves and a cut; the laws of the approvals are proved of the
moves and hold of every run by it.
-/

namespace VehicleStack

namespace Coordinator

open Callback SecOC

/-- The book. -/
structure Book where
  pending : Dict Requester Pending
  active : Dict Ecu ℚ
  floors : ℕ → CounterFile
  flag : Bool
  trace : List Obs

/-- What a world says about approvals. -/
def World.book (w : World) : Book :=
  ⟨w.mem.pending, w.mem.activeEcus, w.disk.store.file .rx, w.disk.selfUpdateFlag, w.trace⟩

namespace Book

variable (b : Book) (name : Requester)

/-- An authentic message is taken in. -/
def accept (m : Message) : Book :=
  { b with floors := fun did => if did = m.did then .decimal m.fv else b.floors did
           trace := b.trace ++ [m.obs] }

/-- A verdict is built and sent. -/
def answer (approved : Bool) (slot : UInt8) (did : ℕ) (payload : Bytes) (fv : ℤ) : Book :=
  { b with trace := b.trace ++ [.built did payload fv] ++ [.verdict name approved slot fv] }

def hold (ecu : Ecu) (t : ℚ) : Book := { b with active := b.active.set ecu t }

def release (ecu : Ecu) : Book := { b with active := b.active.erase ecu }

def expire (ecu : Ecu) : Book :=
  { b with active := b.active.erase ecu, trace := b.trace ++ [.expired ecu] }

def mark (flag : Bool) : Book := { b with flag := flag }

def retire : Book := { b with pending := b.pending.erase name }

def ask (entry : Pending) : Book := { b with pending := b.pending.set name entry }

end Book

/-- The authentic message a frame carries, as the socket hands it over. -/
def messageOn (cfg : Config) (w : World) (f : CanFrame) (env : Env) : Option Message :=
  messageOf cfg w env (canRecv f).1 (canRecv f).2.1 (canRecv f).2.2

/-- **One move of the book**, under an event that finds the world `w`. -/
inductive Move (cfg : Config) (w : World) : Event → Book → Book → Prop
  /-- A REQUEST is answered at once. -/
  | opened {f env name slot fv payload fv'} :
      messageOn cfg w f env = some ⟨name, .request, slot, fv⟩ → asksDriver cfg env = false →
      Move cfg w (.frame f env) w.book
        (((w.book.accept ⟨name, .request, slot, fv⟩).answer name true slot name.flow.didAppr payload
          fv').hold name.ecu (env.time .active))
  /-- A REQUEST cannot be put to the driver and is answered at once. -/
  | unasked {f env name slot fv payload fv'} :
      messageOn cfg w f env = some ⟨name, .request, slot, fv⟩ → asksDriver cfg env = true →
      Move cfg w (.frame f env) w.book
        ((((w.book.accept ⟨name, .request, slot, fv⟩).retire name).answer name true slot
          name.flow.didAppr payload fv').hold name.ecu (env.time .active))
  /-- A REQUEST is put to the driver. -/
  | asked {f env name slot fv oid t0 deadline} :
      messageOn cfg w f env = some ⟨name, .request, slot, fv⟩ → asksDriver cfg env = true →
      Move cfg w (.frame f env) w.book
        (((w.book.accept ⟨name, .request, slot, fv⟩).retire name).ask name
          ⟨oid, slot, name.flow.didAppr, name.flow.apprCanId, t0, deadline⟩)
  /-- A RUNNING releases its sender. -/
  | completed {f env name slot fv} :
      messageOn cfg w f env = some ⟨name, .running, slot, fv⟩ →
      Move cfg w (.frame f env) w.book
        ((w.book.accept ⟨name, .running, slot, fv⟩).release name.ecu)
  /-- A pending entry is approved. -/
  | approved {now envs name p b payload fv} :
      w.mem.pending.get? name = some p → b.pending.get? name = some p →
      (name.ecu ∈ b.active ↔ name.ecu ∈ w.mem.activeEcus) →
      decision cfg now (envs name) p = some true →
      Move cfg w (.poll now envs) b
        (((b.retire name).answer name true p.slot p.didAppr payload fv).hold name.ecu
          ((envs name).time .active))
  /-- A pending entry is denied. -/
  | denied {now envs name p b payload fv} :
      w.mem.pending.get? name = some p → b.pending.get? name = some p →
      (name.ecu ∈ b.active ↔ name.ecu ∈ w.mem.activeEcus) →
      decision cfg now (envs name) p = some false →
      Move cfg w (.poll now envs) b
        ((b.retire name).answer name false p.slot p.didAppr payload fv)
  /-- A holder is released by the timeout. -/
  | expired {now env ecu b} : Move cfg w (.timeout now env) b (b.expire ecu)
  | selfStarted {env b} :
      Move cfg w (.selfStart env) b ((b.hold .jetson (env.time .active)).mark true)
  | selfDone {env b} : Move cfg w (.selfDone env) b ((b.release .jetson).mark false)

/-- The moves of one event. -/
abbrev Moves (cfg : Config) (w : World) (e : Event) : Book → Book → Prop :=
  Relation.ReflTransGen (Move cfg w e)

/-- **Where an event stops in the middle of a move**: what the floors and
the trace then say. -/
inductive Cut (cfg : Config) (w : World) : Event → Book → (ℕ → CounterFile) → List Obs → Prop
  | between {e b} : Cut cfg w e b b.floors b.trace
  | stored {f env m} :
      messageOn cfg w f env = some m →
      Cut cfg w (.frame f env) w.book (w.book.accept m).floors w.trace
  | running {f env name slot fv} :
      messageOn cfg w f env = some ⟨name, .running, slot, fv⟩ →
      Cut cfg w (.frame f env) w.book (w.book.accept ⟨name, .running, slot, fv⟩).floors
        (w.trace ++ [.running name slot fv])
  | answering {f env name slot fv part} :
      messageOn cfg w f env = some ⟨name, .request, slot, fv⟩ → SentPart name true slot part →
      Cut cfg w (.frame f env) w.book (w.book.accept ⟨name, .request, slot, fv⟩).floors
        (w.trace ++ [.request name slot fv] ++ part)
  | resolving {now envs name p approved b part} :
      w.mem.pending.get? name = some p → b.pending.get? name = some p →
      SentPart name approved p.slot part →
      Cut cfg w (.poll now envs) b b.floors (b.trace ++ part)

/-! ## A step is a sequence of moves -/

variable {cfg : Config} {w : World} {e : Event}

/-- What an event has done: its moves, or its moves up to a cut. -/
def Booked (cfg : Config) (w : World) (e : Event) (w' : World) : Prop :=
  (w'.status = .up ∧ Moves cfg w e w.book w'.book) ∨
    (w'.status ≠ .up ∧ ∃ b, Moves cfg w e w.book b ∧
      Cut cfg w e b (w'.disk.store.file .rx) w'.trace)

/-- The world's book is `b`. -/
structure Reads (w : World) (b : Book) : Prop where
  pending : w.mem.pending = b.pending
  active : w.mem.activeEcus = b.active
  floors : w.disk.store.file .rx = b.floors
  flag : w.disk.selfUpdateFlag = b.flag
  trace : w.trace = b.trace

theorem Reads.eq {w : World} {b : Book} (h : Reads w b) : w.book = b := by
  obtain ⟨h1, h2, h3, h4, h5⟩ := h
  simp only [World.book, h1, h2, h3, h4, h5]

theorem Reads.moves {w' : World} {b : Book} (h : Reads w' b) (hmoves : Moves cfg w e w.book b) :
    Moves cfg w e w.book w'.book := h.eq ▸ hmoves

/-- A callback that has returned after some moves. -/
theorem Booked.of_moves {w' : World} {b : Book} (hup : w.status = .up)
    (hstatus : w'.status = w.status) (h : Moves cfg w e w.book b) (hb : Reads w' b) :
    Booked cfg w e w' :=
  Or.inl ⟨hstatus.trans hup, hb.moves h⟩

/-- One that has stopped after some moves, or inside one. -/
theorem Booked.of_cut {w' : World} {b : Book} {r : Raised} (h : Moves cfg w e w.book b)
    (hcut : Cut cfg w e b (w'.disk.store.file .rx) w'.trace) :
    Booked cfg w e { w' with status := statusAfter r } :=
  Or.inr ⟨statusAfter_ne_up r, b, h, hcut⟩

/-- Looking at the lock, at the end of a callback, is no move. -/
theorem booked_updateLockState {w' : World} {b : Book} {env : Env} (hup : w.status = .up)
    (hstatus : w'.status = w.status) (h : Moves cfg w e w.book b) (hb : Reads w' b) :
    wp (updateLockState env) (fun _ => Booked cfg w e)
      (fun r w'' => Booked cfg w e { w'' with status := statusAfter r }) w' :=
  wp_updateLockState
    (fun _ _ _ => .of_moves hup hstatus h ⟨hb.pending, hb.active, hb.floors, hb.flag, hb.trace⟩)
    fun _ _ _ => .of_cut h (by simpa only [hb.floors, hb.trace] using .between)

/-- The floors after a store of an accepted value. -/
theorem floors_accept {m : Message} : (w.accept m).disk.store.file .rx =
    (w.book.accept m).floors := by
  funext did
  simp [World.accept, World.book, Book.accept, FvStore.put]

/-- **A frame is at most one move.** -/
theorem booked_frame {f : CanFrame} {env : Env} (hup : w.status = .up) :
    wp (callback cfg (.frame f env)) (fun _ => Booked cfg w (.frame f env))
      (fun r w' => Booked cfg w (.frame f env) { w' with status := statusAfter r }) w := by
  refine wp_handleCan (fun _ => .of_moves hup rfl .refl ⟨rfl, rfl, rfl, rfl, rfl⟩) (fun m hm => ?_)
    (fun r _ => .of_cut (b := w.book) .refl .between) fun m hm =>
    .of_cut (b := w.book) .refl (floors_accept (w := w) (m := m) ▸ .stored hm)
  have hfloors := floors_accept (w := w) (m := m)
  obtain ⟨name, what, slot, fv⟩ := m
  cases what with
  | request =>
    simp only [process, wp_bind, wp_observe, Requester.flow_name]
    refine wp_beginApproval (fun hasks store bus payload fv' hs => ?_)
      (fun hcannot store bus payload fv' offers seq hs => ?_)
      (fun hprompts oid t0 offers seq => ?_) fun r w' _ hsent => ?_
    · exact booked_updateLockState hup rfl (.single (.opened hm hasks))
        ⟨rfl, rfl, hs.floors.trans hfloors, rfl, rfl⟩
    · exact booked_updateLockState hup rfl (.single (.unasked hm hcannot.1))
        ⟨rfl, rfl, hs.floors.trans hfloors, rfl, rfl⟩
    · exact booked_updateLockState hup rfl (.single (.asked hm hprompts.1))
        ⟨rfl, rfl, hfloors, rfl, rfl⟩
    · obtain ⟨-, -, hrx, part, hpart, htr⟩ := hsent
      refine .of_cut (b := w.book) .refl ?_
      rw [htr, hrx.trans hfloors]
      exact .answering hm hpart
  | running =>
    simp only [process, wp_bind, wp_observe, completeUpdate, wp_setMem, Requester.flow_name]
    refine wp_writeNotice (fun notices timers => ?_) fun notices =>
      .of_cut (b := w.book) .refl (hfloors ▸ .running hm)
    exact booked_updateLockState hup rfl (.single (.completed hm)) ⟨rfl, rfl, hfloors, rfl, rfl⟩

/-- **An entry of a poll is at most one move.** -/
theorem booked_pollEntry {now : ℚ} {envs : Requester → Env} {name : Requester} {p : Pending}
    {w' : World} (hp : w.mem.pending.get? name = some p)
    (hsame : SameFor name w w') (hstatus : w'.status = w.status)
    (hmoves : Moves cfg w (.poll now envs) w.book w'.book) :
    wp (pollEntry cfg now (envs name) name)
      (fun _ w'' => w''.status = w.status ∧ Moves cfg w (.poll now envs) w.book w''.book)
      (fun r w'' => Booked cfg w (.poll now envs) { w'' with status := statusAfter r }) w' := by
  have hp' : w'.mem.pending.get? name = some p := hsame.pending.trans hp
  refine wp_pollEntry hp' (fun _ => ⟨hstatus, hmoves⟩) (fun approved hdec => ?_)
    fun r _ => .of_cut hmoves .between
  refine wp_resolve hp' (fun store bus payload fv offers hs => ?_) fun r w'' _ hsent => ?_
  rotate_left
  · obtain ⟨-, -, hrx, part, hpart, htr⟩ := hsent
    refine .of_cut hmoves ?_
    rw [htr, hrx]
    exact .resolving hp hp' hpart
  have hend : ∀ (w'' : World) (b : Book), w''.status = w.status →
      Moves cfg w (.poll now envs) w.book b → Reads w'' b →
      wp (updateLockState (envs name))
        (fun _ w₃ => w₃.status = w.status ∧ Moves cfg w (.poll now envs) w.book w₃.book)
        (fun r w₃ => Booked cfg w (.poll now envs) { w₃ with status := statusAfter r }) w'' := by
    intro w'' b hstatus'' hmove hb
    refine wp_updateLockState (fun _ _ _ => ⟨hstatus'', Reads.moves ?_ hmove⟩) fun _ _ _ =>
      .of_cut hmove (by simpa only [hb.floors, hb.trace] using .between)
    exact ⟨hb.pending, hb.active, hb.floors, hb.flag, hb.trace⟩
  cases approved with
  | true =>
    exact hend _ _ hstatus (hmoves.tail (.approved hp hp' hsame.active hdec))
      ⟨rfl, rfl, hs.floors, rfl, rfl⟩
  | false =>
    exact hend _ _ hstatus (hmoves.tail (.denied hp hp' hsame.active hdec))
      ⟨rfl, rfl, hs.floors, rfl, rfl⟩

/-- What every callback does to the book. -/
theorem booked_callback (e : Event) (hup : w.status = .up) (hwired : Wired w.mem.pending) :
    wp (callback cfg e) (fun _ => Booked cfg w e)
      (fun r w' => Booked cfg w e { w' with status := statusAfter r }) w := by
  cases e with
  | frame f env => exact booked_frame hup
  | drained env => exact booked_updateLockState hup rfl .refl ⟨rfl, rfl, rfl, rfl, rfl⟩
  | poll now envs =>
    refine wp_pollApprovals (I := fun w' => w'.status = w.status ∧
      Moves cfg w (.poll now envs) w.book w'.book) hwired ⟨rfl, .refl⟩
      (fun name p w' hp hsame hI => booked_pollEntry hp hsame hI.1 hI.2) fun w' hI => ?_
    exact ⟨.of_moves hup hI.1 hI.2 ⟨rfl, rfl, rfl, rfl, rfl⟩,
      fun _ => .of_moves hup hI.1 hI.2 ⟨rfl, rfl, rfl, rfl, rfl⟩⟩
  | timeout now env =>
    refine wp_timeoutCheck (I := fun w' => w'.status = w.status ∧
      Moves cfg w (.timeout now env) w.book w'.book) ⟨rfl, .refl⟩ (fun ecu w' _ hI => ?_)
      (.of_moves hup rfl .refl ⟨rfl, rfl, rfl, rfl, rfl⟩) fun w' hI =>
      booked_updateLockState hup hI.1 hI.2 ⟨rfl, rfl, rfl, rfl, rfl⟩
    exact ⟨hI.1, hI.2.tail .expired⟩
  | selfStart env =>
    have hmove : Moves cfg w (.selfStart env) w.book _ := .single .selfStarted
    exact wp_onSelfStart (wp_updateLockState (fun _ _ _ =>
      ⟨.of_moves hup rfl hmove ⟨rfl, rfl, rfl, rfl, rfl⟩, fun _ _ _ => .of_cut hmove .between⟩)
      fun _ _ _ => .of_cut hmove .between)
  | selfDone env =>
    have hmove : Moves cfg w (.selfDone env) w.book _ := .single .selfDone
    exact wp_onSelfDone (booked_updateLockState hup rfl hmove ⟨rfl, rfl, rfl, rfl, rfl⟩)
      fun _ _ _ => .of_cut hmove .between
  | expireNotice nid env =>
    exact wp_expireNotice (fun _ _ => .of_moves hup rfl .refl ⟨rfl, rfl, rfl, rfl, rfl⟩) fun _ _ =>
      .of_cut (b := w.book) .refl .between
  | serviceDone label success =>
    exact wp_onServiceDone fun _ => .of_moves hup rfl .refl ⟨rfl, rfl, rfl, rfl, rfl⟩

/-- **A step of a running coordinator is a sequence of moves**, or one that
stops at a cut. -/
theorem step_moves (hup : w.status = .up) (hwired : Wired w.mem.pending) :
    Booked cfg w e (step cfg w e) :=
  step_of_wp (.of_moves hup rfl .refl ⟨rfl, rfl, rfl, rfl, rfl⟩) fun _ _ =>
    booked_callback e hup hwired

/-! ## Laws of the book -/

theorem wired_empty : Wired .empty := fun _ _ hp => by cases hp

theorem Wired.erase {pending : Dict Requester Pending} {name : Requester} (h : Wired pending) :
    Wired (pending.erase name) := by
  intro n p hp
  rw [Dict.get?_erase] at hp
  split at hp
  · cases hp
  · exact h n p hp

theorem Wired.set {pending : Dict Requester Pending} {name : Requester} {entry : Pending}
    (h : Wired pending)
    (hentry : entry.didAppr = name.flow.didAppr ∧ entry.apprCanId = name.flow.apprCanId) :
    Wired (pending.set name entry) := by
  intro n p hp
  rw [Dict.get?_set] at hp
  split at hp
  · rename_i hn
    obtain rfl := hn
    obtain rfl := Option.some.inj hp
    exact hentry
  · exact h n p hp

/-- Every move leaves every pending entry on its requester's flow. -/
theorem Move.wired {b b' : Book} (h : Wired b.pending) (hmove : Move cfg w e b b') :
    Wired b'.pending := by
  cases hmove with
  | opened hm hasks => exact h
  | unasked hm hasks => exact h.erase
  | asked hm hasks => exact h.erase.set ⟨rfl, rfl⟩
  | completed hm => exact h
  | approved hw hb hactive hdec => exact h.erase
  | denied hw hb hactive hdec => exact h.erase
  | expired => exact h
  | selfStarted => exact h
  | selfDone => exact h

/-- A law of the book: `J` of the floors and the trace always, `I` of the
whole book while the process runs. -/
def Kept (I : Book → Prop) (J : (ℕ → CounterFile) → List Obs → Prop) (w : World) : Prop :=
  J (w.disk.store.file .rx) w.trace ∧ (w.status = .up → Wired w.mem.pending ∧ I w.book)

variable {I : Book → Prop} {J : (ℕ → CounterFile) → List Obs → Prop}

/-- What the moves keep, a step keeps. -/
theorem kept_step (h : Kept I J w) (hJ : ∀ b, I b → J b.floors b.trace)
    (hmove : ∀ b b', I b → Wired b.pending → Move cfg w e b b' → I b')
    (hcut : ∀ b floors tr, I b → Cut cfg w e b floors tr → J floors tr) :
    Kept I J (step cfg w e) := by
  by_cases hup : w.status = .up
  · obtain ⟨hwired, hI⟩ := h.2 hup
    have hmoves : ∀ b, Moves cfg w e w.book b → Wired b.pending ∧ I b := by
      intro b hb
      -- on the moves the event has made so far
      induction hb with
      | refl => exact ⟨hwired, hI⟩
      | tail _ hlast ih => exact ⟨hlast.wired ih.1, hmove _ _ ih.2 ih.1 hlast⟩
    have hbooked : Booked cfg w e (step cfg w e) := step_moves hup hwired
    rcases hbooked with ⟨-, hb⟩ | ⟨hdown, b, hb, hc⟩
    · exact ⟨hJ _ (hmoves _ hb).2, fun _ => hmoves _ hb⟩
    · exact ⟨hcut b _ _ (hmoves b hb).2 hc, fun h => absurd h hdown⟩
  · rw [step_of_not_up hup]
    exact h

/-- The law that says nothing: the table is wired in every running
process. -/
theorem wired_step (h : w.status = .up → Wired w.mem.pending) :
    (step cfg w e).status = .up → Wired (step cfg w e).mem.pending := by
  have hkept : Kept (fun _ => True) (fun _ _ => True) w := ⟨trivial, fun hup => ⟨h hup, trivial⟩⟩
  have hstep : Kept (fun _ => True) (fun _ _ => True) (step cfg w e) :=
    kept_step hkept (fun _ _ => trivial) (fun _ _ _ _ _ => trivial) fun _ _ _ _ _ => trivial
  exact fun hup => (hstep.2 hup).1

/-- A start has the law if a first state over what it finds has it. -/
theorem kept_boot {env : Env} (hJ : J (w.disk.store.file .rx) w.trace)
    (hI : ∀ flag, I ⟨.empty, .empty, w.disk.store.file .rx, flag, w.trace⟩) :
    Kept I J (w.boot env) :=
  boot_of_all fun flag _ _ _ => ⟨hJ, fun _ => ⟨wired_empty, hI flag⟩⟩

/-- And so has the first start of all. -/
theorem kept_launch {d : Disk} {env : Env} (hJ : J (d.store.file .rx) [])
    (hI : ∀ flag, I ⟨.empty, .empty, d.store.file .rx, flag, []⟩) : Kept I J (World.launch d env) :=
  kept_boot hJ hI

/-! ## Polls and their timer -/

variable {w' : World} {env : Env} {n : Requester}

/-- Who is pending is polled. -/
def Polled (w : World) : Prop := ∀ n ∈ w.mem.pending, w.mem.pollTimer = true

theorem polled_updateLockState (h : Polled w) :
    wp (updateLockState env) (fun _ => Polled) (fun _ _ => True) w :=
  wp_updateLockState (fun _ _ _ => h) fun _ _ _ => trivial

theorem Polled.erase (h : Polled w) (hpending : w'.mem.pending = w.mem.pending.erase n)
    (htimer : w'.mem.pollTimer = w.mem.pollTimer) : Polled w' := by
  intro n' hn'
  rw [hpending] at hn'
  rw [htimer]
  exact h n' (Dict.mem_erase.1 hn').2

theorem polled_callback (hwired : Wired w.mem.pending) (h : Polled w) :
    wp (callback cfg e) (fun _ => Polled) (fun _ _ => True) w := by
  cases e with
  | frame f env =>
    refine wp_handleCan (fun _ => h) (fun m _ => ?_) (fun _ _ => trivial) fun _ _ => trivial
    obtain ⟨n, what, slot, fv⟩ := m
    cases what with
    | request =>
      simp only [process, wp_bind, wp_observe]
      refine wp_beginApproval (fun _ _ _ _ _ _ => polled_updateLockState h)
        (fun _ _ _ _ _ _ _ _ => polled_updateLockState (h.erase rfl rfl))
        (fun _ _ _ _ _ => polled_updateLockState fun _ _ => rfl) fun _ _ _ _ => trivial
    | running =>
      simp only [process, wp_bind, wp_observe, completeUpdate, wp_setMem]
      exact wp_writeNotice (fun _ _ => polled_updateLockState h) fun _ => trivial
  | drained env => exact polled_updateLockState h
  | poll now envs =>
    refine wp_pollApprovals (I := Polled) hwired h (fun n p w' hp hsame hI => ?_) fun w' hI =>
      ⟨hI, fun hempty n hn => absurd hn (Dict.isEmpty_iff.1 hempty n)⟩
    refine wp_pollEntry (hsame.pending.trans hp) (fun _ => hI) (fun approved _ => ?_) fun _ _ =>
      trivial
    exact wp_resolve (hsame.pending.trans hp)
      (fun _ _ _ _ _ _ => polled_updateLockState (hI.erase rfl rfl)) fun _ _ _ _ => trivial
  | timeout now env =>
    exact wp_timeoutCheck (I := Polled) h (fun _ _ _ hI => hI) h fun _ hI =>
      polled_updateLockState hI
  | selfStart env =>
    exact wp_onSelfStart (wp_updateLockState (fun _ _ _ => ⟨h, fun _ _ _ => trivial⟩)
      fun _ _ _ => trivial)
  | selfDone env => exact wp_onSelfDone (polled_updateLockState h) fun _ _ _ => trivial
  | expireNotice nid env => exact wp_expireNotice (fun _ _ => h) fun _ _ => trivial
  | serviceDone label success => exact wp_onServiceDone fun _ => h

/-- **A running process polls whoever is pending.** -/
theorem polled_step (hwired : w.status = .up → Wired w.mem.pending)
    (h : w.status = .up → Polled w) :
    (step cfg w e).status = .up → Polled (step cfg w e) := by
  intro hret
  by_cases hup : w.status = .up
  · exact step_of_returns (h hup) (fun hup => polled_callback (hwired hup) (h hup)) hret
  · rw [step_of_not_up hup] at hret ⊢
    exact h hret

/-- A first process has nobody pending. -/
theorem wired_launch {d : Disk} : Wired (World.launch d env).mem.pending := by
  rw [launch_mem]
  exact wired_empty

theorem polled_launch {d : Disk} : Polled (World.launch d env) := by
  intro n hn
  rw [launch_mem] at hn
  exact absurd hn Dict.not_mem_empty

/-- A poll without its timer would find nothing to do. -/
theorem step_poll {now : ℚ} {envs : Requester → Env} (hup : w.status = .up) (h : Polled w) :
    step cfg w (.poll now envs) = w.exec (pollApprovals cfg now envs) := by
  cases htimer : w.mem.pollTimer with
  | true => exact if_pos ⟨hup, htimer⟩
  | false =>
    have hnone : ∀ n, ¬ n ∈ w.mem.pending := fun n hn => by
      have := h n hn
      simp [htimer] at this
    have hkeys : w.mem.pending.keys = [] := List.eq_nil_iff_forall_not_mem.2 hnone
    have hidle : pollApprovals cfg now envs w = .ok () w := by
      refine eq_ok_of_wp ?_
      simp only [pollApprovals, wp_bind, wp_get, hkeys]
      simp only [List.forM, wp_pure, wp_bind, wp_get, Dict.isEmpty_iff.2 hnone, stopPollTimer,
        if_true, wp_setMem, ← htimer]
      exact ⟨trivial, trivial⟩
    have hstill : step cfg w (.poll now envs) = w := if_neg fun hrun => by
      have := hrun.2
      simp [enabled, htimer] at this
    rw [hstill, World.exec, hidle]

end Coordinator

end VehicleStack
