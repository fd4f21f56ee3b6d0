import VehicleStack.Common.History
import VehicleStack.Coordinator.Sent

/-!
# The update coordinator — what a verdict answers

A verdict is meant to answer the request its requester is waiting on. The
pending table outlives the event that filled it: a REQUEST that is answered
at once, because the driver cannot be asked, and a RUNNING both leave an
older entry where it is, and the poll answers it later
(`stale_entry_answered`). In every run in which they find no such entry,
each frame handed to the socket answers the last message of its requester,
a REQUEST that nothing has answered, and carries its slot
(`verdicts_answer_live`).
-/

namespace VehicleStack

namespace Coordinator

open Callback SecOC History

variable {cfg : Config} {env : Env} {w : World} {e : Event} {name : Requester} {slot : UInt8}
  {pending : Dict Requester Pending} {tr sent : List Obs}

/-- The entry is a message from the requester, or a verdict to it. -/
def Obs.About (name : Requester) : Obs → Prop
  | .request n _ _ => n = name
  | .running n _ _ => n = name
  | .verdict n _ _ _ => n = name
  | _ => False

/-- The last there was between the two is the requester's REQUEST for
`slot`: it is unanswered, and nothing has superseded it. -/
def Live (name : Requester) (slot : UInt8) (tr : List Obs) : Prop :=
  ∃ fv, Last (Obs.About name) (.request name slot fv) tr

/-- Every verdict entered answered a live request, with its slot. -/
def VerdictsLive (tr : List Obs) : Prop :=
  AtEach (fun before o => ∀ name approved slot fv, o = .verdict name approved slot fv →
    Live name slot before) tr

/-- **Every frame on the bus answered a live request, with its slot.** The
bus carries the verdicts entered, and a frame `f` that was handed to the
socket after `sent` is the one that `secoc_build` makes for the requester
whose REQUEST for that slot was live in all that had been done `before`. -/
structure AnswersLive (cfg : Config) (w : World) : Prop where
  carried : Carried cfg w
  live : ∀ sent f rest, w.bus = sent ++ f :: rest → ∃ before name approved slot fv after,
    w.trace = before ++ .verdict name approved slot fv :: after ∧ framesOf cfg before = sent ∧
    f = verdictFrame cfg name approved slot fv ∧ Live name slot before

/-- No message leaves an entry behind it: one from a pending requester is a
REQUEST, and is put to the driver. -/
def RetiresPending (cfg : Config) (w : World) : Event → Prop
  | .frame f env => ∀ m, messageOn cfg w f env = some m → m.name ∈ w.mem.pending →
      m.what = .request ∧ asksDriver cfg env = true
  | _ => True

instance : Decidable (RetiresPending cfg w e) :=
  match e with
  | .frame f env => inferInstanceAs (Decidable (∀ m, messageOn cfg w f env = some m →
      m.name ∈ w.mem.pending → m.what = .request ∧ asksDriver cfg env = true))
  | .drained _ | .poll _ _ | .timeout _ _ | .selfStart _ | .selfDone _ | .expireNotice _ _
  | .serviceDone _ _ => isTrue trivial

/-! ## Live requests -/

theorem Live.snoc {o : Obs} (h : Live name slot tr) (ho : ¬ o.About name) :
    Live name slot (tr ++ [o]) := by
  obtain ⟨fv, hlast⟩ := h
  exact ⟨fv, hlast.snoc ho⟩

theorem live_request {fv : ℤ} : Live name slot (tr ++ [.request name slot fv]) :=
  ⟨fv, last_snoc_self⟩

/-- An entry that is no verdict answers nothing. -/
theorem VerdictsLive.snoc {o : Obs} (h : VerdictsLive tr)
    (ho : ∀ name approved slot fv, o ≠ .verdict name approved slot fv) :
    VerdictsLive (tr ++ [o]) :=
  AtEach.snoc h fun name approved slot fv heq => absurd heq (ho name approved slot fv)

/-- A verdict on a live request, built and sent. -/
theorem VerdictsLive.answer {approved : Bool} {did : ℕ} {payload : Bytes} {fv : ℤ}
    (h : VerdictsLive tr) (hlive : Live name slot tr) :
    VerdictsLive (tr ++ [.built did payload fv] ++ [.verdict name approved slot fv]) := by
  refine AtEach.snoc (h.snoc fun _ _ _ _ h => by cases h) fun n a s f heq => ?_
  cases heq
  exact hlive.snoc id

/-- And as much of it as there is when it stops. -/
theorem VerdictsLive.part {approved : Bool} (h : VerdictsLive tr) (hlive : Live name slot tr)
    (hsent : SentPart name approved slot sent) : VerdictsLive (tr ++ sent) := by
  cases hsent with
  | nothing => rwa [List.append_nil]
  | built => exact h.snoc fun _ _ _ _ h => by cases h
  | @sent did payload fv =>
    have hanswer : VerdictsLive (tr ++ [.built did payload fv] ++
        [.verdict name approved slot fv]) := h.answer hlive
    rwa [List.append_assoc] at hanswer

/-! ## The pending table -/

/-- Every pending entry is a live request. -/
def Answerable (pending : Dict Requester Pending) (tr : List Obs) : Prop :=
  ∀ n p, pending.get? n = some p → Live n p.slot tr

/-- An entry of the trace about no pending requester. -/
theorem Answerable.snoc {o : Obs} (h : Answerable pending tr)
    (ho : ∀ n ∈ pending, ¬ o.About n) : Answerable pending (tr ++ [o]) :=
  fun n p hp => (h n p hp).snoc (ho n (Dict.mem_of_get? hp))

/-- Unbinding a requester. -/
theorem Answerable.erase (h : Answerable pending tr) : Answerable (pending.erase name) tr := by
  intro n p hp
  rw [Dict.get?_erase] at hp
  split at hp
  · cases hp
  · exact h n p hp

/-- A verdict to a requester that is not pending. -/
theorem Answerable.answer {approved : Bool} {did : ℕ} {payload : Bytes} {fv : ℤ}
    (h : Answerable pending tr) (hname : ¬ name ∈ pending) :
    Answerable pending (tr ++ [.built did payload fv] ++ [.verdict name approved slot fv]) := by
  refine (h.snoc fun _ _ => id).snoc fun n hn habout => hname ?_
  cases habout
  exact hn

/-- **The law of the pending table.** -/
structure Answers (b : Book) : Prop where
  past : VerdictsLive b.trace
  pending : Answerable b.pending b.trace

/-- Taking in a message of a requester that is not pending. -/
theorem Answers.accept {b : Book} {m : Message} (h : Answers b) (hname : ¬ m.name ∈ b.pending) :
    Answers (b.accept m) := by
  obtain ⟨n, what, slot, fv⟩ := m
  cases what with
  | request =>
    refine ⟨h.past.snoc (fun _ _ _ _ h => by cases h), h.pending.snoc fun n' hn' habout => hname ?_⟩
    cases habout
    exact hn'
  | running =>
    refine ⟨h.past.snoc (fun _ _ _ _ h => by cases h), h.pending.snoc fun n' hn' habout => hname ?_⟩
    cases habout
    exact hn'

/-- Taking in a REQUEST and retiring the entry it replaces. -/
theorem Answers.replace {b : Book} {fv : ℤ} (h : Answers b) :
    Answers ((b.accept ⟨name, .request, slot, fv⟩).retire name) := by
  have hothers : Answerable (b.pending.erase name) b.trace := h.pending.erase
  refine ⟨h.past.snoc (fun _ _ _ _ h => by cases h), hothers.snoc fun n hn habout => ?_⟩
  cases habout
  exact (Dict.mem_erase.1 hn).1 rfl

theorem Answers.retire {b : Book} (h : Answers b) : Answers (b.retire name) :=
  ⟨h.past, h.pending.erase⟩

/-- Answering a live request of a requester that is not pending. -/
theorem Answers.answer {b : Book} {approved : Bool} {did : ℕ} {payload : Bytes} {fv : ℤ}
    (h : Answers b) (hlive : Live name slot b.trace) (hname : ¬ name ∈ b.pending) :
    Answers (b.answer name approved slot did payload fv) :=
  ⟨h.past.answer hlive, h.pending.answer hname⟩

/-- Holding and releasing say nothing about requests. -/
theorem Answers.of_active {b : Book} {active : Dict Ecu ℚ} (h : Answers b) :
    Answers { b with active := active } := ⟨h.past, h.pending⟩

theorem not_mem_erase : ¬ name ∈ pending.erase name := fun h => (Dict.mem_erase.1 h).1 rfl

/-! ## Moves and runs -/

/-- **A move keeps the law**, where a message leaves no entry behind it. -/
theorem Move.answers {b b' : Book} (h : Answers b) (hret : RetiresPending cfg w e)
    (hmove : Move cfg w e b b') : Answers b' := by
  cases hmove with
  | @opened f env name slot fv payload fv' hm hasks =>
    have hname : ¬ name ∈ w.mem.pending := fun hmem => by
      have := (hret _ hm hmem).2
      rw [hasks] at this
      cases this
    exact ((h.accept hname).answer live_request hname).of_active
  | unasked hm hasks => exact (h.replace.answer live_request not_mem_erase).of_active
  | @asked f env name slot fv oid t0 deadline hm hasks =>
    have hrest : Answers ((w.book.accept ⟨name, .request, slot, fv⟩).retire name) := h.replace
    refine ⟨hrest.past, fun n p hp => ?_⟩
    rw [Book.ask, Dict.get?_set] at hp
    split at hp
    · rename_i hn
      obtain rfl := hn
      obtain rfl := Option.some.inj hp
      exact live_request
    · exact hrest.pending n p hp
  | @completed f env name slot fv hm =>
    have hname : ¬ name ∈ w.mem.pending := fun hmem => by cases (hret _ hm hmem).1
    exact (h.accept hname).of_active
  | approved hw hb hactive hdec =>
    exact (h.retire.answer (h.pending _ _ hb) not_mem_erase).of_active
  | denied hw hb hactive hdec =>
    exact h.retire.answer (h.pending _ _ hb) not_mem_erase
  | expired => exact ⟨h.past.snoc (fun _ _ _ _ h => by cases h), h.pending.snoc fun _ _ => id⟩
  | selfStarted => exact ⟨h.past, h.pending⟩
  | selfDone => exact ⟨h.past, h.pending⟩

/-- And where it stops, the verdicts there are were right. -/
theorem Cut.verdictsLive {b : Book} {floors : ℕ → CounterFile} (h : Answers b)
    (hcut : Cut cfg w e b floors tr) : VerdictsLive tr := by
  cases hcut with
  | between => exact h.past
  | stored hm => exact h.past
  | running hm => exact h.past.snoc fun _ _ _ _ h => by cases h
  | answering hm hsent =>
    exact VerdictsLive.part (h.past.snoc fun _ _ _ _ h => by cases h) live_request hsent
  | resolving hw hb hsent => exact h.past.part (h.pending _ _ hb) hsent

/-- **The frames answer live requests just where the verdicts entered
do.** -/
theorem answersLive_iff : AnswersLive cfg w ↔ Carried cfg w ∧ VerdictsLive w.trace := by
  constructor
  · refine fun h => ⟨h.carried, ?_⟩
    rintro before o after htr name approved slot fv rfl
    have hbus : w.bus = framesOf cfg before ++
        verdictFrame cfg name approved slot fv :: framesOf cfg after := by
      rw [h.carried, htr, framesOf_append]
      rfl
    obtain ⟨before', name', approved', slot', fv', after', htr', hsent, -, hlive⟩ :=
      h.live _ _ _ hbus
    obtain ⟨rfl, heq⟩ := entry_unique (o := .verdict name approved slot fv) rfl rfl
      (htr.symm.trans htr') hsent.symm
    cases heq
    exact hlive
  · rintro ⟨hcarried, hlive⟩
    refine ⟨hcarried, fun sent f rest hbus => ?_⟩
    obtain ⟨before, name, approved, slot, fv, after, htr, hsent, hf⟩ := hcarried.split hbus
    exact ⟨before, name, approved, slot, fv, after, htr, hsent, hf,
      hlive before _ after htr name approved slot fv rfl⟩

/-- **Every frame answers the live request**, in every run of a process in
which no message leaves a pending entry behind it. -/
theorem verdicts_answer_live (cfg : Config) (d : Disk) (env : Env) (es : List Event)
    (h : Run.Along (step cfg) (RetiresPending cfg) (World.launch d env) es) :
    Run.Throughout (step cfg) (AnswersLive cfg) (World.launch d env) es := by
  refine Run.throughout_of_along (I := fun w => OnBus cfg w ∧
    Kept Answers (fun _ => VerdictsLive) w) ?_ ?_ ⟨onBus_launch, ?_⟩ h
  · rintro w e ⟨hbus, hw⟩ hret
    exact ⟨onBus_step hbus, kept_step hw (fun _ hb => hb.past)
      (fun _ _ hb _ hmove => hmove.answers hb hret) fun _ _ _ hb hcut => hcut.verdictsLive hb⟩
  · exact fun w ⟨hbus, hw⟩ => answersLive_iff.2 ⟨hbus.carried, hw.1⟩
  · exact kept_launch atEach_nil fun _ => ⟨atEach_nil, fun _ _ hp => by cases hp⟩

/-- The driver approves, and the cluster reports that it runs. -/
theorem verdicts_answer_live_once :
    Run.Throughout (step sampleConfig) (AnswersLive sampleConfig) (World.launch .fresh {})
      [.frame sampleRequest sampleEnv, .poll 1 fun _ => sampleApproval,
        .frame sampleRunning sampleEnv] :=
  verdicts_answer_live sampleConfig .fresh {} _ (by decide +kernel)

/-- A REQUEST is put to the driver, the head unit goes away, and the cluster
asks again; then the driver's answer to the first is found. -/
def staleEntry : List Event :=
  [.frame sampleRequest sampleEnv, .frame sampleRerequest {}, .poll 1 fun _ => sampleApproval]

/-- **The first REQUEST is answered after the second.** -/
theorem stale_entry_answered :
    ¬ AnswersLive sampleConfig
      (Run.run (step sampleConfig) (World.launch .fresh {}) staleEntry) := by
  intro h
  have hlive : VerdictsLive (Run.run (step sampleConfig) (World.launch .fresh {})
      staleEntry).trace := (answersLive_iff.1 h).2
  have htr : (Run.run (step sampleConfig) (World.launch .fresh {}) staleEntry).trace =
      [.request .cluster 1 1, .request .cluster 2 2, .built 3 [1, 2] 1] ++
        [.verdict .cluster true 2 1] ++ [.built 3 [1, 1] 2] ++ [.verdict .cluster true 1 2] := by
    decide +kernel
  rw [htr] at hlive
  obtain ⟨fv, hlast⟩ := (atEach_snoc.1 hlive).2 _ _ _ _ rfl
  rcases last_snoc.1 hlast with heq | ⟨hlast, -⟩
  · cases heq
  rcases last_snoc.1 hlast with heq | ⟨-, habout⟩
  · cases heq
  · exact habout rfl

end Coordinator

end VehicleStack
