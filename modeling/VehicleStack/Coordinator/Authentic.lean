import VehicleStack.Coordinator.Book
import Mathlib.Data.Set.Function

/-!
# The update coordinator — what reaches a handler over a hostile bus

Frames reach the coordinator by way of anyone: dropped, reordered, sent
again, sent under another id, or made up. A key holder builds frames with
`secoc_build`, and so does the coordinator itself. With an ideal MAC, every
message the coordinator acts on was built for its sender and its kind, none
is acted on twice, and the messages of one data identifier are acted on in
the order of their freshness values (`dispatch_authentic`).

A MAC of 32 bits is ideal only on the messages that occur in a run: `T` is
any set that holds them.
-/

namespace VehicleStack

namespace Coordinator

open Callback SecOC

/-- What a frame was built from. -/
structure Built where
  did : ℕ
  payload : Bytes
  fv : ℤ
  deriving DecidableEq, Repr

def Built.mac (cfg : Config) (t : Built) : Bytes :=
  macOf cfg.aesCmac cfg.key t.did t.payload t.fv.toNat

def What.magic : What → UInt8
  | .request => OTA_REQ_MAGIC
  | .running => OTA_RUN_MAGIC

/-- The frame a message comes from: its sender's identifier for its kind,
and its magic and slot. -/
def Message.built (m : Message) : Built := ⟨m.did, [m.what.magic, m.slot], m.fv⟩

/-- The message an observation says has been acted on. -/
def Obs.message? : Obs → Option Message
  | .request name slot fv => some ⟨name, .request, slot, fv⟩
  | .running name slot fv => some ⟨name, .running, slot, fv⟩
  | _ => none

/-- The messages acted on, oldest first. -/
def effects (tr : List Obs) : List Message := tr.filterMap Obs.message?

def Obs.built? : Obs → Option Built
  | .built did payload fv => some ⟨did, payload, fv⟩
  | _ => none

/-! ## The bus -/

/-- The coordinator, the other key holder's counters, and the frames that
one has built. -/
structure Net where
  node : World
  peer : FvStore
  sent : List Built

/-- The frames there are: the key holder's, and the coordinator's own
verdicts. -/
def Net.built (n : Net) : List Built := n.sent ++ n.node.trace.filterMap Obs.built?

/-- A frame is built; or something happens at the coordinator, which may be
the arrival of any frame at all; or the coordinator dies and is started
again. -/
inductive NetEvent
  | build (did : ℕ) (payload : Bytes) (io : Io)
  | node (e : Event)
  | restart (env : Env)

/-- One event of the bus. -/
def netStep (cfg : Config) (n : Net) : NetEvent → Net
  | .build did payload io =>
    match secocBuild cfg.aesCmac cfg.key io did payload n.peer with
    | .ok (_, fv) s => { n with peer := s, sent := n.sent ++ [⟨did, payload, fv⟩] }
    | .error _ s => { n with peer := s }
  | .node e => { n with node := step cfg n.node e }
  | .restart env => { n with node := n.node.boot env }

/-- The MAC a frame carries. -/
def macField (f : CanFrame) : Bytes := ((canRecv f).2.2.drop 2).take 4

/-- What a frame would have to be built from for the coordinator to accept
it. -/
def checked (w : World) (f : CanFrame) (env : Env) : Option Built :=
  let data := (canRecv f).2.2
  (claimOf (canRecv f).1 (canRecv f).2.1 data).map fun c =>
    ⟨c.1.flow.did c.2, data.take 2, candidate (w.disk.store.load env.rx .rx (c.1.flow.did c.2))
      (unpackH ((data.drop 6).take 2))⟩

def FV_BOUND : ℤ := 4294967296 - 65536

/-- What is assumed of a step. What is built is in `T`, under a value
below the bound. When a frame arrives, its floor can be read, what it is
checked against is in `T`, and if it carries that MAC, it carries the MAC
of something built before. -/
def Assumed (cfg : Config) (T : Set Built) (n : Net) (e : NetEvent) : Prop :=
  (∀ t ∈ (netStep cfg n e).built, t ∈ T ∧ t.fv < FV_BOUND) ∧
    match e with
    | .node (.frame f env) => env.rx.load = none ∧ ∀ t, checked n.node f env = some t →
        t ∈ T ∧ (t.mac cfg = macField f → ∃ t' ∈ n.built, t'.mac cfg = macField f)
    | _ => True

instance {cfg : Config} {T : Set Built} {n : Net} {e : NetEvent} [DecidablePred (· ∈ T)] :
    Decidable (Assumed cfg T n e) :=
  match e with
  | .node (.frame f env) => inferInstanceAs (Decidable (_ ∧ env.rx.load = none ∧
      ∀ t, checked n.node f env = some t →
        t ∈ T ∧ (t.mac cfg = macField f → ∃ t' ∈ n.built, t'.mac cfg = macField f)))
  | .node (.drained _) | .node (.poll _ _) | .node (.timeout _ _) | .node (.selfStart _)
  | .node (.selfDone _) | .node (.expireNotice _ _) | .node (.serviceDone _ _) | .build _ _ _
  | .restart _ => inferInstanceAs (Decidable (_ ∧ True))

/-- The number a counter file reads as. -/
def value : CounterFile → ℤ
  | .lost _ => 0
  | .decimal n => n

/-- The counters of a disk hold freshness values below the bound. -/
def Reliable (s : FvStore) : Prop := ∀ did, 0 ≤ value (s.file .rx did) ∧
  value (s.file .rx did) < FV_BOUND

/-- **What dispatch means.** Every message acted on was built, for its
sender and its kind; no two come from one frame; and the messages of one
identifier come in increasing order of freshness. -/
structure Dispatched (n : Net) : Prop where
  authentic : ∀ m ∈ effects n.node.trace, m.built ∈ n.built
  once : ((effects n.node.trace).map Message.built).Nodup
  ordered : ∀ did, (((effects n.node.trace).filter (·.did = did)).map Message.fv).Pairwise (· < ·)

/-! ## The invariant -/

variable {cfg : Config} {T : Set Built} {w : World} {e : Event} {tr : List Obs}
  {floors : ℕ → CounterFile} {sent : List Built}

/-- **The run invariant.** Every message acted on was built, the floor of
its identifier is at or above it, and later messages of an identifier are
above earlier ones. -/
structure Consumed (sent : List Built) (floors : ℕ → CounterFile) (tr : List Obs) : Prop where
  authentic : ∀ m ∈ effects tr, m.built ∈ sent ++ tr.filterMap Obs.built?
  below : ∀ m ∈ effects tr, m.fv ≤ value (floors m.did)
  ordered : (effects tr).Pairwise fun m m' => m.did = m'.did → m.fv < m'.fv
  range : ∀ did, 0 ≤ value (floors did) ∧ value (floors did) < FV_BOUND

@[simp] theorem effects_append {tr' : List Obs} :
    effects (tr ++ tr') = effects tr ++ effects tr' := by
  simp [effects]

@[simp] theorem effects_obs {m : Message} : effects [m.obs] = [m] := by
  obtain ⟨name, what, slot, fv⟩ := m
  cases what <;> rfl

/-- Entries that are no messages change nothing. -/
theorem Consumed.append (h : Consumed sent floors tr) (tr' : List Obs) (hno : effects tr' = []) :
    Consumed sent floors (tr ++ tr') := by
  have heff : effects (tr ++ tr') = effects tr := by rw [effects_append, hno, List.append_nil]
  refine ⟨fun m hm => ?_, ?_, ?_, h.range⟩
  · rw [heff] at hm
    have hbuilt := h.authentic m hm
    simp only [List.filterMap_append, List.mem_append] at hbuilt ⊢
    tauto
  · rw [heff]
    exact h.below
  · rw [heff]
    exact h.ordered

/-- More frames change nothing. -/
theorem Consumed.mono {sent' : List Built} (h : Consumed sent floors tr)
    (hsub : ∀ t ∈ sent, t ∈ sent') : Consumed sent' floors tr := by
  refine ⟨fun m hm => ?_, h.below, h.ordered, h.range⟩
  rcases List.mem_append.1 (h.authentic m hm) with ht | ht
  · exact List.mem_append_left _ (hsub _ ht)
  · exact List.mem_append_right _ ht

/-- A floor that moves up changes nothing. -/
theorem Consumed.raise {floors' : ℕ → CounterFile} (h : Consumed sent floors tr)
    (hup : ∀ did, value (floors did) ≤ value (floors' did) ∧ value (floors' did) < FV_BOUND) :
    Consumed sent floors' tr :=
  ⟨h.authentic, fun m hm => (h.below m hm).trans (hup _).1, h.ordered,
    fun did => ⟨(h.range did).1.trans (hup did).1, (hup did).2⟩⟩

/-- **Taking in a message** that was built and is above its floor. -/
theorem Consumed.accept {b : Book} {m : Message} (h : Consumed sent b.floors b.trace)
    (hbuilt : m.built ∈ sent ++ b.trace.filterMap Obs.built?)
    (hlt : value (b.floors m.did) < m.fv) (hbound : m.fv < FV_BOUND) :
    Consumed sent (b.accept m).floors b.trace ∧
      Consumed sent (b.accept m).floors (b.accept m).trace := by
  have hup : ∀ did, value (b.floors did) ≤ value ((b.accept m).floors did) ∧
      value ((b.accept m).floors did) < FV_BOUND := by
    intro did
    simp only [Book.accept]
    split
    · rename_i hdid
      exact ⟨hdid ▸ hlt.le, hbound⟩
    · exact ⟨le_rfl, (h.range did).2⟩
  have hraised := h.raise hup
  have heff : effects (b.accept m).trace = effects b.trace ++ [m] := by
    simp [Book.accept]
  refine ⟨hraised, ⟨fun m' hm' => ?_, fun m' hm' => ?_, ?_, hraised.range⟩⟩
  · have hold : m'.built ∈ sent ++ b.trace.filterMap Obs.built? := by
      rw [heff, List.mem_append, List.mem_singleton] at hm'
      rcases hm' with hm' | rfl
      · exact h.authentic m' hm'
      · exact hbuilt
    simp only [Book.accept, List.filterMap_append, List.mem_append] at hold ⊢
    tauto
  · rw [heff, List.mem_append, List.mem_singleton] at hm'
    rcases hm' with hm' | rfl
    · exact hraised.below m' hm'
    · simp [Book.accept, value]
  · rw [heff, List.pairwise_append]
    refine ⟨h.ordered, List.pairwise_singleton _ _, fun m' hm' m'' hm'' hdid => ?_⟩
    obtain rfl := List.mem_singleton.1 hm''
    exact lt_of_le_of_lt (h.below m' hm') (hdid ▸ hlt)

/-- What the invariant says of dispatch. -/
theorem Consumed.dispatched {n : Net}
    (h : Consumed n.sent (n.node.disk.store.file .rx) n.node.trace) : Dispatched n where
  authentic := h.authentic
  once := by
    -- two messages of one frame would have one identifier and one value
    rw [List.Nodup, List.pairwise_map]
    refine h.ordered.imp fun hlt heq => ?_
    have hdid : _ = _ := congrArg Built.did heq
    have hfv : _ = _ := congrArg Built.fv heq
    exact (hlt hdid).ne hfv
  ordered did := by
    rw [List.pairwise_map]
    refine (h.ordered.filter _).imp_of_mem fun hm hm' hlt => hlt ?_
    rw [List.mem_filter, decide_eq_true_eq] at hm hm'
    exact hm.2.trans hm'.2.symm

/-! ## What an acceptance says -/

/-- A claimed frame begins with the magic of its kind. -/
theorem take_two_of_claim {canId dlc : ℕ} {data : Bytes} {c : Requester × What}
    (hclaim : claimOf canId dlc data = some c) (hlen : SECOC_FRAME_LEN ≤ data.length) :
    data.take 2 = [c.2.magic, (data.take 2).getD 1 0] := by
  simp only [SECOC_FRAME_LEN] at hlen
  match data, hlen with
  | magic :: slot :: rest, _ =>
    simp only [claimOf] at hclaim
    split at hclaim
    · cases hclaim
    · obtain ⟨flow, hflow, hclaim⟩ := Option.bind_eq_some_iff.1 hclaim
      simp only [List.head?_cons, Option.bind_some, Option.map_eq_some_iff] at hclaim
      obtain ⟨a, hann, rfl⟩ := hclaim
      have hmagic : magic = a.2.magic := by
        unfold announced at hann
        split at hann
        · rename_i h
          cases hann
          exact h
        · split at hann
          · rename_i h
            cases hann
            exact h
          · cases hann
      simp [hmagic]

/-- **A message is what its frame was checked against**, and the frame
carries the MAC of that. -/
theorem checked_of_messageOn {f : CanFrame} {env : Env} {m : Message}
    (hm : messageOn cfg w f env = some m) :
    checked w f env = some m.built ∧ m.built.mac cfg = macField f := by
  simp only [messageOn, messageOf, Option.bind_eq_some_iff, Option.map_eq_some_iff] at hm
  obtain ⟨c, hclaim, fv, hacc, rfl⟩ := hm
  obtain ⟨hfv, hlen, -, hmac, -⟩ := accepts_eq_some.1 hacc
  have hpayload := take_two_of_claim hclaim hlen
  refine ⟨?_, ?_⟩
  · simp only [checked, hclaim, Option.map_some, Message.built, Message.did]
    rw [← hpayload, ← hfv]
  · simp only [Built.mac, Message.built, Message.did, macField]
    rw [← hpayload]
    exact hmac

/-- And it is above the floor it was checked against. -/
theorem lt_of_messageOn {f : CanFrame} {env : Env} {m : Message} (hload : env.rx.load = none)
    (hrange : ∀ did, 0 ≤ value (w.disk.store.file .rx did) ∧
      value (w.disk.store.file .rx did) < FV_BOUND)
    (hm : messageOn cfg w f env = some m) : value (w.disk.store.file .rx m.did) < m.fv := by
  simp only [messageOn, messageOf, Option.bind_eq_some_iff, Option.map_eq_some_iff] at hm
  obtain ⟨c, hclaim, fv, hacc, rfl⟩ := hm
  have hvalue : w.disk.store.load env.rx .rx (c.1.flow.did c.2) =
      value (w.disk.store.file .rx (c.1.flow.did c.2)) := by
    simp only [FvStore.load, hload]
    cases w.disk.store.file .rx (c.1.flow.did c.2) <;> rfl
  rw [hvalue] at hacc
  obtain ⟨h0, h1⟩ := hrange (c.1.flow.did c.2)
  exact lt_of_accepts h0 (h1.trans (by norm_num [FV_BOUND])) hacc

/-- **With an ideal MAC, a message was built.** -/
theorem built_of_messageOn {n : Net} {f : CanFrame} {env : Env} {m : Message}
    (hideal : Set.InjOn (Built.mac cfg) T) (hT : ∀ t ∈ n.built, t ∈ T)
    (hcheck : ∀ t, checked n.node f env = some t →
      t ∈ T ∧ (t.mac cfg = macField f → ∃ t' ∈ n.built, t'.mac cfg = macField f))
    (hm : messageOn cfg n.node f env = some m) : m.built ∈ n.built := by
  obtain ⟨hchecked, hmac⟩ := checked_of_messageOn hm
  obtain ⟨hmem, hforged⟩ := hcheck _ hchecked
  obtain ⟨t, ht, htmac⟩ := hforged hmac
  have heq : m.built = t := hideal hmem (hT t ht) (hmac.trans htmac.symm)
  exact heq ▸ ht

/-! ## Runs -/

/-- The invariant of the bus. -/
def NetInv (T : Set Built) (n : Net) : Prop :=
  Kept (fun b => Consumed n.sent b.floors b.trace) (Consumed n.sent) n.node ∧
    ∀ t ∈ n.built, t ∈ T ∧ t.fv < FV_BOUND

/-- A move takes in at most one message, and that one was built. -/
theorem Move.consumed {b b' : Book} (h : Consumed sent b.floors b.trace)
    (hframe : ∀ f env m, e = .frame f env → messageOn cfg w f env = some m →
      Consumed sent (w.book.accept m).floors (w.book.accept m).trace)
    (hmove : Move cfg w e b b') : Consumed sent b'.floors b'.trace := by
  cases hmove with
  | opened hm hasks =>
    exact ((hframe _ _ _ rfl hm).append [_] rfl).append [_] rfl
  | unasked hm hasks =>
    exact ((hframe _ _ _ rfl hm).append [_] rfl).append [_] rfl
  | asked hm hasks => exact hframe _ _ _ rfl hm
  | completed hm => exact hframe _ _ _ rfl hm
  | approved hw hb hactive hdec => exact (h.append [_] rfl).append [_] rfl
  | denied hw hb hactive hdec => exact (h.append [_] rfl).append [_] rfl
  | expired => exact h.append [_] rfl
  | selfStarted => exact h
  | selfDone => exact h

theorem effects_part {name : Requester} {approved : Bool} {slot : UInt8} {part : List Obs}
    (hpart : SentPart name approved slot part) : effects part = [] := by
  cases hpart <;> rfl

/-- And so does a move that is cut short. -/
theorem Cut.consumed {b : Book} (h : Consumed sent b.floors b.trace)
    (hframe : ∀ f env m, e = .frame f env → messageOn cfg w f env = some m →
      Consumed sent (w.book.accept m).floors w.trace ∧
      Consumed sent (w.book.accept m).floors (w.book.accept m).trace)
    (hcut : Cut cfg w e b floors tr) : Consumed sent floors tr := by
  cases hcut with
  | between => exact h
  | stored hm => exact (hframe _ _ _ rfl hm).1
  | running hm => exact (hframe _ _ _ rfl hm).2
  | answering hm hpart => exact (hframe _ _ _ rfl hm).2.append _ (effects_part hpart)
  | resolving hw hb hpart => exact h.append _ (effects_part hpart)

/-- **One event keeps the invariant.** -/
theorem netInv_step (n : Net) (e : NetEvent) (hideal : Set.InjOn (Built.mac cfg) T)
    (h : NetInv T n) (hassume : Assumed cfg T n e) : NetInv T (netStep cfg n e) := by
  refine ⟨?_, hassume.1⟩
  obtain ⟨hkept, hT⟩ := h
  cases e with
  | build did payload io =>
    simp only [netStep]
    split
    · rename_i frame fv s hrun
      have hsub : ∀ t ∈ n.sent, t ∈ n.sent ++ [⟨did, payload, fv⟩] := fun t ht =>
        List.mem_append_left _ ht
      exact ⟨hkept.1.mono hsub, fun hup => ⟨(hkept.2 hup).1, (hkept.2 hup).2.mono hsub⟩⟩
    · exact hkept
  | restart env => exact kept_boot hkept.1 fun _ => hkept.1
  | node e =>
    have hframe : ∀ f env m, e = .frame f env → messageOn cfg n.node f env = some m →
        Consumed n.sent (n.node.book.accept m).floors n.node.trace ∧
        Consumed n.sent (n.node.book.accept m).floors (n.node.book.accept m).trace := by
      rintro f env m rfl hm
      obtain ⟨hload, hcheck⟩ := hassume.2
      have hbuilt := built_of_messageOn hideal (fun t ht => (hT t ht).1) hcheck hm
      exact Consumed.accept hkept.1 hbuilt (lt_of_messageOn hload hkept.1.range hm)
        (hT _ hbuilt).2
    exact kept_step hkept (fun _ hb => hb)
      (fun _ _ hb _ hmove => hmove.consumed hb fun f env m he hm => (hframe f env m he hm).2)
      fun _ _ _ hb hcut => hcut.consumed hb hframe

/-- **Dispatch is authentic, at most once and in order.** For every run of
the bus whose steps meet the assumptions. -/
theorem dispatch_authentic (cfg : Config) (T : Set Built) (hideal : Set.InjOn (Built.mac cfg) T)
    (d : Disk) (hdisk : Reliable d.store) (env : Env) (peer : FvStore) (es : List NetEvent)
    (h : Run.Along (netStep cfg) (Assumed cfg T) ⟨World.launch d env, peer, []⟩ es) :
    Run.Throughout (netStep cfg) Dispatched ⟨World.launch d env, peer, []⟩ es := by
  refine Run.throughout_of_along (I := NetInv T) (fun n e hn => netInv_step n e hideal hn)
    (fun n hn => hn.1.1.dispatched) ?_ h
  have hempty : Consumed [] (d.store.file .rx) [] := by
    refine ⟨fun m hm => ?_, fun m hm => ?_, List.Pairwise.nil, hdisk⟩
    · cases hm
    · cases hm
  refine ⟨kept_launch hempty fun _ => hempty, ?_⟩
  refine launch_of_all (I := fun w => ∀ t ∈ Net.built ⟨w, peer, []⟩, t ∈ T ∧ t.fv < FV_BOUND)
    fun _ _ _ t ht => ?_
  cases ht

/-- What the messages of one exchange are built from, and what the first of
them is checked against when it comes again. -/
def sampleBuilt : List Built :=
  [⟨1, [0xA5, 1], 1⟩, ⟨3, [1, 1], 1⟩, ⟨1, [0xA5, 1], 65537⟩, ⟨2, [0x5A, 1], 1⟩]

/-- A request is built, delivered, and delivered again; then the cluster
reports. -/
theorem dispatch_authentic_once :
    Run.Throughout (netStep sampleConfig) Dispatched ⟨World.launch .fresh {}, .fresh, []⟩
      [.build 1 [0xA5, 1] {}, .node (.frame sampleRequest {}), .node (.frame sampleRequest {}),
        .build 2 [0x5A, 1] {}, .restart {}, .node (.frame sampleRunning {})] := by
  have hideal : Set.InjOn (Built.mac sampleConfig) {t | t ∈ sampleBuilt} := by
    have : ∀ t ∈ sampleBuilt, ∀ t' ∈ sampleBuilt,
        t.mac sampleConfig = t'.mac sampleConfig → t = t' := by decide +kernel
    exact fun t ht t' ht' => this t ht t' ht'
  exact dispatch_authentic sampleConfig {t | t ∈ sampleBuilt} hideal .fresh
    (fun did => by simp [Disk.fresh, FvStore.fresh, value, FV_BOUND]) {} .fresh _
    (by decide +kernel)

end Coordinator

end VehicleStack
