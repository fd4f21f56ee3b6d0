import VehicleStack.SecOC.Window
import Mathlib.Data.Int.Interval

/-!
# SecOC — one sender, one receiver, and the bus between them

A sender builds a frame and sends it, and may die at any point in between;
what it builds next, it builds after a restart, from the counter file alone.
The bus keeps frames in order and may lose any of them. The counter is
stored before the frame leaves, so a value is drawn for one frame at most:
a death burns it or not, but never brings it back (`outbound_fresh`). The
receiver follows as long as the values lost or burned since the last one it
accepted are fewer than the window is wide.
-/

namespace VehicleStack

namespace SecOC

open Callback

/-- The two ends of one data identifier. The log of the bus and the values
that were burned or lost are ghosts: nothing reads them. -/
structure Channel where
  sender : FvStore
  receiver : FvStore
  /-- Every frame that has been put on the bus, with its freshness value. -/
  bus : List (Bytes × ℤ)
  /-- Those that have not arrived yet. -/
  inFlight : List (Bytes × ℤ)
  accepted : List ℤ
  gone : List ℤ

/-- A verdict is built and sent, and the store and the send answer; the
oldest frame in flight is delivered; or some frame in flight is lost. -/
inductive ChannelEvent
  | send (payload : Payload) (store can : Answer)
  | deliver
  | lose (i : ℕ)

/-- A channel before its first frame. -/
def Channel.start (s r : FvStore) : Channel := ⟨s, r, [], [], [], []⟩

section Steps

variable (aes_cmac : Bytes → Bytes → Bytes) (key : Bytes) (did : ℕ)

/-- The value a sender has drawn and not sent, where it has drawn one. -/
def burned (did : ℕ) (s s' : FvStore) : List ℤ :=
  if s'.load {} .tx did = s.load {} .tx did then [] else [s'.load {} .tx did]

/-- `secoc_build` and `can_send`, as `_send_verdict` makes them. A frame is
on the bus if the send took effect, whether or not the sender lived to see
it. -/
def Channel.send (c : Channel) (payload : Payload) (store can : Answer) : Channel :=
  match secocBuild aes_cmac key { store } did payload.1 c.sender with
  | .ok (frame, fv) s =>
    match can with
    | .ok | .killAfter =>
      { c with sender := s, bus := c.bus ++ [(frame, fv)],
               inFlight := c.inFlight ++ [(frame, fv)] }
    | .osError | .killBefore => { c with sender := s, gone := c.gone ++ burned did c.sender s }
  | .error _ s => { c with sender := s, gone := c.gone ++ burned did c.sender s }

/-- The oldest frame in flight reaches `secoc_verify`. -/
def Channel.deliver (c : Channel) : Channel :=
  match c.inFlight with
  | [] => c
  | (frame, _) :: rest =>
    match secocVerify aes_cmac key {} did frame c.receiver with
    | .ok (.ok (_, fv)) r =>
      { c with receiver := r, inFlight := rest, accepted := c.accepted ++ [fv] }
    | .ok (.error _) r => { c with receiver := r, inFlight := rest }
    | .error _ r => { c with receiver := r, inFlight := rest }

/-- The frame in the `i`-th place is lost. -/
def Channel.lose (c : Channel) (i : ℕ) : Channel :=
  { c with inFlight := c.inFlight.eraseIdx i,
           gone := c.gone ++ (c.inFlight[i]?.map Prod.snd).toList }

def Channel.step (c : Channel) : ChannelEvent → Channel
  | .send payload store can => c.send aes_cmac key did payload store can
  | .deliver => c.deliver aes_cmac key did
  | .lose i => c.lose i

end Steps

/-! ## What sending does -/

section Frames

variable {aes_cmac : Bytes → Bytes → Bytes} {key : Bytes} {did : ℕ} {c : Channel}

/-- The sender's counter. -/
def Channel.counter (did : ℕ) (c : Channel) : ℤ := c.sender.load {} .tx did

/-- The sender has drawn the next value. -/
def Channel.draw (did : ℕ) (c : Channel) : Channel :=
  { c with sender := c.sender.put .tx did (c.counter did + 1) }

@[simp] theorem counter_draw : (c.draw did).counter did = c.counter did + 1 :=
  FvStore.load_put_self rfl

/-- **Sending does one of three things.** Nothing; or it draws a value and
burns it; or it draws a value and puts the frame built with it on the bus. -/
theorem send_cases (payload : Payload) (store can : Answer) :
    let fv := c.counter did + 1
    let frame := frameOf aes_cmac key did payload.1 fv
    c.send aes_cmac key did payload store can = c ∨
    InRange fv ∧
      (c.send aes_cmac key did payload store can = { c.draw did with gone := c.gone ++ [fv] } ∨
        c.send aes_cmac key did payload store can =
          { c.draw did with bus := c.bus ++ [(frame, fv)],
                            inFlight := c.inFlight ++ [(frame, fv)] }) := by
  intro fv frame
  have hburned : burned did c.sender (c.sender.put .tx did fv) = [fv] := by
    have hload : (c.sender.put .tx did fv).load {} .tx did = fv := FvStore.load_put_self rfl
    have hne : ¬ fv = c.sender.load {} .tx did := by
      show ¬ c.sender.load {} .tx did + 1 = _
      omega
    rw [burned, hload, if_neg hne]
  have hsame : burned did c.sender c.sender = [] := if_pos rfl
  -- before the store nothing has happened; after it the value has been drawn
  have hwp : wp (secocBuild aes_cmac key { store } did payload.1)
      (fun a s => InRange fv ∧ a = (frame, fv) ∧ s = c.sender.put .tx did fv)
      (fun _ s => s = c.sender ∨ InRange fv ∧ s = c.sender.put .tx did fv) c.sender :=
    wp_secocBuild (fun hrange _ => ⟨hrange, rfl, rfl⟩) (fun _ _ => Or.inl rfl)
      (fun hrange _ => Or.inr ⟨hrange, rfl⟩)
  rw [Channel.send]
  cases hrun : secocBuild aes_cmac key { store } did payload.1 c.sender with
  | ok a s =>
    rw [wp, hrun] at hwp
    obtain ⟨hrange, rfl, rfl⟩ := hwp
    refine Or.inr ⟨hrange, ?_⟩
    cases can with
    | ok => exact Or.inr rfl
    | killAfter => exact Or.inr rfl
    | osError =>
      simp only [hburned]
      exact Or.inl rfl
    | killBefore =>
      simp only [hburned]
      exact Or.inl rfl
  | error e s =>
    rw [wp, hrun] at hwp
    rcases hwp with rfl | ⟨hrange, rfl⟩
    · simp only [hsame, List.append_nil]
      exact Or.inl trivial
    · simp only [hburned]
      exact Or.inr ⟨hrange, Or.inl rfl⟩

/-! ## The bus carries every value once -/

/-- **What the bus has carried.** The values increase, the counter stands
at or above them, and each frame was built with its value. -/
structure Drawn (aes_cmac : Bytes → Bytes → Bytes) (key : Bytes) (did : ℕ) (c : Channel) : Prop
    where
  increasing : (c.bus.map Prod.snd).Pairwise (· < ·)
  le_counter : ∀ b ∈ c.bus, b.2 ≤ c.counter did
  built : ∀ b ∈ c.bus, ∃ payload : Payload, b.1 = frameOf aes_cmac key did payload.1 b.2

theorem drawn_start (s r : FvStore) : Drawn aes_cmac key did (Channel.start s r) where
  increasing := List.Pairwise.nil
  le_counter _ hb := by cases hb
  built _ hb := by cases hb

/-- Delivering a frame does not touch the sender, nor what has been on the
bus. -/
theorem deliver_frame : (c.deliver aes_cmac key did).sender = c.sender ∧
    (c.deliver aes_cmac key did).bus = c.bus := by
  rw [Channel.deliver]
  split
  · exact ⟨rfl, rfl⟩
  · split <;> exact ⟨rfl, rfl⟩

/-- A list in increasing order takes one more value above all it holds. -/
theorem pairwise_concat {xs : List (Bytes × ℤ)} {b : Bytes × ℤ}
    (h : (xs.map Prod.snd).Pairwise (· < ·)) (hlt : ∀ x ∈ xs, x.2 < b.2) :
    ((xs ++ [b]).map Prod.snd).Pairwise (· < ·) := by
  rw [List.map_append, List.pairwise_append]
  refine ⟨h, List.pairwise_singleton _ _, fun x hx y hy => ?_⟩
  obtain ⟨a, ha, rfl⟩ := List.mem_map.1 hx
  rw [List.map_singleton, List.mem_singleton] at hy
  exact hy ▸ hlt a ha

theorem drawn_step (hc : Drawn aes_cmac key did c) (e : ChannelEvent) :
    Drawn aes_cmac key did (c.step aes_cmac key did e) := by
  cases e with
  | send payload store can =>
    have hdraw : ∀ b ∈ c.bus, b.2 ≤ c.counter did + 1 := fun b hb => by
      have := hc.le_counter b hb
      omega
    show Drawn aes_cmac key did (c.send aes_cmac key did payload store can)
    rcases send_cases payload store can with hsend | ⟨-, hsend | hsend⟩
    · rw [hsend]
      exact hc
    · rw [hsend]
      exact ⟨hc.increasing, fun b hb => counter_draw (c := c) ▸ hdraw b hb, hc.built⟩
    · rw [hsend]
      refine ⟨pairwise_concat hc.increasing fun b hb => ?_, fun b hb => ?_, fun b hb => ?_⟩
      · have := hc.le_counter b hb
        show b.2 < c.counter did + 1
        omega
      · show b.2 ≤ (c.draw did).counter did
        rw [counter_draw]
        rcases List.mem_append.1 hb with hb | hb
        · exact hdraw b hb
        · rw [List.mem_singleton.1 hb]
      · rcases List.mem_append.1 hb with hb | hb
        · exact hc.built b hb
        · rw [List.mem_singleton.1 hb]
          exact ⟨payload, rfl⟩
  | deliver =>
    obtain ⟨hsender, hbus⟩ : (c.deliver aes_cmac key did).sender = c.sender ∧
        (c.deliver aes_cmac key did).bus = c.bus := deliver_frame
    show Drawn aes_cmac key did (c.deliver aes_cmac key did)
    refine ⟨by rw [hbus]; exact hc.increasing, ?_, by rw [hbus]; exact hc.built⟩
    rw [hbus, Channel.counter, hsender]
    exact hc.le_counter
  | lose i => exact ⟨hc.increasing, hc.le_counter, hc.built⟩

/-! ## The receiver follows -/

/-- The receiver's counter. -/
def Channel.floor (did : ℕ) (c : Channel) : ℤ := c.receiver.load {} .rx did

/-- The last value accepted, or where both counters began. -/
def Channel.last (n : ℤ) (c : Channel) : ℤ := c.accepted.getLastD n

/-- The values lost or burned between the last accepted one and `fv`. -/
def Channel.missed (n : ℤ) (c : Channel) (fv : ℤ) : List ℤ :=
  c.gone.filter fun x => c.last n < x ∧ x < fv

/-- A delivery finds few enough values missing, and both counters well
below their end. -/
def InStep (did : ℕ) (n : ℤ) (c : Channel) : ChannelEvent → Prop
  | .deliver =>
    (∀ b ∈ c.inFlight.head?, ((c.missed n b.2).length : ℤ) < SECOC_FV_MAX_JUMP) ∧
      c.counter did < 4294967296 - 65536 ∧ c.floor did < 4294967296 - 65536
  | .send .. => True
  | .lose _ => True

/-- A delivered frame is accepted, with its payload and its value. -/
def Follows (aes_cmac : Bytes → Bytes → Bytes) (key : Bytes) (did : ℕ) (c : Channel) :
    ChannelEvent → Prop
  | .deliver =>
    ∀ b ∈ c.inFlight.head?, ∃ payload : Payload, b.1 = frameOf aes_cmac key did payload.1 b.2 ∧
      secocVerify aes_cmac key {} did b.1 c.receiver =
        .ok (.ok (payload.1, b.2)) (c.receiver.put .rx did b.2)
  | .send .. => True
  | .lose _ => True

/-- **The two counters and what is between them.** The receiver's counter
is the last value it accepted; the frames in flight are above it, in order;
and every value the sender has drawn since is in flight or gone. -/
structure Between (aes_cmac : Bytes → Bytes → Bytes) (key : Bytes) (did : ℕ) (n : ℤ)
    (c : Channel) : Prop where
  floor_nonneg : 0 ≤ c.floor did
  floor_le : c.floor did ≤ c.counter did
  last_eq : c.last n = c.floor did
  increasing : (c.inFlight.map Prod.snd).Pairwise (· < ·)
  above : ∀ b ∈ c.inFlight, c.floor did < b.2 ∧ b.2 ≤ c.counter did
  built : ∀ b ∈ c.inFlight, ∃ payload : Payload, b.1 = frameOf aes_cmac key did payload.1 b.2
  covered : ∀ x, c.floor did < x → x ≤ c.counter did →
    x ∈ c.gone ∨ x ∈ c.inFlight.map Prod.snd

variable {n : ℤ}

theorem between_start {s r : FvStore} (hn : 0 ≤ n) (hs : s.load {} .tx did = n)
    (hr : r.load {} .rx did = n) : Between aes_cmac key did n (Channel.start s r) where
  floor_nonneg := by
    show 0 ≤ r.load {} .rx did
    rw [hr]
    exact hn
  floor_le := le_of_eq (hr.trans hs.symm)
  last_eq := hr.symm
  increasing := List.Pairwise.nil
  above _ hb := by cases hb
  built _ hb := by cases hb
  covered x hx hx' := by
    have hfloor : (Channel.start s r).floor did = n := hr
    have hcounter : (Channel.start s r).counter did = n := hs
    omega

/-- Losing a frame keeps the rest, and its value is gone. -/
theorem mem_eraseIdx_or {α : Type} {xs : List α} {x : α} (h : x ∈ xs) (i : ℕ) :
    x ∈ xs.eraseIdx i ∨ xs[i]? = some x := by
  obtain ⟨j, hj, rfl⟩ := List.mem_iff_getElem.1 h
  by_cases hji : j = i
  · exact Or.inr (hji ▸ List.getElem?_eq_getElem hj)
  · exact Or.inl (List.mem_eraseIdx_iff_getElem.2 ⟨j, hj, hji, rfl⟩)

theorem between_lose (hc : Between aes_cmac key did n c) (i : ℕ) :
    Between aes_cmac key did n (c.lose i) where
  floor_nonneg := hc.floor_nonneg
  floor_le := hc.floor_le
  last_eq := hc.last_eq
  increasing := hc.increasing.sublist ((List.eraseIdx_sublist _ _).map _)
  above b hb := hc.above b ((List.eraseIdx_sublist _ _).subset hb)
  built b hb := hc.built b ((List.eraseIdx_sublist _ _).subset hb)
  covered x hx hx' := by
    rcases hc.covered x hx hx' with hgone | hflight
    · exact Or.inl (List.mem_append_left _ hgone)
    · obtain ⟨b, hb, rfl⟩ := List.mem_map.1 hflight
      rcases mem_eraseIdx_or hb i with hkept | hlost
      · exact Or.inr (List.mem_map_of_mem hkept)
      · refine Or.inl (List.mem_append_right _ ?_)
        rw [hlost]
        exact List.mem_singleton_self _

/-- A value drawn is in flight from then on, or gone. -/
theorem between_send (hc : Between aes_cmac key did n c) (payload : Payload) (store can : Answer) :
    Between aes_cmac key did n (c.send aes_cmac key did payload store can) := by
  have hle : c.floor did ≤ (c.draw did).counter did := by
    have := hc.floor_le
    rw [counter_draw]
    omega
  have hcov : ∀ x, c.floor did < x → x ≤ c.counter did + 1 →
      (x ∈ c.gone ∨ x ∈ c.inFlight.map Prod.snd) ∨ x = c.counter did + 1 := by
    intro x hx hx'
    by_cases hnew : x = c.counter did + 1
    · exact Or.inr hnew
    · exact Or.inl (hc.covered x hx (by omega))
  rcases send_cases payload store can with hsend | ⟨-, hsend | hsend⟩
  · rw [hsend]
    exact hc
  · rw [hsend]
    refine ⟨hc.floor_nonneg, hle, hc.last_eq, hc.increasing, fun b hb => ?_, hc.built,
      fun x hx hx' => ?_⟩
    · have := hc.above b hb
      refine ⟨this.1, ?_⟩
      show b.2 ≤ (c.draw did).counter did
      rw [counter_draw]
      omega
    · rcases hcov x hx (counter_draw (c := c) ▸ hx') with (hgone | hflight) | rfl
      · exact Or.inl (List.mem_append_left _ hgone)
      · exact Or.inr hflight
      · exact Or.inl (List.mem_append_right _ (List.mem_singleton_self _))
  · rw [hsend]
    refine ⟨hc.floor_nonneg, hle, hc.last_eq, pairwise_concat hc.increasing fun b hb => ?_,
      fun b hb => ?_, fun b hb => ?_, fun x hx hx' => ?_⟩
    · have := (hc.above b hb).2
      show b.2 < c.counter did + 1
      omega
    · show c.floor did < b.2 ∧ b.2 ≤ (c.draw did).counter did
      rw [counter_draw]
      rcases List.mem_append.1 hb with hb | hb
      · have := hc.above b hb
        exact ⟨this.1, by omega⟩
      · have := hc.floor_le
        rw [List.mem_singleton.1 hb]
        exact ⟨by omega, le_rfl⟩
    · rcases List.mem_append.1 hb with hb | hb
      · exact hc.built b hb
      · rw [List.mem_singleton.1 hb]
        exact ⟨payload, rfl⟩
    · rw [List.map_append, List.mem_append]
      rcases hcov x hx (counter_draw (c := c) ▸ hx') with (hgone | hflight) | rfl
      · exact Or.inl hgone
      · exact Or.inr (Or.inl hflight)
      · exact Or.inr (Or.inr (List.mem_singleton_self _))

/-- **The gap is what went missing.** Every value between the receiver's
counter and the head of the flight is gone, so there are no more of them
than values lost or burned. -/
theorem gap_le_missed (hc : Between aes_cmac key did n c) {b : Bytes × ℤ}
    {rest : List (Bytes × ℤ)} (hflight : c.inFlight = b :: rest) :
    b.2 - c.floor did - 1 ≤ ((c.missed n b.2).length : ℤ) := by
  have hmem : ∀ x ∈ Finset.Ioo (c.floor did) b.2, x ∈ (c.missed n b.2).toFinset := by
    intro x hx
    obtain ⟨hgt, hlt⟩ := Finset.mem_Ioo.1 hx
    have hle : b.2 ≤ c.counter did := (hc.above b (hflight ▸ List.mem_cons_self)).2
    -- what is in flight comes at or behind the head
    have hgone : x ∈ c.gone := by
      refine (hc.covered x hgt (by omega)).resolve_right fun hx' => ?_
      have hinc := hc.increasing
      rw [hflight, List.map_cons] at hinc hx'
      rcases List.mem_cons.1 hx' with rfl | hrest
      · omega
      · have := (List.pairwise_cons.1 hinc).1 x hrest
        omega
    rw [List.mem_toFinset, Channel.missed, List.mem_filter]
    exact ⟨hgone, by rw [hc.last_eq]; exact decide_eq_true ⟨hgt, hlt⟩⟩
  have hcard := Finset.card_le_card (Finset.subset_iff.2 fun x hx => hmem x hx)
  rw [Int.card_Ioo] at hcard
  have := List.toFinset_card_le (c.missed n b.2)
  omega

/-- **The receiver takes the oldest frame.** Its value is the new floor,
and what is between the two counters is what was, less that frame. -/
theorem between_accept (hc : Between aes_cmac key did n c) {b : Bytes × ℤ}
    {rest : List (Bytes × ℤ)} (hflight : c.inFlight = b :: rest) :
    Between aes_cmac key did n { c with
      receiver := c.receiver.put .rx did b.2, inFlight := rest,
      accepted := c.accepted ++ [b.2] } := by
  have hput : (c.receiver.put .rx did b.2).load {} .rx did = b.2 := FvStore.load_put_self rfl
  obtain ⟨habove, hbelow⟩ := hc.above b (hflight ▸ List.mem_cons_self)
  have hinc := hc.increasing
  rw [hflight, List.map_cons, List.pairwise_cons] at hinc
  refine ⟨?_, ?_, ?_, hinc.2, fun b' hb' => ?_, fun b' hb' => ?_, fun x hx hx' => ?_⟩
  · show 0 ≤ (c.receiver.put .rx did b.2).load {} .rx did
    have := hc.floor_nonneg
    omega
  · show (c.receiver.put .rx did b.2).load {} .rx did ≤ c.counter did
    rw [hput]
    exact hbelow
  · rw [Channel.last, List.getLastD_concat]
    exact hput.symm
  · rw [Channel.floor, hput]
    have hmem' : b' ∈ c.inFlight := hflight ▸ List.mem_cons_of_mem _ hb'
    exact ⟨hinc.1 _ (List.mem_map_of_mem hb'), (hc.above b' hmem').2⟩
  · exact hc.built b' (hflight ▸ List.mem_cons_of_mem _ hb')
  · -- above the new floor, so it is not the frame that was taken
    rw [Channel.floor, hput] at hx
    refine (hc.covered x (by omega) hx').imp_right fun hx'' => ?_
    rw [hflight, List.map_cons, List.mem_cons] at hx''
    exact hx''.resolve_left (by omega)

/-- **A delivery in step is accepted**, and what is between the two
counters is what was before, less that frame. -/
theorem deliver_inStep (hblock : BlockSized aes_cmac key) (hc : Between aes_cmac key did n c)
    (hstep : InStep did n c .deliver) : Follows aes_cmac key did c .deliver ∧
      Between aes_cmac key did n (c.deliver aes_cmac key did) := by
  obtain ⟨hmissed, hcounter, hfloor⟩ := hstep
  cases hflight : c.inFlight with
  | nil =>
    refine ⟨fun b hb => ?_, ?_⟩
    · rw [hflight] at hb
      cases hb
    · rw [Channel.deliver, hflight]
      exact hc
  | cons b rest =>
    have hmem : b ∈ c.inFlight := hflight ▸ List.mem_cons_self
    obtain ⟨habove, hbelow⟩ := hc.above b hmem
    obtain ⟨payload, hframe⟩ := hc.built b hmem
    have hwin : InWindow (c.floor did) b.2 := by
      have hgap := gap_le_missed hc hflight
      have := hmissed b (by rw [hflight]; rfl)
      exact ⟨habove, by omega⟩
    have hrange : InRange b.2 := by
      have := hc.floor_nonneg
      exact ⟨by omega, by omega⟩
    have hacc : accepts aes_cmac key (c.receiver.load {} .rx did) did b.1 = some b.2 := by
      rw [hframe]
      exact accepts_of_inWindow hblock payload.2 hc.floor_nonneg hrange hwin
    have hrun : secocVerify aes_cmac key {} did b.1 c.receiver =
        .ok (.ok (payload.1, b.2)) (c.receiver.put .rx did b.2) := by
      rw [secocVerify_of_accepts hacc rfl, hframe, (frameOf_parts hblock payload.2 _ _).2.1]
    refine ⟨fun b' hb' => ?_, ?_⟩
    · rw [hflight] at hb'
      obtain rfl := Option.some.inj hb'
      exact ⟨payload, hframe, hrun⟩
    · have hdeliver : c.deliver aes_cmac key did = { c with
          receiver := c.receiver.put .rx did b.2, inFlight := rest,
          accepted := c.accepted ++ [b.2] } := by
        rw [Channel.deliver, hflight]
        simp only [hrun]
      rw [hdeliver]
      exact between_accept hc hflight

/-- The step rule. -/
theorem between_step (hblock : BlockSized aes_cmac key) (e : ChannelEvent)
    (hc : Between aes_cmac key did n c) (hstep : InStep did n c e) :
    Follows aes_cmac key did c e ∧ Between aes_cmac key did n (c.step aes_cmac key did e) := by
  cases e with
  | send payload store can => exact ⟨trivial, between_send hc payload store can⟩
  | deliver => exact deliver_inStep hblock hc hstep
  | lose i => exact ⟨trivial, between_lose hc i⟩

end Frames

/-- **Outbound freshness is never reused and keeps in step with the peer.**
Over every run of sends, deaths and restarts from any counter files, the
values on the bus strictly increase and each frame there was built with its
own. And where both counters began at `n`, every frame delivered is
accepted with its payload and value, as long as each delivery finds fewer
than `SECOC_FV_MAX_JUMP` values lost or burned since the last accepted one
and both counters below `2^32 - 2^16`. -/
theorem outbound_fresh (aes_cmac : Bytes → Bytes → Bytes) (key : Bytes) (did : ℕ)
    (s r : FvStore) (es : List ChannelEvent) :
    let step := Channel.step aes_cmac key did
    let c := Channel.start s r
    (((Run.run step c es).bus.map Prod.snd).Pairwise (· < ·) ∧
      ∀ b ∈ (Run.run step c es).bus, ∃ payload : Payload,
        b.1 = frameOf aes_cmac key did payload.1 b.2) ∧
    ∀ n : ℕ, BlockSized aes_cmac key → s.load {} .tx did = n → r.load {} .rx did = n →
      Run.Along step (InStep did n) c es → Run.Along step (Follows aes_cmac key did) c es := by
  intro step c
  have hdrawn : Drawn aes_cmac key did (Run.run step c es) :=
    Run.inv_run (P := fun _ _ => True) (fun _ e hI _ => drawn_step hI e) (drawn_start s r)
      (Run.along_of_forall (p := fun _ => True) fun _ _ => trivial)
  refine ⟨⟨hdrawn.increasing, hdrawn.built⟩, fun n hblock hs hr hrun => ?_⟩
  exact Run.along_of_inv (I := Between aes_cmac key did n)
    (fun _ e hI hP => (between_step hblock e hI hP).2)
    (fun _ e hI hP => (between_step hblock e hI hP).1)
    (between_start (by omega) hs hr) hrun

/-- The recorded CMACs, and a block of zeros for what was not recorded. -/
def paddedCmac (key msg : Bytes) : Bytes := (sampleCmac key msg ++ List.replicate 16 0).take 16

theorem paddedCmac_block (key : Bytes) : BlockSized paddedCmac key := by
  intro msg
  rw [paddedCmac, List.length_take, List.length_append, List.length_replicate]
  omega

/-- A frame is sent, and a value burned by a death before the send. -/
theorem outbound_fresh_burned :
    Run.Along (Channel.step paddedCmac sampleKey 3) (Follows paddedCmac sampleKey 3)
      (Channel.start FvStore.fresh FvStore.fresh)
      [.send ⟨[1, 1], rfl⟩ .ok .ok, .send ⟨[1, 1], rfl⟩ .killAfter .ok, .deliver] := by
  have hrun : Run.Along (Channel.step paddedCmac sampleKey 3) (InStep 3 0)
      (Channel.start FvStore.fresh FvStore.fresh)
      [.send ⟨[1, 1], rfl⟩ .ok .ok, .send ⟨[1, 1], rfl⟩ .killAfter .ok, .deliver] :=
    ⟨trivial, trivial, ⟨by decide, by decide, by decide⟩, trivial⟩
  exact (outbound_fresh paddedCmac sampleKey 3 FvStore.fresh FvStore.fresh _).2 0
    (paddedCmac_block _) rfl rfl hrun

end SecOC

end VehicleStack
