import VehicleStack.Coordinator.Book

/-!
# The update coordinator — an offer for every entry

An offer file asks the driver a question, and an entry of the pending table
waits for the answer. `Mirrors` says that the spool holds, of each
requester, the offer of its pending entry and no other; `Tidy` is what a
callback that returns does to the two, and `Housed` what is left of it
wherever it stops. Files of other producers are in no callback's way.
-/

namespace VehicleStack

namespace Coordinator

open Callback SecOC

variable {cfg : Config} {env : Env} {w w' : World} {e : Event} {name n : Requester}
  {pending : Dict Requester Pending} {offers : List Offer} {oid : OfferId}

/-! ## Whose offers -/

/-- The name begins with the requester's, and a `-`. -/
def OfferId.Carries (oid : OfferId) (name : Requester) : Prop :=
  oid.producer = .ours name ∧ oid.tail ≠ .bare

instance : Decidable (oid.Carries name) := inferInstanceAs (Decidable (_ ∧ _))

/-- The name up to the first `-` is not one of the requesters'. -/
def OfferId.Foreign (oid : OfferId) : Prop := ∀ name, oid.producer ≠ .ours name

theorem OfferId.Carries.inj (h : oid.Carries name) (h' : oid.Carries n) : n = name := by
  have heq := h'.1.symm.trans h.1
  cases heq
  rfl

/-- The ids of the offers that carry the requester's prefix. -/
def carried (name : Requester) (offers : List Offer) : List OfferId :=
  (offers.map Offer.id).filter (·.Carries name)

theorem mem_carried : oid ∈ carried name offers ↔
    (∃ o ∈ offers, o.id = oid) ∧ oid.Carries name := by
  simp [carried]

/-- Taking a file down. -/
theorem carried_remove : carried name (offers.filter (·.id ≠ oid)) =
    (carried name offers).filter (· ≠ oid) := by
  have hmap : (offers.filter (·.id ≠ oid)).map Offer.id =
      (offers.map Offer.id).filter (· ≠ oid) := by
    rw [List.filter_map]
    rfl
  rw [carried, carried, hmap, List.filter_filter, List.filter_filter]
  exact List.filter_congr fun _ _ => Bool.and_comm _ _

/-- Putting a file in place. -/
theorem carried_write {offer : Offer} :
    carried name (offers.filter (·.id ≠ offer.id) ++ [offer]) =
      (carried name offers).filter (· ≠ offer.id) ++
        if offer.id.Carries name then [offer.id] else [] := by
  have hlast : carried name [offer] = if offer.id.Carries name then [offer.id] else [] := by
    by_cases h : offer.id.Carries name <;> simp [carried, h]
  rw [← hlast, ← carried_remove]
  simp [carried]

/-! ## The mirror -/

/-- **The spool mirrors the table**: of each requester it holds the offer
of its pending entry, once, or none. -/
def Mirrors (pending : Dict Requester Pending) (offers : List Offer) : Prop :=
  ∀ name, carried name offers = ((pending.get? name).map Pending.id).toList

theorem Mirrors.carries {p : Pending} (h : Mirrors pending offers)
    (hp : pending.get? name = some p) : p.id.Carries name := by
  have hmem : p.id ∈ carried name offers := by
    rw [h name, hp]
    exact List.mem_singleton_self _
  exact (mem_carried.1 hmem).2

/-- Nobody is pending, and no offer is there. -/
theorem mirrors_empty (h : ∀ o ∈ offers, ∀ name, ¬ o.id.Carries name) : Mirrors .empty offers := by
  intro name
  rw [Dict.get?_empty]
  refine List.eq_nil_iff_forall_not_mem.2 fun oid hmem => ?_
  obtain ⟨⟨o, ho, rfl⟩, hcarries⟩ := mem_carried.1 hmem
  exact h o ho name hcarries

/-- An offer of one requester is not among another's. -/
theorem carried_filter_of_ne (hoid : oid.Carries name) (hn : n ≠ name) :
    (carried n offers).filter (· ≠ oid) = carried n offers := by
  rw [List.filter_eq_self]
  intro oid' hmem
  refine decide_eq_true fun heq => hn ?_
  subst heq
  exact hoid.inj (mem_carried.1 hmem).2

/-- **An entry goes, and its offer with it.** -/
theorem Mirrors.withdraw {p : Pending} (h : Mirrors pending offers)
    (hp : pending.get? name = some p) :
    Mirrors (pending.erase name) (offers.filter (·.id ≠ p.id)) := by
  intro n
  rw [carried_remove]
  by_cases hn : n = name
  · subst hn
    rw [h n, hp, Dict.get?_erase_self]
    simp
  · rw [carried_filter_of_ne (h.carries hp) hn, Dict.get?_erase_of_ne hn]
    exact h n

/-- **An offer is put up, and its entry made.** -/
theorem Mirrors.publish {p : Pending} {offer : Offer} (h : Mirrors pending offers)
    (hnone : pending.get? name = none) (hid : p.id = offer.id) (hoffer : offer.id.Carries name) :
    Mirrors (pending.set name p) (offers.filter (·.id ≠ offer.id) ++ [offer]) := by
  intro n
  rw [carried_write]
  by_cases hn : n = name
  · subst hn
    rw [h n, hnone, Dict.get?_set_self, if_pos hoffer, Option.map_some, hid]
    rfl
  · rw [carried_filter_of_ne hoffer hn, Dict.get?_set_of_ne hn,
      if_neg fun hcarries => hn (hoffer.inj hcarries), List.append_nil]
    exact h n

/-! ## What a callback does to the spool -/

/-- The id that a REQUEST's offer gets, where the driver is asked. -/
def takenBy (cfg : Config) (env : Env) (w : World) (name : Requester) : Option OfferId :=
  if asksDriver cfg env then
    some ⟨.ours name, .stamped (intTime (env.time .offerId)) (w.mem.offerSeq + 1)⟩
  else none

/-- The id that an event makes up for an offer. -/
def taken (cfg : Config) (w : World) : Event → Option OfferId
  | .frame f env => (messageOn cfg w f env).bind fun m =>
      if m.what = .request then takenBy cfg env w m.name else none
  | _ => none

/-- **What is left of a callback wherever it stops**: every file of another
producer is still there, every new file is under the id that has been made
up, and every entry's id is its requester's. -/
structure Housed (taken : Option OfferId) (w w' : World) : Prop where
  foreign : ∀ o ∈ w.disk.offers, o.id.Foreign → o ∈ w'.disk.offers
  written : ∀ o ∈ w'.disk.offers, o ∈ w.disk.offers ∨ taken = some o.id
  owned : ∀ n p, w'.mem.pending.get? n = some p → p.id.producer = .ours n
  client : w'.client = w.client

/-- **What is left where it returns**: the spool mirrors the table, and the
numbers have gone up by as many as have been used. -/
structure Tidy (taken : Option OfferId) (w w' : World) : Prop extends Housed taken w w' where
  mirrors : Mirrors w'.mem.pending w'.disk.offers
  seq : w'.mem.offerSeq = w.mem.offerSeq + taken.toList.length

/-- Memory and spool are as they were. -/
def Beside (w w' : World) : Prop :=
  w'.mem = w.mem ∧ w'.disk.offers = w.disk.offers ∧ w'.client = w.client

theorem Mirrors.tidy (h : Mirrors w.mem.pending w.disk.offers) : Tidy none w w where
  foreign _ ho _ := ho
  written _ ho := Or.inl ho
  owned _ _ hp := (h.carries hp).1
  client := rfl
  mirrors := h
  seq := rfl

/-- Sending a verdict is beside the spool. -/
theorem wp_sendVerdict_beside {didAppr apprCanId : ℕ} {slot : UInt8} {approved : Bool} :
    wp (sendVerdict cfg env name didAppr apprCanId slot approved) (fun _ => Beside w)
      (fun _ => Beside w) w := by
  simp only [sendVerdict, wp_bind, wp_onStore, wp_observe]
  refine wp_secocBuild (fun _ _ => ?_) (fun _ _ => ⟨rfl, rfl, rfl⟩) fun _ _ => ⟨rfl, rfl, rfl⟩
  exact wp_perform (fun _ => ⟨rfl, rfl, rfl⟩) (fun _ _ => ⟨rfl, rfl, rfl⟩) fun _ => ⟨rfl, rfl, rfl⟩

variable {t : Option OfferId} {w₀ : World} {Q : Unit → World → Prop} {E : Raised → World → Prop}

theorem Housed.beside (h : Housed t w₀ w) (hw : Beside w w') : Housed t w₀ w' := by
  obtain ⟨hmem, hoffers, hclient⟩ := hw
  refine ⟨?_, ?_, ?_, hclient.trans h.client⟩
  · rw [hoffers]
    exact h.foreign
  · rw [hoffers]
    exact h.written
  · rw [hmem]
    exact h.owned

theorem Tidy.beside (h : Tidy t w₀ w) (hw : Beside w w') : Tidy t w₀ w' := by
  refine ⟨h.toHoused.beside hw, ?_, ?_⟩
  · rw [hw.1, hw.2.1]
    exact h.mirrors
  · rw [hw.1]
    exact h.seq

/-- And so is looking at the lock. -/
theorem tidy_updateLockState (h : Tidy t w₀ w) :
    wp (updateLockState env) (fun _ => Tidy t w₀) (fun _ => Housed t w₀) w :=
  wp_updateLockState (fun _ _ _ => ⟨⟨h.foreign, h.written, h.owned, h.client⟩, h.mirrors, h.seq⟩)
    fun _ _ _ => ⟨h.foreign, h.written, h.owned, h.client⟩

/-- Where files that are there can be removed, the offer is removed. -/
theorem wp_withdrawOffer_exact (hunlink : env.unlinkOffer oid ≠ .osError)
    (h : Q () { w with disk := { w.disk with offers := w.disk.offers.filter (·.id ≠ oid) } })
    (hE : E .killed w)
    (hE' : E .killed { w with
      disk := { w.disk with offers := w.disk.offers.filter (·.id ≠ oid) } }) :
    wp (withdrawOffer env oid) Q E w := by
  unfold withdrawOffer
  rw [wp_bind]
  cases hanswer : env.unlinkOffer oid with
  | ok =>
    simp only [attempt, wp_bind, wp_modify, wp_pure]
    exact wp_attempt h h hE' hE'
  | osError => exact absurd hanswer hunlink
  | killBefore => exact hE
  | killAfter => exact hE'

/-- A file of ours is taken down. -/
theorem Housed.remove (h : Housed t w₀ w) (hoid : oid.producer = .ours name) :
    Housed t w₀ { w with
      disk := { w.disk with offers := w.disk.offers.filter (·.id ≠ oid) } } where
  foreign o ho hforeign := by
    refine List.mem_filter.2 ⟨h.foreign o ho hforeign, decide_eq_true fun heq => ?_⟩
    rw [← heq] at hoid
    exact hforeign name hoid
  written o ho := h.written o (List.mem_filter.1 ho).1
  owned := h.owned
  client := h.client

/-- An entry is taken out of the table. -/
theorem Housed.retire (h : Housed t w₀ w) :
    Housed t w₀ { w with mem := { w.mem with pending := w.mem.pending.erase name } } where
  foreign := h.foreign
  written := h.written
  owned n p hp := by
    change (w.mem.pending.erase name).get? n = some p at hp
    rw [Dict.get?_erase] at hp
    split at hp
    · cases hp
    · exact h.owned n p hp
  client := h.client

/-- **An entry and its offer are taken down, one after the other.** -/
theorem wp_withdrawOffer_tidy {p : Pending} (h : Tidy t w₀ w)
    (hp : w.mem.pending.get? name = some p) (hunlink : env.unlinkOffer p.id ≠ .osError)
    (hQ : ∀ w', Tidy t w₀ w' → w'.mem.pending.get? name = none → w'.mem.offerSeq = w.mem.offerSeq →
      Q () w') (hE : ∀ w', Housed t w₀ w' → E .killed w') :
    wp (withdrawOffer env p.id) Q E
      { w with mem := { w.mem with pending := w.mem.pending.erase name } } := by
  have hretired : Housed t w₀ { w with
      mem := { w.mem with pending := w.mem.pending.erase name } } := h.toHoused.retire
  have hremoved := hretired.remove (h.mirrors.carries hp).1
  refine wp_withdrawOffer_exact hunlink (hQ _ ⟨hremoved, h.mirrors.withdraw hp, h.seq⟩ ?_ rfl)
    (hE _ hretired) (hE _ hremoved)
  exact Dict.get?_erase_self

/-- Files that are there can be removed. -/
def Env.Unlinks (env : Env) : Prop := ∀ oid, env.unlinkOffer oid ≠ .osError

/-- Asking again takes the old prompt down. -/
theorem wp_dropPending_tidy (h : Tidy t w₀ w) (hunlink : env.Unlinks)
    (hQ : ∀ w', Tidy t w₀ w' → w'.mem.pending.get? name = none → Q () w')
    (hE : ∀ w', Housed t w₀ w' → E .killed w') : wp (dropPending env name) Q E w := by
  simp only [dropPending, wp_bind, wp_get]
  cases hp : w.mem.pending.get? name with
  | none => exact hQ w h hp
  | some p =>
    simp only [wp_bind, wp_popPending]
    exact wp_withdrawOffer_tidy h hp (hunlink p.id) (fun w' hw' hnone _ => hQ w' hw' hnone) hE

/-- Answering at once, without the driver, is beside the spool. -/
theorem wp_failOpen_tidy {slot : UInt8} {didAppr apprCanId : ℕ} (h : Tidy t w₀ w) :
    wp (failOpen cfg env name slot didAppr apprCanId) (fun _ => Tidy t w₀) (fun _ => Housed t w₀)
      w := by
  simp only [failOpen, wp_bind]
  refine wp_mono wp_sendVerdict_beside (fun _ w' hw' => ?_) fun _ w' hw' => h.toHoused.beside hw'
  have htidy : Tidy t w₀ w' := h.beside hw'
  exact ⟨⟨htidy.foreign, htidy.written, htidy.owned, htidy.client⟩, htidy.mirrors, htidy.seq⟩

/-- The offer is put in place whole, or not at all. -/
theorem wp_writeOffer_exact {Q : Bool → World → Prop} {slot : UInt8} {budget : Budget}
    (h : ∀ offer : Offer, offer.id = oid → Q true { w with disk := { w.disk with
      offers := w.disk.offers.filter (·.id ≠ oid) ++ [offer] } })
    (hno : Q false w) (hE : E .killed w)
    (hE' : ∀ offer : Offer, offer.id = oid → E .killed { w with disk := { w.disk with
      offers := w.disk.offers.filter (·.id ≠ oid) ++ [offer] } }) :
    wp (writeOffer env oid name slot budget) Q E w := by
  unfold writeOffer
  exact wp_attempt (h _ rfl) hno hE (hE' _ rfl)

/-- A file is put in place, under the id that has been made up. -/
theorem Housed.write {offer : Offer} (h : Housed (some oid) w₀ w) (hid : offer.id = oid)
    (hoid : oid.producer = .ours name) :
    Housed (some oid) w₀ { w with disk := { w.disk with
      offers := w.disk.offers.filter (·.id ≠ oid) ++ [offer] } } where
  foreign o ho hforeign :=
    List.mem_append_left _ ((h.remove hoid).foreign o ho hforeign)
  written o ho := by
    rcases List.mem_append.1 ho with ho | ho
    · exact (h.remove hoid).written o ho
    · rw [List.mem_singleton.1 ho, hid]
      exact Or.inr rfl
  owned := h.owned
  client := h.client

/-- **`_begin_approval`** takes an old offer down and puts a new one up. -/
theorem wp_beginApproval_tidy {slot : UInt8} {didAppr apprCanId : ℕ} (h : Tidy none w₀ w)
    (hunlink : env.Unlinks) :
    wp (beginApproval cfg env name slot didAppr apprCanId)
      (fun _ => Tidy (takenBy cfg env w₀ name) w₀) (fun _ => Housed (takenBy cfg env w₀ name) w₀)
      w := by
  -- what is done before the id is made up
  have hearlier : ∀ {taken : Option OfferId} {w' : World}, Housed none w₀ w' →
      Housed taken w₀ w' := fun h => ⟨h.foreign, fun o ho => Or.inl
        ((h.written o ho).resolve_right fun heq => by cases heq), h.owned, h.client⟩
  simp only [beginApproval, wp_ite, gate_eq]
  cases hasks : asksDriver cfg env with
  | false =>
    have hnone : takenBy cfg env w₀ name = none := by simp [takenBy, hasks]
    simp only [Bool.not_false, if_true, hnone]
    exact wp_failOpen_tidy h
  | true =>
    simp only [Bool.not_true, Bool.false_eq_true, if_false]
    rw [wp_bind]
    refine wp_dropPending_tidy h hunlink (fun w₁ h₁ hnone => ?_) fun w' hw' => hearlier hw'
    obtain ⟨oid, hoid⟩ : ∃ oid : OfferId, oid =
      ⟨.ours name, .stamped (intTime (env.time .offerId)) (w₁.mem.offerSeq + 1)⟩ := ⟨_, rfl⟩
    have htaken : takenBy cfg env w₀ name = some oid := by
      have hseq := h₁.seq
      simp only [Option.toList_none, List.length_nil, Nat.add_zero] at hseq
      simp only [takenBy, hasks, if_true, hoid, hseq]
    have hcarries : oid.Carries name := by
      rw [hoid]
      exact ⟨rfl, fun h => by cases h⟩
    simp only [wp_bind, wp_setMem, wp_get, htaken]
    rw [← hoid]
    have hcounted : Tidy (some oid) w₀ { w₁ with
        mem := { w₁.mem with offerSeq := w₁.mem.offerSeq + 1 } } := by
      have hhoused : Housed (some oid) w₀ w₁ := hearlier h₁.toHoused
      refine ⟨⟨hhoused.foreign, hhoused.written, hhoused.owned, hhoused.client⟩, h₁.mirrors, ?_⟩
      simp [h₁.seq]
    refine wp_writeOffer_exact (fun offer hid => ?_) (wp_failOpen_tidy hcounted) hcounted.toHoused
      fun offer hid => hcounted.toHoused.write hid hcarries.1
    have hwritten := hcounted.toHoused.write hid hcarries.1
    simp only [if_true, wp_bind, wp_setMem, startPollTimer]
    refine ⟨⟨hwritten.foreign, hwritten.written, fun n p hp => ?_, hwritten.client⟩, ?_,
      hcounted.seq⟩
    · change (w₁.mem.pending.set name _).get? n = some p at hp
      rw [Dict.get?_set] at hp
      split at hp
      · rename_i hn
        obtain rfl := Option.some.inj hp
        rw [hn]
        exact hcarries.1
      · exact h₁.owned n p hp
    · subst hid
      exact h₁.mirrors.publish hnone rfl hcarries

/-- **`_resolve`** takes the entry and its offer down. -/
theorem wp_resolve_tidy {approved : Bool} (h : Tidy t w₀ w) (hunlink : env.Unlinks) :
    wp (resolve cfg env name approved) (fun _ => Tidy t w₀) (fun _ => Housed t w₀) w := by
  simp only [resolve, wp_bind, wp_get]
  cases hp : w.mem.pending.get? name with
  | none => exact h
  | some p =>
    simp only [wp_bind, wp_popPending]
    refine wp_withdrawOffer_tidy h hp (hunlink p.id) (fun w' hw' _ _ => ?_) fun _ hw' => hw'
    rw [wp_bind]
    refine wp_mono wp_sendVerdict_beside (fun _ w'' hw'' => ?_) fun _ w'' hw'' =>
      hw'.toHoused.beside hw''
    have htidy : Tidy t w₀ w'' := hw'.beside hw''
    cases approved with
    | false => exact tidy_updateLockState htidy
    | true =>
      simp only [if_true, wp_bind, wp_activate]
      exact tidy_updateLockState
        ⟨⟨htidy.foreign, htidy.written, htidy.owned, htidy.client⟩, htidy.mirrors, htidy.seq⟩

/-- Every removal the event may make goes through, where the file is
there. -/
def Event.Unlinks : Event → Prop
  | .frame _ env | .drained env | .timeout _ env | .selfStart env | .selfDone env
  | .expireNotice _ env => env.Unlinks
  | .poll _ envs => ∀ name, (envs name).Unlinks
  | .serviceDone _ _ => True

/-- **A frame takes an id where it is a REQUEST that is put to the
driver.** -/
theorem tidy_frame {f : CanFrame} (h : Mirrors w.mem.pending w.disk.offers)
    (hunlink : env.Unlinks) :
    wp (callback cfg (.frame f env)) (fun _ => Tidy (taken cfg w (.frame f env)) w)
      (fun _ => Housed (taken cfg w (.frame f env)) w) w := by
  have hidle : Housed (taken cfg w (.frame f env)) w w :=
    ⟨fun _ ho _ => ho, fun _ ho => Or.inl ho, h.tidy.owned, rfl⟩
  refine wp_handleCan (fun hnone => ?_) (fun m hm => ?_) (fun _ _ => hidle) fun m _ =>
    ⟨hidle.foreign, hidle.written, hidle.owned, rfl⟩
  · have htaken : taken cfg w (.frame f env) = none := by
      simp only [taken, messageOn, hnone, Option.bind_none]
    rw [htaken]
    exact h.tidy
  · have htaken : taken cfg w (.frame f env) =
        if m.what = .request then takenBy cfg env w m.name else none := by
      simp only [taken, messageOn, hm, Option.bind_some]
    rw [htaken]
    obtain ⟨name, what, slot, fv⟩ := m
    cases what with
    | request =>
      simp only [process, wp_bind, wp_observe, Requester.flow_name, if_true]
      have hasked : Tidy none w { w with
          disk := { w.disk with store := w.disk.store.put .rx name.flow.didReq fv }
          trace := w.trace ++ [.request name slot fv] } :=
        ⟨⟨h.tidy.foreign, h.tidy.written, h.tidy.owned, rfl⟩, h, rfl⟩
      exact wp_mono (wp_beginApproval_tidy hasked hunlink)
        (fun _ w' hw' => tidy_updateLockState hw') fun _ _ hw' => hw'
    | running =>
      simp only [process, wp_bind, wp_observe, completeUpdate, wp_setMem, reduceCtorEq, if_false]
      refine wp_writeNotice (fun notices timers => ?_) fun notices =>
        ⟨h.tidy.foreign, h.tidy.written, h.tidy.owned, rfl⟩
      exact tidy_updateLockState ⟨⟨h.tidy.foreign, h.tidy.written, h.tidy.owned, rfl⟩, h, rfl⟩

/-- **What every callback does to the spool.** -/
theorem tidy_callback (h : Mirrors w.mem.pending w.disk.offers) (hwired : Wired w.mem.pending)
    (hunlink : e.Unlinks) :
    wp (callback cfg e) (fun _ => Tidy (taken cfg w e) w) (fun _ => Housed (taken cfg w e) w)
      w := by
  have hidle := h.tidy
  cases e with
  | frame f env => exact tidy_frame h hunlink
  | drained env => exact tidy_updateLockState hidle
  | poll now envs =>
    refine wp_pollApprovals (I := Tidy none w) hwired hidle (fun name p w' hp hsame hI => ?_)
      fun w' hI => ⟨hI, fun _ =>
        ⟨⟨hI.foreign, hI.written, hI.owned, hI.client⟩, hI.mirrors, hI.seq⟩⟩
    exact wp_pollEntry (hsame.pending.trans hp) (fun _ => hI)
      (fun approved _ => wp_resolve_tidy hI (hunlink name)) fun _ _ => hI.toHoused
  | timeout now env =>
    exact wp_timeoutCheck (I := Tidy none w) hidle
      (fun _ _ _ hI => ⟨⟨hI.foreign, hI.written, hI.owned, hI.client⟩, hI.mirrors, hI.seq⟩) hidle
      fun w' hI => tidy_updateLockState hI
  | selfStart env =>
    have hheld : Tidy none w { w with mem := { w.mem with
        activeEcus := w.mem.activeEcus.set .jetson (env.time .active) } } :=
      ⟨⟨hidle.foreign, hidle.written, hidle.owned, hidle.client⟩, hidle.mirrors, hidle.seq⟩
    refine wp_onSelfStart (wp_mono (tidy_updateLockState hheld) (fun _ w' hw' => ?_) fun _ _ hw' =>
      hw')
    exact ⟨⟨⟨hw'.foreign, hw'.written, hw'.owned, hw'.client⟩, hw'.mirrors, hw'.seq⟩,
      fun _ _ _ => ⟨hw'.foreign, hw'.written, hw'.owned, hw'.client⟩⟩
  | selfDone env =>
    have hhoused : Housed none w w := hidle.toHoused
    refine wp_onSelfDone (tidy_updateLockState ?_) fun _ _ _ => ?_
    · exact ⟨⟨hhoused.foreign, hhoused.written, hhoused.owned, rfl⟩, h, rfl⟩
    · exact ⟨hhoused.foreign, hhoused.written, hhoused.owned, rfl⟩
  | expireNotice nid env =>
    have hhoused : Housed none w w := hidle.toHoused
    exact wp_expireNotice
      (fun _ _ => ⟨⟨hhoused.foreign, hhoused.written, hhoused.owned, rfl⟩, h, rfl⟩)
      fun _ _ => ⟨hhoused.foreign, hhoused.written, hhoused.owned, rfl⟩
  | serviceDone label success =>
    have hhoused : Housed none w w := hidle.toHoused
    exact wp_onServiceDone fun _ =>
      ⟨⟨hhoused.foreign, hhoused.written, hhoused.owned, rfl⟩, h, rfl⟩

end Coordinator

end VehicleStack
