import VehicleStack.Coordinator.Offers

/-!
# The update coordinator — the spool beside the pending table

A process may die between putting an offer up and writing it down, and a
start sweeps what a dead process has left. So in front of a running process
the spool holds the offers of its pending requesters and no others of
theirs, whatever the lives before it came to (`spool_mirrors_pending`). The
sweep goes by what stands before the first `-`: it cannot do its part where
the directory cannot be listed, and it also takes a file that is named
after a requester and nothing else (`sweep_is_not_exact`).
-/

namespace VehicleStack

namespace Coordinator

open Callback SecOC

variable {cfg : Config} {env : Env} {w w' : World} {e : Event} {name : Requester}
  {pending : Dict Requester Pending} {offers : List Offer} {oid : OfferId}
  {Q : Unit → World → Prop} {E : Raised → World → Prop}

/-! ## Lives -/

/-- What happens around the spool: a callback, the end of the process or its
start, and another producer's files. -/
inductive SpoolEvent
  | callback (e : Event)
  /-- The process dies between two callbacks. Inside one, the answers that
  its `Env` holds say so. -/
  | kill
  /-- The node is destroyed and the process ends. -/
  | shutdown (env : Env)
  | start (env : Env)
  | put (offer : Offer)
  | take (oid : OfferId)

/-- One event. -/
def spoolStep (cfg : Config) (w : World) : SpoolEvent → World
  | .callback e => step cfg w e
  | .kill => { w with status := .down }
  | .shutdown env =>
    if w.status = .down then w else { w.exec (destroyNode env) with status := .down }
  | .start env => if w.status = .down then w.boot env else w
  | .put offer => { w with disk := { w.disk with
      offers := w.disk.offers.filter (·.id ≠ offer.id) ++ [offer] } }
  | .take oid => { w with disk := { w.disk with offers := w.disk.offers.filter (·.id ≠ oid) } }

/-- Before the first start, over any disk. -/
def World.off (d : Disk) : World := { World.start with disk := d, status := .down }

/-- Files that are there can be removed, and the other producers leave the
requesters' prefixes alone. -/
def SpoolEvent.Answered : SpoolEvent → Prop
  | .callback e => e.Unlinks
  | .shutdown env | .start env => env.Unlinks
  | .put offer => ∀ name, ¬ offer.id.Carries name
  | .take oid => ∀ name, ¬ oid.Carries name
  | .kill => True

/-- A start can list the spool, unless there is nothing of ours in it. -/
def Listed (w : World) : SpoolEvent → Prop
  | .start env => env.listOffers = true ∨ ∀ o ∈ w.disk.offers, ∀ name, ¬ o.id.Carries name
  | _ => True

/-- In front of a running process, between two callbacks, the spool mirrors
the table. -/
def Mirrored (w : World) : Prop := w.status = .up → Mirrors w.mem.pending w.disk.offers

/-- The event is not another producer's, or it leaves the files in which
`Other` holds of the id where they are. -/
def Spares (Other : OfferId → Prop) (cfg : Config) (w : World) : SpoolEvent → Prop
  | .put _ | .take _ => True
  | l => ∀ o ∈ w.disk.offers, Other o.id → o ∈ (spoolStep cfg w l).disk.offers

/-- The process, and the id that it makes up at an event. -/
def used (cfg : Config) (w : World) : SpoolEvent → Option (ℕ × OfferId)
  | .callback e => if w.status = .up then (taken cfg w e).map fun oid => (w.client, oid) else none
  | _ => none

/-- A file that the event brings in is another producer's, or under the id
used. -/
def WritesUsed (cfg : Config) (w : World) : SpoolEvent → Prop
  | .put _ => True
  | l => ∀ o ∈ (spoolStep cfg w l).disk.offers,
      o ∈ w.disk.offers ∨ used cfg w l = some (w.client, o.id)

/-- What is left of a spool by someone who removes requesters' files
only. -/
structure Swept (offers offers' : List Offer) : Prop where
  foreign : ∀ o ∈ offers, o.id.Foreign → o ∈ offers'
  subset : ∀ o ∈ offers', o ∈ offers

theorem Swept.remove {offers' : List Offer} (h : Swept offers offers')
    (hoid : oid.producer = .ours name) : Swept offers (offers'.filter (·.id ≠ oid)) where
  foreign o ho hforeign := by
    refine List.mem_filter.2 ⟨h.foreign o ho hforeign, decide_eq_true fun heq => ?_⟩
    rw [← heq] at hoid
    exact hforeign name hoid
  subset o ho := h.subset o (List.mem_filter.1 ho).1

/-- **A start that can list the spool leaves nothing of a requester's
name in it.** -/
theorem wp_sweepStaleOffers_exact (hlist : env.listOffers = true) (hunlink : env.Unlinks)
    (hQ : ∀ offers', Swept w.disk.offers offers' → (∀ o ∈ offers', o.id.Foreign) →
      Q () { w with disk := { w.disk with offers := offers' } })
    (hE : ∀ offers', Swept w.disk.offers offers' →
      E .killed { w with disk := { w.disk with offers := offers' } }) :
    wp (sweepStaleOffers env) Q E w := by
  simp only [sweepStaleOffers, hlist, if_true, wp_bind, wp_get]
  -- with `rest` still to look at, what is left of ours is among it
  refine wp_mono (wp_forM (E := E) (I := fun rest w' => ∃ offers',
    w' = { w with disk := { w.disk with offers := offers' } } ∧ Swept w.disk.offers offers' ∧
      ∀ o ∈ offers', ¬ o.id.Foreign → o ∈ rest) ?_
    ⟨_, rfl, ⟨fun _ ho _ => ho, fun _ ho => ho⟩, fun _ ho _ => ho⟩) ?_ fun _ _ h => h
  · rintro x rest w' ⟨offers', rfl, hswept, hrest⟩
    cases hx : x.id.producer with
    | ours name =>
      have hremoved := hswept.remove hx
      refine wp_withdrawOffer_exact (hunlink x.id) ⟨_, rfl, hremoved, fun o ho hours => ?_⟩
        (hE _ hswept) (hE _ hremoved)
      obtain ⟨ho', hne⟩ := List.mem_filter.1 ho
      refine (List.mem_cons.1 (hrest o ho' hours)).resolve_left fun heq => ?_
      exact of_decide_eq_true hne (congrArg Offer.id heq)
    | other s =>
      refine ⟨offers', rfl, hswept, fun o ho hours => ?_⟩
      refine (List.mem_cons.1 (hrest o ho hours)).resolve_left fun heq => hours fun name => ?_
      rw [heq, hx]
      exact fun h => by cases h
  · rintro - w' ⟨offers', rfl, hswept, hrest⟩
    exact hQ offers' hswept fun o ho => not_not.1 fun hours =>
      List.not_mem_nil (hrest o ho hours)

theorem Swept.refl : Swept offers offers := ⟨fun _ ho _ => ho, fun _ ho => ho⟩

/-- **A start**, with or without the list. -/
theorem boot_spool (hunlink : env.Unlinks) :
    Swept w.disk.offers (w.boot env).disk.offers ∧ (w.boot env).mem.pending = .empty ∧
      (w.boot env).client = w.client + 1 ∧
      (Listed w (.start env) → Mirrored (w.boot env)) := by
  have hnone : ∀ {o : Offer}, o.id.Foreign → ∀ name, ¬ o.id.Carries name :=
    fun hforeign name hcarries => hforeign name hcarries.1
  unfold World.boot
  refine exec_of_wp (I := fun w' => Swept w.disk.offers w'.disk.offers ∧
    w'.mem.pending = .empty ∧ w'.client = w.client + 1 ∧
    (Listed w (.start env) → Mirrored w')) ?_
  simp only [init, wp_bind]
  have hdead : ∀ {r : Raised} {w' : World}, Mirrored { w' with status := statusAfter r } :=
    fun hup => absurd hup (statusAfter_ne_up _)
  refine wp_recoverSelfUpdate rfl (fun flag => ?_) fun r flag => ⟨.refl, rfl, rfl, fun _ => hdead⟩
  rw [wp_bind]
  cases hlist : env.listOffers with
  | true =>
    refine wp_sweepStaleOffers_exact hlist hunlink (fun offers' hswept hforeign => ?_)
      fun offers' hswept => ⟨hswept, rfl, rfl, fun _ => hdead⟩
    refine wp_sweepNotices (fun notices => ⟨hswept, rfl, rfl, fun _ _ => ?_⟩)
      fun r notices => ⟨hswept, rfl, rfl, fun _ => hdead⟩
    exact mirrors_empty fun o ho => hnone (hforeign o ho)
  | false =>
    simp only [sweepStaleOffers, hlist, Bool.false_eq_true, if_false, wp_pure]
    refine wp_sweepNotices (fun notices => ⟨.refl, rfl, rfl, fun hlisted _ => ?_⟩)
      fun r notices => ⟨.refl, rfl, rfl, fun _ => hdead⟩
    rcases hlisted with htrue | hclean
    · rw [hlist] at htrue
      cases htrue
    · exact mirrors_empty hclean

/-- An end takes down what is pending, and so only files of ours. -/
theorem swept_destroyNode (hunlink : env.Unlinks)
    (howned : ∀ n p, w.mem.pending.get? n = some p → p.id.producer = .ours n) :
    Swept w.disk.offers (w.exec (destroyNode env)).disk.offers ∧
      (w.exec (destroyNode env)).client = w.client := by
  refine exec_of_all (I := fun w' => Swept w.disk.offers w'.disk.offers ∧ w'.client = w.client) ?_
    fun _ _ h => h
  simp only [destroyNode, wp_bind, wp_get]
  refine wp_mono (wp_forM (E := fun _ w' => Swept w.disk.offers w'.disk.offers ∧
    w'.client = w.client) (I := fun rest w' => (Swept w.disk.offers w'.disk.offers ∧
      w'.client = w.client) ∧ ∀ x ∈ rest, x.2.id.producer = .ours x.1) ?_
    ⟨⟨.refl, rfl⟩, fun x hx => howned x.1 x.2 (Dict.mem_entries.1 hx)⟩) ?_ fun _ _ h => h
  · rintro x rest w' ⟨⟨hswept, hclient⟩, hrest⟩
    have hremoved := hswept.remove (hrest x List.mem_cons_self)
    exact wp_withdrawOffer_exact (hunlink x.2.id)
      ⟨⟨hremoved, hclient⟩, fun y hy => hrest y (List.mem_cons_of_mem _ hy)⟩ ⟨hswept, hclient⟩
      ⟨hremoved, hclient⟩
  · rintro - w' ⟨h, -⟩
    exact h

/-! ## The law of the spool -/

/-- **What the life of the coordinator keeps.** -/
structure Spooled (w : World) : Prop where
  owned : w.status ≠ .down → ∀ n p, w.mem.pending.get? n = some p → p.id.producer = .ours n
  wired : w.status = .up → Wired w.mem.pending
  mirrored : Mirrored w

/-- Of a dead process nothing is asked. -/
theorem spooled_of_down (h : w.status = .down) : Spooled w := by
  have hup : w.status ≠ .up := fun hup => by cases h.symm.trans hup
  exact ⟨fun hne => absurd h hne, fun h => absurd h hup, fun h => absurd h hup⟩

/-- **A callback of a running process**, wherever it stops. -/
theorem tidy_step (hup : w.status = .up) (h : Spooled w) (hunlink : e.Unlinks) :
    Housed (taken cfg w e) w (step cfg w e) ∧
      ((step cfg w e).status = .up → Tidy (taken cfg w e) w (step cfg w e)) := by
  have hmirrors : Mirrors w.mem.pending w.disk.offers := h.mirrored hup
  by_cases henabled : enabled w e = true
  · have hstep : step cfg w e = w.exec (callback cfg e) := if_pos ⟨hup, henabled⟩
    rw [hstep]
    refine exec_of_wp (I := fun w' => Housed (taken cfg w e) w w' ∧
      (w'.status = .up → Tidy (taken cfg w e) w w')) ?_
    refine wp_mono (tidy_callback hmirrors (h.wired hup) hunlink)
      (fun _ w' hw' => ⟨hw'.toHoused, fun _ => hw'⟩) fun r w' hw' => ⟨?_, fun hdead => ?_⟩
    · exact ⟨hw'.foreign, hw'.written, hw'.owned, hw'.client⟩
    · exact absurd hdead (statusAfter_ne_up r)
  · have hstep : step cfg w e = w := if_neg fun hrun => henabled hrun.2
    have htaken : taken cfg w e = none := by
      cases e with
      | frame f env => exact absurd rfl henabled
      | _ => rfl
    rw [hstep, htaken]
    exact ⟨hmirrors.tidy.toHoused, fun _ => hmirrors.tidy⟩

/-- A file that no requester's prefix is on. -/
theorem Mirrors.remove (h : Mirrors pending offers) (hoid : ∀ name, ¬ oid.Carries name) :
    Mirrors pending (offers.filter (·.id ≠ oid)) := by
  intro name
  rw [carried_remove, ← h name, List.filter_eq_self]
  refine fun oid' hmem => decide_eq_true fun heq => hoid name ?_
  exact heq ▸ (mem_carried.1 hmem).2

theorem Mirrors.put {offer : Offer} (h : Mirrors pending offers)
    (hoffer : ∀ name, ¬ offer.id.Carries name) :
    Mirrors pending (offers.filter (·.id ≠ offer.id) ++ [offer]) := by
  intro name
  rw [carried_write, if_neg (hoffer name), List.append_nil, ← carried_remove]
  exact h.remove hoffer name

/-- **An event of any kind.** -/
theorem spooled_step {l : SpoolEvent} (h : Spooled w) (hanswered : l.Answered)
    (hlisted : Listed w l) : Spooled (spoolStep cfg w l) ∧ Spares OfferId.Foreign cfg w l ∧
      WritesUsed cfg w l := by
  cases l with
  | callback e =>
    by_cases hup : w.status = .up
    · have hcome : Housed (taken cfg w e) w (step cfg w e) ∧
          ((step cfg w e).status = .up → Tidy (taken cfg w e) w (step cfg w e)) :=
        tidy_step hup h hanswered
      obtain ⟨hhoused, htidy⟩ := hcome
      refine ⟨⟨fun _ => hhoused.owned, wired_step h.wired, fun hup' => (htidy hup').mirrors⟩,
        hhoused.foreign, fun o ho => (hhoused.written o ho).imp_right fun htaken => ?_⟩
      simp only [used, if_pos hup, htaken, Option.map_some]
    · have hstep : step cfg w e = w := step_of_not_up hup
      simp only [Spares, WritesUsed, spoolStep, hstep]
      exact ⟨h, fun _ ho _ => ho, fun _ ho => Or.inl ho⟩
  | kill => exact ⟨spooled_of_down rfl, fun _ ho _ => ho, fun _ ho => Or.inl ho⟩
  | shutdown env =>
    by_cases hdown : w.status = .down
    · simp only [Spares, WritesUsed, spoolStep, if_pos hdown]
      exact ⟨h, fun _ ho _ => ho, fun _ ho => Or.inl ho⟩
    · have hswept := (swept_destroyNode hanswered (h.owned hdown)).1
      simp only [Spares, WritesUsed, spoolStep, if_neg hdown]
      exact ⟨spooled_of_down rfl, hswept.foreign, fun o ho => Or.inl (hswept.subset o ho)⟩
  | start env =>
    by_cases hdown : w.status = .down
    · obtain ⟨hswept, hempty, -, hmirrored⟩ := boot_spool (w := w) hanswered
      simp only [Spares, WritesUsed, spoolStep, if_pos hdown]
      refine ⟨⟨fun _ n p hp => ?_, fun _ => ?_, hmirrored hlisted⟩, hswept.foreign,
        fun o ho => Or.inl (hswept.subset o ho)⟩
      · rw [hempty] at hp
        cases hp
      · rw [hempty]
        exact wired_empty
    · simp only [Spares, WritesUsed, spoolStep, if_neg hdown]
      exact ⟨h, fun _ ho _ => ho, fun _ ho => Or.inl ho⟩
  | put offer =>
    exact ⟨⟨h.owned, h.wired, fun hup => (h.mirrored hup).put hanswered⟩, trivial, trivial⟩
  | take oid =>
    refine ⟨⟨h.owned, h.wired, fun hup => (h.mirrored hup).remove hanswered⟩, trivial,
      fun o ho => Or.inl (List.mem_filter.1 ho).1⟩

/-- The ids used so far: a dead process's, or the running one's, under
numbers it has counted up to. -/
def Numbered (ids : List (ℕ × OfferId)) (w : World) : Prop :=
  ids.Nodup ∧ ∀ c oid, (c, oid) ∈ ids → c < w.client ∨
    c = w.client ∧ (w.status = .up → ∃ time seq, oid.tail = .stamped time seq ∧
      seq ≤ w.mem.offerSeq)

/-- A callback counts on. -/
theorem Numbered.keep {ids : List (ℕ × OfferId)} (h : Numbered ids w)
    (hclient : w'.client = w.client)
    (hseq : w'.status = .up → w.status = .up ∧ w.mem.offerSeq ≤ w'.mem.offerSeq) :
    Numbered ids w' := by
  refine ⟨h.1, fun c oid hmem => ?_⟩
  rw [hclient]
  rcases h.2 c oid hmem with hlt | ⟨heq, hcount⟩
  · exact Or.inl hlt
  · refine Or.inr ⟨heq, fun hup => ?_⟩
    obtain ⟨time, seq, htail, hle⟩ := hcount (hseq hup).1
    exact ⟨time, seq, htail, hle.trans (hseq hup).2⟩

/-- An id under the next number is new. -/
theorem Numbered.add {ids : List (ℕ × OfferId)} {time : ℤ} (h : Numbered ids w)
    (hup : w.status = .up) (hclient : w'.client = w.client)
    (htail : oid.tail = .stamped time (w.mem.offerSeq + 1))
    (hseq : w'.status = .up → w.mem.offerSeq + 1 ≤ w'.mem.offerSeq) :
    Numbered (ids ++ [(w.client, oid)]) w' := by
  have hkept : Numbered ids w' := h.keep hclient fun hup' =>
    ⟨hup, (Nat.le_succ _).trans (hseq hup')⟩
  have hnew : ¬ (w.client, oid) ∈ ids := by
    intro hmem
    rcases h.2 _ _ hmem with hlt | ⟨-, hcount⟩
    · exact absurd hlt (Nat.lt_irrefl _)
    · obtain ⟨time', seq, htail', hle⟩ := hcount hup
      rw [htail] at htail'
      cases htail'
      omega
  refine ⟨hkept.1.append (List.nodup_singleton _) (by simpa using hnew), fun c oid' hmem => ?_⟩
  rcases List.mem_append.1 hmem with hmem | hmem
  · exact hkept.2 c oid' hmem
  · obtain ⟨rfl, rfl⟩ := Prod.mk.inj (List.mem_singleton.1 hmem)
    exact Or.inr ⟨hclient.symm, fun hup' => ⟨time, _, htail, hseq hup'⟩⟩

/-- A made-up id carries the next number. -/
theorem tail_of_taken (h : taken cfg w e = some oid) :
    ∃ time, oid.tail = .stamped time (w.mem.offerSeq + 1) := by
  cases e with
  | frame f env =>
    obtain ⟨m, -, hm⟩ := Option.bind_eq_some_iff.1 h
    split at hm
    · unfold takenBy at hm
      split at hm
      · cases hm
        exact ⟨_, rfl⟩
      · cases hm
    · cases hm
  | _ => cases h

/-- **No id is made up twice.** -/
theorem numbered_step {ids : List (ℕ × OfferId)} {l : SpoolEvent} (hids : Numbered ids w)
    (h : Spooled w) (hanswered : l.Answered) :
    Numbered (ids ++ (used cfg w l).toList) (spoolStep cfg w l) := by
  have hkeep : ∀ {w' : World}, w'.client = w.client → (w'.status = .up → w.status = .up ∧
      w.mem.offerSeq ≤ w'.mem.offerSeq) → Numbered (ids ++ []) w' := by
    intro w' hclient hseq
    rw [List.append_nil]
    exact hids.keep hclient hseq
  cases l with
  | callback e =>
    by_cases hup : w.status = .up
    · have hcome : Housed (taken cfg w e) w (step cfg w e) ∧
          ((step cfg w e).status = .up → Tidy (taken cfg w e) w (step cfg w e)) :=
        tidy_step hup h hanswered
      obtain ⟨hhoused, htidy⟩ := hcome
      simp only [used, if_pos hup, spoolStep]
      cases htaken : taken cfg w e with
      | none =>
        exact hkeep hhoused.client fun hup' => ⟨hup, (htidy hup').seq ▸ Nat.le_add_right _ _⟩
      | some oid =>
        obtain ⟨time, htail⟩ := tail_of_taken htaken
        refine hids.add hup hhoused.client htail fun hup' => ?_
        have hseq := (htidy hup').seq
        rw [htaken] at hseq
        exact hseq.ge
    · have hstep : step cfg w e = w := step_of_not_up hup
      simp only [used, if_neg hup, spoolStep, hstep]
      exact hkeep rfl fun hup' => absurd hup' hup
  | kill => exact hkeep rfl fun hup => by cases hup
  | shutdown env =>
    by_cases hdown : w.status = .down
    · simp only [used, spoolStep, if_pos hdown]
      exact hkeep rfl fun hup => ⟨hup, le_rfl⟩
    · simp only [used, spoolStep, if_neg hdown]
      exact hkeep (swept_destroyNode hanswered (h.owned hdown)).2 fun hup => by cases hup
  | start env =>
    by_cases hdown : w.status = .down
    · obtain ⟨-, -, hclient, -⟩ := boot_spool (w := w) hanswered
      simp only [used, spoolStep, if_pos hdown, Option.toList_none, List.append_nil]
      refine ⟨hids.1, fun c oid hmem => Or.inl ?_⟩
      rw [hclient]
      rcases hids.2 c oid hmem with hlt | ⟨heq, -⟩
      · omega
      · omega
    · simp only [used, spoolStep, if_neg hdown]
      exact hkeep rfl fun hup => ⟨hup, le_rfl⟩
  | put offer => exact hkeep rfl fun hup => ⟨hup, le_rfl⟩
  | take oid => exact hkeep rfl fun hup => ⟨hup, le_rfl⟩

/-- **The spool mirrors the pending table**, in every life of the
coordinator in which files that are there can be removed and a spool with
something of ours in it can be listed at a start; no process uses an id
twice, and nobody else's offers are removed. -/
theorem spool_mirrors_pending (cfg : Config) (d : Disk) (ls : List SpoolEvent)
    (hanswered : Run.Along (spoolStep cfg) (fun _ l => l.Answered) (World.off d) ls)
    (hlisted : Run.Along (spoolStep cfg) Listed (World.off d) ls) :
    Run.Throughout (spoolStep cfg) Mirrored (World.off d) ls ∧
      ((Run.shown (spoolStep cfg) (used cfg) (World.off d) ls).Nodup ∧
        Run.Along (spoolStep cfg) (WritesUsed cfg) (World.off d) ls) ∧
      Run.Along (spoolStep cfg) (Spares OfferId.Foreign cfg) (World.off d) ls := by
  have hfirst : Spooled (World.off d) := spooled_of_down rfl
  have hboth := hanswered.and hlisted
  have hstep : ∀ w l, Spooled w → l.Answered ∧ Listed w l → Spooled (spoolStep cfg w l) ∧
      Spares OfferId.Foreign cfg w l ∧ WritesUsed cfg w l := fun w l h hl =>
    spooled_step h hl.1 hl.2
  refine ⟨?_, ⟨?_, ?_⟩, ?_⟩
  · exact Run.throughout_of_along (fun w l h hl => (hstep w l h hl).1) (fun w h => h.mirrored)
      hfirst hboth
  · have hids : ∀ ids w l, Numbered ids w ∧ Spooled w → l.Answered ∧ Listed w l →
        Numbered (ids ++ (used cfg w l).toList) (spoolStep cfg w l) ∧
          Spooled (spoolStep cfg w l) := fun ids w l h hl =>
      ⟨numbered_step h.1 h.2 hl.1, (hstep w l h.2 hl).1⟩
    refine (Run.inv_shown (J := fun ids w => Numbered ids w ∧ Spooled w)
      (fun ids w l h hl hnone => ?_) (fun ids w l x h hl hsome => ?_)
      ⟨⟨List.nodup_nil, fun _ _ hmem => absurd hmem List.not_mem_nil⟩, hfirst⟩ hboth).1.1
    · have hnext := hids ids w l h hl
      rwa [hnone, Option.toList_none, List.append_nil] at hnext
    · have hnext := hids ids w l h hl
      rwa [hsome, Option.toList_some] at hnext
  · exact Run.along_of_inv (fun w l h hl => (hstep w l h hl).1)
      (fun w l h hl => (hstep w l h hl).2.2) hfirst hboth
  · exact Run.along_of_inv (fun w l h hl => (hstep w l h hl).1)
      (fun w l h hl => (hstep w l h hl).2.1) hfirst hboth

theorem unlinks_sample : sampleEnv.Unlinks := fun _ h => by cases h

/-- A process dies with a prompt up; the next one sweeps it and asks anew. -/
def diesAsking : List SpoolEvent :=
  [.start sampleEnv, .callback (.frame sampleRequest sampleEnv), .kill, .start sampleEnv,
    .callback (.frame sampleRerequest sampleEnv), .shutdown sampleEnv]

theorem spool_mirrors_pending_restarted :
    Run.Throughout (spoolStep sampleConfig) Mirrored (World.off .fresh) diesAsking ∧
      ((Run.shown (spoolStep sampleConfig) (used sampleConfig) (World.off .fresh)
          diesAsking).Nodup ∧
        Run.Along (spoolStep sampleConfig) (WritesUsed sampleConfig) (World.off .fresh)
          diesAsking) ∧
      Run.Along (spoolStep sampleConfig) (Spares OfferId.Foreign sampleConfig) (World.off .fresh)
        diesAsking :=
  spool_mirrors_pending sampleConfig .fresh diesAsking
    ⟨unlinks_sample, unlinks_sample, trivial, unlinks_sample, unlinks_sample, unlinks_sample,
      trivial⟩
    ⟨Or.inl rfl, trivial, trivial, Or.inl rfl, trivial, trivial, trivial⟩

/-- A spool with one file in it. -/
def Disk.holding (oid : OfferId) : Disk :=
  { Disk.fresh with offers := [⟨oid, "cluster", "", "1", 0, 30, 9000, true⟩] }

/-- The offer a dead process has left, and a file that is named after a
requester and nothing else. -/
def leftOver : OfferId := ⟨.ours .cluster, .stamped 0 1⟩

def namesake : OfferId := ⟨.ours .cluster, .bare⟩

/-- **The sweep is not exact.** A start that cannot list the spool leaves
the offer of a dead process in it, and one that can removes a file that is
not under a requester's prefix. -/
theorem sweep_is_not_exact :
    (Run.Along (spoolStep sampleConfig) (fun _ l => l.Answered) (World.off (.holding leftOver))
        [.start { sampleEnv with listOffers := false }] ∧
      ¬ Run.Throughout (spoolStep sampleConfig) Mirrored (World.off (.holding leftOver))
        [.start { sampleEnv with listOffers := false }]) ∧
    (Run.Along (spoolStep sampleConfig) (fun _ l => l.Answered) (World.off (.holding namesake))
        [.start sampleEnv] ∧
      ¬ Run.Along (spoolStep sampleConfig)
        (Spares (fun oid => ∀ name, ¬ oid.Carries name) sampleConfig)
        (World.off (.holding namesake)) [.start sampleEnv]) := by
  refine ⟨⟨⟨unlinks_sample, trivial⟩, fun h => ?_⟩, ⟨⟨unlinks_sample, trivial⟩, fun h => ?_⟩⟩
  · have hmirrors := h.last rfl .cluster
    revert hmirrors
    decide
  · have hgone : ∀ o, ¬ o ∈ (spoolStep sampleConfig (World.off (.holding namesake))
        (.start sampleEnv)).disk.offers := fun _ => List.not_mem_nil
    exact hgone _ (h.1 _ List.mem_cons_self fun name hcarries => hcarries.2 rfl)

end Coordinator

end VehicleStack
