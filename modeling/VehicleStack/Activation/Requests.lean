import VehicleStack.Activation.Model
import VehicleStack.Common.History
import Mathlib.Data.List.Flatten

/-!
# Bringing the navigation up — what is requested of the nodes

Whatever the nodes answer, a transition is requested only of a node that has
just answered with the state it starts from, three times at most for a node,
and one node after the other in the order of `ORDER`. The exit code is 0
exactly where the last look has found the three required nodes active
(`requests_follow_answers`).
-/

namespace VehicleStack

namespace Activation

open Callback

variable {σ : Type} {nodes : Nodes σ} {w w' w'' : World σ} {name : String}
  {names names' : List String} {log : List Act}

/-! ## The requests of a log -/

/-- The label that `state_of` returns of a reply. -/
def labelOf : Reply String → Option String
  | .answer label => some label
  | _ => none

/-- The node that an act requests a transition of. -/
def Act.changedNode : Act → Option String
  | .asked _ _ => none
  | .changed name _ _ => some name

/-- The nodes that transitions are requested of, one for each request. -/
def requested (log : List Act) : List String := log.filterMap Act.changedNode

/-- The call's future holds an exception. -/
def Act.Raises : Act → Prop
  | .asked _ r => r = .raised
  | .changed _ _ r => r = .raised

/-- A transition is requested of a node that has just answered with the
state it starts from. -/
def Follows (before : List Act) : Act → Prop
  | .asked _ _ => True
  | .changed name tid _ => ∃ label, before.getLast? = some (.asked name (.answer label)) ∧
      want label = some tid

theorem requested_asked {r : Reply String} :
    requested (log ++ [.asked name r]) = requested log := by
  rw [requested, List.filterMap_append]
  exact List.append_nil _

theorem requested_changed {tid : Transition} {r : Reply Bool} :
    requested (log ++ [.changed name tid r]) = requested log ++ [name] := by
  rw [requested, List.filterMap_append]
  rfl

/-! ## The two services -/

theorem wp_stateOf {Q : Option String → World σ → Prop} {E : Unit → World σ → Prop}
    (hok : ∀ r s, r ≠ .raised → Q (labelOf r) ⟨s, w.log ++ [.asked name r]⟩)
    (hE : ∀ s, E () ⟨s, w.log ++ [.asked name .raised]⟩) : wp (stateOf nodes name) Q E w := by
  simp only [stateOf, wp_bind, wp_get, wp_modify]
  generalize nodes.getState name w.nodes = r
  obtain ⟨reply, s⟩ := r
  cases reply with
  | noService => exact hok .noService s nofun
  | noAnswer => exact hok .noAnswer s nofun
  | raised => exact hE s
  | answer label => exact hok (.answer label) s nofun

theorem wp_transition {tid : Transition} {Q : Bool → World σ → Prop} {E : Unit → World σ → Prop}
    (hok : ∀ success r s, Q success ⟨s, w.log ++ [.changed name tid r]⟩)
    (hE : ∀ s, E () ⟨s, w.log ++ [.changed name tid .raised]⟩) :
    wp (transition nodes name tid) Q E w := by
  simp only [transition, wp_bind, wp_get, wp_modify]
  generalize nodes.changeState name tid w.nodes = r
  obtain ⟨reply, s⟩ := r
  cases reply with
  | noService => exact hok false .noService s
  | noAnswer => exact hok false .noAnswer s
  | raised => exact hE s
  | answer success => exact hok success (.answer success) s

/-! ## The first loop -/

/-- From `w` to `w'` the requests are among those for `names`, in order, and
each follows an answer. -/
structure Requested (names : List String) (w w' : World σ) : Prop where
  follows : History.AtEach Follows w.log → History.AtEach Follows w'.log
  sent : ∃ sent, sent.Sublist names ∧ requested w'.log = requested w.log ++ sent

theorem requested_refl : Requested names w w :=
  ⟨id, [], List.nil_sublist _, (List.append_nil _).symm⟩

theorem Requested.mono (h : Requested names w w') (hsub : names.Sublist names') :
    Requested names' w w' := by
  obtain ⟨sent, hsent, heq⟩ := h.sent
  exact ⟨h.follows, sent, hsent.trans hsub, heq⟩

theorem Requested.trans (h : Requested names w w') (h' : Requested names' w' w'') :
    Requested (names ++ names') w w'' := by
  obtain ⟨sent, hsent, heq⟩ := h.sent
  obtain ⟨sent', hsent', heq'⟩ := h'.sent
  refine ⟨fun hw => h'.follows (h.follows hw), sent ++ sent', hsent.append hsent', ?_⟩
  rw [heq', heq, List.append_assoc]

theorem requested_of_asked {r : Reply String} {s : σ} :
    Requested names w ⟨s, w.log ++ [.asked name r]⟩ := by
  have hasked : Follows w.log (.asked name r) := trivial
  exact ⟨fun hw => hw.snoc hasked, [], List.nil_sublist _, by rw [requested_asked, List.append_nil]⟩

/-- A request, right after the answer that wants it. -/
theorem requested_of_changed {tid : Transition} {r : Reply Bool} {s' : σ} {label : String}
    (hwant : want label = some tid) : Requested [name] w
      ⟨s', w.log ++ [.asked name (.answer label)] ++ [.changed name tid r]⟩ := by
  have hasked : Follows w.log (.asked name (.answer label)) := trivial
  refine ⟨fun hw => (hw.snoc hasked).snoc ⟨label, List.getLast?_concat, hwant⟩, [name],
    List.Sublist.refl _, ?_⟩
  rw [requested_changed, requested_asked]

/-- The act that has ended the run. -/
def Stopped (w : World σ) : Prop := ∃ a, w.log.getLast? = some a ∧ a.Raises

/-- **The passes over one node.** -/
theorem wp_attempts {k : ℕ} : wp (attempts nodes name k)
    (fun _ w' => Requested (List.replicate k name) w w')
    (fun _ w' => Requested (List.replicate k name) w w' ∧ Stopped w') w := by
  induction k generalizing w with
  | zero => exact requested_refl
  | succ k ih =>
    have hone : [name].Sublist (List.replicate (k + 1) name) :=
      List.singleton_sublist.2 List.mem_cons_self
    simp only [attempts, wp_bind]
    refine wp_stateOf (fun r s _ => ?_) fun s =>
      ⟨requested_of_asked, _, List.getLast?_concat, rfl⟩
    cases hr : labelOf r with
    | none => exact requested_of_asked
    | some label =>
      obtain rfl : r = .answer label := by
        cases r <;> first | cases hr; rfl | cases hr
      simp only [wp_ite, wp_pure]
      split
      · exact requested_of_asked
      cases hwant : want label with
      | none => exact requested_of_asked
      | some tid =>
        simp only [wp_bind]
        refine wp_transition (fun _ reply s' => ?_) fun s' =>
          ⟨(requested_of_changed hwant).mono hone, _, List.getLast?_concat, rfl⟩
        refine wp_mono ih (fun _ w' h => ?_) fun _ w' h => ⟨?_, h.2⟩
        · exact (requested_of_changed hwant).trans h
        · exact (requested_of_changed hwant).trans h.1

/-- **And over all of them.** -/
theorem wp_drive : wp (names.forM fun name => attempts nodes name 3)
    (fun _ w' => Requested (names.flatMap (List.replicate 3)) w w')
    (fun _ w' => Requested (names.flatMap (List.replicate 3)) w w' ∧ Stopped w') w := by
  induction names generalizing w with
  | nil => exact requested_refl
  | cons name rest ih =>
    change wp (attempts nodes name 3 >>= fun _ => rest.forM fun name => attempts nodes name 3) _ _ w
    rw [wp_bind, List.flatMap_cons]
    refine wp_mono wp_attempts (fun _ w' h => ?_) fun _ w' h =>
      ⟨h.1.mono (List.sublist_append_left _ _), h.2⟩
    exact wp_mono ih (fun _ w'' h' => h.trans h') fun _ w'' h' => ⟨h.trans h'.1, h'.2⟩

/-! ## The last look -/

/-- The acts of the second loop, and what it fills `final` with. -/
def looks (names : List String) (replies : List (Reply String)) : List Act :=
  List.zipWith Act.asked names replies

def finalOf (names : List String) (replies : List (Reply String)) :
    List (String × Option String) :=
  List.zipWith (fun name r => (name, labelOf r)) names replies

/-- What each of these nodes has answered, none of them with an exception. -/
structure Answered (names : List String) (replies : List (Reply String)) : Prop where
  length : replies.length = names.length
  calm : ∀ r ∈ replies, r ≠ .raised

theorem wp_finalStates : wp (finalStates nodes names)
    (fun final w' => ∃ replies, Answered names replies ∧ w'.log = w.log ++ looks names replies ∧
      final = finalOf names replies)
    (fun _ w' => Requested [] w w' ∧ Stopped w') w := by
  induction names generalizing w with
  | nil => exact ⟨[], ⟨rfl, nofun⟩, (List.append_nil _).symm, rfl⟩
  | cons name rest ih =>
    simp only [finalStates, wp_bind]
    refine wp_stateOf (fun r s hr => ?_) fun s =>
      ⟨requested_of_asked, _, List.getLast?_concat, rfl⟩
    rw [wp_bind]
    refine wp_mono ih ?_ fun _ w' h =>
      ⟨(requested_of_asked : Requested [] w _).trans h.1, h.2⟩
    rintro final w' ⟨replies, hanswered, hlog, rfl⟩
    refine ⟨r :: replies, ⟨congrArg (· + 1) hanswered.length, ?_⟩, ?_, rfl⟩
    · exact List.forall_mem_cons.2 ⟨hr, hanswered.calm⟩
    · rw [hlog, looks, looks, List.zipWith_cons_cons, List.append_assoc]
      rfl

theorem exists_of_mem_looks {replies : List (Reply String)} {a : Act}
    (h : a ∈ looks names replies) : ∃ name ∈ names, ∃ r ∈ replies, a = .asked name r := by
  unfold looks at h
  obtain ⟨i, hi, rfl⟩ := List.getElem_of_mem h
  rw [List.getElem_zipWith]
  exact ⟨_, List.getElem_mem _, _, List.getElem_mem _, rfl⟩

/-- An entry of `final` is what its node has answered. -/
theorem lookup_finalOf {label : String} (hnodup : names.Nodup) :
    ∀ replies : List (Reply String), replies.length = names.length →
      (((finalOf names replies).lookup name).join = some label ↔
        Act.asked name (.answer label) ∈ looks names replies) := by
  have hlabel : ∀ r, labelOf r = some label ↔ r = .answer label := by
    intro r
    cases r <;> simp [labelOf]
  induction names with
  | nil =>
    intro replies hlength
    simp [finalOf, looks]
  | cons first rest ih =>
    intro replies hlength
    obtain ⟨r, replies, rfl⟩ := List.exists_cons_of_length_eq_add_one hlength
    have htail := ih hnodup.of_cons replies (Nat.succ.inj hlength)
    rw [finalOf, looks, List.zipWith_cons_cons, List.zipWith_cons_cons, List.lookup_cons]
    by_cases hname : name = first
    · subst hname
      have hnot : Act.asked name (.answer label) ∉ List.zipWith Act.asked rest replies :=
        fun hmem => by
          obtain ⟨n, hn, r', -, heq⟩ := exists_of_mem_looks hmem
          obtain ⟨rfl, -⟩ := Act.asked.inj heq
          exact (List.nodup_cons.1 hnodup).1 hn
      rw [beq_self_eq_true, List.mem_cons]
      simp only [Option.join_some, hlabel, hnot, or_false, Act.asked.injEq, true_and]
      exact eq_comm
    · rw [beq_eq_false_iff_ne.2 hname, List.mem_cons]
      have hne : Act.asked name (.answer label) ≠ .asked first r := fun heq =>
        hname (Act.asked.inj heq).1
      exact htail.trans (or_iff_right hne).symm

theorem missing_isEmpty {replies : List (Reply String)} (hlength : replies.length = ORDER.length) :
    (missing (finalOf ORDER replies)).isEmpty = true ↔
      ∀ k ∈ REQUIRED, Act.asked k (.answer "active") ∈ looks ORDER replies := by
  rw [missing, List.isEmpty_iff, List.filter_eq_nil_iff]
  refine forall₂_congr fun k _ => ?_
  rw [← lookup_finalOf (by decide) replies hlength, decide_eq_true_iff, not_not]

/-! ## The script -/

/-- The last seven acts of the log are a look at every node, and it finds
the required ones active. -/
def EndsActive (log : List Act) : Prop :=
  ∃ earlier replies, log = earlier ++ looks ORDER replies ∧ Answered ORDER replies ∧
    ∀ k ∈ REQUIRED, Act.asked k (.answer "active") ∈ looks ORDER replies

/-- A log that an exception has ended does not. -/
theorem not_endsActive (h : Stopped w) : ¬ EndsActive w.log := by
  rintro ⟨earlier, replies, hlog, hanswered, -⟩
  obtain ⟨a, hlast, hraises⟩ := h
  have hmem : a ∈ looks ORDER replies := by
    have hlen : (looks ORDER replies).length = 7 := by
      rw [looks, List.length_zipWith, hanswered.length, Nat.min_self]
      rfl
    rw [hlog, List.getLast?_append] at hlast
    have hsome := List.getLast?_isSome.2
      (List.ne_nil_of_length_pos (by omega : 0 < (looks ORDER replies).length))
    obtain ⟨b, hb⟩ := Option.isSome_iff_exists.1 hsome
    rw [hb, Option.some_or] at hlast
    obtain rfl := Option.some.inj hlast
    exact List.mem_of_getLast? hb
  obtain ⟨name, -, r, hr, rfl⟩ := exists_of_mem_looks hmem
  exact hanswered.calm r hr hraises

/-- What a log says of the requests made. -/
def WellRequested (log : List Act) : Prop :=
  History.AtEach Follows log ∧ (requested log).Sublist (ORDER.flatMap (List.replicate 3))

/-- **The whole script.** -/
theorem wp_main (nodes : Nodes σ) (s : σ) : wp (main nodes)
    (fun code w' => WellRequested w'.log ∧ (code = 0 ↔ EndsActive w'.log))
    (fun _ w' => WellRequested w'.log ∧ Stopped w') ⟨s, []⟩ := by
  have hwell : ∀ {names : List String} {w' : World σ}, Requested names ⟨s, []⟩ w' →
      names.Sublist (ORDER.flatMap (List.replicate 3)) → WellRequested w'.log := by
    intro names w' h hsub
    obtain ⟨sent, hsent, heq⟩ := h.sent
    refine ⟨h.follows History.atEach_nil, ?_⟩
    rw [heq]
    exact hsent.trans hsub
  simp only [main, wp_bind]
  refine wp_mono wp_drive (fun _ w' h => ?_) fun _ w' h => ⟨hwell h.1 (List.Sublist.refl _), h.2⟩
  rw [wp_bind]
  refine wp_mono wp_finalStates ?_ fun _ w'' h' => ⟨?_, h'.2⟩
  · rintro final w'' ⟨replies, hanswered, hlog, rfl⟩
    have hlooked : Requested [] w' w'' := by
      have hnone : requested (looks ORDER replies) = [] := by
        rw [requested, List.filterMap_eq_nil_iff]
        intro a ha
        obtain ⟨name, -, r, -, rfl⟩ := exists_of_mem_looks ha
        rfl
      refine ⟨fun hw => ?_, [], List.Sublist.refl _, ?_⟩
      · rw [hlog]
        refine hw.append fun a ha before => ?_
        obtain ⟨name, -, r, -, rfl⟩ := exists_of_mem_looks ha
        trivial
      · rw [hlog, requested, List.filterMap_append]
        exact congrArg _ hnone
    have hrequests : WellRequested w''.log :=
      hwell (h.trans hlooked) (by rw [List.append_nil])
    have hcode : (missing (finalOf ORDER replies)).isEmpty = true ↔ EndsActive w''.log := by
      rw [missing_isEmpty hanswered.length]
      constructor
      · exact fun hactive => ⟨w'.log, replies, hlog, hanswered, hactive⟩
      · rintro ⟨earlier, replies', hlog', hanswered', hactive⟩
        have hlen : (looks ORDER replies).length = (looks ORDER replies').length := by
          rw [looks, looks, List.length_zipWith, List.length_zipWith, hanswered.length,
            hanswered'.length]
        have hsame : looks ORDER replies = looks ORDER replies' :=
          (List.append_inj' (hlog.symm.trans hlog') hlen).2
        rwa [hsame]
    simp only [wp_ite, wp_pure]
    split
    · rename_i hempty
      exact ⟨hrequests, iff_of_true trivial (hcode.1 hempty)⟩
    · rename_i hleft
      exact ⟨hrequests, iff_of_false Nat.one_ne_zero fun hends => hleft (hcode.2 hends)⟩
  · exact hwell (h.trans h'.1) (by rw [List.append_nil])

/-- **Requests follow answers, whoever answers.** A transition is requested
of a node that has just answered with the state it starts from, at most
three times for each node, and of the nodes in their order; and the script
exits with 0 exactly where its last look at them has found the required ones
active. -/
theorem requests_follow_answers (nodes : Nodes σ) (s : σ) :
    History.AtEach Follows (afterwards nodes s).log ∧
      (requested (afterwards nodes s).log).Sublist (ORDER.flatMap (List.replicate 3)) ∧
      (exitCode nodes s = 0 ↔ EndsActive (afterwards nodes s).log) := by
  have hmain := wp_main nodes s
  unfold wp at hmain
  unfold afterwards exitCode
  cases hrun : main nodes ⟨s, []⟩ with
  | ok code w' =>
    rw [hrun] at hmain
    exact ⟨hmain.1.1, hmain.1.2, hmain.2⟩
  | error e w' =>
    rw [hrun] at hmain
    exact ⟨hmain.1.1, hmain.1.2, iff_of_false Nat.one_ne_zero (not_endsActive hmain.2)⟩

end Activation

end VehicleStack
