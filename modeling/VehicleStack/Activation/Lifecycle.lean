import VehicleStack.Activation.Requests
import Mathlib.Logic.Function.Iterate

/-!
# Bringing the navigation up — with nodes that answer

What the script relies on is what `lifecycle_msgs` says of the two services:
a node that is there answers with its state, makes a transition from the
state it starts from, and stays as it is where it refuses one, as a
`configure` that times out does. `Answering` states that of the nodes,
whatever they are. A pass over a node that is not active uses up one refusal
or moves it one state on, so three passes take a node to active exactly
where its refusals leave room for the transitions it needs
(`activates_iff`).
-/

namespace VehicleStack

namespace Activation

open Callback

/-- A node: the label of its state, and how many more requests it refuses. -/
structure Standing where
  label : String
  refusals : ℕ
  deriving DecidableEq, Repr

/-- The label of the state that a transition leads to. -/
def Transition.goal : Transition → String
  | .configure => "inactive"
  | .activate => "active"

section Laws

variable {σ : Type}

/-- **What is assumed of the nodes**, where `standing` tells of each how it
stands. -/
structure Answering (nodes : Nodes σ) (standing : σ → String → Standing) : Prop where
  /-- A node answers with its state. -/
  answers : ∀ name s, (nodes.getState name s).1 = .answer (standing s name).label
  /-- To be asked for it changes nothing. -/
  looks : ∀ name s, standing (nodes.getState name s).2 = standing s
  /-- A node that refuses stays where it is. -/
  refuses : ∀ name tid s, 0 < (standing s name).refusals →
    (nodes.changeState name tid s).1 = .answer false ∧
      standing (nodes.changeState name tid s).2 = Function.update (standing s) name
        ⟨(standing s name).label, (standing s name).refusals - 1⟩
  /-- One that does not makes the transition from its own state. -/
  grants : ∀ name tid s, (standing s name).refusals = 0 →
    want (standing s name).label = some tid →
      (nodes.changeState name tid s).1 = .answer true ∧
        standing (nodes.changeState name tid s).2 =
          Function.update (standing s) name ⟨tid.goal, 0⟩

end Laws

/-- The refusals that three passes can do with. -/
def Standing.Manages (n : Standing) : Prop :=
  n.label = "active" ∨ n.label = "inactive" ∧ n.refusals ≤ 2 ∨
    n.label = "unconfigured" ∧ n.refusals ≤ 1

instance {n : Standing} : Decidable n.Manages := inferInstanceAs (Decidable (_ ∨ _ ∧ _ ∨ _ ∧ _))

/-! ## One node -/

variable {n : Standing}

/-- What a pass makes of a node. -/
def Standing.pass (n : Standing) : Standing :=
  match want n.label with
  | none => n
  | some tid => if 0 < n.refusals then ⟨n.label, n.refusals - 1⟩ else ⟨tid.goal, 0⟩

theorem pass_of_none (h : want n.label = none) : n.pass = n := by
  rw [Standing.pass, h]

theorem pass_of_active (h : n.label = "active") : n.pass = n :=
  pass_of_none (by rw [h]; rfl)

theorem pass_of_refusal {label : String} {r : ℕ} {tid : Transition} (h : want label = some tid) :
    Standing.pass ⟨label, r + 1⟩ = ⟨label, r⟩ := by
  rw [Standing.pass, h]
  rfl

theorem pass_of_grant {label : String} {tid : Transition} (h : want label = some tid) :
    Standing.pass ⟨label, 0⟩ = ⟨tid.goal, 0⟩ := by
  rw [Standing.pass, h]
  rfl

/-- A node that has nothing to be asked stays as it is. -/
theorem iterate_pass_of_none (h : want n.label = none) (k : ℕ) : Standing.pass^[k] n = n :=
  Function.iterate_fixed (pass_of_none h) k

theorem want_eq_none {label : String} (h : want label = none) :
    label ≠ "unconfigured" ∧ label ≠ "inactive" := by
  unfold want at h
  split at h
  · cases h
  · split at h
    · cases h
    · exact ⟨‹_›, ‹_›⟩

/-- **Three passes are enough exactly where the refusals leave room.** -/
theorem active_after_three : (Standing.pass^[3] n).label = "active" ↔ n.Manages := by
  obtain ⟨label, refusals⟩ := n
  have hinactive : want "inactive" = some .activate := by decide
  have hunconfigured : want "unconfigured" = some .configure := by decide
  have hne : "inactive" ≠ "active" ∧ "unconfigured" ≠ "active" ∧ "unconfigured" ≠ "inactive" := by
    decide
  obtain ⟨hne₁, hne₂, hne₃⟩ := hne
  have hiterate : ∀ m : Standing, Standing.pass^[3] m = m.pass.pass.pass := fun _ => rfl
  unfold Standing.Manages
  cases hwant : want label with
  | none =>
    obtain ⟨hnot, hnot'⟩ := want_eq_none hwant
    rw [iterate_pass_of_none hwant]
    simp [hnot, hnot']
  | some tid =>
    rw [hiterate]
    by_cases hlabel : label = "unconfigured"
    · subst hlabel
      obtain _ | _ | _ | r := refusals <;>
        simp [pass_of_refusal, pass_of_grant, hinactive, hunconfigured, Transition.goal, hne₂, hne₃,
          pass_of_active]
    · obtain rfl : label = "inactive" := by
        unfold want at hwant
        rw [if_neg hlabel] at hwant
        by_contra hother
        rw [if_neg hother] at hwant
        cases hwant
      obtain _ | _ | _ | r := refusals <;>
        simp [pass_of_refusal, pass_of_grant, hinactive, Transition.goal, hne₁, pass_of_active]

section Script

variable {σ : Type} {nodes : Nodes σ} {standing : σ → String → Standing} {w w' : World σ}
  {name : String} {names : List String} {E : Unit → World σ → Prop}

/-! ## The two services -/

/-- A node tells its state, and none changes. -/
theorem Answering.wp_stateOf (h : Answering nodes standing)
    {Q : Option String → World σ → Prop} (hQ : ∀ s, standing s = standing w.nodes →
      Q (some (standing w.nodes name).label)
        ⟨s, w.log ++ [.asked name (.answer (standing w.nodes name).label)]⟩) :
    wp (stateOf nodes name) Q E w := by
  simp only [stateOf, wp_bind, wp_get, wp_modify, h.answers]
  exact hQ _ (h.looks name w.nodes)

/-- A node that has just told its state, and is asked for the transition from
there, has had a pass. -/
theorem Answering.wp_transition (h : Answering nodes standing) {tid : Transition}
    {Q : Bool → World σ → Prop} (hwant : want (standing w.nodes name).label = some tid)
    (hQ : ∀ success s, standing s = Function.update (standing w.nodes) name
        (standing w.nodes name).pass →
      Q success ⟨s, w.log ++ [.changed name tid (.answer success)]⟩) :
    wp (transition nodes name tid) Q E w := by
  simp only [transition, wp_bind, wp_get, wp_modify]
  rcases Nat.eq_zero_or_pos (standing w.nodes name).refusals with hnone | hsome
  · obtain ⟨hreply, hnext⟩ := h.grants name tid w.nodes hnone hwant
    rw [hreply]
    refine hQ true _ (hnext.trans ?_)
    rw [Standing.pass, hwant]
    simp only [hnone, lt_irrefl, if_false]
  · obtain ⟨hreply, hnext⟩ := h.refuses name tid w.nodes hsome
    rw [hreply]
    refine hQ false _ (hnext.trans ?_)
    rw [Standing.pass, hwant]
    simp only [if_pos hsome]

/-! ## The first loop -/

/-- The node has been passed over `k` times and no other touched, and
nothing has been requested of a node that was active. -/
structure Passed (standing : σ → String → Standing) (k : ℕ) (name : String) (w w' : World σ) :
    Prop where
  nodes : standing w'.nodes =
    Function.update (standing w.nodes) name (Standing.pass^[k] (standing w.nodes name))
  idle : ∀ other ∈ requested w'.log, other ∈ requested w.log ∨
    other = name ∧ (standing w.nodes name).label ≠ "active"

/-- A node that is asked for nothing. -/
theorem passed_of_none {k : ℕ} {s : σ} {r : Reply String}
    (hs : standing s = standing w.nodes) (h : want (standing w.nodes name).label = none) :
    Passed standing k name w ⟨s, w.log ++ [.asked name r]⟩ := by
  refine ⟨?_, fun other hother => Or.inl ?_⟩
  · rw [iterate_pass_of_none h, Function.update_eq_self]
    exact hs
  · rwa [requested_asked] at hother

theorem Answering.wp_attempts (h : Answering nodes standing) {k : ℕ} :
    wp (attempts nodes name k) (fun _ => Passed standing k name w) (fun _ _ => False) w := by
  induction k generalizing w with
  | zero => exact ⟨(Function.update_eq_self _ _).symm, fun _ => Or.inl⟩
  | succ k ih =>
    simp only [attempts, wp_bind]
    refine h.wp_stateOf fun s hs => ?_
    simp only [wp_ite, wp_pure]
    split
    · rename_i hactive
      refine passed_of_none hs ?_
      rw [hactive]
      rfl
    rename_i hmoves
    cases hwant : want (standing w.nodes name).label with
    | none => exact passed_of_none hs hwant
    | some tid =>
      simp only [wp_bind]
      refine h.wp_transition (by rw [hs]; exact hwant) fun success s' hs' => ?_
      refine wp_mono ih (fun _ w' hrest => ?_) fun _ _ hrest => hrest
      rw [hs] at hs'
      refine ⟨?_, fun other hother => ?_⟩
      · have hnodes : standing w'.nodes =
            Function.update (standing s') name (Standing.pass^[k] (standing s' name)) := hrest.nodes
        rw [hnodes, hs', Function.update_self, Function.update_idem]
        rfl
      · rcases hrest.idle other hother with hsent | ⟨hname, -⟩
        · rw [requested_changed, requested_asked] at hsent
          rcases List.mem_append.1 hsent with hsent | hsent
          · exact Or.inl hsent
          · exact Or.inr ⟨List.mem_singleton.1 hsent, hmoves⟩
        · exact Or.inr ⟨hname, hmoves⟩

/-- The nodes of the list have had their passes. -/
structure Driven (standing : σ → String → Standing) (names : List String) (w w' : World σ) :
    Prop where
  nodes : ∀ name, standing w'.nodes name =
    if name ∈ names then Standing.pass^[3] (standing w.nodes name) else standing w.nodes name
  idle : ∀ name ∈ requested w'.log, name ∈ requested w.log ∨
    (standing w.nodes name).label ≠ "active"

theorem Answering.wp_drive (h : Answering nodes standing) (hnodup : names.Nodup) :
    wp (names.forM fun name => attempts nodes name 3) (fun _ => Driven standing names w)
      (fun _ _ => False) w := by
  induction names generalizing w with
  | nil => exact ⟨fun name => (if_neg List.not_mem_nil).symm, fun _ => Or.inl⟩
  | cons first rest ih =>
    change wp (attempts nodes first 3 >>= fun _ =>
      rest.forM fun name => attempts nodes name 3) _ _ w
    rw [wp_bind]
    refine wp_mono h.wp_attempts (fun _ w' hfirst => ?_) fun _ _ h => h
    refine wp_mono (ih hnodup.of_cons) (fun _ w'' hrest => ⟨fun name => ?_, fun name hname => ?_⟩)
      fun _ _ h => h
    · rw [hrest.nodes, hfirst.nodes]
      by_cases hname : name = first
      · subst hname
        rw [if_neg (List.nodup_cons.1 hnodup).1, if_pos List.mem_cons_self, Function.update_self]
      · rw [Function.update_of_ne hname]
        simp only [List.mem_cons, hname, false_or]
    · have hstill : (standing w'.nodes name).label ≠ "active" →
          (standing w.nodes name).label ≠ "active" := by
        intro hmoves hactive
        refine hmoves ?_
        rw [hfirst.nodes]
        by_cases hname : name = first
        · subst hname
          rw [Function.update_self, Function.iterate_fixed (pass_of_active hactive)]
          exact hactive
        · rw [Function.update_of_ne hname]
          exact hactive
      rcases hrest.idle name hname with hsent | hmoves
      · rcases hfirst.idle name hsent with hsent | ⟨rfl, hmoves⟩
        · exact Or.inl hsent
        · exact Or.inr hmoves
      · exact Or.inr (hstill hmoves)

/-! ## The script -/

/-- The second loop reads the states, and leaves them. -/
theorem Answering.wp_finalStates (h : Answering nodes standing) : wp (finalStates nodes names)
    (fun final w' => (standing w'.nodes = standing w.nodes ∧
        requested w'.log = requested w.log) ∧
      final = names.map fun name => (name, some (standing w.nodes name).label))
    (fun _ _ => False) w := by
  induction names generalizing w with
  | nil => exact ⟨⟨rfl, rfl⟩, rfl⟩
  | cons first rest ih =>
    simp only [finalStates, wp_bind]
    refine h.wp_stateOf fun s hs => ?_
    rw [wp_bind]
    refine wp_mono ih ?_ fun _ _ h => h
    rintro final w' ⟨⟨hnodes, hrequested⟩, rfl⟩
    refine ⟨⟨hnodes.trans hs, hrequested.trans requested_asked⟩, ?_⟩
    rw [hs]
    rfl

theorem missing_map (s : String → Standing) :
    (missing (ORDER.map fun name => (name, some (s name).label))).isEmpty = true ↔
      ∀ k ∈ REQUIRED, (s k).label = "active" := by
  have hlookup : ∀ k ∈ REQUIRED, (ORDER.map fun name =>
      (name, some (s name).label)).lookup k = some (some (s k).label) := by
    intro k hk
    simp only [REQUIRED, List.mem_cons, List.not_mem_nil, or_false] at hk
    rcases hk with rfl | rfl | rfl <;> rfl
  rw [missing, List.isEmpty_iff, List.filter_eq_nil_iff]
  refine forall₂_congr fun k hk => ?_
  rw [hlookup k hk, decide_eq_true_iff, not_not, Option.join_some, Option.some.injEq]

theorem Answering.wp_main (h : Answering nodes standing) (s : σ) : wp (main nodes)
    (fun code w' => Driven standing ORDER ⟨s, []⟩ w' ∧
      (code = 0 ↔ ∀ k ∈ REQUIRED, (standing w'.nodes k).label = "active"))
    (fun _ _ => False) ⟨s, []⟩ := by
  simp only [main, wp_bind]
  refine wp_mono (h.wp_drive (by decide)) (fun _ w' hdriven => ?_) fun _ _ h => h
  rw [wp_bind]
  refine wp_mono h.wp_finalStates ?_ fun _ _ h => h
  rintro final w'' ⟨⟨hnodes, hrequested⟩, rfl⟩
  have hdriven' : Driven standing ORDER ⟨s, []⟩ w'' := by
    refine ⟨fun name => ?_, fun name hname => ?_⟩
    · rw [hnodes]
      exact hdriven.nodes name
    · rw [hrequested] at hname
      exact hdriven.idle name hname
  simp only [wp_ite, wp_pure]
  split
  · rename_i hempty
    rw [missing_map, ← hnodes] at hempty
    exact ⟨hdriven', iff_of_true trivial hempty⟩
  · rename_i hleft
    rw [missing_map, ← hnodes] at hleft
    exact ⟨hdriven', iff_of_false Nat.one_ne_zero hleft⟩

/-- **What becomes active, and when the script says so.** Of nodes that
answer, those of `ORDER` are active afterwards exactly where their refusals
leave room for the transitions they need; the others are as they were, and
nothing is requested of a node that is active already. The exit code is 0
exactly where the three required nodes become active. -/
theorem activates_iff (nodes : Nodes σ) (standing : σ → String → Standing)
    (h : Answering nodes standing) (s : σ) :
    (∀ name ∈ ORDER, (standing (afterwards nodes s).nodes name).label = "active" ↔
        (standing s name).Manages) ∧
      (∀ name, name ∉ ORDER ∨ (standing s name).label = "active" →
        standing (afterwards nodes s).nodes name = standing s name) ∧
      (∀ name ∈ requested (afterwards nodes s).log, (standing s name).label ≠ "active") ∧
      (exitCode nodes s = 0 ↔ ∀ k ∈ REQUIRED, (standing s k).Manages) := by
  obtain ⟨code, w', hrun, hdriven, hcode⟩ := returns_of_wp (h.wp_main s)
  have hafter : afterwards nodes s = w' := by
    rw [afterwards, hrun]
  have hexit : exitCode nodes s = code := by
    rw [exitCode, hrun]
  have hmanages : ∀ name ∈ ORDER, (standing w'.nodes name).label = "active" ↔
      (standing s name).Manages := by
    intro name hname
    rw [hdriven.nodes, if_pos hname]
    exact active_after_three
  rw [hafter, hexit]
  refine ⟨hmanages, fun name hname => ?_, fun name hname => ?_, ?_⟩
  · rw [hdriven.nodes]
    split
    · rename_i hmem
      exact Function.iterate_fixed (pass_of_active (hname.resolve_left (not_not.2 hmem))) 3
    · rfl
  · exact (hdriven.idle name hname).resolve_left List.not_mem_nil
  · rw [hcode]
    refine forall₂_congr fun k hk => hmanages k ?_
    have hsub : REQUIRED ⊆ ORDER := by decide
    exact hsub hk

end Script

/-- Nodes that are no more than how they stand. -/
def sampleNodes : Nodes (String → Standing) where
  getState name s := (.answer (s name).label, s)
  changeState name tid s :=
    if 0 < (s name).refusals then
      (.answer false, Function.update s name ⟨(s name).label, (s name).refusals - 1⟩)
    else if want (s name).label = some tid then
      (.answer true, Function.update s name ⟨tid.goal, 0⟩)
    else (.answer false, s)

theorem answering_sample : Answering sampleNodes fun s => s where
  answers _ _ := rfl
  looks _ _ := rfl
  refuses name tid s h := by
    simp only [sampleNodes, if_pos h]
    exact ⟨trivial, trivial⟩
  grants name tid s h hwant := by
    simp only [sampleNodes, h, lt_irrefl, if_false, if_pos hwant]
    exact ⟨trivial, trivial⟩

/-- `configure` times out once at the controller, and at the smoother twice. -/
def slowStart (name : String) : Standing :=
  if name = "controller_server" then ⟨"unconfigured", 1⟩
  else if name = "smoother_server" then ⟨"unconfigured", 2⟩
  else ⟨"unconfigured", 0⟩

/-- The smoother stays behind, and the script is content. -/
theorem activates_iff_slowStart :
    ((afterwards sampleNodes slowStart).nodes "smoother_server").label ≠ "active" ∧
      exitCode sampleNodes slowStart = 0 := by
  obtain ⟨hactive, -, -, hcode⟩ := activates_iff sampleNodes (fun s => s) answering_sample slowStart
  have hsmoother : ¬ (slowStart "smoother_server").Manages := by decide
  have hrequired : ∀ k ∈ REQUIRED, (slowStart k).Manages := by decide
  exact ⟨fun h => hsmoother ((hactive _ (by decide)).1 h), hcode.2 hrequired⟩

end Activation

end VehicleStack
