import VehicleStack.Common.History
import VehicleStack.Coordinator.Sent

/-!
# The update coordinator — who holds the vehicle

A requester holds the vehicle while its last verdict is an approval that
neither its RUNNING nor the timeout has ended. The active set is written in
four places and is meant to say exactly this. A denial only declines to
write it: when the requester holds the vehicle by an earlier approval, the
entry stays (`denied_and_held`). In every run without such a denial the set
says what it means (`active_iff_held`).
-/

namespace VehicleStack

namespace Coordinator

open Callback SecOC History

variable {cfg : Config} {env : Env} {w : World} {e : Event} {name : Requester} {tr : List Obs}
  {o : Obs} {active : Dict Ecu ℚ} {slot : UInt8} {fv : ℤ} {t : ℚ}

/-- The entry settles anew whether the requester holds the vehicle. -/
def Obs.Settles (name : Requester) : Obs → Prop
  | .verdict n _ _ _ => n = name
  | .running n _ _ => n = name
  | .expired ecu => ecu = name.ecu
  | _ => False

/-- The last verdict to the requester was an APPROVE, and since then it has
neither reported RUNNING nor timed out. -/
def Held (name : Requester) (tr : List Obs) : Prop :=
  ∃ slot fv, Last (Obs.Settles name) (.verdict name true slot fv) tr

/-- The active set says which requesters hold the vehicle, by the verdicts
that have gone out on the bus. -/
def SaysHeld (cfg : Config) (w : World) : Prop :=
  Carried cfg w ∧
    (w.status = .up → ∀ name : Requester, name.ecu ∈ w.mem.activeEcus ↔ Held name w.trace)

/-- As far as the book goes. -/
def MeansHeld (active : Dict Ecu ℚ) (tr : List Obs) : Prop :=
  ∀ name : Requester, name.ecu ∈ active ↔ Held name tr

/-- No poll denies a requester that holds the vehicle. -/
def NoHolderDenied (cfg : Config) (w : World) : Event → Prop
  | .poll now envs => ∀ name ∈ w.mem.pending.keys, name.ecu ∈ w.mem.activeEcus →
      ∀ p, w.mem.pending.get? name = some p → decision cfg now (envs name) p ≠ some false
  | _ => True

instance : Decidable (NoHolderDenied cfg w e) :=
  match e with
  | .poll now envs => inferInstanceAs (Decidable (∀ name ∈ w.mem.pending.keys,
      name.ecu ∈ w.mem.activeEcus → ∀ p, w.mem.pending.get? name = some p →
        decision cfg now (envs name) p ≠ some false))
  | .frame _ _ | .drained _ | .timeout _ _ | .selfStart _ | .selfDone _ | .expireNotice _ _
  | .serviceDone _ _ => isTrue trivial

/-! ## One more entry -/

/-- **Holding, after one more entry.** -/
theorem held_snoc : Held name (tr ++ [o]) ↔
    (∃ slot fv, o = .verdict name true slot fv) ∨ Held name tr ∧ ¬ o.Settles name := by
  simp only [Held, last_snoc]
  constructor
  · rintro ⟨slot, fv, rfl | ⟨h, ho⟩⟩
    · exact Or.inl ⟨slot, fv, rfl⟩
    · exact Or.inr ⟨⟨slot, fv, h⟩, ho⟩
  · rintro (⟨slot, fv, rfl⟩ | ⟨⟨slot, fv, h⟩, ho⟩)
    · exact ⟨slot, fv, Or.inl rfl⟩
    · exact ⟨slot, fv, Or.inr ⟨h, ho⟩⟩

/-- An entry that settles nothing changes nothing. -/
theorem held_snoc_of_not (ho : ¬ o.Settles name) : Held name (tr ++ [o]) ↔ Held name tr := by
  rw [held_snoc]
  constructor
  · rintro (⟨slot, fv, rfl⟩ | h)
    · exact absurd rfl ho
    · exact h.1
  · exact fun h => Or.inr ⟨h, ho⟩

/-! ## What keeps the set true -/

theorem MeansHeld.snoc (h : MeansHeld active tr) (ho : ∀ name, ¬ o.Settles name) :
    MeansHeld active (tr ++ [o]) := fun name => (h name).trans (held_snoc_of_not (ho name)).symm

/-- An approval that is written down. -/
theorem MeansHeld.approve (h : MeansHeld active tr) :
    MeansHeld (active.set name.ecu t) (tr ++ [.verdict name true slot fv]) := by
  intro n
  rw [Dict.mem_set, held_snoc, ← h n, Requester.ecu_inj]
  by_cases hn : n = name
  · subst hn
    simp
  · simp [hn, Ne.symm hn, Obs.Settles]

/-- A denial of a requester that does not hold the vehicle. -/
theorem MeansHeld.deny (h : MeansHeld active tr) (hname : ¬ name.ecu ∈ active) :
    MeansHeld active (tr ++ [.verdict name false slot fv]) := by
  intro n
  rw [held_snoc, ← h n]
  by_cases hn : n = name
  · subst hn
    simp [hname, Obs.Settles]
  · simp [Ne.symm hn, Obs.Settles]

/-- A release, with the entry that says so. -/
theorem MeansHeld.release {ecu : Ecu} (h : MeansHeld active tr)
    (ho : ∀ name, o.Settles name ↔ name.ecu = ecu)
    (hno : ∀ name slot fv, o ≠ .verdict name true slot fv) :
    MeansHeld (active.erase ecu) (tr ++ [o]) := by
  intro n
  rw [Dict.mem_erase, held_snoc, ← h n, ho n]
  constructor
  · exact fun hmem => Or.inr ⟨hmem.2, hmem.1⟩
  · rintro (⟨slot, fv, heq⟩ | hmem)
    · exact absurd heq (hno n slot fv)
    · exact ⟨hmem.2, hmem.1⟩

/-- The self-update is no requester. -/
theorem MeansHeld.hold_jetson (h : MeansHeld active tr) : MeansHeld (active.set .jetson t) tr := by
  intro n
  rw [Dict.mem_set, ← h n]
  simp

theorem MeansHeld.release_jetson (h : MeansHeld active tr) :
    MeansHeld (active.erase .jetson) tr := by
  intro n
  rw [Dict.mem_erase, ← h n]
  simp

/-! ## Moves and runs -/

/-- **A move keeps the active set true**, where no holder is denied. -/
theorem Move.meansHeld {b b' : Book} (h : MeansHeld b.active b.trace)
    (hno : NoHolderDenied cfg w e) (hmove : Move cfg w e b b') :
    MeansHeld b'.active b'.trace := by
  cases hmove with
  | opened hm hasks => exact ((h.snoc fun _ => id).snoc fun _ => id).approve
  | unasked hm hasks => exact ((h.snoc fun _ => id).snoc fun _ => id).approve
  | asked hm hasks => exact h.snoc fun _ => id
  | completed hm =>
    refine h.release (fun n => ?_) fun _ _ _ h => by cases h
    simp only [Message.obs, Obs.Settles, Requester.ecu_inj]
    exact eq_comm
  | approved hw hb hactive hdec => exact (h.snoc fun _ => id).approve
  | @denied now envs name p b payload fv hw hb hactive hdec =>
    refine (h.snoc fun _ => id).deny fun hmem => ?_
    exact hno name (Dict.mem_of_get? hw) (hactive.1 hmem) p hw hdec
  | expired => exact h.release (fun _ => eq_comm) fun _ _ _ h => by cases h
  | selfStarted => exact h.hold_jetson
  | selfDone => exact h.release_jetson

/-- **The active set means what it says**, in every run of a process in
which no poll denies a requester that holds the vehicle. -/
theorem active_iff_held (cfg : Config) (d : Disk) (env : Env) (es : List Event)
    (h : Run.Along (step cfg) (NoHolderDenied cfg) (World.launch d env) es) :
    Run.Throughout (step cfg) (SaysHeld cfg) (World.launch d env) es := by
  refine Run.throughout_of_along (I := fun w => OnBus cfg w ∧
    Kept (fun b => MeansHeld b.active b.trace) (fun _ _ => True) w) ?_
    (fun w h => ⟨h.1.carried, fun hup => (h.2.2 hup).2⟩) ⟨onBus_launch, ?_⟩ h
  · exact fun w e hw hno => ⟨onBus_step hw.1, kept_step hw.2 (fun _ _ => trivial)
      (fun _ _ hb _ hmove => hmove.meansHeld hb hno) fun _ _ _ _ _ => trivial⟩
  · refine kept_launch trivial fun _ n => ?_
    simp [Held]

/-- The driver approves one request and, before the update reports, denies
none. -/
theorem active_iff_held_once :
    Run.Throughout (step sampleConfig) (SaysHeld sampleConfig) (World.launch .fresh {})
      [.frame sampleRequest sampleEnv, .poll 1 fun _ => sampleApproval,
        .frame sampleRunning sampleEnv] :=
  active_iff_held sampleConfig .fresh {} _ (by decide +kernel)

/-- The cluster is approved while no head unit is up, asks again, and the
driver denies it. -/
def deniedHolder : List Event :=
  [.frame sampleRequest {}, .frame sampleRerequest sampleEnv, .poll 1 fun _ => sampleDenial]

/-- **After the DENY the cluster still holds the vehicle.** -/
theorem denied_and_held :
    ¬ SaysHeld sampleConfig
      (Run.run (step sampleConfig) (World.launch .fresh {}) deniedHolder) := by
  rintro ⟨-, h⟩
  have hrun : (Run.run (step sampleConfig) (World.launch .fresh {}) deniedHolder).status = .up ∧
      Requester.cluster.ecu ∈ (Run.run (step sampleConfig) (World.launch .fresh {})
        deniedHolder).mem.activeEcus ∧
      (Run.run (step sampleConfig) (World.launch .fresh {}) deniedHolder).trace =
        [.request .cluster 1 1, .built 3 [1, 1] 1, .verdict .cluster true 1 1,
          .request .cluster 2 2, .built 3 [0, 2] 2] ++ [.verdict .cluster false 2 2] := by
    decide +kernel
  obtain ⟨hup, hmem, htr⟩ := hrun
  have hheld := (h hup .cluster).1 hmem
  rw [htr, held_snoc] at hheld
  rcases hheld with ⟨slot, fv, heq⟩ | ⟨-, hno⟩
  · cases heq
  · exact hno rfl

end Coordinator

end VehicleStack
