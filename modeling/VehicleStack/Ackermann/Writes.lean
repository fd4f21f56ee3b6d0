import VehicleStack.Ackermann.Reads
import VehicleStack.Common.History
import VehicleStack.Common.Run
import Mathlib.Data.List.DropRight

/-!
# The drive — failed writes

Each cycle of `write` sends two frames, and when one of them fails the
cycle is put in one of two classes by a flag that only the second send
leaves behind. So a steering frame that fails hard beside a motor frame
that finds the queue full passes for congestion, and one that finds the
queue full beside a motor frame that is sent counts towards bus-off
(`sent_motor_counts`); `bus_off_iff` says when the classes are right.

The counters of the two classes work against each other. The counter of
failed cycles is meant to go back for a cycle that succeeds, and a congested
one, which has failed, sets it back too; a failed one does not move the
other. So a transmit path that takes nothing any more can stay silent for
longer than either limit (`ninety_stay_silent`). `ninety_surface_iff` says
for which mixtures of failures ninety cycles are enough, and `surfaces_iff`
that 450 are for every mixture, and no fewer.
-/

namespace VehicleStack

namespace Ackermann

open History

/-! ## Cycles -/

/-- The send has failed, and not for a moment only. -/
def WriteOutcome.isHard : WriteOutcome → Bool
  | none => false
  | some errno => !errno.transient

/-- The send has found the queue full, or was interrupted. -/
def WriteOutcome.isTransient : WriteOutcome → Bool
  | none => false
  | some errno => errno.transient

/-- One `write` on an open socket: what became of its two sends, and what it
came to. -/
structure Cycle where
  steering : WriteOutcome
  motor : WriteOutcome
  ret : WriteReturn
  deriving DecidableEq, Repr

/-- Some send of the cycle has failed. -/
def Cycle.someFailed (c : Cycle) : Bool := c.steering.isSome || c.motor.isSome

/-- Some send of the cycle has failed hard. -/
def Cycle.someHard (c : Cycle) : Bool := c.steering.isHard || c.motor.isHard

/-- Some send has failed, and the motor's has not found the queue full. -/
def Cycle.counted (c : Cycle) : Bool := c.someFailed && !c.motor.isTransient

section Runs

variable {K : Type} [Field K] [LinearOrder K] (num : Numerics K)

/-- The cycle an event is, if it is one. -/
def cycleOf (s : System K) : Event K → Option Cycle
  | .write steering motor =>
    if s.canComms.connected then some ⟨steering, motor, (write num s steering motor).1⟩ else none
  | _ => none

/-- The cycles of a run. -/
def cycles (s : System K) (es : List (Event K)) : List Cycle :=
  Run.shown (step num) (cycleOf num) s es

end Runs

/-! ## What is meant to hold -/

/-- Bus-off is reported for five cycles with a hard failure each, and no
cycle with a hard failure is taken for congestion. -/
structure Classed (before : List Cycle) (c : Cycle) : Prop where
  busOff : c.ret = .busOff →
    Lately (fun c => c.someHard = true) CAN_WRITE_FAILURE_LIMIT (before ++ [c])
  congestion : c.someHard = true → c.ret ≠ .congested ∧ c.ret ≠ .wedged

/-- The motor frame tells the class of the cycle: it does not find the queue
full beside a steering frame that fails hard; and five cycles that failed
in a row, none of them for a full queue at the motor frame, each had a hard
failure. -/
structure ToldByMotor (before : List Cycle) (c : Cycle) : Prop where
  congestion : c.steering.isHard = true → c.motor.isTransient = false
  busOff : Lately (fun c => c.counted = true) CAN_WRITE_FAILURE_LIMIT (before ++ [c]) →
    Lately (fun c => c.someHard = true) CAN_WRITE_FAILURE_LIMIT (before ++ [c])

/-- Of `n` cycles in a row with a failed send each, one has returned
`ERROR`. -/
def Surfaces (n : ℕ) (cs : List Cycle) : Prop :=
  ∀ older w newer, cs = older ++ w ++ newer → w.length = n → (∀ c ∈ w, c.someFailed = true) →
    ∃ c ∈ w, c.ret.code = .ERROR

/-- The congested cycles since both frames were last sent. -/
def congestedSince (cs : List Cycle) : ℕ :=
  (cs.rtakeWhile Cycle.someFailed).countP fun c => c.motor.isTransient

/-- The cycle comes to one of the two limits: it ends five in a row with a
failed send and a motor frame that has not found the queue full, or its
motor frame has found it full, for the ninetieth time at least since both
frames were last sent. -/
def AtLimit (before : List Cycle) (c : Cycle) : Prop :=
  Lately (fun c => c.counted = true) CAN_WRITE_FAILURE_LIMIT (before ++ [c]) ∨
    c.motor.isTransient = true ∧ CAN_WRITE_CONGESTION_LIMIT ≤ congestedSince (before ++ [c])

/-- Of `n` cycles in a row with a failed send each, one comes to a limit. -/
def ComesToLimit (n : ℕ) (cs : List Cycle) : Prop :=
  ∀ older w newer, cs = older ++ w ++ newer → w.length = n → (∀ c ∈ w, c.someFailed = true) →
    ∃ w₁ c w₂, w = w₁ ++ c :: w₂ ∧ AtLimit (older ++ w₁) c

/-! ## What a cycle does to the counters -/

section Counters

variable {K : Type} [Field K] [LinearOrder K] {num : Numerics K} {s : System K} {e : Event K}
  {es : List (Event K)} {steering motor : WriteOutcome} {cs : List Cycle}

/-- **What a cycle comes to, and what it makes of the counters.** -/
structure Tallied (s s' : System K) (c : Cycle) : Prop where
  congested : c.motor.isTransient = true →
    s'.canWriteFailures = 0 ∧ s'.canWriteCongestion = s.canWriteCongestion + 1 ∧
      c.ret = if CAN_WRITE_CONGESTION_LIMIT ≤ s.canWriteCongestion + 1 then .wedged else .congested
  counted : c.counted = true →
    s'.canWriteFailures = s.canWriteFailures + 1 ∧ s'.canWriteCongestion = s.canWriteCongestion ∧
      c.ret = if CAN_WRITE_FAILURE_LIMIT ≤ s.canWriteFailures + 1 then .busOff else .failed
  sent : c.someFailed = false →
    s'.canWriteFailures = 0 ∧ s'.canWriteCongestion = 0 ∧ c.ret = .sent

theorem tallied_write (h : s.canComms.connected = true) :
    Tallied s (write num s steering motor).2.2
      ⟨steering, motor, (write num s steering motor).1⟩ := by
  simp only [write, h, CanComms.setSteering, CanComms.setMotorValues, CanComms.send, countFailure]
  cases motor with
  | none =>
    cases steering with
    | none => constructor <;> simp [Cycle.counted, Cycle.someFailed, WriteOutcome.isTransient]
    | some errno =>
      constructor <;> simp [Cycle.counted, Cycle.someFailed, WriteOutcome.isTransient]
  | some errno =>
    cases htr : errno.transient <;> cases steering <;> constructor <;>
      simp [Cycle.counted, Cycle.someFailed, WriteOutcome.isTransient, htr]

/-- Reading does not count. -/
theorem counters_read {frames : List Received} {period : K} :
    (read num s frames period).2.canWriteFailures = s.canWriteFailures ∧
      (read num s frames period).2.canWriteCongestion = s.canWriteCongestion := by
  cases hconn : s.canComms.connected with
  | false => simp [read_of_closed num frames period hconn]
  | true =>
    obtain ⟨s', hsame, hread⟩ := read_eq num frames period hconn
    obtain ⟨hfail, hcong, -⟩ := readOdometry_fields s' (drained num frames).gotEnc
      (drained num frames).lEnc (drained num frames).rEnc period
    rw [hread]
    exact ⟨hfail.trans hsame.canWriteFailures, hcong.trans hsame.canWriteCongestion⟩

theorem tallied_step {c : Cycle} (h : cycleOf num s e = some c) : Tallied s (step num s e) c := by
  cases e with
  | write steering motor =>
    simp only [cycleOf] at h
    split at h
    · rename_i hconn
      obtain rfl := Option.some.inj h
      exact tallied_write hconn
    · cases h
  | configure | cleanup | activate | deactivate | read | command => cases h

/-- Nothing but a cycle moves the counters. -/
theorem counters_step (h : cycleOf num s e = none) :
    (step num s e).canWriteFailures = s.canWriteFailures ∧
      (step num s e).canWriteCongestion = s.canWriteCongestion := by
  cases e with
  | configure connects => exact ⟨rfl, rfl⟩
  | cleanup => exact ⟨rfl, rfl⟩
  | activate reset steering =>
    simp only [step, respond, onActivate]
    split <;> exact ⟨rfl, rfl⟩
  | deactivate motor steering =>
    simp only [step, respond, onDeactivate]
    split <;> exact ⟨rfl, rfl⟩
  | read frames period => exact counters_read
  | write steering motor =>
    have hconn : s.canComms.connected = false := by simpa [cycleOf] using h
    simp only [step, respond, write, hconn]
    exact ⟨rfl, rfl⟩
  | command port value => cases port <;> exact ⟨rfl, rfl⟩

/-- **The run rule for cycles.** `J` relates the cycles so far to the
component. -/
theorem inv_cycles (num : Numerics K) (es : List (Event K)) {J : List Cycle → System K → Prop}
    (hother : ∀ cs s e, J cs s → cycleOf num s e = none → J cs (step num s e))
    (hcycle : ∀ cs s e c, J cs s → cycleOf num s e = some c → J (cs ++ [c]) (step num s e))
    (h0 : J [] s) : J (cycles num s es) (Run.run (step num) s es) :=
  Run.inv_shown (P := fun _ _ => True) (fun cs s e hJ _ => hother cs s e hJ)
    (fun cs s e c hJ _ => hcycle cs s e c hJ) h0 (Run.along_of_forall fun _ _ => trivial)

/-! ## The classes -/

theorem Cycle.someFailed_of_counted {c : Cycle} (h : c.counted = true) : c.someFailed = true := by
  simp only [Cycle.counted, Bool.and_eq_true] at h
  exact h.1

/-- A cycle is congested, counted, or sent. -/
theorem Cycle.trichotomy (c : Cycle) :
    c.motor.isTransient = true ∨ c.counted = true ∨ c.someFailed = false := by
  simp only [Cycle.counted]
  cases c.motor.isTransient <;> cases c.someFailed <;> simp

theorem Cycle.someFailed_of_transient {c : Cycle} (h : c.motor.isTransient = true) :
    c.someFailed = true := by
  obtain ⟨steering, motor, ret⟩ := c
  cases motor with
  | none => cases h
  | some errno => simp [Cycle.someFailed]

/-- The motor frame of a cycle that counts has not found the queue full. -/
theorem Cycle.not_transient_of_counted {c : Cycle} (h : c.counted = true) :
    ¬ c.motor.isTransient = true := by
  simp only [Cycle.counted, Bool.and_eq_true, Bool.not_eq_true'] at h
  simp [h.2]

/-- Nor has that of a cycle that is sent. -/
theorem Cycle.not_transient_of_sent {c : Cycle} (h : c.someFailed = false) :
    ¬ c.motor.isTransient = true := by
  intro htr
  rw [Cycle.someFailed_of_transient htr] at h
  cases h

/-- A send that finds the queue full has not failed hard. -/
theorem WriteOutcome.not_hard {r : WriteOutcome} (h : r.isTransient = true) : r.isHard = false := by
  cases r with
  | none => rfl
  | some errno => simpa [WriteOutcome.isHard, WriteOutcome.isTransient] using h

/-- What is known of a cycle that the counters have classed. -/
structure Known (before : List Cycle) (c : Cycle) : Prop where
  congestion : c.motor.isTransient = true ↔ c.ret = .congested ∨ c.ret = .wedged
  busOff : c.ret = .busOff ↔
    Lately (fun c => c.counted = true) CAN_WRITE_FAILURE_LIMIT (before ++ [c])

/-- `can_write_failures_` is how many of the latest cycles have counted. -/
def FailuresCounted (cs : List Cycle) (s : System K) : Prop :=
  ∀ n, Lately (fun c => c.counted = true) n cs ↔ n ≤ s.canWriteFailures

theorem FailuresCounted.cycle {c : Cycle} (h : FailuresCounted cs s)
    (hc : cycleOf num s e = some c) :
    Known cs c ∧ FailuresCounted (cs ++ [c]) (step num s e) := by
  have htally := tallied_step hc
  -- each class of cycle moves the counter its own way
  rcases c.trichotomy with htr | hcount | hsent
  · obtain ⟨hf, -, hret⟩ := htally.congested htr
    have hno : ¬ c.counted = true := by simp [Cycle.counted, htr]
    refine ⟨⟨⟨fun _ => ?_, fun _ => htr⟩, ?_⟩, fun n => ?_⟩
    · rw [hret]
      split <;> simp
    · rw [hret, CAN_WRITE_FAILURE_LIMIT, lately_snoc]
      split <;> simp [hno]
    · rw [hf]
      cases n with
      | zero => simp
      | succ n => simp [lately_snoc, hno]
  · obtain ⟨hf, -, hret⟩ := htally.counted hcount
    have htr : ¬ c.motor.isTransient = true := Cycle.not_transient_of_counted hcount
    refine ⟨⟨⟨fun h => absurd h htr, ?_⟩, ?_⟩, fun n => ?_⟩
    · rw [hret]
      split <;> simp
    · -- four counted cycles before this one are what the counter stands for
      rw [hret, CAN_WRITE_FAILURE_LIMIT, lately_snoc, h 4]
      split <;> simp [hcount] <;> omega
    · rw [hf]
      cases n with
      | zero => simp
      | succ n => simp [lately_snoc, hcount, h n]
  · obtain ⟨hf, -, hret⟩ := htally.sent hsent
    have htr : ¬ c.motor.isTransient = true := Cycle.not_transient_of_sent hsent
    have hno : ¬ c.counted = true := fun hcount => by
      rw [Cycle.someFailed_of_counted hcount] at hsent
      cases hsent
    refine ⟨⟨⟨fun h => absurd h htr, ?_⟩, ?_⟩, fun n => ?_⟩
    · simp [hret]
    · simp [hret, CAN_WRITE_FAILURE_LIMIT, lately_snoc, hno]
    · rw [hf]
      cases n with
      | zero => simp
      | succ n => simp [lately_snoc, hno]

/-- The classes of every run are known. -/
theorem atEach_known (h : s.canWriteFailures = 0) : AtEach Known (cycles num s es) := by
  refine (inv_cycles num es
    (J := fun cs s => AtEach Known cs ∧ FailuresCounted cs s) ?_ ?_ ⟨atEach_nil, fun n => ?_⟩).1
  · rintro cs s e ⟨hknown, hcounted⟩ hnone
    refine ⟨hknown, fun n => ?_⟩
    rw [(counters_step hnone).1]
    exact hcounted n
  · rintro cs s e c ⟨hknown, hcounted⟩ hc
    obtain ⟨hnew, hcounted'⟩ := hcounted.cycle hc
    exact ⟨hknown.snoc hnew, hcounted'⟩
  · rw [h]
    cases n <;> simp

/-- **Where the class is known, it is right exactly when the motor frame
tells it.** -/
theorem Known.classed_iff {before : List Cycle} {c : Cycle} (h : Known before c) :
    Classed before c ↔ ToldByMotor before c := by
  constructor
  · intro hc
    refine ⟨fun hhard => ?_, fun hcount => hc.busOff (h.busOff.2 hcount)⟩
    cases htr : c.motor.isTransient with
    | false => rfl
    | true =>
      obtain ⟨hcong, hwedged⟩ := hc.congestion (by simp [Cycle.someHard, hhard])
      rcases h.congestion.1 htr with hret | hret
      · exact absurd hret hcong
      · exact absurd hret hwedged
  · intro ht
    refine ⟨fun hret => ht.busOff (h.busOff.1 hret), fun hhard => ?_⟩
    have htr : ¬ c.motor.isTransient = true := by
      intro htr
      rcases Bool.or_eq_true_iff.1 hhard with hs | hm
      · rw [ht.congestion hs] at htr
        cases htr
      · rw [WriteOutcome.not_hard htr] at hm
        cases hm
    exact ⟨fun hret => htr (h.congestion.2 (Or.inl hret)),
      fun hret => htr (h.congestion.2 (Or.inr hret))⟩

/-- **Bus-off counts exactly the hard failures** in the runs in which the
motor frame tells the class of every cycle, and in no others. -/
theorem bus_off_iff (num : Numerics K) (counts : ℤ) (es : List (Event K)) :
    AtEach Classed (cycles num (System.init num counts) es) ↔
      AtEach ToldByMotor (cycles num (System.init num counts) es) := by
  have hknown : AtEach Known (cycles num (System.init num counts) es) := atEach_known rfl
  constructor
  · exact fun h => (hknown.and h).imp fun _ _ hc => hc.1.classed_iff.1 hc.2
  · exact fun h => (hknown.and h).imp fun _ _ hc => hc.1.classed_iff.2 hc.2

/-- Five cycles in which the steering frame finds the queue full and the
motor frame is sent. -/
def sentMotor : List (Event ℚ) :=
  .configure true :: List.replicate 5 (.write (some .ENOBUFS) none)

/-- **Bus-off is reported, and nothing has failed hard.** -/
theorem sent_motor_counts : ¬ AtEach Classed (cycles sampleNumerics (.init sampleNumerics 1000)
    sentMotor) := by
  intro h
  have hcs : cycles sampleNumerics (.init sampleNumerics 1000) sentMotor =
      List.replicate 4 ⟨some .ENOBUFS, none, .failed⟩ ++ [⟨some .ENOBUFS, none, .busOff⟩] := by
    decide +kernel
  rw [hcs, atEach_snoc] at h
  have hhard := h.2.busOff rfl
  rw [CAN_WRITE_FAILURE_LIMIT, lately_snoc] at hhard
  exact absurd hhard.1 (by decide)

/-! ## How long a wedged path stays silent -/

/-- The cycle has failed and returned `OK`. -/
def Cycle.Silent (c : Cycle) : Prop := c.someFailed = true ∧ c.ret.code = .OK

/-- How many of the latest cycles can have been silent: four that counted,
and a congested one with four counted before it for each step of the other
counter. -/
def SilenceBounded (cs : List Cycle) (s : System K) : Prop :=
  ∀ n, Lately Cycle.Silent n cs →
    n ≤ min s.canWriteFailures 4 ∨
      n ≤ 5 * s.canWriteCongestion + min s.canWriteFailures 4 ∧ s.canWriteCongestion ≤ 89

omit [Field K] [LinearOrder K] in
theorem SilenceBounded.le {n : ℕ} (h : SilenceBounded cs s) (hn : Lately Cycle.Silent n cs) :
    n ≤ 449 := by
  rcases h n hn with h | ⟨h, h'⟩ <;> omega

theorem SilenceBounded.cycle {c : Cycle} (h : SilenceBounded cs s)
    (hc : cycleOf num s e = some c) : SilenceBounded (cs ++ [c]) (step num s e) := by
  have htally := tallied_step hc
  intro n hn
  cases n with
  | zero => exact Or.inl (Nat.zero_le _)
  | succ n =>
    obtain ⟨⟨hfailed, hok⟩, hlast⟩ := lately_snoc.1 hn
    have hbound := h n hlast
    rcases c.trichotomy with htr | hcount | hsent
    · -- a congested cycle sets the counted ones back and takes one step to the other limit
      obtain ⟨hf, hcong, hret⟩ := htally.congested htr
      have hlt : ¬ CAN_WRITE_CONGESTION_LIMIT ≤ s.canWriteCongestion + 1 := fun hle => by
        rw [hret, if_pos hle] at hok
        cases hok
      rw [hf, hcong]
      simp only [CAN_WRITE_CONGESTION_LIMIT] at hlt
      right
      omega
    · obtain ⟨hf, hcong, hret⟩ := htally.counted hcount
      have hlt : ¬ CAN_WRITE_FAILURE_LIMIT ≤ s.canWriteFailures + 1 := fun hle => by
        rw [hret, if_pos hle] at hok
        cases hok
      rw [hf, hcong]
      simp only [CAN_WRITE_FAILURE_LIMIT] at hlt
      omega
    · rw [hsent] at hfailed
      cases hfailed

/-- No run is silent for longer. -/
theorem atEach_silence (num : Numerics K) (es : List (Event K)) (s : System K) :
    AtEach (fun before c => ∀ n, Lately Cycle.Silent n (before ++ [c]) →
    n ≤ 449) (cycles num s es) := by
  refine (inv_cycles num es (J := fun cs s => AtEach (fun before c =>
    ∀ n, Lately Cycle.Silent n (before ++ [c]) → n ≤ 449) cs ∧ SilenceBounded cs s) ?_ ?_
    ⟨atEach_nil, fun n hn => ?_⟩).1
  · rintro cs s e ⟨hsilent, hbound⟩ hnone
    refine ⟨hsilent, fun n hn => ?_⟩
    rw [(counters_step hnone).1, (counters_step hnone).2]
    exact hbound n hn
  · rintro cs s e c ⟨hsilent, hbound⟩ hc
    have hbound' := hbound.cycle hc
    exact ⟨hsilent.snoc fun n hn => hbound'.le hn, hbound'⟩
  · cases n with
    | zero => exact Or.inl (Nat.zero_le _)
    | succ n => exact absurd hn not_lately_nil

/-- No `450` cycles in a row fail in silence. -/
theorem surfaces_of_le {n : ℕ} (h : 450 ≤ n) : Surfaces n (cycles num s es) := by
  intro older w newer heq hlen hfailed
  by_contra hno
  push Not at hno
  have hsilent : ∀ c ∈ w, c.Silent := by
    intro c hc
    refine ⟨hfailed c hc, ?_⟩
    cases hcode : c.ret.code with
    | OK => rfl
    | ERROR => exact absurd hcode (hno c hc)
  rcases List.eq_nil_or_concat w with rfl | ⟨w', c, rfl⟩
  · simp only [List.length_nil] at hlen
    omega
  · have hbound := atEach_silence num es s (older ++ w') c newer
      (by simp [heq]) (w' ++ [c]).length
      ⟨older, w' ++ [c], by simp, rfl, by simpa [List.concat_eq_append] using hsilent⟩
    simp only [List.concat_eq_append] at hlen
    omega

/-- Both sends fail, for good. -/
def hardCycle : Event K := .write (some (.other 100)) (some (.other 100))

/-- Both find the queue full. -/
def fullCycle : Event K := .write (some .ENOBUFS) (some .ENOBUFS)

/-- Four hard cycles, and then, as often as asked, a congested one and four
hard ones. -/
def silentRun : ℕ → List (Event K)
  | 0 => List.replicate 4 hardCycle
  | g + 1 => List.replicate 4 hardCycle ++ fullCycle :: silentRun g

/-- An open socket, and the two counters. -/
structure At (f g : ℕ) (s : System K) : Prop where
  connected : s.canComms.connected = true
  failures : s.canWriteFailures = f
  congestion : s.canWriteCongestion = g

variable {f g n : ℕ}

/-- A hard cycle below the limit is silent. -/
theorem At.hard (num : Numerics K) (h : At f g s) (hf : f + 1 < CAN_WRITE_FAILURE_LIMIT) :
    (∃ c : Cycle, cycleOf num s hardCycle = some c ∧ c.Silent) ∧
      At (f + 1) g (step num s hardCycle) := by
  have hc : cycleOf num s hardCycle = some ⟨some (.other 100), some (.other 100),
      (write num s (some (.other 100)) (some (.other 100))).1⟩ := if_pos h.connected
  obtain ⟨hfail, hcong, hret⟩ := (tallied_step hc).counted rfl
  refine ⟨⟨_, hc, rfl, ?_⟩, ?_, hfail.trans (by rw [h.failures]), hcong.trans h.congestion⟩
  · rw [hret, h.failures, if_neg (not_le.2 hf)]
    rfl
  · exact (connected_step num (e := hardCycle) trivial).trans h.connected

/-- And so is a congested one. -/
theorem At.full (num : Numerics K) (h : At f g s) (hg : g + 1 < CAN_WRITE_CONGESTION_LIMIT) :
    (∃ c : Cycle, cycleOf num s fullCycle = some c ∧ c.Silent) ∧
      At 0 (g + 1) (step num s fullCycle) := by
  have hc : cycleOf num s fullCycle = some ⟨some .ENOBUFS, some .ENOBUFS,
      (write num s (some .ENOBUFS) (some .ENOBUFS)).1⟩ := if_pos h.connected
  obtain ⟨hfail, hcong, hret⟩ := (tallied_step hc).congested rfl
  refine ⟨⟨_, hc, rfl, ?_⟩, ?_, hfail, hcong.trans (by rw [h.congestion])⟩
  · rw [hret, h.congestion, if_neg (not_le.2 hg)]
    rfl
  · exact (connected_step num (e := fullCycle) trivial).trans h.connected

/-- `n` cycles, all of them silent. -/
structure AllSilent (n : ℕ) (cs : List Cycle) : Prop where
  length : cs.length = n
  silent : ∀ c ∈ cs, c.Silent

theorem AllSilent.cons (h : AllSilent n (cycles num (step num s e) es))
    (he : ∃ c : Cycle, cycleOf num s e = some c ∧ c.Silent) :
    AllSilent (n + 1) (cycles num s (e :: es)) := by
  obtain ⟨c, hc, hsilent⟩ := he
  rw [cycles, Run.shown_cons, hc]
  exact ⟨congrArg (· + 1) h.length, List.forall_mem_cons.2 ⟨hsilent, h.silent⟩⟩

/-- Four hard cycles after a congested one, or at the start. -/
theorem At.hards (h : At 0 g s) (hrest : ∀ s', At 4 g s' → AllSilent n (cycles num s' es)) :
    AllSilent (n + 4) (cycles num s (List.replicate 4 hardCycle ++ es)) := by
  obtain ⟨h1, hs1⟩ := h.hard num (by decide)
  obtain ⟨h2, hs2⟩ := hs1.hard num (by decide)
  obtain ⟨h3, hs3⟩ := hs2.hard num (by decide)
  obtain ⟨h4, hs4⟩ := hs3.hard num (by decide)
  exact ((((hrest _ hs4).cons h4).cons h3).cons h2).cons h1

/-- **The longest silence.** -/
theorem At.silentRun {m : ℕ} (h : At 0 m s) (hg : m + g < CAN_WRITE_CONGESTION_LIMIT) :
    AllSilent (5 * g + 4) (cycles num s (silentRun g)) := by
  induction g generalizing m s with
  | zero =>
    rw [Ackermann.silentRun, ← List.append_nil (List.replicate 4 hardCycle)]
    exact h.hards fun s' _ => ⟨rfl, fun c hc => absurd hc List.not_mem_nil⟩
  | succ g ih =>
    have hlen : 5 * (g + 1) + 4 = 5 * g + 4 + 1 + 4 := by omega
    rw [Ackermann.silentRun, hlen]
    refine h.hards fun s' hs' => ?_
    obtain ⟨hfull, hnext⟩ := hs'.full num (by omega)
    exact (ih hnext (by omega)).cons hfull

/-- From `on_init`, on a socket that opens. -/
theorem allSilent_init (num : Numerics K) (counts : ℤ)
    (hg : g < CAN_WRITE_CONGESTION_LIMIT) : AllSilent (5 * g + 4)
      (cycles num (System.init num counts) (.configure true :: silentRun g)) := by
  have hat : At 0 0 (step num (System.init num counts) (.configure true)) := ⟨rfl, rfl, rfl⟩
  rw [cycles, Run.shown_cons]
  exact hat.silentRun (by omega)

/-- A silence of `m` cycles holds silent cycles in a row up to that many. -/
theorem AllSilent.not_surfaces {m : ℕ} (h : AllSilent m cs) (hn : n ≤ m) : ¬ Surfaces n cs := by
  intro hsurf
  obtain ⟨c, hc, hcode⟩ := hsurf [] (cs.take n) (cs.drop n) (by simp)
    (by rw [List.length_take, h.length]; omega)
    (fun c hc => (h.silent c (List.mem_of_mem_take hc)).1)
  rw [(h.silent c (List.mem_of_mem_take hc)).2] at hcode
  cases hcode

/-- **A wedged transmit path surfaces within `450` failed cycles**, whatever
the mixture, and no smaller number is enough. -/
theorem surfaces_iff (num : Numerics K) (counts : ℤ) (n : ℕ) :
    (∀ es, Surfaces n (cycles num (System.init num counts) es)) ↔
      CAN_WRITE_FAILURE_LIMIT * CAN_WRITE_CONGESTION_LIMIT ≤ n := by
  constructor
  · intro h
    by_contra hn
    simp only [CAN_WRITE_FAILURE_LIMIT, CAN_WRITE_CONGESTION_LIMIT] at hn
    -- the longest silence is one cycle short of the product of the two limits
    have hsilent := allSilent_init (g := 89) num counts (by decide)
    exact hsilent.not_surfaces (by omega) (h _)
  · intro hn es
    exact surfaces_of_le hn

/-! ## When ninety are enough -/

/-- `can_write_congestion_` is how many have been congested since both frames
were last sent. -/
def CongestionCounted (cs : List Cycle) (s : System K) : Prop :=
  s.canWriteCongestion = congestedSince cs

omit [Field K] [LinearOrder K] in
theorem congestedSince_failed {c : Cycle} (h : c.someFailed = true) :
    congestedSince (cs ++ [c]) = congestedSince cs + if c.motor.isTransient then 1 else 0 := by
  rw [congestedSince, List.rtakeWhile_concat_pos _ _ _ h, List.countP_append]
  exact congrArg _ (List.countP_singleton ..)

omit [Field K] [LinearOrder K] in
theorem congestedSince_sent {c : Cycle} (h : c.someFailed = false) :
    congestedSince (cs ++ [c]) = 0 := by
  rw [congestedSince, List.rtakeWhile_concat_neg _ _ _ (by simp [h])]
  rfl

theorem CongestionCounted.cycle {c : Cycle} (h : CongestionCounted cs s)
    (hc : cycleOf num s e = some c) : CongestionCounted (cs ++ [c]) (step num s e) := by
  have htally := tallied_step hc
  unfold CongestionCounted at h ⊢
  rcases c.trichotomy with htr | hcount | hsent
  · rw [(htally.congested htr).2.1, h, congestedSince_failed (Cycle.someFailed_of_transient htr),
      if_pos htr]
  · rw [(htally.counted hcount).2.1, h, congestedSince_failed (Cycle.someFailed_of_counted hcount),
      if_neg (Cycle.not_transient_of_counted hcount), Nat.add_zero]
  · rw [(htally.sent hsent).2.1, congestedSince_sent hsent]

/-- **`ERROR` is returned by the cycle that comes to a limit.** -/
theorem error_iff_atLimit {c : Cycle} (hf : FailuresCounted cs s) (hg : CongestionCounted cs s)
    (hc : cycleOf num s e = some c) : c.ret.code = .ERROR ↔ AtLimit cs c := by
  have htally := tallied_step hc
  have hbusOff : c.ret = .busOff ↔
      Lately (fun c => c.counted = true) CAN_WRITE_FAILURE_LIMIT (cs ++ [c]) :=
    (hf.cycle hc).1.busOff
  have hcong := hg.cycle hc
  unfold CongestionCounted at hg hcong
  unfold AtLimit
  rw [← hbusOff, ← hcong]
  rcases c.trichotomy with htr | hcount | hsent
  · obtain ⟨-, hg', hret⟩ := htally.congested htr
    rw [hret, hg']
    split <;> rename_i hlimit <;> simp [WriteReturn.code, htr, hlimit]
  · obtain ⟨-, -, hret⟩ := htally.counted hcount
    have htr : ¬ c.motor.isTransient = true := Cycle.not_transient_of_counted hcount
    rw [hret]
    split <;> simp [WriteReturn.code, htr]
  · obtain ⟨-, -, hret⟩ := htally.sent hsent
    have htr : ¬ c.motor.isTransient = true := Cycle.not_transient_of_sent hsent
    simp [hret, WriteReturn.code, htr]

/-- So it is in every run. -/
theorem atEach_error_iff (hf : s.canWriteFailures = 0) (hg : s.canWriteCongestion = 0) :
    AtEach (fun before c => c.ret.code = .ERROR ↔ AtLimit before c) (cycles num s es) := by
  refine (inv_cycles num es (J := fun cs s =>
    AtEach (fun before c => c.ret.code = .ERROR ↔ AtLimit before c) cs ∧
      FailuresCounted cs s ∧ CongestionCounted cs s) ?_ ?_ ⟨atEach_nil, fun n => ?_, hg⟩).1
  · rintro cs s e ⟨hiff, hcounted, hcong⟩ hnone
    obtain ⟨hsame, hsame'⟩ := counters_step hnone
    refine ⟨hiff, fun n => ?_, hsame'.trans hcong⟩
    rw [hsame]
    exact hcounted n
  · rintro cs s e c ⟨hiff, hcounted, hcong⟩ hc
    exact ⟨hiff.snoc (error_iff_atLimit hcounted hcong hc), (hcounted.cycle hc).2, hcong.cycle hc⟩
  · rw [hf]
    cases n <;> simp

/-- **When ninety failed cycles are enough**: a run surfaces each time just
when, of every ninety cycles in a row with a failed send each, one comes to
a limit. -/
theorem ninety_surface_iff (num : Numerics K) (counts : ℤ) (es : List (Event K)) :
    Surfaces CAN_WRITE_CONGESTION_LIMIT (cycles num (System.init num counts) es) ↔
      ComesToLimit CAN_WRITE_CONGESTION_LIMIT (cycles num (System.init num counts) es) := by
  have hiff : AtEach (fun before c => c.ret.code = .ERROR ↔ AtLimit before c)
      (cycles num (System.init num counts) es) := atEach_error_iff rfl rfl
  have hat : ∀ {older w newer w₁ c w₂},
      cycles num (System.init num counts) es = older ++ w ++ newer → w = w₁ ++ c :: w₂ →
        (c.ret.code = .ERROR ↔ AtLimit (older ++ w₁) c) := by
    rintro older w newer w₁ c w₂ heq rfl
    exact hiff (older ++ w₁) c (w₂ ++ newer) (by simp [heq])
  constructor
  · intro h older w newer heq hlen hfailed
    obtain ⟨c, hmem, herror⟩ := h older w newer heq hlen hfailed
    obtain ⟨w₁, w₂, hw⟩ := List.append_of_mem hmem
    exact ⟨w₁, c, w₂, hw, (hat heq hw).1 herror⟩
  · intro h older w newer heq hlen hfailed
    obtain ⟨w₁, c, w₂, hw, hlimit⟩ := h older w newer heq hlen hfailed
    exact ⟨c, by simp [hw], (hat heq hw).2 hlimit⟩

/-- **Ninety failed cycles in a row, and `write` has said `OK` to each.** -/
theorem ninety_stay_silent : ¬ Surfaces CAN_WRITE_CONGESTION_LIMIT
    (cycles sampleNumerics (.init sampleNumerics 1000) (.configure true :: silentRun 18)) := by
  have hsilent := allSilent_init (g := 18) sampleNumerics 1000 (by decide)
  exact hsilent.not_surfaces (by decide)

end Counters

end Ackermann

end VehicleStack
