import VehicleStack.Ackermann.Short
import VehicleStack.Ackermann.Sources

/-!
# The drive — IMU samples cut into cycles

The sensor sends each sample in two halves, and a read keeps the last of
each half that its cycle has drained. The stream is a function of the
position, even for an accelerometer half and odd for a gyroscope half, and
a run of cycles drains it position by position. No reading mixes two
samples, and a sample is passed over exactly where a cycle that completes
one does not end with it (`none_passed_over_iff`).
-/

namespace VehicleStack

namespace Ackermann

/-- The frame is a half of an IMU sample. -/
def CanFrame.isImu (f : CanFrame) : Bool :=
  f.canId = IMU_ACCEL_FRAME_ID || f.canId = IMU_GYRO_FLAGS_FRAME_ID

/-- The halves of IMU samples that a cycle drains, in order. -/
def imuFrames (frames : List Received) : List CanFrame :=
  (frames.map Received.frame).filter CanFrame.isImu

/-- Two halves for each sample, the accelerometer's first, numbered by one
byte. -/
structure IsStream (stream : ℕ → CanFrame) : Prop where
  accel : ∀ n, (stream (2 * n)).canId = IMU_ACCEL_FRAME_ID
  gyro : ∀ n, (stream (2 * n + 1)).canId = IMU_GYRO_FLAGS_FRAME_ID
  full : ∀ p, (stream p).WellFormed
  accelSeq : ∀ n, (ImuAccel.ofData (stream (2 * n)).data).sequence = UInt8.ofNat n
  gyroSeq : ∀ n, (ImuGyroFlags.ofData (stream (2 * n + 1)).data).sequence = UInt8.ofNat n

/-- `count` positions of the stream, from `p` on. -/
def segment (stream : ℕ → CanFrame) (p count : ℕ) : List CanFrame :=
  (List.range' p count).map stream

section Runs

variable {K : Type} [Field K] [LinearOrder K] (num : Numerics K)

/-- The sample that an event accepts its halves from, as the drain leaves
it. -/
def acceptedDrain (s : System K) : Event K → Option (Drain K)
  | .read frames _ =>
    if s.canComms.connected && (s.canComms.readSensorValues num frames).1.imu then
      some (drained num frames)
    else none
  | _ => none

/-- The component, the position the stream has been drained to, and the
number of the newest sample that has been accepted. -/
structure Cutting (K : Type) where
  system : System K
  position : ℕ
  newest : Option ℕ

/-- The position after an event. -/
def Cutting.next (w : Cutting K) : Event K → ℕ
  | .read frames _ => w.position + (imuFrames frames).length
  | _ => w.position

/-- One event. A sample that is accepted is the one before the position. -/
def cut (w : Cutting K) (e : Event K) : Cutting K :=
  ⟨step num w.system e, w.next e,
    if (acceptedDrain num w.system e).isSome then some (w.next e / 2 - 1) else w.newest⟩

variable (stream : ℕ → CanFrame) (start : ℕ)

/-- A read drains the next positions of the stream, and other frames in
between. -/
def DrainsNext (w : Cutting K) (e : Event K) : Prop :=
  e.InSession ∧ match e with
    | .read frames _ => imuFrames frames = segment stream w.position (imuFrames frames).length
    | _ => True

/-- Both halves of the sample have been drained by a position. -/
def Complete (p n : ℕ) : Prop := start ≤ 2 * n ∧ 2 * n + 1 < p

/-- No sample that the event completes is 256 behind the newest one that
has been accepted. -/
def Near (w : Cutting K) (e : Event K) : Prop :=
  ∀ m ∈ w.newest, ∀ n, Complete start (w.next e) n → n < m + 256

/-- Of the samples drained, the newest accepted is as new as any. -/
def NonePassedOver (w : Cutting K) : Prop :=
  ∀ n, Complete start w.position n → ∃ m ∈ w.newest, n ≤ m

/-- The accelerometer's part of a reading. -/
def accelOf (f : CanFrame) : Vec3 K :=
  let msg := ImuAccel.ofData f.data
  ⟨milli msg.accelX, milli msg.accelY, milli msg.accelZ⟩

/-- The gyroscope's. -/
def gyroOf (f : CanFrame) : Vec3 K :=
  let msg := ImuGyroFlags.ofData f.data
  ⟨milli msg.gyroX, milli msg.gyroY, milli msg.gyroZ⟩

/-- A reading that is accepted has both its parts from the sample that is
now the newest, and exports them. -/
def Unmixed (w : Cutting K) (e : Event K) : Prop :=
  ∀ d ∈ acceptedDrain num w.system e, ∃ n ∈ (cut num w e).newest,
    d.accel = accelOf (stream (2 * n)) ∧ d.gyro = gyroOf (stream (2 * n + 1)) ∧
      (cut num w e).system.imuAccel = d.accel ∧ (cut num w e).system.imuGyro.x = d.gyro.x ∧
      (cut num w e).system.imuGyro.y = d.gyro.y

/-- Where the event drains the second half of a sample whose first half has
been drained, the last two halves that it drains are those of one sample. -/
def EndsWhole (w : Cutting K) (e : Event K) : Prop :=
  (∃ n, Complete start (w.next e) n ∧ w.position ≤ 2 * n + 1) →
    w.position + 2 ≤ w.next e ∧ w.next e % 2 = 0

end Runs

/-! ## What one cycle drains -/

section Draining

variable {K : Type} [Field K] {num : Numerics K} {stream : ℕ → CanFrame} {frames : List Received}
  {p count k : ℕ}

theorem ofNat_eq_iff {m n : ℕ} : UInt8.ofNat m = UInt8.ofNat n ↔ m % 256 = n % 256 := by
  rw [← UInt8.toNat_inj, UInt8.toNat_ofNat', UInt8.toNat_ofNat']

/-- The last frame of a half is the last of those of the IMU. -/
theorem lastOf_imuFrames {i : ℕ} (hi : i = IMU_ACCEL_FRAME_ID ∨ i = IMU_GYRO_FLAGS_FRAME_ID) :
    lastOf i (frames.map Received.frame) = lastOf i (imuFrames frames) := by
  rw [lastOf, lastOf, imuFrames, List.filter_filter]
  congr 1
  refine List.filter_congr fun f _ => ?_
  by_cases hid : f.canId = i
  · rcases hi with rfl | rfl <;> simp [hid, CanFrame.isImu]
  · simp [hid]

/-- What a source's last frame puts in its part. -/
theorem Overwrites.drained_of_last {α : Type*} {i : ℕ} {π : Drain K → α} {put : Received → α}
    (h : Overwrites num i π put) {f : CanFrame}
    (hf : lastOf i (frames.map Received.frame) = some f) (hfull : f.WellFormed) :
    π (drained num frames) = put f.received := by
  rw [← lastReceived_frame] at hf
  obtain ⟨r, hr, rfl⟩ := Option.map_eq_some_iff.1 hf
  rw [h.drained_eq]
  show ((lastReceived i frames).map put).getD _ = _
  rw [hr]
  exact h.full r.frame r.leftover _ hfull

/-- And what is there when no frame of it has come. -/
theorem Overwrites.drained_of_none {α : Type*} {i : ℕ} {π : Drain K → α} {put : Received → α}
    (h : Overwrites num i π put) (hf : lastOf i (frames.map Received.frame) = none) :
    π (drained num frames) = π .init := by
  rw [← lastReceived_frame, Option.map_eq_none_iff] at hf
  rw [h.drained_eq]
  show ((lastReceived i frames).map put).getD _ = _
  rw [hf]
  rfl

variable (stream) in
/-- Two positions that are drained last. -/
theorem segment_last_two {q : ℕ} (hcount : 2 ≤ count) (hq : p + count = q + 2) :
    ∃ front, segment stream p count = front ++ [stream q, stream (q + 1)] := by
  obtain ⟨n, rfl⟩ := Nat.exists_eq_add_of_le' hcount
  obtain rfl : q = p + n := by omega
  refine ⟨segment stream p n, ?_⟩
  rw [segment, segment, List.range'_1_concat, List.range'_1_concat]
  simp [Nat.add_assoc]

/-- The last frame of a half, where the last two are known. -/
theorem lastOf_snoc_snoc {i : ℕ} {front : List CanFrame} {f g : CanFrame} :
    (g.canId = i → lastOf i (front ++ [f, g]) = some g) ∧
      (f.canId = i → g.canId ≠ i → lastOf i (front ++ [f, g]) = some f) := by
  refine ⟨fun hg => ?_, fun hf hg => ?_⟩
  · by_cases hf : f.canId = i <;> simp [lastOf, hf, hg]
  · simp [lastOf, hf, hg]

theorem accel_ne_gyro : IMU_ACCEL_FRAME_ID ≠ IMU_GYRO_FLAGS_FRAME_ID := by decide

variable (num) in
/-- The parts of the drain, from the last frame of each half. -/
theorem drained_halves {f g : CanFrame}
    (hf : lastOf IMU_ACCEL_FRAME_ID (imuFrames frames) = some f) (hwf : f.WellFormed)
    (hg : lastOf IMU_GYRO_FLAGS_FRAME_ID (imuFrames frames) = some g) (hwg : g.WellFormed) :
    let d := drained num frames
    (d.gotImu1 = true ∧ d.seq1 = (ImuAccel.ofData f.data).sequence ∧ d.accel = accelOf f) ∧
      d.gotImu2 = true ∧ d.seq2 = (ImuGyroFlags.ofData g.data).sequence ∧ d.gyro = gyroOf g := by
  rw [← lastOf_imuFrames (Or.inl rfl)] at hf
  rw [← lastOf_imuFrames (Or.inr rfl)] at hg
  have haccel := (overwrites_accel num).drained_of_last hf hwf
  have hgyro := (overwrites_gyro num).drained_of_last hg hwg
  have hmf := @Received.message_of_wellFormed _ ImuAccel.ofData f.received hwf
  have hmg := @Received.message_of_wellFormed _ ImuGyroFlags.ofData g.received hwg
  simp only [hmf, Prod.mk.injEq] at haccel
  simp only [hmg, Prod.mk.injEq] at hgyro
  exact ⟨haccel, hgyro.1, hgyro.2.1, hgyro.2.2.1⟩

variable (num) in
/-- **A cycle that ends with the halves of one sample** has that sample. -/
theorem drained_whole (hs : IsStream stream)
    (himu : imuFrames frames = segment stream p count) (hcount : 2 ≤ count)
    (hk : p + count = 2 * k + 2) :
    let d := drained num frames
    (d.gotImu1 = true ∧ d.seq1 = UInt8.ofNat k ∧ d.accel = accelOf (stream (2 * k))) ∧
      d.gotImu2 = true ∧ d.seq2 = UInt8.ofNat k ∧ d.gyro = gyroOf (stream (2 * k + 1)) := by
  obtain ⟨front, hfront⟩ := segment_last_two stream hcount hk
  rw [hfront] at himu
  have hf : lastOf IMU_ACCEL_FRAME_ID (imuFrames frames) = some (stream (2 * k)) := by
    rw [himu]
    exact lastOf_snoc_snoc.2 (hs.accel k) (by rw [hs.gyro]; exact accel_ne_gyro.symm)
  have hg : lastOf IMU_GYRO_FLAGS_FRAME_ID (imuFrames frames) = some (stream (2 * k + 1)) := by
    rw [himu]
    exact lastOf_snoc_snoc.1 (hs.gyro k)
  have hhalves := drained_halves num hf (hs.full _) hg (hs.full _)
  rwa [hs.accelSeq, hs.gyroSeq] at hhalves

variable (num) in
/-- **A cycle that ends otherwise** has no pair. -/
theorem drained_torn (hs : IsStream stream)
    (himu : imuFrames frames = segment stream p count)
    (htorn : count < 2 ∨ (p + count) % 2 = 1) :
    let d := drained num frames
    (d.gotImu1 && d.gotImu2 && d.seq1 == d.seq2) = false := by
  intro d
  rcases Nat.lt_or_ge count 2 with hfew | hcount
  · -- one of the halves is missing
    have hmissing : lastOf IMU_ACCEL_FRAME_ID (imuFrames frames) = none ∨
        lastOf IMU_GYRO_FLAGS_FRAME_ID (imuFrames frames) = none := by
      rw [himu]
      obtain rfl | rfl : count = 0 ∨ count = 1 := by omega
      · exact Or.inl rfl
      · obtain ⟨n, rfl | rfl⟩ := Nat.even_or_odd' p
        · right
          simp [segment, lastOf, hs.accel, accel_ne_gyro]
        · left
          simp [segment, lastOf, hs.gyro, accel_ne_gyro.symm]
    rcases hmissing with hnone | hnone
    · rw [← lastOf_imuFrames (Or.inl rfl)] at hnone
      have haccel := (overwrites_accel num).drained_of_none hnone
      have hgot : d.gotImu1 = false := congrArg Prod.fst haccel
      rw [hgot, Bool.false_and, Bool.false_and]
    · rw [← lastOf_imuFrames (Or.inr rfl)] at hnone
      have hgyro := (overwrites_gyro num).drained_of_none hnone
      have hgot : d.gotImu2 = false := congrArg Prod.fst hgyro
      rw [hgot, Bool.and_false, Bool.false_and]
  · -- the last two halves are those of neighbours
    obtain ⟨k, hk⟩ : ∃ k, p + count = 2 * k + 1 + 2 := ⟨(p + count - 3) / 2, by omega⟩
    obtain ⟨front, hfront⟩ := segment_last_two stream hcount hk
    rw [hfront] at himu
    have hf : lastOf IMU_ACCEL_FRAME_ID (imuFrames frames) = some (stream (2 * (k + 1))) := by
      rw [himu]
      exact lastOf_snoc_snoc.1 (hs.accel (k + 1))
    have hg : lastOf IMU_GYRO_FLAGS_FRAME_ID (imuFrames frames) = some (stream (2 * k + 1)) := by
      rw [himu]
      refine lastOf_snoc_snoc.2 (hs.gyro k) ?_
      rw [show 2 * k + 1 + 1 = 2 * (k + 1) from rfl, hs.accel]
      exact accel_ne_gyro
    obtain ⟨⟨-, hseq1, -⟩, -, hseq2, -⟩ :=
      drained_halves num hf (hs.full _) hg (hs.full _)
    have hne : d.seq1 ≠ d.seq2 := by
      rw [hseq1, hseq2, hs.accelSeq, hs.gyroSeq, Ne, ofNat_eq_iff]
      omega
    rw [beq_eq_false_iff_ne.2 hne, Bool.and_false]

end Draining

/-! ## Whole runs -/

section Cycles

variable {K : Type} [Field K] [LinearOrder K] {num : Numerics K} {stream : ℕ → CanFrame}
  {start : ℕ} {s : System K} {w : Cutting K} {e : Event K} {frames : List Received} {period : K}

omit [LinearOrder K] in
/-- When a pair is accepted, and what the transport then remembers. -/
theorem readSensorValues_imu (num : Numerics K) (c : CanComms) (frames : List Received) :
    let d := drained num frames
    let r := c.readSensorValues num frames
    r.1.imu = ((d.gotImu1 && d.gotImu2 && d.seq1 == d.seq2) &&
        (!c.seqInitialized || d.seq1 != c.expectedSeq)) ∧
      r.2.2 = if r.1.imu then { c with expectedSeq := d.seq1, seqInitialized := true } else c := by
  intro d r
  have hr : r = if d.gotImu1 && d.gotImu2 && d.seq1 == d.seq2 then
      if !c.seqInitialized || d.seq1 != c.expectedSeq then
        (⟨d.gotEnc, true, false⟩, d, { c with expectedSeq := d.seq1, seqInitialized := true })
      else (⟨d.gotEnc, false, true⟩, d, c)
    else (⟨d.gotEnc, false, false⟩, d, c) := rfl
  rw [hr]
  cases d.gotImu1 && d.gotImu2 && d.seq1 == d.seq2 <;>
    cases !c.seqInitialized || d.seq1 != c.expectedSeq <;> exact ⟨rfl, rfl⟩

/-- After a read, the transport is as the drain leaves it. -/
theorem canComms_read (hconn : s.canComms.connected = true) :
    (read num s frames period).2.canComms = (s.canComms.readSensorValues num frames).2.2 := by
  have hsteered : ∀ (t : System K) (fb : SteeringFeedback K),
      (readSteering num t fb).canComms = t.canComms := by
    intro t fb
    simp only [readSteering]
    split <;> rfl
  simp only [read, hconn, Bool.not_true, Bool.false_eq_true, if_false,
    (readOdometry_fields ..).2.2.1]
  split
  · rw [canComms_readImu, hsteered]
  · rw [hsteered]

/-- **The halves of an accepted pair** are what is exported. -/
theorem exports_of_accepted {d : Drain K} (h : acceptedDrain num s e = some d) :
    (step num s e).imuAccel = d.accel ∧ (step num s e).imuGyro.x = d.gyro.x ∧
      (step num s e).imuGyro.y = d.gyro.y := by
  have hread : ∀ t : System K, (readImu t d).imuAccel = d.accel ∧
      (readImu t d).imuGyro.x = d.gyro.x ∧ (readImu t d).imuGyro.y = d.gyro.y := by
    intro t
    simp only [readImu]
    repeat' split
    all_goals exact ⟨rfl, rfl, rfl⟩
  have hodometry : ∀ (t : System K) (gotEnc : Bool) (l r : ℤ) (dt : K),
      (readOdometry t gotEnc l r dt).2.imuAccel = t.imuAccel ∧
        (readOdometry t gotEnc l r dt).2.imuGyro = t.imuGyro := by
    intro t gotEnc l r dt
    simp only [readOdometry]
    split <;> exact ⟨rfl, rfl⟩
  cases e with
  | configure | cleanup | activate | deactivate | write | command => cases h
  | read frames period =>
    simp only [acceptedDrain, Option.ite_none_right_eq_some, Bool.and_eq_true,
      Option.some.injEq] at h
    obtain ⟨⟨hconn, himu⟩, rfl⟩ := h
    show (read num s frames period).2.imuAccel = _ ∧ (read num s frames period).2.imuGyro.x = _ ∧
      (read num s frames period).2.imuGyro.y = _
    simp only [read, hconn, Bool.not_true, Bool.false_eq_true, if_false, himu, if_true,
      (hodometry ..).1, (hodometry ..).2, (readSensorValues_fields num s.canComms frames).2.1]
    exact hread _

/-- The socket is open, and the transport remembers the newest sample that
has been accepted, which has been drained whole. -/
structure Cutting.Inv (start : ℕ) (w : Cutting K) : Prop where
  connected : w.system.canComms.connected = true
  started : start ≤ w.position
  known : w.system.canComms.seqInitialized = w.newest.isSome
  seq : ∀ m ∈ w.newest, w.system.canComms.expectedSeq = UInt8.ofNat m
  behind : ∀ m ∈ w.newest, 2 * m + 1 < w.position

omit [LinearOrder K] in
variable (num frames period) in
/-- A read is accepted by the transport. -/
theorem acceptedDrain_isSome_iff (hconn : s.canComms.connected = true) :
    (acceptedDrain num s (.read frames period)).isSome ↔
      (s.canComms.readSensorValues num frames).1.imu = true := by
  cases himu : (s.canComms.readSensorValues num frames).1.imu <;>
    simp [acceptedDrain, hconn, himu]

omit [LinearOrder K] in
variable (num) in
/-- **What is accepted is whole.** -/
theorem whole_of_accepted (hs : IsStream stream) (hconn : w.system.canComms.connected = true)
    (hcut : imuFrames frames = segment stream w.position (imuFrames frames).length)
    (h : (acceptedDrain num w.system (.read frames period)).isSome) :
    w.position + 2 ≤ w.next (.read frames period) ∧ w.next (.read frames period) % 2 = 0 := by
  rw [acceptedDrain_isSome_iff _ _ _ hconn, (readSensorValues_imu ..).1, Bool.and_eq_true] at h
  by_contra hnot
  have htorn := drained_torn num hs hcut (by rw [Cutting.next] at hnot; omega)
  rw [htorn] at h
  exact Bool.false_ne_true h.1

omit [LinearOrder K] in
variable (num) in
/-- **What is whole is accepted**, if it is not 256 ahead. -/
theorem Cutting.Inv.accepted_of_whole (h : w.Inv start) (hs : IsStream stream)
    (hcut : imuFrames frames = segment stream w.position (imuFrames frames).length)
    (hnear : Near start w (.read frames period))
    (hlong : w.position + 2 ≤ w.next (.read frames period))
    (heven : w.next (.read frames period) % 2 = 0) :
    (acceptedDrain num w.system (.read frames period)).isSome := by
  have hnext : w.next (.read frames period) = w.position + (imuFrames frames).length := rfl
  obtain ⟨k, hk⟩ : ∃ k, w.next (.read frames period) = 2 * k + 2 :=
    ⟨w.next (.read frames period) / 2 - 1, by omega⟩
  obtain ⟨⟨hgot1, hseq1, -⟩, hgot2, hseq2, -⟩ :=
    drained_whole num hs hcut (by omega) (hnext ▸ hk)
  rw [acceptedDrain_isSome_iff _ _ _ h.connected, (readSensorValues_imu ..).1, hgot1, hgot2, hseq1,
    hseq2, h.known]
  cases hnewest : w.newest with
  | none => simp
  | some m =>
    -- the sample is newer than the last one, by less than a turn of the byte
    have hold := h.behind m hnewest
    have hclose := hnear m hnewest k ⟨le_trans h.started (by omega), by omega⟩
    have hne : UInt8.ofNat k ≠ w.system.canComms.expectedSeq := by
      rw [h.seq m hnewest, Ne, ofNat_eq_iff]
      omega
    simp [hne]

omit [Field K] [LinearOrder K] in
/-- What leaves the transport and the position alone. -/
theorem Cutting.Inv.congr (h : w.Inv start) {w' : Cutting K} (himu : SameImu w'.system w.system)
    (hposition : w'.position = w.position) (hnewest : w'.newest = w.newest) : w'.Inv start where
  connected := himu.connected.trans h.connected
  started := hposition ▸ h.started
  known := himu.seqInitialized.trans (hnewest ▸ h.known)
  seq m hm := himu.expectedSeq.trans (h.seq m (hnewest ▸ hm))
  behind m hm := hposition ▸ h.behind m (hnewest ▸ hm)

/-- A read whose pair is rejected leaves the transport as it was. -/
theorem Cutting.Inv.rejected (h : w.Inv start)
    (hacc : (acceptedDrain num w.system (.read frames period)).isSome = false) :
    (Ackermann.cut num w (.read frames period)).Inv start := by
  have himu : (w.system.canComms.readSensorValues num frames).1.imu = false := by
    rw [← Bool.not_eq_true, ← acceptedDrain_isSome_iff num frames period h.connected, hacc]
    exact Bool.false_ne_true
  have hleft := (readSensorValues_imu num w.system.canComms frames).2
  rw [himu, if_neg Bool.false_ne_true] at hleft
  have hcomms : (Ackermann.cut num w (.read frames period)).system.canComms =
      w.system.canComms := (canComms_read h.connected).trans hleft
  have hnewest : (Ackermann.cut num w (.read frames period)).newest = w.newest := by
    simp [Ackermann.cut, hacc]
  refine ⟨?_, h.started.trans (Nat.le_add_right _ _), ?_, fun m hm => ?_, fun m hm => ?_⟩
  · rw [hcomms, h.connected]
  · rw [hcomms, hnewest, h.known]
  · rw [hcomms, h.seq m (hnewest ▸ hm)]
  · exact (h.behind m (hnewest ▸ hm)).trans_le (Nat.le_add_right _ _)

/-- One whose pair is accepted has it from the end of its cycle. -/
theorem Cutting.Inv.accepted (h : w.Inv start) (hs : IsStream stream)
    (hcut : imuFrames frames = segment stream w.position (imuFrames frames).length)
    (hacc : (acceptedDrain num w.system (.read frames period)).isSome) :
    (Ackermann.cut num w (.read frames period)).Inv start := by
  have himu := (acceptedDrain_isSome_iff num frames period h.connected).1 hacc
  obtain ⟨hlong, heven⟩ := whole_of_accepted num hs h.connected hcut hacc
  have hnext : w.next (.read frames period) = w.position + (imuFrames frames).length := rfl
  obtain ⟨⟨-, hseq1, -⟩, -⟩ := drained_whole num
    (k := w.next (.read frames period) / 2 - 1) hs hcut (by omega) (by omega)
  have hleft := (readSensorValues_imu num w.system.canComms frames).2
  rw [himu, if_pos rfl, hseq1] at hleft
  have hcomms : (Ackermann.cut num w (.read frames period)).system.canComms =
      { w.system.canComms with
        expectedSeq := UInt8.ofNat (w.next (.read frames period) / 2 - 1)
        seqInitialized := true } := (canComms_read h.connected).trans hleft
  have hnewest : (Ackermann.cut num w (.read frames period)).newest =
      some (w.next (.read frames period) / 2 - 1) := by
    simp [Ackermann.cut, hacc]
  refine ⟨?_, h.started.trans (Nat.le_add_right _ _), ?_, fun m hm => ?_, fun m hm => ?_⟩
  · rw [hcomms, h.connected]
  · rw [hcomms, hnewest]
    rfl
  · rw [hnewest, Option.mem_some_iff] at hm
    rw [hcomms, hm]
  · rw [hnewest, Option.mem_some_iff] at hm
    show 2 * m + 1 < w.next (.read frames period)
    omega

/-- **One event keeps the account.** -/
theorem Cutting.Inv.cut (h : w.Inv start) (hs : IsStream stream) (he : DrainsNext stream w e) :
    (Ackermann.cut num w e).Inv start := by
  obtain ⟨hsession, hcut⟩ := he
  cases e with
  | configure | cleanup | activate | deactivate => exact hsession.elim
  | write steering motor => exact h.congr (sameImu_write steering motor) rfl rfl
  | command port value => exact h.congr (sameImu_command port value) rfl rfl
  | read frames period =>
    cases hacc : (acceptedDrain num w.system (.read frames period)).isSome with
    | false => exact h.rejected hacc
    | true => exact h.accepted hs hcut hacc

/-- **No reading is mixed.** -/
theorem Cutting.Inv.unmixed (h : w.Inv start) (hs : IsStream stream)
    (he : DrainsNext stream w e) : Unmixed num stream w e := by
  intro d hd
  have hexports := exports_of_accepted hd
  cases e with
  | configure | cleanup | activate | deactivate | write | command => cases hd
  | read frames period =>
    have hacc : (acceptedDrain num w.system (.read frames period)).isSome :=
      Option.isSome_of_mem hd
    obtain ⟨hlong, heven⟩ := whole_of_accepted num hs h.connected he.2 hacc
    have hnext : w.next (.read frames period) = w.position + (imuFrames frames).length := rfl
    obtain ⟨⟨-, -, haccel⟩, -, -, hgyro⟩ := drained_whole num
      (k := w.next (.read frames period) / 2 - 1) hs he.2 (by omega) (by omega)
    have hdrain : drained num frames = d := by
      simp only [acceptedDrain, Option.mem_def, Option.ite_none_right_eq_some,
        Option.some.injEq] at hd
      exact hd.2
    rw [hdrain] at haccel hgyro
    refine ⟨w.next (.read frames period) / 2 - 1, ?_, haccel, hgyro, hexports⟩
    simp [Ackermann.cut, hacc]

/-- **One event passes no sample over** exactly where it ends whole. -/
theorem Cutting.Inv.nonePassedOver_iff (h : w.Inv start) (hnone : NonePassedOver start w)
    (hs : IsStream stream) (he : DrainsNext stream w e) (hnear : Near start w e) :
    NonePassedOver start (Ackermann.cut num w e) ↔ EndsWhole start w e := by
  obtain ⟨hsession, hcut⟩ := he
  cases e with
  | configure | cleanup | activate | deactivate => exact hsession.elim
  | write | command =>
    refine iff_of_true hnone ?_
    rintro ⟨n, ⟨-, hlt⟩, hle⟩
    exact absurd hlt (not_lt.2 hle)
  | read frames period =>
    constructor
    · rintro hafter ⟨n, hn, hle⟩
      -- the new sample is accounted for, so one has been accepted
      obtain ⟨m, hm, hnm⟩ := hafter n hn
      refine whole_of_accepted num hs h.connected hcut ?_
      by_contra hrejected
      have hold : m ∈ w.newest := by
        simpa [Ackermann.cut, Bool.not_eq_true _ ▸ hrejected] using hm
      have hdrained := h.behind m hold
      omega
    · intro hends n hn
      by_cases hnew : w.position ≤ 2 * n + 1
      · obtain ⟨hlong, heven⟩ := hends ⟨n, hn, hnew⟩
        have hacc := h.accepted_of_whole num hs hcut hnear hlong heven
        have hlt : 2 * n + 1 < w.next (.read frames period) := hn.2
        refine ⟨w.next (.read frames period) / 2 - 1, ?_, by omega⟩
        simp [Ackermann.cut, hacc]
      · obtain ⟨m, hm, hnm⟩ := hnone n ⟨hn.1, not_le.1 hnew⟩
        cases hacc : (acceptedDrain num w.system (.read frames period)).isSome with
        | false => exact ⟨m, by simpa [Ackermann.cut, hacc] using hm, hnm⟩
        | true =>
          obtain ⟨hlong, heven⟩ := whole_of_accepted num hs h.connected hcut hacc
          refine ⟨w.next (.read frames period) / 2 - 1, by simp [Ackermann.cut, hacc], by omega⟩

/-- **When batching loses no sample.** Whatever the stream, the position it
is first drained from, and the sample accepted before that, and however it
is cut into cycles that leave no 256 samples between accepted ones: every
complete sample is accepted by the end of the cycle that completes it, or a
newer one is, and no reading is mixed, if and only if each cycle that
completes a sample ends with the two halves of one. -/
theorem none_passed_over_iff (num : Numerics K) (stream : ℕ → CanFrame) (w : Cutting K)
    (es : List (Event K)) (hs : IsStream stream) (hw : w.Inv w.position)
    (hcut : Run.Along (Ackermann.cut num) (DrainsNext stream) w es)
    (hnear : Run.Along (Ackermann.cut num) (Near w.position) w es) :
    Run.Throughout (Ackermann.cut num) (NonePassedOver w.position) w es ∧
        Run.Along (Ackermann.cut num) (Unmixed num stream) w es ↔
      Run.Along (Ackermann.cut num) (EndsWhole w.position) w es := by
  have hunmixed : Run.Along (Ackermann.cut num) (Unmixed num stream) w es :=
    Run.along_of_inv (fun _ _ hI he => hI.cut hs he) (fun _ _ hI he => hI.unmixed hs he) hw hcut
  have hstart : NonePassedOver w.position w := fun n hn => absurd hn.2 (by have := hn.1; omega)
  rw [and_iff_left hunmixed]
  exact Run.throughout_iff_along_of_along
    (I := fun w' => w'.Inv w.position ∧ NonePassedOver w.position w')
    (fun _ _ hI he hends => ⟨hI.1.cut hs he.1, (hI.1.nonePassedOver_iff hI.2 hs he.1 he.2).2 hends⟩)
    (fun _ hI => hI.2)
    (fun _ _ hI he hafter => (hI.1.nonePassedOver_iff hI.2 hs he.1 he.2).1 hafter) ⟨hw, hstart⟩
    (hcut.and hnear)

end Cycles

/-- A stream of blank samples. -/
def blankStream (p : ℕ) : CanFrame :=
  if p % 2 = 0 then ⟨IMU_ACCEL_FRAME_ID, 8, #v[0, 0, 0, 0, 0, 0, UInt8.ofNat (p / 2), 0]⟩
  else ⟨IMU_GYRO_FLAGS_FRAME_ID, 8, #v[0, 0, 0, 0, 0, 0, 0, UInt8.ofNat (p / 2)]⟩

theorem isStream_blankStream : IsStream blankStream := by
  refine ⟨fun n => ?_, fun n => ?_, fun p => ?_, fun n => ?_, fun n => ?_⟩
  · simp [blankStream]
  · simp [blankStream]
  · rw [blankStream]
    split <;> exact Nat.le_refl 8
  · rw [blankStream, if_pos (by omega)]
    show UInt8.ofNat (2 * n / 2) = UInt8.ofNat n
    rw [Nat.mul_div_cancel_left n Nat.two_pos]
  · rw [blankStream, if_neg (by omega)]
    show UInt8.ofNat ((2 * n + 1) / 2) = UInt8.ofNat n
    rw [show (2 * n + 1) / 2 = n by omega]

/-- A read of `count` positions from `p` on. -/
def readSegment (p count : ℕ) : Event ℚ :=
  .read ((segment blankStream p count).map CanFrame.received) (1 / 30)

/-- The start of a stream, on an open socket. -/
def sampleCutting : Cutting ℚ := ⟨(onConfigure sampleSystem true).2, 0, none⟩

theorem drainsNext_readSegment {w : Cutting ℚ} {p count : ℕ} (h : w.position = p) :
    DrainsNext blankStream w (readSegment p count) := by
  have hall : imuFrames ((segment blankStream p count).map CanFrame.received) =
      segment blankStream p count := by
    have hmap : ((segment blankStream p count).map CanFrame.received).map Received.frame =
        segment blankStream p count := by
      rw [List.map_map]
      exact List.map_id _
    rw [imuFrames, hmap]
    refine List.filter_eq_self.2 fun f hf => ?_
    obtain ⟨q, -, rfl⟩ := List.mem_map.1 hf
    rw [blankStream]
    split <;> rfl
  refine ⟨trivial, ?_⟩
  show imuFrames _ = segment blankStream w.position (imuFrames _).length
  rw [hall, h, show (segment blankStream p count).length = count by simp [segment]]

theorem inv_sampleCutting : sampleCutting.Inv 0 := by
  refine ⟨rfl, le_rfl, rfl, fun m hm => ?_, fun m hm => ?_⟩
  · cases hm
  · cases hm

/-- Two samples in the first cycle and the third in the second. -/
theorem none_passed_over_inPairs :
    Run.Throughout (cut sampleNumerics) (NonePassedOver 0) sampleCutting
        [readSegment 0 4, readSegment 4 2] ∧
      Run.Along (cut sampleNumerics) (Unmixed sampleNumerics blankStream) sampleCutting
        [readSegment 0 4, readSegment 4 2] := by
  refine (none_passed_over_iff sampleNumerics blankStream sampleCutting _ isStream_blankStream
    inv_sampleCutting ?_ ?_).2 ?_
  · exact ⟨drainsNext_readSegment rfl, drainsNext_readSegment (by decide +kernel), trivial⟩
  · refine ⟨fun m hm => ?_, fun m hm n hn => ?_, trivial⟩
    · cases hm
    · have hlt : 2 * n + 1 < 6 := hn.2
      omega
  · exact ⟨fun _ => by decide +kernel, fun _ => by decide +kernel, trivial⟩

/-- **A cycle that ends between two halves** drops the sample before: its
gyroscope half comes with the accelerometer half of the next. -/
theorem torn_cycle_passes_over : ¬ (Run.Throughout (cut sampleNumerics) (NonePassedOver 0)
      sampleCutting [readSegment 0 3, readSegment 3 1] ∧
    Run.Along (cut sampleNumerics) (Unmixed sampleNumerics blankStream) sampleCutting
      [readSegment 0 3, readSegment 3 1]) := by
  rintro ⟨⟨-, hfirst, -⟩, -⟩
  have hnewest : (cut sampleNumerics sampleCutting (readSegment 0 3)).newest = none := by
    decide +kernel
  obtain ⟨m, hm, -⟩ := hfirst 0 ⟨Nat.zero_le _, by decide +kernel⟩
  rw [hnewest] at hm
  cases hm

end Ackermann

end VehicleStack
