import Mathlib.Data.List.Forall2
import VehicleStack.Ackermann.Reads
import VehicleStack.Common.Run

/-!
# The drive — its sources stand apart

One loop drains every source into one set of locals, and one function
deals with them all. Still the wheels and the codes of a run are a function
of the encoder frames and the periods, and the IMU's values one of the two
IMU frames: runs that differ in anything else show the same
(`sources_do_not_interfere`).
-/

namespace VehicleStack

namespace Ackermann

/-- The frames of one identifier. -/
def framesOf (id : ℕ) (frames : List Received) : List CanFrame :=
  (frames.map Received.frame).filter fun f => f.canId = id

/-- The two have the same frames of the identifier, and each carries its
bytes. -/
def SameSource (id : ℕ) (frames frames' : List Received) : Prop :=
  framesOf id frames = framesOf id frames' ∧ ∀ f ∈ framesOf id frames, f.WellFormed

instance {id : ℕ} {frames frames' : List Received} : Decidable (SameSource id frames frames') :=
  inferInstanceAs (Decidable (_ ∧ _))

section Sources

variable {K : Type}

/-- Two reads of the same encoder frames after the same period, or one other
event twice. -/
def SameEncoder : Event K → Event K → Prop
  | .read frames period, .read frames' period' =>
    SameSource VELOCITY_FEEDBACK_FRAME_ID frames frames' ∧ period = period'
  | e, e' => e = e'

/-- Two reads of the same IMU frames, or one other event twice. -/
def SameImuFrames : Event K → Event K → Prop
  | .read frames _, .read frames' _ =>
    SameSource IMU_ACCEL_FRAME_ID frames frames' ∧
      SameSource IMU_GYRO_FLAGS_FRAME_ID frames frames'
  | e, e' => e = e'

/-- What is exported of a wheel. -/
def DriveWheel.exported (wheel : DriveWheel K) : K × K := (wheel.pos, wheel.vel)

/-- What the IMU exports, and its calibration. -/
structure ImuState (K : Type) where
  accel : Vec3 K
  gyro : Vec3 K
  orientation : Vector K 4
  isCalibrating : Bool
  sampleCount : ℕ
  gyroZSum : K
  gyroZOffset : K
  settleCycles : ℕ

def System.imu (s : System K) : ImuState K :=
  ⟨s.imuAccel, s.imuGyro, s.imuOrientation, s.isImuCalibrating, s.imuCalibrationSampleCount,
    s.imuGyroZSum, s.imuGyroZOffset, s.activationSettleCycles⟩

variable [Field K] [LinearOrder K] (num : Numerics K)

/-- The code of a read, and the wheels after an event. -/
def wheelView (s : System K) (e : Event K) : Option ReturnType × (K × K) × (K × K) :=
  let r := respond num s e
  (match r.1.1 with
    | .read code => some code
    | _ => none,
    r.2.wheelL.exported, r.2.wheelR.exported)

/-- The IMU after an event. -/
def imuView (s : System K) (e : Event K) : ImuState K := (step num s e).imu

end Sources

/-! ## What the drain makes of one source -/

section Drain

variable {K : Type} [Field K] {num : Numerics K} {frames frames' : List Received}

/-- **A part of the locals that one source alone writes** is a function of
that source's frames. -/
theorem drained_part {α : Type*} {π : Drain K → α} {i : ℕ} (put : α → Data → α)
    (hput : ∀ d r, r.frame.canId = i → r.frame.WellFormed →
      π (Drain.take num d r) = put (π d) r.frame.data)
    (hskip : ∀ d r, r.frame.canId ≠ i → π (Drain.take num d r) = π d)
    (hwf : ∀ f ∈ framesOf i frames, f.WellFormed) :
    π (drained num frames) =
      (framesOf i frames).foldl (fun a f => put a f.data) (π .init) := by
  have hfold : ∀ d : Drain K, π (frames.foldl (Drain.take num) d) =
      (framesOf i frames).foldl (fun a f => put a f.data) (π d) := by
    induction frames with
    | nil => exact fun _ => rfl
    | cons r frames ih =>
      intro d
      by_cases hid : r.frame.canId = i
      · have hcons : framesOf i (r :: frames) = r.frame :: framesOf i frames := by
          simp [framesOf, hid]
        rw [hcons] at hwf ⊢
        rw [List.foldl_cons, List.foldl_cons, ih fun f hf => hwf f (List.mem_cons_of_mem _ hf),
          hput d r hid (hwf _ List.mem_cons_self)]
      · have hcons : framesOf i (r :: frames) = framesOf i frames := by simp [framesOf, hid]
        rw [hcons] at hwf ⊢
        rw [List.foldl_cons, ih hwf, hskip d r hid]
  exact hfold .init

/-- So two runs of the loop agree in that part. -/
theorem drained_part_eq {α : Type*} {π : Drain K → α} {i : ℕ} (put : α → Data → α)
    (hput : ∀ d r, r.frame.canId = i → r.frame.WellFormed →
      π (Drain.take num d r) = put (π d) r.frame.data)
    (hskip : ∀ d r, r.frame.canId ≠ i → π (Drain.take num d r) = π d)
    (h : SameSource i frames frames') : π (drained num frames) = π (drained num frames') := by
  rw [drained_part put hput hskip h.2, drained_part put hput hskip (h.1 ▸ h.2), h.1]

/-- The encoder's locals. -/
def Drain.encoder (d : Drain K) : Bool × ℤ × ℤ := (d.gotEnc, d.lEnc, d.rEnc)

/-- The accelerometer's. -/
def Drain.accelPart (d : Drain K) : Bool × UInt8 × Vec3 K := (d.gotImu1, d.seq1, d.accel)

/-- The gyroscope's. -/
def Drain.gyroPart (d : Drain K) : Bool × UInt8 × Vec3 K × Bool :=
  (d.gotImu2, d.seq2, d.gyro, d.isImuReset)

/-- What an encoder frame makes of them. -/
def encoderOf (data : Data) : Bool × ℤ × ℤ :=
  (true, (VelocityFeedback.ofData data).leftTicks, (VelocityFeedback.ofData data).rightTicks)

theorem encoder_take (d : Drain K) (r : Received) :
    (r.frame.canId = VELOCITY_FEEDBACK_FRAME_ID → r.frame.WellFormed →
      (Drain.take num d r).encoder = encoderOf r.frame.data) ∧
    (r.frame.canId ≠ VELOCITY_FEEDBACK_FRAME_ID → (Drain.take num d r).encoder = d.encoder) := by
  constructor
  · intro hid hwf
    rw [Drain.take, if_pos hid, Received.message_of_wellFormed hwf, Drain.encoder, encoderOf]
  · intro hid
    simp only [Drain.take, hid, if_false]
    repeat' split
    all_goals rfl

/-- The last encoder frame is what is left of them. -/
theorem encoder_drained (num : Numerics K)
    (hwf : ∀ f ∈ framesOf VELOCITY_FEEDBACK_FRAME_ID frames, f.WellFormed) :
    (drained num frames).encoder = (framesOf VELOCITY_FEEDBACK_FRAME_ID frames).foldl
      (fun _ f => encoderOf f.data) (false, 0, 0) :=
  drained_part (fun _ => encoderOf) (fun d r => (encoder_take d r).1)
    (fun d r => (encoder_take d r).2) hwf

theorem drained_encoder (num : Numerics K)
    (h : SameSource VELOCITY_FEEDBACK_FRAME_ID frames frames') :
    (drained num frames).encoder = (drained num frames').encoder := by
  rw [encoder_drained num h.2, encoder_drained num (h.1 ▸ h.2), h.1]

theorem drained_accel (num : Numerics K) (h : SameSource IMU_ACCEL_FRAME_ID frames frames') :
    (drained num frames).accelPart = (drained num frames').accelPart := by
  refine drained_part_eq (fun _ data => let msg := ImuAccel.ofData data
    (true, msg.sequence, ⟨milli msg.accelX, milli msg.accelY, milli msg.accelZ⟩)) ?_ ?_ h
  · intro d r hid hwf
    simp only [Drain.take, hid, Received.message_of_wellFormed hwf]
    rfl
  · intro d r hid
    simp only [Drain.take, hid, if_false]
    repeat' split
    all_goals rfl

theorem drained_gyro (num : Numerics K) (h : SameSource IMU_GYRO_FLAGS_FRAME_ID frames frames') :
    (drained num frames).gyroPart = (drained num frames').gyroPart := by
  refine drained_part_eq (fun _ data => let msg := ImuGyroFlags.ofData data
    (true, msg.sequence, ⟨milli msg.gyroX, milli msg.gyroY, milli msg.gyroZ⟩,
      msg.imuReset == 1)) ?_ ?_ h
  · intro d r hid hwf
    simp only [Drain.take, hid, Received.message_of_wellFormed hwf]
    rfl
  · intro d r hid
    simp only [Drain.take, hid, if_false]
    repeat' split
    all_goals rfl

end Drain

section Simulation

variable {K : Type} [Field K] [LinearOrder K] {num : Numerics K} {s s' : System K}
  {frames frames' : List Received} {period period' : K} {e e' : Event K}

/-! ## The wheels -/

theorem ReturnType.eq_of_error_iff {a b : ReturnType} (h : a = .ERROR ↔ b = .ERROR) : a = b := by
  cases a <;> cases b <;> simp_all

/-- **Reads that drain the same counts** do the same to the wheels. -/
theorem SameOdometry.read (h : SameOdometry s s')
    (hencoder : (drained num frames).encoder = (drained num frames').encoder) :
    (read num s frames period).1 = (read num s' frames' period).1 ∧
      SameOdometry (read num s frames period).2 (read num s' frames' period).2 := by
  have hparts : (drained num frames).gotEnc = (drained num frames').gotEnc ∧
      (drained num frames).lEnc = (drained num frames').lEnc ∧
      (drained num frames).rEnc = (drained num frames').rEnc := by
    simpa [Drain.encoder] using hencoder
  obtain ⟨hgot, hl, hr⟩ := hparts
  cases hconn : s.canComms.connected with
  | false =>
    rw [read_of_closed num frames period hconn,
      read_of_closed num frames' period (h.connected ▸ hconn)]
    exact ⟨rfl, h⟩
  | true =>
    have hconn' : s'.canComms.connected = true := h.connected ▸ hconn
    have hopen : (Ackermann.read num s frames period).2.canComms.connected =
        (Ackermann.read num s' frames' period).2.canComms.connected := by
      rw [connected_read, connected_read, h.connected]
    cases hfresh : (drained num frames).gotEnc with
    | true =>
      obtain ⟨hcode, hL, hR, haccum⟩ := read_fresh num frames period hconn hfresh
      obtain ⟨hcode', hL', hR', haccum'⟩ := read_fresh num frames' period hconn' (hgot ▸ hfresh)
      refine ⟨hcode.trans hcode'.symm, hopen, ?_, ?_, haccum.trans haccum'.symm⟩
      · rw [hL, hL', uncommanded_update, uncommanded_update, h.wheelL, h.encDtAccum, hl]
      · rw [hR, hR', uncommanded_update, uncommanded_update, h.wheelR, h.encDtAccum, hr]
    | false =>
      obtain ⟨hcode, hL, hR, haccum⟩ := read_missed num frames period hconn hfresh
      obtain ⟨hcode', hL', hR', haccum'⟩ := read_missed num frames' period hconn' (hgot ▸ hfresh)
      rw [h.encDtAccum] at hcode haccum
      refine ⟨ReturnType.eq_of_error_iff (hcode.trans hcode'.symm), hopen, ?_, ?_,
        haccum.trans haccum'.symm⟩
      · rw [hL, hL', h.wheelL]
      · rw [hR, hR', h.wheelR]

omit [LinearOrder K] in
theorem SameOdometry.exported (h : SameOdometry s s') :
    s.wheelL.exported = s'.wheelL.exported ∧ s.wheelR.exported = s'.wheelR.exported := by
  obtain ⟨-, hpos, hvel, -⟩ := uncommanded_fields h.wheelL
  obtain ⟨-, hpos', hvel', -⟩ := uncommanded_fields h.wheelR
  exact ⟨Prod.ext hpos hvel, Prod.ext hpos' hvel'⟩

omit [LinearOrder K] in
theorem SameOdometry.symm (h : SameOdometry s s') : SameOdometry s' s :=
  ⟨h.connected.symm, h.wheelL.symm, h.wheelR.symm, h.encDtAccum.symm⟩

omit [LinearOrder K] in
theorem SameOdometry.activate {reset steering : WriteOutcome} (h : SameOdometry s s') :
    SameOdometry (onActivate num s reset steering).2.2 (onActivate num s' reset steering).2.2 := by
  cases hconn : s.canComms.connected with
  | false =>
    have hconn' : s'.canComms.connected = false := h.connected ▸ hconn
    simpa [onActivate, hconn, hconn'] using h
  | true =>
    have hconn' : s'.canComms.connected = true := h.connected ▸ hconn
    simp only [onActivate, hconn, hconn', Bool.not_true, Bool.false_eq_true, if_false]
    refine ⟨?_, ?_, ?_, rfl⟩
    · simp only [CanComms.sendHardwareReset, CanComms.setSteering, connected_send, h.connected]
    · exact congrArg (fun wheel : DriveWheel K => { wheel with enc := 0, pos := 0, vel := 0 })
        h.wheelL
    · exact congrArg (fun wheel : DriveWheel K => { wheel with enc := 0, pos := 0, vel := 0 })
        h.wheelR

omit [LinearOrder K] in
theorem sameOdometry_deactivate (num : Numerics K) (s : System K) (motor steering : WriteOutcome) :
    SameOdometry (onDeactivate num s motor steering).2.2 s := by
  simp only [onDeactivate]
  split
  · refine ⟨?_, rfl, rfl, rfl⟩
    simp only [CanComms.setMotorValues, CanComms.setSteering, connected_send]
  · exact .refl s

/-- What is not a read does to the wheels what it does to them elsewhere. -/
theorem SameOdometry.other (h : SameOdometry s s') (he : e.isRead = false) :
    SameOdometry (step num s e) (step num s' e) := by
  cases e with
  | read frames period => cases he
  | configure connects => exact ⟨rfl, h.wheelL, h.wheelR, h.encDtAccum⟩
  | cleanup => exact ⟨rfl, h.wheelL, h.wheelR, h.encDtAccum⟩
  | activate reset steering => exact h.activate
  | deactivate motor steering =>
    exact ((sameOdometry_deactivate num s motor steering).trans h).trans
      (sameOdometry_deactivate num s' motor steering).symm
  | write steering motor =>
    exact ((sameOdometry_write num steering motor).trans h).trans
      (sameOdometry_write num steering motor).symm
  | command port value =>
    exact ((sameOdometry_command port value).trans h).trans (sameOdometry_command port value).symm

/-- **One event of each run**, as the wheels see it. -/
theorem SameOdometry.step (h : SameOdometry s s') (he : SameEncoder e e') :
    wheelView num s e = wheelView num s' e' ∧
      SameOdometry (Ackermann.step num s e) (Ackermann.step num s' e') := by
  suffices hsame : (wheelView num s e).1 = (wheelView num s' e').1 ∧
      SameOdometry (Ackermann.step num s e) (Ackermann.step num s' e') from
    ⟨Prod.ext hsame.1 (Prod.ext hsame.2.exported.1 hsame.2.exported.2), hsame.2⟩
  cases e with
  | read frames period =>
    cases e' with
    | read frames' period' =>
      obtain ⟨hsource, rfl⟩ := he
      obtain ⟨hcode, hsame⟩ := h.read (drained_encoder num hsource)
      exact ⟨congrArg some hcode, hsame⟩
    | configure | cleanup | activate | deactivate | write | command => cases he
  | configure | cleanup | activate | deactivate | write | command =>
    obtain rfl := he
    exact ⟨rfl, h.other rfl⟩

/-! ## The IMU -/

/-- The socket, the sequence state, and the IMU agree. -/
structure SameImu (s s' : System K) : Prop where
  connected : s.canComms.connected = s'.canComms.connected
  expectedSeq : s.canComms.expectedSeq = s'.canComms.expectedSeq
  seqInitialized : s.canComms.seqInitialized = s'.canComms.seqInitialized
  imu : s.imu = s'.imu

omit [Field K] [LinearOrder K] in
theorem SameImu.trans {s'' : System K} (h : SameImu s s') (h' : SameImu s' s'') : SameImu s s'' :=
  ⟨h.connected.trans h'.connected, h.expectedSeq.trans h'.expectedSeq,
    h.seqInitialized.trans h'.seqInitialized, h.imu.trans h'.imu⟩

omit [Field K] [LinearOrder K] in
theorem SameImu.symm (h : SameImu s s') : SameImu s' s :=
  ⟨h.connected.symm, h.expectedSeq.symm, h.seqInitialized.symm, h.imu.symm⟩

omit [Field K] [LinearOrder K] in
/-- What leaves the IMU alone in each run keeps the agreement. -/
theorem SameImu.congr {t t' : System K} (h : SameImu s s') (hs : SameImu t s)
    (hs' : SameImu t' s') : SameImu t t' :=
  (hs.trans h).trans hs'.symm

theorem sameImu_readSteering (num : Numerics K) (fb : SteeringFeedback K) :
    SameImu (readSteering num s fb) s := by
  simp only [readSteering]
  split <;> exact ⟨rfl, rfl, rfl, rfl⟩

theorem sameImu_readOdometry (gotEnc : Bool) (l_enc r_enc : ℤ) :
    SameImu (readOdometry s gotEnc l_enc r_enc period).2 s := by
  simp only [readOdometry]
  split <;> exact ⟨rfl, rfl, rfl, rfl⟩

omit [LinearOrder K] in
theorem canComms_readImu {d : Drain K} : (readImu s d).canComms = s.canComms := by
  simp only [readImu]
  repeat' split
  all_goals rfl

omit [LinearOrder K] in
/-- The IMU part makes the same of the same pair. -/
theorem SameImu.readImu {d d' : Drain K} (h : SameImu s s') (haccel : d.accelPart = d'.accelPart)
    (hgyro : d.gyroPart = d'.gyroPart) :
    SameImu (Ackermann.readImu s d) (Ackermann.readImu s' d') := by
  have himu := h.imu
  simp only [System.imu, ImuState.mk.injEq] at himu
  simp only [Drain.accelPart, Drain.gyroPart, Prod.mk.injEq] at haccel hgyro
  refine ⟨?_, ?_, ?_, ?_⟩
  · rw [canComms_readImu, canComms_readImu, h.connected]
  · rw [canComms_readImu, canComms_readImu, h.expectedSeq]
  · rw [canComms_readImu, canComms_readImu, h.seqInitialized]
  · simp only [Ackermann.readImu, himu, haccel, hgyro]
    repeat' split
    all_goals simp [System.imu]

omit [LinearOrder K] in
/-- What becomes of a pair, and the sequence state after it. -/
theorem SameImu.readSensorValues (h : SameImu s s')
    (haccel : (drained num frames).accelPart = (drained num frames').accelPart)
    (hgyro : (drained num frames).gyroPart = (drained num frames').gyroPart) :
    (s.canComms.readSensorValues num frames).1.imu =
        (s'.canComms.readSensorValues num frames').1.imu ∧
      SameImu { s with canComms := (s.canComms.readSensorValues num frames).2.2 }
        { s' with canComms := (s'.canComms.readSensorValues num frames').2.2 } := by
  simp only [Drain.accelPart, Drain.gyroPart, Prod.mk.injEq] at haccel hgyro
  rw [drained, drained] at haccel hgyro
  simp only [CanComms.readSensorValues, haccel, hgyro, h.expectedSeq, h.seqInitialized]
  repeat' split
  all_goals exact ⟨rfl, h.connected, by simp [h.expectedSeq], by simp [h.seqInitialized], h.imu⟩

/-- **Reads of the same IMU frames** do the same to the IMU. -/
theorem SameImu.read (h : SameImu s s') (haccel : SameSource IMU_ACCEL_FRAME_ID frames frames')
    (hgyro : SameSource IMU_GYRO_FLAGS_FRAME_ID frames frames') :
    SameImu (Ackermann.read num s frames period).2 (Ackermann.read num s' frames' period').2 := by
  have haccel' := drained_accel num haccel
  have hgyro' := drained_gyro num hgyro
  cases hconn : s.canComms.connected with
  | false =>
    rw [read_of_closed num frames period hconn,
      read_of_closed num frames' period' (h.connected ▸ hconn)]
    exact h
  | true =>
    have hconn' : s'.canComms.connected = true := h.connected ▸ hconn
    obtain ⟨hstatus, hsensors⟩ := h.readSensorValues haccel' hgyro'
    have hsteered := fun fb fb' : SteeringFeedback K => hsensors.congr
      (sameImu_readSteering num fb) (sameImu_readSteering num fb')
    simp only [Ackermann.read, hconn, hconn', Bool.not_true, Bool.false_eq_true, if_false, hstatus,
      (readSensorValues_fields num _ _).2.1]
    refine SameImu.congr ?_ (sameImu_readOdometry ..) (sameImu_readOdometry ..)
    split
    · exact (hsteered _ _).readImu haccel' hgyro'
    · exact hsteered _ _

omit [Field K] [LinearOrder K] in
/-- Sending changes nothing the IMU part looks at. -/
theorem seq_send {c : CanComms} {frame : CanFrame} {outcome : WriteOutcome} :
    (c.send frame outcome).2.2.expectedSeq = c.expectedSeq ∧
      (c.send frame outcome).2.2.seqInitialized = c.seqInitialized := by
  cases outcome <;> exact ⟨rfl, rfl⟩

omit [LinearOrder K] in
theorem SameImu.activate {reset steering : WriteOutcome} (h : SameImu s s') :
    SameImu (onActivate num s reset steering).2.2 (onActivate num s' reset steering).2.2 := by
  cases hconn : s.canComms.connected with
  | false =>
    have hconn' : s'.canComms.connected = false := h.connected ▸ hconn
    simpa [onActivate, hconn, hconn'] using h
  | true =>
    have hconn' : s'.canComms.connected = true := h.connected ▸ hconn
    have himu := h.imu
    simp only [System.imu, ImuState.mk.injEq] at himu
    simp only [onActivate, hconn, hconn', Bool.not_true, Bool.false_eq_true, if_false,
      CanComms.sendHardwareReset, CanComms.setSteering]
    refine ⟨?_, ?_, ?_, by simp [System.imu, himu]⟩
    · rw [connected_send, connected_send, connected_send, connected_send, h.connected]
    · rw [seq_send.1, seq_send.1, seq_send.1, seq_send.1, h.expectedSeq]
    · rw [seq_send.2, seq_send.2, seq_send.2, seq_send.2, h.seqInitialized]

omit [LinearOrder K] in
theorem sameImu_deactivate (motor steering : WriteOutcome) :
    SameImu (onDeactivate num s motor steering).2.2 s := by
  simp only [onDeactivate, CanComms.setMotorValues, CanComms.setSteering]
  split
  · exact ⟨connected_send.trans connected_send, seq_send.1.trans seq_send.1,
      seq_send.2.trans seq_send.2, rfl⟩
  · exact ⟨rfl, rfl, rfl, rfl⟩

theorem sameImu_write (steering motor : WriteOutcome) :
    SameImu (write num s steering motor).2.2 s := by
  obtain ⟨t, f, g, hwrite⟩ := write_touches num s steering motor
  rw [hwrite]
  exact ⟨rfl, rfl, rfl, rfl⟩

omit [Field K] [LinearOrder K] in
theorem sameImu_command (port : CommandInterface) (value : K) :
    SameImu (s.command port value) s := by
  cases port <;> exact ⟨rfl, rfl, rfl, rfl⟩

/-- **One event of each run**, as the IMU sees it. -/
theorem SameImu.step (h : SameImu s s') (he : SameImuFrames e e') :
    imuView num s e = imuView num s' e' ∧
      SameImu (Ackermann.step num s e) (Ackermann.step num s' e') := by
  suffices hsame : SameImu (Ackermann.step num s e) (Ackermann.step num s' e') from
    ⟨hsame.imu, hsame⟩
  cases e with
  | read frames period =>
    cases e' with
    | read frames' period' => exact h.read he.1 he.2
    | configure | cleanup | activate | deactivate | write | command => cases he
  | configure connects =>
    obtain rfl := he
    exact ⟨rfl, h.expectedSeq, h.seqInitialized, h.imu⟩
  | cleanup =>
    obtain rfl := he
    exact ⟨rfl, h.expectedSeq, h.seqInitialized, h.imu⟩
  | activate reset steering =>
    obtain rfl := he
    exact h.activate
  | deactivate motor steering =>
    obtain rfl := he
    exact h.congr (sameImu_deactivate motor steering) (sameImu_deactivate motor steering)
  | write steering motor =>
    obtain rfl := he
    exact h.congr (sameImu_write steering motor) (sameImu_write steering motor)
  | command port value =>
    obtain rfl := he
    exact h.congr (sameImu_command port value) (sameImu_command port value)

/-! ## Whole runs -/

/-- **The sources do not interfere**: two runs with the same encoder frames
and periods agree in the wheels and in every code, and two with the same IMU
frames in all the IMU's values, whatever else the frames of the two are. -/
theorem sources_do_not_interfere (num : Numerics K) (s s' : System K) (es es' : List (Event K)) :
    (SameOdometry s s' → List.Forall₂ SameEncoder es es' →
      Run.trail (step num) (wheelView num) s es = Run.trail (step num) (wheelView num) s' es') ∧
    (SameImu s s' → List.Forall₂ SameImuFrames es es' →
      Run.trail (step num) (imuView num) s es = Run.trail (step num) (imuView num) s' es') :=
  ⟨Run.trail_eq fun _ _ _ _ h he => h.step he, Run.trail_eq fun _ _ _ _ h he => h.step he⟩

end Simulation

/-- The start of a session, and one cycle that finds these frames. -/
def oneCycle (frames : List Received) : List (Event ℚ) :=
  [.configure true, .activate none none, .read frames (1 / 30)]

/-- A frame of eight zeros. -/
def blankFrame (id : ℕ) : Received := CanFrame.received ⟨id, 8, Vector.replicate 8 0⟩

/-- A cycle with and without a cut-off IMU frame and a steering report, and
one with and without an encoder frame. -/
theorem sources_do_not_interfere_oneCycle :
    Run.trail (step sampleNumerics) (wheelView sampleNumerics) sampleSystem
        (oneCycle [(velocityFeedback 10 20).received]) =
      Run.trail (step sampleNumerics) (wheelView sampleNumerics) sampleSystem
        (oneCycle [CanFrame.received ⟨IMU_ACCEL_FRAME_ID, 3, Vector.replicate 8 255⟩,
          (velocityFeedback 10 20).received, blankFrame STEERING_FEEDBACK_FRAME_ID]) ∧
    Run.trail (step sampleNumerics) (imuView sampleNumerics) sampleSystem
        (oneCycle [blankFrame IMU_ACCEL_FRAME_ID, blankFrame IMU_GYRO_FLAGS_FRAME_ID]) =
      Run.trail (step sampleNumerics) (imuView sampleNumerics) sampleSystem
        (oneCycle [blankFrame IMU_GYRO_FLAGS_FRAME_ID, (velocityFeedback 10 20).received,
          blankFrame IMU_ACCEL_FRAME_ID]) :=
  ⟨(sources_do_not_interfere sampleNumerics _ _ _ _).1 (.refl _)
      (.cons rfl (.cons rfl (.cons ⟨by decide +kernel, rfl⟩ .nil))),
    (sources_do_not_interfere sampleNumerics _ _ _ _).2 ⟨rfl, rfl, rfl, rfl⟩
      (.cons rfl (.cons rfl (.cons ⟨by decide +kernel, by decide +kernel⟩ .nil)))⟩

end Ackermann

end VehicleStack
