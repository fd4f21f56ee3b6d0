import VehicleStack.Common.Run
import VehicleStack.Serial.Model

/-!
# The serial link — the stream

However the stream is cut, and whatever is between the packets, the reads
hand over what a reader does that forgets nothing it might still need, as
long as the cap is not reached (`reads_newest`). Where the stream is packets
alone, none of which starts within another, and they do not come faster than
they are read, each is handed over once and in its order
(`packets_received`).
-/

namespace VehicleStack

namespace Serial

open Ackermann Framing

variable {K : Type} {num : Numerics K} {buffer newData pending p : Bytes} {i : ℕ}

/-! ## A read -/

/-- The reader that forgets nothing, between two reads and what it hands
over. -/
def keep (pending newData : Bytes) : Bytes := (receive PACKET isPacket pending newData).2

def kept (num : Numerics K) (pending newData : Bytes) : Option (Sensors K) :=
  (receive PACKET isPacket pending newData).1.map (sensorsOf num)

/-- The buffer before a read has looked at it is not too long. -/
def Fits (buffer newData : Bytes) : Prop := (buffer ++ newData).length ≤ CAP

instance : Decidable (Fits buffer newData) := inferInstanceAs (Decidable (_ ≤ _))

/-- What a read does, by what it finds. -/
theorem readSensorValues_cases (num : Numerics K) (h : Fits buffer newData) :
    (∃ i, newest PACKET isPacket (buffer ++ newData) = some i ∧
      readSensorValues num buffer newData =
        (some (sensorsOf num (window PACKET (buffer ++ newData) i)),
          (buffer ++ newData).drop (i + PACKET))) ∨
      newest PACKET isPacket (buffer ++ newData) = none ∧ ∃ n,
        (n + PACKET ≤ (buffer ++ newData).length + 1 ∨ n = 0) ∧
        readSensorValues num buffer newData = (none, (buffer ++ newData).drop n) := by
  have hcap : ¬ (buffer ++ newData).length > CAP := Nat.not_lt.2 h
  have hpacket : PACKET = 36 := rfl
  unfold readSensorValues newest
  dsimp only
  by_cases hshort : (buffer ++ newData).length < PACKET
  · rw [if_pos hshort, if_pos hshort]
    exact Or.inr ⟨rfl, 0, Or.inr rfl, rfl⟩
  · rw [if_neg hshort, if_neg hcap, if_neg hshort]
    rcases newestFrom PACKET isPacket (buffer ++ newData) ((buffer ++ newData).length - PACKET)
      with _ | i
    · exact Or.inr ⟨rfl, _, Or.inl (by omega), rfl⟩
    · exact Or.inl ⟨i, rfl, rfl⟩

/-- **A read keeps what matters**, and hands over what there is. -/
theorem read_of_suffices (h : Suffices PACKET isPacket buffer pending)
    (hfits : Fits buffer newData) :
    handed num buffer newData = kept num pending newData ∧
      Suffices PACKET isPacket (step num buffer newData) (keep pending newData) := by
  have hmore : Suffices PACKET isPacket (buffer ++ newData) (pending ++ newData) := h.append
  rcases readSensorValues_cases num hfits with ⟨i, hn, hread⟩ | ⟨hn, n, hlen, hread⟩
  · obtain ⟨j, hj, hwindow, hrest⟩ := newest_of_suffices hmore hn
    unfold handed step kept keep receive
    rw [hread, hj]
    dsimp only [Option.map_some]
    rw [hwindow, hrest]
    exact ⟨rfl, suffices_refl⟩
  · have hj := newest_none_of_suffices hmore hn
    unfold handed step kept keep receive
    rw [hread, hj]
    exact ⟨rfl, suffices_of_newest_none hmore hn (by decide) hlen⟩

/-- No read leaves more than the cap less a packet. -/
theorem length_step : (step num buffer newData).length + PACKET ≤ CAP := by
  have hpacket : PACKET = 36 := rfl
  have hcap : CAP = 512 := rfl
  unfold step readSensorValues
  dsimp only
  split
  · dsimp only
    omega
  · split
    · rw [List.length_drop]
      omega
    · split
      · rw [List.length_drop]
        omega
      · rw [List.length_drop]
        omega

/-- **The newest packet, whatever is around it.** The buffer stays short of
the cap by a packet in every run; and in one in which no read finds more than
the cap, the reads hand over what the reader does that forgets nothing. -/
theorem reads_newest (num : Numerics K) (chunks : List Bytes) :
    Run.Throughout (step num) (fun buffer => buffer.length + PACKET ≤ CAP) [] chunks ∧
      (Run.Along (step num) Fits [] chunks →
        Run.trail (step num) (handed num) [] chunks = Run.trail keep (kept num) [] chunks) := by
  constructor
  · exact Run.throughout_of_along (P := fun _ _ => True) (fun _ _ _ _ => length_step)
      (fun _ h => h) (by decide) (Run.along_of_forall fun _ _ => trivial)
  · intro hfits
    exact Run.trail_eq_of_along (fun _ _ _ h hfit => read_of_suffices h hfit) suffices_refl hfits

/-! ## The other end -/

/-- What the microcontroller puts into a packet. -/
structure Firmware (K : Type) where
  leftTicks : ℤ
  rightTicks : ℤ
  accelX : K
  accelY : K
  accelZ : K
  gyroX : K
  gyroY : K
  gyroZ : K
  isImuReset : UInt8

/-- The four bytes of a field, in their order. -/
def bytesOf (v : Vector UInt8 4) : Bytes := [v.get 0, v.get 1, v.get 2, v.get 3]

/-- Bytes 0 to 34, as the head of the file lays them out, and what follows. -/
def layout (left right ax ay az gx gy gz : Vector UInt8 4) (reset : UInt8) (rest : Bytes) :
    Bytes :=
  0xAA :: 0x55 :: (bytesOf left ++ (bytesOf right ++ (bytesOf ax ++ (bytesOf ay ++ (bytesOf az ++
    (bytesOf gx ++ (bytesOf gy ++ (bytesOf gz ++ reset :: rest))))))))

def Firmware.fields (num : Numerics K) (x : Firmware K) (rest : Bytes) : Bytes :=
  layout (bytes32 x.leftTicks) (bytes32 x.rightTicks) (num.packFloat x.accelX)
    (num.packFloat x.accelY) (num.packFloat x.accelZ) (num.packFloat x.gyroX)
    (num.packFloat x.gyroY) (num.packFloat x.gyroZ) x.isImuReset rest

/-- The packet. Its last byte is the sum of the others. -/
def packetOf (num : Numerics K) (x : Firmware K) : Bytes :=
  x.fields num [(x.fields num []).foldl (· + ·) 0]

/-- What is to be handed over of it. -/
def Firmware.sensors (x : Firmware K) : Sensors K where
  val_1 := int32 x.leftTicks
  val_2 := int32 x.rightTicks
  imu := [x.accelX, x.accelY, x.accelZ, x.gyroX, x.gyroY, x.gyroZ]
  is_imu_reset := x.isImuReset == 1

section Packet

variable {x : Firmware K} {xs : List (Firmware K)} {chunks : List Bytes}

theorem mk_get (v : Vector UInt8 4) :
    (#v[v.get 0, v.get 1, v.get 2, v.get 3] : Vector UInt8 4) = v := by
  refine Vector.ext fun i hi => ?_
  match i, hi with
  | 0, _ | 1, _ | 2, _ | 3, _ => rfl

theorem field_first {v : Vector UInt8 4} {rest : Bytes} : field (bytesOf v ++ rest) 0 = v :=
  mk_get v

theorem field_skip {v : Vector UInt8 4} {rest : Bytes} :
    field (bytesOf v ++ rest) (i + 4) = field rest i := rfl

theorem field_cons {b : UInt8} {rest : Bytes} : field (b :: rest) (i + 1) = field rest i := rfl

/-- Where the fields are. -/
theorem field_layout (left right ax ay az gx gy gz : Vector UInt8 4) (reset : UInt8)
    (rest : Bytes) :
    let p := layout left right ax ay az gx gy gz reset rest
    field p 2 = left ∧ field p 6 = right ∧ field p 10 = ax ∧ field p 14 = ay ∧ field p 18 = az ∧
      field p 22 = gx ∧ field p 26 = gy ∧ field p 30 = gz ∧ p.getD 34 0 = reset := by
  simp only [layout, field_cons, field_skip, field_first, true_and]
  rfl

/-- What the checksum is taken of. -/
theorem take_layout (left right ax ay az gx gy gz : Vector UInt8 4) (reset sum : UInt8) :
    let p := layout left right ax ay az gx gy gz reset [sum]
    p.take 35 = layout left right ax ay az gx gy gz reset [] ∧ p.getD 35 0 = sum ∧
      p.length = 36 :=
  ⟨rfl, rfl, rfl⟩

theorem length_packetOf : (packetOf num x).length = PACKET := (take_layout ..).2.2

theorem isPacket_packetOf : isPacket (packetOf num x) = true := by
  have hlast : (packetOf num x).getD 35 0 = (x.fields num []).foldl (· + ·) 0 :=
    (take_layout ..).2.1
  have hcheck : checksum (packetOf num x) = (x.fields num []).foldl (· + ·) 0 :=
    congrArg (List.foldl (· + ·) 0) (take_layout ..).1
  have hhead : (packetOf num x).getD 0 0 = 0xAA ∧ (packetOf num x).getD 1 0 = 0x55 := ⟨rfl, rfl⟩
  unfold isPacket
  rw [hlast, hcheck, hhead.1, hhead.2]
  simp only [BEq.rfl, Bool.and_true]

theorem intField_of_field {n : ℤ} (h : field p i = bytes32 n) : intField p i = int32 n := by
  rw [← int32_bytes32, ← h]
  rfl

/-- **A packet is read as it was written.** -/
theorem sensorsOf_packetOf (hfloat : ∀ f, num.unpackFloat (num.packFloat f) = f) :
    sensorsOf num (packetOf num x) = x.sensors := by
  obtain ⟨hleft, hright, hax, hay, haz, hgx, hgy, hgz, hreset⟩ := field_layout
    (bytes32 x.leftTicks) (bytes32 x.rightTicks) (num.packFloat x.accelX)
    (num.packFloat x.accelY) (num.packFloat x.accelZ) (num.packFloat x.gyroX)
    (num.packFloat x.gyroY) (num.packFloat x.gyroZ) x.isImuReset [(x.fields num []).foldl (· + ·) 0]
  unfold packetOf sensorsOf Firmware.sensors Firmware.fields at *
  simp only [List.map_cons, List.map_nil, floatField]
  rw [intField_of_field hleft, intField_of_field hright, hreset, hax, hay, haz, hgx, hgy, hgz]
  simp only [hfloat]

/-! ## Packets alone -/

/-- The stream of packets. -/
def streamOf (num : Numerics K) (xs : List (Firmware K)) : Bytes := xs.flatMap (packetOf num)

/-- No packet starts within another. -/
def Clear (stream : Bytes) : Prop := ∀ i, isPacket (window PACKET stream i) = true → PACKET ∣ i

/-- Only what is in the stream can start a packet. -/
theorem clear_iff {stream : Bytes} : Clear stream ↔
    ∀ i < stream.length, isPacket (window PACKET stream i) = true → PACKET ∣ i := by
  refine ⟨fun h i _ => h i, fun h i hi => ?_⟩
  rcases Nat.lt_or_ge i stream.length with hlt | hge
  · exact h i hlt hi
  · rw [window, List.drop_eq_nil_of_le hge] at hi
    exact absurd hi (by decide)

instance {stream : Bytes} : Decidable (Clear stream) := decidable_of_iff _ clear_iff.symm

theorem drop_streamOf : (streamOf num (x :: xs)).drop PACKET = streamOf num xs := by
  rw [streamOf, List.flatMap_cons, ← length_packetOf, List.drop_left]
  rfl

theorem Clear.tail (h : Clear (streamOf num (x :: xs))) : Clear (streamOf num xs) := by
  intro i hi
  rw [← drop_streamOf, window_drop] at hi
  exact (Nat.dvd_add_right (Nat.dvd_refl PACKET)).1 (h _ hi)

/-- What is there of a stream of packets, if it is no more than one and a
part: the first packet is the newest. -/
theorem newest_stream {buffer rest : Bytes} (hclear : Clear (streamOf num (x :: xs)))
    (hstream : buffer ++ rest = streamOf num (x :: xs)) (hlong : PACKET ≤ buffer.length)
    (hshort : buffer.length < PACKET + PACKET) :
    newest PACKET isPacket buffer = some 0 ∧ window PACKET buffer 0 = packetOf num x := by
  have hsame : ∀ k, k + PACKET ≤ buffer.length →
      window PACKET buffer k = window PACKET (streamOf num (x :: xs)) k := by
    intro k hk
    rw [← hstream, window_append hk]
  have hfirst : window PACKET buffer 0 = packetOf num x := by
    rw [hsame 0 (by omega), window, List.drop_zero, streamOf, List.flatMap_cons,
      ← length_packetOf, List.take_left]
  refine ⟨newest_eq_some_iff.2 ⟨by omega, ?_, fun k hk hk' => ?_⟩, hfirst⟩
  · rw [hfirst]
    exact isPacket_packetOf
  · rw [← Bool.not_eq_true]
    intro hvalid
    rw [hsame k hk'] at hvalid
    have hdvd := Nat.le_of_dvd hk (hclear k hvalid)
    omega

/-- **A stream of packets, one at a time.** What is in the buffer is less
than a packet, and the packets that are left begin with it. -/
theorem shown_stream (hfloat : ∀ f, num.unpackFloat (num.packFloat f) = f) :
    ∀ (chunks : List Bytes) (buffer : Bytes) (xs : List (Firmware K)),
      buffer.length < PACKET → (∀ c ∈ chunks, c.length ≤ PACKET) →
      buffer ++ chunks.flatten = streamOf num xs → Clear (streamOf num xs) →
      Run.shown (step num) (handed num) buffer chunks = xs.map Firmware.sensors := by
  have hpacket : PACKET = 36 := rfl
  have hcap : CAP = 512 := rfl
  intro chunks
  induction chunks with
  | nil =>
    intro buffer xs hshort hsmall hstream hclear
    rcases xs with _ | ⟨x, xs⟩
    · rfl
    · rw [List.flatten_nil, List.append_nil] at hstream
      rw [hstream, streamOf, List.flatMap_cons, List.length_append, length_packetOf] at hshort
      omega
  | cons chunk chunks ih =>
    intro buffer xs hshort hsmall hstream hclear
    have hlen := hsmall chunk List.mem_cons_self
    have hsmall' := fun c hc => hsmall c (List.mem_cons_of_mem _ hc)
    have htotal : (buffer ++ chunk).length < PACKET + PACKET := by
      rw [List.length_append]
      omega
    rw [List.flatten_cons, ← List.append_assoc] at hstream
    rw [Run.shown_cons]
    by_cases hpart : (buffer ++ chunk).length < PACKET
    · have hread : readSensorValues num buffer chunk = (none, buffer ++ chunk) := if_pos hpart
      unfold handed step
      rw [hread]
      exact ih _ _ hpart hsmall' hstream hclear
    · rcases xs with _ | ⟨x, xs⟩
      · have hnone : buffer ++ chunk = [] := (List.append_eq_nil_iff.1 hstream).1
        rw [hnone, List.length_nil] at hpart
        omega
      obtain ⟨hnewest, hfirst⟩ := newest_stream hclear hstream (by omega) htotal
      have hfits : Fits buffer chunk := by
        rw [Fits]
        omega
      rcases readSensorValues_cases num hfits with ⟨i, hi, hread⟩ | ⟨hnone, -⟩
      · rw [hnewest, Option.some.injEq] at hi
        subst hi
        rw [hfirst, sensorsOf_packetOf hfloat, Nat.zero_add] at hread
        have hrest : (buffer ++ chunk).drop PACKET ++ chunks.flatten = streamOf num xs := by
          rw [← List.drop_append_of_le_length (by omega), hstream, drop_streamOf]
        have hleft : ((buffer ++ chunk).drop PACKET).length < PACKET := by
          rw [List.length_drop]
          omega
        unfold handed step
        rw [hread, List.map_cons]
        exact congrArg (_ :: ·) (ih _ _ hleft hsmall' hrest hclear.tail)
      · rw [hnewest] at hnone
        cases hnone

/-- **Packets are received.** A stream of packets, none of which starts
within another, is cut anywhere, with no more in a piece than a packet has:
what is handed over is what the packets hold, each once and in their
order. -/
theorem packets_received (num : Numerics K) (hfloat : ∀ f, num.unpackFloat (num.packFloat f) = f)
    (xs : List (Firmware K)) (chunks : List Bytes) (hsmall : ∀ c ∈ chunks, c.length ≤ PACKET)
    (hstream : chunks.flatten = streamOf num xs) (hclear : Clear (streamOf num xs)) :
    Run.shown (step num) (handed num) [] chunks = xs.map Firmware.sensors :=
  shown_stream hfloat chunks [] xs (by decide) hsmall hstream hclear

end Packet

/-- A `float` as its four bytes. -/
def rawFloats : Numerics (Vector UInt8 4) where
  packFloat := id
  unpackFloat := id
  tan := id
  atan := id
  pi := .replicate 4 0

/-- The wheels turn between two packets. -/
def turning : List (Firmware (Vector UInt8 4)) :=
  let still : Vector UInt8 4 := .replicate 4 0
  [⟨7, -7, still, still, #v[0, 0, 128, 63], still, still, still, 0⟩,
    ⟨12, -11, still, still, #v[0, 0, 128, 63], still, still, still, 1⟩]

theorem packets_received_turning :
    Run.shown (step rawFloats) (handed rawFloats) []
      [(streamOf rawFloats turning).take 20, ((streamOf rawFloats turning).drop 20).take 30,
        (streamOf rawFloats turning).drop 50] = turning.map Firmware.sensors :=
  packets_received rawFloats (fun _ => rfl) turning _ (by decide +kernel) (by decide +kernel)
    (by decide +kernel)

/-- Half a packet behind some noise, the rest of it, and then one that comes
twice. -/
def noisy : List Bytes :=
  let packets := turning.map (packetOf rawFloats)
  [[0x55, 0xAA, 0x55] ++ (packets.getD 0 []).take 20, (packets.getD 0 []).drop 20,
    packets.getD 1 [] ++ packets.getD 1 [] ++ [0xAA]]

/-- The reader that forgets nothing skips the noise, and the first of two
packets that wait. -/
theorem reads_newest_noisy : Run.trail (step rawFloats) (handed rawFloats) [] noisy =
    none :: turning.map fun x => some x.sensors :=
  ((reads_newest rawFloats noisy).2 (by decide +kernel)).trans (by decide +kernel)

end Serial

end VehicleStack
