import VehicleStack.Ackermann.Frames
import VehicleStack.Common.Framing

/-!
# The serial link

`serial_comms.hpp`: the microcontroller's packets come in a stream of bytes,
and a read takes what has arrived and looks for the newest of them. Where it
finds one it forgets everything up to its end; where it finds none, all but
the last 35 bytes. More than 512 bytes are not looked at.
-/

namespace VehicleStack

namespace Serial

open Ackermann

abbrev Bytes : Type := List UInt8

/-- `sizeof(FirmwareData)`. -/
def PACKET : ℕ := 36

/-- The cap on the buffer. -/
def CAP : ℕ := 512

/-- What a read hands over. -/
structure Sensors (K : Type) where
  val_1 : ℤ
  val_2 : ℤ
  imu : List K
  is_imu_reset : Bool
  deriving DecidableEq, Repr

/-- The sum of bytes 0 to 34. -/
def checksum (p : Bytes) : UInt8 := (p.take (PACKET - 1)).foldl (· + ·) 0

/-- The two headers and the checksum. -/
def isPacket (p : Bytes) : Bool :=
  p.getD 0 0 == 0xAA && p.getD 1 0 == 0x55 && checksum p == p.getD 35 0

section Read

variable {K : Type} (num : Numerics K)

/-- The four bytes of a field. -/
def field (p : Bytes) (i : ℕ) : Vector UInt8 4 :=
  #v[p.getD i 0, p.getD (i + 1) 0, p.getD (i + 2) 0, p.getD (i + 3) 0]

/-- An `int32_t` of a packet, and a `float`. -/
def intField (p : Bytes) (i : ℕ) : ℤ :=
  int32 (le32 (p.getD i 0) (p.getD (i + 1) 0) (p.getD (i + 2) 0) (p.getD (i + 3) 0))

def floatField (p : Bytes) (i : ℕ) : K := num.unpackFloat (field p i)

/-- `FirmwareData`, as far as it is handed over. -/
def sensorsOf (p : Bytes) : Sensors K where
  val_1 := intField p 2
  val_2 := intField p 6
  imu := [10, 14, 18, 22, 26, 30].map (floatField num p)
  is_imu_reset := p.getD 34 0 == 1

/-- `read_sensor_values`, of a buffer and the bytes that have arrived. -/
def readSensorValues (buffer newData : Bytes) : Option (Sensors K) × Bytes :=
  let buffer := buffer ++ newData
  if buffer.length < PACKET then (none, buffer)
  else if buffer.length > CAP then (none, buffer.drop (buffer.length - (PACKET - 1)))
  else
    match Framing.newestFrom PACKET isPacket buffer (buffer.length - PACKET) with
    | some best_idx =>
      (some (sensorsOf num (Framing.window PACKET buffer best_idx)),
        buffer.drop (best_idx + PACKET))
    | none => (none, buffer.drop (buffer.length - (PACKET - 1)))

/-- The buffer after a read. -/
def step (buffer newData : Bytes) : Bytes := (readSensorValues num buffer newData).2

/-- What it has handed over. -/
def handed (buffer newData : Bytes) : Option (Sensors K) := (readSensorValues num buffer newData).1

end Read

end Serial

end VehicleStack
