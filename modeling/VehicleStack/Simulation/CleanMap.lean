import Mathlib.Algebra.Order.Field.Basic
import Mathlib.Algebra.Order.Floor.Defs
import Mathlib.Data.List.MinMax
import Mathlib.Data.Rat.Floor

/-!
# The map cleaner — `clean_map_from_bag`

The tool replays a bag over the map that was recorded with it. Every beam is
drawn as a line of cells from the sensor to its return point; an occupied
cell before the return has been seen through, and the cell of the return has
been hit. A cell that is seen through often and hit hardly ever is erased.
-/

namespace VehicleStack

namespace Simulation

/-- Independent look-throughs before a cell may be erased. -/
def MIN_SEEN : ℕ := 50

/-- It must have returned on no more than this share of them. -/
def HIT_RATIO : ℚ := 0.02

/-- The trigonometry of the machine. -/
structure Trig (K : Type) where
  cos : K → K
  sin : K → K
  atan2 : K → K → K

/-! ## What a bag holds -/

structure Quaternion (K : Type) where
  x : K
  y : K
  z : K
  w : K
  deriving DecidableEq, Repr

structure Transform (K : Type) where
  translation : K × K
  rotation : Quaternion K
  deriving DecidableEq, Repr

structure TransformStamped (K : Type) where
  frameId : String
  childFrameId : String
  transform : Transform K
  deriving DecidableEq, Repr

/-- `/map`. A row of cells after the other, from the origin up. -/
structure OccupancyGrid (K : Type) where
  resolution : K
  origin : K × K
  width : ℕ
  height : ℕ
  data : List ℤ
  deriving DecidableEq, Repr

/-- `/scan`. A range that is not a finite number is `none`. -/
structure LaserScan (K : Type) where
  angleMin : K
  angleIncrement : K
  rangeMin : K
  rangeMax : K
  ranges : List (Option K)
  deriving DecidableEq, Repr

inductive Message (K : Type)
  | map (grid : OccupancyGrid K)
  | scan (scan : LaserScan K)
  | tf (transforms : List (TransformStamped K))
  deriving DecidableEq, Repr

def Message.map? {K : Type} : Message K → Option (OccupancyGrid K)
  | .map g => some g
  | _ => none

def Message.scan? {K : Type} : Message K → Option (LaserScan K)
  | .scan s => some s
  | _ => none

section Poses

variable {K : Type} [Field K] [LinearOrder K] (trig : Trig K)

/-- A time of the bag in seconds after its first. -/
def seconds (t0 ts : ℤ) : K := ((ts - t0 : ℤ) : K) / 1e9

def yawOf (q : Quaternion K) : K :=
  trig.atan2 (2.0 * (q.w * q.z + q.x * q.y)) (1 - 2.0 * (q.y * q.y + q.z * q.z))

/-- Where the vehicle is on the map. -/
structure Pose (K : Type) where
  t : K
  x : K
  y : K
  yaw : K
  deriving DecidableEq, Repr

/-- The latest two transforms, and the poses so far. -/
structure Chain (K : Type) where
  m2o : Option (Transform K)
  o2b : Option (Transform K)
  poses : List (Pose K)
  deriving DecidableEq, Repr

omit [Field K] [LinearOrder K] in
def Chain.take (ch : Chain K) (tr : TransformStamped K) : Chain K :=
  let ch := if tr.frameId = "map" ∧ tr.childFrameId = "odom" then
    { ch with m2o := some tr.transform } else ch
  if tr.frameId = "odom" ∧ tr.childFrameId = "base_footprint" then
    { ch with o2b := some tr.transform } else ch

/-- The pose that two transforms make. -/
def chained (t : K) (m2o o2b : Transform K) : Pose K :=
  let a := yawOf trig m2o.rotation
  { t := t
    x := m2o.translation.1 + trig.cos a * o2b.translation.1 - trig.sin a * o2b.translation.2
    y := m2o.translation.2 + trig.sin a * o2b.translation.1 + trig.cos a * o2b.translation.2
    yaw := a + yawOf trig o2b.rotation }

/-- One message. Once both transforms are there, each `/tf` adds a pose,
whatever it brings. -/
def Chain.message (t0 : ℤ) (ch : Chain K) : ℤ × Message K → Chain K
  | (ts, .tf transforms) =>
    let ch := transforms.foldl Chain.take ch
    match ch.m2o, ch.o2b with
    | some m2o, some o2b =>
      { ch with poses := ch.poses ++ [chained trig (seconds t0 ts) m2o o2b] }
    | _, _ => ch
  | _ => ch

def poses (t0 : ℤ) (msgs : List (ℤ × Message K)) : List (Pose K) :=
  (msgs.foldl (Chain.message trig t0) ⟨none, none, []⟩).poses

/-- The pose next in time. -/
def nearest (ps : List (Pose K)) (t : K) : Option (Pose K) := ps.argmin fun q => |q.t - t|

end Poses

/-! ## Beams -/

/-- `Counter`, by the index of a cell. -/
abbrev Counter : Type := ℕ → ℕ

def Counter.increment (n : Counter) (idx : ℕ) : Counter := Function.update n idx (n idx + 1)

structure Counts where
  seen : Counter
  hit : Counter

def Counts.zero : Counts := ⟨fun _ => 0, fun _ => 0⟩

/-- From the sensor to the return point. -/
structure Beam (K : Type) where
  sensor : K × K
  ret : K × K
  deriving DecidableEq, Repr

/-- The variables of the loop along a beam. -/
structure Walk where
  err : ℤ
  c : ℤ
  r : ℤ
  deriving DecidableEq, Repr

/-- To the next cell. Both tests are on the error before the step. -/
def Walk.next (dc dr sc sr : ℤ) (w : Walk) : Walk :=
  let e2 := 2 * w.err
  let w := if e2 > -dr then { w with err := w.err - dr, c := w.c + sc } else w
  if e2 < dc then { w with err := w.err + dc, r := w.r + sr } else w

section Grid

variable {K : Type} (mp : OccupancyGrid K)

/-- The cells that are occupied. -/
def OccupancyGrid.occ : List ℕ :=
  (List.range mp.data.length).filter fun i => 65 ≤ mp.data.getD i 0

/-- Counts a cell that is on the map and occupied. -/
def OccupancyGrid.count (n : Counter) (c r : ℤ) : Counter :=
  if 0 ≤ c ∧ c < mp.width ∧ 0 ≤ r ∧ r < mp.height then
    let idx := (r * mp.width + c).toNat
    if idx ∈ mp.occ then n.increment idx else n
  else n

/-- The loop along a beam, with what is left of its 600 turns. -/
def OccupancyGrid.walk (c1 r1 dc dr sc sr : ℤ) : ℕ → Walk → Counter → Counter
  | 0, _, seen => seen
  | n + 1, w, seen =>
    if (w.c, w.r) = (c1, r1) then seen
    else OccupancyGrid.walk c1 r1 dc dr sc sr n (w.next dc dr sc sr) (mp.count seen w.c w.r)

variable [Field K] [LinearOrder K] [FloorRing K]

/-- `int`, which rounds toward zero. -/
def int (x : K) : ℤ := if 0 ≤ x then ⌊x⌋ else ⌈x⌉

/-- A point in cells from the map's origin. -/
def OccupancyGrid.coords (p : K × K) : K × K :=
  ((p.1 - mp.origin.1) / mp.resolution, (p.2 - mp.origin.2) / mp.resolution)

/-- One beam. -/
def OccupancyGrid.trace (n : Counts) (b : Beam K) : Counts :=
  let c0 := int (mp.coords b.sensor).1
  let r0 := int (mp.coords b.sensor).2
  let c1 := int (mp.coords b.ret).1
  let r1 := int (mp.coords b.ret).2
  let dc := |c1 - c0|
  let dr := |r1 - r0|
  let sc := if c1 > c0 then 1 else -1
  let sr := if r1 > r0 then 1 else -1
  { seen := mp.walk c1 r1 dc dr sc sr 600 ⟨dc - dr, c0, r0⟩ n.seen
    hit := mp.count n.hit c1 r1 }

variable (trig : Trig K)

/-- The sensor is in front of the vehicle's origin. -/
def LIDAR_X : K := 0.13

omit [LinearOrder K] [FloorRing K] in
/-- The beam at an angle, and how far it goes. -/
def beamAt (sensor : K × K) (a rng : K) : Beam K :=
  ⟨sensor, sensor.1 + rng * trig.cos a, sensor.2 + rng * trig.sin a⟩

omit [FloorRing K] in
/-- The beams of a scan that have a range it vouches for. -/
def LaserScan.beams (scan : LaserScan K) (p : Pose K) : List (Beam K) :=
  let sensor := (p.x + trig.cos p.yaw * LIDAR_X, p.y + trig.sin p.yaw * LIDAR_X)
  scan.ranges.zipIdx.filterMap fun (rng, i) => rng.bind fun rng =>
    if scan.rangeMin ≤ rng ∧ rng ≤ scan.rangeMax then
      some (beamAt trig sensor (scan.angleMin + i * scan.angleIncrement + p.yaw) rng)
    else none

omit [FloorRing K] in
/-- The beams of a message. -/
def beamsOf (t0 : ℤ) (ps : List (Pose K)) : ℤ × Message K → List (Beam K)
  | (ts, .scan scan) => ((nearest ps (seconds t0 ts)).map (scan.beams trig)).getD []
  | _ => []

/-- All the scans of a bag. -/
def OccupancyGrid.traceAll (t0 : ℤ) (ps : List (Pose K)) (msgs : List (ℤ × Message K)) : Counts :=
  msgs.foldl (fun n m => (beamsOf trig t0 ps m).foldl mp.trace n) .zero

end Grid

/-! ## The map that is written -/

/-- Why the tool ends without a map. -/
inductive Failure
  | noMessages
  | noMap
  | noChain
  | zeroResolution
  | shortData
  deriving DecidableEq, Repr

structure Cleaned where
  stale : List ℕ
  px : List ℕ
  diff : List ℕ
  deriving DecidableEq, Repr

/-- The pixel of a cell, and that of the diff. -/
def pixel (stale : List ℕ) (idx : ℕ) (v : ℤ) : ℕ × ℕ :=
  if idx ∈ stale then (254, 0)
  else if 65 ≤ v then (0, 254)
  else if v < 0 then (205, 205)
  else (254, 254)

section Main

variable {K : Type} (mp : OccupancyGrid K)

def OccupancyGrid.stale (n : Counts) : List ℕ :=
  mp.occ.filter fun i => MIN_SEEN ≤ n.seen i ∧ (n.hit i : ℚ) ≤ HIT_RATIO * n.seen i

/-- Row 0 of the picture is the map's last. -/
def OccupancyGrid.picture (stale : List ℕ) : List (ℕ × ℕ) :=
  (List.range mp.height).reverse.flatMap fun r => (List.range mp.width).map fun c =>
    pixel stale (r * mp.width + c) (mp.data.getD (r * mp.width + c) 0)

variable [Field K] [LinearOrder K] [FloorRing K] (trig : Trig K)

/-- `main`, from the bag's messages on. -/
def cleanMap (msgs : List (ℤ × Message K)) : Except Failure Cleaned :=
  match (msgs.map Prod.fst).min?, msgs.findSome? fun m => m.2.map? with
  | none, _ => .error .noMessages
  | _, none => .error .noMap
  | some t0, some mp =>
    if poses trig t0 msgs = [] then .error .noChain
    else if mp.resolution = 0 ∧ msgs.filterMap (fun m => m.2.scan?) ≠ [] then
      .error .zeroResolution
    else if mp.data.length < mp.width * mp.height then .error .shortData
    else
      let stale := mp.stale (mp.traceAll trig t0 (poses trig t0 msgs) msgs)
      .ok ⟨stale, (mp.picture stale).map Prod.fst, (mp.picture stale).map Prod.snd⟩

end Main

end Simulation

end VehicleStack
