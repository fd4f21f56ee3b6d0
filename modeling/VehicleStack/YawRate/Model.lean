import Mathlib.Algebra.BigOperators.Group.List.Basic
import VehicleStack.Ackermann.Model
import VehicleStack.Common.Run

/-!
# The yaw-rate scaler — `ImuScale`

The node between the IMU and the filter. It averages the rate of its first
messages into a bias, and from then on publishes every message with the
bias taken off and the scale put on; the messages it averages are scaled
only. `Averages` is what it comes to over any stream of messages. The count
of messages, which nothing reads, is left out.
-/

namespace VehicleStack

namespace YawRate

open Ackermann (Vec3)

/-- `sensor_msgs/Imu`, as far as the node reads or writes it. -/
structure Imu (K : Type) where
  angularVelocity : Vec3 K
  angularVelocityCovariance : List K
  deriving DecidableEq, Repr

/-- The node's fields. `bias` is `none` until it is calibrated. -/
structure ImuScale (K : Type) where
  k : K
  biasN : ℤ
  biasAcc : K
  biasCnt : ℕ
  bias : Option K
  deriving DecidableEq, Repr

section Node

variable {K : Type} [Field K] [LinearOrder K]

/-- The node with its two parameters. -/
def ImuScale.init (k : K) (bias_samples : ℤ) : ImuScale K := ⟨k, bias_samples, 0, 0, none⟩

def Imu.rate (m : Imu K) : K := m.angularVelocity.z

def Imu.withRate (m : Imu K) (z : K) : Imu K :=
  { m with angularVelocity := { m.angularVelocity with z := z } }

/-- The covariance of the rate, scaled with it. -/
def Imu.scaleCovariance (m : Imu K) (k : K) : Imu K :=
  let cov := m.angularVelocityCovariance
  if cov.length = 9 ∧ 0 < cov.getD 8 0 then
    { m with angularVelocityCovariance := cov.set 8 (cov.getD 8 0 * (k * k)) }
  else m

/-- `cb`: what is published, and the node. -/
def ImuScale.cb (n : ImuScale K) (m : Imu K) : Imu K × ImuScale K :=
  match n.bias with
  | none =>
    let acc := n.biasAcc + m.rate
    let cnt := n.biasCnt + 1
    (m.withRate (m.rate * n.k),
      { n with biasAcc := acc, biasCnt := cnt
               bias := if n.biasN ≤ cnt then some (acc / cnt) else none })
  | some bias => ((m.withRate ((m.rate - bias) * n.k)).scaleCovariance n.k, n)

/-- A message that has come in with `item`: whether it went into the bias,
and what was published for it. -/
structure Heard (α K : Type) where
  item : α
  counted : Bool
  published : Imu K
  deriving DecidableEq, Repr

variable {α : Type} (message : α → Imu K)

/-- The node after the message of an item. -/
def ImuScale.hear (n : ImuScale K) (a : α) : ImuScale K := (n.cb (message a)).2

/-- What becomes of it. -/
def ImuScale.heard (n : ImuScale K) (a : α) : Heard α K :=
  ⟨a, n.bias.isNone, (n.cb (message a)).1⟩

/-- What becomes of all of them. -/
def ImuScale.listen (n : ImuScale K) (items : List α) : List (Heard α K) :=
  Run.trail (ImuScale.hear message) (ImuScale.heard message) n items

/-- The items whose messages went into the bias. -/
def countedItems (hs : List (Heard α K)) : List α := (hs.filter Heard.counted).map Heard.item

/-- The mean of a quantity over some items. -/
def mean (f : α → K) (items : List α) : K := (items.map f).sum / items.length

end Node

/-! ## What it comes to -/

section Law

variable {K : Type} [Field K] [LinearOrder K] {α : Type} {message : α → Imu K} {k : K}
  {n : ImuScale K} {hs : List (Heard α K)}

omit [Field K] [LinearOrder K] in
@[simp] theorem Imu.rate_withRate {m : Imu K} {z : K} : (m.withRate z).rate = z := rfl

@[simp] theorem Imu.rate_scaleCovariance {m : Imu K} :
    (m.scaleCovariance k).rate = m.rate := by
  simp only [Imu.scaleCovariance]
  split <;> rfl

/-- The bias is the mean of what has been counted, and each message after
it has the bias taken off. -/
structure Averages (message : α → Imu K) (k : K) (hs : List (Heard α K))
    (n : ImuScale K) : Prop where
  scale : n.k = k
  sum : n.biasAcc = ((countedItems hs).map fun a => (message a).rate).sum
  count : n.biasCnt = (countedItems hs).length
  calibrating : n.bias = none → ∀ h ∈ hs, h.counted = true
  bias : ∀ b ∈ n.bias, b = mean (fun a => (message a).rate) (countedItems hs)
  corrected : ∀ h ∈ hs, h.counted = false → ∀ b ∈ n.bias,
    h.published.rate = ((message h.item).rate - b) * k

omit [LinearOrder K] in
theorem averages_init {N : ℤ} : Averages message k [] (.init k N) :=
  ⟨rfl, rfl, rfl, fun _ _ h => absurd h List.not_mem_nil, nofun,
    fun _ h => absurd h List.not_mem_nil⟩

/-- **One message.** -/
theorem Averages.hear (h : Averages message k hs n) (a : α) :
    Averages message k (hs ++ [n.heard message a]) (n.hear message a) := by
  cases hbias : n.bias with
  | none =>
    have hcounted : countedItems (hs ++ [n.heard message a]) = countedItems hs ++ [a] := by
      simp [countedItems, ImuScale.heard, hbias]
    have hsum : n.biasAcc + (message a).rate =
        ((countedItems (hs ++ [n.heard message a])).map fun a => (message a).rate).sum := by
      rw [hcounted, h.sum]
      simp
    have hcount : n.biasCnt + 1 = (countedItems (hs ++ [n.heard message a])).length := by
      rw [hcounted, h.count, List.length_append, List.length_singleton]
    have hall : ∀ x ∈ hs ++ [n.heard message a], x.counted = true := by
      intro x hx
      rcases List.mem_append.1 hx with hx | hx
      · exact h.calibrating hbias x hx
      · rw [List.mem_singleton.1 hx]
        simp [ImuScale.heard, hbias]
    simp only [ImuScale.hear, ImuScale.cb, hbias]
    refine ⟨h.scale, hsum, hcount, fun _ => hall, fun b hb => ?_, fun x hx hnot => ?_⟩
    · simp only [Option.mem_def, Option.ite_none_right_eq_some, Option.some.injEq] at hb
      rw [← hb.2, mean, ← hsum, ← hcount]
    · rw [hall x hx] at hnot
      cases hnot
  | some b =>
    have hcounted : countedItems (hs ++ [n.heard message a]) = countedItems hs := by
      simp [countedItems, ImuScale.heard, hbias]
    simp only [ImuScale.hear, ImuScale.cb, hbias]
    refine ⟨h.scale, ?_, ?_, fun hnone => ?_, fun b' hb' => ?_, fun x hx hnot b' hb' => ?_⟩
    · rw [hcounted, h.sum]
    · rw [hcounted, h.count]
    · rw [hbias] at hnone
      cases hnone
    · rw [hcounted]
      exact h.bias b' hb'
    · rcases List.mem_append.1 hx with hx | hx
      · exact h.corrected x hx hnot b' hb'
      · obtain rfl := List.mem_singleton.1 hx
        obtain rfl : b = b' := by simpa [hbias] using hb'
        simp [ImuScale.heard, ImuScale.cb, hbias, h.scale]

/-- Each item is heard once, in order. -/
theorem item_listen (message : α → Imu K) (n : ImuScale K) (items : List α) :
    (n.listen message items).map Heard.item = items := by
  induction items generalizing n with
  | nil => rfl
  | cons a items ih => exact congrArg (a :: ·) (ih _)

/-- **Every stream of messages.** -/
theorem averages_listen (message : α → Imu K) (k : K) (N : ℤ) (items : List α) : Averages message k
    ((ImuScale.init k N).listen message items)
    (Run.run (ImuScale.hear message) (.init k N) items) := by
  have hall : Run.Along (ImuScale.hear message) (fun _ _ => True) (.init k N) items :=
    Run.along_of_forall fun _ _ => trivial
  have hinv := Run.inv_trail (J := fun hs n => Averages message k hs n)
    (fun _ _ a hJ _ => hJ.hear a) averages_init hall
  exact hinv

end Law

end YawRate

end VehicleStack
