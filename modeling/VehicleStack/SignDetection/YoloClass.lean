import VehicleStack.Ackermann.Frames
import VehicleStack.Common.Decimal
import Mathlib.Data.List.Nodup
import Mathlib.Data.List.Perm.Subperm

/-!
# The sign classes on the bus

`yolo_class_node.cpp` and the `CanComms` it sends with: of each message of
detections, the classes from 0 to 14 that a result with a sufficient score
names are put on the bus, in a frame of one byte each. The order in which a
`std::unordered_set` is gone through is the library's and is a parameter;
so is the comparison of two scores. Whatever they are, each class that is
named goes out once and no other does (`each_class_once`).
-/

namespace VehicleStack

namespace SignDetection

open Ackermann Decimal

def CAN_MAX_DLEN : ℕ := 8

/-- A hypothesis of a detection: `class_id` is text. -/
structure Result (K : Type) where
  classId : List UInt8
  score : K

/-- `std::stoi`; `none` is an exception. -/
def stoi (text : List UInt8) : Option ℤ :=
  (scanInt text).filter fun n => -2147483648 ≤ n && n ≤ 2147483647

/-- The node's parameters, `can_id` as it is given, and what the comparison
of two scores says. -/
structure Config (K : Type) where
  canId : ℤ
  confThreshold : K
  below : K → K → Bool

/-- The socket: whether it is there, and which frames `write` takes. -/
structure Socket where
  connected : Bool
  written : CanFrame → Bool

/-- `CanComms::send`: what it returns, and the bus afterwards. -/
def send (socket : Socket) (canId : ℕ) (data : List UInt8) (bus : List CanFrame) :
    Bool × List CanFrame :=
  if !socket.connected then (false, bus)
  else if CAN_MAX_DLEN < data.length then (false, bus)
  else
    let frame : CanFrame := ⟨canId, data.length, Vector.ofFn fun i => data.getD i 0⟩
    if socket.written frame then (true, bus ++ [frame]) else (false, bus)

/-- `unique_classes.insert`. -/
def insertClass (classes : List ℤ) (cls : ℤ) : List ℤ :=
  if cls ∈ classes then classes else classes ++ [cls]

section Node

variable {K : Type} (cfg : Config K)

/-- `static_cast<uint32_t>(…)` of the parameter. -/
def Config.frameId : ℕ := (cfg.canId % 4294967296).toNat

/-- The inner loop of `onDetections`: one result. -/
def gatherResult (classes : List ℤ) (res : Result K) : List ℤ :=
  if cfg.below res.score cfg.confThreshold then classes
  else
    match stoi res.classId with
    | none => classes
    | some cls => if 0 ≤ cls ∧ cls ≤ 14 then insertClass classes cls else classes

/-- The outer loop. -/
def gather (detections : List (List (Result K))) : List ℤ :=
  detections.foldl (fun classes det => det.foldl (gatherResult cfg) classes) []

/-- `onDetections`, with the order in which the set is gone through. -/
def onDetections (iteration : List ℤ → List ℤ) (socket : Socket)
    (detections : List (List (Result K))) (bus : List CanFrame) : List CanFrame :=
  (iteration (gather cfg detections)).foldl
    (fun bus cls => (send socket cfg.frameId [UInt8.ofNat (cls % 256).toNat] bus).2) bus

end Node

/-! ## The classes of a message -/

variable {K : Type} {cfg : Config K} {classes : List ℤ} {cls : ℤ} {res : Result K}
  {detections : List (List (Result K))}

/-- A result names this class: its score is sufficient, and its text has the
number at its head. -/
def Names (cfg : Config K) (res : Result K) (cls : ℤ) : Prop :=
  cfg.below res.score cfg.confThreshold = false ∧ Reads res.classId cls ∧ 0 ≤ cls ∧ cls ≤ 14

theorem mem_insertClass {c : ℤ} : c ∈ insertClass classes cls ↔ c ∈ classes ∨ c = cls := by
  unfold insertClass
  split
  · rename_i hmem
    exact ⟨Or.inl, fun h => h.elim id fun heq => heq ▸ hmem⟩
  · rw [List.mem_append, List.mem_singleton]

theorem nodup_insertClass (h : classes.Nodup) : (insertClass classes cls).Nodup := by
  unfold insertClass
  split
  · exact h
  · rename_i hnot
    exact h.append (List.nodup_singleton _) (List.disjoint_singleton.2 hnot)

theorem stoi_eq_some (h0 : 0 ≤ cls) (h1 : cls ≤ 14) {text : List UInt8} :
    stoi text = some cls ↔ Reads text cls := by
  rw [stoi, Option.filter_eq_some_iff, scanInt_eq_some, and_iff_left_iff_imp]
  intro _
  rw [Bool.and_eq_true, decide_eq_true_iff, decide_eq_true_iff]
  omega

/-- **One result** adds the class it names, if it names one. -/
theorem mem_gatherResult : cls ∈ gatherResult cfg classes res ↔ cls ∈ classes ∨
    Names cfg res cls := by
  unfold gatherResult
  split
  · rename_i hbelow
    refine ⟨Or.inl, fun h => h.elim id fun hnames => ?_⟩
    rw [hnames.1] at hbelow
    cases hbelow
  rename_i hscore
  have hnames : Names cfg res cls ↔ stoi res.classId = some cls ∧ 0 ≤ cls ∧ cls ≤ 14 := by
    rw [Names, and_iff_right (Bool.not_eq_true _ ▸ hscore)]
    exact and_congr_left fun hrange => (stoi_eq_some hrange.1 hrange.2).symm
  rw [hnames]
  cases hstoi : stoi res.classId with
  | none => simp
  | some c =>
    dsimp only
    split
    · rename_i hrange
      rw [mem_insertClass, Option.some.injEq]
      refine or_congr_right ⟨?_, fun h => h.1.symm⟩
      rintro rfl
      exact ⟨rfl, hrange⟩
    · rename_i hrange
      refine ⟨Or.inl, fun h => h.elim id fun hnamed => ?_⟩
      obtain rfl := Option.some.inj hnamed.1
      exact absurd hnamed.2 hrange

theorem nodup_gatherResult (h : classes.Nodup) : (gatherResult cfg classes res).Nodup := by
  unfold gatherResult
  split
  · exact h
  · split
    · exact h
    · split
      · exact nodup_insertClass h
      · exact h

/-- **One detection.** -/
theorem gather_detection (det : List (Result K)) : ∀ classes : List ℤ,
    (∀ cls, cls ∈ det.foldl (gatherResult cfg) classes ↔
      cls ∈ classes ∨ ∃ res ∈ det, Names cfg res cls) ∧
    (classes.Nodup → (det.foldl (gatherResult cfg) classes).Nodup) := by
  induction det with
  | nil => exact fun classes => ⟨fun cls => by simp, id⟩
  | cons res rest ih =>
    intro classes
    obtain ⟨hmem, hnodup⟩ := ih (gatherResult cfg classes res)
    refine ⟨fun cls => ?_, fun h => hnodup (nodup_gatherResult h)⟩
    rw [List.foldl_cons, hmem, mem_gatherResult, or_assoc, List.exists_mem_cons_iff]

/-- **The whole message.** -/
theorem gather_message (cfg : Config K) (detections : List (List (Result K))) :
    (∀ cls, cls ∈ gather cfg detections ↔
      ∃ det ∈ detections, ∃ res ∈ det, Names cfg res cls) ∧ (gather cfg detections).Nodup := by
  have hall : ∀ (dets : List (List (Result K))) (classes : List ℤ),
      (∀ cls, cls ∈ dets.foldl (fun classes det => det.foldl (gatherResult cfg) classes) classes ↔
        cls ∈ classes ∨ ∃ det ∈ dets, ∃ res ∈ det, Names cfg res cls) ∧
      (classes.Nodup →
        (dets.foldl (fun classes det => det.foldl (gatherResult cfg) classes) classes).Nodup) := by
    intro dets
    induction dets with
    | nil => exact fun classes => ⟨fun cls => by simp, id⟩
    | cons det rest ih =>
      intro classes
      obtain ⟨hmem, hnodup⟩ := ih (det.foldl (gatherResult cfg) classes)
      obtain ⟨hmem', hnodup'⟩ := gather_detection det classes
      refine ⟨fun cls => ?_, fun h => hnodup (hnodup' h)⟩
      rw [List.foldl_cons, hmem, hmem', or_assoc, List.exists_mem_cons_iff]
  obtain ⟨hmem, hnodup⟩ := hall detections []
  refine ⟨fun cls => (hmem cls).trans ?_, hnodup List.nodup_nil⟩
  exact or_iff_right List.not_mem_nil

/-! ## The frames -/

/-- The frame of a class. -/
def classFrame (cfg : Config K) (cls : ℤ) : CanFrame :=
  ⟨cfg.frameId, 1, #v[UInt8.ofNat (cls % 256).toNat, 0, 0, 0, 0, 0, 0, 0]⟩

theorem classFrame_injOn {c c' : ℤ} (h0 : 0 ≤ c) (h1 : c ≤ 14) (h0' : 0 ≤ c') (h1' : c' ≤ 14)
    (h : classFrame cfg c = classFrame cfg c') : c = c' := by
  have hbyte : UInt8.ofNat (c % 256).toNat = UInt8.ofNat (c' % 256).toNat :=
    congrArg (fun f : CanFrame => f.data[0]) h
  have hnat := congrArg UInt8.toNat hbyte
  rw [UInt8.toNat_ofNat', UInt8.toNat_ofNat'] at hnat
  omega

/-- **One class goes out** where the socket takes its frame. -/
theorem send_class {socket : Socket} {bus : List CanFrame} :
    (send socket cfg.frameId [UInt8.ofNat (cls % 256).toNat] bus).2 =
      bus ++ [classFrame cfg cls].filter fun f => socket.connected && socket.written f := by
  have hframe : (⟨cfg.frameId, 1, Vector.ofFn fun i : Fin 8 =>
      [UInt8.ofNat (cls % 256).toNat].getD i 0⟩ : CanFrame) = classFrame cfg cls := by
    rfl
  unfold send
  cases hconn : socket.connected with
  | false => simp
  | true =>
    rw [List.length_singleton, hframe]
    cases hwritten : socket.written (classFrame cfg cls) with
    | false => simp [CAN_MAX_DLEN, hwritten]
    | true => simp [CAN_MAX_DLEN, hwritten]

theorem foldl_send {socket : Socket} (classes : List ℤ) (bus : List CanFrame) :
    classes.foldl (fun bus cls =>
      (send socket cfg.frameId [UInt8.ofNat (cls % 256).toNat] bus).2) bus =
      bus ++ (classes.map (classFrame cfg)).filter fun f =>
        socket.connected && socket.written f := by
  induction classes generalizing bus with
  | nil => exact (List.append_nil bus).symm
  | cons cls rest ih =>
    rw [List.foldl_cons, ih, send_class, List.append_assoc, List.map_cons, ← List.filter_append]
    rfl

/-- **Each class goes out once.** Whatever the order of the set, a message
puts on the bus one frame for each class from 0 to 14 that a result of
sufficient score names and whose frame the socket takes, no frame twice and
nothing else; at most fifteen. -/
theorem each_class_once (cfg : Config K) (iteration : List ℤ → List ℤ)
    (hiteration : ∀ classes, (iteration classes).Perm classes) (socket : Socket)
    (detections : List (List (Result K))) (bus : List CanFrame) :
    ∃ sent, onDetections cfg iteration socket detections bus = bus ++ sent ∧ sent.Nodup ∧
      sent.length ≤ 15 ∧ ∀ f, f ∈ sent ↔ (socket.connected && socket.written f) = true ∧
        ∃ cls, f = classFrame cfg cls ∧ ∃ det ∈ detections, ∃ res ∈ det, Names cfg res cls := by
  obtain ⟨hmem, hnodup⟩ := gather_message cfg detections
  have hperm := hiteration (gather cfg detections)
  have hrange : ∀ cls ∈ gather cfg detections, 0 ≤ cls ∧ cls ≤ 14 := by
    intro cls hcls
    obtain ⟨det, -, res, -, hnames⟩ := (hmem cls).1 hcls
    exact hnames.2.2
  have hframes : (((iteration (gather cfg detections)).map (classFrame cfg))).Nodup := by
    refine (List.nodup_map_iff_inj_on (hperm.nodup_iff.2 hnodup)).2 fun c hc c' hc' heq => ?_
    obtain ⟨h0, h1⟩ := hrange c (hperm.mem_iff.1 hc)
    obtain ⟨h0', h1'⟩ := hrange c' (hperm.mem_iff.1 hc')
    exact classFrame_injOn h0 h1 h0' h1' heq
  refine ⟨_, foldl_send _ _, hframes.filter _, ?_, fun f => ?_⟩
  · have hsub : gather cfg detections ⊆ (List.range 15).map Int.ofNat := by
      intro cls hcls
      obtain ⟨h0, h1⟩ := hrange cls hcls
      exact List.mem_map.2 ⟨cls.toNat, List.mem_range.2 (by omega), Int.toNat_of_nonneg h0⟩
    calc (((iteration (gather cfg detections)).map (classFrame cfg)).filter _).length
        ≤ ((iteration (gather cfg detections)).map (classFrame cfg)).length :=
          List.length_filter_le _ _
      _ = (gather cfg detections).length := by rw [List.length_map, hperm.length_eq]
      _ ≤ ((List.range 15).map Int.ofNat).length := (hnodup.subperm hsub).length_le
      _ = 15 := rfl
  · rw [List.mem_filter, List.mem_map, and_comm]
    refine and_congr_right fun _ => exists_congr fun cls => ?_
    rw [hperm.mem_iff, hmem, and_comm]
    exact and_congr_left' eq_comm

/-- Two signs in one message, one of them seen twice and one below the
threshold. -/
theorem each_class_once_signs :
    ∃ sent, onDetections (K := ℤ) ⟨533, 50, fun a b => decide (a < b)⟩ id ⟨true, fun _ => true⟩
        [[⟨[0x37], 90⟩, ⟨[0x31, 0x32], 40⟩], [⟨[0x37], 60⟩]] [] = [] ++ sent ∧ sent.Nodup ∧
      sent.length ≤ 15 ∧ ∀ f, f ∈ sent ↔ (true && true) = true ∧
        ∃ cls, f = classFrame (K := ℤ) ⟨533, 50, fun a b => decide (a < b)⟩ cls ∧
          ∃ det ∈ [[⟨[0x37], 90⟩, ⟨[0x31, 0x32], 40⟩], [⟨[0x37], 60⟩]], ∃ res ∈ det,
            Names ⟨533, 50, fun a b => decide (a < b)⟩ res cls :=
  each_class_once ⟨533, 50, fun a b => decide (a < b)⟩ id (fun _ => .refl _)
    ⟨true, fun _ => true⟩ [[⟨[0x37], 90⟩, ⟨[0x31, 0x32], 40⟩], [⟨[0x37], 60⟩]] []

end SignDetection

end VehicleStack
