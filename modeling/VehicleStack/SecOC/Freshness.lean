import VehicleStack.Common.Run
import VehicleStack.SecOC.Model
import Mathlib.Data.List.Sort

/-!
# SecOC — freshness values never roll back

`secoc_verify` accepts only above its floor and moves the floor up to what
it accepts; `secoc_build` counts on from what it stored. So the values
accepted, and the values emitted, on a data identifier increase over any
run, process restarts included, as long as the counter files can be read.
`FvStore.load` answers an unreadable file with 0, which is also what it
answers for a counter that was never used: where that happens to a counter
already in use, values come round again (`replay_accepted`), and where it
does not, they never do (`never_rolls_back`).
-/

namespace VehicleStack

namespace SecOC

open Callback

/-! ## The candidate and the acceptance test -/

variable {floor : ℤ} {low : ℕ}

/-- On a floor of 32 bits the mask loses nothing, and the candidate is the
reconstruction of the transmitted half above the floor. -/
theorem candidate_eq_reconstruct (h0 : 0 ≤ floor) (h1 : floor < 4294967296) :
    candidate floor low = Truncated.reconstruct 65536 floor low := by
  have hmask : floor / 65536 % 65536 = floor / 65536 := Int.emod_eq_of_lt (by omega) (by omega)
  simp only [candidate, Truncated.reconstruct, hmask]

/-- So it is above the floor. -/
theorem lt_candidate (h0 : 0 ≤ floor) (h1 : floor < 4294967296) (hlow : low < 65536) :
    floor < candidate floor low := by
  rw [candidate_eq_reconstruct h0 h1]
  exact (Truncated.reconstruct_window (by norm_num) (by omega) (by omega)).1

section Frames

variable {aes_cmac : Bytes → Bytes → Bytes} {key : Bytes}

/-- The freshness value under which `secoc_verify` accepts a frame against
a floor, where it does: the MAC is the one of the candidate, and the
candidate is inside the window. -/
def accepts (aes_cmac : Bytes → Bytes → Bytes) (key : Bytes) (floor : ℤ) (did : ℕ)
    (frame : Bytes) : Option ℤ :=
  let cand := candidate floor (unpackH ((frame.drop 6).take 2))
  if SECOC_FRAME_LEN ≤ frame.length ∧ (0 ≤ cand ∧ cand < 4294967296) ∧
      macOf aes_cmac key did (frame.take 2) cand.toNat = (frame.drop 2).take 4 ∧
      cand - floor ≤ SECOC_FV_MAX_JUMP
  then some cand else none

variable {did : ℕ} {frame : Bytes} {fv : ℤ}

/-- What an acceptance says. -/
theorem accepts_eq_some : accepts aes_cmac key floor did frame = some fv ↔
    fv = candidate floor (unpackH ((frame.drop 6).take 2)) ∧ SECOC_FRAME_LEN ≤ frame.length ∧
      (0 ≤ fv ∧ fv < 4294967296) ∧
      macOf aes_cmac key did (frame.take 2) fv.toNat = (frame.drop 2).take 4 ∧
      fv - floor ≤ SECOC_FV_MAX_JUMP := by
  simp only [accepts]
  split
  · rename_i h
    constructor
    · intro he
      obtain rfl := Option.some.inj he
      exact ⟨rfl, h⟩
    · rintro ⟨rfl, -⟩
      rfl
  · rename_i h
    constructor
    · intro he
      cases he
    · rintro ⟨rfl, h'⟩
      exact absurd h' h

/-- An accepted value is above a 32-bit floor. -/
theorem lt_of_accepts (h0 : 0 ≤ floor) (h1 : floor < 4294967296)
    (h : accepts aes_cmac key floor did frame = some fv) : floor < fv := by
  rw [(accepts_eq_some.1 h).1]
  exact lt_candidate h0 h1 (unpackH_lt _)

variable {s : FvStore} {io : Io} {payload : Bytes} {E : Raised → FvStore → Prop}

/-- `secoc_verify` raises nothing: the candidate fits in 32 bits, and the
floor of an accepted frame is stored. -/
def VerifySound (aes_cmac : Bytes → Bytes → Bytes) (key : Bytes) (s : FvStore) (io : Io)
    (did : ℕ) (frame : Bytes) : Prop :=
  (SECOC_FRAME_LEN ≤ frame.length →
    let cand := candidate (s.load io .rx did) (unpackH ((frame.drop 6).take 2))
    0 ≤ cand ∧ cand < 4294967296) ∧
  ((accepts aes_cmac key (s.load io .rx did) did frame).isSome → io.store ≠ .osError)

/-- `secoc_build` raises nothing: the next value fits in 32 bits and is
stored. -/
def BuildSound (s : FvStore) (io : Io) (did : ℕ) : Prop :=
  (0 ≤ s.load io .tx did + 1 ∧ s.load io .tx did + 1 < 4294967296) ∧ io.store ≠ .osError

/-- **`secoc_verify`.** An accepted frame moves the floor to its value and
is the only thing that changes the store; a rejection leaves it alone. -/
theorem wp_secocVerify {Q : Except String (Bytes × ℤ) → FvStore → Prop}
    (hok : ∀ fv, accepts aes_cmac key (s.load io .rx did) did frame = some fv →
      io.store = .ok → Q (.ok (frame.take 2, fv)) (s.put .rx did fv))
    (hno : accepts aes_cmac key (s.load io .rx did) did frame = none → ∀ msg, Q (.error msg) s)
    (hE : ∀ e, (VerifySound aes_cmac key s io did frame → e = .killed) → E e s)
    (hE' : ∀ fv, accepts aes_cmac key (s.load io .rx did) did frame = some fv →
      io.store = .killAfter → E .killed (s.put .rx did fv)) :
    wp (secocVerify aes_cmac key io did frame) Q E s := by
  have hnone : ∀ {P : Prop}, (∀ fv, accepts aes_cmac key (s.load io .rx did) did frame = some fv →
      P) → (¬ P) → accepts aes_cmac key (s.load io .rx did) did frame = none := fun hP hnot =>
    Option.eq_none_iff_forall_ne_some.2 fun fv hacc => hnot (hP fv hacc)
  simp only [secocVerify, secocMac, FvStore.store, wp_ite, wp_bind, wp_get, wp_pure, wp_throw]
  split
  · rename_i hlen
    exact hno (hnone (fun _ hacc => (accepts_eq_some.1 hacc).2.1) (not_le.2 hlen)) _
  · rename_i hlen
    split
    · rename_i hrange
      split
      · rename_i hmac
        exact hno (hnone (fun _ hacc => (accepts_eq_some.1 hacc).1 ▸
          (accepts_eq_some.1 hacc).2.2.2.1) hmac) _
      · rename_i hmac
        split
        · rename_i hjump
          exact hno (hnone (fun _ hacc => (accepts_eq_some.1 hacc).1 ▸
            (accepts_eq_some.1 hacc).2.2.2.2) (not_le.2 hjump)) _
        · rename_i hjump
          have hacc : accepts aes_cmac key (s.load io .rx did) did frame =
              some (candidate (s.load io .rx did) (unpackH ((frame.drop 6).take 2))) :=
            accepts_eq_some.2 ⟨rfl, not_lt.1 hlen, hrange, not_not.1 hmac, not_lt.1 hjump⟩
          exact wp_perform (hok _ hacc)
            (fun e he => hE e fun hsound => he (hsound.2 (by rw [hacc]; rfl))) (hE' _ hacc)
    · rename_i hrange
      exact hE _ fun hsound => absurd (hsound.1 (not_lt.1 hlen)) hrange

/-- **`secoc_build`.** The value handed out is one above the stored one and
has been stored. -/
theorem wp_secocBuild {Q : Bytes × ℤ → FvStore → Prop}
    (hok : 0 ≤ s.load io .tx did + 1 ∧ s.load io .tx did + 1 < 4294967296 → io.store = .ok →
      Q (frameOf aes_cmac key did payload (s.load io .tx did + 1), s.load io .tx did + 1)
        (s.put .tx did (s.load io .tx did + 1)))
    (hE : ∀ e, (BuildSound s io did → e = .killed) → E e s)
    (hE' : 0 ≤ s.load io .tx did + 1 ∧ s.load io .tx did + 1 < 4294967296 →
      io.store = .killAfter → E .killed (s.put .tx did (s.load io .tx did + 1))) :
    wp (secocBuild aes_cmac key io did payload) Q E s := by
  simp only [secocBuild, secocMac, FvStore.store, wp_ite, wp_bind, wp_get, wp_pure, wp_throw]
  split
  · rename_i hrange
    exact wp_perform (hok hrange) (fun e he => hE e fun hsound => he hsound.2) (hE' hrange)
  · rename_i hrange
    exact hE _ fun hsound => absurd hsound.1 hrange

/-- Where nothing fails, an acceptable frame is accepted. -/
theorem secocVerify_of_accepts (hacc : accepts aes_cmac key (s.load io .rx did) did frame = some fv)
    (hio : io.store = .ok) : secocVerify aes_cmac key io did frame s =
      .ok (.ok (frame.take 2, fv)) (s.put .rx did fv) := by
  obtain ⟨hfv, hlen, hrange, hmac, hjump⟩ := accepts_eq_some.1 hacc
  refine eq_ok_of_wp ?_
  simp only [secocVerify, secocMac, FvStore.store, wp_ite, wp_bind, wp_get, wp_pure, wp_throw]
  rw [if_neg (not_lt.2 hlen), ← hfv, if_pos hrange, if_neg (not_not.2 hmac),
    if_neg (not_lt.2 hjump), hio]
  exact ⟨rfl, rfl⟩

/-- Where nothing fails, a value of 32 bits is built. -/
theorem secocBuild_of_range
    (hrange : 0 ≤ s.load io .tx did + 1 ∧ s.load io .tx did + 1 < 4294967296)
    (hio : io.store = .ok) : secocBuild aes_cmac key io did payload s =
      .ok (frameOf aes_cmac key did payload (s.load io .tx did + 1), s.load io .tx did + 1)
        (s.put .tx did (s.load io .tx did + 1)) := by
  refine eq_ok_of_wp ?_
  simp only [secocBuild, secocMac, FvStore.store, wp_ite, wp_bind, wp_get, wp_pure, wp_throw]
  rw [if_pos hrange, hio]
  exact ⟨rfl, rfl⟩

end Frames

/-! ## Runs of the two helpers -/

/-- A run's store, and the values it has emitted and accepted on each data
identifier, oldest first. -/
structure Ledger where
  store : FvStore
  emitted : ℕ → List ℤ
  accepted : ℕ → List ℤ

/-- One call, or a restart of the process. -/
inductive Call
  | build (did : ℕ) (payload : Bytes) (io : Io)
  | verify (did : ℕ) (frame : Bytes) (io : Io)
  | restart

/-- One more value at the end of one identifier's list. -/
def push (f : ℕ → List ℤ) (did : ℕ) (fv : ℤ) : ℕ → List ℤ :=
  Function.update f did (f did ++ [fv])

/-- The ledger after a call. A restart changes nothing: the helpers keep
everything they know in the store. -/
def Ledger.step (aes_cmac : Bytes → Bytes → Bytes) (key : Bytes) (l : Ledger) : Call → Ledger
  | .build did payload io =>
    match secocBuild aes_cmac key io did payload l.store with
    | .ok (_, fv) s => { l with store := s, emitted := push l.emitted did fv }
    | .error _ s => { l with store := s }
  | .verify did frame io =>
    match secocVerify aes_cmac key io did frame l.store with
    | .ok (.ok (_, fv)) s => { l with store := s, accepted := push l.accepted did fv }
    | .ok (.error _) s => { l with store := s }
    | .error _ s => { l with store := s }
  | .restart => l

/-- A ledger nothing has been entered in. -/
def Ledger.start (s : FvStore) : Ledger := ⟨s, fun _ => [], fun _ => []⟩

/-- On every identifier the values emitted, and the values accepted,
increase. -/
def NeverRollsBack (l : Ledger) : Prop :=
  ∀ did, (l.emitted did).Pairwise (· < ·) ∧ (l.accepted did).Pairwise (· < ·)

/-- A counter that reads as 0 is one nothing has been drawn from, or the
value drawn from 0 is new all the same: a build would emit 1, and a verify
would accept what the frame carries above 0. A call whose store is refused
draws nothing. -/
def ReadsTrue (aes_cmac : Bytes → Bytes → Bytes) (key : Bytes) (l : Ledger) : Call → Prop
  | .build did _ io => io.load.isSome → io.store.takesEffect → ∀ x ∈ l.emitted did, x < 1
  | .verify did frame io => io.load.isSome → io.store.takesEffect →
      ∀ fv, accepts aes_cmac key 0 did frame = some fv → ∀ x ∈ l.accepted did, x < fv
  | .restart => True

/-- The process does not die between a call's store and its return. -/
def Call.Completes : Call → Prop
  | .build _ _ io => io.store ≠ .killAfter
  | .verify _ _ io => io.store ≠ .killAfter
  | .restart => True

section Runs

variable {aes_cmac : Bytes → Bytes → Bytes} {key : Bytes} {l : Ledger} {did did' : ℕ}
  {f : ℕ → List ℤ} {fv : ℤ}

@[simp] theorem push_self : push f did fv did = f did ++ [fv] := by simp [push]

theorem push_of_ne (h : did' ≠ did) : push f did fv did' = f did' := by simp [push, h]

theorem mem_push {x : ℤ} : x ∈ push f did fv did' ↔ x ∈ f did' ∨ did' = did ∧ x = fv := by
  by_cases h : did' = did
  · subst h
    simp
  · simp [push_of_ne h, h]

/-- An increasing list stays increasing under a new greatest value. -/
theorem pairwise_push (h : ∀ did, (f did).Pairwise (· < ·)) (hfv : ∀ x ∈ f did, x < fv)
    (did' : ℕ) : (push f did fv did').Pairwise (· < ·) := by
  by_cases hd : did' = did
  · subst hd
    rw [push_self, List.pairwise_append]
    exact ⟨h _, List.pairwise_singleton _ _, fun x hx y hy => by
      rw [List.mem_singleton.1 hy]; exact hfv x hx⟩
  · rw [push_of_ne hd]
    exact h _

/-- The counter of `kind` and `did` stands at or above every value in
`xs`, inside 32 bits. -/
def Covers (s : FvStore) (kind : Kind) (did : ℕ) (xs : List ℤ) : Prop :=
  xs ≠ [] → ∃ n, s.file kind did = .decimal n ∧ (0 ≤ n ∧ n < 4294967296) ∧ ∀ x ∈ xs, x ≤ n

/-- **The run invariant.** What has been drawn from a counter increases,
and the counter file stands at or above all of it. -/
structure Inv (l : Ledger) : Prop where
  emitted_lt : ∀ did, (l.emitted did).Pairwise (· < ·)
  accepted_lt : ∀ did, (l.accepted did).Pairwise (· < ·)
  covers : (∀ did, Covers l.store .tx did (l.emitted did)) ∧
    ∀ did, Covers l.store .rx did (l.accepted did)

theorem inv_start (s : FvStore) : Inv (Ledger.start s) where
  emitted_lt _ := List.Pairwise.nil
  accepted_lt _ := List.Pairwise.nil
  covers := ⟨fun _ h => absurd rfl h, fun _ h => absurd rfl h⟩

/-- A counter that covers a list and can be read is read at or above it. -/
theorem Covers.load {s : FvStore} {io : Io} {kind : Kind} {xs : List ℤ}
    (h : Covers s kind did xs) (hio : io.load = none) (hxs : xs ≠ []) :
    (0 ≤ s.load io kind did ∧ s.load io kind did < 4294967296) ∧
      ∀ x ∈ xs, x ≤ s.load io kind did := by
  obtain ⟨n, hn, hrange, hle⟩ := h hxs
  simpa only [FvStore.load, hio, hn] using And.intro hrange hle

/-- Writing a value above everything drawn keeps a counter's cover, and
another counter's is not touched. -/
theorem Covers.put {s : FvStore} {kind kind' : Kind} {ys : List ℤ}
    (h : Covers s kind' did' ys) (xs : List ℤ) (hfv : 0 ≤ fv ∧ fv < 4294967296)
    (hself : kind' = kind ∧ did' = did → ys = xs) (hle : ∀ x ∈ xs, x ≤ fv) :
    Covers (s.put kind did fv) kind' did' ys := by
  intro hys
  by_cases hd : kind' = kind ∧ did' = did
  · have heq : ys = xs := hself hd
    obtain ⟨rfl, rfl⟩ := hd
    exact ⟨fv, FvStore.put_self, hfv, heq ▸ hle⟩
  · rw [FvStore.put_of_ne hd]
    exact h hys

/-- The value a build emits is above all it has emitted before. -/
theorem lt_of_build {payload : Bytes} {io : Io} (hinv : Inv l)
    (hread : ReadsTrue aes_cmac key l (.build did payload io)) (heff : io.store.takesEffect) :
    ∀ x ∈ l.emitted did, x < l.store.load io .tx did + 1 := by
  intro x hx
  cases hio : io.load with
  | none =>
    have hle := ((hinv.covers.1 did).load hio (List.ne_nil_of_mem hx)).2 x hx
    omega
  | some fault =>
    have hlost : io.load.isSome := by rw [hio]; rfl
    rw [FvStore.load_of_fault hlost]
    exact hread hlost heff x hx

/-- The value a verify accepts is above all it has accepted before. -/
theorem lt_of_verify {frame : Bytes} {io : Io} (hinv : Inv l)
    (hread : ReadsTrue aes_cmac key l (.verify did frame io)) (heff : io.store.takesEffect)
    (hacc : accepts aes_cmac key (l.store.load io .rx did) did frame = some fv) :
    ∀ x ∈ l.accepted did, x < fv := by
  intro x hx
  cases hio : io.load with
  | none =>
    obtain ⟨⟨h0, h1⟩, hle⟩ := (hinv.covers.2 did).load hio (List.ne_nil_of_mem hx)
    exact lt_of_le_of_lt (hle x hx) (lt_of_accepts h0 h1 hacc)
  | some fault =>
    have hlost : io.load.isSome := by rw [hio]; rfl
    rw [FvStore.load_of_fault hlost] at hacc
    exact hread hlost heff fv hacc x hx

/-- A build keeps the invariant. -/
theorem inv_build {payload : Bytes} {io : Io} (hinv : Inv l)
    (hread : ReadsTrue aes_cmac key l (.build did payload io)) :
    Inv (l.step aes_cmac key (.build did payload io)) := by
  have habove := lt_of_build hinv hread
  set n := l.store.load io .tx did + 1 with hn
  have hput : 0 ≤ n ∧ n < 4294967296 → io.store.takesEffect →
      (∀ did', Covers (l.store.put .tx did n) .tx did' (l.emitted did')) ∧
        ∀ did', Covers (l.store.put .tx did n) .rx did' (l.accepted did') := fun hrange heff =>
    ⟨fun did' => (hinv.covers.1 did').put (l.emitted did) hrange
      (fun h => by rw [h.2]) fun x hx => (habove heff x hx).le,
      fun did' => (hinv.covers.2 did').put (l.emitted did) hrange
      (fun h => by cases h.1) fun x hx => (habove heff x hx).le⟩
  have hwp : wp (secocBuild aes_cmac key io did payload)
      (fun r s => Inv { l with store := s, emitted := push l.emitted did r.2 })
      (fun _ s => Inv { l with store := s }) l.store := by
    refine wp_secocBuild (fun hrange hok => ?_) (fun _ _ => hinv) fun hrange hkill =>
      ⟨hinv.emitted_lt, hinv.accepted_lt, hput hrange (Or.inr hkill)⟩
    have heff : io.store.takesEffect := Or.inl hok
    refine ⟨pairwise_push hinv.emitted_lt (habove heff), hinv.accepted_lt, fun did' hne => ?_,
      (hput hrange heff).2⟩
    by_cases hd : did' = did
    · subst hd
      refine ⟨n, FvStore.put_self, hrange, fun x hx => ?_⟩
      rcases mem_push.1 hx with h | ⟨-, rfl⟩
      · exact (habove heff x h).le
      · exact le_rfl
    · simp only [push_of_ne hd] at hne ⊢
      exact (hput hrange heff).1 did' hne
  simp only [Ledger.step]
  unfold wp at hwp
  split <;> simp_all only

/-- A verify keeps the invariant. -/
theorem inv_verify {frame : Bytes} {io : Io} (hinv : Inv l)
    (hread : ReadsTrue aes_cmac key l (.verify did frame io)) :
    Inv (l.step aes_cmac key (.verify did frame io)) := by
  have hput : ∀ fv, accepts aes_cmac key (l.store.load io .rx did) did frame = some fv →
      io.store.takesEffect → (∀ did', Covers (l.store.put .rx did fv) .tx did' (l.emitted did')) ∧
        ∀ did', Covers (l.store.put .rx did fv) .rx did' (l.accepted did') := fun fv hacc heff =>
    ⟨fun did' => (hinv.covers.1 did').put (l.accepted did) (accepts_eq_some.1 hacc).2.2.1
      (fun h => by cases h.1) fun x hx => (lt_of_verify hinv hread heff hacc x hx).le,
      fun did' => (hinv.covers.2 did').put (l.accepted did) (accepts_eq_some.1 hacc).2.2.1
      (fun h => by rw [h.2]) fun x hx => (lt_of_verify hinv hread heff hacc x hx).le⟩
  have hwp : wp (secocVerify aes_cmac key io did frame)
      (fun r s => match r with
        | .ok (_, fv) => Inv { l with store := s, accepted := push l.accepted did fv }
        | .error _ => Inv { l with store := s })
      (fun _ s => Inv { l with store := s }) l.store := by
    refine wp_secocVerify (fun fv hacc hok => ?_) (fun _ _ => hinv) (fun _ _ => hinv)
      fun fv hacc hkill => ⟨hinv.emitted_lt, hinv.accepted_lt, hput fv hacc (Or.inr hkill)⟩
    have heff : io.store.takesEffect := Or.inl hok
    have habove := lt_of_verify hinv hread heff hacc
    refine ⟨hinv.emitted_lt, pairwise_push hinv.accepted_lt habove, (hput fv hacc heff).1,
      fun did' hne => ?_⟩
    by_cases hd : did' = did
    · subst hd
      refine ⟨fv, FvStore.put_self, (accepts_eq_some.1 hacc).2.2.1, fun x hx => ?_⟩
      rcases mem_push.1 hx with h | ⟨-, rfl⟩
      · exact (habove x h).le
      · exact le_rfl
    · simp only [push_of_ne hd] at hne ⊢
      exact (hput fv hacc heff).2 did' hne
  simp only [Ledger.step]
  unfold wp at hwp
  split <;> simp_all only

/-- **One call keeps the invariant.** -/
theorem inv_step (c : Call) (hinv : Inv l) (hread : ReadsTrue aes_cmac key l c) :
    Inv (l.step aes_cmac key c) := by
  cases c with
  | build did payload io => exact inv_build hinv hread
  | verify did frame io => exact inv_verify hinv hread
  | restart => exact hinv

/-- **The condition is exact for a call that returns.** Where a counter
already drawn from reads as 0 and the call goes through, a value comes
round again; so where none does, the counter read true. -/
theorem readsTrue_of_neverRollsBack (c : Call) (hret : c.Completes)
    (h : NeverRollsBack (l.step aes_cmac key c)) : ReadsTrue aes_cmac key l c := by
  by_contra hc
  cases c with
  | build did payload io =>
    simp only [ReadsTrue] at hc
    push Not at hc
    obtain ⟨hlost, heff, x, hx, hle⟩ := hc
    -- the build goes through and emits 1, which is not new
    have hload : l.store.load io .tx did = 0 := FvStore.load_of_fault hlost
    have hrun : secocBuild aes_cmac key io did payload l.store =
        .ok (frameOf aes_cmac key did payload (l.store.load io .tx did + 1),
          l.store.load io .tx did + 1) (l.store.put .tx did (l.store.load io .tx did + 1)) :=
      secocBuild_of_range (by rw [hload]; norm_num) (heff.resolve_right hret)
    have hlt := (h did).1
    simp only [Ledger.step, hrun, hload, push_self, List.pairwise_append] at hlt
    have := hlt.2.2 x hx _ (List.mem_singleton_self _)
    omega
  | verify did frame io =>
    simp only [ReadsTrue] at hc
    push Not at hc
    obtain ⟨hlost, heff, fv, hacc, x, hx, hle⟩ := hc
    have hload : l.store.load io .rx did = 0 := FvStore.load_of_fault hlost
    rw [← hload] at hacc
    have hlt := (h did).2
    simp only [Ledger.step, secocVerify_of_accepts hacc (heff.resolve_right hret),
      push_self, List.pairwise_append] at hlt
    have := hlt.2.2 x hx _ (List.mem_singleton_self _)
    omega
  | restart => exact hc trivial

/-- Throughout a run whose counters read true nothing rolls back. -/
theorem neverRollsBack_of_readsTrue (s : FvStore) {calls : List Call}
    (h : Run.Along (Ledger.step aes_cmac key) (ReadsTrue aes_cmac key) (Ledger.start s) calls) :
    Run.Throughout (Ledger.step aes_cmac key) NeverRollsBack (Ledger.start s) calls :=
  Run.throughout_of_along (I := Inv) (fun _ c hinv hread => inv_step c hinv hread)
    (fun _ hinv did => ⟨hinv.emitted_lt did, hinv.accepted_lt did⟩) (inv_start s) h

/-- And where nothing rolls back and every call completes, they did. -/
theorem readsTrue_of_throughout {calls : List Call} (hret : ∀ c ∈ calls, c.Completes)
    (h : Run.Throughout (Ledger.step aes_cmac key) NeverRollsBack l calls) :
    Run.Along (Ledger.step aes_cmac key) (ReadsTrue aes_cmac key) l calls := by
  induction calls generalizing l with
  | nil => trivial
  | cons c calls ih =>
    have hc : ReadsTrue aes_cmac key l c :=
      readsTrue_of_neverRollsBack c (hret c List.mem_cons_self) h.2.first
    exact ⟨hc, ih (fun c' hc' => hret c' (List.mem_cons_of_mem _ hc')) h.2⟩

/-- **Freshness values never roll back exactly when every counter reads
true.** The first half is about every run, the second about the runs in
which no process dies between the store of a call and its return. -/
theorem never_rolls_back (aes_cmac : Bytes → Bytes → Bytes) (key : Bytes) (s : FvStore)
    (calls : List Call) :
    (Run.Along (Ledger.step aes_cmac key) (ReadsTrue aes_cmac key) (Ledger.start s) calls →
      Run.Throughout (Ledger.step aes_cmac key) NeverRollsBack (Ledger.start s) calls) ∧
    ((∀ c ∈ calls, c.Completes) →
      Run.Throughout (Ledger.step aes_cmac key) NeverRollsBack (Ledger.start s) calls →
      Run.Along (Ledger.step aes_cmac key) (ReadsTrue aes_cmac key) (Ledger.start s) calls) :=
  ⟨neverRollsBack_of_readsTrue s, readsTrue_of_throughout⟩

end Runs

/-- A captured REQUEST, delivered, and delivered again by a process that
no longer finds the counter file. -/
def replayCalls : List Call :=
  [.verify 1 (frameOf sampleCmac sampleKey 1 [0xA5, 1] 1) {},
   .restart,
   .verify 1 (frameOf sampleCmac sampleKey 1 [0xA5, 1] 1) { load := some .missing }]

/-- **The captured frame is accepted a second time.** -/
theorem replay_accepted :
    ¬ NeverRollsBack (Run.run (Ledger.step sampleCmac sampleKey) (Ledger.start FvStore.fresh)
      replayCalls) := by
  intro h
  have hlog : (Run.run (Ledger.step sampleCmac sampleKey) (Ledger.start FvStore.fresh)
      replayCalls).accepted 1 = [1, 1] := by decide
  have hlt := (h 1).2
  rw [hlog] at hlt
  simp at hlt

/-- A counter that is lost before its first use, and read from then on. -/
theorem never_rolls_back_fresh :
    Run.Throughout (Ledger.step sampleCmac sampleKey) NeverRollsBack (Ledger.start FvStore.fresh)
      [.build 3 [1, 1] { load := some .unparsable }, .restart, .build 3 [1, 1] {}] :=
  (never_rolls_back sampleCmac sampleKey FvStore.fresh _).1
    ⟨fun _ _ x hx => absurd hx (by simp [Ledger.start]), trivial, fun h => absurd h (by simp),
      trivial⟩

end SecOC

end VehicleStack
