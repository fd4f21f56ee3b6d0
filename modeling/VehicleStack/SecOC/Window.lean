import VehicleStack.SecOC.Freshness

/-!
# SecOC — the acceptance window and the ends of the counter

A receiver rebuilds 32 bits from the 16 a frame carries, relative to its
floor. Away from the end of the counter this loses nothing: the frame built
with a freshness value is accepted exactly inside the window above the
floor (`acceptance_window`). At the end it does. The carry may leave 32
bits, where `struct.pack` raises, and of a floor that has left them the
mask keeps too little; `safe_at_ends_iff` says for which floors and frames
neither happens.
-/

namespace VehicleStack

namespace SecOC

open Callback

/-- The payload of a frame. -/
def Payload := {b : Bytes // b.length = SECOC_PAYLOAD_LEN}

section Frames

variable {aes_cmac : Bytes → Bytes → Bytes} {key : Bytes} {did : ℕ} {floor : ℤ}
  {frame payload : Bytes} {s : FvStore} {io : Io} {fv fv' : ℤ}

/-- A CMAC is one block of AES. -/
def BlockSized (aes_cmac : Bytes → Bytes → Bytes) (key : Bytes) : Prop :=
  ∀ msg, (aes_cmac key msg).length = 16

/-- The MACs of one data identifier and payload under different freshness
values differ. -/
def Separates (aes_cmac : Bytes → Bytes → Bytes) (key : Bytes) (did : ℕ) (payload : Bytes) :
    Prop :=
  ∀ fv fv' : ℕ, fv < 4294967296 → fv' < 4294967296 →
    macOf aes_cmac key did payload fv = macOf aes_cmac key did payload fv' → fv = fv'

/-- What the `>I` field of the MAC's input can hold. -/
def InRange (fv : ℤ) : Prop := 0 ≤ fv ∧ fv < 4294967296

/-- The freshness half that a frame carries. -/
def rxLow (frame : Bytes) : ℕ := unpackH ((frame.drop 6).take 2)

/-- The frame carries the MAC of this freshness value. -/
def Authentic (aes_cmac : Bytes → Bytes → Bytes) (key : Bytes) (did : ℕ) (frame : Bytes)
    (fv : ℤ) : Prop :=
  macOf aes_cmac key did (frame.take 2) fv.toNat = (frame.drop 2).take 4

/-! ## The parts of a frame -/

theorem macOf_length (hblock : BlockSized aes_cmac key) (n : ℕ) :
    (macOf aes_cmac key did payload n).length = SECOC_MAC_LEN := by
  rw [macOf, List.length_take, hblock]
  rfl

/-- A frame built with a payload of two bytes is read back part by part. -/
theorem frameOf_parts (hblock : BlockSized aes_cmac key) (hpay : payload.length = 2) (did : ℕ)
    (fv : ℤ) :
    let frame := frameOf aes_cmac key did payload fv
    frame.length = 8 ∧ frame.take 2 = payload ∧
      (frame.drop 2).take 4 = macOf aes_cmac key did payload fv.toNat ∧
      (rxLow frame : ℤ) = fv % 65536 := by
  have hmac : (macOf aes_cmac key did payload fv.toNat).length = 4 := macOf_length hblock _
  have hlow : unpackH (packH (fv % 65536).toNat) = (fv % 65536).toNat := by
    rw [unpackH_packH]
    omega
  have hdrop : (frameOf aes_cmac key did payload fv).drop 6 = packH (fv % 65536).toNat := by
    rw [frameOf, List.drop_append_of_le_length (by simp [hpay, hmac]),
      List.drop_of_length_le (by simp [hpay, hmac]), List.nil_append]
  refine ⟨by simp [frameOf, hpay, hmac, packH], ?_, ?_, ?_⟩
  · rw [frameOf, List.append_assoc, List.take_append_of_le_length (by omega),
      List.take_of_length_le (by omega)]
  · rw [frameOf, List.append_assoc, List.drop_append_of_le_length (by omega),
      List.drop_of_length_le (by omega), List.nil_append,
      List.take_append_of_le_length (by omega), List.take_of_length_le (by omega)]
  · have htake : (packH (fv % 65536).toNat).take 2 = packH (fv % 65536).toNat := rfl
    rw [rxLow, hdrop, htake, hlow]
    omega

/-! ## What verifying does -/

/-- **An acceptable frame** is accepted as soon as its value is stored. -/
theorem secocVerify_of_some (hacc : accepts aes_cmac key (s.load io .rx did) did frame = some fv) :
    secocVerify aes_cmac key io did frame s =
      (FvStore.store io .rx did fv >>= fun _ => pure (.ok (frame.take 2, fv))) s := by
  obtain ⟨hfv, hlen, hrange, hmac, hjump⟩ := accepts_eq_some.1 hacc
  rw [hfv] at hrange hmac hjump
  unfold secocVerify
  rw [if_neg (not_lt.2 hlen)]
  show (secocMac aes_cmac key did _ (candidate _ _) >>= _) s = _
  rw [secocMac, if_pos hrange]
  show (if _ then _ else _ : EStateM Raised FvStore _) s = _
  rw [if_neg (not_not.2 hmac), if_neg (not_lt.2 hjump), ← hfv]

/-- **Any other is rejected**, and changes nothing, as long as the candidate
has 32 bits. -/
theorem secocVerify_of_none (hacc : accepts aes_cmac key (s.load io .rx did) did frame = none)
    (hcand : InRange (candidate (s.load io .rx did) (rxLow frame))) :
    ∃ msg, secocVerify aes_cmac key io did frame s = .ok (.error msg) s := by
  have hwp : wp (secocVerify aes_cmac key io did frame)
      (fun r s' => (∃ msg, r = .error msg) ∧ s' = s) (fun _ _ => False) s := by
    simp only [secocVerify, secocMac, wp_ite, wp_bind, wp_get, wp_pure, wp_throw]
    split
    · exact ⟨⟨_, rfl⟩, trivial⟩
    · rename_i hlen
      split
      · rename_i hrange
        split
        · exact ⟨⟨_, rfl⟩, trivial⟩
        · rename_i hmac
          split
          · exact ⟨⟨_, rfl⟩, trivial⟩
          · rename_i hjump
            have hsome := accepts_eq_some.2
              ⟨rfl, not_lt.1 hlen, hrange, not_not.1 hmac, not_lt.1 hjump⟩
            rw [hacc] at hsome
            cases hsome
      · rename_i hrange
        exact hrange hcand
  obtain ⟨r, s', hrun, ⟨msg, rfl⟩, rfl⟩ := returns_of_wp hwp
  exact ⟨msg, hrun⟩

/-- Without one `struct.pack` raises. -/
theorem secocVerify_raises (hlen : SECOC_FRAME_LEN ≤ frame.length)
    (hcand : ¬ InRange (candidate (s.load io .rx did) (rxLow frame))) :
    secocVerify aes_cmac key io did frame s = .error .structError s := by
  unfold secocVerify
  rw [if_neg (not_lt.2 hlen)]
  show (secocMac aes_cmac key did _ (candidate _ _) >>= _) s = _
  rw [secocMac,
    if_neg (show ¬ (0 ≤ candidate _ (unpackH _) ∧ candidate _ (unpackH _) < _) from hcand)]
  rfl

/-- What accepting comes to once the value is to be stored. -/
theorem store_then_pure {p : Bytes} {m : Bytes × ℤ} {s' : FvStore} :
    (FvStore.store io .rx did fv >>= fun _ => pure (.ok (p, fv)) :
      EStateM Raised FvStore (Except String (Bytes × ℤ))) s = .ok (.ok m) s' ↔
    io.store = .ok ∧ m = (p, fv) ∧ s' = s.put .rx did fv := by
  constructor
  · intro h
    have hwp : wp (FvStore.store io .rx did fv >>= fun _ => pure (.ok (p, fv)) :
        EStateM Raised FvStore (Except String (Bytes × ℤ)))
        (fun r s' => ∀ m, r = .ok m → io.store = .ok ∧ m = (p, fv) ∧ s' = s.put .rx did fv)
        (fun _ _ => True) s := by
      rw [wp_bind]
      refine wp_perform (fun hok m hm => ⟨hok, (Except.ok.inj hm).symm, rfl⟩) ?_ ?_
      · exact fun _ _ => trivial
      · exact fun _ => trivial
    rw [wp, h] at hwp
    exact hwp m rfl
  · rintro ⟨hok, rfl, rfl⟩
    rw [FvStore.store, hok]
    rfl

/-! ## The window -/

/-- Below the end of the counter the candidate has 32 bits. -/
theorem candidate_inRange (h0 : 0 ≤ floor) (h1 : floor + 65536 < 4294967296) :
    InRange (candidate floor (unpackH ((frame.drop 6).take 2))) := by
  have hlow := unpackH_lt ((frame.drop 6).take 2)
  simp only [candidate, InRange]
  split <;> omega

/-- The freshness values a receiver with this floor is to accept. -/
def InWindow (floor fv : ℤ) : Prop := floor < fv ∧ fv ≤ floor + SECOC_FV_MAX_JUMP

/-- Inside the window a value of 32 bits is recovered from its low half, and
the frame is acceptable under it. -/
theorem accepts_of_inWindow (hblock : BlockSized aes_cmac key) (hpay : payload.length = 2)
    (h0 : 0 ≤ floor) (hfv : InRange fv) (hwin : InWindow floor fv) :
    accepts aes_cmac key floor did (frameOf aes_cmac key did payload fv) = some fv := by
  obtain ⟨hlen, htake, hmac, hlow⟩ := frameOf_parts hblock hpay did fv
  have hjump : SECOC_FV_MAX_JUMP = 32768 := rfl
  obtain ⟨hgt, hle⟩ := hwin
  -- one value above the floor and within 2^16 of it has the low half of the frame
  have hcand : fv = candidate floor (rxLow (frameOf aes_cmac key did payload fv)) := by
    have hfloor : floor < 4294967296 := hgt.trans hfv.2
    rw [candidate_eq_reconstruct h0 hfloor, hlow]
    exact (Truncated.reconstruct_eq hgt (by omega)).symm
  rw [accepts_eq_some, htake, hmac]
  refine ⟨hcand, ?_, hfv, rfl, by omega⟩
  rw [hlen]
  exact le_rfl

/-- **A frame is acceptable, under the value it was built with and no
other, exactly inside the window.** Outside it the candidate is another
value, or too far away. -/
theorem accepts_frameOf (hblock : BlockSized aes_cmac key) (hpay : payload.length = 2)
    (hsep : Separates aes_cmac key did payload) (h0 : 0 ≤ floor)
    (h1 : floor + 65536 < 4294967296) (hfv : InRange fv) :
    accepts aes_cmac key floor did (frameOf aes_cmac key did payload fv) = some fv' ↔
      fv' = fv ∧ InWindow floor fv := by
  obtain ⟨-, htake, hmac, -⟩ := frameOf_parts hblock hpay did fv
  constructor
  · intro hacc
    obtain ⟨hcand, -, hfv', hsame, hnear⟩ := accepts_eq_some.1 hacc
    rw [htake, hmac] at hsame
    -- the frame carries the MAC of `fv`, which no other value has
    have hnat : fv'.toNat = fv.toNat :=
      hsep _ _ (by have := hfv'.2; omega) (by have := hfv.2; omega) hsame
    have heq : fv' = fv := by
      have := hfv.1
      have := hfv'.1
      omega
    have habove : floor < fv' := lt_of_accepts h0 (by omega) hacc
    exact ⟨heq, heq ▸ habove, by omega⟩
  · rintro ⟨rfl, hwin⟩
    exact accepts_of_inWindow hblock hpay h0 hfv hwin

/-- Everything but the receiver's counter of this identifier. -/
def OthersKept (did : ℕ) (s s' : FvStore) : Prop :=
  ∀ kind did', ¬ (kind = .rx ∧ did' = did) → s'.file kind did' = s.file kind did'

/-- However it ends, verifying a frame touches no other counter. -/
theorem others_kept : wp (secocVerify aes_cmac key io did frame)
    (fun _ s' => OthersKept did s s') (fun _ s' => OthersKept did s s') s :=
  wp_secocVerify (fun _ _ _ _ _ hne => FvStore.put_of_ne hne) (fun _ _ _ _ _ => rfl)
    (fun _ _ _ _ _ => rfl) fun _ _ _ _ _ hne => FvStore.put_of_ne hne

/-- And a rejection touches none. -/
theorem rejection_keeps {msg : String} {s' : FvStore}
    (h : secocVerify aes_cmac key io did frame s = .ok (.error msg) s') : s' = s := by
  have hwp : wp (secocVerify aes_cmac key io did frame)
      (fun r s' => ∀ msg, r = .error msg → s' = s) (fun _ _ => True) s :=
    wp_secocVerify (fun _ _ _ _ hr => by cases hr) (fun _ _ _ _ => rfl) (fun _ _ => trivial)
      fun _ _ _ => trivial
  rw [wp, h] at hwp
  exact hwp msg rfl

end Frames

/-- **The acceptance window.** Against a floor that leaves room below the
end of the counter, the frame built with `fv` is accepted exactly where
`floor < fv ≤ floor + SECOC_FV_MAX_JUMP` and its value is stored; outside
the window it is rejected whatever the store would have answered. What is
accepted is the payload and `fv`, which becomes the floor; no rejection of
any frame changes anything, and no other counter ever changes. -/
theorem acceptance_window (aes_cmac : Bytes → Bytes → Bytes) (key : Bytes) (did : ℕ)
    (payload : Payload) (s : FvStore) (io : Io) (fv : ℤ) (hblock : BlockSized aes_cmac key)
    (hsep : Separates aes_cmac key did payload.1) (h0 : 0 ≤ s.load io .rx did)
    (h1 : s.load io .rx did + 0x10000 < 4294967296) (hfv : 1 ≤ fv ∧ fv < 4294967296) :
    let verify := secocVerify aes_cmac key io did
    let frame := frameOf aes_cmac key did payload.1 fv
    ((∃ m s', verify frame s = .ok (.ok m) s') ↔
      InWindow (s.load io .rx did) fv ∧ io.store = .ok) ∧
    (¬ InWindow (s.load io .rx did) fv → ∃ msg, verify frame s = .ok (.error msg) s) ∧
    (∀ m s', verify frame s = .ok (.ok m) s' →
      m = (payload.1, fv) ∧ s' = s.put .rx did fv) ∧
    ∀ frame', (∀ msg s', verify frame' s = .ok (.error msg) s' → s' = s) ∧
      wp (verify frame') (fun _ s' => OthersKept did s s') (fun _ s' => OthersKept did s s') s := by
  intro verify frame
  have hrange : InRange fv := ⟨by omega, hfv.2⟩
  have hiff : ∀ fv', accepts aes_cmac key (s.load io .rx did) did frame = some fv' ↔
      fv' = fv ∧ InWindow (s.load io .rx did) fv := fun _ =>
    accepts_frameOf hblock payload.2 hsep h0 h1 hrange
  have htake : frame.take 2 = payload.1 := (frameOf_parts hblock payload.2 _ _).2.1
  have hin : InWindow (s.load io .rx did) fv → ∀ m s', verify frame s = .ok (.ok m) s' ↔
      io.store = .ok ∧ m = (payload.1, fv) ∧ s' = s.put .rx did fv := by
    intro hwin m s'
    have hrun : verify frame s = _ := secocVerify_of_some ((hiff fv).2 ⟨rfl, hwin⟩)
    rw [hrun, htake, store_then_pure]
  have hout : ¬ InWindow (s.load io .rx did) fv → ∃ msg, verify frame s = .ok (.error msg) s := by
    intro hwin
    have hnone : accepts aes_cmac key (s.load io .rx did) did frame = none :=
      Option.eq_none_iff_forall_ne_some.2 fun fv' h => hwin ((hiff fv').1 h).2
    exact secocVerify_of_none hnone (candidate_inRange h0 h1)
  have hacc : ∀ m s', verify frame s = .ok (.ok m) s' → InWindow (s.load io .rx did) fv := by
    intro m s' h
    by_contra hwin
    obtain ⟨msg, hmsg⟩ := hout hwin
    rw [hmsg] at h
    cases h
  refine ⟨⟨?_, ?_⟩, hout, ?_, fun frame' => ⟨fun msg s' h => rejection_keeps h, others_kept⟩⟩
  · rintro ⟨m, s', h⟩
    have hwin := hacc m s' h
    exact ⟨hwin, ((hin hwin m s').1 h).1⟩
  · rintro ⟨hwin, hstore⟩
    exact ⟨_, _, (hin hwin _ _).2 ⟨hstore, rfl, rfl⟩⟩
  · intro m s' h
    exact ((hin (hacc m s' h) m s').1 h).2

/-- A CMAC that separates freshness values: the recorded one of a running
notice, with the last word of the message in its first. -/
def spreadCmac (_key msg : Bytes) : Bytes :=
  [38 ^^^ msg.getD 4 0, 231 ^^^ msg.getD 5 0, 18 ^^^ msg.getD 6 0, 195 ^^^ msg.getD 7 0,
    74, 206, 28, 198, 247, 246, 72, 8, 185, 182, 171, 16]

theorem spreadCmac_block (key : Bytes) : BlockSized spreadCmac key := fun _ => rfl

theorem spreadCmac_separates (key : Bytes) (did : ℕ) (a b : UInt8) :
    Separates spreadCmac key did [a, b] := by
  intro fv fv' h h' heq
  have hbytes : packI fv = packI fv' := by
    simpa [macOf, spreadCmac, macInput, packH, packI, SECOC_MAC_LEN] using heq
  simp only [packI, List.cons.injEq, ← UInt8.toNat_inj, UInt8.toNat_ofNat', and_true] at hbytes
  omega

/-- The first frame of a fresh counter is accepted. -/
theorem acceptance_window_first :
    ∃ m s', secocVerify spreadCmac sampleKey {} 3 (frameOf spreadCmac sampleKey 3 [1, 1] 1)
      FvStore.fresh = .ok (.ok m) s' :=
  (acceptance_window spreadCmac sampleKey 3 ⟨[1, 1], rfl⟩ FvStore.fresh {} 1
    (spreadCmac_block _) (spreadCmac_separates _ _ _ _) (by decide) (by decide)
    (by decide)).1.2 ⟨by unfold InWindow; decide, rfl⟩

/-! ## The ends of the counter -/

/-- Verifying a frame against this floor returns, and what it accepts it
stores above the floor. -/
def SafeAt (aes_cmac : Bytes → Bytes → Bytes) (key : Bytes) (did : ℕ) (frame : Bytes)
    (s : FvStore) (floor : ℤ) : Prop :=
  wp (secocVerify aes_cmac key {} did frame)
    (fun r s' => ∀ m, r = .ok m → s'.file .rx did = .decimal m.2 ∧ floor < m.2)
    (fun _ _ => False) s

/-- The carry stays inside 32 bits; and of a floor that has left them, the
value that is rebuilt, which is below it, is not the one of the frame. -/
def ClearOfTheEnd (aes_cmac : Bytes → Bytes → Bytes) (key : Bytes) (did : ℕ) (frame : Bytes)
    (floor : ℤ) : Prop :=
  floor < 0xFFFF0000 ∨ (floor < 0x100000000 ∧ floor % 65536 < rxLow frame) ∨
    0x100000000 ≤ floor ∧ floor / 65536 % 65536 ≠ 0xFFFF ∧
      ¬ Authentic aes_cmac key did frame ((floor / 65536 % 65536 + 1) * 65536 + rxLow frame)

section Ends

variable {aes_cmac : Bytes → Bytes → Bytes} {key : Bytes} {did : ℕ} {floor : ℤ} {low : ℕ}
  {frame : Bytes} {s : FvStore}

/-- The candidate leaves 32 bits where the carry does. -/
theorem inRange_candidate_iff (hlow : low < 65536) : InRange (candidate floor low) ↔
    floor < 0xFFFF0000 ∨ (floor < 0x100000000 ∧ floor % 65536 < low) ∨
      0x100000000 ≤ floor ∧ floor / 65536 % 65536 ≠ 0xFFFF := by
  simp only [candidate, InRange]
  split <;> omega

/-- It is below a floor that has more than 32 bits, and above any other. -/
theorem lt_candidate_iff (hlow : low < 65536) :
    floor < candidate floor low ↔ floor < 0x100000000 := by
  simp only [candidate]
  split <;> omega

/-- Of a floor with more than 32 bits only the low half counts. -/
theorem candidate_of_large (hlow : low < 65536) (h : 0x100000000 ≤ floor) :
    candidate floor low = (floor / 65536 % 65536 + 1) * 65536 + low := by
  simp only [candidate]
  split <;> omega

/-- **Verifying is safe** where the candidate has 32 bits and is above the
floor wherever it is accepted. -/
theorem safeAt_iff_candidate (hfile : s.file .rx did = .decimal floor) (hlen : frame.length = 8) :
    SafeAt aes_cmac key did frame s floor ↔ InRange (candidate floor (rxLow frame)) ∧
      ∀ fv, accepts aes_cmac key floor did frame = some fv → floor < fv := by
  have hload : s.load {} .rx did = floor := by simp [FvStore.load, hfile]
  have hframe : SECOC_FRAME_LEN ≤ frame.length := by
    rw [hlen]
    exact le_rfl
  constructor
  · intro hsafe
    have hrange : InRange (candidate floor (rxLow frame)) := by
      by_contra hout
      rw [← hload] at hout
      rw [SafeAt, wp, secocVerify_raises hframe hout] at hsafe
      exact hsafe
    refine ⟨hrange, fun fv hacc => ?_⟩
    rw [← hload] at hacc
    rw [SafeAt, wp, secocVerify_of_accepts hacc rfl] at hsafe
    exact (hsafe _ rfl).2
  · rintro ⟨hrange, habove⟩
    rw [← hload] at hrange habove
    cases hacc : accepts aes_cmac key (s.load {} .rx did) did frame with
    | none =>
      obtain ⟨msg, hrun⟩ := secocVerify_of_none hacc hrange
      rw [SafeAt, wp, hrun]
      exact fun m hm => by cases hm
    | some fv =>
      rw [SafeAt, wp, secocVerify_of_accepts hacc rfl]
      intro m hm
      obtain rfl := Except.ok.inj hm
      exact ⟨FvStore.put_self, hload ▸ habove fv hacc⟩

/-- **When `secoc_verify` is safe.** Whatever integer the counter file
holds and whatever eight bytes arrive, it returns and moves the floor up,
if and only if floor and frame are clear of the end of the counter. -/
theorem safe_at_ends_iff (aes_cmac : Bytes → Bytes → Bytes) (key : Bytes) (did : ℕ)
    (frame : Bytes) (s : FvStore) (floor : ℤ) (hfile : s.file .rx did = .decimal floor)
    (hlen : frame.length = 8) :
    SafeAt aes_cmac key did frame s floor ↔ ClearOfTheEnd aes_cmac key did frame floor := by
  have hlow : rxLow frame < 65536 := unpackH_lt _
  rw [safeAt_iff_candidate hfile hlen, inRange_candidate_iff hlow, ClearOfTheEnd]
  constructor
  · rintro ⟨hsmall | hcarry | ⟨hlarge, hhigh⟩, habove⟩
    · exact Or.inl hsmall
    · exact Or.inr (Or.inl hcarry)
    · refine Or.inr (Or.inr ⟨hlarge, hhigh, fun hauth => ?_⟩)
      -- a frame with the MAC of the rebuilt value would be accepted below the floor
      have hrange : InRange (candidate floor (rxLow frame)) :=
        (inRange_candidate_iff hlow).2 (Or.inr (Or.inr ⟨hlarge, hhigh⟩))
      have hbelow : ¬ floor < candidate floor (rxLow frame) :=
        (lt_candidate_iff hlow).not.2 (not_lt.2 hlarge)
      rw [← candidate_of_large hlow hlarge] at hauth
      have hjump : candidate floor (rxLow frame) - floor ≤ SECOC_FV_MAX_JUMP := by
        have : SECOC_FV_MAX_JUMP = 32768 := rfl
        omega
      exact hbelow (habove _ (accepts_eq_some.2
        ⟨rfl, by rw [hlen]; exact le_rfl, hrange, hauth, hjump⟩))
  · intro hclear
    refine ⟨hclear.imp_right (Or.imp_right fun h => ⟨h.1, h.2.1⟩), fun fv hacc => ?_⟩
    obtain ⟨hcand, -, -, hmac, -⟩ := accepts_eq_some.1 hacc
    have hfloor : floor < 0x100000000 := by
      rcases hclear with hsmall | hcarry | ⟨hlarge, -, hauth⟩
      · omega
      · exact hcarry.1
      · rw [← candidate_of_large hlow hlarge] at hauth
        rw [hcand] at hmac
        exact absurd hmac hauth
    rw [hcand]
    exact (lt_candidate_iff hlow).2 hfloor

end Ends

/-- The greatest value that has 32 bits, as the floor. -/
def lastFloor : FvStore := FvStore.fresh.put .rx 1 0xFFFFFFFF

/-- **Eight bytes of anyone's raise `struct.error`.** -/
theorem end_of_counter_raises :
    ¬ SafeAt sampleCmac sampleKey 1 [0, 0, 0, 0, 0, 0, 0, 0] lastFloor 0xFFFFFFFF := by
  intro h
  have hrun : secocVerify sampleCmac sampleKey {} 1 [0, 0, 0, 0, 0, 0, 0, 0] lastFloor =
      .error .structError lastFloor := secocVerify_raises (by decide) (by unfold InRange; decide)
  rw [SafeAt, wp, hrun] at h
  exact h

/-- The captured REQUEST against a fresh counter. -/
theorem safe_at_ends_fresh :
    SafeAt sampleCmac sampleKey 1 (frameOf sampleCmac sampleKey 1 [0xA5, 1] 1)
      (FvStore.fresh.put .rx 1 0) 0 :=
  (safe_at_ends_iff sampleCmac sampleKey 1 _ _ 0 FvStore.put_self (by decide)).2
    (Or.inl (by decide))

end SecOC

end VehicleStack
