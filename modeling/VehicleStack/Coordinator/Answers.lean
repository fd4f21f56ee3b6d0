import VehicleStack.Coordinator.Specs

/-!
# The update coordinator — what the driver's answer may look like

The head unit answers with a file, and a poll reads 32 characters of it.
The rule is that the word `approve`, alone but for blanks, is consent, and
that any other content is a refusal. `verdict_exact_iff` says of which
contents the poll keeps to it. Of others it does not: a file that is no
text raises; what stands beyond the 32 characters is not seen, be it
something else after the word, or the word itself behind too many blanks.
-/

namespace VehicleStack

namespace Coordinator

open Callback SecOC

/-- The word that is consent. -/
def approveWord : List Char := "approve".toList

/-- How many characters of a verdict file are read. -/
def VERDICT_READ_LEN : ℕ := 32

/-- What a verdict file is to say: consent, where its entire content is
text and the word is all there is in it. -/
def consents (content : Bytes) : Bool :=
  match Text.utf8Scan content with
  | .complete cs => decide (Text.lower (Text.strip (Text.newlines cs)) = approveWord)
  | .cutOff _ => false
  | .invalid => false

/-- The poll reads this content as what it is to say, and resolves the
request accordingly. -/
def ReadExactly (env : Env) (content : Bytes) : Prop :=
  (∀ w, readVerdict env w = .ok (some (consents content)) w) ∧
  ∀ (cfg : Config) (now : ℚ) (name : Requester) (p : Pending) (w : World),
    w.mem.pending.get? name = some p →
      pollEntry cfg now env name w = resolve cfg env name (consents content) w

/-- The reader comes upon bytes that are no text: among the first it
decodes, or because the file ends inside a character before it has enough. -/
def NoText (content : Bytes) : Prop :=
  Text.utf8Scan (content.take Text.CHUNK_SIZE) = .invalid ∨
    ∃ cs, Text.utf8Scan (content.take Text.CHUNK_SIZE) = .cutOff cs ∧
      (Text.newlines (Text.settled cs)).length < VERDICT_READ_LEN

/-- Its first characters are the word and blanks, and something other than
blanks comes after them. -/
def SomethingAfter (content : Bytes) : Prop :=
  (∃ cs, (Text.utf8Scan (content.take Text.CHUNK_SIZE)).Reads cs ∧
    Text.Says approveWord ((Text.newlines cs).take VERDICT_READ_LEN)) ∧
  ¬ ∃ cs, Text.utf8Scan content = .complete cs ∧
    Text.Blank ((Text.newlines cs).drop VERDICT_READ_LEN)

/-- It is the word and blanks, so many of them in front that the word does
not end among the characters that are read. -/
def PushedOut (content : Bytes) : Prop :=
  ∃ cs front w back, Text.utf8Scan content = .complete cs ∧
    Text.newlines cs = front ++ w ++ back ∧ Text.Blank front ∧ Text.Blank back ∧
    Text.lower w = approveWord ∧ VERDICT_READ_LEN < front.length + w.length

variable {env : Env} {content : Bytes} {text cs : List Char}

theorem ink_approveWord : Text.ink approveWord = approveWord := by decide

theorem approveWord_ne_nil : approveWord ≠ [] := by decide

/-- One word says yes and everything else says no. -/
theorem verdictOfWord_eq (word : List Char) : verdictOfWord word = decide (word = approveWord) := by
  unfold verdictOfWord
  split
  · rename_i h
    exact (decide_eq_true h).symm
  · rename_i h
    rw [ite_self]
    exact (decide_eq_false h).symm

theorem consents_of_complete (h : Text.utf8Scan content = .complete cs) :
    consents content = true ↔ Text.Says approveWord (Text.newlines cs) := by
  rw [consents, h, decide_eq_true_eq, Text.lower_strip_iff ink_approveWord approveWord_ne_nil]

theorem consents_eq_true (h : consents content = true) :
    ∃ cs, Text.utf8Scan content = .complete cs := by
  unfold consents at h
  split at h
  · exact ⟨_, by assumption⟩
  · cases h
  · cases h

/-- Reading raises where the reader comes upon bytes that are no text. -/
theorem readText_eq_none : Text.readText VERDICT_READ_LEN content = none ↔ NoText content := by
  unfold Text.readText NoText
  cases hscan : Text.utf8Scan (content.take Text.CHUNK_SIZE) with
  | complete cs => simp
  | invalid => simp
  | cutOff cs => simp

/-- What is read says the word, and what is written does not: something
comes after. -/
theorem somethingAfter_of_read (hread : Text.readText VERDICT_READ_LEN content = some text)
    (hword : Text.Says approveWord text) (hno : consents content = false) :
    SomethingAfter content := by
  obtain ⟨cs, hreads, rfl⟩ := Text.readText_eq_some hread
  refine ⟨⟨cs, hreads, hword⟩, ?_⟩
  rintro ⟨full, hfull, hblank⟩
  rw [Text.readText_whole (by decide) hread hfull] at hword
  have hwhole := (Text.says_append ink_approveWord hword).2 hblank
  rw [List.take_append_drop] at hwhole
  rw [(consents_of_complete hfull).2 hwhole] at hno
  cases hno

/-- And the other way round. -/
theorem read_of_somethingAfter (h : SomethingAfter content)
    (hread : Text.readText VERDICT_READ_LEN content = some text) :
    Text.Says approveWord text ∧ consents content = false := by
  obtain ⟨⟨cs, hreads, hword⟩, hno⟩ := h
  obtain ⟨cs', hreads', rfl⟩ := Text.readText_eq_some hread
  have hsame : cs' = cs := by
    rcases hreads with h | h <;> rw [h] at hreads'
    · exact Text.Scan.reads_complete.1 hreads'
    · exact Text.Scan.reads_cutOff.1 hreads'
  rw [hsame]
  refine ⟨hword, Bool.eq_false_iff.2 fun hyes => hno ?_⟩
  obtain ⟨full, hfull⟩ := consents_eq_true hyes
  have htext := Text.readText_whole (by decide) hread hfull
  rw [hsame] at htext
  have hwhole := (consents_of_complete hfull).1 hyes
  rw [← List.take_append_drop VERDICT_READ_LEN (Text.newlines full), ← htext] at hwhole
  exact ⟨full, hfull, (Text.says_append ink_approveWord hword).1 hwhole⟩

/-- **What is read does not say the word, and what is written does**: it is
pushed out. -/
theorem pushedOut_iff (hread : Text.readText VERDICT_READ_LEN content = some text) :
    PushedOut content ↔ consents content = true ∧ ¬ Text.Says approveWord text := by
  -- read are the first characters of the whole, so all depends on where the word ends
  have hshown : ∀ {full front w back}, Text.utf8Scan content = .complete full →
      Text.newlines full = front ++ w ++ back → Text.Blank front → Text.Blank back →
      Text.lower w = approveWord →
      (Text.Says approveWord text ↔ front.length + w.length ≤ VERDICT_READ_LEN) := by
    intro full front w back hfull hparts hfront hback hw
    rw [Text.readText_whole (by decide) hread hfull, hparts]
    exact Text.says_take ink_approveWord approveWord_ne_nil hfront hback hw
  constructor
  · rintro ⟨full, front, w, back, hfull, hparts, hfront, hback, hw, hlong⟩
    refine ⟨(consents_of_complete hfull).2 ⟨front, w, back, hparts, hfront, hback, hw⟩, ?_⟩
    rw [hshown hfull hparts hfront hback hw]
    omega
  · rintro ⟨hyes, hno⟩
    obtain ⟨full, hfull⟩ := consents_eq_true hyes
    obtain ⟨front, w, back, hparts, hfront, hback, hw⟩ := (consents_of_complete hfull).1 hyes
    rw [hshown hfull hparts hfront hback hw] at hno
    exact ⟨full, front, w, back, hfull, hparts, hfront, hback, hw, by omega⟩

/-- What the poll reads, of a file that does not raise. -/
theorem readVerdict_eq {w : World} (hfile : env.verdictFile = some content)
    (hread : Text.readText VERDICT_READ_LEN content = some text) :
    readVerdict env w =
      .ok (some (decide (Text.lower (Text.strip text) = approveWord))) w := by
  have hread' : Text.readText 32 content = some text := hread
  unfold readVerdict
  simp only [hfile, hread', verdictOfWord_eq]
  rfl

/-- A verdict that is read is what the request is resolved with. -/
theorem pollEntry_of_read {cfg : Config} {now : ℚ} {name : Requester} {p : Pending} {w : World}
    {approved : Bool} (hp : w.mem.pending.get? name = some p)
    (h : readVerdict env w = .ok (some approved) w) :
    pollEntry cfg now env name w = resolve cfg env name approved w := by
  have hget : (get : Handler World) w = .ok w w := rfl
  unfold pollEntry
  rw [bind_of_ok hget, hp]
  exact bind_of_ok h

/-- **A file that does not raise is read exactly** where what is read says
the word just when the whole content does. -/
theorem readExactly_iff (hfile : env.verdictFile = some content)
    (hread : Text.readText VERDICT_READ_LEN content = some text) : ReadExactly env content ↔
      (Text.Says approveWord text ↔ consents content = true) := by
  have hverdict : ∀ w, readVerdict env w =
      .ok (some (decide (Text.lower (Text.strip text) = approveWord))) w :=
    fun _ => readVerdict_eq hfile hread
  rw [← Text.lower_strip_iff ink_approveWord approveWord_ne_nil]
  constructor
  · rintro ⟨hexact, -⟩
    have hsame := hexact World.start
    rw [hverdict World.start] at hsame
    injection hsame with hsome
    rw [← Option.some.inj hsome, decide_eq_true_eq]
  · intro hiff
    have hsame : decide (Text.lower (Text.strip text) = approveWord) = consents content := by
      rw [Bool.eq_iff_iff, decide_eq_true_eq]
      exact hiff
    have hexact : ∀ w, readVerdict env w = .ok (some (consents content)) w := fun w => by
      rw [hverdict w, hsame]
    exact ⟨hexact, fun cfg now name p w hp => pollEntry_of_read hp (hexact w)⟩

/-- **When a verdict file is read exactly.** Its content resolves the
request with consent where the entire content, trimmed, is the word, and
with a refusal otherwise, if and only if it is text as far as the reader
goes, nothing but blanks follows the word where the reader stops, and the
word is not pushed out by blanks in front of it. -/
theorem verdict_exact_iff (env : Env) (content : Bytes) (hfile : env.verdictFile = some content) :
    ReadExactly env content ↔
      ¬ NoText content ∧ ¬ SomethingAfter content ∧ ¬ PushedOut content := by
  cases hread : Text.readText VERDICT_READ_LEN content with
  | none =>
    -- an exception is no answer, of whatever kind the answer should be
    have hraises : readVerdict env World.start = .error .unicodeDecodeError World.start := by
      have hread' : Text.readText 32 content = none := hread
      unfold readVerdict
      simp only [hfile, hread']
      rfl
    constructor
    · rintro ⟨hverdict, -⟩
      have hsame := hverdict World.start
      rw [hraises] at hsame
      cases hsame
    · exact fun h => absurd (readText_eq_none.1 hread) h.1
  | some text =>
    have htext : ¬ NoText content := by
      rw [← readText_eq_none, hread]
      exact fun h => by cases h
    rw [readExactly_iff hfile hread]
    constructor
    · intro hsame
      refine ⟨htext, fun h => ?_, fun h => ?_⟩
      · obtain ⟨hyes, hno⟩ := read_of_somethingAfter h hread
        rw [hsame.1 hyes] at hno
        cases hno
      · obtain ⟨hyes, hno⟩ := (pushedOut_iff hread).1 h
        exact hno (hsame.2 hyes)
    · rintro ⟨-, hafter, hpushed⟩
      refine ⟨fun hyes => ?_, fun hyes => ?_⟩
      · by_contra hno
        exact hafter (somethingAfter_of_read hread hyes (Bool.eq_false_iff.2 hno))
      · by_contra hno
        exact hpushed ((pushedOut_iff hread).2 ⟨hyes, hno⟩)

/-- The word, 25 blanks, and then `no`. -/
def afterthought : Bytes :=
  [97, 112, 112, 114, 111, 118, 101] ++ List.replicate 25 32 ++ [110, 111]

/-- **A file that takes its word back is consent.** -/
theorem afterthought_consents :
    ¬ ReadExactly { sampleEnv with verdictFile := some afterthought } afterthought := by
  rintro ⟨hverdict, -⟩
  have hsame := hverdict World.start
  have htext : Text.readText VERDICT_READ_LEN afterthought =
      some (approveWord ++ List.replicate 25 ' ') := by decide
  have hread : readVerdict { sampleEnv with verdictFile := some afterthought } World.start =
      .ok (some true) World.start := readVerdict_eq rfl htext
  have hno : consents afterthought = false := by decide
  rw [hread, hno] at hsame
  cases hsame

/-- The driver says yes. -/
theorem verdict_exact_approve :
    ReadExactly sampleApproval [97, 112, 112, 114, 111, 118, 101] := by
  refine (verdict_exact_iff sampleApproval _ rfl).2 ⟨?_, ?_, ?_⟩
  · rw [← readText_eq_none]
    decide
  · rintro ⟨-, hno⟩
    have hnothing : (Text.newlines approveWord).drop VERDICT_READ_LEN = [] := rfl
    refine hno ⟨approveWord, by decide, fun c hc => ?_⟩
    rw [hnothing] at hc
    cases hc
  · rintro ⟨cs, front, w, back, hscan, hparts, -, -, -, hlong⟩
    have hcs : cs = approveWord := by
      have h : Text.utf8Scan [97, 112, 112, 114, 111, 118, 101] = .complete approveWord := by decide
      rw [h] at hscan
      exact (Text.Scan.complete.inj hscan).symm
    have hlen := congrArg List.length hparts
    rw [hcs, List.length_append, List.length_append] at hlen
    have hseven : (Text.newlines approveWord).length = 7 := by decide
    have hmax : VERDICT_READ_LEN = 32 := rfl
    omega

end Coordinator

end VehicleStack
