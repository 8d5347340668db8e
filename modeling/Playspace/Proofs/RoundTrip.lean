import Playspace.Proofs.Encoder

/-!
# Encoding a text and decoding it again

With at most 127 lines every code is a positive `char`, so decoding undoes
encoding word for word and the only thing that can go wrong is the
tokenisation itself. `roundTrips_iff` makes that exact: a text comes back if
and only if longest-match tokenisation uses it up. Being a concatenation of
dictionary words is not enough. With the robots' own words, `FreeKick`
followed by `ReadyToEnter` is read as `FreeKickReady` and then gets stuck at
`ToEnter`.
-/

namespace Playspace.Citbrains

open Playspace.Lib

/-- A file of at most `n` distinct words, none of them blank. -/
structure PlainLines (n : Nat) (lines : List Bytes) : Prop where
  length_le : lines.length ≤ n
  nodup : lines.Nodup
  not_blank : [] ∉ lines

theorem PlainLines.mono {m n : Nat} {lines : List Bytes} (h : PlainLines m lines)
    (hle : m ≤ n) : PlainLines n lines :=
  ⟨Nat.le_trans h.length_le hle, h.nodup, h.not_blank⟩

/-- The words of a dictionary file. -/
def fileWords (file : Bytes) : Set Bytes := {w | w ∈ getlines file}

section Loaded

variable {lines : List Bytes} {wordOf : WordOf} {numOf : NumOf}

theorem Loaded.wordSet_eq (h : Loaded lines (wordOf, numOf)) :
    wordSet numOf = {w | w ∈ lines} :=
  Set.ext fun w => h.mem w

/-- The byte sent for a word of a small dictionary is read back as the
word. -/
theorem Loaded.wordAt_codeOf (h : Loaded lines (wordOf, numOf))
    (hlen : lines.length ≤ 127) {w : Bytes} (hw : w ∈ wordSet numOf) :
    wordAt wordOf (charToInt (codeOf numOf w)) = w := by
  obtain ⟨k, hk⟩ := Option.isSome_iff_exists.mp hw
  obtain ⟨hpos, hget⟩ := h.num w k hk
  have hlt := (List.getElem?_eq_some_iff.mp hget).1
  rw [codeOf, hk, Option.getD_some,
    charToInt_intToChar_of_small (by omega) (by omega), wordAt, h.word,
    if_pos hpos, hget, Option.getD_some]

/-- Codes that each stand for their word decode to the words. -/
theorem decoded_codes {numOf : NumOf} {wordOf : WordOf} {ws : List Bytes}
    (h : ∀ w ∈ ws, wordAt wordOf (charToInt (codeOf numOf w)) = w) :
    decoded wordOf (ws.map (codeOf numOf)) = ws.flatten := by
  induction ws with
  | nil => rfl
  | cons w ws ih =>
      rw [List.map_cons, decoded_cons, h w List.mem_cons_self,
        ih fun v hv => h v (List.mem_cons_of_mem w hv), List.flatten_cons]

theorem Loaded.decoded_codes (h : Loaded lines (wordOf, numOf))
    (hlen : lines.length ≤ 127) {ws : List Bytes} (hws : ∀ w ∈ ws, w ∈ wordSet numOf) :
    decoded wordOf (ws.map (codeOf numOf)) = ws.flatten :=
  Citbrains.decoded_codes fun w hw => h.wordAt_codeOf hlen (hws w hw)

/-- A text comes back from its own encoding exactly when longest-match
tokenisation uses it up, and then the encoding is the codes of its words. -/
theorem Loaded.lossless_iff (h : Loaded lines (wordOf, numOf))
    (hlen : lines.length ≤ 127) {text seq : Bytes} :
    serializeTextImpl text numOf = some seq ∧ decoded wordOf seq = text ↔
      ∃ ws, Tokenises (wordSet numOf) text ws [] ∧ seq = ws.map (codeOf numOf) := by
  refine ⟨?_, ?_⟩
  · rintro ⟨hser, hdec⟩
    rcases serializeLoop_cases hser with ⟨ws, r, ht, -, rfl⟩ |
      ⟨c, rest, ws, rfl, hblank, -, ht, rfl⟩
    · -- What was decoded is what was used up, so nothing is left over.
      rw [h.decoded_codes hlen ht.mem] at hdec
      have hr : r = [] := by
        have := ht.flatten
        rwa [hdec, List.append_right_eq_self] at this
      subst hr
      exact ⟨ws, ht, rfl⟩
    · -- The first character went missing.
      have hmem : ∀ w ∈ ([] :: ws : List Bytes), w ∈ wordSet numOf := by
        intro w hw
        rcases List.mem_cons.mp hw with rfl | hw
        · exact hblank
        · exact ht.mem w hw
      have hlong := h.decoded_codes hlen hmem
      rw [List.map_cons, hdec, List.flatten_cons, List.nil_append] at hlong
      have hflat := ht.flatten
      rw [List.append_nil, ← hlong] at hflat
      exact absurd (congrArg List.length hflat) (by simp)
  · rintro ⟨ws, ht, rfl⟩
    refine ⟨serializeTextImpl_tokenises ht (Or.inl rfl), ?_⟩
    rw [h.decoded_codes hlen ht.mem]
    simpa using ht.flatten

end Loaded

namespace SerializeStringByDict

/-- `numSequenceToCommand(commandToNumSequence(text)) = text`. -/
def CommandRoundTrips (d : SerializeStringByDict) (text : Bytes) : Prop :=
  ∃ seq, d.commandToNumSequence text = some seq ∧
    (d.numSequenceToCommand seq).1 = text

/-- `numSequenceToBehaviorName(behaviorNameToNumSequence(text)) = text`. -/
def BehaviorRoundTrips (d : SerializeStringByDict) (text : Bytes) : Prop :=
  ∃ seq, d.behaviorNameToNumSequence text = some seq ∧
    (d.numSequenceToBehaviorName seq).1 = text

/-- A constructed object holds its two files. -/
theorem new_loaded {commandFile behaviorFile : Bytes} {d : SerializeStringByDict}
    (h : SerializeStringByDict.new commandFile behaviorFile = some d) :
    Loaded (getlines commandFile) (d.numToCommand, d.commandToNum) ∧
      Loaded (getlines behaviorFile) (d.numToBehaviorName, d.behaviorNameToNum) := by
  have hc := loadDict_loaded commandFile
  have hb := loadDict_loaded behaviorFile
  simp only [SerializeStringByDict.new] at h
  split at h
  · cases h
  · split at h
    · cases h
    · cases h
      exact ⟨hc, hb⟩

/-- The constructor throws on an empty file only. -/
theorem new_of_ne_nil {commandFile behaviorFile : Bytes} (hc : commandFile ≠ [])
    (hb : behaviorFile ≠ []) :
    ∃ d, SerializeStringByDict.new commandFile behaviorFile = some d := by
  have hcommand : (loadDict commandFile).2.entries ≠ [] := by
    rw [Ne, (loadDict_loaded commandFile).entries_eq_nil_iff, getlines_eq_nil_iff]
    exact hc
  have hbehavior : (loadDict behaviorFile).2.entries ≠ [] := by
    rw [Ne, (loadDict_loaded behaviorFile).entries_eq_nil_iff, getlines_eq_nil_iff]
    exact hb
  exact ⟨_, (if_neg hcommand).trans (if_neg hbehavior)⟩

theorem numSequenceToCommand_eq_decoded (d : SerializeStringByDict) :
    (fun seq => (d.numSequenceToCommand seq).1) = decoded d.numToCommand :=
  funext fun seq => (numSequenceTo_spec seq d.numToCommand).1

theorem numSequenceToBehaviorName_eq_decoded (d : SerializeStringByDict) :
    (fun seq => (d.numSequenceToBehaviorName seq).1) = decoded d.numToBehaviorName :=
  funext fun seq => (numSequenceTo_spec seq d.numToBehaviorName).1

theorem commandRoundTrips_iff_lossless {d : SerializeStringByDict} {text : Bytes} :
    d.CommandRoundTrips text ↔ ∃ seq, serializeTextImpl text d.commandToNum = some seq ∧
      decoded d.numToCommand seq = text := by
  simp only [CommandRoundTrips, commandToNumSequence, numSequenceToCommand,
    numSequenceTo_spec]

theorem behaviorRoundTrips_iff_lossless {d : SerializeStringByDict} {text : Bytes} :
    d.BehaviorRoundTrips text ↔
      ∃ seq, serializeTextImpl text d.behaviorNameToNum = some seq ∧
        decoded d.numToBehaviorName seq = text := by
  simp only [BehaviorRoundTrips, behaviorNameToNumSequence, numSequenceToBehaviorName,
    numSequenceTo_spec]

end SerializeStringByDict

theorem Loaded.exists_lossless_iff {lines : List Bytes} {wordOf : WordOf}
    {numOf : NumOf} (h : Loaded lines (wordOf, numOf)) (hlen : lines.length ≤ 127)
    {text : Bytes} :
    (∃ seq, serializeTextImpl text numOf = some seq ∧ decoded wordOf seq = text) ↔
      ∃ ws, Tokenises {w | w ∈ lines} text ws [] := by
  simp only [h.lossless_iff hlen, h.wordSet_eq]
  refine ⟨?_, ?_⟩
  · rintro ⟨seq, ws, ht, -⟩
    exact ⟨ws, ht⟩
  · rintro ⟨ws, ht⟩
    exact ⟨_, ws, ht, rfl⟩

/-- Both codecs give a text back exactly when cutting off the longest
dictionary word again and again uses the text up. -/
theorem roundTrips_iff {commandFile behaviorFile : Bytes}
    {d : SerializeStringByDict}
    (hnew : SerializeStringByDict.new commandFile behaviorFile = some d)
    (text : Bytes) :
    ((getlines commandFile).length ≤ 127 →
      (d.CommandRoundTrips text ↔
        ∃ ws, Tokenises (fileWords commandFile) text ws [])) ∧
    ((getlines behaviorFile).length ≤ 127 →
      (d.BehaviorRoundTrips text ↔
        ∃ ws, Tokenises (fileWords behaviorFile) text ws [])) := by
  obtain ⟨hc, hb⟩ := SerializeStringByDict.new_loaded hnew
  refine ⟨?_, ?_⟩
  · intro hlen
    rw [SerializeStringByDict.commandRoundTrips_iff_lossless]
    exact hc.exists_lossless_iff hlen
  · intro hlen
    rw [SerializeStringByDict.behaviorRoundTrips_iff_lossless]
    exact hb.exists_lossless_iff hlen

/-- A dictionary file: one word per line. -/
def dictFile (words : List String) : Bytes :=
  (words.map fun w => ascii w ++ [10]).flatten

/-- The two dictionaries of a real run: the lists the program printed when it
loaded them. -/
def printedCommands : Bytes := dictFile
  ["BallInGoal", "WalkingBackward", "FreeKick", "GoalKeepFromMovingBall",
    "Neutral", "KnowBallPos", "Keeper", "ReceiverHaveBall",
    "StandBetweenGoalAndBall", "SideEntry", "Attacker", "KnowSelfPos",
    "SearchBall", "Localization", "MovePos", "Defender", "ClearBallOutOfArea",
    "HaveBall", "TrackingBall", "MoveBall", "OnTargetPos", "KeepFormation",
    "Idling", "WaitKickoff"]

@[inherit_doc printedCommands]
def printedBehaviors : Bytes := dictFile
  ["KickMode", "SearchMode", "DribbleBall", "KickBall", "DynamicApproach",
    "Root", "FreeKickReady", "ReadyToEnter", "FreeKick", "Set", "Defender",
    "Keeper", "Freeze", "SideEntry", "Paused", "Explore", "StaticApproach",
    "Attacker", "Ready", "WaitMode", "IdleKick", "FreeKickMode", "Neutral"]

theorem printed_new :
    ∃ d, SerializeStringByDict.new printedCommands printedBehaviors = some d :=
  SerializeStringByDict.new_of_ne_nil (by decide +kernel) (by decide +kernel)

theorem printedBehaviors_plain : PlainLines 127 (getlines printedBehaviors) :=
  ⟨by decide +kernel, by decide +kernel, by decide +kernel⟩

/-- Round trip of every concatenation of words, as a property of a pair of
dictionary files. -/
def ConcatenationsRoundTrip (commandFile behaviorFile : Bytes) : Prop :=
  ∀ d, SerializeStringByDict.new commandFile behaviorFile = some d →
    (∀ ws : List Bytes, (∀ w ∈ ws, w ∈ getlines commandFile) →
      d.CommandRoundTrips ws.flatten) ∧
    (∀ ws : List Bytes, (∀ w ∈ ws, w ∈ getlines behaviorFile) →
      d.BehaviorRoundTrips ws.flatten)

/-- The printed dictionaries are small lists of distinct words, and still
`FreeKick` followed by `ReadyToEnter` does not come back. -/
theorem printed_not_roundTrip :
    (getlines printedBehaviors).length ≤ 127 ∧ (getlines printedBehaviors).Nodup ∧
      [] ∉ getlines printedBehaviors ∧
      ¬ ConcatenationsRoundTrip printedCommands printedBehaviors := by
  refine ⟨printedBehaviors_plain.length_le, printedBehaviors_plain.nodup,
    printedBehaviors_plain.not_blank, ?_⟩
  intro h
  obtain ⟨d, hd⟩ := printed_new
  obtain ⟨seq, hseq, hback⟩ := (h d hd).2 [ascii "FreeKick", ascii "ReadyToEnter"]
    (by decide +kernel)
  have hrun : (SerializeStringByDict.new printedCommands printedBehaviors).map
      (fun d => d.behaviorNameToNumSequence (ascii "FreeKickReadyToEnter")) =
        some (some [7]) := by decide +kernel
  have hdec : (SerializeStringByDict.new printedCommands printedBehaviors).map
      (fun d => (d.numSequenceToBehaviorName [7]).1) =
        some (ascii "FreeKickReady") := by decide +kernel
  rw [hd] at hrun hdec
  simp only [Option.map_some, Option.some.injEq] at hrun hdec
  have hsame : [ascii "FreeKick", ascii "ReadyToEnter"].flatten =
      ascii "FreeKickReadyToEnter" := by decide
  rw [hsame] at hseq hback
  rw [hrun, Option.some.injEq] at hseq
  subst hseq
  rw [hdec] at hback
  exact absurd hback (by decide)

/-- The equivalence at work on a corner case of the dictionary test: the
shorter word wins where the longer one does not fit. -/
theorem printed_roundTrips_modeReady :
    ∃ d, SerializeStringByDict.new printedCommands printedBehaviors = some d ∧
      d.BehaviorRoundTrips (ascii "FreeKickFreeKickReady") := by
  obtain ⟨d, hd⟩ := printed_new
  refine ⟨d, hd, ((roundTrips_iff hd _).2 printedBehaviors_plain.length_le).mpr
    ⟨[ascii "FreeKick", ascii "FreeKickReady"], ?_⟩⟩
  have hfirst : LongestPrefix (fileWords printedBehaviors)
      (ascii "FreeKick" ++ ascii "FreeKickReady") (ascii "FreeKick") :=
    ⟨by decide, show _ ∈ getlines _ by decide +kernel, by decide +kernel,
      show ∀ v ∈ getlines _, _ by decide +kernel⟩
  exact .word hfirst (tokenises_word (by decide)
    (show _ ∈ getlines _ by decide +kernel))

/-- Where no word starts another, every concatenation of words comes back. -/
theorem roundTrips_of_prefixFree {commandFile behaviorFile : Bytes}
    {d : SerializeStringByDict}
    (hnew : SerializeStringByDict.new commandFile behaviorFile = some d)
    (hlen : (getlines commandFile).length ≤ 127)
    (hfree : ∀ v ∈ getlines commandFile, ∀ w ∈ getlines commandFile,
      v <+: w → v = w)
    (hblank : [] ∉ getlines commandFile) {ws : List Bytes}
    (hws : ∀ w ∈ ws, w ∈ getlines commandFile) :
    d.CommandRoundTrips ws.flatten := by
  have hc := (SerializeStringByDict.new_loaded hnew).1
  rw [SerializeStringByDict.commandRoundTrips_iff_lossless, hc.exists_lossless_iff hlen]
  exact ⟨ws, tokenises_of_prefixFree hfree hblank hws⟩

end Playspace.Citbrains
