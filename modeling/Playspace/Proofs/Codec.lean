import Playspace.Proofs.RoundTrip

/-!
# Any text, and any word

`roundTrips_iff` asks which texts come back. Over a file with no blank line
there is more to say: the encoder's answer to every text, a concatenation or
not, is the codes of its longest-match tokenisation, so a text that gets stuck
is cut there and nothing worse happens to it (`encodes_longestMatch`), and
encoding what was decoded cuts nothing more (`reencode_stable`).

The codes are another matter. They are a byte each and a byte has room for 255
lines, but a `char` is signed when it is read back: the lines from 128 on are
looked up under negative numbers, where there are none (`oneByte_iff`).
-/

namespace Playspace.Citbrains

open Playspace.Lib

/-- The byte that stands for a word: the number of its line. -/
def lineCode (lines : List Bytes) (w : Bytes) : UInt8 := intToChar (lines.idxOf w + 1)

section Loaded

variable {lines : List Bytes} {wordOf : WordOf} {numOf : NumOf}

theorem Loaded.not_blank (h : Loaded lines (wordOf, numOf)) (hblank : [] ∉ lines) :
    numOf.lookup [] = none := by
  rw [← Option.not_isSome_iff_eq_none, h.mem []]
  exact hblank

/-- Where the words are distinct, a word's number is that of its line. -/
theorem Loaded.lookup_eq (h : Loaded lines (wordOf, numOf)) (hnodup : lines.Nodup)
    {w : Bytes} (hw : w ∈ lines) : numOf.lookup w = some ((lines.idxOf w : Int) + 1) := by
  obtain ⟨k, hk⟩ := Option.isSome_iff_exists.mp ((h.mem w).mpr hw)
  obtain ⟨hpos, hget⟩ := h.num w k hk
  obtain ⟨hlt, hline⟩ := List.getElem?_eq_some_iff.mp hget
  have hidx := hnodup.idxOf_getElem (k - 1).toNat hlt
  rw [hline] at hidx
  rw [hk, hidx]
  exact congrArg some (by omega)

theorem Loaded.codeOf_eq (h : Loaded lines (wordOf, numOf)) (hnodup : lines.Nodup)
    {w : Bytes} (hw : w ∈ lines) : codeOf numOf w = lineCode lines w := by
  rw [codeOf, h.lookup_eq hnodup hw, Option.getD_some, lineCode]

end Loaded

/-! ## Every text -/

/-- The encoder and the decoder of one dictionary treat `text` as longest-match
tokenisation does: the words `ws` are read off and `r` is left, the codes are
those of the words, and what comes back is the part of the text that was
read. -/
def EncodesLongestMatch (lines : List Bytes) (encode : Bytes → Option Bytes)
    (decode : Bytes → Bytes) (text : Bytes) : Prop :=
  ∃ ws r, Tokenises {w | w ∈ lines} text ws r ∧
    encode text = some (ws.map (lineCode lines)) ∧
    ws.flatten ++ r = text ∧
    decode (ws.map (lineCode lines)) = ws.flatten ∧
    (decode (ws.map (lineCode lines)) = text ↔ r = [])

theorem Loaded.encode_eq_tokens {lines : List Bytes} {wordOf : WordOf}
    {numOf : NumOf} (h : Loaded lines (wordOf, numOf)) (hplain : PlainLines 127 lines)
    (text : Bytes) :
    EncodesLongestMatch lines (serializeTextImpl · numOf) (decoded wordOf) text := by
  obtain ⟨ws, r, ht⟩ := Tokenises.exists (wordSet numOf) text
  have hcodes : ws.map (lineCode lines) = ws.map (codeOf numOf) := by
    refine List.map_congr_left fun w hw => ?_
    rw [h.codeOf_eq hplain.nodup ((h.mem w).mp (ht.mem w hw))]
  have hdec : decoded wordOf (ws.map (lineCode lines)) = ws.flatten := by
    rw [hcodes]
    exact h.decoded_codes hplain.length_le ht.mem
  refine ⟨ws, r, h.wordSet_eq ▸ ht, ?_, ht.flatten, hdec, ?_⟩
  · rw [hcodes]
    exact serializeTextImpl_tokenises ht (Or.inr (h.not_blank hplain.not_blank))
  · rw [hdec, ← ht.flatten, List.self_eq_append_right]

/-- The encoder is the longest-match tokeniser on every text: of the one way to
cut `text` into longest words, the codes are emitted and the words come back. -/
theorem encodes_longestMatch {commandFile behaviorFile : Bytes}
    {d : SerializeStringByDict}
    (hnew : SerializeStringByDict.new commandFile behaviorFile = some d)
    (text : Bytes) :
    (PlainLines 127 (getlines commandFile) →
      EncodesLongestMatch (getlines commandFile) d.commandToNumSequence
        (fun seq => (d.numSequenceToCommand seq).1) text) ∧
    (PlainLines 127 (getlines behaviorFile) →
      EncodesLongestMatch (getlines behaviorFile) d.behaviorNameToNumSequence
        (fun seq => (d.numSequenceToBehaviorName seq).1) text) := by
  obtain ⟨hc, hb⟩ := SerializeStringByDict.new_loaded hnew
  rw [d.numSequenceToCommand_eq_decoded, d.numSequenceToBehaviorName_eq_decoded]
  exact ⟨fun hplain => hc.encode_eq_tokens hplain text,
    fun hplain => hb.encode_eq_tokens hplain text⟩

/-- A text with an unknown end, over the printed behaviour names. -/
theorem encodes_longestMatch_cut :
    ∃ d, SerializeStringByDict.new printedCommands printedBehaviors = some d ∧
      EncodesLongestMatch (getlines printedBehaviors) d.behaviorNameToNumSequence
        (fun seq => (d.numSequenceToBehaviorName seq).1) (ascii "ReadyToEnd") := by
  obtain ⟨d, hd⟩ := printed_new
  exact ⟨d, hd, (encodes_longestMatch hd _).2 printedBehaviors_plain⟩

/-! ## What was decoded, encoded again -/

namespace SerializeStringByDict

/-- What `seq` decodes to is encoded as `seq`, by the object as it was before
the decoding and as the decoding leaves it. -/
def CommandFixed (d : SerializeStringByDict) (seq : Bytes) : Prop :=
  d.commandToNumSequence (d.numSequenceToCommand seq).1 = some seq ∧
    (d.numSequenceToCommand seq).2.commandToNumSequence
      (d.numSequenceToCommand seq).1 = some seq

@[inherit_doc CommandFixed]
def BehaviorFixed (d : SerializeStringByDict) (seq : Bytes) : Prop :=
  d.behaviorNameToNumSequence (d.numSequenceToBehaviorName seq).1 = some seq ∧
    (d.numSequenceToBehaviorName seq).2.behaviorNameToNumSequence
      (d.numSequenceToBehaviorName seq).1 = some seq

end SerializeStringByDict

/-- The decoded text is the text cut where it gets stuck, which has the same
tokens. -/
theorem Loaded.encode_decode_encode {lines : List Bytes} {wordOf : WordOf}
    {numOf : NumOf} (h : Loaded lines (wordOf, numOf)) (hplain : PlainLines 127 lines)
    (text : Bytes) :
    ∃ seq, serializeTextImpl text numOf = some seq ∧
      serializeTextImpl (decoded wordOf seq) numOf = some seq := by
  obtain ⟨ws, r, ht⟩ := Tokenises.exists (wordSet numOf) text
  refine ⟨ws.map (codeOf numOf), ?_, ?_⟩
  · exact serializeTextImpl_tokenises ht (Or.inr (h.not_blank hplain.not_blank))
  · rw [h.decoded_codes hplain.length_le ht.mem]
    exact serializeTextImpl_tokenises ht.cut (Or.inl rfl)

/-- Every byte string the encoder can answer is what its decoding is encoded
as: a message can be passed on by way of its text. -/
theorem reencode_stable {commandFile behaviorFile : Bytes} {d : SerializeStringByDict}
    (hnew : SerializeStringByDict.new commandFile behaviorFile = some d)
    (text : Bytes) :
    (PlainLines 127 (getlines commandFile) →
      ∃ seq, d.commandToNumSequence text = some seq ∧ d.CommandFixed seq) ∧
    (PlainLines 127 (getlines behaviorFile) →
      ∃ seq, d.behaviorNameToNumSequence text = some seq ∧ d.BehaviorFixed seq) := by
  obtain ⟨hc, hb⟩ := SerializeStringByDict.new_loaded hnew
  refine ⟨?_, ?_⟩
  · intro hplain
    obtain ⟨seq, hseq, hback⟩ := hc.encode_decode_encode hplain text
    rw [← d.numSequenceToCommand_eq_decoded] at hback
    exact ⟨seq, hseq, hback, hback⟩
  · intro hplain
    obtain ⟨seq, hseq, hback⟩ := hb.encode_decode_encode hplain text
    rw [← d.numSequenceToBehaviorName_eq_decoded] at hback
    exact ⟨seq, hseq, hback, hback⟩

/-- A text with an unknown end is cut once and for all. -/
theorem reencode_stable_cut :
    ∃ d, SerializeStringByDict.new printedCommands printedBehaviors = some d ∧
      ∃ seq, d.behaviorNameToNumSequence (ascii "ReadyToEnd") = some seq ∧
        d.BehaviorFixed seq := by
  obtain ⟨d, hd⟩ := printed_new
  exact ⟨d, hd, (reencode_stable hd _).2 printedBehaviors_plain⟩

/-! ## Every word -/

/-- The word is encoded as one byte that no other word of the file is encoded
as, and decoding gives it back. -/
structure OneByte (lines : List Bytes) (encode : Bytes → Option Bytes)
    (decode : Bytes → Bytes) (w : Bytes) : Prop where
  length : ∃ seq, encode w = some seq ∧ seq.length = 1
  distinct : ∀ v ∈ lines, v ≠ w → encode v ≠ encode w
  back : ∃ seq, encode w = some seq ∧ decode seq = w

section Loaded

variable {lines : List Bytes} {wordOf : WordOf} {numOf : NumOf}

/-- A word is one token and gets the byte of its line. -/
theorem Loaded.encode_word (h : Loaded lines (wordOf, numOf)) {n : Nat}
    (hplain : PlainLines n lines) {w : Bytes} (hw : w ∈ lines) :
    serializeTextImpl w numOf = some [lineCode lines w] := by
  have hne : w ≠ [] := fun heq => hplain.not_blank (heq ▸ hw)
  rw [serializeTextImpl_tokenises (tokenises_word hne ((h.mem w).mpr hw)) (Or.inl rfl),
    List.map_singleton, h.codeOf_eq hplain.nodup hw]

/-- A byte tells 255 lines apart. -/
theorem lineCode_injective (hplain : PlainLines 255 lines) {v w : Bytes} (hv : v ∈ lines)
    (hw : w ∈ lines) (heq : lineCode lines v = lineCode lines w) : v = w := by
  have hcode := congrArg (fun c => (c.toNat : Int)) heq
  simp only [lineCode, toNat_intToChar] at hcode
  have hlen := hplain.length_le
  have hvlt := List.idxOf_lt_length_of_mem hv
  have hwlt := List.idxOf_lt_length_of_mem hw
  have hidx : lines.idxOf v = lines.idxOf w := by omega
  exact (List.idxOf_inj hv).mp hidx

/-- In the lower half of the range the word comes back, in the upper half the
empty one does. -/
theorem Loaded.wordAt_lineCode (h : Loaded lines (wordOf, numOf))
    (hplain : PlainLines 255 lines) {w : Bytes} (hw : w ∈ lines) :
    wordAt wordOf (charToInt (lineCode lines w)) =
      if lines.idxOf w + 1 ≤ 127 then w else [] := by
  have hlen := hplain.length_le
  have hlt := List.idxOf_lt_length_of_mem hw
  have hmod : ((lines.idxOf w : Int) + 1) % 256 = lines.idxOf w + 1 := by omega
  rw [lineCode, charToInt_intToChar, hmod, wordAt, h.word]
  split
  · next hsmall =>
      rw [if_pos (by omega), if_pos (by omega),
        show ((lines.idxOf w : Int) + 1 - 1).toNat = lines.idxOf w by omega,
        List.getElem?_idxOf hw]
      rfl
  · next hlarge =>
      rw [if_neg (by omega), if_neg (by omega)]
      rfl

theorem Loaded.oneByte_of_word_iff (h : Loaded lines (wordOf, numOf))
    (hplain : PlainLines 255 lines) {w : Bytes} (hw : w ∈ lines) :
    OneByte lines (serializeTextImpl · numOf) (decoded wordOf) w ↔
      lines.idxOf w + 1 ≤ 127 := by
  have hencode := h.encode_word hplain hw
  have hdecode : decoded wordOf [lineCode lines w] =
      if lines.idxOf w + 1 ≤ 127 then w else [] := by
    rw [decoded_cons, decoded_nil, List.append_nil, h.wordAt_lineCode hplain hw]
  refine ⟨?_, ?_⟩
  · intro hone
    obtain ⟨seq, hseq, hback⟩ := hone.back
    simp only [hencode, Option.some.injEq] at hseq
    subst hseq
    by_contra hlarge
    rw [hdecode, if_neg hlarge] at hback
    exact hplain.not_blank (hback ▸ hw)
  · intro hsmall
    refine ⟨⟨_, hencode, rfl⟩, ?_, ⟨_, hencode, ?_⟩⟩
    · intro v hv hne heq
      simp only [hencode, h.encode_word hplain hv, Option.some.injEq, List.cons.injEq,
        and_true] at heq
      exact hne (lineCode_injective hplain hv hw heq)
    · rw [hdecode, if_pos hsmall]

end Loaded

/-- Over a file of up to 255 distinct words a single byte serves a word of the
file exactly when the word is on one of the first 127 lines. -/
theorem oneByte_iff {commandFile behaviorFile : Bytes} {d : SerializeStringByDict}
    (hnew : SerializeStringByDict.new commandFile behaviorFile = some d) :
    (PlainLines 255 (getlines commandFile) → ∀ w ∈ getlines commandFile,
      (OneByte (getlines commandFile) d.commandToNumSequence
        (fun seq => (d.numSequenceToCommand seq).1) w ↔
          (getlines commandFile).idxOf w + 1 ≤ 127)) ∧
    (PlainLines 255 (getlines behaviorFile) → ∀ w ∈ getlines behaviorFile,
      (OneByte (getlines behaviorFile) d.behaviorNameToNumSequence
        (fun seq => (d.numSequenceToBehaviorName seq).1) w ↔
          (getlines behaviorFile).idxOf w + 1 ≤ 127)) := by
  obtain ⟨hc, hb⟩ := SerializeStringByDict.new_loaded hnew
  rw [d.numSequenceToCommand_eq_decoded, d.numSequenceToBehaviorName_eq_decoded]
  exact ⟨fun hplain w hw => hc.oneByte_of_word_iff hplain hw,
    fun hplain w hw => hb.oneByte_of_word_iff hplain hw⟩

theorem oneByte_root :
    ∃ d, SerializeStringByDict.new printedCommands printedBehaviors = some d ∧
      OneByte (getlines printedBehaviors) d.behaviorNameToNumSequence
        (fun seq => (d.numSequenceToBehaviorName seq).1) (ascii "Root") := by
  obtain ⟨d, hd⟩ := printed_new
  have hplain : PlainLines 255 (getlines printedBehaviors) :=
    printedBehaviors_plain.mono (by omega)
  have hroot : ascii "Root" ∈ getlines printedBehaviors := by decide +kernel
  have hsmall := List.idxOf_lt_length_of_mem hroot
  have hlength := printedBehaviors_plain.length_le
  exact ⟨d, hd, ((oneByte_iff hd).2 hplain (ascii "Root") hroot).mpr (by omega)⟩

/-- A file of 128 words of two letters. -/
def manyWords : Bytes :=
  (List.range 128).flatMap fun i =>
    [UInt8.ofNat (97 + i / 16), UInt8.ofNat (97 + i % 16), 10]

theorem manyWords_lines : getlines manyWords =
    (List.range 128).map fun i =>
      [UInt8.ofNat (97 + i / 16), UInt8.ofNat (97 + i % 16)] := by
  decide +kernel

theorem manyWords_plain : PlainLines 255 (getlines manyWords) := by
  rw [manyWords_lines]
  refine ⟨?_, ?_, ?_⟩
  · rw [List.length_map, List.length_range]
    omega
  · refine List.Nodup.map_on ?_ List.nodup_range
    intro i hi j hj heq
    rw [List.mem_range] at hi hj
    obtain ⟨hfirst, hsecond⟩ := List.cons_eq_cons.mp heq
    have hdiv := congrArg UInt8.toNat hfirst
    have hmod := congrArg UInt8.toNat (List.cons_eq_cons.mp hsecond).1
    rw [UInt8.toNat_ofNat', UInt8.toNat_ofNat'] at hdiv hmod
    omega
  · intro hblank
    obtain ⟨i, -, heq⟩ := List.mem_map.mp hblank
    cases heq

/-- The last of 128 words is sent as the byte 128 and read back as nothing. -/
theorem manyWords_not_oneByte :
    ∃ d, SerializeStringByDict.new manyWords printedBehaviors = some d ∧
      PlainLines 255 (getlines manyWords) ∧ ascii "hp" ∈ getlines manyWords ∧
      d.commandToNumSequence (ascii "hp") = some [128] ∧
      (d.numSequenceToCommand [128]).1 = [] := by
  obtain ⟨d, hd⟩ : ∃ d, SerializeStringByDict.new manyWords printedBehaviors = some d :=
    SerializeStringByDict.new_of_ne_nil (by decide +kernel) (by decide +kernel)
  obtain ⟨hc, -⟩ := SerializeStringByDict.new_loaded hd
  have hmem : ascii "hp" ∈ getlines manyWords := by decide +kernel
  have hcode : lineCode (getlines manyWords) (ascii "hp") = 128 := by decide +kernel
  have hword := hc.wordAt_lineCode manyWords_plain hmem
  rw [hcode, if_neg (by decide +kernel)] at hword
  refine ⟨d, hd, manyWords_plain, hmem, ?_, ?_⟩
  · rw [SerializeStringByDict.commandToNumSequence, hc.encode_word manyWords_plain hmem,
      hcode]
  · rw [SerializeStringByDict.numSequenceToCommand, (numSequenceTo_spec _ _).1,
      decoded_cons, decoded_nil, List.append_nil, hword]

end Playspace.Citbrains
