import Playspace.Proofs.RoundTrip

/-!
# When the encoder leaves its loop

The iterator goes back to the end of the last word each time the text has been
scanned to its end, so what ends the loop is that every scan consumes a word,
or that `dictionary.at` throws because the scan found none. A blank line takes
both away: the scan that finds no word finds the blank one, and the iterator is
put back where it was. `encoder_ends_iff` says for which texts that matters.

The model stops after `encFuel` passes. That is enough for every run that ends
(`serializeTextImpl_eq_none_iff`), so its `none` is the run that never does.
-/

namespace Playspace.Citbrains

open Playspace.Lib

/-- The loop is left after finitely many passes, with at most one code for
each character of the text. -/
def EncoderEnds (text : Bytes) (dictionary : NumOf) : Prop :=
  ∃ passes seq,
    serializeLoop text dictionary passes ⟨0, [], [], 0, []⟩ = some seq ∧
      seq.length ≤ text.length

/-- No blank word comes up while `text` is cut into longest words of `D`, or
one comes up at the very first character only. -/
def BlankFree (D : Set Bytes) (text : Bytes) : Prop :=
  [] ∉ D ∨ (∃ ws, Tokenises D text ws []) ∨
    ∃ c rest ws, text = c :: rest ∧ Stuck D text ∧ Tokenises D rest ws []

theorem blankFree_of_loop {text seq : Bytes} {dictionary : NumOf} {fuel : Nat}
    (h : serializeLoop text dictionary fuel (scanStart [] 0 []) = some seq) :
    BlankFree (wordSet dictionary) text := by
  rcases serializeLoop_cases h with ⟨ws, r, ht, hend, -⟩ |
    ⟨c, rest, ws, htext, -, hs, ht, -⟩
  · rcases hend with rfl | hblank
    · exact Or.inr (Or.inl ⟨ws, ht⟩)
    · left
      show ¬ (dictionary.lookup []).isSome = true
      rw [hblank]
      exact Bool.false_ne_true
  · exact Or.inr (Or.inr ⟨c, rest, ws, htext, hs, ht⟩)

/-- The blank word in place of the first character, then the words of the
rest: one code for each, within the model's passes. -/
theorem loop_blank_first {dictionary : NumOf} {num : Int} {c : UInt8} {rest : Bytes}
    {ws : List Bytes} (hblank : dictionary.lookup [] = some num)
    (hs : Stuck (wordSet dictionary) (c :: rest))
    (ht : Tokenises (wordSet dictionary) rest ws []) :
    serializeLoop (c :: rest) dictionary (encFuel (c :: rest)) (scanStart [] 0 []) =
      some (codeOf dictionary [] :: ws.map (codeOf dictionary)) := by
  have hfuel : (ws.length + 1) * rest.length + (c :: rest).length ≤
      encFuel (c :: rest) := by
    have hle := ht.length_le
    have hmul : (ws.length + 1) * rest.length ≤ (rest.length + 1) * rest.length :=
      Nat.mul_le_mul_right _ (by omega)
    have hsquare : (rest.length + 1 + 1) * (rest.length + 1 + 1) =
        (rest.length + 1) * rest.length + (3 * rest.length + 4) := by ring
    rw [encFuel, List.length_cons]
    omega
  rw [loop_blank_start hblank hs, if_neg (by omega)]
  by_cases hrest : rest = []
  · subst hrest
    obtain ⟨rfl, -⟩ := ht.nil_inv
    rw [if_pos rfl, List.map_nil]
  · rw [if_neg hrest]
    exact loop_tokenises ht (Or.inl rfl) [c] [codeOf dictionary []] 0 _ hrest rfl
      (by omega)

theorem serializeTextImpl_of_blankFree {text : Bytes} {dictionary : NumOf}
    (h : BlankFree (wordSet dictionary) text) :
    ∃ seq, serializeTextImpl text dictionary = some seq ∧ seq.length ≤ text.length := by
  have hwords {r : Bytes} {ws : List Bytes}
      (ht : Tokenises (wordSet dictionary) text ws r)
      (hend : r = [] ∨ dictionary.lookup [] = none) :
      ∃ seq, serializeTextImpl text dictionary = some seq ∧
        seq.length ≤ text.length :=
    ⟨_, serializeTextImpl_tokenises ht hend, by rw [List.length_map]; exact ht.length_le⟩
  by_cases hblank : dictionary.lookup [] = none
  · obtain ⟨ws, r, ht⟩ := Tokenises.exists (wordSet dictionary) text
    exact hwords ht (Or.inr hblank)
  · obtain ⟨num, hblank⟩ := Option.ne_none_iff_exists'.mp hblank
    have hmem : [] ∈ wordSet dictionary := Option.isSome_iff_exists.mpr ⟨num, hblank⟩
    rcases h with hnot | ⟨ws, ht⟩ | ⟨c, rest, ws, rfl, hs, ht⟩
    · exact absurd hmem hnot
    · exact hwords ht (Or.inl rfl)
    · refine ⟨_, loop_blank_first hblank hs ht, ?_⟩
      have hle := ht.length_le
      rw [List.length_cons, List.length_map, List.length_cons]
      omega

theorem length_serializeTextImpl_le {text seq : Bytes} {dictionary : NumOf}
    (h : serializeTextImpl text dictionary = some seq) : seq.length ≤ text.length := by
  obtain ⟨seq', h', hle⟩ := serializeTextImpl_of_blankFree (blankFree_of_loop h)
  rw [h, Option.some.injEq] at h'
  rw [h']
  exact hle

theorem encoderEnds_iff_blankFree (text : Bytes) (dictionary : NumOf) :
    EncoderEnds text dictionary ↔ BlankFree (wordSet dictionary) text := by
  refine ⟨?_, ?_⟩
  · intro ⟨passes, seq, hrun, _⟩
    exact blankFree_of_loop hrun
  · intro hfree
    obtain ⟨seq, hrun, hle⟩ := serializeTextImpl_of_blankFree hfree
    exact ⟨encFuel text, seq, hrun, hle⟩

/-- The model gives up exactly on the runs that no number of passes ends. -/
theorem serializeTextImpl_eq_none_iff (text : Bytes) (dictionary : NumOf) :
    serializeTextImpl text dictionary = none ↔ ¬ EncoderEnds text dictionary := by
  rw [encoderEnds_iff_blankFree]
  refine ⟨?_, ?_⟩
  · intro hnone hfree
    obtain ⟨seq, hrun, -⟩ := serializeTextImpl_of_blankFree hfree
    rw [hnone] at hrun
    cases hrun
  · intro hfree
    cases hrun : serializeTextImpl text dictionary with
    | none => rfl
    | some seq => exact absurd (blankFree_of_loop hrun) hfree

/-- With a constructed dictionary the encoder ends exactly on the texts where
no blank line of the file is in the way. -/
theorem encoder_ends_iff {commandFile behaviorFile : Bytes} {d : SerializeStringByDict}
    (hnew : SerializeStringByDict.new commandFile behaviorFile = some d)
    (text : Bytes) :
    (EncoderEnds text d.commandToNum ↔ BlankFree (fileWords commandFile) text) ∧
    (EncoderEnds text d.behaviorNameToNum ↔
      BlankFree (fileWords behaviorFile) text) := by
  obtain ⟨hc, hb⟩ := SerializeStringByDict.new_loaded hnew
  rw [encoderEnds_iff_blankFree, encoderEnds_iff_blankFree, hc.wordSet_eq, hb.wordSet_eq]
  exact ⟨Iff.rfl, Iff.rfl⟩

/-- A class line without bases and one with: the first leaves a blank line. -/
def blankFile : Bytes := ascii "Ready\n\nSet\n"

theorem blankFile_new :
    ∃ d, SerializeStringByDict.new printedCommands blankFile = some d :=
  SerializeStringByDict.new_of_ne_nil (by decide +kernel) (by decide +kernel)

theorem blankFile_words {v : Bytes} :
    v ∈ fileWords blankFile ↔ v = ascii "Ready" ∨ v = [] ∨ v = ascii "Set" := by
  have hlines : getlines blankFile = [ascii "Ready", [], ascii "Set"] := by
    decide +kernel
  show v ∈ getlines blankFile ↔ _
  rw [hlines, List.mem_cons, List.mem_cons, List.mem_singleton]

/-- Behind `Ready` the unknown rest of the text is scanned forever. -/
theorem encoder_hangs :
    ∃ d, SerializeStringByDict.new printedCommands blankFile = some d ∧
      ¬ EncoderEnds (ascii "ReadyGo") d.behaviorNameToNum := by
  obtain ⟨d, hd⟩ := blankFile_new
  refine ⟨d, hd, ?_⟩
  rw [← serializeTextImpl_eq_none_iff]
  have hrun : (SerializeStringByDict.new printedCommands blankFile).map
      (fun d => serializeTextImpl (ascii "ReadyGo") d.behaviorNameToNum) =
        some none := by decide +kernel
  rw [hd, Option.map_some] at hrun
  exact Option.some.inj hrun

/-- A concatenation of the words is encoded, blank line or not. -/
theorem encoder_ends_readySet :
    ∃ d, SerializeStringByDict.new printedCommands blankFile = some d ∧
      EncoderEnds (ascii "Ready" ++ ascii "Set") d.behaviorNameToNum := by
  obtain ⟨d, hd⟩ := blankFile_new
  refine ⟨d, hd, (encoder_ends_iff hd _).2.mpr (Or.inr (Or.inl
    ⟨[ascii "Ready", ascii "Set"], ?_⟩))⟩
  have hready : ascii "Ready" ∈ fileWords blankFile := blankFile_words.mpr (Or.inl rfl)
  have hset : ascii "Set" ∈ fileWords blankFile :=
    blankFile_words.mpr (Or.inr (Or.inr rfl))
  have hfirst : LongestPrefix (fileWords blankFile) (ascii "Ready" ++ ascii "Set")
      (ascii "Ready") := by
    refine ⟨by decide, hready, List.prefix_append _ _, ?_⟩
    intro v hv _
    rcases blankFile_words.mp hv with rfl | rfl | rfl <;> decide
  exact .word hfirst (tokenises_word (by decide) hset)

end Playspace.Citbrains
