import Playspace.Proofs.RoundTrip
import Playspace.Python.ParseHtn

/-!
# Two robots with dictionaries of their own

The numbering of a dictionary is the order of its lines, and the order of the
lines is the order in which one process happened to iterate over a set. Two
robots understand each other exactly when the words come out on the same lines
(`robots_agree_iff`); for class names that keep no line end that means the same
order altogether (`robots_agree_iff_sameOrder`), and nothing in the generator
sees to it.
-/

namespace Playspace.Citbrains

open ParseHtn (Sources DictFiles writeWords main)
open Playspace.Lib

/-! ## Reading another robot's numbers -/

/-- Line `i` is the last one with the word `w`. -/
def LastLine (lines : List Bytes) (w : Bytes) (i : Nat) : Prop :=
  lines[i]? = some w ∧ ∀ j, lines[j]? = some w → j ≤ i

/-- On the last line with each word of the first file, the second has the same
word. The blank word is left out, as no text is encoded with it. -/
def SameNumbers (lines lines' : List Bytes) : Prop :=
  ∀ w i, w ≠ [] → LastLine lines w i → lines'[i]? = some w

section Loaded

variable {lines lines' : List Bytes} {wordOf wordOf' : WordOf} {numOf numOf' : NumOf}

theorem Loaded.lookup_iff_lastLine (h : Loaded lines (wordOf, numOf)) {w : Bytes}
    {k : Int} : numOf.lookup w = some k ↔
      1 ≤ k ∧ LastLine lines w (k - 1).toNat := by
  refine ⟨?_, ?_⟩
  · intro hk
    obtain ⟨hpos, hget⟩ := h.num w k hk
    exact ⟨hpos, hget, h.last w k hk⟩
  · intro ⟨hpos, hget, hlast⟩
    have hmem := (h.mem w).mpr (List.mem_of_getElem? hget)
    obtain ⟨k', hk'⟩ := Option.isSome_iff_exists.mp hmem
    obtain ⟨hpos', hget'⟩ := h.num w k' hk'
    have h1 := h.last w k' hk' _ hget
    have h2 := hlast _ hget'
    obtain rfl : k' = k := by omega
    exact hk'

/-- What the number of a word on line `i` means to the other robot. -/
theorem Loaded.wordAt_lastLine (h : Loaded lines (wordOf, numOf))
    (h' : Loaded lines' (wordOf', numOf')) (hlen : lines.length ≤ 127) {w : Bytes}
    {i : Nat} (hlast : LastLine lines w i) :
    wordAt wordOf' (charToInt (codeOf numOf w)) = (lines'[i]?).getD [] := by
  have hk : numOf.lookup w = some ((i : Int) + 1) :=
    h.lookup_iff_lastLine.mpr ⟨by omega, by simpa using hlast⟩
  have hlt := (List.getElem?_eq_some_iff.mp hlast.1).1
  rw [codeOf, hk, Option.getD_some,
    charToInt_intToChar_of_small (by omega) (by omega), wordAt, h'.word,
    if_pos (by omega)]
  simp

theorem Loaded.agrees_iff (h : Loaded lines (wordOf, numOf))
    (h' : Loaded lines' (wordOf', numOf')) (hlen : lines.length ≤ 127) :
    (∀ text seq, serializeTextImpl text numOf = some seq → decoded wordOf seq = text →
        decoded wordOf' seq = text) ↔ SameNumbers lines lines' := by
  refine ⟨?_, ?_⟩
  · intro hagree w i hne hlast
    -- The word itself is a text, sent as one number.
    have hmem : w ∈ wordSet numOf := (h.mem w).mpr (List.mem_of_getElem? hlast.1)
    obtain ⟨hser, hdec⟩ := (h.lossless_iff hlen).mpr ⟨[w], tokenises_word hne hmem, rfl⟩
    have hread := hagree w _ hser hdec
    rw [List.map_singleton, decoded_cons, decoded_nil, List.append_nil,
      h.wordAt_lastLine h' hlen hlast] at hread
    cases hline : lines'[i]? with
    | none =>
        rw [hline] at hread
        exact absurd hread.symm hne
    | some v =>
        rw [hline] at hread
        exact congrArg some hread
  · intro hsame text seq hser hdec
    obtain ⟨ws, ht, rfl⟩ := (h.lossless_iff hlen).mp ⟨hser, hdec⟩
    have hwords : ∀ w ∈ ws, wordAt wordOf' (charToInt (codeOf numOf w)) = w := by
      intro w hw
      obtain ⟨k, hk⟩ := Option.isSome_iff_exists.mp (ht.mem w hw)
      obtain ⟨-, hlast⟩ := h.lookup_iff_lastLine.mp hk
      rw [h.wordAt_lastLine h' hlen hlast, hsame w _ (ht.ne_nil w hw) hlast,
        Option.getD_some]
    rw [Citbrains.decoded_codes hwords, ← ht.flatten, List.append_nil]

end Loaded

namespace SerializeStringByDict

/-- The second robot reads every command the first one can itself read back. -/
def CommandsReadBy (d d' : SerializeStringByDict) : Prop :=
  ∀ text seq, d.commandToNumSequence text = some seq →
    (d.numSequenceToCommand seq).1 = text → (d'.numSequenceToCommand seq).1 = text

@[inherit_doc CommandsReadBy]
def BehaviorNamesReadBy (d d' : SerializeStringByDict) : Prop :=
  ∀ text seq, d.behaviorNameToNumSequence text = some seq →
    (d.numSequenceToBehaviorName seq).1 = text →
    (d'.numSequenceToBehaviorName seq).1 = text

end SerializeStringByDict

/-- Two pairs of files, whoever wrote them. -/
theorem readBy_iff {f f' : DictFiles} {d d' : SerializeStringByDict}
    (hnew : SerializeStringByDict.new f.command f.behavior = some d)
    (hnew' : SerializeStringByDict.new f'.command f'.behavior = some d') :
    ((getlines f.command).length ≤ 127 →
      (d.CommandsReadBy d' ↔ SameNumbers (getlines f.command) (getlines f'.command))) ∧
    ((getlines f.behavior).length ≤ 127 →
      (d.BehaviorNamesReadBy d' ↔
        SameNumbers (getlines f.behavior) (getlines f'.behavior))) := by
  obtain ⟨hc, hb⟩ := SerializeStringByDict.new_loaded hnew
  obtain ⟨hc', hb'⟩ := SerializeStringByDict.new_loaded hnew'
  refine ⟨?_, ?_⟩
  · intro hlen
    rw [← hc.agrees_iff hc' hlen]
    simp only [SerializeStringByDict.CommandsReadBy,
      SerializeStringByDict.commandToNumSequence,
      SerializeStringByDict.numSequenceToCommand, numSequenceTo_spec]
  · intro hlen
    rw [← hb.agrees_iff hb' hlen]
    simp only [SerializeStringByDict.BehaviorNamesReadBy,
      SerializeStringByDict.behaviorNameToNumSequence,
      SerializeStringByDict.numSequenceToBehaviorName, numSequenceTo_spec]

/-! ## What the generator writes -/

/-- A run of the script: each order is one of the set that was collected, and
the files hold the words in it. -/
theorem main_cases {behaviorOrder commandOrder : List Bytes} {src : Sources}
    {f : DictFiles} (h : main behaviorOrder commandOrder src = some f) :
    ∃ behaviorNames commandNames : Finset Bytes,
      ParseHtn.parseFiles [src.commonNetwork, src.rootNetwork] = some behaviorNames ∧
      ParseHtn.parseFiles [src.goal, src.role, src.tactics] = some commandNames ∧
      (behaviorOrder : Multiset Bytes) = behaviorNames.val ∧
      (commandOrder : Multiset Bytes) = commandNames.val ∧
      f.command = writeWords commandOrder ∧ f.behavior = writeWords behaviorOrder := by
  simp only [main, ParseHtn.iterate, Option.bind_eq_bind, Option.bind_eq_some_iff,
    Option.ite_none_right_eq_some, Option.some.injEq] at h
  obtain ⟨b, hb, _, ⟨hbo, rfl⟩, c, hc, _, ⟨hco, rfl⟩, rfl⟩ := h
  exact ⟨b, c, hb, hc, hbo, hco, rfl, rfl⟩

/-- Two processes that run the script on the same sources: the second robot
reads what the first one sends exactly when each word the first has a number
for stands, in the second process's iteration order, on the line of that
number. -/
theorem robots_agree_iff {src : Sources}
    {behaviorOrder commandOrder behaviorOrder' commandOrder' : List Bytes}
    {f f' : DictFiles} (hrun : main behaviorOrder commandOrder src = some f)
    (hrun' : main behaviorOrder' commandOrder' src = some f')
    {d d' : SerializeStringByDict}
    (hnew : SerializeStringByDict.new f.command f.behavior = some d)
    (hnew' : SerializeStringByDict.new f'.command f'.behavior = some d') :
    ((getlines f.command).length ≤ 127 → (d.CommandsReadBy d' ↔
      SameNumbers (getlines (writeWords commandOrder))
        (getlines (writeWords commandOrder')))) ∧
    ((getlines f.behavior).length ≤ 127 → (d.BehaviorNamesReadBy d' ↔
      SameNumbers (getlines (writeWords behaviorOrder))
        (getlines (writeWords behaviorOrder')))) := by
  obtain ⟨-, -, -, -, -, -, hcommand, hbehavior⟩ := main_cases hrun
  obtain ⟨-, -, -, -, -, -, hcommand', hbehavior'⟩ := main_cases hrun'
  rw [← hcommand, ← hcommand', ← hbehavior, ← hbehavior']
  exact readBy_iff hnew hnew'

/-- Strategy sources with two goals and two behaviours. -/
def sampleSources : Sources where
  commonNetwork := ascii "class Ready(Task):\n    pass\n"
  rootNetwork := ascii "class Root(Task):\n"
  goal := ascii "class Attacker(Goal):\n"
  role := ascii "class Keeper(Role):\n"
  tactics := []

/-- Two runs on the same sources, the second with the commands the other way
round: what the first robot sends as `Attacker` the second reads as `Keeper`. -/
theorem robots_disagree :
    ∃ f f' d d',
      main [ascii "Ready", ascii "Root"] [ascii "Attacker", ascii "Keeper"]
        sampleSources = some f ∧
      main [ascii "Ready", ascii "Root"] [ascii "Keeper", ascii "Attacker"]
        sampleSources = some f' ∧
      SerializeStringByDict.new f.command f.behavior = some d ∧
      SerializeStringByDict.new f'.command f'.behavior = some d' ∧
      d.commandToNumSequence (ascii "Attacker") = some [1] ∧
      (d.numSequenceToCommand [1]).1 = ascii "Attacker" ∧
      (d'.numSequenceToCommand [1]).1 = ascii "Keeper" := by
  refine ⟨⟨ascii "Attacker\nKeeper\n", ascii "Ready\nRoot\n"⟩,
    ⟨ascii "Keeper\nAttacker\n", ascii "Ready\nRoot\n"⟩, _, _,
    by decide +kernel, by decide +kernel, rfl, rfl, by decide +kernel,
    by decide +kernel, by decide +kernel⟩

/-- With the commands in one order the robots agree on them, however the
behaviours came out. -/
theorem robots_agree_sameCommands :
    ∃ f f' d d',
      main [ascii "Ready", ascii "Root"] [ascii "Attacker", ascii "Keeper"]
        sampleSources = some f ∧
      main [ascii "Root", ascii "Ready"] [ascii "Attacker", ascii "Keeper"]
        sampleSources = some f' ∧
      SerializeStringByDict.new f.command f.behavior = some d ∧
      SerializeStringByDict.new f'.command f'.behavior = some d' ∧
      d.CommandsReadBy d' := by
  have hrun : main [ascii "Ready", ascii "Root"] [ascii "Attacker", ascii "Keeper"]
      sampleSources =
        some ⟨ascii "Attacker\nKeeper\n", ascii "Ready\nRoot\n"⟩ := by
    decide +kernel
  have hrun' : main [ascii "Root", ascii "Ready"] [ascii "Attacker", ascii "Keeper"]
      sampleSources =
        some ⟨ascii "Attacker\nKeeper\n", ascii "Root\nReady\n"⟩ := by
    decide +kernel
  obtain ⟨d, hd⟩ : ∃ d, SerializeStringByDict.new (ascii "Attacker\nKeeper\n")
    (ascii "Ready\nRoot\n") = some d := ⟨_, rfl⟩
  obtain ⟨d', hd'⟩ : ∃ d', SerializeStringByDict.new (ascii "Attacker\nKeeper\n")
    (ascii "Root\nReady\n") = some d' := ⟨_, rfl⟩
  refine ⟨_, _, d, d', hrun, hrun', hd, hd',
    ((robots_agree_iff hrun hrun' hd hd').1 (by decide +kernel)).mpr ?_⟩
  intro w i _ hlast
  exact hlast.1

/-! ## Words without a line end -/

theorem getlines_append_newline (w rest : Bytes) (hw : 10 ∉ w) :
    getlines (w ++ 10 :: rest) = w :: getlines rest := by
  induction w with
  | nil => simp [getlines]
  | cons c w ih =>
      rw [List.mem_cons, not_or] at hw
      rw [List.cons_append, getlines, if_neg (Ne.symm hw.1), ih hw.2]

theorem getlines_writeWords {words : List Bytes} (h : ∀ w ∈ words, 10 ∉ w) :
    getlines (writeWords words) = words := by
  induction words with
  | nil => rfl
  | cons w words ih =>
      have hcons : writeWords (w :: words) = w ++ 10 :: writeWords words := by
        simp [writeWords]
      rw [hcons, getlines_append_newline w _ (h w List.mem_cons_self),
        ih fun v hv => h v (List.mem_cons_of_mem w hv)]

theorem lastLine_of_nodup {lines : List Bytes} (h : lines.Nodup) {w : Bytes} {i : Nat}
    (hget : lines[i]? = some w) : LastLine lines w i := by
  refine ⟨hget, fun j hj => ?_⟩
  obtain ⟨hi, hget⟩ := List.getElem?_eq_some_iff.mp hget
  obtain ⟨hj, hget'⟩ := List.getElem?_eq_some_iff.mp hj
  exact Nat.le_of_eq ((h.getElem_inj_iff).mp (hget'.trans hget.symm))

/-- For two orders of one set the words have the same numbers only if the
orders are the same. -/
theorem sameNumbers_iff_eq {order order' : List Bytes} (hnodup : order.Nodup)
    (hperm : order.Perm order') : SameNumbers order order' ↔ order = order' := by
  refine ⟨?_, ?_⟩
  · intro hsame
    have hlen := hperm.length_eq
    have hnodup' := hperm.nodup_iff.mp hnodup
    apply List.ext_getElem hlen
    intro i hi hi'
    have hget : order[i]? = some order[i] := List.getElem?_eq_getElem hi
    by_cases hblank : order[i] = []
    · -- The other word on this line would have to be on it here as well.
      by_contra hne
      have hne' : order'[i] ≠ [] := fun h => hne (hblank.trans h.symm)
      obtain ⟨j, hj, hjget⟩ := List.getElem_of_mem
        (hperm.mem_iff.mpr (List.getElem_mem hi'))
      have hj' := hsame order'[i] j hne' (lastLine_of_nodup hnodup
        (List.getElem?_eq_some_iff.mpr ⟨hj, hjget⟩))
      obtain ⟨hjlt, hjget'⟩ := List.getElem?_eq_some_iff.mp hj'
      obtain rfl : j = i := (hnodup'.getElem_inj_iff).mp hjget'
      exact hne hjget
    · have hother := hsame order[i] i hblank (lastLine_of_nodup hnodup hget)
      exact (List.getElem?_eq_some_iff.mp hother).2.symm
  · intro heq w i _ hlast
    rw [← heq]
    exact hlast.1

/-- Where no name keeps a line end, the robots agree on the commands exactly
when both processes iterated over the commands in one order, and likewise for
the behaviours. -/
theorem robots_agree_iff_sameOrder {src : Sources}
    {behaviorOrder commandOrder behaviorOrder' commandOrder' : List Bytes}
    {f f' : DictFiles} (hrun : main behaviorOrder commandOrder src = some f)
    (hrun' : main behaviorOrder' commandOrder' src = some f')
    (hclean : ∀ w ∈ behaviorOrder ++ commandOrder, 10 ∉ w)
    {d d' : SerializeStringByDict}
    (hnew : SerializeStringByDict.new f.command f.behavior = some d)
    (hnew' : SerializeStringByDict.new f'.command f'.behavior = some d') :
    (commandOrder.length ≤ 127 →
      (d.CommandsReadBy d' ↔ commandOrder = commandOrder')) ∧
    (behaviorOrder.length ≤ 127 →
      (d.BehaviorNamesReadBy d' ↔ behaviorOrder = behaviorOrder')) := by
  obtain ⟨b, c, hb, hc, hbo, hco, hcommand, hbehavior⟩ := main_cases hrun
  obtain ⟨b', c', hb', hc', hbo', hco', hcommand', hbehavior'⟩ := main_cases hrun'
  obtain rfl : b = b' := Option.some.inj (hb.symm.trans hb')
  obtain rfl : c = c' := Option.some.inj (hc.symm.trans hc')
  have hpermc : commandOrder.Perm commandOrder' :=
    Multiset.coe_eq_coe.mp (hco.trans hco'.symm)
  have hpermb : behaviorOrder.Perm behaviorOrder' :=
    Multiset.coe_eq_coe.mp (hbo.trans hbo'.symm)
  have hnodupc : commandOrder.Nodup := Multiset.coe_nodup.mp (hco ▸ c.nodup)
  have hnodupb : behaviorOrder.Nodup := Multiset.coe_nodup.mp (hbo ▸ b.nodup)
  have hcleanc : ∀ w ∈ commandOrder, 10 ∉ w := fun w hw =>
    hclean w (List.mem_append_right _ hw)
  have hcleanb : ∀ w ∈ behaviorOrder, 10 ∉ w := fun w hw =>
    hclean w (List.mem_append_left _ hw)
  have hlines := readBy_iff hnew hnew'
  rw [hcommand, hcommand', hbehavior, hbehavior', getlines_writeWords hcleanc,
    getlines_writeWords hcleanb,
    getlines_writeWords fun w hw => hcleanc w (hpermc.mem_iff.mpr hw),
    getlines_writeWords fun w hw => hcleanb w (hpermb.mem_iff.mpr hw),
    sameNumbers_iff_eq hnodupc hpermc, sameNumbers_iff_eq hnodupb hpermb] at hlines
  exact hlines

end Playspace.Citbrains
