import Playspace.Citbrains.Class
import Playspace.Lib.Machine
import Playspace.Proofs.RoundTrip

/-!
# A dictionary over its whole life

Decoding reads the number maps through `operator[]`, so every byte a peer sends
that stands for no line leaves an entry behind, and a duplicate line leaves the
two directions of the loaded maps out of step from the start. `Grown` is what
such a map looks like: the lines as they were loaded, and besides them nothing
but empty words under numbers a `char` can have. Both parts matter. The first
keeps the codes meaning what they meant, the second keeps the map from growing
with the traffic.

`codec_kept` says it for every sequence of calls. An encoding that never
returns ends the sequence.
-/

namespace Playspace.Citbrains

/-- The word on the line of number `k`, empty where there is no such line. -/
def lineWord (lines : List Bytes) (k : Int) : Bytes :=
  if 1 ≤ k ∧ k ≤ lines.length then lines.getD (k - 1).toNat [] else []

/-- The number map of the lines after any decoding. -/
structure Grown (lines : List Bytes) (m : WordOf) : Prop where
  loaded : ∀ k : Int, 1 ≤ k → k ≤ lines.length → m.lookup k = lines[(k - 1).toNat]?
  inserted : ∀ (k : Int) (w : Bytes), m.lookup k = some w →
    (1 ≤ k ∧ k ≤ lines.length) ∨ (w = [] ∧ -128 ≤ k ∧ k < 128)

section Grown

variable {lines : List Bytes} {m : WordOf}

theorem Loaded.grown {wordOf : WordOf} {numOf : NumOf}
    (h : Loaded lines (wordOf, numOf)) : Grown lines wordOf := by
  refine ⟨?_, ?_⟩
  · intro k hpos _
    rw [h.word, if_pos hpos]
  · intro k w hk
    left
    rw [h.word] at hk
    split at hk
    · next hpos =>
        have hlt := (List.getElem?_eq_some_iff.mp hk).1
        omega
    · cases hk

theorem Grown.wordAt (h : Grown lines m) (k : Int) : wordAt m k = lineWord lines k := by
  unfold Citbrains.wordAt lineWord
  split
  · next hk => rw [h.loaded k hk.1 hk.2, List.getD_eq_getElem?_getD]
  · next hk =>
      cases hget : m.lookup k with
      | none => rfl
      | some w =>
          rcases h.inserted k w hget with hline | ⟨rfl, -⟩
          · exact absurd hline hk
          · rfl

/-- `operator[]` with a `char` for its key. -/
theorem Grown.subscript (h : Grown lines m) {num : Int}
    (hnum : -128 ≤ num ∧ num < 128) : Grown lines (subscript m num).2 := by
  unfold Citbrains.subscript
  cases hget : m.lookup num with
  | some w => exact h
  | none =>
      refine ⟨?_, ?_⟩
      · intro k hpos hle
        have hne : k ≠ num := by
          rintro rfl
          rw [h.loaded k hpos hle, List.getElem?_eq_none_iff] at hget
          omega
        rw [AList.lookup_insert_ne hne]
        exact h.loaded k hpos hle
      · intro k w hk
        by_cases heq : k = num
        · subst heq
          rw [AList.lookup_insert, Option.some.injEq] at hk
          exact Or.inr ⟨hk.symm, hnum⟩
        · rw [AList.lookup_insert_ne heq] at hk
          exact h.inserted k w hk

theorem Grown.numSequenceTo (seq : Bytes) (h : Grown lines m) :
    Grown lines (numSequenceTo m seq).2 := by
  induction seq generalizing m with
  | nil => exact h
  | cons c seq ih => exact ih (h.subscript (charToInt_range c))

/-- Besides the lines there is room for the 256 values of a `char`. -/
theorem Grown.length_le (h : Grown lines m) :
    m.entries.length ≤ lines.length + 256 := by
  have hkeys : m.keys.toFinset ⊆
      Finset.Icc 1 (lines.length : Int) ∪ Finset.Icc (-128) 127 := by
    intro k hk
    rw [List.mem_toFinset, ← AList.mem_keys, ← AList.lookup_isSome,
      Option.isSome_iff_exists] at hk
    obtain ⟨w, hw⟩ := hk
    rw [Finset.mem_union, Finset.mem_Icc, Finset.mem_Icc]
    rcases h.inserted k w hw with hline | ⟨-, hchar⟩
    · exact Or.inl hline
    · exact Or.inr ⟨hchar.1, by omega⟩
  calc m.entries.length = m.keys.length := (List.length_map _).symm
    _ = m.keys.toFinset.card := (List.toFinset_card_of_nodup m.nodupKeys).symm
    _ ≤ (Finset.Icc 1 (lines.length : Int) ∪ Finset.Icc (-128) 127).card :=
      Finset.card_le_card hkeys
    _ ≤ (Finset.Icc 1 (lines.length : Int)).card + (Finset.Icc (-128 : Int) 127).card :=
      Finset.card_union_le _ _
    _ = lines.length + 256 := by
      rw [Int.card_Icc, Int.card_Icc]
      omega

end Grown

/-! ## Calls -/

/-- A call of one of the four member functions. -/
inductive DictCall where
  | commandToNumSequence (command : Bytes)
  | behaviorNameToNumSequence (behaviorName : Bytes)
  | numSequenceToCommand (seq : Bytes)
  | numSequenceToBehaviorName (seq : Bytes)

namespace SerializeStringByDict

/-- The object after a call. -/
def call (d : SerializeStringByDict) : DictCall → Except Stop SerializeStringByDict
  | .commandToNumSequence command =>
      match d.commandToNumSequence command with
      | none => .error .diverges
      | some _ => .ok d
  | .behaviorNameToNumSequence behaviorName =>
      match d.behaviorNameToNumSequence behaviorName with
      | none => .error .diverges
      | some _ => .ok d
  | .numSequenceToCommand seq => .ok (d.numSequenceToCommand seq).2
  | .numSequenceToBehaviorName seq => .ok (d.numSequenceToBehaviorName seq).2

/-- What a call can do to the object: make the number maps grow. -/
structure GrownFrom (commandLines behaviorLines : List Bytes)
    (d d' : SerializeStringByDict) : Prop where
  numToCommand : Grown commandLines d'.numToCommand
  numToBehaviorName : Grown behaviorLines d'.numToBehaviorName
  commandToNum : d'.commandToNum = d.commandToNum
  behaviorNameToNum : d'.behaviorNameToNum = d.behaviorNameToNum

theorem GrownFrom.call {commandLines behaviorLines : List Bytes}
    {d d₁ d₂ : SerializeStringByDict}
    (h : GrownFrom commandLines behaviorLines d d₁) {c : DictCall}
    (hcall : d₁.call c = .ok d₂) : GrownFrom commandLines behaviorLines d d₂ := by
  cases c with
  | commandToNumSequence command =>
      simp only [SerializeStringByDict.call] at hcall
      split at hcall
      · cases hcall
      · cases hcall
        exact h
  | behaviorNameToNumSequence behaviorName =>
      simp only [SerializeStringByDict.call] at hcall
      split at hcall
      · cases hcall
      · cases hcall
        exact h
  | numSequenceToCommand seq =>
      cases hcall
      exact ⟨h.numToCommand.numSequenceTo seq, h.numToBehaviorName, h.commandToNum,
        h.behaviorNameToNum⟩
  | numSequenceToBehaviorName seq =>
      cases hcall
      exact ⟨h.numToCommand, h.numToBehaviorName.numSequenceTo seq, h.commandToNum,
        h.behaviorNameToNum⟩

end SerializeStringByDict

/-- One direction and the other of a codec agree, the lines keep their numbers,
a decoding is the words of the lines, and the number map is bounded. -/
structure CodecKept (lines : List Bytes) (wordOf : WordOf) (numOf : NumOf)
    (decode : Bytes → Bytes) : Prop where
  words : ∀ w, (numOf.lookup w).isSome ↔ w ∈ lines
  inverse : ∀ w k, numOf.lookup w = some k → wordOf.lookup k = some w
  line : ∀ (i : Nat) w, lines[i]? = some w → wordOf.lookup ((i : Int) + 1) = some w
  decode : ∀ seq, decode seq = (seq.map fun c => lineWord lines (charToInt c)).flatten
  bounded : wordOf.entries.length ≤ lines.length + 256

theorem Grown.codecKept {lines : List Bytes} {m wordOf : WordOf} {numOf : NumOf}
    (h : Grown lines m) (hloaded : Loaded lines (wordOf, numOf)) :
    CodecKept lines m numOf (fun seq => (Citbrains.numSequenceTo m seq).1) := by
  have hline (i : Nat) (w : Bytes) (hget : lines[i]? = some w) :
      m.lookup ((i : Int) + 1) = some w := by
    have hlt := (List.getElem?_eq_some_iff.mp hget).1
    rw [h.loaded _ (by omega) (by omega), Int.add_sub_cancel, Int.toNat_natCast]
    exact hget
  refine ⟨hloaded.mem, ?_, hline, ?_, h.length_le⟩
  · intro w k hk
    obtain ⟨hpos, hget⟩ := hloaded.num w k hk
    have hback := hline _ w hget
    rwa [show (((k - 1).toNat : Nat) : Int) + 1 = k by omega] at hback
  · intro seq
    rw [(numSequenceTo_spec seq m).1, decoded]
    simp only [h.wordAt]

/-- In every state a constructed dictionary gets into, both of its codecs are
as they were loaded. -/
theorem codec_kept {commandFile behaviorFile : Bytes} {d d' : SerializeStringByDict}
    (hnew : SerializeStringByDict.new commandFile behaviorFile = some d)
    {calls : List DictCall}
    (hrun : Lib.runs SerializeStringByDict.call d calls = .ok d') :
    CodecKept (getlines commandFile) d'.numToCommand d'.commandToNum
      (fun seq => (d'.numSequenceToCommand seq).1) ∧
    CodecKept (getlines behaviorFile) d'.numToBehaviorName d'.behaviorNameToNum
      (fun seq => (d'.numSequenceToBehaviorName seq).1) := by
  obtain ⟨hc, hb⟩ := SerializeStringByDict.new_loaded hnew
  have hend : d.GrownFrom (getlines commandFile) (getlines behaviorFile) d' := by
    have hstep : ∀ d₁ c d₂, d.GrownFrom (getlines commandFile) (getlines behaviorFile) d₁ →
        d₁.call c = .ok d₂ →
        d.GrownFrom (getlines commandFile) (getlines behaviorFile) d₂ :=
      fun _ _ _ h hcall => h.call hcall
    exact Lib.runs_invariant hstep ⟨hc.grown, hb.grown, rfl, rfl⟩ hrun
  rw [hend.commandToNum, hend.behaviorNameToNum]
  exact ⟨hend.numToCommand.codecKept hc, hend.numToBehaviorName.codecKept hb⟩

/-- A file with a word twice, and a peer that sends codes no line has. -/
theorem codec_kept_twice :
    ∃ d d', SerializeStringByDict.new (ascii "Root\nSet\nRoot\n") (ascii "Ready") =
        some d ∧
      Lib.runs SerializeStringByDict.call d
        [.numSequenceToCommand [1, 200, 9, 0], .commandToNumSequence (ascii "SetRoot"),
          .numSequenceToBehaviorName [7]] = .ok d' ∧
      d'.commandToNum.lookup (ascii "Root") = some 3 ∧
      d'.numToCommand.lookup 3 = some (ascii "Root") ∧
      d'.numToCommand.lookup 1 = some (ascii "Root") ∧
      d'.numToCommand.entries.length ≤ 3 + 256 := by
  have hlines : getlines (ascii "Root\nSet\nRoot\n") =
      [ascii "Root", ascii "Set", ascii "Root"] := by decide +kernel
  have hcalls : ((SerializeStringByDict.new (ascii "Root\nSet\nRoot\n")
      (ascii "Ready")).bind fun d => (Lib.runs SerializeStringByDict.call d
        [.numSequenceToCommand [1, 200, 9, 0], .commandToNumSequence (ascii "SetRoot"),
          .numSequenceToBehaviorName [7]]).toOption.map
      fun d' => d'.commandToNum.lookup (ascii "Root")) = some (some 3) := by decide +kernel
  rw [Option.bind_eq_some_iff] at hcalls
  obtain ⟨d, hd, hcalls⟩ := hcalls
  cases hrun : Lib.runs SerializeStringByDict.call d
      [.numSequenceToCommand [1, 200, 9, 0], .commandToNumSequence (ascii "SetRoot"),
        .numSequenceToBehaviorName [7]] with
  | error f =>
      rw [hrun] at hcalls
      cases hcalls
  | ok d' =>
      rw [hrun] at hcalls
      have hroot := Option.some.inj hcalls
      have hkept := (codec_kept hd hrun).1
      rw [hlines] at hkept
      exact ⟨d, d', hd, hrun, hroot, hkept.inverse _ _ hroot, hkept.line 0 _ rfl,
        hkept.bounded⟩

end Playspace.Citbrains
