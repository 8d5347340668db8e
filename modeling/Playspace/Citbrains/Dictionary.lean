import Playspace.Citbrains.Cpp
import Mathlib.Data.List.AList

/-!
# `SerializeStringByDict`: words to one-byte codes and back

The class loads two word lists, one word per line, and numbers the lines from
1. Encoding walks the text once to its end, remembering the last dictionary
hit, emits that word's number, rewinds to the word's end and starts over;
decoding concatenates the words of the received bytes. The four maps are
`unordered_map`s, so decoding through `operator[]` leaves an empty entry
behind for every number it does not know.

The encoder's loop is modelled one body at a time (`serializeStep`) under a
fuel that `serializeTextImpl` sets high enough for every run that ends: a run
that has not ended by then never does, and the model answers `none`.
-/

namespace Playspace.Citbrains

/-- `std::unordered_map<int32_t, std::string>`. -/
abbrev WordOf := AList fun _ : Int => Bytes

/-- `std::unordered_map<std::string, int32_t>`. -/
abbrev NumOf := AList fun _ : Bytes => Int

/-- `std::getline` until it fails: the newline is dropped, and a last line
without one still counts. -/
def getlines : Bytes → List Bytes
  | [] => []
  | c :: rest =>
      if c = 10 then [] :: getlines rest
      else
        match getlines rest with
        | [] => [[c]]
        | line :: lines => (c :: line) :: lines

structure SerializeStringByDict where
  numToCommand : WordOf
  numToBehaviorName : WordOf
  commandToNum : NumOf
  behaviorNameToNum : NumOf

/-- One of the constructor's two reading loops: `to_num[s] = cnt`,
`num_to[cnt] = s`, `++cnt` for each line. -/
def loadLines : List Bytes → Int → WordOf × NumOf → WordOf × NumOf
  | [], _, maps => maps
  | s :: lines, cnt, (wordOf, numOf) =>
      loadLines lines (cnt + 1) (wordOf.insert cnt s, numOf.insert s cnt)

/-- A dictionary file's two maps, numbered from 1. -/
def loadDict (file : Bytes) : WordOf × NumOf :=
  loadLines (getlines file) 1 (∅, ∅)

/-- The constructor, on the contents of the two files (a file that cannot be
opened reads as an empty one). An empty dictionary throws a string that ends
in `std::terminate`: no object comes out. -/
def SerializeStringByDict.new (commandFile behaviorFile : Bytes) :
    Option SerializeStringByDict :=
  let (numToCommand, commandToNum) := loadDict commandFile
  let (numToBehaviorName, behaviorNameToNum) := loadDict behaviorFile
  if commandToNum.entries = [] then none
  else if behaviorNameToNum.entries = [] then none
  else some { numToCommand, numToBehaviorName, commandToNum, behaviorNameToNum }

/-! ## Encoding -/

/-- The encoder's locals. Iterators are positions from `text.begin()`. -/
structure EncState where
  itr : Nat
  subString : Bytes
  foundWord : Bytes
  wordEndPos : Nat
  returnSeq : Bytes

/-- What one pass of the loop body leads to: the next pass, or the function's
return (by `break`, by the loop condition or through the `catch`). -/
inductive EncStep where
  | next (st : EncState)
  | done (seq : Bytes)

/-- One pass of the `for` loop: condition, body, `++itr`. -/
def serializeStep (text : Bytes) (dictionary : NumOf) (st : EncState) : EncStep :=
  match text[st.itr]? with
  | none => .done st.returnSeq
  | some c =>
      let subString := st.subString ++ [c]
      let hit := (dictionary.lookup subString).isSome
      let wordEndPos := if hit then st.itr else st.wordEndPos
      let foundWord := if hit then subString else st.foundWord
      if st.itr = text.length - 1 then
        match dictionary.lookup foundWord with
        | none => .done st.returnSeq -- `dictionary.at` throws
        | some num =>
            let returnSeq := st.returnSeq ++ [intToChar num]
            if wordEndPos = text.length - 1 then .done returnSeq
            else .next ⟨wordEndPos + 1, [], [], wordEndPos, returnSeq⟩
      else .next ⟨st.itr + 1, subString, foundWord, wordEndPos, st.returnSeq⟩

def serializeLoop (text : Bytes) (dictionary : NumOf) :
    Nat → EncState → Option Bytes
  | 0, _ => none
  | fuel + 1, st =>
      match serializeStep text dictionary st with
      | .done seq => some seq
      | .next st' => serializeLoop text dictionary fuel st'

/-- Passes that cover every run that ends: at most one scan of the text for
each emitted code, at most one code for each character, and one more. -/
def encFuel (text : Bytes) : Nat := (text.length + 1) * (text.length + 1)

/-- `none` is a run that never leaves the loop. -/
def serializeTextImpl (text : Bytes) (dictionary : NumOf) : Option Bytes :=
  serializeLoop text dictionary (encFuel text) ⟨0, [], [], 0, []⟩

namespace SerializeStringByDict

def commandToNumSequence (d : SerializeStringByDict) (command : Bytes) :
    Option Bytes :=
  serializeTextImpl command d.commandToNum

def behaviorNameToNumSequence (d : SerializeStringByDict)
    (behaviorName : Bytes) : Option Bytes :=
  serializeTextImpl behaviorName d.behaviorNameToNum

end SerializeStringByDict

/-! ## Decoding -/

/-- `map[num]`: the entry, created empty when there is none. -/
def subscript (m : WordOf) (num : Int) : Bytes × WordOf :=
  match m.lookup num with
  | some w => (w, m)
  | none => ([], m.insert num [])

/-- The loop both decoders run: `return_str += map[num]` for each byte. -/
def numSequenceTo (m : WordOf) : Bytes → Bytes × WordOf
  | [] => ([], m)
  | num :: seq =>
      let (w, m₁) := subscript m (charToInt num)
      let (rest, m₂) := numSequenceTo m₁ seq
      (w ++ rest, m₂)

namespace SerializeStringByDict

def numSequenceToCommand (d : SerializeStringByDict) (seq : Bytes) :
    Bytes × SerializeStringByDict :=
  let (text, m) := numSequenceTo d.numToCommand seq
  (text, { d with numToCommand := m })

def numSequenceToBehaviorName (d : SerializeStringByDict) (seq : Bytes) :
    Bytes × SerializeStringByDict :=
  let (text, m) := numSequenceTo d.numToBehaviorName seq
  (text, { d with numToBehaviorName := m })

end SerializeStringByDict

/-! ## What the maps hold

`wordAt` is the meaning of a number map: the word a number stands for, empty
for a number that stands for none. Loading fixes it and decoding, although it
writes to the map, never changes it. -/

/-- The word `map[num]` evaluates to. -/
def wordAt (m : WordOf) (num : Int) : Bytes := (m.lookup num).getD []

@[simp] theorem subscript_fst (m : WordOf) (num : Int) :
    (subscript m num).1 = wordAt m num := by
  unfold subscript wordAt
  cases m.lookup num <;> rfl

@[simp] theorem wordAt_subscript (m : WordOf) (num k : Int) :
    wordAt (subscript m num).2 k = wordAt m k := by
  unfold subscript
  cases h : m.lookup num with
  | some w => rfl
  | none =>
      by_cases hk : k = num
      · subst hk
        simp [wordAt, AList.lookup_insert, h]
      · simp [wordAt, AList.lookup_insert_ne hk]

/-- The text a byte sequence decodes to. -/
def decoded (m : WordOf) (seq : Bytes) : Bytes :=
  (seq.map fun c => wordAt m (charToInt c)).flatten

@[simp] theorem decoded_nil (m : WordOf) : decoded m [] = [] := rfl

theorem decoded_cons (m : WordOf) (c : UInt8) (seq : Bytes) :
    decoded m (c :: seq) = wordAt m (charToInt c) ++ decoded m seq := rfl

theorem decoded_congr {m m' : WordOf} (h : ∀ k, wordAt m k = wordAt m' k)
    (seq : Bytes) : decoded m seq = decoded m' seq := by
  simp [decoded, h]

/-- Decoding returns `decoded` and leaves every number's word as it was. -/
theorem numSequenceTo_spec : ∀ (seq : Bytes) (m : WordOf),
    (numSequenceTo m seq).1 = decoded m seq ∧
      ∀ k, wordAt (numSequenceTo m seq).2 k = wordAt m k := by
  intro seq
  induction seq with
  | nil => intro m; exact ⟨rfl, fun _ => rfl⟩
  | cons c seq ih =>
      intro m
      obtain ⟨h1, h2⟩ := ih (subscript m (charToInt c)).2
      simp only [numSequenceTo]
      refine ⟨?_, fun k => ?_⟩
      · rw [h1, decoded_cons, subscript_fst,
          decoded_congr (wordAt_subscript m (charToInt c))]
      · rw [h2, wordAt_subscript]

/-- What loading leaves behind: the numbers from 1 stand for the lines, and
every line's word has a number that stands for it, that of the last line with
the word. -/
structure Loaded (lines : List Bytes) (maps : WordOf × NumOf) : Prop where
  word : ∀ k : Int, maps.1.lookup k =
    if 1 ≤ k then lines[(k - 1).toNat]? else none
  num : ∀ w k, maps.2.lookup w = some k →
    1 ≤ k ∧ lines[(k - 1).toNat]? = some w
  last : ∀ w k, maps.2.lookup w = some k →
    ∀ i, lines[i]? = some w → i ≤ (k - 1).toNat
  mem : ∀ w, (maps.2.lookup w).isSome ↔ w ∈ lines

theorem Loaded.empty : Loaded [] (∅, ∅) where
  word k := by simp
  num w k h := by simp at h
  last w k h := by simp at h
  mem w := by simp

/-- A number in the map after one more line is the line's own, or an older one of
another word. -/
theorem lookup_insert_eq_some {numOf : NumOf} {s w : Bytes} {n k : Int}
    (h : (numOf.insert s n).lookup w = some k) :
    (w = s ∧ k = n) ∨ (w ≠ s ∧ numOf.lookup w = some k) := by
  by_cases hw : w = s
  · subst hw
    rw [AList.lookup_insert] at h
    exact Or.inl ⟨rfl, (Option.some.inj h).symm⟩
  · rw [AList.lookup_insert_ne hw] at h
    exact Or.inr ⟨hw, h⟩

theorem Loaded.snoc {lines : List Bytes} {wordOf : WordOf} {numOf : NumOf}
    (h : Loaded lines (wordOf, numOf)) (s : Bytes) :
    Loaded (lines ++ [s]) (wordOf.insert (lines.length + 1) s,
      numOf.insert s (lines.length + 1)) where
  word k := by
    simp only
    by_cases hk : k = lines.length + 1
    · subst hk
      rw [AList.lookup_insert, if_pos (by omega)]
      simp
    · rw [AList.lookup_insert_ne hk, h.word]
      split
      · by_cases hlt : (k - 1).toNat < lines.length
        · rw [List.getElem?_append_left hlt]
        · rw [List.getElem?_eq_none (by omega),
            List.getElem?_eq_none (by simp; omega)]
      · rfl
  num w k hk := by
    rcases lookup_insert_eq_some hk with ⟨rfl, rfl⟩ | ⟨-, hk⟩
    · exact ⟨by omega, by simp⟩
    · obtain ⟨h1, h2⟩ := h.num w k hk
      have hlt := (List.getElem?_eq_some_iff.mp h2).1
      exact ⟨h1, by rw [List.getElem?_append_left hlt]; exact h2⟩
  last w k hk i hi := by
    rcases lookup_insert_eq_some hk with ⟨rfl, rfl⟩ | ⟨hw, hk⟩
    · have hlt := (List.getElem?_eq_some_iff.mp hi).1
      rw [List.length_append, List.length_singleton] at hlt
      omega
    · by_cases hlt : i < lines.length
      · rw [List.getElem?_append_left hlt] at hi
        exact h.last w k hk i hi
      · rw [List.getElem?_append_right (by omega), List.getElem?_singleton] at hi
        split at hi
        · exact absurd (Option.some.inj hi).symm hw
        · cases hi
  mem w := by
    simp only
    by_cases hw : w = s
    · subst hw
      simp [AList.lookup_insert]
    · rw [AList.lookup_insert_ne hw, h.mem]
      simp [hw]

theorem loadLines_loaded : ∀ (lines pre : List Bytes) (maps : WordOf × NumOf),
    Loaded pre maps → Loaded (pre ++ lines) (loadLines lines (pre.length + 1) maps) := by
  intro lines
  induction lines with
  | nil => intro pre maps h; rw [List.append_nil]; exact h
  | cons s lines ih =>
      rintro pre ⟨wordOf, numOf⟩ h
      have hs := ih (pre ++ [s]) _ (h.snoc s)
      rw [List.append_assoc, List.singleton_append] at hs
      simpa [loadLines, add_assoc] using hs

theorem loadDict_loaded (file : Bytes) : Loaded (getlines file) (loadDict file) := by
  simpa [loadDict] using loadLines_loaded (getlines file) [] (∅, ∅) .empty

/-- The word map is empty where no line was read. -/
theorem Loaded.entries_eq_nil_iff {lines : List Bytes} {maps : WordOf × NumOf}
    (h : Loaded lines maps) : maps.2.entries = [] ↔ lines = [] := by
  constructor
  · intro hentries
    cases lines with
    | nil => rfl
    | cons w lines =>
        have hw := (h.mem w).mpr List.mem_cons_self
        rw [AList.lookup, hentries] at hw
        cases hw
  · rintro rfl
    by_contra hne
    obtain ⟨⟨w, k⟩, entries, hentries⟩ := List.exists_cons_of_ne_nil hne
    have hw : (maps.2.lookup w).isSome := by
      rw [AList.lookup, hentries, List.dlookup_cons_eq]
      rfl
    cases (h.mem w).mp hw

theorem getlines_eq_nil_iff {file : Bytes} : getlines file = [] ↔ file = [] := by
  cases file with
  | nil => exact iff_of_true rfl rfl
  | cons c rest =>
      refine iff_of_false ?_ (List.cons_ne_nil c rest)
      rw [getlines]
      split
      · exact List.cons_ne_nil _ _
      · split
        · exact List.cons_ne_nil _ _
        · exact List.cons_ne_nil _ _

end Playspace.Citbrains
