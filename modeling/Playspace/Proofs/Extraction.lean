import Mathlib.Data.List.TakeWhile
import Playspace.Proofs.Agreement

/-!
# What the generator collects

The script takes any line with `class` in it for a class header. It gets the
names right on headers with a base list; one without keeps its colon and all
that follows up to a blank, and with it the line's end, which becomes a blank
line of the dictionary. Any other line with `class` in it adds whatever stands
after its first blank, and ends the script where there is none.
`extraction_exact_iff` says which sources come through.
-/

namespace Playspace.ParseHtn

open Citbrains (Bytes ascii getlines getlines_eq_nil_iff getlines_writeWords main_cases)

/-! ## Source files -/

/-- A character of a name: a letter, a digit, an underscore, or a byte of a
character outside ASCII. -/
def isNameByte (c : UInt8) : Prop :=
  (48 ≤ c ∧ c ≤ 57) ∨ (65 ≤ c ∧ c ≤ 90) ∨ c = 95 ∨ (97 ≤ c ∧ c ≤ 122) ∨ 128 ≤ c

instance (c : UInt8) : Decidable (isNameByte c) := inferInstanceAs (Decidable (_ ∨ _))

structure ClassName where
  bytes : Bytes
  ne_nil : bytes ≠ []
  isName : ∀ c ∈ bytes, isNameByte c

/-- One step of indentation. -/
inductive Indent where
  | spaces
  | tab

def Indent.text : Indent → Bytes
  | spaces => ascii "    "
  | tab => ascii "\t"

/-- A line of a strategy source: `class Name(Bases):` or `class Name:`, with
what follows on the line (its end, for one), or any other text. -/
inductive SourceLine where
  | header (indent : List Indent) (name : ClassName) (bases : Option Bytes) (rest : Bytes)
  | other (text : Bytes)

namespace SourceLine

/-- The header after the name. -/
def headerTail : Option Bytes → Bytes → Bytes
  | some bases, rest => 40 :: (bases ++ ascii "):" ++ rest)
  | none, rest => 58 :: rest

def text : SourceLine → Bytes
  | header indent name bases rest =>
      (indent.map Indent.text).flatten ++ ascii "class " ++ name.bytes ++
        headerTail bases rest
  | other text => text

end SourceLine

/-- The names of the classes that the lines declare. -/
def declaredIn (lines : List SourceLine) : Set Bytes :=
  { w | ∃ indent name bases rest,
      SourceLine.header indent name bases rest ∈ lines ∧ w = name.bytes }

/-- A source file, with what Python reads of it line by line. -/
structure SourceFile where
  file : Bytes
  lines : List SourceLine
  reads : readlines (universalNewlines file) = lines.map SourceLine.text

/-- The line once its runs of four blanks and its tabs are gone. -/
def stripped (line : Bytes) : Bytes := remove (ascii "\t") (remove (ascii "    ") line)

/-- A header has its base list; in any other line with `class` in it, a name
stands between the first blank that is left and the next blank, parenthesis or
end of the text. -/
def SourceLine.Clean (names : Set Bytes) : SourceLine → Prop
  | .header _ _ bases _ => bases.isSome
  | .other text => ascii "class" <:+: text →
      ∃ before name after, stripped text = before ++ 32 :: (name ++ after) ∧
        32 ∉ before ∧ name ∈ names ∧ ∀ c ∈ after.head?, c = 32 ∨ c = 40

/-! ## `replace` -/

theorem removeFrom_sublist (old : Bytes) (skip : Nat) (line : Bytes) :
    (removeFrom old skip line).Sublist line := by
  induction line generalizing skip with
  | nil => cases skip <;> exact List.Sublist.refl []
  | cons c rest ih =>
      cases skip with
      | succ skip => exact (ih skip).cons c
      | zero =>
          rw [removeFrom]
          split
          · exact (ih _).cons c
          · exact (ih 0).cons_cons c

theorem stripped_sublist (line : Bytes) : (stripped line).Sublist line :=
  (removeFrom_sublist _ 0 _).trans (removeFrom_sublist _ 0 line)

theorem removeFrom_length_append (old hit rest : Bytes) :
    removeFrom old hit.length (hit ++ rest) = removeFrom old 0 rest := by
  induction hit with
  | nil => rfl
  | cons c hit ih => exact ih

/-- A hit at the front goes. -/
theorem remove_append_self {c : UInt8} {old : Bytes} (rest : Bytes) :
    remove (c :: old) (c :: old ++ rest) = remove (c :: old) rest := by
  have hhit : c :: old <+: c :: (old ++ rest) := List.prefix_append (c :: old) rest
  rw [remove, List.cons_append, removeFrom, if_pos hhit, List.length_cons,
    Nat.add_sub_cancel, removeFrom_length_append, remove]

/-- Without one, the first character stays. -/
theorem remove_cons {old : Bytes} {c : UInt8} {rest : Bytes} (h : ¬ old <+: c :: rest) :
    remove old (c :: rest) = c :: remove old rest := by
  rw [remove, removeFrom, if_neg h, remove]

/-- No hit starts in front of `rest`. -/
theorem remove_append {a : UInt8} {old kept : Bytes} (h : a ∉ kept) (rest : Bytes) :
    remove (a :: old) (kept ++ rest) = kept ++ remove (a :: old) rest := by
  induction kept with
  | nil => rfl
  | cons c kept ih =>
      rw [List.mem_cons, not_or] at h
      have hmiss : ¬ a :: old <+: c :: (kept ++ rest) :=
        fun hp => h.1 (List.cons_prefix_cons.mp hp).1
      rw [List.cons_append, remove_cons hmiss, ih h.2, List.cons_append]

/-! ## The word of a line -/

/-- `line.split(" ")[1]`, then `line.split("(")[0]`. -/
def foundWord (line : Bytes) : Option Bytes :=
  ((stripped line).splitOn 32)[1]?.map fun piece => (piece.splitOn 40).headD []

/-- The loop body finds the word in the line. -/
def Finds (line w : Bytes) : Prop := ascii "class" <:+: line ∧ foundWord line = some w

theorem parseLine_eq (wordList : Finset Bytes) (line : Bytes) :
    parseLine wordList line =
      if ascii "class" <:+: line then (foundWord line).map (insert · wordList)
      else some wordList := by
  rw [parseLine, foundWord, ← stripped]
  split
  · dsimp only
    cases ((stripped line).splitOn 32)[1]? <;> rfl
  · rfl

/-- The line has a word, or is none of those a word is taken from. -/
def HasWord (line : Bytes) : Prop := ascii "class" <:+: line → ∃ w, foundWord line = some w

theorem parseLine_exists_iff (wordList : Finset Bytes) {line : Bytes} :
    (∃ wordList', parseLine wordList line = some wordList') ↔ HasWord line := by
  rw [parseLine_eq, HasWord]
  by_cases hclass : ascii "class" <:+: line
  · rw [if_pos hclass]
    cases foundWord line with
    | none => exact ⟨nofun, fun h => nomatch h hclass⟩
    | some w => exact ⟨fun _ _ => ⟨w, rfl⟩, fun _ => ⟨_, rfl⟩⟩
  · rw [if_neg hclass]
    exact ⟨fun _ h => absurd h hclass, fun _ => ⟨_, rfl⟩⟩

theorem mem_parseLine {wordList wordList' : Finset Bytes} {line : Bytes}
    (h : parseLine wordList line = some wordList') (w : Bytes) :
    w ∈ wordList' ↔ w ∈ wordList ∨ Finds line w := by
  rw [parseLine_eq] at h
  rw [Finds]
  split at h
  · next hclass =>
      obtain ⟨v, hv, rfl⟩ := Option.map_eq_some_iff.mp h
      rw [Finset.mem_insert, hv, Option.some.injEq, eq_comm (a := v), or_comm,
        and_iff_right hclass]
  · next hclass =>
      cases h
      exact ⟨Or.inl, fun hw => hw.resolve_right fun hfound => hclass hfound.1⟩

/-- The loop gets to the end exactly when every line has its word. -/
theorem foldlM_parseLine_exists_iff {lines : List Bytes} (wordList : Finset Bytes) :
    (∃ wordList', lines.foldlM parseLine wordList = some wordList') ↔
      ∀ line ∈ lines, HasWord line := by
  induction lines generalizing wordList with
  | nil => exact ⟨fun _ _ h => absurd h List.not_mem_nil, fun _ => ⟨wordList, rfl⟩⟩
  | cons line lines ih =>
      rw [List.forall_mem_cons, ← parseLine_exists_iff wordList]
      simp only [List.foldlM_cons, Option.bind_eq_bind, Option.bind_eq_some_iff]
      refine ⟨?_, ?_⟩
      · intro ⟨wordList', next, hnext, hrest⟩
        exact ⟨⟨next, hnext⟩, (ih next).mp ⟨wordList', hrest⟩⟩
      · intro ⟨⟨next, hnext⟩, hrest⟩
        obtain ⟨wordList', h⟩ := (ih next).mpr hrest
        exact ⟨wordList', next, hnext, h⟩

theorem mem_foldlM_parseLine {lines : List Bytes} {wordList wordList' : Finset Bytes}
    (h : lines.foldlM parseLine wordList = some wordList') (w : Bytes) :
    w ∈ wordList' ↔ w ∈ wordList ∨ ∃ line ∈ lines, Finds line w := by
  induction lines generalizing wordList with
  | nil =>
      cases h
      simp
  | cons line lines ih =>
      rw [List.foldlM_cons, Option.bind_eq_bind, Option.bind_eq_some_iff] at h
      obtain ⟨next, hnext, hrest⟩ := h
      rw [ih hrest, mem_parseLine hnext, or_assoc, List.exists_mem_cons_iff]

/-! ## Which word it is -/

/-- Up to the first `a`, which is all of it where there is none. -/
theorem head_splitOn (a : UInt8) (line : Bytes) :
    (line.splitOn a).headD [] = line.takeWhile (· ≠ a) := by
  by_cases h : a ∈ line
  · obtain ⟨before, after, rfl, hbefore⟩ := List.eq_append_cons_of_mem h
    have hkeep : ∀ c ∈ before, decide (c ≠ a) = true := fun c hc =>
      decide_eq_true fun heq => hbefore (heq ▸ hc)
    rw [List.splitOn_append_cons_self_of_not_mem hbefore, List.headD_cons,
      List.takeWhile_append_of_pos hkeep, List.takeWhile_cons_of_neg (by simp),
      List.append_nil]
  · have hkeep : ∀ c ∈ line, decide (c ≠ a) = true := fun c hc =>
      decide_eq_true fun heq => h (heq ▸ hc)
    rw [List.splitOn_eq_singleton h, List.headD_cons, List.takeWhile_eq_self_iff.mpr hkeep]

/-- A blank or a parenthesis ends the word. -/
def inWord (c : UInt8) : Bool := decide (c ≠ 32) && decide (c ≠ 40)

/-- The word stands after the first blank. -/
theorem foundWord_of_stripped {line before tail : Bytes}
    (h : stripped line = before ++ 32 :: tail) (hbefore : 32 ∉ before) :
    foundWord line = some (tail.takeWhile inWord) := by
  obtain ⟨piece, pieces, hsplit⟩ :=
    List.exists_cons_of_ne_nil (List.splitOn_ne_nil 32 tail)
  have hpiece := head_splitOn 32 tail
  rw [hsplit, List.headD_cons] at hpiece
  rw [foundWord, h, List.splitOn_append_cons_self_of_not_mem hbefore, hsplit,
    List.getElem?_cons_succ, List.getElem?_cons_zero, Option.map_some, head_splitOn,
    hpiece, List.takeWhile_takeWhile]
  simp only [Bool.decide_and, and_comm, decide_eq_true_eq]
  rfl

theorem foundWord_eq_some_iff {line w : Bytes} :
    foundWord line = some w ↔ ∃ before tail,
      stripped line = before ++ 32 :: tail ∧ 32 ∉ before ∧ tail.takeWhile inWord = w := by
  refine ⟨fun hfound => ?_, ?_⟩
  · by_cases hblank : 32 ∈ stripped line
    · obtain ⟨before, tail, h, hbefore⟩ := List.eq_append_cons_of_mem hblank
      rw [foundWord_of_stripped h hbefore] at hfound
      exact ⟨before, tail, h, hbefore, Option.some.inj hfound⟩
    · rw [foundWord, List.splitOn_eq_singleton hblank] at hfound
      cases hfound
  · intro ⟨before, tail, h, hbefore, hw⟩
    rw [foundWord_of_stripped h hbefore, hw]

theorem foundWord_sublist {line w : Bytes} (h : foundWord line = some w) :
    w.Sublist line := by
  obtain ⟨before, tail, hstripped, -, rfl⟩ := foundWord_eq_some_iff.mp h
  have htail : tail.Sublist (before ++ 32 :: tail) :=
    (List.sublist_cons_self 32 tail).trans (List.sublist_append_right before _)
  rw [← hstripped] at htail
  exact ((List.takeWhile_sublist inWord).trans htail).trans (stripped_sublist line)

/-! ## Names and headers -/

theorem ClassName.ne_of_mem (name : ClassName) {a c : UInt8} (hc : c ∈ name.bytes)
    (ha : ¬ isNameByte a) : c ≠ a :=
  fun h => ha (h ▸ name.isName c hc)

theorem ClassName.not_mem (name : ClassName) {a : UInt8} (ha : ¬ isNameByte a) :
    a ∉ name.bytes := fun h => ha (name.isName a h)

theorem ClassName.all_inWord (name : ClassName) : ∀ c ∈ name.bytes, inWord c = true := by
  intro c hc
  have hblank := name.ne_of_mem hc (a := 32) (by decide)
  have hparen := name.ne_of_mem hc (a := 40) (by decide)
  simp [inWord, hblank, hparen]

/-- The blanks of an indentation go first. -/
theorem remove_blanks (indent : List Indent) (line : Bytes) :
    ∃ tabs, remove (ascii "    ") ((indent.map Indent.text).flatten ++ line) =
      List.replicate tabs 9 ++ remove (ascii "    ") line := by
  induction indent with
  | nil => exact ⟨0, rfl⟩
  | cons step indent ih =>
      obtain ⟨tabs, h⟩ := ih
      rw [List.map_cons, List.flatten_cons, List.append_assoc]
      cases step with
      | spaces => exact ⟨tabs, (remove_append_self _).trans h⟩
      | tab =>
          refine ⟨tabs + 1, ?_⟩
          have htab : (32 : UInt8) ∉ Indent.tab.text := by decide
          rw [List.replicate_succ, List.cons_append, ← h]
          exact remove_append htab _

/-- And then its tabs. -/
theorem remove_tabs (tabs : Nat) (line : Bytes) :
    remove (ascii "\t") (List.replicate tabs 9 ++ line) = remove (ascii "\t") line := by
  induction tabs with
  | zero => rfl
  | succ tabs ih => exact (remove_append_self _).trans ih

/-- The blank before a name is alone, so it is no run of four. -/
theorem remove_blank_name {kept : Bytes} (hne : kept ≠ []) (hkept : 32 ∉ kept)
    (tail : Bytes) :
    remove (ascii "    ") (32 :: (kept ++ tail)) =
      32 :: (kept ++ remove (ascii "    ") tail) := by
  have hmiss : ¬ ascii "    " <+: 32 :: (kept ++ tail) := by
    intro hhit
    obtain ⟨c, kept, rfl⟩ := List.exists_cons_of_ne_nil hne
    have hhead := (List.cons_prefix_cons.mp (List.cons_prefix_cons.mp hhit).2).1
    exact hkept (hhead ▸ List.mem_cons_self)
  rw [remove_cons hmiss]
  exact congrArg (32 :: ·) (remove_append hkept tail)

/-- Behind an indentation, `class`, its blank and what comes next stay. -/
theorem stripped_class (indent : List Indent) {kept : Bytes} (hne : kept ≠ [])
    (h32 : 32 ∉ kept) (h9 : 9 ∉ kept) (tail : Bytes) :
    stripped ((indent.map Indent.text).flatten ++
        (ascii "class" ++ 32 :: (kept ++ tail))) =
      ascii "class" ++ 32 :: (kept ++ stripped tail) := by
  obtain ⟨tabs, hindent⟩ := remove_blanks indent (ascii "class" ++ 32 :: (kept ++ tail))
  have hblanks : remove (ascii "    ") (ascii "class" ++ 32 :: (kept ++ tail)) =
      ascii "class" ++ 32 :: (kept ++ remove (ascii "    ") tail) := by
    have hclass : (32 : UInt8) ∉ ascii "class" := by decide
    exact (remove_append hclass _).trans (congrArg _ (remove_blank_name hne h32 tail))
  have htabs : ∀ tail, remove (ascii "\t") (ascii "class" ++ 32 :: (kept ++ tail)) =
      ascii "class" ++ 32 :: (kept ++ remove (ascii "\t") tail) := by
    intro tail
    have hclass : (9 : UInt8) ∉ ascii "class " ++ kept := by
      rw [List.mem_append, not_or]
      exact ⟨by decide, h9⟩
    exact remove_append hclass tail
  rw [stripped, hindent, remove_tabs, hblanks, htabs, stripped]

namespace SourceLine

/-- What ends the name of a header. -/
def nameEnd (bases : Option Bytes) : UInt8 := if bases.isSome then 40 else 58

theorem headerTail_eq (bases : Option Bytes) (rest : Bytes) :
    ∃ tail, headerTail bases rest = nameEnd bases :: tail := by
  cases bases <;> exact ⟨_, rfl⟩

theorem header_text_eq (indent : List Indent) (name : ClassName) (bases : Option Bytes)
    (rest : Bytes) : ∃ tail, (header indent name bases rest).text =
      (indent.map Indent.text).flatten ++
        (ascii "class" ++ 32 :: (name.bytes ++ [nameEnd bases] ++ tail)) := by
  obtain ⟨tail, htail⟩ := headerTail_eq bases rest
  have hclass : ascii "class " = ascii "class" ++ [32] := by decide
  refine ⟨tail, ?_⟩
  simp only [text, htail, hclass, List.append_assoc, List.cons_append, List.nil_append]

theorem class_infix_header (indent : List Indent) (name : ClassName)
    (bases : Option Bytes) (rest : Bytes) :
    ascii "class" <:+: (header indent name bases rest).text := by
  obtain ⟨tail, htext⟩ := header_text_eq indent name bases rest
  rw [htext]
  exact ⟨_, _, List.append_assoc _ _ _⟩

/-- The word of a header: its name, and without bases the colon and more. -/
theorem foundWord_header (indent : List Indent) (name : ClassName) (bases : Option Bytes)
    (rest : Bytes) : ∃ more, foundWord (header indent name bases rest).text =
      some (name.bytes ++ if bases.isSome then [] else 58 :: more) := by
  obtain ⟨tail, htext⟩ := header_text_eq indent name bases rest
  have hkept : ∀ a, ¬ isNameByte a → a ≠ 40 → a ≠ 58 →
      a ∉ name.bytes ++ [nameEnd bases] := by
    intro a ha hparen hcolon hmem
    rcases List.mem_append.mp hmem with h | h
    · exact name.not_mem ha h
    · rw [List.mem_singleton, nameEnd] at h
      split at h
      · exact hparen h
      · exact hcolon h
  have hstripped := stripped_class indent (by simp)
    (hkept 32 (by decide) (by decide) (by decide))
    (hkept 9 (by decide) (by decide) (by decide)) tail
  rw [← htext] at hstripped
  have hclass : (32 : UInt8) ∉ ascii "class" := by decide
  refine ⟨(stripped tail).takeWhile inWord, ?_⟩
  rw [foundWord_of_stripped hstripped hclass, List.append_assoc,
    List.takeWhile_append_of_pos name.all_inWord]
  cases bases with
  | none => rfl
  | some bases => rfl

end SourceLine

/-! ## Clean lines -/

/-- Every word of the set could be a class's name. -/
def Names (names : Set Bytes) : Prop := ∀ w ∈ names, ∃ name : ClassName, w = name.bytes

theorem names_declaredIn (lines : List SourceLine) : Names (declaredIn lines) := by
  intro w ⟨_, name, _, _, _, hw⟩
  exact ⟨name, hw⟩

theorem declaredIn_subset {line : SourceLine} {lines : List SourceLine} (h : line ∈ lines) :
    declaredIn [line] ⊆ declaredIn lines := by
  intro w ⟨indent, name, bases, rest, hmem, hw⟩
  exact ⟨indent, name, bases, rest, List.mem_singleton.mp hmem ▸ h, hw⟩

namespace SourceLine

/-- The script takes a name of the set from the line, or nothing. -/
def Named (names : Set Bytes) (line : SourceLine) : Prop :=
  ascii "class" <:+: line.text → ∃ w ∈ names, foundWord line.text = some w

theorem named_header_iff {names : Set Bytes} (hnames : Names names) {indent : List Indent}
    {name : ClassName} (hname : name.bytes ∈ names) (bases : Option Bytes) (rest : Bytes) :
    (header indent name bases rest).Named names ↔ bases.isSome := by
  obtain ⟨more, hfound⟩ := foundWord_header indent name bases rest
  refine ⟨fun h => ?_, fun h _ => ?_⟩
  · obtain ⟨w, hw, hfound'⟩ := h (class_infix_header indent name bases rest)
    by_contra hbases
    rw [hfound, if_neg hbases] at hfound'
    -- The colon is in the word, and in no name.
    obtain ⟨other, rfl⟩ := hnames w hw
    refine other.not_mem (a := 58) (by decide) ?_
    rw [← Option.some.inj hfound']
    exact List.mem_append_right _ List.mem_cons_self
  · rw [if_pos h, List.append_nil] at hfound
    exact ⟨name.bytes, hname, hfound⟩

theorem named_other_iff {names : Set Bytes} (hnames : Names names) (text : Bytes) :
    (other text).Named names ↔ (other text).Clean names := by
  refine forall_congr' fun _ => ⟨?_, ?_⟩
  · intro ⟨name, hname, hfound⟩
    obtain ⟨before, tail, hstripped, hbefore, rfl⟩ := foundWord_eq_some_iff.mp hfound
    refine ⟨before, _, tail.dropWhile inWord, ?_, hbefore, hname, ?_⟩
    · rw [List.takeWhile_append_dropWhile]
      exact hstripped
    · intro c hc
      have hstop := List.head?_dropWhile_not inWord tail
      rw [Option.mem_def.mp hc] at hstop
      simpa [inWord, ← or_iff_not_imp_left] using hstop
  · intro ⟨before, name, after, hstripped, hbefore, hname, hafter⟩
    obtain ⟨className, rfl⟩ := hnames name hname
    refine ⟨_, hname, foundWord_eq_some_iff.mpr ⟨before, _, hstripped, hbefore, ?_⟩⟩
    rw [List.takeWhile_append_of_pos className.all_inWord]
    have hnil : after.takeWhile inWord = [] := by
      cases after with
      | nil => rfl
      | cons c after =>
          have hc : inWord c = false := by
            rcases hafter c rfl with rfl | rfl <;> rfl
          exact List.takeWhile_cons_of_neg (by simp [hc])
    rw [hnil, List.append_nil]

theorem clean_iff_named {names : Set Bytes} (hnames : Names names) {line : SourceLine}
    (hline : declaredIn [line] ⊆ names) : line.Clean names ↔ line.Named names := by
  cases line with
  | header indent name bases rest =>
      have hname : name.bytes ∈ names :=
        hline ⟨indent, name, bases, rest, List.mem_singleton_self _, rfl⟩
      exact (named_header_iff hnames hname bases rest).symm
  | other text => exact (named_other_iff hnames text).symm

end SourceLine

/-! ## The collected words -/

/-- From clean lines the script collects the names that they declare. -/
theorem collects_of_clean {lines : List SourceLine}
    (hclean : ∀ line ∈ lines, line.Clean (declaredIn lines)) (wordList : Finset Bytes) :
    ∃ wordList', (lines.map SourceLine.text).foldlM parseLine wordList = some wordList' ∧
      ∀ w, w ∈ wordList' ↔ w ∈ wordList ∨ w ∈ declaredIn lines := by
  have hnamed : ∀ line ∈ lines, line.Named (declaredIn lines) := fun line hline =>
    (SourceLine.clean_iff_named (names_declaredIn lines) (declaredIn_subset hline)).mp
      (hclean line hline)
  have hwords : ∀ line ∈ lines.map SourceLine.text, HasWord line := by
    rw [List.forall_mem_map]
    intro line hline hclass
    obtain ⟨w, -, hfound⟩ := hnamed line hline hclass
    exact ⟨w, hfound⟩
  obtain ⟨wordList', h⟩ := (foldlM_parseLine_exists_iff wordList).mpr hwords
  refine ⟨wordList', h, fun w => ?_⟩
  simp only [mem_foldlM_parseLine h, List.mem_map, exists_exists_and_eq_and]
  refine or_congr_right ⟨?_, ?_⟩
  · intro ⟨line, hline, hclass, hfound⟩
    obtain ⟨v, hv, hfound'⟩ := hnamed line hline hclass
    rwa [Option.some.inj (hfound.symm.trans hfound')]
  · intro ⟨indent, name, bases, rest, hmem, hw⟩
    obtain ⟨more, hfound⟩ := SourceLine.foundWord_header indent name bases rest
    have hbases : bases.isSome := hclean _ hmem
    rw [if_pos hbases, List.append_nil, ← hw] at hfound
    exact ⟨_, hmem, SourceLine.class_infix_header indent name bases rest, hfound⟩

/-- And from others it does not. -/
theorem clean_of_collects {lines : List SourceLine} {wordList : Finset Bytes}
    (h : (lines.map SourceLine.text).foldlM parseLine ∅ = some wordList)
    (hnames : ∀ w ∈ wordList, w ∈ declaredIn lines) :
    ∀ line ∈ lines, line.Clean (declaredIn lines) := by
  intro line hline
  rw [SourceLine.clean_iff_named (names_declaredIn lines) (declaredIn_subset hline)]
  intro hclass
  have hmem : line.text ∈ lines.map SourceLine.text := List.mem_map_of_mem hline
  obtain ⟨w, hfound⟩ := (foldlM_parseLine_exists_iff ∅).mp ⟨wordList, h⟩ _ hmem hclass
  have hw := (mem_foldlM_parseLine h w).mpr (Or.inr ⟨_, hmem, hclass, hfound⟩)
  exact ⟨w, hnames w hw, hfound⟩

/-! ## Whole files -/

namespace SourceFile

/-- The lines of the files one after another. -/
def allLines (files : List SourceFile) : List SourceLine :=
  (files.map SourceFile.lines).flatten

theorem parse_eq (f : SourceFile) (wordList : Finset Bytes) :
    parseAndWriteDictionaryFile f.file wordList =
      (f.lines.map SourceLine.text).foldlM parseLine wordList := by
  rw [parseAndWriteDictionaryFile, f.reads]

theorem foldlM_files (files : List SourceFile) (wordList : Finset Bytes) :
    (files.map SourceFile.file).foldlM
        (fun wordList file => parseAndWriteDictionaryFile file wordList) wordList =
      ((allLines files).map SourceLine.text).foldlM parseLine wordList := by
  induction files generalizing wordList with
  | nil => rfl
  | cons f files ih =>
      have hlines : allLines (f :: files) = f.lines ++ allLines files := rfl
      rw [hlines, List.map_append, List.foldlM_append, List.map_cons, List.foldlM_cons,
        parse_eq]
      exact congrArg (Option.bind _) (funext ih)

theorem parseFiles_eq (files : List SourceFile) :
    parseFiles (files.map SourceFile.file) =
      ((allLines files).map SourceLine.text).foldlM parseLine ∅ :=
  foldlM_files files ∅

/-- `parseAndWriteDictionaryFile` ends, and adds the declared names to the words
it is given. -/
def CollectsNames (f : SourceFile) : Prop :=
  ∀ wordList, ∃ wordList', parseAndWriteDictionaryFile f.file wordList = some wordList' ∧
    ∀ w, w ∈ wordList' ↔ w ∈ wordList ∨ w ∈ declaredIn f.lines

theorem collectsNames_iff (f : SourceFile) :
    f.CollectsNames ↔ ∀ line ∈ f.lines, line.Clean (declaredIn f.lines) := by
  refine ⟨fun h => ?_, fun hclean wordList => ?_⟩
  · obtain ⟨wordList', hparse, hmem⟩ := h ∅
    rw [parse_eq] at hparse
    refine clean_of_collects hparse fun w hw => ?_
    exact ((hmem w).mp hw).resolve_left (Finset.notMem_empty w)
  · rw [parse_eq]
    exact collects_of_clean hclean wordList

end SourceFile

/-! ## The dictionary files -/

/-- The lines of a dictionary file are the names that the sources declare, each
once. -/
def ListsNames (dictionary : Bytes) (lines : List SourceLine) : Prop :=
  (getlines dictionary).Nodup ∧ ∀ w, w ∈ getlines dictionary ↔ w ∈ declaredIn lines

/-- A line end is the last byte of its line. -/
theorem readlines_newline_last (file : Bytes) :
    ∀ line ∈ readlines file, line.Pairwise fun c _ => c ≠ 10 := by
  induction file with
  | nil => exact fun _ h => absurd h List.not_mem_nil
  | cons c rest ih =>
      rw [readlines]
      split
      · rw [List.forall_mem_cons]
        exact ⟨List.pairwise_singleton _ _, ih⟩
      · next hc =>
          cases hlines : readlines rest with
          | nil =>
              rw [List.forall_mem_singleton]
              exact List.pairwise_singleton _ _
          | cons line lines =>
              rw [hlines, List.forall_mem_cons] at ih
              rw [List.forall_mem_cons]
              exact ⟨List.pairwise_cons.mpr ⟨fun _ _ => hc, ih.1⟩, ih.2⟩

theorem SourceFile.newline_last {files : List SourceFile} {line : SourceLine}
    (h : line ∈ SourceFile.allLines files) : line.text.Pairwise fun c _ => c ≠ 10 := by
  obtain ⟨lines, hlines, hline⟩ := List.mem_flatten.mp h
  obtain ⟨f, -, rfl⟩ := List.mem_map.mp hlines
  refine readlines_newline_last (universalNewlines f.file) _ ?_
  rw [f.reads]
  exact List.mem_map_of_mem hline

/-- So it is of a word. -/
theorem word_newline_last {files : List SourceFile} {words : Finset Bytes}
    (h : parseFiles (files.map SourceFile.file) = some words) {w : Bytes} (hw : w ∈ words) :
    w.Pairwise fun c _ => c ≠ 10 := by
  rw [SourceFile.parseFiles_eq] at h
  rcases (mem_foldlM_parseLine h w).mp hw with hempty | ⟨text, htext, -, hfound⟩
  · exact absurd hempty (Finset.notMem_empty w)
  · obtain ⟨line, hline, rfl⟩ := List.mem_map.mp htext
    exact (SourceFile.newline_last hline).sublist (foundWord_sublist hfound)

theorem getlines_append_line (text rest : Bytes) :
    getlines (text ++ 10 :: rest) = getlines (text ++ [10]) ++ getlines rest := by
  induction text with
  | nil => rfl
  | cons c text ih =>
      rw [List.cons_append, List.cons_append, getlines, getlines, ih]
      split
      · rfl
      · cases hlines : getlines (text ++ [10]) with
        | nil => exact absurd (getlines_eq_nil_iff.mp hlines) (by simp)
        | cons line lines => rfl

/-- A word that keeps its line end leaves a blank line. -/
theorem blank_line {words : List Bytes} {w : Bytes} (hw : w ∈ words)
    (hlast : w.Pairwise fun c _ => c ≠ 10) (hnewline : 10 ∈ w) :
    [] ∈ getlines (writeWords words) := by
  obtain ⟨before, after, rfl⟩ := List.append_of_mem hw
  obtain ⟨start, rest, rfl⟩ := List.append_of_mem hnewline
  have hrest : rest = [] := by
    refine List.eq_nil_iff_forall_not_mem.mpr fun c hc => ?_
    exact (List.pairwise_cons.mp (List.pairwise_append.mp hlast).2.1).1 c hc rfl
  subst hrest
  have hwritten : writeWords (before ++ (start ++ [10]) :: after) =
      writeWords before ++ start ++ 10 :: 10 :: writeWords after := by
    simp [writeWords]
  rw [hwritten, getlines_append_line]
  exact List.mem_append_right _ List.mem_cons_self

/-- The dictionary lists the names exactly when they are the words collected. -/
theorem listsNames_iff {files : List SourceFile} {words : Finset Bytes}
    (h : parseFiles (files.map SourceFile.file) = some words) {order : List Bytes}
    (horder : (order : Multiset Bytes) = words.val) {lines : List SourceLine} :
    ListsNames (writeWords order) lines ↔ ∀ w, w ∈ words ↔ w ∈ declaredIn lines := by
  have hmem : ∀ w, w ∈ order ↔ w ∈ words := by
    intro w
    rw [← Multiset.mem_coe, horder, Finset.mem_val]
  have hnodup : order.Nodup := Multiset.coe_nodup.mp (horder ▸ words.nodup)
  refine ⟨fun ⟨_, hlines⟩ => ?_, fun hwords => ?_⟩
  · have hclean : ∀ w ∈ order, 10 ∉ w := by
      intro w hw hnewline
      have hblank := blank_line hw (word_newline_last h ((hmem w).mp hw)) hnewline
      obtain ⟨name, hname⟩ := names_declaredIn lines _ ((hlines []).mp hblank)
      exact name.ne_nil hname.symm
    intro w
    rw [← hmem, ← hlines, getlines_writeWords hclean]
  · have hclean : ∀ w ∈ order, 10 ∉ w := by
      intro w hw
      obtain ⟨name, rfl⟩ := names_declaredIn lines w ((hwords w).mp ((hmem w).mp hw))
      exact name.not_mem (by decide)
    rw [ListsNames, getlines_writeWords hclean]
    exact ⟨hnodup, fun w => (hmem w).trans (hwords w)⟩

/-- What the script is run on. -/
structure StrategyFiles where
  commonNetwork : SourceFile
  rootNetwork : SourceFile
  goal : SourceFile
  role : SourceFile
  tactics : SourceFile

namespace StrategyFiles

def sources (s : StrategyFiles) : Sources where
  commonNetwork := s.commonNetwork.file
  rootNetwork := s.rootNetwork.file
  goal := s.goal.file
  role := s.role.file
  tactics := s.tactics.file

def behaviorLines (s : StrategyFiles) : List SourceLine :=
  SourceFile.allLines [s.commonNetwork, s.rootNetwork]

def commandLines (s : StrategyFiles) : List SourceLine :=
  SourceFile.allLines [s.goal, s.role, s.tactics]

/-- The script gets to its end, in whatever order the sets are iterated over, and
its two files list the names of their sources. -/
structure WritesNames (s : StrategyFiles) : Prop where
  ends : ∃ behaviorOrder commandOrder f, main behaviorOrder commandOrder s.sources = some f
  lists : ∀ behaviorOrder commandOrder f,
    main behaviorOrder commandOrder s.sources = some f →
      ListsNames f.behavior s.behaviorLines ∧ ListsNames f.command s.commandLines

theorem parse_behavior (s : StrategyFiles) :
    parseFiles [s.sources.commonNetwork, s.sources.rootNetwork] =
      (s.behaviorLines.map SourceLine.text).foldlM parseLine ∅ :=
  SourceFile.parseFiles_eq [s.commonNetwork, s.rootNetwork]

theorem parse_command (s : StrategyFiles) :
    parseFiles [s.sources.goal, s.sources.role, s.sources.tactics] =
      (s.commandLines.map SourceLine.text).foldlM parseLine ∅ :=
  SourceFile.parseFiles_eq [s.goal, s.role, s.tactics]

/-- A run lists the names exactly when the words it collected are the names. -/
theorem lists_iff (s : StrategyFiles) {behaviorNames commandNames : Finset Bytes}
    (hb : parseFiles [s.sources.commonNetwork, s.sources.rootNetwork] = some behaviorNames)
    (hc : parseFiles [s.sources.goal, s.sources.role, s.sources.tactics] =
      some commandNames)
    {behaviorOrder commandOrder : List Bytes} {f : DictFiles}
    (h : main behaviorOrder commandOrder s.sources = some f) :
    ListsNames f.behavior s.behaviorLines ∧ ListsNames f.command s.commandLines ↔
      (∀ w, w ∈ behaviorNames ↔ w ∈ declaredIn s.behaviorLines) ∧
        ∀ w, w ∈ commandNames ↔ w ∈ declaredIn s.commandLines := by
  obtain ⟨b, c, hb', hc', hbo, hco, hcommand, hbehavior⟩ := main_cases h
  obtain rfl : b = behaviorNames := Option.some.inj (hb'.symm.trans hb)
  obtain rfl : c = commandNames := Option.some.inj (hc'.symm.trans hc)
  have hbehaviors : parseFiles ([s.commonNetwork, s.rootNetwork].map SourceFile.file) =
      some b := hb
  have hcommands : parseFiles ([s.goal, s.role, s.tactics].map SourceFile.file) =
      some c := hc
  rw [hbehavior, hcommand]
  exact and_congr (listsNames_iff hbehaviors hbo) (listsNames_iff hcommands hco)

theorem main_toList (s : StrategyFiles) {behaviorNames commandNames : Finset Bytes}
    (hb : parseFiles [s.sources.commonNetwork, s.sources.rootNetwork] = some behaviorNames)
    (hc : parseFiles [s.sources.goal, s.sources.role, s.sources.tactics] =
      some commandNames) :
    main behaviorNames.toList commandNames.toList s.sources =
      some ⟨writeWords commandNames.toList, writeWords behaviorNames.toList⟩ := by
  simp [main, hb, hc, iterate]

theorem writesNames_iff (s : StrategyFiles) : s.WritesNames ↔
    (∀ line ∈ s.behaviorLines, line.Clean (declaredIn s.behaviorLines)) ∧
      ∀ line ∈ s.commandLines, line.Clean (declaredIn s.commandLines) := by
  refine ⟨fun h => ?_, fun ⟨hbclean, hcclean⟩ => ?_⟩
  · obtain ⟨behaviorOrder, commandOrder, f, hrun⟩ := h.ends
    obtain ⟨b, c, hb, hc, -⟩ := main_cases hrun
    obtain ⟨hbnames, hcnames⟩ := (s.lists_iff hb hc hrun).mp (h.lists _ _ _ hrun)
    rw [parse_behavior] at hb
    rw [parse_command] at hc
    exact ⟨clean_of_collects hb fun w hw => (hbnames w).mp hw,
      clean_of_collects hc fun w hw => (hcnames w).mp hw⟩
  · obtain ⟨b, hb, hbnames⟩ := collects_of_clean hbclean ∅
    obtain ⟨c, hc, hcnames⟩ := collects_of_clean hcclean ∅
    rw [← parse_behavior] at hb
    rw [← parse_command] at hc
    refine ⟨⟨_, _, _, s.main_toList hb hc⟩, fun _ _ _ hrun => ?_⟩
    refine (s.lists_iff hb hc hrun).mpr ⟨fun w => ?_, fun w => ?_⟩
    · rw [hbnames, or_iff_right (Finset.notMem_empty w)]
    · rw [hcnames, or_iff_right (Finset.notMem_empty w)]

end StrategyFiles

/-- The extraction is exact on the sources whose lines are all clean: of a file
by itself, and of the files that go into one dictionary. -/
theorem extraction_exact_iff (f : SourceFile) (s : StrategyFiles) :
    (f.CollectsNames ↔ ∀ line ∈ f.lines, line.Clean (declaredIn f.lines)) ∧
    (s.WritesNames ↔
      (∀ line ∈ s.behaviorLines, line.Clean (declaredIn s.behaviorLines)) ∧
        ∀ line ∈ s.commandLines, line.Clean (declaredIn s.commandLines)) :=
  ⟨f.collectsNames_iff, s.writesNames_iff⟩

/-- `class A:` on a line of its own. -/
def plainClass : SourceFile where
  file := ascii "class A:\n"
  lines := [.header [] ⟨ascii "A", by decide, by decide +kernel⟩ none (ascii "\n")]
  reads := by decide

/-- A docstring that is no more than the word. -/
def docstringClass : SourceFile where
  file := ascii "\"\"\"class\"\"\"\n"
  lines := [.other (ascii "\"\"\"class\"\"\"\n")]
  reads := by decide

/-- `A` everywhere. -/
def plainClasses : StrategyFiles :=
  ⟨plainClass, plainClass, plainClass, plainClass, plainClass⟩

/-- A class without a base list is listed with its colon, before a blank line,
and a docstring without a blank ends the script. -/
theorem extraction_residue :
    (parseAndWriteDictionaryFile plainClass.file ∅ = some {ascii "A:\n"} ∧
      ¬ plainClass.CollectsNames) ∧
    (parseAndWriteDictionaryFile docstringClass.file ∅ = none ∧
      ¬ docstringClass.CollectsNames) ∧
    (∃ f, main [ascii "A:\n"] [ascii "A:\n"] plainClasses.sources = some f ∧
      getlines f.command = [ascii "A:", []] ∧ ¬ plainClasses.WritesNames) := by
  have hplain : parseAndWriteDictionaryFile plainClass.file ∅ = some {ascii "A:\n"} := by
    decide +kernel
  have hdocstring : parseAndWriteDictionaryFile docstringClass.file ∅ = none := by
    decide +kernel
  have hrun : main [ascii "A:\n"] [ascii "A:\n"] plainClasses.sources =
      some ⟨ascii "A:\n\n", ascii "A:\n\n"⟩ := by decide +kernel
  refine ⟨⟨hplain, fun h => ?_⟩, ⟨hdocstring, fun h => ?_⟩,
    _, hrun, by decide +kernel, fun h => ?_⟩
  · obtain ⟨words, hparse, hwords⟩ := h ∅
    obtain rfl := Option.some.inj (hplain.symm.trans hparse)
    obtain ⟨name, hname⟩ := names_declaredIn _ _
      (((hwords (ascii "A:\n")).mp (by decide)).resolve_left (Finset.notMem_empty _))
    exact name.not_mem (a := 58) (by decide) (hname ▸ by decide)
  · obtain ⟨words, hparse, -⟩ := h ∅
    cases hdocstring.symm.trans hparse
  · obtain ⟨-, hlines⟩ := (h.lists _ _ _ hrun).2
    obtain ⟨name, hname⟩ := names_declaredIn _ _ ((hlines []).mp (by decide +kernel))
    exact name.ne_nil hname.symm

end Playspace.ParseHtn
