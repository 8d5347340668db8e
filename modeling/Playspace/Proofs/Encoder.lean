import Playspace.Citbrains.Dictionary
import Playspace.Lib.LongestMatch

/-!
# The encoder is a longest-match tokeniser

`serializeTextImpl` moves one iterator back and forth and carries three more
locals between the passes. This file reduces all of that to `Tokenises`: the
invariant `Best` says what the locals know in the middle of a scan, `loop_scan`
says what a whole scan of the remaining text does, and the rest is an
induction over the tokenisation.

A blank line in the dictionary file makes the empty word a dictionary word,
and then a text that gets stuck does not end in the `out_of_range` exception:
the empty word is emitted and the iterator goes back to where it was. The
`blank` lemmas follow that path too, because the generator does write such
files.
-/

namespace Playspace.Citbrains

open Playspace.Lib

/-- The words the encoder can hit. -/
def wordSet (dictionary : NumOf) : Set Bytes := {w | (dictionary.lookup w).isSome}

/-- The byte the encoder emits for a word. -/
def codeOf (dictionary : NumOf) (w : Bytes) : UInt8 :=
  intToChar ((dictionary.lookup w).getD 0)

/-- The locals in the middle of a scan that began at `start` with the end of
the previous word at `prev`: the last hit is the longest word read so far. -/
def Best (dictionary : NumOf) (start prev : Nat) (sub found : Bytes)
    (wordEnd : Nat) : Prop :=
  (LongestPrefix (wordSet dictionary) sub found ∧ wordEnd + 1 = start + found.length) ∨
    (Stuck (wordSet dictionary) sub ∧ found = [] ∧ wordEnd = prev)

theorem best_nil (dictionary : NumOf) (start prev : Nat) :
    Best dictionary start prev [] [] prev :=
  Or.inr ⟨fun _ _ hp => List.prefix_nil.mp hp, rfl, rfl⟩

/-- Reading one more character keeps the invariant, whichever branch the
lookup takes. -/
theorem Best.snoc {dictionary : NumOf} {start prev wordEnd : Nat}
    {sub found : Bytes} (h : Best dictionary start prev sub found wordEnd)
    (c : UInt8) :
    Best dictionary start prev (sub ++ [c])
      (if (dictionary.lookup (sub ++ [c])).isSome then sub ++ [c] else found)
      (if (dictionary.lookup (sub ++ [c])).isSome then start + sub.length
        else wordEnd) := by
  split
  · next hit =>
      left
      refine ⟨longestPrefix_self (by simp) hit, ?_⟩
      simp only [List.length_append, List.length_singleton]
      omega
  · next miss =>
      -- The new prefix is no word, so the old answer stands.
      have hold : ∀ v ∈ wordSet dictionary, v <+: sub ++ [c] → v <+: sub := by
        intro v hv hp
        rcases List.prefix_concat_iff.mp hp with rfl | hp
        · exact absurd hv miss
        · exact hp
      rcases h with ⟨hl, hend⟩ | ⟨hs, hf, hend⟩
      · left
        exact ⟨⟨hl.ne_nil, hl.mem, hl.isPrefix.trans (List.prefix_append _ _),
          fun v hv hp => hl.maximal v hv (hold v hv hp)⟩, hend⟩
      · right
        exact ⟨fun v hv hp => hs v hv (hold v hv hp), hf, hend⟩

/-- More passes than enough change nothing. -/
theorem serializeLoop_mono {text seq : Bytes} {dictionary : NumOf} {fuel fuel' : Nat}
    {st : EncState} (h : serializeLoop text dictionary fuel st = some seq)
    (hle : fuel ≤ fuel') : serializeLoop text dictionary fuel' st = some seq := by
  induction fuel generalizing fuel' st with
  | zero => cases h
  | succ fuel ih =>
      obtain ⟨more, rfl⟩ : ∃ more, fuel' = more + 1 := ⟨fuel' - 1, by omega⟩
      rw [serializeLoop] at h ⊢
      cases hstep : serializeStep text dictionary st with
      | done seq' =>
          rw [hstep] at h
          exact h
      | next st' =>
          rw [hstep] at h
          exact ih h (by omega)

theorem serializeLoop_unique {text seq seq' : Bytes} {dictionary : NumOf}
    {fuel fuel' : Nat} {st : EncState}
    (h : serializeLoop text dictionary fuel st = some seq)
    (h' : serializeLoop text dictionary fuel' st = some seq') : seq = seq' := by
  have hmax := serializeLoop_mono h (Nat.le_max_left fuel fuel')
  rw [serializeLoop_mono h' (Nat.le_max_right fuel fuel')] at hmax
  exact (Option.some.inj hmax).symm

/-- What happens at the last character of a scan, with `fuel` passes left. -/
def scanEnd (text : Bytes) (dictionary : NumOf) (fuel : Nat) (seq found : Bytes)
    (wordEnd : Nat) : Option Bytes :=
  match dictionary.lookup found with
  | none => some seq
  | some num =>
      if wordEnd = text.length - 1 then some (seq ++ [intToChar num])
      else
        serializeLoop text dictionary fuel
          ⟨wordEnd + 1, [], [], wordEnd, seq ++ [intToChar num]⟩

/-- A scan reads the rest of the text, one pass per character, and ends with
the longest word the rest starts with. -/
theorem loop_scan {text : Bytes} {dictionary : NumOf} {prev : Nat} {pre : Bytes}
    (seq : Bytes) :
    ∀ (rest sub found : Bytes) (wordEnd : Nat), rest ≠ [] →
    text = pre ++ sub ++ rest →
    Best dictionary pre.length prev sub found wordEnd →
    ∃ found' wordEnd',
      Best dictionary pre.length prev (sub ++ rest) found' wordEnd' ∧
      ∀ fuel, serializeLoop text dictionary fuel
          ⟨pre.length + sub.length, sub, found, wordEnd, seq⟩ =
        if fuel < rest.length then none
        else scanEnd text dictionary (fuel - rest.length) seq found' wordEnd' := by
  intro rest
  induction rest with
  | nil => intro sub found wordEnd hne; exact absurd rfl hne
  | cons c rest ih =>
      intro sub found wordEnd _ htext hbest
      have hget : text[pre.length + sub.length]? = some c := by
        rw [htext, ← List.length_append, List.getElem?_append_right (by omega)]
        simp
      have hnext := hbest.snoc c
      cases rest with
      | nil =>
          -- The last character: the pass ends the scan.
          refine ⟨_, _, hnext, ?_⟩
          have hlast : pre.length + sub.length = text.length - 1 := by
            rw [htext]; simp
          intro fuel
          cases fuel with
          | zero => simp [serializeLoop]
          | succ fuel =>
              simp only [serializeLoop, serializeStep, hget, if_pos hlast, scanEnd,
                List.length_singleton, Nat.add_sub_cancel,
                if_neg (show ¬ fuel + 1 < 1 by omega)]
              generalize (if (dictionary.lookup (sub ++ [c])).isSome then
                pre.length + sub.length else wordEnd) = wordEnd'
              cases dictionary.lookup (if (dictionary.lookup (sub ++ [c])).isSome
                then sub ++ [c] else found) with
              | none => rfl
              | some num =>
                  simp only
                  by_cases hw : wordEnd' = text.length - 1
                  · rw [if_pos hw, if_pos hw]
                  · rw [if_neg hw, if_neg hw]
      | cons c' rest =>
          have hmid : ¬ pre.length + sub.length = text.length - 1 := by
            rw [htext]
            simp only [List.length_append, List.length_cons]
            omega
          obtain ⟨found', wordEnd', hbest', hloop⟩ :=
            ih (sub ++ [c]) _ _ (by simp) (by rw [htext]; simp) hnext
          refine ⟨found', wordEnd', by simpa using hbest', ?_⟩
          intro fuel
          cases fuel with
          | zero => simp [serializeLoop]
          | succ fuel =>
              have h := hloop fuel
              simp only [List.length_append, List.length_singleton,
                ← Nat.add_assoc] at h
              simp only [serializeLoop, serializeStep, hget, if_neg hmid, h,
                List.length_cons, Nat.add_lt_add_iff_right, Nat.reduceSubDiff]

/-- The state the `for` loop is in when a scan begins after the text `pre`. -/
def scanStart (pre : Bytes) (prev : Nat) (seq : Bytes) : EncState :=
  ⟨pre.length, [], [], prev, seq⟩

/-- A scan that starts with the longest word `w`: it is emitted, and the next
scan begins behind it. -/
theorem loop_word {text pre w rest seq : Bytes} {dictionary : NumOf} {prev : Nat}
    (hw : LongestPrefix (wordSet dictionary) (w ++ rest) w)
    (htext : text = pre ++ (w ++ rest)) (fuel : Nat) :
    serializeLoop text dictionary fuel (scanStart pre prev seq) =
      if fuel < (w ++ rest).length then none
      else if rest = [] then some (seq ++ [codeOf dictionary w])
      else serializeLoop text dictionary (fuel - (w ++ rest).length)
        (scanStart (pre ++ w) ((pre ++ w).length - 1)
          (seq ++ [codeOf dictionary w])) := by
  have hpos := List.length_pos_iff.mpr hw.ne_nil
  obtain ⟨found, wordEnd, hbest, hloop⟩ :=
    loop_scan seq (w ++ rest) [] [] prev (by simp [hw.ne_nil])
      (by simpa using htext) (best_nil dictionary pre.length prev)
  rcases hbest with ⟨hl, hend⟩ | ⟨hs, -, -⟩
  · obtain rfl := hw.unique (by simpa using hl)
    have hend' : wordEnd = (pre ++ w).length - 1 := by
      rw [List.length_append]; omega
    have hloop := hloop fuel
    simp only [List.length_nil, Nat.add_zero] at hloop
    rw [scanStart, hloop]
    split
    · rfl
    · obtain ⟨num, hnum⟩ := Option.isSome_iff_exists.mp hw.mem
      simp only [scanEnd, hnum]
      have hcode : codeOf dictionary w = intToChar num := by simp [codeOf, hnum]
      by_cases hrest : rest = []
      · rw [if_pos hrest, if_pos (by rw [htext, hend', hrest]; simp), hcode]
      · have hrpos := List.length_pos_iff.mpr hrest
        have hlt : ¬ wordEnd = text.length - 1 := by
          rw [htext, hend']
          simp only [List.length_append]
          omega
        rw [if_neg hrest, if_neg hlt, hcode, hend']
        have h1 : (pre ++ w).length - 1 + 1 = (pre ++ w).length := by
          rw [List.length_append]; omega
        rw [h1, scanStart]
  · exact absurd (by simpa using hs) hw.not_stuck

/-- A scan that gets stuck ends in the exception when the dictionary has no
blank line. -/
theorem loop_stuck {text pre rest seq : Bytes} {dictionary : NumOf} {prev : Nat}
    (hne : rest ≠ []) (hs : Stuck (wordSet dictionary) rest)
    (htext : text = pre ++ rest) (fuel : Nat) :
    serializeLoop text dictionary fuel (scanStart pre prev seq) =
      if fuel < rest.length then none
      else scanEnd text dictionary (fuel - rest.length) seq [] prev := by
  obtain ⟨found, wordEnd, hbest, hloop⟩ :=
    loop_scan seq rest [] [] prev hne (by simpa using htext)
      (best_nil dictionary pre.length prev)
  rcases hbest with ⟨hl, -⟩ | ⟨-, rfl, rfl⟩
  · exact absurd hs (by simpa using hl.not_stuck)
  · simpa [scanStart] using hloop fuel

/-- The encoder emits the words of the tokenisation, as long as the text is
used up or the empty word is not in the dictionary. -/
theorem loop_tokenises {text : Bytes} {dictionary : NumOf} {rest r : Bytes}
    {ws : List Bytes} (ht : Tokenises (wordSet dictionary) rest ws r)
    (hend : r = [] ∨ dictionary.lookup [] = none) :
    ∀ (pre seq : Bytes) (prev fuel : Nat), rest ≠ [] → text = pre ++ rest →
    (ws.length + 1) * rest.length ≤ fuel →
    serializeLoop text dictionary fuel (scanStart pre prev seq) =
      some (seq ++ ws.map (codeOf dictionary)) := by
  induction ht with
  | done => intro pre seq prev fuel hne; exact absurd rfl hne
  | stuck hne hs =>
      intro pre seq prev fuel _ htext hfuel
      rcases hend with h | hblank
      · exact absurd h hne
      · rw [loop_stuck hne hs htext, if_neg (by simpa using hfuel)]
        simp [scanEnd, hblank]
  | @word w rest r ws hw ht ih =>
      intro pre seq prev fuel _ htext hfuel
      have hpos := List.length_pos_iff.mpr hw.ne_nil
      simp only [List.length_cons, List.length_append] at hfuel
      have hmul : (ws.length + 1) * rest.length ≤
          (ws.length + 1) * (w.length + rest.length) :=
        Nat.mul_le_mul_left _ (by omega)
      have hsplit : (ws.length + 1 + 1) * (w.length + rest.length) =
          (ws.length + 1) * (w.length + rest.length) + (w.length + rest.length) := by
        ring
      rw [loop_word hw htext, if_neg (by rw [List.length_append]; omega)]
      by_cases hrest : rest = []
      · subst hrest
        obtain ⟨rfl, rfl⟩ := ht.nil_inv
        simp
      · rw [if_neg hrest, ih hend (pre ++ w) _ _ _ hrest (by rw [htext]; simp)
          (by rw [List.length_append]; omega)]
        simp

/-- The encoder's answer on a text it can use up, and on every text when the
dictionary has no blank line. -/
theorem serializeTextImpl_tokenises {text r : Bytes} {dictionary : NumOf}
    {ws : List Bytes} (ht : Tokenises (wordSet dictionary) text ws r)
    (hend : r = [] ∨ dictionary.lookup [] = none) :
    serializeTextImpl text dictionary = some (ws.map (codeOf dictionary)) := by
  by_cases hne : text = []
  · subst hne
    obtain ⟨rfl, -⟩ := ht.nil_inv
    rfl
  · have hle := Tokenises.length_le ht
    have hfuel : (ws.length + 1) * text.length ≤ encFuel text :=
      Nat.mul_le_mul (by omega) (by omega)
    have hrun := loop_tokenises ht hend [] [] 0 (encFuel text) hne rfl hfuel
    rwa [List.nil_append] at hrun

/-! ## With a blank line in the dictionary file -/

/-- Behind the first word, a text that gets stuck is scanned forever: the
blank word is emitted and the iterator goes back to where the scan began. -/
theorem loop_blank_diverges {text : Bytes} {dictionary : NumOf} {num : Int}
    (hblank : dictionary.lookup [] = some num) {rest r : Bytes} {ws : List Bytes}
    (ht : Tokenises (wordSet dictionary) rest ws r) (hr : r ≠ []) :
    ∀ (fuel : Nat) (pre seq : Bytes), pre ≠ [] → text = pre ++ rest →
    serializeLoop text dictionary fuel
      (scanStart pre (pre.length - 1) seq) = none := by
  induction ht with
  | done => exact absurd rfl hr
  | @stuck rest hne hs =>
      intro fuel
      induction fuel using Nat.strong_induction_on with
      | _ fuel ih =>
          intro pre seq hpre htext
          have hp := List.length_pos_iff.mpr hpre
          have hq := List.length_pos_iff.mpr hne
          rw [loop_stuck hne hs htext]
          split
          · rfl
          · have hmid : ¬ pre.length - 1 = text.length - 1 := by
              rw [htext, List.length_append]; omega
            simp only [scanEnd, hblank, if_neg hmid]
            rw [Nat.sub_add_cancel (by omega)]
            exact ih (fuel - rest.length) (by omega) pre _ hpre htext
  | @word w rest r ws hw ht ih =>
      intro fuel pre seq hpre htext
      rw [loop_word hw htext]
      split
      · rfl
      · split
        · next hrest =>
            subst hrest
            exact absurd ht.nil_inv.2 hr
        · exact ih hr _ (pre ++ w) _ (by simp [hpre]) (by rw [htext]; simp)

/-- With a blank line, a text that starts with no word loses its first
character to the blank word. -/
theorem loop_blank_start {dictionary : NumOf} {num : Int} {c : UInt8} {text : Bytes}
    (hblank : dictionary.lookup [] = some num)
    (hs : Stuck (wordSet dictionary) (c :: text)) (fuel : Nat) :
    serializeLoop (c :: text) dictionary fuel (scanStart [] 0 []) =
      if fuel < (c :: text).length then none
      else if text = [] then some [codeOf dictionary []]
      else serializeLoop (c :: text) dictionary (fuel - (c :: text).length)
        (scanStart [c] 0 [codeOf dictionary []]) := by
  have hcode : codeOf dictionary [] = intToChar num := by simp [codeOf, hblank]
  rw [loop_stuck (List.cons_ne_nil c text) hs (List.nil_append _).symm]
  split
  · rfl
  · simp only [scanEnd, hblank, List.nil_append]
    rw [hcode]
    by_cases htext : text = []
    · subst htext
      rw [if_pos rfl, if_pos (by rfl)]
    · have hpos := List.length_pos_iff.mpr htext
      rw [if_neg htext, if_neg (by rw [List.length_cons]; omega)]
      rfl

/-- Everything the encoder can answer, with any number of passes: the words of
the tokenisation where that uses the text up or no blank line is in the way,
and otherwise the blank word in place of the first character and the words of
the rest. -/
theorem serializeLoop_cases {text seq : Bytes} {dictionary : NumOf} {fuel : Nat}
    (h : serializeLoop text dictionary fuel (scanStart [] 0 []) = some seq) :
    (∃ ws r, Tokenises (wordSet dictionary) text ws r ∧
      (r = [] ∨ dictionary.lookup [] = none) ∧ seq = ws.map (codeOf dictionary)) ∨
    (∃ c rest ws, text = c :: rest ∧ [] ∈ wordSet dictionary ∧
      Stuck (wordSet dictionary) text ∧ Tokenises (wordSet dictionary) rest ws [] ∧
      seq = codeOf dictionary [] :: ws.map (codeOf dictionary)) := by
  obtain ⟨ws, r, ht⟩ := Tokenises.exists (wordSet dictionary) text
  by_cases hend : r = [] ∨ dictionary.lookup [] = none
  · refine Or.inl ⟨ws, r, ht, hend, ?_⟩
    by_cases hne : text = []
    · subst hne
      obtain ⟨rfl, -⟩ := ht.nil_inv
      cases fuel with
      | zero => cases h
      | succ fuel => cases h; rfl
    · exact serializeLoop_unique h
        (loop_tokenises ht hend [] [] 0 _ hne rfl (Nat.le_refl _))
  · rw [not_or] at hend
    obtain ⟨hr, hblank⟩ := hend
    obtain ⟨num, hblank⟩ := Option.ne_none_iff_exists'.mp hblank
    cases ht with
    | done => exact absurd rfl hr
    | stuck hne hs =>
        obtain ⟨c, rest, rfl⟩ := List.exists_cons_of_ne_nil hne
        refine Or.inr ⟨c, rest, ?_⟩
        rw [loop_blank_start hblank hs] at h
        split at h
        · cases h
        · split at h
          · next hrest =>
              subst hrest
              cases h
              exact ⟨[], rfl, by simp [wordSet, hblank], hs, .done, rfl⟩
          · next hrest =>
              obtain ⟨ws, r, ht⟩ := Tokenises.exists (wordSet dictionary) rest
              by_cases hr : r = []
              · subst hr
                refine ⟨ws, rfl, by simp [wordSet, hblank], hs, ht, ?_⟩
                exact serializeLoop_unique h (loop_tokenises ht (Or.inl rfl) [c]
                  [codeOf dictionary []] 0 _ hrest rfl (Nat.le_refl _))
              · have hnone : serializeLoop (c :: rest) dictionary
                    (fuel - (c :: rest).length)
                    (scanStart [c] 0 [codeOf dictionary []]) = none :=
                  loop_blank_diverges hblank ht hr _ [c] _ (List.cons_ne_nil c []) rfl
                rw [hnone] at h
                cases h
    | @word w rest r ws hw ht =>
        rw [loop_word hw (List.nil_append _).symm] at h
        split at h
        · cases h
        · split at h
          · next hrest =>
              subst hrest
              exact absurd ht.nil_inv.2 hr
          · have hnone : serializeLoop (w ++ rest) dictionary
                (fuel - (w ++ rest).length)
                (scanStart w (w.length - 1) [codeOf dictionary w]) = none :=
              loop_blank_diverges hblank ht hr _ w _ hw.ne_nil rfl
            simp only [List.nil_append] at h
            rw [hnone] at h
            cases h

end Playspace.Citbrains
