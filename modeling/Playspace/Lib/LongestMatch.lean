import Mathlib.Data.List.Basic
import Mathlib.Data.Set.Basic
import Mathlib.Tactic

/-!
# Longest-match tokenisation

A dictionary is a set of words over any alphabet. `LongestPrefix` picks the
longest non-empty word a text starts with, `Tokenises` repeats that until the
text is used up or no word fits. The judgment is total and functional, so it
is a reference tokeniser without being a program: an implementation is right
when it computes the one answer the judgment has.

Greedy and complete are different things. A text that *is* a concatenation of
words may still get stuck, because a long word can swallow the head of the
next one; `tokenises_of_prefixFree` is the classical condition under which
that never happens.
-/

namespace Playspace.Lib

variable {α : Type*} {D : Set (List α)}

/-- The longest non-empty word of `D` that `text` starts with. -/
structure LongestPrefix (D : Set (List α)) (text w : List α) : Prop where
  ne_nil : w ≠ []
  mem : w ∈ D
  isPrefix : w <+: text
  maximal : ∀ v ∈ D, v <+: text → v.length ≤ w.length

/-- No non-empty word of `D` starts `text`. -/
def Stuck (D : Set (List α)) (text : List α) : Prop :=
  ∀ v ∈ D, v <+: text → v = []

theorem LongestPrefix.not_stuck {text w : List α} (h : LongestPrefix D text w) :
    ¬ Stuck D text :=
  fun hs => h.ne_nil (hs w h.mem h.isPrefix)

theorem LongestPrefix.unique {text w w' : List α} (h : LongestPrefix D text w)
    (h' : LongestPrefix D text w') : w = w' := by
  have h1 := h.maximal w' h'.mem h'.isPrefix
  have h2 := h'.maximal w h.mem h.isPrefix
  have hp := List.prefix_of_prefix_length_le h.isPrefix h'.isPrefix h2
  exact hp.eq_of_length (by omega)

/-- A word is its own longest prefix. -/
theorem longestPrefix_self {w : List α} (hne : w ≠ []) (hw : w ∈ D) :
    LongestPrefix D w w :=
  ⟨hne, hw, List.prefix_rfl, fun _ _ hp => hp.length_le⟩

/-- Cutting the text somewhere behind its longest word leaves it the longest. -/
theorem LongestPrefix.cut {text text' w : List α} (h : LongestPrefix D text w)
    (hw : w <+: text') (hcut : text' <+: text) : LongestPrefix D text' w :=
  ⟨h.ne_nil, h.mem, hw, fun v hv hp => h.maximal v hv (hp.trans hcut)⟩

/-- `Tokenises D text ws r`: taking the longest word each time reads the words
`ws` off `text` and leaves `r`, which is empty or starts with no word. -/
inductive Tokenises (D : Set (List α)) :
    List α → List (List α) → List α → Prop
  | done : Tokenises D [] [] []
  | stuck {text : List α} (hne : text ≠ []) (hs : Stuck D text) :
      Tokenises D text [] text
  | word {w rest r : List α} {ws : List (List α)}
      (hw : LongestPrefix D (w ++ rest) w) (ht : Tokenises D rest ws r) :
      Tokenises D (w ++ rest) (w :: ws) r

theorem Tokenises.flatten {text r : List α} {ws : List (List α)}
    (h : Tokenises D text ws r) : ws.flatten ++ r = text := by
  induction h with
  | done => rfl
  | stuck _ _ => rfl
  | word _ _ ih => rw [List.flatten_cons, List.append_assoc, ih]

/-- What holds of every longest prefix holds of every word. -/
theorem Tokenises.forall_words {P : List α → Prop} {text r : List α} {ws : List (List α)}
    (hP : ∀ text w, LongestPrefix D text w → P w) (h : Tokenises D text ws r) :
    ∀ w ∈ ws, P w := by
  induction h with
  | done => simp
  | stuck _ _ => simp
  | word hw _ ih =>
      intro v hv
      rcases List.mem_cons.mp hv with rfl | hv
      · exact hP _ v hw
      · exact ih v hv

theorem Tokenises.mem {text r : List α} {ws : List (List α)}
    (h : Tokenises D text ws r) : ∀ w ∈ ws, w ∈ D :=
  h.forall_words fun _ _ hw => hw.mem

theorem Tokenises.ne_nil {text r : List α} {ws : List (List α)}
    (h : Tokenises D text ws r) : ∀ w ∈ ws, w ≠ [] :=
  h.forall_words fun _ _ hw => hw.ne_nil

theorem Tokenises.length_le {text r : List α} {ws : List (List α)}
    (h : Tokenises D text ws r) : ws.length ≤ text.length := by
  induction h with
  | done => exact Nat.le_refl _
  | stuck _ _ => exact Nat.zero_le _
  | word hw _ ih =>
      have hpos := List.length_pos_iff.mpr hw.ne_nil
      rw [List.length_cons, List.length_append]
      omega

theorem Tokenises.nil_inv {r : List α} {ws : List (List α)}
    (h : Tokenises D [] ws r) : ws = [] ∧ r = [] := by
  generalize ht : ([] : List α) = text at h
  cases h with
  | done => exact ⟨rfl, rfl⟩
  | stuck hne _ => exact absurd ht.symm hne
  | word hw _ =>
      have := List.append_eq_nil_iff.mp ht.symm
      exact absurd this.1 hw.ne_nil

/-- The tokenisation of a text is unique. -/
theorem Tokenises.unique {text r : List α} {ws : List (List α)}
    (h : Tokenises D text ws r) :
    ∀ {ws' : List (List α)} {r' : List α}, Tokenises D text ws' r' →
      ws = ws' ∧ r = r' := by
  induction h with
  | done =>
      intro ws' r' h'
      obtain ⟨rfl, rfl⟩ := h'.nil_inv
      exact ⟨rfl, rfl⟩
  | stuck hne hs =>
      intro ws' r' h'
      cases h' with
      | done => exact absurd rfl hne
      | stuck _ _ => exact ⟨rfl, rfl⟩
      | word hw _ => exact absurd hs hw.not_stuck
  | @word w rest r ws hw _ ih =>
      intro ws' r' h'
      generalize ht : w ++ rest = text at h'
      cases h' with
      | done => exact absurd (List.append_eq_nil_iff.mp ht).1 hw.ne_nil
      | stuck _ hs => exact absurd (ht ▸ hs) hw.not_stuck
      | @word w' rest' _ ws' hw' ht' =>
          rw [← ht] at hw'
          have hww := hw.unique hw'
          subst hww
          have hrest := List.append_cancel_left ht
          subst hrest
          obtain ⟨rfl, rfl⟩ := ih ht'
          exact ⟨rfl, rfl⟩

/-- A text cut where its tokenisation ends is read as the same words, and used
up by them: what comes behind a word can only add to the matches there are. -/
theorem Tokenises.cut {text r : List α} {ws : List (List α)}
    (h : Tokenises D text ws r) : Tokenises D ws.flatten ws [] := by
  induction h with
  | done => exact .done
  | stuck _ _ => exact .done
  | @word w rest r ws hw ht ih =>
      have hcut : w ++ ws.flatten <+: w ++ rest := by
        rw [List.prefix_append_right_inj, ← ht.flatten]
        exact List.prefix_append ws.flatten r
      rw [List.flatten_cons]
      exact .word (hw.cut (List.prefix_append w ws.flatten) hcut) ih

/-- A text either starts with a longest word or is stuck. -/
theorem exists_longestPrefix_or_stuck (D : Set (List α)) (text : List α) :
    (∃ w, LongestPrefix D text w) ∨ Stuck D text := by
  classical
  by_cases hs : Stuck D text
  · exact Or.inr hs
  · left
    simp only [Stuck, not_forall] at hs
    obtain ⟨v, hv, hp, hne⟩ := hs
    -- The lengths of the matching words are bounded by the text's own.
    have hex : ∃ n, ∃ w ∈ D, w <+: text ∧ w.length = text.length - n :=
      ⟨text.length - v.length, v, hv, hp, by have := hp.length_le; omega⟩
    obtain ⟨w, hw, hpw, hlen⟩ := Nat.find_spec hex
    have hmax : ∀ u ∈ D, u <+: text → u.length ≤ w.length := by
      intro u hu hpu
      have hle := hpu.length_le
      have := Nat.find_min' hex ⟨u, hu, hpu,
        (by omega : u.length = text.length - (text.length - u.length))⟩
      omega
    refine ⟨w, ?_, hw, hpw, hmax⟩
    rintro rfl
    have := hmax v hv hp
    exact hne (List.length_eq_zero_iff.mp (by simpa using this))

/-- Every text has a tokenisation. -/
theorem Tokenises.exists (D : Set (List α)) (text : List α) :
    ∃ ws r, Tokenises D text ws r := by
  induction hn : text.length using Nat.strong_induction_on generalizing text with
  | _ n ih =>
      rcases eq_or_ne text [] with rfl | hne
      · exact ⟨[], [], .done⟩
      · rcases exists_longestPrefix_or_stuck D text with ⟨w, hw⟩ | hs
        · obtain ⟨rest, rfl⟩ := hw.isPrefix
          have hpos := List.length_pos_iff.mpr hw.ne_nil
          have hlt : rest.length < n := by
            rw [← hn, List.length_append]; omega
          obtain ⟨ws, r, ht⟩ := ih rest.length hlt rest rfl
          exact ⟨w :: ws, r, .word hw ht⟩
        · exact ⟨[], text, .stuck hne hs⟩

/-- A single word is read as itself. -/
theorem tokenises_word {w : List α} (hne : w ≠ []) (hw : w ∈ D) :
    Tokenises D w [w] [] := by
  have h : LongestPrefix D (w ++ []) w := by
    rw [List.append_nil]; exact longestPrefix_self hne hw
  have ht := Tokenises.word h .done
  rwa [List.append_nil] at ht

/-- Over a dictionary where no word starts another, every concatenation of
words is read back word by word. -/
theorem tokenises_of_prefixFree
    (hfree : ∀ v ∈ D, ∀ w ∈ D, v <+: w → v = w) (hne : [] ∉ D) :
    ∀ {ws : List (List α)}, (∀ w ∈ ws, w ∈ D) → Tokenises D ws.flatten ws [] := by
  intro ws
  induction ws with
  | nil => intro _; exact .done
  | cons w ws ih =>
      intro hws
      have hw : w ∈ D := hws w (by simp)
      refine .word ⟨fun h => hne (h ▸ hw), hw, List.prefix_append _ _, ?_⟩
        (ih fun v hv => hws v (by simp [hv]))
      intro v hv hp
      rcases List.prefix_or_prefix_of_prefix hp (List.prefix_append w ws.flatten)
        with h | h
      · exact h.length_le
      · rw [hfree w hw v hv h]

end Playspace.Lib
