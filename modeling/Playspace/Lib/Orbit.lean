import Mathlib.Data.Finset.Card
import Mathlib.Data.Nat.Find
import Mathlib.Logic.Function.Iterate

/-!
# How long an orbit stays in a set

A point that is moved by a function over and over either stays in a set for ever
or leaves it at one moment (`forall_mem_or_firstLeaves`). No point of the set is
met twice before that, since from there the orbit would go round, so a finite set
is left within as many moves as it has elements (`FirstLeaves.le_card`).
-/

namespace Playspace.Lib

variable {α : Type*} {f : α → α} {S : Set α} {a : α}

/-- The orbit of `a` is in `S` for `m` moments and then is not. -/
structure FirstLeaves (f : α → α) (S : Set α) (a : α) (m : ℕ) : Prop where
  inside : ∀ j < m, f^[j] a ∈ S
  outside : f^[m] a ∉ S

theorem forall_mem_or_firstLeaves (f : α → α) (S : Set α) (a : α) :
    (∀ j, f^[j] a ∈ S) ∨ ∃ m, FirstLeaves f S a m := by
  classical
  by_cases h : ∃ m, f^[m] a ∉ S
  · exact .inr ⟨Nat.find h, fun j hj => not_not.mp (Nat.find_min h hj), Nat.find_spec h⟩
  · push Not at h
    exact .inl h

theorem firstLeaves_zero : FirstLeaves f S a 0 ↔ a ∉ S :=
  ⟨fun h => h.outside, fun h => ⟨fun _ hj => absurd hj (Nat.not_lt_zero _), h⟩⟩

theorem firstLeaves_succ {m : ℕ} :
    FirstLeaves f S a (m + 1) ↔ a ∈ S ∧ FirstLeaves f S (f a) m := by
  constructor
  · intro h
    exact ⟨h.inside 0 (Nat.succ_pos m),
      fun j hj => h.inside (j + 1) (Nat.succ_lt_succ hj), h.outside⟩
  · rintro ⟨ha, h⟩
    refine ⟨fun j hj => ?_, h.outside⟩
    cases j with
    | zero => exact ha
    | succ j => exact h.inside j (Nat.lt_of_succ_lt_succ hj)

namespace FirstLeaves

variable {m n : ℕ}

theorem unique (h : FirstLeaves f S a m) (h' : FirstLeaves f S a n) : m = n := by
  rcases Nat.lt_trichotomy m n with hlt | heq | hgt
  · exact absurd (h'.inside m hlt) h.outside
  · exact heq
  · exact absurd (h.inside n hgt) h'.outside

/-- Two equal points before the end would carry the last one back into the set. -/
theorem injOn (h : FirstLeaves f S a m) {i j : ℕ} (hij : i < j) (hj : j < m) :
    f^[i] a ≠ f^[j] a := by
  intro heq
  have hlast : f^[m - j + i] a = f^[m] a := by
    rw [Function.iterate_add_apply, heq, ← Function.iterate_add_apply,
      Nat.sub_add_cancel hj.le]
  exact h.outside (hlast ▸ h.inside (m - j + i) (by omega))

theorem le_card {s : Finset α} (h : FirstLeaves f s a m) : m ≤ s.card := by
  have hcard := Finset.card_le_card_of_injOn (s := Finset.range m) (t := s)
    (fun j => f^[j] a) (fun j hj => h.inside j (Finset.mem_range.mp hj)) ?_
  · rwa [Finset.card_range] at hcard
  · intro i hi j hj heq
    rcases Nat.lt_trichotomy i j with hlt | hsame | hgt
    · exact absurd heq (h.injOn hlt (Finset.mem_range.mp hj))
    · exact hsame
    · exact absurd heq.symm (h.injOn hgt (Finset.mem_range.mp hi))

end FirstLeaves

end Playspace.Lib
