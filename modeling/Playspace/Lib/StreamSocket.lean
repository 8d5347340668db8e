import Mathlib.Algebra.BigOperators.Group.List.Basic
import Mathlib.Algebra.Ring.Nat
import Mathlib.Data.List.Basic

/-!
# One direction of a stream socket

A stream socket keeps what one end wrote until the other end reads it. What all
systems agree on is `StreamSocket`: the elements come out as they went in, a
write moves a first part of its data and a read a first part of what is there,
and a read can return whenever there is something. Which part it is, and whether
a writer that waits has been woken, is up to the system: an operation takes the
system's choice as an argument, and what a choice means is the socket's affair.

How much a socket holds is not one number: it depends on how the data was cut
into writes, on what is charged for each, and on when a waiting writer is woken.
So `TakesBelow` and `HoldsAtMost` are all that is said about it, and both are
named where a result needs them. `charging` is a socket of the usual kind, which
charges every write for its bookkeeping.
-/

namespace Playspace.Lib

universe u

structure StreamSocket (α : Type u) where
  State : Type u
  empty : State
  content : State → List α
  /-- How many elements of the data are written. -/
  write : State → List α → ℕ → Option (ℕ × State)
  /-- What is read into a buffer of the size. -/
  read : State → ℕ → ℕ → Option (List α × State)
  content_empty : content empty = []
  write_some : ∀ {s s' data choice n}, write s data choice = some (n, s') →
    1 ≤ n ∧ n ≤ data.length ∧ content s' = content s ++ data.take n
  read_some : ∀ {s s' size choice got}, read s size choice = some (got, s') →
    got ≠ [] ∧ got.length ≤ size ∧ content s = got ++ content s'
  read_ready : ∀ {s size}, content s ≠ [] → 1 ≤ size →
    ∃ choice got s', read s size choice = some (got, s')

namespace StreamSocket

variable {α : Type u} (K : StreamSocket α)

/-- The writer has to wait. -/
def Refuses (s : K.State) (data : List α) : Prop :=
  ∀ choice, K.write s data choice = none

/-- A socket that holds fewer than `low` elements takes at least one more. -/
def TakesBelow (low : ℕ) : Prop :=
  ∀ s data, (K.content s).length < low → data ≠ [] → ¬ K.Refuses s data

/-- However it was filled, the socket holds no more than `high` elements. -/
def HoldsAtMost (high : ℕ) : Prop :=
  ∀ s, (K.content s).length ≤ high

variable {K}

theorem TakesBelow.le_of_refuses {low : ℕ} (h : K.TakesBelow low) {s : K.State}
    {data : List α} (hne : data ≠ []) (hrefuses : K.Refuses s data) :
    low ≤ (K.content s).length := by
  by_contra hlt
  exact h s data (Nat.lt_of_not_le hlt) hne hrefuses

theorem TakesBelow.mono {low low' : ℕ} (h : K.TakesBelow low) (hle : low' ≤ low) :
    K.TakesBelow low' :=
  fun s data hlt => h s data (Nat.lt_of_lt_of_le hlt hle)

end StreamSocket

/-! ## A socket that charges for its writes -/

/-- What is left of each write, with the size it had. -/
abbrev Parts (α : Type u) : Type u :=
  List (List α × ℕ)

namespace Parts

variable {α : Type u}

def content (parts : Parts α) : List α :=
  parts.flatMap Prod.fst

/-- What the writes are charged that are not read to their ends. -/
def charged (charge : ℕ → ℕ) (parts : Parts α) : ℕ :=
  (parts.map fun p => charge p.2).sum

/-- A write is forgotten when its last element is read. -/
def consume : ℕ → Parts α → Parts α
  | _, [] => []
  | n, (left, size) :: parts =>
      if left.length ≤ n then consume (n - left.length) parts
      else (left.drop n, size) :: parts

theorem content_consume (n : ℕ) (parts : Parts α) :
    (consume n parts).content = parts.content.drop n := by
  induction parts generalizing n with
  | nil => simp [consume, content]
  | cons p parts ih =>
      obtain ⟨left, size⟩ := p
      have hcons : content ((left, size) :: parts) = left ++ content parts := rfl
      rw [consume, hcons, List.drop_append]
      split
      · next hle => rw [ih, List.drop_eq_nil_of_le hle, List.nil_append]
      · next hlt =>
          rw [Nat.sub_eq_zero_of_le (Nat.le_of_not_le hlt), List.drop_zero]
          rfl

/-- Every write has something left, and was no longer than `piece`. -/
def Live (piece : ℕ) (parts : Parts α) : Prop :=
  ∀ p ∈ parts, p.1 ≠ [] ∧ p.1.length ≤ p.2 ∧ p.2 ≤ piece

theorem Live.consume {piece : ℕ} {parts : Parts α} (h : Live piece parts) (n : ℕ) :
    Live piece (consume n parts) := by
  induction parts generalizing n with
  | nil => exact h
  | cons p parts ih =>
      obtain ⟨left, size⟩ := p
      obtain ⟨⟨hne, hle, hpiece⟩, hparts⟩ := List.forall_mem_cons.mp h
      rw [Parts.consume]
      split
      · exact ih hparts _
      · next hlt =>
          refine List.forall_mem_cons.mpr ⟨⟨?_, ?_, hpiece⟩, hparts⟩
          · rw [← List.length_pos_iff, List.length_drop]
            omega
          · rw [List.length_drop]
            exact Nat.le_trans (Nat.sub_le _ _) hle

theorem sum_consume_le (n : ℕ) (parts : Parts α) :
    ((consume n parts).map Prod.snd).sum ≤ (parts.map Prod.snd).sum := by
  induction parts generalizing n with
  | nil => exact Nat.le_refl _
  | cons p parts ih =>
      obtain ⟨left, size⟩ := p
      rw [consume]
      split
      · exact Nat.le_trans (ih _) (Nat.le_add_left _ _)
      · exact Nat.le_refl _

theorem Live.length_content_le {piece : ℕ} {parts : Parts α} (h : Live piece parts) :
    parts.content.length ≤ (parts.map Prod.snd).sum := by
  induction parts with
  | nil => exact Nat.le_refl _
  | cons p parts ih =>
      obtain ⟨⟨-, hle, -⟩, hparts⟩ := List.forall_mem_cons.mp h
      have := ih hparts
      simp only [content, List.flatMap_cons, List.length_append, List.map_cons,
        List.sum_cons] at this ⊢
      omega

/-- Few elements are few writes, and so a small charge. -/
theorem Live.charged_le {charge : ℕ → ℕ} {piece most : ℕ}
    (hcharge : ∀ n ≤ piece, charge n ≤ most) {parts : Parts α} (h : Live piece parts) :
    charged charge parts ≤ parts.content.length * most := by
  induction parts with
  | nil => exact Nat.zero_le _
  | cons p parts ih =>
      obtain ⟨⟨hne, -, hpiece⟩, hparts⟩ := List.forall_mem_cons.mp h
      have hpos := List.length_pos_iff.mpr hne
      calc charged charge (p :: parts)
          = charge p.2 + charged charge parts := rfl
        _ ≤ 1 * most + (content parts).length * most := by
            rw [Nat.one_mul]
            exact Nat.add_le_add (hcharge p.2 hpiece) (ih hparts)
        _ ≤ p.1.length * most + (content parts).length * most :=
            Nat.add_le_add_right (Nat.mul_le_mul_right most hpos) _
        _ = (content (p :: parts)).length * most := by
            simp only [content, List.flatMap_cons, List.length_append, Nat.add_mul]

theorem sum_le_charged {charge : ℕ → ℕ} (hcharge : ∀ n, n ≤ charge n) (parts : Parts α) :
    (parts.map Prod.snd).sum ≤ charged charge parts := by
  induction parts with
  | nil => exact Nat.le_refl _
  | cons p parts ih => exact Nat.add_le_add (hcharge p.2) ih

end Parts

/-- The state of a socket that takes a write, of `piece` elements at most, as long
as its charges are below `limit`. -/
structure Charging (α : Type u) (piece limit : ℕ) where
  parts : Parts α
  live : parts.Live piece
  bounded : (parts.map Prod.snd).sum ≤ limit + piece

namespace StreamSocket

variable (α : Type u) (charge : ℕ → ℕ) (piece limit : ℕ) (hcharge : ∀ n, n ≤ charge n)

/-- The choice is the number of elements. -/
def charging : StreamSocket α where
  State := Charging α piece limit
  empty := ⟨[], fun _ hp => absurd hp List.not_mem_nil, Nat.zero_le _⟩
  content s := s.parts.content
  write s data n :=
    if h : 1 ≤ n ∧ n ≤ data.length ∧ n ≤ piece ∧ s.parts.charged charge < limit then
      some (n, {
        parts := s.parts ++ [(data.take n, n)]
        live := by
          refine List.forall_mem_append.mpr ⟨s.live, List.forall_mem_singleton.mpr ⟨?_, ?_⟩⟩
          · rw [← List.length_pos_iff, List.length_take]
            omega
          · exact ⟨List.length_take_le _ _, h.2.2.1⟩
        bounded := by
          have := Parts.sum_le_charged hcharge s.parts
          simp only [List.map_append, List.sum_append, List.map_singleton,
            List.sum_singleton]
          omega })
    else none
  read s size n :=
    if 1 ≤ n ∧ n ≤ size ∧ n ≤ s.parts.content.length then
      some (s.parts.content.take n, ⟨s.parts.consume n, s.live.consume n,
        Nat.le_trans (Parts.sum_consume_le n s.parts) s.bounded⟩)
    else none
  content_empty := rfl
  write_some h := by
    split at h
    · next hn =>
        cases h
        refine ⟨hn.1, hn.2.1, ?_⟩
        simp only [Parts.content, List.flatMap_append, List.flatMap_singleton]
    · cases h
  read_some h := by
    split at h
    · next hn =>
        cases h
        refine ⟨?_, ?_, ?_⟩
        · rw [← List.length_pos_iff, List.length_take]
          omega
        · exact Nat.le_trans (List.length_take_le _ _) hn.2.1
        · rw [Parts.content_consume, List.take_append_drop]
    · cases h
  read_ready hne hsize := by
    refine ⟨1, _, _, if_pos ⟨Nat.le_refl 1, hsize, ?_⟩⟩
    exact List.length_pos_iff.mpr hne

variable {α charge piece limit}

/-- As many elements as can be in writes whose charges stay below the limit. -/
theorem takesBelow_charging {most low : ℕ} (hmost : ∀ n ≤ piece, charge n ≤ most)
    (hpiece : 1 ≤ piece) (hlow : (low - 1) * most < limit) :
    (charging α charge piece limit hcharge).TakesBelow low := by
  intro s data hlt hne hrefuses
  have hroom : s.parts.charged charge < limit := by
    refine Nat.lt_of_le_of_lt (s.live.charged_le hmost) (Nat.lt_of_le_of_lt ?_ hlow)
    exact Nat.mul_le_mul_right most (Nat.le_sub_one_of_lt hlt)
  have hnone := hrefuses 1
  simp only [charging] at hnone
  rw [dif_pos ⟨Nat.le_refl 1, List.length_pos_iff.mpr hne, hpiece, hroom⟩] at hnone
  cases hnone

theorem holdsAtMost_charging :
    (charging α charge piece limit hcharge).HoldsAtMost (limit + piece) :=
  fun s => Nat.le_trans s.live.length_content_le s.bounded

end StreamSocket

end Playspace.Lib
