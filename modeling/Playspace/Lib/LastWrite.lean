import Mathlib.Data.List.Basic

/-!
# The last value written to a cell

A cell that every write either replaces or leaves alone holds, after any list
of writes, what the last one that had a value for it brought. `latest` is that
value, read off the list backwards with no mention of a cell; `read_foldl` is
the rule that a fold computes it, one projection of the state at a time.
-/

namespace Playspace.Lib

variable {α β γ σ : Type*}

/-- What the last element of `xs` with a value under `f` has, `init` if none. -/
def latest (f : α → Option β) (init : β) (xs : List α) : β :=
  (xs.reverse.findSome? f).getD init

@[simp] theorem latest_nil (f : α → Option β) (init : β) : latest f init [] = init :=
  rfl

theorem latest_append (f : α → Option β) (init : β) (xs ys : List α) :
    latest f init (xs ++ ys) = latest f (latest f init xs) ys := by
  unfold latest
  rw [List.reverse_append, List.findSome?_append]
  cases ys.reverse.findSome? f with
  | none => rw [Option.none_or, Option.getD_none]
  | some b => rw [Option.some_or, Option.getD_some, Option.getD_some]

@[simp] theorem latest_cons (f : α → Option β) (init : β) (a : α) (xs : List α) :
    latest f init (a :: xs) = latest f ((f a).getD init) xs := by
  rw [← List.singleton_append, latest_append]
  congr 1
  unfold latest
  cases h : f a with
  | none => simp [h]
  | some b => simp [h]

@[simp] theorem latest_concat (f : α → Option β) (init : β) (xs : List α) (a : α) :
    latest f init (xs ++ [a]) = (f a).getD (latest f init xs) := by
  rw [latest_append, latest_cons, latest_nil]

theorem map_latest (g : β → γ) (f : α → Option β) (init : β) (xs : List α) :
    g (latest f init xs) = latest (fun a => (f a).map g) (g init) xs := by
  induction xs generalizing init with
  | nil => rfl
  | cons a xs ih =>
      rw [latest_cons, latest_cons, ih]
      cases f a with
      | none => rfl
      | some b => rfl

/-- A projection that every step overwrites or keeps ends with the latest
value it was given. -/
theorem read_foldl {step : σ → α → σ} {read : σ → β} {f : α → Option β}
    (h : ∀ s a, read (step s a) = (f a).getD (read s)) (s : σ) (xs : List α) :
    read (xs.foldl step s) = latest f (read s) xs := by
  induction xs generalizing s with
  | nil => rfl
  | cons a xs ih => rw [List.foldl_cons, latest_cons, ih, h]

end Playspace.Lib
