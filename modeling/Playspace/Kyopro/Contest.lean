import Playspace.Kyopro.Template

/-!
# The short contest programs

Each reads one small input and prints one answer; what is modelled is the way
from the one to the other. A Haskell `Integer` is an `Int` with `div` and `mod`
rounding down, an `int64_t` an `Int` that has to fit.
-/

namespace Playspace.Kyopro

/-! ## `B-Ancestor.cpp` -/

namespace Ancestor

inductive Fault where
  | outOfRange
  | overflow
deriving DecidableEq, Repr

/-- `p[i]`, for which `i` becomes a `size_t`. -/
def subscript (p : List Int) (i : Int) : Except Fault Int :=
  match p[(i % 2 ^ 64).toNat]? with
  | some entry => .ok entry
  | none => .error .outOfRange

/-- The `while (true)` of `main`. It does not end on a tree with a cycle, but for
the counter, which is full one day. -/
def climb (p : List Int) (child ans : Int) : Except Fault Int := do
  let parent ← subscript p (child - 2)
  if _ : FitsLl (ans + 1) then
    if parent < 2 then return ans + 1
    else climb p parent (ans + 1)
  else .error .overflow
termination_by (2 ^ 63 - ans).toNat
decreasing_by
  have hfits := ‹FitsLl (ans + 1)›.2
  omega

/-- What `main` prints once it has read `N` and the parents of 2 to `N`. -/
def main (N : Int) (p : List Int) : Except Fault Int := climb p N 0

end Ancestor

/-! ## `A-UniqueLetter.hs` -/

namespace UniqueLetter

def solve : List Char → List Char
  | [] => ['-', '1']
  | first :: rest =>
      let str := first :: rest
      if (str.filter (· = first)).length = 1 then [first]
      else solve (str.filter (· ≠ first))
termination_by str => str.length
decreasing_by
  simp only [ne_eq, not_true_eq_false, decide_false, Bool.false_eq_true, not_false_eq_true,
    List.filter_cons_of_neg, List.length_cons]
  exact Nat.lt_succ_of_le (List.length_filter_le _ _)

end UniqueLetter

/-! ## `A-FullHouse.hs` -/

namespace FullHouse

/-- `head` and `last` are taken for each card there is, so never of no cards. -/
def main (tmp : List Int) : String :=
  let list := tmp.insertionSort (· ≤ ·)
  let a := (list.filter (fun num => list.head? = some num)).length
  let b := (list.filter (fun num => list.getLast? = some num)).length
  if a * b = 6 then "Yes" else "No"

end FullHouse

/-! ## `A-Apple.hs` -/

namespace Apple

/-- The number that is printed. -/
def main (a b n : Int) : Int :=
  if a < b.fdiv 3 then a * n else b * n.fdiv 3 + a * n.fmod 3

end Apple

end Playspace.Kyopro
