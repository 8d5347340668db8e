/-!
# Pascal's triangle of `B-PracticalComputing.hs`

An `Int` has 64 bits and wraps. `solve` calls itself with `n - 1` and has no
equation for what is below 0, so a negative `n` never ends, and `n` is a `Nat`
here. Where the program would stop with an exception, and with which, is the
error of an `Except`; all of a result is looked at, so it does not matter that
the program is lazy.
-/

namespace Playspace.Kyopro

/-- How an evaluation ends without a value. -/
inductive Exception where
  | errorCall (message : String)
  | patternMatchFail
  | emptyList
deriving DecidableEq, Repr

/-- `Prelude.head`. -/
def head {α : Type} : List α → Except Exception α
  | [] => .error .emptyList
  | x :: _ => .ok x

/-- The guard `null last` has gone by where `head last` is taken. -/
def generatebinom : List Int64 → List Int64
  | h1 :: last =>
      match last with
      | [] => [1]
      | next :: _ => [h1 + next] ++ generatebinom last
  | [] => [1]

/-- The newest row first. -/
def solve : Nat → Except Exception (List (List Int64))
  | 0 => .error (.errorCall "input 0 is not allowed")
  | 1 => .ok [[1]]
  | 2 => do
      let rows ← solve 1
      return [[1, 1]] ++ rows
  | n + 3 => do
      let newest ← solve (n + 2) >>= head
      let rows ← solve (n + 2)
      return [[1] ++ generatebinom newest] ++ rows

def reverseLL : List (List Int64) → Except Exception (List (List Int64))
  | left :: lastingRight =>
      if lastingRight.isEmpty then
        .ok [left]
      else do
        let reversed ← reverseLL lastingRight
        return reversed ++ [left]
  | [] => .error .patternMatchFail

end Playspace.Kyopro
