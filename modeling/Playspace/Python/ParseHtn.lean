import Mathlib.Data.Finset.Basic
import Playspace.Citbrains.Cpp

/-!
# `parse_htn_name.py`

The script that writes the two dictionary files: it collects a word from every
line with `class` in it, in a set, and writes the sets out in the order Python
iterates over them. That order is not the program's to choose, since the hash
of a string changes from one process to the next, so here it is an argument:
`main` runs with any order the set could have.

Text is the bytes of its encoding, which the string operations the script uses
respect. The word of a line keeps the line's end when no parenthesis comes
before it.
-/

namespace Playspace.ParseHtn

open Citbrains (Bytes ascii)

/-- What a file opened in text mode reads as. -/
def universalNewlines : Bytes → Bytes
  | [] => []
  | 13 :: 10 :: rest => 10 :: universalNewlines rest
  | c :: rest => (if c = 13 then 10 else c) :: universalNewlines rest

/-- `readlines()`: the lines keep their ends. -/
def readlines : Bytes → List Bytes
  | [] => []
  | c :: rest =>
      if c = 10 then [10] :: readlines rest
      else
        match readlines rest with
        | [] => [[c]]
        | line :: lines => (c :: line) :: lines

/-- The scan of `replace(old, '')`, with `skip` characters of a hit to drop. -/
def removeFrom (old : Bytes) : Nat → Bytes → Bytes
  | _, [] => []
  | skip + 1, _ :: rest => removeFrom old skip rest
  | 0, c :: rest =>
      if old <+: c :: rest then removeFrom old (old.length - 1) rest
      else c :: removeFrom old 0 rest

/-- `line.replace(old, '')`. -/
def remove (old line : Bytes) : Bytes := removeFrom old 0 line

/-- The loop's body. `none` is the `IndexError` of a line without a blank. -/
def parseLine (wordList : Finset Bytes) (line : Bytes) : Option (Finset Bytes) :=
  if ascii "class" <:+: line then
    let line := remove (ascii "\t") (remove (ascii "    ") line)
    match (line.splitOn 32)[1]? with
    | none => none
    | some line => some (insert ((line.splitOn 40).headD []) wordList)
  else some wordList

def parseAndWriteDictionaryFile (file : Bytes) (wordList : Finset Bytes) :
    Option (Finset Bytes) :=
  (readlines (universalNewlines file)).foldlM parseLine wordList

/-- `for readfile in readfiles`, from an empty set. -/
def parseFiles (readfiles : List Bytes) : Option (Finset Bytes) :=
  readfiles.foldlM (fun wordList file => parseAndWriteDictionaryFile file wordList) ∅

/-- `for word in words`, in one of the orders it can have. -/
def iterate (words : Finset Bytes) (order : List Bytes) : Option (List Bytes) :=
  if (order : Multiset Bytes) = words.val then some order else none

/-- `writefile.write(word + '\n')` for each word. -/
def writeWords (words : List Bytes) : Bytes :=
  (words.map fun word => word ++ [10]).flatten

/-- The strategy sources `main` reads. -/
structure Sources where
  commonNetwork : Bytes
  rootNetwork : Bytes
  goal : Bytes
  role : Bytes
  tactics : Bytes

/-- `command_dict.dat` and `behavior_name_dict.dat`. -/
structure DictFiles where
  command : Bytes
  behavior : Bytes
deriving DecidableEq

/-- `none` when a line has no word, or when an order is none the set has. -/
def main (behaviorOrder commandOrder : List Bytes) (src : Sources) :
    Option DictFiles := do
  let behaviorNameList ← parseFiles [src.commonNetwork, src.rootNetwork]
  let behaviorNames ← iterate behaviorNameList behaviorOrder
  let commandNameList ← parseFiles [src.goal, src.role, src.tactics]
  let commandNames ← iterate commandNameList commandOrder
  some { command := writeWords commandNames, behavior := writeWords behaviorNames }

end Playspace.ParseHtn
