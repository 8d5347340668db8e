import Mathlib.Data.List.AList
import Mathlib.Data.List.GetD
import Mathlib.Tactic

/-!
# `file_input`

The voice matcher of `file_input.cpp`: it loads four folders of recordings, a
recording being a vector of frames of 15 coefficients, and compares each
recording of a folder with all of another by dynamic programming. An access
outside of a vector is a fault of the model, as it is no defined behaviour of
the program; a `resize` that throws is another.

The coefficients are numbers of any ordered field: arithmetic is exact, and
`sqrt` is whatever the square root of the platform returns.
-/

namespace Playspace.Ninshiki

variable {K : Type}

inductive Fault where
  | outOfRange
  | lengthError
deriving DecidableEq

/-! ## Vectors -/

section Vector

variable {α : Type}

/-- `v[i]` -/
def index (v : List α) (i : Nat) : Except Fault α :=
  match v[i]? with
  | some a => .ok a
  | none => .error .outOfRange

/-- What is done to `v[i]`. -/
def modifyAt (v : List α) (i : Nat) (f : α → Except Fault α) : Except Fault (List α) := do
  let a ← index v i
  let a' ← f a
  .ok (v.set i a')

/-- `v.resize(n)` for an `int`, which a negative one makes longer than any vector
can be. -/
def resize (v : List α) (n : Int) (fill : α) : Except Fault (List α) :=
  if n < 0 then .error .lengthError
  else .ok (v.take n.toNat ++ List.replicate (n.toNat - v.length) fill)

@[simp] theorem ok_bind {α β : Type} (a : α) (f : α → Except Fault β) :
    (Except.ok a >>= f) = f a := rfl

@[simp] theorem error_bind {α β : Type} (e : Fault) (f : α → Except Fault β) :
    (Except.error e >>= f) = .error e := rfl

variable {β : Type} {v : List α} {i : Nat} {a : α}

theorem index_eq_ok_iff : index v i = .ok a ↔ v[i]? = some a := by
  rw [index]
  cases v[i]? with
  | none => exact ⟨nofun, nofun⟩
  | some b => simp

theorem index_of_lt (h : i < v.length) : index v i = .ok v[i] :=
  index_eq_ok_iff.mpr (List.getElem?_eq_getElem h)

theorem index_eq_error (h : v.length ≤ i) : index v i = .error .outOfRange := by
  rw [index, List.getElem?_eq_none h]

theorem index_set_self (h : i < v.length) (a : α) : index (v.set i a) i = .ok a :=
  index_eq_ok_iff.mpr (List.getElem?_set_self h)

theorem index_set_ne {j : Nat} (h : i ≠ j) (a : α) : index (v.set i a) j = index v j := by
  rw [index, index, List.getElem?_set_ne h]

theorem index_getD (h : i < v.length) (fill : α) : index v i = .ok (v.getD i fill) := by
  rw [index_of_lt h, List.getD_eq_getElem _ _ h]

theorem modifyAt_ok {a' : α} {f : α → Except Fault α} (ha : v[i]? = some a)
    (hf : f a = .ok a') : modifyAt v i f = .ok (v.set i a') := by
  rw [modifyAt, index_eq_ok_iff.mpr ha, ok_bind, hf, ok_bind]

theorem modifyAt_eq (ha : v[i]? = some a) (f : α → Except Fault α) :
    modifyAt v i f = (f a).map (v.set i) := by
  rw [modifyAt, index_eq_ok_iff.mpr ha, ok_bind]
  cases f a <;> rfl

theorem modifyAt_eq_error (h : v.length ≤ i) (f : α → Except Fault α) :
    modifyAt v i f = .error .outOfRange := by
  rw [modifyAt, index_eq_error h, error_bind]

theorem foldlM_modifyAt (ha : v[i]? = some a) (g : β → α → Except Fault α) (xs : List β) :
    xs.foldlM (fun v x => modifyAt v i (g x)) v =
      (xs.foldlM (fun a x => g x a) a).map (v.set i) := by
  induction xs generalizing v a with
  | nil =>
      obtain ⟨hlt, rfl⟩ := List.getElem?_eq_some_iff.mp ha
      show Except.ok v = .ok (v.set i v[i])
      rw [List.set_getElem_self]
  | cons x xs ih =>
      rw [List.foldlM_cons, List.foldlM_cons, modifyAt_eq ha]
      cases g x a with
      | error f => rfl
      | ok a' =>
          have hlt := (List.getElem?_eq_some_iff.mp ha).1
          have hset : (v.set i a').set i = v.set i := funext fun b => List.set_set ..
          show xs.foldlM _ (v.set i a') = _
          rw [ih (List.getElem?_set_self hlt), ok_bind, hset]

/-- Several changes to one place are one change, also where there is no such
place. -/
theorem foldlM_modifyAt_of_ne_nil (g : β → α → Except Fault α) {xs : List β} (hxs : xs ≠ [])
    (v : List α) :
    xs.foldlM (fun v x => modifyAt v i (g x)) v =
      modifyAt v i fun a => xs.foldlM (fun a x => g x a) a := by
  cases hget : v[i]? with
  | some a => rw [foldlM_modifyAt hget, modifyAt_eq hget]
  | none =>
      have hlen := List.getElem?_eq_none_iff.mp hget
      obtain ⟨x, xs, rfl⟩ := List.exists_cons_of_ne_nil hxs
      rw [List.foldlM_cons, modifyAt_eq_error hlen, modifyAt_eq_error hlen, error_bind]

/-- `push_back` in a loop. -/
theorem foldlM_push (f : β → α) (xs : List β) (v : List α) :
    xs.foldlM (fun v x => .ok (v ++ [f x])) v =
      (.ok (v ++ xs.map f) : Except Fault (List α)) := by
  induction xs generalizing v with
  | nil =>
      rw [List.map_nil, List.append_nil]
      rfl
  | cons x xs ih =>
      rw [List.foldlM_cons, ok_bind, ih, List.map_cons, List.append_assoc,
        List.singleton_append]

end Vector

abbrev Frame (K : Type) := List K

/-- The frames of a file, a row of it each. -/
abbrev Recording (K : Type) := List (Frame K)

/-- `result` -/
abbrev Table (K : Type) := List (List K)

def entry (result : Table K) (i j : Nat) : Except Fault K := do
  let row ← index result i
  index row j

def setEntry (result : Table K) (i j : Nat) (a : K) : Except Fault (Table K) :=
  modifyAt result i fun row => modifyAt row j fun _ => .ok a

/-- The data of the class: file names by folder, and recordings by folder and
file. -/
structure FileInput (K : Type) where
  filenames : List (List String)
  data : List (List (Recording K))

namespace FileInput

def dimension : Nat := 15

def cities : List String := ["city011", "city012", "city021", "city022"]

/-- The constructor. -/
def new : FileInput K where
  filenames := List.replicate 4 []
  data := List.replicate 4 (List.replicate 100 [])

end FileInput

/-! ## The files -/

/-- What the reads from a file leave behind: `rows`, and `tmp` after the read for
column `j` of row `i`. -/
structure VoiceFile (K : Type) where
  rows : Int
  tmp : Nat → Nat → K

/-- A folder's files by name, in the order of the directory. -/
abbrev CityFolder (K : Type) := AList fun _ : String => VoiceFile K

section Loading

variable [Zero K]

/-- `ifs.open`. No rows come from a file that is not there. -/
def fileOf (folder : CityFolder K) (name : String) : VoiceFile K :=
  (folder.lookup name).getD { rows := 0, tmp := fun _ _ => 0 }

namespace FileInput

/-- The body of the loop over the names, at `data[city_num][file_count]`. -/
def loadFile (cityNum fileCount : Nat) (file : VoiceFile K)
    (data : List (List (Recording K))) : Except Fault (List (List (Recording K))) := do
  let data ← modifyAt data cityNum fun folder =>
    modifyAt folder fileCount fun slot => resize slot file.rows []
  (List.range file.rows.toNat).foldlM
    (fun data i => (List.range dimension).foldlM
      (fun data j => modifyAt data cityNum fun folder =>
        modifyAt folder fileCount fun slot =>
          modifyAt slot i fun frame => .ok (frame ++ [file.tmp i j]))
      data)
    data

/-- The body of the loop over the cities. -/
def loadCity (folder : CityFolder K) (cityNum : Nat) (files : FileInput K) :
    Except Fault (FileInput K) := do
  let filenames ← folder.keys.foldlM
    (fun filenames name => modifyAt filenames cityNum fun names => .ok (names ++ [name]))
    files.filenames
  let filenames ← modifyAt filenames cityNum fun names => .ok (names.mergeSort (· ≤ ·))
  let names ← index filenames cityNum
  let data ← names.zipIdx.foldlM
    (fun data (name, fileCount) => loadFile cityNum fileCount (fileOf folder name) data)
    files.data
  .ok { filenames, data }

def getfiledatas (disk : String → CityFolder K) (files : FileInput K) :
    Except Fault (FileInput K) :=
  cities.zipIdx.foldlM (fun files (city, cityNum) => loadCity (disk city) cityNum files)
    files

end FileInput

end Loading

/-! ## Matching -/

section Matching

variable [Field K]

/-- `local_distance` -/
def localDistance (sqrt : K → K) (frameI frameJ : Frame K) : Except Fault K := do
  let resultDistance ← (List.range FileInput.dimension).foldlM
    (fun resultDistance i => do
      let a ← index frameI i
      let b ← index frameJ i
      .ok (resultDistance + (a - b) * (a - b)))
    0
  .ok (sqrt resultDistance)

variable [LinearOrder K] (localDistance : Frame K → Frame K → Except Fault K)

/-- The body of the two loops over the table. -/
def fillCell (templateData target : Recording K) (result : Table K) (tmpI targetJ : Nat) :
    Except Fault (Table K) :=
  if tmpI = 0 ∧ targetJ = 0 then .ok result
  else do
    let distance : Except Fault K := do
      let frameI ← index templateData tmpI
      let frameJ ← index target targetJ
      localDistance frameI frameJ
    let minNum : K := 10 ^ 10
    let minNum ←
      if 1 ≤ tmpI then do
        let d ← distance
        let above ← entry result (tmpI - 1) targetJ
        .ok (min minNum (d + above))
      else .ok minNum
    let minNum ←
      if 1 ≤ targetJ then do
        let d ← distance
        let left ← entry result tmpI (targetJ - 1)
        .ok (min minNum (d + left))
      else .ok minNum
    let minNum ←
      if 1 ≤ tmpI ∧ 1 ≤ targetJ then do
        let d ← distance
        let corner ← entry result (tmpI - 1) (targetJ - 1)
        .ok (min minNum (10 * d + corner))
      else .ok minNum
    setEntry result tmpI targetJ minNum

/-- `result`, once it is filled. -/
def fillTable (templateData target : Recording K) : Except Fault (Table K) := do
  let result := List.replicate templateData.length (List.replicate target.length (10 ^ 8))
  let frameI ← index templateData 0
  let frameJ ← index target 0
  let d ← localDistance frameI frameJ
  let result ← setEntry result 0 0 d
  (List.range templateData.length).foldlM
    (fun result tmpI => (List.range target.length).foldlM
      (fun result targetJ => fillCell localDistance templateData target result tmpI targetJ)
      result)
    result

/-- `result[max_i - 1][max_j - 1] / (max_i + max_j)`. Neither is 0 after the
accesses that filled the table. -/
def score (templateData target : Recording K) : Except Fault K := do
  let result ← fillTable localDistance templateData target
  let last ← entry result (templateData.length - 1) (target.length - 1)
  .ok (last / ((templateData.length + target.length : Nat) : K))

/-- The variables of the loop over the targets. -/
structure Scan (K : Type) where
  minDistance : K
  voiceNum : Nat
  shortest : Nat

def Scan.visit (s : Scan K) (score : K) : Scan K :=
  if s.minDistance ≥ score then
    { minDistance := score, voiceNum := s.voiceNum + 1, shortest := s.voiceNum }
  else { s with voiceNum := s.voiceNum + 1 }

def FileInput.dpMatching (files : FileInput K) (tmpfolder tmpfileNum targetFolder : Nat) :
    Except Fault Nat := do
  let folder ← index files.data tmpfolder
  let templateData ← index folder tmpfileNum
  let targets ← index files.data targetFolder
  let s ← targets.foldlM
    (fun (s : Scan K) target => do
      let score ← score localDistance templateData target
      .ok (s.visit score))
    { minDistance := 10 ^ 9, voiceNum := 0, shortest := 0 }
  .ok (if s.shortest = tmpfileNum then 1 else 0)

/-- The lines `main` prints: the two cities and the number of hits. -/
def main (disk : String → CityFolder K) : Except Fault (List (String × String × Nat)) := do
  let files ← FileInput.getfiledatas disk FileInput.new
  (List.range 4).foldlM
    (fun lines i => (List.range 4).foldlM
      (fun lines j =>
        if i = j then .ok lines
        else do
          let n ← (List.range 100).foldlM
            (fun n k => do
              let hit ← files.dpMatching localDistance i k j
              .ok (n + hit))
            0
          let template ← index FileInput.cities i
          let compared ← index FileInput.cities j
          .ok (lines ++ [(template, compared, n)]))
      lines)
    []

end Matching

end Playspace.Ninshiki
