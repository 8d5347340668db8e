import Mathlib.Data.List.Basic

/-!
# Dictionaries that keep their order

A dictionary as a list of keys and values in the order in which the keys came.
`set` overwrites the value of a key that is there where it stands, and puts a new
key at the end. For keys that come once each, a dictionary filled one key after
another is the list of what it was given (`foldl_set_of_nodup`), and `get?` reads
it as a lookup in that list.
-/

namespace Playspace.Lib.OrderedDict

variable {κ α β : Type*} [DecidableEq κ] {d : List (κ × β)} {k k' : κ} {v : β}

def get? (d : List (κ × β)) (k : κ) : Option β :=
  match d with
  | [] => none
  | e :: rest => if e.1 = k then some e.2 else get? rest k

def set (d : List (κ × β)) (k : κ) (v : β) : List (κ × β) :=
  match d with
  | [] => [(k, v)]
  | e :: rest => if e.1 = k then (k, v) :: rest else e :: set rest k v

theorem get?_cons_self (d : List (κ × β)) (k : κ) (v : β) : get? ((k, v) :: d) k = some v :=
  if_pos rfl

theorem get?_cons_of_ne (h : k' ≠ k) (d : List (κ × β)) (v : β) :
    get? ((k', v) :: d) k = get? d k :=
  if_neg h

theorem set_of_notMem (h : k ∉ d.map Prod.fst) (v : β) : set d k v = d ++ [(k, v)] := by
  induction d with
  | nil => rfl
  | cons e rest ih =>
      rw [List.map_cons, List.mem_cons, not_or] at h
      rw [set, if_neg (Ne.symm h.1), ih h.2, List.cons_append]

/-- Keys that are all different and new are put one behind the other. -/
theorem foldl_set_of_nodup (key : α → κ) (value : α → β) {xs : List α}
    (hnodup : (xs.map key).Nodup) (hnew : ∀ x ∈ xs, key x ∉ d.map Prod.fst) :
    xs.foldl (fun d x => set d (key x) (value x)) d =
      d ++ xs.map fun x => (key x, value x) := by
  induction xs generalizing d with
  | nil => exact (List.append_nil d).symm
  | cons x xs ih =>
      rw [List.map_cons, List.nodup_cons] at hnodup
      rw [List.forall_mem_cons] at hnew
      have hnext : ∀ y ∈ xs, key y ∉ (d ++ [(key x, value x)]).map Prod.fst := by
        intro y hy hmem
        rw [List.map_append, List.mem_append, List.map_singleton, List.mem_singleton] at hmem
        obtain hmem | heq := hmem
        · exact hnew.2 y hy hmem
        · have hkey : key y = key x := heq
          exact hnodup.1 (hkey ▸ List.mem_map_of_mem hy)
      rw [List.foldl_cons, set_of_notMem hnew.1, ih hnodup.2 hnext, List.map_cons,
        List.append_assoc, List.singleton_append]

end Playspace.Lib.OrderedDict
