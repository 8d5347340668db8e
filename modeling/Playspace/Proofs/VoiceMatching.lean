import Playspace.Lib.Grid
import Playspace.Lib.Machine
import Playspace.Lib.Warping
import Playspace.Ninshiki.FileInput

/-!
# Voice matching

`dpMatching` fills a table for each target, row by row, and each cell with the
least of three sums over cells that are filled already. What it holds at the end
is the least cost of a warping path, no more than 1e10 (`fillTable_spec`); the
1e8 the table starts with is never read. The scan over the targets keeps the
last of the best scores (`scan_spec`), and the first target where no score is
as low as 1e9.
-/

namespace Playspace.Ninshiki

open Playspace.Lib

/-! ## Tables -/

section Table

variable {K : Type} {result : Table K} {rows cols i j : Nat}

structure Sized (result : Table K) (rows cols : Nat) : Prop where
  rows : result.length = rows
  cols : ∀ row ∈ result, row.length = cols

theorem sized_replicate (rows cols : Nat) (a : K) :
    Sized (List.replicate rows (List.replicate cols a)) rows cols where
  rows := List.length_replicate
  cols := fun row hrow => by rw [List.eq_of_mem_replicate hrow, List.length_replicate]

/-- A cell of the table can be written, and the others stay. -/
theorem Sized.setEntry (h : Sized result rows cols) (hi : i < rows) (hj : j < cols) (a : K) :
    ∃ result', setEntry result i j a = .ok result' ∧ Sized result' rows cols ∧
      entry result' i j = .ok a ∧
      ∀ i' j', ¬ (i' = i ∧ j' = j) → entry result' i' j' = entry result i' j' := by
  have hrow : i < result.length := h.rows ▸ hi
  have hget : result[i]? = some result[i] := List.getElem?_eq_getElem hrow
  have hcol : j < (result[i]).length := (h.cols _ (List.getElem_mem hrow)).symm ▸ hj
  have hset : modifyAt result[i] j (fun _ => .ok a) = .ok (result[i].set j a) :=
    modifyAt_ok (List.getElem?_eq_getElem hcol) rfl
  refine ⟨result.set i (result[i].set j a), modifyAt_ok hget hset, ⟨?_, ?_⟩, ?_, ?_⟩
  · rw [List.length_set, h.rows]
  · intro row hmem
    rcases List.mem_or_eq_of_mem_set hmem with hmem | rfl
    · exact h.cols row hmem
    · rw [List.length_set, h.cols _ (List.getElem_mem hrow)]
  · rw [entry, index_set_self hrow, ok_bind, index_set_self hcol]
  · intro i' j' hne
    rw [entry, entry]
    by_cases hi' : i = i'
    · subst hi'
      rw [index_set_self hrow, index_eq_ok_iff.mpr hget, ok_bind, ok_bind,
        index_set_ne fun hj' => hne ⟨rfl, hj'.symm⟩]
    · rw [index_set_ne hi']

end Table

/-! ## Filling the table -/

section Filling

variable {K : Type} {localDistance : Frame K → Frame K → Except Fault K}
  {d : Frame K → Frame K → K} {templateData target : Recording K}

/-- The distances of the two recordings' frames, which no access to a frame
stops. -/
def Measures (localDistance : Frame K → Frame K → Except Fault K)
    (d : Frame K → Frame K → K) (templateData target : Recording K) : Prop :=
  ∀ a ∈ templateData, ∀ b ∈ target, localDistance a b = .ok (d a b)

theorem Measures.cell (h : Measures localDistance d templateData target) {i j : Nat}
    (hi : i < templateData.length) (hj : j < target.length) :
    localDistance (templateData.getD i []) (target.getD j []) =
      .ok (d (templateData.getD i []) (target.getD j [])) := by
  rw [List.getD_eq_getElem _ _ hi, List.getD_eq_getElem _ _ hj]
  exact h _ (List.getElem_mem hi) _ (List.getElem_mem hj)

variable [Field K]

/-- What a warping path of two recordings pays: the distance of the two frames of
a cell, and ten times that when it gets there on the diagonal. -/
def charges (d : Frame K → Frame K → K) (templateData target : Recording K) : Charges K :=
  let cell i j := d (templateData.getD i []) (target.getD j [])
  { start := cell 0 0, vertical := cell, horizontal := cell,
    diagonal := fun i j => 10 • cell i j }

theorem charges_diagonal (i j : Nat) : (charges d templateData target).diagonal i j =
    10 * d (templateData.getD i []) (target.getD j []) := by
  show 10 • d _ _ = _
  rw [nsmul_eq_mul, Nat.cast_ofNat]

/-- The 1e10 that `min_num` starts with. -/
def cap : K := ((10 ^ 10 : Nat) : K)

theorem cap_eq : (cap : K) = 10 ^ 10 := by
  rw [cap, Nat.cast_pow, Nat.cast_ofNat]

variable [LinearOrder K] {result : Table K}

/-- What a cell of the table is to hold. -/
def cellCost (d : Frame K → Frame K → K) (templateData target : Recording K) (i j : Nat) : K :=
  (charges d templateData target).cappedCost cap i j

/-- The cells that a cell is computed from hold what they are to hold. -/
structure Ready (d : Frame K → Frame K → K) (templateData target : Recording K)
    (result : Table K) (i j : Nat) : Prop where
  above : ∀ i', i = i' + 1 → entry result i' j = .ok (cellCost d templateData target i' j)
  left : ∀ j', j = j' + 1 → entry result i j' = .ok (cellCost d templateData target i j')
  corner : ∀ i' j', i = i' + 1 → j = j' + 1 →
    entry result i' j' = .ok (cellCost d templateData target i' j')

theorem fillCell_eq (hd : Measures localDistance d templateData target) {i j : Nat}
    (hi : i < templateData.length) (hj : j < target.length)
    (h : Ready d templateData target result i j) (horigin : ¬ (i = 0 ∧ j = 0)) :
    fillCell localDistance templateData target result i j =
      setEntry result i j (cellCost d templateData target i j) := by
  have hcell := hd.cell hi hj
  rw [fillCell, if_neg horigin]
  simp only [index_getD hi [], index_getD hj [], ok_bind, hcell]
  have hfirst : ¬ 1 ≤ 0 := Nat.not_succ_le_zero 0
  match i, j with
  | 0, 0 => exact absurd ⟨rfl, rfl⟩ horigin
  | 0, j + 1 =>
      simp only [hfirst, Nat.le_add_left, false_and, if_true, if_false, Nat.add_sub_cancel,
        h.left j rfl, ok_bind]
      rw [cellCost, cellCost, Charges.cappedCost, cap_eq]
      rfl
  | i + 1, 0 =>
      simp only [hfirst, Nat.le_add_left, and_false, if_true, if_false, Nat.add_sub_cancel,
        h.above i rfl, ok_bind]
      rw [cellCost, cellCost, Charges.cappedCost, cap_eq]
      rfl
  | i + 1, j + 1 =>
      simp only [Nat.le_add_left, and_self, if_true, Nat.add_sub_cancel, h.above i rfl,
        h.left j rfl, h.corner i j rfl rfl, ok_bind]
      rw [cellCost, cellCost, cellCost, cellCost, Charges.cappedCost, charges_diagonal, cap_eq]
      rfl

/-- The table after these cells have been visited. -/
structure Filled (d : Frame K → Frame K → K) (templateData target : Recording K)
    (past : List (Nat × Nat)) (result : Table K) : Prop where
  sized : Sized result templateData.length target.length
  origin : entry result 0 0 = .ok (cellCost d templateData target 0 0)
  visited : ∀ c ∈ past, entry result c.2 c.1 = .ok (cellCost d templateData target c.2 c.1)

/-- The row above and the cells on the left come first. -/
theorem Filled.ready {past rest : List (Nat × Nat)} {c : Nat × Nat}
    (h : Filled d templateData target past result)
    (hcells : cells target.length templateData.length = past ++ c :: rest) :
    Ready d templateData target result c.2 c.1 := by
  have hc : c ∈ cells target.length templateData.length :=
    hcells ▸ List.mem_append_right past List.mem_cons_self
  obtain ⟨hj, hi⟩ := mem_cells.mp hc
  have hvisited : ∀ c', c'.1 < target.length → c'.2 < templateData.length → Before c' c →
      entry result c'.2 c'.1 = .ok (cellCost d templateData target c'.2 c'.1) :=
    fun c' hj' hi' hbefore =>
      h.visited c' (mem_of_before hcells (mem_cells.mpr ⟨hj', hi'⟩) hbefore)
  refine ⟨fun i' hi' => ?_, fun j' hj' => ?_, fun i' j' hi' hj' => ?_⟩
  · exact hvisited (c.1, i') hj (by dsimp only; omega) (Or.inl (by dsimp only; omega))
  · exact hvisited (j', c.2) (by dsimp only; omega) hi
      (Or.inr ⟨rfl, by dsimp only; omega⟩)
  · exact hvisited (j', i') (by dsimp only; omega) (by dsimp only; omega)
      (Or.inl (by dsimp only; omega))

theorem Filled.visit (hd : Measures localDistance d templateData target)
    {past rest : List (Nat × Nat)} {c : Nat × Nat}
    (h : Filled d templateData target past result)
    (hcells : cells target.length templateData.length = past ++ c :: rest) :
    ∃ result', fillCell localDistance templateData target result c.2 c.1 = .ok result' ∧
      Filled d templateData target (past ++ [c]) result' := by
  have hc : c ∈ cells target.length templateData.length :=
    hcells ▸ List.mem_append_right past List.mem_cons_self
  obtain ⟨hj, hi⟩ := mem_cells.mp hc
  by_cases horigin : c.2 = 0 ∧ c.1 = 0
  · refine ⟨result, by rw [fillCell, if_pos horigin], h.sized, h.origin, ?_⟩
    intro c' hc'
    rcases List.mem_append.mp hc' with hpast | hlast
    · exact h.visited c' hpast
    · rw [List.mem_singleton.mp hlast, horigin.1, horigin.2]
      exact h.origin
  · obtain ⟨result', hset, hsized, hhit, hmiss⟩ :=
      h.sized.setEntry hi hj (cellCost d templateData target c.2 c.1)
    refine ⟨result', (fillCell_eq hd hi hj (h.ready hcells) horigin).trans hset, hsized, ?_, ?_⟩
    · rw [hmiss 0 0 fun hzero => horigin ⟨hzero.1.symm, hzero.2.symm⟩]
      exact h.origin
    · intro c' hc'
      by_cases heq : c' = c
      · rw [heq]
        exact hhit
      · rw [hmiss c'.2 c'.1 fun hsame => heq (Prod.ext hsame.2 hsame.1)]
        have hpast := (List.mem_append.mp hc').resolve_right fun hlast =>
          heq (List.mem_singleton.mp hlast)
        exact h.visited c' hpast

/-- The loops fill the table, without an access outside of it. -/
theorem fillTable_filled (hd : Measures localDistance d templateData target)
    (htemplate : templateData ≠ []) (htarget : target ≠ []) :
    ∃ result, fillTable localDistance templateData target = .ok result ∧
      Filled d templateData target (cells target.length templateData.length) result := by
  have hi : 0 < templateData.length := List.length_pos_of_ne_nil htemplate
  have hj : 0 < target.length := List.length_pos_of_ne_nil htarget
  obtain ⟨result, hset, hsized, hhit, -⟩ :=
    (sized_replicate templateData.length target.length (10 ^ 8 : K)).setEntry hi hj
      (d (templateData.getD 0 []) (target.getD 0 []))
  have hfilled : Filled d templateData target [] result := by
    refine ⟨hsized, ?_, fun _ h => absurd h List.not_mem_nil⟩
    rw [hhit, cellCost, Charges.cappedCost]
    rfl
  obtain ⟨result', hrun, hfilled'⟩ := runs_through
    (fun past c rest result hcells (h : Filled d templateData target past result) =>
      h.visit hd hcells) hfilled
  refine ⟨result', ?_, hfilled'⟩
  simp only [fillTable, index_getD hi [], index_getD hj [], ok_bind, hd.cell hi hj, hset]
  rw [← hrun, runs, ← foldlM_cells]

/-- The table that `dpMatching` fills. -/
theorem fillTable_spec (hd : Measures localDistance d templateData target)
    (htemplate : templateData ≠ []) (htarget : target ≠ []) :
    ∃ result, fillTable localDistance templateData target = .ok result ∧
      ∀ i j, i < templateData.length → j < target.length →
        entry result i j = .ok (cellCost d templateData target i j) := by
  obtain ⟨result, hfill, hfilled⟩ := fillTable_filled hd htemplate htarget
  exact ⟨result, hfill, fun i j hi hj => hfilled.visited (j, i) (mem_cells.mpr ⟨hj, hi⟩)⟩

/-- The last cell, for the length of the two recordings. -/
def scoreOf (d : Frame K → Frame K → K) (templateData target : Recording K) : K :=
  cellCost d templateData target (templateData.length - 1) (target.length - 1) /
    ((templateData.length + target.length : Nat) : K)

theorem score_eq (hd : Measures localDistance d templateData target)
    (htemplate : templateData ≠ []) (htarget : target ≠ []) :
    score localDistance templateData target = .ok (scoreOf d templateData target) := by
  obtain ⟨result, hfill, hcells⟩ := fillTable_spec hd htemplate htarget
  have hi : 0 < templateData.length := List.length_pos_of_ne_nil htemplate
  have hj : 0 < target.length := List.length_pos_of_ne_nil htarget
  rw [score, hfill, ok_bind, hcells _ _ (Nat.sub_one_lt_of_lt hi) (Nat.sub_one_lt_of_lt hj)]
  rfl

end Filling

/-! ## The best target -/

section Scanning

variable {K : Type} [LinearOrder K]

/-- The last index with the least of the scores. -/
def LastMin (scores : List K) (k : Nat) : Prop :=
  ∃ s, scores[k]? = some s ∧ (∀ x ∈ scores, s ≤ x) ∧ ∀ j, scores[j]? = some s → j ≤ k

theorem LastMin.unique {scores : List K} {k k' : Nat} (h : LastMin scores k)
    (h' : LastMin scores k') : k = k' := by
  obtain ⟨s, hs, hleast, hlast⟩ := h
  obtain ⟨s', hs', hleast', hlast'⟩ := h'
  obtain rfl : s = s' := le_antisymm (hleast s' (List.mem_of_getElem? hs'))
    (hleast' s (List.mem_of_getElem? hs))
  exact le_antisymm (hlast' k hs) (hlast k' hs')

/-- The loop over the targets after some of them. -/
structure Scanned (bound : K) (scores : List K) (s : Scan K) : Prop where
  voiceNum : s.voiceNum = scores.length
  best : ((∀ x ∈ scores, bound < x) ∧ s.minDistance = bound ∧ s.shortest = 0) ∨
    (s.minDistance ≤ bound ∧ scores[s.shortest]? = some s.minDistance ∧
      (∀ x ∈ scores, s.minDistance ≤ x) ∧
      ∀ j, scores[j]? = some s.minDistance → j ≤ s.shortest)

theorem Scanned.visit {bound : K} {scores : List K} {s : Scan K} (h : Scanned bound scores s)
    (x : K) : Scanned bound (scores ++ [x]) (s.visit x) := by
  have hlast : (scores ++ [x])[s.voiceNum]? = some x := by
    rw [h.voiceNum, List.getElem?_concat_length]
  rw [Scan.visit]
  split
  · next hbest =>
      have hbound : s.minDistance ≤ bound := by
        rcases h.best with ⟨-, hmin, -⟩ | ⟨hmin, -⟩
        · exact hmin.le
        · exact hmin
      have hleast : ∀ y ∈ scores, x ≤ y := by
        intro y hy
        rcases h.best with ⟨hworse, hmin, -⟩ | ⟨-, -, hleast, -⟩
        · exact (hbest.trans hmin.le).trans (hworse y hy).le
        · exact le_trans hbest (hleast y hy)
      refine ⟨by rw [List.length_append, h.voiceNum]; rfl,
        Or.inr ⟨le_trans hbest hbound, hlast, ?_, ?_⟩⟩
      · rw [List.forall_mem_append, List.forall_mem_singleton]
        exact ⟨hleast, le_rfl⟩
      · intro j hj
        have hlt := (List.getElem?_eq_some_iff.mp hj).1
        rw [List.length_append, List.length_singleton, ← h.voiceNum] at hlt
        exact Nat.le_of_lt_succ hlt
  · next hworse =>
      have hlt : s.minDistance < x := not_le.mp hworse
      refine ⟨by rw [List.length_append, h.voiceNum]; rfl, ?_⟩
      rcases h.best with ⟨hbounds, hmin, hzero⟩ | ⟨hmin, hget, hleast, hlater⟩
      · refine Or.inl ⟨?_, hmin, hzero⟩
        rw [List.forall_mem_append, List.forall_mem_singleton]
        exact ⟨hbounds, hmin ▸ hlt⟩
      · refine Or.inr ⟨hmin, ?_, ?_, ?_⟩
        · exact (List.getElem?_append_left (List.getElem?_eq_some_iff.mp hget).1).trans hget
        · rw [List.forall_mem_append, List.forall_mem_singleton]
          exact ⟨hleast, hlt.le⟩
        · intro j hj
          rcases Nat.lt_or_ge j scores.length with hj' | hj'
          · rw [List.getElem?_append_left hj'] at hj
            exact hlater j hj
          · have hjx := List.mem_of_getElem? ((List.getElem?_append_right hj').symm.trans hj)
            exact absurd (List.mem_singleton.mp hjx) hlt.ne

theorem foldl_visit_scanned (bound : K) (scores : List K) :
    Scanned bound scores (scores.foldl Scan.visit
      { minDistance := bound, voiceNum := 0, shortest := 0 }) := by
  induction scores using List.reverseRecOn with
  | nil => exact ⟨rfl, Or.inl ⟨fun _ h => absurd h List.not_mem_nil, rfl, rfl⟩⟩
  | append_singleton scores x ih =>
      rw [List.foldl_append]
      exact ih.visit x

/-- Which index the scan ends with. -/
theorem Scanned.shortest_eq_iff {bound : K} {scores : List K} {s : Scan K}
    (h : Scanned bound scores s) (k : Nat) :
    s.shortest = k ↔ ((∃ x ∈ scores, x ≤ bound) ∧ LastMin scores k) ∨
      ((∀ x ∈ scores, bound < x) ∧ k = 0) := by
  rcases h.best with ⟨hworse, -, hzero⟩ | ⟨hmin, hget, hleast, hlater⟩
  · have hnone : ¬ ∃ x ∈ scores, x ≤ bound := fun ⟨x, hx, hle⟩ =>
      absurd (hworse x hx) (not_lt.mpr hle)
    rw [hzero, or_iff_right fun h => hnone h.1, and_iff_right hworse, eq_comm]
  · have hmem := List.mem_of_getElem? hget
    have hsome : ∃ x ∈ scores, x ≤ bound := ⟨_, hmem, hmin⟩
    have hbest : LastMin scores s.shortest := ⟨_, hget, hleast, hlater⟩
    rw [or_iff_left fun h => absurd (h.1 _ hmem) (not_lt.mpr hmin), and_iff_right hsome]
    exact ⟨fun heq => heq ▸ hbest, hbest.unique⟩

end Scanning

section Matching

variable {K : Type} [Field K] [LinearOrder K]
  {localDistance : Frame K → Frame K → Except Fault K} {d : Frame K → Frame K → K}
  {templateData : Recording K} {targets : List (Recording K)}

/-- The body of the loop over the targets. -/
def scanTarget (localDistance : Frame K → Frame K → Except Fault K)
    (templateData : Recording K) (s : Scan K) (target : Recording K) :
    Except Fault (Scan K) := do
  let score ← score localDistance templateData target
  .ok (s.visit score)

theorem scan_targets (hd : ∀ target ∈ targets, Measures localDistance d templateData target)
    (htemplate : templateData ≠ []) (htargets : ∀ target ∈ targets, target ≠ [])
    (s : Scan K) :
    runs (scanTarget localDistance templateData) s targets =
      .ok ((targets.map (scoreOf d templateData)).foldl Scan.visit s) := by
  rw [List.foldl_map]
  refine runs_eq_foldl (fun target h s => ?_) s
  rw [scanTarget, score_eq (hd target h) htemplate (htargets target h), ok_bind]

variable {files : FileInput K} {tmpfolder tmpfileNum targetFolder : Nat}
  {folder : List (Recording K)}

theorem dpMatching_scan (localDistance : Frame K → Frame K → Except Fault K)
    (hfolder : files.data[tmpfolder]? = some folder)
    (htemplate : folder[tmpfileNum]? = some templateData)
    (htargets : files.data[targetFolder]? = some targets) :
    files.dpMatching localDistance tmpfolder tmpfileNum targetFolder =
      runs (scanTarget localDistance templateData)
        { minDistance := 10 ^ 9, voiceNum := 0, shortest := 0 } targets >>=
          fun s => .ok (if s.shortest = tmpfileNum then 1 else 0) := by
  rw [FileInput.dpMatching, index_eq_ok_iff.mpr hfolder, ok_bind,
    index_eq_ok_iff.mpr htemplate, ok_bind, index_eq_ok_iff.mpr htargets, ok_bind]
  rfl

/-- `dpMatching` returns, without an access outside of a vector. -/
theorem dpMatching_eq (hfolder : files.data[tmpfolder]? = some folder)
    (htemplate : folder[tmpfileNum]? = some templateData)
    (htargets : files.data[targetFolder]? = some targets) (hne : templateData ≠ [])
    (hnes : ∀ target ∈ targets, target ≠ [])
    (hd : ∀ target ∈ targets, Measures localDistance d templateData target) :
    files.dpMatching localDistance tmpfolder tmpfileNum targetFolder =
      .ok (if ((targets.map (scoreOf d templateData)).foldl Scan.visit
        ({ minDistance := 10 ^ 9, voiceNum := 0, shortest := 0 } : Scan K)).shortest =
          tmpfileNum then 1 else 0) := by
  rw [dpMatching_scan localDistance hfolder htemplate htargets, scan_targets hd hne hnes,
    ok_bind]

theorem charges_nonneg [IsStrictOrderedRing K] (hd : ∀ a b, 0 ≤ d a b)
    (target : Recording K) : (charges d templateData target).Nonneg where
  vertical _ _ := hd _ _
  horizontal _ _ := hd _ _
  diagonal _ _ := nsmul_nonneg (hd _ _) 10

/-- Every cell but the first holds the least cost of a warping path, or 1e10; and
the template's number is returned as a hit exactly when it is the last of the
targets with the best score, its last cell for the length of the two recordings,
or the first of all where no score is as low as 1e9. -/
theorem dpMatching_least [IsStrictOrderedRing K] (hd : ∀ a b, 0 ≤ d a b)
    (hfolder : files.data[tmpfolder]? = some folder)
    (htemplate : folder[tmpfileNum]? = some templateData)
    (htargets : files.data[targetFolder]? = some targets)
    (hI : 1 ≤ templateData.length) (hJ : ∀ target ∈ targets, 1 ≤ target.length) :
    (∀ target ∈ targets, ∃ result,
      fillTable (fun a b => .ok (d a b)) templateData target = .ok result ∧
      ∀ i j, i < templateData.length → j < target.length → ¬ (i = 0 ∧ j = 0) →
        ∃ least, IsLeast (Set.range fun p : WarpingPath i j =>
            (charges d templateData target).costOf p) least ∧
          entry result i j = .ok (min (10 ^ 10) least)) ∧
    ∃ scores hit, List.Forall₂ (fun target s => ∃ result last,
        fillTable (fun a b => .ok (d a b)) templateData target = .ok result ∧
        entry result (templateData.length - 1) (target.length - 1) = .ok last ∧
        s = last / ((templateData.length + target.length : Nat) : K)) targets scores ∧
      files.dpMatching (fun a b => .ok (d a b)) tmpfolder tmpfileNum targetFolder =
        .ok hit ∧ (hit = 1 ∨ hit = 0) ∧
      (hit = 1 ↔ ((∃ s ∈ scores, s ≤ 10 ^ 9) ∧ LastMin scores tmpfileNum) ∨
        ((∀ s ∈ scores, 10 ^ 9 < s) ∧ tmpfileNum = 0)) := by
  have hmeasures : ∀ target, Measures (fun a b => .ok (d a b)) d templateData target :=
    fun _ _ _ _ _ => rfl
  have hne : templateData ≠ [] := List.ne_nil_of_length_pos hI
  have hnes : ∀ target ∈ targets, target ≠ [] := fun target h =>
    List.ne_nil_of_length_pos (hJ target h)
  refine ⟨fun target htarget => ?_, ?_⟩
  · obtain ⟨result, hfill, hcells⟩ :=
      fillTable_spec (hmeasures target) hne (hnes target htarget)
    refine ⟨result, hfill, fun i j hi hj horigin => ?_⟩
    refine ⟨_, (charges d templateData target).isLeast_leastCost i j, ?_⟩
    rw [hcells i j hi hj, cellCost, Charges.cappedCost_eq (charges_nonneg hd target) cap horigin,
      cap_eq]
  · have hscan := foldl_visit_scanned (10 ^ 9) (targets.map (scoreOf d templateData))
    refine ⟨targets.map (scoreOf d templateData), _, ?_,
      dpMatching_eq hfolder htemplate htargets hne hnes fun target _ => hmeasures target, ?_, ?_⟩
    · rw [List.forall₂_map_right_iff, List.forall₂_same]
      intro target htarget
      obtain ⟨result, hfill, hcells⟩ :=
        fillTable_spec (hmeasures target) hne (hnes target htarget)
      have hJ := hJ target htarget
      exact ⟨result, _, hfill, hcells _ _ (by omega) (by omega), rfl⟩
    · split
      · exact Or.inl rfl
      · exact Or.inr rfl
    · rw [← hscan.shortest_eq_iff]
      split
      · next h => exact iff_of_true rfl h
      · next h => exact iff_of_false Nat.zero_ne_one h

def sampleTemplate : Recording ℚ := [[1], [2], [3]]

def sampleTargets : List (Recording ℚ) := [[[1], [2]], [[1], [2], [3]], [[5]]]

/-- The second recording of a folder, and three others to compare it with. -/
def sampleVoices : FileInput ℚ where
  filenames := []
  data := [[[], sampleTemplate], sampleTargets]

/-- How far the first coefficients are apart. -/
def firstDistance (a b : Frame ℚ) : ℚ := |a.headD 0 - b.headD 0|

theorem dpMatching_least_sample :
    sampleVoices.dpMatching (fun a b => .ok (firstDistance a b)) 0 1 1 = .ok 1 ∧
      ∃ scores : List ℚ, scores.length = sampleTargets.length ∧ LastMin scores 1 := by
  have hd : ∀ a b, 0 ≤ firstDistance a b := fun _ _ => abs_nonneg _
  have hfolder : sampleVoices.data[0]? = some [[], sampleTemplate] := rfl
  have htemplate : [[], sampleTemplate][1]? = some sampleTemplate := rfl
  have htargets : sampleVoices.data[1]? = some sampleTargets := rfl
  have hrun : sampleVoices.dpMatching (fun a b => .ok (firstDistance a b)) 0 1 1 = .ok 1 := by
    decide +kernel
  obtain ⟨-, scores, hit, hscores, hhit, -, hiff⟩ :=
    dpMatching_least hd hfolder htemplate htargets (by decide) (by decide)
  obtain rfl : hit = 1 := Except.ok.inj (hhit.symm.trans hrun)
  rcases hiff.mp rfl with ⟨-, hlast⟩ | ⟨-, hzero⟩
  · exact ⟨hrun, scores, hscores.length_eq.symm, hlast⟩
  · exact absurd hzero Nat.one_ne_zero

end Matching

end Playspace.Ninshiki
