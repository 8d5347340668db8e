import Playspace.Proofs.VoiceLoading
import Playspace.Proofs.VoiceMatching

/-!
# Voice data

The constructor makes room for 100 recordings in each of four folders, and
`main` matches every one of them. A folder with more files than that is read
past the end of its slots, and a slot that no file filled, or a file without
rows, is a recording without a first frame. `main_inRange_iff` says when none of
this happens: when every folder has just 100 files and each of them a row, or
when a row count below 0 ends the program first.
-/

namespace Playspace.Ninshiki

open Playspace.Lib

/-! ## Matching it -/

section Matching

variable {K : Type} [Field K]

theorem localDistance_ok (sqrt : K → K) {a b : Frame K} (ha : a.length = FileInput.dimension)
    (hb : b.length = FileInput.dimension) : ∃ x, localDistance sqrt a b = .ok x := by
  have hstep : ∀ (x : K) i, True → i < FileInput.dimension → ∃ y, (do
      let p ← index a i
      let q ← index b i
      .ok (x + (p - q) * (p - q)) : Except Fault K) = .ok y ∧ True := by
    intro x i _ hi
    rw [index_of_lt (ha.symm ▸ hi), index_of_lt (hb.symm ▸ hi)]
    exact ⟨_, rfl, trivial⟩
  have hrange : ∀ i ∈ List.range FileInput.dimension, i < FileInput.dimension :=
    fun i => List.mem_range.mp
  obtain ⟨sum, hsum, -⟩ := runs_total hstep trivial (s := (0 : K)) hrange
  refine ⟨sqrt sum, ?_⟩
  rw [runs] at hsum
  rw [localDistance, hsum, ok_bind]

/-- The distance of two frames, where there is one. -/
def distanceOf (sqrt : K → K) (a b : Frame K) : K :=
  match localDistance sqrt a b with
  | .ok x => x
  | .error _ => 0

theorem measures_framed (sqrt : K → K) {templateData target : Recording K}
    (htemplate : Framed templateData) (htarget : Framed target) :
    Measures (localDistance sqrt) (distanceOf sqrt) templateData target := by
  intro a ha b hb
  obtain ⟨x, hx⟩ := localDistance_ok sqrt (htemplate a ha) (htarget b hb)
  rw [distanceOf, hx]

variable [LinearOrder K] {files : FileInput K} {i j k : Nat}

theorem score_noTemplate (localDistance : Frame K → Frame K → Except Fault K)
    (target : Recording K) : score localDistance [] target = .error .outOfRange := rfl

theorem score_noTarget (localDistance : Frame K → Frame K → Except Fault K)
    (templateData : Recording K) :
    score localDistance templateData [] = .error .outOfRange := by
  cases templateData <;> rfl

theorem score_error_or_ok (sqrt : K → K) {templateData target : Recording K}
    (htemplate : Framed templateData) (htarget : Framed target) :
    score (localDistance sqrt) templateData target = .error .outOfRange ∨
      ∃ x, score (localDistance sqrt) templateData target = .ok x := by
  by_cases hne : templateData = []
  · rw [hne]
    exact Or.inl (score_noTemplate _ _)
  · by_cases hne' : target = []
    · rw [hne']
      exact Or.inl (score_noTarget _ _)
    · exact Or.inr ⟨_, score_eq (measures_framed sqrt htemplate htarget) hne hne'⟩

theorem scanTarget_error_or_ok (sqrt : K → K) {templateData target : Recording K}
    (htemplate : Framed templateData) (htarget : Framed target) (s : Scan K) :
    scanTarget (localDistance sqrt) templateData s target = .error .outOfRange ∨
      ∃ s', scanTarget (localDistance sqrt) templateData s target = .ok s' := by
  rw [scanTarget]
  rcases score_error_or_ok sqrt htemplate htarget with herror | ⟨x, hx⟩
  · rw [herror]
    exact Or.inl rfl
  · rw [hx]
    exact Or.inr ⟨_, rfl⟩

/-- A call of `main` returns, or accesses what is not there. -/
theorem Furnished.dpMatching_error_or_ok (h : Furnished files) (sqrt : K → K) (hi : i < 4)
    (hk : k < 100) (hj : j < 4) :
    files.dpMatching (localDistance sqrt) i k j = .error .outOfRange ∨
      ∃ hit, files.dpMatching (localDistance sqrt) i k j = .ok hit := by
  obtain ⟨folder, templateData, hfolder, hmem, htemplate, hrec⟩ := h.recording hi hk
  obtain ⟨targets, htargets, hmem', -⟩ := h.folder hj
  rw [dpMatching_scan _ hfolder htemplate htargets]
  rcases runs_error_or_ok (fun target htarget => scanTarget_error_or_ok sqrt
    (h.frames _ hmem _ hrec) (h.frames _ hmem' target htarget)) _ with herror | ⟨s, hs⟩
  · rw [herror]
    exact Or.inl rfl
  · rw [hs]
    exact Or.inr ⟨_, rfl⟩

/-- Without a blank slot it returns. -/
theorem Furnished.dpMatching_ok (h : Furnished files) (sqrt : K → K)
    (hfilled : ∀ folder ∈ files.data, [] ∉ folder) (hi : i < 4) (hk : k < 100) (hj : j < 4) :
    ∃ hit, files.dpMatching (localDistance sqrt) i k j = .ok hit := by
  obtain ⟨folder, templateData, hfolder, hmem, htemplate, hrec⟩ := h.recording hi hk
  obtain ⟨targets, htargets, hmem', -⟩ := h.folder hj
  refine ⟨_, dpMatching_eq hfolder htemplate htargets ?_ ?_ fun target htarget =>
    measures_framed sqrt (h.frames _ hmem _ hrec) (h.frames _ hmem' _ htarget)⟩
  · rintro rfl
    exact hfilled folder hmem hrec
  · rintro target htarget rfl
    exact hfilled targets hmem' htarget

/-- And a blank template has no first frame. -/
theorem Furnished.dpMatching_blank (h : Furnished files)
    (localDistance : Frame K → Frame K → Except Fault K) {folder : List (Recording K)}
    (hfolder : files.data[i]? = some folder) (hblank : folder[k]? = some []) (hj : j < 4) :
    files.dpMatching localDistance i k j = .error .outOfRange := by
  obtain ⟨targets, htargets, -, hlength⟩ := h.folder hj
  obtain ⟨target, rest, rfl⟩ := List.exists_cons_of_length_pos (l := targets) (by omega)
  rw [dpMatching_scan _ hfolder hblank htargets, runs_cons_error, error_bind]
  rw [scanTarget, score_noTemplate, error_bind]

end Matching

/-! ## The loops of `main` -/

section Main

variable {K : Type} [Field K] [LinearOrder K] {files : FileInput K} {i j : Nat}

/-- One template more. -/
def addHit (localDistance : Frame K → Frame K → Except Fault K) (files : FileInput K)
    (i j n k : Nat) : Except Fault Nat := do
  let hit ← files.dpMatching localDistance i k j
  .ok (n + hit)

/-- The loop over the templates of a folder. -/
def countHits (localDistance : Frame K → Frame K → Except Fault K) (files : FileInput K)
    (i j : Nat) : Except Fault Nat :=
  runs (addHit localDistance files i j) 0 (List.range 100)

/-- Two folders, and a line for them. -/
def compareFolders (localDistance : Frame K → Frame K → Except Fault K) (files : FileInput K)
    (i : Nat) (lines : List (String × String × Nat)) (j : Nat) :
    Except Fault (List (String × String × Nat)) :=
  if i = j then .ok lines
  else do
    let n ← countHits localDistance files i j
    let template ← index FileInput.cities i
    let compared ← index FileInput.cities j
    .ok (lines ++ [(template, compared, n)])

def matchFolders (localDistance : Frame K → Frame K → Except Fault K) (files : FileInput K) :
    Except Fault (List (String × String × Nat)) :=
  runs (fun lines i => runs (compareFolders localDistance files i) lines (List.range 4)) []
    (List.range 4)

theorem main_eq (localDistance : Frame K → Frame K → Except Fault K)
    (disk : String → CityFolder K) :
    main localDistance disk =
      FileInput.getfiledatas disk FileInput.new >>= matchFolders localDistance := rfl

theorem Furnished.addHit_error_or_ok (h : Furnished files) (sqrt : K → K) (hi : i < 4)
    (hj : j < 4) (k : Nat) (hk : k ∈ List.range 100) (n : Nat) :
    addHit (localDistance sqrt) files i j n k = .error .outOfRange ∨
      ∃ n', addHit (localDistance sqrt) files i j n k = .ok n' := by
  rw [addHit]
  rcases h.dpMatching_error_or_ok sqrt hi (List.mem_range.mp hk) hj with herror | ⟨hit, hhit⟩
  · rw [herror]
    exact Or.inl rfl
  · rw [hhit]
    exact Or.inr ⟨_, rfl⟩

theorem Furnished.countHits_blank (h : Furnished files) (sqrt : K → K) (hi : i < 4)
    (hj : j < 4) {folder : List (Recording K)} (hfolder : files.data[i]? = some folder)
    (hblank : [] ∈ folder) : countHits (localDistance sqrt) files i j = .error .outOfRange := by
  obtain ⟨k, hk, hget⟩ := List.getElem_of_mem hblank
  have hmem := List.mem_of_getElem? hfolder
  have hslot : folder[k]? = some [] := List.getElem?_eq_some_iff.mpr ⟨hk, hget⟩
  refine runs_error_of_mem (h.addHit_error_or_ok sqrt hi hj)
    (List.mem_range.mpr (h.slots _ hmem ▸ hk)) (fun n => ?_) 0
  rw [addHit, h.dpMatching_blank _ hfolder hslot hj, error_bind]

theorem Furnished.countHits_ok (h : Furnished files) (sqrt : K → K)
    (hfilled : ∀ folder ∈ files.data, [] ∉ folder) (hi : i < 4) (hj : j < 4) :
    ∃ n, countHits (localDistance sqrt) files i j = .ok n := by
  have hrange : ∀ k ∈ List.range 100, k < 100 := fun k => List.mem_range.mp
  have hstep : ∀ n k, True → k < 100 →
      ∃ n', addHit (localDistance sqrt) files i j n k = .ok n' ∧ True := by
    intro n k _ hk
    obtain ⟨hit, hhit⟩ := h.dpMatching_ok sqrt hfilled hi hk hj
    rw [addHit, hhit]
    exact ⟨_, rfl, trivial⟩
  obtain ⟨n, hn, -⟩ := runs_total hstep trivial hrange
  exact ⟨n, hn⟩

theorem Furnished.compareFolders_error_or_ok (h : Furnished files) (sqrt : K → K) (hi : i < 4)
    (j : Nat) (hj : j ∈ List.range 4) (lines : List (String × String × Nat)) :
    compareFolders (localDistance sqrt) files i lines j = .error .outOfRange ∨
      ∃ lines', compareFolders (localDistance sqrt) files i lines j = .ok lines' := by
  have hj := List.mem_range.mp hj
  rw [compareFolders]
  split
  · exact Or.inr ⟨lines, rfl⟩
  · rcases runs_error_or_ok (h.addHit_error_or_ok sqrt hi hj) 0 with herror | ⟨n, hn⟩
    · rw [countHits, herror]
      exact Or.inl rfl
    · rw [countHits, hn, ok_bind, index_of_lt (show i < FileInput.cities.length from hi),
        ok_bind, index_of_lt (show j < FileInput.cities.length from hj)]
      exact Or.inr ⟨_, rfl⟩

/-- A blank slot anywhere is found out: each folder is compared with another. -/
theorem Furnished.matchFolders_blank (h : Furnished files) (sqrt : K → K)
    {folder : List (Recording K)} (hfolder : folder ∈ files.data) (hblank : [] ∈ folder) :
    matchFolders (localDistance sqrt) files = .error .outOfRange := by
  obtain ⟨i, hi, hget⟩ := List.getElem_of_mem hfolder
  have hfolder : files.data[i]? = some folder := List.getElem?_eq_some_iff.mpr ⟨hi, hget⟩
  have hi : i < 4 := h.folders ▸ hi
  obtain ⟨j, hj, hne⟩ : ∃ j, j < 4 ∧ i ≠ j := by
    rcases Nat.eq_zero_or_pos i with rfl | hpos
    · exact ⟨1, by omega, by omega⟩
    · exact ⟨0, by omega, by omega⟩
  have hcompare : ∀ lines,
      compareFolders (localDistance sqrt) files i lines j = .error .outOfRange := by
    intro lines
    rw [compareFolders, if_neg hne, h.countHits_blank sqrt hi hj hfolder hblank, error_bind]
  refine runs_error_of_mem (fun i' hi' lines => ?_) (List.mem_range.mpr hi) (fun lines => ?_) []
  · exact runs_error_or_ok
      (h.compareFolders_error_or_ok sqrt (List.mem_range.mp hi')) lines
  · exact runs_error_of_mem (h.compareFolders_error_or_ok sqrt hi) (List.mem_range.mpr hj)
      hcompare lines

theorem Furnished.matchFolders_ok (h : Furnished files) (sqrt : K → K)
    (hfilled : ∀ folder ∈ files.data, [] ∉ folder) :
    ∃ lines, matchFolders (localDistance sqrt) files = .ok lines := by
  have hrange : ∀ i ∈ List.range 4, i < 4 := fun i => List.mem_range.mp
  have hcompare : ∀ i, i < 4 → ∀ (lines : List (String × String × Nat)) j, True → j < 4 →
      ∃ lines', compareFolders (localDistance sqrt) files i lines j = .ok lines' ∧ True := by
    intro i hi lines j _ hj
    rw [compareFolders]
    split
    · exact ⟨lines, rfl, trivial⟩
    · obtain ⟨n, hn⟩ := h.countHits_ok sqrt hfilled hi hj
      rw [hn, ok_bind, index_of_lt (show i < FileInput.cities.length from hi), ok_bind,
        index_of_lt (show j < FileInput.cities.length from hj)]
      exact ⟨_, rfl, trivial⟩
  obtain ⟨lines, hlines, -⟩ := runs_total
    (fun (lines : List (String × String × Nat)) i _ hi =>
      runs_total (hcompare i hi) trivial hrange) trivial hrange
  exact ⟨lines, hlines⟩

/-- No access of the program is outside of a vector exactly when every folder has
100 files with a row each, or when a negative row count ends the program while it
is still loading. -/
theorem main_inRange_iff (sqrt : K → K) (disk : String → CityFolder K) :
    main (localDistance sqrt) disk ≠ .error .outOfRange ↔
      (∀ city ∈ FileInput.cities, Complete (disk city)) ∨ Throws disk := by
  have hcomplete : (∀ city ∈ FileInput.cities, Complete (disk city)) →
      FileInput.cities.mapM (fun city => loadFolder (filesOf (disk city)) 100) =
        .ok (FileInput.cities.map fun city => slotsOf (disk city)) := fun h =>
    mapM_eq_ok fun city hcity =>
      loadFolder_fits (h city hcity).loads.count (h city hcity).loads.rows
  rw [main_eq, getfiledatas_eq, throws_iff]
  cases hload : FileInput.cities.mapM fun city => loadFolder (filesOf (disk city)) 100 with
  | error e =>
      show Except.error e ≠ _ ↔ _
      cases e with
      | outOfRange =>
          refine iff_of_false (fun h => h rfl) ?_
          rintro (h | h)
          · cases hload.symm.trans (hcomplete h)
          · cases h
      | lengthError => exact iff_of_true nofun (Or.inr rfl)
  | ok data =>
      obtain ⟨hloads, rfl⟩ := slotsOf_of_mapM hload
      have hfurnished : Furnished
          { filenames := FileInput.cities.map fun city => sortedNames (disk city),
            data := FileInput.cities.map fun city => slotsOf (disk city) } :=
        furnished_slotsOf hloads rfl
      show matchFolders _ _ ≠ _ ↔ _
      refine ⟨fun h => Or.inl fun city hcity => ?_, ?_⟩
      · rw [← (hloads city hcity).complete_iff]
        exact fun hblank =>
          h (hfurnished.matchFolders_blank sqrt (List.mem_map_of_mem hcity) hblank)
      · rintro (h | h)
        · obtain ⟨lines, hlines⟩ := hfurnished.matchFolders_ok sqrt (by
            rw [List.forall_mem_map]
            exact fun city hcity => (hloads city hcity).complete_iff.mpr (h city hcity))
          rw [hlines]
          exact nofun
        · cases h

/-- Four folders without a file: the first template has no first frame. -/
theorem main_emptyFolders :
    main (localDistance id) (fun _ => (∅ : CityFolder ℚ)) = .error .outOfRange := by
  decide +kernel

end Main

end Playspace.Ninshiki
