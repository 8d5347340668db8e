import Mathlib.Algebra.BigOperators.Ring.Finset
import Mathlib.Algebra.Order.BigOperators.Group.Finset
import Playspace.Lib.HeldPaths
import Playspace.Proofs.VoiceData

/-!
# Which recordings the matcher takes for the same

The distance of two frames is 0 only for the same frame, so a score is 0 exactly
when a warping path goes through nothing but cells with the same frame twice.
Such a path can hold a frame as long as it likes: the matcher takes two
recordings for the same exactly when they are the same frames one after another,
no matter how long each of them lasts (`score_eq_zero_iff`). Then no other score
is better, and the last of the targets that are the same is the one that is found
(`dpMatching_held`). The two recordings of a score may change places
(`score_comm`).
-/

namespace Playspace.Ninshiki

open Playspace.Lib

variable {K : Type}

/-! ## The distance of two frames -/

section Distance

variable [Field K] {a b : Frame K} {templateData target : Recording K}

def squares (a b : Frame K) : K :=
  ∑ i ∈ Finset.range FileInput.dimension,
    (a.getD i 0 - b.getD i 0) * (a.getD i 0 - b.getD i 0)

def frameDistance (sqrt : K → K) (a b : Frame K) : K := sqrt (squares a b)

theorem squares_comm (a b : Frame K) : squares a b = squares b a := by
  refine Finset.sum_congr rfl fun i _ => ?_
  rw [← neg_sub, neg_mul_neg]

theorem foldl_add_range (g : ℕ → K) (n : ℕ) :
    (List.range n).foldl (fun x i => x + g i) 0 = ∑ i ∈ Finset.range n, g i := by
  induction n with
  | zero => rfl
  | succ n ih =>
      rw [List.range_succ, List.foldl_append, ih, Finset.sum_range_succ]
      rfl

theorem localDistance_eq (sqrt : K → K) (ha : a.length = FileInput.dimension)
    (hb : b.length = FileInput.dimension) :
    localDistance sqrt a b = .ok (frameDistance sqrt a b) := by
  have hrun : (List.range FileInput.dimension).foldlM
      (fun resultDistance i => do
        let p ← index a i
        let q ← index b i
        .ok (resultDistance + (p - q) * (p - q))) (0 : K) =
      .ok (squares a b) := by
    rw [squares, ← foldl_add_range]
    refine runs_eq_foldl (fun i hi x => ?_) 0
    have hlt := List.mem_range.mp hi
    rw [index_getD (ha.symm ▸ hlt) 0, index_getD (hb.symm ▸ hlt) 0]
    rfl
  rw [localDistance, hrun, ok_bind, frameDistance]

theorem measures_frameDistance (sqrt : K → K) (htemplate : Framed templateData)
    (htarget : Framed target) :
    Measures (localDistance sqrt) (frameDistance sqrt) templateData target :=
  fun a ha b hb => localDistance_eq sqrt (htemplate a ha) (htarget b hb)

variable [LinearOrder K] [IsStrictOrderedRing K]

theorem squares_nonneg (a b : Frame K) : 0 ≤ squares a b :=
  Finset.sum_nonneg fun _ _ => mul_self_nonneg _

theorem squares_eq_zero_iff (ha : a.length = FileInput.dimension)
    (hb : b.length = FileInput.dimension) : squares a b = 0 ↔ a = b := by
  rw [squares, Finset.sum_eq_zero_iff_of_nonneg fun _ _ => mul_self_nonneg _]
  constructor
  · intro h
    refine List.ext_getElem (ha.trans hb.symm) fun i hi hi' => ?_
    have hterm := h i (Finset.mem_range.mpr (ha ▸ hi))
    rw [mul_self_eq_zero, sub_eq_zero, List.getD_eq_getElem _ _ hi,
      List.getD_eq_getElem _ _ hi'] at hterm
    exact hterm
  · rintro rfl i -
    rw [sub_self, mul_zero]

/-- What is asked of the square root of the platform. -/
structure IsSqrt (sqrt : K → K) : Prop where
  nonneg : ∀ x, 0 ≤ x → 0 ≤ sqrt x
  eq_zero_iff : ∀ x, 0 ≤ x → (sqrt x = 0 ↔ x = 0)

variable {sqrt : K → K}

theorem frameDistance_nonneg (hsqrt : IsSqrt sqrt) (a b : Frame K) :
    0 ≤ frameDistance sqrt a b :=
  hsqrt.nonneg _ (squares_nonneg a b)

theorem frameDistance_eq_zero_iff (hsqrt : IsSqrt sqrt) (ha : a.length = FileInput.dimension)
    (hb : b.length = FileInput.dimension) : frameDistance sqrt a b = 0 ↔ a = b := by
  rw [frameDistance, hsqrt.eq_zero_iff _ (squares_nonneg a b), squares_eq_zero_iff ha hb]

end Distance

/-! ## Recordings -/

section Recordings

variable {templateData : Recording K}

theorem map_getD_range {α : Type} (xs : List α) (fill : α) :
    (List.range xs.length).map (fun i => xs.getD i fill) = xs := by
  refine List.ext_getElem (by simp) fun i hi hi' => ?_
  rw [List.getElem_map, List.getElem_range, List.getD_eq_getElem _ _ hi']

theorem Framed.getD {i : ℕ} (h : Framed templateData) (hi : i ≤ templateData.length - 1)
    (hne : templateData ≠ []) : (templateData.getD i []).length = FileInput.dimension := by
  have hlt : i < templateData.length :=
    Nat.lt_of_le_pred (List.length_pos_of_ne_nil hne) hi
  rw [List.getD_eq_getElem _ _ hlt]
  exact h _ (List.getElem_mem hlt)

variable [LinearOrder K]

/-- The frames of a recording, a frame that lasts taken once. -/
def heldFrames (recording : Recording K) : Recording K :=
  recording.destutter (· ≠ ·)

theorem heldValues_getD (h : templateData ≠ []) :
    heldValues (fun i => templateData.getD i []) (templateData.length - 1) =
      heldFrames templateData := by
  have hlength : templateData.length - 1 + 1 = templateData.length :=
    Nat.succ_pred_eq_of_pos (List.length_pos_of_ne_nil h)
  rw [heldValues_eq_destutter, hlength, map_getD_range, heldFrames]

end Recordings

/-! ## The score -/

section Score

variable [Field K] {sqrt : K → K} {templateData target : Recording K}

/-- The warping paths of the one order are those of the other with the two kinds
of step exchanged. -/
theorem charges_swap (sqrt : K → K) (templateData target : Recording K) :
    (charges (frameDistance sqrt) templateData target).swap =
      charges (frameDistance sqrt) target templateData := by
  have hcomm : ∀ a b : Frame K, frameDistance sqrt a b = frameDistance sqrt b a :=
    fun a b => by rw [frameDistance, frameDistance, squares_comm]
  simp only [charges, Charges.swap, hcomm (templateData.getD _ [])]

variable [LinearOrder K]

/-- A recording is as far from another as the other from it. -/
theorem score_comm (sqrt : K → K) (htemplate : Framed templateData) (htarget : Framed target)
    (hne : templateData ≠ []) (hne' : target ≠ []) :
    score (localDistance sqrt) templateData target =
      score (localDistance sqrt) target templateData := by
  rw [score_eq (measures_frameDistance sqrt htemplate htarget) hne hne',
    score_eq (measures_frameDistance sqrt htarget htemplate) hne' hne, scoreOf, scoreOf,
    cellCost, cellCost, ← charges_swap, Charges.cappedCost_swap, Nat.add_comm]

variable [IsStrictOrderedRing K]

/-- A cell is free where the frames are the same. -/
theorem charges_detects (hsqrt : IsSqrt sqrt) (htemplate : Framed templateData)
    (htarget : Framed target) (hne : templateData ≠ []) (hne' : target ≠ []) :
    (charges (frameDistance sqrt) templateData target).Detects
      (fun i => templateData.getD i []) (fun j => target.getD j [])
      (templateData.length - 1) (target.length - 1) := by
  have hcell : ∀ i j, i ≤ templateData.length - 1 → j ≤ target.length - 1 →
      (frameDistance sqrt (templateData.getD i []) (target.getD j []) = 0 ↔
        templateData.getD i [] = target.getD j []) := fun i j hi hj =>
    frameDistance_eq_zero_iff hsqrt (htemplate.getD hi hne) (htarget.getD hj hne')
  refine ⟨hcell 0 0 (Nat.zero_le _) (Nat.zero_le _), hcell, hcell, fun i j hi hj => ?_⟩
  rw [← hcell i j hi hj, charges_diagonal, mul_eq_zero]
  exact or_iff_right (by norm_num)

theorem scoreOf_nonneg (hsqrt : IsSqrt sqrt) (templateData target : Recording K) :
    0 ≤ scoreOf (frameDistance sqrt) templateData target := by
  have hnonneg := frameDistance_nonneg hsqrt
  have hc : (charges (frameDistance sqrt) templateData target).Nonneg :=
    charges_nonneg hnonneg target
  have hleast := Charges.leastCost_nonneg hc (hnonneg _ _) (templateData.length - 1)
    (target.length - 1)
  refine div_nonneg ?_ (Nat.cast_nonneg _)
  obtain ⟨-, -, heq⟩ | heq := Charges.cappedCost_cases hc cap
    (templateData.length - 1) (target.length - 1)
  · rw [cellCost, heq]
    exact hleast
  · rw [cellCost, heq]
    exact le_min (Nat.cast_nonneg _) hleast

theorem scoreOf_eq_zero_iff (hsqrt : IsSqrt sqrt) (htemplate : Framed templateData)
    (htarget : Framed target) (hne : templateData ≠ []) (hne' : target ≠ []) :
    scoreOf (frameDistance sqrt) templateData target = 0 ↔
      heldFrames templateData = heldFrames target := by
  have hnonneg := frameDistance_nonneg hsqrt
  have hlength : ((templateData.length + target.length : ℕ) : K) ≠ 0 := by
    have hpos := List.length_pos_of_ne_nil hne
    exact Nat.cast_ne_zero.mpr (by omega)
  have hcap : (0 : K) < cap := Nat.cast_pos.mpr (by norm_num)
  rw [scoreOf, div_eq_zero_iff, or_iff_left hlength, cellCost,
    Charges.cappedCost_eq_zero_iff (charges_nonneg hnonneg target) (hnonneg _ _)
      (charges_detects hsqrt htemplate htarget hne hne') hcap,
    heldValues_getD hne, heldValues_getD hne']

/-- The score is 0 exactly for the same frames one after another, however long
each of them lasts in the one recording and in the other. -/
theorem score_eq_zero_iff (hsqrt : IsSqrt sqrt) (htemplate : Framed templateData)
    (htarget : Framed target) (hne : templateData ≠ []) (hne' : target ≠ []) :
    score (localDistance sqrt) templateData target = .ok 0 ↔
      heldFrames templateData = heldFrames target := by
  rw [score_eq (measures_frameDistance sqrt htemplate htarget) hne hne', Except.ok.injEq,
    scoreOf_eq_zero_iff hsqrt htemplate htarget hne hne']

/-! ## The match -/

variable {files : FileInput K} {tmpfolder tmpfileNum targetFolder : ℕ}
  {folder targets : List (Recording K)}

/-- Where some targets are the same as the template, the last of them is found:
the call returns 1 when it has the template's number, and 0 otherwise. -/
theorem dpMatching_held (hsqrt : IsSqrt sqrt)
    (hfolder : files.data[tmpfolder]? = some folder)
    (hget : folder[tmpfileNum]? = some templateData)
    (htargets : files.data[targetFolder]? = some targets) (htemplate : Framed templateData)
    (hframed : ∀ target ∈ targets, Framed target) (hne : templateData ≠ [])
    (hnes : ∀ target ∈ targets, target ≠ [])
    (hsame : ∃ target ∈ targets, heldFrames templateData = heldFrames target) :
    ∃ k, IsGreatest {k | ∃ target, targets[k]? = some target ∧
        heldFrames templateData = heldFrames target} k ∧
      files.dpMatching (localDistance sqrt) tmpfolder tmpfileNum targetFolder =
        .ok (if k = tmpfileNum then 1 else 0) := by
  let scores := targets.map (scoreOf (frameDistance sqrt) templateData)
  have hzero : ∀ target ∈ targets, scoreOf (frameDistance sqrt) templateData target = 0 ↔
      heldFrames templateData = heldFrames target := fun target h =>
    scoreOf_eq_zero_iff hsqrt htemplate (hframed target h) hne (hnes target h)
  obtain ⟨same, hmem, hheld⟩ := hsame
  have hmemzero : (0 : K) ∈ scores :=
    List.mem_map.mpr ⟨same, hmem, (hzero same hmem).mpr hheld⟩
  refine ⟨_, ?_, dpMatching_eq hfolder hget htargets hne hnes fun target h =>
    measures_frameDistance sqrt htemplate (hframed target h)⟩
  have hscan := (foldl_visit_scanned (10 ^ 9) scores).shortest_eq_iff
    (scores.foldl Scan.visit
      ({ minDistance := 10 ^ 9, voiceNum := 0, shortest := 0 } : Scan K)).shortest
  obtain ⟨-, s, hs, hleast, hlast⟩ | ⟨hworse, -⟩ := hscan.mp rfl
  · -- the least of the scores is 0, since no score is below
    have hs0 : s = 0 := by
      obtain ⟨target, -, rfl⟩ := List.mem_map.mp (List.mem_of_getElem? hs)
      exact le_antisymm (hleast 0 hmemzero) (scoreOf_nonneg hsqrt templateData target)
    subst hs0
    refine ⟨?_, fun j ⟨target, hj, hj'⟩ => hlast j ?_⟩
    · rw [List.getElem?_map, Option.map_eq_some_iff] at hs
      obtain ⟨target, htarget, hscore⟩ := hs
      exact ⟨target, htarget, (hzero target (List.mem_of_getElem? htarget)).mp hscore⟩
    · rw [List.getElem?_map, hj, Option.map_some,
        (hzero target (List.mem_of_getElem? hj)).mpr hj']
  · have hbound : (0 : K) ≤ 10 ^ 9 := by positivity
    exact absurd (hworse 0 hmemzero) (not_lt.mpr hbound)

end Score

/-! ## Two words, spoken at two speeds -/

def sampleFrame (x : ℚ) : Frame ℚ := x :: List.replicate 14 0

def sampleSlow : Recording ℚ := [sampleFrame 0, sampleFrame 0, sampleFrame 1]

def sampleQuick : Recording ℚ := [sampleFrame 0, sampleFrame 1]

/-- The sums of squares of the samples are 0 and 1, and their own roots. -/
theorem isSqrt_sample : IsSqrt (id : ℚ → ℚ) := ⟨fun _ h => h, fun _ _ => Iff.rfl⟩

theorem framed_slow : Framed sampleSlow := by
  simp [Framed, sampleSlow, sampleFrame, FileInput.dimension]

theorem framed_quick : Framed sampleQuick := by
  simp [Framed, sampleQuick, sampleFrame, FileInput.dimension]

theorem score_zero_sample : score (localDistance (id : ℚ → ℚ)) sampleSlow sampleQuick = .ok 0 :=
  (score_eq_zero_iff isSqrt_sample framed_slow framed_quick (List.cons_ne_nil _ _)
    (List.cons_ne_nil _ _)).mpr (by decide +kernel)

theorem score_comm_sample : score (localDistance (id : ℚ → ℚ)) sampleSlow sampleQuick =
    score (localDistance (id : ℚ → ℚ)) sampleQuick sampleSlow :=
  score_comm id framed_slow framed_quick (List.cons_ne_nil _ _) (List.cons_ne_nil _ _)

def sampleFiles : FileInput ℚ :=
  ⟨[], [[sampleSlow], [sampleSlow, [sampleFrame 1], sampleQuick]]⟩

/-- The first of the targets is the template itself, and a later one is the same. -/
theorem dpMatching_held_sample :
    sampleFiles.dpMatching (localDistance (id : ℚ → ℚ)) 0 0 1 = .ok 0 := by
  have hfolder : sampleFiles.data[0]? = some [sampleSlow] := rfl
  have htargets : sampleFiles.data[1]? = some [sampleSlow, [sampleFrame 1], sampleQuick] := rfl
  have hframed : ∀ target ∈ [sampleSlow, [sampleFrame 1], sampleQuick], Framed target := by
    simp [Framed, sampleSlow, sampleQuick, sampleFrame, FileInput.dimension]
  have hnes : ∀ target ∈ [sampleSlow, [sampleFrame 1], sampleQuick], target ≠ [] := by
    simp [sampleSlow, sampleQuick]
  have hheld : heldFrames sampleSlow = heldFrames sampleQuick := by decide +kernel
  have hget : [sampleSlow][0]? = some sampleSlow := rfl
  obtain ⟨k, ⟨⟨target, hk, -⟩, hlast⟩, hrun⟩ :=
    dpMatching_held isSqrt_sample hfolder hget htargets framed_slow hframed
      (List.cons_ne_nil _ _) hnes ⟨sampleSlow, List.mem_cons_self, rfl⟩
  have hle : 2 ≤ k := hlast ⟨sampleQuick, rfl, hheld⟩
  have hne : k ≠ 0 := by omega
  rw [hrun, if_neg hne]

end Playspace.Ninshiki
