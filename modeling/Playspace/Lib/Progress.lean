import Playspace.Lib.Machine

/-!
# Machines that get on

A machine whose every step takes something from a measure runs for no longer
than the measure allows (`length_le_of_measure`), and one that in addition has a
step to take wherever it has not arrived can always be run until it does
(`exists_runs_of_progress`).
-/

namespace Playspace.Lib

variable {σ ε φ : Type*} {step : σ → ε → Except φ σ} {Inv Goal : σ → Prop}
  {Good : ε → Prop} {μ : σ → ℕ}

theorem length_le_of_measure
    (hstep : ∀ s e s', Inv s → Good e → step s e = .ok s' → Inv s' ∧ μ s' < μ s)
    {s s' : σ} (h : Inv s) {events : List ε} (hgood : ∀ e ∈ events, Good e)
    (hrun : runs step s events = .ok s') : events.length + μ s' ≤ μ s ∧ Inv s' := by
  induction events generalizing s with
  | nil =>
      cases hrun
      exact ⟨Nat.le_of_eq (Nat.zero_add _), h⟩
  | cons e events ih =>
      rw [List.forall_mem_cons] at hgood
      cases hcall : step s e with
      | error f =>
          rw [runs_cons_error hcall] at hrun
          cases hrun
      | ok s₁ =>
          rw [runs_cons_ok hcall] at hrun
          obtain ⟨h₁, hlt⟩ := hstep s e s₁ h hgood.1 hcall
          obtain ⟨hle, h'⟩ := ih h₁ hgood.2 hrun
          rw [List.length_cons]
          exact ⟨by omega, h'⟩

theorem exists_runs_of_progress
    (hprogress : ∀ s, Inv s → ¬ Goal s →
      ∃ e s', Good e ∧ step s e = .ok s' ∧ Inv s' ∧ μ s' < μ s)
    {s : σ} (h : Inv s) :
    ∃ events s', (∀ e ∈ events, Good e) ∧ runs step s events = .ok s' ∧
      Inv s' ∧ Goal s' := by
  induction hn : μ s using Nat.strongRecOn generalizing s with
  | ind n ih =>
      by_cases hgoal : Goal s
      · exact ⟨[], s, fun _ he => absurd he List.not_mem_nil, rfl, h, hgoal⟩
      · obtain ⟨e, s₁, he, hcall, h₁, hlt⟩ := hprogress s h hgoal
        obtain ⟨events, s', hgood, hrun, h', hgoal'⟩ := ih (μ s₁) (hn ▸ hlt) h₁ rfl
        exact ⟨e :: events, s', List.forall_mem_cons.mpr ⟨he, hgood⟩,
          (runs_cons_ok hcall events).trans hrun, h', hgoal'⟩

end Playspace.Lib
