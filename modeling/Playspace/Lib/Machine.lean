import Mathlib.Data.List.Basic
import Mathlib.Data.List.Induction

/-!
# Machines that may stop

A step either takes the machine to its next state or stops it for good. `runs`
takes the events of a list one after another. Two rules are most of what is
needed of it: what every step keeps, history included, holds after every run
that goes through (`runs_induction`, and `runs_invariant` without the history),
and a run that does not go through has a first event that stopped it
(`runs_error_split`). `runs_total` is the rule for a machine whose invariant
keeps it going (`runs_through` where it takes the history), and `runs_simulates`
the one for a machine that follows an abstract one. A list of independent calls
is simpler: `mapM_eq_error_iff` says which of them fails. `outputs` lists what a
run has to bring forth, one answer to each event and its past.
-/

namespace Playspace.Lib

variable {σ ε φ : Type*} {step : σ → ε → Except φ σ}

/-- The events one after another, up to the first that stops the machine. -/
def runs (step : σ → ε → Except φ σ) (s : σ) (events : List ε) : Except φ σ :=
  events.foldlM step s

theorem runs_cons_ok {s s₁ : σ} {e : ε} (h : step s e = .ok s₁) (events : List ε) :
    runs step s (e :: events) = runs step s₁ events := by
  rw [runs, List.foldlM_cons, h]
  rfl

theorem runs_cons_error {s : σ} {e : ε} {f : φ} (h : step s e = .error f)
    (events : List ε) : runs step s (e :: events) = .error f := by
  rw [runs, List.foldlM_cons, h]
  rfl

theorem runs_append_ok {s s₁ : σ} {events : List ε} (h : runs step s events = .ok s₁)
    (rest : List ε) : runs step s (events ++ rest) = runs step s₁ rest := by
  rw [runs, List.foldlM_append]
  rw [runs] at h
  rw [h]
  rfl

/-- What every step keeps, given the events before it, every run keeps. -/
theorem runs_induction {Inv : List ε → σ → Prop}
    (hstep : ∀ past s e s', Inv past s → step s e = .ok s' → Inv (past ++ [e]) s')
    {past events : List ε} {s s' : σ} (h : Inv past s)
    (hrun : runs step s events = .ok s') : Inv (past ++ events) s' := by
  induction events generalizing past s with
  | nil =>
      cases hrun
      rw [List.append_nil]
      exact h
  | cons e events ih =>
      cases hcall : step s e with
      | error f =>
          rw [runs_cons_error hcall] at hrun
          cases hrun
      | ok s₁ =>
          rw [runs_cons_ok hcall] at hrun
          rw [List.append_cons]
          exact ih (hstep past s e s₁ h hcall) hrun

/-- The rule for an invariant that does not look at the history. -/
theorem runs_invariant {Inv : σ → Prop}
    (hstep : ∀ s e s', Inv s → step s e = .ok s' → Inv s') {events : List ε} {s s' : σ}
    (h : Inv s) (hrun : runs step s events = .ok s') : Inv s' := by
  exact @runs_induction σ ε φ step (fun _ => Inv) (fun _ => hstep) [] events s s' h hrun

/-- A run that stops has a first event that stopped it. -/
theorem runs_error_split {events : List ε} {s : σ} {f : φ}
    (h : runs step s events = .error f) :
    ∃ past e rest s₁, events = past ++ e :: rest ∧
      runs step s past = .ok s₁ ∧ step s₁ e = .error f := by
  induction events generalizing s with
  | nil => cases h
  | cons e events ih =>
      cases hcall : step s e with
      | error g =>
          rw [runs_cons_error hcall] at h
          cases h
          exact ⟨[], e, events, s, rfl, rfl, hcall⟩
      | ok s₁ =>
          rw [runs_cons_ok hcall] at h
          obtain ⟨past, e', rest, s₂, rfl, hpast, hstop⟩ := ih h
          exact ⟨e :: past, e', rest, s₂, rfl, (runs_cons_ok hcall past).trans hpast,
            hstop⟩

/-- An invariant that lets every admissible event go through lets every run of
such events go through, and holds at its end. -/
theorem runs_total {Inv : σ → Prop} {Good : ε → Prop}
    (hstep : ∀ s e, Inv s → Good e → ∃ s', step s e = .ok s' ∧ Inv s') {s : σ}
    (h : Inv s) {events : List ε} (hgood : ∀ e ∈ events, Good e) :
    ∃ s', runs step s events = .ok s' ∧ Inv s' := by
  induction events generalizing s with
  | nil => exact ⟨s, rfl, h⟩
  | cons e events ih =>
      obtain ⟨s₁, hcall, h₁⟩ := hstep s e h (hgood e List.mem_cons_self)
      obtain ⟨s', hrun, h'⟩ := ih h₁ fun e' he' => hgood e' (List.mem_cons_of_mem e he')
      exact ⟨s', (runs_cons_ok hcall events).trans hrun, h'⟩

/-- The same rule with the history: what the events so far have established lets
the next one of the run through. -/
theorem runs_through {Inv : List ε → σ → Prop} {events : List ε}
    (hstep : ∀ past e rest s, events = past ++ e :: rest → Inv past s →
      ∃ s', step s e = .ok s' ∧ Inv (past ++ [e]) s') {s : σ} (h : Inv [] s) :
    ∃ s', runs step s events = .ok s' ∧ Inv events s' := by
  induction events using List.reverseRecOn with
  | nil => exact ⟨s, rfl, h⟩
  | append_singleton past e ih =>
      obtain ⟨s₁, hpast, h₁⟩ := ih fun past' e' rest s heq =>
        hstep past' e' (rest ++ [e]) s (by rw [heq, List.append_assoc, List.cons_append])
      obtain ⟨s', hcall, h'⟩ := hstep past e [] s₁ rfl h₁
      exact ⟨s', (runs_append_ok hpast [e]).trans (runs_cons_ok hcall []), h'⟩

/-- A run of events that let the machine through is a fold. -/
theorem runs_eq_foldl {next : σ → ε → σ} {events : List ε}
    (hstep : ∀ e ∈ events, ∀ s, step s e = .ok (next s e)) (s : σ) :
    runs step s events = .ok (events.foldl next s) := by
  induction events generalizing s with
  | nil => rfl
  | cons e events ih =>
      rw [List.forall_mem_cons] at hstep
      rw [runs_cons_ok (hstep.1 s), ih hstep.2, List.foldl_cons]

/-- Where only one fault can stop the machine, only that one stops a run. -/
theorem runs_error_or_ok {f : φ} {events : List ε}
    (hstep : ∀ e ∈ events, ∀ s, step s e = .error f ∨ ∃ s', step s e = .ok s') (s : σ) :
    runs step s events = .error f ∨ ∃ s', runs step s events = .ok s' := by
  induction events generalizing s with
  | nil => exact Or.inr ⟨s, rfl⟩
  | cons e events ih =>
      rcases hstep e List.mem_cons_self s with hstop | ⟨s₁, hcall⟩
      · exact Or.inl (runs_cons_error hstop events)
      · rw [runs_cons_ok hcall]
        exact ih (fun e' he' => hstep e' (List.mem_cons_of_mem e he')) s₁

/-- And an event that it stops in every state stops every run. -/
theorem runs_error_of_mem {f : φ} {events : List ε}
    (hstep : ∀ e ∈ events, ∀ s, step s e = .error f ∨ ∃ s', step s e = .ok s') {e : ε}
    (he : e ∈ events) (hstop : ∀ s, step s e = .error f) (s : σ) :
    runs step s events = .error f := by
  rcases runs_error_or_ok hstep s with hrun | ⟨s', hrun⟩
  · exact hrun
  · obtain ⟨past, rest, rfl⟩ := List.append_of_mem he
    rw [runs, List.foldlM_append] at hrun
    rcases runs_error_or_ok (fun e' he' => hstep e' (List.mem_append_left _ he')) s with
      hpast | ⟨s₁, hpast⟩
    · rw [runs] at hpast
      rw [hpast] at hrun
      cases hrun
    · rw [runs] at hpast
      rw [hpast] at hrun
      cases (runs_cons_error (hstop s₁) rest).symm.trans hrun

/-- A machine that answers every event as an abstract one does answers every run
as the abstract one does. -/
theorem runs_simulates {τ : Type*} {next : τ → ε → τ} {Sim : σ → τ → Prop}
    (hstep : ∀ s t e, Sim s t → ∃ s', step s e = .ok s' ∧ Sim s' (next t e)) {s : σ} {t : τ}
    (h : Sim s t) (events : List ε) :
    ∃ s', runs step s events = .ok s' ∧ Sim s' (events.foldl next t) := by
  induction events generalizing s t with
  | nil => exact ⟨s, rfl, h⟩
  | cons e events ih =>
      obtain ⟨s₁, hcall, h₁⟩ := hstep s t e h
      obtain ⟨s', hrun, h'⟩ := ih h₁
      exact ⟨s', (runs_cons_ok hcall events).trans hrun, h'⟩

/-! ## Lists of calls -/

section Calls

variable {α β : Type*} {f : α → Except φ β} {xs : List α}

/-- A list of calls returns when each of them does. -/
theorem mapM_eq_ok {g : α → β} (h : ∀ x ∈ xs, f x = .ok (g x)) :
    xs.mapM f = .ok (xs.map g) := by
  induction xs with
  | nil => rfl
  | cons x xs ih =>
      rw [List.forall_mem_cons] at h
      rw [List.mapM_cons, h.1, ih h.2]
      rfl

theorem exists_of_mapM_eq_ok {ys : List β} (h : xs.mapM f = .ok ys) :
    ∀ x ∈ xs, ∃ y, f x = .ok y := by
  induction xs generalizing ys with
  | nil => exact fun _ hx => absurd hx List.not_mem_nil
  | cons x xs ih =>
      rw [List.mapM_cons] at h
      cases hx : f x with
      | error e =>
          rw [hx] at h
          cases h
      | ok y =>
          cases hrest : xs.mapM f with
          | error e =>
              rw [hx, hrest] at h
              cases h
          | ok ys' =>
              rw [List.forall_mem_cons]
              exact ⟨⟨y, hx⟩, ih hrest⟩

/-- It fails as the first of them does that fails. -/
theorem mapM_eq_error_iff {e : φ} : xs.mapM f = .error e ↔
    ∃ before x after, xs = before ++ x :: after ∧
      (∀ b ∈ before, ∃ y, f b = .ok y) ∧ f x = .error e := by
  refine ⟨fun h => ?_, ?_⟩
  · induction xs with
    | nil => cases h
    | cons x xs ih =>
        rw [List.mapM_cons] at h
        cases hx : f x with
        | error e' =>
            rw [hx] at h
            cases h
            exact ⟨[], x, xs, rfl, fun _ hb => absurd hb List.not_mem_nil, hx⟩
        | ok y =>
            cases hrest : xs.mapM f with
            | ok ys =>
                rw [hx, hrest] at h
                cases h
            | error e' =>
                rw [hx, hrest] at h
                cases h
                obtain ⟨before, x', after, rfl, hbefore, hstop⟩ := ih hrest
                refine ⟨x :: before, x', after, rfl, ?_, hstop⟩
                rw [List.forall_mem_cons]
                exact ⟨⟨y, hx⟩, hbefore⟩
  · intro ⟨before, x, after, hxs, hbefore, hstop⟩
    subst hxs
    induction before with
    | nil =>
        rw [List.nil_append, List.mapM_cons, hstop]
        rfl
    | cons b before ih =>
        rw [List.forall_mem_cons] at hbefore
        obtain ⟨y, hy⟩ := hbefore.1
        rw [List.cons_append, List.mapM_cons, hy, ih hbefore.2]
        rfl

/-- Where only one fault is possible, a list with a call that has it fails so. -/
theorem mapM_error_of_mem {e : φ} {x : α}
    (h : ∀ x ∈ xs, f x = .error e ∨ ∃ y, f x = .ok y) (hx : x ∈ xs) (hstop : f x = .error e) :
    xs.mapM f = .error e := by
  induction xs with
  | nil => cases hx
  | cons a xs ih =>
      rw [List.forall_mem_cons] at h
      rw [List.mapM_cons]
      obtain ha | ⟨y, ha⟩ := h.1
      · rw [ha]
        rfl
      · obtain rfl | hx := List.mem_cons.mp hx
        · rw [hstop] at ha
          cases ha
        · rw [ha, ih h.2 hx]
          rfl

end Calls

/-! ## Outputs -/

variable {β : Type*}

/-- What each event has to say, given the events before it, in order. -/
def outputs (f : List ε → ε → Option β) (events : List ε) : List β :=
  events.zipIdx.filterMap fun (e, i) => f (events.take i) e

theorem outputs_snoc (f : List ε → ε → Option β) (past : List ε) (e : ε) :
    outputs f (past ++ [e]) = outputs f past ++ (f past e).toList := by
  have hpast : past.zipIdx.filterMap (fun (e', i) => f ((past ++ [e]).take i) e') =
      past.zipIdx.filterMap (fun (e', i) => f (past.take i) e') := by
    refine List.filterMap_congr fun (e', i) hi => ?_
    have hlt := (List.mem_zipIdx' hi).1
    show f ((past ++ [e]).take i) e' = f (past.take i) e'
    rw [List.take_append_of_le_length (Nat.le_of_lt hlt)]
  rw [outputs, List.zipIdx_append, List.filterMap_append, hpast]
  congr 1
  show [(e, 0 + past.length)].filterMap _ = _
  cases h : f past e with
  | none => simp [h]
  | some b => simp [h]

/-- The same for an event that does not look at its past. -/
theorem filterMap_snoc (f : ε → Option β) (past : List ε) (e : ε) :
    (past ++ [e]).filterMap f = past.filterMap f ++ (f e).toList := by
  rw [List.filterMap_append, List.filterMap_cons, List.filterMap_nil]
  cases f e with
  | none => rfl
  | some b => rfl

theorem exists_of_mem_outputs {f : List ε → ε → Option β} {events : List ε} {b : β}
    (h : b ∈ outputs f events) :
    ∃ past e rest, events = past ++ e :: rest ∧ f past e = some b := by
  induction events using List.reverseRecOn with
  | nil => cases h
  | append_singleton past e ih =>
      rw [outputs_snoc, List.mem_append, Option.mem_toList] at h
      obtain h | h := h
      · obtain ⟨past', e', rest, rfl, hout⟩ := ih h
        exact ⟨past', e', rest ++ [e], by simp, hout⟩
      · exact ⟨past, e, [], rfl, h⟩

end Playspace.Lib
