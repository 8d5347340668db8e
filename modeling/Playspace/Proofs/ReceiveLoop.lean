import Playspace.Citbrains.UdpSocket
import Playspace.Lib.Machine

/-!
# Whether the UDP server goes on listening

The handler starts the next receive in one of its two branches only. On any
error but end of file it returns, and from then on nothing is outstanding and
nothing will be: the server is alive, not terminated, and deaf (`deaf_run`).
`armed_iff` says that this is the only way it happens, for every sequence of
completions and `terminate` calls.
-/

namespace Playspace.Citbrains.Udpsocket

/-- The completions that take the handler's first branch. -/
def ServerEvent.Fails : ServerEvent → Prop
  | .completion error _ _ => error.isSome ∧ error ≠ some .eof
  | .terminate => False

/-- What an event that does not fail hands to `receivedHandler_`. -/
def ServerEvent.data : ServerEvent → Option Bytes
  | .completion _ area bytesTransferred => some (area.take bytesTransferred)
  | .terminate => none

/-- A server that is not terminated waits for exactly one datagram. -/
def Armed (s : UDPServer) : Prop := s.terminated = false → s.outstanding = 1

variable {s s' : UDPServer} {e : ServerEvent}

/-- Everything one event can do. -/
theorem serverStep_cases (h : serverStep s e = .ok s') :
    (e = .terminate ∧ s' = { s with terminated := true }) ∨
    (e.Fails ∧ 0 < s.outstanding ∧ s' = { s with outstanding := s.outstanding - 1 }) ∨
    (∃ bytes, e.data = some bytes ∧ ¬ e.Fails ∧ 0 < s.outstanding ∧
      s' = if s.terminated then
          { s with outstanding := s.outstanding - 1, received := s.received ++ [bytes] }
        else { s with started := s.started + 1, received := s.received ++ [bytes] }) := by
  cases e with
  | terminate =>
      left
      simp only [serverStep, UDPServer.terminate, Except.ok.injEq] at h
      refine ⟨rfl, ?_⟩
      split at h
      · next hterminated => rw [← h, ← hterminated]
      · exact h.symm
  | completion error area n =>
      right
      simp only [serverStep] at h
      split at h
      · cases h
      · next hpos =>
          have hpos : 0 < s.outstanding := by omega
          simp only [UDPServer.receiveHandler, Except.ok.injEq] at h
          split at h
          · next hfails => exact Or.inl ⟨hfails, hpos, h.symm⟩
          · next hok =>
              refine Or.inr ⟨area.take n, rfl, hok, hpos, ?_⟩
              rw [← h]
              cases hterminated : s.terminated with
              | true => rfl
              | false =>
                  simp only [UDPServer.startReceive, Bool.false_eq_true, if_false]
                  rw [Nat.sub_add_cancel hpos]

/-- An event keeps the server armed, unless it is a failed receive. -/
theorem Armed.step (h : Armed s) (hstep : serverStep s e = .ok s')
    (hok : s.terminated = false → ¬ e.Fails) : Armed s' := by
  intro hlive
  rcases serverStep_cases hstep with ⟨-, rfl⟩ | ⟨hfails, -, rfl⟩ | ⟨bytes, -, -, -, rfl⟩
  · cases hlive
  · exact absurd hfails (hok hlive)
  · split at hlive
    · next hterminated =>
        rw [hterminated] at hlive
        cases hlive
    · next hterminated =>
        rw [if_neg hterminated]
        exact h hlive

/-- A failed receive leaves nothing to wait for. -/
theorem Armed.fails (h : Armed s) (hlive : s.terminated = false) (hfails : e.Fails) :
    ∃ s', serverStep s e = .ok s' ∧ s'.terminated = false ∧ s'.outstanding = 0 := by
  cases e with
  | terminate => exact absurd hfails id
  | completion error area n =>
      have hone := h hlive
      have hfails : error.isSome ∧ error ≠ some .eof := hfails
      refine ⟨{ s with outstanding := 0 }, ?_, hlive, rfl⟩
      rw [serverStep, hone, if_neg Nat.one_ne_zero, UDPServer.receiveHandler, if_pos hfails]

/-- With nothing outstanding nothing more is handed on. -/
theorem deaf_run (hzero : s.outstanding = 0) {events : List ServerEvent}
    (hrun : Lib.runs serverStep s events = .ok s') :
    s'.outstanding = 0 ∧ s'.received = s.received := by
  have hstep : ∀ s₁ e s₂, s₁.outstanding = 0 ∧ s₁.received = s.received →
      serverStep s₁ e = .ok s₂ → s₂.outstanding = 0 ∧ s₂.received = s.received := by
    intro s₁ e s₂ ⟨hnone, hreceived⟩ hcall
    rcases serverStep_cases hcall with ⟨-, rfl⟩ | ⟨-, hpos, -⟩ | ⟨_, -, -, hpos, -⟩
    · exact ⟨hnone, hreceived⟩
    · omega
    · omega
  exact Lib.runs_invariant hstep ⟨hzero, rfl⟩ hrun

/-- A terminated server starts no receive. -/
theorem terminated_run (hterminated : s.terminated = true) {events : List ServerEvent}
    (hrun : Lib.runs serverStep s events = .ok s') :
    s'.terminated = true ∧ s'.started = s.started := by
  have hstep : ∀ s₁ e s₂, s₁.terminated = true ∧ s₁.started = s.started →
      serverStep s₁ e = .ok s₂ → s₂.terminated = true ∧ s₂.started = s.started := by
    intro s₁ e s₂ ⟨hterm, hstarted⟩ hcall
    rcases serverStep_cases hcall with ⟨-, rfl⟩ | ⟨-, -, rfl⟩ | ⟨_, -, -, -, rfl⟩
    · exact ⟨rfl, hstarted⟩
    · exact ⟨hterm, hstarted⟩
    · rw [if_pos hterm]
      exact ⟨hterm, hstarted⟩
  exact Lib.runs_invariant hstep ⟨hterminated, rfl⟩ hrun

/-- Without failures everything that arrived was handed on, in order. -/
theorem received_run {events : List ServerEvent} (hok : ∀ e ∈ events, ¬ e.Fails)
    (hrun : Lib.runs serverStep s events = .ok s') :
    s'.received = s.received ++ events.filterMap ServerEvent.data := by
  induction events generalizing s with
  | nil =>
      cases hrun
      rw [List.filterMap_nil, List.append_nil]
  | cons e events ih =>
      cases hcall : serverStep s e with
      | error f =>
          rw [Lib.runs_cons_error hcall] at hrun
          cases hrun
      | ok s₁ =>
          rw [Lib.runs_cons_ok hcall] at hrun
          have hrest := ih (fun e' he' => hok e' (List.mem_cons_of_mem e he')) hrun
          rcases serverStep_cases hcall with ⟨rfl, rfl⟩ | ⟨hfails, -⟩ |
            ⟨bytes, hdata, -, -, rfl⟩
          · exact hrest
          · exact absurd hfails (hok e List.mem_cons_self)
          · have hstored : s'.received = (s.received ++ [bytes]) ++
                events.filterMap ServerEvent.data := by
              rw [hrest]
              split
              · rfl
              · rfl
            rw [hstored, List.filterMap_cons_some hdata, ← List.append_cons]

/-- What is handed on of a datagram: as much as the buffer holds. -/
theorem received_arrival {bytes : Bytes} (h : serverStep s (arrival bytes) = .ok s') :
    s'.received = s.received ++ [bytes.take bufferSize] := by
  have hfails : ¬ (arrival bytes).Fails := fun hfails => by cases hfails.1
  have htake : (bytes.take bufferSize).take (min bytes.length bufferSize) =
      bytes.take bufferSize := by
    rw [List.take_take, List.take_eq_take_iff]
    omega
  have hrun : Lib.runs serverStep s [arrival bytes] = .ok s' := Lib.runs_cons_ok h []
  have hreceived := received_run (fun e he => List.mem_singleton.mp he ▸ hfails) hrun
  rw [hreceived]
  exact congrArg (fun b => s.received ++ [b]) htake

theorem armed_new : Armed UDPServer.new := fun _ => rfl

/-- In every run of a new server: it is armed in every state on the way exactly
when no receive fails before it is terminated; from `terminate` on no receive
is started; and where none fails every completion's bytes are handed on. -/
theorem armed_iff (events : List ServerEvent) :
    ((∀ past rest s, events = past ++ rest →
        Lib.runs serverStep UDPServer.new past = .ok s → Armed s) ↔
      ∀ past e rest s, events = past ++ e :: rest →
        Lib.runs serverStep UDPServer.new past = .ok s → s.terminated = false →
          ¬ e.Fails) ∧
    (∀ past rest s s', events = past ++ rest →
      Lib.runs serverStep UDPServer.new past = .ok s → s.terminated = true →
      Lib.runs serverStep s rest = .ok s' → s'.started = s.started) ∧
    ((∀ e ∈ events, ¬ e.Fails) → ∀ s,
      Lib.runs serverStep UDPServer.new events = .ok s →
      s.received = events.filterMap ServerEvent.data) := by
  refine ⟨⟨?_, ?_⟩, ?_, ?_⟩
  · intro harmed past e rest s hsplit hpast hlive hfails
    have hs := harmed past (e :: rest) s hsplit hpast
    obtain ⟨s', hstep, hlive', hzero⟩ := hs.fails hlive hfails
    have hrun : Lib.runs serverStep UDPServer.new (past ++ [e]) = .ok s' := by
      rw [Lib.runs_append_ok hpast, Lib.runs_cons_ok hstep]
      rfl
    have hone := harmed (past ++ [e]) rest s' (by rw [hsplit, List.append_cons]) hrun hlive'
    omega
  · intro hok past rest s hsplit hpast
    -- The invariant is about the prefix that has been run.
    have hstep : ∀ p s e s', (∀ rest, events = p ++ rest →
          Armed s ∧ Lib.runs serverStep UDPServer.new p = .ok s) →
        serverStep s e = .ok s' → ∀ rest, events = (p ++ [e]) ++ rest →
          Armed s' ∧ Lib.runs serverStep UDPServer.new (p ++ [e]) = .ok s' := by
      intro p s e s' h hcall rest hrest
      rw [← List.append_cons] at hrest
      obtain ⟨hs, hrun⟩ := h (e :: rest) hrest
      refine ⟨hs.step hcall (hok p e rest s hrest hrun), ?_⟩
      rw [Lib.runs_append_ok hrun, Lib.runs_cons_ok hcall]
      rfl
    have hend : ∀ rest, events = ([] ++ past) ++ rest → Armed s ∧ _ :=
      Lib.runs_induction hstep (fun _ _ => ⟨armed_new, rfl⟩) hpast
    exact (hend rest hsplit).1
  · intro past rest s s' _ _ hterminated hrun
    exact (terminated_run hterminated hrun).2
  · intro hok s hrun
    exact received_run hok hrun

/-- One failed receive, and the server waits for nothing and hands nothing on,
whatever happens from then on. -/
theorem armed_not_refused :
    ∃ s, Lib.runs serverStep UDPServer.new [.completion (some (.other 111)) [] 0] =
        .ok s ∧
      s.terminated = false ∧ s.outstanding = 0 ∧
      ∀ events s', Lib.runs serverStep s events = .ok s' → s'.received = [] :=
  ⟨_, rfl, rfl, rfl, fun _ _ hrun => (deaf_run rfl hrun).2⟩

/-- Two datagrams, an end of file and `terminate`. -/
theorem armed_iff_datagrams :
    ∀ past rest s, [arrival (ascii "a"), .completion (some .eof) [] 0,
        arrival (ascii "b"), .terminate] = past ++ rest →
      Lib.runs serverStep UDPServer.new past = .ok s → Armed s := by
  refine (armed_iff _).1.mpr ?_
  intro past e rest s hsplit _ _ hfails
  have he : e ∈ [arrival (ascii "a"), .completion (some .eof) [] 0,
      arrival (ascii "b"), .terminate] := by
    rw [hsplit]
    exact List.mem_append_right past List.mem_cons_self
  fin_cases he
  · exact absurd hfails.1 Bool.false_ne_true
  · exact hfails.2 rfl
  · exact absurd hfails.1 Bool.false_ne_true
  · exact hfails

end Playspace.Citbrains.Udpsocket
