import Playspace.Citbrains.AsyncSocket
import Playspace.Lib.Machine

/-!
# The TCP server at the end of the stream

The data arrives whole and in order, however it is cut. What the handler does
not know is that it is over: an end of file goes through the branch for data, so
it is handed on as an empty string and the next receive is started, which
reports the end of file at once. From then on the server does nothing else, for
as long as it is not terminated (`connection_run`).
-/

namespace Playspace.Citbrains.Asyncsocket

/-- A connected server that waits for data, and what it has handed on. -/
def listening (started : Nat) (received : List Bytes) : TCPServer where
  accepting := false
  loop := { terminated := false, outstanding := 1, started, received }

theorem step_arrival (started : Nat) (received : List Bytes) (c : Chunk) :
    serverStep (listening started received) (arrival c) =
      .ok (listening (started + 1) (received ++ [c.bytes])) := by
  have hall : c.bytes.take c.bytes.length = c.bytes := List.take_length
  show Except.ok (listening (started + 1) (received ++ [c.bytes.take c.bytes.length])) = _
  rw [hall]

/-- The end of file is no end. -/
theorem step_endOfFile (started : Nat) (received : List Bytes) :
    serverStep (listening started received) endOfFile =
      .ok (listening (started + 1) (received ++ [[]])) :=
  rfl

theorem run_arrivals (chunks : List Chunk) (started : Nat) (received : List Bytes) :
    Lib.runs serverStep (listening started received) (chunks.map arrival) =
      .ok (listening (started + chunks.length) (received ++ chunks.map Chunk.bytes)) := by
  induction chunks generalizing started received with
  | nil =>
      rw [List.map_nil, List.map_nil, List.append_nil]
      rfl
  | cons c chunks ih =>
      rw [List.map_cons, Lib.runs_cons_ok (step_arrival started received c), ih,
        List.map_cons, List.length_cons, ← List.append_cons, Nat.add_right_comm,
        Nat.add_assoc]

theorem run_endOfFile (reports : Nat) (started : Nat) (received : List Bytes) :
    Lib.runs serverStep (listening started received)
        (List.replicate reports endOfFile) =
      .ok (listening (started + reports) (received ++ List.replicate reports [])) := by
  induction reports generalizing started received with
  | zero =>
      rw [List.replicate_zero, List.replicate_zero, List.append_nil]
      rfl
  | succ reports ih =>
      rw [List.replicate_succ, Lib.runs_cons_ok (step_endOfFile started received), ih,
        List.replicate_succ, ← List.append_cons, Nat.add_right_comm, Nat.add_assoc]

/-- The state after any number of reports: the chunks were handed on as they
came, then one empty string for each report, and a receive is outstanding. -/
theorem connection_run (chunks : List Chunk) (reports : Nat) :
    Lib.runs serverStep TCPServer.new (connection chunks reports) =
      .ok (listening (1 + chunks.length + reports)
        (chunks.map Chunk.bytes ++ List.replicate reports [])) := by
  have haccept : serverStep TCPServer.new (.accepted none) = .ok (listening 1 []) := rfl
  rw [connection, List.cons_append, Lib.runs_cons_ok haccept,
    Lib.runs_append_ok (run_arrivals chunks 1 []), run_endOfFile, List.nil_append]

/-- The stream is delivered once and the server stops at its end: in every run
of the connection what was handed on makes up the stream, nothing of it is
empty, no receive is outstanding once the end of file was reported, and there is
a bound on the calls of `receivedHandler_`. -/
structure DeliversOnce (chunks : List Chunk) : Prop where
  inOrder : ∀ reports s,
    Lib.runs serverStep TCPServer.new (connection chunks reports) = .ok s →
    s.loop.received.flatten = stream chunks
  nonempty : ∀ reports s,
    Lib.runs serverStep TCPServer.new (connection chunks reports) = .ok s →
    [] ∉ s.loop.received
  stops : ∀ reports s, 0 < reports →
    Lib.runs serverStep TCPServer.new (connection chunks reports) = .ok s →
    s.loop.outstanding = 0
  finite : ∃ calls, ∀ reports s,
    Lib.runs serverStep TCPServer.new (connection chunks reports) = .ok s →
    s.loop.received.length ≤ calls

/-- No stream and no chunking of one is delivered like that. The stream does
arrive in order, and until the end of file is reported nothing empty is handed
on. After that every receive there is hands on an empty string and starts
another, without end. -/
theorem not_deliversOnce (chunks : List Chunk) :
    ¬ DeliversOnce chunks ∧
    (∀ reports, ∃ s,
      Lib.runs serverStep TCPServer.new (connection chunks reports) = .ok s ∧
      s.loop.received = chunks.map Chunk.bytes ++ List.replicate reports [] ∧
      s.loop.received.flatten = stream chunks ∧
      s.loop.outstanding = 1 ∧ s.loop.started = 1 + chunks.length + reports) ∧
    ∀ s, Lib.runs serverStep TCPServer.new (connection chunks 0) = .ok s →
      [] ∉ s.loop.received := by
  refine ⟨?_, ?_, ?_⟩
  · intro h
    exact absurd (h.stops 1 _ Nat.one_pos (connection_run chunks 1)) Nat.one_ne_zero
  · intro reports
    refine ⟨_, connection_run chunks reports, rfl, ?_, rfl, rfl⟩
    show (chunks.map Chunk.bytes ++ List.replicate reports []).flatten = _
    rw [List.flatten_append, List.flatten_replicate_nil, List.append_nil, stream]
  · intro s hrun hempty
    rw [connection_run] at hrun
    cases hrun
    have hchunk : [] ∈ chunks.map Chunk.bytes := by
      rwa [← List.append_nil (chunks.map Chunk.bytes)]
    obtain ⟨c, -, hc⟩ := List.mem_map.mp hchunk
    exact c.ne_nil hc

/-- The chunk `hi`. -/
def hi : Chunk where
  bytes := ascii "hi"
  ne_nil := by decide
  length_le := by decide

/-- One chunk and three reports of the end of file: three empty strings, and a
receive is outstanding. -/
theorem deliversOnce_hi :
    ∃ s, Lib.runs serverStep TCPServer.new (connection [hi] 3) = .ok s ∧
      s.loop.received = [ascii "hi", [], [], []] ∧ s.loop.outstanding = 1 :=
  ⟨_, connection_run [hi] 3, rfl, rfl⟩

end Playspace.Citbrains.Asyncsocket
