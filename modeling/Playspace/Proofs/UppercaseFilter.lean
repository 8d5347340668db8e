import Mathlib.Tactic.Common
import Playspace.Device.UnixDomainSocket
import Playspace.Lib.Machine

/-!
# Every reply is the request in upper case

What is between the two threads is one sequence of bytes: what the filter sent
back, what it is about to send, and what it has still to read, the last in upper
case. No act of either thread changes that sequence except that `main` takes its
front, so `Faithful` holds in every interleaving and every cut of the transfers,
and a reply that is shown is the request in upper case.
-/

namespace Playspace.UnixDomainSocket

open Playspace.Citbrains (Bytes)
open Playspace.Lib (StreamSocket)

variable {requestSocket replySocket : StreamSocket UInt8}
  {s s' : Session requestSocket replySocket}

def upper (request : Bytes) : Bytes := request.map toupper

/-! ## What is in flight -/

def Client.unsent : Client → Bytes
  | .writing _ rest => rest
  | _ => []

/-- The request that was not answered yet, if there is one. -/
def Client.pending : Client → List Bytes
  | .prompt => []
  | .writing request _ => [request]
  | .reading request _ => [request]
  | .undefined => [[]]

def Client.received : Client → Bytes
  | .reading _ reply => reply
  | _ => []

/-- The operation the client is in has something left to do. -/
def Client.Busy : Client → Prop
  | .writing _ rest => rest ≠ []
  | .reading request reply => reply.length < request.length
  | _ => True

def Filter.unsent : Filter → Bytes
  | .writing rest => rest
  | .reading => []

/-- The bytes the client has still to get, in order. -/
def Session.inFlight (s : Session requestSocket replySocket) : Bytes :=
  replySocket.content s.replies ++ s.filter.unsent ++
    upper (requestSocket.content s.requests ++ s.client.unsent)

/-- The requests entered in a run. -/
def asked (events : List Act) : List Bytes :=
  events.filterMap fun e => match e with
    | .enter request => some request
    | _ => none

structure Faithful (asked : List Bytes) (s : Session requestSocket replySocket) : Prop where
  shown : ∃ past, asked = past ++ s.client.pending ∧ s.shown = past.map upper
  bytes : s.client.received ++ s.inFlight = (s.client.pending.map upper).flatten
  client : s.client.Busy
  filter : s.filter ≠ .writing []
  chunk : s.filter.unsent.length ≤ dataSize

/-! ## The acts -/

theorem step_enter {request : Bytes} (h : step s (.enter request) = .ok s') :
    s.client = .prompt ∧ s' = { s with
      client := if request = [] then .undefined else .writing request request } := by
  simp only [step] at h
  split at h
  · next hclient =>
      cases h
      exact ⟨hclient, rfl⟩
  · cases h

theorem step_clientWrite {choice : Nat} (h : step s (.clientWrite choice) = .ok s') :
    ∃ request rest n requests,
      s.client = .writing request rest ∧
      requestSocket.write s.requests rest choice = some (n, requests) ∧
      s' = { s with
        requests
        client := if rest.drop n = [] then .reading request []
          else .writing request (rest.drop n) } := by
  simp only [step] at h
  split at h
  · next request rest hclient =>
      split at h
      · next n requests hwrite =>
          cases h
          exact ⟨request, rest, n, requests, hclient, hwrite, rfl⟩
      · cases h
  · cases h

theorem step_clientRead {choice : Nat} (h : step s (.clientRead choice) = .ok s') :
    ∃ request reply got replies,
      s.client = .reading request reply ∧
      replySocket.read s.replies (request.length - reply.length) choice =
        some (got, replies) ∧
      s' = if (reply ++ got).length = request.length then
          { s with replies, client := .prompt, shown := s.shown ++ [reply ++ got] }
        else { s with replies, client := .reading request (reply ++ got) } := by
  simp only [step] at h
  split at h
  · next request reply hclient =>
      split at h
      · next got replies hread =>
          refine ⟨request, reply, got, replies, hclient, hread, ?_⟩
          split at h
          · next hfull =>
              cases h
              rw [if_pos hfull]
          · next hpart =>
              cases h
              rw [if_neg hpart]
      · cases h
  · cases h

theorem step_filterRead {choice : Nat} (h : step s (.filterRead choice) = .ok s') :
    ∃ data requests, s.filter = .reading ∧
      requestSocket.read s.requests dataSize choice = some (data, requests) ∧
      s' = { s with requests, filter := .writing (upper data) } := by
  simp only [step] at h
  split at h
  · next hfilter =>
      split at h
      · next data requests hread =>
          cases h
          exact ⟨data, requests, hfilter, hread, rfl⟩
      · cases h
  · cases h

theorem step_filterWrite {choice : Nat} (h : step s (.filterWrite choice) = .ok s') :
    ∃ rest n replies, s.filter = .writing rest ∧
      replySocket.write s.replies rest choice = some (n, replies) ∧
      s' = { s with
        replies
        filter := if rest.drop n = [] then .reading else .writing (rest.drop n) } := by
  simp only [step] at h
  split at h
  · next rest hfilter =>
      split at h
      · next n replies hwrite =>
          cases h
          exact ⟨rest, n, replies, hfilter, hwrite, rfl⟩
      · cases h
  · cases h

@[simp] theorem Client.unsent_writing (request rest : Bytes) :
    (Client.writing request rest).unsent = rest := rfl

@[simp] theorem Client.unsent_reading (request reply : Bytes) :
    (Client.reading request reply).unsent = [] := rfl

@[simp] theorem Filter.unsent_writing (rest : Bytes) : (Filter.writing rest).unsent = rest :=
  rfl

@[simp] theorem Filter.unsent_reading : Filter.reading.unsent = [] := rfl

@[simp] theorem unsent_writing_or_reading (request rest : Bytes) :
    (if rest = [] then Client.reading request [] else .writing request rest).unsent =
      rest := by
  split
  · next h => exact h.symm
  · rfl

@[simp] theorem pending_writing_or_reading (request rest : Bytes) :
    (if rest = [] then Client.reading request [] else .writing request rest).pending =
      [request] := by
  split <;> rfl

@[simp] theorem received_writing_or_reading (request rest : Bytes) :
    (if rest = [] then Client.reading request [] else .writing request rest).received =
      [] := by
  split <;> rfl

@[simp] theorem unsent_reading_or_writing (rest : Bytes) :
    (if rest = [] then Filter.reading else .writing rest).unsent = rest := by
  split
  · next h => exact h.symm
  · rfl

@[simp] theorem length_upper (request : Bytes) : (upper request).length = request.length :=
  List.length_map _

@[simp] theorem upper_append (xs ys : Bytes) : upper (xs ++ ys) = upper xs ++ upper ys :=
  List.map_append

@[simp] theorem upper_nil : upper [] = [] := rfl

/-- `main` moves bytes to the buffer without a change to what is in flight. -/
theorem inFlight_clientWrite {choice : Nat} (h : step s (.clientWrite choice) = .ok s') :
    s'.inFlight = s.inFlight := by
  obtain ⟨request, rest, n, requests, hclient, hwrite, rfl⟩ := step_clientWrite h
  obtain ⟨-, -, hcontent⟩ := requestSocket.write_some hwrite
  simp only [Session.inFlight, unsent_writing_or_reading, hclient, Client.unsent_writing,
    hcontent, List.append_assoc, List.take_append_drop]

theorem inFlight_filterRead {choice : Nat} (h : step s (.filterRead choice) = .ok s') :
    s'.inFlight = s.inFlight := by
  obtain ⟨data, requests, hfilter, hread, rfl⟩ := step_filterRead h
  obtain ⟨-, -, hcontent⟩ := requestSocket.read_some hread
  simp only [Session.inFlight, hfilter, Filter.unsent_writing, Filter.unsent_reading,
    hcontent, upper_append, List.append_nil, List.append_assoc]

theorem inFlight_filterWrite {choice : Nat} (h : step s (.filterWrite choice) = .ok s') :
    s'.inFlight = s.inFlight := by
  obtain ⟨rest, n, replies, hfilter, hwrite, rfl⟩ := step_filterWrite h
  obtain ⟨-, -, hcontent⟩ := replySocket.write_some hwrite
  simp only [Session.inFlight, unsent_reading_or_writing, hfilter, Filter.unsent_writing,
    hcontent, List.append_assoc, List.take_append_drop]

/-! ## Every run is faithful -/

theorem faithful_start : Faithful [] (Session.start requestSocket replySocket) :=
  ⟨⟨[], rfl, rfl⟩, by
    simp [Session.start, Session.inFlight, StreamSocket.content_empty, Client.received,
      Client.pending, Client.unsent], trivial, by simp [Session.start], Nat.zero_le _⟩

theorem Faithful.clientWrite {texts : List Bytes} {choice : Nat} (h : Faithful texts s)
    (hstep : step s (.clientWrite choice) = .ok s') : Faithful texts s' := by
  have hflight := inFlight_clientWrite hstep
  obtain ⟨past, htexts, hshown⟩ := h.shown
  have hbytes := h.bytes
  have hbusy := h.client
  obtain ⟨request, rest, n, requests, hclient, hwrite, rfl⟩ := step_clientWrite hstep
  obtain ⟨hn, hle, -⟩ := requestSocket.write_some hwrite
  rw [hclient] at htexts hbytes hbusy
  refine ⟨⟨past, ?_, hshown⟩, ?_, ?_, h.filter, h.chunk⟩
  · rw [pending_writing_or_reading]
    exact htexts
  · rw [received_writing_or_reading, pending_writing_or_reading, hflight]
    exact hbytes
  · show Client.Busy (if rest.drop n = [] then _ else _)
    split
    · show 0 < request.length
      have hlength : s.inFlight.length = request.length := by
        have := congrArg List.length hbytes
        simpa [Client.received, Client.pending] using this
      rw [← hlength]
      have hrest : rest.length ≤ s.inFlight.length := by
        simp [Session.inFlight, hclient]
        omega
      omega
    · next hne => exact hne

theorem Faithful.filterRead {texts : List Bytes} {choice : Nat} (h : Faithful texts s)
    (hstep : step s (.filterRead choice) = .ok s') : Faithful texts s' := by
  have hflight := inFlight_filterRead hstep
  obtain ⟨data, requests, hfilter, hread, rfl⟩ := step_filterRead hstep
  obtain ⟨hne, hsize, -⟩ := requestSocket.read_some hread
  refine ⟨h.shown, ?_, h.client, ?_, ?_⟩
  · rw [hflight]
    exact h.bytes
  · intro hnil
    have hlength := congrArg (fun f => f.unsent.length) hnil
    simp only [Filter.unsent, length_upper, List.length_nil] at hlength
    exact hne (List.length_eq_zero_iff.mp hlength)
  · simp only [Filter.unsent, length_upper]
    exact hsize

theorem Faithful.filterWrite {texts : List Bytes} {choice : Nat} (h : Faithful texts s)
    (hstep : step s (.filterWrite choice) = .ok s') : Faithful texts s' := by
  have hflight := inFlight_filterWrite hstep
  have hchunk := h.chunk
  obtain ⟨rest, n, replies, hfilter, hwrite, rfl⟩ := step_filterWrite hstep
  rw [hfilter] at hchunk
  refine ⟨h.shown, ?_, h.client, ?_, ?_⟩
  · rw [hflight]
    exact h.bytes
  · show (if rest.drop n = [] then Filter.reading else .writing (rest.drop n)) ≠ _
    split
    · simp
    · next hne => simpa using hne
  · simp only [unsent_reading_or_writing, List.length_drop]
    exact le_trans (Nat.sub_le _ _) hchunk

theorem Faithful.clientRead {texts : List Bytes} {choice : Nat} (h : Faithful texts s)
    (hstep : step s (.clientRead choice) = .ok s') : Faithful texts s' := by
  obtain ⟨past, htexts, hshown⟩ := h.shown
  have hbytes := h.bytes
  obtain ⟨request, reply, got, replies, hclient, hread, rfl⟩ := step_clientRead hstep
  obtain ⟨-, hsize, hcontent⟩ := replySocket.read_some hread
  simp only [hclient, Client.received, Client.pending, Client.unsent, Session.inFlight,
    List.map_singleton, List.flatten_singleton] at hbytes
  rw [hclient] at htexts
  -- what was read is the front of what was in flight
  have hfront : (reply ++ got) ++ (replySocket.content replies ++ s.filter.unsent ++
      upper (requestSocket.content s.requests ++ [])) = upper request := by
    rw [← hbytes, hcontent]
    simp only [List.append_assoc]
  split
  · next hfull =>
      obtain ⟨hreply, hnothing⟩ := List.append_inj (hfront.trans (List.append_nil _).symm)
        (by rw [hfull, length_upper])
      refine ⟨⟨past ++ [request], ?_, ?_⟩, ?_, trivial, h.filter, h.chunk⟩
      · rw [htexts]
        exact (List.append_nil _).symm
      · rw [hreply, hshown, List.map_append]
        rfl
      · simp only [Session.inFlight, Client.received, Client.unsent]
        exact hnothing
  · next hpart =>
      refine ⟨⟨past, htexts, hshown⟩, ?_, ?_, h.filter, h.chunk⟩
      · simp only [Session.inFlight, Client.received, Client.unsent, Client.pending,
          List.map_singleton, List.flatten_singleton]
        exact hfront
      · have hlength := congrArg List.length hfront
        simp only [List.length_append, length_upper] at hlength hpart
        show (reply ++ got).length < request.length
        rw [List.length_append]
        omega

theorem Faithful.enter {texts : List Bytes} {request : Bytes} (h : Faithful texts s)
    (hstep : step s (.enter request) = .ok s') : Faithful (texts ++ [request]) s' := by
  obtain ⟨past, htexts, hshown⟩ := h.shown
  have hbytes := h.bytes
  obtain ⟨hclient, rfl⟩ := step_enter hstep
  rw [hclient] at htexts hbytes
  obtain rfl : texts = past := htexts.trans (List.append_nil _)
  have hempty : replySocket.content s.replies = [] ∧ s.filter.unsent = [] ∧
      requestSocket.content s.requests = [] := by
    simpa [Client.received, Client.pending, Session.inFlight, hclient, Client.unsent, upper]
      using hbytes
  obtain ⟨hreplies, hunsent, hrequests⟩ := hempty
  split
  · next hnil =>
      refine ⟨⟨texts, by rw [hnil]; rfl, hshown⟩, ?_, trivial, h.filter, h.chunk⟩
      simp [Session.inFlight, hreplies, hunsent, hrequests, Client.unsent, Client.received,
        Client.pending]
  · next hne =>
      refine ⟨⟨texts, rfl, hshown⟩, ?_, hne, h.filter, h.chunk⟩
      simp [Session.inFlight, hreplies, hunsent, hrequests, Client.unsent, Client.received,
        Client.pending]

/-- One act, whichever thread's it is. -/
theorem Faithful.act {texts : List Bytes} {e : Act} (h : Faithful texts s)
    (hstep : step s e = .ok s') : Faithful (texts ++ asked [e]) s' := by
  cases e with
  | enter request => exact h.enter hstep
  | clientWrite choice => exact (List.append_nil texts).symm ▸ h.clientWrite hstep
  | clientRead choice => exact (List.append_nil texts).symm ▸ h.clientRead hstep
  | filterRead choice => exact (List.append_nil texts).symm ▸ h.filterRead hstep
  | filterWrite choice => exact (List.append_nil texts).symm ▸ h.filterWrite hstep

theorem faithful_run {events : List Act}
    (hrun : Lib.runs step (Session.start requestSocket replySocket) events = .ok s) :
    Faithful (asked events) s := by
  have hstep (past : List Act) (s : Session requestSocket replySocket) (e : Act)
      (s' : Session requestSocket replySocket) (h : Faithful (asked past) s)
      (hstep : step s e = .ok s') : Faithful (asked (past ++ [e])) s' := by
    have := h.act hstep
    rwa [asked, asked, ← List.filterMap_append] at this
  have hstart : Faithful (asked []) (Session.start requestSocket replySocket) := faithful_start
  exact Lib.runs_induction hstep hstart hrun

/-- In every run, over any two sockets, whoever acts when and in whatever pieces,
the replies that were shown are the requests in upper case, one each and in
order, up to at most one request that is still being answered, and what the
client has of that reply is the front of it. -/
theorem session_shown {events : List Act}
    (hrun : Lib.runs step (Session.start requestSocket replySocket) events = .ok s) :
    (∃ answered, asked events = answered ++ s.client.pending ∧
      s.shown = answered.map upper) ∧
      s.client.received <+: (s.client.pending.map upper).flatten :=
  ⟨(faithful_run hrun).shown, ⟨_, (faithful_run hrun).bytes⟩⟩

/-- A direction as one finds it, but that a waiting writer is woken at once: a
write costs 767 bytes more than it has, is cut at 36544, and can go on while less
than 212992 is charged. -/
def sampleSocket : StreamSocket UInt8 :=
  .charging UInt8 (767 + ·) 36544 212992 fun n => Nat.le_add_left n 767

/-- A line and an empty one, the first in two pieces. -/
def sampleActs : List Act :=
  [.enter [104, 105], .clientWrite 1, .filterRead 1, .clientWrite 1, .filterWrite 1,
    .filterRead 1, .filterWrite 1, .clientRead 2, .enter []]

theorem session_shown_hi :
    ∃ s, Lib.runs step (Session.start sampleSocket sampleSocket) sampleActs = .ok s ∧
      (∃ answered, [[104, 105], []] = answered ++ s.client.pending ∧
        s.shown = answered.map upper) ∧
      s.client.received <+: (s.client.pending.map upper).flatten := by
  have hruns : ∃ s,
      Lib.runs step (Session.start sampleSocket sampleSocket) sampleActs = .ok s := ⟨_, rfl⟩
  obtain ⟨s, hrun⟩ := hruns
  exact ⟨s, hrun, session_shown hrun⟩

end Playspace.UnixDomainSocket
