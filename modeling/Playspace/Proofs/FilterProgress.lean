import Playspace.Lib.Progress
import Playspace.Proofs.UppercaseFilter

/-!
# The upper-case filter answers, or hangs

`main` does not read before it has written everything, and the filter does not
read before it has. So the two wait for each other once neither socket takes any
more and each thread still has something to write, and there is no other way for
them to stop before the reply is shown (`session_ends_iff`). How much the sockets
hold is the system's business. A request that is no longer than what they take
in any case and one byte is always answered (`session_answers`), and one that is
longer than what they can hold at the most and the filter's array never
(`session_hangs`).
-/

namespace Playspace.UnixDomainSocket

open Playspace.Citbrains (Bytes)
open Playspace.Lib (StreamSocket)

variable {requestSocket replySocket : StreamSocket UInt8}
  {s s' : Session requestSocket replySocket}

/-! ## What can happen next -/

theorem step_clientWrite_ok {request rest : Bytes} (hclient : s.client = .writing request rest)
    (htakes : ¬ requestSocket.Refuses s.requests rest) :
    ∃ choice s', step s (.clientWrite choice) = .ok s' := by
  obtain ⟨choice, htaken⟩ := not_forall.mp htakes
  obtain ⟨⟨n, requests⟩, hwrite⟩ := Option.ne_none_iff_exists'.mp htaken
  simp only [step, hclient]
  exact ⟨choice, _, by rw [hwrite]⟩

theorem step_clientRead_ok {request reply : Bytes}
    (hclient : s.client = .reading request reply) (hlt : reply.length < request.length)
    (hreplies : replySocket.content s.replies ≠ []) :
    ∃ choice s', step s (.clientRead choice) = .ok s' := by
  have hsize : 1 ≤ request.length - reply.length := by omega
  obtain ⟨choice, got, replies, hread⟩ := replySocket.read_ready hreplies hsize
  refine ⟨choice, ?_⟩
  simp only [step, hclient, hread]
  split
  · exact ⟨_, rfl⟩
  · exact ⟨_, rfl⟩

theorem step_filterRead_ok (hfilter : s.filter = .reading)
    (hrequests : requestSocket.content s.requests ≠ []) :
    ∃ choice s', step s (.filterRead choice) = .ok s' := by
  have hsize : 1 ≤ dataSize := by decide
  obtain ⟨choice, data, requests, hread⟩ := requestSocket.read_ready hrequests hsize
  refine ⟨choice, ?_⟩
  simp only [step, hfilter, hread]
  exact ⟨_, rfl⟩

theorem step_filterWrite_ok {rest : Bytes} (hfilter : s.filter = .writing rest)
    (htakes : ¬ replySocket.Refuses s.replies rest) :
    ∃ choice s', step s (.filterWrite choice) = .ok s' := by
  obtain ⟨choice, htaken⟩ := not_forall.mp htakes
  obtain ⟨⟨n, replies⟩, hwrite⟩ := Option.ne_none_iff_exists'.mp htaken
  simp only [step, hfilter]
  exact ⟨choice, _, by rw [hwrite]⟩

/-- Neither thread can do anything. -/
def Session.Still (s : Session requestSocket replySocket) : Prop :=
  ∀ e : Act, e.Internal → ∀ s', step s e ≠ .ok s'

/-- Both threads are writing into sockets that take nothing more. -/
structure Session.Jammed (s : Session requestSocket replySocket) : Prop where
  client : s.client.unsent ≠ []
  filter : s.filter.unsent ≠ []
  requests : requestSocket.Refuses s.requests s.client.unsent
  replies : replySocket.Refuses s.replies s.filter.unsent

theorem Session.Jammed.still (h : s.Jammed) : s.Still := by
  have hclient := h.client
  have hfilter := h.filter
  have hrequests := h.requests
  have hreplies := h.replies
  intro e he s' hstep
  cases e with
  | enter request => exact he
  | clientWrite choice =>
      obtain ⟨request, rest, n, requests, hwriting, hwrite, -⟩ := step_clientWrite hstep
      rw [hwriting, Client.unsent_writing] at hrequests
      cases (hrequests choice).symm.trans hwrite
  | clientRead choice =>
      obtain ⟨request, reply, got, replies, hreading, -⟩ := step_clientRead hstep
      rw [hreading] at hclient
      exact hclient rfl
  | filterRead choice =>
      obtain ⟨data, requests, hreading, -⟩ := step_filterRead hstep
      rw [hreading] at hfilter
      exact hfilter rfl
  | filterWrite choice =>
      obtain ⟨rest, n, replies, hwriting, hwrite, -⟩ := step_filterWrite hstep
      rw [hwriting, Filter.unsent_writing] at hreplies
      cases (hreplies choice).symm.trans hwrite

/-- There is no other way to hang. While the client reads, the bytes it waits
for are somewhere, and whoever is next to move them can. -/
theorem Faithful.jammed {texts : List Bytes} (h : Faithful texts s)
    (hrequestSocket : requestSocket.TakesBelow 1) (hreplySocket : replySocket.TakesBelow 1)
    (hprompt : s.client ≠ .prompt) (hdefined : s.client ≠ .undefined) (hstill : s.Still) :
    s.Jammed := by
  have hfilterWrite : replySocket.Refuses s.replies s.filter.unsent ∨ s.filter = .reading := by
    cases hfilter : s.filter with
    | reading => exact Or.inr rfl
    | writing rest =>
        left
        by_contra htakes
        obtain ⟨choice, s', hstep⟩ := step_filterWrite_ok hfilter htakes
        exact hstill (.filterWrite choice) trivial s' hstep
  have hfilterRead (hfilter : s.filter = .reading) : requestSocket.content s.requests = [] := by
    by_contra hne
    obtain ⟨choice, s', hstep⟩ := step_filterRead_ok hfilter hne
    exact hstill (.filterRead choice) trivial s' hstep
  have hunsent (hfilter : s.filter ≠ .reading) : s.filter.unsent ≠ [] := by
    cases hstate : s.filter with
    | reading => exact absurd hstate hfilter
    | writing rest =>
        rintro (rfl : rest = [])
        exact h.filter hstate
  have hbusy := h.client
  have hbytes := h.bytes
  cases hclient : s.client with
  | prompt => exact absurd hclient hprompt
  | undefined => exact absurd hclient hdefined
  | writing request rest =>
      rw [hclient] at hbusy
      have hrequests : requestSocket.Refuses s.requests rest := by
        by_contra htakes
        obtain ⟨choice, s', hstep⟩ := step_clientWrite_ok hclient htakes
        exact hstill (.clientWrite choice) trivial s' hstep
      have hwriting : s.filter ≠ .reading := by
        intro hfilter
        have hheld := hrequestSocket.le_of_refuses hbusy hrequests
        rw [hfilterRead hfilter] at hheld
        exact absurd hheld (by decide)
      exact ⟨by rw [hclient]; exact hbusy, hunsent hwriting, by rw [hclient]; exact hrequests,
        hfilterWrite.resolve_right hwriting⟩
  | reading request reply =>
      exfalso
      rw [hclient] at hbusy hbytes
      have hreplies : replySocket.content s.replies = [] := by
        by_contra hne
        obtain ⟨choice, s', hstep⟩ := step_clientRead_ok hclient hbusy hne
        exact hstill (.clientRead choice) trivial s' hstep
      have hfilter : s.filter = .reading := by
        by_contra hwriting
        have hheld := hreplySocket.le_of_refuses (hunsent hwriting)
          (hfilterWrite.resolve_right hwriting)
        rw [hreplies] at hheld
        exact absurd hheld (by decide)
      have hlength := congrArg List.length hbytes
      simp [Session.inFlight, hreplies, hfilter, hfilterRead hfilter, hclient,
        Client.received, Client.pending] at hlength
      have hlt : reply.length < request.length := hbusy
      omega

/-! ## How long it takes -/

/-- Four steps for a byte that is not sent yet, and one less with each it takes. -/
def Session.work (s : Session requestSocket replySocket) : Nat :=
  4 * s.client.unsent.length + 3 * (requestSocket.content s.requests).length +
    2 * s.filter.unsent.length + (replySocket.content s.replies).length

theorem work_lt {e : Act} (he : e.Internal) (hstep : step s e = .ok s') :
    s'.work < s.work := by
  cases e with
  | enter request => exact absurd he id
  | clientWrite choice =>
      obtain ⟨request, rest, n, requests, hclient, hwrite, rfl⟩ := step_clientWrite hstep
      obtain ⟨hn, hle, hcontent⟩ := requestSocket.write_some hwrite
      simp only [Session.work, unsent_writing_or_reading, hclient, Client.unsent_writing,
        hcontent, List.length_append, List.length_take, List.length_drop]
      omega
  | clientRead choice =>
      obtain ⟨request, reply, got, replies, hclient, hread, rfl⟩ := step_clientRead hstep
      obtain ⟨hne, -, hcontent⟩ := replySocket.read_some hread
      have hgot := List.length_pos_iff.mpr hne
      split
      · simp only [Session.work, hclient, Client.unsent_reading, hcontent,
          List.length_append, List.length_nil]
        show 4 * 0 + _ + _ + _ < _
        omega
      · simp only [Session.work, hclient, Client.unsent_reading, hcontent,
          List.length_append]
        omega
  | filterRead choice =>
      obtain ⟨data, requests, hfilter, hread, rfl⟩ := step_filterRead hstep
      obtain ⟨hne, -, hcontent⟩ := requestSocket.read_some hread
      have hdata := List.length_pos_iff.mpr hne
      simp only [Session.work, hfilter, Filter.unsent_writing, Filter.unsent_reading,
        hcontent, length_upper, List.length_append, List.length_nil]
      omega
  | filterWrite choice =>
      obtain ⟨rest, n, replies, hfilter, hwrite, rfl⟩ := step_filterWrite hstep
      obtain ⟨hn, hle, hcontent⟩ := replySocket.write_some hwrite
      simp only [Session.work, unsent_reading_or_writing, hfilter, Filter.unsent_writing,
        hcontent, List.length_append, List.length_take, List.length_drop]
      omega

/-- The session is back at the prompt: nothing is on its way. -/
structure Session.Quiet (s : Session requestSocket replySocket) : Prop where
  client : s.client = .prompt
  filter : s.filter = .reading
  requests : requestSocket.content s.requests = []
  replies : replySocket.content s.replies = []

theorem Faithful.quiet {texts : List Bytes} (h : Faithful texts s)
    (hprompt : s.client = .prompt) : s.Quiet ∧ s.shown = texts.map upper := by
  obtain ⟨past, htexts, hshown⟩ := h.shown
  have hbytes := h.bytes
  rw [hprompt] at htexts hbytes
  obtain rfl : texts = past := htexts.trans (List.append_nil _)
  have hempty : replySocket.content s.replies = [] ∧ s.filter.unsent = [] ∧
      requestSocket.content s.requests = [] := by
    simpa [Client.received, Client.pending, Session.inFlight, hprompt, Client.unsent, upper]
      using hbytes
  refine ⟨⟨hprompt, ?_, hempty.2.2, hempty.1⟩, hshown⟩
  cases hfilter : s.filter with
  | reading => rfl
  | writing rest =>
      rw [hfilter] at hempty
      exact absurd (by rw [hfilter, ← hempty.2.1]; rfl) h.filter

/-- At the prompt only the user can go on. -/
theorem Session.Quiet.still (h : s.Quiet) : s.Still := by
  intro e he s' hstep
  cases e with
  | enter request => exact he
  | clientWrite choice =>
      obtain ⟨request, rest, n, requests, hclient, -⟩ := step_clientWrite hstep
      cases h.client.symm.trans hclient
  | clientRead choice =>
      obtain ⟨request, reply, got, replies, hclient, -⟩ := step_clientRead hstep
      cases h.client.symm.trans hclient
  | filterRead choice =>
      obtain ⟨data, requests, -, hread, -⟩ := step_filterRead hstep
      obtain ⟨hne, -, hcontent⟩ := requestSocket.read_some hread
      rw [h.requests] at hcontent
      exact hne (List.append_eq_nil_iff.mp hcontent.symm).1
  | filterWrite choice =>
      obtain ⟨rest, n, replies, hfilter, -⟩ := step_filterWrite hstep
      cases h.filter.symm.trans hfilter

/-- The session just after a request was entered at the prompt. -/
structure Session.Entered (texts : List Bytes) (request : Bytes)
    (s : Session requestSocket replySocket) : Prop where
  faithful : Faithful (texts ++ [request]) s
  client : s.client = .writing request request
  work : s.work = 4 * request.length

theorem entered {texts : List Bytes} {request : Bytes} (h : Faithful texts s)
    (hprompt : s.client = .prompt) (hne : request ≠ []) :
    ∃ s₁, step s (.enter request) = .ok s₁ ∧ s₁.Entered texts request := by
  obtain ⟨hquiet, -⟩ := h.quiet hprompt
  have hstep : step s (.enter request) = .ok { s with client := .writing request request } := by
    simp only [step, hprompt, if_neg hne]
  refine ⟨_, hstep, h.enter hstep, rfl, ?_⟩
  simp [Session.work, hquiet.filter, hquiet.requests, hquiet.replies]

/-- Without the user the requests stay what they are. -/
theorem Faithful.internal {texts : List Bytes} {e : Act} (h : Faithful texts s)
    (he : e.Internal) (hstep : step s e = .ok s') : Faithful texts s' := by
  have hasked : asked [e] = [] := by
    cases e with
    | enter request => exact absurd he id
    | clientWrite choice => rfl
    | clientRead choice => rfl
    | filterRead choice => rfl
    | filterWrite choice => rfl
  have := h.act hstep
  rwa [hasked, List.append_nil] at this

/-- A run of the two threads after a request was entered at the prompt: it is not
longer than four steps for each byte. -/
theorem faithful_answer {before acts : List Act} {request : Bytes}
    (hbefore : Lib.runs step (Session.start requestSocket replySocket) before = .ok s)
    (hprompt : s.client = .prompt) (hne : request ≠ []) (hacts : ∀ e ∈ acts, e.Internal)
    (hrun : Lib.runs step s (.enter request :: acts) = .ok s') :
    Faithful (asked before ++ [request]) s' ∧ s.shown = (asked before).map upper ∧
      acts.length ≤ 4 * request.length := by
  have hfaithful := faithful_run hbefore
  obtain ⟨s₁, hstep, hentered⟩ := entered hfaithful hprompt hne
  rw [Lib.runs_cons_ok hstep] at hrun
  obtain ⟨hle, h'⟩ := Lib.length_le_of_measure
    (fun _ _ _ h he hstep => ⟨h.internal he hstep, work_lt he hstep⟩)
    hentered.faithful hacts hrun
  rw [hentered.work] at hle
  exact ⟨h', (hfaithful.quiet hprompt).2, by omega⟩

/-- Once the request is out the session is at the prompt with the answer, or it
waits for bytes of just this request. -/
theorem Faithful.answered_or {texts : List Bytes} {request : Bytes} (hne : request ≠ [])
    (h : Faithful (texts ++ [request]) s) :
    s.client = .prompt ∧ s.shown = texts.map upper ++ [upper request] ∨
      s.client ≠ .prompt ∧ s.client ≠ .undefined ∧ s.client.pending = [request] ∧
        s.shown = texts.map upper := by
  obtain ⟨past, htexts, hshown⟩ := h.shown
  by_cases hprompt : s.client = .prompt
  · rw [(h.quiet hprompt).2]
    exact Or.inl ⟨hprompt, List.map_append⟩
  · right
    have hsingle : ∃ pending, s.client.pending = [pending] := by
      cases hclient : s.client with
      | prompt => exact absurd hclient hprompt
      | writing request rest => exact ⟨request, rfl⟩
      | reading request reply => exact ⟨request, rfl⟩
      | undefined => exact ⟨[], rfl⟩
    obtain ⟨pending, hpending⟩ := hsingle
    rw [hpending] at htexts
    obtain ⟨rfl, hlast⟩ := List.append_inj' htexts rfl
    cases hlast
    refine ⟨hprompt, ?_, hpending, hshown⟩
    intro hundefined
    rw [hundefined] at hpending
    cases hpending
    exact hne rfl

/-- What is in flight of a request that is being answered. -/
theorem Faithful.length_inFlight {texts : List Bytes} {request : Bytes}
    (h : Faithful texts s) (hpending : s.client.pending = [request]) :
    s.client.received.length + (replySocket.content s.replies).length +
      s.filter.unsent.length + (requestSocket.content s.requests).length +
      s.client.unsent.length = request.length := by
  have hlength := congrArg List.length h.bytes
  simp only [hpending, Session.inFlight, upper_append, List.length_append, length_upper,
    List.map_singleton, List.flatten_singleton] at hlength
  omega

/-- Both threads wait only with a request that is more than the two sockets hold
and one byte at each side. -/
theorem Faithful.length_of_jammed {texts : List Bytes} {request : Bytes}
    (h : Faithful (texts ++ [request]) s) (hne : request ≠ []) (hjammed : s.Jammed) :
    (requestSocket.content s.requests).length + (replySocket.content s.replies).length + 2 ≤
      request.length := by
  have hclient := List.length_pos_iff.mpr hjammed.client
  have hfilter := List.length_pos_iff.mpr hjammed.filter
  obtain ⟨hprompt, -⟩ | ⟨-, -, hpending, -⟩ := h.answered_or hne
  · rw [hprompt] at hclient
    cases hclient
  · have := h.length_inFlight hpending
    omega

/-! ## The two ends of a request -/

theorem Faithful.still_iff {texts : List Bytes} {request : Bytes}
    (h : Faithful (texts ++ [request]) s) (hne : request ≠ [])
    (hrequestSocket : requestSocket.TakesBelow 1) (hreplySocket : replySocket.TakesBelow 1) :
    s.Still ↔
      s.client = .prompt ∧ s.shown = texts.map upper ++ [upper request] ∨ s.Jammed := by
  refine ⟨?_, ?_⟩
  · intro hstill
    obtain hanswered | ⟨hprompt, hdefined, -⟩ := h.answered_or hne
    · exact Or.inl hanswered
    · exact Or.inr (h.jammed hrequestSocket hreplySocket hprompt hdefined hstill)
  · rintro (⟨hprompt, -⟩ | hjammed)
    · exact (h.quiet hprompt).1.still
    · exact hjammed.still

/-- A request that is not empty comes to one of two ends in at most four steps for
each byte, whatever the schedule: the reply is shown, or both threads write into
sockets that take nothing more, which hold at least two bytes less than the
request has. -/
theorem session_ends_iff {before acts : List Act} {request : Bytes}
    (hbefore : Lib.runs step (Session.start requestSocket replySocket) before = .ok s)
    (hprompt : s.client = .prompt) (hrequestSocket : requestSocket.TakesBelow 1)
    (hreplySocket : replySocket.TakesBelow 1) (hne : request ≠ [])
    (hacts : ∀ e ∈ acts, e.Internal)
    (hrun : Lib.runs step s (.enter request :: acts) = .ok s') :
    acts.length ≤ 4 * request.length ∧
      (s'.Still ↔
        s'.client = .prompt ∧ s'.shown = s.shown ++ [upper request] ∨ s'.Jammed) ∧
      (s'.Jammed → (requestSocket.content s'.requests).length +
        (replySocket.content s'.replies).length + 2 ≤ request.length) := by
  obtain ⟨h', hshown, hlength⟩ := faithful_answer hbefore hprompt hne hacts hrun
  rw [hshown]
  exact ⟨hlength, h'.still_iff hne hrequestSocket hreplySocket, h'.length_of_jammed hne⟩

theorem takesBelow_sampleSocket : sampleSocket.TakesBelow 6 :=
  StreamSocket.takesBelow_charging _ (fun n hn => Nat.add_le_add_left hn 767) (by decide)
    (by decide)

/-- Two bytes, one at a time. -/
def sampleAnswer : List Act :=
  [.clientWrite 1, .filterRead 1, .clientWrite 1, .filterWrite 1, .filterRead 1,
    .filterWrite 1, .clientRead 2]

theorem internal_sampleAnswer : ∀ e ∈ sampleAnswer, e.Internal := by
  intro e he
  fin_cases he <;> trivial

theorem runs_sampleAnswer : ∃ s', Lib.runs step (Session.start sampleSocket sampleSocket)
    (.enter [104, 105] :: sampleAnswer) = .ok s' :=
  ⟨_, rfl⟩

theorem session_ends_hi :
    ∃ s', Lib.runs step (Session.start sampleSocket sampleSocket)
        (.enter [104, 105] :: sampleAnswer) = .ok s' ∧
      (s'.Still ↔ s'.client = .prompt ∧ s'.shown = [upper [104, 105]] ∨ s'.Jammed) := by
  have hstart : Lib.runs step (Session.start sampleSocket sampleSocket) [] =
      .ok (Session.start sampleSocket sampleSocket) := rfl
  obtain ⟨s', hrun⟩ := runs_sampleAnswer
  exact ⟨s', hrun, (session_ends_iff hstart rfl (takesBelow_sampleSocket.mono (by decide))
    (takesBelow_sampleSocket.mono (by decide)) (by decide) internal_sampleAnswer hrun).2.1⟩

/-- A request that is not longer than what the sockets take in any case and one
byte more is answered whatever the schedule: no run of the two threads is longer
than four steps for each byte, and one that cannot go on has shown the reply. -/
theorem session_answers {before acts : List Act} {request : Bytes} {low low' : Nat}
    (hbefore : Lib.runs step (Session.start requestSocket replySocket) before = .ok s)
    (hprompt : s.client = .prompt) (hlow : 1 ≤ low) (hlow' : 1 ≤ low')
    (hrequestSocket : requestSocket.TakesBelow low)
    (hreplySocket : replySocket.TakesBelow low') (hne : request ≠ [])
    (hsize : request.length ≤ low + low' + 1) (hacts : ∀ e ∈ acts, e.Internal)
    (hrun : Lib.runs step s (.enter request :: acts) = .ok s') :
    acts.length ≤ 4 * request.length ∧
      (s'.Still → s'.client = .prompt ∧ s'.shown = s.shown ++ [upper request]) := by
  obtain ⟨h', hshown, hlength⟩ := faithful_answer hbefore hprompt hne hacts hrun
  refine ⟨hlength, ?_⟩
  intro hstill
  rw [hshown]
  obtain hanswered | hjammed := (h'.still_iff hne (hrequestSocket.mono hlow)
    (hreplySocket.mono hlow')).mp hstill
  · exact hanswered
  · exfalso
    have := h'.length_of_jammed hne hjammed
    have := hrequestSocket.le_of_refuses hjammed.client hjammed.requests
    have := hreplySocket.le_of_refuses hjammed.filter hjammed.replies
    omega

theorem session_answers_hi :
    ∃ s', Lib.runs step (Session.start sampleSocket sampleSocket)
        (.enter [104, 105] :: sampleAnswer) = .ok s' ∧
      (s'.Still → s'.client = .prompt ∧ s'.shown = [upper [104, 105]]) := by
  have hstart : Lib.runs step (Session.start sampleSocket sampleSocket) [] =
      .ok (Session.start sampleSocket sampleSocket) := rfl
  obtain ⟨s', hrun⟩ := runs_sampleAnswer
  exact ⟨s', hrun, (session_answers hstart rfl (by decide) (by decide)
    takesBelow_sampleSocket takesBelow_sampleSocket (by decide) (by decide)
    internal_sampleAnswer hrun).2⟩

/-! ## Requests that are too long -/

/-- The request is so long that the client cannot get rid of it. -/
structure Session.Overfull (texts : List Bytes) (request : Bytes)
    (s : Session requestSocket replySocket) : Prop where
  faithful : Faithful (texts ++ [request]) s
  client : s.client.unsent ≠ []

theorem Session.Overfull.internal {texts : List Bytes} {request : Bytes} {high high' : Nat}
    {e : Act} (h : s.Overfull texts request) (hne : request ≠ [])
    (hrequestSocket : requestSocket.HoldsAtMost high)
    (hreplySocket : replySocket.HoldsAtMost high')
    (hsize : high + high' + dataSize < request.length) (he : e.Internal)
    (hstep : step s e = .ok s') : s'.Overfull texts request := by
  have h' := h.faithful.internal he hstep
  refine ⟨h', ?_⟩
  have hclient := h.client
  cases e with
  | enter request => exact absurd he id
  | clientRead choice =>
      obtain ⟨request', reply, got, replies, hreading, -⟩ := step_clientRead hstep
      rw [hreading] at hclient
      exact absurd rfl hclient
  | filterRead choice =>
      obtain ⟨data, requests, -, -, rfl⟩ := step_filterRead hstep
      exact hclient
  | filterWrite choice =>
      obtain ⟨rest, n, replies, -, -, rfl⟩ := step_filterWrite hstep
      exact hclient
  | clientWrite choice =>
      -- all of it would have to be in the sockets and the filter
      intro hdone
      obtain ⟨request', rest, n, requests, -, -, rfl⟩ := step_clientWrite hstep
      rw [unsent_writing_or_reading] at hdone
      obtain ⟨hprompt, -⟩ | ⟨-, -, hpending, -⟩ := h'.answered_or hne
      · rw [hdone, if_pos rfl] at hprompt
        cases hprompt
      · have hlength := h'.length_inFlight hpending
        have hchunk := h'.chunk
        have hrequests := hrequestSocket requests
        have hreplies := hreplySocket s.replies
        rw [received_writing_or_reading, unsent_writing_or_reading, hdone,
          List.length_nil] at hlength
        simp only at hchunk hlength
        omega

theorem Session.Overfull.waits {texts : List Bytes} {request : Bytes}
    (h : s.Overfull texts request) (hne : request ≠ []) :
    s.client ≠ .prompt ∧ s.client ≠ .undefined ∧ s.shown = texts.map upper := by
  obtain ⟨hprompt, -⟩ | ⟨hprompt, hdefined, -, hshown⟩ := h.faithful.answered_or hne
  · have hclient := h.client
    rw [hprompt] at hclient
    exact absurd rfl hclient
  · exact ⟨hprompt, hdefined, hshown⟩

/-- No schedule answers a request that is longer than what the sockets can hold at
the most and the array of the filter: from wherever the two threads are, they can
go on until both wait for each other, and they get nowhere else. -/
theorem session_hangs {before acts : List Act} {request : Bytes} {high high' : Nat}
    (hbefore : Lib.runs step (Session.start requestSocket replySocket) before = .ok s)
    (hprompt : s.client = .prompt) (htakes : requestSocket.TakesBelow 1)
    (htakes' : replySocket.TakesBelow 1) (hrequestSocket : requestSocket.HoldsAtMost high)
    (hreplySocket : replySocket.HoldsAtMost high')
    (hsize : high + high' + dataSize < request.length) (hacts : ∀ e ∈ acts, e.Internal)
    (hrun : Lib.runs step s (.enter request :: acts) = .ok s') :
    s'.client ≠ .prompt ∧ s'.shown = s.shown ∧ acts.length ≤ 4 * request.length ∧
      (s'.Still → s'.Jammed) ∧
      ∃ more s'', (∀ e ∈ more, e.Internal) ∧ Lib.runs step s' more = .ok s'' ∧
        s''.Jammed := by
  have hne : request ≠ [] := List.length_pos_iff.mp (by omega)
  obtain ⟨-, hshown, hlength⟩ := faithful_answer hbefore hprompt hne hacts hrun
  obtain ⟨s₁, hstep, hentered⟩ := entered (faithful_run hbefore) hprompt hne
  rw [Lib.runs_cons_ok hstep] at hrun
  have hnext (s : Session requestSocket replySocket) (e : Act)
      (s' : Session requestSocket replySocket) (h : s.Overfull (asked before) request)
      (he : e.Internal) (hstep : step s e = .ok s') :
      s'.Overfull (asked before) request ∧ s'.work < s.work :=
    ⟨h.internal hne hrequestSocket hreplySocket hsize he hstep, work_lt he hstep⟩
  have hfirst : s₁.Overfull (asked before) request :=
    ⟨hentered.faithful, by rw [hentered.client]; exact hne⟩
  have h' := (Lib.length_le_of_measure hnext hfirst hacts hrun).2
  have hjammed (s : Session requestSocket replySocket)
      (h : s.Overfull (asked before) request) (hstill : s.Still) : s.Jammed := by
    obtain ⟨hprompt, hdefined, -⟩ := h.waits hne
    exact h.faithful.jammed htakes htakes' hprompt hdefined hstill
  have hprogress (s : Session requestSocket replySocket)
      (h : s.Overfull (asked before) request) (hgoal : ¬ s.Jammed) :
      ∃ e s', e.Internal ∧ step s e = .ok s' ∧
        s'.Overfull (asked before) request ∧ s'.work < s.work := by
    by_contra hnone
    refine hgoal (hjammed s h ?_)
    intro e he s' hstep
    exact hnone ⟨e, s', he, hstep, hnext s e s' h he hstep⟩
  obtain ⟨more, s'', hmore, hrun', -, hend⟩ := Lib.exists_runs_of_progress hprogress h'
  obtain ⟨hprompt', -, hshown'⟩ := h'.waits hne
  exact ⟨hprompt', hshown'.trans hshown.symm, hlength, hjammed s' h', more, s'', hmore, hrun',
    hend⟩

/-- Half a million bytes. -/
theorem session_hangs_sample :
    ∃ s', Lib.runs step (Session.start sampleSocket sampleSocket)
        [.enter (List.replicate 500000 97)] = .ok s' ∧ s'.shown = [] ∧
      ∃ more s'', (∀ e ∈ more, e.Internal) ∧ Lib.runs step s' more = .ok s'' ∧
        s''.Jammed := by
  have hstart : Lib.runs step (Session.start sampleSocket sampleSocket) [] =
      .ok (Session.start sampleSocket sampleSocket) := rfl
  have hsize : 249536 + 249536 + dataSize < (List.replicate 500000 (97 : UInt8)).length := by
    rw [List.length_replicate]
    decide
  have hne : List.replicate 500000 (97 : UInt8) ≠ [] := List.length_pos_iff.mp (by omega)
  obtain ⟨s', hstep, -⟩ := entered (faithful_run hstart) rfl hne
  have hrun := Lib.runs_cons_ok hstep []
  obtain ⟨-, hshown, -, -, hend⟩ := session_hangs hstart rfl
    (takesBelow_sampleSocket.mono (by decide)) (takesBelow_sampleSocket.mono (by decide))
    (StreamSocket.holdsAtMost_charging _) (StreamSocket.holdsAtMost_charging _) hsize
    (List.forall_mem_nil _) hrun
  exact ⟨s', hrun, hshown, hend⟩

end Playspace.UnixDomainSocket
