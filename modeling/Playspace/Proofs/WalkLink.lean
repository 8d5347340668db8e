import Playspace.Citbrains.WalkLink
import Playspace.Proofs.WalkClient

/-!
# What arrives between the clients and the server

One client at a time, and each direction by itself: an event either belongs to
the client and the direction, or leaves all of it alone (`Commanding.frame`,
`Reading.frame`). The invariants say what the channel carries, as the calls
before would have it, and that what the receivers said is a function of what
they took from it.

For the commands this gives that a controller which parses what it receives acts
on requests of that client only, as they were made and in their order, none of
them twice and none from a suspension (`link_requests`). What it can miss is
what a full queue or a late connection has lost, and every walk and motion, for
which there is no loss needed. For the states it gives that the getters go
through the states in the order in which they were sent: nothing in the client
skips to the newest, so the third answer is read from the third state however
many have been sent since (`link_answers`).
-/

namespace Playspace.Citbrains.WalkCommunication

open ControlMessage (WalkCommand WalkProtobuf wire)
open Playspace.Lib (Channel runs runs_induction latest latest_concat outputs outputs_snoc
  filterMap_snoc)

variable {pb : WalkProtobuf} {i : Nat} {past : List LinkEvent} {s s' : Link}

/-! ## One call -/

theorem afterSend_eq (pub : PubSocket) (data : Bytes) (flags : SendFlags)
    (published : List Bytes) :
    afterSend pub data flags published = published ++ afterSend pub data flags [] := by
  unfold afterSend
  split
  · rfl
  · exact (List.append_nil published).symm

/-- A send brings the message to the channel, or has nothing for it. -/
theorem afterSend_nil_or (pub : PubSocket) (data : Bytes) (flags : SendFlags) :
    afterSend pub data flags [] = [data] ∨
      afterSend pub data flags [] = [] ∧ ¬ ∃ n, pub data flags = .ok (some n) := by
  unfold afterSend
  split
  · exact Or.inl rfl
  · next hsend => exact Or.inr ⟨rfl, fun ⟨n, h⟩ => hsend n h⟩

theorem recvWith_message (bufSize : Nat) (message : Bytes) :
    recvWith bufSize (.ok (some message)) =
      .ok (if message.length ≤ bufSize then some message else none) := by
  simp only [recvWith, RecvBufferSize.truncated, List.length_take]
  split
  · next htruncated =>
      rw [if_neg fun hle => of_decide_eq_true htruncated (Nat.min_eq_right hle)]
  · next hfits =>
      have hlength : min bufSize message.length = message.length := by simpa using hfits
      have hle : message.length ≤ bufSize := min_eq_right_iff.mp hlength
      rw [hlength, List.take_of_length_le hle, List.take_length, if_pos hle]

/-- What a getter answers to a message. -/
def Getter.answer (pb : WalkProtobuf) (data : Bytes) (g : Getter) : Answer :=
  let status := if data.length ≤ 512 then some (pb.parseStatus data).2 else none
  match g with
  | .getVoltage => .voltage (status.map fun m =>
      WalkCommunicationClient.floatOfInt32 (m.motorVoltage.getD 0))
  | .getStatus => .status status
  | .getStatusQuaternion => .status status

theorem readStatus_message {α : Type} (read : ControlMessage.RobotStatus → α) (data : Bytes) :
    WalkCommunicationClient.readStatus pb (.ok (some data)) read =
      .ok ((if data.length ≤ 512 then some (pb.parseStatus data).2 else none).map read) := by
  rw [WalkCommunicationClient.readStatus, recvState, recvWith_message]
  by_cases hfits : data.length ≤ 512
  · rw [if_pos hfits, if_pos hfits]
    rfl
  · rw [if_neg hfits, if_neg hfits]
    rfl

theorem Getter.call_message (g : Getter) (data : Bytes) :
    g.call pb (.ok (some data)) = .ok (g.answer pb data) := by
  cases g with
  | getVoltage =>
      rw [call, WalkCommunicationClient.getVoltage, readStatus_message]
      rfl
  | getStatus =>
      rw [call, WalkCommunicationClient.getStatus, readStatus_message, Option.map_id]
      rfl
  | getStatusQuaternion =>
      rw [call, WalkCommunicationClient.getStatusQuaternion, readStatus_message,
        Option.map_id]
      rfl

/-- A `recv` that returns has taken the oldest message. -/
theorem Link.recvCommand_eq_ok (h : s.recvCommand i = .ok s') :
    ∃ message channel, (s.commands i).receive = some (message, channel) ∧
      s' = { s with
        commands := Function.update s.commands i channel
        handled := Function.update s.handled i
          (s.handled i ++ [if message.length ≤ 256 then some message else none]) } := by
  unfold Link.recvCommand at h
  cases hreceive : (s.commands i).receive with
  | none =>
      rw [hreceive] at h
      cases h
  | some taken =>
      obtain ⟨message, channel⟩ := taken
      simp only [hreceive, WalkCommunication.recvCommand, recvWith_message] at h
      exact ⟨message, channel, rfl, (Except.ok.inj h).symm⟩

theorem Link.getter_eq_ok {g : Getter} (h : s.getter pb i g = .ok s') :
    ∃ message channel, (s.states i).receive = some (message, channel) ∧
      s' = { s with
        states := Function.update s.states i channel
        answers := Function.update s.answers i (s.answers i ++ [g.answer pb message]) } := by
  unfold Link.getter at h
  cases hreceive : (s.states i).receive with
  | none =>
      rw [hreceive] at h
      cases h
  | some taken =>
      obtain ⟨message, channel⟩ := taken
      simp only [hreceive, Getter.call_message] at h
      exact ⟨message, channel, rfl, (Except.ok.inj h).symm⟩

/-! ## The commands of a client -/

/-- The argument of `hajimeSetSuspended`. -/
def LinkEvent.suspends? (i : Nat) : LinkEvent → Option Bool
  | .hajimeSetSuspended j suspend => if j = i then some suspend else none
  | _ => none

/-- The command that client `i` lets through, given the events before it. -/
def LinkEvent.command? (i : Nat) (past : List LinkEvent) : LinkEvent → Option Command
  | .command j c _ _ =>
      if j = i then
        if latest (suspends? i) false past && !c.ignoresSuspend then none else some c
      else none
  | _ => none

/-- The socket takes this command, and the server's queue has room for it. -/
def LinkEvent.CommandDelivered (i : Nat) : LinkEvent → Prop
  | .command j _ pub lost =>
      j = i → lost = false ∧ ∀ data, ∃ n, pub data .dontwait = .ok (some n)
  | _ => True

/-- The flag of client `i`, its channel to the server, and what the server has
taken from it. -/
structure Commanding (pb : WalkProtobuf) (i : Nat) (past : List LinkEvent) (s : Link) :
    Prop where
  flag : (s.clients i).isSuspended = latest (LinkEvent.suspends? i) false past
  commands : (s.commands i).Carries
    ((outputs (LinkEvent.command? i) past).map fun c => pb.serializeAsString c.com)
    (∀ e ∈ past, e.CommandDelivered i)
  handled : s.handled i = (s.commands i).received.map fun message =>
    if message.length ≤ 256 then some message else none

theorem Commanding.new : Commanding pb i [] .new :=
  ⟨rfl, Channel.Carries.new, rfl⟩

/-- An event of another client or of the other direction. -/
theorem Commanding.frame {e : LinkEvent} (h : Commanding pb i past s)
    (hsuspends : e.suspends? i = none) (hcommand : e.command? i past = none)
    (hflag : (s'.clients i).isSuspended = (s.clients i).isSuspended)
    (hcommands : s'.commands i = s.commands i) (hhandled : s'.handled i = s.handled i) :
    Commanding pb i (past ++ [e]) s' where
  flag := by rw [hflag, h.flag, latest_concat, hsuspends, Option.getD_none]
  commands := by
    rw [hcommands, outputs_snoc, hcommand, Option.toList_none, List.append_nil]
    exact h.commands.mono fun hall e' he' => hall e' (List.mem_append_left [e] he')
  handled := by rw [hhandled, hcommands, h.handled]

theorem publishedBy_blocked {client : WalkCommunicationClient} {c : Command}
    {pub : PubSocket} (h : (client.isSuspended && !c.ignoresSuspend) = true) :
    Link.publishedBy client (client.call pb pub c) = [] := by
  rw [WalkCommunicationClient.call_blocked h, Link.publishedBy, List.drop_length]

theorem publishedBy_open {client : WalkCommunicationClient} {c : Command}
    {pub : PubSocket} (h : (client.isSuspended && !c.ignoresSuspend) = false) :
    Link.publishedBy client (client.call pb pub c) =
      afterSend pub (pb.serializeAsString c.com) .dontwait [] := by
  rw [WalkCommunicationClient.call_open h, Link.publishedBy,
    WalkCommunicationClient.trySend_published, afterSend_eq, List.drop_left]

theorem LinkEvent.command?_blocked {c : Command} {pub : PubSocket} {lost : Bool}
    (h : (latest (suspends? i) false past && !c.ignoresSuspend) = true) :
    (LinkEvent.command i c pub lost).command? i past = none := by
  rw [LinkEvent.command?, if_pos rfl, if_pos h]

theorem LinkEvent.command?_open {c : Command} {pub : PubSocket} {lost : Bool}
    (h : (latest (suspends? i) false past && !c.ignoresSuspend) = false) :
    (LinkEvent.command i c pub lost).command? i past = some c := by
  rw [LinkEvent.command?, if_pos rfl, if_neg (Bool.not_eq_true _ ▸ h)]

theorem Commanding.command (h : Commanding pb i past s) (c : Command) (pub : PubSocket)
    (lost : Bool) : Commanding pb i (past ++ [.command i c pub lost])
      (s.command pb i c pub lost) where
  flag := by
    rw [latest_concat]
    simp only [Link.command, Function.update_self,
      WalkCommunicationClient.call_isSuspended]
    exact h.flag
  commands := by
    simp only [Link.command, Function.update_self]
    rw [outputs_snoc, List.map_append]
    have hpast : (∀ e ∈ past ++ [.command i c pub lost], e.CommandDelivered i) →
        ∀ e ∈ past, e.CommandDelivered i :=
      fun hall e he => hall e (List.mem_append_left _ he)
    have hlast : (∀ e ∈ past ++ [.command i c pub lost], e.CommandDelivered i) →
        lost = false ∧ ∀ data, ∃ n, pub data .dontwait = .ok (some n) :=
      fun hall => hall _ List.mem_concat_self rfl
    cases hguard : (s.clients i).isSuspended && !c.ignoresSuspend with
    | true =>
        rw [publishedBy_blocked hguard, Channel.send_nil,
          LinkEvent.command?_blocked (h.flag ▸ hguard), Option.toList_none, List.map_nil,
          List.append_nil]
        exact h.commands.mono hpast
    | false =>
        rw [publishedBy_open hguard, LinkEvent.command?_open (h.flag ▸ hguard),
          Option.toList_some, List.map_singleton]
        obtain hsent | ⟨hsent, hrefused⟩ :=
          afterSend_nil_or pub (pb.serializeAsString c.com) .dontwait
        · rw [hsent]
          exact h.commands.send hpast fun hall _ => (hlast hall).1
        · rw [hsent, Channel.send_nil]
          exact h.commands.unsent fun hall => hrefused ((hlast hall).2 _)
  handled := by
    simp only [Link.command, Function.update_self, Channel.received_send]
    exact h.handled

theorem Commanding.recvCommand (h : Commanding pb i past s)
    (hcall : s.recvCommand i = .ok s') : Commanding pb i (past ++ [.recvCommand i]) s' := by
  obtain ⟨message, channel, hreceive, rfl⟩ := Link.recvCommand_eq_ok hcall
  refine ⟨?_, ?_, ?_⟩
  · rw [latest_concat]
    exact h.flag
  · have hcommand : (LinkEvent.recvCommand i).command? i past = none := rfl
    rw [outputs_snoc, hcommand, Option.toList_none, List.append_nil]
    simp only [Function.update_self]
    exact (h.commands.receive hreceive).mono fun hall e he =>
      hall e (List.mem_append_left _ he)
  · simp only [Function.update_self]
    rw [(Channel.receive_eq_some hreceive).1, List.map_append, h.handled]
    rfl

theorem Commanding.step {e : LinkEvent} (h : Commanding pb i past s)
    (hcall : linkStep pb s e = .ok s') : Commanding pb i (past ++ [e]) s' := by
  cases e with
  | command j c pub lost =>
      cases hcall
      by_cases hj : j = i
      · subst hj
        exact h.command c pub lost
      · refine h.frame rfl (if_neg hj) ?_ ?_ rfl
        · simp only [Link.command, Function.update_of_ne (Ne.symm hj)]
        · simp only [Link.command, Function.update_of_ne (Ne.symm hj)]
  | hajimeSetSuspended j suspend =>
      cases hcall
      by_cases hj : j = i
      · subst hj
        have hcommand : (LinkEvent.hajimeSetSuspended j suspend).command? j past = none := rfl
        refine ⟨?_, ?_, h.handled⟩
        · rw [latest_concat, LinkEvent.suspends?, if_pos rfl]
          simp only [Function.update_self, WalkCommunicationClient.hajimeSetSuspended,
            Option.getD_some]
        · rw [outputs_snoc, hcommand, Option.toList_none, List.append_nil]
          exact h.commands.mono fun hall e he => hall e (List.mem_append_left _ he)
      · refine h.frame (if_neg hj) rfl ?_ rfl rfl
        simp only [Function.update_of_ne (Ne.symm hj)]
  | recvCommand j =>
      by_cases hj : j = i
      · subst hj
        exact h.recvCommand hcall
      · obtain ⟨message, channel, -, rfl⟩ := Link.recvCommand_eq_ok hcall
        refine h.frame rfl rfl rfl ?_ ?_
        · simp only [Function.update_of_ne (Ne.symm hj)]
        · simp only [Function.update_of_ne (Ne.symm hj)]
  | sendState data op pub lost =>
      cases hcall
      exact h.frame rfl rfl rfl rfl rfl
  | getter j g =>
      obtain ⟨message, channel, -, rfl⟩ := Link.getter_eq_ok hcall
      exact h.frame rfl rfl rfl rfl rfl

theorem commanding_run {events : List LinkEvent}
    (hrun : runs (linkStep pb) .new events = .ok s) : Commanding pb i events s :=
  runs_induction (fun _ _ _ _ h hcall => Commanding.step h hcall) Commanding.new hrun

/-! ### What a controller acts on -/

instance : DecidablePred Command.Incomplete
  | .hajimeWalk num angle stridex period stridey =>
      isTrue (.hajimeWalk num angle stridex period stridey)
  | .hajimeMotion no repeats ignoresuspend => isTrue (.hajimeMotion no repeats ignoresuspend)
  | .hajimeAccurateWalk .. | .hajimeAccurateOneStep .. | .hajimeCancel | .hajimePan ..
  | .hajimeTilt .. | .hajimePanTilt .. | .hajimePower .. => isFalse nofun

/-- The command in the bytes that `recv_command` returned, if there is one. -/
def parsed? (pb : WalkProtobuf) (answer : Option Bytes) : Option WalkCommand :=
  answer.bind fun data =>
    match pb.parseFromString data with
    | (true, m) => some m
    | (false, _) => none

/-- The commands a controller that parses what it receives has of client `i`. -/
def Link.acted (pb : WalkProtobuf) (s : Link) (i : Nat) : List WalkCommand :=
  (s.handled i).filterMap (parsed? pb)

/-- The calls of client `i` that ask for something, in order. -/
def requests (i : Nat) (events : List LinkEvent) : List Command :=
  (outputs (LinkEvent.command? i) events).filter fun c => ¬ c.Incomplete

theorem parsed?_serialize (c : Command) :
    parsed? pb (some (pb.serializeAsString c.com)) =
      if c.Incomplete then none else some c.request := by
  rw [parsed?, Option.bind_some, pb.parse_serialize]
  by_cases hincomplete : c.Incomplete
  · rw [hincomplete.com_isInitialized, if_pos hincomplete]
  · obtain ⟨hcom, hinit⟩ := Command.com_eq_request hincomplete
    rw [hcom, hinit, if_neg hincomplete]

/-- What can be made of the messages of these commands. -/
theorem filterMap_parsed? (sent : List Command) :
    (sent.map fun c => pb.serializeAsString c.com).filterMap (fun data => parsed? pb (some data)) =
      (sent.filter fun c => ¬ c.Incomplete).map Command.request := by
  induction sent with
  | nil => rfl
  | cons c sent ih =>
      rw [List.map_cons, List.filterMap_cons, parsed?_serialize, ih, List.filter_cons]
      by_cases hincomplete : c.Incomplete
      · simp [hincomplete]
      · simp [hincomplete]

/-- A message that does not fit is one the controller does not see. -/
theorem filterMap_handled_sublist (messages : List Bytes) :
    ((messages.map fun message =>
      if message.length ≤ 256 then some message else none).filterMap (parsed? pb)).Sublist
      (messages.filterMap fun data => parsed? pb (some data)) := by
  induction messages with
  | nil => exact List.Sublist.refl []
  | cons message messages ih =>
      rw [List.map_cons, List.filterMap_cons, List.filterMap_cons]
      by_cases hfits : message.length ≤ 256
      · rw [if_pos hfits]
        cases parsed? pb (some message) with
        | none => exact ih
        | some m => exact ih.cons_cons m
      · rw [if_neg hfits]
        have hnone : parsed? pb none = none := rfl
        rw [hnone]
        cases parsed? pb (some message) with
        | none => exact ih
        | some m => exact ih.cons m

/-- In any run, with any losses, what a controller acts on of a client are
requests that this client made while it was not suspended, each as it was made,
in their order and none twice. -/
theorem link_requests {events : List LinkEvent}
    (hrun : runs (linkStep pb) .new events = .ok s) (i : Nat) :
    (s.acted pb i).Sublist ((requests i events).map Command.request) := by
  have h : Commanding pb i events s := commanding_run hrun
  rw [Link.acted, h.handled, requests, ← @filterMap_parsed? pb]
  exact (filterMap_handled_sublist _).trans (h.commands.received_sublist.filterMap _)

/-- A client that turns its head and starts to walk before it is suspended, and
another that only switches the power on. -/
def sampleLink : List LinkEvent :=
  [.command 0 (.hajimePan (-30) 500) roomy false, .command 1 (.hajimePower true) roomy true,
    .command 0 (.hajimeWalk 0 0 40 20 0) roomy false, .hajimeSetSuspended 0 true,
    .command 0 .hajimeCancel roomy false, .recvCommand 0, .recvCommand 0]

theorem link_requests_sample :
    ∃ s, runs (linkStep wire) .new sampleLink = .ok s ∧
      (s.acted wire 0).Sublist [(Command.hajimePan (-30) 500).request] ∧
      (s.acted wire 1).Sublist [(Command.hajimePower true).request] :=
  ⟨_, rfl, @link_requests wire _ sampleLink rfl 0, @link_requests wire _ sampleLink rfl 1⟩

/-- On the wire every message of a client fits. -/
theorem filterMap_handled_wire {messages : List Bytes}
    (h : ∀ message ∈ messages, message.length ≤ 256) :
    (messages.map fun message =>
      if message.length ≤ 256 then some message else none).filterMap (parsed? pb) =
      messages.filterMap fun data => parsed? pb (some data) := by
  rw [List.filterMap_map]
  refine List.filterMap_congr fun message hmessage => ?_
  rw [Function.comp_apply, if_pos (h message hmessage)]

/-- Where no message of the client is lost, the requests arrive from the first
on, and all of them once nothing is on the way. -/
theorem link_requests_whole {events : List LinkEvent}
    (hrun : runs (linkStep wire) .new events = .ok s) {i : Nat}
    (hdelivered : ∀ e ∈ events, e.CommandDelivered i) :
    s.acted wire i <+: (requests i events).map Command.request ∧
      ((s.commands i).inFlight = [] →
        s.acted wire i = (requests i events).map Command.request) := by
  have h : Commanding wire i events s := commanding_run hrun
  have hfirst := h.commands.received_isPrefix hdelivered
  have hfit : ∀ message ∈ (s.commands i).received, message.length ≤ 256 := by
    intro message hmessage
    obtain ⟨c, -, rfl⟩ := List.mem_map.mp (hfirst.subset hmessage)
    exact ControlMessage.length_serializeAsString_le c.com
  rw [Link.acted, h.handled, filterMap_handled_wire hfit, requests, ← @filterMap_parsed? wire]
  refine ⟨hfirst.filterMap _, fun harrived => ?_⟩
  rw [h.commands.received_eq hdelivered harrived]

theorem link_requests_whole_sample :
    ∃ s, runs (linkStep wire) .new sampleLink = .ok s ∧
      s.acted wire 0 = [(Command.hajimePan (-30) 500).request] := by
  have hdelivered : ∀ e ∈ sampleLink, e.CommandDelivered 0 := by
    simp [sampleLink, LinkEvent.CommandDelivered, roomy]
  exact ⟨_, rfl, (@link_requests_whole _ sampleLink rfl 0 hdelivered).2 rfl⟩

/-! ## The states for a client -/

def LinkEvent.state? : LinkEvent → Option Bytes
  | .sendState data .. => some data
  | _ => none

def LinkEvent.getter? (i : Nat) : LinkEvent → Option Getter
  | .getter j g => if j = i then some g else none
  | _ => none

/-- The socket takes this state, and the queue for client `i` has room for it. -/
def LinkEvent.StateDelivered (i : Nat) : LinkEvent → Prop
  | .sendState data op pub lost =>
      lost i = false ∧ ∃ n, pub data op.flags = .ok (some n)
  | _ => True

/-- The channel to client `i`, and what its getters have made of it. -/
structure Reading (pb : WalkProtobuf) (i : Nat) (past : List LinkEvent) (s : Link) :
    Prop where
  states : (s.states i).Carries (past.filterMap LinkEvent.state?)
    (∀ e ∈ past, e.StateDelivered i)
  calls : (past.filterMap (LinkEvent.getter? i)).length = (s.states i).received.length
  answers : s.answers i =
    List.zipWith (fun g data => g.answer pb data) (past.filterMap (LinkEvent.getter? i))
      (s.states i).received

theorem Reading.new : Reading pb i [] .new :=
  ⟨Channel.Carries.new, rfl, rfl⟩

theorem Reading.frame {e : LinkEvent} (h : Reading pb i past s) (hstate : e.state? = none)
    (hgetter : e.getter? i = none) (hstates : s'.states i = s.states i)
    (hanswers : s'.answers i = s.answers i) : Reading pb i (past ++ [e]) s' where
  states := by
    rw [hstates, filterMap_snoc, hstate, Option.toList_none, List.append_nil]
    exact h.states.mono fun hall e' he' => hall e' (List.mem_append_left [e] he')
  calls := by
    rw [hstates, filterMap_snoc, hgetter, Option.toList_none, List.append_nil,
      h.calls]
  answers := by
    rw [hstates, hanswers, filterMap_snoc, hgetter, Option.toList_none, List.append_nil,
      h.answers]

theorem Reading.sendState (h : Reading pb i past s) (data : Bytes) (op : Blocking)
    (pub : PubSocket) (lost : Nat → Bool) :
    Reading pb i (past ++ [.sendState data op pub lost]) (s.sendState data op pub lost) where
  states := by
    have hpast : (∀ e ∈ past ++ [.sendState data op pub lost], e.StateDelivered i) →
        ∀ e ∈ past, e.StateDelivered i :=
      fun hall e he => hall e (List.mem_append_left _ he)
    have hlast : (∀ e ∈ past ++ [.sendState data op pub lost], e.StateDelivered i) →
        lost i = false ∧ ∃ n, pub data op.flags = .ok (some n) :=
      fun hall => hall _ List.mem_concat_self
    have hstate : (LinkEvent.sendState data op pub lost).state? = some data := rfl
    rw [filterMap_snoc, hstate, Option.toList_some]
    show ((s.states i).send (lost i) (afterSend pub data op.flags [])).Carries _ _
    obtain hsent | ⟨hsent, hrefused⟩ := afterSend_nil_or pub data op.flags
    · rw [hsent]
      exact h.states.send hpast fun hall _ => (hlast hall).1
    · rw [hsent, Channel.send_nil]
      exact h.states.unsent fun hall => hrefused (hlast hall).2
  calls := by
    have hgetter : (LinkEvent.sendState data op pub lost).getter? i = none := rfl
    rw [filterMap_snoc, hgetter, Option.toList_none, List.append_nil, h.calls]
    exact congrArg List.length (Channel.received_send _ _ _).symm
  answers := by
    have hgetter : (LinkEvent.sendState data op pub lost).getter? i = none := rfl
    rw [filterMap_snoc, hgetter, Option.toList_none, List.append_nil]
    show s.answers i = List.zipWith _ _ ((s.states i).send (lost i) _).received
    rw [Channel.received_send, h.answers]

theorem Reading.getter {g : Getter} (h : Reading pb i past s)
    (hcall : s.getter pb i g = .ok s') : Reading pb i (past ++ [.getter i g]) s' := by
  obtain ⟨message, channel, hreceive, rfl⟩ := Link.getter_eq_ok hcall
  have hreceived := (Channel.receive_eq_some hreceive).1
  have hgetter : (LinkEvent.getter i g).getter? i = some g := if_pos rfl
  have hstate : (LinkEvent.getter i g).state? = none := rfl
  refine ⟨?_, ?_, ?_⟩
  · rw [filterMap_snoc, hstate, Option.toList_none, List.append_nil]
    simp only [Function.update_self]
    exact (h.states.receive hreceive).mono fun hall e he =>
      hall e (List.mem_append_left _ he)
  · simp only [Function.update_self]
    rw [filterMap_snoc, hgetter, Option.toList_some, hreceived,
      List.length_append, List.length_append, h.calls]
    rfl
  · simp only [Function.update_self]
    rw [filterMap_snoc, hgetter, Option.toList_some, hreceived,
      List.zipWith_append h.calls, h.answers]
    rfl

theorem Reading.step {e : LinkEvent} (h : Reading pb i past s)
    (hcall : linkStep pb s e = .ok s') : Reading pb i (past ++ [e]) s' := by
  cases e with
  | command j c pub lost =>
      cases hcall
      exact h.frame rfl rfl rfl rfl
  | hajimeSetSuspended j suspend =>
      cases hcall
      exact h.frame rfl rfl rfl rfl
  | recvCommand j =>
      obtain ⟨message, channel, -, rfl⟩ := Link.recvCommand_eq_ok hcall
      exact h.frame rfl rfl rfl rfl
  | sendState data op pub lost =>
      cases hcall
      exact h.sendState data op pub lost
  | getter j g =>
      by_cases hj : j = i
      · subst hj
        exact h.getter hcall
      · obtain ⟨message, channel, -, rfl⟩ := Link.getter_eq_ok hcall
        refine h.frame rfl (if_neg hj) ?_ ?_
        · simp only [Function.update_of_ne (Ne.symm hj)]
        · simp only [Function.update_of_ne (Ne.symm hj)]

/-- The answers of a client's getters, one after another, are read from states
that the server sent, one each and in the order of the sending; where no state is
lost for this client, from the first ones. A state of more than 512 bytes is
answered with nothing. -/
theorem link_answers {events : List LinkEvent}
    (hrun : runs (linkStep pb) .new events = .ok s) (i : Nat) :
    ∃ states, states.Sublist (events.filterMap LinkEvent.state?) ∧
      ((∀ e ∈ events, e.StateDelivered i) →
        states <+: events.filterMap LinkEvent.state?) ∧
      (events.filterMap (LinkEvent.getter? i)).length = states.length ∧
      s.answers i = List.zipWith (fun g data => g.answer pb data)
        (events.filterMap (LinkEvent.getter? i)) states := by
  have h : Reading pb i events s :=
    runs_induction (fun _ _ _ _ h hcall => Reading.step h hcall) Reading.new hrun
  exact ⟨(s.states i).received, h.states.received_sublist, h.states.received_isPrefix, h.calls,
    h.answers⟩

/-- Three voltages are sent before the first is asked for. -/
def sampleStates : List LinkEvent :=
  [.sendState [0x38, 0xf0, 0x01] .nonblock roomy fun _ => false,
    .sendState [0x38, 0xee, 0x01] .nonblock roomy fun _ => false,
    .sendState [0x38, 0xec, 0x01] .block roomy fun _ => false,
    .getter 0 .getVoltage, .getter 0 .getVoltage]

theorem link_answers_sample :
    ∃ s, runs (linkStep wire) .new sampleStates = .ok s ∧
      s.answers 0 = [.voltage (some 0x42f00000), .voltage (some 0x42ee0000)] := by
  have hdelivered : ∀ e ∈ sampleStates, e.StateDelivered 0 := by
    simp [sampleStates, LinkEvent.StateDelivered, roomy]
  refine ⟨_, rfl, ?_⟩
  obtain ⟨states, -, hfirst, hlength, hanswers⟩ := @link_answers wire _ sampleStates rfl 0
  have hstates : states = [[0x38, 0xf0, 0x01], [0x38, 0xee, 0x01]] := by
    rw [List.prefix_iff_eq_take.mp (hfirst hdelivered), ← hlength]
    rfl
  rw [hanswers, hstates]
  decide +kernel

end Playspace.Citbrains.WalkCommunication
