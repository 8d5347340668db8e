import Playspace.Citbrains.ControlWire
import Playspace.Citbrains.WalkCommunication
import Playspace.Lib.LastWrite
import Playspace.Lib.Machine

/-!
# What the walk client publishes, and what it says about it

Nine functions share one shape: look at the flag, fill in a message, send it.
`call_eq` is that shape, said once for all of them, the one-step walk that goes
through another guarded function included; everything here is read off it.

The three results are of different kinds. The flag is tested without exception,
so what a client publishes in its life is a function of its calls
(`published_eq`). Two of the nine leave out a required field, and nothing they
send can be parsed (`roundTrip_iff`). And the test of what a send returned is
the wrong way round, so every report of it is wrong (`send_reported_iff`).
-/

namespace Playspace.Citbrains.WalkCommunication

open ControlMessage (WalkCommand WalkProtobuf CommandNum wire)
open Playspace.Lib (runs runs_induction latest latest_append outputs outputs_snoc)

variable {pb : WalkProtobuf} {pub : PubSocket}

/-- The argument of `hajimeMotion` that lets it through a suspension. -/
def Command.ignoresSuspend : Command → Bool
  | .hajimeMotion _ _ ignoresuspend => ignoresuspend
  | _ => false

namespace WalkCommunicationClient

/-! ## One call -/

theorem guard_eq (s s' : WalkCommunicationClient) :
    (if s.isSuspended then s else s') =
      if s.isSuspended && !false then s else s' := by
  rw [Bool.not_false, Bool.and_true]

theorem call_eq (s : WalkCommunicationClient) (c : Command) :
    s.call pb pub c =
      if s.isSuspended && !c.ignoresSuspend then s else s.trySend pb pub c.com := by
  cases c with
  | hajimeWalk num angle stridex period stridey => exact guard_eq s _
  | hajimeAccurateWalk steps x y th => exact guard_eq s _
  | hajimeAccurateOneStep x y th =>
      -- the flag is asked twice, with the same answer
      unfold call hajimeAccurateOneStep hajimeAccurateWalk
      cases hflag : s.isSuspended with
      | true => rfl
      | false => rfl
  | hajimeCancel => exact guard_eq s _
  | hajimePan pan time => exact guard_eq s _
  | hajimeTilt tilt time => exact guard_eq s _
  | hajimeMotion no repeats ignoresuspend => rfl
  | hajimePanTilt pan tilt time => exact guard_eq s _
  | hajimePower onOff => exact guard_eq s _

theorem call_blocked {s : WalkCommunicationClient} {c : Command}
    (h : (s.isSuspended && !c.ignoresSuspend) = true) : s.call pb pub c = s := by
  rw [call_eq, if_pos h]

theorem call_open {s : WalkCommunicationClient} {c : Command}
    (h : (s.isSuspended && !c.ignoresSuspend) = false) :
    s.call pb pub c = s.trySend pb pub c.com := by
  rw [call_eq, h]
  rfl

theorem trySend_published (s : WalkCommunicationClient) (com : WalkCommand) :
    (s.trySend pb pub com).published =
      afterSend pub (pb.serializeAsString com) .dontwait s.published := by
  simp only [trySend]
  split
  · split
    · rfl
    · rfl
  · rfl

theorem trySend_isSuspended (s : WalkCommunicationClient) (com : WalkCommand) :
    (s.trySend pb pub com).isSuspended = s.isSuspended := by
  simp only [trySend]
  split
  · split
    · rfl
    · rfl
  · rfl

theorem call_isSuspended (s : WalkCommunicationClient) (c : Command) :
    (s.call pb pub c).isSuspended = s.isSuspended := by
  rw [call_eq]
  split
  · rfl
  · exact trySend_isSuspended s c.com

end WalkCommunicationClient

/-! ## The round trip -/

/-- The message that says what the call says: its number, and every argument
under the name the schema has for it. -/
def Command.request : Command → WalkCommand
  | .hajimeWalk num angle stridex period stridey =>
      { commandNum := some CommandNum.walk.number
        walkArgs := some {
          num := some num, angle := some angle, stridex := some stridex
          stridey := some stridey, period := some period } }
  | .hajimeAccurateWalk steps x y th =>
      { commandNum := some CommandNum.accurateWalk.number
        accurateWalkArgs := some {
          steps := some steps, x := some x, y := some y, th := some th } }
  | .hajimeAccurateOneStep x y th =>
      { commandNum := some CommandNum.accurateWalk.number
        accurateWalkArgs := some {
          steps := some 1, x := some x, y := some y, th := some th } }
  | .hajimeCancel => { commandNum := some CommandNum.cancel.number }
  | .hajimePan pan time =>
      { commandNum := some CommandNum.pan.number
        panArgs := some { pan := some pan, time := some time } }
  | .hajimeTilt tilt time =>
      { commandNum := some CommandNum.tilt.number
        tiltArgs := some { tilt := some tilt, time := some time } }
  | .hajimeMotion no repeats ignoresuspend =>
      { commandNum := some CommandNum.motion.number
        motionArgs := some {
          no := some no.toUInt32, repeats := some repeats.toUInt32
          ignoresuspend := some ignoresuspend } }
  | .hajimePanTilt pan tilt time =>
      { commandNum := some CommandNum.pantilt.number
        pantiltArgs := some { pan := some pan, tilt := some tilt, time := some time } }
  | .hajimePower onOff =>
      { commandNum := some CommandNum.power.number
        powerArgs := some { on := some onOff } }

/-- The two functions that leave a required field out. -/
inductive Command.Incomplete : Command → Prop where
  | hajimeWalk (num angle stridex period stridey : Int32) :
      Incomplete (.hajimeWalk num angle stridex period stridey)
  | hajimeMotion (no repeats : Int32) (ignoresuspend : Bool) :
      Incomplete (.hajimeMotion no repeats ignoresuspend)

theorem Command.Incomplete.com_isInitialized {c : Command} (h : c.Incomplete) :
    c.com.isInitialized = false := by
  cases h with
  | hajimeWalk num angle stridex period stridey => rfl
  | hajimeMotion no repeats ignoresuspend => rfl

/-- Every other function sets all that the schema has a place for. -/
theorem Command.com_eq_request {c : Command} (h : ¬ c.Incomplete) :
    c.com = c.request ∧ c.request.isInitialized = true := by
  cases c with
  | hajimeWalk num angle stridex period stridey =>
      exact absurd (.hajimeWalk num angle stridex period stridey) h
  | hajimeAccurateWalk steps x y th => exact ⟨rfl, rfl⟩
  | hajimeAccurateOneStep x y th => exact ⟨rfl, rfl⟩
  | hajimeCancel => exact ⟨rfl, rfl⟩
  | hajimePan pan time => exact ⟨rfl, rfl⟩
  | hajimeTilt tilt time => exact ⟨rfl, rfl⟩
  | hajimeMotion no repeats ignoresuspend =>
      exact absurd (.hajimeMotion no repeats ignoresuspend) h
  | hajimePanTilt pan tilt time => exact ⟨rfl, rfl⟩
  | hajimePower onOff => exact ⟨rfl, rfl⟩

/-- The one message a call may add to what is published. -/
theorem call_published {s : WalkCommunicationClient} {c : Command} {data : Bytes}
    (h : (s.call pb pub c).published = s.published ++ [data]) :
    data = pb.serializeAsString c.com := by
  rw [WalkCommunicationClient.call_eq] at h
  split at h
  · exact absurd (List.self_eq_append_right.mp h) (List.cons_ne_nil data [])
  · rw [WalkCommunicationClient.trySend_published] at h
    unfold afterSend at h
    split at h
    · exact (List.singleton_inj.mp (List.append_cancel_left h)).symm
    · exact absurd (List.self_eq_append_right.mp h) (List.cons_ne_nil data [])

/-- The bytes a call publishes have every required field, and parse to what the
call said, unless it is one of the two. -/
theorem roundTrip_iff {s : WalkCommunicationClient} {c : Command} {data : Bytes}
    (h : (s.call pb pub c).published = s.published ++ [data]) :
    (c.com.isInitialized = true ∧ pb.parseFromString data = (true, c.request)) ↔
      ¬ c.Incomplete := by
  rw [call_published h, pb.parse_serialize]
  constructor
  · rintro ⟨hinit, -⟩ hincomplete
    rw [hincomplete.com_isInitialized] at hinit
    cases hinit
  · intro hcomplete
    obtain ⟨hcom, hinit⟩ := Command.com_eq_request hcomplete
    rw [hcom, hinit]
    exact ⟨rfl, rfl⟩

/-- The socket that takes everything, as a publisher with room in its queue. -/
def roomy : PubSocket := fun data _ => .ok (some data.length)

/-- The socket whose queue is full. -/
def full : PubSocket := fun _ _ => .ok none

theorem roundTrip_pan :
    wire.parseFromString
      (wire.serializeAsString (Command.hajimePan (-30) 500).com) =
        (true, (Command.hajimePan (-30) 500).request) :=
  ((@roundTrip_iff wire roomy .new (.hajimePan (-30) 500) _ rfl).mpr
    fun h => by cases h).2

/-- A walk straight on, as the controller finds it. -/
theorem hajimeWalk_unparsable :
    ∃ data, (WalkCommunicationClient.new.hajimeWalk wire roomy 0 0 40 20 0).published =
        [data] ∧
      wire.parseFromString data =
        (false, { commandNum := some 0
                  walkArgs := some {
                    num := some 0, angle := some 0, stridex := some 40
                    period := some 20 } }) := by
  refine ⟨_, rfl, ?_⟩
  exact wire.parse_serialize _

/-- Whatever a command says, the server's buffer holds it. -/
theorem recvCommand_serialize (com : WalkCommand) :
    recvCommand (.ok (some (wire.serializeAsString com))) =
      .ok (some (wire.serializeAsString com)) := by
  have hlength : (wire.serializeAsString com).length ≤ 256 :=
    ControlMessage.length_serializeAsString_le com
  simp only [recvCommand, recvWith, List.take_of_length_le hlength]
  rw [if_neg (by simp [RecvBufferSize.truncated]),
    List.take_of_length_le (Nat.le_refl _)]

/-! ## The report of a send -/

/-- What the log says after a send with this result, if it is right. -/
def Reported (result : SendResult) (s s' : WalkCommunicationClient) : Prop :=
  s'.log = s.log ++ if result.isSome then [] else [sendFailed]

theorem sendWith_eq {data : Bytes} {op : Blocking} {result : SendResult}
    (h : pub data op.flags = .ok result) :
    sendWith pub data op = if result.isSome then .ok 0 else .error .badOptionalAccess := by
  rw [sendWith, h]
  cases result with
  | none => rfl
  | some n => rfl

theorem sendWith_value_iff {data : Bytes} {op : Blocking} {result : SendResult}
    (h : pub data op.flags = .ok result) :
    sendWith pub data op = .ok (result.getD 0) ↔ result = some 0 := by
  rw [sendWith_eq h]
  cases result with
  | none => exact iff_of_false nofun nofun
  | some n =>
      show (Except.ok 0 : Except Exn Nat) = .ok n ↔ some n = some 0
      rw [Except.ok.injEq, Option.some.injEq]
      exact eq_comm

theorem trySend_log {s : WalkCommunicationClient} {com : WalkCommand}
    {result : SendResult} (h : pub (pb.serializeAsString com) .dontwait = .ok result) :
    (s.trySend pb pub com).log = s.log ++
      [if result.isSome then sendFailed else Exn.badOptionalAccess.what] := by
  have hsend : sendCommand pub (pb.serializeAsString com) = _ := sendWith_eq h
  simp only [WalkCommunicationClient.trySend, hsend]
  cases result with
  | none => rfl
  | some n => rfl

theorem what_ne_sendFailed : Exn.badOptionalAccess.what ≠ sendFailed := by
  intro h
  have hlength := congrArg List.length h
  exact absurd hlength (by decide +kernel)

theorem not_reported {s s' : WalkCommunicationClient} {result : SendResult}
    (h : s'.log = s.log ++
      [if result.isSome then sendFailed else Exn.badOptionalAccess.what]) :
    ¬ Reported result s s' := by
  intro hreported
  rw [Reported, h, List.append_cancel_left_eq] at hreported
  cases result with
  | none => exact what_ne_sendFailed (List.singleton_inj.mp hreported)
  | some n => cases hreported

/-- A send returns what it should only if it took nothing and called it a
success; and no command that tries a send has the right log after it. -/
theorem send_reported_iff {data : Bytes} {op : Blocking} {result : SendResult}
    (h : pub data op.flags = .ok result) :
    (sendCommand pub data op = .ok (result.getD 0) ↔ result = some 0) ∧
    (sendState pub data op = .ok (result.getD 0) ↔ result = some 0) ∧
    ∀ (pb : WalkProtobuf) (c : Command) (s : WalkCommunicationClient),
      op = .nonblock → data = pb.serializeAsString c.com → s.isSuspended = false →
      ¬ Reported result s (s.call pb pub c) := by
  refine ⟨sendWith_value_iff h, sendWith_value_iff h, ?_⟩
  rintro pb c s rfl rfl hopen
  have hpass : (s.isSuspended && !c.ignoresSuspend) = false := by rw [hopen, Bool.false_and]
  rw [WalkCommunicationClient.call_open hpass]
  exact not_reported (trySend_log h)

theorem send_reported_cancel :
    sendCommand roomy [0x08, 0x02] ≠ .ok 2 ∧
      ¬ Reported (some 2) .new (WalkCommunicationClient.new.hajimeCancel wire roomy) := by
  have hsend : roomy [0x08, 0x02] Blocking.nonblock.flags = .ok (some 2) := rfl
  obtain ⟨hreturn, -, hlog⟩ := send_reported_iff hsend
  refine ⟨fun h => ?_, hlog wire .hajimeCancel .new rfl rfl rfl⟩
  cases hreturn.mp h

/-- Both outcomes of a send, each reported as the other. -/
theorem report_swapped :
    sendCommand roomy [0x08, 0x02] = .ok 0 ∧
      (WalkCommunicationClient.new.hajimeCancel wire roomy).log = [sendFailed] ∧
      sendCommand full [0x08, 0x02] = .error .badOptionalAccess ∧
      (WalkCommunicationClient.new.hajimeCancel wire full).log =
        [ascii "bad optional access"] :=
  ⟨rfl, rfl, rfl, rfl⟩

/-! ## The life of a client -/

/-- The argument of `hajimeSetSuspended`. -/
def ClientCall.suspends? : ClientCall → Option Bool
  | .hajimeSetSuspended suspend => some suspend
  | _ => none

/-- The message a call contributes, given the calls before it. -/
def ClientCall.message? (past : List ClientCall) : ClientCall → Option WalkCommand
  | .command c _ =>
      if latest suspends? false past && !c.ignoresSuspend then none else some c.com
  | _ => none

/-- The send of this call, if there is one, is accepted. -/
def ClientCall.Accepted : ClientCall → Prop
  | .command _ pub => ∀ data, ∃ n, pub data .dontwait = .ok (some n)
  | _ => True

/-- After these calls the flag is what was last asked for, and everything that
was to be published has been. -/
structure Faithful (pb : WalkProtobuf) (past : List ClientCall)
    (s : WalkCommunicationClient) : Prop where
  flag : s.isSuspended = latest ClientCall.suspends? false past
  published : (∀ e ∈ past, e.Accepted) →
    s.published = (outputs ClientCall.message? past).map pb.serializeAsString

theorem latest_snoc (past : List ClientCall) (e : ClientCall) :
    latest ClientCall.suspends? false (past ++ [e]) =
      (e.suspends?).getD (latest ClientCall.suspends? false past) := by
  rw [latest_append]
  exact Playspace.Lib.latest_cons _ _ e []

/-- A call that has no message and does not touch the socket. -/
theorem Faithful.silent {past : List ClientCall} {s s' : WalkCommunicationClient}
    {e : ClientCall} (h : Faithful pb past s) (hmessage : e.message? past = none)
    (hflag : s'.isSuspended = (e.suspends?).getD s.isSuspended)
    (hpublished : s'.published = s.published) : Faithful pb (past ++ [e]) s' where
  flag := by rw [latest_snoc, hflag, h.flag]
  published := by
    intro haccepted
    rw [hpublished, h.published fun e' he' => haccepted e' (List.mem_append_left [e] he'),
      outputs_snoc, hmessage, Option.toList_none, List.append_nil]

theorem Faithful.command {past : List ClientCall} {s : WalkCommunicationClient}
    (h : Faithful pb past s) (c : Command) (pub : PubSocket) :
    Faithful pb (past ++ [.command c pub]) (s.call pb pub c) := by
  cases hguard : s.isSuspended && !c.ignoresSuspend with
  | true =>
      rw [WalkCommunicationClient.call_blocked hguard]
      refine h.silent ?_ rfl rfl
      rw [ClientCall.message?, ← h.flag, if_pos hguard]
  | false =>
      refine ⟨?_, fun haccepted => ?_⟩
      · rw [WalkCommunicationClient.call_isSuspended, latest_snoc, h.flag]
        rfl
      · have hpast := h.published fun e he => haccepted e (List.mem_append_left _ he)
        have hmessage : ClientCall.message? past (.command c pub) = some c.com := by
          rw [ClientCall.message?, ← h.flag, hguard]
          rfl
        obtain ⟨n, hsend⟩ :=
          haccepted (.command c pub) (by simp) (pb.serializeAsString c.com)
        rw [WalkCommunicationClient.call_open hguard,
          WalkCommunicationClient.trySend_published, afterSend, hsend, outputs_snoc,
          hmessage, List.map_append, hpast]
        rfl

theorem Faithful.getter {α : Type} {past : List ClientCall}
    {s s' : WalkCommunicationClient} {e : ClientCall} (h : Faithful pb past s)
    {answer : Except WalkCommunicationClient.Terminated α}
    (hcall : answer.map (fun _ => s) = .ok s') (hsuspends : e.suspends? = none)
    (hmessage : e.message? past = none) : Faithful pb (past ++ [e]) s' := by
  cases answer with
  | error stop => cases hcall
  | ok a =>
      cases hcall
      exact h.silent hmessage (by rw [hsuspends, Option.getD_none]) rfl

theorem Faithful.step (past : List ClientCall) (s : WalkCommunicationClient)
    (e : ClientCall) (s' : WalkCommunicationClient) (h : Faithful pb past s)
    (hcall : clientStep pb s e = .ok s') : Faithful pb (past ++ [e]) s' := by
  cases e with
  | command c pub =>
      cases hcall
      exact h.command c pub
  | hajimeSetSuspended suspend =>
      cases hcall
      exact h.silent rfl rfl rfl
  | getVoltage sub => exact h.getter hcall rfl rfl
  | getStatus sub => exact h.getter hcall rfl rfl
  | getStatusQuaternion sub => exact h.getter hcall rfl rfl

/-- What a client has published is the messages of the commands that were not
called in a suspension, in the order of the calls, and of the motions that were
to ignore it. A single step is an `ACCURATE_WALK` of one step. -/
theorem published_eq {calls : List ClientCall} {s : WalkCommunicationClient}
    (haccepted : ∀ e ∈ calls, e.Accepted)
    (hrun : runs (clientStep pb) .new calls = .ok s) :
    s.published = (outputs ClientCall.message? calls).map pb.serializeAsString ∧
      ∀ x y th, (Command.hajimeAccurateOneStep x y th).com =
        { commandNum := some CommandNum.accurateWalk.number
          accurateWalkArgs := some
            { steps := some 1, x := some x, y := some y, th := some th } } := by
  have hnew : Faithful pb [] .new := ⟨rfl, fun _ => rfl⟩
  exact ⟨(runs_induction Faithful.step hnew hrun).published haccepted, fun _ _ _ => rfl⟩

/-- One step, then a suspension that only a motion gets through. -/
def sampleLife : List ClientCall :=
  [.command (.hajimeAccurateOneStep 0x42c80000 0 0) roomy, .hajimeSetSuspended true,
    .command .hajimeCancel roomy, .getStatus (.ok none),
    .command (.hajimeMotion 5 1 true) roomy, .hajimeSetSuspended false,
    .command (.hajimePower false) roomy]

theorem published_sampleLife :
    ∃ s, runs (clientStep wire) .new sampleLife = .ok s ∧
      s.published =
        [(Command.hajimeAccurateWalk 1 0x42c80000 0 0).com,
          (Command.hajimeMotion 5 1 true).com,
          (Command.hajimePower false).com].map wire.serializeAsString := by
  have haccepted : ∀ e ∈ sampleLife, e.Accepted := by
    simp [sampleLife, ClientCall.Accepted, roomy]
  exact ⟨_, rfl, (published_eq haccepted rfl).1⟩

end Playspace.Citbrains.WalkCommunication
