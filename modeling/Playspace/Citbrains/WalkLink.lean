import Mathlib.Logic.Function.Basic
import Playspace.Citbrains.WalkCommunication
import Playspace.Lib.Channel

/-!
# The clients and the server

Any number of walk clients connect to one `walkCommunicationServer`. A publisher
never waits for a subscriber: what it publishes is queued for each of those it
knows of and has room for, and is lost for the others, so each client has one
lossy channel to the server and one from it. Whether a message is lost is an
argument of the event that sends it, as is what the socket answers. A `recv`
takes the oldest message of a queue, and waits while there is none.
-/

namespace Playspace.Citbrains.WalkCommunication

open ControlMessage (WalkProtobuf FloatBits)
open Playspace.Lib (Channel)

inductive Getter where
  | getVoltage
  | getStatus
  | getStatusQuaternion
deriving DecidableEq

/-- What a getter returns. -/
inductive Answer where
  | voltage (v : Option FloatBits)
  | status (m : Option ControlMessage.RobotStatus)
deriving DecidableEq

def Getter.call (pb : WalkProtobuf) (sub : SubSocket) :
    Getter → Except WalkCommunicationClient.Terminated Answer
  | .getVoltage => (WalkCommunicationClient.getVoltage pb sub).map .voltage
  | .getStatus => (WalkCommunicationClient.getStatus pb sub).map .status
  | .getStatusQuaternion => (WalkCommunicationClient.getStatusQuaternion pb sub).map .status

/-- The clients have numbers. `handled` is what `recv_command` has returned for
the messages of each, and `answers` what its getters have. -/
structure Link where
  clients : Nat → WalkCommunicationClient
  commands : Nat → Channel Bytes
  states : Nat → Channel Bytes
  handled : Nat → List (Option Bytes)
  answers : Nat → List Answer

def Link.new : Link where
  clients _ := .new
  commands _ := .new
  states _ := .new
  handled _ := []
  answers _ := []

inductive LinkEvent where
  | command (i : Nat) (c : Command) (pub : PubSocket) (lost : Bool)
  | hajimeSetSuspended (i : Nat) (suspend : Bool)
  | recvCommand (i : Nat)
  | sendState (data : Bytes) (op : Blocking) (pub : PubSocket) (lost : Nat → Bool)
  | getter (i : Nat) (g : Getter)

/-- Why an event does not take place, or is the last one. -/
inductive LinkStop where
  | waits
  | thrown (e : Exn)
  | terminated (t : WalkCommunicationClient.Terminated)
deriving DecidableEq

namespace Link

/-- What a call of `s` has added to what it published. -/
def publishedBy (s s' : WalkCommunicationClient) : List Bytes :=
  s'.published.drop s.published.length

def command (pb : WalkProtobuf) (i : Nat) (c : Command) (pub : PubSocket) (lost : Bool)
    (s : Link) : Link :=
  let client := (s.clients i).call pb pub c
  let sent := publishedBy (s.clients i) client
  { s with
    clients := Function.update s.clients i client
    commands := Function.update s.commands i ((s.commands i).send lost sent) }

/-- The server takes a command of client `i`. -/
def recvCommand (i : Nat) (s : Link) : Except LinkStop Link :=
  match (s.commands i).receive with
  | none => .error .waits
  | some (message, channel) =>
      match WalkCommunication.recvCommand (.ok (some message)) with
      | .error e => .error (.thrown e)
      | .ok answer => .ok { s with
          commands := Function.update s.commands i channel
          handled := Function.update s.handled i (s.handled i ++ [answer]) }

/-- A send that throws leaves the server as it was. -/
def sendState (data : Bytes) (op : Blocking) (pub : PubSocket) (lost : Nat → Bool)
    (s : Link) : Link :=
  let sent := afterSend pub data op.flags []
  { s with states := fun i => (s.states i).send (lost i) sent }

def getter (pb : WalkProtobuf) (i : Nat) (g : Getter) (s : Link) : Except LinkStop Link :=
  match (s.states i).receive with
  | none => .error .waits
  | some (message, channel) =>
      match g.call pb (.ok (some message)) with
      | .error t => .error (.terminated t)
      | .ok answer => .ok { s with
          states := Function.update s.states i channel
          answers := Function.update s.answers i (s.answers i ++ [answer]) }

end Link

def linkStep (pb : WalkProtobuf) (s : Link) : LinkEvent → Except LinkStop Link
  | .command i c pub lost => .ok (s.command pb i c pub lost)
  | .hajimeSetSuspended i suspend => .ok { s with
      clients := Function.update s.clients i ((s.clients i).hajimeSetSuspended suspend) }
  | .recvCommand i => s.recvCommand i
  | .sendState data op pub lost => .ok (s.sendState data op pub lost)
  | .getter i g => s.getter pb i g

end Playspace.Citbrains.WalkCommunication
