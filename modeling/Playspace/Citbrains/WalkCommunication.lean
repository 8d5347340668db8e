import Playspace.Citbrains.ControlMessage

/-!
# The walk client

A `walkCommunicationClient` turns each call into a `WalkCommand` and publishes
it, unless it is suspended. The functions are `noexcept`, and what goes wrong in
a send ends in the log; a status getter has no such net, and an exception in it
ends the process.

ZeroMQ is seen through the answers of its two calls. A `PubSocket` is what one
`send` does with the bytes and the flags it is given: it throws, takes them and
tells how many there were, or would block and returns nothing. `published` is
all that the socket has taken, in order. What comes out of a `recv` is an
exception, nothing, or a message, of which the buffer holds the beginning.
-/

namespace Playspace.Citbrains.WalkCommunication

open ControlMessage (WalkCommand WalkProtobuf CommandNum FloatBits)

/-! ## Sockets -/

/-- The exceptions that can leave a send or a receive. -/
inductive Exn where
  | zmqError (what : Bytes)
  | badOptionalAccess
deriving DecidableEq

def Exn.what : Exn → Bytes
  | .zmqError what => what
  | .badOptionalAccess => ascii "bad optional access"

inductive SendFlags where
  | none
  | dontwait
deriving DecidableEq

/-- `zmq::send_result_t`. -/
abbrev SendResult := Option Nat

/-- `std::optional::value`. -/
def SendResult.value (r : SendResult) : Except Exn Nat :=
  match r with
  | some n => .ok n
  | none => .error .badOptionalAccess

abbrev PubSocket := Bytes → SendFlags → Except Exn SendResult

/-- All that the socket has taken, after one more send. -/
def afterSend (pub : PubSocket) (data : Bytes) (flags : SendFlags)
    (published : List Bytes) : List Bytes :=
  match pub data flags with
  | .ok (some _) => published ++ [data]
  | _ => published

/-- `option`, the name being taken. -/
inductive Blocking where
  | block
  | nonblock
deriving DecidableEq

def Blocking.flags : Blocking → SendFlags
  | .block => .none
  | .nonblock => .dontwait

/-- The common text of `send_command` and `send_state`. -/
def sendWith (pub : PubSocket) (data : Bytes) (op : Blocking) : Except Exn Nat :=
  match pub data op.flags with
  | .error e => .error e
  | .ok result => if result.isSome then .ok 0 else SendResult.value result

def sendCommand (pub : PubSocket) (data : Bytes) (op : Blocking := .nonblock) :
    Except Exn Nat :=
  sendWith pub data op

def sendState (pub : PubSocket) (data : Bytes) (op : Blocking := .nonblock) :
    Except Exn Nat :=
  sendWith pub data op

/-- The outcome of a `recv`: the message that arrived, if there was one. -/
abbrev SubSocket := Except Exn (Option Bytes)

/-- `zmq::recv_buffer_size`. -/
structure RecvBufferSize where
  size : Nat
  untruncatedSize : Nat

def RecvBufferSize.truncated (r : RecvBufferSize) : Bool := r.size ≠ r.untruncatedSize

/-- The common text of `recv_state` and `recv_command`: a message that did not
fit into the buffer is dropped. -/
def recvWith (bufSize : Nat) (sub : SubSocket) : Except Exn (Option Bytes) :=
  match sub with
  | .error e => .error e
  | .ok none => .ok none
  | .ok (some message) =>
      let buf := message.take bufSize
      let result : RecvBufferSize := ⟨buf.length, message.length⟩
      .ok (if result.truncated then none else some (buf.take result.size))

def recvState (sub : SubSocket) : Except Exn (Option Bytes) := recvWith 512 sub

def recvCommand (sub : SubSocket) : Except Exn (Option Bytes) := recvWith 256 sub

/-! ## The client -/

def sendFailed : Bytes := ascii "Command send failed. ZMQ send queue is full."

structure WalkCommunicationClient where
  isSuspended : Bool
  published : List Bytes
  log : List Bytes
deriving DecidableEq

/-- The calls that publish something. -/
inductive Command where
  | hajimeWalk (num angle stridex period stridey : Int32)
  | hajimeAccurateWalk (steps : Int32) (x y th : FloatBits)
  | hajimeAccurateOneStep (x y th : FloatBits)
  | hajimeCancel
  | hajimePan (pan time : Int32)
  | hajimeTilt (tilt time : Int32)
  | hajimeMotion (no repeats : Int32) (ignoresuspend : Bool)
  | hajimePanTilt (pan tilt time : Int32)
  | hajimePower (onOff : Bool)
deriving DecidableEq

/-- What the setters of each function leave in `com`. An `int` that goes into a
`uint32` field wraps around. -/
def Command.com : Command → WalkCommand
  | .hajimeWalk num angle stridex period _ =>
      { commandNum := some CommandNum.walk.number
        walkArgs := some {
          num := some num, angle := some angle, stridex := some stridex
          period := some period } }
  | .hajimeAccurateWalk steps x y th =>
      { commandNum := some CommandNum.accurateWalk.number
        accurateWalkArgs := some {
          steps := some steps, x := some x, y := some y, th := some th } }
  | .hajimeAccurateOneStep x y th =>
      { commandNum := some CommandNum.accurateWalk.number
        accurateWalkArgs := some {
          steps := some 1, x := some x, y := some y, th := some th } }
  | .hajimeCancel => { commandNum := some CommandNum.cancel.number }
  | .hajimePan pan time =>
      { commandNum := some CommandNum.pan.number
        panArgs := some { pan := some pan, time := some time } }
  | .hajimeTilt tilt time =>
      { commandNum := some CommandNum.tilt.number
        tiltArgs := some { tilt := some tilt, time := some time } }
  | .hajimeMotion no repeats _ =>
      { commandNum := some CommandNum.motion.number
        motionArgs := some {
          no := some no.toUInt32, repeats := some repeats.toUInt32 } }
  | .hajimePanTilt pan tilt time =>
      { commandNum := some CommandNum.pantilt.number
        pantiltArgs := some { pan := some pan, tilt := some tilt, time := some time } }
  | .hajimePower onOff =>
      { commandNum := some CommandNum.power.number
        powerArgs := some { on := some onOff } }

namespace WalkCommunicationClient

def new : WalkCommunicationClient := { isSuspended := false, published := [], log := [] }

def logDummy (text : Bytes) (s : WalkCommunicationClient) : WalkCommunicationClient :=
  { s with log := s.log ++ [text] }

/-- The `try` block that ends every command. -/
def trySend (pb : WalkProtobuf) (pub : PubSocket) (com : WalkCommand)
    (s : WalkCommunicationClient) : WalkCommunicationClient :=
  let data := pb.serializeAsString com
  let sent := { s with published := afterSend pub data .dontwait s.published }
  match sendCommand pub data with
  | .ok size => if size < 1 then sent.logDummy sendFailed else sent
  | .error e => sent.logDummy e.what

section commands

variable (pb : WalkProtobuf) (pub : PubSocket)

def hajimeWalk (num angle stridex period stridey : Int32) (s : WalkCommunicationClient) :
    WalkCommunicationClient :=
  if s.isSuspended then s
  else s.trySend pb pub (Command.hajimeWalk num angle stridex period stridey).com

def hajimeAccurateWalk (steps : Int32) (x y th : FloatBits)
    (s : WalkCommunicationClient) : WalkCommunicationClient :=
  if s.isSuspended then s
  else s.trySend pb pub (Command.hajimeAccurateWalk steps x y th).com

def hajimeAccurateOneStep (x y th : FloatBits) (s : WalkCommunicationClient) :
    WalkCommunicationClient :=
  if s.isSuspended then s
  else s.hajimeAccurateWalk pb pub 1 x y th

def hajimeCancel (s : WalkCommunicationClient) : WalkCommunicationClient :=
  if s.isSuspended then s
  else s.trySend pb pub Command.hajimeCancel.com

def hajimePan (pan time : Int32) (s : WalkCommunicationClient) : WalkCommunicationClient :=
  if s.isSuspended then s
  else s.trySend pb pub (Command.hajimePan pan time).com

def hajimeTilt (tilt time : Int32) (s : WalkCommunicationClient) :
    WalkCommunicationClient :=
  if s.isSuspended then s
  else s.trySend pb pub (Command.hajimeTilt tilt time).com

def hajimeMotion (no repeats : Int32) (ignoresuspend : Bool)
    (s : WalkCommunicationClient) : WalkCommunicationClient :=
  if s.isSuspended && !ignoresuspend then s
  else s.trySend pb pub (Command.hajimeMotion no repeats ignoresuspend).com

def hajimePanTilt (pan tilt time : Int32) (s : WalkCommunicationClient) :
    WalkCommunicationClient :=
  if s.isSuspended then s
  else s.trySend pb pub (Command.hajimePanTilt pan tilt time).com

def hajimePower (onOff : Bool) (s : WalkCommunicationClient) : WalkCommunicationClient :=
  if s.isSuspended then s
  else s.trySend pb pub (Command.hajimePower onOff).com

def call (s : WalkCommunicationClient) : Command → WalkCommunicationClient
  | .hajimeWalk num angle stridex period stridey =>
      s.hajimeWalk pb pub num angle stridex period stridey
  | .hajimeAccurateWalk steps x y th => s.hajimeAccurateWalk pb pub steps x y th
  | .hajimeAccurateOneStep x y th => s.hajimeAccurateOneStep pb pub x y th
  | .hajimeCancel => s.hajimeCancel pb pub
  | .hajimePan pan time => s.hajimePan pb pub pan time
  | .hajimeTilt tilt time => s.hajimeTilt pb pub tilt time
  | .hajimeMotion no repeats ignoresuspend =>
      s.hajimeMotion pb pub no repeats ignoresuspend
  | .hajimePanTilt pan tilt time => s.hajimePanTilt pb pub pan tilt time
  | .hajimePower onOff => s.hajimePower pb pub onOff

end commands

def hajimeSetSuspended (suspend : Bool) (s : WalkCommunicationClient) :
    WalkCommunicationClient :=
  { s with isSuspended := suspend }

/-! ### Status -/

/-- The `float` closest to an `int`, the even one of two. -/
def floatOfInt32 (n : Int32) : FloatBits :=
  let a := n.toInt.natAbs
  if a = 0 then 0
  else
    let e := Nat.log2 a
    let significand :=
      if e ≤ 23 then a * 2 ^ (23 - e)
      else
        let ulp := 2 ^ (e - 23)
        let q := a / ulp
        let r := a % ulp
        if ulp < 2 * r ∨ (ulp = 2 * r ∧ q % 2 = 1) then q + 1 else q
    let sign := if n.toInt < 0 then 2 ^ 31 else 0
    UInt32.ofNat (sign + (e + 126) * 2 ^ 23 + significand)

/-- An exception that leaves a `noexcept` function ends the process. -/
inductive Terminated where
  | uncaught (e : Exn)
deriving DecidableEq

/-- The common text of the getters: `read` is what they return of a status,
which is used whether or not its bytes could be parsed. -/
def readStatus {α : Type} (pb : WalkProtobuf) (sub : SubSocket)
    (read : ControlMessage.RobotStatus → α) : Except Terminated (Option α) :=
  match recvState sub with
  | .error e => .error (.uncaught e)
  | .ok none => .ok none
  | .ok (some bytes) => .ok (some (read (pb.parseStatus bytes).2))

def getVoltage (pb : WalkProtobuf) (sub : SubSocket) :
    Except Terminated (Option FloatBits) :=
  readStatus pb sub fun status => floatOfInt32 (status.motorVoltage.getD 0)

def getStatus (pb : WalkProtobuf) (sub : SubSocket) :
    Except Terminated (Option ControlMessage.RobotStatus) :=
  readStatus pb sub id

def getStatusQuaternion (pb : WalkProtobuf) (sub : SubSocket) :
    Except Terminated (Option ControlMessage.RobotStatus) :=
  readStatus pb sub id

end WalkCommunicationClient

/-! ## The life of a client -/

/-- A call, with what its socket does. -/
inductive ClientCall where
  | command (c : Command) (pub : PubSocket)
  | hajimeSetSuspended (suspend : Bool)
  | getVoltage (sub : SubSocket)
  | getStatus (sub : SubSocket)
  | getStatusQuaternion (sub : SubSocket)

def clientStep (pb : WalkProtobuf) (s : WalkCommunicationClient) :
    ClientCall → Except WalkCommunicationClient.Terminated WalkCommunicationClient
  | .command c pub => .ok (s.call pb pub c)
  | .hajimeSetSuspended suspend => .ok (s.hajimeSetSuspended suspend)
  | .getVoltage sub => (WalkCommunicationClient.getVoltage pb sub).map fun _ => s
  | .getStatus sub => (WalkCommunicationClient.getStatus pb sub).map fun _ => s
  | .getStatusQuaternion sub =>
      (WalkCommunicationClient.getStatusQuaternion pb sub).map fun _ => s

end Playspace.Citbrains.WalkCommunication
