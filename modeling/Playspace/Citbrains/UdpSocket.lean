import Playspace.Citbrains.Cpp

/-!
# `UDPServer`: the receive loop

A server lives on one asynchronous receive at a time. The constructor starts
the first, and after that only the completion handler starts another, so
whether the server still listens is a matter of which branch the handler took
last. `outstanding` counts the receives that were started and have not
completed, `started` all that were ever started.

`receive_buff_` is prepared for every receive and never committed, so its
readable part stays empty and starts where the received bytes are put. What
the handler reads is the bytes the completion left there, up to the number it
reports.
-/

namespace Playspace.Citbrains.Udpsocket

def bufferSize : Nat := 1024

/-- A `boost::system::error_code` that is not success. -/
inductive ErrorCode where
  | eof
  | other (value : Int)
deriving DecidableEq

structure UDPServer where
  terminated : Bool
  outstanding : Nat
  started : Nat
  received : List Bytes
deriving DecidableEq

namespace UDPServer

def startReceive (s : UDPServer) : UDPServer :=
  if s.terminated then s
  else { s with outstanding := s.outstanding + 1, started := s.started + 1 }

/-- The constructor, whose last act is to start receiving. -/
def new : UDPServer :=
  startReceive { terminated := false, outstanding := 0, started := 0, received := [] }

/-- The completion handler. `area` is the prepared part of the buffer and
`received` what `receivedHandler_` was called with, which returns. -/
def receiveHandler (error : Option ErrorCode) (area : Bytes) (bytesTransferred : Nat)
    (s : UDPServer) : UDPServer :=
  if error.isSome ∧ error ≠ some .eof then s
  else
    let handled := { s with received := s.received ++ [area.take bytesTransferred] }
    if handled.terminated then handled else handled.startReceive

def terminate (s : UDPServer) : UDPServer :=
  if s.terminated then s else { s with terminated := true }

end UDPServer

/-- What can happen to a server from outside. -/
inductive ServerEvent where
  | completion (error : Option ErrorCode) (area : Bytes) (bytesTransferred : Nat)
  | terminate

/-- A completion that no receive is outstanding for does not happen. -/
inductive Impossible where
  | noReceive
deriving DecidableEq

def serverStep (s : UDPServer) : ServerEvent → Except Impossible UDPServer
  | .completion error area bytesTransferred =>
      if s.outstanding = 0 then .error .noReceive
      else .ok (UDPServer.receiveHandler error area bytesTransferred
        { s with outstanding := s.outstanding - 1 })
  | .terminate => .ok s.terminate

/-- A datagram arrives: as much of it as the buffer holds is put there. -/
def arrival (datagram : Bytes) : ServerEvent :=
  .completion none (datagram.take bufferSize) (min datagram.length bufferSize)

end Playspace.Citbrains.Udpsocket
