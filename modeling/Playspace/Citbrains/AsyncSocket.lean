import Playspace.Citbrains.UdpSocket

/-!
# `TCPServer`

The TCP server accepts one connection and receives on it. `startReceive`,
`receiveHandler` and `terminate` are those of the UDP server over again, down to
the branch in which an end of file is treated as data, so they are the same
definitions here, on a `loop` of the server's own. What is new is that the first
receive is started by `onAccept`, and that over TCP there is an end of file.
-/

namespace Playspace.Citbrains.Asyncsocket

open Udpsocket (ErrorCode bufferSize)

/-- `accepting` while the accept that the constructor started has not
completed. -/
structure TCPServer where
  accepting : Bool
  loop : Udpsocket.UDPServer
deriving DecidableEq

namespace TCPServer

def new : TCPServer where
  accepting := true
  loop := { terminated := false, outstanding := 0, started := 0, received := [] }

def startReceive (s : TCPServer) : TCPServer := { s with loop := s.loop.startReceive }

def onAccept (error : Option ErrorCode) (s : TCPServer) : TCPServer :=
  if error.isSome then s else s.startReceive

def receiveHandler (error : Option ErrorCode) (area : Bytes) (bytesTransferred : Nat)
    (s : TCPServer) : TCPServer :=
  { s with loop := s.loop.receiveHandler error area bytesTransferred }

def terminate (s : TCPServer) : TCPServer := { s with loop := s.loop.terminate }

end TCPServer

inductive ServerEvent where
  | accepted (error : Option ErrorCode)
  | completion (error : Option ErrorCode) (area : Bytes) (bytesTransferred : Nat)
  | terminate

/-- Nothing completes that was not started. -/
inductive Impossible where
  | noAccept
  | noReceive
deriving DecidableEq

def serverStep (s : TCPServer) : ServerEvent → Except Impossible TCPServer
  | .accepted error =>
      if s.accepting then .ok ({ s with accepting := false }.onAccept error)
      else .error .noAccept
  | .completion error area bytesTransferred =>
      if s.loop.outstanding = 0 then .error .noReceive
      else
        let taken := { s.loop with outstanding := s.loop.outstanding - 1 }
        .ok ({ s with loop := taken }.receiveHandler error area bytesTransferred)
  | .terminate => .ok s.terminate

/-! ## A connection -/

/-- What one receive gets of a stream. -/
structure Chunk where
  bytes : Bytes
  ne_nil : bytes ≠ []
  length_le : bytes.length ≤ bufferSize

def arrival (c : Chunk) : ServerEvent := .completion none c.bytes c.bytes.length

/-- The report of every receive once the peer has closed. -/
def endOfFile : ServerEvent := .completion (some .eof) [] 0

/-- A peer connects, sends a stream that arrives in these chunks and closes;
`reports` receives complete after that. -/
def connection (chunks : List Chunk) (reports : Nat) : List ServerEvent :=
  .accepted none :: chunks.map arrival ++ List.replicate reports endOfFile

/-- The stream that was sent. -/
def stream (chunks : List Chunk) : Bytes := (chunks.map Chunk.bytes).flatten

end Playspace.Citbrains.Asyncsocket
