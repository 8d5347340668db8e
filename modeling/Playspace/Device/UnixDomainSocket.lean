import Playspace.Citbrains.Cpp
import Playspace.Lib.StreamSocket

/-!
# The upper-case filter behind a pair of sockets

`main` asks for a line, writes all of it to its socket, reads as many bytes back
and shows them. In another thread `uppercase_filter` reads what there is, at
most its buffer full, turns it to upper case, writes all of that and reads
again. Both composed writes and the composed read go through the kernel piece by
piece, so a step here is one piece, and the argument of the acts is what the
kernel makes of it. The two directions of the pair are the kernel's, and
parameters here.
-/

namespace Playspace.UnixDomainSocket

open Playspace.Citbrains (Bytes)
open Playspace.Lib (StreamSocket)

/-- The size of `data_`. -/
def dataSize : Nat := 512

/-- `std::toupper` of the C locale, which leaves the negative values of `char`
as they are. -/
def toupper (c : UInt8) : UInt8 := if 97 ≤ c ∧ c ≤ 122 then c - 32 else c

/-- Where `main` is in its loop: before `getline`, in `write` with what is left
to write, in `read` with what it has of the reply, or past taking the address of
the first byte of an empty reply. -/
inductive Client where
  | prompt
  | writing (request rest : Bytes)
  | reading (request reply : Bytes)
  | undefined
deriving DecidableEq

/-- The operation of the filter that is outstanding, `async_read_some` or
`async_write` with what is left to write. -/
inductive Filter where
  | reading
  | writing (rest : Bytes)
deriving DecidableEq

structure Session (requestSocket replySocket : StreamSocket UInt8) where
  client : Client
  filter : Filter
  requests : requestSocket.State
  replies : replySocket.State
  /-- The replies that were shown, oldest first. -/
  shown : List Bytes

inductive Act where
  | enter (request : Bytes)
  | clientWrite (choice : Nat)
  | clientRead (choice : Nat)
  | filterRead (choice : Nat)
  | filterWrite (choice : Nat)

/-- The act cannot happen in this state. -/
inductive Blocked where
  | blocked
deriving DecidableEq

variable {requestSocket replySocket : StreamSocket UInt8}

def Session.start (requestSocket replySocket : StreamSocket UInt8) :
    Session requestSocket replySocket where
  client := .prompt
  filter := .reading
  requests := requestSocket.empty
  replies := replySocket.empty
  shown := []

/-- An empty line is written and read back at once, and then shown from the
address of a byte that is not there. -/
def step (s : Session requestSocket replySocket) :
    Act → Except Blocked (Session requestSocket replySocket)
  | .enter request =>
      match s.client with
      | .prompt =>
          .ok { s with
            client := if request = [] then .undefined else .writing request request }
      | _ => .error .blocked
  | .clientWrite choice =>
      match s.client with
      | .writing request rest =>
          match requestSocket.write s.requests rest choice with
          | some (n, requests) =>
              let rest := rest.drop n
              .ok { s with
                requests
                client := if rest = [] then .reading request [] else .writing request rest }
          | none => .error .blocked
      | _ => .error .blocked
  | .clientRead choice =>
      match s.client with
      | .reading request reply =>
          match replySocket.read s.replies (request.length - reply.length) choice with
          | some (got, replies) =>
              let reply := reply ++ got
              if reply.length = request.length then
                .ok { s with replies, client := .prompt, shown := s.shown ++ [reply] }
              else .ok { s with replies, client := .reading request reply }
          | none => .error .blocked
      | _ => .error .blocked
  | .filterRead choice =>
      match s.filter with
      | .reading =>
          match requestSocket.read s.requests dataSize choice with
          | some (data, requests) =>
              .ok { s with requests, filter := .writing (data.map toupper) }
          | none => .error .blocked
      | .writing _ => .error .blocked
  | .filterWrite choice =>
      match s.filter with
      | .writing rest =>
          match replySocket.write s.replies rest choice with
          | some (n, replies) =>
              let rest := rest.drop n
              .ok { s with
                replies
                filter := if rest = [] then .reading else .writing rest }
          | none => .error .blocked
      | .reading => .error .blocked

/-- Everything but the user. -/
def Act.Internal : Act → Prop
  | .enter _ => False
  | _ => True

end Playspace.UnixDomainSocket
