import Playspace.Lib.Channel
import Playspace.Lib.Machine
import Playspace.Lib.Wire

/-!
# The camera link

A sender puts pictures, serialized, into a message queue between two processes,
and the receiver shows what arrives. It has one buffer for all messages, as long
as the longest there can be, and parses the whole of it each time: behind a
message stands what earlier ones have left. Whether a name is UTF-8 is for the
library to say, `verifyUTF8` here.
-/

namespace Playspace.Webotsvision

open Playspace.Lib
open Playspace.Lib.Wire

/-! ## The message -/

structure CameraMeasurement where
  name : Bytes
  width : UInt32
  height : UInt32
  quality : Int32
  image : Bytes
  simtime : Int64
deriving DecidableEq

namespace CameraMeasurement

/-- A message after `Clear`. -/
def cleared : CameraMeasurement :=
  { name := [], width := 0, height := 0, quality := 0, image := [], simtime := 0 }

/-- The fields that `_InternalSerialize` writes. -/
def fields (m : CameraMeasurement) : List Field :=
  (if m.name ≠ [] then [⟨1, .len m.name⟩] else []) ++
  (if m.width ≠ 0 then [⟨2, .varint m.width.toNat⟩] else []) ++
  (if m.height ≠ 0 then [⟨3, .varint m.height.toNat⟩] else []) ++
  (if m.quality ≠ 0 then [⟨4, .varint (zigzag m.quality.toInt)⟩] else []) ++
  (if m.image ≠ [] then [⟨5, .len m.image⟩] else []) ++
  (if m.simtime ≠ 0 then [⟨6, .varint m.simtime.toUInt64.toNat⟩] else [])

def serializeAsString (m : CameraMeasurement) : Bytes := putFields m.fields

/-- One round of `_InternalParse`. A field of another number or type is unknown
and is stepped over. -/
def mergeField (verifyUTF8 : Bytes → Bool) (m : CameraMeasurement) (f : Field) :
    CameraMeasurement × Bool :=
  match f.num, f.payload with
  | 1, .len bytes => ({ m with name := bytes }, verifyUTF8 bytes)
  | 2, .varint n => ({ m with width := UInt32.ofNat n }, true)
  | 3, .varint n => ({ m with height := UInt32.ofNat n }, true)
  | 4, .varint n => ({ m with quality := Int32.ofInt (unzigzag (n % 2 ^ 32)) }, true)
  | 5, .len bytes => ({ m with image := bytes }, true)
  | 6, .varint n => ({ m with simtime := (UInt64.ofNat n).toInt64 }, true)
  | _, _ => (m, true)

/-- `ParseFromString` on a message, whatever it was before. -/
def parseFromString (verifyUTF8 : Bytes → Bool) (bytes : Bytes) : CameraMeasurement × Bool :=
  parseMessage (mergeField verifyUTF8) cleared bytes

end CameraMeasurement

/-! ## The two programs -/

def maxLenMessage : Nat := 800 * 480

/-- The number of messages that the queue holds. -/
def maxNumMsg : Nat := 5

/-- `output` is what the receiver prints, the size of a message and the height. -/
structure Link where
  msgq : Channel Bytes
  receivedData : Bytes
  output : List (Nat × Int32)

def Link.new : Link where
  msgq := .new
  receivedData := List.replicate maxLenMessage 0
  output := []

inductive LinkEvent where
  | send (picture : CameraMeasurement)
  | receive

/-- A `size_error` ends the sender. A call that blocks does not happen. -/
inductive LinkFault where
  | sizeError
  | blocked
deriving DecidableEq

/-- All messages have one priority, so the oldest is received. -/
def linkStep (verifyUTF8 : Bytes → Bool) (s : Link) : LinkEvent → Except LinkFault Link
  | .send picture =>
      let sendData := picture.serializeAsString
      if maxLenMessage < sendData.length then .error .sizeError
      else if maxNumMsg ≤ s.msgq.inFlight.length then .error .blocked
      else .ok { s with msgq := s.msgq.send false [sendData] }
  | .receive =>
      match s.msgq.receive with
      | none => .error .blocked
      | some (msg, msgq) =>
          let receivedData := msg ++ s.receivedData.drop msg.length
          let recvPic := (CameraMeasurement.parseFromString verifyUTF8 receivedData).1
          .ok { msgq := msgq, receivedData := receivedData,
                output := s.output ++ [(msg.length, recvPic.height.toInt32)] }

/-- The picture of `main` in the sender. -/
def CameraMeasurement.sample : CameraMeasurement :=
  { CameraMeasurement.cleared with
    image := List.replicate (640 * 480) 48, simtime := 765765, width := 640, height := 480 }

end Playspace.Webotsvision
