import Playspace.Citbrains.Message

/-!
# `info_com.py`

The monitor's reading of a datagram. Its `infoshare_pb2` is generated from a
copy of the same `infoshare.proto`, so it works on the same messages; a member
that is not set reads as its default, a submessage included. Python's `Pos2D`
has the three members of the C++ one.
-/

namespace Playspace.InfoCom

open Citbrains (Pos2D)
open Citbrains.CitbrainsMessage (SharingData)

/-- `Pos2D(float(p.pos_x), float(p.pos_y), float(p.pos_theta) / 100.0)`. -/
def toPos2D (p : Citbrains.CitbrainsMessage.Pos2D) : Pos2D ℚ where
  x := (p.posX.getD 0 : ℚ)
  y := (p.posY.getD 0 : ℚ)
  th := (p.posTheta.getD 0 : ℚ) / 100

/-- The own position, the ball and the target. `none` is the `IndexError` of
`target_pos_vec[0]`, which is read first. -/
def convertPos2D (infoProtobuf : SharingData) :
    Option (Pos2D ℚ × Pos2D ℚ × Pos2D ℚ) :=
  match infoProtobuf.targetPosVec with
  | [] => none
  | tmp :: _ =>
      let targetPos := toPos2D tmp
      let selfPos := toPos2D ((infoProtobuf.selfPosCf.getD {}).position.getD {})
      let ballGl := toPos2D ((infoProtobuf.ballGlCf.getD {}).position.getD {})
      some (selfPos, ballGl, targetPos)

end Playspace.InfoCom
