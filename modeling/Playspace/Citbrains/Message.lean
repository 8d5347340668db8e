import Playspace.Citbrains.Cpp

/-!
# The values that travel

`Pos2D` and `Pos2DCf` are the plain structs the robot works with, a `Pos2D` over
the rationals where it is transmitted and over the reals where it is turned; the
`CitbrainsMessage` types are the classes `protoc` generates from
`infoshare.proto`, an optional or required field being an `Option` and a
repeated one a list. A `Pos2DCf` also has a time stamp, which nothing here
reads or writes. The generated parser and serialiser are not part of the
repository, so they are a parameter: `Protobuf` is the pair of them with the
two facts the program relies on. The `timestamp` field is read by a debug
build only and is left out.
-/

namespace Playspace.Citbrains

structure Pos2D (R : Type) [Zero R] where
  x : R := 0
  y : R := 0
  th : R := 0
deriving DecidableEq

structure Pos2DCf where
  isDetect : Bool := false
  pos : Pos2D ℚ := {}
  cf : ℚ := 0
deriving DecidableEq

/-- The members of `RobotStatus` that are transmitted; the others are the
robot's own. -/
structure RobotStatus where
  active : Int
  posture : Int
  temperature : Int
  servo1temp : Int
  motorVoltage : Int

/-! ## `infoshare.proto` -/

namespace CitbrainsMessage

structure Pos2D where
  posX : Option Int := none
  posY : Option Int := none
  posTheta : Option Int := none
deriving DecidableEq

structure Pos2DCf where
  position : Option CitbrainsMessage.Pos2D := none
  confidence : Option Bytes := none
  isDetect : Option Bool := none
deriving DecidableEq

structure SharingData where
  id : Option Bytes := none
  teamColor : Option Bytes := none
  status : Option Bytes := none
  fps : Option Bytes := none
  voltage : Option Bytes := none
  temperature : Option Bytes := none
  highestServo : Option Bytes := none
  command : Option Bytes := none
  currentBehaviorName : Option Bytes := none
  ourRobotGl : List Pos2D := []
  enemyRobotGl : List Pos2D := []
  blackPoleGl : List Pos2D := []
  targetPosVec : List Pos2D := []
  ballGlCf : Option Pos2DCf := none
  selfPosCf : Option Pos2DCf := none
deriving DecidableEq

/-- `SharingData::COLOR_OFFSET`. -/
def colorOffset : Int := 1

/-- All required fields are set, in the message and everything below it, and
the integers are `int32_t`s. -/
structure Pos2D.WellFormed (p : Pos2D) : Prop where
  posX : ∃ n, p.posX = some n ∧ fitsInt32 n
  posY : ∃ n, p.posY = some n ∧ fitsInt32 n
  posTheta : ∃ n, p.posTheta = some n ∧ fitsInt32 n

@[inherit_doc Pos2D.WellFormed]
structure Pos2DCf.WellFormed (p : Pos2DCf) : Prop where
  position : ∃ q, p.position = some q ∧ q.WellFormed
  confidence : p.confidence.isSome

@[inherit_doc Pos2D.WellFormed]
structure SharingData.WellFormed (m : SharingData) : Prop where
  id : m.id.isSome
  teamColor : m.teamColor.isSome
  ourRobotGl : ∀ p ∈ m.ourRobotGl, p.WellFormed
  enemyRobotGl : ∀ p ∈ m.enemyRobotGl, p.WellFormed
  blackPoleGl : ∀ p ∈ m.blackPoleGl, p.WellFormed
  targetPosVec : ∀ p ∈ m.targetPosVec, p.WellFormed
  ballGlCf : ∀ p ∈ m.ballGlCf, p.WellFormed
  selfPosCf : ∀ p ∈ m.selfPosCf, p.WellFormed

end CitbrainsMessage

open CitbrainsMessage (SharingData)

/-- The generated class as the program sees it. `parseFromString` answers
whether the bytes are a complete message, together with the fields merged into
the object by then, so a failed parse leaves a partial message behind.

The laws are the library's documented behaviour: a complete message under its
size limit survives the trip, and what a cut-off message leaves in `id` is a
piece of the id that was sent. -/
structure Protobuf where
  parseFromString : Bytes → Bool × SharingData
  serializeAsString : SharingData → Bytes
  parse_serialize : ∀ m : SharingData, m.WellFormed →
    (serializeAsString m).length < 2 ^ 31 →
    parseFromString (serializeAsString m) = (true, m)
  parse_take : ∀ (m : SharingData) (n : Nat), m.WellFormed →
    (serializeAsString m).length < 2 ^ 31 →
    (parseFromString ((serializeAsString m).take n)).2.id.getD [] <+: m.id.getD []

end Playspace.Citbrains
