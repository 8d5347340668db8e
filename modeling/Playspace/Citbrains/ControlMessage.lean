import Playspace.Citbrains.Cpp

/-!
# `hajime.proto`

The messages between the walk client and the robot's controller. A scalar
field of a generated class is an `Option`, set or not, whether the schema says
optional or required; `isInitialized` is where the two differ. The integers
have the width of the schema, since a command is to arrive with the numbers it
was given. A `float` is only passed on and never computed with, so it is its
thirty-two bits. The `timestamp` field is set and read by nobody and is left
out.
-/

namespace Playspace.Citbrains.ControlMessage

/-- A `float`, as the bits that represent it. -/
abbrev FloatBits := UInt32

inductive CommandNum where
  | walk
  | accurateWalk
  | cancel
  | pan
  | tilt
  | pantilt
  | motion
  | power
  | getstatus
  | getstatusquaternion
deriving DecidableEq

def CommandNum.number : CommandNum → UInt32
  | .walk => 0
  | .accurateWalk => 1
  | .cancel => 2
  | .pan => 3
  | .tilt => 4
  | .pantilt => 5
  | .motion => 6
  | .power => 7
  | .getstatus => 8
  | .getstatusquaternion => 9

structure Walk where
  num : Option Int32 := none
  angle : Option Int32 := none
  stridex : Option Int32 := none
  stridey : Option Int32 := none
  period : Option Int32 := none
deriving DecidableEq

structure AccurateWalk where
  steps : Option Int32 := none
  x : Option FloatBits := none
  y : Option FloatBits := none
  th : Option FloatBits := none
deriving DecidableEq

structure PanOrTilt where
  pan : Option Int32 := none
  tilt : Option Int32 := none
  time : Option Int32 := none
deriving DecidableEq

structure Motion where
  no : Option UInt32 := none
  repeats : Option UInt32 := none
  ignoresuspend : Option Bool := none
deriving DecidableEq

structure Power where
  on : Option Bool := none
deriving DecidableEq

structure WalkCommand where
  commandNum : Option UInt32 := none
  walkArgs : Option Walk := none
  panArgs : Option PanOrTilt := none
  tiltArgs : Option PanOrTilt := none
  motionArgs : Option Motion := none
  pantiltArgs : Option PanOrTilt := none
  powerArgs : Option Power := none
  accurateWalkArgs : Option AccurateWalk := none
deriving DecidableEq

structure RobotStatus where
  type : Option Int32 := none
  active : Option Int32 := none
  command : Option Int32 := none
  posture : Option Int32 := none
  temperature : Option Int32 := none
  servo1temp : Option Int32 := none
  motorVoltage : Option Int32 := none
  odometry : List Int32 := []
  gyroMotion : Option FloatBits := none
  servo : List Int32 := []
  servoRad : List FloatBits := []
  quaternion : List FloatBits := []
deriving DecidableEq

/-! ## The required fields -/

def Walk.isInitialized (m : Walk) : Bool :=
  m.num.isSome && m.angle.isSome && m.stridex.isSome && m.stridey.isSome &&
    m.period.isSome

def AccurateWalk.isInitialized (m : AccurateWalk) : Bool :=
  m.steps.isSome && m.x.isSome && m.y.isSome && m.th.isSome

def PanOrTilt.isInitialized (m : PanOrTilt) : Bool := m.time.isSome

def Motion.isInitialized (m : Motion) : Bool :=
  m.no.isSome && m.repeats.isSome && m.ignoresuspend.isSome

def Power.isInitialized (m : Power) : Bool := m.on.isSome

/-- The argument messages are optional; one that is there has to be complete. -/
def WalkCommand.isInitialized (m : WalkCommand) : Bool :=
  m.commandNum.isSome && m.walkArgs.all Walk.isInitialized &&
    m.panArgs.all PanOrTilt.isInitialized && m.tiltArgs.all PanOrTilt.isInitialized &&
    m.motionArgs.all Motion.isInitialized &&
    m.pantiltArgs.all PanOrTilt.isInitialized && m.powerArgs.all Power.isInitialized &&
    m.accurateWalkArgs.all AccurateWalk.isInitialized

/-- The generated classes as the programs on both ends see them. Serialising
emits the fields that are set, complete or not. Parsing answers whether the
bytes could be read and no required field is missing, and leaves in the object
what was read.

The law is the library's documented behaviour. Parsing a status is only ever
done on bytes that come from outside, so nothing is asked of it. -/
structure WalkProtobuf where
  serializeAsString : WalkCommand → Bytes
  parseFromString : Bytes → Bool × WalkCommand
  parseStatus : Bytes → Bool × RobotStatus
  parse_serialize : ∀ m : WalkCommand,
    parseFromString (serializeAsString m) = (m.isInitialized, m)

end Playspace.Citbrains.ControlMessage
