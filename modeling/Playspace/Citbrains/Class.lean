import Playspace.Citbrains.Robot

/-!
# The `InfoShare` class

One object is a robot's end of the exchange: `setup` fills the list of
teammates and opens the two sockets, `sendCommonInfo` packs the robot's own
data into a datagram, `receivedDataHandler` runs on every datagram that comes
in, and the getters read what was stored.

Nothing in the class checks its pointers or its list index, so every access of
the class that C++ leaves undefined when it goes wrong is a `Stop` here. An
exception that the code catches is an ordinary return.
-/

namespace Playspace.Citbrains

open CitbrainsMessage (SharingData)

def numPlayers : Int := 4
def commInfoPort0 : Int := 7110
def broadcastPort : Int := 7120

/-! `Col_def_T`, `SocketMode` and the two states of `hajime_command.h`. -/

def colorMagenta : Int := 4
def colorCyan : Int := 5

def broadcastMode : Int := 0
def multicastMode : Int := broadcastMode + 1
def unicastMode : Int := multicastMode + 1

def stateIdle : Int := 0
def statePostureStand : Int := 0

/-- A call that does not come back: a null pointer is dereferenced, the list
is indexed out of its range, or the encoder never leaves its loop. -/
inductive Stop where
  | nullServer
  | nullClient
  | outOfRange (index : Int)
  | diverges
deriving DecidableEq

/-- The sending socket as far as `InfoShare` uses it. -/
structure UDPClient where
  ipAddress : Bytes
  port : Int
  terminated : Bool := false
deriving DecidableEq

/-- The receiving socket as far as `InfoShare` uses it, one that took its options:
otherwise its constructor leaves it without the thread that `terminate` joins. -/
structure UDPServer where
  port : Int
  terminated : Bool := false
deriving DecidableEq

/-- `udp::endpoint` takes a port as an `unsigned short`. -/
def endpointPort (port : Int) : Int := port % 2 ^ 16

/-- What `UDPClient::send` hands to the network. -/
structure Datagram where
  ipAddress : Bytes
  port : Int
  bytes : Bytes
deriving DecidableEq

structure InfoShare where
  selfId : Int
  ourColor : Int
  terminated : Bool
  socketMode : Int
  robotDataList : List OtherRobotInfomation
  server : Option UDPServer
  client : Option UDPClient
  dictionary : SerializeStringByDict

namespace InfoShare

/-- The constructor: only the dictionary does any work. -/
def new (commandFile behaviorFile : Bytes) : Option InfoShare := do
  let dictionary ← SerializeStringByDict.new commandFile behaviorFile
  some {
    selfId := 1
    ourColor := colorMagenta
    terminated := false
    socketMode := 0
    robotDataList := []
    server := none
    client := none
    dictionary }

/-- `server_->terminate()` and `client_->terminate()`, pointers unchecked. The
destructor is the same call. -/
def terminate (s : InfoShare) : Except Stop InfoShare :=
  match s.server, s.client with
  | none, _ => .error .nullServer
  | some _, none => .error .nullClient
  | some server, some client =>
      .ok { s with
        terminated := true
        server := some { server with terminated := true }
        client := some { client with terminated := true } }

def changeColor (color : Int) (s : InfoShare) : InfoShare :=
  if color ≠ colorCyan ∧ color ≠ colorMagenta then s else { s with ourColor := color }

/-! ## Setting up -/

structure SetupArgs where
  modeSelect : Int
  selfId : Int
  ourColor : Int
  ipAddress : Bytes

/-- How far the body of `setup` gets: to its end, or to an exception thrown
while entry `i` is made or by one of the two socket constructors. -/
inductive SetupEnd where
  | robotData (i : Nat)
  | client
  | server
  | completed
deriving DecidableEq

/-- The two assertions of `setup`, as written. -/
def setupAsserts (args : SetupArgs) : Prop :=
  (numPlayers ≥ args.selfId ∨ args.selfId ≥ 1) ∧
    (args.ourColor = colorMagenta ∨ args.ourColor = colorCyan)

/-- The assertion both socket constructors make about the mode. -/
def modeAssert (args : SetupArgs) : Prop :=
  broadcastMode ≤ args.modeSelect ∧ args.modeSelect ≤ unicastMode

instance (args : SetupArgs) : Decidable (setupAsserts args) :=
  inferInstanceAs (Decidable (_ ∧ _))

instance (args : SetupArgs) : Decidable (modeAssert args) :=
  inferInstanceAs (Decidable (_ ∧ _))

/-- `find_last_of(".")`, the text before it; `none` when there is no dot. -/
def beforeLastDot : Bytes → Option Bytes
  | [] => none
  | c :: rest =>
      match beforeLastDot rest with
      | some kept => some (c :: kept)
      | none => if c = 46 then some [] else none

def toBroadcastIP (ipAddress : Bytes) : Bytes :=
  match beforeLastDot ipAddress with
  | some kept => kept ++ ascii ".255"
  | none => ascii "255.255.255.255"

/-- The entries the loop of `setup` makes, entry `i` reading the clock at
`clock i`. -/
def newEntries (clock : Nat → ℚ) : List OtherRobotInfomation :=
  (List.range numPlayers.toNat).map fun i : Nat =>
    OtherRobotInfomation.new i (clock i)

/-- The sockets both branches of `setup` open, on one port and address. -/
def openClient (args : SetupArgs) : UDPClient :=
  if args.modeSelect = broadcastMode then
    { ipAddress := toBroadcastIP args.ipAddress, port := broadcastPort }
  else { ipAddress := args.ipAddress, port := commInfoPort0 + args.selfId - 1 }

@[inherit_doc openClient]
def openServer (args : SetupArgs) : UDPServer :=
  if args.modeSelect = broadcastMode then { port := broadcastPort }
  else { port := commInfoPort0 + args.selfId - 1 }

/-- `setup` on the process's `already_setup` flag and one object. `none` is an
assertion that fails and aborts the process. -/
def setup (args : SetupArgs) (stop : SetupEnd) (clock : Nat → ℚ)
    (alreadySetup : Bool) (s : InfoShare) : Option (Bool × InfoShare) :=
  if alreadySetup then some (alreadySetup, s)
  else if ¬ setupAsserts args then none
  else
    let named := { s with
      selfId := args.selfId
      ourColor := args.ourColor
      socketMode := args.modeSelect }
    let filled := { named with robotDataList := s.robotDataList ++ newEntries clock }
    match stop with
    | .robotData i =>
        some (true, { named with
          robotDataList := s.robotDataList ++ (newEntries clock).take i })
    | .client => if modeAssert args then some (true, filled) else none
    | .server =>
        if modeAssert args then
          some (true, { filled with client := some (openClient args) })
        else none
    | .completed =>
        if modeAssert args then
          some (true, { filled with
            client := some (openClient args)
            server := some (openServer args) })
        else none

/-! ## Sending -/

structure CommonInfo where
  ballGlCf : Pos2DCf
  selfPosCf : Pos2DCf
  ourRobotGl : List (Pos2D ℚ)
  enemyRobotGl : List (Pos2D ℚ)
  blackPoleGl : List (Pos2D ℚ)
  fps : Int
  message : Bytes
  behaviorName : Bytes
  targetPosVec : List (Pos2D ℚ)
  state : RobotStatus

/-- The lambda `Pos2Dsetter`. -/
def pos2Dsetter (fc : FloatCast) (input : Pos2D ℚ) : CitbrainsMessage.Pos2D where
  posX := some (fc.toInt32 (scaleXY * input.x))
  posY := some (fc.toInt32 (scaleXY * input.y))
  posTheta := some (fc.toInt32 (scaleTheta * input.th))

/-- `std::string{c}.c_str()`, read back as a C string. -/
def cString (s : Bytes) : Bytes := s.takeWhile (· ≠ 0)

/-- `std::clamp<uint8_t>(cf, 0, 100)`. -/
def clampCf (cf : UInt8) : UInt8 :=
  if cf < 0 then 0 else if 100 < cf then 100 else cf

/-- The lambda `Pos2DCfsetter`. -/
def pos2DCfsetter (fc : FloatCast) (input : Pos2DCf) : CitbrainsMessage.Pos2DCf where
  confidence := some (cString [clampCf (fc.toUint8 input.cf)])
  isDetect := some input.isDetect
  position := some {
    posX := some (fc.toInt32 (scaleXY * input.pos.x))
    posY := some (fc.toInt32 (scaleXY * input.pos.y))
    posTheta := some (fc.toInt32 (scaleTheta * input.pos.th)) }

def statusByte (state : RobotStatus) : Int :=
  (if state.posture ≠ statePostureStand then 1 else 0) +
    (if state.active = stateIdle then 2 else 0)

/-- The message `sendCommonInfo` builds once the two texts are encoded. Both
position messages are filled from `ball_gl_cf`. -/
def sharingData (fc : FloatCast) (s : InfoShare) (info : CommonInfo)
    (command behaviorName : Bytes) : SharingData where
  ballGlCf := some (pos2DCfsetter fc info.ballGlCf)
  selfPosCf := some (pos2DCfsetter fc info.ballGlCf)
  ourRobotGl := info.ourRobotGl.map (pos2Dsetter fc)
  enemyRobotGl := info.enemyRobotGl.map (pos2Dsetter fc)
  blackPoleGl := info.blackPoleGl.map (pos2Dsetter fc)
  targetPosVec := info.targetPosVec.map (pos2Dsetter fc)
  id := some [intToChar s.selfId]
  teamColor := some [intToChar (CitbrainsMessage.colorOffset + s.ourColor)]
  status := some [intToChar (statusByte info.state)]
  fps := some [intToChar info.fps]
  voltage := some [intToChar (info.state.motorVoltage >>> (3 : Nat))]
  temperature := some [intToChar info.state.temperature]
  highestServo := some [intToChar (info.state.servo1temp >>> (8 : Nat))]
  command := some command
  currentBehaviorName := some behaviorName

/-- The ports of the other robots, in the order of the unicast loop. -/
def unicastPorts (selfId : Int) : List Int :=
  ((List.range numPlayers.toNat).filter fun i : Nat => (i : Int) ≠ selfId - 1).map
    fun i : Nat => commInfoPort0 + i

/-- `client_` is dereferenced for every datagram, and the unicast loop always
has one to send. Whether `from_string` takes the address is not asked: where it
throws, the datagram is one that never leaves. -/
def sendCommonInfo (pb : Protobuf) (fc : FloatCast) (info : CommonInfo)
    (s : InfoShare) : Except Stop (List Datagram) :=
  match s.dictionary.commandToNumSequence info.message,
      s.dictionary.behaviorNameToNumSequence info.behaviorName with
  | some command, some behaviorName =>
      let bytes := pb.serializeAsString (s.sharingData fc info command behaviorName)
      match s.client with
      | none => .error .nullClient
      | some client =>
          if s.socketMode = unicastMode then
            .ok ((unicastPorts s.selfId).map fun port =>
              { ipAddress := ascii "127.0.0.1", port := endpointPort port, bytes })
          else .ok [{ ipAddress := client.ipAddress, port := endpointPort client.port, bytes }]
  | _, _ => .error .diverges

/-! ## Receiving -/

/-- `robot_data_list_[index]`. -/
def entryAt (s : InfoShare) (index : Int) : Option OtherRobotInfomation :=
  if 0 ≤ index then s.robotDataList[index.toNat]? else none

/-- The handler ignores what `ParseFromString` answers and goes on with the
message as far as it was read; `at(0)` of an empty string throws, and the
exception is caught. -/
def receivedDataHandler (pb : Protobuf) (now : ℚ) (data : Bytes) (s : InfoShare) :
    Except Stop InfoShare :=
  let sharedData := (pb.parseFromString data).2
  match sharedData.teamColor.getD [] with
  | [] => .ok s
  | color :: _ =>
      if charToInt color ≠ s.ourColor + CitbrainsMessage.colorOffset then .ok s
      else
        match sharedData.id.getD [] with
        | [] => .ok s
        | id :: _ =>
            if s.selfId = charToInt id then .ok s
            else
              let index := charToInt id - 1
              match s.entryAt index with
              | none => .error (.outOfRange index)
              | some e =>
                  let (e', dictionary) := e.store now sharedData s.dictionary
                  .ok { s with
                    robotDataList := s.robotDataList.set index.toNat e'
                    dictionary }

/-! ## The getters

All of them are one function: the zero of the field for the robot itself and
for an id out of range, the stored field otherwise. -/

def getter {β : Type} (zero : β) (read : OtherRobotInfomation → β) (s : InfoShare)
    (id : Int) : Except Stop β :=
  if id = s.selfId ∨ id < 1 ∨ numPlayers < id then .ok zero
  else
    match s.entryAt (id - 1) with
    | none => .error (.outOfRange (id - 1))
    | some e => .ok (read e)

/-- `atomic_uint32_t::load`, returned as an `int32_t`. -/
def flagsToInt32 (status : Nat) : Int := Int.bmod status (2 ^ 32)

def getstatus := getter 0 fun e => flagsToInt32 e.status
def getvoltage := getter 0 OtherRobotInfomation.voltage
def getfps := getter 0 OtherRobotInfomation.fps
def gettemperature := getter 0 OtherRobotInfomation.temperature
def gethighestServo := getter 0 OtherRobotInfomation.highestServo
def getcommand := getter [] OtherRobotInfomation.command
def getcurrentBehaviorName := getter [] OtherRobotInfomation.currentBehaviorName
def getrecvTime := getter 0 OtherRobotInfomation.recvTime
def getourRobotGl := getter [{}] OtherRobotInfomation.ourRobotGl
def getenemyRobotGl := getter [{}] OtherRobotInfomation.enemyRobotGl
def getblackPoleGl := getter [{}] OtherRobotInfomation.blackPoleGl
def gettargetPosVec := getter [{}] OtherRobotInfomation.targetPosVec
def getballGlCf := getter {} OtherRobotInfomation.ballGlCf
def getselfPosCf := getter {} OtherRobotInfomation.selfPosCf

end InfoShare

end Playspace.Citbrains
