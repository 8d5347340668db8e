import Playspace.Proofs.EncoderTermination
import Playspace.Proofs.EndToEnd
import Playspace.Proofs.ReceiveLoop

/-!
# Whether a message fits the receive buffer

The server reads 1024 bytes of a datagram and `sendCommonInfo` never looks at
how many it sends. `messageSize` is that number as a sum over the arguments:
22 bytes of one-byte fields, the two texts, the poses of the four lists and the
two positions, which are both the ball's. `message_fits_iff` makes the sum the
exact condition under which the receiver gets the message, and
`message_fits_of_limits` says that arguments within the maxima of `infoshare.h`
are far from the limit. Nothing in the program reads those maxima.
-/

namespace Playspace.Citbrains

open Playspace.Lib.Wire
open CitbrainsMessage (SharingData wire bytesField posesField)
open Udpsocket (serverStep arrival bufferSize)

/-- A coordinate on the wire: the tag and the zig-zag varint. -/
def coordinateSize (n : Int) : Nat := 1 + varintSize (zigzag n)

/-- The pose itself, without the tag and the length before it. -/
def poseSize (fc : FloatCast) (p : Pos2D ℚ) : Nat :=
  coordinateSize (fc.toInt32 (scaleXY * p.x)) +
    coordinateSize (fc.toInt32 (scaleXY * p.y)) +
    coordinateSize (fc.toInt32 (scaleTheta * p.th))

/-- A position with its confidence, of at most one byte. -/
def positionSize (fc : FloatCast) (p : Pos2DCf) : Nat :=
  2 + poseSize fc p.pos +
    (2 + (InfoShare.cString [InfoShare.clampCf (fc.toUint8 p.cf)]).length) + 2

/-- A text that was encoded to `n` codes. -/
def textSize (n : Nat) : Nat := 1 + varintSize n + n

/-- The size of the message for arguments whose texts have these many codes. -/
def messageSize (fc : FloatCast) (info : InfoShare.CommonInfo)
    (command behaviorName : Nat) : Nat :=
  22 + textSize command + textSize behaviorName +
    ((info.ourRobotGl ++ info.enemyRobotGl ++ info.blackPoleGl ++
      info.targetPosVec).map fun p => 2 + poseSize fc p).sum +
    2 * (3 + positionSize fc info.ballGlCf)

section sizes

variable (fc : FloatCast)

theorem coordinateSize_le (q : ℚ) : coordinateSize (fc.toInt32 q) ≤ 6 := by
  have hfits := fc.toInt32_fits q
  have hsize := varintSize_le_five (zigzag_lt hfits.1 hfits.2)
  unfold coordinateSize
  omega

theorem poseSize_le (p : Pos2D ℚ) : poseSize fc p ≤ 18 := by
  have hx := coordinateSize_le fc (scaleXY * p.x)
  have hy := coordinateSize_le fc (scaleXY * p.y)
  have hth := coordinateSize_le fc (scaleTheta * p.th)
  unfold poseSize
  omega

theorem length_cString_singleton (c : UInt8) : (InfoShare.cString [c]).length ≤ 1 :=
  (List.takeWhile_prefix _).length_le

theorem positionSize_le (p : Pos2DCf) : positionSize fc p ≤ 25 := by
  have hpose := poseSize_le fc p.pos
  have hcf := length_cString_singleton (InfoShare.clampCf (fc.toUint8 p.cf))
  unfold positionSize
  omega

theorem length_sint32Field {num : Nat} (h : num * 8 < 128) (n : Int) :
    (putFields (CitbrainsMessage.sint32Field num (some n))).length = coordinateSize n := by
  show (putFields [⟨num, .varint (zigzag n)⟩]).length = coordinateSize n
  rw [putFields_singleton, length_put_varint, varintSize_one h]
  rfl

theorem length_put_pose (p : Pos2D ℚ) :
    (InfoShare.pos2Dsetter fc p).put.length = poseSize fc p := by
  unfold CitbrainsMessage.Pos2D.put CitbrainsMessage.Pos2D.fields
  rw [putFields_append, putFields_append, List.length_append, List.length_append]
  rw [InfoShare.pos2Dsetter, length_sint32Field (by omega), length_sint32Field (by omega),
    length_sint32Field (by omega)]
  rfl

/-- A field of bytes with a tag of one byte. -/
theorem length_bytesField {num : Nat} (h : num * 8 + 2 < 128) (b : Bytes) :
    (putFields (bytesField num (some b))).length = textSize b.length := by
  show (putFields [⟨num, .len b⟩]).length = textSize b.length
  rw [putFields_singleton, length_put_len, varintSize_one h, textSize]
  omega

theorem textSize_one : textSize 1 = 3 := by
  rw [textSize, varintSize_one (by omega)]

theorem length_put_position (p : Pos2DCf) :
    (InfoShare.pos2DCfsetter fc p).put.length = positionSize fc p := by
  have hpose : (CitbrainsMessage.positionField 1
      (some (InfoShare.pos2Dsetter fc p.pos))) =
        [⟨1, .len (InfoShare.pos2Dsetter fc p.pos).put⟩] := rfl
  have hle := poseSize_le fc p.pos
  have hcf := length_cString_singleton (InfoShare.clampCf (fc.toUint8 p.cf))
  have hdetect : (putFields (CitbrainsMessage.boolField 3 (some p.isDetect))).length =
      2 := by
    show (putFields [⟨3, .varint p.isDetect.toNat⟩]).length = 2
    rw [putFields_singleton, length_put_varint, varintSize_one (by omega),
      varintSize_one (by cases p.isDetect <;> decide)]
  unfold CitbrainsMessage.Pos2DCf.put CitbrainsMessage.Pos2DCf.fields
  rw [putFields_append, putFields_append, List.length_append, List.length_append]
  show (putFields (CitbrainsMessage.positionField 1
      (some (InfoShare.pos2Dsetter fc p.pos)))).length +
    (putFields (bytesField 2
      (some (InfoShare.cString [InfoShare.clampCf (fc.toUint8 p.cf)])))).length +
    (putFields (CitbrainsMessage.boolField 3 (some p.isDetect))).length = _
  rw [hpose, putFields_singleton, length_put_len, length_put_pose,
    length_bytesField (by omega), hdetect, varintSize_one (by omega),
    varintSize_one (by omega), textSize, varintSize_one (by omega), positionSize]
  omega

theorem length_posesField {num : Nat} (h : num * 8 + 2 < 128) (poses : List (Pos2D ℚ)) :
    (putFields (posesField num (poses.map (InfoShare.pos2Dsetter fc)))).length =
      (poses.map fun p => 2 + poseSize fc p).sum := by
  induction poses with
  | nil => rfl
  | cons p poses ih =>
      have hle := poseSize_le fc p
      have hcons : posesField num ((p :: poses).map (InfoShare.pos2Dsetter fc)) =
          [⟨num, .len (InfoShare.pos2Dsetter fc p).put⟩] ++
            posesField num (poses.map (InfoShare.pos2Dsetter fc)) := rfl
      rw [hcons, putFields_append, List.length_append, ih, putFields_singleton,
        length_put_len, length_put_pose, varintSize_one h, varintSize_one (by omega),
        List.map_cons, List.sum_cons]
      omega

theorem length_pos2DCfField {num : Nat} (h0 : 128 ≤ num * 8 + 2)
    (h1 : num * 8 + 2 < 128 ^ 2) (p : Pos2DCf) :
    (putFields (CitbrainsMessage.pos2DCfField num
      (some (InfoShare.pos2DCfsetter fc p)))).length = 3 + positionSize fc p := by
  have hle := positionSize_le fc p
  show (putFields [⟨num, .len (InfoShare.pos2DCfsetter fc p).put⟩]).length = _
  rw [putFields_singleton, length_put_len, length_put_position, varintSize_two h0 h1,
    varintSize_one (by omega)]
  omega

end sizes

namespace InfoShare

variable {fc : FloatCast} {s : InfoShare} {info : CommonInfo}

/-- The sum is the number of bytes that are sent. -/
theorem length_serialize_sharingData (fc : FloatCast) (s : InfoShare) (info : CommonInfo)
    (command behaviorName : Bytes) :
    (wire.serializeAsString (s.sharingData fc info command behaviorName)).length =
      messageSize fc info command.length behaviorName.length := by
  have hbyte {num : Nat} (h : num * 8 + 2 < 128) (n : Int) :
      (putFields (bytesField num (some [intToChar n]))).length = 3 :=
    (length_bytesField h _).trans textSize_one
  have hteam : (putFields (bytesField 19
      (some [intToChar (CitbrainsMessage.colorOffset + s.ourColor)]))).length = 4 := by
    show (putFields [⟨19, .len [intToChar _]⟩]).length = 4
    rw [putFields_singleton, length_put_len, varintSize_two (by omega) (by omega),
      List.length_singleton, varintSize_one (by omega)]
  show (putFields (s.sharingData fc info command behaviorName).fields).length = _
  unfold SharingData.fields sharingData
  simp only [putFields_append, List.length_append]
  rw [hteam, hbyte (by omega), hbyte (by omega), hbyte (by omega), hbyte (by omega),
    hbyte (by omega), hbyte (by omega), length_bytesField (by omega),
    length_bytesField (by omega), length_posesField fc (by omega),
    length_posesField fc (by omega), length_posesField fc (by omega),
    length_posesField fc (by omega), length_pos2DCfField fc (by omega) (by omega),
    length_pos2DCfField fc (by omega) (by omega)]
  unfold messageSize
  simp only [List.map_append, List.sum_append]
  omega

/-- The datagram fits the buffer, the server hands it on whole, and it is read
as the message that was packed. -/
structure ReceivedWhole (d : Datagram) (m : SharingData) : Prop where
  length : d.bytes.length ≤ bufferSize
  handed : ∀ server : Udpsocket.UDPServer, 0 < server.outstanding →
    ∃ server', serverStep server (arrival d.bytes) = .ok server' ∧
      server'.received = server.received ++ [d.bytes]
  parsed : wire.parseFromString d.bytes = (true, m)

/-- A packed message is received whole exactly when the sum is at most 1024. -/
theorem receivedWhole_iff {d : Datagram} {command behaviorName : Bytes}
    (hbytes : d.bytes =
      wire.serializeAsString (s.sharingData fc info command behaviorName)) :
    ReceivedWhole d (s.sharingData fc info command behaviorName) ↔
      messageSize fc info command.length behaviorName.length ≤ bufferSize := by
  have hlength := length_serialize_sharingData fc s info command behaviorName
  rw [← hbytes] at hlength
  rw [← hlength]
  refine ⟨ReceivedWhole.length, fun hfits => ⟨hfits, ?_, ?_⟩⟩
  · intro server hwaiting
    have hstep : serverStep server (arrival d.bytes) = .ok _ := if_neg (by omega)
    refine ⟨_, hstep, ?_⟩
    rw [Udpsocket.received_arrival hstep, List.take_of_length_le hfits]
  · have hsmall : d.bytes.length < 2 ^ 31 :=
      Nat.lt_of_le_of_lt hfits (by unfold bufferSize; omega)
    rw [hbytes] at hsmall ⊢
    exact wire.parse_serialize _
      (sharingData_wellFormed fc s info command behaviorName) hsmall

/-- What `sendCommonInfo` sends is received whole exactly when the size of its
arguments is at most 1024. -/
theorem message_fits_iff {ds : List Datagram}
    (hsend : s.sendCommonInfo wire fc info = .ok ds) {d : Datagram} (hd : d ∈ ds) :
    ∃ command behaviorName,
      s.dictionary.commandToNumSequence info.message = some command ∧
      s.dictionary.behaviorNameToNumSequence info.behaviorName = some behaviorName ∧
      (ReceivedWhole d (s.sharingData fc info command behaviorName) ↔
        messageSize fc info command.length behaviorName.length ≤ bufferSize) := by
  obtain ⟨command, behaviorName, hcommand, hname, -, hbytes⟩ := sendCommonInfo_cases hsend
  exact ⟨command, behaviorName, hcommand, hname, receivedWhole_iff (hbytes d hd)⟩

/-! ## The declared maxima -/

def maxString : Nat := 42
def maxBehaviorString : Nat := 32
def maxBlackPoles : Nat := 6
def maxTargetPos : Nat := 1
def maxMagentaObjects : Nat := 3
def maxCyanObjects : Nat := maxMagentaObjects

/-- Arguments within the maxima that `infoshare.h` declares for them. -/
structure WithinLimits (info : CommonInfo) : Prop where
  ourRobotGl : info.ourRobotGl.length ≤ maxMagentaObjects
  enemyRobotGl : info.enemyRobotGl.length ≤ maxCyanObjects
  blackPoleGl : info.blackPoleGl.length ≤ maxBlackPoles
  targetPosVec : info.targetPosVec.length ≤ maxTargetPos
  message : info.message.length ≤ maxString
  behaviorName : info.behaviorName.length ≤ maxBehaviorString

/-- Each pose takes at most 20 bytes and each short text its codes and two. -/
theorem messageSize_le (fc : FloatCast) (info : CommonInfo) {command behaviorName : Nat}
    (hcommand : command < 128) (hname : behaviorName < 128) :
    messageSize fc info command behaviorName ≤ 82 + command + behaviorName +
      20 * (info.ourRobotGl.length + info.enemyRobotGl.length +
        info.blackPoleGl.length + info.targetPosVec.length) := by
  have hpose : ∀ n ∈ (info.ourRobotGl ++ info.enemyRobotGl ++ info.blackPoleGl ++
      info.targetPosVec).map fun p => 2 + poseSize fc p, n ≤ 20 := by
    intro n hn
    obtain ⟨p, -, rfl⟩ := List.mem_map.mp hn
    have hle := poseSize_le fc p
    omega
  have hposes := List.sum_le_card_nsmul _ 20 hpose
  have hposition := positionSize_le fc info.ballGlCf
  simp only [List.length_map, List.length_append, smul_eq_mul] at hposes
  unfold messageSize textSize
  rw [varintSize_one hcommand, varintSize_one hname]
  omega

/-- Within the declared maxima every message is received whole. -/
theorem message_fits_of_limits {ds : List Datagram}
    (hsend : s.sendCommonInfo wire fc info = .ok ds) (hlimits : WithinLimits info)
    {d : Datagram} (hd : d ∈ ds) :
    ∃ command behaviorName,
      ReceivedWhole d (s.sharingData fc info command behaviorName) := by
  obtain ⟨command, behaviorName, hcommand, hname, -, hbytes⟩ := sendCommonInfo_cases hsend
  have hc := length_serializeTextImpl_le hcommand
  have hb := length_serializeTextImpl_le hname
  obtain ⟨hour, henemy, hblack, htarget, hmessage, hbehavior⟩ := hlimits
  unfold maxMagentaObjects at hour
  unfold maxCyanObjects maxMagentaObjects at henemy
  unfold maxBlackPoles at hblack
  unfold maxTargetPos at htarget
  unfold maxString at hmessage
  unfold maxBehaviorString at hbehavior
  have hsize := @messageSize_le fc info command.length behaviorName.length
    (by omega) (by omega)
  exact ⟨command, behaviorName,
    (receivedWhole_iff (hbytes d hd)).mpr (by unfold bufferSize; omega)⟩

/-- The example robot among a lot of poles. -/
def sampleCrowd : CommonInfo := { sampleInfo with blackPoleGl := List.replicate 130 {} }

/-- What is handed on of the crowd is no message. -/
theorem message_cut_crowd :
    ∃ d, (sampleRobot 2 colorMagenta).sendCommonInfo wire .wrapping sampleCrowd =
        .ok [d] ∧
      bufferSize < d.bytes.length ∧
      (wire.parseFromString (d.bytes.take bufferSize)).1 = false :=
  ⟨_, sampleRobot_sendCommonInfo 2 rfl rfl, by decide +kernel, by decide +kernel⟩

/-- The example robot in the middle of a game. -/
def sampleGame : CommonInfo :=
  { sampleInfo with
    ourRobotGl := [⟨-450, 0, 0⟩, ⟨150, -20, 157 / 100⟩]
    enemyRobotGl := [⟨300, 100, -3⟩]
    blackPoleGl := [⟨0, 200, 0⟩, ⟨12, -200, 1⟩]
    targetPosVec := [⟨320, 60, 1 / 2⟩] }

theorem message_fits_game :
    ∃ command behaviorName, ReceivedWhole (sampleDatagram 2 sampleGame)
      ((sampleRobot 2 colorMagenta).sharingData .wrapping sampleGame command
        behaviorName) := by
  have hsend : (sampleRobot 2 colorMagenta).sendCommonInfo wire .wrapping sampleGame =
      .ok [sampleDatagram 2 sampleGame] := sampleRobot_sendCommonInfo 2 rfl rfl
  obtain ⟨command, behaviorName, hcommand, hname, hiff⟩ :=
    message_fits_iff hsend (List.mem_singleton_self _)
  have hc := length_serializeTextImpl_le hcommand
  have hb := length_serializeTextImpl_le hname
  have hmessage : sampleGame.message.length = 8 := rfl
  have hbehavior : sampleGame.behaviorName.length = 5 := rfl
  have hsize := @messageSize_le .wrapping sampleGame command.length behaviorName.length
    (by omega) (by omega)
  have hposes : sampleGame.ourRobotGl.length + sampleGame.enemyRobotGl.length +
      sampleGame.blackPoleGl.length + sampleGame.targetPosVec.length = 6 := rfl
  exact ⟨command, behaviorName, hiff.mpr (by unfold bufferSize; omega)⟩

end InfoShare

end Playspace.Citbrains
