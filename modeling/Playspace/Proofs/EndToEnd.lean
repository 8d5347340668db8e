import Playspace.Proofs.ReceiverRuns

/-!
# From `sendCommonInfo` to the teammate's getters

`Teammates.receive` joins the two ends: a datagram that arrives whole is parsed
into exactly the message that was packed, passes both filters, and is written
to the sender's entry. What the getters then show is a matter of reading
`sharingData` through `write`, field by field.

Three of those readings are not what was sent. A list that became empty is not
transmitted at all, so `poseLists_latest` can only promise the last non-empty
one; both position messages are packed from the ball
(`positions_faithful_iff`); and every telemetry byte is packed as an unsigned
and unpacked as a signed `char` (`telemetry_unsigned_iff`).
-/

namespace Playspace.Citbrains

open CitbrainsMessage (SharingData colorOffset wire)
open Playspace.Lib (latest)

/-! ## A pose on the way -/

/-- The scaled coordinates of the pose fit the `int32_t` they are cast to. -/
structure Pos2D.Fits (p : Pos2D ℚ) : Prop where
  x : fitsInt32 (truncZero (scaleXY * p.x))
  y : fitsInt32 (truncZero (scaleXY * p.y))
  th : fitsInt32 (truncZero (scaleTheta * p.th))

/-- Coordinates cut to integers, toward zero, and the angle to hundredths. -/
def Pos2D.truncated (p : Pos2D ℚ) : Pos2D ℚ where
  x := truncZero p.x
  y := truncZero p.y
  th := truncZero (100 * p.th) / 100

/-- A pose as it comes out at the other end. -/
def Pos2D.received (fc : FloatCast) (p : Pos2D ℚ) : Pos2D ℚ :=
  recvPos2D (InfoShare.pos2Dsetter fc p)

theorem Pos2D.Fits.received_eq {fc : FloatCast} {p : Pos2D ℚ} (h : p.Fits) :
    p.received fc = p.truncated := by
  simp only [Pos2D.received, recvPos2D, InfoShare.pos2Dsetter, Option.getD_some]
  rw [fc.toInt32_eq _ h.x, fc.toInt32_eq _ h.y, fc.toInt32_eq _ h.th]
  simp only [Pos2D.truncated, scaleXY, scaleTheta, one_mul, div_one]

namespace InfoShare

variable {pb : Protobuf} {fc : FloatCast}

theorem pos2Dsetter_wellFormed (p : Pos2D ℚ) : (pos2Dsetter fc p).WellFormed :=
  ⟨⟨_, rfl, fc.toInt32_fits _⟩, ⟨_, rfl, fc.toInt32_fits _⟩, ⟨_, rfl, fc.toInt32_fits _⟩⟩

theorem sharingData_wellFormed (fc : FloatCast) (s : InfoShare) (info : CommonInfo)
    (command behaviorName : Bytes) :
    (s.sharingData fc info command behaviorName).WellFormed := by
  have hlist (poses : List (Pos2D ℚ)) : ∀ p ∈ poses.map (pos2Dsetter fc), p.WellFormed := by
    intro p hp
    obtain ⟨q, -, rfl⟩ := List.mem_map.mp hp
    exact pos2Dsetter_wellFormed q
  have hposition (p : Pos2DCf) : (pos2DCfsetter fc p).WellFormed :=
    ⟨⟨_, rfl, pos2Dsetter_wellFormed p.pos⟩, rfl⟩
  constructor
  · rfl
  · rfl
  · exact hlist _
  · exact hlist _
  · exact hlist _
  · exact hlist _
  · intro p hp
    cases hp
    exact hposition _
  · intro p hp
    cases hp
    exact hposition _

/-- A call of `sendCommonInfo` that comes back has encoded both texts, and all
its datagrams hold the same message. -/
theorem sendCommonInfo_cases {s : InfoShare} {info : CommonInfo} {ds : List Datagram}
    (h : s.sendCommonInfo pb fc info = .ok ds) :
    ∃ command behaviorName,
      s.dictionary.commandToNumSequence info.message = some command ∧
      s.dictionary.behaviorNameToNumSequence info.behaviorName = some behaviorName ∧
      s.client.isSome ∧ ∀ d ∈ ds,
        d.bytes = pb.serializeAsString (s.sharingData fc info command behaviorName) := by
  unfold sendCommonInfo at h
  split at h
  · next command behaviorName hcommand hname =>
      simp only at h
      refine ⟨command, behaviorName, hcommand, hname, ?_⟩
      cases hclient : s.client with
      | none => rw [hclient] at h; cases h
      | some client =>
          rw [hclient] at h
          refine ⟨rfl, ?_⟩
          simp only at h
          split at h
          · cases h
            intro d hd
            obtain ⟨port, -, rfl⟩ := List.mem_map.mp hd
            rfl
          · cases h
            intro d hd
            obtain rfl := List.mem_singleton.mp hd
            rfl
  · cases h

/-- The call of `sendCommonInfo` puts `d` on the network, and `d` is small
enough to be serialised and received whole. -/
def Sends (pb : Protobuf) (fc : FloatCast) (s : InfoShare) (info : CommonInfo)
    (d : Datagram) : Prop :=
  ∃ ds, s.sendCommonInfo pb fc info = .ok ds ∧ d ∈ ds ∧ d.bytes.length < 2 ^ 31

/-- A robot and a receiver of the same colour that is another player. -/
structure Teammates (sender receiver : InfoShare) : Prop where
  id : 1 ≤ sender.selfId ∧ sender.selfId ≤ numPlayers
  other : sender.selfId ≠ receiver.selfId
  color : sender.ourColor = receiver.ourColor
  setUp : receiver.SetUp

theorem teamByte_sharingData (fc : FloatCast) {s : InfoShare}
    (hcolor : s.ourColor = colorMagenta ∨ s.ourColor = colorCyan) (info : CommonInfo)
    (command behaviorName : Bytes) :
    teamByte (s.sharingData fc info command behaviorName) =
      some (s.ourColor + colorOffset) := by
  have hsmall : charToInt (intToChar (colorOffset + s.ourColor)) =
      colorOffset + s.ourColor := by
    unfold colorMagenta colorCyan at hcolor
    unfold colorOffset
    apply charToInt_intToChar_of_small <;> omega
  rw [add_comm, ← hsmall]
  rfl

theorem idByte_sharingData (fc : FloatCast) {s : InfoShare}
    (hid : 0 ≤ s.selfId ∧ s.selfId < 128) (info : CommonInfo)
    (command behaviorName : Bytes) :
    idByte (s.sharingData fc info command behaviorName) = some s.selfId := by
  rw [← charToInt_intToChar_of_small hid.1 hid.2]
  rfl

theorem player_small {id : Int} (hid : 1 ≤ id ∧ id ≤ numPlayers) : 0 ≤ id ∧ id < 128 := by
  unfold numPlayers at hid
  omega

/-- A datagram that arrives whole is written to the sender's entry, as the
message that was packed. -/
theorem Teammates.receive {sender receiver : InfoShare} (h : Teammates sender receiver)
    {info : CommonInfo} {d : Datagram} (hsends : Sends pb fc sender info d)
    {dict : SerializeStringByDict} {e : OtherRobotInfomation}
    (htracks : Tracks dict sender.selfId receiver e) (now : ℚ) :
    ∃ command behaviorName receiver',
      receiver.receivedDataHandler pb now d.bytes = .ok receiver' ∧
      pb.parseFromString d.bytes =
        (true, sender.sharingData fc info command behaviorName) ∧
      Teammates sender receiver' ∧
      Tracks dict sender.selfId receiver'
        (e.write dict now (sender.sharingData fc info command behaviorName)) := by
  obtain ⟨ds, hsend, hd, hsize⟩ := hsends
  obtain ⟨command, behaviorName, -, -, -, hbytes⟩ := sendCommonInfo_cases hsend
  rw [hbytes d hd] at hsize ⊢
  have hparse := pb.parse_serialize _
    (sharingData_wellFormed fc sender info command behaviorName) hsize
  have hteam := teamByte_sharingData fc (h.color ▸ h.setUp.color) info command
    behaviorName
  have hid := idByte_sharingData fc (player_small h.id) info command behaviorName
  have hnames : (Event.datagram now (pb.serializeAsString
      (sender.sharingData fc info command behaviorName))).NamesRobot pb := by
    intro id hidByte
    rw [hparse, hid] at hidByte
    cases hidByte
    exact h.id
  obtain ⟨receiver', hcall, hcolor, htracks'⟩ := htracks.datagram now _ hnames
  rw [hparse, hteam, hid, h.color, if_pos ⟨rfl, rfl⟩] at htracks'
  exact ⟨command, behaviorName, receiver', hcall, hparse,
    ⟨h.id, htracks'.other, h.color.trans hcolor.symm, htracks'.setUp⟩, htracks'⟩

theorem Teammates.tracks {sender receiver : InfoShare} (h : Teammates sender receiver) :
    ∃ e, Tracks receiver.dictionary sender.selfId receiver e := by
  obtain ⟨e, he⟩ := h.setUp.entry_iff.mpr h.id
  exact ⟨e, h.setUp, .refl _, h.other, he⟩

/-! ## A pair of robots to run -/

def sampleInfo : CommonInfo where
  ballGlCf := {}
  selfPosCf := {}
  ourRobotGl := []
  enemyRobotGl := []
  blackPoleGl := []
  fps := 30
  message := ascii "FreeKick"
  behaviorName := ascii "Ready"
  targetPosVec := []
  state := {
    active := 1, posture := 0, temperature := 40, servo1temp := 0x2a00
    motorVoltage := 0x100 }

/-- What `sendCommonInfo` of the example robot sends. -/
def sampleDatagram (selfId : Int) (info : CommonInfo) : Datagram where
  ipAddress := ascii "192.168.4.255"
  port := broadcastPort
  bytes := wire.serializeAsString
    ((sampleRobot selfId colorMagenta).sharingData .wrapping info [1] [1])

theorem sampleRobot_sendCommonInfo (selfId : Int) {info : CommonInfo}
    (hmessage : info.message = ascii "FreeKick")
    (hname : info.behaviorName = ascii "Ready") :
    (sampleRobot selfId colorMagenta).sendCommonInfo wire .wrapping info =
      .ok [sampleDatagram selfId info] := by
  have hcommand : (sampleRobot selfId colorMagenta).dictionary.commandToNumSequence
      (ascii "FreeKick") = some [1] := by
    show freshRobot.dictionary.commandToNumSequence (ascii "FreeKick") = some [1]
    decide
  have hbehavior : (sampleRobot selfId colorMagenta).dictionary.behaviorNameToNumSequence
      (ascii "Ready") = some [1] := by
    show freshRobot.dictionary.behaviorNameToNumSequence (ascii "Ready") = some [1]
    decide
  rw [sendCommonInfo, hmessage, hname, hcommand, hbehavior]
  rfl

theorem sampleRobot_sends {info : CommonInfo} (hmessage : info.message = ascii "FreeKick")
    (hname : info.behaviorName = ascii "Ready")
    (hsize : (sampleDatagram 2 info).bytes.length < 2 ^ 31) :
    Sends wire .wrapping (sampleRobot 2 colorMagenta) info (sampleDatagram 2 info) :=
  ⟨_, sampleRobot_sendCommonInfo 2 hmessage hname, List.mem_singleton_self _, hsize⟩

theorem sampleRobot_teammates :
    Teammates (sampleRobot 2 colorMagenta) (sampleRobot 1 colorMagenta) :=
  ⟨by decide, by decide, rfl, sampleRobot_setUp 1 (Or.inl rfl)⟩

/-! ## The four lists of poses -/

/-- The repeated fields of the message. -/
inductive PoseList where
  | ourRobotGl
  | enemyRobotGl
  | blackPoleGl
  | targetPosVec

/-- The argument of `sendCommonInfo`. -/
def PoseList.sent : PoseList → CommonInfo → List (Pos2D ℚ)
  | .ourRobotGl => CommonInfo.ourRobotGl
  | .enemyRobotGl => CommonInfo.enemyRobotGl
  | .blackPoleGl => CommonInfo.blackPoleGl
  | .targetPosVec => CommonInfo.targetPosVec

/-- The member of the entry. -/
def PoseList.stored : PoseList → OtherRobotInfomation → List (Pos2D ℚ)
  | .ourRobotGl => OtherRobotInfomation.ourRobotGl
  | .enemyRobotGl => OtherRobotInfomation.enemyRobotGl
  | .blackPoleGl => OtherRobotInfomation.blackPoleGl
  | .targetPosVec => OtherRobotInfomation.targetPosVec

/-- The getter. -/
def PoseList.shown : PoseList → InfoShare → Int → Except Stop (List (Pos2D ℚ))
  | .ourRobotGl => getourRobotGl
  | .enemyRobotGl => getenemyRobotGl
  | .blackPoleGl => getblackPoleGl
  | .targetPosVec => gettargetPosVec

theorem Tracks.shown {d : SerializeStringByDict} {k : Int} {s : InfoShare}
    {e : OtherRobotInfomation} (h : Tracks d k s e) (field : PoseList) :
    field.shown s k = .ok (field.stored e) := by
  cases field with
  | ourRobotGl => exact h.getter _ _
  | enemyRobotGl => exact h.getter _ _
  | blackPoleGl => exact h.getter _ _
  | targetPosVec => exact h.getter _ _

/-- A list as it comes out at the other end; an empty one does not. -/
def receivedPoses (fc : FloatCast) (poses : List (Pos2D ℚ)) : Option (List (Pos2D ℚ)) :=
  if poses = [] then none else some (poses.map (Pos2D.received fc))

theorem carriedPos2D_setter (p : Pos2D ℚ) :
    carriedPos2D (pos2Dsetter fc p) = p.received fc :=
  (recvPos2D_eq _).symm

theorem carriedPoses_setter (poses : List (Pos2D ℚ)) :
    carriedPoses (poses.map (pos2Dsetter fc)) = receivedPoses fc poses := by
  unfold carriedPoses receivedPoses
  simp only [List.map_eq_nil_iff, List.map_map]
  congr 3
  funext p
  exact carriedPos2D_setter p

theorem PoseList.stored_write (field : PoseList) (dict : SerializeStringByDict)
    (e : OtherRobotInfomation) (now : ℚ) (s : InfoShare) (info : CommonInfo)
    (command behaviorName : Bytes) :
    field.stored (e.write dict now (s.sharingData fc info command behaviorName)) =
      (receivedPoses fc (field.sent info)).getD (field.stored e) := by
  rw [← carriedPoses_setter]
  cases field with
  | ourRobotGl => rfl
  | enemyRobotGl => rfl
  | blackPoleGl => rfl
  | targetPosVec => rfl

/-- A call of `sendCommonInfo`, the datagram of it that reaches the receiver
and the time it does. -/
structure Delivery where
  now : ℚ
  info : CommonInfo
  datagram : Datagram

def Delivery.event (c : Delivery) : Event := .datagram c.now c.datagram.bytes

theorem Teammates.run_stored {sender receiver : InfoShare}
    (h : Teammates sender receiver) {calls : List Delivery}
    (hcalls : ∀ c ∈ calls, Sends pb fc sender c.info c.datagram)
    {dict : SerializeStringByDict} {e : OtherRobotInfomation}
    (htracks : Tracks dict sender.selfId receiver e) :
    ∃ receiver' e', receiver.run pb (calls.map Delivery.event) = .ok receiver' ∧
      Tracks dict sender.selfId receiver' e' ∧
      ∀ field : PoseList, field.stored e' =
        latest (fun c => receivedPoses fc (field.sent c.info)) (field.stored e)
          calls := by
  induction calls generalizing receiver e with
  | nil => exact ⟨receiver, e, rfl, htracks, fun field => rfl⟩
  | cons c calls ih =>
      obtain ⟨command, behaviorName, receiver₁, hcall, -, h₁, htracks₁⟩ :=
        h.receive (hcalls c List.mem_cons_self) htracks c.now
      have hhandle : receiver.handle pb c.event = .ok receiver₁ := hcall
      obtain ⟨receiver', e', hrun, htracks', hfields⟩ :=
        ih h₁ (fun c' hc' => hcalls c' (List.mem_cons_of_mem c hc')) htracks₁
      refine ⟨receiver', e', (Lib.runs_cons_ok hhandle _).trans hrun, htracks', ?_⟩
      intro field
      rw [hfields, field.stored_write, Lib.latest_cons]

/-- After any number of calls each of the four getters shows the last list that
was not empty, pose by pose as it comes out at the other end, and what it
showed before if there is none. -/
theorem poseLists_latest {sender receiver : InfoShare} (h : Teammates sender receiver)
    {calls : List Delivery}
    (hcalls : ∀ c ∈ calls, Sends pb fc sender c.info c.datagram) :
    (∃ receiver', receiver.run pb (calls.map Delivery.event) = .ok receiver' ∧
      ∀ field : PoseList, ∃ old,
        field.shown receiver sender.selfId = .ok old ∧
        field.shown receiver' sender.selfId =
          .ok (latest (fun c => if field.sent c.info = [] then none
            else some ((field.sent c.info).map (Pos2D.received fc))) old calls)) ∧
      ∀ p : Pos2D ℚ, p.Fits → p.received fc = p.truncated := by
  refine ⟨?_, fun p hp => hp.received_eq⟩
  obtain ⟨e, htracks⟩ := h.tracks
  obtain ⟨receiver', e', hrun, htracks', hfields⟩ := h.run_stored hcalls htracks
  refine ⟨receiver', hrun, fun field => ⟨field.stored e, htracks.shown field, ?_⟩⟩
  rw [htracks'.shown field, hfields]
  rfl

/-- The example robot seeing one teammate. -/
def sampleSighting : CommonInfo := { sampleInfo with ourRobotGl := [⟨150, -20, 1⟩] }

theorem sampleSighting_sends : Sends wire .wrapping (sampleRobot 2 colorMagenta)
    sampleSighting (sampleDatagram 2 sampleSighting) :=
  sampleRobot_sends rfl rfl (by decide +kernel)

theorem sampleInfo_sends : Sends wire .wrapping (sampleRobot 2 colorMagenta)
    sampleInfo (sampleDatagram 2 sampleInfo) :=
  sampleRobot_sends rfl rfl (by decide +kernel)

theorem sampleSighting_received :
    receivedPoses .wrapping sampleSighting.ourRobotGl = some [⟨150, -20, 1⟩] := by
  decide +kernel

/-- Robot 2 sees a teammate, then none, and robot 1 goes on believing in it. -/
theorem poseLists_notEmptied :
    ∃ seen unseen : Datagram, ∃ receiver',
      Sends wire .wrapping (sampleRobot 2 colorMagenta) sampleSighting seen ∧
      Sends wire .wrapping (sampleRobot 2 colorMagenta) sampleInfo unseen ∧
      (sampleRobot 1 colorMagenta).run wire
        [.datagram 1 seen.bytes, .datagram 2 unseen.bytes] = .ok receiver' ∧
      sampleInfo.ourRobotGl = [] ∧
      receiver'.getourRobotGl 2 = .ok [⟨150, -20, 1⟩] := by
  obtain ⟨e, htracks⟩ := sampleRobot_teammates.tracks
  have hcalls : ∀ c ∈ [Delivery.mk 1 sampleSighting (sampleDatagram 2 sampleSighting),
      Delivery.mk 2 sampleInfo (sampleDatagram 2 sampleInfo)],
      Sends wire .wrapping (sampleRobot 2 colorMagenta) c.info c.datagram := by
    intro c hc
    fin_cases hc
    · exact sampleSighting_sends
    · exact sampleInfo_sends
  obtain ⟨receiver', e', hrun, htracks', hfields⟩ :=
    sampleRobot_teammates.run_stored hcalls htracks
  refine ⟨_, _, receiver', sampleSighting_sends, sampleInfo_sends, hrun, rfl, ?_⟩
  have hlist := hfields .ourRobotGl
  rw [Lib.latest_cons, Lib.latest_cons, Lib.latest_nil] at hlist
  rw [show receivedPoses .wrapping (PoseList.ourRobotGl.sent sampleSighting) = _ from
    sampleSighting_received] at hlist
  exact (htracks'.shown .ourRobotGl).trans (congrArg _ hlist)

/-- The sighting itself arrives. -/
theorem poseLists_latest_sighting :
    ∃ receiver', (sampleRobot 1 colorMagenta).run wire
        [.datagram 1 (sampleDatagram 2 sampleSighting).bytes] = .ok receiver' ∧
      receiver'.getourRobotGl 2 = .ok [⟨150, -20, 1⟩] := by
  have hcalls : ∀ c ∈ [Delivery.mk 1 sampleSighting (sampleDatagram 2 sampleSighting)],
      Sends wire .wrapping (sampleRobot 2 colorMagenta) c.info c.datagram := by
    intro c hc
    obtain rfl := List.mem_singleton.mp hc
    exact sampleSighting_sends
  obtain ⟨⟨receiver', hrun, hfields⟩, -⟩ := poseLists_latest sampleRobot_teammates hcalls
  obtain ⟨old, -, hlist⟩ := hfields .ourRobotGl
  rw [Lib.latest_cons, Lib.latest_nil] at hlist
  exact ⟨receiver', hrun, hlist.trans
    (congrArg (fun v : Option (List (Pos2D ℚ)) => Except.ok (v.getD old))
      sampleSighting_received)⟩

/-! ## Ball and own position -/

theorem getballGlCf_write {d : SerializeStringByDict} {k : Int} {s sender : InfoShare}
    {e : OtherRobotInfomation} {dict : SerializeStringByDict} {now : ℚ}
    {info : CommonInfo} {command behaviorName : Bytes}
    (h : Tracks d k s
      (e.write dict now (sender.sharingData fc info command behaviorName))) :
    ∃ cf,
      s.getballGlCf k =
        .ok ⟨info.ballGlCf.isDetect, info.ballGlCf.pos.received fc, cf⟩ ∧
      s.getselfPosCf k =
        .ok ⟨info.ballGlCf.isDetect, info.ballGlCf.pos.received fc, cf⟩ := by
  rw [← carriedPos2D_setter]
  exact ⟨_, h.getter _ _, h.getter _ _⟩

/-- The position the receiver shows is the one that was sent, up to the
transmitted precision. -/
structure Faithful (sent got : Pos2DCf) : Prop where
  isDetect : got.isDetect = sent.isDetect
  pos : got.pos = sent.pos.truncated

/-- The two positions arrive as they were sent exactly when the robot's own
position looks, at the transmitted precision, like the ball's. -/
theorem positions_faithful_iff {sender receiver : InfoShare}
    (h : Teammates sender receiver) {info : CommonInfo} {d : Datagram}
    (hsends : Sends pb fc sender info d) (hball : info.ballGlCf.pos.Fits) (now : ℚ) :
    ∃ receiver' ball self,
      receiver.receivedDataHandler pb now d.bytes = .ok receiver' ∧
      receiver'.getballGlCf sender.selfId = .ok ball ∧
      receiver'.getselfPosCf sender.selfId = .ok self ∧
      (Faithful info.ballGlCf ball ∧ Faithful info.selfPosCf self ↔
        info.ballGlCf.isDetect = info.selfPosCf.isDetect ∧
          info.ballGlCf.pos.truncated = info.selfPosCf.pos.truncated) := by
  obtain ⟨e, htracks⟩ := h.tracks
  obtain ⟨command, behaviorName, receiver', hcall, -, -, htracks'⟩ :=
    h.receive hsends htracks now
  obtain ⟨cf, hgetball, hgetself⟩ := getballGlCf_write htracks'
  refine ⟨receiver', _, _, hcall, hgetball, hgetself, ?_⟩
  rw [hball.received_eq]
  refine ⟨?_, ?_⟩
  · intro ⟨_, hself⟩
    exact ⟨hself.isDetect, hself.pos⟩
  · intro ⟨hdetect, hpos⟩
    exact ⟨⟨rfl, rfl⟩, ⟨hdetect, hpos⟩⟩

/-- The example robot at the origin, with the ball in view. -/
def sampleBall : CommonInfo :=
  { sampleInfo with ballGlCf := { isDetect := true, pos := ⟨100, 200, 0⟩, cf := 50 } }

theorem sampleBall_sends : Sends wire .wrapping (sampleRobot 2 colorMagenta)
    sampleBall (sampleDatagram 2 sampleBall) :=
  sampleRobot_sends rfl rfl (by decide +kernel)

theorem sampleBall_received :
    sampleBall.ballGlCf.pos.received .wrapping = ⟨100, 200, 0⟩ := by
  decide +kernel

/-- Robot 1 is told that robot 2 stands where the ball is. -/
theorem positions_selfIsBall :
    ∃ d receiver' self,
      Sends wire .wrapping (sampleRobot 2 colorMagenta) sampleBall d ∧
      (sampleRobot 1 colorMagenta).receivedDataHandler wire 0 d.bytes = .ok receiver' ∧
      receiver'.getselfPosCf 2 = .ok self ∧ self.pos = ⟨100, 200, 0⟩ ∧
      sampleBall.selfPosCf.pos.truncated = ⟨0, 0, 0⟩ := by
  obtain ⟨e, htracks⟩ := sampleRobot_teammates.tracks
  obtain ⟨command, behaviorName, receiver', hcall, -, -, htracks'⟩ :=
    sampleRobot_teammates.receive sampleBall_sends htracks 0
  obtain ⟨cf, -, hself⟩ := getballGlCf_write htracks'
  exact ⟨_, receiver', _, sampleBall_sends, hcall, hself, sampleBall_received,
    by decide +kernel⟩

/-- The example robot with the ball at its feet: the two positions differ by less
than what is transmitted. -/
def sampleDribble : CommonInfo :=
  { sampleInfo with
    ballGlCf := { isDetect := true, pos := ⟨301 / 2, -80, 157 / 100⟩, cf := 90 }
    selfPosCf := { isDetect := true, pos := ⟨603 / 4, -161 / 2, 787 / 500⟩, cf := 70 } }

theorem sampleDribble_sends : Sends wire .wrapping (sampleRobot 2 colorMagenta)
    sampleDribble (sampleDatagram 2 sampleDribble) :=
  sampleRobot_sends rfl rfl (by decide +kernel)

/-- Then the robot is shown where it is. -/
theorem positions_faithful_dribble :
    ∃ receiver' ball self,
      (sampleRobot 1 colorMagenta).receivedDataHandler wire 0
        (sampleDatagram 2 sampleDribble).bytes = .ok receiver' ∧
      receiver'.getballGlCf 2 = .ok ball ∧ receiver'.getselfPosCf 2 = .ok self ∧
      Faithful sampleDribble.ballGlCf ball ∧ Faithful sampleDribble.selfPosCf self := by
  have hfits : sampleDribble.ballGlCf.pos.Fits :=
    ⟨by decide +kernel, by decide +kernel, by decide +kernel⟩
  have hsame : sampleDribble.ballGlCf.pos.truncated =
      sampleDribble.selfPosCf.pos.truncated := by decide +kernel
  obtain ⟨receiver', ball, self, hcall, hball, hself, hiff⟩ :=
    positions_faithful_iff sampleRobot_teammates sampleDribble_sends hfits 0
  exact ⟨receiver', ball, self, hcall, hball, hself, hiff.mpr ⟨rfl, hsame⟩⟩

/-! ## Telemetry -/

/-- The getters return the unsigned bytes that were packed, and the two flags
of the status byte. -/
structure UnsignedTelemetry (receiver : InfoShare) (id : Int) (info : CommonInfo) :
    Prop where
  fps : receiver.getfps id = .ok (info.fps % 256)
  voltage : receiver.getvoltage id = .ok ((info.state.motorVoltage >>> (3 : Nat)) % 256)
  temperature : receiver.gettemperature id = .ok (info.state.temperature % 256)
  highestServo : receiver.gethighestServo id =
    .ok ((info.state.servo1temp >>> (8 : Nat)) % 256)
  status : ∃ n, receiver.getstatus id = .ok n ∧
    (n % 2 = 1 ↔ info.state.posture ≠ statePostureStand) ∧
    (n / 2 % 2 = 1 ↔ info.state.active = stateIdle)

theorem charToInt_intToChar_eq_emod_iff (n : Int) :
    charToInt (intToChar n) = n % 256 ↔ n % 256 < 128 := by
  rw [charToInt_intToChar]
  split
  · next h => simp [h]
  · next h => constructor <;> omega

theorem getstatus_write {d : SerializeStringByDict} {k : Int} {s sender : InfoShare}
    {e : OtherRobotInfomation} {dict : SerializeStringByDict} {now : ℚ}
    {info : CommonInfo} {command behaviorName : Bytes}
    (h : Tracks d k s
      (e.write dict now (sender.sharingData fc info command behaviorName))) :
    s.getstatus k = .ok (statusByte info.state) := by
  have hrange : 0 ≤ statusByte info.state ∧ statusByte info.state < 128 := by
    unfold statusByte
    split <;> split <;> omega
  have hflags := map_flagsToInt32_carriedFlags
    (some [intToChar (statusByte info.state)])
  simp only [carriedByte, Option.map_some,
    charToInt_intToChar_of_small hrange.1 hrange.2] at hflags
  exact (h.getter _ _).trans (congrArg Except.ok (Option.some.inj hflags))

theorem statusByte_bits (state : RobotStatus) :
    (statusByte state % 2 = 1 ↔ state.posture ≠ statePostureStand) ∧
      (statusByte state / 2 % 2 = 1 ↔ state.active = stateIdle) := by
  unfold statusByte
  by_cases hposture : state.posture ≠ statePostureStand <;>
    by_cases hactive : state.active = stateIdle <;>
      simp [hposture, hactive]

/-- The receiver shows the values that were packed exactly when none of them
is in the upper half of the byte range. -/
theorem telemetry_unsigned_iff {sender receiver : InfoShare}
    (h : Teammates sender receiver) {info : CommonInfo} {d : Datagram}
    (hsends : Sends pb fc sender info d) (now : ℚ) :
    ∃ receiver', receiver.receivedDataHandler pb now d.bytes = .ok receiver' ∧
      (UnsignedTelemetry receiver' sender.selfId info ↔
        info.fps % 256 < 128 ∧ (info.state.motorVoltage >>> (3 : Nat)) % 256 < 128 ∧
          info.state.temperature % 256 < 128 ∧
          (info.state.servo1temp >>> (8 : Nat)) % 256 < 128) := by
  obtain ⟨e, htracks⟩ := h.tracks
  obtain ⟨command, behaviorName, receiver', hcall, -, -, htracks'⟩ :=
    h.receive hsends htracks now
  refine ⟨receiver', hcall, ?_⟩
  have hbyte (read : OtherRobotInfomation → Int) (n : Int)
      (hread : read (e.write receiver.dictionary now
          (sender.sharingData fc info command behaviorName)) =
        charToInt (intToChar n)) :
      receiver'.getter 0 read sender.selfId = .ok (n % 256) ↔ n % 256 < 128 := by
    rw [htracks'.getter, hread, Except.ok.injEq, charToInt_intToChar_eq_emod_iff]
  have hfps := hbyte OtherRobotInfomation.fps info.fps rfl
  have hvoltage := hbyte OtherRobotInfomation.voltage
    (info.state.motorVoltage >>> (3 : Nat)) rfl
  have htemperature := hbyte OtherRobotInfomation.temperature info.state.temperature rfl
  have hservo := hbyte OtherRobotInfomation.highestServo
    (info.state.servo1temp >>> (8 : Nat)) rfl
  refine ⟨?_, ?_⟩
  · intro ht
    exact ⟨hfps.mp ht.fps, hvoltage.mp ht.voltage, htemperature.mp ht.temperature,
      hservo.mp ht.highestServo⟩
  · intro ⟨h1, h2, h3, h4⟩
    exact ⟨hfps.mpr h1, hvoltage.mpr h2, htemperature.mpr h3, hservo.mpr h4,
      _, getstatus_write htracks', statusByte_bits info.state⟩

/-- The example robot with a faster main loop. -/
def sampleFast : CommonInfo := { sampleInfo with fps := 200 }

theorem sampleFast_sends : Sends wire .wrapping (sampleRobot 2 colorMagenta)
    sampleFast (sampleDatagram 2 sampleFast) :=
  sampleRobot_sends rfl rfl (by decide +kernel)

/-- A frame rate of 200 is shown as -56. -/
theorem telemetry_negative :
    ∃ d receiver', Sends wire .wrapping (sampleRobot 2 colorMagenta) sampleFast d ∧
      (sampleRobot 1 colorMagenta).receivedDataHandler wire 0 d.bytes = .ok receiver' ∧
      receiver'.getfps 2 = .ok (-56) ∧ sampleFast.fps % 256 = 200 := by
  obtain ⟨e, htracks⟩ := sampleRobot_teammates.tracks
  obtain ⟨command, behaviorName, receiver', hcall, -, -, htracks'⟩ :=
    sampleRobot_teammates.receive sampleFast_sends htracks 0
  have hread : charToInt (intToChar sampleFast.fps) = -56 := by decide
  exact ⟨_, receiver', sampleFast_sends, hcall,
    (htracks'.getter _ _).trans (congrArg Except.ok hread), by decide⟩

theorem telemetry_unsigned_sample :
    ∃ receiver', (sampleRobot 1 colorMagenta).receivedDataHandler wire 0
        (sampleDatagram 2 sampleInfo).bytes = .ok receiver' ∧
      UnsignedTelemetry receiver' 2 sampleInfo := by
  obtain ⟨receiver', hcall, hiff⟩ :=
    telemetry_unsigned_iff sampleRobot_teammates sampleInfo_sends 0
  exact ⟨receiver', hcall, hiff.mpr (by decide)⟩

end InfoShare

end Playspace.Citbrains
