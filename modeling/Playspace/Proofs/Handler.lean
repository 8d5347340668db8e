import Playspace.Citbrains.Class
import Playspace.Citbrains.WireFormat

/-!
# What the receive handler does with any byte string

The handler has two filters and one list access. `Accepts` is the filters'
verdict on whatever the parser left behind, and the three lemmas after it are
the whole contract of a call: a message that is not accepted changes nothing,
an accepted one with an entry is stored in it, and an accepted one without an
entry indexes the list out of its range.

Two things are missing between the parser and the list, and this file says
exactly when each is noticed: nothing checks that the id byte names a robot
(`handler_inRange_iff`), and nothing looks at the parser's answer
(`handler_malformed_iff`).
-/

namespace Playspace.Citbrains

open CitbrainsMessage (SharingData colorOffset wire)

/-- The byte `team_color().at(0)`, if there is one. -/
def teamByte (m : SharingData) : Option Int :=
  (m.teamColor.getD []).head?.map charToInt

/-- The byte `id().at(0)`, if there is one. -/
def idByte (m : SharingData) : Option Int :=
  (m.id.getD []).head?.map charToInt

namespace InfoShare

/-- The two filters let the message through, as one from `id`. -/
structure Accepts (s : InfoShare) (m : SharingData) (id : Int) : Prop where
  team : teamByte m = some (s.ourColor + colorOffset)
  sender : idByte m = some id
  other : id ≠ s.selfId

theorem Accepts.unique {s : InfoShare} {m : SharingData} {id id' : Int}
    (h : s.Accepts m id) (h' : s.Accepts m id') : id = id' := by
  have := h.sender.symm.trans h'.sender
  simpa using this

/-- The object after a message was stored in the entry `e` of `id`. -/
def stored (s : InfoShare) (now : ℚ) (m : SharingData) (id : Int)
    (e : OtherRobotInfomation) : InfoShare :=
  { s with
    robotDataList := s.robotDataList.set (id - 1).toNat (e.store now m s.dictionary).1
    dictionary := (e.store now m s.dictionary).2 }

section handler

variable {pb : Protobuf} {s : InfoShare} {now : ℚ} {data : Bytes}

theorem handler_ignores (h : ∀ id, ¬ s.Accepts (pb.parseFromString data).2 id) :
    s.receivedDataHandler pb now data = .ok s := by
  unfold receivedDataHandler
  generalize (pb.parseFromString data).2 = m at h ⊢
  simp only
  split
  · rfl
  · next color _ hcolor =>
      split
      · rfl
      · next hteam =>
          split
          · rfl
          · next id _ hid =>
              split
              · rfl
              · next hself =>
                  refine absurd ⟨?_, ?_, Ne.symm hself⟩ (h (charToInt id))
                  · simpa [teamByte, hcolor] using hteam
                  · simp [idByte, hid]

theorem handler_accepts {id : Int}
    (h : s.Accepts (pb.parseFromString data).2 id) :
    s.receivedDataHandler pb now data =
      match s.entryAt (id - 1) with
      | none => .error (.outOfRange (id - 1))
      | some e => .ok (s.stored now (pb.parseFromString data).2 id e) := by
  unfold receivedDataHandler
  generalize (pb.parseFromString data).2 = m at h ⊢
  obtain ⟨hteam, hid, hother⟩ := h
  simp only [teamByte, Option.map_eq_some_iff, List.head?_eq_some_iff] at hteam
  simp only [idByte, Option.map_eq_some_iff, List.head?_eq_some_iff] at hid
  obtain ⟨color, ⟨colors, hcolor⟩, hteam⟩ := hteam
  obtain ⟨c, ⟨ids, hid⟩, rfl⟩ := hid
  simp only [hcolor, hid, hteam, ne_eq, not_true, if_false, if_neg (Ne.symm hother)]
  cases s.entryAt (charToInt c - 1) with
  | none => rfl
  | some e => rfl

/-- A call that comes back either found the message filtered out or stored it. -/
theorem handler_cases {s' : InfoShare} (h : s.receivedDataHandler pb now data = .ok s') :
    (s' = s ∧ ∀ id, ¬ s.Accepts (pb.parseFromString data).2 id) ∨
      ∃ id e, s.Accepts (pb.parseFromString data).2 id ∧
        s.entryAt (id - 1) = some e ∧
        s' = s.stored now (pb.parseFromString data).2 id e := by
  by_cases hacc : ∃ id, s.Accepts (pb.parseFromString data).2 id
  · obtain ⟨id, hacc⟩ := hacc
    rw [handler_accepts hacc] at h
    cases he : s.entryAt (id - 1) with
    | none => simp only [he] at h; cases h
    | some e =>
        simp only [he] at h
        cases h
        exact Or.inr ⟨id, e, hacc, he, rfl⟩
  · have hnone : ∀ id, ¬ s.Accepts (pb.parseFromString data).2 id :=
      fun id hid => hacc ⟨id, hid⟩
    rw [handler_ignores hnone] at h
    cases h
    exact Or.inl ⟨rfl, hnone⟩

theorem entryAt_eq_some {index : Int} {e : OtherRobotInfomation} :
    s.entryAt index = some e ↔ 0 ≤ index ∧ s.robotDataList[index.toNat]? = some e := by
  unfold entryAt
  split
  · next h => simp [h]
  · next h => simp [h]

theorem entryAt_eq_none {index : Int} :
    s.entryAt index = none ↔ index < 0 ∨ (s.robotDataList.length : Int) ≤ index := by
  unfold entryAt
  split
  · next h =>
      rw [List.getElem?_eq_none_iff]
      omega
  · next h => simp; omega

end handler

/-! ## An object that `setup` completed -/

structure SetUp (s : InfoShare) : Prop where
  entries : (s.robotDataList.length : Int) = numPlayers
  server : s.server.isSome
  client : s.client.isSome
  color : s.ourColor = colorMagenta ∨ s.ourColor = colorCyan

@[simp] theorem length_newEntries (clock : Nat → ℚ) :
    (newEntries clock).length = numPlayers.toNat := by
  simp [newEntries]

/-- The entries that were made when `setup` stops. -/
def SetupEnd.entries : SetupEnd → Nat
  | .robotData i => i
  | _ => numPlayers.toNat

def SetupEnd.hasClient : SetupEnd → Bool
  | .server => true
  | .completed => true
  | _ => false

def SetupEnd.hasServer : SetupEnd → Bool
  | .completed => true
  | _ => false

/-- The call of `setup` that does the work, wherever it stops. -/
theorem setup_first {args : SetupArgs} {stop : SetupEnd} {clock : Nat → ℚ}
    {s s' : InfoShare} {flag : Bool}
    (h : s.setup args stop clock false = some (flag, s')) :
    setupAsserts args ∧ flag = true ∧ s' = { s with
      selfId := args.selfId
      ourColor := args.ourColor
      socketMode := args.modeSelect
      robotDataList := s.robotDataList ++ (newEntries clock).take stop.entries
      client := if stop.hasClient then some (openClient args) else s.client
      server := if stop.hasServer then some (openServer args) else s.server } := by
  unfold setup at h
  rw [if_neg (by simp)] at h
  split at h
  · cases h
  · next hasserts =>
      refine ⟨not_not.mp hasserts, ?_⟩
      cases stop with
      | robotData i =>
          cases h
          exact ⟨rfl, rfl⟩
      | client =>
          simp only [Option.ite_none_right_eq_some] at h
          obtain ⟨-, h⟩ := h
          cases h
          exact ⟨rfl, rfl⟩
      | server =>
          simp only [Option.ite_none_right_eq_some] at h
          obtain ⟨-, h⟩ := h
          cases h
          exact ⟨rfl, rfl⟩
      | completed =>
          simp only [Option.ite_none_right_eq_some] at h
          obtain ⟨-, h⟩ := h
          cases h
          exact ⟨rfl, rfl⟩

/-- What a call of `setup` that runs to its end leaves, on an object whose list
is still empty. -/
theorem setup_completed {args : SetupArgs} {clock : Nat → ℚ} {s s' : InfoShare}
    {flag : Bool} (hnil : s.robotDataList = [])
    (h : s.setup args .completed clock false = some (flag, s')) :
    s'.SetUp ∧ s'.selfId = args.selfId ∧ s'.ourColor = args.ourColor ∧
      s'.robotDataList = newEntries clock ∧ s'.dictionary = s.dictionary := by
  obtain ⟨hasserts, -, rfl⟩ := setup_first h
  have hlist : s.robotDataList ++ (newEntries clock).take SetupEnd.completed.entries =
      newEntries clock := by
    rw [hnil]
    rfl
  refine ⟨⟨?_, rfl, rfl, hasserts.2⟩, rfl, rfl, hlist, rfl⟩
  rw [hlist]
  rfl

/-- In range of the list means an id from 1 to `NUM_PLAYERS`. -/
theorem SetUp.entry_iff {s : InfoShare} (h : s.SetUp) {id : Int} :
    (∃ e, s.entryAt (id - 1) = some e) ↔ 1 ≤ id ∧ id ≤ numPlayers := by
  rw [← Option.isSome_iff_exists, ← not_iff_not, Option.not_isSome_iff_eq_none,
    entryAt_eq_none, h.entries]
  omega

theorem SetUp.stored {s : InfoShare} (h : s.SetUp) (now : ℚ) (m : SharingData)
    (id : Int) (e : OtherRobotInfomation) : (s.stored now m id e).SetUp :=
  ⟨by rw [InfoShare.stored, List.length_set, h.entries], h.server, h.client, h.color⟩

theorem SetUp.changeColor {s : InfoShare} (h : s.SetUp) (color : Int) :
    (s.changeColor color).SetUp := by
  unfold InfoShare.changeColor
  split
  · exact h
  · next hcolor =>
      refine ⟨h.entries, h.server, h.client, ?_⟩
      show color = colorMagenta ∨ color = colorCyan
      tauto

/-- The handler comes back when every message it accepts names a player. -/
theorem SetUp.handler_ok {pb : Protobuf} {s : InfoShare} (h : s.SetUp) (now : ℚ)
    {data : Bytes} (hid : ∀ id, s.Accepts (pb.parseFromString data).2 id →
      1 ≤ id ∧ id ≤ numPlayers) :
    ∃ s', s.receivedDataHandler pb now data = .ok s' := by
  by_cases hacc : ∃ id, s.Accepts (pb.parseFromString data).2 id
  · obtain ⟨id, hacc⟩ := hacc
    obtain ⟨e, he⟩ := h.entry_iff.mpr (hid id hacc)
    exact ⟨_, by rw [handler_accepts hacc, he]⟩
  · exact ⟨s, handler_ignores (fun id hid => hacc ⟨id, hid⟩)⟩

/-- The handler stays inside the list exactly when the message is filtered out
or its id byte, read as a signed `char`, names one of the players. -/
theorem handler_inRange_iff {pb : Protobuf} {s : InfoShare} (hs : s.SetUp) (now : ℚ)
    (data : Bytes) :
    (∀ index, s.receivedDataHandler pb now data ≠ .error (.outOfRange index)) ↔
      ∀ id, s.Accepts (pb.parseFromString data).2 id → 1 ≤ id ∧ id ≤ numPlayers := by
  refine ⟨?_, ?_⟩
  · intro h id hacc
    rw [← hs.entry_iff]
    have hcall : s.receivedDataHandler pb now data = _ := handler_accepts hacc
    cases he : s.entryAt (id - 1) with
    | none =>
        simp only [he] at hcall
        exact absurd hcall (h (id - 1))
    | some e => exact ⟨e, rfl⟩
  · intro h index hcall
    obtain ⟨s', hok⟩ := hs.handler_ok now h
    rw [hok] at hcall
    cases hcall

/-! ## A robot to run the handler on -/

/-- The object the constructor makes from two one-word files. -/
def freshRobot : InfoShare where
  selfId := 1
  ourColor := colorMagenta
  terminated := false
  socketMode := 0
  robotDataList := []
  server := none
  client := none
  dictionary := {
    numToCommand := (loadDict (ascii "FreeKick")).1
    commandToNum := (loadDict (ascii "FreeKick")).2
    numToBehaviorName := (loadDict (ascii "Ready")).1
    behaviorNameToNum := (loadDict (ascii "Ready")).2 }

theorem freshRobot_new : InfoShare.new (ascii "FreeKick") (ascii "Ready") =
    some freshRobot := by
  have hdict : SerializeStringByDict.new (ascii "FreeKick") (ascii "Ready") =
      some freshRobot.dictionary := by rfl
  rw [InfoShare.new, hdict]
  rfl

/-- The same object after `setup` in broadcast mode, at time 0. -/
def sampleRobot (selfId ourColor : Int) : InfoShare :=
  { freshRobot with
    selfId, ourColor
    robotDataList := newEntries fun _ => 0
    server := some { port := broadcastPort }
    client := some { ipAddress := ascii "192.168.4.255", port := broadcastPort } }

theorem sampleRobot_setup (selfId : Int) {ourColor : Int}
    (hcolor : ourColor = colorMagenta ∨ ourColor = colorCyan) :
    freshRobot.setup ⟨broadcastMode, selfId, ourColor, ascii "192.168.4.160"⟩ .completed
      (fun _ => 0) false = some (true, sampleRobot selfId ourColor) := by
  have hassert : setupAsserts ⟨broadcastMode, selfId, ourColor, ascii "192.168.4.160"⟩ :=
    ⟨by show numPlayers ≥ selfId ∨ selfId ≥ 1; unfold numPlayers; omega, hcolor⟩
  unfold setup
  rw [if_neg (by decide), if_neg (not_not.mpr hassert)]
  rfl

theorem sampleRobot_setUp (selfId : Int) {ourColor : Int}
    (hcolor : ourColor = colorMagenta ∨ ourColor = colorCyan) :
    (sampleRobot selfId ourColor).SetUp :=
  (setup_completed rfl (sampleRobot_setup selfId hcolor)).1

/-- A datagram of seven bytes from "robot 5" of the receiver's own team. -/
theorem handler_outOfRange_five :
    (sampleRobot 1 colorMagenta).SetUp ∧
      (sampleRobot 1 colorMagenta).receivedDataHandler wire 0
        [0x0a, 0x01, 0x05, 0x9a, 0x01, 0x01, 0x05] = .error (.outOfRange 4) := by
  refine ⟨sampleRobot_setUp 1 (Or.inl rfl), ?_⟩
  have hparse : (wire.parseFromString [0x0a, 0x01, 0x05, 0x9a, 0x01, 0x01, 0x05]).2 =
      { id := some [5], teamColor := some [5] } := by decide +kernel
  have hacc : (sampleRobot 1 colorMagenta).Accepts
      (wire.parseFromString [0x0a, 0x01, 0x05, 0x9a, 0x01, 0x01, 0x05]).2 5 := by
    rw [hparse]
    exact ⟨by decide, by decide, by decide⟩
  rw [handler_accepts hacc]
  rfl

/-- The same datagram from robot 2 is handled. -/
theorem handler_inRange_two :
    ¬ ∃ index, (sampleRobot 1 colorMagenta).receivedDataHandler wire 0
      [0x0a, 0x01, 0x02, 0x9a, 0x01, 0x01, 0x05] = .error (.outOfRange index) := by
  intro ⟨index, hcall⟩
  refine (handler_inRange_iff (sampleRobot_setUp 1 (Or.inl rfl)) 0 _).mpr ?_ index hcall
  intro id hacc
  have hid : idByte (wire.parseFromString
      [0x0a, 0x01, 0x02, 0x9a, 0x01, 0x01, 0x05]).2 = some 2 := by decide +kernel
  obtain rfl : id = 2 := Option.some.inj (hacc.sender.symm.trans hid)
  decide

/-! ## Messages the parser rejected -/

/-- The entry already holds everything the message would store. -/
structure Holds (e : OtherRobotInfomation) (d : SerializeStringByDict) (now : ℚ)
    (m : SharingData) : Prop where
  recvTime : e.recvTime = now
  status : ∀ v ∈ carriedFlags m.status, e.status = v
  fps : ∀ v ∈ carriedByte m.fps, e.fps = v
  voltage : ∀ v ∈ carriedByte m.voltage, e.voltage = v
  temperature : ∀ v ∈ carriedByte m.temperature, e.temperature = v
  highestServo : ∀ v ∈ carriedByte m.highestServo, e.highestServo = v
  command : ∀ v ∈ carriedText d.numToCommand m.command, e.command = v
  currentBehaviorName : ∀ v ∈ carriedText d.numToBehaviorName m.currentBehaviorName,
    e.currentBehaviorName = v
  ourRobotGl : ∀ v ∈ carriedPoses m.ourRobotGl, e.ourRobotGl = v
  enemyRobotGl : ∀ v ∈ carriedPoses m.enemyRobotGl, e.enemyRobotGl = v
  blackPoleGl : ∀ v ∈ carriedPoses m.blackPoleGl, e.blackPoleGl = v
  targetPosVec : ∀ v ∈ carriedPoses m.targetPosVec, e.targetPosVec = v
  ballGlCf : ∀ v ∈ carriedPos2DCf m.ballGlCf, e.ballGlCf = v
  selfPosCf : ∀ v ∈ carriedPos2DCf m.selfPosCf, e.selfPosCf = v

theorem getD_eq_self_iff {β : Type} {old : β} {v : Option β} :
    v.getD old = old ↔ ∀ w ∈ v, old = w := by
  cases v with
  | none => simp
  | some w => simp [eq_comm]

theorem write_eq_self_iff {e : OtherRobotInfomation} {d : SerializeStringByDict}
    {now : ℚ} {m : SharingData} : e.write d now m = e ↔ Holds e d now m := by
  refine ⟨?_, ?_⟩
  · intro h
    constructor
    · exact (congrArg OtherRobotInfomation.recvTime h).symm
    · exact getD_eq_self_iff.mp (congrArg OtherRobotInfomation.status h)
    · exact getD_eq_self_iff.mp (congrArg OtherRobotInfomation.fps h)
    · exact getD_eq_self_iff.mp (congrArg OtherRobotInfomation.voltage h)
    · exact getD_eq_self_iff.mp (congrArg OtherRobotInfomation.temperature h)
    · exact getD_eq_self_iff.mp (congrArg OtherRobotInfomation.highestServo h)
    · exact getD_eq_self_iff.mp (congrArg OtherRobotInfomation.command h)
    · exact getD_eq_self_iff.mp (congrArg OtherRobotInfomation.currentBehaviorName h)
    · exact getD_eq_self_iff.mp (congrArg OtherRobotInfomation.ourRobotGl h)
    · exact getD_eq_self_iff.mp (congrArg OtherRobotInfomation.enemyRobotGl h)
    · exact getD_eq_self_iff.mp (congrArg OtherRobotInfomation.blackPoleGl h)
    · exact getD_eq_self_iff.mp (congrArg OtherRobotInfomation.targetPosVec h)
    · exact getD_eq_self_iff.mp (congrArg OtherRobotInfomation.ballGlCf h)
    · exact getD_eq_self_iff.mp (congrArg OtherRobotInfomation.selfPosCf h)
  · intro h
    rw [OtherRobotInfomation.write, getD_eq_self_iff.mpr h.status,
      getD_eq_self_iff.mpr h.fps, getD_eq_self_iff.mpr h.voltage,
      getD_eq_self_iff.mpr h.temperature, getD_eq_self_iff.mpr h.highestServo,
      getD_eq_self_iff.mpr h.command, getD_eq_self_iff.mpr h.currentBehaviorName,
      getD_eq_self_iff.mpr h.ourRobotGl, getD_eq_self_iff.mpr h.enemyRobotGl,
      getD_eq_self_iff.mpr h.blackPoleGl, getD_eq_self_iff.mpr h.targetPosVec,
      getD_eq_self_iff.mpr h.ballGlCf, getD_eq_self_iff.mpr h.selfPosCf, ← h.recvTime]

theorem stored_entries_iff {s : InfoShare} {now : ℚ} {m : SharingData} {id : Int}
    {e : OtherRobotInfomation} (he : s.entryAt (id - 1) = some e) :
    (s.stored now m id e).robotDataList = s.robotDataList ↔
      Holds e s.dictionary now m := by
  obtain ⟨-, hget⟩ := entryAt_eq_some.mp he
  obtain ⟨hlt, hentry⟩ := List.getElem?_eq_some_iff.mp hget
  have hstore := (OtherRobotInfomation.store_eq (.refl s.dictionary) now m e).1
  rw [← write_eq_self_iff, ← hstore]
  refine ⟨?_, ?_⟩
  · intro h
    have hat := congrArg (fun list => list[(id - 1).toNat]?) h
    simp only [stored, List.getElem?_set_self hlt, hget] at hat
    exact Option.some.inj hat
  · intro h
    rw [stored, h, ← hentry]
    exact List.set_getElem_self hlt

/-- A datagram the parser rejects leaves every entry alone exactly when the
part that was read is filtered out, or happens to tell the receiver nothing it
has not stored at this very instant. -/
theorem handler_malformed_iff {pb : Protobuf} {data : Bytes} {m : SharingData}
    (hparse : pb.parseFromString data = (false, m)) (s : InfoShare) (now : ℚ) :
    (∃ s', s.receivedDataHandler pb now data = .ok s' ∧
        s'.robotDataList = s.robotDataList) ↔
      ∀ id, s.Accepts m id →
        ∃ e, s.entryAt (id - 1) = some e ∧ Holds e s.dictionary now m := by
  obtain rfl : (pb.parseFromString data).2 = m := by rw [hparse]
  refine ⟨?_, ?_⟩
  · intro ⟨s', hcall, hsame⟩ id hacc
    obtain ⟨-, hnone⟩ | ⟨id', e, hacc', he, rfl⟩ := handler_cases hcall
    · exact absurd hacc (hnone id)
    · obtain rfl := hacc.unique hacc'
      exact ⟨e, he, (stored_entries_iff he).mp hsame⟩
  · intro h
    by_cases hacc : ∃ id, s.Accepts (pb.parseFromString data).2 id
    · obtain ⟨id, hacc⟩ := hacc
      obtain ⟨e, he, hholds⟩ := h id hacc
      refine ⟨s.stored now (pb.parseFromString data).2 id e, ?_,
        (stored_entries_iff he).mpr hholds⟩
      rw [handler_accepts hacc, he]
    · exact ⟨s, handler_ignores (fun id hid => hacc ⟨id, hid⟩), rfl⟩

/-- A datagram with an id, a frame rate and a team colour. -/
def fpsReport (id fps team : UInt8) : Bytes :=
  [0x0a, 0x01, id, 0x2a, 0x01, fps, 0x9a, 0x01, 0x01, team]

/-- A report of robot 2 that breaks off after the tag of `status`: the parser
rejects it, and the receiver stores its frame rate. -/
theorem handler_malformed_stored :
    (wire.parseFromString
        (fpsReport 2 77 5 ++ [0x22])).1 = false ∧
      ∃ s', (sampleRobot 1 colorMagenta).receivedDataHandler wire 7
          (fpsReport 2 77 5 ++ [0x22]) = .ok s' ∧
        s'.getfps 2 = .ok 77 ∧ s'.getrecvTime 2 = .ok 7 ∧
        (sampleRobot 1 colorMagenta).getfps 2 = .ok 0 ∧
        (sampleRobot 1 colorMagenta).getrecvTime 2 = .ok 0 := by
  have hparse : wire.parseFromString
      (fpsReport 2 77 5 ++ [0x22]) =
        (false, { id := some [2], fps := some [77], teamColor := some [5] }) := by
    decide +kernel
  have hacc : (sampleRobot 1 colorMagenta).Accepts
      (wire.parseFromString
        (fpsReport 2 77 5 ++ [0x22])).2 2 := by
    rw [hparse]
    exact ⟨by decide, by decide, by decide⟩
  refine ⟨by rw [hparse], _, handler_accepts hacc, ?_, ?_, ?_, ?_⟩
  · rw [hparse]
    rfl
  · rw [hparse]
    rfl
  · rfl
  · rfl

/-- The same datagram for the other team is filtered out. -/
theorem handler_malformed_otherTeam :
    ∃ s', (sampleRobot 1 colorMagenta).receivedDataHandler wire 7
        (fpsReport 2 77 6 ++ [0x22]) = .ok s' ∧
      s'.robotDataList = (sampleRobot 1 colorMagenta).robotDataList := by
  have hparse : wire.parseFromString
      (fpsReport 2 77 6 ++ [0x22]) =
        (false, { id := some [2], fps := some [77], teamColor := some [6] }) := by
    decide +kernel
  refine (handler_malformed_iff hparse (sampleRobot 1 colorMagenta) 7).mpr ?_
  intro id hacc
  exact absurd hacc.team (by decide)

end InfoShare

end Playspace.Citbrains
