import Playspace.Lib.LastWrite
import Playspace.Lib.Machine
import Playspace.Proofs.Handler

/-!
# A receiver over a whole run

Between `setup` and the end a receiver sees changes of its own colour and
datagrams of anybody, in any order. For one teammate `k` only the messages in
`accepted` matter: those from `k` that had the receiver's colour at the moment
they were handled. `run_tracks` is the induction: the entry of `k` is its first
content with the accepted messages written to it in order, and nothing else of
the run is left in it. Read field by field that is the latest value sent.
-/

namespace Playspace.Citbrains

open CitbrainsMessage (SharingData colorOffset wire)
open Playspace.Lib (latest)

/-- One thing that happens to a receiver. -/
inductive Event where
  | changeColor (color : Int)
  | datagram (now : ℚ) (data : Bytes)

/-- The messages of robot `k` the colour filter lets through, each with the
time it was handled, `color` being the receiver's before the first event. -/
def accepted (pb : Protobuf) (k : Int) : Int → List Event → List (ℚ × SharingData)
  | _, [] => []
  | color, .changeColor c :: events =>
      accepted pb k (if c ≠ colorCyan ∧ c ≠ colorMagenta then color else c) events
  | color, .datagram now data :: events =>
      let m := (pb.parseFromString data).2
      if teamByte m = some (color + colorOffset) ∧ idByte m = some k then
        (now, m) :: accepted pb k color events
      else accepted pb k color events

/-- The id byte, if the message has one, names a robot. -/
def Event.NamesRobot (pb : Protobuf) : Event → Prop
  | .changeColor _ => True
  | .datagram _ data => ∀ id, idByte (pb.parseFromString data).2 = some id →
      1 ≤ id ∧ id ≤ numPlayers

/-- The events that could matter for robot `k`: its own datagrams, whatever
their colour, and the receiver's changes of colour. -/
def Event.concerns (pb : Protobuf) (k : Int) : Event → Bool
  | .changeColor _ => true
  | .datagram _ data => idByte (pb.parseFromString data).2 = some k

theorem accepted_filter (pb : Protobuf) (k color : Int) (events : List Event) :
    accepted pb k color (events.filter (Event.concerns pb k)) =
      accepted pb k color events := by
  induction events generalizing color with
  | nil => rfl
  | cons event events ih =>
      cases event with
      | changeColor c =>
          rw [List.filter_cons_of_pos rfl, accepted, accepted, ih]
      | datagram now data =>
          by_cases hid : idByte (pb.parseFromString data).2 = some k
          · rw [List.filter_cons_of_pos (by simpa [Event.concerns] using hid),
              accepted, accepted, ih]
          · rw [List.filter_cons_of_neg (by simpa [Event.concerns] using hid),
              accepted, ih, if_neg (fun hboth => hid hboth.2)]

/-- An entry after a list of messages. -/
def OtherRobotInfomation.writeAll (d : SerializeStringByDict)
    (e : OtherRobotInfomation) (messages : List (ℚ × SharingData)) :
    OtherRobotInfomation :=
  messages.foldl (fun e a => e.write d a.1 a.2) e

namespace InfoShare

def handle (pb : Protobuf) (s : InfoShare) : Event → Except Stop InfoShare
  | .changeColor color => .ok (s.changeColor color)
  | .datagram now data => s.receivedDataHandler pb now data

def run (pb : Protobuf) (s : InfoShare) (events : List Event) : Except Stop InfoShare :=
  Lib.runs (handle pb) s events

/-- The receiver is set up and its entry of the teammate `k` is `e`. -/
structure Tracks (d : SerializeStringByDict) (k : Int) (s : InfoShare)
    (e : OtherRobotInfomation) : Prop where
  setUp : s.SetUp
  words : s.dictionary.SameWords d
  other : k ≠ s.selfId
  entry : s.entryAt (k - 1) = some e

theorem Tracks.getter {d : SerializeStringByDict} {k : Int} {s : InfoShare}
    {e : OtherRobotInfomation} (h : Tracks d k s e) {β : Type} (zero : β)
    (read : OtherRobotInfomation → β) : s.getter zero read k = .ok (read e) := by
  have hk := h.setUp.entry_iff.mp ⟨e, h.entry⟩
  have hself := h.other
  unfold InfoShare.getter
  rw [if_neg (by omega), h.entry]

theorem entryAt_changeColor (s : InfoShare) (color index : Int) :
    (s.changeColor color).entryAt index = s.entryAt index := by
  unfold changeColor
  split
  · rfl
  · rfl

theorem entryAt_stored {s : InfoShare} {now : ℚ} {m : SharingData} {id : Int}
    {e : OtherRobotInfomation} (he : s.entryAt (id - 1) = some e) (k : Int) :
    (s.stored now m id e).entryAt (k - 1) =
      if k = id then some (e.store now m s.dictionary).1 else s.entryAt (k - 1) := by
  obtain ⟨hid, hget⟩ := entryAt_eq_some.mp he
  obtain ⟨hlt, -⟩ := List.getElem?_eq_some_iff.mp hget
  split
  · next hk =>
      rw [entryAt, hk, if_pos hid]
      exact List.getElem?_set_self hlt
  · next hk =>
      unfold entryAt
      split
      · next hpos => exact List.getElem?_set_ne (by omega)
      · rfl

theorem Tracks.changeColor {d : SerializeStringByDict} {k : Int} {s : InfoShare}
    {e : OtherRobotInfomation} (h : Tracks d k s e) (color : Int) :
    Tracks d k (s.changeColor color) e := by
  refine ⟨h.setUp.changeColor color, ?_, ?_, ?_⟩
  · unfold InfoShare.changeColor
    split
    · exact h.words
    · exact h.words
  · unfold InfoShare.changeColor
    split
    · exact h.other
    · exact h.other
  · rw [entryAt_changeColor]
    exact h.entry

/-- One datagram: it is written to the entry of `k` when it is an accepted one
of `k`, and otherwise the entry stays. -/
theorem Tracks.datagram {pb : Protobuf} {d : SerializeStringByDict} {k : Int}
    {s : InfoShare} {e : OtherRobotInfomation} (h : Tracks d k s e) (now : ℚ)
    (data : Bytes) (hid : (Event.datagram now data).NamesRobot pb) :
    ∃ s', s.receivedDataHandler pb now data = .ok s' ∧ s'.ourColor = s.ourColor ∧
      Tracks d k s' (if teamByte (pb.parseFromString data).2 =
            some (s.ourColor + colorOffset) ∧
          idByte (pb.parseFromString data).2 = some k
        then e.write d now (pb.parseFromString data).2 else e) := by
  obtain ⟨s', hcall⟩ := h.setUp.handler_ok now fun id hacc => hid id hacc.sender
  refine ⟨s', hcall, ?_⟩
  obtain ⟨rfl, hnone⟩ | ⟨id, e', hacc, he', rfl⟩ := handler_cases hcall
  · rw [if_neg (fun hboth => hnone k ⟨hboth.1, hboth.2, h.other⟩)]
    exact ⟨rfl, h⟩
  · obtain ⟨hwrite, hwords⟩ :=
      e'.store_eq h.words now (pb.parseFromString data).2
    refine ⟨rfl, h.setUp.stored now _ id e', hwords.trans h.words, h.other, ?_⟩
    rw [entryAt_stored he', hacc.team, hacc.sender, hwrite]
    by_cases hk : k = id
    · subst hk
      obtain rfl : e = e' := Option.some.inj (h.entry.symm.trans he')
      rw [if_pos rfl, if_pos ⟨rfl, rfl⟩]
    · rw [if_neg hk, if_neg (fun hboth => hk (Option.some.inj hboth.2).symm)]
      exact h.entry

theorem run_tracks {pb : Protobuf} {d : SerializeStringByDict} {k : Int}
    {events : List Event} (hids : ∀ event ∈ events, event.NamesRobot pb)
    {s : InfoShare} {e : OtherRobotInfomation} (h : Tracks d k s e) :
    ∃ s', s.run pb events = .ok s' ∧
      Tracks d k s' (e.writeAll d (accepted pb k s.ourColor events)) := by
  induction events generalizing s e with
  | nil => exact ⟨s, rfl, h⟩
  | cons event events ih =>
      have hrest := fun ev hev => hids ev (List.mem_cons_of_mem event hev)
      cases event with
      | changeColor color =>
          obtain ⟨s', hrun, htracks⟩ := ih hrest (h.changeColor color)
          have hhandle : s.handle pb (.changeColor color) = .ok (s.changeColor color) := rfl
          refine ⟨s', (Lib.runs_cons_ok hhandle events).trans hrun, ?_⟩
          have hcolor : (s.changeColor color).ourColor =
              if color ≠ colorCyan ∧ color ≠ colorMagenta then s.ourColor else color := by
            unfold InfoShare.changeColor
            split
            · rfl
            · rfl
          rw [hcolor] at htracks
          exact htracks
      | datagram now data =>
          obtain ⟨s₁, hstep, hcolor, h₁⟩ :=
            h.datagram now data (hids _ List.mem_cons_self)
          have hhandle : s.handle pb (.datagram now data) = .ok s₁ := hstep
          obtain ⟨s', hrun, htracks⟩ := ih hrest h₁
          refine ⟨s', (Lib.runs_cons_ok hhandle events).trans hrun, ?_⟩
          rw [hcolor] at htracks
          simp only [accepted]
          split at htracks
          · next hboth => rw [if_pos hboth]; exact htracks
          · next hboth => rw [if_neg hboth]; exact htracks

/-! ## What the getters show -/

/-- The getters for `k` show the latest value of each field in `messages`, or
what `setup` left in it at the time `start`. -/
structure ShowsLatest (d : SerializeStringByDict) (start : ℚ)
    (messages : List (ℚ × SharingData)) (k : Int) (s : InfoShare) : Prop where
  status : s.getstatus k = .ok (latest (fun a => carriedByte a.2.status) 0 messages)
  fps : s.getfps k = .ok (latest (fun a => carriedByte a.2.fps) 0 messages)
  voltage : s.getvoltage k = .ok (latest (fun a => carriedByte a.2.voltage) 0 messages)
  temperature : s.gettemperature k =
    .ok (latest (fun a => carriedByte a.2.temperature) 0 messages)
  highestServo : s.gethighestServo k =
    .ok (latest (fun a => carriedByte a.2.highestServo) 0 messages)
  command : s.getcommand k =
    .ok (latest (fun a => carriedText d.numToCommand a.2.command) [] messages)
  currentBehaviorName : s.getcurrentBehaviorName k =
    .ok (latest (fun a => carriedText d.numToBehaviorName a.2.currentBehaviorName) []
      messages)
  recvTime : s.getrecvTime k = .ok (latest (fun a => some a.1) start messages)
  ourRobotGl : s.getourRobotGl k =
    .ok (latest (fun a => carriedPoses a.2.ourRobotGl) [] messages)
  enemyRobotGl : s.getenemyRobotGl k =
    .ok (latest (fun a => carriedPoses a.2.enemyRobotGl) [] messages)
  blackPoleGl : s.getblackPoleGl k =
    .ok (latest (fun a => carriedPoses a.2.blackPoleGl) [] messages)
  targetPosVec : s.gettargetPosVec k =
    .ok (latest (fun a => carriedPoses a.2.targetPosVec) [] messages)
  ballGlCf : s.getballGlCf k =
    .ok (latest (fun a => carriedPos2DCf a.2.ballGlCf) {} messages)
  selfPosCf : s.getselfPosCf k =
    .ok (latest (fun a => carriedPos2DCf a.2.selfPosCf) {} messages)

section writeAll

variable (d : SerializeStringByDict) (e : OtherRobotInfomation)
  (messages : List (ℚ × SharingData))

/-- A field that `write` replaces by what the message carries. -/
theorem read_writeAll {β : Type} {read : OtherRobotInfomation → β}
    {carried : ℚ × SharingData → Option β}
    (h : ∀ e a, read (OtherRobotInfomation.write d e a.1 a.2) =
      (carried a).getD (read e)) :
    read (e.writeAll d messages) = latest carried (read e) messages :=
  Lib.read_foldl h e messages

/-- The flags go through an unsigned cell and come back as the byte sent. -/
theorem map_flagsToInt32_carriedFlags (field : Option Bytes) :
    (carriedFlags field).map flagsToInt32 = carriedByte field := by
  have hback (b : Int) (h : -128 ≤ b ∧ b < 128) :
      flagsToInt32 (b % 2 ^ 32).toNat = b := by
    unfold flagsToInt32
    rw [Int.bmod]
    omega
  match field with
  | none => rfl
  | some [] => rfl
  | some (c :: _) =>
      simp only [carriedFlags, carriedByte, Option.map_some, hback _ (charToInt_range c)]

theorem status_writeAll :
    flagsToInt32 (e.writeAll d messages).status =
      latest (fun a => carriedByte a.2.status) (flagsToInt32 e.status) messages := by
  have h : (e.writeAll d messages).status =
      latest (fun a => carriedFlags a.2.status) e.status messages :=
    read_writeAll d e messages fun _ _ => rfl
  rw [h, Lib.map_latest flagsToInt32]
  simp only [map_flagsToInt32_carriedFlags]

end writeAll

theorem Tracks.showsLatest {d : SerializeStringByDict} {k id : Int} {s : InfoShare}
    {start : ℚ} {messages : List (ℚ × SharingData)}
    (h : Tracks d k s ((OtherRobotInfomation.new id start).writeAll d messages)) :
    ShowsLatest d start messages k s := by
  have hget {β : Type} (zero : β) {read : OtherRobotInfomation → β}
      {carried : ℚ × SharingData → Option β}
      (hread : ∀ e a, read (OtherRobotInfomation.write d e a.1 a.2) =
        (carried a).getD (read e)) :
      s.getter zero read k =
        .ok (latest carried (read (OtherRobotInfomation.new id start)) messages) := by
    rw [h.getter, read_writeAll d _ messages hread]
  constructor
  · have hzero : flagsToInt32 (OtherRobotInfomation.new id start).status = 0 :=
      Int.zero_bmod
    rw [getstatus, h.getter, status_writeAll, hzero]
  · exact hget _ fun _ _ => rfl
  · exact hget _ fun _ _ => rfl
  · exact hget _ fun _ _ => rfl
  · exact hget _ fun _ _ => rfl
  · exact hget _ fun _ _ => rfl
  · exact hget _ fun _ _ => rfl
  · exact hget _ fun _ _ => rfl
  · exact hget _ fun _ _ => rfl
  · exact hget _ fun _ _ => rfl
  · exact hget _ fun _ _ => rfl
  · exact hget _ fun _ _ => rfl
  · exact hget _ fun _ _ => rfl
  · exact hget _ fun _ _ => rfl

theorem new_robotDataList {commandFile behaviorFile : Bytes} {robot : InfoShare}
    (h : InfoShare.new commandFile behaviorFile = some robot) :
    robot.robotDataList = [] := by
  unfold InfoShare.new at h
  cases hd : SerializeStringByDict.new commandFile behaviorFile with
  | none => rw [hd] at h; cases h
  | some d => rw [hd] at h; cases h; rfl

/-- After `setup` the entry of every teammate is a new one. -/
theorem tracks_setup {args : SetupArgs} {clock : Nat → ℚ} {robot s : InfoShare}
    {flag : Bool} (hnil : robot.robotDataList = [])
    (hsetup : robot.setup args .completed clock false = some (flag, s)) {k : Int}
    (hk : 1 ≤ k ∧ k ≤ numPlayers) (hother : k ≠ args.selfId) :
    Tracks robot.dictionary k s
      (OtherRobotInfomation.new (k - 1).toNat (clock (k - 1).toNat)) := by
  obtain ⟨hs, hself, -, hentries, hdict⟩ := setup_completed hnil hsetup
  refine ⟨hs, by rw [hdict]; exact .refl _, by rw [hself]; exact hother, ?_⟩
  have hlt : (k - 1).toNat < numPlayers.toNat := by
    have := hk.2
    unfold numPlayers at this ⊢
    omega
  rw [entryAt_eq_some, hentries]
  refine ⟨by omega, ?_⟩
  rw [newEntries, List.getElem?_map, List.getElem?_range hlt, Option.map_some]

/-- After any run every getter for a teammate `k` shows, of the messages
accepted from `k`, the latest that carried its field. Everything else in the
run is free: any other run with the same datagrams of `k` and the same changes
of colour, in the same order, shows the same. -/
theorem run_showsLatest {pb : Protobuf} {commandFile behaviorFile : Bytes}
    {robot s : InfoShare} (hnew : InfoShare.new commandFile behaviorFile = some robot)
    {args : SetupArgs} {clock : Nat → ℚ} {flag : Bool}
    (hsetup : robot.setup args .completed clock false = some (flag, s))
    {events : List Event} (hids : ∀ event ∈ events, event.NamesRobot pb)
    {k : Int} (hk : 1 ≤ k ∧ k ≤ numPlayers) (hother : k ≠ args.selfId) :
    (∃ s', s.run pb events = .ok s' ∧
        ShowsLatest robot.dictionary (clock (k - 1).toNat)
          (accepted pb k args.ourColor events) k s') ∧
      ∀ events' : List Event, (∀ event ∈ events', event.NamesRobot pb) →
        events'.filter (Event.concerns pb k) = events.filter (Event.concerns pb k) →
        ∃ s', s.run pb events' = .ok s' ∧
          ShowsLatest robot.dictionary (clock (k - 1).toNat)
            (accepted pb k args.ourColor events) k s' := by
  have hstart := tracks_setup (new_robotDataList hnew) hsetup hk hother
  have hcolor := (setup_completed (new_robotDataList hnew) hsetup).2.2.1
  refine ⟨?_, ?_⟩
  · obtain ⟨s', hrun, htracks⟩ := run_tracks hids hstart
    rw [hcolor] at htracks
    exact ⟨s', hrun, htracks.showsLatest⟩
  · intro events' hids' hsame
    obtain ⟨s', hrun, htracks⟩ := run_tracks hids' hstart
    rw [hcolor, ← accepted_filter, hsame, accepted_filter] at htracks
    exact ⟨s', hrun, htracks.showsLatest⟩

theorem idByte_fpsReport (id fps team : UInt8) :
    idByte (wire.parseFromString (fpsReport id fps team)).2 = some (charToInt id) :=
  rfl

/-- Robot 2 reports a frame rate, the receiver changes sides, and robot 2's
next report is the other team's. -/
theorem run_showsLatest_sideChange :
    ∃ s', (sampleRobot 1 colorMagenta).run wire
        [.datagram 3 (fpsReport 2 77 5), .changeColor colorCyan,
          .datagram 4 (fpsReport 2 78 5)] = .ok s' ∧
      s'.getfps 2 = .ok 77 ∧ s'.getrecvTime 2 = .ok 3 := by
  have haccepted : accepted wire 2 colorMagenta
      [.datagram 3 (fpsReport 2 77 5), .changeColor colorCyan,
        .datagram 4 (fpsReport 2 78 5)] =
      [(3, { id := some [2], fps := some [77], teamColor := some [5] })] := by
    decide +kernel
  have hids : ∀ event ∈ [Event.datagram 3 (fpsReport 2 77 5), .changeColor colorCyan,
      .datagram 4 (fpsReport 2 78 5)], event.NamesRobot wire := by
    intro event hevent
    fin_cases hevent
    · intro id h
      rw [idByte_fpsReport] at h
      cases h
      decide
    · trivial
    · intro id h
      rw [idByte_fpsReport] at h
      cases h
      decide
  obtain ⟨⟨s', hrun, hshows⟩, -⟩ := run_showsLatest freshRobot_new
    (sampleRobot_setup 1 (Or.inl rfl)) hids (k := 2) (by decide) (by decide)
  rw [haccepted] at hshows
  exact ⟨s', hrun, hshows.fps, hshows.recvTime⟩

end InfoShare

end Playspace.Citbrains
