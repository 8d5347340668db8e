import Playspace.Lib.Machine
import Playspace.Proofs.EndToEnd

/-!
# A network of robots that were set up

Robots join by a `setup` that runs to its end, and from then on anything goes:
calls in any order, datagrams lost, doubled, reordered, cut to the receiver's
buffer, and delivered to whomever. What stops a run is a null pointer or an index
out of range in the class; a call of `sendCommonInfo` that hangs or throws is one
that nobody hears. The invariant is that every robot is a set
up one with a player's id and that everything on the network was packed by such
a robot. It needs the ids to be right when the robots join, and that is the one
thing `setup` does not see to: its assertion about the id holds of every
integer.
-/

namespace Playspace.Citbrains.InfoShare

open CitbrainsMessage (SharingData wire)

/-- The robots that joined and the datagrams that were sent, oldest first. -/
structure Network where
  robots : List InfoShare
  sent : List Datagram

/-- `join` is a new object and the `setup` that completes it, both sockets open
with the options they ask for; the other events name a robot by its place in the
list. `deliver` is the arrival of the first `size` bytes of a datagram. -/
inductive NetEvent where
  | join (commandFile behaviorFile : Bytes) (args : SetupArgs) (clock : Nat → ℚ)
  | setup (robot : Nat) (args : SetupArgs) (stop : SetupEnd) (clock : Nat → ℚ)
  | changeColor (robot : Nat) (color : Int)
  | sendCommonInfo (robot : Nat) (info : CommonInfo)
  | terminate (robot : Nat)
  | deliver (robot datagram size : Nat) (now : ℚ)

/-- The most a UDP datagram holds; a longer one never arrives. -/
def maxDatagram : Nat := 65507

/-- A call on one robot of the network, if there is one at that place. -/
def Network.call (net : Network) (robot : Nat)
    (f : InfoShare → Except Stop InfoShare) : Except Stop Network :=
  match net.robots[robot]? with
  | none => .ok net
  | some s => (f s).map fun s' => { net with robots := net.robots.set robot s' }

/-- A robot that joined is the one its process set up, so a further call of
`setup` finds the flag set. A call whose encoder hangs sends nothing, and the
others go on. -/
def netStep (pb : Protobuf) (fc : FloatCast) (net : Network) :
    NetEvent → Except Stop Network
  | .join commandFile behaviorFile args clock =>
      match InfoShare.new commandFile behaviorFile with
      | none => .ok net
      | some s =>
          match s.setup args .completed clock false with
          | none => .ok net
          | some (_, s') => .ok { net with robots := net.robots ++ [s'] }
  | .setup robot args stop clock =>
      net.call robot fun s => .ok (((s.setup args stop clock true).map Prod.snd).getD s)
  | .changeColor robot color => net.call robot fun s => .ok (s.changeColor color)
  | .sendCommonInfo robot info =>
      match net.robots[robot]? with
      | none => .ok net
      | some s =>
          match s.sendCommonInfo pb fc info with
          | .ok ds => .ok { net with sent := net.sent ++ ds }
          | .error .diverges => .ok net
          | .error f => .error f
  | .terminate robot => net.call robot terminate
  | .deliver robot datagram size now =>
      match net.sent[datagram]? with
      | none => .ok net
      | some d =>
          if d.bytes.length ≤ maxDatagram then
            net.call robot fun s => s.receivedDataHandler pb now (d.bytes.take size)
          else .ok net

/-- The robot's id is a player's number and its colour is one of the two. -/
structure IsPlayer (s : InfoShare) : Prop where
  selfId : 1 ≤ s.selfId ∧ s.selfId ≤ numPlayers
  ourColor : s.ourColor = colorMagenta ∨ s.ourColor = colorCyan

/-- The datagram is a message with a player's number for its id byte. -/
def FromPlayer (pb : Protobuf) (d : Datagram) : Prop :=
  ∃ m id, m.WellFormed ∧ d.bytes = pb.serializeAsString m ∧ idByte m = some id ∧
    1 ≤ id ∧ id ≤ numPlayers

structure Network.Sound (pb : Protobuf) (net : Network) : Prop where
  robots : ∀ s ∈ net.robots, s.SetUp ∧ 1 ≤ s.selfId ∧ s.selfId ≤ numPlayers
  sent : ∀ d ∈ net.sent, FromPlayer pb d

/-- What a robot is started with. -/
structure Join where
  commandFile : Bytes
  behaviorFile : Bytes
  args : SetupArgs
  clock : Nat → ℚ

/-- The dictionaries can be made, and the assertions of `setup` and of the socket
constructors hold. -/
def Join.Completes (j : Join) : Prop :=
  (InfoShare.new j.commandFile j.behaviorFile).isSome ∧ setupAsserts j.args ∧
    modeAssert j.args

instance (j : Join) : Decidable j.Completes :=
  inferInstanceAs (Decidable (_ ∧ _))

/-- A robot that joins. -/
def NetEvent.joined : NetEvent → Option Join
  | .join commandFile behaviorFile args clock =>
      let j : Join := ⟨commandFile, behaviorFile, args, clock⟩
      if j.Completes then some j else none
  | _ => none

/-- If it is a robot that joins, it has a player's number. -/
def NetEvent.JoinsPlayer (e : NetEvent) : Prop :=
  ∀ j, e.joined = some j → 1 ≤ j.args.selfId ∧ j.args.selfId ≤ numPlayers

theorem NetEvent.joinsPlayer_join {commandFile behaviorFile : Bytes} {args : SetupArgs}
    {clock : Nat → ℚ} (h : 1 ≤ args.selfId ∧ args.selfId ≤ numPlayers) :
    (NetEvent.join commandFile behaviorFile args clock).JoinsPlayer := by
  intro j hj
  simp only [NetEvent.joined, Option.ite_none_right_eq_some, Option.some.injEq] at hj
  obtain ⟨-, rfl⟩ := hj
  exact h

theorem NetEvent.joinsPlayer_of_joined {e : NetEvent} (h : e.joined = none) :
    e.JoinsPlayer := by
  intro j hj
  rw [h] at hj
  cases hj

variable {pb : Protobuf} {fc : FloatCast} {net : Network}

/-- A call that keeps a set up robot set up, with its id, keeps the network. -/
theorem Network.Sound.call (h : net.Sound pb) (robot : Nat)
    {f : InfoShare → Except Stop InfoShare}
    (hf : ∀ s : InfoShare, s.SetUp → ∃ s', f s = .ok s' ∧ s'.SetUp ∧ s'.selfId = s.selfId) :
    ∃ net', net.call robot f = .ok net' ∧ net'.Sound pb := by
  unfold Network.call
  split
  · exact ⟨net, rfl, h⟩
  · next s hs =>
      obtain ⟨hsetUp, hid⟩ := h.robots s (List.mem_of_getElem? hs)
      obtain ⟨s', hcall, hsetUp', hid'⟩ := hf s hsetUp
      refine ⟨{ net with robots := net.robots.set robot s' }, ?_, ?_, h.sent⟩
      · rw [hcall]
        rfl
      · intro r hr
        obtain hr | rfl := List.mem_or_eq_of_mem_set hr
        · exact h.robots r hr
        · exact ⟨hsetUp', by rw [hid']; exact hid⟩

theorem setup_again (s : InfoShare) (args : SetupArgs) (stop : SetupEnd)
    (clock : Nat → ℚ) : s.setup args stop clock true = some (true, s) := by
  rw [setup, if_pos rfl]

theorem SetUp.terminate {s : InfoShare} (h : s.SetUp) :
    ∃ s', s.terminate = .ok s' ∧ s'.SetUp ∧ s'.selfId = s.selfId := by
  obtain ⟨server, hserver⟩ := Option.isSome_iff_exists.mp h.server
  obtain ⟨client, hclient⟩ := Option.isSome_iff_exists.mp h.client
  refine ⟨{ s with
      terminated := true
      server := some { server with terminated := true }
      client := some { client with terminated := true } }, ?_,
    ⟨h.entries, rfl, rfl, h.color⟩, rfl⟩
  rw [InfoShare.terminate, hserver, hclient]

theorem selfId_changeColor (s : InfoShare) (color : Int) :
    (s.changeColor color).selfId = s.selfId := by
  unfold changeColor
  split
  · rfl
  · rfl

/-- A cut message still has the id it was sent with, or none. -/
theorem FromPlayer.namesRobot {d : Datagram} (h : FromPlayer pb d)
    (hsize : d.bytes.length ≤ maxDatagram) (size : Nat) (now : ℚ) :
    (Event.datagram now (d.bytes.take size)).NamesRobot pb := by
  obtain ⟨m, id, hm, hbytes, hid, hrange⟩ := h
  rw [hbytes] at hsize ⊢
  have hcut := pb.parse_take m size hm (by unfold maxDatagram at hsize; omega)
  intro id' hid'
  generalize (pb.parseFromString ((pb.serializeAsString m).take size)).2 = m' at hcut hid'
  simp only [idByte, Option.map_eq_some_iff, List.head?_eq_some_iff] at hid hid'
  obtain ⟨c, ⟨ids, hc⟩, rfl⟩ := hid
  obtain ⟨c', ⟨ids', hc'⟩, rfl⟩ := hid'
  rw [hc, hc'] at hcut
  obtain rfl := (List.cons_prefix_cons.mp hcut).1
  exact hrange

theorem SetUp.receive {s : InfoShare} (h : s.SetUp) {now : ℚ} {data : Bytes}
    (hid : (Event.datagram now data).NamesRobot pb) :
    ∃ s', s.receivedDataHandler pb now data = .ok s' ∧ s'.SetUp ∧
      s'.selfId = s.selfId := by
  obtain ⟨s', hcall⟩ := h.handler_ok now fun id hacc => hid id hacc.sender
  refine ⟨s', hcall, ?_⟩
  obtain ⟨rfl, -⟩ | ⟨id, e, -, -, rfl⟩ := handler_cases hcall
  · exact ⟨h, rfl⟩
  · exact ⟨h.stored now _ id e, rfl⟩

/-- What a set up player sends is a message from a player. -/
theorem sendCommonInfo_fromPlayer {s : InfoShare}
    (hid : 1 ≤ s.selfId ∧ s.selfId ≤ numPlayers) {info : CommonInfo}
    {ds : List Datagram} (hsend : s.sendCommonInfo pb fc info = .ok ds) {d : Datagram}
    (hd : d ∈ ds) : FromPlayer pb d := by
  obtain ⟨command, behaviorName, -, -, -, hbytes⟩ := sendCommonInfo_cases hsend
  exact ⟨_, s.selfId, sharingData_wellFormed fc s info command behaviorName, hbytes d hd,
    idByte_sharingData fc (player_small hid) info command behaviorName, hid⟩

theorem sendCommonInfo_setUp (pb : Protobuf) (fc : FloatCast) {s : InfoShare}
    (h : s.SetUp) (info : CommonInfo) :
    (∃ ds, s.sendCommonInfo pb fc info = .ok ds) ∨
      s.sendCommonInfo pb fc info = .error .diverges := by
  obtain ⟨client, hclient⟩ := Option.isSome_iff_exists.mp h.client
  unfold sendCommonInfo
  split
  · simp only [hclient]
    split
    · exact Or.inl ⟨_, rfl⟩
    · exact Or.inl ⟨_, rfl⟩
  · exact Or.inr rfl

/-- Whether a robot joins is decided by what it is started with. -/
theorem netStep_join (pb : Protobuf) (fc : FloatCast) (net : Network)
    (commandFile behaviorFile : Bytes) (args : SetupArgs) (clock : Nat → ℚ) :
    (NetEvent.join commandFile behaviorFile args clock).joined = none ∧
        netStep pb fc net (.join commandFile behaviorFile args clock) = .ok net ∨
      ∃ created flag s,
        (NetEvent.join commandFile behaviorFile args clock).joined =
          some ⟨commandFile, behaviorFile, args, clock⟩ ∧
        InfoShare.new commandFile behaviorFile = some created ∧
        created.setup args .completed clock false = some (flag, s) ∧
        netStep pb fc net (.join commandFile behaviorFile args clock) =
          .ok { net with robots := net.robots ++ [s] } := by
  cases hnew : InfoShare.new commandFile behaviorFile with
  | none =>
      left
      simp only [NetEvent.joined, Join.Completes, netStep, hnew]
      exact ⟨if_neg (by simp), trivial⟩
  | some created =>
      by_cases hasserts : setupAsserts args ∧ modeAssert args
      · right
        have hjoined : (NetEvent.join commandFile behaviorFile args clock).joined =
            some ⟨commandFile, behaviorFile, args, clock⟩ := by
          simp only [NetEvent.joined, Join.Completes, hnew]
          exact if_pos ⟨rfl, hasserts⟩
        have hsetup : ∃ s, created.setup args .completed clock false = some (true, s) := by
          unfold setup
          rw [if_neg (by simp), if_neg (not_not.mpr hasserts.1)]
          exact ⟨_, if_pos hasserts.2⟩
        obtain ⟨s, hsetup⟩ := hsetup
        refine ⟨created, true, s, hjoined, rfl, hsetup, ?_⟩
        simp only [netStep, hnew, hsetup]
      · left
        have hsetup : created.setup args .completed clock false = none := by
          unfold setup
          rw [if_neg (by simp)]
          split
          · rfl
          · next hsetup => exact if_neg fun hmode => hasserts ⟨not_not.mp hsetup, hmode⟩
        simp only [NetEvent.joined, Join.Completes, netStep, hnew, hsetup]
        exact ⟨if_neg fun h => hasserts h.2, trivial⟩

/-- No event stops a sound network, and every event keeps it sound. -/
theorem netStep_sound (h : net.Sound pb) {e : NetEvent} (he : e.JoinsPlayer) :
    ∃ net', netStep pb fc net e = .ok net' ∧ net'.Sound pb := by
  cases e with
  | join commandFile behaviorFile args clock =>
      obtain ⟨-, hstep⟩ | ⟨created, flag, s, hjoined, hnew, hsetup, hstep⟩ :=
        netStep_join pb fc net commandFile behaviorFile args clock
      · exact ⟨net, hstep, h⟩
      · obtain ⟨hsetUp, hid, -⟩ := setup_completed (new_robotDataList hnew) hsetup
        refine ⟨_, hstep, ?_, h.sent⟩
        intro r hr
        obtain hr | hr := List.mem_append.mp hr
        · exact h.robots r hr
        · obtain rfl := List.mem_singleton.mp hr
          exact ⟨hsetUp, by rw [hid]; exact he _ hjoined⟩
  | setup robot args stop clock =>
      refine h.call robot fun s hs => ⟨s, ?_, hs, rfl⟩
      rw [setup_again]
      rfl
  | changeColor robot color =>
      exact h.call robot fun s hs =>
        ⟨_, rfl, hs.changeColor color, selfId_changeColor s color⟩
  | sendCommonInfo robot info =>
      simp only [netStep]
      cases hs : net.robots[robot]? with
      | none => exact ⟨net, rfl, h⟩
      | some s =>
          obtain ⟨hsetUp, hid⟩ := h.robots s (List.mem_of_getElem? hs)
          obtain ⟨ds, hsend⟩ | hsend := sendCommonInfo_setUp pb fc hsetUp info
          · simp only [hsend]
            refine ⟨_, rfl, h.robots, ?_⟩
            intro d hd
            obtain hd | hd := List.mem_append.mp hd
            · exact h.sent d hd
            · exact sendCommonInfo_fromPlayer hid hsend hd
          · simp only [hsend]
            exact ⟨net, rfl, h⟩
  | terminate robot => exact h.call robot fun s hs => hs.terminate
  | deliver robot datagram size now =>
      simp only [netStep]
      cases hd : net.sent[datagram]? with
      | none => exact ⟨net, rfl, h⟩
      | some d =>
          have hfrom := h.sent d (List.mem_of_getElem? hd)
          simp only
          split
          · next hsize =>
              exact h.call robot fun s hs => hs.receive (hfrom.namesRobot hsize size now)
          · exact ⟨net, rfl, h⟩

/-- If every robot joins with a player's number, no run of the network ever
stops: in every state of it the robots are players, and what they send comes
from players. -/
theorem network_sound {events : List NetEvent}
    (hjoins : ∀ e ∈ events, e.JoinsPlayer) :
    ∃ net, Lib.runs (netStep pb fc) ⟨[], []⟩ events = .ok net ∧
      (∀ s ∈ net.robots, IsPlayer s) ∧ ∀ d ∈ net.sent, FromPlayer pb d := by
  have hstart : Network.Sound pb ⟨[], []⟩ := ⟨by simp, by simp⟩
  have hstep : ∀ (net : Network) (e : NetEvent), net.Sound pb → e.JoinsPlayer →
      ∃ net', netStep pb fc net e = .ok net' ∧ net'.Sound pb :=
    fun _ _ h he => netStep_sound h he
  obtain ⟨net, hrun, hsound⟩ := Lib.runs_total hstep hstart hjoins
  refine ⟨net, hrun, ?_, hsound.sent⟩
  intro s hs
  obtain ⟨hsetUp, hid⟩ := hsound.robots s hs
  exact ⟨hid, hsetUp.color⟩

/-- `setup` takes robot 7, robot 7 sends, and robot 1 indexes its list with 6. -/
theorem network_robotSeven :
    freshRobot.setup ⟨broadcastMode, 7, colorMagenta, ascii "192.168.4.160"⟩ .completed
        (fun _ => 0) false = some (true, sampleRobot 7 colorMagenta) ∧
      ¬ IsPlayer (sampleRobot 7 colorMagenta) ∧
      (sampleRobot 7 colorMagenta).sendCommonInfo wire .wrapping sampleInfo =
        .ok [sampleDatagram 7 sampleInfo] ∧
      (sampleRobot 1 colorMagenta).receivedDataHandler wire 0
        (sampleDatagram 7 sampleInfo).bytes = .error (.outOfRange 6) := by
  refine ⟨sampleRobot_setup 7 (Or.inl rfl), fun h => absurd h.selfId (by decide),
    sampleRobot_sendCommonInfo 7 rfl rfl, ?_⟩
  have hparse := wire.parse_serialize _ (sharingData_wellFormed .wrapping
    (sampleRobot 7 colorMagenta) sampleInfo [1] [1]) (by decide +kernel)
  have hacc : (sampleRobot 1 colorMagenta).Accepts (wire.parseFromString
      (sampleDatagram 7 sampleInfo).bytes).2 7 := by
    rw [sampleDatagram, hparse]
    exact ⟨teamByte_sharingData .wrapping (Or.inl rfl) sampleInfo [1] [1],
      idByte_sharingData .wrapping (by decide) sampleInfo [1] [1], by decide⟩
  rw [handler_accepts hacc]
  rfl

/-- Robots 1 and 2 join, and robot 1 hears robot 2. -/
theorem network_sound_pair : ∃ net,
    Lib.runs (netStep wire .wrapping) ⟨[], []⟩
      [.join (ascii "FreeKick") (ascii "Ready")
          ⟨broadcastMode, 1, colorMagenta, ascii "192.168.4.160"⟩ (fun _ => 0),
        .join (ascii "FreeKick") (ascii "Ready")
          ⟨broadcastMode, 2, colorMagenta, ascii "192.168.4.161"⟩ (fun _ => 0),
        .sendCommonInfo 1 sampleInfo, .deliver 0 0 1024 0] = .ok net ∧
      (∀ s ∈ net.robots, IsPlayer s) ∧ ∀ d ∈ net.sent, FromPlayer wire d := by
  refine network_sound ?_
  intro e he
  fin_cases he
  · exact NetEvent.joinsPlayer_join ⟨by decide, by decide⟩
  · exact NetEvent.joinsPlayer_join ⟨by decide, by decide⟩
  · exact NetEvent.joinsPlayer_of_joined rfl
  · exact NetEvent.joinsPlayer_of_joined rfl

end Playspace.Citbrains.InfoShare
