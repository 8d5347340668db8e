import Playspace.Proofs.TeamView

/-!
# Agreement of the robots, and whom a call addresses

Two robots may have missed different datagrams and been handed others twice, but
a packed message carries every field that is not a list, so the one they heard
last decides what both show. The lists are the exception: an empty one is not
carried, and each robot keeps what it has.

Whether there is anything to hear depends on the mode the robots were set up
for. `sendCommonInfo_addressed` counts the datagrams of a call that are for a
given robot's port. In broadcast and unicast mode the teammates get one each; in
multicast mode every robot sends to the port it listens on itself, which nobody
else does.
-/

namespace Playspace.Citbrains.InfoShare

open CitbrainsMessage (SharingData wire)
open Playspace.Lib (latest)

variable {pb : Protobuf} {fc : FloatCast}

/-- Two robots show the same of player `k`, but for the time and for the lists
that are empty in the message `m`. -/
structure SameView (m : SharingData) (k : Int) (s s' : InfoShare) : Prop where
  status : s.getstatus k = s'.getstatus k
  fps : s.getfps k = s'.getfps k
  voltage : s.getvoltage k = s'.getvoltage k
  temperature : s.gettemperature k = s'.gettemperature k
  highestServo : s.gethighestServo k = s'.gethighestServo k
  command : s.getcommand k = s'.getcommand k
  currentBehaviorName : s.getcurrentBehaviorName k = s'.getcurrentBehaviorName k
  ballGlCf : s.getballGlCf k = s'.getballGlCf k
  selfPosCf : s.getselfPosCf k = s'.getselfPosCf k
  ourRobotGl : m.ourRobotGl ≠ [] → s.getourRobotGl k = s'.getourRobotGl k
  enemyRobotGl : m.enemyRobotGl ≠ [] → s.getenemyRobotGl k = s'.getenemyRobotGl k
  blackPoleGl : m.blackPoleGl ≠ [] → s.getblackPoleGl k = s'.getblackPoleGl k
  targetPosVec : m.targetPosVec ≠ [] → s.gettargetPosVec k = s'.gettargetPosVec k

/-- A field the last message carries is that message's, whatever came before. -/
theorem shown_latest_eq {β : Type} {f : ℚ × SharingData → Option β} {init init' : β}
    {now now' : ℚ} {m : SharingData} {log log' : List (ℚ × SharingData)}
    {shown shown' : Except Stop β}
    (h : shown = .ok (latest f init (log ++ [(now, m)])))
    (h' : shown' = .ok (latest f init' (log' ++ [(now', m)])))
    (hsome : (f (now, m)).isSome) (hsame : f (now', m) = f (now, m)) : shown = shown' := by
  obtain ⟨b, hb⟩ := Option.isSome_iff_exists.mp hsome
  rw [Lib.latest_concat, hb] at h
  rw [Lib.latest_concat, hsame, hb] at h'
  rw [h, h']
  rfl

/-- Two views that end with one packed message are the same. -/
theorem ShowsLatest.sameView {dict : SerializeStringByDict} {start start' : ℚ}
    {log log' : List (ℚ × SharingData)} {now now' : ℚ} {k : Int} {s s' sender : InfoShare}
    {info : CommonInfo} {command behaviorName : Bytes}
    (h : ShowsLatest dict start
      (log ++ [(now, sender.sharingData fc info command behaviorName)]) k s)
    (h' : ShowsLatest dict start'
      (log' ++ [(now', sender.sharingData fc info command behaviorName)]) k s') :
    SameView (sender.sharingData fc info command behaviorName) k s s' := by
  have hposes {poses : List CitbrainsMessage.Pos2D} (hne : poses ≠ []) :
      (carriedPoses poses).isSome := by
    rw [carriedPoses, if_neg hne]
    rfl
  constructor
  · exact shown_latest_eq h.status h'.status rfl rfl
  · exact shown_latest_eq h.fps h'.fps rfl rfl
  · exact shown_latest_eq h.voltage h'.voltage rfl rfl
  · exact shown_latest_eq h.temperature h'.temperature rfl rfl
  · exact shown_latest_eq h.highestServo h'.highestServo rfl rfl
  · exact shown_latest_eq h.command h'.command rfl rfl
  · exact shown_latest_eq h.currentBehaviorName h'.currentBehaviorName rfl rfl
  · exact shown_latest_eq h.ballGlCf h'.ballGlCf rfl rfl
  · exact shown_latest_eq h.selfPosCf h'.selfPosCf rfl rfl
  · exact fun hne => shown_latest_eq h.ourRobotGl h'.ourRobotGl (hposes hne) rfl
  · exact fun hne => shown_latest_eq h.enemyRobotGl h'.enemyRobotGl (hposes hne) rfl
  · exact fun hne => shown_latest_eq h.blackPoleGl h'.blackPoleGl (hposes hne) rfl
  · exact fun hne => shown_latest_eq h.targetPosVec h'.targetPosVec (hposes hne) rfl

/-- The files a robot joins with decide its dictionary. -/
theorem JoinedAs.dictionary {events : List NetEvent} {robot robot' : Nat}
    {s s' : InfoShare} {dict dict' : SerializeStringByDict} {clock clock' : Nat → ℚ}
    (h : JoinedAs events robot s dict clock) (h' : JoinedAs events robot' s' dict' clock')
    {j j' : Join} (hj : (joins events)[robot]? = some j)
    (hj' : (joins events)[robot']? = some j') (hcommand : j.commandFile = j'.commandFile)
    (hbehavior : j.behaviorFile = j'.behaviorFile) : dict = dict' := by
  obtain ⟨j₁, created, hj₁, hnew, rfl, -⟩ := h.join
  obtain ⟨j₂, created', hj₂, hnew', rfl, -⟩ := h'.join
  obtain rfl : j₁ = j := Option.some.inj (hj₁.symm.trans hj)
  obtain rfl : j₂ = j' := Option.some.inj (hj₂.symm.trans hj')
  rw [hcommand, hbehavior] at hnew
  rw [Option.some.inj (hnew.symm.trans hnew')]

/-- Two robots of one run that load the same files show the same of player `k`
as soon as the last message they heard of it is the same packed one. What each
of them heard, missed or was handed twice before that is forgotten. -/
theorem network_sameView {events : List NetEvent}
    (hjoins : ∀ e ∈ events, e.JoinsPlayer) {robot robot' : Nat} {j j' : Join}
    (hj : (joins events)[robot]? = some j) (hj' : (joins events)[robot']? = some j')
    (hcommand : j.commandFile = j'.commandFile) (hbehavior : j.behaviorFile = j'.behaviorFile)
    {k : Int} (hk : 1 ≤ k ∧ k ≤ numPlayers) {now now' : ℚ}
    {log log' : List (ℚ × SharingData)} {sender : InfoShare} {info : CommonInfo}
    {command behaviorName : Bytes}
    (hheard : heard pb fc robot k events =
      log ++ [(now, sender.sharingData fc info command behaviorName)])
    (hheard' : heard pb fc robot' k events =
      log' ++ [(now', sender.sharingData fc info command behaviorName)]) :
    ∃ net, Lib.runs (netStep pb fc) ⟨[], []⟩ events = .ok net ∧
      ∀ s s', net.robots[robot]? = some s → net.robots[robot']? = some s' →
        k ≠ s.selfId → k ≠ s'.selfId →
        SameView (sender.sharingData fc info command behaviorName) k s s' := by
  obtain ⟨net, h⟩ := observes_run pb fc hjoins
  refine ⟨net, h.run, ?_⟩
  intro s s' hs hs' hother hother'
  obtain ⟨dict, clock, hview⟩ := h.views robot s hs
  obtain ⟨dict', clock', hview'⟩ := h.views robot' s' hs'
  obtain rfl := hview.joined.dictionary hview'.joined hj hj' hcommand hbehavior
  have hshows := (hview.tracks k hk hother).showsLatest
  have hshows' := (hview'.tracks k hk hother').showsLatest
  rw [hheard] at hshows
  rw [hheard'] at hshows'
  exact hshows.sameView hshows'

theorem sampleJoin_joined (selfId : Int) : (sampleJoin selfId).joined =
    some ⟨ascii "FreeKick", ascii "Ready",
      ⟨broadcastMode, selfId, colorMagenta, ascii "192.168.4.160"⟩, fun _ => 0⟩ := by
  refine if_pos ⟨Option.isSome_iff_exists.mpr ⟨_, freshRobot_new⟩, ⟨?_, Or.inl rfl⟩,
    Int.le_refl 0, Int.zero_le_ofNat 2⟩
  show numPlayers ≥ selfId ∨ selfId ≥ 1
  unfold numPlayers
  omega

theorem joins_sampleTeam (robot : Nat) (hrobot : robot < 3) : ∃ selfId,
    (joins sampleTeam)[robot]? = some ⟨ascii "FreeKick", ascii "Ready",
      ⟨broadcastMode, selfId, colorMagenta, ascii "192.168.4.160"⟩, fun _ => 0⟩ := by
  have hteam : joins sampleTeam = [1, 2, 3].filterMap fun selfId =>
      (sampleJoin selfId).joined := rfl
  rw [hteam]
  simp only [List.filterMap_cons, sampleJoin_joined, List.filterMap_nil]
  interval_cases robot
  · exact ⟨1, rfl⟩
  · exact ⟨2, rfl⟩
  · exact ⟨3, rfl⟩

/-- Robots 1 and 2 agree on robot 3, though one of them heard it three times. -/
theorem network_sameView_team :
    ∃ net, Lib.runs (netStep wire .wrapping) ⟨[], []⟩ sampleTeam = .ok net ∧
      ∀ s s', net.robots[0]? = some s → net.robots[1]? = some s' →
        3 ≠ s.selfId → 3 ≠ s'.selfId →
        SameView (sampleMessage sampleInfo) 3 s s' := by
  have hheard : heard wire .wrapping 0 3 sampleTeam =
      [(1, sampleMessage sampleFast), (2, sampleMessage sampleFast)] ++
        [(3, (sampleRobot 3 colorMagenta).sharingData .wrapping sampleInfo [1] [1])] :=
    sampleTeam_heard.1
  have hheard' : heard wire .wrapping 1 3 sampleTeam =
      [] ++ [(4, (sampleRobot 3 colorMagenta).sharingData .wrapping sampleInfo [1] [1])] :=
    sampleTeam_heard.2
  obtain ⟨selfId, hj⟩ := joins_sampleTeam 0 (by decide)
  obtain ⟨selfId', hj'⟩ := joins_sampleTeam 1 (by decide)
  exact network_sameView sampleTeam_joins hj hj' rfl rfl (by decide) hheard hheard'

/-! ## Who is addressed -/

/-- How many of the datagrams are for the port the robot listens on. -/
def addressed (ds : List Datagram) (receiver : InfoShare) : Nat :=
  ds.countP fun d => receiver.server.any fun server => d.port = endpointPort server.port

/-- The players' ports are ports. -/
theorem endpointPort_player {id : Int} (hid : 1 ≤ id ∧ id ≤ numPlayers) :
    endpointPort (commInfoPort0 + id - 1) = commInfoPort0 + id - 1 := by
  unfold numPlayers at hid
  unfold endpointPort commInfoPort0
  omega

theorem endpointPort_unicast {selfId port : Int} (hport : port ∈ unicastPorts selfId) :
    endpointPort port = port := by
  unfold unicastPorts at hport
  obtain ⟨i, hi, rfl⟩ := List.mem_map.mp hport
  have hlt := List.mem_range.mp (List.mem_of_mem_filter hi)
  unfold numPlayers at hlt
  unfold endpointPort commInfoPort0
  omega

theorem countP_unicastPorts (selfId : Int) {id : Int} (hid : 1 ≤ id ∧ id ≤ numPlayers) :
    (unicastPorts selfId).countP (· = commInfoPort0 + id - 1) =
      if id = selfId then 0 else 1 := by
  have hnodup : (unicastPorts selfId).Nodup := by
    refine (List.nodup_range.filter _).map ?_
    intro i j hij
    exact Int.natCast_inj.mp (add_left_cancel hij)
  have hmem : commInfoPort0 + id - 1 ∈ unicastPorts selfId ↔ id ≠ selfId := by
    unfold unicastPorts
    simp only [List.mem_map, List.mem_filter, List.mem_range, decide_eq_true_eq]
    unfold numPlayers at hid ⊢
    refine ⟨?_, ?_⟩
    · intro ⟨i, ⟨_, hi⟩, hport⟩ hself
      exact hi (by omega)
    · intro hne
      exact ⟨(id - 1).toNat, ⟨by omega, by omega⟩, by omega⟩
  have hcount : (unicastPorts selfId).countP (· = commInfoPort0 + id - 1) =
      (unicastPorts selfId).count (commInfoPort0 + id - 1) := by
    refine List.countP_congr ?_
    intro port _
    simp
  rw [hcount, hnodup.count]
  split
  · next h => rw [if_neg (hmem.mp h)]
  · next h => rw [if_pos (not_not.mp fun hne => h (hmem.mpr hne))]

/-- Of the datagrams of one call of a player, a player set up for the same mode
is addressed by one when the mode is broadcast, by one or, if it is the sender,
by none when the mode is unicast, and otherwise, in multicast mode, by one only
if it has the sender's own number: the robots of a team do not address one
another then. -/
theorem sendCommonInfo_addressed {created created' sender receiver : InfoShare}
    {args args' : SetupArgs} {clock clock' : Nat → ℚ} {flag flag' : Bool}
    (hsetup : created.setup args .completed clock false = some (flag, sender))
    (hsetup' : created'.setup args' .completed clock' false = some (flag', receiver))
    (hmode : args'.modeSelect = args.modeSelect)
    (hid : 1 ≤ args.selfId ∧ args.selfId ≤ numPlayers)
    (hid' : 1 ≤ args'.selfId ∧ args'.selfId ≤ numPlayers) {info : CommonInfo}
    {ds : List Datagram} (hsend : sender.sendCommonInfo pb fc info = .ok ds) :
    addressed ds receiver =
      if args.modeSelect = broadcastMode then 1
      else if args.modeSelect = unicastMode then
        if args'.selfId = args.selfId then 0 else 1
      else if args'.selfId = args.selfId then 1 else 0 := by
  obtain ⟨-, -, rfl⟩ := setup_first hsetup
  obtain ⟨-, -, rfl⟩ := setup_first hsetup'
  unfold sendCommonInfo at hsend
  split at hsend
  · simp only [SetupEnd.hasClient, if_true] at hsend
    by_cases hunicast : args.modeSelect = unicastMode
    · have hbroadcast : args.modeSelect ≠ broadcastMode := by
        rw [hunicast]
        decide
      rw [if_pos hunicast] at hsend
      cases hsend
      rw [if_neg hbroadcast, if_pos hunicast]
      simp only [addressed, SetupEnd.hasServer, if_true, Option.any_some, List.countP_map,
        openServer, hmode, if_neg hbroadcast, endpointPort_player hid']
      rw [← countP_unicastPorts args.selfId hid']
      refine List.countP_congr ?_
      intro port hport
      simp only [Function.comp_apply, endpointPort_unicast hport]
    · rw [if_neg hunicast] at hsend
      cases hsend
      simp only [addressed, SetupEnd.hasServer, if_true, Option.any_some, openServer,
        openClient, hmode, List.countP_singleton, decide_eq_true_eq, if_neg hunicast]
      split
      · exact if_pos rfl
      · rw [endpointPort_player hid, endpointPort_player hid']
        exact if_congr (by constructor <;> intro h <;> omega) rfl rfl
  · cases hsend

/-- The example robot set up for another mode. -/
def sampleMode (modeSelect selfId : Int) : InfoShare :=
  { sampleRobot selfId colorMagenta with
    socketMode := modeSelect
    client := some (openClient ⟨modeSelect, selfId, colorMagenta, ascii "127.0.0.1"⟩)
    server := some (openServer ⟨modeSelect, selfId, colorMagenta, ascii "127.0.0.1"⟩) }

theorem sampleMode_setup {modeSelect : Int}
    (hmode : broadcastMode ≤ modeSelect ∧ modeSelect ≤ unicastMode) (selfId : Int) :
    freshRobot.setup ⟨modeSelect, selfId, colorMagenta, ascii "127.0.0.1"⟩ .completed
      (fun _ => 0) false = some (true, sampleMode modeSelect selfId) := by
  have hassert : setupAsserts ⟨modeSelect, selfId, colorMagenta, ascii "127.0.0.1"⟩ :=
    ⟨by show numPlayers ≥ selfId ∨ selfId ≥ 1; unfold numPlayers; omega, Or.inl rfl⟩
  unfold setup
  rw [if_neg (by decide), if_neg (not_not.mpr hassert)]
  exact if_pos hmode

theorem sampleMode_sends (modeSelect : Int) :
    ∃ ds, (sampleMode modeSelect 1).sendCommonInfo wire .wrapping sampleInfo = .ok ds := by
  have hencodes := @sampleRobot_sendCommonInfo 1 sampleInfo rfl rfl
  obtain ⟨command, behaviorName, hcommand, hname, -⟩ := sendCommonInfo_cases hencodes
  unfold sendCommonInfo
  rw [show (sampleMode modeSelect 1).dictionary = (sampleRobot 1 colorMagenta).dictionary
    from rfl, hcommand, hname]
  by_cases h : (sampleMode modeSelect 1).socketMode = unicastMode
  · exact ⟨_, if_pos h⟩
  · exact ⟨_, if_neg h⟩

/-- Robot 2 is addressed by one of the three datagrams robot 1 unicasts, and by
none of what robot 1 multicasts. -/
theorem sendCommonInfo_addressed_two :
    ∃ ds ds',
      (sampleMode unicastMode 1).sendCommonInfo wire .wrapping sampleInfo = .ok ds ∧
      (sampleMode multicastMode 1).sendCommonInfo wire .wrapping sampleInfo = .ok ds' ∧
      addressed ds (sampleMode unicastMode 2) = 1 ∧
      addressed ds' (sampleMode multicastMode 2) = 0 := by
  obtain ⟨ds, hunicast⟩ := sampleMode_sends unicastMode
  obtain ⟨ds', hmulticast⟩ := sampleMode_sends multicastMode
  exact ⟨ds, ds', hunicast, hmulticast,
    sendCommonInfo_addressed (sampleMode_setup (by decide) 1) (sampleMode_setup (by decide) 2)
      rfl (by decide) (by decide) hunicast,
    sendCommonInfo_addressed (sampleMode_setup (by decide) 1) (sampleMode_setup (by decide) 2)
      rfl (by decide) (by decide) hmulticast⟩

end Playspace.Citbrains.InfoShare
