import Playspace.Proofs.Network

/-!
# What the robots of a network know of each other

`heard` is read off a run of the network alone: the messages a robot was handed
that came from player `k` and had its own colour at that moment, in the order of
their arrival. `Observes` is the invariant that ties the robots to it: the entry
of every player in every robot is the one `setup` made with the messages heard
written to it, whatever else happened in between and to whomever.

What is heard was said. `Transmits` names, for a message heard, the call that
packed it and the delivery that brought it, in that order and in one run; the
call is one of a robot with the player's number, and when the datagram was not
cut it is one of the receiver's own team.
-/

namespace Playspace.Citbrains.InfoShare

open CitbrainsMessage (SharingData colorOffset wire)
open Playspace.Lib (latest)

/-- The message of player `k` that `e`, coming after `past`, has the robot at a
place of the network store, and the time. -/
def hears (pb : Protobuf) (fc : FloatCast) (robot : Nat) (k : Int) (past : List NetEvent) :
    NetEvent → Option (ℚ × SharingData)
  | .deliver r datagram size now =>
      match Lib.runs (netStep pb fc) ⟨[], []⟩ past with
      | .error _ => none
      | .ok net =>
          match net.robots[robot]?, net.sent[datagram]? with
          | some receiver, some d =>
              let m := (pb.parseFromString (d.bytes.take size)).2
              if r = robot ∧ d.bytes.length ≤ maxDatagram ∧
                  teamByte m = some (receiver.ourColor + colorOffset) ∧
                  idByte m = some k then some (now, m)
              else none
          | _, _ => none
  | _ => none

/-- All of them, oldest first. -/
def heard (pb : Protobuf) (fc : FloatCast) (robot : Nat) (k : Int)
    (events : List NetEvent) : List (ℚ × SharingData) :=
  Lib.outputs (hears pb fc robot k) events

/-- The robots of a run in the order of their places. -/
def joins (events : List NetEvent) : List Join :=
  events.filterMap NetEvent.joined

/-- The robot at the place was made by a `setup` of an object with this dictionary,
with the number it has now and entries made at these times. -/
structure JoinedAs (events : List NetEvent) (robot : Nat) (s : InfoShare)
    (dict : SerializeStringByDict) (clock : Nat → ℚ) : Prop where
  join : ∃ j created, (joins events)[robot]? = some j ∧
    InfoShare.new j.commandFile j.behaviorFile = some created ∧
    created.dictionary = dict ∧ j.clock = clock ∧ j.args.selfId = s.selfId

/-- The robot's entries of the other players are what it heard of them. -/
structure Viewing (pb : Protobuf) (fc : FloatCast) (past : List NetEvent) (robot : Nat)
    (s : InfoShare) (dict : SerializeStringByDict) (clock : Nat → ℚ) : Prop where
  joined : JoinedAs past robot s dict clock
  tracks : ∀ k, 1 ≤ k ∧ k ≤ numPlayers → k ≠ s.selfId →
    Tracks dict k s ((OtherRobotInfomation.new (k - 1).toNat
      (clock (k - 1).toNat)).writeAll dict (heard pb fc robot k past))

structure Observes (pb : Protobuf) (fc : FloatCast) (past : List NetEvent)
    (net : Network) : Prop where
  run : Lib.runs (netStep pb fc) ⟨[], []⟩ past = .ok net
  sound : net.Sound pb
  places : net.robots.length = (joins past).length
  views : ∀ robot s, net.robots[robot]? = some s →
    ∃ dict clock, Viewing pb fc past robot s dict clock
  silent : ∀ robot k, net.robots[robot]? = none → heard pb fc robot k past = []

variable {pb : Protobuf} {fc : FloatCast} {net : Network} {past : List NetEvent}
  {e : NetEvent}

theorem heard_snoc (robot : Nat) (k : Int) :
    heard pb fc robot k (past ++ [e]) =
      heard pb fc robot k past ++ (hears pb fc robot k past e).toList :=
  Lib.outputs_snoc _ _ _

theorem writeAll_append (dict : SerializeStringByDict) (entry : OtherRobotInfomation)
    (messages messages' : List (ℚ × SharingData)) :
    entry.writeAll dict (messages ++ messages') =
      (entry.writeAll dict messages).writeAll dict messages' :=
  List.foldl_append

theorem hears_absent (hrun : Lib.runs (netStep pb fc) ⟨[], []⟩ past = .ok net)
    {robot : Nat} (habsent : net.robots[robot]? = none) (k : Int) :
    hears pb fc robot k past e = none := by
  cases e with
  | deliver r datagram size now => simp only [hears, hrun, habsent]
  | join commandFile behaviorFile args clock => rfl
  | setup r args stop clock => rfl
  | changeColor r color => rfl
  | sendCommonInfo r info => rfl
  | terminate r => rfl

/-- A datagram for another robot is not heard. -/
theorem hears_elsewhere {robot r : Nat} (hne : robot ≠ r) (k : Int) (datagram size : Nat)
    (now : ℚ) : hears pb fc robot k past (.deliver r datagram size now) = none := by
  simp only [hears]
  split
  · rfl
  · split
    · exact if_neg fun h => hne h.1.symm
    · rfl

theorem joins_snoc : joins (past ++ [e]) = joins past ++ e.joined.toList :=
  Lib.filterMap_snoc _ _ _

theorem joins_snoc_none (he : e.joined = none) : joins (past ++ [e]) = joins past := by
  rw [joins_snoc, he]
  exact List.append_nil _

theorem JoinedAs.mono {robot : Nat} {s s' : InfoShare} {dict : SerializeStringByDict}
    {clock : Nat → ℚ} (h : JoinedAs past robot s dict clock) (hid : s'.selfId = s.selfId)
    (e : NetEvent) : JoinedAs (past ++ [e]) robot s' dict clock := by
  obtain ⟨j, created, hj, hnew, hdict, hclock, hself⟩ := h.join
  obtain ⟨hlt, -⟩ := List.getElem?_eq_some_iff.mp hj
  refine ⟨j, created, ?_, hnew, hdict, hclock, hself.trans hid.symm⟩
  rw [joins_snoc, List.getElem?_append_left hlt]
  exact hj

/-- One event at one robot: what it hears is written, and the rest is as before. -/
theorem Viewing.next {robot : Nat} {s s' : InfoShare} {dict : SerializeStringByDict}
    {clock : Nat → ℚ} (h : Viewing pb fc past robot s dict clock)
    (hid : s'.selfId = s.selfId)
    (htracks : ∀ k entry, Tracks dict k s entry →
      Tracks dict k s' (entry.writeAll dict (hears pb fc robot k past e).toList)) :
    Viewing pb fc (past ++ [e]) robot s' dict clock := by
  refine ⟨h.joined.mono hid e, ?_⟩
  intro k hk hother
  rw [hid] at hother
  rw [heard_snoc, writeAll_append]
  exact htracks k _ (h.tracks k hk hother)

theorem Viewing.quiet {robot : Nat} {s : InfoShare} {dict : SerializeStringByDict}
    {clock : Nat → ℚ} (h : Viewing pb fc past robot s dict clock)
    (hquiet : ∀ k, hears pb fc robot k past e = none) :
    Viewing pb fc (past ++ [e]) robot s dict clock := by
  refine h.next rfl ?_
  intro k entry htracks
  rw [hquiet k]
  exact htracks

/-- An event that nobody hears and that leaves the robots alone. -/
theorem Observes.quiet (h : Observes pb fc past net) {net' : Network}
    (hstep : netStep pb fc net e = .ok net') (hsound : net'.Sound pb)
    (hrobots : net'.robots = net.robots) (hjoined : e.joined = none)
    (hquiet : ∀ robot k, hears pb fc robot k past e = none) :
    Observes pb fc (past ++ [e]) net' := by
  refine ⟨(Lib.runs_append_ok h.run [e]).trans (Lib.runs_cons_ok hstep []), hsound, ?_, ?_, ?_⟩
  · rw [hrobots, joins_snoc_none hjoined]
    exact h.places
  · intro robot s hs
    rw [hrobots] at hs
    obtain ⟨dict, clock, hview⟩ := h.views robot s hs
    exact ⟨dict, clock, hview.quiet (hquiet robot)⟩
  · intro robot k hnone
    rw [hrobots] at hnone
    rw [heard_snoc, h.silent robot k hnone, hquiet robot k]
    rfl

theorem Observes.goes (h : Observes pb fc past net) (he : e.JoinsPlayer) :
    ∃ net', netStep pb fc net e = .ok net' ∧ net'.Sound pb :=
  netStep_sound h.sound he

/-- A call on one robot that writes to its entries just what it hears. -/
theorem Observes.call (h : Observes pb fc past net) {r : Nat}
    {f : InfoShare → Except Stop InfoShare} (hjoined : e.joined = none)
    (hcall : netStep pb fc net e = net.call r f)
    (helsewhere : ∀ robot k, robot ≠ r → hears pb fc robot k past e = none)
    (hf : ∀ s s', net.robots[r]? = some s → f s = .ok s' → s'.selfId = s.selfId ∧
      ∀ dict k entry, Tracks dict k s entry →
        Tracks dict k s' (entry.writeAll dict (hears pb fc r k past e).toList)) :
    ∃ net', netStep pb fc net e = .ok net' ∧ Observes pb fc (past ++ [e]) net' := by
  obtain ⟨net', hstep, hsound⟩ := h.goes (NetEvent.joinsPlayer_of_joined hjoined)
  refine ⟨net', hstep, ?_⟩
  have hnet := hcall.symm.trans hstep
  unfold Network.call at hnet
  cases hr : net.robots[r]? with
  | none =>
      simp only [hr] at hnet
      cases hnet
      refine h.quiet hstep hsound rfl hjoined ?_
      intro robot k
      by_cases hrobot : robot = r
      · subst hrobot
        exact hears_absent h.run hr k
      · exact helsewhere robot k hrobot
  | some s =>
      simp only [hr] at hnet
      cases hs : f s with
      | error stop =>
          rw [hs] at hnet
          cases hnet
      | ok s' =>
          rw [hs] at hnet
          cases hnet
          obtain ⟨hid, htracks⟩ := hf s s' hr hs
          obtain ⟨hlt, -⟩ := List.getElem?_eq_some_iff.mp hr
          refine ⟨(Lib.runs_append_ok h.run [e]).trans (Lib.runs_cons_ok hstep []), hsound,
            ?_, ?_, ?_⟩
          · rw [List.length_set, joins_snoc_none hjoined]
            exact h.places
          · intro robot t ht
            by_cases hrobot : robot = r
            · subst hrobot
              rw [List.getElem?_set_self hlt] at ht
              cases ht
              obtain ⟨dict, clock, hview⟩ := h.views robot s hr
              exact ⟨dict, clock, hview.next hid (htracks dict)⟩
            · rw [List.getElem?_set_ne (Ne.symm hrobot)] at ht
              obtain ⟨dict, clock, hview⟩ := h.views robot t ht
              exact ⟨dict, clock, hview.quiet fun k => helsewhere robot k hrobot⟩
          · intro robot k hnone
            have hnone' : net.robots[robot]? = none := by
              rw [List.getElem?_eq_none_iff] at hnone ⊢
              rwa [List.length_set] at hnone
            rw [heard_snoc, h.silent robot k hnone', hears_absent h.run hnone' k]
            rfl

theorem Tracks.terminate {dict : SerializeStringByDict} {k : Int} {s s' : InfoShare}
    {entry : OtherRobotInfomation} (h : Tracks dict k s entry)
    (hcall : s.terminate = .ok s') : Tracks dict k s' entry := by
  unfold InfoShare.terminate at hcall
  split at hcall
  · cases hcall
  · cases hcall
  · cases hcall
    exact ⟨⟨h.setUp.entries, rfl, rfl, h.setUp.color⟩, h.words, h.other, h.entry⟩

theorem selfId_terminate {s s' : InfoShare} (hcall : s.terminate = .ok s') :
    s'.selfId = s.selfId := by
  unfold InfoShare.terminate at hcall
  split at hcall
  · cases hcall
  · cases hcall
  · cases hcall
    rfl

/-- Every event keeps the entries in step with what was heard. -/
theorem Observes.step (h : Observes pb fc past net) (he : e.JoinsPlayer) :
    ∃ net', netStep pb fc net e = .ok net' ∧ Observes pb fc (past ++ [e]) net' := by
  cases e with
  | join commandFile behaviorFile args clock =>
      obtain ⟨net', hgoes, hsound⟩ := h.goes he
      obtain ⟨hjoined, hstep⟩ | ⟨created, flag, joined, hjoined, hnew, hsetup, hstep⟩ :=
        netStep_join pb fc net commandFile behaviorFile args clock
      · obtain rfl : net' = net := Except.ok.inj (hgoes.symm.trans hstep)
        exact ⟨net', hstep, h.quiet hstep hsound rfl hjoined fun _ _ => rfl⟩
      · obtain rfl := Except.ok.inj (hgoes.symm.trans hstep)
        have hnil := new_robotDataList hnew
        obtain ⟨-, hself, -⟩ := setup_completed hnil hsetup
        refine ⟨_, hstep, (Lib.runs_append_ok h.run _).trans (Lib.runs_cons_ok hstep []),
          hsound, ?_, ?_, ?_⟩
        · rw [joins_snoc, hjoined, List.length_append, List.length_append, h.places]
          rfl
        · intro robot s hs
          by_cases hlt : robot < net.robots.length
          · rw [List.getElem?_append_left hlt] at hs
            obtain ⟨dict, clock', hview⟩ := h.views robot s hs
            exact ⟨dict, clock', hview.quiet fun _ => rfl⟩
          · -- the new robot, at a place nothing was delivered to so far
            obtain ⟨hplace, -⟩ := List.getElem?_eq_some_iff.mp hs
            rw [List.length_append, List.length_singleton] at hplace
            obtain rfl : robot = net.robots.length := by omega
            rw [List.getElem?_concat_length] at hs
            cases hs
            have hsilent := fun k => h.silent net.robots.length k
              (List.getElem?_eq_none_iff.mpr (Nat.le_refl _))
            refine ⟨created.dictionary, clock, ⟨⟨commandFile, behaviorFile, args, clock⟩,
              created, ?_, hnew, rfl, rfl, hself.symm⟩, ?_⟩
            · rw [joins_snoc, hjoined, h.places]
              exact List.getElem?_concat_length
            · intro k hk hother
              rw [heard_snoc, hsilent k]
              exact tracks_setup hnil hsetup hk (by rwa [hself] at hother)
        · intro robot k hnone
          have hnone' : net.robots[robot]? = none := by
            rw [List.getElem?_eq_none_iff] at hnone ⊢
            rw [List.length_append] at hnone
            omega
          rw [heard_snoc, h.silent robot k hnone']
          rfl
  | setup robot args stop clock =>
      refine h.call (r := robot) rfl rfl (fun _ _ _ => rfl) ?_
      intro s s' hs hcall
      rw [setup_again] at hcall
      cases hcall
      exact ⟨rfl, fun _ _ _ htracks => htracks⟩
  | changeColor robot color =>
      refine h.call (r := robot) rfl rfl (fun _ _ _ => rfl) ?_
      intro s s' hs hcall
      cases hcall
      exact ⟨selfId_changeColor s color, fun _ _ _ htracks => htracks.changeColor color⟩
  | sendCommonInfo robot info =>
      obtain ⟨net', hstep, hsound⟩ := h.goes he
      refine ⟨net', hstep, h.quiet hstep hsound ?_ rfl fun _ _ => rfl⟩
      simp only [netStep] at hstep
      split at hstep
      · cases hstep
        rfl
      · split at hstep
        · cases hstep
          rfl
        · cases hstep
          rfl
        · cases hstep
  | terminate robot =>
      refine h.call (r := robot) rfl rfl (fun _ _ _ => rfl) ?_
      intro s s' hs hcall
      exact ⟨selfId_terminate hcall, fun _ _ _ htracks => htracks.terminate hcall⟩
  | deliver robot datagram size now =>
      by_cases harrives : ∃ d, net.sent[datagram]? = some d ∧
          d.bytes.length ≤ maxDatagram
      · obtain ⟨d, hd, hsize⟩ := harrives
        have hfrom := h.sound.sent d (List.mem_of_getElem? hd)
        have hnames := hfrom.namesRobot hsize size now
        refine h.call (r := robot)
          (f := fun s => s.receivedDataHandler pb now (d.bytes.take size)) rfl ?_
          (fun _ k hne => hears_elsewhere hne k datagram size now) ?_
        · simp only [netStep, hd, if_pos hsize]
        · intro s s' hs hcall
          obtain ⟨s₁, hcall₁, -, hid⟩ :=
            (h.sound.robots s (List.mem_of_getElem? hs)).1.receive hnames
          obtain rfl : s₁ = s' := Except.ok.inj (hcall₁.symm.trans hcall)
          refine ⟨hid, ?_⟩
          intro dict k entry htracks
          obtain ⟨s₂, hcall₂, -, htracks'⟩ := htracks.datagram now (d.bytes.take size) hnames
          obtain rfl : s₂ = s₁ := Except.ok.inj (hcall₂.symm.trans hcall)
          simp only [hears, h.run, hs, hd, hsize, true_and]
          split at htracks'
          · next hboth =>
              rw [if_pos hboth]
              exact htracks'
          · next hboth =>
              rw [if_neg hboth]
              exact htracks'
      · have hlost : netStep pb fc net (.deliver robot datagram size now) = .ok net := by
          simp only [netStep]
          split
          · rfl
          · next d hd => exact if_neg fun hsize => harrives ⟨d, hd, hsize⟩
        refine ⟨net, hlost, h.quiet hlost h.sound rfl rfl ?_⟩
        intro robot' k
        simp only [hears, h.run]
        split
        · next receiver d hr hd =>
            exact if_neg fun hall => harrives ⟨d, hd, hall.2.1⟩
        · rfl

/-- A run of robots that join with players' numbers goes through, and so does
every part of it. -/
theorem observes_run (pb : Protobuf) (fc : FloatCast) {events : List NetEvent}
    (hjoins : ∀ e ∈ events, e.JoinsPlayer) :
    ∃ net, Observes pb fc events net := by
  have hstart : Observes pb fc [] ⟨[], []⟩ :=
    ⟨rfl, ⟨by simp, by simp⟩, rfl, by simp, fun _ _ _ => rfl⟩
  have hstep (past : List NetEvent) (e : NetEvent) (rest : List NetEvent) (net : Network)
      (heq : events = past ++ e :: rest) (h : Observes pb fc past net) :
      ∃ net', netStep pb fc net e = .ok net' ∧ Observes pb fc (past ++ [e]) net' :=
    h.step (hjoins e (by rw [heq]; simp))
  obtain ⟨net, -, h⟩ := Lib.runs_through hstep hstart
  exact ⟨net, h⟩

/-- No run of the network meets a null `server_` or `client_` or an index out of
range, and after every run every getter of every robot shows for every other
player the latest value of its field in what the robot heard of that player, and
without one what the robot's own `setup` left there. -/
theorem network_showsLatest (pb : Protobuf) (fc : FloatCast) {events : List NetEvent}
    (hjoins : ∀ e ∈ events, e.JoinsPlayer) :
    ∃ net, Lib.runs (netStep pb fc) ⟨[], []⟩ events = .ok net ∧
      ∀ robot s, net.robots[robot]? = some s →
        ∃ dict clock, JoinedAs events robot s dict clock ∧
          ∀ k, 1 ≤ k ∧ k ≤ numPlayers → k ≠ s.selfId →
            ShowsLatest dict (clock (k - 1).toNat) (heard pb fc robot k events) k s := by
  obtain ⟨net, h⟩ := observes_run pb fc hjoins
  refine ⟨net, h.run, ?_⟩
  intro robot s hs
  obtain ⟨dict, clock, hview⟩ := h.views robot s hs
  exact ⟨dict, clock, hview.joined, fun k hk hother => (hview.tracks k hk hother).showsLatest⟩

/-! ## What is heard was said -/

/-- In the run `sender` packs `info` into `d`, and later the first `size` bytes
of `d` are delivered to `receiver`. -/
def Transmits (pb : Protobuf) (fc : FloatCast) (events : List NetEvent) (robot : Nat)
    (sender receiver : InfoShare) (info : CommonInfo) (d : Datagram) (size : Nat)
    (now : ℚ) : Prop :=
  ∃ before place middle datagram after net net',
    events = before ++ .sendCommonInfo place info ::
        (middle ++ .deliver robot datagram size now :: after) ∧
      Lib.runs (netStep pb fc) ⟨[], []⟩ before = .ok net ∧
      net.robots[place]? = some sender ∧
      (∃ ds, sender.sendCommonInfo pb fc info = .ok ds ∧ d ∈ ds) ∧
      Lib.runs (netStep pb fc) ⟨[], []⟩
        (before ++ .sendCommonInfo place info :: middle) = .ok net' ∧
      net'.robots[robot]? = some receiver ∧ net'.sent[datagram]? = some d

/-- The datagram is one of a call of `sendCommonInfo` in `past`. -/
def SentIn (pb : Protobuf) (fc : FloatCast) (past : List NetEvent) (d : Datagram) : Prop :=
  ∃ before place info after net sender ds,
    past = before ++ .sendCommonInfo place info :: after ∧
      Lib.runs (netStep pb fc) ⟨[], []⟩ before = .ok net ∧
      net.robots[place]? = some sender ∧ sender.sendCommonInfo pb fc info = .ok ds ∧ d ∈ ds

theorem SentIn.snoc {d : Datagram} (h : SentIn pb fc past d) (e : NetEvent) :
    SentIn pb fc (past ++ [e]) d := by
  obtain ⟨before, place, info, after, net, sender, ds, rfl, hrest⟩ := h
  exact ⟨before, place, info, after ++ [e], net, sender, ds, by simp, hrest⟩

theorem sent_call {r : Nat} {f : InfoShare → Except Stop InfoShare} {net' : Network}
    (h : net.call r f = .ok net') : net'.sent = net.sent := by
  unfold Network.call at h
  split at h
  · cases h
    rfl
  · next s hs =>
      cases hcall : f s with
      | error stop =>
          rw [hcall] at h
          cases h
      | ok s' =>
          rw [hcall] at h
          cases h
          rfl

/-- Nothing is on the network that no robot put there. -/
theorem sent_step {net' : Network}
    (hrun : Lib.runs (netStep pb fc) ⟨[], []⟩ past = .ok net)
    (h : ∀ d ∈ net.sent, SentIn pb fc past d) (hstep : netStep pb fc net e = .ok net') :
    ∀ d ∈ net'.sent, SentIn pb fc (past ++ [e]) d := by
  have hkeep (hsent : net'.sent = net.sent) :
      ∀ d ∈ net'.sent, SentIn pb fc (past ++ [e]) d := by
    intro d hd
    rw [hsent] at hd
    exact (h d hd).snoc e
  cases e with
  | join commandFile behaviorFile args clock =>
      simp only [netStep] at hstep
      split at hstep
      · cases hstep
        exact hkeep rfl
      · split at hstep
        · cases hstep
          exact hkeep rfl
        · cases hstep
          exact hkeep rfl
  | setup robot args stop clock => exact hkeep (sent_call hstep)
  | changeColor robot color => exact hkeep (sent_call hstep)
  | terminate robot => exact hkeep (sent_call hstep)
  | deliver robot datagram size now =>
      simp only [netStep] at hstep
      split at hstep
      · cases hstep
        exact hkeep rfl
      · split at hstep
        · exact hkeep (sent_call hstep)
        · cases hstep
          exact hkeep rfl
  | sendCommonInfo robot info =>
      simp only [netStep] at hstep
      split at hstep
      · cases hstep
        exact hkeep rfl
      · next sender hsender =>
          split at hstep
          · next ds hsend =>
              cases hstep
              intro d hd
              obtain hd | hd := List.mem_append.mp hd
              · exact (h d hd).snoc _
              · exact ⟨past, robot, info, [], net, sender, ds, rfl, hrun, hsender, hsend, hd⟩
          · cases hstep
            exact hkeep rfl
          · cases hstep

theorem sent_run (hrun : Lib.runs (netStep pb fc) ⟨[], []⟩ past = .ok net) :
    ∀ d ∈ net.sent, SentIn pb fc past d := by
  have hstep (past : List NetEvent) (net : Network) (e : NetEvent) (net' : Network)
      (h : Lib.runs (netStep pb fc) ⟨[], []⟩ past = .ok net ∧
        ∀ d ∈ net.sent, SentIn pb fc past d)
      (hstep : netStep pb fc net e = .ok net') :
      Lib.runs (netStep pb fc) ⟨[], []⟩ (past ++ [e]) = .ok net' ∧
        ∀ d ∈ net'.sent, SentIn pb fc (past ++ [e]) d :=
    ⟨(Lib.runs_append_ok h.1 [e]).trans (Lib.runs_cons_ok hstep []), sent_step h.1 h.2 hstep⟩
  have hstart : Lib.runs (netStep pb fc) ⟨[], []⟩ [] = .ok ⟨[], []⟩ ∧
      ∀ d ∈ (Network.mk [] []).sent, SentIn pb fc [] d := ⟨rfl, by simp⟩
  have h := Lib.runs_induction hstep hstart hrun
  exact h.2

/-- What the packed message and the first bytes of it have in common. -/
theorem sender_of_cut {sender : InfoShare}
    (hid : 1 ≤ sender.selfId ∧ sender.selfId ≤ numPlayers) {info : CommonInfo}
    {ds : List Datagram} (hsend : sender.sendCommonInfo pb fc info = .ok ds)
    {d : Datagram} (hd : d ∈ ds) (hsize : d.bytes.length ≤ maxDatagram) {size : Nat} {k : Int}
    (hk : idByte (pb.parseFromString (d.bytes.take size)).2 = some k) :
    sender.selfId = k := by
  obtain ⟨command, behaviorName, -, -, -, hbytes⟩ := sendCommonInfo_cases hsend
  have hm := sharingData_wellFormed fc sender info command behaviorName
  have hsent := idByte_sharingData fc (player_small hid) info command behaviorName
  rw [hbytes d hd] at hsize hk
  have hcut := pb.parse_take _ size hm (by unfold maxDatagram at hsize; omega)
  simp only [idByte, Option.map_eq_some_iff, List.head?_eq_some_iff] at hk hsent
  obtain ⟨c, ⟨ids, hc⟩, rfl⟩ := hk
  obtain ⟨c', ⟨ids', hc'⟩, hself⟩ := hsent
  rw [hc, hc'] at hcut
  obtain rfl := (List.cons_prefix_cons.mp hcut).1
  exact hself.symm

/-- A datagram that is not cut is read as the message it was made of. -/
theorem parse_whole {sender : InfoShare} {info : CommonInfo}
    {ds : List Datagram} (hsend : sender.sendCommonInfo pb fc info = .ok ds)
    {d : Datagram} (hd : d ∈ ds) (hlimit : d.bytes.length ≤ maxDatagram) {size : Nat}
    (hsize : d.bytes.length ≤ size) :
    ∃ command behaviorName,
      sender.dictionary.commandToNumSequence info.message = some command ∧
      sender.dictionary.behaviorNameToNumSequence info.behaviorName = some behaviorName ∧
      (pb.parseFromString (d.bytes.take size)).2 =
        sender.sharingData fc info command behaviorName := by
  obtain ⟨command, behaviorName, hcommand, hname, -, hbytes⟩ := sendCommonInfo_cases hsend
  refine ⟨command, behaviorName, hcommand, hname, ?_⟩
  rw [List.take_of_length_le hsize]
  rw [hbytes d hd] at hlimit ⊢
  rw [pb.parse_serialize _ (sharingData_wellFormed fc sender info command behaviorName)
    (by unfold maxDatagram at hlimit; omega)]

/-- Whatever a robot hears of player `k` was packed, earlier in the run, by a
robot with that number, and is what the parser made of the bytes that arrived.
When all of them did, it is the message that was packed, and sender and receiver
were of one colour, the one at the call and the other at the delivery. -/
theorem heard_transmitted {events : List NetEvent}
    (hjoins : ∀ e ∈ events, e.JoinsPlayer) {robot : Nat} {k : Int} {now : ℚ}
    {m : SharingData} (hm : (now, m) ∈ heard pb fc robot k events) :
    ∃ sender receiver info d size,
      Transmits pb fc events robot sender receiver info d size now ∧
      sender.selfId = k ∧ m = (pb.parseFromString (d.bytes.take size)).2 ∧
      (d.bytes.length ≤ size → sender.ourColor = receiver.ourColor ∧
        ∃ command behaviorName,
          sender.dictionary.commandToNumSequence info.message = some command ∧
          sender.dictionary.behaviorNameToNumSequence info.behaviorName =
            some behaviorName ∧
          m = sender.sharingData fc info command behaviorName) := by
  obtain ⟨past, e, rest, rfl, hhears⟩ := Lib.exists_of_mem_outputs hm
  cases e with
  | join commandFile behaviorFile args clock => cases hhears
  | setup r args stop clock => cases hhears
  | changeColor r color => cases hhears
  | sendCommonInfo r info => cases hhears
  | terminate r => cases hhears
  | deliver r datagram size now' =>
      simp only [hears] at hhears
      split at hhears
      · cases hhears
      · next net' hrun' =>
          split at hhears
          · next receiver d hreceiver hd =>
              split at hhears
              · next hall =>
                  obtain ⟨rfl, hlimit, hteam, hid⟩ := hall
                  cases hhears
                  obtain ⟨before, place, info, middle, net, sender, ds, rfl, hrun, hsender,
                    hsend, hmem⟩ := sent_run hrun' d (List.mem_of_getElem? hd)
                  have hjoined : ∀ e ∈ before, e.JoinsPlayer :=
                    fun e he => hjoins e (by simp [he])
                  obtain ⟨net₀, hobserves⟩ := observes_run pb fc hjoined
                  obtain rfl : net₀ = net := Except.ok.inj (hobserves.run.symm.trans hrun)
                  obtain ⟨hsetUp, hself⟩ :=
                    hobserves.sound.robots sender (List.mem_of_getElem? hsender)
                  refine ⟨sender, receiver, info, d, size,
                    ⟨before, place, middle, datagram, rest, net₀, net', by simp, hrun, hsender,
                      ⟨ds, hsend, hmem⟩, hrun', hreceiver, hd⟩,
                    sender_of_cut hself hsend hmem hlimit hid, rfl, ?_⟩
                  intro hsize
                  obtain ⟨command, behaviorName, hcommand, hname, hparse⟩ :=
                    parse_whole hsend hmem hlimit hsize
                  refine ⟨?_, command, behaviorName, hcommand, hname, hparse⟩
                  rw [hparse, teamByte_sharingData fc hsetUp.color] at hteam
                  exact add_right_cancel (Option.some.inj hteam)
              · cases hhears
          · cases hhears

/-! ## Runs -/

/-- A broadcasting robot of the magenta team joins. -/
def sampleJoin (selfId : Int) : NetEvent :=
  .join (ascii "FreeKick") (ascii "Ready")
    ⟨broadcastMode, selfId, colorMagenta, ascii "192.168.4.160"⟩ fun _ => 0

/-- Robot 3 sends twice. Robot 1 gets the first datagram twice, robot 2 neither
of them at first, and then both get the second. -/
def sampleTeam : List NetEvent :=
  [sampleJoin 1, sampleJoin 2, sampleJoin 3, .sendCommonInfo 2 sampleFast,
    .deliver 0 0 1024 1, .deliver 0 0 1024 2, .sendCommonInfo 2 sampleInfo,
    .deliver 0 1 1024 3, .deliver 1 1 1024 4]

/-- What robot 3 packs. -/
def sampleMessage (info : CommonInfo) : SharingData :=
  (sampleRobot 3 colorMagenta).sharingData .wrapping info [1] [1]

theorem sampleTeam_joins : ∀ e ∈ sampleTeam, e.JoinsPlayer := by
  intro e he
  fin_cases he
  · exact NetEvent.joinsPlayer_join ⟨by decide, by decide⟩
  · exact NetEvent.joinsPlayer_join ⟨by decide, by decide⟩
  · exact NetEvent.joinsPlayer_join ⟨by decide, by decide⟩
  all_goals exact NetEvent.joinsPlayer_of_joined rfl

theorem sampleTeam_heard :
    heard wire .wrapping 0 3 sampleTeam = [(1, sampleMessage sampleFast),
        (2, sampleMessage sampleFast), (3, sampleMessage sampleInfo)] ∧
      heard wire .wrapping 1 3 sampleTeam = [(4, sampleMessage sampleInfo)] := by
  decide +kernel

theorem sampleTeam_ids {net : Network}
    (hrun : Lib.runs (netStep wire .wrapping) ⟨[], []⟩ sampleTeam = .ok net) :
    net.robots.map selfId = [1, 2, 3] := by
  have hids : (Lib.runs (netStep wire .wrapping) ⟨[], []⟩ sampleTeam).map
      (fun net => net.robots.map selfId) = .ok [1, 2, 3] := by decide +kernel
  rw [hrun] at hids
  exact Except.ok.inj hids

/-- Robot 1 shows the frame rate of the second call. -/
theorem network_showsLatest_team :
    ∃ net s, Lib.runs (netStep wire .wrapping) ⟨[], []⟩ sampleTeam = .ok net ∧
      net.robots[0]? = some s ∧ s.getfps 3 = .ok 30 ∧ s.getrecvTime 3 = .ok 3 := by
  obtain ⟨net, hrun, hviews⟩ :=
    network_showsLatest wire .wrapping sampleTeam_joins
  obtain ⟨s, rest, hrobots, hid, -⟩ := List.map_eq_cons_iff.mp (sampleTeam_ids hrun)
  have hs : net.robots[0]? = some s := by rw [hrobots]; rfl
  obtain ⟨dict, clock, -, hshows⟩ := hviews 0 s hs
  have hshows := hshows 3 (by decide) (by rw [hid]; decide)
  rw [sampleTeam_heard.1] at hshows
  exact ⟨net, s, hrun, hs, hshows.fps, hshows.recvTime⟩

/-- The last thing robot 2 heard came from robot 3. -/
theorem heard_transmitted_team :
    ∃ sender receiver info d size,
      Transmits wire .wrapping sampleTeam 1 sender receiver info d size 4 ∧
      sender.selfId = 3 ∧
      sampleMessage sampleInfo = (wire.parseFromString (d.bytes.take size)).2 := by
  have hm : (4, sampleMessage sampleInfo) ∈ heard wire .wrapping 1 3 sampleTeam := by
    rw [sampleTeam_heard.2]
    exact List.mem_singleton_self _
  obtain ⟨sender, receiver, info, d, size, htransmits, hid, hparse, -⟩ :=
    heard_transmitted sampleTeam_joins hm
  exact ⟨sender, receiver, info, d, size, htransmits, hid, hparse⟩

end Playspace.Citbrains.InfoShare
