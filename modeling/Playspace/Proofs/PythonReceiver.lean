import Playspace.Proofs.EndToEnd
import Playspace.Python.InfoCom

/-!
# The C++ and the Python receiver

Both undo the same encoder, with the same scales, and the poses they get out of
a datagram are the same. The handler asks whether a list has elements before it
reads any; `convertPos2D` reads the first target of every message. A message
without a target, which any robot without a plan sends, ends it in an
`IndexError` (`receivers_agree_iff`).
-/

namespace Playspace.Citbrains

open CitbrainsMessage (SharingData wire)
open InfoCom (convertPos2D toPos2D)

/-- One pose is read alike. -/
theorem toPos2D_eq (p : CitbrainsMessage.Pos2D) : toPos2D p = carriedPos2D p := rfl

namespace InfoShare

variable {pb : Protobuf} {fc : FloatCast}

/-- The Python answer and the getters for `id` hold the same three poses. -/
def SamePoses (answer : Option (Pos2D ℚ × Pos2D ℚ × Pos2D ℚ)) (receiver : InfoShare)
    (id : Int) : Prop :=
  ∃ selfPos ballGl targetPos self ball targets,
    answer = some (selfPos, ballGl, targetPos) ∧
    receiver.getselfPosCf id = .ok self ∧ self.pos = selfPos ∧
    receiver.getballGlCf id = .ok ball ∧ ball.pos = ballGl ∧
    receiver.gettargetPosVec id = .ok targets ∧ targets.head? = some targetPos

/-- A datagram that arrives whole is read by both receivers, and they agree on
the three poses exactly when the sender had a target. -/
theorem receivers_agree_iff {sender receiver : InfoShare} (h : Teammates sender receiver)
    {info : CommonInfo} {d : Datagram} (hsends : Sends pb fc sender info d) (now : ℚ) :
    ∃ receiver' m, receiver.receivedDataHandler pb now d.bytes = .ok receiver' ∧
      pb.parseFromString d.bytes = (true, m) ∧
      (SamePoses (convertPos2D m) receiver' sender.selfId ↔ info.targetPosVec ≠ []) := by
  obtain ⟨e, htracks⟩ := h.tracks
  obtain ⟨command, behaviorName, receiver', hcall, hparse, -, htracks'⟩ :=
    h.receive hsends htracks now
  refine ⟨receiver', _, hcall, hparse, ?_⟩
  have hself : receiver'.getselfPosCf sender.selfId = .ok _ := htracks'.getter _ _
  have hball : receiver'.getballGlCf sender.selfId = .ok _ := htracks'.getter _ _
  have htarget : receiver'.gettargetPosVec sender.selfId = .ok _ := htracks'.getter _ _
  cases hposes : info.targetPosVec with
  | nil =>
      refine iff_of_false ?_ (fun hne => hne rfl)
      rintro ⟨selfPos, ballGl, targetPos, self, ball, targets, hanswer, -⟩
      rw [convertPos2D, sharingData, hposes] at hanswer
      cases hanswer
  | cons target targets =>
      refine iff_of_true ?_ (List.cons_ne_nil target targets)
      have hanswer : convertPos2D (sender.sharingData fc info command behaviorName) =
          some (toPos2D (pos2Dsetter fc info.ballGlCf.pos),
            toPos2D (pos2Dsetter fc info.ballGlCf.pos), toPos2D (pos2Dsetter fc target)) := by
        rw [convertPos2D, sharingData, hposes]
        rfl
      have hcarried : carriedPoses (info.targetPosVec.map (pos2Dsetter fc)) =
          some ((target :: targets).map (Pos2D.received fc)) := by
        rw [carriedPoses_setter, hposes]
        rfl
      refine ⟨_, _, _, _, _, _, hanswer, hself, (toPos2D_eq _).symm, hball,
        (toPos2D_eq _).symm, htarget, ?_⟩
      show ((carriedPoses (info.targetPosVec.map (pos2Dsetter fc))).getD _).head? = _
      rw [hcarried, toPos2D_eq, carriedPos2D_setter]
      rfl

/-- The example robot on its way somewhere. -/
def sampleTarget : CommonInfo := { sampleInfo with targetPosVec := [⟨300, 0, 0⟩] }

theorem sampleTarget_sends : Sends wire .wrapping (sampleRobot 2 colorMagenta)
    sampleTarget (sampleDatagram 2 sampleTarget) :=
  sampleRobot_sends rfl rfl (by decide +kernel)

/-- The example robot has no target, and the monitor does not survive it. -/
theorem receivers_disagree :
    ∃ d m receiver', Sends wire .wrapping (sampleRobot 2 colorMagenta) sampleInfo d ∧
      (sampleRobot 1 colorMagenta).receivedDataHandler wire 0 d.bytes = .ok receiver' ∧
      wire.parseFromString d.bytes = (true, m) ∧ convertPos2D m = none := by
  obtain ⟨e, htracks⟩ := sampleRobot_teammates.tracks
  obtain ⟨command, behaviorName, receiver', hcall, hparse, -, -⟩ :=
    sampleRobot_teammates.receive sampleInfo_sends htracks 0
  exact ⟨_, _, receiver', sampleInfo_sends, hcall, hparse, rfl⟩

theorem receivers_agree_target :
    ∃ receiver' m,
      (sampleRobot 1 colorMagenta).receivedDataHandler wire 0
        (sampleDatagram 2 sampleTarget).bytes = .ok receiver' ∧
      SamePoses (convertPos2D m) receiver' 2 := by
  obtain ⟨receiver', m, hcall, -, hiff⟩ :=
    receivers_agree_iff sampleRobot_teammates sampleTarget_sends 0
  exact ⟨receiver', m, hcall, hiff.mpr (List.cons_ne_nil _ _)⟩

end InfoShare

end Playspace.Citbrains
