import Playspace.Proofs.EndToEnd

/-!
# The ball's confidence

The protocol has the confidence as an integer clamped to 0..100, and the sender
clamps, but only after it has cast the number to a `uint8_t`. By then a
confidence of 300 is whatever the cast makes of it: on the usual machine it is
44, which needs no clamping. What the cast can hold arrives as it should, the
zero byte that ends the C string included.
-/

namespace Playspace.Citbrains

open CitbrainsMessage (wire)

namespace InfoShare

variable {pb : Protobuf} {fc : FloatCast}

/-- The confidence of the protocol: cut to an integer, then clamped. -/
def clampedConfidence (cf : ℚ) : Int := max 0 (min (truncZero cf) 100)

theorem clampedConfidence_mono {p q : ℚ} (h : p ≤ q) :
    clampedConfidence p ≤ clampedConfidence q :=
  max_le_max_left 0 (min_le_min_right 100 (truncZero_mono h))

/-- The cast to `uint8_t` is exact, or what it makes of a number too small or
too large happens to be clamped like the number itself. -/
def CastsWell (fc : FloatCast) (cf : ℚ) : Prop :=
  (0 ≤ truncZero cf ∧ truncZero cf < 256) ∨
    (truncZero cf < 0 ∧ (fc.toUint8 cf).toNat = 0) ∨
    (256 ≤ truncZero cf ∧ 100 ≤ (fc.toUint8 cf).toNat)

theorem toNat_clampCf (c : UInt8) : (clampCf c).toNat = min c.toNat 100 := by
  unfold clampCf
  split
  · next hneg => exact absurd hneg UInt8.not_lt_zero
  · split
    · next hlarge =>
        have hlt : 100 < c.toNat := UInt8.lt_iff_toNat_lt.mp hlarge
        exact (Nat.min_eq_right (Nat.le_of_lt hlt)).symm
    · next hsmall =>
        have hle : c.toNat ≤ 100 := UInt8.le_iff_toNat_le.mp (UInt8.not_lt.mp hsmall)
        exact (Nat.min_eq_left hle).symm

/-- A clamped byte survives the C string and the sign: zero is the string's end,
and there is nothing above 100. -/
theorem charToInt_cString_clampCf (c : UInt8) :
    charToInt (firstChar (cString [clampCf c])) = (min c.toNat 100 : Nat) := by
  have hmin := toNat_clampCf c
  have hsmall : (clampCf c).toNat < 128 := by omega
  by_cases hzero : clampCf c = 0
  · rw [hzero] at hmin
    rw [hzero, ← hmin]
    rfl
  · have hkept : cString [clampCf c] = [clampCf c] := by
      rw [cString, List.takeWhile_cons_of_pos (by simpa using hzero), List.takeWhile_nil]
    rw [hkept, firstChar, List.headD_cons, charToInt_eq, if_pos hsmall, hmin]

/-- Clamping behind the cast is clamping in front of it for the numbers that
cast well and for no others. -/
theorem clampedConfidence_eq_iff (fc : FloatCast) (cf : ℚ) :
    ((min (fc.toUint8 cf).toNat 100 : Nat) : Int) = clampedConfidence cf ↔
      CastsWell fc cf := by
  have hexact (h0 : 0 ≤ truncZero cf) (h1 : truncZero cf < 256) :
      ((fc.toUint8 cf).toNat : Int) = truncZero cf := by
    rw [fc.toUint8_eq cf h0 h1, UInt8.toNat_ofNat']
    omega
  unfold clampedConfidence CastsWell
  omega

/-- On the usual machine the residue modulo 256 has to be clamped alike. -/
theorem castsWell_wrapping (cf : ℚ) :
    CastsWell .wrapping cf ↔
      (0 ≤ truncZero cf ∧ truncZero cf < 256) ∨
      (truncZero cf < 0 ∧ truncZero cf % 256 = 0) ∨
      (256 ≤ truncZero cf ∧ 100 ≤ truncZero cf % 256) := by
  have hbyte : (((FloatCast.wrapping.toUint8 cf).toNat : Nat) : Int) =
      truncZero cf % 256 :=
    toNat_intToChar (truncZero cf)
  unfold CastsWell
  omega

/-- The receiver takes the datagram, and from then on shows this ball for the
robot. -/
def ShowsBall (pb : Protobuf) (receiver : InfoShare) (now : ℚ) (d : Datagram) (id : Int)
    (ball : Pos2DCf) : Prop :=
  ∃ receiver', receiver.receivedDataHandler pb now d.bytes = .ok receiver' ∧
    receiver'.getballGlCf id = .ok ball

/-- The confidence a teammate shows is the byte that was clamped. -/
theorem Teammates.showsBall {sender receiver : InfoShare} (h : Teammates sender receiver)
    {info : CommonInfo} {d : Datagram} (hsends : Sends pb fc sender info d) (now : ℚ) :
    ∃ ball, ShowsBall pb receiver now d sender.selfId ball ∧
      ball.cf = ((min (fc.toUint8 info.ballGlCf.cf).toNat 100 : Nat) : Int) := by
  obtain ⟨e, htracks⟩ := h.tracks
  obtain ⟨command, behaviorName, receiver', hcall, -, -, htracks'⟩ :=
    h.receive hsends htracks now
  refine ⟨_, ⟨receiver', hcall, htracks'.getter _ _⟩, ?_⟩
  have hcf := charToInt_cString_clampCf (fc.toUint8 info.ballGlCf.cf)
  exact congrArg Int.cast hcf

/-- A teammate shows the confidence of the protocol exactly when it casts well.
A confidence that is cast to zero is shown as zero, and of two that cast well
the larger is not shown as the smaller. -/
theorem confidence_clamped_iff {sender receiver : InfoShare}
    (h : Teammates sender receiver) {info : CommonInfo} {d : Datagram}
    (hsends : Sends pb fc sender info d) (now : ℚ) :
    (∃ ball, ShowsBall pb receiver now d sender.selfId ball ∧
      (ball.cf = clampedConfidence info.ballGlCf.cf ↔ CastsWell fc info.ballGlCf.cf) ∧
      ((fc.toUint8 info.ballGlCf.cf).toNat = 0 → ball.cf = 0)) ∧
    ∀ info' d', Sends pb fc sender info' d' → info.ballGlCf.cf ≤ info'.ballGlCf.cf →
      CastsWell fc info.ballGlCf.cf → CastsWell fc info'.ballGlCf.cf →
      ∃ ball ball', ShowsBall pb receiver now d sender.selfId ball ∧
        ShowsBall pb receiver now d' sender.selfId ball' ∧ ball.cf ≤ ball'.cf := by
  obtain ⟨ball, hshows, hcf⟩ := h.showsBall hsends now
  refine ⟨⟨ball, hshows, ?_, ?_⟩, ?_⟩
  · rw [hcf, Int.cast_inj]
    exact clampedConfidence_eq_iff fc _
  · intro hzero
    rw [hcf, hzero]
    rfl
  · intro info' d' hsends' hle hwell hwell'
    obtain ⟨ball', hshows', hcf'⟩ := h.showsBall hsends' now
    refine ⟨ball, ball', hshows, hshows', ?_⟩
    rw [hcf, hcf', (clampedConfidence_eq_iff fc _).mpr hwell,
      (clampedConfidence_eq_iff fc _).mpr hwell', Int.cast_le]
    exact clampedConfidence_mono hle

/-- The example robot, too sure of itself. -/
def sampleSure : CommonInfo :=
  { sampleInfo with ballGlCf := { isDetect := true, pos := ⟨100, 200, 0⟩, cf := 300 } }

theorem sampleSure_sends : Sends wire .wrapping (sampleRobot 2 colorMagenta)
    sampleSure (sampleDatagram 2 sampleSure) :=
  sampleRobot_sends rfl rfl (by decide +kernel)

/-- A confidence of 300 is shown as 44, where 50 is shown as 50. -/
theorem confidence_wrapped :
    ∃ ball ball', ShowsBall wire (sampleRobot 1 colorMagenta) 0
        (sampleDatagram 2 sampleSure) 2 ball ∧
      ShowsBall wire (sampleRobot 1 colorMagenta) 0 (sampleDatagram 2 sampleBall) 2 ball' ∧
      sampleSure.ballGlCf.cf = 300 ∧ ball.cf = 44 ∧
      clampedConfidence sampleSure.ballGlCf.cf = 100 ∧
      sampleBall.ballGlCf.cf = 50 ∧ ball'.cf = 50 := by
  obtain ⟨ball, hshows, hcf⟩ := sampleRobot_teammates.showsBall sampleSure_sends 0
  obtain ⟨ball', hshows', hcf'⟩ := sampleRobot_teammates.showsBall sampleBall_sends 0
  have hsure : (FloatCast.wrapping.toUint8 sampleSure.ballGlCf.cf).toNat = 44 := by
    decide +kernel
  have hball : (FloatCast.wrapping.toUint8 sampleBall.ballGlCf.cf).toNat = 50 := by
    decide +kernel
  rw [hsure] at hcf
  rw [hball] at hcf'
  exact ⟨ball, ball', hshows, hshows', rfl, hcf, by decide +kernel, rfl, hcf'⟩

theorem confidence_clamped_half :
    ∃ ball, ShowsBall wire (sampleRobot 1 colorMagenta) 0
        (sampleDatagram 2 sampleBall) 2 ball ∧
      ball.cf = clampedConfidence sampleBall.ballGlCf.cf := by
  obtain ⟨⟨ball, hshows, hiff, -⟩, -⟩ :=
    confidence_clamped_iff sampleRobot_teammates sampleBall_sends 0
  exact ⟨ball, hshows, hiff.mpr (Or.inl (by decide +kernel))⟩

end InfoShare

end Playspace.Citbrains
