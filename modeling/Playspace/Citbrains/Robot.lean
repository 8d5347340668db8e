import Playspace.Citbrains.Message
import Playspace.Citbrains.Dictionary

/-!
# `OtherRobotInfomation`: what is stored about one teammate

The entry keeps the last value received in each field, and `store` is the part
of `receivedDataHandler` that writes it: the scalar fields each under their own
presence test, the lists when they are not empty, the two positions when their
message is there. `carried…` is the same code read the other way round, as the
value a message carries for a field, if any; `store_eq` says that storing is
writing what is carried.
-/

namespace Playspace.Citbrains

open CitbrainsMessage (SharingData)

/-- One entry of `robot_data_list_`. The status flags are an
`std::atomic_uint32_t`, the other scalars `std::atomic_int32_t`. -/
structure OtherRobotInfomation where
  id : Int
  status : Nat := 0
  fps : Int := 0
  voltage : Int := 0
  temperature : Int := 0
  highestServo : Int := 0
  recvTime : ℚ
  ourRobotGl : List (Pos2D ℚ) := []
  enemyRobotGl : List (Pos2D ℚ) := []
  blackPoleGl : List (Pos2D ℚ) := []
  targetPosVec : List (Pos2D ℚ) := []
  selfPosCf : Pos2DCf := {}
  ballGlCf : Pos2DCf := {}
  command : Bytes := []
  currentBehaviorName : Bytes := []
deriving DecidableEq

/-- The constructor; `now` is the clock's answer to `setRecv_time`. -/
def OtherRobotInfomation.new (id : Int) (now : ℚ) : OtherRobotInfomation :=
  { id, recvTime := now }

def scaleXY : ℚ := 1
def scaleTheta : ℚ := 100

/-! ## Reading the message -/

/-- `if (has_f()) { f().size() == 0 ? store(0) : store(f().at(0)) }`. -/
def storeByte (field : Option Bytes) (old : Int) : Int :=
  match field with
  | none => old
  | some [] => 0
  | some (c :: _) => charToInt c

/-- The same store into an unsigned 32-bit cell. -/
def storeFlags (field : Option Bytes) (old : Nat) : Nat :=
  match field with
  | none => old
  | some [] => 0
  | some (c :: _) => (charToInt c % 2 ^ 32).toNat

/-- One received pose. -/
def recvPos2D (p : CitbrainsMessage.Pos2D) : Pos2D ℚ where
  x := (p.posX.getD 0 : ℚ) / scaleXY
  y := (p.posY.getD 0 : ℚ) / scaleXY
  th := (p.posTheta.getD 0 : ℚ) / scaleTheta

/-- `if (0 < f_size()) { clear(); emplace_back(..) for each }`. -/
def storePoses (poses : List CitbrainsMessage.Pos2D) (old : List (Pos2D ℚ)) :
    List (Pos2D ℚ) :=
  if 0 < poses.length then poses.map recvPos2D else old

/-- `s[0]` of a constant string, the terminating zero when it is empty. -/
def firstChar (s : Bytes) : UInt8 := s.headD 0

/-- The block that unpacks `ball_gl_cf`. -/
def storeBall (field : Option CitbrainsMessage.Pos2DCf) (old : Pos2DCf) : Pos2DCf :=
  match field with
  | none => old
  | some p =>
      let cf := if p.confidence.isSome then charToInt (firstChar (p.confidence.getD []))
        else 0
      { old with
        cf := cf
        isDetect := p.isDetect.getD false
        pos := recvPos2D (p.position.getD {}) }

/-- The block that unpacks `self_pos_cf`; it sets the confidence twice. -/
def storeSelf (field : Option CitbrainsMessage.Pos2DCf) (old : Pos2DCf) : Pos2DCf :=
  match field with
  | none => old
  | some p =>
      let cf := if p.confidence.isSome then charToInt (firstChar (p.confidence.getD []))
        else 0
      let first := { old with cf := (cf : ℚ) }
      { first with
        cf := charToInt (firstChar (p.confidence.getD []))
        isDetect := p.isDetect.getD false
        pos := recvPos2D (p.position.getD {}) }

/-- The received command, or the one stored before; decoding may write to the
dictionary. -/
def storeCommand (field : Option Bytes) (old : Bytes) (d : SerializeStringByDict) :
    Bytes × SerializeStringByDict :=
  match field with
  | none => (old, d)
  | some seq => if seq.length = 0 then ([], d) else d.numSequenceToCommand seq

def storeBehaviorName (field : Option Bytes) (old : Bytes)
    (d : SerializeStringByDict) : Bytes × SerializeStringByDict :=
  match field with
  | none => (old, d)
  | some seq => if seq.length = 0 then ([], d) else d.numSequenceToBehaviorName seq

/-- Everything `receivedDataHandler` does to the entry it picked, `now` being
the clock's answer to `setRecv_time`. -/
def OtherRobotInfomation.store (now : ℚ) (m : SharingData)
    (d : SerializeStringByDict) (e : OtherRobotInfomation) :
    OtherRobotInfomation × SerializeStringByDict :=
  let (command, d₁) := storeCommand m.command e.command d
  let (name, d₂) := storeBehaviorName m.currentBehaviorName e.currentBehaviorName d₁
  ({ id := e.id
     recvTime := now
     status := storeFlags m.status e.status
     fps := storeByte m.fps e.fps
     voltage := storeByte m.voltage e.voltage
     temperature := storeByte m.temperature e.temperature
     highestServo := storeByte m.highestServo e.highestServo
     command := command
     currentBehaviorName := name
     ourRobotGl := storePoses m.ourRobotGl e.ourRobotGl
     enemyRobotGl := storePoses m.enemyRobotGl e.enemyRobotGl
     blackPoleGl := storePoses m.blackPoleGl e.blackPoleGl
     targetPosVec := storePoses m.targetPosVec e.targetPosVec
     ballGlCf := storeBall m.ballGlCf e.ballGlCf
     selfPosCf := storeSelf m.selfPosCf e.selfPosCf }, d₂)

/-! ## What a message carries

The value a message has for a field, `none` when the presence test fails. The
two copies of the position block agree, the confidence set twice and all. -/

def carriedByte (field : Option Bytes) : Option Int :=
  field.map fun b => match b with
    | [] => 0
    | c :: _ => charToInt c

def carriedFlags (field : Option Bytes) : Option Nat :=
  (carriedByte field).map fun n => (n % 2 ^ 32).toNat

/-- The coordinates as they are, the angle in hundredths. -/
def carriedPos2D (p : CitbrainsMessage.Pos2D) : Pos2D ℚ where
  x := p.posX.getD 0
  y := p.posY.getD 0
  th := (p.posTheta.getD 0 : ℚ) / 100

def carriedPoses (poses : List CitbrainsMessage.Pos2D) : Option (List (Pos2D ℚ)) :=
  if poses = [] then none else some (poses.map carriedPos2D)

def carriedPos2DCf (field : Option CitbrainsMessage.Pos2DCf) : Option Pos2DCf :=
  field.map fun p =>
    { cf := charToInt (firstChar (p.confidence.getD []))
      isDetect := p.isDetect.getD false
      pos := carriedPos2D (p.position.getD {}) }

def carriedText (words : WordOf) (field : Option Bytes) : Option Bytes :=
  field.map (decoded words)

theorem storeByte_eq (field : Option Bytes) (old : Int) :
    storeByte field old = (carriedByte field).getD old := by
  match field with
  | none => rfl
  | some [] => rfl
  | some (_ :: _) => rfl

theorem storeFlags_eq (field : Option Bytes) (old : Nat) :
    storeFlags field old = (carriedFlags field).getD old := by
  match field with
  | none => rfl
  | some [] => rfl
  | some (_ :: _) => rfl

theorem recvPos2D_eq (p : CitbrainsMessage.Pos2D) : recvPos2D p = carriedPos2D p := by
  unfold recvPos2D carriedPos2D scaleXY scaleTheta
  rw [div_one, div_one]

theorem storePoses_eq (poses : List CitbrainsMessage.Pos2D) (old : List (Pos2D ℚ)) :
    storePoses poses old = (carriedPoses poses).getD old := by
  cases poses with
  | nil => rfl
  | cons p poses => simp [storePoses, carriedPoses, recvPos2D_eq]

theorem storeBall_eq (field : Option CitbrainsMessage.Pos2DCf) (old : Pos2DCf) :
    storeBall field old = (carriedPos2DCf field).getD old := by
  cases field with
  | none => rfl
  | some p =>
      obtain ⟨position, confidence, isDetect⟩ := p
      simp only [storeBall, carriedPos2DCf, recvPos2D_eq, Option.map_some, Option.getD_some]
      cases confidence with
      | none => rfl
      | some c => rfl

theorem storeSelf_eq (field : Option CitbrainsMessage.Pos2DCf) (old : Pos2DCf) :
    storeSelf field old = (carriedPos2DCf field).getD old := by
  cases field with
  | none => rfl
  | some p =>
      simp only [storeSelf, carriedPos2DCf, recvPos2D_eq, Option.map_some, Option.getD_some]

/-- The two dictionaries decode alike. -/
def SerializeStringByDict.SameWords (d d' : SerializeStringByDict) : Prop :=
  (∀ k, wordAt d.numToCommand k = wordAt d'.numToCommand k) ∧
    ∀ k, wordAt d.numToBehaviorName k = wordAt d'.numToBehaviorName k

theorem SerializeStringByDict.SameWords.refl (d : SerializeStringByDict) :
    d.SameWords d :=
  ⟨fun _ => rfl, fun _ => rfl⟩

theorem SerializeStringByDict.SameWords.trans {d d' d'' : SerializeStringByDict}
    (h : d.SameWords d') (h' : d'.SameWords d'') : d.SameWords d'' :=
  ⟨fun k => (h.1 k).trans (h'.1 k), fun k => (h.2 k).trans (h'.2 k)⟩

theorem storeCommand_eq (field : Option Bytes) (old : Bytes)
    (d : SerializeStringByDict) :
    (storeCommand field old d).1 = (carriedText d.numToCommand field).getD old ∧
      (storeCommand field old d).2.SameWords d := by
  match field with
  | none => exact ⟨rfl, .refl d⟩
  | some [] => exact ⟨rfl, .refl d⟩
  | some (c :: seq) =>
      obtain ⟨h1, h2⟩ := numSequenceTo_spec (c :: seq) d.numToCommand
      exact ⟨h1, h2, fun _ => rfl⟩

theorem storeBehaviorName_eq (field : Option Bytes) (old : Bytes)
    (d : SerializeStringByDict) :
    (storeBehaviorName field old d).1 =
        (carriedText d.numToBehaviorName field).getD old ∧
      (storeBehaviorName field old d).2.SameWords d := by
  match field with
  | none => exact ⟨rfl, .refl d⟩
  | some [] => exact ⟨rfl, .refl d⟩
  | some (c :: seq) =>
      obtain ⟨h1, h2⟩ := numSequenceTo_spec (c :: seq) d.numToBehaviorName
      exact ⟨h1, fun _ => rfl, h2⟩

theorem carriedText_congr {words words' : WordOf}
    (h : ∀ k, wordAt words k = wordAt words' k) (field : Option Bytes) :
    carriedText words field = carriedText words' field := by
  cases field with
  | none => rfl
  | some seq => simp [carriedText, decoded_congr h]

/-- An entry after a message: each field takes what the message carries. -/
def OtherRobotInfomation.write (d : SerializeStringByDict)
    (e : OtherRobotInfomation) (now : ℚ) (m : SharingData) : OtherRobotInfomation where
  id := e.id
  recvTime := now
  status := (carriedFlags m.status).getD e.status
  fps := (carriedByte m.fps).getD e.fps
  voltage := (carriedByte m.voltage).getD e.voltage
  temperature := (carriedByte m.temperature).getD e.temperature
  highestServo := (carriedByte m.highestServo).getD e.highestServo
  command := (carriedText d.numToCommand m.command).getD e.command
  currentBehaviorName := (carriedText d.numToBehaviorName m.currentBehaviorName).getD
    e.currentBehaviorName
  ourRobotGl := (carriedPoses m.ourRobotGl).getD e.ourRobotGl
  enemyRobotGl := (carriedPoses m.enemyRobotGl).getD e.enemyRobotGl
  blackPoleGl := (carriedPoses m.blackPoleGl).getD e.blackPoleGl
  targetPosVec := (carriedPoses m.targetPosVec).getD e.targetPosVec
  ballGlCf := (carriedPos2DCf m.ballGlCf).getD e.ballGlCf
  selfPosCf := (carriedPos2DCf m.selfPosCf).getD e.selfPosCf

/-- Storing a message writes what it carries, under any dictionary that
decodes alike, and leaves the dictionary decoding as before. -/
theorem OtherRobotInfomation.store_eq {d d₀ : SerializeStringByDict}
    (hd : d.SameWords d₀) (now : ℚ) (m : SharingData) (e : OtherRobotInfomation) :
    (e.store now m d).1 = e.write d₀ now m ∧ (e.store now m d).2.SameWords d := by
  obtain ⟨hc, hdc⟩ := storeCommand_eq m.command e.command d
  obtain ⟨hb, hdb⟩ := storeBehaviorName_eq m.currentBehaviorName
    e.currentBehaviorName (storeCommand m.command e.command d).2
  refine ⟨?_, ?_⟩
  · rw [carriedText_congr hd.1] at hc
    rw [carriedText_congr (hdc.trans hd).2] at hb
    simp only [OtherRobotInfomation.store, OtherRobotInfomation.write, hc, hb,
      storeFlags_eq, storeByte_eq, storePoses_eq, storeBall_eq, storeSelf_eq]
  · exact hdb.trans hdc

end Playspace.Citbrains
