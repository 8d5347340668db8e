import Playspace.Citbrains.Message
import Playspace.Lib.Wire

/-!
# `infoshare.proto` on the wire

The schema laid over the tagged-field format, with the field numbers of
`infoshare.proto`: `fields` lists what a message writes, in the order of the
numbers, and `merge` is what one field does to a message that is being read. A
field of an unexpected number or wire type is skipped, a repeated occurrence
of a submessage is merged into the first, and a submessage that breaks off
leaves what it had.

`Protobuf.wire` is the resulting instance of the generated class. Statements
about the program quantify over every `Protobuf`; this one is what runs on
concrete bytes.
-/

namespace Playspace.Citbrains.CitbrainsMessage

open Playspace.Lib.Wire

/-! ## Fields -/

def bytesField (num : Nat) (v : Option Bytes) : List Field :=
  v.toList.map fun b => ⟨num, .len b⟩

def sint32Field (num : Nat) (v : Option Int) : List Field :=
  v.toList.map fun n => ⟨num, .varint (zigzag n)⟩

def boolField (num : Nat) (v : Option Bool) : List Field :=
  v.toList.map fun b => ⟨num, .varint b.toNat⟩

def sint32OfVarint (n : Nat) : Int := unzigzag (n % 2 ^ 32)

def Pos2D.fields (p : Pos2D) : List Field :=
  sint32Field 1 p.posX ++ sint32Field 2 p.posY ++ sint32Field 3 p.posTheta

def Pos2D.merge (p : Pos2D) (f : Field) : Pos2D × Bool :=
  match f.num, f.payload with
  | 1, .varint n => ({ p with posX := some (sint32OfVarint n) }, true)
  | 2, .varint n => ({ p with posY := some (sint32OfVarint n) }, true)
  | 3, .varint n => ({ p with posTheta := some (sint32OfVarint n) }, true)
  | _, _ => (p, true)

def Pos2D.put (p : Pos2D) : Bytes := putFields p.fields

def Pos2D.isInitialized (p : Pos2D) : Bool :=
  p.posX.isSome && p.posY.isSome && p.posTheta.isSome

def positionField (num : Nat) (v : Option Pos2D) : List Field :=
  v.toList.map fun p => ⟨num, .len p.put⟩

def Pos2DCf.fields (p : Pos2DCf) : List Field :=
  positionField 1 p.position ++ bytesField 2 p.confidence ++ boolField 3 p.isDetect

def Pos2DCf.merge (p : Pos2DCf) (f : Field) : Pos2DCf × Bool :=
  match f.num, f.payload with
  | 1, .len b =>
      let (position, ok) := parseMessage Pos2D.merge (p.position.getD {}) b
      ({ p with position := some position }, ok)
  | 2, .len b => ({ p with confidence := some b }, true)
  | 3, .varint n => ({ p with isDetect := some (n != 0) }, true)
  | _, _ => (p, true)

def Pos2DCf.put (p : Pos2DCf) : Bytes := putFields p.fields

def Pos2DCf.isInitialized (p : Pos2DCf) : Bool :=
  (p.position.map Pos2D.isInitialized).getD false && p.confidence.isSome

def posesField (num : Nat) (poses : List Pos2D) : List Field :=
  poses.map fun p => ⟨num, .len p.put⟩

def pos2DCfField (num : Nat) (v : Option Pos2DCf) : List Field :=
  v.toList.map fun p => ⟨num, .len p.put⟩

def SharingData.fields (m : SharingData) : List Field :=
  bytesField 1 m.id ++ (bytesField 4 m.status ++ (bytesField 5 m.fps ++
  (bytesField 6 m.voltage ++ (bytesField 7 m.temperature ++
  (bytesField 8 m.highestServo ++ (bytesField 9 m.command ++
  (bytesField 10 m.currentBehaviorName ++ (posesField 12 m.ourRobotGl ++
  (posesField 13 m.enemyRobotGl ++ (posesField 14 m.blackPoleGl ++
  (posesField 15 m.targetPosVec ++ (pos2DCfField 16 m.ballGlCf ++
  (pos2DCfField 17 m.selfPosCf ++ bytesField 19 m.teamColor)))))))))))))

/-- One element of a repeated field. -/
def mergePose (b : Bytes) : Pos2D × Bool := parseMessage Pos2D.merge {} b

def SharingData.merge (m : SharingData) (f : Field) : SharingData × Bool :=
  match f.num, f.payload with
  | 1, .len b => ({ m with id := some b }, true)
  | 4, .len b => ({ m with status := some b }, true)
  | 5, .len b => ({ m with fps := some b }, true)
  | 6, .len b => ({ m with voltage := some b }, true)
  | 7, .len b => ({ m with temperature := some b }, true)
  | 8, .len b => ({ m with highestServo := some b }, true)
  | 9, .len b => ({ m with command := some b }, true)
  | 10, .len b => ({ m with currentBehaviorName := some b }, true)
  | 12, .len b =>
      ({ m with ourRobotGl := m.ourRobotGl ++ [(mergePose b).1] }, (mergePose b).2)
  | 13, .len b =>
      ({ m with enemyRobotGl := m.enemyRobotGl ++ [(mergePose b).1] }, (mergePose b).2)
  | 14, .len b =>
      ({ m with blackPoleGl := m.blackPoleGl ++ [(mergePose b).1] }, (mergePose b).2)
  | 15, .len b =>
      ({ m with targetPosVec := m.targetPosVec ++ [(mergePose b).1] }, (mergePose b).2)
  | 16, .len b =>
      let (p, ok) := parseMessage Pos2DCf.merge (m.ballGlCf.getD {}) b
      ({ m with ballGlCf := some p }, ok)
  | 17, .len b =>
      let (p, ok) := parseMessage Pos2DCf.merge (m.selfPosCf.getD {}) b
      ({ m with selfPosCf := some p }, ok)
  | 19, .len b => ({ m with teamColor := some b }, true)
  | 20, .len b => (m, (parseMessage (fun u _ => (u, true)) () b).2)
  | _, _ => (m, true)

def SharingData.isInitialized (m : SharingData) : Bool :=
  m.id.isSome && m.teamColor.isSome && m.ourRobotGl.all Pos2D.isInitialized &&
    m.enemyRobotGl.all Pos2D.isInitialized && m.blackPoleGl.all Pos2D.isInitialized &&
    m.targetPosVec.all Pos2D.isInitialized && m.ballGlCf.all Pos2DCf.isInitialized &&
    m.selfPosCf.all Pos2DCf.isInitialized

def serializeAsString (m : SharingData) : Bytes := putFields m.fields

/-- The fields are read into a cleared message; the answer is whether all of
them could be read and no required one is missing. -/
def parseFromString (bytes : Bytes) : Bool × SharingData :=
  let (m, ok) := parseMessage SharingData.merge {} bytes
  (ok && m.isInitialized, m)

/-! ## The round trip -/

theorem payload_length_le (num : Nat) {fs : List Field} {b : Bytes}
    (h : (⟨num, .len b⟩ : Field) ∈ fs) : b.length ≤ (putFields fs).length := by
  have hsub : (Field.put ⟨num, .len b⟩).length ≤ (putFields fs).length :=
    (List.sublist_flatten_of_mem (List.mem_map_of_mem h)).length_le
  refine Nat.le_trans ?_ hsub
  simp only [Field.put, putPayload, List.length_append]
  omega

/-- A field of a message this size is one the format can hold, as soon as its
number is and any integer in it is. -/
theorem field_fits {fs : List Field} {f : Field} (hf : f ∈ fs)
    (hsize : (putFields fs).length < 2 ^ 31) (h0 : 0 < f.num) (h1 : f.num ≤ 20)
    (hp : (∃ b, f.payload = .len b) ∨ ∃ n, n < 2 ^ 32 ∧ f.payload = .varint n) :
    f.Fits := by
  obtain ⟨num, payload⟩ := f
  simp only at h0 h1 hp
  refine ⟨h0, by norm_num; omega, ?_⟩
  rcases hp with ⟨b, rfl⟩ | ⟨n, hn, rfl⟩
  · have hle := payload_length_le _ hf
    show b.length < 2 ^ 64
    norm_num at hsize ⊢
    omega
  · show n < 2 ^ 64
    norm_num at hn ⊢
    omega

theorem sint32OfVarint_zigzag {n : Int} (h : fitsInt32 n) :
    sint32OfVarint (zigzag n) = n := by
  rw [sint32OfVarint, Nat.mod_eq_of_lt (zigzag_lt h.1 h.2), unzigzag_zigzag]

theorem Pos2D.merge_fields {p : Pos2D} (h : p.WellFormed) :
    mergeAll Pos2D.merge {} p.fields = some p ∧ ∀ f ∈ p.fields, f.Fits := by
  obtain ⟨posX, posY, posTheta⟩ := p
  obtain ⟨⟨x, hx, hxf⟩, ⟨y, hy, hyf⟩, ⟨t, ht, htf⟩⟩ := h
  simp only at hx hy ht
  subst hx hy ht
  refine ⟨?_, ?_⟩
  · simp [Pos2D.fields, sint32Field, mergeAll, Pos2D.merge, sint32OfVarint_zigzag hxf,
      sint32OfVarint_zigzag hyf, sint32OfVarint_zigzag htf]
  · have hfit : ∀ {num : Nat} {n : Int}, 0 < num → num ≤ 20 → fitsInt32 n →
        (⟨num, .varint (zigzag n)⟩ : Field).Fits := by
      intro num n h0 h1 hn
      have hz := zigzag_lt hn.1 hn.2
      refine ⟨h0, by show num < 2 ^ 29; omega, ?_⟩
      show zigzag n < 2 ^ 64
      omega
    intro f hf
    simp only [Pos2D.fields, sint32Field, Option.toList_some, List.map_cons,
      List.map_nil, List.cons_append, List.nil_append, List.mem_cons,
      List.not_mem_nil, or_false] at hf
    rcases hf with rfl | rfl | rfl
    · exact hfit (by omega) (by omega) hxf
    · exact hfit (by omega) (by omega) hyf
    · exact hfit (by omega) (by omega) htf

theorem Pos2D.parse_put {p : Pos2D} (h : p.WellFormed) :
    parseMessage Pos2D.merge {} p.put = (p, true) :=
  parseMessage_put (Pos2D.merge_fields h).2 (Pos2D.merge_fields h).1

theorem Pos2DCf.parse_put {p : Pos2DCf} (h : p.WellFormed)
    (hsize : p.put.length < 2 ^ 31) :
    parseMessage Pos2DCf.merge {} p.put = (p, true) := by
  have hfits : ∀ f ∈ p.fields, f.Fits := by
    intro f hf
    refine field_fits hf hsize ?_ ?_ ?_ <;>
      simp only [Pos2DCf.fields, positionField, bytesField, boolField, List.mem_append,
        List.mem_map] at hf <;>
      rcases hf with (⟨q, _, rfl⟩ | ⟨b, _, rfl⟩) | ⟨b, _, rfl⟩
    all_goals first
      | exact Nat.succ_pos _
      | exact Nat.le_of_ble_eq_true rfl
      | exact Or.inl ⟨_, rfl⟩
      | exact Or.inr ⟨_, by cases b <;> decide, rfl⟩
  refine parseMessage_put hfits ?_
  obtain ⟨position, confidence, isDetect⟩ := p
  obtain ⟨⟨q, hq, hqw⟩, hconf⟩ := h
  obtain ⟨c, hc⟩ := Option.isSome_iff_exists.mp hconf
  simp only at hq hc
  subst hq hc
  have hpos := Pos2D.parse_put hqw
  cases isDetect with
  | none => simp [Pos2DCf.fields, positionField, bytesField, boolField, mergeAll,
      Pos2DCf.merge, hpos]
  | some b => cases b <;> simp [Pos2DCf.fields, positionField, bytesField, boolField,
      mergeAll, Pos2DCf.merge, hpos]

section merging

/-! Each member of `SharingData` is read by one case of `merge`; `set` is the
message as a function of that member. -/

theorem mergeAll_bytes {num : Nat} (set : Option Bytes → SharingData)
    (hmerge : ∀ b, SharingData.merge (set none) ⟨num, .len b⟩ = (set (some b), true))
    (v : Option Bytes) :
    mergeAll SharingData.merge (set none) (bytesField num v) = some (set v) :=
  mergeAll_option set fun b _ => hmerge b

theorem mergeAll_pos2DCf {num : Nat} (set : Option Pos2DCf → SharingData)
    (hmerge : ∀ b, SharingData.merge (set none) ⟨num, .len b⟩ =
      (set (some (parseMessage Pos2DCf.merge {} b).1),
        (parseMessage Pos2DCf.merge {} b).2))
    {v : Option Pos2DCf} (hw : ∀ p ∈ v, p.WellFormed)
    (hsize : ∀ p ∈ v, p.put.length < 2 ^ 31) :
    mergeAll SharingData.merge (set none) (pos2DCfField num v) = some (set v) := by
  refine mergeAll_option set fun p hp => ?_
  rw [hmerge, Pos2DCf.parse_put (hw p hp) (hsize p hp)]

/-- A repeated field appends its elements. -/
theorem mergeAll_poses {num : Nat} (set : List Pos2D → SharingData)
    (hmerge : ∀ acc b, SharingData.merge (set acc) ⟨num, .len b⟩ =
      (set (acc ++ [(mergePose b).1]), (mergePose b).2)) :
    ∀ (poses acc : List Pos2D), (∀ p ∈ poses, p.WellFormed) →
    mergeAll SharingData.merge (set acc) (posesField num poses) =
      some (set (acc ++ poses)) := by
  intro poses
  induction poses with
  | nil => intro acc _; simp [posesField, mergeAll]
  | cons p poses ih =>
      intro acc hw
      have hp : mergePose p.put = (p, true) := Pos2D.parse_put (hw p (by simp))
      have htail := ih (acc ++ [p]) fun q hq => hw q (by simp [hq])
      simp only [posesField, List.map_cons, mergeAll, hmerge, hp]
      rw [posesField] at htail
      simpa using htail

end merging

theorem SharingData.fits {m : SharingData}
    (hsize : (serializeAsString m).length < 2 ^ 31) : ∀ f ∈ m.fields, f.Fits := by
  intro f hf
  refine field_fits hf hsize ?_ ?_ ?_ <;>
    simp only [SharingData.fields, bytesField, posesField, pos2DCfField, List.mem_append,
      List.mem_map] at hf <;>
    rcases hf with ⟨b, _, rfl⟩ | ⟨b, _, rfl⟩ | ⟨b, _, rfl⟩ | ⟨b, _, rfl⟩ | ⟨b, _, rfl⟩ |
      ⟨b, _, rfl⟩ | ⟨b, _, rfl⟩ | ⟨b, _, rfl⟩ | ⟨p, _, rfl⟩ | ⟨p, _, rfl⟩ | ⟨p, _, rfl⟩ |
      ⟨p, _, rfl⟩ | ⟨p, _, rfl⟩ | ⟨p, _, rfl⟩ | ⟨b, _, rfl⟩
  all_goals first
    | exact Nat.succ_pos _
    | exact Nat.le_of_ble_eq_true rfl
    | exact Or.inl ⟨_, rfl⟩

theorem mem_pos2DCfField {num : Nat} {v : Option Pos2DCf} {p : Pos2DCf} (hp : p ∈ v) :
    (⟨num, .len p.put⟩ : Field) ∈ pos2DCfField num v :=
  List.mem_map_of_mem (Option.mem_toList.mpr hp)

/-- A cleared message reads back every field that was written. -/
theorem SharingData.merge_fields {m : SharingData} (h : m.WellFormed)
    (hsize : (serializeAsString m).length < 2 ^ 31) :
    mergeAll SharingData.merge {} m.fields = some m := by
  have hball : ∀ p ∈ m.ballGlCf, p.put.length < 2 ^ 31 := fun p hp =>
    Nat.lt_of_le_of_lt (payload_length_le 16
      (by simp [SharingData.fields, mem_pos2DCfField hp])) hsize
  have hself : ∀ p ∈ m.selfPosCf, p.put.length < 2 ^ 31 := fun p hp =>
    Nat.lt_of_le_of_lt (payload_length_le 17
      (by simp [SharingData.fields, mem_pos2DCfField hp])) hsize
  obtain ⟨id, teamColor, status, fps, voltage, temperature, highestServo, command, name,
    our, enemy, black, target, ball, self⟩ := m
  obtain ⟨-, -, hour, henemy, hblack, htarget, hballw, hselfw⟩ := h
  simp only [SharingData.fields] at *
  rw [mergeAll_append (mergeAll_bytes (fun v => { id := v }) (fun _ => rfl) id),
    mergeAll_append (mergeAll_bytes (fun v => { id, status := v }) (fun _ => rfl) status),
    mergeAll_append (mergeAll_bytes (fun v => { id, status, fps := v })
      (fun _ => rfl) fps),
    mergeAll_append (mergeAll_bytes (fun v => { id, status, fps, voltage := v })
      (fun _ => rfl) voltage),
    mergeAll_append (mergeAll_bytes (fun v =>
      { id, status, fps, voltage, temperature := v }) (fun _ => rfl) temperature),
    mergeAll_append (mergeAll_bytes (fun v =>
      { id, status, fps, voltage, temperature, highestServo := v })
      (fun _ => rfl) highestServo),
    mergeAll_append (mergeAll_bytes (fun v =>
      { id, status, fps, voltage, temperature, highestServo, command := v })
      (fun _ => rfl) command),
    mergeAll_append (mergeAll_bytes (fun v =>
      { id, status, fps, voltage, temperature, highestServo, command,
        currentBehaviorName := v }) (fun _ => rfl) name),
    mergeAll_append (mergeAll_poses (fun l =>
      { id, status, fps, voltage, temperature, highestServo, command,
        currentBehaviorName := name, ourRobotGl := l })
      (fun _ _ => rfl) our [] hour), List.nil_append,
    mergeAll_append (mergeAll_poses (fun l =>
      { id, status, fps, voltage, temperature, highestServo, command,
        currentBehaviorName := name, ourRobotGl := our, enemyRobotGl := l })
      (fun _ _ => rfl) enemy [] henemy), List.nil_append,
    mergeAll_append (mergeAll_poses (fun l =>
      { id, status, fps, voltage, temperature, highestServo, command,
        currentBehaviorName := name, ourRobotGl := our, enemyRobotGl := enemy,
        blackPoleGl := l }) (fun _ _ => rfl) black [] hblack), List.nil_append,
    mergeAll_append (mergeAll_poses (fun l =>
      { id, status, fps, voltage, temperature, highestServo, command,
        currentBehaviorName := name, ourRobotGl := our, enemyRobotGl := enemy,
        blackPoleGl := black, targetPosVec := l })
      (fun _ _ => rfl) target [] htarget), List.nil_append,
    mergeAll_append (mergeAll_pos2DCf (fun v =>
      { id, status, fps, voltage, temperature, highestServo, command,
        currentBehaviorName := name, ourRobotGl := our, enemyRobotGl := enemy,
        blackPoleGl := black, targetPosVec := target, ballGlCf := v })
      (fun _ => rfl) hballw hball),
    mergeAll_append (mergeAll_pos2DCf (fun v =>
      { id, status, fps, voltage, temperature, highestServo, command,
        currentBehaviorName := name, ourRobotGl := our, enemyRobotGl := enemy,
        blackPoleGl := black, targetPosVec := target, ballGlCf := ball,
        selfPosCf := v }) (fun _ => rfl) hselfw hself)]
  exact mergeAll_bytes (fun v =>
    { id, teamColor := v, status, fps, voltage, temperature, highestServo, command,
      currentBehaviorName := name, ourRobotGl := our, enemyRobotGl := enemy,
      blackPoleGl := black, targetPosVec := target, ballGlCf := ball,
      selfPosCf := self }) (fun _ => rfl) teamColor

theorem Pos2D.isInitialized_of_wellFormed {p : Pos2D} (h : p.WellFormed) :
    p.isInitialized = true := by
  obtain ⟨⟨x, hx, -⟩, ⟨y, hy, -⟩, ⟨t, ht, -⟩⟩ := h
  simp [Pos2D.isInitialized, hx, hy, ht]

theorem Pos2DCf.isInitialized_of_wellFormed {p : Pos2DCf} (h : p.WellFormed) :
    p.isInitialized = true := by
  obtain ⟨⟨q, hq, hqw⟩, hc⟩ := h
  simp [Pos2DCf.isInitialized, hq, hc, Pos2D.isInitialized_of_wellFormed hqw]

theorem SharingData.isInitialized_of_wellFormed {m : SharingData} (h : m.WellFormed) :
    m.isInitialized = true := by
  simp only [SharingData.isInitialized, h.id, h.teamColor, Bool.and_self, Bool.true_and,
    Bool.and_eq_true, List.all_eq_true, Option.all_eq_true]
  refine ⟨⟨⟨⟨⟨?_, ?_⟩, ?_⟩, ?_⟩, ?_⟩, ?_⟩
  · exact fun p hp => Pos2D.isInitialized_of_wellFormed (h.ourRobotGl p hp)
  · exact fun p hp => Pos2D.isInitialized_of_wellFormed (h.enemyRobotGl p hp)
  · exact fun p hp => Pos2D.isInitialized_of_wellFormed (h.blackPoleGl p hp)
  · exact fun p hp => Pos2D.isInitialized_of_wellFormed (h.targetPosVec p hp)
  · exact fun p hp => Pos2DCf.isInitialized_of_wellFormed (h.ballGlCf p hp)
  · exact fun p hp => Pos2DCf.isInitialized_of_wellFormed (h.selfPosCf p hp)

theorem parse_serialize {m : SharingData} (h : m.WellFormed)
    (hsize : (serializeAsString m).length < 2 ^ 31) :
    parseFromString (serializeAsString m) = (true, m) := by
  have hput := parseMessage_put (SharingData.fits hsize)
    (SharingData.merge_fields h hsize)
  rw [serializeAsString, parseFromString, hput]
  simp [SharingData.isInitialized_of_wellFormed h]

/-! ## Cut-off messages -/

/-- Only field 1 writes the id. -/
theorem SharingData.merge_id (m : SharingData) (f : Field) (h : f.num ≠ 1) :
    (SharingData.merge m f).1.id = m.id := by
  obtain ⟨num, payload⟩ := f
  simp only [SharingData.merge]
  split <;> first | rfl | exact absurd rfl h

theorem mergeAll_id {b : Bytes} : ∀ {fs : List Field} {m m' : SharingData},
    (∀ f ∈ fs, f.num = 1 → f = ⟨1, .len b⟩) → m.id.getD [] <+: b →
    mergeAll SharingData.merge m fs = some m' → m'.id.getD [] <+: b := by
  intro fs
  induction fs with
  | nil => intro m m' _ hb h; cases h; exact hb
  | cons f fs ih =>
      intro m m' hf hb h
      have hstep : (SharingData.merge m f).1.id.getD [] <+: b := by
        by_cases hnum : f.num = 1
        · rw [hf f (by simp) hnum]
          exact List.prefix_rfl
        · rw [SharingData.merge_id m f hnum]
          exact hb
      simp only [mergeAll] at h
      split at h
      · cases h
      · next m₁ hm =>
          rw [hm] at hstep
          exact ih (fun g hg => hf g (by simp [hg])) hstep h

theorem SharingData.id_field {m : SharingData} {f : Field} (hf : f ∈ m.fields)
    (hnum : f.num = 1) : f = ⟨1, .len (m.id.getD [])⟩ := by
  simp only [SharingData.fields, bytesField, posesField, pos2DCfField, List.mem_append,
    List.mem_map] at hf
  rcases hf with ⟨b, hb, rfl⟩ | hf
  · rw [Option.mem_toList] at hb
    rw [Option.mem_def.mp hb]
    rfl
  · rcases hf with ⟨b, _, rfl⟩ | ⟨b, _, rfl⟩ | ⟨b, _, rfl⟩ | ⟨b, _, rfl⟩ | ⟨b, _, rfl⟩ |
      ⟨b, _, rfl⟩ | ⟨b, _, rfl⟩ | ⟨p, _, rfl⟩ | ⟨p, _, rfl⟩ | ⟨p, _, rfl⟩ |
      ⟨p, _, rfl⟩ | ⟨p, _, rfl⟩ | ⟨p, _, rfl⟩ | ⟨b, _, rfl⟩ <;>
      simp at hnum

theorem parse_take {m : SharingData} (n : Nat) (h : m.WellFormed)
    (hsize : (serializeAsString m).length < 2 ^ 31) :
    (parseFromString ((serializeAsString m).take n)).2.id.getD [] <+: m.id.getD [] := by
  obtain ⟨j, hj⟩ := parseFields_take (SharingData.fits hsize)
    ((putFields m.fields).take n).length n (SharingData.merge_fields h hsize)
  exact mergeAll_id (m := {})
    (fun f hf hnum => SharingData.id_field (List.mem_of_mem_take hf) hnum)
    (by simp) hj

/-- The generated class, read and written as the wire format says. -/
def wire : Protobuf where
  parseFromString := parseFromString
  serializeAsString := serializeAsString
  parse_serialize _ := parse_serialize
  parse_take _ n := parse_take n

example : wire.parseFromString [0x0a, 0x01, 0x02, 0x9a, 0x01, 0x01, 0x05] =
    (true, { id := some [2], teamColor := some [5] }) := by decide +kernel

end Playspace.Citbrains.CitbrainsMessage
