import Playspace.Citbrains.ControlMessage
import Playspace.Lib.Wire

/-!
# `hajime.proto` on the wire

The walk messages laid over the tagged-field format, as `infoshare.proto` is.
Every argument message is a handful of scalars of at most six bytes, so no
size condition is needed anywhere: a whole command never takes more than 256
bytes (`length_serializeAsString_le`), and `wire` has its round trip for every
message there is.
-/

namespace Playspace.Citbrains.ControlMessage

open Playspace.Lib.Wire

/-! ## Scalars -/

def sint32Field (num : Nat) (v : Option Int32) : List Field :=
  v.toList.map fun n => ⟨num, .varint (zigzag n.toInt)⟩

def uint32Field (num : Nat) (v : Option UInt32) : List Field :=
  v.toList.map fun n => ⟨num, .varint n.toNat⟩

def boolField (num : Nat) (v : Option Bool) : List Field :=
  v.toList.map fun b => ⟨num, .varint b.toNat⟩

def floatField (num : Nat) (v : Option FloatBits) : List Field :=
  v.toList.map fun x => ⟨num, .fixed32 (fixed32OfNat x.toNat)⟩

def sint32OfVarint (n : Nat) : Int32 := Int32.ofInt (unzigzag (n % 2 ^ 32))

def uint32OfVarint (n : Nat) : UInt32 := UInt32.ofNat n

def floatOfFixed32 (bytes : Bytes) : FloatBits := UInt32.ofNat (natOfFixed bytes)

theorem sint32OfVarint_zigzag (n : Int32) : sint32OfVarint (zigzag n.toInt) = n := by
  rw [sint32OfVarint, Nat.mod_eq_of_lt (zigzag_lt n.le_toInt n.toInt_lt),
    unzigzag_zigzag, Int32.ofInt_toInt]

theorem uint32OfVarint_toNat (n : UInt32) : uint32OfVarint n.toNat = n :=
  UInt32.ofNat_toNat

theorem floatOfFixed32_bits (x : FloatBits) :
    floatOfFixed32 (fixed32OfNat x.toNat) = x := by
  rw [floatOfFixed32, natOfFixed_fixed32 x.toNat_lt, UInt32.ofNat_toNat]

/-- At most `count` fields that can be written, each in at most `width` bytes. -/
structure Small (width count : Nat) (fs : List Field) : Prop where
  fits : ∀ f ∈ fs, f.Fits
  put_le : ∀ f ∈ fs, f.put.length ≤ width
  length_le : fs.length ≤ count

theorem Small.append {width j k : Nat} {fs gs : List Field} (hf : Small width j fs)
    (hg : Small width k gs) : Small width (j + k) (fs ++ gs) where
  fits := List.forall_mem_append.mpr ⟨hf.fits, hg.fits⟩
  put_le := List.forall_mem_append.mpr ⟨hf.put_le, hg.put_le⟩
  length_le := by
    rw [List.length_append]
    exact Nat.add_le_add hf.length_le hg.length_le

theorem Small.length_put_le {width count : Nat} {fs : List Field}
    (h : Small width count fs) : (putFields fs).length ≤ width * count :=
  Nat.le_trans (length_putFields_le h.put_le) (Nat.mul_le_mul_left width h.length_le)

/-- A singular field with one byte of tag. -/
theorem small_option {α : Type} {num width : Nat} {enc : α → Payload} (h0 : 0 < num)
    (h1 : num < 16) (v : Option α)
    (henc : ∀ a, (enc a).Fits ∧ (putPayload (enc a)).length ≤ width) :
    Small (width + 1) 1 (v.toList.map fun a => ⟨num, enc a⟩) where
  fits := by
    intro f hf
    obtain ⟨a, -, rfl⟩ := List.mem_map.mp hf
    exact ⟨h0, by show num < 2 ^ 29; omega, (henc a).1⟩
  put_le := by
    intro f hf
    obtain ⟨a, -, rfl⟩ := List.mem_map.mp hf
    have htype := (enc a).wireType_lt
    have hpayload := (henc a).2
    rw [Field.put, List.length_append, length_put64,
      varintSize_one (show num * 8 + (enc a).wireType < 128 by omega)]
    show 1 + (putPayload (enc a)).length ≤ width + 1
    omega
  length_le := by
    rw [List.length_map]
    exact Option.length_toList_le

theorem varint_small {n : Nat} (h : n < 2 ^ 32) :
    (Payload.varint n).Fits ∧ (putPayload (.varint n)).length ≤ 5 := by
  refine ⟨by show n < 2 ^ 64; omega, ?_⟩
  rw [putPayload, length_put64]
  exact varintSize_le_five h

theorem small_sint32 {num : Nat} (h0 : 0 < num) (h1 : num < 16) (v : Option Int32) :
    Small 6 1 (sint32Field num v) :=
  small_option h0 h1 v fun n => varint_small (zigzag_lt n.le_toInt n.toInt_lt)

theorem small_uint32 {num : Nat} (h0 : 0 < num) (h1 : num < 16) (v : Option UInt32) :
    Small 6 1 (uint32Field num v) :=
  small_option h0 h1 v fun n => varint_small n.toNat_lt

theorem small_bool {num : Nat} (h0 : 0 < num) (h1 : num < 16) (v : Option Bool) :
    Small 6 1 (boolField num v) := by
  refine small_option h0 h1 v fun b => varint_small ?_
  have hb := b.toNat_lt
  omega

theorem small_float {num : Nat} (h0 : 0 < num) (h1 : num < 16)
    (v : Option FloatBits) : Small 6 1 (floatField num v) :=
  small_option h0 h1 v fun _ => ⟨rfl, by show 4 ≤ 5; omega⟩

section merging

variable {M : Type} (merge : M → Field → M × Bool) {num : Nat}

theorem mergeAll_sint32 (set : Option Int32 → M)
    (hmerge : ∀ n, merge (set none) ⟨num, .varint n⟩ =
      (set (some (sint32OfVarint n)), true)) (v : Option Int32) :
    mergeAll merge (set none) (sint32Field num v) = some (set v) :=
  mergeAll_option set fun n _ => by rw [hmerge, sint32OfVarint_zigzag]

theorem mergeAll_uint32 (set : Option UInt32 → M)
    (hmerge : ∀ n, merge (set none) ⟨num, .varint n⟩ =
      (set (some (uint32OfVarint n)), true)) (v : Option UInt32) :
    mergeAll merge (set none) (uint32Field num v) = some (set v) :=
  mergeAll_option set fun n _ => by rw [hmerge, uint32OfVarint_toNat]

theorem mergeAll_bool (set : Option Bool → M)
    (hmerge : ∀ n, merge (set none) ⟨num, .varint n⟩ = (set (some (n != 0)), true))
    (v : Option Bool) :
    mergeAll merge (set none) (boolField num v) = some (set v) :=
  mergeAll_option set fun b _ => by rw [hmerge]; cases b <;> rfl

theorem mergeAll_float (set : Option FloatBits → M)
    (hmerge : ∀ b, merge (set none) ⟨num, .fixed32 b⟩ =
      (set (some (floatOfFixed32 b)), true)) (v : Option FloatBits) :
    mergeAll merge (set none) (floatField num v) = some (set v) :=
  mergeAll_option set fun x _ => by rw [hmerge, floatOfFixed32_bits]

end merging

/-! ## The argument messages -/

def Walk.fields (m : Walk) : List Field :=
  sint32Field 1 m.num ++ (sint32Field 2 m.angle ++ (sint32Field 3 m.stridex ++
  (sint32Field 4 m.stridey ++ sint32Field 5 m.period)))

def Walk.merge (m : Walk) (f : Field) : Walk × Bool :=
  match f.num, f.payload with
  | 1, .varint n => ({ m with num := some (sint32OfVarint n) }, true)
  | 2, .varint n => ({ m with angle := some (sint32OfVarint n) }, true)
  | 3, .varint n => ({ m with stridex := some (sint32OfVarint n) }, true)
  | 4, .varint n => ({ m with stridey := some (sint32OfVarint n) }, true)
  | 5, .varint n => ({ m with period := some (sint32OfVarint n) }, true)
  | _, _ => (m, true)

def AccurateWalk.fields (m : AccurateWalk) : List Field :=
  sint32Field 1 m.steps ++ (floatField 2 m.x ++ (floatField 3 m.y ++ floatField 4 m.th))

def AccurateWalk.merge (m : AccurateWalk) (f : Field) : AccurateWalk × Bool :=
  match f.num, f.payload with
  | 1, .varint n => ({ m with steps := some (sint32OfVarint n) }, true)
  | 2, .fixed32 b => ({ m with x := some (floatOfFixed32 b) }, true)
  | 3, .fixed32 b => ({ m with y := some (floatOfFixed32 b) }, true)
  | 4, .fixed32 b => ({ m with th := some (floatOfFixed32 b) }, true)
  | _, _ => (m, true)

def PanOrTilt.fields (m : PanOrTilt) : List Field :=
  sint32Field 1 m.pan ++ (sint32Field 2 m.tilt ++ sint32Field 3 m.time)

def PanOrTilt.merge (m : PanOrTilt) (f : Field) : PanOrTilt × Bool :=
  match f.num, f.payload with
  | 1, .varint n => ({ m with pan := some (sint32OfVarint n) }, true)
  | 2, .varint n => ({ m with tilt := some (sint32OfVarint n) }, true)
  | 3, .varint n => ({ m with time := some (sint32OfVarint n) }, true)
  | _, _ => (m, true)

def Motion.fields (m : Motion) : List Field :=
  uint32Field 1 m.no ++ (uint32Field 2 m.repeats ++ boolField 3 m.ignoresuspend)

def Motion.merge (m : Motion) (f : Field) : Motion × Bool :=
  match f.num, f.payload with
  | 1, .varint n => ({ m with no := some (uint32OfVarint n) }, true)
  | 2, .varint n => ({ m with repeats := some (uint32OfVarint n) }, true)
  | 3, .varint n => ({ m with ignoresuspend := some (n != 0) }, true)
  | _, _ => (m, true)

def Power.fields (m : Power) : List Field := boolField 1 m.on

def Power.merge (m : Power) (f : Field) : Power × Bool :=
  match f.num, f.payload with
  | 1, .varint n => ({ m with on := some (n != 0) }, true)
  | _, _ => (m, true)

theorem Walk.small (m : Walk) : Small 6 5 m.fields :=
  (small_sint32 (by omega) (by omega) _).append
    ((small_sint32 (by omega) (by omega) _).append
      ((small_sint32 (by omega) (by omega) _).append
        ((small_sint32 (by omega) (by omega) _).append
          (small_sint32 (by omega) (by omega) _))))

theorem AccurateWalk.small (m : AccurateWalk) : Small 6 4 m.fields :=
  (small_sint32 (by omega) (by omega) _).append
    ((small_float (by omega) (by omega) _).append
      ((small_float (by omega) (by omega) _).append
        (small_float (by omega) (by omega) _)))

theorem PanOrTilt.small (m : PanOrTilt) : Small 6 3 m.fields :=
  (small_sint32 (by omega) (by omega) _).append
    ((small_sint32 (by omega) (by omega) _).append
      (small_sint32 (by omega) (by omega) _))

theorem Motion.small (m : Motion) : Small 6 3 m.fields :=
  (small_uint32 (by omega) (by omega) _).append
    ((small_uint32 (by omega) (by omega) _).append
      (small_bool (by omega) (by omega) _))

theorem Power.small (m : Power) : Small 6 1 m.fields :=
  small_bool (by omega) (by omega) _

theorem Walk.merge_fields (m : Walk) : mergeAll Walk.merge {} m.fields = some m := by
  obtain ⟨num, angle, stridex, stridey, period⟩ := m
  simp only [Walk.fields]
  rw [mergeAll_append (mergeAll_sint32 Walk.merge (fun v => { num := v })
      (fun _ => rfl) num),
    mergeAll_append (mergeAll_sint32 Walk.merge (fun v => { num, angle := v })
      (fun _ => rfl) angle),
    mergeAll_append (mergeAll_sint32 Walk.merge (fun v => { num, angle, stridex := v })
      (fun _ => rfl) stridex),
    mergeAll_append (mergeAll_sint32 Walk.merge
      (fun v => { num, angle, stridex, stridey := v }) (fun _ => rfl) stridey)]
  exact mergeAll_sint32 Walk.merge
    (fun v => { num, angle, stridex, stridey, period := v }) (fun _ => rfl) period

theorem AccurateWalk.merge_fields (m : AccurateWalk) :
    mergeAll AccurateWalk.merge {} m.fields = some m := by
  obtain ⟨steps, x, y, th⟩ := m
  simp only [AccurateWalk.fields]
  rw [mergeAll_append (mergeAll_sint32 AccurateWalk.merge (fun v => { steps := v })
      (fun _ => rfl) steps),
    mergeAll_append (mergeAll_float AccurateWalk.merge (fun v => { steps, x := v })
      (fun _ => rfl) x),
    mergeAll_append (mergeAll_float AccurateWalk.merge (fun v => { steps, x, y := v })
      (fun _ => rfl) y)]
  exact mergeAll_float AccurateWalk.merge (fun v => { steps, x, y, th := v })
    (fun _ => rfl) th

theorem PanOrTilt.merge_fields (m : PanOrTilt) :
    mergeAll PanOrTilt.merge {} m.fields = some m := by
  obtain ⟨pan, tilt, time⟩ := m
  simp only [PanOrTilt.fields]
  rw [mergeAll_append (mergeAll_sint32 PanOrTilt.merge (fun v => { pan := v })
      (fun _ => rfl) pan),
    mergeAll_append (mergeAll_sint32 PanOrTilt.merge (fun v => { pan, tilt := v })
      (fun _ => rfl) tilt)]
  exact mergeAll_sint32 PanOrTilt.merge (fun v => { pan, tilt, time := v })
    (fun _ => rfl) time

theorem Motion.merge_fields (m : Motion) :
    mergeAll Motion.merge {} m.fields = some m := by
  obtain ⟨no, repeats, ignoresuspend⟩ := m
  simp only [Motion.fields]
  rw [mergeAll_append (mergeAll_uint32 Motion.merge (fun v => { no := v })
      (fun _ => rfl) no),
    mergeAll_append (mergeAll_uint32 Motion.merge (fun v => { no, repeats := v })
      (fun _ => rfl) repeats)]
  exact mergeAll_bool Motion.merge (fun v => { no, repeats, ignoresuspend := v })
    (fun _ => rfl) ignoresuspend

theorem Power.merge_fields (m : Power) : mergeAll Power.merge {} m.fields = some m := by
  obtain ⟨on⟩ := m
  exact mergeAll_bool Power.merge (fun v => { on := v }) (fun _ => rfl) on

/-! ## The command -/

/-- The field of an argument message, if it is there. -/
def argsField {α : Type} (fields : α → List Field) (num : Nat) (v : Option α) :
    List Field :=
  v.toList.map fun m => ⟨num, .len (putFields (fields m))⟩

def WalkCommand.fields (m : WalkCommand) : List Field :=
  uint32Field 1 m.commandNum ++ (argsField Walk.fields 2 m.walkArgs ++
  (argsField PanOrTilt.fields 3 m.panArgs ++ (argsField PanOrTilt.fields 4 m.tiltArgs ++
  (argsField Motion.fields 5 m.motionArgs ++
  (argsField PanOrTilt.fields 6 m.pantiltArgs ++
  (argsField Power.fields 7 m.powerArgs ++
  argsField AccurateWalk.fields 9 m.accurateWalkArgs))))))

def WalkCommand.merge (m : WalkCommand) (f : Field) : WalkCommand × Bool :=
  match f.num, f.payload with
  | 1, .varint n => ({ m with commandNum := some (uint32OfVarint n) }, true)
  | 2, .len b =>
      let (args, ok) := parseMessage Walk.merge (m.walkArgs.getD {}) b
      ({ m with walkArgs := some args }, ok)
  | 3, .len b =>
      let (args, ok) := parseMessage PanOrTilt.merge (m.panArgs.getD {}) b
      ({ m with panArgs := some args }, ok)
  | 4, .len b =>
      let (args, ok) := parseMessage PanOrTilt.merge (m.tiltArgs.getD {}) b
      ({ m with tiltArgs := some args }, ok)
  | 5, .len b =>
      let (args, ok) := parseMessage Motion.merge (m.motionArgs.getD {}) b
      ({ m with motionArgs := some args }, ok)
  | 6, .len b =>
      let (args, ok) := parseMessage PanOrTilt.merge (m.pantiltArgs.getD {}) b
      ({ m with pantiltArgs := some args }, ok)
  | 7, .len b =>
      let (args, ok) := parseMessage Power.merge (m.powerArgs.getD {}) b
      ({ m with powerArgs := some args }, ok)
  | 8, .len b => (m, (parseMessage (fun u _ => (u, true)) () b).2)
  | 9, .len b =>
      let (args, ok) := parseMessage AccurateWalk.merge (m.accurateWalkArgs.getD {}) b
      ({ m with accurateWalkArgs := some args }, ok)
  | _, _ => (m, true)

def serializeAsString (m : WalkCommand) : Bytes := putFields m.fields

def parseFromString (bytes : Bytes) : Bool × WalkCommand :=
  let (m, ok) := parseMessage WalkCommand.merge {} bytes
  (ok && m.isInitialized, m)

theorem small_args {α : Type} {fields : α → List Field} {num count : Nat} (h0 : 0 < num)
    (h1 : num < 16) (hcount : count ≤ 5) (v : Option α)
    (h : ∀ m, Small 6 count (fields m)) : Small 32 1 (argsField fields num v) := by
  refine small_option h0 h1 v fun m => ?_
  have hlength := (h m).length_put_le
  refine ⟨by show (putFields (fields m)).length < 2 ^ 64; omega, ?_⟩
  rw [putPayload, List.length_append, length_put64, varintSize_one (by omega)]
  omega

theorem WalkCommand.small (m : WalkCommand) : Small 32 8 m.fields := by
  have hnum : Small 6 1 (uint32Field 1 m.commandNum) :=
    small_uint32 (by omega) (by omega) m.commandNum
  have hcommand : Small 32 1 (uint32Field 1 m.commandNum) :=
    ⟨hnum.fits, fun f hf => Nat.le_trans (hnum.put_le f hf) (by omega), hnum.length_le⟩
  have hpan (num : Nat) (h0 : 0 < num) (h1 : num < 16) (v : Option PanOrTilt) :
      Small 32 1 (argsField PanOrTilt.fields num v) :=
    small_args h0 h1 (by omega) v PanOrTilt.small
  exact hcommand.append
    ((small_args (by omega) (by omega) (by omega) _ Walk.small).append
      ((hpan 3 (by omega) (by omega) _).append
        ((hpan 4 (by omega) (by omega) _).append
          ((small_args (by omega) (by omega) (by omega) _ Motion.small).append
            ((hpan 6 (by omega) (by omega) _).append
              ((small_args (by omega) (by omega) (by omega) _ Power.small).append
                (small_args (by omega) (by omega) (by omega) _ AccurateWalk.small)))))))

/-- Any command, whatever is set in it. -/
theorem length_serializeAsString_le (m : WalkCommand) :
    (serializeAsString m).length ≤ 256 :=
  m.small.length_put_le

/-- An argument message is read into an empty one, and comes out whole. -/
theorem mergeAll_args {α : Type} {num : Nat} {fields : α → List Field}
    (merge : α → Field → α × Bool) (empty : α) (set : Option α → WalkCommand)
    (hmerge : ∀ b, WalkCommand.merge (set none) ⟨num, .len b⟩ =
      (set (some (parseMessage merge empty b).1), (parseMessage merge empty b).2))
    (hsmall : ∀ m, ∃ count, Small 6 count (fields m))
    (hfields : ∀ m, mergeAll merge empty (fields m) = some m) (v : Option α) :
    mergeAll WalkCommand.merge (set none) (argsField fields num v) = some (set v) := by
  refine mergeAll_option set fun m _ => ?_
  obtain ⟨count, hm⟩ := hsmall m
  rw [hmerge, parseMessage_put hm.fits (hfields m)]

theorem WalkCommand.merge_fields (m : WalkCommand) :
    mergeAll WalkCommand.merge {} m.fields = some m := by
  have hpan (num : Nat) (set : Option PanOrTilt → WalkCommand)
      (hmerge : ∀ b, WalkCommand.merge (set none) ⟨num, .len b⟩ =
        (set (some (parseMessage PanOrTilt.merge {} b).1),
          (parseMessage PanOrTilt.merge {} b).2)) (v : Option PanOrTilt) :
      mergeAll WalkCommand.merge (set none) (argsField PanOrTilt.fields num v) =
        some (set v) :=
    mergeAll_args PanOrTilt.merge {} set hmerge (fun m => ⟨3, m.small⟩)
      PanOrTilt.merge_fields v
  obtain ⟨commandNum, walkArgs, panArgs, tiltArgs, motionArgs, pantiltArgs, powerArgs,
    accurateWalkArgs⟩ := m
  simp only [WalkCommand.fields]
  rw [mergeAll_append (mergeAll_uint32 WalkCommand.merge (fun v => { commandNum := v })
      (fun _ => rfl) commandNum),
    mergeAll_append (mergeAll_args Walk.merge {}
      (fun v => { commandNum, walkArgs := v }) (fun _ => rfl) (fun m => ⟨5, m.small⟩)
      Walk.merge_fields walkArgs),
    mergeAll_append (hpan 3 (fun v => { commandNum, walkArgs, panArgs := v })
      (fun _ => rfl) panArgs),
    mergeAll_append (hpan 4 (fun v => { commandNum, walkArgs, panArgs, tiltArgs := v })
      (fun _ => rfl) tiltArgs),
    mergeAll_append (mergeAll_args Motion.merge {}
      (fun v => { commandNum, walkArgs, panArgs, tiltArgs, motionArgs := v })
      (fun _ => rfl) (fun m => ⟨3, m.small⟩) Motion.merge_fields motionArgs),
    mergeAll_append (hpan 6 (fun v =>
      { commandNum, walkArgs, panArgs, tiltArgs, motionArgs, pantiltArgs := v })
      (fun _ => rfl) pantiltArgs),
    mergeAll_append (mergeAll_args Power.merge {} (fun v =>
      { commandNum, walkArgs, panArgs, tiltArgs, motionArgs, pantiltArgs,
        powerArgs := v })
      (fun _ => rfl) (fun m => ⟨1, m.small⟩) Power.merge_fields powerArgs)]
  exact mergeAll_args AccurateWalk.merge {} (fun v =>
    { commandNum, walkArgs, panArgs, tiltArgs, motionArgs, pantiltArgs, powerArgs,
      accurateWalkArgs := v })
    (fun _ => rfl) (fun m => ⟨4, m.small⟩) AccurateWalk.merge_fields accurateWalkArgs

theorem parse_serialize (m : WalkCommand) :
    parseFromString (serializeAsString m) = (m.isInitialized, m) := by
  rw [serializeAsString, parseFromString, parseMessage_put m.small.fits m.merge_fields]
  rfl

/-! ## The status -/

/-- The elements of a packed field. -/
def unpack {α : Type} (get : Bytes → Option (α × Bytes)) : Nat → Bytes → List α × Bool
  | _, [] => ([], true)
  | 0, _ => ([], false)
  | fuel + 1, bytes =>
      match get bytes with
      | none => ([], false)
      | some (a, rest) =>
          let (as, ok) := unpack get fuel rest
          (a :: as, ok)

/-- One occurrence of a repeated field, an element or a packed run of them. -/
def sint32Elements : Payload → List Int32 × Bool
  | .varint n => ([sint32OfVarint n], true)
  | .len b =>
      let (ns, ok) := unpack get64 b.length b
      (ns.map sint32OfVarint, ok)
  | _ => ([], true)

@[inherit_doc sint32Elements]
def floatElements : Payload → List FloatBits × Bool
  | .fixed32 b => ([floatOfFixed32 b], true)
  | .len b =>
      let (bs, ok) := unpack (getBytes 4) b.length b
      (bs.map floatOfFixed32, ok)
  | _ => ([], true)

def RobotStatus.merge (m : RobotStatus) (f : Field) : RobotStatus × Bool :=
  match f.num, f.payload with
  | 1, .varint n => ({ m with type := some (sint32OfVarint n) }, true)
  | 2, .varint n => ({ m with active := some (sint32OfVarint n) }, true)
  | 3, .varint n => ({ m with command := some (sint32OfVarint n) }, true)
  | 4, .varint n => ({ m with posture := some (sint32OfVarint n) }, true)
  | 5, .varint n => ({ m with temperature := some (sint32OfVarint n) }, true)
  | 6, .varint n => ({ m with servo1temp := some (sint32OfVarint n) }, true)
  | 7, .varint n => ({ m with motorVoltage := some (sint32OfVarint n) }, true)
  | 8, p =>
      let (ns, ok) := sint32Elements p
      ({ m with odometry := m.odometry ++ ns }, ok)
  | 9, .fixed32 b => ({ m with gyroMotion := some (floatOfFixed32 b) }, true)
  | 10, p =>
      let (ns, ok) := sint32Elements p
      ({ m with servo := m.servo ++ ns }, ok)
  | 11, p =>
      let (xs, ok) := floatElements p
      ({ m with servoRad := m.servoRad ++ xs }, ok)
  | 12, p =>
      let (xs, ok) := floatElements p
      ({ m with quaternion := m.quaternion ++ xs }, ok)
  | _, _ => (m, true)

/-- No field of a status is required. -/
def parseStatus (bytes : Bytes) : Bool × RobotStatus :=
  let (m, ok) := parseMessage RobotStatus.merge {} bytes
  (ok, m)

/-- The generated classes, read and written as the wire format says. -/
def wire : WalkProtobuf where
  serializeAsString := serializeAsString
  parseFromString := parseFromString
  parseStatus := parseStatus
  parse_serialize := parse_serialize

example : wire.parseStatus [0x38, 0xf0, 0x01, 0x40, 0x01, 0x42, 0x02, 0x02, 0x04] =
    (true, { motorVoltage := some 120, odometry := [-1, 1, 2] }) := by decide +kernel

end Playspace.Citbrains.ControlMessage
