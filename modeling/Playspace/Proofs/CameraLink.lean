import Playspace.Webotsvision.CameraLink

/-!
# What the receiver of the camera link shows

The messages arrive whole and in order, and a message is parsed back as it was
(`mergeAll_fields`). What the buffer holds behind it decides the rest: as long as
no earlier message was longer these are the zeros it was made with, where the
parser stops (`link_shows`). What a longer one has left there is parsed as if it
belonged to the message (`link_overwritten`).
-/

namespace Playspace.Webotsvision

open Playspace.Lib
open Playspace.Lib.Wire

namespace CameraMeasurement

/-- The length of the message. -/
def size (m : CameraMeasurement) : Nat := m.serializeAsString.length

section

variable (verifyUTF8 : Bytes → Bool)

/-- A name that the parser lets through; an empty one is not sent. -/
def Named (m : CameraMeasurement) : Prop := m.name ≠ [] → verifyUTF8 m.name = true

variable {verifyUTF8} {m : CameraMeasurement}

theorem mergeField_varint (v : Bytes → Bool) (n : Nat) :
    mergeField v m ⟨2, .varint n⟩ = ({ m with width := UInt32.ofNat n }, true) ∧
    mergeField v m ⟨3, .varint n⟩ = ({ m with height := UInt32.ofNat n }, true) ∧
    mergeField v m ⟨4, .varint n⟩ =
      ({ m with quality := Int32.ofInt (unzigzag (n % 2 ^ 32)) }, true) ∧
    mergeField v m ⟨6, .varint n⟩ = ({ m with simtime := (UInt64.ofNat n).toInt64 }, true) :=
  ⟨rfl, rfl, rfl, rfl⟩

theorem quality_read (n : Int32) :
    Int32.ofInt (unzigzag (zigzag n.toInt % 2 ^ 32)) = n := by
  rw [Nat.mod_eq_of_lt (zigzag_lt n.le_toInt n.toInt_lt), unzigzag_zigzag, Int32.ofInt_toInt]

/-- One field after another is set, those that are not there have their default. -/
theorem mergeAll_fields (h : m.Named verifyUTF8) :
    mergeAll (mergeField verifyUTF8) cleared m.fields = some m := by
  have hname : mergeAll (mergeField verifyUTF8) cleared
      (if m.name ≠ [] then [⟨1, .len m.name⟩] else []) = some ⟨m.name, 0, 0, 0, [], 0⟩ :=
    mergeAll_present (fun hne => congrArg (Prod.mk _) (h hne))
      (fun hnil => by rw [not_not.mp hnil]; rfl)
  have hwidth : mergeAll (mergeField verifyUTF8) ⟨m.name, 0, 0, 0, [], 0⟩
      (if m.width ≠ 0 then [⟨2, .varint m.width.toNat⟩] else []) =
        some ⟨m.name, m.width, 0, 0, [], 0⟩ :=
    mergeAll_present (fun _ => by rw [(mergeField_varint _ _).1, UInt32.ofNat_toNat])
      (fun hzero => by rw [not_not.mp hzero])
  have hheight : mergeAll (mergeField verifyUTF8) ⟨m.name, m.width, 0, 0, [], 0⟩
      (if m.height ≠ 0 then [⟨3, .varint m.height.toNat⟩] else []) =
        some ⟨m.name, m.width, m.height, 0, [], 0⟩ :=
    mergeAll_present (fun _ => by rw [(mergeField_varint _ _).2.1, UInt32.ofNat_toNat])
      (fun hzero => by rw [not_not.mp hzero])
  have hquality : mergeAll (mergeField verifyUTF8) ⟨m.name, m.width, m.height, 0, [], 0⟩
      (if m.quality ≠ 0 then [⟨4, .varint (zigzag m.quality.toInt)⟩] else []) =
        some ⟨m.name, m.width, m.height, m.quality, [], 0⟩ :=
    mergeAll_present (fun _ => by rw [(mergeField_varint _ _).2.2.1, quality_read])
      (fun hzero => by rw [not_not.mp hzero])
  have himage : mergeAll (mergeField verifyUTF8) ⟨m.name, m.width, m.height, m.quality, [], 0⟩
      (if m.image ≠ [] then [⟨5, .len m.image⟩] else []) =
        some ⟨m.name, m.width, m.height, m.quality, m.image, 0⟩ :=
    mergeAll_present (fun _ => rfl) (fun hnil => by rw [not_not.mp hnil])
  have hsimtime : mergeAll (mergeField verifyUTF8)
      ⟨m.name, m.width, m.height, m.quality, m.image, 0⟩
      (if m.simtime ≠ 0 then [⟨6, .varint m.simtime.toUInt64.toNat⟩] else []) = some m :=
    mergeAll_present
      (fun _ => by rw [(mergeField_varint _ _).2.2.2, UInt64.ofNat_toNat, Int64.toInt64_toUInt64])
      (fun hzero => by rw [← not_not.mp hzero])
  rw [fields, List.append_assoc, List.append_assoc, List.append_assoc, List.append_assoc,
    mergeAll_append hname, mergeAll_append hwidth, mergeAll_append hheight,
    mergeAll_append hquality, mergeAll_append himage, hsimtime]

theorem fits_mk {num : Nat} {payload : Payload} (hnum : 0 < num ∧ num < 7)
    (h : payload.Fits) : Field.Fits ⟨num, payload⟩ :=
  ⟨hnum.1, Nat.lt_trans hnum.2 (by simp), h⟩

theorem fits_varint {n : Nat} (h : n < 2 ^ 32) : (Payload.varint n).Fits := by
  show n < 2 ^ 64
  omega

theorem fits_len {num : Nat} {bytes : Bytes}
    (h : (Field.put ⟨num, .len bytes⟩).length ≤ maxLenMessage) : (Payload.len bytes).Fits := by
  rw [length_put_len, maxLenMessage] at h
  show bytes.length < 2 ^ 64
  omega

theorem fits_fields (h : m.size ≤ maxLenMessage) : ∀ f ∈ m.fields, f.Fits := by
  intro f hf
  have hlen : f.put.length ≤ maxLenMessage := Nat.le_trans (length_put_le_putFields hf) h
  simp only [fields, List.mem_append, List.mem_ite_nil_right, List.mem_singleton] at hf
  rcases hf with ((((⟨-, rfl⟩ | ⟨-, rfl⟩) | ⟨-, rfl⟩) | ⟨-, rfl⟩) | ⟨-, rfl⟩) | ⟨-, rfl⟩
  · exact fits_mk (by simp) (fits_len hlen)
  · exact fits_mk (by simp) (fits_varint m.width.toNat_lt)
  · exact fits_mk (by simp) (fits_varint m.height.toNat_lt)
  · exact fits_mk (by simp)
      (fits_varint (zigzag_lt m.quality.le_toInt m.quality.toInt_lt))
  · exact fits_mk (by simp) (fits_len hlen)
  · exact fits_mk (by simp) m.simtime.toUInt64.toNat_lt

/-- What is behind a message is read as more of it. -/
theorem parse_append (hname : m.Named verifyUTF8) (hsize : m.size ≤ maxLenMessage)
    (tail : Bytes) : ∃ fuel, tail.length ≤ fuel ∧
      parseFromString verifyUTF8 (m.serializeAsString ++ tail) =
        parseFields (mergeField verifyUTF8) fuel m tail := by
  have hle := length_le_putFields m.fields
  refine ⟨(m.serializeAsString ++ tail).length - m.fields.length, ?_, ?_⟩
  · rw [List.length_append, serializeAsString]
    omega
  · rw [parseFromString, parseMessage]
    refine parseFields_put_append (fits_fields hsize) tail (mergeAll_fields hname) ?_
    rw [List.length_append, serializeAsString]
    omega

/-- Zeros are not. -/
theorem parse_append_zeros (hname : m.Named verifyUTF8) (hsize : m.size ≤ maxLenMessage)
    {tail : Bytes} (hzeros : ∀ b ∈ tail, b = 0) :
    (parseFromString verifyUTF8 (m.serializeAsString ++ tail)).1 = m := by
  obtain ⟨fuel, -, hparse⟩ := parse_append hname hsize tail
  rw [hparse]
  cases tail with
  | nil => cases fuel <;> rfl
  | cons b rest => rw [hzeros b List.mem_cons_self, parseFields_zero]

end

end CameraMeasurement

/-! ## Runs -/

/-- The pictures of a run, in the order of their sending. -/
def sent (events : List LinkEvent) : List CameraMeasurement :=
  events.filterMap fun
    | .send picture => some picture
    | .receive => none

/-- What the receiver prints `i`th is the size of the `i`th picture, and the height
of it unless a longer one was there before. -/
def Shown (pictures : List CameraMeasurement) (i : Nat) (out : Nat × Int32) : Prop :=
  ∃ picture, pictures[i]? = some picture ∧ out.1 = picture.size ∧
    ((∀ earlier ∈ pictures.take i, earlier.size ≤ picture.size) →
      out.2 = picture.height.toInt32)

theorem Shown.append {pictures : List CameraMeasurement} {i : Nat} {out : Nat × Int32}
    (h : Shown pictures i out) (more : List CameraMeasurement) :
    Shown (pictures ++ more) i out := by
  obtain ⟨picture, hget, hsize, hheight⟩ := h
  have hi := (List.getElem?_eq_some_iff.mp hget).1
  refine ⟨picture, ?_, hsize, ?_⟩
  · rw [List.getElem?_append_left hi, hget]
  · rwa [List.take_append_of_le_length hi.le]

/-- The state after `pictures` were sent. `zeros`: where no message has reached, the
buffer is as it was made. -/
structure Linked (pictures : List CameraMeasurement) (s : Link) : Prop where
  carried : s.msgq.carried = pictures.map CameraMeasurement.serializeAsString
  size_le : ∀ picture ∈ pictures, picture.size ≤ maxLenMessage
  buffer : s.receivedData.length = maxLenMessage
  zeros : ∀ n, (∀ msg ∈ s.msgq.received, msg.length ≤ n) →
    ∀ b ∈ s.receivedData.drop n, b = 0
  length : s.output.length = s.msgq.received.length
  shown : ∀ i out, s.output[i]? = some out → Shown pictures i out

theorem linked_new : Linked [] Link.new where
  carried := rfl
  size_le := fun _ h => absurd h List.not_mem_nil
  buffer := List.length_replicate
  zeros := fun _ _ _ hb => List.eq_of_mem_replicate (List.mem_of_mem_drop hb)
  length := rfl
  shown := nofun

section

variable {verifyUTF8 : Bytes → Bool} {pictures : List CameraMeasurement} {s s' : Link}

theorem Linked.send (h : Linked pictures s) {picture : CameraMeasurement}
    (hstep : linkStep verifyUTF8 s (.send picture) = .ok s') :
    Linked (pictures ++ [picture]) s' := by
  rw [linkStep] at hstep
  split at hstep
  · cases hstep
  · next hfits =>
      split at hstep
      · cases hstep
      · cases hstep
        refine ⟨?_, ?_, h.buffer, ?_, ?_, fun i out hout => (h.shown i out hout).append _⟩
        · rw [Channel.carried_send, h.carried, List.map_append]
          rfl
        · rw [List.forall_mem_append]
          exact ⟨h.size_le, fun q hq => List.mem_singleton.mp hq ▸ Nat.le_of_not_lt hfits⟩
        · rw [Channel.received_send]
          exact h.zeros
        · rw [Channel.received_send]
          exact h.length

/-- The message that is received next is that of the picture after those received. -/
theorem Linked.next (h : Linked pictures s) {msg : Bytes} {msgq : Channel Bytes}
    (hreceive : s.msgq.receive = some (msg, msgq)) :
    ∃ picture, pictures[s.output.length]? = some picture ∧ picture.serializeAsString = msg ∧
      (pictures.take s.output.length).map CameraMeasurement.serializeAsString =
        s.msgq.received := by
  obtain ⟨hreceived, hcarried⟩ := Channel.receive_eq_some hreceive
  have hmap : pictures.map CameraMeasurement.serializeAsString =
      s.msgq.received ++ ([msg] ++ msgq.inFlight) := by
    rw [← h.carried, ← hcarried, Channel.carried, hreceived, List.append_assoc]
  have hget := congrArg (fun msgs => msgs[s.output.length]?) hmap
  rw [List.getElem?_map, h.length, List.getElem?_append_right le_rfl, Nat.sub_self] at hget
  obtain ⟨picture, hpicture, hser⟩ := Option.map_eq_some_iff.mp hget
  refine ⟨picture, h.length ▸ hpicture, hser, ?_⟩
  rw [List.map_take, hmap, h.length, List.take_left]

theorem Linked.receive (h : Linked pictures s)
    (hnames : ∀ picture ∈ pictures, picture.Named verifyUTF8)
    (hstep : linkStep verifyUTF8 s .receive = .ok s') : Linked pictures s' := by
  rw [linkStep] at hstep
  split at hstep
  · cases hstep
  · next msg msgq hreceive =>
      cases hstep
      obtain ⟨hreceived, hcarried⟩ := Channel.receive_eq_some hreceive
      obtain ⟨picture, hpicture, rfl, hearlier⟩ := h.next hreceive
      have hmem := List.mem_of_getElem? hpicture
      have hsize : picture.serializeAsString.length ≤ s.receivedData.length :=
        h.buffer ▸ h.size_le picture hmem
      refine ⟨hcarried.trans h.carried, h.size_le, ?_, ?_, ?_, ?_⟩
      · show (_ ++ s.receivedData.drop _).length = maxLenMessage
        rw [List.length_append, List.length_drop, Nat.add_sub_of_le hsize, h.buffer]
      · intro n hn
        rw [hreceived, List.forall_mem_append, List.forall_mem_singleton] at hn
        show ∀ b ∈ (_ ++ s.receivedData.drop _).drop n, b = 0
        rw [List.drop_append, List.drop_of_length_le hn.2, List.nil_append, List.drop_drop,
          Nat.add_sub_of_le hn.2]
        exact h.zeros n hn.1
      · rw [hreceived, List.length_append, List.length_append, h.length]
        rfl
      · intro i out hout
        rcases Nat.lt_or_ge i s.output.length with hlt | hge
        · rw [List.getElem?_append_left hlt] at hout
          exact h.shown i out hout
        · have hlast := List.getElem?_eq_some_iff.mp hout
          obtain rfl : i = s.output.length := by
            have := hlast.1
            rw [List.length_append, List.length_singleton] at this
            omega
          rw [List.getElem?_append_right le_rfl, Nat.sub_self] at hout
          cases hout
          refine ⟨picture, hpicture, rfl, fun hle => ?_⟩
          rw [CameraMeasurement.parse_append_zeros (hnames picture hmem)
            (h.size_le picture hmem) (h.zeros _ ?_)]
          rw [← hearlier, List.forall_mem_map]
          exact hle

theorem sent_snoc (past : List LinkEvent) (e : LinkEvent) :
    sent (past ++ [e]) = sent past ++ sent [e] :=
  List.filterMap_append

theorem linked_run {events : List LinkEvent}
    (hnames : ∀ picture ∈ sent events, picture.Named verifyUTF8)
    (hrun : runs (linkStep verifyUTF8) Link.new events = .ok s) : Linked (sent events) s := by
  have hstep : ∀ past s e s', ((∀ picture ∈ sent past, picture.Named verifyUTF8) →
      Linked (sent past) s) → linkStep verifyUTF8 s e = .ok s' →
      (∀ picture ∈ sent (past ++ [e]), picture.Named verifyUTF8) →
      Linked (sent (past ++ [e])) s' := by
    intro past s e s' ih hcall hnames
    rw [sent_snoc] at hnames ⊢
    have h := ih fun picture hp => hnames picture (List.mem_append_left _ hp)
    cases e with
    | send picture => exact h.send hcall
    | receive =>
        rw [show sent [LinkEvent.receive] = [] from rfl, List.append_nil] at hnames ⊢
        exact h.receive hnames hcall
  exact @runs_induction _ _ _ _ (fun past s => (∀ picture ∈ sent past,
    picture.Named verifyUTF8) → Linked (sent past) s) hstep [] events Link.new s
    (fun _ => linked_new) hrun hnames

/-- One picture through an empty queue. -/
theorem link_one (verifyUTF8 : Bytes → Bool) (hempty : s.msgq.inFlight = [])
    {picture : CameraMeasurement} (hsize : picture.size ≤ maxLenMessage) :
    ∃ s' shown, runs (linkStep verifyUTF8) s [.send picture, .receive] = .ok s' ∧
      s'.msgq.inFlight = [] ∧
      s'.receivedData = picture.serializeAsString ++ s.receivedData.drop picture.size ∧
      s'.output = s.output ++ [(picture.size, shown)] ∧
      shown = (CameraMeasurement.parseFromString verifyUTF8
        s'.receivedData).1.height.toInt32 := by
  obtain ⟨⟨inFlight, received⟩, receivedData, output⟩ := s
  obtain rfl : inFlight = [] := hempty
  have hlen : ¬ maxLenMessage < picture.serializeAsString.length := Nat.not_lt.mpr hsize
  have hsend : linkStep verifyUTF8 ⟨⟨[], received⟩, receivedData, output⟩ (.send picture) =
      .ok ⟨⟨[picture.serializeAsString], received⟩, receivedData, output⟩ := by
    rw [linkStep, if_neg hlen]
    rfl
  exact ⟨_, _, (runs_cons_ok hsend _).trans rfl, rfl, rfl, rfl, rfl⟩

theorem link_shows {events : List LinkEvent}
    (hnames : ∀ picture ∈ sent events, picture.Named verifyUTF8)
    (hrun : runs (linkStep verifyUTF8) Link.new events = .ok s) :
    s.output.length + s.msgq.inFlight.length = (sent events).length ∧
      ∀ i out, s.output[i]? = some out → Shown (sent events) i out := by
  have h := linked_run hnames hrun
  refine ⟨?_, h.shown⟩
  rw [h.length, ← List.length_append, ← List.length_map (f := CameraMeasurement.serializeAsString),
    ← h.carried, Channel.carried]

end

theorem link_shows_one : ∃ s, runs (linkStep fun _ => true) Link.new
      [.send { CameraMeasurement.cleared with height := 480 }, .receive] = .ok s ∧
    s.output.length + s.msgq.inFlight.length = 1 ∧ ∀ i out, s.output[i]? = some out →
      Shown [{ CameraMeasurement.cleared with height := 480 }] i out := by
  obtain ⟨s, shown, hrun, -⟩ := link_one (fun _ => true)
    (show Link.new.msgq.inFlight = [] from rfl)
    (show CameraMeasurement.size { CameraMeasurement.cleared with height := 480 } ≤
      maxLenMessage by decide)
  exact ⟨s, hrun, link_shows (fun _ _ _ => rfl) hrun⟩

/-! ## A longer message before a shorter one -/

namespace CameraMeasurement

/-- A field that gives the height. -/
def heightField (height : UInt32) : Field := ⟨3, .varint height.toNat⟩

theorem length_heightField (height : UInt32) :
    (heightField height).put.length = 1 + varintSize height.toNat := by
  rw [heightField, length_put_varint, varintSize_one (by simp)]

/-- A picture whose message has a height field right behind its first `n` bytes, and
zeros after that. -/
def planted (n : Nat) (height : UInt32) : CameraMeasurement :=
  { cleared with
    image := List.replicate (n - 1 - varintSize (n + 6)) 0 ++ ((heightField height).put ++
      List.replicate (6 + varintSize (n + 6) - varintSize height.toNat) 0) }

section

variable {n : Nat} (hlow : 4 ≤ n) (hhigh : n + 12 ≤ maxLenMessage) (height : UInt32)
include hlow hhigh

theorem length_image_planted : (planted n height).image.length = n + 6 := by
  rw [maxLenMessage] at hhigh
  have hlen := varintSize_le_three (show n + 6 < 128 ^ 3 by omega)
  have hheight := varintSize_le_five height.toNat_lt
  show (List.replicate _ _ ++ (_ ++ List.replicate _ _)).length = n + 6
  rw [List.length_append, List.length_append, List.length_replicate, List.length_replicate,
    length_heightField]
  omega

theorem serialize_planted : (planted n height).serializeAsString =
    put64 42 ++ (put64 (n + 6) ++ (planted n height).image) := by
  have hlen := length_image_planted hlow hhigh height
  have hne : (planted n height).image ≠ [] := by
    rw [← List.length_pos_iff, hlen]
    omega
  have hfields : (planted n height).fields = [⟨5, .len (planted n height).image⟩] := by
    rw [fields, if_pos hne]
    rfl
  rw [serializeAsString, hfields, putFields_singleton, ← hlen]
  rfl

theorem drop_planted : ∃ rest, (planted n height).serializeAsString.drop n =
    (heightField height).put ++ 0 :: rest := by
  have hbound : n + 6 < 128 ^ 3 := by
    rw [maxLenMessage] at hhigh
    omega
  have hlen := varintSize_le_three hbound
  have hheight := varintSize_le_five height.toNat_lt
  refine ⟨List.replicate (5 + varintSize (n + 6) - varintSize height.toNat) 0, ?_⟩
  have hhead : (put64 42 ++ (put64 (n + 6) ++
      List.replicate (n - 1 - varintSize (n + 6)) 0)).length = n := by
    rw [List.length_append, List.length_append, List.length_replicate, length_put64,
      length_put64, varintSize_one (by simp)]
    omega
  have hzeros : 6 + varintSize (n + 6) - varintSize height.toNat =
      5 + varintSize (n + 6) - varintSize height.toNat + 1 := by
    omega
  rw [serialize_planted hlow hhigh, planted]
  dsimp only
  rw [hzeros, List.replicate_succ, ← List.append_assoc (put64 (n + 6)), ← List.append_assoc]
  exact List.drop_left' hhead

theorem size_planted : n < (planted n height).size ∧ (planted n height).size ≤ maxLenMessage := by
  rw [maxLenMessage] at hhigh ⊢
  have hlen := varintSize_le_three (show n + 6 < 128 ^ 3 by omega)
  rw [size, serialize_planted hlow hhigh, List.length_append, List.length_append, length_put64,
    length_put64, length_image_planted hlow hhigh, varintSize_one (by simp)]
  omega

end

theorem parse_planted {verifyUTF8 : Bytes → Bool} {m : CameraMeasurement}
    (hname : m.Named verifyUTF8) (hsize : m.size ≤ maxLenMessage) (height : UInt32)
    (rest : Bytes) :
    (parseFromString verifyUTF8 (m.serializeAsString ++
      ((heightField height).put ++ 0 :: rest))).1 = { m with height := height } := by
  obtain ⟨fuel, hfuel, hparse⟩ := parse_append hname hsize
    ((heightField height).put ++ 0 :: rest)
  have hfits : ∀ f ∈ [heightField height], f.Fits := by
    rw [List.forall_mem_singleton]
    exact fits_mk (by simp) (fits_varint height.toNat_lt)
  have hmerge : mergeAll (mergeField verifyUTF8) m [heightField height] =
      some { m with height := height } := by
    rw [heightField, mergeAll, (mergeField_varint _ _).2.1, UInt32.ofNat_toNat]
    rfl
  have hone : [heightField height].length ≤ fuel := by
    rw [List.length_append, List.length_cons] at hfuel
    rw [List.length_singleton]
    omega
  rw [hparse, ← putFields_singleton, parseFields_put_append hfits _ hmerge hone,
    parseFields_zero]

end CameraMeasurement

theorem link_overwritten (verifyUTF8 : Bytes → Bool) (s : Link) (hempty : s.msgq.inFlight = [])
    (picture : CameraMeasurement) (hname : picture.Named verifyUTF8)
    (hlow : 4 ≤ picture.size) (hhigh : picture.size + 12 ≤ maxLenMessage) (height : UInt32) :
    ∃ planted s' shown, runs (linkStep verifyUTF8) s
        [.send planted, .receive, .send picture, .receive] = .ok s' ∧
      s'.output = s.output ++ [(planted.size, shown), (picture.size, height.toInt32)] := by
  obtain ⟨hlonger, hsize⟩ := CameraMeasurement.size_planted hlow hhigh height
  obtain ⟨s₁, shown₁, hrun₁, hempty₁, hbuffer₁, houtput₁, -⟩ :=
    link_one verifyUTF8 hempty hsize
  obtain ⟨s₂, shown₂, hrun₂, -, hbuffer₂, houtput₂, hshown₂⟩ :=
    link_one verifyUTF8 hempty₁ (show picture.size ≤ maxLenMessage by omega)
  obtain ⟨rest, hdrop⟩ := CameraMeasurement.drop_planted hlow hhigh height
  refine ⟨_, s₂, shown₁, (runs_append_ok hrun₁ _).trans hrun₂, ?_⟩
  rw [hbuffer₁, List.drop_append_of_le_length hlonger.le, hdrop, List.append_assoc,
    List.cons_append] at hbuffer₂
  rw [hbuffer₂, CameraMeasurement.parse_planted hname (by omega)] at hshown₂
  rw [houtput₂, houtput₁, hshown₂, List.append_assoc]
  rfl

theorem link_overwritten_seven : ∃ planted s' shown,
    runs (linkStep fun _ => true) Link.new [.send planted, .receive,
      .send { CameraMeasurement.cleared with width := 640, height := 480 }, .receive] = .ok s' ∧
    s'.output = [(planted.size, shown), (6, 7)] :=
  link_overwritten (fun _ => true) Link.new rfl
    { CameraMeasurement.cleared with width := 640, height := 480 } (fun _ => rfl)
    (by decide) (by decide) 7

/-! ## The programs as they are -/

namespace CameraMeasurement

theorem size_sample : sample.size = 307214 := by
  have hlen : sample.image.length = 640 * 480 := List.length_replicate
  have himage : sample.image ≠ [] := by
    rw [← List.length_pos_iff, hlen]
    omega
  have hfields : sample.fields = [⟨2, .varint 640⟩, ⟨3, .varint 480⟩,
      ⟨5, .len (List.replicate (640 * 480) 48)⟩, ⟨6, .varint 765765⟩] := by
    rw [fields, if_pos himage]
    rfl
  rw [size, serializeAsString, hfields]
  simp only [putFields, List.flatMap_cons, List.flatMap_nil, List.append_nil, List.length_append,
    length_put_varint, length_put_len, List.length_replicate]
  rw [varintSize_one (by simp), varintSize_two (by simp) (by simp),
    varintSize_one (by simp), varintSize_two (by simp) (by simp),
    varintSize_one (by simp), varintSize_three (by simp) (by simp),
    varintSize_one (by simp), varintSize_three (by simp) (by simp)]

theorem named_sample (verifyUTF8 : Bytes → Bool) : sample.Named verifyUTF8 :=
  fun hne => absurd rfl hne

end CameraMeasurement

/-- The sender has one picture, and nothing longer is ever in the buffer. -/
theorem sender_receiver (verifyUTF8 : Bytes → Bool) (events : List LinkEvent)
    (hsample : ∀ picture ∈ sent events, picture = .sample) :
    runs (linkStep verifyUTF8) Link.new events ≠ .error .sizeError ∧
    ∀ s, runs (linkStep verifyUTF8) Link.new events = .ok s →
      s.output = List.replicate s.output.length (307214, 480) := by
  constructor
  · intro hrun
    obtain ⟨past, e, rest, s, rfl, -, hstop⟩ := runs_error_split hrun
    cases e with
    | send picture =>
        have hmem : picture ∈ sent (past ++ .send picture :: rest) :=
          List.mem_filterMap.mpr ⟨.send picture, by simp, rfl⟩
        have hsize : picture.size ≤ maxLenMessage := by
          rw [hsample picture hmem, CameraMeasurement.size_sample]
          decide
        rw [linkStep] at hstop
        split at hstop
        · next hlong => exact absurd hsize (Nat.not_le.mpr hlong)
        · split at hstop <;> cases hstop
    | receive =>
        rw [linkStep] at hstop
        split at hstop <;> cases hstop
  · intro s hrun
    have h := linked_run (fun picture hp => hsample picture hp ▸
      CameraMeasurement.named_sample verifyUTF8) hrun
    refine List.eq_replicate_iff.mpr ⟨rfl, fun out hout => ?_⟩
    obtain ⟨i, hi, rfl⟩ := List.getElem_of_mem hout
    obtain ⟨picture, hpicture, hsize, hheight⟩ := h.shown i _ (List.getElem?_eq_getElem hi)
    obtain rfl := hsample picture (List.mem_of_getElem? hpicture)
    refine Prod.ext (hsize.trans CameraMeasurement.size_sample) (hheight fun earlier he => ?_)
    rw [hsample earlier (List.mem_of_mem_take he)]

end Playspace.Webotsvision
