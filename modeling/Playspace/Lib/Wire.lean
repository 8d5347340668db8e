import Mathlib.Data.List.Basic
import Mathlib.Data.Nat.Log
import Mathlib.Tactic

/-!
# The tagged-field wire format

A message is a sequence of fields, each a tag (field number and wire type) and
a payload: a base-128 varint, a fixed-width word, or a length and that many
bytes. Writing is concatenation. Reading folds a `merge` over the fields and
stops at the first one that is cut off or that `merge` refuses, keeping what
was merged by then.

`parseFields_put` is the round trip and `parseFields_take` says what a reader
makes of a cut-off message: it merges some of the leading fields and nothing
else. Groups, the two retired wire types, are not read.
-/

namespace Playspace.Lib.Wire

abbrev Bytes := List UInt8

/-! ## Varints -/

/-- Least significant group first, in at most `k + 1` groups. -/
def putVarint : Nat → Nat → Bytes
  | 0, n => [UInt8.ofNat n]
  | k + 1, n =>
      if n < 128 then [UInt8.ofNat n]
      else UInt8.ofNat (n % 128 + 128) :: putVarint k (n / 128)

def getVarint : Nat → Bytes → Option (Nat × Bytes)
  | _, [] => none
  | 0, b :: rest => if b.toNat < 128 then some (b.toNat, rest) else none
  | k + 1, b :: rest =>
      if b.toNat < 128 then some (b.toNat, rest)
      else
        match getVarint k rest with
        | none => none
        | some (n, rest') => some (b.toNat - 128 + 128 * n, rest')

theorem putVarint_ne_nil (k n : Nat) : putVarint k n ≠ [] := by
  cases k with
  | zero => simp [putVarint]
  | succ k => rw [putVarint]; split <;> simp

theorem toNat_ofNat_small {n : Nat} (h : n < 256) : (UInt8.ofNat n).toNat = n := by
  rw [UInt8.toNat_ofNat']
  omega

theorem getVarint_put : ∀ (k n : Nat) (rest : Bytes), n < 128 ^ (k + 1) →
    getVarint k (putVarint k n ++ rest) = some (n, rest) := by
  intro k
  induction k with
  | zero =>
      intro n rest hn
      have hlt : n < 128 := by simpa using hn
      simp only [putVarint, List.singleton_append, getVarint,
        toNat_ofNat_small (show n < 256 by omega), if_pos hlt]
  | succ k ih =>
      intro n rest hn
      rw [putVarint]
      split
      · next hlt =>
          simp only [List.singleton_append, getVarint,
            toNat_ofNat_small (show n < 256 by omega), if_pos hlt]
      · next hge =>
          have hdiv : n / 128 < 128 ^ (k + 1) := by
            rw [Nat.div_lt_iff_lt_mul (by omega), ← pow_succ]; exact hn
          simp only [List.cons_append, getVarint, ih (n / 128) rest hdiv,
            toNat_ofNat_small (show n % 128 + 128 < 256 by omega),
            if_neg (show ¬ n % 128 + 128 < 128 by omega)]
          simp only [Option.some.injEq, Prod.mk.injEq, and_true]
          omega

/-- A varint cut off before its end is no varint: every byte but the last
announces another one. -/
theorem getVarint_take : ∀ (k n i : Nat), n < 128 ^ (k + 1) →
    i < (putVarint k n).length → getVarint k ((putVarint k n).take i) = none := by
  intro k
  induction k with
  | zero =>
      intro n i _ hi
      obtain rfl : i = 0 := by simpa [putVarint] using hi
      simp [getVarint]
  | succ k ih =>
      intro n i hn hi
      rw [putVarint] at hi ⊢
      cases i with
      | zero => simp [getVarint]
      | succ i =>
          split
          · next hlt => simp [if_pos hlt] at hi
          · next hge =>
              rw [if_neg hge, List.length_cons] at hi
              have hdiv : n / 128 < 128 ^ (k + 1) := by
                rw [Nat.div_lt_iff_lt_mul (by omega), ← pow_succ]; exact hn
              simp only [List.take_succ_cons, getVarint, ih (n / 128) i hdiv (by omega),
                toNat_ofNat_small (show n % 128 + 128 < 256 by omega),
                if_neg (show ¬ n % 128 + 128 < 128 by omega)]

/-! ## Fields -/

inductive Payload where
  | varint (n : Nat)
  | fixed64 (bytes : Bytes)
  | len (bytes : Bytes)
  | fixed32 (bytes : Bytes)
deriving DecidableEq

structure Field where
  num : Nat
  payload : Payload
deriving DecidableEq

def Payload.wireType : Payload → Nat
  | .varint _ => 0
  | .fixed64 _ => 1
  | .len _ => 2
  | .fixed32 _ => 5

/-- Sixty-four bits take ten groups. -/
def put64 (n : Nat) : Bytes := putVarint 9 n

def get64 (bytes : Bytes) : Option (Nat × Bytes) := getVarint 9 bytes

theorem get64_put {n : Nat} (h : n < 2 ^ 64) (rest : Bytes) :
    get64 (put64 n ++ rest) = some (n, rest) :=
  getVarint_put 9 n rest (Nat.lt_of_lt_of_le h (by norm_num))

theorem get64_take {n i : Nat} (h : n < 2 ^ 64) (hi : i < (put64 n).length) :
    get64 ((put64 n).take i) = none :=
  getVarint_take 9 n i (Nat.lt_of_lt_of_le h (by norm_num)) hi

def putPayload : Payload → Bytes
  | .varint n => put64 n
  | .fixed64 bytes => bytes
  | .len bytes => put64 bytes.length ++ bytes
  | .fixed32 bytes => bytes

def Field.put (f : Field) : Bytes :=
  put64 (f.num * 8 + f.payload.wireType) ++ putPayload f.payload

/-- Exactly `n` bytes, if there are that many. -/
def getBytes (n : Nat) (bytes : Bytes) : Option (Bytes × Bytes) :=
  if n ≤ bytes.length then some (bytes.take n, bytes.drop n) else none

def getPayload (wireType : Nat) (bytes : Bytes) : Option (Payload × Bytes) :=
  match wireType with
  | 0 => (get64 bytes).map fun (n, rest) => (.varint (n % 2 ^ 64), rest)
  | 1 => (getBytes 8 bytes).map fun (b, rest) => (.fixed64 b, rest)
  | 2 =>
      match get64 bytes with
      | none => none
      | some (n, rest) => (getBytes n rest).map fun (b, rest') => (.len b, rest')
  | 5 => (getBytes 4 bytes).map fun (b, rest) => (.fixed32 b, rest)
  | _ => none

def getField (bytes : Bytes) : Option (Field × Bytes) :=
  match get64 bytes with
  | none => none
  | some (tag, rest) =>
      if tag / 8 = 0 then none
      else (getPayload (tag % 8) rest).map fun (p, rest') => (⟨tag / 8, p⟩, rest')

/-- The fields a writer produces. -/
def Payload.Fits : Payload → Prop
  | .varint n => n < 2 ^ 64
  | .fixed64 bytes => bytes.length = 8
  | .len bytes => bytes.length < 2 ^ 64
  | .fixed32 bytes => bytes.length = 4

structure Field.Fits (f : Field) : Prop where
  num_pos : 0 < f.num
  num_lt : f.num < 2 ^ 29
  payload : f.payload.Fits

theorem getBytes_append (bytes rest : Bytes) :
    getBytes bytes.length (bytes ++ rest) = some (bytes, rest) := by
  simp [getBytes]

theorem getBytes_take {n i : Nat} {bytes : Bytes} (hi : i < n) :
    getBytes n (bytes.take i) = none := by
  rw [getBytes, if_neg]
  rw [List.length_take]
  omega

theorem Payload.wireType_lt (p : Payload) : p.wireType < 8 := by
  cases p <;> simp [Payload.wireType]

theorem getPayload_put {p : Payload} (h : p.Fits) (rest : Bytes) :
    getPayload p.wireType (putPayload p ++ rest) = some (p, rest) := by
  cases p with
  | varint n =>
      have hn : n < 2 ^ 64 := h
      simp only [getPayload, Payload.wireType, putPayload, get64_put hn, Option.map_some,
        Nat.mod_eq_of_lt hn]
  | fixed64 bytes =>
      have hb : bytes.length = 8 := h
      have := getBytes_append bytes rest
      rw [hb] at this
      simp [getPayload, Payload.wireType, putPayload, this]
  | len bytes =>
      have hb : bytes.length < 2 ^ 64 := h
      simp [getPayload, Payload.wireType, putPayload, get64_put hb, getBytes_append]
  | fixed32 bytes =>
      have hb : bytes.length = 4 := h
      have := getBytes_append bytes rest
      rw [hb] at this
      simp [getPayload, Payload.wireType, putPayload, this]

theorem getPayload_take {p : Payload} (h : p.Fits) {i : Nat}
    (hi : i < (putPayload p).length) :
    getPayload p.wireType ((putPayload p).take i) = none := by
  cases p with
  | varint n =>
      have hn : n < 2 ^ 64 := h
      simp only [getPayload, Payload.wireType, putPayload] at hi ⊢
      rw [get64_take hn hi]
      rfl
  | fixed64 bytes =>
      have hb : bytes.length = 8 := h
      simp only [getPayload, Payload.wireType, putPayload] at hi ⊢
      rw [getBytes_take (by omega)]
      rfl
  | len bytes =>
      have hb : bytes.length < 2 ^ 64 := h
      simp only [getPayload, Payload.wireType, putPayload, List.length_append] at hi ⊢
      rcases Nat.lt_or_ge i (put64 bytes.length).length with hlt | hge
      · rw [List.take_append_of_le_length (by omega), get64_take hb hlt]
      · rw [List.take_append, List.take_of_length_le hge, get64_put hb]
        simp only
        rw [getBytes_take (by omega)]
        rfl
  | fixed32 bytes =>
      have hb : bytes.length = 4 := h
      simp only [getPayload, Payload.wireType, putPayload] at hi ⊢
      rw [getBytes_take (by omega)]
      rfl

theorem Field.tag_lt {f : Field} (h : f.Fits) :
    f.num * 8 + f.payload.wireType < 2 ^ 64 := by
  have h1 := h.num_lt
  have h2 := f.payload.wireType_lt
  norm_num at h1 ⊢
  omega

theorem Field.tag_div (f : Field) : (f.num * 8 + f.payload.wireType) / 8 = f.num := by
  have := f.payload.wireType_lt
  omega

theorem Field.tag_mod (f : Field) :
    (f.num * 8 + f.payload.wireType) % 8 = f.payload.wireType := by
  have := f.payload.wireType_lt
  omega

theorem getField_put {f : Field} (h : f.Fits) (rest : Bytes) :
    getField (f.put ++ rest) = some (f, rest) := by
  have hne : ¬ f.num = 0 := Nat.pos_iff_ne_zero.mp h.num_pos
  rw [Field.put, List.append_assoc, getField, get64_put (Field.tag_lt h)]
  simp only [f.tag_div, f.tag_mod, if_neg hne, getPayload_put h.payload, Option.map_some]

theorem getField_take {f : Field} (h : f.Fits) {i : Nat} (hi : i < f.put.length) :
    getField (f.put.take i) = none := by
  rw [Field.put, List.length_append] at hi
  rw [Field.put, getField]
  rcases Nat.lt_or_ge i (put64 (f.num * 8 + f.payload.wireType)).length with hlt | hge
  · rw [List.take_append_of_le_length (by omega), get64_take (Field.tag_lt h) hlt]
  · have hne : ¬ f.num = 0 := Nat.pos_iff_ne_zero.mp h.num_pos
    rw [List.take_append, List.take_of_length_le hge, get64_put (Field.tag_lt h)]
    simp only [f.tag_div, f.tag_mod, if_neg hne]
    rw [getPayload_take h.payload (by omega)]
    rfl

theorem Field.put_ne_nil (f : Field) : f.put ≠ [] := by
  rw [Field.put, put64]
  simp [putVarint_ne_nil]

/-! ## Messages -/

def putFields (fs : List Field) : Bytes := fs.flatMap Field.put

variable {M : Type*}

/-- Read fields and merge each into the message; `false` when a field is cut
off or refused, with what was merged by then. -/
def parseFields (merge : M → Field → M × Bool) : Nat → M → Bytes → M × Bool
  | 0, m, bytes => (m, bytes.isEmpty)
  | fuel + 1, m, bytes =>
      if bytes.isEmpty then (m, true)
      else
        match getField bytes with
        | none => (m, false)
        | some (f, rest) =>
            match merge m f with
            | (m', false) => (m', false)
            | (m', true) => parseFields merge fuel m' rest

/-- Every field takes at least a byte, so the length is fuel enough. -/
def parseMessage (merge : M → Field → M × Bool) (m : M) (bytes : Bytes) : M × Bool :=
  parseFields merge bytes.length m bytes

/-- The message after merging all of `fs`, if none is refused. -/
def mergeAll (merge : M → Field → M × Bool) (m : M) : List Field → Option M
  | [] => some m
  | f :: fs =>
      match merge m f with
      | (_, false) => none
      | (m', true) => mergeAll merge m' fs

theorem mergeAll_append {merge : M → Field → M × Bool} {fs gs : List Field} :
    ∀ {m m' : M}, mergeAll merge m fs = some m' →
    mergeAll merge m (fs ++ gs) = mergeAll merge m' gs := by
  induction fs with
  | nil => intro m m' h; cases h; rfl
  | cons f fs ih =>
      intro m m' h
      simp only [List.cons_append, mergeAll] at h ⊢
      split at h
      · cases h
      · exact ih h

/-- A singular field, absent or there: `set` is the message as a function of
it, `enc` its payload. -/
theorem mergeAll_option {β : Type*} {merge : M → Field → M × Bool} {num : Nat}
    {enc : β → Payload} (set : Option β → M) {v : Option β}
    (hmerge : ∀ b ∈ v, merge (set none) ⟨num, enc b⟩ = (set (some b), true)) :
    mergeAll merge (set none) (v.toList.map fun b => ⟨num, enc b⟩) = some (set v) := by
  cases v with
  | none => rfl
  | some b =>
      rw [Option.toList_some, List.map_singleton, mergeAll, hmerge b rfl]
      rfl

/-- A field that is written only where it is not the default. -/
theorem mergeAll_present {merge : M → Field → M × Bool} {P : Prop} [Decidable P] {f : Field}
    {m m' : M} (hset : P → merge m f = (m', true)) (hskip : ¬ P → m' = m) :
    mergeAll merge m (if P then [f] else []) = some m' := by
  split
  · next h =>
      rw [mergeAll, hset h]
      rfl
  · next h =>
      rw [hskip h]
      rfl

theorem length_le_putFields (fs : List Field) : fs.length ≤ (putFields fs).length := by
  induction fs with
  | nil => simp
  | cons f fs ih =>
      have hpos := List.length_pos_iff.mpr f.put_ne_nil
      simp only [putFields, List.flatMap_cons, List.length_append,
        List.length_cons] at ih ⊢
      omega

theorem parseFields_put {merge : M → Field → M × Bool} {fs : List Field}
    (hfits : ∀ f ∈ fs, f.Fits) :
    ∀ {m m' : M} {fuel : Nat}, mergeAll merge m fs = some m' → fs.length ≤ fuel →
    parseFields merge fuel m (putFields fs) = (m', true) := by
  induction fs with
  | nil =>
      intro m m' fuel h _
      cases h
      cases fuel <;> rfl
  | cons f fs ih =>
      intro m m' fuel h hfuel
      obtain ⟨fuel, rfl⟩ : ∃ k, fuel = k + 1 := ⟨fuel - 1, by simp at hfuel; omega⟩
      have hne : (f.put ++ putFields fs).isEmpty = false := by
        simp [f.put_ne_nil]
      simp only [mergeAll] at h
      simp only [putFields, List.flatMap_cons] at hne ⊢
      rw [parseFields, hne, getField_put (hfits f (by simp))]
      simp only [Bool.false_eq_true, if_false]
      split at h
      · cases h
      · next m₁ hm =>
          exact ih (fun g hg => hfits g (by simp [hg])) h (by simpa using hfuel)

/-- Writing and reading back. -/
theorem parseMessage_put {merge : M → Field → M × Bool} {fs : List Field} {m m' : M}
    (hfits : ∀ f ∈ fs, f.Fits) (h : mergeAll merge m fs = some m') :
    parseMessage merge m (putFields fs) = (m', true) :=
  parseFields_put hfits h (length_le_putFields fs)

/-- The reader goes on with what stands behind a message, as if it were more of it. -/
theorem parseFields_put_append {merge : M → Field → M × Bool} {fs : List Field}
    (hfits : ∀ f ∈ fs, f.Fits) (tail : Bytes) {m m' : M} {fuel : Nat}
    (h : mergeAll merge m fs = some m') (hfuel : fs.length ≤ fuel) :
    parseFields merge fuel m (putFields fs ++ tail) =
      parseFields merge (fuel - fs.length) m' tail := by
  induction fs generalizing m fuel with
  | nil =>
      cases h
      rfl
  | cons f fs ih =>
      obtain ⟨fuel, rfl⟩ : ∃ k, fuel = k + 1 := ⟨fuel - 1, by simp at hfuel; omega⟩
      rw [List.forall_mem_cons] at hfits
      have hne : (f.put ++ (putFields fs ++ tail)).isEmpty = false := by
        simp [f.put_ne_nil]
      rw [mergeAll] at h
      rw [putFields, List.flatMap_cons, List.append_assoc, parseFields, ← putFields, hne,
        getField_put hfits.1]
      simp only [Bool.false_eq_true, if_false]
      split at h
      · cases h
      · rw [ih hfits.2 h (Nat.le_of_succ_le_succ hfuel), List.length_cons,
          Nat.add_sub_add_right]

/-- No field starts with a zero, so reading ends there. -/
theorem parseFields_zero (merge : M → Field → M × Bool) (fuel : Nat) (m : M) (rest : Bytes) :
    parseFields merge fuel m (0 :: rest) = (m, false) := by
  cases fuel with
  | zero => rfl
  | succ fuel => rfl

/-- Of a message cut off after `i` bytes, some of the leading fields are
merged and nothing else. -/
theorem parseFields_take {merge : M → Field → M × Bool} {fs : List Field}
    (hfits : ∀ f ∈ fs, f.Fits) :
    ∀ {m m' : M} (fuel i : Nat), mergeAll merge m fs = some m' →
    ∃ j, mergeAll merge m (fs.take j) =
      some (parseFields merge fuel m ((putFields fs).take i)).1 := by
  induction fs with
  | nil =>
      intro m m' fuel i _
      refine ⟨0, ?_⟩
      cases fuel <;> simp [putFields, parseFields, mergeAll]
  | cons f fs ih =>
      intro m m' fuel i h
      cases fuel with
      | zero => exact ⟨0, by simp [parseFields, mergeAll]⟩
      | succ fuel =>
          simp only [mergeAll] at h
          simp only [putFields, List.flatMap_cons, parseFields]
          split
          · exact ⟨0, by simp [mergeAll]⟩
          · rcases Nat.lt_or_ge i f.put.length with hlt | hge
            · rw [List.take_append_of_le_length (by omega),
                getField_take (hfits f (by simp)) hlt]
              exact ⟨0, by simp [mergeAll]⟩
            · rw [List.take_append, List.take_of_length_le hge,
                getField_put (hfits f (by simp))]
              simp only
              split at h
              · cases h
              · next m₁ hm =>
                  obtain ⟨j, hj⟩ := ih (fun g hg => hfits g (by simp [hg]))
                    fuel (i - f.put.length) h
                  refine ⟨j + 1, ?_⟩
                  simp only [List.take_succ_cons, mergeAll, hm]
                  exact hj

/-! ## Sizes -/

/-- The bytes a sixty-four bit varint takes. -/
def varintSize (n : Nat) : Nat := min 9 (Nat.log 128 n) + 1

theorem length_putVarint (k n : Nat) :
    (putVarint k n).length = min k (Nat.log 128 n) + 1 := by
  induction k generalizing n with
  | zero => rw [putVarint, List.length_singleton, Nat.zero_min]
  | succ k ih =>
      rw [putVarint]
      split
      · next hlt => rw [List.length_singleton, Nat.log_of_lt hlt, Nat.min_zero]
      · next hge =>
          have hlog : Nat.log 128 n = Nat.log 128 (n / 128) + 1 :=
            Nat.log_of_one_lt_of_le (by omega) (by omega)
          rw [List.length_cons, ih, hlog]
          omega

@[simp] theorem length_put64 (n : Nat) : (put64 n).length = varintSize n :=
  length_putVarint 9 n

theorem varintSize_one {n : Nat} (h : n < 128) : varintSize n = 1 := by
  rw [varintSize, Nat.log_of_lt h, Nat.min_zero]

theorem varintSize_two {n : Nat} (h0 : 128 ≤ n) (h1 : n < 128 ^ 2) : varintSize n = 2 := by
  have hlog : Nat.log 128 n = 1 := by
    rw [Nat.log_eq_iff (Or.inl Nat.one_ne_zero)]
    exact ⟨h0, h1⟩
  rw [varintSize, hlog]
  rfl

theorem varintSize_three {n : Nat} (h0 : 128 ^ 2 ≤ n) (h1 : n < 128 ^ 3) :
    varintSize n = 3 := by
  have hlog : Nat.log 128 n = 2 := by
    rw [Nat.log_eq_iff (Or.inl (by decide))]
    exact ⟨h0, h1⟩
  rw [varintSize, hlog]
  rfl

theorem varintSize_le_three {n : Nat} (h : n < 128 ^ 3) : varintSize n ≤ 3 := by
  have hlog : Nat.log 128 n < 3 := Nat.log_lt_of_lt_pow' (by decide) h
  rw [varintSize]
  omega

/-- Thirty-two bits take at most five bytes. -/
theorem varintSize_le_five {n : Nat} (h : n < 2 ^ 32) : varintSize n ≤ 5 := by
  have hlog : Nat.log 128 n < 5 :=
    Nat.log_lt_of_lt_pow' (by omega) (Nat.lt_of_lt_of_le h (by norm_num))
  rw [varintSize]
  omega

theorem length_put_len (num : Nat) (bytes : Bytes) :
    (Field.put ⟨num, .len bytes⟩).length =
      varintSize (num * 8 + 2) + (varintSize bytes.length + bytes.length) := by
  rw [Field.put, List.length_append, length_put64, putPayload, List.length_append,
    length_put64]
  rfl

theorem length_put_varint (num n : Nat) :
    (Field.put ⟨num, .varint n⟩).length = varintSize (num * 8) + varintSize n := by
  rw [Field.put, List.length_append, length_put64, putPayload, length_put64]
  rfl

theorem putFields_append (fs gs : List Field) :
    putFields (fs ++ gs) = putFields fs ++ putFields gs :=
  List.flatMap_append

@[simp] theorem putFields_singleton (f : Field) : putFields [f] = f.put :=
  List.flatMap_singleton Field.put f

theorem length_put_le_putFields {f : Field} {fs : List Field} (h : f ∈ fs) :
    f.put.length ≤ (putFields fs).length := by
  obtain ⟨before, after, rfl⟩ := List.append_of_mem h
  rw [List.append_cons, putFields_append, putFields_append, putFields_singleton,
    List.length_append, List.length_append]
  omega

/-- Fields of at most `k` bytes each. -/
theorem length_putFields_le {k : Nat} {fs : List Field} (h : ∀ f ∈ fs, f.put.length ≤ k) :
    (putFields fs).length ≤ k * fs.length := by
  induction fs with
  | nil => exact Nat.zero_le _
  | cons f fs ih =>
      have hf := h f List.mem_cons_self
      have hfs := ih fun g hg => h g (List.mem_cons_of_mem f hg)
      rw [putFields, List.flatMap_cons, List.length_append, List.length_cons, Nat.mul_succ]
      rw [putFields] at hfs
      omega

/-! ## Integers -/

/-- Four bytes, least significant first. -/
def fixed32OfNat (n : Nat) : Bytes :=
  [UInt8.ofNat n, UInt8.ofNat (n / 256), UInt8.ofNat (n / 256 / 256),
    UInt8.ofNat (n / 256 / 256 / 256)]

def natOfFixed (bytes : Bytes) : Nat :=
  bytes.foldr (fun b n => b.toNat + 256 * n) 0

theorem natOfFixed_fixed32 {n : Nat} (h : n < 2 ^ 32) :
    natOfFixed (fixed32OfNat n) = n := by
  simp only [natOfFixed, fixed32OfNat, List.foldr_cons, List.foldr_nil,
    UInt8.toNat_ofNat']
  omega

/-- Zig-zag: small magnitudes of either sign become small naturals. -/
def zigzag (n : Int) : Nat :=
  if 0 ≤ n then (2 * n).toNat else (-2 * n - 1).toNat

def unzigzag (n : Nat) : Int :=
  if n % 2 = 0 then ((n / 2 : Nat) : Int) else -((n / 2 : Nat) : Int) - 1

theorem unzigzag_zigzag (n : Int) : unzigzag (zigzag n) = n := by
  unfold zigzag unzigzag
  split <;> split <;> omega

theorem zigzag_lt {n : Int} (h0 : -2 ^ 31 ≤ n) (h1 : n < 2 ^ 31) :
    zigzag n < 2 ^ 32 := by
  unfold zigzag
  split <;> omega

end Playspace.Lib.Wire
