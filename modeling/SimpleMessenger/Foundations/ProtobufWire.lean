import Mathlib.Algebra.Group.Int.Defs
import Mathlib.Algebra.Group.Nat.Defs
import Mathlib.Data.List.Basic
import Mathlib.Data.List.Induction
import SimpleMessenger.Foundations.CMemory

/-!
# The protobuf wire format

A message on the wire is a sequence of fields.  A field is a key, which holds its
number and how its value is written, followed by the value: a base-128 number or
a byte sequence preceded by its length.  What the numbers mean is left to the
schema.

Main results:

- Theorem {lit}`readVarint_varint`: reading a number leaves what follows it.
- Theorem {lit}`length_varint_le_of_lt`: a number takes one byte for each of its
  digits.
- Theorem {lit}`getLast?_varint`: a number other than zero does not end in a
  zero byte.
- Theorem {lit}`readFields_writeFields`: a sequence of fields is read back as it
  was written.
- Theorem {lit}`readAll_writeFields`: what was written is well formed.
- Theorem {lit}`getLast?_writeFields`: fields none of which ends in a zero byte
  do not do so together.

Current gaps:

- The two fixed-width ways to write a value are not covered; the reader stops at
  such a field as it does at a malformed one.
-/

namespace ProtobufWire

open CMemory

/-! ## Numbers -/

/-- A number in base 128, lowest digit first, in at most `k + 1` bytes; all bytes
but the last have the high bit set. -/
def varint : Nat → Nat → Bytes
  | 0, n => [UInt8.ofNat n]
  | k + 1, n =>
      if n < 128 then [UInt8.ofNat n]
      else UInt8.ofNat (n % 128 + 128) :: varint k (n / 128)

/-- Read a number and return the bytes behind it. -/
def readVarint : Bytes → Option (Nat × Bytes)
  | [] => none
  | b :: bs =>
      if b.toNat < 128 then some (b.toNat, bs)
      else (readVarint bs).map fun r => (b.toNat - 128 + 128 * r.1, r.2)

theorem toNat_ofNat_of_lt {n : Nat} (hlt : n < 256) : (UInt8.ofNat n).toNat = n := by
  rw [UInt8.toNat_ofNat']
  omega

theorem readVarint_singleton {n : Nat} (hsmall : n < 128) (rest : Bytes) :
    readVarint (UInt8.ofNat n :: rest) = some (n, rest) := by
  have hbyte : (UInt8.ofNat n).toNat = n := toNat_ofNat_of_lt (by omega)
  simp [readVarint, hbyte, hsmall]

/-- A number that fits is read back, and what follows it is left. -/
theorem readVarint_varint {k n : Nat} (hfits : n < 128 ^ (k + 1)) (rest : Bytes) :
    readVarint (varint k n ++ rest) = some (n, rest) := by
  induction k generalizing n with
  | zero => exact readVarint_singleton (by simpa using hfits) rest
  | succ k ih =>
      unfold varint
      by_cases hsmall : n < 128
      · rw [if_pos hsmall]
        exact readVarint_singleton hsmall rest
      · have hrest : n / 128 < 128 ^ (k + 1) := by
          rw [Nat.div_lt_iff_lt_mul (by decide), ← Nat.pow_succ]
          exact hfits
        have hbyte : (UInt8.ofNat (n % 128 + 128)).toNat = n % 128 + 128 :=
          toNat_ofNat_of_lt (by omega)
        have hvalue : n % 128 + 128 * (n / 128) = n := Nat.mod_add_div n 128
        have hhigh : ¬ n % 128 + 128 < 128 := by omega
        rw [if_neg hsmall, List.cons_append, readVarint, ih hrest, hbyte, if_neg hhigh]
        simp [hvalue]

theorem varint_ne_nil (k n : Nat) : varint k n ≠ [] := by
  cases k with
  | zero => simp [varint]
  | succ k =>
      unfold varint
      split <;> simp

theorem length_varint_le (k n : Nat) : (varint k n).length ≤ k + 1 := by
  induction k generalizing n with
  | zero => simp [varint]
  | succ k ih =>
      unfold varint
      split
      · simp
      · simpa using ih (n / 128)

/-- A number takes one byte for each of its digits. -/
theorem length_varint_le_of_lt {k m n : Nat} (hpos : 0 < m) (hn : n < 128 ^ m) :
    (varint k n).length ≤ m := by
  induction k generalizing m n with
  | zero =>
      simp only [varint, List.length_singleton]
      omega
  | succ k ih =>
      unfold varint
      split <;> rename_i hsmall
      · simp only [List.length_singleton]
        omega
      · rcases m with _ | m
        · omega
        · have hrest : n / 128 < 128 ^ m := by
            rwa [Nat.div_lt_iff_lt_mul (by decide), ← Nat.pow_succ]
          have hm : 0 < m := by
            rw [Nat.pos_iff_ne_zero]
            rintro rfl
            omega
          rw [List.length_cons]
          exact Nat.succ_le_succ (ih hm hrest)

/-- A number other than zero does not end in a zero byte. -/
theorem getLast?_varint {k n : Nat} (hfits : n < 128 ^ (k + 1)) (hne : n ≠ 0) :
    (varint k n).getLast? ≠ some 0 := by
  have hsingle : ∀ {m : Nat}, m < 128 → m ≠ 0 → UInt8.ofNat m ≠ 0 := by
    intro m hm hm0 hzero
    have hbyte : (UInt8.ofNat m).toNat = m := toNat_ofNat_of_lt (by omega)
    rw [hzero] at hbyte
    exact hm0 hbyte.symm
  induction k generalizing n with
  | zero => simpa [varint] using hsingle (by simpa using hfits) hne
  | succ k ih =>
      unfold varint
      by_cases hsmall : n < 128
      · simpa [hsmall] using hsingle hsmall hne
      · have hrest : n / 128 < 128 ^ (k + 1) := by
          rw [Nat.div_lt_iff_lt_mul (by decide), ← Nat.pow_succ]
          exact hfits
        rw [if_neg hsmall, List.getLast?_cons_of_ne_nil (varint_ne_nil k _)]
        exact ih hrest (by omega)

/-! ## Fields -/

/-- A value, by the way it is written. -/
inductive Value where
  | varint (n : Nat)
  | bytes (bs : Bytes)
deriving DecidableEq

structure Field where
  number : Nat
  value : Value
deriving DecidableEq

/-- Bytes after the first that a number of 64 bits can take. -/
def wide : Nat := 9

def writeField (f : Field) : Bytes :=
  match f.value with
  | .varint n => varint wide (8 * f.number) ++ varint wide n
  | .bytes bs => varint wide (8 * f.number + 2) ++ (varint wide bs.length ++ bs)

def writeFields (fs : List Field) : Bytes :=
  fs.flatMap writeField

/-- Read the value behind a key; the low three bits of the key say how it is
written. -/
def readValue (key : Nat) (bs : Bytes) : Option (Value × Bytes) :=
  match key % 8 with
  | 0 => (readVarint bs).map fun r => (.varint r.1, r.2)
  | 2 => (readVarint bs).bind fun r =>
      if r.1 ≤ r.2.length then some (.bytes (r.2.take r.1), r.2.drop r.1) else none
  | _ => none

/-- Read one field; a field with number zero is malformed. -/
def readField (bs : Bytes) : Option (Field × Bytes) :=
  (readVarint bs).bind fun key =>
    if key.1 / 8 = 0 then none
    else (readValue key.1 key.2).map fun r => (⟨key.1 / 8, r.1⟩, r.2)

/-- Read fields up to the end of the bytes or the first malformed one. -/
def readUpTo : Nat → Bytes → List Field
  | 0, _ => []
  | fuel + 1, bs =>
      match readField bs with
      | none => []
      | some (f, rest) => f :: readUpTo fuel rest

/-- Every field takes at least one byte. -/
def readFields (bs : Bytes) : List Field :=
  readUpTo bs.length bs

/-- Read fields up to the end of the bytes; `none` if one is malformed. -/
def readAllUpTo : Nat → Bytes → Option (List Field)
  | 0, bs => if bs = [] then some [] else none
  | fuel + 1, bs =>
      if bs = [] then some []
      else (readField bs).bind fun r => (readAllUpTo fuel r.2).map (r.1 :: ·)

/-- The fields of a well-formed message. -/
def readAll (bs : Bytes) : Option (List Field) :=
  readAllUpTo bs.length bs

/-- The numbers in a field fit the format. -/
structure Field.Fits (f : Field) : Prop where
  number_pos : 0 < f.number
  number_lt : 8 * f.number + 2 < 128 ^ (wide + 1)
  varint_lt : ∀ n, f.value = .varint n → n < 128 ^ (wide + 1)
  length_lt : ∀ bs, f.value = .bytes bs → bs.length < 128 ^ (wide + 1)

/-- A field is read back, and what follows it is left. -/
theorem readField_writeField {f : Field} (hfits : f.Fits) (rest : Bytes) :
    readField (writeField f ++ rest) = some (f, rest) := by
  have hpos := hfits.number_pos
  have hnumber := hfits.number_lt
  rcases f with ⟨number, value⟩
  simp only at hpos hnumber
  cases value with
  | varint n =>
      have hn : n < 128 ^ (wide + 1) := hfits.varint_lt n rfl
      have hkey : 8 * number < 128 ^ (wide + 1) := by omega
      have hnumber' : 8 * number / 8 = number := by omega
      have htype : 8 * number % 8 = 0 := by omega
      simp only [writeField, readField, List.append_assoc, readVarint_varint hkey,
        Option.bind_some, hnumber', readValue, htype, readVarint_varint hn, Option.map_some]
      rw [if_neg (Nat.pos_iff_ne_zero.mp hpos)]
  | bytes bs =>
      have hlen : bs.length < 128 ^ (wide + 1) := hfits.length_lt bs rfl
      have hnumber' : (8 * number + 2) / 8 = number := by omega
      have htype : (8 * number + 2) % 8 = 2 := by omega
      have hroom : bs.length ≤ (bs ++ rest).length := by simp
      simp only [writeField, readField, List.append_assoc, readVarint_varint hnumber,
        Option.bind_some, hnumber', readValue, htype, readVarint_varint hlen, if_pos hroom,
        Option.map_some, List.take_left, List.drop_left]
      rw [if_neg (Nat.pos_iff_ne_zero.mp hpos)]

theorem writeField_ne_nil (f : Field) : writeField f ≠ [] := by
  unfold writeField
  cases f.value <;> simp [varint_ne_nil]

theorem readUpTo_writeFields {fs : List Field} (hfits : ∀ f ∈ fs, f.Fits) :
    ∀ {fuel : Nat}, (writeFields fs).length ≤ fuel → readUpTo fuel (writeFields fs) = fs := by
  induction fs with
  | nil =>
      intro fuel _
      cases fuel <;> rfl
  | cons f fs ih =>
      intro fuel hfuel
      have hlen : 0 < (writeField f).length := List.length_pos_iff.mpr (writeField_ne_nil f)
      have hcons : writeFields (f :: fs) = writeField f ++ writeFields fs := List.flatMap_cons
      rw [hcons, List.length_append] at hfuel
      cases fuel with
      | zero => omega
      | succ fuel =>
          have hrest : readUpTo fuel (writeFields fs) = fs :=
            ih (fun g hg => hfits g (List.mem_cons_of_mem f hg)) (by omega)
          rw [hcons, readUpTo, readField_writeField (hfits f List.mem_cons_self)]
          simp only [hrest]

/-- A sequence of fields is read back as it was written. -/
theorem readFields_writeFields {fs : List Field} (hfits : ∀ f ∈ fs, f.Fits) :
    readFields (writeFields fs) = fs :=
  readUpTo_writeFields hfits (Nat.le_refl _)

theorem readAllUpTo_writeFields {fs : List Field} (hfits : ∀ f ∈ fs, f.Fits) :
    ∀ {fuel : Nat}, (writeFields fs).length ≤ fuel →
      readAllUpTo fuel (writeFields fs) = some fs := by
  induction fs with
  | nil =>
      intro fuel _
      cases fuel <;> rfl
  | cons f fs ih =>
      intro fuel hfuel
      have hlen : 0 < (writeField f).length := List.length_pos_iff.mpr (writeField_ne_nil f)
      have hcons : writeFields (f :: fs) = writeField f ++ writeFields fs := List.flatMap_cons
      have hne : writeField f ++ writeFields fs ≠ [] := by
        simp [writeField_ne_nil]
      rw [hcons, List.length_append] at hfuel
      cases fuel with
      | zero => omega
      | succ fuel =>
          have hrest : readAllUpTo fuel (writeFields fs) = some fs :=
            ih (fun g hg => hfits g (List.mem_cons_of_mem f hg)) (by omega)
          rw [hcons, readAllUpTo, if_neg hne, readField_writeField (hfits f List.mem_cons_self),
            Option.bind_some, hrest, Option.map_some]

/-- What was written is well formed. -/
theorem readAll_writeFields {fs : List Field} (hfits : ∀ f ∈ fs, f.Fits) :
    readAll (writeFields fs) = some fs :=
  readAllUpTo_writeFields hfits (Nat.le_refl _)

/-! ## Sizes and last bytes -/

@[simp]
theorem writeFields_nil : writeFields [] = [] :=
  rfl

theorem writeFields_append (fs gs : List Field) :
    writeFields (fs ++ gs) = writeFields fs ++ writeFields gs :=
  List.flatMap_append

theorem writeFields_singleton (f : Field) : writeFields [f] = writeField f := by
  simp [writeFields]

theorem length_writeField_varint_le (number n : Nat) :
    (writeField ⟨number, .varint n⟩).length ≤ 2 * (wide + 1) := by
  have hkey := length_varint_le wide (8 * number)
  have hvalue := length_varint_le wide n
  simp only [writeField, List.length_append]
  omega

theorem length_writeField_bytes_le (number : Nat) (bs : Bytes) :
    (writeField ⟨number, .bytes bs⟩).length ≤ 2 * (wide + 1) + bs.length := by
  have hkey := length_varint_le wide (8 * number + 2)
  have hlen := length_varint_le wide bs.length
  simp only [writeField, List.length_append]
  omega

/-- The key of a field with a small number takes one byte. -/
theorem length_writeField_bytes_le_of_lt {number : Nat} (hnumber : number < 15) (bs : Bytes)
    {m : Nat} (hpos : 0 < m) (hlen : bs.length < 128 ^ m) :
    (writeField ⟨number, .bytes bs⟩).length ≤ 1 + m + bs.length := by
  have hkey := length_varint_le_of_lt (k := wide) (n := 8 * number + 2) Nat.one_pos (by omega)
  have hprefix := length_varint_le_of_lt (k := wide) hpos hlen
  simp only [writeField, List.length_append]
  omega

/-- A byte sequence comes after a key and a length of at least one byte each. -/
theorem lt_length_writeField_bytes (number : Nat) (bs : Bytes) :
    bs.length + 2 ≤ (writeField ⟨number, .bytes bs⟩).length := by
  have hkey := List.length_pos_iff.mpr (varint_ne_nil wide (8 * number + 2))
  have hlen := List.length_pos_iff.mpr (varint_ne_nil wide bs.length)
  simp only [writeField, List.length_append]
  omega

/-- A number field ends like its number. -/
theorem getLast?_writeField_varint {number n : Nat} (hfits : n < 128 ^ (wide + 1)) (hne : n ≠ 0) :
    (writeField ⟨number, .varint n⟩).getLast? ≠ some 0 := by
  have hlast := getLast?_varint hfits hne
  simpa only [writeField, List.getLast?_append_of_ne_nil _ (varint_ne_nil wide n)] using hlast

/-- A byte field ends like its bytes. -/
theorem getLast?_writeField_bytes {number : Nat} {bs : Bytes} (hne : bs ≠ []) :
    (writeField ⟨number, .bytes bs⟩).getLast? = bs.getLast? := by
  have htail : varint wide bs.length ++ bs ≠ [] := by
    simp [hne]
  simp only [writeField, List.getLast?_append_of_ne_nil _ htail,
    List.getLast?_append_of_ne_nil _ hne]

/-- Fields none of which ends in a zero byte do not do so together. -/
theorem getLast?_writeFields {fs : List Field}
    (hends : ∀ f ∈ fs, (writeField f).getLast? ≠ some 0) :
    (writeFields fs).getLast? ≠ some 0 := by
  induction fs using List.reverseRecOn with
  | nil => simp
  | append_singleton fs f _ =>
      rw [writeFields_append, writeFields_singleton,
        List.getLast?_append_of_ne_nil _ (writeField_ne_nil f)]
      exact hends f (by simp)

/-! ## Fields that are left out when zero -/

/-- The field, unless its number is zero. -/
def omitZero (number n : Nat) : List Field :=
  if n = 0 then [] else [⟨number, .varint n⟩]

theorem mem_omitZero {number n : Nat} {f : Field} :
    f ∈ omitZero number n ↔ n ≠ 0 ∧ f = ⟨number, .varint n⟩ := by
  by_cases hzero : n = 0 <;> simp [omitZero, hzero]

theorem fits_of_mem_omitZero {number n : Nat} {f : Field} (hmem : f ∈ omitZero number n)
    (hpos : 0 < number) (hnumber : number < 16) (hn : n < 2 ^ 64) : f.Fits := by
  rcases mem_omitZero.mp hmem with ⟨_, rfl⟩
  have hwide : 2 ^ 64 < 128 ^ (wide + 1) := by decide
  refine ⟨hpos, ?_, ?_, ?_⟩
  · change 8 * number + 2 < _
    omega
  · intro m hm
    cases hm
    omega
  · intro bs hbs
    cases hbs

theorem length_omitZero_le (number n : Nat) :
    (writeFields (omitZero number n)).length ≤ 2 * (wide + 1) := by
  by_cases hzero : n = 0
  · simp [omitZero, hzero]
  · rw [omitZero, if_neg hzero, writeFields_singleton]
    exact length_writeField_varint_le number n

theorem length_omitZero_le_of_lt {number : Nat} (hnumber : number < 15) {m n : Nat}
    (hpos : 0 < m) (hn : n < 128 ^ m) : (writeFields (omitZero number n)).length ≤ 1 + m := by
  by_cases hzero : n = 0
  · simp [omitZero, hzero]
  · have hkey := length_varint_le_of_lt (k := wide) (n := 8 * number) Nat.one_pos (by omega)
    have hvalue := length_varint_le_of_lt (k := wide) hpos hn
    rw [omitZero, if_neg hzero, writeFields_singleton]
    simp only [writeField, List.length_append]
    omega

theorem getLast?_of_mem_omitZero {number n : Nat} {f : Field} (hmem : f ∈ omitZero number n)
    (hn : n < 2 ^ 64) : (writeField f).getLast? ≠ some 0 := by
  rcases mem_omitZero.mp hmem with ⟨hne, rfl⟩
  have hwide : 2 ^ 64 < 128 ^ (wide + 1) := by decide
  exact getLast?_writeField_varint (by omega) hne

/-- Reading a field that was left out has the same effect as reading the value
it already has. -/
theorem foldl_omitZero {α : Type} {set : α → Field → α} {a a' : α} {number n : Nat}
    (hset : set a ⟨number, .varint n⟩ = a') (hzero : n = 0 → a = a') :
    (omitZero number n).foldl set a = a' := by
  by_cases hn : n = 0
  · simp [omitZero, hn, hzero hn]
  · simp [omitZero, hn, hset]

end ProtobufWire
