import Mathlib.Data.List.TakeWhile
import Mathlib.Tactic.Common

/-!
# Checked C memory

Fixed-size arrays of bytes and the two ways a C program walks over them: a copy
of a given number of bytes, and a scan that stops at the first zero byte.  An
access outside the array is undefined behaviour in C; here it is a value, the
{lit}`Fault` that names the index, so that "every access is in bounds" is the
statement that a computation returns {lit}`Except.ok`.

Main results:

- Theorem {lit}`CharArray.memcpy_eq_ok_iff`: a copy is in bounds exactly when
  the source fits, and it then overwrites a prefix.
- Theorem {lit}`CharArray.cstring_eq_ok_iff`: reading a C string stays inside
  the array exactly when the array holds a zero byte.
- Theorem {lit}`cstr_append_zero`: bytes copied into a zeroed array and read
  back as a C string are the source's own C string.
-/

universe u

namespace CMemory

/-- Raw bytes, lowest address first. -/
abbrev Bytes := List UInt8

/-- The bytes of an ASCII string literal. -/
def ascii (s : String) : Bytes :=
  s.toList.map fun c => c.toNat.toUInt8

/-- An access at an index outside an object of the given number of elements, or
through a pointer that is unset or whose object was released. -/
inductive Fault where
  | write (index size : Nat)
  | read (index size : Nat)
  | dangling
deriving DecidableEq, Repr

/-- A computation that stops at the first faulty access. -/
abbrev Checked := Except Fault

/-- The library function `isspace`: blank, tabulators and line breaks. -/
def isSpace (b : UInt8) : Bool :=
  b == 32 || (9 ≤ b && b ≤ 13)

/-- The library function `isdigit`. -/
def isDigit (b : UInt8) : Bool :=
  48 ≤ b && b ≤ 57

/-- Value of the decimal digits at the start of a byte sequence. -/
def digitsValue (bs : Bytes) : Nat :=
  (bs.takeWhile isDigit).foldl (fun n d => 10 * n + (d - 48).toNat) 0

/-- The library function `atoi` on a text whose value is an `int`. -/
def atoi (bs : Bytes) : Int :=
  match bs.dropWhile isSpace with
  | 45 :: ds => -(digitsValue ds : Int)
  | 43 :: ds => digitsValue ds
  | ds => digitsValue ds

/-- A bind is successful exactly when both of its parts are. -/
theorem bind_eq_ok_iff {α β : Type u} {x : Checked α} {f : α → Checked β} {b : β} :
    (x >>= f) = .ok b ↔ ∃ a, x = .ok a ∧ f a = .ok b := by
  cases x with
  | error e => simp [bind, Except.bind]
  | ok a => simp [bind, Except.bind]

/-- A mapped computation is successful exactly when the computation is. -/
theorem map_eq_ok_iff {α β : Type u} {x : Checked α} {f : α → β} {b : β} :
    f <$> x = .ok b ↔ ∃ a, x = .ok a ∧ f a = b := by
  cases x with
  | error e => simp [Functor.map, Except.map]
  | ok a => simp [Functor.map, Except.map]

/-! ## Sizes of structures -/

/-- The next multiple of the alignment. -/
def alignUp (offset alignment : Nat) : Nat :=
  (offset + alignment - 1) / alignment * alignment

/-- Size of a structure from the size and alignment of its members, in order:
each member starts at a multiple of its alignment, and the whole is padded to
the largest one. -/
def structSize (members : List (Nat × Nat)) : Nat :=
  alignUp (members.foldl (fun offset m => alignUp offset m.2 + m.1) 0)
    (members.foldl (fun a m => max a m.2) 1)

/-! ## C strings inside byte sequences -/

/-- The C string at the start of a byte sequence: everything before the first
zero byte. -/
def cstr (bs : Bytes) : Bytes :=
  bs.takeWhile (· != 0)

/-- The library function `strlen`, on a sequence followed by a zero byte. -/
def strlen (bs : Bytes) : Nat :=
  (cstr bs).length

@[simp]
theorem cstr_nil : cstr [] = [] :=
  rfl

@[simp]
theorem cstr_zero_cons (bs : Bytes) : cstr (0 :: bs) = [] :=
  rfl

theorem cstr_cons_of_ne {b : UInt8} (hb : b ≠ 0) (bs : Bytes) :
    cstr (b :: bs) = b :: cstr bs := by
  simp [cstr, hb]

/-- A C string holds no zero byte. -/
theorem zero_notMem_cstr (bs : Bytes) : (0 : UInt8) ∉ cstr bs := by
  intro hmem
  have hne := List.mem_takeWhile_imp hmem
  simp at hne

/-- A sequence is its own C string exactly when it holds no zero byte. -/
theorem cstr_eq_self_iff {bs : Bytes} : cstr bs = bs ↔ (0 : UInt8) ∉ bs := by
  constructor
  · intro heq
    rw [← heq]
    exact zero_notMem_cstr bs
  · intro hzero
    rw [cstr, List.takeWhile_eq_self_iff]
    intro b hb
    have hne : b ≠ 0 := fun h => hzero (h ▸ hb)
    simpa using hne

@[simp]
theorem cstr_cstr (bs : Bytes) : cstr (cstr bs) = cstr bs :=
  cstr_eq_self_iff.mpr (zero_notMem_cstr bs)

/-- What follows a C string and its terminator does not change it. -/
theorem cstr_append_zero (bs tail : Bytes) :
    cstr (bs ++ 0 :: tail) = cstr bs := by
  induction bs with
  | nil => simp
  | cons b bs ih =>
      by_cases hb : b = 0
      · subst b
        simp
      · simp only [List.cons_append, cstr_cons_of_ne hb, ih]

/-- A C string is the start of the sequence it was read from. -/
theorem cstr_isPrefix (bs : Bytes) : cstr bs <+: bs :=
  List.takeWhile_prefix _

theorem strlen_le (bs : Bytes) : strlen bs ≤ bs.length :=
  (cstr_isPrefix bs).length_le

/-- A sequence with a zero byte is longer than its C string. -/
theorem strlen_lt {bs : Bytes} (hzero : (0 : UInt8) ∈ bs) : strlen bs < bs.length := by
  refine lt_of_le_of_ne (strlen_le bs) fun heq => ?_
  exact cstr_eq_self_iff.mp ((cstr_isPrefix bs).eq_of_length heq) hzero

/-! ## Byte arrays with checked stores and loads -/

/-- An array of `n` bytes. -/
structure CharArray (n : Nat) where
  bytes : Bytes
  length_eq : bytes.length = n
deriving DecidableEq

namespace CharArray

variable {n : Nat}

@[ext]
theorem ext {a b : CharArray n} (h : a.bytes = b.bytes) : a = b := by
  cases a
  cases b
  simpa using h

/-- A value-initialised array, or one cleared by `memset`. -/
def zeros (n : Nat) : CharArray n :=
  ⟨List.replicate n 0, List.length_replicate⟩

/-- An array initialised with a string literal that leaves room for the
terminator. -/
def ofText (n : Nat) (text : Bytes) : CharArray n :=
  ⟨(text ++ List.replicate n 0).take n, by simp⟩

/-- Store one byte. -/
def store (a : CharArray n) (i : Nat) (b : UInt8) : Checked (CharArray n) :=
  if i < n then .ok ⟨a.bytes.set i b, by simp [a.length_eq]⟩ else .error (.write i n)

/-- Store the bytes of `src` one after the other, from index `i` on. -/
def memcpyAt (a : CharArray n) (i : Nat) : Bytes → Checked (CharArray n)
  | [] => .ok a
  | b :: bs => do
      let a' ← a.store i b
      a'.memcpyAt (i + 1) bs

/-- The library function `memcpy` with the array as destination. -/
def memcpy (a : CharArray n) (src : Bytes) : Checked (CharArray n) :=
  a.memcpyAt 0 src

/-- A store is in bounds exactly below the size of the array. -/
theorem store_eq_ok_iff {a r : CharArray n} {i : Nat} {b : UInt8} :
    a.store i b = .ok r ↔ i < n ∧ r.bytes = a.bytes.set i b := by
  unfold store
  split <;> rename_i hi
  · simp [hi, CharArray.ext_iff, eq_comm]
  · simp [hi]

theorem memcpyAt_eq_ok_iff {src : Bytes} :
    ∀ {a r : CharArray n} {i : Nat}, i ≤ n →
      (a.memcpyAt i src = .ok r ↔
        i + src.length ≤ n ∧
          r.bytes = a.bytes.take i ++ src ++ a.bytes.drop (i + src.length)) := by
  induction src with
  | nil =>
      intro a r i hi
      simp [memcpyAt, CharArray.ext_iff, hi, eq_comm]
  | cons b bs ih =>
      intro a r i hi
      simp only [memcpyAt, bind_eq_ok_iff, store_eq_ok_iff, List.length_cons]
      constructor
      · rintro ⟨a', ⟨hlt, hset⟩, hrest⟩
        rcases (ih (by omega)).mp hrest with ⟨hfits, hbytes⟩
        refine ⟨by omega, ?_⟩
        have hlen : i < a.bytes.length := by rw [a.length_eq]; exact hlt
        rw [hbytes, hset, List.take_add_one, List.drop_set_of_lt (by omega)]
        simp [List.take_set_of_le, hlen, Nat.add_assoc, Nat.add_comm 1]
      · rintro ⟨hfits, hbytes⟩
        have hlt : i < n := by omega
        have hlen : i < a.bytes.length := by rw [a.length_eq]; exact hlt
        refine ⟨⟨a.bytes.set i b, by simp [a.length_eq]⟩, ⟨hlt, rfl⟩, ?_⟩
        refine (ih (by omega)).mpr ⟨by omega, ?_⟩
        rw [hbytes, List.take_add_one, List.drop_set_of_lt (by omega)]
        simp [List.take_set_of_le, hlen, Nat.add_assoc, Nat.add_comm 1]

/-- A copy is in bounds exactly when the source fits; it overwrites a prefix
and leaves the rest of the array as it was. -/
theorem memcpy_eq_ok_iff {a r : CharArray n} {src : Bytes} :
    a.memcpy src = .ok r ↔
      src.length ≤ n ∧ r.bytes = src ++ a.bytes.drop src.length := by
  rw [memcpy, memcpyAt_eq_ok_iff (Nat.zero_le n)]
  simp

/-- A source that fits is copied without a fault. -/
theorem exists_memcpy_eq_ok (a : CharArray n) {src : Bytes} (hfits : src.length ≤ n) :
    ∃ r, a.memcpy src = .ok r :=
  ⟨⟨src ++ a.bytes.drop src.length, by simp [a.length_eq, hfits]⟩,
    memcpy_eq_ok_iff.mpr ⟨hfits, rfl⟩⟩

/-- Scan for the end of a C string; `i` is the index of the next byte read. -/
def scanString (n i : Nat) : Bytes → Checked Bytes
  | [] => .error (.read i n)
  | b :: bs => if b = 0 then .ok [] else (b :: ·) <$> scanString n (i + 1) bs

/-- Read the array as a C string. -/
def cstring (a : CharArray n) : Checked Bytes :=
  scanString n 0 a.bytes

theorem scanString_eq_ok_iff {bs s : Bytes} :
    ∀ {i : Nat}, scanString n i bs = .ok s ↔ (0 : UInt8) ∈ bs ∧ s = cstr bs := by
  induction bs generalizing s with
  | nil => simp [scanString]
  | cons b bs ih =>
      intro i
      unfold scanString
      split <;> rename_i hb
      · subst b
        simp [eq_comm]
      · rw [map_eq_ok_iff, cstr_cons_of_ne hb]
        constructor
        · rintro ⟨t, ht, rfl⟩
          rcases ih.mp ht with ⟨hmem, rfl⟩
          exact ⟨List.mem_cons_of_mem b hmem, rfl⟩
        · rintro ⟨hmem, rfl⟩
          have htail : (0 : UInt8) ∈ bs := by
            rcases List.mem_cons.mp hmem with h | h
            · exact absurd h.symm hb
            · exact h
          exact ⟨cstr bs, ih.mpr ⟨htail, rfl⟩, rfl⟩

/-- Reading a C string stays inside the array exactly when it holds a zero
byte, and yields the bytes before the first one. -/
theorem cstring_eq_ok_iff {a : CharArray n} {s : Bytes} :
    a.cstring = .ok s ↔ (0 : UInt8) ∈ a.bytes ∧ s = cstr a.bytes :=
  scanString_eq_ok_iff

/-- A source copied into a zeroed array is followed by zeros. -/
theorem memcpy_zeros_eq_ok_iff {r : CharArray n} {src : Bytes} :
    (zeros n).memcpy src = .ok r ↔
      src.length ≤ n ∧ r.bytes = src ++ List.replicate (n - src.length) 0 := by
  rw [memcpy_eq_ok_iff]
  simp [zeros]

/-- A zeroed array that received a source keeps a zero byte exactly when the
source left room for one or brought one. -/
theorem zero_mem_of_memcpy_zeros {r : CharArray n} {src : Bytes}
    (hcopy : (zeros n).memcpy src = .ok r) :
    (0 : UInt8) ∈ r.bytes ↔ src.length < n ∨ (0 : UInt8) ∈ src := by
  rcases memcpy_zeros_eq_ok_iff.mp hcopy with ⟨hfits, hbytes⟩
  rw [hbytes, List.mem_append, List.mem_replicate]
  have hroom : n - src.length ≠ 0 ↔ src.length < n := by omega
  simp [hroom, or_comm]

/-- Reading the copy back as a C string gives the source's own C string. -/
theorem cstring_of_memcpy_zeros {r : CharArray n} {src s : Bytes}
    (hcopy : (zeros n).memcpy src = .ok r) :
    r.cstring = .ok s ↔
      (src.length < n ∨ (0 : UInt8) ∈ src) ∧ s = cstr src := by
  rw [cstring_eq_ok_iff, zero_mem_of_memcpy_zeros hcopy]
  rcases memcpy_zeros_eq_ok_iff.mp hcopy with ⟨hfits, hbytes⟩
  have hcstr : cstr r.bytes = cstr src := by
    rw [hbytes]
    cases n - src.length with
    | zero => simp
    | succ k => rw [List.replicate_succ, cstr_append_zero]
  rw [hcstr]

/-! ## Arrays filled from outside -/

/-- The array after bytes from outside were stored at its front, as many of them
as fit. -/
def overlay (a : CharArray n) (src : Bytes) : CharArray n where
  bytes := src.take n ++ a.bytes.drop src.length
  length_eq := by
    rw [List.length_append, List.length_take, List.length_drop, a.length_eq]
    omega

/-- A source of the array's size replaces it. -/
theorem overlay_of_length_eq (a b : CharArray n) : a.overlay b.bytes = b := by
  apply ext
  change b.bytes.take n ++ a.bytes.drop b.bytes.length = b.bytes
  rw [List.take_of_length_le (by rw [b.length_eq]), List.drop_eq_nil_of_le, List.append_nil]
  rw [a.length_eq, b.length_eq]

/-- Of the bytes stored, the first ones are the source's. -/
theorem take_overlay (a : CharArray n) {src : Bytes} {k : Nat} (hk : k ≤ src.length)
    (hn : k ≤ n) : (a.overlay src).bytes.take k = src.take k := by
  change (src.take n ++ a.bytes.drop src.length).take k = _
  rw [List.take_append_of_le_length (by rw [List.length_take]; omega), List.take_take]
  congr 1
  omega

/-! ## Arrays without leftovers -/

/-- The array with every byte from the first zero byte on set to zero. -/
def clearedTail (a : CharArray n) : CharArray n where
  bytes := cstr a.bytes ++ List.replicate (n - strlen a.bytes) 0
  length_eq := by
    have hle := strlen_le a.bytes
    rw [a.length_eq] at hle
    rw [List.length_append, List.length_replicate]
    exact Nat.add_sub_of_le hle

/-- Copying a terminated array's text into a zeroed array clears its tail. -/
theorem memcpy_zeros_cstr (a : CharArray n) :
    (zeros n).memcpy (cstr a.bytes) = .ok a.clearedTail := by
  have hle := strlen_le a.bytes
  rw [a.length_eq] at hle
  exact memcpy_zeros_eq_ok_iff.mpr ⟨hle, rfl⟩

/-- A terminated array stays terminated, and reads as the same C string. -/
theorem cstring_clearedTail {a : CharArray n} (hzero : (0 : UInt8) ∈ a.bytes) :
    a.clearedTail.cstring = .ok (cstr a.bytes) := by
  have hlt := strlen_lt hzero
  rw [a.length_eq] at hlt
  exact (cstring_of_memcpy_zeros a.memcpy_zeros_cstr).mpr ⟨.inl hlt, (cstr_cstr _).symm⟩

/-- Clearing the tail a second time changes nothing. -/
theorem clearedTail_clearedTail {a : CharArray n} (hzero : (0 : UInt8) ∈ a.bytes) :
    a.clearedTail.clearedTail = a.clearedTail := by
  have htext := (cstring_eq_ok_iff.mp (cstring_clearedTail hzero)).2
  apply ext
  change cstr a.clearedTail.bytes ++ List.replicate (n - (cstr a.clearedTail.bytes).length) 0 = _
  rw [← htext]
  rfl

end CharArray

end CMemory
