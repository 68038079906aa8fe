import SimpleMessenger.Foundations.CMemory

/-!
# Formatted text input

What two conversions of the library function {lit}`scanf` take from the bytes that are
left of an input.  Both skip white space first; a word ends before the next white
space, a number behind its last digit.

Main results:

- Theorem {lit}`words_eq_scanWord`: scanning word after word yields the words of an
  input, and nothing else.
- Theorem {lit}`scanULong_numeral`: a numeral is converted to its value.
- Theorem {lit}`digitsValue_decimal`: the decimal digits of a number have its value.
-/

namespace TextInput

open CMemory

/-! ## Words -/

/-- The library function `scanf` with `%s`: the next word and what is left behind it.
There is none at the end of the input. -/
def scanWord (input : Bytes) : Option Bytes × Bytes :=
  match input.dropWhile isSpace with
  | [] => (none, [])
  | b :: bs => (some ((b :: bs).takeWhile (!isSpace ·)), (b :: bs).dropWhile (!isSpace ·))

/-- The longest stretches of an input without white space. -/
def words (input : Bytes) : List Bytes :=
  (input.splitOnP isSpace).filter (!·.isEmpty)

@[simp]
theorem words_nil : words [] = [] :=
  rfl

theorem words_cons_of_space {b : UInt8} (hb : isSpace b = true) (bs : Bytes) :
    words (b :: bs) = words bs := by
  simp [words, List.splitOnP_cons_eq_if_modifyHead, hb]

theorem words_dropWhile (input : Bytes) : words (input.dropWhile isSpace) = words input := by
  induction input with
  | nil => rfl
  | cons b bs ih =>
      by_cases hb : isSpace b = true
      · rw [List.dropWhile_cons_of_pos hb, ih, words_cons_of_space hb]
      · rw [List.dropWhile_cons_of_neg hb]

/-- A stretch without white space, up to the end or the next white space, is a word. -/
theorem words_append {word rest : Bytes} (hne : word ≠ [])
    (hword : ∀ b ∈ word, isSpace b = false) (hrest : ∀ b ∈ rest.head?, isSpace b = true) :
    words (word ++ rest) = word :: words rest := by
  cases rest with
  | nil =>
      rw [List.append_nil, words, List.splitOnP_eq_singleton hword]
      simp [hne]
  | cons b bs =>
      have hb : isSpace b = true := hrest b (by simp)
      rw [words_cons_of_space hb, words, List.splitOnP_append_cons_of_forall_mem hword b hb]
      simp [words, hne]

/-- Scanning finds the first word and leaves the others. -/
theorem words_eq_scanWord (input : Bytes) :
    words input =
      match scanWord input with
      | (none, _) => []
      | (some word, rest) => word :: words rest := by
  rw [← words_dropWhile, scanWord]
  cases hinput : input.dropWhile isSpace with
  | nil => rfl
  | cons b bs =>
      have hb : isSpace b = false := by
        have hhead := List.head?_dropWhile_not isSpace input
        rw [hinput] at hhead
        simpa using hhead
      have hsplit := List.takeWhile_append_dropWhile (p := (!isSpace ·)) (l := b :: bs)
      conv_lhs => rw [← hsplit]
      refine words_append ?_ ?_ ?_
      · simp [hb]
      · intro c hc
        have htake := List.mem_takeWhile_imp hc
        simpa using htake
      · intro c hc
        have hhead := List.head?_dropWhile_not (!isSpace ·) (b :: bs)
        rw [hc] at hhead
        simpa using hhead

/-- Without a word the whole input is read. -/
theorem scanWord_of_words_nil {input : Bytes} (hwords : words input = []) :
    scanWord input = (none, []) := by
  rw [scanWord]
  cases hinput : input.dropWhile isSpace with
  | nil => rfl
  | cons b bs =>
      have heq := words_eq_scanWord input
      rw [hwords, scanWord, hinput] at heq
      contradiction

theorem scanWord_of_words_cons {input word : Bytes} {later : List Bytes}
    (hwords : words input = word :: later) :
    ∃ rest, scanWord input = (some word, rest) ∧ words rest = later := by
  have heq := words_eq_scanWord input
  rw [hwords] at heq
  split at heq <;> rename_i hscan
  · contradiction
  · cases heq
    exact ⟨_, hscan, rfl⟩

/-! ## Numbers -/

/-- The library function `scanf` with `%lu`, which converts as `strtoul` does: the value
is negated behind a minus sign, and one that is out of range gives the largest number. -/
def scanULong (input : Bytes) : Option UInt64 × Bytes :=
  let signed :=
    match input.dropWhile isSpace with
    | 45 :: rest => (true, rest)
    | 43 :: rest => (false, rest)
    | rest => (false, rest)
  let rest := signed.2.dropWhile isDigit
  if (signed.2.takeWhile isDigit).isEmpty then (none, rest)
  else if UInt64.size ≤ digitsValue signed.2 then (some (UInt64.ofNat (UInt64.size - 1)), rest)
  else if signed.1 then (some (0 - UInt64.ofNat (digitsValue signed.2)), rest)
  else (some (UInt64.ofNat (digitsValue signed.2)), rest)

/-- A numeral behind white space, in front of white space or the end of the input. -/
inductive Numeral (number : UInt64) (rest : Bytes) : Bytes → Prop where
  | intro {blank digits : Bytes} (hblank : ∀ b ∈ blank, isSpace b = true) (hne : digits ≠ [])
      (hdigits : ∀ b ∈ digits, isDigit b = true) (hvalue : digitsValue digits = number.toNat)
      (hrest : ∀ b ∈ rest.head?, isSpace b = true) : Numeral number rest (blank ++ (digits ++ rest))

theorem isSpace_eq_false_of_isDigit {b : UInt8} (hb : isDigit b = true) : isSpace b = false := by
  simp only [isDigit, Bool.and_eq_true, decide_eq_true_eq, UInt8.le_iff_toNat_le] at hb
  simp only [isSpace, Bool.or_eq_false_iff, beq_eq_false_iff_ne, ne_eq, Bool.and_eq_false_iff,
    decide_eq_false_iff_not, ← UInt8.toNat_inj, UInt8.le_iff_toNat_le]
  simp at hb ⊢
  omega

/-- The digits at the start of an input are followed by something else. -/
theorem takeWhile_digits {digits rest : Bytes} (hdigits : ∀ b ∈ digits, isDigit b = true)
    (hrest : ∀ b ∈ rest.head?, isSpace b = true) :
    (digits ++ rest).takeWhile isDigit = digits ∧
      (digits ++ rest).dropWhile isDigit = rest := by
  rw [List.takeWhile_append_of_pos hdigits, List.dropWhile_append_of_pos hdigits]
  cases rest with
  | nil => simp
  | cons b bs =>
      have hb : isDigit b = false := by
        by_contra hdigit
        have hspace := hrest b (by simp)
        rw [isSpace_eq_false_of_isDigit (eq_true_of_ne_false hdigit)] at hspace
        contradiction
      simp [hb]

theorem scanULong_numeral {input rest : Bytes} {number : UInt64}
    (hnumeral : Numeral number rest input) : scanULong input = (some number, rest) := by
  cases hnumeral with
  | @intro blank digits hblank hne hdigits hvalue hrest =>
      rcases takeWhile_digits hdigits hrest with ⟨htake, hdrop⟩
      have hsame : digitsValue (digits ++ rest) = number.toNat := by
        rw [← hvalue, digitsValue, digitsValue, htake,
          List.takeWhile_eq_self_iff.mpr hdigits]
      -- a digit is neither white space nor a sign
      have hsigned : (match (blank ++ (digits ++ rest)).dropWhile isSpace with
          | 45 :: rest => (true, rest)
          | 43 :: rest => (false, rest)
          | rest => (false, rest)) = (false, digits ++ rest) := by
        rw [List.dropWhile_append_of_pos hblank]
        rcases List.exists_cons_of_ne_nil hne with ⟨d, ds, rfl⟩
        have hd : isDigit d = true := hdigits d List.mem_cons_self
        rw [List.cons_append, List.dropWhile_cons_of_neg (by simp [isSpace_eq_false_of_isDigit hd])]
        split <;> rename_i heq
        · cases heq
          contradiction
        · cases heq
          contradiction
        · rfl
      have hlt : ¬ UInt64.size ≤ number.toNat := by
        have hsize := number.toNat_lt_size
        omega
      simp only [scanULong, hsigned, htake, hdrop, hsame, if_neg hlt]
      simp [hne]

/-! ## Numbers as text -/

/-- The library function `to_string` on an unsigned number. -/
def decimal (n : Nat) : Bytes :=
  (Nat.toDigits 10 n).map fun c => c.toNat.toUInt8

theorem toNat_digitChar : ∀ d < 10, d.digitChar.toNat.toUInt8 = UInt8.ofNat (48 + d) := by
  decide

theorem decimal_of_lt {n : Nat} (hn : n < 10) : decimal n = [UInt8.ofNat (48 + n)] := by
  rw [decimal, Nat.toDigits_of_lt_base hn, List.map_singleton, toNat_digitChar n hn]

theorem decimal_of_le {n : Nat} (hn : 10 ≤ n) :
    decimal n = decimal (n / 10) ++ [UInt8.ofNat (48 + n % 10)] := by
  rw [decimal, Nat.toDigits_of_base_le (by decide) hn, List.map_append, List.map_singleton,
    toNat_digitChar _ (Nat.mod_lt _ (by decide)), decimal]

theorem toNat_digit : ∀ d < 10,
    isDigit (UInt8.ofNat (48 + d)) = true ∧ (UInt8.ofNat (48 + d) - 48).toNat = d := by
  decide

/-- A decimal numeral consists of digits, at least one. -/
theorem isDigit_decimal (n : Nat) : ∀ b ∈ decimal n, isDigit b = true := by
  induction n using Nat.strong_induction_on with
  | _ n ih =>
      rcases Nat.lt_or_ge n 10 with hlt | hge
      · rw [decimal_of_lt hlt, List.forall_mem_singleton]
        exact (toNat_digit n hlt).1
      · rw [decimal_of_le hge]
        intro b hb
        rcases List.mem_append.mp hb with hb | hb
        · exact ih (n / 10) (by omega) b hb
        · rw [List.mem_singleton.mp hb]
          exact (toNat_digit _ (Nat.mod_lt _ (by decide))).1

theorem decimal_ne_nil (n : Nat) : decimal n ≠ [] := by
  simp [decimal, Nat.toDigits_ne_nil]

/-- One more digit at the end. -/
theorem digitsValue_concat {ds : Bytes} {d : UInt8} (hds : ∀ b ∈ ds, isDigit b = true)
    (hd : isDigit d = true) : digitsValue (ds ++ [d]) = 10 * digitsValue ds + (d - 48).toNat := by
  have hall : ∀ b ∈ ds ++ [d], isDigit b = true := by
    intro b hb
    rcases List.mem_append.mp hb with hb | hb
    · exact hds b hb
    · rw [List.mem_singleton.mp hb]
      exact hd
  rw [digitsValue, digitsValue, List.takeWhile_eq_self_iff.mpr hall,
    List.takeWhile_eq_self_iff.mpr hds, List.foldl_append, List.foldl_cons, List.foldl_nil]

/-- The decimal digits of a number have its value. -/
theorem digitsValue_decimal (n : Nat) : digitsValue (decimal n) = n := by
  induction n using Nat.strong_induction_on with
  | _ n ih =>
      rcases Nat.lt_or_ge n 10 with hlt | hge
      · have hnone : ∀ b ∈ ([] : Bytes), isDigit b = true := by simp
        have hone := digitsValue_concat hnone (toNat_digit n hlt).1
        rw [decimal_of_lt hlt]
        rw [List.nil_append, (toNat_digit n hlt).2] at hone
        rw [hone]
        simp [digitsValue]
      · have hmod : n % 10 < 10 := Nat.mod_lt _ (by decide)
        rw [decimal_of_le hge, digitsValue_concat (isDigit_decimal _) (toNat_digit _ hmod).1,
          ih (n / 10) (by omega), (toNat_digit _ hmod).2]
        omega

/-- A numeral as the library prints it begins with a digit. -/
theorem decimal_eq_cons (n : Nat) :
    ∃ d ds, decimal n = d :: ds ∧ isDigit d = true := by
  rcases List.exists_cons_of_ne_nil (decimal_ne_nil n) with ⟨d, ds, hcons⟩
  exact ⟨d, ds, hcons, isDigit_decimal n d (by simp [hcons])⟩

/-- The library function `atoi` reads a numeral back. -/
theorem atoi_decimal (n : Nat) : atoi (decimal n) = n := by
  rcases decimal_eq_cons n with ⟨d, ds, hcons, hd⟩
  have hdrop : (decimal n).dropWhile isSpace = d :: ds := by
    rw [hcons, List.dropWhile_cons_of_neg (by simp [isSpace_eq_false_of_isDigit hd])]
  have hvalue : digitsValue (d :: ds) = n := by
    rw [← hcons, digitsValue_decimal]
  simp only [atoi, hdrop]
  -- a digit is not a sign
  split
  · rename_i hminus
    cases hminus
    contradiction
  · rename_i hplus
    cases hplus
    contradiction
  · rw [hvalue]

/-- Both ways to print a number agree. -/
theorem ascii_toString (n : Nat) : ascii (toString n) = decimal n := by
  simp [ascii, decimal, toString, Nat.repr]

end TextInput
