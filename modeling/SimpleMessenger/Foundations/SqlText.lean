import SimpleMessenger.Foundations.CMemory

/-!
# Reading SQL text

A one-pass reader that cuts the bytes of an SQL statement into words, symbols and
single-quoted literals.  A literal runs to the next quote that is not doubled,
and a doubled quote stands for one.  Comments are not skipped: their bytes come
out as tokens, so a statement equal to an expected token sequence has none.

Main results:

- Theorem {lit}`scan_quoted`: bytes without a quote, put between quotes, are read
  back as one literal with those bytes as value.
- Theorem {lit}`quote_notMem_of_value`: no other bytes put between quotes are
  read back as a literal with their own value.
-/

namespace SqlText

open CMemory

/-! ## The reader -/

/-- The single quote. -/
def quote : UInt8 := 39

inductive Token where
  | word (w : Bytes)
  | symbol (b : UInt8)
  | literal (value : Bytes)
deriving DecidableEq

/-- Letters, digits, the underscore and the bytes of multi-byte letters. -/
def isWordByte (b : UInt8) : Bool :=
  (97 ≤ b && b ≤ 122) || (65 ≤ b && b ≤ 90) || isDigit b || b == 95 || 128 ≤ b

/-- Where the reader stands: between tokens, inside a word, inside a literal, or
behind a quote that closes the literal unless another quote follows. -/
inductive Mode where
  | between
  | word (w : Bytes)
  | literal (value : Bytes)
  | closing (value : Bytes)

/-- The mode after a byte that starts something new, and the token it is. -/
def enter (b : UInt8) : Mode × List Token :=
  if b = quote then (.literal [], [])
  else if isWordByte b then (.word [b], [])
  else if isSpace b then (.between, [])
  else (.between, [.symbol b])

/-- Read on, with the tokens found so far; `none` for an unterminated literal. -/
def scan : Mode → List Token → Bytes → Option (List Token)
  | .between, ts, [] => some ts
  | .word w, ts, [] => some (ts ++ [.word w])
  | .literal _, _, [] => none
  | .closing v, ts, [] => some (ts ++ [.literal v])
  | .between, ts, b :: bs => scan (enter b).1 (ts ++ (enter b).2) bs
  | .word w, ts, b :: bs =>
      if isWordByte b then scan (.word (w ++ [b])) ts bs
      else scan (enter b).1 (ts ++ [.word w] ++ (enter b).2) bs
  | .literal v, ts, b :: bs =>
      if b = quote then scan (.closing v) ts bs else scan (.literal (v ++ [b])) ts bs
  | .closing v, ts, b :: bs =>
      if b = quote then scan (.literal (v ++ [quote])) ts bs
      else scan (enter b).1 (ts ++ [.literal v] ++ (enter b).2) bs

/-- The tokens of a statement. -/
def tokens (text : Bytes) : Option (List Token) :=
  scan .between [] text

/-- The tokens found so far stay in front. -/
theorem isPrefix_of_scan {bs : Bytes} :
    ∀ {m : Mode} {ts us : List Token}, scan m ts bs = some us → ts <+: us := by
  induction bs with
  | nil =>
      intro m ts us h
      cases m <;> simp only [scan, Option.some.injEq, reduceCtorEq] at h
      · exact h ▸ List.prefix_rfl
      · exact h ▸ List.prefix_append ts _
      · exact h ▸ List.prefix_append ts _
  | cons b bs ih =>
      intro m ts us h
      cases m with
      | between => exact (List.prefix_append ts _).trans (ih h)
      | word w =>
          simp only [scan] at h
          split at h
          · exact ih h
          · rw [List.append_assoc] at h
            exact (List.prefix_append ts _).trans (ih h)
      | literal v =>
          simp only [scan] at h
          split at h
          · exact ih h
          · exact ih h
      | closing v =>
          simp only [scan] at h
          split at h
          · exact ih h
          · rw [List.append_assoc] at h
            exact (List.prefix_append ts _).trans (ih h)

/-- Behind a literal that no further quote prolongs, the literal is a token. -/
theorem literal_prefix_of_closing {v rest : Bytes} {ts us : List Token}
    (hrest : rest.head? ≠ some quote) (hscan : scan (.closing v) ts rest = some us) :
    ts ++ [.literal v] <+: us := by
  cases rest with
  | nil =>
      simp only [scan, Option.some.injEq] at hscan
      exact hscan ▸ List.prefix_rfl
  | cons b bs =>
      have hb : b ≠ quote := by simpa using hrest
      simp only [scan, if_neg hb] at hscan
      exact (List.prefix_append _ _).trans (isPrefix_of_scan hscan)

/-! ## Literals and doubled quotes -/

/-- The bytes that stand for a value inside a literal: every quote doubled. -/
def escape : Bytes → Bytes
  | [] => []
  | b :: bs => if b = quote then quote :: quote :: escape bs else b :: escape bs

/-- Reading quote-free bytes inside a literal appends them to its value. -/
theorem scan_literal_append {w : Bytes} (hfree : quote ∉ w) (ts : List Token) (rest : Bytes) :
    ∀ v, scan (.literal v) ts (w ++ rest) = scan (.literal (v ++ w)) ts rest := by
  induction w with
  | nil => simp
  | cons b w ih =>
      intro v
      have hb : b ≠ quote := fun h => hfree (by simp [h])
      have hw : quote ∉ w := fun h => hfree (List.mem_cons_of_mem b h)
      simp only [List.cons_append, scan, if_neg hb, ih hw, List.append_assoc, List.nil_append]

/-- Quote-free bytes between quotes are one literal with those bytes as value. -/
theorem scan_quoted {w : Bytes} (hfree : quote ∉ w) (ts : List Token) (rest : Bytes) :
    scan (.literal []) ts (w ++ quote :: rest) = scan (.closing w) ts rest := by
  rw [scan_literal_append hfree ts (quote :: rest) []]
  simp [scan]

/-- What a complete literal was read from: its escaped value, the closing quote,
and something that does not start with another quote. -/
theorem exists_escape_of_scan (ts us : List Token) (n : Nat) :
    ∀ {raw a : Bytes}, raw.length ≤ n → scan (.literal a) ts raw = some us →
      ∃ v rest, raw = escape v ++ quote :: rest ∧ rest.head? ≠ some quote ∧
        scan (.closing (a ++ v)) ts rest = some us := by
  -- one doubled quote takes two bytes, so the induction is on the length
  induction n with
  | zero =>
      intro raw a hlen hscan
      have hnil : raw = [] := List.length_eq_zero_iff.mp (Nat.le_zero.mp hlen)
      subst hnil
      simp [scan] at hscan
  | succ n ih =>
      intro raw a hlen hscan
      cases raw with
      | nil => simp [scan] at hscan
      | cons b raw =>
          simp only [List.length_cons] at hlen
          by_cases hb : b = quote
          · subst b
            simp only [scan, if_true] at hscan
            by_cases hdouble : raw.head? = some quote
            · rcases List.head?_eq_some_iff.mp hdouble with ⟨raw', rfl⟩
              simp only [scan, if_true, List.length_cons] at hscan hlen
              rcases ih (by omega) hscan with ⟨v, rest, rfl, hrest, hclosing⟩
              refine ⟨quote :: v, rest, by simp [escape], hrest, ?_⟩
              simpa using hclosing
            · exact ⟨[], raw, rfl, hdouble, by simpa using hscan⟩
          · simp only [scan, if_neg hb] at hscan
            rcases ih (by omega) hscan with ⟨v, rest, rfl, hrest, hclosing⟩
            refine ⟨b :: v, rest, by simp [escape, hb], hrest, ?_⟩
            simpa using hclosing

/-- Once the escaped side is a quote ahead, it never falls back: the other side
would have to consist of quotes only, and of too few of them. -/
theorem escape_ahead_ne {w : Bytes} {rest rest' : Bytes} (hrest' : rest'.head? ≠ some quote) :
    ∀ k, List.replicate (k + 1) quote ++ (escape w ++ quote :: rest) ≠ w ++ quote :: rest' := by
  induction w with
  | nil =>
      intro k heq
      simp only [escape, List.nil_append, List.replicate_succ, List.cons_append,
        List.cons.injEq, true_and] at heq
      apply hrest'
      rw [← heq]
      cases k <;> simp [List.replicate_succ]
  | cons b w ih =>
      intro k heq
      simp only [List.replicate_succ, List.cons_append, List.cons.injEq] at heq
      have hb : b = quote := heq.1.symm
      have hdoubled : escape (b :: w) = List.replicate 2 quote ++ escape w := by
        simp [escape, hb, List.replicate_succ]
      have hlead : List.replicate (k + 1 + 1) quote =
          List.replicate k quote ++ List.replicate 2 quote :=
        (List.replicate_append_replicate (n := k) (m := 2)).symm
      apply ih (k + 1)
      rw [← heq.2, hdoubled, hlead]
      simp only [List.append_assoc]

/-- Bytes that are their own escaped form, up to the closing quote, hold no
quote. -/
theorem quote_notMem_of_escape_eq {w rest rest' : Bytes} (hrest' : rest'.head? ≠ some quote)
    (heq : escape w ++ quote :: rest = w ++ quote :: rest') : quote ∉ w := by
  induction w with
  | nil => simp
  | cons b w ih =>
      by_cases hb : b = quote
      · subst b
        simp only [escape, if_true, List.cons_append, List.cons.injEq, true_and] at heq
        exact absurd heq (escape_ahead_ne hrest' 0)
      · simp only [escape, if_neg hb, List.cons_append, List.cons.injEq, true_and] at heq
        intro hmem
        rcases List.mem_cons.mp hmem with h | h
        · exact hb h.symm
        · exact ih heq h

/-- If bytes put between quotes are read as a literal with those bytes as value,
they hold no quote. -/
theorem quote_notMem_of_value {w rest : Bytes} {ts us : List Token}
    (hrest : rest.head? ≠ some quote)
    (hscan : scan (.literal []) ts (w ++ quote :: rest) = some us)
    (hvalue : ts ++ [.literal w] <+: us) : quote ∉ w := by
  rcases exists_escape_of_scan ts us _ (Nat.le_refl _) hscan with
    ⟨v, rest', heq, hrest', hclosing⟩
  have hread := literal_prefix_of_closing hrest' hclosing
  have hsame : ts ++ [Token.literal w] = ts ++ [Token.literal ([] ++ v)] :=
    (List.prefix_of_prefix_length_le hvalue hread (by simp)).eq_of_length (by simp)
  have hv : w = v := by simpa using hsame
  subst hv
  exact quote_notMem_of_escape_eq hrest heq.symm

end SqlText
