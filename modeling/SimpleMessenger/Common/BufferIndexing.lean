import Mathlib.Data.Nat.ModEq
import SimpleMessenger.Common.CircularBuffer

/-!
# The subscript operator of `CircularBuffer.hpp`

A reference is modelled by the index of the array cell it is to.  The operator
wraps around at the number of elements held, where the pops wrap around at the
capacity, and the offset goes through {lit}`size_t` and back to {lit}`int` on its
way.

Main results:

- Theorem {lit}`poppedCell_eq`: the cells that consecutive pops read.
- Theorem {lit}`operatorSubscript_eq`: the cell that the operator refers to.
- Theorem {lit}`subscriptAgrees_iff`: the buffers and offsets at which the two are
  the same cell and nothing is undefined.
- Theorem {lit}`forall_subscriptAgrees_iff`: the buffers that are indexed correctly
  throughout.
-/

universe u

namespace SimpleMessenger

open CMemory BoundedQueue

namespace CircularBuffer

variable {T : Type u} {length : UInt64}

/-! ## The operator as the source has it -/

/-- Why an evaluation of the operator is undefined. -/
inductive SubscriptFault where
  | divisionByZero
  | access (fault : Fault)
deriving DecidableEq

/-- The conversion of an `int` to a `size_t`. -/
def sizeOfInt (n : Int32) : UInt64 :=
  n.toInt64.toUInt64

/-- The conversion of a `size_t` to an `int`: its low 32 bits. -/
def intOfSize (n : UInt64) : Int32 :=
  n.toUInt32.toInt32

/-- `operator[]`, by the index of the cell that it refers to. -/
def operatorSubscript (b : CircularBuffer T length) (offset : Int32) :
    Except SubscriptFault UInt64 :=
  if b.size == 0 then .error .divisionByZero
  else
    let offset := intOfSize (sizeOfInt offset % b.size)
    let retPos := b.beginPos + sizeOfInt offset
    let retPos := if b.size ≤ retPos then retPos % b.size else retPos
    if retPos < length then .ok retPos
    else .error (.access (.read retPos.toNat length.toNat))

/-! ## What callers rely on -/

/-- What the default constructor and calls of the operations lead to. -/
def Reachable (b : CircularBuffer T length) : Prop :=
  ∃ (raw : CircularBuffer T length) (os : List (Op T)) (rs : List (Result T)),
    runOps apply (construct raw) os = .ok (rs, b)

/-- The cell that the pop after `n` others reads, if they leave it an element. -/
def poppedCell (b : CircularBuffer T length) (n : Nat) : Checked (Option UInt64) :=
  match runOps apply b (List.replicate n .pop) with
  | .error fault => .error fault
  | .ok (_, b') => .ok (if b'.isEmpty then none else some b'.beginPos)

/-- Nothing is undefined at the offset, and an element held is found where the pops
find it. -/
structure SubscriptAgrees (b : CircularBuffer T length) (offset : Int32) : Prop where
  no_division : b.operatorSubscript offset ≠ .error .divisionByZero
  inside : ∃ cell, b.operatorSubscript offset = .ok cell ∧ cell < length
  same : 0 ≤ offset → offset.toNatClampNeg < b.size.toNat →
    ∃ cell, b.poppedCell offset.toNatClampNeg = .ok (some cell) ∧
      b.operatorSubscript offset = .ok cell

/-- The offset lies before the place where the operator wraps around, or both wrap
around and one turn of the pops is a whole number of turns of the operator. -/
def WrapsAlike (b : CircularBuffer T length) (n : Nat) : Prop :=
  b.beginPos.toNat + n < b.size.toNat ∨
    (b.size.toNat ∣ length.toNat ∧ length.toNat ≤ b.beginPos.toNat + n ∧
      b.beginPos.toNat + n < 2 ^ 64)

/-! ## The cells that pops read -/

theorem size_pos_iff {b : CircularBuffer T length} : 0 < b.size.toNat ↔ b.size ≠ 0 := by
  rw [Nat.pos_iff_ne_zero, Ne, Ne, ← UInt64.toNat_inj]
  rfl

theorem Reachable.wf {b : CircularBuffer T length} (hpos : 0 < length) (hreach : b.Reachable) :
    b.WF := by
  rcases hreach with ⟨raw, os, rs, hrun⟩
  have hpos' : 0 < length.toNat := UInt64.lt_iff_toNat_lt.mp hpos
  rcases runOps_spec (construct_wf hpos' raw) os with ⟨b', hrun', hwf, _⟩
  rw [hrun] at hrun'
  cases hrun'
  exact hwf

/-- A pop that finds an element takes it from the first cell, and the cells behind
stay where they are. -/
theorem pop_of_pos {b : CircularBuffer T length} (hwf : b.WF) (hpos : 0 < b.size.toNat) :
    ∃ x b', b.apply .pop = .ok (x, b') ∧ b'.WF ∧ b'.size.toNat = b.size.toNat - 1 ∧
      ∀ i, b'.slot i = b.slot (i + 1) := by
  have hne := size_pos_iff.mp hpos
  rcases pop_spec hwf with ⟨b', hpop, hwf', _⟩
  have hb' : b' = { b with size := b.size - 1, beginPos := advance length b.beginPos } := by
    simp only [pop, isEmpty, beq_iff_eq, hne, if_false, hwf.begin_lt, dite_true] at hpop
    exact (congrArg Prod.snd (Except.ok.inj hpop)).symm
  refine ⟨_, b', by rw [apply, hpop]; rfl, hwf', ?_, fun i => ?_⟩
  · rw [hb']
    exact toNat_sub_one hne
  · rw [hb']
    simp only [slot, toNat_advance hwf.begin_lt, Nat.mod_add_mod]
    congr 1
    omega

/-- As long as there are elements, the pops read one cell after the other. -/
theorem poppedCell_eq {n : Nat} :
    ∀ {b : CircularBuffer T length}, b.WF → n < b.size.toNat →
      ∃ cell, b.poppedCell n = .ok (some cell) ∧ cell.toNat = b.slot n := by
  induction n with
  | zero =>
      intro b hwf hpos
      have hne : b.isEmpty = false := by
        rw [isEmpty_eq hwf.length_pos, length_contents hwf.length_pos]
        simpa using by omega
      refine ⟨b.beginPos, ?_, (Nat.mod_eq_of_lt hwf.begin_lt).symm⟩
      simp [poppedCell, runOps, hne]
  | succ n ih =>
      intro b hwf hlt
      rcases pop_of_pos hwf (by omega) with ⟨x, b', hpop, hwf', hsize, hslot⟩
      rcases ih hwf' (by omega) with ⟨cell, hcell, hval⟩
      refine ⟨cell, ?_, by rw [hval, hslot]⟩
      rw [← hcell, poppedCell, poppedCell, List.replicate_succ]
      simp only [runOps, hpop]
      cases runOps apply b' (List.replicate n .pop) with
      | error fault => rfl
      | ok r => rfl

/-! ## The cell that the operator refers to -/

theorem intOfSize_sizeOfInt (n : Int32) : intOfSize (sizeOfInt n) = n := by
  apply Int32.toBitVec_inj.mp
  simp only [intOfSize, sizeOfInt, UInt32.toBitVec_toInt32, UInt64.toBitVec_toUInt32,
    Int64.toBitVec_toUInt64, Int32.toBitVec_toInt64]
  apply BitVec.eq_of_getLsbD_eq
  intro i hi
  have hlong : i < 64 := by omega
  simp only [BitVec.getLsbD_setWidth, BitVec.getLsbD_signExtend, hi, hlong, decide_true,
    Bool.true_and, if_true]

theorem toNat_sizeOfInt {n : Int32} (hn : 0 ≤ n) : (sizeOfInt n).toNat = n.toNatClampNeg := by
  unfold sizeOfInt
  rw [Int64.toNat_toUInt64_of_le, Int32.toNatClampNeg_toInt64]
  rw [Int64.le_iff_toInt_le, Int32.toInt_toInt64]
  exact Int32.le_iff_toInt_le.mp hn

/-- Where the operator ends up in terms of numbers. -/
def wrapped (begin n size : Nat) : Nat :=
  if size ≤ (begin + n) % 2 ^ 64 then (begin + n) % 2 ^ 64 % size else (begin + n) % 2 ^ 64

/-- On a buffer with elements the operator never leaves the array. -/
theorem operatorSubscript_eq {b : CircularBuffer T length} (hwf : b.WF)
    (hpos : 0 < b.size.toNat) (offset : Int32) :
    ∃ cell, b.operatorSubscript offset = .ok cell ∧ cell < length ∧
      (0 ≤ offset → offset.toNatClampNeg < b.size.toNat →
        cell.toNat = wrapped b.beginPos.toNat offset.toNatClampNeg b.size.toNat) := by
  have hne : (b.size == 0) = false := beq_eq_false_iff_ne.mpr (size_pos_iff.mp hpos)
  generalize hret : b.beginPos + sizeOfInt (intOfSize (sizeOfInt offset % b.size)) = retPos
  have hcell : (if b.size ≤ retPos then retPos % b.size else retPos) < length := by
    have hsize := hwf.size_le
    rw [UInt64.lt_iff_toNat_lt]
    split <;> rename_i hle
    · rw [UInt64.toNat_mod]
      exact Nat.lt_of_lt_of_le (Nat.mod_lt _ hpos) hsize
    · rw [UInt64.le_iff_toNat_le] at hle
      omega
  refine ⟨_, by simp only [operatorSubscript, hne, Bool.false_eq_true, if_false, hret, hcell,
    if_true], hcell, ?_⟩
  intro hnonneg hlt
  have hmod : sizeOfInt offset % b.size = sizeOfInt offset := by
    rw [← UInt64.toNat_inj, UInt64.toNat_mod, toNat_sizeOfInt hnonneg, Nat.mod_eq_of_lt hlt]
  have hnat : retPos.toNat = (b.beginPos.toNat + offset.toNatClampNeg) % 2 ^ 64 := by
    rw [← hret, hmod, intOfSize_sizeOfInt, UInt64.toNat_add, toNat_sizeOfInt hnonneg]
  unfold wrapped
  rw [← hnat]
  simp only [UInt64.le_iff_toNat_le]
  split <;> rfl

/-- The two ways to wrap around, in terms of numbers. -/
theorem wrapped_eq_iff {begin n size cap : Nat} (hbegin : begin < cap) (hn : n < size)
    (hsize : size ≤ cap) (hcap : cap < 2 ^ 64) :
    wrapped begin n size = (begin + n) % cap ↔
      begin + n < size ∨ (size ∣ cap ∧ cap ≤ begin + n ∧ begin + n < 2 ^ 64) := by
  unfold wrapped
  rcases Nat.lt_or_ge (begin + n) (2 ^ 64) with hword | hoverflow
  · rw [Nat.mod_eq_of_lt hword]
    rcases Nat.lt_or_ge (begin + n) cap with hshort | hwrap
    · -- the pops have not wrapped around yet
      rw [Nat.mod_eq_of_lt hshort]
      split <;> rename_i hle
      · have hlt := Nat.mod_lt (begin + n) (Nat.zero_lt_of_lt hn)
        omega
      · simp
        omega
    · have hslot : (begin + n) % cap = begin + n - cap := by
        rw [Nat.mod_eq_sub_mod hwrap, Nat.mod_eq_of_lt (by omega)]
      have hself : (begin + n - cap) % size = begin + n - cap := Nat.mod_eq_of_lt (by omega)
      rw [if_pos (by omega), hslot]
      calc (begin + n) % size = begin + n - cap
          ↔ begin + n - cap ≡ begin + n [MOD size] := by
            rw [Nat.ModEq, hself, eq_comm]
        _ ↔ size ∣ cap := by
            rw [Nat.modEq_iff_dvd' (Nat.sub_le _ _), Nat.sub_sub_self hwrap]
        _ ↔ _ := by
            constructor
            · intro hdvd
              exact .inr ⟨hdvd, hwrap, hword⟩
            · rintro (hlt | h)
              · omega
              · exact h.1
  · -- the sum of the two is cut to 64 bits, which no capacity is
    have hmod : (begin + n) % 2 ^ 64 = begin + n - 2 ^ 64 := by
      rw [Nat.mod_eq_sub_mod hoverflow, Nat.mod_eq_of_lt (by omega)]
    have hslot : (begin + n) % cap = begin + n - cap := by
      rw [Nat.mod_eq_sub_mod (by omega), Nat.mod_eq_of_lt (by omega)]
    rw [hmod, if_neg (by omega), hslot]
    omega

/-! ## When indexing agrees with popping -/

/-- An element held is found where the pops find it exactly when both wrap around
alike. -/
theorem same_iff {b : CircularBuffer T length} (hwf : b.WF) {offset : Int32}
    (hnonneg : 0 ≤ offset) (hlt : offset.toNatClampNeg < b.size.toNat) :
    (∃ cell, b.poppedCell offset.toNatClampNeg = .ok (some cell) ∧
      b.operatorSubscript offset = .ok cell) ↔ b.WrapsAlike offset.toNatClampNeg := by
  rcases poppedCell_eq hwf hlt with ⟨popped, hpopped, hslot⟩
  rcases operatorSubscript_eq hwf (by omega) offset with ⟨cell, hcell, _, hval⟩
  have hiff := wrapped_eq_iff hwf.begin_lt hlt hwf.size_le length.toNat_lt
  rw [← hval hnonneg hlt] at hiff
  rw [WrapsAlike, ← hiff, hpopped, hcell]
  change _ ↔ cell.toNat = b.slot offset.toNatClampNeg
  rw [← hslot, UInt64.toNat_inj]
  constructor
  · rintro ⟨c, hc₁, hc₂⟩
    cases hc₁
    cases hc₂
    rfl
  · intro heq
    exact ⟨popped, rfl, by rw [heq]⟩

/-- An empty buffer divides by its fill count. -/
theorem SubscriptAgrees.size_ne_zero {b : CircularBuffer T length} {offset : Int32}
    (h : b.SubscriptAgrees offset) : b.size ≠ 0 := by
  intro hzero
  apply h.no_division
  simp [operatorSubscript, hzero]

theorem subscriptAgrees_of_wrapsAlike {b : CircularBuffer T length} (hwf : b.WF)
    (hne : b.size ≠ 0) {offset : Int32}
    (halike : 0 ≤ offset → offset.toNatClampNeg < b.size.toNat →
      b.WrapsAlike offset.toNatClampNeg) : b.SubscriptAgrees offset := by
  rcases operatorSubscript_eq hwf (size_pos_iff.mpr hne) offset with ⟨cell, hcell, hinside, _⟩
  refine ⟨?_, ⟨cell, hcell, hinside⟩, fun hnonneg hlt =>
    (same_iff hwf hnonneg hlt).mpr (halike hnonneg hlt)⟩
  rw [hcell]
  simp

/-- Indexing is defined exactly on buffers with elements, and an element held is
found where the pops find it exactly when both wrap around alike. -/
theorem subscriptAgrees_iff (hpos : 0 < length) {b : CircularBuffer T length}
    (hreach : b.Reachable) (offset : Int32) :
    b.SubscriptAgrees offset ↔ b.size ≠ 0 ∧
      (0 ≤ offset → offset.toNatClampNeg < b.size.toNat →
        b.WrapsAlike offset.toNatClampNeg) := by
  have hwf := hreach.wf hpos
  constructor
  · intro h
    exact ⟨h.size_ne_zero, fun hnonneg hlt =>
      (same_iff hwf hnonneg hlt).mp (h.same hnonneg hlt)⟩
  · rintro ⟨hne, halike⟩
    exact subscriptAgrees_of_wrapsAlike hwf hne halike

/-- A buffer for four numbers after two pushes and a pop: one element, which is not
in the first cell. -/
def movedBuffer : CircularBuffer Nat 4 :=
  ⟨⟨#[1, 2, 0, 0], rfl⟩, 1, 2, 1⟩

theorem reachable_movedBuffer : movedBuffer.Reachable :=
  ⟨⟨Vector.replicate _ 0, 7, 7, 7⟩, [.push 1, .push 2, .pop], _, rfl⟩

/-- A buffer for four numbers after two pushes. -/
def plainBuffer : CircularBuffer Nat 4 :=
  ⟨⟨#[1, 2, 0, 0], rfl⟩, 0, 2, 2⟩

/-- In the second buffer the second element is found. -/
theorem subscriptAgrees_plainBuffer : plainBuffer.SubscriptAgrees 1 := by
  have hreach : plainBuffer.Reachable :=
    ⟨⟨Vector.replicate _ 0, 7, 7, 7⟩, [.push 1, .push 2], _, rfl⟩
  refine (subscriptAgrees_iff (by decide) hreach 1).mpr ⟨by decide, fun _ _ => .inl ?_⟩
  decide

/-- In the first buffer the only element is not found, and in a new buffer any
offset leads to a division by zero. -/
theorem subscriptAgrees_fails :
    (movedBuffer.Reachable ∧ ¬ movedBuffer.SubscriptAgrees 0) ∧
      (construct movedBuffer).Reachable ∧
        (construct movedBuffer).operatorSubscript 0 = .error .divisionByZero := by
  refine ⟨⟨reachable_movedBuffer, ?_⟩, ⟨movedBuffer, [], [], rfl⟩, rfl⟩
  intro h
  rcases h.same (by decide) (by decide) with ⟨cell, hpopped, hcell⟩
  have hone : movedBuffer.poppedCell (Int32.toNatClampNeg 0) = .ok (some 1) := rfl
  have hzero : movedBuffer.operatorSubscript 0 = .ok 0 := rfl
  rw [hone] at hpopped
  rw [hzero] at hcell
  cases hpopped
  cases hcell

/-- A buffer of ordinary size is indexed correctly throughout exactly when it holds
something and either starts in its first cell or is full. -/
theorem forall_subscriptAgrees_iff (hpos : 0 < length) (hsmall : length.toNat ≤ 2 ^ 31)
    {b : CircularBuffer T length} (hreach : b.Reachable) :
    (∀ offset, b.SubscriptAgrees offset) ↔
      b.size ≠ 0 ∧ (b.beginPos.toNat = 0 ∨ b.size.toNat = length.toNat) := by
  have hwf := hreach.wf hpos
  have hbegin := hwf.begin_lt
  have hsize := hwf.size_le
  constructor
  · intro h
    have hne := (h 0).size_ne_zero
    refine ⟨hne, ?_⟩
    rcases Nat.eq_zero_or_pos b.beginPos.toNat with hzero | hmoved
    · exact .inl hzero
    · right
      have hheld := size_pos_iff.mpr hne
      -- the first offset at which the operator wraps around
      have hword : b.size.toNat - b.beginPos.toNat < 2 ^ 31 := by omega
      have hn := Int32.toNatClampNeg_ofNat_of_lt hword
      have hnonneg : 0 ≤ Int32.ofNat (b.size.toNat - b.beginPos.toNat) := by
        rw [Int32.le_iff_toInt_le, Int32.toInt_ofNat_of_lt hword]
        exact Int.natCast_nonneg _
      have hheld' : (Int32.ofNat (b.size.toNat - b.beginPos.toNat)).toNatClampNeg <
          b.size.toNat := by
        rw [hn]
        omega
      have halike := (same_iff hwf hnonneg hheld').mp ((h _).same hnonneg hheld')
      rw [WrapsAlike, hn] at halike
      omega
  · rintro ⟨hne, hstart⟩ offset
    refine subscriptAgrees_of_wrapsAlike hwf hne fun _ hlt => ?_
    have hword := offset.toNatClampNeg_lt
    unfold WrapsAlike
    rcases hstart with hzero | hfull
    · exact .inl (by omega)
    · have hdvd : b.size.toNat ∣ length.toNat := by rw [hfull]
      omega

end CircularBuffer

end SimpleMessenger
