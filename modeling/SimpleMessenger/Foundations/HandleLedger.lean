import Mathlib.Data.List.Basic
import Mathlib.Tactic.Common

/-!
# Handles of a library and the record of its calls

A library hands out handles, is passed them for use and takes them back.  What a
program does with the handles of one kind is read off the record of its calls,
oldest first: a handle is open from the call that hands it out to the first one
that takes it back.

Main results:

- Theorem {lit}`usesOpen_snoc`: a record grows by one call.
- Theorem {lit}`closedOnce_append_iff`: two stretches of calls that leave each
  other's handles alone are judged one by one.
- Theorem {lit}`ClosedOnce.not_isOpen`: when every handle was taken back once, none
  is open.
-/

universe u v

/-- How calls treat the handles of one kind: the handle a call hands out, the one
it is passed for use, which may be null, and the one it takes back. -/
structure HandleKind (ε : Type u) (η : Type v) where
  opens : ε → Option η
  uses : ε → Option (Option η)
  closes : ε → Option η

namespace HandleKind

variable {ε : Type u} {η : Type v} (K : HandleKind ε η)

/-- The handles handed out, in order. -/
def opened (calls : List ε) : List η :=
  calls.filterMap K.opens

/-- The handles taken back, in order and with repetitions. -/
def closed (calls : List ε) : List η :=
  calls.filterMap K.closes

/-- The handle was handed out and not taken back. -/
def IsOpen (calls : List ε) (c : η) : Prop :=
  c ∈ K.opened calls ∧ c ∉ K.closed calls

/-- Every call that uses a handle is passed one that is open at that time. -/
def UsesOpen (calls : List ε) : Prop :=
  ∀ before e passed, before ++ [e] <+: calls → K.uses e = some passed →
    ∃ c, passed = some c ∧ K.IsOpen before c

/-- Every handle handed out is taken back exactly once. -/
def ClosedOnce [DecidableEq η] (calls : List ε) : Prop :=
  ∀ c ∈ K.opened calls, (K.closed calls).count c = 1

/-- Neither stretch of calls takes back what the other one hands out. -/
structure Apart (before after : List ε) : Prop where
  later : ∀ c ∈ K.opened before, c ∉ K.closed after
  earlier : ∀ c ∈ K.opened after, c ∉ K.closed before

variable {K}

/-! ## Records put together -/

@[simp]
theorem opened_append (before after : List ε) :
    K.opened (before ++ after) = K.opened before ++ K.opened after :=
  List.filterMap_append

@[simp]
theorem closed_append (before after : List ε) :
    K.closed (before ++ after) = K.closed before ++ K.closed after :=
  List.filterMap_append

@[simp]
theorem opened_nil : K.opened [] = [] :=
  rfl

@[simp]
theorem closed_nil : K.closed [] = [] :=
  rfl

@[simp]
theorem opened_cons (e : ε) (calls : List ε) :
    K.opened (e :: calls) = (K.opens e).toList ++ K.opened calls := by
  cases hopens : K.opens e <;> simp [opened, hopens]

@[simp]
theorem closed_cons (e : ε) (calls : List ε) :
    K.closed (e :: calls) = (K.closes e).toList ++ K.closed calls := by
  cases hcloses : K.closes e <;> simp [closed, hcloses]

/-- Calls that neither hand out nor take back leave what is open. -/
theorem isOpen_append {before after : List ε} (hopened : K.opened after = [])
    (hclosed : K.closed after = []) (c : η) :
    K.IsOpen (before ++ after) c ↔ K.IsOpen before c := by
  simp [IsOpen, hopened, hclosed]

/-! ## Uses -/

theorem usesOpen_nil : K.UsesOpen [] := by
  intro before e passed hbefore
  simp at hbefore

/-- One more call must be passed a handle that is open before it. -/
theorem usesOpen_snoc (calls : List ε) (e : ε) :
    K.UsesOpen (calls ++ [e]) ↔
      K.UsesOpen calls ∧
        ∀ passed, K.uses e = some passed → ∃ c, passed = some c ∧ K.IsOpen calls c := by
  constructor
  · intro h
    constructor
    · intro before e' passed hbefore
      exact h before e' passed (hbefore.trans (List.prefix_append _ _))
    · intro passed
      exact h calls e passed (List.prefix_refl _)
  · rintro ⟨hold, hnew⟩ before e' passed hbefore huse
    rcases List.prefix_concat_iff.mp hbefore with heq | hearlier
    · rcases List.append_inj' heq rfl with ⟨rfl, hlast⟩
      cases hlast
      exact hnew passed huse
    · exact hold before e' passed hearlier huse

/-- A call that uses no handle of the kind does not matter. -/
theorem usesOpen_snoc_of_none {calls : List ε} {e : ε} (hnone : K.uses e = none) :
    K.UsesOpen (calls ++ [e]) ↔ K.UsesOpen calls := by
  rw [usesOpen_snoc, hnone]
  simp

/-! ## Taking back -/

section Counting

variable [DecidableEq η]

theorem closedOnce_nil : K.ClosedOnce [] := by
  intro c hc
  simp at hc

/-- Stretches that leave each other's handles alone are judged one by one. -/
theorem closedOnce_append_iff {before after : List ε} (hapart : K.Apart before after) :
    K.ClosedOnce (before ++ after) ↔ K.ClosedOnce before ∧ K.ClosedOnce after := by
  have hbefore : ∀ c ∈ K.opened before,
      (K.closed (before ++ after)).count c = (K.closed before).count c := by
    intro c hc
    rw [closed_append, List.count_append, List.count_eq_zero.mpr (hapart.later c hc)]
    rfl
  have hafter : ∀ c ∈ K.opened after,
      (K.closed (before ++ after)).count c = (K.closed after).count c := by
    intro c hc
    rw [closed_append, List.count_append, List.count_eq_zero.mpr (hapart.earlier c hc),
      Nat.zero_add]
  constructor
  · intro h
    constructor
    · intro c hc
      rw [← hbefore c hc]
      exact h c (by simp [hc])
    · intro c hc
      rw [← hafter c hc]
      exact h c (by simp [hc])
  · rintro ⟨hone, htwo⟩ c hc
    rw [opened_append, List.mem_append] at hc
    rcases hc with hc | hc
    · rw [hbefore c hc]
      exact hone c hc
    · rw [hafter c hc]
      exact htwo c hc

/-- Calls that neither hand out nor take back do not matter. -/
theorem closedOnce_append_of_nil {before after : List ε} (hopened : K.opened after = [])
    (hclosed : K.closed after = []) :
    K.ClosedOnce (before ++ after) ↔ K.ClosedOnce before := by
  simp [ClosedOnce, hopened, hclosed]

/-- When every handle was taken back once, none is open. -/
theorem ClosedOnce.not_isOpen {calls : List ε} (honce : K.ClosedOnce calls) (c : η) :
    ¬ K.IsOpen calls c := by
  rintro ⟨hopened, hclosed⟩
  have hzero := List.count_eq_zero.mpr hclosed
  rw [honce c hopened] at hzero
  contradiction

/-- A handle that was taken back once must not be taken back again. -/
theorem ClosedOnce.not_snoc {calls : List ε} {c : η} {e : ε} (honce : K.ClosedOnce calls)
    (hopened : c ∈ K.opened calls) (hcloses : K.closes e = some c) :
    ¬ K.ClosedOnce (calls ++ [e]) := by
  intro htwice
  have hcount := htwice c (by simp [hopened])
  rw [closed_append, List.count_append, honce c hopened] at hcount
  simp [hcloses] at hcount

end Counting

end HandleKind
