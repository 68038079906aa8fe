import Mathlib.Data.List.Basic
import Mathlib.Tactic.Common

/-!
# Bounded first-in first-out queues

The abstract queue is a list with a capacity.  This module states its
operations, runs sequences of them, and gives the rule by which an
implementation whose single operations follow the list follows it on every
sequence.

Main results:

- Theorem {lit}`runOps_simulates`: a relation kept by every operation carries
  over to every sequence of operations, results included.
- Theorem {lit}`run_pops`: consecutive pops return the elements in order, and
  nothing once they are exhausted.
- Theorem {lit}`run_pushes`: as many pushes succeed as there is room.
-/

universe u v w x

/-! ## Sequences of fallible operations -/

section Simulation

variable {σ τ : Type u} {ο : Type v} {ρ : Type w} {φ : Type x}

/-- Run a list of operations, collecting their results. -/
def runOps (step : σ → ο → Except φ (ρ × σ)) (s : σ) :
    List ο → Except φ (List ρ × σ)
  | [] => .ok ([], s)
  | o :: os =>
      match step s o with
      | .error e => .error e
      | .ok (r, s') =>
          match runOps step s' os with
          | .error e => .error e
          | .ok (rs, s'') => .ok (r :: rs, s'')

/-- Run a list of operations of a specification, which never fails. -/
def runSpec (spec : τ → ο → ρ × τ) (t : τ) : List ο → List ρ × τ
  | [] => ([], t)
  | o :: os =>
      let rest := runSpec spec (spec t o).2 os
      ((spec t o).1 :: rest.1, rest.2)

/-- One more operation of a specification. -/
theorem runSpec_concat (spec : τ → ο → ρ × τ) (t : τ) (os : List ο) (o : ο) :
    runSpec spec t (os ++ [o]) =
      ((runSpec spec t os).1 ++ [(spec (runSpec spec t os).2 o).1],
        (spec (runSpec spec t os).2 o).2) := by
  induction os generalizing t with
  | nil => rfl
  | cons o' os ih => simp only [List.cons_append, runSpec, ih]

/-- An implementation that follows its specification on every single operation
follows it on every sequence. -/
theorem runOps_simulates {R : σ → τ → Prop} {step : σ → ο → Except φ (ρ × σ)}
    {spec : τ → ο → ρ × τ}
    (hstep : ∀ s t o, R s t → ∃ s', step s o = .ok ((spec t o).1, s') ∧ R s' (spec t o).2)
    (os : List ο) :
    ∀ {s : σ} {t : τ}, R s t →
      ∃ s', runOps step s os = .ok ((runSpec spec t os).1, s') ∧ R s' (runSpec spec t os).2 := by
  induction os with
  | nil =>
      intro s t hR
      exact ⟨s, rfl, hR⟩
  | cons o os ih =>
      intro s t hR
      rcases hstep s t o hR with ⟨s₁, hone, hR₁⟩
      rcases ih hR₁ with ⟨s₂, hrest, hR₂⟩
      exact ⟨s₂, by simp only [runOps, hone, hrest, runSpec], hR₂⟩

end Simulation

namespace BoundedQueue

variable {T : Type u}

/-- The operations of a bounded queue. -/
inductive Op (T : Type u) where
  | push (x : T)
  | pop
  | isEmpty
  | isFull

/-- What an operation answers. -/
inductive Result (T : Type u) where
  | flag (b : Bool)
  | item (x : Option T)
deriving DecidableEq

/-- One operation on the list of elements held, oldest first. -/
def apply (capacity : Nat) (q : List T) : Op T → Result T × List T
  | .push x => if q.length < capacity then (.flag true, q ++ [x]) else (.flag false, q)
  | .pop => (.item q.head?, q.tail)
  | .isEmpty => (.flag (q.length == 0), q)
  | .isFull => (.flag (q.length == capacity), q)

/-- A sequence of operations. -/
def run (capacity : Nat) (q : List T) (os : List (Op T)) : List (Result T) × List T :=
  runSpec (apply capacity) q os

/-- Consecutive pops return the elements in order, then nothing. -/
theorem run_pops (capacity n : Nat) (q : List T) :
    (run capacity q (List.replicate n .pop)).1 =
      (List.range n).map fun i => .item q[i]? := by
  unfold run
  induction n generalizing q with
  | zero => rfl
  | succ n ih =>
      rw [List.replicate_succ, List.range_succ_eq_map]
      simp only [runSpec, ih, apply, List.map_cons, List.map_map]
      congr 1
      · simp [List.head?_eq_getElem?]
      · simp [Function.comp_def]

/-- As long as there is room, every push succeeds and appends. -/
theorem run_pushes {capacity : Nat} (xs : List T) {q : List T}
    (hroom : q.length + xs.length ≤ capacity) :
    run capacity q (xs.map .push) = (List.replicate xs.length (.flag true), q ++ xs) := by
  unfold run
  induction xs generalizing q with
  | nil => simp [runSpec]
  | cons x xs ih =>
      simp only [List.length_cons] at hroom
      have hlt : q.length < capacity := by omega
      have hrest := ih (q := q ++ [x]) (by simp; omega)
      simp [runSpec, apply, hlt, hrest, List.replicate_succ]

end BoundedQueue
