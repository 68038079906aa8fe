import Mathlib.Data.List.Flatten
import Mathlib.Tactic.Common

/-!
# Stop-and-wait senders

A stop-and-wait sender takes one item at a time.  It sends the item until that is answered
or has been sent a given number of times, and only then takes the next one.

Main results:

- Theorems {lit}`InRounds.take` to {lit}`InRounds.giveUp`: each move of such a sender keeps
  its moves divided into rounds.
-/

universe u

namespace StopAndWait

variable {α : Type u} {bound : Nat}

/-- What a sender shows. -/
inductive Move (α : Type u) where
  | take (item : α)
  | send (item : α)
  | answer (item : α)
deriving DecidableEq

/-- A finished round: the item has been answered or sent as often as it may be. -/
structure Round (α : Type u) (bound : Nat) where
  item : α
  sends : Nat
  answered : Bool
  one_le : 1 ≤ sends
  sends_le : sends ≤ bound
  finished : answered = true ∨ sends = bound

/-- The moves up to the last sending of an item. -/
def sending (item : α) (sends : Nat) : List (Move α) :=
  .take item :: List.replicate sends (.send item)

def Round.moves (r : Round α bound) : List (Move α) :=
  sending r.item r.sends ++ if r.answered then [.answer r.item] else []

/-- The moves of the round under way, by its item and how often that has been sent. -/
def underWay : Option (α × Nat) → List (Move α)
  | none => []
  | some (item, sends) => sending item sends

/-- The moves are finished rounds, and one under way. -/
def InRounds (bound : Nat) (moves : List (Move α)) (current : Option (α × Nat)) : Prop :=
  ∃ rounds : List (Round α bound), moves = rounds.flatMap Round.moves ++ underWay current

theorem InRounds.nil : InRounds bound ([] : List (Move α)) none :=
  ⟨[], rfl⟩

variable {moves : List (Move α)} {item : α} {sends : Nat}

theorem InRounds.take (hrounds : InRounds bound moves none) (item : α) :
    InRounds bound (moves ++ [.take item]) (some (item, 0)) := by
  rcases hrounds with ⟨rounds, rfl⟩
  exact ⟨rounds, by simp [underWay, sending]⟩

theorem InRounds.send (hrounds : InRounds bound moves (some (item, sends))) :
    InRounds bound (moves ++ [.send item]) (some (item, sends + 1)) := by
  rcases hrounds with ⟨rounds, rfl⟩
  refine ⟨rounds, ?_⟩
  rw [List.append_assoc, underWay, underWay, sending, sending, List.replicate_succ']
  rfl

/-- A finished round. -/
theorem InRounds.finish (hrounds : InRounds bound moves (some (item, sends)))
    (r : Round α bound) (hitem : r.item = item) (hsends : r.sends = sends) :
    InRounds bound (moves ++ if r.answered then [.answer item] else []) none := by
  rcases hrounds with ⟨rounds, rfl⟩
  refine ⟨rounds ++ [r], ?_⟩
  simp [underWay, Round.moves, hitem, hsends]

theorem InRounds.answer (hrounds : InRounds bound moves (some (item, sends)))
    (hone : 1 ≤ sends) (hle : sends ≤ bound) :
    InRounds bound (moves ++ [.answer item]) none :=
  hrounds.finish ⟨item, sends, true, hone, hle, .inl rfl⟩ rfl rfl

theorem InRounds.giveUp (hrounds : InRounds bound moves (some (item, bound)))
    (hone : 1 ≤ bound) : InRounds bound moves none := by
  have hfinished := hrounds.finish ⟨item, bound, false, hone, Nat.le_refl _, .inr rfl⟩ rfl rfl
  simpa using hfinished

end StopAndWait
