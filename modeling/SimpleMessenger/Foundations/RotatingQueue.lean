import Mathlib.Algebra.Order.Ring.Nat
import Mathlib.Data.List.Basic
import Mathlib.Tactic.Common

/-!
# Queues that are searched by rotation

A queue without random access is searched by taking elements from its front one
after the other.  An element that is not the one sought goes back to the end of the
queue; since it may wait for something that never comes, it ages on the way, and is
dropped in the end.

Main results:

- Theorem {lit}`after_append`: what a search that has not found anything yet has made
  of the queue.
- Theorems {lit}`answer_before` and {lit}`check_at`: the search takes one check more than
  there are elements before the first hit.
- Theorem {lit}`Ages.weight_after`: a search without a hit takes one unit of the remaining
  life of all elements with every check.
-/

universe u

namespace RotatingQueue

variable {α : Type u}

/-- Look at the first element: keep it out if it is a hit, and put it back as it has
aged if it is not. -/
def check (hit : α → Bool) (age : α → Option α) : List α → Bool × List α
  | [] => (false, [])
  | a :: rest => if hit a then (true, rest) else (false, rest ++ (age a).toList)

/-- The queue after the given number of checks. -/
def after (hit : α → Bool) (age : α → Option α) (q : List α) : Nat → List α
  | 0 => q
  | n + 1 => (check hit age (after hit age q n)).2

/-- What the next check after the given number of checks says. -/
def answer (hit : α → Bool) (age : α → Option α) (q : List α) (n : Nat) : Bool :=
  (check hit age (after hit age q n)).1

section Checks

variable {hit : α → Bool} {age : α → Option α}

@[simp]
theorem check_nil : check hit age [] = (false, []) :=
  rfl

theorem check_of_hit {a : α} (ha : hit a = true) (rest : List α) :
    check hit age (a :: rest) = (true, rest) := by
  simp [check, ha]

theorem check_of_miss {a : α} (ha : hit a = false) (rest : List α) :
    check hit age (a :: rest) = (false, rest ++ (age a).toList) := by
  simp [check, ha]

/-- The first check may be taken off the front of a search. -/
theorem after_succ (q : List α) (n : Nat) :
    after hit age q (n + 1) = after hit age (check hit age q).2 n := by
  induction n with
  | zero => rfl
  | succ n ih => rw [after, ih, after]

/-- Elements that are not hits are moved to the end in their order, aged. -/
theorem after_append {front : List α} (hmiss : ∀ a ∈ front, hit a = false) :
    ∀ rest, after hit age (front ++ rest) front.length = rest ++ front.filterMap age := by
  induction front with
  | nil => simp [after]
  | cons a front ih =>
      intro rest
      have ha : hit a = false := hmiss a List.mem_cons_self
      have hrest : ∀ x ∈ front, hit x = false :=
        fun x hx => hmiss x (List.mem_cons_of_mem a hx)
      rw [List.length_cons, after_succ, List.cons_append, check_of_miss ha, List.append_assoc,
        ih hrest, List.append_assoc]
      cases hage : age a <;> simp [hage]

/-- Before the first hit has come to the front, checks find nothing. -/
theorem answer_before {front : List α} (hmiss : ∀ a ∈ front, hit a = false) (rest : List α)
    {n : Nat} (hn : n < front.length) : answer hit age (front ++ rest) n = false := by
  have hsplit : front ++ rest = front.take n ++ (front[n] :: (front.drop (n + 1) ++ rest)) := by
    rw [← List.cons_append, ← List.drop_eq_getElem_cons hn, ← List.append_assoc,
      List.take_append_drop]
  have htake : (front.take n).length = n := List.length_take_of_le (Nat.le_of_lt hn)
  have hmiss' : ∀ a ∈ front.take n, hit a = false :=
    fun a ha => hmiss a (List.mem_of_mem_take ha)
  have hafter : after hit age _ (front.take n).length = _ :=
    after_append hmiss' (front[n] :: (front.drop (n + 1) ++ rest))
  rw [htake, ← hsplit] at hafter
  rw [answer, hafter, List.cons_append, check_of_miss (hmiss _ (List.getElem_mem hn))]

/-- When it has come to the front, it is taken out. -/
theorem check_at {front : List α} (hmiss : ∀ a ∈ front, hit a = false) {a : α}
    (ha : hit a = true) (rest : List α) :
    answer hit age (front ++ a :: rest) front.length = true ∧
      after hit age (front ++ a :: rest) front.length =
        a :: after hit age (front ++ a :: rest) (front.length + 1) := by
  have hafter : after hit age _ front.length = _ := after_append hmiss (a :: rest)
  rw [List.cons_append] at hafter
  rw [answer, after, hafter, check_of_hit ha]
  exact ⟨rfl, rfl⟩

end Checks

/-! ## Searches without a hit -/

/-- How a search may treat elements that keep to `Good`: an element keeps its mark
while it ages, and has as many units of life as checks it survives and the one that
drops it. -/
structure Ages (hit : α → Bool) (age : α → Option α) (Good : α → Prop) (life : α → Nat) :
    Prop where
  hit_eq : ∀ {a a' : α}, age a = some a' → hit a' = hit a
  good : ∀ {a a' : α}, Good a → age a = some a' → Good a'
  life_eq : ∀ {a : α}, Good a → life a = ((age a).map life).getD 0 + 1

section Life

variable {hit : α → Bool} {age : α → Option α} {Good : α → Prop} {life : α → Nat}

/-- Remaining life of all elements. -/
def weight (life : α → Nat) (q : List α) : Nat :=
  (q.map life).sum

variable (hages : Ages hit age Good life)
include hages

theorem Ages.good_check {q : List α} (hgood : ∀ a ∈ q, Good a) :
    ∀ a ∈ (check hit age q).2, Good a := by
  intro a ha
  cases q with
  | nil => simp at ha
  | cons x rest =>
      have hx := hgood x List.mem_cons_self
      have hrest : ∀ y ∈ rest, Good y := fun y hy => hgood y (List.mem_cons_of_mem x hy)
      cases hhit : hit x with
      | true =>
          rw [check_of_hit hhit] at ha
          exact hrest a ha
      | false =>
          rw [check_of_miss hhit, List.mem_append, Option.mem_toList] at ha
          rcases ha with ha | ha
          · exact hrest a ha
          · exact hages.good hx ha

/-- Elements stay good throughout. -/
theorem Ages.good_after {q : List α} (hgood : ∀ a ∈ q, Good a) (n : Nat) :
    ∀ a ∈ after hit age q n, Good a := by
  induction n with
  | zero => exact hgood
  | succ n ih => exact hages.good_check ih

theorem Ages.miss_check {q : List α} (hmiss : ∀ a ∈ q, hit a = false) :
    ∀ a ∈ (check hit age q).2, hit a = false := by
  intro a ha
  cases q with
  | nil => simp at ha
  | cons x rest =>
      have hx := hmiss x List.mem_cons_self
      rw [check_of_miss hx, List.mem_append, Option.mem_toList] at ha
      rcases ha with ha | ha
      · exact hmiss a (List.mem_cons_of_mem x ha)
      · rw [hages.hit_eq ha, hx]

/-- A queue without a hit stays without one. -/
theorem Ages.miss_after {q : List α} (hmiss : ∀ a ∈ q, hit a = false) (n : Nat) :
    ∀ a ∈ after hit age q n, hit a = false := by
  induction n with
  | zero => exact hmiss
  | succ n ih => exact hages.miss_check ih

/-- A search without a hit finds nothing. -/
theorem Ages.answer_of_miss {q : List α} (hmiss : ∀ a ∈ q, hit a = false) (n : Nat) :
    answer hit age q n = false := by
  have hmiss' := hages.miss_after hmiss n
  unfold answer
  cases hq : after hit age q n with
  | nil => rfl
  | cons a rest =>
      rw [hq] at hmiss'
      rw [check_of_miss (hmiss' a List.mem_cons_self)]

/-- A check without a hit takes one unit of life from a queue that has some. -/
theorem Ages.weight_check {q : List α} (hgood : ∀ a ∈ q, Good a)
    (hmiss : ∀ a ∈ q, hit a = false) :
    weight life (check hit age q).2 = weight life q - 1 := by
  cases q with
  | nil => rfl
  | cons a rest =>
      have hlife := hages.life_eq (hgood a List.mem_cons_self)
      rw [check_of_miss (hmiss a List.mem_cons_self)]
      unfold weight
      rw [List.map_cons, List.sum_cons, List.map_append, List.sum_append, hlife]
      cases age a with
      | none => simp
      | some a' =>
          simp only [Option.toList_some, List.map_cons, List.map_nil, List.sum_cons,
            List.sum_nil, Option.map_some, Option.getD_some]
          omega

/-- So does every one of the checks of a search. -/
theorem Ages.weight_after {q : List α} (hgood : ∀ a ∈ q, Good a)
    (hmiss : ∀ a ∈ q, hit a = false) (n : Nat) :
    weight life (after hit age q n) = weight life q - n := by
  induction n with
  | zero => rfl
  | succ n ih =>
      rw [after, hages.weight_check (hages.good_after hgood n) (hages.miss_after hmiss n), ih]
      omega

/-- Only an empty queue has no life left. -/
theorem Ages.weight_eq_zero_iff {q : List α} (hgood : ∀ a ∈ q, Good a) :
    weight life q = 0 ↔ q = [] := by
  constructor
  · intro hzero
    cases q with
    | nil => rfl
    | cons a rest =>
        have hlife := hages.life_eq (hgood a List.mem_cons_self)
        unfold weight at hzero
        rw [List.map_cons, List.sum_cons] at hzero
        omega
  · intro hnil
    rw [hnil]
    rfl

end Life

end RotatingQueue
