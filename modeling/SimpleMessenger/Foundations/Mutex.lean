import SimpleMessenger.Foundations.StepSystem

/-!
# Mutexes and their holders

A mutex that numbered processes lock and unlock is the number of the process that
holds it.  Where each process stands in its code says whether it holds the mutex;
the two agree as long as a process gets the mutex only when it is free and gives up
only its own.

Main results:

- Theorems {lit}`Owned.start` and {lit}`Owned.step`: the agreement outlives the start
  and every step of a process.
- Theorem {lit}`Owned.unique`: one process at most is in the code that needs the
  mutex.
-/

universe u

namespace Mutex

variable {π : Type u}

/-- The mutex names exactly the processes that stand where it is held. -/
def Owned (holds : π → Bool) (mtx : Option Nat) (ps : List π) : Prop :=
  ∀ i, mtx = some i ↔ ∃ p, ps[i]? = some p ∧ holds p = true

variable {holds : π → Bool} {mtx : Option Nat} {ps : List π} {i j : Nat} {p p' q : π}

theorem owned_nil : Owned holds none ([] : List π) := by
  simp [Owned]

theorem Owned.holder (howned : Owned holds mtx ps) (hmtx : mtx = some i) :
    ∃ p, ps[i]? = some p ∧ holds p = true :=
  (howned i).mp hmtx

theorem Owned.mtx_eq (howned : Owned holds mtx ps) (hi : ps[i]? = some p)
    (hp : holds p = true) : mtx = some i :=
  (howned i).mpr ⟨p, hi, hp⟩

/-- No two processes hold the mutex. -/
theorem Owned.unique (howned : Owned holds mtx ps) (hi : ps[i]? = some p)
    (hp : holds p = true) (hj : ps[j]? = some q) (hq : holds q = true) : i = j := by
  have hmtx := howned.mtx_eq hi hp
  rw [howned.mtx_eq hj hq] at hmtx
  exact (Option.some.inj hmtx).symm

theorem Owned.not_holds (howned : Owned holds mtx ps) (hfree : mtx = none)
    (hi : ps[i]? = some p) : holds p = false := by
  cases hp : holds p with
  | false => rfl
  | true =>
      have hmtx := howned.mtx_eq hi hp
      rw [hfree] at hmtx
      contradiction

/-- A new process does not hold the mutex. -/
theorem Owned.start (howned : Owned holds mtx ps) (hp : holds p = false) :
    Owned holds mtx (ps ++ [p]) := by
  intro i
  rw [howned i]
  constructor
  · rintro ⟨q, hi, hq⟩
    exact ⟨q, StepSystem.getElem?_append_of_some hi, hq⟩
  · rintro ⟨q, hi, hq⟩
    rcases StepSystem.getElem?_append_cases hi with ⟨_, rfl⟩ | hold
    · rw [hp] at hq
      contradiction
    · exact ⟨q, hold, hq⟩

/-- A step that neither locks nor unlocks. -/
theorem Owned.keep (howned : Owned holds mtx ps) (hi : ps[i]? = some p)
    (hsame : holds p' = holds p) : Owned holds mtx (ps.set i p') := by
  intro j
  rw [howned j]
  by_cases hij : i = j
  · subst hij
    rw [StepSystem.getElem?_set_of_some hi]
    simp [hi, hsame]
  · rw [List.getElem?_set_ne hij]

/-- A process that stands where the mutex is held takes it while it is free. -/
theorem Owned.lock (howned : Owned holds none ps) (hi : ps[i]? = some p)
    (hp' : holds p' = true) : Owned holds (some i) (ps.set i p') := by
  intro j
  by_cases hij : i = j
  · subst hij
    rw [StepSystem.getElem?_set_of_some hi]
    simp [hp']
  · rw [List.getElem?_set_ne hij, ← howned j]
    simp [hij]

/-- The holder gives the mutex up. -/
theorem Owned.unlock (howned : Owned holds mtx ps) (hi : ps[i]? = some p)
    (hp : holds p = true) (hp' : holds p' = false) : Owned holds none (ps.set i p') := by
  have hmtx := howned.mtx_eq hi hp
  intro j
  by_cases hij : i = j
  · subst hij
    rw [StepSystem.getElem?_set_of_some hi]
    simp [hp']
  · rw [List.getElem?_set_ne hij, ← howned j, hmtx]
    simp [hij]

/-- What one step of the process `i` does to the mutex. -/
inductive Moved (holds : π → Bool) (i : Nat) (p p' : π) : Option Nat → Option Nat → Prop where
  | keep {mtx : Option Nat} : holds p' = holds p → Moved holds i p p' mtx mtx
  | lock : holds p' = true → Moved holds i p p' none (some i)
  | unlock {mtx : Option Nat} : holds p = true → holds p' = false → Moved holds i p p' mtx none

/-- A process that did not hold the mutex has not freed it. -/
theorem Moved.free_before {mtx' : Option Nat} (hmoved : Moved holds i p p' mtx mtx')
    (hp : holds p = false) (hfree : mtx' = none) : mtx = none := by
  cases hmoved with
  | keep _ => exact hfree
  | lock _ => rfl
  | unlock hheld _ => exact absurd hheld (by simp [hp])

/-- A process that gets the mutex found it free. -/
theorem Moved.free_of_lock {mtx' : Option Nat} (hmoved : Moved holds i p p' mtx mtx')
    (hp : holds p = false) (hp' : holds p' = true) : mtx = none := by
  cases hmoved with
  | keep hsame => exact absurd hp' (by simp [hsame, hp])
  | lock _ => rfl
  | unlock hheld _ => exact absurd hheld (by simp [hp])

/-- The agreement outlives every step. -/
theorem Owned.step {mtx' : Option Nat} (howned : Owned holds mtx ps) (hi : ps[i]? = some p)
    (hmoved : Moved holds i p p' mtx mtx') : Owned holds mtx' (ps.set i p') := by
  cases hmoved with
  | keep hsame => exact howned.keep hi hsame
  | lock hp' => exact howned.lock hi hp'
  | unlock hp hp' => exact howned.unlock hi hp hp'

end Mutex
