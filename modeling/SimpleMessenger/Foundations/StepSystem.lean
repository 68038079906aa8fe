import Mathlib.Algebra.Order.Ring.Nat
import Mathlib.Data.List.Induction
import Mathlib.Data.List.Perm.Subperm
import Mathlib.Data.List.TakeWhile
import Mathlib.Tactic.Common

/-!
# Step systems and their histories

A step system computes its successor state from an action, and every step shows
one event.  A run is a finite sequence of steps from the initial state; its
history is the list of the events shown, oldest first.  Which actions are taken,
and in which order, is left open, so a statement about every run is a statement
about every schedule.

Main results:

- Theorem {lit}`Run.invariant`: what holds at the start and is kept by every
  step holds after every run.
- Theorem {lit}`Run.view`: runs of a system are runs of what is seen of it.
- Theorem {lit}`Run.component`: a component of a system takes a run of its own.
- Theorem {lit}`Run.simulates`: a relation that every step keeps, with at most one
  step of the other system, carries every visible history over.
- Theorem {lit}`execFrom_length_le`: a measure that every step lowers bounds the
  schedules.
- Theorem {lit}`Run.split`: every event of a history was shown by a step from
  the state that the earlier events lead to.
- Theorem {lit}`Run.countP_add_le`: a measure that no step raises bounds how often the
  events that lower it can still come.
- Theorem {lit}`run_iff_through`: if a step keeps a property exactly when it
  meets a condition, then the runs whose steps all meet the condition are the
  runs whose states all have the property.
- Theorem {lit}`filterMap_set_perm`: what a step of one process does to what all
  processes hold.
- Theorem {lit}`Run.flow`: what comes out of a stock over a run, and what is left in
  it, has gone in.
- Theorems {lit}`since_snoc` and {lit}`sinceLast_snoc`: how the two views of
  "since the last such event" change with one more event.
-/

universe u v w x

/-- A system with a computed step that shows one event; `none` means that the
action is not enabled. -/
structure StepSystem (σ : Type u) (α : Type v) (ε : Type w) where
  init : σ
  step : σ → α → Option (σ × ε)

namespace StepSystem

variable {σ : Type u} {α : Type v} {ε : Type w}

/-- A condition on a step, given the history and the state before it. -/
abbrev Guard (σ : Type u) (α : Type v) (ε : Type w) :=
  List ε → σ → α → Prop

/-- The condition that every step meets. -/
def Any : Guard σ α ε :=
  fun _ _ _ => True

section Runs

variable (M : StepSystem σ α ε)

/-- Runs whose steps all meet the guard, by history and final state. -/
inductive Run (G : Guard σ α ε) : List ε → σ → Prop where
  | start : Run G [] M.init
  | step {h : List ε} {s s' : σ} {a : α} {e : ε} :
      Run G h s → G h s a → M.step s a = some (s', e) → Run G (h ++ [e]) s'

/-- Runs whose steps all meet the guard and whose states all satisfy `P`, the
initial one included. -/
inductive Through (G : Guard σ α ε) (P : List ε → σ → Prop) : List ε → σ → Prop where
  | start : P [] M.init → Through G P [] M.init
  | step {h : List ε} {s s' : σ} {a : α} {e : ε} :
      Through G P h s → G h s a → M.step s a = some (s', e) → P (h ++ [e]) s' →
        Through G P (h ++ [e]) s'

/-- Run a schedule from a given history and state, as long as every action is
enabled and passes the test `g`. -/
def execFrom (g : List ε → σ → α → Bool) (h : List ε) (s : σ) :
    List α → Option (List ε × σ)
  | [] => some (h, s)
  | a :: as =>
      if g h s a then
        match M.step s a with
        | none => none
        | some (s', e) => execFrom g (h ++ [e]) s' as
      else none

/-- Run a schedule from the initial state. -/
def exec (as : List α) : Option (List ε × σ) :=
  M.execFrom (fun _ _ _ => true) [] M.init as

end Runs

variable {M : StepSystem σ α ε} {G G' : Guard σ α ε}

/-- The guard may be weakened by what holds along the run. -/
theorem Run.mono_of_run (hle : ∀ h s a, M.Run G h s → G h s a → G' h s a) {h : List ε} {s : σ}
    (hrun : M.Run G h s) : M.Run G' h s := by
  induction hrun with
  | start => exact .start
  | step hrun hguard hstep ih => exact .step ih (hle _ _ _ hrun hguard) hstep

/-- A weaker guard admits more runs. -/
theorem Run.mono (hle : ∀ h s a, G h s a → G' h s a) {h : List ε} {s : σ}
    (hrun : M.Run G h s) : M.Run G' h s :=
  hrun.mono_of_run fun h s a _ hguard => hle h s a hguard

/-- The invariant rule. -/
theorem Run.invariant {I : List ε → σ → Prop} (hinit : I [] M.init)
    (hkeep : ∀ h s a s' e, M.Run G h s → I h s → G h s a →
      M.step s a = some (s', e) → I (h ++ [e]) s')
    {h : List ε} {s : σ} (hrun : M.Run G h s) : I h s := by
  induction hrun with
  | start => exact hinit
  | step hrun hguard hstep ih => exact hkeep _ _ _ _ _ hrun ih hguard hstep

/-- Where every step is, seen through `view`, a step of another system or none at all,
runs are runs of that system. -/
theorem Run.view {τ : Type*} {β : Type*} {δ : Type*} {N : StepSystem τ β δ} (view : σ → τ)
    (hinit : view M.init = N.init)
    (hstep : ∀ s a s' e, M.step s a = some (s', e) →
      view s' = view s ∨ ∃ b d, N.step (view s) b = some (view s', d))
    {h : List ε} {s : σ} (hrun : M.Run G h s) : ∃ h', N.Run Any h' (view s) := by
  induction hrun with
  | start => exact ⟨[], hinit ▸ .start⟩
  | step _ _ hone ih =>
      rcases ih with ⟨h', hrun'⟩
      rcases hstep _ _ _ _ hone with hsame | ⟨b, d, hmoved⟩
      · exact ⟨h', hsame ▸ hrun'⟩
      · exact ⟨h' ++ [d], .step hrun' trivial hmoved⟩

/-- Where every step is matched by at most one step of another system that shows the
same, the visible history of a run is that of a run of the other system. -/
theorem Run.simulates {τ : Type*} {β : Type*} {δ : Type*} {γ : Type*} {N : StepSystem τ β δ}
    (R : List ε → σ → τ → Prop) (seen : ε → Option γ) (shown : δ → Option γ)
    (hinit : R [] M.init N.init)
    (hstep : ∀ h s a s' e t, M.Run G h s → R h s t → G h s a → M.step s a = some (s', e) →
      (seen e = none ∧ R (h ++ [e]) s' t) ∨
        ∃ b t' d, N.step t b = some (t', d) ∧ shown d = seen e ∧ R (h ++ [e]) s' t')
    {h : List ε} {s : σ} (hrun : M.Run G h s) :
    ∃ h' t, N.Run Any h' t ∧ h'.filterMap shown = h.filterMap seen ∧ R h s t := by
  induction hrun with
  | start => exact ⟨[], N.init, .start, rfl, hinit⟩
  | step hrun hguard hone ih =>
      rcases ih with ⟨h', t, hrun', hseen, hR⟩
      rcases hstep _ _ _ _ _ _ hrun hR hguard hone with
        ⟨hhidden, hR'⟩ | ⟨b, t', d, hmove, hshow, hR'⟩
      · refine ⟨h', t, hrun', ?_, hR'⟩
        rw [List.filterMap_append, hseen, List.filterMap_cons, hhidden]
        simp
      · refine ⟨h' ++ [d], t', .step hrun' trivial hmove, ?_, hR'⟩
        rw [List.filterMap_append, List.filterMap_append, hseen, List.filterMap_cons,
          List.filterMap_cons, hshow, List.filterMap_nil, List.filterMap_nil]

/-- Where every step is a step of one component or leaves it alone, the component takes a
run of its own. -/
theorem Run.component {τ : Type*} {β : Type*} {δ : Type*} {N : StepSystem τ β δ}
    {G' : Guard τ β δ} (view : σ → τ) (part : ε → Option δ) (hinit : view M.init = N.init)
    (hstep : ∀ h s a s' e, G h s a → M.step s a = some (s', e) →
      (part e = none ∧ view s' = view s) ∨
        ∃ b d, part e = some d ∧ G' (h.filterMap part) (view s) b ∧
          N.step (view s) b = some (view s', d))
    {h : List ε} {s : σ} (hrun : M.Run G h s) : N.Run G' (h.filterMap part) (view s) := by
  induction hrun with
  | start =>
      rw [List.filterMap_nil, hinit]
      exact .start
  | step _ hguard hone ih =>
      rw [List.filterMap_append]
      rcases hstep _ _ _ _ _ hguard hone with ⟨hnone, hsame⟩ | ⟨b, d, hpart, hguard', hmove⟩
      · rw [List.filterMap_cons_none hnone, List.filterMap_nil, List.append_nil, hsame]
        exact ih
      · rw [List.filterMap_cons_some hpart, List.filterMap_nil]
        exact .step ih hguard' hmove

/-- Every prefix of a history is the history of a run. -/
theorem Run.of_append {h₁ h₂ : List ε} {s : σ} (hrun : M.Run G (h₁ ++ h₂) s) :
    ∃ s₁, M.Run G h₁ s₁ := by
  generalize heq : h₁ ++ h₂ = h at hrun
  induction hrun generalizing h₂ with
  | start =>
      rcases List.append_eq_nil_iff.mp heq with ⟨rfl, rfl⟩
      exact ⟨_, .start⟩
  | @step h s s' a e hrun hguard hstep ih =>
      rcases List.eq_nil_or_concat h₂ with rfl | ⟨h₂', x, rfl⟩
      · rw [List.append_nil] at heq
        subst heq
        exact ⟨_, .step hrun hguard hstep⟩
      · rw [List.concat_eq_append, ← List.append_assoc] at heq
        exact ih (List.append_inj' heq rfl).1

/-- The step that showed a given event of a history. -/
theorem Run.split {h₁ h₂ : List ε} {e : ε} {s : σ}
    (hrun : M.Run G (h₁ ++ e :: h₂) s) :
    ∃ s₁ a s₂, M.Run G h₁ s₁ ∧ G h₁ s₁ a ∧ M.step s₁ a = some (s₂, e) := by
  have hprefix : M.Run G ((h₁ ++ [e]) ++ h₂) s := by simpa using hrun
  rcases hprefix.of_append with ⟨s₂, hrun₂⟩
  generalize heq : h₁ ++ [e] = h at hrun₂
  cases hrun₂ with
  | start => simp at heq
  | step hrun₁ hguard hstep =>
      rcases List.append_inj' heq rfl with ⟨rfl, hlast⟩
      cases hlast
      exact ⟨_, _, _, hrun₁, hguard, hstep⟩

/-- The step that showed one of the events. -/
theorem Run.step_of_mem {h : List ε} {e : ε} {s : σ} (hrun : M.Run G h s) (he : e ∈ h) :
    ∃ h₁ s₁ a s₂, M.Run G h₁ s₁ ∧ G h₁ s₁ a ∧ M.step s₁ a = some (s₂, e) := by
  rcases List.append_of_mem he with ⟨h₁, h₂, rfl⟩
  rcases hrun.split with ⟨s₁, a, s₂, hrun₁, hguard, hstep⟩
  exact ⟨h₁, s₁, a, s₂, hrun₁, hguard, hstep⟩

/-- The last step of a run. -/
theorem Run.of_concat {h : List ε} {e : ε} {s' : σ} (hrun : M.Run G (h ++ [e]) s') :
    ∃ s a, M.Run G h s ∧ G h s a ∧ M.step s a = some (s', e) := by
  generalize heq : h ++ [e] = h' at hrun
  cases hrun with
  | start => simp at heq
  | step hrun hguard hstep =>
      rcases List.append_inj' heq rfl with ⟨rfl, hlast⟩
      cases hlast
      exact ⟨_, _, hrun, hguard, hstep⟩

/-- If no step behind `h₁` raises a measure, and those whose events pass the test lower it,
then the measure behind `h₁` bounds their number. -/
theorem Run.countP_add_le (I : σ → Prop) (test : ε → Bool) (μ : σ → Nat) (bound : Nat)
    {h₁ h₂ : List ε} (hstart : ∀ s, M.Run G h₁ s → I s ∧ μ s ≤ bound)
    (hkeep : ∀ h s a s' e, M.Run G h s → I s → G h s a → M.step s a = some (s', e) →
      I s' ∧ μ s' + (if test e then 1 else 0) ≤ μ s)
    {s : σ} (hrun : M.Run G (h₁ ++ h₂) s) : I s ∧ h₂.countP test + μ s ≤ bound := by
  induction h₂ using List.reverseRecOn generalizing s with
  | nil =>
      rw [List.append_nil] at hrun
      simpa using hstart s hrun
  | append_singleton h₂ e ih =>
      rw [← List.append_assoc] at hrun
      rcases hrun.of_concat with ⟨s₁, a, hrun₁, hguard, hstep⟩
      rcases ih hrun₁ with ⟨hinv, hcount⟩
      rcases hkeep _ _ _ _ _ hrun₁ hinv hguard hstep with ⟨hinv', hlower⟩
      rw [List.countP_append, List.countP_singleton]
      exact ⟨hinv', by omega⟩

/-- A run through states with a property is a run. -/
theorem Through.run {P : List ε → σ → Prop} {h : List ε} {s : σ}
    (hthrough : M.Through G P h s) : M.Run G h s := by
  induction hthrough with
  | start _ => exact .start
  | step _ hguard hstep _ ih => exact .step ih hguard hstep

/-- The last state of a run through states with a property has it. -/
theorem Through.last {P : List ε → σ → Prop} {h : List ε} {s : σ}
    (hthrough : M.Through G P h s) : P h s := by
  cases hthrough with
  | start hinit => exact hinit
  | step _ _ _ hlast => exact hlast

/-- When a step keeps `P` exactly if it meets `C`, the runs whose steps all
meet `C` are the runs through states that satisfy `P`. -/
theorem run_iff_through {P : List ε → σ → Prop} {C : Guard σ α ε} (hinit : P [] M.init)
    (hkeep : ∀ h s a s' e, M.Run G h s → P h s → G h s a →
      M.step s a = some (s', e) → (C h s a ↔ P (h ++ [e]) s'))
    {h : List ε} {s : σ} :
    M.Run (fun h s a => G h s a ∧ C h s a) h s ↔ M.Through G P h s := by
  constructor
  · intro hrun
    induction hrun with
    | start => exact .start hinit
    | step _ hguard hstep ih =>
        exact .step ih hguard.1 hstep
          ((hkeep _ _ _ _ _ ih.run ih.last hguard.1 hstep).mp hguard.2)
  · intro hthrough
    induction hthrough with
    | start _ => exact .start
    | step hprev hguard hstep hlast ih =>
        exact .step ih
          ⟨hguard, (hkeep _ _ _ _ _ hprev.run hprev.last hguard hstep).mpr hlast⟩ hstep

/-- A schedule goes on from where its first step leads. -/
theorem execFrom_cons {g : List ε → σ → α → Bool} {h : List ε} {s s' : σ} {a : α} {e : ε}
    (hg : g h s a = true) (hstep : M.step s a = some (s', e)) (as : List α) :
    M.execFrom g h s (a :: as) = M.execFrom g (h ++ [e]) s' as := by
  simp only [execFrom, hg, hstep, if_true]

/-- What every step of a schedule keeps, the schedule keeps. -/
theorem execFrom_invariant {g : List ε → σ → α → Bool} {I : List ε → σ → Prop}
    (hkeep : ∀ h s a s' e, I h s → g h s a = true → M.step s a = some (s', e) →
      I (h ++ [e]) s')
    {as : List α} :
    ∀ {h h' : List ε} {s s' : σ}, I h s → M.execFrom g h s as = some (h', s') → I h' s' := by
  induction as with
  | nil =>
      intro h h' s s' hinv hexec
      cases hexec
      exact hinv
  | cons a as ih =>
      intro h h' s s' hinv hexec
      unfold execFrom at hexec
      split at hexec <;> rename_i hg
      · split at hexec <;> rename_i hstep
        · contradiction
        · exact ih (hkeep _ _ _ _ _ hinv hg hstep) hexec
      · contradiction

/-- A measure that every step lowers bounds the schedules. -/
theorem execFrom_length_le {g : List ε → σ → α → Bool} {I : List ε → σ → Prop} {μ : σ → Nat}
    (hkeep : ∀ h s a s' e, I h s → g h s a = true → M.step s a = some (s', e) →
      I (h ++ [e]) s' ∧ μ s' < μ s)
    {as : List α} :
    ∀ {h h' : List ε} {s s' : σ}, I h s → M.execFrom g h s as = some (h', s') →
      as.length + μ s' ≤ μ s := by
  induction as with
  | nil =>
      intro h h' s s' _ hexec
      cases hexec
      simp
  | cons a as ih =>
      intro h h' s s' hinv hexec
      unfold execFrom at hexec
      split at hexec <;> rename_i hg
      · split at hexec <;> rename_i hstep
        · contradiction
        · rcases hkeep _ _ _ _ _ hinv hg hstep with ⟨hinv', hlower⟩
          have hrest := ih hinv' hexec
          simp only [List.length_cons]
          omega
      · contradiction

/-- A schedule that executes is a run. -/
theorem Run.of_execFrom {g : List ε → σ → α → Bool} (hguard : ∀ h s a, g h s a → G h s a)
    {as : List α} {h h' : List ε} {s s' : σ} (hrun : M.Run G h s)
    (hexec : M.execFrom g h s as = some (h', s')) : M.Run G h' s' :=
  execFrom_invariant (fun _ _ _ _ _ hprev hg hstep => .step hprev (hguard _ _ _ hg) hstep)
    hrun hexec

/-- A schedule that executes is a run without conditions. -/
theorem Run.of_exec {as : List α} {h : List ε} {s : σ} (hexec : M.exec as = some (h, s)) :
    M.Run Any h s :=
  Run.of_execFrom (fun _ _ _ _ => trivial) .start hexec

/-- The history of a schedule that executes under a test is the history of a
run. -/
theorem Run.exists_of_execFrom {g : List ε → σ → α → Bool}
    (hguard : ∀ h s a, g h s a → G h s a) {as : List α} {h : List ε}
    (hhistory : (M.execFrom g [] M.init as).map (·.1) = some h) : ∃ s, M.Run G h s := by
  rcases Option.map_eq_some_iff.mp hhistory with ⟨⟨h', s⟩, hexec, heq⟩
  cases heq
  exact ⟨s, Run.of_execFrom hguard .start hexec⟩

/-- The history of a schedule that executes is the history of a run. -/
theorem Run.exists_of_exec {as : List α} {h : List ε}
    (hhistory : (M.exec as).map (·.1) = some h) : ∃ s, M.Run Any h s :=
  Run.exists_of_execFrom (fun _ _ _ _ => trivial) hhistory

/-! ## Stocks and flows

A stock is a list of items read off a state; events let items in and out.  Items may
also be lost, so that a stock and its outflow are only bounded by the inflow. -/

/-- If no step lets out or keeps more than was there and came in, no run does. -/
theorem Run.flow {β : Type x} (stock : σ → List β) {inflow outflow : ε → List β}
    (hinit : stock M.init = [])
    (hstep : ∀ h s a s' e, M.Run G h s → G h s a → M.step s a = some (s', e) →
      (outflow e ++ stock s').Subperm (stock s ++ inflow e))
    {h : List ε} {s : σ} (hrun : M.Run G h s) :
    (h.flatMap outflow ++ stock s).Subperm (h.flatMap inflow) := by
  induction hrun with
  | start => simp [hinit]
  | @step h s s' a e hrun hguard hone ih =>
      have hnext := hstep _ _ _ _ _ hrun hguard hone
      rw [List.flatMap_append, List.flatMap_append, List.flatMap_singleton,
        List.flatMap_singleton, List.append_assoc]
      have hmoved : (h.flatMap outflow ++ (outflow e ++ stock s')).Subperm
          ((h.flatMap outflow ++ stock s) ++ inflow e) := by
        rw [List.append_assoc]
        exact (List.subperm_append_left _).mpr hnext
      exact hmoved.trans ((List.subperm_append_right _).mpr ih)

/-- What is counted event by event is counted over the history. -/
theorem countP_flatMap_le {β γ : Type*} {f : ε → List β} {g : ε → List γ} {p : β → Bool}
    {q : γ → Bool} {h : List ε} (hle : ∀ e ∈ h, (f e).countP p ≤ (g e).countP q) :
    (h.flatMap f).countP p ≤ (h.flatMap g).countP q := by
  induction h with
  | nil => exact Nat.le_refl _
  | cons e h ih =>
      rw [List.flatMap_cons, List.flatMap_cons, List.countP_append, List.countP_append]
      exact Nat.add_le_add (hle e List.mem_cons_self)
        (ih fun e' he' => hle e' (List.mem_cons_of_mem e he'))

/-- The copies of each item count as often as there are of them. -/
theorem countP_flatMap_replicate {β : Type*} (n : Nat) (p : β → Bool) (items : List β) :
    (items.flatMap (List.replicate n)).countP p = n * items.countP p := by
  induction items with
  | nil => rfl
  | cons item items ih =>
      rw [List.flatMap_cons, List.countP_append, ih, List.countP_replicate, List.countP_cons]
      split_ifs
      · rw [Nat.mul_succ, Nat.add_comm]
      · rw [Nat.zero_add, Nat.add_zero]

/-! ## Numbered processes

Processes that are started one after the other are kept in a list; the number of
a process is its place, a step replaces one entry, and a start appends one. -/

section Processes

variable {π : Type u} {ps : List π} {i j : Nat} {p q : π}

theorem getElem?_set_of_some (hi : ps[i]? = some q) : (ps.set i p)[i]? = some p := by
  rw [List.getElem?_set_self (List.getElem?_eq_some_iff.mp hi).1]

/-- After a step, an entry is the new one or was there before. -/
theorem getElem?_set_cases (h : (ps.set i p)[j]? = some q) :
    (j = i ∧ q = p) ∨ (j ≠ i ∧ ps[j]? = some q) := by
  by_cases hij : i = j
  · subst hij
    rw [List.getElem?_set] at h
    by_cases hlt : i < ps.length
    · left
      simpa [hlt, eq_comm] using h
    · simp [hlt] at h
  · right
    rw [List.getElem?_set_ne hij] at h
    exact ⟨fun hji => hij hji.symm, h⟩

theorem getElem?_append_of_some (hj : ps[j]? = some q) : (ps ++ [p])[j]? = some q := by
  rw [List.getElem?_append_left (List.getElem?_eq_some_iff.mp hj).1]
  exact hj

/-- After a start, an entry is the last one or was there before. -/
theorem getElem?_append_cases (h : (ps ++ [p])[j]? = some q) :
    (j = ps.length ∧ q = p) ∨ ps[j]? = some q := by
  by_cases hlt : j < ps.length
  · right
    rwa [List.getElem?_append_left hlt] at h
  · left
    rw [List.getElem?_append_right (by omega)] at h
    rcases List.getElem?_eq_some_iff.mp h with ⟨hone, hval⟩
    have hj : j = ps.length := by
      simp only [List.length_cons, List.length_nil] at hone
      omega
    subst hj
    simp only [Nat.sub_self, List.getElem_cons_zero] at hval
    exact ⟨rfl, hval.symm⟩

/-- The entries after a start. -/
theorem getElem?_concat_eq_some_iff :
    (ps ++ [p])[j]? = some q ↔ ps[j]? = some q ∨ (j = ps.length ∧ q = p) := by
  constructor
  · intro h
    exact (getElem?_append_cases h).symm
  · rintro (h | ⟨rfl, rfl⟩)
    · rw [List.getElem?_append_left (List.getElem?_eq_some_iff.mp h).1]
      exact h
    · simp

/-- A step takes the old entry's attribute away and adds the new one's. -/
theorem filterMap_set_perm {β : Type v} (f : π → Option β) (hi : ps[i]? = some q) :
    ((ps.set i p).filterMap f ++ (f q).toList).Perm (ps.filterMap f ++ (f p).toList) := by
  have hcons : ∀ (x : π) (xs : List π),
      (x :: xs).filterMap f = (f x).toList ++ xs.filterMap f := by
    intro x xs
    cases hx : f x <;> simp [hx]
  induction ps generalizing i with
  | nil => simp at hi
  | cons r ps ih =>
      cases i with
      | zero =>
          have hr : r = q := by simpa using hi
          rw [List.set_cons_zero, hcons, hcons, hr, List.append_assoc]
          exact List.perm_append_comm.trans (List.perm_append_comm.append_right _)
      | succ i =>
          have hrest := ih (by simpa using hi)
          rw [List.set_cons_succ, hcons, hcons, List.append_assoc, List.append_assoc]
          exact hrest.append_left _

/-- A step of a process that holds nothing before and after it. -/
theorem filterMap_set_perm_of_none {β : Type v} {f : π → Option β} (hi : ps[i]? = some q)
    (hbefore : f q = none) (hafter : f p = none) :
    ((ps.set i p).filterMap f).Perm (ps.filterMap f) := by
  have hperm := filterMap_set_perm (p := p) f hi
  rw [hbefore, hafter] at hperm
  simpa using hperm

/-- A step of a process that lets go of `x`. -/
theorem filterMap_perm_cons_set {β : Type v} {f : π → Option β} {x : β}
    (hi : ps[i]? = some q) (hbefore : f q = some x) (hafter : f p = none) :
    (ps.filterMap f).Perm (x :: (ps.set i p).filterMap f) := by
  have hperm := filterMap_set_perm (p := p) f hi
  rw [hbefore, hafter, Option.toList_none, List.append_nil] at hperm
  exact hperm.symm.trans (List.perm_append_singleton _ _)

/-- A step of a process that takes hold of `x`. -/
theorem filterMap_append_perm_set {β : Type v} {f : π → Option β} {x : β}
    (hi : ps[i]? = some q) (hbefore : f q = none) (hafter : f p = some x) :
    (ps.filterMap f ++ [x]).Perm ((ps.set i p).filterMap f) := by
  have hperm := filterMap_set_perm (p := p) f hi
  rw [hbefore, hafter, Option.toList_none, List.append_nil] at hperm
  exact hperm.symm

/-- A start adds what the new process holds. -/
theorem filterMap_concat {β : Type v} (f : π → Option β) (ps : List π) (p : π) :
    (ps ++ [p]).filterMap f = ps.filterMap f ++ (f p).toList := by
  rw [List.filterMap_append]
  cases hp : f p <;> simp [hp]

/-- What every process shows of itself stays as it is if the process that takes the step
shows the same as before. -/
theorem bind_set_of_eq {β : Type v} {f : π → Option β} (hi : ps[i]? = some q)
    (hsame : f p = f q) (j : Nat) : (ps.set i p)[j]?.bind f = ps[j]?.bind f := by
  by_cases hij : i = j
  · rw [← hij, getElem?_set_of_some hi, hi, Option.bind_some, Option.bind_some, hsame]
  · rw [List.getElem?_set_ne hij]

/-- A process that shows nothing at its start changes nothing in what is shown. -/
theorem bind_append_of_none {β : Type v} {f : π → Option β} (hnone : f p = none) (j : Nat) :
    (ps ++ [p])[j]?.bind f = ps[j]?.bind f := by
  rcases Nat.lt_trichotomy j ps.length with hlt | rfl | hgt
  · rw [List.getElem?_append_left hlt]
  · simp [hnone]
  · rw [List.getElem?_eq_none (by simp; omega), List.getElem?_eq_none (by omega)]

/-- So does a step of all processes at once. -/
theorem bind_map_of_eq {β : Type v} {f : π → Option β} {g : π → π}
    (hsame : ∀ p, f (g p) = f p) (j : Nat) : (ps.map g)[j]?.bind f = ps[j]?.bind f := by
  rw [List.getElem?_map, Option.bind_map]
  exact congrArg (ps[j]?.bind) (funext hsame)

/-- A step of one process changes the sum of a measure by the change at this process. -/
theorem sum_map_set {f : π → Nat} (hi : ps[i]? = some q) :
    ((ps.set i p).map f).sum + f q = (ps.map f).sum + f p := by
  induction ps generalizing i with
  | nil => simp at hi
  | cons r ps ih =>
      cases i with
      | zero =>
          have hr : r = q := by simpa using hi
          simp only [List.set_cons_zero, List.map_cons, List.sum_cons, hr]
          omega
      | succ i =>
          have hrest := ih (by simpa using hi)
          simp only [List.set_cons_succ, List.map_cons, List.sum_cons]
          omega

/-- A step of one process that lowers its measure lowers the sum. -/
theorem sum_map_set_lt {f : π → Nat} (hi : ps[i]? = some q) (hlower : f p < f q) :
    ((ps.set i p).map f).sum < (ps.map f).sum := by
  have hsum := sum_map_set (p := p) (f := f) hi
  omega

end Processes

/-! ## Parts of a history -/

/-- What a narrower view of the events shows is shown by a wider one, in the same order. -/
theorem filterMap_sublist {β : Type*} {f g : ε → Option β}
    (hle : ∀ e x, f e = some x → g e = some x) (h : List ε) :
    (h.filterMap f).Sublist (h.filterMap g) := by
  induction h with
  | nil => exact List.Sublist.refl _
  | cons e h ih =>
      cases hf : f e with
      | some x =>
          rw [List.filterMap_cons_some hf, List.filterMap_cons_some (hle e x hf)]
          exact ih.cons_cons x
      | none =>
          rw [List.filterMap_cons_none hf]
          cases hg : g e with
          | none => rwa [List.filterMap_cons_none hg]
          | some x =>
              rw [List.filterMap_cons_some hg]
              exact ih.cons x

/-- A part of a list that misses the last element is a part of the rest. -/
theorem sublist_of_sublist_concat {β : Type*} {xs ys : List β} {x : β}
    (hsub : xs.Sublist (ys ++ [x])) (hx : x ∉ xs) : xs.Sublist ys := by
  rcases List.sublist_append_iff.mp hsub with ⟨xs₁, xs₂, rfl, hxs₁, hxs₂⟩
  rcases List.sublist_singleton.mp hxs₂ with rfl | rfl
  · rwa [List.append_nil]
  · exact absurd (List.mem_append_right _ (List.mem_singleton_self x)) hx

/-- One more event in a view of the history. -/
theorem filterMap_snoc {β : Type*} (f : ε → Option β) (h : List ε) (e : ε) :
    (h ++ [e]).filterMap f = h.filterMap f ++ (f e).toList :=
  filterMap_concat f h e

/-! ## Reading a history backwards -/

/-- Some event with `p` is not followed by an event with `q`. -/
def Since (p q : ε → Prop) (h : List ε) : Prop :=
  ∃ h₁ e h₂, h = h₁ ++ e :: h₂ ∧ p e ∧ ∀ x ∈ h₂, ¬ q x

@[simp]
theorem not_since_nil (p q : ε → Prop) : ¬ Since p q [] := by
  rintro ⟨h₁, e, h₂, heq, _⟩
  simp at heq

/-- One more event either is the one sought, or lets the earlier one stand. -/
theorem since_snoc {p q : ε → Prop} {h : List ε} {e : ε} :
    Since p q (h ++ [e]) ↔ p e ∨ (¬ q e ∧ Since p q h) := by
  constructor
  · rintro ⟨h₁, x, h₂, heq, hp, hq⟩
    rcases List.eq_nil_or_concat h₂ with rfl | ⟨h₂', y, rfl⟩
    · rcases List.append_inj' heq rfl with ⟨_, hlast⟩
      cases hlast
      exact .inl hp
    · rw [List.concat_eq_append, ← List.cons_append, ← List.append_assoc] at heq
      rcases List.append_inj' heq rfl with ⟨hinit, hlast⟩
      cases hlast
      refine .inr ⟨hq e (by simp), h₁, x, h₂', hinit, hp, ?_⟩
      intro z hz
      exact hq z (by simp [hz])
  · rintro (hp | ⟨hqe, h₁, x, h₂, rfl, hp, hq⟩)
    · exact ⟨h, e, [], rfl, hp, by simp⟩
    · refine ⟨h₁, x, h₂ ++ [e], by simp, hp, ?_⟩
      intro z hz
      rcases List.mem_append.mp hz with hz | hz
      · exact hq z hz
      · rw [List.mem_singleton.mp hz]
        exact hqe

/-- {lit}`Since`, computed in one pass over the history. -/
def sinceTest (p q : ε → Bool) (h : List ε) : Bool :=
  h.foldl (fun found e => p e || (!q e && found)) false

theorem sinceTest_eq_true_iff {p q : ε → Bool} {h : List ε} :
    sinceTest p q h = true ↔ Since (fun e => p e = true) (fun e => q e = true) h := by
  induction h using List.reverseRecOn with
  | nil => simp [sinceTest]
  | append_singleton h e ih =>
      rw [since_snoc, ← ih]
      simp [sinceTest]

/-- The events after the last one that passes `q`. -/
def sinceLast (q : ε → Bool) (h : List ε) : List ε :=
  (h.reverse.takeWhile (!q ·)).reverse

@[simp]
theorem sinceLast_nil (q : ε → Bool) : sinceLast q [] = [] :=
  rfl

theorem sinceLast_snoc (q : ε → Bool) (h : List ε) (e : ε) :
    sinceLast q (h ++ [e]) = if q e then [] else sinceLast q h ++ [e] := by
  cases hq : q e <;> simp [sinceLast, hq]

/-- Events none of which passes `q` extend the last stretch. -/
theorem sinceLast_append {q : ε → Bool} {h₂ : List ε} (hfree : ∀ e ∈ h₂, q e = false)
    (h₁ : List ε) : sinceLast q (h₁ ++ h₂) = sinceLast q h₁ ++ h₂ := by
  induction h₂ generalizing h₁ with
  | nil => simp
  | cons e h₂ ih =>
      have hq : q e = false := hfree e List.mem_cons_self
      have hrest := ih (fun x hx => hfree x (List.mem_cons_of_mem e hx)) (h₁ ++ [e])
      rw [List.append_cons, hrest, sinceLast_snoc, hq]
      simp

end StepSystem
