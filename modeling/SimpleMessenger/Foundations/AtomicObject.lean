import Mathlib.Data.List.Nodup
import SimpleMessenger.Foundations.BoundedQueue
import SimpleMessenger.Foundations.StepSystem

/-!
# Linearizable objects

An object whose operations are given by a sequential specification is called by many
processes at once.  A history of calls and returns is linearizable if the calls can be
put in one order in which the specification answers each of them as it was answered,
and which never puts a call before one that had returned when it was made.

The atomic object takes each call in three steps: the call, the one step at which it
takes effect, and the return.  Its commits are such an order, so whatever the atomic
object simulates is linearizable.

Main results:

- Theorem {lit}`linearization_of_run`: the commits of a run of the atomic object
  linearize its history, and leave its state.
- Theorem {lit}`linearization_of_simulation`: the rule for an implementation, one
  commit for each call.
-/

universe u v w

namespace AtomicObject

variable {τ : Type u} {ο : Type v} {ρ : Type w}

/-- What the callers of an object see. -/
inductive CallEvent (ο : Type v) (ρ : Type w) where
  | call (i : Nat) (o : ο)
  | ret (i : Nat) (r : ρ)
deriving DecidableEq

/-- A call that has taken effect, with its answer. -/
structure Commit (ο : Type v) (ρ : Type w) where
  call : Nat
  op : ο
  result : ρ
deriving DecidableEq

/-- The calls in the order `cs` explain the history `h` of an object that starts in the
state `t`. -/
structure Linearization (spec : τ → ο → ρ × τ) (t : τ) (h : List (CallEvent ο ρ))
    (cs : List (Commit ο ρ)) : Prop where
  /-- Taken one after the other, the calls are answered as they were. -/
  legal : (runSpec spec t (cs.map (·.op))).1 = cs.map (·.result)
  once : (cs.map (·.call)).Nodup
  called : ∀ c ∈ cs, .call c.call c.op ∈ h
  answered : ∀ i r, .ret i r ∈ h → ∃ o, ⟨i, o, r⟩ ∈ cs
  /-- A call that had returned when another was made comes before it. -/
  ordered : ∀ h₁ h₂ i r, h = h₁ ++ .ret i r :: h₂ → ∀ j o, .call j o ∈ h₂ →
    ∀ cs₁ cs₂ c, cs = cs₁ ++ c :: cs₂ → c.call = j → i ∈ cs₁.map (·.call)

/-! ## The atomic object -/

/-- Where a call on the atomic object stands. -/
inductive Phase (ο : Type v) (ρ : Type w) where
  | called (o : ο)
  | committed (r : ρ)
  | returned

/-- The object, and the calls made so far by number. -/
structure State (τ : Type u) (ο : Type v) (ρ : Type w) where
  object : τ
  calls : List (Phase ο ρ)

inductive Action (ο : Type v) where
  | call (o : ο)
  | commit (i : Nat)
  | ret (i : Nat)

inductive Event (ο : Type v) (ρ : Type w) where
  | seen (e : CallEvent ο ρ)
  | commit (c : Commit ο ρ)

/-- What the callers see of a step. -/
def Event.shown : Event ο ρ → Option (CallEvent ο ρ)
  | .seen e => some e
  | .commit _ => none

/-- The call that takes effect in a step. -/
def Event.committed : Event ο ρ → Option (Commit ο ρ)
  | .seen _ => none
  | .commit c => some c

def step (spec : τ → ο → ρ × τ) (s : State τ ο ρ) :
    Action ο → Option (State τ ο ρ × Event ο ρ)
  | .call o =>
      some ({ s with calls := s.calls ++ [.called o] }, .seen (.call s.calls.length o))
  | .commit i =>
      match s.calls[i]? with
      | some (.called o) =>
          some ({ object := (spec s.object o).2,
                  calls := s.calls.set i (.committed (spec s.object o).1) },
            .commit ⟨i, o, (spec s.object o).1⟩)
      | _ => none
  | .ret i =>
      match s.calls[i]? with
      | some (.committed r) =>
          some ({ s with calls := s.calls.set i .returned }, .seen (.ret i r))
      | _ => none

/-- The object with the given specification, from the state `t` on. -/
def object (spec : τ → ο → ρ × τ) (t : τ) :
    StepSystem (State τ ο ρ) (Action ο) (Event ο ρ) where
  init := ⟨t, []⟩
  step := step spec

/-- What a history shows the callers. -/
abbrev shown (h : List (Event ο ρ)) : List (CallEvent ο ρ) :=
  h.filterMap Event.shown

/-- The calls in the order in which they took effect. -/
abbrev commits (h : List (Event ο ρ)) : List (Commit ο ρ) :=
  h.filterMap Event.committed

/-- What an action of the atomic object can do. -/
theorem step_cases {spec : τ → ο → ρ × τ} {s s' : State τ ο ρ} {a : Action ο}
    {e : Event ο ρ} (hstep : step spec s a = some (s', e)) :
    (∃ o, a = .call o ∧ s' = { s with calls := s.calls ++ [.called o] } ∧
      e = .seen (.call s.calls.length o)) ∨
    (∃ i o, a = .commit i ∧ s.calls[i]? = some (.called o) ∧
      s' = ⟨(spec s.object o).2, s.calls.set i (.committed (spec s.object o).1)⟩ ∧
      e = .commit ⟨i, o, (spec s.object o).1⟩) ∨
    (∃ i r, a = .ret i ∧ s.calls[i]? = some (.committed r) ∧
      s' = { s with calls := s.calls.set i .returned } ∧ e = .seen (.ret i r)) := by
  cases a with
  | call o =>
      cases hstep
      exact .inl ⟨o, rfl, rfl, rfl⟩
  | commit i =>
      unfold step at hstep
      dsimp only at hstep
      split at hstep
      · rename_i o hi
        cases hstep
        exact .inr (.inl ⟨i, o, rfl, hi, rfl, rfl⟩)
      · contradiction
  | ret i =>
      unfold step at hstep
      dsimp only at hstep
      split at hstep
      · rename_i r hi
        cases hstep
        exact .inr (.inr ⟨i, r, rfl, hi, rfl, rfl⟩)
      · contradiction

/-! ## The order of the commits -/

/-- What a run of the atomic object keeps: its commits linearize what was shown, and
every call under way stands where its phase says. -/
structure Inv (spec : τ → ο → ρ × τ) (t : τ) (h : List (Event ο ρ)) (s : State τ ο ρ) :
    Prop where
  linearization : Linearization spec t (shown h) (commits h)
  left : s.object = (runSpec spec t ((commits h).map (·.op))).2
  numbered : ∀ i ∈ (commits h).map (·.call), i < s.calls.length
  called : ∀ i o, s.calls[i]? = some (.called o) →
    .call i o ∈ shown h ∧ i ∉ (commits h).map (·.call)
  committed : ∀ i r, s.calls[i]? = some (.committed r) → ∃ o, ⟨i, o, r⟩ ∈ commits h

section Steps

variable {spec : τ → ο → ρ × τ} {t : τ}

theorem linearization_nil : Linearization spec t [] ([] : List (Commit ο ρ)) where
  legal := rfl
  once := List.nodup_nil
  called := by simp
  answered := by simp
  ordered := by simp

/-- A new call under a number that no call has. -/
theorem Linearization.snoc_call {h : List (CallEvent ο ρ)} {cs : List (Commit ο ρ)}
    (hlin : Linearization spec t h cs) {i : Nat} (hnew : i ∉ cs.map (·.call)) (o : ο) :
    Linearization spec t (h ++ [.call i o]) cs where
  legal := hlin.legal
  once := hlin.once
  called := fun c hc => List.mem_append_left _ (hlin.called c hc)
  answered := by
    intro j r hret
    rcases List.mem_append.mp hret with hret | hret
    · exact hlin.answered j r hret
    · simp at hret
  ordered := by
    intro h₁ h₂ j r heq k o' hcall cs₁ cs₂ c hcs hk
    rcases List.eq_nil_or_concat h₂ with rfl | ⟨h₂', x, rfl⟩
    · simp at hcall
    · rw [List.concat_eq_append, ← List.cons_append, ← List.append_assoc] at heq
      rcases List.append_inj' heq rfl with ⟨hinit, hlast⟩
      rw [List.concat_eq_append] at hcall
      rcases List.mem_append.mp hcall with hcall | hcall
      · exact hlin.ordered h₁ h₂' j r hinit k o' hcall cs₁ cs₂ c hcs hk
      · -- the call made last has not taken effect
        rw [← hlast] at hcall
        have hki : k = i := by
          simp only [List.mem_singleton, CallEvent.call.injEq] at hcall
          exact hcall.1
        subst hki
        refine absurd ?_ hnew
        rw [hcs, ← hk]
        simp

/-- A return of a call that has taken effect. -/
theorem Linearization.snoc_ret {h : List (CallEvent ο ρ)} {cs : List (Commit ο ρ)}
    (hlin : Linearization spec t h cs) {i : Nat} {o : ο} {r : ρ} (hmem : ⟨i, o, r⟩ ∈ cs) :
    Linearization spec t (h ++ [.ret i r]) cs where
  legal := hlin.legal
  once := hlin.once
  called := fun c hc => List.mem_append_left _ (hlin.called c hc)
  answered := by
    intro j r' hret
    rcases List.mem_append.mp hret with hret | hret
    · exact hlin.answered j r' hret
    · simp only [List.mem_singleton, CallEvent.ret.injEq] at hret
      rcases hret with ⟨rfl, rfl⟩
      exact ⟨o, hmem⟩
  ordered := by
    intro h₁ h₂ j r' heq k o' hcall cs₁ cs₂ c hcs hk
    rcases List.eq_nil_or_concat h₂ with rfl | ⟨h₂', x, rfl⟩
    · simp at hcall
    · rw [List.concat_eq_append, ← List.cons_append, ← List.append_assoc] at heq
      rcases List.append_inj' heq rfl with ⟨hinit, hlast⟩
      rw [List.concat_eq_append, List.mem_append] at hcall
      rcases hcall with hcall | hcall
      · exact hlin.ordered h₁ h₂' j r' hinit k o' hcall cs₁ cs₂ c hcs hk
      · rw [← hlast] at hcall
        simp at hcall

/-- A call that takes effect last, after all that have returned. -/
theorem Linearization.snoc_commit {h : List (CallEvent ο ρ)} {cs : List (Commit ο ρ)}
    (hlin : Linearization spec t h cs) {i : Nat} {o : ο} (hcall : .call i o ∈ h)
    (hnew : i ∉ cs.map (·.call)) :
    Linearization spec t h
      (cs ++ [⟨i, o, (spec (runSpec spec t (cs.map (·.op))).2 o).1⟩]) where
  legal := by
    rw [List.map_append, List.map_append, List.map_singleton, List.map_singleton,
      runSpec_concat, hlin.legal]
  once := by
    rw [List.map_append, List.map_singleton, List.nodup_append]
    exact ⟨hlin.once, List.nodup_singleton _, by
      intro a ha b hb
      rw [List.mem_singleton.mp hb]
      rintro rfl
      exact hnew ha⟩
  called := by
    intro c hc
    rcases List.mem_append.mp hc with hc | hc
    · exact hlin.called c hc
    · rw [List.mem_singleton.mp hc]
      exact hcall
  answered := by
    intro j r hret
    rcases hlin.answered j r hret with ⟨o', hmem⟩
    exact ⟨o', List.mem_append_left _ hmem⟩
  ordered := by
    intro h₁ h₂ j r heq k o' hcall' cs₁ cs₂ c hcs hk
    rcases List.eq_nil_or_concat cs₂ with rfl | ⟨cs₂', x, rfl⟩
    · rcases List.append_inj' hcs rfl with ⟨rfl, _⟩
      rcases hlin.answered j r (by simp [heq]) with ⟨o'', hmem⟩
      exact List.mem_map.mpr ⟨_, hmem, rfl⟩
    · rw [List.concat_eq_append, ← List.cons_append, ← List.append_assoc] at hcs
      exact hlin.ordered h₁ h₂ j r heq k o' hcall' cs₁ cs₂' c
        (List.append_inj' hcs rfl).1 hk

/-- One step of the atomic object keeps the invariant. -/
theorem inv_step {h : List (Event ο ρ)} {s s' : State τ ο ρ} {a : Action ο} {e : Event ο ρ}
    (hinv : Inv spec t h s) (hstep : step spec s a = some (s', e)) :
    Inv spec t (h ++ [e]) s' := by
  rcases step_cases hstep with ⟨o, rfl, rfl, rfl⟩ | ⟨i, o, rfl, hi, rfl, rfl⟩ |
    ⟨i, r, rfl, hi, rfl, rfl⟩
  · have hnew : s.calls.length ∉ (commits h).map (·.call) :=
      fun hmem => Nat.lt_irrefl _ (hinv.numbered _ hmem)
    have hshown : shown (h ++ [.seen (.call s.calls.length o)]) =
        shown h ++ [.call s.calls.length o] := by simp [Event.shown]
    have hcommits : commits (h ++ [.seen (.call s.calls.length o)]) = commits h := by
      simp [Event.committed]
    constructor
    · rw [hshown, hcommits]
      exact hinv.linearization.snoc_call hnew o
    · rw [hcommits]
      exact hinv.left
    · intro j hj
      rw [hcommits] at hj
      have hlt := hinv.numbered j hj
      simp only [List.length_append, List.length_singleton]
      omega
    · intro j o' hj
      rw [hshown, hcommits]
      rcases StepSystem.getElem?_append_cases hj with ⟨rfl, heq⟩ | hold
      · cases heq
        exact ⟨by simp, hnew⟩
      · exact (hinv.called j o' hold).imp_left (List.mem_append_left _)
    · intro j r hj
      rw [hcommits]
      rcases StepSystem.getElem?_append_cases hj with ⟨rfl, heq⟩ | hold
      · cases heq
      · exact hinv.committed j r hold
  · rcases hinv.called i o hi with ⟨hcall, hnew⟩
    have hshown : shown (h ++ [.commit ⟨i, o, (spec s.object o).1⟩]) = shown h := by
      simp [Event.shown]
    have hcommits : commits (h ++ [.commit ⟨i, o, (spec s.object o).1⟩]) =
        commits h ++ [⟨i, o, (spec s.object o).1⟩] := by simp [Event.committed]
    constructor
    · rw [hshown, hcommits, hinv.left]
      exact hinv.linearization.snoc_commit hcall hnew
    · rw [hcommits, List.map_append, List.map_singleton, runSpec_concat, ← hinv.left]
    · intro j hj
      rw [hcommits, List.map_append, List.mem_append] at hj
      rw [List.length_set]
      rcases hj with hj | hj
      · exact hinv.numbered j hj
      · rw [List.map_singleton, List.mem_singleton] at hj
        rw [hj]
        exact (List.getElem?_eq_some_iff.mp hi).1
    · intro j o' hj
      rw [hshown, hcommits]
      rcases StepSystem.getElem?_set_cases hj with ⟨rfl, heq⟩ | ⟨hne, hold⟩
      · cases heq
      · rcases hinv.called j o' hold with ⟨hcall', hnew'⟩
        refine ⟨hcall', ?_⟩
        rw [List.map_append, List.mem_append]
        rintro (hmem | hmem)
        · exact hnew' hmem
        · simp only [List.map_singleton, List.mem_singleton] at hmem
          exact hne hmem
    · intro j r hj
      rw [hcommits]
      rcases StepSystem.getElem?_set_cases hj with ⟨rfl, heq⟩ | ⟨_, hold⟩
      · cases heq
        exact ⟨o, by simp⟩
      · rcases hinv.committed j r hold with ⟨o', hmem⟩
        exact ⟨o', List.mem_append_left _ hmem⟩
  · rcases hinv.committed i r hi with ⟨o, hmem⟩
    have hshown : shown (h ++ [.seen (.ret i r)]) = shown h ++ [.ret i r] := by
      simp [Event.shown]
    have hcommits : commits (h ++ [.seen (.ret i r)]) = commits h := by
      simp [Event.committed]
    constructor
    · rw [hshown, hcommits]
      exact hinv.linearization.snoc_ret hmem
    · rw [hcommits]
      exact hinv.left
    · intro j hj
      rw [hcommits] at hj
      rw [List.length_set]
      exact hinv.numbered j hj
    · intro j o' hj
      rw [hshown, hcommits]
      rcases StepSystem.getElem?_set_cases hj with ⟨rfl, heq⟩ | ⟨_, hold⟩
      · cases heq
      · exact (hinv.called j o' hold).imp_left (List.mem_append_left _)
    · intro j r' hj
      rw [hcommits]
      rcases StepSystem.getElem?_set_cases hj with ⟨rfl, heq⟩ | ⟨_, hold⟩
      · cases heq
      · exact hinv.committed j r' hold

/-- The commits of a run linearize its history, and the object is left in the state that
the calls lead to in this order. -/
theorem linearization_of_run {h : List (Event ο ρ)} {s : State τ ο ρ}
    (hrun : (object spec t).Run StepSystem.Any h s) :
    Linearization spec t (shown h) (commits h) ∧
      s.object = (runSpec spec t ((commits h).map (·.op))).2 := by
  have hinv : Inv spec t h s := by
    refine hrun.invariant ?_ ?_
    · exact ⟨linearization_nil, rfl, by simp, by simp [object], by simp [object]⟩
    · intro h s a s' e _ hinv _ hstep
      exact inv_step hinv hstep
  exact ⟨hinv.linearization, hinv.left⟩

/-- The rule for an implementation: where every step is matched by at most one step of
the atomic object, the history of every run is linearizable. -/
theorem linearization_of_simulation {σ α ε : Type*} {M : StepSystem σ α ε}
    {G : StepSystem.Guard σ α ε} (R : List ε → σ → State τ ο ρ → Prop)
    (seen : ε → Option (CallEvent ο ρ)) (hinit : R [] M.init ⟨t, []⟩)
    (hstep : ∀ h s a s' e u, M.Run G h s → R h s u → G h s a → M.step s a = some (s', e) →
      (seen e = none ∧ R (h ++ [e]) s' u) ∨
        ∃ b u' d, step spec u b = some (u', d) ∧ d.shown = seen e ∧ R (h ++ [e]) s' u')
    {h : List ε} {s : σ} (hrun : M.Run G h s) :
    ∃ cs calls, Linearization spec t (h.filterMap seen) cs ∧
      R h s ⟨(runSpec spec t (cs.map (·.op))).2, calls⟩ := by
  rcases hrun.simulates (N := object spec t) R seen Event.shown hinit hstep with
    ⟨h', u, hrun', hseen, hR⟩
  rcases linearization_of_run hrun' with ⟨hlin, hleft⟩
  refine ⟨commits h', u.calls, hseen ▸ hlin, ?_⟩
  rw [← hleft]
  exact hR

end Steps

end AtomicObject
