import Mathlib.Data.List.Nodup
import Mathlib.Logic.Function.Basic
import SimpleMessenger.Foundations.StepSystem

/-!
# Queues under names

One first-in first-out queue for every name.  An element is put at the back of a
queue, taken from its front, or dropped together with all others of the queue.
The history of these effects is a list; every other statement here is about it.

Main results:

- Theorem {lit}`Leads.queue_eq`: since the last drop of a name, what was put there
  is what was taken from there followed by what is there.
- Theorem {lit}`Leads.taken_isPrefix_put`: between two drops, elements are taken in
  the order in which they were put, and none is skipped.
- Theorem {lit}`Leads.takes_sublist_puts`: over a whole history, drops included,
  elements are taken in the order in which they were put.
- Theorem {lit}`Leads.distinct`: elements put at most once are taken at most once.
-/

universe u v w

namespace NamedQueues

open StepSystem

variable {κ : Type u} {α : Type v} {ι : Type w}

/-! ## Effects -/

inductive Effect (κ : Type u) (α : Type v) where
  | idle
  | put (k : κ) (x : α)
  | take (k : κ) (x : α)
  | drop (k : κ)

def Effect.put? : Effect κ α → Option (κ × α)
  | .put k x => some (k, x)
  | _ => none

def Effect.take? : Effect κ α → Option (κ × α)
  | .take k x => some (k, x)
  | _ => none

def Effect.drops [DecidableEq κ] (k : κ) : Effect κ α → Bool
  | .drop k' => k = k'
  | _ => false

/-- All elements put, with the names they were put under, in order. -/
def puts (es : List (Effect κ α)) : List (κ × α) :=
  es.filterMap Effect.put?

/-- All elements taken, with the names they were taken from, in order. -/
def takes (es : List (Effect κ α)) : List (κ × α) :=
  es.filterMap Effect.take?

/-- The elements under one name. -/
def under [DecidableEq κ] (k : κ) (ps : List (κ × α)) : List α :=
  (ps.filter fun p => k = p.1).map (·.2)

/-- What an effect does to the queues. -/
inductive Does [DecidableEq κ] (q : κ → List α) : Effect κ α → (κ → List α) → Prop where
  | idle : Does q .idle q
  | put (k : κ) (x : α) : Does q (.put k x) (Function.update q k (q k ++ [x]))
  | take {k : κ} {x : α} {rest : List α} (hq : q k = x :: rest) :
      Does q (.take k x) (Function.update q k rest)
  | drop (k : κ) : Does q (.drop k) (Function.update q k [])

/-- The history leads from empty queues to the queues `q`. -/
inductive Leads [DecidableEq κ] : List (Effect κ α) → (κ → List α) → Prop where
  | start : Leads [] fun _ => []
  | step {es : List (Effect κ α)} {q q' : κ → List α} {e : Effect κ α} :
      Leads es q → Does q e q' → Leads (es ++ [e]) q'

theorem put?_eq_some_iff {e : Effect κ α} {k : κ} {x : α} :
    e.put? = some (k, x) ↔ e = .put k x := by
  cases e <;> simp [Effect.put?]

theorem take?_eq_some_iff {e : Effect κ α} {k : κ} {x : α} :
    e.take? = some (k, x) ↔ e = .take k x := by
  cases e <;> simp [Effect.take?]

theorem mem_puts {es : List (Effect κ α)} {k : κ} {x : α} :
    (k, x) ∈ puts es ↔ .put k x ∈ es := by
  simp [puts, put?_eq_some_iff]

theorem mem_takes {es : List (Effect κ α)} {k : κ} {x : α} :
    (k, x) ∈ takes es ↔ .take k x ∈ es := by
  simp [takes, take?_eq_some_iff]

theorem puts_snoc (es : List (Effect κ α)) (e : Effect κ α) :
    puts (es ++ [e]) = puts es ++ e.put?.toList := by
  cases e <;> simp [puts, Effect.put?]

theorem takes_snoc (es : List (Effect κ α)) (e : Effect κ α) :
    takes (es ++ [e]) = takes es ++ e.take?.toList := by
  cases e <;> simp [takes, Effect.take?]

variable [DecidableEq κ]

@[simp]
theorem under_nil (k : κ) : under k ([] : List (κ × α)) = [] :=
  rfl

@[simp]
theorem under_append (k : κ) (ps ps' : List (κ × α)) :
    under k (ps ++ ps') = under k ps ++ under k ps' := by
  simp [under]

@[simp]
theorem under_self (k : κ) (x : α) : under k [(k, x)] = [x] := by
  simp [under]

theorem under_of_ne {k k' : κ} (hne : k ≠ k') (x : α) : under k [(k', x)] = [] := by
  simp [under, hne]

/-! ## Order -/

/-- What was put under a name since its last drop, after one more effect. -/
theorem under_puts_snoc {k : κ} {e : Effect κ α} (hkeep : e.drops k = false)
    (es : List (Effect κ α)) :
    under k (puts (sinceLast (Effect.drops k) (es ++ [e]))) =
      under k (puts (sinceLast (Effect.drops k) es)) ++ under k e.put?.toList := by
  rw [sinceLast_snoc, hkeep, if_neg Bool.false_ne_true, puts_snoc, under_append]

/-- What was taken under a name since its last drop, after one more effect. -/
theorem under_takes_snoc {k : κ} {e : Effect κ α} (hkeep : e.drops k = false)
    (es : List (Effect κ α)) :
    under k (takes (sinceLast (Effect.drops k) (es ++ [e]))) =
      under k (takes (sinceLast (Effect.drops k) es)) ++ under k e.take?.toList := by
  rw [sinceLast_snoc, hkeep, if_neg Bool.false_ne_true, takes_snoc, under_append]

/-- Since the last drop of a name, what was put there is what was taken from
there followed by what is there. -/
theorem Leads.queue_eq {es : List (Effect κ α)} {q : κ → List α} (hleads : Leads es q)
    (k : κ) :
    under k (puts (sinceLast (Effect.drops k) es)) =
      under k (takes (sinceLast (Effect.drops k) es)) ++ q k := by
  induction hleads with
  | start => simp [puts, takes]
  | step _ hdoes ih =>
      cases hdoes with
      | idle =>
          rw [under_puts_snoc rfl, under_takes_snoc rfl, ih]
          simp [Effect.put?, Effect.take?]
      | put k' x =>
          rw [under_puts_snoc rfl, under_takes_snoc rfl, ih]
          rcases eq_or_ne k k' with rfl | hne
          · simp [Effect.put?, Effect.take?]
          · simp [Effect.put?, Effect.take?, under_of_ne hne, hne]
      | @take k' x rest hq =>
          rw [under_puts_snoc rfl, under_takes_snoc rfl, ih]
          rcases eq_or_ne k k' with rfl | hne
          · simp [Effect.put?, Effect.take?, hq]
          · simp [Effect.put?, Effect.take?, under_of_ne hne, hne]
      | drop k' =>
          rcases eq_or_ne k k' with rfl | hne
          · rw [sinceLast_snoc]
            simp [Effect.drops, puts, takes]
          · have hkeep : (Effect.drop k' : Effect κ α).drops k = false := by
              simpa [Effect.drops] using hne
            rw [under_puts_snoc hkeep, under_takes_snoc hkeep, ih]
            simp [Effect.put?, Effect.take?, hne]

/-- Between two drops of a name, elements are taken from there in the order in
which they were put there, and none is skipped. -/
theorem Leads.taken_isPrefix_put {es₁ es₂ : List (Effect κ α)} {q : κ → List α} {k : κ}
    (hleads : Leads (es₁ ++ es₂) q) (hstart : sinceLast (Effect.drops k) es₁ = [])
    (hfree : ∀ e ∈ es₂, e.drops k = false) :
    under k (takes es₂) <+: under k (puts es₂) := by
  have hqueue := hleads.queue_eq k
  rw [sinceLast_append hfree, hstart, List.nil_append] at hqueue
  exact ⟨q k, hqueue.symm⟩

/-- What was taken under a name, followed by what is there, is part of what was put there,
in the same order. -/
theorem Leads.takes_append_sublist {es : List (Effect κ α)} {q : κ → List α}
    (hleads : Leads es q) (k : κ) : (under k (takes es) ++ q k).Sublist (under k (puts es)) := by
  induction hleads with
  | start => exact List.Sublist.refl _
  | step _ hdoes ih =>
      rw [takes_snoc, puts_snoc, under_append, under_append]
      cases hdoes with
      | idle => simpa [Effect.put?, Effect.take?] using ih
      | put k' x =>
          rcases eq_or_ne k k' with rfl | hne
          · have hboth := ih.append (List.Sublist.refl [x])
            simpa [Effect.put?, Effect.take?] using hboth
          · simpa [Effect.put?, Effect.take?, under_of_ne hne, hne] using ih
      | @take k' x rest hq =>
          rcases eq_or_ne k k' with rfl | hne
          · rw [hq] at ih
            simpa [Effect.put?, Effect.take?] using ih
          · simpa [Effect.put?, Effect.take?, under_of_ne hne, hne] using ih
      | drop k' =>
          rcases eq_or_ne k k' with rfl | hne
          · have hprefix := (List.sublist_append_left (under k (takes _)) (_ : List α)).trans ih
            simpa [Effect.put?, Effect.take?] using hprefix
          · simpa [Effect.put?, Effect.take?, hne] using ih

/-- Over a whole history, elements are taken under a name in the order in which they were
put there. -/
theorem Leads.takes_sublist_puts {es : List (Effect κ α)} {q : κ → List α}
    (hleads : Leads es q) (k : κ) : (under k (takes es)).Sublist (under k (puts es)) :=
  (List.sublist_append_left _ _).trans (hleads.takes_append_sublist k)

/-! ## Origin -/

/-- An element of an updated queue is a new one or was there before. -/
theorem mem_update_cases {q : κ → List α} {k k' : κ} {l : List α} {x : α}
    (hx : x ∈ Function.update q k l k') : (k' = k ∧ x ∈ l) ∨ (k' ≠ k ∧ x ∈ q k') := by
  rcases eq_or_ne k' k with rfl | hne
  · exact .inl ⟨rfl, by simpa using hx⟩
  · exact .inr ⟨hne, by simpa [hne] using hx⟩

/-- An element in a queue was put there. -/
theorem Leads.put_of_mem {es : List (Effect κ α)} {q : κ → List α} (hleads : Leads es q)
    {k : κ} {x : α} (hx : x ∈ q k) : (k, x) ∈ puts es := by
  induction hleads with
  | start => contradiction
  | step _ hdoes ih =>
      rw [puts_snoc]
      cases hdoes with
      | idle => exact List.mem_append_left _ (ih hx)
      | put k' y =>
          rcases mem_update_cases hx with ⟨rfl, hboth⟩ | ⟨_, hold⟩
          · rcases List.mem_append.mp hboth with hold | hnew
            · exact List.mem_append_left _ (ih hold)
            · rw [List.mem_singleton.mp hnew]
              simp [Effect.put?]
          · exact List.mem_append_left _ (ih hold)
      | take hq =>
          rcases mem_update_cases hx with ⟨rfl, hrest⟩ | ⟨_, hold⟩
          · exact List.mem_append_left _ (ih (by simp [hq, hrest]))
          · exact List.mem_append_left _ (ih hold)
      | drop k' =>
          rcases mem_update_cases hx with ⟨_, hnone⟩ | ⟨_, hold⟩
          · contradiction
          · exact List.mem_append_left _ (ih hold)

/-- An element taken under a name was put there. -/
theorem Leads.put_of_take {es : List (Effect κ α)} {q : κ → List α} (hleads : Leads es q)
    {k : κ} {x : α} (hx : (k, x) ∈ takes es) : (k, x) ∈ puts es := by
  induction hleads with
  | start => contradiction
  | step hprev hdoes ih =>
      rw [puts_snoc]
      refine List.mem_append_left _ ?_
      rw [takes_snoc] at hx
      rcases List.mem_append.mp hx with hold | hnew
      · exact ih hold
      · cases hdoes with
        | take hq =>
            have hsame : (k, x) = _ := List.mem_singleton.mp hnew
            cases hsame
            exact hprev.put_of_mem (by simp [hq])
        | _ => contradiction

/-! ## Elements put at most once -/

/-- Told apart by `f`, no element is taken twice, is in a queue twice, or is still
in a queue after it was taken. -/
structure Distinct (f : α → ι) (es : List (Effect κ α)) (q : κ → List α) : Prop where
  takes_nodup : ((takes es).map fun p => f p.2).Nodup
  queue_nodup : ∀ k, ((q k).map f).Nodup
  queue_notMem : ∀ k, ∀ x ∈ q k, f x ∉ (takes es).map fun p => f p.2

section Steps

variable {f : α → ι} {es : List (Effect κ α)} {q : κ → List α}

omit [DecidableEq κ] in
theorem Distinct.idle (hold : Distinct f es q) : Distinct f (es ++ [.idle]) q := by
  have htakes : takes (es ++ [.idle]) = takes es := by
    simp [takes_snoc, Effect.take?]
  exact ⟨htakes ▸ hold.takes_nodup, hold.queue_nodup, htakes ▸ hold.queue_notMem⟩

/-- Putting an element that was not put before keeps the elements apart. -/
theorem Distinct.put (hold : Distinct f es q) (hleads : Leads es q) (k : κ) {x : α}
    (hfresh : f x ∉ (puts es).map fun p => f p.2) :
    Distinct f (es ++ [.put k x]) (Function.update q k (q k ++ [x])) := by
  have htakes : takes (es ++ [.put k x]) = takes es := by
    simp [takes_snoc, Effect.take?]
  have hnew : ∀ (k' : κ) (y : α), (k', y) ∈ puts es → f y ≠ f x := by
    intro k' y hy hfy
    exact hfresh (List.mem_map.mpr ⟨(k', y), hy, hfy⟩)
  refine ⟨htakes ▸ hold.takes_nodup, fun k' => ?_, fun k' y hy => ?_⟩
  · rcases eq_or_ne k' k with rfl | hne
    · rw [Function.update_self, List.map_append, List.map_singleton]
      refine List.nodup_append.mpr ⟨hold.queue_nodup k', List.nodup_singleton _, ?_⟩
      intro i hi j hj hij
      rcases List.mem_map.mp hi with ⟨y, hy, rfl⟩
      exact hnew k' y (hleads.put_of_mem hy) (hij.trans (List.mem_singleton.mp hj))
    · rw [Function.update_of_ne hne]
      exact hold.queue_nodup k'
  · rw [htakes]
    rcases mem_update_cases hy with ⟨rfl, hboth⟩ | ⟨_, hother⟩
    · rcases List.mem_append.mp hboth with hbefore | hlast
      · exact hold.queue_notMem k' y hbefore
      · intro hmem
        rcases List.mem_map.mp hmem with ⟨⟨k'', z⟩, hz, hfz⟩
        rw [List.mem_singleton.mp hlast] at hfz
        exact hnew k'' z (hleads.put_of_take hz) hfz
    · exact hold.queue_notMem k' y hother

/-- Taking from the front keeps the elements apart. -/
theorem Distinct.take (hold : Distinct f es q) (hleads : Leads es q) {k : κ} {x : α}
    {rest : List α} (hputs : ((puts es).map fun p => f p.2).Nodup) (hq : q k = x :: rest) :
    Distinct f (es ++ [.take k x]) (Function.update q k rest) := by
  have hx : x ∈ q k := by
    simp [hq]
  have htakes : (takes (es ++ [.take k x])).map (fun p => f p.2) =
      (takes es).map (fun p => f p.2) ++ [f x] := by
    simp [takes_snoc, Effect.take?]
  have hnodup : (f x :: rest.map f).Nodup := by
    simpa [hq] using hold.queue_nodup k
  refine ⟨?_, fun k' => ?_, fun k' y hy => ?_⟩
  · rw [htakes]
    refine List.nodup_append.mpr ⟨hold.takes_nodup, List.nodup_singleton _, ?_⟩
    intro i hi j hj hij
    rw [hij, List.mem_singleton.mp hj] at hi
    exact hold.queue_notMem k x hx hi
  · rcases eq_or_ne k' k with rfl | hne
    · rw [Function.update_self]
      exact (List.nodup_cons.mp hnodup).2
    · rw [Function.update_of_ne hne]
      exact hold.queue_nodup k'
  · rw [htakes, List.mem_append]
    intro hmem
    rcases mem_update_cases hy with ⟨rfl, hrest⟩ | ⟨hne, hother⟩
    · rcases hmem with hmem | hmem
      · exact hold.queue_notMem k' y (by simp [hq, hrest]) hmem
      · rw [← List.mem_singleton.mp hmem] at hnodup
        exact (List.nodup_cons.mp hnodup).1 (List.mem_map_of_mem hrest)
    · rcases hmem with hmem | hmem
      · exact hold.queue_notMem k' y hother hmem
      · -- both elements were put, so one put would carry two names
        have hsame := List.inj_on_of_nodup_map hputs (hleads.put_of_mem hother)
          (hleads.put_of_mem hx) (List.mem_singleton.mp hmem)
        exact hne (congrArg Prod.fst hsame)

theorem Distinct.drop (hold : Distinct f es q) (k : κ) :
    Distinct f (es ++ [.drop k]) (Function.update q k []) := by
  have htakes : takes (es ++ [.drop k]) = takes es := by
    simp [takes_snoc, Effect.take?]
  refine ⟨htakes ▸ hold.takes_nodup, fun k' => ?_, fun k' y hy => ?_⟩
  · rcases eq_or_ne k' k with rfl | hne
    · simp
    · rw [Function.update_of_ne hne]
      exact hold.queue_nodup k'
  · rw [htakes]
    rcases mem_update_cases hy with ⟨_, hnone⟩ | ⟨_, hother⟩
    · contradiction
    · exact hold.queue_notMem k' y hother

end Steps

/-- Elements put at most once are taken at most once. -/
theorem Leads.distinct {f : α → ι} {es : List (Effect κ α)} {q : κ → List α}
    (hleads : Leads es q) (hputs : ((puts es).map fun p => f p.2).Nodup) :
    Distinct f es q := by
  induction hleads with
  | start => exact ⟨by simp [takes], by simp, by simp⟩
  | step hprev hdoes ih =>
      rw [puts_snoc, List.map_append] at hputs
      have hold := ih (List.Nodup.of_append_left hputs)
      cases hdoes with
      | idle => exact hold.idle
      | put k x =>
          refine hold.put hprev k fun hmem => ?_
          exact List.disjoint_of_nodup_append hputs hmem (by simp [Effect.put?])
      | take hq => exact hold.take hprev (List.Nodup.of_append_left hputs) hq
      | drop k => exact hold.drop k

end NamedQueues
