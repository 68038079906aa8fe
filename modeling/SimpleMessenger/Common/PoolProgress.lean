import SimpleMessenger.Common.TaskExecution

/-!
# The pool comes to rest

What the safety statements about the pool leave open is whether anything happens at
all: every worker could sleep, or the destructor wait for ever.  A look at a full
queue and a spurious wake-up change nothing and may be repeated; every other step of a
call, a worker or the destructor uses up a part of a weight that only a new call adds
to.  A pool in which no such step is left has run all its tasks, or, once it is being
destroyed, has been joined.

Main results:

- Theorem {lit}`Steps.weight_lt`: every step of the pool that goes on lowers the weight.
- Theorem {lit}`comes_to_rest`: left alone, the pool runs every scheduled task after
  boundedly many steps, and all workers sleep.
- Theorem {lit}`destructor_joins`: once started, the destructor joins all workers after
  boundedly many steps.

Current gaps:

- A task returns; what the tasks of the TCP endpoint wait for is not bounded.
-/

universe u

namespace SimpleMessenger

open StepSystem

namespace ThreadManager

variable {F : Type u}

/-! ## The weight of what is left to do -/

/-- A call pushes, and its {lit}`notify_all` may wake every worker for nothing. -/
def Caller.weight : Caller F → Nat
  | .scheduling _ => threadPoolSize + 4
  | .notifying => threadPoolSize + 1
  | .returned => 0

def Worker.weight : Worker F → Nat
  | .locking | .woken => 1
  | .running _ => 2
  | .waiting | .returned | .threw => 0

def Destructor.weight : Destructor → Nat
  | .notCalled => 2 * threadPoolSize + 2
  | .notifying => 2 * threadPoolSize + 1
  | .joining i => threadPoolSize - i

/-- A bound on the steps that are left. -/
def State.weight (s : State F) : Nat :=
  (s.callers.map Caller.weight).sum + 2 * s.tasks.length +
    (s.workers.map Worker.weight).sum + s.destructor.weight

/-- Steps of the threads under way, other than looks at a full queue and spurious
wake-ups. -/
def State.goesOn (s : State F) : Action F → Bool
  | .scheduleTask _ => false
  | .caller c =>
      match s.callers[c]? with
      | some (.scheduling _) => !s.taskQueue.isFull
      | _ => true
  | .worker _ => true
  | .wake _ => false
  | .destructor => true

theorem weight_notify_le (worker : Worker F) : worker.notify.weight ≤ worker.weight + 1 := by
  cases worker <;> simp [Worker.notify, Worker.weight]

/-- {lit}`notify_all` costs one look at the queue for each worker at most. -/
theorem sum_weight_notify_le (workers : List (Worker F)) :
    ((workers.map Worker.notify).map Worker.weight).sum ≤
      (workers.map Worker.weight).sum + workers.length := by
  induction workers with
  | nil => simp
  | cons worker workers ih =>
      have hone := weight_notify_le worker
      simp only [List.map_cons, List.sum_cons, List.length_cons]
      omega

theorem Worker.Locks.weight_eq {worker : Worker F} (hlocks : worker.Locks) :
    worker.weight = 1 := by
  rcases hlocks with rfl | rfl <;> rfl

/-- Every step of the threads under way that goes on lowers the weight. -/
theorem Steps.weight_lt {s s' : State F} {a : Action F} {e : Event F} (hstep : Steps s a s' e)
    (hlength : s.workers.length = threadPoolSize) (hgoesOn : s.goesOn a = true) :
    s'.weight < s.weight := by
  have hnotified := sum_weight_notify_le s.workers
  cases hstep with
  | called newTask => simp [State.goesOn] at hgoesOn
  | foundFull hc hfull =>
      rw [State.goesOn, hc, CircularBuffer.Ring.isFull_eq] at hgoesOn
      simp [show s.taskQueue.contents.length = taskQueueSize.toNat from hfull] at hgoesOn
  | @pushed c newTask q hc hq =>
      have hsum := sum_map_set (p := .notifying) (f := Caller.weight) hc
      have hq' : q.contents.length = s.tasks.length + 1 := by simp [hq]
      simp only [State.weight, State.tasks, hq', Caller.weight] at hsum ⊢
      omega
  | callNotified hc =>
      have hsum := sum_map_set (p := .returned) (f := Caller.weight) hc
      simp only [State.weight, State.tasks, Caller.weight] at hsum ⊢
      omega
  | waited hw hlocks hempty hrunning =>
      have hsum := sum_map_set_lt (p := .waiting) (f := Worker.weight) hw
        (hlocks.weight_eq ▸ Nat.zero_lt_one)
      simp only [State.weight, State.tasks]
      omega
  | exited hw hlocks hempty hstopped =>
      have hsum := sum_map_set_lt (p := .returned) (f := Worker.weight) hw
        (hlocks.weight_eq ▸ Nat.zero_lt_one)
      simp only [State.weight, State.tasks]
      omega
  | @popped w worker task q hw hlocks hq =>
      have hsum := sum_map_set (p := .running task) (f := Worker.weight) hw
      have hq' : s.tasks.length = q.contents.length + 1 := by simp [hq]
      rw [hlocks.weight_eq] at hsum
      simp only [State.weight, State.tasks, Worker.weight] at hsum hq' ⊢
      omega
  | @finished w task hw =>
      have hlower : (Worker.locking : Worker F).weight < (Worker.running task).weight :=
        Nat.lt_succ_self 1
      have hsum := sum_map_set_lt hw hlower
      simp only [State.weight, State.tasks]
      omega
  | woke hw => simp [State.goesOn] at hgoesOn
  | stopped hd =>
      simp only [State.weight, State.tasks, hd, Destructor.weight]
      omega
  | stopNotified hd =>
      simp only [State.weight, State.tasks, hd, Destructor.weight]
      omega
  | @joined i hd hw =>
      have hlt : i < threadPoolSize := hlength ▸ (List.getElem?_eq_some_iff.mp hw).1
      simp only [State.weight, State.tasks, hd, Destructor.weight]
      omega

/-- Schedules that go on are bounded by the weight. -/
theorem weight_bounds {raw : CircularBuffer (Task F) taskQueueSize} {h h' : List (Event F)}
    {s s' : State F} {as : List (Action F)} (hlength : s.workers.length = threadPoolSize)
    (hexec : (threadManager raw).execFrom (fun _ s a => s.goesOn a) h s as = some (h', s')) :
    as.length + s'.weight ≤ s.weight := by
  refine execFrom_length_le (I := fun _ s => s.workers.length = threadPoolSize)
    (μ := State.weight) ?_ hlength hexec
  intro h s a s' e hlength hgoesOn hstep
  have hsteps := steps_of_step hstep
  exact ⟨hsteps.length_workers.trans hlength, hsteps.weight_lt hlength hgoesOn⟩

/-! ## What every run keeps -/

/-- What the workers have done agrees with how far the destructor is. -/
structure Sound (s : State F) : Prop where
  running : s.isRunning = true ↔ s.destructor = .notCalled
  noThrow : .threw ∉ s.workers
  returned : .returned ∈ s.workers → s.isRunning = false
  joining : ∀ i, s.destructor = .joining i → i ≤ threadPoolSize

/-- A worker goes on, not to its end in a pool that runs. -/
theorem Sound.goOn {s : State F} (hsound : Sound s) {w : Nat} {worker : Worker F}
    {q : CircularBuffer.Ring (Task F) taskQueueSize} (hthrow : worker ≠ .threw)
    (hreturned : worker = .returned → s.isRunning = false) :
    Sound { s with taskQueue := q, workers := s.workers.set w worker } where
  running := hsound.running
  noThrow := by
    intro hmem
    rcases List.mem_or_eq_of_mem_set hmem with hmem | heq
    · exact hsound.noThrow hmem
    · exact hthrow heq.symm
  returned := by
    intro hmem
    rcases List.mem_or_eq_of_mem_set hmem with hmem | heq
    · exact hsound.returned hmem
    · exact hreturned heq.symm
  joining := hsound.joining

theorem threw_mem_notify {workers : List (Worker F)} :
    .threw ∈ workers.map Worker.notify ↔ .threw ∈ workers := by
  have hiff : ∀ worker : Worker F, worker.notify = .threw ↔ worker = .threw := by
    intro worker
    cases worker <;> simp [Worker.notify]
  simp [hiff]

theorem Steps.sound {s s' : State F} {a : Action F} {e : Event F} (hstep : Steps s a s' e)
    (hlength : s.workers.length = threadPoolSize) (hsound : Sound s) : Sound s' := by
  cases hstep with
  | called newTask => exact ⟨hsound.running, hsound.noThrow, hsound.returned, hsound.joining⟩
  | foundFull hc hfull => exact hsound
  | pushed hc hq => exact ⟨hsound.running, hsound.noThrow, hsound.returned, hsound.joining⟩
  | callNotified hc =>
      exact ⟨hsound.running, mt threw_mem_notify.mp hsound.noThrow,
        fun hmem => hsound.returned (returned_mem_notify.mp hmem), hsound.joining⟩
  | waited hw hlocks hempty hrunning => exact hsound.goOn (by simp) (by simp)
  | exited hw hlocks hempty hstopped => exact hsound.goOn (by simp) (fun _ => hstopped)
  | popped hw hlocks hq => exact hsound.goOn (by simp) (by simp)
  | finished hw => exact hsound.goOn (by simp) (by simp)
  | woke hw => exact hsound.goOn (by simp) (by simp)
  | stopped hd =>
      exact ⟨by simp, hsound.noThrow, fun _ => rfl, fun i hi => by simp at hi⟩
  | stopNotified hd =>
      refine ⟨?_, mt threw_mem_notify.mp hsound.noThrow,
        fun hmem => hsound.returned (returned_mem_notify.mp hmem), ?_⟩
      · have hrunning := hsound.running
        rw [hd] at hrunning
        simpa using hrunning
      · intro i hi
        cases hi
        exact Nat.zero_le _
  | @joined i hd hw =>
      refine ⟨?_, hsound.noThrow, hsound.returned, ?_⟩
      · have hrunning := hsound.running
        rw [hd] at hrunning
        simpa using hrunning
      · intro j hj
        cases hj
        exact hlength ▸ (List.getElem?_eq_some_iff.mp hw).1

theorem sound_of_run {raw : CircularBuffer (Task F) taskQueueSize}
    {G : Guard (State F) (Action F) (Event F)} {h : List (Event F)} {s : State F}
    (hrun : (threadManager raw).Run G h s) : Sound s := by
  refine Run.invariant (I := fun _ s => Sound s) ?_ ?_ hrun
  · refine ⟨by simp [threadManager], ?_, ?_, by simp [threadManager]⟩
    · intro hmem
      cases List.eq_of_mem_replicate hmem
    · intro hmem
      cases List.eq_of_mem_replicate hmem
  · intro h s a s' e hrun hsound _ hstep
    exact (steps_of_step hstep).sound (length_workers_of_run hrun) hsound

/-! ## A pool at rest -/

/-- No call and no worker goes on. -/
def State.Rests (s : State F) : Prop :=
  ∀ a, a ≠ .destructor → s.goesOn a = true → step s a = none

/-- A worker at rest is blocked or at its end. -/
theorem State.Rests.worker {s : State F} (hrests : s.Rests) {worker : Worker F}
    (hmem : worker ∈ s.workers) :
    worker = .waiting ∨ worker = .returned ∨ worker = .threw := by
  rcases List.mem_iff_getElem?.mp hmem with ⟨w, hw⟩
  have hstuck := hrests (.worker w) (by simp) rfl
  simp only [step, hw, Option.bind_some] at hstuck
  cases worker with
  | waiting => exact .inl rfl
  | returned => exact .inr (.inl rfl)
  | threw => exact .inr (.inr rfl)
  | locking => cases hstuck
  | woken => cases hstuck
  | running task => cases hstuck

theorem State.Rests.not_notifying {s : State F} (hrests : s.Rests) :
    .notifying ∉ s.callers := by
  intro hmem
  rcases List.mem_iff_getElem?.mp hmem with ⟨c, hc⟩
  have hstuck := hrests (.caller c) (by simp) (by simp [State.goesOn, hc])
  simp [step, hc, scheduleTask] at hstuck

/-- With room in the queue, no call waits. -/
theorem State.Rests.caller {s : State F} (hrests : s.Rests) (hempty : s.tasks = []) :
    ∀ caller ∈ s.callers, caller = .returned := by
  intro caller hmem
  have hfull : s.taskQueue.isFull = false := by
    rw [CircularBuffer.Ring.isFull_eq, show s.taskQueue.contents = [] from hempty]
    rfl
  cases caller with
  | returned => rfl
  | notifying => exact absurd hmem hrests.not_notifying
  | scheduling newTask =>
      rcases List.mem_iff_getElem?.mp hmem with ⟨c, hc⟩
      have hstuck := hrests (.caller c) (by simp) (by simp [State.goesOn, hc, hfull])
      simp [step, hc, scheduleTask, hfull] at hstuck

/-- Calls that have returned and workers that sleep or have returned do not go on. -/
theorem rests_of_all {s : State F} (hcallers : ∀ caller ∈ s.callers, caller = .returned)
    (hworkers : ∀ worker ∈ s.workers, worker = .waiting ∨ worker = .returned) : s.Rests := by
  intro a hne hgoesOn
  cases a with
  | scheduleTask newTask => simp [State.goesOn] at hgoesOn
  | wake w => simp [State.goesOn] at hgoesOn
  | destructor => exact absurd rfl hne
  | caller c =>
      cases hc : s.callers[c]? with
      | none => simp [step, hc]
      | some caller =>
          simp [step, hc, hcallers caller (List.mem_of_getElem? hc), ThreadManager.scheduleTask]
  | worker w =>
      cases hw : s.workers[w]? with
      | none => simp [step, hw]
      | some worker =>
          rcases hworkers worker (List.mem_of_getElem? hw) with rfl | rfl
          · simp [step, hw, taskQueueHandling]
          · simp [step, hw, taskQueueHandling]

/-- Where no task is with a call, in the queue or at a worker, all have been run. -/
theorem Tracked.finished_perm {h : List (Event F)} {s : State F} (ht : Tracked h s)
    (hunscheduled : s.unscheduled = []) (hempty : s.tasks = []) (hprogress : s.inProgress = []) :
    (finished h).Perm (called h) := by
  have hcalled : (called h).Perm (pushed h) := by
    simpa [hunscheduled] using ht.called_perm
  have hpushed : pushed h = (taken h).map (·.2) := by
    simpa [hempty] using ht.pushed_eq
  have htaken : ((taken h).map (·.2)).Perm (finished h) := by
    simpa [hprogress] using ht.taken_perm
  rw [hpushed] at hcalled
  exact (hcalled.trans htaken).symm

/-- Left alone, the pool runs out of steps, and when it has, all calls have returned, every
scheduled task has been run, and all workers sleep beside an empty queue. -/
theorem comes_to_rest {raw : CircularBuffer (Task F) taskQueueSize} {h : List (Event F)}
    {s : State F} (hrun : (threadManager raw).Run Any h s) :
    (∀ as h' s', (threadManager raw).execFrom (fun _ s a => s.goesOn a) h s as = some (h', s') →
      as.length + s'.weight ≤ s.weight) ∧
    (s.Rests → s.destructor = .notCalled →
      (∀ caller ∈ s.callers, caller = .returned) ∧ (∀ worker ∈ s.workers, worker = .waiting) ∧
        s.tasks = [] ∧ (finished h).Perm (called h)) := by
  have hlength := length_workers_of_run hrun
  refine ⟨fun as h' s' hexec => weight_bounds hlength hexec, ?_⟩
  intro hrests hnot
  have hsound := sound_of_run hrun
  have hworkers : ∀ worker ∈ s.workers, worker = .waiting := by
    intro worker hmem
    rcases hrests.worker hmem with hwaiting | hreturned | hthrew
    · exact hwaiting
    · have hstopped := hsound.returned (hreturned ▸ hmem)
      rw [hsound.running.mpr hnot] at hstopped
      cases hstopped
    · exact absurd (hthrew ▸ hmem) hsound.noThrow
  have hsleeps : s.Sleeps := by
    have hpos : 0 < s.workers.length := by
      rw [hlength]
      decide
    have hfirst := List.getElem_mem hpos
    rw [hworkers _ hfirst] at hfirst
    exact hfirst
  have hempty : s.tasks = [] := by
    rcases watched_of_run hrun hsleeps with hidle | hcaller | hdestructor
    · exact hidle.1
    · exact absurd hcaller hrests.not_notifying
    · rw [hnot] at hdestructor
      cases hdestructor
  have hcallers := hrests.caller hempty
  have hprogress : s.inProgress = [] := by
    refine List.filterMap_eq_nil_iff.mpr fun worker hmem => ?_
    rw [hworkers worker hmem]
    rfl
  exact ⟨hcallers, hworkers, hempty,
    (tracked_of_run hrun).finished_perm (unscheduled_eq_nil hcallers) hempty hprogress⟩

/-- Two sleeping workers take the two tasks of two calls, then sleep again. -/
def sleepAgain : List (Action Nat) :=
  [.worker 0, .worker 1, .worker 2, .worker 3, .scheduleTask 7, .scheduleTask 8, .caller 0,
    .caller 1, .caller 0, .worker 2, .worker 1, .caller 1, .worker 1, .worker 2, .worker 0,
    .worker 1, .worker 2, .worker 3]

/-- Both tasks are done when nothing is left to do. -/
theorem comes_to_rest_sleepAgain :
    ∃ h s, (threadManager someMemory).exec sleepAgain = some (h, s) ∧ s.tasks = [] ∧
      (finished h).Perm [⟨7, 0⟩, ⟨8, 1⟩] := by
  have hfinal : ((threadManager someMemory).exec sleepAgain).map
      (fun r => (r.2.callers, r.2.workers, r.2.destructor, called r.1)) =
        some ([.returned, .returned], [.waiting, .waiting, .waiting, .waiting], .notCalled,
          [⟨7, 0⟩, ⟨8, 1⟩]) := by
    decide +kernel
  rcases Option.map_eq_some_iff.mp hfinal with ⟨⟨h, s⟩, hexec, hstate⟩
  simp only [Prod.mk.injEq] at hstate
  rcases hstate with ⟨hcallers, hworkers, hnot, hcalled⟩
  have hrests : s.Rests := rests_of_all (by simp [hcallers]) (by simp [hworkers])
  rcases (comes_to_rest (Run.of_exec hexec)).2 hrests hnot with ⟨_, _, hempty, hperm⟩
  exact ⟨h, s, hexec, hempty, hcalled ▸ hperm⟩

/-- Once started, the destructor runs out of steps only after it has joined all workers;
then all of them have returned, and if all calls had returned before it started, every
scheduled task has been run. -/
theorem destructor_joins {raw : CircularBuffer (Task F) taskQueueSize} {h : List (Event F)}
    {s : State F} (hrun : (threadManager raw).Run Any h s) (hcalled : s.destructor ≠ .notCalled) :
    (∀ as h' s', (threadManager raw).execFrom (fun _ s a => s.goesOn a) h s as = some (h', s') →
      as.length + s'.weight ≤ s.weight) ∧
    (s.Rests → step s .destructor = none →
      s.destructor = .joining threadPoolSize ∧ (∀ worker ∈ s.workers, worker = .returned) ∧
        ((threadManager raw).Run CallsReturnFirst h s → (finished h).Perm (called h))) := by
  have hlength := length_workers_of_run hrun
  refine ⟨fun as h' s' hexec => weight_bounds hlength hexec, ?_⟩
  intro hrests hstuck
  have hsound := sound_of_run hrun
  have hstopped : s.isRunning ≠ true := mt hsound.running.mp hcalled
  have hjoining : ∃ i, s.destructor = .joining i := by
    cases hd : s.destructor with
    | notCalled => exact absurd hd hcalled
    | notifying => simp [step, hd, destroy] at hstuck
    | joining i => exact ⟨i, rfl⟩
  rcases hjoining with ⟨i, hi⟩
  have hworkers : ∀ worker ∈ s.workers, worker = .returned := by
    intro worker hmem
    rcases hrests.worker hmem with hwaiting | hreturned | hthrew
    · -- a worker that still sleeps has missed nothing
      have hsleeps : s.Sleeps := by
        rw [hwaiting] at hmem
        exact hmem
      rcases watched_of_run hrun hsleeps with hidle | hcaller | hdestructor
      · exact absurd hidle.2 hstopped
      · exact absurd hcaller hrests.not_notifying
      · rw [hi] at hdestructor
        cases hdestructor
    · exact hreturned
    · exact absurd (hthrew ▸ hmem) hsound.noThrow
  have hall : threadPoolSize ≤ i := by
    by_contra hlt
    have hlt' : i < s.workers.length := by omega
    have hw : s.workers[i]? = some .returned := by
      rw [List.getElem?_eq_getElem hlt', hworkers _ (List.getElem_mem hlt')]
    simp [step, hi, destroy, hw] at hstuck
  have hdone : s.destructor = .joining threadPoolSize := by
    rw [hi, Nat.le_antisymm (hsound.joining i hi) hall]
  refine ⟨hdone, hworkers, fun hfirst => ?_⟩
  rcases (draining_of_run hfirst).nothing_left hlength hdone with
    ⟨hunscheduled, hempty, hprogress⟩
  exact (tracked_of_run hrun).finished_perm hunscheduled hempty hprogress

/-- The shutdown beside a running and a queued task ends with both done. -/
theorem destructor_joins_twoTasks :
    ∃ h s, (threadManager someMemory).execFrom callsReturnFirst []
        (threadManager someMemory).init twoTasks = some (h, s) ∧
      s.destructor = .joining threadPoolSize ∧ (finished h).Perm [⟨7, 0⟩, ⟨8, 1⟩] := by
  have hfinal : ((threadManager someMemory).execFrom callsReturnFirst []
        (threadManager someMemory).init twoTasks).map
      (fun r => (r.2.callers, r.2.workers, r.2.destructor, called r.1)) =
        some ([.returned, .returned], [.returned, .returned, .returned, .returned], .joining 4,
          [⟨7, 0⟩, ⟨8, 1⟩]) := by
    decide +kernel
  rcases Option.map_eq_some_iff.mp hfinal with ⟨⟨h, s⟩, hexec, hstate⟩
  simp only [Prod.mk.injEq] at hstate
  rcases hstate with ⟨hcallers, hworkers, hjoining, hcalled⟩
  have hstuck : step s .destructor = none := by simp [step, destroy, hjoining, hworkers]
  have hfirst := Run.of_execFrom callsReturnFirst_guard .start hexec
  have hrests : s.Rests := rests_of_all (by simp [hcallers]) (by simp [hworkers])
  have hrun : (threadManager someMemory).Run Any h s := hfirst.mono fun _ _ _ _ => trivial
  rcases (destructor_joins hrun (by simp [hjoining])).2 hrests hstuck with ⟨hdone, _, hperm⟩
  exact ⟨h, s, hexec, hdone, hcalled ▸ hperm hfirst⟩

end ThreadManager

end SimpleMessenger
