import SimpleMessenger.Common.CircularBuffer
import SimpleMessenger.Foundations.StepSystem

/-!
# The thread pool of `ThreadManager.cpp`

Four workers take tasks out of a queue that any number of {lit}`schedule_task`
calls fill; the destructor asks the workers to return and joins them.  Every stretch
under {lit}`task_queue_mtx` is one step, and so is each {lit}`notify_all`, which the
code makes after it has released the mutex.  Waiting on the condition variable
releases the mutex and blocks in one step; a worker that is notified, or wakes
spuriously, takes the mutex again and looks at the predicate once more.

Main results:

- Theorem {lit}`steps_of_step`: the kinds of steps; no push fails and no pop meets
  an empty queue.
- Theorem {lit}`noLostWakeUp`: a worker sleeps beside a task or a request to stop
  only while a notification is on its way.

Current gaps:

- A task neither throws nor calls into the pool, so that running it is one step
  without effect on the pool.
-/

universe u

namespace SimpleMessenger

open StepSystem

namespace ThreadManager

/-! ## Workers, calls and the destructor -/

/-- `thread_pool_size` -/
abbrev threadPoolSize : Nat := 4

/-- `task_queue_size` -/
abbrev taskQueueSize : UInt64 := 4

/-- A scheduled function, with the number of the call that it came with. -/
structure Task (F : Type u) where
  function : F
  call : Nat
deriving DecidableEq

/-- Where a call of `schedule_task` stands. -/
inductive Caller (F : Type u) where
  /-- Before it locks the mutex, for the first time or after a sleep. -/
  | scheduling (newTask : Task F)
  /-- Between the critical section and `notify_all`. -/
  | notifying
  | returned
deriving DecidableEq

/-- Where a thread of the pool stands. -/
inductive Worker (F : Type u) where
  /-- Before it locks the mutex. -/
  | locking
  /-- Blocked in `task_queue_cv.wait` and not notified yet. -/
  | waiting
  /-- Notified, before it has the mutex again. -/
  | woken
  | running (task : Task F)
  | returned
  /-- `value()` threw on an empty optional. -/
  | threw
deriving DecidableEq

/-- Where the destructor stands. -/
inductive Destructor where
  | notCalled
  /-- Between the critical section and `notify_all`. -/
  | notifying
  /-- Before it joins `thread_pool[i]`. -/
  | joining (i : Nat)
deriving DecidableEq

/-- The pool and all that work on it. -/
structure State (F : Type u) where
  taskQueue : CircularBuffer.Ring (Task F) taskQueueSize
  isRunning : Bool
  callers : List (Caller F)
  workers : List (Worker F)
  destructor : Destructor

inductive Action (F : Type u) where
  /-- A call of `schedule_task` starts. -/
  | scheduleTask (newTask : F)
  /-- The next step of call `c`. -/
  | caller (c : Nat)
  /-- The next step of worker `w`. -/
  | worker (w : Nat)
  /-- Worker `w` wakes up without a notification. -/
  | wake (w : Nat)
  /-- The next step of the destructor. -/
  | destructor

inductive Event (F : Type u) where
  | called (task : Task F)
  | foundFull (task : Task F)
  | pushed (task : Task F) (ok : Bool)
  | notifiedAll
  | waited (w : Nat)
  | woke (w : Nat)
  | popped (w : Nat) (task : Task F)
  | poppedNothing (w : Nat)
  | finished (w : Nat) (task : Task F)
  | exited (w : Nat)
  | stopped
  | joined (w : Nat)
deriving DecidableEq

variable {F : Type u}

/-! ## Steps -/

/-- The tasks in the queue, the next one to be taken first. -/
def State.tasks (s : State F) : List (Task F) :=
  s.taskQueue.contents

/-- What `notify_all` does to a worker. -/
def Worker.notify : Worker F → Worker F
  | .waiting => .woken
  | worker => worker

/-- The next step of a call of `schedule_task`.  A full queue sends it to sleep. -/
def scheduleTask (s : State F) (c : Nat) : Caller F → Option (State F × Event F)
  | .scheduling newTask =>
      if s.taskQueue.isFull then some (s, .foundFull newTask)
      else
        let (ok, taskQueue) := s.taskQueue.push newTask
        some ({ s with taskQueue := taskQueue, callers := s.callers.set c .notifying },
          .pushed newTask ok)
  | .notifying =>
      some ({ s with callers := s.callers.set c .returned,
                     workers := s.workers.map Worker.notify }, .notifiedAll)
  | .returned => none

/-- Worker `w` under the mutex: it waits, returns or takes a task. -/
def lockedSection (s : State F) (w : Nat) : State F × Event F :=
  let become := fun (worker : Worker F) => s.workers.set w worker
  if !(!s.taskQueue.isEmpty || !s.isRunning) then
    ({ s with workers := become .waiting }, .waited w)
  else if !s.isRunning && s.taskQueue.isEmpty then
    ({ s with workers := become .returned }, .exited w)
  else
    match s.taskQueue.pop with
    | (some task, taskQueue) =>
        ({ s with taskQueue := taskQueue, workers := become (.running task) }, .popped w task)
    | (none, taskQueue) =>
        ({ s with taskQueue := taskQueue, workers := become .threw }, .poppedNothing w)

/-- The next step of a worker. -/
def taskQueueHandling (s : State F) (w : Nat) : Worker F → Option (State F × Event F)
  | .locking => some (lockedSection s w)
  | .waiting => none
  | .woken => some (lockedSection s w)
  | .running task => some ({ s with workers := s.workers.set w .locking }, .finished w task)
  | .returned => none
  | .threw => none

/-- A spurious wake-up. -/
def wake (s : State F) (w : Nat) : Worker F → Option (State F × Event F)
  | .waiting => some ({ s with workers := s.workers.set w .woken }, .woke w)
  | _ => none

/-- The next step of the destructor; a join waits for the thread to return. -/
def destroy (s : State F) : Destructor → Option (State F × Event F)
  | .notCalled => some ({ s with isRunning := false, destructor := .notifying }, .stopped)
  | .notifying =>
      some ({ s with workers := s.workers.map Worker.notify, destructor := .joining 0 },
        .notifiedAll)
  | .joining i =>
      match s.workers[i]? with
      | some .returned => some ({ s with destructor := .joining (i + 1) }, .joined i)
      | _ => none

def step (s : State F) : Action F → Option (State F × Event F)
  | .scheduleTask newTask =>
      let task : Task F := { function := newTask, call := s.callers.length }
      some ({ s with callers := s.callers ++ [.scheduling task] }, .called task)
  | .caller c => s.callers[c]?.bind (scheduleTask s c)
  | .worker w => s.workers[w]?.bind (taskQueueHandling s w)
  | .wake w => s.workers[w]?.bind (wake s w)
  | .destructor => destroy s s.destructor

/-- A pool with its threads spawned, its queue constructed in the memory `raw`. -/
def threadManager (raw : CircularBuffer (Task F) taskQueueSize) :
    StepSystem (State F) (Action F) (Event F) where
  init :=
    { taskQueue := .construct (by decide) raw
      isRunning := true
      callers := []
      workers := List.replicate threadPoolSize .locking
      destructor := .notCalled }
  step := step

/-! ## The kinds of steps -/

/-- The worker is about to lock the mutex. -/
def Worker.Locks (worker : Worker F) : Prop :=
  worker = .locking ∨ worker = .woken

/-- What a step can be, and what the queue is before and after it. -/
inductive Steps (s : State F) : Action F → State F → Event F → Prop where
  | called (newTask : F) :
      Steps s (.scheduleTask newTask)
        { s with callers := s.callers ++ [.scheduling ⟨newTask, s.callers.length⟩] }
        (.called ⟨newTask, s.callers.length⟩)
  | foundFull {c : Nat} {newTask : Task F} (hc : s.callers[c]? = some (.scheduling newTask))
      (hfull : s.tasks.length = taskQueueSize.toNat) :
      Steps s (.caller c) s (.foundFull newTask)
  | pushed {c : Nat} {newTask : Task F} {q : CircularBuffer.Ring (Task F) taskQueueSize}
      (hc : s.callers[c]? = some (.scheduling newTask))
      (hq : q.contents = s.tasks ++ [newTask]) :
      Steps s (.caller c) { s with taskQueue := q, callers := s.callers.set c .notifying }
        (.pushed newTask true)
  | callNotified {c : Nat} (hc : s.callers[c]? = some .notifying) :
      Steps s (.caller c)
        { s with callers := s.callers.set c .returned
                 workers := s.workers.map Worker.notify } .notifiedAll
  | waited {w : Nat} {worker : Worker F} (hw : s.workers[w]? = some worker)
      (hlocks : worker.Locks) (hempty : s.tasks = []) (hrunning : s.isRunning = true) :
      Steps s (.worker w) { s with workers := s.workers.set w .waiting } (.waited w)
  | exited {w : Nat} {worker : Worker F} (hw : s.workers[w]? = some worker)
      (hlocks : worker.Locks) (hempty : s.tasks = []) (hstopped : s.isRunning = false) :
      Steps s (.worker w) { s with workers := s.workers.set w .returned } (.exited w)
  | popped {w : Nat} {worker : Worker F} {task : Task F}
      {q : CircularBuffer.Ring (Task F) taskQueueSize} (hw : s.workers[w]? = some worker)
      (hlocks : worker.Locks) (hq : s.tasks = task :: q.contents) :
      Steps s (.worker w) { s with taskQueue := q, workers := s.workers.set w (.running task) }
        (.popped w task)
  | finished {w : Nat} {task : Task F} (hw : s.workers[w]? = some (.running task)) :
      Steps s (.worker w) { s with workers := s.workers.set w .locking } (.finished w task)
  | woke {w : Nat} (hw : s.workers[w]? = some .waiting) :
      Steps s (.wake w) { s with workers := s.workers.set w .woken } (.woke w)
  | stopped (hd : s.destructor = .notCalled) :
      Steps s .destructor { s with isRunning := false, destructor := .notifying } .stopped
  | stopNotified (hd : s.destructor = .notifying) :
      Steps s .destructor
        { s with workers := s.workers.map Worker.notify, destructor := .joining 0 } .notifiedAll
  | joined {i : Nat} (hd : s.destructor = .joining i)
      (hw : s.workers[i]? = some .returned) :
      Steps s .destructor { s with destructor := .joining (i + 1) } (.joined i)

theorem steps_of_scheduleTask {s s' : State F} {c : Nat} {caller : Caller F} {e : Event F}
    (hc : s.callers[c]? = some caller) (hstep : scheduleTask s c caller = some (s', e)) :
    Steps s (.caller c) s' e := by
  cases caller with
  | scheduling newTask =>
      have hfull := s.taskQueue.isFull_eq
      simp only [scheduleTask] at hstep
      split at hstep <;> rename_i hif
      · cases hstep
        rw [hfull, beq_iff_eq] at hif
        exact .foundFull hc hif
      · -- the queue is not full, so that the push succeeds and appends
        have hroom : s.taskQueue.contents.length < taskQueueSize.toNat := by
          rw [hfull, beq_iff_eq] at hif
          exact lt_of_le_of_ne s.taskQueue.length_contents_le hif
        rcases s.taskQueue.push_eq newTask with ⟨hok, hcontents⟩
        rw [if_pos hroom] at hcontents
        cases hstep
        rw [hok, decide_eq_true hroom]
        exact .pushed hc hcontents
  | notifying =>
      cases hstep
      exact .callNotified hc
  | returned => cases hstep

/-- Under the mutex a worker that does not wait and does not return finds a task. -/
theorem steps_of_lockedSection {s s' : State F} {w : Nat} {worker : Worker F} {e : Event F}
    (hw : s.workers[w]? = some worker) (hlocks : worker.Locks)
    (hstep : some (lockedSection s w) = some (s', e)) : Steps s (.worker w) s' e := by
  have hpair : lockedSection s w = (s', e) := Option.some.inj hstep
  by_cases hempty : s.tasks = []
  · have hflag : s.taskQueue.isEmpty = true := CircularBuffer.Ring.isEmpty_iff.mpr hempty
    by_cases hrunning : s.isRunning = true
    · have hsection : lockedSection s w =
          ({ s with workers := s.workers.set w .waiting }, .waited w) := by
        simp [lockedSection, hflag, hrunning]
      rw [hsection] at hpair
      cases hpair
      exact .waited hw hlocks hempty hrunning
    · have hstopped : s.isRunning = false := eq_false_of_ne_true hrunning
      have hsection : lockedSection s w =
          ({ s with workers := s.workers.set w .returned }, .exited w) := by
        simp [lockedSection, hflag, hstopped]
      rw [hsection] at hpair
      cases hpair
      exact .exited hw hlocks hempty hstopped
  · have hflag : s.taskQueue.isEmpty = false :=
      eq_false_of_ne_true fun htrue => hempty (CircularBuffer.Ring.isEmpty_iff.mp htrue)
    rcases List.exists_cons_of_ne_nil hempty with ⟨task, rest, hcons⟩
    rcases s.taskQueue.pop_eq with ⟨hitem, hcontents⟩
    rw [show s.taskQueue.contents = task :: rest from hcons] at hitem hcontents
    rcases hpop : s.taskQueue.pop with ⟨item, q⟩
    rw [hpop] at hitem hcontents
    cases hitem
    have hsection : lockedSection s w =
        ({ s with taskQueue := q, workers := s.workers.set w (.running task) },
          .popped w task) := by
      simp [lockedSection, hflag, hpop]
    rw [hsection] at hpair
    cases hpair
    exact .popped hw hlocks (by rw [hcons, hcontents, List.tail_cons])

theorem steps_of_taskQueueHandling {s s' : State F} {w : Nat} {worker : Worker F} {e : Event F}
    (hw : s.workers[w]? = some worker) (hstep : taskQueueHandling s w worker = some (s', e)) :
    Steps s (.worker w) s' e := by
  cases worker with
  | locking =>
      exact steps_of_lockedSection hw (.inl rfl) hstep
  | waiting => cases hstep
  | woken =>
      exact steps_of_lockedSection hw (.inr rfl) hstep
  | running task =>
      cases hstep
      exact .finished hw
  | returned => cases hstep
  | threw => cases hstep

theorem steps_of_destroy {s s' : State F} {e : Event F}
    (hstep : destroy s s.destructor = some (s', e)) : Steps s .destructor s' e := by
  cases hd : s.destructor with
  | notCalled =>
      rw [hd] at hstep
      cases hstep
      exact .stopped hd
  | notifying =>
      rw [hd] at hstep
      cases hstep
      exact .stopNotified hd
  | joining i =>
      rw [hd] at hstep
      simp only [destroy] at hstep
      split at hstep <;> rename_i hw
      · cases hstep
        exact .joined hd hw
      · cases hstep

/-- Every step is of one of the kinds. -/
theorem steps_of_step {s s' : State F} {a : Action F} {e : Event F}
    (hstep : step s a = some (s', e)) : Steps s a s' e := by
  cases a with
  | scheduleTask newTask =>
      cases hstep
      exact .called newTask
  | caller c =>
      rcases Option.bind_eq_some_iff.mp hstep with ⟨caller, hc, hcaller⟩
      exact steps_of_scheduleTask hc hcaller
  | worker w =>
      rcases Option.bind_eq_some_iff.mp hstep with ⟨worker, hw, hworker⟩
      exact steps_of_taskQueueHandling hw hworker
  | wake w =>
      rcases Option.bind_eq_some_iff.mp hstep with ⟨worker, hw, hworker⟩
      cases worker with
      | waiting =>
          cases hworker
          exact .woke hw
      | locking => cases hworker
      | woken => cases hworker
      | running task => cases hworker
      | returned => cases hworker
      | threw => cases hworker
  | destructor => exact steps_of_destroy hstep

/-! ## Notifications -/

/-- Some call is between its critical section and its `notify_all`. -/
def State.Notifies (s : State F) : Prop :=
  .notifying ∈ s.callers ∨ s.destructor = .notifying

/-- Some worker is blocked and not notified. -/
def State.Sleeps (s : State F) : Prop :=
  .waiting ∈ s.workers

instance [DecidableEq F] (s : State F) : Decidable s.Notifies :=
  inferInstanceAs (Decidable (_ ∨ _))

instance [DecidableEq F] (s : State F) : Decidable s.Sleeps :=
  inferInstanceAs (Decidable (_ ∈ _))

/-- There is nothing to do for a worker. -/
def State.Idle (s : State F) : Prop :=
  s.tasks = [] ∧ s.isRunning = true

theorem notify_ne_waiting (worker : Worker F) : worker.notify ≠ .waiting := by
  cases worker <;> simp [Worker.notify]

/-- After `notify_all` no worker is left blocked. -/
theorem not_waiting_mem_notify (workers : List (Worker F)) :
    .waiting ∉ workers.map Worker.notify := by
  intro hmem
  rcases List.mem_map.mp hmem with ⟨worker, _, hworker⟩
  exact notify_ne_waiting worker hworker

/-- A worker that goes on elsewhere leaves the blocked ones as they are. -/
theorem waiting_mem_of_set {workers : List (Worker F)} {w : Nat} {worker : Worker F}
    (hmem : .waiting ∈ workers.set w worker) (hne : worker ≠ .waiting) : .waiting ∈ workers := by
  rcases List.mem_or_eq_of_mem_set hmem with hmem | heq
  · exact hmem
  · exact absurd heq.symm hne

/-- A sleeping worker has nothing to do, or a notification is on its way. -/
def State.Watched (s : State F) : Prop :=
  s.Sleeps → s.Idle ∨ s.Notifies

/-- Every step keeps the sleepers watched. -/
theorem Steps.watched {s s' : State F} {a : Action F} {e : Event F} (hstep : Steps s a s' e)
    (hwatched : s.Watched) : s'.Watched := by
  intro hsleeps
  cases hstep with
  | called newTask =>
      rcases hwatched hsleeps with hidle | hcaller | hdestructor
      · exact .inl hidle
      · exact .inr (.inl (List.mem_append_left _ hcaller))
      · exact .inr (.inr hdestructor)
  | foundFull hc hfull => exact hwatched hsleeps
  | pushed hc hq =>
      -- the call that has pushed is the one that will notify
      exact .inr (.inl (List.mem_set (List.getElem?_eq_some_iff.mp hc).1 _))
  | callNotified hc => exact absurd hsleeps (not_waiting_mem_notify _)
  | waited hw hlocks hempty hrunning => exact .inl ⟨hempty, hrunning⟩
  | exited hw hlocks hempty hstopped =>
      exact hwatched (waiting_mem_of_set hsleeps (by simp))
  | popped hw hlocks hq =>
      -- the queue held a task, so that a notification is pending
      rcases hwatched (waiting_mem_of_set hsleeps (by simp)) with hidle | hnotifies
      · rw [hidle.1] at hq
        cases hq
      · exact .inr hnotifies
  | finished hw => exact hwatched (waiting_mem_of_set hsleeps (by simp))
  | woke hw => exact hwatched (waiting_mem_of_set hsleeps (by simp))
  | stopped hd => exact .inr (.inr rfl)
  | stopNotified hd => exact absurd hsleeps (not_waiting_mem_notify _)
  | joined hd hw =>
      rcases hwatched hsleeps with hidle | hcaller | hdestructor
      · exact .inl hidle
      · exact .inr (.inl hcaller)
      · rw [hd] at hdestructor
        cases hdestructor

/-- The number of threads never changes. -/
theorem Steps.length_workers {s s' : State F} {a : Action F} {e : Event F}
    (hstep : Steps s a s' e) : s'.workers.length = s.workers.length := by
  cases hstep <;> simp

theorem length_workers_of_run {raw : CircularBuffer (Task F) taskQueueSize}
    {G : Guard (State F) (Action F) (Event F)} {h : List (Event F)} {s : State F}
    (hrun : (threadManager raw).Run G h s) : s.workers.length = threadPoolSize := by
  refine Run.invariant (I := fun _ s => s.workers.length = threadPoolSize) rfl ?_ hrun
  intro h s a s' e _ hlength _ hstep
  rw [(steps_of_step hstep).length_workers, hlength]

theorem watched_of_run {raw : CircularBuffer (Task F) taskQueueSize}
    {G : Guard (State F) (Action F) (Event F)} {h : List (Event F)} {s : State F}
    (hrun : (threadManager raw).Run G h s) : s.Watched := by
  refine Run.invariant (I := fun _ s => s.Watched) ?_ ?_ hrun
  · intro hsleeps
    cases List.eq_of_mem_replicate hsleeps
  · intro h s a s' e _ hwatched _ hstep
    exact (steps_of_step hstep).watched hwatched

/-- While a worker sleeps and no notification is on its way, the queue is empty and
the pool runs; so the workers never all sleep beside a task or a request to stop. -/
theorem noLostWakeUp {raw : CircularBuffer (Task F) taskQueueSize} {h : List (Event F)}
    {s : State F} (hrun : (threadManager raw).Run Any h s) :
    (s.Sleeps → ¬ s.Notifies → s.tasks = [] ∧ s.isRunning = true) ∧
      ¬ ((∀ worker ∈ s.workers, worker = .waiting) ∧ ¬ s.Notifies ∧
        (s.tasks ≠ [] ∨ s.isRunning = false)) := by
  have hidle : s.Sleeps → ¬ s.Notifies → s.Idle := fun hsleeps hquiet =>
    (watched_of_run hrun hsleeps).resolve_right hquiet
  refine ⟨hidle, ?_⟩
  rintro ⟨hall, hquiet, hwork⟩
  have hpos : 0 < s.workers.length := by
    rw [length_workers_of_run hrun]
    decide
  have hsleeps : s.Sleeps := by
    have hfirst := List.getElem_mem hpos
    rw [hall _ hfirst] at hfirst
    exact hfirst
  rcases hidle hsleeps hquiet with ⟨hempty, hrunning⟩
  rcases hwork with htasks | hstopped
  · exact htasks hempty
  · rw [hrunning] at hstopped
    cases hstopped

/-- A block of memory that holds nothing of interest. -/
def someMemory : CircularBuffer (Task Nat) taskQueueSize :=
  ⟨Vector.replicate _ { function := 0, call := 0 }, 0, 0, 0⟩

/-- Three workers sleep while the fourth runs a task that it was woken for. -/
def wokenForTask : List (Action Nat) :=
  [.worker 0, .worker 1, .worker 2, .scheduleTask 7, .caller 0, .caller 0, .worker 0,
    .worker 1, .worker 2, .worker 3]

/-- The sleepers of that run sleep rightly. -/
theorem noLostWakeUp_wokenForTask :
    ∃ h s, (threadManager someMemory).exec wokenForTask = some (h, s) ∧ s.Sleeps ∧
      s.tasks = [] ∧ s.isRunning = true := by
  have hfinal : ((threadManager someMemory).exec wokenForTask).map
      (fun r => (decide r.2.Sleeps, decide r.2.Notifies)) = some (true, false) := by
    decide +kernel
  rcases Option.map_eq_some_iff.mp hfinal with ⟨⟨h, s⟩, hexec, hflags⟩
  simp only [Prod.mk.injEq, decide_eq_true_eq, decide_eq_false_iff_not] at hflags
  have hidle := (noLostWakeUp (Run.of_exec hexec)).1 hflags.1 hflags.2
  exact ⟨h, s, hexec, hflags.1, hidle⟩

end ThreadManager

end SimpleMessenger
