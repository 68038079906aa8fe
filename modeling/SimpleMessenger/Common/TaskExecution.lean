import Mathlib.Data.List.Nodup
import SimpleMessenger.Common.ThreadManager

/-!
# Every task of the pool is run once

Followed from its call on, a task is in exactly one place: with its
{lit}`schedule_task` call, in the queue, with the worker that took it, or done.
The statements about a whole run are statements about the lists of tasks called,
pushed, taken and finished.

Main results:

- Theorem {lit}`tracked_of_run`: the places of the tasks after every run.
- Theorem {lit}`Steps.held_perm`: what one step adds to the tasks of the pool and takes
  from them.
- Theorem {lit}`executesOnce`: when all calls have returned before the destructor
  starts, every task is taken once, in the order of the pushes, and all of them
  have been run once the workers are joined.

Current gaps:

- Nothing is said about how long a task stays in the queue of a pool that is not
  destroyed.
-/

universe u

namespace SimpleMessenger

open StepSystem

namespace ThreadManager

variable {F : Type u}

/-! ## What a history says about the tasks -/

def Event.called? : Event F → Option (Task F)
  | .called task => some task
  | _ => none

def Event.pushed? : Event F → Option (Task F)
  | .pushed task _ => some task
  | _ => none

def Event.popped? : Event F → Option (Nat × Task F)
  | .popped w task => some (w, task)
  | _ => none

def Event.finished? : Event F → Option (Task F)
  | .finished _ task => some task
  | _ => none

/-- The tasks of all calls, in the order of the calls. -/
def called (h : List (Event F)) : List (Task F) :=
  h.filterMap Event.called?

/-- The tasks pushed, in the order of the pushes. -/
def pushed (h : List (Event F)) : List (Task F) :=
  h.filterMap Event.pushed?

/-- The tasks taken, in the order of the pops, each with its worker. -/
def taken (h : List (Event F)) : List (Nat × Task F) :=
  h.filterMap Event.popped?

/-- The tasks run to completion. -/
def finished (h : List (Event F)) : List (Task F) :=
  h.filterMap Event.finished?

/-- The task that a call has not pushed yet. -/
def Caller.task? : Caller F → Option (Task F)
  | .scheduling newTask => some newTask
  | _ => none

/-- The task that a worker has taken and not finished. -/
def Worker.task? : Worker F → Option (Task F)
  | .running task => some task
  | _ => none

/-- The tasks still with their calls. -/
def State.unscheduled (s : State F) : List (Task F) :=
  s.callers.filterMap Caller.task?

/-- The tasks being run. -/
def State.inProgress (s : State F) : List (Task F) :=
  s.workers.filterMap Worker.task?

theorem called_snoc (h : List (Event F)) (e : Event F) :
    called (h ++ [e]) = called h ++ e.called?.toList := by
  cases e <;> simp [called, Event.called?]

theorem pushed_snoc (h : List (Event F)) (e : Event F) :
    pushed (h ++ [e]) = pushed h ++ e.pushed?.toList := by
  cases e <;> simp [pushed, Event.pushed?]

theorem taken_snoc (h : List (Event F)) (e : Event F) :
    taken (h ++ [e]) = taken h ++ e.popped?.toList := by
  cases e <;> simp [taken, Event.popped?]

theorem finished_snoc (h : List (Event F)) (e : Event F) :
    finished (h ++ [e]) = finished h ++ e.finished?.toList := by
  cases e <;> simp [finished, Event.finished?]

theorem mem_taken {h : List (Event F)} {w : Nat} {task : Task F} :
    (w, task) ∈ taken h ↔ .popped w task ∈ h := by
  have hsome : ∀ e : Event F, e.popped? = some (w, task) ↔ e = .popped w task := by
    intro e
    cases e <;> simp [Event.popped?]
  simp [taken, hsome]

/-- A notified worker holds what it held. -/
theorem filterMap_task?_notify (workers : List (Worker F)) :
    (workers.map Worker.notify).filterMap Worker.task? = workers.filterMap Worker.task? := by
  rw [List.filterMap_map]
  congr 1
  funext worker
  cases worker <;> rfl

/-! ## Where the tasks are -/

/-- Every task is in one place. -/
structure Tracked (h : List (Event F)) (s : State F) : Prop where
  numbered : (called h).map Task.call = List.range s.callers.length
  called_perm : (called h).Perm (pushed h ++ s.unscheduled)
  pushed_eq : pushed h = (taken h).map (·.2) ++ s.tasks
  taken_perm : ((taken h).map (·.2)).Perm (finished h ++ s.inProgress)

/-- A step that moves no task. -/
theorem Tracked.quiet {h : List (Event F)} {s s' : State F} {e : Event F} (ht : Tracked h s)
    (hcalled : e.called? = none) (hpushed : e.pushed? = none) (hpopped : e.popped? = none)
    (hfinished : e.finished? = none) (hlength : s'.callers.length = s.callers.length)
    (hunscheduled : s'.unscheduled.Perm s.unscheduled) (htasks : s'.tasks = s.tasks)
    (hprogress : s'.inProgress.Perm s.inProgress) : Tracked (h ++ [e]) s' where
  numbered := by
    rw [called_snoc, hcalled, hlength]
    simpa using ht.numbered
  called_perm := by
    rw [called_snoc, pushed_snoc, hcalled, hpushed]
    simpa using ht.called_perm.trans (hunscheduled.symm.append_left _)
  pushed_eq := by
    rw [pushed_snoc, taken_snoc, hpushed, hpopped, htasks]
    simpa using ht.pushed_eq
  taken_perm := by
    rw [taken_snoc, finished_snoc, hpopped, hfinished]
    simpa using ht.taken_perm.trans (hprogress.symm.append_left _)

theorem Worker.Locks.task?_eq {worker : Worker F} (hlocks : worker.Locks) :
    worker.task? = none := by
  rcases hlocks with rfl | rfl <;> rfl

/-- A call starts with its task. -/
theorem Tracked.callStarted {h : List (Event F)} {s : State F} (ht : Tracked h s) (newTask : F) :
    Tracked (h ++ [.called ⟨newTask, s.callers.length⟩])
      { s with callers := s.callers ++ [.scheduling ⟨newTask, s.callers.length⟩] } where
  numbered := by
    rw [called_snoc, List.map_append, ht.numbered, List.length_append]
    exact List.range_succ.symm
  called_perm := by
    rw [called_snoc, pushed_snoc]
    simpa [State.unscheduled, Event.called?, Event.pushed?, Caller.task?] using
      ht.called_perm.append_right [⟨newTask, s.callers.length⟩]
  pushed_eq := by
    simpa [pushed_snoc, taken_snoc, Event.pushed?, Event.popped?, State.tasks] using ht.pushed_eq
  taken_perm := by
    simpa [taken_snoc, finished_snoc, Event.popped?, Event.finished?, State.inProgress] using
      ht.taken_perm

/-- A task leaves its call for the end of the queue. -/
theorem Tracked.taskPushed {h : List (Event F)} {s : State F} {c : Nat} {newTask : Task F}
    {q : CircularBuffer.Ring (Task F) taskQueueSize} (ht : Tracked h s)
    (hc : s.callers[c]? = some (.scheduling newTask)) (hq : q.contents = s.tasks ++ [newTask]) :
    Tracked (h ++ [.pushed newTask true])
      { s with taskQueue := q, callers := s.callers.set c .notifying } where
  numbered := by
    simpa [called_snoc, Event.called?] using ht.numbered
  called_perm := by
    have hleft := filterMap_perm_cons_set (p := Caller.notifying) (f := Caller.task?) hc rfl rfl
    rw [called_snoc, pushed_snoc, List.append_assoc]
    simpa [Event.called?, Event.pushed?, State.unscheduled] using
      ht.called_perm.trans (hleft.append_left (pushed h))
  pushed_eq := by
    rw [pushed_snoc, taken_snoc, ht.pushed_eq]
    simp [Event.pushed?, Event.popped?, State.tasks, hq]
  taken_perm := by
    simpa [taken_snoc, finished_snoc, Event.popped?, Event.finished?, State.inProgress] using
      ht.taken_perm

/-- A task goes from the front of the queue to its worker. -/
theorem Tracked.taskPopped {h : List (Event F)} {s : State F} {w : Nat} {worker : Worker F}
    {task : Task F} {q : CircularBuffer.Ring (Task F) taskQueueSize} (ht : Tracked h s)
    (hw : s.workers[w]? = some worker) (hlocks : worker.Locks)
    (hq : s.tasks = task :: q.contents) :
    Tracked (h ++ [.popped w task])
      { s with taskQueue := q, workers := s.workers.set w (.running task) } where
  numbered := by
    simpa [called_snoc, Event.called?] using ht.numbered
  called_perm := by
    simpa [called_snoc, pushed_snoc, Event.called?, Event.pushed?, State.unscheduled] using
      ht.called_perm
  pushed_eq := by
    rw [pushed_snoc, taken_snoc, ht.pushed_eq, hq]
    simp [Event.pushed?, Event.popped?, State.tasks]
  taken_perm := by
    have hheld := filterMap_append_perm_set (p := Worker.running task) (f := Worker.task?) hw
      hlocks.task?_eq rfl
    have htaken := ht.taken_perm.append_right [task]
    rw [List.append_assoc] at htaken
    rw [taken_snoc, finished_snoc, List.map_append]
    simpa [Event.popped?, Event.finished?, State.inProgress] using
      htaken.trans (hheld.append_left _)

/-- A task goes from its worker to the finished ones. -/
theorem Tracked.taskFinished {h : List (Event F)} {s : State F} {w : Nat} {task : Task F}
    (ht : Tracked h s) (hw : s.workers[w]? = some (.running task)) :
    Tracked (h ++ [.finished w task]) { s with workers := s.workers.set w .locking } where
  numbered := by
    simpa [called_snoc, Event.called?] using ht.numbered
  called_perm := by
    simpa [called_snoc, pushed_snoc, Event.called?, Event.pushed?, State.unscheduled] using
      ht.called_perm
  pushed_eq := by
    simpa [pushed_snoc, taken_snoc, Event.pushed?, Event.popped?, State.tasks] using ht.pushed_eq
  taken_perm := by
    have hdone := filterMap_perm_cons_set (p := Worker.locking) (f := Worker.task?) hw rfl rfl
    rw [taken_snoc, finished_snoc, List.append_assoc]
    simpa [Event.popped?, Event.finished?, State.inProgress] using
      ht.taken_perm.trans (hdone.append_left (finished h))

/-- Every step keeps track of the tasks. -/
theorem tracked_step {s s' : State F} {a : Action F} {e : Event F} {h : List (Event F)}
    (hstep : Steps s a s' e) (ht : Tracked h s) : Tracked (h ++ [e]) s' := by
  cases hstep with
  | called newTask => exact ht.callStarted newTask
  | foundFull hc hfull => exact ht.quiet rfl rfl rfl rfl rfl .rfl rfl .rfl
  | pushed hc hq => exact ht.taskPushed hc hq
  | callNotified hc =>
      refine ht.quiet rfl rfl rfl rfl (List.length_set ..)
        (filterMap_set_perm_of_none hc rfl rfl) rfl ?_
      rw [State.inProgress, filterMap_task?_notify]
      rfl
  | waited hw hlocks hempty hrunning =>
      exact ht.quiet rfl rfl rfl rfl rfl .rfl rfl
        (filterMap_set_perm_of_none hw hlocks.task?_eq rfl)
  | exited hw hlocks hempty hstopped =>
      exact ht.quiet rfl rfl rfl rfl rfl .rfl rfl
        (filterMap_set_perm_of_none hw hlocks.task?_eq rfl)
  | popped hw hlocks hq => exact ht.taskPopped hw hlocks hq
  | finished hw => exact ht.taskFinished hw
  | woke hw =>
      exact ht.quiet rfl rfl rfl rfl rfl .rfl rfl (filterMap_set_perm_of_none hw rfl rfl)
  | stopped hd => exact ht.quiet rfl rfl rfl rfl rfl .rfl rfl .rfl
  | stopNotified hd =>
      refine ht.quiet rfl rfl rfl rfl rfl .rfl rfl ?_
      rw [State.inProgress, filterMap_task?_notify]
      rfl
  | joined hd hw => exact ht.quiet rfl rfl rfl rfl rfl .rfl rfl .rfl

theorem tracked_of_run {raw : CircularBuffer (Task F) taskQueueSize}
    {G : Guard (State F) (Action F) (Event F)} {h : List (Event F)} {s : State F}
    (hrun : (threadManager raw).Run G h s) : Tracked h s := by
  refine Run.invariant (I := fun h s => Tracked h s) ?_ ?_ hrun
  · exact ⟨rfl, .rfl, rfl, .rfl⟩
  · intro h s a s' e _ htracked _ hstep
    exact tracked_step (steps_of_step hstep) htracked

/-- The tasks of different calls are different. -/
theorem Tracked.nodup_called {h : List (Event F)} {s : State F} (ht : Tracked h s) :
    (called h).Nodup := by
  have hnumbers : ((called h).map Task.call).Nodup := by
    rw [ht.numbered]
    exact List.nodup_range
  exact List.Nodup.of_map _ hnumbers

theorem Tracked.nodup_pushed {h : List (Event F)} {s : State F} (ht : Tracked h s) :
    (pushed h).Nodup :=
  (List.nodup_append.mp (ht.called_perm.nodup_iff.mp ht.nodup_called)).1

theorem Tracked.nodup_taken {h : List (Event F)} {s : State F} (ht : Tracked h s) :
    ((taken h).map (·.2)).Nodup := by
  have hpushed := ht.nodup_pushed
  rw [ht.pushed_eq] at hpushed
  exact (List.nodup_append.mp hpushed).1

/-- A task is taken by one worker only. -/
theorem Tracked.taken_unique {h : List (Event F)} {s : State F} (ht : Tracked h s)
    {v w : Nat} {task : Task F} (hv : .popped v task ∈ h) (hw : .popped w task ∈ h) : v = w := by
  have hpair := List.inj_on_of_nodup_map ht.nodup_taken (mem_taken.mpr hv) (mem_taken.mpr hw) rfl
  cases hpair
  rfl

/-! ## The tasks that the pool holds -/

/-- The tasks on their way to a worker or at one. -/
def State.held (s : State F) : List (Task F) :=
  s.unscheduled ++ (s.tasks ++ s.inProgress)

/-- A step that moves no task. -/
theorem held_perm_of_quiet {s s' : State F} {e : Event F} (hcalled : e.called? = none)
    (hfinished : e.finished? = none) (hunscheduled : s'.unscheduled.Perm s.unscheduled)
    (htasks : s'.tasks = s.tasks) (hprogress : s'.inProgress.Perm s.inProgress) :
    (s'.held ++ e.finished?.toList).Perm (s.held ++ e.called?.toList) := by
  rw [hcalled, hfinished, State.held, State.held, htasks]
  exact (hunscheduled.append (hprogress.append_left _)).append_right _

/-- The pool holds what it held, with the task of a new call and without a finished one. -/
theorem Steps.held_perm {s s' : State F} {a : Action F} {e : Event F} (hstep : Steps s a s' e) :
    (s'.held ++ e.finished?.toList).Perm (s.held ++ e.called?.toList) := by
  cases hstep with
  | called newTask =>
      have hstart := filterMap_concat Caller.task? s.callers
        (.scheduling ⟨newTask, s.callers.length⟩)
      refine (List.Perm.of_eq (List.append_nil _)).trans ?_
      rw [State.held, State.unscheduled, hstart, State.held, List.append_assoc, List.append_assoc]
      exact List.perm_append_comm.append_left s.unscheduled
  | foundFull hc hfull => exact .rfl
  | @pushed c newTask q hc hq =>
      have hleft := filterMap_perm_cons_set (p := Caller.notifying) (f := Caller.task?) hc rfl rfl
      have hheld : (s.callers.set c .notifying).filterMap Caller.task? ++
          (q.contents ++ s.inProgress) = (s.callers.set c .notifying).filterMap Caller.task? ++
          s.tasks ++ newTask :: s.inProgress := by
        rw [hq]
        simp
      refine List.Perm.append_right [] ?_
      refine (List.Perm.of_eq hheld).trans (List.perm_middle.trans ?_)
      rw [List.append_assoc, State.held, State.unscheduled]
      exact (hleft.append_right _).symm
  | callNotified hc =>
      refine held_perm_of_quiet rfl rfl (filterMap_set_perm_of_none hc rfl rfl) rfl ?_
      rw [State.inProgress, filterMap_task?_notify]
      rfl
  | waited hw hlocks hempty hrunning =>
      exact held_perm_of_quiet rfl rfl .rfl rfl
        (filterMap_set_perm_of_none hw hlocks.task?_eq rfl)
  | exited hw hlocks hempty hstopped =>
      exact held_perm_of_quiet rfl rfl .rfl rfl
        (filterMap_set_perm_of_none hw hlocks.task?_eq rfl)
  | @popped w worker task q hw hlocks hq =>
      have hstarted := filterMap_append_perm_set (p := Worker.running task) (f := Worker.task?) hw
        hlocks.task?_eq rfl
      have hmoved : (q.contents ++ (s.workers.set w (.running task)).filterMap Worker.task?).Perm
          (s.tasks ++ s.inProgress) := by
        rw [hq, List.cons_append]
        refine (hstarted.symm.append_left q.contents).trans ?_
        rw [← List.append_assoc]
        exact List.perm_append_singleton _ _
      exact (hmoved.append_left s.unscheduled).append_right []
  | @finished w task hw =>
      have hdone := filterMap_perm_cons_set (p := Worker.locking) (f := Worker.task?) hw rfl rfl
      have hleft := hdone.trans (List.perm_append_singleton task _).symm
      have hheld := (hleft.append_left s.tasks).append_left s.unscheduled
      simpa [State.held, Event.finished?, Event.called?, State.unscheduled, State.tasks,
        State.inProgress] using hheld.symm
  | woke hw =>
      exact held_perm_of_quiet rfl rfl .rfl rfl (filterMap_set_perm_of_none hw rfl rfl)
  | stopped hd => exact .rfl
  | stopNotified hd =>
      refine held_perm_of_quiet rfl rfl .rfl rfl ?_
      rw [State.inProgress, filterMap_task?_notify]
      rfl
  | joined hd hw => exact .rfl

/-- A task that the pool holds or is called with stays until it is finished. -/
theorem Steps.mem_held {s s' : State F} {a : Action F} {e : Event F} (hstep : Steps s a s' e)
    {task : Task F} (hmem : task ∈ s.held ∨ e.called? = some task) :
    task ∈ s'.held ∨ e.finished? = some task := by
  have hperm := hstep.held_perm.mem_iff (a := task)
  simp only [List.mem_append, Option.mem_toList] at hperm
  exact hperm.mpr hmem

/-! ## Shutting down -/

/-- The destructor starts when all calls of `schedule_task` have returned, and no
call starts after it. -/
def CallsReturnFirst : Guard (State F) (Action F) (Event F) := fun _ s a =>
  match a with
  | .scheduleTask _ => s.destructor = .notCalled
  | .destructor => s.destructor = .notCalled → ∀ caller ∈ s.callers, caller = .returned
  | _ => True

/-- How far the destructor is, and what has happened by then. -/
structure Draining (s : State F) : Prop where
  running : s.isRunning = true ↔ s.destructor = .notCalled
  returned : s.destructor ≠ .notCalled → ∀ caller ∈ s.callers, caller = .returned
  drained : .returned ∈ s.workers → s.destructor ≠ .notCalled ∧ s.tasks = []
  joined : ∀ i, s.destructor = .joining i → ∀ w < i, s.workers[w]? = some .returned

/-- After the destructor has started, no call goes on. -/
theorem Draining.notCalled {s : State F} (hd : Draining s) {c : Nat} {caller : Caller F}
    (hc : s.callers[c]? = some caller) (hne : caller ≠ .returned) :
    s.destructor = .notCalled := by
  by_contra hstarted
  exact hne (hd.returned hstarted caller (List.mem_of_getElem? hc))

/-- Calls that have returned take no further step. -/
theorem Steps.callers_eq {s s' : State F} {a : Action F} {e : Event F} (hstep : Steps s a s' e)
    (ha : ∀ newTask, a ≠ .scheduleTask newTask)
    (hall : ∀ caller ∈ s.callers, caller = .returned) : s'.callers = s.callers := by
  cases hstep with
  | called newTask => exact absurd rfl (ha newTask)
  | pushed hc hq => cases hall _ (List.mem_of_getElem? hc)
  | callNotified hc => cases hall _ (List.mem_of_getElem? hc)
  | _ => rfl

theorem Steps.destructor_eq {s s' : State F} {a : Action F} {e : Event F}
    (hstep : Steps s a s' e) (ha : a ≠ .destructor) : s'.destructor = s.destructor := by
  cases hstep with
  | stopped hd => exact absurd rfl ha
  | stopNotified hd => exact absurd rfl ha
  | joined hd hw => exact absurd rfl ha
  | _ => rfl

theorem notify_eq_returned_iff {worker : Worker F} :
    worker.notify = .returned ↔ worker = .returned := by
  cases worker <;> simp [Worker.notify]

theorem returned_mem_notify {workers : List (Worker F)} :
    .returned ∈ workers.map Worker.notify ↔ .returned ∈ workers := by
  simp [notify_eq_returned_iff]

/-- A worker that has returned is not affected by another worker's step. -/
theorem returned_of_set {workers : List (Worker F)} {v w : Nat} {before after : Worker F}
    (hw : workers[w]? = some before) (hne : before ≠ .returned)
    (hv : workers[v]? = some .returned) : (workers.set w after)[v]? = some .returned := by
  have hvw : w ≠ v := by
    rintro rfl
    rw [hw] at hv
    exact hne (Option.some.inj hv)
  rw [List.getElem?_set_ne hvw]
  exact hv

/-- A worker goes on, away from a place that is not the end of its loop. -/
theorem Draining.goOn {s : State F} (hd : Draining s) {w : Nat} {before after : Worker F}
    (hw : s.workers[w]? = some before) (hbefore : before ≠ .returned)
    (hafter : after = .returned → s.destructor ≠ .notCalled ∧ s.tasks = [])
    {q : CircularBuffer.Ring (Task F) taskQueueSize} (hq : s.tasks = [] → q.contents = []) :
    Draining { s with taskQueue := q, workers := s.workers.set w after } where
  running := hd.running
  returned := hd.returned
  drained := by
    intro hmem
    rcases List.mem_or_eq_of_mem_set hmem with hmem | heq
    · exact ⟨(hd.drained hmem).1, hq (hd.drained hmem).2⟩
    · exact ⟨(hafter heq.symm).1, hq (hafter heq.symm).2⟩
  joined := by
    intro i hi v hv
    exact returned_of_set hw hbefore (hd.joined i hi v hv)

theorem Worker.Locks.ne_returned {worker : Worker F} (hlocks : worker.Locks) :
    worker ≠ .returned := by
  rcases hlocks with rfl | rfl <;> simp

/-- Notifying wakes workers and nothing else. -/
theorem Draining.joined_notify {s : State F} (hd : Draining s) {i w : Nat}
    (hi : s.destructor = .joining i) (hw : w < i) :
    (s.workers.map Worker.notify)[w]? = some .returned := by
  rw [List.getElem?_map, hd.joined i hi w hw]
  rfl

/-- Every admitted step keeps the order of the shutdown. -/
theorem Steps.draining {s s' : State F} {a : Action F} {e : Event F} {h : List (Event F)}
    (hstep : Steps s a s' e) (hguard : CallsReturnFirst h s a) (hd : Draining s) :
    Draining s' := by
  cases hstep with
  | called newTask => exact ⟨hd.running, fun hne => absurd hguard hne, hd.drained, hd.joined⟩
  | foundFull hc hfull => exact hd
  | pushed hc hq =>
      have hnot : s.destructor = .notCalled := hd.notCalled hc (by simp)
      refine ⟨hd.running, fun hne => absurd hnot hne, ?_, hd.joined⟩
      intro hmem
      exact absurd hnot (hd.drained hmem).1
  | callNotified hc =>
      have hnot : s.destructor = .notCalled := hd.notCalled hc (by simp)
      refine ⟨hd.running, fun hne => absurd hnot hne, ?_, fun i hi w hw => hd.joined_notify hi hw⟩
      intro hmem
      exact hd.drained (returned_mem_notify.mp hmem)
  | waited hw hlocks hempty hrunning =>
      exact hd.goOn hw hlocks.ne_returned (by simp) id
  | exited hw hlocks hempty hstopped =>
      refine hd.goOn hw hlocks.ne_returned (fun _ => ⟨fun hnot => ?_, hempty⟩) id
      rw [hd.running.mpr hnot] at hstopped
      cases hstopped
  | popped hw hlocks hq =>
      refine hd.goOn hw hlocks.ne_returned (by simp) fun hempty => ?_
      rw [hempty] at hq
      cases hq
  | finished hw => exact hd.goOn hw (by simp) (by simp) id
  | woke hw => exact hd.goOn hw (by simp) (by simp) id
  | stopped hnot =>
      refine ⟨by simp, fun _ => hguard hnot, ?_, by simp⟩
      intro hmem
      exact absurd hnot (hd.drained hmem).1
  | stopNotified hnotifying =>
      have hstarted : s.destructor ≠ .notCalled := by simp [hnotifying]
      refine ⟨?_, fun _ => hd.returned hstarted, ?_, ?_⟩
      · simpa [hnotifying] using hd.running
      · intro hmem
        exact ⟨by simp, (hd.drained (returned_mem_notify.mp hmem)).2⟩
      · intro i hi w hw
        cases hi
        omega
  | @joined i hjoining hw =>
      have hstarted : s.destructor ≠ .notCalled := by simp [hjoining]
      refine ⟨?_, fun _ => hd.returned hstarted, ?_, ?_⟩
      · simpa [hjoining] using hd.running
      · intro hmem
        exact ⟨by simp, (hd.drained hmem).2⟩
      · intro j hj v hv
        cases hj
        rcases Nat.lt_succ_iff_lt_or_eq.mp hv with hlt | rfl
        · exact hd.joined i hjoining v hlt
        · exact hw

theorem draining_of_run {raw : CircularBuffer (Task F) taskQueueSize} {h : List (Event F)}
    {s : State F} (hrun : (threadManager raw).Run CallsReturnFirst h s) : Draining s := by
  refine Run.invariant (I := fun _ s => Draining s) ?_ ?_ hrun
  · refine ⟨iff_of_true rfl rfl, fun hne => absurd rfl hne, ?_, ?_⟩
    · intro hmem
      cases List.eq_of_mem_replicate hmem
    · intro i hi
      cases hi
  · intro h s a s' e _ hdraining hguard hstep
    exact (steps_of_step hstep).draining hguard hdraining

/-- No push has failed and no pop has met an empty queue. -/
def NoFailure (h : List (Event F)) : Prop :=
  (∀ task ok, .pushed task ok ∈ h → ok = true) ∧ ∀ w, .poppedNothing w ∉ h

/-- The queue is checked and used in one critical section. -/
theorem Steps.noFailure {s s' : State F} {a : Action F} {e : Event F} {h : List (Event F)}
    (hstep : Steps s a s' e) (hnone : NoFailure h) : NoFailure (h ++ [e]) := by
  constructor
  · intro task ok hmem
    rcases List.mem_append.mp hmem with hmem | hlast
    · exact hnone.1 task ok hmem
    · cases List.mem_singleton.mp hlast
      cases hstep
      rfl
  · intro w hmem
    rcases List.mem_append.mp hmem with hmem | hlast
    · exact hnone.2 w hmem
    · cases List.mem_singleton.mp hlast
      cases hstep

theorem noFailure_of_run {raw : CircularBuffer (Task F) taskQueueSize}
    {G : Guard (State F) (Action F) (Event F)} {h : List (Event F)} {s : State F}
    (hrun : (threadManager raw).Run G h s) : NoFailure h := by
  refine Run.invariant (I := fun h _ => NoFailure h) ?_ ?_ hrun
  · exact ⟨by simp, by simp⟩
  · intro h s a s' e _ hnone _ hstep
    exact (steps_of_step hstep).noFailure hnone

/-- A worker that has returned runs nothing. -/
theorem inProgress_eq_nil {s : State F} (hall : ∀ worker ∈ s.workers, worker = .returned) :
    s.inProgress = [] := by
  refine List.filterMap_eq_nil_iff.mpr fun worker hmem => ?_
  rw [hall worker hmem]
  rfl

theorem unscheduled_eq_nil {s : State F} (hall : ∀ caller ∈ s.callers, caller = .returned) :
    s.unscheduled = [] := by
  refine List.filterMap_eq_nil_iff.mpr fun caller hmem => ?_
  rw [hall caller hmem]
  rfl

/-- Once all workers are joined, no task is left with a call, in the queue or at a worker. -/
theorem Draining.nothing_left {s : State F} (hd : Draining s)
    (hlength : s.workers.length = threadPoolSize)
    (hjoined : s.destructor = .joining threadPoolSize) :
    s.unscheduled = [] ∧ s.tasks = [] ∧ s.inProgress = [] := by
  have hall : ∀ worker ∈ s.workers, worker = .returned := by
    intro worker hmem
    rcases List.mem_iff_getElem?.mp hmem with ⟨w, hw⟩
    have hlt : w < threadPoolSize := hlength ▸ (List.getElem?_eq_some_iff.mp hw).1
    rw [hd.joined _ hjoined w hlt] at hw
    exact (Option.some.inj hw).symm
  have hreturned : .returned ∈ s.workers :=
    List.mem_of_getElem? (hd.joined _ hjoined 0 (by decide))
  exact ⟨unscheduled_eq_nil (hd.returned (by simp [hjoined])), (hd.drained hreturned).2,
    inProgress_eq_nil hall⟩

/-- Every task is run exactly once, as far as the run has come. -/
structure ExecutesOnce (h : List (Event F)) (s : State F) : Prop where
  /-- The ignored result of `push` is `true`, and `value()` never throws. -/
  noFailure : NoFailure h
  /-- The tasks taken are the first ones pushed, each taken once. -/
  pushed_eq : pushed h = (taken h).map (·.2) ++ s.tasks
  nodup : (pushed h).Nodup
  taken_unique : ∀ {v w : Nat} {task : Task F},
    .popped v task ∈ h → .popped w task ∈ h → v = w
  /-- Once all workers are joined, nothing is left to do. -/
  joined : s.destructor = .joining threadPoolSize →
    s.tasks = [] ∧ ((taken h).map (·.2)).Perm (called h) ∧ (finished h).Perm (called h)

/-- If all calls of `schedule_task` return before the destructor starts, every task
is run exactly once. -/
theorem executesOnce {raw : CircularBuffer (Task F) taskQueueSize} {h : List (Event F)}
    {s : State F} (hrun : (threadManager raw).Run CallsReturnFirst h s) : ExecutesOnce h s := by
  have ht := tracked_of_run hrun
  have hd := draining_of_run hrun
  refine ⟨noFailure_of_run hrun, ht.pushed_eq, ht.nodup_pushed, ht.taken_unique, ?_⟩
  intro hjoined
  rcases hd.nothing_left (length_workers_of_run hrun) hjoined with
    ⟨hunscheduled, hempty, hprogress⟩
  -- nothing waits, nothing is queued and nothing is being run
  have hcalled : (called h).Perm (pushed h) := by
    simpa [hunscheduled] using ht.called_perm
  have hpushed : pushed h = (taken h).map (·.2) := by
    simpa [hempty] using ht.pushed_eq
  have htaken : ((taken h).map (·.2)).Perm (finished h) := by
    simpa [hprogress] using ht.taken_perm
  rw [hpushed] at hcalled
  exact ⟨hempty, hcalled.symm, htaken.symm.trans hcalled.symm⟩

/-- Two tasks, scheduled by two calls, and the shutdown after them: the first task
is still running and the second one queued when the destructor starts. -/
def twoTasks : List (Action Nat) :=
  [.worker 0, .worker 1, .scheduleTask 7, .scheduleTask 8, .caller 1, .caller 1, .worker 0,
    .caller 0, .caller 0, .destructor, .destructor, .worker 1, .worker 0, .worker 1, .worker 0,
    .worker 1, .worker 2, .worker 3, .destructor, .destructor, .destructor, .destructor]

/-- The test of {lit}`CallsReturnFirst`. -/
def callsReturnFirst (_ : List (Event Nat)) (s : State Nat) : Action Nat → Bool
  | .scheduleTask _ => s.destructor = .notCalled
  | .destructor => s.destructor ≠ .notCalled || s.callers.all (· = .returned)
  | _ => true

theorem callsReturnFirst_guard (h : List (Event Nat)) (s : State Nat) (a : Action Nat)
    (htest : callsReturnFirst h s a = true) : CallsReturnFirst h s a := by
  cases a with
  | destructor =>
      intro hnot
      simpa [callsReturnFirst, hnot] using htest
  | scheduleTask newTask =>
      have hnot : s.destructor = .notCalled := by simpa [callsReturnFirst] using htest
      exact hnot
  | caller c => trivial
  | worker w => trivial
  | wake w => trivial

/-- Both tasks of that run are run. -/
theorem executesOnce_twoTasks :
    ∃ h s, (threadManager someMemory).execFrom callsReturnFirst [] (threadManager someMemory).init
        twoTasks = some (h, s) ∧
      taken h = [(0, ⟨8, 1⟩), (1, ⟨7, 0⟩)] ∧ ExecutesOnce h s ∧
      (finished h).Perm [⟨7, 0⟩, ⟨8, 1⟩] := by
  have hfinal : ((threadManager someMemory).execFrom callsReturnFirst []
        (threadManager someMemory).init twoTasks).map
      (fun r => (decide (r.2.destructor = .joining threadPoolSize), taken r.1, called r.1)) =
        some (true, [(0, ⟨8, 1⟩), (1, ⟨7, 0⟩)], [⟨7, 0⟩, ⟨8, 1⟩]) := by
    decide +kernel
  rcases Option.map_eq_some_iff.mp hfinal with ⟨⟨h, s⟩, hexec, hlists⟩
  simp only [Prod.mk.injEq, decide_eq_true_eq] at hlists
  have honce := executesOnce (Run.of_execFrom callsReturnFirst_guard .start hexec)
  refine ⟨h, s, hexec, hlists.2.1, honce, ?_⟩
  rw [← hlists.2.2]
  exact (honce.joined hlists.1).2.2

end ThreadManager

end SimpleMessenger
