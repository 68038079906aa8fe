import SimpleMessenger.Common.TaskExecution
import SimpleMessenger.Server.OnlineClients

/-!
# The end of `ServerManager.cpp`

Connections are accepted by {lit}`ServerTcpEndpoint` and authentified by tasks of the
thread pool, and each of these tasks fetches the instance of
{lit}`AuthentificationService`.  The destructor of {lit}`ServerManager` deletes that
instance first and the pool, whose destructor lets the workers finish what was
scheduled, after it.  Here the pool and the endpoint take the steps that they take on
their own: the function of a scheduled task is the number of its run of
{lit}`authentifyClient`, and a worker is done with it when that run has returned.

Main results:

- Theorems {lit}`exists_run_pool` and {lit}`exists_run_endpoint`: the two parts take
  their own runs.
- Theorem {lit}`ordered_run`: with the calls of {lit}`schedule_task` returned before
  the destructor starts, every run of {lit}`authentifyClient` that has not returned
  is with the pool.
- Theorem {lit}`noLateFetch_iff`: no task fetches a deleted instance if all have fetched
  it before it is deleted, and of the runs to the end of the pool only then.

Current gaps:

- The endpoints are members of the manager and are destroyed after the last step of
  the destructor; that part of it is left out.
-/

universe u

namespace SimpleMessenger

open StepSystem

namespace ServerManager.Shutdown

/-! ## The manager, its pool and its endpoint -/

/-- What `instance_ptr` of a `DynamicCrtpSingleton` leads to once it is initialised;
`destroy` leaves the pointer as it is. -/
inductive Instance where
  | live
  | deleted
deriving DecidableEq

/-- Where `~ServerManager` stands. -/
inductive Destructor where
  | notCalled
  /-- Within `ThreadManager::destroy`. -/
  | destroyingThreads
  /-- Before `ShutdownProtobufLibrary`. -/
  | shuttingDown
  | returned
deriving DecidableEq

/-- The pool, whose tasks are runs of `authentifyClient`, the endpoint that these runs
work on, and the two singletons. -/
structure State (κ : Type u) where
  pool : ThreadManager.State Nat
  endpoint : ServerTcpEndpoint.State κ := {}
  authentificationService : Instance := .live
  threadManager : Instance := .live
  destructor : Destructor := .notCalled

inductive Action (κ : Type u) where
  /-- `acceptConnection` accepts a connection from `peer` and calls `schedule_task`. -/
  | acceptConnection (peer : κ)
  /-- The next step of call `c` of `schedule_task`. -/
  | caller (c : Nat)
  /-- The next step of worker `w` outside `authentifyClient`. -/
  | worker (w : Nat)
  /-- Worker `w` wakes up without a notification. -/
  | wake (w : Nat)
  /-- The task at worker `w` has received a request, fetches the service and checks it. -/
  | handleAuthReq (w : Nat) (authReqEnv : Envelope) (registered : Option UserID)
  /-- Any other step of the task at worker `w`. -/
  | advance (w : Nat)
  /-- The next step of `~ServerManager`. -/
  | destructor

inductive Event (κ : Type u) where
  | accepted (t : Nat)
  | pool (e : ThreadManager.Event Nat)
  /-- At worker `w` task `t` got this from `getInstance`. -/
  | fetched (w t : Nat) (found : Instance)
  | endpoint (e : ServerTcpEndpoint.Event κ)
  | authDestroyed
  | threadsDestroyed
  | protobufShutDown
deriving DecidableEq

variable {κ : Type u}

/-- The run of `authentifyClient` that worker `w` is in. -/
def State.running? (s : State κ) (w : Nat) : Option Nat :=
  match s.pool.workers[w]? with
  | some (.running task) => some task.function
  | _ => none

/-- Run `t` of `authentifyClient` has returned. -/
def State.hasReturned (s : State κ) (t : Nat) : Bool :=
  match s.endpoint.tasks[t]? with
  | some task => task.point = .returned
  | none => false

/-- A step of the pool, as long as there is one. -/
def poolStep (s : State κ) (a : ThreadManager.Action Nat) : Option (State κ × Event κ) :=
  if s.threadManager = .live then
    (ThreadManager.step s.pool a).map fun (pool, e) => ({ s with pool := pool }, .pool e)
  else none

/-- A connection becomes a task of the pool. -/
def acceptConnection (overwritePort : κ → κ) (s : State κ) (peer : κ) :
    Option (State κ × Event κ) :=
  let t := s.endpoint.tasks.length
  if s.threadManager = .live then
    (ServerTcpEndpoint.step overwritePort s.endpoint (.acceptConnection peer)).bind
      fun (endpoint, _) => (ThreadManager.step s.pool (.scheduleTask t)).map
        fun (pool, _) => ({ s with pool := pool, endpoint := endpoint }, .accepted t)
  else none

/-- The next step of a worker; its task ends when `authentifyClient` has returned. -/
def workerStep (s : State κ) (w : Nat) : Option (State κ × Event κ) :=
  match s.running? w with
  | some t => if s.hasReturned t then poolStep s (.worker w) else none
  | none => poolStep s (.worker w)

/-- The next step of `~ServerManager`. -/
def destroy (s : State κ) : Destructor → Option (State κ × Event κ)
  | .notCalled =>
      some ({ s with authentificationService := .deleted, destructor := .destroyingThreads },
        .authDestroyed)
  | .destroyingThreads =>
      if s.pool.destructor = .joining ThreadManager.threadPoolSize then
        some ({ s with threadManager := .deleted, destructor := .shuttingDown },
          .threadsDestroyed)
      else poolStep s .destructor
  | .shuttingDown => some ({ s with destructor := .returned }, .protobufShutDown)
  | .returned => none

def step (overwritePort : κ → κ) (s : State κ) : Action κ → Option (State κ × Event κ)
  | .acceptConnection peer => acceptConnection overwritePort s peer
  | .caller c => poolStep s (.caller c)
  | .worker w => workerStep s w
  | .wake w => poolStep s (.wake w)
  | .handleAuthReq w authReqEnv registered =>
      (s.running? w).bind fun t => (ServerTcpEndpoint.step overwritePort s.endpoint
        (.handleAuthReq t authReqEnv registered)).map fun (endpoint, _) =>
          ({ s with endpoint := endpoint }, .fetched w t s.authentificationService)
  | .advance w =>
      (s.running? w).bind fun t => (ServerTcpEndpoint.step overwritePort s.endpoint
        (.advance t)).map fun (endpoint, e) => ({ s with endpoint := endpoint }, .endpoint e)
  | .destructor => destroy s s.destructor

/-- A manager that has been constructed, with the queue of its pool in the memory
`raw`. -/
def serverManager (overwritePort : κ → κ)
    (raw : CircularBuffer (ThreadManager.Task Nat) ThreadManager.taskQueueSize) :
    StepSystem (State κ) (Action κ) (Event κ) where
  init := { pool := (ThreadManager.threadManager raw).init }
  step := step overwritePort

/-! ## The kinds of steps -/

/-- The action of the pool that an action is. -/
def Action.pool? : Action κ → Option (ThreadManager.Action Nat)
  | .caller c => some (.caller c)
  | .worker w => some (.worker w)
  | .wake w => some (.wake w)
  | _ => none

/-- Everything one step can do. -/
inductive Steps (overwritePort : κ → κ) (s : State κ) :
    Action κ → State κ → Event κ → Prop where
  | accepted {peer : κ} {endpoint : ServerTcpEndpoint.State κ}
      {e : ServerTcpEndpoint.Event κ} {pool : ThreadManager.State Nat}
      {d : ThreadManager.Event Nat}
      (hendpoint : ServerTcpEndpoint.step overwritePort s.endpoint (.acceptConnection peer) =
        some (endpoint, e))
      (hpool : ThreadManager.step s.pool (.scheduleTask s.endpoint.tasks.length) =
        some (pool, d)) :
      Steps overwritePort s (.acceptConnection peer)
        { s with pool := pool, endpoint := endpoint } (.accepted s.endpoint.tasks.length)
  | worked {a : Action κ} {b : ThreadManager.Action Nat} {pool : ThreadManager.State Nat}
      {d : ThreadManager.Event Nat} (hb : a.pool? = some b)
      (hpool : ThreadManager.step s.pool b = some (pool, d))
      (hfinished : ∀ w task, d = .finished w task → s.hasReturned task.function = true) :
      Steps overwritePort s a { s with pool := pool } (.pool d)
  | fetched {w t : Nat} {authReqEnv : Envelope} {registered : Option UserID}
      {endpoint : ServerTcpEndpoint.State κ} {e : ServerTcpEndpoint.Event κ}
      (hw : s.running? w = some t)
      (hendpoint : ServerTcpEndpoint.step overwritePort s.endpoint
        (.handleAuthReq t authReqEnv registered) = some (endpoint, e)) :
      Steps overwritePort s (.handleAuthReq w authReqEnv registered)
        { s with endpoint := endpoint } (.fetched w t s.authentificationService)
  | advanced {w t : Nat} {endpoint : ServerTcpEndpoint.State κ}
      {e : ServerTcpEndpoint.Event κ} (hw : s.running? w = some t)
      (hendpoint : ServerTcpEndpoint.step overwritePort s.endpoint (.advance t) =
        some (endpoint, e)) :
      Steps overwritePort s (.advance w) { s with endpoint := endpoint } (.endpoint e)
  | authDestroyed (hd : s.destructor = .notCalled) :
      Steps overwritePort s .destructor
        { s with authentificationService := .deleted, destructor := .destroyingThreads }
        .authDestroyed
  | stopping {pool : ThreadManager.State Nat} {d : ThreadManager.Event Nat}
      (hd : s.destructor = .destroyingThreads)
      (hpool : ThreadManager.step s.pool .destructor = some (pool, d)) :
      Steps overwritePort s .destructor { s with pool := pool } (.pool d)
  | threadsDestroyed (hd : s.destructor = .destroyingThreads)
      (hjoined : s.pool.destructor = .joining ThreadManager.threadPoolSize) :
      Steps overwritePort s .destructor
        { s with threadManager := .deleted, destructor := .shuttingDown } .threadsDestroyed
  | protobufShutDown (hd : s.destructor = .shuttingDown) :
      Steps overwritePort s .destructor { s with destructor := .returned } .protobufShutDown

variable {overwritePort : κ → κ} {s s' : State κ} {e : Event κ} {h : List (Event κ)}
  {raw : CircularBuffer (ThreadManager.Task Nat) ThreadManager.taskQueueSize}

theorem poolStep_eq_some {b : ThreadManager.Action Nat} (hstep : poolStep s b = some (s', e)) :
    ∃ pool d, ThreadManager.step s.pool b = some (pool, d) ∧
      s' = { s with pool := pool } ∧ e = .pool d := by
  simp only [poolStep] at hstep
  split at hstep
  · rcases Option.map_eq_some_iff.mp hstep with ⟨⟨pool, d⟩, hpool, hpair⟩
    cases hpair
    exact ⟨pool, d, hpool, rfl, rfl⟩
  · contradiction

/-- A worker that finishes a task was in it. -/
theorem running?_of_finished {w v : Nat} {task : ThreadManager.Task Nat}
    {pool : ThreadManager.State Nat}
    (hpool : ThreadManager.step s.pool (.worker w) = some (pool, .finished v task)) :
    s.running? w = some task.function := by
  cases ThreadManager.steps_of_step hpool with
  | finished hw => rw [State.running?, hw]

theorem steps_of_workerStep {w : Nat} (hstep : workerStep s w = some (s', e)) :
    Steps overwritePort s (.worker w) s' e := by
  simp only [workerStep] at hstep
  split at hstep <;> rename_i hrunning
  · split at hstep <;> rename_i hreturned
    · rcases poolStep_eq_some hstep with ⟨pool, d, hpool, rfl, rfl⟩
      refine .worked rfl hpool ?_
      rintro v task rfl
      rw [running?_of_finished hpool] at hrunning
      cases hrunning
      exact hreturned
    · contradiction
  · rcases poolStep_eq_some hstep with ⟨pool, d, hpool, rfl, rfl⟩
    refine .worked rfl hpool ?_
    rintro v task rfl
    rw [running?_of_finished hpool] at hrunning
    contradiction

theorem steps_of_destroy (hstep : destroy s s.destructor = some (s', e)) :
    Steps overwritePort s .destructor s' e := by
  cases hd : s.destructor with
  | notCalled =>
      rw [hd] at hstep
      cases hstep
      exact .authDestroyed hd
  | destroyingThreads =>
      rw [hd] at hstep
      simp only [destroy] at hstep
      split at hstep <;> rename_i hjoined
      · cases hstep
        exact .threadsDestroyed hd hjoined
      · rcases poolStep_eq_some hstep with ⟨pool, d, hpool, rfl, rfl⟩
        exact .stopping hd hpool
  | shuttingDown =>
      rw [hd] at hstep
      cases hstep
      exact .protobufShutDown hd
  | returned =>
      rw [hd] at hstep
      contradiction

/-- Every step is of one of the kinds. -/
theorem steps_of_step {a : Action κ} (hstep : step overwritePort s a = some (s', e)) :
    Steps overwritePort s a s' e := by
  cases a with
  | acceptConnection peer =>
      simp only [step, acceptConnection] at hstep
      split at hstep
      · rcases Option.bind_eq_some_iff.mp hstep with ⟨⟨endpoint, d⟩, hendpoint, hrest⟩
        rcases Option.map_eq_some_iff.mp hrest with ⟨⟨pool, d'⟩, hpool, hpair⟩
        cases hpair
        exact .accepted hendpoint hpool
      · contradiction
  | caller c =>
      rcases poolStep_eq_some hstep with ⟨pool, d, hpool, rfl, rfl⟩
      refine .worked rfl hpool ?_
      rintro w task rfl
      cases ThreadManager.steps_of_step hpool
  | worker w => exact steps_of_workerStep hstep
  | wake w =>
      rcases poolStep_eq_some hstep with ⟨pool, d, hpool, rfl, rfl⟩
      refine .worked rfl hpool ?_
      rintro v task rfl
      cases ThreadManager.steps_of_step hpool
  | handleAuthReq w authReqEnv registered =>
      rcases Option.bind_eq_some_iff.mp hstep with ⟨t, hw, hrest⟩
      rcases Option.map_eq_some_iff.mp hrest with ⟨⟨endpoint, d⟩, hendpoint, hpair⟩
      cases hpair
      exact .fetched hw hendpoint
  | advance w =>
      rcases Option.bind_eq_some_iff.mp hstep with ⟨t, hw, hrest⟩
      rcases Option.map_eq_some_iff.mp hrest with ⟨⟨endpoint, d⟩, hendpoint, hpair⟩
      cases hpair
      exact .advanced hw hendpoint
  | destructor => exact steps_of_destroy hstep

/-! ## The two parts take their own runs -/

/-- The pool of the manager runs as a pool. -/
theorem exists_run_pool {G : Guard (State κ) (Action κ) (Event κ)}
    (hrun : (serverManager overwritePort raw).Run G h s) :
    ∃ h', (ThreadManager.threadManager raw).Run Any h' s.pool := by
  refine hrun.view (N := ThreadManager.threadManager raw) State.pool rfl ?_
  intro s a s' e hstep
  cases steps_of_step hstep with
  | accepted hendpoint hpool => exact .inr ⟨.scheduleTask _, _, hpool⟩
  | worked hb hpool hfinished => exact .inr ⟨_, _, hpool⟩
  | fetched hw hendpoint => exact .inl rfl
  | advanced hw hendpoint => exact .inl rfl
  | authDestroyed hd => exact .inl rfl
  | stopping hd hpool => exact .inr ⟨.destructor, _, hpool⟩
  | threadsDestroyed hd hjoined => exact .inl rfl
  | protobufShutDown hd => exact .inl rfl

/-- The endpoint of the manager runs as an endpoint. -/
theorem exists_run_endpoint {G : Guard (State κ) (Action κ) (Event κ)}
    (hrun : (serverManager overwritePort raw).Run G h s) :
    ∃ h', (ServerTcpEndpoint.logins overwritePort).Run Any h' s.endpoint := by
  refine hrun.view (N := ServerTcpEndpoint.logins overwritePort) State.endpoint rfl ?_
  intro s a s' e hstep
  cases steps_of_step hstep with
  | accepted hendpoint hpool => exact .inr ⟨.acceptConnection _, _, hendpoint⟩
  | worked hb hpool hfinished => exact .inl rfl
  | fetched hw hendpoint => exact .inr ⟨.handleAuthReq _ _ _, _, hendpoint⟩
  | advanced hw hendpoint => exact .inr ⟨.advance _, _, hendpoint⟩
  | authDestroyed hd => exact .inl rfl
  | stopping hd hpool => exact .inl rfl
  | threadsDestroyed hd hjoined => exact .inl rfl
  | protobufShutDown hd => exact .inl rfl

/-! ## What is asked of a run -/

/-- No task has fetched an instance that had been deleted. -/
def NoLateFetch (h : List (Event κ)) : Prop :=
  ∀ w t, .fetched w t .deleted ∉ h

/-- Every accepted connection's task has fetched the service. -/
def State.Fetched (s : State κ) : Prop :=
  ∀ (t : Nat) (task : ServerTcpEndpoint.Task κ),
    s.endpoint.tasks[t]? = some task → task.point ≠ .receiving

/-- The destructor starts when the tasks of all accepted connections have fetched the
service, and no connection is accepted after it. -/
def FetchesFirst : Guard (State κ) (Action κ) (Event κ) := fun _ s a =>
  match a with
  | .acceptConnection _ => s.destructor = .notCalled
  | .destructor => s.destructor = .notCalled → s.Fetched
  | _ => True

/-- The destructor starts when all calls of `schedule_task` have returned, and no
connection is accepted after it. -/
def AcceptsFirst : Guard (State κ) (Action κ) (Event κ) := fun _ s a =>
  match a with
  | .acceptConnection _ => s.destructor = .notCalled
  | .destructor =>
      s.destructor = .notCalled → ∀ caller ∈ s.pool.callers, caller = .returned
  | _ => True

theorem noLateFetch_snoc :
    NoLateFetch (h ++ [e]) ↔ NoLateFetch h ∧ ∀ w t, e ≠ .fetched w t .deleted := by
  simp [NoLateFetch, forall_and, eq_comm]

/-! ## Fetching first -/

/-- The service is deleted by the first step of the destructor. -/
theorem Steps.deleted_iff {a : Action κ} (hstep : Steps overwritePort s a s' e)
    (hold : s.authentificationService = .deleted ↔ s.destructor ≠ .notCalled) :
    s'.authentificationService = .deleted ↔ s'.destructor ≠ .notCalled := by
  cases hstep with
  | authDestroyed hd => simp
  | threadsDestroyed hd hjoined => simpa [hd] using hold
  | protobufShutDown hd => simpa [hd] using hold
  | _ => exact hold

theorem deleted_iff_of_run {G : Guard (State κ) (Action κ) (Event κ)}
    (hrun : (serverManager overwritePort raw).Run G h s) :
    s.authentificationService = .deleted ↔ s.destructor ≠ .notCalled := by
  refine Run.invariant (I := fun _ s => s.authentificationService = .deleted ↔
    s.destructor ≠ .notCalled) ?_ ?_ hrun
  · simp [serverManager]
  · intro h s a s' e _ hold _ hstep
    exact (steps_of_step hstep).deleted_iff hold

/-- A task that fetches the service has not fetched it before. -/
theorem not_fetched_of_moves {t : Nat} {endpoint : ServerTcpEndpoint.State κ}
    {after : ServerTcpEndpoint.Point}
    (hmoves : ServerTcpEndpoint.Moves s.endpoint endpoint t .receiving after) :
    ¬ s.Fetched := by
  rcases hmoves with ⟨task, ht, hpoint, _⟩
  intro hfetched
  exact hfetched t task ht hpoint

/-- The later steps of a task undo no fetch and make none. -/
theorem fetched_iff_of_advance {t : Nat} {endpoint : ServerTcpEndpoint.State κ}
    {d : ServerTcpEndpoint.Event κ}
    (hendpoint : ServerTcpEndpoint.step overwritePort s.endpoint (.advance t) =
      some (endpoint, d)) :
    State.Fetched { s with endpoint := endpoint } ↔ s.Fetched := by
  rcases ServerTcpEndpoint.moves_of_advance hendpoint with
    ⟨before, after, hmoves, hbefore, _, hafter⟩
  constructor
  · intro hfetched t' task ht'
    by_cases hsame : t' = t
    · subst hsame
      rcases hmoves with ⟨moved, ht, hpoint, _⟩
      rw [ht] at ht'
      cases ht'
      rw [hpoint]
      exact hbefore
    · exact hfetched t' task (hmoves.of_ne hsame ht')
  · intro hfetched t' task ht'
    rcases hmoves.cases ht' with ⟨_, hpoint⟩ | ⟨_, hold⟩
    · rw [hpoint]
      exact hafter
    · exact hfetched t' task hold

/-- When the destructor has started, nobody has to fetch any more. -/
theorem Steps.fetched_of_started {a : Action κ} (hstep : Steps overwritePort s a s' e)
    (hguard : FetchesFirst h s a) (hold : s.destructor ≠ .notCalled → s.Fetched) :
    s'.destructor ≠ .notCalled → s'.Fetched := by
  intro hstarted
  cases hstep with
  | accepted hendpoint hpool => exact absurd hguard hstarted
  | worked hb hpool hfinished => exact hold hstarted
  | fetched hw hendpoint =>
      rcases ServerTcpEndpoint.moves_of_handleAuthReq hendpoint with ⟨userId, hmoves⟩
      exact absurd (hold hstarted) (not_fetched_of_moves hmoves)
  | advanced hw hendpoint => exact (fetched_iff_of_advance hendpoint).mpr (hold hstarted)
  | authDestroyed hd => exact hguard hd
  | stopping hd hpool => exact hold (by simp [hd])
  | threadsDestroyed hd hjoined => exact hold (by simp [hd])
  | protobufShutDown hd => exact hold (by simp [hd])

/-- A deleted instance is fetched only by a task that comes late. -/
theorem Steps.late_of_fetched {a : Action κ} {w t : Nat}
    (hstep : Steps overwritePort s a s' (.fetched w t .deleted)) :
    s.authentificationService = .deleted ∧ ¬ s.Fetched := by
  generalize he : Event.fetched w t .deleted = e at hstep
  cases hstep with
  | fetched hw hendpoint =>
      rcases ServerTcpEndpoint.moves_of_handleAuthReq hendpoint with ⟨userId, hmoves⟩
      rw [Event.fetched.injEq] at he
      exact ⟨he.2.2.symm, not_fetched_of_moves hmoves⟩
  | _ => cases he

theorem noLateFetch_of_run (hrun : (serverManager overwritePort raw).Run FetchesFirst h s) :
    (s.destructor ≠ .notCalled → s.Fetched) ∧ NoLateFetch h := by
  refine Run.invariant (I := fun h s => (s.destructor ≠ .notCalled → s.Fetched) ∧
    NoLateFetch h) ?_ ?_ hrun
  · exact ⟨fun hne => absurd rfl hne, by simp [NoLateFetch]⟩
  · intro h s a s' e hrun hold hguard hstep
    have hsteps := steps_of_step hstep
    refine ⟨hsteps.fetched_of_started hguard hold.1, ?_⟩
    rw [noLateFetch_snoc]
    refine ⟨hold.2, ?_⟩
    rintro w t rfl
    rcases hsteps.late_of_fetched with ⟨hdeleted, hlate⟩
    exact hlate (hold.1 ((deleted_iff_of_run hrun).mp hdeleted))

/-! ## Starting too early -/

/-- The destructor has started before a task's fetch. -/
def State.Early (s : State κ) : Prop :=
  s.destructor ≠ .notCalled ∧ ¬ s.Fetched

/-- Tasks that have not fetched at the start still have to, or one has fetched a deleted
instance. -/
theorem Steps.early {a : Action κ} (hstep : Steps overwritePort s a s' e)
    (haccept : ∀ peer, a = .acceptConnection peer → s.destructor = .notCalled)
    (hdeleted : s.authentificationService = .deleted ↔ s.destructor ≠ .notCalled)
    (hearly : s.Early) : s'.Early ∨ ∃ w t, e = .fetched w t .deleted := by
  cases hstep with
  | accepted hendpoint hpool => exact absurd (haccept _ rfl) hearly.1
  | worked hb hpool hfinished => exact .inl hearly
  | fetched hw hendpoint =>
      right
      rw [hdeleted.mpr hearly.1]
      exact ⟨_, _, rfl⟩
  | advanced hw hendpoint =>
      exact .inl ⟨hearly.1, fun hfetched =>
        hearly.2 ((fetched_iff_of_advance hendpoint).mp hfetched)⟩
  | authDestroyed hd => exact absurd hd hearly.1
  | stopping hd hpool => exact .inl hearly
  | threadsDestroyed hd hjoined => exact .inl ⟨by simp, hearly.2⟩
  | protobufShutDown hd => exact .inl ⟨by simp, hearly.2⟩

/-- The only step out of order is the destructor's first one. -/
theorem Steps.early_of_not_fetchesFirst {a : Action κ} (hstep : Steps overwritePort s a s' e)
    (haccepts : AcceptsFirst h s a) (hnot : ¬ FetchesFirst h s a) : s'.Early := by
  cases a with
  | acceptConnection peer => exact absurd haccepts hnot
  | destructor =>
      have hearly : s.destructor = .notCalled ∧ ¬ s.Fetched := Classical.not_imp.mp hnot
      cases hstep with
      | worked hb hpool hfinished => cases hb
      | authDestroyed hd => exact ⟨by simp, hearly.2⟩
      | stopping hd hpool => simp [hd] at hearly
      | threadsDestroyed hd hjoined => simp [hd] at hearly
      | protobufShutDown hd => simp [hd] at hearly
  | _ => exact absurd trivial hnot

/-- A run is in order, has fetched a deleted instance, or has started too early. -/
theorem inOrder_or_early (hrun : (serverManager overwritePort raw).Run AcceptsFirst h s) :
    (serverManager overwritePort raw).Run FetchesFirst h s ∨ ¬ NoLateFetch h ∨ s.Early := by
  refine Run.invariant (I := fun h s => (serverManager overwritePort raw).Run FetchesFirst h s ∨
    ¬ NoLateFetch h ∨ s.Early) (.inl .start) ?_ hrun
  intro h s a s' e hrun hold haccepts hstep
  have hsteps := steps_of_step hstep
  have haccept : ∀ peer, a = .acceptConnection peer → s.destructor = .notCalled := by
    rintro peer rfl
    exact haccepts
  rcases hold with horder | hlate | hearly
  · by_cases hfetches : FetchesFirst h s a
    · exact .inl (.step horder hfetches hstep)
    · exact .inr (.inr (hsteps.early_of_not_fetchesFirst haccepts hfetches))
  · exact .inr (.inl fun hnone => hlate (noLateFetch_snoc.mp hnone).1)
  · rcases hsteps.early haccept (deleted_iff_of_run hrun) hearly with hearly | ⟨w, t, rfl⟩
    · exact .inr (.inr hearly)
    · exact .inr (.inl fun hnone => (noLateFetch_snoc.mp hnone).2 w t rfl)

/-! ## The shutdown in order -/

/-- The pool has taken its own run in order, and holds every run of `authentifyClient`
that has not returned. -/
structure Ordered (raw : CircularBuffer (ThreadManager.Task Nat) ThreadManager.taskQueueSize)
    (s : State κ) : Prop where
  pool : ∃ h', (ThreadManager.threadManager raw).Run ThreadManager.CallsReturnFirst h' s.pool
  notStarted : s.destructor = .notCalled → s.pool.destructor = .notCalled
  returned : s.destructor ≠ .notCalled → ∀ caller ∈ s.pool.callers, caller = .returned
  housed : ∀ (t : Nat) (task : ServerTcpEndpoint.Task κ), s.endpoint.tasks[t]? = some task →
    task.point ≠ .returned → ∃ held ∈ s.pool.held, held.function = t

/-- A step of the pool that finishes only what has returned. -/
theorem Ordered.housed_of_pool (hold : Ordered raw s) {b : ThreadManager.Action Nat}
    {pool : ThreadManager.State Nat} {d : ThreadManager.Event Nat}
    (hpool : ThreadManager.step s.pool b = some (pool, d))
    (hfinished : ∀ w task, d = .finished w task → s.hasReturned task.function = true) :
    ∀ (t : Nat) (task : ServerTcpEndpoint.Task κ), s.endpoint.tasks[t]? = some task →
      task.point ≠ .returned → ∃ held ∈ pool.held, held.function = t := by
  intro t task ht hpoint
  rcases hold.housed t task ht hpoint with ⟨held, hmem, rfl⟩
  rcases (ThreadManager.steps_of_step hpool).mem_held (.inl hmem) with hmem | hdone
  · exact ⟨held, hmem, rfl⟩
  · cases d with
    | finished w done =>
        cases hdone
        have hreturned := hfinished w held rfl
        rw [State.hasReturned, ht] at hreturned
        exact absurd (of_decide_eq_true hreturned) hpoint
    | _ => cases hdone

/-- A step of a task that has not returned. -/
theorem Ordered.moved (hold : Ordered raw s) {t : Nat}
    {endpoint : ServerTcpEndpoint.State κ} {before after : ServerTcpEndpoint.Point}
    (hmoves : ServerTcpEndpoint.Moves s.endpoint endpoint t before after)
    (hbefore : before ≠ .returned) :
    Ordered raw { s with endpoint := endpoint } := by
  refine ⟨hold.pool, hold.notStarted, hold.returned, ?_⟩
  intro t' task ht' hpoint
  rcases hmoves.cases ht' with ⟨rfl, _⟩ | ⟨_, hsame⟩
  · rcases hmoves with ⟨moved, ht, rfl, _⟩
    exact hold.housed t' moved ht hbefore
  · exact hold.housed t' task hsame hpoint

/-- A connection is accepted before the destructor starts. -/
theorem Ordered.accepted (hold : Ordered raw s) (hnot : s.destructor = .notCalled) {peer : κ}
    {endpoint : ServerTcpEndpoint.State κ} {d : ServerTcpEndpoint.Event κ}
    {pool : ThreadManager.State Nat} {d' : ThreadManager.Event Nat}
    (hendpoint : ServerTcpEndpoint.step overwritePort s.endpoint (.acceptConnection peer) =
      some (endpoint, d))
    (hpool : ThreadManager.step s.pool (.scheduleTask s.endpoint.tasks.length) =
      some (pool, d')) :
    Ordered raw { s with pool := pool, endpoint := endpoint } := by
  have hpooled := ThreadManager.steps_of_step hpool
  constructor
  · rcases hold.pool with ⟨h', hrun⟩
    have hguard : ThreadManager.CallsReturnFirst h' s.pool
        (.scheduleTask s.endpoint.tasks.length) := hold.notStarted hnot
    exact ⟨_, .step hrun hguard hpool⟩
  · intro _
    rw [hpooled.destructor_eq (by simp)]
    exact hold.notStarted hnot
  · intro hstarted
    exact absurd hnot hstarted
  · intro t task ht hpoint
    have hkept : ∀ held, held ∈ s.pool.held ∨ d'.called? = some held → held ∈ pool.held := by
      intro held hmem
      refine (hpooled.mem_held hmem).resolve_right ?_
      cases hpooled
      simp [ThreadManager.Event.finished?]
    cases hendpoint
    rcases getElem?_append_cases ht with ⟨rfl, _⟩ | ht
    · cases hpooled
      exact ⟨⟨_, _⟩, hkept _ (.inr rfl), rfl⟩
    · rcases hold.housed t task ht hpoint with ⟨held, hmem, rfl⟩
      exact ⟨held, hkept held (.inl hmem), rfl⟩

/-- A step of the pool other than a new call. -/
theorem Ordered.pooled (hold : Ordered raw s) {b : ThreadManager.Action Nat}
    {pool : ThreadManager.State Nat} {d : ThreadManager.Event Nat}
    (hpool : ThreadManager.step s.pool b = some (pool, d))
    (hb : ∀ newTask, b ≠ .scheduleTask newTask)
    (hdestructor : b = .destructor → s.destructor ≠ .notCalled)
    (hfinished : ∀ w task, d = .finished w task → s.hasReturned task.function = true) :
    Ordered raw { s with pool := pool } := by
  have hpooled := ThreadManager.steps_of_step hpool
  constructor
  · rcases hold.pool with ⟨h', hrun⟩
    refine ⟨_, .step hrun ?_ hpool⟩
    cases b with
    | scheduleTask newTask => exact absurd rfl (hb newTask)
    | destructor => exact fun _ => hold.returned (hdestructor rfl)
    | _ => trivial
  · intro hnot
    rw [hpooled.destructor_eq fun heq => hdestructor heq hnot]
    exact hold.notStarted hnot
  · intro hstarted
    have hall := hold.returned hstarted
    rw [hpooled.callers_eq hb hall]
    exact hall
  · exact hold.housed_of_pool hpool hfinished

theorem Action.pool?_ne {a : Action κ} {b : ThreadManager.Action Nat} (hb : a.pool? = some b) :
    (∀ newTask, b ≠ .scheduleTask newTask) ∧ b ≠ .destructor := by
  cases a <;> cases hb <;> simp

/-- Every admitted step keeps the order. -/
theorem Ordered.step (hold : Ordered raw s) {a : Action κ} (hstep : Steps overwritePort s a s' e)
    (hguard : AcceptsFirst h s a) : Ordered raw s' := by
  cases hstep with
  | accepted hendpoint hpool => exact hold.accepted hguard hendpoint hpool
  | worked hb hpool hfinished =>
      rcases Action.pool?_ne hb with ⟨hcall, hdestructor⟩
      exact hold.pooled hpool hcall (fun heq => absurd heq hdestructor) hfinished
  | fetched hw hendpoint =>
      rcases ServerTcpEndpoint.moves_of_handleAuthReq hendpoint with ⟨userId, hmoves⟩
      exact hold.moved hmoves (by simp)
  | advanced hw hendpoint =>
      rcases ServerTcpEndpoint.moves_of_advance hendpoint with
        ⟨before, after, hmoves, _, hbefore, _⟩
      exact hold.moved hmoves hbefore
  | authDestroyed hd => exact ⟨hold.pool, by simp, fun _ => hguard hd, hold.housed⟩
  | stopping hd hpool =>
      refine hold.pooled hpool (by simp) (by simp [hd]) ?_
      rintro w task rfl
      cases ThreadManager.steps_of_step hpool
  | threadsDestroyed hd hjoined =>
      exact ⟨hold.pool, by simp, fun _ => hold.returned (by simp [hd]), hold.housed⟩
  | protobufShutDown hd =>
      exact ⟨hold.pool, by simp, fun _ => hold.returned (by simp [hd]), hold.housed⟩

theorem ordered_run (hrun : (serverManager overwritePort raw).Run AcceptsFirst h s) :
    Ordered raw s := by
  refine Run.invariant (I := fun _ s => Ordered raw s) ?_ ?_ hrun
  · refine ⟨⟨[], .start⟩, fun _ => rfl, fun hne => absurd rfl hne, ?_⟩
    intro t task ht
    cases ht
  · intro h s a s' e _ hold hguard hstep
    exact hold.step (steps_of_step hstep) hguard

/-- Once the workers are joined, every run of `authentifyClient` has returned. -/
theorem Ordered.finished_of_joined (hold : Ordered raw s)
    (hjoined : s.pool.destructor = .joining ThreadManager.threadPoolSize) :
    s.endpoint.Finished := by
  rcases hold.pool with ⟨h', hrun⟩
  rcases (ThreadManager.draining_of_run hrun).nothing_left
    (ThreadManager.length_workers_of_run hrun) hjoined with ⟨hunscheduled, htasks, hprogress⟩
  intro t task ht
  by_contra hpoint
  rcases hold.housed t task ht hpoint with ⟨held, hmem, _⟩
  rw [ThreadManager.State.held, hunscheduled, htasks, hprogress] at hmem
  contradiction

/-- If the destructor starts when all accepted connections' tasks have fetched the service,
none fetches it deleted; a run to the end of the pool is without such a fetch only then. -/
theorem noLateFetch_iff (overwritePort : κ → κ)
    (raw : CircularBuffer (ThreadManager.Task Nat) ThreadManager.taskQueueSize)
    (h : List (Event κ)) (s : State κ) :
    ((serverManager overwritePort raw).Run FetchesFirst h s → NoLateFetch h) ∧
    ((serverManager overwritePort raw).Run AcceptsFirst h s →
      s.pool.destructor = .joining ThreadManager.threadPoolSize →
        (NoLateFetch h ↔ (serverManager overwritePort raw).Run FetchesFirst h s)) := by
  refine ⟨fun hrun => (noLateFetch_of_run hrun).2, ?_⟩
  intro hrun hjoined
  refine ⟨?_, fun horder => (noLateFetch_of_run horder).2⟩
  intro hnone
  rcases inOrder_or_early hrun with horder | hlate | hearly
  · exact horder
  · exact absurd hnone hlate
  · -- the pool has run every task to its end, so that all have fetched
    exfalso
    refine hearly.2 fun t task ht => ?_
    rw [(ordered_run hrun).finished_of_joined hjoined t task ht]
    simp

/-- A manager whose addresses are numbers without a port. -/
abbrev someManager : StepSystem (State Nat) (Action Nat) (Event Nat) :=
  serverManager id ThreadManager.someMemory

/-- One connection becomes a task that a worker takes. -/
def oneTask : List (Action Nat) :=
  [.acceptConnection 7, .caller 0, .caller 0, .worker 0]

/-- The request of a registered user, fetched and checked by worker 0. -/
def oneFetch : Action Nat :=
  .handleAuthReq 0 (AuthentificationService.serviceEnvelope 0) (some 1)

/-- The task goes on to its end, and the destructor to its own. -/
def shutdown : List (Action Nat) :=
  [.destructor, .advance 0, .advance 0, .advance 0, .worker 0, .destructor, .destructor,
    .worker 0, .worker 1, .worker 2, .worker 3, .destructor, .destructor, .destructor,
    .destructor, .destructor, .destructor]

/-- The test of {lit}`FetchesFirst`. -/
def fetchesFirst (_ : List (Event Nat)) (s : State Nat) : Action Nat → Bool
  | .acceptConnection _ => s.destructor = .notCalled
  | .destructor =>
      s.destructor ≠ .notCalled || s.endpoint.tasks.all (·.point ≠ .receiving)
  | _ => true

/-- The test of {lit}`AcceptsFirst`. -/
def acceptsFirst (_ : List (Event Nat)) (s : State Nat) : Action Nat → Bool
  | .acceptConnection _ => s.destructor = .notCalled
  | .destructor => s.destructor ≠ .notCalled || s.pool.callers.all (· = .returned)
  | _ => true

theorem fetchesFirst_guard (h : List (Event Nat)) (s : State Nat) (a : Action Nat)
    (htest : fetchesFirst h s a = true) : FetchesFirst h s a := by
  cases a with
  | acceptConnection peer =>
      have hnot : s.destructor = .notCalled := by simpa [fetchesFirst] using htest
      exact hnot
  | destructor =>
      intro hnot t task ht
      have hall : ∀ task ∈ s.endpoint.tasks, task.point ≠ .receiving := by
        simpa [fetchesFirst, hnot] using htest
      exact hall task (List.mem_of_getElem? ht)
  | _ => trivial

theorem acceptsFirst_guard (h : List (Event Nat)) (s : State Nat) (a : Action Nat)
    (htest : acceptsFirst h s a = true) : AcceptsFirst h s a := by
  cases a with
  | acceptConnection peer =>
      have hnot : s.destructor = .notCalled := by simpa [acceptsFirst] using htest
      exact hnot
  | destructor =>
      intro hnot
      simpa [acceptsFirst, hnot] using htest
  | _ => trivial

/-- A task that has fetched the service when the destructor starts is run to its end. -/
theorem noLateFetch_shutdown :
    ∃ h s, someManager.Run AcceptsFirst h s ∧
      s.destructor = .returned ∧ .fetched 0 0 .live ∈ h ∧ NoLateFetch h ∧
      (NoLateFetch h ↔ someManager.Run FetchesFirst h s) := by
  have hfinal : (someManager.execFrom (fun h s a => fetchesFirst h s a && acceptsFirst h s a) []
      someManager.init (oneTask ++ oneFetch :: shutdown)).map
      (fun r => (r.2.destructor, r.2.pool.destructor, decide (.fetched 0 0 .live ∈ r.1))) =
        some (.returned, .joining ThreadManager.threadPoolSize, true) := by
    decide +kernel
  rcases Option.map_eq_some_iff.mp hfinal with ⟨⟨h, s⟩, hexec, hends⟩
  simp only [Prod.mk.injEq, decide_eq_true_eq] at hends
  rcases hends with ⟨hreturned, hjoined, hfetched⟩
  have horder : someManager.Run FetchesFirst h s :=
    Run.of_execFrom (fun h s a htest =>
      fetchesFirst_guard h s a (Bool.and_eq_true_iff.mp htest).1) .start hexec
  have haccepts : someManager.Run AcceptsFirst h s :=
    Run.of_execFrom (fun h s a htest =>
      acceptsFirst_guard h s a (Bool.and_eq_true_iff.mp htest).2) .start hexec
  have hboth := noLateFetch_iff id ThreadManager.someMemory h s
  exact ⟨h, s, haccepts, hreturned, hfetched, hboth.1 horder, hboth.2 haccepts hjoined⟩

/-- A task that a worker has taken when the destructor starts fetches the deleted
instance. -/
theorem noLateFetch_fails :
    ∃ h s, someManager.Run AcceptsFirst h s ∧
      ¬ NoLateFetch h := by
  have hlate : (someManager.execFrom acceptsFirst [] someManager.init
      (oneTask ++ [.destructor, oneFetch])).map
      (fun r => decide (.fetched 0 0 .deleted ∈ r.1)) = some true := by
    decide +kernel
  rcases Option.map_eq_some_iff.mp hlate with ⟨⟨h, s⟩, hexec, hmem⟩
  refine ⟨h, s, Run.of_execFrom acceptsFirst_guard .start hexec, ?_⟩
  intro hnone
  exact hnone 0 0 (of_decide_eq_true hmem)

end ServerManager.Shutdown

end SimpleMessenger
