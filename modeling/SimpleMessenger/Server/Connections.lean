import SimpleMessenger.Server.Shutdown

/-!
# The sockets of `ServerTcpEndpoint.cpp`

A connection comes with the descriptor that {lit}`accept4` returns for it, and the task
that authentifies the client receives from it, answers on it and closes it.  The system
hands a descriptor out again as soon as it is closed, so that a second close, or a use
behind the close, would hit another client's connection.

Main results:

- Theorem {lit}`task_cases`: what a step of the manager does to a task and its socket.
- Theorem {lit}`sockets_closed_once`: in every run every use of a descriptor hits the
  connection that it was accepted for, and every task closes it once; behind a shutdown in
  order none is open.

Current gaps:

- The result of {lit}`close` is ignored by the source and left out.
-/

universe u

namespace SimpleMessenger

open StepSystem

namespace ServerManager.Connections

open Shutdown ServerTcpEndpoint

/-! ## Tasks with their sockets -/

/-- What `authentifyClient` does with its socket. -/
inductive Use where
  | recv
  | send
  | close
deriving DecidableEq

/-- The descriptor that the system call gets; `receiveEnvelope` and `sendEnvelope` take
the descriptor 0 for their own socket. -/
def handle (socketId clientSocketId : Nat) : Use → Nat
  | .close => clientSocketId
  | _ => if clientSocketId = 0 then socketId else clientSocketId

/-- The manager, the sockets by the numbers of their tasks, and those that are open. -/
structure State (κ : Type u) where
  manager : Shutdown.State κ
  clientSocketIds : List Nat := []
  openSockets : List Nat := []

inductive Action (κ : Type u) where
  /-- `acceptConnection`, with what `accept4` returns. -/
  | acceptConnection (peer : κ) (clientSocketId : Int)
  /-- Any other step of the manager. -/
  | manager (a : Shutdown.Action κ)

inductive Event where
  | failed
  | accepted (t clientSocketId : Nat)
  | quiet
  /-- Task `t` hands the descriptor to the system; whether its own is open then. -/
  | used (t : Nat) (use : Use) (descriptor : Nat) (isOpen : Bool)
deriving DecidableEq

variable {κ : Type u}

/-- The task that uses its socket in a step, and what for. -/
def socketUse : Shutdown.Event κ → Option (Nat × Use)
  | .fetched _ t _ => some (t, .recv)
  | .endpoint (.notified t _) => some (t, .send)
  | .endpoint (.closed t) => some (t, .close)
  | _ => none

/-- The next task has the socket `id`. -/
def State.withTask (s : State κ) (manager : Shutdown.State κ) (id : Nat) : State κ where
  manager := manager
  clientSocketIds := s.clientSocketIds ++ [id]
  openSockets := s.openSockets ++ [id]

/-- Task `t` uses its socket. -/
def State.touch (socketId : Nat) (s : State κ) (t : Nat) (use : Use) : Option (State κ × Event) :=
  s.clientSocketIds[t]?.map fun id =>
    ({ s with openSockets := if use = .close then s.openSockets.erase id else s.openSockets },
      .used t use (handle socketId id use) (id ∈ s.openSockets))

/-- A step of the manager other than an accepted connection. -/
def work (socketId : Nat) (overwritePort : κ → κ) (s : State κ) (a : Shutdown.Action κ) :
    Option (State κ × Event) :=
  (Shutdown.step overwritePort s.manager a).bind fun (manager, e) =>
    match socketUse e with
    | none => some ({ s with manager := manager }, .quiet)
    | some (t, use) => State.touch socketId { s with manager := manager } t use

/-- One step; the system hands out a descriptor that is not open, so neither one of the
tasks' nor that of the endpoint itself. -/
def step (socketId : Nat) (overwritePort : κ → κ) (s : State κ) :
    Action κ → Option (State κ × Event)
  | .acceptConnection peer clientSocketId =>
      if clientSocketId < 0 then some (s, .failed)
      else if clientSocketId.toNat ∈ socketId :: s.openSockets then none
      else
        (Shutdown.step overwritePort s.manager (.acceptConnection peer)).map fun (manager, _) =>
          (s.withTask manager clientSocketId.toNat,
            .accepted s.manager.endpoint.tasks.length clientSocketId.toNat)
  | .manager (.acceptConnection _) => none
  | .manager a => work socketId overwritePort s a

/-- A manager that has been constructed, with the socket `socketId` at its endpoint. -/
def connections (socketId : Nat) (overwritePort : κ → κ)
    (raw : CircularBuffer (ThreadManager.Task Nat) ThreadManager.taskQueueSize) :
    StepSystem (State κ) (Action κ) Event where
  init := { manager := (serverManager overwritePort raw).init }
  step := step socketId overwritePort

variable {socketId : Nat} {overwritePort : κ → κ}
  {raw : CircularBuffer (ThreadManager.Task Nat) ThreadManager.taskQueueSize}

/-! ## The kinds of steps -/

/-- Everything one step can do. -/
inductive Steps (socketId : Nat) (overwritePort : κ → κ) (s : State κ) :
    Action κ → State κ → Event → Prop where
  | failed {peer : κ} {clientSocketId : Int} :
      Steps socketId overwritePort s (.acceptConnection peer clientSocketId) s .failed
  | accepted {peer : κ} {clientSocketId : Int} {manager : Shutdown.State κ}
      {e : Shutdown.Event κ} (hnew : clientSocketId.toNat ∉ socketId :: s.openSockets)
      (hstep : Shutdown.step overwritePort s.manager (.acceptConnection peer) =
        some (manager, e)) :
      Steps socketId overwritePort s (.acceptConnection peer clientSocketId)
        (s.withTask manager clientSocketId.toNat)
        (.accepted s.manager.endpoint.tasks.length clientSocketId.toNat)
  | quiet {a : Shutdown.Action κ} {manager : Shutdown.State κ} {e : Shutdown.Event κ}
      (ha : ∀ peer, a ≠ .acceptConnection peer)
      (hstep : Shutdown.step overwritePort s.manager a = some (manager, e))
      (hnone : socketUse e = none) :
      Steps socketId overwritePort s (.manager a) { s with manager := manager } .quiet
  | used {a : Shutdown.Action κ} {manager : Shutdown.State κ} {e : Shutdown.Event κ} {t id : Nat}
      {use : Use} (ha : ∀ peer, a ≠ .acceptConnection peer)
      (hstep : Shutdown.step overwritePort s.manager a = some (manager, e))
      (huse : socketUse e = some (t, use)) (hid : s.clientSocketIds[t]? = some id) :
      Steps socketId overwritePort s (.manager a)
        { s with
            manager := manager
            openSockets := if use = .close then s.openSockets.erase id else s.openSockets }
        (.used t use (handle socketId id use) (id ∈ s.openSockets))

theorem steps_of_work {s s' : State κ} {a : Shutdown.Action κ} {e : Event}
    (ha : ∀ peer, a ≠ .acceptConnection peer)
    (hstep : work socketId overwritePort s a = some (s', e)) :
    Steps socketId overwritePort s (.manager a) s' e := by
  rcases Option.bind_eq_some_iff.mp hstep with ⟨⟨manager, d⟩, hmanager, hrest⟩
  cases huse : socketUse d with
  | none =>
      simp only [huse] at hrest
      cases hrest
      exact .quiet ha hmanager huse
  | some p =>
      simp only [huse] at hrest
      rcases Option.map_eq_some_iff.mp hrest with ⟨id, hid, heq⟩
      cases heq
      exact .used ha hmanager huse hid

theorem steps_of_step {s s' : State κ} {a : Action κ} {e : Event}
    (hstep : step socketId overwritePort s a = some (s', e)) :
    Steps socketId overwritePort s a s' e := by
  cases a with
  | acceptConnection peer clientSocketId =>
      simp only [step] at hstep
      split_ifs at hstep with hneg hopen
      · cases hstep
        exact .failed
      · rcases Option.map_eq_some_iff.mp hstep with ⟨⟨manager, d⟩, hmanager, heq⟩
        cases heq
        exact .accepted hopen hmanager
  | manager a =>
      cases a with
      | acceptConnection peer => cases hstep
      | _ => exact steps_of_work nofun hstep

/-- A step of the manager moves no task, or it moves one: then only that task uses its
socket, and it closes it when it returns. -/
theorem task_cases {s s' : Shutdown.State κ} {a : Shutdown.Action κ} {e : Shutdown.Event κ}
    (ha : ∀ peer, a ≠ .acceptConnection peer)
    (hstep : Shutdown.step overwritePort s a = some (s', e)) :
    (s'.endpoint.tasks = s.endpoint.tasks ∧ socketUse e = none) ∨
      ∃ t before after, Moves s.endpoint s'.endpoint t before after ∧ before ≠ .returned ∧
        (after = .returned ↔ socketUse e = some (t, .close)) ∧
        ∀ t' use, socketUse e = some (t', use) → t' = t := by
  cases Shutdown.steps_of_step hstep with
  | accepted _ _ => exact absurd rfl (ha _)
  | worked _ _ _ | authDestroyed _ | stopping _ _ | threadsDestroyed _ _ | protobufShutDown _ =>
      exact .inl ⟨rfl, rfl⟩
  | fetched hw hendpoint =>
      rcases moves_of_handleAuthReq hendpoint with ⟨userId, hmoves⟩
      exact .inr ⟨_, _, _, hmoves, by simp, by simp [socketUse], by simp [socketUse]⟩
  | advanced hw hendpoint =>
      right
      cases ServerTcpEndpoint.steps_of_step hendpoint with
      | rejected ht hpoint | accepted ht hpoint | registered ht hpoint | closed ht hpoint =>
          exact ⟨_, _, _, ⟨_, ht, hpoint, rfl⟩, by simp, by simp [socketUse], by simp [socketUse]⟩

/-- An accepted connection is one more task. -/
theorem tasks_of_accepted {s s' : Shutdown.State κ} {peer : κ} {e : Shutdown.Event κ}
    (hstep : Shutdown.step overwritePort s (.acceptConnection peer) = some (s', e)) :
    ∃ task : ServerTcpEndpoint.Task κ, task.point ≠ .returned ∧
      s'.endpoint.tasks = s.endpoint.tasks ++ [task] := by
  cases Shutdown.steps_of_step hstep with
  | accepted hendpoint _ =>
      cases hendpoint
      exact ⟨_, by simp, rfl⟩
  | worked hb _ _ => cases hb

/-! ## The ledger of sockets -/

/-- The socket belongs to task `t`, which has not returned. -/
def State.Holds (s : State κ) (t id : Nat) : Prop :=
  s.clientSocketIds[t]? = some id ∧
    ∃ task, s.manager.endpoint.tasks[t]? = some task ∧ task.point ≠ .returned

/-- The open sockets are those of the tasks that have not returned, one each. -/
structure Ledger (s : State κ) : Prop where
  length_eq : s.clientSocketIds.length = s.manager.endpoint.tasks.length
  nodup : s.openSockets.Nodup
  mem_iff : ∀ id, id ∈ s.openSockets ↔ ∃ t, s.Holds t id
  unshared : ∀ t t' id, s.Holds t id → s.Holds t' id → t = t'

/-- A ledger depends on who holds what. -/
theorem Ledger.of_holds {s s' : State κ} (hold : Ledger s)
    (hids : s'.clientSocketIds = s.clientSocketIds) (hopen : s'.openSockets = s.openSockets)
    (hlength : s'.manager.endpoint.tasks.length = s.manager.endpoint.tasks.length)
    (hholds : ∀ t id, s'.Holds t id ↔ s.Holds t id) : Ledger s' where
  length_eq := by rw [hids, hlength, hold.length_eq]
  nodup := hopen ▸ hold.nodup
  mem_iff := by
    intro id
    rw [hopen, hold.mem_iff]
    exact exists_congr fun t => (hholds t id).symm
  unshared := by
    intro t t' id ht ht'
    exact hold.unshared t t' id ((hholds t id).mp ht) ((hholds t' id).mp ht')

/-- A new task has the new socket, and the others keep theirs. -/
theorem Ledger.holds_withTask {s : State κ} (hold : Ledger s) {manager : Shutdown.State κ}
    {task : ServerTcpEndpoint.Task κ} (hpoint : task.point ≠ .returned)
    (htasks : manager.endpoint.tasks = s.manager.endpoint.tasks ++ [task]) {t id id' : Nat} :
    (s.withTask manager id).Holds t id' ↔
      s.Holds t id' ∨ (t = s.clientSocketIds.length ∧ id' = id) := by
  simp only [State.Holds, State.withTask, htasks, getElem?_concat_eq_some_iff]
  constructor
  · rintro ⟨hid | ⟨rfl, rfl⟩, moved, ht | ⟨hlast, rfl⟩, hmoved⟩
    · exact .inl ⟨hid, moved, ht, hmoved⟩
    · have hlt := (List.getElem?_eq_some_iff.mp hid).1
      rw [hlast, hold.length_eq] at hlt
      exact absurd hlt (Nat.lt_irrefl _)
    · exact .inr ⟨rfl, rfl⟩
    · exact .inr ⟨rfl, rfl⟩
  · rintro (⟨hid, moved, ht, hmoved⟩ | ⟨rfl, rfl⟩)
    · exact ⟨.inl hid, moved, .inl ht, hmoved⟩
    · exact ⟨.inr ⟨rfl, rfl⟩, task, .inr ⟨hold.length_eq, rfl⟩, hpoint⟩

/-- A new connection has a socket that is not open. -/
theorem Ledger.withTask {s : State κ} (hold : Ledger s) {id : Nat} (hnew : id ∉ s.openSockets)
    {peer : κ} {manager : Shutdown.State κ} {e : Shutdown.Event κ}
    (hstep : Shutdown.step overwritePort s.manager (.acceptConnection peer) = some (manager, e)) :
    Ledger (s.withTask manager id) := by
  rcases tasks_of_accepted hstep with ⟨task, hpoint, htasks⟩
  constructor
  · simp [State.withTask, htasks, hold.length_eq]
  · rw [State.withTask, List.nodup_append]
    refine ⟨hold.nodup, List.nodup_singleton _, ?_⟩
    rintro x hx y hy rfl
    rw [List.mem_singleton.mp hy] at hx
    exact hnew hx
  · intro id'
    simp only [hold.holds_withTask hpoint htasks, exists_or, exists_eq_left]
    simp [State.withTask, hold.mem_iff]
  · intro t t' id' ht ht'
    have hfresh : ∀ t, ¬ s.Holds t id := fun t ht => hnew ((hold.mem_iff id).mpr ⟨t, ht⟩)
    rw [hold.holds_withTask hpoint htasks] at ht ht'
    rcases ht with ht | ⟨rfl, rfl⟩
    · rcases ht' with ht' | ⟨_, rfl⟩
      · exact hold.unshared t t' id' ht ht'
      · exact absurd ht (hfresh t)
    · rcases ht' with ht' | ⟨rfl, _⟩
      · exact absurd ht' (hfresh t')
      · rfl

/-- A task that moves keeps its socket until it returns. -/
theorem holds_of_moves {s : State κ} {manager : Shutdown.State κ} {t : Nat}
    {before after : ServerTcpEndpoint.Point}
    (hmoves : Moves s.manager.endpoint manager.endpoint t before after)
    (hbefore : before ≠ .returned) {openSockets : List Nat} {t' id : Nat} :
    State.Holds { s with manager := manager, openSockets := openSockets } t' id ↔
      s.Holds t' id ∧ (t' = t → after ≠ .returned) := by
  rcases hmoves with ⟨task, ht, hpoint, htasks⟩
  simp only [State.Holds, htasks]
  by_cases hsame : t' = t
  · subst hsame
    have hlt := (List.getElem?_eq_some_iff.mp ht).1
    simp [ht, List.getElem?_set_self hlt, hpoint, hbefore]
  · simp [List.getElem?_set_ne (Ne.symm hsame), hsame]

/-- A step that closes nothing leaves the ledger as it is. -/
theorem Ledger.keep {s : State κ} (hold : Ledger s) {a : Shutdown.Action κ}
    {manager : Shutdown.State κ} {e : Shutdown.Event κ} (ha : ∀ peer, a ≠ .acceptConnection peer)
    (hstep : Shutdown.step overwritePort s.manager a = some (manager, e))
    (hopen : ∀ t, socketUse e ≠ some (t, .close)) : Ledger { s with manager := manager } := by
  rcases task_cases ha hstep with ⟨htasks, _⟩ | ⟨t, before, after, hmoves, hbefore, hclose, _⟩
  · refine hold.of_holds rfl rfl (by rw [htasks]) fun t id => ?_
    rw [State.Holds, State.Holds, htasks]
  · have hafter : after ≠ .returned := fun hreturned => hopen t (hclose.mp hreturned)
    refine hold.of_holds rfl rfl ?_ fun t' id => ?_
    · rcases hmoves with ⟨task, _, _, htasks⟩
      rw [htasks, List.length_set]
    · simp [holds_of_moves hmoves hbefore, hafter]

/-- A task that closes its socket returns, and nobody else has that socket. -/
theorem Ledger.close {s : State κ} (hold : Ledger s) {a : Shutdown.Action κ}
    {manager : Shutdown.State κ} {e : Shutdown.Event κ} {t id : Nat}
    (ha : ∀ peer, a ≠ .acceptConnection peer)
    (hstep : Shutdown.step overwritePort s.manager a = some (manager, e))
    (huse : socketUse e = some (t, .close)) (hid : s.clientSocketIds[t]? = some id) :
    Ledger { s with manager := manager, openSockets := s.openSockets.erase id } := by
  rcases task_cases ha hstep with ⟨_, hnone⟩ | ⟨t', before, after, hmoves, hbefore, hclose, hone⟩
  · rw [hnone] at huse
    cases huse
  obtain rfl := hone t .close huse
  have hafter : after = .returned := hclose.mpr huse
  have hown : s.Holds t id := by
    rcases hmoves with ⟨task, ht, hpoint, _⟩
    exact ⟨hid, task, ht, hpoint ▸ hbefore⟩
  have hholds : ∀ t' id', State.Holds ⟨manager, s.clientSocketIds, s.openSockets.erase id⟩ t' id' ↔
      s.Holds t' id' ∧ (t' = t → after ≠ .returned) := fun t' id' => holds_of_moves hmoves hbefore
  constructor
  · rcases hmoves with ⟨task, _, _, htasks⟩
    simp [htasks, hold.length_eq]
  · exact hold.nodup.erase id
  · intro id'
    simp only [hholds, hold.nodup.mem_erase_iff, hold.mem_iff]
    constructor
    · rintro ⟨hne, t', ht'⟩
      refine ⟨t', ht', ?_⟩
      rintro rfl
      exact absurd (Option.some.inj (ht'.1.symm.trans hid)) hne
    · rintro ⟨t', ht', hother⟩
      refine ⟨?_, t', ht'⟩
      rintro rfl
      exact hother (hold.unshared t' t id' ht' hown) hafter
  · intro t₁ t₂ id' h₁ h₂
    exact hold.unshared t₁ t₂ id' ((hholds t₁ id').mp h₁).1 ((hholds t₂ id').mp h₂).1

/-- Every step keeps the ledger. -/
theorem Ledger.step {s s' : State κ} (hold : Ledger s) {a : Action κ} {e : Event}
    (hstep : Steps socketId overwritePort s a s' e) : Ledger s' := by
  cases hstep with
  | failed => exact hold
  | accepted hnew hmanager =>
      exact hold.withTask (fun hmem => hnew (List.mem_cons_of_mem _ hmem)) hmanager
  | quiet ha hmanager hnone => exact hold.keep ha hmanager (by simp [hnone])
  | @used a manager e t id use ha hmanager huse hid =>
      by_cases hclose : use = .close
      · subst hclose
        simpa using hold.close ha hmanager huse hid
      · rw [if_neg hclose]
        exact hold.keep ha hmanager (by simp [huse, hclose])

theorem ledger_run {G : Guard (State κ) (Action κ) Event} {h : List Event} {s : State κ}
    (hrun : (connections socketId overwritePort raw).Run G h s) : Ledger s := by
  refine Run.invariant (I := fun _ s => Ledger s) ?_ ?_ hrun
  · refine ⟨rfl, List.nodup_nil, ?_, ?_⟩
    · simp [connections, State.Holds]
    · rintro t t' id ⟨ht, _⟩
      simp [connections] at ht
  · intro h s a s' e _ hold _ hstep
    exact hold.step (steps_of_step hstep)

/-! ## The closings -/

def Event.closed? : Event → Option Nat
  | .used t .close _ _ => some t
  | _ => none

/-- The tasks that have closed their sockets. -/
def closings (h : List Event) : List Nat :=
  h.filterMap Event.closed?

theorem closings_snoc (h : List Event) (e : Event) :
    closings (h ++ [e]) = closings h ++ e.closed?.toList := by
  rw [closings, List.filterMap_append]
  cases hclosed : e.closed? <;> simp [closings, hclosed]

theorem closed?_used {t : Nat} {use : Use} {descriptor : Nat} {isOpen : Bool} :
    (Event.used t use descriptor isOpen).closed? = if use = .close then some t else none := by
  cases use <;> rfl

/-- Task `t` has returned. -/
def Returned (s : ServerTcpEndpoint.State κ) (t : Nat) : Prop :=
  ∃ task, s.tasks[t]? = some task ∧ task.point = .returned

/-- The history tells which sockets the tasks have; none is that of the endpoint. -/
structure Recorded (socketId : Nat) (h : List Event) (s : State κ) : Prop where
  accepted_iff : ∀ t id, .accepted t id ∈ h ↔ s.clientSocketIds[t]? = some id
  ne_socketId : ∀ t id, .accepted t id ∈ h → id ≠ socketId

/-- The history tells which tasks have returned: those that have closed their sockets, each
once. -/
structure ClosedOnce (h : List Event) (s : State κ) : Prop where
  nodup : (closings h).Nodup
  mem_iff : ∀ t, t ∈ closings h ↔ Returned s.manager.endpoint t

theorem Recorded.step {h : List Event} {s s' : State κ} (hold : Recorded socketId h s)
    (hledger : Ledger s) {a : Action κ} {e : Event}
    (hstep : Steps socketId overwritePort s a s' e) : Recorded socketId (h ++ [e]) s' := by
  cases hstep with
  | @accepted peer clientSocketId manager d hnew hmanager =>
      constructor
      · intro t id
        simp [hold.accepted_iff, ← hledger.length_eq, State.withTask, getElem?_concat_eq_some_iff]
      · intro t id ht
        rcases List.mem_append.mp ht with ht | ht
        · exact hold.ne_socketId t id ht
        · cases List.mem_singleton.mp ht
          exact fun hid => hnew (hid ▸ List.mem_cons_self)
  | failed | quiet _ _ _ | used _ _ _ _ =>
      constructor
      · simp [hold.accepted_iff]
      · simpa using hold.ne_socketId

theorem recorded_run {G : Guard (State κ) (Action κ) Event} {h : List Event} {s : State κ}
    (hrun : (connections socketId overwritePort raw).Run G h s) : Recorded socketId h s := by
  refine Run.invariant (I := Recorded socketId) ?_ ?_ hrun
  · constructor <;> simp [connections]
  · intro h s a s' e hrun hold _ hstep
    exact hold.step (ledger_run hrun) (steps_of_step hstep)

/-- A task that starts has not returned. -/
theorem returned_concat {s s' : ServerTcpEndpoint.State κ} {task : ServerTcpEndpoint.Task κ}
    (hpoint : task.point ≠ .returned) (htasks : s'.tasks = s.tasks ++ [task]) (t : Nat) :
    Returned s' t ↔ Returned s t := by
  simp only [Returned, htasks, getElem?_concat_eq_some_iff]
  constructor
  · rintro ⟨moved, ht | ⟨_, rfl⟩, hmoved⟩
    · exact ⟨moved, ht, hmoved⟩
    · exact absurd hmoved hpoint
  · rintro ⟨moved, ht, hmoved⟩
    exact ⟨moved, .inl ht, hmoved⟩

/-- Behind a step of a task, the tasks that have returned. -/
theorem returned_iff_of_moves {s s' : ServerTcpEndpoint.State κ} {t : Nat}
    {before after : ServerTcpEndpoint.Point} (hmoves : Moves s s' t before after)
    (hbefore : before ≠ .returned) (t' : Nat) :
    Returned s' t' ↔ Returned s t' ∨ (t' = t ∧ after = .returned) := by
  rcases hmoves with ⟨task, ht, hpoint, htasks⟩
  rw [Returned, Returned, htasks]
  by_cases hsame : t' = t
  · subst hsame
    have hlt := (List.getElem?_eq_some_iff.mp ht).1
    simp [ht, List.getElem?_set_self hlt, hpoint, hbefore]
  · simp [List.getElem?_set_ne (Ne.symm hsame), hsame]

/-- A step on which no task returns. -/
theorem ClosedOnce.keep {h : List Event} {s s' : State κ} (hold : ClosedOnce h s) {e : Event}
    (hclosed : e.closed? = none)
    (hreturned : ∀ t, Returned s'.manager.endpoint t ↔ Returned s.manager.endpoint t) :
    ClosedOnce (h ++ [e]) s' := by
  have hclosings : closings (h ++ [e]) = closings h := by simp [closings_snoc, hclosed]
  constructor
  · rw [hclosings]
    exact hold.nodup
  · intro t
    rw [hclosings, hold.mem_iff, hreturned]

/-- A task closes its socket when it returns, and has not returned before. -/
theorem ClosedOnce.step {h : List Event} {s s' : State κ} (hold : ClosedOnce h s) {a : Action κ}
    {e : Event} (hstep : Steps socketId overwritePort s a s' e) : ClosedOnce (h ++ [e]) s' := by
  cases hstep with
  | failed => exact hold.keep rfl fun _ => Iff.rfl
  | accepted hnew hmanager =>
      rcases tasks_of_accepted hmanager with ⟨task, hpoint, htasks⟩
      exact hold.keep rfl (returned_concat hpoint htasks)
  | quiet ha hmanager hnone =>
      refine hold.keep rfl fun t => ?_
      rcases task_cases ha hmanager with ⟨htasks, _⟩ | ⟨t', _, after, hmoves, hbefore, hclose, _⟩
      · rw [Returned, Returned, htasks]
      · simp [returned_iff_of_moves hmoves hbefore, hclose, hnone]
  | @used a manager e t id use ha hmanager huse hid =>
      rcases task_cases ha hmanager with ⟨_, hnone⟩ | ⟨t', _, after, hmoves, hbefore, hclose, hone⟩
      · rw [hnone] at huse
        cases huse
      obtain rfl := hone t use huse
      have hreturned := returned_iff_of_moves hmoves hbefore
      have hafter : after = .returned ↔ use = .close := by simp [hclose, huse]
      by_cases hclosing : use = .close
      · subst hclosing
        have hnot : t ∉ closings h := by
          rw [hold.mem_iff]
          rintro ⟨returned, ht, hpoint⟩
          rcases hmoves with ⟨task, ht', hbefore', _⟩
          rw [ht'] at ht
          cases ht
          exact hbefore (hbefore'.symm.trans hpoint)
        constructor
        · rw [closings_snoc, closed?_used, if_pos rfl]
          refine List.nodup_append.mpr ⟨hold.nodup, List.nodup_singleton t, ?_⟩
          rintro t' ht' _ hlast rfl
          exact hnot (List.mem_singleton.mp hlast ▸ ht')
        · intro t'
          simp [closings_snoc, closed?_used, hold.mem_iff, hreturned, hafter]
      · refine hold.keep (by simp [closed?_used, hclosing]) fun t' => ?_
        simp [hreturned, hafter, hclosing]

theorem closedOnce_run {G : Guard (State κ) (Action κ) Event} {h : List Event} {s : State κ}
    (hrun : (connections socketId overwritePort raw).Run G h s) : ClosedOnce h s := by
  refine Run.invariant (I := ClosedOnce) ?_ ?_ hrun
  · exact ⟨List.nodup_nil, by simp [connections, serverManager, closings, Returned]⟩
  · intro h s a s' e _ hold _ hstep
    exact hold.step (steps_of_step hstep)

/-- The task that holds a socket is the one that has accepted and not closed it. -/
theorem holds_iff {h : List Event} {s : State κ} (hledger : Ledger s)
    (hrecorded : Recorded socketId h s) (hclosed : ClosedOnce h s) {t id : Nat} :
    s.Holds t id ↔ .accepted t id ∈ h ∧ t ∉ closings h := by
  rw [hrecorded.accepted_iff, hclosed.mem_iff, State.Holds, Returned]
  refine and_congr_right fun hid => ?_
  have hlt : t < s.manager.endpoint.tasks.length := by
    rw [← hledger.length_eq]
    exact (List.getElem?_eq_some_iff.mp hid).1
  simp [List.getElem?_eq_getElem hlt]

/-! ## Sockets over a run -/

/-- Connections are accepted, and the destructor of the manager starts, as in
{lit}`Shutdown.AcceptsFirst`. -/
def AcceptsFirst : Guard (State κ) (Action κ) Event := fun _ s a =>
  match a with
  | .acceptConnection _ _ => s.manager.destructor = .notCalled
  | .manager a => Shutdown.AcceptsFirst [] s.manager a

/-- The sockets are used as their tasks own them. -/
structure SocketsKept (socketId : Nat) (h : List Event) (s : State κ) : Prop where
  /-- A task hands a descriptor to the system before it has closed its own, which is open
  and which no other task has unless that task has closed it. -/
  own : ∀ h₁ h₂ t use descriptor isOpen, h = h₁ ++ .used t use descriptor isOpen :: h₂ →
    isOpen = true ∧ t ∉ closings h₁ ∧ ∃ id, .accepted t id ∈ h₁ ∧
      (∀ t', .accepted t' id ∈ h₁ → t' = t ∨ t' ∈ closings h₁) ∧
      descriptor = handle socketId id use ∧ (descriptor = id ↔ use = .close ∨ id ≠ 0)
  /-- No task closes twice. -/
  once : (closings h).Nodup
  /-- What is open are the sockets of the tasks that have not closed theirs. -/
  mem_iff : ∀ id, id ∈ s.openSockets ↔ ∃ t, .accepted t id ∈ h ∧ t ∉ closings h

/-- When the pool has been joined, everything is closed. -/
def ClosedBehindJoin (h : List Event) (s : State κ) : Prop :=
  s.manager.pool.destructor = .joining ThreadManager.threadPoolSize →
    s.openSockets = [] ∧ ∀ t id, .accepted t id ∈ h → t ∈ closings h

/-- The manager's steps are taken in order. -/
theorem ordered_run {h : List Event} {s : State κ}
    (hrun : (connections socketId overwritePort raw).Run AcceptsFirst h s) :
    Ordered raw s.manager := by
  refine Run.invariant (I := fun _ s => Ordered raw s.manager) ?_ ?_ hrun
  · have hstart : (serverManager overwritePort raw).Run Shutdown.AcceptsFirst []
        (serverManager overwritePort raw).init := .start
    exact Shutdown.ordered_run hstart
  · intro h s a s' e _ hold hguard hstep
    cases steps_of_step hstep with
    | failed => exact hold
    | accepted hnew hmanager =>
        exact hold.step (h := []) (Shutdown.steps_of_step hmanager) hguard
    | quiet ha hmanager hnone =>
        exact hold.step (h := []) (Shutdown.steps_of_step hmanager) hguard
    | used ha hmanager huse hid =>
        exact hold.step (h := []) (Shutdown.steps_of_step hmanager) hguard

/-- A task uses its socket while it has it. -/
theorem Steps.own {s s' : State κ} {a : Action κ} {t : Nat} {use : Use} {descriptor : Nat}
    {isOpen : Bool}
    (hstep : Steps socketId overwritePort s a s' (.used t use descriptor isOpen)) :
    ∃ id, s.Holds t id ∧ descriptor = handle socketId id use ∧
      isOpen = decide (id ∈ s.openSockets) := by
  cases hstep with
  | @used a manager e _ id _ ha hmanager huse hid =>
      rcases task_cases ha hmanager with ⟨_, hnone⟩ | ⟨t', before, _, hmoves, hbefore, _, hone⟩
      · rw [hnone] at huse
        cases huse
      · obtain rfl := hone t use huse
        rcases hmoves with ⟨task, ht, hpoint, _⟩
        exact ⟨id, ⟨hid, task, ht, hpoint ▸ hbefore⟩, rfl, rfl⟩

/-- The descriptor 0 is passed on only to be closed. -/
theorem handle_eq_iff {id : Nat} {use : Use} (hne : id ≠ socketId) :
    handle socketId id use = id ↔ use = .close ∨ id ≠ 0 := by
  cases use <;> by_cases hzero : id = 0 <;> simp [handle, hzero] <;> omega

/-- Nothing is open once the pool has been joined. -/
theorem closed_of_joined {s : State κ} (hordered : Ordered raw s.manager)
    (hledger : Ledger s)
    (hjoined : s.manager.pool.destructor = .joining ThreadManager.threadPoolSize) :
    s.openSockets = [] := by
  refine List.eq_nil_iff_forall_not_mem.mpr fun id hid => ?_
  rcases (hledger.mem_iff id).mp hid with ⟨t, _, task, ht, hpoint⟩
  exact hpoint (hordered.finished_of_joined hjoined t task ht)

/-- Over every run a descriptor is used by the task it was accepted for, as long as that has
it, and is closed once; after a shutdown in order none is left open. -/
theorem sockets_closed_once (socketId : Nat) (overwritePort : κ → κ)
    (raw : CircularBuffer (ThreadManager.Task Nat) ThreadManager.taskQueueSize)
    (h : List Event) (s : State κ)
    (hrun : (connections socketId overwritePort raw).Run Any h s) :
    SocketsKept socketId h s ∧
      ((connections socketId overwritePort raw).Run AcceptsFirst h s →
        ClosedBehindJoin h s) := by
  have hledger := ledger_run hrun
  have hclosed := closedOnce_run hrun
  have hmem : ∀ id, id ∈ s.openSockets ↔ ∃ t, .accepted t id ∈ h ∧ t ∉ closings h := by
    intro id
    simp only [hledger.mem_iff, holds_iff hledger (recorded_run hrun) hclosed]
  refine ⟨⟨?_, hclosed.nodup, hmem⟩, ?_⟩
  · rintro h₁ h₂ t use descriptor isOpen rfl
    -- the step that used the socket, from the state that the earlier events lead to
    rcases hrun.split with ⟨s₁, a, s₂, hrun₁, _, hstep⟩
    have hledger₁ := ledger_run hrun₁
    have hrecorded₁ := recorded_run hrun₁
    have hholds₁ : ∀ t id, s₁.Holds t id ↔ .accepted t id ∈ h₁ ∧ t ∉ closings h₁ :=
      fun _ _ => holds_iff hledger₁ hrecorded₁ (closedOnce_run hrun₁)
    rcases (steps_of_step hstep).own with ⟨id, hown, rfl, rfl⟩
    rcases (hholds₁ t id).mp hown with ⟨haccepted, hnot⟩
    refine ⟨decide_eq_true ((hledger₁.mem_iff id).mpr ⟨t, hown⟩), hnot, id, haccepted, ?_, rfl,
      handle_eq_iff (hrecorded₁.ne_socketId t id haccepted)⟩
    intro t' ht'
    by_cases hclosed' : t' ∈ closings h₁
    · exact .inr hclosed'
    · exact .inl (hledger₁.unshared t' t id ((hholds₁ t' id).mpr ⟨ht', hclosed'⟩) hown)
  · intro haccepts hjoined
    have hnil := closed_of_joined (ordered_run haccepts) hledger hjoined
    refine ⟨hnil, fun t id haccepted => ?_⟩
    by_contra hnot
    have hopen := (hmem id).mpr ⟨t, haccepted, hnot⟩
    rw [hnil] at hopen
    cases hopen

/-- The manager of numbered peers, with descriptor 3 at its endpoint. -/
abbrev someConnections : StepSystem (State Nat) (Action Nat) Event :=
  connections 3 id ThreadManager.someMemory

/-- Two clients, one behind the other, get the descriptor 5; the manager is destroyed while
the second is authentified. -/
def reuse : List (Action Nat) :=
  .acceptConnection 7 (-1) :: .acceptConnection 7 5 ::
    ([.caller 0, .caller 0, .worker 0, oneFetch, .advance 0, .advance 0, .advance 0,
      .worker 0].map .manager ++
    .acceptConnection 8 5 ::
      [.caller 1, .caller 1, .worker 0, oneFetch, .destructor, .advance 0, .advance 0, .advance 0,
        .worker 0, .destructor, .destructor, .worker 0, .worker 1, .worker 2, .worker 3,
        .destructor, .destructor, .destructor, .destructor].map .manager)

/-- The test of {lit}`AcceptsFirst`. -/
def acceptsFirst (_ : List Event) (s : State Nat) : Action Nat → Bool
  | .acceptConnection _ _ => s.manager.destructor = .notCalled
  | .manager a => Shutdown.acceptsFirst [] s.manager a

theorem acceptsFirst_of_test (h : List Event) (s : State Nat) (a : Action Nat)
    (htest : acceptsFirst h s a = true) : AcceptsFirst h s a := by
  cases a with
  | acceptConnection peer clientSocketId =>
      have hnot : s.manager.destructor = .notCalled := by simpa [acceptsFirst] using htest
      exact hnot
  | manager a => exact acceptsFirst_guard [] s.manager a htest

/-- The descriptor that one connection has left is used by the next one, and is closed for
both when the manager has been destroyed. -/
theorem sockets_closed_once_reuse :
    ∃ h s, someConnections.Run AcceptsFirst h s ∧
      .accepted 0 5 ∈ h ∧ .accepted 1 5 ∈ h ∧ closings h = [0, 1] ∧ s.openSockets = [] ∧
        SocketsKept 3 h s := by
  have hfinal : (someConnections.execFrom acceptsFirst [] someConnections.init reuse).map
      (fun r => (decide (.accepted 0 5 ∈ r.1), decide (.accepted 1 5 ∈ r.1), closings r.1,
        r.2.manager.pool.destructor)) =
          some (true, true, [0, 1], .joining ThreadManager.threadPoolSize) := by
    decide +kernel
  rcases Option.map_eq_some_iff.mp hfinal with ⟨⟨h, s⟩, hexec, hends⟩
  simp only [Prod.mk.injEq, decide_eq_true_eq] at hends
  rcases hends with ⟨hfirst, hsecond, hclosings, hjoined⟩
  have haccepts := Run.of_execFrom acceptsFirst_of_test .start hexec
  have hrun : someConnections.Run Any h s := haccepts.mono fun _ _ _ _ => trivial
  have hboth := sockets_closed_once 3 id ThreadManager.someMemory h s hrun
  exact ⟨h, s, haccepts, hfirst, hsecond, hclosings, (hboth.2 haccepts hjoined).1, hboth.1⟩

/-- A connection that is accepted behind the joins is never closed. -/
example : (someConnections.exec (reuse ++ [.acceptConnection 7 5])).map
    (fun r => (r.2.manager.pool.destructor, r.2.openSockets)) =
      some (.joining ThreadManager.threadPoolSize, [5]) := by
  decide +kernel

end ServerManager.Connections

end SimpleMessenger
