import SimpleMessenger.Foundations.StepSystem
import SimpleMessenger.Server.Authentification

/-!
# The clients let in by `ServerTcpEndpoint.cpp`

Every accepted connection gets a run of `authentifyClient`, and any number of them go
on at the same time.  A run receives a request and checks it, notifies the client of
the outcome, appends an accepted client to the storage and closes the connection; each
of these is one step.  A lookup scans the storage from its front.  The answer of the
user database and the request are inputs of the steps.

Main results:

- Theorem {lit}`tracked_run`: in every run the users that were notified of their
  acceptance are those in the storage and those about to be appended.
- Theorem {lit}`locates_iff_settled`: when lookups find what they should in a state that
  a run has reached.
- Theorem {lit}`locates_iff`: the same, and the runs in which they always do; by
  {lit}`not_accepted_of_inOrder` these are runs without an accepted login.

Current gaps:

- A lookup is one step, although nothing keeps other threads from appending during it.
-/

universe u

namespace SimpleMessenger

open CMemory StepSystem

/-! ## Lookups -/

/-- `ClientInfo`, over any type of addresses. -/
structure ClientInfo (κ : Type u) where
  userId : UserID
  socketInfo : κ
deriving DecidableEq

variable {κ : Type u}

/-- `findOnlineClient`, on the storage that it scans. -/
def findOnlineClient (userId : UserID) : List (ClientInfo κ) → Option (ClientInfo κ)
  | [] => none
  | connection :: rest =>
      if connection.userId = userId then some connection else findOnlineClient userId rest

/-- The entries of a user, oldest first. -/
def entries (userId : UserID) (storage : List (ClientInfo κ)) : List (ClientInfo κ) :=
  storage.filter fun info => info.userId = userId

/-- A lookup returns the oldest entry. -/
theorem findOnlineClient_eq (userId : UserID) (storage : List (ClientInfo κ)) :
    findOnlineClient userId storage = (entries userId storage).head? := by
  induction storage with
  | nil => rfl
  | cons connection rest ih =>
      by_cases hsame : connection.userId = userId
      · rw [findOnlineClient, if_pos hsame, entries, List.filter_cons_of_pos (by simpa using hsame)]
        rfl
      · rw [findOnlineClient, if_neg hsame, ih, entries, entries,
          List.filter_cons_of_neg (by simpa using hsame)]

theorem mem_entries {userId : UserID} {storage : List (ClientInfo κ)} {info : ClientInfo κ} :
    info ∈ entries userId storage ↔ info ∈ storage ∧ info.userId = userId := by
  simp [entries]

/-- A lookup succeeds exactly for users with an entry. -/
theorem findOnlineClient_isSome_iff {userId : UserID} {storage : List (ClientInfo κ)} :
    (findOnlineClient userId storage).isSome ↔ userId ∈ storage.map (·.userId) := by
  rw [findOnlineClient_eq, List.isSome_head?, List.mem_map]
  constructor
  · intro hne
    rcases List.exists_mem_of_ne_nil _ hne with ⟨info, hinfo⟩
    exact ⟨info, mem_entries.mp hinfo⟩
  · rintro ⟨info, hinfo⟩ hnil
    have hmem := mem_entries.mpr hinfo
    rw [hnil] at hmem
    contradiction

/-- What a lookup returns is an entry of the user. -/
theorem userId_of_findOnlineClient {userId : UserID} {storage : List (ClientInfo κ)}
    {info : ClientInfo κ} (hfind : findOnlineClient userId storage = some info) :
    info.userId = userId := by
  rw [findOnlineClient_eq] at hfind
  exact (mem_entries.mp (List.mem_of_mem_head? hfind)).2

namespace ServerTcpEndpoint

/-! ## Runs of `authentifyClient` -/

/-- `AuthResponse` -/
structure AuthResponse where
  isAccepted : Bool
  userId : UserID
deriving DecidableEq

/-- Where a run of `authentifyClient` stands. -/
inductive Point where
  /-- Before `receiveEnvelope`. -/
  | receiving
  /-- Before `sendAcceptNotificaton`, with the outcome of `handleAuthReq`. -/
  | checked (userId : Option UserID)
  /-- Before `push_back`. -/
  | registering (userId : UserID)
  /-- Before `close`. -/
  | closing
  | returned
deriving DecidableEq

/-- A run of `authentifyClient` with the address in its `ClientInfo`. -/
structure Task (κ : Type u) where
  socketInfo : κ
  point : Point

/-- The tasks, each under its number, and `client_info_storage`. -/
structure State (κ : Type u) where
  tasks : List (Task κ) := []
  clientInfoStorage : List (ClientInfo κ) := []

inductive Action (κ : Type u) where
  /-- `acceptConnection` schedules a task for a connection from `peer`. -/
  | acceptConnection (peer : κ)
  /-- Task `t` receives a request, whose credentials are answered by `registered`. -/
  | handleAuthReq (t : Nat) (authReqEnv : Envelope) (registered : Option UserID)
  /-- Any other step of task `t`. -/
  | advance (t : Nat)

inductive Event (κ : Type u) where
  | scheduled (t : Nat) (socketInfo : κ)
  | checked (t : Nat) (userId : Option UserID)
  | notified (t : Nat) (resp : AuthResponse)
  | registered (t : Nat) (info : ClientInfo κ)
  | closed (t : Nat)
deriving DecidableEq

/-- `handleAuthReq`, with the answer of `checkIfRegistered`. -/
def handleAuthReq (authReqEnv : Envelope) (registered : Option UserID) : Option UserID :=
  if getMessageType authReqEnv = .ServiceMessage then registered else none

/-- Whatever `AuthentificationService` makes of a request is such an outcome. -/
theorem exists_handleAuthReq {m m' : PsqlManager} {db : Bytes → PGresult} {env : Envelope}
    {ret : Option UserID}
    (hhandle : AuthentificationService.handleAuthReq m db env = .ok (ret, m')) :
    ∃ registered, handleAuthReq env registered = ret := by
  by_cases htype : getMessageType env = .ServiceMessage
  · exact ⟨ret, if_pos htype⟩
  · rw [AuthentificationService.handleAuthReq, if_neg htype] at hhandle
    cases hhandle
    exact ⟨none, if_neg htype⟩

/-- The answer that `sendAcceptNotificaton` sends. -/
def acceptNotification (userId : Option UserID) : AuthResponse where
  isAccepted := userId.isSome
  userId := userId.getD 0

/-- Task `t` goes on to `point`. -/
def State.goOn (s : State κ) (t : Nat) (task : Task κ) (point : Point) : State κ :=
  { s with tasks := s.tasks.set t { task with point := point } }

/-- The steps of a task after the check. -/
def advance (s : State κ) (t : Nat) (task : Task κ) : Option (State κ × Event κ) :=
  match task.point with
  | .receiving => none
  | .checked none => some (s.goOn t task .closing, .notified t (acceptNotification none))
  | .checked (some userId) =>
      some (s.goOn t task (.registering userId), .notified t (acceptNotification (some userId)))
  | .registering userId =>
      let info := { userId := userId, socketInfo := task.socketInfo }
      some ({ s.goOn t task .closing with
                clientInfoStorage := s.clientInfoStorage ++ [info] }, .registered t info)
  | .closing => some (s.goOn t task .returned, .closed t)
  | .returned => none

/-- A task receives and checks its request. -/
def check (s : State κ) (t : Nat) (authReqEnv : Envelope) (registered : Option UserID)
    (task : Task κ) : Option (State κ × Event κ) :=
  if task.point = .receiving then
    some (s.goOn t task (.checked (handleAuthReq authReqEnv registered)),
      .checked t (handleAuthReq authReqEnv registered))
  else none

/-- One step; the port of an accepted address is overwritten before it is stored. -/
def step (overwritePort : κ → κ) (s : State κ) : Action κ → Option (State κ × Event κ)
  | .acceptConnection peer =>
      some ({ s with tasks := s.tasks ++ [⟨overwritePort peer, .receiving⟩] },
        .scheduled s.tasks.length (overwritePort peer))
  | .handleAuthReq t authReqEnv registered =>
      s.tasks[t]?.bind (check s t authReqEnv registered)
  | .advance t => s.tasks[t]?.bind (advance s t)

/-- The endpoint, started without connections. -/
def logins (overwritePort : κ → κ) : StepSystem (State κ) (Action κ) (Event κ) where
  init := {}
  step := step overwritePort

/-! ## What lookups should find -/

/-- The user was sent an accept notification. -/
def Accepted (h : List (Event κ)) (userId : UserID) : Prop :=
  ∃ t, .notified t ⟨true, userId⟩ ∈ h

def Event.registered? : Event κ → Option (ClientInfo κ)
  | .registered _ info => some info
  | _ => none

/-- The successful login of the user that was appended last. -/
def latestLogin (h : List (Event κ)) (userId : UserID) : Option (ClientInfo κ) :=
  (entries userId (h.filterMap Event.registered?)).getLast?

/-- No task is under way. -/
def State.Finished (s : State κ) : Prop :=
  ∀ (t : Nat) (task : Task κ), s.tasks[t]? = some task → task.point = .returned

/-- An accepted user is found, once no task is under way at the address of the latest
login, and a user that was never accepted is not found. -/
structure Locates (h : List (Event κ)) (s : State κ) : Prop where
  known : ∀ userId, Accepted h userId →
    ∃ info, findOnlineClient userId s.clientInfoStorage = some info ∧ info.userId = userId
  latest : s.Finished → ∀ userId, Accepted h userId →
    (findOnlineClient userId s.clientInfoStorage).map (·.socketInfo) =
      (latestLogin h userId).map (·.socketInfo)
  unknown : ∀ userId, ¬ Accepted h userId →
    findOnlineClient userId s.clientInfoStorage = none

/-- The user that a task is about to append. -/
def Task.registering? (task : Task κ) : Option UserID :=
  match task.point with
  | .registering userId => some userId
  | _ => none

/-- The users that were notified of their acceptance and not yet appended. -/
def State.pending (s : State κ) : List UserID :=
  s.tasks.filterMap Task.registering?

/-- The oldest and the newest entry of every user have the same address. -/
def OneAddress (storage : List (ClientInfo κ)) : Prop :=
  ∀ userId, ((entries userId storage).head?).map (·.socketInfo) =
    ((entries userId storage).getLast?).map (·.socketInfo)

/-- Nobody is about to be appended for the first time, and once no task is under way
every user's oldest and newest entry agree. -/
structure Settled (s : State κ) : Prop where
  registered : ∀ userId ∈ s.pending, userId ∈ s.clientInfoStorage.map (·.userId)
  oneAddress : s.Finished → OneAddress s.clientInfoStorage

/-! ## The kinds of steps -/

/-- Everything one step can do. -/
inductive Steps (overwritePort : κ → κ) (s : State κ) :
    Action κ → State κ → Event κ → Prop where
  | scheduled (peer : κ) :
      Steps overwritePort s (.acceptConnection peer)
        { s with tasks := s.tasks ++ [⟨overwritePort peer, .receiving⟩] }
        (.scheduled s.tasks.length (overwritePort peer))
  | checked {t : Nat} {task : Task κ} {authReqEnv : Envelope} {registered : Option UserID}
      (ht : s.tasks[t]? = some task) (hpoint : task.point = .receiving) :
      Steps overwritePort s (.handleAuthReq t authReqEnv registered)
        (s.goOn t task (.checked (handleAuthReq authReqEnv registered)))
        (.checked t (handleAuthReq authReqEnv registered))
  | rejected {t : Nat} {task : Task κ} (ht : s.tasks[t]? = some task)
      (hpoint : task.point = .checked none) :
      Steps overwritePort s (.advance t) (s.goOn t task .closing)
        (.notified t (acceptNotification none))
  | accepted {t : Nat} {task : Task κ} {userId : UserID} (ht : s.tasks[t]? = some task)
      (hpoint : task.point = .checked (some userId)) :
      Steps overwritePort s (.advance t) (s.goOn t task (.registering userId))
        (.notified t (acceptNotification (some userId)))
  | registered {t : Nat} {task : Task κ} {userId : UserID} (ht : s.tasks[t]? = some task)
      (hpoint : task.point = .registering userId) :
      Steps overwritePort s (.advance t)
        { s.goOn t task .closing with
            clientInfoStorage := s.clientInfoStorage ++ [⟨userId, task.socketInfo⟩] }
        (.registered t ⟨userId, task.socketInfo⟩)
  | closed {t : Nat} {task : Task κ} (ht : s.tasks[t]? = some task)
      (hpoint : task.point = .closing) :
      Steps overwritePort s (.advance t) (s.goOn t task .returned) (.closed t)

variable {overwritePort : κ → κ} {s s' : State κ}

/-- Every computed step is of one of the kinds. -/
theorem steps_of_step {a : Action κ} {e : Event κ}
    (hstep : step overwritePort s a = some (s', e)) : Steps overwritePort s a s' e := by
  cases a with
  | acceptConnection peer =>
      cases hstep
      exact .scheduled peer
  | handleAuthReq t authReqEnv registered =>
      rcases Option.bind_eq_some_iff.mp hstep with ⟨task, ht, hcheck⟩
      simp only [check] at hcheck
      split at hcheck <;> rename_i hpoint
      · cases hcheck
        exact .checked ht hpoint
      · contradiction
  | advance t =>
      rcases Option.bind_eq_some_iff.mp hstep with ⟨task, ht, hadvance⟩
      simp only [advance] at hadvance
      split at hadvance <;> rename_i hpoint
      · contradiction
      · cases hadvance
        exact .rejected ht hpoint
      · cases hadvance
        exact .accepted ht hpoint
      · cases hadvance
        exact .registered ht hpoint
      · cases hadvance
        exact .closed ht hpoint
      · contradiction

/-- Task `t` goes from one point to another, and the other tasks stay. -/
def Moves (s s' : State κ) (t : Nat) (before after : Point) : Prop :=
  ∃ task, s.tasks[t]? = some task ∧ task.point = before ∧
    s'.tasks = s.tasks.set t { task with point := after }

theorem moves_of_handleAuthReq {t : Nat} {authReqEnv : Envelope} {registered : Option UserID}
    {e : Event κ}
    (hstep : step overwritePort s (.handleAuthReq t authReqEnv registered) = some (s', e)) :
    ∃ userId, Moves s s' t .receiving (.checked userId) := by
  cases steps_of_step hstep with
  | checked ht hpoint => exact ⟨_, _, ht, hpoint, rfl⟩

theorem moves_of_advance {t : Nat} {e : Event κ}
    (hstep : step overwritePort s (.advance t) = some (s', e)) :
    ∃ before after, Moves s s' t before after ∧ before ≠ .receiving ∧ before ≠ .returned ∧
      after ≠ .receiving := by
  cases steps_of_step hstep with
  | rejected ht hpoint => exact ⟨_, _, ⟨_, ht, hpoint, rfl⟩, by simp⟩
  | accepted ht hpoint => exact ⟨_, _, ⟨_, ht, hpoint, rfl⟩, by simp⟩
  | registered ht hpoint => exact ⟨_, _, ⟨_, ht, hpoint, rfl⟩, by simp⟩
  | closed ht hpoint => exact ⟨_, _, ⟨_, ht, hpoint, rfl⟩, by simp⟩

/-- Behind the step a task is the one that moved, or stands where it stood. -/
theorem Moves.cases {t t' : Nat} {before after : Point} {task : Task κ}
    (hmoves : Moves s s' t before after) (ht' : s'.tasks[t']? = some task) :
    (t' = t ∧ task.point = after) ∨ (t' ≠ t ∧ s.tasks[t']? = some task) := by
  rcases hmoves with ⟨moved, _, _, htasks⟩
  rw [htasks] at ht'
  rcases getElem?_set_cases ht' with ⟨hsame, rfl⟩ | hother
  · exact .inl ⟨hsame, rfl⟩
  · exact .inr hother

/-- Every other task stands behind the step where it stood. -/
theorem Moves.of_ne {t t' : Nat} {before after : Point} {task : Task κ}
    (hmoves : Moves s s' t before after) (hne : t' ≠ t) (ht' : s.tasks[t']? = some task) :
    s'.tasks[t']? = some task := by
  rcases hmoves with ⟨moved, _, _, htasks⟩
  rw [htasks, List.getElem?_set_ne hne.symm]
  exact ht'

/-! ## What a run keeps track of -/

/-- A step of a task takes away the user it was about to append and adds the one it is
about to append now. -/
theorem mem_pending_goOn {t : Nat} {task : Task κ} (ht : s.tasks[t]? = some task)
    (point : Point) (userId : UserID) :
    userId ∈ (s.goOn t task point).pending ∨ task.registering? = some userId ↔
      userId ∈ s.pending ∨ Task.registering? { task with point := point } = some userId := by
  have hperm := (filterMap_set_perm (p := { task with point := point }) Task.registering?
    ht).mem_iff (a := userId)
  simpa [State.pending, State.goOn] using hperm

/-- A step between two points that append nobody. -/
theorem pending_goOn_of_none {t : Nat} {task : Task κ} (ht : s.tasks[t]? = some task)
    {point : Point} (hbefore : task.registering? = none)
    (hafter : Task.registering? { task with point := point } = none) (userId : UserID) :
    userId ∈ (s.goOn t task point).pending ↔ userId ∈ s.pending := by
  simpa [hbefore, hafter] using mem_pending_goOn ht point userId

/-- A step between two such points leaves nobody pending without an entry. -/
theorem Settled.registered_goOn (hsettled : Settled s) {t : Nat} {task : Task κ}
    (ht : s.tasks[t]? = some task) {point : Point} (hbefore : task.registering? = none)
    (hafter : Task.registering? { task with point := point } = none) :
    ∀ userId ∈ (s.goOn t task point).pending,
      userId ∈ s.clientInfoStorage.map (·.userId) := by
  intro userId hpending
  refine hsettled.registered userId ?_
  exact (pending_goOn_of_none ht hbefore hafter userId).mp hpending

theorem accepted_snoc {h : List (Event κ)} {e : Event κ} {userId : UserID} :
    Accepted (h ++ [e]) userId ↔ Accepted h userId ∨ ∃ t, e = .notified t ⟨true, userId⟩ := by
  simp [Accepted, exists_or, eq_comm]

/-- A step that notifies nobody of an acceptance. -/
theorem accepted_snoc_of_ne {h : List (Event κ)} {e : Event κ}
    (hne : ∀ t userId, e ≠ .notified t ⟨true, userId⟩) (userId : UserID) :
    Accepted (h ++ [e]) userId ↔ Accepted h userId := by
  rw [accepted_snoc]
  constructor
  · rintro (hold | ⟨t, heq⟩)
    · exact hold
    · exact absurd heq (hne t userId)
  · exact .inl

/-- The storage holds the appended logins in order, and the accepted users are those in
it and those about to be appended. -/
structure Tracked (h : List (Event κ)) (s : State κ) : Prop where
  stored : s.clientInfoStorage = h.filterMap Event.registered?
  accepted_iff : ∀ userId, Accepted h userId ↔
    userId ∈ s.clientInfoStorage.map (·.userId) ∨ userId ∈ s.pending

/-- A step that neither notifies of an acceptance nor appends. -/
theorem Tracked.quiet {h : List (Event κ)} {e : Event κ} (hold : Tracked h s)
    (hstorage : s'.clientInfoStorage = s.clientInfoStorage)
    (hpending : ∀ userId, userId ∈ s'.pending ↔ userId ∈ s.pending)
    (hne : ∀ t userId, e ≠ .notified t ⟨true, userId⟩) (hnone : e.registered? = none) :
    Tracked (h ++ [e]) s' := by
  constructor
  · rw [hstorage, hold.stored, List.filterMap_append]
    simp [hnone]
  · intro userId
    rw [accepted_snoc_of_ne hne, hold.accepted_iff, hstorage, hpending]

theorem Tracked.step {a : Action κ} {h : List (Event κ)} {e : Event κ} (hold : Tracked h s)
    (hsteps : Steps overwritePort s a s' e) : Tracked (h ++ [e]) s' := by
  cases hsteps with
  | scheduled peer =>
      refine hold.quiet rfl ?_ (by simp) rfl
      intro userId
      simp [State.pending, Task.registering?]
  | checked ht hpoint =>
      refine hold.quiet rfl ?_ (by simp) rfl
      exact pending_goOn_of_none ht (by simp [Task.registering?, hpoint]) rfl
  | rejected ht hpoint =>
      refine hold.quiet rfl ?_ (by simp [acceptNotification]) rfl
      exact pending_goOn_of_none ht (by simp [Task.registering?, hpoint]) rfl
  | closed ht hpoint =>
      refine hold.quiet rfl ?_ (by simp) rfl
      exact pending_goOn_of_none ht (by simp [Task.registering?, hpoint]) rfl
  | @accepted t task userId ht hpoint =>
      constructor
      · rw [List.filterMap_append, ← hold.stored]
        simp [State.goOn, Event.registered?]
      · intro v
        have hpending := mem_pending_goOn ht (.registering userId) v
        simp only [Task.registering?, hpoint, reduceCtorEq, or_false] at hpending
        rw [accepted_snoc, hold.accepted_iff, hpending]
        simp [acceptNotification, State.goOn, or_assoc]
  | @registered t task userId ht hpoint =>
      constructor
      · rw [List.filterMap_append, ← hold.stored]
        rfl
      · intro v
        have hpending := mem_pending_goOn ht .closing v
        simp only [Task.registering?, hpoint, reduceCtorEq, or_false] at hpending
        have hstorage : ∀ info : ClientInfo κ, v ∈ (s.clientInfoStorage ++ [info]).map
            (·.userId) ↔ v ∈ s.clientInfoStorage.map (·.userId) ∨ some info.userId = some v := by
          simp [eq_comm]
        rw [accepted_snoc_of_ne (by simp), hold.accepted_iff, ← hpending, hstorage, or_assoc,
          or_comm (b := some userId = some v)]
        rfl

theorem tracked_run {G : Guard (State κ) (Action κ) (Event κ)} {h : List (Event κ)}
    (hrun : (logins overwritePort).Run G h s) : Tracked h s := by
  refine hrun.invariant (I := Tracked) ⟨rfl, ?_⟩ ?_
  · intro userId
    simp [Accepted, logins, State.pending]
  · intro h s a s' e _ hold _ hstep
    exact hold.step (steps_of_step hstep)

/-! ## When lookups find what they should -/

/-- In a state that a run has reached, lookups find what they should exactly if the state
is settled. -/
theorem locates_iff_settled {h : List (Event κ)} (htracked : Tracked h s) :
    Locates h s ↔ Settled s := by
  have hlatest : ∀ userId, latestLogin h userId =
      (entries userId s.clientInfoStorage).getLast? := by
    intro userId
    rw [latestLogin, htracked.stored]
  constructor
  · intro hlocates
    constructor
    · intro userId hpending
      have haccepted := (htracked.accepted_iff userId).mpr (.inr hpending)
      rcases hlocates.known userId haccepted with ⟨info, hfind, _⟩
      exact findOnlineClient_isSome_iff.mp (by rw [hfind]; rfl)
    · intro hfinished userId
      by_cases haccepted : Accepted h userId
      · rw [← findOnlineClient_eq, ← hlatest]
        exact hlocates.latest hfinished userId haccepted
      · have hnone := hlocates.unknown userId haccepted
        rw [findOnlineClient_eq, List.head?_eq_none_iff] at hnone
        simp [hnone]
  · intro hsettled
    have hstored : ∀ userId, Accepted h userId →
        userId ∈ s.clientInfoStorage.map (·.userId) := by
      intro userId haccepted
      rcases (htracked.accepted_iff userId).mp haccepted with hmem | hpending
      · exact hmem
      · exact hsettled.registered userId hpending
    refine ⟨?_, ?_, ?_⟩
    · intro userId haccepted
      have hsome := findOnlineClient_isSome_iff.mpr (hstored userId haccepted)
      rcases Option.isSome_iff_exists.mp hsome with ⟨info, hfind⟩
      exact ⟨info, hfind, userId_of_findOnlineClient hfind⟩
    · intro hfinished userId _
      rw [findOnlineClient_eq, hlatest]
      exact hsettled.oneAddress hfinished userId
    · intro userId hnever
      cases hfind : findOnlineClient userId s.clientInfoStorage with
      | none => rfl
      | some info =>
          exfalso
          have hsome := findOnlineClient_isSome_iff.mp (by rw [hfind]; rfl)
          exact hnever ((htracked.accepted_iff userId).mpr (.inl hsome))

/-- No task other than `t` is under way. -/
def State.LastTask (s : State κ) (t : Nat) : Prop :=
  ∀ (t' : Nat) (task : Task κ), s.tasks[t']? = some task → t' ≠ t → task.point = .returned

/-- An accept notification goes only to a user that has an entry already, and the last
task closes its connection only if every user's oldest and newest entry agree.  The storage
starts empty, so that runs of such steps are those without an accepted login. -/
def InOrder : Guard (State κ) (Action κ) (Event κ) :=
  fun _ s a => ∀ t task, a = .advance t → s.tasks[t]? = some task →
    (∀ userId, task.point = .checked (some userId) →
      userId ∈ s.clientInfoStorage.map (·.userId)) ∧
    (task.point = .closing → s.LastTask t → OneAddress s.clientInfoStorage)

/-- With a task under way, only first entries matter. -/
theorem settled_iff_of_unfinished {t : Nat} {task : Task κ} (ht : s.tasks[t]? = some task)
    (hpoint : task.point ≠ .returned) :
    Settled s ↔ ∀ userId ∈ s.pending, userId ∈ s.clientInfoStorage.map (·.userId) := by
  constructor
  · exact Settled.registered
  · intro hregistered
    exact ⟨hregistered, fun hfinished => absurd (hfinished t task ht) hpoint⟩

theorem inOrder_advance_iff {h : List (Event κ)} {t : Nat} {task : Task κ}
    (ht : s.tasks[t]? = some task) :
    InOrder h s (.advance t) ↔
      (∀ userId, task.point = .checked (some userId) →
        userId ∈ s.clientInfoStorage.map (·.userId)) ∧
      (task.point = .closing → s.LastTask t → OneAddress s.clientInfoStorage) := by
  constructor
  · intro horder
    exact horder t task rfl ht
  · rintro hboth t' task' ⟨⟩ ht'
    rw [ht] at ht'
    cases ht'
    exact hboth

theorem getElem?_goOn {t : Nat} {task : Task κ} (ht : s.tasks[t]? = some task)
    (point : Point) : (s.goOn t task point).tasks[t]? = some { task with point := point } :=
  getElem?_set_of_some ht

/-- After the last step of a task all are finished if it was the last task. -/
theorem finished_goOn_returned {t : Nat} {task : Task κ} :
    (s.goOn t task .returned).Finished ↔ s.LastTask t := by
  constructor
  · intro hfinished t' task' ht' hne
    refine hfinished t' task' ?_
    rw [State.goOn, List.getElem?_set_ne hne.symm]
    exact ht'
  · intro hlast t' task' ht'
    rcases getElem?_set_cases ht' with ⟨_, rfl⟩ | ⟨hne, hold⟩
    · rfl
    · exact hlast t' task' hold hne

/-- A step leads to a settled state exactly if it is in order. -/
theorem inOrder_iff_settled {a : Action κ} {h : List (Event κ)} {e : Event κ}
    (hsettled : Settled s) (hsteps : Steps overwritePort s a s' e) :
    InOrder h s a ↔ Settled s' := by
  cases hsteps with
  | scheduled peer =>
      have hlast : ({ s with tasks := s.tasks ++ [⟨overwritePort peer, .receiving⟩] } :
          State κ).tasks[s.tasks.length]? = some ⟨overwritePort peer, .receiving⟩ := by
        simp
      rw [settled_iff_of_unfinished hlast (by simp)]
      constructor
      · intro _ userId hpending
        refine hsettled.registered userId ?_
        simpa [State.pending, Task.registering?] using hpending
      · intro _ t task ha
        contradiction
  | @checked t task authReqEnv registered ht hpoint =>
      rw [settled_iff_of_unfinished (getElem?_goOn ht _) (by simp)]
      constructor
      · intro _
        exact hsettled.registered_goOn ht (by simp [Task.registering?, hpoint]) rfl
      · intro _ t task ha
        contradiction
  | @rejected t task ht hpoint =>
      rw [settled_iff_of_unfinished (getElem?_goOn ht _) (by simp), inOrder_advance_iff ht]
      constructor
      · intro _
        exact hsettled.registered_goOn ht (by simp [Task.registering?, hpoint]) rfl
      · intro _
        simp [hpoint]
  | @accepted t task userId ht hpoint =>
      have hpending := mem_pending_goOn ht (.registering userId)
      simp only [Task.registering?, hpoint, reduceCtorEq, or_false, Option.some.injEq] at hpending
      rw [settled_iff_of_unfinished (getElem?_goOn ht _) (by simp), inOrder_advance_iff ht]
      constructor
      · intro horder v hv
        rcases (hpending v).mp hv with hold | rfl
        · exact hsettled.registered v hold
        · exact horder.1 userId hpoint
      · intro hregistered
        refine ⟨?_, by simp [hpoint]⟩
        intro v hv
        rw [hpoint] at hv
        cases hv
        exact hregistered userId ((hpending userId).mpr (.inr rfl))
  | @registered t task userId ht hpoint =>
      have hpending := mem_pending_goOn ht .closing
      simp only [Task.registering?, hpoint, reduceCtorEq, or_false] at hpending
      have hafter : ({ s.goOn t task .closing with
          clientInfoStorage := s.clientInfoStorage ++ [⟨userId, task.socketInfo⟩] } :
            State κ).tasks[t]? = some { task with point := .closing } := getElem?_goOn ht _
      rw [settled_iff_of_unfinished hafter (by simp), inOrder_advance_iff ht]
      constructor
      · intro _ v hv
        have hstored := hsettled.registered v ((hpending v).mp (.inl hv))
        rw [List.map_append]
        exact List.mem_append_left _ hstored
      · intro _
        simp [hpoint]
  | @closed t task ht hpoint =>
      rw [inOrder_advance_iff ht]
      constructor
      · intro horder
        refine ⟨?_, ?_⟩
        · exact hsettled.registered_goOn ht (by simp [Task.registering?, hpoint]) rfl
        · intro hfinished
          exact horder.2 hpoint (finished_goOn_returned.mp hfinished)
      · intro hafter
        refine ⟨by simp [hpoint], ?_⟩
        intro _ hlast
        exact hafter.oneAddress (finished_goOn_returned.mpr hlast)

/-- The first accept notification is out of order. -/
theorem not_accepted_of_inOrder {h : List (Event κ)}
    (hrun : (logins overwritePort).Run InOrder h s) (userId : UserID) : ¬ Accepted h userId := by
  refine Run.invariant (I := fun h _ => ∀ userId, ¬ Accepted h userId) ?_ ?_ hrun userId
  · simp [Accepted]
  · rintro h s a s' e hprev hnone horder hstep userId ⟨t, hmem⟩
    rcases List.mem_append.mp hmem with hin | hnew
    · exact hnone userId ⟨t, hin⟩
    · rw [List.mem_singleton] at hnew
      cases steps_of_step hstep with
      | rejected _ _ => simp [acceptNotification] at hnew
      | @accepted _ _ v ht hpoint =>
          have hentry := ((inOrder_advance_iff ht).mp horder).1 v hpoint
          exact hnone v (((tracked_run hprev).accepted_iff v).mpr (.inl hentry))
      | _ => cases hnew

/-- Lookups find what they should in exactly the settled ones of the states that runs
reach, and always along a run exactly if its steps are all in order. -/
theorem locates_iff (overwritePort : κ → κ) (h : List (Event κ)) (s : State κ) :
    ((logins overwritePort).Run Any h s → (Locates h s ↔ Settled s)) ∧
    ((logins overwritePort).Run InOrder h s ↔ (logins overwritePort).Through Any Locates h s) := by
  constructor
  · intro hrun
    exact locates_iff_settled (tracked_run hrun)
  · have hstart : Locates [] (logins overwritePort).init := by
      refine (locates_iff_settled (tracked_run (Run.start (G := Any)))).mpr ⟨?_, ?_⟩
      · intro userId hpending
        contradiction
      · intro _ userId
        rfl
    rw [← run_iff_through hstart]
    · constructor
      · exact Run.mono fun _ _ _ horder => ⟨trivial, horder⟩
      · exact Run.mono fun _ _ _ hguard => hguard.2
    · intro h s a s' e hrun hlocates _ hstep
      have hsettled := (locates_iff_settled (tracked_run hrun)).mp hlocates
      have htracked : Tracked (h ++ [e]) s' := tracked_run (.step hrun trivial hstep)
      rw [locates_iff_settled htracked]
      exact inOrder_iff_settled hsettled (steps_of_step hstep)

/-- A login of user 1 from the address `peer` up to its accept notification, as the
newest of `t + 1` tasks. -/
def notifiedLogin (t peer : Nat) : List (Action Nat) :=
  [.acceptConnection peer,
    .handleAuthReq t (AuthentificationService.serviceEnvelope 0) (some 1), .advance t]

/-- After two logins from one address lookups find what they should. -/
theorem locates_afterLogin :
    ∃ h s, (logins (id : Nat → Nat)).Run Any h s ∧ Accepted h 1 ∧
      s.clientInfoStorage = [⟨1, 7⟩, ⟨1, 7⟩] ∧ Locates h s := by
  have hexec : ((logins (id : Nat → Nat)).exec (notifiedLogin 0 7 ++ [.advance 0, .advance 0] ++
      notifiedLogin 1 7 ++ [.advance 1, .advance 1])).map (fun r =>
      (decide (.notified 1 ⟨true, 1⟩ ∈ r.1), r.2.pending, r.2.clientInfoStorage)) =
      some (true, [], [⟨1, 7⟩, ⟨1, 7⟩]) := by
    decide +kernel
  rcases Option.map_eq_some_iff.mp hexec with ⟨⟨h, s⟩, hexec, hpair⟩
  rcases Prod.mk.inj hpair with ⟨hmem, hrest⟩
  rcases Prod.mk.inj hrest with ⟨hpending, hstorage⟩
  have hsettled : Settled s := by
    constructor
    · intro userId huser
      rw [hpending] at huser
      contradiction
    · intro _ userId
      rw [hstorage]
      by_cases hsame : 1 = userId
      · simp [entries, hsame]
      · simp [entries, hsame]
  have hrun := Run.of_exec hexec
  exact ⟨h, s, hrun, ⟨1, of_decide_eq_true hmem⟩, hstorage,
    ((locates_iff id h s).1 hrun).mpr hsettled⟩

/-- The user is notified before it is appended, and after two logins from different
addresses the first one is found. -/
theorem locates_fails :
    (∃ h s, (logins (id : Nat → Nat)).Run Any h s ∧ Accepted h 1 ∧
      findOnlineClient 1 s.clientInfoStorage = none) ∧
    (∃ h s, (logins (id : Nat → Nat)).Run Any h s ∧ s.Finished ∧
      findOnlineClient 1 s.clientInfoStorage = some ⟨1, 7⟩ ∧
      latestLogin h 1 = some ⟨1, 8⟩) := by
  have hnotified : ((logins (id : Nat → Nat)).exec (notifiedLogin 0 7)).map (fun r =>
      (decide (.notified 0 ⟨true, 1⟩ ∈ r.1), findOnlineClient 1 r.2.clientInfoStorage)) =
      some (true, none) := by
    decide +kernel
  have htwice : ((logins (id : Nat → Nat)).exec (notifiedLogin 0 7 ++ [.advance 0, .advance 0] ++
      notifiedLogin 1 8 ++ [.advance 1, .advance 1])).map (fun r =>
      (r.2.tasks.map (·.point), findOnlineClient 1 r.2.clientInfoStorage, latestLogin r.1 1)) =
      some ([.returned, .returned], some ⟨1, 7⟩, some ⟨1, 8⟩) := by
    decide +kernel
  constructor
  · rcases Option.map_eq_some_iff.mp hnotified with ⟨⟨h, s⟩, hexec, hpair⟩
    rcases Prod.mk.inj hpair with ⟨hmem, hfind⟩
    exact ⟨h, s, Run.of_exec hexec, ⟨0, of_decide_eq_true hmem⟩, hfind⟩
  · rcases Option.map_eq_some_iff.mp htwice with ⟨⟨h, s⟩, hexec, hpair⟩
    rcases Prod.mk.inj hpair with ⟨hpoints, hrest⟩
    rcases Prod.mk.inj hrest with ⟨hfind, hlatest⟩
    refine ⟨h, s, Run.of_exec hexec, ?_, hfind, hlatest⟩
    intro t task ht
    have hpoint := List.mem_map_of_mem (f := Task.point) (List.mem_of_getElem? ht)
    rw [hpoints] at hpoint
    simpa using hpoint

end ServerTcpEndpoint

end SimpleMessenger
