import SimpleMessenger.Server.Accounts
import SimpleMessenger.Server.MailRelay

/-!
# Logins over TCP and mail over UDP

A client presents its credentials over TCP; a task of {lit}`ServerTcpEndpoint` has them
looked up in the database, notifies the client and stores its address.  Calls of
{lit}`checkMail` forward the envelopes that come over UDP to the stored addresses.  All of
this goes on at the same time.

Main results:

- Theorem {lit}`traced_run`: the storage and the notifications go back to requests and
  their outcomes.
- Theorem {lit}`found_run`: an accepted client whose connection has been closed is found.
- Theorem {lit}`endpoint_run` and {lit}`relay_run`: the two endpoints take runs of their own.
- Theorem {lit}`serves_run`: every notification is right, who is accepted is found, and what
  an endpoint gets from the server is for an account whose credentials came from its host.

Current gaps:

- No two lookups in the database overlap, so that each is one step; overlapping ones can
  exchange their answers.
- Which task goes on is left open instead of to the thread pool.
-/

universe u v

namespace SimpleMessenger

open CMemory SqlText StepSystem ProtobufItf

/-! ## What a task has done -/

namespace ServerTcpEndpoint

/-- Where a task stands goes back to what it has shown. -/
structure Traced {κ : Type u} (h : List (Event κ)) (s : State κ) : Prop where
  scheduled : ∀ t task, s.tasks[t]? = some task → .scheduled t task.socketInfo ∈ h
  checked : ∀ t task userId, s.tasks[t]? = some task → task.point = .checked userId →
    .checked t userId ∈ h
  registering : ∀ t task userId, s.tasks[t]? = some task → task.point = .registering userId →
    .checked t (some userId) ∈ h
  notified : ∀ t resp, .notified t resp ∈ h →
    ∃ userId, .checked t userId ∈ h ∧ resp = acceptNotification userId
  registered : ∀ t info, .registered t info ∈ h →
    .scheduled t info.socketInfo ∈ h ∧ .checked t (some info.userId) ∈ h

variable {κ : Type u} {overwritePort : κ → κ} {s s' : State κ} {h : List (Event κ)}

/-- A step after which task `t` is `task` and the other tasks are what they were. -/
theorem Traced.snoc {t : Nat} {task : Task κ} {e : Event κ} (hold : Traced h s)
    (hcases : ∀ t' task', s'.tasks[t']? = some task' →
      (t' = t ∧ task' = task) ∨ s.tasks[t']? = some task')
    (hscheduled : .scheduled t task.socketInfo ∈ h ++ [e])
    (hchecked : ∀ userId, task.point = .checked userId → e = .checked t userId)
    (hregistering : ∀ userId, task.point = .registering userId → .checked t (some userId) ∈ h)
    (hnotified : ∀ t' resp, e = .notified t' resp →
      ∃ userId, .checked t' userId ∈ h ∧ resp = acceptNotification userId)
    (hregistered : ∀ t' info, e = .registered t' info →
      .scheduled t' info.socketInfo ∈ h ∧ .checked t' (some info.userId) ∈ h) :
    Traced (h ++ [e]) s' := by
  have hin : ∀ {x : Event κ}, x ∈ h → x ∈ h ++ [e] := List.mem_append_left _
  constructor
  · intro t' task' ht'
    rcases hcases t' task' ht' with ⟨rfl, rfl⟩ | hother
    · exact hscheduled
    · exact hin (hold.scheduled t' task' hother)
  · intro t' task' userId ht' hpoint
    rcases hcases t' task' ht' with ⟨rfl, rfl⟩ | hother
    · exact List.mem_append_right _ (by simp [hchecked userId hpoint])
    · exact hin (hold.checked t' task' userId hother hpoint)
  · intro t' task' userId ht' hpoint
    rcases hcases t' task' ht' with ⟨rfl, rfl⟩ | hother
    · exact hin (hregistering userId hpoint)
    · exact hin (hold.registering t' task' userId hother hpoint)
  · intro t' resp hmem
    have hfound : ∃ userId, .checked t' userId ∈ h ∧ resp = acceptNotification userId := by
      rcases List.mem_append.mp hmem with hbefore | hlast
      · exact hold.notified t' resp hbefore
      · exact hnotified t' resp (List.mem_singleton.mp hlast).symm
    rcases hfound with ⟨userId, hmem', hresp⟩
    exact ⟨userId, hin hmem', hresp⟩
  · intro t' info hmem
    have hfound : .scheduled t' info.socketInfo ∈ h ∧ .checked t' (some info.userId) ∈ h := by
      rcases List.mem_append.mp hmem with hbefore | hlast
      · exact hold.registered t' info hbefore
      · exact hregistered t' info (List.mem_singleton.mp hlast).symm
    exact ⟨hin hfound.1, hin hfound.2⟩

theorem Traced.step {a : Action κ} {e : Event κ} (hold : Traced h s)
    (hsteps : Steps overwritePort s a s' e) : Traced (h ++ [e]) s' := by
  have hgoOn : ∀ {t : Nat} {task : Task κ} {point : Point} (t' : Nat) (task' : Task κ),
      (s.goOn t task point).tasks[t']? = some task' →
        (t' = t ∧ task' = { task with point := point }) ∨ s.tasks[t']? = some task' :=
    fun _ _ ht' => (getElem?_set_cases ht').imp_right And.right
  have hscheduled : ∀ (t : Nat) (task : Task κ), s.tasks[t]? = some task →
      .scheduled t task.socketInfo ∈ h ++ [e] :=
    fun t task ht => List.mem_append_left _ (hold.scheduled t task ht)
  cases hsteps with
  | scheduled peer =>
      have hcases : ∀ t' task', (s.tasks ++ [⟨overwritePort peer, .receiving⟩])[t']? = some task' →
          (t' = s.tasks.length ∧ task' = ⟨overwritePort peer, .receiving⟩) ∨
            s.tasks[t']? = some task' :=
        fun t' task' ht' => getElem?_append_cases ht'
      exact hold.snoc hcases (by simp) (by simp) (by simp) (by simp) (by simp)
  | @checked t task authReqEnv registered ht hpoint =>
      exact hold.snoc hgoOn (hscheduled t task ht) (by simp) (by simp) (by simp) (by simp)
  | @rejected t task ht hpoint =>
      refine hold.snoc hgoOn (hscheduled t task ht) (by simp) (by simp) ?_ (by simp)
      rintro t' resp ⟨⟩
      exact ⟨none, hold.checked t task none ht hpoint, rfl⟩
  | @accepted t task userId ht hpoint =>
      have hchecked := hold.checked t task (some userId) ht hpoint
      refine hold.snoc hgoOn (hscheduled t task ht) (by simp) ?_ ?_ (by simp)
      · rintro userId' ⟨⟩
        exact hchecked
      · rintro t' resp ⟨⟩
        exact ⟨some userId, hchecked, rfl⟩
  | @registered t task userId ht hpoint =>
      refine hold.snoc hgoOn (hscheduled t task ht) (by simp) (by simp) (by simp) ?_
      rintro t' info ⟨⟩
      exact ⟨hold.scheduled t task ht, hold.registering t task userId ht hpoint⟩
  | @closed t task ht hpoint =>
      exact hold.snoc hgoOn (hscheduled t task ht) (by simp) (by simp) (by simp) (by simp)

/-- In every run the storage and the notifications go back to requests and their outcomes. -/
theorem traced_run {G : Guard (State κ) (Action κ) (Event κ)}
    (hrun : (logins overwritePort).Run G h s) : Traced h s := by
  refine hrun.invariant (I := Traced) ?_ ?_
  · constructor <;> simp [logins]
  · intro h s a s' e _ hold _ hstep
    exact hold.step (steps_of_step hstep)

/-- Where a task can stand whose request has had this outcome. -/
inductive Behind (storage : List (ClientInfo κ)) : Point → Option UserID → Prop where
  | checked (userId : Option UserID) : Behind storage (.checked userId) userId
  | registering (userId : UserID) : Behind storage (.registering userId) (some userId)
  | rejected {point : Point} (hpoint : point = .closing ∨ point = .returned) :
      Behind storage point none
  | stored {point : Point} {userId : UserID} (hpoint : point = .closing ∨ point = .returned)
      (hstored : userId ∈ storage.map (·.userId)) : Behind storage point (some userId)

theorem Behind.mono {storage storage' : List (ClientInfo κ)} {point : Point}
    {userId : Option UserID} (hbehind : Behind storage point userId)
    (hle : storage.Sublist storage') : Behind storage' point userId := by
  cases hbehind with
  | checked => exact .checked userId
  | registering u => exact .registering u
  | rejected hpoint => exact .rejected hpoint
  | stored hpoint hstored => exact .stored hpoint ((hle.map _).subset hstored)

theorem not_behind_receiving {storage : List (ClientInfo κ)} {userId : Option UserID} :
    ¬ Behind storage .receiving userId := by
  rintro (_ | _ | hpoint | ⟨hpoint, _⟩) <;> simp at hpoint

theorem behind_checked_iff {storage : List (ClientInfo κ)} {answer userId : Option UserID} :
    Behind storage (.checked answer) userId ↔ userId = answer := by
  constructor
  · rintro (_ | _ | hpoint | ⟨hpoint, _⟩)
    · rfl
    · simp at hpoint
    · simp at hpoint
  · rintro rfl
    exact .checked userId

theorem behind_registering_iff {storage : List (ClientInfo κ)} {answer : UserID}
    {userId : Option UserID} :
    Behind storage (.registering answer) userId ↔ userId = some answer := by
  constructor
  · rintro (_ | _ | hpoint | ⟨hpoint, _⟩)
    · rfl
    · simp at hpoint
    · simp at hpoint
  · rintro rfl
    exact .registering answer

/-- The outcome of a task that is about to close its connection, or has, is in the storage. -/
theorem behind_iff {storage : List (ClientInfo κ)} {point : Point} {userId : Option UserID}
    (hpoint : point = .closing ∨ point = .returned) :
    Behind storage point userId ↔ ∀ u, userId = some u → u ∈ storage.map (·.userId) := by
  constructor
  · rintro (_ | _ | _ | ⟨_, hstored⟩) u hu
    · simp at hpoint
    · simp at hpoint
    · cases hu
    · cases hu
      exact hstored
  · intro hstored
    cases userId with
    | none => exact .rejected hpoint
    | some u => exact .stored hpoint (hstored u rfl)

/-- Every task is where its outcome has led it, and has returned when it is closed. -/
structure Followed (h : List (Event κ)) (s : State κ) : Prop where
  known : ∀ t, (∃ userId, .checked t userId ∈ h) ∨ .closed t ∈ h → t < s.tasks.length
  behind : ∀ t task userId, s.tasks[t]? = some task → .checked t userId ∈ h →
    Behind s.clientInfoStorage task.point userId
  closed : ∀ t task, s.tasks[t]? = some task → .closed t ∈ h → task.point = .returned

/-- A task goes on behind its outcome. -/
theorem Followed.goOn {t : Nat} {task : Task κ} {point : Point} {e : Event κ}
    {storage : List (ClientInfo κ)} (hold : Followed h s) (ht : s.tasks[t]? = some task)
    (hbefore : task.point ≠ .returned)
    (hstorage : s.clientInfoStorage.Sublist storage)
    (hbehind : ∀ userId, Behind s.clientInfoStorage task.point userId → Behind storage point userId)
    (hchecked : ∀ t' userId, e = .checked t' userId → t' = t ∧ point = .checked userId)
    (hclosed : ∀ t', e = .closed t' → t' = t ∧ point = .returned) :
    Followed (h ++ [e]) { s.goOn t task point with clientInfoStorage := storage } := by
  have hcases : ∀ {x : Event κ}, x ∈ h ++ [e] → x ∈ h ∨ e = x := by
    intro x hmem
    rcases List.mem_append.mp hmem with hin | hlast
    · exact .inl hin
    · exact .inr (List.mem_singleton.mp hlast).symm
  constructor
  · intro t' hmem
    show t' < (s.tasks.set t { task with point := point }).length
    rw [List.length_set]
    have hlt := (List.getElem?_eq_some_iff.mp ht).1
    rcases hmem with ⟨userId, hmem⟩ | hmem
    · rcases hcases hmem with hin | rfl
      · exact hold.known t' (.inl ⟨userId, hin⟩)
      · rwa [(hchecked t' userId rfl).1]
    · rcases hcases hmem with hin | rfl
      · exact hold.known t' (.inr hin)
      · rwa [(hclosed t' rfl).1]
  · intro t' task' userId ht' hmem
    rcases getElem?_set_cases ht' with ⟨rfl, rfl⟩ | ⟨hne, hother⟩
    · rcases hcases hmem with hin | rfl
      · exact hbehind userId (hold.behind t' task userId ht hin)
      · rw [(hchecked t' userId rfl).2]
        exact .checked userId
    · rcases hcases hmem with hin | rfl
      · exact (hold.behind t' task' userId hother hin).mono hstorage
      · exact absurd (hchecked t' userId rfl).1 hne
  · intro t' task' ht' hmem
    rcases getElem?_set_cases ht' with ⟨rfl, rfl⟩ | ⟨hne, hother⟩
    · rcases hcases hmem with hin | rfl
      · exact absurd (hold.closed t' task ht hin) hbefore
      · exact (hclosed t' rfl).2
    · rcases hcases hmem with hin | rfl
      · exact hold.closed t' task' hother hin
      · exact absurd (hclosed t' rfl).1 hne

theorem Followed.step {a : Action κ} {e : Event κ} (hold : Followed h s)
    (hsteps : Steps overwritePort s a s' e) : Followed (h ++ [e]) s' := by
  cases hsteps with
  | scheduled peer =>
      have hnew : ∀ {task' : Task κ} {t : Nat},
          (s.tasks ++ [⟨overwritePort peer, .receiving⟩])[t]? = some task' →
            t < s.tasks.length → s.tasks[t]? = some task' := by
        intro task' t ht hlt
        rwa [List.getElem?_append_left hlt] at ht
      constructor
      · intro t hmem
        have hlt := hold.known t (by simpa using hmem)
        simpa using Nat.lt_succ_of_lt hlt
      · intro t task' userId ht hmem
        have hin : .checked t userId ∈ h := by simpa using hmem
        exact hold.behind t task' userId (hnew ht (hold.known t (.inl ⟨userId, hin⟩))) hin
      · intro t task' ht hmem
        have hin : .closed t ∈ h := by simpa using hmem
        exact hold.closed t task' (hnew ht (hold.known t (.inr hin))) hin
  | @checked t task authReqEnv registered ht hpoint =>
      refine hold.goOn ht (by simp [hpoint]) (List.Sublist.refl _) ?_ ?_ (by simp)
      · intro userId hbehind
        rw [hpoint] at hbehind
        exact absurd hbehind not_behind_receiving
      · rintro t' userId ⟨⟩
        exact ⟨rfl, rfl⟩
  | @rejected t task ht hpoint =>
      refine hold.goOn ht (by simp [hpoint]) (List.Sublist.refl _) ?_ (by simp) (by simp)
      intro userId hbehind
      rw [hpoint, behind_checked_iff] at hbehind
      rw [hbehind, behind_iff (.inl rfl)]
      simp
  | @accepted t task userId ht hpoint =>
      refine hold.goOn ht (by simp [hpoint]) (List.Sublist.refl _) ?_ (by simp) (by simp)
      intro userId' hbehind
      rw [hpoint, behind_checked_iff] at hbehind
      rw [hbehind, behind_registering_iff]
  | @registered t task userId ht hpoint =>
      refine hold.goOn ht (by simp [hpoint]) (List.sublist_append_left _ _) ?_ (by simp) (by simp)
      intro userId' hbehind
      rw [hpoint, behind_registering_iff] at hbehind
      rw [hbehind, behind_iff (.inl rfl)]
      simp
  | @closed t task ht hpoint =>
      refine hold.goOn ht (by simp [hpoint]) (List.Sublist.refl _) ?_ (by simp) ?_
      · intro userId hbehind
        rwa [hpoint, behind_iff (.inl rfl), ← behind_iff (.inr rfl)] at hbehind
      · rintro t' ⟨⟩
        exact ⟨rfl, rfl⟩

/-- In every run an accepted client whose connection has been closed is found. -/
theorem found_run {G : Guard (State κ) (Action κ) (Event κ)}
    (hrun : (logins overwritePort).Run G h s) {t : Nat} {userId : UserID}
    (hchecked : .checked t (some userId) ∈ h) (hclosed : .closed t ∈ h) :
    ∃ info, findOnlineClient userId s.clientInfoStorage = some info := by
  have hfollowed : Followed h s := by
    refine hrun.invariant (I := Followed) ?_ ?_
    · constructor <;> simp [logins]
    · intro h s a s' e _ hold _ hstep
      exact hold.step (steps_of_step hstep)
  have hlt := hfollowed.known t (.inr hclosed)
  have ht := List.getElem?_eq_getElem hlt
  have hbehind := hfollowed.behind t _ (some userId) ht hchecked
  rw [hfollowed.closed t _ ht hclosed, behind_iff (.inr rfl)] at hbehind
  exact Option.isSome_iff_exists.mp (findOnlineClient_isSome_iff.mpr (hbehind userId rfl))

end ServerTcpEndpoint

/-! ## Lookups of a working server -/

namespace Accounts

variable {δ : Type v} {D : Database δ} {s s' : State δ} {rows rows' : List PsqlManager.UserRow}
  {c c' : Bool}

/-- The server has its table and its connection, which stay as they are while it works. -/
structure Serving (D : Database δ) (rows : List PsqlManager.UserRow) (c : Bool) (s : State δ) :
    Prop where
  ready : Ready D s
  users : D.users s.database = rows
  connected : s.manager.isConnected = c

theorem Entry.same_of_lookedUp {email password : Bytes} {ret : Option UserID}
    (hentry : Entry rows c (.lookedUp email password ret) rows' c') : rows' = rows ∧ c' = c := by
  cases hentry
  exact ⟨rfl, rfl⟩

theorem Entry.same_of_refused (hentry : Entry rows c .refused rows' c') :
    rows' = rows ∧ c' = c := by
  cases hentry
  exact ⟨rfl, rfl⟩

/-- The request presents the credentials of the account with the id. -/
structure Authentic (accounts : List Account) (authReqEnv : Envelope) (userId : UserID) :
    Prop where
  service : getMessageType authReqEnv = .ServiceMessage
  account : ⟨cstr (AuthentificationService.getPayload authReqEnv).email.bytes,
    cstr (AuthentificationService.getPayload authReqEnv).password.bytes, userId⟩ ∈ accounts

/-- A request is accepted exactly if it is authentic and the server has its database. -/
theorem Serving.authenticate (hD : D.Lawful) (hserving : Serving D rows c s)
    {authReqEnv : Envelope} (hfits : Fits [] s (.authenticate authReqEnv))
    {lookup : Event} (hstep : step D s (.authenticate authReqEnv) = some (s', lookup)) :
    Serving D rows c s' ∧ ∀ userId,
      ServerTcpEndpoint.handleAuthReq authReqEnv lookup.answer?.join = some userId ↔
        c = true ∧ Authentic (rows.map account) authReqEnv userId := by
  rcases entry_of_step hD hserving.ready hfits hstep with ⟨hhandles, hentry⟩
  rw [hserving.users, hserving.connected] at hentry
  have hsound : Sound rows := hserving.users ▸ hserving.ready.sound
  have hsame : D.users s'.database = rows ∧ s'.manager.isConnected = c →
      Serving D rows c s' := by
    rintro ⟨husers, hconnected⟩
    exact ⟨⟨hhandles, husers ▸ hsound⟩, husers, hconnected⟩
  rcases Option.map_eq_some_iff.mp hstep with ⟨⟨ret, s₁⟩, _, hshown⟩
  by_cases htype : getMessageType authReqEnv = .ServiceMessage
  · simp only [if_pos htype, Prod.mk.injEq] at hshown
    rcases hshown with ⟨rfl, rfl⟩
    refine ⟨hsame hentry.same_of_lookedUp, fun userId => ?_⟩
    rw [ServerTcpEndpoint.handleAuthReq, if_pos htype]
    constructor
    · intro hret
      rcases (hentry.lookedUp_iff userId).mp hret with ⟨hconnected, haccount⟩
      exact ⟨hconnected, htype, haccount⟩
    · rintro ⟨hconnected, hauthentic⟩
      exact (hentry.lookedUp_iff userId).mpr ⟨hconnected, hauthentic.account⟩
  · simp only [if_neg htype, Prod.mk.injEq] at hshown
    rcases hshown with ⟨rfl, rfl⟩
    refine ⟨hsame hentry.same_of_refused, fun userId => ?_⟩
    rw [ServerTcpEndpoint.handleAuthReq, if_neg htype]
    constructor
    · intro hret
      cases hret
    · rintro ⟨_, hauthentic⟩
      exact absurd hauthentic.service htype

end Accounts

/-! ## Addresses -/

/-- `sockaddr_in`, with the port in host byte order. -/
structure SockaddrIn where
  sinAddr : UInt32
  sinPort : UInt16
deriving DecidableEq

/-- `DEFAUILT_TCP_PORT` -/
def defauiltTcpPort : UInt16 := 51111

/-- What `acceptConnection` makes of the address that `accept4` fills in. -/
def SockaddrIn.overwritePort (address : SockaddrIn) : SockaddrIn :=
  { address with sinPort := defauiltTcpPort }

/-! ## The database and the two endpoints -/

namespace ServerManager.Service

open UdpEndpointBase

/-- The database, the endpoint for logins, and the relay, which looks recipients up in the
storage of that endpoint. -/
structure State (δ : Type v) (κ : Type u) where
  accounts : Accounts.State δ
  endpoint : ServerTcpEndpoint.State κ := {}
  relay : ServerManager.State κ

inductive Action (κ : Type u) where
  | acceptConnection (peer : κ)
  /-- Task `t` receives a request and has it looked up, while no other lookup goes on. -/
  | handleAuthReq (t : Nat) (authReqEnv : Envelope)
  /-- Any other step of task `t`. -/
  | advance (t : Nat)
  /-- A step of the network or of a call of `checkMail`. -/
  | relay (a : ServerManager.Action κ)

inductive Event (κ : Type u) where
  /-- Task `t` has been scheduled for a connection from `peer`. -/
  | accepted (t : Nat) (peer : κ)
  | endpoint (e : ServerTcpEndpoint.Event κ)
  | checked (t : Nat) (authReqEnv : Envelope) (userId : Option UserID)
  | relay (e : ServerManager.Event κ)

variable {δ : Type v} {κ : Type u}

/-- What the endpoint for logins shows. -/
def Event.endpoint? (overwritePort : κ → κ) : Event κ → Option (ServerTcpEndpoint.Event κ)
  | .accepted t peer => some (.scheduled t (overwritePort peer))
  | .endpoint e => some e
  | .checked t _ userId => some (.checked t userId)
  | .relay _ => none

/-- What the relay shows, the logins in its storage included. -/
def Event.relay? : Event κ → Option (ServerManager.Event κ)
  | .endpoint (.registered _ info) => some (.login info)
  | .relay e => some e
  | _ => none

section Steps

variable [DecidableEq κ] (D : Accounts.Database δ) (wire : Wire) (server : κ)
  (overwritePort : κ → κ)

def step (s : State δ κ) : Action κ → Option (State δ κ × Event κ)
  | .acceptConnection peer =>
      (ServerTcpEndpoint.step overwritePort s.endpoint (.acceptConnection peer)).map
        fun (endpoint, _) =>
          ({ s with endpoint := endpoint }, .accepted s.endpoint.tasks.length peer)
  | .handleAuthReq t authReqEnv =>
      (Accounts.step D s.accounts (.authenticate authReqEnv)).bind fun (accounts, lookup) =>
        let registered := lookup.answer?.join
        (ServerTcpEndpoint.step overwritePort s.endpoint
          (.handleAuthReq t authReqEnv registered)).map fun (endpoint, _) =>
            ({ s with accounts := accounts, endpoint := endpoint },
              .checked t authReqEnv (ServerTcpEndpoint.handleAuthReq authReqEnv registered))
  | .advance t =>
      (ServerTcpEndpoint.step overwritePort s.endpoint (.advance t)).map fun (endpoint, e) =>
        ({ s with
            endpoint := endpoint
            relay := { s.relay with connectedClients := endpoint.clientInfoStorage } },
          .endpoint e)
  | .relay (.login _) => none
  | .relay a =>
      (ServerManager.step wire server s.relay a).map fun (relay, e) =>
        ({ s with relay := relay }, .relay e)

/-- A server that has been constructed, which leaves the database in the state `accounts`. -/
def service (memory : κ → Memory κ) (accounts : Accounts.State δ) :
    StepSystem (State δ κ) (Action κ) (Event κ) where
  init := { accounts := accounts,
            relay := (checkMails wire server (endpoints wire memory).init).init }
  step := step D wire server overwritePort

/-- The texts of a request are without a quote and end in their arrays, and no two threads
cross in an output buffer. -/
def Admitted : Guard (State δ κ) (Action κ) (Event κ) := fun h s a =>
  match a with
  | .handleAuthReq _ authReqEnv => Accounts.Fits [] s.accounts (.authenticate authReqEnv)
  | .relay b => BuffersKept server (h.filterMap Event.relay?) s.relay b
  | _ => True

end Steps

/-! ## The kinds of steps -/

section Kinds

variable [DecidableEq κ] {D : Accounts.Database δ} {wire : Wire} {server : κ}
  {overwritePort : κ → κ} {s s' : State δ κ}

/-- Everything one step can do. -/
inductive Steps (D : Accounts.Database δ) (wire : Wire) (server : κ) (overwritePort : κ → κ)
    (s : State δ κ) : Action κ → State δ κ → Event κ → Prop where
  | accepted {peer : κ} {endpoint : ServerTcpEndpoint.State κ} {e : ServerTcpEndpoint.Event κ}
      (hstep : ServerTcpEndpoint.step overwritePort s.endpoint (.acceptConnection peer) =
        some (endpoint, e)) :
      Steps D wire server overwritePort s (.acceptConnection peer)
        { s with endpoint := endpoint } (.accepted s.endpoint.tasks.length peer)
  | checked {t : Nat} {authReqEnv : Envelope} {accounts : Accounts.State δ}
      {lookup : Accounts.Event} {endpoint : ServerTcpEndpoint.State κ}
      {e : ServerTcpEndpoint.Event κ}
      (haccounts : Accounts.step D s.accounts (.authenticate authReqEnv) =
        some (accounts, lookup))
      (hstep : ServerTcpEndpoint.step overwritePort s.endpoint
        (.handleAuthReq t authReqEnv lookup.answer?.join) = some (endpoint, e)) :
      Steps D wire server overwritePort s (.handleAuthReq t authReqEnv)
        { s with accounts := accounts, endpoint := endpoint }
        (.checked t authReqEnv
          (ServerTcpEndpoint.handleAuthReq authReqEnv lookup.answer?.join))
  | advanced {t : Nat} {endpoint : ServerTcpEndpoint.State κ} {e : ServerTcpEndpoint.Event κ}
      (hstep : ServerTcpEndpoint.step overwritePort s.endpoint (.advance t) =
        some (endpoint, e)) :
      Steps D wire server overwritePort s (.advance t)
        { s with
            endpoint := endpoint
            relay := { s.relay with connectedClients := endpoint.clientInfoStorage } }
        (.endpoint e)
  | relayed {a : ServerManager.Action κ} {relay : ServerManager.State κ}
      {e : ServerManager.Event κ} (ha : ∀ info, a ≠ .login info)
      (hstep : ServerManager.step wire server s.relay a = some (relay, e)) :
      Steps D wire server overwritePort s (.relay a) { s with relay := relay } (.relay e)

theorem steps_of_step {a : Action κ} {e : Event κ}
    (hstep : step D wire server overwritePort s a = some (s', e)) :
    Steps D wire server overwritePort s a s' e := by
  cases a with
  | acceptConnection peer =>
      rw [step] at hstep
      rcases Option.map_eq_some_iff.mp hstep with ⟨⟨endpoint, e'⟩, hendpoint, hpair⟩
      cases hpair
      exact .accepted hendpoint
  | handleAuthReq t authReqEnv =>
      rw [step] at hstep
      rcases Option.bind_eq_some_iff.mp hstep with ⟨⟨accounts, lookup⟩, haccounts, hrest⟩
      rcases Option.map_eq_some_iff.mp hrest with ⟨⟨endpoint, e'⟩, hendpoint, hpair⟩
      cases hpair
      exact .checked haccounts hendpoint
  | advance t =>
      rw [step] at hstep
      rcases Option.map_eq_some_iff.mp hstep with ⟨⟨endpoint, e'⟩, hendpoint, hpair⟩
      cases hpair
      exact .advanced hendpoint
  | relay b =>
      have hrelay : (∀ info, b ≠ .login info) →
          ((ServerManager.step wire server s.relay b).map fun (relay, e) =>
            (({ s with relay := relay } : State δ κ), Event.relay e)) = some (s', e) →
          Steps D wire server overwritePort s (.relay b) s' e := by
        intro hb hmap
        rcases Option.map_eq_some_iff.mp hmap with ⟨⟨relay, e'⟩, hstep', hpair⟩
        cases hpair
        exact .relayed hb hstep'
      cases b with
      | login info => cases hstep
      | _ => exact hrelay (by simp) hstep

/-! ## The parts take runs of their own -/

variable {memory : κ → Memory κ} {accounts : Accounts.State δ} {h : List (Event κ)}

/-- The endpoint for logins takes a run of its own. -/
theorem endpoint_run {G : Guard (State δ κ) (Action κ) (Event κ)}
    (hrun : (service D wire server overwritePort memory accounts).Run G h s) :
    (ServerTcpEndpoint.logins overwritePort).Run Any
      (h.filterMap (Event.endpoint? overwritePort)) s.endpoint := by
  refine hrun.component State.endpoint (Event.endpoint? overwritePort) rfl ?_
  intro h s a s' e _ hstep
  cases steps_of_step hstep with
  | @accepted peer endpoint e hendpoint =>
      have hshown : e = .scheduled s.endpoint.tasks.length (overwritePort peer) := by
        cases ServerTcpEndpoint.steps_of_step hendpoint
        rfl
      exact .inr ⟨.acceptConnection peer, _, rfl, trivial, hshown ▸ hendpoint⟩
  | @checked t authReqEnv _ lookup _ e haccounts hendpoint =>
      have hshown : e = .checked t
          (ServerTcpEndpoint.handleAuthReq authReqEnv lookup.answer?.join) := by
        cases ServerTcpEndpoint.steps_of_step hendpoint
        rfl
      exact .inr ⟨.handleAuthReq t authReqEnv lookup.answer?.join, _, rfl, trivial,
        hshown ▸ hendpoint⟩
  | @advanced t endpoint e hendpoint =>
      exact .inr ⟨.advance t, e, rfl, trivial, hendpoint⟩
  | relayed ha hrelay => exact .inl ⟨rfl, rfl⟩

/-- Only a login changes the storage of the relay. -/
theorem connectedClients_of_steps {r r' : ServerManager.State κ} {a : ServerManager.Action κ}
    {e : ServerManager.Event κ} (hsteps : ServerManager.Steps wire server r a r' e)
    (ha : ∀ info, a ≠ .login info) : r'.connectedClients = r.connectedClients := by
  cases hsteps with
  | login info => exact absurd rfl (ha info)
  | _ => rfl

/-- The relay scans the storage of the endpoint. -/
theorem connectedClients_run {G : Guard (State δ κ) (Action κ) (Event κ)}
    (hrun : (service D wire server overwritePort memory accounts).Run G h s) :
    s.relay.connectedClients = s.endpoint.clientInfoStorage := by
  refine hrun.invariant
    (I := fun _ s => s.relay.connectedClients = s.endpoint.clientInfoStorage) rfl ?_
  intro h s a s' e _ hold _ hstep
  cases steps_of_step hstep with
  | accepted hendpoint =>
      cases ServerTcpEndpoint.steps_of_step hendpoint
      exact hold
  | checked haccounts hendpoint =>
      cases ServerTcpEndpoint.steps_of_step hendpoint
      exact hold
  | advanced hendpoint => rfl
  | relayed ha hrelay =>
      exact (connectedClients_of_steps (ServerManager.steps_of_step hrelay) ha).trans hold

/-- The relay takes a run of its own. -/
theorem relay_run
    (hrun : (service D wire server overwritePort memory accounts).Run (Admitted server) h s) :
    (checkMails wire server (endpoints wire memory).init).Run (BuffersKept server)
      (h.filterMap Event.relay?) s.relay := by
  have hshared := hrun.mono_of_run fun h s a hprev hadmitted =>
    (⟨hadmitted, connectedClients_run hprev⟩ :
      Admitted server h s a ∧ s.relay.connectedClients = s.endpoint.clientInfoStorage)
  refine hshared.component State.relay Event.relay? rfl ?_
  rintro h s a s' e ⟨hadmitted, hsame⟩ hstep
  cases steps_of_step hstep with
  | accepted hendpoint =>
      cases ServerTcpEndpoint.steps_of_step hendpoint
      exact .inl ⟨rfl, rfl⟩
  | checked haccounts hendpoint => exact .inl ⟨rfl, rfl⟩
  | advanced hendpoint =>
      have hquiet : { s.relay with connectedClients := s.endpoint.clientInfoStorage } =
          s.relay := by
        rw [← hsame]
      cases ServerTcpEndpoint.steps_of_step hendpoint with
      | @registered _ task userId ht hpoint =>
          refine .inr ⟨.login ⟨userId, task.socketInfo⟩, _, rfl, ?_, ?_⟩
          · intro b hb
            cases hb
          · rw [← hsame]
            rfl
      | _ => exact .inl ⟨rfl, hquiet⟩
  | @relayed a relay e ha hrelay => exact .inr ⟨a, e, rfl, hadmitted, hrelay⟩

/-! ## Whom the server serves -/

/-- The outcome of a request is right: it is the id of the account whose credentials the
request presents. -/
def Right (book : List Accounts.Account) (connected : Bool) (authReqEnv : Envelope)
    (userId : Option UserID) : Prop :=
  ∀ id, userId = some id ↔ connected = true ∧ Accounts.Authentic book authReqEnv id

/-- The server keeps its table, and has decided rightly on every request. -/
structure Decided (D : Accounts.Database δ) (rows : List PsqlManager.UserRow) (connected : Bool)
    (h : List (Event κ)) (s : State δ κ) : Prop where
  serving : Accounts.Serving D rows connected s.accounts
  right : ∀ t authReqEnv userId, .checked t authReqEnv userId ∈ h →
    Right (rows.map Accounts.account) connected authReqEnv userId

theorem decided_run (hD : D.Lawful) {rows : List PsqlManager.UserRow} {connected : Bool}
    (hserving : Accounts.Serving D rows connected accounts)
    (hrun : (service D wire server overwritePort memory accounts).Run (Admitted server) h s) :
    Decided D rows connected h s := by
  refine hrun.invariant (I := Decided D rows connected) ⟨hserving, by simp⟩ ?_
  intro h s a s' e _ hold hadmitted hstep
  cases steps_of_step hstep with
  | accepted hendpoint =>
      exact ⟨hold.serving, by simpa using hold.right⟩
  | checked haccounts hendpoint =>
      rcases hold.serving.authenticate hD hadmitted haccounts with ⟨hserving', hright⟩
      refine ⟨hserving', ?_⟩
      intro t authReqEnv userId hmem
      rcases List.mem_append.mp hmem with hin | hlast
      · exact hold.right t authReqEnv userId hin
      · cases List.mem_singleton.mp hlast
        exact hright
  | advanced hendpoint =>
      exact ⟨hold.serving, by simpa using hold.right⟩
  | relayed ha hrelay =>
      exact ⟨hold.serving, by simpa using hold.right⟩

/-- An outcome that the endpoint shows is that of a request. -/
theorem exists_checked {G : Guard (State δ κ) (Action κ) (Event κ)}
    (hrun : (service D wire server overwritePort memory accounts).Run G h s) {t : Nat}
    {userId : Option UserID}
    (hmem : .checked t userId ∈ h.filterMap (Event.endpoint? overwritePort)) :
    ∃ authReqEnv, .checked t authReqEnv userId ∈ h := by
  rcases List.mem_filterMap.mp hmem with ⟨e, he, hshown⟩
  cases e with
  | accepted t' peer => cases hshown
  | endpoint e =>
      cases hshown
      rcases hrun.step_of_mem he with ⟨_, _, _, _, _, _, hstep⟩
      cases steps_of_step hstep with
      | advanced hendpoint => cases ServerTcpEndpoint.steps_of_step hendpoint
  | checked t' authReqEnv userId' =>
      cases hshown
      exact ⟨authReqEnv, he⟩
  | relay e => cases hshown

/-- A connection that the endpoint shows is one from a peer, whose port is overwritten. -/
theorem exists_accepted {G : Guard (State δ κ) (Action κ) (Event κ)}
    (hrun : (service D wire server overwritePort memory accounts).Run G h s) {t : Nat} {b : κ}
    (hmem : .scheduled t b ∈ h.filterMap (Event.endpoint? overwritePort)) :
    ∃ peer, .accepted t peer ∈ h ∧ overwritePort peer = b := by
  rcases List.mem_filterMap.mp hmem with ⟨e, he, hshown⟩
  cases e with
  | accepted t' peer =>
      cases hshown
      exact ⟨peer, he, rfl⟩
  | endpoint e =>
      cases hshown
      rcases hrun.step_of_mem he with ⟨_, _, _, _, _, _, hstep⟩
      cases steps_of_step hstep with
      | advanced hendpoint => cases ServerTcpEndpoint.steps_of_step hendpoint
  | checked t' authReqEnv userId' => cases hshown
  | relay e => cases hshown

/-- A login that the relay shows is one of the endpoint. -/
theorem exists_registered {G : Guard (State δ κ) (Action κ) (Event κ)}
    (hrun : (service D wire server overwritePort memory accounts).Run G h s)
    {info : ClientInfo κ} (hmem : .login info ∈ h.filterMap Event.relay?) :
    ∃ t, .registered t info ∈ h.filterMap (Event.endpoint? overwritePort) := by
  rcases List.mem_filterMap.mp hmem with ⟨e, he, hshown⟩
  cases e with
  | accepted t peer => cases hshown
  | endpoint e =>
      cases e with
      | registered t info' =>
          cases hshown
          exact ⟨t, List.mem_filterMap.mpr ⟨_, he, rfl⟩⟩
      | _ => cases hshown
  | checked t authReqEnv userId => cases hshown
  | relay e =>
      cases hshown
      rcases hrun.step_of_mem he with ⟨_, _, _, _, _, _, hstep⟩
      cases steps_of_step hstep with
      | relayed ha hrelay =>
          cases ServerManager.steps_of_step hrelay with
          | login => exact absurd rfl (ha info)

omit [DecidableEq κ] in
/-- What the relay shows of the network is its own. -/
theorem relay_of_mem {x : UdpEndpointBase.Event κ} (hmem : .net x ∈ h.filterMap Event.relay?) :
    .relay (.net x) ∈ h := by
  rcases List.mem_filterMap.mp hmem with ⟨e, he, hshown⟩
  cases e with
  | accepted t peer => cases hshown
  | endpoint e => cases e <;> cases hshown
  | checked t authReqEnv userId => cases hshown
  | relay e =>
      cases hshown
      exact he

end Kinds

/-! ## Mail goes where the credentials came from -/

section Served

variable {D : Accounts.Database δ} {wire : Wire} {server : SockaddrIn}
  {memory : SockaddrIn → Memory SockaddrIn} {accounts : Accounts.State δ}
  {h : List (Event SockaddrIn)} {s : State δ SockaddrIn}

/-- What is received at `b` was sent by an endpoint to the server, for an account whose
credentials a task had received over a connection from that host; the port of `b` is the
one that every such address gets. -/
structure ServedAt (book : List Accounts.Account) (connected : Bool) (wire : Wire)
    (server : SockaddrIn) (h : List (Event SockaddrIn)) (b : SockaddrIn)
    (item : AddressedEnvelope SockaddrIn) (t : Nat) (peer : SockaddrIn) (authReqEnv : Envelope)
    (result : AddressedEnvelope SockaddrIn) : Prop where
  accepted : .accepted t peer ∈ h
  host : b.sinAddr = peer.sinAddr
  port : b.sinPort = defauiltTcpPort
  checked : .checked t authReqEnv (some (getRecepientID result.env)) ∈ h
  authentic : connected = true ∧ Accounts.Authentic book authReqEnv (getRecepientID result.env)
  copy : ∃ tStamp, CopyOf wire (setTimeStamp result.env tStamp) item.env
  sent : ∃ aEnv message datagram,
    .relay (.net (.sent result.sockInfo aEnv message datagram)) ∈ h ∧
      aEnv.sockInfo = server ∧ CopyOf wire aEnv.env result.env

/-- The notifications are right, those who are accepted can be found, and mail goes to
hosts that requests for its recipient came from. -/
structure Serves (book : List Accounts.Account) (connected : Bool) (wire : Wire)
    (server : SockaddrIn) (h : List (Event SockaddrIn)) (s : State δ SockaddrIn) : Prop where
  notified : ∀ t resp, .endpoint (.notified t resp) ∈ h →
    ∃ authReqEnv userId, .checked t authReqEnv userId ∈ h ∧
      resp = ServerTcpEndpoint.acceptNotification userId ∧ Right book connected authReqEnv userId
  found : ∀ t authReqEnv userId, .checked t authReqEnv (some userId) ∈ h →
    .endpoint (.closed t) ∈ h →
      ∃ info, findOnlineClient userId s.relay.connectedClients = some info
  relayed : ∀ b datagram item, .relay (.net (.received b datagram item)) ∈ h →
    item.sockInfo = server → getMessageType item.env ≠ .AckMessage →
      ∃ t peer authReqEnv result,
        ServedAt book connected wire server h b item t peer authReqEnv result

/-- On a database that keeps to its documentation, and with lookups that do not overlap,
mail goes only to hosts from which the credentials of its recipient came over TCP. -/
theorem serves_run (hD : D.Lawful) {d : δ} (hsound : Accounts.Sound (D.users d))
    {h₀ : List Accounts.Event} (hstart : (Accounts.server D d).Run Accounts.Fits h₀ accounts)
    (hwire : wire.Lawful)
    (hrun : (service D wire server SockaddrIn.overwritePort memory accounts).Run
      (Admitted server) h s) :
    Serves (Accounts.accounts ((D.users d).map Accounts.account) h₀) (Accounts.connected h₀)
      wire server h s := by
  have hreads := Accounts.reads_run hD hsound hstart
  have hdecided := decided_run hD ⟨hreads.ready, rfl, hreads.connected_eq⟩ hrun
  have htraced := ServerTcpEndpoint.traced_run (endpoint_run hrun)
  rw [← hreads.accounts_eq]
  constructor
  · intro t resp hmem
    rcases htraced.notified t resp (List.mem_filterMap.mpr ⟨_, hmem, rfl⟩) with
      ⟨userId, hchecked, hresp⟩
    rcases exists_checked hrun hchecked with ⟨authReqEnv, hrequest⟩
    exact ⟨authReqEnv, userId, hrequest, hresp, hdecided.right t authReqEnv userId hrequest⟩
  · intro t authReqEnv userId hchecked hclosed
    rw [connectedClients_run hrun]
    exact ServerTcpEndpoint.found_run (endpoint_run hrun)
      (List.mem_filterMap.mpr ⟨_, hchecked, rfl⟩) (List.mem_filterMap.mpr ⟨_, hclosed, rfl⟩)
  · intro b datagram item hmem hfrom hnot
    have hrelayRun := relay_run hrun
    rcases exists_sourced_run hrelayRun with ⟨source, hsourced⟩
    rcases forwarded_of_received hwire hrelayRun hsourced
      (List.mem_filterMap.mpr ⟨_, hmem, rfl⟩) hfrom hnot with
      ⟨c, addrEnv, result, recInfo, _, _, hforwarded⟩
    rcases exists_registered hrun hforwarded.looked.login with ⟨t, hregistered⟩
    rcases htraced.registered t recInfo hregistered with ⟨hscheduled, hchecked⟩
    rw [hforwarded.looked.recipient] at hchecked
    rcases exists_checked hrun hchecked with ⟨authReqEnv, hrequest⟩
    rcases exists_accepted hrun hscheduled with ⟨peer, haccepted, hsocketInfo⟩
    rcases hforwarded.sent with ⟨aEnv, message, datagram', hsent, hto, hcopy⟩
    rw [hforwarded.address] at hsocketInfo
    subst hsocketInfo
    exact ⟨t, peer, authReqEnv, result, haccepted, rfl, rfl, hrequest,
      (hdecided.right t authReqEnv _ hrequest _).mp rfl, hforwarded.copy,
      aEnv, message, datagram', relay_of_mem hsent, hto, hcopy⟩

end Served

/-- The test of {lit}`Admitted`. -/
def admitted (server : SockaddrIn) (h : List (Event SockaddrIn))
    (s : State (List PsqlManager.UserRow) SockaddrIn) : Action SockaddrIn → Bool
  | .handleAuthReq _ authReqEnv => Accounts.fits [] s.accounts (.authenticate authReqEnv)
  | .relay b => buffersKeptTest server (h.filterMap Event.relay?) s.relay b
  | _ => true

theorem admitted_of_test (server : SockaddrIn) (h : List (Event SockaddrIn))
    (s : State (List PsqlManager.UserRow) SockaddrIn) (a : Action SockaddrIn)
    (htest : admitted server h s a = true) : Admitted server h s a := by
  cases a with
  | handleAuthReq t authReqEnv =>
      exact Accounts.fits_of_test [] s.accounts (.authenticate authReqEnv) htest
  | relay b => exact buffersKept_of_test server (h.filterMap Event.relay?) s.relay b htest
  | _ => trivial

/-- Memory that was never used. -/
def unusedMemory (address : SockaddrIn) : Memory SockaddrIn where
  inQueue := ⟨.replicate _ ⟨address, Envelope.zero, .message 0⟩, 0, 0, 0⟩
  outQueue := ⟨.replicate _ ⟨address, Envelope.zero, .message 0⟩, 0, 0, 0⟩
  ackQueue := ⟨.replicate _ { tStamp := 0 }, 0, 0, 0⟩

/-- A server, where the sockets of this port are bound. -/
def serverAddress : SockaddrIn := ⟨1, 51112⟩

/-- A message to the first predefined user. -/
def letter : Envelope :=
  { greeting with metaData := { recepientId := 1 } }

/-- The first predefined user logs in from the host 9; an endpoint on the host 2 sends a
message to the server, which comes to the endpoint on the host 9 with the default port. -/
def loginAndMail : List (Action SockaddrIn) :=
  let net (a : UdpEndpointBase.Action SockaddrIn) : Action SockaddrIn := .relay (.net a)
  let writer : SockaddrIn := ⟨2, 51112⟩
  [.acceptConnection ⟨9, 40000⟩,
    .handleAuthReq 0 (Accounts.authRequest (ascii "user1@mail.com") (ascii "user1_pass")),
    .advance 0, .advance 0, .advance 0, net (.sendEnvelope writer letter serverAddress 5),
    net (.call 0), net (.sender writer), net (.sender writer), net (.sender writer),
    net (.receive serverAddress 0), net (.listener serverAddress), .relay .checkMail] ++
  List.replicate 5 (.relay (.advance 0 5)) ++
  [net (.sender serverAddress), net (.sender serverAddress), net (.sender serverAddress),
    net (.receive ⟨9, 51111⟩ 1)]

/-- A notification, or where a user's message from the server has come. -/
def Event.outcome : Event SockaddrIn → Option (Sum SockaddrIn ServerTcpEndpoint.AuthResponse)
  | .relay (.net (.received b _ item)) =>
      if item.sockInfo = serverAddress ∧ getMessageType item.env = .UserMessage then
        some (.inl b)
      else none
  | .endpoint (.notified _ resp) => some (.inr resp)
  | _ => none

/-- The request is accepted, and the message arrives. -/
theorem serves_run_loginAndMail :
    ∃ h₀ s₀ h s, (Accounts.server Accounts.someDatabase []).Run Accounts.Fits h₀ s₀ ∧
      (service Accounts.someDatabase envelopeWire serverAddress SockaddrIn.overwritePort
        unusedMemory s₀).Run (Admitted serverAddress) h s ∧
      h.filterMap Event.outcome = [.inr ⟨true, 1⟩, .inl ⟨9, 51111⟩] ∧
      Serves (Accounts.accounts [] h₀) (Accounts.connected h₀) envelopeWire serverAddress h s := by
  have hexec : (((Accounts.server Accounts.someDatabase []).execFrom Accounts.fits []
      (Accounts.server Accounts.someDatabase []).init (Accounts.construct true)).bind fun r₀ =>
        ((service Accounts.someDatabase envelopeWire serverAddress SockaddrIn.overwritePort
          unusedMemory r₀.2).execFrom (admitted serverAddress) []
          (service Accounts.someDatabase envelopeWire serverAddress SockaddrIn.overwritePort
            unusedMemory r₀.2).init loginAndMail).map fun r => r.1.filterMap Event.outcome) =
      some [.inr ⟨true, 1⟩, .inl ⟨9, 51111⟩] := by
    decide +kernel
  rcases Option.bind_eq_some_iff.mp hexec with ⟨⟨h₀, s₀⟩, hstart, hrest⟩
  rcases Option.map_eq_some_iff.mp hrest with ⟨⟨h, s⟩, hexec, houtcome⟩
  have hrun₀ := Run.of_execFrom Accounts.fits_of_test .start hstart
  have hrun := Run.of_execFrom (admitted_of_test serverAddress) .start hexec
  exact ⟨h₀, s₀, h, s, hrun₀, hrun, houtcome,
    serves_run Accounts.someDatabase_lawful Accounts.sound_nil hrun₀ envelopeWire_lawful hrun⟩

end ServerManager.Service

end SimpleMessenger
