import SimpleMessenger.Foundations.HandleLedger
import SimpleMessenger.Foundations.StepSystem
import SimpleMessenger.Server.PsqlManager

/-!
# The handles of `PsqlManager`

Connections are handed out by `PQconnectdb` and taken back by `PQfinish`, results
are handed out by `PQexec` and taken back by `PQclear`.  This module runs the public
operations of the class in any order, the three queries only while the flag says
that there is a connection, and follows both kinds of handle through the record of
calls up to the destructor.  An operation that reads through a null pointer or past an
array ends the run with that fault.

Main results:

- Theorem {lit}`Recorded.run`: in every run the numbers of the handles in the record
  are those handed out so far.
- Theorems {lit}`clean_tryConnect_iff`, {lit}`clean_closeConnection_iff`,
  {lit}`clean_answered` and {lit}`not_clean_exec`: which operations keep the
  handles in order.
- Theorems {lit}`exists_registerNewUser_iff` and {lit}`exists_findUserByCreds_iff`: which
  queries come back.
- Theorem {lit}`run_disciplined_iff`: the handles are in order all along a run exactly
  when no connection is opened over another, none is closed by hand, no answer to
  `CREATE TABLE` is a success and no query faults.
-/

namespace SimpleMessenger

open CMemory

namespace PsqlManager

/-! ## Running the operations -/

/-- A public operation with its arguments; `db` is the database that answers it and
`accepted` the outcome of an attempt to connect. -/
inductive Operation where
  | tryConnect (accepted : Bool) (username password hostaddr port : Bytes)
  | createUsersTableIfNotExist (db : Bytes → PGresult)
  | registerNewUser (db : Bytes → PGresult) (name password email : Bytes)
  | findUserByCreds (db : Bytes → PGresult) (creds : UserCredentials)
  | closeConnection

/-- What an operation returns, or the fault that it ends in. -/
inductive Returned where
  | flag (ret : Bool)
  | userId (ret : Option UserID)
  | nothing
  | faulted (fault : Fault)
deriving DecidableEq

/-- The instance, and whether an operation has ended in a fault, behind which nothing that
the program does is known. -/
structure Session where
  manager : PsqlManager := {}
  faulted : Bool := false

/-- The members where an operation faults: a lookup reads its credentials before the query,
and a value is read behind it. -/
def atFault (m : PsqlManager) : Operation → PsqlManager
  | .registerNewUser db name password email => m.exec db (insertReq name password email)
  | .findUserByCreds db creds =>
      match creds.email.cstring, creds.password.cstring with
      | .ok email, .ok password => m.exec db (selectReq email password)
      | _, _ => m
  | _ => m

/-- A query that comes back, or faults. -/
def answered {κ : Type} (m : PsqlManager) (a : Operation) (answer : κ → Returned) :
    Checked (κ × PsqlManager) → Session × Returned
  | .ok (ret, m') => (⟨m', false⟩, answer ret)
  | .error fault => (⟨atFault m a, true⟩, .faulted fault)

/-- One operation; the queries are called only while there is a connection. -/
def call (m : PsqlManager) (a : Operation) : Option (Session × Returned) :=
  match a with
  | .tryConnect accepted username password hostaddr port =>
      let outcome := m.tryConnect accepted username password hostaddr port
      some (⟨outcome.2, false⟩, .flag outcome.1)
  | .createUsersTableIfNotExist db =>
      if m.isConnected then some (answered m a .flag (m.createUsersTableIfNotExist db)) else none
  | .registerNewUser db name password email =>
      if m.isConnected then
        some (answered m a .userId (m.registerNewUser db name password email))
      else none
  | .findUserByCreds db creds =>
      if m.isConnected then some (answered m a .userId (m.findUserByCreds db creds)) else none
  | .closeConnection => some (⟨m.closeConnection, false⟩, .nothing)

/-- The next operation, unless an earlier one has faulted. -/
def step (s : Session) (a : Operation) : Option (Session × Returned) :=
  if s.faulted then none else call s.manager a

/-- The operations, from the constructor on. -/
def operations : StepSystem Session Operation Returned :=
  { init := {}
    step := step }

/-- A query either comes back or faults. -/
theorem answered_cases {κ : Type} {m : PsqlManager} {a : Operation} {answer : κ → Returned}
    {outcome : Checked (κ × PsqlManager)} {s' : Session} {e : Returned}
    (hanswered : answered m a answer outcome = (s', e)) :
    (∃ ret m', outcome = .ok (ret, m') ∧ s' = ⟨m', false⟩) ∨
      ((∀ ret m', outcome ≠ .ok (ret, m')) ∧ s' = ⟨atFault m a, true⟩) := by
  cases outcome with
  | error fault =>
      cases hanswered
      exact .inr ⟨by simp, rfl⟩
  | ok pair =>
      cases hanswered
      exact .inl ⟨pair.1, pair.2, rfl, rfl⟩

/-! ## The two kinds of handle -/

/-- The connection that a call opens. -/
@[simp]
def connectionOpened : PqCall → Option Nat
  | .connectdb _ c => some c
  | _ => none

/-- The connection that a call is passed for a query. -/
@[simp]
def connectionUsed : PqCall → Option (Option Nat)
  | .exec conn _ _ => some conn
  | _ => none

/-- The connection that a call finishes; there is nothing behind the null pointer. -/
@[simp]
def connectionFinished : PqCall → Option Nat
  | .finish conn => conn
  | _ => none

/-- The result that a call hands out. -/
@[simp]
def resultOpened : PqCall → Option Nat
  | .exec _ _ r => some r
  | _ => none

/-- The result that a call clears. -/
@[simp]
def resultCleared : PqCall → Option Nat
  | .clear res => res
  | _ => none

/-- Connections: opened by `PQconnectdb`, used by `PQexec`, closed by `PQfinish`. -/
def connectionKind : HandleKind PqCall Nat :=
  { opens := connectionOpened
    uses := connectionUsed
    closes := connectionFinished }

/-- Results: opened by `PQexec`, closed by `PQclear`. -/
def resultKind : HandleKind PqCall Nat :=
  { opens := resultOpened
    uses := fun _ => none
    closes := resultCleared }

@[simp]
theorem connectionKind_opens : connectionKind.opens = connectionOpened :=
  rfl

@[simp]
theorem connectionKind_uses : connectionKind.uses = connectionUsed :=
  rfl

@[simp]
theorem connectionKind_closes : connectionKind.closes = connectionFinished :=
  rfl

@[simp]
theorem resultKind_opens : resultKind.opens = resultOpened :=
  rfl

@[simp]
theorem resultKind_closes : resultKind.closes = resultCleared :=
  rfl

/-- The handles are in order: the flag tells whether the member is an open
connection, no query went to any other connection, and once the destructor has run
every connection is finished once and every result cleared once. -/
structure Clean (m : PsqlManager) : Prop where
  flag : m.isConnected = true ↔
    ∃ c, m.pgConnection = some c ∧ connectionKind.IsOpen m.calls c
  used : connectionKind.UsesOpen m.calls
  finished : connectionKind.ClosedOnce m.destroy.calls
  cleared : resultKind.ClosedOnce m.destroy.calls

/-- The handles are in order and no operation has faulted. -/
structure Session.Clean (s : Session) : Prop extends s.manager.Clean where
  unfaulted : s.faulted = false

/-- The answer has a first row, and that has a field. -/
def HasValue (a : PGresult) : Prop :=
  ∃ value, a.getvalue 0 0 = .ok value

/-- The operations that leave the handles in order: a connection is opened only when
there is none, closing by hand happens only before the first attempt to connect, the
table is not created with success, a registration that is answered with rows is answered
with a value, and a lookup has credentials that are C strings and a value in the row that
it gets, if any. -/
def Disciplined (m : PsqlManager) : Operation → Prop
  | .tryConnect .. => m.isConnected = false
  | .createUsersTableIfNotExist db => (db createTableSql).status ≠ .commandOk
  | .closeConnection => m.pgConnection = none
  | .registerNewUser db name password email =>
      (db (insertReq name password email)).status = .tuplesOk →
        HasValue (db (insertReq name password email))
  | .findUserByCreds db creds =>
      ∃ email password, creds.email.cstring = .ok email ∧
        creds.password.cstring = .ok password ∧
        ((db (selectReq email password)).status = .tuplesOk →
          (db (selectReq email password)).rows ≠ [] → HasValue (db (selectReq email password)))

/-! ## What the record says about the members -/

theorem mem_closed_resultKind {calls : List PqCall} {r : Nat} :
    r ∈ resultKind.closed calls ↔ PqCall.clear (some r) ∈ calls := by
  simp only [HandleKind.closed, List.mem_filterMap]
  constructor
  · rintro ⟨call, hmem, hcloses⟩
    cases call with
    | clear res =>
        cases hcloses
        exact hmem
    | connectdb info c => cases hcloses
    | finish conn => cases hcloses
    | exec conn text r' => cases hcloses
  · intro hmem
    exact ⟨_, hmem, rfl⟩

/-- The numbers in the record and in the members have been handed out. -/
structure Recorded (m : PsqlManager) : Prop extends HandlesValid m where
  openedConnections : ∀ c ∈ connectionKind.opened m.calls, c < m.connections
  closedConnections : ∀ c ∈ connectionKind.closed m.calls, c < m.connections
  currentConnection : ∀ c, m.pgConnection = some c → c ∈ connectionKind.opened m.calls
  openedResults : ∀ r ∈ resultKind.opened m.calls, r < m.results.length

theorem recorded_init : Recorded {} :=
  { toHandlesValid := handlesValid_default
    openedConnections := by simp
    closedConnections := by simp
    currentConnection := by simp
    openedResults := by simp }

theorem Recorded.exec {m : PsqlManager} (hm : m.Recorded) (db : Bytes → PGresult)
    (text : Bytes) : (m.exec db text).Recorded := by
  refine ⟨hm.toHandlesValid.exec db text, ?_, ?_, ?_, ?_⟩
  · intro c hc
    exact hm.openedConnections c (by simpa [PsqlManager.exec] using hc)
  · intro c hc
    exact hm.closedConnections c (by simpa [PsqlManager.exec] using hc)
  · intro c hc
    simpa [PsqlManager.exec] using hm.currentConnection c hc
  · intro r hr
    have hcases : r ∈ resultKind.opened m.calls ∨ r = m.results.length := by
      simpa [PsqlManager.exec] using hr
    simp only [PsqlManager.exec, List.length_append, List.length_singleton]
    rcases hcases with hold | hnew
    · have hlt := hm.openedResults r hold
      omega
    · omega

theorem Recorded.clear {m : PsqlManager} (hm : m.Recorded) : m.clear.Recorded := by
  refine ⟨hm.toHandlesValid.clear, ?_, ?_, ?_, ?_⟩
  · intro c hc
    exact hm.openedConnections c (by simpa [PsqlManager.clear] using hc)
  · intro c hc
    exact hm.closedConnections c (by simpa [PsqlManager.clear] using hc)
  · intro c hc
    simpa [PsqlManager.clear] using hm.currentConnection c hc
  · intro r hr
    exact hm.openedResults r (by simpa [PsqlManager.clear] using hr)

theorem Recorded.closeConnection {m : PsqlManager} (hm : m.Recorded) :
    m.closeConnection.Recorded := by
  refine ⟨⟨hm.current, ?_⟩, ?_, ?_, ?_, ?_⟩
  · intro r hr
    exact hm.cleared r (by simpa [PsqlManager.closeConnection] using hr)
  · intro c hc
    exact hm.openedConnections c
      (by simpa [PsqlManager.closeConnection] using hc)
  · intro c hc
    have hcases : c ∈ connectionKind.closed m.calls ∨ m.pgConnection = some c := by
      simpa [PsqlManager.closeConnection, connectionKind, eq_comm] using hc
    rcases hcases with hold | hcurrent
    · exact hm.closedConnections c hold
    · exact hm.openedConnections c (hm.currentConnection c hcurrent)
  · intro c hc
    simpa [PsqlManager.closeConnection] using hm.currentConnection c hc
  · intro r hr
    exact hm.openedResults r (by simpa [PsqlManager.closeConnection] using hr)

/-- The calls of an attempt to connect. -/
theorem tryConnect_calls (m : PsqlManager) (accepted : Bool)
    (username password hostaddr port : Bytes) :
    ∃ info, (m.tryConnect accepted username password hostaddr port).2 =
      { m with
        pgConnection := some m.connections
        connections := m.connections + 1
        isConnected := accepted
        calls := m.calls ++ [PqCall.connectdb info m.connections] ++
          if accepted then [] else [PqCall.finish (some m.connections)] } := by
  cases accepted with
  | true => exact ⟨_, by simp [tryConnect]; rfl⟩
  | false => exact ⟨_, by simp [tryConnect]; rfl⟩

theorem Recorded.tryConnect {m : PsqlManager} (hm : m.Recorded) (accepted : Bool)
    (username password hostaddr port : Bytes) :
    (m.tryConnect accepted username password hostaddr port).2.Recorded := by
  have hvalid := hm.toHandlesValid.tryConnect accepted username password hostaddr port
  rcases m.tryConnect_calls accepted username password hostaddr port with ⟨info, heq⟩
  rw [heq] at hvalid ⊢
  refine ⟨hvalid, ?_, ?_, ?_, ?_⟩
  · intro c hc
    have hcases : c ∈ connectionKind.opened m.calls ∨ c = m.connections := by
      cases accepted <;> simpa using hc
    rcases hcases with hold | hnew
    · exact Nat.lt_succ_of_lt (hm.openedConnections c hold)
    · exact hnew ▸ Nat.lt_succ_self _
  · intro c hc
    have hcases : c ∈ connectionKind.closed m.calls ∨ c = m.connections := by
      cases accepted with
      | true => exact .inl (by simpa using hc)
      | false => simpa using hc
    rcases hcases with hold | hnew
    · exact Nat.lt_succ_of_lt (hm.closedConnections c hold)
    · exact hnew ▸ Nat.lt_succ_self _
  · intro c hc
    cases accepted <;> simp_all
  · intro r hr
    apply hm.openedResults r
    cases accepted <;> simpa using hr

/-! ## What the operations do to the handles -/

/-- The query that creates the table comes back; its answer is cleared unless it is
a success. -/
theorem createUsersTableIfNotExist_eq {m : PsqlManager} (hm : m.HandlesValid)
    (db : Bytes → PGresult) :
    m.createUsersTableIfNotExist db =
      .ok (if (db createTableSql).status ≠ .commandOk then
        (false, (m.exec db createTableSql).clear)
      else (true, m.exec db createTableSql)) := by
  unfold createUsersTableIfNotExist
  simp only [result_exec hm]
  by_cases hstatus : (db createTableSql).status ≠ .commandOk
  · rw [if_pos hstatus]
    simp only [bind, Except.bind, if_pos hstatus]
    rfl
  · rw [if_neg hstatus]
    simp only [bind, Except.bind, if_neg hstatus]
    rfl

/-- A registration that comes back has cleared its answer. -/
theorem registerNewUser_ok {m m' : PsqlManager} {db : Bytes → PGresult}
    {name password email : Bytes} {ret : Option UserID}
    (hregister : m.registerNewUser db name password email = .ok (ret, m')) :
    m' = (m.exec db (insertReq name password email)).clear := by
  simp only [registerNewUser, bind_eq_ok_iff] at hregister
  rcases hregister with ⟨a, _, hret⟩
  by_cases hstatus : a.status ≠ .tuplesOk
  · rw [if_pos hstatus] at hret
    cases hret
    rfl
  · rw [if_neg hstatus, bind_eq_ok_iff] at hret
    rcases hret with ⟨value, _, hpair⟩
    cases hpair
    rfl

/-- A registration comes back exactly if there is a value to read, or none is read. -/
theorem exists_registerNewUser_iff {m : PsqlManager} (hm : m.HandlesValid)
    {db : Bytes → PGresult} {name password email : Bytes} :
    (∃ ret m', m.registerNewUser db name password email = .ok (ret, m')) ↔
      ((db (insertReq name password email)).status = .tuplesOk →
        HasValue (db (insertReq name password email))) := by
  constructor
  · rintro ⟨ret, m', hregister⟩ hstatus
    simp only [registerNewUser, bind_eq_ok_iff, result_exec hm] at hregister
    rcases hregister with ⟨a, ⟨⟩, hret⟩
    rw [if_neg (by simp [hstatus]), bind_eq_ok_iff] at hret
    rcases hret with ⟨value, hvalue, _⟩
    exact ⟨value, hvalue⟩
  · intro hvalue
    by_cases hstatus : (db (insertReq name password email)).status = .tuplesOk
    · rcases hvalue hstatus with ⟨value, hvalue⟩
      refine ⟨some (userIdOf value), (m.exec db (insertReq name password email)).clear,
        bind_eq_ok_iff.mpr ⟨_, result_exec hm db _, ?_⟩⟩
      rw [if_neg (by simp [hstatus])]
      exact bind_eq_ok_iff.mpr ⟨value, hvalue, rfl⟩
    · refine ⟨none, (m.exec db (insertReq name password email)).clear,
        bind_eq_ok_iff.mpr ⟨_, result_exec hm db _, ?_⟩⟩
      rw [if_pos hstatus]
      rfl

/-- An answer can be read exactly if it has no row to read or a value in the first one. -/
theorem exists_readAnswer_iff {a : PGresult} :
    (∃ ret, readAnswer a = .ok ret) ↔
      (a.status = .tuplesOk → a.rows ≠ [] → HasValue a) := by
  unfold readAnswer
  by_cases hstatus : a.status = .tuplesOk
  · by_cases hrows : a.rows = []
    · simp [hstatus, hrows]
    · have hlength : ¬ a.rows.length < 1 := by
        simpa [Nat.lt_one_iff] using hrows
      simp only [hstatus, ne_eq, not_true_eq_false, if_false, hlength, map_eq_ok_iff, HasValue]
      constructor
      · rintro ⟨ret, value, hvalue, _⟩ _ _
        exact ⟨value, hvalue⟩
      · intro hvalue
        rcases hvalue trivial hrows with ⟨value, hvalue⟩
        exact ⟨_, value, hvalue, rfl⟩
  · simp [hstatus]

/-- A lookup comes back exactly if its credentials and its answer can be read. -/
theorem exists_findUserByCreds_iff {m : PsqlManager} (hm : m.HandlesValid)
    {db : Bytes → PGresult} {creds : UserCredentials} :
    (∃ ret m', m.findUserByCreds db creds = .ok (ret, m')) ↔
      Disciplined m (.findUserByCreds db creds) := by
  constructor
  · rintro ⟨ret, m', hfind⟩
    rcases findUserByCreds_ok hfind with ⟨email, password, hemail, hpassword, hread, _⟩
    exact ⟨email, password, hemail, hpassword, exists_readAnswer_iff.mp ⟨ret, hread⟩⟩
  · rintro ⟨email, password, hemail, hpassword, hvalue⟩
    rcases exists_readAnswer_iff.mpr hvalue with ⟨ret, hread⟩
    exact ⟨_, _, findUserByCreds_eq_ok hm hemail hpassword hread⟩

theorem destroy_calls (m : PsqlManager) :
    m.destroy.calls =
      m.calls ++ if m.isConnected then [PqCall.finish m.pgConnection] else [] := by
  cases hconnected : m.isConnected <;> simp [destroy, closeConnection, hconnected]

/-- The destructor does not clear results. -/
theorem closedOnce_result_destroy (m : PsqlManager) :
    resultKind.ClosedOnce m.destroy.calls ↔ resultKind.ClosedOnce m.calls := by
  rw [destroy_calls]
  apply HandleKind.closedOnce_append_of_nil
  · cases m.isConnected <;> simp
  · cases m.isConnected <;> simp

/-- Without a connection every connection has been finished once. -/
theorem Clean.finished_of_disconnected {m : PsqlManager} (hm : m.Clean)
    (hconnected : m.isConnected = false) : connectionKind.ClosedOnce m.calls := by
  simpa [destroy, hconnected] using hm.finished

theorem clean_init : Clean {} :=
  { flag := by simp
    used := HandleKind.usesOpen_nil
    finished := HandleKind.closedOnce_nil
    cleared := HandleKind.closedOnce_nil }

/-- Whatever becomes of a new connection, it is finished in the end, and no other. -/
theorem destroy_tryConnect_calls (m : PsqlManager) (accepted : Bool)
    (username password hostaddr port : Bytes) :
    ∃ info, (m.tryConnect accepted username password hostaddr port).2.destroy.calls =
      m.calls ++ [.connectdb info m.connections, .finish (some m.connections)] := by
  rcases m.tryConnect_calls accepted username password hostaddr port with ⟨info, heq⟩
  refine ⟨info, ?_⟩
  rw [destroy_calls, heq]
  cases accepted <;> simp

/-- A manager that is still connected loses the connection that it has. -/
theorem disconnected_of_clean_tryConnect {m : PsqlManager} (hrecorded : m.Recorded)
    (hm : m.Clean) {accepted : Bool} {username password hostaddr port : Bytes}
    (hclean : (m.tryConnect accepted username password hostaddr port).2.Clean) :
    m.isConnected = false := by
  rcases m.destroy_tryConnect_calls accepted username password hostaddr port with
    ⟨info, hdestroyed⟩
  by_contra hconnected
  rcases hm.flag.mp (by simpa using hconnected) with ⟨c, hc, hopened, hclosed⟩
  have hold : c ≠ m.connections := by
    have hlt := hrecorded.openedConnections c hopened
    omega
  have hcount := hclean.finished c (by rw [hdestroyed]; simp [hopened])
  rw [hdestroyed] at hcount
  simp [hold.symm] at hcount
  exact hclosed (List.count_pos_iff.mp (by omega))

theorem Clean.tryConnect {m : PsqlManager} (hrecorded : m.Recorded) (hm : m.Clean)
    (hconnected : m.isConnected = false) (accepted : Bool)
    (username password hostaddr port : Bytes) :
    (m.tryConnect accepted username password hostaddr port).2.Clean := by
  rcases m.tryConnect_calls accepted username password hostaddr port with ⟨info, heq⟩
  rcases m.destroy_tryConnect_calls accepted username password hostaddr port with
    ⟨info', hdestroyed⟩
  have hfresh : m.connections ∉ connectionKind.closed m.calls := by
    intro hmem
    exact Nat.lt_irrefl _ (hrecorded.closedConnections _ hmem)
  refine ⟨?_, ?_, ?_, ?_⟩
  · rw [heq]
    cases accepted with
    | true => simp [HandleKind.IsOpen, hfresh]
    | false => simp [HandleKind.IsOpen]
  · rw [heq]
    cases accepted with
    | true =>
        simp only [if_true, List.append_nil]
        rw [HandleKind.usesOpen_snoc_of_none rfl]
        exact hm.used
    | false =>
        simp only [Bool.false_eq_true, if_false]
        rw [HandleKind.usesOpen_snoc_of_none rfl, HandleKind.usesOpen_snoc_of_none rfl]
        exact hm.used
  · rw [hdestroyed, HandleKind.closedOnce_append_iff]
    · refine ⟨hm.finished_of_disconnected hconnected, ?_⟩
      simp [HandleKind.ClosedOnce]
    · refine ⟨?_, ?_⟩
      · intro c hc
        have hlt := hrecorded.openedConnections c hc
        simp
        omega
      · intro c hc
        have hnew : c = m.connections := by simpa using hc
        exact hnew ▸ hfresh
  · rw [hdestroyed, HandleKind.closedOnce_append_of_nil (by simp) (by simp)]
    exact (closedOnce_result_destroy m).mp hm.cleared

/-- Opening a connection keeps the handles in order exactly when there was none. -/
theorem clean_tryConnect_iff {m : PsqlManager} (hrecorded : m.Recorded) (hm : m.Clean)
    (accepted : Bool) (username password hostaddr port : Bytes) :
    (m.tryConnect accepted username password hostaddr port).2.Clean ↔
      m.isConnected = false := by
  constructor
  · intro hclean
    exact disconnected_of_clean_tryConnect hrecorded hm hclean
  · intro hconnected
    exact hm.tryConnect hrecorded hconnected accepted username password hostaddr port

/-- Closing by hand keeps the handles in order exactly when there never was a
connection: the flag is not reset and the handle not forgotten. -/
theorem clean_closeConnection_iff {m : PsqlManager} (hrecorded : m.Recorded)
    (hm : m.Clean) : m.closeConnection.Clean ↔ m.pgConnection = none := by
  constructor
  · intro hclean
    cases hconnection : m.pgConnection with
    | none => rfl
    | some c =>
        exfalso
        cases hconnected : m.isConnected with
        | true =>
            rcases hclean.flag.mp hconnected with ⟨c', hc', _, hclosed⟩
            have hsame : c' = c := by
              have hcurrent : m.pgConnection = some c' := hc'
              rw [hconnection] at hcurrent
              exact (Option.some.inj hcurrent).symm
            apply hclosed
            simp [closeConnection, hconnection, hsame]
        | false =>
            have honce := hm.finished_of_disconnected hconnected
            have hopened := hrecorded.currentConnection c hconnection
            have hfinishes : connectionKind.closes (.finish m.pgConnection) = some c :=
              hconnection
            exact honce.not_snoc hopened hfinishes
              (hclean.finished_of_disconnected hconnected)
  · intro hnone
    have hconnected : m.isConnected = false := by
      by_contra hconnected
      rcases hm.flag.mp (by simpa using hconnected) with ⟨c, hc, _⟩
      rw [hnone] at hc
      contradiction
    have hcalls : m.closeConnection.calls = m.calls ++ [.finish none] := by
      simp [closeConnection, hnone]
    refine ⟨?_, ?_, ?_, ?_⟩
    · simp [closeConnection, hconnected, hnone]
    · rw [hcalls, HandleKind.usesOpen_snoc_of_none rfl]
      exact hm.used
    · have hdestroyed : m.closeConnection.destroy.calls = m.calls ++ [.finish none] := by
        simp [destroy_calls, closeConnection, hconnected, hnone]
      rw [hdestroyed, HandleKind.closedOnce_append_of_nil rfl rfl]
      exact hm.finished_of_disconnected hconnected
    · rw [closedOnce_result_destroy, hcalls, HandleKind.closedOnce_append_of_nil rfl rfl]
      exact (closedOnce_result_destroy m).mp hm.cleared

/-- A query over an open connection whose answer is cleared keeps the handles in
order. -/
theorem clean_answered {m : PsqlManager} (hrecorded : m.Recorded) (hm : m.Clean)
    (hconnected : m.isConnected = true) (db : Bytes → PGresult) (text : Bytes) :
    (m.exec db text).clear.Clean := by
  have hcalls : (m.exec db text).clear.calls =
      m.calls ++ [.exec m.pgConnection text m.results.length] ++
        [.clear (some m.results.length)] := by
    simp [exec, clear]
  have hdestroyed : (m.exec db text).clear.destroy.calls =
      m.calls ++ [.exec m.pgConnection text m.results.length,
        .clear (some m.results.length), .finish m.pgConnection] := by
    simp [destroy_calls, exec, clear, hconnected]
  rcases hm.flag.mp hconnected with ⟨c, hc, hopen⟩
  refine ⟨?_, ?_, ?_, ?_⟩
  · have hsame : ∀ c, connectionKind.IsOpen (m.exec db text).clear.calls c ↔
        connectionKind.IsOpen m.calls c := by
      intro c
      rw [hcalls, List.append_assoc]
      exact HandleKind.isOpen_append rfl rfl c
    simp only [hsame]
    exact hm.flag
  · rw [hcalls, HandleKind.usesOpen_snoc_of_none rfl, HandleKind.usesOpen_snoc]
    refine ⟨hm.used, ?_⟩
    intro passed hpassed
    cases hpassed
    exact ⟨c, hc, hopen⟩
  · have hfinished := hm.finished
    rw [destroy_calls, hconnected] at hfinished
    simpa [HandleKind.ClosedOnce, hdestroyed] using hfinished
  · rw [closedOnce_result_destroy, hcalls, List.append_assoc,
      HandleKind.closedOnce_append_iff]
    · refine ⟨(closedOnce_result_destroy m).mp hm.cleared, ?_⟩
      simp [HandleKind.ClosedOnce]
    · refine ⟨?_, ?_⟩
      · intro r hr
        have hlt := hrecorded.openedResults r hr
        simp
        omega
      · intro r hr
        have hnew : r = m.results.length := by simpa using hr
        rw [hnew, mem_closed_resultKind]
        intro hmem
        exact Nat.lt_irrefl _ (hrecorded.cleared _ hmem)

/-- A query whose answer is not cleared leaves a result behind. -/
theorem not_clean_exec {m : PsqlManager} (hrecorded : m.Recorded) (db : Bytes → PGresult)
    (text : Bytes) : ¬ (m.exec db text).Clean := by
  intro hclean
  have honce := (closedOnce_result_destroy _).mp hclean.cleared
  apply honce.not_isOpen m.results.length
  constructor
  · simp [exec]
  · rw [mem_closed_resultKind]
    intro hmem
    exact Nat.lt_irrefl _ (hrecorded.cleared _ (by simpa [exec] using hmem))

/-! ## Runs -/

/-- A query that faults has left the handles as they were, or an answer behind. -/
theorem atFault_cases (m : PsqlManager) (a : Operation) :
    atFault m a = m ∨ ∃ db text, atFault m a = m.exec db text := by
  cases a with
  | registerNewUser db name password email => exact .inr ⟨db, _, rfl⟩
  | findUserByCreds db creds =>
      simp only [atFault]
      split
      · exact .inr ⟨db, _, rfl⟩
      · exact .inl rfl
  | _ => exact .inl rfl

/-- What an operation does to the record of the calls. -/
theorem step_cases {s s' : Session} {a : Operation} {e : Returned}
    (hm : s.manager.HandlesValid) (hstep : step s a = some (s', e)) :
    (∃ accepted username password hostaddr port,
      a = .tryConnect accepted username password hostaddr port ∧
        s' = ⟨(s.manager.tryConnect accepted username password hostaddr port).2, false⟩) ∨
    (a = .closeConnection ∧ s' = ⟨s.manager.closeConnection, false⟩) ∨
    (∃ db, a = .createUsersTableIfNotExist db ∧ (db createTableSql).status = .commandOk ∧
      s' = ⟨s.manager.exec db createTableSql, false⟩) ∨
    (Disciplined s.manager a ∧ s.manager.isConnected = true ∧
      ∃ db text, s' = ⟨(s.manager.exec db text).clear, false⟩) ∨
    (¬ Disciplined s.manager a ∧ s' = ⟨atFault s.manager a, true⟩) := by
  rw [step] at hstep
  split_ifs at hstep
  cases a with
  | tryConnect accepted username password hostaddr port =>
      cases hstep
      exact .inl ⟨_, _, _, _, _, rfl, rfl⟩
  | closeConnection =>
      cases hstep
      exact .inr (.inl ⟨rfl, rfl⟩)
  | createUsersTableIfNotExist db =>
      simp only [call, createUsersTableIfNotExist_eq hm] at hstep
      split_ifs at hstep with hconnected hstatus
      · cases hstep
        exact .inr (.inr (.inr (.inl ⟨hstatus, hconnected, db, _, rfl⟩)))
      · cases hstep
        exact .inr (.inr (.inl ⟨db, rfl, not_not.mp hstatus, rfl⟩))
  | registerNewUser db name password email =>
      simp only [call] at hstep
      split_ifs at hstep with hconnected
      rcases answered_cases (Option.some.inj hstep) with
        ⟨ret, m', hregister, rfl⟩ | ⟨hfaults, rfl⟩
      · have hvalue := (exists_registerNewUser_iff hm).mp ⟨ret, m', hregister⟩
        rw [registerNewUser_ok hregister]
        exact .inr (.inr (.inr (.inl ⟨hvalue, hconnected, db, _, rfl⟩)))
      · refine .inr (.inr (.inr (.inr ⟨?_, rfl⟩)))
        intro hvalue
        rcases (exists_registerNewUser_iff hm).mpr hvalue with ⟨ret, m', hregister⟩
        exact hfaults ret m' hregister
  | findUserByCreds db creds =>
      simp only [call] at hstep
      split_ifs at hstep with hconnected
      rcases answered_cases (Option.some.inj hstep) with
        ⟨ret, m', hfind, rfl⟩ | ⟨hfaults, rfl⟩
      · have hreads := (exists_findUserByCreds_iff hm).mp ⟨ret, m', hfind⟩
        rcases findUserByCreds_ok hfind with ⟨email, password, _, _, _, rfl⟩
        exact .inr (.inr (.inr (.inl ⟨hreads, hconnected, db, _, rfl⟩)))
      · refine .inr (.inr (.inr (.inr ⟨?_, rfl⟩)))
        intro hreads
        rcases (exists_findUserByCreds_iff hm).mpr hreads with ⟨ret, m', hfind⟩
        exact hfaults ret m' hfind

/-- In every run the numbers of the handles are those handed out so far. -/
theorem Recorded.run {h : List Returned} {s : Session}
    (hrun : operations.Run StepSystem.Any h s) : s.manager.Recorded := by
  refine hrun.invariant (I := fun _ s => s.manager.Recorded) recorded_init ?_
  intro h s a s' e _ hm _ hstep
  rcases step_cases hm.toHandlesValid hstep with
    ⟨accepted, username, password, hostaddr, port, _, rfl⟩ | ⟨_, rfl⟩ |
      ⟨db, _, _, rfl⟩ | ⟨_, _, db, text, rfl⟩ | ⟨_, rfl⟩
  · exact hm.tryConnect accepted username password hostaddr port
  · exact hm.closeConnection
  · exact hm.exec db createTableSql
  · exact (hm.exec db text).clear
  · show (atFault s.manager a).Recorded
    rcases atFault_cases s.manager a with hsame | ⟨db, text, hexec⟩
    · rwa [hsame]
    · rw [hexec]
      exact hm.exec db text

/-- An unfaulted session is in order exactly when its handles are. -/
theorem clean_unfaulted_iff {m : PsqlManager} : (⟨m, false⟩ : Session).Clean ↔ m.Clean :=
  ⟨fun hclean => hclean.toClean, fun hclean => ⟨hclean, rfl⟩⟩

/-- An operation keeps the handles in order exactly when it is disciplined. -/
theorem clean_step_iff {s s' : Session} {a : Operation} {e : Returned}
    (hrecorded : s.manager.Recorded) (hs : s.Clean) (hstep : step s a = some (s', e)) :
    Disciplined s.manager a ↔ s'.Clean := by
  have hm := hs.toClean
  rcases step_cases hrecorded.toHandlesValid hstep with
    ⟨accepted, username, password, hostaddr, port, rfl, rfl⟩ | ⟨rfl, rfl⟩ |
      ⟨db, rfl, hstatus, rfl⟩ | ⟨hdisciplined, hconnected, db, text, rfl⟩ |
      ⟨hundisciplined, rfl⟩
  · rw [clean_unfaulted_iff]
    exact (clean_tryConnect_iff hrecorded hm accepted username password hostaddr port).symm
  · rw [clean_unfaulted_iff]
    exact (clean_closeConnection_iff hrecorded hm).symm
  · rw [clean_unfaulted_iff]
    constructor
    · intro hdisciplined
      exact absurd hstatus hdisciplined
    · intro hclean
      exact absurd hclean (not_clean_exec hrecorded db createTableSql)
  · rw [clean_unfaulted_iff]
    constructor
    · intro _
      exact clean_answered hrecorded hm hconnected db text
    · intro _
      exact hdisciplined
  · constructor
    · intro hdisciplined
      exact absurd hdisciplined hundisciplined
    · intro hclean
      exact absurd hclean.unfaulted (by simp)

/-- The runs whose operations are all disciplined are the runs along which the
handles are always in order and no operation faults. -/
theorem run_disciplined_iff {h : List Returned} {s : Session} :
    operations.Run (fun _ s a => Disciplined s.manager a) h s ↔
      operations.Through StepSystem.Any (fun _ s => s.Clean) h s := by
  rw [← StepSystem.run_iff_through (C := fun _ s a => Disciplined s.manager a)
    (clean_unfaulted_iff.mpr clean_init) ?_]
  · constructor
    · exact StepSystem.Run.mono fun _ _ _ hdisciplined => ⟨trivial, hdisciplined⟩
    · exact StepSystem.Run.mono fun _ _ _ hguard => hguard.2
  · intro h s a s' e hrun hs _ hstep
    exact clean_step_iff (Recorded.run hrun) hs hstep

/-- A database that creates the table. -/
def creatingServer (_ : Bytes) : PGresult :=
  { status := .commandOk }

/-- A database that answers a statement with rows, of which there are none. -/
def rowlessServer (_ : Bytes) : PGresult :=
  { status := .tuplesOk }

/-- A connection closed by hand is finished again by the destructor, a second
connection hides the first one, the answer to a successful `CREATE TABLE` is never
cleared, and nor is one to a registration that has no row. -/
theorem clean_fails :
    (∃ h s, operations.Run StepSystem.Any h s ∧ s.manager.isConnected = true ∧
      s.manager.pgConnection = some 0 ∧ (connectionKind.closed s.manager.calls).count 0 = 1 ∧
      (connectionKind.closed s.manager.destroy.calls).count 0 = 2) ∧
    (∃ h s, operations.Run StepSystem.Any h s ∧ 0 ∈ connectionKind.opened s.manager.calls ∧
      (connectionKind.closed s.manager.destroy.calls).count 0 = 0) ∧
    (∃ h s, operations.Run StepSystem.Any h s ∧ 0 ∈ resultKind.opened s.manager.calls ∧
      (resultKind.closed s.manager.destroy.calls).count 0 = 0) ∧
    (∃ h s, operations.Run StepSystem.Any h s ∧ s.faulted = true ∧
      0 ∈ resultKind.opened s.manager.calls ∧
      (resultKind.closed s.manager.destroy.calls).count 0 = 0) := by
  have hclosed : operations.exec [.tryConnect true [] [] [] [], .closeConnection] =
      some (_, _) := rfl
  have hhidden : operations.exec [.tryConnect true [] [] [] [], .tryConnect true [] [] [] []] =
      some (_, _) := rfl
  have hcreated : operations.exec
      [.tryConnect true [] [] [] [], .createUsersTableIfNotExist creatingServer] =
      some (_, _) := rfl
  have hfaulted : operations.exec
      [.tryConnect true [] [] [] [], .registerNewUser rowlessServer [] [] []] =
      some (_, _) := rfl
  refine ⟨⟨_, _, .of_exec hclosed, ?_⟩, ⟨_, _, .of_exec hhidden, ?_⟩,
    ⟨_, _, .of_exec hcreated, ?_⟩, ⟨_, _, .of_exec hfaulted, ?_⟩⟩
  · decide +kernel
  · decide +kernel
  · decide +kernel
  · decide +kernel

end PsqlManager

end SimpleMessenger
