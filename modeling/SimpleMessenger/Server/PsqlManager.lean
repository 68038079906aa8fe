import SimpleMessenger.Common.Defines

/-!
# The database client of `PsqlManager.cpp`

The class keeps three members: a connection handle, a result handle and a flag.
What the database answers is a parameter of every operation that asks it, and
every call into the client library is recorded, so that statements about handles
and about the texts sent are statements about that record.  A result handle is
the number of the answer in the list of all answers.

Main results:

- Theorems {lit}`HandlesValid.exec` to {lit}`HandlesValid.findUserByCreds`: every
  operation keeps the result handles valid.
- Theorem {lit}`result_exec`: right after a query the result handle reads the
  answer to that query.
- Theorems {lit}`findUserByCreds_ok` and {lit}`findUserByCreds_eq_ok`: what a
  lookup that runs alone returns and leaves behind.
-/

namespace SimpleMessenger

open CMemory

/-! ## What the client library answers -/

/-- The result codes that the program tells apart. -/
inductive ExecStatus where
  | commandOk
  | tuplesOk
  | other
deriving DecidableEq

/-- `PGresult`: a result code and the texts of the fields, row by row. -/
structure PGresult where
  status : ExecStatus
  rows : List (List Bytes) := []
deriving DecidableEq

/-- `PQgetvalue`; the null pointer it returns out of range is read as a fault. -/
def PGresult.getvalue (a : PGresult) (row column : Nat) : Checked Bytes :=
  match a.rows[row]? with
  | none => .error (.read row a.rows.length)
  | some fields =>
      match fields[column]? with
      | none => .error (.read column fields.length)
      | some value => .ok value

/-- `static_cast<UserID>(std::atoi(value))` -/
def userIdOf (value : Bytes) : UserID :=
  UInt64.ofInt (atoi value)

/-- A recorded call into the client library. -/
inductive PqCall where
  | connectdb (conninfo : Bytes) (conn : Nat)
  | finish (conn : Option Nat)
  | exec (conn : Option Nat) (text : Bytes) (res : Nat)
  | clear (res : Option Nat)
deriving DecidableEq

/-! ## The class -/

/-- The members of `PsqlManager`, the connections and answers that the library
has handed out, and the record of the calls made so far. -/
structure PsqlManager where
  pgConnection : Option Nat := none
  pgResult : Option Nat := none
  isConnected : Bool := false
  connections : Nat := 0
  results : List PGresult := []
  calls : List PqCall := []

namespace PsqlManager

/-- `pg_result = PQexec(pg_connection, text)` -/
def exec (m : PsqlManager) (db : Bytes → PGresult) (text : Bytes) : PsqlManager :=
  { m with
    pgResult := some m.results.length
    results := m.results ++ [db text]
    calls := m.calls ++ [.exec m.pgConnection text m.results.length] }

/-- The answer behind `pg_result`, which must be set and not yet cleared. -/
def result (m : PsqlManager) : Checked PGresult :=
  match m.pgResult with
  | none => .error .dangling
  | some r =>
      if PqCall.clear (some r) ∈ m.calls then .error .dangling
      else
        match m.results[r]? with
        | none => .error .dangling
        | some a => .ok a

/-- `PQclear(pg_result)` -/
def clear (m : PsqlManager) : PsqlManager :=
  { m with calls := m.calls ++ [.clear m.pgResult] }

/-- `closeConnection`; the flag keeps its value. -/
def closeConnection (m : PsqlManager) : PsqlManager :=
  { m with calls := m.calls ++ [.finish m.pgConnection] }

/-- The destructor. -/
def destroy (m : PsqlManager) : PsqlManager :=
  if m.isConnected then m.closeConnection else m

/-- `tryConnect`, where `accepted` is the outcome that `PQstatus` reports. -/
def tryConnect (m : PsqlManager) (accepted : Bool)
    (username password hostaddr port : Bytes) : Bool × PsqlManager :=
  let connstr :=
    ascii "dbname=" ++ ascii "postgres" ++ ascii " user=" ++ username ++
      ascii " password=" ++ password ++ ascii " hostaddr=" ++ hostaddr ++
      ascii " port=" ++ port
  let m :=
    { m with
      pgConnection := some m.connections
      connections := m.connections + 1
      calls := m.calls ++ [PqCall.connectdb connstr m.connections] }
  if accepted then (true, { m with isConnected := true })
  else
    (false,
      { m with
        isConnected := false
        calls := m.calls ++ [PqCall.finish m.pgConnection] })

def createTableSql : Bytes :=
  ascii "CREATE TABLE IF NOT EXISTS users (" ++
    ascii "id SERIAL PRIMARY KEY, " ++
    ascii "name VARCHAR(100) NOT NULL, " ++
    ascii "password VARCHAR(50) NOT NULL, " ++
    ascii "email VARCHAR(255) NOT NULL UNIQUE)"

/-- `createUsersTableIfNotExist`; the answer is cleared on failure only. -/
def createUsersTableIfNotExist (m : PsqlManager) (db : Bytes → PGresult) :
    Checked (Bool × PsqlManager) := do
  let m := m.exec db createTableSql
  let answer ← m.result
  if answer.status ≠ .commandOk then return (false, m.clear)
  else return (true, m)

/-- The statement that `registerNewUser` sends. -/
def insertReq (name password email : Bytes) : Bytes :=
  ascii "INSERT INTO users (name, password, email) VALUES ('" ++ name ++ ascii "', '" ++
    password ++ ascii "', '" ++ email ++ ascii "') RETURNING id"

def registerNewUser (m : PsqlManager) (db : Bytes → PGresult)
    (name password email : Bytes) : Checked (Option UserID × PsqlManager) := do
  let m := m.exec db (insertReq name password email)
  let answer ← m.result
  if answer.status ≠ .tuplesOk then return (none, m.clear)
  else
    let value ← answer.getvalue 0 0
    return (some (userIdOf value), m.clear)

/-- The statement that `findUserByCreds` sends. -/
def selectReq (email password : Bytes) : Bytes :=
  ascii "SELECT id FROM users WHERE email='" ++ email ++ ascii "'" ++
    ascii " AND password='" ++ password ++ ascii "'"

/-- What `findUserByCreds` makes of an answer: its status, its number of rows and
its first value, in this order. -/
def readAnswer (a : PGresult) : Checked (Option UserID) :=
  if a.status ≠ .tuplesOk then .ok none
  else if a.rows.length < 1 then .ok none
  else (fun value => some (userIdOf value)) <$> a.getvalue 0 0

def findUserByCreds (m : PsqlManager) (db : Bytes → PGresult) (creds : UserCredentials) :
    Checked (Option UserID × PsqlManager) := do
  let email ← creds.email.cstring
  let password ← creds.password.cstring
  let m := m.exec db (selectReq email password)
  let answer ← m.result
  let userId ← readAnswer answer
  return (userId, m.clear)

/-! ## Result handles -/

/-- The current handle and all cleared ones have been handed out. -/
structure HandlesValid (m : PsqlManager) : Prop where
  current : ∀ r, m.pgResult = some r → r < m.results.length
  cleared : ∀ r, PqCall.clear (some r) ∈ m.calls → r < m.results.length

theorem handlesValid_default : HandlesValid {} := by
  constructor
  · intro r hr
    simp at hr
  · intro r hr
    simp at hr

theorem HandlesValid.exec {m : PsqlManager} (hm : m.HandlesValid) (db : Bytes → PGresult)
    (text : Bytes) : (m.exec db text).HandlesValid := by
  constructor
  · intro r hr
    simp only [PsqlManager.exec, Option.some.injEq] at hr
    simp [PsqlManager.exec, ← hr]
  · intro r hr
    have hold : PqCall.clear (some r) ∈ m.calls := by simpa [PsqlManager.exec] using hr
    have hlt := hm.cleared r hold
    simp only [PsqlManager.exec, List.length_append, List.length_singleton]
    omega

theorem HandlesValid.clear {m : PsqlManager} (hm : m.HandlesValid) :
    m.clear.HandlesValid := by
  constructor
  · exact hm.current
  · intro r hr
    rcases List.mem_append.mp hr with hold | hnew
    · exact hm.cleared r hold
    · have hcurrent : m.pgResult = some r := by simpa [eq_comm] using hnew
      exact hm.current r hcurrent

theorem HandlesValid.tryConnect {m : PsqlManager} (hm : m.HandlesValid) (accepted : Bool)
    (username password hostaddr port : Bytes) :
    (m.tryConnect accepted username password hostaddr port).2.HandlesValid := by
  cases accepted with
  | true =>
      constructor
      · exact hm.current
      · intro r hr
        exact hm.cleared r (by simpa [PsqlManager.tryConnect] using hr)
  | false =>
      constructor
      · exact hm.current
      · intro r hr
        exact hm.cleared r (by simpa [PsqlManager.tryConnect] using hr)

theorem HandlesValid.createUsersTableIfNotExist {m m' : PsqlManager} (hm : m.HandlesValid)
    {db : Bytes → PGresult} {created : Bool}
    (hcreate : m.createUsersTableIfNotExist db = .ok (created, m')) : m'.HandlesValid := by
  simp only [PsqlManager.createUsersTableIfNotExist, bind_eq_ok_iff] at hcreate
  rcases hcreate with ⟨a, _, hret⟩
  by_cases hstatus : a.status ≠ .commandOk
  · rw [if_pos hstatus] at hret
    cases hret
    exact (hm.exec db _).clear
  · rw [if_neg hstatus] at hret
    cases hret
    exact hm.exec db _

theorem HandlesValid.registerNewUser {m m' : PsqlManager} (hm : m.HandlesValid)
    {db : Bytes → PGresult} {name password email : Bytes} {ret : Option UserID}
    (hregister : m.registerNewUser db name password email = .ok (ret, m')) :
    m'.HandlesValid := by
  simp only [PsqlManager.registerNewUser, bind_eq_ok_iff] at hregister
  rcases hregister with ⟨a, _, hret⟩
  by_cases hstatus : a.status ≠ .tuplesOk
  · rw [if_pos hstatus] at hret
    cases hret
    exact (hm.exec db _).clear
  · rw [if_neg hstatus, bind_eq_ok_iff] at hret
    rcases hret with ⟨value, _, hpair⟩
    cases hpair
    exact (hm.exec db _).clear

/-- Right after a query the result handle reads the answer to that query. -/
theorem result_exec {m : PsqlManager} (hm : m.HandlesValid) (db : Bytes → PGresult)
    (text : Bytes) : (m.exec db text).result = .ok (db text) := by
  have hfresh : PqCall.clear (some m.results.length) ∉ m.calls := by
    intro hmem
    exact Nat.lt_irrefl _ (hm.cleared _ hmem)
  simp [exec, result, hfresh]

/-- Whatever the handles, a query's answer is the only thing read after it. -/
theorem eq_of_result_exec {m : PsqlManager} {db : Bytes → PGresult} {text : Bytes}
    {a : PGresult} (hread : (m.exec db text).result = .ok a) : a = db text := by
  by_cases hcleared : PqCall.clear (some m.results.length) ∈ m.calls
  · simp [exec, result, hcleared] at hread
  · simpa [exec, result, hcleared, eq_comm] using hread

/-- What a lookup returns is read from the answer to its own query. -/
theorem findUserByCreds_ok {m m' : PsqlManager} {db : Bytes → PGresult}
    {creds : UserCredentials} {ret : Option UserID}
    (hfind : m.findUserByCreds db creds = .ok (ret, m')) :
    ∃ email password, creds.email.cstring = .ok email ∧
      creds.password.cstring = .ok password ∧
      readAnswer (db (selectReq email password)) = .ok ret ∧
      (m.exec db (selectReq email password)).clear = m' := by
  simp only [findUserByCreds, bind_eq_ok_iff] at hfind
  rcases hfind with ⟨email, hemail, password, hpassword, a, ha, ret', hret, hpair⟩
  have hown := eq_of_result_exec ha
  subst a
  cases hpair
  exact ⟨email, password, hemail, hpassword, hret, rfl⟩

theorem HandlesValid.findUserByCreds {m m' : PsqlManager} (hm : m.HandlesValid)
    {db : Bytes → PGresult} {creds : UserCredentials} {ret : Option UserID}
    (hfind : m.findUserByCreds db creds = .ok (ret, m')) : m'.HandlesValid := by
  rcases findUserByCreds_ok hfind with ⟨email, password, _, _, _, rfl⟩
  exact (hm.exec db _).clear

/-- A lookup that runs alone returns what its own query is answered. -/
theorem findUserByCreds_eq_ok {m : PsqlManager} (hm : m.HandlesValid)
    {db : Bytes → PGresult} {creds : UserCredentials} {email password : Bytes}
    {ret : Option UserID} (hemail : creds.email.cstring = .ok email)
    (hpassword : creds.password.cstring = .ok password)
    (hret : readAnswer (db (selectReq email password)) = .ok ret) :
    m.findUserByCreds db creds = .ok (ret, (m.exec db (selectReq email password)).clear) := by
  simp only [findUserByCreds, bind_eq_ok_iff, result_exec hm]
  exact ⟨email, hemail, password, hpassword, _, rfl, ret, hret, rfl⟩

end PsqlManager

end SimpleMessenger
