import Mathlib.Data.List.Nodup
import SimpleMessenger.Foundations.StepSystem
import SimpleMessenger.Foundations.TextInput
import SimpleMessenger.Server.Authentification
import SimpleMessenger.Server.QueryIntegrity

/-!
# The accounts behind `PsqlManager.cpp`

The constructor of {lit}`ServerManager` connects to the database, creates the table
{lit}`users` if it is missing and registers its predefined users; both login paths look
users up in the table.  The table outlives the server, which is started any number of
times.  The database is a parameter, of which the model assumes what is documented of the
three statements sent to it, for texts that are stored as they are.

Main results:

- Theorem {lit}`accounts_remembered`: over any number of starts, a lookup finds exactly
  what was registered, and no two accounts share an email or an id.

Current gaps:

- No two lookups overlap, so that each is one step, and the connection is not lost between
  two starts.
-/

universe u

namespace SimpleMessenger

open CMemory SqlText StepSystem

namespace Accounts

open PsqlManager

/-! ## The database -/

/-- A database server: what it answers to a text and what becomes of it, the rows of the
table `users`, none while that is missing, and whether the table is there and takes a row
with this name, password and email, other emails apart.  Bytes that are no text in the
encoding of the database are not taken. -/
structure Database (δ : Type u) where
  answer : δ → Bytes → PGresult × δ
  users : δ → List UserRow
  admits : δ → Bytes → Bytes → Bytes → Bool

variable {δ : Type u}

/-- The rows with some credentials. -/
def matching (rows : List UserRow) (email password : Bytes) : List UserRow :=
  rows.filter fun row => row.email = email ∧ row.password = password

/-- The texts are within `VARCHAR(100)`, `VARCHAR(50)` and `VARCHAR(255)`, a character being
one byte at least.  A longer text that ends in blanks would be stored without some of
them. -/
structure FitsColumns (name password email : Bytes) : Prop where
  name_le : name.length ≤ 100
  password_le : password.length ≤ 50
  email_le : email.length ≤ 255

/-- What is documented of the statements, which end at their first zero byte, as long as the
connection is there. -/
structure Database.Lawful (D : Database δ) : Prop where
  created : ∀ d, D.users (D.answer d createTableSql).2 = D.users d
  /-- A row gets a new number of type `SERIAL`. -/
  inserted : ∀ d text name password email, (0 : UInt8) ∉ text →
    tokens text = some (insertTokens name password email) → FitsColumns name password email →
    D.admits d name password email = true → email ∉ (D.users d).map (·.email) →
      ∃ id, id ∉ (D.users d).map (·.id) ∧ id < 2 ^ 31 ∧
        (D.answer d text).1 = { status := .tuplesOk, rows := [[ascii (toString id)]] } ∧
        D.users (D.answer d text).2 = D.users d ++ [⟨id, name, password, email⟩]
  /-- `UNIQUE`, or something else that the table does not take. -/
  refused : ∀ d text name password email, (0 : UInt8) ∉ text →
    tokens text = some (insertTokens name password email) → FitsColumns name password email →
    (D.admits d name password email = false ∨ email ∈ (D.users d).map (·.email)) →
      (D.answer d text).1.status ≠ .tuplesOk ∧ D.users (D.answer d text).2 = D.users d
  /-- An error, as for bytes that are no text in the encoding, comes only where no row
  matches. -/
  selected : ∀ d text email password, (0 : UInt8) ∉ text →
    tokens text = some (selectTokens email password) →
      D.users (D.answer d text).2 = D.users d ∧
        ((D.answer d text).1.status ≠ .tuplesOk → matching (D.users d) email password = []) ∧
        ((D.answer d text).1.status = .tuplesOk →
          (D.answer d text).1.rows.Perm
            ((matching (D.users d) email password).map fun row => [ascii (toString row.id)]))

/-- `UNIQUE`, `PRIMARY KEY` and `SERIAL`. -/
structure Sound (rows : List UserRow) : Prop where
  emails : (rows.map (·.email)).Nodup
  ids : (rows.map (·.id)).Nodup
  bounded : ∀ row ∈ rows, row.id < 2 ^ 31

/-- The statements that calls into the client library send. -/
def texts (calls : List PqCall) : List Bytes :=
  calls.filterMap fun
    | .exec _ text _ => some text
    | _ => none

/-- The database behind some statements. -/
def Database.after (D : Database δ) (d : δ) (sent : List Bytes) : δ :=
  sent.foldl (fun d text => (D.answer d text).2) d

/-! ## The server -/

structure State (δ : Type u) where
  manager : PsqlManager := {}
  database : δ

inductive Action where
  /-- `PsqlManager::init` and `tryConnect`, with its outcome. -/
  | construct (accepted : Bool)
  | createTable
  | register (name password email : Bytes)
  /-- `acceptConnection` over gRPC. -/
  | login (userCreds : ProtobufItf.UserCredentials)
  /-- `handleAuthReq` of an envelope received over TCP. -/
  | authenticate (authReqEnv : Envelope)

/-- The constructor does it with a connection only. -/
def Action.needsConnection : Action → Bool
  | .createTable => true
  | .register _ _ _ => true
  | _ => false

inductive Event where
  | constructed (accepted : Bool)
  | created (ok : Bool)
  /-- Whether the table took such a row, and the id returned. -/
  | registered (email password : Bytes) (admitted : Bool) (ret : Option UserID)
  /-- A login with these credentials got this answer. -/
  | lookedUp (email password : Bytes) (ret : Option UserID)
  /-- A message of the wrong type. -/
  | refused
deriving DecidableEq

/-- Run an operation of the manager, and let the database see the statements it sends. -/
def State.ask {α : Type} (D : Database δ) (s : State δ)
    (operation : PsqlManager → (Bytes → PGresult) → Checked (α × PsqlManager)) :
    Option (α × State δ) :=
  match operation s.manager fun text => (D.answer s.database text).1 with
  | .error _ => none
  | .ok (ret, manager) =>
      some (ret, { manager := manager,
                   database := D.after s.database
                     (texts (manager.calls.drop s.manager.calls.length)) })

/-- One step; a start makes a new manager and leaves the database as it is, and the
constructor goes on only with a connection. -/
def step (D : Database δ) (s : State δ) : Action → Option (State δ × Event)
  | .construct accepted =>
      some ({ s with manager := (tryConnect {} accepted (ascii "postgres") (ascii "admin")
                (ascii "11.0.0.3") (ascii "5432")).2 },
        .constructed accepted)
  | .createTable =>
      if s.manager.isConnected then
        (s.ask D createUsersTableIfNotExist).map fun (ok, s') => (s', .created ok)
      else none
  | .register name password email =>
      if s.manager.isConnected then
        (s.ask D fun m db => m.registerNewUser db name password email).map fun (ret, s') =>
          (s', .registered email password (D.admits s.database name password email) ret)
      else none
  | .login userCreds =>
      (s.ask D fun m db => AuthentificationService.acceptConnection m db userCreds).map
        fun (ret, s') => (s', .lookedUp userCreds.email userCreds.password ret)
  | .authenticate authReqEnv =>
      (s.ask D fun m db => AuthentificationService.handleAuthReq m db authReqEnv).map
        fun (ret, s') =>
          if getMessageType authReqEnv = .ServiceMessage then
            (s', .lookedUp (cstr (AuthentificationService.getPayload authReqEnv).email.bytes)
              (cstr (AuthentificationService.getPayload authReqEnv).password.bytes) ret)
          else (s', .refused)

/-- A server on a database. -/
def server (D : Database δ) (d : δ) : StepSystem (State δ) Action Event where
  init := { database := d }
  step := step D

/-- The constructor of `ServerManager`, up to the thread pool. -/
def construct (accepted : Bool) : List Action :=
  .construct accepted :: if accepted then
    [.createTable,
      .register (ascii "user1") (ascii "user1_pass") (ascii "user1@mail.com"),
      .register (ascii "user2") (ascii "user2_pass") (ascii "user2@mail.com")]
  else []

/-- The texts of a registration are strings without a quote that fit the columns, and those
of a login are without a quote and end inside their arrays. -/
def Fits : Guard (State δ) Action Event := fun _ _ a =>
  match a with
  | .register name password email =>
      FitsColumns name password email ∧
        (quote ∉ name ∧ quote ∉ password ∧ quote ∉ email) ∧
        (0 : UInt8) ∉ name ∧ (0 : UInt8) ∉ password ∧ (0 : UInt8) ∉ email
  | .login userCreds =>
      AuthentificationService.FitsArrays userCreds ∧ quote ∉ userCreds.email ∧
        quote ∉ userCreds.password
  | .authenticate authReqEnv =>
      getMessageType authReqEnv = .ServiceMessage →
        let creds := AuthentificationService.getPayload authReqEnv
        ((0 : UInt8) ∈ creds.email.bytes ∧ (0 : UInt8) ∈ creds.password.bytes) ∧
          quote ∉ cstr creds.email.bytes ∧ quote ∉ cstr creds.password.bytes
  | _ => True

/-! ## One operation -/

section Operations

variable {D : Database δ} {s s' : State δ}

theorem texts_exec (m : PsqlManager) (db : Bytes → PGresult) (text : Bytes) :
    texts ((m.exec db text).calls.drop m.calls.length) = [text] := by
  simp [PsqlManager.exec, texts]

theorem texts_exec_clear (m : PsqlManager) (db : Bytes → PGresult) (text : Bytes) :
    texts ((m.exec db text).clear.calls.drop m.calls.length) = [text] := by
  simp [PsqlManager.exec, PsqlManager.clear, texts]

/-- What a row gives to those who look it up. -/
structure Account where
  email : Bytes
  password : Bytes
  userId : UserID
deriving DecidableEq

def account (row : UserRow) : Account where
  email := row.email
  password := row.password
  userId := UInt64.ofNat row.id

/-- The text of a row's number is read back as the user id. -/
theorem userIdOf_toString {n : Nat} (hn : n < 2 ^ 31) :
    userIdOf (ascii (toString n)) = UInt64.ofNat n := by
  have hmod : (n : Int) % 2 ^ 64 = n := by omega
  rw [TextInput.ascii_toString, userIdOf, TextInput.atoi_decimal, UInt64.ofInt, hmod,
    Int.toNat_natCast]

theorem mem_matching {rows : List UserRow} {email password : Bytes} {row : UserRow} :
    row ∈ matching rows email password ↔
      row ∈ rows ∧ row.email = email ∧ row.password = password := by
  simp [matching]

/-- There is at most one row with some credentials. -/
theorem Sound.matching_cases {rows : List UserRow} (hsound : Sound rows)
    (email password : Bytes) :
    matching rows email password = [] ∨ ∃ row, matching rows email password = [row] := by
  cases hrows : matching rows email password with
  | nil => exact .inl rfl
  | cons row rest =>
      have hnodup : (row :: rest).Nodup := by
        rw [← hrows]
        exact (List.Nodup.of_map _ hsound.emails).filter _
      have hmem : ∀ other ∈ row :: rest, other ∈ rows ∧ other.email = email := by
        intro other hother
        have hmatch := mem_matching.mp (hrows ▸ hother)
        exact ⟨hmatch.1, hmatch.2.1⟩
      cases rest with
      | nil => exact .inr ⟨row, rfl⟩
      | cons other rest =>
          have hfirst := hmem row (by simp)
          have hsecond := hmem other (by simp)
          have hsame := List.inj_on_of_nodup_map hsound.emails hfirst.1 hsecond.1
            (hfirst.2.trans hsecond.2.symm)
          simp [hsame] at hnodup

/-- The accounts with some credentials are those of the matching rows. -/
theorem mem_account_iff {rows : List UserRow} {email password : Bytes} {id : UserID} :
    ⟨email, password, id⟩ ∈ rows.map account ↔
      ∃ row ∈ matching rows email password, UInt64.ofNat row.id = id := by
  simp only [List.mem_map, mem_matching, account, Account.mk.injEq]
  constructor
  · rintro ⟨row, hrow, hemail, hpassword, hid⟩
    exact ⟨row, ⟨hrow, hemail, hpassword⟩, hid⟩
  · rintro ⟨row, ⟨hrow, hemail, hpassword⟩, hid⟩
    exact ⟨row, hrow, hemail, hpassword, hid⟩

/-- The only value of an answer is the number of its row. -/
theorem getvalue_of_rows {answer : PGresult} {n : Nat} (hn : n < 2 ^ 31)
    (hrows : answer.rows = [[ascii (toString n)]]) :
    ∃ value, answer.getvalue 0 0 = .ok value ∧ userIdOf value = UInt64.ofNat n :=
  ⟨ascii (toString n), by simp [PGresult.getvalue, hrows], userIdOf_toString hn⟩

/-- What `findUserByCreds` makes of the answer to its statement. -/
theorem exists_readAnswer (hD : D.Lawful) {d : δ} (hsound : Sound (D.users d))
    {email password : Bytes} (hemail : quote ∉ email) (hpassword : quote ∉ password)
    (hzero : (0 : UInt8) ∉ selectReq email password) :
    ∃ ret, readAnswer (D.answer d (selectReq email password)).1 = .ok ret ∧
      ∀ id, ret = some id ↔ ⟨email, password, id⟩ ∈ (D.users d).map account := by
  have htokens := (tokens_selectReq_iff email password).mpr ⟨hemail, hpassword⟩
  rcases hD.selected d _ email password hzero htokens with ⟨_, hmissing, hrows⟩
  generalize (D.answer d (selectReq email password)).1 = answer at hmissing hrows
  by_cases hstatus : answer.status = .tuplesOk
  · have hperm := hrows hstatus
    rcases hsound.matching_cases email password with hnone | ⟨row, hone⟩
    · rw [hnone, List.map_nil, List.perm_nil] at hperm
      refine ⟨none, by simp [readAnswer, hstatus, hperm], fun id => ?_⟩
      simp [mem_account_iff, hnone]
    · rw [hone, List.map_singleton, List.perm_singleton] at hperm
      have hrow : row ∈ matching (D.users d) email password := by simp [hone]
      refine ⟨some (UInt64.ofNat row.id), ?_, fun id => ?_⟩
      · rcases getvalue_of_rows (hsound.bounded row (mem_matching.mp hrow).1) hperm with
          ⟨value, hvalue, hid⟩
        simp [readAnswer, hstatus, hperm, hvalue, hid]
      · simp [mem_account_iff, hone]
  · refine ⟨none, by simp [readAnswer, hstatus], fun id => ?_⟩
    simp [mem_account_iff, hmissing hstatus]

/-- An operation that ends without a fault. -/
theorem State.ask_eq_some {α : Type}
    {operation : PsqlManager → (Bytes → PGresult) → Checked (α × PsqlManager)} {ret : α}
    {manager : PsqlManager} {sent : List Bytes}
    (hoperation : operation s.manager (fun text => (D.answer s.database text).1) =
      .ok (ret, manager))
    (hsent : texts (manager.calls.drop s.manager.calls.length) = sent) :
    s.ask D operation = some (ret, ⟨manager, D.after s.database sent⟩) := by
  simp [State.ask, hoperation, hsent]

/-- `createUsersTableIfNotExist` sends one statement, whatever the answer. -/
theorem exists_createUsersTableIfNotExist {m : PsqlManager} (hm : m.HandlesValid)
    (db : Bytes → PGresult) :
    ∃ ok m', m.createUsersTableIfNotExist db = .ok (ok, m') ∧
      texts (m'.calls.drop m.calls.length) = [createTableSql] ∧
      m'.isConnected = m.isConnected := by
  have hresult := result_exec hm db createTableSql
  by_cases hstatus : (db createTableSql).status ≠ .commandOk
  · refine ⟨false, _, bind_eq_ok_iff.mpr ⟨_, hresult, ?_⟩, texts_exec_clear m db _, rfl⟩
    rw [if_pos hstatus]
    rfl
  · refine ⟨true, _, bind_eq_ok_iff.mpr ⟨_, hresult, ?_⟩, texts_exec m db _, rfl⟩
    rw [if_neg hstatus]
    rfl

/-- `registerNewUser` returns the number of the new row, or nothing. -/
theorem registerNewUser_eq_ok {m : PsqlManager} (hm : m.HandlesValid) (db : Bytes → PGresult)
    (name password email : Bytes) {ret : Option UserID}
    (hret : (ret = none ∧ (db (insertReq name password email)).status ≠ .tuplesOk) ∨
      ∃ id, id < 2 ^ 31 ∧ ret = some (UInt64.ofNat id) ∧ db (insertReq name password email) =
        { status := .tuplesOk, rows := [[ascii (toString id)]] }) :
    m.registerNewUser db name password email =
      .ok (ret, (m.exec db (insertReq name password email)).clear) := by
  refine bind_eq_ok_iff.mpr ⟨_, result_exec hm db _, ?_⟩
  rcases hret with ⟨rfl, hstatus⟩ | ⟨id, hlt, rfl, hanswer⟩
  · rw [if_pos hstatus]
    rfl
  · have hrows : (db (insertReq name password email)).rows = [[ascii (toString id)]] := by
      rw [hanswer]
    rcases getvalue_of_rows hlt hrows with ⟨value, hvalue, hid⟩
    rw [if_neg (by simp [hanswer])]
    refine bind_eq_ok_iff.mpr ⟨value, hvalue, ?_⟩
    rw [hid]
    rfl

/-! ## The book of accounts -/

/-- What one step does to the rows of the table and to the connection. -/
inductive Entry (rows : List UserRow) (connected : Bool) :
    Event → List UserRow → Bool → Prop where
  | constructed (accepted : Bool) : Entry rows connected (.constructed accepted) rows accepted
  | created (ok : Bool) : Entry rows connected (.created ok) rows connected
  | registered {id : Nat} {name password email : Bytes}
      (hfresh : email ∉ rows.map (·.email)) (hid : id ∉ rows.map (·.id)) (hlt : id < 2 ^ 31) :
      Entry rows connected (.registered email password true (some (UInt64.ofNat id)))
        (rows ++ [⟨id, name, password, email⟩]) connected
  | notRegistered {password email : Bytes} {admitted : Bool}
      (hrefused : admitted = false ∨ email ∈ rows.map (·.email)) :
      Entry rows connected (.registered email password admitted none) rows connected
  | lookedUp {email password : Bytes} {ret : Option UserID}
      (hret : ∀ id, ret = some id ↔
        connected = true ∧ ⟨email, password, id⟩ ∈ rows.map account) :
      Entry rows connected (.lookedUp email password ret) rows connected
  | refused : Entry rows connected .refused rows connected

/-- What holds of a server between two steps. -/
structure Ready (D : Database δ) (s : State δ) : Prop where
  handles : s.manager.HandlesValid
  sound : Sound (D.users s.database)

/-- A step is an entry, and leaves the handles valid. -/
def Enters (D : Database δ) (s : State δ) (a : Action) : Prop :=
  ∃ s' e, step D s a = some (s', e) ∧ s'.manager.HandlesValid ∧
    Entry (D.users s.database) s.manager.isConnected e (D.users s'.database) s'.manager.isConnected

theorem enters_createTable (hD : D.Lawful) (hready : Ready D s)
    (hconnected : s.manager.isConnected = true) : Enters D s .createTable := by
  rcases exists_createUsersTableIfNotExist hready.handles
    (fun text => (D.answer s.database text).1) with ⟨ok, m', hok, hsent, hkept⟩
  refine ⟨⟨m', D.after s.database [createTableSql]⟩, .created ok, ?_,
    hready.handles.createUsersTableIfNotExist hok, ?_⟩
  · rw [step, if_pos hconnected, State.ask_eq_some hok hsent]
    rfl
  · rw [hkept, Database.after, List.foldl_cons, List.foldl_nil, hD.created]
    exact .created ok

theorem enters_register (hD : D.Lawful) (hready : Ready D s)
    (hconnected : s.manager.isConnected = true) {name password email : Bytes} {h : List Event}
    (hfits : Fits h s (.register name password email)) :
    Enters D s (.register name password email) := by
  rcases hfits with ⟨hcolumns, hquotes, hname, hpassword, hemail⟩
  have htokens := (tokens_insertReq_iff name password email).mpr hquotes
  have hzero := zero_notMem_insertReq hname hpassword hemail
  let text := insertReq name password email
  let db := fun text => (D.answer s.database text).1
  have hsent := texts_exec_clear s.manager db text
  have hstep : ∀ ret, s.manager.registerNewUser db name password email =
      .ok (ret, (s.manager.exec db text).clear) →
        step D s (.register name password email) =
          some (⟨(s.manager.exec db text).clear, (D.answer s.database text).2⟩,
            .registered email password (D.admits s.database name password email) ret) := by
    intro ret hok
    rw [step, if_pos hconnected, State.ask_eq_some hok hsent]
    rfl
  by_cases hinsert : D.admits s.database name password email = true ∧
      email ∉ (D.users s.database).map (·.email)
  · rcases hD.inserted _ _ name password email hzero htokens hcolumns hinsert.1 hinsert.2 with
      ⟨id, hid, hlt, hanswer, hrows⟩
    have hok := registerNewUser_eq_ok hready.handles db name password email
      (.inr ⟨id, hlt, rfl, hanswer⟩)
    refine ⟨_, _, hstep _ hok, (hready.handles.exec db text).clear, ?_⟩
    rw [hinsert.1, hrows]
    exact .registered hinsert.2 hid hlt
  · have hrefused : D.admits s.database name password email = false ∨
        email ∈ (D.users s.database).map (·.email) := by
      by_cases hadmits : D.admits s.database name password email = true
      · exact .inr (by_contra fun hnot => hinsert ⟨hadmits, hnot⟩)
      · exact .inl (Bool.eq_false_iff.mpr hadmits)
    rcases hD.refused _ _ name password email hzero htokens hcolumns hrefused with
      ⟨hstatus, hrows⟩
    have hok := registerNewUser_eq_ok hready.handles db name password email
      (.inl ⟨rfl, hstatus⟩)
    refine ⟨_, _, hstep _ hok, (hready.handles.exec db text).clear, ?_⟩
    rw [hrows]
    exact .notRegistered hrefused

/-- A C string has no zero byte. -/
theorem zero_notMem_of_cstring {n : Nat} {a : CharArray n} {text : Bytes}
    (htext : a.cstring = .ok text) : (0 : UInt8) ∉ text := by
  rw [(CharArray.cstring_eq_ok_iff.mp htext).2]
  exact zero_notMem_cstr a.bytes

/-- A lookup with the texts of some credentials. -/
theorem exists_checkIfRegistered (hD : D.Lawful) (hready : Ready D s) {creds : UserCredentials}
    {email password : Bytes} (hemail : creds.email.cstring = .ok email)
    (hpassword : creds.password.cstring = .ok password) (hemailFree : quote ∉ email)
    (hpasswordFree : quote ∉ password) :
    ∃ ret m' sent, AuthentificationService.checkIfRegistered s.manager
        (fun text => (D.answer s.database text).1) creds = .ok (ret, m') ∧
      texts (m'.calls.drop s.manager.calls.length) = sent ∧ m'.HandlesValid ∧
      Entry (D.users s.database) s.manager.isConnected (.lookedUp email password ret)
        (D.users (D.after s.database sent)) m'.isConnected := by
  cases hconnected : s.manager.isConnected with
  | false =>
      refine ⟨none, s.manager, [], ?_, by simp [texts], hready.handles, ?_⟩
      · simp [AuthentificationService.checkIfRegistered, hconnected]
      · rw [hconnected]
        exact .lookedUp (by simp)
  | true =>
      have hzero : (0 : UInt8) ∉ selectReq email password :=
        zero_notMem_selectReq (zero_notMem_of_cstring hemail) (zero_notMem_of_cstring hpassword)
      rcases exists_readAnswer hD hready.sound hemailFree hpasswordFree hzero with
        ⟨ret, hread, hret⟩
      have hfind : s.manager.findUserByCreds (fun text => (D.answer s.database text).1) creds =
          .ok (ret, _) := findUserByCreds_eq_ok hready.handles hemail hpassword hread
      have htokens := (tokens_selectReq_iff email password).mpr ⟨hemailFree, hpasswordFree⟩
      refine ⟨ret, _, _, ?_, texts_exec_clear _ _ _, hready.handles.findUserByCreds hfind, ?_⟩
      · simp [AuthentificationService.checkIfRegistered, hconnected, hfind]
      · rw [Database.after, List.foldl_cons, List.foldl_nil,
          (hD.selected _ _ email password hzero htokens).1, PsqlManager.clear, PsqlManager.exec,
          hconnected]
        exact .lookedUp (by simpa using hret)

/-- Every admitted operation goes without a fault and is an entry. -/
theorem enters (hD : D.Lawful) (hready : Ready D s) {h : List Event} {a : Action}
    (hfits : Fits h s a)
    (hconnected : a.needsConnection = true → s.manager.isConnected = true) :
    Enters D s a := by
  cases a with
  | construct accepted =>
      refine ⟨_, _, rfl, handlesValid_default.tryConnect _ _ _ _ _, ?_⟩
      cases accepted <;> exact .constructed _
  | createTable => exact enters_createTable hD hready (hconnected rfl)
  | register name password email =>
      exact enters_register hD hready (hconnected rfl) hfits
  | login userCreds =>
      rcases hfits with ⟨harrays, hemail, hpassword⟩
      rcases AuthentificationService.exists_receivedCreds_of_fits harrays with
        ⟨creds, hcreds, hemailText, hpasswordText⟩
      rcases exists_checkIfRegistered hD hready hemailText hpasswordText hemail hpassword with
        ⟨ret, m', sent, hcheck, hsent, hhandles, hentry⟩
      refine ⟨⟨m', D.after s.database sent⟩, _, ?_, hhandles, hentry⟩
      have hok : AuthentificationService.acceptConnection s.manager
          (fun text => (D.answer s.database text).1) userCreds = .ok (ret, m') :=
        bind_eq_ok_iff.mpr ⟨creds, hcreds, hcheck⟩
      rw [step, State.ask_eq_some hok hsent]
      rfl
  | authenticate authReqEnv =>
      by_cases htype : getMessageType authReqEnv = .ServiceMessage
      · rcases hfits htype with ⟨⟨hemailEnd, hpasswordEnd⟩, hemail, hpassword⟩
        have hemailText := CharArray.cstring_eq_ok_iff.mpr ⟨hemailEnd, rfl⟩
        have hpasswordText := CharArray.cstring_eq_ok_iff.mpr ⟨hpasswordEnd, rfl⟩
        rcases exists_checkIfRegistered hD hready hemailText hpasswordText hemail hpassword with
          ⟨ret, m', sent, hcheck, hsent, hhandles, hentry⟩
        refine ⟨⟨m', D.after s.database sent⟩, _, ?_, hhandles, hentry⟩
        have hok : AuthentificationService.handleAuthReq s.manager
            (fun text => (D.answer s.database text).1) authReqEnv = .ok (ret, m') := by
          rw [AuthentificationService.handleAuthReq, if_pos htype]
          exact bind_eq_ok_iff.mpr ⟨_, hemailText,
            bind_eq_ok_iff.mpr ⟨_, hpasswordText, hcheck⟩⟩
        rw [step, State.ask_eq_some hok hsent]
        simp [htype]
      · have hok : AuthentificationService.handleAuthReq s.manager
            (fun text => (D.answer s.database text).1) authReqEnv = .ok (none, s.manager) := by
          rw [AuthentificationService.handleAuthReq, if_neg htype]
        have hnone : texts (s.manager.calls.drop s.manager.calls.length) = [] := by simp [texts]
        refine ⟨s, .refused, ?_, hready.handles, .refused⟩
        rw [step, State.ask_eq_some hok hnone]
        simp [htype, Database.after]

end Operations

/-! ## The accounts of a history -/

def Event.account? : Event → Option Account
  | .registered email password _ (some userId) => some ⟨email, password, userId⟩
  | _ => none

/-- The accounts that were there and those registered since. -/
def accounts (initial : List Account) (h : List Event) : List Account :=
  initial ++ h.filterMap Event.account?

def Event.constructed? : Event → Option Bool
  | .constructed accepted => some accepted
  | _ => none

/-- Whether the last start got its connection. -/
def connected (h : List Event) : Bool :=
  (h.filterMap Event.constructed?).getLast?.getD false

/-- The table holds the accounts of the history, and the manager knows its connection. -/
structure Reads (D : Database δ) (initial : List Account) (h : List Event) (s : State δ) :
    Prop where
  ready : Ready D s
  accounts_eq : (D.users s.database).map account = accounts initial h
  connected_eq : s.manager.isConnected = connected h

/-- What a user of the server can rely on. -/
structure Remembered (initial : List Account) (h : List Event) : Prop where
  emails : ((accounts initial h).map (·.email)).Nodup
  ids : ((accounts initial h).map (·.userId)).Nodup
  /-- A lookup finds the account with its credentials, or none. -/
  lookedUp : ∀ h₁ h₂ email password ret, h = h₁ ++ .lookedUp email password ret :: h₂ →
    ∀ id, ret = some id ↔
      connected h₁ = true ∧ ⟨email, password, id⟩ ∈ accounts initial h₁
  /-- A registration is refused only by the table or for an email that has an account. -/
  registered : ∀ h₁ h₂ email password admitted ret,
    h = h₁ ++ .registered email password admitted ret :: h₂ →
      (ret.isSome ↔ admitted = true ∧ email ∉ (accounts initial h₁).map (·.email))
  /-- Once found, the credentials are found with the same id ever after. -/
  kept : ∀ h₁ h₂ h₃ email password id ret,
    h = h₁ ++ .lookedUp email password (some id) :: h₂ ++ .lookedUp email password ret :: h₃ →
      connected (h₁ ++ .lookedUp email password (some id) :: h₂) = true → ret = some id

section Runs

variable {D : Database δ} {d : δ} {initial : List Account} {rows rows' : List UserRow}
  {c c' : Bool} {h : List Event} {s s' : State δ} {a : Action} {e : Event}

theorem accounts_snoc (initial : List Account) (h : List Event) (e : Event) :
    accounts initial (h ++ [e]) = accounts initial h ++ e.account?.toList := by
  rw [accounts, accounts, List.filterMap_append, List.append_assoc]
  cases haccount : e.account? <;> simp [haccount]

theorem connected_snoc (h : List Event) (e : Event) :
    connected (h ++ [e]) = e.constructed?.getD (connected h) := by
  rw [connected, connected, List.filterMap_append]
  cases hconstructed : e.constructed? <;> simp [hconstructed]

/-- A new row has a new email and a new number. -/
theorem Entry.sound (hentry : Entry rows c e rows' c') (hsound : Sound rows) : Sound rows' := by
  cases hentry with
  | registered hfresh hid hlt =>
      constructor
      · rw [List.map_append, List.nodup_append]
        refine ⟨hsound.emails, List.nodup_singleton _, ?_⟩
        rintro x hx y hy rfl
        rw [List.mem_singleton.mp hy] at hx
        exact hfresh hx
      · rw [List.map_append, List.nodup_append]
        refine ⟨hsound.ids, List.nodup_singleton _, ?_⟩
        rintro x hx y hy rfl
        rw [List.mem_singleton.mp hy] at hx
        exact hid hx
      · intro row hrow
        rcases List.mem_append.mp hrow with hold | hnew
        · exact hsound.bounded row hold
        · rw [List.mem_singleton.mp hnew]
          exact hlt
  | _ => exact hsound

theorem Entry.accounts_eq (hentry : Entry rows c e rows' c') :
    rows'.map account = rows.map account ++ e.account?.toList := by
  cases hentry <;> simp [account, Event.account?]

theorem Entry.connected_eq (hentry : Entry rows c e rows' c') :
    c' = e.constructed?.getD c := by
  cases hentry <;> rfl

theorem Entry.lookedUp_iff {email password : Bytes} {ret : Option UserID}
    (hentry : Entry rows c (.lookedUp email password ret) rows' c') (id : UserID) :
    ret = some id ↔ c = true ∧ ⟨email, password, id⟩ ∈ rows.map account := by
  cases hentry with
  | lookedUp hret => exact hret id

theorem Entry.isSome_iff {email password : Bytes} {admitted : Bool} {ret : Option UserID}
    (hentry : Entry rows c (.registered email password admitted ret) rows' c') :
    ret.isSome ↔ admitted = true ∧ email ∉ rows.map (·.email) := by
  cases hentry with
  | registered hfresh hid hlt => exact iff_of_true rfl ⟨rfl, hfresh⟩
  | notRegistered hrefused =>
      refine iff_of_false (by simp) ?_
      rintro ⟨rfl, hfresh⟩
      rcases hrefused with hnot | htaken
      · cases hnot
      · exact hfresh htaken

/-- A step that is taken is an entry. -/
theorem entry_of_step (hD : D.Lawful) (hready : Ready D s) (hfits : Fits h s a)
    (hstep : step D s a = some (s', e)) :
    s'.manager.HandlesValid ∧ Entry (D.users s.database) s.manager.isConnected e
      (D.users s'.database) s'.manager.isConnected := by
  have henabled : a.needsConnection = true → s.manager.isConnected = true := by
    intro hneeds
    by_contra hconnected
    cases a <;> simp [Action.needsConnection] at hneeds <;> simp [step, hconnected] at hstep
  rcases enters hD hready hfits henabled with ⟨s'', e', hstep', hhandles, hentry⟩
  rw [hstep] at hstep'
  cases hstep'
  exact ⟨hhandles, hentry⟩

theorem Reads.step (hD : D.Lawful) (hold : Reads D initial h s) (hfits : Fits h s a)
    (hstep : step D s a = some (s', e)) : Reads D initial (h ++ [e]) s' := by
  rcases entry_of_step hD hold.ready hfits hstep with ⟨hhandles, hentry⟩
  constructor
  · exact ⟨hhandles, hentry.sound hold.ready.sound⟩
  · rw [hentry.accounts_eq, hold.accounts_eq, accounts_snoc]
  · rw [hentry.connected_eq, hold.connected_eq, connected_snoc]

theorem reads_run (hD : D.Lawful) (hsound : Sound (D.users d))
    (hrun : (server D d).Run Fits h s) : Reads D ((D.users d).map account) h s := by
  refine Run.invariant (I := Reads D ((D.users d).map account)) ?_ ?_ hrun
  · exact ⟨⟨handlesValid_default, hsound⟩, by simp [server, accounts], rfl⟩
  · intro h s a s' e _ hold hfits hstep
    exact hold.step hD hfits hstep

/-- Different numbers are different user ids. -/
theorem Sound.userIds (hsound : Sound rows) : ((rows.map account).map (·.userId)).Nodup := by
  have hids : (rows.map account).map (·.userId) = (rows.map (·.id)).map UInt64.ofNat := by
    simp [account, Function.comp_def]
  rw [hids]
  refine hsound.ids.map_on ?_
  intro m hm n hn hsame
  rcases List.mem_map.mp hm with ⟨row, hrow, rfl⟩
  rcases List.mem_map.mp hn with ⟨other, hother, rfl⟩
  have hlt := hsound.bounded row hrow
  have hlt' := hsound.bounded other hother
  have hnat := congrArg UInt64.toNat hsame
  simp only [UInt64.toNat_ofNat'] at hnat
  omega

/-- What a lookup in a run has returned. -/
theorem lookedUp_of_run (hD : D.Lawful) (hsound : Sound (D.users d))
    (hrun : (server D d).Run Fits h s) (h₁ h₂ : List Event) (email password : Bytes)
    (ret : Option UserID) (hh : h = h₁ ++ .lookedUp email password ret :: h₂) (id : UserID) :
    ret = some id ↔ connected h₁ = true ∧
      ⟨email, password, id⟩ ∈ accounts ((D.users d).map account) h₁ := by
  subst hh
  rcases hrun.split with ⟨s₁, a, s₂, hrun₁, hfits, hstep⟩
  have hreads := reads_run hD hsound hrun₁
  rw [← hreads.accounts_eq, ← hreads.connected_eq]
  exact (entry_of_step hD hreads.ready hfits hstep).2.lookedUp_iff id

/-- What a registration in a run has returned. -/
theorem registered_of_run (hD : D.Lawful) (hsound : Sound (D.users d))
    (hrun : (server D d).Run Fits h s) (h₁ h₂ : List Event) (email password : Bytes)
    (admitted : Bool) (ret : Option UserID)
    (hh : h = h₁ ++ .registered email password admitted ret :: h₂) :
    ret.isSome ↔ admitted = true ∧
      email ∉ (accounts ((D.users d).map account) h₁).map (·.email) := by
  subst hh
  rcases hrun.split with ⟨s₁, a, s₂, hrun₁, hfits, hstep⟩
  have hreads := reads_run hD hsound hrun₁
  have hemails : (accounts ((D.users d).map account) h₁).map (·.email) =
      (D.users s₁.database).map (·.email) := by
    rw [← hreads.accounts_eq]
    simp [account, Function.comp_def]
  rw [hemails]
  exact (entry_of_step hD hreads.ready hfits hstep).2.isSome_iff

/-- On a database that keeps to its documentation, accounts are remembered over all starts,
a lookup returns an id exactly for the credentials of an account, and no operation with
fitting texts ends in a fault. -/
theorem accounts_remembered {D : Database δ} (hD : D.Lawful) {d : δ} (hsound : Sound (D.users d))
    {h : List Event} {s : State δ} (hrun : (server D d).Run Fits h s) :
    Remembered ((D.users d).map account) h ∧
      ∀ a, Fits h s a → (a.needsConnection = true → connected h = true) →
        ∃ s' e, step D s a = some (s', e) := by
  have hreads := reads_run hD hsound hrun
  have hlookedUp := lookedUp_of_run hD hsound hrun
  refine ⟨⟨?_, ?_, hlookedUp, registered_of_run hD hsound hrun, ?_⟩, ?_⟩
  · rw [← hreads.accounts_eq]
    simpa [account, Function.comp_def] using hreads.ready.sound.emails
  · rw [← hreads.accounts_eq]
    exact hreads.ready.sound.userIds
  · intro h₁ h₂ h₃ email password id ret hh hconnected
    have hfirst := ((hlookedUp h₁ (h₂ ++ .lookedUp email password ret :: h₃) email password
      (some id) (by simpa using hh)) id).mp rfl
    refine (hlookedUp _ h₃ email password ret hh id).mpr ⟨hconnected, ?_⟩
    rw [accounts, List.filterMap_append, ← List.append_assoc]
    exact List.mem_append_left _ hfirst.2
  · intro a hfits hconnected
    rw [← hreads.connected_eq] at hconnected
    rcases enters hD hreads.ready hfits hconnected with ⟨s', e, hstep, _⟩
    exact ⟨s', e, hstep⟩

end Runs

/-- The literals of a statement. -/
def literals (ts : List Token) : List Bytes :=
  ts.filterMap fun
    | .literal value => some value
    | _ => none

/-- The next number of the table. -/
def nextId (rows : List UserRow) : Nat :=
  (rows.map (·.id)).foldr max 0 + 1

/-- A table that is there, at a server that knows the two statements about its rows. -/
def someDatabase : Database (List UserRow) where
  users rows := rows
  admits rows _ _ _ := nextId rows < 2 ^ 31
  answer rows text :=
    match (tokens text).map fun ts => (ts, literals ts) with
    | some (ts, [name, password, email]) =>
        if ts = insertTokens name password email ∧ email ∉ rows.map (·.email) ∧
            nextId rows < 2 ^ 31 then
          ({ status := .tuplesOk, rows := [[ascii (toString (nextId rows))]] },
            rows ++ [⟨nextId rows, name, password, email⟩])
        else ({ status := .other }, rows)
    | some (ts, [email, password]) =>
        if ts = selectTokens email password then
          ({ status := .tuplesOk
             rows := (matching rows email password).map fun row => [ascii (toString row.id)] },
            rows)
        else ({ status := .other }, rows)
    | _ => ({ status := .commandOk }, rows)

theorem lt_nextId {rows : List UserRow} {id : Nat} (hid : id ∈ rows.map (·.id)) :
    id < nextId rows := by
  rw [nextId, Nat.lt_succ_iff]
  induction rows with
  | nil => cases hid
  | cons row rows ih =>
      rcases List.mem_cons.mp hid with rfl | hid
      · exact le_max_left _ _
      · exact (ih hid).trans (le_max_right _ _)

theorem someDatabase_insert (rows : List UserRow) {text name password email : Bytes}
    (htokens : tokens text = some (insertTokens name password email)) :
    someDatabase.answer rows text =
      if email ∉ rows.map (·.email) ∧ nextId rows < 2 ^ 31 then
        ({ status := .tuplesOk, rows := [[ascii (toString (nextId rows))]] },
          rows ++ [⟨nextId rows, name, password, email⟩])
      else ({ status := .other }, rows) := by
  have hliterals : literals (insertTokens name password email) = [name, password, email] := rfl
  simp only [someDatabase, htokens, Option.map_some, hliterals, true_and]

theorem someDatabase_select (rows : List UserRow) {text email password : Bytes}
    (htokens : tokens text = some (selectTokens email password)) :
    someDatabase.answer rows text =
      ({ status := .tuplesOk
         rows := (matching rows email password).map fun row => [ascii (toString row.id)] },
        rows) := by
  have hliterals : literals (selectTokens email password) = [email, password] := rfl
  simp only [someDatabase, htokens, Option.map_some, hliterals, if_true]

theorem someDatabase_lawful : someDatabase.Lawful where
  created rows := by
    have hnone : (tokens createTableSql).map literals = some [] := by decide +kernel
    rcases Option.map_eq_some_iff.mp hnone with ⟨ts, htokens, hliterals⟩
    simp only [someDatabase, htokens, Option.map_some, hliterals]
  inserted rows text name password email _ htokens _ hadmits hfresh := by
    have hlt : nextId rows < 2 ^ 31 := of_decide_eq_true hadmits
    rw [someDatabase_insert rows htokens, if_pos ⟨hfresh, hlt⟩]
    exact ⟨nextId rows, fun hid => Nat.lt_irrefl _ (lt_nextId hid), hlt, rfl, rfl⟩
  refused rows text name password email _ htokens _ hrefused := by
    have hnot : ¬ (email ∉ rows.map (·.email) ∧ nextId rows < 2 ^ 31) := by
      rintro ⟨hfresh, hlt⟩
      rcases hrefused with hadmits | htaken
      · exact of_decide_eq_false hadmits hlt
      · exact hfresh htaken
    rw [someDatabase_insert rows htokens, if_neg hnot]
    exact ⟨by simp, rfl⟩
  selected rows text email password _ htokens := by
    rw [someDatabase_select rows htokens]
    exact ⟨rfl, by simp, fun _ => List.Perm.refl _⟩

/-- The test of {lit}`Fits`, for any request over TCP. -/
def fits (_ : List Event) (_ : State (List UserRow)) : Action → Bool
  | .register name password email =>
      (name.length ≤ 100 && password.length ≤ 50 && email.length ≤ 255) &&
        (quote ∉ name && quote ∉ password && quote ∉ email) &&
        (0 ∉ name && 0 ∉ password && 0 ∉ email)
  | .login userCreds =>
      userCreds.email.length < sizeofCredential && userCreds.password.length < sizeofCredential &&
        0 ∉ userCreds.email && 0 ∉ userCreds.password && quote ∉ userCreds.email &&
        quote ∉ userCreds.password
  | .authenticate authReqEnv =>
      let creds := AuthentificationService.getPayload authReqEnv
      0 ∈ creds.email.bytes && 0 ∈ creds.password.bytes &&
        quote ∉ cstr creds.email.bytes && quote ∉ cstr creds.password.bytes
  | _ => true

theorem fits_of_test (h : List Event) (s : State (List UserRow)) (a : Action)
    (htest : fits h s a = true) : Fits h s a := by
  cases a with
  | register name password email =>
      simp only [fits, Bool.and_eq_true, decide_eq_true_eq] at htest
      rcases htest with ⟨⟨⟨⟨hname, hpassword⟩, hemail⟩, hquotes⟩, hzeros⟩
      exact ⟨⟨hname, hpassword, hemail⟩, and_assoc.mp hquotes, and_assoc.mp hzeros⟩
  | login userCreds =>
      simp only [fits, Bool.and_eq_true, decide_eq_true_eq] at htest
      rcases htest with ⟨⟨⟨⟨⟨hemail, hpassword⟩, hemailZero⟩, hpasswordZero⟩, hfree⟩, hfree'⟩
      exact ⟨⟨hemail, hpassword, hemailZero, hpasswordZero⟩, hfree, hfree'⟩
  | authenticate authReqEnv =>
      simp only [fits, Bool.and_eq_true, decide_eq_true_eq] at htest
      rcases htest with ⟨⟨⟨hemail, hpassword⟩, hfree⟩, hfree'⟩
      exact fun _ => ⟨⟨hemail, hpassword⟩, hfree, hfree'⟩
  | _ => trivial

def Event.answer? : Event → Option (Option UserID)
  | .lookedUp _ _ ret => some ret
  | _ => none

theorem sound_nil : Sound [] :=
  ⟨List.nodup_nil, List.nodup_nil, by simp⟩

/-- A request for a login over TCP. -/
def authRequest (email password : Bytes) : Envelope where
  metaData := { header := { messageType := .ServiceMessage } }
  payload := CharArray.ofText _ ((CharArray.ofText sizeofCredential email).bytes ++ password)

/-- Two starts, with logins of the first predefined user behind both, over gRPC and over
TCP. -/
def restarts : List Action :=
  construct true ++ .login ⟨ascii "user1@mail.com", ascii "user1_pass"⟩ ::
    (construct true ++
      [.login ⟨ascii "user1@mail.com", ascii "user1_pass"⟩,
        .authenticate (authRequest (ascii "user1@mail.com") (ascii "user1_pass")),
        .authenticate (authRequest (ascii "user1@mail.com") (ascii "user2_pass"))])

/-- A predefined user keeps the id over a restart. -/
theorem accounts_remembered_restarts :
    ∃ h s, (server someDatabase []).Run Fits h s ∧
      h.filterMap Event.answer? = [some 1, some 1, some 1, none] ∧ Remembered [] h := by
  have hfinal : ((server someDatabase []).execFrom fits [] (server someDatabase []).init
      restarts).map (fun r => r.1.filterMap Event.answer?) =
        some [some 1, some 1, some 1, none] := by
    decide +kernel
  rcases Option.map_eq_some_iff.mp hfinal with ⟨⟨h, s⟩, hexec, hlookups⟩
  have hrun := Run.of_execFrom fits_of_test .start hexec
  exact ⟨h, s, hrun, hlookups, (accounts_remembered someDatabase_lawful sound_nil hrun).1⟩

end Accounts

end SimpleMessenger
