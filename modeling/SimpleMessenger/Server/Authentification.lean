import SimpleMessenger.Common.MessageProcessing
import SimpleMessenger.Server.PsqlManager

/-!
# Both login paths of `AuthentificationService.cpp` and `GrpcServer.cpp`

The gRPC handler copies the two submitted byte strings, of whatever length, into
the two fixed arrays of a cleared credentials structure.  The TCP handler copies
the structure as a whole out of the text array of an envelope.  Both then read
the arrays as C strings, first for the log and then for the lookup.

Main results:

- Theorems {lit}`acceptsFaithfully_iff` and {lit}`handlesFaithfully_iff`: the
  submitted credentials that each path either rejects without a lookup or
  extracts in bounds.
- Theorem {lit}`extraction_iff`: both of them together.
-/

namespace SimpleMessenger

open CMemory PsqlManager

namespace AuthentificationService

/-! ## The two handlers -/

def checkIfRegistered (m : PsqlManager) (db : Bytes → PGresult) (creds : UserCredentials) :
    Checked (Option UserID × PsqlManager) :=
  if !m.isConnected then .ok (none, m) else m.findUserByCreds db creds

/-- The credentials that `acceptConnection` fills in, with its log line. -/
def receivedCreds (userCreds : ProtobufItf.UserCredentials) : Checked UserCredentials := do
  let email ← (CharArray.zeros sizeofCredential).memcpy userCreds.email
  let password ← (CharArray.zeros sizeofCredential).memcpy userCreds.password
  -- `LOG("User email: %s", received_creds.email)`
  let _ ← email.cstring
  return { email := email, password := password }

/-- `acceptConnection` up to the answer of `checkIfRegistered`; an id is then
added to the connected users, and without one the call is cancelled. -/
def acceptConnection (m : PsqlManager) (db : Bytes → PGresult)
    (userCreds : ProtobufItf.UserCredentials) : Checked (Option UserID × PsqlManager) := do
  let creds ← receivedCreds userCreds
  checkIfRegistered m db creds

/-- `get_payload<UserCredentials>`: the first 512 of the 976 payload bytes. -/
def getPayload (env : Envelope) : UserCredentials where
  email :=
    ⟨env.payload.bytes.take sizeofCredential, by
      rw [List.length_take, env.payload.length_eq]
      rfl⟩
  password :=
    ⟨(env.payload.bytes.drop sizeofCredential).take sizeofCredential, by
      rw [List.length_take, List.length_drop, env.payload.length_eq]
      rfl⟩

def handleAuthReq (m : PsqlManager) (db : Bytes → PGresult) (authReqEnv : Envelope) :
    Checked (Option UserID × PsqlManager) :=
  if getMessageType authReqEnv = .ServiceMessage then do
    let creds := getPayload authReqEnv
    -- `LOG("Connection attempt from user %s, %s", …)`
    let _ ← creds.email.cstring
    let _ ← creds.password.cstring
    checkIfRegistered m db creds
  else .ok (none, m)

/-! ## What is asked of them -/

/-- The gRPC path rejects the attempt without a call into the database, or it
stays inside both arrays and the lookup reads the two strings as submitted. -/
def AcceptsFaithfully (m : PsqlManager) (db : Bytes → PGresult)
    (userCreds : ProtobufItf.UserCredentials) : Prop :=
  (∃ m', acceptConnection m db userCreds = .ok (none, m') ∧ m'.calls = m.calls) ∨
    ∃ creds, receivedCreds userCreds = .ok creds ∧
      creds.email.cstring = .ok userCreds.email ∧
      creds.password.cstring = .ok userCreds.password

/-- The TCP path rejects the attempt without a call into the database, or the
two strings that it reads end inside their arrays. -/
def HandlesFaithfully (m : PsqlManager) (db : Bytes → PGresult) (env : Envelope) : Prop :=
  (∃ m', handleAuthReq m db env = .ok (none, m') ∧ m'.calls = m.calls) ∨
    ∃ email password, (getPayload env).email.cstring = .ok email ∧
      (getPayload env).password.cstring = .ok password

/-- Both submitted strings leave room for a terminator and hold no zero byte. -/
structure FitsArrays (userCreds : ProtobufItf.UserCredentials) : Prop where
  email_lt : userCreds.email.length < sizeofCredential
  password_lt : userCreds.password.length < sizeofCredential
  email_zeroFree : (0 : UInt8) ∉ userCreds.email
  password_zeroFree : (0 : UInt8) ∉ userCreds.password

/-- Both submitted strings fit their arrays, and the email can be logged. -/
structure FitsLog (userCreds : ProtobufItf.UserCredentials) : Prop where
  email_le : userCreds.email.length ≤ sizeofCredential
  password_le : userCreds.password.length ≤ sizeofCredential
  terminated : userCreds.email.length < sizeofCredential ∨ (0 : UInt8) ∈ userCreds.email

/-! ## The steps of the gRPC path -/

theorem receivedCreds_eq_ok_iff {userCreds : ProtobufItf.UserCredentials}
    {creds : UserCredentials} :
    receivedCreds userCreds = .ok creds ↔
      (CharArray.zeros sizeofCredential).memcpy userCreds.email = .ok creds.email ∧
        (CharArray.zeros sizeofCredential).memcpy userCreds.password = .ok creds.password ∧
        (userCreds.email.length < sizeofCredential ∨ (0 : UInt8) ∈ userCreds.email) := by
  simp only [receivedCreds, bind_eq_ok_iff]
  constructor
  · intro h
    rcases h with ⟨email, hemail, password, hpassword, logged, hlog, hpair⟩
    cases hpair
    exact ⟨hemail, hpassword, ((CharArray.cstring_of_memcpy_zeros hemail).mp hlog).1⟩
  · intro h
    rcases h with ⟨hemail, hpassword, hterm⟩
    exact ⟨creds.email, hemail, creds.password, hpassword, cstr userCreds.email,
      (CharArray.cstring_of_memcpy_zeros hemail).mpr ⟨hterm, rfl⟩, rfl⟩

/-- The credentials are filled in without a fault exactly for strings that fit
the arrays and the log. -/
theorem exists_receivedCreds_iff {userCreds : ProtobufItf.UserCredentials} :
    (∃ creds, receivedCreds userCreds = .ok creds) ↔ FitsLog userCreds := by
  constructor
  · intro h
    rcases h with ⟨creds, hcreds⟩
    rcases receivedCreds_eq_ok_iff.mp hcreds with ⟨hemail, hpassword, hterm⟩
    exact ⟨(CharArray.memcpy_eq_ok_iff.mp hemail).1, (CharArray.memcpy_eq_ok_iff.mp hpassword).1,
      hterm⟩
  · intro h
    rcases CharArray.exists_memcpy_eq_ok (CharArray.zeros sizeofCredential) h.email_le with
      ⟨email, hemail⟩
    rcases CharArray.exists_memcpy_eq_ok (CharArray.zeros sizeofCredential) h.password_le with
      ⟨password, hpassword⟩
    exact ⟨⟨email, password⟩, receivedCreds_eq_ok_iff.mpr ⟨hemail, hpassword, h.terminated⟩⟩

/-- A copied string reads back as submitted exactly if it was copied with a
terminator and without a zero byte inside. -/
theorem cstring_eq_submitted_iff {a : CharArray sizeofCredential} {text : Bytes}
    (hcopy : (CharArray.zeros sizeofCredential).memcpy text = .ok a) :
    a.cstring = .ok text ↔ text.length < sizeofCredential ∧ (0 : UInt8) ∉ text := by
  rw [CharArray.cstring_of_memcpy_zeros hcopy, eq_comm, cstr_eq_self_iff]
  constructor
  · intro h
    rcases h with ⟨hroom | hzero, hfree⟩
    · exact ⟨hroom, hfree⟩
    · exact absurd hzero hfree
  · intro h
    exact ⟨.inl h.1, h.2⟩

/-- Strings that fit the arrays are filled in as submitted. -/
theorem exists_receivedCreds_of_fits {userCreds : ProtobufItf.UserCredentials}
    (hfits : FitsArrays userCreds) :
    ∃ creds, receivedCreds userCreds = .ok creds ∧
      creds.email.cstring = .ok userCreds.email ∧
      creds.password.cstring = .ok userCreds.password := by
  rcases exists_receivedCreds_iff.mpr
    ⟨hfits.email_lt.le, hfits.password_lt.le, .inl hfits.email_lt⟩ with ⟨creds, hcreds⟩
  rcases receivedCreds_eq_ok_iff.mp hcreds with ⟨hcopyEmail, hcopyPassword, _⟩
  exact ⟨creds, hcreds,
    (cstring_eq_submitted_iff hcopyEmail).mpr ⟨hfits.email_lt, hfits.email_zeroFree⟩,
    (cstring_eq_submitted_iff hcopyPassword).mpr ⟨hfits.password_lt, hfits.password_zeroFree⟩⟩

/-- An answer without a call into the database comes from a client that is not
connected. -/
theorem checkIfRegistered_calls_iff {m m' : PsqlManager} {db : Bytes → PGresult}
    {creds : UserCredentials} {ret : Option UserID}
    (hcheck : checkIfRegistered m db creds = .ok (ret, m')) :
    m'.calls = m.calls ↔ m.isConnected = false := by
  unfold checkIfRegistered at hcheck
  cases hconnected : m.isConnected with
  | false =>
      rw [hconnected] at hcheck
      cases hcheck
      simp
  | true =>
      rw [hconnected] at hcheck
      rcases findUserByCreds_ok hcheck with ⟨email, password, _, _, _, rfl⟩
      simp [PsqlManager.exec, PsqlManager.clear]

/-! ## When extraction is faithful -/

/-- The gRPC path is faithful exactly for strings that fit the arrays with their
terminators, and, while there is no connection, for those that can be copied and
logged. -/
theorem acceptsFaithfully_iff (m : PsqlManager) (db : Bytes → PGresult)
    (userCreds : ProtobufItf.UserCredentials) :
    AcceptsFaithfully m db userCreds ↔
      FitsArrays userCreds ∨ (m.isConnected = false ∧ FitsLog userCreds) := by
  constructor
  · intro h
    rcases h with ⟨m', haccept, hcalls⟩ | ⟨creds, hcreds, hemail, hpassword⟩
    · rcases bind_eq_ok_iff.mp haccept with ⟨creds, hcreds, hcheck⟩
      exact .inr ⟨(checkIfRegistered_calls_iff hcheck).mp hcalls,
        exists_receivedCreds_iff.mp ⟨creds, hcreds⟩⟩
    · rcases receivedCreds_eq_ok_iff.mp hcreds with ⟨hcopyEmail, hcopyPassword, _⟩
      rcases (cstring_eq_submitted_iff hcopyEmail).mp hemail with ⟨hltEmail, hfreeEmail⟩
      rcases (cstring_eq_submitted_iff hcopyPassword).mp hpassword with
        ⟨hltPassword, hfreePassword⟩
      exact .inl ⟨hltEmail, hltPassword, hfreeEmail, hfreePassword⟩
  · intro h
    rcases h with hfits | ⟨hconnected, hlog⟩
    · have hlog : FitsLog userCreds :=
        ⟨hfits.email_lt.le, hfits.password_lt.le, .inl hfits.email_lt⟩
      rcases exists_receivedCreds_iff.mpr hlog with ⟨creds, hcreds⟩
      rcases receivedCreds_eq_ok_iff.mp hcreds with ⟨hcopyEmail, hcopyPassword, _⟩
      refine .inr ⟨creds, hcreds, ?_, ?_⟩
      · exact (cstring_eq_submitted_iff hcopyEmail).mpr ⟨hfits.email_lt, hfits.email_zeroFree⟩
      · exact (cstring_eq_submitted_iff hcopyPassword).mpr
          ⟨hfits.password_lt, hfits.password_zeroFree⟩
    · rcases exists_receivedCreds_iff.mpr hlog with ⟨creds, hcreds⟩
      refine .inl ⟨m, bind_eq_ok_iff.mpr ⟨creds, hcreds, ?_⟩, rfl⟩
      simp [checkIfRegistered, hconnected]

/-- The TCP path is faithful exactly if both arrays of the copied structure hold a
zero byte: its log line reads them before anything is rejected. -/
theorem handlesFaithfully_iff (m : PsqlManager) (db : Bytes → PGresult) {env : Envelope}
    (htype : getMessageType env = .ServiceMessage) :
    HandlesFaithfully m db env ↔
      (0 : UInt8) ∈ (getPayload env).email.bytes ∧
        (0 : UInt8) ∈ (getPayload env).password.bytes := by
  have hread : ∀ {a : CharArray sizeofCredential} {text : Bytes},
      a.cstring = .ok text → (0 : UInt8) ∈ a.bytes := by
    intro a text htext
    exact (CharArray.cstring_eq_ok_iff.mp htext).1
  constructor
  · intro h
    rcases h with ⟨m', hhandle, _⟩ | ⟨email, password, hemail, hpassword⟩
    · rw [handleAuthReq, if_pos htype] at hhandle
      rcases bind_eq_ok_iff.mp hhandle with ⟨email, hemail, hrest⟩
      rcases bind_eq_ok_iff.mp hrest with ⟨password, hpassword, _⟩
      exact ⟨hread hemail, hread hpassword⟩
    · exact ⟨hread hemail, hread hpassword⟩
  · intro h
    exact .inr ⟨_, _, CharArray.cstring_eq_ok_iff.mpr ⟨h.1, rfl⟩,
      CharArray.cstring_eq_ok_iff.mpr ⟨h.2, rfl⟩⟩

/-- The submitted credentials that the two login paths reject without a lookup or
extract in bounds, on the gRPC path byte for byte. -/
theorem extraction_iff (m : PsqlManager) (db : Bytes → PGresult) :
    (∀ userCreds, AcceptsFaithfully m db userCreds ↔
      FitsArrays userCreds ∨ (m.isConnected = false ∧ FitsLog userCreds)) ∧
    (∀ env, getMessageType env = .ServiceMessage →
      (HandlesFaithfully m db env ↔
        (0 : UInt8) ∈ (getPayload env).email.bytes ∧
          (0 : UInt8) ∈ (getPayload env).password.bytes)) := by
  constructor
  · intro userCreds
    exact acceptsFaithfully_iff m db userCreds
  · intro env htype
    exact handlesFaithfully_iff m db htype

/-- An envelope of type `ServiceMessage` with the given byte all over its text
array. -/
def serviceEnvelope (b : UInt8) : Envelope where
  metaData := { header := { messageType := .ServiceMessage } }
  payload := ⟨List.replicate sizeofPayload b, List.length_replicate⟩

/-- A short email passes the gRPC path, and empty credentials the TCP path. -/
theorem extraction_short :
    AcceptsFaithfully { isConnected := true } (fun _ => { status := .other })
        { email := ascii "user1@mail.com", password := ascii "user1_pass" } ∧
      HandlesFaithfully { isConnected := true } (fun _ => { status := .other })
        (serviceEnvelope 0) :=
  ⟨((extraction_iff _ _).1 _).mpr (.inl ⟨by decide, by decide, by decide, by decide⟩),
    ((extraction_iff _ _).2 _ rfl).mpr ⟨by decide, by decide⟩⟩

/-- With a connection, an email of 256 bytes runs into the password array, one of
257 bytes is copied into it, and an email with a zero byte is looked up
truncated; a text array without a zero byte runs out of the credentials. -/
theorem extraction_fails :
    ¬ AcceptsFaithfully { isConnected := true } (fun _ => { status := .other })
        { email := List.replicate 256 97 } ∧
      receivedCreds { email := List.replicate 257 97 } = .error (.write 256 256) ∧
      ¬ AcceptsFaithfully { isConnected := true } (fun _ => { status := .other })
        { email := [97, 0, 98] } ∧
      ¬ HandlesFaithfully { isConnected := true } (fun _ => { status := .other })
        (serviceEnvelope 97) := by
  refine ⟨?_, by decide +kernel, ?_, ?_⟩
  · rw [acceptsFaithfully_iff]
    intro h
    rcases h with hfits | ⟨hconnected, _⟩
    · have hlt := hfits.email_lt
      rw [List.length_replicate] at hlt
      exact absurd hlt (by decide)
    · contradiction
  · rw [acceptsFaithfully_iff]
    intro h
    rcases h with hfits | ⟨hconnected, _⟩
    · exact hfits.email_zeroFree (by decide)
    · contradiction
  · rw [handlesFaithfully_iff _ _ rfl]
    intro h
    have hnone : (0 : UInt8) ∉ (getPayload (serviceEnvelope 97)).email.bytes := by
      decide +kernel
    exact hnone h.1

end AuthentificationService

end SimpleMessenger
