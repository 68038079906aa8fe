import SimpleMessenger.Foundations.SqlText
import SimpleMessenger.Server.PsqlManager

/-!
# The SQL texts of the database client

`PsqlManager` pastes its arguments between quotes and sends the result.  This
module reads the sent texts back with the SQL rule for literals and compares them
with the statements that are meant.

Main results:

- Theorems {lit}`tokens_selectReq_iff` and {lit}`tokens_insertReq_iff`: the texts
  read back as the intended statements exactly for arguments without a quote.
- Theorem {lit}`queryIntegrity_iff`: the same for the texts together with what a
  successful lookup implies about the table.
-/

namespace SimpleMessenger

open CMemory SqlText

namespace PsqlManager

/-! ## The intended statements -/

/-- `SELECT id FROM users WHERE email=<literal> AND password=<literal>` -/
def selectTokens (email password : Bytes) : List Token :=
  [.word (ascii "SELECT"), .word (ascii "id"), .word (ascii "FROM"), .word (ascii "users"),
    .word (ascii "WHERE"), .word (ascii "email"), .symbol 61, .literal email,
    .word (ascii "AND"), .word (ascii "password"), .symbol 61, .literal password]

/-- `INSERT INTO users (name, password, email) VALUES (<literal>, <literal>,
<literal>) RETURNING id` -/
def insertTokens (name password email : Bytes) : List Token :=
  [.word (ascii "INSERT"), .word (ascii "INTO"), .word (ascii "users"), .symbol 40,
    .word (ascii "name"), .symbol 44, .word (ascii "password"), .symbol 44,
    .word (ascii "email"), .symbol 41, .word (ascii "VALUES"), .symbol 40, .literal name,
    .symbol 44, .literal password, .symbol 44, .literal email, .symbol 41,
    .word (ascii "RETURNING"), .word (ascii "id")]

/-! ## Reading the texts back -/

/-- A statement has no zero byte if the texts in it have none. -/
theorem zero_notMem_selectReq {email password : Bytes} (hemail : (0 : UInt8) ∉ email)
    (hpassword : (0 : UInt8) ∉ password) : (0 : UInt8) ∉ selectReq email password := by
  simp [selectReq, hemail, hpassword, ascii]

theorem zero_notMem_insertReq {name password email : Bytes} (hname : (0 : UInt8) ∉ name)
    (hpassword : (0 : UInt8) ∉ password) (hemail : (0 : UInt8) ∉ email) :
    (0 : UInt8) ∉ insertReq name password email := by
  simp [insertReq, hname, hpassword, hemail, ascii]

/-- The fixed parts of the lookup text, read around its two arguments. -/
theorem tokens_selectReq (email password : Bytes) :
    tokens (selectReq email password) =
      scan (.literal []) ((selectTokens email password).take 7)
        (email ++ quote :: (ascii " AND password='" ++ (password ++ [quote]))) := by
  have htext : selectReq email password =
      ascii "SELECT id FROM users WHERE email='" ++
        (email ++ quote :: (ascii " AND password='" ++ (password ++ [quote]))) := by
    simp [selectReq, ascii, quote]
  rw [htext]
  rfl

/-- Behind the first argument the reader reaches the second. -/
theorem scan_closing_email (email password : Bytes) (rest : Bytes) :
    scan (.closing email) ((selectTokens email password).take 7)
        (ascii " AND password='" ++ rest) =
      scan (.literal []) ((selectTokens email password).take 11) rest :=
  rfl

/-- The lookup text is the intended statement exactly for arguments without a
quote. -/
theorem tokens_selectReq_iff (email password : Bytes) :
    tokens (selectReq email password) = some (selectTokens email password) ↔
      quote ∉ email ∧ quote ∉ password := by
  have hafter : (ascii " AND password='" ++ (password ++ [quote])).head? ≠ some quote := by
    simp [ascii, quote]
  rw [tokens_selectReq]
  constructor
  · intro hscan
    have hemail : quote ∉ email :=
      quote_notMem_of_value hafter hscan (List.take_prefix 8 (selectTokens email password))
    rw [scan_quoted hemail, scan_closing_email] at hscan
    have hend : ([] : Bytes).head? ≠ some quote := by
      simp
    have hpassword : quote ∉ password :=
      quote_notMem_of_value hend hscan (List.take_prefix 12 (selectTokens email password))
    exact ⟨hemail, hpassword⟩
  · intro h
    rw [scan_quoted h.1, scan_closing_email, scan_quoted h.2]
    rfl

/-- The fixed parts of the registration text, read around its arguments. -/
theorem tokens_insertReq (name password email : Bytes) :
    tokens (insertReq name password email) =
      scan (.literal []) ((insertTokens name password email).take 12)
        (name ++ quote :: (ascii ", '" ++ (password ++ quote ::
          (ascii ", '" ++ (email ++ quote :: ascii ") RETURNING id"))))) := by
  have htext : insertReq name password email =
      ascii "INSERT INTO users (name, password, email) VALUES ('" ++
        (name ++ quote :: (ascii ", '" ++ (password ++ quote ::
          (ascii ", '" ++ (email ++ quote :: ascii ") RETURNING id"))))) := by
    simp [insertReq, ascii, quote]
  rw [htext]
  rfl

theorem scan_closing_name (name password email rest : Bytes) :
    scan (.closing name) ((insertTokens name password email).take 12) (ascii ", '" ++ rest) =
      scan (.literal []) ((insertTokens name password email).take 14) rest :=
  rfl

theorem scan_closing_password (name password email rest : Bytes) :
    scan (.closing password) ((insertTokens name password email).take 14)
        (ascii ", '" ++ rest) =
      scan (.literal []) ((insertTokens name password email).take 16) rest :=
  rfl

/-- The registration text is the intended statement exactly for arguments
without a quote. -/
theorem tokens_insertReq_iff (name password email : Bytes) :
    tokens (insertReq name password email) = some (insertTokens name password email) ↔
      quote ∉ name ∧ quote ∉ password ∧ quote ∉ email := by
  have hcomma : ∀ rest, (ascii ", '" ++ rest).head? ≠ some quote := by
    simp [ascii, quote]
  rw [tokens_insertReq]
  constructor
  · intro hscan
    have hname : quote ∉ name :=
      quote_notMem_of_value (hcomma _) hscan
        (List.take_prefix 13 (insertTokens name password email))
    rw [scan_quoted hname, scan_closing_name] at hscan
    have hpassword : quote ∉ password :=
      quote_notMem_of_value (hcomma _) hscan
        (List.take_prefix 15 (insertTokens name password email))
    rw [scan_quoted hpassword, scan_closing_password] at hscan
    have hemail : quote ∉ email :=
      quote_notMem_of_value (by decide) hscan
        (List.take_prefix 17 (insertTokens name password email))
    exact ⟨hname, hpassword, hemail⟩
  · intro h
    rw [scan_quoted h.1, scan_closing_name, scan_quoted h.2.1, scan_closing_password,
      scan_quoted h.2.2]
    rfl

/-! ## What a successful lookup says about the table -/

/-- A row of the table `users`. -/
structure UserRow where
  id : Nat
  name : Bytes
  password : Bytes
  email : Bytes

/-- The database answers the lookup statement, however it is written, with an error or
with the ids of the matching rows, in some order. -/
def AnswersSelect (db : Bytes → PGresult) (table : List UserRow) : Prop :=
  ∀ text email password, tokens text = some (selectTokens email password) →
    (db text).status = .tuplesOk →
      (db text).rows.Perm
        ((table.filter fun row => row.email = email ∧ row.password = password).map
          fun row => [ascii (toString row.id)])

/-- A lookup sends one text, which reads as the lookup of exactly these
credentials, and it returns a user id only for a row that holds them. -/
structure LookupIntegrity (db : Bytes → PGresult) (table : List UserRow)
    (email password : Bytes) : Prop where
  sent : ∀ (m m' : PsqlManager) (creds : UserCredentials) (ret : Option UserID),
    creds.email.cstring = .ok email → creds.password.cstring = .ok password →
    m.findUserByCreds db creds = .ok (ret, m') →
      m'.calls = m.calls ++
        [.exec m.pgConnection (selectReq email password) m.results.length,
          .clear (some m.results.length)]
  text : tokens (selectReq email password) = some (selectTokens email password)
  row : ∀ (m m' : PsqlManager) (creds : UserCredentials) (id : UserID),
    creds.email.cstring = .ok email → creds.password.cstring = .ok password →
    m.findUserByCreds db creds = .ok (some id, m') →
      ∃ row ∈ table, row.email = email ∧ row.password = password ∧
        id = userIdOf (ascii (toString row.id))

/-- A lookup sends one text, the one built from the two C strings, and clears its
answer. -/
theorem findUserByCreds_calls {m m' : PsqlManager} {db : Bytes → PGresult}
    {creds : UserCredentials} {ret : Option UserID} {email password : Bytes}
    (hemail : creds.email.cstring = .ok email)
    (hpassword : creds.password.cstring = .ok password)
    (hfind : m.findUserByCreds db creds = .ok (ret, m')) :
    m'.calls = m.calls ++
      [.exec m.pgConnection (selectReq email password) m.results.length,
        .clear (some m.results.length)] := by
  rcases findUserByCreds_ok hfind with ⟨e, p, he, hp, _, rfl⟩
  rw [hemail] at he
  rw [hpassword] at hp
  cases he
  cases hp
  simp [exec, clear]

/-- An id read from an answer is the text of its first field. -/
theorem exists_row_of_readAnswer {a : PGresult} {id : UserID}
    (hread : readAnswer a = .ok (some id)) :
    a.status = .tuplesOk ∧ ∃ fields ∈ a.rows, ∃ value ∈ fields, id = userIdOf value := by
  unfold readAnswer at hread
  split at hread <;> rename_i hstatus
  · simp at hread
  · split at hread
    · simp at hread
    · rcases map_eq_ok_iff.mp hread with ⟨value, hvalue, hid⟩
      unfold PGresult.getvalue at hvalue
      split at hvalue
      · contradiction
      · rename_i fields hfields
        split at hvalue
        · contradiction
        · rename_i hfield
          cases hvalue
          exact ⟨not_not.mp hstatus, fields, List.mem_of_getElem? hfields, value,
            List.mem_of_getElem? hfield, (Option.some.inj hid).symm⟩

/-- If the text reads back as the intended lookup, an id stands for a row with
the credentials. -/
theorem exists_row_of_text {db : Bytes → PGresult} {table : List UserRow}
    (hdb : AnswersSelect db table) {email password : Bytes}
    (htext : tokens (selectReq email password) = some (selectTokens email password))
    {id : UserID} (hread : readAnswer (db (selectReq email password)) = .ok (some id)) :
    ∃ row ∈ table, row.email = email ∧ row.password = password ∧
      id = userIdOf (ascii (toString row.id)) := by
  rcases exists_row_of_readAnswer hread with ⟨hstatus, fields, hfields, value, hvalue, hid⟩
  have hrows := hdb _ _ _ htext hstatus
  rcases List.mem_map.mp (hrows.mem_iff.mp hfields) with ⟨row, hrow, rfl⟩
  rcases List.mem_filter.mp hrow with ⟨hmem, hmatch⟩
  have hsame := of_decide_eq_true hmatch
  rw [List.mem_singleton.mp hvalue] at hid
  exact ⟨row, hmem, hsame.1, hsame.2, hid⟩

/-- Both texts are the intended statements, and a lookup finds matching rows
only, exactly for arguments without a quote. -/
theorem queryIntegrity_iff {db : Bytes → PGresult} {table : List UserRow}
    (hdb : AnswersSelect db table) :
    (∀ email password,
      LookupIntegrity db table email password ↔ quote ∉ email ∧ quote ∉ password) ∧
    (∀ name password email,
      tokens (insertReq name password email) = some (insertTokens name password email) ↔
        quote ∉ name ∧ quote ∉ password ∧ quote ∉ email) := by
  refine ⟨fun email password => ?_, tokens_insertReq_iff⟩
  constructor
  · intro h
    exact (tokens_selectReq_iff email password).mp h.text
  · intro h
    have htext := (tokens_selectReq_iff email password).mpr h
    refine ⟨fun m m' creds ret => findUserByCreds_calls, htext, ?_⟩
    intro m m' creds id hemail hpassword hfind
    rcases findUserByCreds_ok hfind with ⟨e, p, he, hp, hread, _⟩
    rw [hemail] at he
    rw [hpassword] at hp
    cases he
    cases hp
    exact exists_row_of_text hdb htext hread

/-- A database that knows the lookup statement and no other. -/
def lookupServer (table : List UserRow) (text : Bytes) : PGresult :=
  match tokens text with
  | some [t₁, t₂, t₃, t₄, t₅, t₆, t₇, .literal email, t₉, t₁₀, t₁₁, .literal password] =>
      if [t₁, t₂, t₃, t₄, t₅, t₆, t₇, .literal email, t₉, t₁₀, t₁₁, .literal password] =
          selectTokens email password then
        { status := .tuplesOk
          rows := (table.filter fun row => row.email = email ∧ row.password = password).map
            fun row => [ascii (toString row.id)] }
      else { status := .other }
  | _ => { status := .other }

theorem lookupServer_answers (table : List UserRow) :
    AnswersSelect (lookupServer table) table := by
  intro text email password htext _
  simp only [lookupServer, htext, selectTokens]
  exact List.Perm.refl _

/-- The lookup of a predefined user keeps its integrity. -/
theorem queryIntegrity_predefined :
    LookupIntegrity (lookupServer [⟨1, ascii "user1", ascii "user1_pass", ascii "user1@mail.com"⟩])
      [⟨1, ascii "user1", ascii "user1_pass", ascii "user1@mail.com"⟩]
      (ascii "user1@mail.com") (ascii "user1_pass") :=
  ((queryIntegrity_iff (lookupServer_answers _)).1 _ _).mpr (by decide)

/-- A password with quotes turns the comparison into a disjunction that is true
for every row. -/
theorem queryIntegrity_fails :
    tokens (selectReq (ascii "user1@mail.com") (ascii "' OR 'a'='a")) =
        some ((selectTokens (ascii "user1@mail.com") []) ++
          [.word (ascii "OR"), .literal (ascii "a"), .symbol 61, .literal (ascii "a")]) ∧
      tokens (selectReq (ascii "user1@mail.com") (ascii "' OR 'a'='a")) ≠
        some (selectTokens (ascii "user1@mail.com") (ascii "' OR 'a'='a")) := by
  decide +kernel

end PsqlManager

end SimpleMessenger
