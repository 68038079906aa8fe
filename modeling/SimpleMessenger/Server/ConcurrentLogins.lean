import SimpleMessenger.Foundations.StepSystem
import SimpleMessenger.Server.QueryIntegrity

/-!
# Concurrent lookups on the one database client

Every login handler runs `findUserByCreds` on the same `PsqlManager`, without a
lock, and all of them talk to the library through the member `pg_result`.  Here
each statement that touches the member is one step, and the steps of any number
of lookups interleave freely.  The database is a function of the text it is
sent: it answers every query correctly and the table does not change.

Main results:

- Theorem {lit}`loginInv_run`: the invariant of runs in which no lookup sends its
  query while another one still uses its answer.
- Theorem {lit}`loginsIsolated_of_run`: in these runs every lookup returns what it
  returns alone, and every answer is cleared exactly once.
- Theorem {lit}`not_isolated_after_overlap`: the first overlap of a run breaks this
  for good.

Current gaps:

- A lookup that overlaps may also stop at a cleared answer; such a call takes no
  further step here.
-/

namespace SimpleMessenger

open CMemory StepSystem PsqlManager

namespace Logins

/-! ## The lookups as interleaved statements -/

/-- The next statement of a lookup. -/
inductive Pc where
  | executing
  | testing
  | counting
  | reading
  | clearing (userId : Option UserID)
  | returned (userId : Option UserID)
deriving DecidableEq

/-- A call of `findUserByCreds`. -/
structure Call where
  creds : UserCredentials
  pc : Pc
deriving DecidableEq

structure State where
  manager : PsqlManager
  calls : List Call := []

inductive Action where
  | call (creds : UserCredentials)
  | advance (i : Nat)

inductive Event where
  | called (i : Nat)
  | executed (i : Nat) (text : Bytes) (res : Nat)
  | tested (i : Nat)
  | cleared (i : Nat) (res : Option Nat)
deriving DecidableEq

/-- The text of a lookup, built from the two C strings. -/
def lookupText (creds : UserCredentials) : Checked Bytes := do
  let email ← creds.email.cstring
  let password ← creds.password.cstring
  return selectReq email password

/-- Let call `i` go on to `pc`. -/
def goOn (s : State) (i : Nat) (call : Call) (pc : Pc) : State :=
  { s with calls := s.calls.set i { call with pc := pc } }

/-- The next statement of call `i`, a faulty access being no step. -/
def advance (db : Bytes → PGresult) (s : State) (i : Nat) (call : Call) :
    Option (State × Event) :=
  match call.pc with
  | .executing =>
      match lookupText call.creds with
      | .error _ => none
      | .ok text =>
          some ({ goOn s i call .testing with manager := s.manager.exec db text },
            .executed i text s.manager.results.length)
  | .testing =>
      match s.manager.result with
      | .error _ => none
      | .ok a =>
          some (goOn s i call (if a.status ≠ .tuplesOk then .clearing none else .counting),
            .tested i)
  | .counting =>
      match s.manager.result with
      | .error _ => none
      | .ok a =>
          some (goOn s i call (if a.rows.length < 1 then .clearing none else .reading),
            .tested i)
  | .reading =>
      match s.manager.result >>= fun a => a.getvalue 0 0 with
      | .error _ => none
      | .ok value => some (goOn s i call (.clearing (some (userIdOf value))), .tested i)
  | .clearing userId =>
      some ({ goOn s i call (.returned userId) with manager := s.manager.clear },
        .cleared i s.manager.pgResult)
  | .returned _ => none

def step (db : Bytes → PGresult) (s : State) : Action → Option (State × Event)
  | .call creds =>
      some ({ s with calls := s.calls ++ [{ creds := creds, pc := .executing }] },
        .called s.calls.length)
  | .advance i =>
      match s.calls[i]? with
      | none => none
      | some call => advance db s i call

/-- Lookups on the client `m₀`, which may have served other calls before; all of
them keep its handles valid. -/
def system (db : Bytes → PGresult) (m₀ : PsqlManager) : StepSystem State Action Event where
  init := { manager := m₀ }
  step := step db

/-! ## What is asked of a run -/

/-- How often an answer has been passed to `PQclear`. -/
def clears (s : State) (r : Nat) : Nat :=
  s.manager.calls.count (.clear (some r))

/-- The lookup has sent its query and not yet cleared the answer. -/
def Pc.usesAnswer : Pc → Bool
  | .executing => false
  | .testing => true
  | .counting => true
  | .reading => true
  | .clearing _ => true
  | .returned _ => false

/-- Every finished lookup has returned what it returns alone, its answer has been
cleared exactly once, no answer is cleared twice, and a lookup that still needs
its answer finds one that has not been cleared. -/
structure Isolated (db : Bytes → PGresult) (m₀ : PsqlManager) (h : List Event) (s : State) :
    Prop where
  alone : ∀ (i : Nat) (creds : UserCredentials) (userId : Option UserID),
    s.calls[i]? = some (Call.mk creds (Pc.returned userId)) →
      ∃ m', m₀.findUserByCreds db creds = .ok (userId, m')
  cleared : ∀ (i : Nat) (text : Bytes) (r : Nat) (creds : UserCredentials)
    (userId : Option UserID), Event.executed i text r ∈ h →
      s.calls[i]? = some (Call.mk creds (Pc.returned userId)) → clears s r = 1
  atMostOnce : ∀ (i : Nat) (text : Bytes) (r : Nat),
    Event.executed i text r ∈ h → clears s r ≤ 1
  readable : ∀ call ∈ s.calls, call.pc.usesAnswer = true → ∃ a, s.manager.result = .ok a

/-- A query is sent only while no other lookup uses its answer. -/
def NoOverlap : Guard State Action Event :=
  fun _ s a => ∀ (i : Nat) (creds : UserCredentials), a = .advance i →
    s.calls[i]? = some (Call.mk creds Pc.executing) →
      ∀ call ∈ s.calls, call.pc.usesAnswer = false

/-- What a lookup at this statement has already seen of its answer. -/
def Pc.Fits (a : PGresult) : Pc → Prop
  | .executing => False
  | .testing => True
  | .counting => a.status = .tuplesOk
  | .reading => a.status = .tuplesOk ∧ 1 ≤ a.rows.length
  | .clearing userId => readAnswer a = .ok userId
  | .returned userId => readAnswer a = .ok userId

/-! ## What one step does -/

/-- A statement that only looks at the answer behind the result handle. -/
structure Looks (s : State) (i : Nat) (call : Call) (pc : Pc) (a : PGresult) : Prop where
  current : s.calls[i]? = some call
  before : call.pc.usesAnswer = true
  read : s.manager.result = .ok a
  after : pc.usesAnswer = true
  fits : call.pc.Fits a → pc.Fits a

/-- The first look, at the status. -/
theorem looks_of_testing {db : Bytes → PGresult} {s s' : State} {i : Nat}
    {creds : UserCredentials} {e : Event} (hcall : s.calls[i]? = some (Call.mk creds .testing))
    (hstep : advance db s i (Call.mk creds .testing) = some (s', e)) :
    ∃ pc a, e = .tested i ∧ Looks s i (Call.mk creds .testing) pc a ∧
      s' = goOn s i (Call.mk creds .testing) pc := by
  simp only [advance] at hstep
  split at hstep <;> rename_i hread
  · contradiction
  · rename_i a
    cases hstep
    refine ⟨_, a, rfl, ⟨hcall, rfl, hread, ?_, ?_⟩, rfl⟩
    · split <;> rfl
    · intro _
      by_cases hstatus : a.status = .tuplesOk <;> simp [hstatus, Pc.Fits, readAnswer]

/-- The second look, at the number of rows. -/
theorem looks_of_counting {db : Bytes → PGresult} {s s' : State} {i : Nat}
    {creds : UserCredentials} {e : Event} (hcall : s.calls[i]? = some (Call.mk creds .counting))
    (hstep : advance db s i (Call.mk creds .counting) = some (s', e)) :
    ∃ pc a, e = .tested i ∧ Looks s i (Call.mk creds .counting) pc a ∧
      s' = goOn s i (Call.mk creds .counting) pc := by
  simp only [advance] at hstep
  split at hstep <;> rename_i hread
  · contradiction
  · rename_i a
    cases hstep
    refine ⟨_, a, rfl, ⟨hcall, rfl, hread, ?_, ?_⟩, rfl⟩
    · split <;> rfl
    · intro hstatus
      have hok : a.status = .tuplesOk := hstatus
      by_cases hrows : a.rows.length < 1
      · simp [hrows, Pc.Fits, readAnswer]
      · rw [if_neg hrows]
        exact ⟨hok, by omega⟩

/-- The last look, at the first field. -/
theorem looks_of_reading {db : Bytes → PGresult} {s s' : State} {i : Nat}
    {creds : UserCredentials} {e : Event} (hcall : s.calls[i]? = some (Call.mk creds .reading))
    (hstep : advance db s i (Call.mk creds .reading) = some (s', e)) :
    ∃ pc a, e = .tested i ∧ Looks s i (Call.mk creds .reading) pc a ∧
      s' = goOn s i (Call.mk creds .reading) pc := by
  simp only [advance] at hstep
  split at hstep <;> rename_i hread
  · contradiction
  · rename_i value
    cases hstep
    rcases bind_eq_ok_iff.mp hread with ⟨a, ha, hvalue⟩
    refine ⟨_, a, rfl, ⟨hcall, rfl, ha, rfl, ?_⟩, rfl⟩
    intro hseen
    have hrows : ¬ a.rows.length < 1 := by
      have hone := hseen.2
      omega
    simp [Pc.Fits, readAnswer, hseen.1, hrows, hvalue]

/-- The four kinds of steps: a new lookup, a query, a look at the answer, and the
clearing of it. -/
theorem step_cases {db : Bytes → PGresult} {s s' : State} {act : Action} {e : Event}
    (hstep : step db s act = some (s', e)) :
    (∃ creds, act = .call creds ∧ e = .called s.calls.length ∧
      s' = { s with calls := s.calls ++ [{ creds := creds, pc := .executing }] }) ∨
    (∃ i creds text, act = .advance i ∧ s.calls[i]? = some (Call.mk creds .executing) ∧
      lookupText creds = .ok text ∧ e = .executed i text s.manager.results.length ∧
      s' = { goOn s i (Call.mk creds .executing) .testing with
        manager := s.manager.exec db text }) ∨
    (∃ i call pc a, e = .tested i ∧ Looks s i call pc a ∧ s' = goOn s i call pc) ∨
    (∃ i creds userId, s.calls[i]? = some (Call.mk creds (.clearing userId)) ∧
      e = .cleared i s.manager.pgResult ∧
      s' = { goOn s i (Call.mk creds (.clearing userId)) (.returned userId) with
        manager := s.manager.clear }) := by
  cases act with
  | call creds =>
      cases hstep
      exact .inl ⟨creds, rfl, rfl, rfl⟩
  | advance i =>
      right
      simp only [step] at hstep
      split at hstep
      · contradiction
      rename_i callRec hcall
      rcases callRec with ⟨creds, pc⟩
      cases pc with
      | executing =>
          simp only [advance] at hstep
          split at hstep <;> rename_i htext
          · contradiction
          · cases hstep
            exact .inl ⟨i, creds, _, rfl, hcall, htext, rfl, rfl⟩
      | testing =>
          rcases looks_of_testing hcall hstep with ⟨pc, a, hlooks⟩
          exact .inr (.inl ⟨i, _, pc, a, hlooks⟩)
      | counting =>
          rcases looks_of_counting hcall hstep with ⟨pc, a, hlooks⟩
          exact .inr (.inl ⟨i, _, pc, a, hlooks⟩)
      | reading =>
          rcases looks_of_reading hcall hstep with ⟨pc, a, hlooks⟩
          exact .inr (.inl ⟨i, _, pc, a, hlooks⟩)
      | clearing userId =>
          cases hstep
          exact .inr (.inr ⟨i, creds, userId, hcall, rfl, rfl⟩)
      | returned userId => contradiction

/-! ## The invariant of runs without overlap -/

/-- A lookup that uses its answer is the only one that does, the result handle is
its own, and what it has seen so far is what its own query was answered. -/
structure Holds (db : Bytes → PGresult) (h : List Event) (s : State) (i : Nat) (call : Call)
    (text : Bytes) (r : Nat) : Prop where
  asked : lookupText call.creds = .ok text
  sent : Event.executed i text r ∈ h
  current : s.manager.pgResult = some r
  answer : s.manager.results[r]? = some (db text)
  fresh : PqCall.clear (some r) ∉ s.manager.calls
  seen : call.pc.Fits (db text)

/-- Where the answer number `r` of call `i` is: in use, or cleared exactly once. -/
def Settled (s : State) (r : Nat) (call : Call) : Prop :=
  (call.pc.usesAnswer = true ∧ s.manager.pgResult = some r ∧ clears s r = 0) ∨
    ∃ userId, call.pc = .returned userId ∧ clears s r = 1

structure LoginInv (db : Bytes → PGresult) (h : List Event) (s : State) : Prop where
  valid : s.manager.HandlesValid
  single : ∀ (i j : Nat) (ci cj : Call), s.calls[i]? = some ci → s.calls[j]? = some cj →
    ci.pc.usesAnswer = true → cj.pc.usesAnswer = true → i = j
  holds : ∀ (i : Nat) (call : Call), s.calls[i]? = some call → call.pc.usesAnswer = true →
    ∃ text r, Holds db h s i call text r
  settled : ∀ (i : Nat) (text : Bytes) (r : Nat), Event.executed i text r ∈ h →
    r < s.manager.results.length ∧ ∃ call, s.calls[i]? = some call ∧ Settled s r call
  done : ∀ (i : Nat) (creds : UserCredentials) (userId : Option UserID),
    s.calls[i]? = some (Call.mk creds (Pc.returned userId)) →
      ∃ text, lookupText creds = .ok text ∧ readAnswer (db text) = .ok userId

theorem Pc.usesAnswer_ne_returned {pc : Pc} {userId : Option UserID}
    (huses : pc.usesAnswer = true) : pc ≠ .returned userId := by
  rintro rfl
  contradiction

theorem Holds.read {db : Bytes → PGresult} {h : List Event} {s : State} {i : Nat}
    {call : Call} {text : Bytes} {r : Nat} (hold : Holds db h s i call text r) :
    s.manager.result = .ok (db text) := by
  simp [PsqlManager.result, hold.current, hold.fresh, hold.answer]

/-- The other calls stand where they stood. -/
theorem getElem?_goOn_of_ne {s : State} {i j : Nat} {call cj : Call} {pc : Pc} (hij : i ≠ j)
    (hj : s.calls[j]? = some cj) : (goOn s i call pc).calls[j]? = some cj := by
  rw [goOn, List.getElem?_set_ne hij]
  exact hj

/-- Starting a lookup keeps the invariant. -/
theorem LoginInv.call {db : Bytes → PGresult} {h : List Event} {s : State}
    (hinv : LoginInv db h s) (creds : UserCredentials) :
    LoginInv db (h ++ [.called s.calls.length])
      { s with calls := s.calls ++ [{ creds := creds, pc := .executing }] } := by
  constructor
  · exact hinv.valid
  · intro i j ci cj hi hj hui huj
    rcases getElem?_append_cases hi with ⟨_, rfl⟩ | hi
    · contradiction
    rcases getElem?_append_cases hj with ⟨_, rfl⟩ | hj
    · contradiction
    exact hinv.single i j ci cj hi hj hui huj
  · intro i call hi huses
    rcases getElem?_append_cases hi with ⟨_, rfl⟩ | hi
    · contradiction
    rcases hinv.holds i call hi huses with ⟨text, r, hold⟩
    exact ⟨text, r, { hold with sent := List.mem_append_left _ hold.sent }⟩
  · intro i text r hsent
    have hold : Event.executed i text r ∈ h := by simpa using hsent
    rcases hinv.settled i text r hold with ⟨hlt, call, hcall, hsettled⟩
    exact ⟨hlt, call, getElem?_append_of_some hcall, hsettled⟩
  · intro i creds' userId hi
    rcases getElem?_append_cases hi with ⟨_, hnew⟩ | hi
    · cases hnew
    · exact hinv.done i creds' userId hi

/-- A query keeps the invariant while no other lookup uses its answer. -/
theorem LoginInv.exec {db : Bytes → PGresult} {h : List Event} {s : State}
    (hinv : LoginInv db h s) {i : Nat} {creds : UserCredentials} {text : Bytes}
    (hcall : s.calls[i]? = some (Call.mk creds .executing))
    (htext : lookupText creds = .ok text)
    (hfree : ∀ call ∈ s.calls, call.pc.usesAnswer = false) :
    LoginInv db (h ++ [.executed i text s.manager.results.length])
      { goOn s i (Call.mk creds .executing) .testing with
        manager := s.manager.exec db text } := by
  have hfreeAt : ∀ (j : Nat) (cj : Call), s.calls[j]? = some cj → cj.pc.usesAnswer ≠ true := by
    intro j cj hj
    simp [hfree cj (List.mem_of_getElem? hj)]
  have hfresh : PqCall.clear (some s.manager.results.length) ∉ s.manager.calls := by
    intro hmem
    exact Nat.lt_irrefl _ (hinv.valid.cleared _ hmem)
  constructor
  · exact hinv.valid.exec db text
  · intro j k cj ck hj hk huj huk
    rcases getElem?_set_cases hj with ⟨hji, _⟩ | ⟨_, hj⟩
    · rcases getElem?_set_cases hk with ⟨hki, _⟩ | ⟨_, hk⟩
      · rw [hji, hki]
      · exact absurd huk (hfreeAt k ck hk)
    · exact absurd huj (hfreeAt j cj hj)
  · intro j cj hj huj
    rcases getElem?_set_cases hj with ⟨rfl, rfl⟩ | ⟨_, hj⟩
    · refine ⟨text, s.manager.results.length, htext, by simp, rfl, ?_, ?_, trivial⟩
      · simp [PsqlManager.exec]
      · simpa [PsqlManager.exec] using hfresh
    · exact absurd huj (hfreeAt j cj hj)
  · intro j text' r hsent
    rcases List.mem_append.mp hsent with hold | hnew
    · rcases hinv.settled j text' r hold with ⟨hlt, cj, hj, ⟨huses, _⟩ | ⟨userId, hret, hone⟩⟩
      · exact absurd huses (hfreeAt j cj hj)
      · refine ⟨by simp [PsqlManager.exec]; omega, cj, ?_, .inr ⟨userId, hret, ?_⟩⟩
        · have hne : i ≠ j := by
            intro hij
            rw [← hij, hcall] at hj
            cases hj
            contradiction
          exact getElem?_goOn_of_ne hne hj
        · simpa [clears, PsqlManager.exec, List.count_append] using hone
    · cases List.mem_singleton.mp hnew
      refine ⟨by simp [PsqlManager.exec], _, getElem?_set_of_some hcall, .inl ⟨rfl, rfl, ?_⟩⟩
      simpa [clears, PsqlManager.exec, List.count_append, List.count_eq_zero] using hfresh
  · intro j creds' userId hj
    rcases getElem?_set_cases hj with ⟨_, hnew⟩ | ⟨_, hj⟩
    · cases hnew
    · exact hinv.done j creds' userId hj

/-- A look at the answer keeps the invariant. -/
theorem LoginInv.look {db : Bytes → PGresult} {h : List Event} {s : State}
    (hinv : LoginInv db h s) {i : Nat} {call : Call} {pc : Pc} {a : PGresult}
    (hlook : Looks s i call pc a) :
    LoginInv db (h ++ [.tested i]) (goOn s i call pc) := by
  rcases hinv.holds i call hlook.current hlook.before with ⟨text, r, hold⟩
  have hown : a = db text := by
    have hread := hlook.read
    rw [hold.read] at hread
    cases hread
    rfl
  -- a lookup that uses its answer afterwards used it before
  have hbefore : ∀ (j : Nat) (cj : Call), (goOn s i call pc).calls[j]? = some cj →
      cj.pc.usesAnswer = true → j = i := by
    intro j cj hj huj
    rcases getElem?_set_cases hj with ⟨hji, _⟩ | ⟨_, hj⟩
    · exact hji
    · exact hinv.single j i cj call hj hlook.current huj hlook.before
  constructor
  · exact hinv.valid
  · intro j k cj ck hj hk huj huk
    rw [hbefore j cj hj huj, hbefore k ck hk huk]
  · intro j cj hj huj
    have hji := hbefore j cj hj huj
    subst hji
    rcases getElem?_set_cases hj with ⟨_, rfl⟩ | ⟨hne, _⟩
    · refine ⟨text, r, { hold with sent := List.mem_append_left _ hold.sent, seen := ?_ }⟩
      exact hown ▸ hlook.fits (hown ▸ hold.seen)
    · contradiction
  · intro j text' r' hsent
    have hpast : Event.executed j text' r' ∈ h := by simpa using hsent
    rcases hinv.settled j text' r' hpast with ⟨hlt, cj, hj, hsettled⟩
    refine ⟨hlt, ?_⟩
    by_cases hij : i = j
    · subst hij
      rw [hlook.current] at hj
      cases hj
      refine ⟨_, getElem?_set_of_some hlook.current, ?_⟩
      rcases hsettled with ⟨_, hcurrent, hzero⟩ | ⟨userId, hret, _⟩
      · exact .inl ⟨hlook.after, hcurrent, hzero⟩
      · exact absurd hret (Pc.usesAnswer_ne_returned hlook.before)
    · exact ⟨cj, getElem?_goOn_of_ne hij hj, hsettled⟩
  · intro j creds userId hj
    rcases getElem?_set_cases hj with ⟨_, hnew⟩ | ⟨_, hj⟩
    · cases hnew
      exact absurd rfl (Pc.usesAnswer_ne_returned hlook.after)
    · exact hinv.done j creds userId hj

theorem clears_clear (s : State) (calls : List Call) (r : Nat) :
    clears { manager := s.manager.clear, calls := calls } r =
      clears s r + if s.manager.pgResult = some r then 1 else 0 := by
  by_cases hcurrent : s.manager.pgResult = some r <;>
    simp [clears, PsqlManager.clear, List.count_append, hcurrent]

/-- Clearing the answer keeps the invariant. -/
theorem LoginInv.clear {db : Bytes → PGresult} {h : List Event} {s : State}
    (hinv : LoginInv db h s) {i : Nat} {creds : UserCredentials} {userId : Option UserID}
    (hcall : s.calls[i]? = some (Call.mk creds (.clearing userId))) :
    LoginInv db (h ++ [.cleared i s.manager.pgResult])
      { goOn s i (Call.mk creds (.clearing userId)) (.returned userId) with
        manager := s.manager.clear } := by
  rcases hinv.holds i _ hcall rfl with ⟨text, r, hold⟩
  have hfreeAt : ∀ (j : Nat) (cj : Call), j ≠ i → s.calls[j]? = some cj →
      cj.pc.usesAnswer ≠ true := by
    intro j cj hne hj huj
    exact hne (hinv.single j i cj _ hj hcall huj rfl)
  -- no lookup uses an answer any more
  have hnone : ∀ (j : Nat) (cj : Call),
      (s.calls.set i (Call.mk creds (.returned userId)))[j]? = some cj →
        cj.pc.usesAnswer ≠ true := by
    intro j cj hj
    rcases getElem?_set_cases hj with ⟨_, rfl⟩ | ⟨hne, hj⟩
    · simp [Pc.usesAnswer]
    · exact hfreeAt j cj hne hj
  constructor
  · exact hinv.valid.clear
  · intro j k cj ck hj _ huj _
    exact absurd huj (hnone j cj hj)
  · intro j cj hj huj
    exact absurd huj (hnone j cj hj)
  · intro j text' r' hsent
    have hpast : Event.executed j text' r' ∈ h := by simpa using hsent
    rcases hinv.settled j text' r' hpast with ⟨hlt, cj, hj, hsettled⟩
    refine ⟨hlt, ?_⟩
    by_cases hij : i = j
    · subst hij
      rw [hcall] at hj
      cases hj
      refine ⟨_, getElem?_set_of_some hcall, .inr ⟨userId, rfl, ?_⟩⟩
      rcases hsettled with ⟨_, hcurrent, hzero⟩ | ⟨_, hret, _⟩
      · rw [clears_clear, hzero, if_pos hcurrent]
      · cases hret
    · refine ⟨cj, getElem?_goOn_of_ne hij hj, ?_⟩
      rcases hsettled with ⟨huj, _⟩ | ⟨ret, hret, hone⟩
      · exact absurd huj (hfreeAt j cj (Ne.symm hij) hj)
      · refine .inr ⟨ret, hret, ?_⟩
        -- the answer cleared now has not been cleared before, so it is another one
        have hother : s.manager.pgResult ≠ some r' := by
          intro hcurrent
          rw [hold.current] at hcurrent
          cases hcurrent
          have hzero : clears s r = 0 := List.count_eq_zero.mpr hold.fresh
          omega
        rw [clears_clear, hone, if_neg hother]
  · intro j creds' ret hj
    rcases getElem?_set_cases hj with ⟨_, hnew⟩ | ⟨_, hj⟩
    · cases hnew
      exact ⟨text, hold.asked, hold.seen⟩
    · exact hinv.done j creds' ret hj

theorem loginInv_start (db : Bytes → PGresult) {m₀ : PsqlManager} (hm : m₀.HandlesValid) :
    LoginInv db [] { manager := m₀ } := by
  constructor
  · exact hm
  all_goals simp

/-- The invariant of all runs in which no two lookups overlap. -/
theorem loginInv_run {db : Bytes → PGresult} {m₀ : PsqlManager} (hm : m₀.HandlesValid)
    {h : List Event} {s : State} (hrun : (system db m₀).Run NoOverlap h s) :
    LoginInv db h s := by
  refine hrun.invariant (loginInv_start db hm) ?_
  intro h s act s' e _ hinv hguard hstep
  rcases step_cases hstep with ⟨creds, _, rfl, rfl⟩ |
    ⟨i, creds, text, hact, hcall, htext, rfl, rfl⟩ | ⟨i, call, pc, a, rfl, hlook, rfl⟩ |
    ⟨i, creds, userId, hcall, rfl, rfl⟩
  · exact hinv.call creds
  · exact hinv.exec hcall htext (hguard i creds hact hcall)
  · exact hinv.look hlook
  · exact hinv.clear hcall

theorem LoginInv.atMostOnce {db : Bytes → PGresult} {h : List Event} {s : State}
    (hinv : LoginInv db h s) {i : Nat} {text : Bytes} {r : Nat}
    (hsent : Event.executed i text r ∈ h) : clears s r ≤ 1 := by
  rcases hinv.settled i text r hsent with ⟨_, _, _, ⟨_, _, hzero⟩ | ⟨_, _, hone⟩⟩
  · omega
  · omega

/-- A lookup with this text returns what the answer to the text says. -/
theorem findUserByCreds_of_lookupText {m : PsqlManager} (hm : m.HandlesValid)
    {db : Bytes → PGresult} {creds : UserCredentials} {text : Bytes} {ret : Option UserID}
    (htext : lookupText creds = .ok text) (hret : readAnswer (db text) = .ok ret) :
    ∃ m', m.findUserByCreds db creds = .ok (ret, m') := by
  simp only [lookupText, bind_eq_ok_iff] at htext
  rcases htext with ⟨email, hemail, password, hpassword, htext⟩
  cases htext
  exact ⟨_, findUserByCreds_eq_ok hm hemail hpassword hret⟩

/-- While no two lookups overlap, each of them returns what it returns alone, and
clears its own answer once. -/
theorem loginsIsolated_of_run {db : Bytes → PGresult} {m₀ : PsqlManager}
    (hm : m₀.HandlesValid) {h : List Event} {s : State}
    (hrun : (system db m₀).Run NoOverlap h s) : Isolated db m₀ h s := by
  have hinv := loginInv_run hm hrun
  constructor
  · intro i creds userId hcall
    rcases hinv.done i creds userId hcall with ⟨text, htext, hret⟩
    exact findUserByCreds_of_lookupText hm htext hret
  · intro i text r creds userId hsent hcall
    rcases hinv.settled i text r hsent with ⟨_, call, hcall', ⟨huses, _⟩ | ⟨_, _, hone⟩⟩
    · rw [hcall] at hcall'
      cases hcall'
      contradiction
    · exact hone
  · intro i text r hsent
    exact hinv.atMostOnce hsent
  · intro call hmem huses
    rcases List.getElem?_of_mem hmem with ⟨i, hi⟩
    rcases hinv.holds i call hi huses with ⟨text, r, hold⟩
    exact ⟨_, hold.read⟩

/-! ## What follows an overlap -/

/-- The answer has been overwritten before it was cleared. -/
structure Overwritten (s : State) (r : Nat) : Prop where
  handed_out : r < s.manager.results.length
  not_current : s.manager.pgResult ≠ some r
  not_cleared : PqCall.clear (some r) ∉ s.manager.calls

/-- A query overwrites every answer handed out before. -/
theorem overwritten_exec {s : State} {r : Nat} (hlt : r < s.manager.results.length)
    (hfresh : PqCall.clear (some r) ∉ s.manager.calls) (db : Bytes → PGresult) (text : Bytes)
    (calls : List Call) :
    Overwritten { manager := s.manager.exec db text, calls := calls } r := by
  refine ⟨?_, ?_, ?_⟩
  · simp only [PsqlManager.exec, List.length_append, List.length_singleton]
    omega
  · simp only [PsqlManager.exec, ne_eq, Option.some.injEq]
    omega
  · simpa [PsqlManager.exec] using hfresh

/-- No step reaches an overwritten answer again. -/
theorem Overwritten.step {db : Bytes → PGresult} {s s' : State} {act : Action} {e : Event}
    {r : Nat} (hover : Overwritten s r) (hstep : step db s act = some (s', e)) :
    Overwritten s' r := by
  rcases hover with ⟨hlt, hcurrent, hfresh⟩
  rcases step_cases hstep with ⟨creds, _, _, rfl⟩ | ⟨i, creds, text, _, _, _, _, rfl⟩ |
    ⟨i, call, pc, a, _, _, rfl⟩ | ⟨i, creds, userId, _, _, rfl⟩
  · exact ⟨hlt, hcurrent, hfresh⟩
  · exact overwritten_exec hlt hfresh db text _
  · exact ⟨hlt, hcurrent, hfresh⟩
  · refine ⟨hlt, hcurrent, ?_⟩
    intro hmem
    rcases List.mem_append.mp hmem with hold | hnew
    · exact hfresh hold
    · have hsame : s.manager.pgResult = some r := by simpa [eq_comm] using hnew
      exact hcurrent hsame

/-- After the first overlap of a run, the lookup whose answer was overwritten
cannot return without breaking isolation, whatever happens next. -/
theorem not_isolated_after_overlap {db : Bytes → PGresult} {m₀ : PsqlManager}
    (hm : m₀.HandlesValid) {h₁ : List Event} {s₁ s₂ : State} {act : Action} {e : Event}
    (hrun : (system db m₀).Run NoOverlap h₁ s₁) (hoverlap : ¬ NoOverlap h₁ s₁ act)
    (hstep : step db s₁ act = some (s₂, e)) :
    ∃ (i : Nat) (call : Call), s₁.calls[i]? = some call ∧ call.pc.usesAnswer = true ∧
      ∀ (as : List Action) (h : List Event) (s : State),
        (system db m₀).execFrom (fun _ _ _ => true) (h₁ ++ [e]) s₂ as = some (h, s) →
          ∀ creds userId, s.calls[i]? = some (Call.mk creds (.returned userId)) →
            ¬ Isolated db m₀ h s := by
  have hinv := loginInv_run hm hrun
  have huser : ∃ (j : Nat) (creds : UserCredentials) (call : Call), act = .advance j ∧
      s₁.calls[j]? = some (Call.mk creds Pc.executing) ∧ call ∈ s₁.calls ∧
      call.pc.usesAnswer = true := by
    by_contra hnone
    refine hoverlap fun j creds hact hj call hmem => ?_
    by_contra huses
    exact hnone ⟨j, creds, call, hact, hj, hmem, by simpa using huses⟩
  rcases huser with ⟨j, creds, call, rfl, hj, hmem, huses⟩
  rcases List.getElem?_of_mem hmem with ⟨i, hi⟩
  rcases hinv.holds i call hi huses with ⟨text, r, hold⟩
  have hlt : r < s₁.manager.results.length := hinv.valid.current r hold.current
  have hover : Overwritten s₂ r := by
    simp only [step, hj, advance] at hstep
    split at hstep
    · contradiction
    · cases hstep
      exact overwritten_exec hlt hold.fresh db _ _
  refine ⟨i, call, hi, huses, ?_⟩
  intro as h s hexec creds' userId hreturned hisolated
  have hlast : Event.executed i text r ∈ h ∧ Overwritten s r :=
    execFrom_invariant (I := fun h s => Event.executed i text r ∈ h ∧ Overwritten s r)
      (fun _ _ _ _ _ hprev _ hnext =>
        ⟨List.mem_append_left _ hprev.1, hprev.2.step hnext⟩)
      ⟨List.mem_append_left _ hold.sent, hover⟩ hexec
  have hone := hisolated.cleared i text r creds' userId hlast.1 hreturned
  have hzero : clears s r = 0 := List.count_eq_zero.mpr hlast.2.not_cleared
  omega

/-! ## Two users log in -/

/-- The check of {lit}`NoOverlap` on a state. -/
def overlapFree (s : State) : Action → Bool
  | .call _ => true
  | .advance i =>
      match s.calls[i]? with
      | some { creds := _, pc := .executing } => s.calls.all fun call => !call.pc.usesAnswer
      | _ => true

theorem noOverlap_of_overlapFree (h : List Event) (s : State) (act : Action)
    (hfree : overlapFree s act = true) : NoOverlap h s act := by
  rintro i creds rfl hcall call hmem
  have hall : (s.calls.all fun call => !call.pc.usesAnswer) = true := by
    simpa [overlapFree, hcall] using hfree
  simpa using List.all_eq_true.mp hall call hmem

def firstUser : UserRow :=
  ⟨1, ascii "user1", ascii "user1_pass", ascii "user1@mail.com"⟩

def secondUser : UserRow :=
  ⟨2, ascii "user2", ascii "user2_pass", ascii "user2@mail.com"⟩

/-- Two of the users that the server registers. -/
def twoUsers : List UserRow :=
  [firstUser, secondUser]

def credsOf (row : UserRow) : UserCredentials where
  email := CharArray.ofText sizeofCredential row.email
  password := CharArray.ofText sizeofCredential row.password

/-- Both lookups, with the statements of call 0 and call 1 in the given order. -/
def bothLogins (order : List Nat) : List Action :=
  twoUsers.map (fun row => .call (credsOf row)) ++ order.map .advance

/-- One lookup after the other. -/
theorem loginsIsolated_sequential :
    ∃ h s, (system (lookupServer twoUsers) {}).Run NoOverlap h s ∧
      s.calls.map (·.pc) = [.returned (some 1), .returned (some 2)] ∧
      Isolated (lookupServer twoUsers) {} h s := by
  have hexec : ((system (lookupServer twoUsers) {}).execFrom (fun _ => overlapFree) []
      { manager := {} } (bothLogins [0, 0, 0, 0, 0, 1, 1, 1, 1, 1])).map
        (fun run => run.2.calls.map (·.pc)) =
      some [.returned (some 1), .returned (some 2)] := by
    decide +kernel
  rcases Option.map_eq_some_iff.mp hexec with ⟨⟨h, s⟩, hexec, hpcs⟩
  have hrun : (system (lookupServer twoUsers) {}).Run NoOverlap h s :=
    Run.of_execFrom noOverlap_of_overlapFree .start hexec
  exact ⟨h, s, hrun, hpcs, loginsIsolated_of_run handlesValid_default hrun⟩

/-- Both queries are sent before the first answer is read: the first user is
logged in as the second one. -/
theorem loginsIsolated_fails :
    ∃ h s, (system (lookupServer twoUsers) {}).Run Any h s ∧
      ¬ Isolated (lookupServer twoUsers) {} h s := by
  have hexec : ((system (lookupServer twoUsers) {}).exec
      (bothLogins [0, 1, 0, 0, 0, 0])).map (fun run => run.2.calls[0]?) =
      some (some (Call.mk (credsOf firstUser) (.returned (some 2)))) := by
    decide +kernel
  rcases Option.map_eq_some_iff.mp hexec with ⟨⟨h, s⟩, hexec, hcall⟩
  refine ⟨h, s, Run.of_exec hexec, ?_⟩
  intro hisolated
  rcases hisolated.alone 0 _ _ hcall with ⟨m', hfind⟩
  have halone : (PsqlManager.findUserByCreds {} (lookupServer twoUsers)
      (credsOf firstUser)).map (·.1) = .ok (some 1) := by
    rfl
  rw [hfind] at halone
  cases halone

end Logins

end SimpleMessenger
