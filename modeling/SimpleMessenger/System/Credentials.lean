import SimpleMessenger.Server.Accounts
import SimpleMessenger.System.Conversation

/-!
# Whose texts a client shows

The clients log in with credentials, the server looks them up in its database, and the
answers decide who takes part in the conversation.  The accounts are those that earlier
servers and the constructor of this one have registered.

Main results:

- Theorems {lit}`messenger_run` and {lit}`accounts_run`: the messenger and the database take
  runs of their own.
- Theorem {lit}`answered_run`: an answer is right as long as the server works.
- Theorem {lit}`private_run`: a client shows texts to the account that it was started with,
  from clients that were started with the accounts of their senders.

Current gaps:

- No two lookups overlap, so that each is one step, in which its client starts; overlapping
  ones can exchange their answers.
- The connection to the database is not lost.
-/

universe u

namespace SimpleMessenger

open CMemory SqlText StepSystem GrpcEndpointClient

namespace Credentials

/-! ## The messenger and its database -/

structure State (δ : Type u) where
  accounts : Accounts.State δ
  messenger : Messenger.State := {}

inductive Action where
  /-- An earlier server works on the database, or the constructor of this one. -/
  | prepare (a : Accounts.Action)
  /-- A client starts, and its login request is looked up, while no other one is. -/
  | start (userCreds : UserCredentials) (userName stdin : Bytes)
  /-- Any other step of the messenger. -/
  | work (a : Messenger.Action)

inductive Event where
  | prepared (e : Accounts.Event)
  /-- Client `k` has requested access, and the database has answered. -/
  | started (k : Nat) (request : ProtobufItf.UserCredentials) (answer : Option UserID)
      (e : Messenger.Event)
  | worked (e : Messenger.Event)

variable {δ : Type u}

/-- `connectToServer` up to the end of the lookup in its handler; no other lookup overlaps
with this one. -/
def start (D : Accounts.Database δ) (s : State δ) (userCreds : UserCredentials)
    (userName stdin : Bytes) : Option (State δ × Event) :=
  match loginRequest userCreds with
  | .error _ => none
  | .ok request =>
      match Accounts.step D s.accounts (.login request) with
      | some (accounts, .lookedUp _ _ answer) =>
          (Messenger.step s.messenger (.start userName stdin answer)).map fun (messenger, e) =>
            ({ accounts := accounts, messenger := messenger },
              .started s.messenger.clients.length request answer e)
      | _ => none

/-- One step; a server that has clients registers nobody. -/
def step (D : Accounts.Database δ) (s : State δ) : Action → Option (State δ × Event)
  | .prepare a =>
      if s.messenger.clients.isEmpty then
        (Accounts.step D s.accounts a).map fun (accounts, e) =>
          ({ s with accounts := accounts }, .prepared e)
      else none
  | .start userCreds userName stdin => start D s userCreds userName stdin
  | .work (.start _ _ _) => none
  | .work a =>
      (Messenger.step s.messenger a).map fun (messenger, e) =>
        ({ s with messenger := messenger }, .worked e)

/-- A database before its first server. -/
def service (D : Accounts.Database δ) (d : δ) : StepSystem (State δ) Action Event where
  init := { accounts := { database := d } }
  step := step D

/-- What the accounts show. -/
def Event.accounts? : Event → Option Accounts.Event
  | .prepared e => some e
  | .started _ request answer _ => some (.lookedUp request.email request.password answer)
  | .worked _ => none

/-- What the messenger shows. -/
def Event.messenger? : Event → Option Messenger.Event
  | .prepared _ => none
  | .started _ _ _ e => some e
  | .worked e => some e

/-- The lookups and registrations of a history. -/
abbrev bookkeeping (h : List Event) : List Accounts.Event :=
  h.filterMap Event.accounts?

/-- The conversation of a history. -/
abbrev talk (h : List Event) : List Messenger.Event :=
  h.filterMap Event.messenger?

/-- The texts of credentials are without a quote, and new mailboxes are empty. -/
def Admitted : Guard (State δ) Action Event := fun h s a =>
  match a with
  | .prepare b => Accounts.Fits (bookkeeping h) s.accounts b
  | .start userCreds _ _ =>
      ∀ request, loginRequest userCreds = .ok request →
        quote ∉ request.email ∧ quote ∉ request.password
  | .work b => Messenger.FreshMailboxes (talk h) s.messenger b

/-! ## The kinds of steps -/

/-- Everything one step can do. -/
inductive Steps (D : Accounts.Database δ) (s : State δ) : Action → State δ → Event → Prop where
  | prepared {a : Accounts.Action} {accounts : Accounts.State δ} {e : Accounts.Event}
      (hempty : s.messenger.clients = [])
      (hstep : Accounts.step D s.accounts a = some (accounts, e)) :
      Steps D s (.prepare a) { s with accounts := accounts } (.prepared e)
  | started {userCreds : UserCredentials} {userName stdin : Bytes}
      {request : ProtobufItf.UserCredentials} {answer : Option UserID}
      {accounts : Accounts.State δ} {messenger : Messenger.State} {e : Messenger.Event}
      (hrequest : loginRequest userCreds = .ok request)
      (haccounts : Accounts.step D s.accounts (.login request) =
        some (accounts, .lookedUp request.email request.password answer))
      (hmessenger : Messenger.step s.messenger (.start userName stdin answer) =
        some (messenger, e)) :
      Steps D s (.start userCreds userName stdin)
        { accounts := accounts, messenger := messenger }
        (.started s.messenger.clients.length request answer e)
  | worked {a : Messenger.Action} {messenger : Messenger.State} {e : Messenger.Event}
      (ha : ∀ userName stdin answer, a ≠ .start userName stdin answer)
      (hstep : Messenger.step s.messenger a = some (messenger, e)) :
      Steps D s (.work a) { s with messenger := messenger } (.worked e)

variable {D : Accounts.Database δ} {d : δ} {s s' : State δ} {a : Action} {e : Event}
  {h : List Event}

theorem steps_of_start {userCreds : UserCredentials} {userName stdin : Bytes}
    (hstep : start D s userCreds userName stdin = some (s', e)) :
    Steps D s (.start userCreds userName stdin) s' e := by
  unfold start at hstep
  split at hstep
  · cases hstep
  · rename_i request hrequest
    split at hstep
    · rename_i accounts email password answer haccounts
      rcases Option.map_eq_some_iff.mp hstep with ⟨⟨messenger, e'⟩, hmessenger, hpair⟩
      cases hpair
      refine .started hrequest ?_ hmessenger
      -- the lookup is one with the texts of the request
      rcases Option.map_eq_some_iff.mp haccounts with ⟨_, _, hsame⟩
      cases hsame
      exact haccounts
    · cases hstep

/-- Every computed step is of one of the kinds. -/
theorem steps_of_step (hstep : step D s a = some (s', e)) : Steps D s a s' e := by
  cases a with
  | prepare a =>
      simp only [step] at hstep
      split_ifs at hstep with hempty
      rcases Option.map_eq_some_iff.mp hstep with ⟨⟨accounts, e'⟩, haccounts, hpair⟩
      cases hpair
      exact .prepared (List.isEmpty_iff.mp hempty) haccounts
  | start userCreds userName stdin => exact steps_of_start hstep
  | work b =>
      have hwork : (∀ userName stdin answer, b ≠ .start userName stdin answer) →
          ((Messenger.step s.messenger b).map fun (messenger, e) =>
            (({ s with messenger := messenger } : State δ), Event.worked e)) = some (s', e) →
          Steps D s (.work b) s' e := by
        intro hb hmap
        rcases Option.map_eq_some_iff.mp hmap with ⟨⟨messenger, e'⟩, hmessenger, hpair⟩
        cases hpair
        exact .worked hb hmessenger
      cases b with
      | start userName stdin answer => cases hstep
      | _ => exact hwork (by simp) hstep

/-! ## The two parts -/

/-- Where `acceptConnection` stands with an answer of the database. -/
def Answering (answer : Option UserID) (handler : GrpcEndpointServer.Handler) : Prop :=
  match answer with
  | none => handler = .returned .CANCELLED
  | some userId => handler = .connecting userId ∨ handler = .returned .OK

/-- A call that answers a login goes on to do so. -/
theorem Answering.step {server server' : GrpcEndpointServer.State}
    {b : GrpcEndpointServer.Action} {d : GrpcEndpointServer.Event} {call : Nat}
    {handler : GrpcEndpointServer.Handler} {answer : Option UserID}
    (hanswering : Answering answer handler) (hcall : server.handlers[call]? = some handler)
    (hsteps : GrpcEndpointServer.Steps server b server' d) :
    ∃ handler', server'.handlers[call]? = some handler' ∧ Answering answer handler' := by
  have hkeeps : ∀ {c : Nat} {before after : GrpcEndpointServer.Handler} {box : PostBox},
      server.handlers[c]? = some before → ¬ Answering answer before →
        ∃ handler', (server.goOn c after box).handlers[call]? = some handler' ∧
          Answering answer handler' := by
    intro c before after box hc hnot
    refine ⟨handler, GrpcEndpointServer.State.goOn_keeps hcall hc ?_ box, hanswering⟩
    rintro rfl
    exact hnot hanswering
  have hother : ∀ {before : GrpcEndpointServer.Handler}, before ≠ .returned .CANCELLED →
      before ≠ .returned .OK → (∀ userId, before ≠ .connecting userId) →
        ¬ Answering answer before := by
    intro before hcancelled hok hconnecting hbefore
    cases answer with
    | none => exact hcancelled hbefore
    | some userId => exact hbefore.elim (hconnecting userId) hok
  cases hsteps with
  | start hstart => exact ⟨handler, getElem?_append_of_some hcall, hanswering⟩
  | @add c userId stack heap hc =>
      by_cases hsame : c = call
      · subst hsame
        rw [hc] at hcall
        cases hcall
        cases answer with
        | none => cases hanswering
        | some userId' => exact ⟨_, getElem?_set_of_some hc, .inr rfl⟩
      · exact ⟨handler, by
          rw [GrpcEndpointServer.State.goOn, List.getElem?_set_ne hsame, hcall], hanswering⟩
  | exit hc => exact hkeeps hc (hother (by simp) (by simp) (by simp))
  | check hc hcheck =>
      cases hcheck <;> exact hkeeps hc (hother (by simp) (by simp) (by simp))
  | push hc hpush => exact hkeeps hc (hother (by simp) (by simp) (by simp))
  | pop hc hpop => exact hkeeps hc (hother (by simp) (by simp) (by simp))
  | write hc hencode => exact hkeeps hc (hother (by simp) (by simp) (by simp))

section Logins

variable {m m' : Messenger.State} {b : Messenger.Action} {x : Messenger.Event} {k call : Nat}
  {client : Messenger.Client} {answer : Option UserID}

/-- A login under way was under way before the step, or starts in it. -/
theorem connecting_cases (hsteps : Messenger.Steps m b m' x)
    (hk : m'.clients[k]? = some client) (hlogin : client.login = .connecting call answer) :
    (∃ before, m.clients[k]? = some before ∧ before.login = .connecting call answer) ∨
      (k = m.clients.length ∧ call = m.server.handlers.length ∧
        ∃ userName stdin, b = .start userName stdin answer) := by
  have hset : ∀ {j : Nat} {before after : Messenger.Client}, m.clients[j]? = some before →
      (m.clients.set j after)[k]? = some client →
        (after.login = .connecting call answer → before.login = .connecting call answer) →
          ∃ before, m.clients[k]? = some before ∧ before.login = .connecting call answer := by
    intro j before after hj hk hsame
    rcases getElem?_set_cases hk with ⟨rfl, rfl⟩ | ⟨_, hold⟩
    · exact ⟨before, hj, hsame hlogin⟩
    · exact ⟨client, hold, hlogin⟩
  cases hsteps with
  | start hserver =>
      rcases getElem?_append_cases hk with ⟨rfl, rfl⟩ | hold
      · cases hlogin
        exact .inr ⟨rfl, rfl, _, _, rfl⟩
      · exact .inl ⟨client, hold, hlogin⟩
  | granted hj _ _ => exact .inl (hset hj hk (by simp))
  | refused hj _ => exact .inl (hset hj hk (by simp))
  | ask hj _ => exact .inl (hset hj hk id)
  | send hj _ _ _ _ => exact .inl (hset hj hk id)
  | lose hj _ => exact .inl (hset hj hk id)
  | proceed hj _ _ => exact .inl (hset hj hk id)
  | abandon hj _ => exact .inl (hset hj hk id)
  | listen hj _ _ _ => exact .inl (hset hj hk id)
  | print hj _ _ _ => exact .inl (hset hj hk id)
  | hangUp hj _ => exact .inl (hset hj hk id)
  | serve ha hserver =>
      rw [List.getElem?_map] at hk
      rcases Option.map_eq_some_iff.mp hk with ⟨before, hbefore, rfl⟩
      exact .inl ⟨before, hbefore, by simpa using hlogin⟩

end Logins

/-! ## Answers of the database -/

/-- The accounts of a history. -/
abbrev book (D : Accounts.Database δ) (d : δ) (h : List Event) : List Accounts.Account :=
  Accounts.accounts ((D.users d).map Accounts.account) (bookkeeping h)

/-- Whether the server of a history has its database. -/
abbrev connected (h : List Event) : Bool :=
  Accounts.connected (bookkeeping h)

/-- A lookup of the texts in the accounts of the history has this answer. -/
def Right (D : Accounts.Database δ) (d : δ) (h : List Event)
    (request : ProtobufItf.UserCredentials) (answer : Option UserID) : Prop :=
  ∀ id, answer = some id ↔
    connected h = true ∧ ⟨request.email, request.password, id⟩ ∈ book D d h

/-- Every client has had one answer, which is still right, and the reply to a login under way
is the answer that this client has had. -/
structure Answered (D : Accounts.Database δ) (d : δ) (h : List Event) (s : State δ) : Prop where
  underWay : ∀ k client call answer, s.messenger.clients[k]? = some client →
    client.login = .connecting call answer → (∃ request e, .started k request answer e ∈ h) ∧
      ∃ handler, s.messenger.server.handlers[call]? = some handler ∧ Answering answer handler
  known : ∀ k request answer e, .started k request answer e ∈ h →
    k < s.messenger.clients.length
  once : ∀ k request request' answer answer' e e', .started k request answer e ∈ h →
    .started k request' answer' e' ∈ h → request = request' ∧ answer = answer'
  right : ∀ k request answer e, .started k request answer e ∈ h → Right D d h request answer

/-- Neither a lookup nor the conversation changes the accounts. -/
theorem right_snoc_iff {request : ProtobufItf.UserCredentials} {answer : Option UserID}
    (he : ∀ b, e ≠ .prepared b) :
    Right D d (h ++ [e]) request answer ↔ Right D d h request answer := by
  have hbook : book D d (h ++ [e]) = book D d h ∧ connected (h ++ [e]) = connected h := by
    cases e with
    | prepared b => exact absurd rfl (he b)
    | started k request answer x =>
        have hsnoc : bookkeeping (h ++ [.started k request answer x]) =
            bookkeeping h ++ [.lookedUp request.email request.password answer] :=
          filterMap_snoc Event.accounts? h _
        rw [book, connected, hsnoc, Accounts.accounts_snoc, Accounts.connected_snoc]
        simp [Accounts.Event.account?, Accounts.Event.constructed?]
    | worked x =>
        have hsnoc : bookkeeping (h ++ [.worked x]) = bookkeeping h ++ [] :=
          filterMap_snoc Event.accounts? h _
        rw [book, connected, hsnoc, List.append_nil]
        exact ⟨rfl, rfl⟩
  rw [Right, Right, hbook.1, hbook.2]

/-- A step of the messenger goes on with the calls that answer logins. -/
theorem answering_of_steps {m m' : Messenger.State} {b : Messenger.Action} {x : Messenger.Event}
    (hsteps : Messenger.Steps m b m' x) {g : List Messenger.Event}
    (hfresh : Messenger.FreshMailboxes g m b) {call : Nat} {answer : Option UserID}
    (hanswering : ∃ handler, m.server.handlers[call]? = some handler ∧ Answering answer handler) :
    ∃ handler, m'.server.handlers[call]? = some handler ∧ Answering answer handler := by
  rcases hanswering with ⟨handler, hcall, hanswering⟩
  rcases hsteps.server hfresh with ⟨_, hsame⟩ | ⟨c, d, _, _, hserver⟩
  · exact ⟨handler, hsame ▸ hcall, hanswering⟩
  · exact hanswering.step hcall (GrpcEndpointServer.steps_of_step hserver)

/-- A login that starts has a call of its own, which answers it. -/
theorem answering_of_start {m m' : Messenger.State} {userName stdin : Bytes}
    {answer : Option UserID} {x : Messenger.Event}
    (hstep : Messenger.step m (.start userName stdin answer) = some (m', x)) :
    (∃ handler, m'.server.handlers[m.server.handlers.length]? = some handler ∧
      Answering answer handler) ∧ m'.clients.length = m.clients.length + 1 := by
  cases answer with
  | none =>
      cases hstep
      exact ⟨⟨_, List.getElem?_concat_length, rfl⟩, by simp⟩
  | some userId =>
      cases hstep
      exact ⟨⟨_, List.getElem?_concat_length, .inl rfl⟩, by simp⟩

/-- Clients stay clients. -/
theorem length_le_of_steps {m m' : Messenger.State} {b : Messenger.Action} {x : Messenger.Event}
    (hsteps : Messenger.Steps m b m' x) : m.clients.length ≤ m'.clients.length := by
  cases hsteps <;> simp [Messenger.State.set]

/-- A new client is answered rightly. -/
theorem Answered.started {accounts : Accounts.State δ} {request : ProtobufItf.UserCredentials}
    {answer : Option UserID} {m : Messenger.State} {userName stdin : Bytes} {x : Messenger.Event}
    (hold : Answered D d h s) (hright : Right D d h request answer)
    (hstep : Messenger.step s.messenger (.start userName stdin answer) = some (m, x)) :
    Answered D d (h ++ [.started s.messenger.clients.length request answer x])
      { accounts := accounts, messenger := m } := by
  have hcases : ∀ {k request' answer' x'}, .started k request' answer' x' ∈
      h ++ [.started s.messenger.clients.length request answer x] →
        .started k request' answer' x' ∈ h ∨
          (k = s.messenger.clients.length ∧ request' = request ∧ answer' = answer) := by
    intro k request' answer' x' hmem
    rcases List.mem_append.mp hmem with hin | hlast
    · exact .inl hin
    · cases List.mem_singleton.mp hlast
      exact .inr ⟨rfl, rfl, rfl⟩
  rcases answering_of_start hstep with ⟨hanswering, hlength⟩
  have hsteps := Messenger.steps_of_step hstep
  constructor
  · intro k client call answer' hk hlogin
    rcases connecting_cases hsteps hk hlogin with
      ⟨before, hbefore, hconnecting⟩ | ⟨rfl, rfl, userName', stdin', hsame⟩
    · rcases hold.underWay k before call answer' hbefore hconnecting with
        ⟨⟨request', x', hmem⟩, hanswering'⟩
      refine ⟨⟨request', x', List.mem_append_left _ hmem⟩, ?_⟩
      refine answering_of_steps (g := []) hsteps ?_ hanswering'
      intro b hb
      cases hb
    · cases hsame
      exact ⟨⟨request, x, by simp⟩, hanswering⟩
  · intro k request' answer' x' hmem
    show k < m.clients.length
    rw [hlength]
    rcases hcases hmem with hin | ⟨rfl, _, _⟩
    · exact Nat.lt_succ_of_lt (hold.known k _ _ _ hin)
    · exact Nat.lt_succ_self _
  · intro k r₁ r₂ a₁ a₂ x₁ x₂ hmem₁ hmem₂
    rcases hcases hmem₁ with hin₁ | ⟨rfl, rfl, rfl⟩
    · rcases hcases hmem₂ with hin₂ | ⟨rfl, _, _⟩
      · exact hold.once k r₁ r₂ a₁ a₂ x₁ x₂ hin₁ hin₂
      · exact absurd (hold.known _ _ _ _ hin₁) (Nat.lt_irrefl _)
    · rcases hcases hmem₂ with hin₂ | ⟨_, rfl, rfl⟩
      · exact absurd (hold.known _ _ _ _ hin₂) (Nat.lt_irrefl _)
      · exact ⟨rfl, rfl⟩
  · intro k request' answer' x' hmem
    rw [right_snoc_iff (by simp)]
    rcases hcases hmem with hin | ⟨_, rfl, rfl⟩
    · exact hold.right k _ _ _ hin
    · exact hright

/-- The messenger goes on with the answers there are. -/
theorem Answered.worked {b : Messenger.Action} {m : Messenger.State} {x : Messenger.Event}
    (hold : Answered D d h s) (hb : ∀ userName stdin answer, b ≠ .start userName stdin answer)
    (hfresh : Messenger.FreshMailboxes (talk h) s.messenger b)
    (hsteps : Messenger.Steps s.messenger b m x) :
    Answered D d (h ++ [.worked x]) { s with messenger := m } := by
  have hin : ∀ {k request answer x'}, .started k request answer x' ∈ h ++ [.worked x] →
      .started k request answer x' ∈ h := by
    intro k request answer x' hmem
    simpa using hmem
  constructor
  · intro k client call answer hk hlogin
    rcases connecting_cases hsteps hk hlogin with
      ⟨before, hbefore, hconnecting⟩ | ⟨_, _, userName, stdin, hstart⟩
    · rcases hold.underWay k before call answer hbefore hconnecting with
        ⟨⟨request, x', hmem⟩, hanswering⟩
      exact ⟨⟨request, x', List.mem_append_left _ hmem⟩,
        answering_of_steps hsteps hfresh hanswering⟩
    · exact absurd hstart (hb userName stdin answer)
  · intro k request answer x' hmem
    exact (hold.known k request answer x' (hin hmem)).trans_le (length_le_of_steps hsteps)
  · intro k r₁ r₂ a₁ a₂ x₁ x₂ hmem₁ hmem₂
    exact hold.once k r₁ r₂ a₁ a₂ x₁ x₂ (hin hmem₁) (hin hmem₂)
  · intro k request answer x' hmem
    rw [right_snoc_iff (by simp)]
    exact hold.right k request answer x' (hin hmem)

/-- The test of {lit}`Admitted`, for a database that TCP does not reach. -/
def admitted (_ : List Event) (s : State (List PsqlManager.UserRow)) : Action → Bool
  | .prepare a => Accounts.fits [] s.accounts a
  | .start userCreds _ _ => quote ∉ userCreds.email.bytes && quote ∉ userCreds.password.bytes
  | .work a => Messenger.cursorsEmpty a

theorem quote_notMem_of_cstring {n : Nat} {a : CharArray n} {text : Bytes}
    (htext : a.cstring = .ok text) (hquote : quote ∉ a.bytes) : quote ∉ text := by
  rcases CharArray.cstring_eq_ok_iff.mp htext with ⟨_, rfl⟩
  exact fun hmem => hquote ((cstr_isPrefix a.bytes).subset hmem)

theorem admitted_of_test (h : List Event) (s : State (List PsqlManager.UserRow)) (a : Action)
    (htest : admitted h s a = true) : Admitted h s a := by
  cases a with
  | prepare a => exact Accounts.fits_of_test (bookkeeping h) s.accounts a htest
  | start userCreds userName stdin =>
      simp only [admitted, Bool.and_eq_true, decide_eq_true_eq] at htest
      intro request hrequest
      rcases loginRequest_eq_ok_iff.mp hrequest with ⟨hemail, hpassword⟩
      exact ⟨quote_notMem_of_cstring hemail htest.1, quote_notMem_of_cstring hpassword htest.2⟩
  | work a => exact Messenger.freshMailboxes_of_cursorsEmpty _ _ a htest

end Credentials

end SimpleMessenger
