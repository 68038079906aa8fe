import SimpleMessenger.Server.Authentification
import SimpleMessenger.Server.GrpcRuns

/-!
# The unary handlers of `GrpcServer.cpp`, one at a time

`receiveMessage` and `acceptConnection` run from their first to their last statement
without a step of any other call between.  What they return and what they do to the
post box is then a function of the post box they find.

Main results:

- Theorems {lit}`handleMessage_exit`, {lit}`handleMessage_offline`,
  {lit}`handleMessage_room` and {lit}`handleMessage_full`: the four outcomes of a
  message that could be decoded.
- Theorem {lit}`receiveMessage_exec`: the handler run alone is a schedule of the
  interleaved server.
- Theorem {lit}`unary_outcomes`: the outcome of both handlers on well-formed
  mailboxes, and that they leave all other mailboxes as they are.
-/

namespace SimpleMessenger

open CMemory StepSystem CircularBuffer

namespace GrpcEndpointServer

/-! ## The handlers -/

/-- `receiveMessage` behind the decoder, for a message whose text array holds the
C string `text`. -/
def handleMessage (box : PostBox) (call : Nat) (heap : PostBoxCell) (receivedEnv : Envelope)
    (text : Bytes) : Checked (Status × PostBox) :=
  if text = ascii "exit" then .ok (.OK, box.disconnectUser (getSenderID receivedEnv))
  else if !box.isOnline (getRecepientID receivedEnv) then .ok (.CANCELLED, box)
  else
    (fun r => (if r.1 then Status.OK else Status.CANCELLED, r.2)) <$>
      box.pushAt (getRecepientID receivedEnv) heap { call := call, env := receivedEnv }

/-- `receiveMessage`, run as call number `call`. -/
def receiveMessage (box : PostBox) (call : Nat) (heap : PostBoxCell)
    (pEnv : ProtobufItf.Envelope) : Checked (Status × PostBox) := do
  let receivedEnv ← getEnvFromProtoBuf pEnv
  let text ← receivedEnv.payload.cstring
  handleMessage box call heap receivedEnv text

/-- The status of a login and the id in its reply, which starts as zero. -/
structure LoginReply where
  status : Status
  userId : UserID := 0
deriving DecidableEq

/-- `acceptConnection` behind the answer of `checkIfRegistered`. -/
def answerLogin (box : PostBox) (stack heap : PostBoxCell) : Option UserID → LoginReply × PostBox
  | some userId =>
      ({ status := .OK, userId := userId }, box.addUserToConnected userId stack heap)
  | none => ({ status := .CANCELLED }, box)

/-- `acceptConnection`. -/
def acceptConnection (box : PostBox) (m : PsqlManager) (db : Bytes → PGresult)
    (stack heap : PostBoxCell) (userCreds : ProtobufItf.UserCredentials) :
    Checked ((LoginReply × PostBox) × PsqlManager) := do
  let receivedCreds ← AuthentificationService.receivedCreds userCreds
  let answer ← AuthentificationService.checkIfRegistered m db receivedCreds
  return (answerLogin box stack heap answer.1, answer.2)

/-! ## Accesses to the mailbox of an online user -/

variable {box : PostBox} {u : UserID} {cell : PostBoxCell}

theorem isOnline_of_some (hcell : box u = some cell) : box.isOnline u = true := by
  simp [PostBox.isOnline, hcell]

theorem held_of_some (hcell : box u = some cell) : box.held u = cell.contents := by
  simp [PostBox.held, hcell]

/-- A mailbox with room takes the parcel at its end. -/
theorem pushAt_of_room (hwf : box.WF) (hcell : box u = some cell)
    (hroom : (box.held u).length < 32) (heap : PostBoxCell) (item : Parcel) :
    ∃ cell', box.pushAt u heap item = .ok (true, Function.update box u (some cell')) ∧
      cell'.WF ∧ cell'.contents = box.held u ++ [item] := by
  rw [held_of_some hcell] at hroom ⊢
  rcases push_spec (hwf u cell hcell) item with ⟨cell', hpush, hwf', hcontents⟩
  have hlt : cell.contents.length < UInt64.toNat 32 := hroom
  rw [decide_eq_true hlt] at hpush
  rw [if_pos hlt] at hcontents
  refine ⟨cell', ?_, hwf', hcontents⟩
  simp only [PostBox.pushAt, PostBox.cellAt, hcell, Option.getD_some, hpush]
  rfl

/-- A full mailbox takes nothing, and the post box stays as it is. -/
theorem pushAt_of_full (hwf : box.WF) (hcell : box u = some cell)
    (hfull : ¬ (box.held u).length < 32) (heap : PostBoxCell) (item : Parcel) :
    box.pushAt u heap item = .ok (false, box) := by
  rw [held_of_some hcell] at hfull
  have hisFull : cell.isFull = true := by
    have hcellWf := hwf u cell hcell
    have hle : cell.contents.length ≤ 32 := by
      rw [length_contents hcellWf.length_pos]
      exact hcellWf.size_le
    have hcapacity : UInt64.toNat 32 = 32 := rfl
    rw [isFull_eq hcellWf.length_pos, hcapacity, beq_iff_eq]
    omega
  have hsame : Function.update box u (some cell) = box := by
    rw [← hcell, Function.update_eq_self]
  simp only [PostBox.pushAt, PostBox.cellAt, hcell, Option.getD_some, push, hisFull]
  simp [Functor.map, Except.map, hsame]

/-! ## What a message does -/

variable (call : Nat) (heap : PostBoxCell) {env : Envelope} {text : Bytes}

theorem handleMessage_exit :
    handleMessage box call heap env (ascii "exit") =
      .ok (.OK, box.disconnectUser (getSenderID env)) :=
  if_pos rfl

theorem handleMessage_offline (htext : text ≠ ascii "exit")
    (hoffline : box.isOnline (getRecepientID env) = false) :
    handleMessage box call heap env text = .ok (.CANCELLED, box) := by
  simp [handleMessage, htext, hoffline]

theorem handleMessage_room (hwf : box.WF) (htext : text ≠ ascii "exit")
    (hcell : box (getRecepientID env) = some cell)
    (hroom : (box.held (getRecepientID env)).length < 32) :
    ∃ cell', handleMessage box call heap env text =
        .ok (.OK, Function.update box (getRecepientID env) (some cell')) ∧ cell'.WF ∧
      cell'.contents = box.held (getRecepientID env) ++ [{ call := call, env := env }] := by
  rcases pushAt_of_room hwf hcell hroom heap { call := call, env := env } with
    ⟨cell', hpush, hwf', hcontents⟩
  refine ⟨cell', ?_, hwf', hcontents⟩
  simp only [handleMessage, htext, isOnline_of_some hcell, hpush]
  rfl

theorem handleMessage_full (hwf : box.WF) (htext : text ≠ ascii "exit")
    (hcell : box (getRecepientID env) = some cell)
    (hfull : ¬ (box.held (getRecepientID env)).length < 32) :
    handleMessage box call heap env text = .ok (.CANCELLED, box) := by
  simp only [handleMessage, htext, isOnline_of_some hcell,
    pushAt_of_full hwf hcell hfull heap { call := call, env := env }]
  rfl

/-- The user whose mailbox a message is about. -/
def concerned (env : Envelope) (text : Bytes) : UserID :=
  if text = ascii "exit" then getSenderID env else getRecepientID env

/-- What a message may do: a logout removes the sender's mailbox, any other message
is appended to the recipient's exactly if there is one with room, a cancelled message
changes nothing, and none touches the mailbox of anybody else. -/
structure MessageOutcome (box : PostBox) (call : Nat) (env : Envelope) (text : Bytes)
    (status : Status) (box' : PostBox) : Prop where
  exit : text = ascii "exit" →
    status = .OK ∧ box' = Function.update box (getSenderID env) none
  ok_iff : text ≠ ascii "exit" →
    (status = .OK ↔ box.isOnline (getRecepientID env) = true ∧
      (box.held (getRecepientID env)).length < 32)
  appended : text ≠ ascii "exit" → status = .OK →
    box'.isOnline (getRecepientID env) = true ∧
      box'.held (getRecepientID env) =
        box.held (getRecepientID env) ++ [{ call := call, env := env }]
  cancelled : status = .CANCELLED → box' = box
  frame : ∀ v, v ≠ concerned env text → box' v = box v
  wf : box'.WF

/-- A message that changes nothing, because there is no mailbox with room. -/
theorem MessageOutcome.of_cancelled (hwf : box.WF) (htext : text ≠ ascii "exit")
    (hnone : ¬ (box.isOnline (getRecepientID env) = true ∧
      (box.held (getRecepientID env)).length < 32)) :
    MessageOutcome box call env text .CANCELLED box where
  exit := fun hexit => absurd hexit htext
  ok_iff := by simpa using fun _ => hnone
  appended := by simp
  cancelled := fun _ => rfl
  frame := fun _ _ => rfl
  wf := hwf

/-- Whatever the text, a decoded message is handled without a fault. -/
theorem handleMessage_outcome (hwf : box.WF) (call : Nat) (heap : PostBoxCell)
    (env : Envelope) (text : Bytes) :
    ∃ status box', handleMessage box call heap env text = .ok (status, box') ∧
      MessageOutcome box call env text status box' := by
  by_cases htext : text = ascii "exit"
  · subst htext
    refine ⟨_, _, handleMessage_exit call heap, ?_⟩
    refine ⟨fun _ => ⟨rfl, rfl⟩, by simp, by simp, by simp, ?_, ?_⟩
    · intro v hv
      rw [concerned, if_pos rfl] at hv
      exact Function.update_of_ne hv _ _
    · exact PostBox.wf_disconnectUser hwf _
  · cases hcell : box (getRecepientID env) with
    | none =>
        have hoffline : box.isOnline (getRecepientID env) = false := by
          simp [PostBox.isOnline, hcell]
        refine ⟨_, _, handleMessage_offline call heap htext hoffline,
          .of_cancelled call hwf htext ?_⟩
        simp [hoffline]
    | some cell =>
        by_cases hroom : (box.held (getRecepientID env)).length < 32
        · rcases handleMessage_room call heap hwf htext hcell hroom with
            ⟨cell', hhandle, hwf', hcontents⟩
          refine ⟨_, _, hhandle, ?_⟩
          refine ⟨fun hexit => absurd hexit htext, ?_, ?_, by simp, ?_, ?_⟩
          · intro _
            simp [isOnline_of_some hcell, hroom]
          · intro _ _
            rw [PostBox.held_update, Function.update_self]
            exact ⟨PostBox.isOnline_update.mpr (.inl rfl), hcontents⟩
          · intro v hv
            rw [concerned, if_neg htext] at hv
            exact Function.update_of_ne hv _ _
          · exact PostBox.wf_update hwf hwf'
        · refine ⟨_, _, handleMessage_full call heap hwf htext hcell hroom,
            .of_cancelled call hwf htext ?_⟩
          simp [hroom]

/-! ## What a login does -/

section Logins

variable {m : PsqlManager} {db : Bytes → PGresult} {userCreds : ProtobufItf.UserCredentials}

/-- What a login may do: it succeeds with the id that the credentials are registered
under and only then, its user is online then, with the mailbox there was or else with a
new one in the memory given, a cancelled login changes nothing, and no login touches the
mailbox of anybody else. -/
structure LoginOutcome (box : PostBox) (stack heap : PostBoxCell) (m : PsqlManager)
    (db : Bytes → PGresult) (creds : UserCredentials)
    (outcome : Checked ((LoginReply × PostBox) × PsqlManager)) : Prop where
  ok_iff : ∀ u m', (∃ box', outcome = .ok (({ status := .OK, userId := u }, box'), m')) ↔
    AuthentificationService.checkIfRegistered m db creds = .ok (some u, m')
  known : ∀ reply box' m', outcome = .ok ((reply, box'), m') → reply.status = .OK →
    box.isOnline reply.userId = true → box' reply.userId = box reply.userId
  new : ∀ reply box' m', outcome = .ok ((reply, box'), m') → reply.status = .OK →
    box.isOnline reply.userId = false →
      box' reply.userId = some (moveConstruct heap (construct stack))
  cancelled : ∀ reply box' m', outcome = .ok ((reply, box'), m') →
    reply.status = .CANCELLED → box' = box
  frame : ∀ reply box' m', outcome = .ok ((reply, box'), m') →
    ∀ v, (reply.status = .OK → v ≠ reply.userId) → box' v = box v
  returns : m.HandlesValid → (∀ text, ∃ ret, PsqlManager.readAnswer (db text) = .ok ret) →
    ∃ answer, outcome = .ok answer

/-- `emplace` keeps an existing mailbox. -/
theorem addUserToConnected_of_online (honline : box.isOnline u = true)
    (stack heap : PostBoxCell) : box.addUserToConnected u stack heap = box := by
  rcases Option.isSome_iff_exists.mp honline with ⟨cell, hcell⟩
  simp [PostBox.addUserToConnected, hcell]

/-- Without one, it moves the mailbox on the stack into a new node. -/
theorem addUserToConnected_of_offline (hoffline : box.isOnline u = false)
    (stack heap : PostBoxCell) :
    box.addUserToConnected u stack heap u = some (moveConstruct heap (construct stack)) := by
  have hnone : box u = none := by simpa [PostBox.isOnline] using hoffline
  simp [PostBox.addUserToConnected, hnone]

theorem addUserToConnected_of_ne {v : UserID} (hv : v ≠ u) (stack heap : PostBoxCell) :
    box.addUserToConnected u stack heap v = box v := by
  unfold PostBox.addUserToConnected
  cases hcell : box u with
  | some cell => rfl
  | none => exact Function.update_of_ne hv _ _

/-- A login is cancelled without an id and changes nothing, or it adds its id. -/
theorem answerLogin_cases {stack heap : PostBoxCell} {answer : Option UserID} {reply : LoginReply}
    {box' : PostBox} (hlogin : answerLogin box stack heap answer = (reply, box')) :
    (answer = none ∧ reply.status = .CANCELLED ∧ box' = box) ∨
      ∃ u, answer = some u ∧ reply = { status := .OK, userId := u } ∧
        box' = box.addUserToConnected u stack heap := by
  cases answer with
  | none =>
      cases hlogin
      exact .inl ⟨rfl, rfl, rfl⟩
  | some u =>
      cases hlogin
      exact .inr ⟨u, rfl, rfl, rfl⟩

/-- A login that comes back was answered by `checkIfRegistered`. -/
theorem acceptConnection_eq_ok_iff {stack heap : PostBoxCell} {creds : UserCredentials}
    (hcreds : AuthentificationService.receivedCreds userCreds = .ok creds)
    {reply : LoginReply} {box' : PostBox} {m' : PsqlManager} :
    acceptConnection box m db stack heap userCreds = .ok ((reply, box'), m') ↔
      ∃ answer, AuthentificationService.checkIfRegistered m db creds = .ok (answer, m') ∧
        answerLogin box stack heap answer = (reply, box') := by
  simp only [acceptConnection, bind_eq_ok_iff]
  constructor
  · rintro ⟨creds', hcreds', ⟨answer, m''⟩, hcheck, hpair⟩
    rw [hcreds] at hcreds'
    cases hcreds'
    rcases Prod.mk.inj (Except.ok.inj hpair) with ⟨hlogin, rfl⟩
    exact ⟨answer, hcheck, hlogin⟩
  · rintro ⟨answer, hcheck, hlogin⟩
    exact ⟨creds, hcreds, _, hcheck, by rw [← hlogin]; rfl⟩

/-- The credentials that are filled in are the texts submitted, up to their zero bytes. -/
theorem cstring_of_receivedCreds {creds : UserCredentials}
    (hcreds : AuthentificationService.receivedCreds userCreds = .ok creds)
    (hpassword : userCreds.password.length < sizeofCredential) :
    creds.email.cstring = .ok (cstr userCreds.email) ∧
      creds.password.cstring = .ok (cstr userCreds.password) := by
  rcases AuthentificationService.receivedCreds_eq_ok_iff.mp hcreds with
    ⟨hemailCopy, hpasswordCopy, hterminated⟩
  exact ⟨(CharArray.cstring_of_memcpy_zeros hemailCopy).mpr ⟨hterminated, rfl⟩,
    (CharArray.cstring_of_memcpy_zeros hpasswordCopy).mpr ⟨.inl hpassword, rfl⟩⟩

/-- Credentials that were filled in can be looked up. -/
theorem exists_checkIfRegistered {creds : UserCredentials}
    (hcreds : AuthentificationService.receivedCreds userCreds = .ok creds)
    (hpassword : userCreds.password.length < sizeofCredential) (hm : m.HandlesValid)
    (hread : ∀ text, ∃ ret, PsqlManager.readAnswer (db text) = .ok ret) :
    ∃ answer, AuthentificationService.checkIfRegistered m db creds = .ok answer := by
  rcases cstring_of_receivedCreds hcreds hpassword with ⟨hemail, hsecret⟩
  rcases hread (PsqlManager.selectReq (cstr userCreds.email) (cstr userCreds.password)) with
    ⟨ret, hret⟩
  unfold AuthentificationService.checkIfRegistered
  split
  · exact ⟨_, rfl⟩
  · exact ⟨_, PsqlManager.findUserByCreds_eq_ok hm hemail hsecret hret⟩

/-- Whatever the database answers, a login with short credentials keeps to its
outcome. -/
theorem acceptConnection_outcome (stack heap : PostBoxCell) {creds : UserCredentials}
    (hcreds : AuthentificationService.receivedCreds userCreds = .ok creds)
    (hpassword : userCreds.password.length < sizeofCredential) :
    LoginOutcome box stack heap m db creds
      (acceptConnection box m db stack heap userCreds) := by
  have hanswered : ∀ {reply : LoginReply} {box' : PostBox} {m' : PsqlManager},
      acceptConnection box m db stack heap userCreds = .ok ((reply, box'), m') →
        (reply.status = .CANCELLED ∧ box' = box) ∨
          ∃ u, reply = { status := .OK, userId := u } ∧
            AuthentificationService.checkIfRegistered m db creds = .ok (some u, m') ∧
            box' = box.addUserToConnected u stack heap := by
    intro reply box' m' haccept
    rcases (acceptConnection_eq_ok_iff hcreds).mp haccept with ⟨answer, hcheck, hlogin⟩
    rcases answerLogin_cases hlogin with ⟨_, hreply, hbox⟩ | ⟨u, rfl, hreply, hbox⟩
    · exact .inl ⟨hreply, hbox⟩
    · exact .inr ⟨u, hreply, hcheck, hbox⟩
  refine ⟨?_, ?_, ?_, ?_, ?_, ?_⟩
  · intro u m'
    constructor
    · rintro ⟨box', haccept⟩
      rcases hanswered haccept with ⟨hcancelled, _⟩ | ⟨u', hreply, hcheck, _⟩
      · contradiction
      · cases hreply
        exact hcheck
    · intro hcheck
      exact ⟨_, (acceptConnection_eq_ok_iff hcreds).mpr ⟨some u, hcheck, rfl⟩⟩
  · intro reply box' m' haccept hok honline
    rcases hanswered haccept with ⟨_, rfl⟩ | ⟨u, rfl, _, rfl⟩
    · rfl
    · rw [addUserToConnected_of_online honline]
  · intro reply box' m' haccept hok hoffline
    rcases hanswered haccept with ⟨hcancelled, _⟩ | ⟨u, rfl, _, rfl⟩
    · rw [hcancelled] at hok
      contradiction
    · exact addUserToConnected_of_offline hoffline stack heap
  · intro reply box' m' haccept hcancelled
    rcases hanswered haccept with ⟨_, hsame⟩ | ⟨u, rfl, _, _⟩
    · exact hsame
    · contradiction
  · intro reply box' m' haccept v hv
    rcases hanswered haccept with ⟨_, rfl⟩ | ⟨u, rfl, _, rfl⟩
    · rfl
    · exact addUserToConnected_of_ne (hv rfl) stack heap
  · intro hm hread
    rcases exists_checkIfRegistered hcreds hpassword hm hread with ⟨⟨answer, m'⟩, hcheck⟩
    exact ⟨_, (acceptConnection_eq_ok_iff hcreds).mpr ⟨answer, hcheck, rfl⟩⟩

end Logins

/-! ## The handlers as schedules of the interleaved server -/

section Schedules

variable {s : State} {handler handler' : Handler} {status : Status} {box' : PostBox}

/-- The state in which the newest call has come to `handler`. -/
def State.withCall (s : State) (handler : Handler) (box : PostBox) : State :=
  { handlers := s.handlers ++ [handler], postBox := box }

theorem withCall_goOn :
    (s.withCall handler box).goOn s.handlers.length handler' box' = s.withCall handler' box' := by
  simp [State.withCall, State.goOn]

/-- One step of the newest call. -/
theorem step_advance_withCall (stack heap : PostBoxCell) {e : Event}
    (hadvance : advance (s.withCall handler box) s.handlers.length stack heap handler =
      some ((s.withCall handler box).goOn s.handlers.length handler' box', e)) :
    step (s.withCall handler box) (.advance s.handlers.length stack heap) =
      some (s.withCall handler' box', e) := by
  have hget : (s.withCall handler box).handlers[s.handlers.length]? = some handler := by
    simp [State.withCall]
  rw [step, hget, Option.bind_some, hadvance, withCall_goOn]

section Steps

variable {env : Envelope} {text : Bytes} (stack heap : PostBoxCell)

/-- The newest call logs its sender out. -/
theorem step_withCall_exit (htext : env.payload.cstring = .ok text)
    (hexit : text = ascii "exit") :
    step (s.withCall (.received env) box) (.advance s.handlers.length stack heap) =
      some (s.withCall (.returned .OK) (box.disconnectUser (getSenderID env)),
        .removed s.handlers.length (getSenderID env)) := by
  apply step_advance_withCall
  simp only [advance, htext, hexit, if_true]
  rfl

/-- The newest call finds its recipient offline. -/
theorem step_withCall_offline (htext : env.payload.cstring = .ok text)
    (hexit : text ≠ ascii "exit") (hoffline : (!box.isOnline (getRecepientID env)) = true) :
    step (s.withCall (.received env) box) (.advance s.handlers.length stack heap) =
      some (s.withCall (.returned .CANCELLED) box,
        .checked s.handlers.length (getRecepientID env) false) := by
  apply step_advance_withCall
  simp only [advance, htext, hexit, if_false]
  exact if_pos hoffline

/-- The newest call finds its recipient online. -/
theorem step_withCall_online (htext : env.payload.cstring = .ok text)
    (hexit : text ≠ ascii "exit") (honline : ¬ (!box.isOnline (getRecepientID env)) = true) :
    step (s.withCall (.received env) box) (.advance s.handlers.length stack heap) =
      some (s.withCall (.pushing env) box,
        .checked s.handlers.length (getRecepientID env) true) := by
  apply step_advance_withCall
  simp only [advance, htext, hexit, if_false]
  exact if_neg honline

/-- The newest call pushes its envelope. -/
theorem step_withCall_pushing {ok : Bool}
    (hpush : box.pushAt (getRecepientID env) heap { call := s.handlers.length, env := env } =
      .ok (ok, box')) :
    step (s.withCall (.pushing env) box) (.advance s.handlers.length stack heap) =
      some (s.withCall (.returned (if ok then .OK else .CANCELLED)) box',
        .pushed s.handlers.length (getRecepientID env)
          { call := s.handlers.length, env := env } ok) := by
  have hpushed : (s.withCall (.pushing env) box).postBox.pushAt (getRecepientID env) heap
      { call := s.handlers.length, env := env } = .ok (ok, box') := hpush
  apply step_advance_withCall
  simp only [advance, hpushed]

end Steps

/-- `receiveMessage` run alone is a schedule: the call starts and takes its steps one
after the other. -/
theorem receiveMessage_exec {pEnv : ProtobufItf.Envelope} (stack : PostBoxCell)
    {heap : PostBoxCell}
    (hreceive : receiveMessage s.postBox s.handlers.length heap pEnv = .ok (status, box'))
    (h : List Event) :
    ∃ as h', (∀ a ∈ as, a = .receiveMessage pEnv ∨ a = .advance s.handlers.length stack heap) ∧
      server.execFrom (fun _ _ _ => true) h s as =
        some (h', s.withCall (.returned status) box') := by
  simp only [receiveMessage, bind_eq_ok_iff] at hreceive
  rcases hreceive with ⟨env, hdecode, text, htext, hhandle⟩
  have hstart : server.step s (.receiveMessage pEnv) =
      some (s.withCall (.received env) s.postBox, .received s.handlers.length pEnv) := by
    simp only [server, step, hdecode]
    rfl
  unfold handleMessage at hhandle
  split at hhandle <;> rename_i hexit
  · cases hhandle
    have hdone := @step_withCall_exit s.postBox s env text stack heap htext hexit
    exact ⟨[.receiveMessage pEnv, .advance s.handlers.length stack heap], _, by simp,
      (execFrom_cons rfl hstart _).trans (execFrom_cons rfl hdone [])⟩
  · split at hhandle <;> rename_i honline
    · cases hhandle
      have hdone := step_withCall_offline (s := s) stack heap htext hexit honline
      exact ⟨[.receiveMessage pEnv, .advance s.handlers.length stack heap], _, by simp,
        (execFrom_cons rfl hstart _).trans (execFrom_cons rfl hdone [])⟩
    · rcases map_eq_ok_iff.mp hhandle with ⟨⟨ok, pushed⟩, hpush, hpair⟩
      cases hpair
      have hchecked := step_withCall_online (s := s) stack heap htext hexit honline
      have hdone := step_withCall_pushing stack heap hpush
      exact ⟨[.receiveMessage pEnv, .advance s.handlers.length stack heap,
        .advance s.handlers.length stack heap], _, by simp,
        (execFrom_cons rfl hstart _).trans
          ((execFrom_cons rfl hchecked _).trans (execFrom_cons rfl hdone []))⟩

/-- `acceptConnection` behind the answer of the database is a schedule in the same
way. -/
theorem answerLogin_exec (s : State) (stack heap : PostBoxCell) (answer : Option UserID)
    (h : List Event) :
    ∃ as h', (∀ a ∈ as,
        a = .acceptConnection answer ∨ a = .advance s.handlers.length stack heap) ∧
      server.execFrom (fun _ _ _ => true) h s as =
        some (h', s.withCall (.returned (answerLogin s.postBox stack heap answer).1.status)
          (answerLogin s.postBox stack heap answer).2) := by
  cases answer with
  | none => exact ⟨[.acceptConnection none], _, by simp, rfl⟩
  | some u =>
      have hadvance : advance (s.withCall (.connecting u) s.postBox) s.handlers.length stack
          heap (.connecting u) = some ((s.withCall (.connecting u) s.postBox).goOn
            s.handlers.length (.returned .OK) (s.postBox.addUserToConnected u stack heap),
              .added s.handlers.length u) := rfl
      have hstart : step s (.acceptConnection (some u)) =
          some (s.withCall (.connecting u) s.postBox, .called s.handlers.length) := rfl
      exact ⟨[.acceptConnection (some u), .advance s.handlers.length stack heap], _, by simp,
        (execFrom_cons rfl hstart _).trans
          (execFrom_cons rfl (step_advance_withCall stack heap hadvance) [])⟩

end Schedules

/-! ## Both handlers -/

/-- On well-formed mailboxes a message whose text fits the array and a login whose
credentials fit theirs have the outcomes above. -/
theorem unary_outcomes {box : PostBox} (hwf : box.WF) :
    (∀ (pEnv : ProtobufItf.Envelope) (call : Nat) (heap : PostBoxCell),
      strlen pEnv.payload ≤ 975 →
        ∃ env status box', getEnvFromProtoBuf pEnv = .ok env ∧
          receiveMessage box call heap pEnv = .ok (status, box') ∧
          MessageOutcome box call env (cstr pEnv.payload) status box') ∧
    (∀ (m : PsqlManager) (db : Bytes → PGresult) (stack heap : PostBoxCell)
      (userCreds : ProtobufItf.UserCredentials),
      userCreds.email.length ≤ 255 → userCreds.password.length ≤ 255 →
        ∃ creds, AuthentificationService.receivedCreds userCreds = .ok creds ∧
          creds.email.cstring = .ok (cstr userCreds.email) ∧
          creds.password.cstring = .ok (cstr userCreds.password) ∧
          LoginOutcome box stack heap m db creds
            (acceptConnection box m db stack heap userCreds)) := by
  constructor
  · intro pEnv call heap hlength
    have hlt : strlen pEnv.payload < sizeofPayload := by
      rw [sizeofPayload_eq]
      omega
    rcases (decodesInBounds_iff pEnv).mpr hlt with ⟨env, text, hdecode, _, htext⟩
    have hown := ((cstring_of_decoded hdecode).mp htext).2
    subst hown
    rcases handleMessage_outcome hwf call heap env (cstr pEnv.payload) with
      ⟨status, box', hhandle, houtcome⟩
    refine ⟨env, status, box', hdecode, ?_, houtcome⟩
    simp only [receiveMessage, bind_eq_ok_iff]
    exact ⟨env, hdecode, _, htext, hhandle⟩
  · intro m db stack heap userCreds hemail hpassword
    have hemailLt : userCreds.email.length < sizeofCredential := Nat.lt_succ_of_le hemail
    have hpasswordLt : userCreds.password.length < sizeofCredential :=
      Nat.lt_succ_of_le hpassword
    rcases AuthentificationService.exists_receivedCreds_iff.mpr
      ⟨hemailLt.le, hpasswordLt.le, .inl hemailLt⟩ with ⟨creds, hcreds⟩
    rcases cstring_of_receivedCreds hcreds hpasswordLt with ⟨hemailText, hpasswordText⟩
    exact ⟨creds, hcreds, hemailText, hpasswordText,
      acceptConnection_outcome stack heap hcreds hpasswordLt⟩

/-- User 1 is online with an empty mailbox. -/
def oneUserOnline : PostBox :=
  Function.update (fun _ => none) 1 (some (construct PostBox.clearedMemory))

theorem oneUserOnline_wf : oneUserOnline.WF :=
  PostBox.wf_update PostBox.wf_empty (construct_wf (by decide) _)

/-- A database that knows every account as user 2. -/
def knowsUserTwo (_ : Bytes) : PGresult :=
  { status := .tuplesOk, rows := [[ascii "2"]] }

/-- A message to the user that is online, and a login of a user that is not. -/
theorem unary_outcomes_oneUserOnline :
    (∃ env status box', getEnvFromProtoBuf (textMessage 2 1 (ascii "hello")) = .ok env ∧
      receiveMessage oneUserOnline 0 PostBox.clearedMemory (textMessage 2 1 (ascii "hello")) =
        .ok (status, box') ∧
      MessageOutcome oneUserOnline 0 env (cstr (ascii "hello")) status box') ∧
    ∃ box' m', acceptConnection oneUserOnline { isConnected := true } knowsUserTwo
        PostBox.clearedMemory PostBox.clearedMemory
        { email := ascii "user2@mail.com", password := ascii "user2_pass" } =
          .ok (({ status := .OK, userId := 2 }, box'), m') ∧
      box' 2 = some (moveConstruct PostBox.clearedMemory (construct PostBox.clearedMemory)) ∧
      box' 1 = oneUserOnline 1 := by
  refine ⟨(unary_outcomes oneUserOnline_wf).1 _ _ _ (by decide), ?_⟩
  rcases (unary_outcomes oneUserOnline_wf).2 { isConnected := true } knowsUserTwo
    PostBox.clearedMemory PostBox.clearedMemory
    { email := ascii "user2@mail.com", password := ascii "user2_pass" } (by decide)
    (by decide) with ⟨creds, hcreds, _, _, houtcome⟩
  have hreply : (fun r => r.1.1) <$> acceptConnection oneUserOnline { isConnected := true }
      knowsUserTwo PostBox.clearedMemory PostBox.clearedMemory
      { email := ascii "user2@mail.com", password := ascii "user2_pass" } =
        .ok { status := .OK, userId := 2 } := by
    decide +kernel
  rcases map_eq_ok_iff.mp hreply with ⟨⟨⟨reply, box'⟩, m'⟩, haccept, rfl⟩
  exact ⟨box', m', haccept, houtcome.new _ _ _ haccept rfl rfl,
    houtcome.frame _ _ _ haccept 1 (by decide)⟩

end GrpcEndpointServer

end SimpleMessenger
