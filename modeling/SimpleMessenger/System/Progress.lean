import SimpleMessenger.Server.Acceptance
import SimpleMessenger.System.Conversation

/-!
# No call gets stuck

A message that no client of ours would send can make a handler read behind an array, and
metadata that no client of ours would send makes it throw.  Among the clients of this
repository neither happens: whatever the users type and however the calls interleave, a
call that has not returned can go on, and so can every client.

Main results:

- Theorem {lit}`legible_run`: every envelope that is at work in the server is a C string.
- Theorem {lit}`calls_go_on`: no handler and no client is stuck.

Current gaps:

- That a call which can go on does so is up to the scheduler; a word that is longer than
  the buffer of a client is a fault of that client.
-/

namespace SimpleMessenger

open CMemory TextInput StepSystem NamedQueues GrpcEndpointServer GrpcEndpointClient

namespace Messenger

/-! ## Handlers that can go on -/

/-- The envelope that a call is at work on. -/
def workedOn : Handler → Option Envelope
  | .received env => some env
  | .pushing env => some env
  | .forwarding _ parcel _ => some parcel.env
  | _ => none

/-- The call has returned, or its next step is enabled in whatever memory and with
whatever outcome. -/
def GoesOn (server : GrpcEndpointServer.State) (c : Nat) (handler : Handler) : Prop :=
  (∃ status, handler = .returned status) ∨
    (∀ stack heap, (GrpcEndpointServer.step server (.advance c stack heap)).isSome) ∨
    ∀ ok, (GrpcEndpointServer.step server (.write c ok)).isSome

theorem exists_pushAt {box : PostBox} (hwf : box.WF) (u : UserID) (heap : PostBoxCell)
    (item : Parcel) : ∃ r, box.pushAt u heap item = .ok r := by
  rcases CircularBuffer.push_spec (PostBox.cellAt_spec hwf u heap).1 item with ⟨cell, hpush, _⟩
  exact ⟨_, map_eq_ok_iff.mpr ⟨_, hpush, rfl⟩⟩

theorem exists_popAt {box : PostBox} (hwf : box.WF) (u : UserID) (heap : PostBoxCell) :
    ∃ r, box.popAt u heap = .ok r := by
  rcases CircularBuffer.pop_spec (PostBox.cellAt_spec hwf u heap).1 with ⟨cell, hpop, _⟩
  exact ⟨_, map_eq_ok_iff.mpr ⟨_, hpop, rfl⟩⟩

/-- On well-formed mailboxes a call whose envelope is a C string goes on. -/
theorem goesOn_of_legible {server : GrpcEndpointServer.State} (hwf : server.postBox.WF) {c : Nat}
    {handler : Handler} (hc : server.handlers[c]? = some handler) (hthrew : handler ≠ .threw)
    (hlegible : ∀ env, workedOn handler = some env → ∃ text, env.payload.cstring = .ok text) :
    GoesOn server c handler := by
  have hadvance : (∀ stack heap, (advance server c stack heap handler).isSome) →
      GoesOn server c handler := by
    intro hsome
    refine .inr (.inl fun stack heap => ?_)
    rw [GrpcEndpointServer.step, hc, Option.bind_some]
    exact hsome stack heap
  cases handler with
  | connecting u => exact hadvance fun _ _ => rfl
  | received env =>
      rcases hlegible env rfl with ⟨text, htext⟩
      refine hadvance fun stack heap => ?_
      simp only [advance, htext]
      split_ifs <;> rfl
  | pushing env =>
      refine hadvance fun stack heap => ?_
      rcases exists_pushAt hwf (getRecepientID env) heap { call := c, env := env } with
        ⟨⟨ok, box⟩, hpush⟩
      simp only [advance, hpush]
      rfl
  | polling u forwardedEnv =>
      refine hadvance fun stack heap => ?_
      simp only [advance]
      split_ifs <;> rfl
  | popping u forwardedEnv =>
      refine hadvance fun stack heap => ?_
      rcases exists_popAt hwf u heap with ⟨⟨item, box⟩, hpop⟩
      simp only [advance, hpop]
      cases item <;> rfl
  | forwarding u parcel forwardedEnv =>
      rcases hlegible parcel.env rfl with ⟨text, htext⟩
      have hencode : putEnvToProtoBuf parcel.env forwardedEnv =
          .ok (encodedEnvelope parcel.env forwardedEnv text) :=
        putEnvToProtoBuf_eq_ok_iff.mpr ⟨text, htext, rfl⟩
      refine .inr (.inr fun ok => ?_)
      rw [GrpcEndpointServer.step, hc, Option.bind_some]
      simp only [write, hencode]
      rfl
  | returned status => exact .inl ⟨status, rfl⟩
  | threw => exact absurd rfl hthrew

/-! ## What is at work in the server -/

/-- An envelope that a client has sent is a C string. -/
theorem legible_of_requested {G : Guard State Action Event} {h : List Event} {s : State}
    (hrun : messenger.Run G h s) {c : Nat} {env : Envelope}
    (hrequested : Requested (history h) c env) : ∃ text, env.payload.cstring = .ok text := by
  rcases hrequested with ⟨message, hreceived, hdecode⟩
  rcases sent_of_received hrun hreceived with
    ⟨_, _, _, text, _, env', hdecode', htext, _, _⟩
  rw [hdecode] at hdecode'
  cases hdecode'
  exact ⟨text, htext⟩

/-- Every envelope that a call is at work on is a C string. -/
theorem legible_run {h : List Event} {s : State} (hrun : messenger.Run FreshMailboxes h s)
    {c : Nat} {handler : Handler} (hc : s.server.handlers[c]? = some handler) {env : Envelope}
    (henv : workedOn handler = some env) : ∃ text, env.payload.cstring = .ok text := by
  have hserver := server_run hrun
  cases handler with
  | received env' => exact legible_of_requested hrun ((callInv_run hserver).requested c _ _ hc henv)
  | pushing env' => exact legible_of_requested hrun ((callInv_run hserver).requested c _ _ hc henv)
  | forwarding u parcel forwardedEnv =>
      cases henv
      have hpopped := (holder_of_run hserver hc).2.1
      have hstored := (callInv_run hserver).stored _ u parcel true (pushed_of_popped hserver hpopped)
      exact legible_of_requested hrun hstored.2.2.1
  | _ => cases henv

/-- A step of the server other than a call from outside does not throw. -/
theorem not_threw_of_steps {server server' : GrpcEndpointServer.State}
    {a : Action} {b : GrpcEndpointServer.Action} {d : GrpcEndpointServer.Event}
    (ha : a.server? = some b) (hsteps : GrpcEndpointServer.Steps server b server' d)
    (hold : ∀ handler ∈ server.handlers, handler ≠ .threw) :
    ∀ handler ∈ server'.handlers, handler ≠ .threw := by
  have hgoOn : ∀ {c : Nat} {after : Handler} {box : PostBox}, after ≠ .threw →
      ∀ handler ∈ (server.goOn c after box).handlers, handler ≠ .threw := by
    intro c after box hafter handler hmem
    rcases List.mem_or_eq_of_mem_set hmem with hin | rfl
    · exact hold handler hin
    · exact hafter
  cases hsteps with
  | start hstarts => cases hstarts <;> cases a <;> cases ha
  | check _ hcheck => cases hcheck <;> exact hgoOn nofun
  | @pop _ _ _ _ _ item => cases item <;> exact hgoOn nofun
  | add _ | exit _ | push _ _ | write _ _ => exact hgoOn nofun

/-- No stream of a client throws, since the client sends its own user id. -/
theorem not_threw_run {G : Guard State Action Event} {h : List Event} {s : State}
    (hrun : messenger.Run G h s) : ∀ handler ∈ s.server.handlers, handler ≠ .threw := by
  refine hrun.invariant (I := fun _ s => ∀ handler ∈ s.server.handlers, handler ≠ .threw) nofun ?_
  intro h s a s' e _ hold _ hstep
  have hstart : ∀ {new : Handler}, new ≠ .threw →
      ∀ handler ∈ (s.server.start new).handlers, handler ≠ .threw := by
    intro new hnew handler hmem
    rcases List.mem_append.mp hmem with hin | hlast
    · exact hold handler hin
    · rw [List.mem_singleton.mp hlast]
      exact hnew
  cases steps_of_step hstep with
  | start hserver =>
      cases GrpcEndpointServer.steps_of_step hserver with
      | start hstarts => cases hstarts <;> exact hstart (by simp)
  | send _ _ _ _ hserver =>
      cases GrpcEndpointServer.steps_of_step hserver with
      | start hstarts =>
          cases hstarts
          exact hstart (by simp)
  | listen _ _ _ hserver =>
      simp only [GrpcEndpointServer.step, streamUser_listenMetadata] at hserver
      cases hserver
      exact hstart (by simp)
  | serve ha hserver => exact not_threw_of_steps ha (GrpcEndpointServer.steps_of_step hserver) hold
  | _ => exact hold

/-! ## Clients that can go on -/

/-- A client whose next word fits into its buffer can send. -/
theorem send_enabled {s : State} {k : Nat} {client : Client} {recepientId : UserID}
    {sender : GrpcClient.Sender} (hk : s.clients[k]? = some client)
    (hlogin : client.login = .granted) (hsending : client.sending = .ready recepientId sender)
    (hgoes : ¬ sender.Exits)
    (hshort : ∀ word rest, scanWord sender.stdin = (some word, rest) →
      word.length < GrpcClient.bufferSize) : (step s (.send k)).isSome := by
  have hwrite : ∃ buffer rest, GrpcClient.writeMessage sender.stdin = .ok (buffer, rest) := by
    unfold GrpcClient.writeMessage
    split
    · exact ⟨_, _, rfl⟩
    · rename_i word rest hscan
      have hfits : (word ++ [0]).length ≤ GrpcClient.bufferSize := by
        rw [List.length_append, List.length_singleton]
        exact hshort word rest hscan
      rcases CharArray.exists_memcpy_eq_ok (CharArray.zeros GrpcClient.bufferSize) hfits with
        ⟨buffer, hcopy⟩
      exact ⟨buffer, rest, map_eq_ok_iff.mpr ⟨buffer, hcopy, rfl⟩⟩
  rcases hwrite with ⟨buffer, rest, hwrite⟩
  rcases GrpcClient.sendOnce_of_buffer client.endpoint.userId recepientId hwrite
    (zero_mem_of_writeMessage hwrite) with ⟨message, hsend, env, hdecode, _⟩
  have hnext : sendNext client = some (recepientId, message, ⟨buffer, rest, message⟩) := by
    simp only [sendNext, hlogin, hsending, if_neg hgoes, hsend]
  rw [step, hk, Option.bind_some, send, hnext]
  simp only [GrpcEndpointServer.step, hdecode]
  rfl

/-- A client that has been granted access can open its stream. -/
theorem listen_enabled {s : State} {k : Nat} {client : Client} (hk : s.clients[k]? = some client)
    (hlogin : client.login = .granted) (hlistening : client.listening = .notStarted) :
    (step s (.listen k)).isSome := by
  rw [step, hk, Option.bind_some, listen, hlogin, hlistening]
  simp only [GrpcEndpointServer.step, streamUser_listenMetadata]
  rfl

/-- A client can print whatever its stream brings. -/
theorem print_enabled {h : List Event} {s : State} (hrun : messenger.Run FreshMailboxes h s)
    {k c : Nat} {client : Client} (hk : s.clients[k]? = some client)
    (hlistening : client.listening = .streaming c) (hflight : client.inFlight ≠ []) :
    (step s (.print k)).isSome := by
  have hwatches := watched_run hrun k client hk
  rcases List.exists_cons_of_ne_nil hflight with ⟨message, rest, hcons⟩
  rw [hlistening, hcons] at hwatches
  cases hwatches with
  | streaming _ _ hencodes =>
      cases hencodes with
      | cons hfirst _ =>
          rcases hfirst with ⟨old, hencode⟩
          rcases putEnvToProtoBuf_eq_ok_iff.mp hencode with ⟨text, htext, _⟩
          rw [step, hk, Option.bind_some, print, hlistening, hcons]
          simp only [printed_of_forwarded htext hencode]
          rfl

/-- Neither the handlers nor the clients are stuck. -/
structure Unstuck (s : State) : Prop where
  calls : ∀ c handler, s.server.handlers[c]? = some handler → GoesOn s.server c handler
  senders : ∀ k client recepientId sender, s.clients[k]? = some client →
    client.login = .granted → client.sending = .ready recepientId sender → ¬ sender.Exits →
      (∀ word rest, scanWord sender.stdin = (some word, rest) →
        word.length < GrpcClient.bufferSize) → (step s (.send k)).isSome
  listeners : ∀ k client, s.clients[k]? = some client → client.login = .granted →
    client.listening = .notStarted → (step s (.listen k)).isSome
  readers : ∀ k c client, s.clients[k]? = some client → client.listening = .streaming c →
    client.inFlight ≠ [] → (step s (.print k)).isSome

/-- Whatever the clients send to each other, no handler gets stuck or throws, and every
client can send a word that fits into its buffer, open its stream and print what the stream
brings. -/
theorem calls_go_on {h : List Event} {s : State} (hrun : messenger.Run FreshMailboxes h s) :
    Unstuck s where
  calls := by
    intro c handler hc
    refine goesOn_of_legible (leads_run (server_run hrun)).1 hc ?_ ?_
    · exact not_threw_run hrun handler (List.mem_of_getElem? hc)
    · exact fun env henv => legible_run hrun hc henv
  senders := fun _ _ _ _ hk hlogin hsending hgoes hshort =>
    send_enabled hk hlogin hsending hgoes hshort
  listeners := fun _ _ hk hlogin hlistening => listen_enabled hk hlogin hlistening
  readers := fun _ _ _ hk hlistening hflight => print_enabled hrun hk hlistening hflight

/-- Users 1 and 2 log in, user 1 opens a stream, and user 2 sends a text to user 1. -/
def sayHi : List Action :=
  let go (c : Nat) : Action := .serve c PostBox.clearedMemory PostBox.clearedMemory
  [.start (ascii "adsfadsf") [] (some 1), go 0, .login 0,
    .start (ascii "adsfadsf") (ascii "1 hi") (some 2), go 1, .login 1, .listen 0, .ask 1,
    .send 1, go 3, go 3, .proceed 1, go 2, go 2, .write 2 true, .print 0]

/-- While a text is on its way to user 1. -/
theorem calls_go_on_sayHi :
    ∃ h s, messenger.Run FreshMailboxes h s ∧ s.server.handlers.length = 4 ∧ Unstuck s := by
  have hcalls : (messenger.execFrom (fun _ _ => cursorsEmpty) [] messenger.init
      (sayHi.take 10)).map (fun r => r.2.server.handlers.length) = some 4 := by
    decide +kernel
  rcases Option.map_eq_some_iff.mp hcalls with ⟨⟨h, s⟩, hexec, hlength⟩
  have hrun := Run.of_execFrom freshMailboxes_of_cursorsEmpty .start hexec
  exact ⟨h, s, hrun, hlength, calls_go_on hrun⟩

end Messenger

end SimpleMessenger
