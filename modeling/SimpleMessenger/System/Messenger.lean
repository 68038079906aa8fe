import SimpleMessenger.Client.GrpcClient
import SimpleMessenger.Server.Streams

/-!
# The server and its clients

Any number of runs of the client program work on one server.  A client logs in; then
its sending thread reads a recipient and word after word, sends each of them and waits
for the reply, while its listening thread prints what its stream brings.  All threads
and all calls inside the server interleave.  A request may be lost on its way, a call
may fail for the client while its handler goes on, and a stream may break at any time.

Main results:

- Theorem {lit}`steps_of_step`: the kinds of steps.
- Theorem {lit}`server_run`: what the server sees of a run is a run of the server.
- Theorem {lit}`identified_run`: who the clients are, from the history.
- Theorem {lit}`sent_of_received`: every message that the server receives was sent by a
  client, and carries its text.

Current gaps:

- The clients are the only programs that talk to the server.
- A reply is not lost without an error, and a stream does not reorder what is written to
  it; both are promised by the transport.
-/

namespace SimpleMessenger

open CMemory TextInput StepSystem GrpcEndpointClient

namespace Messenger

/-! ## Clients -/

/-- How far `connectToServer` is. -/
inductive Login where
  /-- The call has been made; the database answers its handler in this way. -/
  | connecting (call : Nat) (answer : Option UserID)
  | granted
  | refused
deriving DecidableEq

/-- Where the sending thread stands. -/
inductive Sending where
  /-- Before it reads the recipient. -/
  | asking (stdin : Bytes)
  | ready (recepientId : UserID) (sender : GrpcClient.Sender)
  /-- In `sendEnvelope`. -/
  | waiting (call : Nat) (recepientId : UserID) (sender : GrpcClient.Sender)

/-- Where the listening thread stands. -/
inductive Listening where
  | notStarted
  | streaming (call : Nat)
  | ended (call : Nat)
deriving DecidableEq

/-- One run of `grpc_client`, with the messages written to its stream that it has not
read yet. -/
structure Client where
  endpoint : GrpcEndpointClient
  login : Login
  sending : Sending
  listening : Listening := .notStarted
  inFlight : List ProtobufItf.Envelope := []

structure State where
  server : GrpcEndpointServer.State := {}
  clients : List Client := []

inductive Action where
  /-- A client starts, with its standard input, and calls `acceptConnection`. -/
  | start (userName stdin : Bytes) (answer : Option UserID)
  /-- `connectToServer` returns. -/
  | login (k : Nat)
  | ask (k : Nat)
  /-- The sending thread reads a word and calls `receiveMessage`. -/
  | send (k : Nat)
  /-- The same, but the request does not reach the server. -/
  | lose (k : Nat)
  /-- `sendEnvelope` returns with the reply. -/
  | proceed (k : Nat)
  /-- `sendEnvelope` returns without the reply. -/
  | abandon (k : Nat)
  /-- The listening thread calls `streamIncomingMessages`. -/
  | listen (k : Nat)
  /-- `Read` returns a message. -/
  | print (k : Nat)
  /-- `Read` returns `false`. -/
  | hangUp (k : Nat)
  /-- A step inside the server. -/
  | serve (c : Nat) (stack heap : PostBoxCell)
  | write (c : Nat) (ok : Bool)

inductive Event where
  | server (e : GrpcEndpointServer.Event)
  | loggedIn (k : Nat) (userId : UserID)
  | refused (k : Nat)
  | asked (k : Nat) (recepientId : UserID)
  | sent (k : Nat) (senderId recepientId : UserID) (text : Bytes) (e : GrpcEndpointServer.Event)
  | lost (k : Nat) (text : Bytes)
  | proceeded (k : Nat)
  | abandoned (k : Nat)
  | printed (k : Nat) (userId : UserID) (text : Bytes)
  | hungUp (k : Nat)

/-- What the server does in a step. -/
def Event.server? : Event → Option GrpcEndpointServer.Event
  | .server e => some e
  | .sent _ _ _ _ e => some e
  | _ => none

/-! ## Steps -/

/-- A message that the server has written to the client's stream is on its way. -/
def Client.receive : GrpcEndpointServer.Event → Client → Client
  | .wrote c _ _ message true, client =>
      if client.listening = .streaming c then
        { client with inFlight := client.inFlight ++ [message] }
      else client
  | _, client => client

def State.set (s : State) (k : Nat) (client : Client) : State :=
  { s with clients := s.clients.set k client }

/-- The server takes a step of its own. -/
def serve (s : State) (b : GrpcEndpointServer.Action) : Option (State × Event) :=
  (GrpcEndpointServer.step s.server b).map fun r =>
    ({ server := r.1, clients := s.clients.map (Client.receive r.2) }, .server r.2)

def login (s : State) (k : Nat) (client : Client) : Option (State × Event) :=
  match client.login with
  | .connecting call answer =>
      match s.server.handlers[call]? with
      | some (.returned status) =>
          match client.endpoint.connected { status := status, userId := answer.getD 0 } with
          | (true, endpoint) =>
              some (s.set k { client with endpoint := endpoint, login := .granted },
                .loggedIn k endpoint.userId)
          | (false, endpoint) =>
              some (s.set k { client with endpoint := endpoint, login := .refused }, .refused k)
      | _ => none
  | _ => none

def ask (s : State) (k : Nat) (client : Client) : Option (State × Event) :=
  match client.login, client.sending with
  | .granted, .asking stdin =>
      let (number, rest) := scanULong stdin
      some (s.set k { client with sending := .ready (number.getD 0) (.start rest) },
        .asked k (number.getD 0))
  | _, _ => none

/-- The test of the loop and its body up to the call. -/
def sendNext (client : Client) : Option (UserID × ProtobufItf.Envelope × GrpcClient.Sender) :=
  match client.login, client.sending with
  | .granted, .ready recepientId sender =>
      if sender.Exits then none
      else
        match GrpcClient.sendOnce client.endpoint.userId recepientId sender with
        | .error _ => none
        | .ok (message, next) => some (recepientId, message, next)
  | _, _ => none

def send (s : State) (k : Nat) (client : Client) : Option (State × Event) :=
  match sendNext client with
  | none => none
  | some (recepientId, message, next) =>
      (GrpcEndpointServer.step s.server (.receiveMessage message)).map fun r =>
        ({ server := r.1,
           clients := s.clients.set k
            { client with sending := .waiting s.server.handlers.length recepientId next } },
          .sent k client.endpoint.userId recepientId (cstr next.buffer.bytes) r.2)

def lose (s : State) (k : Nat) (client : Client) : Option (State × Event) :=
  match sendNext client with
  | none => none
  | some (recepientId, _, next) =>
      some (s.set k { client with sending := .ready recepientId next },
        .lost k (cstr next.buffer.bytes))

def proceed (s : State) (k : Nat) (client : Client) : Option (State × Event) :=
  match client.sending with
  | .waiting call recepientId sender =>
      match s.server.handlers[call]? with
      | some (.returned _) =>
          some (s.set k { client with sending := .ready recepientId sender }, .proceeded k)
      | _ => none
  | _ => none

def abandon (s : State) (k : Nat) (client : Client) : Option (State × Event) :=
  match client.sending with
  | .waiting _ recepientId sender =>
      some (s.set k { client with sending := .ready recepientId sender }, .abandoned k)
  | _ => none

def listen (s : State) (k : Nat) (client : Client) : Option (State × Event) :=
  match client.login, client.listening with
  | .granted, .notStarted =>
      (GrpcEndpointServer.step s.server
        (.streamIncomingMessages client.endpoint.listenMetadata)).map fun r =>
          ({ server := r.1,
             clients := s.clients.set k
              { client with listening := .streaming s.server.handlers.length } }, .server r.2)
  | _, _ => none

def print (s : State) (k : Nat) (client : Client) : Option (State × Event) :=
  match client.listening, client.inFlight with
  | .streaming _, message :: rest =>
      match GrpcEndpointClient.printed message with
      | .error _ => none
      | .ok text =>
          some (s.set k { client with inFlight := rest },
            .printed k client.endpoint.userId text)
  | _, _ => none

def hangUp (s : State) (k : Nat) (client : Client) : Option (State × Event) :=
  match client.listening with
  | .streaming call => some (s.set k { client with listening := .ended call }, .hungUp k)
  | _ => none

def step (s : State) : Action → Option (State × Event)
  | .start userName stdin answer =>
      (GrpcEndpointServer.step s.server (.acceptConnection answer)).map fun r =>
        ({ server := r.1,
           clients := s.clients ++
            [{ endpoint := { userName := userName },
               login := .connecting s.server.handlers.length answer,
               sending := .asking stdin }] }, .server r.2)
  | .login k => s.clients[k]?.bind (login s k)
  | .ask k => s.clients[k]?.bind (ask s k)
  | .send k => s.clients[k]?.bind (send s k)
  | .lose k => s.clients[k]?.bind (lose s k)
  | .proceed k => s.clients[k]?.bind (proceed s k)
  | .abandon k => s.clients[k]?.bind (abandon s k)
  | .listen k => s.clients[k]?.bind (listen s k)
  | .print k => s.clients[k]?.bind (print s k)
  | .hangUp k => s.clients[k]?.bind (hangUp s k)
  | .serve c stack heap => serve s (.advance c stack heap)
  | .write c ok => serve s (.write c ok)

/-- A server without clients. -/
def messenger : StepSystem State Action Event where
  init := {}
  step := step

@[simp]
theorem Client.receive_endpoint (e : GrpcEndpointServer.Event) (client : Client) :
    (client.receive e).endpoint = client.endpoint := by
  unfold receive
  grind

@[simp]
theorem Client.receive_login (e : GrpcEndpointServer.Event) (client : Client) :
    (client.receive e).login = client.login := by
  unfold receive
  grind

@[simp]
theorem Client.receive_sending (e : GrpcEndpointServer.Event) (client : Client) :
    (client.receive e).sending = client.sending := by
  unfold receive
  grind

@[simp]
theorem Client.receive_listening (e : GrpcEndpointServer.Event) (client : Client) :
    (client.receive e).listening = client.listening := by
  unfold receive
  grind

/-! ## The kinds of steps -/

/-- The steps that the server takes of its own. -/
def Action.server? : Action → Option GrpcEndpointServer.Action
  | .serve c stack heap => some (.advance c stack heap)
  | .write c ok => some (.write c ok)
  | _ => none

/-- Everything one step can do. -/
inductive Steps (s : State) : Action → State → Event → Prop where
  | start {userName stdin : Bytes} {answer : Option UserID}
      {server : GrpcEndpointServer.State} {e : GrpcEndpointServer.Event}
      (hserver : GrpcEndpointServer.step s.server (.acceptConnection answer) = some (server, e)) :
      Steps s (.start userName stdin answer)
        { server := server,
          clients := s.clients ++
            [{ endpoint := { userName := userName },
               login := .connecting s.server.handlers.length answer,
               sending := .asking stdin }] } (.server e)
  | granted {k call : Nat} {client : Client} {answer : Option UserID}
      (hk : s.clients[k]? = some client) (hlogin : client.login = .connecting call answer)
      (hreturned : s.server.handlers[call]? = some (.returned .OK)) :
      Steps s (.login k)
        (s.set k
          { client with
            endpoint := { client.endpoint with userId := answer.getD 0 }, login := .granted })
        (.loggedIn k (answer.getD 0))
  | refused {k call : Nat} {client : Client} {answer : Option UserID}
      (hk : s.clients[k]? = some client) (hlogin : client.login = .connecting call answer) :
      Steps s (.login k) (s.set k { client with login := .refused }) (.refused k)
  | ask {k : Nat} {client : Client} {stdin rest : Bytes} {recepientId : UserID}
      (hk : s.clients[k]? = some client) (hsending : client.sending = .asking stdin) :
      Steps s (.ask k) (s.set k { client with sending := .ready recepientId (.start rest) })
        (.asked k recepientId)
  | send {k : Nat} {client : Client} {recepientId : UserID} {sender next : GrpcClient.Sender}
      {message : ProtobufItf.Envelope} {server : GrpcEndpointServer.State}
      {e : GrpcEndpointServer.Event} (hk : s.clients[k]? = some client)
      (hlogin : client.login = .granted) (hsending : client.sending = .ready recepientId sender)
      (hsend : GrpcClient.sendOnce client.endpoint.userId recepientId sender = .ok (message, next))
      (hserver : GrpcEndpointServer.step s.server (.receiveMessage message) = some (server, e)) :
      Steps s (.send k)
        { server := server,
          clients := s.clients.set k
            { client with sending := .waiting s.server.handlers.length recepientId next } }
        (.sent k client.endpoint.userId recepientId (cstr next.buffer.bytes) e)
  | lose {k : Nat} {client : Client} {recepientId : UserID} {sender next : GrpcClient.Sender}
      (hk : s.clients[k]? = some client) (hsending : client.sending = .ready recepientId sender) :
      Steps s (.lose k) (s.set k { client with sending := .ready recepientId next })
        (.lost k (cstr next.buffer.bytes))
  | proceed {k call : Nat} {client : Client} {recepientId : UserID} {sender : GrpcClient.Sender}
      {status : GrpcEndpointServer.Status} (hk : s.clients[k]? = some client)
      (hsending : client.sending = .waiting call recepientId sender)
      (hreturned : s.server.handlers[call]? = some (.returned status)) :
      Steps s (.proceed k) (s.set k { client with sending := .ready recepientId sender })
        (.proceeded k)
  | abandon {k call : Nat} {client : Client} {recepientId : UserID} {sender : GrpcClient.Sender}
      (hk : s.clients[k]? = some client)
      (hsending : client.sending = .waiting call recepientId sender) :
      Steps s (.abandon k) (s.set k { client with sending := .ready recepientId sender })
        (.abandoned k)
  | listen {k : Nat} {client : Client} {server : GrpcEndpointServer.State}
      {e : GrpcEndpointServer.Event} (hk : s.clients[k]? = some client)
      (hlogin : client.login = .granted) (hlistening : client.listening = .notStarted)
      (hserver : GrpcEndpointServer.step s.server
        (.streamIncomingMessages client.endpoint.listenMetadata) = some (server, e)) :
      Steps s (.listen k)
        { server := server,
          clients := s.clients.set k
            { client with listening := .streaming s.server.handlers.length } } (.server e)
  | print {k c : Nat} {client : Client} {message : ProtobufItf.Envelope}
      {rest : List ProtobufItf.Envelope} {text : Bytes} (hk : s.clients[k]? = some client)
      (hlistening : client.listening = .streaming c) (hflight : client.inFlight = message :: rest)
      (hprinted : GrpcEndpointClient.printed message = .ok text) :
      Steps s (.print k) (s.set k { client with inFlight := rest })
        (.printed k client.endpoint.userId text)
  | hangUp {k c : Nat} {client : Client} (hk : s.clients[k]? = some client)
      (hlistening : client.listening = .streaming c) :
      Steps s (.hangUp k) (s.set k { client with listening := .ended c }) (.hungUp k)
  | serve {a : Action} {b : GrpcEndpointServer.Action} {server : GrpcEndpointServer.State}
      {e : GrpcEndpointServer.Event} (ha : a.server? = some b)
      (hserver : GrpcEndpointServer.step s.server b = some (server, e)) :
      Steps s a { server := server, clients := s.clients.map (Client.receive e) } (.server e)

section Inversion

variable {s s' : State} {e : Event} {k : Nat} {client : Client}

theorem steps_of_serve {a : Action} {b : GrpcEndpointServer.Action} (ha : a.server? = some b)
    (hstep : serve s b = some (s', e)) : Steps s a s' e := by
  rcases Option.map_eq_some_iff.mp hstep with ⟨⟨server, e'⟩, hserver, heq⟩
  cases heq
  exact .serve ha hserver

theorem steps_of_login (hk : s.clients[k]? = some client)
    (hstep : login s k client = some (s', e)) : Steps s (.login k) s' e := by
  unfold login at hstep
  split at hstep
  · rename_i call answer hlogin
    split at hstep
    · rename_i status hreturned
      cases status with
      | OK =>
          cases hstep
          exact .granted hk hlogin hreturned
      | CANCELLED =>
          cases hstep
          exact .refused hk hlogin
    · cases hstep
  · cases hstep

theorem steps_of_ask (hk : s.clients[k]? = some client)
    (hstep : ask s k client = some (s', e)) : Steps s (.ask k) s' e := by
  unfold ask at hstep
  split at hstep
  · rename_i hsending
    cases hstep
    exact .ask hk hsending
  · cases hstep

/-- What the loop is about to send. -/
theorem sendNext_cases {recepientId : UserID} {message : ProtobufItf.Envelope}
    {next : GrpcClient.Sender} (hnext : sendNext client = some (recepientId, message, next)) :
    client.login = .granted ∧ ∃ sender, client.sending = .ready recepientId sender ∧
      GrpcClient.sendOnce client.endpoint.userId recepientId sender = .ok (message, next) := by
  unfold sendNext at hnext
  split at hnext
  · rename_i hlogin hsending
    split at hnext
    · cases hnext
    · split at hnext
      · cases hnext
      · rename_i hsend
        cases hnext
        exact ⟨hlogin, _, hsending, hsend⟩
  · cases hnext

theorem steps_of_send (hk : s.clients[k]? = some client)
    (hstep : send s k client = some (s', e)) : Steps s (.send k) s' e := by
  unfold send at hstep
  split at hstep
  · cases hstep
  · rename_i hnext
    rcases sendNext_cases hnext with ⟨hlogin, sender, hsending, hsend⟩
    rcases Option.map_eq_some_iff.mp hstep with ⟨⟨server, e'⟩, hserver, heq⟩
    cases heq
    exact .send hk hlogin hsending hsend hserver

theorem steps_of_lose (hk : s.clients[k]? = some client)
    (hstep : lose s k client = some (s', e)) : Steps s (.lose k) s' e := by
  unfold lose at hstep
  split at hstep
  · cases hstep
  · rename_i hnext
    rcases sendNext_cases hnext with ⟨_, sender, hsending, _⟩
    cases hstep
    exact .lose hk hsending

theorem steps_of_proceed (hk : s.clients[k]? = some client)
    (hstep : proceed s k client = some (s', e)) : Steps s (.proceed k) s' e := by
  unfold proceed at hstep
  split at hstep
  · rename_i hsending
    split at hstep
    · rename_i hreturned
      cases hstep
      exact .proceed hk hsending hreturned
    · cases hstep
  · cases hstep

theorem steps_of_abandon (hk : s.clients[k]? = some client)
    (hstep : abandon s k client = some (s', e)) : Steps s (.abandon k) s' e := by
  unfold abandon at hstep
  split at hstep
  · rename_i hsending
    cases hstep
    exact .abandon hk hsending
  · cases hstep

theorem steps_of_listen (hk : s.clients[k]? = some client)
    (hstep : listen s k client = some (s', e)) : Steps s (.listen k) s' e := by
  unfold listen at hstep
  split at hstep
  · rename_i hlogin hlistening
    rcases Option.map_eq_some_iff.mp hstep with ⟨⟨server, e'⟩, hserver, heq⟩
    cases heq
    exact .listen hk hlogin hlistening hserver
  · cases hstep

theorem steps_of_print (hk : s.clients[k]? = some client)
    (hstep : print s k client = some (s', e)) : Steps s (.print k) s' e := by
  unfold print at hstep
  split at hstep
  · rename_i hlistening hflight
    split at hstep
    · cases hstep
    · rename_i hprinted
      cases hstep
      exact .print hk hlistening hflight hprinted
  · cases hstep

theorem steps_of_hangUp (hk : s.clients[k]? = some client)
    (hstep : hangUp s k client = some (s', e)) : Steps s (.hangUp k) s' e := by
  unfold hangUp at hstep
  split at hstep
  · rename_i hlistening
    cases hstep
    exact .hangUp hk hlistening
  · cases hstep

/-- Every computed step is of one of the kinds. -/
theorem steps_of_step {a : Action} (hstep : step s a = some (s', e)) : Steps s a s' e := by
  cases a with
  | start userName stdin answer =>
      rcases Option.map_eq_some_iff.mp hstep with ⟨⟨server, e'⟩, hserver, heq⟩
      cases heq
      exact .start hserver
  | login k =>
      rcases Option.bind_eq_some_iff.mp hstep with ⟨client, hk, hclient⟩
      exact steps_of_login hk hclient
  | ask k =>
      rcases Option.bind_eq_some_iff.mp hstep with ⟨client, hk, hclient⟩
      exact steps_of_ask hk hclient
  | send k =>
      rcases Option.bind_eq_some_iff.mp hstep with ⟨client, hk, hclient⟩
      exact steps_of_send hk hclient
  | lose k =>
      rcases Option.bind_eq_some_iff.mp hstep with ⟨client, hk, hclient⟩
      exact steps_of_lose hk hclient
  | proceed k =>
      rcases Option.bind_eq_some_iff.mp hstep with ⟨client, hk, hclient⟩
      exact steps_of_proceed hk hclient
  | abandon k =>
      rcases Option.bind_eq_some_iff.mp hstep with ⟨client, hk, hclient⟩
      exact steps_of_abandon hk hclient
  | listen k =>
      rcases Option.bind_eq_some_iff.mp hstep with ⟨client, hk, hclient⟩
      exact steps_of_listen hk hclient
  | print k =>
      rcases Option.bind_eq_some_iff.mp hstep with ⟨client, hk, hclient⟩
      exact steps_of_print hk hclient
  | hangUp k =>
      rcases Option.bind_eq_some_iff.mp hstep with ⟨client, hk, hclient⟩
      exact steps_of_hangUp hk hclient
  | serve c stack heap => exact steps_of_serve rfl hstep
  | write c ok => exact steps_of_serve rfl hstep

end Inversion

/-! ## The server in the system -/

/-- What the server shows in a run. -/
abbrev history (h : List Event) : List GrpcEndpointServer.Event :=
  h.filterMap Event.server?

/-- Every mailbox that a login creates is well formed and empty. -/
def FreshMailboxes : Guard State Action Event :=
  fun h s a => ∀ b, a.server? = some b →
    GrpcEndpointServer.FreshMailboxes (history h) s.server b

/-- The server takes no step, or one of its own; the outcome of a write is that of the
step. -/
theorem Steps.server {s s' : State} {a : Action} {e : Event} {h : List Event}
    (hsteps : Steps s a s' e) (hfresh : FreshMailboxes h s a) :
    (e.server? = none ∧ s'.server = s.server) ∨
      ∃ b d, e.server? = some d ∧
        (GrpcEndpointServer.FreshMailboxes (history h) s.server b ∧
          ∀ c ok, b = .write c ok → a = .write c ok) ∧
        GrpcEndpointServer.step s.server b = some (s'.server, d) := by
  cases hsteps with
  | start hserver =>
      exact .inr ⟨_, _, rfl, ⟨fun _ _ _ _ hb => (by cases hb), fun _ _ hb => (by cases hb)⟩, hserver⟩
  | send _ _ _ _ hserver =>
      exact .inr ⟨_, _, rfl, ⟨fun _ _ _ _ hb => (by cases hb), fun _ _ hb => (by cases hb)⟩, hserver⟩
  | listen _ _ _ hserver =>
      exact .inr ⟨_, _, rfl, ⟨fun _ _ _ _ hb => (by cases hb), fun _ _ hb => (by cases hb)⟩, hserver⟩
  | serve ha hserver =>
      refine .inr ⟨_, _, rfl, ⟨hfresh _ ha, ?_⟩, hserver⟩
      rintro c ok rfl
      cases a with
      | write c' ok' =>
          cases ha
          rfl
      | _ => cases ha
  | _ => exact .inl ⟨rfl, rfl⟩

/-- What the server sees of a run is a run of the server. -/
theorem server_run {h : List Event} {s : State} (hrun : messenger.Run FreshMailboxes h s) :
    GrpcEndpointServer.server.Run GrpcEndpointServer.FreshMailboxes (history h) s.server := by
  refine hrun.component State.server Event.server? rfl fun h s a s' e hfresh hstep => ?_
  rcases (steps_of_step hstep).server hfresh with hnone | ⟨b, d, hsome, hboth, hserver⟩
  · exact .inl hnone
  · exact .inr ⟨b, d, hsome, hboth.1, hserver⟩

/-- The test for schedules: all memory for mailboxes has the cursors of an empty one. -/
def cursorsEmpty (a : Action) : Bool :=
  a.server?.all GrpcEndpointServer.cursorsEmpty

theorem freshMailboxes_of_cursorsEmpty (h : List Event) (s : State) (a : Action)
    (hcursors : cursorsEmpty a = true) : FreshMailboxes h s a := by
  intro b hb
  rw [cursorsEmpty, hb] at hcursors
  exact GrpcEndpointServer.freshMailboxes_of_cursorsEmpty _ _ _ hcursors

/-! ## Users -/

/-- The user that a client has logged in as. -/
def Client.identity (client : Client) : Option UserID :=
  if client.login = .granted then some client.endpoint.userId else none

/-- The user that client `k` has logged in as. -/
def State.identity (s : State) (k : Nat) : Option UserID :=
  s.clients[k]?.bind Client.identity

theorem identity_of_granted {s : State} {k : Nat} {client : Client}
    (hk : s.clients[k]? = some client) (hlogin : client.login = .granted) :
    s.identity k = some client.endpoint.userId := by
  rw [State.identity, hk, Option.bind_some, Client.identity, if_pos hlogin]

/-- Nobody becomes another user: a step is the client's only login, or leaves it who it
is. -/
theorem Steps.identity_cases {s s' : State} {a : Action} {e : Event} (hsteps : Steps s a s' e)
    (k : Nat) :
    (s'.identity k = s.identity k ∧ ∀ u, e ≠ .loggedIn k u) ∨
      ∃ u, e = .loggedIn k u ∧ s.identity k = none ∧ s'.identity k = some u := by
  cases hsteps with
  | start _ => exact .inl ⟨bind_append_of_none (by rfl) k, nofun⟩
  | @granted j call client answer hj hlogin hreturned =>
      by_cases hkj : k = j
      · subst hkj
        refine .inr ⟨_, rfl, ?_, ?_⟩
        · rw [State.identity, hj, Option.bind_some, Client.identity, if_neg (by simp [hlogin])]
        · rw [State.identity, State.set, getElem?_set_of_some hj]
          rfl
      · refine .inl ⟨?_, fun u heq => hkj (Event.loggedIn.inj heq).1.symm⟩
        rw [State.identity, State.set, List.getElem?_set_ne (Ne.symm hkj), State.identity]
  | refused hj hlogin =>
      refine .inl ⟨bind_set_of_eq hj ?_ k, nofun⟩
      simp [Client.identity, hlogin]
  | ask hj _ => exact .inl ⟨bind_set_of_eq hj (by rfl) k, nofun⟩
  | send hj _ _ _ _ => exact .inl ⟨bind_set_of_eq hj (by rfl) k, nofun⟩
  | lose hj _ => exact .inl ⟨bind_set_of_eq hj (by rfl) k, nofun⟩
  | proceed hj _ _ => exact .inl ⟨bind_set_of_eq hj (by rfl) k, nofun⟩
  | abandon hj _ => exact .inl ⟨bind_set_of_eq hj (by rfl) k, nofun⟩
  | listen hj _ _ _ => exact .inl ⟨bind_set_of_eq hj (by rfl) k, nofun⟩
  | print hj _ _ _ => exact .inl ⟨bind_set_of_eq hj (by rfl) k, nofun⟩
  | hangUp hj _ => exact .inl ⟨bind_set_of_eq hj (by rfl) k, nofun⟩
  | serve _ _ =>
      refine .inl ⟨bind_map_of_eq ?_ k, nofun⟩
      intro client
      simp [Client.identity]

/-- Who the clients are, from the history. -/
structure Identified (h : List Event) (s : State) : Prop where
  known : ∀ (k : Nat) (u : UserID), .loggedIn k u ∈ h ↔ s.identity k = some u
  listener : ∀ client ∈ s.clients, client.listening ≠ .notStarted → client.login = .granted
  sender : ∀ (k : Nat) (v r : UserID) (text : Bytes) (d : GrpcEndpointServer.Event),
    .sent k v r text d ∈ h → .loggedIn k v ∈ h
  reader : ∀ (k : Nat) (u : UserID) (text : Bytes), .printed k u text ∈ h → .loggedIn k u ∈ h

theorem Identified.known_step {h : List Event} {s s' : State} {a : Action} {e : Event}
    (hold : Identified h s) (hsteps : Steps s a s' e) (k : Nat) (u : UserID) :
    .loggedIn k u ∈ h ++ [e] ↔ s'.identity k = some u := by
  rw [List.mem_append, List.mem_singleton, hold.known]
  rcases hsteps.identity_cases k with ⟨hsame, hne⟩ | ⟨v, rfl, hnone, hsome⟩
  · rw [hsame]
    exact or_iff_left (Ne.symm (hne u))
  · rw [hnone, hsome]
    simp [eq_comm]

/-- A client that listens has been granted access. -/
theorem Identified.listener_step {h : List Event} {s s' : State} {a : Action} {e : Event}
    (hold : Identified h s) (hsteps : Steps s a s' e) :
    ∀ client ∈ s'.clients, client.listening ≠ .notStarted → client.login = .granted := by
  have hset : ∀ (j : Nat) (after : Client),
      (after.listening ≠ .notStarted → after.login = .granted) →
        ∀ client ∈ s.clients.set j after,
          client.listening ≠ .notStarted → client.login = .granted := by
    intro j after hafter client hmem
    rcases List.mem_or_eq_of_mem_set hmem with hin | rfl
    · exact hold.listener client hin
    · exact hafter
  cases hsteps with
  | start _ =>
      intro client hmem
      rcases List.mem_append.mp hmem with hin | hnew
      · exact hold.listener client hin
      · rw [List.mem_singleton.mp hnew]
        exact fun hne => absurd rfl hne
  | granted hj _ _ => exact hset _ _ fun _ => rfl
  | refused hj hlogin =>
      refine hset _ _ fun hne => ?_
      have hgranted := hold.listener _ (List.mem_of_getElem? hj) hne
      rw [hlogin] at hgranted
      cases hgranted
  | listen hj hlogin _ _ => exact hset _ _ fun _ => hlogin
  | hangUp hj hlistening =>
      have hgranted := hold.listener _ (List.mem_of_getElem? hj) (by rw [hlistening]; nofun)
      exact hset _ _ fun _ => hgranted
  | serve _ _ =>
      intro client hmem
      rcases List.mem_map.mp hmem with ⟨before, hin, rfl⟩
      simpa using hold.listener before hin
  | ask hj _ | send hj _ _ _ _ | lose hj _ | proceed hj _ _ | abandon hj _ | print hj _ _ _ =>
      have hgranted := hold.listener _ (List.mem_of_getElem? hj)
      exact hset _ _ hgranted

theorem Identified.step {h : List Event} {s s' : State} {a : Action} {e : Event}
    (hold : Identified h s) (hsteps : Steps s a s' e) : Identified (h ++ [e]) s' where
  known := hold.known_step hsteps
  listener := hold.listener_step hsteps
  sender := by
    intro k v r text d hmem
    rcases List.mem_append.mp hmem with hin | hnew
    · exact List.mem_append_left _ (hold.sender k v r text d hin)
    · cases List.mem_singleton.mp hnew
      refine List.mem_append_left _ ((hold.known k _).mpr ?_)
      cases hsteps with
      | send hk hlogin _ _ _ => exact identity_of_granted hk hlogin
  reader := by
    intro k u text hmem
    rcases List.mem_append.mp hmem with hin | hnew
    · exact List.mem_append_left _ (hold.reader k u text hin)
    · cases List.mem_singleton.mp hnew
      refine List.mem_append_left _ ((hold.known k _).mpr ?_)
      cases hsteps with
      | print hk hlistening _ _ =>
          refine identity_of_granted hk (hold.listener _ (List.mem_of_getElem? hk) ?_)
          rw [hlistening]
          nofun

theorem identified_run {G : Guard State Action Event} {h : List Event} {s : State}
    (hrun : messenger.Run G h s) : Identified h s := by
  have hstart : Identified [] messenger.init := by
    refine ⟨?_, nofun, nofun, nofun⟩
    intro k u
    simp [State.identity, messenger]
  refine hrun.invariant hstart ?_
  intro h s a s' e _ hold _ hstep
  exact hold.step (steps_of_step hstep)

/-! ## Requests -/

/-- A message that the server receives is one that a client sends in this step, and
carries its text. -/
theorem Steps.received {s s' : State} {a : Action} {e : Event} (hsteps : Steps s a s' e)
    {c : Nat} {message : ProtobufItf.Envelope} (hevent : e.server? = some (.received c message)) :
    ∃ k v r text, e = .sent k v r text (.received c message) ∧
      GrpcClient.Carries v r text message := by
  cases hsteps with
  | start hserver =>
      cases hevent
      cases GrpcEndpointServer.steps_of_step hserver with
      | start hstart => cases hstart
  | send hk hlogin hsending hsend hserver =>
      cases hevent
      cases GrpcEndpointServer.steps_of_step hserver with
      | start hstart =>
          cases hstart
          exact ⟨_, _, _, _, rfl, carries_of_sendOnce hsend⟩
  | listen hk hlogin hlistening hserver =>
      cases hevent
      cases GrpcEndpointServer.steps_of_step hserver with
      | start hstart => cases hstart
  | @serve a b _ _ ha hserver =>
      cases hevent
      cases GrpcEndpointServer.steps_of_step hserver with
      | start hstart =>
          cases hstart
          cases a <;> cases ha
  | _ => cases hevent

/-- Every message that the server receives was sent by a client. -/
theorem sent_of_received {G : Guard State Action Event} {h : List Event} {s : State}
    (hrun : messenger.Run G h s) {c : Nat} {message : ProtobufItf.Envelope}
    (hmem : .received c message ∈ history h) :
    ∃ k v r text, .sent k v r text (.received c message) ∈ h ∧
      GrpcClient.Carries v r text message := by
  rcases List.mem_filterMap.mp hmem with ⟨e, he, hevent⟩
  rcases hrun.step_of_mem he with ⟨_, _, _, _, _, _, hstep⟩
  rcases (steps_of_step hstep).received hevent with ⟨k, v, r, text, rfl, hcarries⟩
  exact ⟨k, v, r, text, he, hcarries⟩

/-- A message carries what its client sent. -/
theorem carries_of_sent {G : Guard State Action Event} {h : List Event} {s : State}
    (hrun : messenger.Run G h s) {k : Nat} {v r : UserID} {text : Bytes} {c : Nat}
    {message : ProtobufItf.Envelope} (hmem : .sent k v r text (.received c message) ∈ h) :
    GrpcClient.Carries v r text message := by
  rcases hrun.step_of_mem hmem with ⟨_, _, _, _, _, _, hstep⟩
  rcases (steps_of_step hstep).received rfl with ⟨_, _, _, _, hsame, hcarries⟩
  cases hsame
  exact hcarries

end Messenger

end SimpleMessenger
