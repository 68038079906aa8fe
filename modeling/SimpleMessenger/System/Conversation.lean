import Mathlib.Data.List.Forall2
import SimpleMessenger.System.Messenger

/-!
# What clients show each other

From keyboard to screen a text crosses a client's buffer, a request, the mailbox of its
recipient, a stream and the other client's buffer, while all other calls go on.  Here the
lines that the clients print are traced back to the calls that sent them.

Main results:

- Theorem {lit}`watched_run`: what a client has printed, and what is on its way to it, is
  what its stream has delivered.
- Theorem {lit}`inTurn_run`: the server stores what a client sends in the order in which
  it is sent, as long as the client waits for every reply.
- Theorem {lit}`conversation`: every line printed is a text sent to its reader, no text
  is printed twice, and all screens show their texts in the order in which the server has
  stored them.

Current gaps:

- Two mailboxes of one user, before and behind a logout, are not told apart.
-/

namespace SimpleMessenger

open CMemory StepSystem NamedQueues GrpcEndpointServer GrpcEndpointClient

namespace Messenger

/-! ## Screens and requests -/

def Event.line? (k : Nat) : Event → Option (UserID × Bytes)
  | .printed j u text => if j = k then some (u, text) else none
  | _ => none

/-- The lines that client `k` has printed, each with the user it was logged in as. -/
def printedBy (k : Nat) (h : List Event) : List (UserID × Bytes) :=
  h.filterMap (Event.line? k)

def Event.request? (k : Nat) : Event → Option Nat
  | .sent j _ _ _ (.received c _) => if j = k then some c else none
  | _ => none

/-- The calls by which client `k` has sent its texts. -/
def sentBy (k : Nat) (h : List Event) : List Nat :=
  h.filterMap (Event.request? k)

/-- The call of a client's stream. -/
def Client.stream? (client : Client) : Option Nat :=
  match client.listening with
  | .notStarted => none
  | .streaming c => some c
  | .ended c => some c

def State.stream (s : State) (k : Nat) : Option Nat :=
  s.clients[k]?.bind Client.stream?

/-- The call that a client waits for. -/
def Client.awaited? (client : Client) : Option Nat :=
  match client.sending with
  | .waiting c _ _ => some c
  | _ => none

def State.awaited (s : State) (k : Nat) : Option Nat :=
  s.clients[k]?.bind Client.awaited?

theorem mem_printedBy {k : Nat} {line : UserID × Bytes} {h : List Event}
    (hmem : line ∈ printedBy k h) : .printed k line.1 line.2 ∈ h := by
  rcases List.mem_filterMap.mp hmem with ⟨e, he, hline⟩
  cases e with
  | printed j u text =>
      simp only [Event.line?, Option.ite_none_right_eq_some] at hline
      rcases hline with ⟨rfl, hsame⟩
      cases hsame
      exact he
  | _ => cases hline

/-- What a stream has delivered, after one more step. -/
theorem deliveredBy_history_snoc (c : Nat) (h : List Event) (e : Event) :
    deliveredBy c (history (h ++ [e])) =
      deliveredBy c (history h) ++ (e.server?.bind (GrpcEndpointServer.Event.deliveredBy? c)).toList := by
  unfold deliveredBy history
  rw [List.filterMap_filterMap, List.filterMap_filterMap]
  exact filterMap_snoc _ h e

/-! ## Streams and their clients -/

/-- The server's part in a step, for one of its streams. -/
theorem serves_of_steps {s s' : State} {a : Action} {e : Event} {h : List Event} {c : Nat}
    {u : UserID} (hserves : Serves (history h) s.server c u) (hsteps : Steps s a s' e)
    (hfresh : FreshMailboxes h s a) : Serves (history (h ++ [e])) s'.server c u := by
  rw [history, filterMap_snoc]
  rcases hsteps.server hfresh with ⟨hnone, hsame⟩ | ⟨b, d, hsome, _, hstep⟩
  · rw [hnone, hsame]
    simpa using hserves
  · rw [hsome]
    exact hserves.step (GrpcEndpointServer.steps_of_step hstep)

/-- A stream is opened, or all are what they were. -/
theorem Steps.stream_cases {s s' : State} {a : Action} {e : Event} (hsteps : Steps s a s' e) :
    (∀ k, s'.stream k = s.stream k) ∨
      ∃ j client d, s.clients[j]? = some client ∧ client.login = .granted ∧
        s.stream j = none ∧ e = .server d ∧
        GrpcEndpointServer.step s.server (.streamIncomingMessages client.endpoint.listenMetadata) =
          some (s'.server, d) ∧
        s'.stream j = some s.server.handlers.length ∧ ∀ k, k ≠ j → s'.stream k = s.stream k := by
  cases hsteps with
  | start _ => exact .inl (bind_append_of_none (by rfl))
  | granted hj _ _ => exact .inl (bind_set_of_eq hj (by rfl))
  | refused hj _ => exact .inl (bind_set_of_eq hj (by rfl))
  | ask hj _ => exact .inl (bind_set_of_eq hj (by rfl))
  | send hj _ _ _ _ => exact .inl (bind_set_of_eq hj (by rfl))
  | lose hj _ => exact .inl (bind_set_of_eq hj (by rfl))
  | proceed hj _ _ => exact .inl (bind_set_of_eq hj (by rfl))
  | abandon hj _ => exact .inl (bind_set_of_eq hj (by rfl))
  | @listen j client server d hj hlogin hlistening hserver =>
      refine .inr ⟨j, client, d, hj, hlogin, ?_, rfl, hserver, ?_, ?_⟩
      · rw [State.stream, hj, Option.bind_some, Client.stream?, hlistening]
      · rw [State.stream, getElem?_set_of_some hj]
        rfl
      · intro k hkj
        rw [State.stream, List.getElem?_set_ne (Ne.symm hkj), State.stream]
  | print hj _ _ _ => exact .inl (bind_set_of_eq hj (by rfl))
  | hangUp hj hlistening =>
      refine .inl (bind_set_of_eq hj ?_)
      simp only [Client.stream?, hlistening]
  | serve _ _ =>
      refine .inl (bind_map_of_eq ?_)
      intro client
      simp [Client.stream?]

/-- Every client has a stream of its own, which serves its user. -/
structure Streaming (h : List Event) (s : State) : Prop where
  serves : ∀ k c, s.stream k = some c →
    ∃ u, s.identity k = some u ∧ Serves (history h) s.server c u
  distinct : ∀ k j c, s.stream k = some c → s.stream j = some c → k = j

theorem Streaming.step {h : List Event} {s s' : State} {a : Action} {e : Event}
    (hold : Streaming h s) (hsteps : Steps s a s' e) (hfresh : FreshMailboxes h s a)
    (hrun : messenger.Run FreshMailboxes h s) : Streaming (h ++ [e]) s' := by
  have hid : ∀ k u, s.identity k = some u → s'.identity k = some u := by
    intro k u hu
    rcases hsteps.identity_cases k with ⟨hsame, _⟩ | ⟨v, _, hnone, _⟩
    · rw [hsame, hu]
    · rw [hu] at hnone
      cases hnone
  have hkept : ∀ k c, s.stream k = some c →
      ∃ u, s'.identity k = some u ∧ Serves (history (h ++ [e])) s'.server c u := by
    intro k c hc
    rcases hold.serves k c hc with ⟨u, hu, hserves⟩
    exact ⟨u, hid k u hu, serves_of_steps hserves hsteps hfresh⟩
  rcases hsteps.stream_cases with
    hsame | ⟨j, client, d, hj, hlogin, hnone, rfl, hstep, hopened, hothers⟩
  · refine ⟨fun k c hc => hkept k c (hsame k ▸ hc), fun k j c hk hj => ?_⟩
    exact hold.distinct k j c (hsame k ▸ hk) (hsame j ▸ hj)
  · -- the other streams have smaller numbers
    have hless : ∀ k c, k ≠ j → s'.stream k = some c → c < s.server.handlers.length := by
      intro k c hkj hc
      rcases hold.serves k c (hothers k hkj ▸ hc) with ⟨_, _, hserves⟩
      rcases hserves.handler with ⟨handler, hhandler, _⟩
      exact (List.getElem?_eq_some_iff.mp hhandler).1
    constructor
    · intro k c hc
      by_cases hkj : k = j
      · subst hkj
        rw [hopened] at hc
        cases hc
        rcases serves_start (server_run hrun) (streamUser_listenMetadata _) hstep with
          ⟨_, hserves, _⟩
        refine ⟨_, hid k _ (identity_of_granted hj hlogin), ?_⟩
        rwa [history, filterMap_snoc]
      · exact hkept k c (hothers k hkj ▸ hc)
    · intro k i c hk hi
      by_cases hkj : k = j
      · by_cases hij : i = j
        · rw [hkj, hij]
        · rw [hkj, hopened] at hk
          cases hk
          exact absurd (hless i _ hij hi) (lt_irrefl _)
      · by_cases hij : i = j
        · rw [hij, hopened] at hi
          cases hi
          exact absurd (hless k _ hkj hk) (lt_irrefl _)
        · exact hold.distinct k i c (hothers k hkj ▸ hk) (hothers i hij ▸ hi)

theorem streaming_run {h : List Event} {s : State} (hrun : messenger.Run FreshMailboxes h s) :
    Streaming h s := by
  have hstart : Streaming [] messenger.init := by
    constructor <;> simp [State.stream, messenger]
  refine hrun.invariant hstart ?_
  intro h s a s' e hprev hold hfresh hstep
  exact hold.step (steps_of_step hstep) hfresh hprev

/-! ## Reading a stream -/

/-- The line shows the text of the envelope. -/
def Shows (line : UserID × Bytes) (parcel : Parcel) : Prop :=
  parcel.env.payload.cstring = .ok line.2

/-- The message is an encoding of the envelope. -/
def Encodes (message : ProtobufItf.Envelope) (parcel : Parcel) : Prop :=
  ∃ old, putEnvToProtoBuf parcel.env old = .ok message

/-- What client `k` has printed, and what is on its way to it, is what its stream has
delivered; what is delivered to a client that has hung up is not read. -/
inductive Watches (h : List Event) (k : Nat) : Listening → List ProtobufItf.Envelope → Prop where
  | notStarted (hprinted : printedBy k h = []) : Watches h k .notStarted []
  | streaming {c : Nat} {read pending : List Parcel} {inFlight : List ProtobufItf.Envelope}
      (hdelivered : deliveredBy c (history h) = read ++ pending)
      (hread : List.Forall₂ Shows (printedBy k h) read)
      (hflight : List.Forall₂ Encodes inFlight pending) : Watches h k (.streaming c) inFlight
  | ended {c : Nat} {read pending : List Parcel} {inFlight : List ProtobufItf.Envelope}
      (hdelivered : deliveredBy c (history h) = read ++ pending)
      (hread : List.Forall₂ Shows (printedBy k h) read) : Watches h k (.ended c) inFlight

/-- A step by which the client prints nothing, and no stream delivers anything. -/
theorem Watches.quiet {h : List Event} {k : Nat} {listening : Listening}
    {inFlight : List ProtobufItf.Envelope} (hold : Watches h k listening inFlight) {e : Event}
    (hline : e.line? k = none)
    (hdelivered : ∀ c, deliveredBy c (history (h ++ [e])) = deliveredBy c (history h)) :
    Watches (h ++ [e]) k listening inFlight := by
  have hprinted : printedBy k (h ++ [e]) = printedBy k h := by
    rw [printedBy, filterMap_snoc, hline, Option.toList_none, List.append_nil, printedBy]
  cases hold with
  | notStarted hnone => exact .notStarted (hprinted.trans hnone)
  | streaming hsplit hread hflight =>
      exact .streaming ((hdelivered _).trans hsplit) (hprinted ▸ hread) hflight
  | ended hsplit hread => exact .ended ((hdelivered _).trans hsplit) (hprinted ▸ hread)

/-- Nothing arrives without a stream. -/
theorem receive_of_ne {client : Client} (hne : ∀ c, client.listening ≠ .streaming c)
    (d : GrpcEndpointServer.Event) : client.receive d = client := by
  unfold Client.receive
  grind

/-- What arrives at a client is what its stream delivers. -/
theorem receive_inFlight {server server' : GrpcEndpointServer.State}
    {b : GrpcEndpointServer.Action} {d : GrpcEndpointServer.Event}
    (hsteps : GrpcEndpointServer.Steps server b server' d) {client : Client} {c : Nat}
    (hlistening : client.listening = .streaming c) :
    ∃ arrived, (client.receive d).inFlight = client.inFlight ++ arrived ∧
      List.Forall₂ Encodes arrived (d.deliveredBy? c).toList := by
  cases d with
  | wrote c' u parcel message ok =>
      cases ok with
      | true =>
          by_cases hc : c' = c
          · subst hc
            rcases hsteps.wrote with ⟨old, _, hencode⟩
            refine ⟨[message], by simp [Client.receive, hlistening], ?_⟩
            simpa [GrpcEndpointServer.Event.deliveredBy?] using ⟨old, hencode⟩
          · refine ⟨[], ?_, ?_⟩
            · simp [Client.receive, hlistening, Ne.symm hc]
            · simp [GrpcEndpointServer.Event.deliveredBy?, hc]
      | false => exact ⟨[], (List.append_nil _).symm, .nil⟩
  | _ => exact ⟨[], (List.append_nil _).symm, .nil⟩

/-- A step of the server. -/
theorem Watches.serve {h : List Event} {k : Nat} {client : Client}
    (hold : Watches h k client.listening client.inFlight) {server server' : GrpcEndpointServer.State}
    {b : GrpcEndpointServer.Action} {d : GrpcEndpointServer.Event}
    (hsteps : GrpcEndpointServer.Steps server b server' d) :
    Watches (h ++ [.server d]) k client.listening (client.receive d).inFlight := by
  have hprinted : printedBy k (h ++ [.server d]) = printedBy k h := by
    simp [printedBy, Event.line?]
  have hdelivered : ∀ c, deliveredBy c (history (h ++ [.server d])) =
      deliveredBy c (history h) ++ (d.deliveredBy? c).toList :=
    fun c => deliveredBy_history_snoc c h _
  cases hlistening : client.listening with
  | notStarted =>
      rw [receive_of_ne (by rw [hlistening]; nofun)]
      rw [hlistening] at hold
      generalize client.inFlight = inFlight at hold ⊢
      cases hold with
      | notStarted hnone => exact .notStarted (hprinted.trans hnone)
  | streaming c =>
      rcases receive_inFlight hsteps hlistening with ⟨arrived, hreceive, harrived⟩
      rw [hreceive]
      rw [hlistening] at hold
      generalize client.inFlight = inFlight at hold ⊢
      cases hold with
      | streaming hsplit hread hflight =>
          refine .streaming ?_ (hprinted ▸ hread) (List.rel_append hflight harrived)
          rw [hdelivered, hsplit, List.append_assoc]
  | ended c =>
      rw [receive_of_ne (by rw [hlistening]; nofun)]
      rw [hlistening] at hold
      generalize client.inFlight = inFlight at hold ⊢
      cases hold with
      | @ended _ read pending _ hsplit hread =>
          have hlonger := hdelivered c
          rw [hsplit, List.append_assoc] at hlonger
          exact .ended hlonger (hprinted ▸ hread)

/-- Every client watches its stream. -/
def Watched (h : List Event) (s : State) : Prop :=
  ∀ k client, s.clients[k]? = some client → Watches h k client.listening client.inFlight

/-- A step of client `j` that no other client notices. -/
theorem Watched.set {h : List Event} {s : State} (hold : Watched h s) {e : Event} {j : Nat}
    {after : Client} (hline : ∀ k, k ≠ j → e.line? k = none)
    (hdelivered : ∀ c, deliveredBy c (history (h ++ [e])) = deliveredBy c (history h))
    (hafter : Watches (h ++ [e]) j after.listening after.inFlight)
    (server : GrpcEndpointServer.State) :
    Watched (h ++ [e]) { server := server, clients := s.clients.set j after } := by
  intro k client hk
  rcases getElem?_set_cases hk with ⟨rfl, rfl⟩ | ⟨hkj, hk⟩
  · exact hafter
  · exact (hold k client hk).quiet (hline k hkj) hdelivered

/-- A step of client `j` that has nothing to do with its stream. -/
theorem Watched.set_same {h : List Event} {s : State} (hold : Watched h s) {e : Event} {j : Nat}
    {before after : Client} (hj : s.clients[j]? = some before) (hline : ∀ k, e.line? k = none)
    (hdelivered : ∀ c, deliveredBy c (history (h ++ [e])) = deliveredBy c (history h))
    (hlistening : after.listening = before.listening) (hflight : after.inFlight = before.inFlight)
    (server : GrpcEndpointServer.State) :
    Watched (h ++ [e]) { server := server, clients := s.clients.set j after } := by
  refine hold.set (fun k _ => hline k) hdelivered ?_ server
  rw [hlistening, hflight]
  exact (hold j before hj).quiet (hline j) hdelivered

/-- A step of the server that writes nothing delivers nothing. -/
theorem deliveredBy_history_of_none {h : List Event} {e : Event}
    (hnone : ∀ c, e.server?.bind (GrpcEndpointServer.Event.deliveredBy? c) = none) (c : Nat) :
    deliveredBy c (history (h ++ [e])) = deliveredBy c (history h) := by
  rw [deliveredBy_history_snoc, hnone, Option.toList_none, List.append_nil]

/-- Calls start with events that are no deliveries. -/
theorem deliveredBy?_of_starts {n : Nat} {b : GrpcEndpointServer.Action} {handler : Handler}
    {d : GrpcEndpointServer.Event} (hstarts : Starts n b handler d) (c : Nat) :
    d.deliveredBy? c = none := by
  cases hstarts <;> rfl

theorem Watched.step {h : List Event} {s s' : State} {a : Action} {e : Event}
    (hold : Watched h s) (hsteps : Steps s a s' e) (hrun : messenger.Run FreshMailboxes h s) :
    Watched (h ++ [e]) s' := by
  cases hsteps with
  | start hserver =>
      cases GrpcEndpointServer.steps_of_step hserver with
      | start hstarts =>
          intro k client hk
          rcases getElem?_append_cases hk with ⟨rfl, rfl⟩ | hk
          · refine .notStarted (List.filterMap_eq_nil_iff.mpr ?_)
            -- the client is new, and so it has not printed anything
            intro e he
            cases e with
            | printed j u text =>
                refine if_neg fun hj => ?_
                have hmem : .printed j u text ∈ h := by simpa using he
                have hid := ((identified_run hrun).known j u).mp
                  ((identified_run hrun).reader j u text hmem)
                rw [hj, State.identity, List.getElem?_eq_none le_rfl] at hid
                cases hid
            | _ => rfl
          · exact (hold k client hk).quiet rfl
              (deliveredBy_history_of_none (deliveredBy?_of_starts hstarts))
  | granted hj _ _ | refused hj _ | ask hj _ | lose hj _ | proceed hj _ _ | abandon hj _ =>
      exact hold.set_same hj (by exact fun _ => rfl)
        (deliveredBy_history_of_none (by exact fun _ => rfl)) (by rfl) (by rfl) _
  | send hj _ _ _ hserver =>
      cases GrpcEndpointServer.steps_of_step hserver with
      | start hstarts =>
          exact hold.set_same hj (by exact fun _ => rfl)
            (deliveredBy_history_of_none (by exact deliveredBy?_of_starts hstarts))
            (by rfl) (by rfl) _
  | @listen j client _ _ hj _ hlistening hserver =>
      rcases serves_start (server_run hrun) (streamUser_listenMetadata _) hserver with
        ⟨rfl, _, hempty⟩
      refine hold.set (fun _ _ => rfl) (deliveredBy_history_of_none fun _ => rfl) ?_ _
      have hnothing := hold j client hj
      rw [hlistening] at hnothing
      generalize hflight : client.inFlight = inFlight at hnothing
      cases hnothing with
      | notStarted hprinted =>
          have hprinted' : printedBy j (h ++ [.server (.called s.server.handlers.length)]) = [] := by
            simpa [printedBy, Event.line?] using hprinted
          have hdelivered : deliveredBy s.server.handlers.length
              (history (h ++ [.server (.called s.server.handlers.length)])) = [] ++ [] := by
            rw [history, filterMap_snoc]
            exact hempty
          refine .streaming hdelivered ?_ ?_
          · rw [hprinted']
            exact .nil
          · exact .nil
  | @print j c client message rest text hj hlistening hflight hprinted =>
      refine hold.set ?_ (deliveredBy_history_of_none fun _ => rfl) ?_ _
      · intro k hkj
        exact if_neg (Ne.symm hkj)
      · have hwatches := hold j client hj
        rw [hlistening, hflight] at hwatches
        cases hwatches with
        | @streaming _ read pending _ hdelivered hread hflight' =>
            cases hflight' with
            | @cons _ parcel _ pending hencodes hrest =>
                rcases hencodes with ⟨old, hencode⟩
                have hprintedBy : printedBy j (h ++ [.printed j client.endpoint.userId text]) =
                    printedBy j h ++ [(client.endpoint.userId, text)] := by
                  simp [printedBy, Event.line?]
                have hsplit : deliveredBy c
                    (history (h ++ [.printed j client.endpoint.userId text])) =
                      (read ++ [parcel]) ++ pending := by
                  rw [deliveredBy_history_of_none (fun _ => rfl), hdelivered, List.append_assoc]
                  rfl
                rw [hlistening]
                refine .streaming hsplit ?_ hrest
                rw [hprintedBy]
                exact List.rel_append hread (.cons (cstring_of_printed hencode hprinted) .nil)
  | @hangUp j c client hj hlistening =>
      have hnone : ∀ c, deliveredBy c (history (h ++ [.hungUp j])) = deliveredBy c (history h) :=
        deliveredBy_history_of_none fun _ => rfl
      refine hold.set (fun _ _ => rfl) hnone ?_ _
      have hwatches : Watches (h ++ [.hungUp j]) j client.listening client.inFlight :=
        (hold j client hj).quiet rfl hnone
      rw [hlistening] at hwatches
      generalize client.inFlight = inFlight at hwatches ⊢
      cases hwatches with
      | streaming hdelivered hread _ => exact .ended hdelivered hread
  | serve _ hserver =>
      intro k client hk
      rw [List.getElem?_map] at hk
      rcases Option.map_eq_some_iff.mp hk with ⟨before, hbefore, rfl⟩
      rw [Client.receive_listening]
      exact (hold k before hbefore).serve (GrpcEndpointServer.steps_of_step hserver)

theorem watched_run {h : List Event} {s : State} (hrun : messenger.Run FreshMailboxes h s) :
    Watched h s := by
  refine hrun.invariant (I := Watched) ?_ ?_
  · intro k client hk
    simp [messenger] at hk
  · intro h s a s' e hprev hold _ hstep
    exact hold.step (steps_of_step hstep) hprev

/-! ## The order of one sender -/

/-- The calls that have stored an envelope, in the order in which they have done so. -/
def storedCalls (h : List GrpcEndpointServer.Event) : List Nat :=
  (puts (h.map GrpcEndpointServer.Event.effect)).map fun p => p.2.call

theorem storedCalls_snoc (h : List GrpcEndpointServer.Event) (d : GrpcEndpointServer.Event) :
    storedCalls (h ++ [d]) =
      storedCalls h ++ (d.effect.put?.toList.map fun p => p.2.call) := by
  rw [storedCalls, List.map_append, List.map_singleton, puts_snoc, List.map_append, storedCalls]

/-- A call that has stored an envelope has returned. -/
theorem returned_of_stored {G : Guard GrpcEndpointServer.State GrpcEndpointServer.Action
      GrpcEndpointServer.Event} {h : List GrpcEndpointServer.Event}
    {server : GrpcEndpointServer.State} (hrun : GrpcEndpointServer.server.Run G h server) {c : Nat}
    (hc : c ∈ storedCalls h) : server.handlers[c]? = some (.returned .OK) := by
  rcases List.mem_map.mp hc with ⟨⟨u, parcel⟩, hput, hcall⟩
  rcases mem_puts_iff.mp hput with ⟨d, hpushed⟩
  rcases (callInv_run hrun).stored d u parcel true hpushed with ⟨hd, _, _, hreturned⟩
  have hcd : d = c := hd.symm.trans hcall
  rw [← hcd]
  exact hreturned

/-- A step of the server stores nothing, or stores for a call that is about to return. -/
theorem storedCalls_cases {server server' : GrpcEndpointServer.State}
    {b : GrpcEndpointServer.Action} {d : GrpcEndpointServer.Event}
    (hsteps : GrpcEndpointServer.Steps server b server' d) (h : List GrpcEndpointServer.Event) :
    storedCalls (h ++ [d]) = storedCalls h ∨
      ∃ c env, server.handlers[c]? = some (.pushing env) ∧
        storedCalls (h ++ [d]) = storedCalls h ++ [c] := by
  rw [storedCalls_snoc]
  cases hput : d.effect.put? with
  | none => exact .inl (List.append_nil _)
  | some p =>
      rcases effect_eq_put_iff.mp (put?_eq_some_iff.mp hput) with ⟨c, rfl⟩
      rcases hsteps.pushed with ⟨hpushing, hcall, _, _⟩
      refine .inr ⟨c, _, hpushing, ?_⟩
      rw [← hcall]
      rfl

/-- What a step does to the sending of client `j`. -/
inductive Sends (s s' : State) (e : Event) (j : Nat) : Prop where
  /-- Nothing. -/
  | quiet (hawaited : s'.awaited j = s.awaited j) (hrequest : e.request? j = none)
  /-- It sends a text and waits. -/
  | sent (hbefore : s.awaited j = none) (hafter : s'.awaited j = some s.server.handlers.length)
      (hrequest : e.request? j = some s.server.handlers.length)
      (hserver : ∃ message, e.server? = some (.received s.server.handlers.length message))
  /-- It has got its reply. -/
  | replied {c : Nat} {status : Status} (hbefore : s.awaited j = some c)
      (hafter : s'.awaited j = none) (hrequest : e.request? j = none) (hserver : e.server? = none)
      (hreturned : s.server.handlers[c]? = some (.returned status))
  | abandoned (hevent : e = .abandoned j)

theorem Steps.sends {s s' : State} {a : Action} {e : Event} (hsteps : Steps s a s' e) (j : Nat) :
    Sends s s' e j := by
  have hset : ∀ {k : Nat} {before after : Client} {server : GrpcEndpointServer.State},
      s.clients[k]? = some before → after.awaited? = before.awaited? →
        State.awaited { server := server, clients := s.clients.set k after } j = s.awaited j :=
    fun hk hsame => bind_set_of_eq hk hsame j
  cases hsteps with
  | start _ => exact .quiet (bind_append_of_none (by rfl) j) rfl
  | granted hk _ _ | refused hk _ | listen hk _ _ _ | hangUp hk _ =>
      exact .quiet (hset hk (by rfl)) rfl
  | print hk _ _ _ => exact .quiet (hset hk (by rfl)) rfl
  | ask hk hsending => exact .quiet (hset hk (by simp [Client.awaited?, hsending])) rfl
  | lose hk hsending => exact .quiet (hset hk (by simp [Client.awaited?, hsending])) rfl
  | @send k client recepientId sender next message server d hk hlogin hsending hsend hserver =>
      cases GrpcEndpointServer.steps_of_step hserver with
      | start hstarts =>
          cases hstarts
          by_cases hkj : k = j
          · subst hkj
            refine .sent ?_ ?_ (if_pos rfl) ⟨message, rfl⟩
            · simp [State.awaited, hk, Client.awaited?, hsending]
            · simp [State.awaited, getElem?_set_of_some hk, Client.awaited?]
          · refine .quiet ?_ (if_neg hkj)
            rw [State.awaited, List.getElem?_set_ne hkj, State.awaited]
  | @proceed k c client recepientId sender status hk hsending hreturned =>
      by_cases hkj : k = j
      · subst hkj
        refine .replied ?_ ?_ rfl rfl hreturned
        · simp [State.awaited, hk, Client.awaited?, hsending]
        · simp [State.awaited, State.set, getElem?_set_of_some hk, Client.awaited?]
      · refine .quiet ?_ rfl
        rw [State.awaited, State.set, List.getElem?_set_ne hkj, State.awaited]
  | @abandon k c client recepientId sender hk hsending =>
      by_cases hkj : k = j
      · exact .abandoned (by rw [hkj])
      · refine .quiet ?_ rfl
        rw [State.awaited, State.set, List.getElem?_set_ne hkj, State.awaited]
  | serve _ _ =>
      refine .quiet (bind_map_of_eq ?_ j) rfl
      intro client
      simp [Client.awaited?]

/-- All calls of client `j` have returned, except for the one that it waits for, and those
that stored an envelope have done so in turn. -/
structure InTurn (h : List Event) (s : State) (j : Nat) : Prop where
  returned : ∃ done, sentBy j h = done ++ (s.awaited j).toList ∧
    ∀ c ∈ done, ∃ status, s.server.handlers[c]? = some (.returned status)
  stored : ((storedCalls (history h)).filter (· ∈ sentBy j h)).Sublist (sentBy j h)

/-- A call that is about to store an envelope is the one that its client waits for, so
that all others of the client have had their turn. -/
theorem InTurn.sublist_concat {h : List Event} {s : State} {j c : Nat} {env : Envelope}
    (hold : InTurn h s j) (hpushing : s.server.handlers[c]? = some (.pushing env))
    (hnew : c ∉ storedCalls (history h)) :
    ((storedCalls (history h) ++ [c]).filter (· ∈ sentBy j h)).Sublist (sentBy j h) := by
  rw [List.filter_append]
  by_cases hc : c ∈ sentBy j h
  · rcases hold.returned with ⟨done, hsent, hdone⟩
    have hlast : sentBy j h = done ++ [c] := by
      rw [hsent] at hc
      rcases List.mem_append.mp hc with hin | hawaited
      · rcases hdone c hin with ⟨status, hreturned⟩
        rw [hpushing] at hreturned
        cases hreturned
      · rw [hsent, Option.mem_toList.mp hawaited, Option.toList_some]
    have hbefore : ((storedCalls (history h)).filter (· ∈ sentBy j h)).Sublist done := by
      refine sublist_of_sublist_concat (x := c) ?_ ?_
      · rw [← hlast]
        exact hold.stored
      · exact fun hmem => hnew (List.mem_of_mem_filter hmem)
    have hone : [c].filter (· ∈ sentBy j h) = [c] := by simp [hc]
    have hwhole := hbefore.append (List.Sublist.refl [c])
    rw [← hlast] at hwhole
    rwa [hone]
  · have hnone : [c].filter (· ∈ sentBy j h) = [] := by simp [hc]
    rw [hnone, List.append_nil]
    exact hold.stored

/-- A call that returned stays so. -/
theorem Steps.keeps_returned {s s' : State} {a : Action} {e : Event} {h : List Event}
    (hsteps : Steps s a s' e) (hfresh : FreshMailboxes h s a) {c : Nat} {status : Status}
    (hreturned : s.server.handlers[c]? = some (.returned status)) :
    s'.server.handlers[c]? = some (.returned status) := by
  rcases hsteps.server hfresh with ⟨_, hsame⟩ | ⟨b, d, _, _, hstep⟩
  · rwa [hsame]
  · exact (GrpcEndpointServer.steps_of_step hstep).returned hreturned

theorem sentBy_snoc (j : Nat) (h : List Event) (e : Event) :
    sentBy j (h ++ [e]) = sentBy j h ++ (e.request? j).toList :=
  filterMap_snoc _ h e

theorem InTurn.step {h : List Event} {s s' : State} {a : Action} {e : Event} {j : Nat}
    (hold : InTurn h s j) (hsteps : Steps s a s' e) (hfresh : FreshMailboxes h s a)
    (hrun : messenger.Run FreshMailboxes h s) (hwaits : e ≠ .abandoned j) :
    InTurn (h ++ [e]) s' j := by
  have hkept : ∀ {done : List Nat},
      (∀ c ∈ done, ∃ status, s.server.handlers[c]? = some (.returned status)) →
        ∀ c ∈ done, ∃ status, s'.server.handlers[c]? = some (.returned status) := by
    intro done hdone c hc
    rcases hdone c hc with ⟨status, hreturned⟩
    exact ⟨status, hsteps.keeps_returned hfresh hreturned⟩
  have hstoredLt : ∀ c ∈ storedCalls (history h), c < s.server.handlers.length := by
    intro c hc
    exact (List.getElem?_eq_some_iff.mp (returned_of_stored (server_run hrun) hc)).1
  rcases hold.returned with ⟨done, hsent, hdone⟩
  cases hsteps.sends j with
  | quiet hawaited hrequest =>
      have hsame : sentBy j (h ++ [e]) = sentBy j h := by
        rw [sentBy_snoc, hrequest, Option.toList_none, List.append_nil]
      refine ⟨⟨done, by rw [hsame, hawaited, hsent], hkept hdone⟩, ?_⟩
      simp only [hsame]
      rw [history, filterMap_snoc]
      rcases hsteps.server hfresh with ⟨hnone, _⟩ | ⟨b, d, hsome, _, hstep⟩
      · rw [hnone, Option.toList_none, List.append_nil]
        exact hold.stored
      · rw [hsome, Option.toList_some]
        rcases storedCalls_cases (GrpcEndpointServer.steps_of_step hstep) (history h) with
          hnothing | ⟨c, env, hpushing, hstores⟩
        · rw [hnothing]
          exact hold.stored
        · rw [hstores]
          refine hold.sublist_concat hpushing fun hmem => ?_
          have hreturned := returned_of_stored (server_run hrun) hmem
          rw [hpushing] at hreturned
          cases hreturned
  | sent hbefore hafter hrequest hserver =>
      rcases hserver with ⟨message, hserver⟩
      have hlonger : sentBy j (h ++ [e]) = sentBy j h ++ [s.server.handlers.length] := by
        rw [sentBy_snoc, hrequest, Option.toList_some]
      refine ⟨⟨done, ?_, hkept hdone⟩, ?_⟩
      · rw [hlonger, hsent, hbefore, hafter, Option.toList_none, List.append_nil,
          Option.toList_some]
      · have hstored : storedCalls (history (h ++ [e])) = storedCalls (history h) := by
          rw [history, filterMap_snoc, hserver, Option.toList_some, storedCalls_snoc]
          exact List.append_nil _
        have hfilter : (storedCalls (history h)).filter (· ∈ sentBy j (h ++ [e])) =
            (storedCalls (history h)).filter (· ∈ sentBy j h) := by
          refine List.filter_congr fun c hc => ?_
          have hne := Nat.ne_of_lt (hstoredLt c hc)
          simp [hlonger, hne]
        rw [hstored, hfilter, hlonger]
        exact hold.stored.trans (List.sublist_append_left _ _)
  | @replied c status hbefore hafter hrequest hserver hreturned =>
      have hsame : sentBy j (h ++ [e]) = sentBy j h := by
        rw [sentBy_snoc, hrequest, Option.toList_none, List.append_nil]
      have hhistory : history (h ++ [e]) = history h := by
        rw [history, filterMap_snoc, hserver, Option.toList_none, List.append_nil]
      refine ⟨⟨done ++ [c], ?_, ?_⟩, ?_⟩
      · rw [hsame, hsent, hbefore, hafter, Option.toList_some, Option.toList_none,
          List.append_nil]
      · refine hkept fun c' hc' => ?_
        rcases List.mem_append.mp hc' with hin | hlast
        · exact hdone c' hin
        · rw [List.mem_singleton.mp hlast]
          exact ⟨status, hreturned⟩
      · simp only [hsame, hhistory]
        exact hold.stored
  | abandoned hevent => exact absurd hevent hwaits

/-- What a client that waits for every reply sends is stored in the order in which it is
sent. -/
theorem inTurn_run {h : List Event} {s : State} (hrun : messenger.Run FreshMailboxes h s)
    {j : Nat} (hwaits : .abandoned j ∉ h) : InTurn h s j := by
  refine hrun.invariant (I := fun h s => .abandoned j ∉ h → InTurn h s j) ?_ ?_ hwaits
  · exact fun _ => ⟨⟨[], rfl, nofun⟩, List.Sublist.refl _⟩
  · intro h s a s' e hprev hold hfresh hstep hnone
    have hfirst : .abandoned j ∉ h := fun hmem => hnone (List.mem_append_left _ hmem)
    refine (hold hfirst).step (steps_of_step hstep) hfresh hprev fun heq => ?_
    exact hnone (heq ▸ List.mem_concat_self)

/-! ## The conversation -/

/-- In this call a client sent the text of the line to the user that it is shown to. -/
def SentAs (h : List Event) (k : Nat) (line : UserID × Bytes) (call : Nat) : Prop :=
  .loggedIn k line.1 ∈ h ∧ ∃ j v message, .loggedIn j v ∈ h ∧
    .sent j v line.1 line.2 (.received call message) ∈ h

/-- The `i`-th text that client `k` is sent on its stream is that of call `c`. -/
def SentOn (h : List Event) (s : State) (k i c : Nat) : Prop :=
  ∃ d, s.stream k = some d ∧ ((deliveredBy d (history h)).map Parcel.call)[i]? = some c

/-- The lines printed, one by one, are the texts that the stream brings, sent in these
calls: each of them once, to one client, and for all in the order in which the server has
stored them. -/
structure Conversed (h : List Event) (s : State) (source : Nat → List Nat) : Prop where
  sent : ∀ k, List.Forall₂ (SentAs h k) (printedBy k h) (source k)
  onStream : ∀ k i c, (source k)[i]? = some c → SentOn h s k i c
  once : (storedCalls (history h)).Nodup
  inOrder : ∀ k, (source k).Sublist (storedCalls (history h))
  apart : ∀ k j, k ≠ j → (source k).Disjoint (source j)
  /-- The texts of a client that waits for its replies are stored in the order in which it
  has sent them. -/
  inTurn : ∀ j, .abandoned j ∉ h →
    ((storedCalls (history h)).filter (· ∈ sentBy j h)).Sublist (sentBy j h)

/-- The envelopes that a client has been shown are the first ones of its stream. -/
def ShownTo (h : List Event) (s : State) (k : Nat) (parcels : List Parcel) : Prop :=
  List.Forall₂ Shows (printedBy k h) parcels ∧ ∀ parcel ∈ parcels, ∃ c u,
    s.stream k = some c ∧ s.identity k = some u ∧ Serves (history h) s.server c u ∧
      parcels <+: deliveredBy c (history h) ∧ parcel ∈ poppedBy c (history h)

theorem exists_shownTo {h : List Event} {s : State} (hrun : messenger.Run FreshMailboxes h s)
    (k : Nat) : ∃ parcels, ShownTo h s k parcels := by
  have hserver := server_run hrun
  cases hk : s.clients[k]? with
  | none =>
      refine ⟨[], ?_, nofun⟩
      rw [List.forall₂_nil_right_iff]
      refine List.eq_nil_iff_forall_not_mem.mpr fun line hline => ?_
      have hid := ((identified_run hrun).known k line.1).mp
        ((identified_run hrun).reader k line.1 line.2 (mem_printedBy hline))
      rw [State.identity, hk] at hid
      cases hid
  | some client =>
      -- from what the client has been shown to what its stream has delivered
      have hstream : ∀ {c : Nat} {read pending : List Parcel}, client.stream? = some c →
          deliveredBy c (history h) = read ++ pending →
            List.Forall₂ Shows (printedBy k h) read → ∃ parcels, ShownTo h s k parcels := by
        intro c read pending hc hsplit hread
        have hopen : s.stream k = some c := by rw [State.stream, hk, Option.bind_some, hc]
        rcases (streaming_run hrun).serves k c hopen with ⟨u, hu, hserves⟩
        have hpart : read <+: deliveredBy c (history h) := ⟨pending, hsplit.symm⟩
        refine ⟨read, hread, fun parcel hmem => ⟨c, u, hopen, hu, hserves, hpart, ?_⟩⟩
        exact (deliveredBy_sublist_poppedBy hserver c).subset (hpart.subset hmem)
      have hwatches := watched_run hrun k client hk
      cases hlistening : client.listening with
      | notStarted =>
          rw [hlistening] at hwatches
          generalize client.inFlight = inFlight at hwatches
          cases hwatches with
          | notStarted hprinted => exact ⟨[], by rw [hprinted]; exact .nil, nofun⟩
      | streaming c =>
          rw [hlistening] at hwatches
          cases hwatches with
          | streaming hsplit hread _ =>
              exact hstream (by rw [Client.stream?, hlistening]) hsplit hread
      | ended c =>
          rw [hlistening] at hwatches
          cases hwatches with
          | ended hsplit hread => exact hstream (by rw [Client.stream?, hlistening]) hsplit hread

/-- A client prints lines for the user that it is logged in as. -/
theorem user_of_line {h : List Event} {s : State} (hrun : messenger.Run FreshMailboxes h s)
    {k : Nat} {u : UserID} (hid : s.identity k = some u) {line : UserID × Bytes}
    (hline : line ∈ printedBy k h) : line.1 = u := by
  have hidentified := identified_run hrun
  have hreader := hidentified.reader k line.1 line.2 (mem_printedBy hline)
  have hknown := (hidentified.known k line.1).mp hreader
  rw [hid] at hknown
  exact (Option.some.inj hknown).symm

/-- A line that shows an envelope was sent in the call that stored the envelope. -/
theorem sentAs_of_shows {h : List Event} {s : State} (hrun : messenger.Run FreshMailboxes h s)
    {k c : Nat} {u : UserID} {line : UserID × Bytes} {parcel : Parcel}
    (hid : s.identity k = some u) (hserves : Serves (history h) s.server c u)
    (hpopped : parcel ∈ poppedBy c (history h)) (hline : line ∈ printedBy k h)
    (hshows : Shows line parcel) : SentAs h k line parcel.call := by
  have hidentified := identified_run hrun
  have hreader := hidentified.reader k line.1 line.2 (mem_printedBy hline)
  have hu : line.1 = u := user_of_line hrun hid hline
  -- the envelope was received in its call, and is addressed to the stream's user
  have htaken : (u, parcel) ∈ popped (history h) := by
    rcases List.mem_filterMap.mp hpopped with ⟨e, he, hparcel⟩
    cases e with
    | popped d v item =>
        cases item with
        | none => cases hparcel
        | some parcel' =>
            simp only [GrpcEndpointServer.Event.poppedBy?, Option.ite_none_right_eq_some] at hparcel
            rcases hparcel with ⟨rfl, hsame⟩
            cases hsame
            rw [← hserves.pops v _ he]
            exact mem_popped_iff.mpr ⟨d, he⟩
    | _ => cases hparcel
  rcases (callInv_run (server_run hrun)).stored _ u parcel true
    (pushed_of_popped (server_run hrun) htaken) with ⟨_, hrecipient, ⟨message, hreceived, hdecode⟩, _⟩
  rcases sent_of_received hrun hreceived with ⟨j, v, r, text, hsent, hcarries⟩
  rcases hcarries with ⟨env, hdecode', htext, hsender, hto⟩
  rw [hdecode] at hdecode'
  cases hdecode'
  have hr : r = line.1 := by rw [← hto, hrecipient, hu]
  have htextEq : text = line.2 := by
    rw [hshows] at htext
    exact (Except.ok.inj htext).symm
  refine ⟨hreader, j, v, message, hidentified.sender j v r text _ hsent, ?_⟩
  rw [← hr, ← htextEq]
  exact hsent

/-- The lines were sent in the calls that stored what is shown. -/
theorem ShownTo.sentAs {h : List Event} {s : State} {k : Nat} {parcels : List Parcel}
    (hshown : ShownTo h s k parcels) (hrun : messenger.Run FreshMailboxes h s) :
    List.Forall₂ (SentAs h k) (printedBy k h) (parcels.map Parcel.call) := by
  rw [List.forall₂_map_right_iff, List.forall₂_iff_zip]
  refine ⟨hshown.1.length_eq, fun hzip => ?_⟩
  rcases List.of_mem_zip hzip with ⟨hline, hparcel⟩
  rcases hshown.2 _ hparcel with ⟨c, u, _, hid, hserves, _, hpopped⟩
  exact sentAs_of_shows hrun hid hserves hpopped hline (List.forall₂_zip hshown.1 hzip)

/-- What is shown has its place in the stream. -/
theorem ShownTo.sentOn {h : List Event} {s : State} {k : Nat} {parcels : List Parcel}
    (hshown : ShownTo h s k parcels) {i call : Nat}
    (hcall : (parcels.map Parcel.call)[i]? = some call) : SentOn h s k i call := by
  rw [List.getElem?_map] at hcall
  rcases Option.map_eq_some_iff.mp hcall with ⟨parcel, hi, rfl⟩
  rcases hshown.2 parcel (List.mem_of_getElem? hi) with ⟨c, _, hc, _, _, hpart, _⟩
  rcases List.getElem?_eq_some_iff.mp hi with ⟨hlt, rfl⟩
  refine ⟨c, hc, ?_⟩
  rw [List.getElem?_map, List.prefix_iff_getElem?.mp hpart i hlt, Option.map_some]

/-- A client is shown its envelopes in the order in which they were stored. -/
theorem ShownTo.sublist {h : List Event} {s : State} {k : Nat} {parcels : List Parcel}
    (hshown : ShownTo h s k parcels) (hrun : messenger.Run FreshMailboxes h s) :
    (parcels.map Parcel.call).Sublist (storedCalls (history h)) := by
  cases hparcels : parcels with
  | nil => exact List.nil_sublist _
  | cons parcel rest =>
      rcases hshown.2 parcel (by simp [hparcels]) with ⟨c, u, _, _, hserves, hpart, _⟩
      rw [← hparcels]
      have hstored : (storedFor u (history h)).Sublist
          ((puts ((history h).map GrpcEndpointServer.Event.effect)).map (·.2)) :=
        List.filter_sublist.map _
      have hdelivered := deliveredBy_sublist (server_run hrun) hserves
      have hcalls := ((hpart.sublist.trans hdelivered).trans hstored).map Parcel.call
      rwa [List.map_map] at hcalls

/-- No envelope is shown to two clients. -/
theorem ShownTo.disjoint {h : List Event} {s : State} {k j : Nat} {parcels others : List Parcel}
    (hshown : ShownTo h s k parcels) (hother : ShownTo h s j others)
    (hrun : messenger.Run FreshMailboxes h s) (hkj : k ≠ j) :
    (parcels.map Parcel.call).Disjoint (others.map Parcel.call) := by
  intro call hk hj
  rcases List.mem_map.mp hk with ⟨parcel, hparcel, hcall⟩
  rcases List.mem_map.mp hj with ⟨parcel', hparcel', hcall'⟩
  rcases hshown.2 parcel hparcel with ⟨c, _, hc, _, _, _, hpopped⟩
  rcases hother.2 parcel' hparcel' with ⟨d, _, hd, _, _, _, hpopped'⟩
  -- one envelope is popped by one stream, which is that of one client
  have hcd := poppedBy_disjoint (server_run hrun) hpopped hpopped' (hcall.trans hcall'.symm)
  subst hcd
  exact hkj ((streaming_run hrun).distinct k j c hc hd)

/-- Every line that a client prints is the next of its stream, and a text that some client
sent to its user.  No text is printed twice, on whatever screens, all screens show their
texts in the order in which the server has stored them, and the texts of one sender are
stored as they were sent. -/
theorem conversation {h : List Event} {s : State} (hrun : messenger.Run FreshMailboxes h s) :
    ∃ source, Conversed h s source := by
  choose parcels hshown using exists_shownTo hrun
  refine ⟨fun k => (parcels k).map Parcel.call, ?_⟩
  constructor
  · exact fun k => (hshown k).sentAs hrun
  · exact fun k i call hcall => (hshown k).sentOn hcall
  · exact puts_nodup_run (server_run hrun)
  · exact fun k => (hshown k).sublist hrun
  · exact fun k j hkj => (hshown k).disjoint (hshown j) hrun hkj
  · exact fun j hwaits => (inTurn_run hrun hwaits).stored

/-! ## Two texts -/

/-- Users 2 and 3 each send a text to user 1, and the server stores the later call first. -/
def sayBoth : List Action :=
  let go (c : Nat) : Action := .serve c PostBox.clearedMemory PostBox.clearedMemory
  let enter (k : Nat) (stdin : Bytes) (userId : UserID) : List Action :=
    [.start (ascii "adsfadsf") stdin (some userId), go k, .login k]
  let read : List Action := [go 3, go 3, .write 3 true, .print 0]
  enter 0 [] 1 ++ enter 1 (ascii "1 hi") 2 ++ enter 2 (ascii "1 yo") 3 ++
    [.listen 0, .ask 1, .send 1, .ask 2, .send 2, go 5, go 5, go 4, go 4, .proceed 1,
      .proceed 2] ++ read ++ read

/-- User 1 is shown the texts of both in the order in which they were stored. -/
theorem conversation_sayBoth :
    ∃ h s, messenger.Run FreshMailboxes h s ∧
      printedBy 0 h = [(1, ascii "yo"), (1, ascii "hi")] ∧ storedCalls (history h) = [5, 4] ∧
        ∃ source, Conversed h s source := by
  have hshown : (messenger.execFrom (fun _ _ => cursorsEmpty) [] messenger.init sayBoth).map
      (fun r => (printedBy 0 r.1, storedCalls (history r.1))) =
        some ([(1, ascii "yo"), (1, ascii "hi")], [5, 4]) := by
    decide +kernel
  rcases Option.map_eq_some_iff.mp hshown with ⟨⟨h, s⟩, hexec, hpair⟩
  rcases Prod.mk.inj hpair with ⟨hprinted, hstored⟩
  have hrun := Run.of_execFrom freshMailboxes_of_cursorsEmpty .start hexec
  exact ⟨h, s, hrun, hprinted, hstored, conversation hrun⟩

end Messenger

end SimpleMessenger
