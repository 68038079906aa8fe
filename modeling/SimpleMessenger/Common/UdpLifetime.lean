import SimpleMessenger.Common.UdpSender

/-!
# The lifetime of a UDP endpoint

The constructor of {lit}`UdpEndpointBase` starts two threads that run in loops until
{lit}`isRunning` is cleared.  The destructor clears it and joins the sender thread and then
the listener thread; the members and the socket are destroyed after it.  This module
follows one endpoint of the network model from its construction to its end.

Main results:

- Theorem {lit}`run_endpoints`: the endpoints take a run of their own.
- Theorem {lit}`endpoint_destroyed`: once the destructor has begun, the endpoint takes
  boundedly many steps, the destructor has something to wait for or returns, and nobody uses
  the endpoint after the joins.

Current gaps:

- {lit}`isRunning` is not atomic; it is read and written in one step here.
-/

universe u

namespace SimpleMessenger

open StepSystem ProtobufItf EndpointBase StopAndWait

namespace UdpEndpointBase.Lifetime

/-! ## Threads in loops -/

inductive Thread where
  | sender
  | listener
deriving DecidableEq

/-- Where the loop of a thread stands. -/
inductive Loop where
  /-- Before `while (isRunning)`. -/
  | checking
  | body
  | returned
deriving DecidableEq

/-- Where the destructor stands. -/
inductive Destructor where
  | notCalled
  /-- Before it joins the thread. -/
  | joining (thread : Thread)
  /-- Before `close` in `~EndpointBase`. -/
  | closing
  | returned
deriving DecidableEq

/-- The endpoints, and the loops and the destructor of one of them. -/
structure State (κ : Type u) where
  network : UdpEndpointBase.State κ
  isRunning : Bool := true
  loops : Thread → Loop := fun _ => .checking
  destructor : Destructor := .notCalled

inductive Action (κ : Type u) where
  | network (a : UdpEndpointBase.Action κ)
  /-- A thread reads `isRunning`, or the listener thread polls for nothing. -/
  | loop (thread : Thread)
  | destructor

inductive Event (κ : Type u) where
  /-- A step of one of the two threads in its loop. -/
  | worked (thread : Thread) (e : UdpEndpointBase.Event κ)
  /-- A step of a call of the endpoint. -/
  | called (e : UdpEndpointBase.Event κ)
  /-- A step of another endpoint or of the network. -/
  | elsewhere (e : UdpEndpointBase.Event κ)
  | looped (thread : Thread)
  | stopping
  | joined (thread : Thread)
  | closed

variable {κ : Type u}

/-- Between two envelopes, or two datagrams. -/
def idle (ep : Endpoint κ) : Thread → Bool
  | .sender =>
      match ep.sender with
      | .idle => true
      | _ => false
  | .listener =>
      match ep.listener with
      | .polling => true
      | _ => false

theorem idle_sender_iff (ep : Endpoint κ) : idle ep .sender = true ↔ ep.sender = .idle := by
  cases hs : ep.sender <;> simp [idle, hs]

theorem idle_listener_iff (ep : Endpoint κ) :
    idle ep .listener = true ↔ ep.listener = .polling := by
  cases hl : ep.listener <;> simp [idle, hl]

def State.setLoop (s : State κ) (thread : Thread) (loop : Loop) : State κ :=
  { s with loops := Function.update s.loops thread loop }

@[simp]
theorem State.setLoop_network (s : State κ) (thread : Thread) (loop : Loop) :
    (s.setLoop thread loop).network = s.network :=
  rfl

@[simp]
theorem State.setLoop_isRunning (s : State κ) (thread : Thread) (loop : Loop) :
    (s.setLoop thread loop).isRunning = s.isRunning :=
  rfl

@[simp]
theorem State.setLoop_destructor (s : State κ) (thread : Thread) (loop : Loop) :
    (s.setLoop thread loop).destructor = s.destructor :=
  rfl

@[simp]
theorem State.setLoop_loops (s : State κ) (thread other : Thread) (loop : Loop) :
    (s.setLoop thread loop).loops other = if other = thread then loop else s.loops other := by
  simp [State.setLoop, Function.update_apply]

section Steps

variable [DecidableEq κ]

/-- The thread of endpoint `p` that an action is a step of. -/
def threadOf (p : κ) : UdpEndpointBase.Action κ → Option Thread
  | .sender q => if q = p then some .sender else none
  | .receive q _ => if q = p then some .listener else none
  | .listener q => if q = p then some .listener else none
  | _ => none

/-- Whether an action is a step of a call of endpoint `p`. -/
def isCall (p : κ) (s : UdpEndpointBase.State κ) : UdpEndpointBase.Action κ → Bool
  | .sendEnvelope q _ _ _ => q = p
  | .tryReceiveEnvelope q => q = p
  | .call c =>
      match s.calls[c]? with
      | some call => call.endpoint = p
      | none => false
  | _ => false

/-- A step of the endpoints; the threads take theirs within their loops. -/
def networkStep (wire : Wire) (p : κ) (s : State κ) (a : UdpEndpointBase.Action κ) :
    Option (State κ × Event κ) :=
  match threadOf p a with
  | none =>
      (UdpEndpointBase.step wire s.network a).map fun (network, e) =>
        ({ s with network := network }, if isCall p s.network a then .called e else .elsewhere e)
  | some thread =>
      if s.loops thread = .body then
        (UdpEndpointBase.step wire s.network a).map fun (network, e) =>
          (State.setLoop { s with network := network } thread
              (if idle (network.endpoints p) thread then .checking else .body),
            .worked thread e)
      else none

/-- `repeatingSend` and `repeatingListen` outside their calls. -/
def repeating (p : κ) (s : State κ) (thread : Thread) : Option (State κ × Event κ) :=
  match s.loops thread with
  | .checking =>
      some (s.setLoop thread (if s.isRunning then .body else .returned), .looped thread)
  | .body =>
      -- `pollSocket` has found nothing to read
      if thread = .listener ∧ idle (s.network.endpoints p) .listener then
        some (s.setLoop thread .checking, .looped thread)
      else none
  | .returned => none

/-- What the destructor does when it has joined the thread. -/
def afterJoin : Thread → Destructor
  | .sender => .joining .listener
  | .listener => .closing

/-- The next step of `~UdpEndpointBase` and `~EndpointBase`. -/
def destroy (s : State κ) : Option (State κ × Event κ) :=
  match s.destructor with
  | .notCalled =>
      some ({ s with isRunning := false, destructor := .joining .sender }, .stopping)
  | .joining thread =>
      if s.loops thread = .returned then
        some ({ s with destructor := afterJoin thread }, .joined thread)
      else none
  | .closing => some ({ s with destructor := .returned }, .closed)
  | .returned => none

def step (wire : Wire) (p : κ) (s : State κ) : Action κ → Option (State κ × Event κ)
  | .network a => networkStep wire p s a
  | .loop thread => repeating p s thread
  | .destructor => destroy s

/-- Endpoints, of which the one at `p` is destroyed in the end. -/
def lifetime (wire : Wire) (memory : κ → Memory κ) (p : κ) :
    StepSystem (State κ) (Action κ) (Event κ) where
  init := { network := (endpoints wire memory).init }
  step := step wire p

/-! ## The kinds of steps -/

/-- Everything one step can do. -/
inductive Steps (wire : Wire) (p : κ) (s : State κ) : Action κ → State κ → Event κ → Prop where
  | worked {a : UdpEndpointBase.Action κ} {thread : Thread} {network : UdpEndpointBase.State κ}
      {e : UdpEndpointBase.Event κ} (hthread : threadOf p a = some thread)
      (hbody : s.loops thread = .body)
      (hstep : UdpEndpointBase.step wire s.network a = some (network, e)) :
      Steps wire p s (.network a)
        (State.setLoop { s with network := network } thread
          (if idle (network.endpoints p) thread then .checking else .body))
        (.worked thread e)
  | called {a : UdpEndpointBase.Action κ} {network : UdpEndpointBase.State κ}
      {e : UdpEndpointBase.Event κ} (hthread : threadOf p a = none)
      (hcall : isCall p s.network a = true)
      (hstep : UdpEndpointBase.step wire s.network a = some (network, e)) :
      Steps wire p s (.network a) { s with network := network } (.called e)
  | elsewhere {a : UdpEndpointBase.Action κ} {network : UdpEndpointBase.State κ}
      {e : UdpEndpointBase.Event κ} (hthread : threadOf p a = none)
      (hcall : isCall p s.network a = false)
      (hstep : UdpEndpointBase.step wire s.network a = some (network, e)) :
      Steps wire p s (.network a) { s with network := network } (.elsewhere e)
  | checked {thread : Thread} (hchecking : s.loops thread = .checking) :
      Steps wire p s (.loop thread)
        (s.setLoop thread (if s.isRunning then .body else .returned)) (.looped thread)
  | polled (hbody : s.loops .listener = .body)
      (hidle : idle (s.network.endpoints p) .listener = true) :
      Steps wire p s (.loop .listener) (s.setLoop .listener .checking) (.looped .listener)
  | stopping (hd : s.destructor = .notCalled) :
      Steps wire p s .destructor { s with isRunning := false, destructor := .joining .sender }
        .stopping
  | joinedSender (hd : s.destructor = .joining .sender) (hreturned : s.loops .sender = .returned) :
      Steps wire p s .destructor { s with destructor := .joining .listener } (.joined .sender)
  | joinedListener (hd : s.destructor = .joining .listener)
      (hreturned : s.loops .listener = .returned) :
      Steps wire p s .destructor { s with destructor := .closing } (.joined .listener)
  | closed (hd : s.destructor = .closing) :
      Steps wire p s .destructor { s with destructor := .returned } .closed

variable {wire : Wire} {memory : κ → Memory κ} {p : κ} {s s' : State κ} {e : Event κ}
  {h : List (Event κ)}

theorem steps_of_networkStep {a : UdpEndpointBase.Action κ}
    (hstep : networkStep wire p s a = some (s', e)) : Steps wire p s (.network a) s' e := by
  cases hthread : threadOf p a with
  | none =>
      simp only [networkStep, hthread] at hstep
      rcases Option.map_eq_some_iff.mp hstep with ⟨⟨network, d⟩, hnetwork, hpair⟩
      cases hcall : isCall p s.network a with
      | true =>
          rw [hcall] at hpair
          cases hpair
          exact .called hthread hcall hnetwork
      | false =>
          rw [hcall] at hpair
          cases hpair
          exact .elsewhere hthread hcall hnetwork
  | some thread =>
      simp only [networkStep, hthread] at hstep
      split_ifs at hstep with hbody
      rcases Option.map_eq_some_iff.mp hstep with ⟨⟨network, d⟩, hnetwork, hpair⟩
      cases hpair
      exact .worked hthread hbody hnetwork

theorem steps_of_repeating {thread : Thread} (hstep : repeating p s thread = some (s', e)) :
    Steps wire p s (.loop thread) s' e := by
  cases hloop : s.loops thread with
  | checking =>
      simp only [repeating, hloop] at hstep
      cases hstep
      exact .checked hloop
  | body =>
      simp only [repeating, hloop] at hstep
      split_ifs at hstep with hpoll
      cases hstep
      obtain ⟨rfl, hidle⟩ := hpoll
      exact .polled hloop hidle
  | returned =>
      simp only [repeating, hloop] at hstep
      cases hstep

theorem steps_of_destroy (hstep : destroy s = some (s', e)) :
    Steps wire p s .destructor s' e := by
  cases hd : s.destructor with
  | notCalled =>
      simp only [destroy, hd] at hstep
      cases hstep
      exact .stopping hd
  | joining thread =>
      simp only [destroy, hd] at hstep
      split_ifs at hstep with hreturned
      cases thread with
      | sender =>
          cases hstep
          exact .joinedSender hd hreturned
      | listener =>
          cases hstep
          exact .joinedListener hd hreturned
  | closing =>
      simp only [destroy, hd] at hstep
      cases hstep
      exact .closed hd
  | returned =>
      simp only [destroy, hd] at hstep
      cases hstep

/-- Every step is of one of the kinds. -/
theorem steps_of_step {a : Action κ} (hstep : step wire p s a = some (s', e)) :
    Steps wire p s a s' e := by
  cases a with
  | network a => exact steps_of_networkStep hstep
  | loop thread => exact steps_of_repeating hstep
  | destructor => exact steps_of_destroy hstep

/-- What an event shows of the endpoints. -/
def Event.network? : Event κ → Option (UdpEndpointBase.Event κ)
  | .worked _ e => some e
  | .called e => some e
  | .elsewhere e => some e
  | _ => none

/-- The endpoints take a run of their own. -/
theorem run_endpoints {G : Guard (State κ) (Action κ) (Event κ)}
    (hrun : (lifetime wire memory p).Run G h s) :
    (endpoints wire memory).Run Any (h.filterMap Event.network?) s.network := by
  refine hrun.component (N := endpoints wire memory) State.network Event.network? rfl ?_
  intro h s a s' e _ hstep
  cases steps_of_step hstep with
  | worked hthread hbody hnetwork => exact .inr ⟨_, _, rfl, trivial, hnetwork⟩
  | called hthread hcall hnetwork => exact .inr ⟨_, _, rfl, trivial, hnetwork⟩
  | elsewhere hthread hcall hnetwork => exact .inr ⟨_, _, rfl, trivial, hnetwork⟩
  | _ => exact .inl ⟨rfl, rfl⟩

/-! ## The weight of what is left to do -/

/-- A bound on the steps of the sender thread up to its next look at `isRunning`. -/
def senderWeight : Sender κ → Nat
  | .idle => 22
  | .filling _ attempt => 4 * (5 - attempt.val) + 1
  | .sending _ attempt _ => 4 * (5 - attempt.val)
  | .waiting _ attempt => 4 * (5 - attempt.val) - 1
  | .requeuing _ attempt _ => 4 * (5 - attempt.val) - 2

/-- A push into a full queue takes two more steps. -/
def pushWeight (length : Nat) : Nat :=
  if messageQueueSize.toNat ≤ length then 4 else 2

/-- The same bound for the listener thread, with the lengths of its two queues. -/
def dispatchWeight (inLength ackLength : Nat) : Listener κ → Nat
  | .polling => 5
  | .storing _ => pushWeight inLength
  | .dropping _ => 3
  | .storingAck _ => pushWeight ackLength
  | .droppingAck _ => 3

def listenerWeight (ep : Endpoint κ) : Nat :=
  dispatchWeight ep.inQueue.contents.length ep.ackQueue.contents.length ep.listener

/-- The steps of a thread, up to the end of its loop. -/
def loopWeight (ep : Endpoint κ) : Thread → Loop → Nat
  | _, .returned => 0
  | _, .checking => 1
  | .sender, .body => senderWeight ep.sender
  | .listener, .body => listenerWeight ep

def Destructor.weight : Destructor → Nat
  | .notCalled => 4
  | .joining .sender => 3
  | .joining .listener => 2
  | .closing => 1
  | .returned => 0

/-- The steps of the endpoint at `p`.  A step of the sender thread counts for three: it may
fill the queue that the listener thread is about to push into. -/
def State.weight (p : κ) (s : State κ) : Nat :=
  3 * loopWeight (s.network.endpoints p) .sender (s.loops .sender) +
    loopWeight (s.network.endpoints p) .listener (s.loops .listener) + s.destructor.weight

omit [DecidableEq κ] in
theorem pushWeight_le (m n : Nat) : pushWeight m ≤ pushWeight n + 2 := by
  simp only [pushWeight]
  split_ifs <;> omega

/-- The weight of the sender thread behind a step in its loop. -/
def senderBehind (sender : Sender κ) : Nat :=
  match sender with
  | .idle => 1
  | _ => senderWeight sender

omit [DecidableEq κ] in
theorem loopWeight_sender (ep : Endpoint κ) :
    loopWeight ep .sender (if idle ep .sender then .checking else .body) =
      senderBehind ep.sender := by
  cases hs : ep.sender <;> simp [idle, loopWeight, senderBehind, hs]

omit [DecidableEq κ] in
theorem senderBehind_nextAttempt (aEnv : AddressedEnvelope κ) (attempt : Fin 5) :
    senderBehind (nextAttempt aEnv attempt) < 4 * (5 - attempt.val) - 2 := by
  unfold nextAttempt
  split_ifs with hleft
  · simp only [senderBehind, senderWeight]
    omega
  · simp only [senderBehind]
    omega

omit [DecidableEq κ] in
/-- A step of the sender thread lowers its weight. -/
theorem weight_lt_of_sends {ep ep' : Endpoint κ} {d : UdpEndpointBase.Event κ}
    (hsends : Sends wire p ep ep' d) : senderBehind ep'.sender < senderWeight ep.sender := by
  cases hsends with
  | idle hs hq => simp [senderBehind, senderWeight, hs]
  | took hs hq => simp [senderBehind, senderWeight, hs]
  | filled hs hput => simp [senderBehind, senderWeight, hs]
  | @unanswered aEnv attempt q hs hq =>
      have hnext := senderBehind_nextAttempt aEnv attempt
      simp only [senderWeight, hs]
      omega
  | @acknowledged aEnv attempt pendingAck q hs hq hstamp =>
      simp only [senderBehind, senderWeight, hs]
      omega
  | @keeping aEnv attempt pendingAck eAck q hs hq hstamp =>
      simp only [senderBehind, senderWeight, hs]
      omega
  | @requeued aEnv attempt pendingAck q hs hq =>
      have hnext := senderBehind_nextAttempt aEnv attempt
      simpa only [senderWeight, hs] using hnext

omit [DecidableEq κ] in
/-- Whatever happens to the queues, it costs the listener thread two steps at most. -/
theorem dispatchWeight_le (listener : Listener κ) (m n m' n' : Nat) :
    dispatchWeight m' n' listener ≤ dispatchWeight m n listener + 2 := by
  cases listener with
  | storing aEnv => exact pushWeight_le _ _
  | storingAck eAck => exact pushWeight_le _ _
  | _ => exact Nat.le_add_right _ _

/-- The weight of the listener thread behind a step in its loop. -/
def listenerBehind (ep : Endpoint κ) : Nat :=
  match ep.listener with
  | .polling => 1
  | _ => listenerWeight ep

omit [DecidableEq κ] in
theorem loopWeight_listener (ep : Endpoint κ) :
    loopWeight ep .listener (if idle ep .listener then .checking else .body) =
      listenerBehind ep := by
  cases hl : ep.listener <;>
    simp [idle, loopWeight, listenerBehind, hl]

omit [DecidableEq κ] in
/-- A push goes well, or the queue is full. -/
theorem pushWeight_of_push {T : Type u} {q q' : CircularBuffer.Ring T messageQueueSize} {x : T}
    {ok : Bool} (hpush : q.push x = (ok, q')) :
    1 < pushWeight q.contents.length ∧ (ok = false → pushWeight q.contents.length = 4) := by
  have hok := (q.push_eq x).1
  rw [hpush] at hok
  constructor
  · simp only [pushWeight]
    split_ifs <;> decide
  · rintro rfl
    exact if_pos (Nat.le_of_not_lt (of_decide_eq_false hok.symm))

omit [DecidableEq κ] in
/-- After a pop there is room. -/
theorem pushWeight_pop {T : Type u} (q : CircularBuffer.Ring T messageQueueSize) :
    pushWeight q.pop.2.contents.length = 2 := by
  have hle := q.length_contents_le
  have hlt : q.pop.2.contents.length < messageQueueSize.toNat := by
    rw [q.pop_eq.2, List.length_tail]
    have hpos := messageQueueSize_pos
    omega
  exact if_neg (Nat.not_le_of_lt hlt)

omit [DecidableEq κ] in
/-- A step of the listener thread behind `recvfrom` lowers its weight. -/
theorem weight_lt_of_listen {ep ep' : Endpoint κ} (hlisten : listen ep = some ep') :
    listenerBehind ep' < listenerWeight ep := by
  unfold listen at hlisten
  split at hlisten <;> rename_i hlistener
  · cases hlisten
  · -- `storing`
    split at hlisten <;> rename_i hpush <;> cases hlisten <;>
      simp [listenerBehind, listenerWeight, dispatchWeight, hlistener, pushWeight_of_push hpush]
  · -- `dropping`
    cases hlisten
    simp [listenerBehind, listenerWeight, dispatchWeight, hlistener, pushWeight_pop]
  · -- `storingAck`
    split at hlisten <;> rename_i hpush <;> cases hlisten <;>
      simp [listenerBehind, listenerWeight, dispatchWeight, hlistener, pushWeight_of_push hpush]
  · -- `droppingAck`
    cases hlisten
    simp [listenerBehind, listenerWeight, dispatchWeight, hlistener, pushWeight_pop]

/-- A step of the sender thread lowers its weight, and moves no other thread. -/
theorem weights_of_sender {network network' : UdpEndpointBase.State κ}
    {d : UdpEndpointBase.Event κ}
    (hstep : UdpEndpointBase.step wire network (.sender p) = some (network', d)) :
    senderBehind (network'.endpoints p).sender < senderWeight (network.endpoints p).sender ∧
      (network'.endpoints p).listener = (network.endpoints p).listener := by
  cases UdpEndpointBase.steps_of_step hstep with
  | sending hsends =>
      rw [State.put_self]
      refine ⟨weight_lt_of_sends hsends, ?_⟩
      cases hsends <;> rfl
  | sent hs hdatagram =>
      simp only [State.put_self, senderBehind, senderWeight, hs, and_true]
      omega

omit [DecidableEq κ] in
theorem listenerBehind_dispatch {ep : Endpoint κ} {aEnv : AddressedEnvelope κ}
    (hlistener : ep.listener = dispatchIncomingEnv aEnv) : listenerBehind ep < 5 := by
  have hpush : ∀ n, pushWeight n < 5 := by
    intro n
    simp only [pushWeight]
    split_ifs <;> decide
  unfold dispatchIncomingEnv at hlistener
  split_ifs at hlistener <;> simp [listenerBehind, listenerWeight, dispatchWeight, hlistener, hpush]

theorem threadOf_eq_sender {a : UdpEndpointBase.Action κ}
    (hthread : threadOf p a = some .sender) : a = .sender p := by
  cases a <;> simp_all [threadOf]

theorem threadOf_eq_listener {a : UdpEndpointBase.Action κ}
    (hthread : threadOf p a = some .listener) : a = .listener p ∨ ∃ i, a = .receive p i := by
  cases a <;> simp_all [threadOf]

/-- A step of the listener thread lowers its weight, and moves no other thread. -/
theorem weights_of_listener {a : UdpEndpointBase.Action κ}
    {network network' : UdpEndpointBase.State κ} {d : UdpEndpointBase.Event κ}
    (hthread : threadOf p a = some .listener)
    (hstep : UdpEndpointBase.step wire network a = some (network', d)) :
    listenerBehind (network'.endpoints p) < listenerWeight (network.endpoints p) ∧
      (network'.endpoints p).sender = (network.endpoints p).sender := by
  rcases threadOf_eq_listener hthread with rfl | ⟨i, rfl⟩
  · rcases Option.map_eq_some_iff.mp hstep with ⟨ep, hlisten, hpair⟩
    cases hpair
    rw [State.put_self]
    exact ⟨weight_lt_of_listen hlisten, (listens_of_listen hlisten).sender⟩
  · cases UdpEndpointBase.steps_of_step hstep with
    | received hi hdest hpolling hsource htag hdecode =>
        simp only [State.put_self, and_true]
        rw [listenerWeight, hpolling]
        exact listenerBehind_dispatch rfl

/-- What a call or another endpoint may do to an endpoint: it moves neither thread, and fills
no queue that the listener thread pushes into. -/
structure Spares (ep ep' : Endpoint κ) : Prop where
  sender : ep'.sender = ep.sender
  listener : ep'.listener = ep.listener
  inQueue : ep'.inQueue.contents.length ≤ ep.inQueue.contents.length
  ackQueue : ep'.ackQueue = ep.ackQueue

omit [DecidableEq κ] in
theorem Spares.refl (ep : Endpoint κ) : Spares ep ep :=
  ⟨rfl, rfl, Nat.le_refl _, rfl⟩

theorem Spares.put {network : UdpEndpointBase.State κ} {q : κ} {ep : Endpoint κ}
    (hspares : Spares (network.endpoints q) ep) (p : κ) :
    Spares (network.endpoints p) ((network.put q ep).endpoints p) := by
  rcases eq_or_ne p q with rfl | hne
  · rw [State.put_self]
    exact hspares
  · rw [State.put_of_ne hne]
    exact .refl _

omit [DecidableEq κ] in
theorem Spares.weight_le {ep ep' : Endpoint κ} (hspares : Spares ep ep') :
    listenerWeight ep' ≤ listenerWeight ep := by
  have hpush : pushWeight ep'.inQueue.contents.length ≤ pushWeight ep.inQueue.contents.length := by
    have hle := hspares.inQueue
    simp only [pushWeight]
    split_ifs <;> omega
  simp only [listenerWeight, dispatchWeight, hspares.listener, hspares.ackQueue]
  cases ep.listener with
  | storing aEnv => exact hpush
  | _ => exact Nat.le_refl _

theorem spares_of_none {a : UdpEndpointBase.Action κ}
    {network network' : UdpEndpointBase.State κ} {d : UdpEndpointBase.Event κ}
    (hthread : threadOf p a = none)
    (hstep : UdpEndpointBase.step wire network a = some (network', d)) :
    Spares (network.endpoints p) (network'.endpoints p) := by
  have hother : ∀ q ep, q ≠ p → Spares (network.endpoints p) ((network.put q ep).endpoints p) := by
    intro q ep hne
    rw [State.put_of_ne hne.symm]
    exact .refl _
  cases UdpEndpointBase.steps_of_step hstep with
  | returned hc hdatagram => exact .refl _
  | lost hi => exact .refl _
  | sending hsends => exact hother _ _ (by simpa [threadOf] using hthread)
  | sent hs hdatagram => exact hother _ _ (by simpa [threadOf] using hthread)
  | received hi hdest hpolling hsource htag hdecode =>
      exact hother _ _ (by simpa [threadOf] using hthread)
  | listened hlistens => exact hother _ _ (by simpa [threadOf] using hthread)
  | receivedNothing hq =>
      refine Spares.put ?_ p
      exact ⟨rfl, rfl, by simp [hq], rfl⟩
  | popped hq =>
      refine Spares.put ?_ p
      exact ⟨rfl, rfl, by simp [hq], rfl⟩
  | stamped haddr hclock =>
      refine Spares.put ?_ p
      exact ⟨rfl, rfl, Nat.le_refl _, rfl⟩
  | queued hc hq =>
      refine Spares.put ?_ p
      exact ⟨rfl, rfl, Nat.le_refl _, rfl⟩
  | ackFilled hc hput =>
      refine Spares.put ?_ p
      exact ⟨rfl, rfl, Nat.le_refl _, rfl⟩

/-! ## Steps of the endpoint -/

/-- A step of one of the two threads of the endpoint, or of its destructor. -/
def Event.own : Event κ → Bool
  | .called _ => false
  | .elsewhere _ => false
  | _ => true

omit [DecidableEq κ] in
theorem loopWeight_sender_eq {ep ep' : Endpoint κ} (hsender : ep'.sender = ep.sender)
    (loop : Loop) : loopWeight ep' .sender loop = loopWeight ep .sender loop := by
  cases loop <;> simp [loopWeight, hsender]

omit [DecidableEq κ] in
theorem loopWeight_listener_le {ep ep' : Endpoint κ} {k : Nat}
    (hle : listenerWeight ep' ≤ listenerWeight ep + k) (loop : Loop) :
    loopWeight ep' .listener loop ≤ loopWeight ep .listener loop + k := by
  cases loop <;> simp [loopWeight, hle]

/-- A step in the loop of a thread lowers the weight. -/
theorem weight_lt_of_worked {a : UdpEndpointBase.Action κ} {thread : Thread}
    {network : UdpEndpointBase.State κ} {d : UdpEndpointBase.Event κ}
    (hthread : threadOf p a = some thread) (hbody : s.loops thread = .body)
    (hnetwork : UdpEndpointBase.step wire s.network a = some (network, d)) :
    State.weight p (State.setLoop { s with network := network } thread
      (if idle (network.endpoints p) thread then .checking else .body)) < s.weight p := by
  cases thread with
  | sender =>
      obtain rfl := threadOf_eq_sender hthread
      rcases weights_of_sender hnetwork with ⟨hlower, hlistener⟩
      have hqueues : listenerWeight (network.endpoints p) ≤
          listenerWeight (s.network.endpoints p) + 2 := by
        rw [listenerWeight, listenerWeight, hlistener]
        exact dispatchWeight_le _ _ _ _ _
      have hother := loopWeight_listener_le hqueues (s.loops .listener)
      simp only [State.weight, State.setLoop_network, State.setLoop_destructor,
        State.setLoop_loops, if_true, loopWeight_sender, hbody]
      simp only [loopWeight, reduceCtorEq, if_false] at hother ⊢
      omega
  | listener =>
      rcases weights_of_listener hthread hnetwork with ⟨hlower, hsender⟩
      have hother := loopWeight_sender_eq hsender (s.loops .sender)
      simp only [State.weight, State.setLoop_network, State.setLoop_destructor,
        State.setLoop_loops, if_true, loopWeight_listener, hbody]
      simp only [loopWeight, reduceCtorEq, if_false] at hother ⊢
      omega

/-- A step of a call or elsewhere does not raise the weight. -/
theorem weight_le_of_none {a : UdpEndpointBase.Action κ} {network : UdpEndpointBase.State κ}
    {d : UdpEndpointBase.Event κ} (hthread : threadOf p a = none)
    (hnetwork : UdpEndpointBase.step wire s.network a = some (network, d)) :
    State.weight p { s with network := network } ≤ s.weight p := by
  have hspares := spares_of_none hthread hnetwork
  have hsender := loopWeight_sender_eq hspares.sender (s.loops .sender)
  have hlistener := loopWeight_listener_le (k := 0) hspares.weight_le (s.loops .listener)
  simp only [State.weight]
  omega

omit [DecidableEq κ] in
/-- A loop that goes from one place to another, with no step of the endpoints. -/
theorem weight_setLoop_lt {thread : Thread} {loop : Loop}
    (hlower : loopWeight (s.network.endpoints p) thread loop <
      loopWeight (s.network.endpoints p) thread (s.loops thread)) :
    (s.setLoop thread loop).weight p < s.weight p := by
  cases thread <;>
    simp only [State.weight, State.setLoop_network, State.setLoop_destructor,
      State.setLoop_loops, if_true, reduceCtorEq, if_false] <;>
    omega

omit [DecidableEq κ] in
/-- The destructor goes on. -/
theorem weight_destructor_lt {isRunning : Bool} {destructor : Destructor}
    (hlower : destructor.weight < s.destructor.weight) :
    State.weight p { s with isRunning := isRunning, destructor := destructor } < s.weight p := by
  simp only [State.weight]
  omega

/-- With `isRunning` cleared, every step of the endpoint lowers its weight, and no other step
raises it. -/
theorem Steps.weight_le {a : Action κ} (hsteps : Steps wire p s a s' e)
    (hrunning : s.isRunning = false) :
    s'.isRunning = false ∧ s'.weight p + (if e.own then 1 else 0) ≤ s.weight p := by
  cases hsteps with
  | worked hthread hbody hnetwork =>
      exact ⟨hrunning, weight_lt_of_worked hthread hbody hnetwork⟩
  | called hthread hcall hnetwork => exact ⟨hrunning, weight_le_of_none hthread hnetwork⟩
  | elsewhere hthread hcall hnetwork => exact ⟨hrunning, weight_le_of_none hthread hnetwork⟩
  | @checked thread hchecking =>
      refine ⟨hrunning, weight_setLoop_lt ?_⟩
      rw [hrunning, hchecking]
      exact Nat.zero_lt_one
  | polled hbody hidle =>
      refine ⟨hrunning, weight_setLoop_lt ?_⟩
      have hpolling : listenerWeight (s.network.endpoints p) = 5 := by
        rw [listenerWeight, (idle_listener_iff _).mp hidle]
        rfl
      rw [hbody, loopWeight, loopWeight, hpolling]
      decide
  | stopping hd =>
      refine ⟨rfl, weight_destructor_lt ?_⟩
      rw [hd]
      decide
  | joinedSender hd hreturned =>
      refine ⟨hrunning, weight_destructor_lt ?_⟩
      rw [hd]
      decide
  | joinedListener hd hreturned =>
      refine ⟨hrunning, weight_destructor_lt ?_⟩
      rw [hd]
      decide
  | closed hd =>
      refine ⟨hrunning, weight_destructor_lt ?_⟩
      rw [hd]
      decide

/-! ## Envelopes taken after the end -/

/-- The sender thread takes an envelope out of the output queue. -/
def Event.isTook : Event κ → Bool
  | .worked _ (.took _ _) => true
  | _ => false

/-- How many envelopes the sender thread may take without looking at `isRunning`. -/
def State.takesLeft (p : κ) (s : State κ) : Nat :=
  if s.loops .sender = .body ∧ idle (s.network.endpoints p) .sender = true then 1 else 0

omit [DecidableEq κ] in
theorem takesLeft_le_one (p : κ) (s : State κ) : s.takesLeft p ≤ 1 := by
  unfold State.takesLeft
  split_ifs <;> omega

omit [DecidableEq κ] in
theorem takesLeft_congr (hloop : s'.loops .sender = s.loops .sender)
    (hsender : (s'.network.endpoints p).sender = (s.network.endpoints p).sender) :
    s'.takesLeft p = s.takesLeft p := by
  have hidle : idle (s'.network.endpoints p) .sender = idle (s.network.endpoints p) .sender := by
    rw [Bool.eq_iff_iff, idle_sender_iff, idle_sender_iff, hsender]
  simp only [State.takesLeft, hloop, hidle]

/-- The sender thread takes envelopes only between two of them. -/
theorem idle_of_took {a : UdpEndpointBase.Action κ} {thread : Thread}
    {network network' : UdpEndpointBase.State κ} {d : UdpEndpointBase.Event κ}
    (hthread : threadOf p a = some thread)
    (hstep : UdpEndpointBase.step wire network a = some (network', d))
    (htook : (Event.worked thread d).isTook = true) :
    thread = .sender ∧ (network.endpoints p).sender = .idle := by
  cases UdpEndpointBase.steps_of_step hstep with
  | sending hsends =>
      cases thread with
      | sender =>
          cases threadOf_eq_sender hthread
          cases hsends with
          | took hs hq => exact ⟨rfl, hs⟩
          | _ => cases htook
      | listener =>
          rcases threadOf_eq_listener hthread with ha | ⟨i, ha⟩ <;> cases ha
  | _ => cases htook

/-- A step of the sender thread may take its last envelope. -/
theorem takesLeft_of_worked {a : UdpEndpointBase.Action κ} {thread : Thread}
    {network : UdpEndpointBase.State κ} {d : UdpEndpointBase.Event κ}
    (hthread : threadOf p a = some thread) (hbody : s.loops thread = .body)
    (hnetwork : UdpEndpointBase.step wire s.network a = some (network, d)) :
    State.takesLeft p (State.setLoop { s with network := network } thread
          (if idle (network.endpoints p) thread then .checking else .body)) +
        (if (Event.worked thread d).isTook then 1 else 0) ≤ s.takesLeft p := by
  cases thread with
  | sender =>
      have hnone : State.takesLeft p (State.setLoop { s with network := network } .sender
          (if idle (network.endpoints p) .sender then .checking else .body)) = 0 := by
        refine if_neg ?_
        rintro ⟨hloop, hidle⟩
        rw [State.setLoop_network] at hidle
        simp [hidle] at hloop
      rw [hnone, Nat.zero_add]
      split_ifs with htook
      · have hidle := (idle_sender_iff _).mpr (idle_of_took hthread hnetwork htook).2
        exact (if_pos ⟨hbody, hidle⟩).ge
      · exact Nat.zero_le _
  | listener =>
      rw [takesLeft_congr (s := s) (by simp) (weights_of_listener hthread hnetwork).2]
      split_ifs with htook
      · cases (idle_of_took hthread hnetwork htook).1
      · exact Nat.le_refl _

theorem takesLeft_of_none {a : UdpEndpointBase.Action κ} {network : UdpEndpointBase.State κ}
    {d : UdpEndpointBase.Event κ} (hthread : threadOf p a = none)
    (hnetwork : UdpEndpointBase.step wire s.network a = some (network, d)) :
    State.takesLeft p { s with network := network } ≤ s.takesLeft p := by
  refine le_of_eq (takesLeft_congr rfl ?_)
  exact (spares_of_none hthread hnetwork).sender

theorem Steps.takesLeft_le {a : Action κ} (hsteps : Steps wire p s a s' e)
    (hrunning : s.isRunning = false) :
    s'.takesLeft p + (if e.isTook then 1 else 0) ≤ s.takesLeft p := by
  cases hsteps with
  | worked hthread hbody hnetwork => exact takesLeft_of_worked hthread hbody hnetwork
  | called hthread hcall hnetwork =>
      exact takesLeft_of_none hthread hnetwork
  | elsewhere hthread hcall hnetwork =>
      exact takesLeft_of_none hthread hnetwork
  | @checked thread hchecking =>
      cases thread with
      | sender =>
          have hnone : (s.setLoop .sender
              (if s.isRunning then .body else .returned)).takesLeft p = 0 := by
            refine if_neg ?_
            simp [hrunning]
          rw [hnone]
          exact Nat.zero_le _
      | listener =>
          rw [takesLeft_congr (s := s) (by simp) rfl]
          exact Nat.le_refl _
  | polled hbody hidle =>
      rw [takesLeft_congr (s := s) (by simp) rfl]
      exact Nat.le_refl _
  | _ => exact Nat.le_refl _

/-! ## The calls of the endpoint -/

def isReturned : Point κ → Bool
  | .returned => true
  | _ => false

/-- No call of the endpoint is under way. -/
def Unused (p : κ) (calls : List (Call κ)) : Prop :=
  ∀ call ∈ calls, call.endpoint = p → isReturned call.point = true

instance (p : κ) (calls : List (Call κ)) : Decidable (Unused p calls) :=
  inferInstanceAs (Decidable (∀ call ∈ calls, _))

def startsCall (p : κ) : UdpEndpointBase.Action κ → Bool
  | .sendEnvelope q _ _ _ => q = p
  | .tryReceiveEnvelope q => q = p
  | _ => false

/-- The owner of the endpoint destroys it when its calls have returned, and makes no other
call from then on. -/
def CallsReturned (p : κ) : Guard (State κ) (Action κ) (Event κ) := fun _ s a =>
  match a with
  | .network a => startsCall p a = true → s.destructor = .notCalled
  | .loop _ => True
  | .destructor => Unused p s.network.calls

omit [DecidableEq κ] in
theorem Unused.concat {calls : List (Call κ)} {call : Call κ} (hunused : Unused p calls)
    (hne : call.endpoint ≠ p) : Unused p (calls ++ [call]) := by
  intro other hmem hother
  rcases List.mem_append.mp hmem with hold | hnew
  · exact hunused other hold hother
  · rw [List.mem_singleton.mp hnew] at hother
    exact absurd hother hne

omit [DecidableEq κ] in
theorem Unused.set {calls : List (Call κ)} {call : Call κ} {c : Nat} (hunused : Unused p calls)
    (hne : call.endpoint ≠ p) : Unused p (calls.set c call) := by
  intro other hmem hother
  rcases List.mem_or_eq_of_mem_set hmem with hold | rfl
  · exact hunused other hold hother
  · exact absurd hother hne

omit [DecidableEq κ] in
/-- A call that can take a step is one of another endpoint. -/
theorem Unused.ne {calls : List (Call κ)} {q : κ} {point : Point κ} {c : Nat}
    (hunused : Unused p calls) (hc : calls[c]? = some ⟨q, point⟩)
    (hpoint : isReturned point = false) : q ≠ p := by
  intro hq
  have hreturned := hunused _ (List.mem_of_getElem? hc) hq
  rw [hpoint] at hreturned
  cases hreturned

/-- While no call starts, the endpoint stays unused. -/
theorem Unused.step {a : UdpEndpointBase.Action κ} {network network' : UdpEndpointBase.State κ}
    {d : UdpEndpointBase.Event κ} (hunused : Unused p network.calls)
    (hstarts : startsCall p a = false)
    (hstep : UdpEndpointBase.step wire network a = some (network', d)) :
    isCall p network a = false ∧ Unused p network'.calls := by
  cases UdpEndpointBase.steps_of_step hstep with
  | stamped haddr hclock => exact ⟨hstarts, hunused.concat (of_decide_eq_false hstarts)⟩
  | receivedNothing hq => exact ⟨hstarts, hunused.concat (of_decide_eq_false hstarts)⟩
  | popped hq => exact ⟨hstarts, hunused.concat (of_decide_eq_false hstarts)⟩
  | queued hc hq =>
      have hne := hunused.ne hc rfl
      exact ⟨by simp [isCall, hc, hne], hunused.set hne⟩
  | ackFilled hc hput =>
      have hne := hunused.ne hc rfl
      exact ⟨by simp [isCall, hc, hne], hunused.set hne⟩
  | returned hc hdatagram =>
      have hne := hunused.ne hc rfl
      exact ⟨by simp [isCall, hc, hne], hunused.set hne⟩
  | _ => exact ⟨rfl, hunused⟩

/-! ## The destructor -/

/-- Whether the destructor has joined the thread. -/
def Destructor.joined : Destructor → Thread → Bool
  | .joining .listener, .sender => true
  | .closing, _ => true
  | .returned, _ => true
  | _, _ => false

/-- Once the destructor has begun, `isRunning` is false and no call is under way, and the
threads that it has joined have left their loops. -/
structure Ending (p : κ) (s : State κ) : Prop where
  stopped : s.destructor ≠ .notCalled → s.isRunning = false
  unused : s.destructor ≠ .notCalled → Unused p s.network.calls
  joined : ∀ thread, s.destructor.joined thread = true → s.loops thread = .returned

omit [DecidableEq κ] in
theorem Ending.of_notCalled (hd : s.destructor = .notCalled) : Ending p s := by
  constructor
  · exact fun hne => absurd hd hne
  · exact fun hne => absurd hd hne
  · intro thread hjoined
    rw [hd] at hjoined
    cases thread <;> cases hjoined

omit [DecidableEq κ] in
/-- Threads that have been joined stay out of their loops. -/
theorem Ending.loops_setLoop (hending : Ending p s) {thread : Thread}
    (hloop : s.loops thread ≠ .returned) (loop : Loop) (other : Thread)
    (hjoined : s.destructor.joined other = true) :
    (s.setLoop thread loop).loops other = .returned := by
  have hother := hending.joined other hjoined
  rw [State.setLoop_loops, if_neg]
  · exact hother
  · rintro rfl
    exact hloop hother

theorem startsCall_of_thread {a : UdpEndpointBase.Action κ} {thread : Thread}
    (hthread : threadOf p a = some thread) : startsCall p a = false := by
  cases a with
  | sendEnvelope q envelope receiverInfo now => cases hthread
  | tryReceiveEnvelope q => cases hthread
  | _ => rfl

/-- A step of another endpoint, or of a call, while no call may start. -/
theorem Ending.unused_step (hending : Ending p s) {a : UdpEndpointBase.Action κ}
    {network : UdpEndpointBase.State κ} {d : UdpEndpointBase.Event κ}
    (hguard : CallsReturned p h s (.network a))
    (hnetwork : UdpEndpointBase.step wire s.network a = some (network, d))
    (hne : s.destructor ≠ .notCalled) :
    isCall p s.network a = false ∧ Unused p network.calls := by
  refine (hending.unused hne).step ?_ hnetwork
  rw [← Bool.not_eq_true]
  exact fun hstarts => hne (hguard hstarts)

theorem Ending.step (hending : Ending p s) {a : Action κ} (hguard : CallsReturned p h s a)
    (hsteps : Steps wire p s a s' e) : Ending p s' := by
  cases hsteps with
  | worked hthread hbody hnetwork =>
      refine ⟨hending.stopped, fun hne => (hending.unused_step hguard hnetwork hne).2, ?_⟩
      exact hending.loops_setLoop (by simp [hbody]) _
  | called hthread hcall hnetwork =>
      exact ⟨hending.stopped, fun hne => (hending.unused_step hguard hnetwork hne).2,
        hending.joined⟩
  | elsewhere hthread hcall hnetwork =>
      exact ⟨hending.stopped, fun hne => (hending.unused_step hguard hnetwork hne).2,
        hending.joined⟩
  | checked hchecking =>
      refine ⟨hending.stopped, hending.unused, ?_⟩
      exact hending.loops_setLoop (by simp [hchecking]) _
  | polled hbody hidle =>
      refine ⟨hending.stopped, hending.unused, ?_⟩
      exact hending.loops_setLoop (by simp [hbody]) _
  | stopping hd =>
      refine ⟨fun _ => rfl, fun _ => hguard, ?_⟩
      intro thread hjoined
      cases thread <;> cases hjoined
  | joinedSender hd hreturned =>
      have hne : s.destructor ≠ .notCalled := by simp [hd]
      refine ⟨fun _ => hending.stopped hne, fun _ => hguard, ?_⟩
      intro thread hjoined
      cases thread with
      | sender => exact hreturned
      | listener => cases hjoined
  | joinedListener hd hreturned =>
      have hne : s.destructor ≠ .notCalled := by simp [hd]
      refine ⟨fun _ => hending.stopped hne, fun _ => hguard, ?_⟩
      intro thread _
      cases thread with
      | sender => exact hending.joined .sender (by rw [hd]; rfl)
      | listener => exact hreturned
  | closed hd =>
      have hne : s.destructor ≠ .notCalled := by simp [hd]
      refine ⟨fun _ => hending.stopped hne, fun _ => hguard, ?_⟩
      intro thread _
      exact hending.joined thread (by rw [hd]; rfl)

theorem ending_run (hrun : (lifetime wire memory p).Run (CallsReturned p) h s) : Ending p s := by
  refine hrun.invariant (I := fun _ s => Ending p s) (.of_notCalled rfl) ?_
  intro h s a s' e _ hending hguard hstep
  exact hending.step hguard (steps_of_step hstep)

/-! ## The last round -/

/-- Outside the body of its loop, the sender thread is between two envelopes. -/
def RoundsWhole (p : κ) (s : State κ) : Prop :=
  s.loops .sender ≠ .body → (s.network.endpoints p).sender = .idle

theorem RoundsWhole.step (hwhole : RoundsWhole p s) {a : Action κ}
    (hsteps : Steps wire p s a s' e) : RoundsWhole p s' := by
  cases hsteps with
  | @worked a thread network d hthread hbody hnetwork =>
      intro hloop
      cases thread with
      | sender =>
          rw [State.setLoop_loops, if_pos rfl] at hloop
          by_cases hidle : idle (network.endpoints p) .sender = true
          · exact (idle_sender_iff _).mp hidle
          · exact absurd (if_neg hidle) hloop
      | listener =>
          rw [State.setLoop_loops, if_neg (by decide)] at hloop
          exact (weights_of_listener hthread hnetwork).2.trans (hwhole hloop)
  | called hthread hcall hnetwork =>
      intro hloop
      exact (spares_of_none hthread hnetwork).sender.trans (hwhole hloop)
  | elsewhere hthread hcall hnetwork =>
      intro hloop
      exact (spares_of_none hthread hnetwork).sender.trans (hwhole hloop)
  | @checked thread hchecking =>
      intro hloop
      cases thread with
      | sender => exact hwhole (by simp [hchecking])
      | listener =>
          rw [State.setLoop_loops, if_neg (by decide)] at hloop
          exact hwhole hloop
  | polled hbody hidle =>
      intro hloop
      rw [State.setLoop_loops, if_neg (by decide)] at hloop
      exact hwhole hloop
  | _ => exact hwhole

/-- What the sender thread has taken out of the queue when it returns, it has sent to the
end. -/
theorem inRounds_of_returned {G : Guard (State κ) (Action κ) (Event κ)}
    (hrun : (lifetime wire memory p).Run G h s) (hreturned : s.loops .sender = .returned) :
    InRounds 5 (senderMoves p (h.filterMap Event.network?)) none := by
  have hwhole : RoundsWhole p s := by
    refine hrun.invariant (I := fun _ s => RoundsWhole p s) (fun _ => rfl) ?_
    intro h s a s' e _ hwhole _ hstep
    exact hwhole.step (steps_of_step hstep)
  have hrounds := inRounds_run (p := p) (run_endpoints hrun)
  rwa [hwhole (by simp [hreturned])] at hrounds

/-! ## What the destructor waits for -/

/-- The sender thread is about to encode an envelope that cannot be encoded. -/
def Unencodable (wire : Wire) (ep : Endpoint κ) : Prop :=
  ∃ aEnv attempt fault, ep.sender = .filling aEnv attempt ∧
    putEnvToProtoBufferOut wire ep.out aEnv.env = .error fault

/-- Whatever else the sender thread does, it can go on with. -/
theorem exists_sender_step (wire : Wire) (network : UdpEndpointBase.State κ) (p : κ) :
    (∃ network' d, UdpEndpointBase.step wire network (.sender p) = some (network', d)) ∨
      Unencodable wire (network.endpoints p) := by
  show (∃ network' d, sendEnvFromOutQueue wire network p = some (network', d)) ∨ _
  cases hs : (network.endpoints p).sender with
  | idle =>
      left
      cases hpop : (network.endpoints p).outQueue.pop with
      | mk item q => cases item <;> simp [sendEnvFromOutQueue, hs, hpop]
  | filling aEnv attempt =>
      cases hput : putEnvToProtoBufferOut wire (network.endpoints p).out aEnv.env with
      | error fault => exact .inr ⟨aEnv, attempt, fault, hs, hput⟩
      | ok out => simp [sendEnvFromOutQueue, hs, hput]
  | _ => simp [sendEnvFromOutQueue, hs]

/-- With a datagram at hand, the listener thread can go on. -/
theorem exists_listener_step (wire : Wire) {network : UdpEndpointBase.State κ} {p : κ}
    (hbusy : (network.endpoints p).listener ≠ .polling) :
    ∃ network' d, UdpEndpointBase.step wire network (.listener p) = some (network', d) := by
  have hlisten : ∃ ep, listen (network.endpoints p) = some ep := by
    unfold listen
    split
    · contradiction
    · split <;> exact ⟨_, rfl⟩
    · exact ⟨_, rfl⟩
    · split <;> exact ⟨_, rfl⟩
    · exact ⟨_, rfl⟩
  rcases hlisten with ⟨ep, hlisten⟩
  exact ⟨network.put p ep, .quiet, by simp [UdpEndpointBase.step, hlisten]⟩

/-- The endpoint has a step to take. -/
def GoesOn (wire : Wire) (p : κ) (h : List (Event κ)) (s : State κ) : Prop :=
  ∃ a s' e, CallsReturned p h s a ∧ step wire p s a = some (s', e) ∧ e.own = true

/-- A step of one of the two threads in its loop. -/
theorem goesOn_of_network {a : UdpEndpointBase.Action κ} {thread : Thread}
    {network : UdpEndpointBase.State κ} {d : UdpEndpointBase.Event κ}
    (hthread : threadOf p a = some thread) (hbody : s.loops thread = .body)
    (hnetwork : UdpEndpointBase.step wire s.network a = some (network, d)) :
    GoesOn wire p h s := by
  have hstep : step wire p s (.network a) = some
      (State.setLoop { s with network := network } thread
        (if idle (network.endpoints p) thread then .checking else .body), .worked thread d) := by
    simp only [step, networkStep, hthread, if_pos hbody, hnetwork, Option.map_some]
  refine ⟨_, _, _, ?_, hstep, rfl⟩
  intro hstarts
  rw [startsCall_of_thread hthread] at hstarts
  cases hstarts

/-- A thread that has not left its loop has a step to take. -/
theorem goesOn_of_loop {thread : Thread} (hloop : s.loops thread ≠ .returned) :
    GoesOn wire p h s ∨ Unencodable wire (s.network.endpoints p) := by
  cases hplace : s.loops thread with
  | returned => contradiction
  | checking =>
      have hstep : step wire p s (.loop thread) = some
          (s.setLoop thread (if s.isRunning then .body else .returned), .looped thread) := by
        simp only [step, repeating, hplace]
      exact .inl ⟨.loop thread, _, _, trivial, hstep, rfl⟩
  | body =>
      cases thread with
      | sender =>
          rcases exists_sender_step wire s.network p with ⟨network, d, hnetwork⟩ | hstuck
          · exact .inl (goesOn_of_network (a := .sender p) (if_pos rfl) hplace hnetwork)
          · exact .inr hstuck
      | listener =>
          by_cases hpolling : (s.network.endpoints p).listener = .polling
          · have hstep : step wire p s (.loop .listener) =
                some (s.setLoop .listener .checking, .looped .listener) := by
              simp [step, repeating, hplace, (idle_listener_iff _).mpr hpolling]
            exact .inl ⟨.loop .listener, _, _, trivial, hstep, rfl⟩
          · rcases exists_listener_step wire hpolling with ⟨network, d, hnetwork⟩
            exact .inl (goesOn_of_network (a := .listener p) (if_pos rfl) hplace hnetwork)

/-- Until the destructor returns, it or the thread that it waits for has a step to take. -/
theorem goesOn_of_ending (hending : Ending p s) (hbegun : s.destructor ≠ .notCalled)
    (hnotyet : s.destructor ≠ .returned) :
    GoesOn wire p h s ∨ Unencodable wire (s.network.endpoints p) := by
  have hdestroy : ∀ s' e, destroy s = some (s', e) → e.own = true → GoesOn wire p h s := by
    intro s' e hdestroy hown
    exact ⟨.destructor, s', e, hending.unused hbegun, hdestroy, hown⟩
  cases hd : s.destructor with
  | notCalled => contradiction
  | returned => contradiction
  | closing =>
      exact .inl (hdestroy { s with destructor := .returned } .closed (by simp [destroy, hd]) rfl)
  | joining thread =>
      by_cases hreturned : s.loops thread = .returned
      · have hjoin : destroy s =
            some ({ s with destructor := afterJoin thread }, .joined thread) := by
          simp only [destroy, hd, if_pos hreturned]
        exact .inl (hdestroy _ _ hjoin rfl)
      · exact goesOn_of_loop hreturned

/-! ## The end of an endpoint -/

/-- A step in the members or with the socket of the endpoint. -/
def Event.uses : Event κ → Bool
  | .worked _ _ => true
  | .called _ => true
  | .looped _ => true
  | _ => false

theorem Steps.of_stopping {a : Action κ} (hsteps : Steps wire p s a s' .stopping) :
    s'.isRunning = false ∧ s'.destructor = .joining .sender := by
  cases hsteps with
  | stopping hd => exact ⟨rfl, rfl⟩

theorem Steps.of_joined {a : Action κ} (hsteps : Steps wire p s a s' (.joined .listener)) :
    s'.destructor = .closing := by
  cases hsteps with
  | joinedListener hd hreturned => rfl

omit [DecidableEq κ] in
theorem weight_le (hd : s.destructor = .joining .sender) : s.weight p ≤ 74 := by
  have hsender : loopWeight (s.network.endpoints p) .sender (s.loops .sender) ≤ 22 := by
    cases s.loops .sender with
    | body =>
        cases hs : (s.network.endpoints p).sender <;>
          simp only [loopWeight, senderWeight, hs] <;>
          omega
    | _ => simp [loopWeight]
  have hlistener : loopWeight (s.network.endpoints p) .listener (s.loops .listener) ≤ 5 := by
    have hpush : ∀ n, pushWeight n ≤ 4 := by
      intro n
      unfold pushWeight
      split_ifs <;> decide
    cases s.loops .listener with
    | body =>
        cases hl : (s.network.endpoints p).listener <;>
          simp [loopWeight, listenerWeight, dispatchWeight, hl, (hpush _).trans]
    | _ => simp [loopWeight]
  simp only [State.weight, hd, Destructor.weight]
  omega

/-- After the join of the listener thread, only the destructor goes on. -/
theorem Steps.not_uses (hending : Ending p s) (hguard : CallsReturned p h s a)
    (hsteps : Steps wire p s a s' e)
    (hd : s.destructor = .closing ∨ s.destructor = .returned) :
    (s'.destructor = .closing ∨ s'.destructor = .returned) ∧ e.uses = false := by
  have hbegun : s.destructor ≠ .notCalled := by
    rcases hd with hd | hd <;> simp [hd]
  have hreturned : ∀ thread, s.loops thread = .returned := by
    intro thread
    refine hending.joined thread ?_
    rcases hd with hd | hd <;> rw [hd] <;> rfl
  cases hsteps with
  | worked hthread hbody hnetwork => simp [hreturned] at hbody
  | called hthread hcall hnetwork =>
      rw [(hending.unused_step hguard hnetwork hbegun).1] at hcall
      cases hcall
  | elsewhere hthread hcall hnetwork => exact ⟨hd, rfl⟩
  | checked hchecking => simp [hreturned] at hchecking
  | polled hbody hidle => simp [hreturned] at hbody
  | stopping hd' => contradiction
  | joinedSender hd' hreturned' => simp [hd'] at hd
  | joinedListener hd' hreturned' => simp [hd'] at hd
  | closed hd' => exact ⟨.inr rfl, rfl⟩

/-- Once the destructor has begun, the endpoint takes 74 steps at most; its sender thread takes
one more envelope out of the queue at most.  Until the destructor returns there is a step to
take, unless an envelope cannot be encoded.  Once both threads have been joined, the round of
every envelope taken is at its end, and nobody uses the endpoint. -/
theorem endpoint_destroyed (wire : Wire) (memory : κ → Memory κ) (p : κ) (h : List (Event κ))
    (s : State κ) (hrun : (lifetime wire memory p).Run (CallsReturned p) h s) :
    (∀ h₁ h₂, h = h₁ ++ .stopping :: h₂ →
        h₂.countP Event.own ≤ 74 ∧ h₂.countP Event.isTook ≤ 1) ∧
      (s.destructor ≠ .notCalled →
        s.destructor = .returned ∨ GoesOn wire p h s ∨
          Unencodable wire (s.network.endpoints p)) ∧
      ∀ h₁ h₂, h = h₁ ++ .joined .listener :: h₂ →
        InRounds 5 (senderMoves p (h.filterMap Event.network?)) none ∧
          ∀ e ∈ h₂, e.uses = false := by
  refine ⟨?_, ?_, ?_⟩
  · rintro h₁ h₂ rfl
    rw [List.append_cons] at hrun
    have hstart : ∀ s, (lifetime wire memory p).Run (CallsReturned p) (h₁ ++ [.stopping]) s →
        s.isRunning = false ∧ s.destructor = .joining .sender := by
      intro s hrun₁
      rcases hrun₁.of_concat with ⟨_, _, _, _, hstep⟩
      exact (steps_of_step hstep).of_stopping
    constructor
    · have hbound := hrun.countP_add_le (fun s => s.isRunning = false) Event.own (State.weight p) 74
        (fun s hrun₁ => ⟨(hstart s hrun₁).1, weight_le (hstart s hrun₁).2⟩)
        (fun h s a s' e _ hrunning _ hstep => (steps_of_step hstep).weight_le hrunning)
      omega
    · have hbound := hrun.countP_add_le (fun s => s.isRunning = false) Event.isTook
        (State.takesLeft p) 1
        (fun s hrun₁ => ⟨(hstart s hrun₁).1, takesLeft_le_one p s⟩)
        (fun h s a s' e _ hrunning _ hstep =>
          ⟨((steps_of_step hstep).weight_le hrunning).1,
            (steps_of_step hstep).takesLeft_le hrunning⟩)
      omega
  · intro hbegun
    by_cases hd : s.destructor = .returned
    · exact .inl hd
    · exact .inr (goesOn_of_ending (ending_run hrun) hbegun hd)
  · rintro h₁ h₂ rfl
    have hsplit := hrun
    rw [List.append_cons] at hsplit
    have hnone := hsplit.countP_add_le
      (fun s => s.destructor = .closing ∨ s.destructor = .returned) Event.uses (fun _ => 0) 0 ?_ ?_
    · constructor
      · refine inRounds_of_returned hrun ((ending_run hrun).joined .sender ?_)
        rcases hnone.1 with hd | hd <;> rw [hd] <;> rfl
      · intro e he
        have hcount : h₂.countP Event.uses = 0 := by omega
        exact Bool.not_eq_true _ ▸ List.countP_eq_zero.mp hcount e he
    · intro s hrun₁
      rcases hrun₁.of_concat with ⟨_, _, _, _, hstep⟩
      exact ⟨.inl (steps_of_step hstep).of_joined, Nat.le_refl _⟩
    · intro h s a s' e hrun₁ hd hguard hstep
      rcases (steps_of_step hstep).not_uses (ending_run hrun₁) hguard hd with ⟨hd', huses⟩
      exact ⟨hd', by simp [huses]⟩

instance (p : κ) (h : List (Event κ)) (s : State κ) (a : Action κ) :
    Decidable (CallsReturned p h s a) :=
  match a with
  | .network a => inferInstanceAs (Decidable (startsCall p a = true → s.destructor = .notCalled))
  | .loop _ => inferInstanceAs (Decidable True)
  | .destructor => inferInstanceAs (Decidable (Unused p s.network.calls))

end Steps

/-- Endpoint 0 is destroyed while its sender thread has a message to send that nobody
acknowledges. -/
def destroyedWhileSending : List (Action Nat) :=
  [.network (.sendEnvelope 0 greeting 1 5), .network (.call 0), .loop .sender,
    .network (.sender 0), .destructor] ++
    List.replicate 15 (.network (.sender 0)) ++
    [.loop .sender, .destructor, .loop .listener, .destructor, .destructor]

/-- The endpoint still takes 20 steps, and is gone then. -/
theorem endpoint_destroyed_whileSending :
    ∃ h s, (lifetime envelopeWire clearedMemory 0).Run (CallsReturned 0) h s ∧
      h.countP Event.own = 23 ∧ s.destructor = .returned ∧
      ∀ h₁ h₂, h = h₁ ++ .stopping :: h₂ →
        h₂.countP Event.own ≤ 74 ∧ h₂.countP Event.isTook ≤ 1 := by
  have hexec : ((lifetime envelopeWire clearedMemory 0).execFrom
      (fun h s a => decide (CallsReturned 0 h s a)) []
      (lifetime envelopeWire clearedMemory 0).init destroyedWhileSending).map
        (fun r => (r.1.countP Event.own, r.2.destructor)) = some (23, .returned) := by
    decide +kernel
  rcases Option.map_eq_some_iff.mp hexec with ⟨⟨h, s⟩, hexec, hpair⟩
  rcases Prod.mk.inj hpair with ⟨hown, hreturned⟩
  have hrun := Run.of_execFrom (fun _ _ _ => of_decide_eq_true) .start hexec
  exact ⟨h, s, hrun, hown, hreturned, (endpoint_destroyed envelopeWire clearedMemory 0 h s hrun).1⟩

end UdpEndpointBase.Lifetime

end SimpleMessenger
