import SimpleMessenger.Common.UdpRuns

/-!
# Where envelopes, datagrams and acknowledgements go

An envelope is with its {lit}`sendEnvelope` call, in the output queue or with the
sender thread; then it is under way in datagrams; then it is with the listener
thread, in the input queue or with a {lit}`tryReceiveEnvelope` call.  Each of these
stocks is fed by one kind of event and emptied by another, and at every place things
may also be lost, but nothing is made or doubled.

Main results:

- Theorems {lit}`taken_subperm_stamped`, {lit}`sent_subperm_taken`,
  {lit}`received_subperm_sent`, {lit}`returned_subperm_arrived` and
  {lit}`acknowledged_subperm_arrived`: the flows of a run.
-/

universe u

namespace SimpleMessenger

open CMemory StepSystem ProtobufItf EndpointBase CircularBuffer

namespace UdpEndpointBase

variable {κ : Type u}

/-! ## What is where -/

/-- The envelope that the sender thread works on, once for every attempt left. -/
def Sender.attempts : Sender κ → List (AddressedEnvelope κ)
  | .idle => []
  | .filling aEnv attempt => List.replicate (5 - attempt.val) aEnv
  | .sending aEnv attempt _ => List.replicate (5 - attempt.val) aEnv
  | .waiting aEnv attempt => List.replicate (5 - (attempt.val + 1)) aEnv
  | .requeuing aEnv attempt _ => List.replicate (5 - (attempt.val + 1)) aEnv

/-- The acknowledgement that the sender thread is about to put back. -/
def Sender.pendingAck? : Sender κ → Option ExpiringAck
  | .requeuing _ _ pendingAck => some pendingAck
  | _ => none

def Listener.incoming? : Listener κ → Option (AddressedEnvelope κ)
  | .storing aEnv => some aEnv
  | .dropping aEnv => some aEnv
  | _ => none

def Listener.ack? : Listener κ → Option ExpiringAck
  | .storingAck eAck => some eAck
  | .droppingAck eAck => some eAck
  | _ => none

def Point.outgoing? : Point κ → Option (AddressedEnvelope κ)
  | .queueing addrEnv => some addrEnv
  | _ => none

def Point.incoming? : Point κ → Option (AddressedEnvelope κ)
  | .acking aEnv => some aEnv
  | .sendingAck aEnv _ => some aEnv
  | _ => none

/-- What an endpoint has received and no call has taken up. -/
def Endpoint.received (ep : Endpoint κ) : List (AddressedEnvelope κ) :=
  ep.inQueue.contents ++ ep.listener.incoming?.toList

section Stocks

variable [DecidableEq κ]

/-- The envelope that a call at endpoint `p` is about to queue. -/
def Call.outgoing? (p : κ) (call : Call κ) : Option (AddressedEnvelope κ) :=
  if call.endpoint = p then call.point.outgoing? else none

/-- The envelope that a call at endpoint `p` is about to return. -/
def Call.incoming? (p : κ) (call : Call κ) : Option (AddressedEnvelope κ) :=
  if call.endpoint = p then call.point.incoming? else none

/-- What endpoint `p` has still to take up for sending. -/
def State.outgoing (s : State κ) (p : κ) : List (AddressedEnvelope κ) :=
  (s.endpoints p).outQueue.contents ++ s.calls.filterMap (Call.outgoing? p)

/-- What endpoint `p` has received and not yet returned. -/
def State.incoming (s : State κ) (p : κ) : List (AddressedEnvelope κ) :=
  (s.endpoints p).received ++ s.calls.filterMap (Call.incoming? p)

end Stocks

/-- The time stamps of the acknowledgements that an endpoint holds. -/
def Endpoint.acks (ep : Endpoint κ) : List Timestamp :=
  ((ep.ackQueue.contents ++ ep.listener.ack?.toList) ++ ep.sender.pendingAck?.toList).map
    (·.tStamp)

/-! ## What comes in and goes out -/

section Events

variable [DecidableEq κ]

/-- The envelope stamped at endpoint `p`. -/
def Event.stampedAt (p : κ) : Event κ → List (AddressedEnvelope κ)
  | .stamped _ q addrEnv => if q = p then [addrEnv] else []
  | _ => []

/-- The envelope taken out of the output queue of `p`. -/
def Event.takenAt (p : κ) : Event κ → List (AddressedEnvelope κ)
  | .took q aEnv => if q = p then [aEnv] else []
  | _ => []

/-- The envelope sent by the sender thread of `p`. -/
def Event.sentAt (p : κ) : Event κ → List (AddressedEnvelope κ)
  | .sent q aEnv _ _ => if q = p then [aEnv] else []
  | _ => []

/-- The datagram put on the network. -/
def Event.emitted : Event κ → List (Datagram κ)
  | .sent _ _ _ datagram => [datagram]
  | .returned _ _ _ _ datagram => [datagram]
  | _ => []

/-- The datagram taken off the network by a listener. -/
def Event.delivered : Event κ → List (Datagram κ)
  | .received _ datagram _ => [datagram]
  | _ => []

/-- The envelope received at `p`, unless it is an acknowledgement. -/
def Event.arrivedAt (p : κ) : Event κ → List (AddressedEnvelope κ)
  | .received q _ aEnv =>
      if q = p ∧ getMessageType aEnv.env ≠ .AckMessage then [aEnv] else []
  | _ => []

/-- The envelope returned by a call at `p`. -/
def Event.returnedAt (p : κ) : Event κ → List (AddressedEnvelope κ)
  | .returned _ q aEnv _ _ => if q = p then [aEnv] else []
  | _ => []

/-- The time stamp of the acknowledgement received at `p`. -/
def Event.ackArrivedAt (p : κ) : Event κ → List Timestamp
  | .received q _ aEnv =>
      if q = p ∧ getMessageType aEnv.env = .AckMessage then [getTimeStamp aEnv.env] else []
  | _ => []

/-- The time stamp that ended a retransmission at `p`. -/
def Event.acknowledgedAt (p : κ) : Event κ → List Timestamp
  | .acknowledged q _ eAck => if q = p then [eAck.tStamp] else []
  | _ => []

end Events

/-! ## Flows of one step -/

section Flows

variable [DecidableEq κ]

@[simp]
theorem State.put_calls (s : State κ) (p : κ) (ep : Endpoint κ) : (s.put p ep).calls = s.calls :=
  rfl

@[simp]
theorem State.put_network (s : State κ) (p : κ) (ep : Endpoint κ) :
    (s.put p ep).network = s.network :=
  rfl

@[simp]
theorem State.put_self (s : State κ) (p : κ) (ep : Endpoint κ) : (s.put p ep).endpoints p = ep :=
  Function.update_self _ _ _

theorem State.put_of_ne {p q : κ} (hne : q ≠ p) (s : State κ) (ep : Endpoint κ) :
    (s.put p ep).endpoints q = s.endpoints q :=
  Function.update_of_ne hne _ _

/-- What a step of endpoint `p` leaves as it is, it leaves so at every endpoint. -/
theorem State.put_attribute {β : Type*} (f : Endpoint κ → β) {s : State κ} {p : κ}
    {x : Endpoint κ} (hf : f x = f (s.endpoints p)) (q : κ) :
    f ((s.put p x).endpoints q) = f (s.endpoints q) := by
  rcases eq_or_ne q p with rfl | hne
  · rw [State.put_self, hf]
  · rw [State.put_of_ne hne]

variable {wire : Wire} {s s' : State κ} {a : Action κ} {e : Event κ}

omit [DecidableEq κ] in
theorem Listens.sender {ep ep' : Endpoint κ} (hlistens : Listens ep ep') :
    ep'.sender = ep.sender := by
  cases hlistens <;> rfl

/-- The sender thread stands still, or it makes a step of its own, or it executes its
`sendto`. -/
theorem Steps.sender_cases (hsteps : Steps wire s a s' e) (p : κ) :
    (s'.endpoints p).sender = (s.endpoints p).sender ∨
      Sends wire p (s.endpoints p) (s'.endpoints p) e ∨
      ∃ aEnv attempt message, (s.endpoints p).sender = .sending aEnv attempt message ∧
        (s'.endpoints p).sender = .waiting aEnv attempt := by
  cases hsteps with
  | returned hc hdatagram => exact .inl rfl
  | lost hi => exact .inl rfl
  | @sending q ep e hsends =>
      rcases eq_or_ne p q with rfl | hne
      · rw [State.put_self]
        exact .inr (.inl hsends)
      · exact .inl (congrArg (·.sender) (State.put_of_ne hne _ _))
  | @sent q aEnv attempt message datagram hs hdatagram =>
      rcases eq_or_ne p q with rfl | hne
      · refine .inr (.inr ⟨aEnv, attempt, message, hs, ?_⟩)
        simp only [State.put_self]
      · exact .inl (congrArg (·.sender) (State.put_of_ne hne _ _))
  | listened hlistens => exact .inl (State.put_attribute (·.sender) hlistens.sender p)
  | _ =>
      refine .inl (State.put_attribute (·.sender) ?_ p)
      rfl

/-- The sender thread takes one envelope out of the output queue, or none. -/
theorem Sends.outQueue {p : κ} {ep ep' : Endpoint κ} (hsends : Sends wire p ep ep' e) :
    e.takenAt p ++ ep'.outQueue.contents = ep.outQueue.contents := by
  cases hsends with
  | idle hs hq => simp [Event.takenAt, hq]
  | took hs hq => simp [Event.takenAt, hq]
  | filled hs hput => rfl
  | unanswered hs hq => rfl
  | acknowledged hs hq hstamp => rfl
  | keeping hs hq hstamp => rfl
  | requeued hs hq => rfl

omit [DecidableEq κ] in
theorem Listens.outQueue {ep ep' : Endpoint κ} (hlistens : Listens ep ep') :
    ep'.outQueue = ep.outQueue := by
  cases hlistens <;> rfl

omit [DecidableEq κ] in
/-- Nothing goes out, and the stock is as before. -/
theorem subperm_of_perm {β : Type*} {out old new inn : List β} (hout : out = [])
    (hnew : new.Perm old) : (out ++ new).Subperm (old ++ inn) := by
  rw [hout, List.nil_append]
  exact hnew.subperm.trans (List.sublist_append_left _ _).subperm

omit [DecidableEq κ] in
theorem subperm_of_eq {β : Type*} {out old new inn : List β} (hout : out = []) (hnew : new = old) :
    (out ++ new).Subperm (old ++ inn) :=
  subperm_of_perm hout (.of_eq hnew)

theorem Call.outgoing?_eq_none {p : κ} {call : Call κ} (hpoint : call.point.outgoing? = none) :
    Call.outgoing? p call = none := by
  rw [Call.outgoing?, hpoint, ite_self]

/-- The stock of a state with the same queue and the same calls about to queue. -/
theorem outgoing_perm {p : κ}
    (hqueue : (s'.endpoints p).outQueue = (s.endpoints p).outQueue)
    (hcalls : (s'.calls.filterMap (Call.outgoing? p)).Perm
      (s.calls.filterMap (Call.outgoing? p))) : (s'.outgoing p).Perm (s.outgoing p) := by
  rw [State.outgoing, State.outgoing, hqueue]
  exact hcalls.append_left _

/-- A call that is started with nothing to queue. -/
theorem outgoing_concat {p : κ} {call : Call κ} (hcall : Call.outgoing? p call = none) :
    ((s.calls ++ [call]).filterMap (Call.outgoing? p)).Perm
      (s.calls.filterMap (Call.outgoing? p)) := by
  rw [filterMap_concat, hcall, Option.toList_none, List.append_nil]

/-- What is taken up for sending was stamped, and is taken up once. -/
theorem Steps.outgoing_flow (hsteps : Steps wire s a s' e) (p : κ) :
    (e.takenAt p ++ s'.outgoing p).Subperm (s.outgoing p ++ e.stampedAt p) := by
  cases hsteps with
  | @stamped q receiverInfo envelope now addrEnv haddr hclock =>
      have hqueue := State.put_attribute (·.outQueue) (s := s) (p := q)
        (x := { s.endpoints q with clock := now }) rfl p
      have hcall : (Call.outgoing? p ⟨q, .queueing addrEnv⟩).toList =
          Event.stampedAt p (.stamped s.calls.length q addrEnv) := by
        simp only [Call.outgoing?, Event.stampedAt]
        split_ifs <;> rfl
      simp only [State.outgoing, hqueue, filterMap_concat, hcall, ← List.append_assoc]
      exact List.Subperm.refl _
  | receivedNothing hq =>
      refine subperm_of_perm rfl (outgoing_perm (State.put_attribute (·.outQueue) ?_ p)
        (outgoing_concat (Call.outgoing?_eq_none rfl)))
      rfl
  | popped hq =>
      refine subperm_of_perm rfl (outgoing_perm (State.put_attribute (·.outQueue) ?_ p)
        (outgoing_concat (Call.outgoing?_eq_none rfl)))
      rfl
  | @queued c q addrEnv queue hc hq =>
      rcases eq_or_ne p q with rfl | hne
      · -- from the call to the queue, or nowhere
        have hgone := filterMap_perm_cons_set (p := ⟨p, .returned⟩) (f := Call.outgoing? p) hc
          (if_pos rfl) (Call.outgoing?_eq_none rfl)
        have hone : queue.contents.Subperm ((s.endpoints p).outQueue.contents ++ [addrEnv]) := by
          rcases hq with hq | hq
          · rw [hq]
          · rw [hq]
            exact (List.sublist_append_left _ _).subperm
        simp only [Event.takenAt, Event.stampedAt, State.outgoing, State.put_self,
          List.nil_append, List.append_nil]
        refine ((List.subperm_append_right _).mpr hone).trans ?_
        rw [List.append_assoc]
        exact (hgone.symm.append_left _).subperm
      · have hnone : ∀ point, Call.outgoing? p ⟨q, point⟩ = none := fun _ => if_neg hne.symm
        refine subperm_of_perm rfl (outgoing_perm ?_
          (filterMap_set_perm_of_none hc (hnone _) (hnone _)))
        exact congrArg (·.outQueue) (State.put_of_ne hne _ _)
  | ackFilled hc hput =>
      refine subperm_of_perm rfl (outgoing_perm (State.put_attribute (·.outQueue) ?_ p)
        (filterMap_set_perm_of_none hc (Call.outgoing?_eq_none rfl)
          (Call.outgoing?_eq_none rfl)))
      rfl
  | returned hc hdatagram =>
      exact subperm_of_perm rfl (outgoing_perm rfl (filterMap_set_perm_of_none hc
        (Call.outgoing?_eq_none rfl) (Call.outgoing?_eq_none rfl)))
  | @sending q ep e hsends =>
      have hstamped : e.stampedAt p = [] := by cases hsends <;> rfl
      rcases eq_or_ne p q with rfl | hne
      · simp only [State.outgoing, State.put_self, State.put_calls, hstamped, List.append_nil,
          ← List.append_assoc, hsends.outQueue]
        exact List.Subperm.refl _
      · refine subperm_of_perm ?_ (outgoing_perm ?_ .rfl)
        · cases hsends <;> simp [Event.takenAt, hne.symm]
        · exact congrArg (·.outQueue) (State.put_of_ne hne _ _)
  | listened hlistens =>
      exact subperm_of_perm rfl
        (outgoing_perm (State.put_attribute (·.outQueue) hlistens.outQueue p) .rfl)
  | lost hi => exact subperm_of_perm rfl .rfl
  | _ =>
      refine subperm_of_perm rfl (outgoing_perm (State.put_attribute (·.outQueue) ?_ p) .rfl)
      rfl

/-! ### Sending -/

omit [DecidableEq κ] in
theorem attempts_nextAttempt (aEnv : AddressedEnvelope κ) (attempt : Fin 5) :
    (nextAttempt aEnv attempt).attempts.Sublist (Sender.waiting aEnv attempt).attempts := by
  unfold nextAttempt
  split_ifs
  · exact List.Sublist.refl _
  · exact List.nil_sublist _

/-- The sender thread has five attempts for what it takes. -/
theorem Sends.attempts {p : κ} {ep ep' : Endpoint κ} (hsends : Sends wire p ep ep' e) :
    (e.sentAt p ++ ep'.sender.attempts).Subperm
      (ep.sender.attempts ++ (e.takenAt p).flatMap (List.replicate 5)) := by
  cases hsends with
  | idle hs hq => exact subperm_of_eq rfl (by rw [hs])
  | took hs hq =>
      rw [hs]
      simpa [Event.sentAt, Event.takenAt, Sender.attempts] using List.Subperm.refl _
  | filled hs hput => exact subperm_of_eq rfl (by rw [hs]; rfl)
  | @unanswered aEnv attempt q hs hq =>
      rw [hs]
      simpa [Event.sentAt, Event.takenAt] using (attempts_nextAttempt aEnv attempt).subperm
  | acknowledged hs hq hstamp => simp [Event.sentAt, Sender.attempts]
  | keeping hs hq hstamp => exact subperm_of_eq rfl (by rw [hs]; rfl)
  | @requeued aEnv attempt pendingAck q hs hq =>
      rw [hs]
      simp only [Event.sentAt, Event.takenAt, List.nil_append, List.flatMap_nil, List.append_nil]
      exact (attempts_nextAttempt aEnv attempt).subperm

/-- What is sent was taken up, and is sent five times at most. -/
theorem Steps.attempts_flow (hsteps : Steps wire s a s' e) (p : κ) :
    (e.sentAt p ++ (s'.endpoints p).sender.attempts).Subperm
      ((s.endpoints p).sender.attempts ++ (e.takenAt p).flatMap (List.replicate 5)) := by
  cases hsteps with
  | returned hc hdatagram => exact subperm_of_eq rfl rfl
  | lost hi => exact subperm_of_eq rfl rfl
  | @sending q ep e hsends =>
      rcases eq_or_ne p q with rfl | hne
      · rw [State.put_self]
        exact hsends.attempts
      · refine subperm_of_eq ?_ (by rw [State.put_of_ne hne])
        cases hsends <;> rfl
  | @sent q aEnv attempt message datagram hs hdatagram =>
      rcases eq_or_ne p q with rfl | hne
      · -- the message goes out, and one attempt less is left
        have hless : 5 - attempt.val = (5 - (attempt.val + 1)) + 1 := by omega
        rw [hs]
        simpa [Event.sentAt, Event.takenAt, Sender.attempts, hless, List.replicate_succ] using
          List.Subperm.refl _
      · exact subperm_of_eq (by simp [Event.sentAt, hne.symm])
          (congrArg (·.sender.attempts) (State.put_of_ne hne _ _))
  | listened hlistens =>
      exact subperm_of_eq rfl
        (State.put_attribute (·.sender.attempts) (congrArg _ hlistens.sender) p)
  | _ =>
      refine subperm_of_eq rfl (State.put_attribute (·.sender.attempts) ?_ p)
      rfl

/-! ### The network -/

omit [DecidableEq κ] in
/-- What is delivered was put on the network, and is delivered once. -/
theorem Steps.network_flow [DecidableEq κ] (hsteps : Steps wire s a s' e) :
    (e.delivered ++ s'.network).Subperm (s.network ++ e.emitted) := by
  cases hsteps with
  | returned hc hdatagram => exact List.Subperm.refl _
  | sent hs hdatagram => exact List.Subperm.refl _
  | sending hsends =>
      refine subperm_of_eq ?_ rfl
      cases hsends <;> rfl
  | @received q i datagram aEnv bufferIn hi hdest hpolling hsource htag hdecode =>
      rcases List.getElem?_eq_some_iff.mp hi with ⟨hlt, rfl⟩
      have hperm := List.getElem_cons_eraseIdx_perm hlt
      simpa [Event.delivered, Event.emitted] using hperm.subperm
  | lost hi =>
      simpa [Event.delivered, Event.emitted] using (List.eraseIdx_sublist _ _).subperm
  | _ => exact subperm_of_eq rfl rfl

/-! ### Receiving -/

omit [DecidableEq κ] in
theorem Sends.received {p : κ} {ep ep' : Endpoint κ} (hsends : Sends wire p ep ep' e) :
    ep'.received = ep.received := by
  cases hsends <;> rfl

omit [DecidableEq κ] in
/-- The listener thread puts what it holds into the input queue, or drops what has
been there longest. -/
theorem Listens.received {ep ep' : Endpoint κ} (hlistens : Listens ep ep') :
    ep'.received.Subperm ep.received := by
  cases hlistens with
  | stored hl hq =>
      rw [Endpoint.received, Endpoint.received, hl]
      simpa [hq, Listener.incoming?] using List.Subperm.refl _
  | full hl hq =>
      rw [Endpoint.received, Endpoint.received, hl, hq]
      exact List.Subperm.refl _
  | dropped hl hq =>
      rw [Endpoint.received, Endpoint.received, hl, hq]
      exact ((List.tail_sublist _).append_right _).subperm
  | ackStored hl hq =>
      rw [Endpoint.received, Endpoint.received, hl]
      exact List.Subperm.refl _
  | ackFull hl hq =>
      rw [Endpoint.received, Endpoint.received, hl]
      exact List.Subperm.refl _
  | ackDropped hl hq =>
      rw [Endpoint.received, Endpoint.received, hl]
      exact List.Subperm.refl _

omit [DecidableEq κ] in
theorem incoming?_dispatchIncomingEnv (aEnv : AddressedEnvelope κ) :
    (dispatchIncomingEnv aEnv).incoming? =
      if getMessageType aEnv.env = .AckMessage then none else some aEnv := by
  unfold dispatchIncomingEnv
  split_ifs <;> rfl

theorem Call.incoming?_eq_none {p : κ} {call : Call κ} (hpoint : call.point.incoming? = none) :
    Call.incoming? p call = none := by
  rw [Call.incoming?, hpoint, ite_self]

/-- The stock of a state with the same input and the same calls about to return. -/
theorem incoming_perm {p : κ} (hreceived : (s'.endpoints p).received = (s.endpoints p).received)
    (hcalls : (s'.calls.filterMap (Call.incoming? p)).Perm
      (s.calls.filterMap (Call.incoming? p))) : (s'.incoming p).Perm (s.incoming p) := by
  rw [State.incoming, State.incoming, hreceived]
  exact hcalls.append_left _

/-- A call that is started with nothing to return. -/
theorem incoming_concat {p : κ} {call : Call κ} (hcall : Call.incoming? p call = none) :
    ((s.calls ++ [call]).filterMap (Call.incoming? p)).Perm
      (s.calls.filterMap (Call.incoming? p)) := by
  rw [filterMap_concat, hcall, Option.toList_none, List.append_nil]

/-- What is returned was received, and is returned once. -/
theorem Steps.incoming_flow (hsteps : Steps wire s a s' e) (p : κ) :
    (e.returnedAt p ++ s'.incoming p).Subperm (s.incoming p ++ e.arrivedAt p) := by
  cases hsteps with
  | stamped haddr hclock =>
      refine subperm_of_perm rfl (incoming_perm (State.put_attribute Endpoint.received ?_ p)
        (incoming_concat (Call.incoming?_eq_none rfl)))
      rfl
  | receivedNothing hq =>
      refine subperm_of_perm rfl (incoming_perm (State.put_attribute Endpoint.received ?_ p)
        (incoming_concat (Call.incoming?_eq_none rfl)))
      exact congrArg (· ++ _) hq
  | @popped q aEnv queue hq =>
      rcases eq_or_ne p q with rfl | hne
      · -- from the queue to the call
        have hnew : Call.incoming? p ⟨p, .acking aEnv⟩ = some aEnv := if_pos rfl
        simp only [Event.returnedAt, Event.arrivedAt, State.incoming, State.put_self,
          Endpoint.received, filterMap_concat, hnew, hq, List.nil_append, List.append_nil,
          Option.toList_some, ← List.append_assoc]
        exact (List.perm_append_singleton _ _).subperm
      · have hnone : Call.incoming? p ⟨q, .acking aEnv⟩ = none := if_neg hne.symm
        refine subperm_of_perm rfl (incoming_perm ?_ (incoming_concat hnone))
        exact congrArg Endpoint.received (State.put_of_ne hne _ _)
  | queued hc hq =>
      refine subperm_of_perm rfl (incoming_perm (State.put_attribute Endpoint.received ?_ p)
        (filterMap_set_perm_of_none hc (Call.incoming?_eq_none rfl)
          (Call.incoming?_eq_none rfl)))
      rfl
  | @ackFilled c q aEnv out hc hput =>
      have hkept := filterMap_set_perm (p := ⟨q, .sendingAck aEnv out.protoMessage⟩)
        (Call.incoming? p) hc
      have hsame : Call.incoming? p ⟨q, .sendingAck aEnv out.protoMessage⟩ =
          Call.incoming? p ⟨q, .acking aEnv⟩ := rfl
      rw [hsame, List.perm_append_right_iff] at hkept
      refine subperm_of_perm rfl (incoming_perm (State.put_attribute Endpoint.received ?_ p) hkept)
      rfl
  | @returned c q aEnv message datagram hc hdatagram =>
      -- the call gives up what it held
      have hgone := filterMap_set_perm (p := ⟨q, .returned⟩) (Call.incoming? p) hc
      have hheld : (Call.incoming? p ⟨q, .sendingAck aEnv message⟩).toList =
          Event.returnedAt p (.returned c q aEnv message datagram) := by
        simp only [Call.incoming?, Event.returnedAt]
        split_ifs <;> rfl
      rw [hheld, Call.incoming?_eq_none rfl, Option.toList_none, List.append_nil] at hgone
      have hmoved := (hgone.append_left (s.endpoints p).received).subperm
      rw [← List.append_assoc] at hmoved
      refine (List.perm_append_comm.subperm).trans (hmoved.trans ?_)
      exact (List.sublist_append_left _ _).subperm
  | @sending q ep e hsends =>
      refine subperm_of_perm ?_ (incoming_perm
        (State.put_attribute Endpoint.received hsends.received p) .rfl)
      cases hsends <;> rfl
  | @received q i datagram aEnv bufferIn hi hdest hpolling hsource htag hdecode =>
      rcases eq_or_ne p q with rfl | hne
      · -- from the network to the listener
        have hnone : (s.endpoints p).listener.incoming? = none := by rw [hpolling]; rfl
        have hnew : (dispatchIncomingEnv aEnv).incoming?.toList =
            Event.arrivedAt p (.received p datagram aEnv) := by
          rw [incoming?_dispatchIncomingEnv, Event.arrivedAt]
          split_ifs with hack harrived harrived
          · exact absurd hack harrived.2
          · rfl
          · rfl
          · exact absurd ⟨rfl, hack⟩ harrived
        simp only [Event.returnedAt, State.incoming, State.put_self, Endpoint.received, hnone, hnew,
          List.nil_append, Option.toList_none, List.append_nil, List.append_assoc]
        exact (List.perm_append_comm.append_left _).subperm
      · refine subperm_of_perm rfl (incoming_perm ?_ .rfl)
        exact congrArg Endpoint.received (State.put_of_ne hne _ _)
  | @listened q ep hlistens =>
      rcases eq_or_ne p q with rfl | hne
      · simp only [Event.returnedAt, Event.arrivedAt, State.incoming, State.put_self,
          State.put_calls, List.nil_append, List.append_nil]
        exact (List.subperm_append_right _).mpr hlistens.received
      · refine subperm_of_perm rfl (incoming_perm ?_ .rfl)
        exact congrArg Endpoint.received (State.put_of_ne hne _ _)
  | lost hi => exact subperm_of_perm rfl .rfl
  | _ =>
      refine subperm_of_perm rfl (incoming_perm (State.put_attribute Endpoint.received ?_ p) .rfl)
      rfl

/-! ### Acknowledgements -/

omit [DecidableEq κ] in
/-- An endpoint whose parts hold the same acknowledgements. -/
theorem acks_congr {ep ep' : Endpoint κ} (hqueue : ep'.ackQueue.contents = ep.ackQueue.contents)
    (hlistener : ep'.listener.ack? = ep.listener.ack?)
    (hsender : ep'.sender.pendingAck? = ep.sender.pendingAck?) : ep'.acks = ep.acks := by
  rw [Endpoint.acks, hqueue, hlistener, hsender, Endpoint.acks]

omit [DecidableEq κ] in
theorem pendingAck?_nextAttempt (aEnv : AddressedEnvelope κ) (attempt : Fin 5) :
    (nextAttempt aEnv attempt).pendingAck? = none := by
  unfold nextAttempt
  split_ifs <;> rfl

/-- The sender thread uses up an acknowledgement, keeps it or lets it expire. -/
theorem Sends.acks {p : κ} {ep ep' : Endpoint κ} (hsends : Sends wire p ep ep' e) :
    (e.acknowledgedAt p ++ ep'.acks).Subperm (ep.acks ++ e.ackArrivedAt p) := by
  cases hsends with
  | idle hs hq => exact subperm_of_eq rfl (acks_congr rfl rfl (by rw [hs]))
  | took hs hq => exact subperm_of_eq rfl (acks_congr rfl rfl (by rw [hs]; rfl))
  | filled hs hput => exact subperm_of_eq rfl (acks_congr rfl rfl (by rw [hs]; rfl))
  | @unanswered aEnv attempt q hs hq =>
      have hnone : ep.sender.pendingAck? = none := by rw [hs]; rfl
      simp only [Event.acknowledgedAt, Event.ackArrivedAt, Endpoint.acks, hnone,
        pendingAck?_nextAttempt, List.nil_append, List.append_nil]
      exact (((hq.append_right _).append_right _).map _).subperm
  | @acknowledged aEnv attempt pendingAck q hs hq hstamp =>
      have hnone : ep.sender.pendingAck? = none := by rw [hs]; rfl
      have hidle : (Sender.idle : Sender κ).pendingAck? = none := rfl
      simp only [Event.acknowledgedAt, Event.ackArrivedAt, Endpoint.acks, hnone, hidle, hq,
        if_true, List.append_nil, List.cons_append, List.map_cons]
      exact List.Subperm.refl _
  | @keeping aEnv attempt pendingAck eAck q hs hq hstamp =>
      -- the acknowledgement goes from the queue to the thread
      have hnone : ep.sender.pendingAck? = none := by rw [hs]; rfl
      have hkept : (Sender.requeuing aEnv attempt eAck).pendingAck? = some eAck := rfl
      simp only [Event.acknowledgedAt, Event.ackArrivedAt, Endpoint.acks, hnone, hkept, hq,
        Option.toList_some, Option.toList_none, List.nil_append,
        List.append_nil, List.cons_append, List.map_append, List.map_cons, List.map_nil, hstamp]
      exact (List.perm_append_singleton _ _).subperm
  | @requeued aEnv attempt pendingAck q hs hq =>
      -- and from the thread to the end of the queue
      have hsome : ep.sender.pendingAck? = some pendingAck := by rw [hs]; rfl
      simp only [Event.acknowledgedAt, Event.ackArrivedAt, Endpoint.acks, hsome,
        pendingAck?_nextAttempt, Option.toList_some, Option.toList_none, List.nil_append,
        List.append_nil]
      refine (((hq.append_right _).map _).subperm).trans ?_
      refine (List.Perm.map _ ?_).subperm
      rw [List.append_assoc, List.append_assoc]
      exact List.perm_append_comm.append_left _

omit [DecidableEq κ] in
/-- The listener thread puts what it holds into the queue, or drops what has been
there longest. -/
theorem Listens.acks {ep ep' : Endpoint κ} (hlistens : Listens ep ep') :
    ep'.acks.Subperm ep.acks := by
  have hsub : (ep'.ackQueue.contents ++ ep'.listener.ack?.toList).Sublist
      (ep.ackQueue.contents ++ ep.listener.ack?.toList) := by
    cases hlistens with
    | stored hl hq =>
        rw [hl]
        exact List.Sublist.refl _
    | full hl hq =>
        rw [hl]
        exact List.Sublist.refl _
    | dropped hl hq =>
        rw [hl]
        exact List.Sublist.refl _
    | ackStored hl hq =>
        rw [hl, hq]
        simp [Listener.ack?]
    | ackFull hl hq =>
        rw [hl, hq]
        exact List.Sublist.refl _
    | ackDropped hl hq =>
        rw [hl, hq]
        exact (List.tail_sublist _).append_right _
  rw [Endpoint.acks, congrArg Sender.pendingAck? hlistens.sender, Endpoint.acks]
  exact ((hsub.append_right _).map _).subperm

omit [DecidableEq κ] in
theorem ack?_dispatchIncomingEnv (aEnv : AddressedEnvelope κ) :
    (dispatchIncomingEnv aEnv).ack? =
      if getMessageType aEnv.env = .AckMessage then some { tStamp := getTimeStamp aEnv.env }
      else none := by
  unfold dispatchIncomingEnv
  split_ifs <;> rfl

/-- What ends a retransmission was received as an acknowledgement, and ends one
only. -/
theorem Steps.acks_flow (hsteps : Steps wire s a s' e) (p : κ) :
    (e.acknowledgedAt p ++ (s'.endpoints p).acks).Subperm
      ((s.endpoints p).acks ++ e.ackArrivedAt p) := by
  cases hsteps with
  | returned hc hdatagram => exact subperm_of_eq rfl rfl
  | lost hi => exact subperm_of_eq rfl rfl
  | @sending q ep e hsends =>
      rcases eq_or_ne p q with rfl | hne
      · rw [State.put_self]
        exact hsends.acks
      · refine subperm_of_eq ?_ (by rw [State.put_of_ne hne])
        cases hsends <;> simp [Event.acknowledgedAt, hne.symm]
  | @sent q aEnv attempt message datagram hs hdatagram =>
      refine subperm_of_eq rfl (State.put_attribute Endpoint.acks ?_ p)
      exact acks_congr rfl rfl (by rw [hs]; rfl)
  | @received q i datagram aEnv bufferIn hi hdest hpolling hsource htag hdecode =>
      rcases eq_or_ne p q with rfl | hne
      · -- from the network to the listener
        have hnone : (s.endpoints p).listener.ack? = none := by rw [hpolling]; rfl
        have hdispatch := ack?_dispatchIncomingEnv aEnv
        simp only [State.put_self, Event.acknowledgedAt, Event.ackArrivedAt, Endpoint.acks,
          hnone, hdispatch, List.nil_append]
        split_ifs with hack harrived harrived
        · simp only [Option.toList_some, Option.toList_none, List.append_nil,
            List.append_assoc, List.map_append, List.map_cons, List.map_nil]
          exact (List.perm_append_comm.append_left _).subperm
        · exact absurd ⟨trivial, hack⟩ harrived
        · exact absurd harrived.2 hack
        · exact (List.sublist_append_left _ _).subperm
      · exact subperm_of_eq rfl (congrArg Endpoint.acks (State.put_of_ne hne _ _))
  | @listened q ep hlistens =>
      rcases eq_or_ne p q with rfl | hne
      · rw [State.put_self]
        simpa [Event.acknowledgedAt, Event.ackArrivedAt] using hlistens.acks
      · exact subperm_of_eq rfl (by rw [State.put_of_ne hne])
  | _ =>
      refine subperm_of_eq rfl (State.put_attribute Endpoint.acks ?_ p)
      rfl

/-! ## Flows of a run -/

variable {memory : κ → Memory κ} {G : Guard (State κ) (Action κ) (Event κ)} {h : List (Event κ)}

theorem taken_subperm_stamped (hrun : (endpoints wire memory).Run G h s) (p : κ) :
    (h.flatMap (Event.takenAt p) ++ s.outgoing p).Subperm (h.flatMap (Event.stampedAt p)) := by
  refine hrun.flow (fun s => s.outgoing p) ?_ ?_
  · rfl
  · intro h s a s' e _ _ hstep
    exact (steps_of_step hstep).outgoing_flow p

theorem sent_subperm_taken (hrun : (endpoints wire memory).Run G h s) (p : κ) :
    (h.flatMap (Event.sentAt p) ++ (s.endpoints p).sender.attempts).Subperm
      ((h.flatMap (Event.takenAt p)).flatMap (List.replicate 5)) := by
  rw [List.flatMap_assoc]
  refine hrun.flow (fun s => (s.endpoints p).sender.attempts) ?_ ?_
  · rfl
  · intro h s a s' e _ _ hstep
    exact (steps_of_step hstep).attempts_flow p

theorem received_subperm_sent (hrun : (endpoints wire memory).Run G h s) :
    (h.flatMap Event.delivered ++ s.network).Subperm (h.flatMap Event.emitted) := by
  refine hrun.flow State.network ?_ ?_
  · rfl
  · intro h s a s' e _ _ hstep
    exact (steps_of_step hstep).network_flow

theorem returned_subperm_arrived (hrun : (endpoints wire memory).Run G h s) (p : κ) :
    (h.flatMap (Event.returnedAt p) ++ s.incoming p).Subperm
      (h.flatMap (Event.arrivedAt p)) := by
  refine hrun.flow (fun s => s.incoming p) ?_ ?_
  · rfl
  · intro h s a s' e _ _ hstep
    exact (steps_of_step hstep).incoming_flow p

theorem acknowledged_subperm_arrived (hrun : (endpoints wire memory).Run G h s) (p : κ) :
    (h.flatMap (Event.acknowledgedAt p) ++ (s.endpoints p).acks).Subperm
      (h.flatMap (Event.ackArrivedAt p)) := by
  refine hrun.flow (fun s => (s.endpoints p).acks) ?_ ?_
  · rfl
  · intro h s a s' e _ _ hstep
    exact (steps_of_step hstep).acks_flow p

end Flows

end UdpEndpointBase

end SimpleMessenger
