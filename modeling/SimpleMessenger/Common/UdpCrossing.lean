import SimpleMessenger.Common.UdpFlows

/-!
# The shared output buffer

{lit}`sendDataGram` fills the output buffer of its endpoint and then hands it to
{lit}`sendto`.  The sender thread and the calls of {lit}`tryReceiveEnvelope` use the
same buffer without a lock, so that a call can fill it between the two steps of
another one.  The datagram then goes to the address of the one and carries the
message of the other.

Main results:

- Theorem {lit}`filled_run`: at every {lit}`sendto` the buffer frames the message that
  was last put into it.
- Theorem {lit}`carriesOwn_iff`: the runs in which every datagram of an endpoint
  carries the message of its own call.
- Theorem {lit}`carriesOwn_of_exclusive`: a lock held through {lit}`sendDataGram` would
  be enough.
- Theorem {lit}`carriesOwn_of_neverReceives`: so is never receiving.
-/

universe u

namespace SimpleMessenger

open CMemory StepSystem ProtobufItf EndpointBase

namespace UdpEndpointBase

variable {κ : Type u}

/-! ## Transmissions -/

/-- The message is what encoding the envelope into some protobuf object gives. -/
def Encodes (env : Envelope) (message : ProtobufItf.Envelope) : Prop :=
  ∃ old, putEnvToProtoBuf env old = .ok message

/-- The bytes are those of an output buffer that frames the message. -/
def Carries (wire : Wire) (bytes : Bytes) (message : ProtobufItf.Envelope) : Prop :=
  ∃ buffer : RxTxBuffer, bytes = buffer.toBytes ∧ Framed wire buffer message

/-- One call of `sendDataGram`: its argument, the message that it put into the output
buffer, and what it sent. -/
structure Transmission (κ : Type u) where
  aEnv : AddressedEnvelope κ
  message : ProtobufItf.Envelope
  datagram : Datagram κ

/-- What the call was made for has been sent. -/
structure Transmission.Right (wire : Wire) (t : Transmission κ) : Prop where
  encoded : Encodes t.aEnv.env t.message
  addressed : t.datagram.dest = t.aEnv.sockInfo
  carried : Carries wire t.datagram.bytes t.message

/-- What a thread has put into the buffer and not yet sent, with the argument of its
call. -/
def Sender.prepared? : Sender κ → Option (AddressedEnvelope κ × ProtobufItf.Envelope)
  | .sending aEnv _ message => some (aEnv, message)
  | _ => none

/-- What a call has put into the buffer and not yet sent. -/
def Point.prepared? : Point κ → Option (AddressedEnvelope κ × ProtobufItf.Envelope)
  | .sendingAck aEnv message => some (ackNotification aEnv, message)
  | _ => none

/-- Some thread is about to execute `sendto` at endpoint `p`. -/
def State.Prepared (s : State κ) (p : κ) (aEnv : AddressedEnvelope κ)
    (message : ProtobufItf.Envelope) : Prop :=
  (s.endpoints p).sender.prepared? = some (aEnv, message) ∨
    ∃ call ∈ s.calls, call.endpoint = p ∧ call.point.prepared? = some (aEnv, message)

/-- The `sendto` that an action executes: its endpoint, the argument of
`sendDataGram`, and the message that the call had put into the buffer. -/
def transmits (s : State κ) : Action κ → Option (κ × AddressedEnvelope κ × ProtobufItf.Envelope)
  | .sender p => (s.endpoints p).sender.prepared?.map (p, ·)
  | .call c => s.calls[c]?.bind fun call => call.point.prepared?.map (call.endpoint, ·)
  | _ => none

/-- The endpoint whose output buffer an action fills. -/
def fillsAt (s : State κ) : Action κ → Option κ
  | .sender p =>
      match (s.endpoints p).sender with
      | .filling _ _ => some p
      | _ => none
  | .call c =>
      match s.calls[c]? with
      | some ⟨p, .acking _⟩ => some p
      | _ => none
  | _ => none

/-- At every `sendto` of endpoint `p`, `proto_message_buffer_out` still holds the
message that this call of `sendDataGram` has put there. -/
def Undisturbed (p : κ) : Guard (State κ) (Action κ) (Event κ) := fun _ s a =>
  ∀ aEnv message, transmits s a = some (p, aEnv, message) →
    (s.endpoints p).out.protoMessage = message

/-- The output buffer of `p` is filled only while no thread is about to execute
`sendto` there, as if a lock were held through `sendDataGram`. -/
def Exclusive (p : κ) : Guard (State κ) (Action κ) (Event κ) := fun _ s a =>
  fillsAt s a = some p → ∀ aEnv message, ¬ s.Prepared p aEnv message

/-- No call of `tryReceiveEnvelope` at endpoint `p`. -/
def NeverReceives (p : κ) : Guard (State κ) (Action κ) (Event κ) := fun _ _ a =>
  a ≠ .tryReceiveEnvelope p

theorem prepared_of_transmits {s : State κ} {a : Action κ} {p : κ} {aEnv : AddressedEnvelope κ}
    {message : ProtobufItf.Envelope} (htransmits : transmits s a = some (p, aEnv, message)) :
    s.Prepared p aEnv message := by
  cases a with
  | sender q =>
      rcases Option.map_eq_some_iff.mp htransmits with ⟨pair, hpair, heq⟩
      cases heq
      exact .inl hpair
  | call c =>
      rcases Option.bind_eq_some_iff.mp htransmits with ⟨call, hc, hcall⟩
      rcases Option.map_eq_some_iff.mp hcall with ⟨pair, hpair, heq⟩
      cases heq
      exact .inr ⟨call, List.mem_of_getElem? hc, rfl, hpair⟩
  | _ => cases htransmits

theorem fillsAt_cases {s : State κ} {a : Action κ} {p : κ} (hfills : fillsAt s a = some p) :
    (∃ aEnv attempt, (s.endpoints p).sender = .filling aEnv attempt) ∨
      ∃ (c : Nat) (aEnv : AddressedEnvelope κ), s.calls[c]? = some ⟨p, .acking aEnv⟩ := by
  cases a with
  | sender q =>
      simp only [fillsAt] at hfills
      split at hfills <;> rename_i hs
      · cases hfills
        exact .inl ⟨_, _, hs⟩
      · cases hfills
  | call c =>
      simp only [fillsAt] at hfills
      split at hfills <;> rename_i hc
      · cases hfills
        exact .inr ⟨_, _, hc⟩
      · cases hfills
  | _ => cases hfills

section Steps

variable [DecidableEq κ]

/-- The transmission at endpoint `p` that an event shows. -/
def Event.transmissionAt (p : κ) : Event κ → Option (Transmission κ)
  | .sent q aEnv message datagram => if q = p then some ⟨aEnv, message, datagram⟩ else none
  | .returned _ q aEnv message datagram =>
      if q = p then some ⟨ackNotification aEnv, message, datagram⟩ else none
  | _ => none

/-- Every datagram of endpoint `p` carries the message of its own call to the address
of its own call. -/
def CarriesOwn (wire : Wire) (p : κ) (h : List (Event κ)) : Prop :=
  ∀ e ∈ h, ∀ t, e.transmissionAt p = some t → t.Right wire

variable {wire : Wire} {s s' : State κ} {a : Action κ} {e : Event κ}

/-- A transmission is the `sendto` of the action, and sends the output buffer. -/
theorem Steps.transmits_of_event (hsteps : Steps wire s a s' e) {p : κ} {t : Transmission κ}
    (ht : e.transmissionAt p = some t) :
    transmits s a = some (p, t.aEnv, t.message) ∧
      t.datagram = (s.endpoints p).datagram p t.aEnv := by
  cases hsteps with
  | @returned c q aEnv message datagram hc hdatagram =>
      simp only [Event.transmissionAt] at ht
      split_ifs at ht with hp
      cases ht
      subst hp
      exact ⟨by simp [transmits, hc, Point.prepared?], hdatagram⟩
  | @sent q aEnv attempt message datagram hs hdatagram =>
      simp only [Event.transmissionAt] at ht
      split_ifs at ht with hp
      cases ht
      subst hp
      exact ⟨by simp [transmits, hs, Sender.prepared?], hdatagram⟩
  | sending hsends => cases hsends <;> cases ht
  | _ => cases ht

/-- The `sendto` of an action shows as a transmission. -/
theorem Steps.event_of_transmits (hsteps : Steps wire s a s' e) {p : κ}
    {aEnv : AddressedEnvelope κ} {message : ProtobufItf.Envelope}
    (htransmits : transmits s a = some (p, aEnv, message)) :
    e.transmissionAt p = some ⟨aEnv, message, (s.endpoints p).datagram p aEnv⟩ := by
  cases hsteps with
  | queued hc hq => simp [transmits, hc, Point.prepared?] at htransmits
  | ackFilled hc hput => simp [transmits, hc, Point.prepared?] at htransmits
  | returned hc hdatagram =>
      simp only [transmits, hc, Option.bind_some, Point.prepared?, Option.map_some] at htransmits
      cases htransmits
      rw [hdatagram]
      exact if_pos rfl
  | sending hsends =>
      cases hsends with
      | idle hs hq => simp [transmits, hs, Sender.prepared?] at htransmits
      | took hs hq => simp [transmits, hs, Sender.prepared?] at htransmits
      | filled hs hput => simp [transmits, hs, Sender.prepared?] at htransmits
      | unanswered hs hq => simp [transmits, hs, Sender.prepared?] at htransmits
      | acknowledged hs hq hstamp => simp [transmits, hs, Sender.prepared?] at htransmits
      | keeping hs hq hstamp => simp [transmits, hs, Sender.prepared?] at htransmits
      | requeued hs hq => simp [transmits, hs, Sender.prepared?] at htransmits
  | sent hs hdatagram =>
      simp only [transmits, hs, Sender.prepared?, Option.map_some] at htransmits
      cases htransmits
      rw [hdatagram]
      exact if_pos rfl
  | _ => cases htransmits

/-! ## What is in the buffer -/

omit [DecidableEq κ] in
theorem Sends.out_cases {p : κ} {ep ep' : Endpoint κ} (hsends : Sends wire p ep ep' e) :
    ep'.out = ep.out ∨ ∃ aEnv attempt, ep.sender = .filling aEnv attempt ∧
      putEnvToProtoBufferOut wire ep.out aEnv.env = .ok ep'.out := by
  cases hsends with
  | filled hs hput => exact .inr ⟨_, _, hs, hput⟩
  | _ => exact .inl rfl

omit [DecidableEq κ] in
theorem Listens.out {ep ep' : Endpoint κ} (hlistens : Listens ep ep') : ep'.out = ep.out := by
  cases hlistens <;> rfl

/-- A step leaves the output buffer of an endpoint as it is, or fills it. -/
theorem Steps.out_cases (hsteps : Steps wire s a s' e) (p : κ) :
    (s'.endpoints p).out = (s.endpoints p).out ∨ fillsAt s a = some p ∧
      ∃ env, putEnvToProtoBufferOut wire (s.endpoints p).out env = .ok (s'.endpoints p).out := by
  cases hsteps with
  | returned hc hdatagram => exact .inl rfl
  | lost hi => exact .inl rfl
  | @ackFilled c q aEnv out hc hput =>
      rcases eq_or_ne p q with rfl | hne
      · exact .inr ⟨by simp [fillsAt, hc], _, by rw [State.put_self]; exact hput⟩
      · exact .inl (congrArg (·.out) (State.put_of_ne hne _ _))
  | @sending q ep e hsends =>
      rcases eq_or_ne p q with rfl | hne
      · rw [State.put_self]
        rcases hsends.out_cases with hout | ⟨aEnv, attempt, hs, hput⟩
        · exact .inl hout
        · exact .inr ⟨by simp [fillsAt, hs], _, hput⟩
      · exact .inl (congrArg (·.out) (State.put_of_ne hne _ _))
  | listened hlistens => exact .inl (State.put_attribute (·.out) hlistens.out p)
  | _ =>
      refine .inl (State.put_attribute (·.out) ?_ p)
      rfl

omit [DecidableEq κ] in
theorem prepared?_nextAttempt (aEnv : AddressedEnvelope κ) (attempt : Fin 5) :
    (nextAttempt aEnv attempt).prepared? = none := by
  unfold nextAttempt
  split_ifs <;> rfl

/-- The endpoint has filled its output buffer with `env`, and the message in it is
`message`. -/
def Fills (wire : Wire) (ep ep' : Endpoint κ) (env : Envelope)
    (message : ProtobufItf.Envelope) : Prop :=
  putEnvToProtoBufferOut wire ep.out env = .ok ep'.out ∧ message = ep'.out.protoMessage

omit [DecidableEq κ] in
/-- A sender thread that comes to its `sendto` has just filled the buffer. -/
theorem Sends.prepared_cases {p : κ} {ep ep' : Endpoint κ} (hsends : Sends wire p ep ep' e)
    {aEnv : AddressedEnvelope κ} {message : ProtobufItf.Envelope}
    (hprepared : ep'.sender.prepared? = some (aEnv, message)) :
    Fills wire ep ep' aEnv.env message := by
  cases hsends with
  | filled hs hput =>
      cases hprepared
      exact ⟨hput, rfl⟩
  | unanswered hs hq =>
      rw [prepared?_nextAttempt] at hprepared
      cases hprepared
  | requeued hs hq =>
      rw [prepared?_nextAttempt] at hprepared
      cases hprepared
  | _ => cases hprepared

/-- A sender thread that is about to execute `sendto` was so before, or has just
filled the buffer. -/
theorem Steps.sender_prepared (hsteps : Steps wire s a s' e) {p : κ}
    {aEnv : AddressedEnvelope κ} {message : ProtobufItf.Envelope}
    (hprepared : (s'.endpoints p).sender.prepared? = some (aEnv, message)) :
    (s.endpoints p).sender.prepared? = some (aEnv, message) ∨
      Fills wire (s.endpoints p) (s'.endpoints p) aEnv.env message := by
  rcases hsteps.sender_cases p with hsender | hsends | ⟨aEnv', attempt, message', _, hsender⟩
  · rw [hsender] at hprepared
    exact .inl hprepared
  · exact .inr (hsends.prepared_cases hprepared)
  · rw [hsender] at hprepared
    cases hprepared

/-- How a call has come to where it stands after a step. -/
inductive Arrived (wire : Wire) (s s' : State κ) (a : Action κ) : Call κ → Prop where
  | before {call : Call κ} (hcall : call ∈ s.calls) : Arrived wire s s' a call
  | holdsNothing {p : κ} {point : Point κ} (hpoint : point.incoming? = none) :
      Arrived wire s s' a ⟨p, point⟩
  | popped {p : κ} {aEnv : AddressedEnvelope κ} (ha : a = .tryReceiveEnvelope p) :
      Arrived wire s s' a ⟨p, .acking aEnv⟩
  | filled {p : κ} {aEnv : AddressedEnvelope κ} {message : ProtobufItf.Envelope}
      (hcall : ⟨p, .acking aEnv⟩ ∈ s.calls)
      (hfills : Fills wire (s.endpoints p) (s'.endpoints p) (ackNotification aEnv).env message) :
      Arrived wire s s' a ⟨p, .sendingAck aEnv message⟩

theorem Steps.arrived (hsteps : Steps wire s a s' e) {call : Call κ} (hcall : call ∈ s'.calls) :
    Arrived wire s s' a call := by
  cases hsteps with
  | stamped haddr hclock =>
      rcases List.mem_append.mp hcall with hold | hnew
      · exact .before hold
      · rw [List.mem_singleton.mp hnew]
        exact .holdsNothing rfl
  | receivedNothing hq =>
      rcases List.mem_append.mp hcall with hold | hnew
      · exact .before hold
      · rw [List.mem_singleton.mp hnew]
        exact .holdsNothing rfl
  | popped hq =>
      rcases List.mem_append.mp hcall with hold | hnew
      · exact .before hold
      · rw [List.mem_singleton.mp hnew]
        exact .popped rfl
  | queued hc hq =>
      rcases List.mem_or_eq_of_mem_set hcall with hold | rfl
      · exact .before hold
      · exact .holdsNothing rfl
  | @ackFilled c q aEnv out hc hput =>
      rcases List.mem_or_eq_of_mem_set hcall with hold | rfl
      · exact .before hold
      · refine .filled (List.mem_of_getElem? hc) ?_
        simp only [State.put_self]
        exact ⟨hput, rfl⟩
  | returned hc hdatagram =>
      rcases List.mem_or_eq_of_mem_set hcall with hold | rfl
      · exact .before hold
      · exact .holdsNothing rfl
  | _ => exact .before hcall

omit [DecidableEq κ] in
theorem Point.prepared?_eq_none {point : Point κ} (hpoint : point.incoming? = none) :
    point.prepared? = none := by
  cases point with
  | sendingAck aEnv message => cases hpoint
  | _ => rfl

/-- A call that is about to execute `sendto` was so before, or has just filled the
buffer. -/
theorem Steps.call_prepared (hsteps : Steps wire s a s' e) {call : Call κ}
    (hcall : call ∈ s'.calls) {aEnv : AddressedEnvelope κ} {message : ProtobufItf.Envelope}
    (hprepared : call.point.prepared? = some (aEnv, message)) :
    call ∈ s.calls ∨
      Fills wire (s.endpoints call.endpoint) (s'.endpoints call.endpoint) aEnv.env message := by
  cases hsteps.arrived hcall with
  | before hold => exact .inl hold
  | holdsNothing hpoint =>
      rw [Point.prepared?_eq_none hpoint] at hprepared
      cases hprepared
  | popped ha => cases hprepared
  | filled hold hfills =>
      cases hprepared
      exact .inr hfills

/-- What holds of the output buffers at all times: they keep no long message, and at
every `sendto` they frame the message that was last put into them. -/
structure Filled (wire : Wire) (s : State κ) : Prop where
  short : ∀ p, (s.endpoints p).out.protoMessage.payload.length ≤ SimpleMessenger.Envelope.size
  encoded : ∀ p aEnv message, s.Prepared p aEnv message → Encodes aEnv.env message
  framed : ∀ p aEnv message, s.Prepared p aEnv message →
    Framed wire (s.endpoints p).out.buffer (s.endpoints p).out.protoMessage

omit [DecidableEq κ] in
theorem Fills.encodes {ep ep' : Endpoint κ} {env : Envelope} {message : ProtobufItf.Envelope}
    (hfills : Fills wire ep ep' env message) : Encodes env message := by
  rcases hfills with ⟨hput, rfl⟩
  exact ⟨_, (putEnvToProtoBufferOut_eq_ok_iff.mp hput).1⟩

/-- Some thread was about to execute `sendto` before, or has just filled the buffer. -/
theorem Steps.prepared_cases (hsteps : Steps wire s a s' e) {p : κ}
    {aEnv : AddressedEnvelope κ} {message : ProtobufItf.Envelope}
    (hprepared : s'.Prepared p aEnv message) :
    s.Prepared p aEnv message ∨
      Fills wire (s.endpoints p) (s'.endpoints p) aEnv.env message := by
  rcases hprepared with hsender | ⟨call, hcall, rfl, hpoint⟩
  · rcases hsteps.sender_prepared hsender with hold | hfills
    · exact .inl (.inl hold)
    · exact .inr hfills
  · rcases hsteps.call_prepared hcall hpoint with hold | hfills
    · exact .inl (.inr ⟨call, hold, rfl, hpoint⟩)
    · exact .inr hfills

theorem Filled.step (hfilled : Filled wire s) (hsteps : Steps wire s a s' e) :
    Filled wire s' where
  short := by
    intro p
    rcases hsteps.out_cases p with hout | ⟨_, env, hput⟩
    · rw [hout]
      exact hfilled.short p
    · exact length_payload_of_putEnvToProtoBuf (putEnvToProtoBufferOut_eq_ok_iff.mp hput).1
  encoded := by
    intro p aEnv message hprepared
    rcases hsteps.prepared_cases hprepared with hold | hfills
    · exact hfilled.encoded p aEnv message hold
    · exact hfills.encodes
  framed := by
    intro p aEnv message hprepared
    rcases hsteps.out_cases p with hout | ⟨_, env, hput⟩
    · rcases hsteps.prepared_cases hprepared with hold | hfills
      · rw [hout]
        exact hfilled.framed p aEnv message hold
      · exact framed_of_putEnvToProtoBufferOut hfills.1
    · exact framed_of_putEnvToProtoBufferOut hput

/-! ## Runs -/

variable {memory : κ → Memory κ} {G : Guard (State κ) (Action κ) (Event κ)} {h : List (Event κ)}

theorem filled_init (wire : Wire) (memory : κ → Memory κ) :
    Filled wire (endpoints wire memory).init := by
  have hnone : ∀ p aEnv message, ¬ (endpoints wire memory).init.Prepared p aEnv message := by
    rintro p aEnv message (hsender | ⟨call, hcall, _⟩)
    · cases hsender
    · cases hcall
  exact ⟨fun p => Nat.zero_le _, fun p aEnv message hp => absurd hp (hnone p aEnv message),
    fun p aEnv message hp => absurd hp (hnone p aEnv message)⟩

/-- The output buffers are in order after every run. -/
theorem filled_run (hrun : (endpoints wire memory).Run G h s) : Filled wire s := by
  refine hrun.invariant (I := fun _ s => Filled wire s) (filled_init wire memory) ?_
  intro h s a s' e _ hfilled _ hstep
  exact hfilled.step (steps_of_step hstep)

omit [DecidableEq κ] in
/-- A `sendto` sends what its call was made for when the buffer still holds the
message of the call. -/
theorem right_of_undisturbed (hfilled : Filled wire s) {p : κ} {aEnv : AddressedEnvelope κ}
    {message : ProtobufItf.Envelope} (hprepared : s.Prepared p aEnv message)
    (hsame : (s.endpoints p).out.protoMessage = message) :
    (Transmission.mk aEnv message ((s.endpoints p).datagram p aEnv)).Right wire where
  encoded := hfilled.encoded p aEnv message hprepared
  addressed := rfl
  carried := ⟨_, rfl, hsame ▸ hfilled.framed p aEnv message hprepared⟩

omit [DecidableEq κ] in
/-- And only then. -/
theorem undisturbed_of_right (hwire : wire.Lawful) (hfilled : Filled wire s) {p : κ}
    {aEnv : AddressedEnvelope κ} {message : ProtobufItf.Envelope}
    (hprepared : s.Prepared p aEnv message)
    (hright : (Transmission.mk aEnv message ((s.endpoints p).datagram p aEnv)).Right wire) :
    (s.endpoints p).out.protoMessage = message := by
  have hframed := hfilled.framed p aEnv message hprepared
  rcases hfilled.encoded p aEnv message hprepared with ⟨old, hencode⟩
  rcases hright.carried with ⟨buffer, hbytes, hcarried⟩
  have hbuffer : (s.endpoints p).out.buffer = buffer := RxTxBuffer.toBytes_inj.mp hbytes
  rw [hbuffer] at hframed
  rw [← hwire.parse_serialize _ (hfilled.short p),
    ← hwire.parse_serialize _ (length_payload_of_putEnvToProtoBuf hencode)]
  exact congrArg wire.parse (hframed.unique hcarried)

/-- What an undisturbed step sends is right. -/
theorem Steps.right_of_undisturbed (hsteps : Steps wire s a s' e) (hfilled : Filled wire s)
    {p : κ} (hundisturbed : Undisturbed p h s a) {t : Transmission κ}
    (ht : e.transmissionAt p = some t) : t.Right wire := by
  rcases t with ⟨aEnv, message, datagram⟩
  rcases hsteps.transmits_of_event ht with ⟨htransmits, hdatagram⟩
  change datagram = (s.endpoints p).datagram p aEnv at hdatagram
  subst hdatagram
  exact UdpEndpointBase.right_of_undisturbed hfilled (prepared_of_transmits htransmits)
    (hundisturbed aEnv message htransmits)

/-- A step is undisturbed if what it sends is right. -/
theorem Steps.undisturbed_of_right (hwire : wire.Lawful) (hsteps : Steps wire s a s' e)
    (hfilled : Filled wire s) {p : κ}
    (hright : ∀ t, e.transmissionAt p = some t → t.Right wire) : Undisturbed p h s a := by
  intro aEnv message htransmits
  exact UdpEndpointBase.undisturbed_of_right hwire hfilled (prepared_of_transmits htransmits)
    (hright _ (hsteps.event_of_transmits htransmits))

omit [DecidableEq κ] in
/-- What carries a message is decoded to what the message decodes to, whatever was
received before. -/
theorem recvDataGram_of_carries {bytes : Bytes} {message : ProtobufItf.Envelope}
    (hcarries : Carries wire bytes message) (bufferIn : RxTxBuffer) :
    (recvDataGram wire bufferIn bytes).1 =
      getEnvFromProtoBuf (wire.parse (wire.serialize message)) := by
  rcases hcarries with ⟨buffer, rfl, hframed⟩
  simp only [recvDataGram, RxTxBuffer.receive_toBytes]
  exact getEnvFromProtoBufferIn_of_framed hframed

theorem carriesOwn_nil (wire : Wire) (p : κ) : CarriesOwn wire p [] := by
  intro e he
  cases he

theorem carriesOwn_snoc {p : κ} : CarriesOwn wire p (h ++ [e]) ↔
    CarriesOwn wire p h ∧ ∀ t, e.transmissionAt p = some t → t.Right wire := by
  simp only [CarriesOwn, List.forall_mem_append, List.forall_mem_singleton]

/-- If every step of a run is undisturbed, every datagram carries the message of its
own call. -/
theorem carriesOwn_run {p : κ}
    (hundisturbed : ∀ h s a, (endpoints wire memory).Run G h s → G h s a → Undisturbed p h s a)
    (hrun : (endpoints wire memory).Run G h s) : CarriesOwn wire p h := by
  refine hrun.invariant (I := fun h _ => CarriesOwn wire p h) (carriesOwn_nil wire p) ?_
  intro h s a s' e hrun hown hguard hstep
  exact carriesOwn_snoc.mpr ⟨hown, fun t ht => (steps_of_step hstep).right_of_undisturbed
    (filled_run hrun) (hundisturbed h s a hrun hguard) ht⟩

/-- The runs in which every datagram of an endpoint carries the message of its own
call to the address of its own call are those in which every `sendto` finds the
message of its call still in the buffer. -/
theorem carriesOwn_iff (hwire : wire.Lawful) (p : κ) :
    (endpoints wire memory).Run (Undisturbed p) h s ↔
      (endpoints wire memory).Through Any (fun h _ => CarriesOwn wire p h) h s := by
  rw [← run_iff_through (C := Undisturbed p) (carriesOwn_nil wire p)]
  · constructor
    · exact Run.mono fun h s a hguard => ⟨trivial, hguard⟩
    · exact Run.mono fun h s a hguard => hguard.2
  · intro h s a s' e hrun hown _ hstep
    have hsteps := steps_of_step hstep
    have hfilled := filled_run hrun
    rw [carriesOwn_snoc, and_iff_right hown]
    exact ⟨fun hundisturbed t ht => hsteps.right_of_undisturbed hfilled hundisturbed ht,
      fun hright => hsteps.undisturbed_of_right hwire hfilled hright⟩

/-- The test of {lit}`Undisturbed`. -/
def undisturbedTest (p : κ) (_ : List (Event κ)) (s : State κ) (a : Action κ) : Bool :=
  (transmits s a).all fun t => t.1 ≠ p || (s.endpoints p).out.protoMessage = t.2.2

theorem undisturbed_of_test (p : κ) (h : List (Event κ)) (s : State κ) (a : Action κ)
    (htest : undisturbedTest p h s a = true) : Undisturbed p h s a := by
  intro aEnv message htransmits
  simpa [undisturbedTest, htransmits] using htest

/-- A text message without a sender. -/
def greeting : Envelope where
  metaData := {}
  payload := CharArray.ofText sizeofPayload (ascii "hi")

/-- Memory that was never used. -/
def clearedMemory (_ : Nat) : Memory Nat where
  inQueue := ⟨.replicate _ ⟨0, Envelope.zero, .message 0⟩, 0, 0, 0⟩
  outQueue := ⟨.replicate _ ⟨0, Envelope.zero, .message 0⟩, 0, 0, 0⟩
  ackQueue := ⟨.replicate _ { tStamp := 0 }, 0, 0, 0⟩

/-- Endpoint 1 sends to endpoint 0, and the message waits there; endpoint 0 has filled
its buffer with a message to endpoint 2. -/
def messageFilled : List (Action Nat) :=
  [.sendEnvelope 1 greeting 0 5, .call 0, .sender 1, .sender 1, .sender 1, .receive 0 0,
    .listener 0, .sendEnvelope 0 greeting 2 6, .call 1, .sender 0, .sender 0,
    .tryReceiveEnvelope 0]

/-- The acknowledgement is filled in after the message is sent. -/
theorem carriesOwn_messageFirst :
    ∃ h s, (endpoints envelopeWire clearedMemory).Run (Undisturbed 0) h s ∧
      CarriesOwn envelopeWire 0 h ∧ (h.filterMap (Event.transmissionAt 0)).length = 2 := by
  have hexec : ((endpoints envelopeWire clearedMemory).execFrom (undisturbedTest 0) []
      (endpoints envelopeWire clearedMemory).init
        (messageFilled ++ [.sender 0, .call 2, .call 2])).map
          (fun r => (r.1.filterMap (Event.transmissionAt 0)).length) = some 2 := by
    decide +kernel
  rcases Option.map_eq_some_iff.mp hexec with ⟨⟨h, s⟩, hexec, htwo⟩
  have hrun := Run.of_execFrom (undisturbed_of_test 0) .start hexec
  exact ⟨h, s, hrun, ((carriesOwn_iff envelopeWire_lawful 0).mp hrun).last, htwo⟩

/-- The message type of what a decoder returned. -/
def typeOf : Checked Envelope → Option MessageType
  | .ok env => some (getMessageType env)
  | .error _ => none

/-- The message type that a transmission decodes to, and the one that the message of
its call decodes to. -/
def decodedTypes (t : Transmission Nat) : Option MessageType × Option MessageType :=
  (typeOf (recvDataGram envelopeWire .zero t.datagram.bytes).1,
    typeOf (getEnvFromProtoBuf (envelopeWire.parse (envelopeWire.serialize t.message))))

theorem decodedTypes_of_right {t : Transmission Nat} (hright : t.Right envelopeWire) :
    (decodedTypes t).1 = (decodedTypes t).2 := by
  rw [decodedTypes, recvDataGram_of_carries hright.carried .zero]

/-- The acknowledgement is filled in before the message is sent: the message to
endpoint 2 is an acknowledgement. -/
theorem carriesOwn_fails :
    ∃ h s, (endpoints envelopeWire clearedMemory).Run Any h s ∧
      ¬ CarriesOwn envelopeWire 0 h := by
  have hexec : ((endpoints envelopeWire clearedMemory).exec
      (messageFilled ++ [.call 2, .sender 0])).map
        (fun r => (r.1.filterMap (Event.transmissionAt 0)).map decodedTypes) =
          some [(some .AckMessage, some .UserMessage)] := by
    decide +kernel
  rcases Option.map_eq_some_iff.mp hexec with ⟨⟨h, s⟩, hexec, htypes⟩
  refine ⟨h, s, Run.of_exec hexec, fun hown => ?_⟩
  rcases List.map_eq_singleton_iff.mp htypes with ⟨t, ht, htypes⟩
  have hmem : t ∈ h.filterMap (Event.transmissionAt 0) := by
    rw [ht]
    exact List.mem_singleton_self t
  rcases List.mem_filterMap.mp hmem with ⟨e, he, ht⟩
  have hsame := decodedTypes_of_right (hown e he t ht)
  rw [htypes] at hsame
  cases hsame

/-! ## Endpoints that cannot cross -/

/-- With a lock around `sendDataGram`, what a thread has put into the buffer stays
there until its `sendto`. -/
theorem Steps.own_of_exclusive (hsteps : Steps wire s a s' e) {p : κ}
    (hexclusive : Exclusive p h s a)
    (hown : ∀ aEnv message, s.Prepared p aEnv message →
      (s.endpoints p).out.protoMessage = message) :
    ∀ aEnv message, s'.Prepared p aEnv message →
      (s'.endpoints p).out.protoMessage = message := by
  intro aEnv message hprepared
  rcases hsteps.prepared_cases hprepared with hold | hfills
  · rcases hsteps.out_cases p with hout | ⟨hfillsAt, _⟩
    · rw [hout]
      exact hown aEnv message hold
    · exact absurd hold (hexclusive hfillsAt aEnv message)
  · exact hfills.2.symm

/-- A lock around `sendDataGram` is enough. -/
theorem carriesOwn_of_exclusive {p : κ}
    (hexclusive : ∀ h s a, (endpoints wire memory).Run G h s → G h s a → Exclusive p h s a)
    (hrun : (endpoints wire memory).Run G h s) : CarriesOwn wire p h := by
  have hkept : ∀ {h s}, (endpoints wire memory).Run G h s → ∀ aEnv message,
      s.Prepared p aEnv message → (s.endpoints p).out.protoMessage = message := by
    intro h s hrun
    refine hrun.invariant (I := fun _ s => ∀ aEnv message, s.Prepared p aEnv message →
      (s.endpoints p).out.protoMessage = message) ?_ ?_
    · rintro aEnv message (hsender | ⟨call, hcall, _⟩)
      · cases hsender
      · cases hcall
    · intro h s a s' e hrun hown hguard hstep
      exact (steps_of_step hstep).own_of_exclusive (hexclusive h s a hrun hguard) hown
  refine carriesOwn_run (fun h s a hrun _ => ?_) hrun
  intro aEnv message htransmits
  exact hkept hrun aEnv message (prepared_of_transmits htransmits)

/-- An endpoint that never receives has no call that is about to return an
envelope. -/
theorem incoming?_of_neverReceives {p : κ} (hnever : ∀ h s a, G h s a → NeverReceives p h s a)
    (hrun : (endpoints wire memory).Run G h s) :
    ∀ call ∈ s.calls, call.endpoint = p → call.point.incoming? = none := by
  refine hrun.invariant
    (I := fun _ s => ∀ call ∈ s.calls, call.endpoint = p → call.point.incoming? = none) ?_ ?_
  · intro call hcall
    cases hcall
  · intro h s a s' e _ hnone hguard hstep call hcall hp
    cases (steps_of_step hstep).arrived hcall with
    | before hold => exact hnone call hold hp
    | holdsNothing hpoint => exact hpoint
    | popped ha => exact absurd (hp ▸ ha) (hnever h s a hguard)
    | filled hold hfills => cases hnone _ hold hp

/-- Only the sender thread of an endpoint that never receives uses its buffer. -/
theorem exclusive_of_neverReceives {p : κ}
    (hnever : ∀ h s a, G h s a → NeverReceives p h s a)
    (hrun : (endpoints wire memory).Run G h s) (a : Action κ) : Exclusive p h s a := by
  have hnone := incoming?_of_neverReceives hnever hrun
  rintro hfills aEnv message (hsender | ⟨call, hcall, hp, hpoint⟩)
  · rcases fillsAt_cases hfills with ⟨aEnv', attempt, hs⟩ | ⟨c, aEnv', hc⟩
    · rw [hs] at hsender
      cases hsender
    · have hone := hnone _ (List.mem_of_getElem? hc) rfl
      cases hone
  · rw [Point.prepared?_eq_none (hnone call hcall hp)] at hpoint
    cases hpoint

/-- Every datagram of an endpoint that never receives carries the message of its own
call. -/
theorem carriesOwn_of_neverReceives {p : κ}
    (hnever : ∀ h s a, G h s a → NeverReceives p h s a)
    (hrun : (endpoints wire memory).Run G h s) : CarriesOwn wire p h :=
  carriesOwn_of_exclusive (fun _ _ a hrun _ => exclusive_of_neverReceives hnever hrun a) hrun

end Steps

end UdpEndpointBase

end SimpleMessenger
