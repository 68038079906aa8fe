import SimpleMessenger.Common.UdpDelivery

/-!
# What an acknowledgement says

A receiver acknowledges an envelope by its time stamp, the count of microseconds at
the call of {lit}`sendEnvelope` cut to 32 bits.  The sender stops the retransmission
of an envelope when the first acknowledgement in its queue has the same stamp.

Main results:

- Theorem {lit}`CopyOf.eq_normalForm`: what is received of an envelope that the encoder
  can carry is its normal form.
- Theorem {lit}`acknowledged_returned`: if no other envelope that the sender thread has
  taken has the same stamp, and no datagrams cross, an acknowledged envelope has been
  returned.
- Theorem {lit}`ownAck_of_stampsDiffer`: for the stamps it is enough that the calls of
  {lit}`sendEnvelope` at an endpoint read different counts.
-/

universe u

namespace SimpleMessenger

open CMemory StepSystem ProtobufItf EndpointBase

namespace UdpEndpointBase

variable {κ : Type u} {wire : Wire}

/-! ## What a copy keeps -/

/-- The metadata of a copy are those that decoding the message gives. -/
theorem CopyOf.metaData (hwire : wire.Lawful) {env copy : Envelope}
    (hcopy : CopyOf wire env copy) :
    ∃ old text, copy.metaData = decodedMeta (encodedEnvelope env old text) := by
  rcases hcopy with ⟨message, ⟨old, hencode⟩, hdecode⟩
  rw [hwire.parse_serialize _ (length_payload_of_putEnvToProtoBuf hencode)] at hdecode
  rcases putEnvToProtoBuf_eq_ok_iff.mp hencode with ⟨text, _, rfl⟩
  exact ⟨old, text, (getEnvFromProtoBuf_eq_ok_iff.mp hdecode).1⟩

theorem CopyOf.getTimeStamp_eq (hwire : wire.Lawful) {env copy : Envelope}
    (hcopy : CopyOf wire env copy) : getTimeStamp copy = getTimeStamp env := by
  rcases hcopy.metaData hwire with ⟨old, text, hmeta⟩
  rw [getTimeStamp, hmeta]
  rfl

theorem CopyOf.getMessageType_eq (hwire : wire.Lawful) {env copy : Envelope}
    (hknown : (getMessageType env).IsEnumerator) (hcopy : CopyOf wire env copy) :
    getMessageType copy = getMessageType env := by
  rcases hcopy.metaData hwire with ⟨old, text, hmeta⟩
  rw [getMessageType, hmeta]
  exact ofProto_toProtoMessageType hknown _

/-- The copy of an envelope that the encoder can carry is its normal form. -/
theorem CopyOf.eq_normalForm (hwire : wire.Lawful) {env copy : Envelope} (henv : env.Encodable)
    (hcopy : CopyOf wire env copy) : copy = env.normalForm := by
  rcases hcopy with ⟨message, ⟨old, hencode⟩, hdecode⟩
  rw [hwire.parse_serialize _ (length_payload_of_putEnvToProtoBuf hencode)] at hdecode
  rw [putEnvToProtoBuf_of_terminated henv.terminated] at hencode
  cases hencode
  rw [getEnvFromProtoBuf_encodedEnvelope henv] at hdecode
  cases hdecode
  rfl

/-- A copy of an acknowledgement is an acknowledgement. -/
theorem getMessageType_of_ack (hwire : wire.Lawful) {env copy : Envelope}
    (hcopy : CopyOf wire (ackEnvelope env) copy) : getMessageType copy = .AckMessage :=
  hcopy.getMessageType_eq hwire (.inr (.inr rfl))

/-! ## Acknowledged envelopes -/

/-- The envelope is a message of the application. -/
def Plain (env : Envelope) : Prop :=
  getMessageType env = .UserMessage ∨ getMessageType env = .ServiceMessage

theorem Plain.ne_ack {env : Envelope} (hplain : Plain env) :
    getMessageType env ≠ .AckMessage := by
  rcases hplain with htype | htype <;> rw [htype] <;> decide

theorem Plain.isEnumerator {env : Envelope} (hplain : Plain env) :
    (getMessageType env).IsEnumerator := by
  rcases hplain with htype | htype
  · exact .inl htype
  · exact .inr (.inl htype)

/-- A step at which an acknowledgement, if one is found, can only be that of the
envelope at hand: the output buffers are not disturbed, the application sends messages
only, and no other envelope that the sender thread has taken up has the same stamp. -/
structure OwnAck [DecidableEq κ] (h : List (Event κ)) (s : State κ) (a : Action κ) : Prop where
  undisturbed : ∀ p, Undisturbed p h s a
  plain : ∀ p envelope receiverInfo now,
    a = .sendEnvelope p envelope receiverInfo now → Plain envelope
  unique : ∀ p aEnv attempt eAck, a = .sender p →
    (s.endpoints p).sender = .waiting aEnv attempt →
    (s.endpoints p).ackQueue.contents.head? = some eAck →
    eAck.tStamp = getTimeStamp aEnv.env →
    ∀ aEnv', .took p aEnv' ∈ h → getTimeStamp aEnv'.env = getTimeStamp aEnv.env → aEnv' = aEnv

/-- Whenever an acknowledgement has ended the retransmission of an envelope, a copy of
that very envelope had been returned by its addressee. -/
def AcknowledgedReturned (wire : Wire) (h : List (Event κ)) : Prop :=
  ∀ h₁ h₂ p aEnv eAck, h = h₁ ++ .acknowledged p aEnv eAck :: h₂ →
    ∃ c item message datagram, .returned c aEnv.sockInfo item message datagram ∈ h₁ ∧
      item.tag = aEnv.tag ∧ CopyOf wire aEnv.env item.env

section Runs

variable [DecidableEq κ] {s s' : State κ} {a : Action κ} {e : Event κ} {h : List (Event κ)}
  {memory : κ → Memory κ} {G : Guard (State κ) (Action κ) (Event κ)} {p : κ}

/-- The retransmission ends with the first acknowledgement in the queue. -/
theorem Steps.of_acknowledged {aEnv : AddressedEnvelope κ} {eAck : ExpiringAck}
    (hsteps : Steps wire s a s' (.acknowledged p aEnv eAck)) :
    a = .sender p ∧ (∃ attempt, (s.endpoints p).sender = .waiting aEnv attempt) ∧
      (s.endpoints p).ackQueue.contents.head? = some eAck ∧
      eAck.tStamp = getTimeStamp aEnv.env := by
  cases hsteps with
  | sending hsends =>
      cases hsends with
      | acknowledged hs hq hstamp => exact ⟨rfl, ⟨_, hs⟩, by rw [hq]; rfl, hstamp⟩

/-- An acknowledgement in the queue was received. -/
theorem received_of_mem_ackQueue (hrun : (endpoints wire memory).Run G h s) {eAck : ExpiringAck}
    (hhead : (s.endpoints p).ackQueue.contents.head? = some eAck) :
    ∃ datagram item, Event.received p datagram item ∈ h ∧
      getMessageType item.env = .AckMessage ∧ getTimeStamp item.env = eAck.tStamp := by
  have hacks : eAck.tStamp ∈ (s.endpoints p).acks :=
    List.mem_map_of_mem (List.mem_append_left _ (List.mem_append_left _
      (List.mem_of_mem_head? hhead)))
  have hmem := (acknowledged_subperm_arrived hrun p).subset (List.mem_append_right _ hacks)
  rcases List.mem_flatMap.mp hmem with ⟨e, he, hone⟩
  cases e with
  | received q datagram item =>
      simp only [Event.ackArrivedAt] at hone
      split_ifs at hone with hq
      · rw [← hq.1]
        exact ⟨datagram, item, he, hq.2, (List.mem_singleton.mp hone).symm⟩
      · cases hone
  | _ => cases hone

/-- An envelope is stamped by a call of `sendEnvelope`, with the count that it reads. -/
theorem Steps.sendEnvelope_of_stamped {c : Nat} {addrEnv : AddressedEnvelope κ}
    (hsteps : Steps wire s a s' (.stamped c p addrEnv)) :
    ∃ envelope receiverInfo now, a = .sendEnvelope p envelope receiverInfo now ∧
      addrEnv.env = setTimeStamp envelope (createTimeStamp now) := by
  cases hsteps with
  | stamped haddr hclock => exact ⟨_, _, _, rfl, by rw [haddr]⟩
  | sending hsends => cases hsends

/-- What the application sends, the sender threads send. -/
theorem plain_of_sent (hplain : ∀ h s a, G h s a → ∀ p envelope receiverInfo now,
      a = .sendEnvelope p envelope receiverInfo now → Plain envelope)
    (hrun : (endpoints wire memory).Run G h s) {aEnv : AddressedEnvelope κ}
    {message : ProtobufItf.Envelope} {datagram : Datagram κ}
    (hsent : .sent p aEnv message datagram ∈ h) : Plain aEnv.env := by
  rcases stamped_of_took hrun (took_of_sent hrun hsent) with ⟨c, hstamped⟩
  rcases hrun.step_of_mem hstamped with ⟨_, _, a, _, _, hguard, hstep⟩
  rcases (steps_of_step hstep).sendEnvelope_of_stamped with
    ⟨envelope, receiverInfo, now, ha, henv⟩
  have henvelope : Plain envelope := hplain _ _ _ hguard p envelope receiverInfo now ha
  rw [henv]
  exact henvelope

/-- An acknowledgement that was received was sent for an envelope that a call at the
other endpoint has returned. -/
theorem returned_of_ack (hwire : wire.Lawful) (hrun : (endpoints wire memory).Run G h s)
    (hown : ∀ q, CarriesOwn wire q h)
    (hplain : ∀ q aEnv message datagram, .sent q aEnv message datagram ∈ h → Plain aEnv.env)
    {datagram : Datagram κ} {item : AddressedEnvelope κ}
    (hreceived : .received p datagram item ∈ h)
    (hack : getMessageType item.env = .AckMessage) :
    ∃ c returned message, .returned c item.sockInfo returned message datagram ∈ h ∧
      returned.sockInfo = p ∧ getTimeStamp returned.env = getTimeStamp item.env := by
  rcases origin_of_received hrun hreceived with ⟨aEnv, message, hsent, hto⟩ |
    ⟨c, returned, message, hreturned, hto⟩
  · have haEnv := hplain _ _ _ _ hsent
    have htype := (hto.copy (hown _)).getMessageType_eq hwire haEnv.isEnumerator
    exact absurd (htype.symm.trans hack) haEnv.ne_ack
  · have hstamp := (hto.copy (hown _)).getTimeStamp_eq hwire
    exact ⟨c, returned, message, hreturned, hto.addressed, hstamp.symm⟩

/-- What is returned is a copy of what a sender thread has sent. -/
theorem sent_of_returned (hwire : wire.Lawful) (hrun : (endpoints wire memory).Run G h s)
    (hown : ∀ q, CarriesOwn wire q h) {b : κ} {c : Nat} {item : AddressedEnvelope κ}
    {message : ProtobufItf.Envelope} {datagram : Datagram κ}
    (hreturned : .returned c b item message datagram ∈ h) :
    ∃ aEnv message' datagram', .sent item.sockInfo aEnv message' datagram' ∈ h ∧
      aEnv.sockInfo = b ∧ aEnv.tag = item.tag ∧ CopyOf wire aEnv.env item.env := by
  rcases received_of_returned hrun hreturned with ⟨datagram', hreceived, hnot⟩
  rcases origin_of_received hrun hreceived with ⟨aEnv, message', hsent, hto⟩ |
    ⟨c', returned, message', _, hto⟩
  · exact ⟨aEnv, message', datagram', hsent, hto.addressed, hto.same, hto.copy (hown _)⟩
  · exact absurd (getMessageType_of_ack hwire (hto.copy (hown _))) hnot

/-- If every step keeps to the conditions, the addressee has returned an envelope
before its retransmission is ended by an acknowledgement. -/
theorem acknowledged_returned (hwire : wire.Lawful)
    (hrun : (endpoints wire memory).Run OwnAck h s) : AcknowledgedReturned wire h := by
  rintro h₁ h₂ p aEnv eAck rfl
  rcases hrun.split with ⟨s₁, a, s₂, hrun₁, hguard, hstep⟩
  rcases (steps_of_step hstep).of_acknowledged with ⟨ha, ⟨attempt, hs⟩, hhead, hstamp⟩
  have hown : ∀ q, CarriesOwn wire q h₁ := fun q =>
    carriesOwn_run (fun h s a _ hguard => hguard.undisturbed q) hrun₁
  have hplain : ∀ q aEnv message datagram, .sent q aEnv message datagram ∈ h₁ →
      Plain aEnv.env := fun q aEnv message datagram hsent =>
    plain_of_sent (fun _ _ _ hguard => hguard.plain) hrun₁ hsent
  -- from the queue back to the call that sent the acknowledgement
  rcases received_of_mem_ackQueue hrun₁ hhead with ⟨datagram, ack, hreceived, hack, hackStamp⟩
  rcases returned_of_ack hwire hrun₁ hown hplain hreceived hack with
    ⟨c, item, message, hreturned, hback, hitemStamp⟩
  -- and from there to the envelope that was acknowledged
  rcases sent_of_returned hwire hrun₁ hown hreturned with
    ⟨aEnv', message', datagram', hsent, hto, htag, hcopy⟩
  rw [hback] at hsent
  have hsame : getTimeStamp aEnv'.env = getTimeStamp aEnv.env := by
    rw [← hcopy.getTimeStamp_eq hwire, hitemStamp, hackStamp, hstamp]
  have heq := hguard.unique p aEnv attempt eAck ha hs hhead hstamp aEnv'
    (took_of_sent hrun₁ hsent) hsame
  subst heq
  rw [← hto] at hreturned
  exact ⟨c, item, message, datagram, hreturned, htag.symm, hcopy⟩

/-! ## Different stamps -/

/-- A call of `sendEnvelope` reads another 32-bit count than all calls at the same
endpoint before it. -/
def StampsDiffer : Guard (State κ) (Action κ) (Event κ) := fun h _ a =>
  ∀ p envelope receiverInfo now, a = .sendEnvelope p envelope receiverInfo now →
    ∀ c addrEnv, .stamped c p addrEnv ∈ h → getTimeStamp addrEnv.env ≠ createTimeStamp now

/-- Different counts make different envelopes of an endpoint known by their stamps. -/
theorem stampsDiffer_run (hdiffer : ∀ h s a, G h s a → StampsDiffer h s a)
    (hrun : (endpoints wire memory).Run G h s) :
    ∀ c c' p x y, .stamped c p x ∈ h → .stamped c' p y ∈ h →
      getTimeStamp x.env = getTimeStamp y.env → x = y := by
  refine hrun.invariant (I := fun h _ => ∀ c c' p x y, .stamped c p x ∈ h →
    .stamped c' p y ∈ h → getTimeStamp x.env = getTimeStamp y.env → x = y) ?_ ?_
  · intro c c' p x y hx
    cases hx
  · intro h s a s' e _ hold hguard hstep c c' p x y hx hy hsame
    have hsteps := steps_of_step hstep
    rcases List.mem_append.mp hx with hxOld | hxNew
    · rcases List.mem_append.mp hy with hyOld | hyNew
      · exact hold c c' p x y hxOld hyOld hsame
      · cases List.mem_singleton.mp hyNew
        rcases hsteps.sendEnvelope_of_stamped with ⟨envelope, receiverInfo, now, ha, henv⟩
        rw [henv] at hsame
        exact absurd hsame (hdiffer h s a hguard p envelope receiverInfo now ha c x hxOld)
    · rcases List.mem_append.mp hy with hyOld | hyNew
      · cases List.mem_singleton.mp hxNew
        rcases hsteps.sendEnvelope_of_stamped with ⟨envelope, receiverInfo, now, ha, henv⟩
        rw [henv] at hsame
        exact absurd hsame.symm (hdiffer h s a hguard p envelope receiverInfo now ha c' y hyOld)
      · have hboth := (List.mem_singleton.mp hxNew).trans (List.mem_singleton.mp hyNew).symm
        cases hboth
        rfl

/-- The envelope that the sender thread works on. -/
def Sender.current? : Sender κ → Option (AddressedEnvelope κ)
  | .idle => none
  | .filling aEnv _ => some aEnv
  | .sending aEnv _ _ => some aEnv
  | .waiting aEnv _ => some aEnv
  | .requeuing aEnv _ _ => some aEnv

omit [DecidableEq κ] in
theorem current?_nextAttempt {aEnv aEnv' : AddressedEnvelope κ} {attempt : Fin 5}
    (hcurrent : (nextAttempt aEnv attempt).current? = some aEnv') :
    (Sender.waiting aEnv attempt).current? = some aEnv' := by
  unfold nextAttempt at hcurrent
  split_ifs at hcurrent
  · exact hcurrent
  · cases hcurrent

omit [DecidableEq κ] in
theorem Sends.current {ep ep' : Endpoint κ} (hsends : Sends wire p ep ep' e)
    {aEnv : AddressedEnvelope κ} (hcurrent : ep'.sender.current? = some aEnv) :
    ep.sender.current? = some aEnv ∨ e = .took p aEnv := by
  cases hsends with
  | idle hs hq => cases hcurrent
  | took hs hq =>
      cases hcurrent
      exact .inr rfl
  | filled hs hput =>
      rw [hs]
      exact .inl hcurrent
  | unanswered hs hq =>
      rw [hs]
      exact .inl (current?_nextAttempt hcurrent)
  | acknowledged hs hq hstamp => cases hcurrent
  | keeping hs hq hstamp =>
      rw [hs]
      exact .inl hcurrent
  | requeued hs hq =>
      rw [hs]
      exact .inl (current?_nextAttempt hcurrent)

theorem Steps.current (hsteps : Steps wire s a s' e) {aEnv : AddressedEnvelope κ}
    (hcurrent : (s'.endpoints p).sender.current? = some aEnv) :
    (s.endpoints p).sender.current? = some aEnv ∨ e = .took p aEnv := by
  rcases hsteps.sender_cases p with hsender | hsends | ⟨aEnv', attempt, message, hs, hsender⟩
  · rw [hsender] at hcurrent
    exact .inl hcurrent
  · exact hsends.current hcurrent
  · rw [hsender] at hcurrent
    rw [hs]
    exact .inl hcurrent

/-- What the sender thread works on it has taken out of the output queue. -/
theorem took_of_current (hrun : (endpoints wire memory).Run G h s) :
    ∀ aEnv, (s.endpoints p).sender.current? = some aEnv → Event.took p aEnv ∈ h := by
  refine hrun.invariant (I := fun h s => ∀ aEnv,
    (s.endpoints p).sender.current? = some aEnv → Event.took p aEnv ∈ h) ?_ ?_
  · intro aEnv hcurrent
    cases hcurrent
  · intro h s a s' e _ htook _ hstep aEnv hcurrent
    rcases (steps_of_step hstep).current hcurrent with hold | rfl
    · exact List.mem_append_left _ (htook aEnv hold)
    · exact List.mem_append_right _ (List.mem_singleton_self _)

/-- Different counts are enough for the condition on the stamps. -/
theorem ownAck_of_stampsDiffer (hundisturbed : ∀ h s a, G h s a → ∀ p, Undisturbed p h s a)
    (hplain : ∀ h s a, G h s a → ∀ p envelope receiverInfo now,
      a = .sendEnvelope p envelope receiverInfo now → Plain envelope)
    (hdiffer : ∀ h s a, G h s a → StampsDiffer h s a)
    (hrun : (endpoints wire memory).Run G h s) : (endpoints wire memory).Run OwnAck h s := by
  refine hrun.mono_of_run fun h s a hrun hguard => ⟨hundisturbed h s a hguard,
    hplain h s a hguard, ?_⟩
  intro p aEnv attempt eAck _ hs _ _ aEnv' htook' hsame
  have htook := took_of_current hrun (p := p) aEnv (by rw [hs]; rfl)
  rcases stamped_of_took hrun htook with ⟨c, hstamped⟩
  rcases stamped_of_took hrun htook' with ⟨c', hstamped'⟩
  exact stampsDiffer_run hdiffer hrun c' c p aEnv' aEnv hstamped' hstamped hsame

end Runs

/-- The test of {lit}`OwnAck`; it looks at every attempt, with or without an
acknowledgement. -/
def ownAckTest (h : List (Event Nat)) (s : State Nat) (a : Action Nat) : Bool :=
  ((transmits s a).all fun t => (s.endpoints t.1).out.protoMessage = t.2.2) &&
    match a with
    | .sendEnvelope _ envelope _ _ =>
        getMessageType envelope = .UserMessage || getMessageType envelope = .ServiceMessage
    | .sender p =>
        match (s.endpoints p).sender with
        | .waiting aEnv _ => (h.flatMap (Event.takenAt p)).all fun aEnv' =>
            getTimeStamp aEnv'.env ≠ getTimeStamp aEnv.env || aEnv' = aEnv
        | _ => true
    | _ => true

theorem ownAck_of_test (h : List (Event Nat)) (s : State Nat) (a : Action Nat)
    (htest : ownAckTest h s a = true) : OwnAck h s a := by
  rcases (Bool.and_eq_true _ _).mp htest with ⟨htransmits, haction⟩
  constructor
  · intro p aEnv message hone
    simpa [hone] using htransmits
  · rintro p envelope receiverInfo now rfl
    simpa [Plain] using haction
  · rintro p aEnv attempt eAck rfl hs hhead hstamp aEnv' htook hsame
    simp only [hs, List.all_eq_true] at haction
    have hmem : aEnv' ∈ h.flatMap (Event.takenAt p) :=
      List.mem_flatMap.mpr ⟨_, htook, by simp [Event.takenAt]⟩
    simpa [hsame] using haction aEnv' hmem

/-- A message is sent from endpoint 0 to endpoint 1, returned and acknowledged. -/
def acknowledgedOnce : List (Action Nat) :=
  [.sendEnvelope 0 greeting 1 5, .call 0, .sender 0, .sender 0, .sender 0, .receive 1 0,
    .listener 1, .tryReceiveEnvelope 1, .call 1, .call 1, .receive 0 0, .listener 0, .sender 0]

/-- The event that ends that run has the return before it. -/
theorem acknowledged_returned_once :
    ∃ h s, (endpoints envelopeWire clearedMemory).Run OwnAck h s ∧
      AcknowledgedReturned envelopeWire h ∧
      h.getLast? = some (.acknowledged 0 ⟨1, setTimeStamp greeting 5, .message 0⟩
        { tStamp := 5 }) := by
  have hexec : ((endpoints envelopeWire clearedMemory).execFrom ownAckTest []
      (endpoints envelopeWire clearedMemory).init acknowledgedOnce).map (·.1.getLast?) =
        some (some (.acknowledged 0 ⟨1, setTimeStamp greeting 5, .message 0⟩
          { tStamp := 5 })) := by
    decide +kernel
  rcases Option.map_eq_some_iff.mp hexec with ⟨⟨h, s⟩, hexec, hlast⟩
  have hrun := Run.of_execFrom ownAck_of_test .start hexec
  exact ⟨h, s, hrun, acknowledged_returned envelopeWire_lawful hrun, hlast⟩

/-- Another text message. -/
def farewell : Envelope where
  metaData := {}
  payload := CharArray.ofText sizeofPayload (ascii "bye")

/-- Two threads send within one microsecond.  The first message is sent twice, returned
twice and acknowledged twice; the only datagram of the second message is lost. -/
def sameMicrosecond : List (Action Nat) :=
  [.sendEnvelope 0 greeting 1 5, .call 0, .sendEnvelope 0 farewell 1 5, .call 1,
    .sender 0, .sender 0, .sender 0, .sender 0, .sender 0, .sender 0,
    .receive 1 0, .listener 1, .receive 1 0, .listener 1,
    .tryReceiveEnvelope 1, .call 2, .call 2, .tryReceiveEnvelope 1, .call 3, .call 3,
    .receive 0 0, .listener 0, .receive 0 0, .listener 0,
    .sender 0, .sender 0, .sender 0, .sender 0, .lose 0, .sender 0]

/-- The second acknowledgement of the first message ends the retransmission of the
second one, which is never returned. -/
theorem acknowledged_returned_fails :
    ∃ h s, (endpoints envelopeWire clearedMemory).Run Any h s ∧
      ¬ AcknowledgedReturned envelopeWire h := by
  have hexec : ((endpoints envelopeWire clearedMemory).exec sameMicrosecond).map (fun r =>
      (r.1.getLast?, (r.1.flatMap (Event.returnedAt 1)).map (·.tag))) =
        some (some (.acknowledged 0 ⟨1, setTimeStamp farewell 5, .message 1⟩ { tStamp := 5 }),
          [.message 0, .message 0]) := by
    decide +kernel
  rcases Option.map_eq_some_iff.mp hexec with ⟨⟨h, s⟩, hexec, hpair⟩
  rcases Prod.mk.inj hpair with ⟨hlast, htags⟩
  refine ⟨h, s, Run.of_exec hexec, fun hproperty => ?_⟩
  have hsplit := (List.dropLast_append_getLast? _ hlast).symm
  rcases hproperty h.dropLast [] _ _ _ hsplit with ⟨c, item, message, datagram, hreturned, htag, _⟩
  have hmem : item ∈ h.flatMap (Event.returnedAt 1) :=
    List.mem_flatMap.mpr ⟨_, List.dropLast_subset h hreturned, List.mem_singleton_self item⟩
  have hmessage := List.mem_map_of_mem (f := (·.tag)) hmem
  rw [htags, htag] at hmessage
  simp at hmessage

end UdpEndpointBase

end SimpleMessenger
