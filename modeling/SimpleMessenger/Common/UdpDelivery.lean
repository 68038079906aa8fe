import SimpleMessenger.Common.UdpCrossing

/-!
# What a UDP endpoint delivers

An envelope goes out with up to five datagrams, and every datagram that arrives is
put into the input queue of the receiver, which remembers nothing of what it has
received.

Main results:

- Theorem {lit}`origin_of_received`: everything received was sent, by a thread at the
  address that it came from.
- Theorem {lit}`returned_le_five`: an envelope is returned at most as often as it was
  sent.
-/

universe u

namespace SimpleMessenger

open CMemory StepSystem ProtobufItf EndpointBase

namespace UdpEndpointBase

variable {κ : Type u}

/-- What the receiver decodes from a message that encodes the envelope. -/
def CopyOf (wire : Wire) (env copy : Envelope) : Prop :=
  ∃ message, Encodes env message ∧
    getEnvFromProtoBuf (wire.parse (wire.serialize message)) = .ok copy

section Runs

variable [DecidableEq κ] {wire : Wire} {s s' : State κ} {a : Action κ} {e : Event κ}

/-! ## What events say -/

/-- What is received was addressed to the receiver and is decoded from the bytes
received. -/
theorem Steps.of_received {b : κ} {datagram : Datagram κ} {item : AddressedEnvelope κ}
    (hsteps : Steps wire s a s' (.received b datagram item)) :
    datagram.dest = b ∧ item.sockInfo = datagram.source ∧ item.tag = datagram.tag ∧
      ∃ bufferIn, (recvDataGram wire bufferIn datagram.bytes).1 = .ok item.env := by
  cases hsteps with
  | received hi hdest hpolling hsource htag hdecode =>
      exact ⟨hdest, hsource, htag, _, congrArg Prod.fst hdecode⟩
  | sending hsends => cases hsends

theorem Steps.of_sent {p : κ} {aEnv : AddressedEnvelope κ} {message : ProtobufItf.Envelope}
    {datagram : Datagram κ} (hsteps : Steps wire s a s' (.sent p aEnv message datagram)) :
    datagram = (s.endpoints p).datagram p aEnv := by
  cases hsteps with
  | sent hs hdatagram => exact hdatagram
  | sending hsends => cases hsends

theorem Steps.of_returned {c : Nat} {p : κ} {item : AddressedEnvelope κ}
    {message : ProtobufItf.Envelope} {datagram : Datagram κ}
    (hsteps : Steps wire s a s' (.returned c p item message datagram)) :
    datagram = (s.endpoints p).datagram p (ackNotification item) := by
  cases hsteps with
  | returned hc hdatagram => exact hdatagram
  | sending hsends => cases hsends

variable {h : List (Event κ)} {p : κ}

theorem took_of_mem {aEnv : AddressedEnvelope κ} (hmem : aEnv ∈ h.flatMap (Event.takenAt p)) :
    Event.took p aEnv ∈ h := by
  rcases List.mem_flatMap.mp hmem with ⟨e, he, hone⟩
  cases e with
  | took q aEnv' =>
      simp only [Event.takenAt] at hone
      split_ifs at hone with hq
      · rw [List.mem_singleton.mp hone, ← hq]
        exact he
      · cases hone
  | _ => cases hone

theorem stamped_of_mem {addrEnv : AddressedEnvelope κ}
    (hmem : addrEnv ∈ h.flatMap (Event.stampedAt p)) : ∃ c, Event.stamped c p addrEnv ∈ h := by
  rcases List.mem_flatMap.mp hmem with ⟨e, he, hone⟩
  cases e with
  | stamped c q addrEnv' =>
      simp only [Event.stampedAt] at hone
      split_ifs at hone with hq
      · rw [List.mem_singleton.mp hone, ← hq]
        exact ⟨c, he⟩
      · cases hone
  | _ => cases hone

/-- What has arrived was received, and was no acknowledgement. -/
theorem received_of_mem_arrived {item : AddressedEnvelope κ}
    (hmem : item ∈ h.flatMap (Event.arrivedAt p)) :
    ∃ datagram, Event.received p datagram item ∈ h ∧
      getMessageType item.env ≠ .AckMessage := by
  rcases List.mem_flatMap.mp hmem with ⟨e, he, hone⟩
  cases e with
  | received q datagram item' =>
      simp only [Event.arrivedAt] at hone
      split_ifs at hone with hq
      · rw [List.mem_singleton.mp hone, ← hq.1]
        exact ⟨datagram, he, hq.2⟩
      · cases hone
  | _ => cases hone

omit [DecidableEq κ] in
/-- A datagram goes out of one thread or the other. -/
theorem cases_of_mem_emitted {datagram : Datagram κ} (hmem : datagram ∈ h.flatMap Event.emitted) :
    (∃ q aEnv message, Event.sent q aEnv message datagram ∈ h) ∨
      ∃ c q item message, Event.returned c q item message datagram ∈ h := by
  rcases List.mem_flatMap.mp hmem with ⟨e, he, hone⟩
  cases e with
  | sent q aEnv message datagram' =>
      rw [List.mem_singleton.mp hone]
      exact .inl ⟨q, aEnv, message, he⟩
  | returned c q item message datagram' =>
      rw [List.mem_singleton.mp hone]
      exact .inr ⟨c, q, item, message, he⟩
  | _ => cases hone

/-! ## Where things come from -/

variable {memory : κ → Memory κ} {G : Guard (State κ) (Action κ) (Event κ)}

/-- What is sent was taken out of the output queue. -/
theorem took_of_sent (hrun : (endpoints wire memory).Run G h s) {aEnv : AddressedEnvelope κ}
    {message : ProtobufItf.Envelope} {datagram : Datagram κ}
    (hsent : .sent p aEnv message datagram ∈ h) : Event.took p aEnv ∈ h := by
  have hmem : aEnv ∈ h.flatMap (Event.sentAt p) :=
    List.mem_flatMap.mpr ⟨_, hsent, by simp [Event.sentAt]⟩
  have htaken := (sent_subperm_taken hrun p).subset (List.mem_append_left _ hmem)
  rcases List.mem_flatMap.mp htaken with ⟨aEnv', htaken, hcopies⟩
  rw [List.eq_of_mem_replicate hcopies]
  exact took_of_mem htaken

/-- What was taken out of the output queue was stamped by some call. -/
theorem stamped_of_took (hrun : (endpoints wire memory).Run G h s) {aEnv : AddressedEnvelope κ}
    (htook : .took p aEnv ∈ h) : ∃ c, Event.stamped c p aEnv ∈ h := by
  have hmem : aEnv ∈ h.flatMap (Event.takenAt p) :=
    List.mem_flatMap.mpr ⟨_, htook, by simp [Event.takenAt]⟩
  exact stamped_of_mem ((taken_subperm_stamped hrun p).subset (List.mem_append_left _ hmem))

/-- What is returned was received, and was no acknowledgement. -/
theorem received_of_returned (hrun : (endpoints wire memory).Run G h s) {c : Nat}
    {item : AddressedEnvelope κ} {message : ProtobufItf.Envelope} {datagram : Datagram κ}
    (hreturned : .returned c p item message datagram ∈ h) :
    ∃ datagram', Event.received p datagram' item ∈ h ∧
      getMessageType item.env ≠ .AckMessage := by
  have hmem : item ∈ h.flatMap (Event.returnedAt p) :=
    List.mem_flatMap.mpr ⟨_, hreturned, by simp [Event.returnedAt]⟩
  exact received_of_mem_arrived
    ((returned_subperm_arrived hrun p).subset (List.mem_append_left _ hmem))

omit [DecidableEq κ] in
/-- The receiver decodes a copy of what the transmission was made for. -/
theorem Transmission.Right.copyOf {t : Transmission κ} (hright : t.Right wire)
    {bufferIn : RxTxBuffer} {env : Envelope}
    (hdecode : (recvDataGram wire bufferIn t.datagram.bytes).1 = .ok env) :
    CopyOf wire t.aEnv.env env := by
  rw [recvDataGram_of_carries hright.carried] at hdecode
  exact ⟨t.message, hright.encoded, hdecode⟩

/-- What was received is a copy of what a thread at the address that it came from has
sent to the receiver. -/
structure SentTo (wire : Wire) (h : List (Event κ)) (b : κ) (item : AddressedEnvelope κ)
    (aEnv : AddressedEnvelope κ) : Prop where
  addressed : aEnv.sockInfo = b
  same : aEnv.tag = item.tag
  copy : CarriesOwn wire item.sockInfo h → CopyOf wire aEnv.env item.env

/-- Everything received was sent to the receiver, by the sender thread at the address
that it came from or as an acknowledgement. -/
theorem origin_of_received (hrun : (endpoints wire memory).Run G h s) {b : κ}
    {datagram : Datagram κ} {item : AddressedEnvelope κ}
    (hreceived : .received b datagram item ∈ h) :
    (∃ aEnv message, .sent item.sockInfo aEnv message datagram ∈ h ∧
        SentTo wire h b item aEnv) ∨
      ∃ c returned message, .returned c item.sockInfo returned message datagram ∈ h ∧
        SentTo wire h b item (ackNotification returned) := by
  rcases hrun.step_of_mem hreceived with ⟨_, _, _, _, _, _, hstep⟩
  rcases (steps_of_step hstep).of_received with ⟨hdest, hsource, htag, bufferIn, hdecode⟩
  have hmem : datagram ∈ h.flatMap Event.delivered :=
    List.mem_flatMap.mpr ⟨_, hreceived, List.mem_singleton_self datagram⟩
  have hemitted := (received_subperm_sent hrun).subset (List.mem_append_left _ hmem)
  rcases cases_of_mem_emitted hemitted with ⟨q, aEnv, message, hsent⟩ |
    ⟨c, q, returned, message, hsent⟩
  · rcases hrun.step_of_mem hsent with ⟨_, s₁, _, _, _, _, hstep₁⟩
    have hdatagram := (steps_of_step hstep₁).of_sent
    have hq : item.sockInfo = q := by rw [hsource, hdatagram]; rfl
    refine .inl ⟨aEnv, message, by rwa [hq], ?_, ?_, ?_⟩
    · rw [← hdest, hdatagram]
      rfl
    · rw [htag, hdatagram]
      rfl
    · intro hown
      exact (hown _ hsent ⟨aEnv, message, datagram⟩ (if_pos hq.symm)).copyOf hdecode
  · rcases hrun.step_of_mem hsent with ⟨_, s₁, _, _, _, _, hstep₁⟩
    have hdatagram := (steps_of_step hstep₁).of_returned
    have hq : item.sockInfo = q := by rw [hsource, hdatagram]; rfl
    refine .inr ⟨c, returned, message, by rwa [hq], ?_, ?_, ?_⟩
    · rw [← hdest, hdatagram]
      rfl
    · rw [htag, hdatagram]
      rfl
    · intro hown
      exact (hown _ hsent ⟨ackNotification returned, message, datagram⟩
        (if_pos hq.symm)).copyOf hdecode

/-! ## Numbers of calls -/

/-- The tag that a call of `sendEnvelope` gives out. -/
def Event.stampedTags : Event κ → List Tag
  | .stamped _ _ addrEnv => [addrEnv.tag]
  | _ => []

/-- The calls of `sendEnvelope` so far have different numbers, and their tags show
them. -/
structure Numbered (h : List (Event κ)) (s : State κ) : Prop where
  lt : ∀ c p addrEnv, .stamped c p addrEnv ∈ h → c < s.calls.length
  tag_eq : ∀ c p addrEnv, .stamped c p addrEnv ∈ h → addrEnv.tag = .message c
  unique : ∀ c p q addrEnv addrEnv', .stamped c p addrEnv ∈ h → .stamped c q addrEnv' ∈ h →
    p = q ∧ addrEnv = addrEnv'
  once : ∀ c, (h.flatMap Event.stampedTags).countP (· = .message c) ≤ 1

theorem Steps.length_calls (hsteps : Steps wire s a s' e) :
    s.calls.length ≤ s'.calls.length := by
  cases hsteps <;> simp

/-- A stamped envelope gets the next number. -/
theorem Steps.of_stamped {c : Nat} {addrEnv : AddressedEnvelope κ}
    (hsteps : Steps wire s a s' (.stamped c p addrEnv)) :
    c = s.calls.length ∧ addrEnv.tag = .message c ∧ c < s'.calls.length := by
  cases hsteps with
  | stamped haddr hclock => exact ⟨rfl, by rw [haddr], by simp⟩
  | sending hsends => cases hsends

omit [DecidableEq κ] in
/-- The next number has not been given out. -/
theorem Numbered.fresh (hnumbered : Numbered h s) :
    (h.flatMap Event.stampedTags).countP (· = .message s.calls.length) = 0 := by
  rw [List.countP_eq_zero]
  intro tag htag
  rcases List.mem_flatMap.mp htag with ⟨e, he, hone⟩
  cases e with
  | stamped c p addrEnv =>
      have hlt := hnumbered.lt c p addrEnv he
      rw [List.mem_singleton.mp hone, hnumbered.tag_eq c p addrEnv he]
      simp only [decide_eq_true_eq, Tag.message.injEq]
      omega
  | _ => cases hone

theorem Numbered.step (hnumbered : Numbered h s) (hsteps : Steps wire s a s' e) :
    Numbered (h ++ [e]) s' where
  lt := by
    intro c p addrEnv hmem
    rcases List.mem_append.mp hmem with hold | hnew
    · exact (hnumbered.lt c p addrEnv hold).trans_le hsteps.length_calls
    · cases List.mem_singleton.mp hnew
      exact hsteps.of_stamped.2.2
  tag_eq := by
    intro c p addrEnv hmem
    rcases List.mem_append.mp hmem with hold | hnew
    · exact hnumbered.tag_eq c p addrEnv hold
    · cases List.mem_singleton.mp hnew
      exact hsteps.of_stamped.2.1
  unique := by
    intro c p q addrEnv addrEnv' hmem hmem'
    rcases List.mem_append.mp hmem with hold | hnew
    · rcases List.mem_append.mp hmem' with hold' | hnew'
      · exact hnumbered.unique c p q addrEnv addrEnv' hold hold'
      · cases List.mem_singleton.mp hnew'
        have hlt := hnumbered.lt c p addrEnv hold
        have hc := hsteps.of_stamped.1
        omega
    · rcases List.mem_append.mp hmem' with hold' | hnew'
      · cases List.mem_singleton.mp hnew
        have hlt := hnumbered.lt c q addrEnv' hold'
        have hc := hsteps.of_stamped.1
        omega
      · have hsame := (List.mem_singleton.mp hnew).trans (List.mem_singleton.mp hnew').symm
        cases hsame
        exact ⟨rfl, rfl⟩
  once := by
    intro c
    rw [List.flatMap_append, List.countP_append, List.flatMap_singleton]
    cases e with
    | stamped c' p addrEnv =>
        rcases hsteps.of_stamped with ⟨rfl, htag, _⟩
        by_cases hc : c = s.calls.length
        · rw [hc, hnumbered.fresh, Nat.zero_add]
          exact List.countP_le_length
        · have hnone : (Event.stampedTags (.stamped s.calls.length p addrEnv)).countP
              (· = .message c) = 0 := by
            simp [Event.stampedTags, htag, Ne.symm hc]
          rw [hnone]
          exact hnumbered.once c
    | _ => exact hnumbered.once c

theorem numbered_run (hrun : (endpoints wire memory).Run G h s) : Numbered h s := by
  refine hrun.invariant (I := Numbered) ⟨?_, ?_, ?_, ?_⟩ ?_
  · intro c p addrEnv hmem
    cases hmem
  · intro c p addrEnv hmem
    cases hmem
  · intro c p q addrEnv addrEnv' hmem
    cases hmem
  · intro c
    exact Nat.zero_le _
  · intro h s a s' e _ hnumbered _ hstep
    exact hnumbered.step (steps_of_step hstep)

/-! ## How often -/

/-- How often the envelope of call `c` has been returned at endpoint `b`. -/
def returns (b : κ) (c : Nat) (h : List (Event κ)) : Nat :=
  (h.flatMap (Event.returnedAt b)).countP (·.tag = .message c)

/-- How often the envelope of call `c` has been put on the wire by endpoint `p`. -/
def sends (p : κ) (c : Nat) (h : List (Event κ)) : Nat :=
  (h.flatMap (Event.sentAt p)).countP (·.tag = .message c)

/-- A datagram with the tag of a call was sent by the endpoint of that call. -/
theorem sent_of_stamped (hrun : (endpoints wire memory).Run G h s) {c : Nat} {q : κ}
    {addrEnv aEnv : AddressedEnvelope κ} {message : ProtobufItf.Envelope}
    {datagram : Datagram κ} (hstamped : .stamped c p addrEnv ∈ h)
    (hsent : .sent q aEnv message datagram ∈ h) (htag : aEnv.tag = .message c) :
    q = p ∧ aEnv = addrEnv := by
  have hnumbered := numbered_run hrun
  rcases stamped_of_took hrun (took_of_sent hrun hsent) with ⟨c', hstamped'⟩
  have htag' := hnumbered.tag_eq c' q aEnv hstamped'
  rw [htag] at htag'
  cases htag'
  exact hnumbered.unique c q p aEnv addrEnv hstamped' hstamped

/-- What is returned has arrived in datagrams of its own. -/
theorem returns_le_delivered (hrun : (endpoints wire memory).Run G h s) (b : κ) (c : Nat) :
    returns b c h ≤ (h.flatMap Event.delivered).countP (·.tag = .message c) := by
  have harrived : ((h.flatMap (Event.returnedAt b)).countP (·.tag = .message c)) ≤
      (h.flatMap (Event.arrivedAt b)).countP (·.tag = .message c) :=
    ((List.sublist_append_left _ _).subperm.trans (returned_subperm_arrived hrun b)).countP_le _
  refine harrived.trans (countP_flatMap_le fun e he => ?_)
  cases e with
  | received q datagram item =>
      rcases hrun.step_of_mem he with ⟨_, _, _, _, _, _, hstep⟩
      have htag := (steps_of_step hstep).of_received.2.2.1
      simp only [Event.arrivedAt, Event.delivered]
      split_ifs
      · simp [htag]
      · exact Nat.zero_le _
  | _ => exact Nat.zero_le _

/-- The datagrams of a call are those that its endpoint has sent for it. -/
theorem emitted_le_sends (hrun : (endpoints wire memory).Run G h s) {c : Nat}
    {addrEnv : AddressedEnvelope κ} (hstamped : .stamped c p addrEnv ∈ h) :
    (h.flatMap Event.emitted).countP (·.tag = .message c) ≤ sends p c h := by
  refine countP_flatMap_le fun e he => ?_
  cases e with
  | sent q aEnv message datagram =>
      rcases hrun.step_of_mem he with ⟨_, _, _, _, _, _, hstep⟩
      have hdatagram := (steps_of_step hstep).of_sent
      by_cases htag : aEnv.tag = .message c
      · have hq := (sent_of_stamped hrun hstamped he htag).1
        simp [Event.emitted, Event.sentAt, hdatagram, Endpoint.datagram, hq]
      · simp [Event.emitted, hdatagram, Endpoint.datagram, htag]
  | returned c' q item message datagram =>
      rcases hrun.step_of_mem he with ⟨_, _, _, _, _, _, hstep⟩
      have hdatagram := (steps_of_step hstep).of_returned
      simp [Event.emitted, hdatagram, Endpoint.datagram, ackNotification]
  | _ => exact Nat.zero_le _

/-- The sender thread sends the envelope of a call five times at most. -/
theorem sends_le_five (hrun : (endpoints wire memory).Run G h s) (p : κ) (c : Nat) :
    sends p c h ≤ 5 := by
  have htaken : sends p c h ≤ 5 * (h.flatMap (Event.takenAt p)).countP (·.tag = .message c) := by
    rw [← countP_flatMap_replicate]
    exact ((List.sublist_append_left _ _).subperm.trans (sent_subperm_taken hrun p)).countP_le _
  have hstamped : (h.flatMap (Event.takenAt p)).countP (·.tag = .message c) ≤
      (h.flatMap (Event.stampedAt p)).countP (·.tag = .message c) :=
    ((List.sublist_append_left _ _).subperm.trans (taken_subperm_stamped hrun p)).countP_le _
  have hone : (h.flatMap (Event.stampedAt p)).countP (·.tag = .message c) ≤
      (h.flatMap Event.stampedTags).countP (· = .message c) := by
    refine countP_flatMap_le fun e he => ?_
    cases e with
    | stamped c' q addrEnv =>
        simp only [Event.stampedAt, Event.stampedTags]
        split_ifs
        · simp
        · exact Nat.zero_le _
    | _ => exact Nat.zero_le _
  have honce := (numbered_run hrun).once c
  omega

/-! ## Delivery -/

/-- What endpoint `b` returns of the envelope that call `c` has given to endpoint
`p`. -/
structure DeliveredFrom (wire : Wire) (p b : κ) (c : Nat) (addrEnv : AddressedEnvelope κ)
    (h : List (Event κ)) : Prop where
  returns_le : returns b c h ≤ sends p c h
  sends_le : sends p c h ≤ 5
  genuine : ∀ item ∈ h.flatMap (Event.returnedAt b), item.tag = .message c →
    item.sockInfo = p ∧ addrEnv.sockInfo = b ∧ CopyOf wire addrEnv.env item.env

theorem returned_of_mem {item : AddressedEnvelope κ}
    (hmem : item ∈ h.flatMap (Event.returnedAt p)) :
    ∃ c message datagram, Event.returned c p item message datagram ∈ h := by
  rcases List.mem_flatMap.mp hmem with ⟨e, he, hone⟩
  cases e with
  | returned c q item' message datagram =>
      simp only [Event.returnedAt] at hone
      split_ifs at hone with hq
      · rw [List.mem_singleton.mp hone, ← hq]
        exact ⟨c, message, datagram, he⟩
      · cases hone
  | _ => cases hone

/-- An endpoint that only sends has every envelope returned, as a copy of what it was
given, at most as often as it has put it on the wire, and so at most five times. -/
theorem returned_le_five {h : List (Event κ)} {s : State κ} {p b : κ} {c : Nat}
    {addrEnv : AddressedEnvelope κ}
    (hrun : (endpoints wire memory).Run (NeverReceives p) h s)
    (hstamped : .stamped c p addrEnv ∈ h) : DeliveredFrom wire p b c addrEnv h where
  returns_le := by
    have hdelivered : (h.flatMap Event.delivered).countP (·.tag = .message c) ≤
        (h.flatMap Event.emitted).countP (·.tag = .message c) :=
      ((List.sublist_append_left _ _).subperm.trans (received_subperm_sent hrun)).countP_le _
    exact (returns_le_delivered hrun b c).trans
      (hdelivered.trans (emitted_le_sends hrun hstamped))
  sends_le := sends_le_five hrun p c
  genuine := by
    intro item hitem htag
    rcases returned_of_mem hitem with ⟨c', message, datagram, hreturned⟩
    rcases received_of_returned hrun hreturned with ⟨datagram', hreceived, _⟩
    rcases origin_of_received hrun hreceived with ⟨aEnv, message', hsent, hto⟩ |
      ⟨c'', returned, message', _, hto⟩
    · rcases sent_of_stamped hrun hstamped hsent (hto.same.trans htag) with ⟨hsource, rfl⟩
      have hown := carriesOwn_of_neverReceives (fun _ _ _ hguard => hguard) hrun
      exact ⟨hsource, hto.addressed, hto.copy (hsource ▸ hown)⟩
    · rw [← hto.same] at htag
      cases htag

/-- The test of {lit}`NeverReceives`. -/
def neverReceivesTest (p : κ) (_ : List (Event κ)) (_ : State κ) : Action κ → Bool
  | .tryReceiveEnvelope q => q ≠ p
  | _ => true

theorem neverReceives_of_test (p : κ) (h : List (Event κ)) (s : State κ)
    (a : Action κ) (htest : neverReceivesTest p h s a = true) : NeverReceives p h s a := by
  rintro rfl
  simp [neverReceivesTest] at htest

end Runs

/-- Endpoint 0 sends one message to endpoint 1; all five datagrams arrive and all
acknowledgements are late. -/
def lateAcks : List (Action Nat) :=
  [.sendEnvelope 0 greeting 1 5, .call 0, .sender 0] ++
    (List.range 5).flatMap fun i =>
      [.sender 0, .sender 0, .receive 1 i, .listener 1, .tryReceiveEnvelope 1, .call (i + 1),
        .call (i + 1), .sender 0]

/-- The message is returned five times, and not more. -/
theorem returned_le_five_lateAcks :
    ∃ h s, (endpoints envelopeWire clearedMemory).Run (NeverReceives 0) h s ∧
      ∃ addrEnv, .stamped 0 0 addrEnv ∈ h ∧ DeliveredFrom envelopeWire 0 1 0 addrEnv h ∧
        returns 1 0 h = 5 := by
  have hexec : ((endpoints envelopeWire clearedMemory).execFrom (neverReceivesTest 0) []
      (endpoints envelopeWire clearedMemory).init lateAcks).map (fun r =>
        (r.1.head?, returns 1 0 r.1)) =
      some (some (.stamped 0 0 ⟨1, setTimeStamp greeting 5, .message 0⟩), 5) := by
    decide +kernel
  rcases Option.map_eq_some_iff.mp hexec with ⟨⟨h, s⟩, hexec, hpair⟩
  rcases Prod.mk.inj hpair with ⟨hhead, hfive⟩
  have hrun := Run.of_execFrom (neverReceives_of_test 0) .start hexec
  have hstamped := List.mem_of_mem_head? hhead
  exact ⟨h, s, hrun, _, hstamped, returned_le_five hrun hstamped, hfive⟩

/-- An envelope that was passed to `sendEnvelope` once can be returned five times. -/
theorem returned_once_fails :
    ∃ h s addrEnv, (endpoints envelopeWire clearedMemory).Run (NeverReceives 0) h s ∧
      h.flatMap (Event.stampedAt 0) = [addrEnv] ∧
      (h.flatMap (Event.returnedAt 1)).map (·.env) = List.replicate 5 addrEnv.env := by
  have hexec : ((endpoints envelopeWire clearedMemory).execFrom (neverReceivesTest 0) []
      (endpoints envelopeWire clearedMemory).init lateAcks).map (fun r =>
        (r.1.flatMap (Event.stampedAt 0), (r.1.flatMap (Event.returnedAt 1)).map (·.env))) =
      some ([⟨1, setTimeStamp greeting 5, .message 0⟩],
        List.replicate 5 (setTimeStamp greeting 5)) := by
    decide +kernel
  rcases Option.map_eq_some_iff.mp hexec with ⟨⟨h, s⟩, hexec, hpair⟩
  rcases Prod.mk.inj hpair with ⟨hstamped, hreturned⟩
  exact ⟨h, s, _, Run.of_execFrom (neverReceives_of_test 0) .start hexec, hstamped, hreturned⟩

end UdpEndpointBase

end SimpleMessenger
