import SimpleMessenger.Common.UdpFlows

/-!
# Rounds of the listener thread that should come to nothing

A round of {lit}`repeatingListen` calls {lit}`recvDataGram` and stores what it returns.
Neither the result of {lit}`recvfrom` nor that of {lit}`ParseFromArray` is looked at,
and the optional that {lit}`getEnvFromProtoBufferIn` returns is never empty.  After a
failure the input buffer still holds an earlier datagram, and a malformed message leaves
a protobuf object that is partly filled in.

Main results:

- Theorem {lit}`acceptsEnvelope_serializeEnvelope`: what endpoints send is well formed.
- Theorem {lit}`listenRound_stores`: a round that ends has stored one element, whatever
  happened in it.
- Theorem {lit}`not_dropped`: no round leaves the queues as they were.
-/

universe u

namespace SimpleMessenger

open CMemory ProtobufWire ProtobufItf EndpointBase CircularBuffer

namespace UdpEndpointBase

/-! ## Malformed messages -/

/-- The message is well formed, and so are the submessages in field 1, as far as `inner`
looks at them. -/
def acceptsMessage (inner : Bytes → Bool) (bs : Bytes) : Bool :=
  match readAll bs with
  | none => false
  | some fs => fs.all fun f =>
      match f.number, f.value with
      | 1, .bytes sub => inner sub
      | _, _ => true

/-- `ParseFromArray` of the schema's `Envelope` returns true. -/
def acceptsEnvelope (bs : Bytes) : Bool :=
  acceptsMessage (acceptsMessage (acceptsMessage fun _ => true)) bs

theorem acceptsMessage_writeFields {inner : Bytes → Bool} {fs : List Field}
    (hfits : ∀ f ∈ fs, f.Fits)
    (hinner : ∀ f ∈ fs, ∀ sub, f.number = 1 → f.value = .bytes sub → inner sub = true) :
    acceptsMessage inner (writeFields fs) = true := by
  rw [acceptsMessage, readAll_writeFields hfits, List.all_eq_true]
  intro f hf
  split
  · rename_i sub hnumber hvalue
    exact hinner f hf sub hnumber hvalue
  · rfl

theorem acceptsMessage_headerFields (h : ProtobufItf.Header) :
    acceptsMessage (fun _ => true) (writeFields (headerFields h)) = true :=
  acceptsMessage_writeFields (fun _ => fits_of_mem_headerFields) fun _ _ _ _ _ => rfl

theorem acceptsMessage_metaFields (m : ProtobufItf.EnvelopeMeta) :
    acceptsMessage (acceptsMessage fun _ => true) (writeFields (metaFields m)) = true := by
  refine acceptsMessage_writeFields (fun _ => fits_of_mem_metaFields) ?_
  intro f hf sub hnumber hvalue
  simp only [metaFields, List.mem_append, Option.mem_toList, Option.map_eq_some_iff,
    mem_omitZero] at hf
  rcases hf with ⟨h, _, rfl⟩ | ⟨_, rfl⟩ | ⟨_, rfl⟩ | ⟨_, rfl⟩
  · cases hvalue
    exact acceptsMessage_headerFields h
  · cases hvalue
  · cases hvalue
  · cases hvalue

/-- What endpoints send is well formed. -/
theorem acceptsEnvelope_serializeEnvelope {p : ProtobufItf.Envelope}
    (hpayload : p.payload.length < 2 ^ 64) : acceptsEnvelope (serializeEnvelope p) = true := by
  refine acceptsMessage_writeFields (fun _ => fits_of_mem_envelopeFields hpayload) ?_
  intro f hf sub hnumber hvalue
  simp only [envelopeFields, List.mem_append, Option.mem_toList, Option.map_eq_some_iff] at hf
  rcases hf with ⟨m, _, rfl⟩ | hf
  · cases hvalue
    exact acceptsMessage_metaFields m
  · split_ifs at hf
    · contradiction
    · rw [List.mem_singleton.mp hf] at hnumber
      cases hnumber

/-! ## Rounds -/

variable {κ : Type u}

/-- What `recvfrom` comes to: the bytes of a datagram, or none if it fails, and what
`sender_info` then holds.  The code keeps no record of the tag. -/
structure Recv (κ : Type u) where
  bytes? : Option Bytes
  senderInfo : κ
  tag : Tag

/-- The input buffer after `recvfrom`, which leaves it alone when it fails. -/
def Recv.bufferIn (r : Recv κ) (bufferIn : RxTxBuffer) : RxTxBuffer :=
  match r.bytes? with
  | none => bufferIn
  | some bytes => bufferIn.receive bytes

/-- `recvfrom` failed, or the bytes handed to `ParseFromArray` are malformed. -/
def Recv.Malformed (accepts : Bytes → Bool) (r : Recv κ) (bufferIn : RxTxBuffer) : Prop :=
  r.bytes? = none ∨
    accepts ((r.bufferIn bufferIn).payload.bytes.take
      (parseSize (r.bufferIn bufferIn).messageSize).toNat) = false

/-- At most `n` steps of the listener thread, up to its next `recvfrom`. -/
def listenAlone : Nat → Endpoint κ → Endpoint κ
  | 0, ep => ep
  | n + 1, ep =>
      match listen ep with
      | none => ep
      | some ep' => listenAlone n ep'

/-- The listener thread goes on with what was decoded from the input buffer. -/
def storeDecoded (ep : Endpoint κ) (r : Recv κ) : Checked Envelope → Checked (Endpoint κ)
  | .error fault => .error fault
  | .ok env => .ok (listenAlone 3
      { ep with
        bufferIn := r.bufferIn ep.bufferIn
        listener := dispatchIncomingEnv ⟨r.senderInfo, env, r.tag⟩ })

/-- A round of `repeatingListen` on a readable socket, with nothing in between. -/
def listenRound (wire : Wire) (ep : Endpoint κ) (r : Recv κ) : Checked (Endpoint κ) :=
  storeDecoded ep r (getEnvFromProtoBufferIn wire (r.bufferIn ep.bufferIn))

/-- The round ends and leaves both queues as they were. -/
def Dropped (wire : Wire) (ep : Endpoint κ) (r : Recv κ) : Prop :=
  ∃ ep', listenRound wire ep r = .ok ep' ∧ ep'.inQueue = ep.inQueue ∧ ep'.ackQueue = ep.ackQueue

/-! ## What a round stores -/

section Store

variable {T : Type u}

/-- The loop of `storeEnvToInQueue` and `storeTstampToAckQueue`. -/
def storeAlone (q : Ring T messageQueueSize) (x : T) : Ring T messageQueueSize :=
  if (q.push x).1 then (q.push x).2 else ((q.push x).2.pop.2.push x).2

/-- The element is at the tail, and the earliest one has made room for it if there was
none. -/
theorem contents_storeAlone (q : Ring T messageQueueSize) (x : T) :
    (storeAlone q x).contents =
      (if q.contents.length < 4 then q.contents else q.contents.tail) ++ [x] := by
  rcases q.push_eq x with ⟨hok, hpushed⟩
  have hle : q.contents.length ≤ 4 := q.length_contents_le
  change _ = decide (q.contents.length < 4) at hok
  change _ = if q.contents.length < 4 then _ else _ at hpushed
  unfold storeAlone
  by_cases hroom : q.contents.length < 4
  · rw [if_pos hroom] at hpushed
    rw [hok, if_pos (by simpa using hroom), hpushed, if_pos hroom]
  · rw [if_neg hroom] at hpushed
    have hpopped := (q.push x).2.pop_eq.2
    rw [hpushed] at hpopped
    have hroom' : (q.push x).2.pop.2.contents.length < messageQueueSize.toNat := by
      rw [hpopped, List.length_tail]
      change _ < 4
      omega
    have hagain := ((q.push x).2.pop.2.push_eq x).2
    rw [if_pos hroom', hpopped] at hagain
    rw [hok, if_neg (by simpa using hroom), hagain, if_neg hroom]

theorem buffer_push (q : Ring T messageQueueSize) (x : T) :
    q.buffer.push x = .ok ((q.push x).1, (q.push x).2.buffer) := by
  unfold Ring.push
  split <;> rename_i hpush
  · exact hpush
  · exact absurd hpush Ring.push_ne_error

theorem buffer_pop (q : Ring T messageQueueSize) :
    q.buffer.pop = .ok (q.pop.1, q.pop.2.buffer) := by
  unfold Ring.pop
  split <;> rename_i hpop
  · exact hpop
  · exact absurd hpop Ring.pop_ne_error

/-- A push leaves the first cursor where it is. -/
theorem beginPos_push (q : Ring T messageQueueSize) (x : T) :
    (q.push x).2.buffer.beginPos = q.buffer.beginPos := by
  have hpush := buffer_push q x
  unfold CircularBuffer.push at hpush
  split_ifs at hpush
  · rw [← (Prod.mk.inj (Except.ok.inj hpush)).2]
  · rw [← (Prod.mk.inj (Except.ok.inj hpush)).2]

/-- A pop of an element moves it. -/
theorem beginPos_pop {q : Ring T messageQueueSize} (hne : q.contents ≠ []) :
    q.pop.2.buffer.beginPos ≠ q.buffer.beginPos := by
  have hpop := buffer_pop q
  have hempty : q.buffer.isEmpty = false := by
    rw [Bool.eq_false_iff]
    exact fun h => hne (Ring.isEmpty_iff.mp h)
  have hlt := q.wf.begin_lt
  unfold CircularBuffer.pop at hpop
  rw [hempty, if_neg Bool.false_ne_true, dif_pos hlt] at hpop
  rw [← (Prod.mk.inj (Except.ok.inj hpop)).2]
  intro heq
  have hnat := toNat_advance hlt
  change CircularBuffer.advance messageQueueSize q.buffer.beginPos = _ at heq
  rw [heq] at hnat
  change q.buffer.beginPos.toNat < 4 at hlt
  change q.buffer.beginPos.toNat = (q.buffer.beginPos.toNat + 1) % 4 at hnat
  omega

/-- Storing an element changes a queue. -/
theorem storeAlone_ne (q : Ring T messageQueueSize) (x : T) : storeAlone q x ≠ q := by
  intro heq
  by_cases hroom : q.contents.length < 4
  · have hcontents := contents_storeAlone q x
    rw [heq, if_pos hroom] at hcontents
    have hlen := congrArg List.length hcontents
    rw [List.length_append, List.length_singleton] at hlen
    omega
  · -- the same elements would lie one cell further on
    have hfail : (q.push x).1 = false := by
      rw [(q.push_eq x).1]
      exact decide_eq_false hroom
    have hfull : (q.push x).2.contents = q.contents := by
      rw [(q.push_eq x).2]
      exact if_neg hroom
    have hne : (q.push x).2.contents ≠ [] := by
      intro hnil
      rw [← hfull, hnil] at hroom
      exact hroom (Nat.succ_pos 3)
    have hmoved := beginPos_pop hne
    rw [beginPos_push] at hmoved
    have hbegin := congrArg (fun r : Ring T messageQueueSize => r.buffer.beginPos) heq
    simp only [storeAlone, hfail, Bool.false_eq_true, if_false, beginPos_push] at hbegin
    exact hmoved hbegin

end Store

/-- After a pop there is room for a push. -/
theorem push_pop_fst {T : Type u} (q : Ring T messageQueueSize) (x : T) :
    (q.pop.2.push x).1 = true := by
  have hle : q.contents.length ≤ 4 := q.length_contents_le
  rw [(q.pop.2.push_eq x).1, decide_eq_true_iff, q.pop_eq.2, List.length_tail]
  change _ < 4
  omega

/-- The loops end after three steps at most. -/
theorem listenAlone_storing {ep : Endpoint κ} {aEnv : AddressedEnvelope κ}
    (hl : ep.listener = .storing aEnv) :
    listenAlone 3 ep =
      { ep with inQueue := storeAlone ep.inQueue aEnv, listener := .polling } := by
  rcases hpush : ep.inQueue.push aEnv with ⟨_ | _, q⟩
  · have hagain := push_pop_fst q aEnv
    rcases hpush' : q.pop.2.push aEnv with ⟨_ | _, q'⟩
    · rw [hpush'] at hagain
      cases hagain
    · simp [listenAlone, listen, hl, hpush, hpush', storeAlone]
  · simp [listenAlone, listen, hl, hpush, storeAlone]

theorem listenAlone_storingAck {ep : Endpoint κ} {eAck : ExpiringAck}
    (hl : ep.listener = .storingAck eAck) :
    listenAlone 3 ep =
      { ep with ackQueue := storeAlone ep.ackQueue eAck, listener := .polling } := by
  rcases hpush : ep.ackQueue.push eAck with ⟨_ | _, q⟩
  · have hagain := push_pop_fst q eAck
    rcases hpush' : q.pop.2.push eAck with ⟨_ | _, q'⟩
    · rw [hpush'] at hagain
      cases hagain
    · simp [listenAlone, listen, hl, hpush, hpush', storeAlone]
  · simp [listenAlone, listen, hl, hpush, storeAlone]

/-- What a round stores, and where. -/
inductive Stores (r : Recv κ) (env : Envelope) (ep : Endpoint κ) : Endpoint κ → Prop where
  | message (htype : getMessageType env ≠ .AckMessage) :
      Stores r env ep
        { ep with
          bufferIn := r.bufferIn ep.bufferIn
          inQueue := storeAlone ep.inQueue ⟨r.senderInfo, env, r.tag⟩
          listener := .polling }
  | ack (htype : getMessageType env = .AckMessage) :
      Stores r env ep
        { ep with
          bufferIn := r.bufferIn ep.bufferIn
          ackQueue := storeAlone ep.ackQueue { tStamp := getTimeStamp env }
          listener := .polling }

/-- A round that ends has stored one element: whatever can be decoded from what the
input buffer holds. -/
theorem listenRound_stores {wire : Wire} {ep ep' : Endpoint κ} {r : Recv κ}
    (hround : listenRound wire ep r = .ok ep') :
    ∃ env, getEnvFromProtoBufferIn wire (r.bufferIn ep.bufferIn) = .ok env ∧
      Stores r env ep ep' := by
  unfold listenRound at hround
  cases hdecode : getEnvFromProtoBufferIn wire (r.bufferIn ep.bufferIn) with
  | error fault =>
      rw [hdecode] at hround
      cases hround
  | ok env =>
      rw [hdecode] at hround
      refine ⟨env, rfl, ?_⟩
      by_cases htype : getMessageType env = .AckMessage
      · have hl : (dispatchIncomingEnv ⟨r.senderInfo, env, r.tag⟩ : Listener κ) =
            .storingAck { tStamp := getTimeStamp env } := by
          simp [dispatchIncomingEnv, htype]
        rw [storeDecoded, hl, listenAlone_storingAck rfl] at hround
        cases hround
        exact .ack htype
      · have hl : (dispatchIncomingEnv ⟨r.senderInfo, env, r.tag⟩ : Listener κ) =
            .storing ⟨r.senderInfo, env, r.tag⟩ := by
          simp [dispatchIncomingEnv, htype]
        rw [storeDecoded, hl, listenAlone_storing rfl] at hround
        cases hround
        exact .message htype

/-- No round leaves the queues as they were, whether or not its reception failed and
whether or not what it received is malformed. -/
theorem not_dropped (wire : Wire) (ep : Endpoint κ) (r : Recv κ) : ¬ Dropped wire ep r := by
  rintro ⟨ep', hround, hin, hack⟩
  rcases listenRound_stores hround with ⟨env, _, hstores⟩
  cases hstores with
  | message htype => exact storeAlone_ne _ _ hin
  | ack htype => exact storeAlone_ne _ _ hack

/-- An endpoint at work for the first time. -/
def freshEndpoint : Endpoint Nat :=
  .construct
    { inQueue := ⟨Vector.replicate _ ⟨0, Envelope.zero, .message 0⟩, 0, 0, 0⟩
      outQueue := ⟨Vector.replicate _ ⟨0, Envelope.zero, .message 0⟩, 0, 0, 0⟩
      ackQueue := ⟨Vector.replicate _ ⟨0, 0⟩, 0, 0, 0⟩ }

/-- One byte from address 7, which is no key of the wire format. -/
def badKey : Recv Nat where
  bytes? := some (LittleEndian.bytes 8 1 ++ [7])
  senderInfo := 7
  tag := .message 0

/-- A call of `recvfrom` that fails; the address is cleared. -/
def failedRecv : Recv Nat where
  bytes? := none
  senderInfo := 0
  tag := .message 0

/-- The incoming queue after a round. -/
def inQueueAfter (ep : Endpoint Nat) (r : Recv Nat) : Option (List (AddressedEnvelope Nat)) :=
  (listenRound envelopeWire ep r).toOption.map fun ep' => ep'.inQueue.contents

/-- A round that is dropped leaves the contents of the incoming queue. -/
theorem inQueueAfter_of_dropped {ep : Endpoint Nat} {r : Recv Nat}
    (hdropped : Dropped envelopeWire ep r) : inQueueAfter ep r = some ep.inQueue.contents := by
  rcases hdropped with ⟨ep', hround, hin, _⟩
  unfold inQueueAfter
  rw [hround, ← hin]
  rfl

/-- A new endpoint stores an empty user message for the malformed datagram, and for a
reception that failed. -/
theorem not_dropped_badKey :
    (badKey.Malformed acceptsEnvelope freshEndpoint.bufferIn ∧
      inQueueAfter freshEndpoint badKey = some [⟨7, Envelope.zero, .message 0⟩] ∧
      ¬ Dropped envelopeWire freshEndpoint badKey) ∧
    failedRecv.Malformed acceptsEnvelope freshEndpoint.bufferIn ∧
      inQueueAfter freshEndpoint failedRecv = some [⟨0, Envelope.zero, .message 0⟩] ∧
      ¬ Dropped envelopeWire freshEndpoint failedRecv := by
  have hempty : freshEndpoint.inQueue.contents = [] := rfl
  have hbad : inQueueAfter freshEndpoint badKey = some [⟨7, Envelope.zero, .message 0⟩] := by
    decide +kernel
  have hfailed :
      inQueueAfter freshEndpoint failedRecv = some [⟨0, Envelope.zero, .message 0⟩] := by
    decide +kernel
  refine ⟨⟨.inr (by decide +kernel), hbad, fun h => ?_⟩, .inl rfl, hfailed, fun h => ?_⟩
  · have hnone := inQueueAfter_of_dropped h
    rw [hbad, hempty] at hnone
    cases hnone
  · have hnone := inQueueAfter_of_dropped h
    rw [hfailed, hempty] at hnone
    cases hnone

end UdpEndpointBase

end SimpleMessenger
