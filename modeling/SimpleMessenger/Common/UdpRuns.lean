import Mathlib.Logic.Function.Basic
import SimpleMessenger.Common.CircularBuffer
import SimpleMessenger.Common.UdpDatagrams
import SimpleMessenger.Foundations.StepSystem

/-!
# Endpoints of `UdpEndpointBase.cpp` at work

Any number of endpoints exchange datagrams over a network that delays, reorders
and loses them, and neither duplicates nor forges any.  An endpoint has a sender
thread, a listener thread and any number of calls of {lit}`sendEnvelope` and
{lit}`tryReceiveEnvelope`.  Each operation on a queue is one step, and so are
filling the output buffer, {lit}`sendto`, and {lit}`recvfrom` with the decoding of
what it received.  Nothing that another thread could see lies between the
{lit}`sendto` of an acknowledgement and the end of {lit}`tryReceiveEnvelope`, so that
both are one step.  The clock of an endpoint does not go back, but its count is cut to 32
bits, so that a call can get any time stamp at any time.

Main results:

- Theorem {lit}`exists_sendEnvelope`: a call can start with every time stamp.
- Theorem {lit}`steps_of_step`: the kinds of steps.

Current gaps:

- A thread whose next access is faulty takes no further step.
- Endpoints are not destroyed.
-/

universe u

namespace SimpleMessenger

open CMemory StepSystem ProtobufItf EndpointBase CircularBuffer

namespace UdpEndpointBase

/-! ## Threads and their states -/

/-- `messageQueueSize` -/
abbrev messageQueueSize : UInt64 := 4

theorem messageQueueSize_pos : 0 < messageQueueSize.toNat := by
  decide

/-- Which call of `sendEnvelope` something goes back to, and whether it is the
message of that call or an acknowledgement of it. -/
inductive Tag where
  | message (c : Nat)
  | ack (c : Nat)
deriving DecidableEq

/-- The call of `sendEnvelope`. -/
def Tag.call : Tag → Nat
  | .message c => c
  | .ack c => c

/-- An envelope with the address it goes to or comes from.  The code keeps no
record of the tag. -/
structure AddressedEnvelope (κ : Type u) where
  sockInfo : κ
  env : Envelope
  tag : Tag
deriving DecidableEq

structure ExpiringAck where
  counter : UInt8 := 3
  tStamp : Timestamp
deriving DecidableEq

structure Datagram (κ : Type u) where
  source : κ
  dest : κ
  bytes : Bytes
  tag : Tag
deriving DecidableEq

/-- Where the sender thread stands. -/
inductive Sender (κ : Type u) where
  /-- Before `outQueue.pop`. -/
  | idle
  /-- Before `putEnvToProtoBufferOut`. -/
  | filling (aEnv : AddressedEnvelope κ) (attempt : Fin 5)
  /-- Before `sendto`, having put the message into the output buffer. -/
  | sending (aEnv : AddressedEnvelope κ) (attempt : Fin 5) (message : ProtobufItf.Envelope)
  /-- Before `ackQueue.pop`. -/
  | waiting (aEnv : AddressedEnvelope κ) (attempt : Fin 5)
  /-- Before `ackQueue.push`. -/
  | requeuing (aEnv : AddressedEnvelope κ) (attempt : Fin 5) (pendingAck : ExpiringAck)

/-- Where the listener thread stands. -/
inductive Listener (κ : Type u) where
  /-- Before `recvfrom`. -/
  | polling
  /-- Before `inQueue.push`. -/
  | storing (aEnv : AddressedEnvelope κ)
  /-- Before `inQueue.pop`, the push having failed. -/
  | dropping (aEnv : AddressedEnvelope κ)
  /-- Before `ackQueue.push`. -/
  | storingAck (eAck : ExpiringAck)
  /-- Before `ackQueue.pop`, the push having failed. -/
  | droppingAck (eAck : ExpiringAck)

/-- Where a call of the application stands. -/
inductive Point (κ : Type u) where
  /-- `sendEnvelope` before `outQueue.push`. -/
  | queueing (addrEnv : AddressedEnvelope κ)
  /-- `tryReceiveEnvelope` before `putEnvToProtoBufferOut`. -/
  | acking (aEnv : AddressedEnvelope κ)
  /-- `tryReceiveEnvelope` before `sendto`. -/
  | sendingAck (aEnv : AddressedEnvelope κ) (message : ProtobufItf.Envelope)
  | returned

structure Call (κ : Type u) where
  endpoint : κ
  point : Point κ

/-- One endpoint, with its clock in microseconds. -/
structure Endpoint (κ : Type u) where
  out : OutBuffers
  bufferIn : RxTxBuffer
  inQueue : Ring (AddressedEnvelope κ) messageQueueSize
  outQueue : Ring (AddressedEnvelope κ) messageQueueSize
  ackQueue : Ring ExpiringAck messageQueueSize
  sender : Sender κ
  listener : Listener κ
  clock : Nat

/-- The endpoints by their addresses, the calls made so far, each under its number,
and the datagrams under way. -/
structure State (κ : Type u) where
  endpoints : κ → Endpoint κ
  calls : List (Call κ)
  network : List (Datagram κ)

inductive Action (κ : Type u) where
  /-- A call of `sendEnvelope` starts and reads the clock. -/
  | sendEnvelope (p : κ) (envelope : Envelope) (receiverInfo : κ) (now : Nat)
  /-- A call of `tryReceiveEnvelope` starts. -/
  | tryReceiveEnvelope (p : κ)
  /-- The next step of call `c`. -/
  | call (c : Nat)
  /-- The next step of the sender thread of `p`. -/
  | sender (p : κ)
  /-- The listener thread of `p` receives a datagram. -/
  | receive (p : κ) (i : Nat)
  /-- Any other step of the listener thread of `p`. -/
  | listener (p : κ)
  /-- The network loses a datagram. -/
  | lose (i : Nat)

inductive Event (κ : Type u) where
  | stamped (c : Nat) (p : κ) (addrEnv : AddressedEnvelope κ)
  | took (p : κ) (aEnv : AddressedEnvelope κ)
  /-- `sendto` by the sender thread, which had put `message` into the buffer. -/
  | sent (p : κ) (aEnv : AddressedEnvelope κ) (message : ProtobufItf.Envelope)
      (datagram : Datagram κ)
  /-- `checkAckQueue` ended the retransmission. -/
  | acknowledged (p : κ) (aEnv : AddressedEnvelope κ) (eAck : ExpiringAck)
  /-- `sendto` by a call that had put `message` into the buffer, and its return. -/
  | returned (c : Nat) (p : κ) (aEnv : AddressedEnvelope κ) (message : ProtobufItf.Envelope)
      (datagram : Datagram κ)
  /-- `recvfrom`, with the decoded envelope. -/
  | received (p : κ) (datagram : Datagram κ) (aEnv : AddressedEnvelope κ)
  | quiet
deriving DecidableEq

variable {κ : Type u}

/-! ## Steps -/

/-- `createTimeStamp`: the count of microseconds, cut to 32 bits. -/
def createTimeStamp (now : Nat) : Timestamp :=
  UInt32.ofNat now

/-- The acknowledgement of a received envelope. -/
def ackEnvelope (env : Envelope) : Envelope :=
  setTimeStamp (setMessageType Envelope.zero .AckMessage) (getTimeStamp env)

/-- The acknowledgement, addressed to where the envelope came from. -/
def ackNotification (aEnv : AddressedEnvelope κ) : AddressedEnvelope κ where
  sockInfo := aEnv.sockInfo
  env := ackEnvelope aEnv.env
  tag := .ack aEnv.tag.call

/-- The sender goes on to its next attempt, if it has one left. -/
def nextAttempt (aEnv : AddressedEnvelope κ) (attempt : Fin 5) : Sender κ :=
  if h : attempt.val + 1 < 5 then .filling aEnv ⟨attempt.val + 1, h⟩ else .idle

/-- `dispatchIncomingEnv` -/
def dispatchIncomingEnv (aEnv : AddressedEnvelope κ) : Listener κ :=
  if getMessageType aEnv.env = .AckMessage then .storingAck { tStamp := getTimeStamp aEnv.env }
  else .storing aEnv

/-- What the `sendto` of `sendDataGram` puts on the network: the whole output
buffer. -/
def Endpoint.datagram (ep : Endpoint κ) (p : κ) (aEnv : AddressedEnvelope κ) : Datagram κ where
  source := p
  dest := aEnv.sockInfo
  bytes := ep.out.buffer.toBytes
  tag := aEnv.tag

/-- The steps of the listener thread after `recvfrom`. -/
def listen (ep : Endpoint κ) : Option (Endpoint κ) :=
  match ep.listener with
  | .polling => none
  | .storing aEnv =>
      match ep.inQueue.push aEnv with
      | (true, q) => some { ep with inQueue := q, listener := .polling }
      | (false, q) => some { ep with inQueue := q, listener := .dropping aEnv }
  | .dropping aEnv => some { ep with inQueue := ep.inQueue.pop.2, listener := .storing aEnv }
  | .storingAck eAck =>
      match ep.ackQueue.push eAck with
      | (true, q) => some { ep with ackQueue := q, listener := .polling }
      | (false, q) => some { ep with ackQueue := q, listener := .droppingAck eAck }
  | .droppingAck eAck =>
      some { ep with ackQueue := ep.ackQueue.pop.2, listener := .storingAck eAck }

/-- `checkAckQueue`, up to its push. -/
def checkAckQueue (p : κ) (ep : Endpoint κ) (aEnv : AddressedEnvelope κ) (attempt : Fin 5) :
    Endpoint κ × Event κ :=
  match ep.ackQueue.pop with
  | (none, q) => ({ ep with ackQueue := q, sender := nextAttempt aEnv attempt }, .quiet)
  | (some pendingAck, q) =>
      if pendingAck.tStamp = getTimeStamp aEnv.env then
        ({ ep with ackQueue := q, sender := .idle }, .acknowledged p aEnv pendingAck)
      else
        let pendingAck := { pendingAck with counter := pendingAck.counter - 1 }
        if 0 < pendingAck.counter then
          ({ ep with ackQueue := q, sender := .requeuing aEnv attempt pendingAck }, .quiet)
        else ({ ep with ackQueue := q, sender := nextAttempt aEnv attempt }, .quiet)

section Steps

variable [DecidableEq κ]

/-- Endpoint `p` goes on to `ep`. -/
def State.put (s : State κ) (p : κ) (ep : Endpoint κ) : State κ :=
  { s with endpoints := Function.update s.endpoints p ep }

variable (wire : Wire)

/-- `sendEnvelope`, up to its push. -/
def sendEnvelope (s : State κ) (p : κ) (envelope : Envelope) (receiverInfo : κ) (now : Nat) :
    Option (State κ × Event κ) :=
  if (s.endpoints p).clock ≤ now then
    let addrEnv :=
      { sockInfo := receiverInfo
        env := setTimeStamp envelope (createTimeStamp now)
        tag := .message s.calls.length }
    some ({ s.put p { s.endpoints p with clock := now } with
              calls := s.calls ++ [⟨p, .queueing addrEnv⟩] },
      .stamped s.calls.length p addrEnv)
  else none

/-- Whatever the clock has shown, a later time gives the time stamp wanted. -/
theorem exists_sendEnvelope (s : State κ) (p : κ) (envelope : Envelope) (receiverInfo : κ)
    (tStamp : Timestamp) :
    ∃ now s', sendEnvelope s p envelope receiverInfo now =
      some (s', .stamped s.calls.length p
        ⟨receiverInfo, setTimeStamp envelope tStamp, .message s.calls.length⟩) := by
  have hlater : (s.endpoints p).clock ≤ (s.endpoints p).clock * 2 ^ 32 + tStamp.toNat := by
    omega
  have hstamp : createTimeStamp ((s.endpoints p).clock * 2 ^ 32 + tStamp.toNat) = tStamp := by
    apply UInt32.toNat_inj.mp
    rw [createTimeStamp, UInt32.toNat_ofNat', Nat.add_comm, Nat.add_mul_mod_self_right]
    exact Nat.mod_eq_of_lt tStamp.toNat_lt
  exact ⟨_, _, (if_pos hlater).trans (by rw [hstamp])⟩

/-- `tryReceiveEnvelope`, its pop. -/
def tryReceiveEnvelope (s : State κ) (p : κ) : State κ × Event κ :=
  match (s.endpoints p).inQueue.pop with
  | (none, q) =>
      ({ s.put p { s.endpoints p with inQueue := q } with calls := s.calls ++ [⟨p, .returned⟩] },
        .quiet)
  | (some aEnv, q) =>
      ({ s.put p { s.endpoints p with inQueue := q } with
            calls := s.calls ++ [⟨p, .acking aEnv⟩] }, .quiet)

/-- The later steps of a call.  The result of the push is only logged. -/
def advance (s : State κ) (c : Nat) (p : κ) : Point κ → Option (State κ × Event κ)
  | .queueing addrEnv =>
      some ({ s.put p { s.endpoints p with outQueue := ((s.endpoints p).outQueue.push addrEnv).2 }
                with calls := s.calls.set c ⟨p, .returned⟩ }, .quiet)
  | .acking aEnv =>
      match putEnvToProtoBufferOut wire (s.endpoints p).out (ackNotification aEnv).env with
      | .error _ => none
      | .ok out =>
          some ({ s.put p { s.endpoints p with out := out } with
                    calls := s.calls.set c ⟨p, .sendingAck aEnv out.protoMessage⟩ }, .quiet)
  | .sendingAck aEnv message =>
      let datagram := (s.endpoints p).datagram p (ackNotification aEnv)
      some ({ s with calls := s.calls.set c ⟨p, .returned⟩
                     network := s.network ++ [datagram] },
        .returned c p aEnv message datagram)
  | .returned => none

/-- `sendEnvFromOutQueue` -/
def sendEnvFromOutQueue (s : State κ) (p : κ) : Option (State κ × Event κ) :=
  match (s.endpoints p).sender with
  | .idle =>
      match (s.endpoints p).outQueue.pop with
      | (none, q) => some (s.put p { s.endpoints p with outQueue := q }, .quiet)
      | (some aEnv, q) =>
          some (s.put p { s.endpoints p with outQueue := q, sender := .filling aEnv 0 },
            .took p aEnv)
  | .filling aEnv attempt =>
      match putEnvToProtoBufferOut wire (s.endpoints p).out aEnv.env with
      | .error _ => none
      | .ok out =>
          some (s.put p { s.endpoints p with
                            out := out, sender := .sending aEnv attempt out.protoMessage }, .quiet)
  | .sending aEnv attempt message =>
      let datagram := (s.endpoints p).datagram p aEnv
      some ({ s.put p { s.endpoints p with sender := .waiting aEnv attempt } with
                network := s.network ++ [datagram] }, .sent p aEnv message datagram)
  | .waiting aEnv attempt =>
      let checked := checkAckQueue p (s.endpoints p) aEnv attempt
      some (s.put p checked.1, checked.2)
  | .requeuing aEnv attempt pendingAck =>
      some (s.put p { s.endpoints p with
                        ackQueue := ((s.endpoints p).ackQueue.push pendingAck).2
                        sender := nextAttempt aEnv attempt }, .quiet)

/-- The listener thread has received a datagram and goes on with what it decoded. -/
def dispatchReceived (s : State κ) (p : κ) (i : Nat) (datagram : Datagram κ) :
    Checked Envelope × RxTxBuffer → Option (State κ × Event κ)
  | (.error _, _) => none
  | (.ok env, bufferIn) =>
      let aEnv := { sockInfo := datagram.source, env := env, tag := datagram.tag }
      some ({ s.put p { s.endpoints p with
                          bufferIn := bufferIn, listener := dispatchIncomingEnv aEnv } with
                network := s.network.eraseIdx i }, .received p datagram aEnv)

/-- `recvDataGram` and `dispatchIncomingEnv`, up to the first access to a queue. -/
def receive (s : State κ) (p : κ) (i : Nat) (datagram : Datagram κ) :
    Option (State κ × Event κ) :=
  match (s.endpoints p).listener with
  | .polling =>
      if datagram.dest = p then
        dispatchReceived s p i datagram
          (recvDataGram wire (s.endpoints p).bufferIn datagram.bytes)
      else none
  | _ => none

def step (s : State κ) : Action κ → Option (State κ × Event κ)
  | .sendEnvelope p envelope receiverInfo now => sendEnvelope s p envelope receiverInfo now
  | .tryReceiveEnvelope p => some (tryReceiveEnvelope s p)
  | .call c => s.calls[c]?.bind fun call => advance wire s c call.endpoint call.point
  | .sender p => sendEnvFromOutQueue wire s p
  | .receive p i => s.network[i]?.bind (receive wire s p i)
  | .listener p => (listen (s.endpoints p)).map fun ep => (s.put p ep, .quiet)
  | .lose i => if i < s.network.length then some ({ s with network := s.network.eraseIdx i }, .quiet)
      else none

end Steps

/-- The memory that the queues of an endpoint are constructed in. -/
structure Memory (κ : Type u) where
  inQueue : CircularBuffer (AddressedEnvelope κ) messageQueueSize
  outQueue : CircularBuffer (AddressedEnvelope κ) messageQueueSize
  ackQueue : CircularBuffer ExpiringAck messageQueueSize

/-- A newly constructed endpoint. -/
def Endpoint.construct (memory : Memory κ) : Endpoint κ where
  out := {}
  bufferIn := .zero
  inQueue := .construct (by decide) memory.inQueue
  outQueue := .construct (by decide) memory.outQueue
  ackQueue := .construct (by decide) memory.ackQueue
  sender := .idle
  listener := .polling
  clock := 0

/-- Endpoints at all addresses, before the first call. -/
def endpoints [DecidableEq κ] (wire : Wire) (memory : κ → Memory κ) :
    StepSystem (State κ) (Action κ) (Event κ) where
  init :=
    { endpoints := fun p => .construct (memory p)
      calls := []
      network := [] }
  step := step wire

/-! ## The kinds of steps -/

/-- What the sender thread does apart from `sendto`. -/
inductive Sends (wire : Wire) (p : κ) (ep : Endpoint κ) : Endpoint κ → Event κ → Prop where
  | idle {q : Ring (AddressedEnvelope κ) messageQueueSize} (hs : ep.sender = .idle)
      (hq : q.contents = ep.outQueue.contents) :
      Sends wire p ep { ep with outQueue := q, sender := .idle } .quiet
  | took {aEnv : AddressedEnvelope κ} {q : Ring (AddressedEnvelope κ) messageQueueSize}
      (hs : ep.sender = .idle) (hq : ep.outQueue.contents = aEnv :: q.contents) :
      Sends wire p ep { ep with outQueue := q, sender := .filling aEnv 0 } (.took p aEnv)
  | filled {aEnv : AddressedEnvelope κ} {attempt : Fin 5} {out : OutBuffers}
      (hs : ep.sender = .filling aEnv attempt)
      (hput : putEnvToProtoBufferOut wire ep.out aEnv.env = .ok out) :
      Sends wire p ep
        { ep with out := out, sender := .sending aEnv attempt out.protoMessage } .quiet
  | unanswered {aEnv : AddressedEnvelope κ} {attempt : Fin 5}
      {q : Ring ExpiringAck messageQueueSize} (hs : ep.sender = .waiting aEnv attempt)
      (hq : q.contents.Sublist ep.ackQueue.contents) :
      Sends wire p ep { ep with ackQueue := q, sender := nextAttempt aEnv attempt } .quiet
  | acknowledged {aEnv : AddressedEnvelope κ} {attempt : Fin 5} {pendingAck : ExpiringAck}
      {q : Ring ExpiringAck messageQueueSize} (hs : ep.sender = .waiting aEnv attempt)
      (hq : ep.ackQueue.contents = pendingAck :: q.contents)
      (hstamp : pendingAck.tStamp = getTimeStamp aEnv.env) :
      Sends wire p ep { ep with ackQueue := q, sender := .idle }
        (.acknowledged p aEnv pendingAck)
  | keeping {aEnv : AddressedEnvelope κ} {attempt : Fin 5} {pendingAck eAck : ExpiringAck}
      {q : Ring ExpiringAck messageQueueSize} (hs : ep.sender = .waiting aEnv attempt)
      (hq : ep.ackQueue.contents = pendingAck :: q.contents)
      (hstamp : eAck.tStamp = pendingAck.tStamp) :
      Sends wire p ep { ep with ackQueue := q, sender := .requeuing aEnv attempt eAck } .quiet
  | requeued {aEnv : AddressedEnvelope κ} {attempt : Fin 5} {pendingAck : ExpiringAck}
      {q : Ring ExpiringAck messageQueueSize}
      (hs : ep.sender = .requeuing aEnv attempt pendingAck)
      (hq : q.contents.Sublist (ep.ackQueue.contents ++ [pendingAck])) :
      Sends wire p ep { ep with ackQueue := q, sender := nextAttempt aEnv attempt } .quiet

/-- What the listener thread does after `recvfrom`. -/
inductive Listens (ep : Endpoint κ) : Endpoint κ → Prop where
  | stored {aEnv : AddressedEnvelope κ} {q : Ring (AddressedEnvelope κ) messageQueueSize}
      (hl : ep.listener = .storing aEnv) (hq : q.contents = ep.inQueue.contents ++ [aEnv]) :
      Listens ep { ep with inQueue := q, listener := .polling }
  | full {aEnv : AddressedEnvelope κ} {q : Ring (AddressedEnvelope κ) messageQueueSize}
      (hl : ep.listener = .storing aEnv) (hq : q.contents = ep.inQueue.contents) :
      Listens ep { ep with inQueue := q, listener := .dropping aEnv }
  | dropped {aEnv : AddressedEnvelope κ} {q : Ring (AddressedEnvelope κ) messageQueueSize}
      (hl : ep.listener = .dropping aEnv) (hq : q.contents = ep.inQueue.contents.tail) :
      Listens ep { ep with inQueue := q, listener := .storing aEnv }
  | ackStored {eAck : ExpiringAck} {q : Ring ExpiringAck messageQueueSize}
      (hl : ep.listener = .storingAck eAck) (hq : q.contents = ep.ackQueue.contents ++ [eAck]) :
      Listens ep { ep with ackQueue := q, listener := .polling }
  | ackFull {eAck : ExpiringAck} {q : Ring ExpiringAck messageQueueSize}
      (hl : ep.listener = .storingAck eAck) (hq : q.contents = ep.ackQueue.contents) :
      Listens ep { ep with ackQueue := q, listener := .droppingAck eAck }
  | ackDropped {eAck : ExpiringAck} {q : Ring ExpiringAck messageQueueSize}
      (hl : ep.listener = .droppingAck eAck) (hq : q.contents = ep.ackQueue.contents.tail) :
      Listens ep { ep with ackQueue := q, listener := .storingAck eAck }

/-- What a step can be. -/
inductive Steps [DecidableEq κ] (wire : Wire) (s : State κ) :
    Action κ → State κ → Event κ → Prop where
  | stamped {p receiverInfo : κ} {envelope : Envelope} {now : Nat} {addrEnv : AddressedEnvelope κ}
      (haddr : addrEnv = ⟨receiverInfo, setTimeStamp envelope (createTimeStamp now),
        .message s.calls.length⟩) (hclock : (s.endpoints p).clock ≤ now) :
      Steps wire s (.sendEnvelope p envelope receiverInfo now)
        { s.put p { s.endpoints p with clock := now } with
            calls := s.calls ++ [⟨p, .queueing addrEnv⟩] }
        (.stamped s.calls.length p addrEnv)
  | receivedNothing {p : κ} {q : Ring (AddressedEnvelope κ) messageQueueSize}
      (hq : q.contents = (s.endpoints p).inQueue.contents) :
      Steps wire s (.tryReceiveEnvelope p)
        { s.put p { s.endpoints p with inQueue := q } with calls := s.calls ++ [⟨p, .returned⟩] }
        .quiet
  | popped {p : κ} {aEnv : AddressedEnvelope κ} {q : Ring (AddressedEnvelope κ) messageQueueSize}
      (hq : (s.endpoints p).inQueue.contents = aEnv :: q.contents) :
      Steps wire s (.tryReceiveEnvelope p)
        { s.put p { s.endpoints p with inQueue := q } with
            calls := s.calls ++ [⟨p, .acking aEnv⟩] } .quiet
  | queued {c : Nat} {p : κ} {addrEnv : AddressedEnvelope κ}
      {q : Ring (AddressedEnvelope κ) messageQueueSize}
      (hc : s.calls[c]? = some ⟨p, .queueing addrEnv⟩)
      (hq : q.contents = (s.endpoints p).outQueue.contents ++ [addrEnv] ∨
        q.contents = (s.endpoints p).outQueue.contents) :
      Steps wire s (.call c)
        { s.put p { s.endpoints p with outQueue := q } with
            calls := s.calls.set c ⟨p, .returned⟩ } .quiet
  | ackFilled {c : Nat} {p : κ} {aEnv : AddressedEnvelope κ} {out : OutBuffers}
      (hc : s.calls[c]? = some ⟨p, .acking aEnv⟩)
      (hput : putEnvToProtoBufferOut wire (s.endpoints p).out (ackNotification aEnv).env =
        .ok out) :
      Steps wire s (.call c)
        { s.put p { s.endpoints p with out := out } with
            calls := s.calls.set c ⟨p, .sendingAck aEnv out.protoMessage⟩ } .quiet
  | returned {c : Nat} {p : κ} {aEnv : AddressedEnvelope κ} {message : ProtobufItf.Envelope}
      {datagram : Datagram κ} (hc : s.calls[c]? = some ⟨p, .sendingAck aEnv message⟩)
      (hdatagram : datagram = (s.endpoints p).datagram p (ackNotification aEnv)) :
      Steps wire s (.call c)
        { s with calls := s.calls.set c ⟨p, .returned⟩
                 network := s.network ++ [datagram] }
        (.returned c p aEnv message datagram)
  | sending {p : κ} {ep : Endpoint κ} {e : Event κ} (hsends : Sends wire p (s.endpoints p) ep e) :
      Steps wire s (.sender p) (s.put p ep) e
  | sent {p : κ} {aEnv : AddressedEnvelope κ} {attempt : Fin 5} {message : ProtobufItf.Envelope}
      {datagram : Datagram κ} (hs : (s.endpoints p).sender = .sending aEnv attempt message)
      (hdatagram : datagram = (s.endpoints p).datagram p aEnv) :
      Steps wire s (.sender p)
        { s.put p { s.endpoints p with sender := .waiting aEnv attempt } with
            network := s.network ++ [datagram] }
        (.sent p aEnv message datagram)
  | received {p : κ} {i : Nat} {datagram : Datagram κ} {aEnv : AddressedEnvelope κ}
      {bufferIn : RxTxBuffer} (hi : s.network[i]? = some datagram) (hdest : datagram.dest = p)
      (hpolling : (s.endpoints p).listener = .polling)
      (hsource : aEnv.sockInfo = datagram.source) (htag : aEnv.tag = datagram.tag)
      (hdecode : recvDataGram wire (s.endpoints p).bufferIn datagram.bytes =
        (.ok aEnv.env, bufferIn)) :
      Steps wire s (.receive p i)
        { s.put p { s.endpoints p with
                      bufferIn := bufferIn, listener := dispatchIncomingEnv aEnv } with
            network := s.network.eraseIdx i } (.received p datagram aEnv)
  | listened {p : κ} {ep : Endpoint κ} (hlistens : Listens (s.endpoints p) ep) :
      Steps wire s (.listener p) (s.put p ep) .quiet
  | lost {i : Nat} (hi : i < s.network.length) :
      Steps wire s (.lose i) { s with network := s.network.eraseIdx i } .quiet

/-- A push appends the element, or leaves a full queue as it is. -/
theorem push_cases {T : Type u} (q : Ring T messageQueueSize) (x : T) :
    ((q.push x).1 = true ∧ (q.push x).2.contents = q.contents ++ [x]) ∨
      ((q.push x).1 = false ∧ (q.push x).2.contents = q.contents) := by
  rcases q.push_eq x with ⟨hok, hcontents⟩
  by_cases hroom : q.contents.length < messageQueueSize.toNat
  · rw [decide_eq_true hroom] at hok
    rw [if_pos hroom] at hcontents
    exact .inl ⟨hok, hcontents⟩
  · rw [decide_eq_false hroom] at hok
    rw [if_neg hroom] at hcontents
    exact .inr ⟨hok, hcontents⟩

/-- A pop takes the first element, or leaves an empty queue as it is. -/
theorem pop_cases {T : Type u} (q : Ring T messageQueueSize) :
    (∃ x, q.pop.1 = some x ∧ q.contents = x :: q.pop.2.contents) ∨
      (q.pop.1 = none ∧ q.pop.2.contents = q.contents) := by
  rcases q.pop_eq with ⟨hitem, hcontents⟩
  cases hq : q.contents with
  | nil =>
      rw [hq] at hitem hcontents
      exact .inr ⟨hitem, hcontents⟩
  | cons x rest =>
      rw [hq] at hitem hcontents
      exact .inl ⟨x, hitem, by rw [hcontents, List.tail_cons]⟩

/-- What checking for an acknowledgement can come to. -/
theorem sends_of_checkAckQueue {wire : Wire} {p : κ} {ep : Endpoint κ}
    {aEnv : AddressedEnvelope κ} {attempt : Fin 5} (hs : ep.sender = .waiting aEnv attempt) :
    Sends wire p ep (checkAckQueue p ep aEnv attempt).1 (checkAckQueue p ep aEnv attempt).2 := by
  have hpop := pop_cases ep.ackQueue
  unfold checkAckQueue
  rcases hitem : ep.ackQueue.pop with ⟨item, q⟩
  rw [hitem] at hpop
  rcases hpop with ⟨pendingAck, rfl, hq⟩ | ⟨rfl, hq⟩
  · dsimp only
    split_ifs with hstamp hcounter
    · exact .acknowledged hs hq hstamp
    · exact .keeping hs hq rfl
    · exact .unanswered hs (hq ▸ List.sublist_cons_self _ _)
  · exact .unanswered hs (hq ▸ List.Sublist.refl _)

theorem listens_of_listen {ep ep' : Endpoint κ} (hlisten : listen ep = some ep') :
    Listens ep ep' := by
  cases hl : ep.listener with
  | polling => simp [listen, hl] at hlisten
  | storing aEnv =>
      have hpush := push_cases ep.inQueue aEnv
      rcases hresult : ep.inQueue.push aEnv with ⟨ok, q⟩
      rw [hresult] at hpush
      simp only [listen, hl, hresult] at hlisten
      rcases hpush with ⟨rfl, hq⟩ | ⟨rfl, hq⟩
      · cases hlisten
        exact .stored hl hq
      · cases hlisten
        exact .full hl hq
  | dropping aEnv =>
      simp only [listen, hl] at hlisten
      cases hlisten
      exact .dropped hl ep.inQueue.pop_eq.2
  | storingAck eAck =>
      have hpush := push_cases ep.ackQueue eAck
      rcases hresult : ep.ackQueue.push eAck with ⟨ok, q⟩
      rw [hresult] at hpush
      simp only [listen, hl, hresult] at hlisten
      rcases hpush with ⟨rfl, hq⟩ | ⟨rfl, hq⟩
      · cases hlisten
        exact .ackStored hl hq
      · cases hlisten
        exact .ackFull hl hq
  | droppingAck eAck =>
      simp only [listen, hl] at hlisten
      cases hlisten
      exact .ackDropped hl ep.ackQueue.pop_eq.2

section Kinds

variable [DecidableEq κ] {wire : Wire} {s s' : State κ} {e : Event κ}

theorem steps_of_tryReceiveEnvelope {p : κ} (hstep : tryReceiveEnvelope s p = (s', e)) :
    Steps wire s (.tryReceiveEnvelope p) s' e := by
  have hpop := pop_cases (s.endpoints p).inQueue
  simp only [tryReceiveEnvelope] at hstep
  rcases hitem : (s.endpoints p).inQueue.pop with ⟨item, q⟩
  rw [hitem] at hpop hstep
  rcases hpop with ⟨aEnv, rfl, hq⟩ | ⟨rfl, hq⟩
  · cases hstep
    exact .popped hq
  · cases hstep
    exact .receivedNothing hq

theorem steps_of_advance {c : Nat} {p : κ} {point : Point κ}
    (hc : s.calls[c]? = some ⟨p, point⟩) (hstep : advance wire s c p point = some (s', e)) :
    Steps wire s (.call c) s' e := by
  cases point with
  | queueing addrEnv =>
      cases hstep
      refine .queued hc ?_
      rcases push_cases (s.endpoints p).outQueue addrEnv with ⟨_, hq⟩ | ⟨_, hq⟩
      · exact .inl hq
      · exact .inr hq
  | acking aEnv =>
      simp only [advance] at hstep
      split at hstep <;> rename_i hput
      · cases hstep
      · cases hstep
        exact .ackFilled hc hput
  | sendingAck aEnv message =>
      cases hstep
      exact .returned hc rfl
  | returned => cases hstep

theorem steps_of_sendEnvFromOutQueue {p : κ}
    (hstep : sendEnvFromOutQueue wire s p = some (s', e)) : Steps wire s (.sender p) s' e := by
  cases hs : (s.endpoints p).sender with
  | idle =>
      have hpop := pop_cases (s.endpoints p).outQueue
      simp only [sendEnvFromOutQueue, hs] at hstep
      rcases hitem : (s.endpoints p).outQueue.pop with ⟨item, q⟩
      rw [hitem] at hpop hstep
      rcases hpop with ⟨aEnv, rfl, hq⟩ | ⟨rfl, hq⟩
      · cases hstep
        exact .sending (.took hs hq)
      · cases hstep
        exact .sending (.idle hs hq)
  | filling aEnv attempt =>
      simp only [sendEnvFromOutQueue, hs] at hstep
      split at hstep <;> rename_i hput
      · cases hstep
      · cases hstep
        exact .sending (.filled hs hput)
  | sending aEnv attempt message =>
      simp only [sendEnvFromOutQueue, hs] at hstep
      cases hstep
      exact .sent hs rfl
  | waiting aEnv attempt =>
      simp only [sendEnvFromOutQueue, hs] at hstep
      cases hstep
      exact .sending (sends_of_checkAckQueue hs)
  | requeuing aEnv attempt pendingAck =>
      simp only [sendEnvFromOutQueue, hs] at hstep
      cases hstep
      refine .sending (.requeued hs ?_)
      rcases push_cases (s.endpoints p).ackQueue pendingAck with ⟨_, hq⟩ | ⟨_, hq⟩
      · rw [hq]
      · rw [hq]
        exact List.sublist_append_left _ _

theorem steps_of_receive {p : κ} {i : Nat} {datagram : Datagram κ}
    (hi : s.network[i]? = some datagram)
    (hstep : receive wire s p i datagram = some (s', e)) : Steps wire s (.receive p i) s' e := by
  unfold receive at hstep
  split at hstep <;> rename_i hpolling
  · split_ifs at hstep with hdest
    rcases hdecode : recvDataGram wire (s.endpoints p).bufferIn datagram.bytes with
      ⟨env | env, bufferIn⟩
    · rw [hdecode] at hstep
      cases hstep
    · rw [hdecode] at hstep
      cases hstep
      exact .received hi hdest hpolling rfl rfl hdecode
  · cases hstep

/-- Every step is of one of the kinds. -/
theorem steps_of_step {a : Action κ} (hstep : step wire s a = some (s', e)) :
    Steps wire s a s' e := by
  cases a with
  | sendEnvelope p envelope receiverInfo now =>
      simp only [step, sendEnvelope] at hstep
      split_ifs at hstep with hclock
      cases hstep
      exact .stamped rfl hclock
  | tryReceiveEnvelope p => exact steps_of_tryReceiveEnvelope (Option.some.inj hstep)
  | call c =>
      rcases Option.bind_eq_some_iff.mp hstep with ⟨⟨p, point⟩, hc, hcall⟩
      exact steps_of_advance hc hcall
  | sender p => exact steps_of_sendEnvFromOutQueue hstep
  | receive p i =>
      rcases Option.bind_eq_some_iff.mp hstep with ⟨datagram, hi, hreceive⟩
      exact steps_of_receive hi hreceive
  | listener p =>
      rcases Option.map_eq_some_iff.mp hstep with ⟨ep, hlisten, hpair⟩
      cases hpair
      exact .listened (listens_of_listen hlisten)
  | lose i =>
      simp only [step] at hstep
      split_ifs at hstep with hi
      cases hstep
      exact .lost hi

end Kinds

end UdpEndpointBase

end SimpleMessenger
