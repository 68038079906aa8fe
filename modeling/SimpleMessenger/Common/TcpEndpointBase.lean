import Mathlib.Algebra.Order.BigOperators.Group.List
import Mathlib.Algebra.Order.Ring.Nat
import SimpleMessenger.Common.EndpointBase

/-!
# Envelopes over TCP

The TCP endpoints of `TcpEndpointBase.cpp` put the bytes of an envelope object
into a stream and take them out again.  The socket may accept fewer bytes than it
is given and may return fewer than it is asked for; how many it was is only
logged.  A connection is described by its turns, that is by how many bytes each
call moves, and is run on the envelope objects to be sent.

Main results:

- Theorem {lit}`run_pending`: with whole envelopes moved, the stream holds the
  envelopes on their way and nothing else.
- Theorem {lit}`delivers_iff`: the turns that deliver every list of envelopes.

Current gaps:

- A lost connection, on which both calls return -1, is left out.
-/

namespace SimpleMessenger

open CMemory

/-! ## Envelopes in memory -/

/-- Offset of the member with the given number in a structure. -/
def memberOffset (members : List (Nat × Nat)) (i : Nat) : Nat :=
  alignUp ((members.take i).foldl (fun offset m => alignUp offset m.2 + m.1) 0)
    ((members[i]?.map (·.2)).getD 1)

/-- The number stored in the given bytes of an object. -/
def loadNat (object : Bytes) (offset size : Nat) : Nat :=
  LittleEndian.value ((object.drop offset).take size)

def headerMembers : List (Nat × Nat) :=
  [(8, 8), (8, 8), (1, 1), (4, 4)]

def envelopeMetaMembers : List (Nat × Nat) :=
  [(sizeofHeader, 8), (1, 1), (8, 8), (8, 8)]

def envelopeMembers : List (Nat × Nat) :=
  [(sizeofEnvelopeMeta, 8), (sizeofPayload, 1)]

/-- The header in the first bytes of an envelope object. -/
def Header.ofBytes (object : Bytes) : Header where
  payloadSize := UInt64.ofNat (loadNat object (memberOffset headerMembers 0) 8)
  totalSize := UInt64.ofNat (loadNat object (memberOffset headerMembers 1) 8)
  messageType := ⟨UInt8.ofNat (loadNat object (memberOffset headerMembers 2) 1)⟩
  timestamp := UInt32.ofNat (loadNat object (memberOffset headerMembers 3) 4)

/-- The metadata, which start with the header. -/
def EnvelopeMeta.ofBytes (object : Bytes) : EnvelopeMeta where
  header := Header.ofBytes object
  type := ⟨UInt8.ofNat (loadNat object (memberOffset envelopeMetaMembers 1) 1)⟩
  senderId := UInt64.ofNat (loadNat object (memberOffset envelopeMetaMembers 2) 8)
  recepientId := UInt64.ofNat (loadNat object (memberOffset envelopeMetaMembers 3) 8)

/-- The envelope that an object of its size holds, padding apart. -/
def Envelope.ofBytes (object : CharArray sizeofEnvelope) : Envelope where
  metaData := EnvelopeMeta.ofBytes object.bytes
  payload :=
    ⟨object.bytes.drop (memberOffset envelopeMembers 1), by
      rw [List.length_drop, object.length_eq]
      rfl⟩

example : memberOffset headerMembers 3 = 20 ∧ memberOffset envelopeMetaMembers 3 = 40 ∧
    memberOffset envelopeMembers 1 = 48 := by
  decide

namespace TcpEndpointBase

/-! ## The two calls -/

/-- `sendEnvelope`: the socket accepts the first `accepted` bytes. -/
def sendEnvelope (stream : Bytes) (envelope : CharArray sizeofEnvelope) (accepted : Nat) : Bytes :=
  stream ++ envelope.bytes.take accepted

/-- `receiveEnvelope`: the socket returns the next `n` bytes, which are stored at
the front of a zeroed object. -/
def receiveEnvelope (stream : Bytes) (n : Nat) : CharArray sizeofEnvelope × Bytes :=
  ((CharArray.zeros sizeofEnvelope).overlay (stream.take n), stream.drop n)

/-- One call on either side, by the number of bytes that its socket moves. -/
inductive Turn where
  | send (accepted : Nat)
  | recv (n : Nat)
deriving DecidableEq

def Turn.moved : Turn → Nat
  | .send accepted => accepted
  | .recv n => n

/-- What a socket can do: at least one byte, at most the number requested. -/
def Turn.Possible (turn : Turn) : Prop :=
  1 ≤ turn.moved ∧ turn.moved ≤ sizeofEnvelope

instance (turn : Turn) : Decidable turn.Possible :=
  inferInstanceAs (Decidable (_ ∧ _))

/-- Run the turns, sending the given objects in order, until the objects and the
stream are exhausted; the result is what the other side received. -/
def run : List Turn → List (CharArray sizeofEnvelope) → Bytes →
    Option (List (CharArray sizeofEnvelope))
  | [], sent, stream => if sent = [] ∧ stream = [] then some [] else none
  | .send accepted :: turns, sent, stream =>
      match sent with
      | [] => none
      | envelope :: sent =>
          if (Turn.send accepted).Possible then
            run turns sent (sendEnvelope stream envelope accepted)
          else none
  | .recv n :: turns, sent, stream =>
      if (Turn.recv n).Possible ∧ n ≤ stream.length then
        (run turns sent (receiveEnvelope stream n).2).map ((receiveEnvelope stream n).1 :: ·)
      else none

/-- The turns can take place. -/
def CanRun (turns : List Turn) : Prop :=
  ∃ sent received, run turns sent [] = some received

/-- The turns deliver every list of envelopes. -/
def Delivers (turns : List Turn) : Prop :=
  ∀ sent received : List (CharArray sizeofEnvelope), run turns sent [] = some received →
    received.map Envelope.ofBytes = sent.map Envelope.ofBytes

section Turns

variable {turns : List Turn} {sent received : List (CharArray sizeofEnvelope)} {stream : Bytes}

theorem run_nil_eq_some_iff :
    run [] sent stream = some received ↔ sent = [] ∧ stream = [] ∧ received = [] := by
  by_cases hdone : sent = [] ∧ stream = []
  · simp [run, hdone, eq_comm]
  · simp only [run, if_neg hdone]
    constructor
    · intro h
      contradiction
    · intro h
      exact absurd ⟨h.1, h.2.1⟩ hdone

theorem run_send_eq_some_iff {accepted : Nat} :
    run (.send accepted :: turns) sent stream = some received ↔
      ∃ envelope rest, sent = envelope :: rest ∧ (Turn.send accepted).Possible ∧
        run turns rest (sendEnvelope stream envelope accepted) = some received := by
  cases sent with
  | nil => simp [run]
  | cons envelope rest => by_cases hpossible : (Turn.send accepted).Possible <;> simp [run, hpossible]

theorem run_recv_eq_some_iff {n : Nat} :
    run (.recv n :: turns) sent stream = some received ↔
      (Turn.recv n).Possible ∧ n ≤ stream.length ∧
        ∃ rest, run turns sent (stream.drop n) = some rest ∧
          received = (receiveEnvelope stream n).1 :: rest := by
  by_cases hpossible : (Turn.recv n).Possible ∧ n ≤ stream.length
  · rw [run, if_pos hpossible, Option.map_eq_some_iff]
    constructor
    · rintro ⟨rest, hrun, rfl⟩
      exact ⟨hpossible.1, hpossible.2, rest, hrun, rfl⟩
    · rintro ⟨_, _, rest, hrun, rfl⟩
      exact ⟨rest, hrun, rfl⟩
  · simp only [run, if_neg hpossible]
    constructor
    · intro h
      contradiction
    · intro h
      exact absurd ⟨h.1, h.2.1⟩ hpossible

end Turns

/-! ## Whole envelopes -/

theorem take_bytes (envelope : CharArray sizeofEnvelope) :
    envelope.bytes.take sizeofEnvelope = envelope.bytes :=
  List.take_of_length_le (by rw [envelope.length_eq])

/-- With whole envelopes moved, what is received is what was on its way and what
was sent. -/
theorem run_pending {turns : List Turn} (hwhole : ∀ turn ∈ turns, turn.moved = sizeofEnvelope) :
    ∀ {pending sent received : List (CharArray sizeofEnvelope)},
      run turns sent (pending.flatMap CharArray.bytes) = some received →
        received = pending ++ sent := by
  induction turns with
  | nil =>
      intro pending sent received hrun
      rcases run_nil_eq_some_iff.mp hrun with ⟨rfl, hstream, rfl⟩
      cases pending with
      | nil => rfl
      | cons envelope pending =>
          rw [List.flatMap_cons] at hstream
          have hlen := envelope.length_eq
          rw [(List.append_eq_nil_iff.mp hstream).1] at hlen
          exact absurd hlen (by decide)
  | cons turn turns ih =>
      intro pending sent received hrun
      have hone : turn.moved = sizeofEnvelope := hwhole turn List.mem_cons_self
      have hrest : ∀ t ∈ turns, t.moved = sizeofEnvelope := fun t ht =>
        hwhole t (List.mem_cons_of_mem turn ht)
      cases turn with
      | send accepted =>
          have haccepted : accepted = sizeofEnvelope := hone
          subst haccepted
          rcases run_send_eq_some_iff.mp hrun with ⟨envelope, sent', rfl, _, hrun'⟩
          have hstream : sendEnvelope (pending.flatMap CharArray.bytes) envelope sizeofEnvelope =
              (pending ++ [envelope]).flatMap CharArray.bytes := by
            simp [sendEnvelope, take_bytes]
          rw [hstream] at hrun'
          simpa using ih hrest hrun'
      | recv n =>
          have hn : n = sizeofEnvelope := hone
          subst hn
          rcases run_recv_eq_some_iff.mp hrun with ⟨_, hroom, rest, hrun', rfl⟩
          cases pending with
          | nil => exact absurd hroom (by decide)
          | cons envelope pending =>
              have htake : (List.flatMap CharArray.bytes (envelope :: pending)).take
                  sizeofEnvelope = envelope.bytes :=
                List.take_left' envelope.length_eq
              have hdrop : (List.flatMap CharArray.bytes (envelope :: pending)).drop
                  sizeofEnvelope = pending.flatMap CharArray.bytes :=
                List.drop_left' envelope.length_eq
              rw [hdrop] at hrun'
              rw [receiveEnvelope, htake, CharArray.overlay_of_length_eq, ih hrest hrun']
              rfl

/-! ## Pieces of envelopes -/

/-- The numbers of bytes that the send calls move. -/
def accepts (turns : List Turn) : List Nat :=
  turns.filterMap fun
    | .send accepted => some accepted
    | .recv _ => none

/-- The numbers of bytes that the receive calls move. -/
def pieces (turns : List Turn) : List Nat :=
  turns.filterMap fun
    | .send _ => none
    | .recv n => some n

@[simp]
theorem accepts_send (accepted : Nat) (turns : List Turn) :
    accepts (.send accepted :: turns) = accepted :: accepts turns :=
  rfl

@[simp]
theorem accepts_recv (n : Nat) (turns : List Turn) : accepts (.recv n :: turns) = accepts turns :=
  rfl

@[simp]
theorem pieces_send (accepted : Nat) (turns : List Turn) :
    pieces (.send accepted :: turns) = pieces turns :=
  rfl

@[simp]
theorem pieces_recv (n : Nat) (turns : List Turn) :
    pieces (.recv n :: turns) = n :: pieces turns :=
  rfl

theorem mem_accepts {turns : List Turn} {accepted : Nat} :
    accepted ∈ accepts turns ↔ .send accepted ∈ turns := by
  rw [accepts, List.mem_filterMap]
  constructor
  · rintro ⟨turn, hturn, hsome⟩
    cases turn <;> cases hsome
    exact hturn
  · intro hturn
    exact ⟨_, hturn, rfl⟩

theorem mem_pieces {turns : List Turn} {n : Nat} : n ∈ pieces turns ↔ .recv n ∈ turns := by
  rw [pieces, List.mem_filterMap]
  constructor
  · rintro ⟨turn, hturn, hsome⟩
    cases turn <;> cases hsome
    exact hturn
  · intro hturn
    exact ⟨_, hturn, rfl⟩

/-- An object without a zero byte. -/
def ones : CharArray sizeofEnvelope :=
  ⟨List.replicate sizeofEnvelope 1, List.length_replicate⟩

/-- What a receive call makes of `n` bytes of it. -/
def onesPiece (n : Nat) : CharArray sizeofEnvelope :=
  (CharArray.zeros sizeofEnvelope).overlay (List.replicate n 1)

/-- Which turns are possible depends on the numbers of bytes only: the same turns
can move objects without a zero byte. -/
theorem run_ones {turns : List Turn} :
    ∀ {sent received : List (CharArray sizeofEnvelope)} {stream : Bytes},
      run turns sent stream = some received →
        run turns (List.replicate sent.length ones) (List.replicate stream.length 1) =
            some ((pieces turns).map onesPiece) ∧
          sent.length = (accepts turns).length ∧
          stream.length + (accepts turns).sum = (pieces turns).sum ∧
          ∀ turn ∈ turns, turn.Possible := by
  induction turns with
  | nil =>
      intro sent received stream hrun
      rcases run_nil_eq_some_iff.mp hrun with ⟨rfl, rfl, _⟩
      exact ⟨rfl, rfl, rfl, by simp⟩
  | cons turn turns ih =>
      intro sent received stream hrun
      cases turn with
      | send accepted =>
          rcases run_send_eq_some_iff.mp hrun with ⟨envelope, sent', rfl, hpossible, hrun'⟩
          rcases ih hrun' with ⟨hones, hsent, hstream, hall⟩
          have hlen : (sendEnvelope stream envelope accepted).length =
              stream.length + accepted := by
            have hle : accepted ≤ sizeofEnvelope := hpossible.2
            rw [sendEnvelope, List.length_append, List.length_take, envelope.length_eq]
            omega
          have hput : sendEnvelope (List.replicate stream.length 1) ones accepted =
              List.replicate (stream.length + accepted) 1 := by
            have hle : accepted ≤ sizeofEnvelope := hpossible.2
            rw [sendEnvelope, ones, List.take_replicate, Nat.min_eq_left hle,
              List.replicate_append_replicate]
          rw [hlen] at hones hstream
          refine ⟨?_, ?_, ?_, ?_⟩
          · exact run_send_eq_some_iff.mpr ⟨ones, List.replicate sent'.length ones, rfl,
              hpossible, by rw [hput]; exact hones⟩
          · simp [hsent]
          · rw [accepts_send, pieces_send, List.sum_cons]
            omega
          · simpa using ⟨hpossible, hall⟩
      | recv n =>
          rcases run_recv_eq_some_iff.mp hrun with ⟨hpossible, hroom, rest, hrun', rfl⟩
          rcases ih hrun' with ⟨hones, hsent, hstream, hall⟩
          rw [List.length_drop] at hones hstream
          refine ⟨?_, hsent, ?_, ?_⟩
          · refine run_recv_eq_some_iff.mpr ⟨hpossible, by simpa using hroom,
              (pieces turns).map onesPiece, ?_, ?_⟩
            · rw [List.drop_replicate]
              exact hones
            · rw [receiveEnvelope, List.take_replicate, Nat.min_eq_left hroom]
              rfl
          · rw [accepts_recv, pieces_recv, List.sum_cons]
            omega
          · simpa using ⟨hpossible, hall⟩

/-- Fewer bytes than an envelope has do not make the envelope. -/
theorem ofBytes_onesPiece_ne {n : Nat} (hn : n < sizeofEnvelope) :
    Envelope.ofBytes (onesPiece n) ≠ Envelope.ofBytes ones := by
  intro heq
  -- the last byte of the text arrives last
  have hpayload := congrArg (fun env : Envelope => env.payload.bytes[975]?) heq
  change ((onesPiece n).bytes.drop 48)[975]? = (ones.bytes.drop 48)[975]? at hpayload
  rw [List.getElem?_drop, List.getElem?_drop] at hpayload
  have hones : ones.bytes[48 + 975]? = some 1 := by
    change (List.replicate 1024 (1 : UInt8))[48 + 975]? = _
    rw [List.getElem?_replicate]
    rfl
  have hpiece : (onesPiece n).bytes[48 + 975]? = some 0 := by
    have hle : n ≤ 48 + 975 := Nat.le_of_lt_succ hn
    change ((List.replicate n (1 : UInt8)).take 1024 ++
      (List.replicate 1024 (0 : UInt8)).drop (List.replicate n (1 : UInt8)).length)[48 + 975]? = _
    rw [List.length_replicate, List.take_replicate, List.drop_replicate,
      List.getElem?_append_right (by rw [List.length_replicate]; omega), List.getElem?_replicate,
      List.length_replicate, if_pos (by omega)]
  rw [hones, hpiece] at hpayload
  exact absurd hpayload (by decide)

/-- Numbers that reach their common bound together reach it one by one. -/
theorem eq_of_sum_eq {m : Nat} {ns : List Nat} (hle : ∀ n ∈ ns, n ≤ m)
    (hsum : m * ns.length ≤ ns.sum) : ∀ n ∈ ns, n = m := by
  induction ns with
  | nil => simp
  | cons k ns ih =>
      have hk : k ≤ m := hle k List.mem_cons_self
      have hrest : ∀ n ∈ ns, n ≤ m := fun n hn => hle n (List.mem_cons_of_mem k hn)
      have hbound : ns.sum ≤ m * ns.length := by
        have hcard := List.sum_le_card_nsmul ns m hrest
        rwa [nsmul_eq_mul, Nat.cast_id, Nat.mul_comm] at hcard
      rw [List.sum_cons, List.length_cons, Nat.mul_succ] at hsum
      intro n hn
      rcases List.mem_cons.mp hn with rfl | hn
      · omega
      · exact ih hrest (by omega) n hn

/-- The turns deliver every list of envelopes exactly when every call, on either
side, moves a whole envelope. -/
theorem delivers_iff {turns : List Turn} (hrun : CanRun turns) :
    Delivers turns ↔ ∀ turn ∈ turns, turn.moved = sizeofEnvelope := by
  constructor
  · intro hdelivers
    rcases hrun with ⟨sent, received, hrun⟩
    rcases run_ones hrun with ⟨hones, hsent, hsum, hpossible⟩
    have hsame := hdelivers _ _ hones
    rw [List.map_map, List.map_replicate] at hsame
    rcases List.eq_replicate_iff.mp hsame with ⟨hlength, hall⟩
    rw [List.length_map] at hlength
    -- a short piece would show in the object without a zero byte
    have hpieces : ∀ n ∈ pieces turns, n = sizeofEnvelope := by
      intro n hn
      have hle : n ≤ sizeofEnvelope := (hpossible _ (mem_pieces.mp hn)).2
      by_contra hne
      refine ofBytes_onesPiece_ne (lt_of_le_of_ne hle hne) ?_
      exact hall _ (List.mem_map.mpr ⟨n, hn, rfl⟩)
    have htotal : (pieces turns).sum = sizeofEnvelope * (accepts turns).length := by
      rw [List.eq_replicate_of_mem hpieces, List.sum_replicate, nsmul_eq_mul, Nat.cast_id,
        hlength, hsent, Nat.mul_comm]
    -- so the pieces leave no room for a call that accepted less
    have haccepts : ∀ accepted ∈ accepts turns, accepted = sizeofEnvelope := by
      refine eq_of_sum_eq (fun accepted hmem => (hpossible _ (mem_accepts.mp hmem)).2) ?_
      rw [← htotal, ← hsum]
      exact Nat.le_of_eq (Nat.zero_add _)
    intro turn hturn
    cases turn with
    | send accepted => exact haccepts accepted (mem_accepts.mpr hturn)
    | recv n => exact hpieces n (mem_pieces.mpr hturn)
  · intro hwhole sent received hrun
    have hreceived : received = [] ++ sent := run_pending hwhole hrun
    rw [hreceived, List.nil_append]

/-- Three envelopes, each in one piece; the first is received between the sending of the
others. -/
def interleaved : List Turn :=
  [.send sizeofEnvelope, .send sizeofEnvelope, .recv sizeofEnvelope, .send sizeofEnvelope,
    .recv sizeofEnvelope, .recv sizeofEnvelope]

/-- The three of them are delivered. -/
theorem delivers_whole : CanRun interleaved ∧ Delivers interleaved := by
  have hrun : CanRun interleaved :=
    ⟨[ones, .zeros sizeofEnvelope, ones], [ones, .zeros sizeofEnvelope, ones],
      by decide +kernel⟩
  exact ⟨hrun, (delivers_iff hrun).mpr (by decide)⟩

/-- One envelope that arrives in two pieces is received as two. -/
theorem delivers_fails :
    run [.send sizeofEnvelope, .recv 1000, .recv 24] [ones] [] =
        some [onesPiece 1000, onesPiece 24] ∧
      ¬ Delivers [.send sizeofEnvelope, .recv 1000, .recv 24] := by
  have hrun : run [.send sizeofEnvelope, .recv 1000, .recv 24] [ones] [] =
      some [onesPiece 1000, onesPiece 24] := by
    decide +kernel
  refine ⟨hrun, fun hdelivers => ?_⟩
  have hlength := congrArg List.length (hdelivers _ _ hrun)
  exact absurd hlength (by simp)

end TcpEndpointBase

end SimpleMessenger
