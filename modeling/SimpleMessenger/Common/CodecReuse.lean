import SimpleMessenger.Common.MessageProcessing

/-!
# The codec over one protobuf object

The streams of the gRPC server, its client and the UDP endpoints encode message
after message into one protobuf object that is never cleared.  The encoder
assigns every field that the decoder reads, so decoding right after encoding
gives the envelope that was encoded, whatever the object held before.

Main results:

- Theorem {lit}`getEnvFromProtoBuf_encodedEnvelope`: what decoding gives back
  does not depend on the object encoded into.
- Theorem {lit}`putAllToProtoBuf_normalForm`: over a whole sequence of encodings
  every message decodes to the normal form of its own envelope.
-/

namespace SimpleMessenger

open CMemory

/-! ## Normal forms -/

/-- The value has a case in the switches of the codec. -/
def MessageType.IsEnumerator (type : MessageType) : Prop :=
  type = .UserMessage ∨ type = .ServiceMessage ∨ type = .AckMessage

/-- The value has a case in the switches of the codec. -/
def DataType.IsEnumerator (type : DataType) : Prop :=
  type = .TextMessage ∨ type = .FileMessage

instance (type : MessageType) : Decidable type.IsEnumerator :=
  inferInstanceAs (Decidable (_ ∨ _ ∨ _))

instance (type : DataType) : Decidable type.IsEnumerator :=
  inferInstanceAs (Decidable (_ ∨ _))

/-- An envelope that the encoder can carry: both types are enumerators and the
text array is terminated. -/
structure Envelope.Encodable (env : Envelope) : Prop where
  messageType_known : (getMessageType env).IsEnumerator
  type_known : env.metaData.type.IsEnumerator
  terminated : (0 : UInt8) ∈ env.payload.bytes

/-- What is left of an envelope after encoding and decoding it. -/
def Envelope.normalForm (env : Envelope) : Envelope where
  metaData :=
    { env.metaData with
      header := { env.metaData.header with payloadSize := 0, totalSize := 0 } }
  payload := env.payload.clearedTail

/-! ## One encoding -/

/-- Encoding a terminated envelope succeeds, whatever object it goes into. -/
theorem putEnvToProtoBuf_of_terminated {env : Envelope}
    (hzero : (0 : UInt8) ∈ env.payload.bytes) (old : ProtobufItf.Envelope) :
    putEnvToProtoBuf env old = .ok (encodedEnvelope env old (cstr env.payload.bytes)) :=
  putEnvToProtoBuf_eq_ok_iff.mpr ⟨_, CharArray.cstring_eq_ok_iff.mpr ⟨hzero, rfl⟩, rfl⟩

/-- An enumerator survives both message-type switches. -/
theorem ofProto_toProtoMessageType {type : MessageType} (hknown : type.IsEnumerator)
    (old : Int32) : ofProtoMessageType (toProtoMessageType type old) .UserMessage = type := by
  rcases hknown with rfl | rfl | rfl <;> rfl

/-- An enumerator survives both data-type switches. -/
theorem ofProto_toProtoDataType {type : DataType} (hknown : type.IsEnumerator) (old : Int32) :
    ofProtoDataType (toProtoDataType type old) .TextMessage = type := by
  rcases hknown with rfl | rfl <;> rfl

/-- Decoding what was just encoded gives the normal form of the envelope; what
the object held before does not matter. -/
theorem getEnvFromProtoBuf_encodedEnvelope {env : Envelope} (henv : env.Encodable)
    (old : ProtobufItf.Envelope) :
    getEnvFromProtoBuf (encodedEnvelope env old (cstr env.payload.bytes)) =
      .ok env.normalForm := by
  rw [getEnvFromProtoBuf_eq_ok_iff]
  constructor
  · have hmessageType := ofProto_toProtoMessageType henv.messageType_known
      old.metaData.header.messageType
    have htype := ofProto_toProtoDataType henv.type_known old.metaData.type
    change env.normalForm.metaData = EnvelopeMeta.mk (Header.mk 0 0
      (ofProtoMessageType (toProtoMessageType _ _) _) _) (ofProtoDataType (toProtoDataType _ _) _)
      _ _
    rw [hmessageType, htype]
    rfl
  · change (CharArray.zeros sizeofPayload).memcpy (cstr (cstr env.payload.bytes)) = _
    rw [cstr_cstr, CharArray.memcpy_zeros_cstr]
    rfl

/-- The normal form can be encoded again. -/
theorem Envelope.Encodable.normalForm {env : Envelope} (henv : env.Encodable) :
    env.normalForm.Encodable where
  messageType_known := henv.messageType_known
  type_known := henv.type_known
  terminated := (CharArray.cstring_eq_ok_iff.mp (CharArray.cstring_clearedTail henv.terminated)).1

/-- A normal form is its own normal form. -/
theorem Envelope.normalForm_normalForm {env : Envelope} (henv : env.Encodable) :
    env.normalForm.normalForm = env.normalForm := by
  change Envelope.mk _ (CharArray.clearedTail env.payload.clearedTail) = _
  rw [CharArray.clearedTail_clearedTail henv.terminated]
  rfl

/-! ## A sequence of encodings -/

/-- Encode the envelopes one after the other into the object `protoEnv`; the
results are its contents after each of them. -/
def putAllToProtoBuf (protoEnv : ProtobufItf.Envelope) :
    List Envelope → Checked (List ProtobufItf.Envelope)
  | [] => .ok []
  | env :: envs => do
      let message ← putEnvToProtoBuf env protoEnv
      let messages ← putAllToProtoBuf message envs
      return message :: messages

/-- What a message decodes to, and what encoding that again into the same object
and decoding once more gives. -/
structure DecodesTo (message : ProtobufItf.Envelope) (env : Envelope) : Prop where
  decoded : getEnvFromProtoBuf message = .ok env
  again : ∃ message', putEnvToProtoBuf env message = .ok message' ∧
    getEnvFromProtoBuf message' = .ok env

theorem decodesTo_normalForm {env : Envelope} (henv : env.Encodable)
    (old : ProtobufItf.Envelope) :
    DecodesTo (encodedEnvelope env old (cstr env.payload.bytes)) env.normalForm where
  decoded := getEnvFromProtoBuf_encodedEnvelope henv old
  again := by
    refine ⟨_, putEnvToProtoBuf_of_terminated henv.normalForm.terminated _, ?_⟩
    rw [getEnvFromProtoBuf_encodedEnvelope henv.normalForm, Envelope.normalForm_normalForm henv]

/-- The same for an object that may already have been used. -/
theorem putAllToProtoBuf_from (envs : List Envelope) (henvs : ∀ env ∈ envs, env.Encodable) :
    ∀ old : ProtobufItf.Envelope, ∃ messages, putAllToProtoBuf old envs = .ok messages ∧
      List.Forall₂ (fun env message => DecodesTo message env.normalForm) envs messages := by
  induction envs with
  | nil =>
      intro old
      exact ⟨[], rfl, .nil⟩
  | cons env envs ih =>
      intro old
      have henv : env.Encodable := henvs env List.mem_cons_self
      have hencode := putEnvToProtoBuf_of_terminated henv.terminated old
      rcases ih (fun env' hmem => henvs env' (List.mem_cons_of_mem env hmem))
        (encodedEnvelope env old (cstr env.payload.bytes)) with ⟨messages, hmessages, hdecode⟩
      refine ⟨_ :: messages, ?_, .cons (decodesTo_normalForm henv old) hdecode⟩
      simp only [putAllToProtoBuf, bind_eq_ok_iff]
      exact ⟨_, hencode, messages, hmessages, rfl⟩

/-- Every envelope of a sequence encoded into one object, initially empty and
never cleared, decodes to its own normal form, independently of the envelopes
before it; encoding and decoding once more changes nothing. -/
theorem putAllToProtoBuf_normalForm (envs : List Envelope)
    (henvs : ∀ env ∈ envs, env.Encodable) :
    ∃ messages, putAllToProtoBuf {} envs = .ok messages ∧
      List.Forall₂ (fun env message => DecodesTo message env.normalForm) envs messages :=
  putAllToProtoBuf_from envs henvs {}

/-- A file message with a long text and a set size field. -/
def fileMessage : Envelope where
  metaData :=
    { header := { payloadSize := 234, messageType := .ServiceMessage, timestamp := 7 }
      type := .FileMessage, senderId := 2, recepientId := 1 }
  payload := CharArray.ofText sizeofPayload (ascii "a longer text")

/-- An acknowledgement with a short text. -/
def shortAck : Envelope where
  metaData := { header := { messageType := .AckMessage, timestamp := 8 } }
  payload := CharArray.ofText sizeofPayload (ascii "ok")

/-- The shorter message is encoded into the object that held the longer one. -/
theorem putAllToProtoBuf_two :
    ∃ messages, putAllToProtoBuf {} [fileMessage, shortAck] = .ok messages ∧
      List.Forall₂ (fun env message => DecodesTo message env.normalForm)
        [fileMessage, shortAck] messages := by
  refine putAllToProtoBuf_normalForm _ fun env henv => ?_
  rcases List.mem_cons.mp henv with rfl | hrest
  · exact ⟨by decide, by decide, by decide +kernel⟩
  · rw [List.mem_singleton.mp hrest]
    exact ⟨by decide, by decide, by decide +kernel⟩

end SimpleMessenger
