import SimpleMessenger.Common.UdpDatagrams

/-!
# The largest serialised envelope

The output buffer of an endpoint has room for 1024 bytes.  Nothing checks the size of
what is serialised into it: {lit}`putEnvToProtoBuf` compares the size with the room, but
its callers go on in either case.  The sum of all keys, lengths and numbers at their
largest is 1014.

Main results:

- Theorem {lit}`length_serializeEnvelope_le`: the largest size of an envelope whose size
  fields are unset and whose types are small.
- Theorem {lit}`putEnvToProtoBuf_fits`: what the encoder produces fits the output buffer.
- Theorem {lit}`sendAll_eq_ok`: no sequence of transmissions leaves the buffer.
-/

namespace SimpleMessenger

open CMemory ProtobufWire ProtobufItf EndpointBase

namespace UdpEndpointBase

/-! ## Sizes of the parts -/

/-- A header without sizes: a type in one byte and 32 bits in five. -/
theorem length_headerFields_le_of_small {h : ProtobufItf.Header} (hpayloadSize : h.payloadSize = 0)
    (htotalSize : h.totalSize = 0) (htype : ofEnum h.messageType < 128) :
    (writeFields (headerFields h)).length ≤ 8 := by
  have hstamp : h.timestamp.toNat < 128 ^ 5 := Nat.lt_trans h.timestamp.toNat_lt (by decide)
  have h₁ : writeFields (omitZero 1 h.payloadSize.toNat) = [] := by
    rw [hpayloadSize]
    rfl
  have h₂ : writeFields (omitZero 2 h.totalSize.toNat) = [] := by
    rw [htotalSize]
    rfl
  have h₃ : (writeFields (omitZero 3 (ofEnum h.messageType))).length ≤ 1 + 1 :=
    length_omitZero_le_of_lt (by decide) Nat.one_pos htype
  have h₄ : (writeFields (omitZero 4 h.timestamp.toNat)).length ≤ 1 + 5 :=
    length_omitZero_le_of_lt (by decide) (by decide) hstamp
  simp only [headerFields, writeFields_append, List.length_append, h₁, h₂, List.length_nil]
  omega

/-- Metadata with such a header: two identifiers of 64 bits in ten bytes each. -/
theorem length_metaFields_le_of_small {m : ProtobufItf.EnvelopeMeta}
    (hheader : (writeFields (headerFields m.header)).length ≤ 8)
    (htype : ofEnum m.type < 128) : (writeFields (metaFields m)).length ≤ 34 := by
  have hfield : (writeFields (m.header?.map fun h =>
      (⟨1, .bytes (writeFields (headerFields h))⟩ : Field)).toList).length ≤ 10 := by
    cases hh : m.header? with
    | none => simp
    | some h =>
        rw [ProtobufItf.EnvelopeMeta.header, hh, Option.getD_some] at hheader
        have hlen : (writeField ⟨1, .bytes (writeFields (headerFields h))⟩).length ≤ 1 + 1 + _ :=
          length_writeField_bytes_le_of_lt (by decide) _ Nat.one_pos (by omega)
        rw [Option.map_some, Option.toList_some, writeFields_singleton]
        omega
  have hsender : m.senderId.toNat < 128 ^ 10 := Nat.lt_trans m.senderId.toNat_lt (by decide)
  have hrecepient : m.recepientId.toNat < 128 ^ 10 :=
    Nat.lt_trans m.recepientId.toNat_lt (by decide)
  have h₂ : (writeFields (omitZero 2 (ofEnum m.type))).length ≤ 1 + 1 :=
    length_omitZero_le_of_lt (by decide) Nat.one_pos htype
  have h₃ : (writeFields (omitZero 3 m.senderId.toNat)).length ≤ 1 + 10 :=
    length_omitZero_le_of_lt (by decide) (by decide) hsender
  have h₄ : (writeFields (omitZero 4 m.recepientId.toNat)).length ≤ 1 + 10 :=
    length_omitZero_le_of_lt (by decide) (by decide) hrecepient
  simp only [metaFields, writeFields_append, List.length_append]
  omega

/-- What bounds the size of an envelope. -/
structure Small (p : ProtobufItf.Envelope) : Prop where
  sizesUnset : SizesUnset p
  messageType_lt : ofEnum p.metaData.header.messageType < 128
  type_lt : ofEnum p.metaData.type < 128
  payload_le : p.payload.length < sizeofPayload

theorem length_serializeEnvelope_le {p : ProtobufItf.Envelope} (hsmall : Small p) :
    (serializeEnvelope p).length ≤ 1014 := by
  have hheader := length_headerFields_le_of_small hsmall.sizesUnset.1 hsmall.sizesUnset.2
    hsmall.messageType_lt
  have hmeta := length_metaFields_le_of_small hheader hsmall.type_lt
  have hpayload := hsmall.payload_le
  rw [sizeofPayload_eq] at hpayload
  have h₁ : (writeFields (p.metaData?.map fun m =>
      (⟨1, .bytes (writeFields (metaFields m))⟩ : Field)).toList).length ≤ 36 := by
    cases hm : p.metaData? with
    | none => simp
    | some m =>
        rw [ProtobufItf.Envelope.metaData, hm, Option.getD_some] at hmeta
        have hlen : (writeField ⟨1, .bytes (writeFields (metaFields m))⟩).length ≤ 1 + 1 + _ :=
          length_writeField_bytes_le_of_lt (by decide) _ Nat.one_pos (by omega)
        rw [Option.map_some, Option.toList_some, writeFields_singleton]
        omega
  have h₂ : (writeFields (if p.payload = [] then [] else
      [(⟨2, .bytes p.payload⟩ : Field)])).length ≤ 978 := by
    split_ifs
    · simp
    · have hlen : (writeField ⟨2, .bytes p.payload⟩).length ≤ 1 + 2 + _ :=
        length_writeField_bytes_le_of_lt (by decide) _ (by decide) (by omega)
      rw [writeFields_singleton]
      omega
  rw [serializeEnvelope, envelopeFields, writeFields_append, List.length_append]
  omega

/-! ## What the encoder produces -/

theorem small_encodedEnvelope {env : Envelope} (henv : env.Encodable)
    {old : ProtobufItf.Envelope} (hold : SizesUnset old) :
    Small (encodedEnvelope env old (cstr env.payload.bytes)) where
  sizesUnset := hold
  messageType_lt := by
    change ofEnum (toProtoMessageType (getMessageType env) _) < 128
    rcases henv.messageType_known with htype | htype | htype
    · rw [htype]
      exact (by decide : ofEnum UserMessage < 128)
    · rw [htype]
      exact (by decide : ofEnum ServiceMessage < 128)
    · rw [htype]
      exact (by decide : ofEnum AckMessage < 128)
  type_lt := by
    change ofEnum (toProtoDataType env.metaData.type _) < 128
    rcases henv.type_known with htype | htype
    · rw [htype]
      exact (by decide : ofEnum TextMessage < 128)
    · rw [htype]
      exact (by decide : ofEnum FileMessage < 128)
  payload_le := by
    have hlt := strlen_lt henv.terminated
    rwa [env.payload.length_eq] at hlt

/-- A message that fits is serialised into the output buffer. -/
theorem exists_putEnvToProtoBufferOut {env : Envelope} {old message : ProtobufItf.Envelope}
    (hencode : putEnvToProtoBuf env old = .ok message)
    (hlen : (serializeEnvelope message).length ≤ sizeofEnvelope) (buffer : RxTxBuffer) :
    ∃ out', putEnvToProtoBufferOut envelopeWire ⟨old, buffer⟩ env = .ok out' ∧
      out'.protoMessage = message := by
  rcases CharArray.exists_memcpy_eq_ok buffer.payload hlen with ⟨payload, hcopy⟩
  refine ⟨⟨message, ⟨UInt64.ofNat (serializeEnvelope message).length, payload⟩⟩, ?_, rfl⟩
  exact putEnvToProtoBufferOut_eq_ok_iff.mpr ⟨hencode, hcopy, rfl⟩

/-- Encoding over an object whose size fields were never set gives a message that fits
the output buffer, into which it is serialised; and the size fields stay unset. -/
theorem putEnvToProtoBuf_fits {env : Envelope} (henv : env.Encodable)
    {old : ProtobufItf.Envelope} (hold : SizesUnset old) :
    ∃ message, putEnvToProtoBuf env old = .ok message ∧
      (serializeEnvelope message).length ≤ Envelope.size ∧ SizesUnset message ∧
      ∀ buffer, ∃ out', putEnvToProtoBufferOut envelopeWire ⟨old, buffer⟩ env = .ok out' ∧
        out'.protoMessage = message := by
  have hlen : _ ≤ Envelope.size := Nat.le_trans
    (length_serializeEnvelope_le (small_encodedEnvelope henv hold)) (by decide)
  have hencode := putEnvToProtoBuf_of_terminated henv.terminated old
  exact ⟨_, hencode, hlen, hold, exists_putEnvToProtoBufferOut hencode hlen⟩

/-- The largest identifiers, the latest time stamp and the longest text. -/
def largestEnvelope : Envelope where
  metaData :=
    { header := { messageType := .AckMessage, timestamp := 0xFFFFFFFF }
      type := .FileMessage, senderId := 0xFFFFFFFFFFFFFFFF, recepientId := 0xFFFFFFFFFFFFFFFF }
  payload := CharArray.ofText sizeofPayload (List.replicate 975 97)

/-- Ten bytes are left in the output buffer. -/
theorem putEnvToProtoBuf_fits_largest :
    ∃ message, putEnvToProtoBuf largestEnvelope {} = .ok message ∧
      (serializeEnvelope message).length = 1014 ∧
      (serializeEnvelope message).length ≤ Envelope.size := by
  have henv : largestEnvelope.Encodable := ⟨by decide, by decide, by decide +kernel⟩
  have hfresh : SizesUnset {} := ⟨rfl, rfl⟩
  rcases putEnvToProtoBuf_fits henv hfresh with ⟨message, hencode, hlen, _⟩
  refine ⟨message, hencode, ?_, hlen⟩
  have hsize : (serializeEnvelope <$> putEnvToProtoBuf largestEnvelope {}).toOption.map
      List.length = some 1014 := by
    decide +kernel
  rw [hencode] at hsize
  exact Option.some.inj hsize

/-! ## Sequences of transmissions -/

/-- However many envelopes an endpoint sends, all of them are serialised inside the
buffer. -/
theorem sendAll_eq_ok (envs : List Envelope) (henvs : ∀ env ∈ envs, env.Encodable) :
    ∀ {out : OutBuffers}, SizesUnset out.protoMessage →
      ∃ out', sendAll envelopeWire out envs = .ok out' ∧ SizesUnset out'.protoMessage := by
  induction envs with
  | nil =>
      intro out hout
      exact ⟨out, rfl, hout⟩
  | cons env envs ih =>
      intro out hout
      have henv : env.Encodable := henvs env List.mem_cons_self
      have hencode := putEnvToProtoBuf_of_terminated henv.terminated out.protoMessage
      have hlen : _ ≤ sizeofEnvelope := Nat.le_trans
        (length_serializeEnvelope_le (small_encodedEnvelope henv hout)) (by decide)
      rcases exists_putEnvToProtoBufferOut hencode hlen out.buffer with ⟨mid, hput, hmid⟩
      rcases ih (fun env' hmem => henvs env' (List.mem_cons_of_mem env hmem))
        (hmid ▸ hout : SizesUnset mid.protoMessage) with ⟨out', hrest, hout'⟩
      refine ⟨out', ?_, hout'⟩
      simp only [sendAll, sendDataGram, bind_eq_ok_iff]
      exact ⟨_, ⟨mid, hput, rfl⟩, hrest⟩

end UdpEndpointBase

end SimpleMessenger
