import SimpleMessenger.Common.CodecReuse
import SimpleMessenger.Common.EnvelopeWire
import SimpleMessenger.Foundations.LittleEndian

/-!
# The transmission buffers of `EndpointBase.cpp`

An endpoint owns one buffer for each direction: a number that says how many bytes
of the payload area are meant, and the area itself.  The output buffer is filled
by serialising a protobuf object into the front of the area; the input buffer is
overwritten, from its first byte on, with whatever was received.

Main results:

- Theorem {lit}`framed_of_putEnvToProtoBufferOut`: filling the output buffer puts
  the encoded message in front of what was there.
- Theorem {lit}`receive_toBytes`: a whole buffer that arrives replaces the input
  buffer.
- Theorem {lit}`getEnvFromProtoBufferIn_of_framed`: a framed message is decoded,
  whatever follows it in the buffer.
-/

namespace SimpleMessenger

open CMemory

/-! ## Buffers in memory -/

/-- `sizeof(Envelope)`, from the metadata and the text array. -/
def sizeofEnvelope : Nat :=
  structSize [(sizeofEnvelopeMeta, 8), (sizeofPayload, 1)]

theorem sizeofEnvelope_eq : sizeofEnvelope = 1024 :=
  rfl

@[ext]
structure RxTxBuffer where
  messageSize : UInt64
  payload : CharArray sizeofEnvelope
deriving DecidableEq

namespace RxTxBuffer

/-- `sizeof(RxTxBuffer::message_size)` -/
def sizeofMessageSize : Nat := 8

/-- `sizeof(RxTxBuffer)` -/
def sizeofRxTxBuffer : Nat :=
  structSize [(sizeofMessageSize, 8), (sizeofEnvelope, 1)]

theorem sizeofRxTxBuffer_eq : sizeofRxTxBuffer = sizeofMessageSize + sizeofEnvelope :=
  rfl

/-- `RxTxBuffer buffer{}` -/
def zero : RxTxBuffer where
  messageSize := 0
  payload := CharArray.zeros sizeofEnvelope

def sizeBytes (b : RxTxBuffer) : Bytes :=
  LittleEndian.bytes sizeofMessageSize b.messageSize.toNat

/-- The bytes of the object. -/
def toBytes (b : RxTxBuffer) : Bytes :=
  b.sizeBytes ++ b.payload.bytes

/-- `recvfrom` into the buffer: the bytes of the datagram that fit overwrite the
object from its first byte on. -/
def receive (b : RxTxBuffer) (datagram : Bytes) : RxTxBuffer where
  messageSize := UInt64.ofNat (LittleEndian.value
    (datagram.take sizeofMessageSize ++ b.sizeBytes.drop datagram.length))
  payload := b.payload.overlay (datagram.drop sizeofMessageSize)

theorem length_sizeBytes (b : RxTxBuffer) : b.sizeBytes.length = sizeofMessageSize :=
  LittleEndian.length_bytes _ _

theorem length_toBytes (b : RxTxBuffer) : b.toBytes.length = sizeofRxTxBuffer := by
  rw [toBytes, List.length_append, length_sizeBytes, b.payload.length_eq, sizeofRxTxBuffer_eq]

theorem value_sizeBytes (b : RxTxBuffer) :
    LittleEndian.value b.sizeBytes = b.messageSize.toNat :=
  LittleEndian.value_bytes b.messageSize.toNat_lt

/-- Different buffers are different bytes. -/
theorem toBytes_inj {b c : RxTxBuffer} : b.toBytes = c.toBytes ↔ b = c := by
  constructor
  · intro heq
    have hlen : b.sizeBytes.length = c.sizeBytes.length := by
      rw [length_sizeBytes, length_sizeBytes]
    rcases List.append_inj heq hlen with ⟨hsize, hpayload⟩
    have hnat : b.messageSize.toNat = c.messageSize.toNat := by
      rw [← value_sizeBytes, hsize, value_sizeBytes]
    exact RxTxBuffer.ext (UInt64.toNat_inj.mp hnat) (CharArray.ext hpayload)
  · intro heq
    rw [heq]

/-- A whole buffer that arrives replaces what was there. -/
theorem receive_toBytes (b c : RxTxBuffer) : b.receive c.toBytes = c := by
  have hlen : b.sizeBytes.length ≤ c.toBytes.length := by
    rw [length_sizeBytes, length_toBytes]
    decide
  have htake : c.toBytes.take sizeofMessageSize = c.sizeBytes :=
    List.take_left' c.length_sizeBytes
  have hdrop : c.toBytes.drop sizeofMessageSize = c.payload.bytes :=
    List.drop_left' c.length_sizeBytes
  unfold receive
  rw [htake, hdrop, List.drop_eq_nil_of_le hlen, List.append_nil, value_sizeBytes,
    UInt64.ofNat_toNat, CharArray.overlay_of_length_eq]

end RxTxBuffer

/-! ## Filling and reading the buffers -/

namespace EndpointBase

open ProtobufItf

/-- `proto_message_buffer_out` and `buffer_out`. -/
@[ext]
structure OutBuffers where
  protoMessage : ProtobufItf.Envelope := {}
  buffer : RxTxBuffer := .zero
deriving DecidableEq

/-- The argument of `ParseFromArray`, which takes the size as an `int`: the low 32
bits, as a signed number. -/
def parseSize (messageSize : UInt64) : Int :=
  (messageSize.toNat : Int).bmod (2 ^ 32)

def putEnvToProtoBufferOut (wire : Wire) (out : OutBuffers) (rawEnv : Envelope) :
    Checked OutBuffers := do
  let protoEnv ← putEnvToProtoBuf rawEnv out.protoMessage
  let payload ← out.buffer.payload.memcpy (wire.serialize protoEnv)
  return {
    protoMessage := protoEnv
    buffer :=
      { messageSize := UInt64.ofNat (wire.serialize protoEnv).length
        payload := payload } }

/-- The result of `ParseFromArray` is ignored; a size outside the array makes it
read there. -/
def getEnvFromProtoBufferIn (wire : Wire) (buffer : RxTxBuffer) : Checked Envelope :=
  if 0 ≤ parseSize buffer.messageSize ∧ (parseSize buffer.messageSize).toNat ≤ sizeofEnvelope then
    getEnvFromProtoBuf
      (wire.parse (buffer.payload.bytes.take (parseSize buffer.messageSize).toNat))
  else .error (.read sizeofEnvelope sizeofEnvelope)

/-- The buffer announces the size of the message and holds it at the front of the
payload area. -/
structure Framed (wire : Wire) (buffer : RxTxBuffer) (message : ProtobufItf.Envelope) : Prop where
  fits : (wire.serialize message).length ≤ sizeofEnvelope
  messageSize_eq : buffer.messageSize = UInt64.ofNat (wire.serialize message).length
  payload_eq : buffer.payload.bytes.take (wire.serialize message).length = wire.serialize message

/-- What filling the output buffer does to both of its parts. -/
theorem putEnvToProtoBufferOut_eq_ok_iff {wire : Wire} {out out' : OutBuffers} {env : Envelope} :
    putEnvToProtoBufferOut wire out env = .ok out' ↔
      putEnvToProtoBuf env out.protoMessage = .ok out'.protoMessage ∧
        out.buffer.payload.memcpy (wire.serialize out'.protoMessage) = .ok out'.buffer.payload ∧
        out'.buffer.messageSize = UInt64.ofNat (wire.serialize out'.protoMessage).length := by
  simp only [putEnvToProtoBufferOut, bind_eq_ok_iff]
  constructor
  · rintro ⟨message, hencode, payload, hcopy, hout⟩
    cases hout
    exact ⟨hencode, hcopy, rfl⟩
  · rintro ⟨hencode, hcopy, hsize⟩
    exact ⟨_, hencode, _, hcopy,
      congrArg Except.ok (OutBuffers.ext rfl (RxTxBuffer.ext hsize.symm rfl))⟩

/-- Filling the output buffer puts the encoded message in front of what was
there. -/
theorem framed_of_putEnvToProtoBufferOut {wire : Wire} {out out' : OutBuffers} {env : Envelope}
    (hput : putEnvToProtoBufferOut wire out env = .ok out') :
    Framed wire out'.buffer out'.protoMessage := by
  rcases putEnvToProtoBufferOut_eq_ok_iff.mp hput with ⟨_, hcopy, hsize⟩
  rcases CharArray.memcpy_eq_ok_iff.mp hcopy with ⟨hfits, hbytes⟩
  exact ⟨hfits, hsize, by rw [hbytes, List.take_left]⟩

/-- Sizes that fit the array reach `ParseFromArray` unchanged. -/
theorem parseSize_ofNat {n : Nat} (hn : n ≤ sizeofEnvelope) :
    parseSize (UInt64.ofNat n) = n := by
  rw [sizeofEnvelope_eq] at hn
  have hlt : n < UInt64.size := Nat.lt_of_le_of_lt hn (by decide)
  have hbmod : (n : Int).bmod (2 ^ 32) = n := Int.bmod_eq_of_le (by omega) (by omega)
  unfold parseSize
  rw [UInt64.toNat_ofNat_of_lt' hlt, hbmod]

/-- A framed message is decoded, whatever follows it in the buffer. -/
theorem getEnvFromProtoBufferIn_of_framed {wire : Wire} {buffer : RxTxBuffer}
    {message : ProtobufItf.Envelope} (hframed : Framed wire buffer message) :
    getEnvFromProtoBufferIn wire buffer =
      getEnvFromProtoBuf (wire.parse (wire.serialize message)) := by
  have hsize := parseSize_ofNat hframed.fits
  rw [← hframed.messageSize_eq] at hsize
  unfold getEnvFromProtoBufferIn
  rw [hsize, if_pos ⟨Int.natCast_nonneg _, hframed.fits⟩, Int.toNat_natCast, hframed.payload_eq]

/-- One buffer frames at most one message. -/
theorem Framed.unique {wire : Wire} {buffer : RxTxBuffer} {p q : ProtobufItf.Envelope}
    (hp : Framed wire buffer p) (hq : Framed wire buffer q) :
    wire.serialize p = wire.serialize q := by
  have hlen : (wire.serialize p).length = (wire.serialize q).length := by
    have hpsize := parseSize_ofNat hp.fits
    have hqsize := parseSize_ofNat hq.fits
    rw [← hp.messageSize_eq] at hpsize
    rw [← hq.messageSize_eq] at hqsize
    omega
  rw [← hp.payload_eq, ← hq.payload_eq, hlen]

end EndpointBase

end SimpleMessenger
