import SimpleMessenger.Common.Defines
import SimpleMessenger.Foundations.ProtobufWire

/-!
# Envelopes on the wire

The class that the protobuf compiler generates for {lit}`Envelope` writes an
object into bytes and reads one from bytes.  The program relies on three
documented properties of the format, which are stated here as
{lit}`Wire.Lawful`; the theorems about endpoints take any such class.  The
encoding of {lit}`proto_defines.proto` is one.

Main results:

- Theorem {lit}`parseEnvelope_serializeEnvelope`: reading what was written gives
  the object back.
- Theorem {lit}`envelopeWire_lawful`: the encoding of the schema is lawful.
-/

namespace SimpleMessenger

open CMemory ProtobufWire

namespace ProtobufItf

/-! ## What the program uses of the generated class -/

/-- `SerializeToArray` writes `serialize`, which has `ByteSizeLong()` bytes;
`ParseFromArray` clears the object and leaves `parse` in it, also when the bytes
are malformed. -/
structure Wire where
  serialize : Envelope → Bytes
  parse : Bytes → Envelope

/-- What the format guarantees: objects survive the wire; a header takes four
bytes at least, its own key and length and those of the message around it; and
since default values are left out, longer encodings of envelopes with a header
end in the last byte of a number other than zero or of the payload. -/
structure Wire.Lawful (wire : Wire) : Prop where
  parse_serialize : ∀ p : Envelope, p.payload.length ≤ SimpleMessenger.Envelope.size →
    wire.parse (wire.serialize p) = p
  four_le : ∀ p : Envelope, p.metaData.header?.isSome → 4 ≤ (wire.serialize p).length
  getLast?_ne : ∀ p : Envelope, p.metaData.header?.isSome → (0 : UInt8) ∉ p.payload →
    4 < (wire.serialize p).length → (wire.serialize p).getLast? ≠ some 0

/-! ## The encoding of the schema -/

/-- An enumerator travels as a number of 64 bits with its sign extended. -/
def ofEnum (type : Int32) : Nat :=
  (type.toInt % 2 ^ 64).toNat

def toEnum (n : Nat) : Int32 :=
  Int32.ofInt n

def headerFields (h : Header) : List Field :=
  omitZero 1 h.payloadSize.toNat ++ (omitZero 2 h.totalSize.toNat ++
    (omitZero 3 (ofEnum h.messageType) ++ omitZero 4 h.timestamp.toNat))

def metaFields (m : EnvelopeMeta) : List Field :=
  (m.header?.map fun h => (⟨1, .bytes (writeFields (headerFields h))⟩ : Field)).toList ++
    (omitZero 2 (ofEnum m.type) ++ (omitZero 3 m.senderId.toNat ++
      omitZero 4 m.recepientId.toNat))

def envelopeFields (p : Envelope) : List Field :=
  (p.metaData?.map fun m => (⟨1, .bytes (writeFields (metaFields m))⟩ : Field)).toList ++
    if p.payload = [] then [] else [⟨2, .bytes p.payload⟩]

/-- Set the field of a header that arrived; unknown fields are skipped. -/
def setHeader (h : Header) (f : Field) : Header :=
  match f.number, f.value with
  | 1, .varint n => { h with payloadSize := UInt64.ofNat n }
  | 2, .varint n => { h with totalSize := UInt64.ofNat n }
  | 3, .varint n => { h with messageType := toEnum n }
  | 4, .varint n => { h with timestamp := UInt32.ofNat n }
  | _, _ => h

/-- A submessage that arrives twice is merged. -/
def setMeta (m : EnvelopeMeta) (f : Field) : EnvelopeMeta :=
  match f.number, f.value with
  | 1, .bytes bs => { m with header? := some ((readFields bs).foldl setHeader m.header) }
  | 2, .varint n => { m with type := toEnum n }
  | 3, .varint n => { m with senderId := UInt64.ofNat n }
  | 4, .varint n => { m with recepientId := UInt64.ofNat n }
  | _, _ => m

def setEnvelope (p : Envelope) (f : Field) : Envelope :=
  match f.number, f.value with
  | 1, .bytes bs => { p with metaData? := some ((readFields bs).foldl setMeta p.metaData) }
  | 2, .bytes bs => { p with payload := bs }
  | _, _ => p

def serializeEnvelope (p : Envelope) : Bytes :=
  writeFields (envelopeFields p)

def parseEnvelope (bs : Bytes) : Envelope :=
  (readFields bs).foldl setEnvelope {}

/-- The wire format of the schema. -/
def envelopeWire : Wire where
  serialize := serializeEnvelope
  parse := parseEnvelope

/-! ## Numbers of the schema -/

theorem ofEnum_lt (type : Int32) : ofEnum type < 2 ^ 64 := by
  unfold ofEnum
  omega

theorem toEnum_ofEnum (type : Int32) : toEnum (ofEnum type) = type := by
  have hlower := type.le_toInt
  have hupper := type.toInt_lt
  apply Int32.toInt_inj.mp
  have hsize : Int32.size = 4294967296 := rfl
  unfold toEnum ofEnum
  rw [Int32.toInt_ofInt, Int.toNat_of_nonneg (by omega), Int.bmod_def, hsize]
  omega

theorem eq_zero_of_ofEnum_eq_zero {type : Int32} (hzero : ofEnum type = 0) : type = 0 := by
  rw [← toEnum_ofEnum type, hzero]
  rfl

/-! ## Fields fit the format -/

theorem fits_of_mem_headerFields {h : Header} {f : Field} (hf : f ∈ headerFields h) :
    f.Fits := by
  simp only [headerFields, List.mem_append] at hf
  have htimestamp := h.timestamp.toNat_lt
  rcases hf with hf | hf | hf | hf
  · exact fits_of_mem_omitZero hf (by decide) (by decide) h.payloadSize.toNat_lt
  · exact fits_of_mem_omitZero hf (by decide) (by decide) h.totalSize.toNat_lt
  · exact fits_of_mem_omitZero hf (by decide) (by decide) (ofEnum_lt _)
  · exact fits_of_mem_omitZero hf (by decide) (by decide) (by omega)

/-- A byte field of a moderate size fits. -/
theorem fits_bytes {number : Nat} {bs : Bytes} (hpos : 0 < number) (hnumber : number < 16)
    (hlen : bs.length < 2 ^ 64) : (⟨number, .bytes bs⟩ : Field).Fits := by
  have hwide : 2 ^ 64 < 128 ^ (wide + 1) := by decide
  refine ⟨hpos, ?_, ?_, ?_⟩
  · change 8 * number + 2 < _
    omega
  · intro n hn
    cases hn
  · intro bs' hbs'
    cases hbs'
    omega

theorem length_headerFields_le (h : Header) : (writeFields (headerFields h)).length ≤ 80 := by
  have h₁ := length_omitZero_le 1 h.payloadSize.toNat
  have h₂ := length_omitZero_le 2 h.totalSize.toNat
  have h₃ := length_omitZero_le 3 (ofEnum h.messageType)
  have h₄ := length_omitZero_le 4 h.timestamp.toNat
  simp only [headerFields, writeFields_append, List.length_append, wide] at *
  omega

theorem length_metaFields_le (m : EnvelopeMeta) : (writeFields (metaFields m)).length ≤ 160 := by
  have hheader : (writeFields (m.header?.map fun h =>
      (⟨1, .bytes (writeFields (headerFields h))⟩ : Field)).toList).length ≤ 100 := by
    cases m.header? with
    | none => simp
    | some h =>
        have hlen := length_writeField_bytes_le 1 (writeFields (headerFields h))
        have hbody := length_headerFields_le h
        simp only [Option.map_some, Option.toList_some, writeFields_singleton, wide] at *
        omega
  have h₂ := length_omitZero_le 2 (ofEnum m.type)
  have h₃ := length_omitZero_le 3 m.senderId.toNat
  have h₄ := length_omitZero_le 4 m.recepientId.toNat
  simp only [metaFields, writeFields_append, List.length_append, wide] at *
  omega

theorem fits_of_mem_metaFields {m : EnvelopeMeta} {f : Field} (hf : f ∈ metaFields m) :
    f.Fits := by
  simp only [metaFields, List.mem_append, Option.mem_toList, Option.map_eq_some_iff] at hf
  rcases hf with ⟨h, _, rfl⟩ | hf | hf | hf
  · have hlen := length_headerFields_le h
    exact fits_bytes (by decide) (by decide) (by omega)
  · exact fits_of_mem_omitZero hf (by decide) (by decide) (ofEnum_lt _)
  · exact fits_of_mem_omitZero hf (by decide) (by decide) m.senderId.toNat_lt
  · exact fits_of_mem_omitZero hf (by decide) (by decide) m.recepientId.toNat_lt

theorem fits_of_mem_envelopeFields {p : Envelope} (hpayload : p.payload.length < 2 ^ 64)
    {f : Field} (hf : f ∈ envelopeFields p) : f.Fits := by
  simp only [envelopeFields, List.mem_append, Option.mem_toList, Option.map_eq_some_iff] at hf
  rcases hf with ⟨m, _, rfl⟩ | hf
  · have hlen := length_metaFields_le m
    exact fits_bytes (by decide) (by decide) (by omega)
  · split at hf
    · contradiction
    · rw [List.mem_singleton.mp hf]
      exact fits_bytes (by decide) (by decide) hpayload

/-! ## Reading what was written -/

theorem uint64_eq_zero {n : UInt64} (hzero : n.toNat = 0) : n = 0 :=
  UInt64.toNat_inj.mp hzero

theorem foldl_headerFields (h : Header) : (headerFields h).foldl setHeader {} = h := by
  rcases h with ⟨payloadSize, totalSize, messageType, timestamp⟩
  have h₁ : (omitZero 1 payloadSize.toNat).foldl setHeader {} = { payloadSize } :=
    foldl_omitZero (by simp [setHeader]) fun hzero => by rw [uint64_eq_zero hzero]
  have h₂ : (omitZero 2 totalSize.toNat).foldl setHeader { payloadSize } =
      { payloadSize, totalSize } :=
    foldl_omitZero (by simp [setHeader]) fun hzero => by rw [uint64_eq_zero hzero]
  have h₃ : (omitZero 3 (ofEnum messageType)).foldl setHeader { payloadSize, totalSize } =
      { payloadSize, totalSize, messageType } :=
    foldl_omitZero (by simp [setHeader, toEnum_ofEnum]) fun hzero => by
      rw [eq_zero_of_ofEnum_eq_zero hzero]
  have h₄ : (omitZero 4 timestamp.toNat).foldl setHeader
      { payloadSize, totalSize, messageType } =
        { payloadSize, totalSize, messageType, timestamp } :=
    foldl_omitZero (by simp [setHeader]) fun hzero => by
      have hts : timestamp = 0 := UInt32.toNat_inj.mp hzero
      rw [hts]
  rw [headerFields, List.foldl_append, h₁, List.foldl_append, h₂, List.foldl_append, h₃, h₄]

theorem foldl_metaFields (m : EnvelopeMeta) : (metaFields m).foldl setMeta {} = m := by
  rcases m with ⟨header?, type, senderId, recepientId⟩
  have h₁ : (header?.map fun h => (⟨1, .bytes (writeFields (headerFields h))⟩ : Field)).toList.foldl
      setMeta {} = { header? } := by
    cases header? with
    | none => rfl
    | some h =>
        simp only [Option.map_some, Option.toList_some, List.foldl_cons, List.foldl_nil, setMeta,
          readFields_writeFields fun f hf => fits_of_mem_headerFields hf]
        change { header? := some ((headerFields h).foldl setHeader {}) : EnvelopeMeta } = _
        rw [foldl_headerFields]
  have h₂ : (omitZero 2 (ofEnum type)).foldl setMeta { header? } = { header?, type } :=
    foldl_omitZero (by simp [setMeta, toEnum_ofEnum]) fun hzero => by
      rw [eq_zero_of_ofEnum_eq_zero hzero]
  have h₃ : (omitZero 3 senderId.toNat).foldl setMeta { header?, type } =
      { header?, type, senderId } :=
    foldl_omitZero (by simp [setMeta]) fun hzero => by rw [uint64_eq_zero hzero]
  have h₄ : (omitZero 4 recepientId.toNat).foldl setMeta { header?, type, senderId } =
      { header?, type, senderId, recepientId } :=
    foldl_omitZero (by simp [setMeta]) fun hzero => by rw [uint64_eq_zero hzero]
  rw [metaFields, List.foldl_append, h₁, List.foldl_append, h₂, List.foldl_append, h₃, h₄]

theorem foldl_envelopeFields (p : Envelope) : (envelopeFields p).foldl setEnvelope {} = p := by
  rcases p with ⟨metaData?, payload⟩
  have h₁ : (metaData?.map fun m => (⟨1, .bytes (writeFields (metaFields m))⟩ : Field)).toList.foldl
      setEnvelope {} = { metaData? } := by
    cases metaData? with
    | none => rfl
    | some m =>
        simp only [Option.map_some, Option.toList_some, List.foldl_cons, List.foldl_nil,
          setEnvelope, readFields_writeFields fun f hf => fits_of_mem_metaFields hf]
        change { metaData? := some ((metaFields m).foldl setMeta {}) : Envelope } = _
        rw [foldl_metaFields]
  rw [envelopeFields, List.foldl_append, h₁]
  by_cases hempty : payload = []
  · simp [hempty]
  · simp [hempty, setEnvelope]

/-- Reading what was written gives the object back. -/
theorem parseEnvelope_serializeEnvelope {p : Envelope} (hpayload : p.payload.length < 2 ^ 64) :
    parseEnvelope (serializeEnvelope p) = p := by
  have hfits : ∀ f ∈ envelopeFields p, f.Fits := fun f hf =>
    fits_of_mem_envelopeFields hpayload hf
  rw [parseEnvelope, serializeEnvelope, readFields_writeFields hfits, foldl_envelopeFields]

/-! ## Sizes and last bytes -/

theorem getLast?_headerFields (h : Header) :
    (writeFields (headerFields h)).getLast? ≠ some 0 := by
  apply getLast?_writeFields
  intro f hf
  simp only [headerFields, List.mem_append] at hf
  have htimestamp := h.timestamp.toNat_lt
  rcases hf with hf | hf | hf | hf
  · exact getLast?_of_mem_omitZero hf h.payloadSize.toNat_lt
  · exact getLast?_of_mem_omitZero hf h.totalSize.toNat_lt
  · exact getLast?_of_mem_omitZero hf (ofEnum_lt _)
  · exact getLast?_of_mem_omitZero hf (by omega)

/-- The fields of a message behind its header. -/
def addressFields (m : EnvelopeMeta) : List Field :=
  omitZero 2 (ofEnum m.type) ++ (omitZero 3 m.senderId.toNat ++ omitZero 4 m.recepientId.toNat)

theorem getLast?_addressFields (m : EnvelopeMeta) :
    (writeFields (addressFields m)).getLast? ≠ some 0 := by
  apply getLast?_writeFields
  intro f hf
  simp only [addressFields, List.mem_append] at hf
  rcases hf with hf | hf | hf
  · exact getLast?_of_mem_omitZero hf (ofEnum_lt _)
  · exact getLast?_of_mem_omitZero hf m.senderId.toNat_lt
  · exact getLast?_of_mem_omitZero hf m.recepientId.toNat_lt

/-- A message with a header starts with the header's field. -/
theorem writeFields_metaFields {m : EnvelopeMeta} {h : Header} (hheader : m.header? = some h) :
    writeFields (metaFields m) = writeField ⟨1, .bytes (writeFields (headerFields h))⟩ ++
      writeFields (addressFields m) := by
  rw [metaFields, hheader, writeFields_append]
  simp only [Option.map_some, Option.toList_some, writeFields_singleton]
  rfl

/-- A message with a header ends in a zero byte only if the header is empty and
nothing follows it. -/
theorem metaFields_cases {m : EnvelopeMeta} {h : Header} (hheader : m.header? = some h) :
    (writeFields (metaFields m)).getLast? ≠ some 0 ∨ writeFields (metaFields m) = [10, 0] := by
  rw [writeFields_metaFields hheader]
  by_cases haddress : writeFields (addressFields m) = []
  · rw [haddress, List.append_nil]
    by_cases hempty : writeFields (headerFields h) = []
    · rw [hempty]
      exact .inr rfl
    · rw [getLast?_writeField_bytes hempty]
      exact .inl (getLast?_headerFields h)
  · rw [List.getLast?_append_of_ne_nil _ haddress]
    exact .inl (getLast?_addressFields m)

/-- An envelope starts with its message. -/
theorem serializeEnvelope_eq {p : Envelope} {m : EnvelopeMeta} (hmeta : p.metaData? = some m) :
    serializeEnvelope p = writeField ⟨1, .bytes (writeFields (metaFields m))⟩ ++
      writeFields (if p.payload = [] then [] else [⟨2, .bytes p.payload⟩]) := by
  rw [serializeEnvelope, envelopeFields, hmeta, writeFields_append]
  simp only [Option.map_some, Option.toList_some, writeFields_singleton]

/-- The header that an accessor finds is in a message that is present. -/
theorem exists_meta_of_header {p : Envelope} (hheader : p.metaData.header?.isSome) :
    ∃ m h, p.metaData? = some m ∧ m.header? = some h := by
  rcases Option.isSome_iff_exists.mp hheader with ⟨h, hh⟩
  cases hmeta : p.metaData? with
  | none =>
      rw [Envelope.metaData, hmeta] at hh
      cases hh
  | some m =>
      rw [Envelope.metaData, hmeta] at hh
      exact ⟨m, h, rfl, hh⟩

theorem four_le_length_serializeEnvelope {p : Envelope} (hheader : p.metaData.header?.isSome) :
    4 ≤ (serializeEnvelope p).length := by
  rcases exists_meta_of_header hheader with ⟨m, h, hmeta, hh⟩
  have houter := lt_length_writeField_bytes 1 (writeFields (metaFields m))
  have hinner := lt_length_writeField_bytes 1 (writeFields (headerFields h))
  have hlen : (writeFields (metaFields m)).length = _ :=
    congrArg List.length (writeFields_metaFields hh)
  rw [serializeEnvelope_eq hmeta, List.length_append]
  rw [List.length_append] at hlen
  omega

theorem getLast?_serializeEnvelope {p : Envelope} (hheader : p.metaData.header?.isSome)
    (hpayload : (0 : UInt8) ∉ p.payload) (hlong : 4 < (serializeEnvelope p).length) :
    (serializeEnvelope p).getLast? ≠ some 0 := by
  rcases exists_meta_of_header hheader with ⟨m, h, hmeta, hh⟩
  rw [serializeEnvelope_eq hmeta] at hlong ⊢
  by_cases hempty : p.payload = []
  · rw [if_pos hempty, writeFields_nil, List.append_nil] at hlong ⊢
    rcases metaFields_cases hh with hlast | hshort
    · have hne : writeFields (metaFields m) ≠ [] := by
        rw [writeFields_metaFields hh]
        exact List.append_ne_nil_of_left_ne_nil (writeField_ne_nil _) _
      rwa [getLast?_writeField_bytes hne]
    · -- only an empty header: four bytes in all
      rw [hshort] at hlong
      exact absurd hlong (by decide)
  · rw [if_neg hempty, writeFields_singleton,
      List.getLast?_append_of_ne_nil _ (writeField_ne_nil _), getLast?_writeField_bytes hempty]
    intro hlast
    exact hpayload (List.mem_of_getLast? hlast)

/-- The encoding of the schema is lawful. -/
theorem envelopeWire_lawful : envelopeWire.Lawful where
  parse_serialize := by
    intro p hpayload
    have hsize : SimpleMessenger.Envelope.size = 1024 := rfl
    exact parseEnvelope_serializeEnvelope (by omega)
  four_le := fun _ hheader => four_le_length_serializeEnvelope hheader
  getLast?_ne := fun _ hheader hpayload hlong =>
    getLast?_serializeEnvelope hheader hpayload hlong

/-- A short text message from user 2 to user 1. -/
example : serializeEnvelope
    { metaData? := some { header? := some { timestamp := 300 }, senderId := 2, recepientId := 1 }
      payload := ascii "hi" } =
    [10, 9, 10, 3, 32, 172, 2, 24, 2, 32, 1, 18, 2, 104, 105] := by
  decide

end ProtobufItf

end SimpleMessenger
