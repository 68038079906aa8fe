import SimpleMessenger.Common.CodecReuse
import SimpleMessenger.Foundations.LittleEndian

/-!
# Typed payloads

The two templates of {lit}`MessageProcessing.hpp` copy a value of a trivially copyable
type into the text array of an envelope and out of it.  A value is modelled by the
bytes that it occupies, padding included, and its type by their number.  The codec in
between takes the array for a C string.

Main results:

- Theorem {lit}`throughWire_eq_ok_iff`: the values that come back as they were.
- Theorem {lit}`authResponse_survives_iff`: the answers to a login that do.
-/

namespace SimpleMessenger

open CMemory

variable {n : Nat}

/-! ## The templates as the source has them -/

/-- `set_payload<T>` -/
def setPayload (env : Envelope) (message : CharArray n) : Checked Envelope :=
  (fun payload => { env with payload := payload }) <$> env.payload.memcpy message.bytes

/-- `get_payload<T>` -/
def getPayload (n : Nat) (env : Envelope) : Checked (CharArray n) :=
  if h : n ≤ sizeofPayload then
    .ok ⟨env.payload.bytes.take n, by rw [List.length_take, env.payload.length_eq]; omega⟩
  else .error (.read sizeofPayload sizeofPayload)

/-- A value is stored in `env`, encoded over the object `old`, decoded and read. -/
def throughWire (env : Envelope) (old : ProtobufItf.Envelope) (x : CharArray n) :
    Checked (CharArray n) := do
  let stored ← setPayload env x
  let message ← putEnvToProtoBuf stored old
  let received ← getEnvFromProtoBuf message
  getPayload n received

/-- From the first zero byte on there are only zero bytes. -/
def ZeroTail (bs : Bytes) : Prop :=
  ∀ b ∈ bs.drop (strlen bs), b = 0

instance (bs : Bytes) : Decidable (ZeroTail bs) :=
  inferInstanceAs (Decidable (∀ b ∈ bs.drop (strlen bs), b = 0))

/-! ## What the codec makes of a value -/

theorem cstr_append_drop (bs : Bytes) : cstr bs ++ bs.drop (strlen bs) = bs := by
  have htake : bs.take (strlen bs) = cstr bs :=
    List.prefix_iff_eq_take.mp (cstr_isPrefix bs) |>.symm
  rw [← htake, List.take_append_drop]

/-- Clearing everything behind a C string changes nothing exactly when there is nothing
but zeros behind it. -/
theorem clearedTail_eq_self_iff {a : CharArray n} :
    a.clearedTail = a ↔ ZeroTail a.bytes := by
  have hsplit := cstr_append_drop a.bytes
  have hlen : (a.bytes.drop (strlen a.bytes)).length = n - strlen a.bytes := by
    rw [List.length_drop, a.length_eq]
  rw [CharArray.ext_iff]
  change cstr a.bytes ++ List.replicate (n - strlen a.bytes) 0 = a.bytes ↔ _
  conv_lhs => rhs; rw [← hsplit]
  rw [List.append_cancel_left_eq, eq_comm, List.eq_replicate_iff]
  exact and_iff_right hlen

/-- Zeros behind a value do not change what its C string is followed by. -/
theorem take_clearedTail {x : CharArray n} {a : CharArray sizeofPayload}
    (ha : a.bytes = x.bytes ++ List.replicate (sizeofPayload - n) 0) (hn : n ≤ sizeofPayload) :
    a.clearedTail.bytes.take n = x.clearedTail.bytes := by
  have hcstr : cstr a.bytes = cstr x.bytes := by
    rw [ha]
    cases sizeofPayload - n with
    | zero => simp
    | succ k => rw [List.replicate_succ, cstr_append_zero]
  have hle := strlen_le x.bytes
  rw [x.length_eq] at hle
  change (cstr a.bytes ++ List.replicate (sizeofPayload - (cstr a.bytes).length) 0).take n =
    cstr x.bytes ++ List.replicate (n - (cstr x.bytes).length) 0
  rw [hcstr, List.take_append, List.take_of_length_le hle, List.take_replicate]
  congr 2
  omega

section Wire

variable {env : Envelope} (hempty : env.payload = CharArray.zeros sizeofPayload)
  (old : ProtobufItf.Envelope)
include hempty

/-- A value that fits comes back with everything behind its first zero byte cleared, if
the array holds a zero byte. -/
theorem throughWire_eq {x : CharArray n} (hn : n ≤ sizeofPayload)
    (hterm : n < sizeofPayload ∨ (0 : UInt8) ∈ x.bytes) :
    throughWire env old x = .ok x.clearedTail := by
  have hfits : x.bytes.length ≤ sizeofPayload := by rw [x.length_eq]; exact hn
  rcases CharArray.exists_memcpy_eq_ok (CharArray.zeros sizeofPayload) hfits with ⟨a, hcopy⟩
  have hzero : (0 : UInt8) ∈ a.bytes := by
    rw [CharArray.zero_mem_of_memcpy_zeros hcopy, x.length_eq]
    exact hterm
  have ha := (CharArray.memcpy_zeros_eq_ok_iff.mp hcopy).2
  rw [x.length_eq] at ha
  have hstore : setPayload env x = .ok { env with payload := a } := by
    rw [setPayload, hempty, hcopy]
    rfl
  have hencode : putEnvToProtoBuf { env with payload := a } old = .ok _ :=
    putEnvToProtoBuf_of_terminated hzero old
  have hdecode : getEnvFromProtoBuf
      (encodedEnvelope { env with payload := a } old (cstr a.bytes)) =
        .ok ⟨decodedMeta (encodedEnvelope { env with payload := a } old (cstr a.bytes)),
          a.clearedTail⟩ := by
    refine getEnvFromProtoBuf_eq_ok_iff.mpr ⟨rfl, ?_⟩
    change (CharArray.zeros sizeofPayload).memcpy (cstr (cstr a.bytes)) = _
    rw [cstr_cstr, CharArray.memcpy_zeros_cstr]
  simp only [throughWire, bind_eq_ok_iff]
  refine ⟨_, hstore, _, hencode, _, hdecode, ?_⟩
  rw [getPayload, dif_pos hn]
  exact congrArg Except.ok (CharArray.ext (take_clearedTail ha hn))

/-- Without a zero byte the encoder reads behind the array. -/
theorem terminated_of_throughWire {x y : CharArray n} (hback : throughWire env old x = .ok y) :
    n < sizeofPayload ∨ (0 : UInt8) ∈ x.bytes := by
  simp only [throughWire, bind_eq_ok_iff] at hback
  rcases hback with ⟨stored, hstore, message, hencode, _⟩
  rcases map_eq_ok_iff.mp hstore with ⟨a, hcopy, rfl⟩
  rcases putEnvToProtoBuf_eq_ok_iff.mp hencode with ⟨text, htext, _⟩
  have hzero := (CharArray.cstring_eq_ok_iff.mp htext).1
  rw [hempty] at hcopy
  have hsource := (CharArray.zero_mem_of_memcpy_zeros hcopy).mp hzero
  rwa [x.length_eq] at hsource

/-- A value that fits comes back as it was exactly when there are only zero bytes behind
its first zero byte, and there is one in the array. -/
theorem throughWire_eq_ok_iff (hn : n ≤ sizeofPayload) (x : CharArray n) :
    throughWire env old x = .ok x ↔
      ZeroTail x.bytes ∧ (n < sizeofPayload ∨ (0 : UInt8) ∈ x.bytes) := by
  constructor
  · intro hback
    have hterm := terminated_of_throughWire hempty old hback
    rw [throughWire_eq hempty old hn hterm] at hback
    exact ⟨clearedTail_eq_self_iff.mp (Except.ok.inj hback), hterm⟩
  · rintro ⟨htail, hterm⟩
    rw [throughWire_eq hempty old hn hterm, clearedTail_eq_self_iff.mpr htail]

end Wire

/-! ## Values that the program uses -/

/-- A number of 64 bits. -/
def uint64Payload (value : UInt64) : CharArray 8 :=
  ⟨LittleEndian.bytes 8 value.toNat, LittleEndian.length_bytes _ _⟩

/-- `AuthResponse`, its padding cleared. -/
def authResponse (isAccepted : Bool) (userId : UserID) : CharArray 16 :=
  ⟨(if isAccepted then 1 else 0) :: List.replicate 7 0 ++ LittleEndian.bytes 8 userId.toNat, by
    simp [LittleEndian.length_bytes]⟩

/-- The number of the unit test comes back. -/
theorem throughWire_eq_ok_number :
    throughWire Envelope.zero {} (uint64Payload 412397841) = .ok (uint64Payload 412397841) :=
  (throughWire_eq_ok_iff rfl {} (by decide) _).mpr ⟨by decide +kernel, .inl (by decide)⟩

/-- As many letters as the text array holds. -/
def fullPayload : CharArray sizeofPayload :=
  ⟨List.replicate sizeofPayload 97, List.length_replicate⟩

/-- An accepted login comes back with user 0, and of an array without a zero byte the
end is not found. -/
theorem throughWire_fails :
    (throughWire Envelope.zero {} (authResponse true 42) = .ok (authResponse true 0) ∧
      authResponse true 0 ≠ authResponse true 42) ∧
    ∀ y, throughWire Envelope.zero {} fullPayload ≠ .ok y := by
  refine ⟨by decide +kernel, fun y hback => ?_⟩
  rcases terminated_of_throughWire rfl {} hback with hlt | hzero
  · exact Nat.lt_irrefl _ hlt
  · exact absurd (List.mem_replicate.mp hzero).2 (by decide)

/-- An answer to a login comes back only if it names no user. -/
theorem authResponse_survives_iff (isAccepted : Bool) (userId : UserID)
    (old : ProtobufItf.Envelope) :
    throughWire Envelope.zero old (authResponse isAccepted userId) =
      .ok (authResponse isAccepted userId) ↔ userId = 0 := by
  have hterm : 16 < sizeofPayload ∨ (0 : UInt8) ∈ (authResponse isAccepted userId).bytes :=
    .inl (by decide)
  rw [throughWire_eq rfl old (by decide) hterm, Except.ok.injEq, clearedTail_eq_self_iff]
  constructor
  · intro htail
    -- the number starts behind the first zero byte
    have hstart : strlen (authResponse isAccepted userId).bytes ≤ 8 := by
      cases isAccepted <;> simp [authResponse, strlen, cstr]
    have hzero : LittleEndian.bytes 8 userId.toNat = List.replicate 8 0 := by
      refine List.eq_replicate_iff.mpr ⟨LittleEndian.length_bytes _ _, fun b hb => htail b ?_⟩
      change b ∈ (((if isAccepted then 1 else 0) :: List.replicate 7 0) ++
        LittleEndian.bytes 8 userId.toNat).drop _
      rw [List.drop_append_of_le_length (by simpa using hstart)]
      exact List.mem_append_right _ hb
    have hvalue := LittleEndian.value_bytes (k := 8) userId.toNat_lt
    rw [hzero] at hvalue
    exact UInt64.toNat_inj.mp hvalue.symm
  · rintro rfl
    cases isAccepted <;> decide +kernel

end SimpleMessenger
