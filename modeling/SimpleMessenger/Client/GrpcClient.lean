import SimpleMessenger.Client.SendLoop
import SimpleMessenger.Server.UnaryCalls

/-!
# The endpoint of `GrpcClient.cpp`

What the client puts into its requests, and what it makes of the replies: the login
request built from two character arrays, the metadata that tells the server whose
mailbox to stream, and the text that the listening thread prints for a message.

Main results:

- Theorem {lit}`loginRequest_looksUp`: the server looks up exactly the credentials that
  the client logs in with.
- Theorem {lit}`streamUser_of_metadata`: a stream is that of the user whose id stands in
  the metadata, whatever else stands there.
- Theorem {lit}`carries_of_sendOnce`: a message that is sent carries the text that was
  read for it.
- Theorem {lit}`printed_of_forwarded`: a forwarded text is printed as it was stored.

Current gaps:

- The channel is left out: a call reaches its handler, and a reply its call.
-/

namespace SimpleMessenger

open CMemory TextInput GrpcEndpointServer

/-- `GrpcEndpointClient` without its stub. -/
structure GrpcEndpointClient where
  userName : Bytes
  userId : UserID := 0
deriving DecidableEq

namespace GrpcEndpointClient

/-! ## The functions of the class -/

/-- The request of `connectToServer`: both setters take an array for a C string. -/
def loginRequest (userCreds : UserCredentials) : Checked ProtobufItf.UserCredentials := do
  let email ← userCreds.email.cstring
  let password ← userCreds.password.cstring
  return { email := email, password := password }

/-- `connectToServer` behind the call: whether it is connected, and with which id. -/
def connected (client : GrpcEndpointClient) (reply : LoginReply) : Bool × GrpcEndpointClient :=
  match reply.status with
  | .OK => (true, { client with userId := reply.userId })
  | .CANCELLED => (false, client)

/-- The metadata of `listenOthers`, in the order of the keys, which is that of the
server's map. -/
def listenMetadata (client : GrpcEndpointClient) : List (Bytes × Bytes) :=
  [(ascii "user_id", decimal client.userId.toNat), (ascii "username", client.userName)]

/-- What `listenOthers` prints for a message. -/
def printed (receivedMessage : ProtobufItf.Envelope) : Checked Bytes := do
  let env ← getEnvFromProtoBuf receivedMessage
  -- `std::string(char_data)` reads the copied array as a C string
  env.payload.cstring

/-! ## Logging in -/

theorem loginRequest_eq_ok_iff {userCreds : UserCredentials}
    {request : ProtobufItf.UserCredentials} :
    loginRequest userCreds = .ok request ↔
      userCreds.email.cstring = .ok request.email ∧
        userCreds.password.cstring = .ok request.password := by
  simp only [loginRequest, bind_eq_ok_iff]
  constructor
  · rintro ⟨email, hemail, password, hpassword, hpair⟩
    cases hpair
    exact ⟨hemail, hpassword⟩
  · rintro ⟨hemail, hpassword⟩
    exact ⟨_, hemail, _, hpassword, rfl⟩

/-- The C string of an array leaves room for its terminator, and has no zero byte. -/
theorem cstring_fits {n : Nat} {a : CharArray n} {text : Bytes} (htext : a.cstring = .ok text) :
    text.length < n ∧ (0 : UInt8) ∉ text := by
  rcases CharArray.cstring_eq_ok_iff.mp htext with ⟨hzero, rfl⟩
  have hlt := strlen_lt hzero
  rw [a.length_eq] at hlt
  exact ⟨hlt, zero_notMem_cstr _⟩

/-- The request of a client fits the arrays of the server. -/
theorem loginRequest_fits {userCreds : UserCredentials} {request : ProtobufItf.UserCredentials}
    (hrequest : loginRequest userCreds = .ok request) :
    AuthentificationService.FitsArrays request := by
  rcases loginRequest_eq_ok_iff.mp hrequest with ⟨hemail, hpassword⟩
  rcases cstring_fits hemail with ⟨hemailLt, hemailFree⟩
  rcases cstring_fits hpassword with ⟨hpasswordLt, hpasswordFree⟩
  exact ⟨hemailLt, hpasswordLt, hemailFree, hpasswordFree⟩

/-- The server fills in credentials that read as the client's own. -/
theorem loginRequest_looksUp {userCreds : UserCredentials}
    {request : ProtobufItf.UserCredentials} (hrequest : loginRequest userCreds = .ok request) :
    ∃ creds, AuthentificationService.receivedCreds request = .ok creds ∧
      creds.email.cstring = userCreds.email.cstring ∧
      creds.password.cstring = userCreds.password.cstring := by
  rcases loginRequest_eq_ok_iff.mp hrequest with ⟨hemail, hpassword⟩
  rw [hemail, hpassword]
  exact AuthentificationService.exists_receivedCreds_of_fits (loginRequest_fits hrequest)

/-! ## Opening a stream -/

/-- The server reads back the id that the client has printed. -/
theorem stoul_decimal (userId : UserID) : stoul (decimal userId.toNat) = some userId := by
  rcases decimal_eq_cons userId.toNat with ⟨d, ds, hcons, hd⟩
  have hdrop : (decimal userId.toNat).dropWhile isSpace = d :: ds := by
    rw [hcons, List.dropWhile_cons_of_neg (by simp [isSpace_eq_false_of_isDigit hd])]
  have htake : ((d :: ds).takeWhile isDigit).isEmpty = false := by
    simp [hd]
  have hvalue : digitsValue (d :: ds) = userId.toNat := by
    rw [← hcons, digitsValue_decimal]
  have hlt : ¬ UInt64.size ≤ userId.toNat := by
    have hsize := userId.toNat_lt_size
    omega
  unfold stoul
  rw [hdrop]
  -- a digit is not a sign
  split
  · rename_i hminus
    cases hminus
    contradiction
  · rename_i hplus
    cases hplus
    contradiction
  · simp only [htake, hvalue, if_neg hlt, Bool.false_eq_true, if_false, UInt64.ofNat_toNat]

/-- A stream is that of the user whose id stands in the metadata under its key, whatever
stands there under other keys. -/
theorem streamUser_of_metadata {metadata : List (Bytes × Bytes)} {userId : UserID}
    (hmem : (ascii "user_id", decimal userId.toNat) ∈ metadata)
    (honly : ∀ value, (ascii "user_id", value) ∈ metadata → value = decimal userId.toNat) :
    streamUser metadata = some userId := by
  have hfound : ∃ entry, metadata.find? (·.1 = ascii "user_id") = some entry := by
    rw [← Option.isSome_iff_exists, List.find?_isSome]
    exact ⟨_, hmem, by simp⟩
  rcases hfound with ⟨⟨key, value⟩, hfind⟩
  have hkey : key = ascii "user_id" := by simpa using List.find?_some hfind
  subst hkey
  have hvalue := honly value (List.mem_of_find?_eq_some hfind)
  subst hvalue
  simp only [streamUser, hfind]
  exact stoul_decimal userId

theorem streamUser_listenMetadata (client : GrpcEndpointClient) :
    streamUser client.listenMetadata = some client.userId := by
  have hkeys : ascii "user_id" ≠ ascii "username" := by decide
  refine streamUser_of_metadata List.mem_cons_self ?_
  intro value hmem
  rcases List.mem_cons.mp hmem with heq | hmem
  · exact (Prod.mk.inj heq).2
  · exact absurd (Prod.mk.inj (List.mem_singleton.mp hmem)).1 hkeys

/-! ## Sending -/

theorem zero_mem_of_writeMessage {stdin rest : Bytes} {buffer : CharArray GrpcClient.bufferSize}
    (hwrite : GrpcClient.writeMessage stdin = .ok (buffer, rest)) : (0 : UInt8) ∈ buffer.bytes := by
  unfold GrpcClient.writeMessage at hwrite
  split at hwrite
  · cases hwrite
    exact List.mem_replicate.mpr ⟨by decide, rfl⟩
  · rcases map_eq_ok_iff.mp hwrite with ⟨copied, hcopy, hpair⟩
    cases hpair
    exact (CharArray.zero_mem_of_memcpy_zeros hcopy).mpr (.inr (by simp))

/-- What an iteration of the loop sends is the text that it leaves in the buffer. -/
theorem carries_of_sendOnce {myId recepientId : UserID} {sender next : GrpcClient.Sender}
    {message : ProtobufItf.Envelope}
    (hsend : GrpcClient.sendOnce myId recepientId sender = .ok (message, next)) :
    GrpcClient.Carries myId recepientId (cstr next.buffer.bytes) message := by
  have hwritten : ∃ buffer rest, GrpcClient.writeMessage sender.stdin = .ok (buffer, rest) := by
    simp only [GrpcClient.sendOnce, bind_eq_ok_iff] at hsend
    rcases hsend with ⟨⟨buffer, rest⟩, hwrite, _⟩
    exact ⟨buffer, rest, hwrite⟩
  rcases hwritten with ⟨buffer, rest, hwrite⟩
  rcases GrpcClient.sendOnce_of_buffer myId recepientId hwrite (zero_mem_of_writeMessage hwrite)
    with ⟨message', hsend', hcarries⟩
  rw [hsend] at hsend'
  cases hsend'
  exact hcarries

/-! ## Printing -/

/-- A text that the server encodes is printed as it is, whatever the object held that it
was encoded into. -/
theorem printed_of_forwarded {env : Envelope} {old message : ProtobufItf.Envelope}
    {text : Bytes} (htext : env.payload.cstring = .ok text)
    (hencode : putEnvToProtoBuf env old = .ok message) : printed message = .ok text := by
  rcases putEnvToProtoBuf_eq_ok_iff.mp hencode with ⟨text', htext', rfl⟩
  rw [htext] at htext'
  cases htext'
  rcases cstring_fits htext with ⟨hlt, hfree⟩
  have hcstr : cstr text = text := cstr_eq_self_iff.mpr hfree
  rcases CharArray.exists_memcpy_eq_ok (CharArray.zeros sizeofPayload) hlt.le with
    ⟨payload, hcopy⟩
  have hdecode : getEnvFromProtoBuf (encodedEnvelope env old text) =
      .ok ⟨decodedMeta (encodedEnvelope env old text), payload⟩ :=
    getEnvFromProtoBuf_eq_ok_iff.mpr ⟨rfl, hcstr.symm ▸ hcopy⟩
  have hread := (CharArray.cstring_of_memcpy_zeros hcopy).mpr ⟨.inl hlt, hcstr.symm⟩
  simp only [printed, hdecode]
  exact hread

/-- Whatever is printed for a message is the text of the envelope that it encodes. -/
theorem cstring_of_printed {env : Envelope} {old message : ProtobufItf.Envelope} {text : Bytes}
    (hencode : putEnvToProtoBuf env old = .ok message) (hprinted : printed message = .ok text) :
    env.payload.cstring = .ok text := by
  rcases putEnvToProtoBuf_eq_ok_iff.mp hencode with ⟨text', htext, _⟩
  rw [printed_of_forwarded htext hencode] at hprinted
  rw [htext, hprinted]

end GrpcEndpointClient

end SimpleMessenger
