import SimpleMessenger.Common.CodecReuse
import SimpleMessenger.Foundations.TextInput

/-!
# The sending thread of `client_app_main.cpp`

The thread reads a recipient number, and then word after word until the word that it
has read is {lit}`exit`.  Every word goes through the text buffer and a raw envelope into
one protobuf object, which is handed to {lit}`client.sendEnvelope`.  What {lit}`scanf`
returns is not looked at, so that the loop goes on at the end of the input.

Main results:

- Theorem {lit}`sendOnce_of_word`: one iteration sends the text of the next word.
- Theorem {lit}`sendLoop_at_end`: at the end of the input the loop sends empty texts, as
  often as it is let.
- Theorem {lit}`sendsWords_iff`: the inputs of which exactly the words up to
  {lit}`exit` are sent.

Current gaps:

- A word that is longer than the buffer is a fault; the outcome of a call of
  {lit}`sendEnvelope` is ignored by the source and left out.
-/

namespace SimpleMessenger

open CMemory TextInput

namespace GrpcClient

/-! ## The functions of the source -/

/-- `buffer_size` -/
def bufferSize : Nat :=
  Envelope.size - sizeofEnvelopeMeta

def createTextEnvelope (senderId recepientId : UserID) : Envelope where
  metaData :=
    { header := { payloadSize := 234, totalSize := 400, messageType := .UserMessage }
      type := .TextMessage
      senderId := senderId
      recepientId := recepientId }
  payload := CharArray.zeros sizeofPayload

def embedText (env : Envelope) (textBuffer : CharArray bufferSize) : Checked Envelope :=
  (fun payload => { env with payload := payload }) <$> env.payload.memcpy textBuffer.bytes

/-- The text buffer and the rest of the input after `write_message`.  At the end of the
input the buffer stays cleared. -/
def writeMessage (stdin : Bytes) : Checked (CharArray bufferSize × Bytes) :=
  match scanWord stdin with
  | (none, rest) => .ok (CharArray.zeros bufferSize, rest)
  | (some word, rest) =>
      (fun textBuffer => (textBuffer, rest)) <$> (CharArray.zeros bufferSize).memcpy (word ++ [0])

/-- What the thread keeps from iteration to iteration. -/
structure Sender where
  buffer : CharArray bufferSize
  stdin : Bytes
  protoEnv : ProtobufItf.Envelope

/-- `strcmp(buffer, "exit") == 0` -/
def Sender.Exits (s : Sender) : Prop :=
  cstr s.buffer.bytes = ascii "exit"

instance (s : Sender) : Decidable s.Exits :=
  inferInstanceAs (Decidable (_ = _))

/-- The body of the loop, with the message that it hands to `sendEnvelope`. -/
def sendOnce (myId recepientId : UserID) (s : Sender) :
    Checked (ProtobufItf.Envelope × Sender) := do
  let env := createTextEnvelope myId recepientId
  let (buffer, stdin) ← writeMessage s.stdin
  let env ← embedText env buffer
  let protoEnv ← putEnvToProtoBuf env s.protoEnv
  return (protoEnv, { buffer := buffer, stdin := stdin, protoEnv := protoEnv })

/-- The first `n` iterations of the loop, or all of them if there are fewer. -/
def sendLoop (myId recepientId : UserID) :
    Nat → Sender → Checked (List ProtobufItf.Envelope × Sender)
  | 0, s => .ok ([], s)
  | n + 1, s =>
      if s.Exits then .ok ([], s)
      else do
        let (message, s') ← sendOnce myId recepientId s
        let (messages, last) ← sendLoop myId recepientId n s'
        return (message :: messages, last)

/-- Before the first iteration. -/
def Sender.start (stdin : Bytes) : Sender where
  buffer := CharArray.zeros bufferSize
  stdin := stdin
  protoEnv := {}

/-- The thread, for at most `n` iterations of its loop.  The recipient stays 0 if no
number is read. -/
def send (myId : UserID) (stdin : Bytes) (n : Nat) :
    Checked (List ProtobufItf.Envelope × Sender) :=
  let (number, rest) := scanULong stdin
  sendLoop myId (number.getD 0) n (.start rest)

/-! ## What should be sent -/

/-- The words up to the first `exit`, or all of them. -/
def upToExit : List Bytes → List Bytes
  | [] => []
  | word :: rest => if word = ascii "exit" then [word] else word :: upToExit rest

/-- The message decodes to the text, from the user to the recipient. -/
def Carries (myId recepientId : UserID) (text : Bytes) (message : ProtobufItf.Envelope) : Prop :=
  ∃ env, getEnvFromProtoBuf message = .ok env ∧ env.payload.cstring = .ok text ∧
    getSenderID env = myId ∧ getRecepientID env = recepientId

/-- The loop ends and has sent the words up to the first `exit`, one message each. -/
def SendsWords (myId recepientId : UserID) (stdin : Bytes) (input : List Bytes) : Prop :=
  ∃ n messages last, send myId stdin n = .ok (messages, last) ∧ last.Exits ∧
    List.Forall₂ (Carries myId recepientId) (upToExit input) messages

/-! ## One iteration -/

variable {myId recepientId : UserID} {s : Sender}

/-- A message carries one text. -/
theorem Carries.unique {text text' : Bytes} {message : ProtobufItf.Envelope}
    (h : Carries myId recepientId text message) (h' : Carries myId recepientId text' message) :
    text = text' := by
  rcases h with ⟨env, hdecode, htext, _⟩
  rcases h' with ⟨env', hdecode', htext', _⟩
  rw [hdecode] at hdecode'
  cases hdecode'
  rw [htext] at htext'
  exact Except.ok.inj htext'

/-- Whatever is in the buffer, terminated, goes out. -/
theorem sendOnce_of_buffer (myId recepientId : UserID) {buffer : CharArray bufferSize}
    {rest : Bytes}
    (hwrite : writeMessage s.stdin = .ok (buffer, rest)) (hzero : (0 : UInt8) ∈ buffer.bytes) :
    ∃ message, sendOnce myId recepientId s = .ok (message, ⟨buffer, rest, message⟩) ∧
      Carries myId recepientId (cstr buffer.bytes) message := by
  let env : Envelope := { createTextEnvelope myId recepientId with payload := buffer }
  have hcopy : (CharArray.zeros sizeofPayload).memcpy buffer.bytes = .ok buffer := by
    refine CharArray.memcpy_zeros_eq_ok_iff.mpr ?_
    have hlen : buffer.bytes.length = sizeofPayload := buffer.length_eq
    simp [hlen]
  have hembed : embedText (createTextEnvelope myId recepientId) buffer = .ok env := by
    rw [embedText]
    exact map_eq_ok_iff.mpr ⟨buffer, hcopy, rfl⟩
  have henv : env.Encodable := ⟨.inl rfl, .inl rfl, hzero⟩
  refine ⟨encodedEnvelope env s.protoEnv (cstr buffer.bytes), ?_, env.normalForm, ?_, ?_, rfl, rfl⟩
  · simp only [sendOnce, bind_eq_ok_iff]
    exact ⟨_, hwrite, env, hembed, _, putEnvToProtoBuf_of_terminated hzero s.protoEnv, rfl⟩
  · exact getEnvFromProtoBuf_encodedEnvelope henv s.protoEnv
  · exact CharArray.cstring_clearedTail hzero

/-- One iteration sends the text of the next word. -/
theorem sendOnce_of_word (myId recepientId : UserID) {word rest : Bytes}
    (hscan : scanWord s.stdin = (some word, rest)) (hshort : word.length < bufferSize) :
    ∃ message s', sendOnce myId recepientId s = .ok (message, s') ∧
      Carries myId recepientId (cstr word) message ∧ s'.stdin = rest ∧
      cstr s'.buffer.bytes = cstr word := by
  have hfits : (word ++ [0]).length ≤ bufferSize := by
    rw [List.length_append, List.length_singleton]
    exact hshort
  rcases CharArray.exists_memcpy_eq_ok (CharArray.zeros bufferSize) hfits with ⟨buffer, hcopy⟩
  have hwrite : writeMessage s.stdin = .ok (buffer, rest) := by
    rw [writeMessage, hscan]
    exact map_eq_ok_iff.mpr ⟨buffer, hcopy, rfl⟩
  have htext : (0 : UInt8) ∈ buffer.bytes ∧ cstr word = cstr buffer.bytes := by
    refine CharArray.cstring_eq_ok_iff.mp ((CharArray.cstring_of_memcpy_zeros hcopy).mpr ?_)
    exact ⟨.inr (by simp), (cstr_append_zero word []).symm⟩
  rcases sendOnce_of_buffer myId recepientId hwrite htext.1 with ⟨message, hsend, hcarries⟩
  rw [← htext.2] at hcarries
  exact ⟨message, _, hsend, hcarries, rfl, htext.2.symm⟩

/-- At the end of the input an iteration sends the empty text. -/
theorem sendOnce_at_end (myId recepientId : UserID) (hscan : scanWord s.stdin = (none, [])) :
    ∃ message s', sendOnce myId recepientId s = .ok (message, s') ∧
      Carries myId recepientId [] message ∧ s'.stdin = [] ∧ ¬ s'.Exits := by
  have hwrite : writeMessage s.stdin = .ok (CharArray.zeros bufferSize, []) := by
    rw [writeMessage, hscan]
  have hempty : cstr (CharArray.zeros bufferSize).bytes = [] := by decide +kernel
  rcases sendOnce_of_buffer myId recepientId hwrite (by decide +kernel) with
    ⟨message, hsend, hcarries⟩
  rw [hempty] at hcarries
  refine ⟨message, _, hsend, hcarries, rfl, ?_⟩
  rw [Sender.Exits, hempty]
  decide

/-! ## The loop -/

/-- While the loop goes on, it runs its body first. -/
theorem sendLoop_succ {n : Nat} {s' last : Sender} {message : ProtobufItf.Envelope}
    {messages : List ProtobufItf.Envelope} (hgoes : ¬ s.Exits)
    (hsend : sendOnce myId recepientId s = .ok (message, s')) :
    sendLoop myId recepientId (n + 1) s = .ok (messages, last) ↔
      ∃ later, sendLoop myId recepientId n s' = .ok (later, last) ∧ messages = message :: later := by
  rw [sendLoop, if_neg hgoes]
  simp only [bind_eq_ok_iff]
  constructor
  · rintro ⟨first, hfirst, later, hlater, hpair⟩
    rw [hsend] at hfirst
    cases hfirst
    cases hpair
    exact ⟨later.1, hlater, rfl⟩
  · rintro ⟨later, hlater, rfl⟩
    exact ⟨_, hsend, _, hlater, rfl⟩

/-- At the end of the input the loop sends an empty text in every iteration, and does
not end. -/
theorem sendLoop_at_end (myId recepientId : UserID) (hscan : scanWord s.stdin = (none, []))
    (hgoes : ¬ s.Exits) (n : Nat) :
    ∃ messages last, sendLoop myId recepientId n s = .ok (messages, last) ∧ ¬ last.Exits ∧
      List.Forall₂ (Carries myId recepientId) (List.replicate n []) messages := by
  induction n generalizing s with
  | zero => exact ⟨[], s, rfl, hgoes, .nil⟩
  | succ n ih =>
      rcases sendOnce_at_end myId recepientId hscan with
        ⟨message, s', hsend, hcarries, hrest, hnext⟩
      rcases ih (by rw [hrest]; rfl) hnext with ⟨later, last, hloop, hlast, hlater⟩
      exact ⟨message :: later, last, (sendLoop_succ hgoes hsend).mpr ⟨later, hloop, rfl⟩, hlast,
        .cons hcarries hlater⟩

/-! ## Inputs of which the right words are sent -/

/-- A text is sent as it is exactly if it is a C string. -/
theorem carries_iff_of_cstr {word : Bytes} {message : ProtobufItf.Envelope}
    (hcarries : Carries myId recepientId (cstr word) message) :
    Carries myId recepientId word message ↔ (0 : UInt8) ∉ word := by
  rw [← cstr_eq_self_iff]
  constructor
  · intro hword
    exact hcarries.unique hword
  · intro heq
    rwa [heq] at hcarries

/-- The loop ends and has sent the texts, one message each. -/
def Sends (myId recepientId : UserID) (s : Sender) (texts : List Bytes) : Prop :=
  ∃ n messages last, sendLoop myId recepientId n s = .ok (messages, last) ∧ last.Exits ∧
    List.Forall₂ (Carries myId recepientId) texts messages

/-- A loop that goes on sends what its first iteration sends, and then the rest. -/
theorem sends_cons_iff {s' : Sender} {message : ProtobufItf.Envelope} (hgoes : ¬ s.Exits)
    (hsend : sendOnce myId recepientId s = .ok (message, s')) (text : Bytes)
    (texts : List Bytes) :
    Sends myId recepientId s (text :: texts) ↔
      Carries myId recepientId text message ∧ Sends myId recepientId s' texts := by
  constructor
  · rintro ⟨n, messages, last, hloop, hlast, hall⟩
    cases n with
    | zero =>
        cases hloop
        contradiction
    | succ n =>
        rcases (sendLoop_succ hgoes hsend).mp hloop with ⟨later, hlater, rfl⟩
        cases hall with
        | cons hfirst hrest => exact ⟨hfirst, n, later, last, hlater, hlast, hrest⟩
  · rintro ⟨hfirst, n, later, last, hlater, hlast, hrest⟩
    exact ⟨n + 1, _, last, (sendLoop_succ hgoes hsend).mpr ⟨later, hlater, rfl⟩, hlast,
      .cons hfirst hrest⟩

/-- A loop that has come to its end has nothing to send. -/
theorem sends_nil_of_exits (hexits : s.Exits) : Sends myId recepientId s [] :=
  ⟨0, [], s, rfl, hexits, .nil⟩

/-- At the end of the input the loop does not end. -/
theorem not_sends_at_end (hscan : scanWord s.stdin = (none, [])) (hgoes : ¬ s.Exits)
    (texts : List Bytes) : ¬ Sends myId recepientId s texts := by
  rintro ⟨n, messages, last, hloop, hlast, _⟩
  rcases sendLoop_at_end myId recepientId hscan hgoes n with ⟨messages', last', hloop', hgoing, _⟩
  rw [hloop] at hloop'
  cases hloop'
  contradiction

/-- The words up to the first `exit` are sent exactly if there is one and none of them
has a zero byte. -/
theorem sends_upToExit_iff (ws : List Bytes) (hshort : ∀ word ∈ ws, word.length < bufferSize)
    (hwords : words s.stdin = ws) (hgoes : ¬ s.Exits) :
    Sends myId recepientId s (upToExit ws) ↔
      ascii "exit" ∈ ws ∧ ∀ word ∈ upToExit ws, (0 : UInt8) ∉ word := by
  induction ws generalizing s with
  | nil => simpa using not_sends_at_end (scanWord_of_words_nil hwords) hgoes _
  | cons word ws ih =>
      rcases scanWord_of_words_cons hwords with ⟨rest, hscan, hrest⟩
      rcases sendOnce_of_word myId recepientId hscan (hshort word List.mem_cons_self) with
        ⟨message, s', hsend, hcarries, hstdin, htext⟩
      by_cases hexit : word = ascii "exit"
      · -- the loop tests the text that it has just sent
        have hexits : s'.Exits := by
          rw [Sender.Exits, htext, hexit]
          rfl
        rw [upToExit, if_pos hexit, sends_cons_iff hgoes hsend, carries_iff_of_cstr hcarries]
        simp [hexit, sends_nil_of_exits hexits]
      · rw [upToExit, if_neg hexit, sends_cons_iff hgoes hsend, carries_iff_of_cstr hcarries]
        by_cases hzero : (0 : UInt8) ∈ word
        · simp [hzero]
        · have hnext : ¬ s'.Exits := by
            rw [Sender.Exits, htext, cstr_eq_self_iff.mpr hzero]
            exact hexit
          rw [ih (fun w hw => hshort w (List.mem_cons_of_mem _ hw)) (hstdin ▸ hrest) hnext]
          simp [hzero, Ne.symm hexit]

/-- Without an `exit` all texts are sent, and empty ones ever after. -/
theorem sendLoop_without_exit (myId recepientId : UserID) (ws : List Bytes)
    (hshort : ∀ word ∈ ws, word.length < bufferSize) (hwords : words s.stdin = ws)
    (hnone : ∀ word ∈ ws, cstr word ≠ ascii "exit") (hgoes : ¬ s.Exits) (n : Nat) :
    ∃ messages last, sendLoop myId recepientId (ws.length + n) s = .ok (messages, last) ∧
      ¬ last.Exits ∧
      List.Forall₂ (Carries myId recepientId) (ws.map cstr ++ List.replicate n []) messages := by
  induction ws generalizing s with
  | nil =>
      rw [List.length_nil, Nat.zero_add]
      exact sendLoop_at_end myId recepientId (scanWord_of_words_nil hwords) hgoes n
  | cons word ws ih =>
      rcases scanWord_of_words_cons hwords with ⟨rest, hscan, hrest⟩
      rcases sendOnce_of_word myId recepientId hscan (hshort word List.mem_cons_self) with
        ⟨message, s', hsend, hcarries, hstdin, htext⟩
      have hnext : ¬ s'.Exits := by
        rw [Sender.Exits, htext]
        exact hnone word List.mem_cons_self
      rcases ih (fun w hw => hshort w (List.mem_cons_of_mem _ hw)) (hstdin ▸ hrest)
        (fun w hw => hnone w (List.mem_cons_of_mem _ hw)) hnext with
        ⟨later, last, hloop, hlast, hlater⟩
      refine ⟨message :: later, last, ?_, hlast, .cons hcarries hlater⟩
      rw [List.length_cons, Nat.add_right_comm]
      exact (sendLoop_succ hgoes hsend).mpr ⟨later, hloop, rfl⟩

theorem start_goes (stdin : Bytes) : ¬ (Sender.start stdin).Exits := by
  have hempty : cstr (CharArray.zeros bufferSize).bytes ≠ ascii "exit" := by decide +kernel
  exact hempty

/-- Behind the number the loop is left with the words. -/
theorem sendsWords_iff_sends {stdin rest : Bytes} (hnumber : Numeral recepientId rest stdin)
    (input : List Bytes) :
    SendsWords myId recepientId stdin input ↔
      Sends myId recepientId (.start rest) (upToExit input) := by
  simp only [SendsWords, send, scanULong_numeral hnumber, Option.getD_some]
  rfl

/-- For an input of a number and words that fit into the buffer, the loop ends and sends
exactly the words up to the first `exit` if there is one, and none of them has a zero
byte; and only then. -/
theorem sendsWords_iff (myId : UserID) {recepientId : UserID} {stdin rest : Bytes}
    (hnumber : Numeral recepientId rest stdin)
    (hshort : ∀ word ∈ words rest, word.length ≤ 975) :
    SendsWords myId recepientId stdin (words rest) ↔
      ascii "exit" ∈ words rest ∧ ∀ word ∈ upToExit (words rest), (0 : UInt8) ∉ word := by
  rw [sendsWords_iff_sends hnumber]
  exact sends_upToExit_iff (words rest) (fun word hword => Nat.lt_succ_of_le (hshort word hword))
    rfl (start_goes rest)

/-- The number 7 and what follows it. -/
theorem numeral_seven {rest : Bytes} (hrest : ∀ b ∈ rest.head?, isSpace b = true) :
    Numeral 7 rest (55 :: rest) := by
  have hdigits : ∀ b ∈ [55], isDigit b = true := by
    rw [List.forall_mem_singleton]
    rfl
  exact @Numeral.intro 7 rest [] [55] (by simp) (by simp) hdigits rfl hrest

/-- Two words and a third one behind `exit`. -/
theorem sendsWords_untilExit :
    words (ascii " hi there exit not") = [ascii "hi", ascii "there", ascii "exit", ascii "not"] ∧
      SendsWords 1 7 (55 :: ascii " hi there exit not") (words (ascii " hi there exit not")) := by
  have hwords : words (ascii " hi there exit not") =
      [ascii "hi", ascii "there", ascii "exit", ascii "not"] := by
    decide +kernel
  refine ⟨hwords, (sendsWords_iff 1 (numeral_seven (by decide +kernel)) ?_).mpr ⟨?_, ?_⟩⟩
  · rw [hwords]
    decide +kernel
  · rw [hwords]
    decide +kernel
  · rw [hwords]
    decide +kernel

/-- One word and no `exit`: the loop does not end, and sends empty texts behind the
word. -/
theorem sendsWords_fails :
    words (ascii " hi") = [ascii "hi"] ∧
      ¬ SendsWords 1 7 (55 :: ascii " hi") (words (ascii " hi")) ∧
      ((send 1 (55 :: ascii " hi") 4).map fun r => r.1.map (·.payload)) =
        .ok [ascii "hi", [], [], []] := by
  have hwords : words (ascii " hi") = [ascii "hi"] := by decide +kernel
  have hshort : ∀ word ∈ words (ascii " hi"), word.length < bufferSize := by
    rw [hwords]
    decide +kernel
  refine ⟨hwords, ?_, by decide +kernel⟩
  intro hsent
  have hsends := (sendsWords_iff_sends (numeral_seven (by decide +kernel)) _).mp hsent
  have hexit := ((sends_upToExit_iff _ hshort rfl (start_goes _)).mp hsends).1
  rw [hwords] at hexit
  exact absurd hexit (by decide +kernel)

end GrpcClient

end SimpleMessenger
