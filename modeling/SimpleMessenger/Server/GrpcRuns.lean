import SimpleMessenger.Foundations.StepSystem
import SimpleMessenger.Server.GrpcServer

/-!
# Interleaved calls of `GrpcServer.cpp`

The gRPC library runs every call in a thread of its own.  A call is a sequence of
atomic steps: each call of {lit}`isOnline`, {lit}`addUserToConnected` and
{lit}`disconnectUser` is one, each push or pop on a mailbox is one, and so is each
write to a stream.  A run takes the steps of any number of calls in any order.
The answer of the user database, the outcome of every write and the content of
fresh memory are inputs of the steps.

Main results:

- Theorem {lit}`steps_of_step`: the seven kinds of steps.
- Theorem {lit}`sessionIntegrity_iff`: the runs in which exactly the users that
  logged in and not out again are online.

Current gaps:

- A call whose next access is faulty takes no further step.
-/

namespace SimpleMessenger

open CMemory StepSystem

namespace GrpcEndpointServer

/-! ## Calls and their steps -/

inductive Status where
  | OK
  | CANCELLED
deriving DecidableEq

/-- Where a call of one of the three handlers stands. -/
inductive Handler where
  /-- `acceptConnection` before `addUserToConnected`. -/
  | connecting (userId : UserID)
  /-- `receiveMessage` after decoding. -/
  | received (receivedEnv : Envelope)
  /-- `receiveMessage` before `post_box[recipient_id].push`. -/
  | pushing (receivedEnv : Envelope)
  /-- `streamIncomingMessages` at the start of its loop. -/
  | polling (userId : UserID) (forwardedEnv : ProtobufItf.Envelope)
  /-- `streamIncomingMessages` before `post_box[user_id].pop`. -/
  | popping (userId : UserID) (forwardedEnv : ProtobufItf.Envelope)
  /-- `streamIncomingMessages` with an envelope to write. -/
  | forwarding (userId : UserID) (envToForward : Parcel) (forwardedEnv : ProtobufItf.Envelope)
  | returned (status : Status)
  /-- `std::stoul` threw. -/
  | threw
deriving DecidableEq

/-- The calls made so far, each under its number, and the post box. -/
structure State where
  handlers : List Handler := []
  postBox : PostBox := fun _ => none

inductive Action where
  /-- The call starts, with the answer of `checkIfRegistered`. -/
  | acceptConnection (answer : Option UserID)
  | receiveMessage (pEnv : ProtobufItf.Envelope)
  | streamIncomingMessages (metadata : List (Bytes × Bytes))
  /-- The next step of call `c`; a mailbox that it constructs is constructed in
  the given memory. -/
  | advance (c : Nat) (stack heap : PostBoxCell)
  /-- Call `c` writes its envelope, with the given outcome. -/
  | write (c : Nat) (ok : Bool)

inductive Event where
  | called (c : Nat)
  | received (c : Nat) (pEnv : ProtobufItf.Envelope)
  | added (c : Nat) (userId : UserID)
  | removed (c : Nat) (userId : UserID)
  | checked (c : Nat) (userId : UserID) (online : Bool)
  | pushed (c : Nat) (userId : UserID) (parcel : Parcel) (ok : Bool)
  | popped (c : Nat) (userId : UserID) (parcel : Option Parcel)
  | wrote (c : Nat) (userId : UserID) (parcel : Parcel) (forwardedEnv : ProtobufItf.Envelope)
      (ok : Bool)
deriving DecidableEq

/-- The library function `stoul`; `none` stands for an exception. -/
def stoul (value : Bytes) : Option UserID :=
  let signed :=
    match value.dropWhile isSpace with
    | 45 :: ds => (true, ds)
    | 43 :: ds => (false, ds)
    | ds => (false, ds)
  if (signed.2.takeWhile isDigit).isEmpty then none
  else if UInt64.size ≤ digitsValue signed.2 then none
  else if signed.1 then some (0 - UInt64.ofNat (digitsValue signed.2))
  else some (UInt64.ofNat (digitsValue signed.2))

/-- The user a stream belongs to, from the first metadata entry of that name. -/
def streamUser (metadata : List (Bytes × Bytes)) : Option UserID :=
  match metadata.find? (·.1 = ascii "user_id") with
  | none => some 0
  | some entry => stoul entry.2

/-- A new call. -/
def State.start (s : State) (handler : Handler) : State :=
  { s with handlers := s.handlers ++ [handler] }

/-- Call `c` goes on, leaving the given post box behind. -/
def State.goOn (s : State) (c : Nat) (handler : Handler) (postBox : PostBox) : State :=
  { handlers := s.handlers.set c handler, postBox := postBox }

/-- The next step of a call, except for a write. -/
def advance (s : State) (c : Nat) (stack heap : PostBoxCell) :
    Handler → Option (State × Event)
  | .connecting userId =>
      some (s.goOn c (.returned .OK) (s.postBox.addUserToConnected userId stack heap),
        .added c userId)
  | .received env =>
      match env.payload.cstring with
      | .error _ => none
      | .ok text =>
          if text = ascii "exit" then
            some (s.goOn c (.returned .OK) (s.postBox.disconnectUser (getSenderID env)),
              .removed c (getSenderID env))
          else if !s.postBox.isOnline (getRecepientID env) then
            some (s.goOn c (.returned .CANCELLED) s.postBox,
              .checked c (getRecepientID env) false)
          else some (s.goOn c (.pushing env) s.postBox, .checked c (getRecepientID env) true)
  | .pushing env =>
      match s.postBox.pushAt (getRecepientID env) heap { call := c, env := env } with
      | .error _ => none
      | .ok (ok, postBox) =>
          some (s.goOn c (.returned (if ok then .OK else .CANCELLED)) postBox,
            .pushed c (getRecepientID env) { call := c, env := env } ok)
  | .polling userId forwardedEnv =>
      if !s.postBox.isOnline userId then
        some (s.goOn c (.returned .OK) s.postBox, .checked c userId false)
      else some (s.goOn c (.popping userId forwardedEnv) s.postBox, .checked c userId true)
  | .popping userId forwardedEnv =>
      match s.postBox.popAt userId heap with
      | .error _ => none
      | .ok (none, postBox) =>
          some (s.goOn c (.polling userId forwardedEnv) postBox, .popped c userId none)
      | .ok (some parcel, postBox) =>
          some (s.goOn c (.forwarding userId parcel forwardedEnv) postBox,
            .popped c userId (some parcel))
  | .forwarding _ _ _ => none
  | .returned _ => none
  | .threw => none

/-- Encode the popped envelope over the object that held the last one and write
it; the outcome is ignored. -/
def write (s : State) (c : Nat) (ok : Bool) : Handler → Option (State × Event)
  | .forwarding userId parcel forwardedEnv =>
      match putEnvToProtoBuf parcel.env forwardedEnv with
      | .error _ => none
      | .ok message =>
          some (s.goOn c (.polling userId message) s.postBox, .wrote c userId parcel message ok)
  | _ => none

def step (s : State) : Action → Option (State × Event)
  | .acceptConnection none => some (s.start (.returned .CANCELLED), .called s.handlers.length)
  | .acceptConnection (some userId) =>
      some (s.start (.connecting userId), .called s.handlers.length)
  | .receiveMessage pEnv =>
      match getEnvFromProtoBuf pEnv with
      | .error _ => none
      | .ok env => some (s.start (.received env), .received s.handlers.length pEnv)
  | .streamIncomingMessages metadata =>
      match streamUser metadata with
      | none => some (s.start .threw, .called s.handlers.length)
      | some userId => some (s.start (.polling userId {}), .called s.handlers.length)
  | .advance c stack heap => s.handlers[c]?.bind (advance s c stack heap)
  | .write c ok => s.handlers[c]?.bind (write s c ok)

/-- The server, started without users and calls. -/
def server : StepSystem State Action Event where
  init := {}
  step := step

/-- A call other than the one that goes on stays where it is. -/
theorem State.goOn_keeps {s : State} {c d : Nat} {before after handler : Handler}
    (hd : s.handlers[d]? = some handler) (hc : s.handlers[c]? = some before)
    (hne : before ≠ handler) (box : PostBox) :
    (s.goOn c after box).handlers[d]? = some handler := by
  have hcd : c ≠ d := by
    intro hcd
    rw [hcd, hd] at hc
    exact hne (Option.some.inj hc).symm
  simpa [State.goOn, List.getElem?_set_ne hcd] using hd

/-! ## The kinds of steps -/

/-- The calls that an action can start as call `c`. -/
inductive Starts (c : Nat) : Action → Handler → Event → Prop where
  | rejected : Starts c (.acceptConnection none) (.returned .CANCELLED) (.called c)
  | accepted (userId : UserID) :
      Starts c (.acceptConnection (some userId)) (.connecting userId) (.called c)
  | received {pEnv : ProtobufItf.Envelope} {env : Envelope}
      (hdecode : getEnvFromProtoBuf pEnv = .ok env) :
      Starts c (.receiveMessage pEnv) (.received env) (.received c pEnv)
  | threw (metadata : List (Bytes × Bytes)) :
      Starts c (.streamIncomingMessages metadata) .threw (.called c)
  | stream (metadata : List (Bytes × Bytes)) (userId : UserID) :
      Starts c (.streamIncomingMessages metadata) (.polling userId {}) (.called c)

/-- The four outcomes of an `isOnline` check. -/
inductive Checks (box : PostBox) : Handler → Handler → UserID → Bool → Prop where
  | recipientOffline {env : Envelope} (hoffline : box.isOnline (getRecepientID env) = false) :
      Checks box (.received env) (.returned .CANCELLED) (getRecepientID env) false
  | recipientOnline {env : Envelope} (honline : box.isOnline (getRecepientID env) = true) :
      Checks box (.received env) (.pushing env) (getRecepientID env) true
  | userOffline {userId : UserID} {forwardedEnv : ProtobufItf.Envelope}
      (hoffline : box.isOnline userId = false) :
      Checks box (.polling userId forwardedEnv) (.returned .OK) userId false
  | userOnline {userId : UserID} {forwardedEnv : ProtobufItf.Envelope}
      (honline : box.isOnline userId = true) :
      Checks box (.polling userId forwardedEnv) (.popping userId forwardedEnv) userId true

/-- A stream goes on polling, or has an envelope to write. -/
def afterPop (userId : UserID) (forwardedEnv : ProtobufItf.Envelope) : Option Parcel → Handler
  | none => .polling userId forwardedEnv
  | some parcel => .forwarding userId parcel forwardedEnv

/-- Everything one step can do. -/
inductive Steps (s : State) : Action → State → Event → Prop where
  | start {a : Action} {handler : Handler} {e : Event}
      (hstart : Starts s.handlers.length a handler e) : Steps s a (s.start handler) e
  | add {c : Nat} {userId : UserID} {stack heap : PostBoxCell}
      (hc : s.handlers[c]? = some (.connecting userId)) :
      Steps s (.advance c stack heap)
        (s.goOn c (.returned .OK) (s.postBox.addUserToConnected userId stack heap))
        (.added c userId)
  | exit {c : Nat} {env : Envelope} {stack heap : PostBoxCell}
      (hc : s.handlers[c]? = some (.received env)) :
      Steps s (.advance c stack heap)
        (s.goOn c (.returned .OK) (s.postBox.disconnectUser (getSenderID env)))
        (.removed c (getSenderID env))
  | check {c : Nat} {before after : Handler} {userId : UserID} {online : Bool}
      {stack heap : PostBoxCell} (hc : s.handlers[c]? = some before)
      (hcheck : Checks s.postBox before after userId online) :
      Steps s (.advance c stack heap) (s.goOn c after s.postBox) (.checked c userId online)
  | push {c : Nat} {env : Envelope} {stack heap : PostBoxCell} {ok : Bool} {box : PostBox}
      (hc : s.handlers[c]? = some (.pushing env))
      (hpush : s.postBox.pushAt (getRecepientID env) heap { call := c, env := env } =
        .ok (ok, box)) :
      Steps s (.advance c stack heap)
        (s.goOn c (.returned (if ok then .OK else .CANCELLED)) box)
        (.pushed c (getRecepientID env) { call := c, env := env } ok)
  | pop {c : Nat} {userId : UserID} {forwardedEnv : ProtobufItf.Envelope}
      {stack heap : PostBoxCell} {item : Option Parcel} {box : PostBox}
      (hc : s.handlers[c]? = some (.popping userId forwardedEnv))
      (hpop : s.postBox.popAt userId heap = .ok (item, box)) :
      Steps s (.advance c stack heap) (s.goOn c (afterPop userId forwardedEnv item) box)
        (.popped c userId item)
  | write {c : Nat} {ok : Bool} {userId : UserID} {parcel : Parcel}
      {forwardedEnv message : ProtobufItf.Envelope}
      (hc : s.handlers[c]? = some (.forwarding userId parcel forwardedEnv))
      (hencode : putEnvToProtoBuf parcel.env forwardedEnv = .ok message) :
      Steps s (.write c ok) (s.goOn c (.polling userId message) s.postBox)
        (.wrote c userId parcel message ok)

theorem steps_of_advance {s s' : State} {c : Nat} {stack heap : PostBoxCell}
    {handler : Handler} {e : Event} (hc : s.handlers[c]? = some handler)
    (hstep : advance s c stack heap handler = some (s', e)) :
    Steps s (.advance c stack heap) s' e := by
  cases handler with
  | connecting userId =>
      cases hstep
      exact .add hc
  | received env =>
      simp only [advance] at hstep
      split at hstep
      · contradiction
      · split_ifs at hstep with hexit honline
        · cases hstep
          exact .exit hc
        · cases hstep
          exact .check hc (.recipientOffline (by simpa using honline))
        · cases hstep
          exact .check hc (.recipientOnline (by simpa using honline))
  | pushing env =>
      simp only [advance] at hstep
      split at hstep
      · contradiction
      · rename_i hpush
        cases hstep
        exact .push hc hpush
  | polling userId forwardedEnv =>
      simp only [advance] at hstep
      split_ifs at hstep with honline
      · cases hstep
        exact .check hc (.userOffline (by simpa using honline))
      · cases hstep
        exact .check hc (.userOnline (by simpa using honline))
  | popping userId forwardedEnv =>
      simp only [advance] at hstep
      split at hstep
      · contradiction
      · rename_i hpop
        cases hstep
        exact .pop hc hpop
      · rename_i hpop
        cases hstep
        exact .pop hc hpop
  | forwarding userId parcel forwardedEnv => contradiction
  | returned status => contradiction
  | threw => contradiction

theorem steps_of_write {s s' : State} {c : Nat} {ok : Bool} {handler : Handler} {e : Event}
    (hc : s.handlers[c]? = some handler) (hstep : write s c ok handler = some (s', e)) :
    Steps s (.write c ok) s' e := by
  cases handler with
  | forwarding userId parcel forwardedEnv =>
      simp only [write] at hstep
      split at hstep
      · contradiction
      · rename_i hencode
        cases hstep
        exact .write hc hencode
  | _ => contradiction

/-- Every computed step is one of the seven kinds. -/
theorem steps_of_step {s s' : State} {a : Action} {e : Event}
    (hstep : step s a = some (s', e)) : Steps s a s' e := by
  cases a with
  | acceptConnection answer =>
      cases answer with
      | none =>
          cases hstep
          exact .start .rejected
      | some userId =>
          cases hstep
          exact .start (.accepted userId)
  | receiveMessage pEnv =>
      simp only [step] at hstep
      split at hstep
      · contradiction
      · rename_i hdecode
        cases hstep
        exact .start (.received hdecode)
  | streamIncomingMessages metadata =>
      simp only [step] at hstep
      split at hstep
      · cases hstep
        exact .start (.threw metadata)
      · cases hstep
        exact .start (.stream metadata _)
  | advance c stack heap =>
      rcases Option.bind_eq_some_iff.mp hstep with ⟨handler, hc, hadvance⟩
      exact steps_of_advance hc hadvance
  | write c ok =>
      rcases Option.bind_eq_some_iff.mp hstep with ⟨handler, hc, hwrite⟩
      exact steps_of_write hc hwrite

/-- A call stays where it is unless it is the one that goes on. -/
theorem Steps.kept_or_own {s s' : State} {a : Action} {e : Event} (hsteps : Steps s a s' e)
    {c : Nat} {handler : Handler} (hc : s.handlers[c]? = some handler) :
    s'.handlers[c]? = some handler ∨ (∃ stack heap, a = .advance c stack heap) ∨
      ∃ ok, a = .write c ok := by
  have hkept : ∀ {d : Nat} (after : Handler) (box : PostBox),
      (s.goOn d after box).handlers[c]? = some handler ∨ d = c := by
    intro d after box
    rcases eq_or_ne d c with rfl | hdc
    · exact .inr rfl
    · left
      rw [State.goOn, List.getElem?_set_ne hdc, hc]
  cases hsteps with
  | start _ => exact .inl (getElem?_append_of_some hc)
  | write hd _ =>
      refine (hkept _ _).imp_right ?_
      rintro rfl
      exact .inr ⟨_, rfl⟩
  | _ =>
      refine (hkept _ _).imp_right ?_
      rintro rfl
      exact .inl ⟨_, _, rfl⟩

/-! ## Sessions -/

def Event.adds (u : UserID) : Event → Bool
  | .added _ v => u = v
  | _ => false

def Event.removes (u : UserID) : Event → Bool
  | .removed _ v => u = v
  | _ => false

/-- The user was added and not removed since. -/
def LoggedIn (u : UserID) (h : List Event) : Prop :=
  Since (fun e => e.adds u = true) (fun e => e.removes u = true) h

/-- Exactly the users that are logged in have a mailbox. -/
def SessionIntegrity (h : List Event) (s : State) : Prop :=
  ∀ u, s.postBox.isOnline u = true ↔ LoggedIn u h

/-- The user whose mailbox the next step accesses through {lit}`operator[]`. -/
def mailboxAccessed (s : State) : Action → Option UserID
  | .advance c _ _ =>
      match s.handlers[c]? with
      | some (.pushing env) => some (getRecepientID env)
      | some (.popping userId _) => some userId
      | _ => none
  | _ => none

/-- A mailbox is accessed only while its user is a key of the post box. -/
def KeyPresent : Guard State Action Event :=
  fun _ s a => ∀ u, mailboxAccessed s a = some u → s.postBox.isOnline u = true

theorem loggedIn_snoc {u : UserID} {h : List Event} {e : Event} :
    LoggedIn u (h ++ [e]) ↔
      e.adds u = true ∨ (¬ e.removes u = true ∧ LoggedIn u h) :=
  since_snoc

/-- A step without a mailbox access keeps session integrity. -/
theorem keyPresent_iff_of_no_access {s s' : State} {a : Action} {h h' : List Event}
    (hnone : mailboxAccessed s a = none) (hkeep : SessionIntegrity h' s') :
    KeyPresent h s a ↔ SessionIntegrity h' s' := by
  constructor
  · intro _
    exact hkeep
  · intro _ u hu
    rw [hnone] at hu
    contradiction

/-- A mailbox access keeps session integrity exactly if the key was present. -/
theorem keyPresent_iff_of_access {s s' : State} {a : Action} {h : List Event} {e : Event}
    {u : UserID} (haccess : mailboxAccessed s a = some u)
    (hadded : ∀ v, e.adds v = false) (hremoved : ∀ v, e.removes v = false)
    (hkeys : ∀ v, s'.postBox.isOnline v = true ↔ v = u ∨ s.postBox.isOnline v = true)
    (hinv : SessionIntegrity h s) :
    KeyPresent h s a ↔ SessionIntegrity (h ++ [e]) s' := by
  have hsame : ∀ v, LoggedIn v (h ++ [e]) ↔ s.postBox.isOnline v = true := by
    intro v
    rw [loggedIn_snoc, hinv v]
    simp [hadded, hremoved]
  constructor
  · intro hpresent v
    rw [hkeys, hsame]
    constructor
    · intro hv
      rcases hv with rfl | hv
      · exact hpresent v haccess
      · exact hv
    · intro hv
      exact .inr hv
  · intro hkeep v hv
    rw [haccess] at hv
    cases hv
    exact (hsame u).mp ((hkeep u).mp ((hkeys u).mpr (.inl rfl)))

/-- One step keeps session integrity exactly if it meets the condition. -/
theorem keyPresent_iff_of_steps {s s' : State} {a : Action} {h : List Event} {e : Event}
    (hsteps : Steps s a s' e) (hinv : SessionIntegrity h s) :
    KeyPresent h s a ↔ SessionIntegrity (h ++ [e]) s' := by
  cases hsteps with
  | start hstart =>
      have hnone : mailboxAccessed s a = none := by
        cases hstart <;> rfl
      refine keyPresent_iff_of_no_access hnone fun v => ?_
      rw [loggedIn_snoc, ← hinv v]
      cases hstart <;> simp [State.start, Event.adds, Event.removes]
  | add hc =>
      refine keyPresent_iff_of_no_access (by simp [mailboxAccessed, hc]) fun v => ?_
      rw [loggedIn_snoc, ← hinv v]
      simp [State.goOn, Event.adds, Event.removes, PostBox.isOnline_addUserToConnected]
  | exit hc =>
      refine keyPresent_iff_of_no_access (by simp [mailboxAccessed, hc]) fun v => ?_
      rw [loggedIn_snoc, ← hinv v]
      simp [State.goOn, Event.adds, Event.removes, PostBox.isOnline_disconnectUser]
  | check hc hcheck =>
      refine keyPresent_iff_of_no_access ?_ fun v => ?_
      · cases hcheck <;> simp [mailboxAccessed, hc]
      · rw [loggedIn_snoc, ← hinv v]
        simp [State.goOn, Event.adds, Event.removes]
  | push hc hpush =>
      exact keyPresent_iff_of_access (by simp [mailboxAccessed, hc]) (fun _ => rfl) (fun _ => rfl)
        (fun v => PostBox.isOnline_pushAt hpush) hinv
  | pop hc hpop =>
      exact keyPresent_iff_of_access (by simp [mailboxAccessed, hc]) (fun _ => rfl) (fun _ => rfl)
        (fun v => PostBox.isOnline_popAt hpop) hinv
  | write hc hencode =>
      refine keyPresent_iff_of_no_access rfl fun v => ?_
      rw [loggedIn_snoc, ← hinv v]
      simp [State.goOn, Event.adds, Event.removes]

theorem sessionIntegrity_start : SessionIntegrity [] server.init := by
  intro u
  simp [LoggedIn, server, PostBox.isOnline]

/-- The runs in which every mailbox is accessed while its key is present are
exactly those in which the online users are always the logged-in ones. -/
theorem sessionIntegrity_iff (h : List Event) (s : State) :
    server.Run KeyPresent h s ↔ server.Through Any SessionIntegrity h s := by
  have hkeep : ∀ h s a s' e, server.Run Any h s → SessionIntegrity h s → Any h s a →
      server.step s a = some (s', e) →
        (KeyPresent h s a ↔ SessionIntegrity (h ++ [e]) s') := by
    intro h s a s' e _ hinv _ hstep
    exact keyPresent_iff_of_steps (steps_of_step hstep) hinv
  rw [← run_iff_through sessionIntegrity_start hkeep]
  constructor
  · intro hrun
    exact hrun.mono fun _ _ _ hguard => ⟨trivial, hguard⟩
  · intro hrun
    exact hrun.mono fun _ _ _ hguard => hguard.2

/-- A text message. -/
def textMessage (sender recipient : UserID) (text : Bytes) : ProtobufItf.Envelope where
  metaData? := some { senderId := sender, recepientId := recipient }
  payload := text

/-- The next step of call `c`, in cleared memory. -/
def next (c : Nat) : Action :=
  .advance c PostBox.clearedMemory PostBox.clearedMemory

/-- User 1 logs in, user 2 sends a message to user 1, and user 1 logs out after
the recipient was found online and before the message is stored. -/
def logoutBeforePush : List Action :=
  [.acceptConnection (some 1), next 0,
    .receiveMessage (textMessage 2 1 (ascii "hello")), next 1,
    .receiveMessage (textMessage 1 0 (ascii "exit")), next 2,
    next 1]

/-- The message brings the user back online. -/
theorem sessionIntegrity_fails :
    ∃ h s, server.Run Any h s ∧ ¬ SessionIntegrity h s := by
  have hexec : (server.exec logoutBeforePush).map (fun run =>
      (run.2.postBox.isOnline 1, sinceTest (Event.adds 1) (Event.removes 1) run.1)) =
      some (true, false) := by
    decide +kernel
  rcases Option.map_eq_some_iff.mp hexec with ⟨⟨h, s⟩, hexec, hpair⟩
  rcases Prod.mk.inj hpair with ⟨honline, hsince⟩
  refine ⟨h, s, Run.of_exec hexec, ?_⟩
  intro hintegrity
  have hlogged := sinceTest_eq_true_iff.mpr ((hintegrity 1).mp honline)
  rw [hsince] at hlogged
  contradiction

end GrpcEndpointServer

end SimpleMessenger
