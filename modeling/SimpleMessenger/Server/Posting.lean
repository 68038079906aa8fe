import SimpleMessenger.Server.Delivery

/-!
# Who can post

{lit}`receiveMessage` looks at the session of the recipient before it stores a
message.  The session of the sender matters to no branch: the sender is whoever the
request says, and it is read only to log that user out.

Main results:

- Theorem {lit}`staged_run`: how far every receiving call is, and what it has
  checked by then.
- Theorem {lit}`postedOnline`: a message is accepted, and is in a mailbox, only
  after its call has found the recipient online.
- Theorem {lit}`postedOnline_sender_fails`: the sender need never have logged in.
-/

namespace SimpleMessenger

open CMemory StepSystem NamedQueues

namespace GrpcEndpointServer

/-! ## What a receiving call has checked -/

/-- The message asks for a logout. -/
def SaysExit (env : Envelope) : Prop :=
  env.payload.cstring = .ok (ascii "exit")

instance (env : Envelope) : Decidable (SaysExit env) :=
  inferInstanceAs (Decidable (_ = _))

/-- Call `c` has found user `u` online at some moment of the history. -/
def FoundOnline (h : List Event) (c : Nat) (u : UserID) : Prop :=
  ∃ h₁ h₂ s₁, h = h₁ ++ .checked c u true :: h₂ ∧ server.Run Any h₁ s₁ ∧
    s₁.postBox.isOnline u = true

/-- Where call `c` can stand that has received `env`. -/
def Stage (h : List Event) (c : Nat) (env : Envelope) : Handler → Prop
  | .received env' => env' = env
  | .pushing env' => env' = env ∧ ¬ SaysExit env ∧ .checked c (getRecepientID env) true ∈ h
  | .returned .OK => ¬ SaysExit env → .checked c (getRecepientID env) true ∈ h
  | .returned .CANCELLED => True
  | _ => False

theorem Stage.mono {h : List Event} {c : Nat} {env : Envelope} {handler : Handler}
    (hstage : Stage h c env handler) (e : Event) : Stage (h ++ [e]) c env handler := by
  cases handler with
  | received env' => exact hstage
  | pushing env' => exact ⟨hstage.1, hstage.2.1, List.mem_append_left _ hstage.2.2⟩
  | returned status =>
      cases status with
      | OK => exact fun hne => List.mem_append_left _ (hstage hne)
      | CANCELLED => trivial
  | _ => exact hstage.elim

section Steps

variable {s s' : State} {a : Action} {c : Nat} {u : UserID} {env : Envelope}

/-- After decoding, a call logs its sender out or looks for its recipient. -/
theorem advance_received {stack heap : PostBoxCell} {e : Event}
    (hc : s.handlers[c]? = some (.received env))
    (hstep : step s (.advance c stack heap) = some (s', e)) :
    (SaysExit env ∧ e = .removed c (getSenderID env)) ∨
      (¬ SaysExit env ∧ ∃ online, e = .checked c (getRecepientID env) online) := by
  simp only [step, hc, Option.bind_some, advance] at hstep
  split at hstep
  · cases hstep
  · rename_i text htext
    have hexits : SaysExit env ↔ text = ascii "exit" := by
      rw [SaysExit, htext, Except.ok.injEq]
    split_ifs at hstep with hexit honline
    · cases hstep
      exact .inl ⟨hexits.mpr hexit, rfl⟩
    · cases hstep
      exact .inr ⟨fun h => hexit (hexits.mp h), _, rfl⟩
    · cases hstep
      exact .inr ⟨fun h => hexit (hexits.mp h), _, rfl⟩

/-- The answer of a check is the state of the post box at that moment. -/
theorem isOnline_of_checked {online : Bool} (hstep : step s a = some (s', .checked c u online)) :
    s.postBox.isOnline u = online := by
  cases steps_of_step hstep with
  | start hstart => cases hstart
  | check hc hcheck =>
      cases hcheck with
      | recipientOffline hoffline => exact hoffline
      | recipientOnline honline => exact honline
      | userOffline hoffline => exact hoffline
      | userOnline honline => exact honline

/-- A receiving call goes on to a stage that it may reach. -/
theorem Stage.advance {h : List Event} {e : Event} {handler : Handler} {stack heap : PostBoxCell}
    (hstep : step s (.advance c stack heap) = some (s', e)) (hc : s.handlers[c]? = some handler)
    (hstage : Stage h c env handler) :
    ∃ handler', s'.handlers[c]? = some handler' ∧ Stage (h ++ [e]) c env handler' := by
  cases steps_of_step hstep with
  | start hstart => cases hstart
  | add hd =>
      rw [hc] at hd
      cases hd
      exact hstage.elim
  | exit hd =>
      refine ⟨_, getElem?_set_of_some hd, fun hne => ?_⟩
      rw [hc] at hd
      cases hd
      cases hstage
      rcases advance_received hc hstep with ⟨hexits, _⟩ | ⟨_, online, hchecked⟩
      · exact absurd hexits hne
      · cases hchecked
  | check hd hcheck =>
      refine ⟨_, getElem?_set_of_some hd, ?_⟩
      rw [hc] at hd
      cases hd
      cases hcheck with
      | recipientOffline hoffline => trivial
      | recipientOnline honline =>
          cases hstage
          rcases advance_received hc hstep with ⟨_, hremoved⟩ | ⟨hnot, _⟩
          · cases hremoved
          · exact ⟨rfl, hnot, by simp⟩
      | userOffline hoffline => exact hstage.elim
      | userOnline honline => exact hstage.elim
  | @push _ _ _ _ ok _ hd hpush =>
      refine ⟨_, getElem?_set_of_some hd, ?_⟩
      rw [hc] at hd
      cases hd
      cases ok with
      | true => exact fun _ => List.mem_append_left _ hstage.2.2
      | false => trivial
  | pop hd hpop =>
      rw [hc] at hd
      cases hd
      exact hstage.elim

/-- Every step leaves a receiving call at a stage that it may reach. -/
theorem Stage.step {h : List Event} {e : Event} {handler : Handler}
    (hstep : step s a = some (s', e)) (hc : s.handlers[c]? = some handler)
    (hstage : Stage h c env handler) :
    ∃ handler', s'.handlers[c]? = some handler' ∧ Stage (h ++ [e]) c env handler' := by
  have hsteps := steps_of_step hstep
  rcases hsteps.kept_or_own hc with hkept | ⟨stack, heap, rfl⟩ | ⟨ok, rfl⟩
  · exact ⟨handler, hkept, hstage.mono e⟩
  · exact hstage.advance hstep hc
  · -- only a stream writes
    cases hsteps with
    | start hstart => cases hstart
    | write hd hencode =>
        rw [hc] at hd
        cases hd
        exact hstage.elim

end Steps

/-! ## Accepted and pending messages -/

/-- Every call that received a message is at a stage that it may reach. -/
def Staged (h : List Event) (s : State) : Prop :=
  ∀ (c : Nat) (p : ProtobufItf.Envelope) (env : Envelope), .received c p ∈ h →
    getEnvFromProtoBuf p = .ok env →
      ∃ handler, s.handlers[c]? = some handler ∧ Stage h c env handler

theorem staged_run {G : Guard State Action Event} {h : List Event} {s : State}
    (hrun : server.Run G h s) : Staged h s := by
  refine Run.invariant (I := fun h s => Staged h s) (by simp [Staged]) ?_ hrun
  intro h s a s' e _ hstaged _ hstep c p env hmem hdecode
  rcases List.mem_append.mp hmem with hold | hnew
  · rcases hstaged c p env hold hdecode with ⟨handler, hc, hstage⟩
    exact hstage.step hstep hc
  · -- the call has just been received
    cases List.mem_singleton.mp hnew
    cases steps_of_step hstep with
    | start hstart =>
        cases hstart with
        | received hdecode' =>
            rw [hdecode] at hdecode'
            cases hdecode'
            exact ⟨.received env, by simp [State.start], rfl⟩

theorem foundOnline_of_checked {h : List Event} {s : State} (hrun : server.Run Any h s) {c : Nat}
    {u : UserID} (hchecked : .checked c u true ∈ h) : FoundOnline h c u := by
  rcases List.append_of_mem hchecked with ⟨h₁, h₂, rfl⟩
  rcases hrun.split with ⟨s₁, a, s₂, hrun₁, _, hstep⟩
  exact ⟨h₁, h₂, s₁, rfl, hrun₁, isOnline_of_checked hstep⟩

/-- What has been accepted, and what is in the mailboxes, found its recipient
online. -/
structure PostedOnline (h : List Event) (s : State) : Prop where
  accepted : ∀ (c : Nat) (p : ProtobufItf.Envelope) (env : Envelope), .received c p ∈ h →
    getEnvFromProtoBuf p = .ok env → ¬ SaysExit env →
      s.handlers[c]? = some (.returned .OK) → FoundOnline h c (getRecepientID env)
  pending : server.Run FreshMailboxes h s → ∀ u, ∀ parcel ∈ s.postBox.held u,
    getRecepientID parcel.env = u ∧ ¬ SaysExit parcel.env ∧
      ∃ h₁ h₂, h = h₁ ++ .pushed parcel.call u parcel true :: h₂ ∧
        Requested h₁ parcel.call parcel.env ∧ FoundOnline h₁ parcel.call u

/-- A call stores what it received and checked. -/
theorem checked_of_pushed {h₁ h₂ : List Event} {s : State} {c : Nat} {u : UserID}
    {parcel : Parcel} {ok : Bool}
    (hrun : server.Run Any (h₁ ++ .pushed c u parcel ok :: h₂) s) :
    getRecepientID parcel.env = u ∧ ¬ SaysExit parcel.env ∧ Requested h₁ c parcel.env ∧
      FoundOnline h₁ c u := by
  rcases hrun.split with ⟨s₁, a, s₂, hrun₁, _, hstep⟩
  rcases (steps_of_step hstep).pushed with ⟨hpushing, _, hrecipient, _⟩
  have hrequested := (callInv_run hrun₁).requested c _ _ hpushing rfl
  rcases hrequested with ⟨p, hreceived, hdecode⟩
  rcases staged_run hrun₁ c p _ hreceived hdecode with ⟨handler, hc, hstage⟩
  rw [hpushing] at hc
  cases hc
  rcases hstage with ⟨_, hnot, hchecked⟩
  rw [hrecipient] at hchecked
  exact ⟨hrecipient, hnot, ⟨p, hreceived, hdecode⟩, foundOnline_of_checked hrun₁ hchecked⟩

/-- In every run, a message is accepted only if its recipient was found online. -/
theorem postedOnline {h : List Event} {s : State} (hrun : server.Run Any h s) :
    PostedOnline h s where
  accepted := by
    intro c p env hreceived hdecode hnot hreturned
    rcases staged_run hrun c p env hreceived hdecode with ⟨handler, hc, hstage⟩
    rw [hreturned] at hc
    cases hc
    exact foundOnline_of_checked hrun (hstage hnot)
  pending := by
    intro hfresh u parcel hheld
    rcases mem_puts_iff.mp ((leads_run hfresh).2.put_of_mem hheld) with ⟨c, hpushed⟩
    have hcall := ((callInv_run hrun).stored c u parcel true hpushed).1
    rw [← hcall] at hpushed
    rcases List.append_of_mem hpushed with ⟨h₁, h₂, heq⟩
    rw [heq] at hrun
    rcases checked_of_pushed hrun with ⟨hrecipient, hnot, hrequested, hfound⟩
    exact ⟨hrecipient, hnot, h₁, h₂, heq, hrequested, hfound⟩

/-- User 1 logs in, and a message to user 1 is stored. -/
def postOnce : List Action :=
  (relayOnce helloMessage true).take 5

/-- What that run shows. -/
def postHistory : List Event :=
  (relayHistory helloMessage true).take 5

/-- The stored message of that run found user 1 online. -/
theorem postedOnline_hello : FoundOnline postHistory 1 1 := by
  have hexec : (server.exec postOnce).map (fun r => (r.1, r.2.handlers[1]?)) =
      some (postHistory, some (.returned .OK)) := by
    decide +kernel
  rcases Option.map_eq_some_iff.mp hexec with ⟨⟨h, s⟩, hexec, hpair⟩
  rcases Prod.mk.inj hpair with ⟨rfl, hreturned⟩
  refine (postedOnline (Run.of_exec hexec)).accepted 1 helloMessage (storedParcel helloMessage).env
    ?_ ?_ ?_ hreturned
  · decide +kernel
  · decide +kernel
  · decide +kernel

/-- A message of user 2, who has never logged in, is accepted and pending. -/
theorem postedOnline_sender_fails :
    ∃ s parcel, server.Run FreshMailboxes postHistory s ∧ parcel ∈ s.postBox.held 1 ∧
      s.handlers[parcel.call]? = some (.returned .OK) ∧ ¬ SaysExit parcel.env ∧
      getSenderID parcel.env = 2 ∧ ∀ h₁, h₁ <+: postHistory → ¬ LoggedIn 2 h₁ := by
  have hexec : (server.execFrom (fun _ _ => cursorsEmpty) [] server.init postOnce).map
      (fun r => (r.1, r.2.postBox.held 1, r.2.handlers[1]?)) =
      some (postHistory, [storedParcel helloMessage], some (.returned .OK)) := by
    decide +kernel
  rcases Option.map_eq_some_iff.mp hexec with ⟨⟨h, s⟩, hexec, htriple⟩
  simp only [Prod.mk.injEq] at htriple
  rcases htriple with ⟨rfl, hheld, hreturned⟩
  refine ⟨s, storedParcel helloMessage,
    Run.of_execFrom freshMailboxes_of_cursorsEmpty .start hexec, by simp [hheld], hreturned,
    by decide +kernel, by decide +kernel, ?_⟩
  rintro h₁ hprefix ⟨h₀, e, h₂, rfl, hadds, _⟩
  have hmem : e ∈ postHistory := hprefix.subset (by simp)
  have hnone : ∀ e ∈ postHistory, e.adds 2 = false := by
    decide +kernel
  rw [hnone e hmem] at hadds
  cases hadds

end GrpcEndpointServer

end SimpleMessenger
