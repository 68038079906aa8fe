import Mathlib.Data.List.Infix
import SimpleMessenger.Server.Acceptance
import SimpleMessenger.Server.Posting
import SimpleMessenger.System.Conversation

/-!
# Accepted texts arrive

The server answers a text with {lit}`OK` once it is in the mailbox of its recipient.  As
long as the recipient stays logged in from then on and no stream breaks, this very text is
in that mailbox, with one of the recipient's streams, under way to one of the recipient's
clients, or on its screen.

Main results:

- Theorem {lit}`posted_of_checked`: a call that returns {lit}`OK` for a text has stored it.
- Theorem {lit}`owned_run`: every stream of the server is that of a client.
- Theorem {lit}`accepted_texts_arrive`: where an accepted text is.

Current gaps:

- That a text on its way gets on is up to the schedulers of both sides.
-/

namespace SimpleMessenger

open CMemory StepSystem NamedQueues GrpcEndpointServer GrpcEndpointClient

namespace GrpcEndpointServer

/-! ## Calls that return OK -/

/-- A call that has found the recipient of its message online is about to store the
message, or has tried to. -/
def Posted (h : List Event) (s : State) : Prop :=
  ∀ c env u, Requested h c env → .checked c u true ∈ h →
    s.handlers[c]? = some (.pushing env) ∨
      ∃ ok, .pushed c (getRecepientID env) { call := c, env := env } ok ∈ h

theorem Requested.of_snoc {h : List Event} {e : Event} {c : Nat} {env : Envelope}
    (hreq : Requested (h ++ [e]) c env) :
    Requested h c env ∨ ∃ p, e = .received c p := by
  rcases hreq with ⟨p, hmem, hdecode⟩
  rcases List.mem_append.mp hmem with hin | hnew
  · exact .inl ⟨p, hin, hdecode⟩
  · exact .inr ⟨p, (List.mem_singleton.mp hnew).symm⟩

/-- A call that is about to store its message stays so, or stores it. -/
theorem Posted.keep {h : List Event} {s s' : State} {a : Action} {e : Event} {c : Nat}
    {env : Envelope} (hsteps : Steps s a s' e)
    (hold : s.handlers[c]? = some (.pushing env) ∨
      ∃ ok, .pushed c (getRecepientID env) { call := c, env := env } ok ∈ h) :
    s'.handlers[c]? = some (.pushing env) ∨
      ∃ ok, .pushed c (getRecepientID env) { call := c, env := env } ok ∈ h ++ [e] := by
  rcases hold with hpushing | ⟨ok, hpushed⟩
  · cases hsteps with
    | start _ => exact .inl (getElem?_append_of_some hpushing)
    | add hc => exact .inl (State.goOn_keeps hpushing hc (by simp) _)
    | exit hc => exact .inl (State.goOn_keeps hpushing hc (by simp) _)
    | check hc hcheck => exact .inl (State.goOn_keeps hpushing hc (by cases hcheck <;> simp) _)
    | pop hc _ => exact .inl (State.goOn_keeps hpushing hc (by simp) _)
    | write hc _ => exact .inl (State.goOn_keeps hpushing hc (by simp) _)
    | @push d env' _ _ ok _ hc _ =>
        by_cases hdc : d = c
        · subst hdc
          rw [hpushing] at hc
          cases hc
          exact .inr ⟨ok, List.mem_concat_self⟩
        · left
          rwa [State.goOn, List.getElem?_set_ne hdc]
  · exact .inr ⟨ok, List.mem_append_left _ hpushed⟩

theorem Posted.step {G : Guard State Action Event} {h : List Event} {s s' : State} {a : Action}
    {e : Event} (hold : Posted h s) (hrun : server.Run G h s) (hsteps : Steps s a s' e) :
    Posted (h ++ [e]) s' := by
  intro c env u hreq hchecked
  rcases List.mem_append.mp hchecked with hin | hnew
  · rcases hreq.of_snoc with hreq | ⟨p, rfl⟩
    · exact Posted.keep hsteps (hold c env u hreq hin)
    · -- the call has only just been received
      have hlt : c < s.handlers.length := call_lt_run hrun _ hin
      exact absurd hsteps.received.1 (Nat.ne_of_lt hlt)
  · cases List.mem_singleton.mp hnew
    rcases hreq.of_snoc with ⟨p, hreceived, hdecode⟩ | ⟨p, hp⟩
    · rcases staged_run hrun c p env hreceived hdecode with ⟨handler, hc, hstage⟩
      cases hsteps with
      | start hstart => cases hstart
      | check hd hcheck =>
          rw [hc] at hd
          cases hd
          cases hcheck with
          | recipientOnline _ =>
              cases hstage
              exact .inl (getElem?_set_of_some hc)
          | userOnline _ => exact hstage.elim
    · cases hp

/-- A call that returns `OK` for a text other than the logout has stored it. -/
theorem posted_of_checked {G : Guard State Action Event} {h : List Event} {s : State}
    (hrun : server.Run G h s) {c : Nat} {env : Envelope} (hreq : Requested h c env)
    (htext : ¬ SaysExit env) (hok : s.handlers[c]? = some (.returned .OK)) :
    .pushed c (getRecepientID env) { call := c, env := env } true ∈ h := by
  have hposted : Posted h s := by
    refine hrun.invariant (I := Posted) (by simp [Posted]) ?_
    intro h s a s' e hprev hold _ hstep
    exact hold.step hprev (steps_of_step hstep)
  rcases hreq with ⟨p, hreceived, hdecode⟩
  rcases staged_run hrun c p env hreceived hdecode with ⟨handler, hc, hstage⟩
  rw [hok] at hc
  cases hc
  rcases hposted c env _ ⟨p, hreceived, hdecode⟩ (hstage htext) with hpushing | ⟨ok, hpushed⟩
  · rw [hok] at hpushing
    cases hpushing
  · have hreturned := ((callInv_run hrun).stored c _ _ ok hpushed).2.2.2
    rw [hok] at hreturned
    cases ok with
    | true => exact hpushed
    | false => cases hreturned

/-! ## Where streams come from -/

/-- The call is a stream that has not ended. -/
def Handler.Polls (handler : Handler) : Prop :=
  ∃ message, handler.message = some message

/-- A stream was there before, or has just been called. -/
theorem Steps.polls_cases {s s' : State} {a : Action} {e : Event} (hsteps : Steps s a s' e)
    {c : Nat} {handler : Handler} (hc : s'.handlers[c]? = some handler) (hpolls : handler.Polls) :
    (c = s.handlers.length ∧ ∃ metadata, a = .streamIncomingMessages metadata) ∨
      ∃ before, s.handlers[c]? = some before ∧ before.Polls := by
  have hgoOn : ∀ {d : Nat} {before after : Handler} {box : PostBox},
      s.handlers[d]? = some before → (after.Polls → before.Polls) →
        (s.goOn d after box).handlers[c]? = some handler →
          ∃ before, s.handlers[c]? = some before ∧ before.Polls := by
    intro d before after box hd hback hc
    rcases getElem?_set_cases hc with ⟨rfl, rfl⟩ | ⟨_, hc⟩
    · exact ⟨before, hd, hback hpolls⟩
    · exact ⟨handler, hc, hpolls⟩
  cases hsteps with
  | start hstart =>
      rcases getElem?_append_cases hc with ⟨rfl, rfl⟩ | hc
      · cases hstart with
        | stream metadata u => exact .inl ⟨rfl, metadata, rfl⟩
        | _ =>
            rcases hpolls with ⟨message, hmessage⟩
            cases hmessage
      · exact .inr ⟨handler, hc, hpolls⟩
  | add hd => exact .inr (hgoOn hd (fun ⟨_, hmessage⟩ => by cases hmessage) hc)
  | exit hd => exact .inr (hgoOn hd (fun ⟨_, hmessage⟩ => by cases hmessage) hc)
  | push hd _ => exact .inr (hgoOn hd (fun ⟨_, hmessage⟩ => by cases hmessage) hc)
  | check hd hcheck =>
      refine .inr (hgoOn hd ?_ hc)
      rintro ⟨message, hmessage⟩
      cases hcheck with
      | userOnline _ => exact ⟨_, rfl⟩
      | _ => cases hmessage
  | pop hd _ => exact .inr (hgoOn hd (fun _ => ⟨_, rfl⟩) hc)
  | write hd _ => exact .inr (hgoOn hd (fun _ => ⟨_, rfl⟩) hc)

end GrpcEndpointServer

namespace Messenger

/-! ## Streams and clients -/

/-- A client keeps its stream. -/
theorem Steps.stream_kept {s s' : State} {a : Action} {e : Event} (hsteps : Steps s a s' e)
    {k c : Nat} (hstream : s.stream k = some c) : s'.stream k = some c := by
  rcases hsteps.stream_cases with hsame | ⟨j, _, _, _, _, hnone, _, _, _, hothers⟩
  · rw [hsame, hstream]
  · have hkj : k ≠ j := by
      rintro rfl
      rw [hstream] at hnone
      cases hnone
    rw [hothers k hkj, hstream]

/-- Every stream of the server, and every stream that has delivered anything, is that of a
client. -/
structure Owned (h : List Event) (s : State) : Prop where
  polls : ∀ c handler, s.server.handlers[c]? = some handler → handler.Polls →
    ∃ k, s.stream k = some c
  delivered : ∀ c parcel, parcel ∈ deliveredBy c (history h) → ∃ k, s.stream k = some c

theorem Owned.polls_step {h : List Event} {s s' : State} {a : Action} {e : Event}
    (hold : Owned h s) (hsteps : Steps s a s' e) {c : Nat} {handler : Handler}
    (hc : s'.server.handlers[c]? = some handler) (hpolls : handler.Polls) :
    ∃ k, s'.stream k = some c := by
  have hkept : (∃ before, s.server.handlers[c]? = some before ∧ before.Polls) →
      ∃ k, s'.stream k = some c := by
    rintro ⟨before, hbefore, hpolls⟩
    rcases hold.polls c before hbefore hpolls with ⟨k, hk⟩
    exact ⟨k, hsteps.stream_kept hk⟩
  have hserver : ∀ {b : GrpcEndpointServer.Action} {d : GrpcEndpointServer.Event},
      GrpcEndpointServer.step s.server b = some (s'.server, d) →
        (∀ metadata, b ≠ .streamIncomingMessages metadata) → ∃ k, s'.stream k = some c := by
    intro b d hstep hb
    rcases (GrpcEndpointServer.steps_of_step hstep).polls_cases hc hpolls with
      ⟨_, metadata, heq⟩ | hbefore
    · exact absurd heq (hb metadata)
    · exact hkept hbefore
  cases hsteps with
  | start hstep => exact hserver hstep nofun
  | send _ _ _ _ hstep => exact hserver hstep nofun
  | serve ha hstep =>
      refine hserver hstep ?_
      rintro metadata rfl
      cases a <;> cases ha
  | @listen j client _ _ hj _ _ hstep =>
      rcases (GrpcEndpointServer.steps_of_step hstep).polls_cases hc hpolls with
        ⟨rfl, _⟩ | hbefore
      · refine ⟨j, ?_⟩
        rw [State.stream, getElem?_set_of_some hj]
        rfl
      · exact hkept hbefore
  | _ => exact hkept ⟨handler, hc, hpolls⟩

theorem Owned.step {h : List Event} {s s' : State} {a : Action} {e : Event}
    (hold : Owned h s) (hsteps : Steps s a s' e) (hfresh : FreshMailboxes h s a) :
    Owned (h ++ [e]) s' where
  polls := fun _ _ hc hpolls => hold.polls_step hsteps hc hpolls
  delivered := by
    intro c parcel hmem
    rw [deliveredBy_history_snoc] at hmem
    rcases List.mem_append.mp hmem with hin | hnew
    · rcases hold.delivered c parcel hin with ⟨k, hk⟩
      exact ⟨k, hsteps.stream_kept hk⟩
    · rcases hsteps.server hfresh with ⟨hnone, _⟩ | ⟨b, d, hsome, _, hstep⟩
      · rw [hnone] at hnew
        cases hnew
      · rw [hsome] at hnew
        have hdelivered : d.deliveredBy? c = some parcel := Option.mem_toList.mp hnew
        cases d with
        | wrote d' u parcel' message ok =>
            cases ok with
            | true =>
                simp only [GrpcEndpointServer.Event.deliveredBy?,
                  Option.ite_none_right_eq_some] at hdelivered
                rcases hdelivered with ⟨rfl, _⟩
                -- the stream that writes was there before the step
                rcases (GrpcEndpointServer.steps_of_step hstep).wrote with ⟨old, hforwarding, _⟩
                rcases hold.polls _ _ hforwarding ⟨old, rfl⟩ with ⟨k, hk⟩
                exact ⟨k, hsteps.stream_kept hk⟩
            | false => cases hdelivered
        | _ => cases hdelivered

theorem owned_run {h : List Event} {s : State} (hrun : messenger.Run FreshMailboxes h s) :
    Owned h s := by
  have hstart : Owned [] messenger.init := by
    constructor <;> simp [messenger, deliveredBy]
  refine hrun.invariant hstart ?_
  intro h s a s' e _ hold hfresh hstep
  exact hold.step (steps_of_step hstep) hfresh

/-! ## Undisturbed runs -/

/-- New mailboxes are well formed and empty, no write fails, and no client hangs up. -/
def Undisturbed : Guard State Action Event :=
  fun h s a => FreshMailboxes h s a ∧ (∀ c, a ≠ .write c false) ∧ ∀ k, a ≠ .hangUp k

/-- In an undisturbed run the server loses nothing. -/
theorem noLoss_run {h : List Event} {s : State} (hrun : messenger.Run Undisturbed h s) :
    NoLoss (history h) s.server := by
  have hserver : GrpcEndpointServer.server.Run
      (fun h s a => GrpcEndpointServer.FreshMailboxes h s a ∧ WritesSucceed h s a)
      (history h) s.server := by
    refine hrun.component State.server Event.server? rfl fun h s a s' e hguard hstep => ?_
    rcases (steps_of_step hstep).server hguard.1 with hnone | ⟨b, d, hsome, hboth, hstep'⟩
    · exact .inl hnone
    · refine .inr ⟨b, d, hsome, ⟨hboth.1, fun c _ _ _ hb => ?_⟩, hstep'⟩
      exact absurd (hboth.2 c false hb) (hguard.2.1 c)
  refine hserver.invariant (I := NoLoss) ?_ ?_
  · intro u parcel haccepted
    exact absurd haccepted (not_since_nil _ _)
  · intro h s a s' e hprev hinv hguard hstep
    exact noLoss_step (hprev.mono fun _ _ _ hboth => hboth.1) hguard.1
      (GrpcEndpointServer.steps_of_step hstep) hinv hguard.2

/-- Where no client hangs up, no stream ends for its client. -/
theorem not_ended_run {h : List Event} {s : State} (hrun : messenger.Run Undisturbed h s) :
    ∀ client ∈ s.clients, ∀ c, client.listening ≠ .ended c := by
  refine hrun.invariant (I := fun _ s => ∀ client ∈ s.clients, ∀ c, client.listening ≠ .ended c)
    nofun ?_
  intro h s a s' e _ hold hguard hstep
  have hset : ∀ {j : Nat} {after : Client}, (∀ c, after.listening ≠ .ended c) →
      ∀ client ∈ s.clients.set j after, ∀ c, client.listening ≠ .ended c := by
    intro j after hafter client hmem
    rcases List.mem_or_eq_of_mem_set hmem with hin | rfl
    · exact hold client hin
    · exact hafter
  cases steps_of_step hstep with
  | start _ =>
      intro client hmem
      rcases List.mem_append.mp hmem with hin | hnew
      · exact hold client hin
      · rw [List.mem_singleton.mp hnew]
        exact nofun
  | listen _ _ _ _ => exact hset nofun
  | hangUp _ _ => exact absurd rfl (hguard.2.2 _)
  | serve _ _ =>
      intro client hmem
      rcases List.mem_map.mp hmem with ⟨before, hin, rfl⟩
      rw [Client.receive_listening]
      exact hold before hin
  | granted hj _ _ | refused hj _ | ask hj _ | send hj _ _ _ _ | lose hj _ | proceed hj _ _
  | abandon hj _ | print hj _ _ _ =>
      have hbefore := hold _ (List.mem_of_getElem? hj)
      exact hset hbefore

/-! ## Where an accepted text is -/

/-- The text that call `c` has stored for user `u` is in the user's mailbox, with a stream
of the user, under way to a client of the user, or has been printed by one.  A client prints
its stream's texts one by one, so that those under way follow those printed. -/
inductive Arrives (h : List Event) (s : State) (u : UserID) (text : Bytes) (c : Nat) : Prop where
  | mailbox {parcel : Parcel} (hmem : parcel ∈ s.server.postBox.held u) (hcall : parcel.call = c)
      (htext : parcel.env.payload.cstring = .ok text)
  | stream {d : Nat} {parcel : Parcel} {old : ProtobufItf.Envelope}
      (hforwarding : s.server.handlers[d]? = some (.forwarding u parcel old))
      (hcall : parcel.call = c) (htext : parcel.env.payload.cstring = .ok text)
  | inFlight {k i : Nat} {client : Client} {message : ProtobufItf.Envelope}
      (hk : s.clients[k]? = some client) (hidentity : s.identity k = some u)
      (hmessage : client.inFlight[i]? = some message)
      (hsent : SentOn h s k ((printedBy k h).length + i) c) (htext : printed message = .ok text)
  | printed {k i : Nat} (hline : (printedBy k h)[i]? = some (u, text)) (hsent : SentOn h s k i c)

/-- User `u` has not been logged out since call `c` stored its text. -/
def StaysOnline (h : List GrpcEndpointServer.Event) (u : UserID) (c : Nat) : Prop :=
  ∀ h₁ parcel h₂, h = h₁ ++ .pushed c u parcel true :: h₂ → ∀ d, .removed d u ∉ h₂

theorem exists_getElem?_of_forall₂ {α β : Type*} {R : α → β → Prop} {xs : List α} {ys : List β}
    (hall : List.Forall₂ R xs ys) {i : Nat} {y : β} (hy : ys[i]? = some y) :
    ∃ x, xs[i]? = some x ∧ R x y := by
  rcases List.getElem?_eq_some_iff.mp hy with ⟨hlt, rfl⟩
  have hlt' : i < xs.length := hall.length_eq ▸ hlt
  exact ⟨xs[i], List.getElem?_eq_getElem hlt', hall.get hlt' hlt⟩

/-- A stream delivers envelopes that are addressed to its user. -/
theorem recipient_of_delivered {h : List GrpcEndpointServer.Event} {server : GrpcEndpointServer.State}
    (hrun : GrpcEndpointServer.server.Run GrpcEndpointServer.FreshMailboxes h server) {c : Nat}
    {u : UserID} (hserves : Serves h server c u) {parcel : Parcel}
    (hmem : parcel ∈ deliveredBy c h) : getRecepientID parcel.env = u := by
  have hfor := (poppedBy_sublist_poppedFor hserves.pops).subset
    ((deliveredBy_sublist_poppedBy hrun c).subset hmem)
  rcases List.mem_map.mp hfor with ⟨⟨v, parcel'⟩, htaken, rfl⟩
  have hv : u = v := by simpa using (List.mem_filter.mp htaken).2
  have hpushed := pushed_of_popped hrun (List.mem_filter.mp htaken).1
  rw [hv]
  exact ((callInv_run hrun).stored _ v parcel' true hpushed).2.1

/-- What a stream has delivered has been printed by its client, or is under way to it. -/
theorem arrives_of_delivered {h : List Event} {s : State} (hrun : messenger.Run Undisturbed h s)
    {d : Nat} {u : UserID} {parcel : Parcel} {text : Bytes}
    (hdelivered : parcel ∈ deliveredBy d (history h)) (hrecipient : getRecepientID parcel.env = u)
    (htext : parcel.env.payload.cstring = .ok text) : Arrives h s u text parcel.call := by
  have hfresh : messenger.Run FreshMailboxes h s := hrun.mono fun _ _ _ hguard => hguard.1
  rcases (owned_run hfresh).delivered d parcel hdelivered with ⟨k, hstream⟩
  rcases (streaming_run hfresh).serves k d hstream with ⟨v, hidentity, hserves⟩
  have hv : v = u := (recipient_of_delivered (server_run hfresh) hserves hdelivered).symm.trans
    hrecipient
  subst hv
  rcases Option.bind_eq_some_iff.mp hstream with ⟨client, hk, hcall⟩
  have hwatches := watched_run hfresh k client hk
  cases hlistening : client.listening with
  | notStarted =>
      rw [Client.stream?, hlistening] at hcall
      cases hcall
  | ended d' => exact absurd hlistening (not_ended_run hrun client (List.mem_of_getElem? hk) d')
  | streaming d' =>
      rw [Client.stream?, hlistening] at hcall
      cases hcall
      rw [hlistening] at hwatches
      cases hwatches with
      | @streaming _ read pending _ hsplit hread hflight =>
          rcases List.getElem?_of_mem hdelivered with ⟨i, hi⟩
          have hsent : SentOn h s k i parcel.call := by
            refine ⟨d, hstream, ?_⟩
            rw [List.getElem?_map, hi, Option.map_some]
          rw [hsplit, List.getElem?_append] at hi
          split_ifs at hi with hshown
          · rcases exists_getElem?_of_forall₂ hread hi with ⟨line, hline, hshows⟩
            have huser := user_of_line hfresh hidentity (List.mem_of_getElem? hline)
            have hsame : (v, text) = line := by
              refine Prod.ext huser.symm ?_
              rw [hshows] at htext
              exact (Except.ok.inj htext).symm
            exact .printed (hsame ▸ hline) hsent
          · -- the client has not come to this text yet
            rcases exists_getElem?_of_forall₂ hflight hi with ⟨message, hmessage, old, hencode⟩
            have hposition : (printedBy k h).length + (i - read.length) = i := by
              rw [hread.length_eq]
              exact Nat.add_sub_cancel' (Nat.not_lt.mp hshown)
            exact .inFlight hk hidentity hmessage (hposition.symm ▸ hsent)
              (printed_of_forwarded htext hencode)

/-- In an undisturbed run, a text that the server has accepted for a user who has not been
logged out since is in the user's mailbox, with a stream of the user, under way to a client
of the user, or on its screen. -/
theorem accepted_texts_arrive {h : List Event} {s : State} (hrun : messenger.Run Undisturbed h s)
    {j : Nat} {v u : UserID} {text : Bytes} {c : Nat} {message : ProtobufItf.Envelope}
    (hsent : .sent j v u text (.received c message) ∈ h)
    (hok : s.server.handlers[c]? = some (.returned .OK)) (htext : text ≠ ascii "exit")
    (hstays : StaysOnline (history h) u c) : Arrives h s u text c := by
  have hfresh : messenger.Run FreshMailboxes h s := hrun.mono fun _ _ _ hguard => hguard.1
  have hserver := server_run hfresh
  have hreceived : .received c message ∈ history h :=
    List.mem_filterMap.mpr ⟨_, hsent, rfl⟩
  -- the message decodes to what was sent
  rcases carries_of_sent hfresh hsent with ⟨env, hdecode, hcstring, _, hrecipient⟩
  have hnotExit : ¬ SaysExit env := by
    rw [SaysExit, hcstring]
    exact fun hsame => htext (Except.ok.inj hsame)
  have hpushed := posted_of_checked hserver ⟨message, hreceived, hdecode⟩ hnotExit hok
  rw [hrecipient] at hpushed
  have haccepted : Accepted (history h) u { call := c, env := env } := by
    rcases List.append_of_mem hpushed with ⟨h₁, h₂, hsplit⟩
    refine ⟨h₁, _, h₂, hsplit, ⟨c, rfl⟩, fun e he hremoves => ?_⟩
    cases e with
    | removed d w =>
        have hw : u = w := by simpa [GrpcEndpointServer.Event.removes] using hremoves
        exact hstays h₁ _ h₂ hsplit d (hw ▸ he)
    | _ => cases hremoves
  rcases noLoss_run hrun u _ haccepted with hheld | ⟨d, w, old, hforwarding⟩ | ⟨d, written, hwrote⟩
  · exact .mailbox hheld rfl hcstring
  · have hw : w = u := (holder_of_run hserver hforwarding).2.2.symm.trans hrecipient
    rw [hw] at hforwarding
    exact .stream hforwarding rfl hcstring
  · have hdelivered : ({ call := c, env := env } : Parcel) ∈ deliveredBy d (history h) :=
      List.mem_filterMap.mpr ⟨_, hwrote, if_pos rfl⟩
    exact arrives_of_delivered hrun hdelivered hrecipient hcstring

/-! ## The same text twice -/

/-- The test for schedules of undisturbed runs. -/
def undisturbed : Action → Bool
  | .write _ false => false
  | .hangUp _ => false
  | a => cursorsEmpty a

theorem undisturbed_of_test (h : List Event) (s : State) (a : Action)
    (htest : undisturbed a = true) : Undisturbed h s a := by
  cases a with
  | write c ok =>
      cases ok with
      | true => exact ⟨freshMailboxes_of_cursorsEmpty _ _ _ htest, by simp, nofun⟩
      | false => cases htest
  | hangUp k => cases htest
  | _ => exact ⟨freshMailboxes_of_cursorsEmpty _ _ _ htest, nofun, nofun⟩

/-- Client `k` sends the text in call `c`. -/
def Event.sends (k : Nat) (v r : UserID) (text : Bytes) (c : Nat) : Event → Bool
  | .sent k' v' r' text' (.received c' _) => k' = k && v' = v && r' = r && text' = text && c' = c
  | _ => false

/-- The test of {lit}`StaysOnline`. -/
def staysOnline (h : List GrpcEndpointServer.Event) (u : UserID) (c : Nat) : Bool :=
  h.tails.all fun
    | .pushed c' u' _ true :: h₂ => !(c' = c && u' = u) || h₂.all fun d => !d.removes u
    | _ => true

theorem staysOnline_of_test {h : List GrpcEndpointServer.Event} {u : UserID} {c : Nat}
    (htest : staysOnline h u c = true) : StaysOnline h u c := by
  intro h₁ parcel h₂ hsplit d hremoved
  have htail : .pushed c u parcel true :: h₂ ∈ h.tails :=
    (List.mem_tails _ _).mpr ⟨h₁, hsplit.symm⟩
  have hall : h₂.all (fun d => !d.removes u) = true := by
    simpa using List.all_eq_true.mp htest _ htail
  have hnot := List.all_eq_true.mp hall _ hremoved
  simp [GrpcEndpointServer.Event.removes] at hnot

/-- User 1 reads a text of user 2, logs out and in again with another client, and is sent
the same text once more. -/
def sayAgain : List Action :=
  let go (c : Nat) : Action := .serve c PostBox.clearedMemory PostBox.clearedMemory
  let enter (c k : Nat) (stdin : Bytes) (userId : UserID) : List Action :=
    [.start (ascii "adsfadsf") stdin (some userId), go c, .login k]
  enter 0 0 (ascii "2 exit") 1 ++ enter 1 1 (ascii "1 hi hi") 2 ++
    [.listen 0, .ask 1, .send 1, go 3, go 3, .proceed 1, go 2, go 2, .write 2 true, .print 0,
      .ask 0, .send 0, go 4, .proceed 0] ++ enter 5 2 [] 1 ++
    [.listen 2, .send 1, go 7, go 7, .proceed 1, go 6, go 6, .write 6 true]

/-- The second text has been accepted, and is under way to the second client. -/
theorem accepted_texts_arrive_sayAgain :
    ∃ h s message, messenger.Run Undisturbed h s ∧ printedBy 0 h = [(1, ascii "hi")] ∧
      .sent 1 2 1 (ascii "hi") (.received 7 message) ∈ h ∧
      s.server.handlers[7]? = some (.returned .OK) ∧ .removed 4 1 ∈ history h ∧
      Arrives h s 1 (ascii "hi") 7 := by
  have hfacts : (messenger.execFrom (fun _ _ => undisturbed) [] messenger.init sayAgain).map
      (fun r => (printedBy 0 r.1, r.1.any (Event.sends 1 2 1 (ascii "hi") 7),
        decide (r.2.server.handlers[7]? = some (.returned .OK)),
        decide (.removed 4 1 ∈ history r.1), staysOnline (history r.1) 1 7)) =
          some ([(1, ascii "hi")], true, true, true, true) := by
    decide +kernel
  rcases Option.map_eq_some_iff.mp hfacts with ⟨⟨h, s⟩, hexec, hpair⟩
  have hrun := Run.of_execFrom undisturbed_of_test .start hexec
  simp only [Prod.mk.injEq, decide_eq_true_eq] at hpair
  rcases hpair with ⟨hprinted, hany, hok, hremoved, htest⟩
  rcases List.any_eq_true.mp hany with ⟨e, hmem, hsends⟩
  cases e with
  | sent k v r text d =>
      cases d with
      | received c message =>
          simp only [Event.sends, Bool.and_eq_true, decide_eq_true_eq] at hsends
          rcases hsends with ⟨⟨⟨⟨rfl, rfl⟩, rfl⟩, rfl⟩, rfl⟩
          exact ⟨h, s, message, hrun, hprinted, hmem, hok, hremoved,
            accepted_texts_arrive hrun hmem hok (by decide) (staysOnline_of_test htest)⟩
      | _ => cases hsends
  | _ => cases hsends

end Messenger

end SimpleMessenger
