import SimpleMessenger.Foundations.NamedQueues
import SimpleMessenger.Server.Relay

/-!
# What streams deliver

Seen from outside, the post box is one queue per user: storing a message puts it
at the back of its recipient's queue, a stream takes from the front, and a logout
drops the queue.  The server refines this picture as long as new mailboxes are
well formed and empty, and the order and uniqueness of what streams pop are then
facts about named queues.

Main results:

- Theorem {lit}`does_of_steps`: every step of the server is one effect on the
  named queues.
- Theorem {lit}`leads_run`: so the history of a run leads to the envelopes held.
- Theorem {lit}`delivered_of_run`: no misdelivery, no duplication, and no
  reordering between two logouts.
-/

namespace SimpleMessenger

open CMemory CircularBuffer StepSystem NamedQueues

namespace GrpcEndpointServer

/-! ## The server as named queues -/

/-- What an event does to the queues of the users. -/
def Event.effect : Event → Effect UserID Parcel
  | .pushed _ userId parcel true => .put userId parcel
  | .popped _ userId (some parcel) => .take userId parcel
  | .removed _ userId => .drop userId
  | _ => .idle

/-- A mailbox moved from `stack` to `heap` is well formed and empty. -/
def EmptyWhenMoved (stack heap : PostBoxCell) : Prop :=
  (moveConstruct heap (construct stack)).WF ∧ (moveConstruct heap (construct stack)).contents = []

/-- Every mailbox that a login creates is well formed and empty. -/
def FreshMailboxes : Guard State Action Event :=
  fun _ s a => ∀ (c : Nat) (stack heap : PostBoxCell) (u : UserID), a = .advance c stack heap →
    s.handlers[c]? = some (.connecting u) → s.postBox.isOnline u = false →
      EmptyWhenMoved stack heap

theorem effect_drops (u : UserID) (e : Event) : e.effect.drops u = e.removes u := by
  cases e with
  | pushed c v parcel ok => cases ok <;> rfl
  | popped c v parcel => cases parcel <;> rfl
  | _ => rfl

theorem effect_eq_put_iff {e : Event} {u : UserID} {parcel : Parcel} :
    e.effect = .put u parcel ↔ ∃ c, e = .pushed c u parcel true := by
  cases e with
  | pushed c v parcel' ok => cases ok <;> simp [Event.effect]
  | popped c v parcel' => cases parcel' <;> simp [Event.effect]
  | _ => simp [Event.effect]

theorem effect_eq_take_iff {e : Event} {u : UserID} {parcel : Parcel} :
    e.effect = .take u parcel ↔ ∃ c, e = .popped c u (some parcel) := by
  cases e with
  | pushed c v parcel' ok => cases ok <;> simp [Event.effect]
  | popped c v parcel' => cases parcel' <;> simp [Event.effect]
  | _ => simp [Event.effect]

/-- A login leaves everything held as it was, a new mailbox being empty. -/
theorem addUserToConnected_spec {box : PostBox} (hwf : box.WF) {u : UserID}
    {stack heap : PostBoxCell} (hfresh : box.isOnline u = false → EmptyWhenMoved stack heap) :
    (box.addUserToConnected u stack heap).WF ∧
      (box.addUserToConnected u stack heap).held = box.held := by
  unfold PostBox.addUserToConnected
  cases hbox : box u with
  | some cell => exact ⟨hwf, rfl⟩
  | none =>
      rcases hfresh (by simp [PostBox.isOnline, hbox]) with ⟨hcell, hempty⟩
      refine ⟨PostBox.wf_update hwf hcell, ?_⟩
      have hheld : box.held u = [] := by simp [PostBox.held, hbox]
      rw [PostBox.held_update, hempty, ← hheld, Function.update_eq_self]

/-- Every step of the server keeps the mailboxes well formed and is one effect on
the queues. -/
theorem does_of_steps {h : List Event} {s s' : State} {a : Action} {e : Event}
    (hsteps : Steps s a s' e) (hfresh : FreshMailboxes h s a) (hwf : s.postBox.WF) :
    s'.postBox.WF ∧ Does s.postBox.held e.effect s'.postBox.held := by
  cases hsteps with
  | start hstart =>
      refine ⟨hwf, ?_⟩
      cases hstart <;> exact .idle
  | add hc =>
      rcases addUserToConnected_spec hwf (hfresh _ _ _ _ rfl hc) with ⟨hwf', hheld⟩
      refine ⟨hwf', ?_⟩
      change Does s.postBox.held .idle (PostBox.held (PostBox.addUserToConnected _ _ _ _))
      rw [hheld]
      exact .idle
  | @exit c env _ _ hc =>
      refine ⟨PostBox.wf_disconnectUser hwf _, ?_⟩
      change Does s.postBox.held (.drop _) (PostBox.held (PostBox.disconnectUser _ _))
      rw [PostBox.held_disconnectUser]
      exact .drop _
  | check hc hcheck => exact ⟨hwf, .idle⟩
  | @push c env stack heap ok box hc hpush =>
      rcases PostBox.pushAt_spec hwf hpush with ⟨hwf', hheld⟩
      refine ⟨hwf', ?_⟩
      change Does s.postBox.held _ box.held
      cases ok with
      | true =>
          rw [hheld, if_pos rfl]
          exact .put _ _
      | false =>
          rw [hheld, if_neg Bool.false_ne_true, Function.update_eq_self]
          exact .idle
  | @pop c u forwardedEnv stack heap item box hc hpop =>
      rcases PostBox.popAt_spec hwf hpop with ⟨hwf', hitem, hheld⟩
      refine ⟨hwf', ?_⟩
      cases hq : s.postBox.held u with
      | nil =>
          rw [hq] at hitem hheld
          have hsame : box.held = s.postBox.held := by
            rw [hheld, List.tail_nil, ← hq, Function.update_eq_self]
          subst hitem
          change Does s.postBox.held .idle box.held
          rw [hsame]
          exact .idle
      | cons parcel rest =>
          rw [hq] at hitem hheld
          subst hitem
          change Does s.postBox.held (.take u parcel) box.held
          rw [hheld]
          exact .take hq
  | write hc hencode => exact ⟨hwf, .idle⟩

/-- The history of a run, read as effects, leads to the envelopes held. -/
theorem leads_run {h : List Event} {s : State} (hrun : server.Run FreshMailboxes h s) :
    s.postBox.WF ∧ Leads (h.map Event.effect) s.postBox.held := by
  have hstart : Leads (([] : List Event).map Event.effect) server.init.postBox.held := .start
  refine hrun.invariant (I := fun h s => s.postBox.WF ∧ Leads (h.map Event.effect) s.postBox.held)
    ⟨PostBox.wf_empty, hstart⟩ ?_
  intro h s a s' e _ hinv hfresh hstep
  rcases does_of_steps (steps_of_step hstep) hfresh hinv.1 with ⟨hwf, hdoes⟩
  refine ⟨hwf, ?_⟩
  rw [List.map_append]
  exact .step hinv.2 hdoes

/-! ## Stored and popped envelopes -/

/-- The envelopes stored for a user in a stretch of a history, in order. -/
def storedFor (u : UserID) (h : List Event) : List Parcel :=
  under u (puts (h.map Event.effect))

/-- The envelopes that the streams of a user popped, in order. -/
def poppedFor (u : UserID) (h : List Event) : List Parcel :=
  under u (takes (h.map Event.effect))

/-- All envelopes popped, with the users whose streams popped them. -/
def popped (h : List Event) : List (UserID × Parcel) :=
  takes (h.map Event.effect)

theorem mem_puts_iff {h : List Event} {u : UserID} {parcel : Parcel} :
    (u, parcel) ∈ puts (h.map Event.effect) ↔ ∃ c, .pushed c u parcel true ∈ h := by
  rw [mem_puts, List.mem_map]
  constructor
  · intro hmem
    rcases hmem with ⟨e, he, heffect⟩
    rcases effect_eq_put_iff.mp heffect with ⟨c, rfl⟩
    exact ⟨c, he⟩
  · intro hmem
    rcases hmem with ⟨c, he⟩
    exact ⟨_, he, rfl⟩

theorem mem_popped_iff {h : List Event} {u : UserID} {parcel : Parcel} :
    (u, parcel) ∈ popped h ↔ ∃ c, .popped c u (some parcel) ∈ h := by
  rw [popped, mem_takes, List.mem_map]
  constructor
  · intro hmem
    rcases hmem with ⟨e, he, heffect⟩
    rcases effect_eq_take_iff.mp heffect with ⟨c, rfl⟩
    exact ⟨c, he⟩
  · intro hmem
    rcases hmem with ⟨c, he⟩
    exact ⟨_, he, rfl⟩

/-- No two stored envelopes come from the same call. -/
theorem puts_nodup_run {G : Guard State Action Event} {h : List Event} {s : State}
    (hrun : server.Run G h s) :
    ((puts (h.map Event.effect)).map fun p => p.2.call).Nodup := by
  have hstart : ((puts (([] : List Event).map Event.effect)).map fun p => p.2.call).Nodup := by
    simp [puts]
  refine hrun.invariant
    (I := fun h _ => ((puts (h.map Event.effect)).map fun p => p.2.call).Nodup) hstart ?_
  intro h s a s' e hprev hinv _ hstep
  rw [List.map_append, List.map_singleton, puts_snoc, List.map_append]
  refine List.nodup_append.mpr ⟨hinv, ?_, ?_⟩
  · cases e.effect <;> simp [Effect.put?]
  · intro i hi j hj hij
    rcases List.mem_map.mp hi with ⟨⟨u, parcel⟩, hput, hcall⟩
    rcases List.mem_map.mp hj with ⟨⟨v, parcel'⟩, hnew, hcall'⟩
    rcases mem_puts_iff.mp hput with ⟨c, hpushed⟩
    rcases effect_eq_put_iff.mp (put?_eq_some_iff.mp (Option.mem_toList.mp hnew)) with ⟨d, rfl⟩
    rcases (callInv_run hprev).stored c u parcel true hpushed with ⟨hc, _, _, hreturned⟩
    rcases (steps_of_step hstep).pushed with ⟨hpushing, hd, _, _⟩
    -- the call that stores in this step has not returned yet
    have hcd : c = d := by
      calc c = parcel.call := hc.symm
        _ = i := hcall
        _ = j := hij
        _ = parcel'.call := hcall'.symm
        _ = d := hd
    rw [hcd, hpushing] at hreturned
    cases hreturned

/-- No envelope is popped twice, is in a mailbox twice, or is there after it was
popped. -/
theorem distinct_run {h : List Event} {s : State} (hrun : server.Run FreshMailboxes h s) :
    Distinct Parcel.call (h.map Event.effect) s.postBox.held :=
  (leads_run hrun).2.distinct (puts_nodup_run hrun)

/-- A popped envelope was stored before, for the user whose stream popped it. -/
theorem pushed_of_popped {h : List Event} {s : State} (hrun : server.Run FreshMailboxes h s)
    {u : UserID} {parcel : Parcel} (hpopped : (u, parcel) ∈ popped h) :
    .pushed parcel.call u parcel true ∈ h := by
  rcases mem_puts_iff.mp ((leads_run hrun).2.put_of_take hpopped) with ⟨c, hpushed⟩
  have hc := ((callInv_run hrun).stored c u parcel true hpushed).1
  rwa [hc]

/-! ## Delivery -/

/-- What streams pop, in every history. -/
structure Delivered (h : List Event) (s : State) : Prop where
  /-- A popped envelope is addressed to the stream's user and was stored earlier by
  a call that received it and returns `OK`. -/
  addressed : ∀ (h₁ h₂ : List Event) (c : Nat) (u : UserID) (parcel : Parcel),
    h = h₁ ++ .popped c u (some parcel) :: h₂ →
      getRecepientID parcel.env = u ∧ Requested h₁ parcel.call parcel.env ∧
        .pushed parcel.call u parcel true ∈ h₁ ∧
        s.handlers[parcel.call]? = some (.returned .OK)
  /-- No call stores two envelopes. -/
  storedOnce : ((puts (h.map Event.effect)).map fun p => p.2.call).Nodup
  /-- No envelope is popped twice over all streams. -/
  poppedOnce : ((popped h).map fun p => p.2.call).Nodup
  /-- Between two removals of a user's mailbox, the envelopes are popped in the
  order in which they were stored, with none skipped. -/
  inOrder : ∀ (u : UserID) (h₁ stretch h₂ : List Event), h = h₁ ++ stretch ++ h₂ →
    (h₁ = [] ∨ ∃ h₀ e, h₁ = h₀ ++ [e] ∧ e.removes u = true) →
      (∀ e ∈ stretch, e.removes u = false) → poppedFor u stretch <+: storedFor u stretch

theorem addressed_of_run {h₁ h₂ : List Event} {s : State} {c : Nat} {u : UserID}
    {parcel : Parcel}
    (hrun : server.Run FreshMailboxes (h₁ ++ .popped c u (some parcel) :: h₂) s) :
    getRecepientID parcel.env = u ∧ Requested h₁ parcel.call parcel.env ∧
      .pushed parcel.call u parcel true ∈ h₁ ∧
      s.handlers[parcel.call]? = some (.returned .OK) := by
  have hsplit : server.Run FreshMailboxes ((h₁ ++ [.popped c u (some parcel)]) ++ h₂) s := by
    simpa using hrun
  rcases hsplit.of_append with ⟨s₂, hrun₂⟩
  rcases hrun₂.of_append with ⟨s₁, hrun₁⟩
  have hpopped : (u, parcel) ∈ popped (h₁ ++ [.popped c u (some parcel)]) :=
    mem_popped_iff.mpr ⟨c, by simp⟩
  have hpushed := pushed_of_popped hrun₂ hpopped
  have hearlier : .pushed parcel.call u parcel true ∈ h₁ := by
    simpa using hpushed
  rcases (callInv_run hrun₁).stored _ u parcel true hearlier with ⟨_, hrecipient, hreq, _⟩
  have hlater : .pushed parcel.call u parcel true ∈ h₁ ++ .popped c u (some parcel) :: h₂ :=
    List.mem_append_left _ hearlier
  exact ⟨hrecipient, hreq, hearlier,
    ((callInv_run hrun).stored _ u parcel true hlater).2.2.2⟩

theorem inOrder_of_run {h₁ stretch h₂ : List Event} {s : State} {u : UserID}
    (hrun : server.Run FreshMailboxes (h₁ ++ stretch ++ h₂) s)
    (hstart : h₁ = [] ∨ ∃ h₀ e, h₁ = h₀ ++ [e] ∧ e.removes u = true)
    (hfree : ∀ e ∈ stretch, e.removes u = false) :
    poppedFor u stretch <+: storedFor u stretch := by
  rcases hrun.of_append with ⟨s₁, hrun₁⟩
  have hleads := (leads_run hrun₁).2
  rw [List.map_append] at hleads
  refine hleads.taken_isPrefix_put ?_ ?_
  · rcases hstart with rfl | ⟨h₀, e, rfl, hremoves⟩
    · rfl
    · rw [List.map_append, List.map_singleton, sinceLast_snoc, effect_drops, if_pos hremoves]
  · intro effect heffect
    rcases List.mem_map.mp heffect with ⟨e, he, rfl⟩
    rw [effect_drops]
    exact hfree e he

/-- In every run whose new mailboxes are well formed and empty, nothing is
misdelivered, duplicated or reordered. -/
theorem delivered_of_run {h : List Event} {s : State}
    (hrun : server.Run FreshMailboxes h s) : Delivered h s where
  addressed := by
    intro h₁ h₂ c u parcel heq
    subst heq
    exact addressed_of_run hrun
  storedOnce := puts_nodup_run hrun
  poppedOnce := (distinct_run hrun).takes_nodup
  inOrder := by
    intro u h₁ stretch h₂ heq hstart hfree
    subst heq
    exact inOrder_of_run hrun hstart hfree

/-! ## Two deliveries -/

/-- The memory that the step gets for a new mailbox has the cursors of an empty
one. -/
def cursorsEmpty : Action → Bool
  | .advance _ _ heap => heap.size = 0 && heap.beginPos < 32 && heap.endPos = heap.beginPos
  | _ => true

theorem freshMailboxes_of_cursorsEmpty (h : List Event) (s : State) (a : Action)
    (hcursors : cursorsEmpty a = true) : FreshMailboxes h s a := by
  intro c stack heap u ha _ _
  subst ha
  have hempty : PostBox.CursorsEmpty heap := by
    simp only [cursorsEmpty, Bool.and_eq_true, decide_eq_true_eq] at hcursors
    exact ⟨hcursors.1.1, hcursors.1.2, hcursors.2⟩
  have hfit : CursorsFit heap (construct stack) := PostBox.cursorsFit_construct_iff.mpr hempty
  exact carries_iff.mp ((moveConstruct_carries_iff (construct_wf (by decide) stack)).mpr hfit)

/-- User 1 reads a message, logs out and in again, and reads the next one. -/
def twoSessions : List Action :=
  relayOnce helloMessage true ++
    [.receiveMessage (textMessage 1 2 (ascii "exit")), next 3,
      .acceptConnection (some 1), next 4,
      .receiveMessage (textMessage 2 1 (ascii "again")), next 5, next 5,
      .streamIncomingMessages [(ascii "user_id", ascii "1")], next 6, next 6, .write 6 true]

/-- The streams of both sessions pop what was stored in their own. -/
theorem delivered_hello :
    ∃ h s, server.Run FreshMailboxes h s ∧ .removed 3 1 ∈ h ∧
      (poppedFor 1 h).map Parcel.call = [1, 5] ∧ Delivered h s := by
  have hpopped : (server.execFrom (fun _ _ => cursorsEmpty) [] server.init twoSessions).map
      (fun r => (decide (.removed 3 1 ∈ r.1), (poppedFor 1 r.1).map Parcel.call)) =
        some (true, [1, 5]) := by
    decide +kernel
  rcases Option.map_eq_some_iff.mp hpopped with ⟨⟨h, s⟩, hexec, hpair⟩
  simp only [Prod.mk.injEq, decide_eq_true_eq] at hpair
  rcases hpair with ⟨hremoved, hcalls⟩
  have hrun := Run.of_execFrom freshMailboxes_of_cursorsEmpty .start hexec
  exact ⟨h, s, hrun, hremoved, hcalls, delivered_of_run hrun⟩

end GrpcEndpointServer

end SimpleMessenger
