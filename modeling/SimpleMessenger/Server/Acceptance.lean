import SimpleMessenger.Server.Delivery

/-!
# What becomes of accepted messages

A call that returns `OK` for a message has promised to deliver it.  From then on
the envelope is in its recipient's mailbox, then with one handler that popped it,
and then handed to a write.  Every popped envelope is accounted for: it is with a
handler or has been written, and it is so only once.  What a failed write loses
is therefore lost for good.

Main results:

- Theorem {lit}`accounted_run`: what has been popped is what the handlers hold and
  what has been written.
- Theorem {lit}`noLoss_iff`: the runs that lose no accepted message.
-/

namespace SimpleMessenger

open CMemory StepSystem NamedQueues

namespace GrpcEndpointServer

/-! ## Accounting for popped envelopes -/

/-- The envelope that a handler has popped and not yet written. -/
def Handler.holds : Handler → Option (UserID × Parcel)
  | .forwarding userId parcel _ => some (userId, parcel)
  | _ => none

/-- The envelope handed to a write. -/
def Event.writes : Event → Option (UserID × Parcel)
  | .wrote _ userId parcel _ _ => some (userId, parcel)
  | _ => none

/-- What the handlers hold. -/
def heldByHandlers (s : State) : List (UserID × Parcel) :=
  s.handlers.filterMap Handler.holds

/-- What has been handed to a write, whatever its outcome. -/
def written (h : List Event) : List (UserID × Parcel) :=
  h.filterMap Event.writes

/-- What has been popped is what the handlers hold and what has been written. -/
def Accounted (h : List Event) (s : State) : Prop :=
  (popped h).Perm (heldByHandlers s ++ written h)

theorem popped_snoc (h : List Event) (e : Event) :
    popped (h ++ [e]) = popped h ++ e.effect.take?.toList := by
  rw [popped, List.map_append, List.map_singleton, takes_snoc]
  rfl

theorem written_snoc (h : List Event) (e : Event) :
    written (h ++ [e]) = written h ++ e.writes.toList := by
  cases hwrites : e.writes <;> simp [written, hwrites]

/-- A step of a call keeps the account if what it hands on is what it got. -/
theorem Accounted.goOn {h : List Event} {s : State} (hinv : Accounted h s) {c : Nat}
    {before after : Handler} {e : Event} (box : PostBox) (hc : s.handlers[c]? = some before)
    (hbalance : (after.holds.toList ++ e.writes.toList).Perm
      (before.holds.toList ++ e.effect.take?.toList)) :
    Accounted (h ++ [e]) (s.goOn c after box) := by
  have hset : (heldByHandlers (s.goOn c after box) ++ before.holds.toList).Perm
      (heldByHandlers s ++ after.holds.toList) :=
    filterMap_set_perm Handler.holds hc
  rw [Accounted, popped_snoc, written_snoc, List.perm_iff_count]
  intro x
  have hold := hinv.count_eq x
  have hmoved := hset.count_eq x
  have hkept := hbalance.count_eq x
  simp only [List.count_append] at hold hmoved hkept ⊢
  omega

/-- Every step keeps the account. -/
theorem Accounted.step {h : List Event} {s s' : State} {a : Action} {e : Event}
    (hinv : Accounted h s) (hsteps : Steps s a s' e) : Accounted (h ++ [e]) s' := by
  cases hsteps with
  | @start _ handler _ hstart =>
      have hquiet : handler.holds = none ∧ e.effect.take? = none ∧ e.writes = none := by
        cases hstart <;> exact ⟨rfl, rfl, rfl⟩
      have hheld : heldByHandlers (s.start handler) = heldByHandlers s := by
        simp [heldByHandlers, State.start, hquiet.1]
      rw [Accounted, popped_snoc, written_snoc, hquiet.2.1, hquiet.2.2, hheld]
      simpa [Accounted] using hinv
  | add hc => exact hinv.goOn _ hc (.refl _)
  | exit hc => exact hinv.goOn _ hc (.refl _)
  | check hc hcheck =>
      refine hinv.goOn _ hc ?_
      cases hcheck <;> exact .refl _
  | @push _ _ _ _ ok _ hc _ =>
      refine hinv.goOn _ hc ?_
      cases ok <;> exact .refl _
  | @pop _ _ _ _ _ item _ hc _ =>
      refine hinv.goOn _ hc ?_
      cases item <;> exact .refl _
  | write hc _ => exact hinv.goOn _ hc (.refl _)

theorem accounted_run {G : Guard State Action Event} {h : List Event} {s : State}
    (hrun : server.Run G h s) : Accounted h s := by
  have hstart : Accounted [] server.init := .refl _
  refine hrun.invariant hstart ?_
  intro h s a s' e _ hinv _ hstep
  exact hinv.step (steps_of_step hstep)

/-! ## Accepted messages -/

/-- Storing the envelope for the user was answered with `OK`, and the user has
not been logged out since. -/
def Accepted (h : List Event) (u : UserID) (parcel : Parcel) : Prop :=
  Since (fun e => ∃ c, e = .pushed c u parcel true) (fun e => e.removes u = true) h

/-- The envelope is in the user's mailbox, with a handler that popped it and has
not yet called `Write`, or handed to a successful `Write` on a stream of the
user. -/
def Kept (h : List Event) (s : State) (u : UserID) (parcel : Parcel) : Prop :=
  parcel ∈ s.postBox.held u ∨
    (∃ (d : Nat) (v : UserID) (forwardedEnv : ProtobufItf.Envelope),
      s.handlers[d]? = some (.forwarding v parcel forwardedEnv)) ∨
    ∃ (d : Nat) (message : ProtobufItf.Envelope), .wrote d u parcel message true ∈ h

/-- No accepted message is lost. -/
def NoLoss (h : List Event) (s : State) : Prop :=
  ∀ u parcel, Accepted h u parcel → Kept h s u parcel

/-- A write fails only for an envelope whose recipient has been logged out since
it was accepted. -/
def WritesSucceed : Guard State Action Event :=
  fun h s a => ∀ (c : Nat) (u : UserID) (parcel : Parcel) (forwardedEnv : ProtobufItf.Envelope),
    a = .write c false → s.handlers[c]? = some (.forwarding u parcel forwardedEnv) →
      ¬ Accepted h u parcel

theorem accepted_snoc {h : List Event} {e : Event} {u : UserID} {parcel : Parcel} :
    Accepted (h ++ [e]) u parcel ↔
      (∃ c, e = .pushed c u parcel true) ∨ (¬ e.removes u = true ∧ Accepted h u parcel) :=
  since_snoc

/-- A handler's envelope was popped from the mailbox of its recipient. -/
theorem holder_of_run {h : List Event} {s : State} (hrun : server.Run FreshMailboxes h s)
    {d : Nat} {v : UserID} {parcel : Parcel} {forwardedEnv : ProtobufItf.Envelope}
    (hd : s.handlers[d]? = some (.forwarding v parcel forwardedEnv)) :
    (v, parcel) ∈ heldByHandlers s ∧ (v, parcel) ∈ popped h ∧ getRecepientID parcel.env = v := by
  have hheld : (v, parcel) ∈ heldByHandlers s :=
    List.mem_filterMap.mpr ⟨_, List.mem_of_getElem? hd, rfl⟩
  have hpopped : (v, parcel) ∈ popped h :=
    (accounted_run hrun).mem_iff.mpr (List.mem_append_left _ hheld)
  have hpushed := pushed_of_popped hrun hpopped
  exact ⟨hheld, hpopped, ((callInv_run hrun).stored _ v parcel true hpushed).2.1⟩

/-- An accepted envelope is addressed to its user. -/
theorem recipient_of_accepted {G : Guard State Action Event} {h : List Event} {s : State}
    (hrun : server.Run G h s) {u : UserID} {parcel : Parcel} (haccepted : Accepted h u parcel) :
    getRecepientID parcel.env = u := by
  rcases haccepted with ⟨h₁, e, h₂, rfl, ⟨c, rfl⟩, _⟩
  exact ((callInv_run hrun).stored c u parcel true (by simp)).2.1

/-- A handler with an envelope keeps it, or this step writes it. -/
theorem Steps.forwarding_cases {s s' : State} {a : Action} {e : Event}
    (hsteps : Steps s a s' e) {d : Nat} {v : UserID} {parcel : Parcel}
    {forwardedEnv : ProtobufItf.Envelope}
    (hd : s.handlers[d]? = some (.forwarding v parcel forwardedEnv)) :
    s'.handlers[d]? = some (.forwarding v parcel forwardedEnv) ∨
      ∃ ok message, a = .write d ok ∧ e = .wrote d v parcel message ok := by
  cases hsteps with
  | start _ => exact .inl (getElem?_append_of_some hd)
  | add hc => exact .inl (State.goOn_keeps hd hc (by simp) _)
  | exit hc => exact .inl (State.goOn_keeps hd hc (by simp) _)
  | check hc hcheck => exact .inl (State.goOn_keeps hd hc (by cases hcheck <;> simp) _)
  | push hc _ => exact .inl (State.goOn_keeps hd hc (by simp) _)
  | pop hc _ => exact .inl (State.goOn_keeps hd hc (by simp) _)
  | @write c ok u _ _ message hc hencode =>
      by_cases hcd : c = d
      · subst hcd
        rw [hd] at hc
        cases hc
        exact .inr ⟨ok, message, rfl, rfl⟩
      · left
        simpa [State.goOn, List.getElem?_set_ne hcd] using hd

/-- A popped envelope is with the handler that popped it. -/
theorem Steps.popped {s s' : State} {a : Action} {c : Nat} {u : UserID} {parcel : Parcel}
    (hsteps : Steps s a s' (.popped c u (some parcel))) :
    ∃ forwardedEnv, s'.handlers[c]? = some (.forwarding u parcel forwardedEnv) := by
  cases hsteps with
  | start hstart => cases hstart
  | pop hc _ => exact ⟨_, getElem?_set_of_some hc⟩

/-! ## Which runs lose nothing -/

/-- An envelope in a mailbox stays there, is popped in this step, or is dropped
by it. -/
theorem mem_of_does {q q' : UserID → List Parcel} {e : Event} (hdoes : Does q e.effect q')
    {u : UserID} {parcel : Parcel} (hmem : parcel ∈ q u) :
    parcel ∈ q' u ∨ (∃ c, e = .popped c u (some parcel)) ∨ e.removes u = true := by
  generalize heffect : e.effect = effect at hdoes
  cases hdoes with
  | idle => exact .inl hmem
  | put v x =>
      left
      rcases eq_or_ne u v with rfl | hne
      · rw [Function.update_self]
        exact List.mem_append_left _ hmem
      · rwa [Function.update_of_ne hne]
  | @take v x rest hq =>
      rcases eq_or_ne u v with rfl | hne
      · rw [hq] at hmem
        rcases List.mem_cons.mp hmem with rfl | hrest
        · exact .inr (.inl (effect_eq_take_iff.mp heffect))
        · left
          rwa [Function.update_self]
      · left
        rwa [Function.update_of_ne hne]
  | drop v =>
      rcases eq_or_ne u v with rfl | hne
      · right
        right
        rw [← effect_drops, heffect]
        simp [Effect.drops]
      · left
        rwa [Function.update_of_ne hne]

/-- A step with successful writes loses nothing. -/
theorem noLoss_step {h : List Event} {s s' : State} {a : Action} {e : Event}
    (hrun : server.Run FreshMailboxes h s) (hfresh : FreshMailboxes h s a)
    (hsteps : Steps s a s' e) (hinv : NoLoss h s) (hwrites : WritesSucceed h s a) :
    NoLoss (h ++ [e]) s' := by
  have hdoes := (does_of_steps hsteps hfresh (leads_run hrun).1).2
  intro u parcel haccepted
  rcases accepted_snoc.mp haccepted with ⟨c, rfl⟩ | ⟨hkept, hbefore⟩
  · left
    generalize hq' : s'.postBox.held = q' at hdoes
    cases hdoes
    simp
  · rcases hinv u parcel hbefore with hmem | ⟨d, v, forwardedEnv, hd⟩ | ⟨d, message, hwrote⟩
    · rcases mem_of_does hdoes hmem with hmem' | ⟨c, rfl⟩ | hremoves
      · exact .inl hmem'
      · rcases hsteps.popped with ⟨forwardedEnv, hc⟩
        exact .inr (.inl ⟨c, u, forwardedEnv, hc⟩)
      · exact absurd hremoves hkept
    · rcases hsteps.forwarding_cases hd with hd' | ⟨ok, message, rfl, rfl⟩
      · exact .inr (.inl ⟨d, v, forwardedEnv, hd'⟩)
      · have hv : v = u :=
          (holder_of_run hrun hd).2.2.symm.trans (recipient_of_accepted hrun hbefore)
        subst hv
        cases ok with
        | true => exact .inr (.inr ⟨d, message, by simp⟩)
        | false => exact absurd hbefore (hwrites d v parcel forwardedEnv rfl hd)
    · exact .inr (.inr ⟨d, message, List.mem_append_left _ hwrote⟩)

/-- A failed write of an accepted envelope leaves it nowhere. -/
theorem not_kept_of_failed_write {h : List Event} {s s' : State} {a : Action} {c : Nat}
    {u : UserID} {parcel : Parcel} {message : ProtobufItf.Envelope}
    (hrun : server.Run FreshMailboxes h s)
    (hrun' : server.Run FreshMailboxes (h ++ [.wrote c u parcel message false]) s')
    (hsteps : Steps s a s' (.wrote c u parcel message false))
    (haccepted : Accepted h u parcel) :
    ¬ Kept (h ++ [.wrote c u parcel message false]) s' u parcel := by
  have hdistinct := distinct_run hrun'
  have hcount : List.count (u, parcel) (popped (h ++ [.wrote c u parcel message false])) ≤ 1 :=
    List.nodup_iff_count_le_one.mp (List.Nodup.of_map _ hdistinct.takes_nodup) _
  have haccount := (accounted_run hrun').count_eq (u, parcel)
  rw [written_snoc] at haccount
  simp only [List.count_append, Event.writes, Option.toList_some, List.count_singleton_self]
    at haccount
  intro hkept
  rcases hkept with hmem | ⟨d, v, forwardedEnv, hd⟩ | ⟨d, message', hwrote⟩
  · have hpopped : (u, parcel) ∈ popped (h ++ [.wrote c u parcel message false]) := by
      rw [← List.count_pos_iff]
      omega
    exact hdistinct.queue_notMem u parcel hmem (List.mem_map.mpr ⟨_, hpopped, rfl⟩)
  · rcases holder_of_run hrun' hd with ⟨hheld, _, hv⟩
    have huv : v = u := hv.symm.trans (recipient_of_accepted hrun haccepted)
    subst huv
    have hpos := List.count_pos_iff.mpr hheld
    omega
  · have hwrote' : .wrote d u parcel message' true ∈ h := by
      simpa using hwrote
    have hpos : 0 < List.count (u, parcel) (written h) :=
      List.count_pos_iff.mpr (List.mem_filterMap.mpr ⟨_, hwrote', rfl⟩)
    omega

/-- In runs with well-formed empty new mailboxes, those in which writes fail for
logged-out recipients only are exactly those in which no accepted message is ever
lost. -/
theorem noLoss_iff (h : List Event) (s : State) :
    server.Run (fun h s a => FreshMailboxes h s a ∧ WritesSucceed h s a) h s ↔
      server.Through FreshMailboxes NoLoss h s := by
  have hstart : NoLoss [] server.init := by
    intro u parcel haccepted
    exact absurd haccepted (not_since_nil _ _)
  refine run_iff_through hstart ?_
  intro h s a s' e hrun hinv hfresh hstep
  have hsteps := steps_of_step hstep
  constructor
  · exact noLoss_step hrun hfresh hsteps hinv
  · intro hkeep c u parcel forwardedEnv ha hc haccepted
    subst ha
    rcases hsteps.forwarding_cases hc with hsame | ⟨ok, message, hok, rfl⟩
    · cases hsteps with
      | start hstart => cases hstart
      | write hc' hencode =>
          rw [State.goOn, getElem?_set_of_some hc'] at hsame
          cases hsame
    · cases hok
      have hlater : Accepted (h ++ [.wrote c u parcel message false]) u parcel :=
        accepted_snoc.mpr (.inr ⟨by simp [Event.removes], haccepted⟩)
      exact not_kept_of_failed_write hrun (.step hrun hfresh hstep) hsteps haccepted
        (hkeep u parcel hlater)

/-- A message is accepted and popped, and then its write fails. -/
theorem noLoss_fails :
    ∃ h s, server.Run FreshMailboxes h s ∧ ¬ NoLoss h s := by
  have hexec : (server.execFrom (fun _ _ => cursorsEmpty) [] server.init
      (relayOnce helloMessage false)).map (fun run =>
        (run.1, run.2.postBox.held 1, heldByHandlers run.2)) =
      some (relayHistory helloMessage false, [], []) := by
    decide +kernel
  rcases Option.map_eq_some_iff.mp hexec with ⟨⟨h, s⟩, hexec, htriple⟩
  rcases Prod.mk.inj htriple with ⟨hhistory, hpair⟩
  rcases Prod.mk.inj hpair with ⟨hmailbox, hhandlers⟩
  have hrun : server.Run FreshMailboxes h s :=
    Run.of_execFrom freshMailboxes_of_cursorsEmpty .start hexec
  refine ⟨h, s, hrun, ?_⟩
  intro hkeep
  have haccepted : Accepted h 1 (storedParcel helloMessage) := by
    refine ⟨(relayHistory helloMessage false).take 4, _,
      (relayHistory helloMessage false).drop 5, hhistory, ⟨1, rfl⟩, ?_⟩
    simp [relayHistory, Event.removes]
  rcases hkeep 1 _ haccepted with hmem | ⟨d, v, forwardedEnv, hd⟩ | ⟨d, message, hwrote⟩
  · rw [hmailbox] at hmem
    exact absurd hmem List.not_mem_nil
  · have hheld := (holder_of_run hrun hd).1
    rw [hhandlers] at hheld
    exact absurd hheld List.not_mem_nil
  · have hwrote' : .wrote d 1 (storedParcel helloMessage) message true ∈
        relayHistory helloMessage false := hhistory ▸ hwrote
    simp [relayHistory] at hwrote'

end GrpcEndpointServer

end SimpleMessenger
