import SimpleMessenger.Server.Delivery

/-!
# What a single stream writes

A stream pops an envelope, writes it, and pops the next one, so that its writes are its
pops, the last of them perhaps still under way.  All streams of a user share one
mailbox; together they take a part of what was stored there, in the order in which it
was stored, even over logouts.

Main results:

- Theorem {lit}`streamed_run`: what a stream has popped is what it has written, and what
  it is about to write.
- Theorem {lit}`deliveredBy_sublist`: what a stream delivers is stored for its user, in
  the same order.
- Theorem {lit}`poppedBy_disjoint`: no two streams pop the same envelope.
-/

namespace SimpleMessenger

open CMemory CircularBuffer StepSystem NamedQueues

namespace GrpcEndpointServer

/-! ## The pops and writes of a call -/

def Event.poppedBy? (c : Nat) : Event → Option Parcel
  | .popped d _ (some parcel) => if d = c then some parcel else none
  | _ => none

def Event.writtenBy? (c : Nat) : Event → Option Parcel
  | .wrote d _ parcel _ _ => if d = c then some parcel else none
  | _ => none

def Event.deliveredBy? (c : Nat) : Event → Option Parcel
  | .wrote d _ parcel _ true => if d = c then some parcel else none
  | _ => none

/-- The envelopes that a call pops, in order. -/
def poppedBy (c : Nat) (h : List Event) : List Parcel :=
  h.filterMap (Event.poppedBy? c)

/-- The envelopes that a call writes, with whatever outcome. -/
def writtenBy (c : Nat) (h : List Event) : List Parcel :=
  h.filterMap (Event.writtenBy? c)

/-- The envelopes that a call writes with success. -/
def deliveredBy (c : Nat) (h : List Event) : List Parcel :=
  h.filterMap (Event.deliveredBy? c)

/-- The envelope that a stream has popped and not written yet. -/
def Handler.pending : Handler → Option Parcel
  | .forwarding _ parcel _ => some parcel
  | _ => none

/-- What call `c` has popped and not written yet. -/
def State.pending (s : State) (c : Nat) : List Parcel :=
  (s.handlers[c]?.bind Handler.pending).toList

theorem poppedBy_snoc (c : Nat) (h : List Event) (e : Event) :
    poppedBy c (h ++ [e]) = poppedBy c h ++ (e.poppedBy? c).toList :=
  filterMap_snoc _ h e

theorem writtenBy_snoc (c : Nat) (h : List Event) (e : Event) :
    writtenBy c (h ++ [e]) = writtenBy c h ++ (e.writtenBy? c).toList :=
  filterMap_snoc _ h e

/-- What is delivered is written. -/
theorem deliveredBy_sublist_writtenBy (c : Nat) (h : List Event) :
    (deliveredBy c h).Sublist (writtenBy c h) := by
  refine filterMap_sublist ?_ h
  intro e parcel he
  cases e with
  | wrote d u parcel' message ok =>
      cases ok with
      | true => exact he
      | false => simp [Event.deliveredBy?] at he
  | _ => simp [Event.deliveredBy?] at he

/-- The call that shows the event. -/
def Event.call : Event → Nat
  | .called c => c
  | .received c _ => c
  | .added c _ => c
  | .removed c _ => c
  | .checked c _ _ => c
  | .pushed c _ _ _ => c
  | .popped c _ _ => c
  | .wrote c _ _ _ _ => c

/-- A call has been made when it shows something. -/
theorem Steps.call_lt {s s' : State} {a : Action} {e : Event} (hsteps : Steps s a s' e) :
    e.call < s'.handlers.length := by
  have hgoOn : ∀ {c : Nat} {before after : Handler} {box : PostBox},
      s.handlers[c]? = some before → c < (s.goOn c after box).handlers.length := by
    intro c before after box hc
    rw [State.goOn, List.length_set]
    exact (List.getElem?_eq_some_iff.mp hc).1
  cases hsteps with
  | start hstart => cases hstart <;> simp [Event.call, State.start]
  | add hc | exit hc | check hc _ | push hc _ | pop hc _ | write hc _ => exact hgoOn hc

theorem call_lt_run {G : Guard State Action Event} {h : List Event} {s : State}
    (hrun : server.Run G h s) : ∀ e ∈ h, e.call < s.handlers.length := by
  refine hrun.invariant (I := fun h s => ∀ e ∈ h, e.call < s.handlers.length) nofun ?_
  intro h s a s' e _ hold _ hstep d hmem
  rcases List.mem_append.mp hmem with hin | hnew
  · exact (hold d hin).trans_le (steps_of_step hstep).length_le
  · rw [List.mem_singleton.mp hnew]
    exact (steps_of_step hstep).call_lt

/-! ## A stream pops and writes in turn -/

/-- What every call has popped is what it has written, and what it is about to write. -/
def Streamed (h : List Event) (s : State) : Prop :=
  ∀ c, poppedBy c h = writtenBy c h ++ s.pending c

theorem pending_start {s : State} {a : Action} {handler : Handler} {e : Event}
    (hstart : Starts s.handlers.length a handler e) (c : Nat) :
    (s.start handler).pending c = s.pending c := by
  have hnone : handler.pending = none := by
    cases hstart <;> rfl
  exact congrArg Option.toList (bind_append_of_none hnone c)

/-- What one call does shows in its own place only. -/
theorem pending_goOn {s : State} {c : Nat} {before after : Handler} {box : PostBox}
    (hc : s.handlers[c]? = some before) (d : Nat) :
    (s.goOn c after box).pending d = if d = c then after.pending.toList else s.pending d := by
  unfold State.pending
  split <;> rename_i hdc
  · subst hdc
    rw [State.goOn, getElem?_set_of_some hc, Option.bind_some]
  · rw [State.goOn, List.getElem?_set_ne (Ne.symm hdc)]

theorem pending_of_some {s : State} {c : Nat} {handler : Handler}
    (hc : s.handlers[c]? = some handler) : s.pending c = handler.pending.toList := by
  rw [State.pending, hc, Option.bind_some]

/-- A step that neither pops nor writes. -/
theorem Streamed.quiet {h : List Event} {s s' : State} {e : Event} (hold : Streamed h s)
    (hpopped : ∀ c, e.poppedBy? c = none) (hwritten : ∀ c, e.writtenBy? c = none)
    (hpending : ∀ c, s'.pending c = s.pending c) : Streamed (h ++ [e]) s' := by
  intro c
  rw [poppedBy_snoc, writtenBy_snoc, hpopped, hwritten, hpending, hold c]
  simp

/-- A call goes on, without an envelope before and after. -/
theorem pending_goOn_of_none {s : State} {c : Nat} {before after : Handler} {box : PostBox}
    (hc : s.handlers[c]? = some before) (hbefore : before.pending = none)
    (hafter : after.pending = none) (d : Nat) :
    (s.goOn c after box).pending d = s.pending d :=
  congrArg Option.toList (bind_set_of_eq hc (hafter.trans hbefore.symm) d)

theorem Streamed.step {h : List Event} {s s' : State} {a : Action} {e : Event}
    (hold : Streamed h s) (hsteps : Steps s a s' e) : Streamed (h ++ [e]) s' := by
  cases hsteps with
  | start hstart =>
      have hnone : ∀ c, e.poppedBy? c = none ∧ e.writtenBy? c = none := by
        cases hstart <;> exact fun _ => ⟨rfl, rfl⟩
      exact hold.quiet (fun c => (hnone c).1) (fun c => (hnone c).2) (pending_start hstart)
  | add hc => exact hold.quiet (fun _ => rfl) (fun _ => rfl) (pending_goOn_of_none hc rfl rfl)
  | exit hc => exact hold.quiet (fun _ => rfl) (fun _ => rfl) (pending_goOn_of_none hc rfl rfl)
  | check hc hcheck =>
      refine hold.quiet (fun _ => rfl) (fun _ => rfl) (pending_goOn_of_none hc ?_ ?_)
      · cases hcheck <;> rfl
      · cases hcheck <;> rfl
  | push hc hpush => exact hold.quiet (fun _ => rfl) (fun _ => rfl) (pending_goOn_of_none hc rfl rfl)
  | @pop c u forwardedEnv stack heap item box hc hpop =>
      cases item with
      | none => exact hold.quiet (fun _ => rfl) (fun _ => rfl) (pending_goOn_of_none hc rfl rfl)
      | some parcel =>
          intro d
          have hbefore := hold d
          rw [poppedBy_snoc, writtenBy_snoc, pending_goOn hc]
          by_cases hdc : d = c
          · subst hdc
            rw [pending_of_some hc] at hbefore
            simp [Event.poppedBy?, Event.writtenBy?, afterPop, Handler.pending] at hbefore ⊢
            exact hbefore
          · simp [Event.poppedBy?, Event.writtenBy?, hdc, Ne.symm hdc, hbefore]
  | @write c ok u parcel forwardedEnv message hc hencode =>
      intro d
      have hbefore := hold d
      rw [poppedBy_snoc, writtenBy_snoc, pending_goOn hc]
      by_cases hdc : d = c
      · subst hdc
        rw [pending_of_some hc] at hbefore
        simp [Event.poppedBy?, Event.writtenBy?, Handler.pending] at hbefore ⊢
        exact hbefore
      · simp [Event.poppedBy?, Event.writtenBy?, hdc, Ne.symm hdc, hbefore]

/-- A stream writes what it pops, one by one. -/
theorem streamed_run {G : Guard State Action Event} {h : List Event} {s : State}
    (hrun : server.Run G h s) : Streamed h s := by
  refine hrun.invariant ?_ ?_
  · intro c
    simp [poppedBy, writtenBy, State.pending, server]
  · intro h s a s' e _ hold _ hstep
    exact hold.step (steps_of_step hstep)

/-- What a call delivers it has popped, in the same order. -/
theorem deliveredBy_sublist_poppedBy {G : Guard State Action Event} {h : List Event} {s : State}
    (hrun : server.Run G h s) (c : Nat) : (deliveredBy c h).Sublist (poppedBy c h) := by
  rw [streamed_run hrun c]
  exact (deliveredBy_sublist_writtenBy c h).trans (List.sublist_append_left _ _)

/-! ## The streams of a user -/

/-- The call is at work for the user's mailbox, or has ended. -/
def Handler.Streams (u : UserID) : Handler → Prop
  | .polling v _ => v = u
  | .popping v _ => v = u
  | .forwarding v _ _ => v = u
  | .returned _ => True
  | _ => False

/-- Call `c` is a stream of user `u`. -/
structure Serves (h : List Event) (s : State) (c : Nat) (u : UserID) : Prop where
  handler : ∃ handler, s.handlers[c]? = some handler ∧ handler.Streams u
  pops : ∀ v item, .popped c v item ∈ h → v = u

theorem Serves.step {h : List Event} {s s' : State} {a : Action} {e : Event} {c : Nat}
    {u : UserID} (hserves : Serves h s c u) (hsteps : Steps s a s' e) :
    Serves (h ++ [e]) s' c u := by
  rcases hserves with ⟨⟨handler, hc, hstreams⟩, hpops⟩
  -- the stream is where it was, or takes this step itself
  have hother : ∀ {d : Nat} {before after : Handler} {box : PostBox},
      s.handlers[d]? = some before → (before.Streams u → after.Streams u) →
        ∃ handler, (s.goOn d after box).handlers[c]? = some handler ∧ handler.Streams u := by
    intro d before after box hd hnext
    by_cases hdc : d = c
    · subst hdc
      rw [hc] at hd
      cases hd
      exact ⟨after, getElem?_set_of_some hc, hnext hstreams⟩
    · exact ⟨handler, by rw [State.goOn, List.getElem?_set_ne hdc, hc], hstreams⟩
  have hkept : (∀ v item, e ≠ .popped c v item) → ∀ v item, .popped c v item ∈ h ++ [e] → v = u := by
    intro hne v item hmem
    rcases List.mem_append.mp hmem with hold | hnew
    · exact hpops v item hold
    · exact absurd (List.mem_singleton.mp hnew).symm (hne v item)
  cases hsteps with
  | start hstart =>
      refine ⟨⟨handler, getElem?_append_of_some hc, hstreams⟩, hkept ?_⟩
      cases hstart <;> simp
  | add hd => exact ⟨hother hd False.elim, hkept (by simp)⟩
  | exit hd => exact ⟨hother hd False.elim, hkept (by simp)⟩
  | check hd hcheck =>
      refine ⟨hother hd ?_, hkept (by simp)⟩
      cases hcheck with
      | recipientOffline _ => exact False.elim
      | recipientOnline _ => exact False.elim
      | userOffline _ => exact fun _ => trivial
      | userOnline _ => exact id
  | push hd hpush => exact ⟨hother hd False.elim, hkept (by simp)⟩
  | @pop d v forwardedEnv stack heap item box hd hpop =>
      refine ⟨hother hd ?_, ?_⟩
      · intro hv
        cases item <;> exact hv
      · intro v' item' hmem
        rcases List.mem_append.mp hmem with hold | hnew
        · exact hpops v' item' hold
        · cases List.mem_singleton.mp hnew
          rw [hc] at hd
          cases hd
          exact hstreams
  | write hd hencode => exact ⟨hother hd id, hkept (by simp)⟩

/-- A stream that is opened serves the user of its metadata, and has delivered nothing. -/
theorem serves_start {G : Guard State Action Event} {h : List Event} {s s' : State} {e : Event}
    (hrun : server.Run G h s) {metadata : List (Bytes × Bytes)} {u : UserID}
    (huser : streamUser metadata = some u)
    (hstep : step s (.streamIncomingMessages metadata) = some (s', e)) :
    e = .called s.handlers.length ∧ Serves (h ++ [e]) s' s.handlers.length u ∧
      deliveredBy s.handlers.length (h ++ [e]) = [] := by
  simp only [step, huser] at hstep
  cases hstep
  refine ⟨rfl, ⟨⟨.polling u {}, by simp [State.start], rfl⟩, ?_⟩, ?_⟩
  · intro v item hmem
    rcases List.mem_append.mp hmem with hin | hnew
    · exact absurd (call_lt_run hrun _ hin) (lt_irrefl _)
    · cases List.mem_singleton.mp hnew
  · refine List.filterMap_eq_nil_iff.mpr ?_
    intro e hmem
    rcases List.mem_append.mp hmem with hin | hnew
    · have hlt := call_lt_run hrun e hin
      cases e with
      | wrote d v parcel message ok =>
          cases ok with
          | true => exact if_neg (Nat.ne_of_lt hlt)
          | false => rfl
      | _ => rfl
    · rw [List.mem_singleton.mp hnew]
      rfl

/-- What the streams of a user pop together contains what each of them pops. -/
theorem poppedBy_sublist_poppedFor {h : List Event} {c : Nat} {u : UserID}
    (hpops : ∀ v item, .popped c v item ∈ h → v = u) :
    (poppedBy c h).Sublist (poppedFor u h) := by
  induction h using List.reverseRecOn with
  | nil => exact List.Sublist.refl _
  | append_singleton h e ih =>
      have hrest := ih fun v item hmem => hpops v item (List.mem_append_left _ hmem)
      rw [poppedBy_snoc, poppedFor, List.map_append, List.map_singleton, takes_snoc, under_append]
      refine hrest.append ?_
      cases he : e.poppedBy? c with
      | none => exact List.nil_sublist _
      | some parcel =>
          cases e with
          | popped d v item =>
              cases item with
              | none => simp [Event.poppedBy?] at he
              | some parcel' =>
                  simp only [Event.poppedBy?, Option.ite_none_right_eq_some] at he
                  rcases he with ⟨rfl, hsame⟩
                  have hv := hpops v (some parcel') (by simp)
                  cases hsame
                  simp [Event.effect, Effect.take?, hv]
          | _ => simp [Event.poppedBy?] at he

/-- What a stream delivers was stored for its user, in the same order. -/
theorem deliveredBy_sublist {h : List Event} {s : State} (hrun : server.Run FreshMailboxes h s)
    {c : Nat} {u : UserID} (hserves : Serves h s c u) :
    (deliveredBy c h).Sublist (storedFor u h) :=
  ((deliveredBy_sublist_poppedBy hrun c).trans (poppedBy_sublist_poppedFor hserves.pops)).trans
    ((leads_run hrun).2.takes_sublist_puts u)

/-! ## Different streams -/

/-- The pops of all streams, with the calls that made them. -/
def Event.pop? : Event → Option (Nat × Parcel)
  | .popped c _ (some parcel) => some (c, parcel)
  | _ => none

theorem mem_poppedBy {c : Nat} {h : List Event} {parcel : Parcel} :
    parcel ∈ poppedBy c h ↔ (c, parcel) ∈ h.filterMap Event.pop? := by
  have hsame : ∀ e : Event, e.poppedBy? c = some parcel ↔ e.pop? = some (c, parcel) := by
    intro e
    cases e with
    | popped d v item => cases item <;> simp [Event.poppedBy?, Event.pop?]
    | _ => simp [Event.poppedBy?, Event.pop?]
  simp [poppedBy, List.mem_filterMap, hsame]

theorem map_call_pops (h : List Event) :
    (h.filterMap Event.pop?).map (fun p => p.2.call) = (popped h).map fun p => p.2.call := by
  unfold popped takes
  rw [List.map_filterMap, List.filterMap_map, List.map_filterMap]
  apply List.filterMap_congr
  intro e _
  cases e with
  | popped d v item => cases item <;> rfl
  | pushed d v parcel ok => cases ok <;> rfl
  | _ => rfl

/-- No envelope is popped by two streams, and none twice by one. -/
theorem poppedBy_disjoint {h : List Event} {s : State} (hrun : server.Run FreshMailboxes h s)
    {c d : Nat} {parcel parcel' : Parcel} (hc : parcel ∈ poppedBy c h) (hd : parcel' ∈ poppedBy d h)
    (hcall : parcel.call = parcel'.call) : c = d := by
  have hnodup : ((h.filterMap Event.pop?).map fun p => p.2.call).Nodup := by
    rw [map_call_pops]
    exact (distinct_run hrun).takes_nodup
  have hsame := List.inj_on_of_nodup_map hnodup (mem_poppedBy.mp hc) (mem_poppedBy.mp hd) hcall
  exact congrArg Prod.fst hsame

end GrpcEndpointServer

end SimpleMessenger
