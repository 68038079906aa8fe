import SimpleMessenger.Common.UdpFlows

/-!
# The incoming queue of a UDP endpoint

The listener thread of {lit}`UdpEndpointBase.cpp` stores what arrives, and drops the
earliest envelope when there is no room, while any number of calls of
{lit}`tryReceiveEnvelope` take envelopes out.  Every push and every pop is one step, so
that a call may empty the queue between the failed push and the pop that makes room.

Main results:

- Theorem {lit}`steps_of_step`: the kinds of steps.
- Theorem {lit}`reception_drops_oldest`: what is kept, dropped and handed out over any
  run.
- Theorem {lit}`exists_run_of_endpoints`: the queue of an endpoint in the network runs
  in this way.
-/

universe u

namespace SimpleMessenger

open CMemory StepSystem CircularBuffer ProtobufItf

namespace UdpEndpointBase

namespace Reception

/-! ## Steps -/

/-- Where the call of `storeEnvToInQueue` stands. -/
inductive Store (κ : Type u) where
  | idle
  /-- Before `inQueue.push`. -/
  | pushing (aEnv : AddressedEnvelope κ)
  /-- Before `inQueue.pop`, the push having failed. -/
  | dropping (aEnv : AddressedEnvelope κ)

structure State (κ : Type u) where
  inQueue : Ring (AddressedEnvelope κ) messageQueueSize
  store : Store κ

inductive Action (κ : Type u) where
  /-- `dispatchIncomingEnv` calls `storeEnvToInQueue`. -/
  | arrive (aEnv : AddressedEnvelope κ)
  /-- The next step of `storeEnvToInQueue`. -/
  | store
  /-- A call of `tryReceiveEnvelope` pops. -/
  | receive

inductive Event (κ : Type u) where
  | arrived (aEnv : AddressedEnvelope κ)
  | stored (aEnv : AddressedEnvelope κ)
  /-- A push of the listener failed. -/
  | overflow
  | evicted (aEnv : Option (AddressedEnvelope κ))
  | received (aEnv : Option (AddressedEnvelope κ))
deriving DecidableEq

variable {κ : Type u}

def storeEnvToInQueue (s : State κ) : Option (State κ × Event κ) :=
  match s.store with
  | .idle => none
  | .pushing aEnv =>
      match s.inQueue.push aEnv with
      | (true, q) => some (⟨q, .idle⟩, .stored aEnv)
      | (false, q) => some (⟨q, .dropping aEnv⟩, .overflow)
  | .dropping aEnv => some (⟨s.inQueue.pop.2, .pushing aEnv⟩, .evicted s.inQueue.pop.1)

def step (s : State κ) : Action κ → Option (State κ × Event κ)
  | .arrive aEnv =>
      match s.store with
      | .idle =>
          if getMessageType aEnv.env = .AckMessage then none
          else some ({ s with store := .pushing aEnv }, .arrived aEnv)
      | _ => none
  | .store => storeEnvToInQueue s
  | .receive => some ({ s with inQueue := s.inQueue.pop.2 }, .received s.inQueue.pop.1)

/-- The queue as constructed in the given memory, with no call under way. -/
def reception (memory : CircularBuffer (AddressedEnvelope κ) messageQueueSize) :
    StepSystem (State κ) (Action κ) (Event κ) where
  init := ⟨.construct messageQueueSize_pos memory, .idle⟩
  step := step

/-! ## What a history says -/

/-- How an envelope left the queue. -/
inductive Exit where
  | evicted
  | returned
deriving DecidableEq

def arrivedEnv : Event κ → List (AddressedEnvelope κ)
  | .arrived aEnv => [aEnv]
  | _ => []

def storedEnv : Event κ → List (AddressedEnvelope κ)
  | .stored aEnv => [aEnv]
  | _ => []

def exitEnv : Event κ → List (AddressedEnvelope κ × Exit)
  | .evicted aEnv => aEnv.toList.map (·, .evicted)
  | .received aEnv => aEnv.toList.map (·, .returned)
  | _ => []

def returnedEnv : Event κ → List (AddressedEnvelope κ)
  | .received aEnv => aEnv.toList
  | _ => []

/-- The arrivals, oldest first. -/
def arrivals (h : List (Event κ)) : List (AddressedEnvelope κ) :=
  h.flatMap arrivedEnv

/-- The arrivals that were stored, oldest first. -/
def storedEnvs (h : List (Event κ)) : List (AddressedEnvelope κ) :=
  h.flatMap storedEnv

/-- The envelopes that left the queue, and how, in the order in which they did. -/
def exits (h : List (Event κ)) : List (AddressedEnvelope κ × Exit) :=
  h.flatMap exitEnv

/-- The envelopes that `tryReceiveEnvelope` returned, in that order. -/
def returned (h : List (Event κ)) : List (AddressedEnvelope κ) :=
  h.flatMap returnedEnv

@[simp]
theorem arrivals_snoc (h : List (Event κ)) (e : Event κ) :
    arrivals (h ++ [e]) = arrivals h ++ arrivedEnv e := by
  simp [arrivals]

@[simp]
theorem storedEnvs_snoc (h : List (Event κ)) (e : Event κ) :
    storedEnvs (h ++ [e]) = storedEnvs h ++ storedEnv e := by
  simp [storedEnvs]

@[simp]
theorem exits_snoc (h : List (Event κ)) (e : Event κ) :
    exits (h ++ [e]) = exits h ++ exitEnv e := by
  simp [exits]

/-- A step of `storeEnvToInQueue`. -/
def isOwn : Event κ → Bool
  | .stored _ => true
  | .overflow => true
  | .evicted _ => true
  | _ => false

def isEviction : Event κ → Bool
  | .evicted _ => true
  | _ => false

def isArrival : Event κ → Bool
  | .arrived _ => true
  | _ => false

/-- The events since the last call of `storeEnvToInQueue` began. -/
abbrev lastCall (h : List (Event κ)) : List (Event κ) :=
  sinceLast isArrival h

/-- The envelope of the call under way. -/
def Store.pending : Store κ → List (AddressedEnvelope κ)
  | .idle => []
  | .pushing aEnv => [aEnv]
  | .dropping aEnv => [aEnv]

/-! ## The kinds of steps -/

/-- What a step can be. -/
inductive Steps (s : State κ) : State κ → Event κ → Prop where
  | arrived {aEnv : AddressedEnvelope κ} (hs : s.store = .idle) :
      Steps s { s with store := .pushing aEnv } (.arrived aEnv)
  | stored {aEnv : AddressedEnvelope κ} {q : Ring (AddressedEnvelope κ) messageQueueSize}
      (hs : s.store = .pushing aEnv) (hq : q.contents = s.inQueue.contents ++ [aEnv]) :
      Steps s ⟨q, .idle⟩ (.stored aEnv)
  | overflow {aEnv : AddressedEnvelope κ} {q : Ring (AddressedEnvelope κ) messageQueueSize}
      (hs : s.store = .pushing aEnv) (hfull : 4 ≤ s.inQueue.contents.length)
      (hq : q.contents = s.inQueue.contents) :
      Steps s ⟨q, .dropping aEnv⟩ .overflow
  | evicted {aEnv : AddressedEnvelope κ} {x : Option (AddressedEnvelope κ)}
      {q : Ring (AddressedEnvelope κ) messageQueueSize} (hs : s.store = .dropping aEnv)
      (hq : s.inQueue.contents = x.toList ++ q.contents) (hroom : q.contents.length < 4) :
      Steps s ⟨q, .pushing aEnv⟩ (.evicted x)
  | received {x : Option (AddressedEnvelope κ)}
      {q : Ring (AddressedEnvelope κ) messageQueueSize}
      (hq : s.inQueue.contents = x.toList ++ q.contents) :
      Steps s { s with inQueue := q } (.received x)

/-- A pop takes the head away. -/
theorem contents_eq_of_pop {T : Type u} (q : Ring T messageQueueSize) :
    q.contents = q.pop.1.toList ++ q.pop.2.contents := by
  rcases q.pop_eq with ⟨hitem, hrest⟩
  rw [hitem, hrest]
  cases q.contents with
  | nil => rfl
  | cons x rest => rfl

/-- A pop leaves room. -/
theorem length_pop_lt {T : Type u} (q : Ring T messageQueueSize) :
    q.pop.2.contents.length < 4 := by
  have hle : q.contents.length ≤ 4 := q.length_contents_le
  rw [q.pop_eq.2, List.length_tail]
  omega

/-- A push fails on a full queue only. -/
theorem full_of_push {T : Type u} {q q' : Ring T messageQueueSize} {x : T}
    (hpush : q.push x = (false, q')) : 4 ≤ q.contents.length := by
  have hok := (q.push_eq x).1
  rw [hpush] at hok
  have hnot : ¬ q.contents.length < 4 := of_decide_eq_false hok.symm
  omega

theorem steps_of_storeEnvToInQueue {s s' : State κ} {e : Event κ}
    (hstep : storeEnvToInQueue s = some (s', e)) : Steps s s' e := by
  cases hs : s.store with
  | idle => simp [storeEnvToInQueue, hs] at hstep
  | pushing aEnv =>
      have hpush := push_cases s.inQueue aEnv
      rcases hresult : s.inQueue.push aEnv with ⟨ok, q⟩
      rw [hresult] at hpush
      simp only [storeEnvToInQueue, hs, hresult] at hstep
      rcases hpush with ⟨rfl, hq⟩ | ⟨rfl, hq⟩
      · cases hstep
        exact .stored hs hq
      · cases hstep
        exact .overflow hs (full_of_push hresult) hq
  | dropping aEnv =>
      simp only [storeEnvToInQueue, hs] at hstep
      cases hstep
      exact .evicted hs (contents_eq_of_pop s.inQueue) (length_pop_lt s.inQueue)

/-- Every step is of one of the kinds. -/
theorem steps_of_step {s s' : State κ} {a : Action κ} {e : Event κ}
    (hstep : step s a = some (s', e)) : Steps s s' e := by
  cases a with
  | arrive aEnv =>
      cases hs : s.store with
      | idle =>
          simp only [step, hs] at hstep
          split_ifs at hstep
          cases hstep
          exact .arrived hs
      | pushing aEnv' => simp [step, hs] at hstep
      | dropping aEnv' => simp [step, hs] at hstep
  | store => exact steps_of_storeEnvToInQueue hstep
  | receive =>
      cases hstep
      exact .received (contents_eq_of_pop s.inQueue)

/-! ## What holds over a run -/

/-- How far the last call has come. -/
def Progress (h : List (Event κ)) (s : State κ) : Prop :=
  match s.store with
  | .idle => (lastCall h).countP isEviction ≤ 1 ∧ (lastCall h).countP isOwn ≤ 3
  | .pushing _ =>
      ((lastCall h).countP isEviction = 0 ∧ (lastCall h).countP isOwn = 0) ∨
        ((lastCall h).countP isEviction = 1 ∧ (lastCall h).countP isOwn = 2 ∧
          s.inQueue.contents.length < 4)
  | .dropping _ => (lastCall h).countP isEviction = 0 ∧ (lastCall h).countP isOwn = 1

/-- What was stored has left or is still there, in order; what arrived was stored or is
being stored. -/
structure Inv (h : List (Event κ)) (s : State κ) : Prop where
  conserved : storedEnvs h = (exits h).map (·.1) ++ s.inQueue.contents
  arrived : arrivals h = storedEnvs h ++ s.store.pending
  progress : Progress h s

/-- A step that begins no call adds to the last one. -/
theorem countP_lastCall_snoc (p : Event κ → Bool) (h : List (Event κ)) {e : Event κ}
    (he : isArrival e = false) :
    (lastCall (h ++ [e])).countP p = (lastCall h).countP p + (p e).toNat := by
  unfold lastCall
  rw [sinceLast_snoc, he, if_neg Bool.false_ne_true, List.countP_append, List.countP_singleton]
  cases p e <;> rfl

theorem Progress.snoc {h : List (Event κ)} {s s' : State κ} {e : Event κ}
    (hprogress : Progress h s) (hstep : Steps s s' e) : Progress (h ++ [e]) s' := by
  unfold Progress at hprogress ⊢
  cases hstep with
  | arrived hs =>
      left
      simp [lastCall, sinceLast_snoc, isArrival]
  | stored hs hq =>
      rw [hs] at hprogress
      rw [countP_lastCall_snoc _ _ rfl, countP_lastCall_snoc _ _ rfl]
      simp only [isEviction, isOwn, Bool.toNat_true, Bool.toNat_false]
      omega
  | overflow hs hfull hq =>
      -- the second push of a call does not fail, the pop has made room for it
      rw [hs] at hprogress
      rw [countP_lastCall_snoc _ _ rfl, countP_lastCall_snoc _ _ rfl]
      simp only [isEviction, isOwn, Bool.toNat_true, Bool.toNat_false]
      omega
  | evicted hs hq hroom =>
      rw [hs] at hprogress
      rw [countP_lastCall_snoc _ _ rfl, countP_lastCall_snoc _ _ rfl]
      simp only [isEviction, isOwn, Bool.toNat_true]
      omega
  | received hq =>
      have hlen := congrArg List.length hq
      rw [List.length_append] at hlen
      rw [countP_lastCall_snoc _ _ rfl, countP_lastCall_snoc _ _ rfl]
      simp only [isEviction, isOwn, Bool.toNat_false]
      cases hs : s.store with
      | idle =>
          rw [hs] at hprogress
          exact hprogress
      | pushing aEnv =>
          rw [hs] at hprogress
          dsimp only at hprogress ⊢
          omega
      | dropping aEnv =>
          rw [hs] at hprogress
          exact hprogress

theorem Inv.snoc {h : List (Event κ)} {s s' : State κ} {e : Event κ} (hinv : Inv h s)
    (hstep : Steps s s' e) : Inv (h ++ [e]) s' := by
  rcases hinv with ⟨hconserved, harrived, hprogress⟩
  refine ⟨?_, ?_, hprogress.snoc hstep⟩
  · rw [storedEnvs_snoc, exits_snoc, List.map_append, hconserved]
    cases hstep with
    | arrived hs => simp [storedEnv, exitEnv]
    | stored hs hq => simp [storedEnv, exitEnv, hq]
    | overflow hs hfull hq => simp [storedEnv, exitEnv, hq]
    | evicted hs hq hroom => simp [storedEnv, exitEnv, hq, Function.comp_def]
    | received hq => simp [storedEnv, exitEnv, hq, Function.comp_def]
  · rw [arrivals_snoc, storedEnvs_snoc, harrived]
    cases hstep with
    | arrived hs => simp [arrivedEnv, storedEnv, Store.pending, hs]
    | stored hs hq => simp [arrivedEnv, storedEnv, Store.pending, hs]
    | overflow hs hfull hq => simp [arrivedEnv, storedEnv, Store.pending, hs]
    | evicted hs hq hroom => simp [arrivedEnv, storedEnv, Store.pending, hs]
    | received hq => simp [arrivedEnv, storedEnv]

section Runs

variable {memory : CircularBuffer (AddressedEnvelope κ) messageQueueSize}
  {h : List (Event κ)} {s : State κ}

theorem inv_of_run (hrun : (reception memory).Run Any h s) : Inv h s := by
  refine Run.invariant ⟨rfl, rfl, Nat.zero_le _, Nat.zero_le _⟩ ?_ hrun
  intro h s a s' e _ hinv _ hstep
  exact hinv.snoc (steps_of_step hstep)

/-- A push that succeeds puts its envelope at the tail. -/
theorem tail_of_run (hrun : (reception memory).Run Any h s) {h₁ : List (Event κ)}
    {aEnv : AddressedEnvelope κ} (hlast : h = h₁ ++ [.stored aEnv]) :
    ∃ front, s.inQueue.contents = front ++ [aEnv] := by
  cases hrun with
  | start => simp at hlast
  | step _ _ hstep =>
      rcases List.append_inj' hlast rfl with ⟨_, hevent⟩
      cases hevent
      cases steps_of_step hstep with
      | stored hs hq => exact ⟨_, hq⟩

/-- What was returned is what left in this way. -/
theorem returned_eq (h : List (Event κ)) :
    returned h = ((exits h).filter (·.2 = .returned)).map (·.1) := by
  induction h with
  | nil => rfl
  | cons e h ih =>
      unfold returned exits at ih ⊢
      rw [List.flatMap_cons, List.flatMap_cons, List.filter_append, List.map_append, ih]
      congr 1
      cases e with
      | arrived aEnv => rfl
      | stored aEnv => rfl
      | overflow => rfl
      | evicted aEnv => cases aEnv <;> rfl
      | received aEnv => cases aEnv <;> rfl

/-- Reception that keeps the latest envelopes. -/
structure DropsOldest (h : List (Event κ)) (s : State κ) : Prop where
  /-- A call drops one envelope at most, -/
  one_eviction : (lastCall h).countP isEviction ≤ 1
  /-- takes three steps at most, and can always take its next one, -/
  finishes : (lastCall h).countP isOwn ≤ 3 ∧
    (s.store ≠ .idle → (lastCall h).countP isOwn < 3 ∧ (storeEnvToInQueue s).isSome)
  /-- and ends with its envelope, the last to arrive, at the tail. -/
  at_tail : ∀ h₁ aEnv, h = h₁ ++ [.stored aEnv] → ∃ front, s.inQueue.contents = front ++ [aEnv]
  in_order : arrivals h = storedEnvs h ++ s.store.pending
  suffix : s.inQueue.contents <:+ storedEnvs h
  short : s.inQueue.contents.length ≤ 4
  returned_sublist : (returned h).Sublist (arrivals h)
  /-- The arrivals stored are those that left, each in one of the two ways, and those
  that are still there. -/
  returned_eq : returned h = ((exits h).filter (·.2 = .returned)).map (·.1)
  conserved : storedEnvs h = (exits h).map (·.1) ++ s.inQueue.contents

/-- Whatever arrives and however the steps interleave, the earliest envelopes are
dropped, at most one for each arrival, and nothing else is lost. -/
theorem reception_drops_oldest (hrun : (reception memory).Run Any h s) : DropsOldest h s := by
  rcases inv_of_run hrun with ⟨hconserved, harrived, hprogress⟩
  have hstored : ((exits h).map (·.1)).Sublist (arrivals h) := by
    rw [harrived, hconserved, List.append_assoc]
    exact List.sublist_append_left _ _
  unfold Progress at hprogress
  refine ⟨?_, ⟨?_, ?_⟩, fun h₁ aEnv hlast => tail_of_run hrun hlast, harrived, ?_,
    s.inQueue.length_contents_le, ?_, returned_eq h, hconserved⟩
  · cases hs : s.store <;> rw [hs] at hprogress <;> dsimp only at hprogress <;> omega
  · cases hs : s.store <;> rw [hs] at hprogress <;> dsimp only at hprogress <;> omega
  · intro hbusy
    unfold storeEnvToInQueue
    cases hs : s.store with
    | idle => exact absurd hs hbusy
    | pushing aEnv =>
        rw [hs] at hprogress
        dsimp only at hprogress ⊢
        refine ⟨by omega, ?_⟩
        rcases s.inQueue.push aEnv with ⟨_ | _, q⟩ <;> rfl
    | dropping aEnv =>
        rw [hs] at hprogress
        exact ⟨by omega, rfl⟩
  · exact ⟨_, hconserved.symm⟩
  · rw [returned_eq]
    exact (List.filter_sublist.map _).trans hstored

end Runs

/-- A message from address `n`. -/
def messageFrom (n : Nat) : AddressedEnvelope Nat where
  sockInfo := n
  env := Envelope.zero
  tag := .message n

/-- Five messages arrive; when the fifth finds no room, a call takes the first one out
before the second is dropped for it. -/
def crowdedHistory : List (Event Nat) :=
  [.arrived (messageFrom 1), .stored (messageFrom 1), .arrived (messageFrom 2),
    .stored (messageFrom 2), .arrived (messageFrom 3), .stored (messageFrom 3),
    .arrived (messageFrom 4), .stored (messageFrom 4), .arrived (messageFrom 5), .overflow,
    .received (some (messageFrom 1)), .evicted (some (messageFrom 2)), .stored (messageFrom 5)]

def crowdedMemory : CircularBuffer (AddressedEnvelope Nat) messageQueueSize :=
  ⟨Vector.replicate _ (messageFrom 0), 7, 7, 7⟩

def crowdedActions : List (Action Nat) :=
  [.arrive (messageFrom 1), .store, .arrive (messageFrom 2), .store, .arrive (messageFrom 3),
    .store, .arrive (messageFrom 4), .store, .arrive (messageFrom 5), .store, .receive, .store,
    .store]

/-- The second message is lost although the queue has room when it is dropped. -/
theorem reception_drops_second :
    ∃ s, (reception crowdedMemory).Run Any crowdedHistory s ∧
      s.inQueue.contents.length ≤ 4 ∧ returned crowdedHistory = [messageFrom 1] ∧
        s.inQueue.contents <:+ storedEnvs crowdedHistory := by
  have hexec : ((reception crowdedMemory).exec crowdedActions).map (·.1) =
      some crowdedHistory := by
    decide +kernel
  rcases Run.exists_of_exec hexec with ⟨s, hrun⟩
  have hdrops := reception_drops_oldest hrun
  exact ⟨s, hrun, hdrops.short, rfl, hdrops.suffix⟩

/-! ## Endpoints of the network -/

/-- What a listener thread does is one call or none. -/
def Store.ofListener : Listener κ → Store κ
  | .storing aEnv => .pushing aEnv
  | .dropping aEnv => .dropping aEnv
  | _ => .idle

/-- The incoming queue of an endpoint. -/
def view (ep : Endpoint κ) : State κ :=
  ⟨ep.inQueue, .ofListener ep.listener⟩

/-- The next step of a listener thread, seen at its incoming queue. -/
theorem view_of_listen {ep ep' : Endpoint κ} (hlisten : listen ep = some ep') :
    view ep' = view ep ∨ ∃ e, step (view ep) .store = some (view ep', e) := by
  cases hl : ep.listener with
  | polling => simp [listen, hl] at hlisten
  | storing aEnv =>
      right
      rcases hpush : ep.inQueue.push aEnv with ⟨_ | _, q⟩
      · simp only [listen, hl, hpush] at hlisten
        cases hlisten
        exact ⟨.overflow, by simp [step, storeEnvToInQueue, view, Store.ofListener, hl, hpush]⟩
      · simp only [listen, hl, hpush] at hlisten
        cases hlisten
        exact ⟨.stored aEnv, by
          simp [step, storeEnvToInQueue, view, Store.ofListener, hl, hpush]⟩
  | dropping aEnv =>
      right
      simp only [listen, hl] at hlisten
      cases hlisten
      exact ⟨.evicted ep.inQueue.pop.1, by
        simp [step, storeEnvToInQueue, view, Store.ofListener, hl]⟩
  | storingAck eAck =>
      left
      rcases hpush : ep.ackQueue.push eAck with ⟨_ | _, q⟩ <;>
        simp only [listen, hl, hpush] at hlisten <;> cases hlisten <;>
        simp [view, Store.ofListener, hl]
  | droppingAck eAck =>
      left
      simp only [listen, hl] at hlisten
      cases hlisten
      simp [view, Store.ofListener, hl]

/-- A datagram that is dispatched starts a call, unless it is an acknowledgement. -/
theorem view_of_dispatch {ep : Endpoint κ} (hpolling : ep.listener = .polling)
    (bufferIn : RxTxBuffer) (aEnv : AddressedEnvelope κ) :
    view { ep with bufferIn := bufferIn, listener := dispatchIncomingEnv aEnv } = view ep ∨
      step (view ep) (.arrive aEnv) =
        some (view { ep with bufferIn := bufferIn, listener := dispatchIncomingEnv aEnv },
          .arrived aEnv) := by
  by_cases hack : getMessageType aEnv.env = .AckMessage
  · left
    simp [view, dispatchIncomingEnv, hack, Store.ofListener, hpolling]
  · right
    simp [step, view, dispatchIncomingEnv, hack, Store.ofListener, hpolling]

theorem view_of_sends {wire : Wire} {p : κ} {ep ep' : Endpoint κ}
    {e : UdpEndpointBase.Event κ} (hsends : Sends wire p ep ep' e) : view ep' = view ep := by
  cases hsends <;> rfl

section Network

variable [DecidableEq κ] {wire : Wire}

/-- A step in the network changes one endpoint at most, so the others notice nothing. -/
theorem view_of_put {s s' : UdpEndpointBase.State κ} {p q : κ} {ep : Endpoint κ}
    (heq : s'.endpoints = (s.put q ep).endpoints)
    (hview : view ep = view (s.endpoints q) ∨
      ∃ b d, step (view (s.endpoints q)) b = some (view ep, d)) :
    view (s'.endpoints p) = view (s.endpoints p) ∨
      ∃ b d, step (view (s.endpoints p)) b = some (view (s'.endpoints p), d) := by
  rw [heq]
  rcases eq_or_ne p q with rfl | hne
  · rwa [UdpEndpointBase.State.put_self]
  · rw [UdpEndpointBase.State.put_of_ne hne]
    exact .inl rfl

/-- Every step in the network is a step of the incoming queue of an endpoint, or none
that it notices. -/
theorem view_of_step {s s' : UdpEndpointBase.State κ} {a : UdpEndpointBase.Action κ}
    {e : UdpEndpointBase.Event κ} (hstep : UdpEndpointBase.step wire s a = some (s', e))
    (p : κ) :
    view (s'.endpoints p) = view (s.endpoints p) ∨
      ∃ b d, step (view (s.endpoints p)) b = some (view (s'.endpoints p), d) := by
  cases a with
  | tryReceiveEnvelope q =>
      have hpair := Option.some.inj hstep
      have hs' : s'.endpoints =
          (s.put q { s.endpoints q with inQueue := (s.endpoints q).inQueue.pop.2 }).endpoints := by
        simp only [tryReceiveEnvelope] at hpair
        split at hpair <;> rename_i hpop <;> cases hpair <;> rw [hpop]
      exact view_of_put hs' (.inr ⟨.receive, _, rfl⟩)
  | listener q =>
      rcases Option.map_eq_some_iff.mp hstep with ⟨ep, hlisten, hpair⟩
      cases hpair
      refine view_of_put rfl ?_
      rcases view_of_listen hlisten with hsame | ⟨d, hone⟩
      · exact .inl hsame
      · exact .inr ⟨_, d, hone⟩
  | sendEnvelope q envelope receiverInfo now =>
      cases UdpEndpointBase.steps_of_step hstep with
      | stamped haddr hclock => exact view_of_put rfl (.inl rfl)
  | call c =>
      cases UdpEndpointBase.steps_of_step hstep with
      | queued hc hq => exact view_of_put rfl (.inl rfl)
      | ackFilled hc hout => exact view_of_put rfl (.inl rfl)
      | returned hc hdatagram => exact .inl rfl
  | sender q =>
      cases UdpEndpointBase.steps_of_step hstep with
      | sending hsends => exact view_of_put rfl (.inl (view_of_sends hsends))
      | sent hs hdatagram => exact view_of_put rfl (.inl rfl)
  | receive q i =>
      cases UdpEndpointBase.steps_of_step hstep with
      | received hi hdest hpolling hsource htag hdecode =>
          refine view_of_put rfl ?_
          rcases view_of_dispatch hpolling _ _ with hsame | hone
          · exact .inl hsame
          · exact .inr ⟨_, _, hone⟩
  | lose i =>
      cases UdpEndpointBase.steps_of_step hstep with
      | lost hi => exact .inl rfl

/-- The incoming queue of an endpoint in the network runs as a reception. -/
theorem exists_run_of_endpoints {memory : κ → Memory κ}
    {h : List (UdpEndpointBase.Event κ)} {s : UdpEndpointBase.State κ}
    (hrun : (endpoints wire memory).Run Any h s) (p : κ) :
    ∃ h', (reception (memory p).inQueue).Run Any h' (view (s.endpoints p)) :=
  hrun.view (fun s => view (s.endpoints p)) rfl fun _ _ _ _ hstep => view_of_step hstep p

end Network

end Reception

end UdpEndpointBase

end SimpleMessenger
