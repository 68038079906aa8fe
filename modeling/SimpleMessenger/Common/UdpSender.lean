import SimpleMessenger.Common.UdpDelivery
import SimpleMessenger.Foundations.StopAndWait

/-!
# The sender thread of `UdpEndpointBase.cpp`

`sendEnvFromOutQueue` takes an envelope out of the output queue and calls `sendDataGram` for
it until `checkAckQueue` finds its acknowledgement, five times at most.  What the datagrams
hold is not followed here.

Main results:

- Theorem {lit}`stop_and_wait`: what the sender thread of an endpoint has done is a
  sequence of such rounds, over any network.
-/

universe u

namespace SimpleMessenger

open StepSystem StopAndWait ProtobufItf

namespace UdpEndpointBase

variable {κ : Type u}

/-- The envelope that the sender thread works on, and how often it has sent it. -/
def Sender.round : Sender κ → Option (AddressedEnvelope κ × Nat)
  | .idle => none
  | .filling aEnv attempt => some (aEnv, attempt.val)
  | .sending aEnv attempt _ => some (aEnv, attempt.val)
  | .waiting aEnv attempt => some (aEnv, attempt.val + 1)
  | .requeuing aEnv attempt _ => some (aEnv, attempt.val + 1)

section Moves

variable [DecidableEq κ]

/-- What an event shows of the sender thread of endpoint `p`. -/
def Event.move? (p : κ) : Event κ → Option (Move (AddressedEnvelope κ))
  | .took q aEnv => if q = p then some (.take aEnv) else none
  | .sent q aEnv _ _ => if q = p then some (.send aEnv) else none
  | .acknowledged q aEnv _ => if q = p then some (.answer aEnv) else none
  | _ => none

/-- What a history shows of it. -/
def senderMoves (p : κ) (h : List (Event κ)) : List (Move (AddressedEnvelope κ)) :=
  h.filterMap (Event.move? p)

theorem senderMoves_snoc (p : κ) (h : List (Event κ)) (e : Event κ) :
    senderMoves p (h ++ [e]) = senderMoves p h ++ (e.move? p).toList := by
  rw [senderMoves, senderMoves, List.filterMap_append]
  cases hmove : e.move? p <;> simp [hmove]

variable {wire : Wire} {memory : κ → Memory κ} {s s' : State κ} {a : Action κ} {e : Event κ}
  {h : List (Event κ)} {p : κ}

omit [DecidableEq κ] in
/-- The sender thread goes on with the round, or has finished it. -/
theorem inRounds_nextAttempt {moves : List (Move (AddressedEnvelope κ))}
    {aEnv : AddressedEnvelope κ} {attempt : Fin 5}
    (hrounds : InRounds 5 moves (some (aEnv, attempt.val + 1))) :
    InRounds 5 moves (nextAttempt aEnv attempt).round := by
  unfold nextAttempt
  split_ifs with hleft
  · exact hrounds
  · have hlast : attempt.val + 1 = 5 := by omega
    rw [hlast] at hrounds
    exact hrounds.giveUp (by decide)

/-- A step of the sender thread other than its `sendto`. -/
theorem Sends.inRounds {ep ep' : Endpoint κ} (hsends : Sends wire p ep ep' e)
    {moves : List (Move (AddressedEnvelope κ))} (hrounds : InRounds 5 moves ep.sender.round) :
    InRounds 5 (moves ++ (e.move? p).toList) ep'.sender.round := by
  cases hsends with
  | idle hs hq =>
      rw [hs] at hrounds
      simpa [Event.move?] using hrounds
  | took hs hq =>
      rw [hs] at hrounds
      simpa [Event.move?, Sender.round] using hrounds.take _
  | filled hs hput =>
      rw [hs] at hrounds
      simpa [Event.move?, Sender.round] using hrounds
  | unanswered hs hq =>
      rw [hs] at hrounds
      simpa [Event.move?] using inRounds_nextAttempt hrounds
  | @acknowledged aEnv attempt pendingAck q hs hq hstamp =>
      rw [hs] at hrounds
      simpa [Event.move?, Sender.round] using hrounds.answer (Nat.succ_pos _) attempt.isLt
  | keeping hs hq hstamp =>
      rw [hs] at hrounds
      simpa [Event.move?, Sender.round] using hrounds
  | requeued hs hq =>
      rw [hs] at hrounds
      simpa [Event.move?] using inRounds_nextAttempt hrounds

/-- What the sender thread of one endpoint does is nothing to the others. -/
theorem Sends.move?_of_ne {q : κ} (hne : q ≠ p) {ep ep' : Endpoint κ}
    (hsends : Sends wire q ep ep' e) : e.move? p = none := by
  cases hsends <;> simp [Event.move?, hne]

/-- A step that is not the sender thread's. -/
theorem inRounds_of_same (hrounds : InRounds 5 (senderMoves p h) (s.endpoints p).sender.round)
    (hmove : e.move? p = none)
    (hsender : (s'.endpoints p).sender = (s.endpoints p).sender) :
    InRounds 5 (senderMoves p (h ++ [e])) (s'.endpoints p).sender.round := by
  rw [senderMoves_snoc, hmove, hsender]
  simpa using hrounds

/-- Every step keeps the rounds of every sender thread. -/
theorem Steps.inRounds (hsteps : Steps wire s a s' e)
    (hrounds : InRounds 5 (senderMoves p h) (s.endpoints p).sender.round) :
    InRounds 5 (senderMoves p (h ++ [e])) (s'.endpoints p).sender.round := by
  cases hsteps with
  | returned hc hdatagram => exact inRounds_of_same hrounds rfl rfl
  | lost hi => exact inRounds_of_same hrounds rfl rfl
  | @sending q ep e hsends =>
      rcases eq_or_ne q p with rfl | hne
      · rw [senderMoves_snoc, State.put_self]
        exact hsends.inRounds hrounds
      · exact inRounds_of_same hrounds (hsends.move?_of_ne hne)
          (congrArg (·.sender) (State.put_of_ne hne.symm _ _))
  | @sent q aEnv attempt message datagram hs hdatagram =>
      rcases eq_or_ne q p with rfl | hne
      · rw [hs] at hrounds
        rw [senderMoves_snoc]
        simpa [Event.move?, Sender.round] using hrounds.send
      · exact inRounds_of_same hrounds (by simp [Event.move?, hne])
          (congrArg (·.sender) (State.put_of_ne hne.symm _ _))
  | listened hlistens =>
      exact inRounds_of_same hrounds rfl (State.put_attribute (·.sender) hlistens.sender p)
  | _ =>
      refine inRounds_of_same hrounds rfl (State.put_attribute (·.sender) ?_ p)
      rfl

/-- An acknowledgement ends a round for the time stamp of its envelope. -/
theorem Steps.tStamp_eq {aEnv : AddressedEnvelope κ} {eAck : ExpiringAck}
    (hsteps : Steps wire s a s' (.acknowledged p aEnv eAck)) :
    eAck.tStamp = getTimeStamp aEnv.env := by
  cases hsteps with
  | sending hsends =>
      cases hsends with
      | acknowledged hs hq hstamp => exact hstamp

/-- The history of the sender thread is made of rounds. -/
theorem inRounds_run {memory : κ → Memory κ} (hrun : (endpoints wire memory).Run Any h s) :
    InRounds 5 (senderMoves p h) (s.endpoints p).sender.round := by
  refine Run.invariant
    (I := fun h s => InRounds 5 (senderMoves p h) (s.endpoints p).sender.round) .nil ?_ hrun
  intro h s a s' e _ hold _ hstep
  exact (steps_of_step hstep).inRounds hold

/-- The sender thread of an endpoint works in rounds: it calls {lit}`sendDataGram` for an
envelope one to five times, stops before the fifth time only for an acknowledgement with the
envelope's time stamp, and takes the next envelope only then. -/
theorem stop_and_wait (wire : Wire) (memory : κ → Memory κ) (p : κ) (h : List (Event κ))
    (s : State κ) (hrun : (endpoints wire memory).Run Any h s) :
    InRounds 5 (senderMoves p h) (s.endpoints p).sender.round ∧
      ∀ aEnv eAck, .acknowledged p aEnv eAck ∈ h → eAck.tStamp = getTimeStamp aEnv.env := by
  constructor
  · exact inRounds_run hrun
  · intro aEnv eAck hmem
    rcases hrun.step_of_mem hmem with ⟨_, _, _, _, _, _, hstep⟩
    exact (steps_of_step hstep).tStamp_eq

end Moves

/-- Endpoint 0 sends a message whose first acknowledgement comes in time, and another one
that stays without. -/
def twoRounds : List (Action Nat) :=
  [.sendEnvelope 0 greeting 1 5, .call 0, .sender 0, .sender 0, .sender 0, .receive 1 0,
    .listener 1, .tryReceiveEnvelope 1, .call 1, .call 1, .receive 0 0, .listener 0, .sender 0,
    .sendEnvelope 0 greeting 1 9, .call 2, .sender 0] ++
    List.replicate 15 (.sender 0)

/-- Its sender thread works in these two rounds. -/
theorem stop_and_wait_twoRounds :
    ∃ h s, (endpoints envelopeWire clearedMemory).Run Any h s ∧
      (senderMoves 0 h).length = 9 ∧
      InRounds 5 (senderMoves 0 h) (s.endpoints 0).sender.round := by
  have hexec : ((endpoints envelopeWire clearedMemory).exec twoRounds).map
      (fun r => (senderMoves 0 r.1).length) = some 9 := by
    decide +kernel
  rcases Option.map_eq_some_iff.mp hexec with ⟨⟨h, s⟩, hexec, hlength⟩
  have hrun := Run.of_exec hexec
  exact ⟨h, s, hrun, hlength, (stop_and_wait envelopeWire clearedMemory 0 h s hrun).1⟩

end UdpEndpointBase

end SimpleMessenger
