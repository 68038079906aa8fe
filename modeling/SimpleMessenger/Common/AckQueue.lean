import SimpleMessenger.Common.UdpRuns
import SimpleMessenger.Foundations.RotatingQueue

/-!
# The retry loop and its acknowledgements

Between two attempts the sender thread of {lit}`UdpEndpointBase.cpp` looks at one
pending acknowledgement.  One with another time stamp goes back to the end of the
queue with its counter decremented, until the counter runs out.  Here whole calls of
{lit}`checkAckQueue` are taken together, with no acknowledgement stored in between.

Main results:

- Theorem {lit}`checkAckQueue_spec`: a call is one check of a search by rotation.
- Theorem {lit}`checkAckQueue_of_step`: it is what the steps of the sender thread come
  to.
- Theorem {lit}`checkAckQueue_search`: after how many calls an acknowledgement is
  found, and what the calls do to the other ones.
-/

namespace SimpleMessenger

open CircularBuffer

namespace UdpEndpointBase

namespace RetryLoop

abbrev AckQueue := Ring ExpiringAck messageQueueSize

/-! ## Whole calls -/

/-- What a call of `checkAckQueue` answers and leaves, and what its push answered if it
came to one. -/
structure Check where
  found : Bool
  queue : AckQueue
  pushed : Option Bool := none

def checkAckQueue (ackQueue : AckQueue) (tStamp : Timestamp) : Check :=
  match ackQueue.pop with
  | (none, q) => { found := false, queue := q }
  | (some pendingAck, q) =>
      if pendingAck.tStamp = tStamp then { found := true, queue := q }
      else
        let pendingAck := { pendingAck with counter := pendingAck.counter - 1 }
        if 0 < pendingAck.counter then
          { found := false
            queue := (q.push pendingAck).2
            pushed := some (q.push pendingAck).1 }
        else { found := false, queue := q }

/-- The queue after the given number of calls. -/
def after (ackQueue : AckQueue) (tStamp : Timestamp) : Nat → AckQueue
  | 0 => ackQueue
  | n + 1 => (checkAckQueue (after ackQueue tStamp n) tStamp).queue

/-- The answer of the next call after the given number of calls. -/
def answer (ackQueue : AckQueue) (tStamp : Timestamp) (n : Nat) : Bool :=
  (checkAckQueue (after ackQueue tStamp n) tStamp).found

/-- The loop of `sendEnvFromOutQueue` with the given number of attempts left: how many
datagrams it sends, and the queue it leaves. -/
def attempts (tStamp : Timestamp) : Nat → AckQueue → Nat × AckQueue
  | 0, ackQueue => (0, ackQueue)
  | n + 1, ackQueue =>
      let check := checkAckQueue ackQueue tStamp
      if check.found then (1, check.queue)
      else
        let rest := attempts tStamp n check.queue
        (rest.1 + 1, rest.2)

/-- Sum of the counters. -/
def counterSum (ackQueue : AckQueue) : Nat :=
  (ackQueue.contents.map fun eAck => eAck.counter.toNat).sum

/-! ## A call as one check of a search -/

/-- The acknowledgement is the one waited for. -/
def isFor (tStamp : Timestamp) (eAck : ExpiringAck) : Bool :=
  decide (eAck.tStamp = tStamp)

/-- What is left of an acknowledgement that another message waits for. -/
def aged (eAck : ExpiringAck) : Option ExpiringAck :=
  if 0 < eAck.counter - 1 then some { eAck with counter := eAck.counter - 1 } else none

theorem toNat_pred {counter : UInt8} (hpos : 1 ≤ counter) :
    (counter - 1).toNat = counter.toNat - 1 :=
  UInt8.toNat_sub_of_le _ _ hpos

/-- Counters that have not run out count the checks that are left. -/
theorem ages_aged (tStamp : Timestamp) :
    RotatingQueue.Ages (isFor tStamp) aged (fun eAck => 1 ≤ eAck.counter)
      fun eAck => eAck.counter.toNat where
  hit_eq := by
    intro a a' hage
    unfold aged at hage
    split_ifs at hage
    cases hage
    rfl
  good := by
    intro a a' _ hage
    unfold aged at hage
    split_ifs at hage with hleft
    cases hage
    rw [UInt8.lt_iff_toNat_lt] at hleft
    exact UInt8.le_iff_toNat_le.mpr hleft
  life_eq := by
    intro a hgood
    have hpred := toNat_pred hgood
    rw [UInt8.le_iff_toNat_le, UInt8.toNat_one] at hgood
    unfold aged
    split_ifs with hleft
    · simp only [Option.map_some, Option.getD_some, hpred]
      omega
    · rw [UInt8.lt_iff_toNat_lt, hpred, UInt8.toNat_zero] at hleft
      simp only [Option.map_none, Option.getD_none]
      omega

/-- A call is one check, and the acknowledgement put back finds the place free that the
pop made. -/
theorem checkAckQueue_spec (ackQueue : AckQueue) (tStamp : Timestamp) :
    (checkAckQueue ackQueue tStamp).found =
        (RotatingQueue.check (isFor tStamp) aged ackQueue.contents).1 ∧
      (checkAckQueue ackQueue tStamp).queue.contents =
        (RotatingQueue.check (isFor tStamp) aged ackQueue.contents).2 ∧
      (checkAckQueue ackQueue tStamp).pushed ≠ some false := by
  rcases ackQueue.pop_eq with ⟨hitem, hrest⟩
  have hlen := ackQueue.length_contents_le
  unfold checkAckQueue
  rcases hpop : ackQueue.pop with ⟨item, q⟩
  rw [hpop] at hitem hrest
  dsimp only at hitem hrest
  cases hcontents : ackQueue.contents with
  | nil =>
      rw [hcontents] at hitem hrest
      subst hitem
      exact ⟨rfl, hrest, nofun⟩
  | cons pendingAck rest =>
      rw [hcontents] at hitem hrest hlen
      subst hitem
      have hroom : q.contents.length < messageQueueSize.toNat := by
        rw [hrest, List.tail_cons]
        rw [List.length_cons] at hlen
        omega
      rw [List.tail_cons] at hrest
      by_cases hstamp : pendingAck.tStamp = tStamp
      · rw [RotatingQueue.check_of_hit (by simpa [isFor] using hstamp)]
        simp [hstamp, hrest]
      · rw [RotatingQueue.check_of_miss (by simpa [isFor] using hstamp)]
        by_cases hleft : 0 < pendingAck.counter - 1
        · rcases q.push_eq { pendingAck with counter := pendingAck.counter - 1 } with
            ⟨hok, hpushed⟩
          rw [decide_eq_true hroom] at hok
          rw [if_pos hroom, hrest] at hpushed
          simp [hstamp, hleft, aged, hok, hpushed]
        · simp [hstamp, hleft, aged, hrest]

theorem contents_after (ackQueue : AckQueue) (tStamp : Timestamp) (n : Nat) :
    (after ackQueue tStamp n).contents =
      RotatingQueue.after (isFor tStamp) aged ackQueue.contents n := by
  induction n with
  | zero => rfl
  | succ n ih =>
      rw [after, (checkAckQueue_spec _ _).2.1, ih]
      rfl

theorem answer_eq (ackQueue : AckQueue) (tStamp : Timestamp) (n : Nat) :
    answer ackQueue tStamp n =
      RotatingQueue.answer (isFor tStamp) aged ackQueue.contents n := by
  rw [answer, (checkAckQueue_spec _ _).1, contents_after]
  rfl

/-- The steps of the sender thread, up to the push of the acknowledgement put back and
with it, leave the queue that a whole call leaves. -/
theorem checkAckQueue_of_step {κ : Type*} (p : κ) (ep : Endpoint κ)
    (aEnv : AddressedEnvelope κ) (attempt : Fin 5) :
    let r := (UdpEndpointBase.checkAckQueue p ep aEnv attempt).1
    (checkAckQueue ep.ackQueue (getTimeStamp aEnv.env)).queue =
      match r.sender with
      | .requeuing _ _ pendingAck => (r.ackQueue.push pendingAck).2
      | _ => r.ackQueue := by
  unfold checkAckQueue UdpEndpointBase.checkAckQueue nextAttempt
  rcases ep.ackQueue.pop with ⟨_ | pendingAck, q⟩
  · dsimp only
    split_ifs <;> rfl
  · dsimp only
    split_ifs <;> rfl

/-! ## How the loop ends -/

theorem after_succ (ackQueue : AckQueue) (tStamp : Timestamp) (n : Nat) :
    after ackQueue tStamp (n + 1) =
      after (checkAckQueue ackQueue tStamp).queue tStamp n := by
  induction n with
  | zero => rfl
  | succ n ih => rw [after, ih, after]

/-- The loop stops with the first call that finds something. -/
theorem attempts_of_answer {tStamp : Timestamp} {i : Nat} :
    ∀ {n : Nat} {ackQueue : AckQueue}, i < n →
      (∀ j < i, answer ackQueue tStamp j = false) → answer ackQueue tStamp i = true →
        attempts tStamp n ackQueue = (i + 1, after ackQueue tStamp (i + 1)) := by
  induction i with
  | zero =>
      intro n ackQueue hn _ hfound
      obtain ⟨m, rfl⟩ := Nat.exists_eq_add_of_lt hn
      have hfirst : (checkAckQueue ackQueue tStamp).found = true := hfound
      rw [Nat.zero_add, attempts]
      dsimp only
      rw [if_pos hfirst]
      rfl
  | succ i ih =>
      intro n ackQueue hn hbefore hfound
      obtain ⟨m, rfl⟩ : ∃ m, n = m + 1 := ⟨n - 1, by omega⟩
      have hfirst : (checkAckQueue ackQueue tStamp).found = false := hbefore 0 (by omega)
      have hbefore' : ∀ j < i,
          answer (checkAckQueue ackQueue tStamp).queue tStamp j = false := by
        intro j hj
        have hnext := hbefore (j + 1) (by omega)
        rwa [answer, after_succ] at hnext
      have hfound' : answer (checkAckQueue ackQueue tStamp).queue tStamp i = true := by
        rwa [answer, after_succ] at hfound
      have hrest : attempts tStamp m _ = _ := ih (by omega) hbefore' hfound'
      rw [attempts]
      dsimp only
      rw [if_neg (by simp [hfirst]), hrest, after_succ ackQueue]

/-! ## What calls do to the queue -/

/-- One call on a queue: no counter is decremented below zero, the push succeeds, and
the only acknowledgement that is not kept is the one found, or the first one when its
counter runs out. -/
structure Sound (ackQueue : AckQueue) (tStamp : Timestamp) : Prop where
  counter_pos : ∀ eAck ∈ ackQueue.contents, 1 ≤ eAck.counter
  push_succeeds : (checkAckQueue ackQueue tStamp).pushed ≠ some false
  kept : ∀ eAck rest, ackQueue.contents = eAck :: rest →
    (checkAckQueue ackQueue tStamp).queue.contents =
      if eAck.tStamp = tStamp ∨ eAck.counter = 1 then rest
      else rest ++ [{ eAck with counter := eAck.counter - 1 }]

theorem sound_of_counters {ackQueue : AckQueue}
    (hcounters : ∀ eAck ∈ ackQueue.contents, 1 ≤ eAck.counter) (tStamp : Timestamp) :
    Sound ackQueue tStamp := by
  rcases checkAckQueue_spec ackQueue tStamp with ⟨_, hqueue, hpushed⟩
  refine ⟨hcounters, hpushed, fun eAck rest hcontents => ?_⟩
  have hcounter := hcounters eAck (by rw [hcontents]; exact List.mem_cons_self)
  have hpred := toNat_pred hcounter
  rw [hqueue, hcontents]
  by_cases hstamp : eAck.tStamp = tStamp
  · rw [RotatingQueue.check_of_hit (by simpa [isFor] using hstamp), if_pos (.inl hstamp)]
  · rw [RotatingQueue.check_of_miss (by simpa [isFor] using hstamp)]
    have hone : eAck.counter = 1 ↔ ¬ 0 < eAck.counter - 1 := by
      rw [UInt8.le_iff_toNat_le, UInt8.toNat_one] at hcounter
      rw [UInt8.lt_iff_toNat_lt, hpred, ← UInt8.toNat_inj, UInt8.toNat_zero, UInt8.toNat_one]
      omega
    by_cases hleft : 0 < eAck.counter - 1
    · simp [hstamp, hone, hleft, aged]
    · simp [hone, hleft, aged]

/-- The acknowledgements in front go by before the first one with the time stamp is found
and taken out. -/
theorem attempts_until_hit {ackQueue : AckQueue} {tStamp : Timestamp} {front rest : List ExpiringAck}
    {eAck : ExpiringAck} (hcontents : ackQueue.contents = front ++ eAck :: rest)
    (hmiss : ∀ x ∈ front, x.tStamp ≠ tStamp) (hstamp : eAck.tStamp = tStamp) :
    (∀ j < front.length, answer ackQueue tStamp j = false) ∧
      answer ackQueue tStamp front.length = true ∧
      (after ackQueue tStamp front.length).contents =
        eAck :: (after ackQueue tStamp (front.length + 1)).contents ∧
      attempts tStamp 5 ackQueue =
        (front.length + 1, after ackQueue tStamp (front.length + 1)) ∧
      front.length + 1 ≤ 4 := by
  have hmiss' : ∀ x ∈ front, isFor tStamp x = false := fun x hx => by
    simpa [isFor] using hmiss x hx
  have hhit : isFor tStamp eAck = true := by
    simpa [isFor] using hstamp
  have hbefore : ∀ j < front.length, answer ackQueue tStamp j = false := by
    intro j hj
    rw [answer_eq, hcontents]
    exact RotatingQueue.answer_before hmiss' _ hj
  have hat : RotatingQueue.answer _ aged _ front.length = true ∧ _ :=
    RotatingQueue.check_at hmiss' hhit rest
  rw [← hcontents, ← answer_eq, ← contents_after, ← contents_after] at hat
  have hlen : front.length + 1 ≤ 4 := by
    have hle := ackQueue.length_contents_le
    rw [hcontents, List.length_append, List.length_cons] at hle
    change _ ≤ 4 at hle
    omega
  exact ⟨hbefore, hat.1, hat.2, attempts_of_answer (by omega) hbefore hat.1, hlen⟩

/-- Without the time stamp every call counts down, and the queue is empty in the end. -/
theorem counts_down {ackQueue : AckQueue} {tStamp : Timestamp}
    (hcounters : ∀ eAck ∈ ackQueue.contents, 1 ≤ eAck.counter)
    (hmiss : ∀ eAck ∈ ackQueue.contents, eAck.tStamp ≠ tStamp) (n : Nat) :
    answer ackQueue tStamp n = false ∧
      counterSum (after ackQueue tStamp n) = counterSum ackQueue - n ∧
      ((after ackQueue tStamp n).contents = [] ↔ counterSum ackQueue ≤ n) := by
  have hages := ages_aged tStamp
  have hmiss' : ∀ x ∈ ackQueue.contents, isFor tStamp x = false := fun x hx => by
    simpa [isFor] using hmiss x hx
  have hsum : counterSum (after ackQueue tStamp n) = counterSum ackQueue - n := by
    unfold counterSum
    rw [contents_after]
    exact hages.weight_after hcounters hmiss' n
  refine ⟨by rw [answer_eq]; exact hages.answer_of_miss hmiss' n, hsum, ?_⟩
  have hgood : ∀ eAck ∈ (after ackQueue tStamp n).contents, 1 ≤ eAck.counter := by
    rw [contents_after]
    exact hages.good_after hcounters n
  rw [← hages.weight_eq_zero_iff hgood]
  change counterSum (after ackQueue tStamp n) = 0 ↔ _
  omega

/-- The calls find the first acknowledgement with the time stamp after as many others
as stand before it, which leaves the loop an attempt to spare; without one they count
all counters down to the empty queue; and every one of them is sound. -/
theorem checkAckQueue_search {ackQueue : AckQueue}
    (hcounters : ∀ eAck ∈ ackQueue.contents, 1 ≤ eAck.counter) (tStamp : Timestamp) :
    (∀ front eAck rest, ackQueue.contents = front ++ eAck :: rest →
        (∀ x ∈ front, x.tStamp ≠ tStamp) → eAck.tStamp = tStamp →
      (∀ j < front.length, answer ackQueue tStamp j = false) ∧
        answer ackQueue tStamp front.length = true ∧
        (after ackQueue tStamp front.length).contents =
          eAck :: (after ackQueue tStamp (front.length + 1)).contents ∧
        attempts tStamp 5 ackQueue =
          (front.length + 1, after ackQueue tStamp (front.length + 1)) ∧
        front.length + 1 ≤ 4) ∧
    ((∀ eAck ∈ ackQueue.contents, eAck.tStamp ≠ tStamp) → ∀ n,
      answer ackQueue tStamp n = false ∧
        counterSum (after ackQueue tStamp n) = counterSum ackQueue - n ∧
        ((after ackQueue tStamp n).contents = [] ↔ counterSum ackQueue ≤ n)) ∧
    ∀ n, Sound (after ackQueue tStamp n) tStamp := by
  refine ⟨?_, ?_, ?_⟩
  · intro front eAck rest hcontents hmiss hstamp
    exact attempts_until_hit hcontents hmiss hstamp
  · intro hmiss n
    exact counts_down hcounters hmiss n
  · intro n
    refine sound_of_counters ?_ tStamp
    rw [contents_after]
    exact (ages_aged tStamp).good_after hcounters n

/-- Three acknowledgements in a queue that has wrapped around. -/
def exampleQueue : AckQueue :=
  let empty : AckQueue := .construct messageQueueSize_pos ⟨Vector.replicate _ ⟨0, 0⟩, 0, 0, 0⟩
  let moved := (((empty.push ⟨3, 5⟩).2.push ⟨3, 6⟩).2.push ⟨1, 7⟩).2.pop.2.pop.2
  ((moved.push ⟨3, 8⟩).2.push ⟨2, 9⟩).2

/-- The third one is found with the third call, although the first one expires. -/
theorem checkAckQueue_search_third :
    attempts 9 5 exampleQueue = (3, after exampleQueue 9 3) ∧
      (after exampleQueue 9 3).contents = [⟨2, 8⟩] := by
  have hcontents : exampleQueue.contents = [⟨1, 7⟩, ⟨3, 8⟩] ++ ⟨2, 9⟩ :: [] := by
    decide +kernel
  have hcounters : ∀ eAck ∈ exampleQueue.contents, 1 ≤ eAck.counter := by
    rw [hcontents]
    decide
  have hfound := (checkAckQueue_search hcounters 9).1 _ _ _ hcontents (by decide) rfl
  exact ⟨hfound.2.2.2.1, by decide +kernel⟩

end RetryLoop

end UdpEndpointBase

end SimpleMessenger
