import SimpleMessenger.Common.UdpDelivery
import SimpleMessenger.Server.OnlineClients

/-!
# Forwarding by `ServerManager::checkMail`

The server is one of the endpoints of the network.  A call of `checkMail` takes an
envelope, which acknowledges it, looks up the recipient and sends the envelope on; any
number of calls go on at the same time, next to the sender thread, the listener thread
and all other endpoints.  Each of their steps is a step of the network, so that what
is known of its runs holds here.  The lookup is a step of its own, and the storage that
it scans may grow at any time.

Main results:

- Theorem {lit}`exists_run_of_checkMail`: the network underneath takes one of its runs.
- Theorem {lit}`held_run`: what a call of `checkMail` has in hand is what it showed.
- Theorem {lit}`relayed_iff_room`: the runs in which every acknowledged envelope with a
  known recipient is put into the queue for it are those in which the queue has room at
  each such push.

Current gaps:

- The two log lines that print the text array are left out.
-/

universe u

namespace SimpleMessenger

open CMemory StepSystem UdpEndpointBase ProtobufItf

namespace ServerManager

/-! ## Calls of `checkMail` -/

/-- Where a call of `checkMail` stands. -/
inductive Mail (κ : Type u) where
  /-- In `tryReceiveEnvelope`, which is call `c` of the network. -/
  | receiving (c : Nat)
  /-- Before `findOnlineClient`. -/
  | received (result : AddressedEnvelope κ)
  /-- Before `sendEnvelope`. -/
  | found (result : AddressedEnvelope κ) (recInfo : ClientInfo κ)
  /-- In `sendEnvelope`, which is call `c` of the network. -/
  | sending (result : AddressedEnvelope κ) (recInfo : ClientInfo κ) (c : Nat)
  | returned

/-- The network, the storage that lookups scan, and the calls of `checkMail`. -/
structure State (κ : Type u) where
  net : UdpEndpointBase.State κ
  connectedClients : List (ClientInfo κ) := []
  mails : List (Mail κ) := []

inductive Action (κ : Type u) where
  /-- A step of the network in which the server makes no call. -/
  | net (a : UdpEndpointBase.Action κ)
  /-- A login is appended to the storage. -/
  | login (info : ClientInfo κ)
  /-- A call of `checkMail` starts. -/
  | checkMail
  /-- The next step of call `k`, which reads the clock if it comes to send. -/
  | advance (k : Nat) (now : Nat)

inductive Event (κ : Type u) where
  | net (e : UdpEndpointBase.Event κ)
  | login (info : ClientInfo κ)
  | started (k : Nat)
  | nothing (k : Nat)
  /-- `tryReceiveEnvelope` has sent the acknowledgement and returns `result`. -/
  | acked (k : Nat) (result : AddressedEnvelope κ) (datagram : Datagram κ)
  | found (k : Nat) (recInfo : ClientInfo κ)
  | offline (k : Nat)
  /-- The push of `sendEnvelope`, with the contents of `outQueue` around it. -/
  | queued (k : Nat) (before after : List (AddressedEnvelope κ))

variable {κ : Type u}

/-- Call `k` goes on to `mail`. -/
def State.goOn (s : State κ) (k : Nat) (mail : Mail κ) (net : UdpEndpointBase.State κ) :
    State κ :=
  { s with net := net, mails := s.mails.set k mail }

section Steps

variable [DecidableEq κ] (wire : Wire) (server : κ)

/-- The action is not one of a call at the server. -/
def elsewhere (net : UdpEndpointBase.State κ) : UdpEndpointBase.Action κ → Bool
  | .sendEnvelope p _ _ _ => p ≠ server
  | .tryReceiveEnvelope p => p ≠ server
  | .call c => (net.calls[c]?).all fun call => call.endpoint ≠ server
  | _ => true

/-- A step of `tryReceiveEnvelope`; without an envelope it has returned at once. -/
def receiveStep (s : State κ) (k c : Nat) : Option (State κ × Event κ) :=
  match s.net.calls[c]? with
  | none => none
  | some ⟨_, .returned⟩ => some (s.goOn k .returned s.net, .nothing k)
  | some ⟨p, point⟩ =>
      match UdpEndpointBase.advance wire s.net c p point with
      | none => none
      | some (net, .returned _ _ result _ datagram) =>
          some (s.goOn k (.received result) net, .acked k result datagram)
      | some (net, e) => some ({ s with net := net }, .net e)

/-- The push of `sendEnvelope`. -/
def pushStep (s : State κ) (k c : Nat) : Option (State κ × Event κ) :=
  match s.net.calls[c]? with
  | none => none
  | some ⟨p, point⟩ =>
      match UdpEndpointBase.advance wire s.net c p point with
      | none => none
      | some (net, _) =>
          some (s.goOn k .returned net,
            .queued k (s.net.endpoints server).outQueue.contents
              (net.endpoints server).outQueue.contents)

/-- The next step of a call of `checkMail`. -/
def advance (s : State κ) (k now : Nat) : Mail κ → Option (State κ × Event κ)
  | .receiving c => receiveStep wire s k c
  | .received result =>
      match findOnlineClient (getRecepientID result.env) s.connectedClients with
      | none => some (s.goOn k .returned s.net, .offline k)
      | some recInfo => some (s.goOn k (.found result recInfo) s.net, .found k recInfo)
  | .found result recInfo =>
      match UdpEndpointBase.sendEnvelope s.net server result.env recInfo.socketInfo now with
      | none => none
      | some (net, e) =>
          some (s.goOn k (.sending result recInfo s.net.calls.length) net, .net e)
  | .sending _ _ c => pushStep wire server s k c
  | .returned => none

def step (s : State κ) : Action κ → Option (State κ × Event κ)
  | .net a =>
      if elsewhere server s.net a then
        (UdpEndpointBase.step wire s.net a).map fun r => ({ s with net := r.1 }, .net r.2)
      else none
  | .login info =>
      some ({ s with connectedClients := s.connectedClients ++ [info] }, .login info)
  | .checkMail =>
      some ({ s with
                net := (UdpEndpointBase.tryReceiveEnvelope s.net server).1
                mails := s.mails ++ [.receiving s.net.calls.length] },
        .started s.mails.length)
  | .advance k now => s.mails[k]?.bind (advance wire server s k now)

/-- The network, in any state to start with. -/
def network (net : UdpEndpointBase.State κ) :
    StepSystem (UdpEndpointBase.State κ) (UdpEndpointBase.Action κ)
      (UdpEndpointBase.Event κ) where
  init := net
  step := UdpEndpointBase.step wire

/-- The server, before the first call of `checkMail`, with queues in any state. -/
def checkMails (net : UdpEndpointBase.State κ) :
    StepSystem (State κ) (Action κ) (Event κ) where
  init := { net := net }
  step := step wire server

end Steps

/-! ## The kinds of steps -/

section Kinds

variable [DecidableEq κ] {wire : Wire} {server : κ} {s s' : State κ}

/-- Everything one step can do. -/
inductive Steps (wire : Wire) (server : κ) (s : State κ) :
    Action κ → State κ → Event κ → Prop where
  | outer {a : UdpEndpointBase.Action κ} {net : UdpEndpointBase.State κ}
      {e : UdpEndpointBase.Event κ} (helsewhere : elsewhere server s.net a = true)
      (hstep : UdpEndpointBase.step wire s.net a = some (net, e)) :
      Steps wire server s (.net a) { s with net := net } (.net e)
  | login (info : ClientInfo κ) :
      Steps wire server s (.login info)
        { s with connectedClients := s.connectedClients ++ [info] } (.login info)
  | started {net : UdpEndpointBase.State κ} {e : UdpEndpointBase.Event κ}
      (hstep : UdpEndpointBase.step wire s.net (.tryReceiveEnvelope server) = some (net, e)) :
      Steps wire server s .checkMail
        { s with net := net, mails := s.mails ++ [.receiving s.net.calls.length] }
        (.started s.mails.length)
  | nothing {k now c : Nat} (hk : s.mails[k]? = some (.receiving c)) :
      Steps wire server s (.advance k now) (s.goOn k .returned s.net) (.nothing k)
  | acked {k now c : Nat} {net : UdpEndpointBase.State κ} {e : UdpEndpointBase.Event κ}
      {result : AddressedEnvelope κ} {datagram : Datagram κ}
      (hk : s.mails[k]? = some (.receiving c))
      (hstep : UdpEndpointBase.step wire s.net (.call c) = some (net, e)) :
      Steps wire server s (.advance k now) (s.goOn k (.received result) net)
        (.acked k result datagram)
  | acking {k now c : Nat} {net : UdpEndpointBase.State κ} {e : UdpEndpointBase.Event κ}
      (hk : s.mails[k]? = some (.receiving c))
      (hstep : UdpEndpointBase.step wire s.net (.call c) = some (net, e)) :
      Steps wire server s (.advance k now) { s with net := net } (.net e)
  | offline {k now : Nat} {result : AddressedEnvelope κ}
      (hk : s.mails[k]? = some (.received result)) :
      Steps wire server s (.advance k now) (s.goOn k .returned s.net) (.offline k)
  | found {k now : Nat} {result : AddressedEnvelope κ} {recInfo : ClientInfo κ}
      (hk : s.mails[k]? = some (.received result))
      (hfind : findOnlineClient (getRecepientID result.env) s.connectedClients =
        some recInfo) :
      Steps wire server s (.advance k now) (s.goOn k (.found result recInfo) s.net)
        (.found k recInfo)
  | stamped {k now : Nat} {result addrEnv : AddressedEnvelope κ} {recInfo : ClientInfo κ}
      {net : UdpEndpointBase.State κ} {e : UdpEndpointBase.Event κ}
      (hk : s.mails[k]? = some (.found result recInfo))
      (hstep : UdpEndpointBase.step wire s.net
        (.sendEnvelope server result.env recInfo.socketInfo now) = some (net, e))
      (hcalls : net.calls = s.net.calls ++ [⟨server, .queueing addrEnv⟩])
      (hinfo : addrEnv.sockInfo = recInfo.socketInfo)
      (henv : addrEnv.env = setTimeStamp result.env (createTimeStamp now)) :
      Steps wire server s (.advance k now)
        (s.goOn k (.sending result recInfo s.net.calls.length) net) (.net e)
  | queued {k now c : Nat} {result : AddressedEnvelope κ} {recInfo : ClientInfo κ}
      {net : UdpEndpointBase.State κ} {e : UdpEndpointBase.Event κ}
      (hk : s.mails[k]? = some (.sending result recInfo c))
      (hstep : UdpEndpointBase.step wire s.net (.call c) = some (net, e)) :
      Steps wire server s (.advance k now) (s.goOn k .returned net)
        (.queued k (s.net.endpoints server).outQueue.contents
          (net.endpoints server).outQueue.contents)

theorem steps_of_receiveStep {k now c : Nat} {e : Event κ}
    (hk : s.mails[k]? = some (.receiving c))
    (hstep : receiveStep wire s k c = some (s', e)) : Steps wire server s (.advance k now) s' e := by
  unfold receiveStep at hstep
  split at hstep
  · contradiction
  · cases hstep
    exact .nothing hk
  · rename_i p point hne hcall
    have hnet : UdpEndpointBase.step wire s.net (.call c) =
        UdpEndpointBase.advance wire s.net c p point := by
      rw [UdpEndpointBase.step, hcall, Option.bind_some]
    split at hstep <;> rename_i hadvance
    · contradiction
    · cases hstep
      exact .acked hk (hnet.trans hadvance)
    · cases hstep
      exact .acking hk (hnet.trans hadvance)

theorem steps_of_pushStep {k now c : Nat} {result : AddressedEnvelope κ}
    {recInfo : ClientInfo κ} {e : Event κ}
    (hk : s.mails[k]? = some (.sending result recInfo c))
    (hstep : pushStep wire server s k c = some (s', e)) :
    Steps wire server s (.advance k now) s' e := by
  unfold pushStep at hstep
  split at hstep
  · contradiction
  · rename_i p point hcall
    have hnet : UdpEndpointBase.step wire s.net (.call c) =
        UdpEndpointBase.advance wire s.net c p point := by
      rw [UdpEndpointBase.step, hcall, Option.bind_some]
    split at hstep <;> rename_i hadvance
    · contradiction
    · cases hstep
      exact .queued hk (hnet.trans hadvance)

/-- Every computed step is of one of the kinds. -/
theorem steps_of_step {a : Action κ} {e : Event κ}
    (hstep : step wire server s a = some (s', e)) : Steps wire server s a s' e := by
  cases a with
  | net a =>
      simp only [step] at hstep
      split at hstep <;> rename_i helsewhere
      · rcases Option.map_eq_some_iff.mp hstep with ⟨⟨net, e⟩, hnet, hpair⟩
        cases hpair
        exact .outer helsewhere hnet
      · contradiction
  | login info =>
      cases hstep
      exact .login info
  | checkMail =>
      cases hstep
      exact .started (e := (UdpEndpointBase.tryReceiveEnvelope s.net server).2) rfl
  | advance k now =>
      rcases Option.bind_eq_some_iff.mp hstep with ⟨mail, hk, hadvance⟩
      cases mail with
      | receiving c => exact steps_of_receiveStep hk hadvance
      | received result =>
          simp only [advance] at hadvance
          split at hadvance <;> rename_i hfind
          · cases hadvance
            exact .offline hk
          · cases hadvance
            exact .found hk hfind
      | found result recInfo =>
          simp only [advance] at hadvance
          split at hadvance <;> rename_i hsend
          · contradiction
          · cases hadvance
            have hnet : UdpEndpointBase.step wire s.net
                (.sendEnvelope server result.env recInfo.socketInfo now) = some _ := hsend
            simp only [UdpEndpointBase.sendEnvelope] at hsend
            split_ifs at hsend with hclock
            cases hsend
            exact .stamped hk hnet rfl rfl rfl
      | sending result recInfo c => exact steps_of_pushStep hk hadvance
      | returned => contradiction

/-! ## The network underneath -/

/-- A step of the network changes no call but the one that takes it. -/
theorem getElem?_calls_of_step {net net' : UdpEndpointBase.State κ}
    {a : UdpEndpointBase.Action κ} {e : UdpEndpointBase.Event κ}
    (hstep : UdpEndpointBase.step wire net a = some (net', e)) {c : Nat} {call : Call κ}
    (hc : net.calls[c]? = some call) (hne : a ≠ .call c) : net'.calls[c]? = some call := by
  cases UdpEndpointBase.steps_of_step hstep with
  | stamped haddr hclock => exact getElem?_append_of_some hc
  | receivedNothing hq => exact getElem?_append_of_some hc
  | popped hq => exact getElem?_append_of_some hc
  | queued hc' hq =>
      rw [List.getElem?_set_ne fun heq => hne (by rw [heq])]
      exact hc
  | ackFilled hc' hput =>
      rw [List.getElem?_set_ne fun heq => hne (by rw [heq])]
      exact hc
  | returned hc' hdatagram =>
      rw [List.getElem?_set_ne fun heq => hne (by rw [heq])]
      exact hc
  | _ => exact hc

theorem length_calls_of_step {net net' : UdpEndpointBase.State κ}
    {a : UdpEndpointBase.Action κ} {e : UdpEndpointBase.Event κ}
    (hstep : UdpEndpointBase.step wire net a = some (net', e)) :
    net.calls.length ≤ net'.calls.length :=
  (UdpEndpointBase.steps_of_step hstep).length_calls

/-- Every step is one of the network underneath, or leaves it alone. -/
theorem Steps.net_cases {a : Action κ} {e : Event κ} (hsteps : Steps wire server s a s' e) :
    s'.net = s.net ∨
      ∃ b d, UdpEndpointBase.step wire s.net b = some (s'.net, d) := by
  cases hsteps with
  | outer _ hstep => exact .inr ⟨_, _, hstep⟩
  | started hstep => exact .inr ⟨_, _, hstep⟩
  | acked _ hstep => exact .inr ⟨_, _, hstep⟩
  | acking _ hstep => exact .inr ⟨_, _, hstep⟩
  | stamped _ hstep => exact .inr ⟨_, _, hstep⟩
  | queued _ hstep => exact .inr ⟨_, _, hstep⟩
  | _ => exact .inl rfl

/-- The network underneath takes one of its runs. -/
theorem exists_run_of_checkMail {net₀ : UdpEndpointBase.State κ}
    {G : Guard (State κ) (Action κ) (Event κ)} {h : List (Event κ)}
    (hrun : (checkMails wire server net₀).Run G h s) :
    ∃ h', (network wire net₀).Run Any h' s.net := by
  refine hrun.view (N := network wire net₀) State.net rfl ?_
  intro s a s' e hstep
  exact (steps_of_step hstep).net_cases

/-! ## The calls that are under way -/

/-- The call of the network that a call of `checkMail` is in. -/
def Mail.call? : Mail κ → Option Nat
  | .receiving c => some c
  | .sending _ _ c => some c
  | _ => none

/-- No two calls of `checkMail` are in the same call of the network, and one that is in
`sendEnvelope` is about to push what it has stamped, addressed to the recipient. -/
structure Owned (server : κ) (s : State κ) : Prop where
  lt : ∀ (k : Nat) (mail : Mail κ) (c : Nat), s.mails[k]? = some mail →
    mail.call? = some c → c < s.net.calls.length
  distinct : ∀ (k k' : Nat) (mail mail' : Mail κ) (c : Nat), s.mails[k]? = some mail →
    s.mails[k']? = some mail' → mail.call? = some c → mail'.call? = some c → k = k'
  queueing : ∀ (k : Nat) (result : AddressedEnvelope κ) (recInfo : ClientInfo κ) (c : Nat),
    s.mails[k]? = some (.sending result recInfo c) →
      ∃ addrEnv, s.net.calls[c]? = some ⟨server, .queueing addrEnv⟩ ∧
        addrEnv.sockInfo = recInfo.socketInfo ∧
        ∃ tStamp, addrEnv.env = setTimeStamp result.env tStamp

omit [DecidableEq κ] in
/-- A step of the network that leaves the calls about to push as they are. -/
theorem Owned.ofNet {net : UdpEndpointBase.State κ} (hold : Owned server s)
    (hlen : s.net.calls.length ≤ net.calls.length)
    (hkeep : ∀ (k : Nat) (result : AddressedEnvelope κ) (recInfo : ClientInfo κ) (c : Nat)
      (call : Call κ), s.mails[k]? = some (.sending result recInfo c) →
        s.net.calls[c]? = some call → net.calls[c]? = some call) :
    Owned server { s with net := net } := by
  refine ⟨?_, hold.distinct, ?_⟩
  · intro k mail c hk hc
    exact Nat.lt_of_lt_of_le (hold.lt k mail c hk hc) hlen
  · intro k result recInfo c hk
    rcases hold.queueing k result recInfo c hk with ⟨addrEnv, hcall, hrest⟩
    exact ⟨addrEnv, hkeep k result recInfo c _ hk hcall, hrest⟩

omit [DecidableEq κ] in
/-- A call of `checkMail` goes on: its new call of the network, if it has one, is the old
one or a fresh one. -/
theorem Owned.goOn {k : Nat} {mail mail' : Mail κ} {net : UdpEndpointBase.State κ}
    (hold : Owned server s) (hk : s.mails[k]? = some mail)
    (hlen : s.net.calls.length ≤ net.calls.length)
    (hkeep : ∀ (c : Nat) (call : Call κ), s.net.calls[c]? = some call →
      mail.call? ≠ some c → net.calls[c]? = some call)
    (hfresh : ∀ c, mail'.call? = some c → s.net.calls.length ≤ c ∧ c < net.calls.length)
    (hqueueing : ∀ (result : AddressedEnvelope κ) (recInfo : ClientInfo κ) (c : Nat),
      mail' = .sending result recInfo c →
        ∃ addrEnv, net.calls[c]? = some ⟨server, .queueing addrEnv⟩ ∧
          addrEnv.sockInfo = recInfo.socketInfo ∧
          ∃ tStamp, addrEnv.env = setTimeStamp result.env tStamp) :
    Owned server (s.goOn k mail' net) := by
  refine ⟨?_, ?_, ?_⟩
  · intro j m c hj hc
    rcases getElem?_set_cases hj with ⟨_, rfl⟩ | ⟨_, hj⟩
    · exact (hfresh c hc).2
    · exact Nat.lt_of_lt_of_le (hold.lt j m c hj hc) hlen
  · intro i j m m' c hi hj hc hc'
    rcases getElem?_set_cases hi with ⟨hik, hm⟩ | ⟨_, hi'⟩
    · rcases getElem?_set_cases hj with ⟨hjk, _⟩ | ⟨_, hj'⟩
      · rw [hik, hjk]
      · have hlt := hold.lt j m' c hj' hc'
        have hle := (hfresh c (hm ▸ hc)).1
        omega
    · rcases getElem?_set_cases hj with ⟨_, hm'⟩ | ⟨_, hj'⟩
      · have hlt := hold.lt i m c hi' hc
        have hle := (hfresh c (hm' ▸ hc')).1
        omega
      · exact hold.distinct i j m m' c hi' hj' hc hc'
  · intro j result recInfo c hj
    rcases getElem?_set_cases hj with ⟨_, heq⟩ | ⟨hne, hj⟩
    · exact hqueueing result recInfo c heq.symm
    · rcases hold.queueing j result recInfo c hj with ⟨addrEnv, hcall, hrest⟩
      refine ⟨addrEnv, hkeep c _ hcall ?_, hrest⟩
      intro hmine
      exact hne (hold.distinct j k _ mail c hj hk rfl hmine)

omit [DecidableEq κ] in
/-- A call of `checkMail` goes on outside of any call of the network. -/
theorem Owned.leave {k : Nat} {mail mail' : Mail κ} {net : UdpEndpointBase.State κ}
    (hold : Owned server s) (hk : s.mails[k]? = some mail)
    (hlen : s.net.calls.length ≤ net.calls.length)
    (hkeep : ∀ (c : Nat) (call : Call κ), s.net.calls[c]? = some call →
      mail.call? ≠ some c → net.calls[c]? = some call)
    (hnone : mail'.call? = none) : Owned server (s.goOn k mail' net) := by
  refine hold.goOn hk hlen hkeep ?_ ?_
  · intro c hc
    rw [hnone] at hc
    contradiction
  · rintro result recInfo c rfl
    contradiction

/-- A call of `checkMail` takes the last step of its call of the network. -/
theorem Owned.leaveCall {k c : Nat} {mail mail' : Mail κ} {net : UdpEndpointBase.State κ}
    {e : UdpEndpointBase.Event κ} (hold : Owned server s) (hk : s.mails[k]? = some mail)
    (hc : mail.call? = some c)
    (hstep : UdpEndpointBase.step wire s.net (.call c) = some (net, e))
    (hnone : mail'.call? = none) : Owned server (s.goOn k mail' net) := by
  refine hold.leave hk (length_calls_of_step hstep) ?_ hnone
  intro c' call hc' hne
  refine getElem?_calls_of_step hstep hc' ?_
  rintro ⟨⟩
  exact hne hc

omit [DecidableEq κ] in
/-- A call of `checkMail` starts with a fresh call of the network. -/
theorem Owned.start {net : UdpEndpointBase.State κ} (hold : Owned server s)
    (hlen : s.net.calls.length < net.calls.length)
    (hkeep : ∀ (c : Nat) (call : Call κ), s.net.calls[c]? = some call →
      net.calls[c]? = some call) :
    Owned server
      { s with net := net, mails := s.mails ++ [.receiving s.net.calls.length] } := by
  refine ⟨?_, ?_, ?_⟩
  · intro j m c hj hc
    rcases getElem?_append_cases hj with ⟨_, rfl⟩ | hj'
    · cases hc
      exact hlen
    · exact (hold.lt j m c hj' hc).trans hlen
  · intro i j m m' c hi hj hc hc'
    rcases getElem?_append_cases hi with ⟨hilast, hm⟩ | hi'
    · rcases getElem?_append_cases hj with ⟨hjlast, _⟩ | hj'
      · rw [hilast, hjlast]
      · subst hm
        cases hc
        exact absurd (hold.lt j m' _ hj' hc') (Nat.lt_irrefl _)
    · rcases getElem?_append_cases hj with ⟨_, hm'⟩ | hj'
      · subst hm'
        cases hc'
        exact absurd (hold.lt i m _ hi' hc) (Nat.lt_irrefl _)
      · exact hold.distinct i j m m' c hi' hj' hc hc'
  · intro j result recInfo c hj
    rcases getElem?_append_cases hj with ⟨_, heq⟩ | hj'
    · cases heq
    · rcases hold.queueing j result recInfo c hj' with ⟨addrEnv, hcall, hrest⟩
      exact ⟨addrEnv, hkeep c _ hcall, hrest⟩

theorem Owned.step {a : Action κ} {e : Event κ} (hold : Owned server s)
    (hsteps : Steps wire server s a s' e) : Owned server s' := by
  cases hsteps with
  | @outer a net e helsewhere hstep =>
      refine hold.ofNet (length_calls_of_step hstep) ?_
      intro k result recInfo c call hk hc
      refine getElem?_calls_of_step hstep hc ?_
      rintro rfl
      rcases hold.queueing k result recInfo c hk with ⟨addrEnv, hcall, _⟩
      simp [elsewhere, hcall] at helsewhere
  | login info => exact ⟨hold.lt, hold.distinct, hold.queueing⟩
  | @started net e hstep =>
      refine hold.start ?_ fun c call hc => getElem?_calls_of_step hstep hc (by simp)
      cases UdpEndpointBase.steps_of_step hstep with
      | receivedNothing hq => simp
      | popped hq => simp
  | nothing hk => exact hold.leave hk (Nat.le_refl _) (fun _ _ hc _ => hc) rfl
  | acked hk hstep => exact hold.leaveCall hk rfl hstep rfl
  | @acking k now c net e hk hstep =>
      refine hold.ofNet (length_calls_of_step hstep) ?_
      intro j result recInfo c' call hj hc'
      refine getElem?_calls_of_step hstep hc' ?_
      rintro ⟨⟩
      have hsame := hold.distinct k j _ _ c hk hj rfl rfl
      rw [hsame, hj] at hk
      cases hk
  | offline hk => exact hold.leave hk (Nat.le_refl _) (fun _ _ hc _ => hc) rfl
  | found hk hfind => exact hold.leave hk (Nat.le_refl _) (fun _ _ hc _ => hc) rfl
  | @stamped k now result addrEnv recInfo net e hk hstep hcalls hinfo henv =>
      refine hold.goOn hk (length_calls_of_step hstep) ?_ ?_ ?_
      · intro c call hc _
        exact getElem?_calls_of_step hstep hc (by simp)
      · rintro c ⟨⟩
        simp [hcalls]
      · rintro _ _ _ ⟨⟩
        exact ⟨addrEnv, by simp [hcalls], hinfo, _, henv⟩
  | queued hk hstep => exact hold.leaveCall hk rfl hstep rfl

/-! ## What the calls have shown -/

/-- The call of `checkMail` that an event is shown by, once it has an outcome. -/
def Event.mail? : Event κ → Option Nat
  | .nothing k => some k
  | .acked k _ _ => some k
  | .found k _ => some k
  | .offline k => some k
  | .queued k _ _ => some k
  | _ => none

/-- What call `k` has shown, in order. -/
def shown (k : Nat) (h : List (Event κ)) : List (Event κ) :=
  h.filter fun e => e.mail? = some k

omit [DecidableEq κ] in
theorem shown_snoc_self {k : Nat} {e : Event κ} (he : e.mail? = some k)
    (h : List (Event κ)) : shown k (h ++ [e]) = shown k h ++ [e] := by
  simp [shown, he]

omit [DecidableEq κ] in
theorem shown_snoc_of_ne {k : Nat} {e : Event κ} (he : e.mail? ≠ some k)
    (h : List (Event κ)) : shown k (h ++ [e]) = shown k h := by
  simp [shown, he]

omit [DecidableEq κ] in
theorem mem_shown {k : Nat} {e : Event κ} {h : List (Event κ)} (he : e.mail? = some k) :
    e ∈ h ↔ e ∈ shown k h := by
  simp [shown, he]

/-- What a call has shown by the time it stands at `mail`. -/
def Holds (k : Nat) (events : List (Event κ)) : Mail κ → Prop
  | .receiving _ => events = []
  | .received result => ∃ datagram, events = [.acked k result datagram]
  | .found result recInfo =>
      ∃ datagram, events = [.acked k result datagram, .found k recInfo]
  | .sending result recInfo _ =>
      ∃ datagram, events = [.acked k result datagram, .found k recInfo]
  | .returned => events = [.nothing k] ∨
      (∃ result datagram, events = [.acked k result datagram, .offline k]) ∨
      ∃ result datagram recInfo before after,
        events = [.acked k result datagram, .found k recInfo, .queued k before after]

/-- Every call has shown what it has in hand, and calls not yet made nothing. -/
structure Held (h : List (Event κ)) (s : State κ) : Prop where
  holds : ∀ (k : Nat) (mail : Mail κ), s.mails[k]? = some mail → Holds k (shown k h) mail
  fresh : ∀ k, s.mails.length ≤ k → shown k h = []

omit [DecidableEq κ] in
/-- A call goes on and shows its event, or none. -/
theorem Held.goOn {h : List (Event κ)} {e : Event κ} {k : Nat} {mail mail' : Mail κ}
    (hold : Held h s) (hk : s.mails[k]? = some mail) (he : ∀ j, e.mail? = some j → j = k)
    (hnew : Holds k (shown k (h ++ [e])) mail') (net : UdpEndpointBase.State κ) :
    Held (h ++ [e]) (s.goOn k mail' net) := by
  have hlt := (List.getElem?_eq_some_iff.mp hk).1
  constructor
  · intro j m hj
    rcases getElem?_set_cases hj with ⟨rfl, rfl⟩ | ⟨hne, hj'⟩
    · exact hnew
    · rw [shown_snoc_of_ne fun hj => hne (he j hj)]
      exact hold.holds j m hj'
  · intro j hj
    have hle : s.mails.length ≤ j := by simpa [State.goOn] using hj
    rw [shown_snoc_of_ne fun hmine => by rw [he j hmine] at hle; omega]
    exact hold.fresh j hle

omit [DecidableEq κ] in
/-- An event without an outcome changes nothing. -/
theorem Held.quiet {h : List (Event κ)} {e : Event κ} (hold : Held h s)
    (he : e.mail? = none) (hmails : s'.mails = s.mails) : Held (h ++ [e]) s' := by
  have hsame : ∀ k, shown k (h ++ [e]) = shown k h :=
    fun k => shown_snoc_of_ne (by simp [he]) h
  constructor
  · intro k mail hk
    rw [hmails] at hk
    rw [hsame]
    exact hold.holds k mail hk
  · intro k hk
    rw [hmails] at hk
    rw [hsame]
    exact hold.fresh k hk

theorem Held.step {a : Action κ} {h : List (Event κ)} {e : Event κ} (hold : Held h s)
    (hsteps : Steps wire server s a s' e) : Held (h ++ [e]) s' := by
  cases hsteps with
  | outer _ _ => exact hold.quiet rfl rfl
  | login info => exact hold.quiet rfl rfl
  | acking _ _ => exact hold.quiet rfl rfl
  | started hstep =>
      constructor
      · intro k mail hk
        rw [shown_snoc_of_ne (by simp [Event.mail?])]
        rcases getElem?_append_cases hk with ⟨rfl, rfl⟩ | hk'
        · exact hold.fresh _ (Nat.le_refl _)
        · exact hold.holds k mail hk'
      · intro k hk
        rw [shown_snoc_of_ne (by simp [Event.mail?])]
        exact hold.fresh k (by simp at hk; omega)
  | nothing hk =>
      have hbefore : shown _ h = [] := hold.holds _ _ hk
      refine hold.goOn hk (by simp [Event.mail?]) ?_ _
      rw [shown_snoc_self rfl, hbefore]
      exact .inl rfl
  | acked hk hstep =>
      have hbefore : shown _ h = [] := hold.holds _ _ hk
      refine hold.goOn hk (by simp [Event.mail?]) ?_ _
      rw [shown_snoc_self rfl, hbefore]
      exact ⟨_, rfl⟩
  | offline hk =>
      rcases hold.holds _ _ hk with ⟨datagram, hbefore⟩
      refine hold.goOn hk (by simp [Event.mail?]) ?_ _
      rw [shown_snoc_self rfl, hbefore]
      exact .inr (.inl ⟨_, _, rfl⟩)
  | found hk hfind =>
      rcases hold.holds _ _ hk with ⟨datagram, hbefore⟩
      refine hold.goOn hk (by simp [Event.mail?]) ?_ _
      rw [shown_snoc_self rfl, hbefore]
      exact ⟨_, rfl⟩
  | stamped hk hstep hcalls hinfo henv =>
      rcases hold.holds _ _ hk with ⟨datagram, hbefore⟩
      refine hold.goOn hk (by simp [Event.mail?]) ?_ _
      rw [shown_snoc_of_ne (by simp [Event.mail?]), hbefore]
      exact ⟨_, rfl⟩
  | queued hk hstep =>
      rcases hold.holds _ _ hk with ⟨datagram, hbefore⟩
      refine hold.goOn hk (by simp [Event.mail?]) ?_ _
      rw [shown_snoc_self rfl, hbefore]
      exact .inr (.inr ⟨_, _, _, _, _, rfl⟩)

theorem held_run {net₀ : UdpEndpointBase.State κ} {G : Guard (State κ) (Action κ) (Event κ)}
    {h : List (Event κ)} (hrun : (checkMails wire server net₀).Run G h s) :
    Held h s ∧ Owned server s := by
  refine hrun.invariant (I := fun h s => Held h s ∧ Owned server s) ⟨?_, ?_⟩ ?_
  · constructor
    · intro k mail hk
      simp [checkMails] at hk
    · intro k _
      rfl
  · constructor
    · intro k mail c hk
      simp [checkMails] at hk
    · intro k k' mail mail' c hk
      simp [checkMails] at hk
    · intro k result recInfo c hk
      simp [checkMails] at hk
  · intro h s a s' e _ hold _ hstep
    have hsteps := steps_of_step hstep
    exact ⟨hold.1.step hsteps, hold.2.step hsteps⟩

/-! ## Room in the queue -/

/-- What `sendEnvelope` is to add to the queue: the envelope with a new time stamp,
addressed to the client. -/
def ForwardOf (result : AddressedEnvelope κ) (recInfo : ClientInfo κ)
    (addrEnv : AddressedEnvelope κ) : Prop :=
  addrEnv.sockInfo = recInfo.socketInfo ∧
    ∃ tStamp, addrEnv.env = setTimeStamp result.env tStamp

/-- An envelope that was acknowledged and whose recipient was found is pushed before
`checkMail` returns, and the push adds it to the queue. -/
structure Relayed (h : List (Event κ)) (s : State κ) : Prop where
  pushed : ∀ k result datagram recInfo, .acked k result datagram ∈ h →
    .found k recInfo ∈ h → s.mails[k]? = some .returned →
      ∃ before after, .queued k before after ∈ h
  added : ∀ k result datagram recInfo before after, .acked k result datagram ∈ h →
    .found k recInfo ∈ h → .queued k before after ∈ h →
      ∃ addrEnv, ForwardOf result recInfo addrEnv ∧ after = before ++ [addrEnv]

/-- The queue has room at every push of a call of `checkMail`. -/
def RoomLeft (server : κ) : Guard (State κ) (Action κ) (Event κ) :=
  fun _ s a => ∀ k now result recInfo c, a = .advance k now →
    s.mails[k]? = some (.sending result recInfo c) →
      (s.net.endpoints server).outQueue.contents.length < messageQueueSize.toNat

/-- The push that a call has shown, if it has come that far, has added the forward. -/
def Kept (k : Nat) (events : List (Event κ)) : Prop :=
  ∀ result datagram recInfo before after,
    events = [.acked k result datagram, .found k recInfo, .queued k before after] →
      ∃ addrEnv, ForwardOf result recInfo addrEnv ∧ after = before ++ [addrEnv]

omit [DecidableEq κ] in
/-- A call that has shown a push has shown nothing else behind its lookup. -/
theorem Held.shown_of_queued {h : List (Event κ)} (hheld : Held h s) {k : Nat}
    {before after : List (AddressedEnvelope κ)} (hqueued : .queued k before after ∈ h) :
    ∃ result datagram recInfo,
      shown k h = [.acked k result datagram, .found k recInfo, .queued k before after] := by
  have hmem : .queued k before after ∈ shown k h := (mem_shown rfl).mp hqueued
  rcases Nat.lt_or_ge k s.mails.length with hlt | hge
  · have hholds := hheld.holds k _ (List.getElem?_eq_getElem hlt)
    generalize s.mails[k] = mail at hholds
    generalize shown k h = events at hmem hholds
    cases mail with
    | receiving c =>
        cases hholds
        contradiction
    | received result =>
        rcases hholds with ⟨datagram, rfl⟩
        simp at hmem
    | found result recInfo =>
        rcases hholds with ⟨datagram, rfl⟩
        simp at hmem
    | sending result recInfo c =>
        rcases hholds with ⟨datagram, rfl⟩
        simp at hmem
    | returned =>
        rcases hholds with rfl | ⟨result, datagram, rfl⟩ |
          ⟨result, datagram, recInfo, before', after', rfl⟩
        · simp at hmem
        · simp at hmem
        · simp only [List.mem_cons, reduceCtorEq, Event.queued.injEq, true_and, false_or,
            List.not_mem_nil, or_false] at hmem
          rcases hmem with ⟨rfl, rfl⟩
          exact ⟨_, _, _, rfl⟩
  · rw [hheld.fresh k hge] at hmem
    contradiction

omit [DecidableEq κ] in
/-- What is asked of the history is asked of what each call has shown. -/
theorem relayed_iff_kept {h : List (Event κ)} (hheld : Held h s) :
    Relayed h s ↔ ∀ k, Kept k (shown k h) := by
  constructor
  · intro hrelayed k result datagram recInfo before after hshown
    refine hrelayed.added k result datagram recInfo before after ?_ ?_ ?_
    · exact (mem_shown rfl).mpr (by simp [hshown])
    · exact (mem_shown rfl).mpr (by simp [hshown])
    · exact (mem_shown rfl).mpr (by simp [hshown])
  · intro hkept
    constructor
    · intro k result datagram recInfo hacked hfound hk
      have hmem : .found k recInfo ∈ shown k h := (mem_shown rfl).mp hfound
      rcases hheld.holds k _ hk with hnothing | ⟨_, _, hoffline⟩ | ⟨_, _, _, before, after, hall⟩
      · simp [hnothing] at hmem
      · simp [hoffline] at hmem
      · exact ⟨before, after, (mem_shown rfl).mpr (by simp [hall])⟩
    · intro k result datagram recInfo before after hacked hfound hqueued
      rcases hheld.shown_of_queued hqueued with ⟨result', datagram', recInfo', hshown⟩
      have hsameResult : result = result' := by
        have hmem := (mem_shown rfl).mp hacked
        simp only [hshown, List.mem_cons, Event.acked.injEq, true_and, reduceCtorEq, or_false,
          List.not_mem_nil] at hmem
        exact hmem.1
      have hsameInfo : recInfo = recInfo' := by
        have hmem := (mem_shown rfl).mp hfound
        simpa [hshown] using hmem
      subst hsameResult
      subst hsameInfo
      exact hkept k _ _ _ _ _ hshown

omit [DecidableEq κ] in
/-- Only a push can fail to keep. -/
theorem kept_snoc {k : Nat} {h : List (Event κ)} {e : Event κ} (hkept : Kept k (shown k h))
    (hne : ∀ before after, e ≠ .queued k before after) : Kept k (shown k (h ++ [e])) := by
  by_cases he : e.mail? = some k
  · rw [shown_snoc_self he]
    intro result datagram recInfo before after hshown
    have hlast := congrArg List.getLast? hshown
    simp only [List.getLast?_append, List.getLast?_singleton, Option.some_or,
      List.getLast?_cons_cons, Option.some.injEq] at hlast
    exact absurd hlast (hne before after)
  · rw [shown_snoc_of_ne he]
    exact hkept

/-- The push of a call that is in `sendEnvelope`. -/
theorem outQueue_of_push {net : UdpEndpointBase.State κ} {e : UdpEndpointBase.Event κ}
    {c : Nat} {addrEnv : AddressedEnvelope κ}
    (hcall : s.net.calls[c]? = some ⟨server, .queueing addrEnv⟩)
    (hstep : UdpEndpointBase.step wire s.net (.call c) = some (net, e)) :
    (net.endpoints server).outQueue = ((s.net.endpoints server).outQueue.push addrEnv).2 := by
  rw [UdpEndpointBase.step, hcall, Option.bind_some] at hstep
  cases hstep
  simp

/-- A push adds the forward exactly if there is room. -/
theorem kept_push_iff {h : List (Event κ)} {k c : Nat} {result : AddressedEnvelope κ}
    {recInfo : ClientInfo κ} {net : UdpEndpointBase.State κ} {e : UdpEndpointBase.Event κ}
    (hheld : Held h s) (howned : Owned server s)
    (hk : s.mails[k]? = some (.sending result recInfo c))
    (hstep : UdpEndpointBase.step wire s.net (.call c) = some (net, e)) :
    Kept k (shown k (h ++ [.queued k (s.net.endpoints server).outQueue.contents
        (net.endpoints server).outQueue.contents])) ↔
      (s.net.endpoints server).outQueue.contents.length < messageQueueSize.toNat := by
  rcases hheld.holds k _ hk with ⟨datagram, hshown⟩
  rcases howned.queueing k result recInfo c hk with ⟨addrEnv, hcall, hinfo, henv⟩
  rw [shown_snoc_self rfl, hshown, outQueue_of_push hcall hstep,
    ((s.net.endpoints server).outQueue.push_eq addrEnv).2]
  constructor
  · intro hkept
    by_contra hfull
    rcases hkept result datagram recInfo _ _ rfl with ⟨addrEnv', _, hafter⟩
    rw [if_neg hfull] at hafter
    simp at hafter
  · intro hroom
    rw [if_pos hroom]
    rintro _ _ _ _ _ ⟨⟩
    exact ⟨addrEnv, ⟨hinfo, henv⟩, rfl⟩

omit [DecidableEq κ] in
/-- A step other than the push of a call of `checkMail`. -/
theorem roomLeft_of_other {h : List (Event κ)} {k now : Nat} {mail : Mail κ}
    (hk : s.mails[k]? = some mail) (hother : ∀ result recInfo c, mail ≠ .sending result recInfo c) :
    RoomLeft server h s (.advance k now) := by
  rintro _ _ result recInfo c ⟨⟩ hk'
  rw [hk] at hk'
  exact absurd (Option.some.inj hk') (hother result recInfo c)

/-- A step is a push, or it needs no room and shows no push. -/
theorem Steps.push_cases {h : List (Event κ)} {a : Action κ} {e : Event κ}
    (hsteps : Steps wire server s a s' e) :
    (∃ k now c result recInfo net d, a = .advance k now ∧
      s.mails[k]? = some (.sending result recInfo c) ∧
      UdpEndpointBase.step wire s.net (.call c) = some (net, d) ∧
      e = .queued k (s.net.endpoints server).outQueue.contents
        (net.endpoints server).outQueue.contents) ∨
    (RoomLeft server h s a ∧ ∀ k before after, e ≠ .queued k before after) := by
  cases hsteps with
  | queued hk hstep => exact .inl ⟨_, _, _, _, _, _, _, rfl, hk, hstep, rfl⟩
  | outer _ _ => exact .inr ⟨by rintro _ _ _ _ _ ⟨⟩, by simp⟩
  | login info => exact .inr ⟨by rintro _ _ _ _ _ ⟨⟩, by simp⟩
  | started _ => exact .inr ⟨by rintro _ _ _ _ _ ⟨⟩, by simp⟩
  | nothing hk => exact .inr ⟨roomLeft_of_other hk (by simp), by simp⟩
  | acked hk _ => exact .inr ⟨roomLeft_of_other hk (by simp), by simp⟩
  | acking hk _ => exact .inr ⟨roomLeft_of_other hk (by simp), by simp⟩
  | offline hk => exact .inr ⟨roomLeft_of_other hk (by simp), by simp⟩
  | found hk _ => exact .inr ⟨roomLeft_of_other hk (by simp), by simp⟩
  | stamped hk _ _ _ _ => exact .inr ⟨roomLeft_of_other hk (by simp), by simp⟩

/-- A step relays what it should exactly if there is room. -/
theorem roomLeft_iff_relayed {h : List (Event κ)} {a : Action κ} {e : Event κ}
    (hheld : Held h s) (howned : Owned server s) (hrelayed : Relayed h s)
    (hsteps : Steps wire server s a s' e) :
    RoomLeft server h s a ↔ Relayed (h ++ [e]) s' := by
  have hkept := (relayed_iff_kept hheld).mp hrelayed
  rw [relayed_iff_kept (hheld.step hsteps)]
  rcases hsteps.push_cases (h := h) with
    ⟨k, now, c, result, recInfo, net, d, rfl, hk, hstep, rfl⟩ | ⟨hroom, hne⟩
  · have hpush := kept_push_iff hheld howned hk hstep
    constructor
    · intro hroom j
      rcases eq_or_ne j k with rfl | hjk
      · exact hpush.mpr (hroom j now result recInfo c rfl hk)
      · rw [shown_snoc_of_ne (by simpa [Event.mail?] using hjk.symm)]
        exact hkept j
    · intro hall
      rintro _ _ _ _ _ ⟨⟩ _
      exact hpush.mp (hall k)
  · constructor
    · intro _ k
      exact kept_snoc (hkept k) (hne k)
    · intro _
      exact hroom

/-- From any state of the queues, the runs in which every push of a call of `checkMail`
finds room are those in which every acknowledged envelope whose recipient was found is
put into the queue for that recipient. -/
theorem relayed_iff_room (wire : Wire) (server : κ) (net₀ : UdpEndpointBase.State κ)
    (h : List (Event κ)) (s : State κ) :
    (checkMails wire server net₀).Run (RoomLeft server) h s ↔
      (checkMails wire server net₀).Through Any Relayed h s := by
  have hstart : Relayed [] (checkMails wire server net₀).init :=
    ⟨by simp, by simp⟩
  rw [← run_iff_through hstart]
  · constructor
    · exact Run.mono fun _ _ _ hroom => ⟨trivial, hroom⟩
    · exact Run.mono fun _ _ _ hguard => hguard.2
  · intro h s a s' e hrun hrelayed _ hstep
    have hheld : Held h s ∧ Owned server s := held_run hrun
    exact roomLeft_iff_relayed hheld.1 hheld.2 hrelayed (steps_of_step hstep)

end Kinds

/-- Endpoint `i + 1` sends a message to the server, endpoint 0, where `checkMail`
acknowledges it, finds its recipient and sends it on. -/
def relayOne (i : Nat) : List (Action Nat) :=
  [.net (.sendEnvelope (i + 1) greeting 0 5), .net (.call (3 * i)), .net (.sender (i + 1)),
    .net (.sender (i + 1)), .net (.sender (i + 1)), .net (.receive 0 i), .net (.listener 0),
    .checkMail, .advance i 5, .advance i 5, .advance i 5, .advance i 5, .advance i 5]

/-- The client that a call has found and the queue around its push. -/
def pushOutcome (k : Nat) (h : List (Event Nat)) :
    Option (ClientInfo Nat × List (AddressedEnvelope Nat) × List (AddressedEnvelope Nat)) :=
  match shown k h with
  | [.acked _ _ _, .found _ recInfo, .queued _ before after] => some (recInfo, before, after)
  | _ => none

/-- A push that leaves the queue as it was has not relayed the envelope. -/
theorem not_relayed_of_pushOutcome {h : List (Event Nat)} {s : State Nat} {k : Nat}
    {recInfo : ClientInfo Nat} {queue : List (AddressedEnvelope Nat)}
    (hpush : pushOutcome k h = some (recInfo, queue, queue)) : ¬ Relayed h s := by
  intro hrelayed
  unfold pushOutcome at hpush
  split at hpush
  · rename_i k₁ result datagram k₂ info k₃ before after hshown
    cases hpush
    have hof : ∀ e ∈ shown k h, e ∈ h ∧ e.mail? = some k := by
      intro e he
      simpa [shown] using he
    rcases hof (.acked k₁ result datagram) (by simp [hshown]) with ⟨hacked, ⟨⟩⟩
    rcases hof (.found k₂ recInfo) (by simp [hshown]) with ⟨hfound, ⟨⟩⟩
    rcases hof (.queued k₃ queue queue) (by simp [hshown]) with ⟨hqueued, ⟨⟩⟩
    rcases hrelayed.added k result datagram recInfo queue queue hacked hfound hqueued with
      ⟨addrEnv, _, hafter⟩
    simp at hafter
  · contradiction

/-- While the sender thread has not yet come to the queue, the fifth message is
acknowledged and its recipient found, and the push leaves the queue as it was. -/
theorem relayed_iff_room_fails :
    ∃ h s queue, (checkMails envelopeWire 0 (endpoints envelopeWire clearedMemory).init).Run
        Any h s ∧
      pushOutcome 4 h = some (⟨0, 9⟩, queue, queue) ∧ queue.length = 4 ∧ ¬ Relayed h s := by
  have hexec : ((checkMails envelopeWire 0
      (endpoints envelopeWire clearedMemory).init).exec
        (.login ⟨0, 9⟩ :: (List.range 5).flatMap relayOne)).map (fun r =>
          (pushOutcome 4 r.1).map fun o => (o.1, o.2.1.length, decide (o.2.1 = o.2.2))) =
      some (some (⟨0, 9⟩, 4, true)) := by
    decide +kernel
  rcases Option.map_eq_some_iff.mp hexec with ⟨⟨h, s⟩, hexec, hlast⟩
  rcases Option.map_eq_some_iff.mp hlast with ⟨⟨recInfo, before, after⟩, hpush, hvalues⟩
  simp only [Prod.mk.injEq, decide_eq_true_eq] at hvalues
  rcases hvalues with ⟨rfl, hlength, rfl⟩
  exact ⟨h, s, before, Run.of_exec hexec, hpush, hlength, not_relayed_of_pushOutcome hpush⟩

end ServerManager

end SimpleMessenger
