import Mathlib.Data.List.Flatten
import SimpleMessenger.Common.UdpAcknowledgement
import SimpleMessenger.Server.CheckMail

/-!
# From client to client through `ServerManager::checkMail`

A client sends an envelope to the server over the network, where a call of
{lit}`checkMail` takes it out of the input queue, acknowledges it and sends it on to the
address that the recipient has logged in with.  This module follows envelopes over both
hops, with any number of calls of {lit}`checkMail` and any number of clients.

Main results:

- Theorem {lit}`exists_view_run`: the network underneath takes a run of its own, whose
  history shows what the calls show.
- Theorem {lit}`relays_run`: what an endpoint receives from the server, other than
  acknowledgements, was sent to the server for a user who has logged in there.

Current gaps:

- Only runs in which no two threads cross in an output buffer are considered.
-/

universe u

namespace SimpleMessenger

open CMemory StepSystem UdpEndpointBase ProtobufItf

namespace ServerManager

variable {κ : Type u}

/-! ## The network underneath, with its history -/

/-- The step of the network that an action takes. -/
def netAction (server : κ) (s : State κ) : Action κ → Option (UdpEndpointBase.Action κ)
  | .net a => some a
  | .login _ => none
  | .checkMail => some (.tryReceiveEnvelope server)
  | .advance k now =>
      match s.mails[k]? with
      | some (.receiving c) => some (.call c)
      | some (.found result recInfo) =>
          some (.sendEnvelope server result.env recInfo.socketInfo now)
      | some (.sending _ _ c) => some (.call c)
      | _ => none

/-- At every `sendto`, the output buffer of the endpoint still holds the message that was
put there for it. -/
def BuffersKept (server : κ) : Guard (State κ) (Action κ) (Event κ) := fun _ s a =>
  ∀ b, netAction server s a = some b → ∀ p, Undisturbed p [] s.net b

/-- What an event shows of the network. -/
def Event.net? : Event κ → Option (UdpEndpointBase.Event κ)
  | .net d => some d
  | _ => none

/-- What a call of `checkMail` shows of a step of the network. -/
inductive Shows (server : κ) : Event κ → UdpEndpointBase.Event κ → Prop where
  | net (d : UdpEndpointBase.Event κ) : Shows server (.net d) d
  | acked (k c : Nat) (result : AddressedEnvelope κ) (message : ProtobufItf.Envelope)
      (datagram : Datagram κ) :
      Shows server (.acked k result datagram) (.returned c server result message datagram)
  | started (k : Nat) : Shows server (.started k) .quiet
  | queued (k : Nat) (before after : List (AddressedEnvelope κ)) :
      Shows server (.queued k before after) .quiet

/-- The event is not one of the network, nor of an acknowledgement. -/
def Event.inner : Event κ → Bool
  | .net _ => false
  | .acked _ _ _ => false
  | _ => true

section Runs

variable [DecidableEq κ] {wire : Wire} {server : κ} {s s' : State κ} {h : List (Event κ)}
  {e : Event κ}

/-- The calls of `tryReceiveEnvelope` that calls of `checkMail` are in are calls at the
server. -/
def ReceivesAt (server : κ) (s : State κ) : Prop :=
  ∀ (k c : Nat), s.mails[k]? = some (.receiving c) →
    ∃ point, s.net.calls[c]? = some ⟨server, point⟩

/-- A call stays at its endpoint. -/
theorem endpoint_of_step {net net' : UdpEndpointBase.State κ} {a : UdpEndpointBase.Action κ}
    {d : UdpEndpointBase.Event κ} (hstep : UdpEndpointBase.step wire net a = some (net', d))
    {c : Nat} {p : κ} {point : Point κ} (hc : net.calls[c]? = some ⟨p, point⟩) :
    ∃ point', net'.calls[c]? = some ⟨p, point'⟩ := by
  have hset : ∀ {c' : Nat} {q : κ} {old new : Point κ}, net.calls[c']? = some ⟨q, old⟩ →
      ∃ point', (net.calls.set c' ⟨q, new⟩)[c]? = some ⟨p, point'⟩ := by
    intro c' q old new hc'
    by_cases hsame : c' = c
    · subst hsame
      rw [hc] at hc'
      cases hc'
      exact ⟨new, getElem?_set_of_some hc⟩
    · exact ⟨point, by rw [List.getElem?_set_ne hsame, hc]⟩
  cases UdpEndpointBase.steps_of_step hstep with
  | stamped haddr hclock => exact ⟨point, getElem?_append_of_some hc⟩
  | receivedNothing hq => exact ⟨point, getElem?_append_of_some hc⟩
  | popped hq => exact ⟨point, getElem?_append_of_some hc⟩
  | queued hc' hq => exact hset hc'
  | ackFilled hc' hput => exact hset hc'
  | returned hc' hdatagram => exact hset hc'
  | _ => exact ⟨point, hc⟩

theorem ReceivesAt.step {a : Action κ} (hold : ReceivesAt server s)
    (hsteps : Steps wire server s a s' e) : ReceivesAt server s' := by
  have hgoOn : ∀ {k : Nat} {mail : Mail κ} {net : UdpEndpointBase.State κ},
      (∀ c, mail ≠ .receiving c) →
      (∀ (c : Nat) (point : Point κ), s.net.calls[c]? = some ⟨server, point⟩ →
        ∃ point', net.calls[c]? = some ⟨server, point'⟩) →
      ReceivesAt server (s.goOn k mail net) := by
    intro k mail net hmail hnet j c hj
    rcases getElem?_set_cases hj with ⟨_, hnew⟩ | ⟨_, hj'⟩
    · exact absurd hnew.symm (hmail c)
    · rcases hold j c hj' with ⟨point, hc⟩
      exact hnet c point hc
  have hnet : ∀ {net : UdpEndpointBase.State κ} {b : UdpEndpointBase.Action κ}
      {d : UdpEndpointBase.Event κ}, UdpEndpointBase.step wire s.net b = some (net, d) →
      ∀ (c : Nat) (point : Point κ), s.net.calls[c]? = some ⟨server, point⟩ →
        ∃ point', net.calls[c]? = some ⟨server, point'⟩ := by
    intro net b d hstep c point hc
    exact endpoint_of_step hstep hc
  cases hsteps with
  | outer helsewhere hstep =>
      intro k c hk
      rcases hold k c hk with ⟨point, hc⟩
      exact hnet hstep c point hc
  | login info => exact hold
  | started hstep =>
      intro k c hk
      rcases getElem?_append_cases hk with ⟨_, hnew⟩ | hk'
      · cases hnew
        cases UdpEndpointBase.steps_of_step hstep with
        | receivedNothing hq => exact ⟨_, List.getElem?_concat_length⟩
        | popped hq => exact ⟨_, List.getElem?_concat_length⟩
      · rcases hold k c hk' with ⟨point, hc⟩
        exact hnet hstep c point hc
  | nothing hk => exact hgoOn (by simp) fun c point hc => ⟨point, hc⟩
  | acked hk hstep => exact hgoOn (by simp) (hnet hstep)
  | acking hk hstep =>
      intro k c hk'
      rcases hold k c hk' with ⟨point, hc⟩
      exact hnet hstep c point hc
  | offline hk => exact hgoOn (by simp) fun c point hc => ⟨point, hc⟩
  | found hk hfind => exact hgoOn (by simp) fun c point hc => ⟨point, hc⟩
  | stamped hk hstep hcalls hinfo henv => exact hgoOn (by simp) (hnet hstep)
  | queued hk hstep => exact hgoOn (by simp) (hnet hstep)

theorem receivesAt_run {net₀ : UdpEndpointBase.State κ}
    {G : Guard (State κ) (Action κ) (Event κ)}
    (hrun : (checkMails wire server net₀).Run G h s) : ReceivesAt server s := by
  refine hrun.invariant (I := fun _ s => ReceivesAt server s) ?_ ?_
  · intro k c hk
    cases hk
  · intro h s a s' e _ hold _ hstep
    exact hold.step (steps_of_step hstep)

/-- A step in `tryReceiveEnvelope` is one of the network and shows it, or ends the call. -/
theorem shows_of_receiveStep {k c : Nat} {point : Point κ}
    (hc : s.net.calls[c]? = some ⟨server, point⟩)
    (hstep : receiveStep wire s k c = some (s', e)) :
    (s'.net = s.net ∧ e = .nothing k) ∨
      ∃ d, UdpEndpointBase.step wire s.net (.call c) = some (s'.net, d) ∧ Shows server e d := by
  have hnet : UdpEndpointBase.step wire s.net (.call c) =
      UdpEndpointBase.advance wire s.net c server point := by
    rw [UdpEndpointBase.step, hc, Option.bind_some]
  simp only [receiveStep, hc] at hstep
  split at hstep
  · contradiction
  · cases hstep
    exact .inl ⟨rfl, rfl⟩
  · rename_i p point' hne hcall
    cases hcall
    split at hstep <;> rename_i hadvance
    · contradiction
    · cases hstep
      have hstep := hnet.trans hadvance
      cases UdpEndpointBase.steps_of_step hstep with
      | returned hc' hdatagram =>
          rw [hc] at hc'
          cases hc'
          exact .inr ⟨_, hstep, .acked _ _ _ _ _⟩
    · cases hstep
      exact .inr ⟨_, hnet.trans hadvance, .net _⟩

/-- The push at the end of `sendEnvelope` is a step of the network that shows nothing. -/
theorem shows_of_pushStep {k c : Nat} {addrEnv : AddressedEnvelope κ}
    (hc : s.net.calls[c]? = some ⟨server, .queueing addrEnv⟩)
    (hstep : pushStep wire server s k c = some (s', e)) :
    ∃ d, UdpEndpointBase.step wire s.net (.call c) = some (s'.net, d) ∧ Shows server e d := by
  have hnet : UdpEndpointBase.step wire s.net (.call c) =
      UdpEndpointBase.advance wire s.net c server (.queueing addrEnv) := by
    rw [UdpEndpointBase.step, hc, Option.bind_some]
  simp only [pushStep, hc] at hstep
  split at hstep <;> rename_i hadvance
  · contradiction
  · cases hstep
    cases hadvance
    exact ⟨.quiet, hnet, .queued _ _ _⟩

/-- Every step is one of the network and shows it, or leaves the network alone. -/
theorem shows_of_step (howned : Owned server s) (hreceives : ReceivesAt server s) {a : Action κ}
    (hstep : step wire server s a = some (s', e)) :
    (s'.net = s.net ∧ e.inner = true) ∨
      ∃ b d, netAction server s a = some b ∧
        UdpEndpointBase.step wire s.net b = some (s'.net, d) ∧ Shows server e d := by
  cases a with
  | net a =>
      simp only [step] at hstep
      split_ifs at hstep with helsewhere
      rcases Option.map_eq_some_iff.mp hstep with ⟨⟨net, d⟩, hnet, hpair⟩
      cases hpair
      exact .inr ⟨a, d, rfl, hnet, .net d⟩
  | login info =>
      cases hstep
      exact .inl ⟨rfl, rfl⟩
  | checkMail =>
      cases hstep
      have hquiet : (UdpEndpointBase.tryReceiveEnvelope s.net server).2 = .quiet := by
        unfold UdpEndpointBase.tryReceiveEnvelope
        split <;> rfl
      have hnet : UdpEndpointBase.step wire s.net (.tryReceiveEnvelope server) =
          some ((UdpEndpointBase.tryReceiveEnvelope s.net server).1, .quiet) := by
        rw [UdpEndpointBase.step, ← hquiet]
      exact .inr ⟨_, .quiet, rfl, hnet, .started _⟩
  | advance k now =>
      rcases Option.bind_eq_some_iff.mp hstep with ⟨mail, hk, hadvance⟩
      cases mail with
      | receiving c =>
          rcases hreceives k c hk with ⟨point, hc⟩
          rcases shows_of_receiveStep hc hadvance with ⟨hsame, rfl⟩ | ⟨d, hnet, hshows⟩
          · exact .inl ⟨hsame, rfl⟩
          · exact .inr ⟨_, d, by simp [netAction, hk], hnet, hshows⟩
      | received result =>
          simp only [advance] at hadvance
          split at hadvance <;> cases hadvance <;> exact .inl ⟨rfl, rfl⟩
      | found result recInfo =>
          simp only [advance] at hadvance
          split at hadvance <;> rename_i hsend
          · contradiction
          · cases hadvance
            exact .inr ⟨.sendEnvelope server result.env recInfo.socketInfo now, _,
              by simp [netAction, hk], hsend, .net _⟩
      | sending result recInfo c =>
          rcases howned.queueing k result recInfo c hk with ⟨addrEnv, hc, _⟩
          rcases shows_of_pushStep hc hadvance with ⟨d, hnet, hshows⟩
          exact .inr ⟨_, d, by simp [netAction, hk], hnet, hshows⟩
      | returned => contradiction

/-- The history of the network beside that of the calls. -/
structure View (server : κ) (h : List (Event κ)) (netHistory : List (UdpEndpointBase.Event κ)) :
    Prop where
  sublist : (h.filterMap Event.net?).Sublist netHistory
  shown : ∀ d ∈ netHistory, d = .quiet ∨ .net d ∈ h ∨
    ∃ c result message datagram, d = .returned c server result message datagram
  acked : ∀ k result datagram, .acked k result datagram ∈ h →
    ∃ c message, .returned c server result message datagram ∈ netHistory

omit [DecidableEq κ] in
theorem View.inner {netHistory : List (UdpEndpointBase.Event κ)} (hview : View server h netHistory)
    (he : e.inner = true) : View server (h ++ [e]) netHistory := by
  have hnone : e.net? = none := by
    cases e with
    | net d => cases he
    | _ => rfl
  constructor
  · rw [List.filterMap_append, List.filterMap_cons_none hnone, List.filterMap_nil,
      List.append_nil]
    exact hview.sublist
  · intro d hd
    rcases hview.shown d hd with hquiet | hnet | hreturned
    · exact .inl hquiet
    · exact .inr (.inl (List.mem_append_left _ hnet))
    · exact .inr (.inr hreturned)
  · intro k result datagram hacked
    rcases List.mem_append.mp hacked with hold | hnew
    · exact hview.acked k result datagram hold
    · cases List.mem_singleton.mp hnew
      cases he

omit [DecidableEq κ] in
theorem View.shows {netHistory : List (UdpEndpointBase.Event κ)} (hview : View server h netHistory)
    {d : UdpEndpointBase.Event κ} (hshows : Shows server e d) :
    View server (h ++ [e]) (netHistory ++ [d]) := by
  constructor
  · rw [List.filterMap_append]
    refine hview.sublist.append ?_
    cases hshows with
    | net d => exact List.Sublist.refl _
    | _ => exact List.nil_sublist _
  · intro d' hd'
    rcases List.mem_append.mp hd' with hold | hnew
    · rcases hview.shown d' hold with hquiet | hnet | hreturned
      · exact .inl hquiet
      · exact .inr (.inl (List.mem_append_left _ hnet))
      · exact .inr (.inr hreturned)
    · rw [List.mem_singleton.mp hnew]
      cases hshows with
      | net d => exact .inr (.inl (List.mem_append_right _ (List.mem_singleton_self _)))
      | acked k c result message datagram => exact .inr (.inr ⟨c, result, message, datagram, rfl⟩)
      | started k => exact .inl rfl
      | queued k before after => exact .inl rfl
  · intro k result datagram hacked
    rcases List.mem_append.mp hacked with hold | hnew
    · rcases hview.acked k result datagram hold with ⟨c, message, hreturned⟩
      exact ⟨c, message, List.mem_append_left _ hreturned⟩
    · cases List.mem_singleton.mp hnew
      cases hshows with
      | acked k c result message datagram =>
          exact ⟨c, message, List.mem_append_right _ (List.mem_singleton_self _)⟩

/-- The network underneath takes a run of its own, which shows the same. -/
theorem exists_view_run {memory : κ → Memory κ}
    (hrun : (checkMails wire server (endpoints wire memory).init).Run (BuffersKept server) h s) :
    ∃ netHistory, (endpoints wire memory).Run (fun _ net a => ∀ p, Undisturbed p [] net a)
      netHistory s.net ∧ View server h netHistory := by
  induction hrun with
  | start =>
      refine ⟨[], .start, List.Sublist.refl _, ?_, ?_⟩
      · intro d hd
        cases hd
      · intro k result datagram hacked
        cases hacked
  | step hrun hguard hstep ih =>
      rcases ih with ⟨netHistory, hnetRun, hview⟩
      rcases shows_of_step (held_run hrun).2 (receivesAt_run hrun) hstep with
        ⟨hsame, hinner⟩ | ⟨b, d, hb, hnet, hshows⟩
      · rw [hsame]
        exact ⟨netHistory, hnetRun, hview.inner hinner⟩
      · exact ⟨netHistory ++ [d], .step hnetRun (hguard b hb) hnet, hview.shows hshows⟩

omit [DecidableEq κ] in
theorem View.mem {netHistory : List (UdpEndpointBase.Event κ)} (hview : View server h netHistory)
    {d : UdpEndpointBase.Event κ} (hd : .net d ∈ h) : d ∈ netHistory :=
  hview.sublist.subset (List.mem_filterMap.mpr ⟨_, hd, rfl⟩)

/-! ## Where forwards come from -/

/-- The call is past the stamping of its forward. -/
def Mail.forwarded : Mail κ → Bool
  | .sending _ _ _ => true
  | .returned => true
  | _ => false

/-- Call `k` has taken in `result`, and its recipient has logged in as `recInfo` says. -/
structure Looked (h : List (Event κ)) (k : Nat) (result : AddressedEnvelope κ)
    (recInfo : ClientInfo κ) : Prop where
  acked : ∃ datagram, .acked k result datagram ∈ h
  login : .login recInfo ∈ h
  recipient : recInfo.userId = getRecepientID result.env

omit [DecidableEq κ] in
theorem Looked.append {k : Nat} {result : AddressedEnvelope κ} {recInfo : ClientInfo κ}
    (hlooked : Looked h k result recInfo) (h' : List (Event κ)) :
    Looked (h ++ h') k result recInfo := by
  rcases hlooked.acked with ⟨datagram, hacked⟩
  exact ⟨⟨datagram, List.mem_append_left _ hacked⟩, List.mem_append_left _ hlooked.login,
    hlooked.recipient⟩

/-- Every call of `sendEnvelope` at the server is the forward of a call of `checkMail` of its
own, which `source` names. -/
structure Sourced (server : κ) (source : Nat → Nat) (h : List (Event κ)) (s : State κ) :
    Prop where
  logins : ∀ info ∈ s.connectedClients, .login info ∈ h
  looked : ∀ k result recInfo, s.mails[k]? = some (.found result recInfo) →
    Looked h k result recInfo
  forward : ∀ c addrEnv, .net (.stamped c server addrEnv) ∈ h →
    ∃ result recInfo, Looked h (source c) result recInfo ∧ ForwardOf result recInfo addrEnv
  past : ∀ c addrEnv, .net (.stamped c server addrEnv) ∈ h →
    ∃ mail, s.mails[source c]? = some mail ∧ mail.forwarded = true
  once : ∀ c c' addrEnv addrEnv', .net (.stamped c server addrEnv) ∈ h →
    .net (.stamped c' server addrEnv') ∈ h → source c = source c' → c = c'

/-- The calls that are past their forwards stay so. -/
def Past (s s' : State κ) : Prop :=
  ∀ (k : Nat) (mail : Mail κ), s.mails[k]? = some mail → mail.forwarded = true →
    ∃ mail', s'.mails[k]? = some mail' ∧ mail'.forwarded = true

omit [DecidableEq κ] in
theorem past_goOn {k : Nat} {mail mail' : Mail κ} {net : UdpEndpointBase.State κ}
    (hk : s.mails[k]? = some mail) (hmail : mail.forwarded = true → mail'.forwarded = true) :
    Past s (s.goOn k mail' net) := by
  intro j old hj hold
  by_cases hjk : k = j
  · subst hjk
    rw [hk] at hj
    cases hj
    exact ⟨mail', getElem?_set_of_some hk, hmail hold⟩
  · exact ⟨old, by rw [State.goOn, List.getElem?_set_ne hjk, hj], hold⟩

omit [DecidableEq κ] in
/-- A step in which no forward is stamped. -/
theorem Sourced.other {source : Nat → Nat} (hold : Sourced server source h s)
    (hne : ∀ c addrEnv, e ≠ .net (.stamped c server addrEnv)) (hpast : Past s s')
    (hlogins : ∀ info ∈ s'.connectedClients, info ∈ s.connectedClients ∨ e = .login info)
    (hlooked : ∀ k result recInfo, s'.mails[k]? = some (.found result recInfo) →
      s.mails[k]? = some (.found result recInfo) ∨ Looked h k result recInfo) :
    Sourced server source (h ++ [e]) s' := by
  have hbefore : ∀ {c addrEnv}, .net (.stamped c server addrEnv) ∈ h ++ [e] →
      .net (.stamped c server addrEnv) ∈ h := by
    intro c addrEnv hmem
    rcases List.mem_append.mp hmem with hin | hlast
    · exact hin
    · exact absurd (List.mem_singleton.mp hlast).symm (hne c addrEnv)
  constructor
  · intro info hinfo
    rcases hlogins info hinfo with hin | rfl
    · exact List.mem_append_left _ (hold.logins info hin)
    · exact List.mem_append_right _ (List.mem_singleton_self _)
  · intro k result recInfo hk
    rcases hlooked k result recInfo hk with hin | hlooked
    · exact (hold.looked k result recInfo hin).append _
    · exact hlooked.append _
  · intro c addrEnv hmem
    rcases hold.forward c addrEnv (hbefore hmem) with ⟨result, recInfo, hlooked, hforward⟩
    exact ⟨result, recInfo, hlooked.append _, hforward⟩
  · intro c addrEnv hmem
    rcases hold.past c addrEnv (hbefore hmem) with ⟨mail, hmail, hforwarded⟩
    exact hpast _ mail hmail hforwarded
  · intro c c' addrEnv addrEnv' hmem hmem'
    exact hold.once c c' addrEnv addrEnv' (hbefore hmem) (hbefore hmem')

omit [DecidableEq κ] in
/-- A call of `checkMail` stamps its forward, under a number that is new. -/
theorem Sourced.stamped {source : Nat → Nat} {k c : Nat} {result addrEnv : AddressedEnvelope κ}
    {recInfo : ClientInfo κ} {net : UdpEndpointBase.State κ}
    (hold : Sourced server source h s) (hk : s.mails[k]? = some (.found result recInfo))
    (hnew : ∀ p addrEnv', .net (.stamped c p addrEnv') ∉ h)
    (hforward : ForwardOf result recInfo addrEnv) :
    Sourced server (Function.update source c k) (h ++ [.net (.stamped c server addrEnv)])
      (s.goOn k (.sending result recInfo c) net) := by
  have hcases : ∀ {c' addrEnv'},
      .net (.stamped c' server addrEnv') ∈ h ++ [.net (.stamped c server addrEnv)] →
        (.net (.stamped c' server addrEnv') ∈ h ∧ Function.update source c k c' = source c') ∨
          (c' = c ∧ addrEnv' = addrEnv ∧ Function.update source c k c' = k) := by
    intro c' addrEnv' hmem
    rcases List.mem_append.mp hmem with hin | hlast
    · have hne : c' ≠ c := by
        rintro rfl
        exact hnew _ _ hin
      exact .inl ⟨hin, Function.update_of_ne hne _ _⟩
    · cases List.mem_singleton.mp hlast
      exact .inr ⟨rfl, rfl, Function.update_self _ _ _⟩
  -- the call has not stamped a forward before
  have hfirst : ∀ {c' addrEnv'}, .net (.stamped c' server addrEnv') ∈ h → source c' ≠ k := by
    intro c' addrEnv' hin hsame
    rcases hold.past c' addrEnv' hin with ⟨mail, hmail, hforwarded⟩
    rw [hsame, hk] at hmail
    cases hmail
    cases hforwarded
  constructor
  · intro info hinfo
    exact List.mem_append_left _ (hold.logins info hinfo)
  · intro j result' recInfo' hj
    rcases getElem?_set_cases hj with ⟨_, hnew⟩ | ⟨_, hj'⟩
    · cases hnew
    · exact (hold.looked j result' recInfo' hj').append _
  · intro c' addrEnv' hmem
    rcases hcases hmem with ⟨hin, hsource⟩ | ⟨rfl, rfl, hsource⟩
    · rw [hsource]
      rcases hold.forward c' addrEnv' hin with ⟨result', recInfo', hlooked, hforward'⟩
      exact ⟨result', recInfo', hlooked.append _, hforward'⟩
    · rw [hsource]
      exact ⟨result, recInfo, (hold.looked k result recInfo hk).append _, hforward⟩
  · intro c' addrEnv' hmem
    rcases hcases hmem with ⟨hin, hsource⟩ | ⟨rfl, rfl, hsource⟩
    · rw [hsource]
      rcases hold.past c' addrEnv' hin with ⟨mail, hmail, hforwarded⟩
      exact past_goOn hk (fun _ => rfl) _ mail hmail hforwarded
    · rw [hsource]
      exact ⟨_, getElem?_set_of_some hk, rfl⟩
  · intro c₁ c₂ addrEnv₁ addrEnv₂ hmem₁ hmem₂ hsame
    rcases hcases hmem₁ with ⟨hin₁, hsource₁⟩ | ⟨rfl, rfl, hsource₁⟩
    · rcases hcases hmem₂ with ⟨hin₂, hsource₂⟩ | ⟨rfl, rfl, hsource₂⟩
      · rw [hsource₁, hsource₂] at hsame
        exact hold.once c₁ c₂ _ _ hin₁ hin₂ hsame
      · rw [hsource₁, hsource₂] at hsame
        exact absurd hsame (hfirst hin₁)
    · rcases hcases hmem₂ with ⟨hin₂, hsource₂⟩ | ⟨rfl, rfl, _⟩
      · rw [hsource₁, hsource₂] at hsame
        exact absurd hsame.symm (hfirst hin₂)
      · rfl

omit [DecidableEq κ] in
theorem found_of_goOn {k : Nat} {mail : Mail κ} {net : UdpEndpointBase.State κ}
    (hmail : ∀ result recInfo, mail ≠ .found result recInfo) (j : Nat)
    (result : AddressedEnvelope κ) (recInfo : ClientInfo κ)
    (hj : (s.goOn k mail net).mails[j]? = some (.found result recInfo)) :
    s.mails[j]? = some (.found result recInfo) := by
  rcases getElem?_set_cases hj with ⟨_, hnew⟩ | ⟨_, hold⟩
  · exact absurd hnew.symm (hmail result recInfo)
  · exact hold

omit [DecidableEq κ] in
/-- A lookup that succeeds returns a login of the recipient. -/
theorem looked_of_found {source : Nat → Nat} (hold : Sourced server source h s)
    (hheld : Held h s) {k : Nat} {result : AddressedEnvelope κ} {recInfo : ClientInfo κ}
    (hk : s.mails[k]? = some (.received result))
    (hfind : findOnlineClient (getRecepientID result.env) s.connectedClients = some recInfo) :
    Looked h k result recInfo := by
  rcases hheld.holds k _ hk with ⟨datagram, hshown⟩
  refine ⟨⟨datagram, (mem_shown rfl).mpr (by simp [hshown])⟩, ?_, userId_of_findOnlineClient hfind⟩
  rw [findOnlineClient_eq] at hfind
  exact hold.logins recInfo (mem_entries.mp (List.mem_of_mem_head? hfind)).1

theorem Sourced.step {source : Nat → Nat} {a : Action κ} (hold : Sourced server source h s)
    (hnew : ∀ p addrEnv, .net (.stamped s.net.calls.length p addrEnv) ∉ h)
    (hheld : Held h s) (hsteps : Steps wire server s a s' e) :
    ∃ source', Sourced server source' (h ++ [e]) s' := by
  have hsame : Past s s := fun k mail hk hforwarded => ⟨mail, hk, hforwarded⟩
  cases hsteps with
  | outer helsewhere hstep =>
      refine ⟨source, hold.other ?_ hsame (fun _ => .inl) (fun _ _ _ => .inl)⟩
      rintro c addrEnv ⟨⟩
      rcases (UdpEndpointBase.steps_of_step hstep).sendEnvelope_of_stamped with
        ⟨envelope, receiverInfo, now, rfl, _⟩
      simp [elsewhere] at helsewhere
  | login info =>
      refine ⟨source, hold.other (by simp) hsame ?_ (fun _ _ _ => .inl)⟩
      intro info' hinfo
      rcases List.mem_append.mp hinfo with hin | hlast
      · exact .inl hin
      · exact .inr (by rw [List.mem_singleton.mp hlast])
  | started hstep =>
      refine ⟨source, hold.other (by simp) ?_ (fun _ => .inl) ?_⟩
      · intro k mail hk hforwarded
        exact ⟨mail, getElem?_append_of_some hk, hforwarded⟩
      · intro k result recInfo hk
        rcases getElem?_append_cases hk with ⟨_, hnew⟩ | hin
        · cases hnew
        · exact .inl hin
  | nothing hk =>
      exact ⟨source, hold.other (by simp) (past_goOn hk fun _ => rfl) (fun _ => .inl)
        fun j result recInfo hj => .inl (found_of_goOn (by simp) j result recInfo hj)⟩
  | acked hk hstep =>
      exact ⟨source, hold.other (by simp) (past_goOn hk (by simp [Mail.forwarded])) (fun _ => .inl)
        fun j result recInfo hj => .inl (found_of_goOn (by simp) j result recInfo hj)⟩
  | acking hk hstep =>
      refine ⟨source, hold.other ?_ hsame (fun _ => .inl) (fun _ _ _ => .inl)⟩
      rintro c addrEnv ⟨⟩
      rcases (UdpEndpointBase.steps_of_step hstep).sendEnvelope_of_stamped with
        ⟨envelope, receiverInfo, now, ha, _⟩
      cases ha
  | offline hk =>
      exact ⟨source, hold.other (by simp) (past_goOn hk fun _ => rfl) (fun _ => .inl)
        fun j result recInfo hj => .inl (found_of_goOn (by simp) j result recInfo hj)⟩
  | @found k now result recInfo hk hfind =>
      refine ⟨source, hold.other (by simp) (past_goOn hk (by simp [Mail.forwarded])) (fun _ => .inl) ?_⟩
      intro j result' recInfo' hj
      rcases getElem?_set_cases hj with ⟨rfl, heq⟩ | ⟨_, hin⟩
      · cases heq
        exact .inr (looked_of_found hold hheld hk hfind)
      · exact .inl hin
  | @stamped k now result addrEnv recInfo net d hk hstep hcalls hinfo henv =>
      cases UdpEndpointBase.steps_of_step hstep with
      | @stamped _ _ _ _ addrEnv' haddr hclock =>
          have hsameEnv : addrEnv' = addrEnv := by simpa using hcalls
          rw [hsameEnv]
          exact ⟨_, hold.stamped hk hnew ⟨hinfo, _, henv⟩⟩
  | queued hk hstep =>
      exact ⟨source, hold.other (by simp) (past_goOn hk fun _ => rfl) (fun _ => .inl)
        fun j result recInfo hj => .inl (found_of_goOn (by simp) j result recInfo hj)⟩

/-- In every run the forwards have calls of their own. -/
theorem exists_sourced_run {memory : κ → Memory κ}
    (hrun : (checkMails wire server (endpoints wire memory).init).Run (BuffersKept server) h s) :
    ∃ source, Sourced server source h s := by
  induction hrun with
  | start =>
      refine ⟨id, ?_, ?_, ?_, ?_, ?_⟩
      · intro info hinfo
        cases hinfo
      · intro k result recInfo hk
        cases hk
      · intro c addrEnv hmem
        cases hmem
      · intro c addrEnv hmem
        cases hmem
      · intro c c' addrEnv addrEnv' hmem
        cases hmem
  | step hrun _ hstep ih =>
      rcases ih with ⟨source, hold⟩
      rcases exists_view_run hrun with ⟨netHistory, hnetRun, hview⟩
      refine hold.step ?_ (held_run hrun).1 (steps_of_step hstep)
      intro p addrEnv hmem
      exact absurd ((numbered_run hnetRun).lt _ p addrEnv (hview.mem hmem)) (Nat.lt_irrefl _)

/-! ## Both hops -/

/-- What `b` has received goes back to an envelope that call `k` of `checkMail` has taken in,
which was sent to the server for a user who has logged in with the address `b`. -/
structure Forwarded (wire : Wire) (server : κ) (h : List (Event κ)) (k : Nat) (b : κ)
    (item result : AddressedEnvelope κ) (recInfo : ClientInfo κ) : Prop where
  looked : Looked h k result recInfo
  address : recInfo.socketInfo = b
  copy : ∃ tStamp, CopyOf wire (setTimeStamp result.env tStamp) item.env
  sent : ∃ aEnv message datagram, .net (.sent result.sockInfo aEnv message datagram) ∈ h ∧
    aEnv.sockInfo = server ∧ CopyOf wire aEnv.env result.env

/-- How many datagrams with the envelope of call `c` of `sendEnvelope` have been received. -/
def arrivals (c : Nat) (h : List (Event κ)) : Nat :=
  ((h.filterMap Event.net?).flatMap UdpEndpointBase.Event.delivered).countP (·.tag = .message c)

/-- What endpoints receive from the server, other than acknowledgements, is forwarded; every
call of `checkMail` forwards once, and every forward arrives five times at most. -/
structure Relays (wire : Wire) (server : κ) (source : Nat → Nat) (h : List (Event κ)) :
    Prop where
  genuine : ∀ b datagram item, .net (.received b datagram item) ∈ h →
    item.sockInfo = server → getMessageType item.env ≠ .AckMessage →
      ∃ c addrEnv result recInfo, .net (.stamped c server addrEnv) ∈ h ∧
        item.tag = .message c ∧ Forwarded wire server h (source c) b item result recInfo
  once : ∀ c c' addrEnv addrEnv', .net (.stamped c server addrEnv) ∈ h →
    .net (.stamped c' server addrEnv') ∈ h → source c = source c' → c = c'
  often : ∀ c addrEnv, .net (.stamped c server addrEnv) ∈ h → arrivals c h ≤ 5

/-- What an envelope that was taken in goes back to. -/
theorem sent_of_acked (hwire : wire.Lawful) {memory : κ → Memory κ}
    {netHistory : List (UdpEndpointBase.Event κ)} {G : Guard _ _ _}
    (hnetRun : (endpoints wire memory).Run G netHistory s.net)
    (hown : ∀ p, CarriesOwn wire p netHistory) (hview : View server h netHistory) {k : Nat}
    {result : AddressedEnvelope κ} {datagram : Datagram κ}
    (hacked : .acked k result datagram ∈ h) :
    ∃ aEnv message datagram', .net (.sent result.sockInfo aEnv message datagram') ∈ h ∧
      aEnv.sockInfo = server ∧ CopyOf wire aEnv.env result.env := by
  rcases hview.acked k result datagram hacked with ⟨c, message, hreturned⟩
  rcases sent_of_returned hwire hnetRun hown hreturned with
    ⟨aEnv, message', datagram', hsent, haddressed, _, hcopy⟩
  refine ⟨aEnv, message', datagram', ?_, haddressed, hcopy⟩
  rcases hview.shown _ hsent with hquiet | hin | ⟨_, _, _, _, hreturned'⟩
  · cases hquiet
  · exact hin
  · cases hreturned'

/-- What an endpoint has received from the server, other than an acknowledgement. -/
theorem forwarded_of_received (hwire : wire.Lawful) {memory : κ → Memory κ}
    (hrun : (checkMails wire server (endpoints wire memory).init).Run (BuffersKept server) h s)
    {source : Nat → Nat} (hsourced : Sourced server source h s) {b : κ} {datagram : Datagram κ}
    {item : AddressedEnvelope κ} (hreceived : .net (.received b datagram item) ∈ h)
    (hfrom : item.sockInfo = server) (hnot : getMessageType item.env ≠ .AckMessage) :
    ∃ c addrEnv result recInfo, .net (.stamped c server addrEnv) ∈ h ∧
      item.tag = .message c ∧ Forwarded wire server h (source c) b item result recInfo := by
  rcases exists_view_run hrun with ⟨netHistory, hnetRun, hview⟩
  have hown : ∀ p, CarriesOwn wire p netHistory := by
    intro p
    exact carriesOwn_run (fun _ _ _ _ hguard => hguard p) hnetRun
  rcases origin_of_received hnetRun (hview.mem hreceived) with ⟨aEnv, message, hsent, hto⟩ |
    ⟨c, returned, message, _, hto⟩
  · rw [hfrom] at hsent
    rcases stamped_of_took hnetRun (took_of_sent hnetRun hsent) with ⟨c, hstamped⟩
    have hin : .net (.stamped c server aEnv) ∈ h := by
      rcases hview.shown _ hstamped with hquiet | hin | ⟨_, _, _, _, hreturned⟩
      · cases hquiet
      · exact hin
      · cases hreturned
    have htag := (numbered_run hnetRun).tag_eq c server aEnv hstamped
    rcases hsourced.forward c aEnv hin with ⟨result, recInfo, hlooked, hinfo, tStamp, henv⟩
    have hcopy := hto.copy (hown _)
    rw [henv] at hcopy
    rcases hlooked.acked with ⟨datagram', hacked⟩
    exact ⟨c, aEnv, result, recInfo, hin, hto.same.symm.trans htag, hlooked,
      hinfo.symm.trans hto.addressed, ⟨tStamp, hcopy⟩,
      sent_of_acked hwire hnetRun hown hview hacked⟩
  · -- the server's own acknowledgements are received as such
    exact absurd (getMessageType_of_ack hwire (hto.copy (hown _))) hnot

/-- In every run in which no two threads cross in an output buffer, `checkMail` relays. -/
theorem relays_run (hwire : wire.Lawful) {memory : κ → Memory κ}
    (hrun : (checkMails wire server (endpoints wire memory).init).Run (BuffersKept server) h s) :
    ∃ source, Relays wire server source h := by
  rcases exists_sourced_run hrun with ⟨source, hsourced⟩
  rcases exists_view_run hrun with ⟨netHistory, hnetRun, hview⟩
  refine ⟨source, ?_, hsourced.once, ?_⟩
  · intro b datagram item hreceived hfrom hnot
    exact forwarded_of_received hwire hrun hsourced hreceived hfrom hnot
  · intro c addrEnv hstamped
    have hstamped' := hview.mem hstamped
    have hseen : arrivals c h ≤
        (netHistory.flatMap UdpEndpointBase.Event.delivered).countP (·.tag = .message c) :=
      (hview.sublist.flatMap _).countP_le
    have hdelivered : (netHistory.flatMap UdpEndpointBase.Event.delivered).countP
        (·.tag = .message c) ≤
          (netHistory.flatMap UdpEndpointBase.Event.emitted).countP (·.tag = .message c) :=
      ((List.sublist_append_left _ _).subperm.trans (received_subperm_sent hnetRun)).countP_le _
    exact hseen.trans (hdelivered.trans ((emitted_le_sends hnetRun hstamped').trans
      (sends_le_five hnetRun server c)))

end Runs

/-- The test of {lit}`BuffersKept`. -/
def buffersKeptTest (server : κ) (_ : List (Event κ)) (s : State κ) (a : Action κ) : Bool :=
  match (netAction server s a).bind (transmits s.net) with
  | none => true
  | some (p, _, message) => (s.net.endpoints p).out.protoMessage = message

theorem buffersKept_of_test (server : κ) (h : List (Event κ)) (s : State κ) (a : Action κ)
    (htest : buffersKeptTest server h s a = true) : BuffersKept server h s a := by
  intro b hb p aEnv message htransmits
  simpa [buffersKeptTest, hb, htransmits] using htest

/-- User 0 has logged in with the address 9; endpoint 1 sends a message to the server, which
comes to endpoint 9. -/
def twoHops : List (Action Nat) :=
  .login ⟨0, 9⟩ :: relayOne 0 ++
    [.net (.sender 0), .net (.sender 0), .net (.sender 0), .net (.receive 9 1)]

/-- Endpoint 9 receives a user's message from the server. -/
def Event.reaches : Event Nat → Bool
  | .net (.received b _ item) =>
      b = 9 && item.sockInfo = 0 && getMessageType item.env = .UserMessage
  | _ => false

/-- It goes back to the envelope that the call of `checkMail` has taken in. -/
theorem relays_run_twoHops :
    ∃ h s source, (checkMails envelopeWire 0 (endpoints envelopeWire clearedMemory).init).Run
        (BuffersKept 0) h s ∧
      h.any Event.reaches = true ∧ Relays envelopeWire 0 source h := by
  have hexec : ((checkMails envelopeWire 0 (endpoints envelopeWire clearedMemory).init).execFrom
      (buffersKeptTest 0) [] (checkMails envelopeWire 0
        (endpoints envelopeWire clearedMemory).init).init twoHops).map
      (fun r => r.1.any Event.reaches) = some true := by
    decide +kernel
  rcases Option.map_eq_some_iff.mp hexec with ⟨⟨h, s⟩, hexec, hreaches⟩
  have hrun := Run.of_execFrom (buffersKept_of_test 0) .start hexec
  rcases relays_run envelopeWire_lawful hrun with ⟨source, hrelays⟩
  exact ⟨h, s, source, hrun, hreaches, hrelays⟩

end ServerManager

end SimpleMessenger
