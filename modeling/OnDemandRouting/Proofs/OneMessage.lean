import OnDemandRouting.Proofs.FloodBound
import OnDemandRouting.Proofs.Survival

/-!
# One message under way

A network in which nothing is in flight or queued accepts one message, and then
frames are delivered in any order, with every name lookup and every send going
through.  Whatever the routing tables hold, the message is then in one place, no
daemon stops, every frame in flight can be delivered, and a call puts at most one
frame in flight that is not part of a flood.
-/

namespace OnDemandRouting.Proofs

open OnDemandRouting.Lib
open OnDemandRouting.Model

variable {Node : Type} {T : Topology Node}

theorem eq_singleton_of_map_snd {D : Node} {m : AppMsg} {l : List (Node × AppMsg)}
    (h : (l.map Prod.snd) = [m])
    (hends : ∀ x ∈ l, T.ip x.1 = x.2.destIp) (hdest : m.destIp = T.ip D) : l = [(D, m)] := by
  match l, h with
  | [(n, m')], h =>
      obtain rfl : m' = m := by simpa using h
      have hip : T.ip n = m'.destIp := hends (n, m') (by simp)
      rw [T.selfIp_inj n D (hip.trans hdest)]

variable [DecidableEq Node]

/-- The delivery of a frame, with every name lookup and every send going through. -/
structure Delivers (a : Action Node) : Prop where
  delivers : ∃ k env, a = .deliver k env
  succeeds : a.env.Succeeds

/-- `S` accepts the message `m` for `D`, in a quiet state that a run without failures has
led to and with every daemon in its loop. -/
structure Accepts (T : Topology Node) (S D : Node) (m : AppMsg) (s₀ s₁ : Net Node) : Prop where
  reached : ∃ h, Trace T.step (Net.initial Node) h s₀ ∧ ∀ x ∈ h, x.2.env.Succeeds
  quiet : Quiet s₀
  alive : ∀ n, s₀.alive n = true
  request : ∃ sparams env, env.Succeeds ∧ T.step s₀ (.request S sparams env) = some s₁
  accepted : s₁.accepted = s₀.accepted ++ [m]
  dest : m.destIp = T.ip D

/-- Deliveries after the message `m` was accepted.  `got` is what applications have got
since then, and `lost` what was dropped. -/
structure Underway (T : Topology Node) (S : Node) (m : AppMsg) (s₀ s : Net Node) : Prop where
  reached : ∃ h, Trace T.step (Net.initial Node) h s ∧ ∀ x ∈ h, x.2.env.Succeeds
  alive : ∀ n, s.alive n = true
  accepted : s.accepted = s₀.accepted ++ [m]
  ports : ∀ n, n ≠ S → (s.nodes n).ports = (s₀.nodes n).ports
  got : ∃ got, s.delivered = s₀.delivered ++ got ∧
    ∀ x ∈ got, fetchEntryPort x.2.dstPort (s.nodes x.1).ports ≠ none
  lost : ∃ lost, s.discarded = s₀.discarded ++ lost ∧
    ∀ x ∈ lost, fetchEntryPort x.2.dstPort (s.nodes x.1).ports = none

/-- A flood that starts on receipt of another frame is the request of a relay that parks
the frame. -/
theorem EthSends.parked {cfg : Config} {intfN : Int} {f : OdrFrame} {l : Learned}
    {dest : Option REntry} {st : NodeState} {type : FrameType} {t : Transmission}
    (hsends : EthSends cfg intfN f l dest st type t)
    (htype : FrameType.ofInt f.frameType = some type) (hf : isFlood f = false)
    (ht : isFlood t.host = true) :
    (type = .rrep ∨ type = .data) ∧ f.destIp ≠ cfg.selfIp ∧ dest = none := by
  cases hsends with
  | relay _ hin => simp [(isFlood_iff htype).mpr hin] at hf
  | answerOwn _ _ hhost => simp [hhost] at ht
  | answerCached _ _ _ hhost => simp [hhost] at ht
  | forwardRrep _ _ _ hhost => simp [hhost] at ht
  | releaseRrep _ _ _ _ hhost => simp [hhost] at ht
  | releaseData _ _ hdata _ hhost => simp [hhost, isFlood_iff hdata] at ht
  | forwardData _ _ _ hhost =>
      have hsame : isFlood t.host = isFlood f := by rw [hhost]; rfl
      simp [hsame, hf] at ht
  | request hin hself hdest => exact ⟨hin, hself, hdest⟩

section Step

variable {S D : Node} {m : AppMsg} {s₀ s₁ s s' : Net Node} {a : Action Node} {env : Env}
  {p : Packet Node} {k : Nat}

theorem Underway.framesWf (h : Underway T S m s₀ s) : FramesWf T s := by
  obtain ⟨_, ht, _⟩ := h.reached
  exact framesWf_of_trace quiet_initial ht

theorem Underway.routesExist (h : Underway T S m s₀ s) : RoutesExist T s := by
  obtain ⟨_, ht, _⟩ := h.reached
  exact routesExist_of_trace ht

/-- The request leaves everything but the node that takes it as it was. -/
theorem Accepts.underway (h : Accepts T S D m s₀ s₁) : Underway T S m s₀ s₁ := by
  obtain ⟨h₀, ht, henv₀⟩ := h.reached
  obtain ⟨sparams, env, henv, hs⟩ := h.request
  have hreached : ∃ h, Trace T.step (Net.initial Node) h s₁ ∧ ∀ x ∈ h, x.2.env.Succeeds :=
    ⟨_, ht.snoc hs, List.forall_mem_cons.mpr ⟨henv, henv₀⟩⟩
  have haccepted := h.accepted
  obtain ⟨_, _, _, ha, rfl⟩ | ⟨_, _, _, ha, _⟩ := step_cases hs
  swap
  · simp at ha
  obtain ⟨rfl, rfl, rfl⟩ := Action.request.inj ha
  -- an accepted message means that the handler returned 1
  have hexit : (handlePeerMsg (T.cfg S) env sparams (s₀.nodes S)).exit = .returned 1 := by
    by_contra hne
    simp [Topology.takeRequest, acceptedMsg, hne] at haccepted
  refine ⟨hreached, fun n => ?_, haccepted, fun n hn => ?_, ⟨[], ?_, by simp⟩, ⟨[], ?_, by simp⟩⟩
  · by_cases hn : n = S
    · simp [Topology.takeRequest, hn, hexit, Exit.survives]
    · simp [Topology.takeRequest, hn, h.alive n]
  · rw [takeRequest_nodes_of_ne _ _ _ _ hn]
  · simp [Topology.takeRequest]
  · simp [Topology.takeRequest]

theorem deliverPacket_ports (s : Net Node) (p : Packet Node) (rest : List (Packet Node))
    (env : Env) (n : Node) : ((T.deliverPacket s p rest env).nodes n).ports = (s.nodes n).ports :=
  forall_nodes_deliverPacket (fun n st => st.ports = (s.nodes n).ports) (fun _ => rfl)
    (handleEthernetMsg_ports ..).1 n

theorem processDataMessage_sent_port {f : OdrFrame} {ports : List MapPortSp}
    (h : (processDataMessage env ports f).sent? = some m) :
    fetchEntryPort f.dstPort ports ≠ none := by
  intro hnone
  simp [processDataMessage, hnone, PeerEvent.sent?] at h

theorem underway_step (hu : Underway T S m s₀ s) (hd : Delivers a)
    (hs : T.step s a = some s') : Underway T S m s₀ s' := by
  obtain ⟨h, ht, henv⟩ := hu.reached
  obtain ⟨k, env, rfl⟩ := hd.delivers
  have hreached : ∃ h, Trace T.step (Net.initial Node) h s' ∧ ∀ x ∈ h, x.2.env.Succeeds :=
    ⟨_, ht.snoc hs, List.forall_mem_cons.mpr ⟨hd.succeeds, henv⟩⟩
  obtain ⟨p, hk, rfl⟩ := step_deliver hs
  obtain ⟨got, hgot, hgotPort⟩ := hu.got
  obtain ⟨lost, hlost, hlostPort⟩ := hu.lost
  have hports := deliverPacket_ports (T := T) s p (s.flight.eraseIdx k) env
  refine ⟨hreached, fun n => ?_, hu.accepted, fun n hn => (hports n).trans (hu.ports n hn),
    ⟨_, by rw [Topology.deliverPacket, hgot, List.append_assoc], fun x hx => ?_⟩,
    ⟨_, by rw [Topology.deliverPacket, hlost, List.append_assoc], fun x hx => ?_⟩⟩
  · have hsurvives := handleEthernetMsg_survives hu.framesWf hu.routesExist hd.succeeds
      (List.mem_of_getElem? hk)
    by_cases hn : n = p.dst
    · rw [hn]
      simp only [Topology.deliverPacket, Function.update_self]
      exact hsurvives
    · simp [Topology.deliverPacket, hn, hu.alive n]
  · rw [hports]
    rcases List.mem_append.mp hx with hx | hx
    · exact hgotPort x hx
    · obtain ⟨msg, hmsg, rfl⟩ := List.mem_map.mp hx
      obtain ⟨ev, hev, hsent⟩ := List.mem_filterMap.mp hmsg
      obtain ⟨_, rfl⟩ := mem_events hev
      rw [processDataMessage_sent? hsent]
      exact processDataMessage_sent_port hsent
  · rw [hports]
    rcases List.mem_append.mp hx with hx | hx
    · exact hlostPort x hx
    · obtain ⟨msg, hmsg, rfl⟩ := List.mem_map.mp hx
      obtain ⟨ev, hev, hdropped⟩ := List.mem_filterMap.mp hmsg
      obtain ⟨_, rfl⟩ := mem_events hev
      obtain ⟨rfl, hport⟩ := processDataMessage_unknownPort? hdropped
      exact hport

/-- If the receiver does not park the frame, it leaves its queue alone or takes the first
frame for the source of a reply out of it. -/
theorem Receipt.pending_cases {type : FrameType} (hr : Receipt T s s' a env p type)
    (hpark : type = .rrep ∨ type = .data → p.host.destIp ≠ T.ip p.dst → destAt T s env p ≠ none)
    (n : Node) : (s'.nodes n).pending = (s.nodes n).pending ∨
      type = .rrep ∧ p.dst = n ∧ p.host.destIp = T.ip n ∧
        (s'.nodes n).pending = eraseKey PendingMsg.destip p.host.srcIp (s.nodes n).pending := by
  by_cases hn : n = p.dst
  swap
  · exact .inl (by rw [hr.others n hn])
  subst hn
  have hpending := hr.state.pending
  rw [hpending]
  by_cases hself : p.host.destIp = T.ip p.dst
  · have hself' : p.host.destIp = (T.cfg p.dst).selfIp := hself
    cases type with
    | rreq => exact .inl rfl
    | asent => exact .inl rfl
    | rrep => exact .inr ⟨rfl, rfl, hself, by simp only [pendingAfter, if_pos hself']⟩
    | data => exact .inl (by simp only [pendingAfter, if_pos hself'])
  · left
    have hself' : p.host.destIp ≠ (T.cfg p.dst).selfIp := hself
    cases type with
    | rreq => rfl
    | asent => rfl
    | rrep =>
        have hsome := hpark (.inl rfl) hself
        simp only [pendingAfter, if_neg hself']
        rw [if_neg (by simpa using hsome)]
    | data =>
        have hsome := hpark (.inr rfl) hself
        simp only [pendingAfter, if_neg hself']
        rw [if_neg (by simpa using hsome)]

/-- Every frame in flight can be delivered. -/
theorem Underway.enabled (hu : Underway T S m s₀ s) (hk : k < s.flight.length) (env : Env) :
    (T.step s (.deliver k env)).isSome = true := by
  simp [Topology.step, List.getElem?_eq_getElem hk, hu.alive]

/-- What a delivery does to the frames in flight: `p` is taken out, `rest` stays and `new`
comes in.  At most one of the new frames is not part of a flood. -/
structure Exchange (T : Topology Node) (s s' : Net Node) (a : Action Node) (env : Env)
    (p : Packet Node) (rest new : List (Packet Node)) : Prop where
  before : s.flight.Perm (p :: rest)
  after : s'.flight = rest ++ new
  sent : ∀ q ∈ new, ∃ type t, Receipt T s s' a env p type ∧
    EthSends (T.cfg p.dst) p.ifIndex p.host (learnedAt T s env p) (destAt T s env p)
      { s.nodes p.dst with table := (learnedAt T s env p).table } type t ∧
    q ∈ T.copies p.dst (relayTrail s.tick p t) t
  along : new.countP (fun q => !isFlood q.host) ≤ 1

theorem Underway.exchange (hu : Underway T S m s₀ s) (hk : s.flight[k]? = some p)
    (hs : T.step s (.deliver k env) = some s') :
    ∃ rest new, Exchange T s s' (.deliver k env) env p rest new := by
  obtain ⟨p', hk', rfl⟩ := step_deliver hs
  obtain rfl : p = p' := Option.some.inj (hk.symm.trans hk')
  have hp : p ∈ s.flight := List.mem_of_getElem? hk
  refine ⟨_, _, ?_, rfl, fun q hq => ?_, ?_⟩
  · obtain ⟨hlt, rfl⟩ := List.getElem?_eq_some_iff.mp hk
    exact (List.getElem_cons_eraseIdx_perm hlt).symm
  · obtain ⟨t, ht, hqt⟩ := List.mem_flatMap.mp hq
    obtain ⟨type, hproc, _, hsends⟩ := handleEthernetMsg_sends ht
    exact ⟨type, t, receipt_of_processed hk hproc, hsends, hqt⟩
  · refine handleEthernetMsg_oneFlood.countP_along_le (relayTrail s.tick p) fun t ht hflood => ?_
    obtain ⟨type, _, _, hsends⟩ := handleEthernetMsg_sends ht
    rcases hsends.flood_or_along fun q hq => (hu.framesWf.pending p.dst q hq).key with
      h | ⟨halong, _⟩ | ⟨d, hd, halong, _⟩
    · simp [hflood] at h
    · obtain ⟨w, hnext⟩ := nextHop_learned env hu.framesWf hu.routesExist hp
      exact copies_of_along halong hnext
    · obtain ⟨w, hnext⟩ := nextHop_dest hu.framesWf hu.routesExist hp hd
      exact copies_of_along halong hnext

theorem Exchange.mem_rest {rest new : List (Packet Node)} {q : Packet Node}
    (hx : Exchange T s s' a env p rest new) (hq : q ∈ rest) : q ∈ s.flight :=
  hx.before.mem_iff.mpr (List.mem_cons_of_mem _ hq)

/-- Weights in flight, where the weight of a frame may change with the state and `c` bounds
the weight of a new frame that is not part of a flood. -/
theorem Exchange.weigh_le {rest new : List (Packet Node)} {w w' : Packet Node → ℕ} {c : ℕ}
    (hx : Exchange T s s' a env p rest new) (hrest : ∀ q ∈ rest, w' q ≤ w q)
    (hnew : ∀ q ∈ new, w' q ≤ if !isFlood q.host then c else 0) :
    w p + weigh w' s'.flight ≤ weigh w s.flight + c := by
  have hkept := weigh_le_weigh hrest
  have hsent := weigh_le_of_countP_le_one hx.along hnew
  rw [hx.after, weigh_append, weigh_perm hx.before, weigh_cons]
  omega

variable [Fintype Node]

/-- The message is in one place. -/
theorem Underway.balance (hu : Underway T S m s₀ s) (h₀ : Accepts T S D m s₀ s₁) :
    ∃ got lost, s.delivered = s₀.delivered ++ got ∧ s.discarded = s₀.discarded ++ lost ∧
      (flightMsgs s.flight : Multiset AppMsg) +
        ∑ n, (queuedMsgs (s.nodes n).pending : Multiset AppMsg) +
        (got.map Prod.snd : Multiset AppMsg) + (lost.map Prod.snd : Multiset AppMsg) = {m} := by
  obtain ⟨h, ht, henv⟩ := hu.reached
  obtain ⟨h₁, ht₁, henv₁⟩ := h₀.reached
  obtain ⟨got, hgot, _⟩ := hu.got
  obtain ⟨lost, hlost, _⟩ := hu.lost
  refine ⟨got, lost, hgot, hlost, ?_⟩
  ext x
  have hafter := conserved_of_trace ht henv x
  have hbefore := conserved_of_trace ht₁ henv₁ x
  rw [hu.accepted, hgot, hlost] at hafter
  simp only [h₀.quiet.flight, h₀.quiet.pending, flightMsgs, queuedMsgs, List.filterMap_nil,
    List.count_nil, Finset.sum_const_zero] at hbefore
  simp only [List.map_append, List.count_append] at hafter
  simp only [Multiset.count_add, Multiset.count_sum', Multiset.coe_count]
  have hone : Multiset.count x {m} = [m].count x := by
    rw [← Multiset.coe_count]
    rfl
  omega

/-- At most one frame in flight carries it. -/
theorem Underway.flightMsgs_length_le (hu : Underway T S m s₀ s) (h₀ : Accepts T S D m s₀ s₁) :
    (flightMsgs s.flight).length ≤ 1 := by
  obtain ⟨got, lost, _, _, hsum⟩ := hu.balance h₀
  have hcard := congrArg Multiset.card hsum
  simp only [Multiset.card_add, Multiset.card_singleton, Multiset.coe_card] at hcard
  omega

/-- The message has come to its end at `D`: an application has got it if there is one at
its port, and otherwise it was dropped. -/
def Arrived (D : Node) (m : AppMsg) (s₀ s : Net Node) : Prop :=
  if fetchEntryPort m.dstPort (s₀.nodes D).ports ≠ none then
    s.delivered = s₀.delivered ++ [(D, m)] ∧ s.discarded = s₀.discarded
  else s.delivered = s₀.delivered ∧ s.discarded = s₀.discarded ++ [(D, m)]

/-- When nothing is in flight or queued any more, the message has come to its end. -/
theorem Underway.arrived (hu : Underway T S m s₀ s) (h₀ : Accepts T S D m s₀ s₁) (hne : D ≠ S)
    (hdone : Quiet s) : Arrived D m s₀ s := by
  obtain ⟨h, ht, _⟩ := hu.reached
  have hends := endsAtDestination_of_trace ht
  obtain ⟨got, hgot, hgotPort⟩ := hu.got
  obtain ⟨lost, hlost, hlostPort⟩ := hu.lost
  obtain ⟨got', lost', hgot', hlost', hsum⟩ := hu.balance h₀
  obtain rfl : got = got' := List.append_cancel_left (hgot.symm.trans hgot')
  obtain rfl : lost = lost' := List.append_cancel_left (hlost.symm.trans hlost')
  have hsum' : (got.map Prod.snd : Multiset AppMsg) + (lost.map Prod.snd : Multiset AppMsg) =
      {m} := by
    rw [← hsum]
    simp [hdone.flight, hdone.pending, flightMsgs, queuedMsgs]
  have hport := hu.ports D hne
  rw [Multiset.coe_add, Multiset.coe_eq_singleton] at hsum'
  rw [Arrived]
  rcases List.append_eq_singleton_iff.mp hsum' with ⟨hnil, hone⟩ | ⟨hone, hnil⟩
  · have hl := eq_singleton_of_map_snd (T := T) hone
      (fun x hx => (hends.discarded x (hlost ▸ List.mem_append_right _ hx)).1) h₀.dest
    have hnone := hlostPort (D, m) (by simp [hl])
    rw [hport] at hnone
    rw [if_neg (by simp [hnone]), hgot, hlost, hl, List.map_eq_nil_iff.mp hnil, List.append_nil]
    exact ⟨rfl, rfl⟩
  · have hl := eq_singleton_of_map_snd (T := T) hone
      (fun x hx => hends.delivered x (hgot ▸ List.mem_append_right _ hx)) h₀.dest
    have hsome := hgotPort (D, m) (by simp [hl])
    rw [hport] at hsome
    rw [if_pos hsome, hgot, hlost, hl, List.map_eq_nil_iff.mp hnil, List.append_nil]
    exact ⟨rfl, rfl⟩

end Step

end OnDemandRouting.Proofs
