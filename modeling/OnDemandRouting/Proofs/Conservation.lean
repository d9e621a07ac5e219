import Mathlib.Algebra.BigOperators.Group.Finset.Basic
import Mathlib.Algebra.BigOperators.Pi
import Mathlib.Algebra.Order.BigOperators.Group.Multiset
import OnDemandRouting.Proofs.MessageBalance
import OnDemandRouting.Proofs.Provenance

/-!
# Conservation of application messages

A message accepted for another node is in one place at a time: on the wire, in one
queue, with the application, or dropped at its destination for want of a port.  A
frame that is sent along a route reaches exactly one interface, because a route
names a neighbour and hardware addresses are unique on a segment.
-/

namespace OnDemandRouting.Proofs

open OnDemandRouting.Lib
open OnDemandRouting.Model

variable {Node : Type} {T : Topology Node}

/-- The messages in flight. -/
def flightMsgs (flight : List (Packet Node)) : List AppMsg :=
  flight.filterMap fun p => dataMsg? p.host

/-- What a call reports comes from a DATA frame for the node. -/
theorem mem_events {s : Net Node} {env : Env} {p : Packet Node} {ev : PeerEvent}
    (h : ev ∈ (handleEthernetMsg (T.cfg p.dst) env p.ifIndex p.srcMac p.frame
      (s.nodes p.dst)).events) :
    p.host.destIp = T.ip p.dst ∧
      ev = processDataMessage env (s.nodes p.dst).ports p.host := by
  rcases handleEthernetMsg_cases (T.cfg p.dst) env p.ifIndex p.srcMac p.frame (s.nodes p.dst)
    with ⟨_, heq⟩ | ⟨_, _, _, _, heq⟩ | ⟨type, _, heq⟩
  · simp [heq] at h
  · simp [heq] at h
  · rw [heq, Reaction.outcome_events, reaction] at h
    obtain ⟨hself, hev⟩ := mem_react_events h
    exact ⟨hself, hev⟩

variable [DecidableEq Node]

/-! ## Frames sent along a route -/

section Copies

variable {n m : Node} {e : REntry} {t : Transmission} {trail : List (RelayEvent Node)}

/-- A frame sent along a route reaches one interface. -/
theorem copies_of_along (halong : Along (T.cfg n) e t) (hnext : NextHop T n e m) :
    ∃ q, T.copies n trail t = [q] := by
  have hne := hnext.ne_broadcast
  obtain ⟨j, hj, hmac⟩ := hnext
  have hmem : (m, j) ∈ T.receivers n t := by
    rw [Topology.receivers, halong.index, halong.dest]
    exact List.mem_filter.mpr ⟨hj, by simp [hmac]⟩
  have hall : ∀ q ∈ T.receivers n t, q = (m, j) := by
    intro q hq
    rw [Topology.receivers, halong.index, halong.dest] at hq
    obtain ⟨hpeers, hdest⟩ := List.mem_filter.mp hq
    have hq : T.haddr q = some e.nextHop := by simpa [hne] using hdest
    exact haddr_injOn hpeers hj (hq.trans hmac.symm)
  have hnodup : (T.receivers n t).Nodup := (peers_nodup n t.intIndex).filter _
  have hone : T.receivers n t = [(m, j)] := by
    rw [List.eq_replicate_of_mem hall] at hnodup hmem ⊢
    have hle := List.nodup_replicate.mp hnodup
    have hpos : (T.receivers n t).length ≠ 0 := by
      intro hzero
      simp [hzero] at hmem
    rw [show (T.receivers n t).length = 1 by omega]
    rfl
  exact ⟨_, by rw [Topology.copies, hone, List.map_singleton]⟩

theorem count_flightMsgs_copies
    (hone : dataMsg? t.host ≠ none → ∃ q, T.copies n trail t = [q]) (msg : AppMsg) :
    (flightMsgs (T.copies n trail t)).count msg = (dataMsg? t.host).toList.count msg := by
  cases hmsg : dataMsg? t.host with
  | none =>
      have hnil : flightMsgs (T.copies n trail t) = [] := by
        refine List.filterMap_eq_nil_iff.mpr fun q hq => ?_
        rw [host_of_mem_copies hq, hmsg]
      rw [hnil]
      rfl
  | some msg' =>
      obtain ⟨q, hq⟩ := hone (by simp [hmsg])
      have hhost : dataMsg? q.host = some msg' := by
        rw [host_of_mem_copies (show q ∈ T.copies n trail t by simp [hq]), hmsg]
      simp [hq, flightMsgs, hhost]

/-- Messages sent are messages in flight, one for one. -/
theorem count_flightMsgs_sent (ts : List Transmission)
    (tr : Transmission → List (RelayEvent Node))
    (hone : ∀ t ∈ ts, dataMsg? t.host ≠ none → ∃ q, T.copies n (tr t) t = [q]) (msg : AppMsg) :
    (flightMsgs (ts.flatMap fun t => T.copies n (tr t) t)).count msg =
      (sentMsgs ts).count msg := by
  induction ts with
  | nil => rfl
  | cons t ts ih =>
      obtain ⟨hhead, htail⟩ := List.forall_mem_cons.mp hone
      have hcopies := count_flightMsgs_copies hhead msg
      rw [List.flatMap_cons, flightMsgs, List.filterMap_append, List.count_append, sentMsgs_cons,
        List.count_append, ← ih htail, ← hcopies]
      rfl

end Copies

/-! ## Steps -/

/-- Every accepted message is in exactly one place, counted per message. -/
def Conserved [Fintype Node] (s : Net Node) : Prop :=
  ∀ m, s.accepted.count m = (flightMsgs s.flight).count m +
    ∑ n, (queuedMsgs (s.nodes n).pending).count m + (s.delivered.map Prod.snd).count m +
    (s.discarded.map Prod.snd).count m

/-- Every entry names a neighbour. -/
def RoutesExist (T : Topology Node) (s : Net Node) : Prop :=
  ∀ n, ∀ e ∈ (s.nodes n).table, ∃ m, NextHop T n e m

section Step

variable {s s' : Net Node} {a : Action Node} {env : Env} {p : Packet Node}

theorem sum_queued_update [Fintype Node] (nodes : Node → NodeState) (k : Node) (st : NodeState)
    (m : AppMsg) : ∑ n, (queuedMsgs (Function.update nodes k st n).pending).count m +
      (queuedMsgs (nodes k).pending).count m =
    ∑ n, (queuedMsgs (nodes n).pending).count m + (queuedMsgs st.pending).count m := by
  have hrest : ∑ n ∈ Finset.univ.erase k,
        (queuedMsgs (Function.update nodes k st n).pending).count m =
      ∑ n ∈ Finset.univ.erase k, (queuedMsgs (nodes n).pending).count m := by
    refine Finset.sum_congr rfl fun n hn => ?_
    rw [Function.update_of_ne (Finset.ne_of_mem_erase hn)]
  rw [← Finset.add_sum_erase Finset.univ _ (Finset.mem_univ k),
    ← Finset.add_sum_erase Finset.univ (fun n => (queuedMsgs (nodes n).pending).count m)
      (Finset.mem_univ k), hrest, Function.update_self]
  omega

/-- The route learned from a frame in flight names a neighbour. -/
theorem nextHop_learned (env : Env) (hwf : FramesWf T s) (hroutes : RoutesExist T s)
    (hp : p ∈ s.flight) : ∃ m, NextHop T p.dst (learnedAt T s env p).entry m := by
  rcases learnedAt_cases s env p with hnew | hold
  · obtain ⟨m, hsender⟩ := (hwf.flight p hp).2
    exact ⟨m, hnew ▸ hsender.nextHop⟩
  · exact hroutes p.dst _ hold

theorem nextHop_dest (hwf : FramesWf T s) (hroutes : RoutesExist T s) (hp : p ∈ s.flight)
    {d : REntry} (hd : destAt T s env p = some d) : ∃ m, NextHop T p.dst d m := by
  have hne := (hwf.flight p hp).1.src_ne_dest
  exact hroutes p.dst d (route_mem (route_of_derefDest hne hd)).1

/-- A message that is sent on receipt of a frame reaches one interface. -/
theorem copies_of_message {type : FrameType} {t : Transmission} {trail : List (RelayEvent Node)}
    (hwf : FramesWf T s) (hroutes : RoutesExist T s) (hp : p ∈ s.flight)
    (hsends : EthSends (T.cfg p.dst) p.ifIndex p.host (learnedAt T s env p) (destAt T s env p)
      { s.nodes p.dst with table := (learnedAt T s env p).table } type t)
    (hmsg : dataMsg? t.host ≠ none) : ∃ q, T.copies p.dst trail t = [q] := by
  rcases hsends.flood_or_along fun q hq => (hwf.pending p.dst q hq).key with
    hflood | ⟨halong, _⟩ | ⟨d, hd, halong, _⟩
  · refine absurd ?_ hmsg
    rw [dataMsg?, if_neg]
    intro hdata
    rw [isFlood_iff hdata] at hflood
    simp at hflood
  · obtain ⟨m, hnext⟩ := nextHop_learned env hwf hroutes hp
    exact copies_of_along halong hnext
  · obtain ⟨m, hnext⟩ := nextHop_dest hwf hroutes hp hd
    exact copies_of_along halong hnext

theorem conserved_request [Fintype Node] {n : Node} {sparams : SendParams}
    (hroutes : RoutesExist T s) (henv : env.Succeeds) (hcons : Conserved s) :
    Conserved (T.takeRequest s n sparams env) := by
  intro m
  have hcall := handlePeerMsg_call (T.cfg n) env sparams (s.nodes n)
  have hbalance := hcall.balance henv (fun e he => (hroutes n e he).choose_spec.hasInterface) m
  have hsum := sum_queued_update s.nodes n (handlePeerMsg (T.cfg n) env sparams (s.nodes n)).node m
  have hone : ∀ t ∈ (handlePeerMsg (T.cfg n) env sparams (s.nodes n)).sent,
      dataMsg? t.host ≠ none → ∃ q, T.copies n [] t = [q] := by
    intro t ht hmsg
    cases hcall.sends ht with
    | request _ _ _ hhost =>
        rw [hhost] at hmsg
        exact absurd (dataMsg?_floodFrame (.inl rfl) _ _ _ _ _ _ _) hmsg
    | data _ hentry halong =>
        obtain ⟨m, hnext⟩ := hroutes n _ (route_mem (getREntry_entry hentry).1).1
        exact copies_of_along halong hnext
  have hsent := count_flightMsgs_sent _ (fun _ => []) hone m
  have hold := hcons m
  simp only [Topology.takeRequest, flightMsgs, List.filterMap_append, List.count_append] at *
  omega

/-- A delivered frame leaves the wire, and its call moves what it carries. -/
theorem balance_deliver (hwf : FramesWf T s) (hroutes : RoutesExist T s) (henv : env.Succeeds)
    (hp : p ∈ s.flight) (m : AppMsg) :
    let o := handleEthernetMsg (T.cfg p.dst) env p.ifIndex p.srcMac p.frame (s.nodes p.dst)
    (sentMsgs o.sent).count m + (queuedMsgs o.node.pending).count m +
        (handedMsgs o.events).count m + (droppedMsgs o.events).count m =
      (dataMsg? p.host).toList.count m + (queuedMsgs (s.nodes p.dst).pending).count m := by
  intro o
  obtain ⟨hok, m', hsender⟩ := hwf.flight p hp
  rcases handleEthernetMsg_cases (T.cfg p.dst) env p.ifIndex p.srcMac p.frame (s.nodes p.dst)
    with ⟨hdup, heq⟩ | ⟨_, hbad, _⟩ | ⟨type, hproc, heq⟩
  · -- the filter drops only frames with the route discovery flag
    have hflag : p.host.routeDiscFlag = 1 := (of_decide_eq_true hdup).1
    have hnone : dataMsg? p.host = none := by
      rw [dataMsg?, if_neg]
      intro hdata
      exact hok.data_flag (FrameType.toInt_of_ofInt hdata) hflag
    simp only [o, heq, hnone]
    simp [sentMsgs, handedMsgs, droppedMsgs]
  · exfalso
    obtain ⟨type, htype⟩ := hok.type_ok
    rcases hbad with hnames | hnone
    · exact hnames ⟨henv.resolves _, henv.resolves _⟩
    · rw [Packet.host_eq, hnone] at htype
      simp at htype
  · have hl : HasInterface (T.cfg p.dst) (learnedAt T s env p).entry :=
      (nextHop_learned env hwf hroutes hp).choose_spec.hasInterface
    have hd : ∀ d, destAt T s env p = some d → HasInterface (T.cfg p.dst) d :=
      fun d hd => (nextHop_dest hwf hroutes hp hd).choose_spec.hasInterface
    have hbalanced : Balanced env (T.cfg p.dst).selfIp p.host (s.nodes p.dst).pending
        (reaction (T.cfg p.dst) env p.ifIndex p.srcMac p.host (s.nodes p.dst) type) :=
      balanced_react henv hproc.type_eq hl hd fun q hq => (hwf.pending p.dst q hq).type_ok
    simp only [o, heq, Reaction.outcome_node, Reaction.outcome_events]
    exact hbalanced m _

theorem conserved_deliver [Fintype Node] {k : Nat} (hk : s.flight[k]? = some p)
    (hwf : FramesWf T s) (hroutes : RoutesExist T s) (henv : env.Succeeds)
    (hcons : Conserved s) : Conserved (T.deliverPacket s p (s.flight.eraseIdx k) env) := by
  intro m
  have hp : p ∈ s.flight := List.mem_of_getElem? hk
  have hbalance := balance_deliver hwf hroutes henv hp m
  have hsum := sum_queued_update s.nodes p.dst
    (handleEthernetMsg (T.cfg p.dst) env p.ifIndex p.srcMac p.frame (s.nodes p.dst)).node m
  have hone : ∀ t ∈ (handleEthernetMsg (T.cfg p.dst) env p.ifIndex p.srcMac p.frame
      (s.nodes p.dst)).sent, dataMsg? t.host ≠ none →
      ∃ q, T.copies p.dst (relayTrail s.tick p t) t = [q] := by
    intro t ht hmsg
    obtain ⟨type, _, _, hsends⟩ := handleEthernetMsg_sends ht
    exact copies_of_message hwf hroutes hp hsends hmsg
  have hsent := count_flightMsgs_sent _ (relayTrail s.tick p) hone m
  have htaken : (flightMsgs s.flight).count m = (dataMsg? p.host).toList.count m +
      (flightMsgs (s.flight.eraseIdx k)).count m := by
    obtain ⟨hlt, rfl⟩ := List.getElem?_eq_some_iff.mp hk
    have hperm := (List.getElem_cons_eraseIdx_perm hlt).symm.filterMap fun p => dataMsg? p.host
    rw [flightMsgs, hperm.count_eq, filterMap_cons_toList, List.count_append]
    rfl
  have hold := hcons m
  simp only [Topology.deliverPacket, flightMsgs, handedMsgs, droppedMsgs, List.filterMap_append,
    List.count_append, List.map_append, List.map_map] at *
  have hsnd (l : List AppMsg) : List.map (Prod.snd ∘ fun msg => (p.dst, msg)) l = l := by
    simp [Function.comp_def]
  rw [hsnd, hsnd]
  omega

/-- Messages end at their destination: with an application, or dropped there because
nobody had their port. -/
structure EndsAtDestination (T : Topology Node) (h : List (Net Node × Action Node))
    (s : Net Node) : Prop where
  delivered : ∀ x ∈ s.delivered, T.ip x.1 = x.2.destIp
  discarded : ∀ x ∈ s.discarded, T.ip x.1 = x.2.destIp ∧
    ∃ y ∈ h, fetchEntryPort x.2.dstPort (y.1.nodes x.1).ports = none

theorem endsAtDestination_step {h : List (Net Node × Action Node)}
    (hends : EndsAtDestination T h s) (hs : T.step s a = some s') :
    EndsAtDestination T ((s, a) :: h) s' := by
  have hold : ∀ x ∈ s.discarded, T.ip x.1 = x.2.destIp ∧
      ∃ y ∈ (s, a) :: h, fetchEntryPort x.2.dstPort (y.1.nodes x.1).ports = none := by
    intro x hx
    obtain ⟨hip, y, hy, hport⟩ := hends.discarded x hx
    exact ⟨hip, y, List.mem_cons_of_mem _ hy, hport⟩
  rcases step_cases hs with ⟨n, sparams, env, rfl, rfl⟩ | ⟨k, env, p, rfl, hk, rfl⟩
  · exact ⟨hends.delivered, hold⟩
  · constructor
    · intro x hx
      rcases List.mem_append.mp hx with hx | hx
      · exact hends.delivered x hx
      · obtain ⟨m, hm, rfl⟩ := List.mem_map.mp hx
        obtain ⟨ev, hev, hsent⟩ := List.mem_filterMap.mp hm
        obtain ⟨hself, rfl⟩ := mem_events hev
        rw [processDataMessage_sent? hsent]
        exact hself.symm
    · intro x hx
      rcases List.mem_append.mp hx with hx | hx
      · exact hold x hx
      · obtain ⟨m, hm, rfl⟩ := List.mem_map.mp hx
        obtain ⟨ev, hev, hdropped⟩ := List.mem_filterMap.mp hm
        obtain ⟨hself, rfl⟩ := mem_events hev
        obtain ⟨rfl, hport⟩ := processDataMessage_unknownPort? hdropped
        exact ⟨hself.symm, _, List.mem_cons_self, hport⟩

theorem endsAtDestination_of_trace {h : List (Net Node × Action Node)}
    (ht : Trace T.step (Net.initial Node) h s) : EndsAtDestination T h s := by
  induction ht with
  | nil => exact ⟨by simp [Net.initial], by simp [Net.initial]⟩
  | snoc ht hs ih => exact endsAtDestination_step ih hs

theorem routesExist_of_trace {h : List (Net Node × Action Node)}
    (ht : Trace T.step (Net.initial Node) h s) : RoutesExist T s := by
  intro n e he
  obtain ⟨m, hnext, _⟩ := (provenance_of_trace ht).table n e he
  exact ⟨m, hnext⟩

theorem conserved_of_trace [Fintype Node] {h : List (Net Node × Action Node)}
    (ht : Trace T.step (Net.initial Node) h s) (henv : ∀ x ∈ h, x.2.env.Succeeds) :
    Conserved s := by
  induction ht with
  | nil => simp [Conserved, Net.initial, NodeState.initial, flightMsgs, queuedMsgs]
  | snoc ht hs ih =>
      obtain ⟨hlast, hbefore⟩ := List.forall_mem_cons.mp henv
      have hwf := framesWf_of_trace quiet_initial ht
      have hroutes := routesExist_of_trace ht
      rcases step_cases hs with ⟨n, sparams, env, rfl, rfl⟩ | ⟨k, env, p, rfl, hk, rfl⟩
      · exact conserved_request hroutes hlast (ih hbefore)
      · exact conserved_deliver hk hwf hroutes hlast (ih hbefore)

end Step

/-! ## Every message is in exactly one place -/

end OnDemandRouting.Proofs
