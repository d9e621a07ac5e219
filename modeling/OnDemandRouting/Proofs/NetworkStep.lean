import Mathlib.Data.List.Lattice
import Mathlib.Data.List.Pairwise
import OnDemandRouting.Lib.Trace
import OnDemandRouting.Proofs.HandlerSpec

/-!
# What one step of the network can do

A `Receipt` is the delivery of a frame that gets into the switch.  Being on one segment is
symmetric and transitive, and a hardware address picks out one interface of a segment.
`preserve` is the rule the invariants of later modules are proved by.  It reduces a step to
what is added: an entry for the source of the received frame, a queued frame, and copies
of the frames that `EthSends` and `PeerSends` list.
-/

namespace OnDemandRouting.Proofs

open OnDemandRouting.Lib
open OnDemandRouting.Model

variable {Node : Type} {T : Topology Node}

/-! ## Hardware addresses -/

section Addresses

variable {n : Node} {t : Transmission}

theorem haddr_of_along {e : REntry} (h : Along (T.cfg n) e t) :
    T.haddr (n, t.intIndex) = some t.srcMac := by
  rw [Topology.haddr, h.index]
  exact h.haddr

theorem haddr_of_record {r : HwaInfo} (hr : r ∈ (T.cfg n).hwa) :
    T.haddr (n, r.ifIndex) = some r.ifHaddr := by
  obtain ⟨mac, hmac⟩ := getHwaddrFromInt_of_mem hr rfl
  obtain ⟨r', hr', hindex, rfl⟩ := getHwaddrFromInt_mem hmac
  rw [Topology.haddr, hmac, T.hwa_haddr n r' hr' r hr hindex]

theorem haddr_of_flooded {i : Int} (h : Flooded (T.cfg n) i t) :
    T.haddr (n, t.intIndex) = some t.srcMac := by
  obtain ⟨r, hr, _, hindex, hmac⟩ := h.record
  rw [hindex, hmac]
  exact haddr_of_record hr

theorem haddr_ne_broadcast {x : Node × Int} {mac : Mac} (h : T.haddr x = some mac) :
    mac ≠ broadcastMac := by
  obtain ⟨r, hr, _, rfl⟩ := getHwaddrFromInt_mem h
  exact T.haddr_ne_broadcast _ r hr

end Addresses

/-! ## Received frames -/

section Receipts

variable {s s' : Net Node} {a : Action Node}

/-- The node a step runs at and the outcome of its handler. -/
def outcomeAt (T : Topology Node) (s : Net Node) : Action Node → Option (Node × Outcome)
  | .request n sparams env => some (n, handlePeerMsg (T.cfg n) env sparams (s.nodes n))
  | .deliver k env =>
      (s.flight[k]?).map fun p =>
        (p.dst, handleEthernetMsg (T.cfg p.dst) env p.ifIndex p.srcMac p.frame (s.nodes p.dst))

theorem outcomeAt_deliver {k : Nat} {env : Env} {p : Packet Node}
    (hk : s.flight[k]? = some p) :
    outcomeAt T s (.deliver k env) = some (p.dst,
      handleEthernetMsg (T.cfg p.dst) env p.ifIndex p.srcMac p.frame (s.nodes p.dst)) := by
  simp only [outcomeAt, hk, Option.map_some]

/-- In this step a lookup of `n` unlinks its entry for `ip`. -/
def Deletes (T : Topology Node) (s : Net Node) (a : Action Node) (n : Node) (ip : Ip) : Prop :=
  ∃ o, outcomeAt T s a = some (n, o) ∧ ip ∈ o.deleted

/-- The step deletes no entry, as a test. -/
def keepsEntries (T : Topology Node) (x : Net Node × Action Node) : Bool :=
  (outcomeAt T x.1 x.2).all fun o => o.2.deleted.isEmpty

theorem not_deletes_of_keepsEntries {h : List (Net Node × Action Node)}
    (hall : h.all (keepsEntries T) = true) : ∀ x ∈ h, ∀ n ip, ¬ Deletes T x.1 x.2 n ip := by
  rintro x hx n ip ⟨o, ho, hmem⟩
  have hkeep := List.all_eq_true.mp hall x hx
  simp only [keepsEntries, ho, Option.all_some, List.isEmpty_iff] at hkeep
  simp [hkeep] at hmem

/-- The source's route as the receiver of `p` learns it. -/
def learnedAt (T : Topology Node) (s : Net Node) (env : Env) (p : Packet Node) : Learned :=
  learnedRoute (T.cfg p.dst) env p.ifIndex p.srcMac p.host (s.nodes p.dst)

/-- The entry the receiver of `p` has for the destination. -/
def destAt (T : Topology Node) (s : Net Node) (env : Env) (p : Packet Node) : Option REntry :=
  derefDest (T.cfg p.dst) env p.ifIndex p.srcMac p.host (s.nodes p.dst)

/-- The step delivers `p` and the receiver runs the case `type` of the switch. -/
structure Receipt (T : Topology Node) (s s' : Net Node) (a : Action Node) (env : Env)
    (p : Packet Node) (type : FrameType) : Prop where
  action : ∃ k, a = .deliver k env ∧ s.flight[k]? = some p
  processed : Processed env p.host (s.nodes p.dst) type
  state : ReactState (T.cfg p.dst) p.host (destAt T s env p) type
    { s.nodes p.dst with table := (learnedAt T s env p).table } (s'.nodes p.dst)
  others : ∀ n, n ≠ p.dst → s'.nodes n = s.nodes n

theorem Receipt.mem {env : Env} {p : Packet Node} {type : FrameType}
    (h : Receipt T s s' a env p type) : p ∈ s.flight := by
  obtain ⟨k, _, hk⟩ := h.action
  exact List.mem_of_getElem? hk

/-- The learned entry is the receiver's route to the source after the step. -/
theorem Receipt.route_src {env : Env} {p : Packet Node} {type : FrameType}
    (h : Receipt T s s' a env p type) :
    route (s'.nodes p.dst).table p.host.srcIp = some (learnedAt T s env p).entry := by
  rw [h.state.table]
  exact route_learnedRoute_self p.host

/-- What the receipt of a frame does not delete. -/
theorem Receipt.not_deleted {env : Env} {p : Packet Node} {type : FrameType} {ip : Ip}
    (hr : Receipt T s s' a env p type) (h : ¬ Deletes T s a p.dst ip) :
    ip ∉ deletedBy (T.cfg p.dst) env p.host (s.nodes p.dst) := by
  intro hmem
  obtain ⟨k, rfl, hk⟩ := hr.action
  refine h ⟨_, outcomeAt_deliver hk, ?_⟩
  rw [handleEthernetMsg_of_processed hr.processed, Reaction.outcome_deleted]
  exact hmem

/-- A relay that deletes nothing finds the route it has. -/
theorem Receipt.destAt_eq {env : Env} {p : Packet Node} {type : FrameType}
    (hr : Receipt T s s' a env p type) (hne : p.host.srcIp ≠ p.host.destIp)
    (h : ¬ Deletes T s a p.dst p.host.destIp) :
    destAt T s env p = route (s.nodes p.dst).table p.host.destIp :=
  derefDest_eq_route hne (hr.not_deleted h)

theorem learnedAt_destip (s : Net Node) (env : Env) (p : Packet Node) :
    (learnedAt T s env p).entry.destip = p.host.srcIp :=
  (route_mem (route_learnedRoute_self p.host)).2

/-- The learned entry is rewritten from the frame or was there before. -/
theorem learnedAt_cases (s : Net Node) (env : Env) (p : Packet Node) :
    (learnedAt T s env p).entry = updateREntry p.host p.ifIndex p.srcMac env.updateTime ∨
      (learnedAt T s env p).entry ∈ (s.nodes p.dst).table := by
  rcases learnSource_cases p.host p.ifIndex p.srcMac env.updateTime
    (srcLookup (T.cfg p.dst) env p.host (s.nodes p.dst)) with ⟨_, hnew, _⟩ | ⟨_, hold, _⟩
  · exact .inl hnew
  · exact .inr (mem_srcLookup_table (route_mem (srcLookup_entry hold)).1)

/-- The frame a step takes out of a pending queue: a reply that reaches its
destination releases the first frame that waits for the reply's source. -/
def releasedAt (T : Topology Node) (s : Net Node) : Action Node → Option (Node × OdrFrame)
  | .request _ _ _ => none
  | .deliver k env =>
      (s.flight[k]?).bind fun p =>
        if Processed env p.host (s.nodes p.dst) .rrep ∧ p.host.destIp = T.ip p.dst then
          (findKey PendingMsg.destip p.host.srcIp (s.nodes p.dst).pending).map fun q =>
            (p.dst, q.odrframe)
        else none

/-- The entry a step answers a request from: a request reaches a node that is not
its destination and has a route to it. -/
def cachedAnswerAt (T : Topology Node) (s : Net Node) : Action Node → Option (Node × REntry)
  | .request _ _ _ => none
  | .deliver k env =>
      (s.flight[k]?).bind fun p =>
        if Processed env p.host (s.nodes p.dst) .rreq ∧ p.host.destIp ≠ T.ip p.dst then
          (destAt T s env p).map fun d => (p.dst, d)
        else none

theorem Receipt.releasedAt_eq {env : Env} {p : Packet Node} {q : PendingMsg}
    (hr : Receipt T s s' a env p .rrep) (hself : p.host.destIp = T.ip p.dst)
    (hq : findKey PendingMsg.destip p.host.srcIp (s.nodes p.dst).pending = some q) :
    releasedAt T s a = some (p.dst, q.odrframe) := by
  obtain ⟨k, rfl, hk⟩ := hr.action
  simp [releasedAt, hk, hr.processed, hself, hq]

theorem Receipt.cachedAnswerAt_eq {env : Env} {p : Packet Node} {d : REntry}
    (hr : Receipt T s s' a env p .rreq) (hself : p.host.destIp ≠ T.ip p.dst)
    (hd : destAt T s env p = some d) : cachedAnswerAt T s a = some (p.dst, d) := by
  obtain ⟨k, rfl, hk⟩ := hr.action
  simp [cachedAnswerAt, hk, hr.processed, hself, hd]

end Receipts

/-! ## Neighbours -/

variable [DecidableEq Node]

/-- The pair (interface, next hop) of the entry `e` of `n` identifies the
neighbour `m`. -/
def NextHop (T : Topology Node) (n : Node) (e : REntry) (m : Node) : Prop :=
  ∃ j, (m, j) ∈ T.peers n e.ifNo ∧ T.haddr (m, j) = some e.nextHop

/-- The copy `p` was sent by `m`. -/
def Sender (T : Topology Node) (p : Packet Node) (m : Node) : Prop :=
  ∃ j, (m, j) ∈ T.peers p.dst p.ifIndex ∧ T.haddr (m, j) = some p.srcMac

/-- Two nodes have interfaces on a common segment. -/
def Linked (T : Topology Node) (n m : Node) : Prop := ∃ i j, (m, j) ∈ T.peers n i

/-! ## Segments -/

section Segments

variable {n m : Node} {i j : Int} {q q' : Node × Int}

theorem mem_peers : q ∈ T.peers n i ↔
    ∃ seg ∈ T.segments, (n, i) ∈ seg ∧ q ∈ seg ∧ q ≠ (n, i) := by
  simp only [Topology.peers, List.mem_flatMap]
  constructor
  · rintro ⟨seg, hseg, hq⟩
    split_ifs at hq with hni
    · obtain ⟨hqseg, hne⟩ := List.mem_filter.mp hq
      exact ⟨seg, hseg, hni, hqseg, by simpa using hne⟩
    · simp at hq
  · rintro ⟨seg, hseg, hni, hq, hne⟩
    refine ⟨seg, hseg, ?_⟩
    rw [if_pos hni]
    exact List.mem_filter.mpr ⟨hq, by simpa using hne⟩

theorem peers_symm (h : (m, j) ∈ T.peers n i) : (n, i) ∈ T.peers m j := by
  obtain ⟨seg, hseg, hni, hmj, hne⟩ := mem_peers.mp h
  exact mem_peers.mpr ⟨seg, hseg, hmj, hni, fun heq => hne heq.symm⟩

theorem segment_unique {seg seg' : List (Node × Int)} (hseg : seg ∈ T.segments)
    (hseg' : seg' ∈ T.segments) (hq : q ∈ seg) (hq' : q ∈ seg') : seg = seg' := by
  have hdisj := (List.nodup_flatten.mp T.endpoints_nodup).2
  have hsymm : Std.Symm (List.Disjoint (α := Node × Int)) := ⟨fun _ _ h => h.symm⟩
  by_contra hne
  exact hdisj.forall hseg hseg' hne hq hq'

/-- Two other interfaces of one segment reach each other. -/
theorem peers_trans (h : q ∈ T.peers n i) (h' : q' ∈ T.peers n i) (hne : q' ≠ q) :
    q' ∈ T.peers q.1 q.2 := by
  obtain ⟨seg, hseg, hni, hq, _⟩ := mem_peers.mp h
  obtain ⟨seg', hseg', hni', hq', _⟩ := mem_peers.mp h'
  obtain rfl := segment_unique hseg hseg' hni hni'
  exact mem_peers.mpr ⟨seg, hseg, hq, hq', hne⟩

theorem haddr_injOn (h : q ∈ T.peers n i) (h' : q' ∈ T.peers n i)
    (heq : T.haddr q = T.haddr q') : q = q' := by
  obtain ⟨seg, hseg, hni, hq, _⟩ := mem_peers.mp h
  obtain ⟨seg', hseg', hni', hq', _⟩ := mem_peers.mp h'
  obtain rfl := segment_unique hseg hseg' hni hni'
  exact T.haddr_inj seg hseg q hq q' hq' heq

theorem peers_nodup (n : Node) (i : Int) : (T.peers n i).Nodup := by
  obtain ⟨hnodup, hdisj⟩ := List.nodup_flatten.mp T.endpoints_nodup
  unfold Topology.peers
  rw [List.nodup_flatMap]
  constructor
  · intro seg hseg
    split_ifs
    · exact (hnodup seg hseg).filter _
    · exact List.nodup_nil
  · refine hdisj.imp ?_
    intro seg seg' hd q hq hq'
    dsimp only at hq hq'
    split_ifs at hq hq'
    · exact hd (List.mem_filter.mp hq).1 (List.mem_filter.mp hq').1
    all_goals simp at hq hq'

theorem linked_iff : Linked T n m ↔ ∃ seg ∈ T.segments, ∃ q ∈ seg, ∃ q' ∈ seg,
    q.1 = n ∧ q'.1 = m ∧ q' ≠ q := by
  constructor
  · rintro ⟨i, j, hij⟩
    obtain ⟨seg, hseg, hq, hq', hne⟩ := mem_peers.mp hij
    exact ⟨seg, hseg, (n, i), hq, (m, j), hq', rfl, rfl, hne⟩
  · rintro ⟨seg, hseg, ⟨_, i⟩, hq, ⟨_, j⟩, hq', rfl, rfl, hne⟩
    exact ⟨i, j, mem_peers.mpr ⟨seg, hseg, hq, hq', hne⟩⟩

instance (n m : Node) : Decidable (Linked T n m) := decidable_of_iff _ linked_iff.symm

instance (n : Node) (e : REntry) (m : Node) : Decidable (NextHop T n e m) :=
  decidable_of_iff (∃ q ∈ T.peers n e.ifNo, q.1 = m ∧ T.haddr q = some e.nextHop)
    ⟨fun ⟨⟨_, j⟩, hq, hm, hmac⟩ => ⟨j, hm ▸ hq, hm ▸ hmac⟩,
      fun ⟨j, hq, hmac⟩ => ⟨(m, j), hq, rfl, hmac⟩⟩

theorem Linked.symm (h : Linked T n m) : Linked T m n := by
  obtain ⟨i, j, hij⟩ := h
  exact ⟨j, i, peers_symm hij⟩

theorem NextHop.linked {e : REntry} (h : NextHop T n e m) : Linked T n m := by
  obtain ⟨j, hj, _⟩ := h
  exact ⟨_, j, hj⟩

theorem NextHop.unique {e : REntry} {m' : Node} (h : NextHop T n e m) (h' : NextHop T n e m') :
    m = m' := by
  obtain ⟨j, hj, hmac⟩ := h
  obtain ⟨j', hj', hmac'⟩ := h'
  exact congrArg Prod.fst (haddr_injOn hj hj' (hmac.trans hmac'.symm))

theorem NextHop.hasInterface {e : REntry} (h : NextHop T n e m) :
    HasInterface (T.cfg n) e := by
  obtain ⟨j, hj, _⟩ := h
  obtain ⟨seg, hseg, hn, _, _⟩ := mem_peers.mp hj
  obtain ⟨r, hr, hindex⟩ := T.endpoint_hwa (n, e.ifNo) (List.mem_flatten.mpr ⟨seg, hseg, hn⟩)
  exact getHwaddrFromInt_of_mem hr hindex

theorem Sender.unique {p : Packet Node} {m' : Node} (h : Sender T p m) (h' : Sender T p m') :
    m = m' := by
  obtain ⟨j, hj, hmac⟩ := h
  obtain ⟨j', hj', hmac'⟩ := h'
  exact congrArg Prod.fst (haddr_injOn hj hj' (hmac.trans hmac'.symm))

theorem Sender.nextHop {p : Packet Node} {now : Int} (h : Sender T p m) :
    NextHop T p.dst (updateREntry p.host p.ifIndex p.srcMac now) m := h

end Segments

/-! ## Copies in flight -/

section Copies

variable {n m : Node} {t : Transmission} {q : Packet Node} {trail : List (RelayEvent Node)}

theorem host_of_mem_copies (h : q ∈ T.copies n trail t) : q.host = t.host := by
  obtain ⟨x, _, rfl⟩ := List.mem_map.mp h
  rfl

theorem mem_copies (h : q ∈ T.copies n trail t) :
    (q.dst, q.ifIndex) ∈ T.peers n t.intIndex ∧ q.srcMac = t.srcMac ∧ q.frame = t.frame ∧
      q.trail = trail ∧
      (t.destMac = broadcastMac ∨ T.haddr (q.dst, q.ifIndex) = some t.destMac) := by
  obtain ⟨x, hx, rfl⟩ := List.mem_map.mp h
  obtain ⟨hpeers, hmac⟩ := List.mem_filter.mp hx
  exact ⟨hpeers, rfl, rfl, rfl, by simpa using hmac⟩

theorem sender_of_mem_copies (hmac : T.haddr (n, t.intIndex) = some t.srcMac)
    (h : q ∈ T.copies n trail t) : Sender T q n := by
  obtain ⟨hpeers, hsrc, _⟩ := mem_copies h
  exact ⟨t.intIndex, peers_symm hpeers, by rw [hmac, hsrc]⟩

/-- A frame sent along an entry goes to the neighbour the entry names. -/
theorem nextHop_of_mem_copies {e : REntry} (halong : Along (T.cfg n) e t)
    (hne : e.nextHop ≠ broadcastMac) (h : q ∈ T.copies n trail t) : NextHop T n e q.dst := by
  obtain ⟨hpeers, _, _, _, hmac⟩ := mem_copies h
  rw [halong.index] at hpeers
  rw [halong.dest] at hmac
  exact ⟨q.ifIndex, hpeers, hmac.resolve_left hne⟩

theorem NextHop.ne_broadcast {e : REntry} (h : NextHop T n e m) :
    e.nextHop ≠ broadcastMac := by
  obtain ⟨j, _, hmac⟩ := h
  exact haddr_ne_broadcast hmac

end Copies

/-! ## Steps -/

section Steps

variable {s s' : Net Node} {a : Action Node}

theorem step_cases (hs : T.step s a = some s') :
    (∃ n sparams env, a = .request n sparams env ∧ s' = T.takeRequest s n sparams env) ∨
    ∃ k env p, a = .deliver k env ∧ s.flight[k]? = some p ∧
      s' = T.deliverPacket s p (s.flight.eraseIdx k) env := by
  cases a with
  | request n sparams env =>
      simp only [Topology.step] at hs
      split_ifs at hs
      exact .inl ⟨n, sparams, env, rfl, (Option.some.inj hs).symm⟩
  | deliver k env =>
      simp only [Topology.step] at hs
      cases hp : s.flight[k]? with
      | none => simp [hp] at hs
      | some p =>
          simp only [hp] at hs
          split_ifs at hs
          exact .inr ⟨k, env, p, rfl, hp, (Option.some.inj hs).symm⟩

theorem deliverPacket_nodes_self (s : Net Node) (p : Packet Node) (rest : List (Packet Node))
    (env : Env) : (T.deliverPacket s p rest env).nodes p.dst =
      (handleEthernetMsg (T.cfg p.dst) env p.ifIndex p.srcMac p.frame (s.nodes p.dst)).node := by
  simp [Topology.deliverPacket]

theorem deliverPacket_nodes_of_ne (s : Net Node) (p : Packet Node) (rest : List (Packet Node))
    (env : Env) {n : Node} (hn : n ≠ p.dst) :
    (T.deliverPacket s p rest env).nodes n = s.nodes n := by
  simp [Topology.deliverPacket, hn]

theorem takeRequest_nodes_self (s : Net Node) (n : Node) (sparams : SendParams) (env : Env) :
    (T.takeRequest s n sparams env).nodes n =
      (handlePeerMsg (T.cfg n) env sparams (s.nodes n)).node := by
  simp [Topology.takeRequest]

theorem takeRequest_nodes_of_ne (s : Net Node) (n : Node) (sparams : SendParams) (env : Env)
    {m : Node} (hm : m ≠ n) : (T.takeRequest s n sparams env).nodes m = s.nodes m := by
  simp [Topology.takeRequest, hm]

/-- What holds of every node holds of every node after a request, if it holds of the node
that served it. -/
theorem forall_nodes_takeRequest {n : Node} {sparams : SendParams} {env : Env}
    (P : Node → NodeState → Prop) (hP : ∀ m, P m (s.nodes m))
    (hn : P n (handlePeerMsg (T.cfg n) env sparams (s.nodes n)).node) (m : Node) :
    P m ((T.takeRequest s n sparams env).nodes m) :=
  (Function.forall_update_iff s.nodes P).mpr ⟨hn, fun m _ => hP m⟩ m

/-- The same for a delivery. -/
theorem forall_nodes_deliverPacket {p : Packet Node} {rest : List (Packet Node)} {env : Env}
    (P : Node → NodeState → Prop) (hP : ∀ m, P m (s.nodes m))
    (hn : P p.dst
      (handleEthernetMsg (T.cfg p.dst) env p.ifIndex p.srcMac p.frame (s.nodes p.dst)).node)
    (m : Node) : P m ((T.deliverPacket s p rest env).nodes m) :=
  (Function.forall_update_iff s.nodes P).mpr ⟨hn, fun m _ => hP m⟩ m

/-- A delivery whose frame gets into the switch is a `Receipt`. -/
theorem receipt_of_processed {k : Nat} {env : Env} {p : Packet Node} {type : FrameType}
    (hk : s.flight[k]? = some p) (hproc : Processed env p.host (s.nodes p.dst) type) :
    Receipt T s (T.deliverPacket s p (s.flight.eraseIdx k) env) (.deliver k env) env p type := by
  refine ⟨⟨k, rfl, hk⟩, hproc, ?_, fun n hn => deliverPacket_nodes_of_ne _ _ _ _ hn⟩
  rw [deliverPacket_nodes_self, handleEthernetMsg_of_processed hproc, Reaction.outcome_node]
  exact reaction_state

/-- **The step rule.**  Properties of copies in flight, table entries and queued
frames hold after a step if they hold of everything that was there before and of
what the step adds. -/
theorem preserve (hs : T.step s a = some s')
    (Fl : Packet Node → Prop) (Tb : Node → REntry → Prop) (Pd : Node → PendingMsg → Prop)
    (hFl : ∀ p ∈ s.flight, Fl p)
    (hTb : ∀ n, ∀ e ∈ (s.nodes n).table, Tb n e)
    (hPd : ∀ n, ∀ q ∈ (s.nodes n).pending, Pd n q)
    (hentry : ∀ env p type, Receipt T s s' a env p type →
      Tb p.dst (updateREntry p.host p.ifIndex p.srcMac env.updateTime))
    (hpark : ∀ env p type, Receipt T s s' a env p type → type = .rrep ∨ type = .data →
      p.host.destIp ≠ T.ip p.dst → destAt T s env p = none →
      Pd p.dst ⟨p.host.destIp, p.host⟩)
    (hqueue : ∀ n sparams env portno, a = .request n sparams env →
      T.ip n ≠ sparams.destip →
      Pd n (queuedMsg (T.cfg n) sparams portno ((s.nodes n).counter.value + 2)))
    (heth : ∀ env p type t, Receipt T s s' a env p type →
      EthSends (T.cfg p.dst) p.ifIndex p.host (learnedAt T s env p) (destAt T s env p)
        { s.nodes p.dst with table := (learnedAt T s env p).table } type t →
      ∀ q ∈ T.copies p.dst (relayTrail s.tick p t) t, Fl q)
    (hpeer : ∀ n sparams env t, a = .request n sparams env →
      PeerSends (T.cfg n) env sparams (s.nodes n) (s'.nodes n) t →
      ∀ q ∈ T.copies n [] t, Fl q) :
    (∀ p ∈ s'.flight, Fl p) ∧ (∀ n, ∀ e ∈ (s'.nodes n).table, Tb n e) ∧
      (∀ n, ∀ q ∈ (s'.nodes n).pending, Pd n q) := by
  rcases step_cases hs with ⟨n, sparams, env, rfl, rfl⟩ | ⟨k, env, p, rfl, hk, rfl⟩
  · have hcall := handlePeerMsg_call (T.cfg n) env sparams (s.nodes n)
    refine ⟨?_, ?_, ?_⟩
    · intro q hq
      rcases List.mem_append.mp hq with hq | hq
      · exact hFl q hq
      · obtain ⟨t, ht, hqt⟩ := List.mem_flatMap.mp hq
        refine hpeer n sparams env t rfl ?_ q hqt
        rw [takeRequest_nodes_self]
        exact hcall.sends ht
    · refine forall_nodes_takeRequest (fun m st => ∀ e ∈ st.table, Tb m e) hTb ?_
      exact fun e he => hTb n e (hcall.mem_table he)
    · refine forall_nodes_takeRequest (fun m st => ∀ q ∈ st.pending, Pd m q) hPd ?_
      intro q hq
      rcases hcall.mem_pending hq with ⟨hself, portno, rfl⟩ | hq
      · exact hqueue n sparams env portno rfl hself
      · exact hPd n q hq
  · refine ⟨?_, ?_, ?_⟩
    · intro q hq
      rcases List.mem_append.mp hq with hq | hq
      · exact hFl q (List.mem_of_mem_eraseIdx hq)
      · obtain ⟨t, ht, hqt⟩ := List.mem_flatMap.mp hq
        obtain ⟨type, hproc, _, hsends⟩ := handleEthernetMsg_sends ht
        exact heth env p type t (receipt_of_processed hk hproc) hsends q hqt
    · refine forall_nodes_deliverPacket (fun m st => ∀ e ∈ st.table, Tb m e) hTb ?_
      intro e he
      rcases handleEthernetMsg_mem_table he with ⟨rfl, type, hproc⟩ | he
      · exact hentry env p type (receipt_of_processed hk hproc)
      · exact hTb _ e he
    · refine forall_nodes_deliverPacket (fun m st => ∀ q ∈ st.pending, Pd m q) hPd ?_
      intro q hq
      rcases handleEthernetMsg_mem_pending hq with ⟨type, hproc, rfl, htype, hself, hd⟩ | hq
      · exact hpark env p type (receipt_of_processed hk hproc) htype hself hd
      · exact hPd _ q hq

theorem step_deliver {k : Nat} {env : Env} (hs : T.step s (.deliver k env) = some s') :
    ∃ p, s.flight[k]? = some p ∧ s' = T.deliverPacket s p (s.flight.eraseIdx k) env := by
  rcases step_cases hs with ⟨_, _, _, ha, _⟩ | ⟨k', env', p, ha, hk, heq⟩
  · simp at ha
  · obtain ⟨rfl, rfl⟩ := Action.deliver.inj ha
    exact ⟨p, hk, heq⟩

/-- What a delivery puts in flight: all copies of the frames the receiver sends. -/
theorem mem_flight_deliver {k : Nat} {env : Env} {q : Packet Node}
    (hs : T.step s (.deliver k env) = some s') (hq : q ∈ s'.flight) :
    q ∈ s.flight ∨ ∃ p type t, Receipt T s s' (.deliver k env) env p type ∧
      EthSends (T.cfg p.dst) p.ifIndex p.host (learnedAt T s env p) (destAt T s env p)
        { s.nodes p.dst with table := (learnedAt T s env p).table } type t ∧
      q ∈ T.copies p.dst (relayTrail s.tick p t) t ∧
      ∀ q' ∈ T.copies p.dst (relayTrail s.tick p t) t, q' ∈ s'.flight := by
  obtain ⟨p, hk, rfl⟩ := step_deliver hs
  rcases List.mem_append.mp hq with hq | hq
  · exact .inl (List.mem_of_mem_eraseIdx hq)
  · obtain ⟨t, ht, hqt⟩ := List.mem_flatMap.mp hq
    obtain ⟨type, hproc, _, hsends⟩ := handleEthernetMsg_sends ht
    refine .inr ⟨p, type, t, receipt_of_processed hk hproc, hsends, hqt, fun q' hq' => ?_⟩
    exact List.mem_append_right _ (List.mem_flatMap.mpr ⟨t, ht, hq'⟩)

/-- What a step puts in flight: copies of the frames its handler sent, and why the
handler sent them. -/
theorem mem_flight_step {q : Packet Node} (hs : T.step s a = some s') (hq : q ∈ s'.flight) :
    q ∈ s.flight ∨ ∃ n o t trail, outcomeAt T s a = some (n, o) ∧ t ∈ o.sent ∧
      q ∈ T.copies n trail t ∧
      ((∃ env p type, Receipt T s s' a env p type ∧ p.dst = n ∧
          EthSends (T.cfg p.dst) p.ifIndex p.host (learnedAt T s env p) (destAt T s env p)
            { s.nodes p.dst with table := (learnedAt T s env p).table } type t) ∨
        ∃ sparams env, a = .request n sparams env ∧
          PeerSends (T.cfg n) env sparams (s.nodes n) (s'.nodes n) t) := by
  rcases step_cases hs with ⟨n, sparams, env, rfl, rfl⟩ | ⟨k, env, p, rfl, hk, rfl⟩
  · rcases List.mem_append.mp hq with hq | hq
    · exact .inl hq
    · obtain ⟨t, ht, hqt⟩ := List.mem_flatMap.mp hq
      refine .inr ⟨n, _, t, [], rfl, ht, hqt, .inr ⟨sparams, env, rfl, ?_⟩⟩
      rw [takeRequest_nodes_self]
      exact (handlePeerMsg_call _ _ _ _).sends ht
  · rcases List.mem_append.mp hq with hq | hq
    · exact .inl (List.mem_of_mem_eraseIdx hq)
    · obtain ⟨t, ht, hqt⟩ := List.mem_flatMap.mp hq
      obtain ⟨type, hproc, _, hsends⟩ := handleEthernetMsg_sends ht
      exact .inr ⟨p.dst, _, t, _, outcomeAt_deliver hk, ht, hqt,
        .inl ⟨env, p, type, receipt_of_processed hk hproc, rfl, hsends⟩⟩

/-- A delivery takes one copy out of flight. -/
theorem mem_flight_of_ne {k : Nat} {env : Env} {p q : Packet Node}
    (hk : s.flight[k]? = some p) (hq : q ∈ s.flight) (hne : q ≠ p) :
    q ∈ (T.deliverPacket s p (s.flight.eraseIdx k) env).flight := by
  obtain ⟨i, hi⟩ := List.mem_iff_getElem?.mp hq
  refine List.mem_append_left _ (List.mem_eraseIdx_iff_getElem?.mpr ⟨i, ?_, hi⟩)
  rintro rfl
  exact hne (Option.some.inj (hi.symm.trans hk))

/-- A step that does not delete the route of `n` to `ip` keeps it, unless it brings
a frame from `ip` that improves on it. -/
theorem route_step (hs : T.step s a = some s') {n : Node} {ip : Ip}
    (hdel : ¬ Deletes T s a n ip) :
    route (s'.nodes n).table ip = route (s.nodes n).table ip ∨
      ∃ env p type, Receipt T s s' a env p type ∧ p.dst = n ∧ p.host.srcIp = ip ∧
        route (s'.nodes n).table ip =
          some (updateREntry p.host p.ifIndex p.srcMac env.updateTime) ∧
        ∀ e, route (s.nodes n).table ip = some e → acceptsUpdate p.host e = true := by
  rcases step_cases hs with ⟨m, sparams, env, rfl, rfl⟩ | ⟨k, env, p, rfl, hk, rfl⟩
  · by_cases hn : n = m
    · subst hn
      have hkeep : ip ∉ (handlePeerMsg (T.cfg n) env sparams (s.nodes n)).deleted :=
        fun hmem => hdel ⟨_, rfl, hmem⟩
      rw [takeRequest_nodes_self]
      exact .inl ((handlePeerMsg_call _ _ _ _).route_eq hkeep)
    · rw [takeRequest_nodes_of_ne _ _ _ _ hn]
      exact .inl rfl
  · by_cases hn : n = p.dst
    · subst hn
      have hkeep : ip ∉ (handleEthernetMsg (T.cfg p.dst) env p.ifIndex p.srcMac p.frame
          (s.nodes p.dst)).deleted :=
        fun hmem => hdel ⟨_, outcomeAt_deliver hk, hmem⟩
      rw [deliverPacket_nodes_self]
      rcases handleEthernetMsg_route hkeep with heq | ⟨type, hproc, hnew⟩
      · exact .inl heq
      · exact .inr ⟨env, p, type, receipt_of_processed hk hproc, rfl, hnew⟩
    · rw [deliverPacket_nodes_of_ne _ _ _ _ hn]
      exact .inl rfl

theorem route_isSome_step (hs : T.step s a = some s') {n : Node} {ip : Ip}
    (hdel : ¬ Deletes T s a n ip) (h : (route (s.nodes n).table ip).isSome) :
    (route (s'.nodes n).table ip).isSome := by
  rcases route_step hs hdel with heq | ⟨_, _, _, _, _, _, heq, _⟩
  · rwa [heq]
  · simp [heq]

/-- Counters never go back. -/
theorem counter_le_of_step (hs : T.step s a = some s') (n : Node) :
    (s.nodes n).counter.value ≤ (s'.nodes n).counter.value := by
  rcases step_cases hs with ⟨m, sparams, env, rfl, rfl⟩ | ⟨k, env, p, rfl, hk, rfl⟩
  · exact forall_nodes_takeRequest (fun n st => (s.nodes n).counter.value ≤ st.counter.value)
      (fun _ => Int.le_refl _) (handlePeerMsg_call _ _ _ _).counter_le n
  · exact forall_nodes_deliverPacket (fun n st => (s.nodes n).counter.value ≤ st.counter.value)
      (fun _ => Int.le_refl _) handleEthernetMsg_counter_le n

end Steps

end OnDemandRouting.Proofs
