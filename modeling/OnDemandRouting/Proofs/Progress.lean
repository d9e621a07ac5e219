import OnDemandRouting.Proofs.Frames

/-!
# What a call does send

`EthSends` bounds what can leave a node.  Here is the converse, for calls in which
no name lookup and no send fails: a request or ASENT that improves the route to its
source is relayed on every interface of the flood but the one it came in on, a
request is answered at its destination, and a reply is passed on.
-/

namespace OnDemandRouting.Proofs

open OnDemandRouting.Lib
open OnDemandRouting.Model

section Handlers

variable {cfg : Config} {env : Env} {intfN : Int} {f : OdrFrame} {l : Learned}
  {dest : Option REntry} {st : NodeState} {type : FrameType}

theorem processed_of_linksUp (henv : env.LinksUp) (hflag : f.routeDiscFlag ≠ 1)
    (htype : FrameType.ofInt f.frameType = some type) : Processed env f st type where
  passes := duplicateFilter_of_flag_ne hflag st.table
  srcName := henv.resolves _
  destName := henv.resolves _
  type_eq := htype

theorem sendRrepPacket_plan {entry : REntry} (h : HasInterface cfg entry) (frame : OdrFrame)
    (hop : Int) (swap : Bool) (counter : BroadcastCounter) :
    ∃ t, (sendRrepPacket cfg.hwa frame entry hop swap counter).2 = .ok [t] := by
  obtain ⟨mac, hmac⟩ := h
  unfold sendRrepPacket
  rw [hmac]
  exact ⟨_, rfl⟩

/-- A flood puts a frame on every interface it does not spare. -/
theorem exists_mem_sendReqBroadcast {r : HwaInfo} (hr : r ∈ cfg.hwa)
    (hfloods : floodsOn intfN r = true) (broadId srcPort dstport hopcount rdiscFlag : Int)
    (dstip srcip : Ip) (payload : String) (asentFlag : Bool) :
    ∃ t ∈ sendReqBroadcast cfg.hwa intfN broadId srcPort dstport hopcount rdiscFlag dstip srcip
      payload asentFlag, t.intIndex = r.ifIndex :=
  ⟨_, List.mem_map.mpr ⟨r, List.mem_filter.mpr ⟨hr, hfloods⟩, rfl⟩, rfl⟩

/-- A frame of a flood that improves on the source's route is relayed. -/
theorem react_relays (hin : type = .rreq ∨ type = .asent)
    (hdest : f.destIp ≠ cfg.selfIp ∨ type = .asent) (hflag : l.flag = true)
    (hl : HasInterface cfg l.entry) :
    ∃ ts asentFlag, (react cfg env intfN f l dest st type).plan = .ok ts ∧
      relayBroadcast cfg intfN f asentFlag ⊆ ts := by
  rcases hin with rfl | rfl
  · have hself : f.destIp ≠ cfg.selfIp := hdest.resolve_right (by decide)
    cases dest with
    | none => exact ⟨_, false, by simp [react, handleRreq, hself, hflag], fun _ h => h⟩
    | some d =>
        obtain ⟨t, ht⟩ := sendRrepPacket_plan hl f d.noHops true st.counter
        refine ⟨t :: relayBroadcast cfg intfN f true, true, ?_, List.subset_cons_self _ _⟩
        simp [react, handleRreq, hself, hflag, ht, Except.map]
  · exact ⟨_, true, by simp [react, handleAsent, hflag], fun _ h => h⟩

/-- A request is answered at its destination. -/
theorem react_answers (hself : f.destIp = cfg.selfIp) (hl : HasInterface cfg l.entry) :
    ∃ t, (react cfg env intfN f l dest st .rreq).plan = .ok [t] ∧ Along cfg l.entry t ∧
      t.host = rrepFrame (st.counter.value + 1) 0 f.payloadLen f.dstPort f.srcPort f.srcIp
        f.destIp := by
  obtain ⟨t, ht⟩ := sendRrepPacket_plan hl f 0 true st.counter
  obtain ⟨halong, hhost⟩ := mem_sendRrepPacket ht (List.mem_singleton_self t)
  exact ⟨t, by simpa [react, handleRreq, hself] using ht, halong, hhost⟩

/-- A reply is passed on along the route to its destination. -/
theorem react_forwards {d : REntry} (hself : f.destIp ≠ cfg.selfIp) (hdest : dest = some d)
    (hd : HasInterface cfg d) :
    ∃ t, (react cfg env intfN f l dest st .rrep).plan = .ok [t] ∧ Along cfg d t ∧
      t.host = rrepFrame f.broadcastId l.entry.noHops f.payloadLen f.srcPort f.dstPort
        f.destIp f.srcIp := by
  obtain ⟨t, ht⟩ := sendRrepPacket_plan hd f l.entry.noHops false st.counter
  obtain ⟨halong, hhost⟩ := mem_sendRrepPacket ht (List.mem_singleton_self t)
  exact ⟨t, by simpa [react, handleRrep, hself, hdest] using ht, halong, hhost⟩

end Handlers

/-! ## Copies in flight -/

variable {Node : Type} [DecidableEq Node] {T : Topology Node}

/-- `n` reaches `m` by a flood: they share a segment to which `n` is attached by an
interface other than `lo` and `eth0`. -/
def FloodLink (T : Topology Node) (n m : Node) : Prop :=
  ∃ r ∈ (T.cfg n).hwa, floodsOn (-1) r = true ∧ ∃ j, (m, j) ∈ T.peers n r.ifIndex

section Flight

variable {s s' : Net Node} {a : Action Node} {env : Env} {p : Packet Node} {type : FrameType}
  {n w : Node} {j : Int} {t : Transmission} {trail : List (RelayEvent Node)}

theorem floodsOn_iff {i : Int} {r : HwaInfo} (hpos : 0 < r.ifIndex) :
    floodsOn i r = true ↔ floodsOn (-1) r = true ∧ r.ifIndex ≠ i := by
  have hne : r.ifIndex ≠ -1 := by omega
  simp [floodsOn, hne, and_assoc]

instance (n m : Node) : Decidable (FloodLink T n m) :=
  decidable_of_iff (∃ r ∈ (T.cfg n).hwa, floodsOn (-1) r = true ∧
      ∃ q ∈ T.peers n r.ifIndex, q.1 = m)
    ⟨fun ⟨r, hr, hfloods, ⟨_, j⟩, hq, hm⟩ => ⟨r, hr, hfloods, j, hm ▸ hq⟩,
      fun ⟨r, hr, hfloods, j, hj⟩ => ⟨r, hr, hfloods, (m, j), hj, rfl⟩⟩

/-- Where neither `lo` nor `eth0` is attached to a segment, a flood passes from each
node of a segment to every other. -/
theorem floodLink_iff_linked (hattached : ∀ x ∈ T.segments.flatten, ∀ r ∈ (T.cfg x.1).hwa,
    r.ifIndex = x.2 → floodsOn (-1) r = true) {m : Node} : FloodLink T n m ↔ Linked T n m := by
  constructor
  · rintro ⟨r, _, _, j, hj⟩
    exact ⟨r.ifIndex, j, hj⟩
  · rintro ⟨i, j, hj⟩
    obtain ⟨seg, hseg, hn, _⟩ := mem_peers.mp hj
    have hmem : (n, i) ∈ T.segments.flatten := List.mem_flatten.mpr ⟨seg, hseg, hn⟩
    obtain ⟨r, hr, rfl⟩ := T.endpoint_hwa (n, i) hmem
    exact ⟨r, hr, hattached _ hmem r hr rfl, j, hj⟩

theorem Flooded.floodLink {i : Int} {q : Packet Node} (h : Flooded (T.cfg n) i t)
    (hq : q ∈ T.copies n trail t) : FloodLink T n q.dst := by
  obtain ⟨r, hr, hfloods, hindex, _⟩ := h.record
  obtain ⟨hpeers, _⟩ := mem_copies hq
  rw [hindex] at hpeers
  exact ⟨r, hr, ((floodsOn_iff (T.ifIndex_pos n r hr)).mp hfloods).1, q.ifIndex, hpeers⟩

/-- A broadcast reaches every other interface of its segment. -/
theorem exists_mem_copies_of_broadcast (hdest : t.destMac = broadcastMac)
    (hw : (w, j) ∈ T.peers n t.intIndex) :
    ∃ q ∈ T.copies n trail t, q.dst = w ∧ q.ifIndex = j := by
  have hmem : (w, j) ∈ T.receivers n t := List.mem_filter.mpr ⟨hw, by simp [hdest]⟩
  exact ⟨_, List.mem_map.mpr ⟨(w, j), hmem, rfl⟩, rfl, rfl⟩

/-- A frame sent along a route reaches the neighbour the route names. -/
theorem exists_mem_copies_of_along {e : REntry} (halong : Along (T.cfg n) e t)
    (hnext : NextHop T n e w) : ∃ q ∈ T.copies n trail t, q.dst = w := by
  obtain ⟨j, hj, hmac⟩ := hnext
  have hmem : (w, j) ∈ T.receivers n t := by
    rw [Topology.receivers, halong.index, halong.dest]
    exact List.mem_filter.mpr ⟨hj, by simp [hmac]⟩
  exact ⟨_, List.mem_map.mpr ⟨(w, j), hmem, rfl⟩, rfl⟩

/-- When nothing fails, all copies of what the case plans are in flight afterwards. -/
theorem Receipt.copies_in_flight (hr : Receipt T s s' a env p type)
    (hs : T.step s a = some s') (henv : env.LinksUp) {ts : List Transmission}
    (hplan : (react (T.cfg p.dst) env p.ifIndex p.host (learnedAt T s env p) (destAt T s env p)
      { s.nodes p.dst with table := (learnedAt T s env p).table } type).plan = .ok ts)
    (ht : t ∈ ts) : ∀ q ∈ T.copies p.dst (relayTrail s.tick p t) t, q ∈ s'.flight := by
  obtain ⟨k, rfl, hk⟩ := hr.action
  intro q hq
  obtain ⟨p', hk', rfl⟩ := step_deliver hs
  obtain rfl : p = p' := Option.some.inj (hk.symm.trans hk')
  refine List.mem_append_right _ (List.mem_flatMap.mpr ⟨t, ?_, hq⟩)
  have hsent : ((reaction (T.cfg p.dst) env p.ifIndex p.srcMac p.host (s.nodes p.dst)
      type).outcome env (T.ip p.dst) (deletedBy (T.cfg p.dst) env p.host (s.nodes p.dst))).sent =
      ts := Reaction.outcome_sent_of_linksUp henv hplan
  rw [handleEthernetMsg_of_processed hr.processed]
  exact hsent.symm ▸ ht

end Flight

end OnDemandRouting.Proofs
