import OnDemandRouting.Proofs.Provenance

/-!
# Broadcast ids in the network

Every id in a table or a frame was drawn from some node's counter.  It need not
have been drawn by the node the entry is about: a node that answers a request from
its table stamps the answer with an id of its own, and a message that is sent along
a route carries the id of that route.  As long as neither brings an id above the
owner's counter, a new request of the owner is newer than all that is known of it.
-/

namespace OnDemandRouting.Proofs

open OnDemandRouting.Lib
open OnDemandRouting.Model

variable {Node : Type} {T : Topology Node}

/-- The route along which a step sends the message of a request. -/
def directRouteAt (T : Topology Node) (s : Net Node) : Action Node → Option (Node × REntry)
  | .deliver _ _ => none
  | .request n sparams env =>
      if T.ip n ≠ sparams.destip then
        (peerLookup (T.cfg n) env sparams (s.nodes n).table).entry.map fun e => (n, e)
      else none

/-- A property `P` of source address and id holds throughout the network. -/
structure IdsHold (P : Ip → Int → Prop) (s : Net Node) : Prop where
  flight : ∀ p ∈ s.flight, P p.host.srcIp p.host.broadcastId
  table : ∀ n, ∀ e ∈ (s.nodes n).table, P e.destip e.broadcastId
  pending : ∀ n, ∀ q ∈ (s.nodes n).pending, P q.odrframe.srcIp q.odrframe.broadcastId

section Ids

variable {s s' : Net Node} {a : Action Node} {P : Ip → Int → Prop}

/-- An id that a step draws is within the counter it leaves. -/
theorem Receipt.counter_drawn {env : Env} {p : Packet Node} {type : FrameType}
    (hr : Receipt T s s' a env p type)
    (hdraws : drawsId (T.cfg p.dst) p.host (destAt T s env p) type = true) :
    (s'.nodes p.dst).counter.value = (s.nodes p.dst).counter.value + 1 := by
  rw [hr.state.counter, if_pos hdraws]
  rfl

theorem IdsHold.imp {Q : Ip → Int → Prop} (h : IdsHold P s) (himp : ∀ ip b, P ip b → Q ip b) :
    IdsHold Q s :=
  ⟨fun p hp => himp _ _ (h.flight p hp), fun n e he => himp _ _ (h.table n e he),
    fun n q hq => himp _ _ (h.pending n q hq)⟩

theorem idsHold_initial (P : Ip → Int → Prop) : IdsHold P (Net.initial Node) :=
  ⟨by simp [Net.initial], by simp [Net.initial, NodeState.initial],
    by simp [Net.initial, NodeState.initial]⟩

/-- All that `n` knows of `ip` is older than `b`. -/
def Older (s : Net Node) (n : Node) (ip : Ip) (b : Int) : Prop :=
  ∀ e ∈ (s.nodes n).table, e.destip = ip → e.broadcastId < b

/-- A frame newer than all the node knows of its source passes both tests. -/
theorem Older.accepts {n : Node} {f : OdrFrame} (h : Older s n f.srcIp f.broadcastId) :
    duplicateFilter f (s.nodes n).table = false ∧
      ∀ e, route (s.nodes n).table f.srcIp = some e → acceptsUpdate f e = true := by
  constructor
  · rw [← Bool.not_eq_true, duplicateFilter_eq_true_iff]
    rintro ⟨-, e, he, hdestip, hle⟩
    have hlt := h e he hdestip
    omega
  · intro e he
    obtain ⟨hmem, hdestip⟩ := route_mem he
    exact acceptsUpdate_iff.mpr (.inl (h e hmem hdestip))

/-- No frame from `ip` with an id of `b` or more is delivered to `n` in this step. -/
def NoNewerFor (n : Node) (ip : Ip) (b : Int) (s : Net Node) (a : Action Node) : Prop :=
  ∀ k env p, a = .deliver k env → s.flight[k]? = some p → p.dst = n → p.host.srcIp = ip →
    p.host.broadcastId < b

/-- The step delivers no frame from `ip`. -/
def deliversNothingOf (ip : Ip) (x : Net Node × Action Node) : Bool :=
  match x.2 with
  | .request _ _ _ => true
  | .deliver k _ => (x.1.flight[k]?).all fun p => decide (p.host.srcIp ≠ ip)

theorem noNewerFor_of_all {h : List (Net Node × Action Node)} {ip : Ip}
    (hall : h.all (deliversNothingOf ip) = true) (n : Node) (b : Int) :
    ∀ x ∈ h, NoNewerFor n ip b x.1 x.2 := by
  rintro ⟨s, a⟩ hx k env p rfl hk _ hsrc
  have hnone := List.all_eq_true.mp hall _ hx
  simp only [deliversNothingOf, hk, Option.all_some] at hnone
  exact absurd hsrc (of_decide_eq_true hnone)

end Ids

variable [DecidableEq Node]

section Step

variable {s s' : Net Node} {a : Action Node} {env : Env} {p : Packet Node} {type : FrameType}
  {P : Ip → Int → Prop}

/-- The ids of what is sent on receipt of `p`. -/
theorem Receipt.ids {t : Transmission} (hr : Receipt T s s' a env p type) (hwf : FramesWf T s)
    (hold : IdsHold P s) (hown : ∀ n b, b ≤ (s'.nodes n).counter.value → P (T.ip n) b)
    (hcached : ∀ n d, cachedAnswerAt T s a = some (n, d) →
      (s.nodes n).counter.value + 1 ≤ (s'.nodes n).counter.value →
      P d.destip ((s.nodes n).counter.value + 1))
    (hsends : EthSends (T.cfg p.dst) p.ifIndex p.host (learnedAt T s env p) (destAt T s env p)
      { s.nodes p.dst with table := (learnedAt T s env p).table } type t) :
    P t.host.srcIp t.host.broadcastId := by
  have hcounter (hdraws : drawsId (T.cfg p.dst) p.host (destAt T s env p) type = true) :
      (s.nodes p.dst).counter.value + 1 ≤ (s'.nodes p.dst).counter.value :=
    Int.le_of_eq (hr.counter_drawn hdraws).symm
  cases hsends with
  | relay _ _ _ _ _ _ hhost =>
      rw [hhost]
      exact hold.flight p hr.mem
  | answerOwn hself _ hhost =>
      rw [hhost]
      exact hself ▸ hown _ _ (hcounter (by simp [drawsId, hself]))
  | @answerCached _ d hself hd _ hhost =>
      rw [hhost]
      have hne := (hwf.flight p hr.mem).1.src_ne_dest
      obtain ⟨_, hdestip⟩ := route_mem (route_of_derefDest hne hd)
      exact hdestip ▸ hcached _ _ (hr.cachedAnswerAt_eq hself hd)
        (hcounter (by simp [drawsId, hd]))
  | forwardRrep _ _ _ hhost =>
      rw [hhost]
      exact hold.flight p hr.mem
  | releaseRrep _ hq _ _ hhost =>
      rw [hhost]
      exact hold.pending _ _ (mem_of_findKey hq).1
  | releaseData _ hq _ _ hhost =>
      rw [hhost]
      exact hold.pending _ _ (mem_of_findKey hq).1
  | forwardData _ _ _ hhost =>
      rw [hhost]
      exact hold.flight p hr.mem
  | request hin hself hd _ hhost =>
      rw [hhost]
      refine hown _ _ (hcounter ?_)
      rcases hin with rfl | rfl
      · simp [drawsId, hself, hd]
      · simp [drawsId, hself, hd]

/-- The step rule for ids: new ones are drawn by their owner, stamped on an answer, or
taken over from a route. -/
theorem idsHold_step (hwf : FramesWf T s) (hold : IdsHold P s) (hs : T.step s a = some s')
    (hown : ∀ n b, b ≤ (s'.nodes n).counter.value → P (T.ip n) b)
    (hcached : ∀ n d, cachedAnswerAt T s a = some (n, d) →
      (s.nodes n).counter.value + 1 ≤ (s'.nodes n).counter.value →
      P d.destip ((s.nodes n).counter.value + 1))
    (hdirect : ∀ n e, directRouteAt T s a = some (n, e) → P (T.ip n) e.broadcastId) :
    IdsHold P s' := by
  refine And.elim (fun hflight hrest => ⟨hflight, hrest.1, hrest.2⟩)
    (preserve hs (fun p => P p.host.srcIp p.host.broadcastId)
      (fun _ e => P e.destip e.broadcastId)
      (fun _ q => P q.odrframe.srcIp q.odrframe.broadcastId)
      hold.flight hold.table hold.pending ?entry ?park ?queue ?eth ?peer)
  case entry =>
    intro env p type hr
    exact hold.flight p hr.mem
  case park =>
    intro env p type hr _ _ _
    exact hold.flight p hr.mem
  case queue =>
    intro n sparams env portno _ _
    have hten := (s'.nodes n).counter.ten_le
    exact hown n 0 (by omega)
  case eth =>
    intro env p type t hr hsends q hq
    rw [host_of_mem_copies hq]
    exact hr.ids hwf hold hown hcached hsends
  case peer =>
    intro n sparams env t ha hsends q hq
    rw [host_of_mem_copies hq]
    cases hsends with
    | request _ _ _ hhost hcounter =>
        rw [hhost]
        exact hown n _ hcounter
    | data hself hentry _ hhost =>
        rw [hhost]
        refine hdirect n _ ?_
        rw [ha, directRouteAt, if_pos (show T.ip n ≠ sparams.destip from hself), hentry]
        rfl

/-! ## Ids and the owner's counter -/

/-- The id was drawn from some counter. -/
def DrawnIn (s : Net Node) (b : Int) : Prop := ∃ m, b ≤ (s.nodes m).counter.value

theorem DrawnIn.step {b : Int} (h : DrawnIn s b) (hs : T.step s a = some s') : DrawnIn s' b := by
  obtain ⟨m, hm⟩ := h
  exact ⟨m, Int.le_trans hm (counter_le_of_step hs m)⟩

theorem drawnIn_step (hwf : FramesWf T s) (hold : IdsHold (fun _ b => DrawnIn s b) s)
    (hs : T.step s a = some s') : IdsHold (fun _ b => DrawnIn s' b) s' := by
  have hold' : IdsHold (fun _ b => DrawnIn s' b) s := hold.imp fun _ _ h => h.step hs
  refine idsHold_step hwf hold' hs ?_ ?_ ?_
  · intro n b hb
    exact ⟨n, hb⟩
  · intro n d _ hcounter
    exact ⟨n, hcounter⟩
  · intro n e hdirect
    -- the route is one of the node's entries
    cases a with
    | deliver k env => simp [directRouteAt] at hdirect
    | request m sparams env =>
        simp only [directRouteAt] at hdirect
        split_ifs at hdirect
        obtain ⟨e', he', heq⟩ := Option.map_eq_some_iff.mp hdirect
        cases heq
        exact hold'.table _ _ (route_mem (getREntry_entry he').1).1

/-- In this step no id above the counter of `o` gets attached to the address of `o`: an
answer about `o` from another node's table and a message that `o` sends along a route
carry ids that `o` has reached. -/
structure OwnIds (T : Topology Node) (o : Node) (s : Net Node) (a : Action Node) : Prop where
  answers : ∀ n d, cachedAnswerAt T s a = some (n, d) → d.destip = T.ip o →
    (s.nodes n).counter.value + 1 ≤ (s.nodes o).counter.value
  direct : ∀ e, directRouteAt T s a = some (o, e) →
    e.broadcastId ≤ (s.nodes o).counter.value

/-- The two conditions as a test. -/
def ownIds (T : Topology Node) (o : Node) (x : Net Node × Action Node) : Bool :=
  (cachedAnswerAt T x.1 x.2).all (fun c => decide (c.2.destip = T.ip o →
    (x.1.nodes c.1).counter.value + 1 ≤ (x.1.nodes o).counter.value)) &&
  (directRouteAt T x.1 x.2).all fun c => decide (c.1 = o →
    c.2.broadcastId ≤ (x.1.nodes o).counter.value)

theorem ownIds_of_all {h : List (Net Node × Action Node)} {o : Node}
    (hall : h.all (ownIds T o) = true) : ∀ x ∈ h, OwnIds T o x.1 x.2 := by
  intro x hx
  obtain ⟨hanswers, hdirect⟩ := Bool.and_eq_true _ _ ▸ List.all_eq_true.mp hall x hx
  refine ⟨fun n d hc => ?_, fun e hc => ?_⟩
  · rw [hc] at hanswers
    exact of_decide_eq_true hanswers
  · rw [hc] at hdirect
    exact of_decide_eq_true hdirect rfl

/-- Whatever is known of `o` has an id that `o` has reached. -/
def Reached (T : Topology Node) (o : Node) (s : Net Node) (ip : Ip) (b : Int) : Prop :=
  ip = T.ip o → b ≤ (s.nodes o).counter.value

theorem reached_step {o : Node} (hwf : FramesWf T s) (hold : IdsHold (Reached T o s) s)
    (hids : OwnIds T o s a) (hs : T.step s a = some s') : IdsHold (Reached T o s') s' := by
  have hle := counter_le_of_step hs o
  refine idsHold_step hwf (hold.imp fun ip b h hip => Int.le_trans (h hip) hle) hs ?_ ?_ ?_
  · intro n b hb hip
    rwa [T.selfIp_inj n o hip] at hb
  · intro n d hcached _ hip
    exact Int.le_trans (hids.answers n d hcached hip) hle
  · intro n e hdirect hip
    obtain rfl := T.selfIp_inj n o hip
    exact Int.le_trans (hids.direct e hdirect) hle

theorem Older.step {n : Node} {ip : Ip} {b : Int} (h : Older s n ip b)
    (hno : NoNewerFor n ip b s a) (hs : T.step s a = some s') : Older s' n ip b := by
  have hstep := (preserve hs (fun _ => True)
    (fun m e => m = n → e.destip = ip → e.broadcastId < b) (fun _ _ => True) (fun _ _ => trivial)
    (fun m e he hm => h e (hm ▸ he)) (fun _ _ _ => trivial) ?entry
    (fun _ _ _ _ _ _ _ => trivial) (fun _ _ _ _ _ _ => trivial)
    (fun _ _ _ _ _ _ _ _ => trivial) (fun _ _ _ _ _ _ _ _ => trivial)).2.1
  · exact fun e he => hstep n e he rfl
  case entry =>
    intro env p type hr hm hip
    obtain ⟨k, ha, hk⟩ := hr.action
    exact hno k env p ha hk hm hip

/-- A request in flight that was not there before and has no relay behind it was
originated in this step, with the next id of its source's counter. -/
theorem originated_id {o : Node} {q : Packet Node} (hs : T.step s a = some s')
    (hq : q ∈ s'.flight) (hnew : q ∉ s.flight) (htype : q.host.frameType = FrameType.rreq.toInt)
    (hsrc : q.host.srcIp = T.ip o) (htrail : q.trail = []) :
    q.host.broadcastId = (s.nodes o).counter.value + 1 := by
  refine (preserve hs (fun q => q ∉ s.flight → q.host.frameType = FrameType.rreq.toInt →
    q.host.srcIp = T.ip o → q.trail = [] → q.host.broadcastId = (s.nodes o).counter.value + 1)
    (fun _ _ => True) (fun _ _ => True) (fun p hp hnew => absurd hp hnew)
    (fun _ _ _ => trivial) (fun _ _ _ => trivial) (fun _ _ _ _ => trivial)
    (fun _ _ _ _ _ _ _ => trivial) (fun _ _ _ _ _ _ => trivial) ?eth ?peer).1
    q hq hnew htype hsrc htrail
  case eth =>
    intro env p type t hr hsends q hq _ htype hsrc htrail
    rw [host_of_mem_copies hq] at htype hsrc ⊢
    rw [(mem_copies hq).2.2.2.1, relayTrail] at htrail
    cases hsends with
    | relay out hin hout _ _ _ hhost =>
        have hp : isFlood p.host = true := (isFlood_iff hr.processed.type_eq).mpr hin
        have ht : isFlood t.host = true := by simp [isFlood, htype]
        simp [hp, ht] at htrail
    | answerOwn _ _ hhost => simp [hhost, rrepFrame, FrameType.toInt] at htype
    | answerCached _ _ _ hhost => simp [hhost, rrepFrame, FrameType.toInt] at htype
    | forwardRrep _ _ _ hhost => simp [hhost, rrepFrame, FrameType.toInt] at htype
    | releaseRrep _ _ _ _ hhost => simp [hhost, rrepFrame, FrameType.toInt] at htype
    | releaseData _ _ hdata _ hhost =>
        rw [hhost, FrameType.toInt_of_ofInt hdata] at htype
        simp [FrameType.toInt] at htype
    | forwardData _ _ _ hhost =>
        rw [hhost] at htype
        have hdata := FrameType.toInt_of_ofInt hr.processed.type_eq
        simp [hdata, FrameType.toInt] at htype
    | request _ _ _ _ hhost =>
        rw [hhost] at hsrc ⊢
        obtain rfl := T.selfIp_inj p.dst o hsrc
        rfl
  case peer =>
    intro n sparams env t _ hsends q hq _ htype hsrc _
    rw [host_of_mem_copies hq] at htype hsrc ⊢
    cases hsends with
    | request _ _ _ hhost =>
        rw [hhost] at hsrc ⊢
        obtain rfl := T.selfIp_inj n o hsrc
        rfl
    | data _ _ _ hhost => simp [hhost, dataFrame, FrameType.toInt] at htype

end Step

/-! ## A new request is newer than what anyone knows -/

/-- Every id in a table was drawn from some node's counter.  If no id above the counter
of `o` gets attached to its address along the run, then no entry for `o` has a higher
id than `o` has drawn, and a request that `o` originates next is accepted by every
node that has not been reached by a frame of `o` at least as new. -/
theorem entry_ids_reached {h : List (Net Node × Action Node)} {s : Net Node}
    (ht : Trace T.step (Net.initial Node) h s) :
    (∀ n, ∀ e ∈ (s.nodes n).table, ∃ m, e.broadcastId ≤ (s.nodes m).counter.value) ∧
    ∀ o, (∀ x ∈ h, OwnIds T o x.1 x.2) →
      (∀ n, ∀ e ∈ (s.nodes n).table, e.destip = T.ip o →
        e.broadcastId ≤ (s.nodes o).counter.value) ∧
      ∀ a s₁ q h₂ s₂ n, T.step s a = some s₁ → q ∈ s₁.flight → q ∉ s.flight →
        q.host.frameType = FrameType.rreq.toInt → q.host.srcIp = T.ip o → q.trail = [] →
        Trace T.step s₁ h₂ s₂ →
        (∀ x ∈ h₂, NoNewerFor n (T.ip o) q.host.broadcastId x.1 x.2) →
        duplicateFilter q.host (s₂.nodes n).table = false ∧
          ∀ e, route (s₂.nodes n).table (T.ip o) = some e → acceptsUpdate q.host e = true := by
  constructor
  · have hdrawn : FramesWf T s ∧ IdsHold (fun _ b => DrawnIn s b) s := by
      refine Trace.invariant (I := fun s => FramesWf T s ∧ IdsHold (fun _ b => DrawnIn s b) s)
        ⟨framesWf_of_quiet quiet_initial, idsHold_initial _⟩ ?_ ht
      intro s a s' hI hs
      exact ⟨framesWf_step hI.1 hs, drawnIn_step hI.1 hI.2 hs⟩
    exact hdrawn.2.table
  · intro o hids
    have hreached : FramesWf T s ∧ IdsHold (Reached T o s) s := by
      refine Trace.invariant_of_guard (G := OwnIds T o)
        (I := fun s => FramesWf T s ∧ IdsHold (Reached T o s) s)
        ⟨framesWf_of_quiet quiet_initial, idsHold_initial _⟩ ?_ ht hids
      intro s a s' hI hG hs
      exact ⟨framesWf_step hI.1 hs, reached_step hI.1 hI.2 hG hs⟩
    refine ⟨hreached.2.table, ?_⟩
    intro a s₁ q h₂ s₂ n hs hq hnew htype hsrc htrail ht₂ hno
    have hid := originated_id hs hq hnew htype hsrc htrail
    -- at the origination everything known of `o`, in tables or in flight, is older
    have hold : Older s n (T.ip o) q.host.broadcastId := by
      intro e he hdestip
      have hle := hreached.2.table n e he hdestip
      omega
    have hfirst : NoNewerFor n (T.ip o) q.host.broadcastId s a := by
      intro k env p _ hk _ hp
      have hle := hreached.2.flight p (List.mem_of_getElem? hk) hp
      omega
    have holder : Older s₂ n (T.ip o) q.host.broadcastId :=
      Trace.invariant_of_guard (G := NoNewerFor n (T.ip o) q.host.broadcastId)
        (I := fun s => Older s n (T.ip o) q.host.broadcastId) (hold.step hfirst hs)
        (fun _ _ _ hI hG hs => hI.step hG hs) ht₂ hno
    rw [← hsrc] at holder ⊢
    exact holder.accepts

/-- After the first discovery on the line the last node sends a request of its own.  While
the message of the first node is under way, the middle node, which has a route to the last
node, would still take the request. -/
theorem lineDiscovery_ids_reached : ∃ h s, Trace lineNet.step (Net.initial (Fin 3)) h s ∧
    (route (s.nodes 0).table "10.0.0.3").isSome ∧
    (∀ n, ∀ e ∈ (s.nodes n).table, e.destip = lineNet.ip 2 →
      e.broadcastId ≤ (s.nodes 2).counter.value) ∧
    ∃ s₁ q h₂ s₂, lineNet.step s (.request 2 (messageFor "10.0.0.9") (.reliable 4)) = some s₁ ∧
      q ∈ s₁.flight ∧ Trace lineNet.step s₁ h₂ s₂ ∧ h₂.length = 1 ∧
      ∃ e, route (s₂.nodes 1).table (lineNet.ip 2) = some e ∧ acceptsUpdate q.host e = true := by
  let asks (s : Net (Fin 3)) := lineNet.takeRequest s 2 (messageFor "10.0.0.9") (.reliable 4)
  obtain ⟨h, s, ht, hp⟩ := Trace.exists_of_exec lineNet.step (Net.initial (Fin 3)) lineDiscovery
    (fun h s => s.alive 2 && (route (s.nodes 0).table "10.0.0.3").isSome &&
      h.all (ownIds lineNet 2) &&
      s.flight.all (fun p => decide (p.host.srcIp ≠ lineNet.ip 2)) &&
      (asks s).flight.any (fun q => decide (q.host.frameType = FrameType.rreq.toInt ∧
        q.host.srcIp = lineNet.ip 2 ∧ q.trail.length = 0)) &&
      Option.any (fun r : List (Net (Fin 3) × Action (Fin 3)) × Net (Fin 3) =>
          r.1.all (deliversNothingOf (lineNet.ip 2)) && decide (r.1.length = 1) &&
            (route (r.2.nodes 1).table (lineNet.ip 2)).isSome)
        (exec lineNet.step [] (asks s) [.deliver 0 (.reliable 4)])) (by decide +kernel)
  simp only [Bool.and_eq_true] at hp
  obtain ⟨⟨⟨⟨⟨halive, hroute⟩, hids⟩, hflight⟩, hasked⟩, hlast⟩ := hp
  obtain ⟨q, hmem, hq⟩ := List.any_eq_true.mp hasked
  obtain ⟨htype, hsrc, htrail⟩ := of_decide_eq_true hq
  have hnew : q ∉ s.flight :=
    fun hold => of_decide_eq_true (List.all_eq_true.mp hflight q hold) hsrc
  have hstep : lineNet.step s (.request 2 (messageFor "10.0.0.9") (.reliable 4)) =
      some (asks s) := if_pos halive
  obtain ⟨r, hr, hend⟩ := (Option.any_eq_true _ _).mp hlast
  simp only [Bool.and_eq_true, decide_eq_true_eq] at hend
  obtain ⟨⟨hnone, hlen⟩, hsome⟩ := hend
  obtain ⟨e, he⟩ := Option.isSome_iff_exists.mp hsome
  obtain ⟨hle, haccepts⟩ := (entry_ids_reached ht).2 2 (ownIds_of_all hids)
  have hlater := haccepts _ _ q r.1 r.2 1 hstep hmem hnew htype hsrc
    (List.length_eq_zero_iff.mp htrail) (Trace.of_exec hr) (noNewerFor_of_all hnone 1 _)
  exact ⟨h, s, ht, hroute, hle, _, q, r.1, r.2, hstep, hmem, Trace.of_exec hr, hlen, e, he,
    hlater.2 e he⟩

/-- The step delivers no request from `ip`. -/
def deliversNoRequestOf (ip : Ip) (x : Net Node × Action Node) : Bool :=
  match x.2 with
  | .request _ _ _ => true
  | .deliver k _ => (x.1.flight[k]?).all fun p =>
      decide (p.host.frameType = FrameType.rreq.toInt → p.host.srcIp ≠ ip)

/-- The last node of the line, whose counter is ahead, answers the first, and the first
sends a second message along the route. -/
def lineDirect : List (Action (Fin 3)) :=
  [.request 2 (messageFor "10.0.0.9") (.reliable 0),
    .request 2 (messageFor "10.0.0.9") (.reliable 0),
    .request 0 (messageFor "10.0.0.3") (.reliable 0), .deliver 2 (.reliable 0),
    .deliver 2 (.reliable 0), .deliver 2 (.reliable 0), .deliver 2 (.reliable 0),
    .request 0 (messageFor "10.0.0.3") (.reliable 0), .deliver 3 (.reliable 0)]

/-- The first node of the line sends a request and then answers one; the answer
overtakes the request. -/
def lineOvertaken : List (Action (Fin 3)) :=
  [.request 0 (messageFor "10.0.0.9") (.reliable 0),
    .request 1 (messageFor "10.0.0.1") (.reliable 0), .deliver 1 (.reliable 0),
    .deliver 2 (.reliable 0)]

/-- Entries get ids above the counter of the node they are about, through an answer
from a table and through a message sent along a route; and with all ids in order, a
node that has seen no request of the first node rejects one as old. -/
theorem entry_ids_not_reached :
    (∃ h s, Trace starNet.step (Net.initial (Fin 4)) h s ∧ ∃ e ∈ (s.nodes 1).table,
      e.destip = starNet.ip 3 ∧ (s.nodes 3).counter.value < e.broadcastId) ∧
    (∃ h s, Trace lineNet.step (Net.initial (Fin 3)) h s ∧ ∃ e ∈ (s.nodes 1).table,
      e.destip = lineNet.ip 0 ∧ (s.nodes 0).counter.value < e.broadcastId) ∧
    ∃ h s, Trace lineNet.step (Net.initial (Fin 3)) h s ∧
      (∀ x ∈ h, deliversNoRequestOf (lineNet.ip 0) x = true) ∧
      ∃ q ∈ s.flight, q.dst = 1 ∧ q.host.frameType = FrameType.rreq.toInt ∧
        q.host.srcIp = lineNet.ip 0 ∧ ∃ e, route (s.nodes 1).table (lineNet.ip 0) = some e ∧
          acceptsUpdate q.host e = false := by
  refine ⟨?_, ?_, ?_⟩
  · obtain ⟨h, s, ht, hp⟩ := Trace.exists_of_exec starNet.step (Net.initial (Fin 4)) starAnswer
      (fun _ s => (s.nodes 1).table.any fun e => decide (e.destip = starNet.ip 3 ∧
        (s.nodes 3).counter.value < e.broadcastId)) (by decide +kernel)
    obtain ⟨e, he, hid⟩ := List.any_eq_true.mp hp
    exact ⟨h, s, ht, e, he, of_decide_eq_true hid⟩
  · obtain ⟨h, s, ht, hp⟩ := Trace.exists_of_exec lineNet.step (Net.initial (Fin 3)) lineDirect
      (fun _ s => (s.nodes 1).table.any fun e => decide (e.destip = lineNet.ip 0 ∧
        (s.nodes 0).counter.value < e.broadcastId)) (by decide +kernel)
    obtain ⟨e, he, hid⟩ := List.any_eq_true.mp hp
    exact ⟨h, s, ht, e, he, of_decide_eq_true hid⟩
  · obtain ⟨h, s, ht, hp⟩ := Trace.exists_of_exec lineNet.step (Net.initial (Fin 3)) lineOvertaken
      (fun h s => h.all (deliversNoRequestOf (lineNet.ip 0)) && s.flight.any fun q =>
        decide (q.dst = 1 ∧ q.host.frameType = FrameType.rreq.toInt ∧
          q.host.srcIp = lineNet.ip 0) &&
        (route (s.nodes 1).table (lineNet.ip 0)).any fun e => !acceptsUpdate q.host e)
      (by decide +kernel)
    obtain ⟨hno, hq⟩ := Bool.and_eq_true _ _ ▸ hp
    obtain ⟨q, hmem, hq⟩ := List.any_eq_true.mp hq
    obtain ⟨hq, hrej⟩ := Bool.and_eq_true _ _ ▸ hq
    obtain ⟨hdst, htype, hsrc⟩ := of_decide_eq_true hq
    obtain ⟨e, he, hrej⟩ := (Option.any_eq_true _ _).mp hrej
    exact ⟨h, s, ht, List.all_eq_true.mp hno, q, hmem, hdst, htype, hsrc, e, he,
      by simpa using hrej⟩

end OnDemandRouting.Proofs
