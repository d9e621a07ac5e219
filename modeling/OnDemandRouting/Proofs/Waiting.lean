import OnDemandRouting.Proofs.Solicited
import OnDemandRouting.Proofs.UniqueRoutes

/-!
# Frames that wait although a route is known

A frame is queued only when there is no route to its destination.  A route comes in
with any frame of the destination, but the queue is looked at in one case only, when
a reply reaches the node it is for, and then one frame is taken out.  As long as no
other frame brings a route that is waited for, nothing waits behind a known route.
-/

namespace OnDemandRouting.Proofs

open OnDemandRouting.Lib
open OnDemandRouting.Model

variable {Node : Type} {T : Topology Node}

/-- The frames in the queue of a node that wait for a route to `ip`. -/
def waitingFor (ip : Ip) (pending : List PendingMsg) : List PendingMsg :=
  pending.filter fun q => decide (q.destip = ip)

/-- How many waiting frames the receipt of `f` releases: one on a reply for this node. -/
def releasedBy (cfg : Config) (f : OdrFrame) : Nat :=
  if f.frameType = FrameType.rrep.toInt ∧ f.destIp = cfg.selfIp then 1 else 0

/-- The step brings a frame, past the name lookups, to a node at which more frames wait
for a route to the frame's source than the frame releases. -/
def overlooks (T : Topology Node) (s : Net Node) : Action Node → Bool
  | .request _ _ _ => false
  | .deliver k env =>
      (s.flight[k]?).any fun p =>
        env.resolves p.host.srcIp && env.resolves p.host.destIp &&
          decide (releasedBy (T.cfg p.dst) p.host <
            (waitingFor p.host.srcIp (s.nodes p.dst).pending).length)

/-- A queued frame has no route. -/
def NoRouteWaiting (s : Net Node) : Prop :=
  ∀ n, ∀ q ∈ (s.nodes n).pending, route (s.nodes n).table q.destip = none

section Receipts

variable {s s' : Net Node} {a : Action Node} {env : Env} {p : Packet Node}
  {type : FrameType}

theorem Receipt.not_overlooked (hr : Receipt T s s' a env p type)
    (hok : overlooks T s a = false) :
    (waitingFor p.host.srcIp (s.nodes p.dst).pending).length ≤
      releasedBy (T.cfg p.dst) p.host := by
  obtain ⟨k, rfl, hk⟩ := hr.action
  simpa [overlooks, hk, hr.processed.srcName, hr.processed.destName] using hok

/-- After a receipt that overlooks nothing, no frame waits for the source any more. -/
theorem Receipt.none_waiting (hr : Receipt T s s' a env p type)
    (hok : overlooks T s a = false) {q : PendingMsg} (hold : q ∈ (s.nodes p.dst).pending)
    (hq : q ∈ (s'.nodes p.dst).pending) : q.destip ≠ p.host.srcIp := by
  intro hdestip
  have hle := hr.not_overlooked hok
  have hmem : q ∈ waitingFor p.host.srcIp (s.nodes p.dst).pending :=
    List.mem_filter.mpr ⟨hold, by simpa using hdestip⟩
  unfold releasedBy at hle
  split_ifs at hle with hrelease
  · -- a reply for this node: the only waiting frame is the one taken out
    obtain ⟨hrrep, hself⟩ := hrelease
    rw [FrameType.toInt_of_ofInt hr.processed.type_eq] at hrrep
    obtain rfl := FrameType.toInt_inj hrrep
    rw [hr.state.pending, pendingAfter, if_pos hself] at hq
    have hleft : q ∈ (eraseKey PendingMsg.destip p.host.srcIp (s.nodes p.dst).pending).filter
        fun q => decide (q.destip = p.host.srcIp) :=
      List.mem_filter.mpr ⟨hq, by simpa using hdestip⟩
    rw [filter_eraseKey_self] at hleft
    have htail : (waitingFor p.host.srcIp (s.nodes p.dst).pending).tail = [] := by
      rw [← List.length_eq_zero_iff, List.length_tail]
      omega
    rw [waitingFor] at htail
    simp [htail] at hleft
  · have hnil := List.length_eq_zero_iff.mp (Nat.le_zero.mp hle)
    simp [hnil] at hmem

/-- A receipt changes the routes to the frame's two addresses only, and a relay that
parks the frame is left without a route to the destination. -/
theorem Receipt.route_none (hr : Receipt T s s' a env p type)
    {ip : Ip} (hsrc : ip ≠ p.host.srcIp) (h : route (s.nodes p.dst).table ip = none) :
    route (s'.nodes p.dst).table ip = none := by
  rw [hr.state.table]
  refine findKey_eq_none_iff.mpr fun e he hdestip => ?_
  rcases mem_learnedRoute_table he with rfl | hold
  · exact hsrc hdestip.symm
  · exact findKey_eq_none_iff.mp h e hold hdestip

theorem noRouteWaiting_request {n : Node} {sparams : SendParams}
    (hinv : ∀ q ∈ (s.nodes n).pending, route (s.nodes n).table q.destip = none)
    (hu : UniqueRoutes (s.nodes n).table) :
    ∀ q ∈ (handlePeerMsg (T.cfg n) env sparams (s.nodes n)).node.pending,
      route (handlePeerMsg (T.cfg n) env sparams (s.nodes n)).node.table q.destip = none := by
  have hcall := handlePeerMsg_call (T.cfg n) env sparams (s.nodes n)
  intro q hq
  have hkeep (hold : q ∈ (s.nodes n).pending) :
      route (handlePeerMsg (T.cfg n) env sparams (s.nodes n)).node.table q.destip = none :=
    findKey_none_of_subset (fun _ he => hcall.mem_table he) (hinv q hold)
  cases hcall with
  | idle _ _ _ _ hpending =>
      rw [hpending] at hq
      exact hkeep hq
  | flooded portno _ hentry _ _ htable hqueue =>
      rcases hqueue with ⟨-, -, hpending, -⟩ | ⟨-, hpending, -⟩
      · rw [hpending] at hq
        exact hkeep hq
      · rw [hpending] at hq
        rcases List.mem_cons.mp hq with rfl | hold
        · rw [htable]
          exact UniqueRoutes.route_none hu hentry
        · exact hkeep hold
  | direct _ _ _ _ _ _ _ hpending =>
      rw [hpending] at hq
      exact hkeep hq

/-- A frame waits at `n` although `n` has an unexpired route for it, as a test. -/
def waitsBehindRoute (T : Topology Node) (s : Net Node) (n : Node) (now : Int) : Bool :=
  (s.nodes n).pending.any fun q =>
    (route (s.nodes n).table q.destip).any fun e =>
      decide (now - e.timestamp < (T.cfg n).staleParam)

theorem waitsBehindRoute_iff {n : Node} {now : Int} :
    waitsBehindRoute T s n now = true ↔
      ∃ q ∈ (s.nodes n).pending, HoldsFresh T s n q.destip now := by
  simp [waitsBehindRoute, HoldsFresh, Option.any_eq_true]

end Receipts

variable [DecidableEq Node]

section Step

variable {s s' : Net Node} {a : Action Node} {env : Env} {p : Packet Node}
  {type : FrameType}

theorem Receipt.route_dest_none (hr : Receipt T s s' a env p type) (hwf : FramesWf T s)
    (hu : UniqueRoutes (s.nodes p.dst).table) (hd : destAt T s env p = none) :
    route (s'.nodes p.dst).table p.host.destIp = none := by
  have hne := (hwf.flight p hr.mem).1.src_ne_dest
  rw [destAt, derefDest_of_ne hne] at hd
  rw [hr.state.table]
  calc route (learnedAt T s env p).table p.host.destIp
      = route (srcLookup (T.cfg p.dst) env p.host (s.nodes p.dst)).table p.host.destIp :=
        route_learnSource_of_ne (fun _ he => srcLookup_entry he) hne
    _ = route (destLookup (T.cfg p.dst) env p.host (s.nodes p.dst)).table p.host.destIp :=
        route_getREntry_of_ne hne
    _ = none := UniqueRoutes.route_none hu hd

theorem noRouteWaiting_receipt (hinv : NoRouteWaiting s) (hwf : FramesWf T s)
    (hu : UniqueRoutes (s.nodes p.dst).table) (hok : overlooks T s a = false)
    (hr : Receipt T s s' a env p type) :
    ∀ q ∈ (s'.nodes p.dst).pending, route (s'.nodes p.dst).table q.destip = none := by
  intro q hq
  have hq' := hq
  rw [hr.state.pending] at hq'
  rcases mem_pendingAfter hq' with hold | ⟨rfl, _, _, hd⟩
  · exact hr.route_none (hr.none_waiting hok hold hq) (hinv p.dst q hold)
  · exact hr.route_dest_none hwf hu hd

theorem noRouteWaiting_step (hinv : NoRouteWaiting s) (hwf : FramesWf T s)
    (hu : ∀ n, UniqueRoutes (s.nodes n).table) (hok : overlooks T s a = false)
    (hs : T.step s a = some s') : NoRouteWaiting s' := by
  intro n
  rcases step_cases hs with ⟨m, sparams, env, rfl, rfl⟩ | ⟨k, env, p, rfl, hk, rfl⟩
  · exact forall_nodes_takeRequest
      (fun _ st => ∀ q ∈ st.pending, route st.table q.destip = none) hinv
      (noRouteWaiting_request (hinv m) (hu m)) n
  · by_cases hn : n = p.dst
    · subst hn
      rcases handleEthernetMsg_cases (T.cfg p.dst) env p.ifIndex p.srcMac p.frame
        (s.nodes p.dst) with ⟨_, heq⟩ | ⟨_, _, exit, _, heq⟩ | ⟨type, hproc, _⟩
      · rw [deliverPacket_nodes_self, heq]
        exact hinv p.dst
      · rw [deliverPacket_nodes_self, heq]
        intro q hq
        exact findKey_none_of_subset (fun _ he => mem_srcLookup_table he) (hinv p.dst q hq)
      · exact noRouteWaiting_receipt hinv hwf (hu p.dst) hok (receipt_of_processed hk hproc)
    · rw [deliverPacket_nodes_of_ne _ _ _ _ hn]
      exact hinv n

end Step

/-! ## Nothing waits behind a known route -/

/-- In a run in which every frame that brings a route to an address releases all frames
waiting for it, no node ever has a frame waiting and an unexpired route to where it goes. -/
theorem no_frame_waits_behind_route {h : List (Net Node × Action Node)} {s : Net Node}
    (ht : Trace T.step (Net.initial Node) h s)
    (hok : ∀ x ∈ h, overlooks T x.1 x.2 = false) :
    ∀ n, ∀ q ∈ (s.nodes n).pending, ∀ now, ¬ HoldsFresh T s n q.destip now := by
  have hinv : NoRouteWaiting s := by
    induction ht with
    | nil => simp [NoRouteWaiting, Net.initial, NodeState.initial]
    | snoc ht hs ih =>
        obtain ⟨hlast, hok⟩ := List.forall_mem_cons.mp hok
        exact noRouteWaiting_step (ih hok) (framesWf_of_trace quiet_initial ht)
          (uniqueRoutes_of_trace ht) hlast hs
  rintro n q hq now ⟨e, he, _⟩
  simp [hinv n q hq] at he

/-- In the discovery on the line the answer finds the one message that waits for it. -/
theorem lineDiscovery_none_waits :
    ∃ h s, Trace lineNet.step (Net.initial (Fin 3)) h s ∧
      (∃ x ∈ h, (x.1.nodes 0).pending ≠ []) ∧ (route (s.nodes 0).table "10.0.0.3").isSome ∧
      ∀ n, ∀ q ∈ (s.nodes n).pending, ∀ now, ¬ HoldsFresh lineNet s n q.destip now := by
  obtain ⟨h, s, ht, hp⟩ := Trace.exists_of_exec lineNet.step (Net.initial (Fin 3)) lineDiscovery
    (fun h s => h.any (fun x => decide ((x.1.nodes 0).pending ≠ [])) &&
      (route (s.nodes 0).table "10.0.0.3").isSome && h.all fun x => !overlooks lineNet x.1 x.2)
    (by decide +kernel)
  simp only [Bool.and_eq_true, List.any_eq_true, decide_eq_true_eq, List.all_eq_true,
    Bool.not_eq_true'] at hp
  obtain ⟨⟨hwaits, hroute⟩, hok⟩ := hp
  exact ⟨h, s, ht, hwaits, hroute, no_frame_waits_behind_route ht hok⟩

/-- The two ends of the line ask for each other, and the request of the last node comes
through first. -/
def lineCrossing : List (Action (Fin 3)) :=
  [.request 0 (messageFor "10.0.0.3") (.reliable 0),
    .request 2 (messageFor "10.0.0.1") (.reliable 0), .deliver 1 (.reliable 0),
    .deliver 1 (.reliable 0)]

/-- The first node of the line has two messages for the last, and the answer to its
first request comes back. -/
def lineTwoMessages : List (Action (Fin 3)) :=
  [.request 0 (messageFor "10.0.0.3") (.reliable 0),
    .request 0 (messageFor "10.0.0.3") (.reliable 0), .deliver 0 (.reliable 0),
    .deliver 1 (.reliable 0), .deliver 1 (.reliable 0), .deliver 1 (.reliable 0)]

/-- A route that comes in with a request leaves the message for its source waiting, and a
reply leaves the second of two messages. -/
theorem message_waits_behind_route :
    (∃ h s, Trace lineNet.step (Net.initial (Fin 3)) h s ∧ h.map Prod.snd = lineCrossing.reverse ∧
      ∃ q ∈ (s.nodes 0).pending, HoldsFresh lineNet s 0 q.destip 0) ∧
    ∃ h s, Trace lineNet.step (Net.initial (Fin 3)) h s ∧
      h.map Prod.snd = lineTwoMessages.reverse ∧
      ∃ q ∈ (s.nodes 0).pending, HoldsFresh lineNet s 0 q.destip 0 := by
  have hrun (as : List (Action (Fin 3)))
      (hp : (exec lineNet.step [] (Net.initial (Fin 3)) as).any
        (fun r => waitsBehindRoute lineNet r.2 0 0) = true) :
      ∃ h s, Trace lineNet.step (Net.initial (Fin 3)) h s ∧ h.map Prod.snd = as.reverse ∧
        ∃ q ∈ (s.nodes 0).pending, HoldsFresh lineNet s 0 q.destip 0 := by
    obtain ⟨r, hr, hpr⟩ := (Option.any_eq_true _ _).mp hp
    exact ⟨r.1, r.2, Trace.of_exec hr, by simpa using Trace.map_snd_of_exec hr,
      waitsBehindRoute_iff.mp hpr⟩
  exact ⟨hrun lineCrossing (by decide +kernel), hrun lineTwoMessages (by decide +kernel)⟩

end OnDemandRouting.Proofs
