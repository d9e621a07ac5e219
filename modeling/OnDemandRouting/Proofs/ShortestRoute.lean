import OnDemandRouting.Proofs.Flood

/-!
# What the source learns

`D` answers every copy of the request it gets, with a fresh id and along its best
route to `S` so far.  As long as nobody else answers, the last of these replies
carries the highest id about `D`, and it runs along routes to `S` that get shorter
with every hop: it brings `S` a route to `D` no longer than the one `D` has to `S`.
A node that answers from its routing table breaks this, because it stamps its reply
with its own counter, which `check_r_entry` compares with the counter of `D`.
-/

namespace OnDemandRouting.Proofs

open OnDemandRouting.Lib
open OnDemandRouting.Model

variable {Node : Type} {T : Topology Node}

/-- `S` has a route to `D` with the id `c`, or a later one, over at most `k` hops, or
a reply with the id `c` on its way to `S` offers one. -/
def Promised (T : Topology Node) (S D : Node) (b : Int) (s : Net Node) (c k : Int) : Prop :=
  RouteCovers (s.nodes S) (T.ip D) c k ∨
    ∃ p ∈ s.flight, FrameType.ofInt p.host.frameType = some .rrep ∧ p.host.broadcastId = c ∧
      ∃ r, Near T S b s p.dst r ∧ p.host.hopCount + 1 + r ≤ k

/-- Only `D` has answered, and its last answer is on its way or has arrived. -/
structure Answered (T : Topology Node) (S D : Node) (b : Int) (s : Net Node) : Prop where
  requests : ∀ p ∈ s.flight, isFlood p.host = true →
    FrameType.ofInt p.host.frameType = some .rreq
  replies : ∀ p ∈ s.flight, FrameType.ofInt p.host.frameType = some .rrep →
    p.host.broadcastId ≤ (s.nodes D).counter.value
  routes : ∀ n e, route (s.nodes n).table (T.ip D) = some e →
    e.broadcastId ≤ (s.nodes D).counter.value
  current : ∀ e, route (s.nodes D).table (T.ip S) = some e →
    Promised T S D b s (s.nodes D).counter.value e.noHops

/-- `D` draws an id for every request it gets. -/
theorem Receipt.counter_of_request {s s' : Net Node} {a : Action Node} {env : Env}
    {p : Packet Node} (hr : Receipt T s s' a env p .rreq)
    (hself : p.host.destIp = T.ip p.dst) :
    (s'.nodes p.dst).counter.value = (s.nodes p.dst).counter.value + 1 := by
  have hcounter := hr.state.counter
  have hdraws : drawsId (T.cfg p.dst) p.host (destAt T s env p) .rreq = true := by
    simp only [drawsId, Bool.or_eq_true, decide_eq_true_eq]
    exact .inl hself
  rw [hcounter, if_pos hdraws]
  rfl

variable [DecidableEq Node]

section Step

variable {S D n : Node} {b c k : Int} {s s' : Net Node} {a : Action Node} {env : Env}
  {p : Packet Node} {type : FrameType}

theorem Discovery.near_nonneg (hd : Discovery T S D b s) (h : Near T S b s n k) : 0 ≤ k := by
  rcases h with ⟨_, hk⟩ | ⟨e, he, hcov⟩
  · exact hk
  · have hpos := hd.id_pos
    unfold Covers at hcov
    rcases hd.toSource n e he with ⟨hid, _, d, _, hd'⟩ | ⟨_, hzero⟩
    · omega
    · omega

theorem Discovery.reply_of_type (hd : Discovery T S D b s) (hp : p ∈ s.flight)
    (htype : FrameType.ofInt p.host.frameType = some .rrep) : ReplyCopy T S D b s p := by
  cases hd.flight p hp with
  | flood h =>
      have hflood := h.type
      simp [isFlood_iff htype] at hflood
  | reply h => exact h
  | message h =>
      have hdata := h.message.type
      simp [htype] at hdata

/-- Ids about `D` stay below the counter of `D`. -/
theorem Answered.routes_step (ha : Answered T S D b s) (hd : Discovery T S D b s)
    (hs : T.step s a = some s') (hcalm : Calm T s a) {e : REntry}
    (he : route (s'.nodes n).table (T.ip D) = some e) :
    e.broadcastId ≤ (s'.nodes D).counter.value := by
  have hcounter := counter_le_of_step hs D
  rcases route_step hs (hcalm.keeps n (T.ip D)) with hkeep | ⟨env, p, type, hr, _, hsrc, hnew, _⟩
  · rw [hkeep] at he
    have hle := ha.routes n e he
    omega
  · obtain rfl := Option.some.inj (hnew.symm.trans he)
    cases hd.flight p hr.mem with
    | flood h => exact absurd (h.ends.src_eq.symm.trans hsrc) hd.ip_ne
    | message h => exact absurd (h.message.ends.src_eq.symm.trans hsrc) hd.ip_ne
    | reply h =>
        have hle := ha.replies p hr.mem h.type
        exact Int.le_trans hle hcounter

/-- The promise moves with the reply: a relay passes it on along a shorter route, and
`S` takes it in. -/
theorem Promised.step (h : Promised T S D b s c k) (ha : Answered T S D b s)
    (hd : Discovery T S D b s) (hs : T.step s a = some s') (hcalm : Calm T s a)
    (hc : c = (s'.nodes D).counter.value) : Promised T S D b s' c k := by
  rcases h with hroute | ⟨p, hp, htype, hid, r, hnear, hk⟩
  · exact .inl (hroute.step hs (hcalm.keeps _ _))
  rcases hd.kept_or_received hs hcalm hp with hkept | ⟨env, type, hr⟩
  · exact .inr ⟨p, hkept, htype, hid, r, hnear.step hs hcalm, hk⟩
  obtain rfl : type = .rrep := Option.some.inj (hr.processed.type_eq.symm.trans htype)
  have hreply := hd.reply_of_type hp htype
  have hcovers := hr.routeCovers
  rw [hreply.ends.src_eq, hid] at hcovers
  by_cases hself : p.host.destIp = T.ip p.dst
  · -- the reply has arrived
    have hdst : p.dst = S := T.selfIp_inj _ _ (hself.symm.trans hreply.ends.dst_eq)
    obtain ⟨e, he, hcov⟩ := hcovers
    have hr0 := hd.near_nonneg hnear
    rw [hdst] at he
    exact .inl ⟨e, he, hcov.mono (by omega)⟩
  · obtain ⟨e, hdest, hback, he⟩ := hd.reply_route hcalm hr hreply hself
    obtain ⟨w, hnext, _, hw⟩ := hback.via
    obtain ⟨t, hplan, halong, hhost⟩ := react_forwards hself hdest hnext.hasInterface
    obtain ⟨q, hq, rfl⟩ := exists_mem_copies_of_along halong hnext
    have hflight := hr.copies_in_flight hs (hcalm.env_linksUp hr) hplan
      (List.mem_singleton_self t) q hq
    -- the relay's route to `D` is the one the reply offers, or as good
    have hlearned : (learnedAt T s env p).entry.noHops ≤ p.host.hopCount + 1 := by
      have hroute := hr.route_src
      rw [hreply.ends.src_eq] at hroute
      have hle := ha.routes_step hd hs hcalm hroute
      have hcov := covers_learnedAt T s env p
      unfold Covers at hcov
      omega
    have hhops : e.noHops ≤ r := by
      rcases hnear with ⟨hn, _⟩ | ⟨e', he', hcov⟩
      · exact absurd (hn ▸ hreply.ends.dst_eq) hself
      · obtain rfl := Option.some.inj (he'.symm.trans he)
        have hid' := hback.id_eq
        unfold Covers at hcov
        omega
    refine .inr ⟨q, hflight, ?_, ?_, e.noHops - 1, hw.step hs hcalm, ?_⟩
    all_goals rw [host_of_mem_copies hq, hhost]
    · rfl
    · exact hid
    · simp only [rrepFrame]
      omega

/-- A request that reaches `D` renews the promise. -/
theorem Discovery.promised_of_request (hd : Discovery T S D b s) (hs : T.step s a = some s')
    (hcalm : Calm T s a) (hr : Receipt T s s' a env p .rreq) (hdst : p.dst = D) {e : REntry}
    (he : route (s'.nodes D).table (T.ip S) = some e) :
    Promised T S D b s' (s'.nodes D).counter.value e.noHops := by
  subst hdst
  have hcopy := hd.flood_of_isFlood hr.mem ((isFlood_iff hr.processed.type_eq).mpr (.inl rfl))
  have hself : p.host.destIp = T.ip p.dst := hcopy.ends.dst_eq
  have hback := hd.learned_source hs hcalm hr hcopy
  obtain rfl : (learnedAt T s env p).entry = e := by
    have hroute := hr.route_src
    rw [hcopy.ends.src_eq] at hroute
    exact Option.some.inj (hroute.symm.trans he)
  obtain ⟨w, hnext, _, hw⟩ := hback.via
  obtain ⟨t, hplan, halong, hhost⟩ := react_answers hself hnext.hasInterface
  obtain ⟨q, hq, rfl⟩ := exists_mem_copies_of_along halong hnext
  have hflight := hr.copies_in_flight hs (hcalm.env_linksUp hr) hplan
    (List.mem_singleton_self t) q hq
  refine .inr ⟨q, hflight, ?_, ?_, _, hw, ?_⟩
  all_goals rw [host_of_mem_copies hq, hhost]
  · rfl
  · exact (hr.counter_of_request hself).symm
  · simp only [rrepFrame]
    omega

theorem Answered.current_step (ha : Answered T S D b s) (hd : Discovery T S D b s)
    (hs : T.step s a = some s') (hcalm : Calm T s a) {e : REntry}
    (he : route (s'.nodes D).table (T.ip S) = some e) :
    Promised T S D b s' (s'.nodes D).counter.value e.noHops := by
  rcases hd.counter_step hs hcalm D with hkeep | ⟨env, p, hr, hdst⟩
  · rcases hd.source_step hs hcalm D with hroute | ⟨env, p, type, hr, rfl, _, hp⟩
    · rw [hroute] at he
      rw [hkeep]
      exact (ha.current e he).step ha hd hs hcalm (by rw [hkeep])
    · -- the route of `D` only changes with a request, and then the counter moves
      have hcopy := hp.resolve_right fun h => hd.ends_ne h.1.symm
      obtain rfl : type = .rreq := Option.some.inj
        (hr.processed.type_eq.symm.trans (ha.requests p hr.mem hcopy.type))
      have hmoves := hr.counter_of_request hcopy.ends.dst_eq
      rw [hkeep] at hmoves
      omega
  · exact hd.promised_of_request hs hcalm hr hdst he

/-- What is sent when only `D` answers. -/
theorem Answered.sends (ha : Answered T S D b s) (hd : Discovery T S D b s)
    (hs : T.step s a = some s') (hown : cachedAnswerAt T s a = none)
    (hr : Receipt T s s' a env p type) {t : Transmission}
    (hsends : EthSends (T.cfg p.dst) p.ifIndex p.host (learnedAt T s env p) (destAt T s env p)
      { s.nodes p.dst with table := (learnedAt T s env p).table } type t) :
    (isFlood t.host = true → FrameType.ofInt t.host.frameType = some .rreq) ∧
      (FrameType.ofInt t.host.frameType = some .rrep →
        t.host.broadcastId ≤ (s'.nodes D).counter.value) := by
  have hflood (hin : type = .rreq ∨ type = .asent) : FloodCopy T S D b s p ∧ type = .rreq := by
    have hcopy := hd.flood_of_isFlood hr.mem ((isFlood_iff hr.processed.type_eq).mpr hin)
    exact ⟨hcopy, Option.some.inj
      (hr.processed.type_eq.symm.trans (ha.requests p hr.mem hcopy.type))⟩
  have hreply {f : OdrFrame} (hf : FrameType.ofInt f.frameType = some .rrep) :
      isFlood f = true → FrameType.ofInt f.frameType = some .rreq := by
    intro h
    simp [isFlood_iff hf] at h
  have hmessage {f : OdrFrame} (hf : FrameType.ofInt f.frameType = some .data) :
      (isFlood f = true → FrameType.ofInt f.frameType = some .rreq) ∧
        (FrameType.ofInt f.frameType = some .rrep →
          f.broadcastId ≤ (s'.nodes D).counter.value) := by
    simp [isFlood_iff hf, hf]
  cases hsends with
  | relay out hin hout hdest hflag hfl hhost hkind =>
      obtain ⟨_, rfl⟩ := hflood hin
      have hself : p.host.destIp ≠ T.ip p.dst := hdest.resolve_right (by decide)
      obtain rfl : out = .rreq := by
        rcases hkind with h | h | h
        · exact h
        · simp at h
        · obtain ⟨d, hd'⟩ := Option.isSome_iff_exists.mp h
          rw [hr.cachedAnswerAt_eq hself hd'] at hown
          simp at hown
      rw [hhost]
      exact ⟨fun _ => rfl, fun h => by simp [floodFrame, FrameType.ofInt_toInt] at h⟩
  | answerOwn hself halong hhost =>
      obtain ⟨hcopy, _⟩ := hflood (.inl rfl)
      have hdst : p.dst = D := T.selfIp_inj _ _ (hself.symm.trans hcopy.ends.dst_eq)
      have hcounter := hr.counter_of_request hself
      rw [hdst] at hcounter
      rw [hhost]
      refine ⟨hreply rfl, fun _ => ?_⟩
      simp only [rrepFrame, hdst, hcounter]
      exact Int.le_refl _
  | answerCached hself hdest =>
      rw [hr.cachedAnswerAt_eq hself hdest] at hown
      simp at hown
  | forwardRrep hself hdest halong hhost =>
      rw [hhost]
      exact ⟨hreply rfl, fun _ =>
        Int.le_trans (ha.replies p hr.mem hr.processed.type_eq) (counter_le_of_step hs D)⟩
  | releaseRrep _ hwaits htype =>
      have hmsg := (hd.pending _ _ (mem_of_findKey hwaits).1).2
      simp [hmsg.type] at htype
  | releaseData _ _ htype _ hhost =>
      rw [hhost]
      exact hmessage htype
  | forwardData _ _ _ hhost =>
      rw [hhost]
      exact hmessage hr.processed.type_eq
  | request _ _ _ _ hhost =>
      rw [hhost]
      exact ⟨fun _ => rfl, fun h => by simp [floodFrame, FrameType.ofInt_toInt] at h⟩

theorem answered_step (ha : Answered T S D b s) (hd : Discovery T S D b s)
    (hcalm : Calm T s a) (hown : cachedAnswerAt T s a = none) (hs : T.step s a = some s') :
    Answered T S D b s' := by
  have hcounter := counter_le_of_step hs D
  have hflight : ∀ p ∈ s'.flight,
      (isFlood p.host = true → FrameType.ofInt p.host.frameType = some .rreq) ∧
        (FrameType.ofInt p.host.frameType = some .rrep →
          p.host.broadcastId ≤ (s'.nodes D).counter.value) := by
    refine (preserve hs (fun p => (isFlood p.host = true →
        FrameType.ofInt p.host.frameType = some .rreq) ∧
        (FrameType.ofInt p.host.frameType = some .rrep →
          p.host.broadcastId ≤ (s'.nodes D).counter.value))
      (fun _ _ => True) (fun _ _ => True)
      (fun p hp => ⟨ha.requests p hp, fun h => Int.le_trans (ha.replies p hp h) hcounter⟩)
      (fun _ _ _ => trivial) (fun _ _ _ => trivial) (fun _ _ _ _ => trivial)
      (fun _ _ _ _ _ _ _ => trivial) (fun _ _ _ _ _ _ => trivial) ?eth ?peer).1
    case eth =>
      intro env p type t hr hsends q hq
      rw [host_of_mem_copies hq]
      exact ha.sends hd hs hown hr hsends
    case peer =>
      intro n sparams env t hact
      obtain ⟨k, env', hdeliver⟩ := hcalm.delivers
      simp [hdeliver] at hact
  exact ⟨fun p hp => (hflight p hp).1, fun p hp => (hflight p hp).2,
    fun n e he => ha.routes_step hd hs hcalm he, fun e he => ha.current_step hd hs hcalm he⟩

end Step

/-! ## After the discovery -/

section Runs

variable {S D : Node} {b : Int} {s₀ s₁ s : Net Node} {h : List (Net Node × Action Node)}

theorem Launch.answered (hlaunch : Launch T S D b s₀ s₁) : Answered T S D b s₁ := by
  obtain ⟨_, _, _, _, _, _, htable, _⟩ := hlaunch.call
  refine ⟨fun p hp _ => (hlaunch.floodCopy hp).2.1, fun p hp htype => ?_, ?_, ?_⟩
  · simp [(hlaunch.floodCopy hp).2.1] at htype
  · intro n e he
    simp [htable n, hlaunch.route_none (.inr rfl)] at he
  · intro e he
    simp [htable D, hlaunch.route_none (.inl rfl)] at he

theorem Launch.answered_of_trace (hlaunch : Launch T S D b s₀ s₁) (ht : Trace T.step s₁ h s)
    (hcalm : ∀ x ∈ h, Calm T x.1 x.2) (hown : ∀ x ∈ h, cachedAnswerAt T x.1 x.2 = none) :
    Answered T S D b s := by
  have hinv : Discovery T S D b s ∧ Answered T S D b s := by
    refine Trace.invariant_of_guard (G := fun s a => Calm T s a ∧ cachedAnswerAt T s a = none)
      (I := fun s => Discovery T S D b s ∧ Answered T S D b s)
      ⟨hlaunch.discovery, hlaunch.answered⟩ ?_ ht fun x hx => ⟨hcalm x hx, hown x hx⟩
    intro s a s' hI hG hs
    exact ⟨discovery_step hI.1 hG.1 hs, answered_step hI.2 hI.1 hG.1 hG.2 hs⟩
  exact hinv.2

end Runs

/-- After a discovery launched by `S` for `D` in which no node answers from its
routing table, frames delivered in any order and no entry going stale: once nothing
is in flight, `S` has a route to `D` whose hop count is the distance. -/
theorem discovery_finds_shortest {S D : Node} {b : Int} {s₀ s₁ s : Net Node}
    {h : List (Net Node × Action Node)} (hlaunch : Launch T S D b s₀ s₁)
    (hconnected : ∃ k, Walk (FloodLink T) S D k) (ht : Trace T.step s₁ h s)
    (hcalm : ∀ x ∈ h, Calm T x.1 x.2) (hown : ∀ x ∈ h, cachedAnswerAt T x.1 x.2 = none)
    (hdone : s.flight = []) :
    ∃ e, route (s.nodes S).table (T.ip D) = some e ∧ 0 ≤ e.noHops ∧
      (e.noHops.toNat : ℕ∞) = hopDist (FloodLink T) S D := by
  obtain ⟨hd, hspread⟩ := hlaunch.spread_of_trace ht hcalm
  have ha := hlaunch.answered_of_trace ht hcalm hown
  obtain ⟨k, hwalk⟩ := hconnected
  obtain ⟨d, _, hshortest, hdist⟩ := exists_walk_eq_hopDist hwalk
  -- a shortest walk meets `D` only at its end, so the flood has followed it
  obtain ⟨l, hl, havoid⟩ := hshortest.exists_avoiding_end
  obtain ⟨e, he, hcov⟩ := (hspread.near_of_walk hd (by simp [hdone]) havoid).resolve_left
    fun h => hd.ends_ne h.1.symm
  have hid := ((hd.toSource D e he).resolve_right fun h => hd.ends_ne h.1.symm).id_eq
  -- nothing is in flight, so the last answer of `D` has arrived
  obtain ⟨e', he', hcov'⟩ := (ha.current e he).resolve_right (by simp [hdone])
  have hle := ha.routes S e' he'
  obtain ⟨m, hlower, hm⟩ := (hd.toDest S e' he').reaches
  have hupper : e'.noHops ≤ d := by
    unfold Covers at hcov hcov'
    omega
  refine ⟨e', he', by omega, le_antisymm ?_ (hopDist_le_iff.mpr ⟨m, by omega, hlower⟩)⟩
  rw [hdist]
  exact_mod_cast (by omega : e'.noHops.toNat ≤ d)

theorem lineDiscovery_finds_shortest : ∃ h s, Trace lineNet.step lineLaunched h s ∧
    s.delivered.length = 1 ∧
    ∃ e, route (s.nodes 0).table (lineNet.ip 2) = some e ∧ 0 ≤ e.noHops ∧
      (e.noHops.toNat : ℕ∞) = hopDist (FloodLink lineNet) 0 2 := by
  obtain ⟨h, s, ht, hp, hdeliver⟩ := Trace.exists_of_exec_forall lineNet.step lineLaunched
    (List.replicate 6 (.deliver 0 (.reliable 0)))
    (fun h s => h.all (keepsEntries lineNet) &&
      (h.all (fun x => (cachedAnswerAt lineNet x.1 x.2).isNone) &&
        decide (s.flight.length = 0 ∧ s.delivered.length = 1)))
    (P := fun a => (∃ k env, a = .deliver k env) ∧ a.env.LinksUp)
    (by simp [Action.env, Env.reliable_linksUp]) (by decide +kernel)
  obtain ⟨hkeeps, hrest⟩ := Bool.and_eq_true _ _ ▸ hp
  obtain ⟨hown, hend⟩ := Bool.and_eq_true _ _ ▸ hrest
  obtain ⟨hdone, hdelivered⟩ := of_decide_eq_true hend
  have hwalk : Walk (FloodLink lineNet) 0 2 2 :=
    .tail (.tail .refl (by decide : FloodLink lineNet 0 1)) (by decide : FloodLink lineNet 1 2)
  refine ⟨h, s, ht, hdelivered, discovery_finds_shortest lineLaunched_launch ⟨2, hwalk⟩ ht
    (calm_of_keepsEntries hdeliver hkeeps) (fun x hx => ?_) (List.length_eq_zero_iff.mp hdone)⟩
  simpa using List.all_eq_true.mp hown x hx

/-- Empty tables, and the counter of node 1 ahead of the others. -/
def doubleStart : Net (Fin 3) :=
  { Net.initial (Fin 3) with
    nodes := fun n =>
      { NodeState.initial with counter := if n = 1 then ⟨20, by decide⟩ else .initial } }

/-- Node 0 has just asked for node 2, to which it is linked. -/
def doubleLaunched : Net (Fin 3) :=
  doubleNet.takeRequest doubleStart 0 (messageFor "10.0.0.3") (.reliable 0)

/-- The request reaches node 2 through node 1 first, and node 1 learns node 2 from the
answer.  Then the copy on the second link reaches node 1, which answers it from its
table.  The rest is delivered in order. -/
def doubleRun : List (Action (Fin 3)) :=
  [.deliver 0 (.reliable 0), .deliver 3 (.reliable 0), .deliver 3 (.reliable 0)] ++
    List.replicate 16 (.deliver 0 (.reliable 0))

/-- Node 0 ends with a route of two hops to its neighbour. -/
theorem doubleRun_misses_shortest : (∀ n m, n ≠ m → FloodLink doubleNet n m) ∧
    (∀ n, (doubleStart.nodes n).table = []) ∧
    Launch doubleNet 0 2 11 doubleStart doubleLaunched ∧
    ∃ h s, Trace doubleNet.step doubleLaunched h s ∧ (∀ x ∈ h, Calm doubleNet x.1 x.2) ∧
      s.flight = [] ∧ ∃ e, route (s.nodes 0).table (doubleNet.ip 2) = some e ∧
        e.noHops = 2 ∧ hopDist (FloodLink doubleNet) 0 2 < (e.noHops.toNat : ℕ∞) := by
  refine ⟨by decide, fun _ => rfl, ⟨⟨rfl, fun _ => rfl⟩, by simp [doubleStart, NodeState.initial],
    ⟨messageFor "10.0.0.3", .reliable 0, rfl, rfl, Env.reliable_linksUp 0, rfl⟩,
    by decide +kernel, rfl⟩, ?_⟩
  obtain ⟨h, s, ht, hp, hdeliver⟩ := Trace.exists_of_exec_forall doubleNet.step doubleLaunched
    doubleRun
    (fun h s => h.all (keepsEntries doubleNet) &&
      (decide (s.flight.length = 0) &&
        (route (s.nodes 0).table (doubleNet.ip 2)).any fun e : REntry => decide (e.noHops = 2)))
    (P := fun a => (∃ k env, a = .deliver k env) ∧ a.env.LinksUp)
    (by simp [doubleRun, Action.env, Env.reliable_linksUp]) (by decide +kernel)
  obtain ⟨hkeeps, hrest⟩ := Bool.and_eq_true _ _ ▸ hp
  obtain ⟨hdone, hroute⟩ := Bool.and_eq_true _ _ ▸ hrest
  obtain ⟨e, he, hhops⟩ := (Option.any_eq_true _ _).mp hroute
  refine ⟨h, s, ht, calm_of_keepsEntries hdeliver hkeeps,
    List.length_eq_zero_iff.mp (of_decide_eq_true hdone), e, he, of_decide_eq_true hhops, ?_⟩
  have hlink : FloodLink doubleNet 0 2 := by decide
  have hnear : hopDist (FloodLink doubleNet) 0 2 ≤ (1 : ℕ) := hopDist_le_of_walk (.tail .refl hlink)
  rw [of_decide_eq_true hhops]
  exact lt_of_le_of_lt hnear (by decide)

end OnDemandRouting.Proofs
