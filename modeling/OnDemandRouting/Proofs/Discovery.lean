import OnDemandRouting.Lib.Walk
import OnDemandRouting.Model.Wiring
import OnDemandRouting.Proofs.Freshness
import OnDemandRouting.Proofs.Progress

/-!
# One discovery

A node `S` accepts one message for `D` while nothing else is under way and nobody
has a route to either of them; then frames are delivered in any order and no entry
goes stale.  All frames of such a run are copies of the flood of `S`, replies about
`D`, or the message.  Replies run back along routes to `S`, so they only meet nodes
that have such a route, and the message runs along routes to `D` behind them.
Neither is ever parked, and neither disturbs the routes to `S`.
-/

namespace OnDemandRouting.Proofs

open OnDemandRouting.Lib
open OnDemandRouting.Model

variable {Node : Type} {T : Topology Node}

/-- A delivery in which no name lookup and no send of a frame fails, and no entry is
deleted. -/
structure Calm (T : Topology Node) (s : Net Node) (a : Action Node) : Prop where
  delivers : ∃ k env, a = .deliver k env
  linksUp : a.env.LinksUp
  keeps : ∀ n ip, ¬ Deletes T s a n ip

theorem calm_of_keepsEntries {h : List (Net Node × Action Node)}
    (hdeliver : ∀ x ∈ h, (∃ k env, x.2 = .deliver k env) ∧ x.2.env.LinksUp)
    (hkeeps : h.all (keepsEntries T) = true) : ∀ x ∈ h, Calm T x.1 x.2 := fun x hx =>
  ⟨(hdeliver x hx).1, (hdeliver x hx).2, not_deletes_of_keepsEntries hkeeps x hx⟩

theorem Calm.env_linksUp {s s' : Net Node} {a : Action Node} {env : Env} {p : Packet Node}
    {type : FrameType} (hcalm : Calm T s a) (hr : Receipt T s s' a env p type) :
    env.LinksUp := by
  obtain ⟨i, rfl, _⟩ := hr.action
  exact hcalm.linksUp

/-- `n` has the address `ip` or a route to it. -/
def Knows (T : Topology Node) (s : Net Node) (n : Node) (ip : Ip) : Prop :=
  T.ip n = ip ∨ (route (s.nodes n).table ip).isSome = true

/-- `n` is `S`, or has a route to `S` at least as fresh as one with id `b` over `k`
hops. -/
def Near (T : Topology Node) (S : Node) (b : Int) (s : Net Node) (n : Node) (k : Int) : Prop :=
  n = S ∧ 0 ≤ k ∨ RouteCovers (s.nodes n) (T.ip S) b k

theorem Near.mono {S n : Node} {b k k' : Int} {s : Net Node} (h : Near T S b s n k)
    (hk : k ≤ k') : Near T S b s n k' := by
  rcases h with ⟨hn, hpos⟩ | ⟨e, he, hcov⟩
  · exact .inl ⟨hn, by omega⟩
  · exact .inr ⟨e, he, hcov.mono hk⟩

/-- The frame goes from `src` to `dst` and does not force a discovery. -/
structure Between (f : OdrFrame) (src dst : Ip) : Prop where
  src_eq : f.srcIp = src
  dst_eq : f.destIp = dst
  flag_eq : f.routeDiscFlag = 0

/-- The message of `S` for `D`, as `handle_peer_msg` queues it. -/
structure IsMessage (T : Topology Node) (S D : Node) (f : OdrFrame) : Prop where
  type : FrameType.ofInt f.frameType = some .data
  ends : Between f (T.ip S) (T.ip D)
  id_eq : f.broadcastId = 0

variable [DecidableEq Node]

/-- A flood can go from `n` to `m` over at most `k` links. -/
def Reaches (T : Topology Node) (n m : Node) (k : Int) : Prop :=
  ∃ d : ℕ, Walk (FloodLink T) n m d ∧ (d : Int) ≤ k

/-- A route to `S` taken from the flood with id `b`. -/
structure SourceRoute (T : Topology Node) (S : Node) (b : Int) (s : Net Node) (n : Node)
    (e : REntry) : Prop where
  id_eq : e.broadcastId = b
  via : ∃ w, NextHop T n e w ∧ FloodLink T w n ∧ Near T S b s w (e.noHops - 1)
  reaches : Reaches T S n e.noHops

/-- A route to `D` taken from a reply. -/
structure DestRoute (T : Topology Node) (S D : Node) (b : Int) (s : Net Node) (n : Node)
    (e : REntry) : Prop where
  via : ∃ w, NextHop T n e w ∧ Knows T s w (T.ip D) ∧ ∃ k, Near T S b s w k
  reaches : Reaches T n D e.noHops

/-- A copy of the request of `S` with id `b`, as RREQ or ASENT. -/
structure FloodCopy (T : Topology Node) (S D : Node) (b : Int) (s : Net Node)
    (p : Packet Node) : Prop where
  type : isFlood p.host = true
  ends : Between p.host (T.ip S) (T.ip D)
  id_eq : p.host.broadcastId = b
  sender : ∃ m, Sender T p m ∧ FloodLink T m p.dst ∧ Near T S b s m p.host.hopCount ∧
    Reaches T S m p.host.hopCount

/-- A reply about `D` on its way to `S`. -/
structure ReplyCopy (T : Topology Node) (S D : Node) (b : Int) (s : Net Node)
    (p : Packet Node) : Prop where
  type : FrameType.ofInt p.host.frameType = some .rrep
  ends : Between p.host (T.ip D) (T.ip S)
  receiver : ∃ k, Near T S b s p.dst k
  sender : ∃ m, Sender T p m ∧ FloodLink T p.dst m ∧ Knows T s m (T.ip D) ∧
    (∃ k, Near T S b s m k) ∧ Reaches T m D p.host.hopCount

/-- The message on its way to `D`. -/
structure MessageCopy (T : Topology Node) (S D : Node) (b : Int) (s : Net Node)
    (p : Packet Node) : Prop where
  message : IsMessage T S D p.host
  receiver : ∃ k, Near T S b s p.dst k
  knows : Knows T s p.dst (T.ip D)

/-- What can be in flight. -/
inductive DiscoveryCopy (T : Topology Node) (S D : Node) (b : Int) (s : Net Node)
    (p : Packet Node) : Prop
  | flood (h : FloodCopy T S D b s p)
  | reply (h : ReplyCopy T S D b s p)
  | message (h : MessageCopy T S D b s p)

/-- A state of the discovery.  The message can come back to `S` and leave a route to
`S` there, with the id 0 that queued frames have. -/
structure Discovery (T : Topology Node) (S D : Node) (b : Int) (s : Net Node) : Prop where
  ends_ne : S ≠ D
  id_pos : 0 < b
  toSource : ∀ n e, route (s.nodes n).table (T.ip S) = some e →
    SourceRoute T S b s n e ∨ n = S ∧ e.broadcastId = 0
  toDest : ∀ n e, route (s.nodes n).table (T.ip D) = some e → DestRoute T S D b s n e
  flight : ∀ p ∈ s.flight, DiscoveryCopy T S D b s p
  pending : ∀ n, ∀ q ∈ (s.nodes n).pending, n = S ∧ IsMessage T S D q.odrframe

/-! ## What a calm step keeps -/

section Keeps

variable {S D n w : Node} {b k k' : Int} {s s' : Net Node} {a : Action Node} {ip : Ip}
  {e : REntry} {p : Packet Node}

theorem Near.step (h : Near T S b s n k) (hs : T.step s a = some s') (hcalm : Calm T s a) :
    Near T S b s' n k := by
  rcases h with hn | hroute
  · exact .inl hn
  · exact .inr (hroute.step hs (hcalm.keeps _ _))

theorem Knows.step (h : Knows T s n ip) (hs : T.step s a = some s') (hcalm : Calm T s a) :
    Knows T s' n ip := by
  rcases h with hn | hroute
  · exact .inl hn
  · exact .inr (route_isSome_step hs (hcalm.keeps _ _) hroute)

theorem SourceRoute.step (h : SourceRoute T S b s n e) (hs : T.step s a = some s')
    (hcalm : Calm T s a) : SourceRoute T S b s' n e := by
  obtain ⟨w, hnext, hlink, hnear⟩ := h.via
  exact ⟨h.id_eq, ⟨w, hnext, hlink, hnear.step hs hcalm⟩, h.reaches⟩

theorem DestRoute.step (h : DestRoute T S D b s n e) (hs : T.step s a = some s')
    (hcalm : Calm T s a) : DestRoute T S D b s' n e := by
  obtain ⟨w, hnext, hknows, k, hnear⟩ := h.via
  exact ⟨⟨w, hnext, hknows.step hs hcalm, k, hnear.step hs hcalm⟩, h.reaches⟩

theorem DiscoveryCopy.step (h : DiscoveryCopy T S D b s p) (hs : T.step s a = some s')
    (hcalm : Calm T s a) : DiscoveryCopy T S D b s' p := by
  cases h with
  | flood h =>
      obtain ⟨m, hsender, hlink, hnear, hreach⟩ := h.sender
      exact .flood ⟨h.type, h.ends, h.id_eq, m, hsender, hlink, hnear.step hs hcalm, hreach⟩
  | reply h =>
      obtain ⟨k, hdst⟩ := h.receiver
      obtain ⟨m, hsender, hlink, hknows, ⟨k', hnear⟩, hreach⟩ := h.sender
      exact .reply ⟨h.type, h.ends, ⟨k, hdst.step hs hcalm⟩, m, hsender, hlink,
        hknows.step hs hcalm, ⟨k', hnear.step hs hcalm⟩, hreach⟩
  | message h =>
      obtain ⟨k, hdst⟩ := h.receiver
      exact .message ⟨h.message, ⟨k, hdst.step hs hcalm⟩, h.knows.step hs hcalm⟩

theorem Reaches.own (hk : 0 ≤ k) : Reaches T n n k := ⟨0, .refl, hk⟩

theorem Reaches.tail (h : Reaches T n w k) {m : Node} (hlink : FloodLink T w m) :
    Reaches T n m (k + 1) := by
  obtain ⟨d, hwalk, hd⟩ := h
  exact ⟨d + 1, hwalk.tail hlink, by omega⟩

theorem Reaches.head {m : Node} (hlink : FloodLink T n w) (h : Reaches T w m k) :
    Reaches T n m (k + 1) := by
  obtain ⟨d, hwalk, hd⟩ := h
  exact ⟨d + 1, hwalk.head hlink, by omega⟩

end Keeps

/-! ## The routes after a step -/

section Routes

variable {S D n : Node} {b : Int} {s s' : Net Node} {a : Action Node} {e : REntry}
  {env : Env} {p : Packet Node} {type : FrameType}

/-- The two ends of the discovery have different addresses. -/
theorem Discovery.ip_ne (hd : Discovery T S D b s) : T.ip S ≠ T.ip D :=
  fun h => hd.ends_ne (T.selfIp_inj S D h)

/-- A node with a route to `S` from the flood takes no update from the message. -/
theorem Discovery.message_rejected (hd : Discovery T S D b s) (hmsg : IsMessage T S D p.host)
    (hnear : ∃ k, Near T S b s p.dst k) (hself : p.dst ≠ S) :
    ∃ e, route (s.nodes p.dst).table (T.ip S) = some e ∧ acceptsUpdate p.host e = false := by
  obtain ⟨k, ⟨hn, _⟩ | ⟨e, he, hcov⟩⟩ := hnear
  · exact absurd hn hself
  · refine ⟨e, he, ?_⟩
    have hpos := hd.id_pos
    have hzero := hmsg.id_eq
    unfold Covers at hcov
    rw [← Bool.not_eq_true, acceptsUpdate_iff]
    omega

/-- A step that changes a route to `S` takes it from a copy of the flood, except at
`S` itself. -/
theorem Discovery.source_step (hd : Discovery T S D b s) (hs : T.step s a = some s')
    (hcalm : Calm T s a) (n : Node) :
    route (s'.nodes n).table (T.ip S) = route (s.nodes n).table (T.ip S) ∨
      ∃ env p type, Receipt T s s' a env p type ∧ p.dst = n ∧
        route (s'.nodes n).table (T.ip S) =
          some (updateREntry p.host p.ifIndex p.srcMac env.updateTime) ∧
        (FloodCopy T S D b s p ∨ n = S ∧ p.host.broadcastId = 0) := by
  rcases route_step hs (hcalm.keeps n (T.ip S)) with
    hkeep | ⟨env, p, type, hr, rfl, hsrc, hnew, hacc⟩
  · exact .inl hkeep
  · refine .inr ⟨env, p, type, hr, rfl, hnew, ?_⟩
    cases hd.flight p hr.mem with
    | flood h => exact .inl h
    | reply h => exact absurd (hsrc.symm.trans h.ends.src_eq) hd.ip_ne
    | message h =>
        by_cases hself : p.dst = S
        · exact .inr ⟨hself, h.message.id_eq⟩
        · obtain ⟨e, he, hrej⟩ := hd.message_rejected h.message h.receiver hself
          simp [hacc e he] at hrej

theorem Discovery.toSource_step (hd : Discovery T S D b s) (hs : T.step s a = some s')
    (hcalm : Calm T s a) (he : route (s'.nodes n).table (T.ip S) = some e) :
    SourceRoute T S b s' n e ∨ n = S ∧ e.broadcastId = 0 := by
  rcases hd.source_step hs hcalm n with hkeep | ⟨env, p, type, hr, rfl, hnew, hp⟩
  · rw [hkeep] at he
    exact (hd.toSource n e he).imp_left fun h => h.step hs hcalm
  · obtain rfl : updateREntry p.host p.ifIndex p.srcMac env.updateTime = e :=
      Option.some.inj (hnew.symm.trans he)
    refine hp.imp_left fun h => ?_
    obtain ⟨m, hsender, hlink, hnear, hreach⟩ := h.sender
    refine ⟨h.id_eq, ⟨m, hsender.nextHop, hlink, ?_⟩, hreach.tail hlink⟩
    rw [updateREntry_noHops, Int.add_sub_cancel]
    exact hnear.step hs hcalm

theorem Discovery.toDest_step (hd : Discovery T S D b s) (hs : T.step s a = some s')
    (hcalm : Calm T s a) (he : route (s'.nodes n).table (T.ip D) = some e) :
    DestRoute T S D b s' n e := by
  rcases route_step hs (hcalm.keeps n (T.ip D)) with hkeep | ⟨env, p, type, hr, rfl, hsrc, hnew, _⟩
  · rw [hkeep] at he
    exact (hd.toDest n e he).step hs hcalm
  · obtain rfl : updateREntry p.host p.ifIndex p.srcMac env.updateTime = e :=
      Option.some.inj (hnew.symm.trans he)
    cases hd.flight p hr.mem with
    | flood h => exact absurd (h.ends.src_eq.symm.trans hsrc) hd.ip_ne
    | message h => exact absurd (h.message.ends.src_eq.symm.trans hsrc) hd.ip_ne
    | reply h =>
        obtain ⟨m, hsender, hlink, hknows, ⟨k, hnear⟩, hreach⟩ := h.sender
        exact ⟨⟨m, hsender.nextHop, hknows.step hs hcalm, k, hnear.step hs hcalm⟩,
          hreach.head hlink⟩

/-- The receiver of a copy of the flood has a route to `S` from the flood. -/
theorem Discovery.learned_source (hd : Discovery T S D b s) (hs : T.step s a = some s')
    (hcalm : Calm T s a) (hr : Receipt T s s' a env p type) (hp : FloodCopy T S D b s p) :
    SourceRoute T S b s' p.dst (learnedAt T s env p).entry := by
  have hroute := hr.route_src
  rw [hp.ends.src_eq] at hroute
  rcases hd.toSource_step hs hcalm hroute with h | ⟨_, hzero⟩
  · exact h
  · have hcov := covers_learnedAt T s env p
    have hpos := hd.id_pos
    rw [hp.id_eq] at hcov
    unfold Covers at hcov
    omega

theorem Discovery.learned_dest (hd : Discovery T S D b s) (hs : T.step s a = some s')
    (hcalm : Calm T s a) (hr : Receipt T s s' a env p type) (hp : ReplyCopy T S D b s p) :
    DestRoute T S D b s' p.dst (learnedAt T s env p).entry := by
  have hroute := hr.route_src
  rw [hp.ends.src_eq] at hroute
  exact hd.toDest_step hs hcalm hroute

/-- The receiver of a copy of the flood is as near to `S` as the copy says. -/
theorem Receipt.near (hr : Receipt T s s' a env p type) (hp : FloodCopy T S D b s p) :
    Near T S b s' p.dst (p.host.hopCount + 1) := by
  have hcov := hr.routeCovers
  rw [hp.ends.src_eq, hp.id_eq] at hcov
  exact .inr hcov

/-- A relay of a reply has a route to `S` from the flood. -/
theorem Discovery.reply_route (hd : Discovery T S D b s) (hcalm : Calm T s a)
    (hr : Receipt T s s' a env p type) (hp : ReplyCopy T S D b s p)
    (hself : p.host.destIp ≠ T.ip p.dst) :
    ∃ e, destAt T s env p = some e ∧ SourceRoute T S b s p.dst e ∧
      route (s.nodes p.dst).table (T.ip S) = some e := by
  have hdst : p.dst ≠ S := by
    rintro rfl
    exact hself hp.ends.dst_eq
  have hdest : destAt T s env p = route (s.nodes p.dst).table p.host.destIp := by
    refine hr.destAt_eq ?_ (hcalm.keeps _ _)
    rw [hp.ends.src_eq, hp.ends.dst_eq]
    exact hd.ip_ne.symm
  rw [hp.ends.dst_eq] at hdest
  obtain ⟨k, ⟨hn, _⟩ | ⟨e, he, _⟩⟩ := hp.receiver
  · exact absurd hn hdst
  · refine ⟨e, hdest.trans he, ?_, he⟩
    exact (hd.toSource p.dst e he).resolve_right fun h => hdst h.1

/-- A relay of the message has a route to `D`. -/
theorem Discovery.message_route (hd : Discovery T S D b s) (hcalm : Calm T s a)
    (hr : Receipt T s s' a env p type) (hp : MessageCopy T S D b s p)
    (hself : p.host.destIp ≠ T.ip p.dst) :
    ∃ e, destAt T s env p = some e ∧ DestRoute T S D b s p.dst e := by
  have hdest : destAt T s env p = route (s.nodes p.dst).table p.host.destIp := by
    refine hr.destAt_eq ?_ (hcalm.keeps _ _)
    rw [hp.message.ends.src_eq, hp.message.ends.dst_eq]
    exact hd.ip_ne
  rw [hp.message.ends.dst_eq] at hdest hself
  obtain ⟨e, he⟩ := Option.isSome_iff_exists.mp (hp.knows.resolve_left (Ne.symm hself))
  exact ⟨e, hdest.trans he, hd.toDest p.dst e he⟩

/-- No frame is parked: relays have the route they need. -/
theorem Discovery.not_parked (hd : Discovery T S D b s) (hcalm : Calm T s a)
    (hr : Receipt T s s' a env p type) (htype : type = .rrep ∨ type = .data)
    (hself : p.host.destIp ≠ T.ip p.dst) : destAt T s env p ≠ none := by
  intro hnone
  cases hd.flight p hr.mem with
  | flood hp =>
      have hflood := (isFlood_iff hr.processed.type_eq).mp hp.type
      rcases htype with rfl | rfl
      · simp at hflood
      · simp at hflood
  | reply hp =>
      obtain ⟨e, he, _⟩ := hd.reply_route hcalm hr hp hself
      simp [he] at hnone
  | message hp =>
      obtain ⟨e, he, _⟩ := hd.message_route hcalm hr hp hself
      simp [he] at hnone

/-- Every copy that is delivered gets into the switch. -/
theorem DiscoveryCopy.receipt {i : Nat} (hp : DiscoveryCopy T S D b s p) (henv : env.LinksUp)
    (hi : s.flight[i]? = some p) :
    ∃ type, Receipt T s (T.deliverPacket s p (s.flight.eraseIdx i) env) (.deliver i env) env p
      type := by
  have hframe : p.host.routeDiscFlag = 0 ∧
      ∃ type, FrameType.ofInt p.host.frameType = some type := by
    cases hp with
    | flood h =>
        rcases of_decide_eq_true h.type with htype | htype
        · exact ⟨h.ends.flag_eq, .rreq, by rw [htype]; rfl⟩
        · exact ⟨h.ends.flag_eq, .asent, by rw [htype]; rfl⟩
    | reply h => exact ⟨h.ends.flag_eq, .rrep, h.type⟩
    | message h => exact ⟨h.message.ends.flag_eq, .data, h.message.type⟩
  obtain ⟨hflag, type, htype⟩ := hframe
  exact ⟨type, receipt_of_processed hi (processed_of_linksUp henv (by simp [hflag]) htype)⟩

theorem Discovery.exists_receipt (hd : Discovery T S D b s) (hs : T.step s a = some s')
    (hcalm : Calm T s a) : ∃ env p type, Receipt T s s' a env p type := by
  obtain ⟨i, env, rfl⟩ := hcalm.delivers
  obtain ⟨p, hp, rfl⟩ := step_deliver hs
  obtain ⟨type, hr⟩ := (hd.flight p (List.mem_of_getElem? hp)).receipt hcalm.linksUp hp
  exact ⟨env, p, type, hr⟩

/-- A copy stays in flight until its receiver takes it in. -/
theorem Discovery.kept_or_received (hd : Discovery T S D b s) (hs : T.step s a = some s')
    (hcalm : Calm T s a) (hp : p ∈ s.flight) :
    p ∈ s'.flight ∨ ∃ env type, Receipt T s s' a env p type := by
  obtain ⟨i, env, rfl⟩ := hcalm.delivers
  obtain ⟨x, hx, rfl⟩ := step_deliver hs
  by_cases hpx : p = x
  · subst hpx
    obtain ⟨type, hr⟩ := (hd.flight p hp).receipt hcalm.linksUp hx
    exact .inr ⟨env, type, hr⟩
  · exact .inl (mem_flight_of_ne hx hp hpx)

/-- A counter moves only when a request is received. -/
theorem Discovery.counter_step (hd : Discovery T S D b s) (hs : T.step s a = some s')
    (hcalm : Calm T s a) (n : Node) :
    (s'.nodes n).counter = (s.nodes n).counter ∨
      ∃ env p, Receipt T s s' a env p .rreq ∧ p.dst = n := by
  obtain ⟨env, p, type, hr⟩ := hd.exists_receipt hs hcalm
  by_cases hn : p.dst = n
  · subst hn
    have hcounter := hr.state.counter
    cases type with
    | rreq => exact .inr ⟨env, p, hr, rfl⟩
    | asent => exact .inl hcounter
    | rrep =>
        left
        rw [hcounter, if_neg]
        intro hdraws
        simp only [drawsId, Bool.and_eq_true, decide_eq_true_eq, Option.isNone_iff_eq_none]
          at hdraws
        exact hd.not_parked hcalm hr (.inl rfl) hdraws.1 hdraws.2
    | data =>
        left
        rw [hcounter, if_neg]
        intro hdraws
        simp only [drawsId, Bool.and_eq_true, decide_eq_true_eq, Option.isNone_iff_eq_none]
          at hdraws
        exact hd.not_parked hcalm hr (.inr rfl) hdraws.1 hdraws.2
  · exact .inl (by rw [hr.others n (Ne.symm hn)])

end Routes

/-! ## The frames after a step -/

section Sends

variable {S D n : Node} {b : Int} {s s' : Net Node} {a : Action Node} {e : REntry}
  {env : Env} {p q : Packet Node} {type : FrameType} {t : Transmission}
  {trail : List (RelayEvent Node)}

/-- A reply sent along a route to `S`. -/
theorem SourceRoute.replyCopy (he : SourceRoute T S b s n e) (halong : Along (T.cfg n) e t)
    (hq : q ∈ T.copies n trail t) (htype : FrameType.ofInt t.host.frameType = some .rrep)
    (hends : Between t.host (T.ip D) (T.ip S)) (hknows : Knows T s n (T.ip D))
    (hnear : ∃ k, Near T S b s n k) (hreach : Reaches T n D t.host.hopCount) :
    ReplyCopy T S D b s q := by
  obtain ⟨w, hnext, hlink, hw⟩ := he.via
  obtain rfl : q.dst = w := (nextHop_of_mem_copies halong hnext.ne_broadcast hq).unique hnext
  have hhost := host_of_mem_copies hq
  refine ⟨by rwa [hhost], by rwa [hhost], ⟨_, hw⟩, n, ?_, hlink, hknows, hnear, by rwa [hhost]⟩
  exact sender_of_mem_copies (haddr_of_along halong) hq

/-- The message sent along a route to `D`. -/
theorem DestRoute.messageCopy (he : DestRoute T S D b s n e) (halong : Along (T.cfg n) e t)
    (hq : q ∈ T.copies n trail t) (hmsg : IsMessage T S D t.host) :
    MessageCopy T S D b s q := by
  obtain ⟨w, hnext, hknows, hnear⟩ := he.via
  obtain rfl : q.dst = w := (nextHop_of_mem_copies halong hnext.ne_broadcast hq).unique hnext
  exact ⟨by rwa [host_of_mem_copies hq], hnear, hknows⟩

theorem Discovery.flood_sends (hd : Discovery T S D b s) (hs : T.step s a = some s')
    (hcalm : Calm T s a) (hr : Receipt T s s' a env p type) (hp : FloodCopy T S D b s p)
    (hsends : EthSends (T.cfg p.dst) p.ifIndex p.host (learnedAt T s env p) (destAt T s env p)
      { s.nodes p.dst with table := (learnedAt T s env p).table } type t)
    (hq : q ∈ T.copies p.dst trail t) : DiscoveryCopy T S D b s' q := by
  have htype := (isFlood_iff hr.processed.type_eq).mp hp.type
  have hback := hd.learned_source hs hcalm hr hp
  have hnear := hr.near hp
  -- an answer swaps the two ends of the request
  have hends (bid hop : Int) : Between (rrepFrame bid hop p.host.payloadLen p.host.dstPort
      p.host.srcPort p.host.srcIp p.host.destIp) (T.ip D) (T.ip S) :=
    ⟨hp.ends.dst_eq, hp.ends.src_eq, rfl⟩
  cases hsends with
  | relay out _ hout _ _ hflood hhost =>
      obtain ⟨m, _, hlink, _, hreach⟩ := hp.sender
      refine .flood ⟨?_, ?_, ?_, p.dst, sender_of_mem_copies (haddr_of_flooded hflood) hq,
        hflood.floodLink hq, ?_, ?_⟩
      all_goals rw [host_of_mem_copies hq, hhost]
      · rcases hout with rfl | rfl
        · rfl
        · rfl
      · exact ⟨hp.ends.src_eq, hp.ends.dst_eq, hp.ends.flag_eq⟩
      · exact hp.id_eq
      · exact hnear
      · exact hreach.tail hlink
  | answerOwn hself halong hhost =>
      obtain rfl : p.dst = D := T.selfIp_inj _ _ (hself.symm.trans hp.ends.dst_eq)
      exact .reply (hback.replyCopy halong hq (by rw [hhost]; rfl) (hhost ▸ hends _ _)
        (.inl rfl) ⟨_, hnear⟩ (by rw [hhost]; exact .own (Int.le_refl 0)))
  | @answerCached _ d hself hdest halong hhost =>
      have hne : p.host.srcIp ≠ p.host.destIp := by
        rw [hp.ends.src_eq, hp.ends.dst_eq]
        exact hd.ip_ne
      have hroute : route (s.nodes p.dst).table p.host.destIp = some d :=
        route_of_derefDest hne hdest
      rw [hp.ends.dst_eq] at hroute
      have hknows : Knows T s p.dst (T.ip D) := .inr (by rw [hroute]; rfl)
      exact .reply (hback.replyCopy halong hq (by rw [hhost]; rfl) (hhost ▸ hends _ _)
        (hknows.step hs hcalm) ⟨_, hnear⟩ (by rw [hhost]; exact (hd.toDest _ _ hroute).reaches))
  | forwardRrep => simp at htype
  | releaseRrep => simp at htype
  | releaseData => simp at htype
  | forwardData => simp at htype
  | request hin =>
      rcases hin with rfl | rfl
      · simp at htype
      · simp at htype

theorem Discovery.reply_sends (hd : Discovery T S D b s) (hs : T.step s a = some s')
    (hcalm : Calm T s a) (hr : Receipt T s s' a env p type) (hp : ReplyCopy T S D b s p)
    (hsends : EthSends (T.cfg p.dst) p.ifIndex p.host (learnedAt T s env p) (destAt T s env p)
      { s.nodes p.dst with table := (learnedAt T s env p).table } type t)
    (hq : q ∈ T.copies p.dst trail t) : DiscoveryCopy T S D b s' q := by
  obtain rfl : type = .rrep := Option.some.inj (hr.processed.type_eq.symm.trans hp.type)
  have hout := hd.learned_dest hs hcalm hr hp
  obtain ⟨k, hnear⟩ := hp.receiver
  cases hsends with
  | relay out hin => simp at hin
  | forwardRrep hself hdest halong hhost =>
      obtain ⟨e, he, hback, _⟩ := hd.reply_route hcalm hr hp hself
      obtain rfl := Option.some.inj (hdest.symm.trans he)
      have hknows : Knows T s' p.dst (T.ip D) := by
        rw [← hp.ends.src_eq]
        exact .inr (by rw [hr.route_src]; rfl)
      exact .reply ((hback.step hs hcalm).replyCopy halong hq (by rw [hhost]; rfl)
        (hhost ▸ ⟨hp.ends.src_eq, hp.ends.dst_eq, rfl⟩) hknows ⟨k, hnear.step hs hcalm⟩
        (by rw [hhost]; exact hout.reaches))
  | releaseRrep _ hwaits htype =>
      have hmsg := (hd.pending _ _ (mem_of_findKey hwaits).1).2
      simp [hmsg.type] at htype
  | releaseData _ hwaits _ halong hhost =>
      have hmsg := (hd.pending _ _ (mem_of_findKey hwaits).1).2
      exact .message (hout.messageCopy halong hq (hhost ▸ hmsg))
  | request hin hself hdest => exact absurd hdest (hd.not_parked hcalm hr hin hself)

theorem Discovery.message_sends (hd : Discovery T S D b s) (hs : T.step s a = some s')
    (hcalm : Calm T s a) (hr : Receipt T s s' a env p type) (hp : MessageCopy T S D b s p)
    (hsends : EthSends (T.cfg p.dst) p.ifIndex p.host (learnedAt T s env p) (destAt T s env p)
      { s.nodes p.dst with table := (learnedAt T s env p).table } type t)
    (hq : q ∈ T.copies p.dst trail t) : DiscoveryCopy T S D b s' q := by
  obtain rfl : type = .data := Option.some.inj (hr.processed.type_eq.symm.trans hp.message.type)
  cases hsends with
  | relay out hin => simp at hin
  | forwardData hself hdest halong hhost =>
      obtain ⟨e, he, hout⟩ := hd.message_route hcalm hr hp hself
      obtain rfl := Option.some.inj (hdest.symm.trans he)
      have hends := hp.message.ends
      refine .message ((hout.step hs hcalm).messageCopy halong hq ?_)
      rw [hhost]
      exact ⟨hp.message.type, ⟨hends.src_eq, hends.dst_eq, hends.flag_eq⟩, hp.message.id_eq⟩
  | request hin hself hdest => exact absurd hdest (hd.not_parked hcalm hr hin hself)

theorem discovery_step (hd : Discovery T S D b s) (hcalm : Calm T s a)
    (hs : T.step s a = some s') : Discovery T S D b s' := by
  obtain ⟨k, env, rfl⟩ := hcalm.delivers
  refine And.elim (fun hflight hrest => ⟨hd.ends_ne, hd.id_pos,
      fun n e he => hd.toSource_step hs hcalm he, fun n e he => hd.toDest_step hs hcalm he,
      hflight, hrest.2⟩)
    (preserve hs (DiscoveryCopy T S D b s') (fun _ _ => True)
      (fun n q => n = S ∧ IsMessage T S D q.odrframe)
      (fun p hp => (hd.flight p hp).step hs hcalm) (fun _ _ _ => trivial) hd.pending
      (fun _ _ _ _ => trivial) ?park ?queue ?eth ?peer)
  case park =>
    intro env p type hr htype hself hnone
    exact absurd hnone (hd.not_parked hcalm hr htype hself)
  case queue =>
    intro n sparams env' portno ha
    simp at ha
  case eth =>
    intro env p type t hr hsends q hq
    cases hd.flight p hr.mem with
    | flood hp => exact hd.flood_sends hs hcalm hr hp hsends hq
    | reply hp => exact hd.reply_sends hs hcalm hr hp hsends hq
    | message hp => exact hd.message_sends hs hcalm hr hp hsends hq
  case peer =>
    intro n sparams env' t ha
    simp at ha

end Sends

/-! ## The request -/

/-- `S` accepts one message for `D` in a state in which nothing is in flight or queued
and nobody has an entry for either of them.  Its request gets the id `b`. -/
structure Launch (T : Topology Node) (S D : Node) (b : Int) (s₀ s₁ : Net Node) : Prop where
  quiet : Quiet s₀
  unknown : ∀ n, ∀ e ∈ (s₀.nodes n).table, e.destip ≠ T.ip S ∧ e.destip ≠ T.ip D
  request : ∃ sparams env, sparams.destip = T.ip D ∧ sparams.routeDiscFlag = 0 ∧
    env.LinksUp ∧ T.step s₀ (.request S sparams env) = some s₁
  accepted : s₁.accepted ≠ s₀.accepted
  id_eq : b = (s₀.nodes S).counter.value + 1

section Request

variable {S D n : Node} {b : Int} {s₀ s₁ s : Net Node}

theorem Launch.route_none (h : Launch T S D b s₀ s₁) {ip : Ip} (hip : ip = T.ip S ∨ ip = T.ip D) :
    route (s₀.nodes n).table ip = none := by
  refine findKey_eq_none_iff.mpr fun e he => ?_
  obtain ⟨hS, hD⟩ := h.unknown n e he
  rcases hip with rfl | rfl
  · exact hS
  · exact hD

/-- What the request does: it floods, and the message waits for the reply. -/
theorem Launch.call (h : Launch T S D b s₀ s₁) :
    S ≠ D ∧ ∃ (sparams : SendParams) (portno freshId : Int), sparams.destip = T.ip D ∧
      s₁.flight = (sendReqBroadcast (T.cfg S).hwa (-1) b portno sparams.destport 0 0 (T.ip D)
        (T.ip S) sparams.msg false).flatMap (T.copies S []) ∧
      (∀ n, (s₁.nodes n).table = (s₀.nodes n).table) ∧
      (s₁.nodes S).pending = [queuedMsg (T.cfg S) sparams portno freshId] ∧
      (∀ n, n ≠ S → s₁.nodes n = s₀.nodes n) := by
  obtain ⟨sparams, env, hdest, hflag, henv, hs⟩ := h.request
  obtain ⟨_, _, _, ha, rfl⟩ | ⟨_, _, _, ha, _⟩ := step_cases hs
  swap
  · simp at ha
  obtain ⟨rfl, rfl, rfl⟩ := Action.request.inj ha
  have haccepted : acceptedMsg (T.cfg S) sparams (s₀.nodes S)
      (handlePeerMsg (T.cfg S) env sparams (s₀.nodes S)).exit ≠ [] := by
    intro hnil
    exact h.accepted (by simp [Topology.takeRequest, hnil])
  have hnone : route (s₀.nodes S).table sparams.destip = none := h.route_none (.inr hdest)
  cases handlePeerMsg_call (T.cfg S) env sparams (s₀.nodes S) with
  | idle _ _ hidle => exact absurd hidle haccepted
  | direct _ e _ hentry =>
      have hroute := (getREntry_entry hentry).1
      simp [hnone] at hroute
  | flooded portno hself _ hsent _ htable hqueue =>
      have hlookup : (peerLookup (T.cfg S) env sparams (s₀.nodes S).table).table =
          (s₀.nodes S).table := by
        rcases getREntry_cases (T.cfg S).staleParam env.destTime sparams.destip
          sparams.routeDiscFlag (s₀.nodes S).table with ⟨e, he, _⟩ | ⟨_, hget⟩
        · simp [hnone] at he
        · rw [peerLookup, hget]
      rcases hqueue with ⟨hfails, _⟩ | ⟨_, hpending, _⟩
      · exact absurd henv hfails
      refine ⟨?_, sparams, portno, (s₀.nodes S).counter.value + 2, hdest, ?_, ?_, ?_,
        fun n hn => ?_⟩
      · rintro rfl
        exact hself hdest.symm
      · rw [sendRawFrames_of_linksUp henv, hdest, hflag, ← h.id_eq] at hsent
        simp only [Topology.takeRequest, hsent, h.quiet.flight, List.nil_append]
        rfl
      · intro n
        by_cases hn : n = S
        · rw [hn, takeRequest_nodes_self, htable, hlookup]
        · rw [takeRequest_nodes_of_ne _ _ _ _ hn]
      · rw [takeRequest_nodes_self, hpending, h.quiet.pending S]
      · exact takeRequest_nodes_of_ne _ _ _ _ hn

/-- The copies of the request in flight. -/
theorem Launch.floodCopy (h : Launch T S D b s₀ s₁) {p : Packet Node} (hp : p ∈ s₁.flight) :
    FloodCopy T S D b s₁ p ∧ FrameType.ofInt p.host.frameType = some .rreq ∧
      p.host.hopCount = 0 ∧ ∀ q ∈ T.peers p.dst p.ifIndex, q.1 = S ∨
        ∃ p' ∈ s₁.flight, p'.dst = q.1 ∧ isFlood p'.host = true ∧ p'.host.hopCount = 0 := by
  obtain ⟨_, sparams, portno, _, _, hflight, _⟩ := h.call
  rw [hflight] at hp
  obtain ⟨t, ht, hpt⟩ := List.mem_flatMap.mp hp
  obtain ⟨hflood, hhost⟩ := mem_sendReqBroadcast ht
  have hhost' := host_of_mem_copies hpt
  rw [hhost] at hhost'
  refine ⟨⟨?_, ?_, ?_, S, sender_of_mem_copies (haddr_of_flooded hflood) hpt,
    hflood.floodLink hpt, .inl ⟨rfl, ?_⟩, ?_⟩, ?_, ?_, fun q hq => ?_⟩
  · rw [hhost']
    rfl
  · rw [hhost']
    exact ⟨rfl, rfl, rfl⟩
  · rw [hhost']
    rfl
  · rw [hhost']
    exact Int.le_refl 0
  · rw [hhost']
    exact .own (Int.le_refl 0)
  · rw [hhost']
    rfl
  · rw [hhost']
    rfl
  · -- the other interfaces of the segment got a copy of the same frame
    by_cases hself : q = (S, t.intIndex)
    · exact .inl (by rw [hself])
    · obtain ⟨hpeers, _⟩ := mem_copies hpt
      obtain ⟨p', hp', hdst, _⟩ : ∃ p' ∈ T.copies S [] t, p'.dst = q.1 ∧ p'.ifIndex = q.2 :=
        exists_mem_copies_of_broadcast hflood.dest
          (peers_trans (peers_symm hpeers) hq hself)
      refine .inr ⟨p', ?_, hdst, ?_⟩
      · rw [hflight]
        exact List.mem_flatMap.mpr ⟨t, ht, hp'⟩
      · rw [host_of_mem_copies hp', hhost]
        exact ⟨rfl, rfl⟩

/-- The request goes to all neighbours the flood can reach. -/
theorem Launch.origin (h : Launch T S D b s₀ s₁) {w : Node} (hlink : FloodLink T S w) :
    ∃ p ∈ s₁.flight, p.dst = w := by
  obtain ⟨_, sparams, portno, _, _, hflight, _⟩ := h.call
  obtain ⟨r, hr, hfloods, j, hj⟩ := hlink
  obtain ⟨t, ht, hindex⟩ := exists_mem_sendReqBroadcast hr hfloods b portno sparams.destport 0 0
    (T.ip D) (T.ip S) sparams.msg false
  obtain ⟨p, hp, hdst, _⟩ : ∃ p ∈ T.copies S [] t, p.dst = w ∧ p.ifIndex = j :=
    exists_mem_copies_of_broadcast (mem_sendReqBroadcast ht).1.dest (hindex ▸ hj)
  refine ⟨p, ?_, hdst⟩
  rw [hflight]
  exact List.mem_flatMap.mpr ⟨t, ht, hp⟩

theorem Launch.discovery (h : Launch T S D b s₀ s₁) : Discovery T S D b s₁ := by
  obtain ⟨hne, sparams, portno, freshId, hdest, hflight, htable, hqueue, hothers⟩ := h.call
  refine ⟨hne, ?_, ?_, ?_, fun p hp => .flood (h.floodCopy hp).1, fun n q hq => ?_⟩
  · have hten := (s₀.nodes S).counter.ten_le
    have hid := h.id_eq
    omega
  · intro n e he
    simp [htable n, h.route_none (.inl rfl)] at he
  · intro n e he
    simp [htable n, h.route_none (.inr rfl)] at he
  · by_cases hn : n = S
    · rw [hn, hqueue] at hq
      obtain rfl := List.mem_singleton.mp hq
      exact ⟨hn, rfl, ⟨rfl, hdest, rfl⟩, rfl⟩
    · rw [hothers n hn, h.quiet.pending n] at hq
      simp at hq

end Request

/-- The first node of the line has just asked for the last. -/
def lineLaunched : Net (Fin 3) :=
  lineNet.takeRequest (Net.initial (Fin 3)) 0 (messageFor "10.0.0.3") (.reliable 0)

theorem lineLaunched_launch : Launch lineNet 0 2 11 (Net.initial (Fin 3)) lineLaunched where
  quiet := quiet_initial
  unknown := by simp [Net.initial, NodeState.initial]
  request := ⟨messageFor "10.0.0.3", .reliable 0, rfl, rfl, Env.reliable_linksUp 0, rfl⟩
  accepted := by decide +kernel
  id_eq := rfl

end OnDemandRouting.Proofs
