import OnDemandRouting.Proofs.Discovery

/-!
# A flood computes shortest reverse routes

The argument is that of a distributed shortest-path computation.  A node is covered
within `k` hops when its route to the source of the flood has at most `k` hops or a
copy that will give it such a route is in flight.  Every relay covers its neighbours
within one hop more than itself: those on other interfaces get a copy from it, and
those on the interface the copy came in on are covered by the frame the relay got.
When no copy is left, covered nodes have their route, and the destination is the
only node that need not have relayed.
-/

namespace OnDemandRouting.Proofs

open OnDemandRouting.Lib
open OnDemandRouting.Model

variable {Node : Type} {T : Topology Node}

/-- `n` has a route to `S` over at most `k` hops, or a copy of the flood on its way to
`n` offers one. -/
def Covered (T : Topology Node) (S : Node) (b : Int) (s : Net Node) (n : Node) (k : Int) :
    Prop :=
  Near T S b s n k ∨
    ∃ p ∈ s.flight, p.dst = n ∧ isFlood p.host = true ∧ p.host.hopCount + 1 ≤ k

theorem Covered.mono {S n : Node} {b k k' : Int} {s : Net Node} (h : Covered T S b s n k)
    (hk : k ≤ k') : Covered T S b s n k' := by
  rcases h with hnear | ⟨p, hp, hdst, hflood, hhop⟩
  · exact .inl (hnear.mono hk)
  · exact .inr ⟨p, hp, hdst, hflood, by omega⟩

/-- A frame that rewrites the route to its source sets the flag. -/
theorem Receipt.flag_of_update {s s' : Net Node} {a : Action Node} {env : Env} {p : Packet Node}
    {type : FrameType} (hr : Receipt T s s' a env p type)
    (hnew : route (s'.nodes p.dst).table p.host.srcIp =
      some (updateREntry p.host p.ifIndex p.srcMac env.updateTime)) :
    (learnedAt T s env p).flag = true := by
  have hentry := Option.some.inj (hr.route_src.symm.trans hnew)
  rcases learnSource_cases p.host p.ifIndex p.srcMac env.updateTime
    (srcLookup (T.cfg p.dst) env p.host (s.nodes p.dst)) with ⟨hflag, _⟩ | ⟨_, _, hrej⟩
  · exact hflag
  · have hrej' : acceptsUpdate p.host (learnedAt T s env p).entry = false := hrej
    rw [hentry] at hrej'
    simp [acceptsUpdate] at hrej'

variable [DecidableEq Node]

/-- A link of the flood that does not leave `D`. -/
def FloodLinkAvoiding (T : Topology Node) (D n m : Node) : Prop := FloodLink T n m ∧ n ≠ D

/-- The flood is under way everywhere. -/
structure Spread (T : Topology Node) (S D : Node) (b : Int) (s : Net Node) : Prop where
  segment : ∀ p ∈ s.flight, isFlood p.host = true → ∀ q ∈ T.peers p.dst p.ifIndex,
    Covered T S b s q.1 (p.host.hopCount + 1)
  origin : ∀ w, FloodLink T S w → Covered T S b s w 1
  relays : ∀ n e, n ≠ S → n ≠ D → route (s.nodes n).table (T.ip S) = some e →
    ∀ w, FloodLink T n w → Covered T S b s w (e.noHops + 1)

section Step

variable {S D n w : Node} {b k k' : Int} {s s' : Net Node} {a : Action Node} {env : Env}
  {p : Packet Node} {type : FrameType}

theorem Discovery.flood_of_isFlood (hd : Discovery T S D b s) (hp : p ∈ s.flight)
    (hflood : isFlood p.host = true) : FloodCopy T S D b s p := by
  cases hd.flight p hp with
  | flood h => exact h
  | reply h => simp [isFlood_iff h.type] at hflood
  | message h => simp [isFlood_iff h.message.type] at hflood

theorem Covered.step (h : Covered T S b s n k) (hd : Discovery T S D b s)
    (hs : T.step s a = some s') (hcalm : Calm T s a) : Covered T S b s' n k := by
  rcases h with hnear | ⟨p, hp, rfl, hflood, hhop⟩
  · exact .inl (hnear.step hs hcalm)
  · rcases hd.kept_or_received hs hcalm hp with hkept | ⟨env, type, hr⟩
    · exact .inr ⟨p, hkept, rfl, hflood, hhop⟩
    · exact .inl ((hr.near (hd.flood_of_isFlood hp hflood)).mono hhop)

/-- A relay covers its neighbours within one hop more than itself. -/
theorem Spread.relay (hspread : Spread T S D b s) (hd : Discovery T S D b s)
    (hs : T.step s a = some s') (hcalm : Calm T s a) (hr : Receipt T s s' a env p type)
    (hp : FloodCopy T S D b s p) (hflag : (learnedAt T s env p).flag = true) (hdst : p.dst ≠ D)
    (hlink : FloodLink T p.dst w) : Covered T S b s' w (p.host.hopCount + 1 + 1) := by
  obtain ⟨r, hr', hfloods, j, hj⟩ := hlink
  by_cases hindex : r.ifIndex = p.ifIndex
  · -- the flood spares this interface, but its segment carried the frame itself
    rw [hindex] at hj
    have hcov := hspread.segment p hr.mem hp.type (w, j) hj
    exact (hcov.step hd hs hcalm).mono (by omega)
  · have htype := (isFlood_iff hr.processed.type_eq).mp hp.type
    have hself : p.host.destIp ≠ (T.cfg p.dst).selfIp := by
      rw [hp.ends.dst_eq]
      exact fun h => hdst (T.selfIp_inj _ _ h.symm)
    obtain ⟨v, hnext, _⟩ := (hd.learned_source hs hcalm hr hp).via
    obtain ⟨ts, asentFlag, hplan, hsub⟩ := react_relays htype (.inl hself) hflag hnext.hasInterface
    have hfloods' := (floodsOn_iff (T.ifIndex_pos _ r hr')).mpr ⟨hfloods, hindex⟩
    obtain ⟨t, ht, hti⟩ : ∃ t ∈ relayBroadcast (T.cfg p.dst) p.ifIndex p.host asentFlag,
      t.intIndex = r.ifIndex := exists_mem_sendReqBroadcast hr' hfloods' _ _ _ _ _ _ _ _ _
    obtain ⟨hflood, hhost⟩ := mem_sendReqBroadcast ht
    obtain ⟨q, hq, hqdst, _⟩ := exists_mem_copies_of_broadcast hflood.dest (hti ▸ hj)
    refine .inr ⟨q, hr.copies_in_flight hs (hcalm.env_linksUp hr) hplan (hsub ht) q hq, hqdst, ?_⟩
    rw [host_of_mem_copies hq, hhost]
    exact ⟨by cases asentFlag <;> rfl, Int.le_refl _⟩

/-- The segment of a relayed copy: the relay itself has its route, and the others got
the same frame. -/
theorem Spread.segment_step (hspread : Spread T S D b s) (hd : Discovery T S D b s)
    (hs : T.step s a = some s') (hcalm : Calm T s a) {q : Packet Node} (hq : q ∈ s'.flight)
    (hflood : isFlood q.host = true) :
    ∀ x ∈ T.peers q.dst q.ifIndex, Covered T S b s' x.1 (q.host.hopCount + 1) := by
  intro x hx
  obtain ⟨i, env, rfl⟩ := hcalm.delivers
  rcases mem_flight_deliver hs hq with hold | ⟨p, type, t, hr, hsends, hqt, hcopies⟩
  · exact (hspread.segment q hold hflood x hx).step hd hs hcalm
  · rw [host_of_mem_copies hqt] at hflood ⊢
    cases hsends with
    | relay out hin hout _ _ hfl hhost =>
        have hcopy := hd.flood_of_isFlood hr.mem ((isFlood_iff hr.processed.type_eq).mpr hin)
        obtain ⟨hpeers, _⟩ := mem_copies hqt
        by_cases hself : x = (p.dst, t.intIndex)
        · rw [hself, hhost]
          exact .inl ((hr.near hcopy).mono (by simp [floodFrame]))
        · obtain ⟨q', hq', hdst, _⟩ :=
            exists_mem_copies_of_broadcast hfl.dest (peers_trans (peers_symm hpeers) hx hself)
          refine .inr ⟨q', hcopies q' hq', hdst, ?_⟩
          rw [host_of_mem_copies hq']
          exact ⟨hflood, Int.le_refl _⟩
    | request hin hself hdest => exact absurd hdest (hd.not_parked hcalm hr hin hself)
    | answerOwn _ _ hhost => simp [hhost] at hflood
    | answerCached _ _ _ hhost => simp [hhost] at hflood
    | forwardRrep _ _ _ hhost => simp [hhost] at hflood
    | releaseRrep _ _ _ _ hhost => simp [hhost] at hflood
    | releaseData _ _ htype _ hhost =>
        rw [hhost, isFlood_iff htype] at hflood
        simp at hflood
    | forwardData _ _ _ hhost =>
        have htype : isFlood p.host = true := by simpa [hhost, isFlood] using hflood
        rw [isFlood_iff hr.processed.type_eq] at htype
        simp at htype

theorem spread_step (hspread : Spread T S D b s) (hd : Discovery T S D b s)
    (hcalm : Calm T s a) (hs : T.step s a = some s') : Spread T S D b s' where
  segment := fun _ hq hflood => hspread.segment_step hd hs hcalm hq hflood
  origin := fun w hlink => (hspread.origin w hlink).step hd hs hcalm
  relays := by
    intro n e hS hD he w hlink
    rcases hd.source_step hs hcalm n with hkeep | ⟨env, p, type, hr, rfl, hnew, hp⟩
    · rw [hkeep] at he
      exact (hspread.relays n e hS hD he w hlink).step hd hs hcalm
    · have hcopy := hp.resolve_right fun h => hS h.1
      obtain rfl := Option.some.inj (hnew.symm.trans he)
      rw [← hcopy.ends.src_eq] at hnew
      exact hspread.relay hd hs hcalm hr hcopy (hr.flag_of_update hnew) hD hlink

end Step

/-! ## After the flood -/

section Runs

variable {S D : Node} {b : Int} {s₀ s₁ s : Net Node} {h : List (Net Node × Action Node)}

theorem Launch.spread (hlaunch : Launch T S D b s₀ s₁) : Spread T S D b s₁ where
  segment := by
    intro p hp _ q hq
    obtain ⟨_, _, hhop, hpeers⟩ := hlaunch.floodCopy hp
    rw [hhop]
    rcases hpeers q hq with hself | ⟨p', hp', hdst, hflood, hzero⟩
    · exact .inl (.inl ⟨hself, by decide⟩)
    · exact .inr ⟨p', hp', hdst, hflood, by omega⟩
  origin := by
    intro w hlink
    obtain ⟨p, hp, hdst⟩ := hlaunch.origin hlink
    obtain ⟨hcopy, _, hhop, _⟩ := hlaunch.floodCopy hp
    exact .inr ⟨p, hp, hdst, hcopy.type, by omega⟩
  relays := by
    intro n e _ _ he
    obtain ⟨_, _, _, _, _, _, htable, _⟩ := hlaunch.call
    simp [htable n, hlaunch.route_none (.inl rfl)] at he

theorem Launch.spread_of_trace (hlaunch : Launch T S D b s₀ s₁) (ht : Trace T.step s₁ h s)
    (hcalm : ∀ x ∈ h, Calm T x.1 x.2) : Discovery T S D b s ∧ Spread T S D b s :=
  Trace.invariant_of_guard (G := Calm T) (I := fun s => Discovery T S D b s ∧ Spread T S D b s)
    ⟨hlaunch.discovery, hlaunch.spread⟩
    (fun _ _ _ hI hG hs => ⟨discovery_step hI.1 hG hs, spread_step hI.2 hI.1 hG hs⟩) ht hcalm

/-- With no copy of the flood left, every node is as near as its distance from `S`
around `D` allows. -/
theorem Spread.near_of_walk (hspread : Spread T S D b s) (hd : Discovery T S D b s)
    (hdone : ∀ p ∈ s.flight, isFlood p.host = false) {n : Node} {k : ℕ}
    (hwalk : Walk (FloodLinkAvoiding T D) S n k) : Near T S b s n k := by
  have hnear {w : Node} {k : Int} (hcov : Covered T S b s w k) : Near T S b s w k := by
    refine hcov.resolve_right ?_
    rintro ⟨p, hp, _, hflood, _⟩
    simp [hdone p hp] at hflood
  induction hwalk with
  | refl => exact .inl ⟨rfl, by simp⟩
  | @tail m n k _ hlink ih =>
      by_cases hS : m = S
      · subst hS
        exact (hnear (hspread.origin n hlink.1)).mono (by omega)
      · obtain ⟨e, he, hcov⟩ := ih.resolve_left fun h => hS h.1
        have hid := ((hd.toSource m e he).resolve_right fun h => hS h.1).id_eq
        have hhops : e.noHops ≤ k := by
          unfold Covers at hcov
          omega
        exact (hnear (hspread.relays m e hS hlink.2 he n hlink.1)).mono (by omega)

end Runs

/-- After a discovery launched by `S` for `D`, frames delivered in any order and no
entry going stale: once no RREQ or ASENT of `S` with the id `b` is in flight, every
other node that `S` can reach without passing through `D` has a route to `S` with the
id `b`.  Its hop count is at least the distance from `S` and at most the distance
around `D`. -/
theorem flood_finds_shortest {S D : Node} {b : Int} {s₀ s₁ s : Net Node}
    {h : List (Net Node × Action Node)} (hlaunch : Launch T S D b s₀ s₁)
    (ht : Trace T.step s₁ h s) (hcalm : ∀ x ∈ h, Calm T x.1 x.2)
    (hdone : ∀ p ∈ s.flight, isFlood p.host = true →
      ¬ (p.host.srcIp = T.ip S ∧ p.host.broadcastId = b))
    {n : Node} (hn : n ≠ S) (hreach : ∃ k, Walk (FloodLinkAvoiding T D) S n k) :
    ∃ e, route (s.nodes n).table (T.ip S) = some e ∧ e.broadcastId = b ∧ 0 ≤ e.noHops ∧
      hopDist (FloodLink T) S n ≤ (e.noHops.toNat : ℕ∞) ∧
      (e.noHops.toNat : ℕ∞) ≤ hopDist (FloodLinkAvoiding T D) S n := by
  obtain ⟨hd, hspread⟩ := hlaunch.spread_of_trace ht hcalm
  have hnone : ∀ p ∈ s.flight, isFlood p.host = false := by
    intro p hp
    by_contra hflood
    rw [Bool.not_eq_false] at hflood
    have hcopy := hd.flood_of_isFlood hp hflood
    exact hdone p hp hflood ⟨hcopy.ends.src_eq, hcopy.id_eq⟩
  obtain ⟨k, hwalk⟩ := hreach
  obtain ⟨d, _, hshortest, hdist⟩ := exists_walk_eq_hopDist hwalk
  obtain ⟨e, he, hcov⟩ := (hspread.near_of_walk hd hnone hshortest).resolve_left fun h => hn h.1
  obtain ⟨hid, _, l, hlower, hl⟩ := (hd.toSource n e he).resolve_right fun h => hn h.1
  have hupper : e.noHops ≤ d := by
    unfold Covers at hcov
    omega
  refine ⟨e, he, hid, by omega, ?_, ?_⟩
  · exact hopDist_le_iff.mpr ⟨l, by omega, hlower⟩
  · rw [hdist]
    exact_mod_cast (by omega : e.noHops.toNat ≤ d)

theorem lineFlood_finds_shortest : ∃ h s, Trace lineNet.step lineLaunched h s ∧
    ∃ e, route (s.nodes 2).table (lineNet.ip 0) = some e ∧ e.broadcastId = 11 ∧
      0 ≤ e.noHops ∧ hopDist (FloodLink lineNet) 0 2 ≤ (e.noHops.toNat : ℕ∞) ∧
      (e.noHops.toNat : ℕ∞) ≤ hopDist (FloodLinkAvoiding lineNet 2) 0 2 := by
  obtain ⟨h, s, ht, hp, hdeliver⟩ := Trace.exists_of_exec_forall lineNet.step lineLaunched
    (List.replicate 3 (.deliver 0 (.reliable 0)))
    (fun h s => h.all (keepsEntries lineNet) && s.flight.all fun p => !isFlood p.host)
    (P := fun a => (∃ k env, a = .deliver k env) ∧ a.env.LinksUp)
    (by simp [Action.env, Env.reliable_linksUp]) (by decide +kernel)
  obtain ⟨hkeeps, hdone⟩ := Bool.and_eq_true _ _ ▸ hp
  have hwalk : Walk (FloodLinkAvoiding lineNet 2) 0 2 2 :=
    .tail (.tail .refl ⟨(by decide : FloodLink lineNet 0 1), by decide⟩)
      ⟨(by decide : FloodLink lineNet 1 2), by decide⟩
  refine ⟨h, s, ht, flood_finds_shortest lineLaunched_launch ht
    (calm_of_keepsEntries hdeliver hkeeps) (fun p hp hflood => ?_) (by decide) ⟨2, hwalk⟩⟩
  simpa [hflood] using List.all_eq_true.mp hdone p hp

end OnDemandRouting.Proofs
