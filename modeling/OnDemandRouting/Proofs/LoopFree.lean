import Mathlib.Logic.Relation
import OnDemandRouting.Proofs.Freshness
import OnDemandRouting.Proofs.Provenance

/-!
# Loop freedom

Along next hops towards an address `x` the pair of broadcast id and hop count
improves: a route points at a node that owns `x` or has a strictly fresher route.
The invariant that carries this says the same of every frame from `x` in flight
and its sender.  Three things break it.  An entry for `x` may be deleted, so that
a node falls behind a neighbour that still points at it.  A node that answers a
request for `x` from its table stamps the answer with an id of its own counter,
which may be above the id of its route.  And a frame from `x` that a relay parked
is released with a hop count that does not include the way to the relay.
-/

namespace OnDemandRouting.Proofs

open OnDemandRouting.Lib
open OnDemandRouting.Model

variable {Node : Type} {T : Topology Node}

/-- The steps that keep routes to `x` ordered. -/
structure OrderlyFor (T : Topology Node) (x : Ip) (s : Net Node) (a : Action Node) : Prop where
  /-- No node deletes its entry for `x`. -/
  keeps : ∀ n, ¬ Deletes T s a n x
  /-- An answer for `x` from a node's table carries no id above that of the route. -/
  answers : ∀ n d, cachedAnswerAt T s a = some (n, d) → d.destip = x →
    (s.nodes n).counter.value + 1 ≤ d.broadcastId
  /-- No frame from `x` that a relay parked is released. -/
  releases : ∀ n f, releasedAt T s a = some (n, f) → f.srcIp = x → T.ip n = x

/-- The three conditions as a test, the first one for all addresses. -/
def orderlyFor (T : Topology Node) (x : Ip) (y : Net Node × Action Node) : Bool :=
  keepsEntries T y &&
    (cachedAnswerAt T y.1 y.2).all (fun c =>
      decide (c.2.destip = x → (y.1.nodes c.1).counter.value + 1 ≤ c.2.broadcastId)) &&
    (releasedAt T y.1 y.2).all fun c => decide (c.2.srcIp = x → T.ip c.1 = x)

theorem orderly_of_all {h : List (Net Node × Action Node)} {x : Ip}
    (hall : h.all (orderlyFor T x) = true) : ∀ y ∈ h, OrderlyFor T x y.1 y.2 := by
  intro y hy
  have htest := List.all_eq_true.mp hall y hy
  simp only [orderlyFor, Bool.and_eq_true] at htest
  obtain ⟨⟨hkeeps, hanswers⟩, hreleases⟩ := htest
  refine ⟨fun n => ?_, fun n d hc => ?_, fun n f hc => ?_⟩
  · exact not_deletes_of_keepsEntries (h := [y]) (by simpa using hkeeps) y (by simp) n x
  · rw [hc] at hanswers
    exact of_decide_eq_true hanswers
  · rw [hc] at hreleases
    exact of_decide_eq_true hreleases

variable [DecidableEq Node]

/-- `n` routes frames for `x` to `m`, and neither of the two owns `x`. -/
def RoutesVia (T : Topology Node) (s : Net Node) (x : Ip) (n m : Node) : Prop :=
  T.ip n ≠ x ∧ T.ip m ≠ x ∧ ∃ e, route (s.nodes n).table x = some e ∧ NextHop T n e m

instance (s : Net Node) (x : Ip) (n m : Node) : Decidable (RoutesVia T s x n m) :=
  decidable_of_iff (T.ip n ≠ x ∧ T.ip m ≠ x ∧
      (route (s.nodes n).table x).any (fun e => decide (NextHop T n e m)) = true) (by
    simp only [RoutesVia, Option.any_eq_true, decide_eq_true_eq])

/-- `m` owns `x` or has a route to it at least as fresh as `(b, k)`. -/
def Ahead (T : Topology Node) (s : Net Node) (x : Ip) (m : Node) (b k : Int) : Prop :=
  T.ip m = x ∨ RouteCovers (s.nodes m) x b k

/-- Senders and next hops are ahead of what they send and of what points at them. -/
structure Ordered (T : Topology Node) (x : Ip) (s : Net Node) : Prop where
  flight : ∀ p ∈ s.flight, p.host.srcIp = x →
    ∃ m, Sender T p m ∧ Ahead T s x m p.host.broadcastId p.host.hopCount
  table : ∀ n e, route (s.nodes n).table x = some e →
    ∃ m, NextHop T n e m ∧ Ahead T s x m e.broadcastId (e.noHops - 1)

section Step

variable {s s' : Net Node} {a : Action Node} {env : Env} {p : Packet Node}
  {type : FrameType} {x : Ip} {m : Node} {b k : Int}

theorem Ahead.step (h : Ahead T s x m b k) (hs : T.step s a = some s')
    (hkeeps : ∀ n, ¬ Deletes T s a n x) : Ahead T s' x m b k :=
  h.imp_right fun hcov => hcov.step hs (hkeeps m)

/-- A node that sends a frame from `x` on receipt of `p` is ahead of that frame. -/
theorem Receipt.ahead {t : Transmission} (hr : Receipt T s s' a env p type)
    (hs : T.step s a = some s') (hwf : FramesWf T s) (hord : OrderlyFor T x s a)
    (hsends : EthSends (T.cfg p.dst) p.ifIndex p.host (learnedAt T s env p) (destAt T s env p)
      { s.nodes p.dst with table := (learnedAt T s env p).table } type t)
    (hsrc : t.host.srcIp = x) : Ahead T s' x p.dst t.host.broadcastId t.host.hopCount := by
  have hlearned : RouteCovers (s'.nodes p.dst) p.host.srcIp p.host.broadcastId
      (learnedAt T s env p).entry.noHops :=
    ⟨_, hr.route_src, (covers_learnedAt T s env p).self_hops⟩
  cases hsends with
  | relay _ _ _ _ _ _ hhost =>
      rw [hhost] at hsrc ⊢
      exact .inr (hsrc ▸ hr.routeCovers)
  | answerOwn hself _ hhost =>
      rw [hhost] at hsrc
      exact .inl (hself.symm.trans hsrc)
  | @answerCached _ d hself hd _ hhost =>
      rw [hhost] at hsrc ⊢
      have hne := (hwf.flight p hr.mem).1.src_ne_dest
      obtain ⟨_, hdestip⟩ := route_mem (route_of_derefDest hne hd)
      have hid := hord.answers p.dst d (hr.cachedAnswerAt_eq hself hd) (hdestip.trans hsrc)
      have hcov : Covers d ((s.nodes p.dst).counter.value + 1) d.noHops := by
        unfold Covers
        omega
      have hold : RouteCovers (s.nodes p.dst) x ((s.nodes p.dst).counter.value + 1) d.noHops :=
        ⟨d, hsrc ▸ route_of_derefDest hne hd, hcov⟩
      exact .inr (hold.step hs (hord.keeps p.dst))
  | forwardRrep _ _ _ hhost =>
      rw [hhost] at hsrc ⊢
      exact .inr (hsrc ▸ hlearned)
  | releaseRrep hself hq _ _ hhost =>
      rw [hhost] at hsrc
      exact .inl (hord.releases _ _ (hr.releasedAt_eq hself hq) hsrc)
  | releaseData hself hq _ _ hhost =>
      rw [hhost] at hsrc
      exact .inl (hord.releases _ _ (hr.releasedAt_eq hself hq) hsrc)
  | forwardData _ _ _ hhost =>
      rw [hhost] at hsrc ⊢
      exact .inr (hsrc ▸ hlearned)
  | request _ _ _ _ hhost =>
      rw [hhost] at hsrc
      exact .inl hsrc

theorem ordered_step (hwf : FramesWf T s) (hinv : Ordered T x s) (hord : OrderlyFor T x s a)
    (hs : T.step s a = some s') : Ordered T x s' where
  flight := by
    refine (preserve hs
      (fun p => p.host.srcIp = x →
        ∃ m, Sender T p m ∧ Ahead T s' x m p.host.broadcastId p.host.hopCount)
      (fun _ _ => True) (fun _ _ => True) ?flight (fun _ _ _ => trivial) (fun _ _ _ => trivial)
      (fun _ _ _ _ => trivial) (fun _ _ _ _ _ _ _ => trivial) (fun _ _ _ _ _ _ => trivial)
      ?eth ?peer).1
    case flight =>
      intro p hp hsrc
      obtain ⟨m, hsender, hahead⟩ := hinv.flight p hp hsrc
      exact ⟨m, hsender, hahead.step hs hord.keeps⟩
    case eth =>
      intro env p type t hr hsends q hq hsrc
      rw [host_of_mem_copies hq] at hsrc ⊢
      exact ⟨p.dst, sender_of_mem_copies hsends.haddr hq, hr.ahead hs hwf hord hsends hsrc⟩
    case peer =>
      intro n sparams env t _ hsends q hq hsrc
      rw [host_of_mem_copies hq] at hsrc ⊢
      refine ⟨n, sender_of_mem_copies hsends.haddr hq, .inl ?_⟩
      cases hsends with
      | request _ _ _ hhost =>
          rw [hhost] at hsrc
          exact hsrc
      | data _ _ _ hhost =>
          rw [hhost] at hsrc
          exact hsrc
  table := by
    intro n e he
    rcases route_step hs (hord.keeps n) with heq | ⟨env, p, type, hr, rfl, hsrc, hnew, _⟩
    · obtain ⟨m, hnext, hahead⟩ := hinv.table n e (heq ▸ he)
      exact ⟨m, hnext, hahead.step hs hord.keeps⟩
    · -- the new entry was sent by a node that is ahead of the frame
      obtain rfl : _ = e := Option.some.inj (hnew.symm.trans he)
      obtain ⟨m, hsender, hahead⟩ := hinv.flight p hr.mem hsrc
      refine ⟨m, hsender.nextHop, ?_⟩
      have hhops : p.host.hopCount + 1 - 1 = p.host.hopCount := by omega
      simp only [updateREntry_broadcastId, updateREntry_noHops, hhops]
      exact hahead.step hs hord.keeps

/-- `e` is strictly fresher than `e'`. -/
def Fresher (e e' : REntry) : Prop := Covers e e'.broadcastId (e'.noHops - 1)

theorem Fresher.trans {e₁ e₂ e₃ : REntry} (h : Fresher e₁ e₂) (h' : Fresher e₂ e₃) :
    Fresher e₁ e₃ := by
  unfold Fresher Covers at *
  omega

theorem Fresher.irrefl (e : REntry) : ¬ Fresher e e := by
  unfold Fresher Covers
  omega

theorem Ordered.fresher_of_routesVia (hinv : Ordered T x s) {n : Node}
    (h : RoutesVia T s x n m) : ∃ e e', route (s.nodes n).table x = some e ∧
      route (s.nodes m).table x = some e' ∧ Fresher e' e := by
  obtain ⟨_, hm, e, he, hnext⟩ := h
  obtain ⟨m', hnext', hahead⟩ := hinv.table n e he
  obtain rfl := hnext.unique hnext'
  rcases hahead with hown | ⟨e', he', hcov⟩
  · exact absurd hown hm
  · exact ⟨e, e', he, he', hcov⟩

/-- Routes get strictly fresher along any chain of next hops. -/
theorem Ordered.fresher_of_transGen (hinv : Ordered T x s) {n : Node}
    (h : Relation.TransGen (RoutesVia T s x) n m) :
    ∃ e e', route (s.nodes n).table x = some e ∧ route (s.nodes m).table x = some e' ∧
      Fresher e' e := by
  induction h with
  | single hvia => exact hinv.fresher_of_routesVia hvia
  | tail _ hvia ih =>
      obtain ⟨e, e₁, he, he₁, hfresh⟩ := ih
      obtain ⟨e₂, e', he₂, he', hfresh'⟩ := hinv.fresher_of_routesVia hvia
      obtain rfl : e₁ = e₂ := Option.some.inj (he₁.symm.trans he₂)
      exact ⟨e, e', he, he', hfresh'.trans hfresh⟩

theorem Ordered.acyclic (hinv : Ordered T x s) (n : Node) :
    ¬ Relation.TransGen (RoutesVia T s x) n n := by
  intro hcycle
  obtain ⟨e, e', he, he', hfresh⟩ := hinv.fresher_of_transGen hcycle
  obtain rfl : e = e' := Option.some.inj (he.symm.trans he')
  exact Fresher.irrefl e hfresh

end Step

/-! ## Routes have no loops -/

/-- In every run whose steps are orderly for `x`, no chain of next hops towards `x`
returns to a node. -/
theorem routes_acyclic_of_orderly {h : List (Net Node × Action Node)} {s : Net Node} {x : Ip}
    (ht : Trace T.step (Net.initial Node) h s) (hord : ∀ y ∈ h, OrderlyFor T x y.1 y.2) :
    ∀ n, ¬ Relation.TransGen (RoutesVia T s x) n n := by
  have hinv : FramesWf T s ∧ Ordered T x s := by
    refine Trace.invariant_of_guard (G := OrderlyFor T x)
      (I := fun s => FramesWf T s ∧ Ordered T x s) ?_ ?_ ht hord
    · exact ⟨framesWf_of_quiet quiet_initial, by simp [Net.initial],
        by simp [Net.initial, NodeState.initial, route]⟩
    · intro s a s' hI hG hs
      exact ⟨framesWf_step hI.1 hs, ordered_step hI.1 hI.2 hG hs⟩
  exact hinv.2.acyclic

theorem lineDiscovery_routes_acyclic : ∃ h s, Trace lineNet.step (Net.initial (Fin 3)) h s ∧
    RoutesVia lineNet s "10.0.0.3" 0 1 ∧
    ∀ n, ¬ Relation.TransGen (RoutesVia lineNet s "10.0.0.3") n n := by
  obtain ⟨h, s, ht, hp⟩ := Trace.exists_of_exec lineNet.step (Net.initial (Fin 3)) lineDiscovery
    (fun h s => decide (RoutesVia lineNet s "10.0.0.3" 0 1) &&
      h.all (orderlyFor lineNet "10.0.0.3")) (by decide +kernel)
  obtain ⟨hvia, hord⟩ := Bool.and_eq_true _ _ ▸ hp
  exact ⟨h, s, ht, of_decide_eq_true hvia, routes_acyclic_of_orderly ht (orderly_of_all hord)⟩

/-- On the line a request of the last node passes the middle at time 0 and reaches the
first at time 3.  At time 5 the middle node's route back has gone stale and it asks
for the last node: the first node answers from its table. -/
def lineExpiryRun : List (Action (Fin 3)) :=
  [.request 2 (messageFor "10.0.0.1") (.reliable 0), .deliver 0 (.reliable 0),
    .deliver 0 (.reliable 3), .request 1 (messageFor "10.0.0.3") (.reliable 5),
    .deliver 1 (.reliable 5), .deliver 2 (.reliable 5)]

/-- Routes loop after an entry has gone stale, and also with no entry ever deleted. -/
theorem routes_loop : (∃ h s, Trace lineNet.step (Net.initial (Fin 3)) h s ∧
      Relation.TransGen (RoutesVia lineNet s "10.0.0.3") 0 0) ∧
    ∃ h s, Trace starNet.step (Net.initial (Fin 4)) h s ∧
      (∀ y ∈ h, ∀ n ip, ¬ Deletes starNet y.1 y.2 n ip) ∧
      Relation.TransGen (RoutesVia starNet s "10.0.0.4") 1 1 := by
  constructor
  · obtain ⟨h, s, ht, hp⟩ := Trace.exists_of_exec lineNet.step (Net.initial (Fin 3))
      lineExpiryRun (fun _ s => decide (RoutesVia lineNet s "10.0.0.3" 0 1 ∧
        RoutesVia lineNet s "10.0.0.3" 1 0)) (by decide +kernel)
    obtain ⟨hvia, hback⟩ := of_decide_eq_true hp
    exact ⟨h, s, ht, .tail (.single hvia) hback⟩
  · obtain ⟨h, s, ht, hp⟩ := Trace.exists_of_exec starNet.step (Net.initial (Fin 4))
      starAnswer (fun h s => decide (RoutesVia starNet s "10.0.0.4" 1 2 ∧
        RoutesVia starNet s "10.0.0.4" 2 1) && h.all (keepsEntries starNet)) (by decide +kernel)
    obtain ⟨hloop, hkeep⟩ := Bool.and_eq_true _ _ ▸ hp
    obtain ⟨hvia, hback⟩ := of_decide_eq_true hloop
    exact ⟨h, s, ht, not_deletes_of_keepsEntries hkeep, .tail (.single hvia) hback⟩

end OnDemandRouting.Proofs
