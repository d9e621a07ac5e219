import OnDemandRouting.Lib.Walk
import OnDemandRouting.Proofs.Provenance

/-!
# Hop counts and distances

The hop count of a frame in flight is the length of a walk from the owner of its
source to its sender, or more.  Every place that sets a hop count keeps this but
the release from the pending queue, which sends a frame on with the hop count it
was queued with: for a node's own message that is right, for a frame parked by a
relay it is one too low, because the way to the relay is not counted.
-/

namespace OnDemandRouting.Proofs

open OnDemandRouting.Lib
open OnDemandRouting.Model

variable {Node : Type} {T : Topology Node}

/-- A frame the step releases from a pending queue is the node's own, not one that
it parked as a relay. -/
def releasesOwn (T : Topology Node) (s : Net Node) (a : Action Node) : Bool :=
  (releasedAt T s a).all fun x => decide (x.2.srcIp = T.ip x.1)

theorem releasesOwn_of_receipt {s s' : Net Node} {a : Action Node} {env : Env} {p : Packet Node}
    {q : PendingMsg} (hr : Receipt T s s' a env p .rrep)
    (hown : releasesOwn T s a = true) (hself : p.host.destIp = T.ip p.dst)
    (hq : findKey PendingMsg.destip p.host.srcIp (s.nodes p.dst).pending = some q) :
    q.odrframe.srcIp = T.ip p.dst := by
  simpa [releasesOwn, hr.releasedAt_eq hself hq] using hown

variable [DecidableEq Node]

/-- The entry `e` of `n` does not understate the distance to an owner of its
destination. -/
def HopsSound (T : Topology Node) (n : Node) (e : REntry) : Prop :=
  ∃ o, T.ip o = e.destip ∧ 0 ≤ e.noHops ∧ hopDist (Linked T) n o ≤ (e.noHops.toNat : ℕ∞)

/-- `n` is within `k` links of a node that owns `ip`. -/
def Within (T : Topology Node) (n : Node) (ip : Ip) (k : Int) : Prop :=
  ∃ o, ∃ d : ℕ, T.ip o = ip ∧ Walk (Linked T) o n d ∧ (d : Int) ≤ k

theorem Within.own {n : Node} {ip : Ip} {k : Int} (hip : T.ip n = ip) (hk : 0 ≤ k) :
    Within T n ip k := ⟨n, 0, hip, .refl, hk⟩

theorem Within.nonneg {n : Node} {ip : Ip} {k : Int} (h : Within T n ip k) : 0 ≤ k := by
  obtain ⟨_, d, _, _, hd⟩ := h
  omega

theorem Within.link {n m : Node} {ip : Ip} {k : Int} (h : Within T m ip k)
    (hlink : Linked T m n) : Within T n ip (k + 1) := by
  obtain ⟨o, d, hip, hwalk, hd⟩ := h
  exact ⟨o, d + 1, hip, hwalk.tail hlink, by omega⟩

theorem Within.hopsSound {n : Node} {e : REntry} (h : Within T n e.destip e.noHops) :
    HopsSound T n e := by
  obtain ⟨o, d, hip, hwalk, hd⟩ := h
  refine ⟨o, hip, by omega, ?_⟩
  have hback : Walk (Linked T) n o d := hwalk.reverse.mono fun _ _ hlink => hlink.symm
  exact hopDist_le_iff.mpr ⟨d, by omega, hback⟩

/-- Hop counts in the network are lengths of walks, or more.  Of a queued frame only
the node's own matter. -/
structure HopsInv (T : Topology Node) (s : Net Node) : Prop where
  flight : ∀ p ∈ s.flight, ∃ m, Sender T p m ∧ Within T m p.host.srcIp p.host.hopCount
  table : ∀ n, ∀ e ∈ (s.nodes n).table, Within T n e.destip e.noHops
  pending : ∀ n, ∀ q ∈ (s.nodes n).pending, q.odrframe.srcIp = T.ip n →
    0 ≤ q.odrframe.hopCount

section Step

variable {s s' : Net Node} {a : Action Node} {env : Env} {p : Packet Node} {type : FrameType}

theorem Sender.linked {m : Node} (h : Sender T p m) : Linked T m p.dst := by
  obtain ⟨j, hj, _⟩ := h
  exact Linked.symm ⟨_, j, hj⟩

theorem within_updateREntry (hinv : HopsInv T s) (hp : p ∈ s.flight) :
    Within T p.dst p.host.srcIp (p.host.hopCount + 1) := by
  obtain ⟨m, hsender, hwithin⟩ := hinv.flight p hp
  exact hwithin.link hsender.linked

theorem within_learned (hinv : HopsInv T s) (hp : p ∈ s.flight) :
    Within T p.dst p.host.srcIp (learnedAt T s env p).entry.noHops := by
  rcases learnedAt_cases s env p with hnew | hold
  · rw [hnew]
    exact within_updateREntry hinv hp
  · rw [← learnedAt_destip s env p]
    exact hinv.table _ _ hold

/-- At each transmit site: a frame sent on receipt of `p` counts at least the
links from its source to the sender. -/
theorem Receipt.within {t : Transmission} (hr : Receipt T s s' a env p type)
    (hwf : FramesWf T s) (hinv : HopsInv T s) (hown : releasesOwn T s a = true)
    (hsends : EthSends (T.cfg p.dst) p.ifIndex p.host (learnedAt T s env p) (destAt T s env p)
      { s.nodes p.dst with table := (learnedAt T s env p).table } type t) :
    Within T p.dst t.host.srcIp t.host.hopCount := by
  have hlearned : Within T p.dst p.host.srcIp (learnedAt T s env p).entry.noHops :=
    within_learned hinv hr.mem
  cases hsends with
  | relay _ _ _ _ _ _ hhost =>
      rw [hhost]
      exact within_updateREntry hinv hr.mem
  | answerOwn hself _ hhost =>
      rw [hhost]
      exact .own hself.symm (Int.le_refl 0)
  | answerCached _ hd _ hhost =>
      rw [hhost]
      have hne := (hwf.flight p hr.mem).1.src_ne_dest
      obtain ⟨hmem, hdestip⟩ := route_mem (route_of_derefDest hne hd)
      exact hdestip ▸ hinv.table _ _ hmem
  | forwardRrep _ _ _ hhost =>
      rw [hhost]
      exact hlearned
  | releaseRrep hself hq _ _ hhost =>
      have hsrc := releasesOwn_of_receipt hr hown hself hq
      rw [hhost]
      exact .own hsrc.symm (hinv.pending _ _ (mem_of_findKey hq).1 hsrc)
  | releaseData hself hq _ _ hhost =>
      have hsrc := releasesOwn_of_receipt hr hown hself hq
      rw [hhost]
      exact .own hsrc.symm (hinv.pending _ _ (mem_of_findKey hq).1 hsrc)
  | forwardData _ _ _ hhost =>
      rw [hhost]
      exact hlearned
  | request _ _ _ _ hhost =>
      rw [hhost]
      exact .own rfl (Int.le_refl 0)

theorem hopsInv_step (hwf : FramesWf T s) (hinv : HopsInv T s) (hown : releasesOwn T s a = true)
    (hs : T.step s a = some s') : HopsInv T s' := by
  refine And.elim (fun hflight hrest => ⟨hflight, hrest.1, hrest.2⟩)
    (preserve hs (fun p => ∃ m, Sender T p m ∧ Within T m p.host.srcIp p.host.hopCount)
      (fun n e => Within T n e.destip e.noHops)
      (fun n q => q.odrframe.srcIp = T.ip n → 0 ≤ q.odrframe.hopCount)
      hinv.flight hinv.table hinv.pending ?entry ?park ?queue ?eth ?peer)
  case entry =>
    intro env p type hr
    exact within_updateREntry hinv hr.mem
  case park =>
    intro env p type hr _ _ _ _
    obtain ⟨m, _, hwithin⟩ := hinv.flight p hr.mem
    exact hwithin.nonneg
  case queue =>
    intro n sparams env portno _ _ _
    have hten := (s.nodes n).counter.ten_le
    exact (by omega : 0 ≤ (s.nodes n).counter.value + 2)
  case eth =>
    intro env p type t hr hsends q hq
    rw [host_of_mem_copies hq]
    exact ⟨p.dst, sender_of_mem_copies hsends.haddr hq, hr.within hwf hinv hown hsends⟩
  case peer =>
    intro n sparams env t _ hsends q hq
    rw [host_of_mem_copies hq]
    refine ⟨n, sender_of_mem_copies hsends.haddr hq, ?_⟩
    cases hsends with
    | request _ _ _ hhost =>
        rw [hhost]
        exact .own rfl (Int.le_refl 0)
    | data _ _ _ hhost =>
        rw [hhost]
        exact .own rfl (Int.le_refl 0)

end Step

/-! ## Hop counts never understate -/

/-- In every run that releases no frame parked by a relay, no entry understates the
distance to its destination. -/
theorem hops_sound_of_releasesOwn {h : List (Net Node × Action Node)} {s : Net Node}
    (ht : Trace T.step (Net.initial Node) h s)
    (hown : ∀ x ∈ h, releasesOwn T x.1 x.2 = true) :
    ∀ n, ∀ e ∈ (s.nodes n).table, HopsSound T n e := by
  have hinv : FramesWf T s ∧ HopsInv T s := by
    refine Trace.invariant_of_guard (G := fun s a => releasesOwn T s a = true)
      (I := fun s => FramesWf T s ∧ HopsInv T s) ?_ ?_ ht hown
    · exact ⟨framesWf_of_quiet quiet_initial, by simp [Net.initial],
        by simp [Net.initial, NodeState.initial], by simp [Net.initial, NodeState.initial]⟩
    · intro s a s' hI hG hs
      exact ⟨framesWf_step hI.1 hs, hopsInv_step hI.1 hI.2 hG hs⟩
  intro n e he
  exact (hinv.2.table n e he).hopsSound

theorem lineDiscovery_hops_sound : ∃ h s, Trace lineNet.step (Net.initial (Fin 3)) h s ∧
    (route (s.nodes 0).table "10.0.0.3").isSome ∧ (s.nodes 0).pending = [] ∧
    ∀ n, ∀ e ∈ (s.nodes n).table, HopsSound lineNet n e := by
  obtain ⟨h, s, ht, hp⟩ := Trace.exists_of_exec lineNet.step (Net.initial (Fin 3)) lineDiscovery
    (fun h s => decide ((route (s.nodes 0).table "10.0.0.3").isSome ∧ (s.nodes 0).pending = []) &&
      h.all fun x => releasesOwn lineNet x.1 x.2) (by decide +kernel)
  obtain ⟨hend, hown⟩ := Bool.and_eq_true _ _ ▸ hp
  obtain ⟨hroute, hpending⟩ := of_decide_eq_true hend
  exact ⟨h, s, ht, hroute, hpending, hops_sound_of_releasesOwn ht (List.all_eq_true.mp hown)⟩

/-- The last node then believes the first to be one hop away. -/
theorem lineParkedRun_understates : ∃ h s, Trace lineNet.step (Net.initial (Fin 3)) h s ∧
    ∃ e ∈ (s.nodes 2).table, e.destip = lineNet.ip 0 ∧ e.noHops = 1 ∧
      ¬ HopsSound lineNet 2 e := by
  obtain ⟨h, s, ht, hp⟩ := Trace.exists_of_exec lineNet.step (Net.initial (Fin 3)) lineParkedRun
    (fun _ s => (s.nodes 2).table.any fun e =>
      decide (e.destip = lineNet.ip 0 ∧ e.noHops = 1)) (by decide +kernel)
  obtain ⟨e, he, hdest⟩ := List.any_eq_true.mp hp
  obtain ⟨hip, hhops⟩ := of_decide_eq_true hdest
  refine ⟨h, s, ht, e, he, hip, hhops, ?_⟩
  rintro ⟨o, ho, _, hdist⟩
  obtain rfl : o = 0 := lineNet.selfIp_inj o 0 (ho.trans hip)
  rw [hhops] at hdist
  obtain ⟨d, hd, hwalk⟩ := hopDist_le_iff.mp hdist
  have hfar : ¬ Linked lineNet 2 0 := by decide
  -- a walk of at most one link from the last node to the first
  cases hwalk with
  | tail hwalk hlink =>
      cases hwalk with
      | refl => exact hfar hlink
      | tail _ _ => simp at hd

end OnDemandRouting.Proofs
