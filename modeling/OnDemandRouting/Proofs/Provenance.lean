import OnDemandRouting.Model.Wiring
import OnDemandRouting.Proofs.Frames

/-!
# Where routes come from

A frame in flight was last sent by a node that owns the frame's source address or
has held an entry for it, and a parked frame waits at such a node.  So every
routing entry names a neighbour that knew the way when it sent.
-/

namespace OnDemandRouting.Proofs

open OnDemandRouting.Lib
open OnDemandRouting.Model

variable {Node : Type} {T : Topology Node}

/-- `m` owns `ip`, or it holds an entry for `ip` in one of the `states`. -/
def Informed (T : Topology Node) (states : List (Net Node)) (m : Node) (ip : Ip) : Prop :=
  T.ip m = ip ∨ ∃ s ∈ states, (route (s.nodes m).table ip).isSome

theorem Informed.mono {states states' : List (Net Node)} {m : Node} {ip : Ip}
    (hsub : ∀ s ∈ states, s ∈ states') (h : Informed T states m ip) : Informed T states' m ip := by
  rcases h with hown | ⟨s, hs, hroute⟩
  · exact .inl hown
  · exact .inr ⟨s, hsub s hs, hroute⟩

theorem informed_of_route {states : List (Net Node)} {s : Net Node} {m : Node} {ip : Ip}
    {e : REntry} (hs : s ∈ states) (hroute : route (s.nodes m).table ip = some e) :
    Informed T states m ip :=
  .inr ⟨s, hs, by simp [hroute]⟩

/-- The states a run went through before the current one. -/
def past (h : List (Net Node × Action Node)) : List (Net Node) := h.map Prod.fst

variable [DecidableEq Node]

/-- What the history of a run says about its last state. -/
structure Provenance (T : Topology Node) (h : List (Net Node × Action Node)) (s : Net Node) :
    Prop where
  flight : ∀ p ∈ s.flight, ∃ m, Sender T p m ∧ Informed T (s :: past h) m p.host.srcIp
  table : ∀ n, ∀ e ∈ (s.nodes n).table, ∃ m, NextHop T n e m ∧ Informed T (past h) m e.destip
  pending : ∀ n, ∀ q ∈ (s.nodes n).pending, Informed T (s :: past h) n q.odrframe.srcIp

section Step

variable {s s' : Net Node} {a : Action Node} {h : List (Net Node × Action Node)}

/-- The node that sends on receipt of `p` is informed about the source of what it sends. -/
theorem Receipt.informed {env : Env} {p : Packet Node} {type : FrameType} {t : Transmission}
    (hr : Receipt T s s' a env p type) (hwf : FramesWf T s)
    (hpending : ∀ q ∈ (s.nodes p.dst).pending, Informed T (s :: past h) p.dst q.odrframe.srcIp)
    (hsends : EthSends (T.cfg p.dst) p.ifIndex p.host (learnedAt T s env p) (destAt T s env p)
      { s.nodes p.dst with table := (learnedAt T s env p).table } type t) :
    Informed T (s' :: s :: past h) p.dst t.host.srcIp := by
  have hlearned : Informed T (s' :: s :: past h) p.dst p.host.srcIp :=
    informed_of_route (by simp) hr.route_src
  have hreleased {q : PendingMsg} (hq : findKey PendingMsg.destip p.host.srcIp
      (s.nodes p.dst).pending = some q) : Informed T (s' :: s :: past h) p.dst q.odrframe.srcIp :=
    (hpending q (mem_of_findKey hq).1).mono fun _ hs => List.mem_cons_of_mem _ hs
  cases hsends with
  | relay _ _ _ _ _ _ hhost => rw [hhost]; exact hlearned
  | answerOwn hself _ hhost => rw [hhost]; exact .inl hself.symm
  | answerCached _ hd _ hhost =>
      rw [hhost]
      have hne := (hwf.flight p hr.mem).1.src_ne_dest
      exact informed_of_route (by simp) (route_of_derefDest hne hd)
  | forwardRrep _ _ _ hhost => rw [hhost]; exact hlearned
  | releaseRrep _ hq _ _ hhost => rw [hhost]; exact hreleased hq
  | releaseData _ hq _ _ hhost => rw [hhost]; exact hreleased hq
  | forwardData _ _ _ hhost => rw [hhost]; exact hlearned
  | request _ _ _ _ hhost => rw [hhost]; exact .inl rfl

theorem provenance_step (hwf : FramesWf T s) (hprov : Provenance T h s)
    (hs : T.step s a = some s') : Provenance T ((s, a) :: h) s' := by
  refine And.elim (fun hflight hrest => ⟨hflight, hrest.1, hrest.2⟩)
    (preserve hs
      (fun p => ∃ m, Sender T p m ∧ Informed T (s' :: past ((s, a) :: h)) m p.host.srcIp)
      (fun n e => ∃ m, NextHop T n e m ∧ Informed T (past ((s, a) :: h)) m e.destip)
      (fun n q => Informed T (s' :: past ((s, a) :: h)) n q.odrframe.srcIp)
      ?flight ?table ?pending ?entry ?park ?queue ?eth ?peer)
  case flight =>
    intro p hp
    obtain ⟨m, hsender, hinf⟩ := hprov.flight p hp
    exact ⟨m, hsender, hinf.mono fun _ hmem => List.mem_cons_of_mem _ hmem⟩
  case table =>
    intro n e he
    obtain ⟨m, hnext, hinf⟩ := hprov.table n e he
    exact ⟨m, hnext, hinf.mono fun _ hmem => List.mem_cons_of_mem _ hmem⟩
  case pending =>
    intro n q hq
    exact (hprov.pending n q hq).mono fun _ hmem => List.mem_cons_of_mem _ hmem
  case entry =>
    intro env p type hr
    obtain ⟨m, hsender, hinf⟩ := hprov.flight p hr.mem
    exact ⟨m, hsender.nextHop, hinf⟩
  case park =>
    intro env p type hr _ _ _
    exact informed_of_route (by simp) hr.route_src
  case queue =>
    intro n sparams env portno _ _
    exact .inl rfl
  case eth =>
    intro env p type t hr hsends q hq
    rw [host_of_mem_copies hq]
    exact ⟨p.dst, sender_of_mem_copies hsends.haddr hq,
      hr.informed hwf (hprov.pending p.dst) hsends⟩
  case peer =>
    intro n sparams env t _ hsends q hq
    rw [host_of_mem_copies hq]
    refine ⟨n, sender_of_mem_copies hsends.haddr hq, .inl ?_⟩
    cases hsends with
    | request _ _ _ hhost => rw [hhost]; rfl
    | data _ _ _ hhost => rw [hhost]; rfl

theorem provenance_of_trace (ht : Trace T.step (Net.initial Node) h s) : Provenance T h s := by
  induction ht with
  | nil => exact ⟨by simp [Net.initial], by simp [Net.initial, NodeState.initial],
      by simp [Net.initial, NodeState.initial]⟩
  | snoc ht hs ih => exact provenance_step (framesWf_of_trace quiet_initial ht) ih hs

/-! ## Runs in which no entry is deleted -/

/-- The node a reply or a message travels to knows the way to its destination. -/
def ReceiversInformed (T : Topology Node) (h : List (Net Node × Action Node)) (s : Net Node) :
    Prop :=
  ∀ p ∈ s.flight, isFlood p.host = false → Informed T (s :: past h) p.dst p.host.destIp

/-- A frame sent along an entry reaches a node that is informed about the entry's
destination. -/
theorem informed_of_along {n : Node} {e : REntry} {t : Transmission} {q : Packet Node}
    {trail : List (RelayEvent Node)} (hprov : Provenance T h s) (he : e ∈ (s.nodes n).table)
    (halong : Along (T.cfg n) e t) (hq : q ∈ T.copies n trail t) :
    Informed T (past h) q.dst e.destip := by
  obtain ⟨m, hnext, hinf⟩ := hprov.table n e he
  rwa [(nextHop_of_mem_copies halong hnext.ne_broadcast hq).unique hnext]

theorem receiversInformed_step (hwf : FramesWf T s) (hprov : Provenance T h s)
    (hrecv : ReceiversInformed T h s) (hs : T.step s a = some s') :
    ReceiversInformed T ((s, a) :: h) s' := by
  have hprov' := provenance_step hwf hprov hs
  have hmono {m : Node} {ip : Ip} (hinf : Informed T (s :: past h) m ip) :
      Informed T (s' :: past ((s, a) :: h)) m ip :=
    hinf.mono fun _ hmem => List.mem_cons_of_mem _ hmem
  refine (preserve hs
    (fun p => isFlood p.host = false → Informed T (s' :: past ((s, a) :: h)) p.dst p.host.destIp)
    (fun _ _ => True) (fun _ _ => True) (fun p hp hflood => hmono (hrecv p hp hflood))
    (fun _ _ _ => trivial) (fun _ _ _ => trivial) (fun _ _ _ _ => trivial)
    (fun _ _ _ _ _ _ _ => trivial) (fun _ _ _ _ _ _ => trivial) ?eth ?peer).1
  case eth =>
    intro env p type t hr hsends q hq hflood
    rw [host_of_mem_copies hq] at hflood ⊢
    rcases hsends.flood_or_along fun q hq => (hwf.pending p.dst q hq).key with
      hf | ⟨halong, hdest⟩ | ⟨d, hd, halong, hdest⟩
    · simp [hf] at hflood
    · obtain ⟨hmem, hdestip⟩ := route_mem hr.route_src
      rw [hdest, ← hdestip]
      exact (informed_of_along hprov' hmem halong hq).mono fun _ hs => List.mem_cons_of_mem _ hs
    · have hne := (hwf.flight p hr.mem).1.src_ne_dest
      obtain ⟨hmem, hdestip⟩ := route_mem (route_of_derefDest hne hd)
      rw [hdest, ← hdestip]
      exact hmono ((informed_of_along hprov hmem halong hq).mono
        fun _ hs => List.mem_cons_of_mem _ hs)
  case peer =>
    intro n sparams env t _ hsends q hq hflood
    rw [host_of_mem_copies hq] at hflood ⊢
    cases hsends with
    | request _ _ _ hhost =>
        rw [hhost] at hflood
        exact absurd hflood (by simp [isFlood, floodFrame])
    | data _ hentry halong hhost =>
        obtain ⟨hmem, hdestip⟩ := route_mem (getREntry_entry hentry).1
        have hinf := informed_of_along hprov hmem halong hq
        rw [hdestip] at hinf
        rw [hhost]
        exact hmono (hinf.mono fun _ hs => List.mem_cons_of_mem _ hs)

theorem receiversInformed_of_trace (ht : Trace T.step (Net.initial Node) h s) :
    ReceiversInformed T h s := by
  induction ht with
  | nil => exact fun p hp => absurd hp (by simp [Net.initial])
  | snoc ht hs ih =>
      exact receiversInformed_step (framesWf_of_trace quiet_initial ht) (provenance_of_trace ht)
        ih hs

/-- An entry that is never deleted is still there. -/
theorem route_isSome_of_past {s₀ s₁ : Net Node} {n : Node} {ip : Ip}
    (ht : Trace T.step s₀ h s) (hkeep : ∀ x ∈ h, ¬ Deletes T x.1 x.2 n ip)
    (hs₁ : s₁ ∈ s :: past h) (hroute : (route (s₁.nodes n).table ip).isSome) :
    (route (s.nodes n).table ip).isSome := by
  induction ht with
  | nil =>
      obtain rfl := List.mem_singleton.mp hs₁
      exact hroute
  | snoc ht hs ih =>
      obtain ⟨hlast, hkeep⟩ := List.forall_mem_cons.mp hkeep
      rcases List.mem_cons.mp hs₁ with rfl | hs₁
      · exact hroute
      · exact route_isSome_step hs hlast (ih hkeep hs₁)

/-- Without deletions an informed node owns the address or has a route now. -/
theorem Informed.current {s₀ : Net Node} {n : Node} {ip : Ip} (ht : Trace T.step s₀ h s)
    (hkeep : ∀ x ∈ h, ∀ n ip, ¬ Deletes T x.1 x.2 n ip)
    (hinf : Informed T (s :: past h) n ip) :
    T.ip n = ip ∨ (route (s.nodes n).table ip).isSome := by
  rcases hinf with hown | ⟨s₁, hs₁, hroute⟩
  · exact .inl hown
  · exact .inr (route_isSome_of_past ht (fun x hx => hkeep x hx n ip) hs₁ hroute)

/-- In this step a node puts a frame it received into its pending queue. -/
def Parks (T : Topology Node) (s : Net Node) (a : Action Node) : Prop :=
  ∃ k env s' n, a = .deliver k env ∧ T.step s a = some s' ∧
    (s.nodes n).pending.length < (s'.nodes n).pending.length

theorem receipt_of_parks (h : Parks T s a) : ∃ s' env p type, Receipt T s s' a env p type ∧
    (type = .rrep ∨ type = .data) ∧ p.host.destIp ≠ T.ip p.dst ∧ destAt T s env p = none := by
  obtain ⟨k, env, s', n, rfl, hs, hlen⟩ := h
  rcases step_cases hs with ⟨_, _, _, ha, _⟩ | ⟨k', env', p, ha, hk, rfl⟩
  · cases ha
  · cases ha
    by_cases hn : n = p.dst
    · subst hn
      rw [deliverPacket_nodes_self] at hlen
      rcases handleEthernetMsg_cases (T.cfg p.dst) env p.ifIndex p.srcMac p.frame
        (s.nodes p.dst) with ⟨_, heq⟩ | ⟨_, _, exit, _, heq⟩ | ⟨type, hproc, heq⟩
      · rw [heq] at hlen
        exact absurd hlen (Nat.lt_irrefl _)
      · rw [heq] at hlen
        exact absurd hlen (Nat.lt_irrefl _)
      · rw [heq, Reaction.outcome_node, reaction_state.pending] at hlen
        exact ⟨_, env, p, type, receipt_of_processed hk hproc, parked_of_length_lt hlen⟩
    · rw [deliverPacket_nodes_of_ne _ _ _ _ hn] at hlen
      exact absurd hlen (Nat.lt_irrefl _)

theorem not_parks_of_trace (ht : Trace T.step (Net.initial Node) h s)
    (hkeep : ∀ x ∈ h, ∀ n ip, ¬ Deletes T x.1 x.2 n ip) (hlast : ∀ n ip, ¬ Deletes T s a n ip) :
    ¬ Parks T s a := by
  intro hparks
  obtain ⟨s', env, p, type, hr, htype, hself, hnone⟩ := receipt_of_parks hparks
  have hwf := (framesWf_of_trace quiet_initial ht).flight p hr.mem
  have hflood : isFlood p.host = false := by
    rw [Bool.eq_false_iff, ne_eq, isFlood_iff hr.processed.type_eq]
    rcases htype with rfl | rfl
    · decide
    · decide
  rw [hr.destAt_eq hwf.1.src_ne_dest (hlast _ _)] at hnone
  rcases (receiversInformed_of_trace ht p hr.mem hflood).current ht hkeep with hown | hroute
  · exact hself hown.symm
  · simp [hnone] at hroute

end Step

/-! ## Every route points at a neighbour that knew the way -/

/-- The entry's interface and next hop identify a neighbour that owns the
destination or held an entry for it earlier in the run.  Without deletions that
neighbour still has a route, and no frame is ever parked. -/
theorem routes_point_at_informed_neighbours {h : List (Net Node × Action Node)} {s : Net Node}
    (ht : Trace T.step (Net.initial Node) h s) :
    (∀ n, ∀ e ∈ (s.nodes n).table, ∃ m, NextHop T n e m ∧ (∀ m', NextHop T n e m' → m' = m) ∧
      (T.ip m = e.destip ∨ ∃ x ∈ h, ∃ e' ∈ (x.1.nodes m).table, e'.destip = e.destip)) ∧
    ((∀ x ∈ h, ∀ n ip, ¬ Deletes T x.1 x.2 n ip) →
      (∀ n, ∀ e ∈ (s.nodes n).table, ∀ m, NextHop T n e m →
        T.ip m = e.destip ∨ (route (s.nodes m).table e.destip).isSome) ∧
      ∀ x ∈ h, ¬ Parks T x.1 x.2) := by
  have hprov := provenance_of_trace ht
  refine ⟨?_, fun hkeep => ⟨?_, ?_⟩⟩
  · intro n e he
    obtain ⟨m, hnext, hinf⟩ := hprov.table n e he
    refine ⟨m, hnext, fun m' hnext' => hnext'.unique hnext, hinf.imp_right ?_⟩
    rintro ⟨s₁, hs₁, hroute⟩
    obtain ⟨x, hx, rfl⟩ := List.mem_map.mp hs₁
    obtain ⟨e', he'⟩ := Option.isSome_iff_exists.mp hroute
    exact ⟨x, hx, e', route_mem he'⟩
  · intro n e he m hnext
    obtain ⟨m', hnext', hinf⟩ := hprov.table n e he
    obtain rfl := hnext.unique hnext'
    exact (hinf.mono fun _ hs => List.mem_cons_of_mem _ hs).current ht hkeep
  · intro x hx
    obtain ⟨h₀, h₁, s₁, rfl, ht₀, hs₁, _⟩ := ht.of_mem_history hx
    exact not_parks_of_trace ht₀ (fun y hy => hkeep y (by simp [hy])) (hkeep x (by simp))

theorem lineDiscovery_routes_informed : ∃ h s, Trace lineNet.step (Net.initial (Fin 3)) h s ∧
    (route (s.nodes 0).table "10.0.0.3").isSome ∧
    (∀ n, ∀ e ∈ (s.nodes n).table, ∃ m, NextHop lineNet n e m ∧
      (∀ m', NextHop lineNet n e m' → m' = m) ∧
      (lineNet.ip m = e.destip ∨ ∃ x ∈ h, ∃ e' ∈ (x.1.nodes m).table, e'.destip = e.destip)) ∧
    ∀ x ∈ h, ¬ Parks lineNet x.1 x.2 := by
  obtain ⟨h, s, ht, hp⟩ := Trace.exists_of_exec lineNet.step (Net.initial (Fin 3)) lineDiscovery
    (fun h s => (route (s.nodes 0).table "10.0.0.3").isSome && h.all (keepsEntries lineNet))
    (by decide +kernel)
  obtain ⟨hroute, hkeep⟩ := Bool.and_eq_true _ _ ▸ hp
  obtain ⟨hinf, hpark⟩ := routes_point_at_informed_neighbours ht
  exact ⟨h, s, ht, hroute, hinf, (hpark (not_deletes_of_keepsEntries hkeep)).2⟩

end OnDemandRouting.Proofs
