import Mathlib.Data.Fintype.Card
import Mathlib.Data.List.Nodup
import OnDemandRouting.Proofs.Freshness
import OnDemandRouting.Proofs.Provenance

/-!
# A flood passes a node once

A copy that descends from one a node relayed has a higher hop count than the copy
relayed, while the node's route to the flood's source is as fresh as that copy for
as long as it is not deleted.  So the node does not accept the descendant, and
what it does not accept it does not relay.
-/

namespace OnDemandRouting.Proofs

open OnDemandRouting.Lib
open OnDemandRouting.Model

variable {Node : Type} {T : Topology Node}

/-- The flood copy the step relays: it is delivered, and a flood frame leaves. -/
def relayedAt (T : Topology Node) (s : Net Node) : Action Node → Option (Packet Node)
  | .request _ _ _ => none
  | .deliver k env =>
      (s.flight[k]?).filter fun p =>
        isFlood p.host &&
          (handleEthernetMsg (T.cfg p.dst) env p.ifIndex p.srcMac p.frame
            (s.nodes p.dst)).sent.any fun t => isFlood t.host

/-- The event in the trail of `p` is behind it: the relay's route to the source is at
least as fresh as the copy it relayed, and `p` has come further than that copy. -/
structure Behind (s : Net Node) (p : Packet Node) (ev : RelayEvent Node) : Prop where
  hop_lt : ev.hop + 1 ≤ p.host.hopCount
  covers : RouteCovers (s.nodes ev.node) p.host.srcIp p.host.broadcastId (ev.hop + 1)

/-- `g` is `f` one hop further. -/
structure Relayed (f g : OdrFrame) : Prop where
  src : g.srcIp = f.srcIp
  bid : g.broadcastId = f.broadcastId
  hop : g.hopCount = f.hopCount + 1

section Trails

variable {s s' : Net Node} {a : Action Node} {env : Env} {p q : Packet Node}
  {type : FrameType} {ev : RelayEvent Node}

theorem Behind.relayed (h : Behind s p ev) (hrel : Relayed p.host q.host) : Behind s q ev where
  hop_lt := by
    have hlt := h.hop_lt
    rw [hrel.hop]
    omega
  covers := by
    rw [hrel.src, hrel.bid]
    exact h.covers

theorem Receipt.behind (hr : Receipt T s s' a env p type) (hrel : Relayed p.host q.host) :
    Behind s' q { tick := s.tick, node := p.dst, hop := p.host.hopCount } where
  hop_lt := by rw [hrel.hop]
  covers := by
    rw [hrel.src, hrel.bid]
    exact hr.routeCovers

/-- A relay whose event is behind `p` does not accept `p`. -/
theorem Receipt.not_accepted (hr : Receipt T s s' a env p type) (h : Behind s p ev)
    (hnode : ev.node = p.dst) (hdel : ¬ Deletes T s a p.dst p.host.srcIp) :
    (learnedAt T s env p).flag = false := by
  rw [Bool.eq_false_iff]
  intro hflag
  obtain ⟨e, hroute, hcov⟩ := h.covers
  rw [hnode] at hroute
  have hlt := h.hop_lt
  have haccepts := acceptsUpdate_iff.mp
    (accepts_of_flag (hr.not_deleted hdel) hflag e hroute)
  unfold Covers at hcov
  omega

end Trails

variable [DecidableEq Node]

section Step

variable {s s' : Net Node} {a : Action Node} {env : Env} {p q : Packet Node}
  {type : FrameType} {t : Transmission} {ev : RelayEvent Node}

/-- What is sent as part of a flood on receipt of a flood frame is a relayed copy. -/
theorem EthSends.relayed {cfg : Config} {intfN : Int} {f : OdrFrame} {l : Learned}
    {dest : Option REntry} {st : NodeState} (hsends : EthSends cfg intfN f l dest st type t)
    (htype : FrameType.ofInt f.frameType = some type) (hf : isFlood f = true)
    (ht : isFlood t.host = true) : l.flag = true ∧ Relayed f t.host := by
  rw [isFlood_iff htype] at hf
  cases hsends with
  | relay _ _ _ _ hflag _ hhost =>
      rw [hhost]
      exact ⟨hflag, rfl, rfl, rfl⟩
  | answerOwn _ _ hhost => simp [hhost] at ht
  | answerCached _ _ _ hhost => simp [hhost] at ht
  | forwardRrep _ _ _ hhost => simp [hhost] at ht
  | releaseRrep _ _ _ _ hhost => simp [hhost] at ht
  | releaseData => simp at hf
  | forwardData => simp at hf
  | request hin =>
      rcases hin with rfl | rfl
      · simp at hf
      · simp at hf

/-- A flood that starts on receipt of another frame starts with hop count 0. -/
theorem EthSends.hopCount_zero {cfg : Config} {intfN : Int} {f : OdrFrame} {l : Learned}
    {dest : Option REntry} {st : NodeState} (hsends : EthSends cfg intfN f l dest st type t)
    (htype : FrameType.ofInt f.frameType = some type) (hf : isFlood f = false)
    (ht : isFlood t.host = true) : t.host.hopCount = 0 := by
  have hnot : ¬ (type = .rreq ∨ type = .asent) := by
    rw [← isFlood_iff htype]
    simp [hf]
  cases hsends with
  | relay _ hin => exact absurd hin hnot
  | answerOwn _ _ hhost => simp [hhost] at ht
  | answerCached _ _ _ hhost => simp [hhost] at ht
  | forwardRrep _ _ _ hhost => simp [hhost] at ht
  | releaseRrep _ _ _ _ hhost => simp [hhost] at ht
  | releaseData _ _ hdata _ hhost =>
      rw [hhost, isFlood_iff hdata] at ht
      simp at ht
  | forwardData _ _ _ hhost =>
      have hkeep : FrameType.ofInt t.host.frameType = some .data := by
        rw [hhost]
        exact htype
      rw [isFlood_iff hkeep] at ht
      simp at ht
  | request _ _ _ _ hhost =>
      rw [hhost]
      rfl

/-- A copy sent on receipt of `p` starts a trail, or it is a relayed copy whose trail
extends that of `p`. -/
theorem Receipt.trail (hr : Receipt T s s' a env p type)
    (hsends : EthSends (T.cfg p.dst) p.ifIndex p.host (learnedAt T s env p) (destAt T s env p)
      { s.nodes p.dst with table := (learnedAt T s env p).table } type t)
    (hq : q ∈ T.copies p.dst (relayTrail s.tick p t) t) :
    (q.trail = [] ∧ (isFlood q.host = true → q.host.hopCount = 0)) ∨
      (learnedAt T s env p).flag = true ∧ isFlood p.host = true ∧ Relayed p.host q.host ∧
      q.trail = { tick := s.tick, node := p.dst, hop := p.host.hopCount } :: p.trail := by
  obtain ⟨_, _, _, htrail, _⟩ := mem_copies hq
  rw [htrail, host_of_mem_copies hq, relayTrail]
  split_ifs with hflood
  · rw [Bool.and_eq_true] at hflood
    obtain ⟨hflag, hrelayed⟩ := hsends.relayed hr.processed.type_eq hflood.1 hflood.2
    exact .inr ⟨hflag, hflood.1, hrelayed, rfl⟩
  · refine .inl ⟨rfl, fun ht => ?_⟩
    have hp : isFlood p.host = false := by simpa [ht] using hflood
    exact hsends.hopCount_zero hr.processed.type_eq hp ht

theorem Behind.step (h : Behind s p ev) (hs : T.step s a = some s')
    (hdel : ¬ Deletes T s a ev.node p.host.srcIp) : Behind s' p ev :=
  ⟨h.hop_lt, h.covers.step hs hdel⟩

theorem receipt_of_relayedAt (h : relayedAt T s a = some p) :
    ∃ k env type s', a = .deliver k env ∧ s.flight[k]? = some p ∧
      Receipt T s s' a env p type ∧ isFlood p.host = true ∧
      (learnedAt T s env p).flag = true := by
  cases a with
  | request n sparams env => simp [relayedAt] at h
  | deliver k env =>
      obtain ⟨hk, hp⟩ := Option.filter_eq_some_iff.mp h
      obtain ⟨hflood, hany⟩ := Bool.and_eq_true _ _ ▸ hp
      obtain ⟨t, ht, htflood⟩ := List.any_eq_true.mp hany
      obtain ⟨type, hproc, _, hsends⟩ := handleEthernetMsg_sends ht
      exact ⟨k, env, type, _, rfl, hk, receipt_of_processed hk hproc, hflood,
        (hsends.relayed hproc.type_eq hflood htflood).1⟩

theorem tick_step (hs : T.step s a = some s') : s'.tick = s.tick + 1 := by
  rcases step_cases hs with ⟨n, sparams, env, rfl, rfl⟩ | ⟨k, env, p, rfl, hk, rfl⟩
  · rfl
  · rfl

/-- A property of trails holds after a step if it held before, holds of every trail
that starts, and passes to relayed copies. -/
theorem trails_step (hs : T.step s a = some s') {P : Packet Node → Prop}
    (hP : ∀ p ∈ s.flight, P p)
    (hnil : ∀ q : Packet Node, q.trail = [] → (isFlood q.host = true → q.host.hopCount = 0) →
      P q)
    (hrelay : ∀ env p type q, Receipt T s s' a env p type →
      (learnedAt T s env p).flag = true → isFlood p.host = true → Relayed p.host q.host →
      q.trail = { tick := s.tick, node := p.dst, hop := p.host.hopCount } :: p.trail → P q) :
    ∀ p ∈ s'.flight, P p := by
  refine (preserve hs P (fun _ _ => True) (fun _ _ => True) hP (fun _ _ _ => trivial)
    (fun _ _ _ => trivial) (fun _ _ _ _ => trivial) (fun _ _ _ _ _ _ _ => trivial)
    (fun _ _ _ _ _ _ => trivial) ?eth ?peer).1
  case eth =>
    intro env p type t hr hsends q hq
    rcases hr.trail hsends hq with ⟨htrail, hhop⟩ | ⟨hflag, hflood, hrel, htrail⟩
    · exact hnil q htrail hhop
    · exact hrelay env p type q hr hflag hflood hrel htrail
  case peer =>
    intro n sparams env t _ hsends q hq
    refine hnil q (mem_copies hq).2.2.2.1 fun hflood => ?_
    rw [host_of_mem_copies hq] at hflood ⊢
    cases hsends with
    | request _ _ _ hhost =>
        rw [hhost]
        rfl
    | data _ _ _ hhost =>
        rw [hhost]
        rfl

theorem ticks_lt_of_trace {h : List (Net Node × Action Node)}
    (ht : Trace T.step (Net.initial Node) h s) :
    ∀ p ∈ s.flight, ∀ ev ∈ p.trail, ev.tick < s.tick := by
  refine Trace.invariant (I := fun s => ∀ p ∈ s.flight, ∀ ev ∈ p.trail, ev.tick < s.tick)
    (by simp [Net.initial]) ?_ ht
  intro s a s' hI hs
  have htick := tick_step hs
  refine trails_step hs (P := fun p => ∀ ev ∈ p.trail, ev.tick < s'.tick) ?_ ?_ ?_
  · intro p hp ev hev
    have hlt := hI p hp ev hev
    omega
  · intro q htrail _ ev hev
    simp [htrail] at hev
  · intro env p type q hr _ _ _ htrail ev hev
    rw [htrail] at hev
    rcases List.mem_cons.mp hev with rfl | hev
    · simp only
      omega
    · have hlt := hI p hr.mem ev hev
      omega

/-! ## Descendants of one relayed copy -/

/-- What the descendants of the copy `c`, relayed at tick `k`, have in common. -/
def Descendants (c : Packet Node) (k : Nat) (s : Net Node) : Prop :=
  ∀ p ∈ s.flight, ∀ ev ∈ p.trail, ev.tick = k →
    ev.node = c.dst ∧ p.host.srcIp = c.host.srcIp ∧ Behind s p ev

theorem descendants_of_relayedAt {c : Packet Node} (hc : relayedAt T s a = some c)
    (hs : T.step s a = some s') (hticks : ∀ p ∈ s.flight, ∀ ev ∈ p.trail, ev.tick < s.tick) :
    Descendants c s.tick s' := by
  obtain ⟨k, env, _, _, rfl, hk, _⟩ := receipt_of_relayedAt hc
  refine trails_step hs ?_ ?_ ?_
  · intro p hp ev hev htick
    have hlt := hticks p hp ev hev
    omega
  · intro q htrail _ ev hev
    simp [htrail] at hev
  · intro env' p type q hr _ _ hrel htrail ev hev htick
    -- the step delivers `c` and nothing else
    obtain ⟨k', ha, hk'⟩ := hr.action
    cases ha
    obtain rfl : c = p := Option.some.inj (hk.symm.trans hk')
    rw [htrail] at hev
    rcases List.mem_cons.mp hev with rfl | hev
    · exact ⟨rfl, hrel.src, hr.behind hrel⟩
    · have hlt := hticks c hr.mem ev hev
      omega

theorem descendants_step {c : Packet Node} {k : Nat} (hdesc : Descendants c k s)
    (hk : k < s.tick) (hs : T.step s a = some s') (hdel : ¬ Deletes T s a c.dst c.host.srcIp) :
    Descendants c k s' := by
  have hkeep : ∀ p ∈ s.flight, ∀ ev ∈ p.trail, ev.tick = k →
      ev.node = c.dst ∧ p.host.srcIp = c.host.srcIp ∧ Behind s' p ev := by
    intro p hp ev hev htick
    obtain ⟨hnode, hsrc, hbehind⟩ := hdesc p hp ev hev htick
    exact ⟨hnode, hsrc, hbehind.step hs (by rwa [hnode, hsrc])⟩
  refine trails_step hs hkeep ?_ ?_
  · intro q htrail _ ev hev
    simp [htrail] at hev
  · intro env p type q hr _ _ hrel htrail ev hev htick
    rw [htrail] at hev
    rcases List.mem_cons.mp hev with rfl | hev
    · simp only at htick
      omega
    · obtain ⟨hnode, hsrc, hbehind⟩ := hkeep p hr.mem ev hev htick
      exact ⟨hnode, hrel.src.trans hsrc, hbehind.relayed hrel⟩

/-- The node that relayed `c` does not relay a descendant of `c`. -/
theorem Descendants.not_relayed {c : Packet Node} {k : Nat} (hdesc : Descendants c k s)
    (hdel : ¬ Deletes T s a c.dst c.host.srcIp) (hp : relayedAt T s a = some p)
    (hnode : p.dst = c.dst) : ∀ ev ∈ p.trail, ev.tick ≠ k := by
  intro ev hev htick
  obtain ⟨_, env, type, s', _, _, hr, _, hflag⟩ := receipt_of_relayedAt hp
  obtain ⟨hevnode, hsrc, hbehind⟩ := hdesc p hr.mem ev hev htick
  have hrejects := hr.not_accepted hbehind (hevnode.trans hnode.symm) (by rwa [hnode, hsrc])
  simp [hflag] at hrejects

theorem descendants_of_trace {c : Packet Node} {k : Nat} {s₀ : Net Node}
    {h : List (Net Node × Action Node)} (hdesc : Descendants c k s₀) (hk : k < s₀.tick)
    (ht : Trace T.step s₀ h s) (hdel : ∀ x ∈ h, ¬ Deletes T x.1 x.2 c.dst c.host.srcIp) :
    Descendants c k s ∧ k < s.tick := by
  refine Trace.invariant_of_guard (G := fun s a => ¬ Deletes T s a c.dst c.host.srcIp)
    (I := fun s => Descendants c k s ∧ k < s.tick) ⟨hdesc, hk⟩ ?_ ht hdel
  intro s a s' hI hG hs
  have htick := tick_step hs
  exact ⟨descendants_step hI.1 hI.2 hs hG, by omega⟩

/-! ## Chains of relays -/

/-- The hop count of every flood copy is the number of its relays. -/
def HopsCounted (s : Net Node) : Prop :=
  ∀ p ∈ s.flight, isFlood p.host = true → p.host.hopCount = p.trail.length

/-- Every relay of a flood from `x` is behind the copies that descend from it, and no
node is on a trail twice. -/
def TrailsBehind (x : Ip) (s : Net Node) : Prop :=
  ∀ p ∈ s.flight, p.host.srcIp = x →
    (p.trail.map RelayEvent.node).Nodup ∧ ∀ ev ∈ p.trail, Behind s p ev

theorem hopsCounted_step (hcounted : HopsCounted s) (hs : T.step s a = some s') :
    HopsCounted s' := by
  refine trails_step hs hcounted ?_ ?_
  · intro q htrail hhop hflood
    rw [hhop hflood, htrail]
    rfl
  · intro env p type q hr _ hflood hrel htrail _
    rw [hrel.hop, hcounted p hr.mem hflood, htrail]
    rfl

theorem trailsBehind_step {x : Ip} (htrails : TrailsBehind x s)
    (hdel : ∀ n, ¬ Deletes T s a n x) (hs : T.step s a = some s') : TrailsBehind x s' := by
  refine trails_step hs ?_ ?_ ?_
  · intro p hp hsrc
    obtain ⟨hnodup, hbehind⟩ := htrails p hp hsrc
    exact ⟨hnodup, fun ev hev => (hbehind ev hev).step hs (hsrc ▸ hdel ev.node)⟩
  · intro q htrail _ _
    simp [htrail]
  · intro env p type q hr hflag _ hrel htrail hsrc
    have hsrc' : p.host.srcIp = x := hrel.src.symm.trans hsrc
    obtain ⟨hnodup, hbehind⟩ := htrails p hr.mem hsrc'
    rw [htrail]
    refine ⟨?_, List.forall_mem_cons.mpr ⟨hr.behind hrel, fun ev hev => ?_⟩⟩
    · rw [List.map_cons, List.nodup_cons]
      refine ⟨fun hmem => ?_, hnodup⟩
      -- the receiver is on the trail already, so it would not accept the copy
      obtain ⟨ev, hev, hnode⟩ := List.mem_map.mp hmem
      have hrejects := hr.not_accepted (hbehind ev hev) hnode (hsrc' ▸ hdel p.dst)
      simp [hflag] at hrejects
    · exact ((hbehind ev hev).step hs (hsrc' ▸ hdel ev.node)).relayed hrel

theorem hopCount_eq_of_trace {h : List (Net Node × Action Node)}
    (ht : Trace T.step (Net.initial Node) h s) :
    ∀ p ∈ s.flight, isFlood p.host = true → p.host.hopCount = p.trail.length :=
  ht.invariant (I := HopsCounted) (by simp [HopsCounted, Net.initial])
    fun _ _ _ hI hs => hopsCounted_step hI hs

/-- Without deletions of entries for `x`, trails stay as they should. -/
theorem trails_nodup_of_trace {h : List (Net Node × Action Node)} {x : Ip}
    (ht : Trace T.step (Net.initial Node) h s) (hdel : ∀ y ∈ h, ∀ n, ¬ Deletes T y.1 y.2 n x) :
    ∀ p ∈ s.flight, p.host.srcIp = x →
      (p.trail.map RelayEvent.node).Nodup ∧ ∀ ev ∈ p.trail, Behind s p ev :=
  ht.invariant_of_guard (G := fun s a => ∀ n, ¬ Deletes T s a n x) (I := TrailsBehind x)
    (by simp [TrailsBehind, Net.initial]) (fun _ _ _ hI hG hs => trailsBehind_step hI hG hs) hdel

end Step

/-! ## A flood never runs through the same node twice -/

/-- A node that relays a copy `c` and keeps its entry for the source never relays a
copy with that relay in its trail.  Without deletions of entries for the source, the
trail of every copy of a flood has no node twice, and its hop count, which is the
length of the trail, is at most the number of nodes. -/
theorem flood_passes_once [Fintype Node] {h : List (Net Node × Action Node)} {s : Net Node}
    (ht : Trace T.step (Net.initial Node) h s) :
    (∀ h₁ s₁ a₁ h₀ c, h = h₁ ++ (s₁, a₁) :: h₀ → relayedAt T s₁ a₁ = some c →
      (∀ x ∈ h₁, ¬ Deletes T x.1 x.2 c.dst c.host.srcIp) →
      ∀ x ∈ h₁, ∀ p, relayedAt T x.1 x.2 = some p → p.dst = c.dst →
        ∀ ev ∈ p.trail, ev.tick ≠ s₁.tick) ∧
    ∀ x, (∀ y ∈ h, ∀ n, ¬ Deletes T y.1 y.2 n x) →
      (∀ y ∈ h, ∀ p, relayedAt T y.1 y.2 = some p → p.host.srcIp = x →
        (p.dst :: p.trail.map RelayEvent.node).Nodup) ∧
      ∀ p ∈ s.flight, isFlood p.host = true → p.host.srcIp = x →
        (p.trail.map RelayEvent.node).Nodup ∧ p.host.hopCount = p.trail.length ∧
          p.host.hopCount ≤ Fintype.card Node := by
  refine ⟨?_, fun x hdel => ⟨?_, ?_⟩⟩
  · rintro h₁ s₁ a₁ h₀ c rfl hc hdel x hx p hp hnode
    obtain ⟨s₁', ht₀, hs₁, ht₁⟩ := ht.split
    have hdesc := descendants_of_relayedAt hc hs₁ (ticks_lt_of_trace ht₀)
    have htick : s₁.tick < s₁'.tick := by
      rw [tick_step hs₁]
      omega
    obtain ⟨h₂, h₃, s₂, rfl, ht₂, _, _⟩ := ht₁.of_mem_history hx
    have hdesc' := descendants_of_trace hdesc htick ht₂ fun y hy => hdel y (by simp [hy])
    exact hdesc'.1.not_relayed (hdel x (by simp)) hp hnode
  · intro y hy p hp hsrc
    obtain ⟨h₀, h₁, _, rfl, ht₀, _, _⟩ := ht.of_mem_history hy
    obtain ⟨_, env, type, s', _, _, hr, _, hflag⟩ := receipt_of_relayedAt hp
    obtain ⟨hnodup, hbehind⟩ := trails_nodup_of_trace ht₀ (fun z hz => hdel z (by simp [hz])) p
      hr.mem hsrc
    refine List.nodup_cons.mpr ⟨fun hmem => ?_, hnodup⟩
    obtain ⟨ev, hev, hnode⟩ := List.mem_map.mp hmem
    have hrejects := hr.not_accepted (hbehind ev hev) hnode (hsrc ▸ hdel y (by simp) p.dst)
    simp [hflag] at hrejects
  · intro p hp hflood hsrc
    have hnodup := (trails_nodup_of_trace ht hdel p hp hsrc).1
    have hhop := hopCount_eq_of_trace ht p hp hflood
    have hcard := hnodup.length_le_card
    rw [List.length_map] at hcard
    exact ⟨hnodup, hhop, by omega⟩

/-- The step relays at `n` a copy that comes from `k` relays. -/
def relaysAfter (T : Topology Node) (n : Node) (k : Nat) (x : Net Node × Action Node) : Bool :=
  (relayedAt T x.1 x.2).any fun p => decide (p.dst = n ∧ p.trail.length = k)

/-- The request goes around the triangle; then node 0 asks again, and the second request
comes to node 1 through node 2. -/
theorem triangleRound_passes_once : ∃ h s, Trace triangleNet.step (Net.initial (Fin 4)) h s ∧
    (∃ h₁ s₁ a₁ h₀ c, h = h₁ ++ (s₁, a₁) :: h₀ ∧ relayedAt triangleNet s₁ a₁ = some c ∧
      ∃ x ∈ h₁, ∃ p, relayedAt triangleNet x.1 x.2 = some p ∧ p.dst = c.dst ∧ p.trail ≠ [] ∧
        ∀ ev ∈ p.trail, ev.tick ≠ s₁.tick) ∧
    (∃ p ∈ s.flight, isFlood p.host = true ∧ p.trail.map RelayEvent.node = [0, 2, 1]) ∧
    ∀ p ∈ s.flight, isFlood p.host = true → p.host.srcIp = "10.0.0.1" →
      (p.trail.map RelayEvent.node).Nodup ∧ p.host.hopCount ≤ 4 := by
  obtain ⟨h, s, ht, hp⟩ := Trace.exists_of_exec triangleNet.step (Net.initial (Fin 4))
    (triangleRound ++ [.request 0 (messageFor "10.0.0.4") (.reliable 0),
      .deliver 4 (.reliable 0), .deliver 4 (.reliable 0)])
    (fun h s => (s.flight.any fun p =>
      decide (isFlood p.host = true ∧ p.trail.map RelayEvent.node = [0, 2, 1])) &&
      h.all (keepsEntries triangleNet) &&
      (h[5]?).any (relaysAfter triangleNet 1 0) && (h[0]?).any (relaysAfter triangleNet 1 1))
    (by decide +kernel)
  simp only [Bool.and_eq_true] at hp
  obtain ⟨⟨⟨hround, hkeep⟩, hfirst⟩, hlast⟩ := hp
  obtain ⟨p, hmem, hround⟩ := List.any_eq_true.mp hround
  have hdel : ∀ y ∈ h, ∀ n ip, ¬ Deletes triangleNet y.1 y.2 n ip :=
    fun y hy n ip => not_deletes_of_keepsEntries hkeep y hy n ip
  obtain ⟨hapart, honce⟩ := flood_passes_once ht
  obtain ⟨y, hy, hc⟩ := (Option.any_eq_true _ _).mp hfirst
  obtain ⟨c, hc, hcdst⟩ := (Option.any_eq_true _ _).mp hc
  obtain ⟨hcdst, -⟩ := of_decide_eq_true hcdst
  obtain ⟨x, hx, hp'⟩ := (Option.any_eq_true _ _).mp hlast
  obtain ⟨p', hp', hpdst⟩ := (Option.any_eq_true _ _).mp hp'
  obtain ⟨hdst, htrail⟩ := of_decide_eq_true hpdst
  obtain ⟨hlt, hget⟩ := List.getElem?_eq_some_iff.mp hy
  have hsplit : h = h.take 5 ++ y :: h.drop 6 := by
    rw [← hget, ← List.drop_eq_getElem_cons hlt, List.take_append_drop]
  have hx' : x ∈ h.take 5 := List.mem_of_getElem? (i := 0) (by rw [List.getElem?_take]; simp [hx])
  have hsame : p'.dst = c.dst := hdst.trans hcdst.symm
  refine ⟨h, s, ht, ⟨h.take 5, y.1, y.2, h.drop 6, c, hsplit, hc, x, hx', p', hp', hsame, ?_, ?_⟩,
    ⟨p, hmem, of_decide_eq_true hround⟩, fun q hq hflood hsrc => ?_⟩
  · rintro hnil
    simp [hnil] at htrail
  · exact hapart (h.take 5) y.1 y.2 (h.drop 6) c hsplit hc
      (fun z hz => hdel z (List.mem_of_mem_take hz) _ _) x hx' p' hp' hsame
  · have hq := (honce "10.0.0.1" fun y hy n => hdel y hy n _).2 q hq hflood hsrc
    exact ⟨hq.1, hq.2.2⟩

end OnDemandRouting.Proofs
