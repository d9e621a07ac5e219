import OnDemandRouting.Model.Wiring
import OnDemandRouting.Proofs.Relay

/-!
# Duplicate suppression at one node

One node, any configuration, any clock and any sequence of frames and requests.
While its entry for the source of a flood stays in the table, the node relays a
copy of the flood only if the copy improves on the entry or ties with it.
-/

namespace OnDemandRouting.Proofs

open OnDemandRouting.Lib
open OnDemandRouting.Model

/-- What a daemon's loop serves: a received frame or a request. -/
inductive NodeEvent
  | recv (env : Env) (intfN : Int) (addr : Mac) (recvBuf : OdrFrame)
  | request (env : Env) (sparams : SendParams)

/-- The handler call for an event. -/
def nodeOutcome (cfg : Config) (st : NodeState) : NodeEvent → Outcome
  | .recv env intfN addr recvBuf => handleEthernetMsg cfg env intfN addr recvBuf st
  | .request env sparams => handlePeerMsg cfg env sparams st

def nodeStep (cfg : Config) (st : NodeState) (ev : NodeEvent) : Option NodeState :=
  some (nodeOutcome cfg st ev).node

/-- A copy of the flood with source `src` and id `bid`. -/
def isCopyOf (src : Ip) (bid : Int) (f : OdrFrame) : Bool :=
  isFlood f && decide (f.srcIp = src ∧ f.broadcastId = bid)

/-- The hop count of the copy of the flood that the node re-broadcasts at this event,
as RREQ or as ASENT. -/
def rebroadcastAt (cfg : Config) (src : Ip) (bid : Int) (x : NodeState × NodeEvent) :
    Option Int :=
  match x.2 with
  | .recv _ _ _ recvBuf =>
      if isCopyOf src bid (processRecvdFrame recvBuf) = true ∧
          (nodeOutcome cfg x.1 x.2).sent.any (fun t => isFlood t.host) = true then
        some (processRecvdFrame recvBuf).hopCount
      else none
  | .request _ _ => none

/-- The event brings a copy of the flood that ties with the node's entry: the same id,
and over as many hops. -/
def tiesAt (src : Ip) (bid : Int) (x : NodeState × NodeEvent) : Bool :=
  match x.2 with
  | .recv _ _ _ recvBuf =>
      isCopyOf src bid (processRecvdFrame recvBuf) &&
        (route x.1.table src).any fun e =>
          decide (e.broadcastId = bid ∧ (processRecvdFrame recvBuf).hopCount + 1 = e.noHops)
  | .request _ _ => false

variable {cfg : Config} {src : Ip} {bid : Int} {st st' st₀ : NodeState} {ev : NodeEvent}
  {h : List (NodeState × NodeEvent)} {k k' : Int}

theorem RouteCovers.node {ip : Ip} {b : Int} (hcov : RouteCovers st ip b k)
    (hdel : ip ∉ (nodeOutcome cfg st ev).deleted) :
    RouteCovers (nodeOutcome cfg st ev).node ip b k := by
  cases ev with
  | recv env intfN addr recvBuf => exact hcov.ethernet hdel
  | request env sparams => exact hcov.peer hdel

/-- A re-broadcast copy was accepted, and the entry now is as fresh as the copy. -/
theorem rebroadcast_spec (hk : rebroadcastAt cfg src bid (st, ev) = some k)
    (hdel : src ∉ (nodeOutcome cfg st ev).deleted) :
    (∀ e, route st.table src = some e → e.broadcastId < bid ∨
      e.broadcastId = bid ∧ k + 1 ≤ e.noHops ∧
        (tiesAt src bid (st, ev) = false → k + 1 < e.noHops)) ∧
    RouteCovers (nodeOutcome cfg st ev).node src bid (k + 1) := by
  cases ev with
  | request env sparams => simp [rebroadcastAt] at hk
  | recv env intfN addr recvBuf =>
      simp only [rebroadcastAt] at hk
      split_ifs at hk with hcopy
      obtain rfl := Option.some.inj hk
      obtain ⟨hcopy, hany⟩ := hcopy
      obtain ⟨hflood, hid⟩ := Bool.and_eq_true _ _ ▸ hcopy
      obtain ⟨rfl, rfl⟩ := of_decide_eq_true hid
      obtain ⟨t, ht, htflood⟩ := List.any_eq_true.mp hany
      obtain ⟨type, hproc, hnode, hsends⟩ := handleEthernetMsg_sends ht
      have hflag := (hsends.relayed hproc.type_eq hflood htflood).1
      simp only [nodeOutcome] at hdel ⊢
      rw [handleEthernetMsg_of_processed hproc, Reaction.outcome_deleted] at hdel
      refine ⟨fun e he => ?_, ?_⟩
      · rcases acceptsUpdate_iff.mp (accepts_of_flag hdel hflag e he) with hlt | ⟨heq, hle⟩
        · exact .inl hlt
        · refine .inr ⟨heq.symm, hle, fun hno => ?_⟩
          have hne : (processRecvdFrame recvBuf).hopCount + 1 ≠ e.noHops := by
            intro htie
            simp [tiesAt, isCopyOf, hflood, he, heq, htie] at hno
          omega
      · rw [hnode, RouteCovers, reaction_state.table]
        exact ⟨_, route_learnedRoute_self _, covers_learnSource _ _ _ _ _⟩

/-- What has been re-broadcast is covered by the entry. -/
theorem covers_rebroadcasts (ht : Trace (nodeStep cfg) st₀ h st)
    (hkeep : ∀ x ∈ h, src ∉ (nodeOutcome cfg x.1 x.2).deleted) :
    ∀ k ∈ h.filterMap (rebroadcastAt cfg src bid), RouteCovers st src bid (k + 1) := by
  induction ht with
  | nil => simp
  | @snoc h st st' ev ht hs ih =>
      obtain ⟨hlast, hkeep⟩ := List.forall_mem_cons.mp hkeep
      obtain rfl := Option.some.inj hs
      have hpast : ∀ k ∈ h.filterMap (rebroadcastAt cfg src bid),
          RouteCovers (nodeOutcome cfg st ev).node src bid (k + 1) :=
        fun k hk => (ih hkeep k hk).node hlast
      cases hk' : rebroadcastAt cfg src bid (st, ev) with
      | none => rwa [List.filterMap_cons_none hk']
      | some k' =>
          rw [List.filterMap_cons_some hk']
          exact List.forall_mem_cons.mpr ⟨(rebroadcast_spec hk' hlast).2, hpast⟩

/-- A later copy that is re-broadcast is compared with all the earlier ones. -/
theorem rebroadcast_compare (ht : Trace (nodeStep cfg) st₀ h st)
    (hkeep : ∀ x ∈ h, src ∉ (nodeOutcome cfg x.1 x.2).deleted)
    (hlast : src ∉ (nodeOutcome cfg st ev).deleted)
    (hk' : rebroadcastAt cfg src bid (st, ev) = some k') :
    ∀ k ∈ h.filterMap (rebroadcastAt cfg src bid),
      k' ≤ k ∧ (tiesAt src bid (st, ev) = false → k' < k) := by
  intro k hk
  obtain ⟨e, hroute, hcov⟩ := covers_rebroadcasts ht hkeep k hk
  have hspec := (rebroadcast_spec hk' hlast).1 e hroute
  unfold Covers at hcov
  constructor
  · omega
  · intro hno
    have hlt := hspec.imp_right fun hspec => hspec.2.2 hno
    omega

/-! ## The copies a node re-broadcasts -/

/-- While the entry for the source is never deleted, the hop counts of the copies of a
flood that a node re-broadcasts never rise, and they strictly fall if no copy ties
with the entry.  The latest copy stands first in the list. -/
theorem rebroadcasts_decrease (ht : Trace (nodeStep cfg) st₀ h st)
    (hkeep : ∀ x ∈ h, src ∉ (nodeOutcome cfg x.1 x.2).deleted) :
    (h.filterMap (rebroadcastAt cfg src bid)).Pairwise (· ≤ ·) ∧
    ((∀ x ∈ h, tiesAt src bid x = false) →
      (h.filterMap (rebroadcastAt cfg src bid)).Pairwise (· < ·)) := by
  induction ht with
  | nil => simp
  | @snoc h st st' ev ht hs ih =>
      obtain ⟨hlast, hkeep⟩ := List.forall_mem_cons.mp hkeep
      obtain ⟨hle, hlt⟩ := ih hkeep
      cases hk' : rebroadcastAt cfg src bid (st, ev) with
      | none =>
          rw [List.filterMap_cons_none hk']
          exact ⟨hle, fun hties => hlt (List.forall_mem_cons.mp hties).2⟩
      | some k' =>
          rw [List.filterMap_cons_some hk']
          have hcompare := rebroadcast_compare ht hkeep hlast hk'
          refine ⟨List.pairwise_cons.mpr ⟨fun k hk => (hcompare k hk).1, hle⟩, fun hties => ?_⟩
          obtain ⟨hno, hties⟩ := List.forall_mem_cons.mp hties
          exact List.pairwise_cons.mpr ⟨fun k hk => (hcompare k hk).2 hno, hlt hties⟩

/-- A copy of a request of the first node of the line arrives at the middle node at
time `now`. -/
def copyAt (now hop : Int) : NodeEvent :=
  .recv (.reliable now) 3 0
    (constructOdr FrameType.rreq.toInt 11 hop 0 0 servPort servPort "10.0.0.9" "10.0.0.1" "")

theorem copies_decrease : ∃ h st, Trace (nodeStep (lineNet.cfg 1)) .initial h st ∧
    h.filterMap (rebroadcastAt (lineNet.cfg 1) "10.0.0.1" 11) = [0, 2, 4] ∧
    (h.filterMap (rebroadcastAt (lineNet.cfg 1) "10.0.0.1" 11)).Pairwise (· < ·) := by
  obtain ⟨h, st, ht, hp⟩ := Trace.exists_of_exec (nodeStep (lineNet.cfg 1)) .initial
    [copyAt 0 4, copyAt 1 2, copyAt 1 3, copyAt 2 0]
    (fun h _ => decide (h.filterMap (rebroadcastAt (lineNet.cfg 1) "10.0.0.1" 11) = [0, 2, 4]) &&
      h.all (fun x => !tiesAt "10.0.0.1" 11 x) &&
      h.all fun x => (nodeOutcome (lineNet.cfg 1) x.1 x.2).deleted.isEmpty) (by decide +kernel)
  simp only [Bool.and_eq_true, decide_eq_true_eq, List.all_eq_true, Bool.not_eq_true',
    List.isEmpty_iff] at hp
  obtain ⟨⟨hhops, hties⟩, hkeep⟩ := hp
  refine ⟨h, st, ht, hhops, (rebroadcasts_decrease ht fun x hx => ?_).2 hties⟩
  rw [hkeep x hx]
  exact List.not_mem_nil

/-- Hop counts rise once the entry has gone stale, and a copy that ties with the entry
is re-broadcast again. -/
theorem copies_not_decreasing :
    (∃ h st, Trace (nodeStep (lineNet.cfg 1)) .initial h st ∧
      ¬ (h.filterMap (rebroadcastAt (lineNet.cfg 1) "10.0.0.1" 11)).Pairwise (· ≤ ·)) ∧
    ∃ h st, Trace (nodeStep (lineNet.cfg 1)) .initial h st ∧
      (∀ x ∈ h, (nodeOutcome (lineNet.cfg 1) x.1 x.2).deleted = []) ∧
      ¬ (h.filterMap (rebroadcastAt (lineNet.cfg 1) "10.0.0.1" 11)).Pairwise (· < ·) := by
  constructor
  · obtain ⟨h, st, ht, hp⟩ := Trace.exists_of_exec (nodeStep (lineNet.cfg 1)) .initial
      [copyAt 0 0, copyAt 5 3] (fun h _ => decide
        (h.filterMap (rebroadcastAt (lineNet.cfg 1) "10.0.0.1" 11) = [3, 0])) (by decide +kernel)
    refine ⟨h, st, ht, ?_⟩
    rw [of_decide_eq_true hp]
    decide
  · obtain ⟨h, st, ht, hp⟩ := Trace.exists_of_exec (nodeStep (lineNet.cfg 1)) .initial
      [copyAt 0 1, copyAt 0 1] (fun h _ => decide
        (h.filterMap (rebroadcastAt (lineNet.cfg 1) "10.0.0.1" 11) = [1, 1]) &&
        h.all fun x => (nodeOutcome (lineNet.cfg 1) x.1 x.2).deleted.isEmpty) (by decide +kernel)
    simp only [Bool.and_eq_true, decide_eq_true_eq, List.all_eq_true, List.isEmpty_iff] at hp
    refine ⟨h, st, ht, hp.2, ?_⟩
    rw [hp.1]
    decide

end OnDemandRouting.Proofs
