import OnDemandRouting.Proofs.Frames

/-!
# Routes only get fresher

`check_r_entry` ranks routes by broadcast id first and by hop count second.  As
long as a node's entry for an address is not deleted, it moves up in this order
only, whatever frames arrive.
-/

namespace OnDemandRouting.Proofs

open OnDemandRouting.Lib
open OnDemandRouting.Model

variable {Node : Type} {T : Topology Node}

/-- The entry is at least as fresh as a route with id `b` over `k` hops. -/
def Covers (e : REntry) (b k : Int) : Prop :=
  b < e.broadcastId ∨ e.broadcastId = b ∧ e.noHops ≤ k

/-- The node's route to `ip` is at least as fresh as one with id `b` over `k` hops. -/
def RouteCovers (st : NodeState) (ip : Ip) (b k : Int) : Prop :=
  ∃ e, route st.table ip = some e ∧ Covers e b k

section Entries

variable {e : REntry} {f : OdrFrame} {intfN now b k k' : Int} {mac : Mac}

theorem Covers.mono (h : Covers e b k) (hk : k ≤ k') : Covers e b k' := by
  unfold Covers at *
  omega

theorem covers_updateREntry : Covers (updateREntry f intfN mac now) f.broadcastId
    (f.hopCount + 1) := .inr ⟨rfl, Int.le_refl _⟩

/-- An update that is accepted does not lower the rank. -/
theorem Covers.update (h : Covers e b k) (hacc : acceptsUpdate f e = true) :
    Covers (updateREntry f intfN mac now) b k := by
  have hacc' := acceptsUpdate_iff.mp hacc
  unfold Covers at *
  simp only [updateREntry_broadcastId, updateREntry_noHops]
  omega

theorem covers_of_rejected (hrej : acceptsUpdate f e = false) :
    Covers e f.broadcastId (f.hopCount + 1) := by
  have hrej' := (acceptsUpdate_iff (f := f) (e := e)).not.mp (by simp [hrej])
  unfold Covers
  omega

/-- The learned entry is at least as fresh as what the frame offers. -/
theorem covers_learnSource (f : OdrFrame) (intfN : Int) (mac : Mac) (now : Int) (src : Lookup) :
    Covers (learnSource f intfN mac now src).entry f.broadcastId (f.hopCount + 1) := by
  rcases learnSource_cases f intfN mac now src with ⟨_, hnew, _⟩ | ⟨_, _, hrej⟩
  · rw [hnew]
    exact covers_updateREntry
  · exact covers_of_rejected hrej

/-- A frame sent on with the frame's id and the learned entry's hop count is covered
by that entry. -/
theorem Covers.self_hops (h : Covers e b k) : Covers e b e.noHops := by
  unfold Covers at *
  omega

/-- A call of a handler that does not delete the entry for `ip` does not lower its
rank. -/
theorem RouteCovers.ethernet {cfg : Config} {env : Env} {addr : Mac} {buf : OdrFrame}
    {st : NodeState} {ip : Ip} (h : RouteCovers st ip b k)
    (hdel : ip ∉ (handleEthernetMsg cfg env intfN addr buf st).deleted) :
    RouteCovers (handleEthernetMsg cfg env intfN addr buf st).node ip b k := by
  obtain ⟨e, hroute, hcov⟩ := h
  rcases handleEthernetMsg_route hdel with heq | ⟨_, _, _, hnew, hacc⟩
  · exact ⟨e, heq.trans hroute, hcov⟩
  · exact ⟨_, hnew, hcov.update (hacc e hroute)⟩

theorem RouteCovers.peer {cfg : Config} {env : Env} {sparams : SendParams}
    {st : NodeState} {ip : Ip} (h : RouteCovers st ip b k)
    (hdel : ip ∉ (handlePeerMsg cfg env sparams st).deleted) :
    RouteCovers (handlePeerMsg cfg env sparams st).node ip b k := by
  obtain ⟨e, hroute, hcov⟩ := h
  exact ⟨e, ((handlePeerMsg_call cfg env sparams st).route_eq hdel).trans hroute, hcov⟩

end Entries

section Step

variable {s s' : Net Node} {a : Action Node} {env : Env} {p : Packet Node}
  {type : FrameType} {n : Node} {ip : Ip} {b k : Int}

theorem covers_learnedAt (T : Topology Node) (s : Net Node) (env : Env) (p : Packet Node) :
    Covers (learnedAt T s env p).entry p.host.broadcastId (p.host.hopCount + 1) :=
  covers_learnSource _ _ _ _ _

/-- After a frame is processed, the receiver's route to its source is at least as
fresh as the frame. -/
theorem Receipt.routeCovers (hr : Receipt T s s' a env p type) :
    RouteCovers (s'.nodes p.dst) p.host.srcIp p.host.broadcastId (p.host.hopCount + 1) :=
  ⟨_, hr.route_src, covers_learnedAt T s env p⟩

variable [DecidableEq Node]

theorem RouteCovers.step (h : RouteCovers (s.nodes n) ip b k) (hs : T.step s a = some s')
    (hdel : ¬ Deletes T s a n ip) : RouteCovers (s'.nodes n) ip b k := by
  obtain ⟨e, hroute, hcov⟩ := h
  rcases route_step hs hdel with heq | ⟨env, p, type, _, _, _, hnew, hacc⟩
  · exact ⟨e, heq.trans hroute, hcov⟩
  · exact ⟨_, hnew, hcov.update (hacc e hroute)⟩

end Step

end OnDemandRouting.Proofs
