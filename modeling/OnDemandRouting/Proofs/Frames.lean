import OnDemandRouting.Proofs.NetworkStep

/-!
# Frames of a closed network

Whatever is in flight or queued in a closed network was built by one of the
daemons.  Its two addresses differ, its type is one of the four, a DATA frame
never carries the route discovery flag, and every copy has a sender.  Nothing is
assumed of the routing tables the run starts from.
-/

namespace OnDemandRouting.Proofs

open OnDemandRouting.Lib
open OnDemandRouting.Model

variable {Node : Type} {T : Topology Node}

/-- A frame as the daemons build it. -/
structure FrameOk (f : OdrFrame) : Prop where
  src_ne_dest : f.srcIp ≠ f.destIp
  type_ok : ∃ type, FrameType.ofInt f.frameType = some type
  data_flag : f.frameType = FrameType.data.toInt → f.routeDiscFlag ≠ 1

/-- A queued frame: filed under its destination, which is another node, and either
a reply or a message. -/
structure PendingOk (T : Topology Node) (n : Node) (q : PendingMsg) : Prop where
  frame : FrameOk q.odrframe
  key : q.destip = q.odrframe.destIp
  remote : q.destip ≠ T.ip n
  type_ok : FrameType.ofInt q.odrframe.frameType = some .rrep ∨
    FrameType.ofInt q.odrframe.frameType = some .data

theorem isFlood_iff {f : OdrFrame} {type : FrameType}
    (h : FrameType.ofInt f.frameType = some type) :
    isFlood f = true ↔ type = .rreq ∨ type = .asent := by
  rw [isFlood, FrameType.toInt_of_ofInt h]
  cases type <;> decide

@[simp] theorem isFlood_rrepFrame (bid hop len srcPort dstPort : Int) (destIp srcIp : Ip) :
    isFlood (rrepFrame bid hop len srcPort dstPort destIp srcIp) = false := rfl

theorem frameOk_floodFrame {out : FrameType} (hout : out = .rreq ∨ out = .asent)
    {bid hop flag srcPort dstPort : Int} {destIp srcIp : Ip} (hne : srcIp ≠ destIp) :
    FrameOk (floodFrame out bid hop flag srcPort dstPort destIp srcIp) where
  src_ne_dest := hne
  type_ok := ⟨out, FrameType.ofInt_toInt out⟩
  data_flag := by
    intro h
    rcases hout with rfl | rfl
    · simp [floodFrame, FrameType.toInt] at h
    · simp [floodFrame, FrameType.toInt] at h

theorem frameOk_rrepFrame {bid hop len srcPort dstPort : Int} {destIp srcIp : Ip}
    (hne : srcIp ≠ destIp) : FrameOk (rrepFrame bid hop len srcPort dstPort destIp srcIp) where
  src_ne_dest := hne
  type_ok := ⟨.rrep, rfl⟩
  data_flag := by
    intro h
    simp [rrepFrame, FrameType.toInt] at h

theorem frameOk_dataFrame {bid hop flag srcPort dstPort : Int} {destIp srcIp : Ip}
    {payload : String} (hne : srcIp ≠ destIp) (hflag : flag ≠ 1) :
    FrameOk (dataFrame bid hop flag srcPort dstPort destIp srcIp payload) where
  src_ne_dest := hne
  type_ok := ⟨.data, rfl⟩
  data_flag := fun _ => hflag

/-- Every kind of frame a node sends on receipt of a well-formed frame is well formed. -/
theorem EthSends.frameOk {cfg : Config} {intfN : Int} {f : OdrFrame} {l : Learned}
    {dest : Option REntry} {st : NodeState} {type : FrameType} {t : Transmission}
    (h : EthSends cfg intfN f l dest st type t) (hf : FrameOk f)
    (hpending : ∀ q ∈ st.pending, FrameOk q.odrframe) : FrameOk t.host := by
  cases h with
  | relay out _ hout _ _ _ hhost =>
      rw [hhost]
      exact frameOk_floodFrame hout hf.src_ne_dest
  | answerOwn _ _ hhost =>
      rw [hhost]
      exact frameOk_rrepFrame hf.src_ne_dest.symm
  | answerCached _ _ _ hhost =>
      rw [hhost]
      exact frameOk_rrepFrame hf.src_ne_dest.symm
  | forwardRrep _ _ _ hhost =>
      rw [hhost]
      exact frameOk_rrepFrame hf.src_ne_dest
  | releaseRrep _ hq _ _ hhost =>
      rw [hhost]
      exact frameOk_rrepFrame (hpending _ (mem_of_findKey hq).1).src_ne_dest
  | releaseData _ hq _ _ hhost =>
      rw [hhost]
      exact hpending _ (mem_of_findKey hq).1
  | forwardData _ _ _ hhost =>
      rw [hhost]
      exact ⟨hf.src_ne_dest, hf.type_ok, hf.data_flag⟩
  | request _ hself _ _ hhost =>
      rw [hhost]
      exact frameOk_floodFrame (.inl rfl) (Ne.symm hself)

theorem EthSends.haddr {n : Node} {intfN : Int} {f : OdrFrame} {l : Learned}
    {dest : Option REntry} {st : NodeState} {type : FrameType} {t : Transmission}
    (h : EthSends (T.cfg n) intfN f l dest st type t) :
    T.haddr (n, t.intIndex) = some t.srcMac := by
  cases h with
  | relay _ _ _ _ _ hflood _ => exact haddr_of_flooded hflood
  | answerOwn _ halong _ => exact haddr_of_along halong
  | answerCached _ _ halong _ => exact haddr_of_along halong
  | forwardRrep _ _ halong _ => exact haddr_of_along halong
  | releaseRrep _ _ _ halong _ => exact haddr_of_along halong
  | releaseData _ _ _ halong _ => exact haddr_of_along halong
  | forwardData _ _ halong _ => exact haddr_of_along halong
  | request _ _ _ hflood _ => exact haddr_of_flooded hflood

/-- What is not part of a flood goes back along the learned route, or on along the
route to the destination. -/
theorem EthSends.flood_or_along {cfg : Config} {intfN : Int} {f : OdrFrame} {l : Learned}
    {dest : Option REntry} {st : NodeState} {type : FrameType} {t : Transmission}
    (h : EthSends cfg intfN f l dest st type t)
    (hkey : ∀ q ∈ st.pending, q.destip = q.odrframe.destIp) :
    isFlood t.host = true ∨ (Along cfg l.entry t ∧ t.host.destIp = f.srcIp) ∨
      ∃ d, dest = some d ∧ Along cfg d t ∧ t.host.destIp = f.destIp := by
  have hreleased {q : PendingMsg} (hq : findKey PendingMsg.destip f.srcIp st.pending = some q) :
      q.odrframe.destIp = f.srcIp := by
    obtain ⟨hmem, hdestip⟩ := mem_of_findKey hq
    rw [← hkey q hmem, hdestip]
  cases h with
  | relay out _ hout _ _ _ hhost =>
      rw [hhost]
      rcases hout with rfl | rfl
      · exact .inl rfl
      · exact .inl rfl
  | answerOwn _ halong hhost => exact .inr (.inl ⟨halong, by rw [hhost]; rfl⟩)
  | answerCached _ _ halong hhost => exact .inr (.inl ⟨halong, by rw [hhost]; rfl⟩)
  | forwardRrep _ hd halong hhost => exact .inr (.inr ⟨_, hd, halong, by rw [hhost]; rfl⟩)
  | releaseRrep _ hq _ halong hhost =>
      exact .inr (.inl ⟨halong, by rw [hhost]; exact hreleased hq⟩)
  | releaseData _ hq _ halong hhost =>
      exact .inr (.inl ⟨halong, by rw [hhost]; exact hreleased hq⟩)
  | forwardData _ hd halong hhost => exact .inr (.inr ⟨_, hd, halong, by rw [hhost]⟩)
  | request _ _ _ _ hhost =>
      rw [hhost]
      exact .inl rfl

theorem PeerSends.haddr {n : Node} {env : Env} {sparams : SendParams} {st st' : NodeState}
    {t : Transmission} (h : PeerSends (T.cfg n) env sparams st st' t) :
    T.haddr (n, t.intIndex) = some t.srcMac := by
  cases h with
  | request _ _ hflood _ _ => exact haddr_of_flooded hflood
  | data _ _ halong _ => exact haddr_of_along halong

theorem PeerSends.frameOk {cfg : Config} {env : Env} {sparams : SendParams}
    {st st' : NodeState} {t : Transmission} (h : PeerSends cfg env sparams st st' t) :
    FrameOk t.host := by
  cases h with
  | request hself _ _ hhost _ =>
      rw [hhost]
      exact frameOk_floodFrame (.inl rfl) hself
  | data hself hentry _ hhost =>
      rw [hhost]
      exact frameOk_dataFrame hself (getREntry_fresh hentry).2

/-- A network with nothing in flight and nothing queued. -/
structure Quiet (s : Net Node) : Prop where
  flight : s.flight = []
  pending : ∀ n, (s.nodes n).pending = []

theorem quiet_initial : Quiet (Net.initial Node) := ⟨rfl, fun _ => rfl⟩

variable [DecidableEq Node]

/-- All frames of the network are well formed and every copy has a sender. -/
structure FramesWf (T : Topology Node) (s : Net Node) : Prop where
  flight : ∀ p ∈ s.flight, FrameOk p.host ∧ ∃ m, Sender T p m
  pending : ∀ n, ∀ q ∈ (s.nodes n).pending, PendingOk T n q

theorem framesWf_step {s s' : Net Node} {a : Action Node} (hwf : FramesWf T s)
    (hs : T.step s a = some s') : FramesWf T s' := by
  refine And.elim (fun hflight hrest => ⟨hflight, hrest.2⟩)
    (preserve hs (fun p => FrameOk p.host ∧ ∃ m, Sender T p m) (fun _ _ => True) (PendingOk T)
      hwf.flight (fun _ _ _ => trivial) hwf.pending (fun _ _ _ _ => trivial)
      ?park ?queue ?eth ?peer)
  case park =>
    intro env p type hr htype hself _
    have hok := (hwf.flight p hr.mem).1
    refine ⟨hok, rfl, hself, ?_⟩
    rw [hr.processed.type_eq]
    rcases htype with rfl | rfl
    · exact .inl rfl
    · exact .inr rfl
  case queue =>
    intro n sparams env portno _ hself
    exact ⟨frameOk_dataFrame hself (by decide), rfl, Ne.symm hself, .inr rfl⟩
  case eth =>
    intro env p type t hr hsends q hq
    have hok : FrameOk t.host := hsends.frameOk (hwf.flight p hr.mem).1
      fun q hq => (hwf.pending p.dst q hq).frame
    rw [host_of_mem_copies hq]
    exact ⟨hok, p.dst, sender_of_mem_copies hsends.haddr hq⟩
  case peer =>
    intro n sparams env t _ hsends q hq
    rw [host_of_mem_copies hq]
    exact ⟨hsends.frameOk, n, sender_of_mem_copies hsends.haddr hq⟩

theorem framesWf_of_quiet {s : Net Node} (h : Quiet s) : FramesWf T s where
  flight := by simp [h.flight]
  pending := by simp [h.pending]

theorem framesWf_of_trace {s₀ s : Net Node} {h : List (Net Node × Action Node)}
    (h₀ : Quiet s₀) (ht : Trace T.step s₀ h s) : FramesWf T s :=
  ht.invariant (framesWf_of_quiet h₀) fun _ _ _ hwf hs => framesWf_step hwf hs

end OnDemandRouting.Proofs
