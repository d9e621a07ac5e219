import OnDemandRouting.Proofs.Provenance

/-!
# Replies answer requests

A route reply travels by being rebuilt at every relay, and it may wait in a queue
on the way.  Only its hop count changes.  So every reply goes back to the step that
built it first, at the owner of its source address or at a node with a live route to
it, and behind that step to a request its destination has sent.
-/

namespace OnDemandRouting.Proofs

open OnDemandRouting.Lib
open OnDemandRouting.Model

variable {Node : Type} {T : Topology Node}

/-- In this step `n` sends a route request of its own for `ip`: over no hops yet, and
with an id it has just drawn. -/
def Originates (T : Topology Node) (s : Net Node) (a : Action Node) (n : Node) (ip : Ip) :
    Prop :=
  ∃ o t, outcomeAt T s a = some (n, o) ∧ t ∈ o.sent ∧
    t.host.frameType = FrameType.rreq.toInt ∧ t.host.srcIp = T.ip n ∧ t.host.destIp = ip ∧
    t.host.hopCount = 0 ∧ t.host.broadcastId = (s.nodes n).counter.value + 1

/-- In this step `m` receives a route request from the destination of the reply `f`
for the source of `f`, and sends `f`. -/
structure Generates (T : Topology Node) (s : Net Node) (a : Action Node) (env : Env)
    (m : Node) (f : OdrFrame) : Prop where
  receives : ∃ k p, a = .deliver k env ∧ s.flight[k]? = some p ∧ p.dst = m ∧
    p.host.frameType = FrameType.rreq.toInt ∧ p.host.srcIp = f.destIp ∧ p.host.destIp = f.srcIp
  sends : ∃ o t, outcomeAt T s a = some (m, o) ∧ t ∈ o.sent ∧ t.host = f

/-- `m` holds an entry for `ip` that has not expired at time `now`. -/
def HoldsFresh (T : Topology Node) (s : Net Node) (m : Node) (ip : Ip) (now : Int) : Prop :=
  ∃ e, route (s.nodes m).table ip = some e ∧ now - e.timestamp < (T.cfg m).staleParam

/-- The reply `f` with another hop count, as a relay rebuilds it. -/
def asReply (f : OdrFrame) (hop : Int) : OdrFrame :=
  rrepFrame f.broadcastId hop f.payloadLen f.srcPort f.dstPort f.destIp f.srcIp

/-- The source of the request `f` has sent a request for the destination of `f`. -/
def Requested (T : Topology Node) (h : List (Net Node × Action Node)) (f : OdrFrame) : Prop :=
  ∃ x ∈ h, ∃ n, T.ip n = f.srcIp ∧ Originates T x.1 x.2 n f.destIp

/-- The reply `f` was generated in a step of the run, by the owner of its source or by
a node with a live entry for it, and the request was sent before that step. -/
def Solicited (T : Topology Node) (h : List (Net Node × Action Node)) (f : OdrFrame) : Prop :=
  ∃ h₂ y h₁, h = h₂ ++ y :: h₁ ∧
    (∃ x ∈ h₁, ∃ n, T.ip n = f.destIp ∧ Originates T x.1 x.2 n f.srcIp) ∧
    ∃ env m hop, Generates T y.1 y.2 env m (asReply f hop) ∧
      (T.ip m = f.srcIp ∨ HoldsFresh T y.1 m f.srcIp env.destTime)

section Evidence

variable {s s' : Net Node} {a : Action Node} {h : List (Net Node × Action Node)}
  {f : OdrFrame} {env : Env} {p : Packet Node}

theorem Requested.cons (x : Net Node × Action Node) (hf : Requested T h f) :
    Requested T (x :: h) f := by
  obtain ⟨y, hy, horigin⟩ := hf
  exact ⟨y, List.mem_cons_of_mem _ hy, horigin⟩

theorem Solicited.cons (x : Net Node × Action Node) (hf : Solicited T h f) :
    Solicited T (x :: h) f := by
  obtain ⟨h₂, y, h₁, rfl, hrest⟩ := hf
  exact ⟨x :: h₂, y, h₁, rfl, hrest⟩

/-- A rebuilt reply is solicited if the one it was built from is. -/
theorem Solicited.rebuilt (hf : Solicited T h f) (hop : Int) : Solicited T h (asReply f hop) :=
  hf

/-- What is known about the frames of the network after the steps `h`. -/
structure Solicitation (T : Topology Node) (h : List (Net Node × Action Node))
    (s : Net Node) : Prop where
  requests : ∀ p ∈ s.flight, isFlood p.host = true → Requested T h p.host
  replies : ∀ p ∈ s.flight, p.host.frameType = FrameType.rrep.toInt → Solicited T h p.host
  parked : ∀ n, ∀ q ∈ (s.nodes n).pending,
    q.odrframe.frameType = FrameType.rrep.toInt → Solicited T h q.odrframe

/-- A reply that a request for `p.host.destIp` brings about. -/
theorem solicited_of_answer {o : Outcome} {t : Transmission} {hop len sport dport bid : Int}
    (hr : Receipt T s s' a env p .rreq) (hreq : Requested T h p.host)
    (ho : outcomeAt T s a = some (p.dst, o)) (ht : t ∈ o.sent)
    (hhost : t.host = rrepFrame bid hop len sport dport p.host.srcIp p.host.destIp)
    (hknows : T.ip p.dst = p.host.destIp ∨
      HoldsFresh T s p.dst p.host.destIp env.destTime) :
    Solicited T ((s, a) :: h) t.host := by
  obtain ⟨k, ha, hk⟩ := hr.action
  have htype := FrameType.toInt_of_ofInt hr.processed.type_eq
  rw [hhost]
  refine ⟨[], (s, a), h, rfl, hreq, env, p.dst, hop, ⟨?_, ?_⟩, hknows⟩
  · exact ⟨k, p, ha, hk, rfl, htype, rfl, rfl⟩
  · exact ⟨o, t, ho, ht, hhost⟩

theorem holdsFresh_of_destAt {d : REntry} (hne : p.host.srcIp ≠ p.host.destIp)
    (hd : destAt T s env p = some d) : HoldsFresh T s p.dst p.host.destIp env.destTime := by
  refine ⟨d, route_of_derefDest hne hd, ?_⟩
  rw [destAt, derefDest_of_ne hne] at hd
  exact (getREntry_fresh hd).1

/-- A request of the node itself is its own evidence. -/
theorem request_solicits {n : Node} {o : Outcome} {t : Transmission} {flag sport dport : Int}
    {ip : Ip} (ho : outcomeAt T s a = some (n, o)) (ht : t ∈ o.sent)
    (hhost : t.host = floodFrame .rreq ((s.nodes n).counter.value + 1) 0 flag sport dport ip
      (T.ip n)) :
    (isFlood t.host = true → Requested T ((s, a) :: h) t.host) ∧
    (t.host.frameType = FrameType.rrep.toInt → Solicited T ((s, a) :: h) t.host) := by
  refine ⟨fun _ => ?_, fun hrrep => ?_⟩
  · refine ⟨(s, a), by simp, n, by rw [hhost]; rfl, o, t, ho, ht, ?_⟩
    rw [hhost]
    exact ⟨rfl, rfl, rfl, rfl, rfl⟩
  · rw [hhost] at hrrep
    have htype : FrameType.rreq = .rrep := FrameType.toInt_inj hrrep
    exact absurd htype (by decide)

theorem Solicitation.peer {n : Node} {sparams : SendParams} {o : Outcome} {t : Transmission}
    (ho : outcomeAt T s a = some (n, o)) (ht : t ∈ o.sent)
    (hsends : PeerSends (T.cfg n) env sparams (s.nodes n) (s'.nodes n) t) :
    (isFlood t.host = true → Requested T ((s, a) :: h) t.host) ∧
    (t.host.frameType = FrameType.rrep.toInt → Solicited T ((s, a) :: h) t.host) := by
  cases hsends with
  | request _ _ _ hhost _ =>
      exact request_solicits ho ht hhost
  | data _ _ _ hhost =>
      refine ⟨fun hflood => ?_, fun hrrep => ?_⟩
      · rw [hhost] at hflood
        exact absurd hflood (by simp [isFlood, dataFrame, FrameType.toInt])
      · rw [hhost] at hrrep
        have htype : FrameType.data = .rrep := FrameType.toInt_inj hrrep
        exact absurd htype (by decide)

end Evidence

variable [DecidableEq Node]

section Step

variable {s s' : Net Node} {a : Action Node} {h : List (Net Node × Action Node)}
  {f : OdrFrame} {env : Env} {p : Packet Node}

/-- The requests and replies a node sends on receipt of a frame. -/
theorem Solicitation.eth {o : Outcome} {t : Transmission} {type : FrameType}
    (hinv : Solicitation T h s) (hwf : FramesWf T s) (hr : Receipt T s s' a env p type)
    (ho : outcomeAt T s a = some (p.dst, o)) (ht : t ∈ o.sent)
    (hsends : EthSends (T.cfg p.dst) p.ifIndex p.host (learnedAt T s env p) (destAt T s env p)
      { s.nodes p.dst with table := (learnedAt T s env p).table } type t) :
    (isFlood t.host = true → Requested T ((s, a) :: h) t.host) ∧
    (t.host.frameType = FrameType.rrep.toInt → Solicited T ((s, a) :: h) t.host) := by
  have hreq (hflood : type = .rreq ∨ type = .asent) : Requested T h p.host :=
    hinv.requests p hr.mem ((isFlood_iff hr.processed.type_eq).mpr hflood)
  have hne := (hwf.flight p hr.mem).1.src_ne_dest
  cases hsends with
  | relay out hin hout _ _ _ hhost =>
      refine ⟨fun _ => ?_, fun hrrep => ?_⟩
      · rw [hhost]
        exact (hreq hin).cons _
      · rw [hhost] at hrrep
        obtain rfl : out = .rrep := FrameType.toInt_inj hrrep
        simp at hout
  | answerOwn hself _ hhost =>
      refine ⟨fun hflood => ?_, fun _ => ?_⟩
      · simp [hhost] at hflood
      · exact solicited_of_answer hr (hreq (.inl rfl)) ho ht hhost (.inl hself.symm)
  | answerCached _ hd _ hhost =>
      refine ⟨fun hflood => ?_, fun _ => ?_⟩
      · simp [hhost] at hflood
      · exact solicited_of_answer hr (hreq (.inl rfl)) ho ht hhost
          (.inr (holdsFresh_of_destAt hne hd))
  | forwardRrep _ _ _ hhost =>
      refine ⟨fun hflood => ?_, fun _ => ?_⟩
      · simp [hhost] at hflood
      · have hrrep := FrameType.toInt_of_ofInt hr.processed.type_eq
        rw [hhost]
        exact ((hinv.replies p hr.mem hrrep).cons _).rebuilt _
  | @releaseRrep _ q _ hq htype _ hhost =>
      refine ⟨fun hflood => ?_, fun _ => ?_⟩
      · simp [hhost] at hflood
      · have hrrep := FrameType.toInt_of_ofInt htype
        rw [hhost]
        exact ((hinv.parked p.dst q (mem_of_findKey hq).1 hrrep).cons _).rebuilt _
  | releaseData _ hq htype _ hhost =>
      have hdata := FrameType.toInt_of_ofInt htype
      refine ⟨fun hflood => ?_, fun hrrep => ?_⟩
      · rw [hhost, isFlood_iff htype] at hflood
        simp at hflood
      · rw [hhost, hdata] at hrrep
        exact absurd (FrameType.toInt_inj hrrep) (by decide)
  | forwardData _ _ _ hhost =>
      have hdata := hr.processed.type_eq
      have hflood' : isFlood t.host = isFlood p.host := by rw [hhost]; rfl
      refine ⟨fun hflood => ?_, fun hrrep => ?_⟩
      · rw [hflood', isFlood_iff hdata] at hflood
        simp at hflood
      · rw [hhost, FrameType.toInt_of_ofInt hdata] at hrrep
        exact absurd (FrameType.toInt_inj hrrep) (by decide)
  | request _ _ _ _ hhost =>
      exact request_solicits ho ht hhost

theorem solicitation_step (hwf : FramesWf T s) (hinv : Solicitation T h s)
    (hs : T.step s a = some s') : Solicitation T ((s, a) :: h) s' := by
  have hflight : ∀ q ∈ s'.flight, (isFlood q.host = true → Requested T ((s, a) :: h) q.host) ∧
      (q.host.frameType = FrameType.rrep.toInt → Solicited T ((s, a) :: h) q.host) := by
    intro q hq
    rcases mem_flight_step hs hq with hold | ⟨n, o, t, trail, ho, ht, hqt, hwhy⟩
    · exact ⟨fun hflood => (hinv.requests q hold hflood).cons _,
        fun hrrep => (hinv.replies q hold hrrep).cons _⟩
    · rw [host_of_mem_copies hqt]
      rcases hwhy with ⟨env, p, type, hr, rfl, hsends⟩ | ⟨sparams, env, _, hsends⟩
      · exact hinv.eth hwf hr ho ht hsends
      · exact Solicitation.peer ho ht hsends
  refine ⟨fun q hq => (hflight q hq).1, fun q hq => (hflight q hq).2, ?_⟩
  refine (preserve hs (fun _ => True) (fun _ _ => True)
    (fun _ q => q.odrframe.frameType = FrameType.rrep.toInt → Solicited T ((s, a) :: h) q.odrframe)
    (fun _ _ => trivial) (fun _ _ _ => trivial) ?pending (fun _ _ _ _ => trivial) ?park ?queue
    (fun _ _ _ _ _ _ _ _ => trivial) (fun _ _ _ _ _ _ _ _ => trivial)).2.2
  case pending =>
    intro n q hq hrrep
    exact (hinv.parked n q hq hrrep).cons _
  case park =>
    intro env p type hr _ _ _ hrrep
    exact (hinv.replies p hr.mem hrrep).cons _
  case queue =>
    intro n sparams env portno _ _ hrrep
    have htype : FrameType.data = .rrep := FrameType.toInt_inj hrrep
    exact absurd htype (by decide)

theorem solicitation_of_trace {s₀ : Net Node} (h₀ : Quiet s₀) (ht : Trace T.step s₀ h s) :
    Solicitation T h s := by
  induction ht with
  | nil => exact ⟨by simp [h₀.flight], by simp [h₀.flight], by simp [h₀.pending]⟩
  | snoc ht hs ih => exact solicitation_step (framesWf_of_trace h₀ ht) ih hs

end Step

/-! ## No unsolicited replies -/

/-- Every reply in flight or in a queue was generated by the owner of its source or by a
node with an unexpired entry for it, after its destination had asked. -/
theorem replies_solicited {s₀ s : Net Node} {h : List (Net Node × Action Node)}
    (h₀ : Quiet s₀) (ht : Trace T.step s₀ h s) :
    (∀ p ∈ s.flight, p.host.frameType = FrameType.rrep.toInt → Solicited T h p.host) ∧
    ∀ n, ∀ q ∈ (s.nodes n).pending,
      q.odrframe.frameType = FrameType.rrep.toInt → Solicited T h q.odrframe := by
  have hinv := solicitation_of_trace h₀ ht
  exact ⟨hinv.replies, hinv.parked⟩

/-- The answer of the last node of the line is on its way. -/
theorem lineDiscovery_reply_solicited :
    ∃ h s, Trace lineNet.step (Net.initial (Fin 3)) h s ∧
      ∃ p ∈ s.flight, p.host.frameType = FrameType.rrep.toInt ∧ Solicited lineNet h p.host := by
  obtain ⟨h, s, ht, hp⟩ := Trace.exists_of_exec lineNet.step (Net.initial (Fin 3))
    (lineDiscovery.take 3)
    (fun _ s => s.flight.any fun p => decide (p.host.frameType = FrameType.rrep.toInt))
    (by decide +kernel)
  obtain ⟨p, hmem, hrrep⟩ := List.any_eq_true.mp hp
  have hrrep := of_decide_eq_true hrrep
  exact ⟨h, s, ht, p, hmem, hrrep, (replies_solicited quiet_initial ht).1 p hmem hrrep⟩

end OnDemandRouting.Proofs
