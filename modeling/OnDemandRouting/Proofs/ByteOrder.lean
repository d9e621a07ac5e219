import Mathlib.Data.List.InsertIdx
import OnDemandRouting.Model.Wiring
import OnDemandRouting.Proofs.Frames
import OnDemandRouting.Proofs.Representation

/-!
# Byte order on the wire and in the queue

A network of daemons is compared with the same network on machines whose `htonl` does
nothing, where every integer is at all times the one that is meant.  The two run in
lockstep.  Their nodes are in the same states, so what waits in a queue is in host
order, and a frame in flight is the meant one with each integer converted once.  This
would fail if one path of the daemon converted once too often or once too seldom.
-/

namespace OnDemandRouting.Proofs

open OnDemandRouting.Lib
open OnDemandRouting.Model

/-! ## One conversion per call -/

section Handlers

variable {hton : Int → Int}

theorem convertOrder_convertOrder (hinv : Function.Involutive hton) (f : OdrFrame) :
    convertOrder hton (convertOrder hton f) = f := by
  simp [convertOrder, hinv _]

/-- Frames on machines with `hton` beside the frames that are meant: the handlers read the same,
and what they send is converted. -/
def orderSim (hton : Int → Int) : FrameSim (frameOps hton) (frameOps id) where
  Host := Eq
  Wire f f' := f = convertOrder hton f'
  fields_eq h := h
  construct _ _ _ _ _ _ _ _ _ _ := rfl
  relay := by
    rintro f _ n rfl
    rfl
  release h := congrArg (convertOrder hton) h

/-- A transmission with its frame converted. -/
def convertSent (hton : Int → Int) (t : Transmission) : Transmission :=
  { t with frame := convertOrder hton t.frame }

theorem SentSim.converted {t t' : Transmission} (h : SentSim (orderSim hton).Wire t t') :
    t = convertSent hton t' := by
  obtain ⟨intIndex, srcMac, destMac, frame⟩ := t
  obtain ⟨rfl, rfl, rfl, rfl⟩ := h
  rfl

/-- A handler call does what is meant, and converts what it sends. -/
structure Converted (hton : Int → Int) (o o' : Outcome) : Prop where
  node : o.node = o'.node
  sent : o.sent = o'.sent.map (convertSent hton)
  events : o.events = o'.events
  exit : o.exit = o'.exit

theorem OutcomeSim.converted {o o' : Outcome} (h : OutcomeSim (orderSim hton).Wire Eq Eq o o') :
    Converted hton o o' where
  node := h.node.eq
  sent := by
    have hsent := h.sent.imp fun t t' ht => SentSim.converted ht
    rwa [← List.forall₂_map_right_iff, List.forall₂_eq_eq_eq] at hsent
  events := h.events
  exit := h.exit

theorem handleEthernetMsg_converted (hinv : Function.Involutive hton) (cfg : Config) (env : Env)
    (intfN : Int) (addr : Mac) (f : OdrFrame) (st : NodeState) :
    Converted hton
      (handleEthernetMsg (R := frameOps hton) cfg env intfN addr (convertOrder hton f) st)
      (handleEthernetMsg (R := frameOps id) cfg env intfN addr f st) :=
  (handleEthernetMsg_sim (orderSim hton) .refl .refl ⟨rfl, rfl, rfl, rfl, rfl⟩ cfg env
    intfN addr (convertOrder_convertOrder hinv f)).converted

/-- The frame that is queued was converted twice. -/
theorem queuedFrame_converted (hinv : Function.Involutive hton) (freshId portno : Int)
    (selfIp : Ip) (sparams : SendParams) :
    (queuedFrame (R := frameOps hton) freshId portno selfIp sparams) =
      queuedFrame (R := frameOps id) freshId portno selfIp sparams :=
  convertOrder_convertOrder hinv
    (constructOdrWith id FrameType.data.toInt 0 freshId payloadSize 0 portno sparams.destport
      sparams.destip selfIp sparams.msg)

theorem handlePeerMsg_converted (hinv : Function.Involutive hton) (cfg : Config) (env : Env)
    (sparams : SendParams) (st : NodeState) :
    Converted hton (handlePeerMsg (R := frameOps hton) cfg env sparams st)
      (handlePeerMsg (R := frameOps id) cfg env sparams st) :=
  (handlePeerMsg_sim (orderSim hton) .refl .refl ⟨rfl, rfl, rfl, rfl, rfl⟩ cfg env sparams
    fun _ _ => queuedFrame_converted hinv ..).converted

end Handlers

/-! ## One conversion per step -/

section Network

variable {hton : Int → Int} {Node : Type}

/-- A copy in flight with its frame converted. -/
def convertPacket (hton : Int → Int) (p : Packet Node) : Packet Node :=
  { p with frame := convertOrder hton p.frame }

/-- A network with everything in flight converted. -/
def convertNet (hton : Int → Int) (s : Net Node) : Net Node :=
  { s with flight := s.flight.map (convertPacket hton) }

theorem convertNet_of_quiet (hton : Int → Int) {s : Net Node} (h : Quiet s) :
    convertNet hton s = s := by
  obtain ⟨nodes, alive, flight, tick, accepted, delivered, discarded⟩ := s
  obtain rfl : flight = [] := h.flight
  rfl

theorem relayTrail_converted (hinv : Function.Involutive hton) (tick : Nat) (p : Packet Node)
    (t : Transmission) :
    relayTrail (R := frameOps hton) tick (convertPacket hton p) (convertSent hton t) =
      relayTrail (R := frameOps id) tick p t := by
  have hrecvd : (convertPacket hton p).host (R := frameOps hton) = p.host (R := frameOps id) :=
    convertOrder_convertOrder hinv p.frame
  have hsent : (convertSent hton t).host (R := frameOps hton) = t.host (R := frameOps id) :=
    convertOrder_convertOrder hinv t.frame
  unfold relayTrail
  rw [hrecvd, hsent]
  rfl

variable [DecidableEq Node] {T : Topology Node}

theorem copies_converted (n : Node) (trail : List (RelayEvent Node)) (t : Transmission) :
    T.copies n trail (convertSent hton t) = (T.copies n trail t).map (convertPacket hton) := by
  rw [Topology.copies, Topology.copies, List.map_map]
  rfl

theorem deliverPacket_converted (hinv : Function.Involutive hton) (s : Net Node)
    (p : Packet Node) (rest : List (Packet Node)) (env : Env) :
    T.deliverPacket (R := frameOps hton) (convertNet hton s) (convertPacket hton p)
        (rest.map (convertPacket hton)) env =
      convertNet hton (T.deliverPacket (R := frameOps id) s p rest env) := by
  have hcall := handleEthernetMsg_converted hinv (T.cfg p.dst) env p.ifIndex p.srcMac p.frame
    (s.nodes p.dst)
  unfold Topology.deliverPacket
  simp only [convertNet, convertPacket, hcall.node, hcall.sent, hcall.events, hcall.exit,
    List.map_append, List.flatMap_map, List.map_flatMap, ← copies_converted]
  congr 3
  funext t
  exact congrArg (fun trail => T.copies p.dst trail (convertSent hton t))
    (relayTrail_converted hinv s.tick p t)

theorem takeRequest_converted (hinv : Function.Involutive hton) (s : Net Node) (n : Node)
    (sparams : SendParams) (env : Env) :
    T.takeRequest (R := frameOps hton) (convertNet hton s) n sparams env =
      convertNet hton (T.takeRequest (R := frameOps id) s n sparams env) := by
  have hcall := handlePeerMsg_converted hinv (T.cfg n) env sparams (s.nodes n)
  unfold Topology.takeRequest
  simp only [convertNet, hcall.node, hcall.sent, hcall.exit, List.map_append, List.flatMap_map,
    List.map_flatMap, copies_converted]

theorem step_converted (hinv : Function.Involutive hton) (s : Net Node) (a : Action Node) :
    T.stepOn hton (convertNet hton s) a = (T.stepOn id s a).map (convertNet hton) := by
  cases a with
  | request n sparams env =>
      simp only [Topology.stepOn, Topology.step, takeRequest_converted hinv]
      change (if s.alive n = true then _ else _) = _
      split_ifs <;> rfl
  | deliver k env =>
      have hflight : (convertNet hton s).flight[k]? = s.flight[k]?.map (convertPacket hton) :=
        List.getElem?_map ..
      have hrest : (convertNet hton s).flight.eraseIdx k =
          (s.flight.eraseIdx k).map (convertPacket hton) := List.eraseIdx_map ..
      simp only [Topology.stepOn, Topology.step, hflight, hrest]
      cases s.flight[k]? with
      | none => rfl
      | some p =>
          simp only [Option.map_some, deliverPacket_converted hinv]
          change (if s.alive p.dst = true then _ else _) = _
          split_ifs <;> rfl

/-- Every run is a run of the network without conversions, with its frames converted. -/
theorem trace_converted (hinv : Function.Involutive hton) {s₀ s : Net Node}
    {h : List (Net Node × Action Node)}
    (ht : Trace (T.stepOn hton) (convertNet hton s₀) h s) :
    ∃ g l, Trace (T.stepOn id) s₀ g l ∧ g.map Prod.snd = h.map Prod.snd ∧
      s = convertNet hton l := by
  refine ht.simulate (R := fun s l => s = convertNet hton l) rfl ?_
  rintro _ l a s' rfl hs
  rw [step_converted hinv, Option.map_eq_some_iff] at hs
  obtain ⟨l', hl', rfl⟩ := hs
  exact ⟨l', hl', rfl⟩

/-- In every state that a network reaches from a quiet one, each frame in flight is the
network-order form of the one that is meant and has one of the four types, so that no
daemon takes the `default` branch.  The states of the nodes are the ones that are meant,
so that queued frames are in host order, and a queued frame is a reply or a message for
another node, filed under its destination. -/
theorem byte_order_discipline {s₀ s : Net Node} {h : List (Net Node × Action Node)}
    (h₀ : Quiet s₀) (ht : Trace T.step s₀ h s) :
    (∃ g l, Trace (T.stepOn id) s₀ g l ∧ g.map Prod.snd = h.map Prod.snd ∧
      s.nodes = l.nodes ∧
      s.flight = l.flight.map fun p => { p with frame := convertHostNetOrder p.frame }) ∧
    (∀ p ∈ s.flight,
      ∃ type, FrameType.ofInt (processRecvdFrame p.frame).frameType = some type) ∧
    ∀ n, ∀ q ∈ (s.nodes n).pending,
      (q.odrframe.frameType = FrameType.rrep.toInt ∨
        q.odrframe.frameType = FrameType.data.toInt) ∧
      q.destip = q.odrframe.destIp ∧ q.destip ≠ T.ip n := by
  have hwf := framesWf_of_trace h₀ ht
  refine ⟨?_, fun p hp => (hwf.flight p hp).1.type_ok, fun n q hq => ?_⟩
  · rw [← convertNet_of_quiet htonl h₀] at ht
    obtain ⟨g, l, hg, hacts, rfl⟩ := trace_converted htonl_htonl ht
    exact ⟨g, l, hg, hacts, rfl, rfl⟩
  · have hq := hwf.pending n q hq
    exact ⟨hq.type_ok.imp FrameType.toInt_of_ofInt FrameType.toInt_of_ofInt, hq.key, hq.remote⟩

end Network

/-- The discipline along a run in which the middle node of a line has parked a message and
its own request is in flight. -/
theorem lineParked_byte_order :
    ∃ h s, Trace lineNet.step (Net.initial (Fin 3)) h s ∧ s.flight ≠ [] ∧
      (s.nodes 1).pending ≠ [] ∧
      ((∃ g l, Trace (lineNet.stepOn id) (Net.initial (Fin 3)) g l ∧
        g.map Prod.snd = h.map Prod.snd ∧ s.nodes = l.nodes ∧
        s.flight = l.flight.map fun p => { p with frame := convertHostNetOrder p.frame }) ∧
      (∀ p ∈ s.flight,
        ∃ type, FrameType.ofInt (processRecvdFrame p.frame).frameType = some type) ∧
      ∀ n, ∀ q ∈ (s.nodes n).pending,
        (q.odrframe.frameType = FrameType.rrep.toInt ∨
          q.odrframe.frameType = FrameType.data.toInt) ∧
        q.destip = q.odrframe.destIp ∧ q.destip ≠ lineNet.ip n) := by
  obtain ⟨h, s, ht, hp⟩ := Trace.exists_of_exec lineNet.step (Net.initial (Fin 3))
    (lineParkedRun.take 7)
    (fun _ s => !s.flight.isEmpty && !(s.nodes 1).pending.isEmpty) (by decide +kernel)
  simp only [Bool.and_eq_true, Bool.not_eq_true', List.isEmpty_eq_false_iff] at hp
  exact ⟨h, s, ht, hp.1, hp.2, byte_order_discipline quiet_initial ht⟩

end OnDemandRouting.Proofs
