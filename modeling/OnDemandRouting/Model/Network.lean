import Mathlib.Logic.Function.Basic
import OnDemandRouting.Model.EthernetMsg
import OnDemandRouting.Model.PeerMsg

/-!
# A closed network of daemons

Nodes are joined by segments: a segment is a set of interfaces, two for a
point-to-point link and more for a broadcast medium.  A frame sent on an
interface reaches, according to its destination address, every other interface
of the segment or the one with that address; each such copy is in flight until
it is delivered.  Copies are delivered in any order.

The fields `trail`, `tick`, `accepted`, `delivered` and `discarded` record the
history of a run.  No handler reads them.
-/

namespace OnDemandRouting.Model

/-- A fixed topology: the configuration of every node and the segments that join
their interfaces. -/
structure Topology (Node : Type) where
  cfg : Node → Config
  segments : List (List (Node × Int))
  /-- An interface is attached to at most one segment. -/
  endpoints_nodup : segments.flatten.Nodup
  /-- Attached interfaces exist. -/
  endpoint_hwa : ∀ q ∈ segments.flatten, ∃ r ∈ (cfg q.1).hwa, r.ifIndex = q.2
  /-- Alias records share the hardware address of their interface. -/
  hwa_haddr : ∀ n, ∀ r ∈ (cfg n).hwa, ∀ r' ∈ (cfg n).hwa,
    r.ifIndex = r'.ifIndex → r.ifHaddr = r'.ifHaddr
  /-- Interface indices are positive. -/
  ifIndex_pos : ∀ n, ∀ r ∈ (cfg n).hwa, 0 < r.ifIndex
  /-- No interface has the broadcast address. -/
  haddr_ne_broadcast : ∀ n, ∀ r ∈ (cfg n).hwa, r.ifHaddr ≠ broadcastMac
  /-- Hardware addresses are unique on a segment. -/
  haddr_inj : ∀ seg ∈ segments, ∀ q ∈ seg, ∀ q' ∈ seg,
    getHwaddrFromInt q.2 (cfg q.1).hwa = getHwaddrFromInt q'.2 (cfg q'.1).hwa → q = q'
  /-- Canonical addresses are unique. -/
  selfIp_inj : ∀ n m, (cfg n).selfIp = (cfg m).selfIp → n = m

/-- A relay of a flood: the step and the node at which it happened and the hop
count of the copy that was relayed. -/
structure RelayEvent (Node : Type) where
  tick : Nat
  node : Node
  hop : Int

/-- A copy of a frame in flight to one interface: what `recvfrom` will report
there.  `trail` lists the relays the copy descends from, latest first. -/
structure Packet (Node : Type) where
  dst : Node
  ifIndex : Int
  srcMac : Mac
  frame : OdrFrame
  trail : List (RelayEvent Node)

/-- The frame as its receiver reads it. -/
def Packet.host {Node : Type} [R : FrameOps OdrFrame] (p : Packet Node) : OdrFrame :=
  R.processRecvdFrame p.frame

theorem Packet.host_eq {Node : Type} (p : Packet Node) : p.host = processRecvdFrame p.frame := rfl

/-- State of the network. -/
structure Net (Node : Type) where
  nodes : Node → NodeState
  alive : Node → Bool
  flight : List (Packet Node)
  tick : Nat
  accepted : List AppMsg
  delivered : List (Node × AppMsg)
  discarded : List (Node × AppMsg)

/-- The network with every daemon just started. -/
def Net.initial (Node : Type) : Net Node where
  nodes := fun _ => .initial
  alive := fun _ => true
  flight := []
  tick := 0
  accepted := []
  delivered := []
  discarded := []

/-- A step: an application request at a node, or the delivery of the `k`-th copy
in flight. -/
inductive Action (Node : Type)
  | request (n : Node) (sparams : SendParams) (env : Env)
  | deliver (k : Nat) (env : Env)

/-- What the outside does during a step. -/
def Action.env {Node : Type} : Action Node → Env
  | .request _ _ env => env
  | .deliver _ env => env

/-- A frame of a flood: RREQ or ASENT. -/
def isFlood (f : OdrFrame) : Bool :=
  decide (f.frameType = FrameType.rreq.toInt ∨ f.frameType = FrameType.asent.toInt)

/-- The trail of a frame sent on receipt of `p`: a flood frame sent on receipt of a
flood frame is a relayed copy. -/
def relayTrail {Node : Type} [R : FrameOps OdrFrame] (tick : Nat) (p : Packet Node)
    (t : Transmission) : List (RelayEvent Node) :=
  if isFlood p.host && isFlood t.host then
    { tick := tick, node := p.dst, hop := p.host.hopCount } :: p.trail
  else []

/-- The messages handed to an application. -/
def PeerEvent.sent? : PeerEvent → Option AppMsg
  | .sentTo _ msg => some msg
  | _ => none

/-- The messages dropped for want of a registered port. -/
def PeerEvent.unknownPort? : PeerEvent → Option AppMsg
  | .noSunPath msg => some msg
  | _ => none

/-- The message a request commits the node to: one for another node that
`handle_peer_msg` took without an error. -/
def acceptedMsg (cfg : Config) (sparams : SendParams) (st : NodeState) (exit : Exit) :
    List AppMsg :=
  if cfg.selfIp ≠ sparams.destip ∧ exit = .returned 1 then
    match fetchEntryPath sparams.filename st.ports st.nextPortno with
    | some r => [sparams.message cfg.selfIp r.1.portno]
    | none => []
  else []

namespace Topology

variable {Node : Type} [DecidableEq Node] (T : Topology Node)

/-- The canonical address of a node. -/
def ip (n : Node) : Ip := (T.cfg n).selfIp

/-- The hardware address of an interface. -/
def haddr (q : Node × Int) : Option Mac := getHwaddrFromInt q.2 (T.cfg q.1).hwa

/-- The other interfaces on the segment of interface `i` of `n`. -/
def peers (n : Node) (i : Int) : List (Node × Int) :=
  T.segments.flatMap fun seg =>
    if (n, i) ∈ seg then seg.filter fun q => decide (q ≠ (n, i)) else []

/-- The interfaces a transmission of `n` reaches. -/
def receivers (n : Node) (t : Transmission) : List (Node × Int) :=
  (T.peers n t.intIndex).filter fun q =>
    decide (t.destMac = broadcastMac ∨ T.haddr q = some t.destMac)

/-- The copies a transmission of `n` puts in flight. -/
def copies (n : Node) (trail : List (RelayEvent Node)) (t : Transmission) :
    List (Packet Node) :=
  (T.receivers n t).map fun q =>
    { dst := q.1, ifIndex := q.2, srcMac := t.srcMac, frame := t.frame, trail := trail }

variable [R : FrameOps OdrFrame]

/-- Deliver the copy `p`, which leaves `rest` in flight. -/
def deliverPacket (s : Net Node) (p : Packet Node) (rest : List (Packet Node)) (env : Env) :
    Net Node :=
  let o := handleEthernetMsg (T.cfg p.dst) env p.ifIndex p.srcMac p.frame (s.nodes p.dst)
  { nodes := Function.update s.nodes p.dst o.node
    alive := Function.update s.alive p.dst o.exit.survives
    flight := rest ++ o.sent.flatMap fun t => T.copies p.dst (relayTrail s.tick p t) t
    tick := s.tick + 1
    accepted := s.accepted
    delivered := s.delivered ++ (o.events.filterMap PeerEvent.sent?).map fun m => (p.dst, m)
    discarded := s.discarded ++
      (o.events.filterMap PeerEvent.unknownPort?).map fun m => (p.dst, m) }

/-- Take in an application request at `n`. -/
def takeRequest (s : Net Node) (n : Node) (sparams : SendParams) (env : Env) : Net Node :=
  let o := handlePeerMsg (T.cfg n) env sparams (s.nodes n)
  { nodes := Function.update s.nodes n o.node
    alive := Function.update s.alive n o.exit.survives
    flight := s.flight ++ o.sent.flatMap fun t => T.copies n [] t
    tick := s.tick + 1
    accepted := s.accepted ++ acceptedMsg (T.cfg n) sparams (s.nodes n) o.exit
    delivered := s.delivered
    discarded := s.discarded }

/-- One step of the network.  A daemon whose handler failed takes no further step. -/
def step (s : Net Node) : Action Node → Option (Net Node)
  | .request n sparams env => if s.alive n then some (T.takeRequest s n sparams env) else none
  | .deliver k env =>
      match s.flight[k]? with
      | none => none
      | some p =>
          if s.alive p.dst then some (T.deliverPacket s p (s.flight.eraseIdx k) env) else none

/-- One step of a network of machines on which `htonl` and `ntohl` are `hton`.  With the
identity they are big-endian, and an `int` is never stored in an order other than the host's. -/
def stepOn (hton : Int → Int) (s : Net Node) (a : Action Node) : Option (Net Node) :=
  T.step (R := frameOps hton) s a

end Topology

end OnDemandRouting.Model
