import OnDemandRouting.Model.Network
import OnDemandRouting.Model.PendingHeap
import OnDemandRouting.Model.RouteHeap
import OnDemandRouting.Model.Wire

/-!
# The daemons in memory and on the wire

The program at the level of its memory.  A frame is the bytes of an `odr_frame_t`, which
the handlers build, convert and change in place, and what travels between two nodes is the
1514 bytes of an Ethernet frame.  The routing table and the pending queue are cells with
pointers.
-/

namespace OnDemandRouting.Model.Machine

open OnDemandRouting.Lib
open OnDemandRouting.Model.Wire (bytes odrFrameAt setInt sendRawFrame)

/-- The frame as the bytes of the structure; `recv_buf` holds an Ethernet frame. -/
instance byteOps : FrameOps (List UInt8) where
  fields := odrFrameAt
  setHopCount := setInt .hopCount
  constructOdr type bid hopcount len rdiscFlag srcport dstport dstip srcip payload :=
    Wire.constructOdr type bid hopcount len rdiscFlag srcport dstport (bytes dstip)
      (bytes srcip) (bytes payload)
  convertNetHostOrder := Wire.convertNetHostOrder
  convertHostNetOrder := Wire.convertHostNetOrder
  processRecvdFrame := Wire.processRecvdFrame

/-- The globals of one daemon. -/
abbrev Memory := NodeState RouteHeap.Table (PendingHeap.Queue (List UInt8))

/-- The state in which `main` enters its loop. -/
def Memory.initial : Memory :=
  { NodeState.initial with table := .initial, pending := .initial }

/-- The arguments of one `send_raw_frame` call. -/
abbrev Sent := Transmission (List UInt8)

/-! ## The network -/

/-- The hardware address at an offset of an Ethernet frame. -/
def macAt (off : Nat) (wire : List UInt8) : Mac :=
  BitVec.ofNat 48 ((slice off 6 wire).foldl (fun n b => n * 256 + b.toNat) 0)

/-- An Ethernet frame in flight to one interface. -/
structure WirePacket (Node : Type) where
  dst : Node
  ifIndex : Int
  wire : List UInt8

/-- State of the network. -/
structure MachineNet (Node : Type) where
  nodes : Node → Memory
  alive : Node → Bool
  flight : List (WirePacket Node)
  delivered : List (Node × AppMsg)

/-- The network with every daemon just started. -/
def MachineNet.initial (Node : Type) : MachineNet Node where
  nodes := fun _ => .initial
  alive := fun _ => true
  flight := []
  delivered := []

variable {Node : Type} [DecidableEq Node] (T : Topology Node)
  -- what a buffer from `malloc` holds, which may be anything each time
  (malloc : MachineNet Node → Sent → List UInt8)

/-- The interfaces that take in an Ethernet frame sent on interface `i` of `n`. -/
def receivers (n : Node) (i : Int) (wire : List UInt8) : List (Node × Int) :=
  (T.peers n i).filter fun q =>
    decide (macAt 0 wire = broadcastMac ∨ T.haddr q = some (macAt 0 wire))

/-- The copies a `send_raw_frame` call of `n` puts in flight. -/
def copies (n : Node) (buffer : List UInt8) (t : Sent) : List (WirePacket Node) :=
  let wire := sendRawFrame buffer t.srcMac t.destMac t.frame
  (receivers T n t.intIndex wire).map fun q => { dst := q.1, ifIndex := q.2, wire := wire }

/-- Deliver the copy `p`, which leaves `rest` in flight; `recvfrom` reports the address of
the sender. -/
def deliverPacket (s : MachineNet Node) (p : WirePacket Node) (rest : List (WirePacket Node))
    (env : Env) : MachineNet Node :=
  let o := handleEthernetMsg (T.cfg p.dst) env p.ifIndex (macAt 6 p.wire) p.wire (s.nodes p.dst)
  { nodes := Function.update s.nodes p.dst o.node
    alive := Function.update s.alive p.dst o.exit.survives
    flight := rest ++ o.sent.flatMap fun t => copies T p.dst (malloc s t) t
    delivered := s.delivered ++ (o.events.filterMap PeerEvent.sent?).map fun m => (p.dst, m) }

/-- Take in an application request at `n`. -/
def takeRequest (s : MachineNet Node) (n : Node) (sparams : SendParams) (env : Env) :
    MachineNet Node :=
  let o := handlePeerMsg (T.cfg n) env sparams (s.nodes n)
  { nodes := Function.update s.nodes n o.node
    alive := Function.update s.alive n o.exit.survives
    flight := s.flight ++ o.sent.flatMap fun t => copies T n (malloc s t) t
    delivered := s.delivered }

/-- One step of the network. -/
def step (s : MachineNet Node) : Action Node → Option (MachineNet Node)
  | .request n sparams env =>
      if s.alive n then some (takeRequest T malloc s n sparams env) else none
  | .deliver k env =>
      match s.flight[k]? with
      | none => none
      | some p =>
          if s.alive p.dst then some (deliverPacket T malloc s p (s.flight.eraseIdx k) env)
          else none

end OnDemandRouting.Model.Machine
