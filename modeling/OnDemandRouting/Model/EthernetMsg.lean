import OnDemandRouting.Model.Send

/-!
# Frames received from the network

`handle_ethernet_msg`, one definition per case of its `switch`.  In every case
all changes of the node's state precede the first `send_raw_frame` call, so a
case is a new state together with a plan.

The handler is written over the operations on frames, routing table and queue.  A case that
stores or changes the frame it received gets the frame, the others only read its fields.
-/

namespace OnDemandRouting.Model

variable {Frame Table Ptr Queue : Type}

/-- What a case of the `switch` does: the state it leaves, the transmissions it
plans, and what it does at the Unix-domain socket. -/
structure Reaction (Frame : Type := OdrFrame) (Table : Type := List REntry)
    (Queue : Type := List PendingMsg) where
  node : NodeState Table Queue
  plan : Plan Frame
  events : List PeerEvent

/-- Carry out the plan of a case; without a failure the handler returns 0. -/
def Reaction.outcome (r : Reaction Frame Table Queue) (env : Env) (selfIp : Ip)
    (deleted : List Ip) : Outcome Frame Table Queue :=
  match r.plan with
  | .error exit =>
      { node := r.node, sent := [], events := r.events, deleted := deleted, exit := exit }
  | .ok plan =>
      let s := sendRawFrames env selfIp 0 plan
      { node := r.node
        sent := s.1
        events := r.events
        deleted := deleted
        exit := s.2.getD (.returned 0) }

section Cases

variable [R : FrameOps Frame]

/-- The relayed copies of a request: hop count one higher, on every interface but
the one it came in on. -/
def relayBroadcast (cfg : Config) (intfN : Int) (f : OdrFrame) (asentFlag : Bool) :
    List (Transmission Frame) :=
  sendReqBroadcast cfg.hwa intfN f.broadcastId f.srcPort f.dstPort (f.hopCount + 1)
    f.routeDiscFlag f.destIp f.srcIp f.payload asentFlag

/-- A relay without a route parks the frame as it received it and floods a request
of its own, except on the interface the frame came in on. -/
def parkFrame [QueueOps Queue Frame] (cfg : Config) (env : Env) (intfN : Int) (frame : Frame)
    (st : NodeState Table Queue) : Reaction Frame Table Queue :=
  let counter := st.counter.next
  { node := { st with
      counter := counter
      pending := QueueOps.insertPendingQueue frame (R.fields frame).destIp st.pending }
    plan :=
      if env.resolves cfg.selfIp then
        .ok (sendReqBroadcast cfg.hwa intfN counter.value (-1) (R.fields frame).dstPort 0 0
          (R.fields frame).destIp cfg.selfIp (R.fields frame).payload false)
      else .error .aborted
    events := [] }

/-- `case __RREQ`, after the source's route is learned. -/
def handleRreq (cfg : Config) (intfN : Int) (f : OdrFrame) (learned : Learned Table)
    (dest : Option REntry) (st : NodeState Table Queue) : Reaction Frame Table Queue :=
  if f.destIp = cfg.selfIp then
    let r := sendRrepPacket cfg.hwa f learned.entry 0 true st.counter
    { node := { st with counter := r.1 }, plan := r.2, events := [] }
  else
    match dest with
    | some destEntry =>
        let r := sendRrepPacket cfg.hwa f learned.entry destEntry.noHops true st.counter
        let relayed := if learned.flag then relayBroadcast cfg intfN f true else []
        { node := { st with counter := r.1 }
          plan := r.2.map (· ++ relayed)
          events := [] }
    | none =>
        { node := st
          plan := .ok (if learned.flag then relayBroadcast cfg intfN f false else [])
          events := [] }

/-- Send on a frame that waited in the pending queue for the route just learned.
The parked frame's own hop count is used. -/
def releaseFrame (cfg : Config) (learned : Learned Table) (frame : Frame)
    (st : NodeState Table Queue) : Reaction Frame Table Queue :=
  match FrameType.ofInt (R.fields frame).frameType with
  | some .rrep =>
      let r := sendRrepPacket cfg.hwa (R.fields frame) learned.entry (R.fields frame).hopCount
        false st.counter
      { node := { st with counter := r.1 }, plan := r.2, events := [] }
  | some .data =>
      { node := st
        plan := sendAlong cfg.hwa learned.entry (R.convertHostNetOrder frame)
        events := [] }
  | _ => { node := st, plan := .ok [], events := [] }

/-- `case __RREP`. -/
def handleRrep [QueueOps Queue Frame] (cfg : Config) (env : Env) (intfN : Int) (frame : Frame)
    (learned : Learned Table) (dest : Option REntry) (st : NodeState Table Queue) :
    Reaction Frame Table Queue :=
  if (R.fields frame).destIp = cfg.selfIp then
    match QueueOps.lookupPendingQueue (R.fields frame).srcIp st.pending with
    | none => { node := st, plan := .ok [], events := [] }
    | some (parked, pending) => releaseFrame cfg learned parked { st with pending := pending }
  else
    match dest with
    | some destEntry =>
        let r := sendRrepPacket cfg.hwa (R.fields frame) destEntry learned.entry.noHops false
          st.counter
        { node := { st with counter := r.1 }, plan := r.2, events := [] }
    | none => parkFrame cfg env intfN frame st

/-- `case __DATA`. -/
def handleData [QueueOps Queue Frame] (cfg : Config) (env : Env) (intfN : Int) (frame : Frame)
    (learned : Learned Table) (dest : Option REntry) (st : NodeState Table Queue) :
    Reaction Frame Table Queue :=
  if (R.fields frame).destIp = cfg.selfIp then
    { node := st
      plan := .ok []
      events := [processDataMessage env st.ports (R.fields frame)] }
  else
    match dest with
    | some destEntry =>
        { node := st
          plan := sendAlong cfg.hwa destEntry
            (R.convertHostNetOrder (R.setHopCount learned.entry.noHops frame))
          events := [] }
    | none => parkFrame cfg env intfN frame st

/-- `case __ASENT`. -/
def handleAsent (cfg : Config) (intfN : Int) (f : OdrFrame) (learned : Learned Table)
    (st : NodeState Table Queue) : Reaction Frame Table Queue where
  node := st
  plan := .ok (if learned.flag then relayBroadcast cfg intfN f true else [])
  events := []

/-- The `switch`. -/
def react [QueueOps Queue Frame] (cfg : Config) (env : Env) (intfN : Int) (frame : Frame)
    (learned : Learned Table) (dest : Option REntry) (st : NodeState Table Queue) :
    FrameType → Reaction Frame Table Queue
  | .rreq => handleRreq cfg intfN (R.fields frame) learned dest st
  | .rrep => handleRrep cfg env intfN frame learned dest st
  | .data => handleData cfg env intfN frame learned dest st
  | .asent => handleAsent cfg intfN (R.fields frame) learned st

end Cases

section Lookups

variable [TableOps Table Ptr]

/-- The first lookup of the handler, for the destination of the frame. -/
def destLookup (cfg : Config) (env : Env) (f : OdrFrame) (st : NodeState Table Queue) :
    Lookup Table Ptr :=
  TableOps.getREntry cfg.staleParam env.destTime f.destIp f.routeDiscFlag st.table

/-- The second lookup, for the source. -/
def srcLookup (cfg : Config) (env : Env) (f : OdrFrame) (st : NodeState Table Queue) :
    Lookup Table Ptr :=
  TableOps.getREntry cfg.staleParam env.srcTime f.srcIp 0 (destLookup cfg env f st).table

/-- The source's route after the frame is taken in. -/
def learnedRoute (cfg : Config) (env : Env) (intfN : Int) (addr : Mac) (f : OdrFrame)
    (st : NodeState Table Queue) : Learned Table Ptr :=
  learnSource f intfN addr env.updateTime (srcLookup cfg env f st)

/-- The entry behind `dest_r_entry` once the source's route is learned. -/
def derefDest (cfg : Config) (env : Env) (intfN : Int) (addr : Mac) (f : OdrFrame)
    (st : NodeState Table Queue) : Option REntry :=
  TableOps.rereadDest f (destLookup cfg env f st) (srcLookup cfg env f st)
    (learnedRoute cfg env intfN addr f st)

/-- The addresses whose entries the two lookups unlink. -/
def deletedBy (cfg : Config) (env : Env) (f : OdrFrame) (st : NodeState Table Queue) : List Ip :=
  (if (destLookup cfg env f st).deleted then [f.destIp] else []) ++
    (if (srcLookup cfg env f st).deleted then [f.srcIp] else [])

/-- The guard `recvd_odr_frame->src_ip == self_ip`.  It compares the address of an
array inside the copied receive buffer with the pointer `self_ip_addr` to another
allocation: no frame contents make the two equal. -/
def ownFrameGuard (_recvd : OdrFrame) (_selfIp : Ip) : Bool := false

/-- The duplicate filter: a frame with the route discovery flag whose id is not
newer than what the table holds for its source. -/
def duplicateFilter (f : OdrFrame) (table : Table) : Bool :=
  decide (f.routeDiscFlag = 1 ∧ TableOps.isBroadidGreater f.srcIp f.broadcastId table < 0)

end Lookups

/-- `handle_ethernet_msg` for a frame that came in on interface `intfN` from
hardware address `addr`. -/
def handleEthernetMsg [R : FrameOps Frame] [TableOps Table Ptr] [QueueOps Queue Frame]
    (cfg : Config) (env : Env) (intfN : Int) (addr : Mac) (recvBuf : Frame)
    (st : NodeState Table Queue) : Outcome Frame Table Queue :=
  let frame := R.processRecvdFrame recvBuf
  let f := R.fields frame
  if ownFrameGuard f cfg.selfIp then
    { node := st, sent := [], events := [], deleted := [], exit := .returned 1 }
  else if duplicateFilter f st.table then
    { node := st, sent := [], events := [], deleted := [], exit := .returned 1 }
  else
    let st' := { st with table := (srcLookup cfg env f st).table }
    let deleted := deletedBy cfg env f st
    if env.resolves f.srcIp && env.resolves f.destIp then
      match FrameType.ofInt f.frameType with
      | none =>
          { node := st', sent := [], events := [], deleted := deleted, exit := .returned (-1) }
      | some type =>
          let learned := learnedRoute cfg env intfN addr f st
          let st' := { st' with table := learned.table }
          match TableOps.entryAt learned.table learned.entry with
          | none =>
              -- not reached: the pointer is that of a found or a new entry
              { node := st', sent := [], events := [], deleted := deleted, exit := .aborted }
          | some srcEntry =>
              let r := react cfg env intfN frame { learned with entry := srcEntry }
                (derefDest cfg env intfN addr f st) st' type
              r.outcome env cfg.selfIp deleted
    else { node := st', sent := [], events := [], deleted := deleted, exit := .aborted }

end OnDemandRouting.Model
