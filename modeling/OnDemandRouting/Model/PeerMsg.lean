import OnDemandRouting.Model.Send

/-!
# Requests of local applications

`handle_peer_msg`: a message for this node is handed to the local process, a
message with a route is sent along it, and for every other message a route
request is flooded before the message is put into the pending queue.
-/

namespace OnDemandRouting.Model

variable {Frame Table Ptr Queue : Type} [R : FrameOps Frame]

/-- The frame `handle_peer_msg` queues.  The third argument of `construct_odr` is
the hop count, and the code passes a fresh broadcast id there. -/
def queuedFrame (freshId portno : Int) (selfIp : Ip) (sparams : SendParams) : Frame :=
  R.convertNetHostOrder
    (R.constructOdr FrameType.data.toInt 0 freshId payloadSize 0 portno sparams.destport
      sparams.destip selfIp sparams.msg)

/-- `handle_peer_msg` once the message is known to be for another node. -/
def handleRemoteMsg [TableOps Table Ptr] [QueueOps Queue Frame] (cfg : Config) (env : Env)
    (sparams : SendParams) (portno : Int) (st : NodeState Table Queue) :
    Outcome Frame Table Queue :=
  let dest := TableOps.getREntry cfg.staleParam env.destTime sparams.destip
    sparams.routeDiscFlag st.table
  let deleted := if dest.deleted then [sparams.destip] else []
  let st := { st with table := dest.table }
  match dest.entry.bind (TableOps.entryAt dest.table) with
  | none =>
      -- the request is flooded first, and the message queued only if that went well
      let st := { st with counter := st.counter.next }
      let r := sendRawFrames env cfg.selfIp 0
        (sendReqBroadcast cfg.hwa (-1) st.counter.value portno sparams.destport 0
          sparams.routeDiscFlag sparams.destip cfg.selfIp sparams.msg false)
      match r.2 with
      | some exit => { node := st, sent := r.1, events := [], deleted := deleted, exit := exit }
      | none =>
          let st := { st with counter := st.counter.next }
          let odrframe : Frame := queuedFrame st.counter.value portno cfg.selfIp sparams
          { node := { st with
              pending := QueueOps.insertPendingQueue odrframe sparams.destip st.pending }
            sent := r.1
            events := []
            deleted := deleted
            exit := .returned 1 }
  | some route =>
      match sendDataMessage cfg.hwa cfg.selfIp portno sparams route with
      | .error exit => { node := st, sent := [], events := [], deleted := deleted, exit := exit }
      | .ok plan =>
          let r := sendRawFrames env cfg.selfIp 0 plan
          { node := st
            sent := r.1
            events := []
            deleted := deleted
            exit := r.2.getD (.returned 1) }

/-- The message of a request, as its frame carries it. -/
def SendParams.message (sparams : SendParams) (selfIp : Ip) (portno : Int) : AppMsg where
  srcIp := selfIp
  destIp := sparams.destip
  srcPort := portno
  dstPort := sparams.destport
  payload := sparams.msg

/-- `handle_peer_msg` for a destination on this node.  An unknown port fails the
assertion on `peer_entry`. -/
def handleLocalMsg (cfg : Config) (env : Env) (sparams : SendParams) (portno : Int)
    (st : NodeState Table Queue) : Outcome Frame Table Queue :=
  match fetchEntryPort sparams.destport st.ports with
  | none => { node := st, sent := [], events := [], deleted := [], exit := .aborted }
  | some peerEntry =>
      let event := sendToPeerProcess env peerEntry.sunPath (sparams.message cfg.selfIp portno)
      { node := st
        sent := []
        events := [event]
        deleted := []
        exit := .returned (if env.peerOk then 1 else -1) }

/-- `handle_peer_msg`. -/
def handlePeerMsg [TableOps Table Ptr] [QueueOps Queue Frame] (cfg : Config) (env : Env)
    (sparams : SendParams) (st : NodeState Table Queue) : Outcome Frame Table Queue :=
  match fetchEntryPath sparams.filename st.ports st.nextPortno with
  | none => { node := st, sent := [], events := [], deleted := [], exit := .returned (-1) }
  | some (mapEntry, ports, nextPortno) =>
      let st := { st with ports := ports, nextPortno := nextPortno }
      if env.resolves cfg.selfIp && env.resolves sparams.destip then
        if cfg.selfIp = sparams.destip then handleLocalMsg cfg env sparams mapEntry.portno st
        else handleRemoteMsg cfg env sparams mapEntry.portno st
      else { node := st, sent := [], events := [], deleted := [], exit := .aborted }

end OnDemandRouting.Model
