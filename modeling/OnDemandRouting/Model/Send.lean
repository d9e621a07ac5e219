import OnDemandRouting.Model.Node

/-!
# The sending functions

`send_raw_frame`, `send_req_broadcast`, `send_rrep_packet`, `send_data_message`
and `send_to_peer_process`.  A function that ends in `send_raw_frame` calls is
modelled by the list of transmissions it hands to it, its *plan*, or by the exit
it takes before the first one; `sendRawFrames` then carries a plan out.  They build frames
with the operations of `FrameOps` and are the same for every kind of frame.
-/

namespace OnDemandRouting.Model

open OnDemandRouting.Lib

variable {Frame : Type}

/-- The transmissions a function hands to `send_raw_frame`, or its early exit. -/
abbrev Plan (Frame : Type := OdrFrame) := Except Exit (List (Transmission Frame))

/-- Carry out `send_raw_frame` calls in order, the first of them being the `k`-th
`sendto` of the handler.  Returned are the frames that left and the exit, if a
call fails: the name lookup for the own address is asserted, and a failed
`sendto` makes the handler return `-1`. -/
def sendRawFrames (env : Env) (selfIp : Ip) :
    Nat → List (Transmission Frame) → List (Transmission Frame) × Option Exit
  | _, [] => ([], none)
  | k, t :: ts =>
      if env.resolves selfIp then
        if env.sendOk k then
          let r := sendRawFrames env selfIp (k + 1) ts
          (t :: r.1, r.2)
        else ([], some (.returned (-1)))
      else ([], some .aborted)

/-- `send_req_broadcast`: one frame per record of the interface list that passes
the test, with the broadcast hardware address. -/
def sendReqBroadcast [R : FrameOps Frame] (hwa : List HwaInfo)
    (recvdIntIndex broadId srcPort dstport hopcount rdiscFlag : Int) (dstip srcip : Ip)
    (payload : String) (asentFlag : Bool) : List (Transmission Frame) :=
  let type := if asentFlag then FrameType.asent.toInt else FrameType.rreq.toInt
  (hwa.filter (floodsOn recvdIntIndex)).map fun curr =>
    { intIndex := curr.ifIndex
      srcMac := curr.ifHaddr
      destMac := broadcastMac
      frame := R.constructOdr type broadId hopcount 0 rdiscFlag srcPort dstport dstip srcip
        payload }

/-- `send_rrep_packet`: with `swap` the two ends are exchanged and the id is the
next one of the own counter.  Without a hardware address for the interface the
assertion of `convert_to_mac` fails. -/
def sendRrepPacket [R : FrameOps Frame] (hwa : List HwaInfo) (frame : OdrFrame) (entry : REntry)
    (hopCount : Int) (swap : Bool) (counter : BroadcastCounter) :
    BroadcastCounter × Plan Frame :=
  let counter' := if swap then counter.next else counter
  let broadid := if swap then counter'.value else frame.broadcastId
  let srcport := if swap then frame.dstPort else frame.srcPort
  let dstport := if swap then frame.srcPort else frame.dstPort
  let srcip := if swap then frame.destIp else frame.srcIp
  let dstip := if swap then frame.srcIp else frame.destIp
  let rrep := R.constructOdr FrameType.rrep.toInt broadid hopCount frame.payloadLen 0 srcport
    dstport dstip srcip frame.payload
  match getHwaddrFromInt entry.ifNo hwa with
  | none => (counter', .error .aborted)
  | some srcMac =>
      (counter', .ok [{ intIndex := entry.ifNo
                        srcMac := srcMac
                        destMac := entry.nextHop
                        frame := rrep }])

/-- The `get_hwaddr_from_int` and `send_raw_frame` calls that put a DATA frame in
network order on a route. -/
def sendAlong (hwa : List HwaInfo) (entry : REntry) (frame : Frame) : Plan Frame :=
  match getHwaddrFromInt entry.ifNo hwa with
  | none => .error (.returned (-1))
  | some srcMac =>
      .ok [{ intIndex := entry.ifNo
             srcMac := srcMac
             destMac := entry.nextHop
             frame := frame }]

/-- `send_data_message`: the frame carries the broadcast id of the route and the
flag of the request. -/
def sendDataMessage [R : FrameOps Frame] (hwa : List HwaInfo) (selfIp : Ip) (srcPort : Int)
    (sparams : SendParams) (entry : REntry) : Plan Frame :=
  sendAlong hwa entry
    (R.constructOdr FrameType.data.toInt entry.broadcastId 0 payloadSize sparams.routeDiscFlag
      srcPort sparams.destport sparams.destip selfIp sparams.msg)

/-- `send_to_peer_process`: whether its `sendto` went through. -/
def sendToPeerProcess (env : Env) (sunPath : String) (msg : AppMsg) : PeerEvent :=
  if env.peerOk then .sentTo sunPath msg else .sendFailed sunPath msg

/-- The application message a DATA frame in host order carries. -/
def OdrFrame.message (f : OdrFrame) : AppMsg where
  srcIp := f.srcIp
  destIp := f.destIp
  srcPort := f.srcPort
  dstPort := f.dstPort
  payload := f.payload

/-- `process_data_message` for a frame addressed to this node. -/
def processDataMessage (env : Env) (ports : List MapPortSp) (odrframe : OdrFrame) : PeerEvent :=
  match fetchEntryPort odrframe.dstPort ports with
  | none => .noSunPath odrframe.message
  | some portSpEntry => sendToPeerProcess env portSpEntry.sunPath odrframe.message

/-! ## What leaves the node -/

variable {env : Env} {selfIp : Ip} {k : Nat} {ts : List (Transmission Frame)}
  {t : Transmission Frame}

theorem mem_of_mem_sendRawFrames (h : t ∈ (sendRawFrames env selfIp k ts).1) : t ∈ ts := by
  induction ts generalizing k with
  | nil => simp [sendRawFrames] at h
  | cons t' ts ih =>
      rw [sendRawFrames] at h
      split_ifs at h with hname hok
      · rcases List.mem_cons.mp h with rfl | h
        · simp
        · exact List.mem_cons_of_mem _ (ih h)
      · simp at h
      · simp at h

theorem sendRawFrames_of_linksUp (henv : env.LinksUp) :
    sendRawFrames env selfIp k ts = (ts, none) := by
  induction ts generalizing k with
  | nil => rfl
  | cons t ts ih => simp [sendRawFrames, henv.resolves, henv.sendOk, ih]

end OnDemandRouting.Model
