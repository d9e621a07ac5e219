import OnDemandRouting.Lib.Stdio
import OnDemandRouting.Model.PeerMsg
import OnDemandRouting.Model.Wire

/-!
# The text between applications and the daemon

The two formats on the Unix-domain socket: `msg_send` prints a request that
`get_send_params` scans, and `send_to_peer_process` prints a message that `msg_recv`
scans.  A conversion that `sscanf` leaves unassigned is a failure.  The text buffers are
not bounded here.
-/

namespace OnDemandRouting.Model

open OnDemandRouting.Lib

/-- The characters that the scanset `[^',']` accepts: all but the comma and the quote. -/
def notSeparator (c : Char) : Bool := c != ',' && c != '\x27'

/-- The text that `msg_send` sends to the daemon. -/
def msgSend (destip : Ip) (destport : Int) (msg : String) (routeDiscFlag : Int)
    (tempfile : String) : String :=
  String.ofList (destip.toList ++ ',' :: (formatInt destport ++ ',' ::
    (msg.toList ++ ',' :: (tempfile.toList ++ ',' :: (formatInt routeDiscFlag ++ ['\n'])))))

/-- The format of `get_send_params`. -/
def sendFormat : List Directive :=
  [.set notSeparator, .literal ',', .set notSeparator, .literal ',', .set notSeparator,
    .literal ',', .set notSeparator, .literal ',', .word]

/-- `get_send_params`. -/
def getSendParams (str : String) : Option SendParams :=
  match sscanf sendFormat str.toList with
  | [dstip, dstport, msg, filename, flag] =>
      some { destip := String.ofList dstip
             filename := String.ofList filename
             msg := String.ofList msg
             destport := atoi dstport
             routeDiscFlag := atoi flag }
  | _ => none

/-- The text that `send_to_peer_process` sends to an application. -/
def peerSequence (srcIp : Ip) (srcPort : Int) (payload : String) : String :=
  String.ofList (srcIp.toList ++ ',' :: (formatInt srcPort ++ ',' ::
    (payload.toList ++ ',' :: (formatInt 0 ++ ['\n']))))

/-- `msg_params_t`. -/
structure MsgParams where
  msg : String
  cliIp : Ip
  port : Int
  deriving DecidableEq

/-- The format of `msg_recv`. -/
def recvFormat : List Directive :=
  [.set notSeparator, .literal ',', .set notSeparator, .literal ',', .set notSeparator,
    .literal ',', .word]

/-- `msg_recv`. -/
def msgRecv (buff : String) : Option MsgParams :=
  match sscanf recvFormat buff.toList with
  | [ip, port, msg, _] =>
      some { msg := String.ofList msg, cliIp := String.ofList ip, port := atoi port }
  | _ => none

/-! ## From application to application -/

/-- What the application reads when a message reaches its socket. -/
def PeerEvent.received : PeerEvent → Option MsgParams
  | .sentTo _ msg => msgRecv (peerSequence msg.srcIp msg.srcPort msg.payload)
  | _ => none

/-- What becomes of a text that an application sends to the daemon of its own node: the
daemon scans it and serves the request, and the addressed application scans what comes. -/
def localPath (cfg : Config) (env : Env) (st : NodeState) (str : String) : Option MsgParams :=
  match getSendParams str with
  | none => none
  | some sparams =>
      match (handlePeerMsg cfg env sparams st).events with
      | [event] => event.received
      | _ => none

/-- What surrounds a DATA frame on its way: the fields that the message does not
determine, the hardware addresses, and the buffer `send_raw_frame` allocates. -/
structure Carriage where
  broadcastId : Int
  hopCount : Int
  routeDiscFlag : Int
  srcMac : Mac
  destMac : Mac
  buffer : List UInt8

/-- The DATA frame of a request as the destination reads it from the wire. -/
def carry (via : Carriage) (selfIp : Ip) (portno : Int) (sparams : SendParams) : OdrFrame :=
  Wire.odrFrameAt (Wire.processRecvdFrame (Wire.sendRawFrame via.buffer via.srcMac via.destMac
    (Wire.constructOdr FrameType.data.toInt via.broadcastId via.hopCount payloadSize
      via.routeDiscFlag portno sparams.destport (Wire.bytes sparams.destip)
      (Wire.bytes selfIp) (Wire.bytes sparams.msg))))

/-- What becomes of a text that an application sends to its daemon when the message goes to
another node, whose port map is `destPorts`. -/
def remotePath (cfg : Config) (env : Env) (st : NodeState) (via : Carriage)
    (destPorts : List MapPortSp) (str : String) : Option MsgParams :=
  match getSendParams str with
  | none => none
  | some sparams =>
      match fetchEntryPath sparams.filename st.ports st.nextPortno with
      | none => none
      | some (mapEntry, _, _) =>
          (processDataMessage env destPorts
            (carry via cfg.selfIp mapEntry.portno sparams)).received

end OnDemandRouting.Model
