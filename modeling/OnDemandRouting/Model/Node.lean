import OnDemandRouting.Model.Interfaces
import OnDemandRouting.Model.RoutingTable

/-!
# State of one daemon

The globals of the daemon (routing table, pending queue, port map and the two
static counters) and what a call of a handler sees of the outside: clock
readings, name lookups and the outcome of its `sendto` calls.
-/

namespace OnDemandRouting.Model

open OnDemandRouting.Lib

/-! ## Broadcast ids -/

/-- The static variable of `get_broadcast_id`.  It starts at 10 and only grows. -/
structure BroadcastCounter where
  value : Int
  ten_le : 10 ≤ value

/-- The counter before the first call. -/
def BroadcastCounter.initial : BroadcastCounter := ⟨10, by decide⟩

/-- `get_broadcast_id` leaves the counter at the value it returns. -/
def BroadcastCounter.next (c : BroadcastCounter) : BroadcastCounter :=
  ⟨c.value + 1, by have := c.ten_le; omega⟩

@[simp] theorem BroadcastCounter.next_value (c : BroadcastCounter) :
    c.next.value = c.value + 1 := rfl

/-! ## Pending queue -/

/-- `pending_msgs_t` without its links; the frame is in host order. -/
structure PendingMsg (Frame : Type := OdrFrame) where
  destip : Ip
  odrframe : Frame
  deriving DecidableEq

/-- `insert_pending_queue`: in front. -/
def insertPendingQueue (odrframe : OdrFrame) (ip : Ip) (queue : List PendingMsg) :
    List PendingMsg :=
  { destip := ip, odrframe := odrframe } :: queue

/-- `lookup_pending_queue`: the first frame for `destip` is unlinked and returned. -/
def lookupPendingQueue (destip : Ip) (queue : List PendingMsg) :
    Option (OdrFrame × List PendingMsg) :=
  match findKey PendingMsg.destip destip queue with
  | none => none
  | some curr => some (curr.odrframe, eraseKey PendingMsg.destip destip queue)

/-- The operations of the daemon on its pending queue. -/
class QueueOps (Queue : Type) (Frame : outParam Type) where
  /-- `insert_pending_queue`. -/
  insertPendingQueue : Frame → Ip → Queue → Queue
  /-- `lookup_pending_queue`: the frame it returns and the queue it leaves. -/
  lookupPendingQueue : Ip → Queue → Option (Frame × Queue)

instance : QueueOps (List PendingMsg) OdrFrame where
  insertPendingQueue := insertPendingQueue
  lookupPendingQueue := lookupPendingQueue

@[simp] theorem insertPendingQueue_list (f : OdrFrame) (ip : Ip) (queue : List PendingMsg) :
    QueueOps.insertPendingQueue f ip queue = insertPendingQueue f ip queue := rfl

@[simp] theorem lookupPendingQueue_list (ip : Ip) (queue : List PendingMsg) :
    QueueOps.lookupPendingQueue ip queue = lookupPendingQueue ip queue := rfl

/-! ## Port map -/

/-- `map_port_sp_t`; its time stamp is never read. -/
structure MapPortSp where
  portno : Int
  sunPath : String
  deriving DecidableEq

/-- `insert_map_port_sp`. -/
def insertMapPortSp (portno : Int) (path : String) (ports : List MapPortSp) :
    List MapPortSp :=
  { portno := portno, sunPath := path } :: ports

/-- `fetch_entry_port`. -/
def fetchEntryPort (portno : Int) (ports : List MapPortSp) : Option MapPortSp :=
  findKey MapPortSp.portno portno ports

/-- `fetch_entry_path` with the counter of `get_next_portno`: an unknown path is
registered under the next port.  On an empty table it returns `NULL`. -/
def fetchEntryPath (sunPath : String) (ports : List MapPortSp) (nextPortno : Int) :
    Option (MapPortSp × List MapPortSp × Int) :=
  if ports = [] then none
  else
    match findKey MapPortSp.sunPath sunPath ports with
    | some curr => some (curr, ports, nextPortno)
    | none =>
        let entry : MapPortSp := { portno := nextPortno, sunPath := sunPath }
        some (entry, entry :: ports, nextPortno + 1)

/-- `__UNIX_SERV_PATH`. -/
def unixServPath : String := "servpathfile"

/-! ## The state -/

/-- The globals of one daemon. -/
structure NodeState (Table : Type := List REntry) (Queue : Type := List PendingMsg) where
  table : Table
  pending : Queue
  counter : BroadcastCounter
  ports : List MapPortSp
  nextPortno : Int

/-- The state in which `main` enters its loop. -/
def NodeState.initial : NodeState where
  table := []
  pending := []
  counter := .initial
  ports := insertMapPortSp servPort unixServPath []
  nextPortno := 909

/-- What one handler call reads from outside: the `gettimeofday` readings of its
destination lookup, its source lookup and its update, which addresses
`gethostbyaddr` can name, and which of its `sendto` calls succeed. -/
structure Env where
  destTime : Int
  srcTime : Int
  updateTime : Int
  resolves : Ip → Bool
  sendOk : Nat → Bool
  peerOk : Bool

/-- Every name lookup of the call succeeds, and every frame gets onto the wire. -/
structure Env.LinksUp (env : Env) : Prop where
  resolves : ∀ ip, env.resolves ip = true
  sendOk : ∀ k, env.sendOk k = true

/-- So does the datagram to an application, if the call sends one. -/
structure Env.Succeeds (env : Env) : Prop extends Env.LinksUp env where
  peerOk : env.peerOk = true

/-- A call at time `now` in which everything succeeds. -/
def Env.reliable (now : Int) : Env where
  destTime := now
  srcTime := now
  updateTime := now
  resolves := fun _ => true
  sendOk := fun _ => true
  peerOk := true

theorem Env.reliable_linksUp (now : Int) : (Env.reliable now).LinksUp :=
  ⟨fun _ => rfl, fun _ => rfl⟩

theorem Env.reliable_succeeds (now : Int) : (Env.reliable now).Succeeds :=
  ⟨Env.reliable_linksUp now, rfl⟩

/-- How a handler call ends: it returns to `main`, or an assertion fails. -/
inductive Exit
  | returned (result : Int)
  | aborted
  deriving DecidableEq

/-- `main` stays in its loop unless the result is negative. -/
def Exit.survives : Exit → Bool
  | .returned result => decide (0 ≤ result)
  | .aborted => false

/-- An application message. -/
structure AppMsg where
  srcIp : Ip
  destIp : Ip
  srcPort : Int
  dstPort : Int
  payload : String
  deriving DecidableEq

/-- `send_params_t`. -/
structure SendParams where
  destip : Ip
  filename : String
  msg : String
  destport : Int
  routeDiscFlag : Int
  deriving DecidableEq

/-- What happens to a message at the Unix-domain socket of its destination. -/
inductive PeerEvent
  | sentTo (sunPath : String) (msg : AppMsg)
  | sendFailed (sunPath : String) (msg : AppMsg)
  | noSunPath (msg : AppMsg)
  deriving DecidableEq

/-- One `send_raw_frame` call: interface index, the two hardware addresses of the
Ethernet header, and the frame in network order. -/
structure Transmission (Frame : Type := OdrFrame) where
  intIndex : Int
  srcMac : Mac
  destMac : Mac
  frame : Frame
  deriving DecidableEq

/-- The frame a receiver of the transmission reads. -/
def Transmission.host [R : FrameOps OdrFrame] (t : Transmission) : OdrFrame :=
  R.processRecvdFrame t.frame

/-- Result of a handler call.  `sent` holds the frames that left, in order, and
`deleted` the addresses whose entry a lookup unlinked. -/
structure Outcome (Frame : Type := OdrFrame) (Table : Type := List REntry)
    (Queue : Type := List PendingMsg) where
  node : NodeState Table Queue
  sent : List (Transmission Frame)
  events : List PeerEvent
  deleted : List Ip
  exit : Exit

end OnDemandRouting.Model
