import Mathlib.Data.Fintype.Basic
import OnDemandRouting.Model.Network
import OnDemandRouting.Model.Text

/-!
# The two applications

The loops of `client_and.c` and `server_and.c` on top of the network of daemons.  Every
node has its daemon and its server; clients run wherever a user has started them.  All
of them talk in datagrams over Unix-domain sockets: `procpathfile` is the daemon's,
`servpathfile` the server's, and every client binds a file of its own.

The client prompts for a host, sends, and waits for whatever comes first.  Five seconds
later SIGALRM takes it back to the send, this time with the route discovery flag; the
alarm is not set again.  The signal also does so if it comes when the reply has been read
but the alarm not yet switched off.

`alarms` and `printed` record the history of a run.
-/

namespace OnDemandRouting.Model

/-! ## Texts -/

/-- What `ctime` reads of a broken-down time. -/
structure Tm where
  wday : Fin 7
  mon : Fin 12
  mday : Nat
  hour : Nat
  min : Nat
  sec : Nat
  year : Nat

def Tm.dayName (tm : Tm) : List Char :=
  (["Sun", "Mon", "Tue", "Wed", "Thu", "Fri", "Sat"].get tm.wday).toList

def Tm.monthName (tm : Tm) : List Char :=
  (["Jan", "Feb", "Mar", "Apr", "May", "Jun", "Jul", "Aug", "Sep", "Oct", "Nov",
    "Dec"].get tm.mon).toList

/-- `ctime`, whose format is `"%.3s %.3s%3d %.2d:%.2d:%.2d %d\n"`. -/
def ctime (tm : Tm) : List Char :=
  tm.dayName ++ ' ' :: (tm.monthName ++ (Nat.toDigits 10 tm.mday).leftpad 3 ' ' ++
    ' ' :: ((Nat.toDigits 10 tm.hour).leftpad 2 '0' ++
    ':' :: ((Nat.toDigits 10 tm.min).leftpad 2 '0' ++
    ':' :: ((Nat.toDigits 10 tm.sec).leftpad 2 '0' ++
    ' ' :: (Nat.toDigits 10 tm.year ++ ['\n'])))))

/-- The text of a server: the first 24 characters of the time. -/
def timeMsg (ticks : Tm) : String := String.ofList ((ctime ticks).take 24 ++ ['\r', '\n'])

/-- The text of a client. -/
def helloMsg : String := "hello world"

/-! ## State -/

/-- Where a client is in its loop.  `armed` says that the alarm is set. -/
inductive ClientState
  | prompt
  | waiting (servVm : String) (canonIp : Ip) (armed : Bool)
  | replied (servVm : String) (canonIp : Ip) (armed : Bool) (mparams : MsgParams)
  | exited
  deriving DecidableEq

/-- Which clients there are: the node each runs on and the file it binds.  `canonicalIp` is
`get_canonical_ip`. -/
structure Site (Node Client : Type) where
  home : Client → Node
  tempfile : Client → String
  canonicalIp : String → Option Ip

/-- The network with its applications: the datagrams that wait at each socket, in order,
and the state of every client.  A server keeps nothing between two messages. -/
structure AppNet (Node Client : Type) where
  net : Net Node
  procSock : Node → List String
  servSock : Node → List String
  cliSock : Client → List String
  clients : Client → ClientState
  alarms : Client → Nat
  printed : List (Client × String × MsgParams)

/-- Everything just started. -/
def AppNet.initial (Node Client : Type) : AppNet Node Client where
  net := .initial Node
  procSock := fun _ => []
  servSock := fun _ => []
  cliSock := fun _ => []
  clients := fun _ => .prompt
  alarms := fun _ => 0
  printed := []

/-- A step of a client, a server or a daemon.  `deliver k` is the receipt of the `k`-th copy
in flight. -/
inductive AppAction (Node Client : Type)
  | enter (c : Client) (servVm : String)
  | sigalrm (c : Client)
  | recv (c : Client)
  | print (c : Client)
  | serve (n : Node) (ticks : Tm)
  | request (n : Node) (env : Env)
  | deliver (k : Nat) (env : Env)

namespace AppNet

variable {Node Client : Type} [DecidableEq Node] [DecidableEq Client]

/-- `sendto` to the daemon of `n`.  It fails if the daemon is gone, and the application goes
on. -/
def sendToProc (s : AppNet Node Client) (n : Node) (text : String) : AppNet Node Client :=
  if s.net.alive n then
    { s with procSock := Function.update s.procSock n (s.procSock n ++ [text]) }
  else s

def setClient (s : AppNet Node Client) (c : Client) (st : ClientState) : AppNet Node Client :=
  { s with clients := Function.update s.clients c st }

end AppNet

namespace Site

variable {Node Client : Type} [DecidableEq Node] [DecidableEq Client] [Fintype Client]
  (site : Site Node Client) (T : Topology Node)

/-- Somebody on `n` has bound the path. -/
def bound (s : AppNet Node Client) (n : Node) (sunPath : String) : Bool :=
  decide (sunPath = unixServPath) ||
    decide (∃ c, site.home c = n ∧ site.tempfile c = sunPath ∧ s.clients c ≠ .exited)

/-- `send_to_peer_process` succeeds if the path is bound. -/
def reach (s : AppNet Node Client) (n : Node) : PeerEvent → Bool
  | .sentTo sunPath _ => site.bound s n sunPath
  | _ => true

/-- The environment of a call of the daemon of `n` whose datagrams reach bound paths only. -/
def withSockets (s : AppNet Node Client) (n : Node) (call : Env → Outcome) (env : Env) : Env :=
  { env with peerOk := (call { env with peerOk := true }).events.all (site.reach s n) }

/-- A datagram of the daemon of `n` comes to the socket bound to its path. -/
def hand (n : Node) (s : AppNet Node Client) : PeerEvent → AppNet Node Client
  | .sentTo sunPath msg =>
      let text := peerSequence msg.srcIp msg.srcPort msg.payload
      { s with
        servSock := if sunPath = unixServPath then
            Function.update s.servSock n (s.servSock n ++ [text])
          else s.servSock
        cliSock := fun c =>
          if site.home c = n ∧ site.tempfile c = sunPath then s.cliSock c ++ [text]
          else s.cliSock c }
  | _ => s

/-- The request a client sends; `flag` is 1 after the alarm. -/
def hello (c : Client) (canonIp : Ip) (flag : Int) : String :=
  msgSend canonIp servPort helloMsg flag (site.tempfile c)

/-- The user enters a host name at the prompt. -/
def enter (s : AppNet Node Client) (c : Client) (servVm : String) : AppNet Node Client :=
  if servVm = "exit" then s.setClient c .exited
  else
    match site.canonicalIp servVm with
    | none => s
    | some canonIp =>
        (s.setClient c (.waiting servVm canonIp true)).sendToProc (site.home c)
          (site.hello c canonIp 0)

/-- SIGALRM: back to the send. -/
def resend (s : AppNet Node Client) (c : Client) (servVm : String) (canonIp : Ip) :
    AppNet Node Client :=
  (s.setClient c (.waiting servVm canonIp false)).sendToProc (site.home c)
    (site.hello c canonIp 1)

/-- The daemon of `n` scans and serves a request. -/
def takeText (s : AppNet Node Client) (n : Node) (text : String) (env : Env) :
    Option (AppNet Node Client) :=
  match getSendParams text with
  | none => none
  | some sparams =>
      let call := fun env => handlePeerMsg (T.cfg n) env sparams (s.net.nodes n)
      let env := site.withSockets s n call env
      (T.step s.net (.request n sparams env)).map fun net =>
        (call env).events.foldl (site.hand n) { s with net := net }

/-- The daemon at the end of a segment takes in a frame. -/
def takeFrame (s : AppNet Node Client) (k : Nat) (p : Packet Node) (env : Env) :
    Option (AppNet Node Client) :=
  let call := fun env =>
    handleEthernetMsg (T.cfg p.dst) env p.ifIndex p.srcMac p.frame (s.net.nodes p.dst)
  let env := site.withSockets s p.dst call env
  (T.step s.net (.deliver k env)).map fun net =>
    (call env).events.foldl (site.hand p.dst) { s with net := net }

/-- One step.  A text that does not scan would leave the variables of the caller as they
were; no step is defined then. -/
def step (s : AppNet Node Client) : AppAction Node Client → Option (AppNet Node Client)
  | .enter c servVm =>
      match s.clients c with
      | .prompt => some (site.enter s c servVm)
      | _ => none
  | .sigalrm c =>
      match s.clients c with
      | .waiting servVm canonIp true =>
          some (site.resend { s with alarms := Function.update s.alarms c (s.alarms c + 1) }
            c servVm canonIp)
      | .replied servVm canonIp true _ => some (site.resend s c servVm canonIp)
      | _ => none
  | .recv c =>
      match s.clients c, s.cliSock c with
      | .waiting servVm canonIp armed, buff :: rest =>
          (msgRecv buff).map fun mparams =>
            { s with cliSock := Function.update s.cliSock c rest }.setClient c
              (.replied servVm canonIp armed mparams)
      | _, _ => none
  | .print c =>
      match s.clients c with
      | .replied servVm _ _ mparams =>
          some ({ s with printed := s.printed ++ [(c, servVm, mparams)] }.setClient c .prompt)
      | _ => none
  | .serve n ticks =>
      match s.servSock n with
      | [] => none
      | buff :: rest =>
          (msgRecv buff).map fun mparams =>
            { s with servSock := Function.update s.servSock n rest }.sendToProc n
              (msgSend mparams.cliIp mparams.port (timeMsg ticks) 0 unixServPath)
  | .request n env =>
      match s.procSock n with
      | [] => none
      | text :: rest =>
          site.takeText T { s with procSock := Function.update s.procSock n rest } n text env
  | .deliver k env =>
      match s.net.flight[k]? with
      | none => none
      | some p => site.takeFrame T s k p env

end Site

end OnDemandRouting.Model
