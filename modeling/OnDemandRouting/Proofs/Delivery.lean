import OnDemandRouting.Model.Text
import OnDemandRouting.Model.Wiring
import OnDemandRouting.Proofs.HandlerSpec

/-!
# Delivery to an application of the node

A message for an application comes from another application of the node, through
`handle_peer_msg`, or in a DATA frame, through `process_data_message`.  Both send the same
text to the same path.  They differ when that fails: a frame whose message cannot be handed
over is dropped, and a request whose message cannot be handed over ends the daemon, by an
assertion if the port is unknown and by the result `-1` if the send fails.
-/

namespace OnDemandRouting.Proofs

open OnDemandRouting.Lib
open OnDemandRouting.Model

/-- The path and the text of a message that went through. -/
def deliveredText : PeerEvent → Option (String × String)
  | .sentTo sunPath msg => some (sunPath, peerSequence msg.srcIp msg.srcPort msg.payload)
  | _ => none

/-- The state in which the sender of the request has a port, and that port. -/
def registered (sparams : SendParams) (st : NodeState) : NodeState × Option Int :=
  match fetchEntryPath sparams.filename st.ports st.nextPortno with
  | none => (st, none)
  | some (mapEntry, ports, nextPortno) =>
      ({ st with ports := ports, nextPortno := nextPortno }, some mapEntry.portno)

/-- The application the message of the request is for. -/
def addressee (sparams : SendParams) (st : NodeState) : Option MapPortSp :=
  fetchEntryPort sparams.destport (registered sparams st).1.ports

/-- A DATA frame to this node with the message of the request, from any sender. -/
structure Carries (cfg : Config) (sparams : SendParams) (f : OdrFrame) : Prop where
  dest : f.destIp = cfg.selfIp
  port : f.dstPort = sparams.destport
  payload : f.payload = sparams.msg

/-- The request with outcome `o` and the frame `f` with outcome `o'` are handed over alike:
the same text, but for the sender that it names, to the path of the port; or nothing, if
the port is unknown or the send fails.  Delivery changes no table, beside the entry of the
sender that each handler makes before, and the daemon goes on. -/
structure DeliversAlike (sparams : SendParams) (cfg : Config) (st : NodeState) (peerOk : Bool)
    (f : OdrFrame) (learned : List REntry) (o o' : Outcome) : Prop where
  sent : ∀ entry, addressee sparams st = some entry → peerOk = true →
    (∃ portno, (registered sparams st).2 = some portno ∧
      o.events.filterMap deliveredText =
        [(entry.sunPath, peerSequence cfg.selfIp portno sparams.msg)]) ∧
    o'.events.filterMap deliveredText =
      [(entry.sunPath, peerSequence f.srcIp f.srcPort sparams.msg)]
  dropped : addressee sparams st = none ∨ peerOk = false →
    o.events.filterMap deliveredText = [] ∧ o'.events.filterMap deliveredText = []
  tables : o.node = (registered sparams st).1 ∧
    o'.node = { (registered sparams st).1 with table := learned }
  runs : o.exit.survives = true ∧ o'.exit.survives = true

section Delivery

variable {cfg : Config} {env : Env} {sparams : SendParams} {st : NodeState}
  {buf : OdrFrame} {entry : MapPortSp}

theorem deliveredText_sendToPeerProcess (sunPath : String) (msg : AppMsg) :
    deliveredText (sendToPeerProcess env sunPath msg) =
      if env.peerOk then some (sunPath, peerSequence msg.srcIp msg.srcPort msg.payload)
      else none := by
  rw [sendToPeerProcess]
  split_ifs <;> rfl

/-! ## The request -/

theorem handlePeerMsg_of_registered {portno : Int} (hself : cfg.selfIp = sparams.destip)
    (hname : env.resolves cfg.selfIp = true) (hport : (registered sparams st).2 = some portno) :
    handlePeerMsg cfg env sparams st =
      handleLocalMsg cfg env sparams portno (registered sparams st).1 := by
  have hdest : env.resolves sparams.destip = true := by rwa [← hself]
  rw [registered] at hport ⊢
  rw [handlePeerMsg]
  cases hpath : fetchEntryPath sparams.filename st.ports st.nextPortno with
  | none => simp [hpath] at hport
  | some r =>
      obtain ⟨mapEntry, ports, nextPortno⟩ := r
      rw [hpath] at hport
      obtain rfl := Option.some.inj hport
      simp [hdest, hself]

/-- Only an empty port map gives the sender no port. -/
theorem fetchEntryPath_of_unregistered (hport : (registered sparams st).2 = none) :
    fetchEntryPath sparams.filename st.ports st.nextPortno = none ∧ st.ports = [] := by
  rw [registered] at hport
  cases hpath : fetchEntryPath sparams.filename st.ports st.nextPortno with
  | some r => simp [hpath] at hport
  | none =>
      refine ⟨rfl, ?_⟩
      by_contra hports
      rw [fetchEntryPath, if_neg hports] at hpath
      split at hpath <;> simp at hpath

theorem addressee_of_unregistered (hport : (registered sparams st).2 = none) :
    addressee sparams st = none := by
  obtain ⟨hpath, hports⟩ := fetchEntryPath_of_unregistered hport
  rw [addressee, registered, hpath]
  simp only [hports]
  rfl

/-- Without an addressee the daemon ends. -/
theorem request_of_unknown_port (hself : cfg.selfIp = sparams.destip)
    (hname : env.resolves cfg.selfIp = true) (hentry : addressee sparams st = none) :
    (handlePeerMsg cfg env sparams st).exit.survives = false := by
  cases hport : (registered sparams st).2 with
  | none =>
      rw [handlePeerMsg, (fetchEntryPath_of_unregistered hport).1]
      rfl
  | some portno =>
      rw [addressee] at hentry
      rw [handlePeerMsg_of_registered hself hname hport, handleLocalMsg, hentry]
      rfl

/-- With an addressee the text is sent, and the result is that of the send. -/
theorem request_of_addressee (hself : cfg.selfIp = sparams.destip)
    (hname : env.resolves cfg.selfIp = true) (hentry : addressee sparams st = some entry) :
    ∃ portno, (registered sparams st).2 = some portno ∧
      handlePeerMsg cfg env sparams st =
        { node := (registered sparams st).1
          sent := []
          events := [sendToPeerProcess env entry.sunPath (sparams.message cfg.selfIp portno)]
          deleted := []
          exit := .returned (if env.peerOk then 1 else -1) } := by
  cases hport : (registered sparams st).2 with
  | none =>
      rw [addressee_of_unregistered hport] at hentry
      exact absurd hentry (by simp)
  | some portno =>
      refine ⟨portno, rfl, ?_⟩
      rw [addressee] at hentry
      rw [handlePeerMsg_of_registered hself hname hport, handleLocalMsg, hentry]

/-! ## The frame -/

/-- A DATA frame for this node never ends the daemon. -/
theorem frame_delivered (intfN : Int) (addr : Mac)
    (hproc : Processed env (processRecvdFrame buf) st .data)
    (hdest : (processRecvdFrame buf).destIp = cfg.selfIp) :
    handleEthernetMsg cfg env intfN addr buf st =
      { node := { st with
          table := (learnedRoute cfg env intfN addr (processRecvdFrame buf) st).table }
        sent := []
        events := [processDataMessage env st.ports (processRecvdFrame buf)]
        deleted := deletedBy cfg env (processRecvdFrame buf) st
        exit := .returned 0 } := by
  rw [handleEthernetMsg_of_processed hproc]
  simp [reaction, react, handleData, hdest, Reaction.outcome, sendRawFrames]

theorem deliveredText_processDataMessage {f : OdrFrame} (hf : Carries cfg sparams f) :
    deliveredText (processDataMessage env (registered sparams st).1.ports f) =
      if env.peerOk then
        (addressee sparams st).map fun entry =>
          (entry.sunPath, peerSequence f.srcIp f.srcPort sparams.msg)
      else none := by
  rw [processDataMessage, hf.port, ← addressee]
  cases addressee sparams st with
  | none => simp [deliveredText]
  | some entry =>
      simp only [deliveredText_sendToPeerProcess, OdrFrame.message, hf.payload]
      rfl

end Delivery

/-- A message for an application of the node is handed over alike on the two ways exactly
if the application's port is known and the send goes through. -/
theorem deliveries_agree_iff {cfg : Config} {env env' : Env} {sparams : SendParams}
    {st : NodeState} {intfN : Int} {addr : Mac} {buf : OdrFrame}
    (hself : cfg.selfIp = sparams.destip) (hname : env.resolves cfg.selfIp = true)
    (hpeer : env'.peerOk = env.peerOk)
    (hproc : Processed env' (processRecvdFrame buf) (registered sparams st).1 .data)
    (hcarries : Carries cfg sparams (processRecvdFrame buf)) :
    DeliversAlike sparams cfg st env.peerOk (processRecvdFrame buf)
      (learnedRoute cfg env' intfN addr (processRecvdFrame buf) (registered sparams st).1).table
      (handlePeerMsg cfg env sparams st)
      (handleEthernetMsg cfg env' intfN addr buf (registered sparams st).1) ↔
    (∃ entry, addressee sparams st = some entry) ∧ env.peerOk = true := by
  have hframe := frame_delivered intfN addr hproc hcarries.dest
  constructor
  · intro halike
    cases hentry : addressee sparams st with
    | none =>
        have hruns := halike.runs.1
        rw [request_of_unknown_port hself hname hentry] at hruns
        exact absurd hruns (by simp)
    | some entry =>
        refine ⟨⟨entry, rfl⟩, ?_⟩
        obtain ⟨portno, -, hrequest⟩ := request_of_addressee hself hname hentry
        have hruns := halike.runs.1
        rw [hrequest] at hruns
        by_contra hfail
        simp [hfail, Exit.survives] at hruns
  · rintro ⟨⟨entry, hentry⟩, hok⟩
    obtain ⟨portno, hport, hrequest⟩ := request_of_addressee hself hname hentry
    rw [hframe, hrequest]
    refine ⟨fun entry' hentry' _ => ?_, fun hfail => ?_, ⟨rfl, rfl⟩, ?_⟩
    · obtain rfl : entry = entry' := Option.some.inj (hentry.symm.trans hentry')
      refine ⟨⟨portno, hport, ?_⟩, ?_⟩
      · simp [deliveredText_sendToPeerProcess, hok, SendParams.message]
      · simp [deliveredText_processDataMessage hcarries, hpeer, hok, hentry]
    · rcases hfail with hnone | hfail
      · exact absurd (hentry.symm.trans hnone) (by simp)
      · exact absurd (hok.symm.trans hfail) (by simp)
    · simp [hok, Exit.survives]

/-- A DATA frame from the second node of the line with the message of a request. -/
def dataFor (sparams : SendParams) : OdrFrame :=
  constructOdr FrameType.data.toInt 11 0 payloadSize 0 909 sparams.destport sparams.destip
    "10.0.0.2" sparams.msg

theorem dataFor_carries {cfg : Config} {sparams : SendParams}
    (hself : cfg.selfIp = sparams.destip) :
    Carries cfg sparams (processRecvdFrame (dataFor sparams)) := by
  rw [dataFor, processRecvdFrame_constructOdr, if_pos rfl]
  exact ⟨hself.symm, rfl, rfl⟩

theorem dataFor_processed {env : Env} (hnames : ∀ ip, env.resolves ip = true)
    (sparams : SendParams) (st : NodeState) :
    Processed env (processRecvdFrame (dataFor sparams)) st .data := by
  rw [dataFor, processRecvdFrame_constructOdr]
  exact ⟨by simp [duplicateFilter], hnames _, hnames _, rfl⟩

/-- The server of the first node of the line gets its messages alike. -/
theorem server_messages_delivered_alike :
    DeliversAlike (messageFor "10.0.0.1") (lineNet.cfg 0) .initial true
      (processRecvdFrame (dataFor (messageFor "10.0.0.1")))
      (learnedRoute (lineNet.cfg 0) (.reliable 0) 3 0
        (processRecvdFrame (dataFor (messageFor "10.0.0.1")))
        (registered (messageFor "10.0.0.1") .initial).1).table
      (handlePeerMsg (lineNet.cfg 0) (.reliable 0) (messageFor "10.0.0.1") .initial)
      (handleEthernetMsg (lineNet.cfg 0) (.reliable 0) 3 0 (dataFor (messageFor "10.0.0.1"))
        (registered (messageFor "10.0.0.1") .initial).1) := by
  have hself : (lineNet.cfg 0).selfIp = (messageFor "10.0.0.1").destip := by decide +kernel
  have hentry : addressee (messageFor "10.0.0.1") .initial = some ⟨servPort, unixServPath⟩ := by
    decide +kernel
  have hname : (Env.reliable 0).resolves (lineNet.cfg 0).selfIp = true := rfl
  have hproc : Processed (.reliable 0) (processRecvdFrame (dataFor (messageFor "10.0.0.1")))
      (registered (messageFor "10.0.0.1") .initial).1 .data := dataFor_processed (fun _ => rfl) _ _
  exact (deliveries_agree_iff hself hname rfl hproc (dataFor_carries hself)).mpr
    ⟨⟨_, hentry⟩, rfl⟩

/-- A message to a port that nobody has. -/
def messageToNobody : SendParams := { messageFor "10.0.0.1" with destport := 9999 }

/-- A call in which the send to the application fails. -/
def peerGone : Env := { Env.reliable 0 with peerOk := false }

/-- A request for an unknown port fails an assertion, and one to an application that has
gone makes the daemon end, while the same message in a frame is dropped. -/
theorem failed_delivery_ends_daemon :
    (handlePeerMsg (lineNet.cfg 0) (.reliable 0) messageToNobody .initial).exit = .aborted ∧
    (handleEthernetMsg (lineNet.cfg 0) (.reliable 0) 3 0 (dataFor messageToNobody)
      (registered messageToNobody .initial).1).exit = .returned 0 ∧
    (∀ learned, ¬ DeliversAlike messageToNobody (lineNet.cfg 0) .initial true
      (processRecvdFrame (dataFor messageToNobody)) learned
      (handlePeerMsg (lineNet.cfg 0) (.reliable 0) messageToNobody .initial)
      (handleEthernetMsg (lineNet.cfg 0) (.reliable 0) 3 0 (dataFor messageToNobody)
        (registered messageToNobody .initial).1)) ∧
    (handlePeerMsg (lineNet.cfg 0) peerGone (messageFor "10.0.0.1") .initial).exit =
      .returned (-1) ∧
    (handleEthernetMsg (lineNet.cfg 0) peerGone 3 0 (dataFor (messageFor "10.0.0.1"))
      (registered (messageFor "10.0.0.1") .initial).1).exit = .returned 0 := by
  have haborted : (handlePeerMsg (lineNet.cfg 0) (.reliable 0) messageToNobody .initial).exit =
      .aborted := by decide +kernel
  refine ⟨haborted, by decide +kernel, fun learned halike => ?_, by decide +kernel,
    by decide +kernel⟩
  have hruns := halike.runs.1
  rw [haborted] at hruns
  exact absurd hruns (by decide)

end OnDemandRouting.Proofs
