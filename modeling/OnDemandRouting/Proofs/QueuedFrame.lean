import OnDemandRouting.Proofs.Rediscovery

/-!
# A message that waited for its route

A message with a route is sent by `send_data_message`, and one without is queued by
`handle_peer_msg` and sent when the reply comes.  The two calls of `construct_odr` differ
in their second and third arguments: the first passes the broadcast id of the route and
the hop count 0, the second passes 0 and a fresh broadcast id.  So a message that waited
leaves with that id for its hop count.
-/

namespace OnDemandRouting.Proofs

open OnDemandRouting.Lib
open OnDemandRouting.Model

/-- The frames agree in all that concerns the message and its way. -/
structure SameMessage (f g : OdrFrame) : Prop where
  frameType : f.frameType = g.frameType
  hopCount : f.hopCount = g.hopCount
  payloadLen : f.payloadLen = g.payloadLen
  srcPort : f.srcPort = g.srcPort
  dstPort : f.dstPort = g.dstPort
  destIp : f.destIp = g.destIp
  srcIp : f.srcIp = g.srcIp
  payload : f.payload = g.payload

/-- A receiver without an entry for the sender of the frame records it at `hops` hops. -/
def FirstRecords (t : Transmission) (hops : Int) : Prop :=
  ∀ cfg env intfN addr st, route st.table t.host.srcIp = none → Processed env t.host st .data →
    ∃ e, route (handleEthernetMsg cfg env intfN addr t.frame st).node.table t.host.srcIp = some e ∧
      e.noHops = hops

/-- The frame `t` of a message that waited is as good as the frame `t'` sent directly. -/
structure AsDirect (t t' : Transmission) : Prop where
  same : SameMessage t.host t'.host
  zero : t.host.hopCount = 0 ∧ t'.host.hopCount = 0
  recorded : FirstRecords t 1 ∧ FirstRecords t' 1

/-- The call puts the message of the request into the pending queue, as `q`. -/
def Queues (cfg : Config) (env : Env) (sparams : SendParams) (st : NodeState) (q : PendingMsg) :
    Prop :=
  (handlePeerMsg cfg env sparams st).node.pending = q :: st.pending

/-- A reply for this node releases `q`, and `t` is sent. -/
structure Releases (cfg : Config) (env : Env) (intfN : Int) (addr : Mac) (buf : OdrFrame)
    (st : NodeState) (q : PendingMsg) (t : Transmission) : Prop where
  type : (processRecvdFrame buf).frameType = FrameType.rrep.toInt
  dest : (processRecvdFrame buf).destIp = cfg.selfIp
  first : findKey PendingMsg.destip (processRecvdFrame buf).srcIp st.pending = some q
  sent : t ∈ (handleEthernetMsg cfg env intfN addr buf st).sent

/-- The frame `send_data_message` sends for the request along some route, when the port of
the sender is `portno`. -/
def SentDirectly (cfg : Config) (sparams : SendParams) (portno : Int) (t : Transmission) : Prop :=
  ∃ e, sendDataMessage cfg.hwa cfg.selfIp portno sparams e = .ok [t]

/-- Whenever the message that the request leaves in the queue is sent in a later state, its
frame is as good as the one sent directly. -/
def WaitsUnchanged (cfg : Config) (env : Env) (sparams : SendParams) (st : NodeState) : Prop :=
  ∀ q h st' env' intfN addr buf t m ports nextPortno t', Queues cfg env sparams st q →
    Trace (nodeStep cfg) (handlePeerMsg cfg env sparams st).node h st' →
    Releases cfg env' intfN addr buf st' q t →
    fetchEntryPath sparams.filename st.ports st.nextPortno = some (m, ports, nextPortno) →
    SentDirectly cfg sparams m.portno t' → AsDirect t t'

/-- What there is between the two frames: the hop count of the one is the broadcast id that
was drawn for it. -/
structure WrongHops (st : NodeState) (t t' : Transmission) : Prop where
  others : SameMessage { t.host with hopCount := 0 } t'.host
  waited : t.host.hopCount = st.counter.value + 2
  direct : t'.host.hopCount = 0
  waitedRecorded : FirstRecords t (st.counter.value + 3)
  directRecorded : FirstRecords t' 1

section Frames

variable {cfg : Config} {env : Env} {sparams : SendParams} {st st' : NodeState} {q : PendingMsg}
  {t t' : Transmission} {intfN : Int} {addr : Mac} {buf : OdrFrame} {portno : Int}

/-- A receiver without an entry inserts one, one hop beyond the hop count of the frame. -/
theorem firstRecords_host (t : Transmission) : FirstRecords t (t.host.hopCount + 1) := by
  intro cfg env intfN addr st hnone hproc
  have hnew : ∀ e ∈ st.table, e.destip = t.host.srcIp → e.broadcastId < t.host.broadcastId :=
    fun e he hkey => absurd hkey (findKey_eq_none_iff.mp hnone e he)
  refine ⟨updateREntry t.host intfN addr env.updateTime, ?_, rfl⟩
  rw [handleEthernetMsg_table hproc, ← (learnedRoute_of_newer hnew).2]
  exact route_learnedRoute_self t.host

/-- What is queued carries the id drawn after that of the flooded request. -/
theorem queuedMsg_of_queues (hq : Queues cfg env sparams st q) :
    ∃ m ports nextPortno,
      fetchEntryPath sparams.filename st.ports st.nextPortno = some (m, ports, nextPortno) ∧
      q = queuedMsg cfg sparams m.portno (st.counter.value + 2) := by
  have hlen : (handlePeerMsg cfg env sparams st).node.pending ≠ st.pending := by
    rw [hq]
    exact List.cons_ne_self q st.pending
  cases handlePeerMsg_call cfg env sparams st with
  | idle _ _ _ _ hpending _ => exact absurd hpending hlen
  | direct _ _ _ _ _ _ _ hpending => exact absurd hpending hlen
  | flooded portno hself _ _ _ _ hqueue =>
      rcases hqueue with ⟨-, -, hpending, -⟩ | ⟨-, hpending, haccepted⟩
      · exact absurd hpending hlen
      · rw [hq] at hpending
        obtain ⟨hmsg, -⟩ := List.cons.inj hpending
        cases hpath : fetchEntryPath sparams.filename st.ports st.nextPortno with
        | none => simp [acceptedMsg, hpath] at haccepted
        | some r =>
            obtain ⟨m, ports, nextPortno⟩ := r
            refine ⟨m, ports, nextPortno, rfl, ?_⟩
            rw [acceptedMsg_of_remote hself hpath] at haccepted
            split_ifs at haccepted
            have hport := congrArg AppMsg.srcPort (List.cons.inj haccepted).1
            rw [hmsg, show m.portno = portno from hport]

/-- A DATA frame leaves the queue as it stands there. -/
theorem Releases.host_eq (hr : Releases cfg env intfN addr buf st q t)
    (hdata : q.odrframe.frameType = FrameType.data.toInt) : t.host = q.odrframe := by
  obtain ⟨type, hproc, -, hsends⟩ := handleEthernetMsg_sends hr.sent
  have htype := hproc.type_eq
  rw [hr.type, FrameType.ofInt_toInt] at htype
  obtain rfl := Option.some.inj htype
  cases hsends with
  | relay _ hin => simp at hin
  | forwardRrep hself => exact absurd hr.dest hself
  | request _ hself => exact absurd hr.dest hself
  | releaseRrep _ hq htype =>
      obtain rfl := Option.some.inj (hr.first.symm.trans hq)
      rw [hdata, FrameType.ofInt_toInt] at htype
      exact absurd htype (by simp)
  | releaseData _ hq _ _ hhost =>
      obtain rfl := Option.some.inj (hr.first.symm.trans hq)
      exact hhost

theorem SentDirectly.host_eq (hd : SentDirectly cfg sparams portno t) :
    ∃ bid, t.host = dataFrame bid 0 sparams.routeDiscFlag portno sparams.destport sparams.destip
      cfg.selfIp sparams.msg := by
  obtain ⟨e, hplan⟩ := hd
  exact ⟨e.broadcastId, (mem_sendDataMessage hplan (List.mem_singleton_self t)).2⟩

/-- The message waited as a DATA frame with the drawn id for its hop count. -/
theorem wrongHops_of_releases (hr : Releases cfg env intfN addr buf st'
      (queuedMsg cfg sparams portno (st.counter.value + 2)) t)
    (hd : SentDirectly cfg sparams portno t') : WrongHops st t t' := by
  have hhost := hr.host_eq rfl
  obtain ⟨bid, hhost'⟩ := hd.host_eq
  have hhops : t.host.hopCount = st.counter.value + 2 := by rw [hhost]; rfl
  have hhops' : t'.host.hopCount = 0 := by rw [hhost']; rfl
  refine ⟨?_, hhops, hhops', ?_, ?_⟩
  · rw [hhost, hhost']
    exact ⟨rfl, rfl, rfl, rfl, rfl, rfl, rfl, rfl⟩
  · have hrecords := firstRecords_host t
    rw [hhops] at hrecords
    have hthree : st.counter.value + 2 + 1 = st.counter.value + 3 := by omega
    rwa [hthree] at hrecords
  · have hrecords := firstRecords_host t'
    rwa [hhops'] at hrecords

theorem WrongHops.not_asDirect (hw : WrongHops st t t') : ¬ AsDirect t t' := by
  intro hdirect
  have hwaited := hw.waited
  have hten := st.counter.ten_le
  rw [hdirect.zero.1] at hwaited
  omega

/-! ## The reply may come -/

theorem exists_newer (table : List REntry) : ∃ bid, ∀ e ∈ table, e.broadcastId < bid := by
  induction table with
  | nil => exact ⟨0, by simp⟩
  | cons e table ih =>
      obtain ⟨bid, hbid⟩ := ih
      refine ⟨max bid (e.broadcastId + 1), fun e' he' => ?_⟩
      rcases List.mem_cons.mp he' with rfl | he'
      · omega
      · have := hbid e' he'
        omega

theorem exists_interface (cfg : Config) : ∃ i mac, getHwaddrFromInt i cfg.hwa = some mac := by
  cases hhwa : cfg.hwa with
  | nil =>
      have hself := cfg.self_ip_eq
      rw [hhwa] at hself
      exact absurd hself (by simp [getSelfIp])
  | cons r rest => exact ⟨r.ifIndex, r.ifHaddr, by simp [getHwaddrFromInt]⟩

/-- Whatever the state, a new enough reply on an existing interface releases the first
frame that waits for its source. -/
theorem exists_release (hfirst : findKey PendingMsg.destip q.destip st.pending = some q)
    (hdata : q.odrframe.frameType = FrameType.data.toInt) :
    ∃ env intfN addr buf t, Releases cfg env intfN addr buf st q t := by
  obtain ⟨bid, hbid⟩ := exists_newer st.table
  obtain ⟨i, mac, hmac⟩ := exists_interface cfg
  let buf := constructOdr FrameType.rrep.toInt bid 0 0 0 0 0 cfg.selfIp q.destip ""
  have hf : processRecvdFrame buf = rrepFrame bid 0 0 0 0 cfg.selfIp q.destip :=
    processRecvdFrame_constructOdr ..
  have hproc : Processed (.reliable 0) (processRecvdFrame buf) st .rrep :=
    ⟨by simp [hf, duplicateFilter, rrepFrame], rfl, rfl, by rw [hf]; rfl⟩
  have hentry : (learnedRoute cfg (.reliable 0) i 0 (processRecvdFrame buf) st).entry =
      updateREntry (processRecvdFrame buf) i 0 0 := by
    refine (learnedRoute_of_newer fun e he _ => ?_).2
    rw [hf]
    exact hbid e he
  let t : Transmission :=
    { intIndex := i, srcMac := mac, destMac := 0, frame := convertHostNetOrder q.odrframe }
  have hdest : (processRecvdFrame buf).destIp = cfg.selfIp := by rw [hf]; rfl
  have hsrc : (processRecvdFrame buf).srcIp = q.destip := by rw [hf]; rfl
  refine ⟨.reliable 0, i, 0, buf, t, by rw [hf]; rfl, hdest, by rw [hsrc]; exact hfirst, ?_⟩
  have hplan : (reaction cfg (.reliable 0) i 0 (processRecvdFrame buf) st .rrep).plan =
      .ok [t] := by
    simp only [reaction, react, handleRrep, fields_odrFrame, if_pos hdest,
      lookupPendingQueue_list, lookupPendingQueue, hsrc, hfirst]
    rw [releaseFrame, fields_odrFrame, hdata, FrameType.ofInt_toInt]
    simp only [hentry, sendAlong, updateREntry, hmac]
    rfl
  rw [handleEthernetMsg_of_processed hproc,
    Reaction.outcome_sent_of_linksUp (Env.reliable_linksUp 0) hplan]
  exact List.mem_singleton_self t

theorem exists_sentDirectly (cfg : Config) (sparams : SendParams) (portno : Int) :
    ∃ t, SentDirectly cfg sparams portno t := by
  obtain ⟨i, mac, hmac⟩ := exists_interface cfg
  let e : REntry :=
    { destip := sparams.destip
      nextHop := 0
      ifNo := i
      noHops := 1
      broadcastId := 0
      timestamp := 0 }
  have hplan : ∃ t, sendDataMessage cfg.hwa cfg.selfIp portno sparams e = .ok [t] := by
    simp only [sendDataMessage, sendAlong, e, hmac]
    exact ⟨_, rfl⟩
  obtain ⟨t, ht⟩ := hplan
  exact ⟨t, e, ht⟩

end Frames

/-- For no request that has to wait does the frame that leaves in the end agree with the one
sent directly: whenever it leaves, everything but the hop count is the same, and the hop
count is a broadcast id. -/
theorem waiting_message_gets_wrong_hops {cfg : Config} {env : Env} {sparams : SendParams}
    {st : NodeState} {q : PendingMsg} (hq : Queues cfg env sparams st q) :
    ¬ WaitsUnchanged cfg env sparams st ∧
    ∀ st' env' intfN addr buf t m ports nextPortno t',
      Releases cfg env' intfN addr buf st' q t →
      fetchEntryPath sparams.filename st.ports st.nextPortno = some (m, ports, nextPortno) →
      SentDirectly cfg sparams m.portno t' → WrongHops st t t' ∧ ¬ AsDirect t t' := by
  obtain ⟨m, ports, nextPortno, hpath, hmsg⟩ := queuedMsg_of_queues hq
  constructor
  · intro hunchanged
    have hfirst : findKey PendingMsg.destip q.destip
        (handlePeerMsg cfg env sparams st).node.pending = some q := by
      rw [hq]
      exact findKey_cons_self
    obtain ⟨env', intfN, addr, buf, t, hr⟩ :
        ∃ env' intfN addr buf t, Releases cfg env' intfN addr buf
          (handlePeerMsg cfg env sparams st).node q t := exists_release hfirst (by rw [hmsg]; rfl)
    obtain ⟨t', hd⟩ := exists_sentDirectly cfg sparams m.portno
    have hdirect := hunchanged q [] _ env' intfN addr buf t m ports nextPortno t' hq .nil hr
      hpath hd
    rw [hmsg] at hr
    exact (wrongHops_of_releases hr hd).not_asDirect hdirect
  · intro st' env' intfN addr buf t m' ports' nextPortno' t' hr hpath' hd
    obtain rfl : m = m' := congrArg Prod.fst (Option.some.inj (hpath.symm.trans hpath'))
    rw [hmsg] at hr
    have hwrong := wrongHops_of_releases hr hd
    exact ⟨hwrong, hwrong.not_asDirect⟩

/-- The first node of the line, alone. -/
def lineFirst : Config := lineNet.cfg 0

/-- The message of the first node of the line for the last one, as it waits. -/
def lineQueued : PendingMsg := queuedMsg lineFirst (messageFor "10.0.0.3") 909 12

theorem lineQueued_queued :
    Queues lineFirst (.reliable 0) (messageFor "10.0.0.3") .initial lineQueued := by
  rw [Queues]
  decide +kernel

theorem lineQueued_gets_wrong_hops :
    Queues lineFirst (.reliable 0) (messageFor "10.0.0.3") .initial lineQueued ∧
    ¬ WaitsUnchanged lineFirst (.reliable 0) (messageFor "10.0.0.3") .initial :=
  ⟨lineQueued_queued, (waiting_message_gets_wrong_hops lineQueued_queued).1⟩

/-- The state of the first node of the line while its message waits. -/
def lineWaiting : NodeState :=
  (handlePeerMsg lineFirst (.reliable 0) (messageFor "10.0.0.3") .initial).node

/-- The reply of the last node of the line, as the middle node passes it on. -/
def lineReply : OdrFrame :=
  constructOdr FrameType.rrep.toInt 11 1 0 0 servPort 909 "10.0.0.1" "10.0.0.3" ""

/-- The frame in which the reply lets the message go. -/
def lineReleased : Transmission where
  intIndex := 3
  srcMac := (getHwaddrFromInt 3 lineFirst.hwa).getD 0
  destMac := 0
  frame := convertHostNetOrder lineQueued.odrframe

/-- The frame that would have left with a route. -/
def lineSentDirect : Transmission where
  intIndex := 3
  srcMac := (getHwaddrFromInt 3 lineFirst.hwa).getD 0
  destMac := 0
  frame := constructOdr FrameType.data.toInt 11 0 payloadSize 0 909 servPort "10.0.0.3"
    "10.0.0.1" "time?"

/-- The message leaves with hop count 12, and the middle node records its sender, which is
next to it, at 13 hops. -/
theorem released_message_counts_twelve_hops :
    Releases lineFirst (.reliable 0) 3 0 lineReply lineWaiting lineQueued lineReleased ∧
    SentDirectly lineFirst (messageFor "10.0.0.3") 909 lineSentDirect ∧
    lineReleased.host.hopCount = 12 ∧ lineSentDirect.host.hopCount = 0 ∧
    (route (handleEthernetMsg (lineNet.cfg 1) (.reliable 0) 3 0 lineReleased.frame
      .initial).node.table "10.0.0.1").map REntry.noHops = some 13 ∧
    ¬ WaitsUnchanged lineFirst (.reliable 0) (messageFor "10.0.0.3") .initial := by
  have hr : Releases lineFirst (.reliable 0) 3 0 lineReply lineWaiting lineQueued
      lineReleased :=
    ⟨by decide +kernel, by decide +kernel, by decide +kernel, by decide +kernel⟩
  have hd : SentDirectly lineFirst (messageFor "10.0.0.3") 909 lineSentDirect :=
    ⟨⟨"10.0.0.3", 0, 3, 2, 11, 0⟩, rfl⟩
  have hpath : fetchEntryPath (messageFor "10.0.0.3").filename NodeState.initial.ports
      NodeState.initial.nextPortno =
      some (⟨909, "/tmp/client"⟩, ⟨909, "/tmp/client"⟩ :: NodeState.initial.ports, 910) := by
    decide +kernel
  have htwelve : lineReleased.host.hopCount = 12 := by decide +kernel
  refine ⟨hr, hd, htwelve, by decide +kernel, by decide +kernel, fun hunchanged => ?_⟩
  have hdirect := hunchanged lineQueued [] lineWaiting (.reliable 0) 3 0 lineReply lineReleased
    ⟨909, "/tmp/client"⟩ _ _ lineSentDirect lineQueued_queued .nil hr hpath hd
  rw [hdirect.zero.1] at htwelve
  exact absurd htwelve (by decide)

end OnDemandRouting.Proofs
