import OnDemandRouting.Model.Network

/-!
# What one handler call can do

Every frame that leaves a node is one of a few kinds: a relayed copy of a flood,
an answer to a request, a forwarded or released reply or message, or a request
of its own.  `EthSends` and `PeerSends` list them with the frame a receiver
reads and the way the frame takes.  All later arguments about runs go through
these lists and never unfold a handler again.
-/

namespace OnDemandRouting.Proofs

open OnDemandRouting.Lib
open OnDemandRouting.Model

/-- The transmission follows the routing entry `e`. -/
structure Along (cfg : Config) (e : REntry) (t : Transmission) : Prop where
  index : t.intIndex = e.ifNo
  dest : t.destMac = e.nextHop
  haddr : getHwaddrFromInt e.ifNo cfg.hwa = some t.srcMac

/-- The interface of the entry exists. -/
def HasInterface (cfg : Config) (e : REntry) : Prop :=
  ∃ mac, getHwaddrFromInt e.ifNo cfg.hwa = some mac

/-- The transmission is part of a flood that spares interface `intfN`. -/
structure Flooded (cfg : Config) (intfN : Int) (t : Transmission) : Prop where
  record : ∃ r ∈ cfg.hwa, floodsOn intfN r = true ∧ t.intIndex = r.ifIndex ∧
    t.srcMac = r.ifHaddr
  dest : t.destMac = broadcastMac

/-- A flood frame as its receivers read it. -/
def floodFrame (type : FrameType) (bid hop flag srcPort dstPort : Int) (destIp srcIp : Ip) :
    OdrFrame where
  frameType := type.toInt
  broadcastId := bid
  hopCount := hop
  payloadLen := 0
  routeDiscFlag := flag
  srcPort := srcPort
  dstPort := dstPort
  destIp := destIp
  srcIp := srcIp
  payload := ""

/-- A route reply as its receiver reads it. -/
def rrepFrame (bid hop len srcPort dstPort : Int) (destIp srcIp : Ip) : OdrFrame where
  frameType := FrameType.rrep.toInt
  broadcastId := bid
  hopCount := hop
  payloadLen := len
  routeDiscFlag := 0
  srcPort := srcPort
  dstPort := dstPort
  destIp := destIp
  srcIp := srcIp
  payload := ""

/-- A DATA frame as its receiver reads it. -/
def dataFrame (bid hop flag srcPort dstPort : Int) (destIp srcIp : Ip) (payload : String) :
    OdrFrame where
  frameType := FrameType.data.toInt
  broadcastId := bid
  hopCount := hop
  payloadLen := payloadSize
  routeDiscFlag := flag
  srcPort := srcPort
  dstPort := dstPort
  destIp := destIp
  srcIp := srcIp
  payload := payload

/-- The frames a node sends on receipt of `f`, in state `st` with the source's
route `l` learned and `dest` found for the destination. -/
inductive EthSends (cfg : Config) (intfN : Int) (f : OdrFrame) (l : Learned)
    (dest : Option REntry) (st : NodeState) : FrameType → Transmission → Prop
  | relay {type : FrameType} {t : Transmission} (out : FrameType)
      (hin : type = .rreq ∨ type = .asent) (hout : out = .rreq ∨ out = .asent)
      (hdest : f.destIp ≠ cfg.selfIp ∨ type = .asent)
      (hflag : l.flag = true) (hflood : Flooded cfg intfN t)
      (hhost : t.host = floodFrame out f.broadcastId (f.hopCount + 1) f.routeDiscFlag
        f.srcPort f.dstPort f.destIp f.srcIp)
      (hkind : out = .rreq ∨ type = .asent ∨ dest.isSome = true) :
      EthSends cfg intfN f l dest st type t
  | answerOwn {t : Transmission} (hself : f.destIp = cfg.selfIp)
      (halong : Along cfg l.entry t)
      (hhost : t.host = rrepFrame (st.counter.value + 1) 0 f.payloadLen f.dstPort f.srcPort
        f.srcIp f.destIp) :
      EthSends cfg intfN f l dest st .rreq t
  | answerCached {t : Transmission} {d : REntry} (hself : f.destIp ≠ cfg.selfIp)
      (hd : dest = some d) (halong : Along cfg l.entry t)
      (hhost : t.host = rrepFrame (st.counter.value + 1) d.noHops f.payloadLen f.dstPort
        f.srcPort f.srcIp f.destIp) :
      EthSends cfg intfN f l dest st .rreq t
  | forwardRrep {t : Transmission} {d : REntry} (hself : f.destIp ≠ cfg.selfIp)
      (hd : dest = some d) (halong : Along cfg d t)
      (hhost : t.host = rrepFrame f.broadcastId l.entry.noHops f.payloadLen f.srcPort
        f.dstPort f.destIp f.srcIp) :
      EthSends cfg intfN f l dest st .rrep t
  | releaseRrep {t : Transmission} {q : PendingMsg} (hself : f.destIp = cfg.selfIp)
      (hq : findKey PendingMsg.destip f.srcIp st.pending = some q)
      (htype : FrameType.ofInt q.odrframe.frameType = some .rrep)
      (halong : Along cfg l.entry t)
      (hhost : t.host = rrepFrame q.odrframe.broadcastId q.odrframe.hopCount
        q.odrframe.payloadLen q.odrframe.srcPort q.odrframe.dstPort q.odrframe.destIp
        q.odrframe.srcIp) :
      EthSends cfg intfN f l dest st .rrep t
  | releaseData {t : Transmission} {q : PendingMsg} (hself : f.destIp = cfg.selfIp)
      (hq : findKey PendingMsg.destip f.srcIp st.pending = some q)
      (htype : FrameType.ofInt q.odrframe.frameType = some .data)
      (halong : Along cfg l.entry t) (hhost : t.host = q.odrframe) :
      EthSends cfg intfN f l dest st .rrep t
  | forwardData {t : Transmission} {d : REntry} (hself : f.destIp ≠ cfg.selfIp)
      (hd : dest = some d) (halong : Along cfg d t)
      (hhost : t.host = { f with hopCount := l.entry.noHops }) :
      EthSends cfg intfN f l dest st .data t
  | request {type : FrameType} {t : Transmission} (hin : type = .rrep ∨ type = .data)
      (hself : f.destIp ≠ cfg.selfIp) (hd : dest = none) (hflood : Flooded cfg intfN t)
      (hhost : t.host = floodFrame .rreq (st.counter.value + 1) 0 0 (-1) f.dstPort f.destIp
        cfg.selfIp) :
      EthSends cfg intfN f l dest st type t

/-! ## The sending functions -/

section Sending

variable {cfg : Config} {t : Transmission} {ts : List Transmission}

theorem mem_sendReqBroadcast {intfN broadId srcPort dstport hopcount rdiscFlag : Int}
    {dstip srcip : Ip} {payload : String} {asentFlag : Bool}
    (h : t ∈ sendReqBroadcast cfg.hwa intfN broadId srcPort dstport hopcount rdiscFlag dstip
      srcip payload asentFlag) :
    Flooded cfg intfN t ∧
      t.host = floodFrame (if asentFlag then .asent else .rreq) broadId hopcount rdiscFlag
        srcPort dstport dstip srcip := by
  obtain ⟨r, hr, rfl⟩ := List.mem_map.mp h
  obtain ⟨hmem, hfloods⟩ := List.mem_filter.mp hr
  refine ⟨⟨⟨r, hmem, hfloods, rfl, rfl⟩, rfl⟩, ?_⟩
  cases asentFlag <;>
    simp [Transmission.host, processRecvdFrame_constructOdr, floodFrame, FrameType.toInt]

theorem mem_sendRrepPacket {frame : OdrFrame} {entry : REntry} {hop : Int} {swap : Bool}
    {counter : BroadcastCounter}
    (hplan : (sendRrepPacket cfg.hwa frame entry hop swap counter).2 = .ok ts) (h : t ∈ ts) :
    Along cfg entry t ∧
      t.host =
        if swap then
          rrepFrame (counter.value + 1) hop frame.payloadLen frame.dstPort frame.srcPort
            frame.srcIp frame.destIp
        else
          rrepFrame frame.broadcastId hop frame.payloadLen frame.srcPort frame.dstPort
            frame.destIp frame.srcIp := by
  unfold sendRrepPacket at hplan
  cases hmac : getHwaddrFromInt entry.ifNo cfg.hwa with
  | none => simp [hmac] at hplan
  | some mac =>
      simp only [hmac, Except.ok.injEq] at hplan
      subst hplan
      obtain rfl := List.mem_singleton.mp h
      refine ⟨⟨rfl, rfl, hmac⟩, ?_⟩
      cases swap <;>
        simp [Transmission.host, processRecvdFrame_constructOdr, rrepFrame, FrameType.toInt]

theorem mem_sendAlong {entry : REntry} {frame : OdrFrame}
    (hplan : sendAlong cfg.hwa entry frame = .ok ts) (h : t ∈ ts) :
    Along cfg entry t ∧ t.host = processRecvdFrame frame := by
  unfold sendAlong at hplan
  cases hmac : getHwaddrFromInt entry.ifNo cfg.hwa with
  | none => simp [hmac] at hplan
  | some mac =>
      simp only [hmac, Except.ok.injEq] at hplan
      subst hplan
      obtain rfl := List.mem_singleton.mp h
      exact ⟨⟨rfl, rfl, hmac⟩, rfl⟩

theorem mem_sendDataMessage {portno : Int} {sparams : SendParams} {entry : REntry}
    (hplan : sendDataMessage cfg.hwa cfg.selfIp portno sparams entry = .ok ts) (h : t ∈ ts) :
    Along cfg entry t ∧
      t.host = dataFrame entry.broadcastId 0 sparams.routeDiscFlag portno sparams.destport
        sparams.destip cfg.selfIp sparams.msg := by
  obtain ⟨halong, hhost⟩ := mem_sendAlong hplan h
  refine ⟨halong, ?_⟩
  rw [hhost, constructOdr_odrFrame, processRecvdFrame_constructOdr, if_pos rfl]
  rfl

end Sending

/-! ## The cases of the switch -/

section React

variable {cfg : Config} {env : Env} {intfN : Int} {f : OdrFrame} {l : Learned}
  {dest : Option REntry} {st : NodeState} {type : FrameType} {ts : List Transmission}
  {t : Transmission}

theorem parkFrame_sends (hself : f.destIp ≠ cfg.selfIp) (htype : type = .rrep ∨ type = .data)
    (hplan : (parkFrame cfg env intfN f st).plan = .ok ts) (h : t ∈ ts) :
    EthSends cfg intfN f l none st type t := by
  simp only [parkFrame] at hplan
  split_ifs at hplan
  obtain rfl := Except.ok.inj hplan
  obtain ⟨hflood, hhost⟩ := mem_sendReqBroadcast h
  exact .request htype hself rfl hflood hhost

theorem handleRreq_sends (hplan : (handleRreq cfg intfN f l dest st).plan = .ok ts)
    (h : t ∈ ts) : EthSends cfg intfN f l dest st .rreq t := by
  unfold handleRreq at hplan
  by_cases hself : f.destIp = cfg.selfIp
  · rw [if_pos hself] at hplan
    obtain ⟨halong, hhost⟩ := mem_sendRrepPacket hplan h
    exact .answerOwn hself halong hhost
  · rw [if_neg hself] at hplan
    cases dest with
    | some d =>
        simp only at hplan
        cases hrrep : (sendRrepPacket cfg.hwa f l.entry d.noHops true st.counter).2 with
        | error e => simp [hrrep, Except.map] at hplan
        | ok rrep =>
            simp only [hrrep, Except.map, Except.ok.injEq] at hplan
            subst hplan
            rcases List.mem_append.mp h with h | h
            · obtain ⟨halong, hhost⟩ := mem_sendRrepPacket hrrep h
              exact .answerCached hself rfl halong hhost
            · split_ifs at h with hflag
              · obtain ⟨hflood, hhost⟩ := mem_sendReqBroadcast h
                exact .relay .asent (.inl rfl) (.inr rfl) (.inl hself) hflag hflood hhost
                  (.inr (.inr rfl))
              · simp at h
    | none =>
        obtain rfl := Except.ok.inj hplan
        split_ifs at h with hflag
        · obtain ⟨hflood, hhost⟩ := mem_sendReqBroadcast h
          exact .relay .rreq (.inl rfl) (.inl rfl) (.inl hself) hflag hflood hhost (.inl rfl)
        · simp at h

theorem releaseFrame_sends {q : PendingMsg} {pending : List PendingMsg}
    (hself : f.destIp = cfg.selfIp)
    (hq : findKey PendingMsg.destip f.srcIp st.pending = some q)
    (hplan : (releaseFrame cfg l q.odrframe { st with pending := pending }).plan = .ok ts)
    (h : t ∈ ts) : EthSends cfg intfN f l dest st .rrep t := by
  unfold releaseFrame at hplan
  split at hplan
  · next htype =>
      obtain ⟨halong, hhost⟩ := mem_sendRrepPacket hplan h
      exact .releaseRrep hself hq htype halong hhost
  · next htype =>
      obtain ⟨halong, hhost⟩ := mem_sendAlong hplan h
      exact .releaseData hself hq htype halong
        (hhost.trans (convertNetHostOrder_convertHostNetOrder q.odrframe))
  · obtain rfl := Except.ok.inj hplan
    simp at h

theorem handleRrep_sends (hplan : (handleRrep cfg env intfN f l dest st).plan = .ok ts)
    (h : t ∈ ts) : EthSends cfg intfN f l dest st .rrep t := by
  simp only [handleRrep, fields_odrFrame, lookupPendingQueue_list] at hplan
  by_cases hself : f.destIp = cfg.selfIp
  · rw [if_pos hself] at hplan
    unfold lookupPendingQueue at hplan
    cases hq : findKey PendingMsg.destip f.srcIp st.pending with
    | none =>
        simp only [hq, Except.ok.injEq] at hplan
        subst hplan
        simp at h
    | some q =>
        simp only [hq] at hplan
        exact releaseFrame_sends hself hq hplan h
  · rw [if_neg hself] at hplan
    cases dest with
    | some d =>
        obtain ⟨halong, hhost⟩ := mem_sendRrepPacket hplan h
        exact .forwardRrep hself rfl halong hhost
    | none => exact parkFrame_sends hself (.inl rfl) hplan h

theorem handleData_sends (hplan : (handleData cfg env intfN f l dest st).plan = .ok ts)
    (h : t ∈ ts) : EthSends cfg intfN f l dest st .data t := by
  simp only [handleData, fields_odrFrame] at hplan
  by_cases hself : f.destIp = cfg.selfIp
  · rw [if_pos hself] at hplan
    obtain rfl := Except.ok.inj hplan
    simp at h
  · rw [if_neg hself] at hplan
    cases dest with
    | some d =>
        obtain ⟨halong, hhost⟩ := mem_sendAlong hplan h
        exact .forwardData hself rfl halong
          (hhost.trans (convertNetHostOrder_convertHostNetOrder { f with hopCount := _ }))
    | none => exact parkFrame_sends hself (.inr rfl) hplan h

theorem handleAsent_sends (hplan : (handleAsent cfg intfN f l st).plan = .ok ts)
    (h : t ∈ ts) : EthSends cfg intfN f l dest st .asent t := by
  unfold handleAsent at hplan
  obtain rfl := Except.ok.inj hplan
  split_ifs at h with hflag
  · obtain ⟨hflood, hhost⟩ := mem_sendReqBroadcast h
    exact .relay .asent (.inr rfl) (.inr rfl) (.inr rfl) hflag hflood hhost (.inr (.inl rfl))
  · simp at h

theorem react_sends (hplan : (react cfg env intfN f l dest st type).plan = .ok ts)
    (h : t ∈ ts) : EthSends cfg intfN f l dest st type t := by
  cases type with
  | rreq => exact handleRreq_sends hplan h
  | rrep => exact handleRrep_sends hplan h
  | data => exact handleData_sends hplan h
  | asent => exact handleAsent_sends hplan h

/-- The cases in which the node draws a broadcast id: it answers, or it floods a
request of its own. -/
def drawsId (cfg : Config) (f : OdrFrame) (dest : Option REntry) : FrameType → Bool
  | .rreq => decide (f.destIp = cfg.selfIp) || dest.isSome
  | .rrep => decide (f.destIp ≠ cfg.selfIp) && dest.isNone
  | .data => decide (f.destIp ≠ cfg.selfIp) && dest.isNone
  | .asent => false

/-- The pending queue a case leaves: a reply for this node takes out the first frame
that waits for its source, and a relay without a route parks the frame. -/
def pendingAfter (cfg : Config) (f : OdrFrame) (dest : Option REntry) (type : FrameType)
    (pending : List PendingMsg) : List PendingMsg :=
  match type with
  | .rrep =>
      if f.destIp = cfg.selfIp then eraseKey PendingMsg.destip f.srcIp pending
      else if dest.isNone then ⟨f.destIp, f⟩ :: pending else pending
  | .data =>
      if f.destIp = cfg.selfIp then pending
      else if dest.isNone then ⟨f.destIp, f⟩ :: pending else pending
  | _ => pending

theorem mem_pendingAfter {q : PendingMsg} {pending : List PendingMsg}
    (h : q ∈ pendingAfter cfg f dest type pending) :
    q ∈ pending ∨ (q = ⟨f.destIp, f⟩ ∧ (type = .rrep ∨ type = .data) ∧
      f.destIp ≠ cfg.selfIp ∧ dest = none) := by
  cases type with
  | rreq => exact .inl h
  | asent => exact .inl h
  | rrep =>
      simp only [pendingAfter] at h
      split_ifs at h with hself hdest
      · exact .inl (mem_of_mem_eraseKey h)
      · rcases List.mem_cons.mp h with rfl | h
        · exact .inr ⟨rfl, .inl rfl, hself, by simpa using hdest⟩
        · exact .inl h
      · exact .inl h
  | data =>
      simp only [pendingAfter] at h
      split_ifs at h with hself hdest
      · exact .inl h
      · rcases List.mem_cons.mp h with rfl | h
        · exact .inr ⟨rfl, .inr rfl, hself, by simpa using hdest⟩
        · exact .inl h
      · exact .inl h

/-- The queue grows only when a frame is parked. -/
theorem parked_of_length_lt {pending : List PendingMsg}
    (h : pending.length < (pendingAfter cfg f dest type pending).length) :
    (type = .rrep ∨ type = .data) ∧ f.destIp ≠ cfg.selfIp ∧ dest = none := by
  cases type with
  | rreq => exact absurd h (Nat.lt_irrefl _)
  | asent => exact absurd h (Nat.lt_irrefl _)
  | rrep =>
      simp only [pendingAfter] at h
      split_ifs at h with hself hdest
      · have hle := length_eraseKey_le PendingMsg.destip f.srcIp pending
        omega
      · exact ⟨.inl rfl, hself, by simpa using hdest⟩
      · omega
  | data =>
      simp only [pendingAfter] at h
      split_ifs at h with hself hdest
      · omega
      · exact ⟨.inr rfl, hself, by simpa using hdest⟩
      · omega

/-- The state a case leaves: the table is not touched again, the counter moves when
an id is drawn, and the queue loses a frame or gains the one that is parked. -/
structure ReactState (cfg : Config) (f : OdrFrame) (dest : Option REntry) (type : FrameType)
    (st st' : NodeState) : Prop where
  table : st'.table = st.table
  ports : st'.ports = st.ports
  counter : st'.counter = if drawsId cfg f dest type then st.counter.next else st.counter
  pending : st'.pending = pendingAfter cfg f dest type st.pending

@[simp] theorem sendRrepPacket_counter (hwa : List HwaInfo) (frame : OdrFrame)
    (entry : REntry) (hop : Int) (swap : Bool) (counter : BroadcastCounter) :
    (sendRrepPacket hwa frame entry hop swap counter).1 =
      if swap then counter.next else counter := by
  unfold sendRrepPacket
  cases getHwaddrFromInt entry.ifNo hwa <;> rfl

theorem parkFrame_state (hself : f.destIp ≠ cfg.selfIp) (htype : type = .rrep ∨ type = .data) :
    ReactState cfg f none type st (parkFrame cfg env intfN f st).node := by
  rcases htype with rfl | rfl
  · exact ⟨rfl, rfl, by simp [parkFrame, drawsId, hself],
      by simp [parkFrame, pendingAfter, insertPendingQueue, hself]⟩
  · exact ⟨rfl, rfl, by simp [parkFrame, drawsId, hself],
      by simp [parkFrame, pendingAfter, insertPendingQueue, hself]⟩

theorem releaseFrame_state {q : PendingMsg} (hself : f.destIp = cfg.selfIp) :
    ReactState cfg f dest .rrep st (releaseFrame cfg l q.odrframe
      { st with pending := eraseKey PendingMsg.destip f.srcIp st.pending }).node := by
  have hdraws : drawsId cfg f dest .rrep = false := by simp [drawsId, hself]
  have hpending : eraseKey PendingMsg.destip f.srcIp st.pending =
      pendingAfter cfg f dest .rrep st.pending := by simp [pendingAfter, hself]
  unfold releaseFrame
  split
  · exact ⟨rfl, rfl, by simp [hdraws], hpending⟩
  · exact ⟨rfl, rfl, by simp [hdraws], hpending⟩
  · exact ⟨rfl, rfl, by simp [hdraws], hpending⟩

theorem handleRreq_state :
    ReactState cfg f dest .rreq st (handleRreq cfg intfN f l dest st).node := by
  unfold handleRreq
  by_cases hself : f.destIp = cfg.selfIp
  · rw [if_pos hself]
    exact ⟨rfl, rfl, by simp [drawsId, hself], rfl⟩
  · rw [if_neg hself]
    cases dest with
    | none => exact ⟨rfl, rfl, by simp [drawsId, hself], rfl⟩
    | some d => exact ⟨rfl, rfl, by simp [drawsId], rfl⟩

theorem handleRrep_state :
    ReactState cfg f dest .rrep st (handleRrep cfg env intfN f l dest st).node := by
  simp only [handleRrep, fields_odrFrame, lookupPendingQueue_list]
  by_cases hself : f.destIp = cfg.selfIp
  · rw [if_pos hself]
    unfold lookupPendingQueue
    cases hq : findKey PendingMsg.destip f.srcIp st.pending with
    | none =>
        refine ⟨rfl, rfl, by simp [drawsId, hself], ?_⟩
        simp [pendingAfter, hself, eraseKey_of_findKey_none hq]
    | some q => exact releaseFrame_state hself
  · rw [if_neg hself]
    cases dest with
    | none => exact parkFrame_state hself (.inl rfl)
    | some d => exact ⟨rfl, rfl, by simp [drawsId], by simp [pendingAfter, hself]⟩

theorem handleData_state :
    ReactState cfg f dest .data st (handleData cfg env intfN f l dest st).node := by
  simp only [handleData, fields_odrFrame]
  by_cases hself : f.destIp = cfg.selfIp
  · rw [if_pos hself]
    exact ⟨rfl, rfl, by simp [drawsId, hself], by simp [pendingAfter, hself]⟩
  · rw [if_neg hself]
    cases dest with
    | none => exact parkFrame_state hself (.inr rfl)
    | some d => exact ⟨rfl, rfl, by simp [drawsId], by simp [pendingAfter, hself]⟩

theorem react_state :
    ReactState cfg f dest type st (react cfg env intfN f l dest st type).node := by
  cases type with
  | rreq => exact handleRreq_state
  | rrep => exact handleRrep_state
  | data => exact handleData_state
  | asent => exact ⟨rfl, rfl, rfl, rfl⟩

end React

/-! ## A whole call of `handle_ethernet_msg` -/

theorem duplicateFilter_eq_true_iff {f : OdrFrame} {table : List REntry} :
    duplicateFilter f table = true ↔ f.routeDiscFlag = 1 ∧
      ∃ e ∈ table, e.destip = f.srcIp ∧ f.broadcastId ≤ e.broadcastId := by
  rw [duplicateFilter, decide_eq_true_eq, isBroadidGreater_list, isBroadidGreater_lt_iff]

/-- Without the flag the filter lets every frame pass. -/
theorem duplicateFilter_of_flag_ne {f : OdrFrame} (hflag : f.routeDiscFlag ≠ 1)
    (table : List REntry) : duplicateFilter f table = false := by
  rw [← Bool.not_eq_true, duplicateFilter_eq_true_iff]
  exact fun h => hflag h.1

/-- The call gets past the filter and the name lookups into a case of the switch. -/
structure Processed (env : Env) (f : OdrFrame) (st : NodeState) (type : FrameType) : Prop where
  passes : duplicateFilter f st.table = false
  srcName : env.resolves f.srcIp = true
  destName : env.resolves f.destIp = true
  type_eq : FrameType.ofInt f.frameType = some type

instance (env : Env) (f : OdrFrame) (st : NodeState) (type : FrameType) :
    Decidable (Processed env f st type) :=
  decidable_of_iff
    (duplicateFilter f st.table = false ∧ env.resolves f.srcIp = true ∧
      env.resolves f.destIp = true ∧ FrameType.ofInt f.frameType = some type)
    ⟨fun h => ⟨h.1, h.2.1, h.2.2.1, h.2.2.2⟩,
      fun h => ⟨h.passes, h.srcName, h.destName, h.type_eq⟩⟩

/-- The case of the switch that the call runs. -/
def reaction (cfg : Config) (env : Env) (intfN : Int) (addr : Mac) (f : OdrFrame)
    (st : NodeState) (type : FrameType) : Reaction :=
  react cfg env intfN f (learnedRoute cfg env intfN addr f st)
    (derefDest cfg env intfN addr f st)
    { st with table := (learnedRoute cfg env intfN addr f st).table } type

section Ethernet

variable {cfg : Config} {env : Env} {intfN : Int} {addr : Mac} {buf : OdrFrame}
  {st : NodeState} {t : Transmission} {e : REntry}

/-- A call is filtered out, fails before the switch, or runs one case of it. -/
theorem handleEthernetMsg_cases (cfg : Config) (env : Env) (intfN : Int) (addr : Mac)
    (buf : OdrFrame) (st : NodeState) :
    (duplicateFilter (processRecvdFrame buf) st.table = true ∧
      handleEthernetMsg cfg env intfN addr buf st =
        { node := st, sent := [], events := [], deleted := [], exit := .returned 1 }) ∨
    (duplicateFilter (processRecvdFrame buf) st.table = false ∧
      (¬ (env.resolves (processRecvdFrame buf).srcIp = true ∧
          env.resolves (processRecvdFrame buf).destIp = true) ∨
        FrameType.ofInt (processRecvdFrame buf).frameType = none) ∧
      ∃ exit, exit.survives = false ∧
        handleEthernetMsg cfg env intfN addr buf st =
          { node := { st with table := (srcLookup cfg env (processRecvdFrame buf) st).table }
            sent := []
            events := []
            deleted := deletedBy cfg env (processRecvdFrame buf) st
            exit := exit }) ∨
    ∃ type, Processed env (processRecvdFrame buf) st type ∧
      handleEthernetMsg cfg env intfN addr buf st =
        (reaction cfg env intfN addr (processRecvdFrame buf) st type).outcome env cfg.selfIp
          (deletedBy cfg env (processRecvdFrame buf) st) := by
  unfold handleEthernetMsg
  simp only [ownFrameGuard, Bool.false_eq_true, if_false, processRecvdFrame_odrFrame,
    fields_odrFrame, entryAt_list]
  by_cases hdup : duplicateFilter (processRecvdFrame buf) st.table = true
  · exact .inl ⟨hdup, if_pos hdup⟩
  · rw [Bool.not_eq_true] at hdup
    by_cases hnames : env.resolves (processRecvdFrame buf).srcIp = true ∧
        env.resolves (processRecvdFrame buf).destIp = true
    · cases htype : FrameType.ofInt (processRecvdFrame buf).frameType with
      | none =>
          exact .inr (.inl ⟨hdup, .inr rfl, .returned (-1), rfl, by simp [hdup, hnames]⟩)
      | some type =>
          refine .inr (.inr ⟨type, ⟨hdup, hnames.1, hnames.2, htype⟩, ?_⟩)
          simp [hdup, hnames, reaction]
    · exact .inr (.inl ⟨hdup, .inl hnames, .aborted, rfl, by simp [hdup, hnames]⟩)

@[simp] theorem Reaction.outcome_node (r : Reaction) (selfIp : Ip) (deleted : List Ip) :
    (r.outcome env selfIp deleted).node = r.node := by
  unfold Reaction.outcome
  split <;> rfl

@[simp] theorem Reaction.outcome_events (r : Reaction) (selfIp : Ip) (deleted : List Ip) :
    (r.outcome env selfIp deleted).events = r.events := by
  unfold Reaction.outcome
  split <;> rfl

@[simp] theorem Reaction.outcome_deleted (r : Reaction) (selfIp : Ip) (deleted : List Ip) :
    (r.outcome env selfIp deleted).deleted = deleted := by
  unfold Reaction.outcome
  split <;> rfl

theorem Reaction.mem_outcome_sent {r : Reaction} {selfIp : Ip} {deleted : List Ip}
    (h : t ∈ (r.outcome env selfIp deleted).sent) : ∃ ts, r.plan = .ok ts ∧ t ∈ ts := by
  unfold Reaction.outcome at h
  split at h
  · simp at h
  · next ts hplan => exact ⟨ts, hplan, mem_of_mem_sendRawFrames h⟩

theorem Reaction.outcome_sent_of_linksUp {r : Reaction} {selfIp : Ip} {deleted : List Ip}
    {ts : List Transmission} (henv : env.LinksUp) (hplan : r.plan = .ok ts) :
    (r.outcome env selfIp deleted).sent = ts := by
  unfold Reaction.outcome
  rw [hplan]
  simp [sendRawFrames_of_linksUp henv]

/-- Whatever leaves the node was sent by the case that ran. -/
theorem handleEthernetMsg_sends (h : t ∈ (handleEthernetMsg cfg env intfN addr buf st).sent) :
    ∃ type, Processed env (processRecvdFrame buf) st type ∧
      (handleEthernetMsg cfg env intfN addr buf st).node =
        (reaction cfg env intfN addr (processRecvdFrame buf) st type).node ∧
      EthSends cfg intfN (processRecvdFrame buf)
        (learnedRoute cfg env intfN addr (processRecvdFrame buf) st)
        (derefDest cfg env intfN addr (processRecvdFrame buf) st)
        { st with table := (learnedRoute cfg env intfN addr (processRecvdFrame buf) st).table }
        type t := by
  rcases handleEthernetMsg_cases cfg env intfN addr buf st with
    ⟨_, heq⟩ | ⟨_, _, exit, _, heq⟩ | ⟨type, hproc, heq⟩
  · simp [heq] at h
  · simp [heq] at h
  · rw [heq] at h ⊢
    obtain ⟨ts, hplan, hts⟩ := Reaction.mem_outcome_sent h
    exact ⟨type, hproc, by simp, react_sends hplan hts⟩

theorem srcLookup_entry {f : OdrFrame} (h : (srcLookup cfg env f st).entry = some e) :
    route (srcLookup cfg env f st).table f.srcIp = some e := by
  obtain ⟨hroute, htable, _⟩ := getREntry_entry h
  rw [srcLookup, getREntry_list, htable]
  exact hroute

theorem mem_srcLookup_table {f : OdrFrame} (h : e ∈ (srcLookup cfg env f st).table) :
    e ∈ st.table :=
  mem_of_mem_getREntry_table (mem_of_mem_getREntry_table h)

/-- After a processed frame, the table holds the entries it held before and
possibly the one rewritten from the frame. -/
theorem mem_learnedRoute_table {f : OdrFrame}
    (h : e ∈ (learnedRoute cfg env intfN addr f st).table) :
    e = updateREntry f intfN addr env.updateTime ∨ e ∈ st.table := by
  rcases mem_learnSource_table h (fun e he => (route_mem (srcLookup_entry he)).1) with rfl | h
  · exact .inl rfl
  · exact .inr (mem_srcLookup_table h)

theorem route_learnedRoute_self (f : OdrFrame) :
    route (learnedRoute cfg env intfN addr f st).table f.srcIp =
      some (learnedRoute cfg env intfN addr f st).entry :=
  route_learnSource_self fun _ he => srcLookup_entry he

theorem reaction_state {f : OdrFrame} {type : FrameType} :
    ReactState cfg f (derefDest cfg env intfN addr f st) type
      { st with table := (learnedRoute cfg env intfN addr f st).table }
      (reaction cfg env intfN addr f st type).node := react_state

theorem handleEthernetMsg_mem_table
    (h : e ∈ (handleEthernetMsg cfg env intfN addr buf st).node.table) :
    (e = updateREntry (processRecvdFrame buf) intfN addr env.updateTime ∧
      ∃ type, Processed env (processRecvdFrame buf) st type) ∨ e ∈ st.table := by
  rcases handleEthernetMsg_cases cfg env intfN addr buf st with
    ⟨_, heq⟩ | ⟨_, _, exit, _, heq⟩ | ⟨type, hproc, heq⟩
  · rw [heq] at h
    exact .inr h
  · rw [heq] at h
    exact .inr (mem_srcLookup_table h)
  · rw [heq, Reaction.outcome_node, reaction_state.table] at h
    rcases mem_learnedRoute_table h with rfl | h
    · exact .inl ⟨rfl, type, hproc⟩
    · exact .inr h

theorem handleEthernetMsg_counter_le :
    st.counter.value ≤ (handleEthernetMsg cfg env intfN addr buf st).node.counter.value := by
  rcases handleEthernetMsg_cases cfg env intfN addr buf st with
    ⟨_, heq⟩ | ⟨_, _, exit, _, heq⟩ | ⟨type, hproc, heq⟩
  · simp [heq]
  · simp [heq]
  · rw [heq, Reaction.outcome_node, reaction_state.counter]
    split
    · simp only [BroadcastCounter.next_value]
      omega
    · exact Int.le_refl _

theorem handleEthernetMsg_mem_pending {q : PendingMsg}
    (h : q ∈ (handleEthernetMsg cfg env intfN addr buf st).node.pending) :
    (∃ type, Processed env (processRecvdFrame buf) st type ∧
      q = ⟨(processRecvdFrame buf).destIp, processRecvdFrame buf⟩ ∧
      (type = .rrep ∨ type = .data) ∧ (processRecvdFrame buf).destIp ≠ cfg.selfIp ∧
      derefDest cfg env intfN addr (processRecvdFrame buf) st = none) ∨ q ∈ st.pending := by
  rcases handleEthernetMsg_cases cfg env intfN addr buf st with
    ⟨_, heq⟩ | ⟨_, _, exit, _, heq⟩ | ⟨type, hproc, heq⟩
  · rw [heq] at h
    exact .inr h
  · rw [heq] at h
    exact .inr h
  · rw [heq, Reaction.outcome_node] at h
    rw [reaction_state.pending] at h
    rcases mem_pendingAfter h with h | ⟨hq, htype, hself, hdest⟩
    · exact .inr h
    · exact .inl ⟨type, hproc, hq, htype, hself, hdest⟩

theorem handleEthernetMsg_of_processed {type : FrameType}
    (h : Processed env (processRecvdFrame buf) st type) :
    handleEthernetMsg cfg env intfN addr buf st =
      (reaction cfg env intfN addr (processRecvdFrame buf) st type).outcome env cfg.selfIp
        (deletedBy cfg env (processRecvdFrame buf) st) := by
  rcases handleEthernetMsg_cases cfg env intfN addr buf st with
    ⟨hdup, _⟩ | ⟨_, hbad, _⟩ | ⟨type', hproc, heq⟩
  · exact absurd h.passes (by simp [hdup])
  · rcases hbad with hnames | htype
    · exact absurd ⟨h.srcName, h.destName⟩ hnames
    · exact absurd h.type_eq (by simp [htype])
  · obtain rfl : type' = type := Option.some.inj (hproc.type_eq.symm.trans h.type_eq)
    exact heq

/-- After a processed frame the table is the one with the source's route learned. -/
theorem handleEthernetMsg_table {type : FrameType}
    (h : Processed env (processRecvdFrame buf) st type) :
    (handleEthernetMsg cfg env intfN addr buf st).node.table =
      (learnedRoute cfg env intfN addr (processRecvdFrame buf) st).table := by
  rw [handleEthernetMsg_of_processed h, Reaction.outcome_node, reaction_state.table]

/-- Between distinct addresses `dest_r_entry` is what the first lookup found. -/
theorem derefDest_of_ne {f : OdrFrame} (hne : f.srcIp ≠ f.destIp) :
    derefDest cfg env intfN addr f st = (destLookup cfg env f st).entry := by
  simp [derefDest, rereadDest, hne]

theorem route_of_derefDest {f : OdrFrame} {d : REntry} (hne : f.srcIp ≠ f.destIp)
    (h : derefDest cfg env intfN addr f st = some d) : route st.table f.destIp = some d := by
  rw [derefDest_of_ne hne] at h
  exact (getREntry_entry h).1

/-! ### Calls that do not delete the entry at hand -/

theorem route_destLookup {f : OdrFrame} {ip : Ip} (h : ip ∉ deletedBy cfg env f st) :
    route (destLookup cfg env f st).table ip = route st.table ip := by
  by_cases hip : f.destIp = ip
  · have hdel : (destLookup cfg env f st).deleted = false := by
      subst hip
      by_contra hdel
      exact h (by simp [deletedBy, Bool.not_eq_false _ ▸ hdel])
    rw [destLookup, getREntry_list, (getREntry_of_not_deleted hdel).2]
  · exact route_getREntry_of_ne hip

theorem srcLookup_not_deleted {f : OdrFrame} (h : f.srcIp ∉ deletedBy cfg env f st) :
    (srcLookup cfg env f st).deleted = false := by
  by_contra hdel
  exact h (by simp [deletedBy, Bool.not_eq_false _ ▸ hdel])

theorem srcLookup_entry_eq {f : OdrFrame} (h : f.srcIp ∉ deletedBy cfg env f st) :
    (srcLookup cfg env f st).entry = route st.table f.srcIp := by
  rw [srcLookup, getREntry_list, (getREntry_of_not_deleted (srcLookup_not_deleted h)).1,
    route_destLookup h]

theorem route_srcLookup {f : OdrFrame} {ip : Ip} (h : ip ∉ deletedBy cfg env f st) :
    route (srcLookup cfg env f st).table ip = route st.table ip := by
  by_cases hip : f.srcIp = ip
  · subst hip
    rw [srcLookup, getREntry_list, (getREntry_of_not_deleted (srcLookup_not_deleted h)).2,
      route_destLookup h]
  · rw [srcLookup, getREntry_list, route_getREntry_of_ne hip, route_destLookup h]

/-- A processed frame leaves the route to `ip` or rewrites it, and the latter only if
the frame comes from `ip` and improves on the route. -/
theorem route_learnedRoute {f : OdrFrame} {ip : Ip} (h : ip ∉ deletedBy cfg env f st) :
    route (learnedRoute cfg env intfN addr f st).table ip = route st.table ip ∨
      f.srcIp = ip ∧
        route (learnedRoute cfg env intfN addr f st).table ip =
          some (updateREntry f intfN addr env.updateTime) ∧
        ∀ e, route st.table ip = some e → acceptsUpdate f e = true := by
  by_cases hip : f.srcIp = ip
  · subst hip
    have hentry := srcLookup_entry_eq h
    rw [route_learnedRoute_self]
    rcases learnSource_cases f intfN addr env.updateTime (srcLookup cfg env f st) with
      ⟨_, hnew, hacc⟩ | ⟨_, hold, _⟩
    · rw [hentry] at hacc
      exact .inr ⟨rfl, congrArg some hnew, hacc⟩
    · rw [hentry] at hold
      exact .inl hold.symm
  · left
    rw [← route_srcLookup h]
    exact route_learnSource_of_ne (fun _ he => srcLookup_entry he) hip

/-- A frame that sets the flag improves on the route there was. -/
theorem accepts_of_flag {f : OdrFrame} (h : f.srcIp ∉ deletedBy cfg env f st)
    (hflag : (learnedRoute cfg env intfN addr f st).flag = true) :
    ∀ e, route st.table f.srcIp = some e → acceptsUpdate f e = true := by
  rcases learnSource_cases f intfN addr env.updateTime (srcLookup cfg env f st) with
    ⟨_, _, hacc⟩ | ⟨hkeep, _, _⟩
  · rwa [srcLookup_entry_eq h] at hacc
  · rw [learnedRoute, hkeep] at hflag
    simp at hflag

theorem derefDest_eq_route {f : OdrFrame} (hne : f.srcIp ≠ f.destIp)
    (h : f.destIp ∉ deletedBy cfg env f st) :
    derefDest cfg env intfN addr f st = route st.table f.destIp := by
  have hdel : (destLookup cfg env f st).deleted = false := by
    by_contra hdel
    exact h (by simp [deletedBy, Bool.not_eq_false _ ▸ hdel])
  rw [derefDest_of_ne hne]
  exact (getREntry_of_not_deleted hdel).1

/-- The same for a whole call. -/
theorem handleEthernetMsg_route {ip : Ip}
    (h : ip ∉ (handleEthernetMsg cfg env intfN addr buf st).deleted) :
    route (handleEthernetMsg cfg env intfN addr buf st).node.table ip = route st.table ip ∨
      ∃ type, Processed env (processRecvdFrame buf) st type ∧
        (processRecvdFrame buf).srcIp = ip ∧
        route (handleEthernetMsg cfg env intfN addr buf st).node.table ip =
          some (updateREntry (processRecvdFrame buf) intfN addr env.updateTime) ∧
        ∀ e, route st.table ip = some e → acceptsUpdate (processRecvdFrame buf) e = true := by
  rcases handleEthernetMsg_cases cfg env intfN addr buf st with
    ⟨_, heq⟩ | ⟨_, _, exit, _, heq⟩ | ⟨type, hproc, heq⟩
  · rw [heq]
    exact .inl rfl
  · rw [heq] at h ⊢
    exact .inl (route_srcLookup h)
  · rw [heq, Reaction.outcome_deleted] at h
    rw [heq, Reaction.outcome_node, reaction_state.table]
    rcases route_learnedRoute h with hkeep | hnew
    · exact .inl hkeep
    · exact .inr ⟨type, hproc, hnew⟩

end Ethernet

/-! ## A whole call of `handle_peer_msg` -/

section Peer

variable {cfg : Config} {env : Env} {sparams : SendParams} {st : NodeState}
  {t : Transmission} {portno : Int}

theorem queuedFrame_eq (freshId portno : Int) (selfIp : Ip) (sparams : SendParams) :
    queuedFrame freshId portno selfIp sparams =
      dataFrame 0 freshId 0 portno sparams.destport sparams.destip selfIp sparams.msg := by
  have h := processRecvdFrame_constructOdr FrameType.data.toInt 0 freshId payloadSize 0 portno
    sparams.destport sparams.destip selfIp sparams.msg
  rw [if_pos rfl] at h
  exact h

/-- The lookup `handle_peer_msg` makes. -/
def peerLookup (cfg : Config) (env : Env) (sparams : SendParams) (table : List REntry) :
    Lookup :=
  getREntry cfg.staleParam env.destTime sparams.destip sparams.routeDiscFlag table

/-- The address whose entry that lookup unlinks. -/
def peerDeleted (cfg : Config) (env : Env) (sparams : SendParams) (table : List REntry) :
    List Ip :=
  if (peerLookup cfg env sparams table).deleted then [sparams.destip] else []

/-- The DATA frame of a request as the pending queue holds it. -/
def queuedMsg (cfg : Config) (sparams : SendParams) (portno freshId : Int) : PendingMsg where
  destip := sparams.destip
  odrframe := dataFrame 0 freshId 0 portno sparams.destport sparams.destip cfg.selfIp sparams.msg

/-- What a call of `handle_peer_msg` amounts to. -/
inductive PeerCall (cfg : Config) (env : Env) (sparams : SendParams) (st : NodeState)
    (o : Outcome) : Prop
  /-- Refused, or served on the node itself. -/
  | idle (hsent : o.sent = []) (hdeleted : o.deleted = [])
      (haccepted : acceptedMsg cfg sparams st o.exit = [])
      (htable : o.node.table = st.table) (hpending : o.node.pending = st.pending)
      (hcounter : o.node.counter = st.counter)
  /-- A request is flooded and the message queued, unless a send fails. -/
  | flooded (portno : Int) (hself : cfg.selfIp ≠ sparams.destip)
      (hentry : (peerLookup cfg env sparams st.table).entry = none)
      (hsent : o.sent = (sendRawFrames env cfg.selfIp 0
        (sendReqBroadcast cfg.hwa (-1) (st.counter.value + 1) portno sparams.destport 0
          sparams.routeDiscFlag sparams.destip cfg.selfIp sparams.msg false)).1)
      (hdeleted : o.deleted = peerDeleted cfg env sparams st.table)
      (htable : o.node.table = (peerLookup cfg env sparams st.table).table)
      (hqueue : (¬ env.LinksUp ∧ o.node.counter = st.counter.next ∧
          o.node.pending = st.pending ∧ acceptedMsg cfg sparams st o.exit = []) ∨
        (o.node.counter = st.counter.next.next ∧
          o.node.pending = queuedMsg cfg sparams portno (st.counter.value + 2) :: st.pending ∧
          acceptedMsg cfg sparams st o.exit = [sparams.message cfg.selfIp portno]))
  /-- The message is sent along a known route. -/
  | direct (portno : Int) (e : REntry) (hself : cfg.selfIp ≠ sparams.destip)
      (hentry : (peerLookup cfg env sparams st.table).entry = some e)
      (hsent : ∀ t ∈ o.sent, Along cfg e t ∧
        t.host = dataFrame e.broadcastId 0 sparams.routeDiscFlag portno sparams.destport
          sparams.destip cfg.selfIp sparams.msg)
      (hdeleted : o.deleted = peerDeleted cfg env sparams st.table)
      (htable : o.node.table = (peerLookup cfg env sparams st.table).table)
      (hpending : o.node.pending = st.pending) (hcounter : o.node.counter = st.counter)
      (haccepted : acceptedMsg cfg sparams st o.exit =
        if o.exit = .returned 1 then [sparams.message cfg.selfIp portno] else [])
      (hgoes : env.LinksUp → (∃ mac, getHwaddrFromInt e.ifNo cfg.hwa = some mac) →
        (∃ t, o.sent = [t]) ∧ o.exit = .returned 1)

/-- The frames a node sends on a request of a local application; `st'` is the state
after the call. -/
inductive PeerSends (cfg : Config) (env : Env) (sparams : SendParams) (st st' : NodeState) :
    Transmission → Prop
  | request {t : Transmission} {portno : Int} (hself : cfg.selfIp ≠ sparams.destip)
      (hentry : (peerLookup cfg env sparams st.table).entry = none)
      (hflood : Flooded cfg (-1) t)
      (hhost : t.host = floodFrame .rreq (st.counter.value + 1) 0 sparams.routeDiscFlag portno
        sparams.destport sparams.destip cfg.selfIp)
      (hcounter : st.counter.value + 1 ≤ st'.counter.value) :
      PeerSends cfg env sparams st st' t
  | data {t : Transmission} {e : REntry} {portno : Int} (hself : cfg.selfIp ≠ sparams.destip)
      (hentry : (peerLookup cfg env sparams st.table).entry = some e)
      (halong : Along cfg e t)
      (hhost : t.host = dataFrame e.broadcastId 0 sparams.routeDiscFlag portno
        sparams.destport sparams.destip cfg.selfIp sparams.msg) :
      PeerSends cfg env sparams st st' t

theorem sendRawFrames_exit {selfIp : Ip} {k : Nat} {ts : List Transmission} {exit : Exit}
    (h : (sendRawFrames env selfIp k ts).2 = some exit) : exit.survives = false := by
  induction ts generalizing k with
  | nil => simp [sendRawFrames] at h
  | cons t ts ih =>
      rw [sendRawFrames] at h
      split_ifs at h with hname hok
      · exact ih h
      · obtain rfl := Option.some.inj h
        rfl
      · obtain rfl := Option.some.inj h
        rfl

theorem acceptedMsg_of_remote {mapEntry : MapPortSp} {ports : List MapPortSp}
    {nextPortno : Int} (hself : cfg.selfIp ≠ sparams.destip)
    (hpath : fetchEntryPath sparams.filename st.ports st.nextPortno =
      some (mapEntry, ports, nextPortno)) (exit : Exit) :
    acceptedMsg cfg sparams st exit =
      if exit = .returned 1 then [sparams.message cfg.selfIp mapEntry.portno] else [] := by
  simp [acceptedMsg, hself, hpath]

/-- Without a route a request is flooded, and the message queued unless a send failed. -/
theorem peerCall_of_no_route {mapEntry : MapPortSp} {ports : List MapPortSp} {nextPortno : Int}
    (hself : cfg.selfIp ≠ sparams.destip)
    (hpath : fetchEntryPath sparams.filename st.ports st.nextPortno =
      some (mapEntry, ports, nextPortno))
    (hentry : (peerLookup cfg env sparams st.table).entry = none) :
    PeerCall cfg env sparams st (handleRemoteMsg cfg env sparams mapEntry.portno
      { st with ports := ports, nextPortno := nextPortno }) := by
  have haccepted := acceptedMsg_of_remote hself hpath
  have hentry' := hentry
  unfold peerLookup at hentry'
  cases hexit : (sendRawFrames env cfg.selfIp 0
      (sendReqBroadcast cfg.hwa (-1) st.counter.next.value mapEntry.portno sparams.destport
        0 sparams.routeDiscFlag sparams.destip cfg.selfIp sparams.msg false)).2 with
  | some exit =>
      have hdies := sendRawFrames_exit hexit
      have hfails : ¬ env.LinksUp := by
        intro henv
        simp [sendRawFrames_of_linksUp henv] at hexit
      refine .flooded mapEntry.portno hself hentry ?_ ?_ ?_ (.inl ⟨hfails, ?_, ?_, ?_⟩)
      all_goals simp only [handleRemoteMsg, getREntry_list, bind_entryAt_list, hentry', hexit]
      · rfl
      · rfl
      · rfl
      · rw [haccepted, if_neg]
        rintro rfl
        simp [Exit.survives] at hdies
  | none =>
      have hvalue : st.counter.next.next.value = st.counter.value + 2 := by
        simp only [BroadcastCounter.next_value]
        omega
      refine .flooded mapEntry.portno hself hentry ?_ ?_ ?_ (.inr ⟨?_, ?_, ?_⟩)
      all_goals simp only [handleRemoteMsg, getREntry_list, bind_entryAt_list, hentry', hexit]
      · rfl
      · rfl
      · rfl
      · simp only [insertPendingQueue_list, insertPendingQueue, queuedFrame_eq, hvalue, queuedMsg]
      · rw [haccepted, if_pos rfl]

/-- With a route the message is sent along it. -/
theorem peerCall_of_route {mapEntry : MapPortSp} {ports : List MapPortSp} {nextPortno : Int}
    {e : REntry} (hself : cfg.selfIp ≠ sparams.destip)
    (hpath : fetchEntryPath sparams.filename st.ports st.nextPortno =
      some (mapEntry, ports, nextPortno))
    (hentry : (peerLookup cfg env sparams st.table).entry = some e) :
    PeerCall cfg env sparams st (handleRemoteMsg cfg env sparams mapEntry.portno
      { st with ports := ports, nextPortno := nextPortno }) := by
  have haccepted := acceptedMsg_of_remote hself hpath
  have hentry' := hentry
  unfold peerLookup at hentry'
  cases hplan : sendDataMessage cfg.hwa cfg.selfIp mapEntry.portno sparams e with
  | error exit =>
      refine .direct mapEntry.portno e hself hentry ?_ ?_ ?_ ?_ ?_ (haccepted _) ?_
      all_goals simp only [handleRemoteMsg, getREntry_list, bind_entryAt_list, hentry', hplan]
      · simp
      · rfl
      · rfl
      · rintro _ ⟨mac, hmac⟩
        simp [sendDataMessage, sendAlong, hmac] at hplan
  | ok plan =>
      refine .direct mapEntry.portno e hself hentry ?_ ?_ ?_ ?_ ?_ (haccepted _) ?_
      all_goals simp only [handleRemoteMsg, getREntry_list, bind_entryAt_list, hentry', hplan]
      · intro t ht
        exact mem_sendDataMessage hplan (mem_of_mem_sendRawFrames ht)
      · rfl
      · rfl
      · rintro henv ⟨mac, hmac⟩
        simp only [sendDataMessage, sendAlong, hmac, Except.ok.injEq] at hplan
        rw [sendRawFrames_of_linksUp henv, ← hplan]
        exact ⟨⟨_, rfl⟩, rfl⟩

theorem handlePeerMsg_call (cfg : Config) (env : Env) (sparams : SendParams) (st : NodeState) :
    PeerCall cfg env sparams st (handlePeerMsg cfg env sparams st) := by
  cases hpath : fetchEntryPath sparams.filename st.ports st.nextPortno with
  | none => apply PeerCall.idle <;> simp [handlePeerMsg, acceptedMsg, hpath]
  | some r =>
      obtain ⟨mapEntry, ports, nextPortno⟩ := r
      by_cases hnames : env.resolves cfg.selfIp = true ∧ env.resolves sparams.destip = true
      · by_cases hself : cfg.selfIp = sparams.destip
        · have heq : handlePeerMsg cfg env sparams st = handleLocalMsg cfg env sparams
              mapEntry.portno { st with ports := ports, nextPortno := nextPortno } := by
            simp [handlePeerMsg, hpath, hnames, hself]
          rw [heq, handleLocalMsg]
          split <;> exact .idle rfl rfl (by simp [acceptedMsg, hself]) rfl rfl rfl
        · have heq : handlePeerMsg cfg env sparams st = handleRemoteMsg cfg env sparams
              mapEntry.portno { st with ports := ports, nextPortno := nextPortno } := by
            simp [handlePeerMsg, hpath, hnames, hself]
          rw [heq]
          cases hentry : (peerLookup cfg env sparams st.table).entry with
          | none => exact peerCall_of_no_route hself hpath hentry
          | some e => exact peerCall_of_route hself hpath hentry
      · apply PeerCall.idle <;> simp [handlePeerMsg, acceptedMsg, hpath, hnames]

variable {o : Outcome}

/-- Whatever a request puts on the wire. -/
theorem PeerCall.sends (hcall : PeerCall cfg env sparams st o) (h : t ∈ o.sent) :
    PeerSends cfg env sparams st o.node t := by
  cases hcall with
  | idle hsent => simp [hsent] at h
  | flooded portno hself hentry hsent hdeleted htable hqueue =>
      rw [hsent] at h
      obtain ⟨hflood, hhost⟩ := mem_sendReqBroadcast (mem_of_mem_sendRawFrames h)
      refine .request hself hentry hflood hhost ?_
      rcases hqueue with ⟨-, hcounter, -⟩ | ⟨hcounter, -⟩
      · simp [hcounter]
      · simp only [hcounter, BroadcastCounter.next_value]
        omega
  | direct portno e hself hentry hsent =>
      exact .data hself hentry (hsent t h).1 (hsent t h).2

theorem PeerCall.mem_table {e : REntry} (hcall : PeerCall cfg env sparams st o)
    (h : e ∈ o.node.table) : e ∈ st.table := by
  cases hcall with
  | idle _ _ _ htable =>
      rwa [htable] at h
  | flooded _ _ _ _ _ htable =>
      rw [htable] at h
      exact mem_of_mem_getREntry_table h
  | direct _ _ _ _ _ _ htable =>
      rw [htable] at h
      exact mem_of_mem_getREntry_table h

theorem PeerCall.route_eq {ip : Ip} (hcall : PeerCall cfg env sparams st o)
    (h : ip ∉ o.deleted) : route o.node.table ip = route st.table ip := by
  have hlookup (hdel : o.deleted = peerDeleted cfg env sparams st.table) :
      route (peerLookup cfg env sparams st.table).table ip = route st.table ip := by
    by_cases hip : sparams.destip = ip
    · have hkeep : (peerLookup cfg env sparams st.table).deleted = false := by
        subst hip
        by_contra hkeep
        exact h (by simp [hdel, peerDeleted, Bool.not_eq_false _ ▸ hkeep])
      rw [peerLookup, (getREntry_of_not_deleted hkeep).2]
    · exact route_getREntry_of_ne hip
  cases hcall with
  | idle _ _ _ htable => rw [htable]
  | flooded _ _ _ _ hdel htable =>
      rw [htable]
      exact hlookup hdel
  | direct _ _ _ _ _ hdel htable =>
      rw [htable]
      exact hlookup hdel

theorem PeerCall.counter_le (hcall : PeerCall cfg env sparams st o) :
    st.counter.value ≤ o.node.counter.value := by
  cases hcall with
  | idle _ _ _ _ _ hcounter => simp [hcounter]
  | flooded _ _ _ _ _ _ hqueue =>
      rcases hqueue with ⟨-, hcounter, -⟩ | ⟨hcounter, -⟩
      · simp only [hcounter, BroadcastCounter.next_value]
        omega
      · simp only [hcounter, BroadcastCounter.next_value]
        omega
  | direct _ _ _ _ _ _ _ _ hcounter => simp [hcounter]

theorem PeerCall.mem_pending {q : PendingMsg} (hcall : PeerCall cfg env sparams st o)
    (h : q ∈ o.node.pending) :
    (cfg.selfIp ≠ sparams.destip ∧ ∃ portno,
      q = queuedMsg cfg sparams portno (st.counter.value + 2)) ∨ q ∈ st.pending := by
  cases hcall with
  | idle _ _ _ _ hpending =>
      rw [hpending] at h
      exact .inr h
  | flooded portno hself _ _ _ _ hqueue =>
      rcases hqueue with ⟨-, -, hpending, -⟩ | ⟨-, hpending, -⟩
      · rw [hpending] at h
        exact .inr h
      · rw [hpending] at h
        rcases List.mem_cons.mp h with rfl | h
        · exact .inl ⟨hself, portno, rfl⟩
        · exact .inr h
  | direct _ _ _ _ _ _ _ hpending =>
      rw [hpending] at h
      exact .inr h

end Peer

end OnDemandRouting.Proofs
