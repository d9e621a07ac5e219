import OnDemandRouting.Proofs.HandlerSpec

/-!
# The messages a handler call moves

A DATA frame carries one application message.  A call of a handler in which every
name lookup and every send succeeds only moves messages: what it took in, from the
wire or from its queue, is afterwards on the wire, in the queue, with an
application, or dropped for want of a port.
-/

namespace OnDemandRouting.Proofs

open OnDemandRouting.Lib
open OnDemandRouting.Model

/-- The message of a DATA frame. -/
def dataMsg? (f : OdrFrame) : Option AppMsg :=
  if FrameType.ofInt f.frameType = some .data then some f.message else none

/-- The messages among transmissions. -/
def sentMsgs (ts : List Transmission) : List AppMsg := ts.filterMap fun t => dataMsg? t.host

/-- The messages in a pending queue. -/
def queuedMsgs (pending : List PendingMsg) : List AppMsg :=
  pending.filterMap fun q => dataMsg? q.odrframe

/-- The messages handed to applications. -/
def handedMsgs (events : List PeerEvent) : List AppMsg := events.filterMap PeerEvent.sent?

/-- The messages dropped because nobody has their port. -/
def droppedMsgs (events : List PeerEvent) : List AppMsg :=
  events.filterMap PeerEvent.unknownPort?

section Frames

variable {f : OdrFrame} {type : FrameType} {ts : List Transmission}

theorem dataMsg?_of_data (h : FrameType.ofInt f.frameType = some .data) :
    dataMsg? f = some f.message := if_pos h

theorem dataMsg?_of_ne (h : FrameType.ofInt f.frameType = some type) (hne : type ≠ .data) :
    dataMsg? f = none := by
  rw [dataMsg?, h, if_neg]
  simpa using hne

@[simp] theorem dataMsg?_rrepFrame (bid hop len srcPort dstPort : Int) (destIp srcIp : Ip) :
    dataMsg? (rrepFrame bid hop len srcPort dstPort destIp srcIp) = none := rfl

theorem dataMsg?_floodFrame {out : FrameType} (hout : out = .rreq ∨ out = .asent)
    (bid hop flag srcPort dstPort : Int) (destIp srcIp : Ip) :
    dataMsg? (floodFrame out bid hop flag srcPort dstPort destIp srcIp) = none := by
  rcases hout with rfl | rfl
  · rfl
  · rfl

theorem sentMsgs_eq_nil (h : ∀ t ∈ ts, dataMsg? t.host = none) : sentMsgs ts = [] :=
  List.filterMap_eq_nil_iff.mpr h

theorem filterMap_cons_toList {α β : Type} (g : α → Option β) (a : α) (l : List α) :
    (a :: l).filterMap g = (g a).toList ++ l.filterMap g := by
  cases h : g a with
  | none => simp [h]
  | some b => simp [h]

@[simp] theorem sentMsgs_cons (t : Transmission) (ts : List Transmission) :
    sentMsgs (t :: ts) = (dataMsg? t.host).toList ++ sentMsgs ts :=
  filterMap_cons_toList _ t ts

@[simp] theorem queuedMsgs_cons (q : PendingMsg) (pending : List PendingMsg) :
    queuedMsgs (q :: pending) = (dataMsg? q.odrframe).toList ++ queuedMsgs pending :=
  filterMap_cons_toList _ q pending

theorem count_queuedMsgs_eraseKey {pending : List PendingMsg} {ip : Ip} {q : PendingMsg}
    (hq : findKey PendingMsg.destip ip pending = some q) (m : AppMsg) :
    (queuedMsgs pending).count m = (dataMsg? q.odrframe).toList.count m +
      (queuedMsgs (eraseKey PendingMsg.destip ip pending)).count m := by
  have hperm : (queuedMsgs pending).Perm
      (queuedMsgs (q :: eraseKey PendingMsg.destip ip pending)) :=
    (perm_cons_eraseKey hq).filterMap _
  rw [hperm.count_eq, queuedMsgs_cons, List.count_append]

end Frames

/-- The case of the switch only moves messages. -/
def Balanced (env : Env) (selfIp : Ip) (f : OdrFrame) (pending : List PendingMsg)
    (r : Reaction) : Prop :=
  ∀ m deleted, (sentMsgs (r.outcome env selfIp deleted).sent).count m +
      (queuedMsgs r.node.pending).count m + (handedMsgs r.events).count m +
      (droppedMsgs r.events).count m =
    (dataMsg? f).toList.count m + (queuedMsgs pending).count m

section React

variable {cfg : Config} {env : Env} {intfN : Int} {f : OdrFrame} {l : Learned}
  {dest : Option REntry} {st : NodeState} {type : FrameType} {r : Reaction}
  {pending : List PendingMsg} {selfIp : Ip}

/-- A case that sends no message and reports nothing. -/
theorem balanced_of_silent (hevents : r.events = [])
    (hsilent : ∀ ts, r.plan = .ok ts → ∀ t ∈ ts, dataMsg? t.host = none)
    (hqueue : ∀ m, (queuedMsgs r.node.pending).count m =
      (dataMsg? f).toList.count m + (queuedMsgs pending).count m) :
    Balanced env selfIp f pending r := by
  intro m deleted
  have hsent : sentMsgs (r.outcome env selfIp deleted).sent = [] := by
    refine sentMsgs_eq_nil fun t ht => ?_
    obtain ⟨ts, hplan, hts⟩ := Reaction.mem_outcome_sent ht
    exact hsilent ts hplan t hts
  rw [hsent, hevents, hqueue m]
  simp [handedMsgs, droppedMsgs]

theorem sendAlong_eq {e : REntry} (h : HasInterface cfg e) (frame : OdrFrame) :
    ∃ t, sendAlong cfg.hwa e frame = .ok [t] ∧ t.host = processRecvdFrame frame := by
  obtain ⟨mac, hmac⟩ := h
  exact ⟨_, by rw [sendAlong, hmac], rfl⟩

theorem sendDataMessage_eq {e : REntry} (h : HasInterface cfg e) (selfIp : Ip) (portno : Int)
    (sparams : SendParams) :
    ∃ t : Transmission, sendDataMessage cfg.hwa selfIp portno sparams e = .ok [t] := by
  obtain ⟨mac, hmac⟩ := h
  exact ⟨_, by rw [sendDataMessage, sendAlong, hmac]⟩

/-- A case that sends one frame along a route. -/
theorem sentMsgs_of_sendAlong {e : REntry} {frame : OdrFrame} {deleted : List Ip}
    (henv : env.Succeeds) (he : HasInterface cfg e)
    (hplan : r.plan = sendAlong cfg.hwa e (convertHostNetOrder frame)) :
    sentMsgs (r.outcome env selfIp deleted).sent = (dataMsg? frame).toList := by
  obtain ⟨t, hsend, hhost⟩ := sendAlong_eq he (convertHostNetOrder frame)
  rw [processRecvdFrame, convertNetHostOrder_convertHostNetOrder] at hhost
  rw [Reaction.outcome_sent_of_linksUp henv.toLinksUp (hplan.trans hsend), sentMsgs_cons, hhost]
  exact List.append_nil _

theorem balanced_park : Balanced env cfg.selfIp f st.pending (parkFrame cfg env intfN f st) := by
  refine balanced_of_silent rfl (fun ts hplan t ht => ?_) (fun m => ?_)
  · simp only [parkFrame] at hplan
    split_ifs at hplan
    obtain rfl := Except.ok.inj hplan
    rw [(mem_sendReqBroadcast ht).2]
    exact dataMsg?_floodFrame (.inl rfl) _ _ _ _ _ _ _
  · simp [parkFrame, insertPendingQueue]

theorem balanced_rreq (htype : FrameType.ofInt f.frameType = some .rreq) :
    Balanced env cfg.selfIp f st.pending (handleRreq cfg intfN f l dest st) := by
  have hstate : (handleRreq cfg intfN f l dest st).node.pending = st.pending :=
    handleRreq_state.pending
  have hevents : (handleRreq cfg intfN f l dest st).events = [] := by
    unfold handleRreq
    by_cases hself : f.destIp = cfg.selfIp
    · rw [if_pos hself]
    · rw [if_neg hself]
      cases dest <;> rfl
  refine balanced_of_silent hevents (fun ts hplan t ht => ?_) (fun m => ?_)
  · cases handleRreq_sends hplan ht with
    | relay out _ hout _ _ _ hhost =>
        rw [hhost]
        exact dataMsg?_floodFrame hout _ _ _ _ _ _ _
    | answerOwn _ _ hhost => simp [hhost]
    | answerCached _ _ _ hhost => simp [hhost]
    | request hin => simp at hin
  · simp [hstate, dataMsg?_of_ne htype (by decide)]

theorem balanced_asent (htype : FrameType.ofInt f.frameType = some .asent) :
    Balanced env cfg.selfIp f st.pending (handleAsent cfg intfN f l st) := by
  refine balanced_of_silent rfl (fun ts hplan t ht => ?_) (fun m => ?_)
  · have hsends : EthSends cfg intfN f l none st .asent t := handleAsent_sends hplan ht
    cases hsends with
    | relay out _ hout _ _ _ hhost =>
        rw [hhost]
        exact dataMsg?_floodFrame hout _ _ _ _ _ _ _
    | request hin => simp at hin
  · simp [handleAsent, dataMsg?_of_ne htype (by decide)]

/-- Releasing the frame that waited first. -/
theorem balanced_release {q : PendingMsg} (henv : env.Succeeds)
    (htype : FrameType.ofInt f.frameType = some .rrep)
    (hq : findKey PendingMsg.destip f.srcIp st.pending = some q)
    (hqtype : FrameType.ofInt q.odrframe.frameType = some .rrep ∨
      FrameType.ofInt q.odrframe.frameType = some .data) (hl : HasInterface cfg l.entry) :
    Balanced env cfg.selfIp f st.pending (releaseFrame cfg l q.odrframe
      { st with pending := eraseKey PendingMsg.destip f.srcIp st.pending }) := by
  have hcount := count_queuedMsgs_eraseKey hq
  have hf : dataMsg? f = none := dataMsg?_of_ne htype (by decide)
  rcases hqtype with hqtype | hqtype
  · simp only [releaseFrame, fields_odrFrame, hqtype]
    refine balanced_of_silent rfl (fun ts hplan t ht => ?_) (fun m => ?_)
    · rw [(mem_sendRrepPacket hplan ht).2]
      rfl
    · simp [hf, hcount m, dataMsg?_of_ne hqtype (by decide)]
  · simp only [releaseFrame, fields_odrFrame, hqtype]
    intro m deleted
    rw [sentMsgs_of_sendAlong henv hl rfl, hf]
    simp [handedMsgs, droppedMsgs, hcount m]

theorem balanced_rrep (henv : env.Succeeds) (htype : FrameType.ofInt f.frameType = some .rrep)
    (hl : HasInterface cfg l.entry)
    (hpending : ∀ q ∈ st.pending, FrameType.ofInt q.odrframe.frameType = some .rrep ∨
      FrameType.ofInt q.odrframe.frameType = some .data) :
    Balanced env cfg.selfIp f st.pending (handleRrep cfg env intfN f l dest st) := by
  have hf : dataMsg? f = none := dataMsg?_of_ne htype (by decide)
  simp only [handleRrep, fields_odrFrame, lookupPendingQueue_list]
  split_ifs with hself
  · unfold lookupPendingQueue
    cases hq : findKey PendingMsg.destip f.srcIp st.pending with
    | none => exact balanced_of_silent rfl (by simp) (by simp [hf])
    | some q => exact balanced_release henv htype hq (hpending q (mem_of_findKey hq).1) hl
  · cases dest with
    | none => exact balanced_park
    | some d =>
        refine balanced_of_silent rfl (fun ts hplan t ht => ?_) (by simp [hf])
        rw [(mem_sendRrepPacket hplan ht).2]
        rfl

theorem balanced_data (henv : env.Succeeds) (htype : FrameType.ofInt f.frameType = some .data)
    (hd : ∀ d, dest = some d → HasInterface cfg d) :
    Balanced env cfg.selfIp f st.pending (handleData cfg env intfN f l dest st) := by
  simp only [handleData, fields_odrFrame]
  split_ifs with hself
  · intro m deleted
    rw [dataMsg?_of_data htype, Reaction.outcome_sent_of_linksUp henv.toLinksUp rfl]
    unfold processDataMessage sendToPeerProcess
    cases fetchEntryPort f.dstPort st.ports with
    | none =>
        have hhanded : handedMsgs [.noSunPath f.message] = [] := rfl
        have hdropped : droppedMsgs [.noSunPath f.message] = [f.message] := rfl
        simp only [hhanded, hdropped, sentMsgs, List.filterMap_nil, List.count_nil,
          Option.toList_some]
        omega
    | some e =>
        have hhanded : handedMsgs [.sentTo e.sunPath f.message] = [f.message] := rfl
        have hdropped : droppedMsgs [.sentTo e.sunPath f.message] = [] := rfl
        simp only [henv.peerOk, if_true, hhanded, hdropped, sentMsgs, List.filterMap_nil,
          List.count_nil, Option.toList_some]
        omega
  · cases dest with
    | none => exact balanced_park
    | some d =>
        intro m deleted
        rw [sentMsgs_of_sendAlong henv (hd d rfl) rfl]
        simp [handedMsgs, droppedMsgs, dataMsg?, htype, OdrFrame.message]

theorem balanced_react (henv : env.Succeeds) (htype : FrameType.ofInt f.frameType = some type)
    (hl : HasInterface cfg l.entry) (hd : ∀ d, dest = some d → HasInterface cfg d)
    (hpending : ∀ q ∈ st.pending, FrameType.ofInt q.odrframe.frameType = some .rrep ∨
      FrameType.ofInt q.odrframe.frameType = some .data) :
    Balanced env cfg.selfIp f st.pending (react cfg env intfN f l dest st type) := by
  cases type with
  | rreq => exact balanced_rreq htype
  | rrep => exact balanced_rrep henv htype hl hpending
  | data => exact balanced_data henv htype hd
  | asent => exact balanced_asent htype

/-- Only a DATA frame for this node is reported, with its message. -/
theorem mem_react_events {ev : PeerEvent}
    (h : ev ∈ (react cfg env intfN f l dest st type).events) :
    f.destIp = cfg.selfIp ∧ ev = processDataMessage env st.ports f := by
  cases type with
  | rreq =>
      simp only [react, handleRreq] at h
      split_ifs at h
      · simp at h
      · cases dest <;> simp at h
      · cases dest <;> simp at h
  | rrep =>
      simp only [react, handleRrep, fields_odrFrame, lookupPendingQueue_list,
        lookupPendingQueue] at h
      split_ifs at h
      · cases hq : findKey PendingMsg.destip f.srcIp st.pending with
        | none => simp [hq] at h
        | some q =>
            simp only [hq, releaseFrame] at h
            split at h <;> simp at h
      · cases dest <;> simp [parkFrame] at h
  | data =>
      simp only [react, handleData, fields_odrFrame] at h
      split_ifs at h with hself
      · exact ⟨hself, by simpa using h⟩
      · cases dest <;> simp [parkFrame] at h
  | asent => simp [react, handleAsent] at h

theorem processDataMessage_sent? {m : AppMsg} {ports : List MapPortSp}
    (h : (processDataMessage env ports f).sent? = some m) : m = f.message := by
  unfold processDataMessage sendToPeerProcess at h
  split at h
  · simp [PeerEvent.sent?] at h
  · split_ifs at h
    · exact (Option.some.inj h).symm
    · simp [PeerEvent.sent?] at h

theorem processDataMessage_unknownPort? {m : AppMsg} {ports : List MapPortSp}
    (h : (processDataMessage env ports f).unknownPort? = some m) :
    m = f.message ∧ fetchEntryPort f.dstPort ports = none := by
  unfold processDataMessage sendToPeerProcess at h
  split at h
  · next hport => exact ⟨(Option.some.inj h).symm, hport⟩
  · split_ifs at h <;> simp [PeerEvent.unknownPort?] at h

end React

/-! ## Requests -/

/-- A request adds the message it accepts, to the wire or to the queue. -/
theorem PeerCall.balance {cfg : Config} {env : Env} {sparams : SendParams} {st : NodeState}
    {o : Outcome} (hcall : PeerCall cfg env sparams st o) (henv : env.Succeeds)
    (he : ∀ e ∈ st.table, HasInterface cfg e) (m : AppMsg) :
    (sentMsgs o.sent).count m + (queuedMsgs o.node.pending).count m =
      (acceptedMsg cfg sparams st o.exit).count m + (queuedMsgs st.pending).count m := by
  cases hcall with
  | idle hsent _ haccepted _ hpending =>
      rw [hsent, haccepted, hpending]
      rfl
  | flooded portno _ _ hsent _ _ hqueue =>
      have hsilent : sentMsgs o.sent = [] := by
        refine sentMsgs_eq_nil fun t ht => ?_
        rw [hsent] at ht
        rw [(mem_sendReqBroadcast (mem_of_mem_sendRawFrames ht)).2]
        exact dataMsg?_floodFrame (.inl rfl) _ _ _ _ _ _ _
      rcases hqueue with ⟨hfails, _⟩ | ⟨_, hpending, haccepted⟩
      · exact absurd henv.toLinksUp hfails
      · have hmsg : dataMsg? (queuedMsg cfg sparams portno (st.counter.value + 2)).odrframe =
            some (sparams.message cfg.selfIp portno) := rfl
        rw [hsilent, hpending, haccepted, queuedMsgs_cons, hmsg, List.count_append]
        simp
  | direct portno e _ hentry hsent _ _ hpending _ haccepted hgoes =>
      have hmem : e ∈ st.table := (route_mem (getREntry_entry hentry).1).1
      obtain ⟨⟨t, hone⟩, hexit⟩ := hgoes henv.toLinksUp (he e hmem)
      have hhost := (hsent t (by simp [hone])).2
      have hmsg : dataMsg? t.host = some (sparams.message cfg.selfIp portno) := by
        rw [hhost]
        rfl
      rw [hone, hpending, haccepted, if_pos hexit, sentMsgs_cons, hmsg]
      rfl

end OnDemandRouting.Proofs
