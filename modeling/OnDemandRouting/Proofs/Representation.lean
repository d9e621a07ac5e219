import Mathlib.Data.List.Forall2
import OnDemandRouting.Model.EthernetMsg
import OnDemandRouting.Model.PeerMsg

/-!
# Two representations of one daemon

The handlers are written over the operations on frames, routing table and queue.  When the
operations of two representations agree, so do the handlers: from states that stand for each
other they send frames that stand for each other, do the same at the Unix-domain socket, end in
the same way and leave states that stand for each other.
-/

namespace OnDemandRouting.Proofs

open OnDemandRouting.Lib
open OnDemandRouting.Model

variable {Frame Frame' Table Table' Ptr Ptr' Queue Queue' : Type}

/-! ## Operations that agree -/

/-- The operations on frames agree.  `Host` relates frames in the order in which the handlers
read them, and `Wire` frames as they are sent. -/
structure FrameSim (R : FrameOps Frame) (S : FrameOps Frame') where
  Host : Frame → Frame' → Prop
  Wire : Frame → Frame' → Prop
  fields_eq {f : Frame} {f' : Frame'} : Host f f' → R.fields f = S.fields f'
  construct (type bid hopcount len rdiscFlag srcport dstport : Int) (dstip srcip : Ip)
      (payload : String) :
    Wire (R.constructOdr type bid hopcount len rdiscFlag srcport dstport dstip srcip payload)
      (S.constructOdr type bid hopcount len rdiscFlag srcport dstport dstip srcip payload)
  relay {f : Frame} {f' : Frame'} (n : Int) :
    Host f f' → Wire (R.convertHostNetOrder (R.setHopCount n f))
      (S.convertHostNetOrder (S.setHopCount n f'))
  release {f : Frame} {f' : Frame'} :
    Host f f' → Wire (R.convertHostNetOrder f) (S.convertHostNetOrder f')

/-- The operations on queues of frames that `Host` relates agree. -/
structure QueueSim (Host : Frame → Frame' → Prop) (Queue Queue' : Type)
    [R : QueueOps Queue Frame] [S : QueueOps Queue' Frame'] where
  Rel : Queue → Queue' → Prop
  insert {f : Frame} {f' : Frame'} {q : Queue} {q' : Queue'} (ip : Ip) :
    Host f f' → Rel q q' → Rel (R.insertPendingQueue f ip q) (S.insertPendingQueue f' ip q')
  lookup {q : Queue} {q' : Queue'} (ip : Ip) :
    Rel q q' → Option.Rel (fun r r' => Host r.1 r'.1 ∧ Rel r.2 r'.2)
      (R.lookupPendingQueue ip q) (S.lookupPendingQueue ip q')

/-- Two lookups find the same and leave tables that `Rel` relates. -/
structure LookupSim [R : TableOps Table Ptr] [S : TableOps Table' Ptr']
    (Rel : Table → Table' → Prop) (d : Lookup Table Ptr) (d' : Lookup Table' Ptr') : Prop where
  table : Rel d.table d'.table
  deleted : d.deleted = d'.deleted
  entry : d.entry.bind (R.entryAt d.table) = d'.entry.bind (S.entryAt d'.table)

/-- The source's route is learned in the same way. -/
structure LearnedSim [R : TableOps Table Ptr] [S : TableOps Table' Ptr']
    (Rel : Table → Table' → Prop) (r : Learned Table Ptr) (r' : Learned Table' Ptr') : Prop where
  table : Rel r.table r'.table
  flag : r.flag = r'.flag
  entry : R.entryAt r.table r.entry = S.entryAt r'.table r'.entry

/-- The operations on routing tables agree. -/
structure TableSim (Table Table' : Type) [R : TableOps Table Ptr] [S : TableOps Table' Ptr']
    where
  Rel : Table → Table' → Prop
  broadid {t : Table} {t' : Table'} (ip : Ip) (bid : Int) :
    Rel t t' → (R.isBroadidGreater ip bid t < 0 ↔ S.isBroadidGreater ip bid t' < 0)
  lookup {t : Table} {t' : Table'} (staleParam now : Int) (ip : Ip) (flag : Int) :
    Rel t t' → LookupSim Rel (R.getREntry staleParam now ip flag t)
      (S.getREntry staleParam now ip flag t')
  learn {Queue Queue' : Type} {st : NodeState Table Queue} {st' : NodeState Table' Queue'}
      (cfg : Config) (env : Env) (intfN : Int) (addr : Mac) (f : OdrFrame) :
    Rel st.table st'.table → LearnedSim Rel (learnedRoute cfg env intfN addr f st)
      (learnedRoute cfg env intfN addr f st')
  dest {Queue Queue' : Type} {st : NodeState Table Queue} {st' : NodeState Table' Queue'}
      (cfg : Config) (env : Env) (intfN : Int) (addr : Mac) (f : OdrFrame) :
    Rel st.table st'.table → derefDest cfg env intfN addr f st = derefDest cfg env intfN addr f st'

/-! Every representation agrees with itself. -/

def FrameSim.refl (R : FrameOps Frame) : FrameSim R R where
  Host := Eq
  Wire := Eq
  fields_eq h := congrArg R.fields h
  construct _ _ _ _ _ _ _ _ _ _ := rfl
  relay n h := congrArg (fun f => R.convertHostNetOrder (R.setHopCount n f)) h
  release h := congrArg R.convertHostNetOrder h

def QueueSim.refl [R : QueueOps Queue Frame] : QueueSim Eq Queue Queue where
  Rel := Eq
  insert := by
    rintro f _ q _ ip rfl rfl
    rfl
  lookup := by
    rintro q _ ip rfl
    cases R.lookupPendingQueue ip q with
    | none => exact .none
    | some r => exact .some ⟨rfl, rfl⟩

def TableSim.refl [R : TableOps Table Ptr] : TableSim Table Table where
  Rel := Eq
  broadid := by
    rintro t _ ip bid rfl
    exact Iff.rfl
  lookup := by
    rintro t _ staleParam now ip flag rfl
    exact ⟨rfl, rfl, rfl⟩
  learn := by
    rintro Queue Queue' ⟨t, _, _, _, _⟩ ⟨_, _, _, _, _⟩ cfg env intfN addr f rfl
    exact ⟨rfl, rfl, rfl⟩
  dest := by
    rintro Queue Queue' ⟨t, _, _, _, _⟩ ⟨_, _, _, _, _⟩ cfg env intfN addr f rfl
    rfl

/-! ## States and outcomes that stand for each other -/

/-- The globals of two daemons. -/
structure StateSim (TableRel : Table → Table' → Prop) (QueueRel : Queue → Queue' → Prop)
    (st : NodeState Table Queue) (st' : NodeState Table' Queue') : Prop where
  table : TableRel st.table st'.table
  pending : QueueRel st.pending st'.pending
  counter : st.counter = st'.counter
  ports : st.ports = st'.ports
  nextPortno : st.nextPortno = st'.nextPortno

/-- Two `send_raw_frame` calls. -/
structure SentSim (Wire : Frame → Frame' → Prop) (t : Transmission Frame)
    (t' : Transmission Frame') : Prop where
  index : t.intIndex = t'.intIndex
  srcMac : t.srcMac = t'.srcMac
  destMac : t.destMac = t'.destMac
  frame : Wire t.frame t'.frame

/-- Two plans. -/
inductive PlanSim (Wire : Frame → Frame' → Prop) : Plan Frame → Plan Frame' → Prop
  | error (exit : Exit) : PlanSim Wire (.error exit) (.error exit)
  | ok {ts : List (Transmission Frame)} {ts' : List (Transmission Frame')} :
      List.Forall₂ (SentSim Wire) ts ts' → PlanSim Wire (.ok ts) (.ok ts')

/-- Two cases of the `switch`. -/
structure ReactionSim (Wire : Frame → Frame' → Prop) (TableRel : Table → Table' → Prop)
    (QueueRel : Queue → Queue' → Prop) (r : Reaction Frame Table Queue)
    (r' : Reaction Frame' Table' Queue') : Prop where
  node : StateSim TableRel QueueRel r.node r'.node
  plan : PlanSim Wire r.plan r'.plan
  events : r.events = r'.events

/-- Two handler calls. -/
structure OutcomeSim (Wire : Frame → Frame' → Prop) (TableRel : Table → Table' → Prop)
    (QueueRel : Queue → Queue' → Prop) (o : Outcome Frame Table Queue)
    (o' : Outcome Frame' Table' Queue') : Prop where
  node : StateSim TableRel QueueRel o.node o'.node
  sent : List.Forall₂ (SentSim Wire) o.sent o'.sent
  events : o.events = o'.events
  deleted : o.deleted = o'.deleted
  exit : o.exit = o'.exit

section Relations

variable {Wire : Frame → Frame' → Prop} {TableRel : Table → Table' → Prop}
  {QueueRel : Queue → Queue' → Prop} {st : NodeState Table Queue} {st' : NodeState Table' Queue'}

theorem StateSim.eq {st st' : NodeState Table Queue} (h : StateSim Eq Eq st st') : st = st' := by
  obtain ⟨table, pending, counter, ports, nextPortno⟩ := st
  obtain ⟨rfl, rfl, rfl, rfl, rfl⟩ := h
  rfl

theorem StateSim.withTable (h : StateSim TableRel QueueRel st st') {t : Table} {t' : Table'}
    (ht : TableRel t t') :
    StateSim TableRel QueueRel { st with table := t } { st' with table := t' } :=
  { h with table := ht }

theorem StateSim.withPending (h : StateSim TableRel QueueRel st st') {q : Queue} {q' : Queue'}
    (hq : QueueRel q q') :
    StateSim TableRel QueueRel { st with pending := q } { st' with pending := q' } :=
  { h with pending := hq }

theorem StateSim.withCounter (h : StateSim TableRel QueueRel st st') {c c' : BroadcastCounter}
    (hc : c = c') :
    StateSim TableRel QueueRel { st with counter := c } { st' with counter := c' } :=
  { h with counter := hc }

theorem PlanSim.append {plan : Plan Frame} {plan' : Plan Frame'} (h : PlanSim Wire plan plan')
    {ts : List (Transmission Frame)} {ts' : List (Transmission Frame')}
    (hts : List.Forall₂ (SentSim Wire) ts ts') :
    PlanSim Wire (plan.map (· ++ ts)) (plan'.map (· ++ ts')) := by
  cases h with
  | error exit => exact .error exit
  | ok h => exact .ok (List.rel_append h hts)

theorem sendRawFrames_sim (env : Env) (selfIp : Ip) {ts : List (Transmission Frame)}
    {ts' : List (Transmission Frame')} (h : List.Forall₂ (SentSim Wire) ts ts') (k : Nat) :
    List.Forall₂ (SentSim Wire) (sendRawFrames env selfIp k ts).1
        (sendRawFrames env selfIp k ts').1 ∧
      (sendRawFrames env selfIp k ts).2 = (sendRawFrames env selfIp k ts').2 := by
  induction h generalizing k with
  | nil => exact ⟨.nil, rfl⟩
  | cons ht _ ih =>
      obtain ⟨hsent, hexit⟩ := ih (k + 1)
      rw [sendRawFrames, sendRawFrames]
      split_ifs
      · exact ⟨.cons ht hsent, hexit⟩
      · exact ⟨.nil, rfl⟩
      · exact ⟨.nil, rfl⟩

theorem sendAlong_sim (hwa : List HwaInfo) (entry : REntry) {frame : Frame} {frame' : Frame'}
    (h : Wire frame frame') :
    PlanSim Wire (sendAlong hwa entry frame) (sendAlong hwa entry frame') := by
  rw [sendAlong, sendAlong]
  cases getHwaddrFromInt entry.ifNo hwa with
  | none => exact .error _
  | some mac => exact .ok (.cons ⟨rfl, rfl, rfl, h⟩ .nil)

/-- Carrying out the plan of a case. -/
theorem ReactionSim.outcome {r : Reaction Frame Table Queue} {r' : Reaction Frame' Table' Queue'}
    (h : ReactionSim Wire TableRel QueueRel r r') (env : Env) (selfIp : Ip) (deleted : List Ip) :
    OutcomeSim Wire TableRel QueueRel (r.outcome env selfIp deleted)
      (r'.outcome env selfIp deleted) := by
  obtain ⟨node, plan, events⟩ := r
  obtain ⟨node', plan', events'⟩ := r'
  obtain ⟨hnode, hplan, hevents⟩ := h
  cases hplan with
  | error exit => exact ⟨hnode, .nil, hevents, rfl, rfl⟩
  | ok hts =>
      obtain ⟨hsent, hexit⟩ := sendRawFrames_sim env selfIp hts 0
      exact ⟨hnode, hsent, hevents, rfl, congrArg (fun o => o.getD (.returned 0)) hexit⟩

end Relations

/-! ## The senders -/

section Senders

variable {R : FrameOps Frame} {S : FrameOps Frame'} (frames : FrameSim R S)

theorem sendReqBroadcast_sim (hwa : List HwaInfo)
    (recvdIntIndex broadId srcPort dstport hopcount rdiscFlag : Int) (dstip srcip : Ip)
    (payload : String) (asentFlag : Bool) :
    List.Forall₂ (SentSim frames.Wire)
      (sendReqBroadcast hwa recvdIntIndex broadId srcPort dstport hopcount rdiscFlag dstip srcip
        payload asentFlag)
      (sendReqBroadcast hwa recvdIntIndex broadId srcPort dstport hopcount rdiscFlag dstip srcip
        payload asentFlag) := by
  rw [sendReqBroadcast, sendReqBroadcast, List.forall₂_map_left_iff, List.forall₂_map_right_iff,
    List.forall₂_same]
  intro r _
  exact ⟨rfl, rfl, rfl, frames.construct ..⟩

theorem sendRrepPacket_sim (hwa : List HwaInfo) (f : OdrFrame) (entry : REntry) (hopCount : Int)
    (swap : Bool) (counter : BroadcastCounter) :
    (sendRrepPacket hwa f entry hopCount swap counter : _ × Plan Frame).1 =
        (sendRrepPacket hwa f entry hopCount swap counter : _ × Plan Frame').1 ∧
      PlanSim frames.Wire (sendRrepPacket hwa f entry hopCount swap counter).2
        (sendRrepPacket hwa f entry hopCount swap counter).2 := by
  rw [sendRrepPacket, sendRrepPacket]
  cases getHwaddrFromInt entry.ifNo hwa with
  | none => exact ⟨rfl, .error _⟩
  | some mac => exact ⟨rfl, .ok (.cons ⟨rfl, rfl, rfl, frames.construct ..⟩ .nil)⟩

theorem sendDataMessage_sim (hwa : List HwaInfo) (selfIp : Ip) (srcPort : Int)
    (sparams : SendParams) (entry : REntry) :
    PlanSim frames.Wire (sendDataMessage hwa selfIp srcPort sparams entry)
      (sendDataMessage hwa selfIp srcPort sparams entry) :=
  sendAlong_sim hwa entry (frames.construct ..)

/-- The relayed copies, if there are any. -/
theorem relayed_sim (cfg : Config) (intfN : Int) (f : OdrFrame) (asentFlag flag : Bool) :
    List.Forall₂ (SentSim frames.Wire)
      (if flag then relayBroadcast cfg intfN f asentFlag else [])
      (if flag then relayBroadcast cfg intfN f asentFlag else []) := by
  cases flag with
  | false => exact .nil
  | true => exact sendReqBroadcast_sim frames ..

end Senders

/-! ## The cases of the `switch` -/

section Cases

variable {R : FrameOps Frame} {S : FrameOps Frame'} (frames : FrameSim R S)
  [RQ : QueueOps Queue Frame] [SQ : QueueOps Queue' Frame']
  (queues : QueueSim frames.Host Queue Queue') {TableRel : Table → Table' → Prop}
  {st : NodeState Table Queue} {st' : NodeState Table' Queue'}
  (hst : StateSim TableRel queues.Rel st st')
  {frame : Frame} {frame' : Frame'} (hframe : frames.Host frame frame')
  {learned : Learned Table} {learned' : Learned Table'}
  (hentry : learned.entry = learned'.entry) (hflag : learned.flag = learned'.flag)

include hst in
/-- A reply, with the state it leaves. -/
theorem reply_sim (hwa : List HwaInfo) (f : OdrFrame) (entry : REntry) (hopCount : Int)
    (swap : Bool) :
    StateSim TableRel queues.Rel
        { st with
          counter := (sendRrepPacket hwa f entry hopCount swap st.counter : _ × Plan Frame).1 }
        { st' with
          counter := (sendRrepPacket hwa f entry hopCount swap st'.counter : _ × Plan Frame').1 } ∧
      PlanSim frames.Wire (sendRrepPacket hwa f entry hopCount swap st.counter).2
        (sendRrepPacket hwa f entry hopCount swap st'.counter).2 := by
  obtain ⟨hcounter, hplan⟩ := sendRrepPacket_sim frames hwa f entry hopCount swap st.counter
  rw [← hst.counter]
  exact ⟨hst.withCounter hcounter, hplan⟩

include hst hframe in
theorem parkFrame_sim (cfg : Config) (env : Env) (intfN : Int) :
    ReactionSim frames.Wire TableRel queues.Rel (parkFrame cfg env intfN frame st)
      (parkFrame cfg env intfN frame' st') := by
  rw [parkFrame, parkFrame, frames.fields_eq hframe, hst.counter]
  refine ⟨(hst.withPending (queues.insert _ hframe hst.pending)).withCounter rfl, ?_, rfl⟩
  dsimp only
  split_ifs
  · exact .ok (sendReqBroadcast_sim frames ..)
  · exact .error _

include hst hentry hflag in
theorem handleRreq_sim (cfg : Config) (intfN : Int) (f : OdrFrame) (dest : Option REntry) :
    ReactionSim frames.Wire TableRel queues.Rel (handleRreq cfg intfN f learned dest st)
      (handleRreq cfg intfN f learned' dest st') := by
  unfold handleRreq
  rw [hentry, hflag]
  by_cases hself : f.destIp = cfg.selfIp
  · obtain ⟨hnode, hplan⟩ := reply_sim frames queues hst cfg.hwa f learned'.entry 0 true
    rw [if_pos hself, if_pos hself]
    exact ⟨hnode, hplan, rfl⟩
  · rw [if_neg hself, if_neg hself]
    cases dest with
    | some d =>
        obtain ⟨hnode, hplan⟩ := reply_sim frames queues hst cfg.hwa f learned'.entry d.noHops true
        exact ⟨hnode, hplan.append (relayed_sim frames ..), rfl⟩
    | none => exact ⟨hst, .ok (relayed_sim frames ..), rfl⟩

include hst hframe hentry in
theorem releaseFrame_sim (cfg : Config) :
    ReactionSim frames.Wire TableRel queues.Rel (releaseFrame cfg learned frame st)
      (releaseFrame cfg learned' frame' st') := by
  have hnone : ReactionSim frames.Wire TableRel queues.Rel
      { node := st, plan := .ok [], events := [] } { node := st', plan := .ok [], events := [] } :=
    ⟨hst, .ok .nil, rfl⟩
  rw [releaseFrame, releaseFrame, frames.fields_eq hframe, hentry]
  cases FrameType.ofInt (S.fields frame').frameType with
  | none => exact hnone
  | some type =>
      cases type with
      | rrep =>
          obtain ⟨hnode, hplan⟩ := reply_sim frames queues hst cfg.hwa (S.fields frame')
            learned'.entry (S.fields frame').hopCount false
          exact ⟨hnode, hplan, rfl⟩
      | data => exact ⟨hst, sendAlong_sim cfg.hwa learned'.entry (frames.release hframe), rfl⟩
      | rreq => exact hnone
      | asent => exact hnone

include hst hframe hentry in
theorem handleRrep_sim (cfg : Config) (env : Env) (intfN : Int) (dest : Option REntry) :
    ReactionSim frames.Wire TableRel queues.Rel (handleRrep cfg env intfN frame learned dest st)
      (handleRrep cfg env intfN frame' learned' dest st') := by
  unfold handleRrep
  rw [frames.fields_eq hframe]
  split_ifs
  · have hlookup := queues.lookup (S.fields frame').srcIp hst.pending
    generalize RQ.lookupPendingQueue _ _ = r, SQ.lookupPendingQueue _ _ = r' at hlookup
    cases hlookup with
    | none => exact ⟨hst, .ok .nil, rfl⟩
    | some h => exact releaseFrame_sim frames queues (hst.withPending h.2) h.1 hentry cfg
  · cases dest with
    | some d =>
        obtain ⟨hnode, hplan⟩ := reply_sim frames queues hst cfg.hwa (S.fields frame') d
          learned'.entry.noHops false
        rw [hentry]
        exact ⟨hnode, hplan, rfl⟩
    | none => exact parkFrame_sim frames queues hst hframe cfg env intfN

include hst hframe hentry in
theorem handleData_sim (cfg : Config) (env : Env) (intfN : Int) (dest : Option REntry) :
    ReactionSim frames.Wire TableRel queues.Rel (handleData cfg env intfN frame learned dest st)
      (handleData cfg env intfN frame' learned' dest st') := by
  unfold handleData
  rw [frames.fields_eq hframe]
  split_ifs
  · rw [hst.ports]
    exact ⟨hst, .ok .nil, rfl⟩
  · cases dest with
    | some d =>
        rw [hentry]
        exact ⟨hst, sendAlong_sim cfg.hwa d (frames.relay _ hframe), rfl⟩
    | none => exact parkFrame_sim frames queues hst hframe cfg env intfN

include hst hframe hentry hflag in
theorem react_sim (cfg : Config) (env : Env) (intfN : Int) (dest : Option REntry)
    (type : FrameType) :
    ReactionSim frames.Wire TableRel queues.Rel
      (react cfg env intfN frame learned dest st type)
      (react cfg env intfN frame' learned' dest st' type) := by
  cases type with
  | rreq =>
      rw [react, react, frames.fields_eq hframe]
      exact handleRreq_sim frames queues hst hentry hflag ..
  | rrep => exact handleRrep_sim frames queues hst hframe hentry ..
  | data => exact handleData_sim frames queues hst hframe hentry ..
  | asent =>
      rw [react, react, frames.fields_eq hframe, handleAsent, handleAsent, hflag]
      exact ⟨hst, .ok (relayed_sim frames ..), rfl⟩

end Cases

/-! ## The lookups -/

section Lookups

variable [RT : TableOps Table Ptr] [ST : TableOps Table' Ptr'] (tables : TableSim Table Table')
  {st : NodeState Table Queue} {st' : NodeState Table' Queue'}
  (htable : tables.Rel st.table st'.table)

include htable

theorem srcLookup_sim (cfg : Config) (env : Env) (f : OdrFrame) :
    LookupSim tables.Rel (srcLookup cfg env f st) (srcLookup cfg env f st') :=
  tables.lookup _ _ _ _ (tables.lookup _ _ _ _ htable).table

theorem deletedBy_sim (cfg : Config) (env : Env) (f : OdrFrame) :
    deletedBy cfg env f st = deletedBy cfg env f st' := by
  have hdest : (destLookup cfg env f st).deleted = (destLookup cfg env f st').deleted :=
    (tables.lookup _ _ _ _ htable).deleted
  rw [deletedBy, deletedBy, hdest, (srcLookup_sim tables htable cfg env f).deleted]

theorem duplicateFilter_sim (f : OdrFrame) :
    duplicateFilter f st.table = duplicateFilter f st'.table := by
  simp only [duplicateFilter, tables.broadid _ _ htable]

end Lookups

/-! ## The handlers -/

section Handlers

variable {R : FrameOps Frame} {S : FrameOps Frame'} (frames : FrameSim R S)
  [RT : TableOps Table Ptr] [ST : TableOps Table' Ptr'] (tables : TableSim Table Table')
  [RQ : QueueOps Queue Frame] [SQ : QueueOps Queue' Frame']
  (queues : QueueSim frames.Host Queue Queue')
  {st : NodeState Table Queue} {st' : NodeState Table' Queue'}
  (hst : StateSim tables.Rel queues.Rel st st')

include hst

/-- `handle_ethernet_msg` on frames that stand for each other. -/
theorem handleEthernetMsg_sim (cfg : Config) (env : Env) (intfN : Int) (addr : Mac)
    {buf : Frame} {buf' : Frame'}
    (hbuf : frames.Host (R.processRecvdFrame buf) (S.processRecvdFrame buf')) :
    OutcomeSim frames.Wire tables.Rel queues.Rel
      (handleEthernetMsg cfg env intfN addr buf st)
      (handleEthernetMsg cfg env intfN addr buf' st') := by
  unfold handleEthernetMsg
  generalize R.processRecvdFrame buf = frame, S.processRecvdFrame buf' = frame' at hbuf
  simp only [frames.fields_eq hbuf]
  generalize S.fields frame' = f
  have hlookups := hst.withTable (srcLookup_sim tables hst.table cfg env f).table
  have hlearned := tables.learn cfg env intfN addr f hst.table
  simp only [duplicateFilter_sim tables hst.table, deletedBy_sim tables hst.table cfg env f,
    tables.dest cfg env intfN addr f hst.table, hlearned.entry]
  split_ifs
  · exact ⟨hst, .nil, rfl, rfl, rfl⟩
  · exact ⟨hst, .nil, rfl, rfl, rfl⟩
  · cases FrameType.ofInt f.frameType with
    | none => exact ⟨hlookups, .nil, rfl, rfl, rfl⟩
    | some type =>
        have hnode := hst.withTable hlearned.table
        dsimp only
        generalize ST.entryAt _ _ = entry
        cases entry with
        | none => exact ⟨hnode, .nil, rfl, rfl, rfl⟩
        | some e => exact (react_sim frames queues hnode hbuf rfl hlearned.flag ..).outcome ..
  · exact ⟨hlookups, .nil, rfl, rfl, rfl⟩

/-- A request for another node.  Which port the frame that may be queued carries is known only
here, and so is whether its two forms stand for each other. -/
theorem handleRemoteMsg_sim (cfg : Config) (env : Env) (sparams : SendParams) (portno : Int)
    (hqueued : frames.Host (queuedFrame st'.counter.next.next.value portno cfg.selfIp sparams)
      (queuedFrame st'.counter.next.next.value portno cfg.selfIp sparams)) :
    OutcomeSim frames.Wire tables.Rel queues.Rel (handleRemoteMsg cfg env sparams portno st)
      (handleRemoteMsg cfg env sparams portno st') := by
  have hdest := tables.lookup cfg.staleParam env.destTime sparams.destip sparams.routeDiscFlag
    hst.table
  have hlookup := hst.withTable hdest.table
  unfold handleRemoteMsg
  simp only [hdest.entry, hdest.deleted, hst.counter]
  generalize Option.bind _ (ST.entryAt _) = entry
  cases entry with
  | none =>
      have hflood := sendReqBroadcast_sim frames cfg.hwa (-1) st'.counter.next.value portno
        sparams.destport 0 sparams.routeDiscFlag sparams.destip cfg.selfIp sparams.msg false
      obtain ⟨hsent, hexit⟩ := sendRawFrames_sim env cfg.selfIp hflood 0
      simp only [hexit]
      generalize (sendRawFrames env cfg.selfIp 0 (sendReqBroadcast (R := S) ..)).2 = exit
      cases exit with
      | some exit => exact ⟨hlookup.withCounter rfl, hsent, rfl, rfl, rfl⟩
      | none =>
          have hqueue := queues.insert sparams.destip hqueued hst.pending
          exact ⟨(hlookup.withPending hqueue).withCounter rfl, hsent, rfl, rfl, rfl⟩
  | some e =>
      have hplan := sendDataMessage_sim frames cfg.hwa cfg.selfIp portno sparams e
      dsimp only
      generalize sendDataMessage (R := R) .. = plan, sendDataMessage (R := S) .. = plan' at hplan
      cases hplan with
      | error exit => exact ⟨hlookup.withCounter rfl, .nil, rfl, rfl, rfl⟩
      | ok hts =>
          obtain ⟨hsent, hexit⟩ := sendRawFrames_sim env cfg.selfIp hts 0
          exact ⟨hlookup.withCounter rfl, hsent, rfl, rfl,
            congrArg (fun o => o.getD (.returned 1)) hexit⟩

theorem handleLocalMsg_sim (cfg : Config) (env : Env) (sparams : SendParams) (portno : Int) :
    OutcomeSim frames.Wire tables.Rel queues.Rel (handleLocalMsg cfg env sparams portno st)
      (handleLocalMsg cfg env sparams portno st') := by
  rw [handleLocalMsg, handleLocalMsg, hst.ports]
  cases fetchEntryPort sparams.destport st'.ports with
  | none => exact ⟨hst, .nil, rfl, rfl, rfl⟩
  | some peerEntry => exact ⟨hst, .nil, rfl, rfl, rfl⟩

/-- `handle_peer_msg`, if the two forms of the frame it may queue stand for each other. -/
theorem handlePeerMsg_sim (cfg : Config) (env : Env) (sparams : SendParams)
    (hqueued : ∀ r, fetchEntryPath sparams.filename st'.ports st'.nextPortno = some r →
      frames.Host (queuedFrame st'.counter.next.next.value r.1.portno cfg.selfIp sparams)
        (queuedFrame st'.counter.next.next.value r.1.portno cfg.selfIp sparams)) :
    OutcomeSim frames.Wire tables.Rel queues.Rel (handlePeerMsg cfg env sparams st)
      (handlePeerMsg cfg env sparams st') := by
  rw [handlePeerMsg, handlePeerMsg, hst.ports, hst.nextPortno]
  cases hpath : fetchEntryPath sparams.filename st'.ports st'.nextPortno with
  | none => exact ⟨hst, .nil, rfl, rfl, rfl⟩
  | some r =>
      obtain ⟨mapEntry, ports, next⟩ := r
      have hports : StateSim tables.Rel queues.Rel { st with ports := ports, nextPortno := next }
          { st' with ports := ports, nextPortno := next } :=
        { hst with ports := rfl, nextPortno := rfl }
      dsimp only
      split_ifs
      · exact handleLocalMsg_sim frames tables queues hports ..
      · exact handleRemoteMsg_sim frames tables queues hports cfg env sparams mapEntry.portno
          (hqueued _ hpath)
      · exact ⟨hports, .nil, rfl, rfl, rfl⟩

end Handlers

end OnDemandRouting.Proofs
