import OnDemandRouting.Model.Machine
import OnDemandRouting.Proofs.QueueHeap
import OnDemandRouting.Proofs.Sizes
import OnDemandRouting.Proofs.TableHeap

/-!
# The daemons in memory

The handlers on bytes and pointers beside those on frames and lists.  A frame in memory is
read as a frame of the model; building, converting and changing it commute with reading it
as long as its values fit, and the operations on table and queue do what those on lists do.
So from a memory that stands for a state of the model a handler leaves a memory that stands
for the state the model leaves, and sends the frames the model sends.
-/

namespace OnDemandRouting.Proofs

open OnDemandRouting.Lib
open OnDemandRouting.Model
open OnDemandRouting.Model.Machine (Memory Sent byteOps)
open OnDemandRouting.Model.Wire (IsInt32 bytes odrFrameAt frameSize ethFrameLen setInt)

/-! ## Frames -/

/-- The bytes are those of a structure with the values of `f`. -/
structure FrameAt (frame : List UInt8) (f : OdrFrame) : Prop where
  length : frame.length = frameSize
  read : odrFrameAt frame = f

section Frames

variable {frame recvBuf : List UInt8} {f buf : OdrFrame} {b x : Int}

theorem FrameAt.hostNet (h : FrameAt frame f) :
    FrameAt (Wire.convertHostNetOrder frame) (convertHostNetOrder f) where
  length := length_convertHostNetOrder h.length
  read := by rw [odrFrameAt_convertHostNetOrder h.length, h.read]

theorem FrameAt.netHost (h : FrameAt frame f) :
    FrameAt (Wire.convertNetHostOrder frame) (convertNetHostOrder f) := h.hostNet

theorem FrameAt.setHopCount (h : FrameAt frame f) (hx : IsInt32 x) :
    FrameAt (setInt .hopCount x frame) { f with hopCount := x } where
  length := length_setInt h.length
  read := by rw [odrFrameAt_setInt_hopCount h.length hx, h.read]

theorem frameAt_processRecvdFrame (hlen : recvBuf.length = ethFrameLen)
    (hread : odrFrameAt (slice 14 frameSize recvBuf) = buf) :
    FrameAt (Wire.processRecvdFrame recvBuf) (processRecvdFrame buf) :=
  FrameAt.netHost ⟨length_slice_recvd hlen, hread⟩

/-- What `construct_odr` builds from values that fit. -/
theorem frameAt_of_fits {type bid hop len flag srcPort dstPort : Int} {destIp srcIp : Ip}
    {payload : String} (hb : b < 2 ^ 31)
    (h : FrameWithin b ⟨type, bid, hop, len, flag, srcPort, dstPort, destIp, srcIp, payload⟩) :
    FrameAt (byteOps.constructOdr type bid hop len flag srcPort dstPort destIp srcIp payload)
      (constructOdr type bid hop len flag srcPort dstPort destIp srcIp payload) := by
  have hfit : StringsFit (bytes destIp) (bytes srcIp) (bytes payload) :=
    { dstip_nul := zero_notMem_bytes h.destIp.cstring
      dstip_len := by
        rw [length_bytes]
        exact Nat.le_of_lt_succ h.destIp.length_lt
      srcip_nul := zero_notMem_bytes h.srcIp.cstring
      srcip_len := by
        rw [length_bytes]
        exact Nat.le_of_lt_succ h.srcIp.length_lt
      payload_nul := zero_notMem_bytes h.payload.cstring
      payload_len := by
        rw [length_bytes]
        exact Nat.le_of_lt_succ h.payload.length_lt }
  have hints : ∀ x ∈ [type, bid, hop, len, flag, srcPort, dstPort], IsInt32 x := by
    simp only [List.forall_mem_cons, List.not_mem_nil, false_imp_iff, implies_true, and_true]
    exact ⟨h.type, h.id.isInt32 hb, h.hops.isInt32 hb, h.len, h.flag, h.srcPort, h.dstPort⟩
  refine ⟨hfit.length_constructOdr .., ?_⟩
  change odrFrameAt (Wire.constructOdr ..) = _
  rw [odrFrameAt_constructOdr hints hfit, text_bytes h.destIp.cstring, text_bytes h.srcIp.cstring,
    text_bytes h.payload.cstring]

/-- Only a DATA frame gets the payload, and so only there it has to fit. -/
theorem frameAt_constructOdr {type bid hop len flag srcPort dstPort : Int} {destIp srcIp : Ip}
    {payload : String} (hb : b < 2 ^ 31)
    (h : FrameWithin b (processRecvdFrame
      (constructOdr type bid hop len flag srcPort dstPort destIp srcIp payload))) :
    FrameAt (byteOps.constructOdr type bid hop len flag srcPort dstPort destIp srcIp payload)
      (constructOdr type bid hop len flag srcPort dstPort destIp srcIp payload) := by
  rw [processRecvdFrame_constructOdr] at h
  by_cases hdata : type = FrameType.data.toInt
  · rw [if_pos hdata] at h
    exact frameAt_of_fits hb h
  · rw [if_neg hdata] at h
    have hempty := frameAt_of_fits hb h
    simp only [FrameOps.constructOdr, Wire.constructOdr, constructOdr, constructOdrWith,
      if_neg hdata] at hempty ⊢
    exact hempty

end Frames

/-- The operations on bytes do what those on frames do, as long as what is sent fits. -/
def byteFrames : FrameSim byteOps (frameOps htonl) where
  Host := FrameAt
  Wire frame f := (∃ b, b < 2 ^ 31 ∧ FrameWithin b (processRecvdFrame f)) → FrameAt frame f
  fields_eq h := h.read
  construct := by
    rintro type bid hop len flag srcPort dstPort destIp srcIp payload ⟨b, hb, hf⟩
    exact frameAt_constructOdr hb hf
  relay := by
    rintro frame f n hframe ⟨b, hb, hf⟩
    have hrecvd : processRecvdFrame (convertHostNetOrder { f with hopCount := n }) =
        { f with hopCount := n } := convertNetHostOrder_convertHostNetOrder _
    have hn : FrameWithin b { f with hopCount := n } := hrecvd ▸ hf
    exact (hframe.setHopCount (hn.hops.isInt32 hb)).hostNet
  release hframe _ := hframe.hostNet

/-! ## The handlers -/

/-- The memory of a daemon stands for a state of the model. -/
abbrev StandsFor : Memory → NodeState → Prop := StateSim Listed (HoldsSim FrameAt)

/-- A handler call beside that of the model. -/
abbrev CallAt : Outcome (List UInt8) RouteHeap.Table (PendingHeap.Queue (List UInt8)) →
    Outcome → Prop :=
  OutcomeSim FrameAt Listed (HoldsSim FrameAt)

section Handlers

variable {cfg : Config} {recvBuf : List UInt8} {buf : OdrFrame} {st : Memory} {st' : NodeState}
  {sparams : SendParams} {b : Int}

theorem standsFor_initial : StandsFor .initial .initial :=
  ⟨⟨[], ⟨.nil none, .nil⟩, rfl⟩, ⟨[], ⟨⟨none, .nil none⟩, .nil⟩, .nil⟩, rfl, rfl, rfl⟩

/-- What is sent fits, so the bytes are those of the frames. -/
theorem callAt_of_fits
    {o : Outcome (List UInt8) RouteHeap.Table (PendingHeap.Queue (List UInt8))} {o' : Outcome}
    (h : OutcomeSim byteFrames.Wire Listed (HoldsSim FrameAt) o o') (hb : b < 2 ^ 31)
    (hfits : ∀ t ∈ o'.sent, FrameWithin b t.host) : CallAt o o' := by
  have hboth := (List.forall₂_and_left o'.sent o.sent).mpr ⟨hfits, h.sent.flip⟩
  have hsent : List.Forall₂ (SentSim FrameAt) o.sent o'.sent :=
    hboth.flip.imp fun t t' ht => { ht.2 with frame := ht.2.frame ⟨b, hb, ht.1⟩ }
  exact { h with sent := hsent }

/-- `handle_ethernet_msg` on bytes does what it does in the model. -/
theorem handleEthernetMsg_at (h : StandsFor st st') (env : Env) (intfN : Int) (addr : Mac)
    (hlen : recvBuf.length = ethFrameLen)
    (hread : odrFrameAt (slice 14 frameSize recvBuf) = buf) (hbound : b + 2 < 2 ^ 31)
    (hstate : StateWithin b st') (hbuf : FrameWithin b (processRecvdFrame buf))
    (hself : InBuffer 16 cfg.selfIp) :
    CallAt (handleEthernetMsg cfg env intfN addr recvBuf st)
      (handleEthernetMsg cfg env intfN addr buf st') := by
  have hsim := handleEthernetMsg_sim byteFrames heapTables (pendingQueues FrameAt) h cfg env intfN
    addr (frameAt_processRecvdFrame hlen hread)
  exact callAt_of_fits hsim hbound (hstate.ethernet env intfN addr hbuf hself).2

/-- The frame that is queued, if its values fit. -/
theorem frameAt_queuedFrame {freshId portno : Int} (hb : b < 2 ^ 31) (hid : CountTo b freshId)
    (hportno : IsInt32 portno) (hreq : RequestFits sparams) (hself : InBuffer 16 cfg.selfIp) :
    FrameAt (queuedFrame freshId portno cfg.selfIp sparams)
      (queuedFrame freshId portno cfg.selfIp sparams) := by
  have hzero : CountTo b 0 := countTo_zero (Int.le_trans hid.1 hid.2)
  exact (frameAt_of_fits hb ⟨isInt32_toInt .data, hzero, hid, isInt32_payloadSize, isInt32_zero,
    hportno, hreq.destport, hreq.destip, hself, hreq.msg⟩).netHost

/-- `handle_peer_msg` does what it does in the model. -/
theorem handlePeerMsg_at (h : StandsFor st st') (hbound : b + 2 < 2 ^ 31)
    (hstate : StateWithin b st') (hreq : RequestFits sparams) (hself : InBuffer 16 cfg.selfIp)
    (env : Env) :
    CallAt (handlePeerMsg cfg env sparams st) (handlePeerMsg cfg env sparams st') := by
  have hb : b < 2 ^ 31 := by omega
  have hid : CountTo (b + 2) st'.counter.next.next.value := by
    have hvalue : st'.counter.next.next.value = st'.counter.value + 2 := by
      simp only [BroadcastCounter.next_value]
      omega
    rw [hvalue]
    exact hstate.freshId (by omega) (Int.le_refl _)
  have hsim := handlePeerMsg_sim byteFrames heapTables (pendingQueues FrameAt) h cfg env sparams
    fun r hpath => frameAt_queuedFrame hbound hid (hstate.fetched hb hreq.filename hpath).1.portno
      hreq hself
  exact callAt_of_fits hsim hbound (hstate.peer env hb hreq hself).2

end Handlers

end OnDemandRouting.Proofs
