import OnDemandRouting.Model.Wiring
import OnDemandRouting.Proofs.Ports
import OnDemandRouting.Proofs.NetworkStep
import OnDemandRouting.Proofs.Transparency

/-!
# Values that stay in their C types

The model computes with unbounded integers and strings, the daemons with `int` and with
arrays of characters.  Broadcast ids, hop counts and port numbers grow by at most two in a
step, wherever they are kept, and every string of a frame comes from a request or is a
canonical address.  So a run that is not too long overflows no `int`, and no `strcpy` of
an address, a path or a payload leaves its array.  The host names that `get_name_ip` copies
for the messages on the terminal are not part of the model.
-/

namespace OnDemandRouting.Proofs

open OnDemandRouting.Lib
open OnDemandRouting.Model
open OnDemandRouting.Model.Wire (IsInt32)

/-! ## What fits -/

/-- The string lies in an array of `size` characters with its NUL. -/
structure InBuffer (size : Nat) (s : String) : Prop where
  cstring : IsCString s
  length_lt : s.toList.length < size

/-- The integer is a count that has reached at most `b`. -/
def CountTo (b x : Int) : Prop := 0 ≤ x ∧ x ≤ b

instance (b x : Int) : Decidable (CountTo b x) := inferInstanceAs (Decidable (_ ∧ _))

/-- A frame in host order, with id and hop count up to `b`. -/
structure FrameWithin (b : Int) (f : OdrFrame) : Prop where
  type : IsInt32 f.frameType
  id : CountTo b f.broadcastId
  hops : CountTo b f.hopCount
  len : IsInt32 f.payloadLen
  flag : IsInt32 f.routeDiscFlag
  srcPort : IsInt32 f.srcPort
  dstPort : IsInt32 f.dstPort
  destIp : InBuffer 16 f.destIp
  srcIp : InBuffer 16 f.srcIp
  payload : InBuffer 1440 f.payload

/-- An entry of the routing table, with id and hop count up to `b`. -/
structure EntryWithin (b : Int) (e : REntry) : Prop where
  id : CountTo b e.broadcastId
  hops : CountTo b e.noHops
  destip : InBuffer 16 e.destip

/-- A registered path and its port. -/
structure PortWithin (m : MapPortSp) : Prop where
  portno : IsInt32 m.portno
  sunPath : InBuffer 100 m.sunPath

/-- The globals of a daemon, with everything that is counted up to `b`. -/
structure StateWithin (b : Int) (st : NodeState) : Prop where
  counter : st.counter.value ≤ b
  nextPortno : CountTo b st.nextPortno
  ports : ∀ m ∈ st.ports, PortWithin m
  table : ∀ e ∈ st.table, EntryWithin b e
  pending : ∀ q ∈ st.pending, InBuffer 16 q.destip ∧ FrameWithin b q.odrframe

/-- A request whose values fit into a frame and into the port map. -/
structure RequestFits (sparams : SendParams) : Prop where
  destip : InBuffer 16 sparams.destip
  filename : InBuffer 100 sparams.filename
  msg : InBuffer 1440 sparams.msg
  destport : IsInt32 sparams.destport
  flag : IsInt32 sparams.routeDiscFlag

section Fits

variable {b b' x : Int} {f : OdrFrame} {ip : Ip}

theorem inBuffer_of_all {size : Nat} {s : String}
    (h : (s.toList.all fun c => decide (0 < c.toNat ∧ c.toNat < 256)) = true)
    (hlen : s.toList.length < size) : InBuffer size s :=
  ⟨fun c hc => of_decide_eq_true (List.all_eq_true.mp h c hc), hlen⟩

theorem inBuffer_empty : InBuffer 1440 "" := ⟨by simp [IsCString], by decide⟩

theorem isInt32_zero : IsInt32 0 := by decide

theorem isInt32_payloadSize : IsInt32 payloadSize := by decide

theorem isInt32_toInt (type : FrameType) : IsInt32 type.toInt := by
  cases type <;> decide

theorem CountTo.isInt32 (h : CountTo b x) (hb : b < 2 ^ 31) : IsInt32 x := by
  unfold CountTo at h
  unfold IsInt32
  omega

theorem CountTo.mono (h : CountTo b x) (hb : b ≤ b') : CountTo b' x :=
  ⟨h.1, Int.le_trans h.2 hb⟩

theorem CountTo.succ (h : CountTo b x) (hb : b + 1 ≤ b') : CountTo b' (x + 1) := by
  unfold CountTo at *
  omega

theorem countTo_zero (hb : 0 ≤ b) : CountTo b 0 := ⟨Int.le_refl 0, hb⟩

theorem FrameWithin.mono (h : FrameWithin b f) (hb : b ≤ b') : FrameWithin b' f :=
  { h with id := h.id.mono hb, hops := h.hops.mono hb }

theorem EntryWithin.mono {e : REntry} (h : EntryWithin b e) (hb : b ≤ b') : EntryWithin b' e :=
  { h with id := h.id.mono hb, hops := h.hops.mono hb }

theorem StateWithin.mono {st : NodeState} (h : StateWithin b st) (hb : b ≤ b') :
    StateWithin b' st where
  counter := Int.le_trans h.counter hb
  nextPortno := h.nextPortno.mono hb
  ports := h.ports
  table := fun e he => (h.table e he).mono hb
  pending := fun q hq => ⟨(h.pending q hq).1, (h.pending q hq).2.mono hb⟩

/-- A fresh broadcast id. -/
theorem StateWithin.freshId {st : NodeState} (h : StateWithin b st) {k : Int} (hk : 0 ≤ k)
    (hb : b + k ≤ b') : CountTo b' (st.counter.value + k) := by
  have := h.counter
  have := st.counter.ten_le
  unfold CountTo
  omega

theorem StateWithin.nonneg {st : NodeState} (h : StateWithin b st) : 0 ≤ b := by
  have := h.counter
  have := st.counter.ten_le
  omega

theorem stateWithin_initial : StateWithin 909 .initial where
  counter := by decide
  nextPortno := by decide
  ports := by
    intro m hm
    obtain rfl := List.mem_singleton.mp hm
    exact ⟨by decide, inBuffer_of_all (by decide) (by decide)⟩
  table := by simp [NodeState.initial]
  pending := by simp [NodeState.initial]

end Fits

/-! ## The handlers -/

section Handlers

variable {cfg : Config} {env : Env} {intfN : Int} {addr : Mac} {f buf : OdrFrame}
  {st : NodeState} {sparams : SendParams} {t : Transmission} {b : Int}

theorem entryWithin_updateREntry (hf : FrameWithin b f) :
    EntryWithin (b + 1) (updateREntry f intfN addr env.updateTime) where
  id := hf.id.mono (by omega)
  hops := hf.hops.succ (Int.le_refl _)
  destip := hf.srcIp

/-- The entries a processed frame leaves. -/
theorem StateWithin.learned (h : StateWithin b st) (hf : FrameWithin b f) {e : REntry}
    (he : e ∈ (learnedRoute cfg env intfN addr f st).table) : EntryWithin (b + 1) e := by
  rcases mem_learnedRoute_table he with rfl | he
  · exact entryWithin_updateREntry hf
  · exact (h.table e he).mono (by omega)

theorem StateWithin.learned_entry (h : StateWithin b st) (hf : FrameWithin b f) :
    EntryWithin (b + 1) (learnedRoute cfg env intfN addr f st).entry :=
  h.learned hf (route_mem (route_learnedRoute_self f)).1

theorem StateWithin.dest (h : StateWithin b st) (hf : FrameWithin b f) {d : REntry}
    (hd : derefDest cfg env intfN addr f st = some d) : EntryWithin (b + 1) d := by
  simp only [derefDest, rereadDest_list, rereadDest] at hd
  split_ifs at hd
  · obtain rfl := Option.some.inj hd
    exact h.learned_entry hf
  · exact (h.table d (route_mem (getREntry_entry hd).1).1).mono (by omega)

theorem frameWithin_floodFrame {type : FrameType} {bid hop flag srcPort dstPort : Int}
    {destIp srcIp : Ip} (hid : CountTo b bid) (hhop : CountTo b hop) (hflag : IsInt32 flag)
    (hsrc : IsInt32 srcPort) (hdst : IsInt32 dstPort) (hdestIp : InBuffer 16 destIp)
    (hsrcIp : InBuffer 16 srcIp) :
    FrameWithin b (floodFrame type bid hop flag srcPort dstPort destIp srcIp) :=
  ⟨isInt32_toInt type, hid, hhop, isInt32_zero, hflag, hsrc, hdst, hdestIp, hsrcIp,
    inBuffer_empty⟩

theorem frameWithin_rrepFrame {bid hop len srcPort dstPort : Int} {destIp srcIp : Ip}
    (hid : CountTo b bid) (hhop : CountTo b hop) (hlen : IsInt32 len) (hsrc : IsInt32 srcPort)
    (hdst : IsInt32 dstPort) (hdestIp : InBuffer 16 destIp) (hsrcIp : InBuffer 16 srcIp) :
    FrameWithin b (rrepFrame bid hop len srcPort dstPort destIp srcIp) :=
  ⟨isInt32_toInt .rrep, hid, hhop, hlen, isInt32_zero, hsrc, hdst, hdestIp, hsrcIp,
    inBuffer_empty⟩

/-- What a daemon sends on receipt of a frame. -/
theorem StateWithin.ethSends (h : StateWithin b st) (hf : FrameWithin b f)
    (hself : InBuffer 16 cfg.selfIp) {type : FrameType}
    (hsends : EthSends cfg intfN f (learnedRoute cfg env intfN addr f st)
      (derefDest cfg env intfN addr f st)
      { st with table := (learnedRoute cfg env intfN addr f st).table } type t) :
    FrameWithin (b + 2) t.host := by
  have hlearned : EntryWithin (b + 1) (learnedRoute cfg env intfN addr f st).entry :=
    h.learned_entry hf
  have hfresh : CountTo (b + 2) (st.counter.value + 1) := h.freshId (by omega) (by omega)
  have hzero : CountTo (b + 2) 0 := countTo_zero (by have := h.nonneg; omega)
  have hqueued {q : PendingMsg} {ip : Ip}
      (hq : findKey PendingMsg.destip ip st.pending = some q) : FrameWithin (b + 2) q.odrframe :=
    (h.pending q (mem_of_findKey hq).1).2.mono (by omega)
  have hid : CountTo (b + 2) f.broadcastId := hf.id.mono (by omega)
  cases hsends with
  | relay out _ _ _ _ _ hhost =>
      rw [hhost]
      exact frameWithin_floodFrame hid (hf.hops.succ (by omega)) hf.flag hf.srcPort hf.dstPort
        hf.destIp hf.srcIp
  | answerOwn _ _ hhost =>
      rw [hhost]
      exact frameWithin_rrepFrame hfresh hzero hf.len hf.dstPort hf.srcPort hf.srcIp hf.destIp
  | answerCached _ hd _ hhost =>
      rw [hhost]
      exact frameWithin_rrepFrame hfresh ((h.dest hf hd).hops.mono (by omega)) hf.len hf.dstPort
        hf.srcPort hf.srcIp hf.destIp
  | forwardRrep _ _ _ hhost =>
      rw [hhost]
      exact frameWithin_rrepFrame hid (hlearned.hops.mono (by omega)) hf.len hf.srcPort
        hf.dstPort hf.destIp hf.srcIp
  | releaseRrep _ hq _ _ hhost =>
      have hq' := hqueued hq
      rw [hhost]
      exact frameWithin_rrepFrame hq'.id hq'.hops hq'.len hq'.srcPort hq'.dstPort hq'.destIp
        hq'.srcIp
  | releaseData _ hq _ _ hhost =>
      rw [hhost]
      exact hqueued hq
  | forwardData _ _ _ hhost =>
      rw [hhost]
      exact { hf with id := hid, hops := hlearned.hops.mono (by omega) }
  | request _ _ _ _ hhost =>
      rw [hhost]
      exact frameWithin_floodFrame hfresh hzero isInt32_zero (by decide) hf.dstPort hf.destIp
        hself

theorem handleEthernetMsg_counter_le_succ (cfg : Config) (env : Env) (intfN : Int) (addr : Mac)
    (buf : OdrFrame) (st : NodeState) :
    (handleEthernetMsg cfg env intfN addr buf st).node.counter.value ≤ st.counter.value + 1 := by
  rcases handleEthernetMsg_cases cfg env intfN addr buf st with
    ⟨_, heq⟩ | ⟨_, _, exit, _, heq⟩ | ⟨type, _, heq⟩
  · rw [heq]
    show st.counter.value ≤ st.counter.value + 1
    omega
  · rw [heq]
    show st.counter.value ≤ st.counter.value + 1
    omega
  · rw [heq, Reaction.outcome_node, reaction_state.counter]
    split
    · exact Int.le_refl _
    · show st.counter.value ≤ st.counter.value + 1
      omega

/-- A received frame raises nothing by more than two. -/
theorem StateWithin.ethernet (h : StateWithin b st) (env : Env) (intfN : Int) (addr : Mac)
    (hf : FrameWithin b (processRecvdFrame buf)) (hself : InBuffer 16 cfg.selfIp) :
    StateWithin (b + 2) (handleEthernetMsg cfg env intfN addr buf st).node ∧
      ∀ t ∈ (handleEthernetMsg cfg env intfN addr buf st).sent, FrameWithin (b + 2) t.host := by
  obtain ⟨hports, hnext⟩ := handleEthernetMsg_ports cfg env intfN addr buf st
  have hcounter := handleEthernetMsg_counter_le_succ cfg env intfN addr buf st
  refine ⟨⟨?_, ?_, ?_, ?_, ?_⟩, ?_⟩
  · have := h.counter
    omega
  · rw [hnext]
    exact h.nextPortno.mono (by omega)
  · rw [hports]
    exact h.ports
  · intro e he
    rcases handleEthernetMsg_mem_table he with ⟨rfl, -⟩ | he
    · exact (entryWithin_updateREntry hf).mono (by omega)
    · exact (h.table e he).mono (by omega)
  · intro q hq
    rcases handleEthernetMsg_mem_pending hq with ⟨_, -, rfl, -⟩ | hq
    · exact ⟨hf.destIp, hf.mono (by omega)⟩
    · exact ⟨(h.pending q hq).1, (h.pending q hq).2.mono (by omega)⟩
  · intro t ht
    obtain ⟨type, -, -, hsends⟩ := handleEthernetMsg_sends ht
    exact h.ethSends hf hself hsends

/-! ### Requests -/

theorem frameWithin_dataFrame {bid hop flag srcPort dstPort : Int} {destIp srcIp : Ip}
    {payload : String} (hid : CountTo b bid) (hhop : CountTo b hop) (hflag : IsInt32 flag)
    (hsrc : IsInt32 srcPort) (hdst : IsInt32 dstPort) (hdestIp : InBuffer 16 destIp)
    (hsrcIp : InBuffer 16 srcIp) (hpayload : InBuffer 1440 payload) :
    FrameWithin b (dataFrame bid hop flag srcPort dstPort destIp srcIp payload) :=
  ⟨isInt32_toInt .data, hid, hhop, isInt32_payloadSize, hflag, hsrc, hdst, hdestIp, hsrcIp,
    hpayload⟩

/-- What `fetch_entry_path` returns and leaves. -/
theorem StateWithin.fetched (h : StateWithin b st) (hb : b < 2 ^ 31) {path : String}
    (hfile : InBuffer 100 path) {mapEntry : MapPortSp} {ports : List MapPortSp} {next : Int}
    (hpath : fetchEntryPath path st.ports st.nextPortno = some (mapEntry, ports, next)) :
    PortWithin mapEntry ∧ (∀ m ∈ ports, PortWithin m) ∧ CountTo (b + 2) next := by
  unfold fetchEntryPath at hpath
  split_ifs at hpath
  split at hpath
  · next curr hcurr =>
      obtain ⟨rfl, rfl, rfl⟩ := by simpa using hpath
      exact ⟨h.ports _ (mem_of_findKey hcurr).1, h.ports, h.nextPortno.mono (by omega)⟩
  · obtain ⟨rfl, rfl, rfl⟩ := by simpa using hpath
    have hnew : PortWithin ⟨st.nextPortno, path⟩ := ⟨h.nextPortno.isInt32 hb, hfile⟩
    exact ⟨hnew, List.forall_mem_cons.mpr ⟨hnew, h.ports⟩, h.nextPortno.succ (by omega)⟩

/-- A request for another node, once its port is known. -/
theorem StateWithin.remote (h : StateWithin b st) (hreq : RequestFits sparams)
    (hself : InBuffer 16 cfg.selfIp) {portno next : Int} {ports : List MapPortSp}
    (hportno : IsInt32 portno) (hports : ∀ m ∈ ports, PortWithin m)
    (hnext : CountTo (b + 2) next) :
    let o := handleRemoteMsg cfg env sparams portno
      { st with ports := ports, nextPortno := next }
    StateWithin (b + 2) o.node ∧ ∀ t ∈ o.sent, FrameWithin (b + 2) t.host := by
  have hzero : CountTo (b + 2) 0 := countTo_zero (by have := h.nonneg; omega)
  have hfresh : CountTo (b + 2) (st.counter.value + 1) := h.freshId (by omega) (by omega)
  have htable : ∀ e ∈ (peerLookup cfg env sparams st.table).table, EntryWithin (b + 2) e :=
    fun e he => (h.table e (mem_of_mem_getREntry_table he)).mono (by omega)
  have hpending : ∀ q ∈ st.pending, InBuffer 16 q.destip ∧ FrameWithin (b + 2) q.odrframe :=
    fun q hq => ⟨(h.pending q hq).1, (h.pending q hq).2.mono (by omega)⟩
  have hcounter := h.counter
  have hquiet : st.counter.value ≤ b + 2 := by omega
  have hqueued : CountTo (b + 2) st.counter.next.next.value := by
    have := st.counter.ten_le
    simp only [BroadcastCounter.next_value, CountTo]
    omega
  have hflood : ∀ t ∈ (sendRawFrames env cfg.selfIp 0 (sendReqBroadcast cfg.hwa (-1)
      st.counter.next.value portno sparams.destport 0 sparams.routeDiscFlag sparams.destip
      cfg.selfIp sparams.msg false)).1, FrameWithin (b + 2) t.host := by
    intro t ht
    obtain ⟨-, hhost⟩ := mem_sendReqBroadcast (mem_of_mem_sendRawFrames ht)
    rw [hhost]
    exact frameWithin_floodFrame hfresh hzero hreq.flag hportno hreq.destport hreq.destip hself
  intro o
  show StateWithin (b + 2) (handleRemoteMsg _ _ _ _ _).node ∧
    ∀ t ∈ (handleRemoteMsg _ _ _ _ _).sent, _
  simp only [handleRemoteMsg, getREntry_list, bind_entryAt_list]
  split
  · split
    · exact ⟨⟨by simp only [BroadcastCounter.next_value]; omega, hnext, hports, htable, hpending⟩,
        hflood⟩
    · refine ⟨⟨by simp only [BroadcastCounter.next_value]; omega, hnext, hports, htable, ?_⟩,
        hflood⟩
      intro q hq
      rcases List.mem_cons.mp hq with rfl | hq
      · refine ⟨hreq.destip, ?_⟩
        rw [queuedFrame_eq]
        exact frameWithin_dataFrame hzero hqueued isInt32_zero
          hportno hreq.destport hreq.destip hself hreq.msg
      · exact hpending q hq
  · next e he =>
      have hstate : StateWithin (b + 2) { st with
          table := (peerLookup cfg env sparams st.table).table
          ports := ports
          nextPortno := next } :=
        ⟨hquiet, hnext, hports, htable, hpending⟩
      split
      · exact ⟨hstate, by simp⟩
      · next plan hplan =>
          refine ⟨hstate, fun t ht => ?_⟩
          have hid : CountTo (b + 2) e.broadcastId :=
            (h.table e (route_mem (getREntry_entry he).1).1).id.mono (by omega)
          rw [(mem_sendDataMessage hplan (mem_of_mem_sendRawFrames ht)).2]
          exact frameWithin_dataFrame hid hzero hreq.flag hportno hreq.destport hreq.destip hself
            hreq.msg

/-- A request raises nothing by more than two. -/
theorem StateWithin.peer (h : StateWithin b st) (env : Env) (hb : b < 2 ^ 31)
    (hreq : RequestFits sparams) (hself : InBuffer 16 cfg.selfIp) :
    StateWithin (b + 2) (handlePeerMsg cfg env sparams st).node ∧
      ∀ t ∈ (handlePeerMsg cfg env sparams st).sent, FrameWithin (b + 2) t.host := by
  cases hpath : fetchEntryPath sparams.filename st.ports st.nextPortno with
  | none =>
      simp only [handlePeerMsg, hpath]
      exact ⟨h.mono (by omega), by simp⟩
  | some r =>
      obtain ⟨mapEntry, ports, next⟩ := r
      obtain ⟨hport, hports, hnext⟩ := h.fetched hb hreq.filename hpath
      have hstate : StateWithin (b + 2) { st with ports := ports, nextPortno := next } :=
        { (h.mono (by omega) : StateWithin (b + 2) st) with nextPortno := hnext, ports := hports }
      simp only [handlePeerMsg, hpath]
      split_ifs
      · rw [handleLocalMsg_node]
        refine ⟨hstate, ?_⟩
        unfold handleLocalMsg
        split <;> simp
      · exact h.remote hreq hself hport.portno hports hnext
      · exact ⟨hstate, by simp⟩

end Handlers

/-! ## Runs -/

section Runs

variable {Node : Type} {s s' : Net Node} {a : Action Node}

/-- Everything in the network is within `b`. -/
structure NetWithin (b : Int) (s : Net Node) : Prop where
  nodes : ∀ n, StateWithin b (s.nodes n)
  flight : ∀ p ∈ s.flight, FrameWithin b p.host

/-- The request of a step, if it is one, fits. -/
def ActionFits : Action Node → Prop
  | .request _ sparams _ => RequestFits sparams
  | .deliver _ _ => True

theorem netWithin_initial : NetWithin 909 (Net.initial Node) :=
  ⟨fun _ => stateWithin_initial, by simp [Net.initial]⟩

theorem NetWithin.mono {b b' : Int} (h : NetWithin b s) (hb : b ≤ b') : NetWithin b' s :=
  ⟨fun n => (h.nodes n).mono hb, fun p hp => (h.flight p hp).mono hb⟩

variable [DecidableEq Node] {T : Topology Node}

theorem NetWithin.step {b : Int} (h : NetWithin b s) (hb : b < 2 ^ 31)
    (hself : ∀ n, InBuffer 16 (T.ip n)) (ha : ActionFits a) (hs : T.step s a = some s') :
    NetWithin (b + 2) s' := by
  rcases step_cases hs with ⟨n, sparams, env, rfl, rfl⟩ | ⟨k, env, p, rfl, hk, rfl⟩
  · obtain ⟨hnode, hsent⟩ := (h.nodes n).peer env hb ha (hself n)
    refine ⟨forall_nodes_takeRequest (fun _ st => StateWithin (b + 2) st)
      (fun m => (h.nodes m).mono (by omega)) hnode, fun q hq => ?_⟩
    rcases List.mem_append.mp hq with hq | hq
    · exact (h.flight q hq).mono (by omega)
    · obtain ⟨t, ht, hqt⟩ := List.mem_flatMap.mp hq
      rw [host_of_mem_copies hqt]
      exact hsent t ht
  · have hp : p ∈ s.flight := List.mem_of_getElem? hk
    obtain ⟨hnode, hsent⟩ := (h.nodes p.dst).ethernet env p.ifIndex p.srcMac (h.flight p hp)
      (hself p.dst)
    refine ⟨forall_nodes_deliverPacket (fun _ st => StateWithin (b + 2) st)
      (fun m => (h.nodes m).mono (by omega)) hnode, fun q hq => ?_⟩
    rcases List.mem_append.mp hq with hq | hq
    · exact (h.flight q (List.mem_of_mem_eraseIdx hq)).mono (by omega)
    · obtain ⟨t, ht, hqt⟩ := List.mem_flatMap.mp hq
      rw [host_of_mem_copies hqt]
      exact hsent t ht

theorem netWithin_of_trace {h : List (Net Node × Action Node)}
    (ht : Trace T.step (Net.initial Node) h s) (hself : ∀ n, InBuffer 16 (T.ip n))
    (hreq : ∀ x ∈ h, ActionFits x.2) (hlen : 909 + 2 * (h.length : Int) < 2 ^ 31) :
    NetWithin (909 + 2 * h.length) s := by
  induction ht with
  | nil => exact netWithin_initial
  | snoc _ hs ih =>
      obtain ⟨ha, hreq⟩ := List.forall_mem_cons.mp hreq
      rw [List.length_cons] at hlen ⊢
      have hstep := (ih hreq (by omega)).step (by omega) hself ha hs
      exact hstep.mono (by omega)

/-- From requests that fit, a run of less than about `2 ^ 30` steps keeps every address,
path and payload of every daemon, of every queued frame and of every frame in flight within
its array, and every integer there within an `int`.  What is counted, the broadcast ids, the
hop counts and the next port number, has a bound that grows with the run.  The sum that
`check_r_entry` forms for a frame that is delivered next is an `int` too, whether the frame
brings a better route or not. -/
theorem run_stays_in_range {h : List (Net Node × Action Node)}
    (ht : Trace T.step (Net.initial Node) h s) (hself : ∀ n, InBuffer 16 (T.ip n))
    (hreq : ∀ x ∈ h, ActionFits x.2) (hlen : 910 + 2 * (h.length : Int) < 2 ^ 31) :
    NetWithin (909 + 2 * h.length) s ∧ ∀ p ∈ s.flight, IsInt32 (p.host.hopCount + 1) := by
  have hwithin := netWithin_of_trace ht hself hreq (by omega)
  refine ⟨hwithin, fun p hp => ?_⟩
  have hsum : CountTo (910 + 2 * h.length) (p.host.hopCount + 1) :=
    (hwithin.flight p hp).hops.succ (by omega)
  exact hsum.isInt32 hlen

end Runs

theorem requestFits_messageFor {ip : Ip} (h : InBuffer 16 ip) : RequestFits (messageFor ip) :=
  ⟨h, inBuffer_of_all (s := "/tmp/client") (by decide) (by decide),
    inBuffer_of_all (s := "time?") (by decide) (by decide), (by decide : IsInt32 servPort),
    isInt32_zero⟩

theorem inBuffer_lineNet (n : Fin 3) : InBuffer 16 (lineNet.ip n) := by
  match n with
  | 0 | 1 | 2 => exact inBuffer_of_all (by decide) (by decide)

/-- The run in which the message to the last node of the line is on its way again. -/
theorem lineParkedRun_stays_in_range :
    ∃ h s, Trace lineNet.step (Net.initial (Fin 3)) h s ∧ h.length = 10 ∧
      s.flight.length = 1 ∧ NetWithin 929 s ∧ ∀ p ∈ s.flight, IsInt32 (p.host.hopCount + 1) := by
  have hfits : ∀ a ∈ lineParkedRun, ActionFits a := by
    have hreq : RequestFits (messageFor "10.0.0.3") := requestFits_messageFor (inBuffer_lineNet 2)
    simp [lineParkedRun, lineDiscovery, ActionFits, hreq]
  obtain ⟨h, s, ht, hend, hreq⟩ := Trace.exists_of_exec_forall lineNet.step (Net.initial (Fin 3))
    lineParkedRun (fun h s => decide (h.length = 10 ∧ s.flight.length = 1)) hfits
    (by decide +kernel)
  obtain ⟨hlen, hflight⟩ := of_decide_eq_true hend
  obtain ⟨hwithin, hsums⟩ := run_stays_in_range ht inBuffer_lineNet hreq (by rw [hlen]; decide)
  rw [hlen] at hwithin
  exact ⟨h, s, ht, hlen, hflight, hwithin, hsums⟩

end OnDemandRouting.Proofs
