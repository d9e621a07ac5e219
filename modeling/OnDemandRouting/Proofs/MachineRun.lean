import OnDemandRouting.Lib.Related
import OnDemandRouting.Proofs.Machine

/-!
# The network of bytes

Between daemons in memory travel Ethernet frames.  In every run whose values fit, the
network of bytes and pointers and the network of the model do the same, step by step: each
is a simulation of the other.  So what holds of all runs of the model holds of the program
at the level of its memory.
-/

namespace OnDemandRouting.Proofs

open OnDemandRouting.Lib
open OnDemandRouting.Model
open OnDemandRouting.Model.Machine (MachineNet Memory Sent WirePacket macAt)
open OnDemandRouting.Model.Wire (convertToMac odrFrameAt frameSize ethFrameLen sendRawFrame)

/-! ## Hardware addresses -/

theorem toNat_ofBitVec_extractLsb (mac : Mac) (i : Nat) :
    (UInt8.ofBitVec (mac.extractLsb' i 8)).toNat = mac.toNat / 2 ^ i % 256 := by
  show (mac.extractLsb' i 8).toNat = _
  rw [BitVec.extractLsb'_toNat, Nat.shiftRight_eq_div_pow]

/-- An address is read back from its six bytes. -/
theorem macAt_of_slice {wire : List UInt8} {off : Nat} {mac : Mac}
    (h : slice off 6 wire = convertToMac mac) : macAt off wire = mac := by
  have hlt : mac.toNat < 2 ^ 48 := mac.isLt
  apply BitVec.eq_of_toNat_eq
  rw [macAt, h]
  simp only [convertToMac, List.map_cons, List.map_nil, List.foldl_cons, List.foldl_nil,
    toNat_ofBitVec_extractLsb, BitVec.toNat_ofNat]
  generalize mac.toNat = n at hlt
  omega

/-! ## Frames in flight -/

section Flight

variable {Node : Type} [DecidableEq Node] {T : Topology Node} {n : Node}

/-- An Ethernet frame in flight beside the copy of the model. -/
structure CopyAt (w : WirePacket Node) (p : Packet Node) : Prop where
  dst : w.dst = p.dst
  ifIndex : w.ifIndex = p.ifIndex
  length : w.wire.length = ethFrameLen
  srcMac : macAt 6 w.wire = p.srcMac
  read : odrFrameAt (slice 14 frameSize w.wire) = p.frame

/-- A call of `send_raw_frame` reaches the interfaces it does in the model. -/
theorem copies_at {t : Sent} {t' : Transmission} (ht : SentSim FrameAt t t') {buffer : List UInt8}
    (hbuf : buffer.length = ethFrameLen) (trail : List (RelayEvent Node)) :
    List.Forall₂ CopyAt (Machine.copies T n buffer t) (T.copies n trail t') := by
  have hwire : EthernetFrame t.srcMac t.destMac
      (sendRawFrame buffer t.srcMac t.destMac t.frame) :=
    ethernetFrame_sendRawFrame hbuf ht.frame.length
  have hreceivers : Machine.receivers T n t.intIndex
      (sendRawFrame buffer t.srcMac t.destMac t.frame) = T.receivers n t' := by
    rw [Machine.receivers, Topology.receivers, macAt_of_slice hwire.dest, ht.index, ht.destMac]
  simp only [Machine.copies, Topology.copies]
  rw [hreceivers, List.forall₂_map_left_iff, List.forall₂_map_right_iff, List.forall₂_same]
  intro q _
  refine ⟨rfl, rfl, hwire.length, ?_, ?_⟩
  · rw [macAt_of_slice hwire.src, ht.srcMac]
  · rw [slice_sendRawFrame hbuf ht.frame.length, ht.frame.read]

theorem flatMap_copies_at (T : Topology Node) (n : Node) {ts : List Sent}
    {ts' : List Transmission} (h : List.Forall₂ (SentSim FrameAt) ts ts')
    {buffer : Sent → List UInt8} (hbuf : ∀ t, (buffer t).length = ethFrameLen)
    (trail : Transmission → List (RelayEvent Node)) :
    List.Forall₂ CopyAt (ts.flatMap fun t => Machine.copies T n (buffer t) t)
      (ts'.flatMap fun t => T.copies n (trail t) t) :=
  List.rel_flatMap h fun t t' ht => copies_at ht (hbuf t) (trail t')

end Flight

/-! ## Runs -/

section Runs

variable {Node : Type}

/-- The network of bytes beside that of the model. -/
structure Mirrors (m : MachineNet Node) (s : Net Node) : Prop where
  nodes : ∀ n, StandsFor (m.nodes n) (s.nodes n)
  alive : m.alive = s.alive
  flight : List.Forall₂ CopyAt m.flight s.flight
  delivered : m.delivered = s.delivered

theorem mirrors_initial : Mirrors (MachineNet.initial Node) (Net.initial Node) :=
  ⟨fun _ => standsFor_initial, rfl, .nil, rfl⟩

/-- The actions of a run that is not too long, with requests that fit. -/
def Bounded (as : List (Action Node)) : Prop :=
  (∀ a ∈ as, ActionFits a) ∧ 909 + 2 * (as.length : Int) < 2 ^ 31

theorem Bounded.tail {a : Action Node} {as : List (Action Node)} (h : Bounded (a :: as)) :
    Bounded as := by
  have hlen := h.2
  rw [List.length_cons] at hlen
  exact ⟨(List.forall_mem_cons.mp h.1).2, by omega⟩

variable [DecidableEq Node] {T : Topology Node} {m : MachineNet Node} {s : Net Node}
  {a : Action Node} {b : Int} {malloc : MachineNet Node → Sent → List UInt8}

theorem Mirrors.update_nodes (h : Mirrors m s) (n : Node) {st : Memory} {st' : NodeState}
    (hst : StandsFor st st') (k : Node) :
    StandsFor (Function.update m.nodes n st k) (Function.update s.nodes n st' k) :=
  forall_update_update (fun _ => StandsFor) h.nodes hst k

theorem Mirrors.takeRequest (h : Mirrors m s)
    (hmalloc : ∀ m t, (malloc m t).length = ethFrameLen) (hs : NetWithin b s)
    (hbound : b + 2 < 2 ^ 31) (hself : ∀ n, InBuffer 16 (T.ip n)) (n : Node) {sparams : SendParams}
    (hreq : RequestFits sparams) (env : Env) :
    Mirrors (Machine.takeRequest T malloc m n sparams env) (T.takeRequest s n sparams env) := by
  have hcall := handlePeerMsg_at (h.nodes n) hbound (hs.nodes n) hreq (hself n) env
  refine ⟨h.update_nodes n hcall.node, ?_, ?_, h.delivered⟩
  · simp only [Machine.takeRequest, Topology.takeRequest, h.alive]
    exact congrArg (fun exit => Function.update s.alive n (Exit.survives exit)) hcall.exit
  · exact List.rel_append h.flight (flatMap_copies_at T n hcall.sent (hmalloc m) fun _ => [])

theorem Mirrors.deliverPacket (h : Mirrors m s)
    (hmalloc : ∀ m t, (malloc m t).length = ethFrameLen) (hs : NetWithin b s)
    (hbound : b + 2 < 2 ^ 31) (hself : ∀ n, InBuffer 16 (T.ip n)) {w : WirePacket Node}
    {p : Packet Node} (hp : p ∈ s.flight) (hcopy : CopyAt w p) (k : Nat) (env : Env) :
    Mirrors (Machine.deliverPacket T malloc m w (m.flight.eraseIdx k) env)
      (T.deliverPacket s p (s.flight.eraseIdx k) env) := by
  obtain ⟨dst, ifIndex, wire⟩ := w
  obtain ⟨rfl, rfl, hlen, hmac, hread⟩ := hcopy
  have hcall := handleEthernetMsg_at (h.nodes p.dst) env p.ifIndex p.srcMac hlen hread hbound
    (hs.nodes p.dst) (hs.flight p hp) (hself p.dst)
  rw [← hmac] at hcall
  have hflight := List.rel_append (forall₂_eraseIdx h.flight k)
    (flatMap_copies_at T p.dst hcall.sent (hmalloc m) fun t => relayTrail s.tick p t)
  simp only [Machine.deliverPacket, Topology.deliverPacket, ← hmac]
  refine ⟨h.update_nodes p.dst hcall.node, ?_, hflight, ?_⟩
  · rw [h.alive, hcall.exit]
  · rw [h.delivered, hcall.events]

/-- The two networks take the same steps. -/
theorem Mirrors.step (h : Mirrors m s) (hmalloc : ∀ m t, (malloc m t).length = ethFrameLen)
    (hs : NetWithin b s) (hbound : b + 2 < 2 ^ 31) (hself : ∀ n, InBuffer 16 (T.ip n))
    (ha : ActionFits a) :
    Option.Rel Mirrors (Machine.step T malloc m a) (T.step s a) := by
  cases a with
  | request n sparams env =>
      simp only [Machine.step, Topology.step, h.alive]
      split_ifs
      · exact .some (h.takeRequest hmalloc hs hbound hself n ha env)
      · exact .none
  | deliver k env =>
      have hk := rel_getElem? h.flight k
      simp only [Machine.step, Topology.step]
      cases hp : s.flight[k]? with
      | none =>
          rw [hp] at hk
          generalize m.flight[k]? = o at hk
          cases hk
          exact .none
      | some p =>
          rw [hp] at hk
          obtain ⟨w, hw, hcopy⟩ := Trace.exists_of_rel_some_right hk
          rw [hw]
          simp only [h.alive, hcopy.dst]
          split_ifs
          · exact .some (h.deliverPacket hmalloc hs hbound hself (List.mem_of_getElem? hp) hcopy k
              env)
          · exact .none

theorem Mirrors.step_of_trace (hmalloc : ∀ m t, (malloc m t).length = ethFrameLen)
    (hself : ∀ n, InBuffer 16 (T.ip n)) {g : List (Net Node × Action Node)}
    (ht : Trace T.step (Net.initial Node) g s)
    (hacts : Bounded (a :: g.map Prod.snd)) (h : Mirrors m s) :
    Option.Rel Mirrors (Machine.step T malloc m a) (T.step s a) := by
  obtain ⟨ha, hreq⟩ := List.forall_mem_cons.mp hacts.1
  have hlen := hacts.2
  rw [List.length_cons, List.length_map] at hlen
  have hwithin := netWithin_of_trace ht hself
    (fun x hx => hreq x.2 (List.mem_map_of_mem hx)) (by omega)
  exact h.step hmalloc hwithin (by omega) hself ha

/-- The network of daemons that keep their routes and their queue in linked cells, build and
convert frames in memory and exchange the bytes of Ethernet frames, and the network of the
model: every run of the one is matched, action by action, by a run of the other, with the
same states, the same frames in flight and the same messages delivered. -/
theorem machine_network_bisimulates (hmalloc : ∀ m t, (malloc m t).length = ethFrameLen)
    (hself : ∀ n, InBuffer 16 (T.ip n)) :
    (∀ h m, Trace (Machine.step T malloc) (MachineNet.initial Node) h m → Bounded (h.map Prod.snd) →
      ∃ g s, Trace T.step (Net.initial Node) g s ∧ g.map Prod.snd = h.map Prod.snd ∧
        Mirrors m s) ∧
    ∀ g s, Trace T.step (Net.initial Node) g s → Bounded (g.map Prod.snd) →
      ∃ h m, Trace (Machine.step T malloc) (MachineNet.initial Node) h m ∧
        h.map Prod.snd = g.map Prod.snd ∧ Mirrors m s :=
  ⟨fun _ _ ht => ht.simulate_of_rel (fun _ _ => Bounded.tail) mirrors_initial
      (fun _ _ _ _ hg hacts hm => hm.step_of_trace hmalloc hself hg hacts),
    fun _ _ ht => ht.simulated_of_rel (fun _ _ => Bounded.tail) mirrors_initial
      (fun _ _ _ _ hg hacts hm => hm.step_of_trace hmalloc hself hg hacts)⟩

end Runs

/-- The discovery of the line to its end, in memory and on the wire. -/
theorem lineComplete_in_memory :
    ∃ h m, Trace (Machine.step lineNet fun _ _ => List.replicate ethFrameLen 0xA5)
      (MachineNet.initial (Fin 3)) h m ∧
      h.map Prod.snd = lineComplete.reverse ∧ m.flight.length = 0 ∧ m.delivered.length = 1 := by
  have hfits : ∀ a ∈ lineComplete, ActionFits a := by
    have hreq : RequestFits (messageFor "10.0.0.3") := requestFits_messageFor (inBuffer_lineNet 2)
    simp [lineComplete, lineDiscovery, ActionFits, hreq]
  obtain ⟨r, hr, hend⟩ := (Option.any_eq_true _ _).mp
    (show (exec lineNet.step [] (Net.initial (Fin 3)) lineComplete).any (fun r =>
      decide (r.2.flight.length = 0 ∧ r.2.delivered.length = 1)) = true by decide +kernel)
  obtain ⟨hflight, hdelivered⟩ := of_decide_eq_true hend
  have hacts : r.1.map Prod.snd = lineComplete.reverse := by
    rw [Trace.map_snd_of_exec hr, List.map_nil, List.append_nil]
  have hbounded : Bounded (r.1.map Prod.snd) := by
    rw [hacts]
    exact ⟨fun a ha => hfits a (List.mem_reverse.mp ha), by decide⟩
  obtain ⟨h, m, ht, hmacts, hm⟩ :=
    (machine_network_bisimulates (fun _ _ => List.length_replicate) inBuffer_lineNet).2 r.1 r.2
      (Trace.of_exec hr) hbounded
  exact ⟨h, m, ht, hmacts.trans hacts, hm.flight.length_eq.trans hflight,
    hm.delivered ▸ hdelivered⟩

end OnDemandRouting.Proofs
