import Mathlib.Data.Fintype.Lattice
import Mathlib.Order.Lattice.Nat
import OnDemandRouting.Lib.Charge
import OnDemandRouting.Model.Wiring
import OnDemandRouting.Proofs.Relay

/-!
# How much a flood can cost

`send_req_broadcast` sends one frame per record of the interface list, so a node
multiplies a copy by the number of interfaces its own interfaces reach.  A copy
whose hop count is `k` has at most as many relays to go as there are nodes left
that it has not passed, and its weight is the number of deliveries such a tree of
relays can have.  Delivering a copy turns its weight into one delivery and the
weights of the copies relayed; only a launch adds weight.  What else is under way
in the network does not matter.
-/

namespace OnDemandRouting.Proofs

open OnDemandRouting.Lib
open OnDemandRouting.Model

/-! ## What one call sends -/

/-- The interfaces on which a list of transmissions floods. -/
def floodIndices (ts : List Transmission) : List Int :=
  (ts.filter fun t => isFlood t.host).map Transmission.intIndex

/-- At most one frame along a route, then at most one frame of a flood for each record
of the interface list. -/
def OneFlood (hwa : List HwaInfo) (ts : List Transmission) : Prop :=
  ∃ us fs, ts = us ++ fs ∧ us.length ≤ 1 ∧ (∀ t ∈ us, isFlood t.host = false) ∧
    (∀ t ∈ fs, isFlood t.host = true) ∧
    (fs.map Transmission.intIndex).Sublist (hwa.map HwaInfo.ifIndex)

section Handlers

variable {cfg : Config} {env : Env} {intfN : Int} {addr : Mac} {f buf : OdrFrame} {l : Learned}
  {dest : Option REntry} {st : NodeState} {type : FrameType} {hwa : List HwaInfo}
  {t : Transmission} {us ts ts' : List Transmission}

theorem sendRawFrames_sublist (env : Env) (selfIp : Ip) (k : Nat) (ts : List Transmission) :
    (sendRawFrames env selfIp k ts).1.Sublist ts := by
  induction ts generalizing k with
  | nil => exact List.Sublist.refl []
  | cons t ts ih =>
      rw [sendRawFrames]
      split_ifs
      · exact (ih _).cons_cons t
      · exact List.nil_sublist _
      · exact List.nil_sublist _

theorem OneFlood.sublist (h : OneFlood hwa ts) (hsub : ts'.Sublist ts) : OneFlood hwa ts' := by
  obtain ⟨us, fs, rfl, hlen, hus, hfs, hindex⟩ := h
  obtain ⟨us', fs', rfl, hus', hfs'⟩ := List.sublist_append_iff.mp hsub
  exact ⟨us', fs', rfl, hus'.length_le.trans hlen, fun t ht => hus t (hus'.subset ht),
    fun t ht => hfs t (hfs'.subset ht), (hfs'.map _).trans hindex⟩

theorem oneFlood_along (hlen : us.length ≤ 1) (hus : ∀ t ∈ us, isFlood t.host = false) :
    OneFlood hwa us :=
  ⟨us, [], (List.append_nil us).symm, hlen, hus, by simp, List.nil_sublist _⟩

theorem oneFlood_nil : OneFlood hwa [] := oneFlood_along (by simp) (by simp)

/-- A frame along a route may precede a flood. -/
theorem oneFlood_append (hlen : us.length ≤ 1) (hus : ∀ t ∈ us, isFlood t.host = false)
    (hts : ∀ t ∈ ts, isFlood t.host = true)
    (hindex : (ts.map Transmission.intIndex).Sublist (hwa.map HwaInfo.ifIndex)) :
    OneFlood hwa (us ++ ts) := ⟨us, ts, rfl, hlen, hus, hts, hindex⟩

theorem oneFlood_of_floods (hts : ∀ t ∈ ts, isFlood t.host = true)
    (hindex : (ts.map Transmission.intIndex).Sublist (hwa.map HwaInfo.ifIndex)) :
    OneFlood hwa ts := ⟨[], ts, rfl, by simp, by simp, hts, hindex⟩

/-- A flood uses every record of the interface list at most once. -/
theorem sendReqBroadcast_floods (cfg : Config)
    (intfN broadId srcPort dstport hopcount rdiscFlag : Int) (dstip srcip : Ip)
    (payload : String) (asentFlag : Bool) :
    let ts := sendReqBroadcast cfg.hwa intfN broadId srcPort dstport hopcount rdiscFlag dstip
      srcip payload asentFlag
    (∀ t ∈ ts, isFlood t.host = true) ∧
      (ts.map Transmission.intIndex).Sublist (cfg.hwa.map HwaInfo.ifIndex) := by
  constructor
  · intro t ht
    rw [(mem_sendReqBroadcast ht).2]
    cases asentFlag with
    | false => rfl
    | true => rfl
  · rw [sendReqBroadcast, List.map_map]
    exact (List.filter_sublist (l := cfg.hwa)).map HwaInfo.ifIndex

theorem relayBroadcast_floods (cfg : Config) (intfN : Int) (f : OdrFrame)
    (cond asentFlag : Bool) :
    let ts := if cond then relayBroadcast cfg intfN f asentFlag else []
    (∀ t ∈ ts, isFlood t.host = true) ∧
      (ts.map Transmission.intIndex).Sublist (cfg.hwa.map HwaInfo.ifIndex) := by
  cases cond with
  | false => exact ⟨by simp, List.nil_sublist _⟩
  | true => exact sendReqBroadcast_floods _ _ _ _ _ _ _ _ _ _ _

theorem sendRrepPacket_along {frame : OdrFrame} {entry : REntry} {hop : Int} {swap : Bool}
    {counter : BroadcastCounter}
    (hplan : (sendRrepPacket cfg.hwa frame entry hop swap counter).2 = .ok ts) :
    ts.length ≤ 1 ∧ ∀ t ∈ ts, isFlood t.host = false := by
  constructor
  · unfold sendRrepPacket at hplan
    cases hmac : getHwaddrFromInt entry.ifNo cfg.hwa with
    | none => simp [hmac] at hplan
    | some mac =>
        simp only [hmac, Except.ok.injEq] at hplan
        rw [← hplan, List.length_singleton]
  · intro t ht
    rw [(mem_sendRrepPacket hplan ht).2]
    cases swap with
    | false => rfl
    | true => rfl

theorem oneFlood_sendAlong {entry : REntry} (frame : OdrFrame)
    (hframe : FrameType.ofInt frame.frameType = some .data)
    (hplan : sendAlong cfg.hwa entry (convertHostNetOrder frame) = .ok ts) :
    OneFlood cfg.hwa ts := by
  refine oneFlood_along ?_ fun t ht => ?_
  · unfold sendAlong at hplan
    cases hmac : getHwaddrFromInt entry.ifNo cfg.hwa with
    | none => simp [hmac] at hplan
    | some mac =>
        simp only [hmac, Except.ok.injEq] at hplan
        rw [← hplan, List.length_singleton]
  · rw [(mem_sendAlong hplan ht).2, processRecvdFrame, convertNetHostOrder_convertHostNetOrder,
      ← Bool.not_eq_true, isFlood_iff hframe]
    simp

theorem oneFlood_rrep {frame : OdrFrame} {entry : REntry} {hop : Int} {swap : Bool}
    {counter : BroadcastCounter}
    (hplan : (sendRrepPacket cfg.hwa frame entry hop swap counter).2 = .ok ts) :
    OneFlood cfg.hwa ts :=
  oneFlood_along (sendRrepPacket_along hplan).1 (sendRrepPacket_along hplan).2

theorem oneFlood_park (hplan : (parkFrame cfg env intfN f st).plan = .ok ts) :
    OneFlood cfg.hwa ts := by
  simp only [parkFrame] at hplan
  split_ifs at hplan
  obtain rfl := Except.ok.inj hplan
  obtain ⟨hfloods, hindex⟩ := sendReqBroadcast_floods cfg intfN st.counter.next.value (-1)
    f.dstPort 0 0 f.destIp cfg.selfIp f.payload false
  exact oneFlood_of_floods hfloods hindex

theorem oneFlood_react (htype : FrameType.ofInt f.frameType = some type)
    (hplan : (react cfg env intfN f l dest st type).plan = .ok ts) : OneFlood cfg.hwa ts := by
  cases type with
  | rreq =>
      simp only [react, handleRreq, fields_odrFrame] at hplan
      by_cases hself : f.destIp = cfg.selfIp
      · rw [if_pos hself] at hplan
        exact oneFlood_rrep hplan
      · rw [if_neg hself] at hplan
        cases dest with
        | none =>
            obtain rfl := Except.ok.inj hplan
            obtain ⟨hfloods, hindex⟩ := relayBroadcast_floods cfg intfN f l.flag false
            exact oneFlood_of_floods hfloods hindex
        | some d =>
            simp only at hplan
            cases hrrep : (sendRrepPacket cfg.hwa f l.entry d.noHops true st.counter).2 with
            | error e => simp [hrrep, Except.map] at hplan
            | ok rrep =>
                simp only [hrrep, Except.map, Except.ok.injEq] at hplan
                obtain ⟨hlen, halong⟩ := sendRrepPacket_along hrrep
                obtain ⟨hfloods, hindex⟩ := relayBroadcast_floods cfg intfN f l.flag true
                exact hplan ▸ oneFlood_append hlen halong hfloods hindex
  | rrep =>
      simp only [react, handleRrep, fields_odrFrame, lookupPendingQueue_list] at hplan
      by_cases hself : f.destIp = cfg.selfIp
      · rw [if_pos hself] at hplan
        cases hq : lookupPendingQueue f.srcIp st.pending with
        | none =>
            simp only [hq, Except.ok.injEq] at hplan
            exact hplan ▸ oneFlood_nil
        | some q =>
            simp only [hq, releaseFrame] at hplan
            split at hplan
            · exact oneFlood_rrep hplan
            · next hdata => exact oneFlood_sendAlong _ hdata hplan
            · obtain rfl := Except.ok.inj hplan
              exact oneFlood_nil
      · rw [if_neg hself] at hplan
        cases dest with
        | none => exact oneFlood_park hplan
        | some d => exact oneFlood_rrep hplan
  | data =>
      simp only [react, handleData, fields_odrFrame] at hplan
      by_cases hself : f.destIp = cfg.selfIp
      · rw [if_pos hself] at hplan
        obtain rfl := Except.ok.inj hplan
        exact oneFlood_nil
      · rw [if_neg hself] at hplan
        cases dest with
        | none => exact oneFlood_park hplan
        | some d => exact oneFlood_sendAlong { f with hopCount := l.entry.noHops } htype hplan
  | asent =>
      obtain rfl := Except.ok.inj hplan
      obtain ⟨hfloods, hindex⟩ := relayBroadcast_floods cfg intfN f l.flag true
      exact oneFlood_of_floods hfloods hindex

/-- One call sends at most one frame along a route and floods at most once. -/
theorem handleEthernetMsg_oneFlood :
    OneFlood cfg.hwa (handleEthernetMsg cfg env intfN addr buf st).sent := by
  rcases handleEthernetMsg_cases cfg env intfN addr buf st with
    ⟨_, heq⟩ | ⟨_, _, exit, _, heq⟩ | ⟨type, hproc, heq⟩
  · rw [heq]
    exact oneFlood_nil
  · rw [heq]
    exact oneFlood_nil
  · rw [heq, Reaction.outcome]
    split
    · exact oneFlood_nil
    · next ts hplan =>
        exact (oneFlood_react hproc.type_eq hplan).sublist (sendRawFrames_sublist _ _ _ _)

theorem OneFlood.floodIndices (h : OneFlood hwa ts) :
    (floodIndices ts).Sublist (hwa.map HwaInfo.ifIndex) := by
  obtain ⟨us, fs, rfl, _, hus, hfs, hindex⟩ := h
  have hnone : us.filter (fun t => isFlood t.host) = [] :=
    List.filter_eq_nil_iff.mpr fun t ht => by simp [hus t ht]
  rw [Proofs.floodIndices, List.filter_append, hnone, List.filter_eq_self.mpr hfs]
  exact hindex

theorem PeerCall.floodIndices {sparams : SendParams} {o : Outcome}
    (hcall : PeerCall cfg env sparams st o) :
    (floodIndices o.sent).Sublist (cfg.hwa.map HwaInfo.ifIndex) := by
  cases hcall with
  | idle hsent =>
      rw [hsent]
      exact List.nil_sublist _
  | flooded portno _ _ hsent =>
      have hsub := sendRawFrames_sublist env cfg.selfIp 0 (sendReqBroadcast cfg.hwa (-1)
        (st.counter.value + 1) portno sparams.destport 0 sparams.routeDiscFlag sparams.destip
        cfg.selfIp sparams.msg false)
      rw [← hsent] at hsub
      rw [Proofs.floodIndices]
      exact ((List.filter_sublist.trans hsub).map Transmission.intIndex).trans
        (sendReqBroadcast_floods cfg _ _ _ _ _ _ _ _ _ _).2
  | direct portno e _ _ hsent =>
      have hnone : o.sent.filter (fun t => isFlood t.host) = [] := by
        refine List.filter_eq_nil_iff.mpr fun t ht => ?_
        rw [(hsent t ht).2]
        exact Bool.false_ne_true
      rw [Proofs.floodIndices, hnone]
      exact List.nil_sublist _

end Handlers

/-! ## Copies in flight -/

variable {Node : Type} {T : Topology Node}

/-- The copy is part of a flood of the node with address `x`. -/
def floodOf (x : Ip) (p : Packet Node) : Bool := isFlood p.host && decide (p.host.srcIp = x)

theorem floodOf_iff {x : Ip} {p : Packet Node} :
    floodOf x p = true ↔ isFlood p.host = true ∧ p.host.srcIp = x := by
  rw [floodOf, Bool.and_eq_true, decide_eq_true_eq]

/-- The step delivers a copy of a flood from `x`. -/
def deliversFlood (x : Ip) (y : Net Node × Action Node) : Bool :=
  match y.2 with
  | .request _ _ _ => false
  | .deliver k _ => (y.1.flight[k]?).any (floodOf x)

/-- The step starts a flood from `x`: a frame of one leaves with hop count 0. -/
def launchesFlood (T : Topology Node) (x : Ip) (y : Net Node × Action Node) : Bool :=
  (outcomeAt T y.1 y.2).any fun o => o.2.sent.any fun t =>
    isFlood t.host && (decide (t.host.srcIp = x) && decide (t.host.hopCount = 0))

theorem launchesFlood_iff {s : Net Node} {a : Action Node} {x : Ip} :
    launchesFlood T x (s, a) = true ↔ ∃ n o t,
    outcomeAt T s a = some (n, o) ∧ t ∈ o.sent ∧ isFlood t.host = true ∧ t.host.srcIp = x ∧
      t.host.hopCount = 0 := by
  simp [launchesFlood, Option.any_eq_true]

/-- Hop counts of the flood from `x` stay within the number of nodes. -/
def HopsBounded [Fintype Node] (x : Ip) (s : Net Node) : Prop :=
  ∀ p ∈ s.flight, floodOf x p = true →
    0 ≤ p.host.hopCount ∧ p.host.hopCount ≤ (Fintype.card Node : Int)

theorem hopsBounded_of_trails [Fintype Node] {s : Net Node} {x : Ip} (hcounted : HopsCounted s)
    (htrails : TrailsBehind x s) : HopsBounded x s := by
  intro p hp hflood
  obtain ⟨hflood, hsrc⟩ := floodOf_iff.mp hflood
  have hcard := (htrails p hp hsrc).1.length_le_card
  have hhop := hcounted p hp hflood
  rw [List.length_map] at hcard
  omega

variable [DecidableEq Node]

/-- The number of interfaces that the interfaces of `n` reach. -/
def fanout (T : Topology Node) (n : Node) : ℕ :=
  weigh (fun i => (T.peers n i).length) ((T.cfg n).hwa.map HwaInfo.ifIndex)

/-- The largest number of copies one flood of one node puts in flight. -/
def maxFanout [Fintype Node] (T : Topology Node) : ℕ := Finset.univ.sup (fanout T)

/-- The relays a copy can have before it, if it passes every node once. -/
def hopsLeft [Fintype Node] (p : Packet Node) : ℕ :=
  ((Fintype.card Node : Int) - p.host.hopCount).toNat

/-- What a copy of a flood from `x` can cost, at `c` for each delivery. -/
def floodWeight [Fintype Node] (T : Topology Node) (c : ℕ) (x : Ip) (p : Packet Node) : ℕ :=
  if floodOf x p then treeCost c (maxFanout T) (hopsLeft p) else 0

theorem countP_flood_copies (n : Node) (trail : List (RelayEvent Node)) (t : Transmission) :
    (T.copies n trail t).countP (fun p => isFlood p.host) ≤
      if isFlood t.host then (T.peers n t.intIndex).length else 0 := by
  have hhost : ∀ q ∈ T.copies n trail t, isFlood q.host = isFlood t.host := by
    intro q hq
    rw [host_of_mem_copies hq]
  have hlen : (T.copies n trail t).length ≤ (T.peers n t.intIndex).length := by
    rw [Topology.copies, List.length_map]
    exact List.length_filter_le _ _
  split_ifs with hflood
  · exact List.countP_le_length.trans hlen
  · exact Nat.le_of_eq (List.countP_eq_zero.mpr fun q hq => by rw [hhost q hq]; exact hflood)

/-- The copies of the flood frames among `ts`. -/
theorem countP_flood_sent (n : Node) (tr : Transmission → List (RelayEvent Node))
    (ts : List Transmission) :
    (ts.flatMap fun t => T.copies n (tr t) t).countP (fun p => isFlood p.host) ≤
      weigh (fun i => (T.peers n i).length) (floodIndices ts) := by
  induction ts with
  | nil => simp [floodIndices]
  | cons t ts ih =>
      have hhead := countP_flood_copies (T := T) n (tr t) t
      rw [List.flatMap_cons, List.countP_append]
      by_cases hflood : isFlood t.host = true
      · have hcons : floodIndices (t :: ts) = t.intIndex :: floodIndices ts := by
          simp [floodIndices, hflood]
        rw [if_pos hflood] at hhead
        rw [hcons, weigh_cons]
        omega
      · have hcons : floodIndices (t :: ts) = floodIndices ts := by
          simp [floodIndices, hflood]
        rw [if_neg hflood] at hhead
        rw [hcons]
        omega

/-- If the frames along routes reach one interface each, a call puts at most one of
them in flight. -/
theorem OneFlood.countP_along_le {n : Node} {hwa : List HwaInfo} {ts : List Transmission}
    (h : OneFlood hwa ts) (tr : Transmission → List (RelayEvent Node))
    (hone : ∀ t ∈ ts, isFlood t.host = false → ∃ q, T.copies n (tr t) t = [q]) :
    (ts.flatMap fun t => T.copies n (tr t) t).countP (fun p => !isFlood p.host) ≤ 1 := by
  obtain ⟨us, fs, rfl, hlen, hus, hfs, _⟩ := h
  have hfloods : (fs.flatMap fun t => T.copies n (tr t) t).countP
      (fun p => !isFlood p.host) = 0 := by
    rw [List.countP_eq_zero]
    intro q hq
    obtain ⟨t, ht, hqt⟩ := List.mem_flatMap.mp hq
    simp [host_of_mem_copies hqt, hfs t ht]
  have halong : (us.flatMap fun t => T.copies n (tr t) t).length ≤ 1 := by
    rcases us with _ | ⟨t, _ | ⟨t', us⟩⟩
    · simp
    · obtain ⟨q, hq⟩ := hone t (by simp) (hus t (by simp))
      simp [hq]
    · simp at hlen
  rw [List.flatMap_append, List.countP_append, hfloods, Nat.add_zero]
  exact List.countP_le_length.trans halong

theorem fanout_le_maxFanout [Fintype Node] (n : Node) : fanout T n ≤ maxFanout T :=
  Finset.le_sup (f := fanout T) (Finset.mem_univ n)

/-- A handler call that floods at most once puts at most `maxFanout` copies of it in
flight. -/
theorem countP_flood_le [Fintype Node] {n : Node} {ts : List Transmission}
    (hfloods : (floodIndices ts).Sublist ((T.cfg n).hwa.map HwaInfo.ifIndex))
    (tr : Transmission → List (RelayEvent Node)) :
    (ts.flatMap fun t => T.copies n (tr t) t).countP (fun p => isFlood p.host) ≤ maxFanout T := by
  refine (countP_flood_sent n tr ts).trans (le_trans ?_ (fanout_le_maxFanout n))
  exact (hfloods.map _).sum_le_sum fun _ _ => Nat.zero_le _

/-! ## Steps -/

section Step

variable {s s' : Net Node} {a : Action Node} {x : Ip}

variable [Fintype Node] {c : ℕ}

/-- Copies of one flood with the same hop count `k`, of which there are at most
`maxFanout`. -/
theorem weigh_flood_le {flight : List (Packet Node)} {k : Int}
    (hcount : flight.countP (fun p => isFlood p.host) ≤ maxFanout T)
    (hhop : ∀ p ∈ flight, floodOf x p = true → p.host.hopCount = k) :
    weigh (floodWeight T c x) flight ≤
      maxFanout T * treeCost c (maxFanout T) ((Fintype.card Node : Int) - k).toNat := by
  have hle : weigh (floodWeight T c x) flight ≤ weigh (fun p => if floodOf x p then
      treeCost c (maxFanout T) ((Fintype.card Node : Int) - k).toNat else 0) flight := by
    refine weigh_le_weigh fun p hp => ?_
    rw [floodWeight]
    split_ifs with hflood
    · rw [hopsLeft, hhop p hp hflood]
    · exact Nat.le_refl 0
  rw [weigh_ite] at hle
  refine hle.trans (Nat.mul_le_mul_right _ (le_trans ?_ hcount))
  exact List.countP_mono_left fun p _ hp => (floodOf_iff.mp hp).1

theorem weigh_flood_eq_zero {flight : List (Packet Node)}
    (h : ∀ p ∈ flight, floodOf x p = false) : weigh (floodWeight T c x) flight = 0 := by
  have hle : weigh (floodWeight T c x) flight ≤ weigh (fun _ => 0) flight :=
    weigh_le_weigh fun p hp => by rw [floodWeight, h p hp]; exact Nat.le_refl 0
  have hzero : weigh (fun _ : Packet Node => 0) flight = 0 := by simp [weigh]
  omega

/-- Copies that are in flight because a flood starts. -/
theorem weigh_started_le {flight : List (Packet Node)} {launched : Bool}
    (hcount : flight.countP (fun p => isFlood p.host) ≤ maxFanout T)
    (hstarts : ∀ p ∈ flight, floodOf x p = true → p.host.hopCount = 0 ∧ launched = true) :
    weigh (floodWeight T c x) flight ≤
      if launched then maxFanout T * treeCost c (maxFanout T) (Fintype.card Node) else 0 := by
  split_ifs with hlaunch
  · have hle := weigh_flood_le (T := T) (c := c) hcount fun p hp hflood => (hstarts p hp hflood).1
    simpa using hle
  · refine Nat.le_of_eq (weigh_flood_eq_zero fun p hp => ?_)
    rw [← Bool.not_eq_true]
    exact fun hflood => hlaunch (hstarts p hp hflood).2

/-- The copies a delivery relays weigh less than the copy delivered. -/
theorem weigh_relayed_le {k : Nat} {env : Env} {p : Packet Node}
    (hk : s.flight[k]? = some p) (hs : T.step s (.deliver k env) = some s')
    (hbounds' : HopsBounded x s') (hp : floodOf x p = true) :
    c + weigh (floodWeight T c x) ((handleEthernetMsg (T.cfg p.dst) env p.ifIndex p.srcMac p.frame
      (s.nodes p.dst)).sent.flatMap fun t => T.copies p.dst (relayTrail s.tick p t) t) ≤
      floodWeight T c x p := by
  set sent := (handleEthernetMsg (T.cfg p.dst) env p.ifIndex p.srcMac p.frame
    (s.nodes p.dst)).sent.flatMap fun t => T.copies p.dst (relayTrail s.tick p t) t
  have hflood := (floodOf_iff.mp hp).1
  have hhop : ∀ q ∈ sent, floodOf x q = true → q.host.hopCount = p.host.hopCount + 1 := by
    intro q hq hqflood
    obtain ⟨t, ht, hqt⟩ := List.mem_flatMap.mp hq
    obtain ⟨type, hproc, _, hsends⟩ := handleEthernetMsg_sends ht
    have htflood := (floodOf_iff.mp hqflood).1
    rw [host_of_mem_copies hqt] at htflood ⊢
    exact (hsends.relayed hproc.type_eq hflood htflood).2.hop
  have hin : ∀ q ∈ sent, q ∈ s'.flight := by
    intro q hq
    obtain ⟨p', hp', rfl⟩ := step_deliver hs
    obtain rfl : p = p' := Option.some.inj (hk.symm.trans hp')
    exact List.mem_append_right _ hq
  rw [floodWeight, if_pos hp]
  by_cases hany : ∃ q ∈ sent, floodOf x q = true
  · obtain ⟨q, hq, hqflood⟩ := hany
    have hle := weigh_flood_le (T := T) (c := c)
      (countP_flood_le handleEthernetMsg_oneFlood.floodIndices _) hhop
    -- a copy that was relayed has at least one relay less to go
    obtain ⟨_, hcard⟩ := hbounds' q (hin q hq) hqflood
    rw [hhop q hq hqflood] at hcard
    have hleft : hopsLeft p =
        ((Fintype.card Node : Int) - (p.host.hopCount + 1)).toNat + 1 := by
      rw [hopsLeft]
      omega
    rw [hleft, treeCost]
    exact Nat.add_le_add_left hle c
  · have hzero : weigh (floodWeight T c x) sent = 0 :=
      weigh_flood_eq_zero fun q hq => by
        rw [← Bool.not_eq_true]
        exact fun hqflood => hany ⟨q, hq, hqflood⟩
    have hle := le_treeCost c (maxFanout T) (hopsLeft p)
    omega

/-- A delivery of any other frame adds weight only if it starts a flood from `x`. -/
theorem weigh_launched_le {k : Nat} (env : Env) {p : Packet Node}
    (hk : s.flight[k]? = some p) (hp : floodOf x p = false) :
    weigh (floodWeight T c x) ((handleEthernetMsg (T.cfg p.dst) env p.ifIndex p.srcMac p.frame
      (s.nodes p.dst)).sent.flatMap fun t => T.copies p.dst (relayTrail s.tick p t) t) ≤
      if launchesFlood T x (s, .deliver k env) then
        maxFanout T * treeCost c (maxFanout T) (Fintype.card Node) else 0 := by
  set sent := (handleEthernetMsg (T.cfg p.dst) env p.ifIndex p.srcMac p.frame
    (s.nodes p.dst)).sent.flatMap fun t => T.copies p.dst (relayTrail s.tick p t) t
  have hstarts : ∀ q ∈ sent, floodOf x q = true →
      q.host.hopCount = 0 ∧ launchesFlood T x (s, .deliver k env) = true := by
    intro q hq hqflood
    obtain ⟨t, ht, hqt⟩ := List.mem_flatMap.mp hq
    obtain ⟨type, hproc, _, hsends⟩ := handleEthernetMsg_sends ht
    obtain ⟨htflood, htsrc⟩ := floodOf_iff.mp hqflood
    rw [host_of_mem_copies hqt] at htflood htsrc ⊢
    have hflood : isFlood p.host = false := by
      rw [← Bool.not_eq_true]
      intro hflood
      have hrel := (hsends.relayed hproc.type_eq hflood htflood).2
      rw [← Bool.not_eq_true, floodOf_iff] at hp
      exact hp ⟨hflood, hrel.src.symm.trans htsrc⟩
    have hzero := hsends.hopCount_zero hproc.type_eq hflood htflood
    exact ⟨hzero, launchesFlood_iff.mpr ⟨_, _, t, outcomeAt_deliver hk, ht, htflood, htsrc, hzero⟩⟩
  exact weigh_started_le (countP_flood_le handleEthernetMsg_oneFlood.floodIndices _) hstarts

/-- The same for a request. -/
theorem weigh_request_le (n : Node) (sparams : SendParams) (env : Env) :
    weigh (floodWeight T c x) ((handlePeerMsg (T.cfg n) env sparams (s.nodes n)).sent.flatMap
      fun t => T.copies n [] t) ≤
      if launchesFlood T x (s, .request n sparams env) then
        maxFanout T * treeCost c (maxFanout T) (Fintype.card Node) else 0 := by
  have hcall := handlePeerMsg_call (T.cfg n) env sparams (s.nodes n)
  set sent := (handlePeerMsg (T.cfg n) env sparams (s.nodes n)).sent.flatMap
    fun t => T.copies n [] t
  have hstarts : ∀ q ∈ sent, floodOf x q = true →
      q.host.hopCount = 0 ∧ launchesFlood T x (s, .request n sparams env) = true := by
    intro q hq hqflood
    obtain ⟨t, ht, hqt⟩ := List.mem_flatMap.mp hq
    obtain ⟨htflood, htsrc⟩ := floodOf_iff.mp hqflood
    rw [host_of_mem_copies hqt] at htflood htsrc ⊢
    have hzero : t.host.hopCount = 0 := by
      cases hcall.sends ht with
      | request _ _ _ hhost =>
          rw [hhost]
          rfl
      | data _ _ _ hhost =>
          rw [hhost]
          rfl
    exact ⟨hzero, launchesFlood_iff.mpr ⟨n, _, t, rfl, ht, htflood, htsrc, hzero⟩⟩
  exact weigh_started_le (countP_flood_le hcall.floodIndices fun _ => []) hstarts

/-- **What a step does to the weight of a flood.** -/
theorem weigh_flood_step (hs : T.step s a = some s') (hbounds' : HopsBounded x s') :
    (if deliversFlood x (s, a) then c else 0) + weigh (floodWeight T c x) s'.flight ≤
      weigh (floodWeight T c x) s.flight + if launchesFlood T x (s, a) then
        maxFanout T * treeCost c (maxFanout T) (Fintype.card Node) else 0 := by
  rcases step_cases hs with ⟨n, sparams, env, rfl, rfl⟩ | ⟨k, env, p, rfl, hk, rfl⟩
  · have hle := weigh_request_le (T := T) (s := s) (x := x) (c := c) n sparams env
    simp only [deliversFlood, Topology.takeRequest, weigh_append]
    simp only [Bool.false_eq_true, if_false]
    omega
  · have hsplit := weigh_eraseIdx (w := floodWeight T c x) hk
    have hdelivers : deliversFlood x (s, .deliver k env) = floodOf x p := by
      simp [deliversFlood, hk]
    rw [hdelivers]
    simp only [Topology.deliverPacket, weigh_append]
    cases hp : floodOf x p with
    | true =>
        have hle := weigh_relayed_le (c := c) hk hs hbounds' hp
        simp only [if_true]
        omega
    | false =>
        have hle := weigh_launched_le (T := T) (c := c) env hk hp
        simp only [Bool.false_eq_true, if_false]
        omega

end Step

/-! ## Whole runs -/

/-- The number of deliveries one flood can cause. -/
def floodBound [Fintype Node] (T : Topology Node) : ℕ :=
  maxFanout T * treeCost 1 (maxFanout T) (Fintype.card Node)

/-- Whatever else happens in a run, as long as no entry for `x` is deleted the floods
from `x` cause at most `floodBound` deliveries each. -/
theorem flood_deliveries_bounded [Fintype Node] {h : List (Net Node × Action Node)} {s : Net Node}
    {x : Ip} (ht : Trace T.step (Net.initial Node) h s)
    (hdel : ∀ y ∈ h, ∀ n, ¬ Deletes T y.1 y.2 n x) :
    h.countP (deliversFlood x) ≤ h.countP (launchesFlood T x) * floodBound T := by
  have hcharge := ht.charge (Φ := fun s => weigh (floodWeight T 1 x) s.flight)
    (c := fun s a => if deliversFlood x (s, a) then 1 else 0)
    (g := fun s a => if launchesFlood T x (s, a) then floodBound T else 0)
    (G := fun s a => ∀ n, ¬ Deletes T s a n x)
    (fun h s a s' ht hG hlast hs => ?_) hdel
  · have hcost : total (fun s a => if deliversFlood x (s, a) then 1 else 0) h =
        h.countP (deliversFlood x) * 1 := weigh_ite (deliversFlood x) 1 h
    have hgain : total (fun s a => if launchesFlood T x (s, a) then floodBound T else 0) h =
        h.countP (launchesFlood T x) * floodBound T := weigh_ite (launchesFlood T x) _ h
    have hstart : weigh (floodWeight T 1 x) (Net.initial Node).flight = 0 := rfl
    omega
  · have ht' := ht.snoc hs
    exact weigh_flood_step hs (hopsBounded_of_trails (hopCount_eq_of_trace ht')
      (trails_nodup_of_trace ht' (List.forall_mem_cons.mpr ⟨hlast, hG⟩)))

theorem triangleRound_flood_bounded : ∃ h s, Trace triangleNet.step (Net.initial (Fin 4)) h s ∧
    h.countP (deliversFlood "10.0.0.1") = 3 ∧
    h.countP (launchesFlood triangleNet "10.0.0.1") = 1 ∧
    h.countP (deliversFlood "10.0.0.1") ≤
      h.countP (launchesFlood triangleNet "10.0.0.1") * floodBound triangleNet := by
  obtain ⟨h, s, ht, hp⟩ := Trace.exists_of_exec triangleNet.step (Net.initial (Fin 4))
    triangleRound (fun h _ => decide (h.countP (deliversFlood "10.0.0.1") = 3 ∧
      h.countP (launchesFlood triangleNet "10.0.0.1") = 1) &&
      h.all (keepsEntries triangleNet)) (by decide +kernel)
  obtain ⟨hcounts, hkeep⟩ := Bool.and_eq_true _ _ ▸ hp
  obtain ⟨hdelivered, hlaunched⟩ := of_decide_eq_true hcounts
  exact ⟨h, s, ht, hdelivered, hlaunched, flood_deliveries_bounded ht
    fun y hy n => not_deletes_of_keepsEntries hkeep y hy n _⟩

end OnDemandRouting.Proofs
