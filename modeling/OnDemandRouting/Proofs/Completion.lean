import OnDemandRouting.Proofs.LoopFree
import OnDemandRouting.Proofs.OneMessage
import OnDemandRouting.Proofs.ShortestRoute

/-!
# A discovery comes to an end

`Discovery` says what can be in flight after a request: copies of the flood, replies
and the message.  Every one of them has only so far to go.  A copy of the flood pays
for its relays and for the answer it may cause, a reply has as many deliveries to go
as its receiver's route to `S` has hops, and these routes only get shorter.  The
message follows routes to `D`.  As long as nobody answers from its table these have
no loops, but a reply can turn them under way, so a reply also pays for a new start
of the message.
-/

namespace OnDemandRouting.Proofs

open OnDemandRouting.Lib
open OnDemandRouting.Model

variable {Node : Type} {T : Topology Node}

/-- The frame in flight is a reply. -/
def isReply (p : Packet Node) : Bool :=
  decide (FrameType.ofInt p.host.frameType = some .rrep)

/-- The frame in flight is a DATA frame. -/
def isData (p : Packet Node) : Bool :=
  decide (FrameType.ofInt p.host.frameType = some .data)

theorem isFlood_of_isReply {p : Packet Node} (h : isReply p = true) : isFlood p.host = false := by
  rw [← Bool.not_eq_true, isFlood_iff (of_decide_eq_true h)]
  simp

theorem isFlood_of_isData {p : Packet Node} (h : isData p = true) : isFlood p.host = false := by
  rw [← Bool.not_eq_true, isFlood_iff (of_decide_eq_true h)]
  simp

theorem countP_isData (flight : List (Packet Node)) :
    flight.countP isData = (flightMsgs flight).length := by
  rw [flightMsgs, List.length_filterMap_eq_countP]
  refine List.countP_congr fun p _ => ?_
  rw [dataMsg?, isData]
  split_ifs with hdata
  · simp [hdata]
  · simp [hdata]

/-- A calm delivery in which the datagram to an application is sent, if there is one. -/
structure Served (T : Topology Node) (s : Net Node) (a : Action Node) : Prop
    extends Calm T s a where
  peerOk : a.env.peerOk = true

theorem Served.succeeds {s : Net Node} {a : Action Node} (h : Served T s a) : a.env.Succeeds :=
  ⟨h.linksUp, h.peerOk⟩

theorem served_of_keepsEntries {h : List (Net Node × Action Node)}
    (hdeliver : ∀ x ∈ h, (∃ k env, x.2 = .deliver k env) ∧ x.2.env.Succeeds)
    (hkeeps : h.all (keepsEntries T) = true) : ∀ x ∈ h, Served T x.1 x.2 := by
  have hcalm := calm_of_keepsEntries (fun x hx => (hdeliver x hx).imp_right (·.toLinksUp)) hkeeps
  exact fun x hx => ⟨hcalm x hx, (hdeliver x hx).2.peerOk⟩

variable [DecidableEq Node]

/-- The hops of the route to `S`; 0 at `S` itself. -/
def rank (T : Topology Node) (S : Node) (s : Net Node) (n : Node) : ℕ :=
  if n = S then 0 else ((route (s.nodes n).table (T.ip S)).map fun e => e.noHops.toNat).getD 0

/-- The deliveries a reply has to go. -/
def replyWeight (T : Topology Node) (S : Node) (s : Net Node) (p : Packet Node) : ℕ :=
  if isReply p then rank T S s p.dst + 1 else 0

/-! ## Replies -/

section Replies

variable {S D n : Node} {b k : Int} {s s' : Net Node} {a : Action Node} {env : Env}
  {p q : Packet Node} {type : FrameType} {t : Transmission} {trail : List (RelayEvent Node)}

theorem Discovery.rank_le (hd : Discovery T S D b s) (h : Near T S b s n k) :
    (rank T S s n : Int) ≤ k := by
  have hk := hd.near_nonneg h
  rw [rank]
  split_ifs with hn
  · exact_mod_cast hk
  · obtain ⟨e, he, hcov⟩ := h.resolve_left fun h => hn h.1
    have hid := ((hd.toSource n e he).resolve_right fun h => hn h.1).id_eq
    unfold Covers at hcov
    simp only [he, Option.map_some, Option.getD_some]
    omega

/-- Routes to `S` only get shorter. -/
theorem Discovery.rank_step (hd : Discovery T S D b s) (hd' : Discovery T S D b s')
    (hs : T.step s a = some s') (hcalm : Calm T s a) (h : ∃ k, Near T S b s n k) :
    rank T S s' n ≤ rank T S s n := by
  by_cases hn : n = S
  · simp [rank, hn]
  · obtain ⟨k, hnear⟩ := h
    obtain ⟨e, he, hcov⟩ := hnear.resolve_left fun h => hn h.1
    have hself : Near T S b s n e.noHops := by
      have hid := ((hd.toSource n e he).resolve_right fun h => hn h.1).id_eq
      exact .inr ⟨e, he, .inr ⟨hid, Int.le_refl _⟩⟩
    have hle := hd'.rank_le (hself.step hs hcalm)
    have hpos := hd.near_nonneg hself
    have hrank : rank T S s n = e.noHops.toNat := by simp [rank, hn, he]
    omega

/-- The next hop of a route to `S` is nearer. -/
theorem SourceRoute.near_next {e : REntry} (he : SourceRoute T S b s n e)
    (halong : Along (T.cfg n) e t) (hq : q ∈ T.copies n trail t) :
    Near T S b s q.dst (e.noHops - 1) := by
  obtain ⟨w, hnext, _, hw⟩ := he.via
  obtain rfl : q.dst = w := (nextHop_of_mem_copies halong hnext.ne_broadcast hq).unique hnext
  exact hw

/-- A reply that is sent has not far to go: less than the reply it carries on, or at
most the way the request has come. -/
theorem Discovery.reply_sent (hd : Discovery T S D b s) (hd' : Discovery T S D b s')
    (hs : T.step s a = some s') (hcalm : Calm T s a) (hr : Receipt T s s' a env p type)
    (hsends : EthSends (T.cfg p.dst) p.ifIndex p.host (learnedAt T s env p) (destAt T s env p)
      { s.nodes p.dst with table := (learnedAt T s env p).table } type t)
    (hq : q ∈ T.copies p.dst trail t) (hreply : isReply q = true) :
    (isFlood p.host = true ∧ (rank T S s' q.dst : Int) ≤ p.host.hopCount) ∨
      (isReply p = true ∧ rank T S s' q.dst + 1 ≤ rank T S s p.dst) := by
  have hqtype : FrameType.ofInt t.host.frameType = some .rrep := by
    rw [← host_of_mem_copies hq]
    exact of_decide_eq_true hreply
  -- an answer goes back along the route just learned
  have hanswer (hin : type = .rreq) (halong : Along (T.cfg p.dst) (learnedAt T s env p).entry t) :
      isFlood p.host = true ∧ (rank T S s' q.dst : Int) ≤ p.host.hopCount := by
    subst hin
    have hcopy := hd.flood_of_isFlood hr.mem ((isFlood_iff hr.processed.type_eq).mpr (.inl rfl))
    have hback := hd.learned_source hs hcalm hr hcopy
    have hle := hd'.rank_le (hback.near_next halong hq)
    have hcov := covers_learnedAt T s env p
    have hid := hback.id_eq
    rw [hcopy.id_eq] at hcov
    unfold Covers at hcov
    exact ⟨hcopy.type, by omega⟩
  cases hsends with
  | relay out _ hout _ _ _ hhost =>
      rcases hout with rfl | rfl
      · simp [hhost, floodFrame, FrameType.ofInt_toInt] at hqtype
      · simp [hhost, floodFrame, FrameType.ofInt_toInt] at hqtype
  | answerOwn _ halong => exact .inl (hanswer rfl halong)
  | answerCached _ _ halong => exact .inl (hanswer rfl halong)
  | @forwardRrep _ d hself hdest halong =>
      have hcopy := hd.reply_of_type hr.mem hr.processed.type_eq
      obtain ⟨e, he, hback, hroute⟩ := hd.reply_route hcalm hr hcopy hself
      obtain rfl := Option.some.inj (hdest.symm.trans he)
      have hdst : p.dst ≠ S := fun h => hself (h ▸ hcopy.ends.dst_eq)
      have hnext := (hback.step hs hcalm).near_next halong hq
      have hle := hd'.rank_le hnext
      have hpos := hd'.near_nonneg hnext
      have hrank : rank T S s p.dst = d.noHops.toNat := by simp [rank, hdst, hroute]
      exact .inr ⟨decide_eq_true hr.processed.type_eq, by omega⟩
  | releaseRrep _ hwaits htype =>
      have hmsg := (hd.pending _ _ (mem_of_findKey hwaits).1).2
      simp [hmsg.type] at htype
  | releaseData _ _ htype _ hhost => simp [hhost, htype] at hqtype
  | forwardData _ _ _ hhost =>
      rw [hhost] at hqtype
      simp [hr.processed.type_eq] at hqtype
  | request _ _ _ _ hhost => simp [hhost, floodFrame, FrameType.ofInt_toInt] at hqtype

theorem DiscoveryCopy.not_data {p : Packet Node} (h : DiscoveryCopy T S D b s p)
    (hdata : isData p = false) :
    floodOf (T.ip S) p = true ∧ isReply p = false ∨ floodOf (T.ip S) p = false ∧
      isFlood p.host = false ∧ isReply p = true := by
  cases h with
  | flood h =>
      refine .inl ⟨floodOf_iff.mpr ⟨h.type, h.ends.src_eq⟩, ?_⟩
      rw [isReply, decide_eq_false_iff_not]
      intro hreply
      have hflood := h.type
      simp [isFlood_iff hreply] at hflood
  | reply h =>
      have hreply : isReply p = true := decide_eq_true h.type
      have hflood := isFlood_of_isReply hreply
      exact .inr ⟨by simp [floodOf, hflood], hflood, hreply⟩
  | message h => simp [isData, h.message.type] at hdata

variable [Fintype Node]

/-- What a delivery does to the replies: one that is received is paid for, and only a
copy of the flood brings in another. -/
theorem Discovery.weigh_replies_step {rest new : List (Packet Node)} (hd : Discovery T S D b s)
    (hd' : Discovery T S D b s') (hhops : HopsBounded (T.ip S) s) (hs : T.step s a = some s')
    (hcalm : Calm T s a) (hx : Exchange T s s' a env p rest new) :
    (if isReply p then 1 else 0) + weigh (replyWeight T S s') s'.flight ≤
      weigh (replyWeight T S s) s.flight +
        if isFlood p.host then Fintype.card Node + 1 else 0 := by
  have hrest : ∀ q ∈ rest, replyWeight T S s' q ≤ replyWeight T S s q := by
    intro q hq
    rw [replyWeight, replyWeight]
    split_ifs with hreply
    · have hcopy := hd.reply_of_type (hx.mem_rest hq) (of_decide_eq_true hreply)
      exact Nat.succ_le_succ (hd.rank_step hd' hs hcalm hcopy.receiver)
    · exact Nat.le_refl 0
  have hnew : ∀ q ∈ new, replyWeight T S s' q ≤ if !isFlood q.host then
      (if isFlood p.host then Fintype.card Node + 1 else if isReply p then rank T S s p.dst else 0)
      else 0 := by
    intro q hq
    rw [replyWeight]
    by_cases hreply : isReply q = true
    · obtain ⟨type, t, hr, hsends, hqt⟩ := hx.sent q hq
      have hqflood := isFlood_of_isReply hreply
      rw [if_pos hreply, if_pos (by simp [hqflood])]
      rcases hd.reply_sent hd' hs hcalm hr hsends hqt hreply with ⟨hflood, hle⟩ | ⟨hpreply, hle⟩
      · have hcopy := hd.flood_of_isFlood hr.mem hflood
        obtain ⟨_, hcard⟩ := hhops p hr.mem (floodOf_iff.mpr ⟨hflood, hcopy.ends.src_eq⟩)
        rw [if_pos hflood]
        omega
      · rw [isFlood_of_isReply hpreply, if_neg Bool.false_ne_true, if_pos hpreply]
        exact hle
    · rw [if_neg hreply]
      exact Nat.zero_le _
  have hle := hx.weigh_le hrest hnew
  rw [replyWeight] at hle
  split_ifs at hle ⊢ <;> omega

end Replies

/-! ## Control frames -/

section Control

variable {S D : Node} {b : Int} {s s' : Net Node} {a : Action Node} {env : Env}
  {p : Packet Node} {rest new : List (Packet Node)} [Fintype Node]

/-- What the frames of the flood and the replies can still cost.  A copy of the flood
pays for its delivery and for one answer. -/
def controlLeft (T : Topology Node) (S : Node) (s : Net Node) : ℕ :=
  weigh (floodWeight T (Fintype.card Node + 2) (T.ip S)) s.flight +
    weigh (replyWeight T S s) s.flight

/-- No flood starts during the discovery. -/
theorem Discovery.no_launch (hd : Discovery T S D b s) (hhops : HopsBounded (T.ip S) s)
    (hcalm : Calm T s a) : launchesFlood T (T.ip S) (s, a) = false := by
  rw [← Bool.not_eq_true, launchesFlood_iff]
  rintro ⟨n, o, t, ho, ht, hflood, _, hzero⟩
  obtain ⟨k, env, rfl⟩ := hcalm.delivers
  obtain ⟨p, hk, heq⟩ := Option.map_eq_some_iff.mp ho
  obtain ⟨rfl, rfl⟩ := Prod.mk.inj heq
  obtain ⟨type, hproc, _, hsends⟩ := handleEthernetMsg_sends ht
  have hr := receipt_of_processed (T := T) hk hproc
  by_cases hp : isFlood p.host = true
  · have hcopy := hd.flood_of_isFlood hr.mem hp
    obtain ⟨hpos, _⟩ := hhops p hr.mem (floodOf_iff.mpr ⟨hp, hcopy.ends.src_eq⟩)
    have hhop := (hsends.relayed hproc.type_eq hp hflood).2.hop
    rw [Packet.host_eq] at hpos
    omega
  · obtain ⟨hin, hself, hdest⟩ := hsends.parked hproc.type_eq (Bool.not_eq_true _ ▸ hp) hflood
    exact hd.not_parked hcalm hr hin hself hdest

/-- Every delivery of a control frame is paid for, and the message adds nothing. -/
theorem Discovery.control_step (hd : Discovery T S D b s) (hd' : Discovery T S D b s')
    (hhops : HopsBounded (T.ip S) s) (hhops' : HopsBounded (T.ip S) s')
    (hs : T.step s a = some s') (hcalm : Calm T s a) (hx : Exchange T s s' a env p rest new)
    (hdelivers : deliversFlood (T.ip S) (s, a) = floodOf (T.ip S) p) :
    (if isData p then 0 else 1) + controlLeft T S s' ≤ controlLeft T S s := by
  have hp : p ∈ s.flight := hx.before.mem_iff.mpr List.mem_cons_self
  have hfloods := weigh_flood_step (c := Fintype.card Node + 2) hs hhops'
  have hreplies := hd.weigh_replies_step hd' hhops hs hcalm hx
  rw [hd.no_launch hhops hcalm, hdelivers] at hfloods
  unfold controlLeft
  cases hdata : isData p with
  | true =>
      have hflood := isFlood_of_isData hdata
      simp only [hflood, Bool.false_eq_true, if_false, if_true] at hfloods hreplies ⊢
      omega
  | false =>
      rcases (hd.flight p hp).not_data hdata with ⟨hflood, hreply⟩ | ⟨hother, hflood, hreply⟩
      · have hfl := (floodOf_iff.mp hflood).1
        simp only [hflood, hfl, hreply, Bool.false_eq_true, if_false, if_true] at hfloods hreplies ⊢
        omega
      · simp only [hother, hflood, hreply, Bool.false_eq_true, if_false, if_true]
          at hfloods hreplies ⊢
        omega

end Control

/-! ## The answer -/

/-- `D` has been asked, or a node has answered for it and passed the request on as ASENT. -/
def Asked (T : Topology Node) (S D : Node) (s : Net Node) : Prop :=
  (route (s.nodes D).table (T.ip S)).isSome = true ∨
    ∃ p ∈ s.flight, FrameType.ofInt p.host.frameType = some .asent

/-- Once asked for, an answer is on its way until it releases the message. -/
structure Pursued (T : Topology Node) (S D : Node) (s : Net Node) : Prop where
  queue : (s.nodes S).pending.length ≤ 1
  answered : Asked T S D s → (∃ p ∈ s.flight, isReply p = true) ∨ (s.nodes S).pending = []

/-- A node that answers from its table sends the answer first. -/
theorem react_answers_cached {cfg : Config} {env : Env} {intfN : Int} {f : OdrFrame} {l : Learned}
    {dest : Option REntry} {st : NodeState} {d : REntry} (hself : f.destIp ≠ cfg.selfIp)
    (hdest : dest = some d) (hl : HasInterface cfg l.entry) :
    ∃ t ts, (react cfg env intfN f l dest st .rreq).plan = .ok (t :: ts) ∧
      Along cfg l.entry t ∧ t.host = rrepFrame (st.counter.value + 1) d.noHops f.payloadLen
        f.dstPort f.srcPort f.srcIp f.destIp := by
  obtain ⟨t, ht⟩ := sendRrepPacket_plan hl f d.noHops true st.counter
  obtain ⟨halong, hhost⟩ := mem_sendRrepPacket ht (List.mem_singleton_self t)
  refine ⟨t, if l.flag then relayBroadcast cfg intfN f true else [], ?_, halong, hhost⟩
  simp only [react, handleRreq, fields_odrFrame, if_neg hself, hdest, ht, Except.map]
  rfl

section Answer

variable {S D : Node} {b : Int} {m : AppMsg} {s₀ s s' : Net Node} {a : Action Node} {env : Env}
  {p : Packet Node}

theorem Discovery.asked_step (hd : Discovery T S D b s) (hs : T.step s a = some s')
    (hcalm : Calm T s a) (hasked : Asked T S D s') :
    Asked T S D s ∨ ∃ q ∈ s'.flight, isReply q = true := by
  rcases hasked with hroute | ⟨q, hq, hasent⟩
  · rcases hd.source_step hs hcalm D with hkeep | ⟨env, p, type, hr, hdst, _, hp⟩
    · exact .inl (.inl (hkeep ▸ hroute))
    · have hcopy := hp.resolve_right fun h => hd.ends_ne h.1.symm
      rcases (isFlood_iff hr.processed.type_eq).mp hcopy.type with rfl | rfl
      · -- the request has reached `D`
        obtain ⟨w, hnext, _⟩ := (hd.learned_source hs hcalm hr hcopy).via
        obtain ⟨t, hplan, halong, hhost⟩ := react_answers (by
          rw [hcopy.ends.dst_eq, hdst]; rfl) hnext.hasInterface
        obtain ⟨q, hq, _⟩ := exists_mem_copies_of_along halong hnext
        refine .inr ⟨q, hr.copies_in_flight hs (hcalm.env_linksUp hr) hplan
          (List.mem_singleton_self t) q hq, ?_⟩
        rw [isReply, host_of_mem_copies hq, hhost]
        rfl
      · exact .inl (.inr ⟨p, hr.mem, hr.processed.type_eq⟩)
  · obtain ⟨k, env, rfl⟩ := hcalm.delivers
    rcases mem_flight_deliver hs hq with hold | ⟨p, type, t, hr, hsends, hqt, _⟩
    · exact .inl (.inr ⟨q, hold, hasent⟩)
    · rw [host_of_mem_copies hqt] at hasent
      cases hsends with
      | relay out hin hout hdest hflag hflood hhost hkind =>
          rcases hin with rfl | rfl
          · -- the node has answered from its table
            have hself : p.host.destIp ≠ T.ip p.dst := hdest.resolve_right (by decide)
            obtain ⟨d, hd'⟩ : ∃ d, destAt T s env p = some d := by
              rcases hkind with rfl | h | h
              · simp [hhost, floodFrame, FrameType.ofInt_toInt] at hasent
              · simp at h
              · exact Option.isSome_iff_exists.mp h
            have hcopy := hd.flood_of_isFlood hr.mem
              ((isFlood_iff hr.processed.type_eq).mpr (.inl rfl))
            obtain ⟨w, hnext, _⟩ := (hd.learned_source hs hcalm hr hcopy).via
            obtain ⟨t', ts, hplan, halong, hhost'⟩ :=
              react_answers_cached hself hd' hnext.hasInterface
            obtain ⟨q', hq', _⟩ := exists_mem_copies_of_along halong hnext
            refine .inr ⟨q', hr.copies_in_flight hs (hcalm.env_linksUp hr) hplan
              List.mem_cons_self q' hq', ?_⟩
            rw [isReply, host_of_mem_copies hq', hhost']
            rfl
          · exact .inl (.inr ⟨p, hr.mem, hr.processed.type_eq⟩)
      | answerOwn _ _ hhost => simp [hhost, rrepFrame, FrameType.ofInt_toInt] at hasent
      | answerCached _ _ _ hhost => simp [hhost, rrepFrame, FrameType.ofInt_toInt] at hasent
      | forwardRrep _ _ _ hhost => simp [hhost, rrepFrame, FrameType.ofInt_toInt] at hasent
      | releaseRrep _ _ _ _ hhost => simp [hhost, rrepFrame, FrameType.ofInt_toInt] at hasent
      | releaseData _ _ htype _ hhost => simp [hhost, htype] at hasent
      | forwardData _ _ _ hhost => simp [hhost, hr.processed.type_eq] at hasent
      | request _ _ _ _ hhost => simp [hhost, floodFrame, FrameType.ofInt_toInt] at hasent

/-- The queue of `S` stays as it is until a reply reaches `S`. -/
theorem Discovery.pending_step (hd : Discovery T S D b s) (hs : T.step s a = some s')
    (hcalm : Calm T s a) : (s'.nodes S).pending = (s.nodes S).pending ∨
      (s'.nodes S).pending = eraseKey PendingMsg.destip (T.ip D) (s.nodes S).pending := by
  obtain ⟨env, p, type, hr⟩ := hd.exists_receipt hs hcalm
  rcases hr.pending_cases (fun htype hself => hd.not_parked hcalm hr htype hself) S with
    hkeep | ⟨rfl, _, _, htaken⟩
  · exact .inl hkeep
  · rw [(hd.reply_of_type hr.mem hr.processed.type_eq).ends.src_eq] at htaken
    exact .inr htaken

/-- A reply in flight is passed on until it reaches `S`, and there it empties the queue. -/
theorem Discovery.reply_step (hd : Discovery T S D b s) (hu : Underway T S m s₀ s)
    (hqueue : (s.nodes S).pending.length ≤ 1) (hs : T.step s a = some s') (hcalm : Calm T s a)
    (hp : p ∈ s.flight) (hreply : isReply p = true) :
    (∃ q ∈ s'.flight, isReply q = true) ∨ (s'.nodes S).pending = [] := by
  rcases hd.kept_or_received hs hcalm hp with hkept | ⟨env, type, hr⟩
  · exact .inl ⟨p, hkept, hreply⟩
  obtain rfl : type = .rrep :=
    Option.some.inj (hr.processed.type_eq.symm.trans (of_decide_eq_true hreply))
  have hcopy := hd.reply_of_type hp hr.processed.type_eq
  by_cases hself : p.host.destIp = T.ip p.dst
  · right
    obtain rfl : p.dst = S := T.selfIp_inj _ _ (hself.symm.trans hcopy.ends.dst_eq)
    have hpending := hr.state.pending
    have hself' : p.host.destIp = (T.cfg p.dst).selfIp := hself
    simp only [pendingAfter, if_pos hself', hcopy.ends.src_eq] at hpending
    rw [hpending]
    refine eraseKey_eq_nil hqueue fun q hq => ?_
    rw [(hu.framesWf.pending p.dst q hq).key]
    exact (hd.pending p.dst q hq).2.ends.dst_eq
  · left
    obtain ⟨e, hdest, hback, _⟩ := hd.reply_route hcalm hr hcopy hself
    obtain ⟨w, hnext, _⟩ := hback.via
    obtain ⟨t, hplan, halong, hhost⟩ := react_forwards hself hdest hnext.hasInterface
    obtain ⟨q, hq, _⟩ := exists_mem_copies_of_along halong hnext
    refine ⟨q, hr.copies_in_flight hs (hcalm.env_linksUp hr) hplan
      (List.mem_singleton_self t) q hq, ?_⟩
    rw [isReply, host_of_mem_copies hq, hhost]
    rfl

theorem pursued_step (hp : Pursued T S D s) (hd : Discovery T S D b s)
    (hu : Underway T S m s₀ s) (hcalm : Calm T s a) (hs : T.step s a = some s') :
    Pursued T S D s' where
  queue := by
    have hlen := length_eraseKey_le PendingMsg.destip (T.ip D) (s.nodes S).pending
    rcases hd.pending_step hs hcalm with heq | heq
    · rw [heq]
      exact hp.queue
    · rw [heq]
      exact hlen.trans hp.queue
  answered := by
    intro hasked
    rcases hd.asked_step hs hcalm hasked with hbefore | hnew
    · rcases hp.answered hbefore with ⟨q, hq, hreply⟩ | hnil
      · exact hd.reply_step hu hp.queue hs hcalm hq hreply
      · right
        rcases hd.pending_step hs hcalm with heq | heq
        · rw [heq, hnil]
        · rw [heq, hnil]
          rfl
    · exact .inl hnew

end Answer

/-! ## Runs -/

/-- Everything that is known along the run. -/
structure Course (T : Topology Node) (S D : Node) (b : Int) (m : AppMsg) (s₀ s : Net Node) :
    Prop where
  discovery : Discovery T S D b s
  spread : Spread T S D b s
  underway : Underway T S m s₀ s
  counted : HopsCounted s
  trails : TrailsBehind (T.ip S) s
  pursued : Pursued T S D s

section Runs

variable {S D : Node} {b : Int} {m : AppMsg} {s₀ s₁ s s' : Net Node} {a : Action Node}
  {h : List (Net Node × Action Node)}

theorem course_step (hc : Course T S D b m s₀ s) (hserved : Served T s a)
    (hs : T.step s a = some s') : Course T S D b m s₀ s' where
  discovery := discovery_step hc.discovery hserved.toCalm hs
  spread := spread_step hc.spread hc.discovery hserved.toCalm hs
  underway := underway_step hc.underway ⟨hserved.delivers, hserved.succeeds⟩ hs
  counted := hopsCounted_step hc.counted hs
  trails := trailsBehind_step hc.trails (fun n => hserved.keeps n _) hs
  pursued := pursued_step hc.pursued hc.discovery hc.underway hserved.toCalm hs

theorem Launch.course (hlaunch : Launch T S D b s₀ s₁) (hacc : Accepts T S D m s₀ s₁) :
    Course T S D b m s₀ s₁ := by
  obtain ⟨_, sparams, portno, freshId, _, hflight, htable, hqueue, _⟩ := hlaunch.call
  have htrail : ∀ p ∈ s₁.flight, p.trail = [] := by
    intro p hp
    rw [hflight] at hp
    obtain ⟨t, _, hpt⟩ := List.mem_flatMap.mp hp
    exact (mem_copies hpt).2.2.2.1
  refine ⟨hlaunch.discovery, hlaunch.spread, hacc.underway, fun p hp _ => ?_, fun p hp _ => ?_,
    by simp [hqueue], ?_⟩
  · rw [(hlaunch.floodCopy hp).2.2.1, htrail p hp]
    rfl
  · simp [htrail p hp]
  · rintro (hroute | ⟨p, hp, hasent⟩)
    · simp [htable D, hlaunch.route_none (.inl rfl)] at hroute
    · simp [(hlaunch.floodCopy hp).2.1] at hasent

theorem Launch.course_of_trace (hlaunch : Launch T S D b s₀ s₁) (hacc : Accepts T S D m s₀ s₁)
    (ht : Trace T.step s₁ h s) (hserved : ∀ x ∈ h, Served T x.1 x.2) :
    Course T S D b m s₀ s :=
  ht.invariant_of_guard (G := Served T) (I := Course T S D b m s₀) (hlaunch.course hacc)
    (fun _ _ _ hI hG hs => course_step hI hG hs) hserved

/-- When no control frame is left, the message has left the queue. -/
theorem Course.queue_empty (hc : Course T S D b m s₀ s)
    (hconnected : ∃ k, Walk (FloodLink T) S D k) (hdone : ∀ p ∈ s.flight, isData p = true) :
    (s.nodes S).pending = [] := by
  have hd := hc.discovery
  have hnone : ∀ p ∈ s.flight, isFlood p.host = false := fun p hp => isFlood_of_isData (hdone p hp)
  obtain ⟨k, hwalk⟩ := hconnected
  obtain ⟨l, _, havoid⟩ := hwalk.exists_avoiding_end
  obtain ⟨e, he, _⟩ := (hc.spread.near_of_walk hd hnone havoid).resolve_left
    fun h => hd.ends_ne h.1.symm
  refine (hc.pursued.answered (.inl (by simp [he]))).resolve_left ?_
  rintro ⟨p, hp, hreply⟩
  have hdata := of_decide_eq_true (hdone p hp)
  rw [of_decide_eq_true hreply] at hdata
  simp at hdata

/-- The step delivers a frame that is not a DATA frame. -/
def deliversControl (x : Net Node × Action Node) : Bool :=
  match x.2 with
  | .request _ _ _ => false
  | .deliver k _ => (x.1.flight[k]?).any fun p => !isData p

theorem Course.exchange (hc : Course T S D b m s₀ s) (hcalm : Calm T s a)
    (hs : T.step s a = some s') : ∃ env p type rest new, Receipt T s s' a env p type ∧
      Exchange T s s' a env p rest new ∧ deliversFlood (T.ip S) (s, a) = floodOf (T.ip S) p ∧
      deliversControl (s, a) = !isData p := by
  obtain ⟨env, p, type, hr⟩ := hc.discovery.exists_receipt hs hcalm
  obtain ⟨k, rfl, hk⟩ := hr.action
  obtain ⟨rest, new, hx⟩ := hc.underway.exchange hk hs
  exact ⟨env, p, type, rest, new, hr, hx, by simp [deliversFlood, hk],
    by simp [deliversControl, hk]⟩

variable [Fintype Node]

theorem Course.hopsBounded (hc : Course T S D b m s₀ s) : HopsBounded (T.ip S) s :=
  hopsBounded_of_trails hc.counted hc.trails

theorem Course.control_step (hc : Course T S D b m s₀ s) (hserved : Served T s a)
    (hs : T.step s a = some s') :
    (if deliversControl (s, a) then 1 else 0) + controlLeft T S s' ≤ controlLeft T S s := by
  have hc' := course_step hc hserved hs
  obtain ⟨env, p, type, rest, new, _, hx, hdelivers, hcontrol⟩ := hc.exchange hserved.toCalm hs
  have hle := hc.discovery.control_step hc'.discovery hc.hopsBounded hc'.hopsBounded hs
    hserved.toCalm hx hdelivers
  rw [hcontrol]
  cases hdata : isData p with
  | true => simpa [hdata] using hle
  | false => simpa [hdata] using hle

/-- What the request costs at most in control frames. -/
def controlBound (T : Topology Node) : ℕ :=
  maxFanout T * treeCost (Fintype.card Node + 2) (maxFanout T) (Fintype.card Node)

theorem Launch.controlLeft_le (hlaunch : Launch T S D b s₀ s₁) (hacc : Accepts T S D m s₀ s₁) :
    controlLeft T S s₁ ≤ controlBound T := by
  obtain ⟨sparams, env, _, hs⟩ := hacc.request
  have hreplies : weigh (replyWeight T S s₁) s₁.flight = 0 := by
    refine weigh_eq_zero fun p hp => ?_
    simp [replyWeight, isReply, (hlaunch.floodCopy hp).2.1]
  have hfloods := weigh_flood_step (c := Fintype.card Node + 2) hs
    (hlaunch.course hacc).hopsBounded
  rw [hlaunch.quiet.flight, weigh_nil] at hfloods
  rw [controlLeft, hreplies, controlBound]
  split_ifs at hfloods <;> omega

end Runs

/-- Whatever the nodes answer from their tables: after a request for an unknown
destination the network delivers at most `controlBound` RREQ, ASENT and RREP frames, as
long as nothing fails and no entry is deleted.  Once none of them is in flight and `D` can
be reached, the message has left the queue of `S`. -/
theorem discovery_control_bounded [Fintype Node] {S D : Node} {b : Int} {m : AppMsg}
    {s₀ s₁ s : Net Node} {h : List (Net Node × Action Node)} (hlaunch : Launch T S D b s₀ s₁)
    (hacc : Accepts T S D m s₀ s₁) (ht : Trace T.step s₁ h s)
    (hserved : ∀ x ∈ h, Served T x.1 x.2) :
    h.countP deliversControl ≤ controlBound T ∧
      ((∃ k, Walk (FloodLink T) S D k) → (∀ p ∈ s.flight, isData p = true) →
        (s.nodes S).pending = []) := by
  refine ⟨?_, (hlaunch.course_of_trace hacc ht hserved).queue_empty⟩
  have hcharge := ht.charge (Φ := controlLeft T S)
    (c := fun s a => if deliversControl (s, a) then 1 else 0) (g := fun _ _ => 0) (G := Served T)
    (fun h s a s' ht hG hlast hs =>
      (hlaunch.course_of_trace hacc ht hG).control_step hlast hs) hserved
  have hcost : total (fun s a => if deliversControl (s, a) then 1 else 0) h =
      h.countP deliversControl * 1 := weigh_ite deliversControl 1 h
  have hgain : total (fun _ _ => 0) h = 0 := by simp [total, weigh]
  have hstart := hlaunch.controlLeft_le hacc
  omega

theorem lineLaunched_accepts : Accepts lineNet 0 2
    ((messageFor "10.0.0.3").message "10.0.0.1" 909) (Net.initial (Fin 3)) lineLaunched where
  reached := ⟨[], .nil, by simp⟩
  quiet := quiet_initial
  alive := fun _ => rfl
  request := ⟨messageFor "10.0.0.3", .reliable 0, Env.reliable_succeeds 0, rfl⟩
  accepted := by decide +kernel
  dest := rfl

theorem lineDiscovery_control_bounded : ∃ h s, Trace lineNet.step lineLaunched h s ∧
    h.countP deliversControl = 4 ∧ h.countP deliversControl ≤ controlBound lineNet ∧
    (s.nodes 0).pending = [] := by
  obtain ⟨h, s, ht, hp, hdeliver⟩ := Trace.exists_of_exec_forall lineNet.step lineLaunched
    (List.replicate 4 (.deliver 0 (.reliable 0)))
    (fun h s => h.all (keepsEntries lineNet) &&
      (s.flight.all isData && decide (h.countP deliversControl = 4)))
    (P := fun a => (∃ k env, a = .deliver k env) ∧ a.env.Succeeds)
    (by simp [Action.env, Env.reliable_succeeds]) (by decide +kernel)
  obtain ⟨hkeeps, hrest⟩ := Bool.and_eq_true _ _ ▸ hp
  obtain ⟨hdata, hcount⟩ := Bool.and_eq_true _ _ ▸ hrest
  have hwalk : Walk (FloodLink lineNet) 0 2 2 :=
    .tail (.tail .refl (by decide : FloodLink lineNet 0 1)) (by decide : FloodLink lineNet 1 2)
  obtain ⟨hbound, hqueue⟩ := discovery_control_bounded lineLaunched_launch lineLaunched_accepts ht
    (served_of_keepsEntries hdeliver hkeeps)
  exact ⟨h, s, ht, of_decide_eq_true hcount, hbound, hqueue ⟨2, hwalk⟩ (List.all_eq_true.mp hdata)⟩

/-! ## The message -/

section Message

variable {S D : Node} {b : Int} {m : AppMsg} {s₀ s₁ s s' : Net Node} {a : Action Node}
  {env : Env} {p : Packet Node} {h : List (Net Node × Action Node)}

/-- A DATA frame of the run does not change the routes to `D`. -/
theorem Discovery.routesVia_step (hd : Discovery T S D b s) (hs : T.step s a = some s')
    (hcalm : Calm T s a) (hr : Receipt T s s' a env p .data) :
    RoutesVia T s' (T.ip D) = RoutesVia T s (T.ip D) := by
  have hroute (n : Node) :
      route (s'.nodes n).table (T.ip D) = route (s.nodes n).table (T.ip D) := by
    rcases route_step hs (hcalm.keeps n (T.ip D)) with hkeep | ⟨env', p', _, hr', _, hsrc, _⟩
    · exact hkeep
    · obtain ⟨k, rfl, hk⟩ := hr.action
      obtain ⟨k', ha, hk'⟩ := hr'.action
      cases ha
      obtain rfl : p = p' := Option.some.inj (hk.symm.trans hk')
      have hdata := hr.processed.type_eq
      cases hd.flight p hr.mem with
      | flood h => exact absurd (h.ends.src_eq.symm.trans hsrc) hd.ip_ne
      | reply h => simp [h.type] at hdata
      | message h => exact absurd (h.message.ends.src_eq.symm.trans hsrc) hd.ip_ne
  funext n w
  simp only [RoutesVia, hroute]

theorem Discovery.message_of_type (hd : Discovery T S D b s) (hp : p ∈ s.flight)
    (htype : FrameType.ofInt p.host.frameType = some .data) : MessageCopy T S D b s p := by
  cases hd.flight p hp with
  | flood h =>
      have hflood := h.type
      simp [isFlood_iff htype] at hflood
  | reply h =>
      have hreply := h.type
      simp [htype] at hreply
  | message h => exact h

/-- Only `D` answers, so the routes to `D` stay ordered. -/
theorem Discovery.orderly (hd : Discovery T S D b s) (hcalm : Calm T s a)
    (hown : cachedAnswerAt T s a = none) : OrderlyFor T (T.ip D) s a where
  keeps := fun n => hcalm.keeps n _
  answers := by simp [hown]
  releases := by
    intro n f hf hsrc
    obtain ⟨k, env, rfl⟩ := hcalm.delivers
    obtain ⟨p, _, hp⟩ := Option.bind_eq_some_iff.mp hf
    split_ifs at hp
    obtain ⟨q, hq, heq⟩ := Option.map_eq_some_iff.mp hp
    obtain ⟨rfl, rfl⟩ := Prod.mk.inj heq
    have hmsg := (hd.pending _ _ (mem_of_findKey hq).1).2
    exact absurd (hmsg.ends.src_eq.symm.trans hsrc) hd.ip_ne

theorem Launch.ordered_of_trace (hlaunch : Launch T S D b s₀ s₁) (hacc : Accepts T S D m s₀ s₁)
    (ht : Trace T.step s₁ h s) (hserved : ∀ x ∈ h, Served T x.1 x.2)
    (hown : ∀ x ∈ h, cachedAnswerAt T x.1 x.2 = none) : Ordered T (T.ip D) s := by
  have hinv : Course T S D b m s₀ s ∧ Ordered T (T.ip D) s := by
    refine ht.invariant_of_guard (G := fun s a => Served T s a ∧ cachedAnswerAt T s a = none)
      (I := fun s => Course T S D b m s₀ s ∧ Ordered T (T.ip D) s)
      ⟨hlaunch.course hacc, fun p hp hsrc => ?_, fun n e he => ?_⟩ ?_
      fun x hx => ⟨hserved x hx, hown x hx⟩
    · have hcopy := (hlaunch.floodCopy hp).1
      exact absurd (hcopy.ends.src_eq.symm.trans hsrc) hlaunch.discovery.ip_ne
    · obtain ⟨_, _, _, _, _, _, htable, _⟩ := hlaunch.call
      simp [htable n, hlaunch.route_none (.inr rfl)] at he
    · intro s a s' hI hG hs
      exact ⟨course_step hI.1 hG.1 hs, ordered_step hI.1.underway.framesWf hI.2
        (hI.1.discovery.orderly hG.1.toCalm hG.2) hs⟩
  exact hinv.2

variable [Fintype Node]

/-- The deliveries the message has to go while no route to `D` changes. -/
noncomputable def messageWeight (T : Topology Node) (D : Node) (s : Net Node) (p : Packet Node) :
    ℕ :=
  if isData p then if p.dst = D then 1 else descent (RoutesVia T s (T.ip D)) p.dst + 2 else 0

theorem messageWeight_le (p : Packet Node) :
    messageWeight T D s p ≤ if isData p then Fintype.card Node + 2 else 0 := by
  have hle := descent_le_card (RoutesVia T s (T.ip D)) p.dst
  rw [messageWeight]
  split_ifs
  · omega
  · omega
  · exact Nat.le_refl 0

/-- There is one message, so what it has to go is bounded in every state. -/
theorem Underway.messages_le (hu : Underway T S m s₀ s) (hacc : Accepts T S D m s₀ s₁) :
    weigh (messageWeight T D s) s.flight ≤ Fintype.card Node + 2 := by
  have hone := hu.flightMsgs_length_le hacc
  rw [← countP_isData] at hone
  exact weigh_le_of_countP_le_one hone fun p _ => messageWeight_le p

/-- The message goes on along a route without loops. -/
theorem Discovery.message_step {rest new : List (Packet Node)} (hd : Discovery T S D b s)
    (hord : Ordered T (T.ip D) s) (hs : T.step s a = some s') (hcalm : Calm T s a)
    (hx : Exchange T s s' a env p rest new) (hr : Receipt T s s' a env p .data) :
    1 + weigh (messageWeight T D s') s'.flight ≤ weigh (messageWeight T D s) s.flight := by
  have hvia := hd.routesVia_step hs hcalm hr
  have hsame (q : Packet Node) : messageWeight T D s' q = messageWeight T D s q := by
    rw [messageWeight, messageWeight, hvia]
  have hdata : isData p = true := decide_eq_true hr.processed.type_eq
  have hnew : ∀ q ∈ new, messageWeight T D s' q ≤
      if !isFlood q.host then messageWeight T D s p - 1 else 0 := by
    intro q hq
    rw [hsame]
    obtain ⟨type, t, hr', hsends, hqt⟩ := hx.sent q hq
    obtain rfl : type = .data :=
      Option.some.inj (hr'.processed.type_eq.symm.trans hr.processed.type_eq)
    cases hsends with
    | relay _ hin => simp at hin
    | request hin hself hdest => exact absurd hdest (hd.not_parked hcalm hr' hin hself)
    | @forwardData _ d hself hdest halong hhost =>
        have hmsg := hd.message_of_type hr.mem hr.processed.type_eq
        obtain ⟨e, he, hout⟩ := hd.message_route hcalm hr hmsg hself
        obtain rfl := Option.some.inj (hdest.symm.trans he)
        obtain ⟨w, hnext, _⟩ := hout.via
        obtain rfl : q.dst = w := (nextHop_of_mem_copies halong hnext.ne_broadcast hqt).unique hnext
        have hflood : isFlood q.host = false := by
          have hsame : isFlood q.host = isFlood p.host := by
            rw [host_of_mem_copies hqt, hhost]
            rfl
          rw [hsame, isFlood_of_isData hdata]
        have hne : p.host.srcIp ≠ p.host.destIp := by
          rw [hmsg.message.ends.src_eq, hmsg.message.ends.dst_eq]
          exact hd.ip_ne
        have hroute : route (s.nodes p.dst).table p.host.destIp = some d :=
          route_of_derefDest hne hdest
        rw [hmsg.message.ends.dst_eq] at hself hroute
        have hdst : p.dst ≠ D := fun h => hself (h ▸ rfl)
        have hweight : messageWeight T D s p = descent (RoutesVia T s (T.ip D)) p.dst + 2 := by
          rw [messageWeight, if_pos hdata, if_neg hdst]
        rw [hweight, hflood, messageWeight]
        by_cases hqdst : q.dst = D
        · simp [hqdst]
          split_ifs <;> omega
        · have hstep : RoutesVia T s (T.ip D) p.dst q.dst :=
            ⟨fun h => hself h.symm, fun h => hqdst (T.selfIp_inj _ _ h), d, hroute, hnext⟩
          have hlt := descent_lt hord.acyclic hstep
          simp [hqdst]
          split_ifs <;> omega
  have hpos : 1 ≤ messageWeight T D s p := by
    rw [messageWeight, if_pos hdata]
    split_ifs <;> omega
  have hle := hx.weigh_le (fun q _ => (hsame q).le) hnew
  omega

/-- What is left to deliver: a control frame pays for itself and for a new start of the
message. -/
noncomputable def framesLeft (T : Topology Node) (S D : Node) (s : Net Node) : ℕ :=
  (Fintype.card Node + 3) * controlLeft T S s + weigh (messageWeight T D s) s.flight

theorem Course.frames_step (hc : Course T S D b m s₀ s) (hacc : Accepts T S D m s₀ s₁)
    (hord : Ordered T (T.ip D) s) (hserved : Served T s a) (hs : T.step s a = some s') :
    1 + framesLeft T S D s' ≤ framesLeft T S D s := by
  have hcontrol := hc.control_step hserved hs
  obtain ⟨env, p, type, rest, new, hr, hx, _, hdelivers⟩ := hc.exchange hserved.toCalm hs
  rw [hdelivers] at hcontrol
  unfold framesLeft
  cases hdata : isData p with
  | true =>
      obtain rfl : type = .data :=
        Option.some.inj (hr.processed.type_eq.symm.trans (of_decide_eq_true hdata))
      have hmessages := hc.discovery.message_step hord hs hserved.toCalm hx hr
      have hmul : (Fintype.card Node + 3) * controlLeft T S s' ≤
          (Fintype.card Node + 3) * controlLeft T S s := Nat.mul_le_mul_left _ (by omega)
      omega
  | false =>
      have hmessages := (course_step hc hserved hs).underway.messages_le hacc
      simp only [hdata, Bool.not_false, if_true] at hcontrol
      have hmul : (Fintype.card Node + 3) * (1 + controlLeft T S s') ≤
          (Fintype.card Node + 3) * controlLeft T S s := Nat.mul_le_mul_left _ hcontrol
      rw [Nat.mul_add, Nat.mul_one] at hmul
      omega

end Message

/-- What a discovery costs at most. -/
def discoveryBound [Fintype Node] (T : Topology Node) : ℕ :=
  (Fintype.card Node + 3) * controlBound T

/-- A discovery in which only `D` answers comes to an end.  The number of deliveries is
bounded, every frame in flight can be delivered, and when none is left the message has
come to its end at `D`, once. -/
theorem discovery_completes [Fintype Node] {S D : Node} {b : Int} {m : AppMsg}
    {s₀ s₁ s : Net Node} {h : List (Net Node × Action Node)} (hlaunch : Launch T S D b s₀ s₁)
    (hacc : Accepts T S D m s₀ s₁) (hconnected : ∃ k, Walk (FloodLink T) S D k)
    (ht : Trace T.step s₁ h s) (hserved : ∀ x ∈ h, Served T x.1 x.2)
    (hown : ∀ x ∈ h, cachedAnswerAt T x.1 x.2 = none) :
    h.length ≤ discoveryBound T ∧
      (∀ k < s.flight.length, ∀ env, (T.step s (.deliver k env)).isSome = true) ∧
      (s.flight = [] → Arrived D m s₀ s) := by
  have hc := hlaunch.course_of_trace hacc ht hserved
  refine ⟨?_, fun k hk env => hc.underway.enabled hk env, fun hdone => ?_⟩
  · have hcharge := ht.charge (Φ := framesLeft T S D) (c := fun _ _ => 1) (g := fun _ _ => 0)
      (G := fun s a => Served T s a ∧ cachedAnswerAt T s a = none)
      (fun h s a s' ht hG hlast hs => ?_) fun x hx => ⟨hserved x hx, hown x hx⟩
    · have hcost : total (fun _ _ => 1) h = h.length := by simp [total, weigh]
      have hgain : total (fun _ _ => 0) h = 0 := by simp [total, weigh]
      have hmessages : weigh (messageWeight T D s₁) s₁.flight = 0 := by
        refine weigh_eq_zero fun p hp => ?_
        simp [messageWeight, isData, (hlaunch.floodCopy hp).2.1]
      have hstart : (Fintype.card Node + 3) * controlLeft T S s₁ ≤ discoveryBound T :=
        Nat.mul_le_mul_left _ (hlaunch.controlLeft_le hacc)
      rw [hcost, hgain, framesLeft, framesLeft, hmessages] at hcharge
      omega
    · have hserved' := fun x hx => (hG x hx).1
      have hown' := fun x hx => (hG x hx).2
      exact (hlaunch.course_of_trace hacc ht hserved').frames_step hacc
        (hlaunch.ordered_of_trace hacc ht hserved' hown') hlast.1 hs
  · refine hc.underway.arrived hacc hc.discovery.ends_ne.symm ⟨hdone, fun n => ?_⟩
    by_cases hn : n = S
    · rw [hn]
      exact hc.queue_empty hconnected (by simp [hdone])
    · rw [List.eq_nil_iff_forall_not_mem]
      exact fun q hq => hn (hc.discovery.pending n q hq).1

theorem lineDiscovery_completes : ∃ h s, Trace lineNet.step lineLaunched h s ∧
    h.length = 6 ∧ h.length ≤ discoveryBound lineNet ∧
    Arrived 2 ((messageFor "10.0.0.3").message "10.0.0.1" 909) (Net.initial (Fin 3)) s := by
  obtain ⟨h, s, ht, hp, hdeliver⟩ := Trace.exists_of_exec_forall lineNet.step lineLaunched
    (List.replicate 6 (.deliver 0 (.reliable 0)))
    (fun h s => h.all (keepsEntries lineNet) &&
      (h.all (fun x => (cachedAnswerAt lineNet x.1 x.2).isNone) &&
        decide (h.length = 6 ∧ s.flight.length = 0)))
    (P := fun a => (∃ k env, a = .deliver k env) ∧ a.env.Succeeds)
    (by simp [Action.env, Env.reliable_succeeds]) (by decide +kernel)
  obtain ⟨hkeeps, hrest⟩ := Bool.and_eq_true _ _ ▸ hp
  obtain ⟨hown, hend⟩ := Bool.and_eq_true _ _ ▸ hrest
  obtain ⟨hlen, hdone⟩ := of_decide_eq_true hend
  have hwalk : Walk (FloodLink lineNet) 0 2 2 :=
    .tail (.tail .refl (by decide : FloodLink lineNet 0 1)) (by decide : FloodLink lineNet 1 2)
  obtain ⟨hbound, _, harrived⟩ := discovery_completes lineLaunched_launch lineLaunched_accepts
    ⟨2, hwalk⟩ ht (served_of_keepsEntries hdeliver hkeeps)
    fun x hx => by simpa using List.all_eq_true.mp hown x hx
  exact ⟨h, s, ht, hlen, hbound, harrived (List.length_eq_zero_iff.mp hdone)⟩

end OnDemandRouting.Proofs
