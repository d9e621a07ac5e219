import OnDemandRouting.Proofs.Forced

/-!
# A forced discovery comes to an end

Every node takes the request in at most once, so a forced flood costs no more than
the fanout of every node: the measure counts the copies in flight and the fanout of
each node that has not taken the request in.  The reply and the message have only the
hops of the routes in front of them to go.  What is covered by the flood is kept as in
the discovery without the flag, but without the hop counts.
-/

namespace OnDemandRouting.Proofs

open OnDemandRouting.Lib
open OnDemandRouting.Model

variable {Node : Type} {T : Topology Node}

/-- The step delivers a frame and unlinks only what the flag takes out, as a test. -/
def keepsUnflagged (T : Topology Node) (x : Net Node × Action Node) : Bool :=
  match x.2 with
  | .request _ _ _ => false
  | .deliver k env => (x.1.flight[k]?).all fun p =>
      (outcomeAt T x.1 (.deliver k env)).all fun o => o.2.deleted.all fun ip =>
        decide (p.host.routeDiscFlag = 1 ∧ ip = p.host.destIp)

theorem prompt_of_keepsUnflagged {h : List (Net Node × Action Node)}
    (henv : ∀ x ∈ h, x.2.env.Succeeds) (hkeeps : h.all (keepsUnflagged T) = true) :
    ∀ x ∈ h, Prompt T x.1 x.2 := by
  rintro ⟨s, a⟩ hx
  have hkeep := List.all_eq_true.mp hkeeps _ hx
  cases a with
  | request n sparams env => simp [keepsUnflagged] at hkeep
  | deliver k env =>
      refine ⟨⟨k, env, rfl⟩, henv _ hx, ?_⟩
      rintro n ip ⟨o, ho, hip⟩
      obtain ⟨p, hk, _⟩ := Option.map_eq_some_iff.mp ho
      simp only [keepsUnflagged, hk, ho, Option.all_some] at hkeep
      obtain ⟨hflag, hdest⟩ := of_decide_eq_true (List.all_eq_true.mp hkeep ip hip)
      exact ⟨k, env, p, rfl, hk, hflag, hdest⟩

variable [DecidableEq Node]

/-- `n` is in the tree or a copy of the request is on its way to it. -/
def Awaits (T : Topology Node) (S : Node) (b : Int) (s : Net Node) (n : Node) : Prop :=
  Joined T S b s n ∨ ∃ p ∈ s.flight, p.dst = n ∧ isFlood p.host = true

/-- The request is under way everywhere. -/
structure ForcedSpread (T : Topology Node) (S D : Node) (b : Int) (s : Net Node) : Prop where
  segment : ∀ p ∈ s.flight, isFlood p.host = true → ∀ x ∈ T.peers p.dst p.ifIndex,
    Awaits T S b s x.1
  origin : ∀ w, FloodLink T S w → Awaits T S b s w
  relays : ∀ n, n ≠ S → n ≠ D → Marked T S b s n → ∀ w, FloodLink T n w → Awaits T S b s w

/-- Once `D` is asked, the reply is on its way until it releases the message. -/
structure Replying (T : Topology Node) (S D : Node) (b : Int) (s : Net Node) : Prop where
  queue : (s.nodes S).pending.length ≤ 1
  answered : Marked T S b s D →
    (∃ p ∈ s.flight, isReply p = true) ∨ (s.nodes S).pending = []

/-! ## The flood -/

section Spread

variable {S D n w : Node} {b : Int} {s s' : Net Node} {a : Action Node} {env : Env}
  {p q : Packet Node} {type : FrameType} {m : AppMsg} {s₀ : Net Node}

/-- A copy of the request stays in flight until its receiver is in the tree. -/
theorem Forced.kept_or_marked (hf : Forced T S D b s) (hu : Underway T S m s₀ s)
    (hprompt : Prompt T s a) (hs : T.step s a = some s') (hp : p ∈ s.flight)
    (hflood : isFlood p.host = true) : p ∈ s'.flight ∨ Marked T S b s' p.dst := by
  obtain ⟨k, env, rfl⟩ := hprompt.delivers
  obtain ⟨x, hk, hs'⟩ := step_deliver hs
  by_cases hpx : p = x
  · subst hpx
    right
    rcases hf.delivery hu.uniqueRoutes hk hprompt.succeeds hs with ⟨type, hr⟩ | ⟨_, hmarked, _⟩
    · exact (hf.copy_of_isFlood hp hflood).marked hr
    · exact hf.marked_step hprompt hs hmarked
  · left
    rw [hs']
    exact mem_flight_of_ne hk hp hpx

theorem Awaits.step (h : Awaits T S b s n) (hf : Forced T S D b s) (hu : Underway T S m s₀ s)
    (hprompt : Prompt T s a) (hs : T.step s a = some s') : Awaits T S b s' n := by
  rcases h with hjoined | ⟨p, hp, rfl, hflood⟩
  · exact .inl (hf.joined_step hprompt hs hjoined)
  · rcases hf.kept_or_marked hu hprompt hs hp hflood with hkept | hmarked
    · exact .inr ⟨p, hkept, rfl, hflood⟩
    · exact .inl (.inr hmarked)

/-- A relay passes the request on to all its neighbours, except those that share the
segment the request came in on. -/
theorem ForcedSpread.relay (hspread : ForcedSpread T S D b s) (hf : Forced T S D b s)
    (hu : Underway T S m s₀ s) (hprompt : Prompt T s a) (hs : T.step s a = some s')
    (hr : Receipt T s s' a env p type) (hp : ForcedCopy T S D b s p) (hdst : p.dst ≠ D)
    (hlink : FloodLink T p.dst w) : Awaits T S b s' w := by
  obtain ⟨r, hr', hfloods, j, hj⟩ := hlink
  by_cases hindex : r.ifIndex = p.ifIndex
  · rw [hindex] at hj
    exact (hspread.segment p hr.mem hp.isFlood (w, j) hj).step hf hu hprompt hs
  · obtain rfl : type = .rreq := Option.some.inj (hr.processed.type_eq.symm.trans hp.type)
    have hself : p.host.destIp ≠ (T.cfg p.dst).selfIp := by
      rw [hp.dst_eq]
      exact fun h => hdst (T.selfIp_inj _ _ h.symm)
    obtain ⟨v, hsender, _⟩ := hp.sender
    obtain ⟨hflag, hentry⟩ := hp.learned hr
    obtain ⟨ts, asentFlag, hplan, hsub⟩ := react_relays (.inl rfl) (.inl hself) hflag
      (hentry ▸ hsender.nextHop.hasInterface)
    have hfloods' := (floodsOn_iff (T.ifIndex_pos _ r hr')).mpr ⟨hfloods, hindex⟩
    obtain ⟨t, ht, hti⟩ : ∃ t ∈ relayBroadcast (T.cfg p.dst) p.ifIndex p.host asentFlag,
      t.intIndex = r.ifIndex := exists_mem_sendReqBroadcast hr' hfloods' _ _ _ _ _ _ _ _ _
    obtain ⟨hflood, hhost⟩ := mem_sendReqBroadcast ht
    obtain ⟨q, hq, hqdst, _⟩ := exists_mem_copies_of_broadcast hflood.dest (hti ▸ hj)
    refine .inr ⟨q, hr.copies_in_flight hs (hprompt.env_linksUp hr) hplan (hsub ht) q hq, hqdst, ?_⟩
    rw [host_of_mem_copies hq, hhost]
    cases asentFlag <;> rfl

theorem ForcedSpread.segment_step (hspread : ForcedSpread T S D b s) (hf : Forced T S D b s)
    (hu : Underway T S m s₀ s) (hprompt : Prompt T s a) (hs : T.step s a = some s')
    (hq : q ∈ s'.flight) (hflood : isFlood q.host = true) :
    ∀ x ∈ T.peers q.dst q.ifIndex, Awaits T S b s' x.1 := by
  intro x hx
  obtain ⟨i, env, rfl⟩ := hprompt.delivers
  rcases mem_flight_deliver hs hq with hold | ⟨p, type, t, hr, hsends, hqt, hcopies⟩
  · exact (hspread.segment q hold hflood x hx).step hf hu hprompt hs
  · cases hf.flight p hr.mem with
    | flood hp =>
        by_cases hself : x = (p.dst, t.intIndex)
        · exact .inl (.inr (by rw [hself]; exact hp.marked hr))
        · obtain ⟨_, hfl⟩ : isFlood q.host = true ∧ Flooded (T.cfg p.dst) p.ifIndex t := by
            refine (hf.flood_sends hprompt hs hr hp hsends hqt).2.resolve_right fun h => ?_
            simp [isFlood_of_isReply h.2] at hflood
          obtain ⟨hpeers, _⟩ := mem_copies hqt
          obtain ⟨q', hq', hdst, _⟩ :=
            exists_mem_copies_of_broadcast hfl.dest (peers_trans (peers_symm hpeers) hx hself)
          refine .inr ⟨q', hcopies q' hq', hdst, ?_⟩
          rwa [host_of_mem_copies hq', ← host_of_mem_copies hqt]
    | reply hp =>
        rcases (hf.reply_sends hu hprompt hs hr hp hsends hqt).2 with ⟨h, _⟩ | ⟨h, _⟩
        · simp [isFlood_of_isReply h] at hflood
        · simp [isFlood_of_isData h] at hflood
    | message hmsg hp =>
        have hdata := (hf.message_sends hu hprompt hs hr hmsg hp hsends hqt).2.1
        simp [isFlood_of_isData hdata] at hflood

theorem forcedSpread_step (hspread : ForcedSpread T S D b s) (hf : Forced T S D b s)
    (hu : Underway T S m s₀ s) (hprompt : Prompt T s a) (hs : T.step s a = some s') :
    ForcedSpread T S D b s' where
  segment := fun _ hq hflood => hspread.segment_step hf hu hprompt hs hq hflood
  origin := fun w hlink => (hspread.origin w hlink).step hf hu hprompt hs
  relays := by
    intro n hS hD hmarked w hlink
    rcases hf.joined_cases hprompt hs (.inr hmarked) with hbefore | ⟨env, p, type, hr, rfl, hp⟩
    · exact (hspread.relays n hS hD (hbefore.resolve_left hS) w hlink).step hf hu hprompt hs
    · exact hspread.relay hf hu hprompt hs hr hp hD hlink

/-- When no copy is left, the request has come to every node that can be reached. -/
theorem ForcedSpread.joined_of_walk (hspread : ForcedSpread T S D b s)
    (hdone : ∀ p ∈ s.flight, isFlood p.host = false) {k : ℕ}
    (hwalk : Walk (FloodLinkAvoiding T D) S n k) : Joined T S b s n := by
  have hjoined {w : Node} (h : Awaits T S b s w) : Joined T S b s w := by
    refine h.resolve_right ?_
    rintro ⟨p, hp, _, hflood⟩
    simp [hdone p hp] at hflood
  induction hwalk with
  | refl => exact .inl rfl
  | @tail v n k _ hlink ih =>
      by_cases hS : v = S
      · subst hS
        exact hjoined (hspread.origin n hlink.1)
      · exact hjoined (hspread.relays v hS hlink.2 (ih.resolve_left hS) n hlink.1)

end Spread

/-! ## The answer -/

section Answer

variable {S D : Node} {b : Int} {s s' : Net Node} {a : Action Node} {env : Env}
  {p : Packet Node} {m : AppMsg} {s₀ : Net Node}

theorem Forced.pending_step (hf : Forced T S D b s) (hu : Underway T S m s₀ s)
    (hprompt : Prompt T s a) (hs : T.step s a = some s') :
    (s'.nodes S).pending = (s.nodes S).pending ∨
      (s'.nodes S).pending = eraseKey PendingMsg.destip (T.ip D) (s.nodes S).pending := by
  obtain ⟨k, env, p, rest, new, _, _, _, ⟨type, hr⟩ | ⟨_, _, hnodes, _⟩⟩ :=
    hf.exchange hu hprompt hs
  · rcases hr.pending_cases (fun htype hself => hf.not_parked hprompt hr htype hself) S with
      hkeep | ⟨rfl, _, _, htaken⟩
    · exact .inl hkeep
    · have hreply := hf.reply_of_type hr.mem (decide_eq_true hr.processed.type_eq)
      rw [hreply.ends.src_eq] at htaken
      exact .inr htaken
  · exact .inl (by rw [hnodes])

/-- The request has reached `D`, which answers. -/
theorem Forced.answer_sent (hf : Forced T S D b s) (hprompt : Prompt T s a)
    (hs : T.step s a = some s') (hD : ¬ Marked T S b s D) (hD' : Marked T S b s' D) :
    ∃ q ∈ s'.flight, isReply q = true := by
  rcases hf.joined_cases hprompt hs (.inr hD') with hbefore | ⟨env, p, type, hr, hdst, hp⟩
  · exact absurd (hbefore.resolve_left hf.ends_ne.symm) hD
  · obtain rfl : type = .rreq := Option.some.inj (hr.processed.type_eq.symm.trans hp.type)
    obtain ⟨w, hsender, _⟩ := hp.sender
    have hnext : NextHop T p.dst (learnedAt T s env p).entry w := by
      rw [(hp.learned hr).2]
      exact hsender.nextHop
    obtain ⟨t, hplan, halong, hhost⟩ := react_answers (by rw [hp.dst_eq, hdst]; rfl)
      hnext.hasInterface
    obtain ⟨q, hq, _⟩ := exists_mem_copies_of_along halong hnext
    refine ⟨q, hr.copies_in_flight hs (hprompt.env_linksUp hr) hplan
      (List.mem_singleton_self t) q hq, ?_⟩
    rw [isReply, host_of_mem_copies hq, hhost]
    rfl

/-- The reply is passed on until it reaches `S`, and there it empties the queue. -/
theorem Forced.reply_step (hf : Forced T S D b s) (hu : Underway T S m s₀ s)
    (hqueue : (s.nodes S).pending.length ≤ 1) (hprompt : Prompt T s a)
    (hs : T.step s a = some s') (hp : p ∈ s.flight) (hreply : isReply p = true) :
    (∃ q ∈ s'.flight, isReply q = true) ∨ (s'.nodes S).pending = [] := by
  obtain ⟨k, env, rfl⟩ := hprompt.delivers
  obtain ⟨x, hk, hs'⟩ := step_deliver hs
  by_cases hpx : p = x
  swap
  · refine .inl ⟨p, ?_, hreply⟩
    rw [hs']
    exact mem_flight_of_ne hk hp hpx
  subst hpx
  have hanswer := hf.reply_of_type hp hreply
  rcases hf.delivery hu.uniqueRoutes hk hprompt.succeeds hs with ⟨type, hr⟩ | ⟨hcopy, _⟩
  swap
  · have hflood := hcopy.isFlood
    simp [isFlood_of_isReply hreply] at hflood
  obtain rfl : type = .rrep := Option.some.inj (hr.processed.type_eq.symm.trans hanswer.type)
  by_cases hself : p.host.destIp = T.ip p.dst
  · right
    obtain rfl : p.dst = S := T.selfIp_inj _ _ (hself.symm.trans hanswer.ends.dst_eq)
    have hpending := hr.state.pending
    have hself' : p.host.destIp = (T.cfg p.dst).selfIp := hself
    simp only [pendingAfter, if_pos hself', hanswer.ends.src_eq] at hpending
    rw [hpending]
    refine eraseKey_eq_nil hqueue fun q hq => ?_
    rw [(hu.framesWf.pending p.dst q hq).key]
    exact (hf.pending p.dst q hq).2.ends.dst_eq
  · left
    obtain ⟨e, w, hdest, hnext, _⟩ := hf.reply_route hprompt hr hanswer hself
    obtain ⟨t, hplan, halong, hhost⟩ := react_forwards hself hdest hnext.hasInterface
    obtain ⟨q, hq, _⟩ := exists_mem_copies_of_along halong hnext
    refine ⟨q, hr.copies_in_flight hs (hprompt.env_linksUp hr) hplan
      (List.mem_singleton_self t) q hq, ?_⟩
    rw [isReply, host_of_mem_copies hq, hhost]
    rfl

theorem replying_step (hreplying : Replying T S D b s) (hf : Forced T S D b s)
    (hu : Underway T S m s₀ s) (hprompt : Prompt T s a) (hs : T.step s a = some s') :
    Replying T S D b s' where
  queue := by
    have hlen := length_eraseKey_le PendingMsg.destip (T.ip D) (s.nodes S).pending
    rcases hf.pending_step hu hprompt hs with heq | heq
    · rw [heq]
      exact hreplying.queue
    · rw [heq]
      exact hlen.trans hreplying.queue
  answered := by
    intro hD'
    by_cases hD : Marked T S b s D
    · rcases hreplying.answered hD with ⟨q, hq, hreply⟩ | hnil
      · exact hf.reply_step hu hreplying.queue hprompt hs hq hreply
      · right
        rcases hf.pending_step hu hprompt hs with heq | heq
        · rw [heq, hnil]
        · rw [heq, hnil]
          rfl
    · exact .inl (hf.answer_sent hprompt hs hD hD')

theorem Forced.marked_of_onward (hf : Forced T S D b s) (hp : p ∈ s.flight)
    (hflood : isFlood p.host = false) : Marked T S b s D := by
  by_contra hnot
  simp [(hf.silent hnot).1 p hp] at hflood

end Answer

/-! ## The measure -/

section Measure

variable {S D : Node} {b : Int} {s s' : Net Node} {a : Action Node} {env : Env}
  {p q : Packet Node} {m : AppMsg} {s₀ : Net Node} {rest new : List (Packet Node)} {k : Nat}
  [Fintype Node]

/-- The nodes that have not taken the request in. -/
def unmarked (T : Topology Node) (S : Node) (b : Int) (s : Net Node) : ℕ :=
  (Finset.univ.filter fun n => ¬ Marked T S b s n).card

/-- What the reply and the message have to go.  The reply also pays for the message. -/
def onwardWeight (T : Topology Node) (S D : Node) (s : Net Node) (p : Packet Node) : ℕ :=
  if isReply p then rank T S s p.dst + (Fintype.card Node + 2)
  else if isData p then toGo T D s p.dst + 1 else 0

/-- What is left to deliver. -/
def forcedLeft (T : Topology Node) (S D : Node) (b : Int) (s : Net Node) : ℕ :=
  s.flight.countP (fun p => isFlood p.host) + maxFanout T * unmarked T S b s +
    weigh (onwardWeight T S D s) s.flight +
    if Marked T S b s D then 0 else 2 * (Fintype.card Node + 1)

theorem Forced.unmarked_le (hf : Forced T S D b s) (hprompt : Prompt T s a)
    (hs : T.step s a = some s') : unmarked T S b s' ≤ unmarked T S b s := by
  refine Finset.card_le_card fun n hn => ?_
  simp only [Finset.mem_filter, Finset.mem_univ, true_and] at hn ⊢
  exact fun h => hn (hf.marked_step hprompt hs h)

/-- A copy of the request that is taken in marks its receiver. -/
theorem Forced.unmarked_lt {type : FrameType} (hf : Forced T S D b s) (hprompt : Prompt T s a)
    (hs : T.step s a = some s') (hr : Receipt T s s' a env p type)
    (hp : ForcedCopy T S D b s p) : unmarked T S b s' + 1 ≤ unmarked T S b s := by
  refine Finset.card_lt_card (Finset.ssubset_iff_of_subset (fun n hn => ?_) |>.mpr
    ⟨p.dst, ?_, ?_⟩)
  · simp only [Finset.mem_filter, Finset.mem_univ, true_and] at hn ⊢
    exact fun h => hn (hf.marked_step hprompt hs h)
  · simpa using hp.unmarked hr
  · simpa using hp.marked hr

/-- A delivery takes one copy out and puts at most a fanout of copies in. -/
theorem countP_flood_deliver (hk : s.flight[k]? = some p)
    (hs : T.step s (.deliver k env) = some s') :
    (if isFlood p.host then 1 else 0) + s'.flight.countP (fun p => isFlood p.host) ≤
      s.flight.countP (fun p => isFlood p.host) + maxFanout T := by
  obtain ⟨p', hk', rfl⟩ := step_deliver hs
  obtain rfl : p = p' := Option.some.inj (hk.symm.trans hk')
  obtain ⟨hlt, hget⟩ := List.getElem?_eq_some_iff.mp hk
  have hperm := (List.getElem_cons_eraseIdx_perm hlt).countP_eq fun p => isFlood p.host
  rw [hget, List.countP_cons] at hperm
  have hnew : ((handleEthernetMsg (T.cfg p.dst) env p.ifIndex p.srcMac p.frame
      (s.nodes p.dst)).sent.flatMap fun t => T.copies p.dst (relayTrail s.tick p t) t).countP
      (fun p => isFlood p.host) ≤ maxFanout T :=
    countP_flood_le handleEthernetMsg_oneFlood.floodIndices _
  simp only [Topology.deliverPacket, List.countP_append]
  omega

/-- The part of the measure that pays for the flood. -/
theorem Forced.flood_step (hf : Forced T S D b s) (hu : Underway T S m s₀ s)
    (hprompt : Prompt T s a) (hs : T.step s a = some s')
    (ha : a = .deliver k env) (hk : s.flight[k]? = some p)
    (hx : Exchange T s s' a env p rest new) :
    (if isFlood p.host then 1 else 0) + s'.flight.countP (fun p => isFlood p.host) +
      maxFanout T * unmarked T S b s' ≤
        s.flight.countP (fun p => isFlood p.host) + maxFanout T * unmarked T S b s := by
  subst ha
  have hmono : maxFanout T * unmarked T S b s' ≤ maxFanout T * unmarked T S b s :=
    Nat.mul_le_mul_left _ (hf.unmarked_le hprompt hs)
  have hcount : s.flight.countP (fun p => isFlood p.host) =
      rest.countP (fun p => isFlood p.host) + if isFlood p.host then 1 else 0 := by
    rw [hx.before.countP_eq, List.countP_cons]
  -- a frame that is dropped or is no copy of the request puts no copies in flight
  have hquiet (hnone : ∀ q ∈ new, isFlood q.host = false) :
      s'.flight.countP (fun p => isFlood p.host) = rest.countP fun p => isFlood p.host := by
    have hzero : new.countP (fun p => isFlood p.host) = 0 :=
      List.countP_eq_zero.mpr fun q hq => by simp [hnone q hq]
    rw [hx.after, List.countP_append, hzero, Nat.add_zero]
  rcases hf.delivery hu.uniqueRoutes hk hprompt.succeeds hs with
    ⟨type, hr⟩ | ⟨hcopy, hmarked, _⟩
  · cases hf.flight p hr.mem with
    | flood hp =>
        have hle := countP_flood_deliver hk hs
        have hlt := Nat.mul_le_mul_left (maxFanout T) (hf.unmarked_lt hprompt hs hr hp)
        rw [Nat.mul_add, Nat.mul_one] at hlt
        omega
    | reply hp =>
        have hsame := hquiet fun q hq => by
          obtain ⟨_, _, hr', hsends, hqt⟩ := hx.sent q hq
          rcases (hf.reply_sends hu hprompt hs hr' hp hsends hqt).2 with ⟨h, _⟩ | ⟨h, _⟩
          · exact isFlood_of_isReply h
          · exact isFlood_of_isData h
        omega
    | message hmsg hp =>
        have hsame := hquiet fun q hq => by
          obtain ⟨_, _, hr', hsends, hqt⟩ := hx.sent q hq
          exact isFlood_of_isData (hf.message_sends hu hprompt hs hr' hmsg hp hsends hqt).2.1
        omega
  · have hsame := hquiet fun q hq => by
      obtain ⟨_, _, hr', _⟩ := hx.sent q hq
      exact absurd hmarked (hcopy.unmarked hr')
    omega

theorem onwardWeight_flood (h : isFlood p.host = true) : onwardWeight T S D s p = 0 := by
  have hreply : isReply p = false := by
    rw [← Bool.not_eq_true]
    exact fun hreply => by simp [isFlood_of_isReply hreply] at h
  have hdata : isData p = false := by
    rw [← Bool.not_eq_true]
    exact fun hdata => by simp [isFlood_of_isData hdata] at h
  simp [onwardWeight, hreply, hdata]

theorem onwardWeight_reply (h : isReply p = true) :
    onwardWeight T S D s p = rank T S s p.dst + (Fintype.card Node + 2) := if_pos h

theorem onwardWeight_message (h : isData p = true) :
    onwardWeight T S D s p = toGo T D s p.dst + 1 := by
  have hreply : isReply p = false := by
    rw [isReply, of_decide_eq_true h]
    rfl
  simp [onwardWeight, hreply, h]

/-- What stays in flight has as far to go as before. -/
theorem Forced.onward_kept (hf : Forced T S D b s) (hu : Underway T S m s₀ s)
    (hprompt : Prompt T s a) (hs : T.step s a = some s') (hq : q ∈ s.flight) :
    onwardWeight T S D s' q = onwardWeight T S D s q := by
  cases hf.flight q hq with
  | flood h => rw [onwardWeight_flood h.isFlood, onwardWeight_flood h.isFlood]
  | reply h =>
      have hreply : isReply q = true := decide_eq_true h.type
      rw [onwardWeight_reply hreply, onwardWeight_reply hreply,
        hf.rank_step hprompt hs h.receiver]
  | message hmsg hdst =>
      have hdata : isData q = true := decide_eq_true hmsg.type
      rw [onwardWeight_message hdata, onwardWeight_message hdata,
        (hf.passed_step hu hprompt hs hdst).2]

theorem Forced.reply_budget (hf : Forced T S D b s)
    (hdepth : Marked T S b s D → rank T S s D ≤ Fintype.card Node + 1) (hp : p ∈ s.flight)
    (hreply : isReply p = true) :
    0 ≤ p.host.hopCount ∧ p.host.hopCount + rank T S s p.dst ≤ Fintype.card Node := by
  have hanswer := hf.reply_of_type hp hreply
  have hbudget := hanswer.budget
  have hD := hdepth (hf.marked_of_onward hp (isFlood_of_isReply hreply))
  obtain ⟨_, _, _, hgo⟩ := hanswer.sender
  exact ⟨by omega, by omega⟩

/-- A new frame pays with the one that is delivered, and the reply of `D` with what was
kept for it. -/
theorem Forced.onward_new (hf : Forced T S D b s) (hf' : Forced T S D b s')
    (hu : Underway T S m s₀ s) (hprompt : Prompt T s a) (hs : T.step s a = some s')
    (hx : Exchange T s s' a env p rest new)
    (hdepth : Marked T S b s D → rank T S s D ≤ Fintype.card Node + 1)
    (hdepth' : Marked T S b s' D → rank T S s' D ≤ Fintype.card Node + 1) (hq : q ∈ new) :
    onwardWeight T S D s' q ≤ if !isFlood q.host then
      (if isFlood p.host then
        (if Marked T S b s' D ∧ ¬ Marked T S b s D then 2 * (Fintype.card Node + 1) else 0)
      else onwardWeight T S D s p - 1) else 0 := by
  have hqmem : q ∈ s'.flight := by
    rw [hx.after]
    exact List.mem_append_right _ hq
  obtain ⟨type, t, hr, hsends, hqt⟩ := hx.sent q hq
  cases hf.flight p hr.mem with
  | flood hp =>
      rcases (hf.flood_sends hprompt hs hr hp hsends hqt).2 with ⟨hflood, _⟩ | ⟨hD, hreply⟩
      · rw [onwardWeight_flood hflood]
        exact Nat.zero_le _
      · have hbudget := hf'.reply_budget hdepth' hqmem hreply
        have hasked : Marked T S b s' D ∧ ¬ Marked T S b s D :=
          ⟨hD ▸ hp.marked hr, hD ▸ hp.unmarked hr⟩
        rw [onwardWeight_reply hreply, isFlood_of_isReply hreply, Bool.not_false, if_pos rfl,
          if_pos hp.isFlood, if_pos hasked]
        omega
  | reply hp =>
      have hpreply : isReply p = true := decide_eq_true hp.type
      have hbudget := hf.reply_budget hdepth hr.mem hpreply
      rw [isFlood_of_isReply hpreply, onwardWeight_reply hpreply]
      rcases (hf.reply_sends hu hprompt hs hr hp hsends hqt).2 with ⟨hreply, hlt⟩ | ⟨hdata, hgo⟩
      · rw [onwardWeight_reply hreply, isFlood_of_isReply hreply, Bool.not_false, if_pos rfl,
          if_neg Bool.false_ne_true]
        omega
      · rw [onwardWeight_message hdata, isFlood_of_isData hdata, Bool.not_false, if_pos rfl,
          if_neg Bool.false_ne_true]
        omega
  | message hmsg hp =>
      have hpdata : isData p = true := decide_eq_true hmsg.type
      obtain ⟨_, hdata, hlt⟩ := hf.message_sends hu hprompt hs hr hmsg hp hsends hqt
      rw [onwardWeight_message hdata, isFlood_of_isData hdata, isFlood_of_isData hpdata,
        Bool.not_false, if_pos rfl, if_neg Bool.false_ne_true, onwardWeight_message hpdata]
      omega

theorem Forced.onwardWeight_pos (hf : Forced T S D b s) (hp : p ∈ s.flight)
    (hflood : isFlood p.host = false) : 1 ≤ onwardWeight T S D s p := by
  cases hf.flight p hp with
  | flood h => simp [h.isFlood] at hflood
  | reply h =>
      rw [onwardWeight_reply (decide_eq_true h.type)]
      omega
  | message hmsg =>
      rw [onwardWeight_message (decide_eq_true hmsg.type)]
      omega

/-- The part of the measure that pays for the reply and the message. -/
theorem Forced.onward_step (hf : Forced T S D b s) (hf' : Forced T S D b s')
    (hu : Underway T S m s₀ s) (hprompt : Prompt T s a) (hs : T.step s a = some s')
    (hx : Exchange T s s' a env p rest new) (hp : p ∈ s.flight)
    (hdepth : Marked T S b s D → rank T S s D ≤ Fintype.card Node + 1)
    (hdepth' : Marked T S b s' D → rank T S s' D ≤ Fintype.card Node + 1) :
    (if isFlood p.host then 0 else 1) + weigh (onwardWeight T S D s') s'.flight +
      (if Marked T S b s' D then 0 else 2 * (Fintype.card Node + 1)) ≤
        weigh (onwardWeight T S D s) s.flight +
          if Marked T S b s D then 0 else 2 * (Fintype.card Node + 1) := by
  have hle := hx.weigh_le (w := onwardWeight T S D s)
    (fun q hq => (hf.onward_kept hu hprompt hs (hx.mem_rest hq)).le)
    (fun q hq => hf.onward_new hf' hu hprompt hs hx hdepth hdepth' hq)
  have hmarked (h : Marked T S b s D) : Marked T S b s' D := hf.marked_step hprompt hs h
  cases hflood : isFlood p.host with
  | true =>
      rw [hflood, if_pos rfl, onwardWeight_flood hflood] at hle
      rw [if_pos rfl]
      by_cases hD : Marked T S b s D
      · rw [if_pos hD, if_pos (hmarked hD)]
        rw [if_neg fun h => h.2 hD] at hle
        omega
      · rw [if_neg hD]
        by_cases hD' : Marked T S b s' D
        · rw [if_pos ⟨hD', hD⟩] at hle
          rw [if_pos hD']
          omega
        · rw [if_neg fun h => hD' h.1] at hle
          rw [if_neg hD']
          omega
  | false =>
      have hD := hf.marked_of_onward hp hflood
      have hpos := hf.onwardWeight_pos hp hflood
      rw [hflood, if_neg Bool.false_ne_true] at hle
      rw [if_neg Bool.false_ne_true, if_pos hD, if_pos (hmarked hD)]
      omega

end Measure

/-! ## The request -/

/-- `S` accepts a message for `D` with the discovery flag.  Nobody has a route to `S` as
new as the request; the tables may hold anything else. -/
structure ForcedLaunch (T : Topology Node) (S D : Node) (b : Int) (s₀ s₁ : Net Node) : Prop where
  older : ∀ n, ∀ e ∈ (s₀.nodes n).table, e.destip = T.ip S → e.broadcastId < b
  request : ∃ sparams env, sparams.destip = T.ip D ∧ sparams.routeDiscFlag = 1 ∧
    env.Succeeds ∧ T.step s₀ (.request S sparams env) = some s₁
  id_eq : b = (s₀.nodes S).counter.value + 1

section Launch

variable {S D n : Node} {b : Int} {m : AppMsg} {s₀ s₁ : Net Node} {p : Packet Node}

/-- What the request does: it drops the route to `D` and floods, and the message waits. -/
theorem ForcedLaunch.call (h : ForcedLaunch T S D b s₀ s₁) (hacc : Accepts T S D m s₀ s₁) :
    S ≠ D ∧ ∃ (sparams : SendParams) (portno freshId : Int), sparams.destip = T.ip D ∧
      s₁.flight = (sendReqBroadcast (T.cfg S).hwa (-1) b portno sparams.destport 0 1 (T.ip D)
        (T.ip S) sparams.msg false).flatMap (T.copies S []) ∧
      (∀ n ip, ip ≠ T.ip D → route (s₁.nodes n).table ip = route (s₀.nodes n).table ip) ∧
      route (s₁.nodes S).table (T.ip D) = none ∧
      (s₁.nodes S).pending = [queuedMsg (T.cfg S) sparams portno freshId] ∧
      ∀ n, n ≠ S → s₁.nodes n = s₀.nodes n := by
  obtain ⟨sparams, env, hdest, hflag, henv, hs⟩ := h.request
  have haccepted := hacc.accepted
  obtain ⟨h₀, ht₀, _⟩ := hacc.reached
  obtain ⟨_, _, _, ha, rfl⟩ | ⟨_, _, _, ha, _⟩ := step_cases hs
  swap
  · simp at ha
  obtain ⟨rfl, rfl, rfl⟩ := Action.request.inj ha
  have hnone : (peerLookup (T.cfg S) env sparams (s₀.nodes S).table).entry = none := by
    cases hentry : (peerLookup (T.cfg S) env sparams (s₀.nodes S).table).entry with
    | none => rfl
    | some e => exact absurd hflag (getREntry_fresh hentry).2
  cases handlePeerMsg_call (T.cfg S) env sparams (s₀.nodes S) with
  | idle _ _ hidle =>
      simp only [Topology.takeRequest, hidle] at haccepted
      simp at haccepted
  | direct _ e _ hentry => simp [hnone] at hentry
  | flooded portno hself _ hsent _ htable hqueue =>
      rcases hqueue with ⟨hfails, _⟩ | ⟨_, hpending, _⟩
      · exact absurd henv.toLinksUp hfails
      refine ⟨?_, sparams, portno, (s₀.nodes S).counter.value + 2, hdest, ?_, fun n ip hip => ?_,
        ?_, ?_, fun n hn => takeRequest_nodes_of_ne _ _ _ _ hn⟩
      · rintro rfl
        exact hself hdest.symm
      · rw [sendRawFrames_of_linksUp henv.toLinksUp, hdest, hflag, ← h.id_eq] at hsent
        simp only [Topology.takeRequest, hsent, hacc.quiet.flight, List.nil_append]
        rfl
      · by_cases hn : n = S
        · rw [hn, takeRequest_nodes_self, htable]
          exact route_getREntry_of_ne (by rw [hdest]; exact hip.symm)
        · rw [takeRequest_nodes_of_ne _ _ _ _ hn]
      · rw [takeRequest_nodes_self, htable, ← hdest]
        exact UniqueRoutes.route_none (uniqueRoutes_of_trace ht₀ S) hnone
      · rw [takeRequest_nodes_self, hpending, hacc.quiet.pending S]

/-- The copies of the request in flight. -/
theorem ForcedLaunch.copy (h : ForcedLaunch T S D b s₀ s₁) (hacc : Accepts T S D m s₀ s₁)
    (hp : p ∈ s₁.flight) : ForcedCopy T S D b s₁ p ∧ p.host.hopCount = 0 ∧ p.trail = [] ∧
      ∀ x ∈ T.peers p.dst p.ifIndex, Awaits T S b s₁ x.1 := by
  obtain ⟨_, sparams, portno, _, _, hflight, _⟩ := h.call hacc
  have hin {t : Transmission} {q : Packet Node} (ht : t ∈ sendReqBroadcast (T.cfg S).hwa (-1) b
      portno sparams.destport 0 1 (T.ip D) (T.ip S) sparams.msg false)
      (hq : q ∈ T.copies S [] t) : q ∈ s₁.flight := by
    rw [hflight]
    exact List.mem_flatMap.mpr ⟨t, ht, hq⟩
  rw [hflight] at hp
  obtain ⟨t, ht, hpt⟩ := List.mem_flatMap.mp hp
  obtain ⟨hflood, hhost⟩ := mem_sendReqBroadcast ht
  have hhost' := host_of_mem_copies hpt
  rw [hhost] at hhost'
  refine ⟨⟨?_, ?_, ?_, ?_, ?_, S, sender_of_mem_copies (haddr_of_flooded hflood) hpt,
    hflood.floodLink hpt, .inl rfl, ?_⟩, ?_, (mem_copies hpt).2.2.2.1, fun x hx => ?_⟩
  iterate 5
    · rw [hhost']
      rfl
  · rw [hhost']
    simp [rank, floodFrame]
  · rw [hhost']
    rfl
  · by_cases hself : x = (S, t.intIndex)
    · exact .inl (.inl (by rw [hself]))
    · obtain ⟨hpeers, _⟩ := mem_copies hpt
      obtain ⟨p', hp', hdst, _⟩ : ∃ p' ∈ T.copies S [] t, p'.dst = x.1 ∧ p'.ifIndex = x.2 :=
        exists_mem_copies_of_broadcast hflood.dest (peers_trans (peers_symm hpeers) hx hself)
      refine .inr ⟨p', hin ht hp', hdst, ?_⟩
      rw [host_of_mem_copies hp', hhost]
      rfl

theorem ForcedLaunch.not_marked (h : ForcedLaunch T S D b s₀ s₁) (hacc : Accepts T S D m s₀ s₁)
    (n : Node) : ¬ Marked T S b s₁ n := by
  obtain ⟨hne, _, _, _, _, _, hroutes, _⟩ := h.call hacc
  have hsrc : T.ip S ≠ T.ip D := fun h => hne (T.selfIp_inj S D h)
  rintro ⟨e, he, hid⟩
  rw [hroutes n _ hsrc] at he
  obtain ⟨hmem, hkey⟩ := route_mem he
  have hlt := h.older n e hmem hkey
  omega

theorem ForcedLaunch.forced (h : ForcedLaunch T S D b s₀ s₁) (hacc : Accepts T S D m s₀ s₁) :
    Forced T S D b s₁ := by
  obtain ⟨hne, sparams, portno, freshId, hdest, _, hroutes, hgone, hqueue, hothers⟩ := h.call hacc
  have hsrc : T.ip S ≠ T.ip D := fun h => hne (T.selfIp_inj S D h)
  have hjoined {n : Node} (hn : Joined T S b s₁ n) : n = S :=
    hn.resolve_right (h.not_marked hacc n)
  refine ⟨hne, ?_, fun n e he => ?_, fun n e hn he hid => absurd ⟨e, he, hid⟩ (h.not_marked hacc n),
    fun n e hn hj he => ?_, fun p hp => .flood (h.copy hacc hp).1, fun n q hq => ?_, ?_,
    fun _ => ⟨fun p hp => (h.copy hacc hp).1.isFlood, fun n hn hj => ?_⟩⟩
  · have hten := (s₀.nodes S).counter.ten_le
    have hid := h.id_eq
    omega
  · rw [hroutes n _ hsrc] at he
    obtain ⟨hmem, hkey⟩ := route_mem he
    exact (h.older n e hmem hkey).le
  · rw [hjoined hj, hgone] at he
    simp at he
  · by_cases hn : n = S
    · rw [hn, hqueue] at hq
      obtain rfl := List.mem_singleton.mp hq
      exact ⟨hn, rfl, ⟨rfl, hdest, rfl⟩, rfl⟩
    · rw [hothers n hn, hacc.quiet.pending n] at hq
      simp at hq
  · have hzero : s₁.flight.countP isReply = 0 := by
      refine List.countP_eq_zero.mpr fun p hp hreply => ?_
      have hflood := (h.copy hacc hp).1.isFlood
      simp [isFlood_of_isReply hreply] at hflood
    omega
  · rw [hjoined hj, hgone]

theorem ForcedLaunch.spread (h : ForcedLaunch T S D b s₀ s₁) (hacc : Accepts T S D m s₀ s₁) :
    ForcedSpread T S D b s₁ where
  segment := fun p hp _ => (h.copy hacc hp).2.2.2
  origin := by
    rintro w ⟨r, hr, hfloods, j, hj⟩
    obtain ⟨_, sparams, portno, _, _, hflight, _⟩ := h.call hacc
    obtain ⟨t, ht, hindex⟩ := exists_mem_sendReqBroadcast hr hfloods b portno sparams.destport 0 1
      (T.ip D) (T.ip S) sparams.msg false
    obtain ⟨p, hp, hdst, _⟩ : ∃ p ∈ T.copies S [] t, p.dst = w ∧ p.ifIndex = j :=
      exists_mem_copies_of_broadcast (mem_sendReqBroadcast ht).1.dest (hindex ▸ hj)
    have hmem : p ∈ s₁.flight := by
      rw [hflight]
      exact List.mem_flatMap.mpr ⟨t, ht, hp⟩
    exact .inr ⟨p, hmem, hdst, (h.copy hacc hmem).1.isFlood⟩
  relays := fun n _ _ hmarked => absurd hmarked (h.not_marked hacc n)

end Launch

/-! ## Runs -/

/-- Everything that is known along the run. -/
structure ForcedCourse [Fintype Node] (T : Topology Node) (S D : Node) (b : Int) (m : AppMsg)
    (s₀ s : Net Node) : Prop where
  forced : Forced T S D b s
  spread : ForcedSpread T S D b s
  replying : Replying T S D b s
  underway : Underway T S m s₀ s
  counted : HopsCounted s
  trails : TrailsBehind (T.ip S) s
  depth : ∀ n, Joined T S b s n → rank T S s n ≤ Fintype.card Node + 1

section Runs

variable {S D : Node} {b : Int} {m : AppMsg} {s₀ s₁ s s' : Net Node} {a : Action Node}
  {h : List (Net Node × Action Node)} [Fintype Node]

theorem ForcedCourse.depth_step (hc : ForcedCourse T S D b m s₀ s) (hprompt : Prompt T s a)
    (hs : T.step s a = some s') {n : Node} (hn : Joined T S b s' n) :
    rank T S s' n ≤ Fintype.card Node + 1 := by
  rcases hc.forced.joined_cases hprompt hs hn with hbefore | ⟨env, p, type, hr, rfl, hp⟩
  · rw [hc.forced.rank_step hprompt hs hbefore]
    exact hc.depth n hbefore
  · have hhop := hopsBounded_of_trails hc.counted hc.trails p hr.mem
      (floodOf_iff.mpr ⟨hp.isFlood, hp.src_eq⟩)
    have hrank := (hp.rank_dst hr).1
    omega

theorem forcedCourse_step (hc : ForcedCourse T S D b m s₀ s) (hprompt : Prompt T s a)
    (hs : T.step s a = some s') : ForcedCourse T S D b m s₀ s' where
  forced := forced_step hc.forced hc.underway hprompt hs
  spread := forcedSpread_step hc.spread hc.forced hc.underway hprompt hs
  replying := replying_step hc.replying hc.forced hc.underway hprompt hs
  underway := underway_step hc.underway ⟨hprompt.delivers, hprompt.succeeds⟩ hs
  counted := hopsCounted_step hc.counted hs
  trails := trailsBehind_step hc.trails (hc.forced.keeps_source hprompt) hs
  depth := fun _ hn => hc.depth_step hprompt hs hn

theorem ForcedLaunch.course (hlaunch : ForcedLaunch T S D b s₀ s₁)
    (hacc : Accepts T S D m s₀ s₁) : ForcedCourse T S D b m s₀ s₁ where
  forced := hlaunch.forced hacc
  spread := hlaunch.spread hacc
  replying := by
    obtain ⟨_, _, _, _, _, _, _, _, hqueue, _⟩ := hlaunch.call hacc
    exact ⟨by simp [hqueue], fun hD => absurd hD (hlaunch.not_marked hacc D)⟩
  underway := hacc.underway
  counted := by
    intro p hp _
    obtain ⟨_, hhop, htrail, _⟩ := hlaunch.copy hacc hp
    rw [hhop, htrail]
    rfl
  trails := by
    intro p hp _
    simp [(hlaunch.copy hacc hp).2.2.1]
  depth := by
    intro n hn
    rw [hn.resolve_right (hlaunch.not_marked hacc n)]
    simp [rank]

theorem ForcedLaunch.course_of_trace (hlaunch : ForcedLaunch T S D b s₀ s₁)
    (hacc : Accepts T S D m s₀ s₁) (ht : Trace T.step s₁ h s)
    (hprompt : ∀ x ∈ h, Prompt T x.1 x.2) : ForcedCourse T S D b m s₀ s :=
  ht.invariant_of_guard (G := Prompt T) (I := ForcedCourse T S D b m s₀) (hlaunch.course hacc)
    (fun _ _ _ hI hG hs => forcedCourse_step hI hG hs) hprompt

/-- Every delivery is paid for. -/
theorem ForcedCourse.left_step (hc : ForcedCourse T S D b m s₀ s) (hprompt : Prompt T s a)
    (hs : T.step s a = some s') : 1 + forcedLeft T S D b s' ≤ forcedLeft T S D b s := by
  have hc' := forcedCourse_step hc hprompt hs
  obtain ⟨k, env, p, rest, new, ha, hk, hx, _⟩ := hc.forced.exchange hc.underway hprompt hs
  have hfloods := hc.forced.flood_step hc.underway hprompt hs ha hk hx
  have honward := hc.forced.onward_step hc'.forced hc.underway hprompt hs hx
    (List.mem_of_getElem? hk) (fun hD => hc.depth D (.inr hD)) fun hD => hc'.depth D (.inr hD)
  unfold forcedLeft
  cases hflood : isFlood p.host with
  | true =>
      rw [hflood, if_pos rfl] at hfloods honward
      omega
  | false =>
      rw [hflood, if_neg Bool.false_ne_true] at hfloods honward
      omega

/-- When nothing is in flight any more, the message has left the queue. -/
theorem ForcedCourse.quiet (hc : ForcedCourse T S D b m s₀ s)
    (hconnected : ∃ k, Walk (FloodLink T) S D k) (hdone : s.flight = []) : Quiet s := by
  obtain ⟨k, hwalk⟩ := hconnected
  obtain ⟨l, _, havoid⟩ := hwalk.exists_avoiding_end
  have hjoined := hc.spread.joined_of_walk (by simp [hdone]) havoid
  have hD := hjoined.resolve_left hc.forced.ends_ne.symm
  refine ⟨hdone, fun n => ?_⟩
  by_cases hn : n = S
  · rw [hn]
    exact (hc.replying.answered hD).resolve_left (by simp [hdone])
  · exact List.eq_nil_iff_forall_not_mem.mpr fun q hq => hn (hc.forced.pending n q hq).1

/-- What a forced discovery costs at most. -/
def forcedBound (T : Topology Node) : ℕ := (maxFanout T + 2) * (Fintype.card Node + 1)

theorem ForcedLaunch.left_le (hlaunch : ForcedLaunch T S D b s₀ s₁)
    (hacc : Accepts T S D m s₀ s₁) : forcedLeft T S D b s₁ ≤ forcedBound T := by
  have hfloods : s₁.flight.countP (fun p => isFlood p.host) ≤ maxFanout T := by
    obtain ⟨sparams, env, _, _, _, hs⟩ := hlaunch.request
    obtain ⟨_, _, _, ha, rfl⟩ | ⟨_, _, _, ha, _⟩ := step_cases hs
    · simp only [Topology.takeRequest, hacc.quiet.flight, List.nil_append]
      exact countP_flood_le (handlePeerMsg_call _ _ _ _).floodIndices fun _ => []
    · simp at ha
  have hunmarked : unmarked T S b s₁ ≤ Fintype.card Node := Finset.card_le_univ _
  have hmul := Nat.mul_le_mul_left (maxFanout T) hunmarked
  have honward : weigh (onwardWeight T S D s₁) s₁.flight = 0 :=
    weigh_eq_zero fun p hp => onwardWeight_flood (hlaunch.copy hacc hp).1.isFlood
  rw [forcedLeft, honward, if_neg (hlaunch.not_marked hacc D), forcedBound]
  calc s₁.flight.countP (fun p => isFlood p.host) + maxFanout T * unmarked T S b s₁ + 0 +
        2 * (Fintype.card Node + 1)
      ≤ maxFanout T + maxFanout T * Fintype.card Node + 2 * (Fintype.card Node + 1) := by omega
    _ = (maxFanout T + 2) * (Fintype.card Node + 1) := by
        rw [Nat.add_mul, Nat.mul_add (maxFanout T), Nat.mul_one]
        omega

end Runs

/-- A forced discovery comes to an end in a number of deliveries linear in the size of the
network, whatever the tables hold about `D`.  No request is answered from a table, every
frame in flight can be delivered, and when none is left the message has come to its end at
`D`, once. -/
theorem forced_discovery_completes [Fintype Node] {S D : Node} {b : Int} {m : AppMsg}
    {s₀ s₁ s : Net Node} {h : List (Net Node × Action Node)}
    (hlaunch : ForcedLaunch T S D b s₀ s₁) (hacc : Accepts T S D m s₀ s₁)
    (hconnected : ∃ k, Walk (FloodLink T) S D k) (ht : Trace T.step s₁ h s)
    (hprompt : ∀ x ∈ h, Prompt T x.1 x.2) :
    h.length ≤ forcedBound T ∧
      (∀ x ∈ h, cachedAnswerAt T x.1 x.2 = none) ∧
      (∀ k < s.flight.length, ∀ env, (T.step s (.deliver k env)).isSome = true) ∧
      (s.flight = [] → Arrived D m s₀ s) := by
  have hc := hlaunch.course_of_trace hacc ht hprompt
  refine ⟨?_, fun x hx => ?_, fun k hk env => hc.underway.enabled hk env, fun hdone =>
    hc.underway.arrived hacc hc.forced.ends_ne.symm (hc.quiet hconnected hdone)⟩
  swap
  · obtain ⟨h₀, h₁, _, rfl, ht₀, _, _⟩ := ht.of_mem_history hx
    have hc₀ := hlaunch.course_of_trace hacc ht₀ fun y hy => hprompt y (by simp [hy])
    exact hc₀.forced.cachedAnswerAt_eq x.2
  have hcharge := ht.charge (Φ := forcedLeft T S D b) (c := fun _ _ => 1) (g := fun _ _ => 0)
    (G := Prompt T) (fun h s a s' ht hG hlast hs =>
      (hlaunch.course_of_trace hacc ht hG).left_step hlast hs) hprompt
  have hcost : total (fun _ _ => 1) h = h.length := by simp [total, weigh]
  have hgain : total (fun _ _ => 0) h = 0 := by simp [total, weigh]
  have hstart := hlaunch.left_le hacc
  omega

/-- The line when the discovery is over. -/
def lineSettled : Net (Fin 3) :=
  ((Lib.exec lineNet.step [] (Net.initial (Fin 3)) lineComplete).map Prod.snd).getD
    (Net.initial (Fin 3))

/-- The first node of the line has just asked for the last once more, with the flag. -/
def lineForced : Net (Fin 3) :=
  lineNet.takeRequest lineSettled 0 { messageFor "10.0.0.3" with routeDiscFlag := 1 } (.reliable 4)

theorem lineForced_accepts : Accepts lineNet 0 2
    ((messageFor "10.0.0.3").message "10.0.0.1" 909) lineSettled lineForced where
  reached := by
    obtain ⟨r, hr⟩ := Option.isSome_iff_exists.mp
      (by decide +kernel : (exec lineNet.step [] (Net.initial (Fin 3)) lineComplete).isSome = true)
    have hsettled : lineSettled = r.2 := by simp [lineSettled, hr]
    refine ⟨r.1, hsettled ▸ Trace.of_exec hr, fun x hx => ?_⟩
    have hmem := List.mem_map_of_mem (f := Prod.snd) hx
    rw [Trace.map_snd_of_exec hr, List.map_nil, List.append_nil, List.mem_reverse] at hmem
    have hall : ∀ a ∈ lineComplete, a.env.Succeeds := by
      simp [lineComplete, lineDiscovery, Action.env, Env.reliable_succeeds]
    exact hall _ hmem
  quiet := ⟨List.isEmpty_iff.mp (by decide +kernel), fun n => List.isEmpty_iff.mp (by
    revert n
    decide +kernel)⟩
  alive := by decide +kernel
  request := ⟨{ messageFor "10.0.0.3" with routeDiscFlag := 1 }, .reliable 4,
    Env.reliable_succeeds 4, rfl⟩
  accepted := by decide +kernel
  dest := rfl

theorem lineForced_launch : ForcedLaunch lineNet 0 2 13 lineSettled lineForced where
  older := by decide +kernel
  request := ⟨{ messageFor "10.0.0.3" with routeDiscFlag := 1 }, .reliable 4, rfl, rfl,
    Env.reliable_succeeds 4, rfl⟩
  id_eq := by decide +kernel

/-- The middle node has a route to the last one before the request, and forgets it. -/
theorem lineForced_completes : (route (lineSettled.nodes 1).table "10.0.0.3").isSome = true ∧
    ∃ h s, Trace lineNet.step lineForced h s ∧ h.length = 6 ∧ h.length ≤ forcedBound lineNet ∧
      (∀ x ∈ h, cachedAnswerAt lineNet x.1 x.2 = none) ∧
      Arrived 2 ((messageFor "10.0.0.3").message "10.0.0.1" 909) lineSettled s := by
  obtain ⟨h, s, ht, hp, henv⟩ := Trace.exists_of_exec_forall lineNet.step lineForced
    (List.replicate 6 (.deliver 0 (.reliable 4)))
    (fun h s => h.all (keepsUnflagged lineNet) && (s.flight.isEmpty && decide (h.length = 6)))
    (P := fun a => a.env.Succeeds) (by simp [Action.env, Env.reliable_succeeds])
    (by decide +kernel)
  obtain ⟨hkeeps, hrest⟩ := Bool.and_eq_true _ _ ▸ hp
  obtain ⟨hdone, hlen⟩ := Bool.and_eq_true _ _ ▸ hrest
  have hwalk : Walk (FloodLink lineNet) 0 2 2 :=
    .tail (.tail .refl (by decide : FloodLink lineNet 0 1)) (by decide : FloodLink lineNet 1 2)
  obtain ⟨hbound, hown, _, harrived⟩ := forced_discovery_completes lineForced_launch
    lineForced_accepts ⟨2, hwalk⟩ ht (prompt_of_keepsUnflagged henv hkeeps)
  exact ⟨by decide +kernel, h, s, ht, of_decide_eq_true hlen, hbound, hown,
    harrived (List.isEmpty_iff.mp hdone)⟩

end OnDemandRouting.Proofs
