import OnDemandRouting.Proofs.Completion
import OnDemandRouting.Proofs.Rediscovery

/-!
# A forced discovery

`S` sends a request with the discovery flag, and the tables may hold anything about
`D`, right or wrong, fresh or not.  The flag does two things.  A node that takes the
request in forgets its route to `D`, so nobody but `D` answers, and it drops every
later copy, so the route to `S` it has learned stays as it is.  The nodes that have
taken the request in form a tree with root `S`.  The one reply climbs it from `D` to
`S`, and the routes to `D` it leaves behind are the only ones the message can meet.
-/

namespace OnDemandRouting.Proofs

open OnDemandRouting.Lib
open OnDemandRouting.Model

variable {Node : Type} {T : Topology Node}

/-- A delivery in which nothing fails.  A lookup may unlink the destination's entry on
account of the flag, but none is unlinked because it is stale. -/
structure Prompt (T : Topology Node) (s : Net Node) (a : Action Node) : Prop where
  delivers : ∃ k env, a = .deliver k env
  succeeds : a.env.Succeeds
  keeps : ∀ n ip, Deletes T s a n ip → ∃ k env p, a = .deliver k env ∧ s.flight[k]? = some p ∧
    p.host.routeDiscFlag = 1 ∧ ip = p.host.destIp

/-- A route to `D` is deleted only by a copy of the request. -/
theorem Receipt.keeps_dest {s s' : Net Node} {a : Action Node} {env : Env} {p : Packet Node}
    {type : FrameType} (hr : Receipt T s s' a env p type) (hprompt : Prompt T s a)
    (hflag : p.host.routeDiscFlag = 0) (ip : Ip) : ¬ Deletes T s a p.dst ip := by
  intro hdel
  obtain ⟨k, rfl, hk⟩ := hr.action
  obtain ⟨k', env', p', ha, hk', hflag', _⟩ := hprompt.keeps _ _ hdel
  obtain ⟨rfl, rfl⟩ := Action.deliver.inj ha
  obtain rfl : p = p' := Option.some.inj (hk.symm.trans hk')
  simp [hflag] at hflag'

theorem Prompt.env_linksUp {s s' : Net Node} {a : Action Node} {env : Env} {p : Packet Node}
    {type : FrameType} (hprompt : Prompt T s a) (hr : Receipt T s s' a env p type) :
    env.LinksUp := by
  obtain ⟨i, rfl, _⟩ := hr.action
  exact hprompt.succeeds.toLinksUp

variable [DecidableEq Node]

/-- `n` has taken in the request with id `b`. -/
def Marked (T : Topology Node) (S : Node) (b : Int) (s : Net Node) (n : Node) : Prop :=
  ∃ e, route (s.nodes n).table (T.ip S) = some e ∧ e.broadcastId = b

instance (S : Node) (b : Int) (s : Net Node) (n : Node) : Decidable (Marked T S b s n) :=
  decidable_of_iff ((route (s.nodes n).table (T.ip S)).any fun e => decide (e.broadcastId = b))
    (by simp [Marked, Option.any_eq_true])

/-- `n` is in the tree. -/
def Joined (T : Topology Node) (S : Node) (b : Int) (s : Net Node) (n : Node) : Prop :=
  n = S ∨ Marked T S b s n

/-- The hops of the route to `D`; 0 at `D` itself. -/
def toGo (T : Topology Node) (D : Node) (s : Net Node) (n : Node) : ℕ :=
  if n = D then 0 else ((route (s.nodes n).table (T.ip D)).map fun e => e.noHops.toNat).getD 0

/-- The reply has passed `n`, or started there. -/
structure Passed (T : Topology Node) (S D : Node) (b : Int) (s : Net Node) (n : Node) :
    Prop where
  ne : n ≠ S
  marked : Marked T S b s n
  knows : n = D ∨ (route (s.nodes n).table (T.ip D)).isSome = true

/-- A copy of the request. -/
structure ForcedCopy (T : Topology Node) (S D : Node) (b : Int) (s : Net Node)
    (p : Packet Node) : Prop where
  type : FrameType.ofInt p.host.frameType = some .rreq
  src_eq : p.host.srcIp = T.ip S
  dst_eq : p.host.destIp = T.ip D
  flag_eq : p.host.routeDiscFlag = 1
  id_eq : p.host.broadcastId = b
  sender : ∃ m, Sender T p m ∧ FloodLink T m p.dst ∧ Joined T S b s m ∧
    (rank T S s m : Int) ≤ p.host.hopCount

/-- The reply.  Every node of the tree that knows `D` is further from `S` than the node
the reply goes to. -/
structure Answer (T : Topology Node) (S D : Node) (b : Int) (s : Net Node)
    (p : Packet Node) : Prop where
  type : FrameType.ofInt p.host.frameType = some .rrep
  ends : Between p.host (T.ip D) (T.ip S)
  receiver : Joined T S b s p.dst
  sender : ∃ m, Sender T p m ∧ Passed T S D b s m ∧ (toGo T D s m : Int) ≤ p.host.hopCount
  ahead : ∀ n, n ≠ D → Joined T S b s n → (route (s.nodes n).table (T.ip D)).isSome = true →
    rank T S s p.dst < rank T S s n
  budget : p.host.hopCount + rank T S s p.dst + 1 ≤ rank T S s D

/-- What can be in flight. -/
inductive ForcedFrame (T : Topology Node) (S D : Node) (b : Int) (s : Net Node)
    (p : Packet Node) : Prop
  | flood (h : ForcedCopy T S D b s p)
  | reply (h : Answer T S D b s p)
  | message (hmsg : IsMessage T S D p.host) (hdst : Passed T S D b s p.dst)

/-- A state of the forced discovery. -/
structure Forced (T : Topology Node) (S D : Node) (b : Int) (s : Net Node) : Prop where
  ends_ne : S ≠ D
  id_pos : 0 < b
  ids : ∀ n e, route (s.nodes n).table (T.ip S) = some e → e.broadcastId ≤ b
  toSource : ∀ n e, n ≠ S → route (s.nodes n).table (T.ip S) = some e → e.broadcastId = b →
    ∃ w, NextHop T n e w ∧ Joined T S b s w ∧ (rank T S s w : Int) + 1 ≤ e.noHops
  toDest : ∀ n e, n ≠ D → Joined T S b s n → route (s.nodes n).table (T.ip D) = some e →
    ∃ w, NextHop T n e w ∧ Passed T S D b s w ∧ (toGo T D s w : Int) + 1 ≤ e.noHops
  flight : ∀ p ∈ s.flight, ForcedFrame T S D b s p
  pending : ∀ n, ∀ q ∈ (s.nodes n).pending, n = S ∧ IsMessage T S D q.odrframe
  single : s.flight.countP isReply ≤ 1
  silent : ¬ Marked T S b s D → (∀ p ∈ s.flight, isFlood p.host = true) ∧
    ∀ n, n ≠ D → Joined T S b s n → route (s.nodes n).table (T.ip D) = none

/-! ## What is delivered -/

section Delivery

variable {S D n : Node} {b : Int} {s s' : Net Node} {a : Action Node} {env : Env}
  {p : Packet Node} {type : FrameType} {m : AppMsg} {s₀ : Net Node} {k : Nat}

theorem Underway.uniqueRoutes (hu : Underway T S m s₀ s) (n : Node) :
    UniqueRoutes (s.nodes n).table := by
  obtain ⟨_, ht, _⟩ := hu.reached
  exact uniqueRoutes_of_trace ht n

theorem Forced.ip_ne (hf : Forced T S D b s) : T.ip S ≠ T.ip D :=
  fun h => hf.ends_ne (T.selfIp_inj S D h)

theorem ForcedCopy.isFlood (h : ForcedCopy T S D b s p) : isFlood p.host = true :=
  (isFlood_iff h.type).mpr (.inl rfl)

theorem Forced.copy_of_isFlood (hf : Forced T S D b s) (hp : p ∈ s.flight)
    (hflood : isFlood p.host = true) : ForcedCopy T S D b s p := by
  cases hf.flight p hp with
  | flood h => exact h
  | reply h => simp [isFlood_iff h.type] at hflood
  | message hmsg => simp [isFlood_iff hmsg.type] at hflood

theorem Forced.copy_of_flag (hf : Forced T S D b s) (hp : p ∈ s.flight)
    (hflag : p.host.routeDiscFlag = 1) : ForcedCopy T S D b s p := by
  cases hf.flight p hp with
  | flood h => exact h
  | reply h => simp [h.ends.flag_eq] at hflag
  | message hmsg => simp [hmsg.ends.flag_eq] at hflag

theorem Forced.reply_of_type (hf : Forced T S D b s) (hp : p ∈ s.flight)
    (hreply : isReply p = true) : Answer T S D b s p := by
  have htype := of_decide_eq_true hreply
  cases hf.flight p hp with
  | flood h => simp [h.type] at htype
  | reply h => exact h
  | message hmsg => simp [hmsg.type] at htype

/-- The routes to `S` are never deleted. -/
theorem Forced.keeps_source (hf : Forced T S D b s) (hprompt : Prompt T s a) (n : Node) :
    ¬ Deletes T s a n (T.ip S) := by
  intro hdel
  obtain ⟨k, env, p, _, hk, hflag, hip⟩ := hprompt.keeps n _ hdel
  exact hf.ip_ne (hip.trans (hf.copy_of_flag (List.mem_of_getElem? hk) hflag).dst_eq)

/-- A copy of the request that gets past the filter is newer than the route to `S`. -/
theorem ForcedCopy.newer (hp : ForcedCopy T S D b s p) (hr : Receipt T s s' a env p type) :
    ∀ e ∈ (s.nodes p.dst).table, e.destip = p.host.srcIp → e.broadcastId < p.host.broadcastId := by
  intro e he hkey
  by_contra hle
  have hdup := duplicateFilter_eq_true_iff.mpr ⟨hp.flag_eq, e, he, hkey, not_lt.mp hle⟩
  rw [hr.processed.passes] at hdup
  simp at hdup

theorem ForcedCopy.unmarked (hp : ForcedCopy T S D b s p) (hr : Receipt T s s' a env p type) :
    ¬ Marked T S b s p.dst := by
  rintro ⟨e, he, hid⟩
  obtain ⟨hmem, hkey⟩ := route_mem he
  have hlt := hp.newer hr e hmem (hkey.trans hp.src_eq.symm)
  rw [hp.id_eq, hid] at hlt
  exact lt_irrefl _ hlt

/-- The receiver learns the route to `S` from the copy. -/
theorem ForcedCopy.learned (hp : ForcedCopy T S D b s p) (hr : Receipt T s s' a env p type) :
    (learnedAt T s env p).flag = true ∧ (learnedAt T s env p).entry =
      updateREntry p.host p.ifIndex p.srcMac env.updateTime :=
  learnedRoute_of_newer (hp.newer hr)

theorem ForcedCopy.route_source (hp : ForcedCopy T S D b s p)
    (hr : Receipt T s s' a env p type) : route (s'.nodes p.dst).table (T.ip S) =
      some (updateREntry p.host p.ifIndex p.srcMac env.updateTime) := by
  rw [← hp.src_eq, hr.route_src, (hp.learned hr).2]

theorem ForcedCopy.marked (hp : ForcedCopy T S D b s p) (hr : Receipt T s s' a env p type) :
    Marked T S b s' p.dst := ⟨_, hp.route_source hr, hp.id_eq⟩

/-- It has no route to `D` to answer from. -/
theorem ForcedCopy.destAt_eq (hp : ForcedCopy T S D b s p) (hne : T.ip S ≠ T.ip D) (env : Env) :
    destAt T s env p = none := by
  have hends : p.host.srcIp ≠ p.host.destIp := by
    rw [hp.src_eq, hp.dst_eq]
    exact hne
  rw [destAt, derefDest_of_ne hends]
  exact destLookup_entry_of_flag hp.flag_eq

/-- So no request of the run is answered from a table. -/
theorem Forced.cachedAnswerAt_eq (hf : Forced T S D b s) (a : Action Node) :
    cachedAnswerAt T s a = none := by
  cases a with
  | request n sparams env => rfl
  | deliver k env =>
      cases hk : s.flight[k]? with
      | none => simp [cachedAnswerAt, hk]
      | some p =>
          simp only [cachedAnswerAt, hk, Option.bind_some]
          split_ifs with hrreq
          · have htype := hrreq.1.type_eq
            cases hf.flight p (List.mem_of_getElem? hk) with
            | flood hcopy => rw [hcopy.destAt_eq hf.ip_ne env, Option.map_none]
            | reply hreply => simp [hreply.type] at htype
            | message hmsg => simp [hmsg.type] at htype
          · rfl

/-- And none afterwards. -/
theorem ForcedCopy.forgets (hp : ForcedCopy T S D b s p) (hr : Receipt T s s' a env p type)
    (hne : T.ip S ≠ T.ip D) (hu : UniqueRoutes (s.nodes p.dst).table) :
    route (s'.nodes p.dst).table (T.ip D) = none := by
  have hends : p.host.srcIp ≠ p.host.destIp := by
    rw [hp.src_eq, hp.dst_eq]
    exact hne
  rw [hr.state.table, ← hp.dst_eq]
  exact (route_learnSource_of_ne (fun _ he => srcLookup_entry he) hends).trans
    (route_srcLookup_dest_of_flag hu hp.flag_eq)

/-- A delivery either runs the switch or drops a copy of the request that comes late. -/
theorem Forced.delivery (hf : Forced T S D b s) (hu : ∀ n, UniqueRoutes (s.nodes n).table)
    (hk : s.flight[k]? = some p) (henv : env.Succeeds)
    (hs : T.step s (.deliver k env) = some s') :
    (∃ type, Receipt T s s' (.deliver k env) env p type) ∨
      ForcedCopy T S D b s p ∧ Marked T S b s p.dst ∧ s'.nodes = s.nodes ∧
        s'.flight = s.flight.eraseIdx k := by
  obtain ⟨p', hk', rfl⟩ := step_deliver hs
  obtain rfl : p = p' := Option.some.inj (hk.symm.trans hk')
  rcases handleEthernetMsg_cases (T.cfg p.dst) env p.ifIndex p.srcMac p.frame (s.nodes p.dst) with
    ⟨hdup, heq⟩ | ⟨_, hfail, _⟩ | ⟨type, hproc, _⟩
  · right
    obtain ⟨hflag, e, he, hkey, hle⟩ := duplicateFilter_eq_true_iff.mp hdup
    have hcopy := hf.copy_of_flag (List.mem_of_getElem? hk) hflag
    have hroute : route (s.nodes p.dst).table (T.ip S) = some e := by
      rw [← hcopy.src_eq, Packet.host_eq, ← hkey]
      exact findKey_of_mem (hu p.dst) he
    refine ⟨hcopy, ⟨e, hroute, ?_⟩, ?_, ?_⟩
    · have hid := hf.ids p.dst e hroute
      have hcopyId := hcopy.id_eq
      rw [Packet.host_eq] at hcopyId
      omega
    · simp [Topology.deliverPacket, heq]
    · simp [Topology.deliverPacket, heq]
  · rcases hfail with hnames | htype
    · exact absurd ⟨henv.resolves _, henv.resolves _⟩ hnames
    · have hsome : (FrameType.ofInt p.host.frameType).isSome = true := by
        cases hf.flight p (List.mem_of_getElem? hk) with
        | flood h => rw [h.type]; rfl
        | reply h => rw [h.type]; rfl
        | message hmsg => rw [hmsg.type]; rfl
      rw [Packet.host_eq, htype] at hsome
      simp at hsome
  · exact .inl ⟨type, receipt_of_processed hk hproc⟩

end Delivery

/-! ## The routes after a step -/

section Routes

variable {S D n : Node} {b : Int} {s s' : Net Node} {a : Action Node} {env : Env} {e : REntry}
  {p : Packet Node} {type : FrameType} {m : AppMsg} {s₀ : Net Node}

/-- A route to `S` changes only where the request comes for the first time. -/
theorem Forced.source_step (hf : Forced T S D b s) (hprompt : Prompt T s a)
    (hs : T.step s a = some s') (n : Node) :
    route (s'.nodes n).table (T.ip S) = route (s.nodes n).table (T.ip S) ∨
      ∃ env p type, Receipt T s s' a env p type ∧ p.dst = n ∧ ForcedCopy T S D b s p := by
  rcases route_step hs (hf.keeps_source hprompt n) with
    hkeep | ⟨env, p, type, hr, rfl, hsrc, _, hacc⟩
  · exact .inl hkeep
  · refine .inr ⟨env, p, type, hr, rfl, ?_⟩
    cases hf.flight p hr.mem with
    | flood h => exact h
    | reply h => exact absurd (hsrc.symm.trans h.ends.src_eq) hf.ip_ne
    | message hmsg hdst =>
        -- the id 0 of the message is too old for a node of the tree
        obtain ⟨e, he, hid⟩ := hdst.marked
        have hacc' := acceptsUpdate_iff.mp (hacc e he)
        have hzero := hmsg.id_eq
        have hpos := hf.id_pos
        omega

theorem Forced.route_of_marked (hf : Forced T S D b s) (hprompt : Prompt T s a)
    (hs : T.step s a = some s') (h : Marked T S b s n) :
    route (s'.nodes n).table (T.ip S) = route (s.nodes n).table (T.ip S) := by
  rcases hf.source_step hprompt hs n with hkeep | ⟨_, _, _, hr, rfl, hcopy⟩
  · exact hkeep
  · exact absurd h (hcopy.unmarked hr)

theorem Forced.marked_step (hf : Forced T S D b s) (hprompt : Prompt T s a)
    (hs : T.step s a = some s') (h : Marked T S b s n) : Marked T S b s' n := by
  have hroute := hf.route_of_marked hprompt hs h
  obtain ⟨e, he, hid⟩ := h
  exact ⟨e, hroute.trans he, hid⟩

theorem Forced.joined_step (hf : Forced T S D b s) (hprompt : Prompt T s a)
    (hs : T.step s a = some s') (h : Joined T S b s n) : Joined T S b s' n :=
  h.imp_right (hf.marked_step hprompt hs)

/-- The tree keeps its shape. -/
theorem Forced.rank_step (hf : Forced T S D b s) (hprompt : Prompt T s a)
    (hs : T.step s a = some s') (h : Joined T S b s n) : rank T S s' n = rank T S s n := by
  rcases h with rfl | h
  · simp [rank]
  · rw [rank, rank, hf.route_of_marked hprompt hs h]

/-- A node enters the tree with a copy of the request. -/
theorem Forced.joined_cases (hf : Forced T S D b s) (hprompt : Prompt T s a)
    (hs : T.step s a = some s') (h : Joined T S b s' n) : Joined T S b s n ∨
      ∃ env p type, Receipt T s s' a env p type ∧ p.dst = n ∧ ForcedCopy T S D b s p := by
  rcases h with hn | ⟨e, he, hid⟩
  · exact .inl (.inl hn)
  · rcases hf.source_step hprompt hs n with hkeep | hnew
    · exact .inl (.inr ⟨e, hkeep ▸ he, hid⟩)
    · exact .inr hnew

/-- What a step does to the route to `D`. -/
theorem Forced.dest_step (hf : Forced T S D b s) (hu : Underway T S m s₀ s)
    (hprompt : Prompt T s a) (hs : T.step s a = some s') (n : Node) :
    route (s'.nodes n).table (T.ip D) = route (s.nodes n).table (T.ip D) ∨
      route (s'.nodes n).table (T.ip D) = none ∧ ¬ Marked T S b s n ∨
      ∃ env p type, Receipt T s s' a env p type ∧ p.dst = n ∧ Answer T S D b s p ∧
        route (s'.nodes n).table (T.ip D) =
          some (updateREntry p.host p.ifIndex p.srcMac env.updateTime) := by
  obtain ⟨k, env, rfl⟩ := hprompt.delivers
  obtain ⟨p, hk, _⟩ := step_deliver hs
  rcases hf.delivery hu.uniqueRoutes hk hprompt.succeeds hs with ⟨type, hr⟩ | ⟨_, _, hnodes, _⟩
  swap
  · exact .inl (by rw [hnodes])
  by_cases hn : n = p.dst
  swap
  · exact .inl (by rw [hr.others n hn])
  subst hn
  by_cases hflag : p.host.routeDiscFlag = 1
  · have hcopy := hf.copy_of_flag hr.mem hflag
    exact .inr (.inl ⟨hcopy.forgets hr hf.ip_ne (hu.uniqueRoutes _), hcopy.unmarked hr⟩)
  · have hzero : p.host.routeDiscFlag = 0 := by
      cases hf.flight p hr.mem with
      | flood h => exact absurd h.flag_eq hflag
      | reply h => exact h.ends.flag_eq
      | message hmsg => exact hmsg.ends.flag_eq
    rcases route_step hs (hr.keeps_dest hprompt hzero (T.ip D)) with
      hkeep | ⟨env', p', type', hr', hdst, hsrc, hnew, _⟩
    · exact .inl hkeep
    · refine .inr (.inr ⟨env', p', type', hr', hdst, ?_, hnew⟩)
      cases hf.flight p' hr'.mem with
      | flood h => exact absurd (h.src_eq.symm.trans hsrc) hf.ip_ne
      | reply h => exact h
      | message hmsg => exact absurd (hmsg.ends.src_eq.symm.trans hsrc) hf.ip_ne

/-- A node of the tree that the reply reaches does not know `D` yet. -/
theorem Answer.route_none (hp : Answer T S D b s p) :
    p.dst ≠ D ∧ route (s.nodes p.dst).table (T.ip D) = none := by
  obtain ⟨_, _, _, hhop⟩ := hp.sender
  have hbudget := hp.budget
  have hne : p.dst ≠ D := by
    intro h
    rw [h] at hbudget
    omega
  refine ⟨hne, ?_⟩
  cases hroute : route (s.nodes p.dst).table (T.ip D) with
  | none => rfl
  | some e =>
      have hlt := hp.ahead p.dst hne hp.receiver (by simp [hroute])
      exact absurd hlt (lt_irrefl _)

/-- What the reply has passed stays as it is. -/
theorem Forced.passed_route (hf : Forced T S D b s) (hu : Underway T S m s₀ s)
    (hprompt : Prompt T s a) (hs : T.step s a = some s') (h : Passed T S D b s n)
    (hn : n ≠ D) : route (s'.nodes n).table (T.ip D) = route (s.nodes n).table (T.ip D) := by
  rcases hf.dest_step hu hprompt hs n with hkeep | ⟨_, hnot⟩ | ⟨_, p, _, _, rfl, hp, _⟩
  · exact hkeep
  · exact absurd h.marked hnot
  · have hsome := h.knows.resolve_left hn
    simp [hp.route_none.2] at hsome

theorem Forced.passed_step (hf : Forced T S D b s) (hu : Underway T S m s₀ s)
    (hprompt : Prompt T s a) (hs : T.step s a = some s') (h : Passed T S D b s n) :
    Passed T S D b s' n ∧ toGo T D s' n = toGo T D s n := by
  have hmarked := hf.marked_step hprompt hs h.marked
  by_cases hn : n = D
  · exact ⟨⟨h.ne, hmarked, .inl hn⟩, by simp [toGo, hn]⟩
  · have hroute := hf.passed_route hu hprompt hs h hn
    refine ⟨⟨h.ne, hmarked, .inr ?_⟩, by rw [toGo, toGo, hroute]⟩
    rw [hroute]
    exact h.knows.resolve_left hn

theorem ForcedCopy.rank_dst (hp : ForcedCopy T S D b s p) (hr : Receipt T s s' a env p type) :
    (rank T S s' p.dst : Int) ≤ p.host.hopCount + 1 ∧
      (p.dst ≠ S → (rank T S s' p.dst : Int) = p.host.hopCount + 1) := by
  obtain ⟨_, _, _, _, hhop⟩ := hp.sender
  by_cases hdst : p.dst = S
  · have hzero : rank T S s' p.dst = 0 := by simp [rank, hdst]
    rw [hzero]
    exact ⟨by push_cast; omega, fun h => absurd hdst h⟩
  · have hrank : rank T S s' p.dst = (p.host.hopCount + 1).toNat := by
      rw [rank, if_neg hdst, hp.route_source hr]
      rfl
    rw [hrank]
    exact ⟨by omega, fun _ => by omega⟩

theorem Forced.ids_step (hf : Forced T S D b s) (hprompt : Prompt T s a)
    (hs : T.step s a = some s') (he : route (s'.nodes n).table (T.ip S) = some e) :
    e.broadcastId ≤ b := by
  rcases hf.source_step hprompt hs n with hkeep | ⟨env, p, type, hr, rfl, hcopy⟩
  · exact hf.ids n e (hkeep ▸ he)
  · obtain rfl := Option.some.inj ((hcopy.route_source hr).symm.trans he)
    exact hcopy.id_eq.le

theorem Forced.toSource_step (hf : Forced T S D b s) (hprompt : Prompt T s a)
    (hs : T.step s a = some s') (hn : n ≠ S)
    (he : route (s'.nodes n).table (T.ip S) = some e) (hid : e.broadcastId = b) :
    ∃ w, NextHop T n e w ∧ Joined T S b s' w ∧ (rank T S s' w : Int) + 1 ≤ e.noHops := by
  rcases hf.source_step hprompt hs n with hkeep | ⟨env, p, type, hr, rfl, hcopy⟩
  · obtain ⟨w, hnext, hw, hrank⟩ := hf.toSource n e hn (hkeep ▸ he) hid
    exact ⟨w, hnext, hf.joined_step hprompt hs hw, by rwa [hf.rank_step hprompt hs hw]⟩
  · obtain rfl := Option.some.inj ((hcopy.route_source hr).symm.trans he)
    obtain ⟨w, hsender, _, hw, hrank⟩ := hcopy.sender
    refine ⟨w, hsender.nextHop, hf.joined_step hprompt hs hw, ?_⟩
    rw [hf.rank_step hprompt hs hw, updateREntry_noHops]
    omega

theorem Forced.toDest_step (hf : Forced T S D b s) (hu : Underway T S m s₀ s)
    (hprompt : Prompt T s a) (hs : T.step s a = some s') (hn : n ≠ D)
    (hjoined : Joined T S b s' n) (he : route (s'.nodes n).table (T.ip D) = some e) :
    ∃ w, NextHop T n e w ∧ Passed T S D b s' w ∧ (toGo T D s' w : Int) + 1 ≤ e.noHops := by
  have hkept {w : Node} (hw : Passed T S D b s w) (hnext : NextHop T n e w)
      (hgo : (toGo T D s w : Int) + 1 ≤ e.noHops) :
      ∃ w, NextHop T n e w ∧ Passed T S D b s' w ∧ (toGo T D s' w : Int) + 1 ≤ e.noHops := by
    obtain ⟨hw', hsame⟩ := hf.passed_step hu hprompt hs hw
    exact ⟨w, hnext, hw', by rwa [hsame]⟩
  rcases hf.dest_step hu hprompt hs n with
    hkeep | ⟨hnone, _⟩ | ⟨env, p, type, hr, rfl, hp, hnew⟩
  · rcases hf.joined_cases hprompt hs hjoined with hbefore | ⟨_, p, _, hr, rfl, hcopy⟩
    · obtain ⟨w, hnext, hw, hgo⟩ := hf.toDest n e hn hbefore (hkeep ▸ he)
      exact hkept hw hnext hgo
    · simp [hcopy.forgets hr hf.ip_ne (hu.uniqueRoutes _)] at he
  · simp [hnone] at he
  · obtain rfl := Option.some.inj (hnew.symm.trans he)
    obtain ⟨w, hsender, hw, hgo⟩ := hp.sender
    exact hkept hw hsender.nextHop (by rw [updateREntry_noHops]; omega)

/-- A node other than `D` that knows `D` after the step knew it before, or got the reply. -/
theorem Forced.knows_cases (hf : Forced T S D b s) (hu : Underway T S m s₀ s)
    (hprompt : Prompt T s a) (hs : T.step s a = some s') (hjoined : Joined T S b s' n)
    (hknows : (route (s'.nodes n).table (T.ip D)).isSome = true) :
    (Joined T S b s n ∧ (route (s.nodes n).table (T.ip D)).isSome = true) ∨
      ∃ env p type, Receipt T s s' a env p type ∧ p.dst = n ∧ Answer T S D b s p := by
  rcases hf.dest_step hu hprompt hs n with hkeep | ⟨hnone, _⟩ | ⟨env, p, type, hr, hdst, hp, _⟩
  · rcases hf.joined_cases hprompt hs hjoined with hbefore | ⟨_, p, _, hr, rfl, hcopy⟩
    · exact .inl ⟨hbefore, hkeep ▸ hknows⟩
    · simp [hcopy.forgets hr hf.ip_ne (hu.uniqueRoutes _)] at hknows
  · simp [hnone] at hknows
  · exact .inr ⟨env, p, type, hr, hdst, hp⟩

end Routes

/-! ## The frames after a step -/

section Frames

variable {S D n : Node} {b : Int} {s s' : Net Node} {a : Action Node} {env : Env} {e : REntry}
  {p q : Packet Node} {type : FrameType} {m : AppMsg} {s₀ : Net Node} {t : Transmission}
  {trail : List (RelayEvent Node)} {rest new : List (Packet Node)}

/-- A relay of the reply has a route to `S` from the request. -/
theorem Forced.reply_route (hf : Forced T S D b s) (hprompt : Prompt T s a)
    (hr : Receipt T s s' a env p type) (hp : Answer T S D b s p)
    (hself : p.host.destIp ≠ T.ip p.dst) :
    ∃ e w, destAt T s env p = some e ∧ NextHop T p.dst e w ∧ Joined T S b s w ∧
      rank T S s w + 1 ≤ rank T S s p.dst := by
  have hdst : p.dst ≠ S := by
    rintro rfl
    exact hself hp.ends.dst_eq
  have hdest : destAt T s env p = route (s.nodes p.dst).table p.host.destIp := by
    refine hr.destAt_eq ?_ (hp.ends.dst_eq ▸ hf.keeps_source hprompt _)
    rw [hp.ends.src_eq, hp.ends.dst_eq]
    exact hf.ip_ne.symm
  rw [hp.ends.dst_eq] at hdest
  obtain ⟨e, he, hid⟩ := hp.receiver.resolve_left hdst
  obtain ⟨w, hnext, hw, hlt⟩ := hf.toSource p.dst e hdst he hid
  have hrank : rank T S s p.dst = e.noHops.toNat := by simp [rank, hdst, he]
  exact ⟨e, w, hdest.trans he, hnext, hw, by omega⟩

/-- A relay of the message has a route to `D` from the reply. -/
theorem Forced.message_route (hf : Forced T S D b s) (hprompt : Prompt T s a)
    (hr : Receipt T s s' a env p type) (hmsg : IsMessage T S D p.host)
    (hp : Passed T S D b s p.dst) (hself : p.host.destIp ≠ T.ip p.dst) :
    ∃ e w, destAt T s env p = some e ∧ NextHop T p.dst e w ∧ Passed T S D b s w ∧
      toGo T D s w + 1 ≤ toGo T D s p.dst := by
  have hdst : p.dst ≠ D := by
    rintro rfl
    exact hself hmsg.ends.dst_eq
  have hdest : destAt T s env p = route (s.nodes p.dst).table p.host.destIp := by
    refine hr.destAt_eq ?_ (hr.keeps_dest hprompt hmsg.ends.flag_eq _)
    rw [hmsg.ends.src_eq, hmsg.ends.dst_eq]
    exact hf.ip_ne
  rw [hmsg.ends.dst_eq] at hdest
  obtain ⟨e, he⟩ := Option.isSome_iff_exists.mp (hp.knows.resolve_left hdst)
  obtain ⟨w, hnext, hw, hlt⟩ := hf.toDest p.dst e hdst (.inr hp.marked) he
  have hgo : toGo T D s p.dst = e.noHops.toNat := by simp [toGo, hdst, he]
  exact ⟨e, w, hdest.trans he, hnext, hw, by omega⟩

/-- Neither is ever parked. -/
theorem Forced.not_parked (hf : Forced T S D b s) (hprompt : Prompt T s a)
    (hr : Receipt T s s' a env p type) (htype : type = .rrep ∨ type = .data)
    (hself : p.host.destIp ≠ T.ip p.dst) : destAt T s env p ≠ none := by
  intro hnone
  cases hf.flight p hr.mem with
  | flood hp =>
      have hrreq := Option.some.inj (hr.processed.type_eq.symm.trans hp.type)
      simp [hrreq] at htype
  | reply hp =>
      obtain ⟨e, w, he, _⟩ := hf.reply_route hprompt hr hp hself
      simp [he] at hnone
  | message hmsg hp =>
      obtain ⟨e, w, he, _⟩ := hf.message_route hprompt hr hmsg hp hself
      simp [he] at hnone

/-- The receiver of the reply learns the route to `D` from it. -/
theorem Answer.learned (hp : Answer T S D b s p) (hr : Receipt T s s' a env p type)
    (hprompt : Prompt T s a) : (learnedAt T s env p).entry =
      updateREntry p.host p.ifIndex p.srcMac env.updateTime := by
  rcases learnSource_cases p.host p.ifIndex p.srcMac env.updateTime
    (srcLookup (T.cfg p.dst) env p.host (s.nodes p.dst)) with ⟨_, hnew, _⟩ | ⟨_, hold, _⟩
  · exact hnew
  · rw [srcLookup_entry_eq (hr.not_deleted (hr.keeps_dest hprompt hp.ends.flag_eq _)),
      hp.ends.src_eq, hp.route_none.2] at hold
    simp at hold

/-- A frame that stays in flight. -/
theorem Forced.frame_kept (hf : Forced T S D b s) (hu : Underway T S m s₀ s)
    (hprompt : Prompt T s a) (hs : T.step s a = some s')
    (hx : Exchange T s s' a env p rest new) (hk : ∃ k, a = .deliver k env ∧ s.flight[k]? = some p)
    (hq : q ∈ rest) : ForcedFrame T S D b s' q := by
  cases hf.flight q (hx.mem_rest hq) with
  | flood h =>
      obtain ⟨w, hsender, hlink, hw, hrank⟩ := h.sender
      refine .flood ⟨h.type, h.src_eq, h.dst_eq, h.flag_eq, h.id_eq, w, hsender, hlink,
        hf.joined_step hprompt hs hw, ?_⟩
      rwa [hf.rank_step hprompt hs hw]
  | reply h =>
      obtain ⟨w, hsender, hw, hgo⟩ := h.sender
      obtain ⟨hw', hsame⟩ := hf.passed_step hu hprompt hs hw
      have hdst := hf.rank_step hprompt hs h.receiver
      refine .reply ⟨h.type, h.ends, hf.joined_step hprompt hs h.receiver,
        ⟨w, hsender, hw', by rwa [hsame]⟩, fun n hn hjoined hknows => ?_, ?_⟩
      · rcases hf.knows_cases hu hprompt hs hjoined hknows with
          ⟨hbefore, hknew⟩ | ⟨env', p', type, hr, _, hp'⟩
        · rw [hdst, hf.rank_step hprompt hs hbefore]
          exact h.ahead n hn hbefore hknew
        · -- there is no second reply to be received
          obtain ⟨k, rfl, hk⟩ := hk
          obtain ⟨k', ha, hk'⟩ := hr.action
          obtain ⟨rfl, rfl⟩ := Action.deliver.inj ha
          obtain rfl : p = p' := Option.some.inj (hk.symm.trans hk')
          have hone := hf.single
          have hreply : isReply p = true := decide_eq_true hp'.type
          have hpos : 0 < rest.countP isReply :=
            List.countP_pos_iff.mpr ⟨q, hq, decide_eq_true h.type⟩
          rw [hx.before.countP_eq, List.countP_cons_of_pos hreply] at hone
          omega
      · have hbudget := h.budget
        have hD : Joined T S b s D := by
          by_contra hnot
          have hflood := (hf.silent fun hD => hnot (.inr hD)).1 q (hx.mem_rest hq)
          simp [isFlood_iff h.type] at hflood
        rwa [hdst, hf.rank_step hprompt hs hD]
  | message hmsg hdst => exact .message hmsg (hf.passed_step hu hprompt hs hdst).1

theorem Forced.flood_sends (hf : Forced T S D b s) (hprompt : Prompt T s a)
    (hs : T.step s a = some s') (hr : Receipt T s s' a env p type) (hp : ForcedCopy T S D b s p)
    (hsends : EthSends (T.cfg p.dst) p.ifIndex p.host (learnedAt T s env p) (destAt T s env p)
      { s.nodes p.dst with table := (learnedAt T s env p).table } type t)
    (hq : q ∈ T.copies p.dst trail t) :
    ForcedFrame T S D b s' q ∧
      (isFlood q.host = true ∧ Flooded (T.cfg p.dst) p.ifIndex t ∨
        p.dst = D ∧ isReply q = true) := by
  obtain rfl : type = .rreq := Option.some.inj (hr.processed.type_eq.symm.trans hp.type)
  have hnone := hp.destAt_eq hf.ip_ne env
  cases hsends with
  | relay out _ _ _ _ hflood hhost hkind =>
      obtain rfl : out = .rreq := by simpa [hnone] using hkind
      have hhost' := host_of_mem_copies hq
      rw [hhost] at hhost'
      refine ⟨.flood ⟨?_, ?_, ?_, ?_, ?_, p.dst, sender_of_mem_copies (haddr_of_flooded hflood) hq,
        hflood.floodLink hq, .inr (hp.marked hr), ?_⟩, .inl ⟨?_, hflood⟩⟩
      all_goals rw [hhost']
      · rfl
      · exact hp.src_eq
      · exact hp.dst_eq
      · exact hp.flag_eq
      · exact hp.id_eq
      · exact (hp.rank_dst hr).1
      · rfl
  | answerOwn hself halong hhost =>
      obtain rfl : p.dst = D := T.selfIp_inj _ _ (hself.symm.trans hp.dst_eq)
      obtain ⟨w, hsender, _, hw, hrank⟩ := hp.sender
      rw [(hp.learned hr).2] at halong
      obtain rfl : q.dst = w :=
        (nextHop_of_mem_copies halong hsender.nextHop.ne_broadcast hq).unique hsender.nextHop
      have hhost' := host_of_mem_copies hq
      rw [hhost] at hhost'
      have htype : FrameType.ofInt q.host.frameType = some .rrep := by
        rw [hhost']
        rfl
      refine ⟨.reply ⟨htype, ?_, hf.joined_step hprompt hs hw, ⟨p.dst,
        sender_of_mem_copies (haddr_of_along halong) hq,
        ⟨hf.ends_ne.symm, hp.marked hr, .inl rfl⟩, ?_⟩, fun n hn hjoined hknows => ?_, ?_⟩,
        .inr ⟨rfl, decide_eq_true htype⟩⟩
      · rw [hhost']
        exact ⟨hp.dst_eq, hp.src_eq, rfl⟩
      · simp [toGo, hhost', rrepFrame]
      · -- nobody has heard of `D` before the reply starts
        have hsame := hr.others n hn
        have hbefore : Joined T S b s n := by
          simpa [Joined, Marked, hsame] using hjoined
        rw [hsame, (hf.silent (hp.unmarked hr)).2 n hn hbefore] at hknows
        simp at hknows
      · rw [hhost', hf.rank_step hprompt hs hw, (hp.rank_dst hr).2 hf.ends_ne.symm]
        simp only [rrepFrame]
        omega
  | answerCached _ hd => simp [hnone] at hd
  | request hin => simp at hin

/-- A relay passes the answer on: it goes to a node that is closer to `S`. -/
theorem Forced.answer_passed (hf : Forced T S D b s) (hprompt : Prompt T s a)
    (hs : T.step s a = some s') (hr : Receipt T s s' a env p .rrep) (hp : Answer T S D b s p)
    (hself : p.host.destIp ≠ T.ip p.dst) (hdest : destAt T s env p = some e)
    (halong : Along (T.cfg p.dst) e t)
    (hhost : t.host = rrepFrame p.host.broadcastId (learnedAt T s env p).entry.noHops
      p.host.payloadLen p.host.srcPort p.host.dstPort p.host.destIp p.host.srcIp)
    (hq : q ∈ T.copies p.dst trail t) :
    Answer T S D b s' q ∧ rank T S s' q.dst + 1 ≤ rank T S s p.dst := by
  have hlearned := hp.learned hr hprompt
  obtain ⟨e', w, he, hnext, hw, hlt⟩ := hf.reply_route hprompt hr hp hself
  obtain rfl := Option.some.inj (hdest.symm.trans he)
  obtain rfl : q.dst = w := (nextHop_of_mem_copies halong hnext.ne_broadcast hq).unique hnext
  have hdst : p.dst ≠ S := by
    rintro rfl
    exact hself hp.ends.dst_eq
  have hroute : route (s'.nodes p.dst).table (T.ip D) =
      some (updateREntry p.host p.ifIndex p.srcMac env.updateTime) := by
    rw [← hp.ends.src_eq, hr.route_src, hlearned]
  have hhost' := host_of_mem_copies hq
  rw [hhost, hlearned] at hhost'
  have hrank := hf.rank_step hprompt hs hw
  have hrank' := hf.rank_step hprompt hs hp.receiver
  have hmarked := hf.marked_step hprompt hs (hp.receiver.resolve_left hdst)
  refine ⟨?_, by rwa [hrank]⟩
  constructor
  case type =>
    rw [hhost']
    rfl
  case ends =>
    rw [hhost']
    exact ⟨hp.ends.src_eq, hp.ends.dst_eq, rfl⟩
  case receiver => exact hf.joined_step hprompt hs hw
  case sender =>
    obtain ⟨v, _, _, hgo⟩ := hp.sender
    refine ⟨p.dst, sender_of_mem_copies (haddr_of_along halong) hq,
      ⟨hdst, hmarked, .inr (by simp [hroute])⟩, ?_⟩
    rw [hhost', toGo, if_neg hp.route_none.1, hroute]
    simp only [Option.map_some, Option.getD_some, rrepFrame, updateREntry_noHops]
    omega
  case ahead =>
    intro n hn hjoined hknows
    by_cases hnp : n = p.dst
    · rw [hnp, hrank, hrank']
      omega
    · have hsame := hr.others n hnp
      have hbefore : Joined T S b s n := by simpa [Joined, Marked, hsame] using hjoined
      have hfar := hp.ahead n hn hbefore (hsame ▸ hknows)
      rw [hrank, hf.rank_step hprompt hs hbefore]
      omega
  case budget =>
    have hbudget := hp.budget
    have hD : Joined T S b s D := by
      by_contra hnot
      have hflood := (hf.silent fun hD => hnot (.inr hD)).1 p hr.mem
      simp [isFlood_iff hp.type] at hflood
    rw [hhost', hrank, hf.rank_step hprompt hs hD]
    simp only [rrepFrame, updateREntry_noHops]
    omega

theorem Forced.reply_sends (hf : Forced T S D b s) (hu : Underway T S m s₀ s)
    (hprompt : Prompt T s a) (hs : T.step s a = some s') (hr : Receipt T s s' a env p type)
    (hp : Answer T S D b s p)
    (hsends : EthSends (T.cfg p.dst) p.ifIndex p.host (learnedAt T s env p) (destAt T s env p)
      { s.nodes p.dst with table := (learnedAt T s env p).table } type t)
    (hq : q ∈ T.copies p.dst trail t) : ForcedFrame T S D b s' q ∧
      (isReply q = true ∧ rank T S s' q.dst + 1 ≤ rank T S s p.dst ∨
        isData q = true ∧ (toGo T D s' q.dst : Int) ≤ p.host.hopCount) := by
  obtain rfl : type = .rrep := Option.some.inj (hr.processed.type_eq.symm.trans hp.type)
  cases hsends with
  | relay out hin => simp at hin
  | forwardRrep hself hdest halong hhost =>
      obtain ⟨hreply, hlt⟩ := hf.answer_passed hprompt hs hr hp hself hdest halong hhost hq
      exact ⟨.reply hreply, .inl ⟨decide_eq_true hreply.type, hlt⟩⟩
  | releaseRrep _ hwaits htype =>
      have hmsg := (hf.pending _ _ (mem_of_findKey hwaits).1).2
      simp [hmsg.type] at htype
  | releaseData _ hwaits _ halong hhost =>
      obtain ⟨v, hsender, hv, hgo⟩ := hp.sender
      have hmsg := (hf.pending _ _ (mem_of_findKey hwaits).1).2
      rw [hp.learned hr hprompt] at halong
      obtain rfl : q.dst = v :=
        (nextHop_of_mem_copies halong hsender.nextHop.ne_broadcast hq).unique hsender.nextHop
      obtain ⟨hv', hsame⟩ := hf.passed_step hu hprompt hs hv
      have hmsg' : IsMessage T S D q.host := by
        rw [host_of_mem_copies hq, hhost]
        exact hmsg
      exact ⟨.message hmsg' hv', .inr ⟨decide_eq_true hmsg'.type, by rwa [hsame]⟩⟩
  | request hin hself hdest => exact absurd hdest (hf.not_parked hprompt hr hin hself)

theorem Forced.message_sends (hf : Forced T S D b s) (hu : Underway T S m s₀ s)
    (hprompt : Prompt T s a) (hs : T.step s a = some s') (hr : Receipt T s s' a env p type)
    (hmsg : IsMessage T S D p.host) (hp : Passed T S D b s p.dst)
    (hsends : EthSends (T.cfg p.dst) p.ifIndex p.host (learnedAt T s env p) (destAt T s env p)
      { s.nodes p.dst with table := (learnedAt T s env p).table } type t)
    (hq : q ∈ T.copies p.dst trail t) :
    ForcedFrame T S D b s' q ∧ isData q = true ∧ toGo T D s' q.dst + 1 ≤ toGo T D s p.dst := by
  obtain rfl : type = .data := Option.some.inj (hr.processed.type_eq.symm.trans hmsg.type)
  cases hsends with
  | relay out hin => simp at hin
  | forwardData hself hdest halong hhost =>
      obtain ⟨e, w, he, hnext, hw, hlt⟩ := hf.message_route hprompt hr hmsg hp hself
      obtain rfl := Option.some.inj (hdest.symm.trans he)
      obtain rfl : q.dst = w := (nextHop_of_mem_copies halong hnext.ne_broadcast hq).unique hnext
      obtain ⟨hw', hsame⟩ := hf.passed_step hu hprompt hs hw
      have hmsg' : IsMessage T S D q.host := by
        have hends := hmsg.ends
        rw [host_of_mem_copies hq, hhost]
        exact ⟨hmsg.type, ⟨hends.src_eq, hends.dst_eq, hends.flag_eq⟩, hmsg.id_eq⟩
      exact ⟨.message hmsg' hw', decide_eq_true hmsg'.type, by rwa [hsame]⟩
  | request hin hself hdest => exact absurd hdest (hf.not_parked hprompt hr hin hself)

/-- A frame that a delivery puts in flight. -/
theorem Forced.frame_new (hf : Forced T S D b s) (hu : Underway T S m s₀ s)
    (hprompt : Prompt T s a) (hs : T.step s a = some s')
    (hx : Exchange T s s' a env p rest new) (hq : q ∈ new) : ForcedFrame T S D b s' q := by
  obtain ⟨type, t, hr, hsends, hqt⟩ := hx.sent q hq
  cases hf.flight p hr.mem with
  | flood hp => exact (hf.flood_sends hprompt hs hr hp hsends hqt).1
  | reply hp => exact (hf.reply_sends hu hprompt hs hr hp hsends hqt).1
  | message hmsg hp => exact (hf.message_sends hu hprompt hs hr hmsg hp hsends hqt).1

/-- The exchange of frames that comes with a delivery. -/
theorem Forced.exchange (hf : Forced T S D b s) (hu : Underway T S m s₀ s)
    (hprompt : Prompt T s a) (hs : T.step s a = some s') :
    ∃ k env p rest new, a = .deliver k env ∧ s.flight[k]? = some p ∧
      Exchange T s s' a env p rest new ∧ ((∃ type, Receipt T s s' a env p type) ∨
        ForcedCopy T S D b s p ∧ Marked T S b s p.dst ∧ s'.nodes = s.nodes ∧ new = []) := by
  obtain ⟨k, env, rfl⟩ := hprompt.delivers
  obtain ⟨p, hk, _⟩ := step_deliver hs
  obtain ⟨rest, new, hx⟩ := hu.exchange hk hs
  refine ⟨k, env, p, rest, new, rfl, hk, hx, ?_⟩
  refine (hf.delivery hu.uniqueRoutes hk hprompt.succeeds hs).imp_right ?_
  rintro ⟨hcopy, hmarked, hnodes, _⟩
  refine ⟨hcopy, hmarked, hnodes, List.eq_nil_iff_forall_not_mem.mpr fun q hq => ?_⟩
  obtain ⟨_, _, hr, _⟩ := hx.sent q hq
  exact hcopy.unmarked hr hmarked

/-- Only `D` starts a reply, and others only pass it on. -/
theorem Forced.single_step (hf : Forced T S D b s) (hu : Underway T S m s₀ s)
    (hprompt : Prompt T s a) (hs : T.step s a = some s') (hx : Exchange T s s' a env p rest new) :
    s'.flight.countP isReply ≤ 1 := by
  have hone := hf.single
  have hnewOne : new.countP isReply ≤ 1 := by
    refine (List.countP_mono_left fun q _ hreply => ?_).trans hx.along
    simp [isFlood_of_isReply hreply]
  rw [hx.before.countP_eq] at hone
  rw [hx.after, List.countP_append]
  by_cases hany : ∃ q ∈ new, isReply q = true
  · obtain ⟨q, hq, hreply⟩ := hany
    obtain ⟨type, t, hr, hsends, hqt⟩ := hx.sent q hq
    have hrest : rest.countP isReply = 0 := by
      cases hf.flight p hr.mem with
      | flood hp =>
          obtain ⟨hD, _⟩ := (hf.flood_sends hprompt hs hr hp hsends hqt).2.resolve_left
            (by simp [isFlood_of_isReply hreply])
          have hfloods := (hf.silent (hD ▸ hp.unmarked hr)).1
          refine List.countP_eq_zero.mpr fun x hx' hreply' => ?_
          have hflood := hfloods x (hx.mem_rest hx')
          simp [isFlood_of_isReply hreply'] at hflood
      | reply hp =>
          have hreply : isReply p = true := decide_eq_true hp.type
          rw [List.countP_cons_of_pos hreply] at hone
          omega
      | message hmsg hp =>
          have hdata := (hf.message_sends hu hprompt hs hr hmsg hp hsends hqt).2.1
          have htype := of_decide_eq_true hdata
          rw [of_decide_eq_true hreply] at htype
          simp at htype
    omega
  · have hzero : new.countP isReply = 0 :=
      List.countP_eq_zero.mpr fun q hq hreply => hany ⟨q, hq, hreply⟩
    rw [List.countP_cons] at hone
    omega

/-- Until the request comes to `D`, there is nothing else in flight and nobody of the tree
knows `D`. -/
theorem Forced.silent_step (hf : Forced T S D b s) (hu : Underway T S m s₀ s)
    (hprompt : Prompt T s a) (hs : T.step s a = some s')
    (hx : Exchange T s s' a env p rest new) (hD : ¬ Marked T S b s' D) :
    (∀ q ∈ s'.flight, isFlood q.host = true) ∧
      ∀ n, n ≠ D → Joined T S b s' n → route (s'.nodes n).table (T.ip D) = none := by
  obtain ⟨hfloods, hroutes⟩ := hf.silent fun h => hD (hf.marked_step hprompt hs h)
  constructor
  · intro q hq
    rw [hx.after] at hq
    rcases List.mem_append.mp hq with hq | hq
    · exact hfloods q (hx.mem_rest hq)
    · obtain ⟨type, t, hr, hsends, hqt⟩ := hx.sent q hq
      have hcopy := hf.copy_of_isFlood hr.mem (hfloods p hr.mem)
      refine ((hf.flood_sends hprompt hs hr hcopy hsends hqt).2.resolve_right fun hdst => ?_).1
      exact hD (hdst.1 ▸ hcopy.marked hr)
  · intro n hn hjoined
    rw [← Option.not_isSome_iff_eq_none]
    intro hknows
    rcases hf.knows_cases hu hprompt hs hjoined hknows with
      ⟨hbefore, hknew⟩ | ⟨_, p', _, hr, _, hreply⟩
    · simp [hroutes n hn hbefore] at hknew
    · have hflood := hfloods p' hr.mem
      simp [isFlood_iff hreply.type] at hflood

theorem Forced.pending_kept (hf : Forced T S D b s) (hprompt : Prompt T s a)
    (hs : T.step s a = some s') :
    ∀ n, ∀ q ∈ (s'.nodes n).pending, n = S ∧ IsMessage T S D q.odrframe := by
  obtain ⟨k, env, rfl⟩ := hprompt.delivers
  refine (preserve hs (fun _ => True) (fun _ _ => True)
    (fun n q => n = S ∧ IsMessage T S D q.odrframe) (fun _ _ => trivial) (fun _ _ _ => trivial)
    hf.pending (fun _ _ _ _ => trivial) ?park ?queue (fun _ _ _ _ _ _ _ _ => trivial)
    fun _ _ _ _ _ _ _ _ => trivial).2.2
  case park =>
    intro env p type hr htype hself hnone
    exact absurd hnone (hf.not_parked hprompt hr htype hself)
  case queue =>
    intro n sparams env' portno ha
    simp at ha

theorem forced_step (hf : Forced T S D b s) (hu : Underway T S m s₀ s) (hprompt : Prompt T s a)
    (hs : T.step s a = some s') : Forced T S D b s' := by
  obtain ⟨k, env, p, rest, new, ha, hk, hx, _⟩ := hf.exchange hu hprompt hs
  refine ⟨hf.ends_ne, hf.id_pos, fun n e he => hf.ids_step hprompt hs he,
    fun n e hn he hid => hf.toSource_step hprompt hs hn he hid,
    fun n e hn hjoined he => hf.toDest_step hu hprompt hs hn hjoined he, fun q hq => ?_,
    hf.pending_kept hprompt hs, hf.single_step hu hprompt hs hx,
    fun hD => hf.silent_step hu hprompt hs hx hD⟩
  rw [hx.after] at hq
  rcases List.mem_append.mp hq with hq | hq
  · exact hf.frame_kept hu hprompt hs hx ⟨k, ha, hk⟩ hq
  · exact hf.frame_new hu hprompt hs hx hq

end Frames

end OnDemandRouting.Proofs
