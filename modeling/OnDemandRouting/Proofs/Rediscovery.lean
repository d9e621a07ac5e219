import OnDemandRouting.Proofs.UniqueRoutes

/-!
# Requests with the route discovery flag

At a node that is not its destination, a request with the flag either is a duplicate and
leaves no trace, or takes the cached route to the destination out of the table, overwrites
the route to its source and goes on as a request.  Both lookups of the handler take part:
the flag makes the first one fail whatever the age of the entry, and a frame that passes
the filter is newer than every entry the second one can find.
-/

namespace OnDemandRouting.Proofs

open OnDemandRouting.Lib
open OnDemandRouting.Model

/-- A relayed copy of the request `f` that came in on interface `intfN`. -/
structure RequestCopy (cfg : Config) (intfN : Int) (f : OdrFrame) (t : Transmission) : Prop where
  flooded : Flooded cfg intfN t
  host : t.host = floodFrame .rreq f.broadcastId (f.hopCount + 1) f.routeDiscFlag f.srcPort
    f.dstPort f.destIp f.srcIp

/-- The call drops the route to the destination, learns the one to the source, and sends
nothing but copies of the request, all of them if nothing fails.  A daemon that cannot
name one of the two addresses ends before it comes to the source. -/
structure Rediscovers (cfg : Config) (env : Env) (intfN : Int) (addr : Mac) (f : OdrFrame)
    (o : Outcome) : Prop where
  destGone : ∀ e ∈ o.node.table, e.destip ≠ f.destIp
  source : env.resolves f.srcIp = true → env.resolves f.destIp = true →
    o.node.table.filter (fun e => decide (e.destip = f.srcIp)) =
      [updateREntry f intfN addr env.updateTime]
  unnamed : ¬ (env.resolves f.srcIp = true ∧ env.resolves f.destIp = true) →
    o.exit.survives = false
  copies : ∀ t ∈ o.sent, RequestCopy cfg intfN f t
  relayed : env.Succeeds → o.sent = relayBroadcast cfg intfN f false

section Request

variable {cfg : Config} {env : Env} {intfN : Int} {addr : Mac} {buf f : OdrFrame}
  {st : NodeState}

/-- With the flag the destination's entry is never found. -/
theorem destLookup_entry_of_flag (hflag : f.routeDiscFlag = 1) :
    (destLookup cfg env f st).entry = none := by
  cases hentry : (destLookup cfg env f st).entry with
  | none => rfl
  | some e => exact absurd hflag (getREntry_fresh hentry).2

theorem route_srcLookup_dest_of_flag (hu : UniqueRoutes st.table) (hflag : f.routeDiscFlag = 1) :
    route (srcLookup cfg env f st).table f.destIp = none :=
  findKey_none_of_subset (fun _ he => mem_of_mem_getREntry_table he)
    (hu.route_none (destLookup_entry_of_flag hflag))

/-- A frame that is newer than every entry for its source is learned. -/
theorem learnedRoute_of_newer
    (hnew : ∀ e ∈ st.table, e.destip = f.srcIp → e.broadcastId < f.broadcastId) :
    (learnedRoute cfg env intfN addr f st).flag = true ∧
      (learnedRoute cfg env intfN addr f st).entry = updateREntry f intfN addr env.updateTime := by
  rcases learnSource_cases f intfN addr env.updateTime (srcLookup cfg env f st) with
    ⟨hflag, hentry, -⟩ | ⟨-, hold, hreject⟩
  · exact ⟨hflag, hentry⟩
  · obtain ⟨hmem, hkey⟩ := route_mem (srcLookup_entry hold)
    have hlt := hnew _ (mem_srcLookup_table hmem) hkey
    rw [acceptsUpdate_iff.mpr (.inl hlt)] at hreject
    exact absurd hreject (by simp)

/-- The case of the switch for a request that passes the filter. -/
theorem reaction_of_flag (env : Env) (intfN : Int) (addr : Mac) (hflag : f.routeDiscFlag = 1)
    (hne : f.srcIp ≠ f.destIp) (hself : f.destIp ≠ cfg.selfIp)
    (hnew : ∀ e ∈ st.table, e.destip = f.srcIp → e.broadcastId < f.broadcastId) :
    reaction cfg env intfN addr f st .rreq =
      { node := { st with table := (learnedRoute cfg env intfN addr f st).table }
        plan := .ok (relayBroadcast cfg intfN f false)
        events := [] } := by
  rw [reaction, derefDest_of_ne hne, destLookup_entry_of_flag hflag]
  simp [react, handleRreq, hself, (learnedRoute_of_newer hnew).1]

theorem requestCopy_of_mem {t : Transmission} (ht : t ∈ relayBroadcast cfg intfN f false) :
    RequestCopy cfg intfN f t := by
  obtain ⟨hflood, hhost⟩ := mem_sendReqBroadcast ht
  exact ⟨hflood, hhost⟩

theorem rediscovers_of_passes (hu : UniqueRoutes st.table)
    (htype : FrameType.ofInt (processRecvdFrame buf).frameType = some .rreq)
    (hflag : (processRecvdFrame buf).routeDiscFlag = 1)
    (hne : (processRecvdFrame buf).srcIp ≠ (processRecvdFrame buf).destIp)
    (hself : (processRecvdFrame buf).destIp ≠ cfg.selfIp)
    (hnew : ∀ e ∈ st.table, e.destip = (processRecvdFrame buf).srcIp →
      e.broadcastId < (processRecvdFrame buf).broadcastId) :
    Rediscovers cfg env intfN addr (processRecvdFrame buf)
      (handleEthernetMsg cfg env intfN addr buf st) := by
  have hgone : route (srcLookup cfg env (processRecvdFrame buf) st).table
      (processRecvdFrame buf).destIp = none := route_srcLookup_dest_of_flag hu hflag
  rcases handleEthernetMsg_cases cfg env intfN addr buf st with
    ⟨hdup, -⟩ | ⟨-, hfail, exit, hexit, heq⟩ | ⟨type, hproc, heq⟩
  · obtain ⟨-, e, he, hkey, hle⟩ := duplicateFilter_eq_true_iff.mp hdup
    have := hnew e he hkey
    omega
  · have hnames := hfail.resolve_right (by simp [htype])
    rw [heq]
    refine ⟨findKey_eq_none_iff.mp hgone, fun hsrc hdest => absurd ⟨hsrc, hdest⟩ hnames,
      fun _ => hexit, by simp, fun henv => ?_⟩
    exact absurd ⟨henv.resolves _, henv.resolves _⟩ hnames
  · obtain rfl : type = .rreq := by simpa [htype] using hproc.type_eq.symm
    have hreact := reaction_of_flag env intfN addr hflag hne hself hnew
    rw [heq]
    refine ⟨?_, fun _ _ => ?_, fun hnames => absurd ⟨hproc.srcName, hproc.destName⟩ hnames,
      fun t ht => ?_, fun henv => ?_⟩
    · rw [Reaction.outcome_node, hreact]
      apply findKey_eq_none_iff.mp
      rw [← hgone]
      exact route_learnSource_of_ne (fun _ he => srcLookup_entry he) hne
    · rw [Reaction.outcome_node, hreact, ← (learnedRoute_of_newer hnew).2]
      exact filter_key_of_findKey (UniqueRoutes.learnedRoute hu) (route_learnedRoute_self _)
    · obtain ⟨ts, hplan, hts⟩ := Reaction.mem_outcome_sent ht
      rw [hreact] at hplan
      obtain rfl := Except.ok.inj hplan
      exact requestCopy_of_mem hts
    · rw [hreact]
      exact Reaction.outcome_sent_of_linksUp henv.toLinksUp rfl

end Request

/-- A request with the discovery flag for another node, in any state a node can reach: if
the node holds an entry for the source that is not older, nothing is sent and nothing
changes; otherwise the node forgets the destination, learns the source and passes the
request on, and no cached route answers it. -/
theorem forced_request_bypasses_caches {cfg : Config} {st : NodeState}
    {h : List (NodeState × NodeEvent)} (ht : Trace (nodeStep cfg) .initial h st) (env : Env)
    (intfN : Int) (addr : Mac) (buf : OdrFrame)
    (htype : (processRecvdFrame buf).frameType = FrameType.rreq.toInt)
    (hflag : (processRecvdFrame buf).routeDiscFlag = 1)
    (hne : (processRecvdFrame buf).srcIp ≠ (processRecvdFrame buf).destIp)
    (hself : (processRecvdFrame buf).destIp ≠ cfg.selfIp) :
    ((∃ e ∈ st.table, e.destip = (processRecvdFrame buf).srcIp ∧
        (processRecvdFrame buf).broadcastId ≤ e.broadcastId) ∧
      (handleEthernetMsg cfg env intfN addr buf st).sent = [] ∧
      (handleEthernetMsg cfg env intfN addr buf st).node = st) ∨
    Rediscovers cfg env intfN addr (processRecvdFrame buf)
      (handleEthernetMsg cfg env intfN addr buf st) := by
  by_cases hold : ∃ e ∈ st.table, e.destip = (processRecvdFrame buf).srcIp ∧
      (processRecvdFrame buf).broadcastId ≤ e.broadcastId
  · left
    have hdup := duplicateFilter_eq_true_iff.mpr ⟨hflag, hold⟩
    rcases handleEthernetMsg_cases cfg env intfN addr buf st with
      ⟨-, heq⟩ | ⟨hpass, -⟩ | ⟨type, hproc, -⟩
    · rw [heq]
      exact ⟨hold, rfl, rfl⟩
    · simp [hdup] at hpass
    · rw [hproc.passes] at hdup
      exact absurd hdup (by simp)
  · right
    push Not at hold
    refine rediscovers_of_passes (uniqueRoutes_of_nodeTrace ht) ?_ hflag hne hself hold
    rw [htype, FrameType.ofInt_toInt]

/-- A request of the first node of the line for the last one, with the flag. -/
def forcedRequest : OdrFrame :=
  constructOdr FrameType.rreq.toInt 11 0 0 1 servPort servPort "10.0.0.3" "10.0.0.1" ""

/-- The middle node of the line has a fresh route to the last one and does not answer. -/
theorem fresh_route_bypassed :
    ∃ h st, Trace (nodeStep (lineNet.cfg 1)) .initial h st ∧
      (route st.table "10.0.0.3").isSome ∧
      Rediscovers (lineNet.cfg 1) (.reliable 1) 3 0 (processRecvdFrame forcedRequest)
        (handleEthernetMsg (lineNet.cfg 1) (.reliable 1) 3 0 forcedRequest st) := by
  obtain ⟨h, st, ht, hp⟩ := Trace.exists_of_exec (nodeStep (lineNet.cfg 1)) .initial
    [.recv (.reliable 0) 4 0
      (constructOdr FrameType.rreq.toInt 11 0 0 0 servPort servPort "10.0.0.9" "10.0.0.3" "")]
    (fun _ st => (route st.table "10.0.0.3").isSome &&
      st.table.all fun e => decide (e.destip ≠ "10.0.0.1")) (by decide +kernel)
  simp only [Bool.and_eq_true, List.all_eq_true, decide_eq_true_eq] at hp
  have hsrc : (processRecvdFrame forcedRequest).srcIp = "10.0.0.1" := rfl
  refine ⟨h, st, ht, hp.1, ?_⟩
  rcases forced_request_bypasses_caches ht (.reliable 1) 3 0 forcedRequest
    (by decide) (by decide) (by decide) (by decide) with ⟨⟨e, he, hkey, -⟩, -⟩ | hforced
  · exact absurd (hkey.trans hsrc) (hp.2 e he)
  · exact hforced

end OnDemandRouting.Proofs
