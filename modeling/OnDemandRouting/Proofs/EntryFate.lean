import OnDemandRouting.Proofs.UniqueRoutes

/-!
# What becomes of an entry in one step

A frame or a request touches only the entries for the addresses it names.  An entry for
one of them is unlinked by a lookup that finds it expired or is told to rediscover the
destination, and then at most re-created from the frame; otherwise it stays, and moves up
in the order of broadcast ids and hop counts only.
-/

namespace OnDemandRouting.Proofs

open OnDemandRouting.Lib
open OnDemandRouting.Model

/-- The addresses whose entries the handler looks up. -/
def NodeEvent.addresses : NodeEvent → List Ip
  | .recv _ _ _ recvBuf => [(processRecvdFrame recvBuf).srcIp, (processRecvdFrame recvBuf).destIp]
  | .request _ sparams => [sparams.destip]

/-- A lookup of the call finds the entry expired, or is one for the destination of a frame
or request with the discovery flag. -/
def NodeEvent.Unlinks (cfg : Config) (e : REntry) : NodeEvent → Prop
  | .recv env _ _ recvBuf =>
      e.destip = (processRecvdFrame recvBuf).destIp ∧
          (env.destTime - e.timestamp ≥ cfg.staleParam ∨
            (processRecvdFrame recvBuf).routeDiscFlag = 1) ∨
        e.destip = (processRecvdFrame recvBuf).srcIp ∧
          env.srcTime - e.timestamp ≥ cfg.staleParam
  | .request env sparams =>
      e.destip = sparams.destip ∧
        (env.destTime - e.timestamp ≥ cfg.staleParam ∨ sparams.routeDiscFlag = 1)

/-- The entry is the one `update_r_entry` writes from the received frame. -/
def NodeEvent.Writes (e : REntry) : NodeEvent → Prop
  | .recv env intfN addr recvBuf =>
      e = updateREntry (processRecvdFrame recvBuf) intfN addr env.updateTime
  | .request _ _ => False

/-- A newer broadcast id, or the same one over no more hops. -/
def NotWorse (e e' : REntry) : Prop :=
  e.broadcastId < e'.broadcastId ∨ e.broadcastId = e'.broadcastId ∧ e'.noHops ≤ e.noHops

/-- What becomes of the entry `e` in a call. -/
inductive EntryFate (cfg : Config) (ev : NodeEvent) (o : Outcome) (e : REntry) : Prop
  | deleted (hdeleted : e.destip ∈ o.deleted) (hreason : ev.Unlinks cfg e)
      (hafter : ∀ e', route o.node.table e.destip = some e' → ev.Writes e')
  | kept (hdeleted : e.destip ∉ o.deleted) (e' : REntry)
      (hroute : route o.node.table e.destip = some e') (hworse : NotWorse e e')
      (hchanged : e'.nextHop ≠ e.nextHop ∨ e'.ifNo ≠ e.ifNo → ev.Writes e')

theorem notWorse_refl (e : REntry) : NotWorse e e := .inr ⟨rfl, Int.le_refl _⟩

theorem notWorse_of_accepts {f : OdrFrame} {e : REntry} (hacc : acceptsUpdate f e = true)
    (intfN : Int) (mac : Mac) (now : Int) : NotWorse e (updateREntry f intfN mac now) := by
  rcases acceptsUpdate_iff.mp hacc with hnew | ⟨hsame, hhops⟩
  · exact .inl hnew
  · exact .inr ⟨hsame.symm, hhops⟩

/-! ## Lookups that unlink -/

section Lookups

variable {cfg : Config} {env : Env} {staleParam now : Int} {ip : Ip} {flag : Int}
  {table : List REntry} {f : OdrFrame} {intfN : Int} {addr : Mac} {st : NodeState} {e : REntry}

/-- A lookup that unlinks the entry for `ip` found it expired or had the flag. -/
theorem getREntry_deleted (hdel : (getREntry staleParam now ip flag table).deleted = true)
    (hroute : route table ip = some e) : now - e.timestamp ≥ staleParam ∨ flag = 1 := by
  rcases getREntry_cases staleParam now ip flag table with ⟨e', he', hreason, -⟩ | ⟨-, hget⟩
  · obtain rfl : e = e' := by simpa [hroute] using he'
    exact hreason
  · rw [hget] at hdel
    exact absurd hdel (by simp)

theorem route_of_getREntry_deleted (hu : UniqueRoutes table)
    (hdel : (getREntry staleParam now ip flag table).deleted = true) :
    route (getREntry staleParam now ip flag table).table ip = none := by
  rcases getREntry_cases staleParam now ip flag table with ⟨_, _, _, hget⟩ | ⟨-, hget⟩
  · rw [hget]
    exact findKey_eraseKey_self hu
  · rw [hget] at hdel
    exact absurd hdel (by simp)

theorem route_srcLookup_none (h : route (destLookup cfg env f st).table ip = none) :
    route (srcLookup cfg env f st).table ip = none :=
  findKey_none_of_subset (fun _ he => mem_of_mem_getREntry_table he) h

theorem mem_deletedBy : ip ∈ deletedBy cfg env f st ↔
    (destLookup cfg env f st).deleted = true ∧ ip = f.destIp ∨
      (srcLookup cfg env f st).deleted = true ∧ ip = f.srcIp := by
  simp only [deletedBy, List.mem_append]
  split_ifs <;> simp_all

/-- Nothing is left of an entry that one of the two lookups unlinks. -/
theorem route_srcLookup_of_deleted (hu : UniqueRoutes st.table)
    (h : ip ∈ deletedBy cfg env f st) : route (srcLookup cfg env f st).table ip = none := by
  rcases mem_deletedBy.mp h with ⟨hdel, rfl⟩ | ⟨hdel, rfl⟩
  · exact route_srcLookup_none (route_of_getREntry_deleted hu hdel)
  · exact route_of_getREntry_deleted (UniqueRoutes.getREntry hu) hdel

/-- The reason why it was unlinked. -/
theorem unlinks_of_deleted (h : e.destip ∈ deletedBy cfg env f st)
    (hroute : route st.table e.destip = some e) :
    e.destip = f.destIp ∧ (env.destTime - e.timestamp ≥ cfg.staleParam ∨ f.routeDiscFlag = 1) ∨
      e.destip = f.srcIp ∧ env.srcTime - e.timestamp ≥ cfg.staleParam := by
  by_cases hfirst : (destLookup cfg env f st).deleted = true ∧ e.destip = f.destIp
  · exact .inl ⟨hfirst.2, getREntry_deleted hfirst.1 (hfirst.2 ▸ hroute)⟩
  · -- the first lookup left the entry, so the second found the same one
    rcases mem_deletedBy.mp h with hdel | ⟨hdel, hip⟩
    · exact absurd hdel hfirst
    · have hsame : route (destLookup cfg env f st).table e.destip = some e := by
        rw [← hroute]
        by_cases hdest : f.destIp = e.destip
        · have hkeep : (destLookup cfg env f st).deleted = false := by
            rw [← Bool.not_eq_true]
            exact fun hdel => hfirst ⟨hdel, hdest.symm⟩
          rw [destLookup, getREntry_list, (getREntry_of_not_deleted hkeep).2]
        · exact route_getREntry_of_ne hdest
      rcases getREntry_deleted hdel (hip ▸ hsame) with hexp | hflag
      · exact .inr ⟨hip, hexp⟩
      · exact absurd hflag (by decide)

/-- After the frame is taken in, an unlinked entry is gone or re-created from the frame. -/
theorem route_learnedRoute_of_deleted (hu : UniqueRoutes st.table)
    (h : ip ∈ deletedBy cfg env f st) {e' : REntry}
    (hroute : route (learnedRoute cfg env intfN addr f st).table ip = some e') :
    e' = updateREntry f intfN addr env.updateTime := by
  have hnone := route_srcLookup_of_deleted hu h
  by_cases hip : f.srcIp = ip
  · subst hip
    rw [route_learnedRoute_self] at hroute
    obtain rfl := Option.some.inj hroute
    rcases learnSource_cases f intfN addr env.updateTime (srcLookup cfg env f st) with
      ⟨_, hnew, _⟩ | ⟨_, hold, _⟩
    · exact hnew
    · rw [srcLookup_entry hold] at hnone
      exact absurd hnone (by simp)
  · rw [learnedRoute, route_learnSource_of_ne (fun _ he => srcLookup_entry he) hip, hnone] at hroute
    exact absurd hroute (by simp)

end Lookups

/-! ## The two handlers -/

section Handlers

variable {cfg : Config} {env : Env} {intfN : Int} {addr : Mac} {buf : OdrFrame}
  {sparams : SendParams} {st : NodeState} {ip : Ip} {e : REntry}

theorem handleEthernetMsg_deleted_subset
    (h : ip ∈ (handleEthernetMsg cfg env intfN addr buf st).deleted) :
    ip ∈ deletedBy cfg env (processRecvdFrame buf) st := by
  rcases handleEthernetMsg_cases cfg env intfN addr buf st with
    ⟨_, heq⟩ | ⟨_, _, exit, _, heq⟩ | ⟨type, _, heq⟩
  · rw [heq] at h
    exact absurd h List.not_mem_nil
  · rwa [heq] at h
  · rwa [heq, Reaction.outcome_deleted] at h

theorem handleEthernetMsg_after_deleted (hu : UniqueRoutes st.table)
    (h : ip ∈ (handleEthernetMsg cfg env intfN addr buf st).deleted) {e' : REntry}
    (hroute : route (handleEthernetMsg cfg env intfN addr buf st).node.table ip = some e') :
    e' = updateREntry (processRecvdFrame buf) intfN addr env.updateTime := by
  have hdel := handleEthernetMsg_deleted_subset h
  rcases handleEthernetMsg_cases cfg env intfN addr buf st with
    ⟨_, heq⟩ | ⟨_, _, exit, _, heq⟩ | ⟨type, _, heq⟩
  · rw [heq] at h
    exact absurd h List.not_mem_nil
  · rw [heq, route_srcLookup_of_deleted hu hdel] at hroute
    exact absurd hroute (by simp)
  · rw [heq, Reaction.outcome_node, reaction_state.table] at hroute
    exact route_learnedRoute_of_deleted hu hdel hroute

theorem entryFate_ethernet (hu : UniqueRoutes st.table)
    (hroute : route st.table e.destip = some e) :
    EntryFate cfg (.recv env intfN addr buf) (handleEthernetMsg cfg env intfN addr buf st) e := by
  by_cases hdel : e.destip ∈ (handleEthernetMsg cfg env intfN addr buf st).deleted
  · refine .deleted hdel ?_ fun e' he' => handleEthernetMsg_after_deleted hu hdel he'
    exact unlinks_of_deleted (handleEthernetMsg_deleted_subset hdel) hroute
  · rcases handleEthernetMsg_route hdel with hkeep | ⟨_, _, _, hnew, hacc⟩
    · refine .kept hdel e (hkeep.trans hroute) (notWorse_refl e) fun hchanged => ?_
      simp at hchanged
    · exact .kept hdel _ hnew (notWorse_of_accepts (hacc e hroute) ..) fun _ => rfl

theorem handlePeerMsg_deleted_subset (h : ip ∈ (handlePeerMsg cfg env sparams st).deleted) :
    (peerLookup cfg env sparams st.table).deleted = true ∧ ip = sparams.destip ∧
      (handlePeerMsg cfg env sparams st).node.table =
        (peerLookup cfg env sparams st.table).table := by
  have hmem (hdel : ip ∈ peerDeleted cfg env sparams st.table) :
      (peerLookup cfg env sparams st.table).deleted = true ∧ ip = sparams.destip := by
    simp only [peerDeleted] at hdel
    split_ifs at hdel with hdel'
    · exact ⟨hdel', List.mem_singleton.mp hdel⟩
    · exact absurd hdel List.not_mem_nil
  cases handlePeerMsg_call cfg env sparams st with
  | idle _ hdeleted =>
      rw [hdeleted] at h
      exact absurd h List.not_mem_nil
  | flooded _ _ _ _ hdeleted htable =>
      rw [hdeleted] at h
      exact ⟨(hmem h).1, (hmem h).2, htable⟩
  | direct _ _ _ _ _ hdeleted htable =>
      rw [hdeleted] at h
      exact ⟨(hmem h).1, (hmem h).2, htable⟩

theorem entryFate_peer (hu : UniqueRoutes st.table) (hroute : route st.table e.destip = some e) :
    EntryFate cfg (.request env sparams) (handlePeerMsg cfg env sparams st) e := by
  by_cases hdel : e.destip ∈ (handlePeerMsg cfg env sparams st).deleted
  · obtain ⟨hlookup, hip, htable⟩ := handlePeerMsg_deleted_subset hdel
    refine .deleted hdel ⟨hip, getREntry_deleted hlookup (hip ▸ hroute)⟩ fun e' he' => ?_
    rw [htable, hip, peerLookup, route_of_getREntry_deleted hu hlookup] at he'
    exact absurd he' (by simp)
  · have hkeep := (handlePeerMsg_call cfg env sparams st).route_eq hdel
    refine .kept hdel e (hkeep.trans hroute) (notWorse_refl e) fun hchanged => ?_
    simp at hchanged

/-- The route to an address the event does not name stays as it is. -/
theorem route_of_notMem_addresses {ev : NodeEvent} (h : ip ∉ ev.addresses) :
    route (nodeOutcome cfg st ev).node.table ip = route st.table ip := by
  cases ev with
  | recv env intfN addr recvBuf =>
      simp only [NodeEvent.addresses, List.mem_cons, List.not_mem_nil, or_false, not_or] at h
      have hdel : ip ∉ (handleEthernetMsg cfg env intfN addr recvBuf st).deleted := by
        intro hdel
        rcases mem_deletedBy.mp (handleEthernetMsg_deleted_subset hdel) with ⟨_, hip⟩ | ⟨_, hip⟩
        · exact h.2 hip
        · exact h.1 hip
      rcases handleEthernetMsg_route hdel with hkeep | ⟨_, _, hsrc, _⟩
      · exact hkeep
      · exact absurd hsrc.symm h.1
  | request env sparams =>
      refine (handlePeerMsg_call cfg env sparams st).route_eq fun hdel => ?_
      exact h (List.mem_singleton.mpr (handlePeerMsg_deleted_subset hdel).2.1)

end Handlers

/-- In every reachable state and for every frame or request, the tables before and after
have one entry per address, only the entries for the addresses of the frame or request
change, and each of them meets one of the two fates. -/
theorem entries_only_improve {cfg : Config} {st : NodeState} {h : List (NodeState × NodeEvent)}
    (ht : Trace (nodeStep cfg) .initial h st) (ev : NodeEvent) :
    UniqueRoutes st.table ∧ UniqueRoutes (nodeOutcome cfg st ev).node.table ∧
    (∀ ip, ip ∉ ev.addresses →
      route (nodeOutcome cfg st ev).node.table ip = route st.table ip) ∧
    ∀ e ∈ st.table, EntryFate cfg ev (nodeOutcome cfg st ev) e := by
  have hu := uniqueRoutes_of_nodeTrace ht
  have hu' := uniqueRoutes_of_nodeTrace (ht.snoc (a := ev) rfl)
  refine ⟨hu, hu', fun ip hip => route_of_notMem_addresses hip, fun e he => ?_⟩
  have hroute : route st.table e.destip = some e := findKey_of_mem hu he
  cases ev with
  | recv env intfN addr recvBuf => exact entryFate_ethernet hu hroute
  | request env sparams => exact entryFate_peer hu hroute

/-- A shorter copy of a request arrives while the entry for its source is fresh. -/
theorem shorter_copy_improves :
    ∃ h st, Trace (nodeStep (lineNet.cfg 1)) .initial h st ∧ st.table ≠ [] ∧
      ∀ e ∈ st.table,
        EntryFate (lineNet.cfg 1) (copyAt 1 2)
          (nodeOutcome (lineNet.cfg 1) st (copyAt 1 2)) e := by
  obtain ⟨h, st, ht, hp⟩ := Trace.exists_of_exec (nodeStep (lineNet.cfg 1)) .initial
    [copyAt 0 4] (fun _ st => decide (st.table ≠ [])) (by decide +kernel)
  exact ⟨h, st, ht, of_decide_eq_true hp, (entries_only_improve ht (copyAt 1 2)).2.2.2⟩

end OnDemandRouting.Proofs
