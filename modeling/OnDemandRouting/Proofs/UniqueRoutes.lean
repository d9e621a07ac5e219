import OnDemandRouting.Proofs.Provenance
import OnDemandRouting.Proofs.Suppression

/-!
# One entry per destination

`insert_r_entry` does not look for an entry with the same address.  That a table
never has two of them rests on the control flow of the handler: it inserts only
after a lookup for that address has failed, and a failed lookup leaves no entry.
-/

namespace OnDemandRouting.Proofs

open OnDemandRouting.Lib
open OnDemandRouting.Model

/-- No two entries of the table have the same address. -/
def UniqueRoutes (table : List REntry) : Prop := (table.map REntry.destip).Nodup

section Table

variable {cfg : Config} {env : Env} {staleParam now : Int} {ip : Ip} {flag : Int}
  {table : List REntry} {f : OdrFrame} {intfN : Int} {addr : Mac} {buf : OdrFrame}
  {st : NodeState}

theorem UniqueRoutes.getREntry (hu : UniqueRoutes table) :
    UniqueRoutes (getREntry staleParam now ip flag table).table := by
  rcases getREntry_cases staleParam now ip flag table with ⟨_, _, _, hget⟩ | ⟨_, hget⟩
  · rw [hget]
    exact nodup_eraseKey hu
  · rw [hget]
    exact hu

/-- A lookup that fails leaves no entry. -/
theorem UniqueRoutes.route_none (hu : UniqueRoutes table)
    (h : (Model.getREntry staleParam now ip flag table).entry = none) :
    route (Model.getREntry staleParam now ip flag table).table ip = none := by
  rcases getREntry_cases staleParam now ip flag table with ⟨_, _, _, hget⟩ | ⟨_, hget⟩
  · rw [hget]
    exact findKey_eraseKey_self hu
  · rw [hget] at h ⊢
    exact h

theorem UniqueRoutes.learnSource {now : Int} {src : Lookup} (hu : UniqueRoutes src.table)
    (hsome : ∀ e, src.entry = some e → route src.table f.srcIp = some e)
    (hnone : src.entry = none → route src.table f.srcIp = none) :
    UniqueRoutes (learnSource f intfN addr now src).table := by
  cases hentry : src.entry with
  | some entry =>
      have hkey := (route_mem (hsome entry hentry)).2
      rw [learnSource_of_some hentry, UniqueRoutes, map_key_replaceKey (checkREntry_destip hkey)]
      exact hu
  | none =>
      rw [learnSource_of_none hentry]
      refine List.nodup_cons.mpr ⟨?_, hu⟩
      rintro hmem
      obtain ⟨e, he, hdestip⟩ := List.mem_map.mp hmem
      exact findKey_eq_none_iff.mp (hnone hentry) e he hdestip

theorem UniqueRoutes.srcLookup (hu : UniqueRoutes st.table) :
    UniqueRoutes (srcLookup cfg env f st).table :=
  UniqueRoutes.getREntry (UniqueRoutes.getREntry hu)

theorem UniqueRoutes.learnedRoute (hu : UniqueRoutes st.table) :
    UniqueRoutes (learnedRoute cfg env intfN addr f st).table :=
  UniqueRoutes.learnSource (UniqueRoutes.srcLookup hu) (fun _ he => srcLookup_entry he)
    fun he => UniqueRoutes.route_none (UniqueRoutes.getREntry hu) he

/-- `handle_ethernet_msg` keeps the addresses of the table apart. -/
theorem UniqueRoutes.ethernet (hu : UniqueRoutes st.table) :
    UniqueRoutes (handleEthernetMsg cfg env intfN addr buf st).node.table := by
  rcases handleEthernetMsg_cases cfg env intfN addr buf st with
    ⟨_, heq⟩ | ⟨_, _, exit, _, heq⟩ | ⟨type, _, heq⟩
  · rw [heq]
    exact hu
  · rw [heq]
    exact UniqueRoutes.srcLookup hu
  · rw [heq, Reaction.outcome_node, reaction_state.table]
    exact UniqueRoutes.learnedRoute hu

/-- `handle_peer_msg` does so too. -/
theorem UniqueRoutes.peer {sparams : SendParams} (hu : UniqueRoutes st.table) :
    UniqueRoutes (handlePeerMsg cfg env sparams st).node.table := by
  cases handlePeerMsg_call cfg env sparams st with
  | idle _ _ _ htable =>
      rw [htable]
      exact hu
  | flooded _ _ _ _ _ htable =>
      rw [htable]
      exact UniqueRoutes.getREntry hu
  | direct _ _ _ _ _ _ htable =>
      rw [htable]
      exact UniqueRoutes.getREntry hu

/-- The tables of a single node, whatever frames and requests it is given. -/
theorem uniqueRoutes_of_nodeTrace {g : List (NodeState × NodeEvent)}
    (ht : Trace (nodeStep cfg) .initial g st) : UniqueRoutes st.table := by
  have hinit : UniqueRoutes NodeState.initial.table := List.nodup_nil
  refine ht.invariant (I := fun st => UniqueRoutes st.table) hinit ?_
  intro st ev st' hu hs
  obtain rfl := Option.some.inj hs
  cases ev with
  | recv env intfN addr recvBuf => exact UniqueRoutes.ethernet hu
  | request env sparams => exact UniqueRoutes.peer hu

end Table

section Network

variable {Node : Type} [DecidableEq Node] {T : Topology Node} {s s' : Net Node}
  {a : Action Node} {h : List (Net Node × Action Node)}

theorem uniqueRoutes_step (hu : ∀ n, UniqueRoutes (s.nodes n).table)
    (hs : T.step s a = some s') (n : Node) : UniqueRoutes (s'.nodes n).table := by
  rcases step_cases hs with ⟨m, sparams, env, rfl, rfl⟩ | ⟨k, env, p, rfl, hk, rfl⟩
  · exact forall_nodes_takeRequest (fun _ st => UniqueRoutes st.table) hu
      (UniqueRoutes.peer (hu m)) n
  · exact forall_nodes_deliverPacket (fun _ st => UniqueRoutes st.table) hu
      (UniqueRoutes.ethernet (hu p.dst)) n

theorem uniqueRoutes_of_trace (ht : Trace T.step (Net.initial Node) h s) (n : Node) :
    UniqueRoutes (s.nodes n).table := by
  have hinit : ∀ n, UniqueRoutes ((Net.initial Node).nodes n).table := fun _ => List.nodup_nil
  exact ht.invariant (I := fun s => ∀ n, UniqueRoutes (s.nodes n).table) hinit
    (fun _ _ _ hu hs => uniqueRoutes_step hu hs) n

end Network

end OnDemandRouting.Proofs
