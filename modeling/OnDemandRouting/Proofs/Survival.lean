import OnDemandRouting.Proofs.Conservation
import OnDemandRouting.Proofs.Ports
import OnDemandRouting.Proofs.Progress

/-!
# When a daemon leaves its loop

`main` returns when a handler reports a failure, and an assertion ends the process.
In a closed network in which names resolve and sends go through, frames from the
network never lead there: their types are known and every entry names an interface
that exists.  A request leads there in one case only, when it is for a port of the
node itself and nobody has that port.
-/

namespace OnDemandRouting.Proofs

open OnDemandRouting.Lib
open OnDemandRouting.Model

/-! ## Port maps in a network -/

/-- The port map after the client paths `cs` have been registered, latest first. -/
structure PortsFor (cs : List String) (st : NodeState) : Prop where
  ports : st.ports = portMap cs
  next : st.nextPortno = 909 + cs.length
  nodup : cs.Nodup
  server : unixServPath ∉ cs

section Handlers

variable {cfg : Config} {env : Env} {intfN : Int} {addr : Mac} {f buf : OdrFrame} {l : Learned}
  {dest : Option REntry} {st : NodeState} {type : FrameType} {sparams : SendParams}
  {cs : List String}

theorem portsFor_initial : PortsFor [] NodeState.initial := ⟨rfl, rfl, List.nodup_nil, by simp⟩

theorem PortsFor.ethernet (h : PortsFor cs st) :
    PortsFor cs (handleEthernetMsg cfg env intfN addr buf st).node := by
  obtain ⟨hports, hnext⟩ := handleEthernetMsg_ports cfg env intfN addr buf st
  exact ⟨hports.trans h.ports, hnext.trans h.next, h.nodup, h.server⟩

/-- The paths registered after a request. -/
def withPath (path : String) (cs : List String) : List String :=
  if path ∈ cs ++ [unixServPath] then cs else path :: cs

theorem PortsFor.peer (h : PortsFor cs st) :
    PortsFor (withPath sparams.filename cs) (handlePeerMsg cfg env sparams st).node := by
  unfold withPath
  split_ifs with hpath
  · obtain ⟨hports, hnext⟩ := request_of_registered cfg env h.ports hpath
    exact ⟨hports.trans h.ports, hnext.trans h.next, h.nodup, h.server⟩
  · obtain ⟨hports, hnext⟩ := request_of_new cfg env h.ports h.next hpath
    rw [List.mem_append, List.mem_singleton, not_or] at hpath
    refine ⟨hports, hnext, List.nodup_cons.mpr ⟨hpath.1, h.nodup⟩, fun hmem => ?_⟩
    rcases List.mem_cons.mp hmem with heq | hmem
    · exact hpath.2 heq.symm
    · exact h.server hmem

/-! ## Exits of the handlers -/

/-- With the interfaces of the two entries there, every case has a plan. -/
theorem react_plan_ok (henv : env.Succeeds) (hl : HasInterface cfg l.entry)
    (hd : ∀ d, dest = some d → HasInterface cfg d) :
    ∃ ts, (react cfg env intfN f l dest st type).plan = .ok ts := by
  have hpark : ∃ ts, (parkFrame cfg env intfN f st).plan = .ok ts := by
    simp only [parkFrame, henv.resolves, if_true]
    exact ⟨_, rfl⟩
  cases type with
  | rreq =>
      simp only [react, handleRreq, fields_odrFrame]
      by_cases hself : f.destIp = cfg.selfIp
      · rw [if_pos hself]
        obtain ⟨t, ht⟩ := sendRrepPacket_plan hl f 0 true st.counter
        exact ⟨_, ht⟩
      · rw [if_neg hself]
        cases dest with
        | none => exact ⟨_, rfl⟩
        | some d =>
            obtain ⟨t, ht⟩ := sendRrepPacket_plan hl f d.noHops true st.counter
            simp only [ht, Except.map]
            exact ⟨_, rfl⟩
  | rrep =>
      simp only [react, handleRrep, fields_odrFrame, lookupPendingQueue_list]
      by_cases hself : f.destIp = cfg.selfIp
      · rw [if_pos hself]
        cases hq : lookupPendingQueue f.srcIp st.pending with
        | none => exact ⟨_, rfl⟩
        | some q =>
            simp only [releaseFrame, fields_odrFrame]
            split
            · obtain ⟨t, ht⟩ := sendRrepPacket_plan hl q.1 q.1.hopCount false st.counter
              exact ⟨_, ht⟩
            · obtain ⟨t, ht, _⟩ := sendAlong_eq hl (convertHostNetOrder q.1)
              exact ⟨_, ht⟩
            · exact ⟨_, rfl⟩
      · rw [if_neg hself]
        cases dest with
        | none => exact hpark
        | some d =>
            obtain ⟨t, ht⟩ := sendRrepPacket_plan (hd d rfl) f l.entry.noHops false st.counter
            exact ⟨_, ht⟩
  | data =>
      simp only [react, handleData, fields_odrFrame]
      by_cases hself : f.destIp = cfg.selfIp
      · rw [if_pos hself]
        exact ⟨_, rfl⟩
      · rw [if_neg hself]
        cases dest with
        | none => exact hpark
        | some d =>
            obtain ⟨t, ht, _⟩ := sendAlong_eq (hd d rfl)
              (convertHostNetOrder { f with hopCount := l.entry.noHops })
            exact ⟨_, ht⟩
  | asent => exact ⟨_, rfl⟩

/-- A request for a port of this node that nobody has. -/
def AsksUnknownPort (cfg : Config) (sparams : SendParams) (st : NodeState) : Prop :=
  sparams.destip = cfg.selfIp ∧ ∃ r,
    fetchEntryPath sparams.filename st.ports st.nextPortno = some r ∧
      fetchEntryPort sparams.destport r.2.1 = none

/-- Such a request is the only one that ends the daemon. -/
theorem handlePeerMsg_stops_iff (sparams : SendParams) (henv : env.Succeeds)
    (hports : st.ports ≠ []) (he : ∀ e ∈ st.table, HasInterface cfg e) :
    (handlePeerMsg cfg env sparams st).exit.survives = false ↔
      AsksUnknownPort cfg sparams st := by
  obtain ⟨⟨mapEntry, ports, nextPortno⟩, hpath⟩ :
      ∃ r, fetchEntryPath sparams.filename st.ports st.nextPortno = some r := by
    rw [fetchEntryPath, if_neg hports]
    split
    · exact ⟨_, rfl⟩
    · exact ⟨_, rfl⟩
  by_cases hself : cfg.selfIp = sparams.destip
  · have heq : handlePeerMsg cfg env sparams st = handleLocalMsg cfg env sparams
        mapEntry.portno { st with ports := ports, nextPortno := nextPortno } := by
      simp [handlePeerMsg, hpath, henv.resolves, hself]
    rw [heq, handleLocalMsg]
    cases hport : fetchEntryPort sparams.destport ports with
    | none => simp [AsksUnknownPort, hself, hpath, hport, Exit.survives]
    | some e => simp [AsksUnknownPort, hpath, hport, Exit.survives, henv.peerOk]
  · have heq : handlePeerMsg cfg env sparams st = handleRemoteMsg cfg env sparams
        mapEntry.portno { st with ports := ports, nextPortno := nextPortno } := by
      simp [handlePeerMsg, hpath, henv.resolves, hself]
    have hnot : ¬ AsksUnknownPort cfg sparams st := fun h => hself h.1.symm
    refine ⟨fun hdies => ?_, fun h => absurd h hnot⟩
    rw [heq] at hdies
    simp only [handleRemoteMsg, getREntry_list, bind_entryAt_list,
      sendRawFrames_of_linksUp henv.toLinksUp] at hdies
    split at hdies
    · simp [Exit.survives] at hdies
    · next e hentry =>
        obtain ⟨t, ht⟩ := sendDataMessage_eq (he e (route_mem (getREntry_entry hentry).1).1)
          cfg.selfIp mapEntry.portno sparams
        rw [ht] at hdies
        simp [Exit.survives] at hdies

end Handlers

/-! ## Runs -/

variable {Node : Type} [DecidableEq Node] {T : Topology Node}

section Step

variable {s s' : Net Node} {a : Action Node} {n : Node}

theorem portsFor_step (hports : ∀ n, ∃ cs, PortsFor cs (s.nodes n))
    (hs : T.step s a = some s') (n : Node) : ∃ cs, PortsFor cs (s'.nodes n) := by
  rcases step_cases hs with ⟨m, sparams, env, rfl, rfl⟩ | ⟨k, env, p, rfl, hk, rfl⟩
  · obtain ⟨cs, hm⟩ := hports m
    exact forall_nodes_takeRequest (fun _ st => ∃ cs, PortsFor cs st) hports ⟨_, hm.peer⟩ n
  · obtain ⟨cs, hp⟩ := hports p.dst
    exact forall_nodes_deliverPacket (fun _ st => ∃ cs, PortsFor cs st) hports ⟨cs, hp.ethernet⟩ n

theorem portsFor_of_trace {h : List (Net Node × Action Node)}
    (ht : Trace T.step (Net.initial Node) h s) (n : Node) : ∃ cs, PortsFor cs (s.nodes n) :=
  ht.invariant (I := fun s => ∀ n, ∃ cs, PortsFor cs (s.nodes n))
    (fun _ => ⟨[], portsFor_initial⟩) (fun _ _ _ hI hs => portsFor_step hI hs) n

/-- A frame from the network never ends a daemon. -/
theorem handleEthernetMsg_survives {env : Env} {p : Packet Node} (hwf : FramesWf T s)
    (hroutes : RoutesExist T s) (henv : env.Succeeds) (hp : p ∈ s.flight) :
    (handleEthernetMsg (T.cfg p.dst) env p.ifIndex p.srcMac p.frame
      (s.nodes p.dst)).exit.survives = true := by
  obtain ⟨type, htype⟩ := (hwf.flight p hp).1.type_ok
  rcases handleEthernetMsg_cases (T.cfg p.dst) env p.ifIndex p.srcMac p.frame (s.nodes p.dst)
    with ⟨_, heq⟩ | ⟨_, hbad, _⟩ | ⟨type, _, heq⟩
  · rw [heq]
    rfl
  · exfalso
    rcases hbad with hnames | hnone
    · exact hnames ⟨henv.resolves _, henv.resolves _⟩
    · rw [Packet.host_eq, hnone] at htype
      simp at htype
  · obtain ⟨m, hlearned⟩ := nextHop_learned env hwf hroutes hp
    obtain ⟨ts, hplan⟩ : ∃ ts, (reaction (T.cfg p.dst) env p.ifIndex p.srcMac p.host
        (s.nodes p.dst) type).plan = .ok ts :=
      react_plan_ok henv hlearned.hasInterface
        fun d hd => (nextHop_dest hwf hroutes hp hd).choose_spec.hasInterface
    rw [Packet.host_eq] at hplan
    rw [heq, Reaction.outcome, hplan]
    simp [sendRawFrames_of_linksUp henv.toLinksUp, Exit.survives]

/-- The step is a request at `n` that ends its daemon. -/
def StopsAt (T : Topology Node) (n : Node) (x : Net Node × Action Node) : Prop :=
  ∃ sparams env, x.2 = .request n sparams env ∧ AsksUnknownPort (T.cfg n) sparams (x.1.nodes n)

theorem alive_step (hwf : FramesWf T s) (hroutes : RoutesExist T s)
    (hports : ∀ n, ∃ cs, PortsFor cs (s.nodes n)) (henv : a.env.Succeeds)
    (hs : T.step s a = some s') :
    s'.alive n = false ↔ s.alive n = false ∨ StopsAt T n (s, a) := by
  rcases step_cases hs with ⟨m, sparams, env, rfl, rfl⟩ | ⟨k, env, p, rfl, hk, rfl⟩
  · have halive : s.alive m = true := by
      by_contra hdead
      simp [Topology.step, hdead] at hs
    by_cases hn : n = m
    · subst hn
      obtain ⟨cs, hcs⟩ := hports n
      have hstops : (handlePeerMsg (T.cfg n) env sparams (s.nodes n)).exit.survives = false ↔
          AsksUnknownPort (T.cfg n) sparams (s.nodes n) :=
        handlePeerMsg_stops_iff sparams henv (hcs.ports ▸ portMap_ne_nil cs)
          fun e he => (hroutes n e he).choose_spec.hasInterface
      simp only [Topology.takeRequest, Function.update_self, halive, Bool.true_eq_false, false_or]
      rw [hstops]
      constructor
      · exact fun h => ⟨sparams, env, rfl, h⟩
      · rintro ⟨sparams', env', ha, h⟩
        obtain ⟨_, rfl, _⟩ := Action.request.inj ha
        exact h
    · have hnot : ¬ StopsAt T n (s, .request m sparams env) := by
        rintro ⟨_, _, ha, _⟩
        exact hn (Action.request.inj ha).1.symm
      simp [Topology.takeRequest, hn, hnot]
  · have hnot : ¬ StopsAt T n (s, .deliver k env) := by
      rintro ⟨_, _, ha, _⟩
      simp at ha
    have halive : s.alive p.dst = true := by
      by_contra hdead
      simp [Topology.step, hk, hdead] at hs
    have hsurvives : (handleEthernetMsg (T.cfg p.dst) env p.ifIndex p.srcMac p.frame
        (s.nodes p.dst)).exit.survives = true :=
      handleEthernetMsg_survives hwf hroutes henv (List.mem_of_getElem? hk)
    by_cases hn : n = p.dst
    · subst hn
      simp [Topology.deliverPacket, hsurvives, halive, hnot]
    · simp [Topology.deliverPacket, hn, hnot]

end Step

/-- In every run in which names resolve and frames and datagrams get sent, a daemon has left
its loop exactly if an application on its node has asked for a port of that same node that
nobody had. -/
theorem daemon_stops_iff {h : List (Net Node × Action Node)} {s : Net Node}
    (ht : Trace T.step (Net.initial Node) h s) (henv : ∀ x ∈ h, x.2.env.Succeeds) (n : Node) :
    s.alive n = false ↔ ∃ x ∈ h, StopsAt T n x := by
  induction ht with
  | nil => simp [Net.initial]
  | snoc ht hs ih =>
      obtain ⟨hlast, hbefore⟩ := List.forall_mem_cons.mp henv
      rw [alive_step (framesWf_of_trace quiet_initial ht) (routesExist_of_trace ht)
        (portsFor_of_trace ht) hlast hs, ih hbefore, or_comm]
      simp only [List.mem_cons, exists_eq_or_imp]

theorem lineRequest_stops : ∃ h s, Trace lineNet.step (Net.initial (Fin 3)) h s ∧
    (∃ x ∈ h, StopsAt lineNet 0 x) ∧ ¬ ∃ x ∈ h, StopsAt lineNet 1 x := by
  obtain ⟨h, s, ht, hp, henv⟩ := Trace.exists_of_exec_forall lineNet.step (Net.initial (Fin 3))
    [.request 1 (messageFor "10.0.0.2") (.reliable 0),
      .request 0 { messageFor "10.0.0.1" with destport := 80 } (.reliable 0)]
    (fun _ s => decide (s.alive 0 = false ∧ s.alive 1 = true))
    (P := fun a => a.env.Succeeds) (by simp [Action.env, Env.reliable_succeeds])
    (by decide +kernel)
  obtain ⟨hdead, halive⟩ := of_decide_eq_true hp
  refine ⟨h, s, ht, (daemon_stops_iff ht henv 0).mp hdead, fun hstops => ?_⟩
  have hdead' := (daemon_stops_iff ht henv 1).mpr hstops
  rw [halive] at hdead'
  exact absurd hdead' (by decide)

end OnDemandRouting.Proofs
