import Mathlib.Data.List.Dedup
import OnDemandRouting.Proofs.Suppression

/-!
# Ports of local applications

The port map starts with the server's path under its reserved port.  Every other path
gets, at its first request, the next value of a counter that starts below the reserved
port and never skips it.  So the map is a function of the distinct client paths seen so
far, in their order, and ports identify applications exactly as long as the counter has
not gone past the reserved port.
-/

namespace OnDemandRouting.Proofs

open OnDemandRouting.Lib
open OnDemandRouting.Model

/-- The path a request comes from, unless it is the server's. -/
def NodeEvent.clientPath? : NodeEvent → Option String
  | .recv _ _ _ _ => none
  | .request _ sparams =>
      if sparams.filename = unixServPath then none else some sparams.filename

/-- The client paths from which requests came, latest first. -/
def clientPaths (h : List (NodeState × NodeEvent)) : List String :=
  h.filterMap fun x => x.2.clientPath?

/-- Ports identify applications: every registered path, the server's among them, gets its
own entry back under its port, and no two entries share a port or a path. -/
structure PortsIdentify (st : NodeState) : Prop where
  server_mem : unixServPath ∈ st.ports.map MapPortSp.sunPath
  lookup : ∀ p ∈ st.ports.map MapPortSp.sunPath, ∃ e e',
    fetchEntryPath p st.ports st.nextPortno = some (e, st.ports, st.nextPortno) ∧
      fetchEntryPort e.portno st.ports = some e' ∧ e'.sunPath = p
  ports_nodup : (st.ports.map MapPortSp.portno).Nodup
  paths_nodup : (st.ports.map MapPortSp.sunPath).Nodup

/-! ## The map that a list of client paths leads to -/

/-- The port map after the distinct client paths `cs`, latest first. -/
def portMap : List String → List MapPortSp
  | [] => [{ portno := servPort, sunPath := unixServPath }]
  | p :: cs => { portno := 909 + cs.length, sunPath := p } :: portMap cs

section PortMap

variable {p : String} {cs : List String} {e : MapPortSp}

@[simp] theorem map_sunPath_portMap (cs : List String) :
    (portMap cs).map MapPortSp.sunPath = cs ++ [unixServPath] := by
  induction cs with
  | nil => rfl
  | cons p cs ih => simp [portMap, ih]

theorem portMap_ne_nil (cs : List String) : portMap cs ≠ [] := by
  cases cs with
  | nil => simp [portMap]
  | cons p cs => simp [portMap]

theorem findKey_portMap_isSome (hp : p ∈ cs ++ [unixServPath]) :
    ∃ e, findKey MapPortSp.sunPath p (portMap cs) = some e := by
  rw [← map_sunPath_portMap, List.mem_map] at hp
  obtain ⟨e, he, hpath⟩ := hp
  exact findKey_isSome_of_mem he hpath

theorem findKey_portMap_eq_none (hp : p ∉ cs ++ [unixServPath]) :
    findKey MapPortSp.sunPath p (portMap cs) = none := by
  rw [← map_sunPath_portMap] at hp
  exact findKey_eq_none_iff.mpr fun e he hpath => hp (hpath ▸ List.mem_map_of_mem he)

theorem portno_of_mem_portMap (he : e ∈ portMap cs) :
    e.portno = servPort ∨ e.portno < 909 + cs.length := by
  induction cs with
  | nil =>
      obtain rfl := List.mem_singleton.mp he
      exact .inl rfl
  | cons p cs ih =>
      rw [List.length_cons]
      rcases List.mem_cons.mp he with rfl | he
      · right
        simp only
        omega
      · have := ih he
        omega

/-- Up to the reserved port the counter gives distinct ports. -/
theorem nodup_portno_portMap (hle : cs.length ≤ 4591) :
    ((portMap cs).map MapPortSp.portno).Nodup := by
  induction cs with
  | nil => simp [portMap]
  | cons p cs ih =>
      rw [List.length_cons] at hle
      rw [portMap, List.map_cons, List.nodup_cons]
      refine ⟨fun hmem => ?_, ih (by omega)⟩
      obtain ⟨e, he, hport⟩ := List.mem_map.mp hmem
      have hcases := portno_of_mem_portMap he
      simp only [servPort] at hcases hport
      omega

/-- Past it, the reserved port leads to a client. -/
theorem findKey_servPort_portMap (hlt : 4591 < cs.length) :
    ∃ e, findKey MapPortSp.portno servPort (portMap cs) = some e ∧ e.sunPath ∈ cs := by
  induction cs with
  | nil => simp at hlt
  | cons p cs ih =>
      rw [List.length_cons] at hlt
      by_cases hport : MapPortSp.portno ⟨909 + cs.length, p⟩ = servPort
      · exact ⟨⟨909 + cs.length, p⟩, by rw [portMap, ← hport, findKey_cons_self], by simp⟩
      · have hlt' : 4591 < cs.length := by
          simp only [servPort] at hport
          omega
        obtain ⟨e, he, hmem⟩ := ih hlt'
        exact ⟨e, by rw [portMap, findKey_cons_of_ne hport, he], List.mem_cons_of_mem _ hmem⟩

theorem findKey_unixServPath_portMap (hserv : unixServPath ∉ cs) :
    findKey MapPortSp.sunPath unixServPath (portMap cs) =
      some { portno := servPort, sunPath := unixServPath } := by
  induction cs with
  | nil => rfl
  | cons p cs ih =>
      obtain ⟨hne, hcs⟩ := not_or.mp (List.mem_cons.not.mp hserv)
      rw [portMap, findKey_cons_of_ne (Ne.symm hne), ih hcs]

end PortMap

/-! ## What a call does to the map -/

section Step

variable {p : String} {ports : List MapPortSp} {n : Int} {e : MapPortSp} {cfg : Config}
  {st : NodeState}

/-- A path whose lookup leaves the map as it is has an entry there. -/
theorem fetchEntryPath_eq_self_iff (hne : ports ≠ []) :
    fetchEntryPath p ports n = some (e, ports, n) ↔
      findKey MapPortSp.sunPath p ports = some e := by
  rw [fetchEntryPath, if_neg hne]
  cases hfind : findKey MapPortSp.sunPath p ports with
  | none => simp
  | some e' => simp

theorem handleRemoteMsg_ports (cfg : Config) (env : Env) (sparams : SendParams) (portno : Int)
    (st : NodeState) :
    (handleRemoteMsg cfg env sparams portno st).node.ports = st.ports ∧
      (handleRemoteMsg cfg env sparams portno st).node.nextPortno = st.nextPortno := by
  simp only [handleRemoteMsg]
  split
  · split <;> exact ⟨rfl, rfl⟩
  · split <;> exact ⟨rfl, rfl⟩

theorem handleLocalMsg_node (cfg : Config) (env : Env) (sparams : SendParams) (portno : Int)
    (st : NodeState) : (handleLocalMsg cfg env sparams portno st : Outcome).node = st := by
  unfold handleLocalMsg
  split <;> rfl

/-- A request changes the map by its `fetch_entry_path` call only. -/
theorem handlePeerMsg_ports (cfg : Config) {mapEntry : MapPortSp} (env : Env)
    {sparams : SendParams}
    (hpath : fetchEntryPath sparams.filename st.ports st.nextPortno =
      some (mapEntry, ports, n)) :
    (handlePeerMsg cfg env sparams st).node.ports = ports ∧
      (handlePeerMsg cfg env sparams st).node.nextPortno = n := by
  simp only [handlePeerMsg, hpath]
  split_ifs
  · rw [handleLocalMsg_node]
    exact ⟨rfl, rfl⟩
  · exact handleRemoteMsg_ports ..
  · exact ⟨rfl, rfl⟩

theorem react_nextPortno (cfg : Config) (env : Env) (intfN : Int) (f : OdrFrame) (l : Learned)
    (dest : Option REntry) (st : NodeState) (type : FrameType) :
    (react cfg env intfN f l dest st type).node.nextPortno = st.nextPortno := by
  cases type with
  | rreq =>
      simp only [react, handleRreq, fields_odrFrame]
      split_ifs
      · rfl
      all_goals cases dest <;> rfl
  | rrep =>
      simp only [react, handleRrep, fields_odrFrame, lookupPendingQueue_list]
      split_ifs
      · split
        · rfl
        · unfold releaseFrame
          split <;> rfl
      · cases dest <;> rfl
  | data =>
      simp only [react, handleData, fields_odrFrame]
      split_ifs
      · rfl
      · cases dest <;> rfl
  | asent => rfl

theorem handleEthernetMsg_ports (cfg : Config) (env : Env) (intfN : Int) (addr : Mac)
    (buf : OdrFrame) (st : NodeState) :
    (handleEthernetMsg cfg env intfN addr buf st).node.ports = st.ports ∧
      (handleEthernetMsg cfg env intfN addr buf st).node.nextPortno = st.nextPortno := by
  rcases handleEthernetMsg_cases cfg env intfN addr buf st with
    ⟨-, heq⟩ | ⟨-, -, exit, -, heq⟩ | ⟨type, -, heq⟩
  · rw [heq]
    exact ⟨rfl, rfl⟩
  · rw [heq]
    exact ⟨rfl, rfl⟩
  · rw [heq, Reaction.outcome_node, reaction]
    exact ⟨react_state.ports, react_nextPortno ..⟩

/-- The entry of a path outlives every call. -/
theorem findKey_ports_step (ev : NodeEvent)
    (h : findKey MapPortSp.sunPath p st.ports = some e) :
    findKey MapPortSp.sunPath p (nodeOutcome cfg st ev).node.ports = some e := by
  cases ev with
  | recv env intfN addr buf =>
      rw [nodeOutcome, (handleEthernetMsg_ports ..).1]
      exact h
  | request env sparams =>
      have hne : st.ports ≠ [] := by
        rintro hnil
        simp [hnil] at h
      have hpath := fetchEntryPath.eq_def sparams.filename st.ports st.nextPortno
      rw [if_neg hne] at hpath
      cases hfind : findKey MapPortSp.sunPath sparams.filename st.ports with
      | some curr =>
          rw [hfind] at hpath
          rw [nodeOutcome, (handlePeerMsg_ports cfg env hpath).1]
          exact h
      | none =>
          rw [hfind] at hpath
          rw [nodeOutcome, (handlePeerMsg_ports cfg env hpath).1]
          refine (findKey_cons_of_ne ?_).trans h
          rintro rfl
          simp [h] at hfind

end Step

/-! ## Runs -/

section Run

variable {cfg : Config} {st : NodeState} {h : List (NodeState × NodeEvent)}

theorem unixServPath_notMem_clientPaths (h : List (NodeState × NodeEvent)) :
    unixServPath ∉ clientPaths h := by
  intro hmem
  obtain ⟨⟨st, ev⟩, _, hx⟩ := List.mem_filterMap.mp hmem
  cases ev with
  | recv env intfN addr buf => simp [NodeEvent.clientPath?] at hx
  | request env sparams =>
      simp only [NodeEvent.clientPath?] at hx
      split_ifs at hx with hserv
      exact hserv (Option.some.inj hx)

/-- A request from a registered path leaves the map as it is. -/
theorem request_of_registered (cfg : Config) (env : Env) {cs : List String}
    {sparams : SendParams}
    (hports : st.ports = portMap cs) (hp : sparams.filename ∈ cs ++ [unixServPath]) :
    (handlePeerMsg cfg env sparams st).node.ports = st.ports ∧
      (handlePeerMsg cfg env sparams st).node.nextPortno = st.nextPortno := by
  obtain ⟨e, he⟩ := findKey_portMap_isSome hp
  rw [← hports] at he
  have hne : st.ports ≠ [] := hports ▸ portMap_ne_nil cs
  exact handlePeerMsg_ports cfg env ((fetchEntryPath_eq_self_iff hne).mpr he)

/-- A request from a new path registers it under the next port. -/
theorem request_of_new (cfg : Config) (env : Env) {cs : List String} {sparams : SendParams}
    (hports : st.ports = portMap cs) (hnext : st.nextPortno = 909 + cs.length)
    (hp : sparams.filename ∉ cs ++ [unixServPath]) :
    (handlePeerMsg cfg env sparams st).node.ports = portMap (sparams.filename :: cs) ∧
      (handlePeerMsg cfg env sparams st).node.nextPortno =
        909 + (sparams.filename :: cs).length := by
  have hpath : fetchEntryPath sparams.filename st.ports st.nextPortno =
      some (⟨st.nextPortno, sparams.filename⟩,
        ⟨st.nextPortno, sparams.filename⟩ :: st.ports, st.nextPortno + 1) := by
    rw [fetchEntryPath, hports, if_neg (portMap_ne_nil cs), findKey_portMap_eq_none hp]
  obtain ⟨hports', hnext'⟩ := handlePeerMsg_ports cfg env hpath
  refine ⟨?_, ?_⟩
  · rw [hports', hports, hnext, portMap]
  · rw [hnext', hnext, List.length_cons]
    push_cast
    omega

/-- The map is a function of the client paths seen so far. -/
theorem ports_of_trace (ht : Trace (nodeStep cfg) .initial h st) :
    st.ports = portMap (clientPaths h).dedup ∧
      st.nextPortno = 909 + (clientPaths h).dedup.length := by
  induction ht with
  | nil => exact ⟨rfl, rfl⟩
  | snoc _ hs ih =>
      rename_i h st _ ev _
      obtain rfl := Option.some.inj hs
      cases ev with
      | recv env intfN addr buf =>
          have hkeep := handleEthernetMsg_ports cfg env intfN addr buf st
          exact ⟨hkeep.1.trans ih.1, hkeep.2.trans ih.2⟩
      | request env sparams =>
          by_cases hserv : sparams.filename = unixServPath
          · have hpaths : clientPaths ((st, .request env sparams) :: h) = clientPaths h := by
              simp [clientPaths, NodeEvent.clientPath?, hserv]
            have hkeep := request_of_registered cfg env ih.1
              (List.mem_append_right _ (List.mem_singleton.mpr hserv))
            rw [hpaths]
            exact ⟨hkeep.1.trans ih.1, hkeep.2.trans ih.2⟩
          · have hpaths : clientPaths ((st, .request env sparams) :: h) =
                sparams.filename :: clientPaths h := by
              simp [clientPaths, NodeEvent.clientPath?, hserv]
            rw [hpaths]
            by_cases hmem : sparams.filename ∈ clientPaths h
            · have hkeep := request_of_registered cfg env ih.1
                (List.mem_append_left _ (List.mem_dedup.mpr hmem))
              rw [List.dedup_cons_of_mem hmem]
              exact ⟨hkeep.1.trans ih.1, hkeep.2.trans ih.2⟩
            · rw [List.dedup_cons_of_notMem hmem]
              refine request_of_new cfg env ih.1 ih.2 ?_
              simp [hmem, hserv]

theorem portsIdentify_iff {cs : List String} (hports : st.ports = portMap cs) (hcs : cs.Nodup)
    (hserv : unixServPath ∉ cs) : PortsIdentify st ↔ cs.length ≤ 4591 := by
  have hne : st.ports ≠ [] := hports ▸ portMap_ne_nil cs
  constructor
  · intro hid
    by_contra hlt
    obtain ⟨e, e', hpath, hport, hsun⟩ := hid.lookup unixServPath hid.server_mem
    rw [fetchEntryPath_eq_self_iff hne, hports, findKey_unixServPath_portMap hserv] at hpath
    obtain rfl := Option.some.inj hpath
    obtain ⟨c, hc, hmem⟩ := findKey_servPort_portMap (Nat.lt_of_not_le hlt)
    rw [fetchEntryPort, hports, hc] at hport
    obtain rfl := Option.some.inj hport
    exact hserv (hsun ▸ hmem)
  · intro hle
    have hnodup : (st.ports.map MapPortSp.portno).Nodup := hports ▸ nodup_portno_portMap hle
    refine ⟨by simp [hports], fun p hp => ?_, hnodup, ?_⟩
    · rw [hports, map_sunPath_portMap] at hp
      obtain ⟨e, he⟩ := findKey_portMap_isSome hp
      rw [← hports] at he
      obtain ⟨hmem, hpath⟩ := mem_of_findKey he
      exact ⟨e, e, (fetchEntryPath_eq_self_iff hne).mpr he, findKey_of_mem hnodup hmem, hpath⟩
    · rw [hports, map_sunPath_portMap, List.nodup_append]
      refine ⟨hcs, List.nodup_singleton _, ?_⟩
      rintro p hp _ hq rfl
      exact hserv (List.mem_singleton.mp hq ▸ hp)

/-- In every state of a daemon, ports identify applications exactly when at most 4591
different client paths have made requests.  The port of a path never changes. -/
theorem ports_identify_iff_few_clients (ht : Trace (nodeStep cfg) .initial h st) :
    (PortsIdentify st ↔ (clientPaths h).dedup.length ≤ 4591) ∧
    ∀ x ∈ h, ∀ p e,
      fetchEntryPath p x.1.ports x.1.nextPortno = some (e, x.1.ports, x.1.nextPortno) →
      fetchEntryPath p st.ports st.nextPortno = some (e, st.ports, st.nextPortno) := by
  refine ⟨portsIdentify_iff (ports_of_trace ht).1 (List.nodup_dedup _) ?_, ?_⟩
  · rw [List.mem_dedup]
    exact unixServPath_notMem_clientPaths h
  · intro x hx p e he
    obtain ⟨h₀, h₁, st₁, -, ht₀, hs₁, ht₁⟩ := ht.of_mem_history hx
    have hne₀ : x.1.ports ≠ [] := (ports_of_trace ht₀).1 ▸ portMap_ne_nil _
    have hne : st.ports ≠ [] := (ports_of_trace ht).1 ▸ portMap_ne_nil _
    rw [fetchEntryPath_eq_self_iff hne₀] at he
    rw [fetchEntryPath_eq_self_iff hne]
    refine ht₁.invariant (I := fun st => findKey MapPortSp.sunPath p st.ports = some e) ?_ ?_
    · obtain rfl := Option.some.inj hs₁
      exact findKey_ports_step x.2 he
    · intro st ev st' hst hs
      obtain rfl := Option.some.inj hs
      exact findKey_ports_step ev hst

end Run

/-! ## Many clients of the local server -/

/-- A client of this node asks the server of this node for the time. -/
def localRequest (cfg : Config) (path : String) : NodeEvent :=
  .request (.reliable 0) { messageFor cfg.selfIp with filename := path }

theorem server_mem_portMap (cs : List String) :
    { portno := servPort, sunPath := unixServPath } ∈ portMap cs := by
  induction cs with
  | nil => simp [portMap]
  | cons p cs ih => exact List.mem_cons_of_mem _ ih

theorem localRequest_exit (cfg : Config) (path : String) {st : NodeState} {cs : List String}
    (hports : st.ports = portMap cs) :
    (nodeOutcome cfg st (localRequest cfg path)).exit = .returned 1 := by
  have hserv : { portno := servPort, sunPath := unixServPath } ∈ st.ports :=
    hports ▸ server_mem_portMap cs
  obtain ⟨r, hr, hmem⟩ : ∃ r, fetchEntryPath path st.ports st.nextPortno = some r ∧
      { portno := servPort, sunPath := unixServPath } ∈ r.2.1 := by
    rw [fetchEntryPath, if_neg (List.ne_nil_of_mem hserv)]
    cases findKey MapPortSp.sunPath path st.ports with
    | some curr => exact ⟨_, rfl, hserv⟩
    | none => exact ⟨_, rfl, List.mem_cons_of_mem _ hserv⟩
  obtain ⟨e, he⟩ : ∃ e, fetchEntryPort servPort r.2.1 = some e := findKey_isSome_of_mem hmem rfl
  simp [nodeOutcome, localRequest, handlePeerMsg, hr, Env.reliable, messageFor, handleLocalMsg, he]

/-- Requests of local clients, latest first, are served one after the other. -/
theorem trace_localRequests (cfg : Config) (paths : List String) :
    ∃ h st, Trace (nodeStep cfg) .initial h st ∧
      h.map Prod.snd = paths.map (localRequest cfg) ∧
      ∀ x ∈ h, (nodeOutcome cfg x.1 x.2).exit = .returned 1 := by
  induction paths with
  | nil => exact ⟨[], .initial, .nil, rfl, by simp⟩
  | cons p paths ih =>
      obtain ⟨h, st, ht, hevents, hexit⟩ := ih
      refine ⟨(st, localRequest cfg p) :: h, _, ht.snoc rfl, by simp [hevents], ?_⟩
      exact List.forall_mem_cons.mpr ⟨localRequest_exit cfg p (ports_of_trace ht).1, hexit⟩

theorem clientPaths_localRequests {cfg : Config} {h : List (NodeState × NodeEvent)}
    {paths : List String} (hserv : unixServPath ∉ paths)
    (hevents : h.map Prod.snd = paths.map (localRequest cfg)) : clientPaths h = paths := by
  have hpath : ∀ p ∈ paths, (localRequest cfg p).clientPath? = some p := by
    intro p hp
    have hne : p ≠ unixServPath := fun heq => hserv (heq ▸ hp)
    exact if_neg hne
  calc clientPaths h
      = (h.map Prod.snd).filterMap NodeEvent.clientPath? := by
        rw [List.filterMap_map]
        rfl
    _ = paths.filterMap fun p => (localRequest cfg p).clientPath? := by
        rw [hevents, List.filterMap_map]
        rfl
    _ = paths.filterMap some := List.filterMap_congr hpath
    _ = paths := List.filterMap_some

theorem two_clients_identified :
    ∃ h st, Trace (nodeStep (lineNet.cfg 0)) .initial h st ∧
      (clientPaths h).dedup.length = 2 ∧ PortsIdentify st ∧
      ∀ x ∈ h, ∀ p e,
        fetchEntryPath p x.1.ports x.1.nextPortno = some (e, x.1.ports, x.1.nextPortno) →
        fetchEntryPath p st.ports st.nextPortno = some (e, st.ports, st.nextPortno) := by
  obtain ⟨h, st, ht, hevents, -⟩ := trace_localRequests (lineNet.cfg 0) ["/tmp/b", "/tmp/a"]
  have hcount : (clientPaths h).dedup.length = 2 := by
    rw [clientPaths_localRequests (by decide) hevents]
    decide
  obtain ⟨hiff, hsame⟩ := ports_identify_iff_few_clients ht
  exact ⟨h, st, ht, hcount, hiff.mpr (by omega), hsame⟩

/-- The letter with the given number. -/
def letter (n : Nat) : Char := Char.ofNat (97 + n % 26)

/-- The name of a temporary file. -/
def tempPath (i : Nat) : String :=
  "/tmp/" ++ String.ofList [letter (i / 676), letter (i / 26), letter i]

theorem letter_inj {m n : Nat} (h : letter m = letter n) : m % 26 = n % 26 := by
  have hdec : ∀ a b : Fin 26, Char.ofNat (97 + a) = Char.ofNat (97 + b) → a = b := by decide
  have hfin := hdec ⟨m % 26, Nat.mod_lt _ (by decide)⟩ ⟨n % 26, Nat.mod_lt _ (by decide)⟩ h
  exact congrArg Fin.val hfin

theorem tempPath_inj {i j : Nat} (hi : i < 17576) (hj : j < 17576) (h : tempPath i = tempPath j) :
    i = j := by
  have hlist := congrArg String.toList h
  simp only [tempPath, String.toList_append, String.toList_ofList, List.append_cancel_left_eq,
    List.cons.injEq, and_true] at hlist
  have h₁ := letter_inj hlist.1
  have h₂ := letter_inj hlist.2.1
  have h₃ := letter_inj hlist.2.2
  omega

theorem tempPath_length (i : Nat) : (tempPath i).length < 100 := by
  have hlen : (tempPath i).length = 8 := by
    simp only [tempPath, ← String.length_toList, String.toList_append, List.length_append,
      String.toList_ofList]
    rfl
  omega

/-- The client that comes as the 4592nd is given the server's port, and messages for the
server go to it from then on. -/
theorem server_port_shadowed :
    ∃ h st, Trace (nodeStep (lineNet.cfg 0)) .initial h st ∧
      h.map Prod.snd =
        (((List.range 4592).map tempPath).map (localRequest (lineNet.cfg 0))).reverse ∧
      (∀ i, (tempPath i).length < 100) ∧
      (∀ x ∈ h, (nodeOutcome (lineNet.cfg 0) x.1 x.2).exit = .returned 1) ∧
      ¬ PortsIdentify st ∧
      ∃ e, fetchEntryPort servPort st.ports = some e ∧ e.sunPath ≠ unixServPath := by
  obtain ⟨h, st, ht, hevents, hexit⟩ :=
    trace_localRequests (lineNet.cfg 0) ((List.range 4592).map tempPath).reverse
  have hserv : unixServPath ∉ ((List.range 4592).map tempPath).reverse := by
    intro hmem
    obtain ⟨i, -, hi⟩ := List.mem_map.mp (List.mem_reverse.mp hmem)
    have hlist := congrArg String.toList hi
    simp [tempPath, unixServPath] at hlist
  have hnodup : ((List.range 4592).map tempPath).reverse.Nodup := by
    rw [List.nodup_reverse]
    refine List.Nodup.map_on ?_ List.nodup_range
    intro i hi j hj
    rw [List.mem_range] at hi hj
    exact tempPath_inj (by omega) (by omega)
  have hports := (ports_of_trace ht).1
  rw [clientPaths_localRequests hserv hevents, hnodup.dedup] at hports
  have hcount : 4591 < ((List.range 4592).map tempPath).reverse.length := by simp
  obtain ⟨e, he, hmem⟩ := findKey_servPort_portMap hcount
  refine ⟨h, st, ht, by rw [hevents, List.map_reverse], tempPath_length, hexit, ?_,
    e, by rw [hports]; exact he, fun heq => hserv (heq ▸ hmem)⟩
  rw [portsIdentify_iff hports hnodup hserv]
  omega

end OnDemandRouting.Proofs
