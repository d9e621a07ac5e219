import OnDemandRouting.Lib.Post
import OnDemandRouting.Model.Apps
import OnDemandRouting.Proofs.Survival
import OnDemandRouting.Proofs.Transparency

/-!
# What the applications and the daemons say to each other

The texts on the sockets, the messages on their way and the port maps, each tied to the
letter of `Lib.Post` that it stands for.  A client is known at the daemon of its node by the
port that `fetch_entry_path` gave it, and that port stays its own as long as no more than
4591 clients of the node have sent something.
-/

namespace OnDemandRouting.Proofs

open OnDemandRouting.Lib
open OnDemandRouting.Model

/-! ## Calls of a daemon -/

section Calls

variable {cfg : Config} {env : Env} {st : NodeState} {sparams : SendParams} {e pe : MapPortSp}
  {ports : List MapPortSp} {next : Int}

/-- A call whose datagram, if it sends one, finds its socket. -/
def heard (env : Env) : Env := { env with peerOk := true }

theorem heard_succeeds (h : env.LinksUp) : (heard env).Succeeds :=
  ⟨⟨h.resolves, h.sendOk⟩, rfl⟩

/-- After `fetch_entry_path` the path has the entry that it returned. -/
theorem fetchEntryPath_spec (path : String) (next : Int) (hne : ports ≠ []) :
    ∃ e ports' next', fetchEntryPath path ports next = some (e, ports', next') ∧
      findKey MapPortSp.sunPath path ports' = some e := by
  rw [fetchEntryPath, if_neg hne]
  cases hfind : findKey MapPortSp.sunPath path ports with
  | some curr => exact ⟨curr, ports, next, rfl, hfind⟩
  | none => exact ⟨_, _, _, rfl, findKey_cons_self⟩

theorem handlePeerMsg_of_local (henv : env.LinksUp)
    (hpath : fetchEntryPath sparams.filename st.ports st.nextPortno = some (e, ports, next))
    (hself : cfg.selfIp = sparams.destip)
    (hport : fetchEntryPort sparams.destport ports = some pe) :
    (handlePeerMsg cfg env sparams st).events =
        [sendToPeerProcess env pe.sunPath (sparams.message cfg.selfIp e.portno)] ∧
      (handlePeerMsg cfg env sparams st).exit = .returned (if env.peerOk then 1 else -1) := by
  have hnames : (env.resolves cfg.selfIp && env.resolves sparams.destip) = true := by
    rw [henv.resolves, henv.resolves]
    rfl
  simp only [handlePeerMsg, hpath]
  rw [if_pos hnames, if_pos hself, handleLocalMsg, hport]
  exact ⟨rfl, rfl⟩

theorem handlePeerMsg_of_remote (henv : env.Succeeds)
    (hpath : fetchEntryPath sparams.filename st.ports st.nextPortno = some (e, ports, next))
    (hself : cfg.selfIp ≠ sparams.destip) (he : ∀ e ∈ st.table, HasInterface cfg e) :
    (handlePeerMsg cfg env sparams st).events = [] ∧
      (handlePeerMsg cfg env sparams st).exit = .returned 1 := by
  have hnames : (env.resolves cfg.selfIp && env.resolves sparams.destip) = true := by
    rw [henv.resolves, henv.resolves]
    rfl
  simp only [handlePeerMsg, hpath]
  rw [if_pos hnames, if_neg hself]
  simp only [handleRemoteMsg, getREntry_list, bind_entryAt_list,
    sendRawFrames_of_linksUp henv.toLinksUp]
  split
  · exact ⟨rfl, rfl⟩
  · next d hentry =>
      obtain ⟨t, ht⟩ := sendDataMessage_eq (he d (route_mem (getREntry_entry hentry).1).1)
        cfg.selfIp e.portno sparams
      rw [ht]
      exact ⟨rfl, rfl⟩

/-- A case of the `switch` reports nothing, or the one message of a DATA frame for the
node. -/
theorem react_events (cfg : Config) (env : Env) (intfN : Int) (f : OdrFrame) (l : Learned)
    (dest : Option REntry) (st : NodeState) (type : FrameType) :
    (react cfg env intfN f l dest st type).events = [] ∨
    type = .data ∧ f.destIp = cfg.selfIp ∧
      (react cfg env intfN f l dest st type).events = [processDataMessage env st.ports f] := by
  cases hevents : (react cfg env intfN f l dest st type).events with
  | nil => exact .inl rfl
  | cons ev evs =>
      have hmem : ev ∈ (react cfg env intfN f l dest st type).events := by
        rw [hevents]
        exact List.mem_cons_self
      have hself := (mem_react_events hmem).1
      cases type with
      | data =>
          simp only [react, handleData, fields_odrFrame, if_pos hself] at hevents
          exact .inr ⟨rfl, hself, hevents.symm⟩
      | rreq => simp [react, handleRreq, hself] at hevents
      | rrep =>
          simp only [react, handleRrep, fields_odrFrame, if_pos hself] at hevents
          split at hevents
          · cases hevents
          · unfold releaseFrame at hevents
            split at hevents <;> cases hevents
      | asent => cases hevents

theorem handleEthernetMsg_events (cfg : Config) (env : Env) (intfN : Int) (addr : Mac)
    (buf : OdrFrame) (st : NodeState) :
    (handleEthernetMsg cfg env intfN addr buf st).events = [] ∨
    FrameType.ofInt (processRecvdFrame buf).frameType = some .data ∧
      (processRecvdFrame buf).destIp = cfg.selfIp ∧
      (handleEthernetMsg cfg env intfN addr buf st).events =
        [processDataMessage env st.ports (processRecvdFrame buf)] := by
  rcases handleEthernetMsg_cases cfg env intfN addr buf st with
    ⟨_, heq⟩ | ⟨_, _, _, _, heq⟩ | ⟨type, hproc, heq⟩
  · rw [heq]
    exact .inl rfl
  · rw [heq]
    exact .inl rfl
  · rw [heq, Reaction.outcome_events, reaction]
    apply (react_events ..).imp id
    rintro ⟨rfl, hself, hevents⟩
    exact ⟨hproc.type_eq, hself, hevents⟩

end Calls

/-! ## Texts -/

section Texts

variable {c : Char}

theorem notSeparator_of_mem_leftpad {n width : Nat} {ch : Char} (hch : notSeparator ch = true)
    (hc : c ∈ (Nat.toDigits 10 n).leftpad width ch) : notSeparator c = true := by
  rw [List.leftpad, List.mem_append] at hc
  apply hc.elim
  · intro hpad
    rw [List.eq_of_mem_replicate hpad]
    exact hch
  · intro hdigit
    exact notSeparator_of_isDigit (isDigit_of_mem_toDigits_ten hdigit)

theorem notSeparator_of_mem_dayName {tm : Tm} (hc : c ∈ tm.dayName) : notSeparator c = true := by
  have hall : ∀ d : Fin 7, (["Sun", "Mon", "Tue", "Wed", "Thu", "Fri", "Sat"].get d).toList.all
      notSeparator = true := by decide
  exact List.all_eq_true.mp (hall tm.wday) c hc

theorem notSeparator_of_mem_monthName {tm : Tm} (hc : c ∈ tm.monthName) :
    notSeparator c = true := by
  have hall : ∀ m : Fin 12, (["Jan", "Feb", "Mar", "Apr", "May", "Jun", "Jul", "Aug", "Sep",
      "Oct", "Nov", "Dec"].get m).toList.all notSeparator = true := by decide
  exact List.all_eq_true.mp (hall tm.mon) c hc

theorem notSeparator_of_mem_ctime {tm : Tm} (hc : c ∈ ctime tm) : notSeparator c = true := by
  simp only [ctime, List.mem_append, List.mem_cons, List.not_mem_nil, or_false] at hc
  rcases hc with hc | rfl | (hc | hc) | rfl | hc | rfl | hc | rfl | hc | rfl | hc | rfl
  · exact notSeparator_of_mem_dayName hc
  · decide
  · exact notSeparator_of_mem_monthName hc
  · exact notSeparator_of_mem_leftpad (by decide) hc
  · decide
  · exact notSeparator_of_mem_leftpad (by decide) hc
  · decide
  · exact notSeparator_of_mem_leftpad (by decide) hc
  · decide
  · exact notSeparator_of_mem_leftpad (by decide) hc
  · decide
  · exact notSeparator_of_isDigit (isDigit_of_mem_toDigits_ten hc)
  · decide

/-- A time is one field of the formats. -/
theorem isField_timeMsg (ticks : Tm) : IsField (timeMsg ticks) := by
  constructor
  case ne_empty =>
    intro hempty
    have hlist := congrArg String.toList hempty
    simp [timeMsg] at hlist
  case clean =>
    intro c hc
    rw [timeMsg, String.toList_ofList, List.mem_append] at hc
    apply hc.elim
    · intro htime
      exact notSeparator_of_mem_ctime (List.mem_of_mem_take htime)
    · intro hend
      have hall : ['\r', '\n'].all notSeparator = true := by decide
      exact List.all_eq_true.mp hall c hend

theorem isField_helloMsg : IsField helloMsg := by
  have hall : helloMsg.toList.all notSeparator = true := by decide
  exact ⟨by decide, List.all_eq_true.mp hall⟩

theorem isField_unixServPath : IsField unixServPath := by
  have hall : unixServPath.toList.all notSeparator = true := by decide
  exact ⟨by decide, List.all_eq_true.mp hall⟩

end Texts

/-! ## Clients and their ports -/

variable {Node Client : Type} {T : Topology Node} {site : Site Node Client}

/-- What the applications rely on: addresses are addresses, host names lead to nodes, and
every client has a file of its own. -/
structure SiteOk (T : Topology Node) (site : Site Node Client) : Prop where
  address : ∀ n, IsDottedQuad (T.ip n)
  hosts : ∀ servVm ip, site.canonicalIp servVm = some ip → ∃ n, T.ip n = ip
  field : ∀ c, IsField (site.tempfile c)
  client : ∀ c, site.tempfile c ≠ unixServPath
  distinct : ∀ c c', site.home c = site.home c' → site.tempfile c = site.tempfile c' → c = c'

/-- Not too many of the clients `A` are on one node: the daemon has ports for all of them. -/
def FewClients [DecidableEq Node] (site : Site Node Client) (A : Finset Client) : Prop :=
  ∀ n, (A.filter fun c => site.home c = n).card ≤ 4591

theorem fewClients_singleton [DecidableEq Node] (site : Site Node Client) (c : Client) :
    FewClients site {c} :=
  fun _ => (Finset.card_filter_le _ _).trans (by simp)

/-- The daemon of its node knows the client `c` by `port`. -/
def PortOf (site : Site Node Client) (net : Net Node) (c : Client) (port : Int) : Prop :=
  findKey MapPortSp.sunPath (site.tempfile c) (net.nodes (site.home c)).ports =
    some { portno := port, sunPath := site.tempfile c }

/-- Only clients of the node, and only those of `A`, are in the port map of its daemon. -/
def PathsFor (site : Site Node Client) (A : Finset Client) (net : Net Node) : Prop :=
  ∀ n, ∃ cs, PortsFor cs (net.nodes n) ∧
    ∀ p ∈ cs, ∃ c ∈ A, site.home c = n ∧ site.tempfile c = p

section Ports

variable {net net' : Net Node} {a : Action Node} {A : Finset Client} {c : Client} {n : Node}
  {port : Int}

theorem PathsFor.ne_nil (h : PathsFor site A net) (n : Node) : (net.nodes n).ports ≠ [] := by
  obtain ⟨cs, hcs, _⟩ := h n
  rw [hcs.ports]
  exact portMap_ne_nil cs

theorem pathsFor_initial : PathsFor site A (Net.initial Node) :=
  fun _ => ⟨[], portsFor_initial, by simp⟩

variable [DecidableEq Node]

/-- Ports lead to one path. -/
theorem PathsFor.nodup (h : PathsFor site A net) (hfew : FewClients site A) (n : Node) :
    ((net.nodes n).ports.map MapPortSp.portno).Nodup := by
  obtain ⟨cs, hcs, hclients⟩ := h n
  rw [hcs.ports]
  apply nodup_portno_portMap
  have hsub : cs.toFinset ⊆ (A.filter fun c => site.home c = n).image site.tempfile := by
    intro p hp
    obtain ⟨c, hc, hhome, rfl⟩ := hclients p (List.mem_toFinset.mp hp)
    exact Finset.mem_image_of_mem _ (Finset.mem_filter.mpr ⟨hc, hhome⟩)
  calc cs.length = cs.toFinset.card := (List.toFinset_card_of_nodup hcs.nodup).symm
    _ ≤ ((A.filter fun c => site.home c = n).image site.tempfile).card :=
        Finset.card_le_card hsub
    _ ≤ (A.filter fun c => site.home c = n).card := Finset.card_image_le
    _ ≤ 4591 := hfew n

theorem PathsFor.fetch_client (h : PathsFor site A net) (hfew : FewClients site A)
    (hport : PortOf site net c port) :
    fetchEntryPort port (net.nodes (site.home c)).ports =
      some { portno := port, sunPath := site.tempfile c } :=
  findKey_of_mem (h.nodup hfew _) (mem_of_findKey hport).1

theorem PathsFor.fetch_server (h : PathsFor site A net) (hfew : FewClients site A) (n : Node) :
    fetchEntryPort servPort (net.nodes n).ports =
      some { portno := servPort, sunPath := unixServPath } := by
  have hmem : { portno := servPort, sunPath := unixServPath } ∈ (net.nodes n).ports := by
    obtain ⟨cs, hcs, _⟩ := h n
    rw [hcs.ports]
    exact server_mem_portMap cs
  exact findKey_of_mem (h.nodup hfew n) hmem

theorem PathsFor.request (h : PathsFor site A net) {sparams : SendParams} (env : Env)
    (hfile : sparams.filename = unixServPath ∨
      ∃ c ∈ A, site.home c = n ∧ site.tempfile c = sparams.filename) :
    PathsFor site A (T.takeRequest net n sparams env) := by
  apply forall_nodes_takeRequest (fun m st => ∃ cs, PortsFor cs st ∧
    ∀ p ∈ cs, ∃ c ∈ A, site.home c = m ∧ site.tempfile c = p) h
  obtain ⟨cs, hcs, hclients⟩ := h n
  refine ⟨_, hcs.peer, fun p hp => ?_⟩
  rw [withPath] at hp
  split_ifs at hp with hknown
  · exact hclients p hp
  · apply (List.mem_cons.mp hp).elim
    · rintro rfl
      apply hfile.resolve_left
      intro hserv
      exact hknown (List.mem_append_right _ (List.mem_singleton.mpr hserv))
    · exact hclients p

theorem PathsFor.deliver (h : PathsFor site A net) (p : Packet Node) (rest : List (Packet Node))
    (env : Env) : PathsFor site A (T.deliverPacket net p rest env) := by
  apply forall_nodes_deliverPacket (fun m st => ∃ cs, PortsFor cs st ∧
    ∀ p ∈ cs, ∃ c ∈ A, site.home c = m ∧ site.tempfile c = p) h
  obtain ⟨cs, hcs, hclients⟩ := h p.dst
  exact ⟨cs, hcs.ethernet, hclients⟩

/-- A client keeps its port. -/
theorem PortOf.step (h : PortOf site net c port) (hs : T.step net a = some net') :
    PortOf site net' c port := by
  let P : Node → NodeState → Prop := fun m st => m = site.home c →
    findKey MapPortSp.sunPath (site.tempfile c) st.ports =
      some { portno := port, sunPath := site.tempfile c }
  have hP : ∀ m, P m (net.nodes m) := by
    rintro m rfl
    exact h
  rcases step_cases hs with ⟨n, sparams, env, rfl, rfl⟩ | ⟨k, env, p, rfl, hk, rfl⟩
  · apply forall_nodes_takeRequest P hP _ _ rfl
    intro hn
    exact findKey_ports_step (.request env sparams) (hP n hn)
  · apply forall_nodes_deliverPacket P hP _ _ rfl
    intro hn
    exact findKey_ports_step (.recv env p.ifIndex p.srcMac p.frame) (hP p.dst hn)

end Ports

/-! ## Letters -/

section Letters

variable {net net' : Net Node} {a : Action Node} {A : Finset Client} {c : Client} {n : Node}
  {port : Int}

/-- The text of a request to the daemon of `n`; the clients of `A` ask. -/
def RequestText (T : Topology Node) (site : Site Node Client) (A : Finset Client)
    (net : Net Node) (n : Node) : Letter Client Node String → String → Prop
  | .ask c v, text => c ∈ A ∧ site.home c = n ∧ ∃ flag, text = site.hello c (T.ip v) flag
  | .answer c v msg, text => v = n ∧ IsField msg ∧ ∃ port, PortOf site net c port ∧
      text = msgSend (T.ip (site.home c)) port msg 0 unixServPath

/-- The text in which a server gets the question of `c`. -/
def QuestionText (T : Topology Node) (site : Site Node Client) (net : Net Node) (c : Client)
    (text : String) : Prop :=
  ∃ port, PortOf site net c port ∧ text = peerSequence (T.ip (site.home c)) port helloMsg

/-- The text in which a client gets the answer `x.2` of the server at `x.1`. -/
def AnswerText (T : Topology Node) (x : Node × String) (text : String) : Prop :=
  IsField x.2 ∧ text = peerSequence (T.ip x.1) servPort x.2

/-- The message between two nodes. -/
def LetterMsg (T : Topology Node) (site : Site Node Client) (net : Net Node) :
    Letter Client Node String → AppMsg → Prop
  | .ask c v, m => ∃ port, PortOf site net c port ∧
      m = { srcIp := T.ip (site.home c), destIp := T.ip v, srcPort := port,
            dstPort := servPort, payload := helloMsg }
  | .answer c v msg, m => IsField msg ∧ ∃ port, PortOf site net c port ∧
      m = { srcIp := T.ip v, destIp := T.ip (site.home c), srcPort := servPort,
            dstPort := port, payload := msg }

/-- The path at which a letter arrives. -/
def letterPath (site : Site Node Client) : Letter Client Node String → String
  | .ask _ _ => unixServPath
  | .answer c _ _ => site.tempfile c

variable {l : Letter Client Node String} {m : AppMsg}

theorem LetterMsg.destIp (h : LetterMsg T site net l m) : m.destIp = T.ip (l.dest site.home) := by
  cases l with
  | ask c v =>
      obtain ⟨_, _, rfl⟩ := h
      rfl
  | answer c v msg =>
      obtain ⟨_, _, _, rfl⟩ := h
      rfl

variable [DecidableEq Node]

theorem RequestText.step {l : Letter Client Node String} {text : String}
    (h : RequestText T site A net n l text) (hs : T.step net a = some net') :
    RequestText T site A net' n l text := by
  cases l with
  | ask c v => exact h
  | answer c v msg =>
      obtain ⟨hv, hmsg, port, hport, htext⟩ := h
      exact ⟨hv, hmsg, port, hport.step hs, htext⟩

theorem QuestionText.step {text : String} (h : QuestionText T site net c text)
    (hs : T.step net a = some net') : QuestionText T site net' c text := by
  obtain ⟨port, hport, htext⟩ := h
  exact ⟨port, hport.step hs, htext⟩

theorem LetterMsg.step {l : Letter Client Node String} {m : AppMsg}
    (h : LetterMsg T site net l m) (hs : T.step net a = some net') :
    LetterMsg T site net' l m := by
  cases l with
  | ask c v =>
      obtain ⟨port, hport, hm⟩ := h
      exact ⟨port, hport.step hs, hm⟩
  | answer c v msg =>
      obtain ⟨hmsg, port, hport, hm⟩ := h
      exact ⟨hmsg, port, hport.step hs, hm⟩

/-- Its port leads a message to the path of its letter. -/
theorem LetterMsg.fetch (h : LetterMsg T site net l m) (hpaths : PathsFor site A net)
    (hfew : FewClients site A) :
    fetchEntryPort m.dstPort (net.nodes (l.dest site.home)).ports =
      some { portno := m.dstPort, sunPath := letterPath site l } := by
  cases l with
  | ask c v =>
      obtain ⟨_, _, rfl⟩ := h
      exact hpaths.fetch_server hfew v
  | answer c v msg =>
      obtain ⟨_, port, hport, rfl⟩ := h
      exact hpaths.fetch_client hfew hport

/-- The daemon scans what it gets.  The request names a path of the node, and once that path
has an entry, the message of the request is that of the letter. -/
theorem RequestText.scans {text : String} (h : RequestText T site A net n l text)
    (hsite : SiteOk T site) :
    ∃ sparams, getSendParams text = some sparams ∧ sparams.destip = T.ip (l.dest site.home) ∧
      (sparams.filename = unixServPath ∨
        ∃ c ∈ A, site.home c = n ∧ site.tempfile c = sparams.filename) ∧
      ∀ net' a e, T.step net a = some net' → PathsFor site A net' →
        findKey MapPortSp.sunPath sparams.filename (net'.nodes n).ports = some e →
        LetterMsg T site net' l (sparams.message (T.ip n) e.portno) := by
  cases l with
  | ask c v =>
      obtain ⟨hc, rfl, flag, rfl⟩ := h
      refine ⟨_, getSendParams_msgSend (hsite.address v).isField isField_helloMsg (hsite.field c),
        rfl, .inr ⟨c, hc, rfl, rfl⟩, ?_⟩
      intro net' a e _ _ he
      have hfile : { portno := e.portno, sunPath := site.tempfile c } = e := by
        rw [← show e.sunPath = site.tempfile c from (mem_of_findKey he).2]
      refine ⟨e.portno, ?_, rfl⟩
      rw [PortOf, hfile]
      exact he
  | answer c v msg =>
      obtain ⟨rfl, hmsg, port, hport, rfl⟩ := h
      refine ⟨_, getSendParams_msgSend (hsite.address _).isField hmsg isField_unixServPath,
        rfl, .inl rfl, ?_⟩
      intro net' a e hs hpaths he
      refine ⟨hmsg, port, hport.step hs, ?_⟩
      -- the server is registered from the start
      have hserv : e = { portno := servPort, sunPath := unixServPath } := by
        obtain ⟨cs, hcs, _⟩ := hpaths v
        rw [hcs.ports, findKey_unixServPath_portMap hcs.server] at he
        exact (Option.some.inj he).symm
      rw [hserv]
      rfl

end Letters

/-! ## Sockets -/

section Sockets

variable [DecidableEq Node] {s : AppNet Node Client} {c : Client} {n : Node} {m : AppMsg}

theorem bound_server [Fintype Client] (s : AppNet Node Client) (n : Node) :
    site.bound s n unixServPath = true := by
  simp [Site.bound]

theorem bound_client [Fintype Client] (hc : s.clients c ≠ .exited) :
    site.bound s (site.home c) (site.tempfile c) = true := by
  rw [Site.bound, Bool.or_eq_true]
  right
  exact decide_eq_true ⟨c, rfl, rfl, hc⟩

/-- A datagram for the server's path gets to the server only. -/
theorem hand_server (hsite : SiteOk T site) :
    site.hand n s (.sentTo unixServPath m) = { s with
      servSock := Function.update s.servSock n
        (s.servSock n ++ [peerSequence m.srcIp m.srcPort m.payload]) } := by
  have hcli : (fun c => if site.home c = n ∧ site.tempfile c = unixServPath then
      s.cliSock c ++ [peerSequence m.srcIp m.srcPort m.payload] else s.cliSock c) = s.cliSock := by
    funext c
    rw [if_neg fun h => hsite.client c h.2]
  simp only [Site.hand, if_true, hcli]

/-- A datagram for a client's path gets to that client only. -/
theorem hand_client [DecidableEq Client] (hsite : SiteOk T site) :
    site.hand (site.home c) s (.sentTo (site.tempfile c) m) = { s with
      cliSock := Function.update s.cliSock c
        (s.cliSock c ++ [peerSequence m.srcIp m.srcPort m.payload]) } := by
  have hcli : (fun c' => if site.home c' = site.home c ∧ site.tempfile c' = site.tempfile c then
      s.cliSock c' ++ [peerSequence m.srcIp m.srcPort m.payload] else s.cliSock c') =
      Function.update s.cliSock c
        (s.cliSock c ++ [peerSequence m.srcIp m.srcPort m.payload]) := by
    funext c'
    by_cases hc : c' = c
    · subst hc
      rw [if_pos ⟨rfl, rfl⟩, Function.update_self]
    · rw [if_neg fun h => hc (hsite.distinct c' c h.1 h.2), Function.update_of_ne hc]
  simp only [Site.hand, if_neg (hsite.client c), hcli]

end Sockets

/-! ## Messages on their way -/

section Way

variable [Fintype Node] {net net' : Net Node} {h : List (Net Node × Action Node)}

/-- The messages on the wire and in the queues. -/
def onTheWay (net : Net Node) : Multiset AppMsg :=
  (flightMsgs net.flight : Multiset AppMsg) +
    ∑ n, (queuedMsgs (net.nodes n).pending : Multiset AppMsg)

theorem mem_onTheWay_of_flight {p : Packet Node} (hp : p ∈ net.flight)
    (htype : FrameType.ofInt p.host.frameType = some .data) : p.host.message ∈ onTheWay net := by
  rw [onTheWay, Multiset.mem_add]
  left
  exact List.mem_filterMap.mpr ⟨p, hp, dataMsg?_of_data htype⟩

variable [DecidableEq Node]

theorem accepted_eq_onTheWay (ht : Trace T.step (Net.initial Node) h net)
    (henv : ∀ x ∈ h, x.2.env.Succeeds) :
    (net.accepted : Multiset AppMsg) = onTheWay net +
      (net.delivered.map Prod.snd : Multiset AppMsg) +
      (net.discarded.map Prod.snd : Multiset AppMsg) := by
  ext m
  simp only [onTheWay, Multiset.count_add, Multiset.count_sum', Multiset.coe_count]
  exact conserved_of_trace ht henv m

/-- What a step adds to the messages on their way and what it takes from them. -/
theorem onTheWay_step {h' : List (Net Node × Action Node)} (taken done : List AppMsg)
    (ht : Trace T.step (Net.initial Node) h net) (henv : ∀ x ∈ h, x.2.env.Succeeds)
    (ht' : Trace T.step (Net.initial Node) h' net') (henv' : ∀ x ∈ h', x.2.env.Succeeds)
    (haccepted : net'.accepted = net.accepted ++ taken)
    (hdelivered : net'.delivered.map Prod.snd = net.delivered.map Prod.snd ++ done)
    (hdiscarded : net'.discarded = net.discarded) :
    onTheWay net' + (done : Multiset AppMsg) = onTheWay net + (taken : Multiset AppMsg) := by
  have hbefore := accepted_eq_onTheWay ht henv
  have hafter := accepted_eq_onTheWay ht' henv'
  ext m
  have hm := congrArg (Multiset.count m) hbefore
  have hm' := congrArg (Multiset.count m) hafter
  rw [haccepted, hdelivered, hdiscarded] at hm'
  simp only [Multiset.count_add, Multiset.coe_count, List.count_append] at hm hm' ⊢
  omega

end Way

end OnDemandRouting.Proofs
